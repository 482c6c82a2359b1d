import DblService.HttpResponder

/-!
# Requests that are redirected

`Request::execute` collects the header lines of every response that libcurl meets on the way,
and the response that `Request::fetch` returns is read from all of them.
-/

namespace DblService

structure HttpReply where
  status : Int
  lines : List String  -- the status line and the header lines, without their ends
  parts : List String := []  -- the parts in which the body arrives

/-- The calls that `curl_easy_perform` makes, and the response code when it succeeds. -/
structure Transfer where
  headerCalls : List String
  bodyCalls : List String
  code : Option Int

namespace HttpReply

def headerCalls (reply : HttpReply) : List String := reply.lines.map (· ++ "\r\n")

def headers (reply : HttpReply) : Headers := Http.parseHeaders (String.join reply.headerCalls)

/-- The first value that the responses give for a name. -/
def given (replies : List HttpReply) (name : String) : Option String :=
  Headers.find (replies.flatMap headers) name

private theorem given_append (replies replies' : List HttpReply) (name : String) :
    given (replies ++ replies') name = (given replies name).or (given replies' name) := by
  rw [given, List.flatMap_append, Headers.find_append]
  rfl

/-- A transfer with `CURLOPT_FOLLOWLOCATION`: the bodies of the redirects are not reported. -/
def follow (chain : List HttpReply) (final : HttpReply) : Transfer where
  headerCalls := (chain ++ [final]).flatMap headerCalls
  bodyCalls := final.parts
  code := some final.status

end HttpReply

namespace Request

def writer (writerData data : String) : String := writerData ++ data

/-- `Request::execute` on a new response, whose status code is zero. -/
def execute (transfer : Transfer) : Bool × Response :=
  (transfer.code.isSome,
    { statusCode := transfer.code.getD 0
      rawHeaders := transfer.headerCalls.foldl writer ""
      body := transfer.bodyCalls.foldl writer "" })

def fetch (transfer : Transfer) : Option Response :=
  let (ok, response) := execute transfer
  if ok then some response else none

/-! ## The accumulated header lines -/

private theorem foldl_writer (calls : List String) : calls.foldl writer "" = String.join calls := by
  rw [String.join]
  rfl

private theorem fetch_follow (chain : List HttpReply) (final : HttpReply) :
    fetch (HttpReply.follow chain final) =
      some ⟨final.status, String.join ((chain ++ [final]).flatMap HttpReply.headerCalls),
        String.join final.parts⟩ := by
  rw [← foldl_writer, ← foldl_writer]
  rfl

end Request

namespace Http

private theorem parseLine_lineFeed (line : List Char) :
    parseLine ('\n' :: line) = parseLine line := by
  by_cases hmem : ':' ∈ line
  · obtain ⟨name, value, rfl, hname⟩ := List.eq_append_cons_of_mem hmem
    have hfeed : ':' ∉ '\n' :: name := by
      rw [List.mem_cons, not_or]
      exact ⟨by decide, hname⟩
    rw [← List.cons_append, parseLine_append hfeed, parseLine_append hname,
      trimCopy_cons (by decide)]
  · have hfeed : ':' ∉ '\n' :: line := by
      rw [List.mem_cons, not_or]
      exact ⟨by decide, hmem⟩
    rw [parseLine_none hfeed, parseLine_none hmem]

private theorem parseHeaders_crlf (a b : String) :
    parseHeaders (a ++ "\r\n" ++ b) = parseHeaders a ++ parseHeaders b := by
  have htext : (a ++ "\r\n" ++ b).toList = a.toList ++ '\r' :: '\n' :: b.toList := by simp
  have hfeed : ('\n' :: b.toList).splitOn '\r' =
      (b.toList.splitOn '\r').modifyHead (List.cons '\n') := by
    rw [List.splitOn_cons_eq_if_modifyHead]
    simp
  obtain ⟨first, rest, hsplit⟩ := List.exists_cons_of_ne_nil (List.splitOn_ne_nil '\r' b.toList)
  rw [parseHeaders, parseHeaders, parseHeaders, htext, List.splitOn_append_cons_self, hfeed, hsplit,
    List.modifyHead_cons, List.filterMap_append, List.filterMap_cons, List.filterMap_cons,
    parseLine_lineFeed]

private theorem parseHeaders_lines (lines : List String) :
    parseHeaders (String.join (lines.map (· ++ "\r\n"))) = lines.flatMap parseHeaders := by
  induction lines with
  | nil => rfl
  | cons line lines ih =>
    rw [List.map_cons, String.join_cons, parseHeaders_crlf, ih, List.flatMap_cons]

private theorem parseHeaders_join (replies : List HttpReply) :
    parseHeaders (String.join (replies.flatMap HttpReply.headerCalls)) =
      replies.flatMap HttpReply.headers := by
  have hlines : replies.flatMap HttpReply.headerCalls =
      (replies.flatMap HttpReply.lines).map (· ++ "\r\n") := (List.map_flatMap ..).symm
  have hheaders : HttpReply.headers = fun reply => reply.lines.flatMap parseHeaders :=
    funext fun reply => parseHeaders_lines reply.lines
  rw [hlines, parseHeaders_lines, hheaders, List.flatMap_assoc]

end Http

/-! ## The headers of the final response -/

open Request

/-- The fetched response has the headers of the final one and its date. -/
structure OfFinal (env : Env) (final : HttpReply) (r : Response) : Prop where
  header : ∀ name value, Headers.find final.headers name = some value → r.getHeader name = value
  modified : r.getLastModified env =
    lastModified env ((Headers.find final.headers "Last-Modified").getD "")

/-- The redirects give the headers of the final response as it does, or not at all; where it has
no date, neither have they. -/
structure Unshadowed (env : Env) (chain : List HttpReply) (final : HttpReply) : Prop where
  header : ∀ name value earlier, Headers.find final.headers name = some value →
    HttpReply.given chain name = some earlier → earlier = value
  modified : ∀ earlier, Headers.find final.headers "Last-Modified" = none →
    HttpReply.given chain "Last-Modified" = some earlier → lastModified env earlier = 0

private theorem getHeader_follow (chain : List HttpReply) (final : HttpReply) {r : Response}
    (h : fetch (HttpReply.follow chain final) = some r) (name : String) :
    r.getHeader name =
      ((HttpReply.given chain name).or (Headers.find final.headers name)).getD "" := by
  rw [fetch_follow, Option.some.injEq] at h
  have hlast : HttpReply.given [final] name = Headers.find final.headers name := by
    rw [HttpReply.given, List.flatMap_singleton]
  rw [Response.getHeader_eq, ← h, Http.find_insertHeaders, Http.parseHeaders_join, ← hlast,
    ← HttpReply.given_append]
  rfl

private theorem getLastModified_follow (env : Env) (chain : List HttpReply) (final : HttpReply)
    {r : Response} (h : fetch (HttpReply.follow chain final) = some r) :
    r.getLastModified env = lastModified env
      (((HttpReply.given chain "Last-Modified").or
        (Headers.find final.headers "Last-Modified")).getD "") :=
  congrArg (lastModified env) (getHeader_follow chain final h "Last-Modified")

/-- The headers of the final response, and its date, are found exactly when no redirect gives
others before it. -/
theorem fetch_ofFinal_iff (env : Env) (chain : List HttpReply) (final : HttpReply) :
    (∃ r, fetch (HttpReply.follow chain final) = some r ∧ OfFinal env final r) ↔
      Unshadowed env chain final := by
  constructor
  · intro ⟨r, hfetch, hfinal⟩
    constructor
    · intro name value earlier hvalue hearlier
      have hheader := hfinal.header name value hvalue
      rw [getHeader_follow chain final hfetch, hearlier] at hheader
      exact hheader
    · intro earlier hnone hearlier
      have hmodified := hfinal.modified
      rw [getLastModified_follow env chain final hfetch, hearlier, hnone] at hmodified
      exact hmodified
  · intro hchain
    have hheader (name : String) := getHeader_follow chain final (fetch_follow chain final) name
    refine ⟨_, fetch_follow chain final, ?_, ?_⟩
    · intro name value hvalue
      rw [hheader, hvalue]
      cases hearlier : HttpReply.given chain name with
      | none => rfl
      | some earlier => exact hchain.header name value earlier hvalue hearlier
    · rw [getLastModified_follow env chain final (fetch_follow chain final)]
      cases hearlier : HttpReply.given chain "Last-Modified" with
      | none => rfl
      | some earlier =>
        cases hvalue : Headers.find final.headers "Last-Modified" with
        | none => exact hchain.modified earlier hvalue hearlier
        | some value =>
          rw [hchain.header _ value earlier hvalue hearlier]
          rfl

def movedReply : HttpReply where
  status := 302
  lines := ["HTTP/1.1 302 Found", "Server: edge", "Location: http://lists.example/hosts",
    "Last-Modified: Sat, 14 Nov 2015 10:44:00 GMT", ""]

def listReply : HttpReply where
  status := 200
  lines := ["HTTP/1.1 200 OK", "Server: origin", "Last-Modified: Sun, 15 Nov 2015 10:44:00 GMT", ""]
  parts := ["127.0.0.1 ads.example\n"]

private theorem movedReply_headers :
    movedReply.headers = [("Server", "edge"), ("Location", "http://lists.example/hosts"),
      ("Last-Modified", "Sat, 14 Nov 2015 10:44:00 GMT")] := by
  decide +kernel

private theorem listReply_headers :
    listReply.headers =
      [("Server", "origin"), ("Last-Modified", "Sun, 15 Nov 2015 10:44:00 GMT")] := by
  decide +kernel

/-- The status and the body are those of the list, the headers those of the redirect. -/
theorem fetch_moved :
    ∃ r, fetch (HttpReply.follow [movedReply] listReply) = some r ∧ r.statusCode = 200 ∧
      r.body = "127.0.0.1 ads.example\n" ∧ r.getHeader "Server" = "edge" ∧
      Headers.find listReply.headers "Server" = some "origin" ∧
      r.getHeader "Last-Modified" = "Sat, 14 Nov 2015 10:44:00 GMT" ∧
      Headers.find listReply.headers "Last-Modified" = some "Sun, 15 Nov 2015 10:44:00 GMT" ∧
      ¬ ∀ (env : Env) (chain : List HttpReply) (final : HttpReply),
        ∃ r, fetch (HttpReply.follow chain final) = some r ∧ OfFinal env final r := by
  have hheader (name : String) :=
    getHeader_follow [movedReply] listReply (fetch_follow [movedReply] listReply) name
  have hgiven (name : String) :
      HttpReply.given [movedReply] name = Headers.find movedReply.headers name := by
    rw [HttpReply.given, List.flatMap_singleton]
  refine ⟨_, fetch_follow [movedReply] listReply, rfl, rfl, ?_, ?_, ?_, ?_, ?_⟩
  · rw [hheader, hgiven, movedReply_headers]
    decide
  · rw [listReply_headers]
    decide
  · rw [hheader, hgiven, movedReply_headers]
    decide
  · rw [listReply_headers]
    decide
  · intro h
    obtain ⟨r, hfetch, hfinal⟩ := h (Env.ofTexts []) [movedReply] listReply
    have hserver := hfinal.header "Server" "origin" (by rw [listReply_headers]; decide)
    rw [getHeader_follow _ _ hfetch, hgiven, movedReply_headers] at hserver
    exact absurd hserver (by decide)

end DblService
