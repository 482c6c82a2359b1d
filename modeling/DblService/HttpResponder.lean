import DblService.Headers
import DblService.Service.ServiceConnection

/-!
# The HTTP responder and the case of header names

`HTTPResponderConnection` logs a hit for the host of a request, and `get_last_modified` takes
the date of a response; both look a header up by its name, exactly as it is spelled.
-/

namespace DblService

open Framework Session

/-- What the responder is configured to answer. -/
structure ResponderOptions where
  httpResponderStatusCode : Int := 404
  httpResponderStatusText : String := "Not found"

namespace HTTPResponderConnection

def host (request : String) : String := ((Http.insertHeaders request []).find "Host").getD ""

def reply (options : ResponderOptions) : List String :=
  ["HTTP/1.1 " ++ toString options.httpResponderStatusCode ++ " " ++
      options.httpResponderStatusText,
    "Server: HTTPResponder",
    "Content-Type: text/html",
    "Content-Length: 0"]

/-- `process_request`; the value is what is appended to the response. -/
def processRequest (options : ResponderOptions) (request : String) : Code String := do
  let domain := host request
  if domain ≠ "" then Logger.logDomainHit domain
  pure (String.join ((reply options).map (· ++ "\r\n")) ++ "\r\n\r\n")

/-! ## What is logged -/

def answer (options : ResponderOptions) : String :=
  String.join ((reply options).map (· ++ "\r\n")) ++ "\r\n\r\n"

theorem processRequest_of_host {request : String} (h : host request ≠ "")
    (options : ResponderOptions) :
    processRequest options request =
      Logger.logDomainHit (host request) >>= fun _ => pure (answer options) :=
  if_pos h

private theorem processRequest_of_no_host {request : String} (h : host request = "")
    (options : ResponderOptions) : processRequest options request = pure (answer options) :=
  if_neg (not_not.2 h)

/-- The hits after a request, when there were none before. -/
theorem exec_processRequest_empty (options : ResponderOptions) (request : String) :
    ∃ r s', (Store.free ⟨Db.empty, none⟩).exec (processRequest options request) =
        some (.ok r, s') ∧
      s'.conn.file.statsDomains = if host request = "" then [] else [⟨host request, 1⟩] := by
  by_cases hhost : host request = ""
  · rw [processRequest_of_no_host hhost, if_pos hhost]
    exact ⟨_, _, rfl, rfl⟩
  · rw [processRequest_of_host hhost, if_neg hhost]
    have hhit : (⟨host request, 1⟩ : StatsRow) =
        if host request = host request then ⟨host request, 0 + 1⟩ else ⟨host request, 0⟩ :=
      (if_pos rfl).symm
    rw [hhit]
    exact ⟨_, _, rfl, rfl⟩

/-- Two requests have the same effect in every store exactly when a hit is logged for the same
domain, if any. -/
theorem exec_processRequest_eq_iff (options : ResponderOptions) (a b : String) :
    (∀ s : Store, s.exec (processRequest options a) = s.exec (processRequest options b)) ↔
      host a = host b := by
  constructor
  · intro h
    obtain ⟨r, s, hrun, hstats⟩ := exec_processRequest_empty options a
    obtain ⟨r', s', hrun', hstats'⟩ := exec_processRequest_empty options b
    rw [h, hrun'] at hrun
    cases hrun
    rw [hstats] at hstats'
    by_cases ha : host a = ""
    · by_cases hb : host b = ""
      · rw [ha, hb]
      · simp [ha, hb] at hstats'
    · by_cases hb : host b = ""
      · simp [ha, hb] at hstats'
      · simpa [ha, hb] using hstats'
  · intro h s
    unfold processRequest
    rw [h]

end HTTPResponderConnection

/-- The date of a header, where an empty one and one that does not parse have none. -/
def lastModified (env : Env) (value : String) : Int :=
  if value = "" then 0 else (env.parseDate value).getD 0

private theorem Response.getLastModified_eq (env : Env) (r : Response) :
    r.getLastModified env =
      lastModified env ((Headers.find (Http.parseHeaders r.rawHeaders) "Last-Modified").getD "") :=
  rfl

namespace Http

/-! ## The case of names -/

def lowerName (line : List Char) : List Char :=
  if ':' ∈ line then
    (line.takeWhile (· ≠ ':')).map Char.toLower ++ line.dropWhile (· ≠ ':')
  else line

/-- The blocks are the same once the names of their headers are in lower case. -/
def DifferInCase (a b : String) : Prop :=
  (a.toList.splitOn '\r').map lowerName = (b.toList.splitOn '\r').map lowerName

def lowerField (h : String × String) : String × String := (ServiceConnection.toLower h.1, h.2)

private theorem toLower_of_upper {c : Char} (h : c.val ≥ 'A'.val ∧ c.val ≤ 'Z'.val) :
    c.toLower.toNat = c.toNat + 32 ∧ 65 ≤ c.toNat ∧ c.toNat ≤ 90 := by
  have hlo : 65 ≤ c.toNat := UInt32.le_iff_toNat_le.1 h.1
  have hhi : c.toNat ≤ 90 := UInt32.le_iff_toNat_le.1 h.2
  have hlower : c.toLower.val = c.val + 32 := congrArg Char.val (dif_pos h)
  have hadd : (c.val + 32).toNat = (c.toNat + 32) % 2 ^ 32 := UInt32.toNat_add _ _
  refine ⟨?_, hlo, hhi⟩
  change c.toLower.val.toNat = c.toNat + 32
  rw [hlower, hadd]
  omega

private theorem toLower_of_not_upper {c : Char} (h : ¬ (c.val ≥ 'A'.val ∧ c.val ≤ 'Z'.val)) :
    c.toLower = c := dif_neg h

theorem isSpace_of_lt {c : Char} (h : 32 < c.toNat) : isSpace c = false := by
  have hblank : c ≠ ' ' := by
    rintro rfl
    exact absurd h (by decide)
  have htab : ¬ c.toNat ≤ 13 := by omega
  simp [isSpace, hblank, htab]

private theorem toLower_plain (c : Char) :
    isSpace c.toLower = isSpace c ∧ (c.toLower = ':' ↔ c = ':') := by
  by_cases h : c.val ≥ 'A'.val ∧ c.val ≤ 'Z'.val
  · obtain ⟨hlower, hlo, hhi⟩ := toLower_of_upper h
    have hcolon {d : Char} (hd : 58 < d.toNat) : d ≠ ':' := by
      rintro rfl
      exact absurd hd (by decide)
    rw [isSpace_of_lt (by omega : 32 < c.toLower.toNat), isSpace_of_lt (by omega : 32 < c.toNat)]
    exact ⟨rfl, iff_of_false (hcolon (by omega)) (hcolon (by omega))⟩
  · rw [toLower_of_not_upper h]
    exact ⟨rfl, Iff.rfl⟩

private theorem trimCopy_map_toLower (cs : List Char) :
    trimCopy (cs.map Char.toLower) = (trimCopy cs).map Char.toLower := by
  have hspace : isSpace ∘ Char.toLower = isSpace := funext fun c => (toLower_plain c).1
  simp only [trimCopy, List.dropWhile_map, ← List.map_reverse, hspace]

private theorem parseLine_lowerName (line : List Char) :
    parseLine (lowerName line) = (parseLine line).map lowerField := by
  by_cases hmem : ':' ∈ line
  · obtain ⟨name, value, rfl, hname⟩ := List.eq_append_cons_of_mem hmem
    have hlower : ':' ∉ name.map Char.toLower := by
      intro h
      obtain ⟨c, hc, heq⟩ := List.mem_map.1 h
      exact hname ((toLower_plain c).2.1 heq ▸ hc)
    have hline : lowerName (name ++ ':' :: value) = name.map Char.toLower ++ ':' :: value := by
      have hall : ∀ c ∈ name, (decide (c ≠ ':')) = true := by
        intro c hc
        exact decide_eq_true fun heq => hname (heq ▸ hc)
      rw [lowerName, if_pos hmem, List.takeWhile_append_of_pos hall,
        List.dropWhile_append_of_pos hall]
      simp
    rw [hline, parseLine_append hlower, parseLine_append hname, trimCopy_map_toLower]
    simp [lowerField, ServiceConnection.toLower]
  · rw [lowerName, if_neg hmem, parseLine_none hmem]
    rfl

/-- The headers of such blocks differ in the case of their names, line by line. -/
theorem DifferInCase.parseHeaders {a b : String} (h : DifferInCase a b) :
    (parseHeaders a).map lowerField = (parseHeaders b).map lowerField := by
  have hlower (raw : String) : (Http.parseHeaders raw).map lowerField =
      ((raw.toList.splitOn '\r').map lowerName).filterMap parseLine := by
    rw [Http.parseHeaders, List.filterMap_map, List.map_filterMap]
    exact congrArg (List.filterMap · _) (funext fun line => (parseLine_lowerName line).symm)
  rw [hlower, hlower, h]

/-- At the first header that one of the blocks spells as the name, the other spells it so, too,
or has a later header of that name that reads the same; none reads as an empty one. -/
def SpelledAlike {α : Type} (name : String) (read : String → α) :
    List (String × String) → List (String × String) → Prop
  | f :: fs, g :: gs =>
    if f.1 = name then g.1 = name ∨ read f.2 = read ((Headers.find gs name).getD "")
    else if g.1 = name then read ((Headers.find fs name).getD "") = read g.2
    else SpelledAlike name read fs gs
  | _, _ => True

private theorem read_eq_iff {α : Type} (name : String) (read : String → α)
    {fs gs : List (String × String)} (h : fs.map lowerField = gs.map lowerField) :
    read ((Headers.find fs name).getD "") = read ((Headers.find gs name).getD "") ↔
      SpelledAlike name read fs gs := by
  induction fs generalizing gs with
  | nil =>
    cases gs with
    | nil => exact iff_of_true rfl trivial
    | cons g gs => cases h
  | cons f fs ih =>
    cases gs with
    | nil => cases h
    | cons g gs =>
      rw [List.map_cons, List.map_cons, List.cons.injEq] at h
      have hvalue : (lowerField f).2 = (lowerField g).2 := congrArg Prod.snd h.1
      change f.2 = g.2 at hvalue
      rw [Headers.find_cons, Headers.find_cons, SpelledAlike]
      by_cases hf : f.1 = name
      · by_cases hg : g.1 = name
        · simp [hf, hg, hvalue]
        · simp [hf, hg]
      · by_cases hg : g.1 = name
        · simp [hf, hg]
        · simp only [hf, hg, if_false]
          exact ih h.2

end Http

/-! ## Two blocks -/

open Http HTTPResponderConnection

/-- The blocks give the same date, and the same hit is logged for them. -/
structure CaseBlind (env : Env) (options : ResponderOptions) (a b : String) : Prop where
  modified : ∀ r r' : Response, r.rawHeaders = a → r'.rawHeaders = b →
    r.getLastModified env = r'.getLastModified env
  hit : ∀ s : Store, s.exec (processRequest options a) = s.exec (processRequest options b)

/-- The case of names makes no difference exactly when the two headers that are looked up are
spelled alike. -/
theorem caseBlind_iff (env : Env) (options : ResponderOptions) (a b : String)
    (h : DifferInCase a b) :
    CaseBlind env options a b ↔
      SpelledAlike "Last-Modified" (lastModified env) (parseHeaders a) (parseHeaders b) ∧
        SpelledAlike "Host" id (parseHeaders a) (parseHeaders b) := by
  have hdate := read_eq_iff "Last-Modified" (lastModified env) h.parseHeaders
  have hhost : host a = host b ↔ SpelledAlike "Host" id (parseHeaders a) (parseHeaders b) := by
    rw [host, host, find_insertHeaders, find_insertHeaders]
    exact read_eq_iff "Host" id h.parseHeaders
  constructor
  · intro hblind
    refine ⟨hdate.1 ?_, hhost.1 ((exec_processRequest_eq_iff options a b).1 hblind.hit)⟩
    exact hblind.modified { rawHeaders := a, body := "" } { rawHeaders := b, body := "" } rfl rfl
  · intro ⟨hmodified, hhit⟩
    refine ⟨?_, (exec_processRequest_eq_iff options a b).2 (hhost.2 hhit)⟩
    intro r r' hr hr'
    rw [Response.getLastModified_eq, Response.getLastModified_eq, hr, hr']
    exact hdate.2 hmodified

def datedEnv : Env where
  __ := Env.ofTexts []
  parseDate value := if value = "Sun, 15 Nov 2015 10:44:00 GMT" then some 1447584240 else none

def spelledBlock : String :=
  "HTTP/1.1 200 OK\r\nServer: x\r\nHost: ads.example\r\n" ++
    "Last-Modified: Sun, 15 Nov 2015 10:44:00 GMT\r\n\r\n"

def lowerBlock : String :=
  "HTTP/1.1 200 OK\r\nserver: x\r\nhost: ads.example\r\n" ++
    "last-modified: Sun, 15 Nov 2015 10:44:00 GMT\r\n\r\n"

def otherBlock : String :=
  "HTTP/1.1 200 OK\r\nSERVER: x\r\nHost: ads.example\r\n" ++
    "Last-Modified: Sun, 15 Nov 2015 10:44:00 GMT\r\n\r\n"

private theorem parseHeaders_spelledBlock :
    parseHeaders spelledBlock = [("Server", "x"), ("Host", "ads.example"),
      ("Last-Modified", "Sun, 15 Nov 2015 10:44:00 GMT")] := by
  decide +kernel

private theorem parseHeaders_lowerBlock :
    parseHeaders lowerBlock = [("server", "x"), ("host", "ads.example"),
      ("last-modified", "Sun, 15 Nov 2015 10:44:00 GMT")] := by
  decide +kernel

private theorem parseHeaders_otherBlock :
    parseHeaders otherBlock = [("SERVER", "x"), ("Host", "ads.example"),
      ("Last-Modified", "Sun, 15 Nov 2015 10:44:00 GMT")] := by
  decide +kernel

theorem caseBlind_server : CaseBlind datedEnv {} spelledBlock otherBlock := by
  have hcase : DifferInCase spelledBlock otherBlock := by
    unfold DifferInCase
    decide +kernel
  apply (caseBlind_iff datedEnv {} spelledBlock otherBlock hcase).2
  rw [parseHeaders_spelledBlock, parseHeaders_otherBlock]
  simp [SpelledAlike]

/-- A response with names in lower case has no date, and a hit for such a request is lost. -/
theorem caseBlind_lower :
    Response.getLastModified datedEnv { rawHeaders := spelledBlock, body := "" } = 1447584240 ∧
      Response.getLastModified datedEnv { rawHeaders := lowerBlock, body := "" } = 0 ∧
      host spelledBlock = "ads.example" ∧ host lowerBlock = "" ∧
      ¬ ∀ (env : Env) (options : ResponderOptions) (a b : String), DifferInCase a b →
        CaseBlind env options a b := by
  have hspelled : Response.getLastModified datedEnv { rawHeaders := spelledBlock, body := "" } =
      1447584240 := by
    rw [Response.getLastModified_eq, parseHeaders_spelledBlock]
    decide
  have hlower : Response.getLastModified datedEnv { rawHeaders := lowerBlock, body := "" } = 0 := by
    rw [Response.getLastModified_eq, parseHeaders_lowerBlock]
    decide
  have hhost : host spelledBlock = "ads.example" := by
    rw [host, find_insertHeaders, parseHeaders_spelledBlock]
    decide
  have hnone : host lowerBlock = "" := by
    rw [host, find_insertHeaders, parseHeaders_lowerBlock]
    decide
  refine ⟨hspelled, hlower, hhost, hnone, ?_⟩
  intro h
  have hcase : DifferInCase spelledBlock lowerBlock := by
    unfold DifferInCase
    decide +kernel
  have hsame := (h datedEnv {} spelledBlock lowerBlock hcase).modified
    { rawHeaders := spelledBlock, body := "" } { rawHeaders := lowerBlock, body := "" } rfl rfl
  rw [hspelled, hlower] at hsame
  exact absurd hsame (by decide)

end DblService
