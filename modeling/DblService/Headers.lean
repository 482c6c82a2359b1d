import DblService.Http
import Mathlib.Data.List.TakeWhile

/-!
# Header blocks

The map that `util::http::parse_headers` fills, and what it holds after a block of header
lines.
-/

namespace DblService

/-- `types::http::Headers_t`, with at most one entry of a name. -/
abbrev Headers := List (String × String)

namespace Headers

def find (headers : Headers) (name : String) : Option String :=
  (headers.find? fun h => h.1 = name).map Prod.snd

def insert (headers : Headers) (h : String × String) : Headers :=
  if (headers.find h.1).isSome then headers else headers ++ [h]

@[simp]
theorem find_nil (name : String) : find [] name = none := rfl

theorem find_cons (h : String × String) (headers : Headers) (name : String) :
    find (h :: headers) name = if h.1 = name then some h.2 else headers.find name := by
  rw [find, List.find?_cons]
  by_cases hname : h.1 = name
  · simp [hname]
  · simp [hname, find]

theorem find_append (as bs : Headers) (name : String) :
    find (as ++ bs) name = (as.find name).or (bs.find name) := by
  rw [find, List.find?_append, Option.map_or]
  rfl

private theorem find_insert (headers : Headers) (h : String × String) (name : String) :
    (headers.insert h).find name = (headers.find name).or (find [h] name) := by
  rw [insert]
  split_ifs with hsome
  · rw [find_cons]
    split_ifs with hname
    · rw [Option.or_of_isSome (hname ▸ hsome)]
    · rw [find_nil, Option.or_none]
  · exact find_append headers [h] name

end Headers

namespace Http

def insertHeaders (raw : String) (headers : Headers) : Headers :=
  (parseHeaders raw).foldl Headers.insert headers

private theorem find_foldl_insert (lines : List (String × String)) (headers : Headers)
    (name : String) : (lines.foldl Headers.insert headers).find name =
      (headers.find name).or (Headers.find lines name) := by
  induction lines generalizing headers with
  | nil => rw [List.foldl_nil, Headers.find_nil, Option.or_none]
  | cons h lines ih =>
    rw [List.foldl_cons, ih, Headers.find_insert, Option.or_assoc, ← Headers.find_append]
    rfl

/-- The map of a block finds the first line of a name. -/
theorem find_insertHeaders (raw name : String) :
    (insertHeaders raw []).find name = Headers.find (parseHeaders raw) name := by
  rw [insertHeaders, find_foldl_insert, Headers.find_nil, Option.none_or]

/-! ## Lines -/

theorem dropWhile_of_head {p : Char → Bool} {cs : List Char}
    (h : ∀ c ∈ cs.head?, p c = false) : cs.dropWhile p = cs := by
  cases cs with
  | nil => rfl
  | cons c cs =>
    have hc : ¬ p c = true := by
      rw [h c rfl]
      exact Bool.false_ne_true
    exact List.dropWhile_cons_of_neg hc

/-- A text that neither begins nor ends with a space. -/
structure Trimmed (cs : List Char) : Prop where
  head : ∀ c ∈ cs.head?, isSpace c = false
  last : ∀ c ∈ cs.getLast?, isSpace c = false

private theorem Trimmed.trimCopy_eq {cs : List Char} (h : Trimmed cs) : trimCopy cs = cs := by
  have hlast : ∀ c ∈ cs.reverse.head?, isSpace c = false := by
    rw [List.head?_reverse]
    exact h.last
  rw [trimCopy, dropWhile_of_head h.head, dropWhile_of_head hlast, List.reverse_reverse]

private theorem trimmed_of_plain {cs : List Char} (h : ∀ c ∈ cs, isSpace c = false) :
    Trimmed cs where
  head c hc := h c (List.mem_of_mem_head? hc)
  last c hc := h c (List.mem_of_mem_getLast? hc)

theorem trimCopy_cons {c : Char} (hc : isSpace c = true) (cs : List Char) :
    trimCopy (c :: cs) = trimCopy cs := by
  rw [trimCopy, List.dropWhile_cons_of_pos hc]
  rfl

theorem parseLine_append {name : List Char} (h : ':' ∉ name) (value : List Char) :
    parseLine (name ++ ':' :: value) =
      some (String.ofList (trimCopy name), String.ofList (trimCopy value)) := by
  have hname : ∀ c ∈ name, (decide (c ≠ ':')) = true := by
    intro c hc
    exact decide_eq_true fun heq => h (heq ▸ hc)
  rw [parseLine, List.span_eq_takeWhile_dropWhile, List.takeWhile_append_of_pos hname,
    List.dropWhile_append_of_pos hname]
  simp

theorem parseLine_none {line : List Char} (h : ':' ∉ line) : parseLine line = none := by
  have hline : ∀ c ∈ line, (decide (c ≠ ':')) = true := by
    intro c hc
    exact decide_eq_true fun heq => h (heq ▸ hc)
  have hdrop : line.dropWhile (fun c => decide (c ≠ ':')) = [] :=
    List.dropWhile_eq_nil_iff.2 hline
  rw [parseLine, List.span_eq_takeWhile_dropWhile, hdrop]

/-! ## Blocks -/

structure Field where
  name : String
  value : String
  name_ne : name ≠ ""
  name_plain : ∀ c ∈ name.toList, isSpace c = false ∧ c ≠ ':'
  value_line : '\r' ∉ value.toList
  value_trimmed : Trimmed value.toList

namespace Field

def line (f : Field) : List Char := f.name.toList ++ ':' :: ' ' :: f.value.toList

private theorem name_trimmed (f : Field) : Trimmed f.name.toList :=
  trimmed_of_plain fun c hc => (f.name_plain c hc).1

private theorem cr_not_mem_line (f : Field) : '\r' ∉ f.line := by
  intro hmem
  rw [line, List.mem_append] at hmem
  rcases hmem with hname | hvalue
  · have hspace := (f.name_plain _ hname).1
    revert hspace
    decide
  · rw [List.mem_cons, List.mem_cons] at hvalue
    rcases hvalue with hcolon | hblank | hvalue
    · revert hcolon
      decide
    · revert hblank
      decide
    · exact f.value_line hvalue

private theorem parseLine_line (f : Field) :
    parseLine ('\n' :: f.line) = some (f.name, f.value) := by
  have hcolon : ':' ∉ '\n' :: f.name.toList := by
    rw [List.mem_cons, not_or]
    exact ⟨by decide, fun hmem => (f.name_plain _ hmem).2 rfl⟩
  rw [line, ← List.cons_append, parseLine_append hcolon, trimCopy_cons (by decide),
    trimCopy_cons (by decide), f.name_trimmed.trimCopy_eq, f.value_trimmed.trimCopy_eq,
    String.ofList_toList, String.ofList_toList]

end Field

def crlf : List Char := ['\r', '\n']

/-- The start line, the header lines, an empty line and the body. -/
def block (start : String) (fields : List Field) (body : String) : String :=
  String.ofList (start.toList ++ crlf ++ fields.flatMap (fun f => f.line ++ crlf) ++ crlf ++
    body.toList)

private theorem splitOn_fields (fields : List Field) (body : List Char) :
    ('\n' :: (fields.flatMap (fun f => f.line ++ crlf) ++ crlf ++ body)).splitOn '\r' =
      fields.map (fun f => '\n' :: f.line) ++ ['\n'] :: ('\n' :: body).splitOn '\r' := by
  induction fields with
  | nil =>
    have hfeed : '\r' ∉ ['\n'] := by decide
    exact List.splitOn_append_cons_self_of_not_mem hfeed _
  | cons f fields ih =>
    have hline : '\r' ∉ '\n' :: f.line := by
      rw [List.mem_cons, not_or]
      exact ⟨by decide, f.cr_not_mem_line⟩
    rw [List.flatMap_cons, List.map_cons, List.cons_append, ← ih,
      ← List.splitOn_append_cons_self_of_not_mem hline]
    simp [crlf]

private theorem parseHeaders_block_eq {start : String} (hcolon : ':' ∉ start.toList)
    (hline : '\r' ∉ start.toList) (fields : List Field) (body : String) :
    parseHeaders (block start fields body) =
      fields.map (fun f => (f.name, f.value)) ++
        (('\n' :: body.toList).splitOn '\r').filterMap parseLine := by
  have hsplit : (block start fields body).toList.splitOn '\r' =
      start.toList :: (fields.map (fun f => '\n' :: f.line) ++
        ['\n'] :: ('\n' :: body.toList).splitOn '\r') := by
    rw [← splitOn_fields, ← List.splitOn_append_cons_self_of_not_mem hline, block,
      String.toList_ofList]
    simp [crlf]
  rw [parseHeaders, hsplit, List.filterMap_cons_none (parseLine_none hcolon),
    List.filterMap_append, List.filterMap_cons_none (parseLine_none (by decide)),
    List.filterMap_map]
  have hlines : parseLine ∘ (fun f : Field => '\n' :: f.line) =
      fun f => some (f.name, f.value) := funext Field.parseLine_line
  rw [hlines, List.filterMap_eq_map']

/-- Every name of the block is found with the value of its first line, whatever follows the
empty line. -/
theorem find_block (start : String) (fields : List Field) (body : String)
    (hcolon : ':' ∉ start.toList) (hline : '\r' ∉ start.toList) :
    ∀ f ∈ fields, ∃ first, fields.find? (fun g => g.name = f.name) = some first ∧
      (insertHeaders (block start fields body) []).find f.name = some first.value := by
  intro f hf
  have hsome : (fields.find? fun g => g.name = f.name).isSome := by
    rw [List.find?_isSome]
    exact ⟨f, hf, decide_eq_true rfl⟩
  obtain ⟨first, hfirst⟩ := Option.isSome_iff_exists.1 hsome
  refine ⟨first, hfirst, ?_⟩
  have hfields : Headers.find (fields.map fun f => (f.name, f.value)) f.name =
      some first.value := by
    rw [Headers.find, List.find?_map]
    exact congrArg (Option.map Prod.snd) (congrArg (Option.map _) hfirst)
  rw [find_insertHeaders, parseHeaders_block_eq hcolon hline, Headers.find_append, hfields,
    Option.some_or]

private theorem plain_of_all {cs : List Char}
    (h : cs.all (fun c => !isSpace c && c != ':') = true) :
    ∀ c ∈ cs, isSpace c = false ∧ c ≠ ':' := by
  intro c hc
  have hplain := List.all_eq_true.1 h c hc
  simpa using hplain

def hostField : Field where
  name := "Host"
  value := "ads.example"
  name_ne := by decide
  name_plain := plain_of_all (by decide)
  value_line := by decide
  value_trimmed := trimmed_of_plain fun c hc => (plain_of_all (by decide) c hc).1

def otherField : Field where
  name := "Host"
  value := ""
  name_ne := by decide
  name_plain := plain_of_all (by decide)
  value_line := by decide
  value_trimmed := ⟨nofun, nofun⟩

/-- The first of two lines of one name, and not the one in the body. -/
theorem find_block_request :
    (insertHeaders (block "GET / HTTP/1.1" [hostField, otherField] "\r\nHost: other") []).find
      "Host" = some "ads.example" := by
  obtain ⟨first, hfirst, hfind⟩ := find_block "GET / HTTP/1.1" [hostField, otherField]
    "\r\nHost: other" (by decide) (by decide) hostField List.mem_cons_self
  have hhost : [hostField, otherField].find? (fun g => g.name = hostField.name) =
      some hostField := rfl
  rw [hhost, Option.some.injEq] at hfirst
  rw [← hfirst] at hfind
  exact hfind

end Http

/-- The lookup of `get_header` in the map. -/
theorem Response.getHeader_eq (r : Response) (name : String) :
    r.getHeader name = ((Http.insertHeaders r.rawHeaders []).find name).getD "" := by
  rw [Http.find_insertHeaders]
  rfl

end DblService
