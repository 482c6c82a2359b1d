import DblService.Environment
import Mathlib.Data.List.Sort

/-!
# Messages on the wire

What is assumed of the JSON library for the values that are sent, and surroundings for
fixed messages that meet it: their texts have the layout and the member order of
`toStyledString`.
-/

namespace DblService

open Framework

/-- The JSON library on this value: the writer escapes carriage returns, and the reader reads
back the same members. -/
structure Env.Conveys (env : Env) (j : Json) : Prop where
  escaped : '\r' ∉ (env.styled j).toList
  readBack : ∃ j', env.parseJson (env.styled j) = some j' ∧ ∀ key, j'.get key = j.get key

namespace Json

def sortMembers (members : List (String × Json)) : List (String × Json) :=
  members.insertionSort fun a b => a.1 ≤ b.1

def styledScalar : Json → String
  | .bool b => if b then "true" else "false"
  | .string s => "\"" ++ s ++ "\""
  | _ => "null"

def styledObject (indent : String) (members : List (String × String)) : String :=
  if members.isEmpty then "\x7b\x7d"
  else "\x7b\n" ++ ",\n".intercalate
    (members.map fun m => indent ++ "   \"" ++ m.1 ++ "\" : " ++ m.2) ++ "\n" ++ indent ++ "\x7d"

def styledMember : Json → String
  | .object members =>
    styledObject "   " ((sortMembers members).map fun m => (m.1, styledScalar m.2))
  | j => styledScalar j

/-- `toStyledString` of an object of scalars and of objects of scalars. -/
def styledMessage : Json → String
  | .object members =>
    styledObject "" ((sortMembers members).map fun m => (m.1, styledMember m.2)) ++ "\n"
  | j => styledScalar j ++ "\n"

/-! The writer adds no carriage return to the names and strings of a message. -/

private theorem plain_append {s t : String} (hs : '\r' ∉ s.toList) (ht : '\r' ∉ t.toList) :
    '\r' ∉ (s ++ t).toList := by
  rw [String.toList_append, List.mem_append, not_or]
  exact ⟨hs, ht⟩

private theorem plain_intercalate {sep : String} (hsep : '\r' ∉ sep.toList) {texts : List String}
    (h : ∀ t ∈ texts, '\r' ∉ t.toList) : '\r' ∉ (sep.intercalate texts).toList := by
  induction texts with
  | nil => simp
  | cons t ts ih =>
    have ht := h t List.mem_cons_self
    have hts := ih fun u hu => h u (List.mem_cons_of_mem _ hu)
    by_cases hnil : ts = []
    · subst hnil
      simpa using ht
    · rw [String.intercalate_cons_of_ne_nil hnil]
      exact plain_append (plain_append ht hsep) hts

private theorem plain_styledObject {indent : String} (hindent : '\r' ∉ indent.toList)
    {members : List (String × String)} (h : ∀ m ∈ members, '\r' ∉ m.1.toList ∧ '\r' ∉ m.2.toList) :
    '\r' ∉ (styledObject indent members).toList := by
  unfold styledObject
  split_ifs
  · decide
  · refine plain_append (plain_append (plain_append (plain_append (by decide) ?_) (by decide))
      hindent) (by decide)
    apply plain_intercalate (by decide)
    intro t ht
    obtain ⟨m, hm, rfl⟩ := List.mem_map.mp ht
    obtain ⟨hname, hvalue⟩ := h m hm
    exact plain_append (plain_append (plain_append (plain_append hindent (by decide)) hname)
      (by decide)) hvalue

private theorem plain_members {indent : String} (hindent : '\r' ∉ indent.toList)
    {members : List (String × Json)} {value : Json → String}
    (h : ∀ m ∈ members, '\r' ∉ m.1.toList ∧ '\r' ∉ (value m.2).toList) :
    '\r' ∉ (styledObject indent
      ((sortMembers members).map fun m => (m.1, value m.2))).toList := by
  apply plain_styledObject hindent
  intro m hm
  obtain ⟨m', hm', rfl⟩ := List.mem_map.mp hm
  exact h m' ((List.mem_insertionSort _).mp hm')

def scalarStrings : Json → List String
  | .string s => [s]
  | _ => []

def memberStrings : Json → List String
  | .object members => members.flatMap fun m => m.1 :: scalarStrings m.2
  | j => scalarStrings j

def strings : Json → List String
  | .object members => members.flatMap fun m => m.1 :: memberStrings m.2
  | j => scalarStrings j

private theorem plain_styledScalar {j : Json} (h : ∀ s ∈ scalarStrings j, '\r' ∉ s.toList) :
    '\r' ∉ (styledScalar j).toList := by
  cases j with
  | bool b => cases b <;> decide
  | string s => exact plain_append (plain_append (by decide) (h s List.mem_cons_self)) (by decide)
  | null | int | real | array | object => exact show '\r' ∉ "null".toList by decide

private theorem plain_styledMember {j : Json} (h : ∀ s ∈ memberStrings j, '\r' ∉ s.toList) :
    '\r' ∉ (styledMember j).toList := by
  cases j with
  | object members =>
    apply plain_members (by decide)
    intro m hm
    have hall (s : String) (hs : s ∈ m.1 :: scalarStrings m.2) : '\r' ∉ s.toList :=
      h s (List.mem_flatMap.mpr ⟨m, hm, hs⟩)
    exact ⟨hall _ List.mem_cons_self,
      plain_styledScalar fun s hs => hall s (List.mem_cons_of_mem _ hs)⟩
  | _ => exact plain_styledScalar h

private theorem plain_styledMessage {j : Json} (h : ∀ s ∈ strings j, '\r' ∉ s.toList) :
    '\r' ∉ (styledMessage j).toList := by
  cases j with
  | object members =>
    refine plain_append (plain_members (by decide) ?_) (by decide)
    intro m hm
    have hall (s : String) (hs : s ∈ m.1 :: memberStrings m.2) : '\r' ∉ s.toList :=
      h s (List.mem_flatMap.mpr ⟨m, hm, hs⟩)
    exact ⟨hall _ List.mem_cons_self,
      plain_styledMember fun s hs => hall s (List.mem_cons_of_mem _ hs)⟩
  | _ => exact plain_append (plain_styledScalar h) (by decide)

/-- What is read for a message: its members in order. -/
def sorted : Json → Json
  | .object members => .object (sortMembers members)
  | j => j

def keys : Json → List String
  | .object members => members.map Prod.fst
  | _ => []

private theorem sorted_get {j : Json} (h : j.keys.Nodup) (key : String) :
    j.sorted.get key = j.get key := by
  cases j with
  | object members =>
    have hlookup : lookup Prod.fst key members = lookup Prod.fst key (sortMembers members) :=
      lookup_perm h (List.perm_insertionSort _ _).symm key
    change Except.ok (((lookup Prod.fst key (sortMembers members)).map Prod.snd).getD .null) =
      Except.ok (((lookup Prod.fst key members).map Prod.snd).getD .null)
    rw [hlookup]
  | _ => rfl

end Json

namespace Env

/-- Surroundings with this digest in which only the texts of these messages are JSON. -/
def recorded (messages : List Json) (digest : String → List UInt8)
    (hdigest : ∀ s, (digest s).length = 16) : Env where
  isValid name := name ≠ ""
  parseJson text := (lookup Json.styledMessage text messages).map Json.sorted
  parseErrors _ := "* Line 1, Column 1"
  styled := Json.styledMessage
  sqlWhat _ := ""
  jsonRuntime := false
  digest
  digest_length := hdigest
  parseDate _ := none

/-- Messages with different texts are conveyed. -/
theorem conveys_recorded {messages : List Json} {digest : String → List UInt8}
    {hdigest : ∀ s, (digest s).length = 16} (hunique : UniqueKey Json.styledMessage messages)
    (hplain : ∀ m ∈ messages, ∀ s ∈ m.strings, '\r' ∉ s.toList)
    (hkeys : ∀ m ∈ messages, m.keys.Nodup) :
    ∀ m ∈ messages, (recorded messages digest hdigest).Conveys m := by
  intro m hm
  have hparse : (recorded messages digest hdigest).parseJson (Json.styledMessage m) =
      some m.sorted := by
    change (lookup Json.styledMessage _ messages).map Json.sorted = _
    rw [(lookup_eq_some_iff hunique).mpr ⟨hm, rfl⟩]
    rfl
  exact ⟨Json.plain_styledMessage (hplain m hm), m.sorted, hparse, Json.sorted_get (hkeys m hm)⟩

end Env

/-! ## Documents

Values of any shape without characters that need an escape; an array is written one entry a
line. -/

namespace Json

def layout (opening closing indent : String) (rows : List String) : String :=
  if rows.isEmpty then opening ++ closing
  else opening ++ "\n" ++ ",\n".intercalate (rows.map fun row => indent ++ "   " ++ row) ++
    "\n" ++ indent ++ closing

mutual

def writeValue (indent : String) : Json → String
  | .null => "null"
  | .bool b => if b then "true" else "false"
  | .int n => toString n
  | .real _ text => text
  | .string s => "\"" ++ s ++ "\""
  | .array items => layout "[" "]" indent (writeItems (indent ++ "   ") items)
  | .object members =>
    layout "\x7b" "\x7d" indent (((writeMembers (indent ++ "   ") members).insertionSort fun a b =>
      a.1 ≤ b.1).map fun m => "\"" ++ m.1 ++ "\" : " ++ m.2)

def writeItems (indent : String) : List Json → List String
  | [] => []
  | j :: js => writeValue indent j :: writeItems indent js

def writeMembers (indent : String) : List (String × Json) → List (String × String)
  | [] => []
  | m :: ms => writeMember indent m :: writeMembers indent ms

def writeMember (indent : String) : String × Json → String × String
  | (name, j) => (name, writeValue indent j)

end

def document (j : Json) : String := writeValue "" j ++ "\n"

theorem document_object (members : List (String × Json)) :
    ∃ rest, (document (.object members)).toList = '\x7b' :: rest := by
  unfold document writeValue layout
  split_ifs <;> simp only [String.toList_append] <;> exact ⟨_, rfl⟩

mutual

/-- What is written of a value besides the layout. -/
def written : Json → List String
  | .null | .bool _ => []
  | .int n => [toString n]
  | .real _ text => [text]
  | .string s => [s]
  | .array items => writtenItems items
  | .object members => writtenMembers members

def writtenItems : List Json → List String
  | [] => []
  | j :: js => written j ++ writtenItems js

def writtenMembers : List (String × Json) → List String
  | [] => []
  | m :: ms => writtenMember m ++ writtenMembers ms

def writtenMember : String × Json → List String
  | (name, j) => name :: written j

end

private theorem plain_layout {opening closing indent : String} (hopening : '\r' ∉ opening.toList)
    (hclosing : '\r' ∉ closing.toList) (hindent : '\r' ∉ indent.toList) {rows : List String}
    (h : ∀ row ∈ rows, '\r' ∉ row.toList) :
    '\r' ∉ (layout opening closing indent rows).toList := by
  unfold layout
  split_ifs
  · exact plain_append hopening hclosing
  · refine plain_append (plain_append (plain_append (plain_append (plain_append hopening
      (by decide)) ?_) (by decide)) hindent) hclosing
    apply plain_intercalate (by decide)
    intro t ht
    obtain ⟨row, hrow, rfl⟩ := List.mem_map.mp ht
    exact plain_append (plain_append hindent (by decide)) (h row hrow)

mutual

private theorem plain_writeValue {indent : String} (hindent : '\r' ∉ indent.toList) :
    (j : Json) → (∀ s ∈ j.written, '\r' ∉ s.toList) → '\r' ∉ (writeValue indent j).toList
  | .null, _ => by rw [writeValue]; decide
  | .bool b, _ => by cases b <;> rw [writeValue] <;> decide
  | .int n, h => h _ List.mem_cons_self
  | .real _ text, h => h text List.mem_cons_self
  | .string s, h => by
    rw [writeValue]
    exact plain_append (plain_append (by decide) (h s List.mem_cons_self)) (by decide)
  | .array items, h => by
    rw [writeValue]
    exact plain_layout (by decide) (by decide) hindent
      (plain_writeItems (plain_append hindent (by decide)) items h)
  | .object members, h => by
    rw [writeValue]
    apply plain_layout (by decide) (by decide) hindent
    intro row hrow
    obtain ⟨m, hm, rfl⟩ := List.mem_map.mp hrow
    obtain ⟨hname, hvalue⟩ := plain_writeMembers (plain_append hindent (by decide)) members h m
      ((List.mem_insertionSort _).mp hm)
    exact plain_append (plain_append (plain_append (by decide) hname) (by decide)) hvalue

private theorem plain_writeItems {indent : String} (hindent : '\r' ∉ indent.toList) :
    (items : List Json) → (∀ s ∈ writtenItems items, '\r' ∉ s.toList) →
      ∀ row ∈ writeItems indent items, '\r' ∉ row.toList
  | [], _, row, hrow => by cases hrow
  | j :: js, h, row, hrow => by
    rcases List.mem_cons.mp hrow with rfl | hrow
    · exact plain_writeValue hindent j fun s hs => h s (List.mem_append_left _ hs)
    · exact plain_writeItems hindent js (fun s hs => h s (List.mem_append_right _ hs)) row hrow

private theorem plain_writeMembers {indent : String} (hindent : '\r' ∉ indent.toList) :
    (members : List (String × Json)) → (∀ s ∈ writtenMembers members, '\r' ∉ s.toList) →
      ∀ m ∈ writeMembers indent members, '\r' ∉ m.1.toList ∧ '\r' ∉ m.2.toList
  | [], _, m, hm => by cases hm
  | (name, j) :: ms, h, m, hm => by
    rcases List.mem_cons.mp hm with rfl | hm
    · have hall (s : String) (hs : s ∈ name :: j.written) : '\r' ∉ s.toList :=
        h s (List.mem_append_left _ hs)
      exact ⟨hall name List.mem_cons_self,
        plain_writeValue hindent j fun s hs => hall s (List.mem_cons_of_mem _ hs)⟩
    · exact plain_writeMembers hindent ms (fun s hs => h s (List.mem_append_right _ hs)) m hm

end

/-- The writer adds no carriage return to a document. -/
theorem plain_document {j : Json} (h : ∀ s ∈ j.written, '\r' ∉ s.toList) :
    '\r' ∉ j.document.toList :=
  plain_append (plain_writeValue (by decide) j h) (by decide)

end Json

/-- Surroundings in which only the texts of these values are JSON, a final newline aside. -/
def Env.documents (values : List Json) : Env where
  isValid name := name ≠ ""
  parseJson text := values.find? fun j => decide (text = j.document ∨ text = j.document ++ "\n")
  parseErrors _ := "* Line 1, Column 1"
  styled := Json.document
  sqlWhat _ := ""
  jsonRuntime := false
  digest _ := List.replicate 16 0
  digest_length _ := rfl
  parseDate _ := none

theorem Env.documents_readBack (j : Json) (values : List Json) :
    (documents (j :: values)).parseJson ((documents (j :: values)).styled j ++ "\n") = some j := by
  simp [documents]

/-- Values with different texts are conveyed. -/
theorem Env.conveys_documents {values : List Json}
    (hdistinct : values.Pairwise fun a b =>
      ¬ (b.document = a.document ∨ b.document = a.document ++ "\n"))
    (hplain : ∀ j ∈ values, '\r' ∉ j.document.toList) :
    ∀ j ∈ values, (documents values).Conveys j := by
  intro j hj
  have hfind : values.find? (fun k =>
      decide (j.document = k.document ∨ j.document = k.document ++ "\n")) = some j := by
    clear hplain
    induction values with
    | nil => cases hj
    | cons k ks ih =>
      obtain ⟨hk, hks⟩ := List.pairwise_cons.mp hdistinct
      rcases List.mem_cons.mp hj with rfl | hmem
      · exact List.find?_cons_of_pos (decide_eq_true (Or.inl rfl))
      · rw [List.find?_cons_of_neg (by simpa using hk j hmem)]
        exact ih hks hmem
  exact ⟨hplain j hj, j, hfind, fun _ => rfl⟩

/-! ## A reader of whatever comes

A reader of the given values that skips blanks and ignores what follows a value. -/

def isSpace (c : Char) : Bool := c = ' ' || c = '\t' || c = '\r' || c = '\n'

/-- The text of a value, without the line end of the document. -/
def Json.body (j : Json) : List Char := (j.writeValue "").toList

/-- A text that begins with no value is taken for an object that ends in its second line. -/
def Env.scanning (values : List Json) : Env :=
  { documents values with
    parseJson := fun text => values.find? fun j =>
      j.body.isPrefixOf (text.toList.dropWhile isSpace)
    parseErrors := fun _ => "* Line 2, Column 4\n  Missing '\x7d' or object member name\n" }

private theorem dropWhile_isSpace {pad : List Char} (hpad : ∀ c ∈ pad, isSpace c = true)
    (text : List Char) : (pad ++ text).dropWhile isSpace = text.dropWhile isSpace := by
  induction pad with
  | nil => rfl
  | cons c pad ih =>
    obtain ⟨hc, hpad⟩ := List.forall_mem_cons.mp hpad
    rw [List.cons_append, List.dropWhile_cons_of_pos hc, ih hpad]

/-- No value begins as another one does. -/
def PrefixFree (values : List Json) : Prop :=
  values.Pairwise fun a b => ¬ a.body <+: b.body ∧ ¬ b.body <+: a.body

instance (values : List Json) : Decidable (PrefixFree values) :=
  inferInstanceAs (Decidable (List.Pairwise _ _))

section
variable {values : List Json} {j : Json} {pad : List Char}

theorem Env.find?_scanning (hvalues : PrefixFree values) (hj : j ∈ values) {text : List Char}
    (htext : j.body <+: text) : values.find? (fun k => k.body.isPrefixOf text) = some j := by
  induction values with
  | nil => cases hj
  | cons k ks ih =>
    obtain ⟨hk, hks⟩ := List.pairwise_cons.mp hvalues
    rcases List.mem_cons.mp hj with rfl | hmem
    · exact List.find?_cons_of_pos (List.isPrefixOf_iff_prefix.mpr htext)
    · rw [List.find?_cons_of_neg, ih hks hmem]
      intro hprefix
      have hprefix : k.body <+: text := List.isPrefixOf_iff_prefix.mp hprefix
      rcases List.prefix_or_prefix_of_prefix hprefix htext with h | h
      · exact (hk j hmem).1 h
      · exact (hk j hmem).2 h

/-- A value is read with blanks before it and anything behind it. -/
theorem Env.scanning_whole (hvalues : PrefixFree values) (hj : j ∈ values)
    (hstart : j.body.head?.any isSpace = false) (hne : j.body ≠ [])
    (hpad : ∀ c ∈ pad, isSpace c = true) (rest : List Char) :
    (scanning values).parseJson (String.ofList (pad ++ j.body ++ rest)) = some j := by
  have hdrop : (pad ++ j.body ++ rest).dropWhile isSpace = j.body ++ rest := by
    rw [List.append_assoc, dropWhile_isSpace hpad]
    cases hbody : j.body with
    | nil => exact absurd hbody hne
    | cons c body =>
      rw [hbody] at hstart
      exact List.dropWhile_cons_of_neg (by simpa using hstart)
  change values.find? (fun k => k.body.isPrefixOf
    ((String.ofList (pad ++ j.body ++ rest)).toList.dropWhile isSpace)) = _
  rw [String.toList_ofList, hdrop]
  exact find?_scanning hvalues hj (List.prefix_append _ _)

/-- A value that is cut short is refused. -/
theorem Env.scanning_part (hvalues : PrefixFree values) (hj : j ∈ values)
    (hstart : j.body.head?.any isSpace = false)
    (hpad : ∀ c ∈ pad, isSpace c = true) {front : List Char} (hfront : front <+: j.body)
    (hcut : front ≠ j.body) :
    (scanning values).parseJson (String.ofList (pad ++ front)) = none := by
  have hdrop : (pad ++ front).dropWhile isSpace = front := by
    rw [dropWhile_isSpace hpad]
    cases front with
    | nil => rfl
    | cons c front =>
      obtain ⟨rest, hrest⟩ := hfront
      rw [← hrest] at hstart
      exact List.dropWhile_cons_of_neg (by simpa using hstart)
  change values.find? (fun k => k.body.isPrefixOf
    ((String.ofList (pad ++ front)).toList.dropWhile isSpace)) = none
  rw [String.toList_ofList, hdrop, List.find?_eq_none]
  intro k hk hprefix
  have hkfront : k.body <+: front := List.isPrefixOf_iff_prefix.mp hprefix
  have hsame := (find?_scanning hvalues hk (hkfront.trans hfront)).symm.trans
    (find?_scanning hvalues hj List.prefix_rfl)
  cases hsame
  exact hcut (hfront.eq_of_length_le hkfront.length_le)

end

end DblService
