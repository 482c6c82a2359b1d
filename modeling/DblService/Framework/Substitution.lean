import Mathlib.Data.List.Nodup

/-!
# Replacing words in a text

`replaceAll` replaces the words of a text that equal a pattern, from the left; it is what
`String.replace` computes.  A template is the list of its characters and of the words that stand
for something; `printed` is its text when some of these words are replaced.
-/

namespace DblService.Framework

variable {α : Type}

/-- Replace every word that equals the pattern, from the left; the first `skip` elements are
still part of the word found last. -/
def replaceAll [BEq α] (pattern word : List α) : Nat → List α → List α
  | _, [] => []
  | skip + 1, _ :: text => replaceAll pattern word skip text
  | 0, c :: text =>
    if pattern.isPrefixOf (c :: text) then word ++ replaceAll pattern word (pattern.length - 1) text
    else c :: replaceAll pattern word 0 text

section
variable [BEq α] [LawfulBEq α] {pattern word : List α}

omit [LawfulBEq α] in
private theorem replaceAll_skip (skipped text : List α) :
    replaceAll pattern word skipped.length (skipped ++ text) = replaceAll pattern word 0 text := by
  induction skipped with
  | nil => rfl
  | cons c skipped ih => exact ih

private theorem replaceAll_pattern (hne : pattern ≠ []) (text : List α) :
    replaceAll pattern word 0 (pattern ++ text) = word ++ replaceAll pattern word 0 text := by
  cases pattern with
  | nil => exact absurd rfl hne
  | cons c rest =>
    have hextends : (c :: rest).isPrefixOf (c :: (rest ++ text)) = true := by
      rw [List.isPrefixOf_iff_prefix]
      exact List.prefix_append (c :: rest) text
    rw [List.cons_append, replaceAll, if_pos hextends]
    exact congrArg (word ++ ·) (replaceAll_skip rest text)

private theorem replaceAll_kept (kept text : List α)
    (h : ∀ a b, kept = a ++ b → b ≠ [] → ¬ pattern <+: b ++ text) :
    replaceAll pattern word 0 (kept ++ text) = kept ++ replaceAll pattern word 0 text := by
  induction kept with
  | nil => rfl
  | cons c kept ih =>
    have hnot : ¬ pattern.isPrefixOf (c :: (kept ++ text)) = true := by
      rw [List.isPrefixOf_iff_prefix]
      exact h [] (c :: kept) rfl (List.cons_ne_nil c kept)
    rw [List.cons_append, replaceAll, if_neg hnot, List.cons_append]
    apply congrArg (c :: ·)
    apply ih
    intro a b hsplit hne
    exact h (c :: a) b (by rw [hsplit]; rfl) hne

end

/-! ## `String.replace` -/

section
open String.Slice.Pattern String.Slice.Pattern.Model

def stepText {s : String.Slice} (word : String) : SearchStep s → String
  | .matched _ _ => word
  | .rejected start stop => (s.slice! start stop).copy

theorem replace_eq_fold (s pattern word : String) :
    s.replace pattern word =
      (ToForwardSearcher.toSearcher pattern s.toSlice).fold
        (fun sofar step => sofar ++ stepText word step) "" := by
  change Std.Iter.fold _ "" (ToForwardSearcher.toSearcher pattern s.toSlice) = _
  congr
  funext sofar step
  cases step with
  | matched =>
    change sofar ++ word.toSlice.copy = sofar ++ word
    rw [String.copy_toSlice]
  | rejected => rfl

private theorem toList_foldl_stepText {s : String.Slice} (word : String)
    (steps : List (SearchStep s)) (sofar : String) :
    (steps.foldl (fun sofar step => sofar ++ stepText word step) sofar).toList =
      sofar.toList ++ steps.flatMap fun step => (stepText word step).toList := by
  induction steps generalizing sofar with
  | nil => simp
  | cons step steps ih =>
    rw [List.foldl_cons, ih, String.toList_append, List.flatMap_cons, List.append_assoc]

private theorem flatMap_stepText {pattern : String} (hne : pattern ≠ "") (word : String)
    {s : String.Slice} {p : s.Pos} {steps : List (SearchStep s)}
    (h : IsValidSearchFrom pattern p steps) {before after : String} (hp : p.Splits before after) :
    (steps.flatMap fun step => (stepText word step).toList) =
      replaceAll pattern.toList word.toList 0 after.toList := by
  have hpattern : pattern.toList ≠ [] := by simpa using hne
  induction h generalizing before after with
  | endPos =>
    rw [String.Slice.splits_endPos_iff] at hp
    rw [hp.2]
    rfl
  | @matched steps start stop hmatch _ ih =>
    obtain ⟨t, rest, hstart, hstop⟩ := ForwardStringSearcher.isLongestMatchAt_iff_splits.1 hmatch
    rw [hp.eq_right hstart, String.toList_append, replaceAll_pattern hpattern, List.flatMap_cons,
      ih hstop]
    rfl
  | @mismatched steps start stop hlt hno _ ih =>
    obtain ⟨t, rest, hstart, hstop⟩ :=
      String.Slice.copy_slice_eq_iff_splits.1 ⟨Std.le_of_lt hlt, rfl⟩
    have hbefore := hp.eq_left hstart
    have hafter := hp.eq_right hstart
    subst hbefore hafter
    rw [List.flatMap_cons, ih hstop, stepText,
      ← String.Slice.slice_eq_slice! (h := Std.le_of_lt hlt), String.toList_append,
      replaceAll_kept]
    -- a word that equals the pattern would be a match at the position where it begins
    intro a b hsplit hb hextends
    obtain ⟨tail, htail⟩ := hextends
    have hkept : (s.slice start stop (Std.le_of_lt hlt)).copy =
        String.ofList a ++ String.ofList b := by
      rw [← String.ofList_append, ← hsplit, String.ofList_toList]
    have hmatch : String.ofList b ++ rest = pattern ++ String.ofList tail := by
      rw [← String.toList_inj, String.toList_append, String.toList_append, String.toList_ofList,
        String.toList_ofList, htail]
    rw [hkept] at hstart hstop
    have hq : s.copy = (before ++ String.ofList a) ++ (String.ofList b ++ rest) := by
      rw [hstop.eq_append]
      simp only [String.append_assoc]
    obtain ⟨q, hsplits⟩ :
        ∃ q : s.Pos, q.Splits (before ++ String.ofList a) (String.ofList b ++ rest) :=
      ⟨_, String.Slice.Pos.splits_ofEqAppend hq⟩
    apply hno q
    · rw [hstart.le_iff_exists_eq_append hsplits]
      exact ⟨String.ofList a, rfl, by rw [String.append_assoc]⟩
    · rw [hsplits.lt_iff_exists_eq_append hstop]
      exact ⟨String.ofList b, by simpa using hb, by rw [String.append_assoc], rfl⟩
    · rw [ForwardStringSearcher.matchesAt_iff_splits]
      rw [hmatch] at hsplits
      exact ⟨_, _, hsplits⟩

/-- `String.replace` replaces from the left. -/
theorem toList_replace {pattern : String} (hne : pattern ≠ "") (s word : String) :
    (s.replace pattern word).toList =
      replaceAll pattern.toList word.toList 0 s.toList := by
  have hsearch := (ForwardStringSearcher.lawfulToForwardSearcherModel hne).isValidSearchFrom_toList
    s.toSlice
  have hsplits := String.Slice.splits_startPos s.toSlice
  rw [String.copy_toSlice] at hsplits
  rw [replace_eq_fold, ← Std.Iter.foldl_toList, toList_foldl_stepText,
    flatMap_stepText hne word hsearch hsplits]
  rfl

end

/-! ## Templates -/

/-- A piece of a template: an element of the text, or a key with what it stands for. -/
inductive Piece (α : Type)
  | literal (c : α)
  | key (word value : List α)

variable [DecidableEq α]

/-- The pieces of a text with these keys, from the left. -/
def pieces (values : List (List α × List α)) : Nat → List α → List (Piece α)
  | _, [] => []
  | skip + 1, _ :: text => pieces values skip text
  | 0, c :: text =>
    match values.find? fun v => v.1.isPrefixOf (c :: text) with
    | some v => .key v.1 v.2 :: pieces values (v.1.length - 1) text
    | none => .literal c :: pieces values 0 text

def Piece.text (done : List (List α)) : Piece α → List α
  | literal c => [c]
  | key word value => if word ∈ done then value else word

def printed (done : List (List α)) (ps : List (Piece α)) : List α := ps.flatMap (Piece.text done)

@[simp]
theorem printed_cons (done : List (List α)) (p : Piece α) (ps : List (Piece α)) :
    printed done (p :: ps) = p.text done ++ printed done ps := rfl

/-- Every key of the text is replaced by its value at the same time. -/
def simultaneous (values : List (List α × List α)) (text : List α) : List α :=
  printed (values.map Prod.fst) (pieces values 0 text)

private theorem mem_of_key_mem_pieces {values : List (List α × List α)} {word value : List α}
    {skip : Nat} {text : List α} (h : .key word value ∈ pieces values skip text) : (word, value)
    ∈ values := by
  induction text generalizing skip with
  | nil =>
    rw [pieces] at h
    cases h
  | cons c text ih =>
    cases skip with
    | succ skip => exact ih h
    | zero =>
      rw [pieces] at h
      split at h
      · rename_i v hv
        rcases List.mem_cons.1 h with heq | h
        · cases heq
          exact List.mem_of_find?_eq_some hv
        · exact ih h
      · rcases List.mem_cons.1 h with heq | h
        · cases heq
        · exact ih h

private theorem printed_nil_pieces {values : List (List α × List α)} (hne : ∀ v ∈ values, v.1 ≠ [])
    (skip : Nat) (text : List α) : printed [] (pieces values skip text) = text.drop skip := by
  induction text generalizing skip with
  | nil => rw [pieces, List.drop_nil]; rfl
  | cons c text ih =>
    cases skip with
    | succ skip => exact ih skip
    | zero =>
      rw [pieces]
      split
      · rename_i v hv
        have hextends := List.find?_some hv
        rw [List.isPrefixOf_iff_prefix] at hextends
        obtain ⟨rest, hrest⟩ := hextends
        cases hword : v.1 with
        | nil => exact absurd hword (hne v (List.mem_of_find?_eq_some hv))
        | cons x word =>
          rw [hword, List.cons_append, List.cons.injEq] at hrest
          rw [printed_cons, ih, ← hrest.1, ← hrest.2]
          simp [Piece.text]
      · rw [printed_cons, ih]
        rfl

/-- The word occurs in the printed text only as a key that is still to be replaced. -/
def OnlyAsKey (word : List α) (done : List (List α)) (ps : List (Piece α)) : Prop :=
  ∀ a b, printed done ps = a ++ word ++ b →
    ∃ before value after, ps = before ++ .key word value :: after ∧ a = printed done before

section
variable {word : List α} {done : List (List α)} {p : Piece α} {ps : List (Piece α)}

theorem Piece.text_key (hdone : word ∉ done) (value : List α) :
    (Piece.key word value).text done = word := if_neg hdone

theorem OnlyAsKey.tail (h : OnlyAsKey word done (p :: ps)) (hne : word ≠ []) (hdone : word ∉ done) :
    OnlyAsKey word done ps := by
  intro a b hab
  obtain ⟨before, value, after, hsplit, ha⟩ := h (p.text done ++ a) b (by
    rw [printed_cons, hab]
    simp only [List.append_assoc])
  cases before with
  | nil =>
    rw [List.nil_append, List.cons.injEq] at hsplit
    rw [hsplit.1, Piece.text_key hdone] at ha
    exact absurd (List.append_eq_nil_iff.1 ha).1 hne
  | cons q before =>
    rw [List.cons_append, List.cons.injEq] at hsplit
    rw [printed_cons, hsplit.1] at ha
    exact ⟨before, value, after, hsplit.2, List.append_cancel_left ha⟩

/-- No occurrence begins within a piece other than the key. -/
theorem OnlyAsKey.not_prefix (h : OnlyAsKey word done (p :: ps)) (hp : ∀ value, p ≠ .key word value)
    {a b : List α} (hsplit : p.text done = a ++ b) (hne : b ≠ []) :
    ¬ word <+: b ++ printed done ps := by
  rintro ⟨rest, hrest⟩
  obtain ⟨before, value, after, hps, ha⟩ := h a rest (by
    rw [printed_cons, hsplit, List.append_assoc, List.append_assoc, hrest])
  cases before with
  | nil =>
    rw [List.nil_append, List.cons.injEq] at hps
    exact hp value hps.1
  | cons q before =>
    rw [List.cons_append, List.cons.injEq] at hps
    rw [printed_cons, ← hps.1, hsplit] at ha
    have hlength := congrArg List.length ha
    have hpos := List.length_pos_iff.2 hne
    simp only [List.length_append] at hlength
    omega

/-- Replacing such a word is replacing the key. -/
theorem replaceAll_printed {value : List α} (hne : word ≠ []) (hdone : word ∉ done)
    (hvalue : ∀ v, .key word v ∈ ps → v = value) (h : OnlyAsKey word done ps) :
    replaceAll word value 0 (printed done ps) = printed (word :: done) ps := by
  induction ps with
  | nil => rfl
  | cons p ps ih =>
    have hrest := ih (fun v hv => hvalue v (List.mem_cons_of_mem p hv)) (h.tail hne hdone)
    rw [printed_cons, printed_cons]
    by_cases hp : ∃ v, p = .key word v
    · obtain ⟨v, rfl⟩ := hp
      rw [Piece.text_key hdone, replaceAll_pattern hne, hrest,
        ← hvalue v List.mem_cons_self]
      simp [Piece.text]
    · have hother (v : List α) : p ≠ .key word v := fun heq => hp ⟨v, heq⟩
      rw [replaceAll_kept _ _ fun a b hab hb => h.not_prefix hother hab hb, hrest]
      cases p with
      | literal c => rfl
      | key w v =>
        have hw : w ≠ word := by
          rintro rfl
          exact hother v rfl
        simp [Piece.text, hw]

end

/-- Whichever keys are replaced, the others occur only where the template has them. -/
def Confined (values : List (List α × List α)) (text : List α) : Prop :=
  ∀ done, (∀ word ∈ done, word ∈ values.map Prod.fst) → ∀ v ∈ values, v.1 ∉ done →
    OnlyAsKey v.1 done (pieces values 0 text)

/-- One key after the other, in any order. -/
theorem foldl_replaceAll {values : List (List α × List α)} {text : List α}
    (hkeys : (values.map Prod.fst).Nodup) (hne : ∀ v ∈ values, v.1 ≠ [])
    (h : Confined values text) {order : List (List α × List α)} {done : List (List α)}
    (horder : ∀ v ∈ order, v ∈ values) (hdone : ∀ word ∈ done, word ∈ values.map Prod.fst)
    (hnodup : (order.map Prod.fst ++ done).Nodup) :
    order.foldl (fun text v => replaceAll v.1 v.2 0 text) (printed done (pieces values 0 text)) =
      printed ((order.map Prod.fst).reverse ++ done) (pieces values 0 text) := by
  induction order generalizing done with
  | nil => rfl
  | cons v order ih =>
    have hv := horder v List.mem_cons_self
    rw [List.map_cons, List.cons_append, List.nodup_cons, List.mem_append, not_or] at hnodup
    have hvalue (value : List α) (hmem : .key v.1 value ∈ pieces values 0 text) : value = v.2 := by
      have heq := List.inj_on_of_nodup_map hkeys (mem_of_key_mem_pieces hmem) hv rfl
      exact congrArg Prod.snd heq
    have hnext := replaceAll_printed (hne v hv) hnodup.1.2 hvalue (h done hdone v hv hnodup.1.2)
    rw [List.foldl_cons, hnext, ih (fun w hw => horder w (List.mem_cons_of_mem v hw))]
    · simp
    · intro word hword
      rcases List.mem_cons.1 hword with rfl | hword
      · exact List.mem_map_of_mem hv
      · exact hdone word hword
    · rw [List.nodup_append] at hnodup ⊢
      obtain ⟨⟨hfresh, hfresh'⟩, horder', hdone', hdisjoint⟩ := hnodup
      refine ⟨horder', List.nodup_cons.2 ⟨hfresh', hdone'⟩, ?_⟩
      intro a ha b hb hab
      rcases List.mem_cons.1 hb with rfl | hb
      · exact hfresh (hab ▸ ha)
      · exact hdisjoint a ha b hb hab

theorem printed_congr {done done' : List (List α)} (h : ∀ word, word ∈ done ↔ word ∈ done')
    (ps : List (Piece α)) : printed done ps = printed done' ps := by
  have htext : Piece.text (α := α) done = Piece.text done' := by
    funext p
    cases p with
    | literal c => rfl
    | key word value => simp only [Piece.text, h]
  rw [printed, htext, printed]

/-- In every order the keys are replaced as if at the same time. -/
theorem foldl_replaceAll_eq_simultaneous {values : List (List α × List α)} {text : List α}
    (hkeys : (values.map Prod.fst).Nodup) (hne : ∀ v ∈ values, v.1 ≠ [])
    (h : Confined values text) {order : List (List α × List α)} (hperm : order.Perm values) :
    order.foldl (fun text v => replaceAll v.1 v.2 0 text) text = simultaneous values text := by
  have hnodup : (order.map Prod.fst ++ []).Nodup := by
    rw [List.append_nil]
    exact (hperm.map Prod.fst).nodup_iff.2 hkeys
  have hdone : ∀ word ∈ ([] : List (List α)), word ∈ values.map Prod.fst := by simp
  have hfold := foldl_replaceAll hkeys hne h (fun v hv => hperm.mem_iff.1 hv) hdone hnodup
  rw [printed_nil_pieces hne, List.drop_zero] at hfold
  rw [hfold, simultaneous]
  apply printed_congr
  intro word
  rw [List.append_nil, List.mem_reverse, (hperm.map Prod.fst).mem_iff]

/-! ## Marked keys -/

/-- Keys that begin with a marker, in a text and with values that contain it nowhere else. -/
structure Marked (marker : α) (values : List (List α × List α)) (text : List α) : Prop where
  key : ∀ v ∈ values, ∃ name, v.1 = marker :: name ∧ marker ∉ name
  distinct : ∀ v ∈ values, ∀ w ∈ values, v.1 <+: w.1 → v.1 = w.1
  value : ∀ v ∈ values, marker ∉ v.2
  text : ∀ c, .literal c ∈ pieces values 0 text → c ≠ marker

omit [DecidableEq α] in
private theorem append_marker {marker : α} {front rest a b : List α} (h : marker ∉ front)
    (heq : front ++ rest = a ++ marker :: b) :
    ∃ a', a = front ++ a' ∧ rest = a' ++ marker :: b := by
  rcases List.append_eq_append_iff.1 heq with ⟨a', ha, hrest⟩ | ⟨c, hfront, hmark⟩
  · exact ⟨a', ha, hrest⟩
  · cases c with
    | nil =>
      rw [List.append_nil] at hfront
      rw [List.nil_append] at hmark
      exact ⟨[], by rw [List.append_nil, hfront], hmark.symm⟩
    | cons x c =>
      rw [List.cons_append, List.cons.injEq] at hmark
      rw [hfront, hmark.1] at h
      exact absurd (List.mem_append_right a List.mem_cons_self) h

/-- The marker shows where the keys are. -/
theorem onlyAsKey_of_marker {marker : α} {values : List (List α × List α)} {ps : List (Piece α)}
    {done : List (List α)} {v : List α × List α} (hv : v ∈ values)
    (hkey : ∀ v ∈ values, ∃ name, v.1 = marker :: name ∧ marker ∉ name)
    (hdistinct : ∀ v ∈ values, ∀ w ∈ values, v.1 <+: w.1 → v.1 = w.1)
    (hvalue : ∀ v ∈ values, marker ∉ v.2) (hliteral : ∀ c, .literal c ∈ ps → c ≠ marker)
    (hps : ∀ word value, .key word value ∈ ps → (word, value) ∈ values) :
    OnlyAsKey v.1 done ps := by
  obtain ⟨name, hname, _⟩ := hkey v hv
  intro a b
  induction ps generalizing a with
  | nil =>
    intro hab
    rw [hname] at hab
    simp [printed] at hab
  | cons p ps ih =>
    intro hab
    have hrest {a' : List α} (hab' : printed done ps = a' ++ v.1 ++ b)
        (ha : a = p.text done ++ a') :
        ∃ before value after, p :: ps = before ++ .key v.1 value :: after ∧
          a = printed done before := by
      obtain ⟨before, value, after, hsplit, hbefore⟩ := ih
        (fun c hc => hliteral c (List.mem_cons_of_mem p hc))
        (fun word value hmem => hps word value (List.mem_cons_of_mem p hmem)) a' hab'
      refine ⟨p :: before, value, after, by rw [hsplit]; rfl, ?_⟩
      rw [ha, hbefore, printed_cons]
    rw [printed_cons, hname, List.append_assoc, List.cons_append] at hab
    by_cases hfree : marker ∈ p.text done
    · -- the piece is a key that is still to be replaced
      cases p with
      | literal c =>
        rw [Piece.text, List.mem_singleton] at hfree
        exact absurd hfree.symm (hliteral c List.mem_cons_self)
      | key word value =>
        have hmem := hps word value List.mem_cons_self
        have htext : (Piece.key word value).text done = word := by
          rw [Piece.text] at hfree ⊢
          split_ifs at hfree ⊢
          · exact absurd hfree (hvalue _ hmem)
          · rfl
        obtain ⟨name', hword, hname'⟩ := hkey _ hmem
        change word = marker :: name' at hword
        cases a with
        | nil =>
          have hkeyed : v.1 <+: word ++ printed done ps := by
            rw [← htext, hab, hname]
            exact List.prefix_append (marker :: name) b
          have hextends : word <+: v.1 ∨ v.1 <+: word :=
            List.prefix_or_prefix_of_prefix (List.prefix_append word _) hkeyed
          have hsame : word = v.1 := by
            rcases hextends with hextends | hextends
            · exact hdistinct _ hmem v hv hextends
            · exact (hdistinct v hv _ hmem hextends).symm
          exact ⟨[], value, ps, by rw [hsame]; rfl, rfl⟩
        | cons x a =>
          rw [htext, hword, List.cons_append, List.cons_append, List.cons.injEq] at hab
          obtain ⟨a', ha, hab'⟩ := append_marker hname' hab.2
          have hrest' : printed done ps = a' ++ v.1 ++ b := by
            rw [hab', hname, List.append_assoc, List.cons_append]
          apply hrest hrest'
          rw [htext, hword, ← hab.1, ha, List.cons_append]
    · obtain ⟨a', ha, hab'⟩ := append_marker hfree hab
      apply hrest _ ha
      rw [hab', hname, List.append_assoc, List.cons_append]

/-- Such texts are confined. -/
theorem Marked.confined {marker : α} {values : List (List α × List α)} {text : List α}
    (h : Marked marker values text) : Confined values text := by
  intro done _ v hv _
  exact onlyAsKey_of_marker hv h.key h.distinct h.value h.text
    fun word value => mem_of_key_mem_pieces

end DblService.Framework
