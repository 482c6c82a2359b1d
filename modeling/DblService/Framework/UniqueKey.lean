import Mathlib.Data.List.Nodup

/-!
# Rows with a unique key

A table is the list of its rows in insertion order.  `UniqueKey key rows` is the
constraint that no two rows share the key; the conflict clauses `OR IGNORE` and
`OR REPLACE` are the two ways to insert a row without breaking it.
-/

namespace DblService.Framework

variable {ρ κ : Type}

def UniqueKey (key : ρ → κ) (rows : List ρ) : Prop := (rows.map key).Nodup

section
variable {key : ρ → κ} {rows : List ρ}

theorem UniqueKey.filter (h : UniqueKey key rows) (p : ρ → Bool) :
    UniqueKey key (rows.filter p) :=
  List.Nodup.sublist (List.filter_sublist.map key) h

theorem UniqueKey.append_singleton {r : ρ} (h : UniqueKey key rows)
    (hr : key r ∉ rows.map key) : UniqueKey key (rows ++ [r]) := by
  unfold UniqueKey
  rw [List.map_append, List.map_singleton]
  refine List.nodup_append.mpr ⟨h, List.nodup_singleton _, ?_⟩
  intro a ha b hb hab
  rw [List.mem_singleton.mp hb] at hab
  exact hr (hab ▸ ha)

/-- An update that leaves the key column alone keeps it unique. -/
theorem UniqueKey.map (h : UniqueKey key rows) {f : ρ → ρ} (hf : ∀ x, key (f x) = key x) :
    UniqueKey key (rows.map f) := by
  unfold UniqueKey
  rw [List.map_map, show key ∘ f = key from funext hf]
  exact h

theorem UniqueKey.eq_of_mem (h : UniqueKey key rows) {x y : ρ} (hx : x ∈ rows) (hy : y ∈ rows)
    (hk : key x = key y) : x = y :=
  List.inj_on_of_nodup_map h hx hy hk

end

variable [DecidableEq κ] (key : ρ → κ)

def insertOrIgnore (r : ρ) (rows : List ρ) : List ρ :=
  if key r ∈ rows.map key then rows else rows ++ [r]

/-- Insert the row in place of the one that holds its key. -/
def insertOrReplace (r : ρ) (rows : List ρ) : List ρ :=
  rows.filter (fun x => key x ≠ key r) ++ [r]

def lookup (k : κ) (rows : List ρ) : Option ρ := rows.find? (fun x => key x = k)

variable {key} {rows : List ρ}

theorem mem_insertOrIgnore {r x : ρ} :
    x ∈ insertOrIgnore key r rows ↔ x ∈ rows ∨ (x = r ∧ key r ∉ rows.map key) := by
  unfold insertOrIgnore
  split_ifs with h
  · simp [h]
  · simp [h]

theorem mem_insertOrReplace {r x : ρ} :
    x ∈ insertOrReplace key r rows ↔ (x ∈ rows ∧ key x ≠ key r) ∨ x = r := by
  simp [insertOrReplace]

theorem UniqueKey.insertOrIgnore (h : UniqueKey key rows) (r : ρ) :
    UniqueKey key (insertOrIgnore key r rows) := by
  unfold Framework.insertOrIgnore
  split_ifs with hr
  · exact h
  · exact h.append_singleton hr

theorem UniqueKey.insertOrReplace (h : UniqueKey key rows) (r : ρ) :
    UniqueKey key (insertOrReplace key r rows) :=
  (h.filter _).append_singleton (by simp)

theorem lookup_eq_some_iff (h : UniqueKey key rows) {k : κ} {r : ρ} :
    lookup key k rows = some r ↔ r ∈ rows ∧ key r = k := by
  constructor
  · intro hr
    exact ⟨List.mem_of_find?_eq_some hr, by simpa using List.find?_some hr⟩
  · rintro ⟨hr, rfl⟩
    cases hx : lookup key (key r) rows with
    | none => simpa using List.find?_eq_none.mp hx r hr
    | some x =>
      have hk : key x = key r := by simpa using List.find?_some hx
      rw [h.eq_of_mem (List.mem_of_find?_eq_some hx) hr hk]

/-- The order of the rows does not matter. -/
theorem lookup_perm {rows' : List ρ} (h : UniqueKey key rows) (hperm : rows.Perm rows') (k : κ) :
    lookup key k rows = lookup key k rows' := by
  have h' : UniqueKey key rows' := (hperm.map key).nodup_iff.mp h
  apply Option.ext
  intro r
  rw [lookup_eq_some_iff h, lookup_eq_some_iff h', hperm.mem_iff]

theorem lookup_eq_none_iff {k : κ} : lookup key k rows = none ↔ ∀ r ∈ rows, key r ≠ k := by
  simp [lookup]

/-- Among the rows that pass a test at most one holds a key. -/
theorem UniqueKey.filter_key (h : UniqueKey key rows) (p : ρ → Bool) (k : κ) :
    rows.filter (fun x => decide (key x = k) && p x) = ((lookup key k rows).filter p).toList := by
  induction rows with
  | nil => rfl
  | cons x xs ih =>
    obtain ⟨hx, hxs⟩ := List.nodup_cons.mp h
    by_cases hk : key x = k
    · have hnone : xs.filter (fun y => decide (key y = k) && p y) = [] := by
        apply List.filter_eq_nil_iff.mpr
        intro y hy hyk
        apply hx
        simp only [Bool.and_eq_true, decide_eq_true_eq] at hyk
        exact List.mem_map.mpr ⟨y, hy, hyk.1.trans hk.symm⟩
      have hfound : lookup key k (x :: xs) = some x := by simp [lookup, hk]
      rw [hfound, List.filter_cons, hnone]
      cases hp : p x <;> simp [hk, hp, Option.filter]
    · have hskip : lookup key k (x :: xs) = lookup key k xs := by simp [lookup, hk]
      rw [hskip, List.filter_cons, ← ih hxs]
      simp [hk]

theorem lookup_filter (p : ρ → Bool) (k : κ) (h : UniqueKey key rows) :
    lookup key k (rows.filter p) = (lookup key k rows).filter p := by
  cases hx : lookup key k rows with
  | none =>
    rw [lookup_eq_none_iff] at hx
    exact lookup_eq_none_iff.mpr fun r hr => hx r (List.mem_of_mem_filter hr)
  | some x =>
    obtain ⟨hm, hk⟩ := (lookup_eq_some_iff h).mp hx
    cases hp : p x with
    | true =>
      rw [Option.filter_some, if_pos hp]
      exact (lookup_eq_some_iff (h.filter p)).mpr ⟨List.mem_filter.mpr ⟨hm, hp⟩, hk⟩
    | false =>
      rw [Option.filter_some, hp, if_neg Bool.false_ne_true]
      apply lookup_eq_none_iff.mpr
      intro r hr hrk
      have hrx := h.eq_of_mem (List.mem_of_mem_filter hr) hm (hrk.trans hk.symm)
      rw [hrx] at hr
      simp [hp] at hr

theorem lookup_append_singleton (r : ρ) (k : κ) :
    lookup key k (rows ++ [r]) =
      (lookup key k rows).or (if key r = k then some r else none) := by
  simp [lookup, List.find?_append, List.find?_singleton]

theorem lookup_insertOrReplace (r : ρ) (k : κ) :
    lookup key k (insertOrReplace key r rows) = if key r = k then some r else lookup key k rows := by
  unfold insertOrReplace
  rw [lookup_append_singleton]
  split_ifs with hk
  · have hnone : lookup key k (rows.filter fun x => decide (key x ≠ key r)) = none :=
      lookup_eq_none_iff.mpr fun x hx hxk => by
        have hne := List.of_mem_filter hx
        simp [hxk, hk] at hne
    rw [hnone, Option.none_or]
  · rw [Option.or_none]
    induction rows with
    | nil => rfl
    | cons x xs ih =>
      by_cases hx : key x = key r
      · have hxk : key x ≠ k := fun h => hk (hx ▸ h)
        simpa [lookup, hx, hk, hxk] using ih
      · by_cases hxk : key x = k
        · simp [lookup, hxk, Ne.symm hk]
        · simpa [lookup, hx, hxk] using ih

theorem lookup_insertOrIgnore (r : ρ) (k : κ) :
    lookup key k (insertOrIgnore key r rows) =
      (lookup key k rows).or (if key r = k then some r else none) := by
  unfold insertOrIgnore
  split_ifs with hm hk hk
  · obtain ⟨x, hx, hxr⟩ := List.mem_map.mp hm
    cases hl : lookup key k rows with
    | none => exact absurd (hxr.trans hk) (lookup_eq_none_iff.mp hl x hx)
    | some y => rfl
  · rw [Option.or_none]
  · rw [lookup_append_singleton, if_pos hk]
  · rw [lookup_append_singleton, if_neg hk]

/-- An update that leaves the key column alone. -/
theorem lookup_map {f : ρ → ρ} (hf : ∀ x, key (f x) = key x) (k : κ) :
    lookup key k (rows.map f) = (lookup key k rows).map f := by
  have hkey : (fun x => decide (key x = k)) ∘ f = fun x => decide (key x = k) := by
    funext x
    simp [hf]
  rw [lookup, List.find?_map, hkey, lookup]

theorem mem_map_iff_lookup {k : κ} : k ∈ rows.map key ↔ (lookup key k rows).isSome := by
  simp [lookup, List.find?_isSome]

/-- Rows split into the groups of their keys. -/
theorem perm_flatMap_filter {α : Type} {key : ρ → κ} {group : α → κ} {groups : List α}
    (hgroups : UniqueKey group groups) {rows : List ρ}
    (h : ∀ r ∈ rows, ∃ g ∈ groups, group g = key r) :
    rows.Perm (groups.flatMap fun g => rows.filter fun r => key r = group g) := by
  induction groups generalizing rows with
  | nil =>
    cases rows with
    | nil => exact List.Perm.nil
    | cons r rs =>
      obtain ⟨g, hg, _⟩ := h r List.mem_cons_self
      cases hg
  | cons g gs ih =>
    obtain ⟨hg, hgs⟩ := List.nodup_cons.mp hgroups
    have hsplit := (List.filter_append_perm (fun r => decide (key r = group g)) rows).symm
    have hrest := @ih hgs (rows.filter fun r => !decide (key r = group g)) (by
      intro r hr
      obtain ⟨hr, hne⟩ := List.mem_filter.mp hr
      obtain ⟨g', hg', hkey⟩ := h r hr
      rcases List.mem_cons.mp hg' with rfl | hg'
      · simp [hkey] at hne
      · exact ⟨g', hg', hkey⟩)
    have hsame : ∀ g' ∈ gs, (rows.filter fun r => !decide (key r = group g)).filter
        (fun r => decide (key r = group g')) = rows.filter fun r => key r = group g' := by
      intro g' hg'
      rw [List.filter_filter]
      apply List.filter_congr
      intro r _
      by_cases hkey : key r = group g'
      · have hne : group g' ≠ group g := fun heq => hg (List.mem_map.mpr ⟨g', hg', heq⟩)
        simp [hkey, hne]
      · simp [hkey]
    rw [List.flatMap_cons]
    refine hsplit.trans (List.Perm.append_left _ ?_)
    rw [List.flatMap_congr hsame] at hrest
    exact hrest

end DblService.Framework
