import Mathlib.Logic.Function.Basic
import Mathlib.Tactic.SplitIfs

/-!
# Keys in groups

Groups with attributes under labels, and keys of which each belongs to at most one group.
What the operations on groups and keys do is said through `Within`: the keys whose group has
attributes of a kind.
-/

namespace DblService.Framework

open Classical

@[ext] structure Registry (Key Label Attr : Type) where
  group : Label → Option Attr
  owner : Key → Option Label
  owned : ∀ k l, owner k = some l → (group l).isSome = true

namespace Registry

variable {Key Label Attr : Type}

/-- The key belongs to a group of that kind. -/
def Within (R : Registry Key Label Attr) (kind : Attr → Prop) (k : Key) : Prop :=
  ∃ l a, R.owner k = some l ∧ R.group l = some a ∧ kind a

noncomputable def ensure (R : Registry Key Label Attr) (l : Label) (a : Attr) :
    Registry Key Label Attr where
  group := Function.update R.group l (some ((R.group l).getD a))
  owner := R.owner
  owned := by
    intro k m h
    by_cases hm : m = l
    · simp [hm]
    · simpa [hm] using R.owned k m h

/-- Give the keys to the group, whoever had them; without the group nothing happens. -/
noncomputable def assign (R : Registry Key Label Attr) (keys : Key → Prop) (l : Label) :
    Registry Key Label Attr where
  group := R.group
  owner k := if keys k ∧ (R.group l).isSome = true then some l else R.owner k
  owned := by
    intro k m h
    split_ifs at h with hk
    · cases h
      exact hk.2
    · exact R.owned k m h

/-- Give the keys to the group, but for those that a group of this kind has. -/
noncomputable def claim (R : Registry Key Label Attr) (keep : Attr → Prop) (keys : Key → Prop)
    (l : Label) : Registry Key Label Attr :=
  R.assign (fun k => keys k ∧ ¬ R.Within keep k) l

noncomputable def adjust (R : Registry Key Label Attr) (l : Label) (f : Attr → Attr) :
    Registry Key Label Attr where
  group := Function.update R.group l ((R.group l).map f)
  owner := R.owner
  owned := by
    intro k m h
    by_cases hm : m = l
    · subst hm
      simpa using R.owned k m h
    · simpa [hm] using R.owned k m h

noncomputable def dissolve (R : Registry Key Label Attr) (l : Label) :
    Registry Key Label Attr where
  group := Function.update R.group l none
  owner k := if R.owner k = some l then none else R.owner k
  owned := by
    intro k m h
    split_ifs at h with hk
    have hm : m ≠ l := by
      rintro rfl
      exact hk h
    simpa [hm] using R.owned k m h

variable {R R' R'' : Registry Key Label Attr} {kind : Attr → Prop} {keys : Key → Prop} {k : Key}
  {l : Label} {a : Attr}

theorem ensure_taken {b : Attr} (h : R.group l = some b) : R.ensure l a = R := by
  apply Registry.ext
  · funext m
    by_cases hm : m = l
    · simp [ensure, hm, h]
    · simp [ensure, hm]
  · rfl

/-! ## Keys that are left alone -/

/-- The key is where it was, and so are the attributes of its group. -/
structure SameFor (k : Key) (R R' : Registry Key Label Attr) : Prop where
  owner : R'.owner k = R.owner k
  group : ∀ l, R.owner k = some l → R'.group l = R.group l

namespace SameFor

theorem refl (k : Key) (R : Registry Key Label Attr) : SameFor k R R := ⟨rfl, fun _ _ => rfl⟩

theorem trans (h : SameFor k R R') (h' : SameFor k R' R'') : SameFor k R R'' := by
  refine ⟨h'.owner.trans h.owner, ?_⟩
  intro l hl
  exact (h'.group l (h.owner.trans hl)).trans (h.group l hl)

theorem within (h : SameFor k R R') : R'.Within kind k ↔ R.Within kind k := by
  unfold Within
  rw [h.owner]
  constructor
  · rintro ⟨l, a, hl, ha, hkind⟩
    exact ⟨l, a, hl, h.group l hl ▸ ha, hkind⟩
  · rintro ⟨l, a, hl, ha, hkind⟩
    exact ⟨l, a, hl, (h.group l hl).trans ha, hkind⟩

/-- A new group has no keys. -/
theorem ensure : SameFor k R (R.ensure l a) := by
  refine ⟨rfl, ?_⟩
  intro m hm
  by_cases hml : m = l
  · obtain ⟨b, hb⟩ := Option.isSome_iff_exists.mp (R.owned k m hm)
    simp [Registry.ensure, ← hml, hb]
  · simp [Registry.ensure, hml]

theorem assign (hk : ¬ keys k) : SameFor k R (R.assign keys l) := by
  refine ⟨?_, fun _ _ => rfl⟩
  simp [Registry.assign, hk]

theorem adjust {f : Attr → Attr} (hl : R.owner k ≠ some l) : SameFor k R (R.adjust l f) := by
  refine ⟨rfl, ?_⟩
  intro m hm
  have hml : m ≠ l := by
    rintro rfl
    exact hl hm
  simp [Registry.adjust, hml]

theorem dissolve (hl : R.owner k ≠ some l) : SameFor k R (R.dissolve l) := by
  refine ⟨?_, ?_⟩
  · simp [Registry.dissolve, hl]
  · intro m hm
    have hml : m ≠ l := by
      rintro rfl
      exact hl hm
    simp [Registry.dissolve, hml]

end SameFor

/-! ## Groups that are kept -/

/-- Every group is there with its attributes, perhaps among others. -/
def Extends (R R' : Registry Key Label Attr) : Prop :=
  ∀ l a, R.group l = some a → R'.group l = some a

namespace Extends

theorem refl (R : Registry Key Label Attr) : Extends R R := fun _ _ h => h

theorem trans (h : Extends R R') (h' : Extends R' R'') : Extends R R'' :=
  fun l a hl => h' l a (h l a hl)

theorem ensure : Extends R (R.ensure l a) := by
  intro m b hm
  by_cases hml : m = l
  · subst hml
    simp [Registry.ensure, hm]
  · simpa [Registry.ensure, hml] using hm

theorem assign : Extends R (R.assign keys l) := fun _ _ h => h

end Extends

/-! ## Registries that agree on the keys -/

variable {K : Type} {f : Attr → K} {d : K}

/-- The groups have the same keys, and what is read of their attributes is the same where a
group that is missing counts as `d`. -/
structure Alike (f : Attr → K) (d : K) (R R' : Registry Key Label Attr) : Prop where
  owner : ∀ k, R'.owner k = R.owner k
  group : ∀ l, ((R'.group l).map f).getD d = ((R.group l).map f).getD d

namespace Alike

theorem refl (R : Registry Key Label Attr) : Alike f d R R := ⟨fun _ => rfl, fun _ => rfl⟩

theorem symm (h : Alike f d R R') : Alike f d R' R :=
  ⟨fun k => (h.owner k).symm, fun l => (h.group l).symm⟩

theorem trans (h : Alike f d R R') (h' : Alike f d R' R'') : Alike f d R R'' :=
  ⟨fun k => (h'.owner k).trans (h.owner k), fun l => (h'.group l).trans (h.group l)⟩

theorem within {p : K → Prop} (h : Alike f d R R') :
    R'.Within (fun a => p (f a)) k ↔ R.Within (fun a => p (f a)) k := by
  -- the group of a key is there on both sides
  have hside {S : Registry Key Label Attr} :
      S.Within (fun a => p (f a)) k ↔
        ∃ l, S.owner k = some l ∧ p (((S.group l).map f).getD d) := by
    constructor
    · rintro ⟨l, a, hl, ha, hp⟩
      exact ⟨l, hl, by simpa [ha] using hp⟩
    · rintro ⟨l, hl, hp⟩
      obtain ⟨a, ha⟩ := Option.isSome_iff_exists.mp (S.owned k l hl)
      exact ⟨l, a, hl, ha, by simpa [ha] using hp⟩
  rw [hside, hside]
  simp only [h.owner, h.group]

/-- A new group of the kind that is read off a missing one. -/
theorem ensure (ha : f a = d) : Alike f d R (R.ensure l a) := by
  refine ⟨fun _ => rfl, ?_⟩
  intro m
  by_cases hml : m = l
  · subst hml
    cases hm : R.group m <;> simp [Registry.ensure, hm, ha]
  · simp [Registry.ensure, hml]

theorem assign (h : Alike f d R R') (hl : (R.group l).isSome = true)
    (hl' : (R'.group l).isSome = true) : Alike f d (R.assign keys l) (R'.assign keys l) := by
  refine ⟨?_, h.group⟩
  intro k
  simp [Registry.assign, hl, hl', h.owner]

theorem assign_nothing (hkeys : ∀ k, ¬ keys k) : Alike f d R (R.assign keys l) := by
  refine ⟨?_, fun _ => rfl⟩
  intro k
  simp [Registry.assign, hkeys]

theorem claim {p : K → Prop} (h : Alike f d R R') (hl : (R.group l).isSome = true)
    (hl' : (R'.group l).isSome = true) :
    Alike f d (R.claim (fun a => p (f a)) keys l) (R'.claim (fun a => p (f a)) keys l) := by
  refine ⟨?_, h.group⟩
  intro k
  simp [Registry.claim, Registry.assign, hl, hl', h.owner, h.within]

end Alike

theorem ensure_isSome : ((R.ensure l a).group l).isSome = true := by
  simp [ensure]

end Registry

end DblService.Framework
