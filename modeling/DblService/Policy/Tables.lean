import DblService.Blocking
import DblService.Framework.Registry

/-!
# What the store is for

Lists have names and attributes, and a domain belongs to at most one list.  The tables keep
this with ids and rows; read by names they are a policy, and every change of the tables is
an operation on it.
-/

namespace DblService

open Framework Session

structure ListAttributes where
  url : String
  description : String
  active : Bool
  custom : Bool
  isWhitelist : Bool

def DomainListRow.attributes (l : DomainListRow) : ListAttributes :=
  { url := l.url, description := l.description, active := l.active, custom := l.custom
    isWhitelist := l.isWhitelist }

/-- The lists by their names, and the list that each domain belongs to. -/
abbrev Policy := Registry String String ListAttributes

namespace Policy

def Blocks (P : Policy) (name : String) : Prop :=
  P.Within (fun a => a.active = true ∧ a.isWhitelist = false) name

def Allows (P : Policy) (name : String) : Prop :=
  P.Within (fun a => a.active = true ∧ a.isWhitelist = true) name

/-- The domains that a whitelist has, switched on or off. -/
def Keeps (P : Policy) (name : String) : Prop := P.Within (fun a => a.isWhitelist = true) name

end Policy

/-! ## The policy of the tables -/

namespace Db

def ownerName (db : Db) (m : String) : Option String :=
  (db.owner m).bind fun id => (db.listWithId id).map DomainListRow.name

private theorem ownerName_eq_some {db : Db} {m n : String} :
    db.ownerName m = some n ↔ ∃ l ∈ db.domainLists, l.name = n ∧ db.owner m = some l.id := by
  simp only [ownerName, Option.bind_eq_some_iff, Option.map_eq_some_iff, listWithId_eq_some]
  constructor
  · rintro ⟨id, howner, l, ⟨hl, rfl⟩, hn⟩
    exact ⟨l, hl, hn, howner⟩
  · rintro ⟨l, hl, hn, howner⟩
    exact ⟨l.id, howner, l, ⟨hl, rfl⟩, hn⟩

def policy (db : Db) : Policy where
  group n := (db.listNamed n).map DomainListRow.attributes
  owner := db.ownerName
  owned := by
    intro m n h
    obtain ⟨l, hl, hn, _⟩ := ownerName_eq_some.mp h
    rw [listNamed_eq_some.mpr ⟨hl, hn⟩]
    rfl

variable {db db' : Db}

theorem policy_group (n : String) :
    db.policy.group n = (db.listNamed n).map DomainListRow.attributes := rfl

theorem policy_owner {m n : String} :
    db.policy.owner m = some n ↔ ∃ l ∈ db.domainLists, l.name = n ∧ db.owner m = some l.id :=
  ownerName_eq_some

theorem policy_within {kind : ListAttributes → Prop} {m : String} :
    db.policy.Within kind m ↔
      ∃ l ∈ db.domainLists, kind l.attributes ∧ db.owner m = some l.id := by
  constructor
  · rintro ⟨n, a, hn, ha, hkind⟩
    obtain ⟨l, hl, rfl, howner⟩ := policy_owner.mp hn
    rw [policy_group, listNamed_eq_some.mpr ⟨hl, rfl⟩, Option.map_some, Option.some.injEq] at ha
    exact ⟨l, hl, ha ▸ hkind, howner⟩
  · rintro ⟨l, hl, hkind, howner⟩
    refine ⟨l.name, l.attributes, policy_owner.mpr ⟨l, hl, rfl, howner⟩, ?_, hkind⟩
    rw [policy_group, listNamed_eq_some.mpr ⟨hl, rfl⟩]
    rfl

theorem policy_keeps {m : String} : db.policy.Keeps m ↔ db.IsWhitelisted m := by
  rw [Policy.Keeps, policy_within]
  simp only [IsWhitelisted, DomainListRow.attributes, and_comm]

private theorem policy_ext {P : Policy}
    (hgroup : ∀ n, (db.listNamed n).map DomainListRow.attributes = P.group n)
    (howner : ∀ m n, (∃ l ∈ db.domainLists, l.name = n ∧ db.owner m = some l.id) ↔
      P.owner m = some n) : db.policy = P := by
  apply Registry.ext
  · funext n
    exact hgroup n
  · funext m
    apply Option.ext
    intro n
    exact policy_owner.trans (howner m n)

theorem policy_appendList {name url description : String} {custom isWhitelist : Bool}
    (h : name ∉ db.domainLists.map DomainListRow.name) :
    (db.appendList name url description custom isWhitelist h).policy =
      db.policy.ensure name { url, description, active := true, custom, isWhitelist } := by
  have hfree : db.listNamed name = none := by
    rwa [← Option.not_isSome_iff_eq_none, listNamed_isSome]
  apply policy_ext
  · intro n
    rw [appendList_listNamed]
    by_cases hn : name = n
    · subst hn
      simp [Registry.ensure, policy_group, hfree, newList, DomainListRow.attributes]
    · simp [Registry.ensure, policy_group, hn, Ne.symm hn]
  · intro m n
    have hsame : (db.policy.ensure name
        { url, description, active := true, custom, isWhitelist }).owner m =
          db.policy.owner m := rfl
    have happend (l : DomainListRow) (hl : l ∈ db.domainLists) :
        l ∈ (db.appendList name url description custom isWhitelist h).domainLists :=
      List.mem_append_left _ hl
    rw [hsame, policy_owner]
    constructor
    · rintro ⟨l, hl, hn, howner⟩
      obtain ⟨k, hk, hid⟩ := db.foreign_key _ (owner_eq_some.mp howner)
      have hkl : k = l := list_id_inj (happend k hk) hl hid
      exact ⟨k, hk, hkl ▸ hn, hid ▸ howner⟩
    · rintro ⟨l, hl, hn, howner⟩
      exact ⟨l, happend l hl, hn, howner⟩

theorem policy_ensureList (name url description : String) (custom : Bool) :
    (db.ensureList name url description custom).policy =
      db.policy.ensure name { url, description, active := true, custom, isWhitelist := false } := by
  by_cases h : name ∈ db.domainLists.map DomainListRow.name
  · obtain ⟨l, hl⟩ := Option.isSome_iff_exists.mp (db.listNamed_isSome.mpr h)
    rw [ensureList_of_taken db hl]
    have hgroup : db.policy.group name = some l.attributes := by
      rw [policy_group, hl]
      rfl
    exact (Registry.ensure_taken hgroup).symm
  · rw [ensureList, dif_neg h]
    exact policy_appendList h

/-- Names that are given to a list. -/
theorem policy_assign (keys : String → Prop) {l : DomainListRow} (hl : l ∈ db.domainLists)
    (hsame : SameButDomains db db') (hin : ∀ m, keys m → db'.owner m = some l.id)
    (hout : ∀ m, ¬ keys m → db'.owner m = db.owner m) :
    db'.policy = db.policy.assign keys l.name := by
  have hgroup : db.policy.group l.name = some l.attributes := by
    rw [policy_group, listNamed_eq_some.mpr ⟨hl, rfl⟩]
    rfl
  apply policy_ext
  · intro n
    rw [listNamed, hsame.lists]
    rfl
  · intro m n
    rw [hsame.lists]
    by_cases hm : keys m
    · simp only [Registry.assign, hm, hgroup, Option.isSome_some, and_self, if_true,
        Option.some.injEq, hin m hm]
      constructor
      · rintro ⟨k, hk, hn, hid⟩
        rw [list_id_inj hl hk hid, hn]
      · intro hn
        exact ⟨l, hl, hn, rfl⟩
    · simp only [Registry.assign, hm, false_and, if_false, hout m hm]
      exact policy_owner.symm

theorem policy_congr (hsame : SameButDomains db db') (howner : ∀ m, db'.owner m = db.owner m) :
    db'.policy = db.policy := by
  apply policy_ext
  · intro n
    rw [listNamed, hsame.lists]
    rfl
  · intro m n
    rw [hsame.lists, howner]
    exact policy_owner.symm

private theorem policy_updateLists {f : DomainListRow → DomainListRow} (hid : ∀ l, (f l).id = l.id)
    (hname : ∀ l, (f l).name = l.name) {name : String} {g : ListAttributes → ListAttributes}
    (hat : ∀ l ∈ db.domainLists, l.name = name → (f l).attributes = g l.attributes)
    (hother : ∀ l ∈ db.domainLists, l.name ≠ name → (f l).attributes = l.attributes) :
    (db.updateLists f hid hname).policy = db.policy.adjust name g := by
  have hmem (l : DomainListRow) : l ∈ (db.updateLists f hid hname).domainLists ↔
      ∃ k ∈ db.domainLists, f k = l := List.mem_map
  apply policy_ext
  · intro n
    have hrow : (db.updateLists f hid hname).listNamed n = (db.listNamed n).map f := by
      cases hl : db.listNamed n with
      | none =>
        apply lookup_eq_none_iff.mpr
        intro r hr
        obtain ⟨l, hl', rfl⟩ := (hmem r).mp hr
        rw [hname]
        exact lookup_eq_none_iff.mp hl l hl'
      | some l =>
        obtain ⟨hl', rfl⟩ := listNamed_eq_some.mp hl
        exact listNamed_eq_some.mpr ⟨(hmem _).mpr ⟨l, hl', rfl⟩, hname l⟩
    rw [hrow]
    by_cases hn : n = name
    · subst hn
      cases hl : db.listNamed n with
      | none => simp [Registry.adjust, policy_group, hl]
      | some l =>
        obtain ⟨hl', hln⟩ := listNamed_eq_some.mp hl
        simp [Registry.adjust, policy_group, hl, hat l hl' hln]
    · cases hl : db.listNamed n with
      | none => simp [Registry.adjust, policy_group, hl, hn]
      | some l =>
        obtain ⟨hl', hln⟩ := listNamed_eq_some.mp hl
        have hne : l.name ≠ name := fun h => hn (hln.symm.trans h)
        simp [Registry.adjust, policy_group, hl, hn, hother l hl' hne]
  · intro m n
    have hsame : (db.policy.adjust name g).owner m = db.policy.owner m := rfl
    rw [hsame, policy_owner]
    constructor
    · rintro ⟨l, hl, hn, howner⟩
      obtain ⟨k, hk, rfl⟩ := (hmem l).mp hl
      exact ⟨k, hk, (hname k).symm.trans hn, hid k ▸ howner⟩
    · rintro ⟨l, hl, hn, howner⟩
      exact ⟨f l, (hmem _).mpr ⟨l, hl, rfl⟩, (hname l).trans hn, (hid l).symm ▸ howner⟩

theorem policy_touchList (id now : Int) : (db.touchList id now).policy = db.policy := by
  have hadjust : (db.touchList id now).policy = db.policy.adjust "" fun a => a := by
    apply policy_updateLists
    · intro l _ _
      split_ifs <;> rfl
    · intro l _ _
      split_ifs <;> rfl
  rw [hadjust]
  apply Registry.ext
  · simp [Registry.adjust]
  · rfl

theorem policy_activateList (active : Bool) (name : String) :
    (db.activateList active name).policy = db.policy.adjust name fun a => { a with active } := by
  apply policy_updateLists
  · intro l _ hl
    rw [if_pos hl]
    rfl
  · intro l _ hl
    rw [if_neg hl]

theorem policy_deleteList (name : String) :
    (db.deleteList name).policy = db.policy.dissolve name := by
  have hmem (l : DomainListRow) :
      l ∈ (db.deleteList name).domainLists ↔ l ∈ db.domainLists ∧ l.name ≠ name := by
    simp [deleteList]
  have howner (m : String) {l : DomainListRow} (hl : l ∈ db.domainLists) (hne : l.name ≠ name) :
      (db.deleteList name).owner m = some l.id ↔ db.owner m = some l.id := by
    rw [deleteList_owner, Option.filter_eq_some_iff]
    exact ⟨fun h => h.1, fun h => ⟨h, decide_eq_true ⟨l, hl, rfl, hne⟩⟩⟩
  apply policy_ext
  · intro n
    by_cases hn : n = name
    · subst hn
      have hnone : (db.deleteList n).listNamed n = none := by
        apply lookup_eq_none_iff.mpr
        intro l hl
        exact ((hmem l).mp hl).2
      simp [Registry.dissolve, hnone]
    · have hsame : (db.deleteList name).listNamed n = db.listNamed n := by
        apply Option.ext
        intro l
        rw [listNamed_eq_some, listNamed_eq_some, hmem]
        exact ⟨fun h => ⟨h.1.1, h.2⟩, fun h => ⟨⟨h.1, h.2 ▸ hn⟩, h.2⟩⟩
      simp [Registry.dissolve, policy_group, hsame, hn]
  · intro m n
    have hsplit : (db.policy.dissolve name).owner m = some n ↔
        db.policy.owner m = some n ∧ n ≠ name := by
      simp only [Registry.dissolve]
      split_ifs with h
      · rw [h]
        simp only [Option.some.injEq, false_iff, not_and, not_not]
        exact fun h => h.symm
      · constructor
        · intro hn
          refine ⟨hn, ?_⟩
          rintro rfl
          exact h hn
        · exact fun h => h.1
    rw [hsplit, policy_owner]
    constructor
    · rintro ⟨l, hl, rfl, ho⟩
      obtain ⟨hl, hne⟩ := (hmem l).mp hl
      exact ⟨⟨l, hl, rfl, (howner m hl hne).mp ho⟩, hne⟩
    · rintro ⟨⟨l, hl, rfl, ho⟩, hne⟩
      exact ⟨l, (hmem l).mpr ⟨hl, hne⟩, rfl, (howner m hl hne).mpr ho⟩

end Db

end DblService
