import DblService.Db.Transaction

/-!
# What the statements do to the tables

For each kind of change the owner of every name and the lists afterwards, and from
these the effect of the three statement lists that write the `domains` table: of
an import, of blocking and of unblocking.
-/

namespace DblService

open Framework

namespace Db

variable (db : Db)

section
variable {name : String} {listId : Int}

private theorem replaceDomain_owner (h : ∃ l ∈ db.domainLists, l.id = listId) (m : String) :
    (db.replaceDomain name listId h).owner m = if name = m then some listId else db.owner m := by
  simp only [owner, replaceDomain, lookup_insertOrReplace]
  split_ifs <;> rfl

private theorem insertDomain_owner (h : ∃ l ∈ db.domainLists, l.id = listId) (m : String) :
    (db.insertDomain name listId h).owner m =
      (db.owner m).or (if name = m then some listId else none) := by
  simp only [owner, insertDomain, lookup_insertOrIgnore]
  cases lookup DomainRow.name m db.domains with
  | none => split_ifs <;> rfl
  | some d => rfl

private theorem filterDomains_owner (p : DomainRow → Bool) (m : String) :
    (db.filterDomains p).owner m = (db.owner m).filter fun id => p ⟨m, id⟩ := by
  simp only [owner, filterDomains, lookup_filter p m db.domain_unique]
  cases hd : lookup DomainRow.name m db.domains with
  | none => rfl
  | some d =>
    obtain ⟨_, rfl⟩ := (lookup_eq_some_iff db.domain_unique).mp hd
    cases hp : p d <;> simp [Option.filter, hp]

theorem deleteList_owner (m : String) :
    (db.deleteList name).owner m =
      (db.owner m).filter fun id => decide (∃ l ∈ db.domainLists, l.id = id ∧ l.name ≠ name) :=
  filterDomains_owner db _ m

end

theorem owner_isSome {name : String} :
    (db.owner name).isSome ↔ name ∈ db.domains.map DomainRow.name := by
  rw [mem_map_iff_lookup, owner, Option.isSome_map]

theorem listNamed_isSome {name : String} :
    (db.listNamed name).isSome ↔ name ∈ db.domainLists.map DomainListRow.name :=
  mem_map_iff_lookup.symm

theorem appendList_listNamed {name url description : String} {custom isWhitelist : Bool}
    (h : name ∉ db.domainLists.map DomainListRow.name) (n : String) :
    (db.appendList name url description custom isWhitelist h).listNamed n =
      (db.listNamed n).or
        (if name = n then some (db.newList name url description custom isWhitelist) else none) :=
  lookup_append_singleton _ _

section
variable {name url description : String} {custom : Bool}

theorem ensureList_listNamed (n : String) :
    (db.ensureList name url description custom).listNamed n =
      (db.listNamed n).or
        (if name = n then some (db.newList name url description custom false) else none) := by
  by_cases h : name ∈ db.domainLists.map DomainListRow.name
  · have hsame : db.ensureList name url description custom = db := dif_pos h
    rw [hsame]
    by_cases hn : name = n
    · obtain ⟨l, hl⟩ := Option.isSome_iff_exists.mp (db.listNamed_isSome.mpr h)
      rw [← hn, hl, Option.some_or]
    · rw [if_neg hn, Option.or_none]
  · have happend : db.ensureList name url description custom =
        db.appendList name url description custom false h := dif_neg h
    rw [happend, appendList_listNamed]

/-- Afterwards the list exists. -/
theorem ensureList_exists (name url description : String) (custom : Bool) :
    ∃ l, (db.ensureList name url description custom).listNamed name = some l := by
  rw [← Option.isSome_iff_exists, ensureList_listNamed, if_pos rfl, Option.isSome_or]
  simp

theorem ensureList_mem {l : DomainListRow} (hl : l ∈ db.domainLists) :
    l ∈ (db.ensureList name url description custom).domainLists := by
  unfold ensureList
  split_ifs
  · exact hl
  · exact List.mem_append_left _ hl

theorem ensureList_owner (m : String) :
    (db.ensureList name url description custom).owner m = db.owner m := by
  unfold ensureList
  split_ifs <;> rfl

theorem ensureList_settings :
    (db.ensureList name url description custom).settings = db.settings := by
  unfold ensureList
  split_ifs <;> rfl

theorem ensureList_stats :
    (db.ensureList name url description custom).statsDomains = db.statsDomains := by
  unfold ensureList
  split_ifs <;> rfl

/-- The list that is created is no whitelist and owns nothing. -/
theorem ensureList_isWhitelisted {m : String}
    (h : (db.ensureList name url description custom).IsWhitelisted m) : db.IsWhitelisted m := by
  obtain ⟨l, hl, howner, hflag⟩ := h
  rw [ensureList_owner] at howner
  obtain ⟨k, hk, hid⟩ := owner_exists howner
  have hkl : k = l := list_id_inj (db.ensureList_mem hk) hl hid
  exact ⟨k, hk, by rw [howner, hid], hkl ▸ hflag⟩

theorem ensureList_isWhitelisted_iff {m : String} :
    (db.ensureList name url description custom).IsWhitelisted m ↔ db.IsWhitelisted m := by
  constructor
  · exact db.ensureList_isWhitelisted
  · rintro ⟨l, hl, howner, hflag⟩
    exact ⟨l, db.ensureList_mem hl, by rw [ensureList_owner, howner], hflag⟩

/-- Nothing happens when the name is taken. -/
theorem ensureList_of_taken {l : DomainListRow} (h : db.listNamed name = some l) :
    db.ensureList name url description custom = db :=
  dif_pos (db.listNamed_isSome.mp (by rw [h]; rfl))

end

theorem touchList_listNamed (db : Db) (id now : Int) (n : String) :
    (db.touchList id now).listNamed n =
      (db.listNamed n).map fun l => if l.id = id then { l with mtime := now } else l := by
  cases hl : db.listNamed n with
  | none =>
    rw [Option.map_none]
    apply lookup_eq_none_iff.mpr
    intro r hr
    obtain ⟨l, hl', rfl⟩ := List.mem_map.mp hr
    have hne := lookup_eq_none_iff.mp hl l hl'
    split_ifs <;> exact hne
  | some l =>
    obtain ⟨hmem, rfl⟩ := listNamed_eq_some.mp hl
    rw [Option.map_some]
    refine listNamed_eq_some.mpr ⟨List.mem_map.mpr ⟨l, hmem, rfl⟩, ?_⟩
    split_ifs <;> rfl

/-- Nothing but `domains` differs. -/
structure SameButDomains (a b : Db) : Prop where
  lists : b.domainLists = a.domainLists
  settings : b.settings = a.settings
  stats : b.statsDomains = a.statsDomains

namespace SameButDomains

variable {a b c : Db}

theorem refl (a : Db) : SameButDomains a a := ⟨rfl, rfl, rfl⟩

theorem trans (h : SameButDomains a b) (h' : SameButDomains b c) : SameButDomains a c :=
  ⟨h'.lists.trans h.lists, h'.settings.trans h.settings, h'.stats.trans h.stats⟩

theorem replaceDomain {name : String} {listId : Int} (h : ∃ l ∈ a.domainLists, l.id = listId) :
    SameButDomains a (a.replaceDomain name listId h) := ⟨rfl, rfl, rfl⟩

theorem insertDomain {name : String} {listId : Int} (h : ∃ l ∈ a.domainLists, l.id = listId) :
    SameButDomains a (a.insertDomain name listId h) := ⟨rfl, rfl, rfl⟩

theorem filterDomains (p : DomainRow → Bool) : SameButDomains a (a.filterDomains p) :=
  ⟨rfl, rfl, rfl⟩

/-- A name that keeps its owner keeps being whitelisted or not. -/
theorem isWhitelisted_iff (h : SameButDomains a b) {m : String} (howner : b.owner m = a.owner m) :
    b.IsWhitelisted m ↔ a.IsWhitelisted m := by
  unfold IsWhitelisted
  rw [h.lists, howner]

end SameButDomains

end Db

namespace Stmt

variable (now : Int) {db : Db}

/-- The statements of an import: every name goes to the list, whoever owned it. -/
theorem runAll_insertOrReplace (names : List String) {listId : Int}
    (h : ∃ l ∈ db.domainLists, l.id = listId) :
    ∃ db', runAll now (names.map (insertOrReplaceDomain · listId)) db = .ok db' ∧
      Db.SameButDomains db db' ∧
      ∀ m, db'.owner m = if m ∈ names then some listId else db.owner m := by
  induction names generalizing db with
  | nil => exact ⟨db, rfl, .refl db, fun m => by simp⟩
  | cons name names ih =>
    have hrun : (insertOrReplaceDomain name listId).run now db =
        .ok (db.replaceDomain name listId h) := dif_pos h
    have h' : ∃ l ∈ (db.replaceDomain name listId h).domainLists, l.id = listId := h
    obtain ⟨db', hall, hsame, howner⟩ := ih h'
    refine ⟨db', ?_, (Db.SameButDomains.replaceDomain h).trans hsame, ?_⟩
    · rw [List.map_cons, runAll_cons, hrun]
      exact hall
    · intro m
      rw [howner m, Db.replaceDomain_owner]
      by_cases hm : m ∈ names
      · simp [hm]
      · by_cases hn : name = m
        · simp [hn]
        · simp [hm, hn, Ne.symm hn]

/-- Without the list the first of them raises. -/
theorem runAll_insertOrReplace_error {names : List String} {listId : Int} (hnames : names ≠ [])
    (h : ¬ ∃ l ∈ db.domainLists, l.id = listId) (rest : List Stmt) :
    runAll now (names.map (insertOrReplaceDomain · listId) ++ rest) db = .error .foreignKey := by
  cases names with
  | nil => exact absurd rfl hnames
  | cons name names =>
    have hrun : (insertOrReplaceDomain name listId).run now db = .error .foreignKey := dif_neg h
    rw [List.map_cons, List.cons_append, runAll_cons, hrun]
    rfl

/-- The statements of unblocking. -/
theorem runAll_whitelist (names : List String) {l : DomainListRow}
    (h : db.listNamed "WHITELIST" = some l) :
    ∃ db', runAll now (names.map insertOrReplaceWhitelisted) db = .ok db' ∧
      Db.SameButDomains db db' ∧ ∀ m, db'.owner m = if m ∈ names then some l.id else db.owner m := by
  have hl : ∃ k ∈ db.domainLists, k.id = l.id := ⟨l, (Db.listNamed_eq_some.mp h).1, rfl⟩
  have heq : runAll now (names.map insertOrReplaceWhitelisted) db =
      runAll now (names.map (insertOrReplaceDomain · l.id)) db := by
    clear hl
    induction names generalizing db with
    | nil => rfl
    | cons name names ih =>
      have hl : ∃ k ∈ db.domainLists, k.id = l.id := ⟨l, (Db.listNamed_eq_some.mp h).1, rfl⟩
      have hw : (insertOrReplaceWhitelisted name).run now db =
          .ok (db.replaceDomain name l.id hl) := by
        simp only [run]
        split
        · simp_all
        · rename_i k hk
          rw [h, Option.some.injEq] at hk
          subst hk
          rfl
      have hr : (insertOrReplaceDomain name l.id).run now db =
          .ok (db.replaceDomain name l.id hl) := dif_pos hl
      rw [List.map_cons, List.map_cons, runAll_cons, runAll_cons, hw, hr]
      have h' : (db.replaceDomain name l.id hl).listNamed "WHITELIST" = some l := h
      exact ih h'
  rw [heq]
  exact runAll_insertOrReplace now names hl

theorem runAll_whitelist_error {names : List String} (hnames : names ≠ [])
    (h : db.listNamed "WHITELIST" = none) :
    runAll now (names.map insertOrReplaceWhitelisted) db = .error .notNull := by
  cases names with
  | nil => exact absurd rfl hnames
  | cons name names =>
    have hrun : (insertOrReplaceWhitelisted name).run now db = .error .notNull := by
      simp only [run]
      split
      · rfl
      · simp_all
    rw [List.map_cons, runAll_cons, hrun]
    rfl

theorem run_deleteUnlessWhitelisted (db : Db) (name : String) :
    ∃ db', (deleteUnlessWhitelisted name).run now db = .ok db' ∧ Db.SameButDomains db db' ∧
      ∀ m, db'.owner m = if m = name ∧ ¬ db.IsWhitelisted m then none else db.owner m := by
  refine ⟨_, rfl, .filterDomains _, ?_⟩
  intro m
  rw [Db.filterDomains_owner]
  by_cases hm : m = name
  · cases howner : db.owner m with
    | none => simp
    | some id =>
      by_cases hw : ∃ l ∈ db.domainLists, l.id = id ∧ l.isWhitelist = true
      · have hwhite : db.IsWhitelisted m := by
          obtain ⟨l, hl, hid, hflag⟩ := hw
          exact ⟨l, hl, hid ▸ howner, hflag⟩
        simp [Option.filter, hw, hwhite]
      · have hwhite : ¬ db.IsWhitelisted m := by
          rintro ⟨l, hl, hid, hflag⟩
          rw [howner, Option.some.injEq] at hid
          exact hw ⟨l, hl, hid.symm, hflag⟩
        simp [Option.filter, hm, hw, hm ▸ hwhite]
  · cases db.owner m <;> simp [Option.filter, hm]

/-- The deletes of blocking leave only the names that a whitelist owns. -/
theorem runAll_deleteUnlessWhitelisted (db : Db) (names : List String) :
    ∃ db', runAll now (names.map deleteUnlessWhitelisted) db = .ok db' ∧
      Db.SameButDomains db db' ∧
      ∀ m, db'.owner m = if m ∈ names ∧ ¬ db.IsWhitelisted m then none else db.owner m := by
  induction names generalizing db with
  | nil => exact ⟨db, rfl, .refl db, fun m => by simp⟩
  | cons name names ih =>
    obtain ⟨db₁, hrun, hsame₁, howner₁⟩ := run_deleteUnlessWhitelisted now db name
    obtain ⟨db', hall, hsame, howner⟩ := ih db₁
    refine ⟨db', ?_, hsame₁.trans hsame, ?_⟩
    · rw [List.map_cons, runAll_cons, hrun]
      exact hall
    · intro m
      rw [howner m, howner₁ m]
      by_cases hw : db.IsWhitelisted m
      · have hkeep : db₁.IsWhitelisted m := (hsame₁.isWhitelisted_iff (by simp [howner₁, hw])).mpr hw
        simp [hw, hkeep]
      · by_cases hm : m = name
        · simp [hm, hm ▸ hw]
        · have hnot : ¬ db₁.IsWhitelisted m := fun h =>
            hw ((hsame₁.isWhitelisted_iff (by simp [howner₁, hm])).mp h)
          simp [hm, hw, hnot]

private theorem runAll_insertOrIgnore (names : List String) {listId : Int}
    (h : ∃ l ∈ db.domainLists, l.id = listId) :
    ∃ db', runAll now (names.map (insertOrIgnoreDomain · listId)) db = .ok db' ∧
      Db.SameButDomains db db' ∧
      ∀ m, db'.owner m = (db.owner m).or (if m ∈ names then some listId else none) := by
  induction names generalizing db with
  | nil => exact ⟨db, rfl, .refl db, fun m => by simp⟩
  | cons name names ih =>
    by_cases htaken : name ∈ db.domains.map DomainRow.name
    · obtain ⟨db', hall, hsame, howner⟩ := ih h
      have hrun : (insertOrIgnoreDomain name listId).run now db = .ok db := if_pos htaken
      refine ⟨db', ?_, hsame, ?_⟩
      · rw [List.map_cons, runAll_cons, hrun]
        exact hall
      · intro m
        rw [howner m]
        by_cases hm : m = name
        · obtain ⟨id, hid⟩ := Option.isSome_iff_exists.mp (db.owner_isSome.mpr htaken)
          simp [hm, hid]
        · simp [hm]
    · have hrun : (insertOrIgnoreDomain name listId).run now db =
          .ok (db.insertDomain name listId h) := by
        simp only [run, if_neg htaken]
        exact dif_pos h
      have h' : ∃ l ∈ (db.insertDomain name listId h).domainLists, l.id = listId := h
      obtain ⟨db', hall, hsame, howner⟩ := ih h'
      refine ⟨db', ?_, (Db.SameButDomains.insertDomain h).trans hsame, ?_⟩
      · rw [List.map_cons, runAll_cons, hrun]
        exact hall
      · intro m
        rw [howner m, Db.insertDomain_owner]
        by_cases hm : name = m
        · simp [hm]
        · simp [hm, Ne.symm hm]

/-- Without the list they raise at a name that has no owner. -/
theorem runAll_insertOrIgnore_error {names : List String} {listId : Int} {name : String}
    (h : ¬ ∃ l ∈ db.domainLists, l.id = listId) (hin : name ∈ names) (hfree : db.owner name = none) :
    runAll now (names.map (insertOrIgnoreDomain · listId)) db = .error .foreignKey := by
  induction names with
  | nil => cases hin
  | cons n ns ih =>
    rw [List.map_cons, runAll_cons]
    by_cases htaken : n ∈ db.domains.map DomainRow.name
    · have hrun : (insertOrIgnoreDomain n listId).run now db = .ok db := if_pos htaken
      have hne : name ≠ n := by
        intro heq
        have howned := db.owner_isSome.mpr htaken
        rw [← heq, hfree] at howned
        cases howned
      rw [hrun]
      exact ih ((List.mem_cons.mp hin).resolve_left hne)
    · have hrun : (insertOrIgnoreDomain n listId).run now db = .error .foreignKey := by
        simp only [run, if_neg htaken]
        exact dif_neg h
      rw [hrun]
      rfl

/-- The statements of blocking: a name keeps its owner if that is a whitelist. -/
theorem runAll_block (names : List String) {listId : Int}
    (h : ∃ l ∈ db.domainLists, l.id = listId) :
    ∃ db', runAll now
        (names.map deleteUnlessWhitelisted ++ names.map (insertOrIgnoreDomain · listId)) db = .ok db' ∧
      Db.SameButDomains db db' ∧
      ∀ m, db'.owner m = if m ∈ names ∧ ¬ db.IsWhitelisted m then some listId else db.owner m := by
  obtain ⟨db₁, hdel, hsame₁, howner₁⟩ :=
    runAll_deleteUnlessWhitelisted now db names
  obtain ⟨db', hins, hsame, howner⟩ :=
    runAll_insertOrIgnore now names (hsame₁.lists ▸ h : ∃ l ∈ db₁.domainLists, l.id = listId)
  refine ⟨db', ?_, hsame₁.trans hsame, ?_⟩
  · rw [runAll_append, hdel]
    exact hins
  · intro m
    rw [howner m, howner₁ m]
    by_cases hm : m ∈ names
    · by_cases hw : db.IsWhitelisted m
      · obtain ⟨l, _, hl, _⟩ := id hw
        simp [hw, hl]
      · simp [hm, hw]
    · simp [hm]

end Stmt

/-! ## The owner of a name -/

/-- A list with `P` owns the name. -/
def Db.OwnedBy (P : DomainListRow → Prop) (domain : String) (db : Db) : Prop :=
  ∃ l ∈ db.domainLists, P l ∧ db.owner domain = some l.id

/-- A property of the columns of a list that no statement changes. -/
def DomainListRow.Fixed (P : DomainListRow → Prop) : Prop :=
  ∀ l l' : DomainListRow, l'.id = l.id → l'.name = l.name → l'.isWhitelist = l.isWhitelist →
    P l → P l'

/-- The statements that leave the name with the list that owns it. -/
def Stmt.Leaves (P : DomainListRow → Prop) (domain : String) : Stmt → Prop
  | .insertOrReplaceDomain name listId => name ≠ domain ∨ listId = 0 ∨ ∀ l, P l → l.id = listId
  | .insertOrReplaceWhitelisted name => name ≠ domain
  | .deleteUnlessWhitelisted name => name ≠ domain ∨ ∀ l, P l → l.isWhitelist = true
  | .deleteDomainList name => ∀ l, P l → l.name ≠ name
  | _ => True

theorem Db.OwnedBy.updateLists {P : DomainListRow → Prop} (hP : DomainListRow.Fixed P)
    {domain : String} {db : Db} (h : db.OwnedBy P domain) {f : DomainListRow → DomainListRow}
    (hid : ∀ l, (f l).id = l.id) (hname : ∀ l, (f l).name = l.name)
    (hflag : ∀ l, (f l).isWhitelist = l.isWhitelist) :
    (db.updateLists f hid hname).OwnedBy P domain := by
  obtain ⟨l, hl, hPl, howner⟩ := h
  exact ⟨f l, List.mem_map.mpr ⟨l, hl, rfl⟩, hP l _ (hid l) (hname l) (hflag l) hPl,
    howner.trans (hid l ▸ rfl)⟩

theorem Stmt.Leaves.ownedBy {P : DomainListRow → Prop} (hP : DomainListRow.Fixed P)
    {domain : String} {st : Stmt} (hst : st.Leaves P domain) {now : Int} {db db' : Db}
    (h : db.OwnedBy P domain) (hrun : st.run now db = .ok db') : db'.OwnedBy P domain := by
  obtain ⟨l, hl, hPl, howner⟩ := id h
  have happended {name url description : String} {custom isWhitelist : Bool}
      (hfree : name ∉ db.domainLists.map DomainListRow.name) :
      (db.appendList name url description custom isWhitelist hfree).OwnedBy P domain :=
    ⟨l, List.mem_append_left _ hl, hPl, howner⟩
  cases st with
  | createTable =>
    cases hrun
    exact h
  | seedDomainList name description isWhitelist =>
    simp only [Stmt.run] at hrun
    split_ifs at hrun with htaken
    cases hrun
    exact happended htaken
  | insertOrIgnoreDomainList name url description custom =>
    cases hrun
    unfold Db.ensureList
    split_ifs with htaken
    · exact h
    · exact happended htaken
  | insertOrReplaceDomain name listId =>
    simp only [Stmt.run] at hrun
    split_ifs at hrun with hid
    cases hrun
    refine ⟨l, hl, hPl, ?_⟩
    rw [Db.replaceDomain_owner]
    split_ifs with hname
    · -- the name is replaced by itself: id 0 is no list
      rcases hst with hne | rfl | hsame
      · exact absurd hname hne
      · obtain ⟨k, hk, hk0⟩ := hid
        have := db.list_id_pos k hk
        omega
      · rw [hsame l hPl]
    · exact howner
  | updateMtime id =>
    cases hrun
    exact h.updateLists hP _ _ fun k => by split <;> rfl
  | deleteDomainList name =>
    cases hrun
    have hkept : l.name ≠ name := hst l hPl
    refine ⟨l, List.mem_filter.mpr ⟨hl, by simpa using hkept⟩, hPl, ?_⟩
    rw [Db.deleteList_owner, howner, Option.filter_some, if_pos]
    exact decide_eq_true ⟨l, hl, rfl, hkept⟩
  | setActive active name =>
    cases hrun
    exact h.updateLists hP _ _ fun k => by split <;> rfl
  | deleteUnlessWhitelisted name =>
    obtain ⟨db₁, hrun₁, hsame, howners⟩ := Stmt.run_deleteUnlessWhitelisted now db name
    obtain rfl : db₁ = db' := Except.ok.inj (hrun₁.symm.trans hrun)
    have hkept : ¬ (domain = name ∧ ¬ db.IsWhitelisted domain) := by
      rintro ⟨rfl, hnot⟩
      rcases hst with hne | hflag
      · exact hne rfl
      · exact hnot ⟨l, hl, howner, hflag l hPl⟩
    exact ⟨l, hsame.lists ▸ hl, hPl, by rw [howners, if_neg hkept, howner]⟩
  | insertOrIgnoreDomain name listId =>
    simp only [Stmt.run] at hrun
    split_ifs at hrun with htaken hid
    · cases hrun
      exact h
    · cases hrun
      exact ⟨l, hl, hPl, by rw [Db.insertDomain_owner, howner]; rfl⟩
  | insertOrReplaceWhitelisted name =>
    simp only [Stmt.run] at hrun
    split at hrun
    · cases hrun
    · cases hrun
      exact ⟨l, hl, hPl, by rw [Db.replaceDomain_owner, if_neg hst, howner]⟩
  | _ =>
    cases hrun
    exact h

/-! ## The settings -/

namespace Stmt

/-- The statements that write the table `settings`. -/
def writesSettings : Stmt → Bool
  | .insertOrReplaceSetting _ _ | .deleteSetting _ => true
  | _ => false

theorem run_settings {now : Int} {st : Stmt} {db db' : Db} (hst : st.writesSettings = false)
    (hrun : st.run now db = .ok db') : db'.settings = db.settings := by
  cases st <;> simp only [run] at hrun
  case insertOrReplaceSetting | deleteSetting => cases hst
  case insertOrIgnoreDomainList =>
    cases hrun
    exact db.ensureList_settings
  case insertOrReplaceWhitelisted =>
    split at hrun <;> cases hrun
    rfl
  case seedDomainList | insertOrReplaceDomain | insertOrIgnoreDomain =>
    split_ifs at hrun <;> cases hrun <;> rfl
  all_goals
    cases hrun
    rfl

end Stmt

end DblService
