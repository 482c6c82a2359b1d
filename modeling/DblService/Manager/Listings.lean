import DblService.Manager.DomainManager

/-!
# The listings

The joins behind `get`, `get_blocked`, `get_whitelisted` and the count of the status
report.  A domain has one owner and an owner is one list, so a join is the domains whose
owner passes its test, each once, and the listings partition each other.
-/

namespace DblService

open Framework Session

namespace Db

def joinRow (db : Db) (on : DomainListRow → Bool) (d : DomainRow) : Option Domain :=
  ((db.listWithId d.listId).filter on).map (Domain.fromRow d)

private theorem joinLists_eq (db : Db) (on : DomainListRow → Bool) :
    db.joinLists on = db.domains.filterMap (db.joinRow on) := by
  unfold joinLists
  induction db.domains with
  | nil => rfl
  | cons d ds ih =>
    have hone : (db.domainLists.filter fun l => decide (l.id = d.listId) && on l).map
        (Domain.fromRow d) = (db.joinRow on d).toList := by
      rw [db.list_id_unique.filter_key on d.listId]
      unfold joinRow listWithId
      cases (lookup DomainListRow.id d.listId db.domainLists).filter on <;> rfl
    rw [List.flatMap_cons, hone, ih, List.filterMap_cons]
    cases db.joinRow on d <;> rfl

private theorem joinLists_perm_append (db : Db) {on on₁ on₂ : DomainListRow → Bool}
    (hor : ∀ l, on l = (on₁ l || on₂ l)) (hand : ∀ l, (on₁ l && on₂ l) = false) :
    (db.joinLists on).Perm (db.joinLists on₁ ++ db.joinLists on₂) := by
  simp only [joinLists_eq]
  induction db.domains with
  | nil => exact List.Perm.nil
  | cons d ds ih =>
    simp only [List.filterMap_cons, joinRow]
    cases hl : db.listWithId d.listId with
    | none => exact ih
    | some l =>
      have hsplit := hor l
      have honly := hand l
      cases h₁ : on₁ l with
      | true =>
        have h₂ : on₂ l = false := by simpa [h₁] using honly
        have hon : on l = true := by simp [hsplit, h₁]
        simp only [Option.filter_some, h₁, h₂, hon, if_true, Bool.false_eq_true, if_false,
          Option.map_some, Option.map_none, List.cons_append]
        exact ih.cons _
      | false =>
        cases h₂ : on₂ l with
        | true =>
          have hon : on l = true := by simp [hsplit, h₂]
          simp only [Option.filter_some, h₁, h₂, hon, if_true, Bool.false_eq_true, if_false,
            Option.map_some, Option.map_none]
          exact (ih.cons _).trans List.perm_middle.symm
        | false =>
          have hon : on l = false := by simp [hsplit, h₁, h₂]
          simp only [Option.filter_some, h₁, h₂, hon, Bool.false_eq_true, if_false,
            Option.map_none]
          exact ih

/-- The names of one list: nothing when it is switched off. -/
theorem rows_getDomains {db : Db} {l : DomainListRow} (hl : l ∈ db.domainLists) :
    (Query.getDomains l.id).rows db =
      orderByName ((db.joinLists fun k => k.active).filter fun d => d.listId = l.id) := by
  have hid : l.id ≠ 0 := by
    have := db.list_id_pos l hl
    omega
  simp only [Query.rows, if_neg hid]

theorem rows_getDomains_inactive {db : Db} {l : DomainListRow} (hl : l ∈ db.domainLists)
    (hoff : l.active = false) : (Query.getDomains l.id).rows db = [] := by
  have hnone : ((db.joinLists fun k => k.active).filter fun d => d.listId = l.id) = [] := by
    apply List.filter_eq_nil_iff.mpr
    intro d hd hid
    obtain ⟨k, hk, hactive, _, hrow⟩ := mem_joinLists.mp hd
    have hlist : d.listId = k.id := by rw [hrow]
    have hkl : k = l := list_id_inj hk hl (hlist.symm.trans (of_decide_eq_true hid))
    rw [hkl, hoff] at hactive
    cases hactive
  rw [rows_getDomains hl, hnone]
  rfl

private theorem getDomains_perm_append (db : Db) :
    ((Query.getDomains 0).rows db).Perm
      (Query.getBlockedDomains.rows db ++ Query.getAllWhitelistedDomains.rows db) := by
  have hsplit : (db.joinLists fun l => l.active).Perm
      ((db.joinLists fun l => l.active && !l.isWhitelist) ++
        db.joinLists fun l => l.active && l.isWhitelist) := by
    apply db.joinLists_perm_append
    · intro l
      cases l.active <;> cases l.isWhitelist <;> rfl
    · intro l
      cases l.active <;> cases l.isWhitelist <;> rfl
  have hall : ((Query.getDomains 0).rows db).Perm (db.joinLists fun l => l.active) :=
    List.perm_insertionSort _ _
  have hblocked : (Query.getBlockedDomains.rows db).Perm
      (db.joinLists fun l => l.active && !l.isWhitelist) := List.perm_insertionSort _ _
  exact (hall.trans hsplit).trans (hblocked.symm.append_right _)

private theorem getDomains_perm_flatMap (db : Db) :
    ((Query.getDomains 0).rows db).Perm
      ((db.domainLists.filter fun l => l.active).flatMap fun l =>
        (Query.getDomains l.id).rows db) := by
  have hgroups : (db.joinLists fun l => l.active).Perm
      ((db.domainLists.filter fun l => l.active).flatMap fun l =>
        (db.joinLists fun l => l.active).filter fun d => d.listId = l.id) := by
    apply perm_flatMap_filter (db.list_id_unique.filter _)
    intro d hd
    obtain ⟨l, hl, hactive, _, hrow⟩ := mem_joinLists.mp hd
    refine ⟨l, List.mem_filter.mpr ⟨hl, hactive⟩, ?_⟩
    rw [hrow]
  have hall : ((Query.getDomains 0).rows db).Perm (db.joinLists fun l => l.active) :=
    List.perm_insertionSort _ _
  refine (hall.trans hgroups).trans (List.Perm.flatMap_left _ ?_)
  intro l hl
  rw [rows_getDomains (List.mem_of_mem_filter hl)]
  exact (List.perm_insertionSort _ _).symm

end Db

/-! ## The listings of the managers -/

/-- The listing that an operation returns on a connection that is free. -/
def Connection.Lists (c : Connection) (p : Code (List Domain)) (rows : List Domain) : Prop :=
  (Store.free c).exec p = some (.ok rows, Store.free c)

/-- `get()` lists a name once, and is the disjoint union of `get_blocked()` and
`get_whitelisted()`, and of `get(id)` over the lists that are switched on; `get(id)` of a list
that is switched off is empty. -/
theorem listings_partition (c : Connection) :
    ∃ (all blocked whitelisted : List Domain) (part : DomainListRow → List Domain),
      c.Lists (DomainManager.get 0) all ∧ c.Lists DomainManager.getBlocked blocked ∧
      c.Lists DomainManager.getWhitelisted whitelisted ∧
      (∀ l, c.Lists (DomainManager.get l.id) (part l)) ∧
      (all.map Domain.name).Nodup ∧
      (all.map Domain.name).Perm (blocked.map Domain.name ++ whitelisted.map Domain.name) ∧
      (all.map Domain.name).Perm ((c.view.domainLists.filter fun l => l.active).flatMap fun l =>
        (part l).map Domain.name) ∧
      ∀ l ∈ c.view.domainLists, l.active = false → part l = [] := by
  refine ⟨_, _, _, fun l => (Query.getDomains l.id).rows c.view, Store.exec_collect_free c _,
    Store.exec_collect_free c _, Store.exec_collect_free c _,
    fun l => Store.exec_collect_free c _, Db.getDomains_names_nodup c.view, ?_, ?_,
    fun l hl hoff => Db.rows_getDomains_inactive hl hoff⟩
  · rw [← List.map_append]
    exact c.view.getDomains_perm_append.map _
  · have hperm := c.view.getDomains_perm_flatMap.map Domain.name
    rwa [List.map_flatMap] at hperm

/-! ## The count of the status report -/

namespace Db

private theorem leftJoinBlocking_length (db : Db) :
    db.leftJoinBlocking.length = db.domains.length := by
  unfold leftJoinBlocking
  induction db.domains with
  | nil => rfl
  | cons d ds ih =>
    have hone : (db.domainLists.filter fun l => !l.isWhitelist && decide (l.id = d.listId)) =
        ((db.listWithId d.listId).filter fun l => !l.isWhitelist).toList := by
      unfold listWithId
      rw [← db.list_id_unique.filter_key]
      apply List.filter_congr
      intro l _
      rw [Bool.and_comm]
    rw [List.flatMap_cons, List.length_append, ih, hone, List.length_cons]
    cases (db.listWithId d.listId).filter fun l => !l.isWhitelist with
    | none => simp [Nat.add_comm]
    | some l => simp [Nat.add_comm]

def Blocks (l : DomainListRow) : Prop := l.active = true ∧ l.isWhitelist = false

instance (l : DomainListRow) : Decidable (Blocks l) := inferInstanceAs (Decidable (_ ∧ _))

private theorem getBlocked_length_eq_iff (db : Db) :
    (Query.getBlockedDomains.rows db).length = db.domains.length ↔
      ∀ d ∈ db.domains, ∃ l ∈ db.domainLists, l.id = d.listId ∧ Blocks l := by
  have hlength : (Query.getBlockedDomains.rows db).length =
      (db.domains.filterMap (db.joinRow fun l => l.active && !l.isWhitelist)).length := by
    rw [← joinLists_eq]
    exact (List.perm_insertionSort _ _).length_eq
  rw [hlength, List.length_filterMap_eq_countP, List.countP_eq_length]
  apply forall₂_congr
  intro d hd
  obtain ⟨l, hl, hid⟩ := db.foreign_key d hd
  have hlist : db.listWithId d.listId = some l := listWithId_eq_some.mpr ⟨hl, hid⟩
  have hblocks : (db.joinRow (fun l => l.active && !l.isWhitelist) d).isSome ↔ Blocks l := by
    simp only [joinRow, hlist, Option.isSome_map, Option.filter_some, Blocks]
    cases l.active <;> cases l.isWhitelist <;> simp
  rw [hblocks]
  constructor
  · intro h
    exact ⟨l, hl, hid, h⟩
  · rintro ⟨k, hk, hkid, h⟩
    rwa [list_id_inj hl hk (hid.trans hkid.symm)]

end Db

/-- On an idle connection that is never found busy the count is the length of
`get_blocked()`, exactly when every domain belongs to a list that blocks. -/
theorem countBlocked_eq_iff (db : Db) (ambient : Ambient) (hquiet : ambient.Quiet 3) :
    ∃ (count : Int) (s' : Store) (blocked : List Domain),
      ({ conn := ⟨db, none⟩, ambient } : Store).exec DomainManager.countBlocked =
        some (.ok count, s') ∧ s'.conn = ⟨db, none⟩ ∧
      (⟨db, none⟩ : Connection).Lists DomainManager.getBlocked blocked ∧
      (count = blocked.length ↔
        ∀ d ∈ db.domains, ∃ l ∈ db.domainLists, l.id = d.listId ∧ Db.Blocks l) := by
  let s : Store := { conn := ⟨db, none⟩, ambient }
  have hcount := Store.exec_countRows_quiet (s := s) .countBlocked (fun rows => rows.headD 0) rfl rfl
    hquiet
  refine ⟨_, _, _, hcount, rfl, Store.exec_collect_free ⟨db, none⟩ _, ?_⟩
  change ((db.leftJoinBlocking.length : Int) = (Query.getBlockedDomains.rows db).length ↔ _)
  rw [← db.getBlocked_length_eq_iff, db.leftJoinBlocking_length, Int.natCast_inj]
  exact eq_comm

/-- One name of an enabled list. -/
theorem countBlocked_eq_blocked :
    let db := Db.seeded.replaceDomain "ads.example" 1 (by decide)
    ∃ (count : Int) (s' : Store) (blocked : List Domain),
      ({ conn := ⟨db, none⟩, ambient := {} } : Store).exec DomainManager.countBlocked =
        some (.ok count, s') ∧ s'.conn = ⟨db, none⟩ ∧
      (⟨db, none⟩ : Connection).Lists DomainManager.getBlocked blocked ∧
      count = blocked.length := by
  intro db
  obtain ⟨count, s', blocked, hrun, hconn, hlists, hiff⟩ := countBlocked_eq_iff db {} (by decide)
  exact ⟨count, s', blocked, hrun, hconn, hlists, hiff.mpr (by decide)⟩

/-- A whitelisted name is counted. -/
theorem countBlocked_unblocked :
    ∃ c : Connection, (Store.free ⟨Db.empty, none⟩).exec
        (do DB.init; DomainManager.unblockDomains (.ofTexts []) ["ads.example"]) =
          some (.ok true, Store.free c) ∧
      (Store.free c).exec DomainManager.countBlocked = some (.ok 1, Store.free c) ∧
      c.Lists DomainManager.getBlocked [] := by
  refine ⟨⟨Db.seeded.replaceDomain "ads.example" 2 (by decide), none⟩, ?_, ?_, ?_⟩
  · decide +kernel
  · decide +kernel
  · unfold Connection.Lists
    decide +kernel

end DblService
