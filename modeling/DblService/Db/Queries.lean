import DblService.Types
import Mathlib.Data.List.Sort

/-!
# The statements that read

The queries of `dml::queries` and of the managers, as the rows they return.
A join is the pairs of rows that satisfy its condition, the left table outermost.
-/

namespace DblService

open Framework

inductive Query
  | countDomainLists
  | getDomainLists
  | getDomainListByName (name : String)
  | getDomains (listId : Int)  -- `get_domains`, for one list unless the id is 0, ordered by name
  | getDomainByName (name : String)
  | getBlockedDomains
  | getAllWhitelistedDomains
  | getSetting (name : String)
  | countActiveLists
  | countBlocked
  deriving DecidableEq, Repr

/-- What a row of the result is read into. -/
@[reducible] def Query.Row : Query → Type
  | .countDomainLists | .countActiveLists | .countBlocked => Int
  | .getDomainLists | .getDomainListByName _ => DomainList
  | .getDomains _ | .getDomainByName _ | .getBlockedDomains | .getAllWhitelistedDomains => Domain
  | .getSetting _ => String

def DomainList.fromRow (l : DomainListRow) : DomainList :=
  { id := l.id, name := l.name, url := l.url, description := some l.description,
    active := if l.active then 1 else 0, custom := if l.custom then 1 else 0, mtime := l.mtime }

def Domain.fromRow (d : DomainRow) (l : DomainListRow) : Domain :=
  { name := d.name, listId := d.listId, listName := some l.name }

namespace Db

/-- `domains d JOIN domain_lists dl ON dl.id = d.list_id AND on`. -/
def joinLists (db : Db) (on : DomainListRow → Bool) : List Domain :=
  db.domains.flatMap fun d =>
    (db.domainLists.filter fun l => decide (l.id = d.listId) && on l).map (Domain.fromRow d)

def orderByName (domains : List Domain) : List Domain :=
  domains.insertionSort fun a b => a.name ≤ b.name

/-- `domains d LEFT JOIN domain_lists dl ON dl.is_whitelist = 0 AND dl.id = d.list_id`. -/
def leftJoinBlocking (db : Db) : List (DomainRow × Option DomainListRow) :=
  db.domains.flatMap fun d =>
    match db.domainLists.filter fun l => !l.isWhitelist && decide (l.id = d.listId) with
    | [] => [(d, none)]
    | ls => ls.map fun l => (d, some l)

end Db

def Query.rows (db : Db) : (q : Query) → List q.Row
  | .countDomainLists => [(db.domainLists.length : Int)]
  | .getDomainLists => db.domainLists.map DomainList.fromRow
  | .getDomainListByName name =>
    (db.domainLists.filter fun l => l.name = name).map DomainList.fromRow
  | .getDomains listId =>
    let rows := db.joinLists fun l => l.active
    Db.orderByName (if listId = 0 then rows else rows.filter fun d => d.listId = listId)
  | .getDomainByName name => (db.joinLists fun l => l.active).filter fun d => d.name = name
  | .getBlockedDomains => Db.orderByName (db.joinLists fun l => l.active && !l.isWhitelist)
  | .getAllWhitelistedDomains => db.joinLists fun l => l.active && l.isWhitelist
  | .getSetting name => (db.settings.filter fun s => s.name = name).map Setting.value
  | .countActiveLists => [((db.domainLists.filter fun l => l.active).length : Int)]
  | .countBlocked => [(db.leftJoinBlocking.length : Int)]

namespace Db

theorem mem_orderByName {domains : List Domain} {d : Domain} :
    d ∈ orderByName domains ↔ d ∈ domains := List.mem_insertionSort _

/-- A join row is a domain with the list that owns it. -/
theorem mem_joinLists {db : Db} {on : DomainListRow → Bool} {d : Domain} :
    d ∈ db.joinLists on ↔ ∃ l ∈ db.domainLists, on l = true ∧ db.owner d.name = some l.id ∧
      d = { name := d.name, listId := l.id, listName := some l.name } := by
  simp only [joinLists, List.mem_flatMap, List.mem_map, List.mem_filter, Bool.and_eq_true,
    decide_eq_true_eq]
  constructor
  · rintro ⟨r, hr, l, ⟨hl, hid, hon⟩, rfl⟩
    refine ⟨l, hl, hon, ?_, ?_⟩
    · exact owner_eq_some.mpr (hid ▸ hr)
    · simp [Domain.fromRow, hid]
  · rintro ⟨l, hl, hon, howner, hd⟩
    refine ⟨⟨d.name, l.id⟩, owner_eq_some.mp howner, l, ⟨hl, rfl, hon⟩, ?_⟩
    rw [hd]
    rfl

private theorem mem_joinLists_names {db : Db} {on : DomainListRow → Bool} {name : String} :
    name ∈ (db.joinLists on).map Domain.name ↔
      ∃ l ∈ db.domainLists, on l = true ∧ db.owner name = some l.id := by
  simp only [List.mem_map, mem_joinLists]
  constructor
  · rintro ⟨d, ⟨l, hl, hon, howner, _⟩, rfl⟩
    exact ⟨l, hl, hon, howner⟩
  · rintro ⟨l, hl, hon, howner⟩
    exact ⟨{ name, listId := l.id, listName := some l.name }, ⟨l, hl, hon, howner, rfl⟩, rfl⟩

/-- A join has no name twice. -/
theorem joinLists_names_nodup (db : Db) (on : DomainListRow → Bool) :
    ((db.joinLists on).map Domain.name).Nodup := by
  have hnames : (db.joinLists on).map Domain.name =
      (db.domains.filter fun d => ((db.listWithId d.listId).filter on).isSome).map
        DomainRow.name := by
    unfold joinLists
    induction db.domains with
    | nil => rfl
    | cons d ds ih =>
      rw [List.flatMap_cons, List.map_append, ih, db.list_id_unique.filter_key on d.listId]
      rw [List.filter_cons, listWithId]
      cases (lookup DomainListRow.id d.listId db.domainLists).filter on <;> rfl
  rw [hnames]
  exact List.Nodup.sublist (List.filter_sublist.map _) db.domain_unique

/-- What `get_domains` returns for all lists: the names that an active list owns, once. -/
theorem mem_getDomains_names {db : Db} {name : String} :
    name ∈ ((Query.getDomains 0).rows db).map Domain.name ↔
      ∃ l ∈ db.domainLists, l.active = true ∧ db.owner name = some l.id := by
  rw [← mem_joinLists_names]
  exact ((List.perm_insertionSort _ _).map _).mem_iff

theorem getDomains_names_nodup (db : Db) :
    (((Query.getDomains 0).rows db).map Domain.name).Nodup :=
  ((List.perm_insertionSort _ _).map _).nodup_iff.mpr (db.joinLists_names_nodup _)

/-- The names that are blocked: an active list owns them that is no whitelist. -/
theorem mem_getBlocked_names {db : Db} {name : String} :
    name ∈ (Query.getBlockedDomains.rows db).map Domain.name ↔
      ∃ l ∈ db.domainLists, (l.active = true ∧ l.isWhitelist = false) ∧
        db.owner name = some l.id := by
  have hperm : List.Perm ((Query.getBlockedDomains.rows db).map Domain.name)
      ((db.joinLists fun l => l.active && !l.isWhitelist).map Domain.name) :=
    (List.perm_insertionSort _ _).map _
  rw [hperm.mem_iff, mem_joinLists_names]
  simp only [Bool.and_eq_true, Bool.not_eq_true']

theorem mem_getWhitelisted_names {db : Db} {name : String} :
    name ∈ (Query.getAllWhitelistedDomains.rows db).map Domain.name ↔
      ∃ l ∈ db.domainLists, (l.active = true ∧ l.isWhitelist = true) ∧
        db.owner name = some l.id := by
  change name ∈ (db.joinLists fun l => l.active && l.isWhitelist).map Domain.name ↔ _
  rw [mem_joinLists_names]
  simp only [Bool.and_eq_true]

end Db

end DblService
