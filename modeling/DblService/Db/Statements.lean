import DblService.Db.Schema
import Mathlib.Algebra.Order.Group.Int
import Mathlib.Tactic.Basic

/-!
# The statements that write

One constructor for each SQL text of the repository that changes a table, with
the content it leaves or the constraint it fails on.  A failed statement changes
nothing.
-/

namespace DblService

open Framework

inductive SqlError
  | busy  -- the database is locked or cannot be read
  | notNull
  | foreignKey
  | unique
  | nestedTransaction  -- `BEGIN` within a transaction
  | noTransaction  -- `COMMIT` outside a transaction
  deriving DecidableEq, Repr

inductive Stmt
  | createTable
  | seedDomainList (name description : String) (isWhitelist : Bool)
  | insertOrIgnoreDomainList (name url description : String) (custom : Bool)
  | insertOrReplaceDomain (name : String) (listId : Int)
  | updateMtime (id : Int)
  | deleteDomainList (name : String)
  | setActive (active : Bool) (name : String)
  | deleteUnlessWhitelisted (name : String)
  | insertOrIgnoreDomain (name : String) (listId : Int)
  | insertOrReplaceWhitelisted (name : String)
  | insertOrReplaceSetting (name value : String)
  | deleteSetting (name : String)
  | insertOrIgnoreStats (name : String)
  | incrementHits (name : String)
  deriving DecidableEq, Repr

namespace Db

/-- The id the integer primary key gives to the next list. -/
def nextListId (db : Db) : Int := (db.domainLists.map DomainListRow.id).foldr max 0 + 1

theorem id_lt_nextListId {db : Db} {l : DomainListRow} (hl : l ∈ db.domainLists) :
    l.id < db.nextListId := by
  unfold nextListId
  generalize db.domainLists = rows at hl
  induction rows with
  | nil => cases hl
  | cons x xs ih =>
    simp only [List.map_cons, List.foldr_cons]
    rcases List.mem_cons.mp hl with rfl | h
    · omega
    · have := ih h
      omega

private theorem nextListId_pos (db : Db) : 0 < db.nextListId := by
  unfold nextListId
  generalize db.domainLists = rows
  induction rows with
  | nil => decide
  | cons x xs ih =>
    simp only [List.map_cons, List.foldr_cons]
    omega

def newList (db : Db) (name url description : String) (custom isWhitelist : Bool) :
    DomainListRow :=
  { id := db.nextListId, name, url, description, active := true, custom, isWhitelist, mtime := 0 }

def appendList (db : Db) (name url description : String) (custom isWhitelist : Bool)
    (h : name ∉ db.domainLists.map DomainListRow.name) : Db :=
  { db with
    domainLists := db.domainLists ++ [db.newList name url description custom isWhitelist]
    list_id_unique := db.list_id_unique.append_singleton (by
      intro hm
      obtain ⟨l, hl, hid⟩ := List.mem_map.mp hm
      have := id_lt_nextListId hl
      simp only [newList] at hid
      omega)
    list_name_unique := db.list_name_unique.append_singleton h
    list_id_pos := by
      intro l hl
      rcases List.mem_append.mp hl with hl | hl
      · exact db.list_id_pos l hl
      · rw [List.mem_singleton.mp hl]
        exact db.nextListId_pos
    foreign_key := by
      intro d hd
      obtain ⟨l, hl, hid⟩ := db.foreign_key d hd
      exact ⟨l, List.mem_append_left _ hl, hid⟩ }

def ensureList (db : Db) (name url description : String) (custom : Bool) : Db :=
  if h : name ∈ db.domainLists.map DomainListRow.name then db
  else db.appendList name url description custom false h

def replaceDomain (db : Db) (name : String) (listId : Int)
    (h : ∃ l ∈ db.domainLists, l.id = listId) : Db :=
  { db with
    domains := insertOrReplace DomainRow.name ⟨name, listId⟩ db.domains
    domain_unique := db.domain_unique.insertOrReplace _
    foreign_key := by
      intro d hd
      rcases mem_insertOrReplace.mp hd with ⟨hd, _⟩ | rfl
      · exact db.foreign_key d hd
      · exact h }

def insertDomain (db : Db) (name : String) (listId : Int)
    (h : ∃ l ∈ db.domainLists, l.id = listId) : Db :=
  { db with
    domains := insertOrIgnore DomainRow.name ⟨name, listId⟩ db.domains
    domain_unique := db.domain_unique.insertOrIgnore _
    foreign_key := by
      intro d hd
      rcases mem_insertOrIgnore.mp hd with hd | ⟨rfl, _⟩
      · exact db.foreign_key d hd
      · exact h }

def filterDomains (db : Db) (p : DomainRow → Bool) : Db :=
  { db with
    domains := db.domains.filter p
    domain_unique := db.domain_unique.filter p
    foreign_key := fun d hd => db.foreign_key d (List.mem_of_mem_filter hd) }

/-- Change the columns of lists other than `id` and `name`. -/
def updateLists (db : Db) (f : DomainListRow → DomainListRow) (hid : ∀ l, (f l).id = l.id)
    (hname : ∀ l, (f l).name = l.name) : Db :=
  { db with
    domainLists := db.domainLists.map f
    list_id_unique := db.list_id_unique.map hid
    list_name_unique := db.list_name_unique.map hname
    list_id_pos := by
      intro l hl
      obtain ⟨m, hm, rfl⟩ := List.mem_map.mp hl
      exact (hid m).symm ▸ db.list_id_pos m hm
    foreign_key := by
      intro d hd
      obtain ⟨l, hl, h⟩ := db.foreign_key d hd
      exact ⟨f l, List.mem_map.mpr ⟨l, hl, rfl⟩, (hid l).trans h⟩ }

def touchList (db : Db) (id now : Int) : Db :=
  db.updateLists (fun l => if l.id = id then { l with mtime := now } else l)
    (fun l => by split <;> rfl) (fun l => by split <;> rfl)

def activateList (db : Db) (active : Bool) (name : String) : Db :=
  db.updateLists (fun l => if l.name = name then { l with active } else l)
    (fun l => by split <;> rfl) (fun l => by split <;> rfl)

/-- Delete a list; `ON DELETE CASCADE` deletes the names it owns. -/
def deleteList (db : Db) (name : String) : Db :=
  { db with
    domainLists := db.domainLists.filter fun l => l.name ≠ name
    list_id_unique := db.list_id_unique.filter _
    list_name_unique := db.list_name_unique.filter _
    list_id_pos := fun l hl => db.list_id_pos l (List.mem_of_mem_filter hl)
    domains := db.domains.filter fun d =>
      decide (∃ l ∈ db.domainLists, l.id = d.listId ∧ l.name ≠ name)
    domain_unique := db.domain_unique.filter _
    foreign_key := by
      intro d hd
      obtain ⟨l, hl, hid, hn⟩ := of_decide_eq_true (List.mem_filter.mp hd).2
      exact ⟨l, List.mem_filter.mpr ⟨hl, by simpa using hn⟩, hid⟩ }

def IsWhitelisted (db : Db) (name : String) : Prop :=
  ∃ l ∈ db.domainLists, db.owner name = some l.id ∧ l.isWhitelist = true

instance (db : Db) (name : String) : Decidable (db.IsWhitelisted name) :=
  inferInstanceAs (Decidable (∃ l ∈ db.domainLists, _))

end Db

/-- The content a statement leaves; `now` is what `strftime('%s','now')` reads. -/
def Stmt.run (now : Int) (db : Db) : Stmt → Except SqlError Db
  | .createTable => .ok db
  | .seedDomainList name description isWhitelist =>
    if h : name ∈ db.domainLists.map DomainListRow.name then .error .unique
    else .ok (db.appendList name "" description true isWhitelist h)
  | .insertOrIgnoreDomainList name url description custom =>
    .ok (db.ensureList name url description custom)
  | .insertOrReplaceDomain name listId =>
    if h : ∃ l ∈ db.domainLists, l.id = listId then .ok (db.replaceDomain name listId h)
    else .error .foreignKey
  | .updateMtime id => .ok (db.touchList id now)
  | .deleteDomainList name => .ok (db.deleteList name)
  | .setActive active name => .ok (db.activateList active name)
  | .deleteUnlessWhitelisted name =>
    .ok (db.filterDomains fun d => decide (d.name ≠ name) ||
      decide (∃ l ∈ db.domainLists, l.id = d.listId ∧ l.isWhitelist = true))
  | .insertOrIgnoreDomain name listId =>
    -- a taken name is skipped before the foreign key is looked at
    if name ∈ db.domains.map DomainRow.name then .ok db
    else if h : ∃ l ∈ db.domainLists, l.id = listId then .ok (db.insertDomain name listId h)
    else .error .foreignKey
  | .insertOrReplaceWhitelisted name =>
    match h : db.listNamed "WHITELIST" with
    | none => .error .notNull
    | some l => .ok (db.replaceDomain name l.id ⟨l, (Db.listNamed_eq_some.mp h).1, rfl⟩)
  | .insertOrReplaceSetting name value =>
    .ok { db with
      settings := insertOrReplace Setting.name ⟨name, value⟩ db.settings
      settings_unique := db.settings_unique.insertOrReplace _ }
  | .deleteSetting name =>
    .ok { db with
      settings := db.settings.filter fun s => s.name ≠ name
      settings_unique := db.settings_unique.filter _ }
  | .insertOrIgnoreStats name =>
    .ok { db with
      statsDomains := insertOrIgnore StatsRow.name ⟨name, 0⟩ db.statsDomains
      stats_unique := db.stats_unique.insertOrIgnore _ }
  | .incrementHits name =>
    .ok { db with
      statsDomains := db.statsDomains.map fun r =>
        if r.name = name then { r with hits := r.hits + 1 } else r
      stats_unique := db.stats_unique.map fun r => by split <;> rfl }

end DblService
