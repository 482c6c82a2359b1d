import DblService.Framework.UniqueKey
import Mathlib.Tactic.SplitIfs

/-!
# The tables

The four tables of the service database as `DDL` declares them.  A `Db` carries
what the schema enforces (unique names, primary keys, the foreign key of
`domains`), so a content that breaks a constraint cannot be built.  List ids are
handed out from 1 upwards by the integer primary key.

A `std::string` is a sequence of bytes; here it is a `String` with one character
for each byte, so `length` is `String.length` and comparison is bytewise.
-/

namespace DblService

open Framework

structure Setting where
  name : String
  value : String
  deriving DecidableEq, Repr

/-- A row of `domain_lists`; every write of a BOOLEAN column binds `int(bool)`. -/
structure DomainListRow where
  id : Int
  name : String
  url : String
  description : String
  active : Bool
  custom : Bool
  isWhitelist : Bool
  mtime : Int
  deriving DecidableEq, Repr

/-- A row of `domains`: one owner for each name. -/
structure DomainRow where
  name : String
  listId : Int
  deriving DecidableEq, Repr

structure StatsRow where
  name : String
  hits : Int
  deriving DecidableEq, Repr

structure Db where
  settings : List Setting
  domainLists : List DomainListRow
  domains : List DomainRow
  statsDomains : List StatsRow
  settings_unique : UniqueKey Setting.name settings
  list_id_unique : UniqueKey DomainListRow.id domainLists
  list_name_unique : UniqueKey DomainListRow.name domainLists
  list_id_pos : ∀ l ∈ domainLists, 0 < l.id
  domain_unique : UniqueKey DomainRow.name domains
  foreign_key : ∀ d ∈ domains, ∃ l ∈ domainLists, l.id = d.listId
  stats_unique : UniqueKey StatsRow.name statsDomains

namespace Db

@[ext] theorem ext {a b : Db} (hs : a.settings = b.settings) (hl : a.domainLists = b.domainLists)
    (hd : a.domains = b.domains) (ht : a.statsDomains = b.statsDomains) : a = b := by
  cases a
  cases b
  simp_all

instance : DecidableEq Db := fun a b =>
  decidable_of_iff
    (a.settings = b.settings ∧ a.domainLists = b.domainLists ∧ a.domains = b.domains ∧
      a.statsDomains = b.statsDomains)
    ⟨fun ⟨hs, hl, hd, ht⟩ => Db.ext hs hl hd ht, by rintro rfl; exact ⟨rfl, rfl, rfl, rfl⟩⟩

/-- The database file before the first `DB::init`. -/
def empty : Db where
  settings := []
  domainLists := []
  domains := []
  statsDomains := []
  settings_unique := List.nodup_nil
  list_id_unique := List.nodup_nil
  list_name_unique := List.nodup_nil
  list_id_pos := nofun
  domain_unique := List.nodup_nil
  foreign_key := nofun
  stats_unique := List.nodup_nil

def listNamed (db : Db) (name : String) : Option DomainListRow :=
  lookup DomainListRow.name name db.domainLists

def listWithId (db : Db) (id : Int) : Option DomainListRow :=
  lookup DomainListRow.id id db.domainLists

def owner (db : Db) (name : String) : Option Int :=
  (lookup DomainRow.name name db.domains).map DomainRow.listId

def setting (db : Db) (name : String) : Option String :=
  (lookup Setting.name name db.settings).map Setting.value

theorem listNamed_eq_some {db : Db} {name : String} {l : DomainListRow} :
    db.listNamed name = some l ↔ l ∈ db.domainLists ∧ l.name = name :=
  lookup_eq_some_iff db.list_name_unique

theorem listWithId_eq_some {db : Db} {id : Int} {l : DomainListRow} :
    db.listWithId id = some l ↔ l ∈ db.domainLists ∧ l.id = id :=
  lookup_eq_some_iff db.list_id_unique

theorem owner_eq_some {db : Db} {name : String} {id : Int} :
    db.owner name = some id ↔ ⟨name, id⟩ ∈ db.domains := by
  unfold owner
  rw [Option.map_eq_some_iff]
  constructor
  · rintro ⟨d, hd, rfl⟩
    obtain ⟨hm, rfl⟩ := (lookup_eq_some_iff db.domain_unique).mp hd
    exact hm
  · intro hm
    exact ⟨⟨name, id⟩, (lookup_eq_some_iff db.domain_unique).mpr ⟨hm, rfl⟩, rfl⟩

theorem owner_exists {db : Db} {name : String} {id : Int} (h : db.owner name = some id) :
    ∃ l ∈ db.domainLists, l.id = id :=
  db.foreign_key _ (owner_eq_some.mp h)

/-- No list has the id that stands for a failure. -/
theorem no_list_zero (db : Db) : ¬ ∃ l ∈ db.domainLists, l.id = 0 := by
  rintro ⟨l, hl, hid⟩
  have := db.list_id_pos l hl
  omega

theorem list_id_inj {db : Db} {l m : DomainListRow} (hl : l ∈ db.domainLists)
    (hm : m ∈ db.domainLists) (h : l.id = m.id) : l = m :=
  db.list_id_unique.eq_of_mem hl hm h

theorem list_name_inj {db : Db} {l m : DomainListRow} (hl : l ∈ db.domainLists)
    (hm : m ∈ db.domainLists) (h : l.name = m.name) : l = m :=
  db.list_name_unique.eq_of_mem hl hm h

end Db

end DblService
