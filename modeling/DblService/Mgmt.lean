import DblService.Client.Wire
import DblService.Manager.Listings
import DblService.Options

/-!
# The command line

`mgmt::Mgmt` runs one command of the command line.  What `export_list` prints can be read and
imported on another database.
-/

namespace DblService

open Framework Session

/-- `Options::get`: nothing for a name that no option has. -/
def Options.get (p : Options) (k : Kind) (key : String) : Option k.Value :=
  (Opt.ofName key).bind fun o =>
    if h : o.target.kind Field.kind = k then (p.vm.value o).map fun x => h ▸ x else none

structure MgmtOptions where
  addList : Bool := false
  deleteList : String := ""
  exportList : String := ""
  enableList : String := ""
  disableList : String := ""
  block : List String := []
  unblock : List String := []
  listName : String := ""
  listUrl : String := ""
  listDescription : String := ""
  isFatal : Bool := false
  -- no option has the name under which `export_list_` is read
  exportList_empty : exportList = "" := by rfl

private theorem Opt.ofName_exportList : ofName "export-list" = none := by decide +kernel

/-- `Mgmt::Mgmt`; the names of a new list are read later. -/
def MgmtOptions.of (p : Options) : MgmtOptions where
  addList := (p.get .flag "add-list").getD false
  deleteList := (p.get .string "delete-list").getD ""
  exportList := (p.get .string "export-list").getD ""
  enableList := (p.get .string "enable-list").getD ""
  disableList := (p.get .string "disable-list").getD ""
  block := (p.get .strings "block").getD []
  unblock := (p.get .strings "unblock").getD []
  listName := (p.get .string "list-name").getD ""
  listUrl := (p.get .string "list-url").getD ""
  listDescription := (p.get .string "list-description").getD ""
  isFatal := p.config .isFatal
  exportList_empty := by
    rw [Options.get, Opt.ofName_exportList]
    rfl

/-- What a command returns, and what it writes to the standard output and error streams. -/
structure Managed where
  done : Bool
  out : String := ""
  err : List String := []
  deriving DecidableEq

namespace Mgmt

def returning (p : Code Bool) : Code Managed := do
  let done ← p
  pure { done }

def addList (options : MgmtOptions) : Code Bool := do
  if options.listName = "" then
    throw (.runtime "Cannot add list, name missing")
  if options.listUrl = "" then
    throw (.runtime "Cannot add list, url missing")
  let listId ←
    DomainListManager.create options.listName options.listUrl options.listDescription false
  pure (decide (0 < listId))

def exportList (env : Env) (name : String) : Code Managed := do
  match ← DomainListManager.getByName name true with
  | some dl => pure { done := true, out := env.styled (dl.toJson .null) ++ "\n" }
  | none => pure { done := true }

/-- The names given both to block and to unblock are reported, or the first one is fatal. -/
def conflicts (options : MgmtOptions) : Except Exc (List String) :=
  (options.block.filter fun domain => decide (domain ∈ options.unblock)).mapM fun domain =>
    let msg := "Conflicting domain (will be blocked): " ++ domain
    if options.isFatal then throw (.runtime msg) else pure ("WARNING: " ++ msg)

def manageDomains (env : Env) (options : MgmtOptions) : Code Managed := do
  if options.unblock ≠ [] then
    let _ ← DomainManager.unblockDomains env options.unblock
  if options.block ≠ [] then
    let err ← conflicts options
    let _ ← DomainManager.blockDomains env options.block 0
    pure { done := true, err }
  else
    pure { done := true }

def manage (env : Env) (options : MgmtOptions) : Code Managed :=
  if options.addList then returning (addList options)
  else if options.deleteList ≠ "" then returning (DomainListManager.remove options.deleteList)
  else if options.enableList ≠ "" then
    returning (DomainListManager.setEnabled options.enableList true)
  else if options.disableList ≠ "" then
    returning (DomainListManager.setEnabled options.disableList false)
  else if options.exportList ≠ "" then exportList env options.exportList
  else if options.block ≠ [] ∨ options.unblock ≠ [] then manageDomains env options
  else pure { done := false }

end Mgmt

/-! ## The exported list -/

/-- The list that `get(name, true)` returns for a row. -/
def DomainListRow.exported (l : DomainListRow) (db : Db) : DomainList :=
  { DomainList.fromRow l with domains := (Query.getDomains l.id).rows db }

def DomainListRow.printed (l : DomainListRow) (env : Env) (db : Db) : String :=
  env.styled ((l.exported db).toJson .null) ++ "\n"

variable {l : DomainListRow}

theorem Store.exec_getListByName_exported (c : Connection) (hl : l ∈ c.view.domainLists) :
    (Store.free c).exec (DomainListManager.getByName l.name true) =
      some (.ok (some (l.exported c.view)), Store.free c) := by
  have hnamed : c.view.listNamed l.name = some l := Db.listNamed_eq_some.mpr ⟨hl, rfl⟩
  have hid : l.id ≠ 0 := by
    have := c.view.list_id_pos l hl
    omega
  have hrow : ((Query.getDomainListByName l.name).rows c.view).head? =
      some (DomainList.fromRow l) := by
    rw [Db.rows_getDomainListByName, hnamed]
    rfl
  rw [DomainListManager.getByName, exec_catchRuntime, exec_bind, exec_queryOne (.free c) _ rfl]
  change Option.bind (Option.bind (some (Except.ok
    ((Query.getDomainListByName l.name).rows c.view).head?, Store.free c)) _) _ = _
  rw [hrow]
  change Option.bind ((Store.free c).exec (if (decide (l.id ≠ 0) && true) = true
    then DomainManager.get l.id >>= _ else _)) _ = _
  rw [decide_eq_true hid, if_pos (by rfl), exec_bind, DomainManager.get, exec_collect_free c]
  rfl

theorem Mgmt.exec_exportList (env : Env) (c : Connection) (hl : l ∈ c.view.domainLists) :
    (Store.free c).exec (exportList env l.name) =
      some (.ok { done := true, out := l.printed env c.view }, Store.free c) := by
  rw [exportList, Store.exec_bind, Store.exec_getListByName_exported c hl]
  rfl

/-- The names that are printed: those the list owns, unless it is switched off. -/
theorem Db.mem_exported_names {db : Db} (hl : l ∈ db.domainLists) {name : String} :
    name ∈ (l.exported db).domains.map Domain.name ↔
      l.active = true ∧ db.owner name = some l.id := by
  change name ∈ ((Query.getDomains l.id).rows db).map Domain.name ↔ _
  cases hactive : l.active with
  | false => simp [rows_getDomains_inactive hl hactive]
  | true =>
    rw [rows_getDomains hl, List.mem_map]
    simp only [mem_orderByName, List.mem_filter, mem_joinLists, decide_eq_true_eq, true_and]
    constructor
    · rintro ⟨d, ⟨⟨k, _, _, howner, hrow⟩, hlist⟩, rfl⟩
      have hid : d.listId = k.id := by rw [hrow]
      rw [howner, ← hid, hlist]
    · intro howner
      exact ⟨{ name, listId := l.id, listName := some l.name }, ⟨⟨l, hl, hactive, howner, rfl⟩, rfl⟩,
        rfl⟩

/-! ## Importing it elsewhere -/

/-- The list on the second database is the list on the first: name, url, description and the
set of its names. -/
structure SameList (db : Db) (l : DomainListRow) (db' : Db) (l' : DomainListRow) : Prop where
  name : l'.name = l.name
  url : l'.url = l.url
  description : l'.description = l.description
  domains : ∀ domain, db'.owner domain = some l'.id ↔ db.owner domain = some l.id

namespace DomainListManager

private theorem Imported.of_free {lst : DomainList} {custom : Bool} {now : Int} {db db' : Db}
    {k : DomainListRow} (h : Imported lst custom now db db' k) (hname : lst.name ≠ "")
    (hfree : db.listNamed lst.name = none) :
    ∃ l', db'.listNamed lst.name = some l' ∧ l'.name = lst.name ∧ l'.url = lst.url ∧
      l'.description = lst.description.getD "" ∧
      ∀ domain, db'.owner domain = some l'.id ↔ domain ∈ lst.domains.map Domain.name := by
  have heffective : effectiveName lst.name = lst.name := if_neg hname
  have hk : k = db.newList lst.name lst.url (lst.description.getD "") custom false := by
    have htarget := h.target
    rw [ensured, Db.ensureList_listNamed, heffective, hfree, Option.none_or, if_pos rfl] at htarget
    exact (Option.some.inj htarget).symm
  have hmem : k ∈ (ensured lst custom db).domainLists := (Db.listNamed_eq_some.mp h.target).1
  have hrow : { k with mtime := now } ∈ db'.domainLists := by
    rw [h.lists]
    exact List.mem_map.mpr ⟨k, hmem, if_pos rfl⟩
  refine ⟨{ k with mtime := now }, Db.listNamed_eq_some.mpr ⟨hrow, by rw [hk]; rfl⟩, by rw [hk]; rfl,
    by rw [hk]; rfl, by rw [hk]; rfl, ?_⟩
  intro domain
  rw [h.owner]
  split_ifs with himported
  · exact iff_of_true rfl himported
  · -- no row of the first content can refer to the new id
    refine iff_of_false ?_ himported
    intro howner
    obtain ⟨m, hm, hid⟩ := Db.owner_exists howner
    have hlt := Db.id_lt_nextListId hm
    have hnew : k.id = db.nextListId := by rw [hk]; rfl
    change m.id = k.id at hid
    omega

end DomainListManager

open DomainListManager in
/-- The exported list read elsewhere, where every name it owns is valid, and imported into a
database without a list of its name: nothing is lost exactly when the list is switched on or
owns nothing. -/
theorem Mgmt.export_import_iff (source target : Env) (c : Connection) (hl : l ∈ c.view.domainLists)
    (hname : l.name ≠ "")
    (hparse : target.parseJson (l.printed source c.view) = some ((l.exported c.view).toJson .null))
    (hvalid : ∀ domain, c.view.owner domain = some l.id → target.isValid domain = true)
    (db : Db) (hfree : db.listNamed l.name = none) (custom : Bool) :
    ∃ (text : String) (lst : DomainList) (db' : Db) (l' : DomainListRow),
      (Store.free c).exec (exportList source l.name) =
        some (.ok { done := true, out := text }, Store.free c) ∧
      (DomainList.fromJson target text).run.run {} = (.ok (), lst) ∧
      (Store.free ⟨db, none⟩).exec (importList lst custom) =
        some (.ok true, Store.free ⟨db', none⟩) ∧
      db'.listNamed l.name = some l' ∧
      (SameList c.view l db' l' ↔
        l.active = true ∨ ∀ domain, c.view.owner domain ≠ some l.id) := by
  have hnames (domain : String) : domain ∈ (l.exported c.view).domains.map Domain.name ↔
      l.active = true ∧ c.view.owner domain = some l.id := Db.mem_exported_names hl
  let lst : DomainList :=
    { name := l.name, url := l.url, description := some l.description
      domains := (l.exported c.view).domains.map fun d => { name := d.name } }
  have hdecoded : (DomainList.fromJson target (l.printed source c.view)).run.run {} =
      (.ok (), lst) := by
    have hall : ((l.exported c.view).domains.filter fun d => target.isValid d.name) =
        (l.exported c.view).domains := by
      apply List.filter_eq_self.mpr
      intro d hd
      apply hvalid d.name
      exact ((hnames d.name).mp (List.mem_map_of_mem hd)).2
    rw [DomainList.fromJson, hparse]
    have hread := DomainList.initFromJson_toJson target (l.exported c.view)
    rw [hall] at hread
    exact hread
  obtain ⟨db', k, himport, himported⟩ :=
    Store.exec_importList_free (Store.free_isFree ⟨db, none⟩) rfl lst custom
  obtain ⟨l', hl', hname', hurl, hdescription, howner⟩ := himported.of_free hname hfree
  refine ⟨_, lst, db', l', exec_exportList source c hl, hdecoded, himport, hl', ?_⟩
  have hdomains : lst.domains.map Domain.name = (l.exported c.view).domains.map Domain.name := by
    simp [lst]
  simp only [hdomains, hnames] at howner
  constructor
  · intro h
    by_cases hactive : l.active = true
    · exact Or.inl hactive
    · exact Or.inr fun domain hd => hactive ((howner domain).mp ((h.domains domain).mpr hd)).1
  · intro h
    refine ⟨hname', hurl, hdescription, fun domain => (howner domain).trans ?_⟩
    rcases h with hactive | hnone
    · exact and_iff_right hactive
    · exact iff_of_false (fun hd => hnone domain hd.2) (hnone domain)

def adsList : DomainList :=
  { name := "ads", url := "https://lists.example/ads", description := some "Ads"
    domains := [{ name := "ads.example" }] }

def adsDb : Db :=
  ((Db.seeded.ensureList "ads" "https://lists.example/ads" "Ads" false).replaceDomain
    "ads.example" 3 (by decide)).touchList 3 0

def adsRow (active : Bool) : DomainListRow :=
  { id := 3, name := "ads", url := "https://lists.example/ads", description := "Ads", active
    custom := false, isWhitelist := false, mtime := 0 }

/-- Surroundings that read what is printed for the list, switched on or off. -/
def adsEnv : Env :=
  .documents [((adsRow true).exported adsDb).toJson .null,
    ((adsRow false).exported (adsDb.activateList false "ads")).toJson .null]

/-- The list is switched on, and arrives with its domain. -/
theorem Mgmt.export_import_enabled :
    ∃ (text : String) (lst : DomainList) (db' : Db) (l' : DomainListRow),
      (Store.free ⟨adsDb, none⟩).exec (exportList adsEnv "ads") =
        some (.ok { done := true, out := text }, Store.free ⟨adsDb, none⟩) ∧
      (DomainList.fromJson adsEnv text).run.run {} = (.ok (), lst) ∧
      (Store.free ⟨Db.seeded, none⟩).exec (DomainListManager.importList lst false) =
        some (.ok true, Store.free ⟨db', none⟩) ∧
      db'.listNamed "ads" = some l' ∧ SameList adsDb (adsRow true) db' l' := by
  have hparse : adsEnv.parseJson ((adsRow true).printed adsEnv adsDb) =
      some (((adsRow true).exported adsDb).toJson .null) := Env.documents_readBack _ _
  have hrow : adsRow true ∈ adsDb.domainLists := by decide +kernel
  have hvalid (domain : String) (howner : adsDb.owner domain = some 3) :
      adsEnv.isValid domain = true := by
    have hdomains : adsDb.domains = [⟨"ads.example", 3⟩] := by decide +kernel
    have hone := Db.owner_eq_some.mp howner
    rw [hdomains, List.mem_singleton, DomainRow.mk.injEq] at hone
    rw [hone.1]
    decide
  obtain ⟨text, lst, db', l', hexport, hdecode, himport, hnamed, hsame⟩ :=
    export_import_iff adsEnv adsEnv ⟨adsDb, none⟩ hrow (by decide) hparse hvalid Db.seeded
      (by decide +kernel) false
  exact ⟨text, lst, db', l', hexport, hdecode, himport, hnamed, hsame.mpr (Or.inl rfl)⟩

/-- A list that was switched off is exported without its names. -/
theorem Mgmt.export_import_disabled :
    (Store.free ⟨Db.empty, none⟩).exec (do
        DB.init
        let _ ← DomainListManager.importList adsList false
        DomainListManager.setEnabled "ads" false) =
      some (.ok true, Store.free ⟨adsDb.activateList false "ads", none⟩) ∧
    (adsDb.activateList false "ads").owner "ads.example" = some 3 ∧
    ∃ (text : String) (lst : DomainList) (db' : Db),
      (Store.free ⟨adsDb.activateList false "ads", none⟩).exec (exportList adsEnv "ads") =
        some (.ok { done := true, out := text },
          Store.free ⟨adsDb.activateList false "ads", none⟩) ∧
      (DomainList.fromJson adsEnv text).run.run {} = (.ok (), lst) ∧
      (Store.free ⟨Db.seeded, none⟩).exec (DomainListManager.importList lst false) =
        some (.ok true, Store.free ⟨db', none⟩) ∧
      db'.owner "ads.example" = none := by
  refine ⟨by decide +kernel, by decide +kernel,
    (adsRow false).printed adsEnv (adsDb.activateList false "ads"),
    { name := "ads", url := "https://lists.example/ads", description := some "Ads" },
    (Db.seeded.ensureList "ads" "https://lists.example/ads" "Ads" false).touchList 3 0,
    by decide +kernel, ?_, by decide +kernel, by decide +kernel⟩
  change (_ : Except Exc Unit × DomainList) = _
  decide +kernel

end DblService
