import DblService.Manager.DomainManager

/-!
# The tables after blocking and after an import

What `block_domains` and `import` leave in every table when none of their statements raises.
A name has at most one row, so the tables are given by the rows of each name.
-/

namespace DblService

open Framework Session

namespace Db

variable {db db' : Db}

def rowsOf (db : Db) (name : String) : List DomainRow :=
  db.domains.filter fun d => decide (d.name = name)

private theorem rowsOf_eq (db : Db) (name : String) :
    db.rowsOf name = (db.owner name).toList.map (DomainRow.mk name) := by
  have hone := db.domain_unique.filter_key (fun _ => true) name
  simp only [Bool.and_true] at hone
  rw [rowsOf, hone, owner]
  cases hd : lookup DomainRow.name name db.domains with
  | none => rfl
  | some d =>
    obtain ⟨_, rfl⟩ := (lookup_eq_some_iff db.domain_unique).mp hd
    rfl

private theorem rowsOf_owned {name : String} {id : Int} (h : db.owner name = some id) :
    db.rowsOf name = [⟨name, id⟩] := by
  rw [rowsOf_eq, h]
  rfl

private theorem rowsOf_congr {name : String} (h : db'.owner name = db.owner name) :
    db'.rowsOf name = db.rowsOf name := by
  rw [rowsOf_eq, rowsOf_eq, h]

private theorem domains_perm (h : ∀ name, db.owner name = db'.owner name) :
    db.domains.Perm db'.domains := by
  have hnodup (db : Db) : db.domains.Nodup := List.Nodup.of_map _ db.domain_unique
  apply (List.perm_ext_iff_of_nodup (hnodup db) (hnodup db')).mpr
  intro d
  have hrow (db : Db) : d ∈ db.domains ↔ db.owner d.name = some d.listId := owner_eq_some.symm
  rw [hrow, hrow, h]

/-- The same rows in every table, in whatever order they are kept; `f` says what is compared
of a row of `domain_lists`. -/
structure SameRows (f : DomainListRow → DomainListRow) (a b : Db) : Prop where
  settings : a.settings.Perm b.settings
  lists : (a.domainLists.map f).Perm (b.domainLists.map f)
  domains : a.domains.Perm b.domains
  stats : a.statsDomains.Perm b.statsDomains

def SameTables : Db → Db → Prop := SameRows id

/-- The same tables up to `mtime`. -/
def SameButMtime : Db → Db → Prop := SameRows fun l => { l with mtime := 0 }

end Db

namespace DomainListManager.Created

variable {name url description : String} {custom : Bool} {s s₁ s' : Store} {id : Int}
  {stmts : List Stmt} {done : Bool}

private theorem of_raised (h : Created name url description custom s (some id) s₁)
    (ht : Transacted stmts s₁ done s') (hraised : s'.ambient.raised = s.ambient.raised) :
    let db := s.conn.file.ensureList (effectiveName name) url description custom
    ∃ l db', done = true ∧ s.conn.tx = none ∧ db.listNamed (effectiveName name) = some l ∧
      id = l.id ∧ Stmt.runAll s.ambient.now stmts db = .ok db' ∧ s'.conn = ⟨db', none⟩ := by
  have hle := h.raised_le
  have hdone := ht.raised_eq
  cases done with
  | false =>
    simp only [Bool.false_eq_true, if_false] at hdone
    omega
  | true =>
    simp only [if_true, Nat.add_zero] at hdone
    obtain ⟨hidle, hquiet⟩ := h.raised_eq_iff.mp (hdone.symm.trans hraised)
    obtain ⟨l, hl, hid, rfl⟩ := h.of_quiet hidle hquiet
    obtain ⟨_, hrest, db', hrun⟩ := ht.done_iff.mp rfl
    obtain ⟨_, rfl⟩ := ht.of_quiet rfl hrest hrun
    exact ⟨l, db', rfl, hidle, hl, Option.some.inj hid, hrun, rfl⟩

private theorem raised_ne (h : Created name url description custom s none s') :
    s'.ambient.raised ≠ s.ambient.raised := by
  intro hraised
  obtain ⟨hidle, hquiet⟩ := h.raised_eq_iff.mp hraised
  obtain ⟨_, _, hnone, _⟩ := h.of_quiet hidle hquiet
  cases hnone

end DomainListManager.Created

/-! ## Blocking -/

namespace DomainManager

open DomainListManager

/-- The tables after the valid names were blocked into `CUSTOM`. -/
structure Blocked (names : List String) (db db' : Db) : Prop where
  whitelisted : ∀ m, db.IsWhitelisted m → db'.rowsOf m = db.rowsOf m
  owned : ∃ l, db'.listNamed "CUSTOM" = some l ∧
    ∀ m ∈ names, ¬ db.IsWhitelisted m → db'.rowsOf m = [⟨m, l.id⟩]
  others : ∀ m, m ∉ names → db'.rowsOf m = db.rowsOf m
  lists : db'.domainLists = db.domainLists ∨ db.listNamed "CUSTOM" = none ∧
    ∃ l, l.name = "CUSTOM" ∧ db'.domainLists = db.domainLists ++ [l]
  settings : db'.settings = db.settings
  stats : db'.statsDomains = db.statsDomains

/-- The tables once `block_domains` has made sure that its default list exists. -/
def withCustom (db : Db) : Db := db.ensureList "CUSTOM" "" "Custom list" true

/-- What the transaction of `block_domains` does to the owners, for the default list `l`. -/
structure OwnersBlocked (names : List String) (db db' : Db) (l : DomainListRow) : Prop where
  custom : (withCustom db).listNamed "CUSTOM" = some l
  same : Db.SameButDomains (withCustom db) db'
  owner : ∀ m, db'.owner m =
    if m ∈ names ∧ ¬ db.IsWhitelisted m then some l.id else db.owner m

private theorem OwnersBlocked.of_runAll {names : List String} {now : Int} {db db' : Db}
    {l : DomainListRow} (hl : (withCustom db).listNamed "CUSTOM" = some l)
    (hrun : Stmt.runAll now (blockStmts names l.id) (withCustom db) = .ok db') :
    OwnersBlocked names db db' l := by
  obtain ⟨db₁, hall, hsame, howner⟩ := Stmt.runAll_block now names
    ⟨l, (Db.listNamed_eq_some.mp hl).1, rfl⟩
  obtain rfl : db₁ = db' := Except.ok.inj (hall.symm.trans hrun)
  refine ⟨hl, hsame, ?_⟩
  intro m
  rw [howner m]
  simp only [withCustom, Db.ensureList_isWhitelisted_iff, Db.ensureList_owner]

theorem OwnersBlocked.blocked {names : List String} {db db' : Db} {l : DomainListRow}
    (h : OwnersBlocked names db db' l) : Blocked names db db' := by
  refine ⟨?_, ⟨l, ?_, ?_⟩, ?_, ?_, ?_, ?_⟩
  · intro m hm
    apply Db.rowsOf_congr
    rw [h.owner, if_neg (by simp [hm])]
  · rw [← h.custom, Db.listNamed, Db.listNamed, h.same.lists]
  · intro m hm hw
    apply Db.rowsOf_owned
    rw [h.owner, if_pos ⟨hm, hw⟩]
  · intro m hm
    apply Db.rowsOf_congr
    rw [h.owner, if_neg (by simp [hm])]
  · rw [h.same.lists]
    by_cases htaken : "CUSTOM" ∈ db.domainLists.map DomainListRow.name
    · exact Or.inl (congrArg Db.domainLists (dif_pos htaken))
    · refine Or.inr ⟨?_, db.newList "CUSTOM" "" "Custom list" true false, rfl,
        congrArg Db.domainLists (dif_neg htaken)⟩
      rw [← Option.not_isSome_iff_eq_none, Db.listNamed_isSome]
      exact htaken
  · exact h.same.settings.trans (Db.ensureList_settings db)
  · exact h.same.stats.trans (Db.ensureList_stats db)

theorem exec_blockDomains_raised (env : Env) {s : Store} (hs : s.held = false)
    (domains : List String) (hvalid : filterValid env domains ≠ []) :
    ∃ r s', s.exec (blockDomains env domains 0) = some (r, s') ∧
      s.ambient.raised ≤ s'.ambient.raised ∧
      (s'.ambient.raised = s.ambient.raised →
        r = .ok true ∧ s.conn.tx = none ∧ s'.conn.tx = none ∧
          ∃ l, OwnersBlocked (filterValid env domains) s.conn.file s'.conn.file l) := by
  obtain ⟨r, s₁, hcreated, hrun⟩ := Store.exec_blockDomains_zero s env domains hvalid hs
  have hle := hcreated.raised_le
  cases r with
  | none => exact ⟨_, _, hrun, hle, fun hraised => absurd hraised hcreated.raised_ne⟩
  | some id =>
    obtain ⟨done, s', hexec, ht⟩ := hrun
    have hdone := ht.raised_eq
    refine ⟨_, s', hexec, by omega, ?_⟩
    intro hraised
    obtain ⟨l, db', rfl, hidle, hl, rfl, hall, hconn⟩ := hcreated.of_raised ht hraised
    rw [hconn]
    exact ⟨rfl, hidle, rfl, l, .of_runAll hl hall⟩

/-- Blocking into the default list, when no statement raises. -/
theorem blockDomains_tables (env : Env) (s : Store) (hs : s.held = false)
    (domains : List String) :
    ∃ r s', s.exec (blockDomains env domains 0) = some (r, s') ∧
      (s'.ambient.raised = s.ambient.raised →
        r = .ok (!(filterValid env domains).isEmpty) ∧
        (filterValid env domains = [] → s'.conn = s.conn) ∧
        (filterValid env domains ≠ [] → s.conn.tx = none ∧ s'.conn.tx = none ∧
          Blocked (filterValid env domains) s.conn.file s'.conn.file)) := by
  by_cases hvalid : filterValid env domains = []
  · refine ⟨_, s, Store.exec_blockDomains_nil s env 0 hvalid, ?_⟩
    intro _
    exact ⟨by simp [hvalid], fun _ => rfl, fun hnot => absurd hvalid hnot⟩
  · obtain ⟨r, s', hexec, _, hquiet⟩ := exec_blockDomains_raised env hs domains hvalid
    refine ⟨r, s', hexec, ?_⟩
    intro hraised
    obtain ⟨rfl, hidle, hidle', l, hblocked⟩ := hquiet hraised
    exact ⟨by simp [List.isEmpty_eq_false_iff.mpr hvalid], fun hnil => absurd hnil hvalid,
      fun _ => ⟨hidle, hidle', hblocked.blocked⟩⟩

def whitelistedDb : Db := Db.seeded.replaceDomain "kept.example" 2 Db.seeded_whitelist_id

/-- A new name given twice, an invalid one and one that the whitelist keeps. -/
theorem blockDomains_tables_whitelisted :
    ∃ db', (Store.free ⟨whitelistedDb, none⟩).exec (blockDomains (.ofTexts [])
        ["ads.example", "", "kept.example", "ads.example"] 0) =
        some (.ok true, Store.free ⟨db', none⟩) ∧
      Blocked ["ads.example", "kept.example", "ads.example"] whitelistedDb db' := by
  let db' : Db := whitelistedDb.insertDomain "ads.example" 1 Db.seeded_custom_id
  have hrun : (Store.free ⟨whitelistedDb, none⟩).exec (blockDomains (.ofTexts [])
      ["ads.example", "", "kept.example", "ads.example"] 0) =
      some (.ok true, Store.free ⟨db', none⟩) := by decide +kernel
  obtain ⟨r, s', hexec, hpost⟩ := blockDomains_tables (.ofTexts [])
    (Store.free ⟨whitelistedDb, none⟩) rfl ["ads.example", "", "kept.example", "ads.example"]
  obtain ⟨rfl, rfl⟩ := Prod.mk.inj (Option.some.inj (hexec.symm.trans hrun))
  obtain ⟨_, _, hblocked⟩ := hpost rfl
  exact ⟨db', hrun, (hblocked (by decide)).2.2⟩

end DomainManager

/-! ## Importing -/

namespace DomainListManager

/-- The tables after the list was imported at the time `now`. -/
structure ImportedTables (lst : DomainList) (custom : Bool) (now : Int) (db db' : Db) : Prop where
  kept : ∀ l, db.listNamed (effectiveName lst.name) = some l →
    db'.listNamed (effectiveName lst.name) = some { l with mtime := now }
  made : db.listNamed (effectiveName lst.name) = none →
    ∃ id, db'.listNamed (effectiveName lst.name) =
      some { id, name := effectiveName lst.name, url := lst.url
             description := lst.description.getD "", active := true, custom
             isWhitelist := false, mtime := now }
  owned : ∃ l, db'.listNamed (effectiveName lst.name) = some l ∧
    ∀ m ∈ lst.domains.map Domain.name, db'.rowsOf m = [⟨m, l.id⟩]
  others : ∀ m, m ∉ lst.domains.map Domain.name → db'.rowsOf m = db.rowsOf m
  otherLists : ∀ l : DomainListRow, l.name ≠ effectiveName lst.name →
    (l ∈ db'.domainLists ↔ l ∈ db.domainLists)
  settings : db'.settings = db.settings
  stats : db'.statsDomains = db.statsDomains

namespace Imported

variable {lst : DomainList} {custom : Bool} {now : Int} {db db' : Db} {l : DomainListRow}

theorem listNamed (h : Imported lst custom now db db' l) (n : String) :
    db'.listNamed n = ((ensured lst custom db).listNamed n).map fun k =>
      if k.id = l.id then { k with mtime := now } else k := by
  rw [← Db.touchList_listNamed, Db.listNamed, Db.listNamed, h.lists]

private theorem listNamed_target (h : Imported lst custom now db db' l) :
    db'.listNamed (effectiveName lst.name) = some { l with mtime := now } := by
  rw [h.listNamed, h.target, Option.map_some, if_pos rfl]

private theorem listNamed_other (h : Imported lst custom now db db' l) {n : String}
    (hn : n ≠ effectiveName lst.name) : db'.listNamed n = db.listNamed n := by
  rw [h.listNamed, ensured, Db.ensureList_listNamed, if_neg (Ne.symm hn), Option.or_none]
  cases hk : db.listNamed n with
  | none => rfl
  | some k =>
    obtain ⟨hmem, hkn⟩ := Db.listNamed_eq_some.mp hk
    obtain ⟨hl, hname⟩ := Db.listNamed_eq_some.mp h.target
    have hid : k.id ≠ l.id := by
      intro hid
      have hsame : k = l := Db.list_id_inj (db.ensureList_mem hmem) hl hid
      rw [← hkn, hsame] at hn
      exact hn hname
    rw [Option.map_some, if_neg hid]

private theorem tables (h : Imported lst custom now db db' l) :
    ImportedTables lst custom now db db' := by
  refine ⟨?_, ?_, ⟨_, h.listNamed_target, ?_⟩, ?_, ?_, h.settings, h.stats⟩
  · intro k hk
    have htarget := h.target
    rw [ensured, Db.ensureList_listNamed, hk, Option.some_or, Option.some.injEq] at htarget
    rw [h.listNamed_target, htarget]
  · intro hnone
    have htarget := h.target
    rw [ensured, Db.ensureList_listNamed, hnone, Option.none_or, if_pos rfl,
      Option.some.injEq] at htarget
    exact ⟨db.nextListId, by rw [h.listNamed_target, ← htarget]; rfl⟩
  · intro m hm
    apply Db.rowsOf_owned
    rw [h.owner, if_pos hm]
  · intro m hm
    apply Db.rowsOf_congr
    rw [h.owner, if_neg hm]
  · intro k hk
    have hrow (db : Db) : k ∈ db.domainLists ↔ db.listNamed k.name = some k := by
      simp [Db.listNamed_eq_some]
    rw [hrow, hrow, h.listNamed_other hk]

private theorem sameTables {lst' : DomainList} {db'' : Db} {l' : DomainListRow}
    (h : Imported lst custom now db db' l) (h' : Imported lst' custom now db db'' l')
    (hname : lst'.name = lst.name) (hurl : lst'.url = lst.url)
    (hdescription : lst'.description = lst.description)
    (hnames : ∀ m, m ∈ lst'.domains.map Domain.name ↔ m ∈ lst.domains.map Domain.name) :
    Db.SameTables db' db'' := by
  have hensured : ensured lst' custom db = ensured lst custom db := by
    simp only [ensured, hname, hurl, hdescription]
  have hl : l' = l := by
    have htarget := h'.target
    rw [hensured, hname, h.target, Option.some.injEq] at htarget
    exact htarget.symm
  subst hl
  refine ⟨?_, ?_, ?_, ?_⟩
  · rw [h.settings, h'.settings]
  · rw [h.lists, h'.lists, hensured]
  · apply Db.domains_perm
    intro m
    rw [h.owner, h'.owner]
    simp only [hnames]
  · rw [h.stats, h'.stats]

private theorem again {custom' : Bool} {now' : Int} {db'' : Db} {l' : DomainListRow}
    (h : Imported lst custom now db db' l) (h' : Imported lst custom' now' db' db'' l') :
    Db.SameButMtime db' db'' := by
  have hensured : ensured lst custom' db' = db' := Db.ensureList_of_taken db' h.listNamed_target
  have hl : l' = { l with mtime := now } := by
    have htarget := h'.target
    rw [hensured, h.listNamed_target, Option.some.injEq] at htarget
    exact htarget.symm
  subst hl
  refine ⟨?_, ?_, ?_, ?_⟩
  · rw [h'.settings]
  · have htouched : db''.domainLists = db'.domainLists.map fun k =>
        if k.id = l.id then { k with mtime := now' } else k := by
      rw [h'.lists, hensured]
      rfl
    rw [htouched, List.map_map]
    apply List.Perm.of_eq
    apply List.map_congr_left
    intro k _
    simp only [Function.comp]
    split_ifs <;> rfl
  · apply Db.domains_perm
    intro m
    rw [h'.owner, h.owner]
    split_ifs <;> rfl
  · rw [h'.stats]

end Imported

theorem exec_importList_raised {s : Store} (hs : s.held = false) (lst : DomainList)
    (custom : Bool) :
    ∃ r s', s.exec (importList lst custom) = some (r, s') ∧
      (s'.ambient.raised = s.ambient.raised →
        r = .ok true ∧ s.conn.tx = none ∧ s'.conn.tx = none ∧
          ∃ l, Imported lst custom s.ambient.now s.conn.file s'.conn.file l) := by
  obtain ⟨r, s₁, hcreated, hrun⟩ := Store.exec_importList s lst custom hs
  cases r with
  | none => exact ⟨_, _, hrun, fun hraised => absurd hraised hcreated.raised_ne⟩
  | some id =>
    obtain ⟨done, s', hexec, ht⟩ := hrun
    refine ⟨_, s', hexec, ?_⟩
    intro hraised
    obtain ⟨l, db', rfl, hidle, hl, rfl, hall, hconn⟩ := hcreated.of_raised ht hraised
    obtain ⟨db₁, hall', himported⟩ := runAll_importStmts lst custom s.ambient.now s.conn.file hl
    obtain rfl : db₁ = db' := Except.ok.inj (hall'.symm.trans hall)
    rw [hconn]
    exact ⟨rfl, hidle, rfl, l, himported⟩

/-- The same list up to the order and the repetition of its domains. -/
structure SameContent (lst lst' : DomainList) : Prop where
  name : lst'.name = lst.name
  url : lst'.url = lst.url
  description : lst'.description = lst.description
  domains : ∀ m, m ∈ lst'.domains.map Domain.name ↔ m ∈ lst.domains.map Domain.name

/-- Importing, when no statement raises: the tables afterwards, whatever the order of the
domains, and what importing the list once more changes. -/
theorem importList_tables (s : Store) (hs : s.held = false) (lst : DomainList) (custom : Bool) :
    ∃ r s', s.exec (importList lst custom) = some (r, s') ∧
      (s'.ambient.raised = s.ambient.raised →
        (r = .ok true ∧ s.conn.tx = none ∧ s'.conn.tx = none ∧
          ImportedTables lst custom s.ambient.now s.conn.file s'.conn.file) ∧
        (∀ (lst' : DomainList) (t : Store) (r' : Except Exc Bool) (t' : Store),
          SameContent lst lst' → t.held = false → t.conn = s.conn →
          t.ambient.now = s.ambient.now → t.exec (importList lst' custom) = some (r', t') →
          t'.ambient.raised = t.ambient.raised →
            Db.SameTables s'.conn.file t'.conn.file) ∧
        ∀ (t : Store) (r' : Except Exc Bool) (t' : Store), t.held = false → t.conn = s'.conn →
          t.exec (importList lst custom) = some (r', t') →
          t'.ambient.raised = t.ambient.raised →
            Db.SameButMtime s'.conn.file t'.conn.file) := by
  have hrun {s : Store} (hs : s.held = false) (lst : DomainList) {r : Except Exc Bool} {s' : Store}
      (hexec : s.exec (importList lst custom) = some (r, s'))
      (hraised : s'.ambient.raised = s.ambient.raised) :
      ∃ l, Imported lst custom s.ambient.now s.conn.file s'.conn.file l := by
    obtain ⟨r₁, s₁, hexec₁, hpost⟩ := exec_importList_raised hs lst custom
    obtain ⟨rfl, rfl⟩ := Prod.mk.inj (Option.some.inj (hexec₁.symm.trans hexec))
    exact (hpost hraised).2.2.2
  obtain ⟨r, s', hexec, hpost⟩ := exec_importList_raised hs lst custom
  refine ⟨r, s', hexec, ?_⟩
  intro hraised
  obtain ⟨hr, hidle, hidle', l, himported⟩ := hpost hraised
  refine ⟨⟨hr, hidle, hidle', himported.tables⟩, ?_, ?_⟩
  · intro lst' t r' t' hsame ht hconn hnow hexec' hraised'
    obtain ⟨l', himported'⟩ := hrun ht lst' hexec' hraised'
    rw [hconn, hnow] at himported'
    exact himported.sameTables himported' hsame.name hsame.url hsame.description hsame.domains
  · intro t r' t' ht hconn hexec' hraised'
    obtain ⟨l', himported'⟩ := hrun ht lst hexec' hraised'
    rw [hconn] at himported'
    exact himported.again himported'

def takingList : DomainList :=
  { name := "", url := "https://lists.example/ads"
    domains := [{ name := "b" }, { name := "kept.example" }, { name := "b" }] }

/-- The list is imported, imported in another order, and imported once more later. -/
theorem importList_tables_whitelisted :
    let db := DomainManager.whitelistedDb
    let lst' : DomainList :=
      { takingList with domains := [{ name := "b" }, { name := "kept.example" }] }
    ∃ db₁ db₂ db₃ : Db,
      (Store.free ⟨db, none⟩).exec (importList takingList false) =
        some (.ok true, Store.free ⟨db₁, none⟩) ∧
      (Store.free ⟨db, none⟩).exec (importList lst' false) =
        some (.ok true, Store.free ⟨db₂, none⟩) ∧
      (⟨⟨db₁, none⟩, false, { now := 7 }⟩ : Store).exec (importList takingList false) =
        some (.ok true, ⟨⟨db₃, none⟩, false, { now := 7 }⟩) ∧
      ImportedTables takingList false 0 db db₁ ∧ Db.SameTables db₁ db₂ ∧
        Db.SameButMtime db₁ db₃ := by
  intro db lst'
  let db₁ : Db := (db.replaceDomain "kept.example" 1 (by decide +kernel)).replaceDomain "b" 1
    (by decide +kernel)
  let db₂ : Db := (db.replaceDomain "b" 1 (by decide +kernel)).replaceDomain "kept.example" 1
    (by decide +kernel)
  have hfirst : (Store.free ⟨db, none⟩).exec (importList takingList false) =
      some (.ok true, Store.free ⟨db₁, none⟩) := by decide +kernel
  have hother : (Store.free ⟨db, none⟩).exec (importList lst' false) =
      some (.ok true, Store.free ⟨db₂, none⟩) := by decide +kernel
  have hagain : (⟨⟨db₁, none⟩, false, { now := 7 }⟩ : Store).exec (importList takingList false) =
      some (.ok true, ⟨⟨db₁.touchList 1 7, none⟩, false, { now := 7 }⟩) := by decide +kernel
  have hsame : SameContent takingList lst' := by
    refine ⟨rfl, rfl, rfl, ?_⟩
    intro m
    simp [takingList, lst', or_comm]
  obtain ⟨r, s', hexec, hpost⟩ := importList_tables (Store.free ⟨db, none⟩) rfl takingList false
  obtain ⟨rfl, rfl⟩ := Prod.mk.inj (Option.some.inj (hexec.symm.trans hfirst))
  obtain ⟨⟨_, _, _, htables⟩, horder, honce⟩ := hpost rfl
  have horder : Db.SameTables db₁ db₂ :=
    horder lst' (Store.free ⟨db, none⟩) (.ok true) (Store.free ⟨db₂, none⟩) hsame rfl rfl rfl
      hother rfl
  have honce : Db.SameButMtime db₁ (db₁.touchList 1 7) :=
    honce ⟨⟨db₁, none⟩, false, { now := 7 }⟩ (.ok true)
      ⟨⟨db₁.touchList 1 7, none⟩, false, { now := 7 }⟩ rfl rfl hagain rfl
  exact ⟨db₁, db₂, db₁.touchList 1 7, hfirst, hother, hagain, htables, horder, honce⟩

end DomainListManager

end DblService
