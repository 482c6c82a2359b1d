import DblService.Db.Effects

/-!
# The managers of domains and domain lists

`DomainListManager` and `DomainManager`, the request log of `Logger` and the
initialisation of the database by `DB::init`.  Every operation turns a
`std::runtime_error` into `false`, zero, a null pointer or the part of the result
it had.
-/

namespace DblService

open Framework Session

namespace DomainManager

def filterValid (env : Env) (domains : List String) : List String := domains.filter env.isValid

def get (listId : Int) : Code (List Domain) := collect (.getDomains listId)

/-- `none` is the null pointer. -/
def getByName (name : String) : Code (Option Domain) :=
  catchRuntime
    (do
      let row ← queryOne (.getDomainByName name)
      let d : Domain := row.getD {}
      pure (some d))
    fun _ => pure none

def getBlocked : Code (List Domain) := collect .getBlockedDomains

def getWhitelisted : Code (List Domain) := collect .getAllWhitelistedDomains

end DomainManager

namespace DomainListManager

def get : Code (List DomainList) := collect .getDomainLists

/-- `none` is the null pointer. -/
def getByName (name : String) (withDomains : Bool) : Code (Option DomainList) :=
  catchRuntime
    (do
      let row ← queryOne (.getDomainListByName name)
      let l : DomainList := row.getD {}
      -- the session of the query is given back before the next one is leased
      if l.id ≠ 0 && withDomains then
        let domains ← DomainManager.get l.id
        pure (some { l with domains := l.domains ++ domains })
      else
        pure (some l))
    fun _ => pure none

def create (name url description : String) (custom : Bool) : Code Int :=
  let listName := if name = "" then "CUSTOM" else name
  catchRuntime
    (do
      transaction [.insertOrIgnoreDomainList listName url description custom]
      match ← getByName listName false with
      | some l => pure l.id
      | none => throw .nullDereference)
    fun _ => pure 0

def importStmts (lst : DomainList) (listId : Int) : List Stmt :=
  (lst.domains.map Domain.name).map (.insertOrReplaceDomain · listId) ++ [.updateMtime listId]

def importList (lst : DomainList) (custom : Bool) : Code Bool :=
  catchRuntime
    (do
      let listId ← create lst.name lst.url (lst.description.getD "") custom
      transaction (importStmts lst listId)
      pure true)
    fun _ => pure false

def remove (name : String) : Code Bool := committed [.deleteDomainList name]

def setEnabled (name : String) (enabled : Bool) : Code Bool := committed [.setActive enabled name]

end DomainListManager

/-- `begin()`, a count, `commit()`; zero when one of them raises. -/
def countRows (q : Query) (total : List q.Row → Int) : Code Int :=
  catchRuntime
    (withSession fun c => do
      begin c
      let rows ← sql c (.query q)
      commit c
      pure (total rows))
    fun _ => pure 0

def DomainListManager.count : Code Int := countRows .countActiveLists fun rows => rows.headD 0

namespace DomainManager

def blockStmts (names : List String) (listId : Int) : List Stmt :=
  names.map .deleteUnlessWhitelisted ++ names.map (.insertOrIgnoreDomain · listId)

def blockDomains (env : Env) (domains : List String) (listId : Int) : Code Bool := do
  let valid := filterValid env domains
  if valid.isEmpty then
    pure false
  else
    -- outside the `try`: the list is created even when blocking fails afterwards
    let listId ← if listId = 0 then DomainListManager.create "CUSTOM" "" "Custom list" true
      else pure listId
    committed (blockStmts valid listId)

def unblockDomains (env : Env) (domains : List String) : Code Bool :=
  let valid := filterValid env domains
  if valid.isEmpty then pure false else committed (valid.map .insertOrReplaceWhitelisted)

def countBlocked : Code Int := countRows .countBlocked fun rows => rows.headD 0

variable {env : Env} {domains : List String}

theorem blockDomains_eq (hvalid : filterValid env domains ≠ []) {listId : Int}
    (hid : listId ≠ 0) :
    blockDomains env domains listId =
      committed (blockStmts (filterValid env domains) listId) := by
  simp only [blockDomains, List.isEmpty_iff, if_neg hvalid, if_neg hid, pure_bind]

theorem unblockDomains_eq (hvalid : filterValid env domains ≠ []) :
    unblockDomains env domains =
      committed ((filterValid env domains).map .insertOrReplaceWhitelisted) := by
  simp only [unblockDomains, List.isEmpty_iff, if_neg hvalid]

end DomainManager

/-- `Logger::log_domain_hit`: no entry of `domains_seen_` is ever set, so the row is
always inserted first. -/
def Logger.logDomainHit (domain : String) : Code Unit := do
  let _ ← committed [.insertOrIgnoreStats domain, .incrementHits domain]

def DB.init : Code Unit :=
  withSession fun c => do
    begin c
    [Stmt.createTable, .createTable, .createTable, .createTable].forM (exec c)
    let rows ← sql c (.query .countDomainLists)
    if rows.headD 0 = 0 then
      exec c (.seedDomainList "CUSTOM" "Custom, uncategorized list" false)
      exec c (.seedDomainList "WHITELIST" "Custom, default whitelist" true)
    commit c

namespace Db

theorem rows_getDomainListByName (db : Db) (name : String) :
    ((Query.getDomainListByName name).rows db).head? =
      (db.listNamed name).map DomainList.fromRow := by
  simp only [Query.rows, Db.listNamed, lookup, List.head?_map, List.head?_filter]

end Db

def Db.seeded : Db :=
  (Db.empty.appendList "CUSTOM" "" "Custom, uncategorized list" true false (by decide)).appendList
    "WHITELIST" "" "Custom, default whitelist" true true (by decide)

theorem Db.seeded_custom_id : ∃ l ∈ Db.seeded.domainLists, l.id = 1 := by decide

theorem Db.seeded_whitelist_id : ∃ l ∈ Db.seeded.domainLists, l.id = 2 := by decide

/-! ## What the managers do -/

namespace DomainListManager

def effectiveName (name : String) : String := if name = "" then "CUSTOM" else name

/-- Everything `create` can do: the id it returns, or `none` where it dereferences the null
pointer of its own lookup. -/
inductive Created (name url description : String) (custom : Bool) (s : Store) :
    Option Int → Store → Prop
  | failed (s' : Store)
      (h : Transacted [.insertOrIgnoreDomainList (effectiveName name) url description custom]
        s false s') :
      Created name url description custom s (some 0) s'
  | crashed (s' : Store)
      (h : Transacted [.insertOrIgnoreDomainList (effectiveName name) url description custom]
        s true s') (hbusy : s'.ambient.faulty = true) :
      Created name url description custom s none (s'.afterRaise s'.conn 1)
  | created (s' : Store) (l : DomainListRow)
      (h : Transacted [.insertOrIgnoreDomainList (effectiveName name) url description custom]
        s true s') (hquiet : s'.ambient.faulty = false)
      (hl : s'.conn.file.listNamed (effectiveName name) = some l) :
      Created name url description custom s (some l.id) (s'.after s'.conn 1)

namespace Created

variable {name url description : String} {custom : Bool} {s s' : Store} {r : Option Int}

theorem held_eq (h : Created name url description custom s r s') : s'.held = s.held := by
  cases h with
  | failed _ h => exact h.held_eq
  | crashed _ h _ => exact h.held_eq
  | created _ _ h _ _ => exact h.held_eq

/-- A busy database refuses the transaction. -/
theorem of_busy (h : Created name url description custom s r s') (hbusy : s.ambient.faulty = true) :
    r = some 0 ∧ s' = s.afterRaise s.conn 1 := by
  cases h with
  | failed _ h => exact ⟨rfl, (h.of_busy hbusy).2⟩
  | crashed _ h => cases (h.of_busy hbusy).1
  | created _ _ h => cases (h.of_busy hbusy).1

/-- On an idle connection that is not found busy the list exists afterwards. -/
theorem of_quiet (h : Created name url description custom s r s') (hidle : s.conn.tx = none)
    (hquiet : s.ambient.Quiet 4) :
    let db := s.conn.file.ensureList (effectiveName name) url description custom
    ∃ l, db.listNamed (effectiveName name) = some l ∧ r = some l.id ∧
      s' = s.after ⟨db, none⟩ 4 := by
  intro db
  have hrun : Stmt.runAll s.ambient.now
      [.insertOrIgnoreDomainList (effectiveName name) url description custom] s.conn.file =
        .ok db := rfl
  have hquiet₃ : s.ambient.Quiet 3 := hquiet.mono (by omega)
  have hlast : (s.ambient.skip 3).faulty = false := (Ambient.quiet_last.mp hquiet).2
  cases h with
  | failed _ h => cases (h.of_quiet hidle hquiet₃ hrun).1
  | crashed s₁ h hbusy =>
    rw [(h.of_quiet hidle hquiet₃ hrun).2] at hbusy
    rw [Store.after_ambient] at hbusy
    exact absurd hbusy (by simp [hlast])
  | created s₁ l h _ hl =>
    have hs₁ := (h.of_quiet hidle hquiet₃ hrun).2
    subst hs₁
    exact ⟨l, hl, rfl, by simp⟩

theorem raised_le (h : Created name url description custom s r s') :
    s.ambient.raised ≤ s'.ambient.raised := by
  cases h with
  | failed _ h =>
    have := h.raised_eq
    omega
  | crashed s₁ h _ =>
    have := h.raised_eq
    simp only [if_true, Nat.add_zero] at this
    simp [this]
  | created s₁ _ h _ _ =>
    have := h.raised_eq
    simp only [if_true, Nat.add_zero] at this
    simp [this]

/-- Nothing raised exactly when the connection was idle and never found busy. -/
theorem raised_eq_iff (h : Created name url description custom s r s') :
    s'.ambient.raised = s.ambient.raised ↔ s.conn.tx = none ∧ s.ambient.Quiet 4 := by
  constructor
  · intro hraised
    cases h with
    | failed _ h =>
      have := h.raised_eq
      simp [hraised] at this
    | crashed s₁ h _ =>
      have := h.raised_eq
      simp only [if_true, Nat.add_zero] at this
      simp [this] at hraised
    | created s₁ l h hquiet hl =>
      obtain ⟨hidle, hquiet₃, _⟩ := h.done_iff.mp rfl
      cases h with
      | committed db _ _ _ => exact ⟨hidle, Ambient.quiet_last.mpr ⟨hquiet₃, hquiet⟩⟩
  · rintro ⟨hidle, hquiet⟩
    obtain ⟨_, _, _, rfl⟩ := h.of_quiet hidle hquiet
    rfl

end Created

end DomainListManager

namespace Store

variable (s : Store)

theorem exec_getDomainByName (name : String) (hs : s.held = false) :
    s.exec (DomainManager.getByName name) =
      if s.ambient.faulty then some (.ok none, s.afterRaise s.conn 1)
      else some (.ok (some (((Query.getDomainByName name).rows s.conn.view).head?.getD {})),
        s.after s.conn 1) := by
  rw [DomainManager.getByName, exec_catchRuntime, exec_bind, exec_queryOne s _ hs]
  cases hf : s.ambient.faulty <;> rfl

theorem exec_getListByName (name : String) (hs : s.held = false) :
    s.exec (DomainListManager.getByName name false) =
      if s.ambient.faulty then some (.ok none, s.afterRaise s.conn 1)
      else some (.ok (some (((s.conn.view.listNamed name).map DomainList.fromRow).getD {})),
        s.after s.conn 1) := by
  rw [DomainListManager.getByName, exec_catchRuntime, exec_bind, exec_queryOne s _ hs]
  cases hf : s.ambient.faulty with
  | true => rfl
  | false =>
    simp only [← Db.rows_getDomainListByName, Bool.and_false, Bool.false_eq_true, if_false]
    rfl

/-- The list of a name, with the domains that are read before a statement finds the database
busy. -/
def listFound (name : String) (withDomains : Bool) : DomainList :=
  match s.conn.view.listNamed name with
  | none => {}
  | some l =>
    if withDomains then
      { DomainList.fromRow l with
        domains := (Query.getDomains l.id).readable s.conn.view (s.ambient.skip 1) }
    else DomainList.fromRow l

theorem listFound_name (name : String) (withDomains : Bool) :
    (s.listFound name withDomains).name =
      (((s.conn.view.listNamed name).map DomainList.fromRow).getD {}).name := by
  unfold listFound
  cases s.conn.view.listNamed name with
  | none => rfl
  | some l => cases withDomains <;> rfl

/-- With the domains a list is read by two queries. -/
theorem exec_getListByName_cases (name : String) (withDomains : Bool) (hs : s.held = false) :
    (s.ambient.faulty = true ∧ s.exec (DomainListManager.getByName name withDomains) =
      some (.ok none, s.afterRaise s.conn 1)) ∨
    s.ambient.faulty = false ∧ ∃ s', s.exec (DomainListManager.getByName name withDomains) =
      some (.ok (some (s.listFound name withDomains)), s') ∧
        match s.conn.view.listNamed name, withDomains with
        | some l, true => ∃ rows, Collected (.getDomains l.id) (s.after s.conn 1) rows s'
        | _, _ => s' = s.after s.conn 1 := by
  rw [DomainListManager.getByName, exec_catchRuntime, exec_bind, exec_queryOne s _ hs]
  cases hf : s.ambient.faulty with
  | true => exact Or.inl ⟨rfl, rfl⟩
  | false =>
    refine Or.inr ⟨rfl, ?_⟩
    have hrow : ((Query.getDomainListByName name).rows s.conn.view).head? =
        (s.conn.view.listNamed name).map DomainList.fromRow := Db.rows_getDomainListByName _ _
    simp only [Bool.false_eq_true, if_false, Option.bind_some]
    rw [show ((Query.getDomainListByName name).rows s.conn.view).head? = _ from hrow]
    cases hl : s.conn.view.listNamed name with
    | none =>
      have hfound : s.listFound name withDomains = {} := by
        simp [listFound, hl]
      rw [hfound]
      exact ⟨s.after s.conn 1, rfl, by cases withDomains <;> rfl⟩
    | some l =>
      have hid : l.id ≠ 0 := by
        have := s.conn.view.list_id_pos l (Db.listNamed_eq_some.mp hl).1
        omega
      cases withDomains with
      | false =>
        have hfound : s.listFound name false = DomainList.fromRow l := by
          simp [listFound, hl]
        rw [hfound]
        refine ⟨s.after s.conn 1, ?_, rfl⟩
        change Option.bind ((s.after s.conn 1).exec (if (decide (l.id ≠ 0) && false) = true
          then _ else _)) _ = _
        rw [Bool.and_false]
        rfl
      | true =>
        obtain ⟨rows, s', hrun, hc⟩ := exec_collect (s.after s.conn 1) (.getDomains l.id) hs
        have hrows := hc.readable_eq.1
        have hfound : s.listFound name true =
            { DomainList.fromRow l with domains := [] ++ rows } := by
          rw [hc.readable_eq.1, List.nil_append, listFound, hl]
          rfl
        rw [hfound]
        refine ⟨s', ?_, rows, hc⟩
        change Option.bind ((s.after s.conn 1).exec (if (decide (l.id ≠ 0) && true) = true
          then DomainManager.get l.id >>= _ else _)) _ = _
        rw [decide_eq_true hid, if_pos (by rfl), exec_bind, DomainManager.get, hrun]
        rfl

open DomainListManager in
theorem exec_create (name url description : String) (custom : Bool) (hs : s.held = false) :
    ∃ r s', Created name url description custom s r s' ∧
      s.exec (create name url description custom) =
        some (r.elim (.error .nullDereference) .ok, s') := by
  obtain ⟨r, done, s₁, hrun, hr, h⟩ := exec_transaction s
    [.insertOrIgnoreDomainList (effectiveName name) url description custom] hs
  have hheld : s₁.held = false := h.held_eq.trans hs
  rw [create, exec_catchRuntime, exec_bind]
  change ∃ r s', _ ∧ Option.bind (Option.bind (s.exec (transaction
    [.insertOrIgnoreDomainList (effectiveName name) url description custom])) _) _ = _
  rw [hrun]
  rcases hr with ⟨rfl, rfl⟩ | ⟨e, rfl, rfl⟩
  · change ∃ r s', _ ∧ Option.bind (s₁.exec (getByName (effectiveName name) false >>= _)) _ = _
    rw [exec_bind, exec_getListByName s₁ _ hheld]
    cases hf : s₁.ambient.faulty with
    | true => exact ⟨none, _, .crashed s₁ h hf, rfl⟩
    | false =>
      obtain ⟨l, hl, hview⟩ : ∃ l, s₁.conn.file.listNamed (effectiveName name) = some l ∧
          s₁.conn.view = s₁.conn.file := by
        cases h with
        | committed db _ _ hdb =>
          cases hdb
          obtain ⟨l, hl⟩ := s.conn.file.ensureList_exists (effectiveName name) url description custom
          exact ⟨l, hl, rfl⟩
      refine ⟨some l.id, _, .created s₁ l h hf hl, ?_⟩
      rw [hview, hl]
      rfl
  · exact ⟨some 0, s₁, .failed s₁ h, rfl⟩

open DomainListManager in
theorem exec_importList (lst : DomainList) (custom : Bool) (hs : s.held = false) :
    ∃ r s₁, Created lst.name lst.url (lst.description.getD "") custom s r s₁ ∧
      match r with
      | none => s.exec (importList lst custom) = some (.error .nullDereference, s₁)
      | some id => ∃ done s', s.exec (importList lst custom) = some (.ok done, s') ∧
          Transacted (importStmts lst id) s₁ done s' := by
  obtain ⟨r, s₁, hcreated, hrun⟩ :=
    exec_create s lst.name lst.url (lst.description.getD "") custom hs
  refine ⟨r, s₁, hcreated, ?_⟩
  rw [importList, exec_catchRuntime, exec_bind, hrun]
  cases r with
  | none => rfl
  | some id =>
    obtain ⟨r', done, s', hrun', hr', h⟩ :=
      exec_transaction s₁ (importStmts lst id) (hcreated.held_eq.trans hs)
    refine ⟨done, s', ?_, h⟩
    change Option.bind (s₁.exec (transaction (importStmts lst id) >>= _)) _ = _
    rw [exec_bind, hrun']
    rcases hr' with ⟨rfl, rfl⟩ | ⟨e, rfl, rfl⟩ <;> rfl

open DomainManager in
/-- Blocking into a list given by its id. -/
theorem exec_blockDomains (env : Env) (domains : List String) {listId : Int} (hid : listId ≠ 0)
    (hvalid : filterValid env domains ≠ []) (hs : s.held = false) :
    ∃ done s', s.exec (blockDomains env domains listId) = some (.ok done, s') ∧
      Transacted (blockStmts (filterValid env domains) listId) s done s' := by
  rw [blockDomains_eq hvalid hid]
  exact exec_committed s _ hs

open DomainManager DomainListManager in
/-- Blocking into the list `CUSTOM`. -/
theorem exec_blockDomains_zero (env : Env) (domains : List String)
    (hvalid : filterValid env domains ≠ []) (hs : s.held = false) :
    ∃ r s₁, Created "CUSTOM" "" "Custom list" true s r s₁ ∧
      match r with
      | none => s.exec (blockDomains env domains 0) = some (.error .nullDereference, s₁)
      | some id => ∃ done s', s.exec (blockDomains env domains 0) = some (.ok done, s') ∧
          Transacted (blockStmts (filterValid env domains) id) s₁ done s' := by
  obtain ⟨r, s₁, hcreated, hrun⟩ := exec_create s "CUSTOM" "" "Custom list" true hs
  have hprog : blockDomains env domains 0 = create "CUSTOM" "" "Custom list" true >>= fun id =>
      committed (blockStmts (filterValid env domains) id) := by
    simp only [blockDomains, List.isEmpty_iff, if_neg hvalid, if_true]
  refine ⟨r, s₁, hcreated, ?_⟩
  rw [hprog, exec_bind, hrun]
  cases r with
  | none => rfl
  | some id => exact exec_committed s₁ _ (hcreated.held_eq.trans hs)

open DomainManager in
theorem exec_unblockDomains (env : Env) (domains : List String)
    (hvalid : filterValid env domains ≠ []) (hs : s.held = false) :
    ∃ done s', s.exec (unblockDomains env domains) = some (.ok done, s') ∧
      Transacted ((filterValid env domains).map .insertOrReplaceWhitelisted) s done s' := by
  rw [unblockDomains_eq hvalid]
  exact exec_committed s _ hs

open DomainManager in
/-- Without a valid name nothing is asked of the database. -/
theorem exec_unblockDomains_nil (env : Env) {domains : List String}
    (hvalid : filterValid env domains = []) :
    s.exec (unblockDomains env domains) = some (.ok false, s) := by
  simp only [unblockDomains, hvalid, List.isEmpty_nil, if_true]
  rfl

open DomainManager in
theorem exec_blockDomains_nil (env : Env) {domains : List String} (listId : Int)
    (hvalid : filterValid env domains = []) :
    s.exec (blockDomains env domains listId) = some (.ok false, s) := by
  simp only [blockDomains, hvalid, List.isEmpty_nil, if_true]
  rfl

end Store

namespace Store

variable {s : Store} (q : Query) (total : List q.Row → Int)

theorem exec_countRows_busy (hs : s.held = false) (hbusy : s.ambient.faulty = true) :
    s.exec (countRows q total) = some (.ok 0, s.afterRaise s.conn 1) := by
  obtain ⟨conn, held, amb⟩ := s
  simp only at hs
  subst hs
  let s₀ : Store := ⟨conn, true, amb⟩
  have hbegin : s₀.attempt .begin = (.error .busy, s₀.afterRaise conn 1) := attempt_busy hbusy
  rw [countRows, exec_catchRuntime, exec_withSession _ _ rfl, exec_bind, Session.begin, exec_sql,
    hbegin]
  rfl

theorem exec_countRows_quiet (hs : s.held = false) (hidle : s.conn.tx = none)
    (hquiet : s.ambient.Quiet 3) :
    s.exec (countRows q total) = some (.ok (total (q.rows s.conn.file)), s.after s.conn 3) := by
  obtain ⟨⟨file, tx⟩, held, amb⟩ := s
  simp only at hs hidle
  subst hs hidle
  obtain ⟨hquiet, hf₂⟩ := Ambient.quiet_last.mp hquiet
  obtain ⟨hquiet, hf₁⟩ := Ambient.quiet_last.mp hquiet
  let s₀ : Store := ⟨⟨file, none⟩, true, amb⟩
  let c : Connection := ⟨file, some file⟩
  have hf₀ : s₀.ambient.faulty = false := (Ambient.quiet_succ.mp hquiet).1
  have hf₁ : (s₀.after c 1).ambient.faulty = false := hf₁
  have hf₂ : ((s₀.after c 1).after c 1).ambient.faulty = false := by
    rw [after_after]
    exact hf₂
  have hbegin : s₀.attempt .begin = (.ok (), s₀.after c 1) := attempt_ok hf₀ rfl
  have hquery : (s₀.after c 1).attempt (.query q) =
      (.ok (q.rows file), (s₀.after c 1).after c 1) := attempt_ok hf₁ rfl
  have hcommit : ((s₀.after c 1).after c 1).attempt .commit =
      (.ok (), ((s₀.after c 1).after c 1).after ⟨file, none⟩ 1) := attempt_ok hf₂ rfl
  rw [countRows, exec_catchRuntime, exec_withSession _ _ rfl, exec_bind, Session.begin, exec_sql,
    hbegin]
  change Option.bind (Option.map _ ((s₀.after c 1).exec (sql 0 (.query q) >>= _))) _ = _
  rw [exec_bind, exec_sql, hquery]
  change Option.bind (Option.map _ (((s₀.after c 1).after c 1).exec (sql 0 .commit >>= _))) _ = _
  rw [exec_bind, exec_sql, hcommit]
  simp only [after_after]
  rfl

end Store

/-! ## Imports of a client that finds the database free -/

namespace DomainListManager

def ensured (lst : DomainList) (custom : Bool) (db : Db) : Db :=
  db.ensureList (effectiveName lst.name) lst.url (lst.description.getD "") custom

/-- The tables after an import: the list of the given name exists and owns every imported
name, and its `mtime` is now. -/
structure Imported (lst : DomainList) (custom : Bool) (now : Int) (db db' : Db)
    (l : DomainListRow) : Prop where
  target : (ensured lst custom db).listNamed (effectiveName lst.name) = some l
  lists : db'.domainLists = ((ensured lst custom db).touchList l.id now).domainLists
  owner : ∀ m, db'.owner m =
    if m ∈ lst.domains.map Domain.name then some l.id else db.owner m
  settings : db'.settings = db.settings
  stats : db'.statsDomains = db.statsDomains

theorem runAll_importStmts (lst : DomainList) (custom : Bool) (now : Int) (db : Db)
    {l : DomainListRow}
    (hl : (ensured lst custom db).listNamed (effectiveName lst.name) = some l) :
    ∃ db', Stmt.runAll now (importStmts lst l.id) (ensured lst custom db) = .ok db' ∧
      Imported lst custom now db db' l := by
  obtain ⟨db₁, hrun, hsame, howner⟩ := Stmt.runAll_insertOrReplace now
    (lst.domains.map Domain.name) ⟨l, (Db.listNamed_eq_some.mp hl).1, rfl⟩
  refine ⟨db₁.touchList l.id now, ?_, hl, ?_, ?_, ?_, ?_⟩
  · rw [importStmts, Stmt.runAll_append, hrun]
    rfl
  · exact congrArg (List.map _) hsame.lists
  · intro m
    exact (howner m).trans (by rw [ensured, Db.ensureList_owner])
  · exact hsame.settings.trans (Db.ensureList_settings db)
  · exact hsame.stats.trans (Db.ensureList_stats db)

end DomainListManager

namespace Store

open DomainListManager in
theorem exec_importList_free {s : Store} (hs : s.IsFree) (hidle : s.conn.tx = none)
    (lst : DomainList) (custom : Bool) :
    ∃ db' l, s.exec (importList lst custom) = some (.ok true, { s with conn := ⟨db', none⟩ }) ∧
      Imported lst custom s.ambient.now s.conn.file db' l := by
  obtain ⟨r, s₁, hcreated, hrun⟩ := exec_importList s lst custom hs.released
  obtain ⟨l, hl, rfl, rfl⟩ := hcreated.of_quiet hidle (Ambient.quiet_of_no_faults hs.faults 4)
  obtain ⟨done, s', hexec, ht⟩ := hrun
  rw [after_of_no_faults _ _ _ hs.faults] at ht
  obtain ⟨db', hall, himported⟩ := runAll_importStmts lst custom s.ambient.now s.conn.file hl
  obtain ⟨rfl, rfl⟩ := ht.of_quiet rfl (Ambient.quiet_of_no_faults hs.faults _) hall
  refine ⟨db', l, ?_, himported⟩
  rw [hexec, after_of_no_faults _ _ _ (by exact hs.faults)]

open DomainListManager in
/-- On a connection with an open transaction both transactions of an import are refused. -/
theorem exec_importList_open {s : Store} (hs : s.IsFree) (hopen : s.conn.tx ≠ none)
    (lst : DomainList) (custom : Bool) :
    ∃ s', s.exec (importList lst custom) = some (.ok false, s') ∧ s'.IsFree ∧
      s'.conn = s.conn ∧ s'.ambient.replies = s.ambient.replies := by
  obtain ⟨r, s₁, hcreated, hrun⟩ := exec_importList s lst custom hs.released
  cases hcreated with
  | failed _ h =>
    obtain ⟨_, rfl⟩ := h.of_open hopen
    obtain ⟨done, s', hexec, ht⟩ := hrun
    obtain ⟨rfl, rfl⟩ := ht.of_open hopen
    exact ⟨_, hexec, ⟨hs.released, by simp [hs.faults, Ambient.skip, Ambient.raise]⟩, rfl, rfl⟩
  | crashed _ h => cases (h.of_open hopen).1
  | created _ _ h => cases (h.of_open hopen).1

end Store

/-! ## Imports of a client that finds the database busy -/

/-- The lookup of `create` finds the database busy after its insert was committed. -/
def Store.LosesList (s : Store) : Prop :=
  s.conn.tx = none ∧ s.ambient.Quiet 3 ∧ (s.ambient.skip 3).faulty = true

theorem DomainListManager.Created.eq_none_iff {name url description : String} {custom : Bool}
    {s s' : Store} {r : Option Int} (h : Created name url description custom s r s') :
    r = none ↔ s.LosesList := by
  constructor
  · rintro rfl
    cases h with
    | crashed s₁ h hbusy =>
      obtain ⟨hidle, hquiet, db, hrun⟩ := h.done_iff.mp rfl
      obtain ⟨_, rfl⟩ := h.of_quiet hidle hquiet hrun
      exact ⟨hidle, hquiet, hbusy⟩
  · rintro ⟨hidle, hquiet, hbusy⟩
    cases h with
    | failed s₁ h => cases (h.of_quiet hidle hquiet rfl).1
    | crashed => rfl
    | created s₁ l h hfree _ =>
      obtain ⟨_, rfl⟩ := h.of_quiet hidle hquiet rfl
      change (s.ambient.skip 3).faulty = false at hfree
      rw [hbusy] at hfree
      cases hfree

/-- The null pointer, for the faults that a connection still meets. -/
def LosesList (access : Option (List Bool)) : Prop :=
  ∃ faults ∈ access, true ∉ faults.take 3 ∧ (faults.drop 3).headD false = true

/-- An import of `n` names commits: nothing finds the database busy, or the list could not be
created and there was no name to give to it. -/
def Commits (n : Nat) (access : Option (List Bool)) : Prop :=
  ∃ faults ∈ access, true ∉ faults.take (n + 7) ∨
    n = 0 ∧ faults.headD false = true ∧ true ∉ (faults.drop 1).take 3

/-- What an import of `n` names leaves of an idle connection. -/
def afterImport (n : Nat) (faults : List Bool) : Option (List Bool) :=
  if true ∉ faults.take 3 then afterTransaction (n + 1) (faults.drop 4)
  else if faults.headD false = true then
    -- there is no list: the foreign key refuses the first name
    if n = 0 then afterTransaction 1 (faults.drop 1)
    else if (faults.drop 1).headD false = true then some (faults.drop 2)
    else none
  else none

namespace Store

open DomainListManager

variable {s s₁ s' : Store} {lst : DomainList} {done : Bool}

theorem losesList_iff : s.LosesList ↔ DblService.LosesList s.access := by
  constructor
  · rintro ⟨hidle, hquiet, hbusy⟩
    exact ⟨s.ambient.faults, access_idle hidle, hquiet, hbusy⟩
  · rintro ⟨faults, haccess, hquiet, hbusy⟩
    by_cases hidle : s.conn.tx = none
    · rw [access_idle hidle] at haccess
      cases haccess
      exact ⟨hidle, hquiet, hbusy⟩
    · rw [access_open hidle] at haccess
      cases haccess

private theorem access_of_refused (ht : Transacted (importStmts lst 0) s₁ done s')
    (hidle : s₁.conn.tx = none) : (done = true ↔ lst.domains.length = 0 ∧ s₁.ambient.Quiet 3) ∧
      s'.access = if lst.domains.length = 0 then afterTransaction 1 s₁.ambient.faults
        else if s₁.ambient.faulty = true then some (s₁.ambient.faults.drop 1) else none := by
  cases hnames : lst.domains with
  | nil =>
    have hstmts : importStmts lst 0 = [.updateMtime 0] := by rw [importStmts, hnames]; rfl
    rw [hstmts] at ht
    have hrun : Stmt.runAll s₁.ambient.now [.updateMtime 0] s₁.conn.file =
        .ok (s₁.conn.file.touchList 0 s₁.ambient.now) := rfl
    refine ⟨?_, ht.access_eq hidle hrun⟩
    rw [ht.done_iff, hrun]
    simp [hidle]
  | cons d ds =>
    have hnone : ¬ ∃ l ∈ s₁.conn.file.domainLists, l.id = 0 := by
      rintro ⟨l, hl, hid⟩
      have := s₁.conn.file.list_id_pos l hl
      omega
    have hrun : Stmt.runAll s₁.ambient.now (importStmts lst 0) s₁.conn.file =
        .error .foreignKey := by
      rw [importStmts, hnames]
      change Except.bind (Stmt.run s₁.ambient.now s₁.conn.file (.insertOrReplaceDomain d.name 0)) _ = _
      rw [Stmt.run, dif_neg hnone]
      rfl
    obtain ⟨rfl, haccess⟩ := ht.access_of_error hidle hrun
    exact ⟨by simp, by simpa using haccess⟩

private theorem access_of_quiet {custom : Bool} {id : Int}
    (hcreated : Created lst.name lst.url (lst.description.getD "") custom s (some id) s₁)
    (ht : Transacted (importStmts lst id) s₁ done s') (hidle : s.conn.tx = none)
    (hquiet : s.ambient.Quiet 3) (hfound : ¬ s.LosesList) :
    (done = true ↔ Commits lst.domains.length (some s.ambient.faults)) ∧
      s'.access = afterImport lst.domains.length s.ambient.faults := by
  have hnames : (importStmts lst id).length = lst.domains.length + 1 := by simp [importStmts]
  have hhead : ¬ s.ambient.faulty = true := by simp [(Ambient.quiet_succ.mp hquiet).1]
  have hquiet₄ : s.ambient.Quiet 4 := by
    refine Ambient.quiet_last.mpr ⟨hquiet, ?_⟩
    rw [← Bool.not_eq_true]
    exact fun hbusy => hfound ⟨hidle, hquiet, hbusy⟩
  obtain ⟨l, hl, hid, rfl⟩ := hcreated.of_quiet hidle hquiet₄
  cases hid
  obtain ⟨db', hall, _⟩ := runAll_importStmts lst custom s.ambient.now s.conn.file hl
  have haccess := ht.access_eq rfl hall
  rw [hnames] at haccess
  refine ⟨?_, haccess.trans (if_pos hquiet).symm⟩
  have hcommits : Commits lst.domains.length (some s.ambient.faults) ↔
      s.ambient.Quiet (4 + (lst.domains.length + 1 + 2)) := by
    rw [show 4 + (lst.domains.length + 1 + 2) = lst.domains.length + 7 by omega]
    constructor
    · rintro ⟨faults, ⟨⟩, hfree | ⟨_, hbusy, _⟩⟩
      · exact hfree
      · exact absurd hbusy hhead
    · exact fun hfree => ⟨_, rfl, Or.inl hfree⟩
  rw [hcommits, Ambient.quiet_add, ht.done_iff, hnames]
  constructor
  · exact fun h => ⟨hquiet₄, h.2.1⟩
  · exact fun h => ⟨rfl, h.2, db', hall⟩

private theorem access_of_busy {custom : Bool} {id : Int}
    (hcreated : Created lst.name lst.url (lst.description.getD "") custom s (some id) s₁)
    (ht : Transacted (importStmts lst id) s₁ done s') (hidle : s.conn.tx = none)
    (hbusy : ¬ s.ambient.Quiet 3) :
    (done = true ↔ Commits lst.domains.length (some s.ambient.faults)) ∧
      s'.access = afterImport lst.domains.length s.ambient.faults := by
  have hnot : ¬ s.ambient.Quiet (lst.domains.length + 7) := fun h => hbusy (h.mono (by omega))
  have hcommits : Commits lst.domains.length (some s.ambient.faults) ↔
      lst.domains.length = 0 ∧ s.ambient.faulty = true ∧ (s.ambient.skip 1).Quiet 3 := by
    constructor
    · rintro ⟨faults, ⟨⟩, hfree | hrest⟩
      · exact absurd hfree hnot
      · exact hrest
    · exact fun h => ⟨_, rfl, Or.inr h⟩
  have hafter : afterImport lst.domains.length s.ambient.faults =
      if s.ambient.faulty = true then
        if lst.domains.length = 0 then afterTransaction 1 (s.ambient.skip 1).faults
        else if (s.ambient.skip 1).faulty = true then some ((s.ambient.skip 1).faults.drop 1)
        else none
      else none := by
    have hdrop : s.ambient.faults.drop 2 = (s.ambient.faults.drop 1).drop 1 := by
      rw [List.drop_drop]
    unfold afterImport
    rw [if_neg (show ¬ true ∉ s.ambient.faults.take 3 from hbusy), hdrop]
    rfl
  rw [hcommits, hafter]
  cases hcreated with
  | created _ _ h => exact absurd (h.done_iff.mp rfl).2.1 hbusy
  | failed _ h =>
    cases hf : s.ambient.faulty with
    | true =>
      obtain ⟨_, rfl⟩ := h.of_busy hf
      obtain ⟨hdone, haccess⟩ := access_of_refused ht hidle
      rw [if_pos rfl]
      exact ⟨by simpa using hdone, haccess⟩
    | false =>
      have hopen : s₁.conn.tx ≠ none := h.stays_open hidle hf
      obtain ⟨rfl, rfl⟩ := ht.of_open hopen
      exact ⟨by simp, access_open hopen⟩

/-- What an import does to a connection is decided by the number of its names and by the
faults. -/
theorem exec_importList_access (hs : s.held = false) (lst : DomainList) (custom : Bool)
    (hfound : ¬ s.LosesList) :
    ∃ done s', s.exec (importList lst custom) = some (.ok done, s') ∧ s'.held = false ∧
      s'.ambient.replies = s.ambient.replies ∧
      (done = true ↔ Commits lst.domains.length s.access) ∧
      s'.access = s.access.bind (afterImport lst.domains.length) := by
  obtain ⟨r, s₁, hcreated, hrun⟩ := s.exec_importList lst custom hs
  obtain ⟨id, rfl⟩ : ∃ id, r = some id :=
    Option.ne_none_iff_exists'.mp fun hr => hfound (hcreated.eq_none_iff.mp hr)
  obtain ⟨done, s', hexec, ht⟩ := hrun
  have hreplies₁ : s₁.ambient.replies = s.ambient.replies := by
    cases hcreated with
    | failed _ h => exact h.replies_eq
    | created _ _ h => exact h.replies_eq
  refine ⟨done, s', hexec, ht.held_eq.trans (hcreated.held_eq.trans hs),
    ht.replies_eq.trans hreplies₁, ?_⟩
  by_cases hidle : s.conn.tx = none
  · rw [access_idle hidle]
    by_cases hquiet : s.ambient.Quiet 3
    · exact access_of_quiet hcreated ht hidle hquiet hfound
    · exact access_of_busy hcreated ht hidle hquiet
  · -- both transactions are refused
    have hopen : s₁.conn.tx ≠ none := by
      cases hcreated with
      | failed _ h => rw [(h.of_open hidle).2]; exact hidle
      | created _ _ h => cases (h.of_open hidle).1
    obtain ⟨rfl, rfl⟩ := ht.of_open hopen
    rw [access_open hidle, access_open (by exact hopen)]
    refine ⟨iff_of_false (by decide) ?_, rfl⟩
    rintro ⟨faults, hnone, _⟩
    cases hnone

end Store

/-! ## What the managers keep -/

namespace Store

open Framework.Code DomainListManager DomainManager

variable {J : Connection → Prop} {A : Option Response → Prop}

theorem keeps_getDomainByName (name : String) :
    Keeps handle (Holds J A) (DomainManager.getByName name) :=
  keeps_catchRuntime ((keeps_queryOne _).bind fun _ => Keeps.pure _) fun _ => Keeps.pure _

theorem keeps_getListByName (name : String) (withDomains : Bool) :
    Keeps handle (Holds J A) (DomainListManager.getByName name withDomains) := by
  refine keeps_catchRuntime ((keeps_queryOne _).bind ?_) fun _ => Keeps.pure _
  intro row
  dsimp only
  split_ifs
  · exact (keeps_collect _).bind fun _ => Keeps.pure _
  · exact Keeps.pure _

theorem keeps_create {name url description : String} {custom : Bool}
    (hJ : Preserves J [.insertOrIgnoreDomainList (effectiveName name) url description custom]) :
    Keeps handle (Holds J A) (create name url description custom) := by
  refine keeps_catchRuntime ((keeps_transaction hJ).bind fun _ =>
    (keeps_getListByName _ _).bind ?_) fun _ => Keeps.pure _
  intro l
  cases l with
  | none => exact Keeps.throw _
  | some l => exact Keeps.pure _

theorem keeps_importList {lst : DomainList} {custom : Bool}
    (hlist : Preserves J [.insertOrIgnoreDomainList (effectiveName lst.name) lst.url
      (lst.description.getD "") custom])
    (hstmts : ∀ id, Preserves J (importStmts lst id)) :
    Keeps handle (Holds J A) (importList lst custom) :=
  keeps_catchRuntime
    ((keeps_create hlist).bind fun id =>
      (keeps_transaction (hstmts id)).bind fun _ => Keeps.pure _)
    fun _ => Keeps.pure _

theorem keeps_blockDomains {env : Env} {domains : List String} {listId : Int}
    (hlist : Preserves J [.insertOrIgnoreDomainList "CUSTOM" "" "Custom list" true])
    (hstmts : ∀ id, Preserves J (blockStmts (filterValid env domains) id)) :
    Keeps handle (Holds J A) (blockDomains env domains listId) := by
  simp only [blockDomains]
  split_ifs
  · exact Keeps.pure _
  · have hcreate : Keeps handle (Holds J A) (create "CUSTOM" "" "Custom list" true) :=
      keeps_create hlist
    exact hcreate.bind fun id => keeps_committed (hstmts id)
  · exact (Keeps.pure _).bind fun id => keeps_committed (hstmts id)

theorem keeps_unblockDomains {env : Env} {domains : List String}
    (hstmts : Preserves J ((filterValid env domains).map .insertOrReplaceWhitelisted)) :
    Keeps handle (Holds J A) (unblockDomains env domains) := by
  simp only [unblockDomains]
  split_ifs
  · exact Keeps.pure _
  · exact keeps_committed hstmts

end Store

end DblService
