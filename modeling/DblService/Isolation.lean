import DblService.Framework.Run
import DblService.Manager.DomainManager
import DblService.Manager.SettingsManager

/-!
# Operations over the pool

Store operations run one after the other over the pool.  An operation has failed
when a statement of it raised, whatever it returned.  A failed operation leaves no
trace as long as it fails at the `begin` of every transaction it starts.
-/

namespace DblService

open Framework Session

inductive StoreOp
  | block (domains : List String) (listId : Int)
  | unblock (domains : List String)
  | create (name url description : String) (custom : Bool)
  | importList (lst : DomainList) (custom : Bool)
  | remove (name : String)
  | setEnabled (name : String) (enabled : Bool)
  | setSetting (key value : String)
  | removeSetting (key : String)
  | logDomainHit (domain : String)
  | countLists
  | countBlocked
  | getSetting (key default : String)
  | getDomains (listId : Int)
  | getDomain (name : String)
  | getBlocked
  | getWhitelisted
  | getLists
  | getList (name : String) (withDomains : Bool)

inductive Value
  | unit
  | bool (b : Bool)
  | int (n : Int)
  | text (s : String)
  | domain (d : Option Domain)
  | domains (ds : List Domain)
  | list (l : Option DomainList)
  | lists (ls : List DomainList)
  deriving DecidableEq

/-- The result of an operation and how many of its statements raised. -/
structure Outcome where
  result : Option (Except Exc Value)
  raised : Nat
  deriving DecidableEq

def Outcome.failed (o : Outcome) : Bool := o.raised ≠ 0

namespace StoreOp

def code (env : Env) : StoreOp → Code Value
  | .block domains listId => .bool <$> DomainManager.blockDomains env domains listId
  | .unblock domains => .bool <$> DomainManager.unblockDomains env domains
  | .create name url description custom =>
    .int <$> DomainListManager.create name url description custom
  | .importList lst custom => .bool <$> DomainListManager.importList lst custom
  | .remove name => .bool <$> DomainListManager.remove name
  | .setEnabled name enabled => .bool <$> DomainListManager.setEnabled name enabled
  | .setSetting key value => .bool <$> SettingsManager.set key value
  | .removeSetting key => .bool <$> SettingsManager.remove key
  | .logDomainHit domain => (fun _ => .unit) <$> Logger.logDomainHit domain
  | .countLists => .int <$> DomainListManager.count
  | .countBlocked => .int <$> DomainManager.countBlocked
  | .getSetting key default => .text <$> SettingsManager.get key default
  | .getDomains listId => .domains <$> DomainManager.get listId
  | .getDomain name => .domain <$> DomainManager.getByName name
  | .getBlocked => .domains <$> DomainManager.getBlocked
  | .getWhitelisted => .domains <$> DomainManager.getWhitelisted
  | .getLists => .lists <$> DomainListManager.get
  | .getList name withDomains => .list <$> DomainListManager.getByName name withDomains

/-- One operation over the pool, in its own surroundings. -/
def step (env : Env) (e : StoreOp × Ambient) (w : Pool) : Outcome × Pool :=
  match Framework.Code.exec Pool.handle (e.1.code env)
      { w with ambient := { e.2 with raised := 0 } } with
  | some (r, w') => (⟨some r, w'.ambient.raised⟩, { w' with ambient := {} })
  | none => (⟨none, 0⟩, w)

def TxSafe (stmts : List Stmt) (db : Db) (a : Ambient) : Prop :=
  a.faulty = true ∨
    (a.Quiet (stmts.length + 2) ∧ ∃ db', Stmt.runAll a.now stmts db = .ok db')

/-- The two transactions of an operation that creates a list first: both raise nowhere, or
both at their `begin`. -/
def TwiceSafe (n : Nat) (a : Ambient) : Prop :=
  (a.faulty = true ∧ (a.skip 1).faulty = true) ∨ a.Quiet n

/-- The operation leaves no trace if it fails. -/
def Harmless (env : Env) (db : Db) (a : Ambient) : StoreOp → Prop
  | .block domains listId =>
    let valid := DomainManager.filterValid env domains
    valid = [] ∨
      if listId = 0 then TwiceSafe (4 + (2 * valid.length + 2)) a
      else TxSafe (DomainManager.blockStmts valid listId) db a
  | .unblock domains =>
    let valid := DomainManager.filterValid env domains
    valid = [] ∨ TxSafe (valid.map .insertOrReplaceWhitelisted) db a
  | .create _ _ _ _ => a.faulty = true ∨ a.Quiet 4
  | .importList lst _ => TwiceSafe (4 + (lst.domains.length + 3)) a
  | .remove _ | .setEnabled _ _ | .setSetting _ _ | .removeSetting _ | .countLists
  | .countBlocked => a.faulty = true ∨ a.Quiet 3
  | .logDomainHit _ => a.faulty = true ∨ a.Quiet 4
  | _ => True

end StoreOp

namespace Store

/-- The operation ends on an idle connection, which is untouched if a statement raised. -/
def Settles {α : Type} (s : Store) (p : Code α) : Prop :=
  ∃ r s', s.exec p = some (r, s') ∧ s'.held = false ∧ s'.conn.tx = none ∧
    (s'.ambient.raised ≠ s.ambient.raised → s'.conn = s.conn)

variable {α β : Type} {s : Store}

theorem Settles.map {p : Code α} (h : s.Settles p) (f : α → β) : s.Settles (f <$> p) := by
  obtain ⟨r, s', hrun, hrest⟩ := h
  refine ⟨r.map f, s', ?_, hrest⟩
  unfold Store.exec at hrun ⊢
  rw [Framework.Code.exec_map, hrun]
  rfl

private theorem settles_committed {stmts : List Stmt} (hs : s.held = false)
    (hidle : s.conn.tx = none) (h : StoreOp.TxSafe stmts s.conn.file s.ambient)
    : s.Settles (committed stmts) := by
  obtain ⟨done, s', hrun, ht⟩ := exec_committed s stmts hs
  refine ⟨_, s', hrun, ht.held_eq.trans hs, ?_⟩
  rcases h with hbusy | ⟨hquiet, db, hdb⟩
  · obtain ⟨_, rfl⟩ := ht.of_busy hbusy
    exact ⟨hidle, fun _ => rfl⟩
  · obtain ⟨_, rfl⟩ := ht.of_quiet hidle hquiet hdb
    exact ⟨rfl, fun h => absurd rfl h⟩

private theorem settles_collect (q : Query) (hs : s.held = false) (hidle : s.conn.tx = none) :
    s.Settles (collect q) := by
  obtain ⟨rows, s', hrun, hc⟩ := exec_collect s q hs
  have hconn := hc.conn_eq
  exact ⟨_, s', hrun, hc.held_eq.trans hs, hconn ▸ hidle, fun _ => hconn⟩

private theorem settles_countRows (q : Query) (total : List q.Row → Int) (hs : s.held = false)
    (hidle : s.conn.tx = none) (h : s.ambient.faulty = true ∨ s.ambient.Quiet 3) :
    s.Settles (countRows q total) := by
  rcases h with hbusy | hquiet
  · exact ⟨_, _, exec_countRows_busy q total hs hbusy, hs, hidle, fun _ => rfl⟩
  · exact ⟨_, _, exec_countRows_quiet q total hs hidle hquiet, hs, hidle, fun _ => rfl⟩

private theorem settles_settingsGet (key default : String) (hs : s.held = false)
    (hidle : s.conn.tx = none) : s.Settles (SettingsManager.get key default) := by
  rw [Settles, exec_settingsGet s key default hs]
  split_ifs
  · exact ⟨_, _, rfl, hs, hidle, fun _ => rfl⟩
  · exact ⟨_, _, rfl, hs, hidle, fun _ => rfl⟩

private theorem settles_getDomainByName (name : String) (hs : s.held = false)
    (hidle : s.conn.tx = none) : s.Settles (DomainManager.getByName name) := by
  rw [Settles, exec_getDomainByName s name hs]
  split_ifs
  · exact ⟨_, _, rfl, hs, hidle, fun _ => rfl⟩
  · exact ⟨_, _, rfl, hs, hidle, fun _ => rfl⟩

private theorem settles_getListByName (name : String) (withDomains : Bool) (hs : s.held = false)
    (hidle : s.conn.tx = none) : s.Settles (DomainListManager.getByName name withDomains) := by
  rw [Settles, DomainListManager.getByName, exec_catchRuntime, exec_bind, exec_queryOne s _ hs]
  cases hf : s.ambient.faulty with
  | true => exact ⟨_, _, rfl, hs, hidle, fun _ => rfl⟩
  | false =>
    let l : DomainList := ((Query.getDomainListByName name).rows s.conn.view).head?.getD {}
    let t := s.after s.conn 1
    change ∃ r s', Option.bind (t.exec (if l.id ≠ 0 && withDomains then _ else _)) _ = _ ∧ _
    split_ifs
    · obtain ⟨rows, s', hrun, hc⟩ := exec_collect t (.getDomains l.id) hs
      rw [exec_bind, DomainManager.get, hrun]
      have hconn : s'.conn = s.conn := hc.conn_eq
      exact ⟨_, s', rfl, hc.held_eq.trans hs, hconn ▸ hidle, fun _ => hconn⟩
    · exact ⟨_, t, rfl, hs, hidle, fun _ => rfl⟩

open DomainListManager in
private theorem settles_create (name url description : String) (custom : Bool) (hs : s.held = false)
    (hidle : s.conn.tx = none) (h : s.ambient.faulty = true ∨ s.ambient.Quiet 4) :
    s.Settles (create name url description custom) := by
  obtain ⟨r, s', hcreated, hrun⟩ := exec_create s name url description custom hs
  refine ⟨_, s', hrun, hcreated.held_eq.trans hs, ?_⟩
  rcases h with hbusy | hquiet
  · obtain ⟨_, rfl⟩ := hcreated.of_busy hbusy
    exact ⟨hidle, fun _ => rfl⟩
  · obtain ⟨l, _, _, rfl⟩ := hcreated.of_quiet hidle hquiet
    exact ⟨rfl, fun h => absurd rfl h⟩

private theorem Settles.of_created {α : Type} {p : Code α} {name url description : String}
    {custom : Bool} (stmts : Int → List Stmt) (n : Nat) (hs : s.held = false)
    (hidle : s.conn.tx = none) (hlength : ∀ id, (stmts id).length = n)
    (hstmts : ∀ (now : Int) (db : Db) (l : DomainListRow), l ∈ db.domainLists →
      ∃ db', Stmt.runAll now (stmts l.id) db = .ok db')
    (h : StoreOp.TwiceSafe (4 + (n + 2)) s.ambient) {r : Option Int} {s₁ : Store}
    (hcreated : DomainListManager.Created name url description custom s r s₁)
    (hrun : ∀ id, r = some id → ∃ r' done s', s.exec p = some (r', s') ∧
      Transacted (stmts id) s₁ done s') : s.Settles p := by
  rcases h with ⟨hbusy, hbusy'⟩ | hquiet
  · obtain ⟨rfl, rfl⟩ := hcreated.of_busy hbusy
    obtain ⟨r', done, s', hexec, ht⟩ := hrun 0 rfl
    obtain ⟨_, rfl⟩ := ht.of_busy hbusy'
    exact ⟨r', _, hexec, hs, hidle, fun _ => rfl⟩
  · obtain ⟨hquiet₄, hquiet'⟩ := Ambient.quiet_add.mp hquiet
    obtain ⟨l, hl, rfl, rfl⟩ := hcreated.of_quiet hidle hquiet₄
    obtain ⟨r', done, s', hexec, ht⟩ := hrun l.id rfl
    obtain ⟨db', hdb'⟩ := hstmts s.ambient.now _ l (Db.listNamed_eq_some.mp hl).1
    rw [← hlength l.id] at hquiet'
    obtain ⟨_, rfl⟩ := ht.of_quiet rfl hquiet' hdb'
    exact ⟨r', _, hexec, hs, rfl, fun h => absurd rfl h⟩

open DomainListManager in
private theorem settles_importList (lst : DomainList) (custom : Bool) (hs : s.held = false)
    (hidle : s.conn.tx = none) (h : StoreOp.TwiceSafe (4 + (lst.domains.length + 3)) s.ambient) :
    s.Settles (importList lst custom) := by
  obtain ⟨r, s₁, hcreated, hrun⟩ := exec_importList s lst custom hs
  refine Settles.of_created (importStmts lst) (lst.domains.length + 1) hs hidle
    (fun id => by simp [importStmts]) ?_ h hcreated ?_
  · intro now db l hl
    obtain ⟨db₁, hrun, _⟩ := Stmt.runAll_insertOrReplace now
      (lst.domains.map Domain.name) ⟨l, hl, rfl⟩
    refine ⟨db₁.touchList l.id now, ?_⟩
    rw [importStmts, Stmt.runAll_append, hrun]
    rfl
  · intro id hid
    subst hid
    obtain ⟨done, s', hexec, ht⟩ := hrun
    exact ⟨_, done, s', hexec, ht⟩

open DomainManager in
private theorem settles_blockDomains (env : Env) (domains : List String) (listId : Int)
    (hs : s.held = false) (hidle : s.conn.tx = none)
    (h : StoreOp.Harmless env s.conn.file s.ambient (.block domains listId)) :
    s.Settles (blockDomains env domains listId) := by
  by_cases hvalid : filterValid env domains = []
  · exact ⟨_, s, exec_blockDomains_nil s env listId hvalid, hs, hidle, fun _ => rfl⟩
  have h := h.resolve_left hvalid
  by_cases hid : listId = 0
  · subst hid
    rw [if_pos rfl] at h
    obtain ⟨r, s₁, hcreated, hrun⟩ := exec_blockDomains_zero s env domains hvalid hs
    refine Settles.of_created (blockStmts (filterValid env domains)) _ hs hidle
      (fun id => by simp [blockStmts, Nat.two_mul]) ?_ h hcreated
      ?_
    · intro now db l hl
      obtain ⟨db', hrun, _⟩ :=
        Stmt.runAll_block now (filterValid env domains) ⟨l, hl, rfl⟩
      exact ⟨db', hrun⟩
    · intro id hid
      subst hid
      obtain ⟨done, s', hexec, ht⟩ := hrun
      exact ⟨_, done, s', hexec, ht⟩
  · rw [if_neg hid] at h
    rw [blockDomains_eq hvalid hid]
    exact settles_committed hs hidle h

open DomainManager in
private theorem settles_unblockDomains (env : Env) (domains : List String) (hs : s.held = false)
    (hidle : s.conn.tx = none) (h : StoreOp.Harmless env s.conn.file s.ambient (.unblock domains)) :
    s.Settles (unblockDomains env domains) := by
  by_cases hvalid : filterValid env domains = []
  · exact ⟨_, s, exec_unblockDomains_nil s env hvalid, hs, hidle, fun _ => rfl⟩
  · rw [unblockDomains_eq hvalid]
    exact settles_committed hs hidle (h.resolve_left hvalid)

private theorem Settles.of_logDomainHit (domain : String) (hs : s.held = false)
    (hidle : s.conn.tx = none) (h : s.ambient.faulty = true ∨ s.ambient.Quiet 4) :
    s.Settles (Logger.logDomainHit domain) := by
  have hsafe : StoreOp.TxSafe [.insertOrIgnoreStats domain, .incrementHits domain] s.conn.file
      s.ambient := h.imp_right fun hquiet => ⟨hquiet, _, rfl⟩
  obtain ⟨r, s', hrun, hrest⟩ := settles_committed hs hidle hsafe
  refine ⟨r.map fun _ => (), s', ?_, hrest⟩
  rw [Logger.logDomainHit, exec_bind, hrun]
  cases r <;> rfl

private theorem settles_code {env : Env} {op : StoreOp} (hs : s.held = false)
    (hidle : s.conn.tx = none) (h : op.Harmless env s.conn.file s.ambient) : s.Settles (op.code env)
    := by
  have hone {st : Stmt} (hst : ∃ db', st.run s.ambient.now s.conn.file = .ok db')
      (h : s.ambient.faulty = true ∨ s.ambient.Quiet 3) :
      StoreOp.TxSafe [st] s.conn.file s.ambient := by
    obtain ⟨db', hdb'⟩ := hst
    exact h.imp_right fun hquiet => ⟨hquiet, db', by simp [Stmt.runAll_cons, hdb', Except.bind]⟩
  cases op with
  | block domains listId => exact (settles_blockDomains env domains listId hs hidle h).map _
  | unblock domains => exact (settles_unblockDomains env domains hs hidle h).map _
  | create name url description custom =>
    exact (settles_create name url description custom hs hidle h).map _
  | importList lst custom => exact (settles_importList lst custom hs hidle h).map _
  | remove name => exact (settles_committed hs hidle (hone ⟨_, rfl⟩ h)).map _
  | setEnabled name enabled => exact (settles_committed hs hidle (hone ⟨_, rfl⟩ h)).map _
  | setSetting key value => exact (settles_committed hs hidle (hone ⟨_, rfl⟩ h)).map _
  | removeSetting key => exact (settles_committed hs hidle (hone ⟨_, rfl⟩ h)).map _
  | logDomainHit domain => exact (Settles.of_logDomainHit domain hs hidle h).map _
  | countLists => exact (settles_countRows _ _ hs hidle h).map _
  | countBlocked => exact (settles_countRows _ _ hs hidle h).map _
  | getSetting key default => exact (settles_settingsGet key default hs hidle).map _
  | getDomains listId => exact (settles_collect _ hs hidle).map _
  | getDomain name => exact (settles_getDomainByName name hs hidle).map _
  | getBlocked => exact (settles_collect _ hs hidle).map _
  | getWhitelisted => exact (settles_collect _ hs hidle).map _
  | getLists => exact (settles_collect _ hs hidle).map _
  | getList name withDomains => exact (settles_getListByName name withDomains hs hidle).map _

end Store

/-! ## Runs -/

/-- Every connection is in the pool and outside a transaction. -/
structure Pool.Idle (w : Pool) : Prop where
  slots : ∃ rest, w.slots = {} :: rest
  idle : ∀ slot ∈ w.slots, slot = {}
  ambient : w.ambient = {}

namespace StoreOp

theorem step_idle {env : Env} {e : StoreOp × Ambient} {w : Pool} (hw : w.Idle)
    (h : e.1.Harmless env w.file e.2) :
    (step env e w).2.Idle ∧ ((step env e w).1.failed = true → (step env e w).2 = w) := by
  obtain ⟨op, a⟩ := e
  obtain ⟨file, slots, ambient⟩ := w
  obtain ⟨rest, rfl⟩ := hw.slots
  obtain rfl : ambient = {} := hw.ambient
  let s : Store := ⟨⟨file, none⟩, false, { a with raised := 0 }⟩
  have hs : op.Harmless env s.conn.file s.ambient := by
    cases op <;> exact h
  obtain ⟨r, s', hrun, hheld, hidle, hsame⟩ := Store.settles_code rfl rfl hs
  have hpool := Store.exec_pool rest hrun
  have hstep : step env (op, a) ⟨file, {} :: rest, {}⟩ =
      (⟨some r, s'.ambient.raised⟩, { s'.pool rest with ambient := {} }) := by
    unfold step
    change (match Framework.Code.exec Pool.handle (op.code env) (s.pool rest) with
      | some (r, w') => ((⟨some r, w'.ambient.raised⟩ : Outcome), { w' with ambient := {} })
      | none => (⟨none, 0⟩, ⟨file, {} :: rest, {}⟩)) = _
    rw [hpool]
    rfl
  have hslots : (s'.pool rest).slots = {} :: rest := by
    rw [Store.pool, hheld, hidle]
  rw [hstep]
  refine ⟨⟨⟨rest, hslots⟩, ?_, rfl⟩, ?_⟩
  · intro slot hslot
    exact hw.idle slot (hslots ▸ hslot)
  · intro hfailed
    have hraised : s'.ambient.raised ≠ s.ambient.raised := of_decide_eq_true hfailed
    have hconn : s'.conn = ⟨file, none⟩ := hsame hraised
    rw [Store.pool, hheld, hconn]

/-- In a run of harmless operations, deleting those that failed changes neither the results
of the others nor the tables, and no connection is left in a transaction. -/
theorem run_delete_failed (env : Env) (es : List (StoreOp × Ambient)) (w : Pool) (hw : w.Idle)
    (h : Along (step env) (fun e w => e.1.Harmless env w.file e.2) es w) :
    runEvents (step env) (surviving (step env) Outcome.failed es w) w =
        ((runEvents (step env) es w).1.filter fun o => !o.failed, (runEvents (step env) es w).2) ∧
      (runEvents (step env) es w).2.Idle := by
  constructor
  · apply Along.delete
    exact h.mono (fun e w hw he => step_idle hw he) hw
  · exact h.invariant (fun e w hw he => (step_idle hw he).1) hw

/-- A blocked name, a busy database at the start of the next operation, and a read. -/
theorem run_delete_failed_busy_begin :
    let es : List (StoreOp × Ambient) :=
      [(.block ["ads.example"] 1, {}), (.remove "CUSTOM", { faults := [true] }), (.getBlocked, {})]
    let w : Pool := { file := Db.seeded, slots := [{}, {}] }
    let env := .ofTexts []
    w.Idle ∧ Along (step env) (fun e w => e.1.Harmless env w.file e.2) es w ∧
      runEvents (step env) (surviving (step env) Outcome.failed es w) w =
        ((runEvents (step env) es w).1.filter fun o => !o.failed, (runEvents (step env) es w).2) ∧
      (runEvents (step env) es w).2.Idle := by
  intro es w env
  have hw : w.Idle := ⟨⟨[{}], rfl⟩, by simp [w], rfl⟩
  have hblock : TxSafe (DomainManager.blockStmts ["ads.example"] 1) Db.seeded {} := by
    refine Or.inr ⟨Ambient.quiet_of_no_faults rfl _, ?_⟩
    obtain ⟨db', hrun, _⟩ := Stmt.runAll_block 0 ["ads.example"]
      (⟨⟨1, "CUSTOM", "", "Custom, uncategorized list", true, true, false, 0⟩, by decide, rfl⟩ :
        ∃ l ∈ Db.seeded.domainLists, l.id = 1)
    exact ⟨db', hrun⟩
  have h : Along (step env) (fun e w => e.1.Harmless env w.file e.2) es w :=
    ⟨Or.inr hblock, Or.inl rfl, trivial, trivial⟩
  exact ⟨hw, h, run_delete_failed env es w hw h⟩

/-- A block that fails at its `commit` is read by the next operation, and its connection goes
back into the pool with the transaction open. -/
theorem run_delete_failed_busy_commit :
    let es : List (StoreOp × Ambient) :=
      [(.block ["ads.example"] 1, { faults := [false, false, false, true] }), (.getBlocked, {})]
    let w : Pool := { file := Db.seeded, slots := [{}, {}] }
    let env := .ofTexts []
    w.Idle ∧
      (runEvents (step env) (surviving (step env) Outcome.failed es w) w).1 ≠
        ((runEvents (step env) es w).1.filter fun o => !o.failed) ∧
      ∃ slot ∈ (runEvents (step env) es w).2.slots, slot.tx.isSome := by
  intro es w env
  refine ⟨⟨⟨[{}], rfl⟩, by simp [w], rfl⟩, ?_, ?_⟩
  · decide +kernel
  · decide +kernel

end StoreOp

end DblService
