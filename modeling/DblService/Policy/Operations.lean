import DblService.Framework.Simulation
import DblService.Policy.Tables

/-!
# The operations on the policy

The operations of the managers and the start of the program take statements, transactions and a
pool, and each of them may fail.  Whatever fails, a run of them is a run of operations on the
policy, and the listings read the policy off.
-/

namespace DblService

open Framework Session

/-! ## The operations -/

/-- The operations on lists and domains as the program calls them, and its start on the existing
file. -/
inductive PolicyOp
  | create (name url description : String) (custom : Bool)
  | importList (lst : DomainList) (custom : Bool)
  | block (domains : List String)
  | unblock (domains : List String)
  | setEnabled (name : String) (enabled : Bool)
  | remove (name : String)
  | restart

namespace PolicyOp

open DomainListManager DomainManager

def code (env : Env) : PolicyOp → Code Bool
  | .create name url description custom => do
    let id ← DomainListManager.create name url description custom
    pure (id ≠ 0)
  | .importList lst custom => DomainListManager.importList lst custom
  | .block domains => blockDomains env domains 0
  | .unblock domains => unblockDomains env domains
  | .setEnabled name enabled => DomainListManager.setEnabled name enabled
  | .remove name => DomainListManager.remove name
  | .restart => do
    DB.init
    pure true

/-- One operation on the connection, whatever its surroundings do.  A start opens the file anew,
and a start that fails ends the process. -/
def step (env : Env) (e : PolicyOp × Ambient) (c : Connection) :
    Option (Except Exc Bool) × Connection :=
  match e.1 with
  | .restart =>
    let x := (⟨c.file, none⟩ : Connection).perform e.2 (e.1.code env)
    (x.1, ⟨x.2.file, none⟩)
  | op => c.perform e.2 (op.code env)

theorem step_of_ne_restart (env : Env) {op : PolicyOp} (h : op ≠ .restart) (ambient : Ambient)
    (c : Connection) : step env (op, ambient) c = c.perform ambient (op.code env) := by
  cases op
  case restart => exact absurd rfl h
  all_goals rfl

/-- The list an operation makes first. -/
noncomputable def begun (P : Policy) : PolicyOp → Policy
  | .create name url description custom =>
    P.ensure (effectiveName name) { url, description, active := true, custom, isWhitelist := false }
  | .importList lst custom =>
    P.ensure (effectiveName lst.name)
      { url := lst.url, description := lst.description.getD "", active := true, custom
        isWhitelist := false }
  | .block _ =>
    P.ensure "CUSTOM"
      { url := "", description := "Custom list", active := true, custom := true
        isWhitelist := false }
  | _ => P

open Classical in
noncomputable def effect (env : Env) (P : Policy) : PolicyOp → Policy
  | .create name url description custom => begun P (.create name url description custom)
  | .importList lst custom =>
    (begun P (.importList lst custom)).assign (· ∈ lst.domains.map Domain.name)
      (effectiveName lst.name)
  | .block domains =>
    (begun P (.block domains)).claim (fun a => a.isWhitelist = true)
      (· ∈ filterValid env domains) "CUSTOM"
  | .unblock domains => P.assign (· ∈ filterValid env domains) "WHITELIST"
  | .setEnabled name enabled => P.adjust name fun a => { a with active := enabled }
  | .remove name => P.dissolve name
  | .restart =>
    if ∀ n, P.group n = none then
      (P.ensure "CUSTOM"
        { url := "", description := "Custom, uncategorized list", active := true, custom := true
          isWhitelist := false }).ensure "WHITELIST"
        { url := "", description := "Custom, default whitelist", active := true, custom := true
          isWhitelist := true }
    else P

/-- No domain would change its list. -/
def Idle (env : Env) (P : Policy) : PolicyOp → Prop
  | .importList lst _ => lst.domains = []
  | .block domains => ∀ m ∈ filterValid env domains, P.Keeps m
  | _ => False

/-- How an operation can be answered, and what it leaves. -/
inductive Outcome (env : Env) (op : PolicyOp) : Option (Except Exc Bool) → Policy → Policy → Prop
  | whole {P : Policy} : Outcome env op (some (.ok true)) P (op.effect env P)
  -- the list could not be made, and no domain needed it
  | nothing {P : Policy} (h : op.Idle env P) : Outcome env op (some (.ok true)) P P
  | refused {P : Policy} {r : Option (Except Exc Bool)} (hr : r ≠ some (.ok true)) :
    Outcome env op r P P
  | begun {P : Policy} {r : Option (Except Exc Bool)} (hr : r ≠ some (.ok true)) :
    Outcome env op r P (op.begun P)

end PolicyOp

/-! ## What the transactions leave in the file -/

private theorem Stmt.runAll_insertOrIgnore_taken (now : Int) {db : Db} {names : List String}
    (h : ∀ m ∈ names, m ∈ db.domains.map DomainRow.name) (listId : Int) :
    runAll now (names.map (insertOrIgnoreDomain · listId)) db = .ok db := by
  induction names with
  | nil => rfl
  | cons name names ih =>
    have hrun : (insertOrIgnoreDomain name listId).run now db = .ok db :=
      if_pos (h name List.mem_cons_self)
    rw [List.map_cons, runAll_cons, hrun]
    exact ih fun m hm => h m (List.mem_cons_of_mem _ hm)

/-- Blocking names that a whitelist keeps. -/
theorem Stmt.runAll_block_kept (now : Int) {db : Db} {names : List String}
    (h : ∀ m ∈ names, db.IsWhitelisted m) (listId : Int) :
    ∃ db', runAll now (DomainManager.blockStmts names listId) db = .ok db' ∧
      db'.policy = db.policy := by
  obtain ⟨db', hdelete, hsame, howner⟩ := runAll_deleteUnlessWhitelisted now db names
  have hkept (m : String) : db'.owner m = db.owner m := by
    rw [howner]
    exact if_neg fun hm => hm.2 (h m hm.1)
  refine ⟨db', ?_, Db.policy_congr hsame hkept⟩
  rw [DomainManager.blockStmts, runAll_append, hdelete]
  apply runAll_insertOrIgnore_taken
  intro m hm
  obtain ⟨l, _, hl, _⟩ := h m hm
  rw [← Db.owner_isSome, hkept, hl]
  rfl

namespace Stmt

variable (now : Int) {db : Db} {n : String} {l : DomainListRow}

/-- The names of an import go to its list. -/
theorem runAll_import_policy (lst : DomainList) (hl : db.listNamed n = some l) :
    ∃ db', runAll now (DomainListManager.importStmts lst l.id) db = .ok db' ∧
      db'.policy = db.policy.assign (· ∈ lst.domains.map Domain.name) n := by
  obtain ⟨hmem, hname⟩ := Db.listNamed_eq_some.mp hl
  obtain ⟨db₁, hall, hsame, howner⟩ :=
    runAll_insertOrReplace now (lst.domains.map Domain.name) ⟨l, hmem, rfl⟩
  have hpolicy := Db.policy_assign (· ∈ lst.domains.map Domain.name) hmem hsame
    (fun m hm => (howner m).trans (if_pos hm)) (fun m hm => (howner m).trans (if_neg hm))
  refine ⟨db₁.touchList l.id now, ?_, ?_⟩
  · rw [DomainListManager.importStmts, runAll_append, hall]
    rfl
  · rw [Db.policy_touchList, hpolicy, hname]

/-- The names of a block go to its list, unless a whitelist keeps them. -/
theorem runAll_block_policy (names : List String) (hl : db.listNamed n = some l) :
    ∃ db', runAll now (DomainManager.blockStmts names l.id) db = .ok db' ∧
      db'.policy = db.policy.claim (fun a => a.isWhitelist = true) (· ∈ names) n := by
  obtain ⟨hmem, hname⟩ := Db.listNamed_eq_some.mp hl
  obtain ⟨db', hall, hsame, howner⟩ := runAll_block now names ⟨l, hmem, rfl⟩
  have hpolicy := Db.policy_assign (fun m => m ∈ names ∧ ¬ db.policy.Keeps m) hmem hsame
    (fun m hm => (howner m).trans (if_pos (by rwa [Db.policy_keeps] at hm)))
    (fun m hm => (howner m).trans (if_neg (by rwa [Db.policy_keeps] at hm)))
  refine ⟨db', hall, ?_⟩
  rw [hpolicy, hname]
  rfl

theorem runAll_whitelist_policy (names : List String) (hl : db.listNamed "WHITELIST" = some l) :
    ∃ db', runAll now (names.map insertOrReplaceWhitelisted) db = .ok db' ∧
      db'.policy = db.policy.assign (· ∈ names) "WHITELIST" := by
  obtain ⟨hmem, hname⟩ := Db.listNamed_eq_some.mp hl
  obtain ⟨db', hall, hsame, howner⟩ := runAll_whitelist now names hl
  have hpolicy := Db.policy_assign (· ∈ names) hmem hsame
    (fun m hm => (howner m).trans (if_pos hm)) (fun m hm => (howner m).trans (if_neg hm))
  exact ⟨db', hall, by rw [hpolicy, hname]⟩

end Stmt

namespace Transacted

variable {stmts : List Stmt} {s s' : Store}

theorem file_of_failed (h : Transacted stmts s false s') : s'.conn.file = s.conn.file := by
  cases h <;> rfl

theorem file_of_done (h : Transacted stmts s true s') :
    ∃ db, Stmt.runAll s.ambient.now stmts s.conn.file = .ok db ∧ s'.conn = ⟨db, none⟩ := by
  cases h with
  | committed db _ _ hrun => exact ⟨db, hrun, rfl⟩

end Transacted

private theorem DomainListManager.Created.file_cases {name url description : String} {custom : Bool}
    {s s' : Store} {r : Option Int} (h : Created name url description custom s r s') :
    (r = some 0 ∧ s'.conn.file = s.conn.file) ∨
      s'.conn.file = s.conn.file.ensureList (effectiveName name) url description custom ∧
        (r = none ∨ ∃ l, s'.conn.file.listNamed (effectiveName name) = some l ∧ r = some l.id) := by
  have hmade {s₁ : Store} (ht : Transacted
      [.insertOrIgnoreDomainList (effectiveName name) url description custom] s true s₁) :
      s₁.conn.file = s.conn.file.ensureList (effectiveName name) url description custom := by
    obtain ⟨db, hrun, hconn⟩ := ht.file_of_done
    cases hrun
    rw [hconn]
  cases h with
  | failed _ ht => exact Or.inl ⟨rfl, ht.file_of_failed⟩
  | crashed s₁ ht _ =>
    have hfile := hmade ht
    exact Or.inr ⟨hfile, Or.inl rfl⟩
  | created s₁ l ht _ hl =>
    have hfile := hmade ht
    exact Or.inr ⟨hfile, Or.inr ⟨l, hl, rfl⟩⟩

namespace PolicyOp

open DomainListManager DomainManager

variable {env : Env} {s s' : Store} {r : Except Exc Bool}

private theorem outcome_create {name url description : String} {custom : Bool} (hs : s.held = false)
    (hrun : s.exec ((PolicyOp.create name url description custom).code env) = some (r, s')) :
    Outcome env (.create name url description custom) (some r) s.conn.file.policy
      s'.conn.file.policy := by
  obtain ⟨id, s₁, hcreated, hexec⟩ := Store.exec_create s name url description custom hs
  rw [code, Store.exec_bind, hexec] at hrun
  rcases hcreated.file_cases with ⟨rfl, hfile⟩ | ⟨hfile, rfl | ⟨l, hl, rfl⟩⟩
  · cases hrun
    rw [hfile]
    exact .refused (by decide)
  · cases hrun
    rw [hfile, Db.policy_ensureList]
    exact .begun (by decide)
  · have hid : l.id ≠ 0 := fun h0 =>
      s₁.conn.file.no_list_zero ⟨l, (Db.listNamed_eq_some.mp hl).1, h0⟩
    cases hrun
    simp only [hfile, Db.policy_ensureList, ne_eq, hid, not_false_eq_true, decide_true]
    exact .whole

private theorem outcome_importList {lst : DomainList} {custom : Bool} (hs : s.held = false)
    (hrun : s.exec ((PolicyOp.importList lst custom).code env) = some (r, s')) :
    Outcome env (.importList lst custom) (some r) s.conn.file.policy s'.conn.file.policy := by
  obtain ⟨id, s₁, hcreated, hexec⟩ := s.exec_importList lst custom hs
  rcases hcreated.file_cases with ⟨rfl, hfile⟩ | ⟨hfile, rfl | ⟨l, hl, rfl⟩⟩
  · -- the list was not made: only an import without domains can end
    obtain ⟨done, s₂, hexec, ht⟩ := hexec
    rw [code, hexec] at hrun
    cases hrun
    cases done with
    | false =>
      rw [ht.file_of_failed, hfile]
      exact .refused (by decide)
    | true =>
      obtain ⟨db, hall, hconn⟩ := ht.file_of_done
      by_cases hnil : lst.domains = []
      · rw [importStmts, hnil] at hall
        cases hall
        rw [hconn, Db.policy_touchList, hfile]
        exact .nothing hnil
      · have hnames : lst.domains.map Domain.name ≠ [] := by simpa using hnil
        rw [importStmts, Stmt.runAll_insertOrReplace_error _ hnames s₁.conn.file.no_list_zero]
          at hall
        cases hall
  · rw [code, hexec] at hrun
    cases hrun
    rw [hfile, Db.policy_ensureList]
    exact .begun (by decide)
  · obtain ⟨done, s₂, hexec, ht⟩ := hexec
    rw [code, hexec] at hrun
    cases hrun
    cases done with
    | false =>
      rw [ht.file_of_failed, hfile, Db.policy_ensureList]
      exact .begun (by decide)
    | true =>
      obtain ⟨db, hall, hconn⟩ := ht.file_of_done
      obtain ⟨db', hall', hpolicy⟩ := Stmt.runAll_import_policy s₁.ambient.now lst hl
      rw [hall'] at hall
      cases hall
      rw [hconn, hpolicy, hfile, Db.policy_ensureList]
      exact .whole

private theorem outcome_block {domains : List String} (hs : s.held = false)
    (hrun : s.exec ((PolicyOp.block domains).code env) = some (r, s')) :
    Outcome env (.block domains) (some r) s.conn.file.policy s'.conn.file.policy := by
  by_cases hvalid : filterValid env domains = []
  · rw [code, s.exec_blockDomains_nil env 0 hvalid] at hrun
    cases hrun
    exact .refused (by decide)
  obtain ⟨id, s₁, hcreated, hexec⟩ := s.exec_blockDomains_zero env domains hvalid hs
  rcases hcreated.file_cases with ⟨rfl, hfile⟩ | ⟨hfile, rfl | ⟨l, hl, rfl⟩⟩
  · -- the list was not made: only names that a whitelist keeps can be blocked
    obtain ⟨done, s₂, hexec, ht⟩ := hexec
    rw [code, hexec] at hrun
    cases hrun
    cases done with
    | false =>
      rw [ht.file_of_failed, hfile]
      exact .refused (by decide)
    | true =>
      obtain ⟨db, hall, hconn⟩ := ht.file_of_done
      have hkept : ∀ m ∈ filterValid env domains, s₁.conn.file.IsWhitelisted m := by
        intro m hm
        by_contra hfree
        exact s₁.conn.file.no_list_zero (BlockOp.list_of_blockStmts ht hm hfree)
      obtain ⟨db', hall', hpolicy⟩ := Stmt.runAll_block_kept s₁.ambient.now hkept 0
      rw [hall'] at hall
      cases hall
      rw [hconn, hpolicy, hfile]
      apply Outcome.nothing
      intro m hm
      rw [Db.policy_keeps, ← hfile]
      exact hkept m hm
  · rw [code, hexec] at hrun
    cases hrun
    rw [hfile, Db.policy_ensureList]
    exact .begun (by decide)
  · obtain ⟨done, s₂, hexec, ht⟩ := hexec
    rw [code, hexec] at hrun
    cases hrun
    cases done with
    | false =>
      rw [ht.file_of_failed, hfile, Db.policy_ensureList]
      exact .begun (by decide)
    | true =>
      obtain ⟨db, hall, hconn⟩ := ht.file_of_done
      obtain ⟨db', hall', hpolicy⟩ :=
        Stmt.runAll_block_policy s₁.ambient.now (filterValid env domains) hl
      rw [hall'] at hall
      cases hall
      rw [hconn, hpolicy, hfile, Db.policy_ensureList]
      exact .whole

private theorem outcome_unblock {domains : List String} (hs : s.held = false)
    (hrun : s.exec ((PolicyOp.unblock domains).code env) = some (r, s')) :
    Outcome env (.unblock domains) (some r) s.conn.file.policy s'.conn.file.policy := by
  by_cases hvalid : filterValid env domains = []
  · rw [code, s.exec_unblockDomains_nil env hvalid] at hrun
    cases hrun
    exact .refused (by decide)
  obtain ⟨done, s₁, hexec, ht⟩ := s.exec_unblockDomains env domains hvalid hs
  rw [code, hexec] at hrun
  cases hrun
  cases done with
  | false =>
    rw [ht.file_of_failed]
    exact .refused (by decide)
  | true =>
    obtain ⟨db, hall, hconn⟩ := ht.file_of_done
    cases hl : s.conn.file.listNamed "WHITELIST" with
    | none =>
      rw [Stmt.runAll_whitelist_error _ hvalid hl] at hall
      cases hall
    | some l =>
      obtain ⟨db', hall', hpolicy⟩ :=
        Stmt.runAll_whitelist_policy s.ambient.now (filterValid env domains) hl
      rw [hall'] at hall
      cases hall
      rw [hconn, hpolicy]
      exact .whole

private theorem outcome_committed {op : PolicyOp} (st : Stmt) (left : Db → Db) (hs : s.held = false)
    (hstmt : ∀ now db, st.run now db = .ok (left db))
    (hpolicy : ∀ db, (left db).policy = op.effect env db.policy)
    (hcode : op.code env = committed [st])
    (hrun : s.exec (op.code env) = some (r, s')) :
    Outcome env op (some r) s.conn.file.policy s'.conn.file.policy := by
  obtain ⟨done, s₁, hexec, ht⟩ := Store.exec_committed s [st] hs
  rw [hcode, hexec] at hrun
  cases hrun
  cases done with
  | false =>
    rw [ht.file_of_failed]
    exact .refused (by decide)
  | true =>
    obtain ⟨db, hall, hconn⟩ := ht.file_of_done
    rw [Stmt.runAll_cons, hstmt] at hall
    cases hall
    rw [hconn, hpolicy]
    exact .whole

end PolicyOp

/-! ## The start -/

def Stmt.seeds : List Stmt :=
  [.seedDomainList "CUSTOM" "Custom, uncategorized list" false,
    .seedDomainList "WHITELIST" "Custom, default whitelist" true]

/-- The statements of `DB::init` once it has counted the lists. -/
def Stmt.firstRows (lists : Int) : List Stmt := if lists = 0 then seeds else []

theorem DB.init_eq : DB.init = (withSession fun c => do
    begin c
    [Stmt.createTable, .createTable, .createTable, .createTable].forM (exec c)
    let rows ← sql c (.query .countDomainLists)
    (Stmt.firstRows (rows.headD 0)).forM (exec c)
    commit c) := by
  unfold DB.init Stmt.firstRows
  congr 1
  funext c
  congr 1
  funext _
  congr 1
  funext _
  congr 1
  funext rows
  split_ifs with h
  · simp [Stmt.seeds]
  · simp

private theorem Db.lists_nil_iff {db : Db} :
    db.domainLists = [] ↔ ∀ n, db.policy.group n = none := by
  constructor
  · intro h n
    rw [policy_group, listNamed, h]
    rfl
  · intro h
    apply List.eq_nil_iff_forall_not_mem.mpr
    intro l hl
    have hnone := h l.name
    rw [policy_group, listNamed_eq_some.mpr ⟨hl, rfl⟩] at hnone
    cases hnone

private theorem Stmt.runAll_firstRows (env : Env) (now : Int) (db : Db) :
    ∃ db', runAll now (firstRows db.domainLists.length) db = .ok db' ∧
      db'.policy = PolicyOp.effect env db.policy .restart := by
  by_cases hnil : db.domainLists = []
  · have hcustom : "CUSTOM" ∉ db.domainLists.map DomainListRow.name := by simp [hnil]
    let db₁ := db.appendList "CUSTOM" "" "Custom, uncategorized list" true false hcustom
    have hwhitelist : "WHITELIST" ∉ db₁.domainLists.map DomainListRow.name := by
      simp [db₁, Db.appendList, Db.newList, hnil]
    let db' := db₁.appendList "WHITELIST" "" "Custom, default whitelist" true true hwhitelist
    have hrows : firstRows db.domainLists.length = seeds := by
      simp [firstRows, hnil]
    have hfirst : (seedDomainList "CUSTOM" "Custom, uncategorized list" false).run now db =
        .ok db₁ := dif_neg hcustom
    have hsecond : (seedDomainList "WHITELIST" "Custom, default whitelist" true).run now db₁ =
        .ok db' := dif_neg hwhitelist
    refine ⟨db', ?_, ?_⟩
    · rw [hrows, seeds, runAll_cons, hfirst]
      change runAll now [_] db₁ = _
      rw [runAll_cons, hsecond]
      rfl
    · rw [Db.policy_appendList, Db.policy_appendList, PolicyOp.effect,
        if_pos (Db.lists_nil_iff.mp hnil)]
  · have hrows : firstRows db.domainLists.length = [] := by
      simp [firstRows, hnil]
    refine ⟨db, by rw [hrows]; rfl, ?_⟩
    rw [PolicyOp.effect, if_neg fun hall => hnil (Db.lists_nil_iff.mpr hall)]

private theorem Ambient.faults_of_faulty {a : Ambient} {n : Nat} (h : (a.skip n).faulty = true) :
    a.faults ≠ [] := by
  intro hnone
  simp [faulty, skip, hnone] at h

private theorem Ambient.faults_of_not_quiet {a : Ambient} {n : Nat} (h : ¬ a.Quiet n) :
    a.faults ≠ [] :=
  fun hnone => h (quiet_of_no_faults hnone n)

namespace Store

/-- The end of a transaction: it is committed, or the file stays as it was. -/
theorem exec_closing (s : Store) (stmts : List Stmt) {db : Db} (htx : s.conn.tx = some db) :
    ∃ r s', s.exec (do stmts.forM (Session.exec 0); commit 0) = some (r, s') ∧
      ((r = .ok () ∧ ∃ db', Stmt.runAll s.ambient.now stmts db = .ok db' ∧
          s'.conn = ⟨db', none⟩) ∨
        (∃ e, r = .error e) ∧ s'.conn.file = s.conn.file ∧
          (s.ambient.faults ≠ [] ∨ ∃ e, Stmt.runAll s.ambient.now stmts db = .error e)) := by
  rw [exec_bind]
  rcases exec_stmts stmts s db htx with ⟨db', hrun, hall, _⟩ | ⟨i, e, db', hrun, _, _, _, hwhy⟩
  · rw [hrun]
    let s₁ := s.after ⟨s.conn.file, some db'⟩ stmts.length
    change ∃ r s', s₁.exec (sql 0 .commit) = _ ∧ _
    rw [exec_sql]
    cases hc : s₁.ambient.faulty with
    | true =>
      rw [attempt_busy hc]
      exact ⟨_, _, rfl, Or.inr ⟨⟨_, rfl⟩, rfl, Or.inl (Ambient.faults_of_faulty hc)⟩⟩
    | false =>
      rw [attempt_ok hc (show s₁.conn.answer _ .commit = .ok ((), ⟨db', none⟩) from rfl)]
      exact ⟨_, _, rfl, Or.inl ⟨rfl, db', hall, rfl⟩⟩
  · rw [hrun]
    exact ⟨_, _, rfl, Or.inr ⟨⟨_, rfl⟩, rfl, hwhy.imp Ambient.faults_of_not_quiet id⟩⟩

/-- `DB::init` on an idle connection: its rows are there, or a statement found the database busy
and the file stays as it was. -/
theorem exec_init (s : Store) (hs : s.held = false) (hidle : s.conn.tx = none) :
    ∃ r s', s.exec DB.init = some (r, s') ∧
      ((r = .ok () ∧ ∃ db, Stmt.runAll s.ambient.now
          (Stmt.firstRows s.conn.file.domainLists.length) s.conn.file = .ok db ∧
          s'.conn = ⟨db, none⟩) ∨
        (∃ e, r = .error e) ∧ s'.conn.file = s.conn.file ∧ s.ambient.faults ≠ []) := by
  obtain ⟨⟨file, tx⟩, held, ambient⟩ := s
  simp only at hs hidle
  subst hs hidle
  rw [DB.init_eq, exec_withSession _ _ rfl, exec_bind, Session.begin, exec_sql]
  let s₀ : Store := ⟨⟨file, none⟩, true, ambient⟩
  change ∃ r s', Option.map _ (Option.bind (some ((s₀.attempt .begin).1.mapError Exc.sql,
    (s₀.attempt .begin).2)) _) = some (r, s') ∧ _
  cases hbegin : s₀.ambient.faulty with
  | true =>
    rw [attempt_busy hbegin]
    exact ⟨_, _, rfl, Or.inr ⟨⟨_, rfl⟩, rfl, Ambient.faults_of_faulty (n := 0) hbegin⟩⟩
  | false =>
  let s₁ := s₀.after ⟨file, some file⟩ 1
  have hfaults : s₁.ambient.faults ≠ [] → ambient.faults ≠ [] := by
    intro h hnone
    simp [s₁, s₀, Ambient.skip, hnone] at h
  rw [attempt_ok hbegin (show s₀.conn.answer _ .begin = .ok ((), ⟨file, some file⟩) from rfl)]
  change ∃ r s', Option.map _ (s₁.exec (_ >>= _)) = some (r, s') ∧ _
  rw [exec_bind]
  have hcreate :=
    exec_stmts [Stmt.createTable, .createTable, .createTable, .createTable] s₁ file rfl
  rcases hcreate with ⟨db₁, hrun, hall, _⟩ | ⟨i, e, db₁, hrun, _, _, _, hwhy⟩
  · cases hall
    rw [hrun]
    let s₂ := s₁.after ⟨file, some file⟩ 4
    change ∃ r s', Option.map _ (s₂.exec (sql 0 (.query .countDomainLists) >>= _)) =
      some (r, s') ∧ _
    rw [exec_bind, exec_sql]
    cases hcount : s₂.ambient.faulty with
    | true =>
      rw [attempt_busy hcount]
      exact ⟨_, _, rfl, Or.inr ⟨⟨_, rfl⟩, rfl, hfaults (Ambient.faults_of_faulty hcount)⟩⟩
    | false =>
      rw [attempt_ok hcount (show s₂.conn.answer _ (.query .countDomainLists) =
        .ok ([(file.domainLists.length : Int)], s₂.conn) from rfl)]
      obtain ⟨r, s', hexec, hend⟩ := exec_closing (s₂.after s₂.conn 1)
        (Stmt.firstRows file.domainLists.length) (show _ = some file from rfl)
      refine ⟨r, { s' with held := false }, congrArg (Option.map _) hexec, ?_⟩
      refine hend.imp id ?_
      rintro ⟨herror, hfile, hbusy | ⟨e, he⟩⟩
      · refine ⟨herror, hfile, hfaults ?_⟩
        intro hnone
        simp [s₂, Ambient.skip, hnone] at hbusy
      · obtain ⟨db', hrows, _⟩ := Stmt.runAll_firstRows (.ofTexts []) ambient.now file
        cases hrows.symm.trans he
  · rw [hrun]
    refine ⟨_, _, rfl, Or.inr ⟨⟨_, rfl⟩, rfl, hfaults ?_⟩⟩
    rcases hwhy with hwhy | ⟨e, he⟩
    · exact Ambient.faults_of_not_quiet hwhy
    · cases he

end Store

namespace PolicyOp

variable {env : Env}

theorem outcome_restart {s s' : Store} {r : Except Exc Bool} (hs : s.held = false)
    (hidle : s.conn.tx = none) (hrun : s.exec (PolicyOp.restart.code env) = some (r, s')) :
    Outcome env .restart (some r) s.conn.file.policy s'.conn.file.policy := by
  obtain ⟨r', s₁, hexec, ⟨rfl, db, hall, hconn⟩ | ⟨⟨e, rfl⟩, hfile, _⟩⟩ := s.exec_init hs hidle
  · rw [code, Store.exec_bind, hexec] at hrun
    cases hrun
    obtain ⟨db', hall', hpolicy⟩ := Stmt.runAll_firstRows env s.ambient.now s.conn.file
    rw [hall'] at hall
    cases hall
    rw [hconn, hpolicy]
    exact .whole
  · rw [code, Store.exec_bind, hexec] at hrun
    cases hrun
    rw [hfile]
    exact .refused (by simp)

private theorem outcome_perform {op : PolicyOp} {c : Connection} (ambient : Ambient)
    (h : ∀ (s : Store) (r : Except Exc Bool) (s' : Store), s.held = false → s.conn = c →
      s.exec (op.code env) = some (r, s') →
        Outcome env op (some r) s.conn.file.policy s'.conn.file.policy) :
    Outcome env op (c.perform ambient (op.code env)).1 c.file.policy
      (c.perform ambient (op.code env)).2.file.policy := by
  unfold Connection.perform
  cases hrun : ({ conn := c, ambient } : Store).exec (op.code env) with
  | none => exact .refused (by simp)
  | some x => exact h _ x.1 x.2 rfl rfl hrun

theorem step_outcome (env : Env) (e : PolicyOp × Ambient) (c : Connection) :
    Outcome env e.1 (step env e c).1 c.file.policy (step env e c).2.file.policy := by
  obtain ⟨op, ambient⟩ := e
  cases op with
  | create name url description custom =>
    exact outcome_perform ambient fun s r s' hs _ hrun => outcome_create hs hrun
  | importList lst custom =>
    exact outcome_perform ambient fun s r s' hs _ hrun => outcome_importList hs hrun
  | block domains => exact outcome_perform ambient fun s r s' hs _ hrun => outcome_block hs hrun
  | unblock domains =>
    exact outcome_perform ambient fun s r s' hs _ hrun => outcome_unblock hs hrun
  | setEnabled name enabled =>
    refine outcome_perform ambient fun s r s' hs _ hrun =>
      outcome_committed (.setActive enabled name) (fun db => db.activateList enabled name) hs
        ?_ ?_ rfl hrun
    · intro _ _
      rfl
    · exact fun db => Db.policy_activateList enabled name
  | remove name =>
    refine outcome_perform ambient fun s r s' hs _ hrun =>
      outcome_committed (.deleteDomainList name) (fun db => db.deleteList name) hs
        ?_ ?_ rfl hrun
    · intro _ _
      rfl
    · exact fun db => Db.policy_deleteList name
  | restart =>
    have h : Outcome env .restart _ (⟨c.file, none⟩ : Connection).file.policy _ :=
      outcome_perform ambient fun s r s' hs hconn hrun => outcome_restart hs (by rw [hconn]) hrun
    exact h

end PolicyOp

/-! ## Reading the policy -/

/-- What the listings return on the connection, when nothing interferes. -/
structure Connection.Reads (c : Connection) (P : Policy) : Prop where
  blocked : ∃ rows, c.Lists DomainManager.getBlocked rows ∧ (rows.map Domain.name).Nodup ∧
    ∀ m, m ∈ rows.map Domain.name ↔ P.Blocks m
  whitelisted : ∃ rows, c.Lists DomainManager.getWhitelisted rows ∧
    (rows.map Domain.name).Nodup ∧ ∀ m, m ∈ rows.map Domain.name ↔ P.Allows m
  lists : ∃ rows : List DomainListRow,
    (Store.free c).exec DomainListManager.get =
      some (.ok (rows.map DomainList.fromRow), Store.free c) ∧
    (rows.map DomainListRow.name).Nodup ∧
    ∀ n a, P.group n = some a ↔ ∃ l ∈ rows, l.name = n ∧ l.attributes = a

theorem Connection.reads_policy {c : Connection} (hidle : c.tx = none) : c.Reads c.file.policy := by
  have hview : c.view = c.file := c.view_of_idle hidle
  constructor
  · refine ⟨_, Store.exec_collect_free c .getBlockedDomains, ?_, ?_⟩
    · have hperm := (List.perm_insertionSort (fun a b : Domain => a.name ≤ b.name)
        (c.view.joinLists fun l => l.active && !l.isWhitelist)).map Domain.name
      exact hperm.nodup_iff.mpr (c.view.joinLists_names_nodup _)
    · intro m
      rw [Db.mem_getBlocked_names, hview, Policy.Blocks, Db.policy_within]
      rfl
  · refine ⟨_, Store.exec_collect_free c .getAllWhitelistedDomains,
      c.view.joinLists_names_nodup _, ?_⟩
    intro m
    rw [Db.mem_getWhitelisted_names, hview, Policy.Allows, Db.policy_within]
    rfl
  · refine ⟨c.file.domainLists, ?_, c.file.list_name_unique, ?_⟩
    · rw [← hview]
      exact Store.exec_collect_free c .getDomainLists
    · intro n a
      rw [Db.policy_group, Option.map_eq_some_iff]
      constructor
      · rintro ⟨l, hl, ha⟩
        obtain ⟨hmem, hn⟩ := Db.listNamed_eq_some.mp hl
        exact ⟨l, hmem, hn, ha⟩
      · rintro ⟨l, hmem, hn, ha⟩
        exact ⟨l, Db.listNamed_eq_some.mpr ⟨hmem, hn⟩, ha⟩

namespace PolicyOp

theorem explains_run (env : Env) (es : List (PolicyOp × Ambient)) (c : Connection) :
    Explains (fun e => Outcome env e.1) es (runEvents (step env) es c).1 c.file.policy
      (runEvents (step env) es c).2.file.policy := by
  have hstep (e : PolicyOp × Ambient) (c : Connection) (P : Policy) (hP : c.file.policy = P) :
      ∃ P', Outcome env e.1 (step env e c).1 P P' ∧ (step env e c).2.file.policy = P' :=
    ⟨_, hP ▸ step_outcome env e c, rfl⟩
  obtain ⟨P, hexplains, rfl⟩ := explains_runEvents hstep es (Eq.refl c.file.policy)
  exact hexplains

/-- Whatever fails in a run of operations and starts, its answers are those of the policy of the
file, step by step; and a connection without an open transaction lists what the policy says. -/
theorem run_explained (env : Env) (es : List (PolicyOp × Ambient)) (c : Connection) :
    let c' := (runEvents (step env) es c).2
    Explains (fun e => Outcome env e.1) es (runEvents (step env) es c).1 c.file.policy
        c'.file.policy ∧
      (c'.tx = none → c'.Reads c'.file.policy) :=
  ⟨explains_run env es c, Connection.reads_policy⟩

end PolicyOp

/-! ## Domains that no operation names -/

namespace PolicyOp

open DomainListManager DomainManager

/-- The operation lists the domain. -/
def Names (env : Env) (m : String) : PolicyOp → Prop
  | .importList lst _ => m ∈ lst.domains.map Domain.name
  | .block domains | .unblock domains => m ∈ filterValid env domains
  | _ => False

instance (env : Env) (m : String) (op : PolicyOp) : Decidable (op.Names env m) :=
  match op with
  | .importList lst _ => inferInstanceAs (Decidable (m ∈ lst.domains.map Domain.name))
  | .block domains | .unblock domains =>
    inferInstanceAs (Decidable (m ∈ filterValid env domains))
  | .create _ _ _ _ | .setEnabled _ _ | .remove _ | .restart => isFalse id

def Switches (list : String) : PolicyOp → Prop
  | .setEnabled name _ | .remove name => name = list
  | _ => False

instance (list : String) (op : PolicyOp) : Decidable (op.Switches list) :=
  match op with
  | .setEnabled name _ | .remove name => inferInstanceAs (Decidable (name = list))
  | .create _ _ _ _ | .importList _ _ | .block _ | .unblock _ | .restart => isFalse id

variable {env : Env} {op : PolicyOp} {m : String} {P P' : Policy}

private theorem sameFor_begun (op : PolicyOp) : Registry.SameFor m P (op.begun P) := by
  cases op with
  | create | importList | block => exact .ensure
  | unblock | setEnabled | remove | restart => exact .refl m P

theorem sameFor_effect (hnames : ¬ op.Names env m)
    (hlist : ∀ list, P.owner m = some list → ¬ op.Switches list) :
    Registry.SameFor m P (op.effect env P) := by
  have hother (name : String) (h : ∀ list, P.owner m = some list → name ≠ list) :
      P.owner m ≠ some name := fun hm => h name hm rfl
  cases op with
  | create name url description custom => exact sameFor_begun (.create name url description custom)
  | importList lst custom =>
    exact Registry.SameFor.trans (sameFor_begun (.importList lst custom)) (.assign hnames)
  | block domains =>
    exact Registry.SameFor.trans (sameFor_begun (.block domains)) (.assign fun h => hnames h.1)
  | unblock domains => exact .assign hnames
  | setEnabled name enabled => exact .adjust (hother name hlist)
  | remove name => exact .dissolve (hother name hlist)
  | restart =>
    unfold effect
    split_ifs
    · exact Registry.SameFor.trans .ensure .ensure
    · exact .refl m P

theorem Outcome.sameFor {r : Option (Except Exc Bool)} (h : Outcome env op r P P')
    (hnames : ¬ op.Names env m) (hlist : ∀ list, P.owner m = some list → ¬ op.Switches list) :
    Registry.SameFor m P P' := by
  cases h with
  | whole => exact sameFor_effect hnames hlist
  | nothing _ => exact .refl m P
  | refused _ => exact .refl m P
  | begun _ => exact sameFor_begun op

/-- The operations that make lists and place domains, as the threads of the service do. -/
def Places : PolicyOp → Prop
  | .create .. | .importList .. | .block _ | .unblock _ => True
  | _ => False

theorem begun_extends (op : PolicyOp) (P : Policy) : P.Extends (op.begun P) := by
  cases op <;> first | exact .ensure | exact .refl P

theorem effect_extends (hop : op.Places) (P : Policy) : P.Extends (op.effect env P) := by
  cases op with
  | create name url description custom =>
    exact begun_extends (.create name url description custom) P
  | importList lst custom => exact (begun_extends (.importList lst custom) P).trans .assign
  | block domains => exact (begun_extends (.block domains) P).trans .assign
  | unblock domains => exact .assign
  | setEnabled | remove | restart => exact hop.elim

/-- Whatever fails in a run of operations and starts, a domain that none of them names, and whose
list none of them switches or removes, keeps its list, and without one it gets none; an idle
database lists it afterwards as an idle one did before. -/
theorem run_untouched (env : Env) (es : List (PolicyOp × Ambient)) (c : Connection) (m : String)
    (hnames : ∀ e ∈ es, ¬ e.1.Names env m)
    (hlist : ∀ e ∈ es, ∀ list, c.file.policy.owner m = some list → ¬ e.1.Switches list) :
    let c' := (runEvents (step env) es c).2
    c'.file.policy.owner m = c.file.policy.owner m ∧
      (c'.tx = none →
        (∃ rows, c'.Lists getBlocked rows ∧
          (m ∈ rows.map Domain.name ↔ c.file.policy.Blocks m)) ∧
        ∃ rows, c'.Lists getWhitelisted rows ∧
          (m ∈ rows.map Domain.name ↔ c.file.policy.Allows m)) := by
  intro c'
  have hsame : Registry.SameFor m c.file.policy c'.file.policy := by
    apply (explains_run env es c).invariant (I := Registry.SameFor m c.file.policy) _ (.refl m _)
    intro e he r P P' hstep hP
    refine hP.trans (hstep.sameFor (hnames e he) ?_)
    intro list hown
    exact hlist e he list (hP.owner.symm.trans hown)
  refine ⟨hsame.owner, fun hidle => ?_⟩
  have hreads := Connection.reads_policy hidle
  obtain ⟨blocked, hblocked, _, hb⟩ := hreads.blocked
  obtain ⟨allowed, hallowed, _, ha⟩ := hreads.whitelisted
  exact ⟨⟨blocked, hblocked, (hb m).trans hsame.within⟩, allowed, hallowed,
    (ha m).trans hsame.within⟩

/-- A block of another name that is left half done, a start, and the removal of another list. -/
theorem run_untouched_seeded :
    let env := Env.ofTexts []
    let es : List (PolicyOp × Ambient) :=
      [(.block ["b"], { faults := [false, false, false, false, false, true] }), (.restart, {}),
        (.remove "WHITELIST", {})]
    let c : Connection := ⟨Db.seeded.replaceDomain "ads.example" 1 Db.seeded_custom_id, none⟩
    let c' := (runEvents (step env) es c).2
    c'.file.policy.owner "ads.example" = c.file.policy.owner "ads.example" ∧
      (c'.tx = none →
        (∃ rows, c'.Lists getBlocked rows ∧
          ("ads.example" ∈ rows.map Domain.name ↔ c.file.policy.Blocks "ads.example")) ∧
        ∃ rows, c'.Lists getWhitelisted rows ∧
          ("ads.example" ∈ rows.map Domain.name ↔ c.file.policy.Allows "ads.example")) := by
  intro env es c
  have howner : c.file.policy.owner "ads.example" = some "CUSTOM" := by decide +kernel
  apply run_untouched env es c "ads.example"
  · simp only [es, List.forall_mem_cons]
    exact ⟨show "ads.example" ∉ filterValid env ["b"] by decide +kernel, id, id, by simp⟩
  · intro e he list hlist
    rw [howner, Option.some.injEq] at hlist
    subst hlist
    simp only [es, List.mem_cons, List.not_mem_nil, or_false] at he
    rcases he with rfl | rfl | rfl
    · exact id
    · exact id
    · exact show "WHITELIST" ≠ "CUSTOM" by decide

end PolicyOp

/-! ## When nothing fails -/

namespace PolicyOp

open DomainListManager DomainManager

def accepted (env : Env) : PolicyOp → Bool
  | .block domains | .unblock domains => !(filterValid env domains).isEmpty
  | _ => true

def Ready (env : Env) (P : Policy) : PolicyOp → Prop
  | .unblock domains => filterValid env domains = [] ∨ (P.group "WHITELIST").isSome = true
  | _ => True

/-- The operation on the policy. -/
noncomputable def policyStep (env : Env) (e : PolicyOp × Ambient) (P : Policy) : Bool × Policy :=
  (e.1.accepted env, if e.1.accepted env = true then e.1.effect env P else P)

/-- The operation ended with this answer, without an open transaction, and did what it is for. -/
def Done (env : Env) (op : PolicyOp) (s : Store) : Prop :=
  ∃ s', s.exec (op.code env) = some (.ok (op.accepted env), s') ∧ s'.conn.tx = none ∧
    s'.conn.file.policy = if op.accepted env = true then op.effect env s.conn.file.policy
      else s.conn.file.policy

variable {env : Env} {s : Store}

private theorem done_create (hs : s.IsFree) (hidle : s.conn.tx = none)
    (name url description : String) (custom : Bool) : Done env (.create name url description custom)
    s := by
  obtain ⟨id, s₁, hcreated, hexec⟩ := s.exec_create name url description custom hs.released
  obtain ⟨l, hl, rfl, rfl⟩ := hcreated.of_quiet hidle (Ambient.quiet_of_no_faults hs.faults 4)
  have hid : l.id ≠ 0 := fun h0 =>
    (s.conn.file.ensureList _ url description custom).no_list_zero
      ⟨l, (Db.listNamed_eq_some.mp hl).1, h0⟩
  refine ⟨s.after ⟨s.conn.file.ensureList (effectiveName name) url description custom, none⟩ 4,
    ?_, rfl, Db.policy_ensureList (effectiveName name) url description custom⟩
  rw [code, Store.exec_bind, hexec]
  change some (Except.ok (decide (l.id ≠ 0)), _) = _
  rw [decide_eq_true hid]
  rfl

theorem done_importList (hs : s.IsFree) (hidle : s.conn.tx = none) (lst : DomainList)
    (custom : Bool) : Done env (.importList lst custom) s := by
  obtain ⟨id, s₁, hcreated, hrun⟩ := s.exec_importList lst custom hs.released
  obtain ⟨l, hl, rfl, rfl⟩ := hcreated.of_quiet hidle (Ambient.quiet_of_no_faults hs.faults 4)
  obtain ⟨done, s', hexec, ht⟩ := hrun
  obtain ⟨db, hall, hpolicy⟩ := Stmt.runAll_import_policy (s.ambient.skip 4).now lst hl
  have hquiet (n : Nat) : (s.ambient.skip 4).Quiet n :=
    Ambient.quiet_of_no_faults (by simp [Ambient.skip, hs.faults]) n
  obtain ⟨rfl, rfl⟩ := ht.of_quiet rfl (hquiet _) hall
  refine ⟨_, hexec, rfl, ?_⟩
  exact hpolicy.trans (by rw [Db.policy_ensureList]; rfl)

private theorem done_block (hs : s.IsFree) (hidle : s.conn.tx = none) (domains : List String) :
    Done env (.block domains) s := by
  by_cases hvalid : filterValid env domains = []
  · refine ⟨s, ?_, hidle, by simp [accepted, hvalid]⟩
    rw [code, s.exec_blockDomains_nil env 0 hvalid]
    simp [accepted, hvalid]
  obtain ⟨id, s₁, hcreated, hrun⟩ := s.exec_blockDomains_zero env domains hvalid hs.released
  obtain ⟨l, hl, rfl, rfl⟩ := hcreated.of_quiet hidle (Ambient.quiet_of_no_faults hs.faults 4)
  obtain ⟨done, s', hexec, ht⟩ := hrun
  obtain ⟨db, hall, hpolicy⟩ :=
    Stmt.runAll_block_policy (s.ambient.skip 4).now (filterValid env domains) hl
  have hquiet (n : Nat) : (s.ambient.skip 4).Quiet n :=
    Ambient.quiet_of_no_faults (by simp [Ambient.skip, hs.faults]) n
  obtain ⟨rfl, rfl⟩ := ht.of_quiet rfl (hquiet _) hall
  have haccepted : (PolicyOp.block domains).accepted env = true := by simp [accepted, hvalid]
  refine ⟨_, by rw [haccepted]; exact hexec, rfl, ?_⟩
  rw [if_pos haccepted]
  exact hpolicy.trans (by rw [Db.policy_ensureList]; rfl)

private theorem done_unblock (hs : s.IsFree) (hidle : s.conn.tx = none) {domains : List String}
    (hready : (PolicyOp.unblock domains).Ready env s.conn.file.policy) :
    Done env (.unblock domains) s := by
  by_cases hvalid : filterValid env domains = []
  · refine ⟨s, ?_, hidle, by simp [accepted, hvalid]⟩
    rw [code, s.exec_unblockDomains_nil env hvalid]
    simp [accepted, hvalid]
  have hlist : (s.conn.file.listNamed "WHITELIST").isSome = true := by
    simpa [Ready, hvalid, Db.policy_group] using hready
  obtain ⟨l, hl⟩ := Option.isSome_iff_exists.mp hlist
  obtain ⟨done, s', hexec, ht⟩ := s.exec_unblockDomains env domains hvalid hs.released
  obtain ⟨db, hall, hpolicy⟩ :=
    Stmt.runAll_whitelist_policy s.ambient.now (filterValid env domains) hl
  obtain ⟨rfl, rfl⟩ := ht.of_quiet hidle (Ambient.quiet_of_no_faults hs.faults _) hall
  have haccepted : (PolicyOp.unblock domains).accepted env = true := by simp [accepted, hvalid]
  refine ⟨_, by rw [haccepted]; exact hexec, rfl, ?_⟩
  rw [if_pos haccepted]
  exact hpolicy

private theorem done_committed {op : PolicyOp} (st : Stmt) (left : Db → Db) (hs : s.IsFree)
    (hidle : s.conn.tx = none) (hstmt : ∀ now db, st.run now db = .ok (left db))
    (hpolicy : ∀ db, (left db).policy = op.effect env db.policy)
    (hcode : op.code env = committed [st]) (haccepted : op.accepted env = true) :
    Done env op s := by
  obtain ⟨done, s', hexec, ht⟩ := s.exec_committed [st] hs.released
  have hall : Stmt.runAll s.ambient.now [st] s.conn.file = .ok (left s.conn.file) := by
    rw [Stmt.runAll_cons, hstmt]
    rfl
  obtain ⟨rfl, rfl⟩ := ht.of_quiet hidle (Ambient.quiet_of_no_faults hs.faults _) hall
  refine ⟨_, by rw [hcode, haccepted]; exact hexec, rfl, ?_⟩
  rw [if_pos haccepted]
  exact hpolicy s.conn.file

theorem done_restart (hs : s.IsFree) (hidle : s.conn.tx = none) : Done env .restart s := by
  obtain ⟨r, s', hexec, ⟨rfl, db, hall, hconn⟩ | ⟨_, _, hbusy⟩⟩ := s.exec_init hs.released hidle
  · obtain ⟨db', hall', hpolicy⟩ := Stmt.runAll_firstRows env s.ambient.now s.conn.file
    rw [hall'] at hall
    cases hall
    refine ⟨s', ?_, by rw [hconn], by rw [hconn]; exact hpolicy⟩
    rw [code, Store.exec_bind, hexec]
    rfl
  · exact absurd hs.faults hbusy

theorem done_step {e : PolicyOp × Ambient} {c : Connection} (hidle : c.tx = none)
    (hquiet : e.2.faults = []) (hready : e.1.Ready env c.file.policy) :
    (step env e c).2.tx = none ∧
      (step env e c).1 = some (.ok (policyStep env e c.file.policy).1) ∧
      (step env e c).2.file.policy = (policyStep env e c.file.policy).2 := by
  obtain ⟨op, ambient⟩ := e
  have hperform (hdone : Done env op ⟨c, false, ambient⟩) :
      (c.perform ambient (op.code env)).2.tx = none ∧
        (c.perform ambient (op.code env)).1 =
          some (.ok (policyStep env (op, ambient) c.file.policy).1) ∧
        (c.perform ambient (op.code env)).2.file.policy =
          (policyStep env (op, ambient) c.file.policy).2 := by
    obtain ⟨s', hexec, htx, hpolicy⟩ := hdone
    rw [Connection.perform_of_exec hexec]
    exact ⟨htx, rfl, hpolicy⟩
  have hfree : (⟨c, false, ambient⟩ : Store).IsFree := ⟨rfl, hquiet⟩
  cases op with
  | create name url description custom =>
    exact hperform (done_create hfree hidle name url description custom)
  | importList lst custom => exact hperform (done_importList hfree hidle lst custom)
  | block domains => exact hperform (done_block hfree hidle domains)
  | unblock domains => exact hperform (done_unblock hfree hidle hready)
  | setEnabled name enabled =>
    refine hperform (done_committed (.setActive enabled name)
      (fun db => db.activateList enabled name) hfree hidle ?_ ?_ rfl rfl)
    · intro _ _
      rfl
    · exact fun db => Db.policy_activateList enabled name
  | remove name =>
    refine hperform (done_committed (.deleteDomainList name) (fun db => db.deleteList name) hfree
      hidle ?_ ?_ rfl rfl)
    · intro _ _
      rfl
    · exact fun db => Db.policy_deleteList name
  | restart =>
    have hsame : (⟨c.file, none⟩ : Connection) = c := by rw [← hidle]
    obtain ⟨htx, hanswer, hpolicy⟩ := hperform (done_restart hfree hidle)
    unfold step
    dsimp only
    rw [hsame]
    exact ⟨rfl, hanswer, hpolicy⟩

/-- As long as no statement finds the database busy and `WHITELIST` is there for unblocking, a run
of operations and starts gives the answers of the policy and ends in the policy it leads to. -/
theorem run_policy (env : Env) (es : List (PolicyOp × Ambient)) (c : Connection)
    (hidle : c.tx = none)
    (h : Along (policyStep env) (fun e P => e.2.faults = [] ∧ e.1.Ready env P) es c.file.policy) :
    let c' := (runEvents (step env) es c).2
    let policyRun := runEvents (policyStep env) es c.file.policy
    (runEvents (step env) es c).1 = policyRun.1.map (fun b => some (.ok b)) ∧
      c'.file.policy = policyRun.2 ∧ c'.Reads policyRun.2 := by
  intro c' policyRun
  obtain ⟨hlast, hanswers, hpolicy⟩ := runEvents_map (fun c : Connection => c.file.policy)
    (fun b : Bool => (some (.ok b) : Option (Except Exc Bool))) (I := fun c => c.tx = none) h hidle
    fun e c hidle he => done_step hidle he.1 he.2
  have hreads : c'.Reads c'.file.policy := Connection.reads_policy hlast
  exact ⟨hanswers, hpolicy, hpolicy ▸ hreads⟩

def firstDays : List (PolicyOp × Ambient) :=
  [(.restart, {}), (.unblock ["ads.example"], {}),
    (.importList { name := "ADS", domains := [{ name := "ads.example" }, { name := "b" }] } false,
      {}),
    (.block ["ads.example", "c"], {}), (.remove "ADS", {}), (.restart, {})]

theorem run_policy_firstDays :
    let env := Env.ofTexts []
    let c : Connection := ⟨Db.empty, none⟩
    let c' := (runEvents (step env) firstDays c).2
    let policyRun := runEvents (policyStep env) firstDays c.file.policy
    (runEvents (step env) firstDays c).1 = policyRun.1.map (fun b => some (.ok b)) ∧
      c'.file.policy = policyRun.2 ∧ c'.Reads policyRun.2 := by
  intro env c
  have hstart : ((policyStep env (.restart, {}) c.file.policy).2.group "WHITELIST").isSome =
      true := by
    have hnone : ∀ n, c.file.policy.group n = none := Db.lists_nil_iff.mp rfl
    simp [policyStep, accepted, effect, hnone, Registry.ensure]
  exact run_policy env firstDays c rfl
    ⟨⟨rfl, trivial⟩, ⟨rfl, Or.inr hstart⟩, ⟨rfl, trivial⟩, ⟨rfl, trivial⟩, ⟨rfl, trivial⟩,
      ⟨rfl, trivial⟩, trivial⟩

end PolicyOp

end DblService
