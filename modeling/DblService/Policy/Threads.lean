import DblService.Framework.Turns
import DblService.Policy.Operations

/-!
# Operations in threads

The servers and the updater are threads of one process.  SQLite keeps a transaction together,
but an import or a block makes its list, looks its id up and writes the domains in three scopes
of a session, and between them the other threads go on.
-/

namespace DblService

open Framework Session

/-! ## Scopes -/

namespace Session

variable {α β : Type}

def endsScope : Op → Bool
  | .release _ => true
  | _ => false

/-- The program gives no session back. -/
abbrev InScope (p : Code α) : Prop := p.run.Uses fun op => endsScope op = false

private theorem inScope_sql (c : Nat) (k : Call) : InScope (sql c k) := ⟨rfl, fun _ => trivial⟩

private theorem inScope_bind {p : Code α} {f : α → Code β} (hp : InScope p)
    (hf : ∀ a, InScope (f a)) :
    InScope (p >>= f) := by
  apply Program.Uses.bind hp
  intro r
  cases r with
  | ok a => exact hf a
  | error e => trivial

private theorem inScope_stmts (c : Nat) (stmts : List Stmt) : InScope (stmts.forM (exec c)) := by
  induction stmts with
  | nil => trivial
  | cons st stmts ih => exact inScope_bind (inScope_sql c (.exec st)) fun _ => ih

private theorem oneScope_withSession {body : Nat → Code α} (h : ∀ c, InScope (body c)) :
    (withSession body).run.OneScope endsScope := by
  intro c
  apply Program.OneScope.of_uses (h c)
  intro r c
  exact ⟨r, rfl⟩

private theorem oneScope_transaction (stmts : List Stmt) :
    (transaction stmts).run.OneScope endsScope :=
  oneScope_withSession fun c => inScope_bind (inScope_sql c .begin) fun _ =>
    inScope_bind (inScope_stmts c stmts) fun _ => inScope_sql c .commit

private theorem oneScope_queryOne (q : Query) : (queryOne q).run.OneScope endsScope :=
  oneScope_withSession fun c => inScope_bind (inScope_sql c (.query q)) fun _ => trivial

private theorem oneScope_committed (stmts : List Stmt) :
    (committed stmts).run.OneScope endsScope := by
  apply Program.OneScope.bind_done
  · apply (oneScope_transaction stmts).bind_done
    intro r
    cases r <;> exact ⟨_, rfl⟩
  · intro r
    cases r with
    | ok b => exact ⟨_, rfl⟩
    | error e =>
      cases h : e.isRuntimeError with
      | true => exact ⟨.ok false, by simp [h]; rfl⟩
      | false => exact ⟨.error e, by simp [h]; rfl⟩

end Session

/-! ## The code of an operation, scope by scope -/

namespace PolicyOp

open DomainListManager DomainManager

structure NewList where
  name : String
  url : String
  description : String
  custom : Bool

def makes (env : Env) : PolicyOp → Option NewList
  | .create name url description custom => some { name, url, description, custom }
  | .importList lst custom =>
    some { name := lst.name, url := lst.url, description := lst.description.getD "", custom }
  | .block domains =>
    if filterValid env domains = [] then none
    else some { name := "CUSTOM", url := "", description := "Custom list", custom := true }
  | _ => none

def lookUp (name : String) : Code Int :=
  catchRuntime
    (do
      match ← getByName name false with
      | some l => pure l.id
      | none => throw .nullDereference)
    fun _ => pure 0

/-- What follows the first scope of `create`. -/
def afterInsert (name : String) : Except Exc Unit → Program effects (Except Exc Int)
  | .ok _ => (lookUp name).run
  | .error e => (if e.isRuntimeError then pure 0 else throw e : Code Int).run

/-- What follows `create`. -/
def afterCreate (env : Env) : PolicyOp → Except Exc Int → Program effects (Except Exc Bool)
  | .create .., .ok id => .done (.ok (decide (id ≠ 0)))
  | .importList lst _, .ok id => (committed (importStmts lst id)).run
  | .block domains, .ok id => (committed (blockStmts (filterValid env domains) id)).run
  | .importList .., .error e => (if e.isRuntimeError then pure false else throw e : Code Bool).run
  | _, .error e => .done (.error e)
  | _, .ok _ => .done (.ok false)

theorem create_run (name url description : String) (custom : Bool) :
    (DomainListManager.create name url description custom).run =
      (transaction [.insertOrIgnoreDomainList (effectiveName name) url description custom]).run.bind
        (afterInsert (effectiveName name)) := by
  change (Program.bind (Program.bind _ _) _) = _
  rw [Program.bind_assoc]
  congr 1
  funext r
  cases r <;> rfl

variable {env : Env} {op : PolicyOp} {l : NewList}

/-- An operation that makes a list begins with the first scope of `create`. -/
theorem code_run_of_makes (h : op.makes env = some l) :
    (op.code env).run =
      (transaction [.insertOrIgnoreDomainList (effectiveName l.name) l.url l.description
        l.custom]).run.bind fun r =>
          (afterInsert (effectiveName l.name) r).bind (op.afterCreate env) := by
  rw [← Program.bind_assoc, ← create_run]
  cases op with
  | create name url description custom =>
    cases h
    change Program.bind _ _ = _
    congr 1
    funext r
    cases r <;> rfl
  | importList lst custom =>
    cases h
    change (Program.bind (Program.bind _ _) _) = _
    rw [Program.bind_assoc]
    congr 1
    funext r
    cases r <;> rfl
  | block domains =>
    simp only [makes] at h
    split_ifs at h with hvalid
    cases h
    have hcode : (PolicyOp.block domains).code env =
        DomainListManager.create "CUSTOM" "" "Custom list" true >>= fun id =>
          committed (blockStmts (filterValid env domains) id) := by
      simp only [code, blockDomains, List.isEmpty_iff, if_neg hvalid, if_true]
    rw [hcode]
    change Program.bind _ _ = _
    congr 1
    funext r
    cases r <;> rfl
  | unblock _ | setEnabled _ _ | remove _ | restart => cases h

private theorem oneScope_lookUp (name : String) : (lookUp name).run.OneScope endsScope := by
  have hname : (getByName name false).run.OneScope endsScope := by
    apply Program.OneScope.bind_done
    · apply (oneScope_queryOne (.getDomainListByName name)).bind_done
      intro r
      cases r with
      | ok row =>
        simp only [Bool.and_false, Bool.false_eq_true, if_false]
        exact ⟨_, rfl⟩
      | error e => exact ⟨_, rfl⟩
    · intro r
      cases r with
      | ok _ => exact ⟨_, rfl⟩
      | error e => cases h : e.isRuntimeError <;> exact ⟨_, by simp [h]; rfl⟩
  apply Program.OneScope.bind_done
  · apply hname.bind_done
    rintro (_ | _ | l) <;> exact ⟨_, rfl⟩
  · intro r
    cases r with
    | ok _ => exact ⟨_, rfl⟩
    | error e => cases h : e.isRuntimeError <;> exact ⟨_, by simp [h]; rfl⟩

theorem exec_lookUp (s : Store) (hs : s.held = false) (name : String) :
    s.exec (lookUp name) =
      if s.ambient.faulty then some (.error .nullDereference, s.afterRaise s.conn 1)
      else some (.ok (((s.conn.view.listNamed name).map DomainListRow.id).getD 0),
        s.after s.conn 1) := by
  rw [lookUp, Store.exec_catchRuntime, Store.exec_bind, s.exec_getListByName name hs]
  cases hf : s.ambient.faulty with
  | true => rfl
  | false => cases hl : s.conn.view.listNamed name <;> rfl

end PolicyOp

/-! ## What the other threads leave -/

namespace Db

/-- There is a list of this name and id. -/
def HasListId (db : Db) (name : String) (id : Int) : Prop :=
  ∃ l ∈ db.domainLists, l.name = name ∧ l.id = id

private theorem hasListId_iff {db : Db} {name : String} {id : Int} :
    db.HasListId name id ↔ ∃ l, db.listNamed name = some l ∧ l.id = id := by
  simp only [HasListId, listNamed_eq_some, and_assoc]

end Db

/-- The statements that delete no list. -/
def Stmt.keepsLists : Stmt → Bool
  | .deleteDomainList _ => false
  | _ => true

theorem Stmt.run_hasListId {now : Int} {st : Stmt} {db db' : Db} (hst : st.keepsLists = true)
    (hrun : st.run now db = .ok db') {name : String} {id : Int} (h : db.HasListId name id) :
    db'.HasListId name id := by
  obtain ⟨l, hl, hname, hid⟩ := h
  have hsame (hlists : db'.domainLists = db.domainLists) : db'.HasListId name id :=
    ⟨l, hlists ▸ hl, hname, hid⟩
  cases st <;> simp only [run] at hrun
  case deleteDomainList => cases hst
  case seedDomainList =>
    split_ifs at hrun
    cases hrun
    exact ⟨l, List.mem_append_left _ hl, hname, hid⟩
  case insertOrIgnoreDomainList =>
    cases hrun
    exact ⟨l, db.ensureList_mem hl, hname, hid⟩
  case updateMtime | setActive =>
    cases hrun
    refine ⟨_, List.mem_map.mpr ⟨l, hl, rfl⟩, ?_, ?_⟩
    · split_ifs <;> exact hname
    · split_ifs <;> exact hid
  case insertOrReplaceWhitelisted =>
    split at hrun <;> cases hrun
    exact hsame rfl
  case insertOrReplaceDomain | insertOrIgnoreDomain =>
    split_ifs at hrun <;> cases hrun <;> exact hsame rfl
  all_goals
    cases hrun
    exact hsame rfl

/-- The connection later, as long as no list is deleted: a transaction that was left open stays
open, and the lists keep their ids. -/
structure Connection.Later (c c' : Connection) : Prop where
  opened : c'.tx = none → c.tx = none
  lists : ∀ name id, c.file.HasListId name id → c'.file.HasListId name id

namespace Connection.Later

theorem refl (c : Connection) : Later c c := ⟨id, fun _ _ => id⟩

private theorem of_transacted {stmts : List Stmt} {s s' : Store} {done : Bool}
    (h : Transacted stmts s done s') (hstmts : ∀ st ∈ stmts, st.keepsLists = true) :
    Later s.conn s'.conn := by
  cases h with
  | committed db hidle _ hall =>
    refine ⟨fun _ => hidle, ?_⟩
    intro name id hlist
    exact Stmt.runAll_preserves (I := fun db => db.HasListId name id)
      (fun st hst db db' hdb hrun => Stmt.run_hasListId (hstmts st hst) hrun hdb) hlist hall
  | refused _ => exact refl _
  | abandoned i db hidle _ _ _ _ => exact ⟨fun _ => hidle, fun _ _ => id⟩

end Connection.Later

/-! ## One turn -/

namespace PolicyOp

open DomainListManager DomainManager

def answer : Program effects (Except Exc Bool) → Option (Except Exc Bool)
  | .done r => some r
  | .call _ _ => none

/-- How far the code of an operation has come. -/
inductive Stage (env : Env) (op : PolicyOp) (c : Connection) :
    Program effects (Except Exc Bool) → Prop
  | fresh : Stage env op c (op.code env).run
  | made {l : NewList} (hl : op.makes env = some l)
      (hmade : ∃ id, c.file.HasListId (effectiveName l.name) id) :
    Stage env op c ((lookUp (effectiveName l.name)).run.bind (op.afterCreate env))
  -- the list could not be made, or this was its id
  | found {l : NewList} (hl : op.makes env = some l) (id : Int)
      (hid : c.tx = none → id = 0 ∨ c.file.HasListId (effectiveName l.name) id) :
    Stage env op c (op.afterCreate env (.ok id))
  | finished (r : Except Exc Bool) : Stage env op c (.done r)

variable {env : Env} {op : PolicyOp} {l : NewList} {c c' : Connection} {s : Store}
  {rest : Program effects (Except Exc Bool)}

private theorem Stage.later (h : Stage env op c rest) (hlater : c.Later c') :
    Stage env op c' rest := by
  cases h with
  | fresh => exact .fresh
  | made hl hmade =>
    obtain ⟨id, hid⟩ := hmade
    exact .made hl ⟨id, hlater.lists _ _ hid⟩
  | found hl id hid =>
    exact .found hl id fun hidle => (hid (hlater.opened hidle)).imp_right (hlater.lists _ _)
  | finished r => exact .finished r

/-- A turn that goes to the next stage and does what the operation can do to the policy. -/
def Turned (env : Env) (op : PolicyOp) (s : Store) (rest : Program effects (Except Exc Bool)) :
    Prop :=
  ∃ rest' s', rest.turn endsScope Store.handle s = some (rest', s') ∧
    Stage env op s'.conn rest' ∧ s.conn.Later s'.conn ∧
    Outcome env op (answer rest') s.conn.file.policy s'.conn.file.policy

private theorem begun_of_makes (h : op.makes env = some l) (P : Policy) :
    op.begun P = P.ensure (effectiveName l.name)
      { url := l.url, description := l.description, active := true, custom := l.custom
        isWhitelist := false } := by
  cases op with
  | create name url description custom =>
    cases h
    rfl
  | importList lst custom =>
    cases h
    rfl
  | block domains =>
    simp only [makes] at h
    split_ifs at h
    cases h
    rfl
  | unblock _ | setEnabled _ _ | remove _ | restart => cases h

private theorem begun_of_hasListId {db : Db} (h : op.makes env = some l)
    (hlist : ∃ id, db.HasListId (effectiveName l.name) id) : op.begun db.policy = db.policy := by
  obtain ⟨id, hid⟩ := hlist
  obtain ⟨row, hrow, _⟩ := Db.hasListId_iff.mp hid
  rw [begun_of_makes h]
  apply Registry.ensure_taken (b := row.attributes)
  rw [Db.policy_group, hrow]
  rfl

private theorem afterCreate_error (e : Exc) :
    ∃ r, op.afterCreate env (.error e) = .done r ∧ r ≠ .ok true := by
  cases op
  case importList lst custom =>
    cases h : e.isRuntimeError with
    | true => exact ⟨.ok false, by simp [afterCreate, h]; rfl, by simp⟩
    | false => exact ⟨.error e, by simp [afterCreate, h]; rfl, by simp⟩
  all_goals exact ⟨.error e, rfl, by simp⟩

private theorem outcome_afterCreate {P : Policy} (id : Int) (hmade : id ≠ 0 → op.begun P = P) :
    Outcome env op (answer (op.afterCreate env (.ok id))) P P := by
  cases op with
  | create name url description custom =>
    by_cases hid : id = 0
    · apply Outcome.refused
      simp [afterCreate, answer, hid]
    · have hwhole : Outcome env (.create name url description custom) (some (.ok true)) P _ :=
        .whole
      rw [show effect env P (.create name url description custom) = P from hmade hid] at hwhole
      simpa [afterCreate, answer, hid] using hwhole
  | importList lst custom =>
    apply Outcome.refused
    intro h
    cases h
  | block domains =>
    apply Outcome.refused
    intro h
    cases h
  | unblock _ | setEnabled _ _ | remove _ | restart =>
    apply Outcome.refused
    simp [afterCreate, answer]

private theorem turned_insert (h : op.makes env = some l) (hs : s.held = false) :
    Turned env op s (op.code env).run := by
  obtain ⟨r, done, s', hexec, hends, ht⟩ := s.exec_transaction
    [.insertOrIgnoreDomainList (effectiveName l.name) l.url l.description l.custom] hs
  have hlater := Connection.Later.of_transacted ht (by simp [Stmt.keepsLists])
  have hturn := (oneScope_transaction
    [.insertOrIgnoreDomainList (effectiveName l.name) l.url l.description l.custom]).turn_bind
      (h := Store.handle)
      (fun r => (afterInsert (effectiveName l.name) r).bind (op.afterCreate env)) s
  rw [← code_run_of_makes h] at hturn
  have hrest := hturn.trans (congrArg (Option.map _) hexec)
  rcases hends with ⟨rfl, rfl⟩ | ⟨e, rfl, rfl⟩
  · obtain ⟨db, hall, hconn⟩ := ht.file_of_done
    cases hall
    refine ⟨_, s', hrest, .made h ?_, hlater, ?_⟩
    · rw [hconn]
      obtain ⟨row, hrow⟩ := Db.ensureList_exists s.conn.file (effectiveName l.name) l.url
        l.description l.custom
      exact ⟨row.id, Db.hasListId_iff.mpr ⟨row, hrow, rfl⟩⟩
    · rw [hconn, Db.policy_ensureList]
      have hbegun : Outcome env op none s.conn.file.policy _ := .begun (by simp)
      rwa [begun_of_makes h] at hbegun
  · refine ⟨_, s', hrest, .found h 0 fun _ => .inl rfl, hlater, ?_⟩
    rw [ht.file_of_failed]
    exact outcome_afterCreate 0 fun h => absurd rfl h

private theorem turned_lookUp (h : op.makes env = some l)
    (hmade : ∃ id, s.conn.file.HasListId (effectiveName l.name) id) (hs : s.held = false) :
    Turned env op s ((lookUp (effectiveName l.name)).run.bind (op.afterCreate env)) := by
  have hturn := (oneScope_lookUp (effectiveName l.name)).turn_bind (h := Store.handle)
    (op.afterCreate env) s
  have hexec := exec_lookUp s hs (effectiveName l.name)
  have hrest := hturn.trans (congrArg (Option.map _) hexec)
  cases hf : s.ambient.faulty with
  | true =>
    rw [hf] at hrest
    obtain ⟨r, hr, hne⟩ := @afterCreate_error env op .nullDereference
    refine ⟨_, _, hrest, ?_, .refl _, ?_⟩
    · simp only [hr]
      exact .finished r
    · simp only [hr]
      exact .refused (by simpa [answer] using hne)
  | false =>
    rw [hf] at hrest
    refine ⟨_, _, hrest, .found h _ ?_, .refl _, outcome_afterCreate _ ?_⟩
    · intro hidle
      obtain ⟨id, hid⟩ := hmade
      obtain ⟨row, hrow, _⟩ := Db.hasListId_iff.mp hid
      have hview : s.conn.view = s.conn.file := Connection.view_of_idle hidle
      right
      rw [hview, hrow]
      exact Db.hasListId_iff.mpr ⟨row, hrow, rfl⟩
    · exact fun _ => begun_of_hasListId h hmade

private theorem turned_committed {stmts : List Stmt} (hs : s.held = false)
    (hstmts : ∀ st ∈ stmts, st.keepsLists = true) (hdone : ∀ s', Transacted stmts s true s' →
      Outcome env op (some (.ok true)) s.conn.file.policy s'.conn.file.policy) :
    Turned env op s (committed stmts).run := by
  obtain ⟨done, s', hexec, ht⟩ := s.exec_committed stmts hs
  have hturn := (oneScope_committed stmts).turn_eq (h := Store.handle) s
  refine ⟨_, s', hturn.trans (congrArg (Option.map _) hexec), .finished (.ok done),
    .of_transacted ht hstmts, ?_⟩
  cases done with
  | false =>
    rw [ht.file_of_failed]
    exact .refused (by simp [answer])
  | true => exact hdone s' ht

private theorem turned_import {lst : DomainList} {custom : Bool} {id : Int} (hs : s.held = false)
    (hid : s.conn.tx = none → id = 0 ∨ s.conn.file.HasListId (effectiveName lst.name) id) :
    Turned env (.importList lst custom) s (committed (importStmts lst id)).run := by
  apply turned_committed hs
  · intro st hst
    simp only [importStmts, List.mem_append, List.mem_map, List.mem_singleton] at hst
    rcases hst with ⟨_, _, rfl⟩ | rfl <;> rfl
  intro s' ht
  obtain ⟨hidle, -⟩ := ht.done_iff.mp rfl
  obtain ⟨db, hall, hconn⟩ := ht.file_of_done
  rcases hid hidle with rfl | hlist
  · -- without a list only an import without domains can end
    by_cases hnil : lst.domains = []
    · rw [importStmts, hnil] at hall
      cases hall
      rw [hconn, Db.policy_touchList]
      exact .nothing hnil
    · have hnames : lst.domains.map Domain.name ≠ [] := by simpa using hnil
      rw [importStmts, Stmt.runAll_insertOrReplace_error _ hnames s.conn.file.no_list_zero] at hall
      cases hall
  · obtain ⟨row, hrow, rfl⟩ := Db.hasListId_iff.mp hlist
    obtain ⟨db', hall', hpolicy⟩ := Stmt.runAll_import_policy s.ambient.now lst hrow
    rw [hall'] at hall
    cases hall
    have hbegun := @begun_of_hasListId env (.importList lst custom) _ _ rfl ⟨row.id, hlist⟩
    have hwhole : Outcome env (.importList lst custom) (some (.ok true)) s.conn.file.policy _ :=
      .whole
    rw [hconn, hpolicy]
    rwa [effect, hbegun] at hwhole

private theorem turned_block {domains : List String} {id : Int} (hs : s.held = false)
    (hid : s.conn.tx = none → id = 0 ∨ s.conn.file.HasListId "CUSTOM" id)
    (hvalid : filterValid env domains ≠ []) :
    Turned env (.block domains) s (committed (blockStmts (filterValid env domains) id)).run := by
  apply turned_committed hs
  · intro st hst
    simp only [blockStmts, List.mem_append, List.mem_map] at hst
    rcases hst with ⟨_, _, rfl⟩ | ⟨_, _, rfl⟩ <;> rfl
  intro s' ht
  obtain ⟨hidle, -⟩ := ht.done_iff.mp rfl
  obtain ⟨db, hall, hconn⟩ := ht.file_of_done
  rcases hid hidle with rfl | hlist
  · -- without a list only names that a whitelist keeps can be blocked
    have hkept : ∀ m ∈ filterValid env domains, s.conn.file.IsWhitelisted m := by
      intro m hm
      by_contra hfree
      exact s.conn.file.no_list_zero (BlockOp.list_of_blockStmts ht hm hfree)
    obtain ⟨db', hall', hpolicy⟩ := Stmt.runAll_block_kept s.ambient.now hkept 0
    rw [hall'] at hall
    cases hall
    rw [hconn, hpolicy]
    apply Outcome.nothing
    intro m hm
    exact Db.policy_keeps.mpr (hkept m hm)
  · obtain ⟨row, hrow, rfl⟩ := Db.hasListId_iff.mp hlist
    obtain ⟨db', hall', hpolicy⟩ :=
      Stmt.runAll_block_policy s.ambient.now (filterValid env domains) hrow
    rw [hall'] at hall
    cases hall
    have hmakes : (PolicyOp.block domains).makes env =
        some { name := "CUSTOM", url := "", description := "Custom list", custom := true } :=
      if_neg hvalid
    have hbegun := begun_of_hasListId hmakes ⟨row.id, hlist⟩
    have hwhole : Outcome env (.block domains) (some (.ok true)) s.conn.file.policy _ := .whole
    rw [hconn, hpolicy]
    rwa [effect, hbegun] at hwhole

private theorem turned_unblock {domains : List String} (hs : s.held = false)
    (hvalid : filterValid env domains ≠ []) :
    Turned env (.unblock domains) s
      (committed ((filterValid env domains).map .insertOrReplaceWhitelisted)).run := by
  apply turned_committed hs
  · simp [Stmt.keepsLists]
  intro s' ht
  obtain ⟨db, hall, hconn⟩ := ht.file_of_done
  cases hl : s.conn.file.listNamed "WHITELIST" with
  | none =>
    rw [Stmt.runAll_whitelist_error _ hvalid hl] at hall
    cases hall
  | some row =>
    obtain ⟨db', hall', hpolicy⟩ :=
      Stmt.runAll_whitelist_policy s.ambient.now (filterValid env domains) hl
    rw [hall'] at hall
    cases hall
    rw [hconn, hpolicy]
    exact .whole

private theorem Stage.turned (hop : op.Places) (hs : s.held = false)
    (hstage : Stage env op s.conn rest) (hgoes : answer rest = none) : Turned env op s rest := by
  cases hstage with
  | fresh =>
    cases hmakes : op.makes env with
    | some l => exact turned_insert hmakes hs
    | none =>
      cases op with
      | create | importList => cases hmakes
      | block domains =>
        have hvalid : filterValid env domains = [] := by
          by_contra hvalid
          simp [makes, hvalid] at hmakes
        rw [code, blockDomains, hvalid] at hgoes
        cases hgoes
      | unblock domains =>
        by_cases hvalid : filterValid env domains = []
        · simp [code, unblockDomains, hvalid] at hgoes
          cases hgoes
        · rw [code, unblockDomains_eq hvalid]
          exact turned_unblock hs hvalid
      | setEnabled | remove | restart => exact hop.elim
  | made hl hmade => exact turned_lookUp hl hmade hs
  | found hl id hid =>
    cases op with
    | importList lst custom =>
      cases hl
      exact turned_import hs hid
    | block domains =>
      simp only [makes] at hl
      split_ifs at hl with hvalid
      cases hl
      exact turned_block hs hid hvalid
    | create | unblock | setEnabled | remove | restart => cases hgoes
  | finished r => cases hgoes

end PolicyOp

/-! ## One after the other -/

/-- What the listings go by. -/
def ListAttributes.kind (a : ListAttributes) : Bool × Bool := (a.active, a.isWhitelist)

/-- The same owners, and lists that are listed alike: a list that is only made by one of them is
an active list that owns nothing. -/
structure Policy.Agrees (P Q : Policy) : Prop where
  alike : Registry.Alike ListAttributes.kind (true, false) P Q
  left : (P.group "WHITELIST").isSome = true
  right : (Q.group "WHITELIST").isSome = true

namespace PolicyOp

open DomainManager

variable {env : Env} {op : PolicyOp} {P P' Q : Policy}

private theorem begun_alike (op : PolicyOp) (P : Policy) :
    Registry.Alike ListAttributes.kind (true, false) P (op.begun P) := by
  cases op <;> first | exact .ensure rfl | exact .refl P

private theorem effect_alike (hop : op.Places) (h : P.Agrees Q) :
    Registry.Alike ListAttributes.kind (true, false) (op.effect env P) (op.effect env Q) := by
  have hbegun : Registry.Alike ListAttributes.kind (true, false) (op.begun P) (op.begun Q) :=
    (begun_alike op P).symm.trans (h.alike.trans (begun_alike op Q))
  cases op with
  | create => exact hbegun
  | importList => exact hbegun.assign Registry.ensure_isSome Registry.ensure_isSome
  | block =>
    exact hbegun.claim (p := fun k : Bool × Bool => k.2 = true) Registry.ensure_isSome
      Registry.ensure_isSome
  | unblock => exact h.alike.assign h.left h.right
  | setEnabled | remove | restart => exact hop.elim

private theorem idle_alike (hidle : op.Idle env P) (h : P.Agrees Q) :
    Registry.Alike ListAttributes.kind (true, false) P (op.effect env Q) := by
  have hbegun := h.alike.trans (begun_alike op Q)
  cases op with
  | importList lst custom =>
    apply hbegun.trans
    apply Registry.Alike.assign_nothing
    simp [show lst.domains = [] from hidle]
  | block domains =>
    apply hbegun.trans
    apply Registry.Alike.assign_nothing
    rintro m ⟨hm, hfree⟩
    have hkept : P.Within (fun a => a.kind.2 = true) m := hidle m hm
    exact hfree ((hbegun.within (p := fun k : Bool × Bool => k.2 = true)).mpr hkept)
  | create | unblock | setEnabled | remove | restart => exact hidle.elim

open Classical in
/-- An answer of an operation: only `true` says that it did what it is for. -/
noncomputable def serialStep (env : Env) (op : PolicyOp) (answer : Option (Except Exc Bool))
    (Q : Policy) : Policy :=
  if answer = some (.ok true) then op.effect env Q else Q

theorem Outcome.agrees {r : Option (Except Exc Bool)} (h : Outcome env op r P P')
    (hop : op.Places) (hPQ : P.Agrees Q) : P'.Agrees (op.serialStep env r Q) := by
  have hkept {R R' : Policy} (hR : R.Extends R') (hw : (R.group "WHITELIST").isSome = true) :
      (R'.group "WHITELIST").isSome = true := by
    obtain ⟨a, ha⟩ := Option.isSome_iff_exists.mp hw
    rw [hR _ _ ha]
    rfl
  cases h with
  | whole =>
    rw [serialStep, if_pos rfl]
    exact ⟨effect_alike hop hPQ, hkept (effect_extends hop P) hPQ.left,
      hkept (effect_extends hop Q) hPQ.right⟩
  | nothing hidle =>
    rw [serialStep, if_pos rfl]
    exact ⟨idle_alike hidle hPQ, hPQ.left, hkept (effect_extends hop Q) hPQ.right⟩
  | refused hr =>
    rw [serialStep, if_neg hr]
    exact hPQ
  | begun hr =>
    rw [serialStep, if_neg hr]
    exact ⟨(begun_alike op P).symm.trans hPQ.alike, hkept (begun_extends op P) hPQ.left, hPQ.right⟩

end PolicyOp

/-! ## Threads -/

/-- An operation, and what is left of its code. -/
structure PolicyThread where
  op : PolicyOp
  rest : Program effects (Except Exc Bool)

structure PolicyThreads where
  conn : Connection
  threads : List PolicyThread := []

inductive ThreadTurn
  | starts (op : PolicyOp)
  | goesOn (i : Nat) (ambient : Ambient)  -- a thread runs to the end of its next scope

namespace PolicyThreads

open PolicyOp

def step (env : Env) :
    ThreadTurn → PolicyThreads → Option (PolicyOp × Except Exc Bool) × PolicyThreads
  | .starts op, w =>
    let rest := (op.code env).run
    ((answer rest).map (op, ·), { w with threads := w.threads ++ [⟨op, rest⟩] })
  | .goesOn i ambient, w =>
    match w.threads[i]? with
    | none => (none, w)
    | some t =>
      if (answer t.rest).isSome then (none, w)
      else match t.rest.turn endsScope Store.handle ⟨w.conn, false, ambient⟩ with
        | none => (none, w)
        | some (rest, s) =>
          ((answer rest).map (t.op, ·),
            { conn := s.conn, threads := w.threads.set i { t with rest } })

/-- The operations that answered `true`, in the order in which they ended. -/
noncomputable def serial (env : Env) (answers : List (Option (PolicyOp × Except Exc Bool)))
    (P : Policy) : Policy :=
  answers.foldl (fun P a => a.elim P fun x => x.1.serialStep env (some x.2) P) P

/-- The threads are where their operations can be, and placed the domains as the operations that
ended would have done alone. -/
structure Inv (env : Env) (w : PolicyThreads) (Q : Policy) : Prop where
  agrees : w.conn.file.policy.Agrees Q
  stages : ∀ t ∈ w.threads, t.op.Places ∧ Stage env t.op w.conn t.rest

variable {env : Env} {w : PolicyThreads} {Q : Policy}

private theorem serial_answer (op : PolicyOp) (answer : Option (Except Exc Bool)) :
    serial env [answer.map (op, ·)] Q = op.serialStep env answer Q := by
  cases answer <;> simp [serial, serialStep]

private theorem answer_code {op : PolicyOp} (hop : op.Places) :
    answer (op.code env).run ≠ some (.ok true) := by
  intro h
  cases op with
  | create | importList => cases h
  | block domains =>
    by_cases hvalid : DomainManager.filterValid env domains = []
    · rw [code, DomainManager.blockDomains, hvalid] at h
      cases h
    · have hmakes : (PolicyOp.block domains).makes env =
          some { name := "CUSTOM", url := "", description := "Custom list", custom := true } :=
        if_neg hvalid
      rw [code_run_of_makes hmakes] at h
      cases h
  | unblock domains =>
    by_cases hvalid : DomainManager.filterValid env domains = []
    · rw [code, DomainManager.unblockDomains, hvalid] at h
      cases h
    · rw [code, DomainManager.unblockDomains_eq hvalid] at h
      cases h
  | setEnabled | remove | restart => exact hop

theorem step_inv (h : Inv env w Q) {e : ThreadTurn} (he : ∀ op, e = .starts op → op.Places) :
    Inv env (step env e w).2 (serial env [(step env e w).1] Q) := by
  cases e with
  | starts op =>
    have hop : op.Places := he op rfl
    have hstages : ∀ t ∈ w.threads ++ [⟨op, (op.code env).run⟩],
        t.op.Places ∧ Stage env t.op w.conn t.rest := by
      intro t ht
      rcases List.mem_append.mp ht with ht | ht
      · exact h.stages t ht
      · rw [List.mem_singleton.mp ht]
        exact ⟨hop, .fresh⟩
    simp only [step, serial_answer, serialStep, if_neg (answer_code hop)]
    exact ⟨h.agrees, hstages⟩
  | goesOn i ambient =>
    cases hi : w.threads[i]? with
    | none =>
      simp only [step, hi]
      exact h
    | some t =>
    obtain ⟨hop, hstage⟩ := h.stages t (List.mem_of_getElem? hi)
    cases hgoes : answer t.rest with
    | some r =>
      simp only [step, hi, hgoes, Option.isSome_some, if_true]
      exact h
    | none =>
      obtain ⟨rest, s, hturn, hstage', hlater, houtcome⟩ :=
        hstage.turned (s := ⟨w.conn, false, ambient⟩) hop rfl hgoes
      simp only [step, hi, hgoes, hturn, Option.isSome_none, Bool.false_eq_true, if_false,
        serial_answer]
      refine ⟨houtcome.agrees hop h.agrees, ?_⟩
      intro t' ht'
      rcases List.mem_or_eq_of_mem_set ht' with ht' | rfl
      · exact ⟨(h.stages t' ht').1, (h.stages t' ht').2.later hlater⟩
      · exact ⟨hop, hstage'⟩

theorem runEvents_inv (es : List ThreadTurn) (h : Inv env w Q)
    (hes : ∀ op, .starts op ∈ es → op.Places) :
    Inv env (runEvents (step env) es w).2 (serial env (runEvents (step env) es w).1 Q) := by
  induction es generalizing w Q with
  | nil => exact h
  | cons e es ih =>
    have hfirst := step_inv h (e := e) fun op hop => hes op (hop ▸ List.mem_cons_self)
    exact ih hfirst fun op hop => hes op (List.mem_cons_of_mem _ hop)

/-- Whatever fails, and however the scopes of imports and blocks in any number of threads fall
between each other: who owns a domain, and which domains the listings say are blocked and
allowed, is as if the operations that answered `true` had run one after the other, in the order
in which they ended. -/
theorem threads_serial (env : Env) (es : List ThreadTurn) (c : Connection)
    (hwhitelist : (c.file.policy.group "WHITELIST").isSome = true)
    (hes : ∀ op, .starts op ∈ es → op.Places) :
    let x := runEvents (step env) es { conn := c }
    let Q := serial env x.1 c.file.policy
    (∀ m, x.2.conn.file.policy.owner m = Q.owner m) ∧
      (x.2.conn.tx = none →
        (∃ rows, x.2.conn.Lists DomainManager.getBlocked rows ∧
          ∀ m, m ∈ rows.map Domain.name ↔ Q.Blocks m) ∧
        ∃ rows, x.2.conn.Lists DomainManager.getWhitelisted rows ∧
          ∀ m, m ∈ rows.map Domain.name ↔ Q.Allows m) := by
  intro x Q
  have hinv : Inv env x.2 Q :=
    runEvents_inv es ⟨⟨.refl _, hwhitelist, hwhitelist⟩, by simp⟩ hes
  refine ⟨fun m => (hinv.agrees.alike.owner m).symm, fun hidle => ?_⟩
  have hreads := Connection.reads_policy hidle
  obtain ⟨blocked, hblocked, _, hb⟩ := hreads.blocked
  obtain ⟨allowed, hallowed, _, ha⟩ := hreads.whitelisted
  have hB (m : String) : Q.Blocks m ↔ x.2.conn.file.policy.Blocks m :=
    hinv.agrees.alike.within (p := fun k : Bool × Bool => k.1 = true ∧ k.2 = false)
  have hA (m : String) : Q.Allows m ↔ x.2.conn.file.policy.Allows m :=
    hinv.agrees.alike.within (p := fun k : Bool × Bool => k.1 = true ∧ k.2 = true)
  exact ⟨⟨blocked, hblocked, fun m => (hb m).trans (hB m).symm⟩, allowed, hallowed,
    fun m => (ha m).trans (hA m).symm⟩

def contended : List ThreadTurn :=
  let ads : DomainList := { name := "ADS", domains := [{ name := "a" }, { name := "b" }] }
  [.starts (.importList ads false), .starts (.block ["b", "c"]), .goesOn 0 {}, .goesOn 1 {},
    .goesOn 0 {}, .goesOn 1 {}, .goesOn 1 {}, .goesOn 0 {}]

/-- A program of its own removes the list between two scopes of an import, and makes another. -/
def removedMeanwhile : List ThreadTurn :=
  [.starts (.importList { name := "ADS", domains := [{ name := "a" }] } false), .goesOn 0 {},
    .goesOn 0 {}, .starts (.remove "ADS"), .goesOn 1 {}, .starts (.create "NEWS" "" "" true),
    .goesOn 2 {}, .goesOn 0 {}]

/-- The import ends last and has the name.  A list that is removed meanwhile can leave its id, and
with it the names of the import, to another list. -/
theorem threads_serial_contended :
    let env := Env.ofTexts []
    let c : Connection := ⟨Db.seeded, none⟩
    (let x := runEvents (step env) contended { conn := c }
      let Q := serial env x.1 c.file.policy
      (∀ m, x.2.conn.file.policy.owner m = Q.owner m) ∧
        (x.2.conn.tx = none →
          (∃ rows, x.2.conn.Lists DomainManager.getBlocked rows ∧
            ∀ m, m ∈ rows.map Domain.name ↔ Q.Blocks m) ∧
          ∃ rows, x.2.conn.Lists DomainManager.getWhitelisted rows ∧
            ∀ m, m ∈ rows.map Domain.name ↔ Q.Allows m)) ∧
      (runEvents (step env) contended { conn := c }).2.conn.file.policy.owner "b" = some "ADS" ∧
      (runEvents (step env) removedMeanwhile { conn := c }).2.conn.file.policy.owner "a" =
        some "NEWS" := by
  intro env c
  have hes : ∀ op, .starts op ∈ contended → op.Places := by
    intro op hop
    simp only [contended, List.mem_cons, ThreadTurn.starts.injEq, reduceCtorEq, List.not_mem_nil,
      or_false] at hop
    rcases hop with rfl | rfl <;> trivial
  exact ⟨threads_serial env contended c (by decide +kernel) hes, by decide +kernel,
    by decide +kernel⟩

end PolicyThreads

end DblService
