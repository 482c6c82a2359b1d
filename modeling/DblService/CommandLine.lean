import DblService.Query
import DblService.Policy.Performed

/-!
# The calls of the program

A call opens the database and starts it.  Then it answers a query, runs one command, or goes on
as the service.  Whatever fails, a sequence of calls does to the policy what the commands ask
for.
-/

namespace DblService

open Framework Session

/-- The options that `main` and `Query` read, and those of `Mgmt`. -/
structure CallOptions where
  query : Bool := false
  domainLists : Bool := false
  domains : Bool := false
  domain : String := ""
  mgmt : MgmtOptions := {}

/-- The options of a call, from what `Options::parse` leaves. -/
def CallOptions.of (p : Options) : CallOptions where
  query := (p.get .flag "query").getD false
  domainLists := (p.get .flag "domain-lists").getD false
  domains := (p.get .flag "domains").getD false
  domain := (p.get .string "domain").getD ""
  mgmt := .of p

namespace Query

def printDomainLists : Code Managed := do
  let records ← DomainListManager.get
  pure { done := true, out := String.join (records.map fun r =>
    r.name ++ " :: " ++ "Active: " ++ toString r.active ++ ", Custom: " ++ toString r.custom ++
      " :: " ++ showOptional r.description ++ "\n") }

def lines (names : List String) : String := String.join (names.map (· ++ "\n"))

def printBlockedDomains : Code Managed := do
  let records ← DomainManager.getBlocked
  pure { done := true, out := lines (records.map Domain.name) }

def run (options : CallOptions) : Code Managed :=
  if options.domainLists then printDomainLists
  else if options.domains then printBlockedDomains
  else if options.domain ≠ "" then printDomainDetails options.domain
  else pure { done := true }

end Query

def Mgmt.hasWork (options : MgmtOptions) : Bool :=
  options.addList || options.deleteList ≠ "" || options.exportList ≠ "" ||
    options.enableList ≠ "" || options.disableList ≠ "" || options.block ≠ [] ||
    options.unblock ≠ []

namespace CallOptions

def command (env : Env) (options : CallOptions) : Code (Option Managed) :=
  if options.query then do
    let managed ← Query.run options
    pure (some managed)
  else if Mgmt.hasWork options.mgmt then do
    let managed ← Mgmt.manage env options.mgmt
    pure (some managed)
  else pure none

/-- `main` up to the service. -/
def code (env : Env) (options : CallOptions) : Code (Option Managed) := do
  DB.init
  command env options

end CallOptions

inductive Exit
  | status (success : Bool)
  | killed  -- no handler catches what was thrown
  | service  -- it goes on as the service
  deriving DecidableEq

/-- `main` catches every `std::exception`. -/
def Exit.of : Except Exc (Option Managed) → Exit
  | .ok (some managed) => .status managed.done
  | .ok none => .service
  | .error e => if e.isException then .status false else .killed

private theorem Exit.of_eq_success {r : Except Exc (Option Managed)} :
    Exit.of r = .status true ↔ ∃ managed, r = .ok (some managed) ∧ managed.done = true := by
  cases r with
  | error e => cases h : e.isException <;> simp [Exit.of, h]
  | ok managed => cases managed <;> simp [Exit.of]

private theorem Exit.of_eq_service {r : Except Exc (Option Managed)} :
    Exit.of r = .service ↔ r = .ok none := by
  cases r with
  | error e => cases h : e.isException <;> simp [Exit.of, h]
  | ok managed => cases managed <;> simp [Exit.of]

namespace CallOptions

/-- One call: it opens the file, and its transaction ends with it. -/
def step (env : Env) (e : CallOptions × Ambient) (file : Db) : Option Exit × Db :=
  let x := (⟨file, none⟩ : Connection).perform e.2 (e.1.code env)
  (x.1.map Exit.of, x.2.file)

end CallOptions

/-! ## What the commands ask for -/

open PolicyOp

namespace Mgmt

def listOperation (options : MgmtOptions) : Option PolicyOp :=
  if options.addList then
    if options.listName = "" ∨ options.listUrl = "" then none
    else some (.create options.listName options.listUrl options.listDescription false)
  else if options.deleteList ≠ "" then some (.remove options.deleteList)
  else if options.enableList ≠ "" then some (.setEnabled options.enableList true)
  else if options.disableList ≠ "" then some (.setEnabled options.disableList false)
  else none

/-- The operations of a command about domains: where a conflict is fatal, nothing is blocked. -/
def domainOperations (options : MgmtOptions) : List PolicyOp :=
  (if options.unblock ≠ [] then [.unblock options.unblock] else []) ++
    if options.block ≠ [] ∧ (conflicts options).isOk = true then [.block options.block] else []

def operations (options : MgmtOptions) : List PolicyOp :=
  if options.addList ∨ options.deleteList ≠ "" ∨ options.enableList ≠ "" ∨
      options.disableList ≠ "" then (listOperation options).toList
  else if options.exportList ≠ "" then []
  else domainOperations options

end Mgmt

/-- The operations of a call: the start, and those of its command. -/
def CallOptions.operations (options : CallOptions) : List PolicyOp :=
  .restart :: if options.query then [] else Mgmt.operations options.mgmt

namespace Mgmt

open Framework.Code

variable {env : Env} {s : Store}

/-- An operation whose result the command returns. -/
theorem exec_returning {op : PolicyOp} (hop : op ≠ .restart) {p : Code Bool}
    (hp : op.code env = p) (hs : s.held = false) :
    ∃ r s' q, s.exec (returning p) = some (r, s') ∧ Performed env [op] [some q] s r s' ∧
      ∀ managed, r = .ok managed → managed.done = true → q = .ok true := by
  subst hp
  obtain ⟨q, s', hrun, hdone⟩ := exec_code env hop hs
  rw [returning, Store.exec_bind, hrun]
  cases q with
  | error e => exact ⟨.error e, s', _, rfl, hdone.result (by simp), by simp⟩
  | ok done =>
    refine ⟨.ok { done }, s', _, rfl, hdone.result fun _ => ⟨done, rfl⟩, ?_⟩
    intro managed hmanaged htrue
    cases hmanaged
    exact congrArg Except.ok htrue

/-- A list that is made has a positive id. -/
theorem exec_addList (env : Env) {options : MgmtOptions} (hname : options.listName ≠ "")
    (hurl : options.listUrl ≠ "") (hs : s.held = false) :
    s.exec (addList options) = s.exec ((PolicyOp.create options.listName options.listUrl
      options.listDescription false).code env) := by
  have hadd : addList options = (do
      let listId ← DomainListManager.create options.listName options.listUrl
        options.listDescription false
      pure (decide (0 < listId))) := by
    simp [addList, hname, hurl]
  obtain ⟨id, s', hcreated, hrun⟩ :=
    s.exec_create options.listName options.listUrl options.listDescription false hs
  rw [hadd, PolicyOp.code, Store.exec_bind, Store.exec_bind, hrun]
  cases hcreated with
  | failed _ _ => rfl
  | crashed _ _ _ => rfl
  | created s₁ l _ _ hl =>
    have hid := s₁.conn.file.list_id_pos l (Db.listNamed_eq_some.mp hl).1
    have hne : l.id ≠ 0 := by omega
    change some (Except.ok (decide (0 < l.id)), _) = some (Except.ok (decide (l.id ≠ 0)), _)
    rw [decide_eq_true hid, decide_eq_true hne]

/-- A command about a list performs its operation and says whether it was done. -/
theorem exec_manage_list (env : Env) {options : MgmtOptions} {op : PolicyOp}
    (h : listOperation options = some op) (hs : s.held = false) :
    ∃ r s' q, s.exec (manage env options) = some (r, s') ∧ Performed env [op] [some q] s r s' ∧
      ∀ managed, r = .ok managed → managed.done = true → q = .ok true := by
  unfold listOperation at h
  unfold manage
  split_ifs at h ⊢ with hadd hmissing hdelete henable hdisable
  · cases h
    simp only [not_or] at hmissing
    have hexec := exec_addList env hmissing.1 hmissing.2 hs
    have hsame : s.exec (returning (addList options)) = s.exec (returning ((PolicyOp.create
        options.listName options.listUrl options.listDescription false).code env)) := by
      rw [returning, returning, Store.exec_bind, Store.exec_bind, hexec]
    rw [hsame]
    exact exec_returning (by simp) rfl hs
  · cases h
    exact exec_returning (by simp) rfl hs
  · cases h
    exact exec_returning (by simp) rfl hs
  · cases h
    exact exec_returning (by simp) rfl hs

private theorem performs_exportList (name : String) : Performs env (exportList env name) [] := by
  refine .of_keeps fun P => ?_
  unfold exportList
  refine (Store.keeps_getListByName _ _).bind ?_
  intro dl
  cases dl with
  | none => exact Keeps.pure _
  | some dl => exact Keeps.pure _

private theorem performs_manageDomains (options : MgmtOptions) :
    Performs env (manageDomains env options) (domainOperations options) := by
  have hblock : Performs env (if options.block ≠ [] then do
      let err ← conflicts options
      let _ ← DomainManager.blockDomains env options.block 0
      pure { done := true, err }
    else pure { done := true } : Code Managed)
      (if options.block ≠ [] ∧ (conflicts options).isOk = true then [.block options.block]
        else []) := by
    by_cases hnone : options.block = []
    · simp only [hnone]
      exact .pure _
    · simp only [ne_eq, hnone, not_false_eq_true, if_true, true_and]
      cases hconflicts : conflicts options with
      | error e => exact .throw e
      | ok err =>
        have hop : PolicyOp.block options.block ≠ .restart := by simp
        exact (PolicyOp.performs_code env hop).map
  unfold manageDomains domainOperations
  by_cases hnone : options.unblock = []
  · simp only [hnone]
    exact hblock
  · simp only [ne_eq, hnone, not_false_eq_true, if_true]
    have hop : PolicyOp.unblock options.unblock ≠ .restart := by simp
    exact (PolicyOp.performs_code env hop).bind fun _ => hblock

private theorem performs_addList_missing {options : MgmtOptions}
    (h : options.listName = "" ∨ options.listUrl = "") :
    Performs env (returning (addList options)) [] := by
  have hthrow (s : Store) : ∃ e, s.exec (addList options) = some (.error e, s) := by
    unfold addList
    by_cases hname : options.listName = ""
    · rw [if_pos hname]
      exact ⟨_, rfl⟩
    · rw [if_neg hname, if_pos (h.resolve_left hname)]
      exact ⟨_, rfl⟩
  intro s hs
  obtain ⟨e, he⟩ := hthrow s
  rw [returning, Store.exec_bind, he]
  exact ⟨.error e, s, [], rfl, .silent hs rfl⟩

private theorem performs_manage (options : MgmtOptions) :
    Performs env (manage env options) (operations options) := by
  intro s hs
  cases hlist : listOperation options with
  | some op =>
    obtain ⟨r, s', q, hrun, hdone, _⟩ := exec_manage_list env hlist hs
    have hops : operations options = [op] := by
      unfold operations
      rw [if_pos, hlist]
      · rfl
      · unfold listOperation at hlist
        split_ifs at hlist <;> simp_all
    rw [hops]
    exact ⟨r, s', _, hrun, hdone⟩
  | none =>
    by_cases hadd : options.addList = true
    · have hmissing : options.listName = "" ∨ options.listUrl = "" := by
        unfold listOperation at hlist
        rw [if_pos hadd] at hlist
        by_contra h
        simp [h] at hlist
      have hops : operations options = [] := by
        rw [operations, if_pos (Or.inl hadd), hlist]
        rfl
      rw [hops, manage, if_pos hadd]
      exact performs_addList_missing hmissing s hs
    · unfold listOperation at hlist
      rw [if_neg hadd] at hlist
      split_ifs at hlist with hdelete henable hdisable
      rw [operations, if_neg (by simp [hadd, hdelete, henable, hdisable]), manage, if_neg hadd,
        if_neg hdelete, if_neg henable, if_neg hdisable]
      split_ifs with hexport hdomains
      · exact performs_exportList options.exportList s hs
      · exact performs_manageDomains options s hs
      · have hnothing : domainOperations options = [] := by
          simp only [not_or, not_not] at hdomains
          simp [domainOperations, hdomains.1, hdomains.2]
        rw [hnothing]
        exact Performs.pure _ s hs

end Mgmt

theorem Query.performs_run (env : Env) (options : CallOptions) :
    Performs env (Query.run options) [] := by
  refine .of_keeps fun P => ?_
  unfold run
  split_ifs
  · exact (Store.keeps_collect _).bind fun _ => Framework.Code.Keeps.pure _
  · exact (Store.keeps_collect _).bind fun _ => Framework.Code.Keeps.pure _
  · refine (Store.keeps_getDomainByName _).bind ?_
    intro record
    cases record with
    | none => exact Framework.Code.Keeps.pure _
    | some record =>
      dsimp only
      split_ifs <;> exact Framework.Code.Keeps.pure _
  · exact Framework.Code.Keeps.pure _

private theorem Mgmt.operations_idle {options : MgmtOptions} (h : Mgmt.hasWork options = false) :
    Mgmt.operations options = [] := by
  simp only [hasWork, Bool.or_eq_false_iff, decide_eq_false_iff_not, not_not] at h
  obtain ⟨⟨⟨⟨⟨⟨hadd, hdelete⟩, hexport⟩, henable⟩, hdisable⟩, hblock⟩, hunblock⟩ := h
  simp [operations, domainOperations, hadd, hdelete, hexport, henable, hdisable, hblock, hunblock]

private theorem Mgmt.hasWork_of_list {options : MgmtOptions} {op : PolicyOp}
    (h : Mgmt.listOperation options = some op) : Mgmt.hasWork options = true := by
  unfold listOperation at h
  split_ifs at h <;> simp_all [hasWork]

/-! ## What a call does -/

namespace CallOptions

variable {env : Env} {s : Store}

private theorem performs_command (env : Env) (options : CallOptions) :
    Performs env (options.command env)
      (if options.query = true then [] else Mgmt.operations options.mgmt) := by
  unfold command
  split_ifs with hquery hwork
  · exact (Query.performs_run env options).map
  · exact (Mgmt.performs_manage options.mgmt).map
  · rw [Mgmt.operations_idle (by simpa using hwork)]
    exact .pure none

/-- A start that fails ends the call. -/
theorem exec_code_of_start {q : Except Exc Bool} {s₁ : Store}
    (h : s.exec (PolicyOp.restart.code env) = some (q, s₁)) (options : CallOptions) :
    (∃ e, q = .error e ∧ s.exec (options.code env) = some (.error e, s₁)) ∨
      (q = .ok true ∧ s.exec (options.code env) = s₁.exec (options.command env)) := by
  rw [PolicyOp.code, Store.exec_bind] at h
  rw [code, Store.exec_bind]
  cases hinit : s.exec DB.init with
  | none => simp [hinit] at h
  | some x =>
    obtain ⟨r, s'⟩ := x
    rw [hinit] at h
    cases r with
    | error e =>
      cases h
      exact .inl ⟨e, rfl, rfl⟩
    | ok _ =>
      cases h
      exact .inr ⟨rfl, rfl⟩

/-- The start, and then the query or the command. -/
theorem exec_code (env : Env) (hs : s.held = false) (hidle : s.conn.tx = none)
    (options : CallOptions) :
    ∃ r s' answers, s.exec (options.code env) = some (r, s') ∧
      Performed env options.operations answers s r s' := by
  obtain ⟨q, s₁, hstart, hdone⟩ := PolicyOp.exec_restart env hs hidle
  obtain ⟨e, rfl, hrun⟩ | ⟨rfl, hrun⟩ := exec_code_of_start hstart options
  · exact ⟨.error e, s₁, _, hrun, hdone.cut _⟩
  · obtain ⟨r, s', answers, hrest, hdone'⟩ := performs_command env options s₁ hdone.released
    exact ⟨r, s', _, hrun.trans hrest, hdone.append hdone'⟩

/-- A command about a list that ends well did what it is for, after the start. -/
theorem exec_code_list (hs : s.held = false) (hidle : s.conn.tx = none) {options : CallOptions}
    (hquery : options.query = false) {op : PolicyOp}
    (hop : Mgmt.listOperation options.mgmt = some op) {r : Except Exc (Option Managed)} {s' : Store}
    (hrun : s.exec (options.code env) = some (r, s')) (hexit : Exit.of r = .status true) :
    s'.conn.file.policy = op.effect env (PolicyOp.restart.effect env s.conn.file.policy) := by
  have hactive (P : Policy) : ¬ op.Idle env P := by
    unfold Mgmt.listOperation at hop
    split_ifs at hop <;> cases hop <;> exact id
  obtain ⟨managed, rfl, hmanaged⟩ := Exit.of_eq_success.mp hexit
  obtain ⟨q, s₁, hrestart, hstart⟩ := PolicyOp.exec_restart env hs hidle
  obtain ⟨e, _, hcode⟩ | ⟨rfl, hcode⟩ := exec_code_of_start hrestart options
  · rw [hcode] at hrun
    cases hrun
  · obtain ⟨q, s₂, answer, hmanage, hdone, hanswer⟩ :=
      Mgmt.exec_manage_list env hop hstart.released
    have hcommand : s₁.exec (options.command env) = some (q.map some, s₂) := by
      simp only [command, hquery, Bool.false_eq_true, if_false, Mgmt.hasWork_of_list hop, if_true]
      rw [Store.exec_bind, hmanage]
      cases q <;> rfl
    rw [hcode, hcommand] at hrun
    cases q with
    | error e => cases hrun
    | ok result =>
      cases hrun
      have hfirst := hstart.explained.outcome_of_single.of_true id
      have hsecond := hdone.explained.outcome_of_single
      rw [hanswer managed rfl hmanaged] at hsecond
      rw [hsecond.of_true (hactive _), hfirst]

/-- What a call can do to the policy: its operations in order, all of them if it ends well or
goes on; and ending well says of a command about a list that it did what it is for. -/
structure Outcome (env : Env) (e : CallOptions × Ambient) (exit : Option Exit) (P P' : Policy) :
    Prop where
  ends : exit.isSome = true
  explained : ∃ answers, ExplainsPart (PolicyOp.Outcome env) e.1.operations
    (exit = some (.status true) ∨ exit = some .service) answers P P'
  settled : exit = some (.status true) → e.1.query = false →
    ∀ op, Mgmt.listOperation e.1.mgmt = some op →
      P' = op.effect env (PolicyOp.restart.effect env P)

theorem step_outcome (env : Env) (e : CallOptions × Ambient) (file : Db) :
    Outcome env e (step env e file).1 file.policy (step env e file).2.policy := by
  obtain ⟨options, ambient⟩ := e
  obtain ⟨r, s', answers, hrun, hdone⟩ :=
    exec_code env (s := ⟨⟨file, none⟩, false, ambient⟩) rfl rfl options
  have hstep : step env (options, ambient) file = (some (Exit.of r), s'.conn.file) := by
    unfold step
    rw [Connection.perform_of_exec hrun]
    rfl
  rw [hstep]
  refine ⟨rfl, ⟨answers, (hdone.explained.weaken ?_)⟩, ?_⟩
  · simp only [Option.some.injEq, Exit.of_eq_success, Exit.of_eq_service]
    rintro (⟨managed, rfl, _⟩ | rfl)
    · exact ⟨some managed, rfl⟩
    · exact ⟨none, rfl⟩
  · intro hexit hquery op hop
    exact exec_code_list rfl rfl hquery hop hrun (Option.some.inj hexit)

private theorem getBlocked_names_sorted (db : Db) :
    ((Query.getBlockedDomains.rows db).map Domain.name).Pairwise (· ≤ ·) := by
  have htotal : Std.Total fun a b : Domain => a.name ≤ b.name :=
    ⟨fun a b => String.le_total a.name b.name⟩
  have htrans : IsTrans Domain fun a b => a.name ≤ b.name := ⟨fun _ _ _ => String.le_trans⟩
  exact List.pairwise_map.mpr
    (List.pairwise_insertionSort (fun a b : Domain => a.name ≤ b.name) _)

private theorem getBlocked_names_nodup (db : Db) :
    ((Query.getBlockedDomains.rows db).map Domain.name).Nodup :=
  ((List.perm_insertionSort _ _).map _).nodup_iff.mpr (db.joinLists_names_nodup _)

/-- What `--query --domains` prints when nothing fails. -/
theorem exec_query_domains (env : Env) (db : Db) :
    ∃ names s', (Store.free ⟨db, none⟩).exec (code env { query := true, domains := true }) =
        some (.ok (some { done := true, out := Query.lines names }), s') ∧
      names.Pairwise (· ≤ ·) ∧ names.Nodup ∧ ∀ m, m ∈ names ↔ db.policy.Blocks m := by
  have hquiet : Done env .restart (Store.free ⟨db, none⟩) :=
    done_restart (Store.free_isFree ⟨db, none⟩) rfl
  obtain ⟨s₁, hstart, hidle, hpolicy⟩ := hquiet
  obtain ⟨q, s₂, hrestart, hdone⟩ :=
    PolicyOp.exec_restart env (s := Store.free ⟨db, none⟩) rfl rfl
  cases hstart.symm.trans hrestart
  obtain ⟨e, he, _⟩ | ⟨_, hcode⟩ := exec_code_of_start hstart { query := true, domains := true }
  · cases he
  have hfree : s₁.ambient.faults = [] := PolicyOp.faults_of_exec rfl hstart
  obtain ⟨rows, s', hrun, hc⟩ := s₁.exec_collect .getBlockedDomains hdone.released
  obtain ⟨rfl, rfl⟩ := hc.of_quiet (Ambient.quiet_of_no_faults hfree _)
  refine ⟨(Query.getBlockedDomains.rows s₁.conn.view).map Domain.name,
    s₁.after s₁.conn ((Query.getBlockedDomains.rows s₁.conn.view).length + 2), ?_,
    getBlocked_names_sorted _, getBlocked_names_nodup _, ?_⟩
  · have hcommand : command env { query := true, domains := true } = (do
        let managed ← Query.printBlockedDomains
        pure (some managed)) := rfl
    rw [hcode, hcommand, Store.exec_bind, Query.printBlockedDomains, Store.exec_bind,
      DomainManager.getBlocked, hrun]
    rfl
  · intro m
    have hnames : ¬ PolicyOp.restart.Names env m := id
    have hsame : Registry.SameFor m db.policy s₁.conn.file.policy := by
      rw [hpolicy]
      exact sameFor_effect hnames fun _ _ => id
    rw [Db.mem_getBlocked_names, Connection.view_of_idle hidle]
    have hblocks : s₁.conn.file.policy.Blocks m ↔ db.policy.Blocks m := hsame.within
    rw [← hblocks, Policy.Blocks, Db.policy_within]
    rfl

private theorem explains_calls (env : Env) (es : List (CallOptions × Ambient)) (file : Db) :
    Explains (Outcome env) es (runEvents (step env) es file).1 file.policy
      (runEvents (step env) es file).2.policy := by
  have hstep (e : CallOptions × Ambient) (db : Db) (P : Policy) (hP : db.policy = P) :
      ∃ P', Outcome env e (step env e db).1 P P' ∧ (step env e db).2.policy = P' :=
    ⟨_, hP ▸ step_outcome env e db, rfl⟩
  obtain ⟨P, hexplains, rfl⟩ := explains_runEvents hstep es (Eq.refl file.policy)
  exact hexplains

/-- Whatever fails, a sequence of calls does to the policy what its command lines ask for, and a
query that nothing disturbs prints afterwards, in order, the names that the policy blocks. -/
theorem calls_explained (env : Env) (es : List (CallOptions × Ambient)) (file : Db) :
    let x := runEvents (step env) es file
    Explains (Outcome env) es x.1 file.policy x.2.policy ∧
      ∃ names s', (Store.free ⟨x.2, none⟩).exec (code env { query := true, domains := true }) =
          some (.ok (some { done := true, out := Query.lines names }), s') ∧
        names.Pairwise (· ≤ ·) ∧ names.Nodup ∧ ∀ m, m ∈ names ↔ x.2.policy.Blocks m := by
  intro x
  exact ⟨explains_calls env es file, exec_query_domains env x.2⟩

/-- Whatever fails in a sequence of calls, a domain that no command line names, and whose list
none of them switches or removes, belongs to the list it belonged to, and a query that nothing
disturbs prints it afterwards exactly if it was blocked before. -/
theorem calls_untouched (env : Env) (es : List (CallOptions × Ambient)) (file : Db) (m : String)
    (hnames : ∀ e ∈ es, ∀ op ∈ e.1.operations, ¬ op.Names env m)
    (hlist : ∀ e ∈ es, ∀ op ∈ e.1.operations, ∀ list, file.policy.owner m = some list →
      ¬ op.Switches list) :
    let file' := (runEvents (step env) es file).2
    file'.policy.owner m = file.policy.owner m ∧
      ∃ names s', (Store.free ⟨file', none⟩).exec (code env { query := true, domains := true }) =
          some (.ok (some { done := true, out := Query.lines names }), s') ∧
        (m ∈ names ↔ file.policy.Blocks m) := by
  intro file'
  have hsame : Registry.SameFor m file.policy file'.policy := by
    apply (explains_calls env es file).invariant (I := Registry.SameFor m file.policy) _ (.refl m _)
    intro e he exit P P' houtcome hP
    obtain ⟨answers, hexplained⟩ := houtcome.explained
    apply hexplained.invariant _ hP
    intro op hop r P P' hstep hP
    refine hP.trans (hstep.sameFor (hnames e he op hop) ?_)
    intro list hown
    exact hlist e he op hop list (hP.owner.symm.trans hown)
  obtain ⟨names, s', hrun, _, _, hmem⟩ := exec_query_domains env file'
  exact ⟨hsame.owner, names, s', hrun, (hmem m).trans hsame.within⟩

/-- A call that is cut short, one that removes another list, and one that only asks. -/
theorem calls_untouched_ads :
    let env := Env.ofTexts []
    let es : List (CallOptions × Ambient) :=
      [({ mgmt := { block := ["b"], unblock := ["c"] } },
          { faults := [false, false, false, false, false, false, false, false, true] }),
        ({ mgmt := { deleteList := "WHITELIST" } }, {}), ({ query := true, domains := true }, {})]
    let file := Db.seeded.replaceDomain "ads.example" 1 Db.seeded_custom_id
    let file' := (runEvents (step env) es file).2
    file'.policy.owner "ads.example" = file.policy.owner "ads.example" ∧
      ∃ names s', (Store.free ⟨file', none⟩).exec (code env { query := true, domains := true }) =
          some (.ok (some { done := true, out := Query.lines names }), s') ∧
        ("ads.example" ∈ names ↔ file.policy.Blocks "ads.example") := by
  intro env es file
  have howner : file.policy.owner "ads.example" = some "CUSTOM" := by decide +kernel
  apply calls_untouched env es file "ads.example"
  · decide +kernel
  · intro e he op hop list hlist
    rw [howner, Option.some.injEq] at hlist
    subst hlist
    have hnone : ∀ e ∈ es, ∀ op ∈ e.1.operations, ¬ op.Switches "CUSTOM" := by decide +kernel
    exact hnone e he op hop

end CallOptions

end DblService
