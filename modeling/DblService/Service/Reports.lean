import DblService.Service.ServiceConnection

/-!
# What an answer says

Whether `success` in the answer to a request means that the managers did what was asked
of them.  A command is read into the job it hands to a manager; the handlers ignore what
the writing managers return, and dereference what the reading ones return.
-/

namespace DblService

open Framework Session DomainManager DomainListManager

/-! ## The jobs of the handlers -/

/-- The commands that hand a job to a manager. -/
inductive Command
  | block | unblock | importDomainList | removeServicePassword
  | getDomain | getDomains | getDomainList | getDomainLists

inductive Job
  | block (domains : List String)
  | unblock (domains : List String)
  | importList (lst : DomainList) (custom : Bool)
  | removePassword
  | getDomain (name : String)
  | getDomainList (name : String) (withDomains : Bool)
  | collect (q : Query)

namespace Command

def name : Command → String
  | block => "block"
  | unblock => "unblock"
  | importDomainList => "import_domain_list"
  | removeServicePassword => "remove_service_password"
  | getDomain => "get_domain"
  | getDomains => "get_domains"
  | getDomainList => "get_domain_list"
  | getDomainLists => "get_domain_lists"

def handler (env : Env) : Command → Handler
  | block => ServiceConnection.handleBlock env
  | unblock => ServiceConnection.handleUnblock env
  | importDomainList => ServiceConnection.handleImportDomainList env
  | removeServicePassword => ServiceConnection.handleRemoveServicePassword
  | getDomain => ServiceConnection.handleGetDomain env
  | getDomains => ServiceConnection.handleGetDomains env
  | getDomainList => ServiceConnection.handleGetDomainList env
  | getDomainLists => ServiceConnection.handleGetDomainLists

def domains (env : Env) (refusal : String) (data : Json) : Except Exc (List String) := do
  let domains ← env.get data "domains"
  if !domains.isArray then throw (.service refusal []) else domains.items.mapM env.asString

def nameOf (env : Env) (refusal : String) (data : Json) : Except Exc String := do
  let name ← env.get data "name"
  let name ← env.asString name
  if name = "" then throw (.service refusal []) else pure name

/-- What the handler reads of the data before it calls a manager. -/
def job (env : Env) (data : Json) : Command → Except Exc Job
  | block => do
    let domains ← domains env "Domains must be an array" data
    pure (.block domains)
  | unblock => do
    let domains ← domains env "Expected array of domains" data
    pure (.unblock domains)
  | importDomainList => do
    let document ← env.get data "domain_list"
    if !document.isObject then throw (.service "Invalid data." [])
    else
      let decoded := (DomainList.initFromJson env document).run.run {}
      decoded.1
      let custom ← env.get data "custom"
      let custom ← env.asBool custom
      pure (.importList decoded.2 custom)
  | removeServicePassword => pure .removePassword
  | getDomain => do
    let name ← nameOf env "No domain name given" data
    pure (.getDomain name)
  | getDomains => do
    let type ← env.get data "type"
    let type ← env.asString type
    if type = "blocked" then pure (.collect .getBlockedDomains)
    else if type = "whitelisted" then pure (.collect .getAllWhitelistedDomains)
    else
      let listId ← env.get data "list_id"
      let listId ← env.asInt listId
      if listId = 0 then throw (.service "Need type." [])
      else pure (.collect (.getDomains listId))
  | getDomainList => do
    let name ← nameOf env "No name given." data
    let withDomains ← env.get data "with_domains"
    let withDomains ← env.asBool withDomains
    pure (.getDomainList name withDomains)
  | getDomainLists => pure (.collect .getDomainLists)

end Command

namespace Job

/-- The call of the manager: `false` is its failure, a null pointer included. -/
def manage (env : Env) : Job → Code Bool
  | block domains => blockDomains env domains 0
  | unblock domains => unblockDomains env domains
  | importList lst custom => DomainListManager.importList lst custom
  | removePassword => Auth.removePassword
  | getDomain name => Option.isSome <$> DomainManager.getByName name
  | getDomainList name withDomains => Option.isSome <$> DomainListManager.getByName name withDomains
  | collect q => (fun _ => true) <$> Session.collect q

/-- The job writes; the handler ignores what its manager returns. -/
def writes : Job → Bool
  | block _ | unblock _ | importList _ _ | removePassword => true
  | _ => false

def Succeeds (env : Env) (job : Job) (s : Store) : Prop :=
  ∃ s', s.exec (job.manage env) = some (.ok true, s') ∧ s'.ambient.raised = s.ambient.raised

def Completes (env : Env) (s : Store) : Job → Prop
  | block domains =>
    let valid := filterValid env domains
    valid ≠ [] ∧ s.conn.tx = none ∧ s.ambient.Quiet (4 + (2 * valid.length + 2))
  | unblock domains =>
    let valid := filterValid env domains
    valid ≠ [] ∧ s.conn.tx = none ∧ s.ambient.Quiet (valid.length + 2) ∧
      (s.conn.file.listNamed "WHITELIST").isSome
  | importList lst _ =>
    s.conn.tx = none ∧ s.ambient.Quiet (4 + (lst.domains.length + 1 + 2))
  | removePassword => s.conn.tx = none ∧ s.ambient.Quiet 3
  | getDomain _ => s.ambient.Quiet 1
  | getDomainList name withDomains => s.ambient.Quiet 1 ∧
    ∀ l, s.conn.view.listNamed name = some l → withDomains = true →
      (s.ambient.skip 1).Quiet (((Query.getDomains l.id).rows s.conn.view).length + 2)
  | collect q => s.ambient.Quiet ((q.rows s.conn.view).length + 2)

def rowsResponse : (q : Query) → List q.Row → Json
  | .getDomainLists, rows => .array (rows.map fun lst => lst.toJson .null)
  | .getDomains _, rows | .getBlockedDomains, rows | .getAllWhitelistedDomains, rows =>
    .array (rows.map Domain.toJson)
  | _, _ => .null

/-- The rest of the handler. -/
def finish (env : Env) : Job → Code Handled
  | block domains => do
    let _ ← blockDomains env domains 0
    pure {}
  | unblock domains => do
    let _ ← unblockDomains env domains
    pure {}
  | importList lst custom => do
    let _ ← DomainListManager.importList lst custom
    pure {}
  | removePassword => do
    let _ ← Auth.removePassword
    pure {}
  | getDomain name => do
    match ← DomainManager.getByName name with
    | some domain => pure { response := domain.toJson }
    | none => throw .nullDereference
  | getDomainList name withDomains => do
    match ← DomainListManager.getByName name withDomains with
    | some lst => pure { response := lst.toJson (.object []) }
    | none => throw .nullDereference
  | collect q => do
    let rows ← Session.collect q
    pure { response := rowsResponse q rows }

end Job

/-- Reading the data raises nothing but a `std::exception`. -/
theorem Command.standard_job (env : Env) (data : Json) (c : Command) :
    Standard (c.job env data) := by
  have hget (key : String) : Standard (env.get data key) := env.standard_lift _
  have hstring (j : Json) : Standard (env.asString j) := env.standard_lift _
  have hbool (j : Json) : Standard (env.asBool j) := env.standard_lift _
  have hdomains (refusal : String) : Standard (domains env refusal data) := by
    apply (hget _).bind
    intro value
    split_ifs
    · exact .error rfl
    · exact .mapM hstring _
  have hname (refusal : String) : Standard (nameOf env refusal data) := by
    apply (hget _).bind
    intro value
    apply (hstring _).bind
    intro name
    split_ifs
    · exact .error rfl
    · exact .ok _
  cases c with
  | block => exact (hdomains _).bind fun _ => .ok _
  | unblock => exact (hdomains _).bind fun _ => .ok _
  | importDomainList =>
    apply (hget _).bind
    intro document
    split_ifs
    · exact .error rfl
    · exact (DomainList.standard_initFromJson env document {}).bind fun _ =>
        (hget _).bind fun custom => (hbool _).bind fun _ => .ok _
  | removeServicePassword => exact .ok _
  | getDomain => exact (hname _).bind fun _ => .ok _
  | getDomains =>
    apply (hget _).bind
    intro value
    apply (hstring _).bind
    intro type
    split_ifs
    · exact .ok _
    · exact .ok _
    · apply (hget _).bind
      intro value
      apply (env.standard_lift _).bind
      intro listId
      split_ifs
      · exact .error rfl
      · exact .ok _
  | getDomainList =>
    exact (hname _).bind fun _ => (hget _).bind fun value => (hbool _).bind fun _ => .ok _
  | getDomainLists => exact .ok _

theorem Command.domainNames_eq (env : Env) (refusal : String) (data : Json) :
    ServiceConnection.domainNames env refusal data = orThrow (domains env refusal data) := by
  unfold ServiceConnection.domainNames domains
  cases env.get data "domains" with
  | error e => rfl
  | ok value =>
    change (if _ then _ else _) = orThrow (if _ then _ else _)
    split_ifs <;> rfl

/-- Reading one value after the other. -/
theorem orThrow_bind {α β γ : Type} (r : Except Exc α) (f : α → Except Exc β) (k : β → Code γ) :
    orThrow (r >>= f) >>= k = orThrow r >>= fun a => orThrow (f a) >>= k := by
  cases r <;> rfl

private theorem orThrow_bind_congr {α β : Type} (r : Except Exc α) {f g : α → Code β}
    (h : ∀ a, f a = g a) : orThrow r >>= f = orThrow r >>= g :=
  congrArg (orThrow r >>= ·) (funext h)

private theorem Command.nameOf_bind {α : Type} (env : Env) (refusal : String) (data : Json)
    (rest : String → Code α) : (do
      let name ← orThrow (env.get data "name")
      let name ← orThrow (env.asString name)
      if name = "" then throw (.service refusal []) else rest name) =
        orThrow (nameOf env refusal data) >>= rest := by
  unfold nameOf
  rw [orThrow_bind]
  apply orThrow_bind_congr
  intro value
  rw [orThrow_bind]
  apply orThrow_bind_congr
  intro name
  split_ifs <;> rfl

/-- A handler reads its job and finishes it. -/
theorem Command.handler_eq (env : Env) (data : Json) (c : Command) :
    c.handler env data = orThrow (c.job env data) >>= Job.finish env := by
  cases c with
  | block =>
    simp only [handler, ServiceConnection.handleBlock, job, domainNames_eq]
    cases domains env "Domains must be an array" data <;> rfl
  | unblock =>
    simp only [handler, ServiceConnection.handleUnblock, job, domainNames_eq]
    cases domains env "Expected array of domains" data <;> rfl
  | importDomainList =>
    simp only [handler, ServiceConnection.handleImportDomainList, job]
    rw [orThrow_bind]
    apply orThrow_bind_congr
    intro document
    split_ifs
    · rfl
    cases hdecoded : (DomainList.initFromJson env document).run.run {} with
    | mk r lst =>
      cases r with
      | error e => rfl
      | ok _ =>
        change orThrow (env.get data "custom") >>= _ =
          orThrow (env.get data "custom" >>= fun custom => env.asBool custom >>= _) >>= _
        rw [orThrow_bind]
        apply orThrow_bind_congr
        intro custom
        rw [orThrow_bind]
        rfl
  | removeServicePassword => rfl
  | getDomain =>
    have hname := nameOf_bind env "No domain name given" data fun name =>
      Job.finish env (.getDomain name)
    apply hname.trans
    simp only [job]
    cases nameOf env "No domain name given" data <;> rfl
  | getDomains =>
    simp only [handler, ServiceConnection.handleGetDomains, job]
    rw [orThrow_bind]
    apply orThrow_bind_congr
    intro value
    rw [orThrow_bind]
    apply orThrow_bind_congr
    intro type
    split_ifs
    · rfl
    · rfl
    rw [orThrow_bind]
    apply orThrow_bind_congr
    intro value
    rw [orThrow_bind]
    apply orThrow_bind_congr
    intro listId
    split_ifs <;> rfl
  | getDomainList =>
    have hname := nameOf_bind env "No name given." data fun name => do
      let withDomains ← orThrow (env.get data "with_domains")
      let withDomains ← orThrow (env.asBool withDomains)
      Job.finish env (.getDomainList name withDomains)
    apply hname.trans
    simp only [job]
    rw [orThrow_bind]
    apply orThrow_bind_congr
    intro name
    rw [orThrow_bind]
    apply orThrow_bind_congr
    intro value
    rw [orThrow_bind]
    rfl
  | getDomainLists => rfl

/-! ## What a job ends with -/

/-- What the manager ends with, and what the handler makes of it. -/
inductive Job.Outcome (job : Job) : Except Exc Bool → Except Exc Handled → Prop
  | done (handled : Handled) : Outcome job (.ok true) (.ok handled)
  | ignored (hwrites : job.writes = true) (handled : Handled) : Outcome job (.ok false) (.ok handled)
  | null (hreads : job.writes = false) : Outcome job (.ok false) (.error .nullDereference)
  | crashed : Outcome job (.error .nullDereference) (.error .nullDereference)

namespace Job

/-- The manager and the handler end together, and the manager succeeds without a statement
that raises exactly when the job completes. -/
def Settled (env : Env) (s : Store) (job : Job) : Prop :=
  ∃ r r' s', s.exec (job.manage env) = some (r, s') ∧ s.exec (job.finish env) = some (r', s') ∧
    job.Outcome r r' ∧
    ((r = .ok true ∧ s'.ambient.raised = s.ambient.raised) ↔ job.Completes env s)

variable {env : Env} {s : Store}

private theorem settled_of_writes {job : Job} (hwrites : job.writes = true)
    (hfinish : job.finish env = do
      let _ ← job.manage env
      pure {})
    {r : Except Exc Bool} {s' : Store} (hrun : s.exec (job.manage env) = some (r, s'))
    (hr : r = .error .nullDereference ∨ ∃ done, r = .ok done)
    (hiff : (r = .ok true ∧ s'.ambient.raised = s.ambient.raised) ↔ job.Completes env s) :
    job.Settled env s := by
  have hexec : s.exec (job.finish env) = some (r.map fun _ => {}, s') := by
    rw [hfinish, Store.exec_bind, hrun]
    cases r <;> rfl
  refine ⟨r, _, s', hrun, hexec, ?_, hiff⟩
  rcases hr with rfl | ⟨done, rfl⟩
  · exact .crashed
  · cases done with
    | true => exact .done {}
    | false => exact .ignored hwrites {}

private theorem settled_of_transacted {job : Job} (hwrites : job.writes = true)
    (hfinish : job.finish env = do
      let _ ← job.manage env
      pure {})
    {stmts : List Stmt} {done : Bool} {s' : Store}
    (hrun : s.exec (job.manage env) = some (.ok done, s')) (ht : Transacted stmts s done s')
    (hcompletes : job.Completes env s ↔ s.conn.tx = none ∧ s.ambient.Quiet (stmts.length + 2) ∧
      ∃ db, Stmt.runAll s.ambient.now stmts s.conn.file = .ok db) : job.Settled env s := by
  apply settled_of_writes hwrites hfinish hrun (Or.inr ⟨done, rfl⟩)
  rw [hcompletes, ← ht.done_iff, ht.raised_eq]
  cases done <;> simp

private theorem settled_of_created {job : Job} (hwrites : job.writes = true)
    (hfinish : job.finish env = do
      let _ ← job.manage env
      pure {})
    {r : Option Int} {s₁ : Store} {stmts : Int → List Stmt}
    (hrun : match r with
      | none => s.exec (job.manage env) = some (.error .nullDereference, s₁)
      | some id => ∃ done s', s.exec (job.manage env) = some (.ok done, s') ∧
          Transacted (stmts id) s₁ done s')
    {name url description : String} {custom : Bool}
    (hcreated : Created name url description custom s r s₁) {n : Nat}
    (hlength : ∀ id, (stmts id).length = n)
    (hstmts : ∀ (now : Int) (db : Db) (l : DomainListRow), l ∈ db.domainLists →
      ∃ db', Stmt.runAll now (stmts l.id) db = .ok db')
    (hcompletes : job.Completes env s ↔ s.conn.tx = none ∧ s.ambient.Quiet (4 + (n + 2))) :
    job.Settled env s := by
  cases r with
  | none =>
    refine settled_of_writes hwrites hfinish hrun (Or.inl rfl) (iff_of_false nofun ?_)
    rw [hcompletes]
    rintro ⟨hidle, hquiet⟩
    obtain ⟨l, _, hnone, _⟩ := hcreated.of_quiet hidle (Ambient.quiet_add.mp hquiet).1
    cases hnone
  | some id =>
    obtain ⟨done, s', hrun, ht⟩ := hrun
    apply settled_of_writes hwrites hfinish hrun (Or.inr ⟨done, rfl⟩)
    rw [hcompletes, Ambient.quiet_add, ← and_assoc, ← hcreated.raised_eq_iff]
    constructor
    · rintro ⟨hdone, hraised⟩
      cases hdone
      have hfirst : s₁.ambient.raised = s.ambient.raised := by
        have := ht.raised_eq
        simp only [if_true, Nat.add_zero] at this
        omega
      obtain ⟨hidle, hquiet⟩ := hcreated.raised_eq_iff.mp hfirst
      obtain ⟨l, _, _, rfl⟩ := hcreated.of_quiet hidle hquiet
      exact ⟨hfirst, hlength id ▸ (ht.done_iff.mp rfl).2.1⟩
    · rintro ⟨hfirst, hquiet'⟩
      obtain ⟨hidle, hquiet⟩ := hcreated.raised_eq_iff.mp hfirst
      obtain ⟨l, hl, hid, rfl⟩ := hcreated.of_quiet hidle hquiet
      cases hid
      have hdone : done = true :=
        ht.done_iff.mpr ⟨rfl, (hlength l.id).symm ▸ hquiet',
          hstmts _ _ l (Db.listNamed_eq_some.mp hl).1⟩
      subst hdone
      exact ⟨rfl, ht.raised_eq.trans hfirst⟩

private theorem settled_block (env : Env) (domains : List String) (hs : s.held = false) :
    (block domains).Settled env s := by
  by_cases hvalid : filterValid env domains = []
  · refine settled_of_writes rfl rfl (s.exec_blockDomains_nil env 0 hvalid) (Or.inr ⟨false, rfl⟩)
      (iff_of_false nofun fun h => h.1 hvalid)
  · obtain ⟨r, s₁, hcreated, hrun⟩ := s.exec_blockDomains_zero env domains hvalid hs
    have hlength (id : Int) : (blockStmts (filterValid env domains) id).length =
        2 * (filterValid env domains).length := by
      simp only [blockStmts, List.length_append, List.length_map]
      omega
    refine settled_of_created rfl rfl hrun hcreated hlength ?_ ?_
    · intro now db l hl
      obtain ⟨db', hall, _⟩ := Stmt.runAll_block now (filterValid env domains) ⟨l, hl, rfl⟩
      exact ⟨db', hall⟩
    · exact and_iff_right hvalid

private theorem settled_unblock (env : Env) (domains : List String) (hs : s.held = false) :
    (unblock domains).Settled env s := by
  by_cases hvalid : filterValid env domains = []
  · exact settled_of_writes rfl rfl (s.exec_unblockDomains_nil env hvalid) (Or.inr ⟨false, rfl⟩)
      (iff_of_false nofun fun h => h.1 hvalid)
  · obtain ⟨done, s', hrun, ht⟩ := s.exec_unblockDomains env domains hvalid hs
    refine settled_of_transacted rfl rfl hrun ht ((and_iff_right hvalid).trans ?_)
    rw [List.length_map, Option.isSome_iff_exists]
    refine and_congr_right fun _ => and_congr_right fun _ => ⟨?_, ?_⟩
    · rintro ⟨l, hl⟩
      obtain ⟨db', hall, _⟩ := Stmt.runAll_whitelist s.ambient.now (filterValid env domains) hl
      exact ⟨db', hall⟩
    · rintro ⟨db', hall⟩
      by_contra hnone
      rw [← Option.isSome_iff_exists, Option.not_isSome_iff_eq_none] at hnone
      rw [Stmt.runAll_whitelist_error s.ambient.now hvalid hnone] at hall
      cases hall

private theorem settled_importList (env : Env) (lst : DomainList) (custom : Bool)
    (hs : s.held = false) : (importList lst custom).Settled env s := by
  obtain ⟨r, s₁, hcreated, hrun⟩ := s.exec_importList lst custom hs
  have hlength (id : Int) : (importStmts lst id).length = lst.domains.length + 1 := by
    simp [importStmts]
  refine settled_of_created rfl rfl hrun hcreated hlength ?_ Iff.rfl
  intro now db l hl
  obtain ⟨db', hall, _⟩ := Stmt.runAll_insertOrReplace now (lst.domains.map Domain.name)
    ⟨l, hl, rfl⟩
  refine ⟨db'.touchList l.id now, ?_⟩
  rw [importStmts, Stmt.runAll_append, hall]
  rfl

private theorem settled_removePassword (env : Env) (hs : s.held = false) :
    removePassword.Settled env s := by
  obtain ⟨done, s', hrun, ht⟩ := s.exec_settingsRemove "service_password" hs
  exact settled_of_transacted rfl rfl hrun ht ⟨fun h => ⟨h.1, h.2, _, rfl⟩, fun h => ⟨h.1, h.2.1⟩⟩

private theorem settled_of_reads {job : Job} (hreads : job.writes = false) {α : Type}
    {p : Code (Option α)} (answer : α → Handled) (hmanage : job.manage env = Option.isSome <$> p)
    (hfinish : job.finish env =
      p >>= fun record => record.elim (throw .nullDereference) fun a => pure (answer a))
    {record : Option α} {s' : Store} (hrun : s.exec p = some (.ok record, s'))
    (hiff : (record.isSome = true ∧ s'.ambient.raised = s.ambient.raised) ↔
      job.Completes env s) : job.Settled env s := by
  have hexec : s.exec (job.manage env) = some (.ok record.isSome, s') := by
    rw [hmanage, map_eq_pure_bind, Store.exec_bind, hrun]
    rfl
  have hanswer : s.exec (job.finish env) =
      some (record.elim (.error .nullDereference) fun a => .ok (answer a), s') := by
    rw [hfinish, Store.exec_bind, hrun]
    cases record <;> rfl
  refine ⟨_, _, s', hexec, hanswer, ?_, ?_⟩
  · cases record with
    | none => exact .null hreads
    | some a => exact .done _
  · rw [Except.ok.injEq]
    exact hiff

theorem finish_getDomain (env : Env) (name : String) :
    (getDomain name).finish env = DomainManager.getByName name >>= fun record =>
      record.elim (throw .nullDereference) fun domain => pure { response := domain.toJson } := by
  have hrest : ∀ record : Option Domain,
      (match record with
        | some domain => pure { response := domain.toJson }
        | none => throw .nullDereference : Code Handled) =
      record.elim (throw .nullDereference) fun domain => pure { response := domain.toJson } := by
    rintro (_ | _) <;> rfl
  exact congrArg (DomainManager.getByName name >>= ·) (funext hrest)

theorem finish_getDomainList (env : Env) (name : String) (withDomains : Bool) :
    (getDomainList name withDomains).finish env =
      DomainListManager.getByName name withDomains >>= fun record =>
        record.elim (throw .nullDereference) fun lst =>
          pure { response := lst.toJson (.object []) } := by
  have hrest : ∀ record : Option DomainList,
      (match record with
        | some lst => pure { response := lst.toJson (.object []) }
        | none => throw .nullDereference : Code Handled) =
      record.elim (throw .nullDereference) fun lst =>
        pure { response := lst.toJson (.object []) } := by
    rintro (_ | _) <;> rfl
  exact congrArg (DomainListManager.getByName name withDomains >>= ·) (funext hrest)

private theorem settled_getDomain (env : Env) (name : String) (hs : s.held = false) :
    (getDomain name).Settled env s := by
  have hexec := s.exec_getDomainByName name hs
  cases hf : s.ambient.faulty with
  | true =>
    rw [hf, if_pos rfl] at hexec
    refine settled_of_reads rfl _ rfl (finish_getDomain env name) hexec
      (iff_of_false nofun fun h => ?_)
    have := (Ambient.quiet_succ.mp h).1
    rw [hf] at this
    cases this
  | false =>
    rw [hf, if_neg Bool.false_ne_true] at hexec
    exact settled_of_reads rfl _ rfl (finish_getDomain env name) hexec
      (iff_of_true ⟨rfl, rfl⟩ (Ambient.quiet_succ.mpr ⟨hf, Ambient.quiet_zero⟩))

private theorem settled_getDomainList (env : Env) (name : String) (withDomains : Bool)
    (hs : s.held = false) : (getDomainList name withDomains).Settled env s := by
  have hfinish := finish_getDomainList env name withDomains
  rcases s.exec_getListByName_cases name withDomains hs with
    ⟨hf, hexec⟩ | ⟨hf, s', hexec, hrest⟩
  · refine settled_of_reads rfl _ rfl hfinish hexec (iff_of_false nofun fun h => ?_)
    have := (Ambient.quiet_succ.mp h.1).1
    rw [hf] at this
    cases this
  · have hfirst : s.ambient.Quiet 1 := Ambient.quiet_succ.mpr ⟨hf, Ambient.quiet_zero⟩
    refine settled_of_reads rfl _ rfl hfinish hexec ((and_iff_right rfl).trans ?_)
    refine Iff.trans ?_ (and_iff_right hfirst).symm
    cases hl : s.conn.view.listNamed name with
    | none =>
      simp only [hl] at hrest
      subst hrest
      exact iff_of_true rfl nofun
    | some l =>
      cases withDomains with
      | false =>
        simp only [hl] at hrest
        subst hrest
        exact iff_of_true rfl nofun
      | true =>
        simp only [hl] at hrest
        obtain ⟨rows, hc⟩ := hrest
        refine hc.raised_eq_iff.trans ⟨?_, fun h => h l rfl rfl⟩
        intro h k hk _
        cases hk
        exact h

private theorem settled_collect (env : Env) (q : Query) (hs : s.held = false) :
    (collect q).Settled env s := by
  obtain ⟨rows, s', hrun, hc⟩ := s.exec_collect q hs
  refine ⟨.ok true, .ok { response := rowsResponse q rows }, s', ?_, ?_, .done _, ?_⟩
  · rw [manage, map_eq_pure_bind, Store.exec_bind, hrun]
    rfl
  · rw [finish, Store.exec_bind, hrun]
    rfl
  · exact (and_iff_right rfl).trans hc.raised_eq_iff

theorem settled (env : Env) (job : Job) (hs : s.held = false) : job.Settled env s := by
  cases job with
  | block domains => exact settled_block env domains hs
  | unblock domains => exact settled_unblock env domains hs
  | importList lst custom => exact settled_importList env lst custom hs
  | removePassword => exact settled_removePassword env hs
  | getDomain name => exact settled_getDomain env name hs
  | getDomainList name withDomains => exact settled_getDomainList env name withDomains hs
  | collect q => exact settled_collect env q hs

end Job

/-! ## What the answer says -/

namespace ServiceConnection

private theorem failure_success (what : String) (errors : List String) :
    (failure what errors).get "success" = .ok (.bool false) := by
  unfold failure
  dsimp only
  split_ifs <;> rfl

end ServiceConnection

/-- An answer to the command says `success` only when the manager did its job, and no null
pointer is dereferenced. -/
structure Reports (env : Env) (status : Status) (conn : ServiceConnection) (request : String)
    (c : Command) (data : Json) (s : Store) : Prop where
  success : ∀ p s', s.exec (ServiceConnection.processRequest env status conn request) =
      some (.ok p, s') →
    p.answer.get "success" = .ok (.bool true) →
      ∃ job, c.job env data = .ok job ∧ job.Succeeds env s
  noNull : ∀ s', s.exec (ServiceConnection.processRequest env status conn request) ≠
    some (.error .nullDereference, s')

open ServiceConnection in
theorem Command.route_eq (env : Env) (status : Status) {conn : ServiceConnection}
    (hauth : conn.isAuthenticated = true) (c : Command) :
    route env status conn c.name = .handle (c.handler env) := by
  cases c <;> simp [route, handlers, hauth, Command.name, Command.handler]

open ServiceConnection in
/-- A request for the command is answered by what its handler ends with. -/
theorem Command.exec_request {env : Env} (status : Status) {conn : ServiceConnection}
    (hauth : conn.isAuthenticated = true) {request : String} {c : Command} {data : Json}
    (hparse : parseRequest env request = .ok (c.name, data)) (s : Store) :
    s.exec (processRequest env status conn request) =
      match c.job env data with
      | .error e => some (answered env conn (.error e), s)
      | .ok job => (s.exec (job.finish env)).map fun x =>
          (answered env conn (x.1.map fun handled => (handled, conn)), x.2) := by
  rw [exec_processRequest s env status conn hparse,
    exec_dispatch_handle s env status conn (c.route_eq env status hauth), c.handler_eq,
    exec_orThrow]
  cases c.job env data with
  | error e => rfl
  | ok job => rw [Option.map_map]; rfl

open ServiceConnection in
private theorem reports_refused {env : Env} (status : Status) {conn : ServiceConnection}
    (hauth : conn.isAuthenticated = true) {request : String} {c : Command} {data : Json}
    (hparse : parseRequest env request = .ok (c.name, data)) {e : Exc}
    (hjob : c.job env data = .error e) (s : Store) :
    Reports env status conn request c data s := by
  have hexec := c.exec_request status hauth hparse s
  rw [hjob] at hexec
  constructor
  · intro p s' hrun hsuccess
    rw [hexec] at hrun
    obtain ⟨hp, _⟩ := Prod.mk.inj (Option.some.inj hrun)
    rw [answered_error hp, failure_success] at hsuccess
    cases hsuccess
  · intro s' hrun
    have hstd := c.standard_job env data e hjob
    rw [hexec] at hrun
    obtain ⟨hp, _⟩ := Prod.mk.inj (Option.some.inj hrun)
    simp only [answered] at hp
    split_ifs at hp
    cases hp
    cases hstd

open ServiceConnection in
/-- The service reports what was done, exactly when every job that the request asks for
completes. -/
theorem reports_iff (env : Env) (status : Status) (conn : ServiceConnection)
    (hauth : conn.isAuthenticated = true) (request : String) (c : Command) (data : Json)
    (hparse : parseRequest env request = .ok (c.name, data)) (s : Store) (hs : s.held = false) :
    Reports env status conn request c data s ↔
      ∀ job, c.job env data = .ok job → job.Completes env s := by
  have hexec := c.exec_request status hauth hparse s
  cases hjob : c.job env data with
  | error e =>
    apply iff_of_true (reports_refused status hauth hparse hjob s)
    intro job hjob
    cases hjob
  | ok job =>
    rw [hjob] at hexec
    obtain ⟨r, r', s', hmanage, hfinish, houtcome, hiff⟩ := job.settled env hs
    have hsucceeds : job.Succeeds env s ↔ job.Completes env s := by
      rw [← hiff]
      constructor
      · rintro ⟨s₁, hrun, hraised⟩
        rw [hmanage] at hrun
        cases hrun
        exact ⟨rfl, hraised⟩
      · rintro ⟨rfl, hraised⟩
        exact ⟨s', hmanage, hraised⟩
    simp only [hfinish, Option.map_some] at hexec
    have honly : (∀ job', (Except.ok job : Except Exc Job) = .ok job' → job'.Completes env s) ↔
        job.Completes env s := by
      simp
    rw [honly, ← hsucceeds]
    have hdone (handled : Handled) (hr : r' = .ok handled) :
        Reports env status conn request c data s ↔ job.Succeeds env s := by
      subst hr
      constructor
      · intro hreports
        obtain ⟨job', hjob', hdone⟩ := hreports.success _ _ hexec rfl
        cases hjob.symm.trans hjob'
        exact hdone
      · refine fun hdone => ⟨fun _ _ _ _ => ⟨job, hjob, hdone⟩, ?_⟩
        intro s₁ hrun
        rw [hexec] at hrun
        cases hrun
    have hnull (hr : r' = .error .nullDereference) (hno : r = .ok true → False) :
        Reports env status conn request c data s ↔ job.Succeeds env s := by
      subst hr
      apply iff_of_false (fun hreports => hreports.noNull s' hexec)
      rintro ⟨s₁, hrun, _⟩
      rw [hmanage] at hrun
      cases hrun
      exact hno rfl
    cases houtcome with
    | done handled => exact hdone handled rfl
    | ignored _ handled => exact hdone handled rfl
    | null _ => exact hnull rfl fun h => by cases h
    | crashed => exact hnull rfl fun h => by cases h

def blockRequest (name : String) : Json :=
  .object [("command", .string "block"), ("data", .object [("domains", .array [.string name])])]

/-- Blocking a name on the tables of the first start. -/
theorem reports_block_seeded :
    let env := Env.ofTexts [("request", blockRequest "ads.example")]
    let conn : ServiceConnection := ⟨⟨Uuid.zero⟩, true⟩
    let data := Json.object [("domains", .array [.string "ads.example"])]
    let s := Store.free ⟨Db.seeded, none⟩
    Reports env {} conn "request" .block data s := by
  intro env conn data s
  apply (reports_iff env {} conn rfl "request" .block data rfl s rfl).mpr
  intro job hjob
  cases hjob
  exact ⟨by decide, rfl, by decide⟩

/-- The service says that it blocked a name that is not valid. -/
theorem reports_block_invalid :
    let env := Env.ofTexts [("request", blockRequest "")]
    let conn : ServiceConnection := ⟨⟨Uuid.zero⟩, true⟩
    let data := Json.object [("domains", .array [.string ""])]
    let s := Store.free ⟨Db.seeded, none⟩
    ServiceConnection.parseRequest env "request" = .ok (Command.block.name, data) ∧
      ¬ Reports env {} conn "request" .block data s := by
  intro env conn data s
  refine ⟨rfl, ?_⟩
  intro h
  obtain ⟨job, hjob, s', hrun, _⟩ :=
    h.success { answer := ServiceConnection.accepted (.object []), conn := conn } s rfl rfl
  cases hjob
  cases hrun

end DblService
