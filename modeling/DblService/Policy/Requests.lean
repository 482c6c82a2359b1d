import DblService.Policy.Operations
import DblService.Service.Access

/-!
# The policy behind the service

Clients send any texts on any number of connections.  Only three commands reach the lists and
domains, on authenticated connections, and each of them is the operation of its manager; so a
run of the service is a run of operations on the policy.
-/

namespace DblService

open Framework Session

/-! ## What a request asks for -/

namespace ServiceConnection

def requestedNames (env : Env) (refusal : String) (data : Json) : Except Exc (List String) := do
  let domains ← env.get data "domains"
  if !domains.isArray then
    throw (.service refusal [])
  domains.items.mapM env.asString

def requestedList (env : Env) (data : Json) : Except Exc (DomainList × Bool) := do
  let document ← env.get data "domain_list"
  if !document.isObject then
    throw (.service "Invalid data." [])
  let decoded := (DomainList.initFromJson env document).run.run {}
  decoded.1
  let custom ← env.get data "custom"
  let custom ← env.asBool custom
  pure (decoded.2, custom)

/-- The operation that a request reaches on a connection. -/
def asksFor (env : Env) (conn : ServiceConnection) (request : String) : Option PolicyOp :=
  match parseRequest env request with
  | .error _ => none
  | .ok (cmd, data) =>
    if !conn.isAuthenticated then none
    else if cmd = "block" then
      (requestedNames env "Domains must be an array" data).toOption.map .block
    else if cmd = "unblock" then
      (requestedNames env "Expected array of domains" data).toOption.map .unblock
    else if cmd = "import_domain_list" then
      (requestedList env data).toOption.map fun x => .importList x.1 x.2
    else none

theorem asksFor_cases {env : Env} {conn : ServiceConnection} {request : String} {op : PolicyOp}
    (h : asksFor env conn request = some op) :
    conn.isAuthenticated = true ∧ ((∃ names, op = .block names) ∨ (∃ names, op = .unblock names) ∨
      ∃ lst custom, op = .importList lst custom) := by
  unfold asksFor at h
  split at h
  · cases h
  · split_ifs at h with hauth
    · obtain ⟨names, _, rfl⟩ := Option.map_eq_some_iff.mp h
      exact ⟨by simpa using hauth, .inl ⟨names, rfl⟩⟩
    · obtain ⟨names, _, rfl⟩ := Option.map_eq_some_iff.mp h
      exact ⟨by simpa using hauth, .inr (.inl ⟨names, rfl⟩)⟩
    · obtain ⟨⟨lst, custom⟩, _, rfl⟩ := Option.map_eq_some_iff.mp h
      exact ⟨by simpa using hauth, .inr (.inr ⟨lst, custom, rfl⟩)⟩

/-! ## The three handlers -/

section
variable (s : Store) (env : Env) (data : Json)

theorem orThrow_bind {α β : Type} (r : Except Exc α) (f : α → Except Exc β) :
    orThrow (r >>= f) = orThrow r >>= fun a => orThrow (f a) := by
  cases r <;> rfl

private theorem orThrow_unless {α : Type} (refused : Prop) [Decidable refused] (e : Exc)
    (rest : Except Exc α) :
    orThrow (if refused then throw e >>= fun _ : PUnit => rest else rest) =
      if refused then throw e >>= fun _ : PUnit => orThrow rest else orThrow rest := by
  split_ifs <;> rfl

theorem domainNames_eq (refusal : String) :
    domainNames env refusal data = orThrow (requestedNames env refusal data) := by
  simp only [domainNames, requestedNames, orThrow_bind, orThrow_unless]

/-- A handler that calls a manager and answers nothing. -/
theorem exec_discard {α β : Type} (r : Except Exc α) (p : α → Code β) :
    s.exec (orThrow r >>= fun a => p a >>= fun _ => pure ({} : Handled)) =
      match r with
      | .ok a => (s.exec (p a)).map fun x => (x.1.map fun _ => {}, x.2)
      | .error e => some (.error e, s) := by
  rw [exec_orThrow]
  cases r with
  | error e => rfl
  | ok a =>
    dsimp only
    rw [Store.exec_bind]
    cases s.exec (p a) with
    | none => rfl
    | some x =>
      obtain ⟨r, s'⟩ := x
      cases r <;> rfl

private theorem handleBlock_eq :
    handleBlock env data = orThrow (requestedNames env "Domains must be an array" data) >>=
      fun names => DomainManager.blockDomains env names 0 >>= fun _ => pure {} := by
  rw [handleBlock, domainNames_eq]

private theorem handleUnblock_eq :
    handleUnblock env data = orThrow (requestedNames env "Expected array of domains" data) >>=
      fun names => DomainManager.unblockDomains env names >>= fun _ => pure {} := by
  rw [handleUnblock, domainNames_eq]

private theorem handleImportDomainList_eq :
    handleImportDomainList env data = orThrow (requestedList env data) >>=
      fun x => DomainListManager.importList x.1 x.2 >>= fun _ => pure {} := by
  simp only [handleImportDomainList, requestedList, orThrow_bind, orThrow_unless, bind_assoc]
  apply congrArg (orThrow (env.get data "domain_list") >>= ·)
  funext document
  split_ifs
  · rfl
  · simp only [bind_assoc]
    rfl

end

/-! ## The requests that reach the policy -/

variable (s : Store) (env : Env) (status : Status) {conn : ServiceConnection} {cmd text : String}
  {data : Json}

private theorem route_of_authenticated (hauth : conn.isAuthenticated = true) {handler : Handler}
    (htoken : cmd ≠ "get_token") (hcmd : cmd ≠ "auth")
    (hfind : (handlers env status conn).find? (fun h => h.1 = cmd) = some (cmd, handler)) :
    route env status conn cmd = .handle handler := by
  simp [route, htoken, hcmd, hauth, hfind]

/-- A handler that calls a manager, on data it understands. -/
theorem exec_dispatch_reached {α β : Type} {r : Except Exc α} {a : α} {p : α → Code β}
    {handler : Handler} (hroute : route env status conn cmd = .handle handler)
    (hhandler : handler data = orThrow r >>= fun a => p a >>= fun _ => pure {})
    (hr : r.toOption = some a) :
    s.exec (dispatch env status conn cmd data) =
      (s.exec (p a)).map fun x => (x.1.map fun _ => ({}, conn), x.2) := by
  have hok : r = .ok a := by
    cases r <;> simp [Except.toOption] at hr
    rw [hr]
  rw [exec_dispatch_handle s env status conn hroute, hhandler, exec_discard, hok]
  dsimp only
  rw [Option.map_map]
  apply congrArg (fun f => (s.exec (p a)).map f)
  funext x
  obtain ⟨r, s'⟩ := x
  cases r <;> rfl

/-- A request for an operation runs it, and an end of it is answered without data. -/
theorem exec_dispatch_asksFor {op : PolicyOp} (h : asksFor env conn text = some op) :
    ∃ cmd data, parseRequest env text = .ok (cmd, data) ∧
      s.exec (dispatch env status conn cmd data) =
        (s.exec (op.code env)).map fun x => (x.1.map fun _ => ({}, conn), x.2) := by
  unfold asksFor at h
  cases hparse : parseRequest env text with
  | error e => simp [hparse] at h
  | ok x =>
    obtain ⟨cmd, data⟩ := x
    simp only [hparse] at h
    refine ⟨cmd, data, rfl, ?_⟩
    cases hauth : conn.isAuthenticated with
    | false => simp [hauth] at h
    | true =>
      simp only [hauth, Bool.not_true, Bool.false_eq_true, if_false] at h
      split_ifs at h with hblock hunblock himport
      · subst hblock
        obtain ⟨names, hnames, rfl⟩ := Option.map_eq_some_iff.mp h
        exact exec_dispatch_reached (p := fun names => DomainManager.blockDomains env names 0)
          s env status (route_of_authenticated env status hauth (by decide) (by decide) rfl)
          (handleBlock_eq env data) hnames
      · subst hunblock
        obtain ⟨names, hnames, rfl⟩ := Option.map_eq_some_iff.mp h
        exact exec_dispatch_reached (p := DomainManager.unblockDomains env)
          s env status (route_of_authenticated env status hauth (by decide) (by decide) rfl)
          (handleUnblock_eq env data) hnames
      · subst himport
        obtain ⟨x, hx, rfl⟩ := Option.map_eq_some_iff.mp h
        exact exec_dispatch_reached
          (p := fun x : DomainList × Bool => DomainListManager.importList x.1 x.2)
          s env status (route_of_authenticated env status hauth (by decide) (by decide) rfl)
          (handleImportDomainList_eq env data) hx

/-- It leaves the store as the operation does. -/
theorem exec_asksFor {op : PolicyOp} (h : asksFor env conn text = some op) :
    (s.exec (processRequest env status conn text)).map Prod.snd =
      (s.exec (op.code env)).map Prod.snd := by
  obtain ⟨cmd, data, hparse, hrun⟩ := exec_dispatch_asksFor s env status h
  rw [exec_processRequest s env status conn hparse, hrun, Option.map_map, Option.map_map]
  rfl

/-! ## The requests that do not -/

open Framework.Code Store

private theorem preserves_policy {P : Policy} {stmts : List Stmt}
    (hstmts : ∀ st ∈ stmts, ∀ now db db', st.run now db = .ok db' → db'.policy = db.policy) :
    Preserves (fun c => c.file.policy = P) stmts := by
  intro s s' done h hP
  cases h with
  | committed db _ _ hrun =>
    exact Stmt.runAll_preserves (I := fun db => db.policy = P)
      (fun st hst db db' hdb hrun => (hstmts st hst _ _ _ hrun).trans hdb) hP hrun
  | refused => exact hP
  | abandoned => exact hP

variable {P : Policy} {A : Option Response → Prop}

private theorem keeps_handleSetServicePassword (data : Json) :
    Keeps handle (Holds (fun c => c.file.policy = P) A)
      (handleSetServicePassword env conn data) := by
  have hsettings (value : String) :
      Preserves (fun c => c.file.policy = P)
        [.insertOrReplaceSetting "service_password" value] := by
    apply preserves_policy
    intro st hst now db db' hrun
    rw [List.mem_singleton.mp hst] at hrun
    cases hrun
    rfl
  refine (keeps_orThrow _).bind fun passwordHash => (keeps_orThrow _).bind fun passwordHash =>
    (keeps_orThrow _).bind fun tokenHash => (keeps_orThrow _).bind fun tokenHash => Keeps.bind ?_ ?_
  · unfold Auth.setPassword
    split_ifs
    · exact Keeps.pure _
    · exact Keeps.pure _
    · exact Keeps.pure _
    · exact (keeps_committed (hsettings _)).bind fun _ => Keeps.pure _
  · rintro ⟨success, errors⟩
    exact keeps_unless (Keeps.pure _)

private theorem keeps_handleRemoveServicePassword (data : Json) :
    Keeps handle (Holds (fun c => c.file.policy = P) A) (handleRemoveServicePassword data) := by
  refine (keeps_committed (preserves_policy ?_)).bind fun _ => Keeps.pure _
  intro st hst now db db' hrun
  rw [List.mem_singleton.mp hst] at hrun
  cases hrun
  rfl

private theorem keeps_handler_policy {handler : Handler}
    (hmem : (cmd, handler) ∈ handlers env status conn) (hblock : cmd ≠ "block")
    (hunblock : cmd ≠ "unblock") (himport : cmd ≠ "import_domain_list") (data : Json) :
    Keeps handle (Holds (fun c => c.file.policy = P) A) (handler data) := by
  simp only [handlers, List.mem_cons, Prod.mk.injEq, List.not_mem_nil, or_false] at hmem
  rcases hmem with ⟨_, rfl⟩ | ⟨_, rfl⟩ | ⟨_, rfl⟩ | ⟨_, rfl⟩ | ⟨h, _⟩ | ⟨h, _⟩ | ⟨h, _⟩ |
    ⟨_, rfl⟩ | ⟨_, rfl⟩ | ⟨_, rfl⟩ | ⟨_, rfl⟩ | ⟨_, rfl⟩ | ⟨_, rfl⟩ | ⟨_, rfl⟩
  · exact Keeps.pure _
  · exact keeps_handleSetServicePassword env data
  · exact keeps_handleRemoveServicePassword data
  · exact Keeps.throw _
  · exact absurd h hblock
  · exact absurd h hunblock
  · exact absurd h himport
  · exact (keeps_collect _).bind fun _ => Keeps.pure _
  · exact keeps_handleGetDomainList env data
  · exact Keeps.throw _
  · exact Keeps.pure _
  · exact keeps_handleGetDomain env data
  · exact keeps_handleGetDomains env data
  · exact Keeps.pure _

/-- A handler that calls a manager, on data it does not understand. -/
theorem exec_dispatch_unreached {α β : Type} {r : Except Exc α} {p : α → Code β}
    {handler : Handler} (hroute : route env status conn cmd = .handle handler)
    (hhandler : handler data = orThrow r >>= fun a => p a >>= fun _ => pure {})
    (hr : r.toOption = none) :
    ∃ e, s.exec (dispatch env status conn cmd data) = some (.error e, s) := by
  cases r with
  | ok a => cases hr
  | error e =>
    refine ⟨e, ?_⟩
    rw [exec_dispatch_handle s env status conn hroute, hhandler, exec_discard]
    rfl

/-- A request for nothing leaves the policy of the file alone. -/
theorem exec_dispatch_other {s : Store} (hs : s.held = false)
    (hparse : parseRequest env text = .ok (cmd, data)) (h : asksFor env conn text = none) :
    ∃ r s', s.exec (dispatch env status conn cmd data) = some (r, s') ∧
      s'.conn.file.policy = s.conn.file.policy := by
  have hkept {p : Code (Handled × ServiceConnection)}
      (hp : Keeps handle (Holds (fun c => c.file.policy = s.conn.file.policy) fun _ => True) p) :
      ∃ r s', s.exec p = some (r, s') ∧ s'.conn.file.policy = s.conn.file.policy := by
    obtain ⟨r, s', hrun, hholds⟩ := hp s ⟨hs, rfl, fun _ _ => trivial⟩
    exact ⟨r, s', hrun, hholds.conn⟩
  cases hroute : route env status conn cmd with
  | getToken =>
    rw [dispatch, hroute]
    exact hkept (Keeps.pure _)
  | refused =>
    rw [dispatch, hroute]
    exact hkept (Keeps.throw _)
  | unknown =>
    rw [dispatch, hroute]
    exact hkept (Keeps.throw _)
  | auth =>
    rw [dispatch, hroute]
    refine hkept ((keeps_orThrow _).bind fun hash => (keeps_orThrow _).bind fun hash =>
      (keeps_auth env conn.auth hash).bind ?_)
    intro accepted
    cases accepted with
    | true => exact Keeps.pure _
    | false => exact Keeps.throw _
  | handle handler =>
    obtain ⟨hauth, hmem⟩ := route_handle hroute
    have hunreached {α β : Type} {r : Except Exc α} {p : α → Code β}
        (hhandler : handler data = orThrow r >>= fun a => p a >>= fun _ => pure {})
        (hr : r.toOption = none) :
        ∃ r s', s.exec (dispatch env status conn cmd data) = some (r, s') ∧
          s'.conn.file.policy = s.conn.file.policy := by
      obtain ⟨e, he⟩ := exec_dispatch_unreached s env status hroute hhandler hr
      exact ⟨_, s, he, rfl⟩
    simp only [asksFor, hparse, hauth, Bool.not_true, Bool.false_eq_true, if_false] at h
    by_cases hblock : cmd = "block"
    · subst hblock
      rw [route_of_authenticated env status hauth (by decide) (by decide) rfl] at hroute
      cases hroute
      exact hunreached (p := fun names => DomainManager.blockDomains env names 0)
        (handleBlock_eq env data) (by simpa using h)
    by_cases hunblock : cmd = "unblock"
    · subst hunblock
      rw [route_of_authenticated env status hauth (by decide) (by decide) rfl] at hroute
      cases hroute
      exact hunreached (p := DomainManager.unblockDomains env) (handleUnblock_eq env data)
        (by simpa using h)
    by_cases himport : cmd = "import_domain_list"
    · subst himport
      rw [route_of_authenticated env status hauth (by decide) (by decide) rfl] at hroute
      cases hroute
      exact hunreached (p := fun x : DomainList × Bool => DomainListManager.importList x.1 x.2)
        (handleImportDomainList_eq env data) (by simpa using h)
    rw [dispatch, hroute]
    exact hkept ((keeps_handler_policy env status hmem hblock hunblock himport data).bind
      fun _ => Keeps.pure _)

theorem exec_other {s : Store} (hs : s.held = false) (h : asksFor env conn text = none) :
    ∃ r s', s.exec (processRequest env status conn text) = some (r, s') ∧
      s'.conn.file.policy = s.conn.file.policy := by
  cases hparse : parseRequest env text with
  | error e => exact ⟨_, s, exec_processRequest_error s env status conn hparse, rfl⟩
  | ok x =>
    obtain ⟨cmd, data⟩ := x
    obtain ⟨r, s', hrun, hpolicy⟩ := exec_dispatch_other env status hs hparse h
    refine ⟨answered env conn r, s', ?_, hpolicy⟩
    rw [exec_processRequest s env status conn hparse, hrun]
    rfl

end ServiceConnection

/-! ## Runs of the service -/

namespace Service

/-- The operation of an event, with its surroundings. -/
def asks (env : Env) : Event → Service → Option (PolicyOp × Ambient)
  | .opened _ _, _ => none
  | .request i text _ ambient, w =>
    w.connections[i]?.bind fun conn => (conn.asksFor env text).map fun op => (op, ambient)

variable {env : Env} {config : Config} {w : Service}

/-- The database after a request is that of the store. -/
theorem step_db {i : Nat} {text : String} {status : Status} {ambient : Ambient}
    {conn : ServiceConnection} (hi : w.connections[i]? = some conn) :
    (step env config (.request i text status ambient) w).2.db =
      (((w.store ambient).exec (ServiceConnection.processRequest env status conn text)).map
        fun x => x.2.conn).getD w.db := by
  cases hrun : (w.store ambient).exec (ServiceConnection.processRequest env status conn text) with
  | none => simp only [step, hi, ServiceConnection.exec_read, hrun, Option.map_none,
      Option.getD_none]
  | some x =>
    rw [step_request hi hrun]
    cases ServiceConnection.served env config conn x.1 <;> rfl

private theorem perform_snd {α : Type} {c : Connection} {ambient : Ambient} {p : Code α} :
    (c.perform ambient p).2 =
      (((Store.mk c false ambient).exec p).map fun x => x.2.conn).getD c := by
  unfold Connection.perform
  cases (Store.mk c false ambient).exec p <;> rfl

/-- An event that asks for an operation leaves the database as the operation does. -/
theorem step_asked {e : Event} {x : PolicyOp × Ambient} (h : asks env e w = some x) :
    (step env config e w).2.db = (PolicyOp.step env x w.db).2 := by
  cases e with
  | opened uuid ambient => cases h
  | request i text status ambient =>
    obtain ⟨conn, hi, hasks⟩ := Option.bind_eq_some_iff.mp h
    obtain ⟨op, hop, rfl⟩ := Option.map_eq_some_iff.mp hasks
    have hsame := ServiceConnection.exec_asksFor (w.store ambient) env status hop
    have hconn : ((w.store ambient).exec
          (ServiceConnection.processRequest env status conn text)).map (fun x => x.2.conn) =
        ((w.store ambient).exec (op.code env)).map fun x => x.2.conn := by
      have hmap := congrArg (Option.map Store.conn) hsame
      rw [Option.map_map, Option.map_map] at hmap
      exact hmap
    have hrestart : op ≠ .restart := by
      obtain ⟨_, ⟨_, rfl⟩ | ⟨_, rfl⟩ | ⟨_, _, rfl⟩⟩ := ServiceConnection.asksFor_cases hop <;> simp
    rw [step_db hi, hconn, PolicyOp.step_of_ne_restart env hrestart, perform_snd]
    rfl

/-- Every other event leaves the policy of the file alone. -/
theorem step_silent {e : Event} (h : asks env e w = none) :
    (step env config e w).2.db.file.policy = w.db.file.policy := by
  cases e with
  | opened uuid ambient => rw [step_opened]
  | request i text status ambient =>
    cases hi : w.connections[i]? with
    | none => simp only [step, hi]
    | some conn =>
      have hop : conn.asksFor env text = none := by simpa [asks, hi] using h
      obtain ⟨r, s', hrun, hpolicy⟩ :=
        ServiceConnection.exec_other env status (store_held (w := w) ambient) hop
      rw [step_db hi, hrun]
      exact hpolicy

theorem explains_asked (env : Env) (config : Config) (es : List Event) (w : Service) :
    ∃ answers, Explains (fun x => PolicyOp.Outcome env x.1)
      (visible (step env config) (asks env) es w) answers w.db.file.policy
      (runEvents (step env config) es w).2.db.file.policy := by
  have hsilent (e : Event) (w : Service) (P : Policy) (hP : w.db.file.policy = P)
      (hnone : asks env e w = none) : (step env config e w).2.db.file.policy = P :=
    (step_silent hnone).trans hP
  have hvisible (e : Event) (w : Service) (P : Policy) (x : PolicyOp × Ambient)
      (hP : w.db.file.policy = P) (hsome : asks env e w = some x) :
      ∃ r P', PolicyOp.Outcome env x.1 r P P' ∧ (step env config e w).2.db.file.policy = P' := by
    rw [step_asked hsome, ← hP]
    exact ⟨_, _, PolicyOp.step_outcome env x w.db, rfl⟩
  obtain ⟨answers, P, hexplains, rfl⟩ :=
    explains_visible hsilent hvisible es (Eq.refl w.db.file.policy)
  exact ⟨answers, hexplains⟩

/-- Whatever clients send on however many connections, and whatever fails, the policy of the
service is moved by the operations that authenticated connections ask for and by nothing else, and
a connection without an open transaction lists it. -/
theorem requests_explained (env : Env) (config : Config) (es : List Event) (w : Service) :
    let w' := (runEvents (step env config) es w).2
    (∃ answers, Explains (fun x => PolicyOp.Outcome env x.1)
        (visible (step env config) (asks env) es w) answers w.db.file.policy
        w'.db.file.policy) ∧
      (w'.db.tx = none → w'.db.Reads w'.db.file.policy) :=
  ⟨explains_asked env config es w, Connection.reads_policy⟩

theorem visible_not_switches {es : List Event} {w : Service} :
    ∀ x ∈ visible (step env config) (asks env) es w, ∀ list, ¬ x.1.Switches list := by
  induction es generalizing w with
  | nil => simp [visible]
  | cons e es ih =>
    intro x hx list
    simp only [visible, List.mem_append, Option.mem_toList] at hx
    rcases hx with hfirst | hrest
    · cases e with
      | opened uuid ambient => cases hfirst
      | request i text status ambient =>
        obtain ⟨conn, _, hasks⟩ := Option.bind_eq_some_iff.mp hfirst
        obtain ⟨op, hop, rfl⟩ := Option.map_eq_some_iff.mp hasks
        obtain ⟨_, ⟨_, rfl⟩ | ⟨_, rfl⟩ | ⟨_, _, rfl⟩⟩ := ServiceConnection.asksFor_cases hop <;>
          exact id
    · exact ih x hrest list

/-- Whatever clients send on however many connections, and whatever fails, a domain that no
request of an authenticated connection names keeps its list, and an idle database lists it
afterwards as an idle one did before. -/
theorem unnamed_untouched (env : Env) (config : Config) (es : List Event) (w : Service)
    (m : String)
    (hnames : ∀ x ∈ visible (step env config) (asks env) es w, ¬ x.1.Names env m) :
    let w' := (runEvents (step env config) es w).2
    w'.db.file.policy.owner m = w.db.file.policy.owner m ∧
      (w'.db.tx = none →
        (∃ rows, w'.db.Lists DomainManager.getBlocked rows ∧
          (m ∈ rows.map Domain.name ↔ w.db.file.policy.Blocks m)) ∧
        ∃ rows, w'.db.Lists DomainManager.getWhitelisted rows ∧
          (m ∈ rows.map Domain.name ↔ w.db.file.policy.Allows m)) := by
  intro w'
  obtain ⟨answers, hexplains⟩ := explains_asked env config es w
  have hsame : Registry.SameFor m w.db.file.policy w'.db.file.policy := by
    apply hexplains.invariant (I := Registry.SameFor m w.db.file.policy) _ (.refl m _)
    intro x hx r P P' hstep hP
    exact hP.trans (hstep.sameFor (hnames x hx) fun list _ => visible_not_switches x hx list)
  refine ⟨hsame.owner, fun hidle => ?_⟩
  have hreads := Connection.reads_policy hidle
  obtain ⟨blocked, hblocked, _, hb⟩ := hreads.blocked
  obtain ⟨allowed, hallowed, _, ha⟩ := hreads.whitelisted
  exact ⟨⟨blocked, hblocked, (hb m).trans hsame.within⟩, allowed, hallowed,
    (ha m).trans hsame.within⟩

def blockTexts : List (String × Json) :=
  [("block ads", .object [("command", .string "block"),
      ("data", .object [("domains", .array [.string "ads.example"])])]),
    ("block b", .object [("command", .string "BLOCK"),
      ("data", .object [("domains", .array [.string "b"])])])]

/-- A name is blocked on a connection that is not authenticated, and another one on one that is. -/
theorem unnamed_untouched_refused :
    let env := Env.ofTexts blockTexts
    let w : Service :=
      { db := ⟨Db.secured, none⟩, connections := [⟨⟨.zero⟩, false⟩, ⟨⟨.zero⟩, true⟩] }
    let es : List Event := [.request 0 "block ads" {} {}, .request 1 "block b" {} {},
      .request 1 "\x7b" {} {}]
    let w' := (runEvents (step env {}) es w).2
    w'.db.file.policy.owner "ads.example" = w.db.file.policy.owner "ads.example" ∧
      (w'.db.tx = none →
        (∃ rows, w'.db.Lists DomainManager.getBlocked rows ∧
          ("ads.example" ∈ rows.map Domain.name ↔ w.db.file.policy.Blocks "ads.example")) ∧
        ∃ rows, w'.db.Lists DomainManager.getWhitelisted rows ∧
          ("ads.example" ∈ rows.map Domain.name ↔ w.db.file.policy.Allows "ads.example")) := by
  intro env w es
  exact unnamed_untouched env {} es w "ads.example" (by decide +kernel)

end Service

end DblService
