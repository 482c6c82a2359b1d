import DblService.Auth
import DblService.Manager.DomainManager

/-!
# The service connection

A connection reads a request, dispatches its command and answers with JSON.  Every
exception that is a `std::runtime_error` becomes an answer with `success` false;
another `std::exception` is answered by the fixed text of `Connection::read`.
-/

namespace DblService

open Framework Session

def VERSION : String := "0.0.1"

/-! ## The socket -/

/-- The size of the buffer that one read of the socket fills. -/
def MAX_REQUEST_SIZE : Nat := 1024 * 1024

/-- The most that one write of `async_write` asks the socket to take. -/
def MAX_TRANSFER_SIZE : Nat := 65536

/-- `Connection::respond`, on a socket that takes `room` bytes at once.  The first write is tried
while the caller still has the string; what is left is read from the string after its end, and
nothing can be said about what is sent. -/
def respond (room : Nat) (response : String) : Option String :=
  if response.length ≤ min room MAX_TRANSFER_SIZE then some response else none

/-! ## The data of a connection -/

structure Status where
  startTstamp : Int := 0
  os : String := ""
  nodename : String := ""
  version : String := VERSION
  totalLists : Int := 0
  totalBlockedDomains : Int := 0

def Status.toJson (s : Status) (root : Json) : Json :=
  let root := root.set "start_time" (.int s.startTstamp)
  let root := root.set "version" (.string s.version)
  let root := root.set "os" (.string s.os)
  let root := root.set "nodename" (.string s.nodename)
  let root := root.set "domain_lists" (.int s.totalLists)
  root.set "blocked_domains" (.int s.totalBlockedDomains)

structure ServiceConnection where
  auth : Auth
  isAuthenticated : Bool
  deriving DecidableEq

/-- What a handler leaves: the response data, and whether it told the service to stop. -/
structure Handled where
  response : Json := .object []
  stop : Bool := false

abbrev Handler := Json → Code Handled

namespace Session

def orThrow {α : Type} (r : Except Exc α) : Code α := ExceptT.mk (pure r)

end Session

/-! ## The handlers -/

namespace ServiceConnection

/-- If no password is set the connection is authenticated from the start. -/
def create (env : Env) (auth : Auth) : Code ServiceConnection := do
  let isAuthenticated ← auth.auth env ""
  pure { auth, isAuthenticated }

def handleStatus (status : Status) : Handler := fun _ =>
  pure { response := status.toJson (.object []) }

def handleFlushDns : Handler := fun _ => throw (.service "not implemented" [])

def domainNames (env : Env) (refusal : String) (data : Json) : Code (List String) := do
  let domains ← orThrow (env.get data "domains")
  if !domains.isArray then
    throw (.service refusal [])
  orThrow (domains.items.mapM env.asString)

def handleBlock (env : Env) : Handler := fun data => do
  let domains ← domainNames env "Domains must be an array" data
  let _ ← DomainManager.blockDomains env domains 0
  pure {}

def handleUnblock (env : Env) : Handler := fun data => do
  let domains ← domainNames env "Expected array of domains" data
  let _ ← DomainManager.unblockDomains env domains
  pure {}

def handleSetServicePassword (env : Env) (conn : ServiceConnection) : Handler := fun data => do
  let passwordHash ← orThrow (env.get data "password_hash")
  let passwordHash ← orThrow (env.asString passwordHash)
  let tokenHash ← orThrow (env.get data "token_hash")
  let tokenHash ← orThrow (env.asString tokenHash)
  let (success, errors) ← conn.auth.setPassword env passwordHash tokenHash
  if !success then
    throw (.service "Could not set password" errors)
  pure {}

def handleRemoveServicePassword : Handler := fun _ => do
  let _ ← Auth.removePassword
  pure {}

def handleImportDomainList (env : Env) : Handler := fun data => do
  let document ← orThrow (env.get data "domain_list")
  if !document.isObject then
    throw (.service "Invalid data." [])
  let decoded := (DomainList.initFromJson env document).run.run {}
  orThrow decoded.1
  let custom ← orThrow (env.get data "custom")
  let custom ← orThrow (env.asBool custom)
  let _ ← DomainListManager.importList decoded.2 custom
  pure {}

def handleGetDomainLists : Handler := fun _ => do
  let lists ← DomainListManager.get
  pure { response := .array (lists.map fun lst => lst.toJson .null) }

def handleGetDomainList (env : Env) : Handler := fun data => do
  let name ← orThrow (env.get data "name")
  let name ← orThrow (env.asString name)
  if name = "" then
    throw (.service "No name given." [])
  let withDomains ← orThrow (env.get data "with_domains")
  let withDomains ← orThrow (env.asBool withDomains)
  match ← DomainListManager.getByName name withDomains with
  | some lst => pure { response := lst.toJson (.object []) }
  | none => throw .nullDereference

def handleGetVersion : Handler := fun _ => pure { response := .string VERSION }

def handleGetDomain (env : Env) : Handler := fun data => do
  let name ← orThrow (env.get data "name")
  let name ← orThrow (env.asString name)
  if name = "" then
    throw (.service "No domain name given" [])
  match ← DomainManager.getByName name with
  | some domain => pure { response := domain.toJson }
  | none => throw .nullDereference

def handleGetDomains (env : Env) : Handler := fun data => do
  let type ← orThrow (env.get data "type")
  let type ← orThrow (env.asString type)
  let domains ←
    if type = "blocked" then DomainManager.getBlocked
    else if type = "whitelisted" then DomainManager.getWhitelisted
    else do
      let listId ← orThrow (env.get data "list_id")
      let listId ← orThrow (env.asInt listId)
      if listId = 0 then
        throw (.service "Need type." [])
      DomainManager.get listId
  pure { response := .array (domains.map Domain.toJson) }

def handleDeleteDomainList : Handler := fun _ => throw (.service "not implemented" [])

def handleReload : Handler := fun _ => pure { stop := true }

/-- The commands of `dispatch` that need authentication, in its order. -/
def handlers (env : Env) (status : Status) (conn : ServiceConnection) : List (String × Handler) :=
  [("status", handleStatus status),
    ("set_service_password", handleSetServicePassword env conn),
    ("remove_service_password", handleRemoveServicePassword),
    ("flush_dns", handleFlushDns),
    ("block", handleBlock env),
    ("unblock", handleUnblock env),
    ("import_domain_list", handleImportDomainList env),
    ("get_domain_lists", handleGetDomainLists),
    ("get_domain_list", handleGetDomainList env),
    ("delete_domain_list", handleDeleteDomainList),
    ("get_version", handleGetVersion),
    ("get_domain", handleGetDomain env),
    ("get_domains", handleGetDomains env),
    ("reload", handleReload)]

/-! ## Requests -/

/-- A request that was processed: its answer, the connection afterwards, and whether the
service was told to stop. -/
structure Processed where
  answer : Json
  conn : ServiceConnection
  stop : Bool := false

def toLower (s : String) : String := String.ofList (s.toList.map Char.toLower)

/-- The branch that `dispatch` takes for a command. -/
inductive Route
  | getToken
  | auth
  | refused
  | handle (handler : Handler)
  | unknown

def route (env : Env) (status : Status) (conn : ServiceConnection) (cmd : String) : Route :=
  if cmd = "get_token" then .getToken
  else if cmd = "auth" then .auth
  else if !conn.isAuthenticated then .refused
  else match (handlers env status conn).find? fun h => h.1 = cmd with
    | some h => .handle h.2
    | none => .unknown

def dispatch (env : Env) (status : Status) (conn : ServiceConnection) (cmd : String)
    (data : Json) : Code (Handled × ServiceConnection) :=
  match route env status conn cmd with
  | .getToken => pure ({ response := (Json.object []).set "token" (.string conn.auth.token) }, conn)
  | .auth => do
    let hash ← orThrow (env.get data "hash")
    let hash ← orThrow (env.asString hash)
    if ← conn.auth.auth env hash then
      pure ({}, { conn with isAuthenticated := true })
    else
      throw (.service "Invalid auth" [])
  | .refused => throw (.service "Not authenticated" [])
  | .handle handler => do
    let handled ← handler data
    pure (handled, conn)
  | .unknown => throw (.runtime "Unknown command")

def accepted (response : Json) : Json :=
  ((Json.object []).set "success" (.bool true)).set "data" response

def failure (what : String) (errors : List String) : Json :=
  let root := ((Json.object []).set "success" (.bool false)).set "error_message" (.string what)
  if errors.isEmpty then root else root.set "error_details" (.array (errors.map .string))

def what (env : Env) : Exc → String
  | .sql e => env.sqlWhat e
  | .runtime what | .service what _ | .std what => what
  | .nullDereference => ""

def details : Exc → List String
  | .service _ errors => errors
  | _ => []

def parseRequest (env : Env) (request : String) : Except Exc (String × Json) := do
  match env.parseJson request with
  | none => throw (.service "Invalid format" [env.parseErrors request])
  | some root =>
    let cmd ← env.get root "command"
    let cmd ← env.asString cmd
    let data ← env.get root "data"
    pure (toLower cmd, data)

def processRequest (env : Env) (status : Status) (conn : ServiceConnection) (request : String) :
    Code Processed :=
  catchRuntime
    (do
      let (cmd, data) ← orThrow (parseRequest env request)
      let (handled, conn) ← dispatch env status conn cmd data
      pure { answer := accepted handled.response, conn, stop := handled.stop })
    fun e => pure { answer := failure (what env e) (details e), conn }

/-- What is handed to `respond` for a request. -/
structure Served where
  text : String
  conn : ServiceConnection
  stop : Bool := false

def read (env : Env) (config : Config) (status : Status) (conn : ServiceConnection)
    (request : String) : Code Served :=
  tryCatch
    (do
      let p ← processRequest env status conn request
      pure { text := env.styled p.answer ++ "\r\n", conn := p.conn, stop := p.stop })
    fun e =>
      if e.isException then
        let response := "Processing failed."
        let response := if config.isDebug then response ++ "\n" ++ what env e else response
        pure { text := response ++ "\r\n", conn }
      else
        throw e

/-! ## What a request runs -/

def presented (env : Env) (data : Json) : Except Exc String := env.get data "hash" >>= env.asString

/-- How `process_request` answers what `dispatch` ends with. -/
def answered (env : Env) (conn : ServiceConnection) :
    Except Exc (Handled × ServiceConnection) → Except Exc Processed
  | .ok (handled, conn) =>
    .ok { answer := accepted handled.response, conn, stop := handled.stop }
  | .error e =>
    if e.isRuntimeError then .ok { answer := failure (what env e) (details e), conn } else .error e

/-- How the read handler answers what `process_request` ends with. -/
def served (env : Env) (config : Config) (conn : ServiceConnection) :
    Except Exc Processed → Except Exc Served
  | .ok p => .ok { text := env.styled p.answer ++ "\r\n", conn := p.conn, stop := p.stop }
  | .error e =>
    if e.isException then
      .ok
        { text := (if config.isDebug then "Processing failed." ++ "\n" ++ what env e
            else "Processing failed.") ++ "\r\n"
          conn }
    else .error e

section
variable {env : Env} {status : Status} {conn : ServiceConnection} {cmd : String}

private theorem route_auth (h : route env status conn cmd = .auth) : cmd = "auth" := by
  unfold route at h
  split_ifs at h with _ hauth _
  · exact hauth
  · cases hfind : (handlers env status conn).find? fun h => h.1 = cmd <;>
      rw [hfind] at h <;> cases h

theorem route_handle {handler : Handler}
    (h : route env status conn cmd = .handle handler) :
    conn.isAuthenticated = true ∧ (cmd, handler) ∈ handlers env status conn := by
  unfold route at h
  split_ifs at h with _ _ hauth
  cases hfind : (handlers env status conn).find? fun h => h.1 = cmd with
  | none =>
    rw [hfind] at h
    cases h
  | some entry =>
    rw [hfind] at h
    cases h
    have hname := List.find?_some hfind
    simp only [decide_eq_true_eq] at hname
    exact ⟨by simpa using hauth, hname ▸ List.mem_of_find?_eq_some hfind⟩

end

theorem answered_error {env : Env} {conn : ServiceConnection} {e : Exc} {p : Processed}
    (h : answered env conn (.error e) = .ok p) :
    p = { answer := failure (what env e) (details e), conn } := by
  simp only [answered] at h
  split_ifs at h
  cases h
  rfl

theorem served_error {env : Env} {config : Config} {conn : ServiceConnection} {e : Exc}
    {served : Served} (h : ServiceConnection.served env config conn (.error e) = .ok served) :
    served.conn = conn ∧ served.stop = false := by
  simp only [ServiceConnection.served] at h
  split_ifs at h <;> cases h <;> exact ⟨rfl, rfl⟩

variable (s : Store) (env : Env) (config : Config) (status : Status) (conn : ServiceConnection)

theorem exec_create (a : Auth) (hs : s.held = false) :
    s.exec (create env a) =
      if s.ambient.faulty then some (.ok ⟨a, true⟩, s.afterRaise s.conn 1)
      else some (.ok ⟨a, a.accepts env s.conn.view.password ""⟩, s.after s.conn 1) := by
  rw [create, Store.exec_bind, Store.exec_auth s env a "" hs]
  cases s.ambient.faulty <;> rfl

theorem exec_orThrow {α β : Type} (r : Except Exc α) (f : α → Code β) :
    s.exec (orThrow r >>= f) = match r with
      | .ok a => s.exec (f a)
      | .error e => some (.error e, s) := by
  rw [Store.exec_bind]
  cases r <;> rfl

theorem exec_processRequest {request cmd : String} {data : Json}
    (h : parseRequest env request = .ok (cmd, data)) :
    s.exec (processRequest env status conn request) =
      (s.exec (dispatch env status conn cmd data)).map fun x => (answered env conn x.1, x.2) := by
  rw [processRequest, Store.exec_catchRuntime, exec_orThrow, h]
  dsimp only
  rw [Store.exec_bind]
  cases s.exec (dispatch env status conn cmd data) with
  | none => rfl
  | some x =>
    obtain ⟨r, s'⟩ := x
    cases r with
    | ok r => rfl
    | error e =>
      simp only [Option.bind_some, Option.map_some, answered]
      cases e.isRuntimeError <;> rfl

/-- A request that is not understood is answered without a statement. -/
theorem exec_processRequest_error {request : String} {e : Exc}
    (h : parseRequest env request = .error e) :
    s.exec (processRequest env status conn request) = some (answered env conn (.error e), s) := by
  rw [processRequest, Store.exec_catchRuntime, exec_orThrow, h]
  simp only [Option.bind_some, answered]
  cases e.isRuntimeError <;> rfl

theorem exec_read (request : String) :
    s.exec (read env config status conn request) =
      (s.exec (processRequest env status conn request)).map fun x =>
        (served env config conn x.1, x.2) := by
  rw [read]
  unfold Store.exec
  rw [Framework.Code.exec_tryCatch, Framework.Code.exec_bind]
  cases Framework.Code.exec Store.handle (processRequest env status conn request) s with
  | none => rfl
  | some x =>
    obtain ⟨r, s'⟩ := x
    cases r with
    | ok p => rfl
    | error e =>
      simp only [Option.bind_some, Option.map_some, served]
      cases e.isException with
      | true => cases config.isDebug <;> rfl
      | false => rfl

/-- An `auth` request ends with the answer of `Auth::auth`, and only it changes the
connection. -/
theorem exec_dispatch_auth {data : Json} {hash : String} (hhash : presented env data = .ok hash) :
    s.exec (dispatch env status conn "auth" data) =
      (s.exec (conn.auth.auth env hash)).map fun x =>
        (x.1.bind fun accepted =>
          if accepted then .ok ({}, { conn with isAuthenticated := true })
          else .error (.service "Invalid auth" []), x.2) := by
  change s.exec (orThrow (env.get data "hash") >>= _) = _
  rw [exec_orThrow]
  unfold presented at hhash
  cases hget : env.get data "hash" with
  | error e =>
    rw [hget] at hhash
    cases hhash
  | ok value =>
    rw [hget] at hhash
    have hstring : env.asString value = .ok hash := hhash
    dsimp only
    rw [exec_orThrow, hstring]
    dsimp only
    rw [Store.exec_bind]
    cases s.exec (conn.auth.auth env hash) with
    | none => rfl
    | some x =>
      obtain ⟨r, s'⟩ := x
      cases r with
      | error e => rfl
      | ok accepted => cases accepted <;> rfl

theorem exec_dispatch_auth_error {data : Json} {e : Exc} (hhash : presented env data = .error e) :
    s.exec (dispatch env status conn "auth" data) = some (.error e, s) := by
  change s.exec (orThrow (env.get data "hash") >>= _) = _
  rw [exec_orThrow]
  unfold presented at hhash
  cases hget : env.get data "hash" with
  | error e' =>
    rw [hget] at hhash
    cases hhash
    rfl
  | ok value =>
    rw [hget] at hhash
    have hstring : env.asString value = .error e := hhash
    dsimp only
    rw [exec_orThrow, hstring]

theorem exec_dispatch_handle {cmd : String} {data : Json}
    {handler : Handler} (h : route env status conn cmd = .handle handler) :
    s.exec (dispatch env status conn cmd data) =
      (s.exec (handler data)).map fun x => (x.1.map fun handled => (handled, conn), x.2) := by
  rw [dispatch, h]
  dsimp only
  rw [Store.exec_bind]
  cases s.exec (handler data) with
  | none => rfl
  | some x =>
    obtain ⟨r, s'⟩ := x
    cases r <;> rfl

/-- What a request makes of its connection: nothing, or it authenticates it by a hash that is
accepted. -/
def Becomes (env : Env) (s s' : Store) (conn : ServiceConnection) (request : String)
    (conn' : ServiceConnection) : Prop :=
  conn' = conn ∨ conn' = { conn with isAuthenticated := true } ∧ ∃ data hash,
    parseRequest env request = .ok ("auth", data) ∧ presented env data = .ok hash ∧
      s.exec (conn.auth.auth env hash) = some (.ok true, s')

private theorem dispatch_becomes {cmd request : String} {data : Json} {s' : Store}
    {x : Handled × ServiceConnection} (hparse : parseRequest env request = .ok (cmd, data))
    (h : s.exec (dispatch env status conn cmd data) = some (.ok x, s')) :
    Becomes env s s' conn request x.2 := by
  cases hroute : route env status conn cmd with
  | getToken =>
    rw [dispatch, hroute] at h
    cases h
    exact Or.inl rfl
  | refused =>
    rw [dispatch, hroute] at h
    cases h
  | unknown =>
    rw [dispatch, hroute] at h
    cases h
  | auth =>
    have hauth := route_auth hroute
    subst hauth
    cases hhash : presented env data with
    | error e =>
      rw [exec_dispatch_auth_error s env status conn hhash] at h
      cases h
    | ok hash =>
      rw [exec_dispatch_auth s env status conn hhash] at h
      obtain ⟨⟨r, s₁⟩, hrun, hr⟩ := Option.map_eq_some_iff.mp h
      cases r with
      | error e => cases hr
      | ok accepted =>
        cases accepted with
        | true =>
          cases hr
          exact Or.inr ⟨rfl, data, hash, hparse, hhash, hrun⟩
        | false => cases hr
  | handle handler =>
    rw [exec_dispatch_handle s env status conn hroute] at h
    obtain ⟨⟨r, s₁⟩, _, hr⟩ := Option.map_eq_some_iff.mp h
    cases r with
    | error e => cases hr
    | ok handled =>
      cases hr
      exact Or.inl rfl

theorem processRequest_becomes {request : String} {s' : Store} {p : Processed}
    (h : s.exec (processRequest env status conn request) = some (.ok p, s')) :
    Becomes env s s' conn request p.conn := by
  cases hparse : parseRequest env request with
  | error e =>
    rw [exec_processRequest_error s env status conn hparse] at h
    obtain ⟨hp, rfl⟩ := Prod.mk.injEq _ _ _ _ ▸ Option.some.inj h
    left
    rw [answered_error hp]
  | ok x =>
    obtain ⟨cmd, data⟩ := x
    rw [exec_processRequest s env status conn hparse] at h
    obtain ⟨⟨r, s₁⟩, hrun, hr⟩ := Option.map_eq_some_iff.mp h
    obtain ⟨hp, rfl⟩ := Prod.mk.injEq _ _ _ _ ▸ hr
    cases r with
    | error e =>
      left
      rw [answered_error hp]
    | ok x =>
      cases hp
      exact dispatch_becomes s env status conn hparse hrun

/-! ## What the handlers keep -/

open Framework.Code Store

variable {J : Connection → Prop} {A : Option Response → Prop}

theorem keeps_orThrow {α : Type} (r : Except Exc α) : Keeps handle (Holds J A) (orThrow r) := by
  cases r with
  | ok a => exact Keeps.pure a
  | error e => exact Keeps.throw e

/-- A check before the rest of a handler. -/
theorem keeps_unless {α : Type} {refused : Prop} [Decidable refused] {e : Exc}
    {rest : PUnit → Code α} (hrest : Keeps handle (Holds J A) (rest ⟨⟩)) :
    Keeps handle (Holds J A) (if refused then throw e >>= rest else rest ⟨⟩) := by
  split_ifs
  · exact (Keeps.throw e).bind fun _ => hrest
  · exact hrest

private theorem keeps_domainNames (refusal : String) (data : Json) :
    Keeps handle (Holds J A) (domainNames env refusal data) :=
  (keeps_orThrow _).bind fun _ => keeps_unless (keeps_orThrow _)

section
variable (hJ : ∀ stmts : List Stmt, (∀ st ∈ stmts, st.writesSettings = false) → Preserves J stmts)
include hJ

private theorem keeps_handleBlock (data : Json) :
    Keeps handle (Holds J A) (handleBlock env data) := by
  apply (keeps_domainNames env _ data).bind
  intro domains
  refine (keeps_blockDomains (hJ _ ?_) fun id => hJ _ ?_).bind fun _ => Keeps.pure _
  · simp [Stmt.writesSettings]
  · simp only [DomainManager.blockStmts, List.mem_append, List.mem_map]
    rintro st (⟨_, _, rfl⟩ | ⟨_, _, rfl⟩) <;> rfl

private theorem keeps_handleUnblock (data : Json) :
    Keeps handle (Holds J A) (handleUnblock env data) := by
  apply (keeps_domainNames env _ data).bind
  intro domains
  refine (keeps_unblockDomains (hJ _ ?_)).bind fun _ => Keeps.pure _
  simp only [List.mem_map]
  rintro st ⟨_, _, rfl⟩
  rfl

private theorem keeps_handleImportDomainList (data : Json) :
    Keeps handle (Holds J A) (handleImportDomainList env data) := by
  apply (keeps_orThrow _).bind
  intro document
  apply keeps_unless
  refine (keeps_orThrow _).bind fun _ => (keeps_orThrow _).bind fun custom =>
    (keeps_orThrow _).bind ?_
  intro custom
  refine (keeps_importList (hJ _ ?_) fun id => hJ _ ?_).bind fun _ => Keeps.pure _
  · simp [Stmt.writesSettings]
  · simp only [DomainListManager.importStmts, List.mem_append, List.mem_map,
      List.mem_singleton]
    rintro st (⟨_, _, rfl⟩ | rfl) <;> rfl

end

theorem keeps_handleGetDomainList (data : Json) :
    Keeps handle (Holds J A) (handleGetDomainList env data) := by
  apply (keeps_orThrow _).bind
  intro name
  apply (keeps_orThrow _).bind
  intro name
  apply keeps_unless
  refine (keeps_orThrow _).bind fun withDomains => (keeps_orThrow _).bind fun withDomains =>
    (keeps_getListByName _ _).bind ?_
  intro lst
  cases lst with
  | some lst => exact Keeps.pure _
  | none => exact Keeps.throw _

theorem keeps_handleGetDomain (data : Json) :
    Keeps handle (Holds J A) (handleGetDomain env data) := by
  refine (keeps_orThrow _).bind fun name => (keeps_orThrow _).bind fun name =>
    keeps_unless ((keeps_getDomainByName _).bind ?_)
  intro domain
  cases domain with
  | some domain => exact Keeps.pure _
  | none => exact Keeps.throw _

theorem keeps_handleGetDomains (data : Json) :
    Keeps handle (Holds J A) (handleGetDomains env data) := by
  apply (keeps_orThrow _).bind
  intro type
  apply (keeps_orThrow _).bind
  intro type
  dsimp only
  split_ifs
  · exact (keeps_collect _).bind fun _ => Keeps.pure _
  · exact (keeps_collect _).bind fun _ => Keeps.pure _
  · exact (keeps_orThrow _).bind fun listId => (keeps_orThrow _).bind fun listId =>
      keeps_unless ((keeps_collect _).bind fun _ => Keeps.pure _)

private theorem keeps_handler
    (hJ : ∀ stmts : List Stmt, (∀ st ∈ stmts, st.writesSettings = false) → Preserves J stmts)
    {cmd : String} {handler : Handler} (hmem : (cmd, handler) ∈ handlers env status conn)
    (hset : cmd ≠ "set_service_password") (hremove : cmd ≠ "remove_service_password")
    (data : Json) : Keeps handle (Holds J A) (handler data) := by
  simp only [handlers, List.mem_cons, Prod.mk.injEq, List.not_mem_nil, or_false] at hmem
  rcases hmem with ⟨_, rfl⟩ | ⟨h, _⟩ | ⟨h, _⟩ | ⟨_, rfl⟩ | ⟨_, rfl⟩ | ⟨_, rfl⟩ | ⟨_, rfl⟩ |
    ⟨_, rfl⟩ | ⟨_, rfl⟩ | ⟨_, rfl⟩ | ⟨_, rfl⟩ | ⟨_, rfl⟩ | ⟨_, rfl⟩ | ⟨_, rfl⟩
  · exact Keeps.pure _
  · exact absurd h hset
  · exact absurd h hremove
  · exact Keeps.throw _
  · exact keeps_handleBlock env hJ data
  · exact keeps_handleUnblock env hJ data
  · exact keeps_handleImportDomainList env hJ data
  · exact (keeps_collect _).bind fun _ => Keeps.pure _
  · exact keeps_handleGetDomainList env data
  · exact Keeps.throw _
  · exact Keeps.pure _
  · exact keeps_handleGetDomain env data
  · exact keeps_handleGetDomains env data
  · exact Keeps.pure _

/-- A request on the settings that reaches its handler. -/
def WritesSettings (conn : ServiceConnection) (cmd : String) : Prop :=
  conn.isAuthenticated = true ∧
    (cmd = "set_service_password" ∨ cmd = "remove_service_password")

private theorem keeps_dispatch
    (hJ : ∀ stmts : List Stmt, (∀ st ∈ stmts, st.writesSettings = false) → Preserves J stmts)
    {cmd : String} (hcmd : ¬ WritesSettings conn cmd) (data : Json) :
    Keeps handle (Holds J A) (dispatch env status conn cmd data) := by
  unfold dispatch
  cases hroute : route env status conn cmd with
  | getToken => exact Keeps.pure _
  | auth =>
    refine (keeps_orThrow _).bind fun hash => (keeps_orThrow _).bind fun hash =>
      (keeps_auth env conn.auth hash).bind ?_
    intro accepted
    cases accepted with
    | true => exact Keeps.pure _
    | false => exact Keeps.throw _
  | refused => exact Keeps.throw _
  | unknown => exact Keeps.throw _
  | handle handler =>
    obtain ⟨hauth, hmem⟩ := route_handle hroute
    have hset : cmd ≠ "set_service_password" := fun h => hcmd ⟨hauth, Or.inl h⟩
    have hremove : cmd ≠ "remove_service_password" := fun h => hcmd ⟨hauth, Or.inr h⟩
    exact (keeps_handler env status conn hJ hmem hset hremove data).bind fun _ => Keeps.pure _

theorem keeps_processRequest
    (hJ : ∀ stmts : List Stmt, (∀ st ∈ stmts, st.writesSettings = false) → Preserves J stmts)
    {request : String} (hcmd : ∀ cmd data, parseRequest env request = .ok (cmd, data) →
      ¬ WritesSettings conn cmd) :
    Keeps handle (Holds J A) (processRequest env status conn request) := by
  intro s hs
  cases hparse : parseRequest env request with
  | error e => exact ⟨_, s, exec_processRequest_error s env status conn hparse, hs⟩
  | ok x =>
    obtain ⟨cmd, data⟩ := x
    obtain ⟨r, s', hrun, hs'⟩ := keeps_dispatch env status conn hJ (hcmd cmd data hparse) data s hs
    refine ⟨answered env conn r, s', ?_, hs'⟩
    rw [show Framework.Code.exec handle _ s = _ from
      exec_processRequest s env status conn hparse]
    rw [show s.exec (dispatch env status conn cmd data) = _ from hrun]
    rfl

end ServiceConnection

end DblService
