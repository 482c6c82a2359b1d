import DblService.Client.Domains
import DblService.Policy.Requests

/-!
# The calls that change the lists

`block_domain`, `unblock_domain` and `import_domain_list` of the client, up to what they do to
the policy of the service and what they return.
-/

namespace DblService

open Framework

/-- A request that one read of the service returns whole. -/
structure Env.ReadAtOnce (env : Env) (request : Json) : Prop extends env.Conveys request where
  size : (env.styled request).length ≤ MAX_REQUEST_SIZE

/-- An answer that the service writes at once. -/
structure Env.WrittenAtOnce (env : Env) (answer : Json) : Prop extends env.Conveys answer where
  size : (env.styled answer ++ "\r\n").length ≤ MAX_TRANSFER_SIZE

private theorem length_le_utf8ByteSize (s : String) : s.length ≤ s.utf8ByteSize := by
  obtain ⟨cs, rfl⟩ := s.exists_eq_ofList
  rw [String.length_ofList]
  induction cs with
  | nil => simp
  | cons c cs ih =>
    have hpos := c.utf8Size_pos
    rw [← List.singleton_append, String.ofList_append, String.utf8ByteSize_append]
    simp
    omega

theorem Env.ReadAtOnce.of_bytes {env : Env} {request : Json} (h : env.Conveys request)
    (hsize : (env.styled request).utf8ByteSize ≤ MAX_REQUEST_SIZE) : env.ReadAtOnce request :=
  ⟨h, (length_le_utf8ByteSize _).trans hsize⟩

theorem Env.WrittenAtOnce.of_bytes {env : Env} {answer : Json} (h : env.Conveys answer)
    (hsize : (env.styled answer ++ "\r\n").utf8ByteSize ≤ MAX_TRANSFER_SIZE) :
    env.WrittenAtOnce answer :=
  ⟨h, (length_le_utf8ByteSize _).trans hsize⟩

namespace Dblclient

open Service

namespace Session

variable (env : Env) (config : Config)

def manageRequest (names : List String) (block : Bool) : ServiceRequest where
  cmd := if block then "block" else "unblock"
  params := Json.null.set "domains" (.array (names.map .string))

def manageDomains (turn : Turn) (names : List String) (block : Bool) : Code Bool := do
  let response ← execute env config turn (manageRequest names block)
  setError response
  pure response.isOk

def blockDomain (turn : Turn) (name : String) : Code Bool :=
  manageDomains env config turn [name] true

def unblockDomain (turn : Turn) (name : String) : Code Bool :=
  manageDomains env config turn [name] false

def importRequest (lst : DomainList) : ServiceRequest where
  cmd := "import_domain_list"
  params := Json.null.set "domain_list" (lst.toJson .null)

def importDomainList (turn : Turn) (lst : DomainList) : Code Bool := do
  let response ← execute env config turn (importRequest lst)
  setError response
  pure response.isOk

end Session

/-! ## What the service understands -/

/-- A list as it arrives: its domains lose everything but their names, and the names that the
service does not find valid. -/
def imported (env : Env) (lst : DomainList) : DomainList where
  name := lst.name
  url := lst.url
  description := some (lst.description.getD "")
  domains := (lst.domains.filter fun d => env.isValid d.name).map fun d => { name := d.name }

/-- The calls that change the lists. -/
inductive Call
  | blockDomain (name : String)
  | unblockDomain (name : String)
  | manageDomains (names : List String) (block : Bool)
  | importDomainList (lst : DomainList)

namespace Call

def code (env : Env) (config : Config) (turn : Turn) : Call → Code Bool
  | blockDomain name => Session.blockDomain env config turn name
  | unblockDomain name => Session.unblockDomain env config turn name
  | manageDomains names block => Session.manageDomains env config turn names block
  | importDomainList lst => Session.importDomainList env config turn lst

def request : Call → ServiceRequest
  | blockDomain name => Session.manageRequest [name] true
  | unblockDomain name => Session.manageRequest [name] false
  | manageDomains names block => Session.manageRequest names block
  | importDomainList lst => Session.importRequest lst

def operation (env : Env) : Call → PolicyOp
  | blockDomain name => .block [name]
  | unblockDomain name => .unblock [name]
  | manageDomains names block => if block then .block names else .unblock names
  | importDomainList lst => .importList (imported env lst) false

private theorem code_eq (env : Env) (config : Config) (turn : Turn) (call : Call) :
    call.code env config turn = finish env config turn call.request := by
  cases call <;> rfl

end Call

private theorem mapM_asString (env : Env) (names : List String) :
    (names.map Json.string).mapM env.asString = .ok names := by
  induction names with
  | nil => rfl
  | cons name names ih =>
    rw [List.map_cons, List.mapM_cons, ih]
    rfl

private theorem requestedNames_manage (env : Env) (refusal : String) (names : List String)
    (block : Bool) :
    ServiceConnection.requestedNames env refusal (Session.manageRequest names block).params =
      .ok names := by
  have hdomains : env.get (Session.manageRequest names block).params "domains" =
      .ok (.array (names.map .string)) := rfl
  unfold ServiceConnection.requestedNames
  rw [hdomains]
  exact mapM_asString env names

private theorem requestedList_import (env : Env) (lst : DomainList) :
    ServiceConnection.requestedList env (Session.importRequest lst).params =
      .ok (imported env lst, false) := by
  have hdocument : env.get (Session.importRequest lst).params "domain_list" =
      .ok (lst.toJson .null) := rfl
  have hobject : (lst.toJson .null).isObject = true := by
    obtain ⟨_, _, _, description, _, _, _, _⟩ := lst
    cases description <;> rfl
  unfold ServiceConnection.requestedList
  rw [hdocument]
  change (if (!(lst.toJson .null).isObject) = true then _ else _) = _
  rw [hobject, DomainList.initFromJson_toJson]
  rfl

variable {env : Env} {conn : ServiceConnection}

private theorem asksFor_manage {names : List String} {block : Bool}
    (hreq : env.Conveys (Session.manageRequest names block).payload)
    (hauth : conn.isAuthenticated = true) :
    conn.asksFor env (env.styled (Session.manageRequest names block).payload) =
      some (if block then .block names else .unblock names) := by
  unfold ServiceConnection.asksFor
  cases block with
  | true =>
    rw [parseRequest_payload hreq (show ServiceConnection.toLower "block" = "block" by decide)]
    simp [hauth, requestedNames_manage, Except.toOption]
  | false =>
    rw [parseRequest_payload hreq (show ServiceConnection.toLower "unblock" = "unblock" by decide)]
    simp [hauth, requestedNames_manage, Except.toOption]

/-- On an authenticated connection a call reaches its operation. -/
theorem Call.asksFor (call : Call) (hreq : env.Conveys call.request.payload)
    (hauth : conn.isAuthenticated = true) :
    conn.asksFor env (env.styled call.request.payload) = some (call.operation env) := by
  cases call with
  | blockDomain name => exact asksFor_manage hreq hauth
  | unblockDomain name => exact asksFor_manage hreq hauth
  | manageDomains names block => exact asksFor_manage hreq hauth
  | importDomainList lst =>
    unfold ServiceConnection.asksFor
    rw [parseRequest_payload hreq
      (show ServiceConnection.toLower "import_domain_list" = "import_domain_list" by decide)]
    simp [hauth, Call.request, requestedList_import, Except.toOption, Call.operation]

/-! ## What a call does -/

/-- An operation ends, or follows a null pointer. -/
def Ends (s : Store) (p : DblService.Code Bool) : Prop :=
  ∃ r s', s.exec p = some (r, s') ∧ ((∃ done, r = .ok done) ∨ r = .error .nullDereference)

theorem ends_of_created {s s₁ : Store} {p : DblService.Code Bool} {r : Option Int}
    {f : Int → List Stmt}
    (hrun : match r with
      | none => s.exec p = some (.error .nullDereference, s₁)
      | some id => ∃ done s', s.exec p = some (.ok done, s') ∧ Transacted (f id) s₁ done s') :
    Ends s p := by
  cases r with
  | none => exact ⟨_, _, hrun, .inr rfl⟩
  | some id =>
    obtain ⟨done, s', hexec, _⟩ := hrun
    exact ⟨_, _, hexec, .inl ⟨done, rfl⟩⟩

private theorem ends_block (env : Env) {s : Store} (hs : s.held = false) (names : List String) :
    Ends s (DomainManager.blockDomains env names 0) := by
  by_cases hvalid : DomainManager.filterValid env names = []
  · exact ⟨_, _, s.exec_blockDomains_nil env 0 hvalid, .inl ⟨_, rfl⟩⟩
  · obtain ⟨r, s₁, _, hrun⟩ := s.exec_blockDomains_zero env names hvalid hs
    exact ends_of_created
      (f := DomainManager.blockStmts (DomainManager.filterValid env names)) hrun

private theorem ends_unblock (env : Env) {s : Store} (hs : s.held = false) (names : List String) :
    Ends s (DomainManager.unblockDomains env names) := by
  by_cases hvalid : DomainManager.filterValid env names = []
  · exact ⟨_, _, s.exec_unblockDomains_nil env hvalid, .inl ⟨_, rfl⟩⟩
  · obtain ⟨done, s', hrun, _⟩ := s.exec_unblockDomains env names hvalid hs
    exact ⟨_, _, hrun, .inl ⟨done, rfl⟩⟩

theorem Call.ends (call : Call) (env : Env) {s : Store} (hs : s.held = false) :
    Ends s ((call.operation env).code env) := by
  cases call with
  | blockDomain name => exact ends_block env hs [name]
  | unblockDomain name => exact ends_unblock env hs [name]
  | manageDomains names block =>
    cases block with
    | true => exact ends_block env hs names
    | false => exact ends_unblock env hs names
  | importDomainList lst =>
    obtain ⟨r, s₁, _, hrun⟩ := s.exec_importList (imported env lst) false hs
    exact ends_of_created (f := DomainListManager.importStmts (imported env lst)) hrun

variable {config : Config} {turn : Turn} {peers : Peers}

/-- The operation ended: the client is told so, whether or not it did anything. -/
theorem answers_ended (call : Call) (hconn : Serves env config turn peers conn)
    (hreq : env.Conveys call.request.payload) (hauth : conn.isAuthenticated = true)
    {done : Bool} {s' : Store}
    (hrun : ((turn.arrival env config peers.service).store turn.ambient).exec
      ((call.operation env).code env) = some (.ok done, s')) :
    ∃ w', Answers env config turn call.request peers (ServiceConnection.accepted (.object [])) w' ∧
      w'.db = s'.conn ∧ w'.stopped = (turn.arrival env config peers.service).stopped := by
  obtain ⟨cmd, data, hparse, hdispatch⟩ := ServiceConnection.exec_dispatch_asksFor
    ((turn.arrival env config peers.service).store turn.ambient) env turn.status
    (call.asksFor hreq hauth)
  rw [hrun] at hdispatch
  exact ⟨_, step_accepted hconn hparse hdispatch, rfl, Bool.or_false _⟩

private theorem start_crashed (call : Call) (hconn : Serves env config turn peers conn)
    (hreq : env.Conveys call.request.payload) (hauth : conn.isAuthenticated = true) {s' : Store}
    (hrun : ((turn.arrival env config peers.service).store turn.ambient).exec
      ((call.operation env).code env) = some (.error .nullDereference, s')) :
    (finish env config turn call.request).start peers =
      (.error (.runtime "Read failed (connection closed)"),
        { peers with service := { turn.arrival env config peers.service with
            db := s'.conn, stopped := true } }) := by
  obtain ⟨cmd, data, hparse, hdispatch⟩ := ServiceConnection.exec_dispatch_asksFor
    ((turn.arrival env config peers.service).store turn.ambient) env turn.status
    (call.asksFor hreq hauth)
  rw [hrun] at hdispatch
  have hprocess := ServiceConnection.exec_processRequest
    ((turn.arrival env config peers.service).store turn.ambient) env turn.status conn hparse
  rw [hdispatch] at hprocess
  have hstep : step env config (.request peers.session.connection
      (env.styled call.request.payload) turn.status turn.ambient)
      (turn.arrival env config peers.service) =
        (none, { turn.arrival env config peers.service with db := s'.conn, stopped := true }) := by
    rw [step_request hconn hprocess]
    rfl
  have hexecute : (Session.execute env config turn call.request).start peers =
      (.error (.runtime "Read failed (connection closed)"),
        { peers with service := { turn.arrival env config peers.service with
            db := s'.conn, stopped := true } }) := by
    unfold Code.start Session.execute
    rw [ExceptT.run_mk, StateT.run]
    dsimp only
    rw [hstep]
  rw [finish, start_bind, hexecute]

/-- Without authentication nothing but the protocol of the password is served. -/
theorem answers_refused {req : ServiceRequest} {cmd : String}
    (hconn : Serves env config turn peers conn)
    (hreq : env.Conveys req.payload) (hlower : ServiceConnection.toLower req.cmd = cmd)
    (hauth : conn.isAuthenticated = false) (htoken : cmd ≠ "get_token") (hcmd : cmd ≠ "auth") :
    Answers env config turn req peers (ServiceConnection.failure "Not authenticated" [])
      (turn.arrival env config peers.service) := by
  have hroute : ServiceConnection.route env turn.status conn cmd = .refused := by
    simp [ServiceConnection.route, htoken, hcmd, hauth]
  have hrun : ((turn.arrival env config peers.service).store turn.ambient).exec
      (ServiceConnection.dispatch env turn.status conn cmd req.params) =
        some (.error (.service "Not authenticated" []),
          (turn.arrival env config peers.service).store turn.ambient) := by
    rw [ServiceConnection.dispatch, hroute]
    rfl
  exact step_refused hconn (parseRequest_payload hreq hlower) hrun

private theorem answers_unauthenticated (call : Call) (hconn : Serves env config turn peers conn)
    (hreq : env.Conveys call.request.payload) (hauth : conn.isAuthenticated = false) :
    Answers env config turn call.request peers
      (ServiceConnection.failure "Not authenticated" [])
      (turn.arrival env config peers.service) := by
  obtain ⟨cmd, hlower, htoken, hcmd⟩ : ∃ cmd, ServiceConnection.toLower call.request.cmd = cmd ∧
      cmd ≠ "get_token" ∧ cmd ≠ "auth" := by
    have hblock : ServiceConnection.toLower "block" = "block" := by decide
    have hunblock : ServiceConnection.toLower "unblock" = "unblock" := by decide
    have himport : ServiceConnection.toLower "import_domain_list" = "import_domain_list" := by
      decide
    cases call with
    | blockDomain name => exact ⟨_, hblock, by decide⟩
    | unblockDomain name => exact ⟨_, hunblock, by decide⟩
    | manageDomains names block =>
      cases block with
      | true => exact ⟨_, hblock, by decide⟩
      | false => exact ⟨_, hunblock, by decide⟩
    | importDomainList lst => exact ⟨_, himport, by decide⟩
  exact answers_refused hconn hreq hlower hauth htoken hcmd

/-- Whatever the surroundings do, a call whose request is read at once is the operation of the
service on an authenticated connection, and on any other nothing happens.  A client that is told
true knows that the operation ended, not that it did anything; it loses the connection where the
operation takes the service with it. -/
theorem call_operates (env : Env) (config : Config) (turn : Turn) (session : Session)
    (w : Service) (call : Call) (conn : ServiceConnection)
    (hconn : (turn.arrival env config w).connections[session.connection]? = some conn)
    (hreq : env.ReadAtOnce call.request.payload)
    (haccepted : env.WrittenAtOnce (ServiceConnection.accepted (.object [])))
    (hrefused : env.WrittenAtOnce (ServiceConnection.failure "Not authenticated" [])) :
    let arrived := turn.arrival env config w
    let result := (call.code env config turn).start ⟨session, w⟩
    let operated := PolicyOp.step env (call.operation env, turn.ambient) arrived.db
    if conn.isAuthenticated then
      result.2.service.db = operated.2 ∧
        ((∃ done, operated.1 = some (.ok done)) ∧ result.1 = .ok true ∧
            result.2.service.stopped = arrived.stopped ∨
          operated.1 = some (.error .nullDereference) ∧
            result.1 = .error (.runtime "Read failed (connection closed)") ∧
            result.2.service.stopped = true)
    else
      result.1 = .ok false ∧ result.2.service = arrived := by
  intro arrived result operated
  let peers : Peers := ⟨session, w⟩
  have hserves : Serves env config turn peers conn := hconn
  have hresult : result = (finish env config turn call.request).start peers := by
    simp only [result, Call.code_eq, peers]
  cases hauth : conn.isAuthenticated with
  | false =>
    have hanswer := answers_unauthenticated call hserves hreq.toConveys hauth
    obtain ⟨error, hrun⟩ := start_finish hanswer hrefused.toConveys false rfl fun _ => ⟨_, rfl⟩
    rw [if_neg Bool.false_ne_true, hresult, hrun]
    exact ⟨rfl, rfl⟩
  | true =>
    rw [if_pos rfl, hresult]
    obtain ⟨r, s', hrun, hr⟩ := call.ends env (Service.store_held (w := arrived) turn.ambient)
    have hoperated : operated = (some r, s'.conn) := by
      have hrestart : call.operation env ≠ .restart := by
        cases call with
        | manageDomains names block => cases block <;> simp [Call.operation]
        | _ => simp [Call.operation]
      exact (PolicyOp.step_of_ne_restart env hrestart turn.ambient arrived.db).trans
        (Connection.perform_of_exec hrun)
    rw [hoperated]
    rcases hr with ⟨done, rfl⟩ | rfl
    · obtain ⟨w', hanswer, hdb, hstopped⟩ := answers_ended call hserves hreq.toConveys hauth hrun
      obtain ⟨error, hstart⟩ := start_finish hanswer haccepted.toConveys true rfl (by simp)
      rw [hstart]
      exact ⟨hdb, .inl ⟨⟨done, rfl⟩, rfl, hstopped⟩⟩
    · rw [start_crashed call hserves hreq.toConveys hauth hrun]
      exact ⟨rfl, .inr ⟨rfl, rfl, rfl⟩⟩

/-- A name is blocked through the one connection of the service. -/
theorem call_operates_ads :
    let call := Call.blockDomain "b"
    let conn : ServiceConnection := ⟨⟨Uuid.zero⟩, true⟩
    let env := Env.documents [call.request.payload, ServiceConnection.accepted (.object []),
      ServiceConnection.failure "Not authenticated" []]
    let arrived := ({} : Turn).arrival env {} adsService
    let result := (call.code env {} {}).start ⟨⟨0, ""⟩, adsService⟩
    let operated := PolicyOp.step env (call.operation env, {}) arrived.db
    if conn.isAuthenticated then
      result.2.service.db = operated.2 ∧
        ((∃ done, operated.1 = some (.ok done)) ∧ result.1 = .ok true ∧
            result.2.service.stopped = arrived.stopped ∨
          operated.1 = some (.error .nullDereference) ∧
            result.1 = .error (.runtime "Read failed (connection closed)") ∧
            result.2.service.stopped = true)
    else
      result.1 = .ok false ∧ result.2.service = arrived := by
  intro call conn env
  have hconveys : ∀ m ∈ [call.request.payload, ServiceConnection.accepted (.object []),
      ServiceConnection.failure "Not authenticated" []], env.Conveys m :=
    Env.conveys_documents (by decide +kernel) (by decide +kernel)
  simp only [List.forall_mem_cons] at hconveys
  obtain ⟨hreq, haccepted, hrefused, _⟩ := hconveys
  exact call_operates env {} {} ⟨0, ""⟩ adsService call conn rfl
    (.of_bytes hreq (by decide +kernel)) (.of_bytes haccepted (by decide +kernel))
    (.of_bytes hrefused (by decide +kernel))

end Dblclient

end DblService
