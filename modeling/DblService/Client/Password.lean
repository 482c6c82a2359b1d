import DblService.Client.Session
import DblService.Client.Wire

/-!
# The password protocol

Client and service hash the password and the token on their own.  After a password was
set through one connection, the same password and no other authenticates any connection,
and a hash for one token is refused with another.
-/

namespace DblService

open Framework Service

/-- The digest tells the strings apart. -/
def Env.Distinguishes (env : Env) (inputs : List String) : Prop :=
  ∀ x ∈ inputs, ∀ y ∈ inputs, env.digest x = env.digest y → x = y

private theorem Env.Distinguishes.md5_inj {env : Env} {inputs : List String}
    (h : env.Distinguishes inputs) {x y : String} (hx : x ∈ inputs) (hy : y ∈ inputs)
    : env.md5 x = env.md5 y ↔ x = y :=
  ⟨fun hxy => h x hx y hy (env.digest_eq_of_md5_eq hxy), congrArg env.md5⟩

namespace Dblclient

open Dblclient.Session

variable {env : Env} {config : Config}

private theorem untilEof_append {text : List Char} (h : '\r' ∉ text) (rest : List Char) :
    untilEof (text ++ '\r' :: '\n' :: rest) = text := by
  induction text with
  | nil => rfl
  | cons c cs ih =>
    have hc : c ≠ '\r' := fun heq => h (heq ▸ List.mem_cons_self)
    have hcs := ih fun hmem => h (List.mem_cons_of_mem _ hmem)
    rw [List.cons_append, untilEof, hcs]
    rintro _ rfl
    exact absurd rfl hc

/-! ## One exchange -/

section
variable {α β : Type} (peers : Peers)

theorem start_bind (p : Code α) (f : α → Code β) :
    (p >>= f).start peers = match p.start peers with
      | (.ok a, peers') => (f a).start peers'
      | (.error e, peers') => (.error e, peers') := by
  unfold Code.start
  rw [ExceptT.run_bind, StateT.run_bind]
  cases (ExceptT.run p).run peers with
  | mk r peers' => cases r <;> rfl

theorem start_orThrow {r : Except Exc α} {a : α} (h : r = .ok a) :
    (orThrow r : Code α).start peers = (.ok a, peers) := by
  rw [h]
  rfl

theorem start_setError (response : ServiceResponse) :
    (setError response).start peers =
      (.ok (), { peers with session.error := response.errorMsg }) := rfl

end

/-- The request arrives as it was sent. -/
theorem parseRequest_payload {req : ServiceRequest} (h : env.Conveys req.payload) {cmd : String}
    (hlower : ServiceConnection.toLower req.cmd = cmd) :
    ServiceConnection.parseRequest env (env.styled req.payload) = .ok (cmd, req.params) := by
  obtain ⟨j, hparse, hget⟩ := h.readBack
  have hcmd : env.get j "command" = .ok (.string req.cmd) := by
    rw [Env.get, hget]
    rfl
  have hdata : env.get j "data" = .ok req.params := by
    rw [Env.get, hget]
    rfl
  unfold ServiceConnection.parseRequest
  rw [hparse]
  dsimp only
  rw [hcmd, hdata, ← hlower]
  rfl

private theorem parse_answer {answer : Json} (h : env.Conveys answer) (success : Bool)
    (hsuccess : answer.get "success" = .ok (.bool success))
    (hwhat : success = false → ∃ what, answer.get "error_message" = .ok (.string what)) :
    ∃ response, ServiceResponse.parse env
        (String.ofList (untilEof (env.styled answer ++ "\r\n").toList)) = .ok response ∧
      response.isOk = success ∧ ∀ key, response.data.get key = answer.get key := by
  obtain ⟨j, hparse, hget⟩ := h.readBack
  have htext : String.ofList (untilEof (env.styled answer ++ "\r\n").toList) =
      env.styled answer := by
    rw [String.toList_append]
    change String.ofList (untilEof (_ ++ ['\r', '\n'])) = _
    rw [untilEof_append h.escaped, String.ofList_toList]
  rw [htext, ServiceResponse.parse, hparse]
  have hok : env.get j "success" = .ok (.bool success) := by
    rw [Env.get, hget, hsuccess]
    rfl
  dsimp only
  rw [hok]
  cases success with
  | true => exact ⟨{ data := j, isOk := true }, rfl, rfl, hget⟩
  | false =>
    obtain ⟨what, hwhat⟩ := hwhat rfl
    have hmsg : env.get j "error_message" = .ok (.string what) := by
      rw [Env.get, hget, hwhat]
      rfl
    refine ⟨{ data := j, isOk := false, errorMsg := what }, ?_, rfl, hget⟩
    change (env.get j "error_message" >>= _) = _
    rw [hmsg]
    rfl

/-- The service answers the request of a turn with this value, and is `w` afterwards. -/
def Answers (env : Env) (config : Config) (turn : Turn) (req : ServiceRequest) (peers : Peers)
    (answer : Json) (w : Service) : Prop :=
  step env config
    (.request peers.session.connection (env.styled req.payload) turn.status turn.ambient)
    (turn.arrival env config peers.service) = (some (env.styled answer ++ "\r\n"), w)

theorem start_execute {turn : Turn} {req : ServiceRequest} {peers : Peers} {answer : Json}
    {w : Service} (hanswer : Answers env config turn req peers answer w)
    (h : env.Conveys answer) (success : Bool)
    (hsuccess : answer.get "success" = .ok (.bool success))
    (hwhat : success = false → ∃ what, answer.get "error_message" = .ok (.string what)) :
    ∃ response, (execute env config turn req).start peers =
        (.ok response, { peers with service := w }) ∧
      response.isOk = success ∧ ∀ key, response.data.get key = answer.get key := by
  obtain ⟨response, hparse, hresponse⟩ := parse_answer h success hsuccess hwhat
  refine ⟨response, ?_, hresponse⟩
  unfold Answers at hanswer
  unfold Code.start execute
  rw [ExceptT.run_mk, StateT.run]
  dsimp only
  rw [hanswer, ← hparse]

/-! ## The three requests of the protocol -/

def tokenAnswer (a : Auth) : Json :=
  ServiceConnection.accepted ((Json.object []).set "token" (.string a.token))

/-- The connection of the session when the request of a turn arrives. -/
def Serves (env : Env) (config : Config) (turn : Turn) (peers : Peers) (conn : ServiceConnection) :
    Prop :=
  (turn.arrival env config peers.service).connections[peers.session.connection]? = some conn

variable {turn : Turn} {peers : Peers} {conn : ServiceConnection}

private theorem answers_getToken (hconn : Serves env config turn peers conn)
    (h : env.Conveys ({ cmd := "get_token" } : ServiceRequest).payload) :
    Answers env config turn { cmd := "get_token" } peers (tokenAnswer conn.auth)
      (turn.arrival env config peers.service) := by
  have hrun : ((turn.arrival env config peers.service).store turn.ambient).exec
      (ServiceConnection.dispatch env turn.status conn "get_token" .null) =
        some (.ok ({ response := (Json.object []).set "token" (.string conn.auth.token) }, conn),
          (turn.arrival env config peers.service).store turn.ambient) := rfl
  obtain ⟨hlt, hget⟩ := List.getElem?_eq_some_iff.mp hconn
  have hsame : (turn.arrival env config peers.service).connections.set peers.session.connection
      conn = (turn.arrival env config peers.service).connections := by
    rw [← hget, List.set_getElem_self]
  unfold Answers
  rw [step_accepted hconn (parseRequest_payload h (by decide)) hrun, hsame]
  simp only [Bool.or_false]
  rfl

private theorem start_withToken (hconn : Serves env config turn peers conn)
    (hreq : env.Conveys ({ cmd := "get_token" } : ServiceRequest).payload)
    (hanswer : env.Conveys (tokenAnswer conn.auth)) (body : String → Code Bool) :
    ∃ error, (withToken env config turn body).start peers =
      (body conn.auth.token).start
        { session := { peers.session with error }
          service := turn.arrival env config peers.service } := by
  obtain ⟨response, hrun, hok, hget⟩ :=
    start_execute (answers_getToken hconn hreq) hanswer true rfl nofun
  refine ⟨response.errorMsg, ?_⟩
  have hdata : env.get response.data "data" =
      .ok ((Json.object []).set "token" (.string conn.auth.token)) := by
    rw [Env.get, hget]
    rfl
  have htoken : env.get ((Json.object []).set "token" (.string conn.auth.token)) "token" =
      .ok (.string conn.auth.token) := rfl
  have hstring : env.asString (.string conn.auth.token) = .ok conn.auth.token := rfl
  rw [withToken, start_bind, hrun]
  dsimp only
  rw [start_bind, start_setError, if_pos hok]
  dsimp only
  rw [start_bind, start_orThrow _ hdata]
  dsimp only
  rw [start_bind, start_orThrow _ htoken]
  dsimp only
  rw [start_bind, start_orThrow _ hstring]
  dsimp only
  rw [if_pos conn.auth.token_ne_empty]

/-- The end of both functions: the request with the token, and whether it succeeded. -/
def finish (env : Env) (config : Config) (turn : Turn) (req : ServiceRequest) : Code Bool := do
  let response ← execute env config turn req
  setError response
  pure response.isOk

theorem start_finish {req : ServiceRequest} {answer : Json} {w : Service}
    (hanswer : Answers env config turn req peers answer w) (h : env.Conveys answer)
    (success : Bool) (hsuccess : answer.get "success" = .ok (.bool success))
    (hwhat : success = false → ∃ what, answer.get "error_message" = .ok (.string what)) :
    ∃ error, (finish env config turn req).start peers =
      (.ok success, { session := { peers.session with error }, service := w }) := by
  obtain ⟨response, hrun, hok, _⟩ := start_execute hanswer h success hsuccess hwhat
  refine ⟨response.errorMsg, ?_⟩
  rw [finish, start_bind, hrun]
  dsimp only
  rw [start_bind, start_setError, ← hok]
  rfl

private theorem answers_auth (hconn : Serves env config turn peers conn)
    (hquiet : turn.ambient.faulty = false) {passwd token : String}
    (hreq : env.Conveys (authRequest env passwd token).payload) :
    ∃ w', Answers env config turn (authRequest env passwd token) peers
      (if conn.auth.accepts env (turn.arrival env config peers.service).db.view.password
          (env.md5 (env.md5 passwd ++ token)) = true
        then ServiceConnection.accepted (.object [])
        else ServiceConnection.failure "Invalid auth" []) w' := by
  let w := turn.arrival env config peers.service
  let hash := env.md5 (env.md5 passwd ++ token)
  have hlower : ServiceConnection.toLower (authRequest env passwd token).cmd = "auth" := by
    change ServiceConnection.toLower "auth" = "auth"
    decide
  have hparse := parseRequest_payload hreq hlower
  have hhash : ServiceConnection.presented env (authRequest env passwd token).params = .ok hash :=
    rfl
  have hrun := ServiceConnection.exec_dispatch_auth (w.store turn.ambient) env turn.status conn hhash
  have hnot : ¬ (w.store turn.ambient).ambient.faulty = true := Bool.eq_false_iff.mp hquiet
  have hview : (w.store turn.ambient).conn.view = w.db.view := rfl
  rw [Store.exec_auth _ env conn.auth hash rfl, if_neg hnot, hview] at hrun
  cases haccepts : conn.auth.accepts env w.db.view.password hash with
  | true =>
    simp only [haccepts, Option.map_some, Except.bind, if_true] at hrun
    exact ⟨_, step_accepted hconn hparse hrun⟩
  | false =>
    simp only [haccepts, Option.map_some, Except.bind, Bool.false_eq_true, if_false] at hrun
    exact ⟨_, step_refused hconn hparse hrun⟩

/-- The hashes of the client pass every check: only the write decides. -/
theorem exec_handleSetServicePassword_agreed (env : Env) (s : Store) (hs : s.held = false)
    (conn : ServiceConnection) (passwd : String) :
    ∃ done s', s.exec (ServiceConnection.handleSetServicePassword env conn
        (passwdRequest env passwd conn.auth.token).params) =
          some (if done then .ok {} else .error (.service "Could not set password" []), s') ∧
      Transacted [.insertOrReplaceSetting "service_password" (env.md5 passwd)] s done s' := by
  obtain ⟨done, s', hrun, ht⟩ := s.exec_settingsSet "service_password" (env.md5 passwd) hs
  refine ⟨done, s', ?_, ht⟩
  change s.exec (conn.auth.setPassword env (env.md5 passwd)
    (env.md5 (env.md5 passwd ++ conn.auth.token)) >>= _) = _
  rw [Auth.setPassword_of_agreed (env.md5_length passwd) rfl, Store.exec_bind, Store.exec_bind,
    hrun]
  cases done <;> rfl

private theorem answers_setServicePassword (hconn : Serves env config turn peers conn)
    (hauth : conn.isAuthenticated = true) {passwd : String}
    (hreq : env.Conveys (passwdRequest env passwd conn.auth.token).payload) :
    ∃ done w' s', Answers env config turn (passwdRequest env passwd conn.auth.token) peers
        (if done = true then ServiceConnection.accepted (.object [])
          else ServiceConnection.failure "Could not set password" []) w' ∧
      Transacted [.insertOrReplaceSetting "service_password" (env.md5 passwd)]
        ((turn.arrival env config peers.service).store turn.ambient) done s' ∧
      w'.db = s'.conn := by
  let w := turn.arrival env config peers.service
  have hlower : ServiceConnection.toLower (passwdRequest env passwd conn.auth.token).cmd =
      "set_service_password" := by
    change ServiceConnection.toLower "set_service_password" = _
    decide
  have hparse := parseRequest_payload hreq hlower
  obtain ⟨done, s', hrun, ht⟩ :=
    exec_handleSetServicePassword_agreed env (w.store turn.ambient) rfl conn passwd
  have hroute : ServiceConnection.route env turn.status conn "set_service_password" =
      .handle (ServiceConnection.handleSetServicePassword env conn) := by
    simp [ServiceConnection.route, hauth, ServiceConnection.handlers]
  have hdispatch : (w.store turn.ambient).exec (ServiceConnection.dispatch env turn.status conn
      "set_service_password" (passwdRequest env passwd conn.auth.token).params) = _ :=
    ServiceConnection.exec_dispatch_handle _ env turn.status conn hroute
  rw [hrun] at hdispatch
  cases done with
  | true =>
    simp only [if_true, Option.map_some, Except.map] at hdispatch
    exact ⟨true, _, s', step_accepted hconn hparse hdispatch, ht, rfl⟩
  | false =>
    simp only [Bool.false_eq_true, if_false, Option.map_some, Except.map] at hdispatch
    exact ⟨false, _, s', step_refused hconn hparse hdispatch, ht, rfl⟩

/-! ## The two functions -/

private theorem authenticate_eq (turns : Turn × Turn) (passwd : String) :
    authenticate env config turns passwd = withToken env config turns.1 fun token =>
      finish env config turns.2 (authRequest env passwd token) := rfl

private theorem setServicePassword_eq (turns : Turn × Turn) (passwd : String) :
    setServicePassword env config turns passwd = withToken env config turns.1 fun token =>
      finish env config turns.2 (passwdRequest env passwd token) := rfl

def passwdMessages (env : Env) (a : Auth) (passwd : String) : List Json :=
  [({ cmd := "get_token" } : ServiceRequest).payload, tokenAnswer a,
    (passwdRequest env passwd a.token).payload, ServiceConnection.accepted (.object []),
    ServiceConnection.failure "Could not set password" []]

def authMessages (env : Env) (a : Auth) (passwd : String) : List Json :=
  [({ cmd := "get_token" } : ServiceRequest).payload, tokenAnswer a,
    (authRequest env passwd a.token).payload, ServiceConnection.accepted (.object []),
    ServiceConnection.failure "Invalid auth" []]

/-- No event of the run changes the password. -/
def Unchanged (env : Env) (config : Config) (es : List Event) (w : Service) : Prop :=
  Along (step env config) (fun e w => ¬ ChangesPassword env config e w) es w

/-- The turns of an authentication: no password change intervenes, and the password can be
read. -/
structure Undisturbed (env : Env) (config : Config) (turns : Turn × Turn) (w : Service) : Prop where
  first : Unchanged env config turns.1.before w
  second : Unchanged env config turns.2.before (turns.1.arrival env config w)
  readable : turns.2.ambient.faulty = false

private theorem start_withToken_of_open {session : Session} {w : Service} {turns : Turn × Turn}
    (hi : w.connections[session.connection]? = some conn)
    (hget : env.Conveys ({ cmd := "get_token" } : ServiceRequest).payload)
    (htoken : env.Conveys (tokenAnswer conn.auth)) (body : String → Code Bool) :
    ∃ error conn', (withToken env config turns.1 body).start ⟨session, w⟩ =
        (body conn.auth.token).start ⟨{ session with error }, turns.1.arrival env config w⟩ ∧
      Continues conn conn' ∧ Serves env config turns.2
        ⟨{ session with error }, turns.1.arrival env config w⟩ conn' := by
  obtain ⟨conn₁, hi₁, hc₁⟩ := run_connection env config turns.1.before hi
  obtain ⟨conn₂, hi₂, hc₂⟩ := run_connection env config turns.2.before hi₁
  have hconn : Serves env config turns.1 ⟨session, w⟩ conn₁ := hi₁
  obtain ⟨error, hrun⟩ := start_withToken hconn hget (hc₁.auth ▸ htoken) body
  rw [hc₁.auth] at hrun
  exact ⟨error, conn₂, hrun, hc₁.trans hc₂, hi₂⟩

private theorem start_authenticate {session : Session} {w : Service} {turns : Turn × Turn}
    {p q : String} (hi : w.connections[session.connection]? = some conn)
    (hpassword : w.password = some (env.md5 p)) (hturns : Undisturbed env config turns w)
    (hmessages : ∀ m ∈ authMessages env conn.auth q, env.Conveys m)
    (hdistinct : env.Distinguishes
      [p, q, env.md5 p ++ conn.auth.token, env.md5 q ++ conn.auth.token]) :
    ((authenticate env config turns q).start ⟨session, w⟩).1 = .ok (decide (q = p)) := by
  simp only [authMessages, List.forall_mem_cons] at hmessages
  obtain ⟨hget, htoken, hreq, haccepted, hfailure, _⟩ := hmessages
  obtain ⟨error, conn₂, hrun, hc, hconn⟩ := start_withToken_of_open hi hget htoken
    fun token => finish env config turns.2 (authRequest env q token)
  rw [authenticate_eq, hrun]
  obtain ⟨w', hanswer⟩ := answers_auth hconn hturns.readable hreq
  have hstored : (turns.2.arrival env config (turns.1.arrival env config w)).db.view.password =
      env.md5 p :=
    Db.password_eq ((run_password hturns.second).trans ((run_password hturns.first).trans hpassword))
  have haccepts : conn₂.auth.accepts env (env.md5 p) (env.md5 (env.md5 q ++ conn.auth.token)) =
      decide (q = p) := by
    rw [Bool.eq_iff_iff, Auth.accepts_iff, decide_eq_true_iff, or_iff_right (env.md5_ne_empty p),
      hc.auth, hdistinct.md5_inj (by simp) (by simp), String.append_left_inj,
      hdistinct.md5_inj (by simp) (by simp)]
  rw [hstored, haccepts] at hanswer
  cases hq : decide (q = p) with
  | true =>
    simp only [hq, if_true] at hanswer
    obtain ⟨_, hfinish⟩ := start_finish hanswer haccepted true rfl nofun
    rw [hfinish]
  | false =>
    simp only [hq, Bool.false_eq_true, if_false] at hanswer
    obtain ⟨_, hfinish⟩ := start_finish hanswer hfailure false rfl fun _ => ⟨_, rfl⟩
    rw [hfinish]

private theorem start_setServicePassword (env : Env) (config : Config) (turns : Turn × Turn)
    {session : Session} {w : Service} {p : String} (hi : w.connections[session.connection]? = some conn)
    (hauth : conn.isAuthenticated = true)
    (hmessages : ∀ m ∈ passwdMessages env conn.auth p, env.Conveys m) :
    ∃ done s', Transacted [.insertOrReplaceSetting "service_password" (env.md5 p)]
        ((turns.2.arrival env config (turns.1.arrival env config w)).store turns.2.ambient)
        done s' ∧
      ((setServicePassword env config turns p).start ⟨session, w⟩).1 = .ok done ∧
      ((setServicePassword env config turns p).start ⟨session, w⟩).2.service.db = s'.conn := by
  simp only [passwdMessages, List.forall_mem_cons] at hmessages
  obtain ⟨hget, htoken, hreq, haccepted, hfailure, _⟩ := hmessages
  obtain ⟨error, conn₂, hrun, hc, hconn⟩ := start_withToken_of_open hi hget htoken
    fun token => finish env config turns.2 (passwdRequest env p token)
  rw [setServicePassword_eq, hrun]
  rw [← hc.auth] at hreq ⊢
  obtain ⟨done, w', s', hanswer, ht, hdb⟩ :=
    answers_setServicePassword hconn (hc.authenticated hauth) hreq
  refine ⟨done, s', ht, ?_⟩
  cases done with
  | true =>
    obtain ⟨_, hfinish⟩ := start_finish hanswer haccepted true rfl nofun
    rw [hfinish]
    exact ⟨rfl, hdb⟩
  | false =>
    obtain ⟨_, hfinish⟩ := start_finish hanswer hfailure false rfl fun _ => ⟨_, rfl⟩
    rw [hfinish]
    exact ⟨rfl, hdb⟩

/-! ## The protocol -/

private theorem setting_of_committed {s s' : Store} {key value : String}
    (h : Transacted [.insertOrReplaceSetting key value] s true s') :
    s'.conn.view.setting key = some value := by
  cases h with
  | committed db _ _ hrun =>
    cases hrun
    change (lookup Setting.name key
      (insertOrReplace Setting.name ⟨key, value⟩ s.conn.file.settings)).map Setting.value = _
    rw [lookup_insertOrReplace, if_pos rfl]
    rfl

/-- Between two operations, with this password stored, when the next statement does not find the
database busy. -/
structure Protected (s : Store) (passwd : String) : Prop where
  released : s.held = false
  readable : s.ambient.faulty = false
  stored : s.conn.view.setting "service_password" = some passwd

theorem exec_dispatch_auth_protected (env : Env) {s : Store} {passwd hash : String} (data : Json)
    (hs : Protected s passwd) (hhash : ServiceConnection.presented env data = .ok hash)
    (status : Status) (conn : ServiceConnection) :
    s.exec (ServiceConnection.dispatch env status conn "auth" data) =
      some (if conn.auth.accepts env passwd hash then .ok ({}, ⟨conn.auth, true⟩)
        else .error (.service "Invalid auth" []), s.after s.conn 1) := by
  have hnot : ¬ s.ambient.faulty = true := Bool.eq_false_iff.mp hs.readable
  rw [ServiceConnection.exec_dispatch_auth s env status conn hhash,
    Store.exec_auth s env conn.auth hash hs.released, if_neg hnot, Db.password_eq hs.stored]
  cases conn.auth.accepts env passwd hash <;> rfl

private theorem replay_refused {s₁ s₂ : Store} {passwd hash : String} {data : Json}
    (hne : passwd ≠ "") (hs₁ : Protected s₁ passwd) (hs₂ : Protected s₂ passwd)
    (hhash : ServiceConnection.presented env data = .ok hash) {status₁ status₂ : Status}
    {conn₁ conn₂ : ServiceConnection} (htoken : conn₁.auth.token ≠ conn₂.auth.token)
    (hdistinct : env.Distinguishes [passwd ++ conn₁.auth.token, passwd ++ conn₂.auth.token])
    {x : Handled × ServiceConnection} {s₁' : Store}
    (haccepted : s₁.exec (ServiceConnection.dispatch env status₁ conn₁ "auth" data) =
      some (.ok x, s₁')) :
    s₂.exec (ServiceConnection.dispatch env status₂ conn₂ "auth" data) =
      some (.error (.service "Invalid auth" []), s₂.after s₂.conn 1) := by
  rw [exec_dispatch_auth_protected env data hs₁ hhash] at haccepted
  have haccepts₁ : conn₁.auth.accepts env passwd hash = true := by
    by_contra hnot
    rw [if_neg hnot] at haccepted
    cases haccepted
  have hmd5 : hash = env.md5 (passwd ++ conn₁.auth.token) :=
    (Auth.accepts_iff.mp haccepts₁).resolve_left hne
  rw [exec_dispatch_auth_protected env data hs₂ hhash, if_neg]
  intro haccepts₂
  have hmd5' : hash = env.md5 (passwd ++ conn₂.auth.token) :=
    (Auth.accepts_iff.mp haccepts₂).resolve_left hne
  have hsame := (hdistinct.md5_inj (by simp) (by simp)).mp (hmd5.symm.trans hmd5')
  exact htoken ((String.append_right_inj passwd).mp hsame)

/-- After `set_service_password(p)` on an authenticated connection, which no check refuses,
`authenticate` returns on any connection whether it is given `p`, and no hash serves for two
tokens. -/
theorem password_protocol (env : Env) (config : Config) (p : String) :
    (∀ session w turns conn, w.connections[session.connection]? = some conn →
      conn.isAuthenticated = true → (∀ m ∈ passwdMessages env conn.auth p, env.Conveys m) →
      let set := (setServicePassword env config turns p).start ⟨session, w⟩
      (∃ done s', set.1 = .ok done ∧
        Transacted [.insertOrReplaceSetting "service_password" (env.md5 p)]
          ((turns.2.arrival env config (turns.1.arrival env config w)).store turns.2.ambient)
          done s') ∧
      (set.1 = .ok true → ∀ es, Unchanged env config es set.2.service →
        let w' := (runEvents (step env config) es set.2.service).2
        ∀ session' turns' conn' q, w'.connections[session'.connection]? = some conn' →
          Undisturbed env config turns' w' →
          (∀ m ∈ authMessages env conn'.auth q, env.Conveys m) →
          env.Distinguishes
            [p, q, env.md5 p ++ conn'.auth.token, env.md5 q ++ conn'.auth.token] →
          ((authenticate env config turns' q).start ⟨session', w'⟩).1 = .ok (decide (q = p)))) ∧
    ∀ s₁ s₂ passwd hash data status₁ status₂ conn₁ conn₂, passwd ≠ "" →
      Protected s₁ passwd → Protected s₂ passwd →
      ServiceConnection.presented env data = .ok hash →
      conn₁.auth.token ≠ conn₂.auth.token →
      env.Distinguishes [passwd ++ conn₁.auth.token, passwd ++ conn₂.auth.token] →
      (∃ x s₁', s₁.exec (ServiceConnection.dispatch env status₁ conn₁ "auth" data) =
        some (.ok x, s₁')) →
      s₂.exec (ServiceConnection.dispatch env status₂ conn₂ "auth" data) =
        some (.error (.service "Invalid auth" []), s₂.after s₂.conn 1) := by
  constructor
  · intro session w turns conn hi hauth hmessages
    obtain ⟨done, s', ht, hdone, hdb⟩ :=
      start_setServicePassword env config turns hi hauth hmessages
    intro set
    refine ⟨⟨done, s', hdone, ht⟩, ?_⟩
    intro htrue es hes w' session' turns' conn' q hi' hturns hmessages' hdistinct
    have hdone' : done = true := Except.ok.inj (hdone.symm.trans htrue)
    subst hdone'
    have hstored : set.2.service.password = some (env.md5 p) := by
      rw [Service.password, hdb]
      exact setting_of_committed ht
    exact start_authenticate hi' ((run_password hes).trans hstored) hturns hmessages' hdistinct
  · intro s₁ s₂ passwd hash data status₁ status₂ conn₁ conn₂ hne hs₁ hs₂ hhash htoken hdistinct
    rintro ⟨x, s₁', haccepted⟩
    exact replay_refused hne hs₁ hs₂ hhash htoken hdistinct haccepted

def recordedDigest (s : String) : List UInt8 :=
  if s = "test123" then
    [0xcc, 0x03, 0xe7, 0x47, 0xa6, 0xaf, 0xbb, 0xcb,
     0xf8, 0xbe, 0x76, 0x68, 0xac, 0xfe, 0xbe, 0xe5]
  else if s = "invalid" then
    [0xfe, 0xdb, 0x2d, 0x84, 0xca, 0xfe, 0x20, 0x86,
     0x2c, 0xb4, 0x39, 0x97, 0x51, 0xa8, 0xa7, 0xe3]
  else if s = "cc03e747a6afbbcbf8be7668acfebee56ba7b810-9dad-41d1-80b4-00c04fd430c8" then
    [0x7c, 0x2a, 0x70, 0x71, 0x5f, 0xf6, 0xda, 0xaf,
     0x86, 0x20, 0x54, 0xb8, 0xc8, 0xfc, 0x5e, 0x1a]
  else if s = "cc03e747a6afbbcbf8be7668acfebee5f47ac10b-58cc-4372-a567-0e02b2c3d479" then
    [0x88, 0xa1, 0x02, 0x3a, 0xe2, 0x67, 0xc6, 0x6c,
     0x6d, 0xef, 0xb0, 0xdd, 0xfe, 0xcd, 0x3e, 0xf3]
  else if s = "fedb2d84cafe20862cb4399751a8a7e3f47ac10b-58cc-4372-a567-0e02b2c3d479" then
    [0x68, 0xed, 0x34, 0x5d, 0xa4, 0xfa, 0xf4, 0x49,
     0xa7, 0x95, 0x3c, 0xf6, 0x86, 0x82, 0x84, 0xe0]
  else List.replicate 16 0

private theorem recordedDigest_length (s : String) : (recordedDigest s).length = 16 := by
  unfold recordedDigest
  split_ifs <;> rfl

def firstUuid : Uuid :=
  ⟨[0x6b, 0xa7, 0xb8, 0x10, 0x9d, 0xad, 0x41, 0xd1,
    0x80, 0xb4, 0x00, 0xc0, 0x4f, 0xd4, 0x30, 0xc8], rfl⟩

def secondUuid : Uuid :=
  ⟨[0xf4, 0x7a, 0xc1, 0x0b, 0x58, 0xcc, 0x43, 0x72,
    0xa5, 0x67, 0x0e, 0x02, 0xb2, 0xc3, 0xd4, 0x79], rfl⟩

def recordedMessages : List Json :=
  let env := Env.recorded [] recordedDigest recordedDigest_length
  passwdMessages env ⟨firstUuid⟩ "test123" ++
    [tokenAnswer ⟨secondUuid⟩, (authRequest env "invalid" (Auth.token ⟨secondUuid⟩)).payload,
      ServiceConnection.failure "Invalid auth" []]

def recordedEnv : Env := .recorded recordedMessages recordedDigest recordedDigest_length

def recordedStart : Service :=
  { db := ⟨Db.seeded, none⟩, connections := [⟨⟨firstUuid⟩, true⟩] }

private theorem recordedMessages_conveyed : ∀ m ∈ recordedMessages, recordedEnv.Conveys m := by
  have hunique : (recordedMessages.map Json.styledMessage).Nodup := by decide +kernel
  exact Env.conveys_recorded hunique (by decide +kernel) (by decide +kernel)

private theorem passwdMessages_recorded :
    ∀ m ∈ passwdMessages recordedEnv ⟨firstUuid⟩ "test123", m ∈ recordedMessages :=
  fun _ hm => List.mem_append_left _ hm

private theorem authMessages_recorded :
    ∀ m ∈ authMessages recordedEnv ⟨secondUuid⟩ "invalid", m ∈ recordedMessages := by
  simp only [authMessages, List.forall_mem_cons]
  refine ⟨List.mem_of_getElem? (i := 0) rfl, List.mem_of_getElem? (i := 5) rfl,
    List.mem_of_getElem? (i := 6) rfl, List.mem_of_getElem? (i := 3) rfl,
    List.mem_of_getElem? (i := 7) rfl, nofun⟩

@[irreducible] def recordedService : Service :=
  (runEvents (step recordedEnv {}) [.opened secondUuid {}]
    ((setServicePassword recordedEnv {} ({}, {}) "test123").start
      ⟨⟨0, ""⟩, recordedStart⟩).2.service).2

private theorem recordedService_eq :
    (runEvents (step recordedEnv {}) [.opened secondUuid {}]
      ((setServicePassword recordedEnv {} ({}, {}) "test123").start
        ⟨⟨0, ""⟩, recordedStart⟩).2.service).2 = recordedService := by
  unfold recordedService
  rfl

private theorem recordedService_state :
    recordedService.connections[1]? = some ⟨⟨secondUuid⟩, false⟩ ∧
      recordedService.db.view.setting "service_password" =
        some "cc03e747a6afbbcbf8be7668acfebee5" := by
  decide +kernel

private theorem recordedDigest_distinguishes :
    recordedEnv.Distinguishes ["test123", "invalid",
        recordedEnv.md5 "test123" ++ Auth.token ⟨secondUuid⟩,
        recordedEnv.md5 "invalid" ++ Auth.token ⟨secondUuid⟩] ∧
      recordedEnv.Distinguishes [
        "cc03e747a6afbbcbf8be7668acfebee5" ++ Auth.token ⟨firstUuid⟩,
        "cc03e747a6afbbcbf8be7668acfebee5" ++ Auth.token ⟨secondUuid⟩] := by
  unfold Env.Distinguishes
  decide +kernel

/-- A password is set through the first connection; another one is refused on the second, and
so is a hash that the first one accepts. -/
theorem password_protocol_recorded :
    ((setServicePassword recordedEnv {} ({}, {}) "test123").start ⟨⟨0, ""⟩, recordedStart⟩).1 =
        .ok true ∧
      ((authenticate recordedEnv {} ({}, {}) "invalid").start ⟨⟨1, ""⟩, recordedService⟩).1 =
        .ok false ∧
      (Store.free recordedService.db).exec (ServiceConnection.dispatch recordedEnv {}
          ⟨⟨secondUuid⟩, false⟩ "auth"
          (.object [("hash", .string "7c2a70715ff6daaf862054b8c8fc5e1a")])) =
        some (.error (.service "Invalid auth" []),
          (Store.free recordedService.db).after (Store.free recordedService.db).conn 1) := by
  have h := password_protocol recordedEnv {} "test123"
  obtain ⟨hconnection, hstored⟩ := recordedService_state
  obtain ⟨hdistinct, hdistinct'⟩ := recordedDigest_distinguishes
  obtain ⟨⟨done, s', hdone, ht⟩, hagree⟩ := h.1 ⟨0, ""⟩ recordedStart ({}, {})
    ⟨⟨firstUuid⟩, true⟩ rfl rfl fun m hm =>
      recordedMessages_conveyed m (passwdMessages_recorded m hm)
  have hcommitted : done = true := ht.done_iff.mpr ⟨rfl, by decide, _, rfl⟩
  subst hcommitted
  refine ⟨hdone, ?_, ?_⟩
  · have hlater := hagree hdone [.opened secondUuid {}] ⟨id, trivial⟩
    dsimp only at hlater
    rw [recordedService_eq] at hlater
    have hrefused := hlater ⟨1, ""⟩ ({}, {}) ⟨⟨secondUuid⟩, false⟩ "invalid" hconnection
      ⟨trivial, trivial, rfl⟩
      (fun m hm => recordedMessages_conveyed m (authMessages_recorded m hm)) hdistinct
    rw [show decide ("invalid" = "test123") = false by decide] at hrefused
    exact hrefused
  · refine h.2 (.free recordedService.db) (.free recordedService.db)
      "cc03e747a6afbbcbf8be7668acfebee5" "7c2a70715ff6daaf862054b8c8fc5e1a" _ {} {}
      ⟨⟨firstUuid⟩, false⟩ ⟨⟨secondUuid⟩, false⟩ (by decide) ⟨rfl, rfl, hstored⟩
      ⟨rfl, rfl, hstored⟩ rfl (by decide +kernel) hdistinct' ?_
    have haccepts : Auth.accepts recordedEnv ⟨firstUuid⟩ "cc03e747a6afbbcbf8be7668acfebee5"
        "7c2a70715ff6daaf862054b8c8fc5e1a" = true := by decide +kernel
    have hprotected : Protected (.free recordedService.db) "cc03e747a6afbbcbf8be7668acfebee5" :=
      ⟨rfl, rfl, hstored⟩
    have haccepted := exec_dispatch_auth_protected recordedEnv
      (.object [("hash", .string "7c2a70715ff6daaf862054b8c8fc5e1a")]) hprotected rfl {}
      ⟨⟨firstUuid⟩, false⟩
    rw [if_pos haccepts] at haccepted
    exact ⟨_, _, haccepted⟩

end Dblclient

end DblService
