import DblService.Client.Password
import DblService.Manager.Listings

/-!
# The lists on the client

`get_blocked_domains` and `get_whitelisted_domains` decode the records of the answer on the
machine of the client, whose name validator may not be that of the service.
-/

namespace DblService

open Framework

/-- The listing of the service that a client asks for. -/
def DomainManager.listing (blocked : Bool) : Code (List Domain) :=
  if blocked then getBlocked else getWhitelisted

namespace Dblclient

open Service

namespace Session

variable (env : Env) (config : Config) (resolves : String → Bool)

def pushDomains (records : List Json) (lst : List Domain) : Except Exc (List Domain) :=
  records.foldlM (fun lst d => do
    let decoded := (Domain.initFromJson { env with isValid := resolves } d).run.run {}
    decoded.1
    pure (lst ++ [decoded.2])) lst

def domainsRequest (blocked : Bool) : ServiceRequest :=
  ({ cmd := "get_domains" } : ServiceRequest).setParameter "type"
    (if blocked then "blocked" else "whitelisted")

def getDomains (turn : Turn) (lst : List Domain) (blocked : Bool) : Code (Bool × List Domain) := do
  let response ← execute env config turn (domainsRequest blocked)
  setError response
  if response.isOk then
    let data ← orThrow (env.get response.data "data")
    let lst ← orThrow (pushDomains env resolves data.items lst)
    pure (true, lst)
  else
    pure (false, lst)

def getBlockedDomains (turn : Turn) (lst : List Domain) : Code (Bool × List Domain) :=
  getDomains env config resolves turn lst true

def getWhitelistedDomains (turn : Turn) (lst : List Domain) : Code (Bool × List Domain) :=
  getDomains env config resolves turn lst false

end Session

/-! ## Decoding -/

/-- What a record becomes: the name is dropped unless it resolves. -/
def received (resolves : String → Bool) (d : Domain) : Domain :=
  { d with name := if resolves d.name then d.name else "" }

private theorem received_eq_iff {resolves : String → Bool} {d : Domain} :
    received resolves d = d ↔ resolves d.name = true ∨ d.name = "" := by
  obtain ⟨name, listId, listName⟩ := d
  cases hv : resolves name with
  | true => simp [received, hv]
  | false => simp [received, hv, eq_comm]

private theorem map_received_eq_iff {resolves : String → Bool} {rows : List Domain} :
    rows.map (received resolves) = rows ↔ ∀ d ∈ rows, resolves d.name = true ∨ d.name = "" := by
  simp only [← received_eq_iff]
  conv_lhs => rhs; rw [← List.map_id rows]
  exact List.map_inj_left

/-- A record with a list name is decoded, unless its id is out of range. -/
theorem initFromJson_toJson (env : Env) {d : Domain} (hname : d.listName.isSome = true)
    {decoded : Domain} (h : (Domain.initFromJson env d.toJson).run.run {} = (.ok (), decoded)) :
    decoded = received env.isValid d := by
  obtain ⟨name, listId, listName⟩ := d
  obtain ⟨listName, rfl⟩ := Option.isSome_iff_exists.mp hname
  have hrun : (Domain.initFromJson env
      { name, listId, listName := some listName : Domain }.toJson).run.run {} =
      ((do
        if env.isValid name = true then
          modify fun d => { d with name }
        let listId ← env.asInt (.int listId)
        modify fun d => { d with listId }
        modify fun d => { d with listName := some listName } : Decoder Domain Unit)).run.run {} := rfl
  rw [hrun] at h
  have hasInt : env.asInt (.int listId) =
      if Json.isInt listId then .ok listId
      else .error (env.jsonError "LargestInt out of Int range") := by
    change env.lift (if Json.isInt listId = true then .ok listId else .error _) = _
    split_ifs <;> rfl
  rw [hasInt] at h
  cases hint : Json.isInt listId with
  | true =>
    cases hv : env.isValid name with
    | true =>
      simp only [hint, hv, if_true] at h
      cases h
      simp [received, hv]
    | false =>
      simp only [hint, hv, if_true] at h
      cases h
      simp [received, hv]
  | false =>
    simp only [hint] at h
    cases hv : env.isValid name <;> rw [hv] at h <;> cases h

private theorem pushDomains_toJson (env : Env) {resolves : String → Bool} {rows lst v : List Domain}
    (hnames : ∀ d ∈ rows, d.listName.isSome = true)
    (h : Session.pushDomains env resolves (rows.map Domain.toJson) lst = .ok v) :
    v = lst ++ rows.map (received resolves) := by
  induction rows generalizing lst with
  | nil =>
    cases h
    simp
  | cons d ds ih =>
    rw [List.map_cons, Session.pushDomains, List.foldlM_cons] at h
    rcases hrun : (Domain.initFromJson { env with isValid := resolves } d.toJson).run.run {} with
      ⟨r, decoded⟩
    cases r with
    | error e =>
      rw [hrun] at h
      cases h
    | ok _ =>
      have hdecoded := initFromJson_toJson _ (hnames d List.mem_cons_self) hrun
      rw [hrun] at h
      have hrest := ih (fun e he => hnames e (List.mem_cons_of_mem _ he)) h
      rw [hrest, hdecoded, List.map_cons, List.append_assoc, List.singleton_append]

/-! ## The answer of the service -/

private theorem listing_named {blocked : Bool} {s s' : Store} (hs : s.held = false)
    {rows : List Domain} (h : s.exec (DomainManager.listing blocked) = some (.ok rows, s')) :
    ∀ d ∈ rows, d.listName.isSome = true := by
  have hjoin {on : DomainListRow → Bool} {d : Domain} (hd : d ∈ s.conn.view.joinLists on) :
      d.listName.isSome = true := by
    obtain ⟨l, _, _, _, hrow⟩ := Db.mem_joinLists.mp hd
    rw [hrow]
    rfl
  intro d hd
  cases blocked with
  | true =>
    obtain ⟨rows', s'', hrun, hcollected⟩ := Store.exec_collect s .getBlockedDomains hs
    cases hrun.symm.trans h
    exact hjoin (Db.mem_orderByName.mp (hcollected.subset d hd))
  | false =>
    obtain ⟨rows', s'', hrun, hcollected⟩ := Store.exec_collect s .getAllWhitelistedDomains hs
    cases hrun.symm.trans h
    exact hjoin (hcollected.subset d hd)

def domainsAnswer (rows : List Domain) : Json :=
  ServiceConnection.accepted (.array (rows.map Domain.toJson))

theorem exec_handleGetDomains (env : Env) (s : Store) (blocked : Bool) :
    s.exec (ServiceConnection.handleGetDomains env (Session.domainsRequest blocked).params) =
      (s.exec (DomainManager.listing blocked)).map fun x =>
        (x.1.map fun rows => { response := .array (rows.map Domain.toJson) }, x.2) := by
  have hprog : ServiceConnection.handleGetDomains env (Session.domainsRequest blocked).params =
      DomainManager.listing blocked >>= fun rows =>
        pure { response := .array (rows.map Domain.toJson) } := by
    cases blocked <;> rfl
  rw [hprog, Store.exec_bind]
  cases s.exec (DomainManager.listing blocked) with
  | none => rfl
  | some x =>
    obtain ⟨r, s'⟩ := x
    cases r <;> rfl

variable {env : Env} {config : Config} {turn : Turn} {peers : Peers} {conn : ServiceConnection}

private theorem answers_getDomains (hconn : Serves env config turn peers conn) {blocked : Bool}
    {rows : List Domain} {s' : Store}
    (hrows : ((turn.arrival env config peers.service).store turn.ambient).exec
      (DomainManager.listing blocked) = some (.ok rows, s'))
    (hreq : env.Conveys (Session.domainsRequest blocked).payload) :
    ∃ w', Answers env config turn (Session.domainsRequest blocked) peers
      (if conn.isAuthenticated = true then domainsAnswer rows
        else ServiceConnection.failure "Not authenticated" []) w' := by
  let w := turn.arrival env config peers.service
  have hlower : ServiceConnection.toLower (Session.domainsRequest blocked).cmd = "get_domains" := by
    change ServiceConnection.toLower "get_domains" = "get_domains"
    decide
  have hparse := parseRequest_payload hreq hlower
  cases hauth : conn.isAuthenticated with
  | true =>
    have hroute : ServiceConnection.route env turn.status conn "get_domains" =
        .handle (ServiceConnection.handleGetDomains env) := by
      simp [ServiceConnection.route, hauth, ServiceConnection.handlers]
    have hrun : (w.store turn.ambient).exec (ServiceConnection.dispatch env turn.status conn
        "get_domains" (Session.domainsRequest blocked).params) = _ :=
      ServiceConnection.exec_dispatch_handle _ env turn.status conn hroute
    rw [exec_handleGetDomains, hrows] at hrun
    exact ⟨_, step_accepted hconn hparse hrun⟩
  | false =>
    have hroute : ServiceConnection.route env turn.status conn "get_domains" = .refused := by
      simp [ServiceConnection.route, hauth]
    have hrun : (w.store turn.ambient).exec (ServiceConnection.dispatch env turn.status conn
        "get_domains" (Session.domainsRequest blocked).params) =
          some (.error (.service "Not authenticated" []), w.store turn.ambient) := by
      rw [ServiceConnection.dispatch, hroute]
      rfl
    exact ⟨_, step_refused hconn hparse hrun⟩

def domainsMessages (blocked : Bool) (rows : List Domain) : List Json :=
  [(Session.domainsRequest blocked).payload, domainsAnswer rows,
    ServiceConnection.failure "Not authenticated" []]

/-! ## The two functions -/

private theorem start_execute_closed (env : Env) (config : Config) {turn : Turn} {peers : Peers}
    (hclosed : (turn.arrival env config peers.service).connections[peers.session.connection]? = none)
    (req : ServiceRequest) :
    (Session.execute env config turn req).start peers =
      (.error (.runtime "Read failed (connection closed)"),
        { peers with service := turn.arrival env config peers.service }) := by
  have hstep : step env config
      (.request peers.session.connection (env.styled req.payload) turn.status turn.ambient)
      (turn.arrival env config peers.service) =
        (none, turn.arrival env config peers.service) := by
    simp only [step, hclosed]
  unfold Code.start Session.execute
  rw [ExceptT.run_mk, StateT.run]
  dsimp only
  rw [hstep]

private theorem start_getDomains_refused (resolves : String → Bool) {blocked : Bool} {w' : Service}
    (hanswer : Answers env config turn (Session.domainsRequest blocked) peers
      (ServiceConnection.failure "Not authenticated" []) w')
    (h : env.Conveys (ServiceConnection.failure "Not authenticated" [])) (v : List Domain) :
    ((Session.getDomains env config resolves turn [] blocked).start peers).1 ≠ .ok (true, v) := by
  intro hreturn
  obtain ⟨response, hrun, hok, _⟩ := start_execute hanswer h false rfl fun _ => ⟨_, rfl⟩
  rw [Session.getDomains, start_bind, hrun] at hreturn
  dsimp only at hreturn
  rw [start_bind, start_setError, if_neg (by rw [hok]; decide)] at hreturn
  cases hreturn

private theorem start_getDomains_accepted (resolves : String → Bool) {blocked : Bool}
    {rows : List Domain} {w' : Service}
    (hanswer : Answers env config turn (Session.domainsRequest blocked) peers
      (domainsAnswer rows) w') (h : env.Conveys (domainsAnswer rows)) {v : List Domain}
    (hreturn : ((Session.getDomains env config resolves turn [] blocked).start peers).1 =
      .ok (true, v)) :
    Session.pushDomains env resolves (Json.array (rows.map Domain.toJson)).items [] = .ok v := by
  obtain ⟨response, hrun, hok, hget⟩ := start_execute hanswer h true rfl (by simp)
  have hdata : env.get response.data "data" = .ok (.array (rows.map Domain.toJson)) := by
    rw [Env.get, hget]
    rfl
  rw [Session.getDomains, start_bind, hrun] at hreturn
  dsimp only at hreturn
  rw [start_bind, start_setError, if_pos hok] at hreturn
  dsimp only at hreturn
  rw [start_bind, start_orThrow _ hdata] at hreturn
  dsimp only at hreturn
  rw [start_bind] at hreturn
  cases hpush : Session.pushDomains env resolves (Json.array (rows.map Domain.toJson)).items [] with
  | error e =>
    rw [hpush] at hreturn
    cases hreturn
  | ok lst =>
    rw [start_orThrow _ hpush] at hreturn
    cases hreturn
    rfl

/-- When the call returns true the vector holds the records of the listing with the names that
do not resolve on the client left out: it is the listing exactly when every name resolves or is
empty. -/
theorem getDomains_eq_iff (env : Env) (config : Config) (resolves : String → Bool) (turn : Turn)
    (session : Session) (w : Service) (blocked : Bool) {rows : List Domain} {s' : Store}
    (hrows : ((turn.arrival env config w).store turn.ambient).exec
      (DomainManager.listing blocked) = some (.ok rows, s'))
    (hmessages : ∀ m ∈ domainsMessages blocked rows, env.Conveys m) {v : List Domain}
    (hreturn : ((Session.getDomains env config resolves turn [] blocked).start ⟨session, w⟩).1 =
      .ok (true, v)) :
    v = rows ↔ ∀ d ∈ rows, resolves d.name = true ∨ d.name = "" := by
  simp only [domainsMessages, List.forall_mem_cons] at hmessages
  obtain ⟨hreq, haccepted, hrefused, _⟩ := hmessages
  have hv : v = rows.map (received resolves) := by
    cases hconn : (turn.arrival env config w).connections[session.connection]? with
    | none =>
      rw [Session.getDomains, start_bind, start_execute_closed env config hconn] at hreturn
      cases hreturn
    | some conn =>
      let peers : Peers := ⟨session, w⟩
      have hserves : Serves env config turn peers conn := hconn
      obtain ⟨w', hanswer⟩ := answers_getDomains hserves hrows hreq
      cases hauth : conn.isAuthenticated with
      | true =>
        rw [hauth, if_pos rfl] at hanswer
        have hpush := start_getDomains_accepted resolves hanswer haccepted hreturn
        have hall := pushDomains_toJson env
          (listing_named (Service.store_held turn.ambient) hrows) hpush
        rwa [List.nil_append] at hall
      | false =>
        rw [hauth, if_neg Bool.false_ne_true] at hanswer
        exact absurd hreturn (start_getDomains_refused resolves hanswer hrefused v)
  rw [hv]
  exact map_received_eq_iff

def adsDomain : Domain := { name := "ads.example", listId := 1, listName := some "CUSTOM" }

def adsService : Service :=
  { db := ⟨Db.seeded.replaceDomain "ads.example" 1 (by decide), none⟩
    connections := [⟨⟨Uuid.zero⟩, true⟩] }

def adsMessages : Env := .documents (domainsMessages true [adsDomain])

private theorem adsMessages_conveyed :
    ∀ m ∈ domainsMessages true [adsDomain], adsMessages.Conveys m :=
  Env.conveys_documents (by decide +kernel) (by decide +kernel)

/-- On the client every name resolves. -/
theorem getDomains_resolved :
    ∃ v rows, ((Session.getDomains adsMessages {} (fun _ => true) {} [] true).start
        ⟨⟨0, ""⟩, adsService⟩).1 = .ok (true, v) ∧
      (((({} : Turn).arrival adsMessages {} adsService).store {}).exec
        (DomainManager.listing true)) = some (.ok rows, adsService.store {}) ∧ v = rows := by
  have hreturn : ((Session.getDomains adsMessages {} (fun _ => true) {} [] true).start
      ⟨⟨0, ""⟩, adsService⟩).1 = .ok (true, [adsDomain]) := by decide +kernel
  have hrows : (((({} : Turn).arrival adsMessages {} adsService).store {}).exec
      (DomainManager.listing true)) = some (.ok [adsDomain], adsService.store {}) := rfl
  exact ⟨_, _, hreturn, hrows, (getDomains_eq_iff adsMessages {} (fun _ => true) {} ⟨0, ""⟩
    adsService true hrows adsMessages_conveyed hreturn).mpr (by simp)⟩

/-- On the client no name resolves: the record arrives without its name. -/
theorem getDomains_unresolved :
    ((Session.getDomains adsMessages {} (fun _ => false) {} [] true).start
        ⟨⟨0, ""⟩, adsService⟩).1 = .ok (true, [{ adsDomain with name := "" }]) ∧
      (Store.free adsService.db).exec DomainManager.getBlocked =
        some (.ok [adsDomain], Store.free adsService.db) := by
  constructor <;> decide +kernel

end Dblclient

end DblService
