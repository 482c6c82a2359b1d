import DblService.Client.Calls
import DblService.Mgmt

/-!
# The lists as clients read them

`get_domain_lists` and `get_domain_list` of the client, up to what the policy of the service
says, and a list that one client imports and another one reads.
-/

namespace DblService

open Framework

namespace Dblclient

open Service

namespace Session

variable {α : Type} (env : Env) (config : Config) (resolves : String → Bool)

/-- What the functions that read have in common: the data of an answer is decoded into an object
of the caller, which a refusal leaves alone. -/
def fetchInto (turn : Turn) (req : ServiceRequest) (decode : Json → α → Except Exc α)
    (object : α) : Code (Bool × α) := do
  let response ← execute env config turn req
  setError response
  if response.isOk then
    let data ← orThrow (env.get response.data "data")
    let object ← orThrow (decode data object)
    pure (true, object)
  else
    pure (false, object)

/-- `init_from_json`, where the names are those that resolve on the client. -/
def decodeList (data : Json) (lst : DomainList) : Except Exc DomainList :=
  let decoded := (DomainList.initFromJson { env with isValid := resolves } data).run.run lst
  decoded.1.map fun _ => decoded.2

def pushLists (data : Json) (lst : List DomainList) : Except Exc (List DomainList) :=
  data.items.foldlM (fun lst d => do
    let dl ← decodeList env resolves d {}
    pure (lst ++ [dl])) lst

def getDomainLists (turn : Turn) (lst : List DomainList) : Code (Bool × List DomainList) :=
  fetchInto env config turn { cmd := "get_domain_lists" } (pushLists env resolves) lst

def listRequest (lst : DomainList) : ServiceRequest where
  cmd := "get_domain_list"
  params := (Json.null.set "name" (.string lst.name)).set "with_domains" (.bool true)

def getDomainList (turn : Turn) (lst : DomainList) : Code (Bool × DomainList) :=
  fetchInto env config turn (listRequest lst) (decodeList env resolves) lst

end Session

/-! ## Decoding -/

/-- A record stored into an object: of the domains it adds those that resolve. -/
def stored (resolves : String → Bool) (record lst : DomainList) : DomainList :=
  { lst with
    name := record.name
    url := record.url
    description := record.description.or lst.description
    domains := lst.domains ++ (record.domains.filter fun d => resolves d.name).map fun d =>
      { name := d.name } }

private theorem decodeList_toJson (env : Env) (resolves : String → Bool) (r lst : DomainList) :
    Session.decodeList env resolves (r.toJson .null) lst = .ok (stored resolves r lst) := by
  let env : Env := { env with isValid := resolves }
  have hrun : (DomainList.initFromJson env (r.toJson .null)).run.run lst =
      (.ok (), stored resolves r lst) := by
    obtain ⟨id, name, url, description, active, custom, mtime, domains⟩ := r
    have hpush := DomainList.pushEntries_toJson env domains
    cases description with
    | none =>
      cases domains with
      | nil => exact hpush { lst with name, url }
      | cons d ds => exact hpush { lst with name, url }
    | some description =>
      cases domains with
      | nil => exact hpush { lst with name, url, description := some description }
      | cons d ds => exact hpush { lst with name, url, description := some description }
  unfold Session.decodeList
  rw [hrun]
  rfl

private theorem pushLists_toJson (env : Env) (resolves : String → Bool)
    (records lst : List DomainList) :
    Session.pushLists env resolves (.array (records.map fun record => record.toJson .null)) lst =
      .ok (lst ++ records.map fun record => stored resolves record {}) := by
  unfold Session.pushLists
  change List.foldlM _ lst (records.map _) = _
  induction records generalizing lst with
  | nil => simp [pure, Except.pure]
  | cons record records ih =>
    rw [List.map_cons, List.foldlM_cons, decodeList_toJson]
    change List.foldlM _ (lst ++ [stored resolves record {}]) _ = _
    rw [ih, List.map_cons, List.append_assoc, List.singleton_append]

/-! ## The exchange -/

variable {α : Type} {env : Env} {config : Config} {turn : Turn} {peers : Peers}
  {conn : ServiceConnection} {req : ServiceRequest} {cmd : String}

private theorem answers_handled (hconn : Serves env config turn peers conn)
    (hreq : env.Conveys req.payload) (hlower : ServiceConnection.toLower req.cmd = cmd)
    {handler : Handler}
    (hroute : ServiceConnection.route env turn.status conn cmd = .handle handler)
    {handled : Handled} {s' : Store}
    (hrun : ((turn.arrival env config peers.service).store turn.ambient).exec
      (handler req.params) = some (.ok handled, s')) :
    ∃ w', Answers env config turn req peers (ServiceConnection.accepted handled.response) w' := by
  have hdispatch : ((turn.arrival env config peers.service).store turn.ambient).exec
      (ServiceConnection.dispatch env turn.status conn cmd req.params) = _ :=
    ServiceConnection.exec_dispatch_handle _ env turn.status conn hroute
  rw [hrun] at hdispatch
  exact ⟨_, step_accepted hconn (parseRequest_payload hreq hlower) hdispatch⟩

private theorem start_fetchInto_accepted {data : Json} {w' : Service}
    (hanswer : Answers env config turn req peers (ServiceConnection.accepted data) w')
    (h : env.Conveys (ServiceConnection.accepted data)) {decode : Json → α → Except Exc α}
    {object object' : α} (hdecode : decode data object = .ok object') :
    ((Session.fetchInto env config turn req decode object).start peers).1 =
      .ok (true, object') := by
  obtain ⟨response, hrun, hok, hget⟩ := start_execute hanswer h true rfl (by simp)
  have hdata : env.get response.data "data" = .ok data := by
    rw [Env.get, hget]
    rfl
  rw [Session.fetchInto, start_bind, hrun]
  dsimp only
  rw [start_bind, start_setError, if_pos hok]
  dsimp only
  rw [start_bind, start_orThrow _ hdata]
  dsimp only
  rw [start_bind, start_orThrow _ hdecode]
  rfl

private theorem start_fetchInto_refused {what : String} {w' : Service}
    (hanswer : Answers env config turn req peers (ServiceConnection.failure what []) w')
    (h : env.Conveys (ServiceConnection.failure what [])) (decode : Json → α → Except Exc α)
    (object : α) :
    ((Session.fetchInto env config turn req decode object).start peers).1 =
      .ok (false, object) := by
  obtain ⟨response, hrun, hok, _⟩ := start_execute hanswer h false rfl fun _ => ⟨_, rfl⟩
  rw [Session.fetchInto, start_bind, hrun]
  dsimp only
  rw [start_bind, start_setError, if_neg (by rw [hok]; decide)]
  rfl

/-! ## The answers of the service -/

def record (db : Db) (name : String) : DomainList :=
  (db.listNamed name).elim {} fun l => l.exported db

theorem exec_collect_quiet {s : Store} (hs : s.IsFree) (q : Query) :
    s.exec (DblService.Session.collect q) = some (.ok (q.rows s.conn.view), s) := by
  obtain ⟨rows, s', hrun, hcollected⟩ := s.exec_collect q hs.released
  obtain ⟨rfl, rfl⟩ := hcollected.of_quiet (Ambient.quiet_of_no_faults hs.faults _)
  exact hrun.trans (by rw [Store.after_of_no_faults _ _ _ hs.faults])

theorem exec_getByName_quiet {s : Store} (hs : s.IsFree) (name : String) :
    s.exec (DomainListManager.getByName name true) =
      some (.ok (some (record s.conn.view name)), s) := by
  have hquiet : s.ambient.faulty = false := by simp [Ambient.faulty, hs.faults]
  have hafter : s.after s.conn 1 = s := Store.after_of_no_faults _ _ _ hs.faults
  have hrow : ((Query.getDomainListByName name).rows s.conn.view).head? =
      (s.conn.view.listNamed name).map DomainList.fromRow := by
    rw [Db.rows_getDomainListByName]
  rw [DomainListManager.getByName, Store.exec_catchRuntime, Store.exec_bind,
    Store.exec_queryOne s _ hs.released, hquiet, hrow, hafter, record]
  simp only [Bool.false_eq_true, if_false, Option.bind_some]
  cases hnamed : s.conn.view.listNamed name with
  | none => rfl
  | some l =>
    have hid : l.id ≠ 0 := by
      have := s.conn.view.list_id_pos l (Db.listNamed_eq_some.mp hnamed).1
      omega
    change Option.bind (s.exec (if (decide (l.id ≠ 0) && true) = true
      then DomainManager.get l.id >>= _ else _)) _ = _
    rw [decide_eq_true hid, if_pos (by rfl), Store.exec_bind, DomainManager.get,
      exec_collect_quiet hs]
    rfl

def records (db : Db) : Json :=
  .array ((db.domainLists.map DomainList.fromRow).map fun lst => lst.toJson .null)

theorem exec_handleGetDomainLists {s : Store} (hs : s.IsFree) (data : Json) :
    s.exec (ServiceConnection.handleGetDomainLists data) =
      some (.ok { response := records s.conn.view }, s) := by
  rw [ServiceConnection.handleGetDomainLists, Store.exec_bind, DomainListManager.get,
    exec_collect_quiet hs]
  rfl

theorem exec_handleGetDomainList (env : Env) {s : Store} (hs : s.IsFree) (lst : DomainList)
    (hname : lst.name ≠ "") :
    s.exec (ServiceConnection.handleGetDomainList env (Session.listRequest lst).params) =
      some (.ok { response := (record s.conn.view lst.name).toJson .null }, s) := by
  have hprog : ServiceConnection.handleGetDomainList env (Session.listRequest lst).params =
      if lst.name = "" then throw (.service "No name given." []) >>= fun _ : PUnit => _
      else DomainListManager.getByName lst.name true >>= _ := rfl
  rw [hprog, if_neg hname, Store.exec_bind, exec_getByName_quiet hs]
  rfl

/-! ## What is read of the policy -/

/-- What a client stores into `lst` of the list whose name it asked for: the columns of the list,
and in order the domains that it has, while it is switched on, and that resolve on the client. -/
def Shows (P : Policy) (resolves : String → Bool) (lst l : DomainList) : Prop :=
  match P.group lst.name with
  | some a => ∃ names : List String, names.Pairwise (· ≤ ·) ∧ names.Nodup ∧
      (∀ m, m ∈ names ↔ a.active = true ∧ P.owner m = some lst.name ∧ resolves m = true) ∧
      l = { lst with
        url := a.url
        description := some a.description
        domains := lst.domains ++ names.map fun m => { name := m } }
  | none => l = { lst with name := "", url := "", description := some "" }

private theorem getDomains_names_sorted {db : Db} {l : DomainListRow} (hl : l ∈ db.domainLists) :
    (((Query.getDomains l.id).rows db).map Domain.name).Pairwise (· ≤ ·) := by
  rw [Db.rows_getDomains hl]
  have htotal : Std.Total fun a b : Domain => a.name ≤ b.name :=
    ⟨fun a b => String.le_total a.name b.name⟩
  have htrans : IsTrans Domain fun a b => a.name ≤ b.name := ⟨fun _ _ _ => String.le_trans⟩
  exact List.pairwise_map.mpr
    (List.pairwise_insertionSort (fun a b : Domain => a.name ≤ b.name) _)

private theorem getDomains_list_names_nodup {db : Db} {l : DomainListRow}
    (hl : l ∈ db.domainLists) : (((Query.getDomains l.id).rows db).map Domain.name).Nodup := by
  rw [Db.rows_getDomains hl]
  apply ((List.perm_insertionSort _ _).map _).nodup_iff.mpr
  exact (db.joinLists_names_nodup _).sublist (List.filter_sublist.map _)

private theorem shows_stored (db : Db) (resolves : String → Bool) (lst : DomainList) :
    Shows db.policy resolves lst (stored resolves (record db lst.name) lst) := by
  unfold Shows
  rw [Db.policy_group]
  cases hnamed : db.listNamed lst.name with
  | none => simp [record, hnamed, stored]
  | some l =>
    obtain ⟨hl, hname⟩ := Db.listNamed_eq_some.mp hnamed
    refine ⟨((l.exported db).domains.map Domain.name).filter resolves,
      (getDomains_names_sorted hl).filter _, (getDomains_list_names_nodup hl).filter _, ?_, ?_⟩
    · intro m
      have howner : db.policy.owner m = some lst.name ↔ db.owner m = some l.id := by
        rw [Db.policy_owner]
        constructor
        · rintro ⟨k, hk, hkname, hm⟩
          rwa [Db.list_name_inj hk hl (hkname.trans hname.symm)] at hm
        · intro hm
          exact ⟨l, hl, hname, hm⟩
      rw [List.mem_filter, Db.mem_exported_names hl, howner, and_assoc]
      rfl
    · rw [record, hnamed]
      simp only [stored, Option.elim_some, DomainListRow.exported, DomainList.fromRow,
        DomainListRow.attributes, List.filter_map, List.map_map]
      rw [hname]
      rfl

private theorem mem_lists (db : Db) (resolves : String → Bool) (l : DomainList) :
    l ∈ (db.domainLists.map DomainList.fromRow).map (fun r => stored resolves r {}) ↔
      ∃ a, db.policy.group l.name = some a ∧
        l = { name := l.name, url := a.url, description := some a.description } := by
  simp only [List.mem_map, Db.policy_group, Option.map_eq_some_iff, Db.listNamed_eq_some]
  constructor
  · rintro ⟨_, ⟨k, hk, rfl⟩, rfl⟩
    exact ⟨_, ⟨k, ⟨hk, rfl⟩, rfl⟩, rfl⟩
  · rintro ⟨_, ⟨k, ⟨hk, hname⟩, rfl⟩, hl⟩
    refine ⟨_, ⟨k, hk, rfl⟩, ?_⟩
    rw [hl, ← hname]
    rfl

def readRequests (lst : DomainList) : List Json :=
  [({ cmd := "get_domain_lists" } : ServiceRequest).payload, (Session.listRequest lst).payload]

def readAnswers (db : Db) (lst : DomainList) : List Json :=
  [ServiceConnection.accepted (records db),
    ServiceConnection.accepted ((record db lst.name).toJson .null),
    ServiceConnection.failure "Not authenticated" []]

private theorem start_getDomainList {turn : Turn} (hconn : Serves env config turn peers conn)
    (hauth : conn.isAuthenticated = true) (hquiet : turn.ambient.faults = []) {lst : DomainList}
    (hname : lst.name ≠ "")
    (hreq : env.Conveys (Session.listRequest lst).payload)
    (hanswer : env.Conveys (ServiceConnection.accepted
      ((record (turn.arrival env config peers.service).db.view lst.name).toJson .null)))
    (resolves : String → Bool) :
    ∃ l, ((Session.getDomainList env config resolves turn lst).start peers).1 = .ok (true, l) ∧
      Shows (turn.arrival env config peers.service).db.view.policy resolves lst l := by
  let arrived := turn.arrival env config peers.service
  have hlower : ServiceConnection.toLower (Session.listRequest lst).cmd = "get_domain_list" := by
    change ServiceConnection.toLower "get_domain_list" = "get_domain_list"
    decide
  have hroute : ServiceConnection.route env turn.status conn "get_domain_list" =
      .handle (ServiceConnection.handleGetDomainList env) := by
    simp [ServiceConnection.route, hauth, ServiceConnection.handlers]
  have hfree : (arrived.store turn.ambient).IsFree := ⟨rfl, hquiet⟩
  obtain ⟨w', hanswers⟩ := answers_handled hconn hreq hlower hroute
    (exec_handleGetDomainList env hfree lst hname)
  exact ⟨_, start_fetchInto_accepted hanswers hanswer
    (decodeList_toJson env resolves (record arrived.db.view lst.name) lst),
    shows_stored arrived.db.view resolves lst⟩

/-- Whatever happened at the service before, a client whose request nothing disturbs reads the
policy of the service: every list once, with its columns, and of the list whose name it asks for
also the domains, behind those that the object has.  A name that no list has is no error, but
empties the other fields of the object.  Without authentication nothing is read. -/
theorem lists_read (env : Env) (config : Config) (resolves : String → Bool) (turn : Turn)
    (session : Session) (w : Service) (conn : ServiceConnection)
    (hconn : (turn.arrival env config w).connections[session.connection]? = some conn)
    (hquiet : turn.ambient.faults = []) (lists : List DomainList) (lst : DomainList)
    (hname : lst.name ≠ "")
    (hrequests : ∀ m ∈ readRequests lst, env.ReadAtOnce m)
    (hanswers : ∀ m ∈ readAnswers (turn.arrival env config w).db.view lst, env.WrittenAtOnce m) :
    let P := (turn.arrival env config w).db.view.policy
    let all := (Session.getDomainLists env config resolves turn lists).start ⟨session, w⟩
    let one := (Session.getDomainList env config resolves turn lst).start ⟨session, w⟩
    if conn.isAuthenticated then
      (∃ read, all.1 = .ok (true, lists ++ read) ∧ (read.map DomainList.name).Nodup ∧
        ∀ l, l ∈ read ↔ ∃ a, P.group l.name = some a ∧
          l = { name := l.name, url := a.url, description := some a.description }) ∧
      ∃ l, one.1 = .ok (true, l) ∧ Shows P resolves lst l
    else
      all.1 = .ok (false, lists) ∧ one.1 = .ok (false, lst) := by
  intro P all one
  let peers : Peers := ⟨session, w⟩
  let arrived := turn.arrival env config w
  have hserves : Serves env config turn peers conn := hconn
  simp only [readRequests, List.forall_mem_cons] at hrequests
  obtain ⟨⟨hreq, _⟩, ⟨hreqOne, _⟩, _⟩ := hrequests
  simp only [readAnswers, List.forall_mem_cons] at hanswers
  obtain ⟨⟨haccepted, _⟩, ⟨hacceptedOne, _⟩, ⟨hrefused, _⟩, _⟩ := hanswers
  have hlower : ServiceConnection.toLower "get_domain_lists" = "get_domain_lists" := by decide
  have hlowerOne : ServiceConnection.toLower "get_domain_list" = "get_domain_list" := by decide
  cases hauth : conn.isAuthenticated with
  | false =>
    rw [if_neg Bool.false_ne_true]
    exact ⟨start_fetchInto_refused
        (answers_refused hserves hreq hlower hauth (by decide) (by decide)) hrefused _ _,
      start_fetchInto_refused
        (answers_refused hserves hreqOne hlowerOne hauth (by decide) (by decide)) hrefused _ _⟩
  | true =>
    rw [if_pos rfl]
    refine ⟨?_, start_getDomainList hserves hauth hquiet hname hreqOne hacceptedOne resolves⟩
    have hroute : ServiceConnection.route env turn.status conn "get_domain_lists" =
        .handle ServiceConnection.handleGetDomainLists := by
      simp [ServiceConnection.route, hauth, ServiceConnection.handlers]
    have hfree : (arrived.store turn.ambient).IsFree := ⟨rfl, hquiet⟩
    obtain ⟨w', hanswers⟩ := answers_handled hserves hreq hlower hroute
      (exec_handleGetDomainLists hfree _)
    refine ⟨_, start_fetchInto_accepted hanswers haccepted
      (pushLists_toJson env resolves (arrived.db.view.domainLists.map DomainList.fromRow) lists),
      ?_, mem_lists arrived.db.view resolves⟩
    have hnames : ((arrived.db.view.domainLists.map DomainList.fromRow).map fun r =>
        stored resolves r {}).map DomainList.name =
          arrived.db.view.domainLists.map DomainListRow.name := by
      simp only [List.map_map]
      rfl
    rw [hnames]
    exact arrived.db.view.list_name_unique

/-- The list that blocks one name, on a client where it resolves. -/
theorem lists_read_ads :
    let lst : DomainList := { name := "CUSTOM" }
    let env := Env.documents (readRequests lst ++ readAnswers adsService.db.view lst)
    let resolves := fun _ : String => true
    let P := (({} : Turn).arrival env {} adsService).db.view.policy
    let all := (Session.getDomainLists env {} resolves {} []).start ⟨⟨0, ""⟩, adsService⟩
    let one := (Session.getDomainList env {} resolves {} lst).start ⟨⟨0, ""⟩, adsService⟩
    if (⟨⟨Uuid.zero⟩, true⟩ : ServiceConnection).isAuthenticated then
      (∃ read, all.1 = .ok (true, [] ++ read) ∧ (read.map DomainList.name).Nodup ∧
        ∀ l, l ∈ read ↔ ∃ a, P.group l.name = some a ∧
          l = { name := l.name, url := a.url, description := some a.description }) ∧
      ∃ l, one.1 = .ok (true, l) ∧ Shows P resolves lst l
    else
      all.1 = .ok (false, []) ∧ one.1 = .ok (false, lst) := by
  intro lst env resolves
  have hplain : ∀ m ∈ readRequests lst ++ readAnswers adsService.db.view lst, ∀ s ∈ m.written,
      '\r' ∉ s.toList := by
    decide +kernel
  have hmessages : ∀ m ∈ readRequests lst ++ readAnswers adsService.db.view lst, env.Conveys m :=
    Env.conveys_documents (by decide +kernel) fun m hm => Json.plain_document (hplain m hm)
  have hread : ∀ m ∈ readRequests lst, (env.styled m).utf8ByteSize ≤ MAX_REQUEST_SIZE := by
    decide +kernel
  have hwritten : ∀ m ∈ readAnswers adsService.db.view lst,
      (env.styled m ++ "\r\n").utf8ByteSize ≤ MAX_TRANSFER_SIZE := by
    decide +kernel
  exact lists_read env {} resolves {} ⟨0, ""⟩ adsService ⟨⟨Uuid.zero⟩, true⟩ rfl rfl [] lst
    (by decide) (fun m hm => .of_bytes (hmessages m (List.mem_append_left _ hm)) (hread m hm))
    fun m hm => .of_bytes (hmessages m (List.mem_append_right _ hm)) (hwritten m hm)

/-! ## One client imports, another one reads -/

end Dblclient

end DblService
