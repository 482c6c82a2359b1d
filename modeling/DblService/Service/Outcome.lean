import DblService.Service.Reports

/-!
# What a request ends with

The `try` of `process_request` ends as the request and the state it finds say: what is read of
the request may be refused or raise, and a manager may return a null pointer.
-/

namespace DblService

open Framework Session DomainManager DomainListManager

namespace ServiceConnection

def tryBody (env : Env) (status : Status) (conn : ServiceConnection) (request : String) :
    Code (Handled × ServiceConnection) := do
  let (cmd, data) ← orThrow (parseRequest env request)
  dispatch env status conn cmd data

theorem exec_tryBody_error {env : Env} {request : String} {e : Exc} (s : Store) (status : Status)
    (conn : ServiceConnection) (h : parseRequest env request = .error e) :
    s.exec (tryBody env status conn request) = some (.error e, s) := by
  rw [tryBody, exec_orThrow, h]

theorem exec_tryBody {env : Env} {request cmd : String} {data : Json} (s : Store) (status : Status)
    (conn : ServiceConnection) (h : parseRequest env request = .ok (cmd, data)) :
    s.exec (tryBody env status conn request) = s.exec (dispatch env status conn cmd data) := by
  rw [tryBody, exec_orThrow, h]

/-- `process_request` answers what its `try` ends with. -/
theorem exec_processRequest_eq (s : Store) (env : Env) (status : Status) (conn : ServiceConnection)
    (request : String) :
    s.exec (processRequest env status conn request) =
      (s.exec (tryBody env status conn request)).map fun x => (answered env conn x.1, x.2) := by
  cases h : parseRequest env request with
  | error e =>
    rw [exec_processRequest_error s env status conn h, exec_tryBody_error s status conn h]
    rfl
  | ok x =>
    obtain ⟨cmd, data⟩ := x
    rw [exec_processRequest s env status conn h, exec_tryBody s status conn h]

end ServiceConnection

/-! ## What is read of a request -/

/-- The commands that hand a job to a manager, in the order of `dispatch`. -/
def Command.all : List Command :=
  [.removeServicePassword, .block, .unblock, .importDomainList, .getDomainLists, .getDomainList,
    .getDomain, .getDomains]

def Command.named (cmd : String) : Option Command := all.find? fun c => c.name = cmd

private theorem Command.named_name (c : Command) : named c.name = some c := by
  cases c <;> rfl

namespace ServiceConnection

def passwordHashes (env : Env) (data : Json) : Except Exc (String × String) := do
  let passwordHash ← env.get data "password_hash"
  let passwordHash ← env.asString passwordHash
  let tokenHash ← env.get data "token_hash"
  let tokenHash ← env.asString tokenHash
  pure (passwordHash, tokenHash)

/-- All that is read of the data of a command, and the job it is read into if there is one. -/
def readData (env : Env) (conn : ServiceConnection) (cmd : String) (data : Json) :
    Except Exc (Option Job) :=
  if cmd = "get_token" then pure none
  else if cmd = "auth" then do
    let _ ← presented env data
    pure none
  else if !conn.isAuthenticated then pure none
  else if cmd = "set_service_password" then do
    let _ ← passwordHashes env data
    pure none
  else match Command.named cmd with
    | some c => do
      let job ← c.job env data
      pure (some job)
    | none => pure none

def readRequest (env : Env) (conn : ServiceConnection) (request : String) :
    Except Exc (Option Job) := do
  let (cmd, data) ← parseRequest env request
  readData env conn cmd data

theorem standard_parseRequest (env : Env) (request : String) :
    Standard (parseRequest env request) := by
  unfold parseRequest
  cases env.parseJson request with
  | none => exact .error rfl
  | some root =>
    exact (env.standard_lift _).bind fun cmd => (env.standard_lift _).bind fun cmd =>
      (env.standard_lift _).bind fun data => .ok _

private theorem standard_readData (env : Env) (conn : ServiceConnection) (cmd : String)
    (data : Json) :
    Standard (readData env conn cmd data) := by
  unfold readData
  split_ifs
  · exact .ok _
  · exact ((env.standard_lift _).bind fun _ => env.standard_lift _).bind fun _ => .ok _
  · exact .ok _
  · refine Standard.bind ?_ fun _ => .ok _
    exact (env.standard_lift _).bind fun _ => (env.standard_lift _).bind fun _ =>
      (env.standard_lift _).bind fun _ => (env.standard_lift _).bind fun _ => .ok _
  · cases Command.named cmd with
    | none => exact .ok _
    | some c => exact (c.standard_job env data).bind fun _ => .ok _

theorem standard_readRequest (env : Env) (conn : ServiceConnection) (request : String) :
    Standard (readRequest env conn request) :=
  (standard_parseRequest env request).bind fun x => standard_readData env conn x.1 x.2

end ServiceConnection

/-! ## What the managers return -/

/-- The manager returns what its handler dereferences. -/
def Job.Found (env : Env) (s : Store) : Job → Prop
  | .block domains => filterValid env domains ≠ [] → ¬ s.LosesList
  | .importList _ _ => ¬ s.LosesList
  | .getDomain _ | .getDomainList _ _ => s.ambient.faulty = false
  | _ => True

namespace Job

variable {env : Env} {s : Store}

def response (s : Store) : Job → Json
  | .getDomain name => (((Query.getDomainByName name).rows s.conn.view).head?.getD {}).toJson
  | .getDomainList name withDomains => (s.listFound name withDomains).toJson (.object [])
  | .collect q => rowsResponse q (q.readable s.conn.view s.ambient)
  | _ => .object []

/-- The handler of the job answers, or dereferences the null pointer. -/
def Ends (env : Env) (s : Store) (job : Job) : Prop :=
  ∃ r s', s.exec (job.finish env) = some (r, s') ∧
    ((job.Found env s ∧ r = .ok { response := job.response s }) ∨
      (¬ job.Found env s ∧ r = .error .nullDereference))

private theorem ends_of_writes {job : Job} (hresponse : job.response s = .object [])
    (hfinish : job.finish env = do
      let _ ← job.manage env
      pure {})
    {r : Except Exc Bool} {s' : Store} (hrun : s.exec (job.manage env) = some (r, s'))
    (hr : (job.Found env s ∧ ∃ done, r = .ok done) ∨
      (¬ job.Found env s ∧ r = .error .nullDereference)) : job.Ends env s := by
  have hexec : s.exec (job.finish env) = some (r.map fun _ => {}, s') := by
    rw [hfinish, Store.exec_bind, hrun]
    cases r <;> rfl
  refine ⟨_, s', hexec, ?_⟩
  rcases hr with ⟨hfound, done, rfl⟩ | ⟨hlost, rfl⟩
  · exact Or.inl ⟨hfound, by rw [hresponse]; rfl⟩
  · exact Or.inr ⟨hlost, rfl⟩

/-- A job that creates a list first. -/
theorem ends_of_created {job : Job} (hresponse : job.response s = .object [])
    (hfinish : job.finish env = do
      let _ ← job.manage env
      pure {})
    {r : Option Int} {s₁ : Store} {stmts : Int → List Stmt}
    (hrun : match r with
      | none => s.exec (job.manage env) = some (.error .nullDereference, s₁)
      | some id => ∃ done s', s.exec (job.manage env) = some (.ok done, s') ∧
          Transacted (stmts id) s₁ done s')
    {name url description : String} {custom : Bool}
    (hcreated : Created name url description custom s r s₁)
    (hfound : job.Found env s ↔ ¬ s.LosesList) : job.Ends env s := by
  rw [← hcreated.eq_none_iff] at hfound
  cases r with
  | none => exact ends_of_writes hresponse hfinish hrun (Or.inr ⟨by simp [hfound], rfl⟩)
  | some id =>
    obtain ⟨done, s', hrun, _⟩ := hrun
    exact ends_of_writes hresponse hfinish hrun (Or.inl ⟨by simp [hfound], done, rfl⟩)

private theorem ends_of_reads {job : Job} {α : Type} {p : Code (Option α)} (answer : α → Json)
    (hfinish : job.finish env =
      p >>= fun record =>
        record.elim (throw .nullDereference) fun a => pure { response := answer a })
    {record : Option α} {s' : Store} (hrun : s.exec p = some (.ok record, s'))
    (hfound : job.Found env s ↔ record.isSome = true)
    (hresponse : ∀ a, record = some a → job.response s = answer a) : job.Ends env s := by
  have hexec : s.exec (job.finish env) =
      some (record.elim (.error .nullDereference) fun a => .ok { response := answer a }, s') := by
    rw [hfinish, Store.exec_bind, hrun]
    cases record <;> rfl
  refine ⟨_, s', hexec, ?_⟩
  cases record with
  | none => exact Or.inr ⟨by simp [hfound], rfl⟩
  | some a => exact Or.inl ⟨by simp [hfound], by rw [hresponse a rfl]; rfl⟩

theorem ends (env : Env) (job : Job) (hs : s.held = false) : job.Ends env s := by
  cases job with
  | block domains =>
    by_cases hvalid : filterValid env domains = []
    · exact ends_of_writes rfl rfl (s.exec_blockDomains_nil env 0 hvalid)
        (Or.inl ⟨fun h => absurd hvalid h, false, rfl⟩)
    · obtain ⟨r, s₁, hcreated, hrun⟩ := s.exec_blockDomains_zero env domains hvalid hs
      exact ends_of_created rfl rfl hrun hcreated ⟨fun h => h hvalid, fun h _ => h⟩
  | unblock domains =>
    by_cases hvalid : filterValid env domains = []
    · exact ends_of_writes rfl rfl (s.exec_unblockDomains_nil env hvalid)
        (Or.inl ⟨trivial, false, rfl⟩)
    · obtain ⟨done, s', hrun, _⟩ := s.exec_unblockDomains env domains hvalid hs
      exact ends_of_writes rfl rfl hrun (Or.inl ⟨trivial, done, rfl⟩)
  | importList lst custom =>
    obtain ⟨r, s₁, hcreated, hrun⟩ := s.exec_importList lst custom hs
    exact ends_of_created rfl rfl hrun hcreated Iff.rfl
  | removePassword =>
    obtain ⟨done, s', hrun, _⟩ := s.exec_settingsRemove "service_password" hs
    exact ends_of_writes rfl rfl hrun (Or.inl ⟨trivial, done, rfl⟩)
  | getDomain name =>
    have hexec := s.exec_getDomainByName name hs
    cases hf : s.ambient.faulty with
    | true =>
      rw [hf, if_pos rfl] at hexec
      exact ends_of_reads _ (finish_getDomain env name) hexec (by simp [Found, hf]) (by simp)
    | false =>
      rw [hf, if_neg Bool.false_ne_true] at hexec
      exact ends_of_reads _ (finish_getDomain env name) hexec (by simp [Found, hf])
        fun a ha => congrArg Domain.toJson (Option.some.inj ha)
  | getDomainList name withDomains =>
    have hfinish := finish_getDomainList env name withDomains
    rcases s.exec_getListByName_cases name withDomains hs with
      ⟨hf, hexec⟩ | ⟨hf, s', hexec, _⟩
    · exact ends_of_reads _ hfinish hexec (by simp [Found, hf]) (by simp)
    · exact ends_of_reads _ hfinish hexec (by simp [Found, hf])
        fun a ha => congrArg (DomainList.toJson · (.object [])) (Option.some.inj ha)
  | collect q =>
    obtain ⟨rows, s', hrun, hc⟩ := s.exec_collect q hs
    refine ⟨.ok { response := rowsResponse q rows }, s', ?_, Or.inl ⟨trivial, ?_⟩⟩
    · rw [finish, Store.exec_bind, hrun]
      rfl
    · rw [hc.readable_eq.1]
      rfl

end Job

/-! ## What a request ends with -/

namespace ServiceConnection

/-- The commands that ask no manager. -/
def otherOutcome (status : Status) (cmd : String) : Except Exc Handled :=
  if cmd = "status" then .ok { response := status.toJson (.object []) }
  else if cmd = "get_version" then .ok { response := .string VERSION }
  else if cmd = "reload" then .ok { stop := true }
  else if cmd = "flush_dns" ∨ cmd = "delete_domain_list" then
    .error (.service "not implemented" [])
  else .error (.runtime "Unknown command")

/-- A busy database accepts every hash. -/
def authOutcome (env : Env) (conn : ServiceConnection) (s : Store) (hash : String) :
    Except Exc Handled :=
  if s.ambient.faulty || conn.auth.accepts env s.conn.view.password hash then .ok {}
  else .error (.service "Invalid auth" [])

def passwordOutcome (env : Env) (conn : ServiceConnection) (s : Store)
    (hashes : String × String) : Except Exc Handled :=
  let complaint := conn.auth.complaint env hashes.1 hashes.2
  if complaint = none ∧ s.conn.tx = none ∧ s.ambient.Quiet 3 then .ok {}
  else .error (.service "Could not set password" complaint.toList)

/-- What a command ends with, as its data, the connection and the state it finds say. -/
def outcome (env : Env) (status : Status) (conn : ServiceConnection) (cmd : String) (data : Json)
    (s : Store) : Except Exc Handled :=
  if cmd = "get_token" then
    .ok { response := (Json.object []).set "token" (.string conn.auth.token) }
  else if cmd = "auth" then presented env data >>= authOutcome env conn s
  else if !conn.isAuthenticated then .error (.service "Not authenticated" [])
  else if cmd = "set_service_password" then
    passwordHashes env data >>= passwordOutcome env conn s
  else match Command.named cmd with
    | some c => do
      let job ← c.job env data
      .ok { response := job.response s }
    | none => otherOutcome status cmd

/-- The answer to a request, as the request, the connection and the state it finds say. -/
def answer (env : Env) (status : Status) (conn : ServiceConnection) (request : String)
    (s : Store) : Json :=
  match parseRequest env request >>= fun x => outcome env status conn x.1 x.2 s with
  | .ok handled => accepted handled.response
  | .error e => failure (what env e) (details e)

end ServiceConnection

/-- What is read of a request, how it should end, and what its `try` ends with. -/
inductive Answered (env : Env) (s : Store) : Except Exc (Option Job) → Except Exc Handled →
    Except Exc (Handled × ServiceConnection) → Prop
  | unread (e : Exc) : Answered env s (.error e) (.error e) (.error e)
  | handled (asked : Option Job) (hfound : ∀ job ∈ asked, job.Found env s) (handled : Handled)
      (conn : ServiceConnection) : Answered env s (.ok asked) (.ok handled) (.ok (handled, conn))
  | refused (e : Exc) (he : e.isRuntimeError = true) :
      Answered env s (.ok none) (.error e) (.error e)
  | crashed (job : Job) (hlost : ¬ job.Found env s) (outcome : Except Exc Handled) :
      Answered env s (.ok (some job)) outcome (.error .nullDereference)

private theorem Answered.of_none {env : Env} {s : Store} (handled : Handled)
    (conn : ServiceConnection) :
    Answered env s (.ok none) (.ok handled) (.ok (handled, conn)) :=
  .handled none (by simp) handled conn

namespace ServiceConnection

variable {env : Env} {status : Status} {conn : ServiceConnection} {cmd : String}

private theorem named_eq_some {c : Command} (h : Command.named cmd = some c) : cmd = c.name := by
  unfold Command.named at h
  have hname := List.find?_some h
  exact (of_decide_eq_true hname).symm

private theorem answered_command (hauth : conn.isAuthenticated = true) (c : Command) (data : Json)
    (s : Store) (hs : s.held = false) :
    ∃ r s', s.exec (dispatch env status conn c.name data) = some (r, s') ∧
      Answered env s (c.job env data >>= fun job => pure (some job))
        (c.job env data >>= fun job => .ok { response := job.response s }) r := by
  rw [exec_dispatch_handle s env status conn (c.route_eq env status hauth), c.handler_eq,
    exec_orThrow]
  cases c.job env data with
  | error e => exact ⟨_, s, rfl, .unread e⟩
  | ok job =>
    obtain ⟨r, s', hrun, hr⟩ := job.ends env hs
    dsimp only
    rw [hrun]
    rcases hr with ⟨hfound, rfl⟩ | ⟨hlost, rfl⟩
    · exact ⟨_, s', rfl, .handled _ (by simpa using hfound) _ _⟩
    · exact ⟨_, s', rfl, .crashed job hlost _⟩

private theorem handleSetServicePassword_eq (env : Env) (conn : ServiceConnection) (data : Json) :
    handleSetServicePassword env conn data =
      orThrow (passwordHashes env data) >>= fun hashes =>
        conn.auth.setPassword env hashes.1 hashes.2 >>= fun result =>
          if !result.1 then throw (.service "Could not set password" result.2) else pure {} := by
  unfold handleSetServicePassword passwordHashes
  cases env.get data "password_hash" with
  | error e => rfl
  | ok value =>
  change orThrow (env.asString value) >>= _ = orThrow (env.asString value >>= _) >>= _
  cases env.asString value with
  | error e => rfl
  | ok passwordHash =>
  change orThrow (env.get data "token_hash") >>= _ = orThrow (env.get data "token_hash" >>= _) >>= _
  cases env.get data "token_hash" with
  | error e => rfl
  | ok value =>
  change orThrow (env.asString value) >>= _ = orThrow (env.asString value >>= _) >>= _
  cases env.asString value with
  | error e => rfl
  | ok tokenHash =>
  refine congrArg (conn.auth.setPassword env passwordHash tokenHash >>= ·) (funext ?_)
  intro result
  obtain ⟨success, errors⟩ := result
  cases success <;> rfl

private theorem answered_setServicePassword (hauth : conn.isAuthenticated = true) (data : Json)
    (s : Store) (hs : s.held = false) :
    ∃ r s', s.exec (dispatch env status conn "set_service_password" data) = some (r, s') ∧
      Answered env s (passwordHashes env data >>= fun _ => pure none)
        (passwordHashes env data >>= passwordOutcome env conn s) r := by
  have hroute : route env status conn "set_service_password" =
      .handle (handleSetServicePassword env conn) := by simp [route, handlers, hauth]
  rw [exec_dispatch_handle s env status conn hroute, handleSetServicePassword_eq, exec_orThrow]
  cases passwordHashes env data with
  | error e => exact ⟨_, s, rfl, .unread e⟩
  | ok hashes =>
    obtain ⟨done, s', hrun, hdone⟩ := s.exec_setPassword env conn.auth hashes.1 hashes.2 hs
    have hiff : done = true ↔ conn.auth.complaint env hashes.1 hashes.2 = none ∧
        s.conn.tx = none ∧ s.ambient.Quiet 3 := by
      rcases hdone with ⟨hcomplaint, hdone, _⟩ | ⟨hcomplaint, _, ht⟩
      · simp [hdone, hcomplaint]
      · rw [ht.done_iff, and_iff_right hcomplaint]
        exact and_congr_right fun _ => and_iff_left ⟨_, rfl⟩
    have hread : (Except.ok hashes >>= passwordOutcome env conn s) =
        passwordOutcome env conn s hashes := rfl
    dsimp only
    rw [hread, Store.exec_bind, hrun]
    cases done with
    | true =>
      have houtcome : passwordOutcome env conn s hashes = .ok {} := if_pos (hiff.mp rfl)
      rw [houtcome]
      exact ⟨_, s', rfl, .of_none _ _⟩
    | false =>
      have houtcome : passwordOutcome env conn s hashes =
          .error (.service "Could not set password"
            (conn.auth.complaint env hashes.1 hashes.2).toList) :=
        if_neg fun h => absurd (hiff.mpr h) Bool.false_ne_true
      rw [houtcome]
      exact ⟨_, s', rfl, .refused _ rfl⟩

private theorem answered_other (hauth : conn.isAuthenticated = true) (htoken : cmd ≠ "get_token")
    (hcmd : cmd ≠ "auth") (hset : cmd ≠ "set_service_password") (hnamed : Command.named cmd = none)
    (data : Json) (s : Store) :
    ∃ r, s.exec (dispatch env status conn cmd data) = some (r, s) ∧
      Answered env s (.ok none) (otherOutcome status cmd) r := by
  have hjob (c : Command) : cmd ≠ c.name := by
    rintro rfl
    rw [c.named_name] at hnamed
    cases hnamed
  have hroute : route env status conn cmd =
      ((handlers env status conn).find? fun h => h.1 = cmd).elim .unknown fun h => .handle h.2 := by
    unfold route
    rw [if_neg htoken, if_neg hcmd, hauth]
    cases (handlers env status conn).find? fun h => h.1 = cmd <;> rfl
  cases hfind : (handlers env status conn).find? fun h => h.1 = cmd with
  | none =>
    rw [hfind] at hroute
    have hother : otherOutcome status cmd = .error (.runtime "Unknown command") := by
      have hnone := List.find?_eq_none.mp hfind
      simp only [handlers, List.forall_mem_cons, decide_eq_true_eq] at hnone
      obtain ⟨hstatus, _, _, hflush, _, _, _, _, _, hdelete, hversion, _, _, hreload, _⟩ := hnone
      rw [otherOutcome, if_neg (Ne.symm hstatus), if_neg (Ne.symm hversion),
        if_neg (Ne.symm hreload), if_neg (not_or.mpr ⟨Ne.symm hflush, Ne.symm hdelete⟩)]
    rw [dispatch, hroute, hother]
    exact ⟨_, rfl, .refused _ rfl⟩
  | some entry =>
    obtain ⟨name, handler⟩ := entry
    rw [hfind] at hroute
    obtain ⟨_, hmem⟩ := route_handle hroute
    rw [exec_dispatch_handle s env status conn hroute]
    simp only [handlers, List.mem_cons, Prod.mk.injEq, List.not_mem_nil, or_false] at hmem
    rcases hmem with ⟨rfl, rfl⟩ | ⟨h, _⟩ | ⟨h, _⟩ | ⟨rfl, rfl⟩ | ⟨h, _⟩ | ⟨h, _⟩ | ⟨h, _⟩ |
      ⟨h, _⟩ | ⟨h, _⟩ | ⟨rfl, rfl⟩ | ⟨rfl, rfl⟩ | ⟨h, _⟩ | ⟨h, _⟩ | ⟨rfl, rfl⟩
    · exact ⟨_, rfl, .of_none _ _⟩
    · exact absurd h hset
    · exact absurd h (hjob .removeServicePassword)
    · exact ⟨_, rfl, .refused _ rfl⟩
    · exact absurd h (hjob .block)
    · exact absurd h (hjob .unblock)
    · exact absurd h (hjob .importDomainList)
    · exact absurd h (hjob .getDomainLists)
    · exact absurd h (hjob .getDomainList)
    · exact ⟨_, rfl, .refused _ rfl⟩
    · exact ⟨_, rfl, .of_none _ _⟩
    · exact absurd h (hjob .getDomain)
    · exact absurd h (hjob .getDomains)
    · exact ⟨_, rfl, .of_none _ _⟩

private theorem answered_dispatch (env : Env) (status : Status) (conn : ServiceConnection)
    (cmd : String) (data : Json) (s : Store) (hs : s.held = false) :
    ∃ r s', s.exec (dispatch env status conn cmd data) = some (r, s') ∧
      Answered env s (readData env conn cmd data) (outcome env status conn cmd data s) r := by
  unfold readData outcome
  split_ifs with htoken hauth hopen hcmd
  · subst htoken
    exact ⟨_, s, rfl, .of_none _ _⟩
  · subst hauth
    cases hhash : presented env data with
    | error e => exact ⟨_, s, exec_dispatch_auth_error s env status conn hhash, .unread e⟩
    | ok hash =>
      rw [exec_dispatch_auth s env status conn hhash, Store.exec_auth s env conn.auth hash hs]
      have hread : (Except.ok hash >>= authOutcome env conn s) = authOutcome env conn s hash := rfl
      rw [hread, authOutcome]
      cases s.ambient.faulty with
      | true => exact ⟨_, _, rfl, .of_none _ _⟩
      | false =>
        cases haccepts : conn.auth.accepts env s.conn.view.password hash with
        | true =>
          simp only [Bool.false_eq_true, if_false, Option.map_some]
          exact ⟨_, _, rfl, .of_none _ _⟩
        | false =>
          simp only [Bool.false_eq_true, if_false, Option.map_some]
          exact ⟨_, _, rfl, .refused _ rfl⟩
  · have hroute : route env status conn cmd = .refused := by simp [route, htoken, hauth, hopen]
    rw [dispatch, hroute]
    exact ⟨_, s, rfl, .refused _ rfl⟩
  · subst hcmd
    exact answered_setServicePassword (by simpa using hopen) data s hs
  · cases hnamed : Command.named cmd with
    | some c =>
      rw [named_eq_some hnamed]
      exact answered_command (by simpa using hopen) c data s hs
    | none =>
      obtain ⟨r, hrun, hr⟩ : ∃ r, s.exec (dispatch env status conn cmd data) = some (r, s) ∧
          Answered env s (.ok none) (otherOutcome status cmd) r :=
        answered_other (by simpa using hopen) htoken hauth hcmd hnamed data s
      exact ⟨r, s, hrun, hr⟩

/-- Every request ends as what was read of it says. -/
theorem answered_tryBody (env : Env) (status : Status) (conn : ServiceConnection)
    (request : String) (s : Store) (hs : s.held = false) :
    ∃ r s', s.exec (tryBody env status conn request) = some (r, s') ∧
      Answered env s (readRequest env conn request)
        (parseRequest env request >>= fun x => outcome env status conn x.1 x.2 s) r := by
  unfold readRequest
  cases hparse : parseRequest env request with
  | error e =>
    rw [exec_tryBody_error s status conn hparse]
    exact ⟨_, s, rfl, .unread e⟩
  | ok x =>
    obtain ⟨cmd, data⟩ := x
    rw [exec_tryBody s status conn hparse]
    exact answered_dispatch env status conn cmd data s hs

theorem exists_of_bind_eq_ok {α β : Type} {r : Except Exc α} {f : α → Except Exc β} {b : β}
    (h : r >>= f = .ok b) : ∃ a, r = .ok a ∧ f a = .ok b := by
  cases r with
  | error e => cases h
  | ok a => exact ⟨a, rfl, h⟩

/-- Only a reload stops the service. -/
theorem stop_of_outcome {data : Json} {s : Store} {handled : Handled}
    (h : outcome env status conn cmd data s = .ok handled) (hstop : handled.stop = true) :
    conn.isAuthenticated = true ∧ cmd = "reload" := by
  unfold outcome at h
  split_ifs at h with htoken hauth hopen hset
  · cases h
    cases hstop
  · obtain ⟨hash, _, hhash⟩ := exists_of_bind_eq_ok h
    unfold authOutcome at hhash
    split_ifs at hhash
    cases hhash
    cases hstop
  · obtain ⟨hashes, _, hhashes⟩ := exists_of_bind_eq_ok h
    simp only [passwordOutcome] at hhashes
    split_ifs at hhashes
    cases hhashes
    cases hstop
  · refine ⟨by simpa using hopen, ?_⟩
    cases hnamed : Command.named cmd with
    | some c =>
      rw [hnamed] at h
      obtain ⟨job, _, hjob⟩ := exists_of_bind_eq_ok h
      cases hjob
      cases hstop
    | none =>
      rw [hnamed] at h
      simp only [otherOutcome] at h
      split_ifs at h with _ _ hreload
      · cases h
        cases hstop
      · cases h
        cases hstop
      · exact hreload

end ServiceConnection

end DblService
