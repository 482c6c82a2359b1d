import DblService.Service.Service

/-!
# Who may do what

A service with any number of connections, each opened and then sending requests.  A
connection gets at the handlers only after a moment of its own at which no password
was stored or it presented the right hash.
-/

namespace DblService

open Framework Session

/-! ## One query for the password -/

/-- With the password `p` stored only the hash of `p` and the token is accepted, and a new
connection is not authenticated. -/
structure FailsClosed (env : Env) (a : Auth) (p : String) (s : Store) : Prop where
  auth : ∀ hash s', s.exec (a.auth env hash) = some (.ok true, s') →
    hash = env.md5 (p ++ a.token)
  create : ∀ conn s', s.exec (ServiceConnection.create env a) = some (.ok conn, s') →
    conn.isAuthenticated = false

/-- Authentication fails closed exactly when the query for the password does not raise. -/
theorem auth_failsClosed_iff (env : Env) (a : Auth) (c : Connection) (ambient : Ambient)
    (p : String) (hp : c.view.setting "service_password" = some p) (hne : p ≠ "") :
    FailsClosed env a p { conn := c, ambient } ↔ ambient.faulty = false := by
  let s : Store := { conn := c, ambient }
  have hauth (hash : String) := Store.exec_auth s env a hash rfl
  have hcreate := ServiceConnection.exec_create s env a rfl
  have hpassword : c.view.password = p := Db.password_eq hp
  cases hf : ambient.faulty with
  | true =>
    refine iff_of_false ?_ nofun
    intro h
    have haccepted : s.exec (a.auth env "") = some (.ok true, s.afterRaise s.conn 1) := by
      rw [hauth, if_pos hf]
    exact env.md5_ne_empty _ (h.auth "" _ haccepted).symm
  | false =>
    refine iff_of_true ⟨?_, ?_⟩ rfl
    · intro hash s' h
      rw [hauth, if_neg (Bool.eq_false_iff.mp hf)] at h
      simp only [Option.some.injEq, Prod.mk.injEq, Except.ok.injEq] at h
      rw [hpassword] at h
      exact (Auth.accepts_iff.mp h.1).resolve_left hne
    · intro conn s' h
      rw [hcreate, if_neg (Bool.eq_false_iff.mp hf)] at h
      simp only [Option.some.injEq, Prod.mk.injEq, Except.ok.injEq] at h
      rw [hpassword] at h
      rw [← h.1]
      apply Bool.eq_false_iff.mpr
      intro haccepts
      rcases Auth.accepts_iff.mp haccepts with hempty | hmd5
      · exact hne hempty
      · exact env.md5_ne_empty _ hmd5.symm

def Db.secured : Db :=
  { Db.seeded with
    settings := [⟨"service_password", "5f4dcc3b5aa765d61d8327deb882cf99"⟩]
    settings_unique := List.nodup_singleton _ }

/-- A query that succeeds. -/
theorem auth_failsClosed_secured :
    FailsClosed (.ofTexts []) ⟨.zero⟩ "5f4dcc3b5aa765d61d8327deb882cf99"
      { conn := ⟨Db.secured, none⟩ } :=
  (auth_failsClosed_iff (.ofTexts []) ⟨.zero⟩ ⟨Db.secured, none⟩ {} _ (by decide)
    (by decide)).mpr rfl

/-- A query that raises lets every hash in. -/
theorem auth_busy_accepts :
    Db.secured.setting "service_password" = some "5f4dcc3b5aa765d61d8327deb882cf99" ∧
      ¬ FailsClosed (.ofTexts []) ⟨.zero⟩ "5f4dcc3b5aa765d61d8327deb882cf99"
        { conn := ⟨Db.secured, none⟩, ambient := { faults := [true] } } := by
  refine ⟨by decide, ?_⟩
  intro h
  exact (Env.ofTexts []).md5_ne_empty _ (h.auth "" _ rfl).symm

/-! ## What a request does to the settings -/

/-- The settings are the same in the file and in a transaction left open, and a password that
is stored is 32 characters long. -/
structure Connection.Guarded (c : Connection) : Prop where
  agree : ∀ db, c.tx = some db → db.settings = c.file.settings
  password : ∀ p, c.file.setting "service_password" = some p → p.length = 32

namespace Connection.Guarded

variable {c c' : Connection}

private theorem view_setting (h : c.Guarded) (name : String) :
    c.view.setting name = c.file.setting name := by
  unfold Connection.view
  cases htx : c.tx with
  | none => rfl
  | some db => simp only [Option.getD_some, Db.setting, h.agree db htx]

private theorem of_both (h : c.Guarded) (hboth : c'.Both fun db => db.settings = c.file.settings) :
    c'.Guarded where
  agree db htx := (hboth.2 db htx).trans hboth.1.symm
  password p hp := by
    rw [Db.setting, hboth.1] at hp
    exact h.password p hp

end Connection.Guarded

private theorem Transacted.guarded {st : Stmt} {s s' : Store} {done : Bool}
    (h : Transacted [st] s done s') (hc : s.conn.Guarded) (hquiet : s.ambient.Quiet 3) {db : Db}
    (hrun : st.run s.ambient.now s.conn.file = .ok db)
    (hpassword : ∀ p, db.setting "service_password" = some p → p.length = 32) :
    s'.conn.Guarded := by
  cases htx : s.conn.tx with
  | some _ =>
    obtain ⟨_, rfl⟩ := h.of_open (by simp [htx])
    exact hc
  | none =>
    have hall : Stmt.runAll s.ambient.now [st] s.conn.file = .ok db := by
      rw [Stmt.runAll_cons, hrun]
      rfl
    obtain ⟨_, rfl⟩ := h.of_quiet htx hquiet hall
    exact ⟨nofun, hpassword⟩

namespace ServiceConnection

variable {env : Env} {status : Status} {conn : ServiceConnection} {cmd : String} {data : Json}

theorem exec_handleSetServicePassword (env : Env) (conn : ServiceConnection) {s : Store}
    (hs : s.held = false) (data : Json) :
    ∃ r s', s.exec (handleSetServicePassword env conn data) = some (r, s') ∧
      (s' = s ∨ ∃ passwdHash done, passwdHash.length = 32 ∧
        Transacted [.insertOrReplaceSetting "service_password" passwdHash] s done s') := by
  unfold handleSetServicePassword
  rw [exec_orThrow]
  cases env.get data "password_hash" with
  | error e => exact ⟨_, s, rfl, Or.inl rfl⟩
  | ok value =>
  dsimp only
  rw [exec_orThrow]
  cases env.asString value with
  | error e => exact ⟨_, s, rfl, Or.inl rfl⟩
  | ok passwordHash =>
  dsimp only
  rw [exec_orThrow]
  cases env.get data "token_hash" with
  | error e => exact ⟨_, s, rfl, Or.inl rfl⟩
  | ok value =>
  dsimp only
  rw [exec_orThrow]
  cases env.asString value with
  | error e => exact ⟨_, s, rfl, Or.inl rfl⟩
  | ok tokenHash =>
  obtain ⟨success, s', hrun, hs'⟩ := s.exec_setPassword env conn.auth passwordHash tokenHash hs
  dsimp only
  rw [Store.exec_bind, hrun]
  have hwritten : s' = s ∨ ∃ passwdHash done, passwdHash.length = 32 ∧
      Transacted [.insertOrReplaceSetting "service_password" passwdHash] s done s' := by
    rcases hs' with ⟨_, _, hsame⟩ | ⟨_, hlength, ht⟩
    · exact Or.inl hsame
    · exact Or.inr ⟨passwordHash, success, hlength, ht⟩
  cases success with
  | true => exact ⟨.ok {}, s', rfl, hwritten⟩
  | false => exact ⟨.error (.service "Could not set password" _), s', rfl, hwritten⟩

theorem exec_handleSetServicePassword_guarded {s : Store} (hs : s.held = false)
    (hc : s.conn.Guarded) (hquiet : s.ambient.Quiet 3) (data : Json) :
    ∃ r s', s.exec (handleSetServicePassword env conn data) = some (r, s') ∧ s'.conn.Guarded := by
  obtain ⟨r, s', hrun, hs'⟩ := exec_handleSetServicePassword env conn hs data
  refine ⟨r, s', hrun, ?_⟩
  rcases hs' with rfl | ⟨p, done, hlength, ht⟩
  · exact hc
  · apply ht.guarded hc hquiet rfl
    intro q hq
    simp only [Db.setting, lookup_insertOrReplace, if_true, Option.map_some,
      Option.some.injEq] at hq
    exact hq ▸ hlength

theorem exec_handleRemoveServicePassword_guarded {s : Store} (hs : s.held = false)
    (hc : s.conn.Guarded) (hquiet : s.ambient.Quiet 3) (data : Json) :
    ∃ r s', s.exec (handleRemoveServicePassword data) = some (r, s') ∧ s'.conn.Guarded := by
  obtain ⟨done, s', hrun, ht⟩ := s.exec_settingsRemove "service_password" hs
  refine ⟨.ok {}, s', ?_, ht.guarded hc hquiet rfl ?_⟩
  · change s.exec (SettingsManager.remove "service_password" >>= _) = _
    rw [Store.exec_bind, hrun]
    rfl
  · intro q hq
    obtain ⟨row, hrow, _⟩ := Option.map_eq_some_iff.mp hq
    obtain ⟨hmem, hname⟩ :=
      (lookup_eq_some_iff (UniqueKey.filter s.conn.file.settings_unique _)).mp hrow
    exact absurd hname (by simpa using List.of_mem_filter hmem)

/-- A request keeps the settings guarded; the two commands that write them need to find the
database free. -/
theorem exec_processRequest_guarded (status : Status) (conn : ServiceConnection) {s : Store}
    (hs : s.held = false) (hc : s.conn.Guarded)
    {request : String} (hquiet : ∀ cmd data, parseRequest env request = .ok (cmd, data) →
      WritesSettings conn cmd → s.ambient.Quiet 3) :
    ∃ r s', s.exec (processRequest env status conn request) = some (r, s') ∧
      s'.conn.Guarded := by
  by_cases hwrites : ∀ cmd data, parseRequest env request = .ok (cmd, data) →
      ¬ WritesSettings conn cmd
  · have hJ (stmts : List Stmt) (hstmts : ∀ st ∈ stmts, st.writesSettings = false) :
        Store.Preserves (Connection.Both fun db => db.settings = s.conn.file.settings) stmts :=
      Store.preserves_both fun st hst now db db' hdb hrun =>
        (Stmt.run_settings (hstmts st hst) hrun).trans hdb
    have hkeeps := keeps_processRequest (A := fun _ => True) env status conn hJ hwrites
    obtain ⟨r, s', hrun, hholds⟩ := hkeeps s ⟨hs, ⟨rfl, hc.agree⟩, fun _ _ => trivial⟩
    exact ⟨r, s', hrun, hc.of_both hholds.conn⟩
  · push Not at hwrites
    obtain ⟨cmd, data, hparse, hwrites⟩ := hwrites
    have hfree := hquiet cmd data hparse hwrites
    obtain ⟨handler, hroute, r, s', hrun, hguarded⟩ : ∃ handler,
        route env status conn cmd = .handle handler ∧
          ∃ r s', s.exec (handler data) = some (r, s') ∧ s'.conn.Guarded := by
      obtain ⟨hauth, rfl | rfl⟩ := hwrites
      · exact ⟨handleSetServicePassword env conn, by simp [route, hauth, handlers],
          exec_handleSetServicePassword_guarded hs hc hfree data⟩
      · exact ⟨handleRemoveServicePassword, by simp [route, hauth, handlers],
          exec_handleRemoveServicePassword_guarded hs hc hfree data⟩
    refine ⟨answered env conn (r.map fun handled => (handled, conn)), s', ?_, hguarded⟩
    rw [exec_processRequest s env status conn hparse,
      exec_dispatch_handle s env status conn hroute, hrun]
    rfl

end ServiceConnection

/-! ## Whole runs -/

namespace Service

variable {env : Env} {config : Config} {es : List Event} {w : Service} {i : Nat}

/-- The settings can be read and written: no statement of an event on them finds the database
busy. -/
def SettingsAvailable (env : Env) : Event → Prop
  | .opened _ ambient => ambient.Quiet 3
  | .request _ text _ ambient => ∀ cmd data,
    ServiceConnection.parseRequest env text = .ok (cmd, data) →
      cmd ∈ ["auth", "set_service_password", "remove_service_password"] → ambient.Quiet 3

/-- No password is stored, or the hash is that of the stored one with the token. -/
def Agrees (env : Env) (db : Db) (a : Auth) (hash : String) : Prop :=
  ∀ p, db.setting "service_password" = some p → hash = env.md5 (p ++ a.token)

/-- The event is a moment of connection `i` at which it may be let in: its construction, which
presents the empty hash, or an `auth` request on it. -/
inductive Admits (env : Env) (w : Service) (i : Nat) : Event → Prop
  | opened (uuid : Uuid) (ambient : Ambient) (hi : i = w.connections.length)
      (h : Agrees env w.db.file ⟨uuid⟩ "") : Admits env w i (.opened uuid ambient)
  | auth (text : String) (status : Status) (ambient : Ambient) (conn : ServiceConnection)
      (data : Json) (hash : String) (hi : w.connections[i]? = some conn)
      (hparse : ServiceConnection.parseRequest env text = .ok ("auth", data))
      (hhash : ServiceConnection.presented env data = .ok hash)
      (h : Agrees env w.db.file conn.auth hash) :
      Admits env w i (.request i text status ambient)

/-- There was such a moment in the run. -/
def Admitted (env : Env) (config : Config) (es : List Event) (i : Nat) : Prop :=
  ∃ before e after, es = before ++ e :: after ∧
    Admits env (runEvents (step env config) before fresh).2 i e

theorem Admitted.append (h : Admitted env config es i) (e : Event) :
    Admitted env config (es ++ [e]) i := by
  obtain ⟨before, e', after, rfl, hadmits⟩ := h
  exact ⟨before, e', after ++ [e], by simp, hadmits⟩

theorem Admits.admitted {e : Event} (h : Admits env (runEvents (step env config) es fresh).2 i e) :
    Admitted env config (es ++ [e]) i := ⟨es, e, [], rfl, h⟩

/-- What a run keeps: the settings are guarded, and an authenticated connection was admitted. -/
structure Ruled (env : Env) (config : Config) (es : List Event) (w : Service) : Prop where
  guarded : w.db.Guarded
  admitted : ∀ (i : Nat) conn, w.connections[i]? = some conn → conn.isAuthenticated = true →
    Admitted env config es i

private theorem agrees_of_accepts {a : Auth} {hash : String} (hw : w.db.Guarded)
    (h : a.accepts env w.db.view.password hash = true) : Agrees env w.db.file a hash := by
  intro p hp
  have hpassword : w.db.view.password = p :=
    Db.password_eq ((hw.view_setting "service_password").trans hp)
  rw [hpassword] at h
  rcases Auth.accepts_iff.mp h with hempty | hmd5
  · have hlength := hw.password p hp
    rw [hempty] at hlength
    cases hlength
  · exact hmd5

theorem step_request_admits (config : Config) {text : String} {status : Status} {ambient : Ambient}
    (hw : w.db.Guarded) (he : SettingsAvailable env (.request i text status ambient))
    {conn : ServiceConnection} (hi : w.connections[i]? = some conn) :
    ∃ w', (step env config (.request i text status ambient) w).2 = w' ∧ w'.db.Guarded ∧
      ∃ conn', w'.connections = w.connections.set i conn' ∧
        (conn' = conn ∨ Admits env w i (.request i text status ambient)) := by
  obtain ⟨r, s', hrun, hguarded⟩ :=
    ServiceConnection.exec_processRequest_guarded status conn
      (w.store_held ambient) hw fun cmd data hparse hwrites => he cmd data hparse (by
        rcases hwrites.2 with rfl | rfl <;> decide)
  obtain ⟨conn', hconnections, hbecomes⟩ := step_request_becomes env config hi hrun
  refine ⟨_, rfl, ?_, conn', hconnections, ?_⟩
  · rw [step_request hi hrun]
    cases ServiceConnection.served env config conn r <;> exact hguarded
  · rcases hbecomes with hkept | ⟨_, data, hash, hparse, hhash, haccepted⟩
    · exact Or.inl hkept
    · have hfaulty : ambient.faulty = false :=
        (Ambient.quiet_succ.mp (he "auth" data hparse (by decide))).1
      rw [Store.exec_auth _ env conn.auth hash rfl] at haccepted
      have haccepts : conn.auth.accepts env w.db.view.password hash = true := by
        simp only [store, hfaulty, Bool.false_eq_true, if_false, Option.some.injEq,
          Prod.mk.injEq, Except.ok.injEq] at haccepted
        exact haccepted.1
      exact Or.inr (.auth text status ambient conn data hash hi hparse hhash
        (agrees_of_accepts hw haccepts))

/-- One event keeps the rules. -/
theorem ruled_step (e : Event) (he : SettingsAvailable env e)
    (h : Ruled env config es (runEvents (step env config) es fresh).2) :
    Ruled env config (es ++ [e]) (step env config e (runEvents (step env config) es fresh).2).2 := by
  generalize hw : (runEvents (step env config) es fresh).2 = w at h ⊢
  cases e with
  | opened uuid ambient =>
    have hfaulty : ambient.faulty = false := (Ambient.quiet_succ.mp he).1
    rw [step_opened, hfaulty, Bool.false_or]
    refine ⟨h.guarded, ?_⟩
    intro i conn hi hauth
    dsimp only at hi
    rw [List.getElem?_append] at hi
    split_ifs at hi with hlt
    · exact (h.admitted i conn hi hauth).append _
    · obtain ⟨hlast, hconn⟩ := List.getElem?_eq_some_iff.mp hi
      simp only [List.length_singleton, Nat.lt_one_iff] at hlast
      simp only [hlast, List.getElem_singleton] at hconn
      subst hconn
      subst hw
      exact (Admits.opened uuid ambient (by omega) (agrees_of_accepts h.guarded hauth)).admitted
  | request i text status ambient =>
    cases hi : w.connections[i]? with
    | none =>
      have hnone : step env config (.request i text status ambient) w = (none, w) := by
        simp only [step, hi]
      rw [hnone]
      exact ⟨h.guarded, fun j conn hj hauth => (h.admitted j conn hj hauth).append _⟩
    | some conn =>
      obtain ⟨w', hstep, hguarded, conn', hconnections, hconn⟩ :=
        step_request_admits config h.guarded he hi
      rw [hstep]
      refine ⟨hguarded, ?_⟩
      intro j c hj hauth
      rw [hconnections, List.getElem?_set] at hj
      split_ifs at hj with hij hlt
      · subst hij
        cases hj
        rcases hconn with rfl | hadmits
        · exact (h.admitted i _ hi hauth).append _
        · subst hw
          exact hadmits.admitted
      · exact (h.admitted j c hj hauth).append _

private theorem ruled_fresh : Ruled env config [] fresh where
  guarded := by
    refine ⟨nofun, ?_⟩
    intro p hp
    have hnone : fresh.db.file.setting "service_password" = none := rfl
    rw [hnone] at hp
    cases hp
  admitted i conn hi := by cases hi

theorem ruled_run (hes : ∀ e ∈ es, SettingsAvailable env e) :
    Ruled env config es (runEvents (step env config) es fresh).2 :=
  runEvents_invariant (R := fun es w => (∀ e ∈ es, SettingsAvailable env e) → Ruled env config es w)
    (fun _ => ruled_fresh)
    (fun es e ih hes => ruled_step e (hes e (by simp))
      (ih fun x hx => hes x (List.mem_append_left _ hx)))
    es hes

def Executes (env : Env) (w : Service) (i : Nat) (text : String) (status : Status) : Prop :=
  ∃ conn cmd data handler, w.connections[i]? = some conn ∧
    ServiceConnection.parseRequest env text = .ok (cmd, data) ∧
    ServiceConnection.route env status conn cmd = .handle handler

/-- The request is answered with `success` false and changes nothing. -/
def Refuses (env : Env) (config : Config) (w : Service) (e : Event) : Prop :=
  ∃ answer : Json, answer.get "success" = .ok (.bool false) ∧
    step env config e w = (some (env.styled answer ++ "\r\n"), w)

private theorem refuses_of_not_authenticated {text cmd : String} {data : Json} {status : Status}
    {ambient : Ambient} {conn : ServiceConnection} (hi : w.connections[i]? = some conn)
    (hauth : conn.isAuthenticated = false)
    (hparse : ServiceConnection.parseRequest env text = .ok (cmd, data))
    (htoken : cmd ≠ "get_token") (hcmd : cmd ≠ "auth") :
    Refuses env config w (.request i text status ambient) := by
  have hroute : ServiceConnection.route env status conn cmd = .refused := by
    simp [ServiceConnection.route, htoken, hcmd, hauth]
  have hrun : (w.store ambient).exec (ServiceConnection.dispatch env status conn cmd data) =
      some (.error (.service "Not authenticated" []), w.store ambient) := by
    rw [ServiceConnection.dispatch, hroute]
    rfl
  exact ⟨ServiceConnection.failure "Not authenticated" [], rfl, step_refused hi hparse hrun⟩

/-- In every run from the first start in which the settings can be read and written, a command
other than `get_token` and `auth` reaches its handler only on a connection that was admitted;
on any other it is refused, and a stored password is 32 characters long. -/
theorem run_access (env : Env) (config : Config) (es : List Event)
    (hes : ∀ e ∈ es, SettingsAvailable env e) :
    let w := (runEvents (step env config) es fresh).2
    (∀ i text status, Executes env w i text status → Admitted env config es i) ∧
    (∀ i text status ambient cmd data, i < w.connections.length →
      ServiceConnection.parseRequest env text = .ok (cmd, data) →
      cmd ≠ "get_token" → cmd ≠ "auth" → ¬ Admitted env config es i →
      Refuses env config w (.request i text status ambient)) ∧
    ∀ p, w.db.file.setting "service_password" = some p → p.length = 32 := by
  intro w
  have h : Ruled env config es w := ruled_run hes
  refine ⟨?_, ?_, h.guarded.password⟩
  · rintro i text status ⟨conn, cmd, data, handler, hi, _, hroute⟩
    exact h.admitted i conn hi (ServiceConnection.route_handle hroute).1
  · intro i text status ambient cmd data hi hparse htoken hcmd hnot
    have hget := List.getElem?_eq_getElem hi
    refine refuses_of_not_authenticated hget ?_ hparse htoken hcmd
    exact Bool.eq_false_iff.mpr fun hauth => hnot (h.admitted i _ hget hauth)

/-- The password of the example, and the hash of it with the token of its connections. -/
def accessPassword : String := "5f4dcc3b5aa765d61d8327deb882cf99"

def accessHash : String := (Env.ofTexts []).md5 (accessPassword ++ Uuid.zero.text)

def accessTexts : List (String × Json) :=
  [("status", .object [("command", .string "status")]),
    ("set", .object [("command", .string "set_service_password"),
      ("data", .object [("password_hash", .string accessPassword),
        ("token_hash", .string accessHash)])]),
    ("auth", .object [("command", .string "auth"),
      ("data", .object [("hash", .string accessHash)])])]

/-- The first connection sets a password, the second one is refused, and the third one presents
the hash. -/
def accessEvents : List Event :=
  [.opened .zero {}, .request 0 "set" {} {}, .opened .zero {}, .request 1 "status" {} {},
    .opened .zero {}, .request 2 "auth" {} {}]

private theorem not_admitted_second : ¬ Admitted (.ofTexts accessTexts) {} accessEvents 1 := by
  rintro ⟨before, e, after, hes, hadmits⟩
  unfold accessEvents at hes
  rcases before with _ | ⟨_, _ | ⟨_, _ | ⟨_, _ | ⟨_, _ | ⟨_, _ | ⟨_, before⟩⟩⟩⟩⟩⟩
  case nil =>
    cases hes
    cases hadmits with
    | opened _ _ hi _ => exact absurd hi (by decide +kernel)
  case cons.nil =>
    cases hes
    cases hadmits
  case cons.cons.nil =>
    -- the second connection is opened with the empty hash, and there is a password
    cases hes
    cases hadmits with
    | opened _ _ _ h =>
      have hpassword := h accessPassword (by decide +kernel)
      exact (Env.ofTexts accessTexts).md5_ne_empty _ hpassword.symm
  case cons.cons.cons.nil =>
    cases hes
    cases hadmits with
    | auth _ _ _ _ _ _ _ hparse _ _ =>
      have hstatus : ServiceConnection.parseRequest (Env.ofTexts accessTexts) "status" =
          .ok ("status", .null) := rfl
      rw [hstatus] at hparse
      simp at hparse
  case cons.cons.cons.cons.nil =>
    cases hes
    cases hadmits with
    | opened _ _ hi _ => exact absurd hi (by decide +kernel)
  case cons.cons.cons.cons.cons.nil =>
    cases hes
    cases hadmits
  case cons.cons.cons.cons.cons.cons =>
    simp at hes

theorem run_access_password :
    let env := Env.ofTexts accessTexts
    let w := (runEvents (step env {}) accessEvents fresh).2
    Admitted env {} accessEvents 2 ∧ Refuses env {} w (.request 1 "status" {} {}) ∧
      ∃ p, w.db.file.setting "service_password" = some p ∧ p.length = 32 := by
  intro env w
  have hquiet (e : Event) (he : e ∈ accessEvents) : SettingsAvailable env e := by
    simp only [accessEvents, List.mem_cons, List.not_mem_nil, or_false] at he
    rcases he with rfl | rfl | rfl | rfl | rfl | rfl
    all_goals first
      | exact Ambient.quiet_of_no_faults rfl 3
      | exact fun _ _ _ _ => Ambient.quiet_of_no_faults rfl 3
  have hpassword : w.db.file.setting "service_password" = some accessPassword := by decide +kernel
  have hthird : w.connections[2]? = some ⟨⟨.zero⟩, true⟩ := by decide +kernel
  have hconnections : 1 < w.connections.length := by decide +kernel
  have hparse : ServiceConnection.parseRequest env "status" = .ok ("status", .null) := rfl
  have hserved : Executes env w 2 "status" {} :=
    ⟨_, "status", .null, ServiceConnection.handleStatus {}, hthird, hparse, rfl⟩
  have h := run_access env {} accessEvents hquiet
  generalize hw : (runEvents (step env {}) accessEvents fresh).2 = w' at h
  rw [show w = w' from hw] at hpassword hconnections hserved ⊢
  obtain ⟨hexecutes, hrefuses, hlength⟩ := h
  exact ⟨hexecutes 2 "status" {} hserved,
    hrefuses 1 "status" {} {} "status" .null hconnections hparse (by decide) (by decide)
      not_admitted_second,
    accessPassword, hpassword, hlength accessPassword hpassword⟩

end Service

end DblService
