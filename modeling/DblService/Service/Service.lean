import DblService.Framework.Run
import DblService.Service.ServiceConnection

/-!
# The service

Any number of connections on one database: each is opened and then sends requests, in
any order.  Every event comes with its own surroundings, so the database can be found
busy at any statement.
-/

namespace DblService

open Framework Session

/-- What the requests of the connections can change; `stopped` records that the service was
told to stop, or ended by a null pointer. -/
structure Service where
  db : Connection
  connections : List ServiceConnection := []
  stopped : Bool := false

inductive Event
  | opened (uuid : Uuid) (ambient : Ambient)
  | request (i : Nat) (text : String) (status : Status) (ambient : Ambient)

namespace Service

def fresh : Service := { db := ⟨Db.seeded, none⟩ }

def store (w : Service) (ambient : Ambient) : Store := { conn := w.db, ambient }

/-- What is written to the socket, and the service afterwards. -/
def step (env : Env) (config : Config) : Event → Service → Option String × Service
  | .opened uuid ambient, w =>
    match (w.store ambient).exec (ServiceConnection.create env ⟨uuid⟩) with
    | some (.ok conn, s) =>
      (none, { w with db := s.conn, connections := w.connections ++ [conn] })
    | some (.error _, s) => (none, { w with db := s.conn })
    | none => (none, w)
  | .request i text status ambient, w =>
    match w.connections[i]? with
    | none => (none, w)
    | some conn =>
      match (w.store ambient).exec (ServiceConnection.read env config status conn text) with
      | some (.ok served, s) =>
        (some served.text,
          { db := s.conn
            connections := w.connections.set i served.conn
            stopped := w.stopped || served.stop })
      | some (.error _, s) => (none, { w with db := s.conn, stopped := true })
      | none => (none, w)

variable {env : Env} {config : Config} {w : Service}

theorem store_held (ambient : Ambient) : (w.store ambient).held = false := rfl

theorem step_opened {uuid : Uuid} {ambient : Ambient} :
    step env config (.opened uuid ambient) w =
      (none, { w with connections := w.connections ++
        [⟨⟨uuid⟩, ambient.faulty || Auth.accepts env ⟨uuid⟩ w.db.view.password ""⟩] }) := by
  have hcreate := ServiceConnection.exec_create (w.store ambient) env ⟨uuid⟩ rfl
  have hambient : (w.store ambient).ambient = ambient := rfl
  rw [step, hcreate, hambient]
  cases ambient.faulty <;> rfl

/-- The request of a connection that is there. -/
theorem step_request {i : Nat} {text : String} {status : Status} {ambient : Ambient}
    {conn : ServiceConnection} (hi : w.connections[i]? = some conn)
    {r : Except Exc ServiceConnection.Processed} {s : Store}
    (hrun : (w.store ambient).exec (ServiceConnection.processRequest env status conn text) =
      some (r, s)) :
    step env config (.request i text status ambient) w =
      match ServiceConnection.served env config conn r with
      | .ok served =>
        (some served.text,
          { db := s.conn
            connections := w.connections.set i served.conn
            stopped := w.stopped || served.stop })
      | .error _ => (none, { w with db := s.conn, stopped := true }) := by
  simp only [step, hi, ServiceConnection.exec_read, hrun, Option.map_some]
  cases ServiceConnection.served env config conn r <;> rfl

section
variable {i : Nat} {text cmd : String} {data : Json} {status : Status} {ambient : Ambient}
  {conn : ServiceConnection} {s : Store}

/-- A request whose dispatch ends. -/
theorem step_accepted (hi : w.connections[i]? = some conn)
    (hparse : ServiceConnection.parseRequest env text = .ok (cmd, data))
    {handled : Handled} {conn' : ServiceConnection}
    (hrun : (w.store ambient).exec (ServiceConnection.dispatch env status conn cmd data) =
      some (.ok (handled, conn'), s)) :
    step env config (.request i text status ambient) w =
      (some (env.styled (ServiceConnection.accepted handled.response) ++ "\r\n"),
        { db := s.conn
          connections := w.connections.set i conn'
          stopped := w.stopped || handled.stop }) := by
  have hprocess := ServiceConnection.exec_processRequest (w.store ambient) env status conn hparse
  rw [hrun] at hprocess
  rw [step_request hi hprocess]
  rfl

/-- A request whose dispatch throws a `ServiceOperationError`. -/
theorem step_refused (hi : w.connections[i]? = some conn)
    (hparse : ServiceConnection.parseRequest env text = .ok (cmd, data))
    {what : String} {errors : List String}
    (hrun : (w.store ambient).exec (ServiceConnection.dispatch env status conn cmd data) =
      some (.error (.service what errors), s)) :
    step env config (.request i text status ambient) w =
      (some (env.styled (ServiceConnection.failure what errors) ++ "\r\n"),
        { w with db := s.conn }) := by
  have hprocess := ServiceConnection.exec_processRequest (w.store ambient) env status conn hparse
  rw [hrun] at hprocess
  rw [step_request hi hprocess]
  obtain ⟨hlt, hget⟩ := List.getElem?_eq_some_iff.mp hi
  have hsame : w.connections.set i conn = w.connections := by rw [← hget, List.set_getElem_self]
  have hserved : ServiceConnection.served env config conn
      (ServiceConnection.answered env conn (.error (.service what errors))) =
        .ok { text := env.styled (ServiceConnection.failure what errors) ++ "\r\n", conn } := rfl
  simp only [hserved, hsame, Bool.or_false]

end

/-- A request changes only its own connection. -/
theorem step_request_becomes (env : Env) (config : Config) {i : Nat} {text : String}
    {status : Status} {ambient : Ambient} {conn : ServiceConnection} (hi : w.connections[i]? = some conn)
    {r : Except Exc ServiceConnection.Processed} {s : Store}
    (hrun : (w.store ambient).exec (ServiceConnection.processRequest env status conn text) =
      some (r, s)) :
    ∃ conn', (step env config (.request i text status ambient) w).2.connections =
      w.connections.set i conn' ∧
        ServiceConnection.Becomes env (w.store ambient) s conn text conn' := by
  obtain ⟨hlt, hget⟩ := List.getElem?_eq_some_iff.mp hi
  have hsame : w.connections = w.connections.set i conn := by
    rw [← hget, List.set_getElem_self]
  rw [step_request hi hrun]
  cases hserved : ServiceConnection.served env config conn r with
  | error e => exact ⟨conn, hsame, Or.inl rfl⟩
  | ok served =>
    refine ⟨served.conn, rfl, ?_⟩
    cases r with
    | error e => exact Or.inl (ServiceConnection.served_error hserved).1
    | ok p =>
      cases hserved
      exact ServiceConnection.processRequest_becomes _ env status conn hrun

/-- The connection is the same one: its token stays, and it is not logged out. -/
structure Continues (conn conn' : ServiceConnection) : Prop where
  auth : conn'.auth = conn.auth
  authenticated : conn.isAuthenticated = true → conn'.isAuthenticated = true

theorem Continues.refl (conn : ServiceConnection) : Continues conn conn := ⟨rfl, id⟩

theorem Continues.trans {a b c : ServiceConnection} (h : Continues a b) (h' : Continues b c) :
    Continues a c := ⟨h'.auth.trans h.auth, h'.authenticated ∘ h.authenticated⟩

theorem step_connection (env : Env) (config : Config) (e : Event) {i : Nat}
    {conn : ServiceConnection} (hi : w.connections[i]? = some conn) :
    ∃ conn', (step env config e w).2.connections[i]? = some conn' ∧ Continues conn conn' := by
  obtain ⟨hlt, hget⟩ := List.getElem?_eq_some_iff.mp hi
  cases e with
  | opened uuid ambient =>
    rw [step_opened]
    exact ⟨conn, by rw [List.getElem?_append_left hlt, hi], .refl conn⟩
  | request j text status ambient =>
    cases hj : w.connections[j]? with
    | none => exact ⟨conn, by simpa only [step, hj] using hi, .refl conn⟩
    | some other =>
    cases hrun : (w.store ambient).exec
        (ServiceConnection.processRequest env status other text) with
    | none =>
      refine ⟨conn, ?_, .refl conn⟩
      simpa only [step, hj, ServiceConnection.exec_read, hrun, Option.map_none] using hi
    | some x =>
      obtain ⟨other', hconnections, hbecomes⟩ := step_request_becomes env config hj hrun
      rw [hconnections, List.getElem?_set]
      by_cases hij : j = i
      · subst hij
        rw [hi, Option.some.injEq] at hj
        subst hj
        rw [if_pos rfl, if_pos hlt]
        refine ⟨other', rfl, ?_⟩
        rcases hbecomes with rfl | ⟨rfl, _⟩
        · exact .refl _
        · exact ⟨rfl, fun _ => rfl⟩
      · rw [if_neg hij]
        exact ⟨conn, hi, .refl conn⟩

theorem run_connection (env : Env) (config : Config) (es : List Event) {i : Nat}
    {conn : ServiceConnection} (hi : w.connections[i]? = some conn) :
    ∃ conn', (runEvents (step env config) es w).2.connections[i]? = some conn' ∧
      Continues conn conn' := by
  induction es generalizing w conn with
  | nil => exact ⟨conn, hi, .refl conn⟩
  | cons e es ih =>
    obtain ⟨conn₁, hi₁, hfirst⟩ := step_connection env config e hi
    obtain ⟨conn', hi', hrest⟩ := ih hi₁
    exact ⟨conn', hi', hfirst.trans hrest⟩

def password (w : Service) : Option String := w.db.view.setting "service_password"

/-- The event is a request to set or remove the password that is executed and leaves another
one. -/
def ChangesPassword (env : Env) (config : Config) : Event → Service → Prop
  | .opened _ _, _ => False
  | .request i text status ambient, w => ∃ conn cmd data, w.connections[i]? = some conn ∧
    ServiceConnection.parseRequest env text = .ok (cmd, data) ∧ conn.WritesSettings cmd ∧
    (step env config (.request i text status ambient) w).2.password ≠ w.password

theorem step_password {e : Event} (h : ¬ ChangesPassword env config e w) :
    (step env config e w).2.password = w.password := by
  cases e with
  | opened uuid ambient => rw [step_opened]; rfl
  | request i text status ambient =>
    cases hi : w.connections[i]? with
    | none => simp only [step, hi]
    | some conn =>
    by_cases hwrites : ∀ cmd data, ServiceConnection.parseRequest env text = .ok (cmd, data) →
        ¬ conn.WritesSettings cmd
    · have hJ (stmts : List Stmt) (hstmts : ∀ st ∈ stmts, st.writesSettings = false) :
          Store.Preserves (Connection.Views fun db => db.settings = w.db.view.settings) stmts :=
        Store.preserves_views fun st hst now db db' hdb hrun =>
          (Stmt.run_settings (hstmts st hst) hrun).trans hdb
      have hkeeps := ServiceConnection.keeps_processRequest (A := fun _ => True) env status conn
        hJ hwrites
      obtain ⟨r, s', hrun, hholds⟩ := hkeeps (w.store ambient) ⟨rfl, rfl, fun _ _ => trivial⟩
      have hsame : s'.conn.view.setting "service_password" = w.password := by
        simp only [password, Db.setting, show s'.conn.view.settings = _ from hholds.conn]
      rw [step_request hi hrun]
      cases ServiceConnection.served env config conn r <;> exact hsame
    · push Not at hwrites
      obtain ⟨cmd, data, hparse, hwrites⟩ := hwrites
      by_contra hne
      exact h ⟨conn, cmd, data, hi, hparse, hwrites, hne⟩

/-- A run in which no event changes the password leaves it. -/
theorem run_password {es : List Event}
    (h : Along (step env config) (fun e w => ¬ ChangesPassword env config e w) es w) :
    (runEvents (step env config) es w).2.password = w.password :=
  Along.invariant (I := fun w' => w'.password = w.password)
    (fun _ _ hw hstep => (step_password hstep).trans hw) h rfl

end Service

end DblService
