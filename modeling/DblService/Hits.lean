import DblService.Framework.Run
import DblService.HttpResponder

/-!
# Hits of the responder

The responder handles one request after the other; in between the service may be reloaded, which
makes a new `Logger` on the same database.
-/

namespace DblService

open Framework Session

namespace Logger

abbrev DomainsSeen := List (String × Bool)

/-- What `domains_seen_[domain]` reads: a name without an entry gets one that is false. -/
def DomainsSeen.at (seen : DomainsSeen) (domain : String) : Bool :=
  ((lookup Prod.fst domain seen).map Prod.snd).getD false

def DomainsSeen.touch (seen : DomainsSeen) (domain : String) : DomainsSeen :=
  insertOrIgnore Prod.fst (domain, false) seen

def hitStmts (seen : DomainsSeen) (domain : String) : List Stmt :=
  (if seen.at domain then [] else [.insertOrIgnoreStats domain]) ++ [.incrementHits domain]

/-- `log_domain_hit` of a logger that has seen these domains. -/
def logHit (seen : DomainsSeen) (domain : String) : Code Unit := do
  let _ ← committed (hitStmts seen domain)

/-- No entry is ever set. -/
def DomainsSeen.Unset (seen : DomainsSeen) : Prop := ∀ e ∈ seen, e.2 = false

theorem DomainsSeen.Unset.touch {seen : DomainsSeen} (h : seen.Unset) (domain : String) :
    (seen.touch domain).Unset := by
  intro e he
  rcases mem_insertOrIgnore.1 he with he | ⟨rfl, _⟩
  · exact h e he
  · rfl

private theorem logHit_of_unset {seen : DomainsSeen} (h : seen.Unset) (domain : String) :
    logHit seen domain = logDomainHit domain := by
  have hat : seen.at domain = false := by
    unfold DomainsSeen.at
    cases hl : lookup Prod.fst domain seen with
    | none => rfl
    | some e => exact h e (List.mem_of_find?_eq_some hl)
  rw [logHit, logDomainHit, hitStmts, hat]
  rfl

end Logger

/-! ## The statistics -/

namespace Db

def hits (db : Db) (name : String) : Int :=
  ((lookup StatsRow.name name db.statsDomains).map StatsRow.hits).getD 0

end Db

/-- The row of a name after so many hits. -/
def StatsRow.afterHits (name : String) (n : Nat) (row : Option StatsRow) : Option StatsRow :=
  if n = 0 then row else some ⟨name, (row.map StatsRow.hits).getD 0 + n⟩

private theorem StatsRow.afterHits_add (name : String) (m n : Nat) (row : Option StatsRow) :
    afterHits name n (afterHits name m row) = afterHits name (m + n) row := by
  by_cases hm : m = 0
  · simp [afterHits, hm]
  · by_cases hn : n = 0
    · simp [afterHits, hn]
    · simp [afterHits, hm, hn, Int.add_assoc]

private theorem Stmt.runAll_hit (now : Int) (domain : String) (db : Db) :
    ∃ db', Stmt.runAll now [.insertOrIgnoreStats domain, .incrementHits domain] db = .ok db' ∧
      ∀ name, lookup StatsRow.name name db'.statsDomains =
        StatsRow.afterHits name (if domain = name then 1 else 0)
          (lookup StatsRow.name name db.statsDomains) := by
  refine ⟨_, rfl, ?_⟩
  intro name
  have hname (r : StatsRow) :
      (if r.name = domain then { r with hits := r.hits + 1 } else r).name = r.name := by
    split_ifs <;> rfl
  change lookup StatsRow.name name ((insertOrIgnore StatsRow.name ⟨domain, 0⟩ _).map _) = _
  rw [lookup_map hname, lookup_insertOrIgnore, StatsRow.afterHits]
  by_cases hdomain : domain = name
  · subst hdomain
    cases hl : lookup StatsRow.name domain db.statsDomains with
    | none => simp
    | some r =>
      have hr : r.name = domain := by simpa [lookup] using List.find?_some hl
      simp [hr]
  · cases hl : lookup StatsRow.name name db.statsDomains with
    | none => simp [hdomain]
    | some r =>
      have hr : r.name = name := by simpa [lookup] using List.find?_some hl
      simp [hr, hdomain, Ne.symm hdomain]

private theorem Store.keeps_call {I : Db → Prop} {k : Call} (hk : ∀ st, k ≠ .exec st) :
    Framework.Code.Keeps handle (fun s => s.conn.Both I) (sql 0 k) := by
  apply keeps_sql
  intro st h
  exact absurd h (hk st)

private theorem Store.keeps_init (rows : List StatsRow) :
    Framework.Code.Keeps Store.handle
      (fun s => s.held = false ∧ s.conn.Both fun db => db.statsDomains = rows) DB.init := by
  have hseed (name description : String) (isWhitelist : Bool) :
      ∀ st, Call.exec (.seedDomainList name description isWhitelist) = .exec st →
        ∀ now db db', db.statsDomains = rows → st.run now db = .ok db' →
          db'.statsDomains = rows := by
    rintro st ⟨⟩ now db db' hdb hrun
    simp only [Stmt.run] at hrun
    split_ifs at hrun
    cases hrun
    exact hdb
  have hcreate : ∀ st, Call.exec .createTable = .exec st →
      ∀ now db db', db.statsDomains = rows → st.run now db = .ok db' → db'.statsDomains = rows := by
    rintro st ⟨⟩ now db db' hdb ⟨⟩
    exact hdb
  apply keeps_withSession
  apply Framework.Code.Keeps.bind (keeps_call (k := .begin) (by simp))
  intro _
  apply Framework.Code.Keeps.bind
  · apply Framework.Code.Keeps.forM
    intro st hst
    have hst : st = .createTable := by simpa using hst
    rw [hst]
    exact keeps_sql hcreate
  intro _
  apply Framework.Code.Keeps.bind (keeps_call (k := .query .countDomainLists) (by simp))
  intro total
  split_ifs
  · apply Framework.Code.Keeps.bind (keeps_sql (hseed _ _ _))
    intro _
    apply Framework.Code.Keeps.bind (keeps_sql (hseed _ _ _))
    intro _
    exact keeps_call (k := .commit) (by simp)
  · exact keeps_call (k := .commit) (by simp)

/-! ## The responder -/

inductive HitEvent
  | request (bytes : String)
  | reload  -- the loop of `main` goes round: the pool is opened again

namespace HitEvent

def domain : HitEvent → Option String
  | request bytes => let host := HTTPResponderConnection.host bytes
    if host ≠ "" then some host else none
  | reload => none

def count (name : String) (events : List (HitEvent × Ambient)) : Nat :=
  (events.filterMap fun e => e.1.domain).count name

end HitEvent

/-- The logger and the database of the running service. -/
structure Responder where
  seen : Logger.DomainsSeen := []
  conn : Connection

namespace Responder

/-- `process_request` with a logger that has seen these domains. -/
def processRequest (options : ResponderOptions) (seen : Logger.DomainsSeen) (request : String) :
    Code String := do
  let domain := HTTPResponderConnection.host request
  if domain ≠ "" then Logger.logHit seen domain
  pure (HTTPResponderConnection.answer options)

private theorem processRequest_of_unset {seen : Logger.DomainsSeen} (h : seen.Unset)
    (options : ResponderOptions) (request : String) :
    processRequest options seen request =
      HTTPResponderConnection.processRequest options request := by
  rw [processRequest, Logger.logHit_of_unset h]
  rfl

/-- The code that an event runs, and the map and the connection on which it is run. -/
def start (options : ResponderOptions) (s : Responder) : HitEvent → Code String × Responder
  | .request bytes => (processRequest options s.seen bytes, s)
  | .reload => (do DB.init; pure "", { conn := { file := s.conn.file, tx := none } })

/-- One event in its own surroundings: the number of its statements that raised, and the
responder after it. -/
def step (options : ResponderOptions) (e : HitEvent × Ambient) (s : Responder) :
    Nat × Responder :=
  let (code, s) := s.start options e.1
  match ({ conn := s.conn, ambient := { e.2 with raised := 0 } } : Store).exec code with
  | some (_, t) =>
    (t.ambient.raised,
      { seen := e.1.domain.elim s.seen s.seen.touch, conn := t.conn })
  | none => (0, s)

variable {options : ResponderOptions} {e : HitEvent × Ambient} {s : Responder}

theorem step_of_exec {code : Code String} {s₀ : Responder} {r : Except Exc String} {t : Store}
    (hstart : s.start options e.1 = (code, s₀))
    (hrun : ({ conn := s₀.conn, ambient := { e.2 with raised := 0 } } : Store).exec code =
      some (r, t)) :
    step options e s =
      (t.ambient.raised, { seen := e.1.domain.elim s₀.seen s₀.seen.touch, conn := t.conn }) := by
  rw [step, hstart]
  simp only [hrun]

/-- A request without a host touches nothing. -/
theorem step_no_host {bytes : String} {ambient : Ambient}
    (h : HTTPResponderConnection.host bytes = "") :
    step options (.request bytes, ambient) s = (0, s) := by
  have hdomain : HitEvent.domain (.request bytes) = none := if_neg (not_not.2 h)
  have hcode : processRequest options s.seen bytes =
      pure (HTTPResponderConnection.answer options) := if_neg (not_not.2 h)
  have hexec : ({ conn := s.conn, ambient := { ambient with raised := 0 } } : Store).exec
      (processRequest options s.seen bytes) =
        some (.ok (HTTPResponderConnection.answer options),
          { conn := s.conn, ambient := { ambient with raised := 0 } }) := by
    rw [hcode]
    rfl
  rw [step_of_exec (e := (.request bytes, ambient)) (s := s) rfl hexec, hdomain]
  rfl

/-- A request with a host hits its row, if none of the statements raises. -/
theorem step_host {bytes : String} {ambient : Ambient} (hseen : s.seen.Unset)
    (h : HTTPResponderConnection.host bytes ≠ "")
    (hquiet : (step options (.request bytes, ambient) s).1 = 0) :
    ∃ db', Stmt.runAll ambient.now [.insertOrIgnoreStats (HTTPResponderConnection.host bytes),
        .incrementHits (HTTPResponderConnection.host bytes)] s.conn.file = .ok db' ∧
      (step options (.request bytes, ambient) s).2 =
        ⟨s.seen.touch (HTTPResponderConnection.host bytes), ⟨db', none⟩⟩ := by
  have hdomain : HitEvent.domain (.request bytes) = some (HTTPResponderConnection.host bytes) :=
    if_pos h
  have hcode : processRequest options s.seen bytes =
      Logger.logDomainHit (HTTPResponderConnection.host bytes) >>= fun _ =>
        pure (HTTPResponderConnection.answer options) := by
    rw [processRequest_of_unset hseen, HTTPResponderConnection.processRequest_of_host h]
  obtain ⟨done, t, hrun, ht⟩ := Store.exec_committed
    { conn := s.conn, ambient := { ambient with raised := 0 } }
    [.insertOrIgnoreStats (HTTPResponderConnection.host bytes),
      .incrementHits (HTTPResponderConnection.host bytes)] rfl
  have hexec : ({ conn := s.conn, ambient := { ambient with raised := 0 } } : Store).exec
      (processRequest options s.seen bytes) =
        some (.ok (HTTPResponderConnection.answer options), t) := by
    rw [hcode, Store.exec_bind, Logger.logDomainHit, Store.exec_bind, hrun]
    rfl
  rw [step_of_exec (e := (.request bytes, ambient)) (s := s) rfl hexec, hdomain] at hquiet ⊢
  have hdone : done = true := by
    have hraised : 0 = 0 + if done = true then 0 else 1 := hquiet.symm.trans ht.raised_eq
    cases done
    · exact absurd hraised (by decide)
    · rfl
  subst hdone
  cases ht with
  | committed db hidle hfaults hrunAll => exact ⟨db, hrunAll, rfl⟩

/-- A reload leaves the statistics alone, whatever becomes of its statements. -/
theorem step_reload (ambient : Ambient) :
    (step options (.reload, ambient) s).2.seen = [] ∧
      (step options (.reload, ambient) s).2.conn.file.statsDomains = s.conn.file.statsDomains := by
  obtain ⟨r, t, hrun, _, hstats⟩ := Framework.Code.Keeps.bind
    (Store.keeps_init s.conn.file.statsDomains) (fun _ => Framework.Code.Keeps.pure "")
    { conn := { file := s.conn.file, tx := none }, ambient := { ambient with raised := 0 } }
    ⟨rfl, rfl, nofun⟩
  rw [step_of_exec (e := (.reload, ambient)) (s := s) rfl hrun]
  exact ⟨rfl, hstats.1⟩

/-- What one event does to the row of a name. -/
theorem step_row (hseen : s.seen.Unset) (hquiet : (step options e s).1 = 0) (name : String) :
    (step options e s).2.seen.Unset ∧
      lookup StatsRow.name name (step options e s).2.conn.file.statsDomains =
        StatsRow.afterHits name (HitEvent.count name [e])
          (lookup StatsRow.name name s.conn.file.statsDomains) := by
  obtain ⟨event, ambient⟩ := e
  cases event with
  | request bytes =>
    by_cases hhost : HTTPResponderConnection.host bytes = ""
    · have hcount : HitEvent.count name [(.request bytes, ambient)] = 0 := by
        simp [HitEvent.count, HitEvent.domain, hhost]
      rw [step_no_host hhost, hcount]
      exact ⟨hseen, (if_pos rfl).symm⟩
    · obtain ⟨db', hrun, hstep⟩ := step_host hseen hhost hquiet
      obtain ⟨db'', hrun', hrow⟩ := Stmt.runAll_hit ambient.now
        (HTTPResponderConnection.host bytes) s.conn.file
      rw [hrun, Except.ok.injEq] at hrun'
      have hcount : HitEvent.count name [(.request bytes, ambient)] =
          if HTTPResponderConnection.host bytes = name then 1 else 0 := by
        simp [HitEvent.count, HitEvent.domain, hhost, List.count_singleton]
      rw [hstep, hcount, hrun']
      exact ⟨hseen.touch _, hrow name⟩
  | reload =>
    have hcount : HitEvent.count name [(.reload, ambient)] = 0 := by
      simp [HitEvent.count, HitEvent.domain]
    obtain ⟨hnone, hstats⟩ := @step_reload options s ambient
    rw [hnone, hstats, hcount]
    exact ⟨nofun, (if_pos rfl).symm⟩

private theorem count_cons (name : String) (e : HitEvent × Ambient)
    (events : List (HitEvent × Ambient)) :
    HitEvent.count name (e :: events) = HitEvent.count name [e] + HitEvent.count name events := by
  have hcons : e :: events = [e] ++ events := rfl
  rw [HitEvent.count, hcons, List.filterMap_append, List.count_append]
  rfl

/-- What a run without failures does to the row of a name. -/
theorem runEvents_row {events : List (HitEvent × Ambient)} (hseen : s.seen.Unset)
    (h : Along (step options) (fun e s => (step options e s).1 = 0) events s) (name : String) :
    lookup StatsRow.name name (runEvents (step options) events s).2.conn.file.statsDomains =
      StatsRow.afterHits name (HitEvent.count name events)
        (lookup StatsRow.name name s.conn.file.statsDomains) := by
  induction events generalizing s with
  | nil => exact (if_pos rfl).symm
  | cons e events ih =>
    obtain ⟨hnext, hrow⟩ := step_row hseen h.1 name
    rw [count_cons, ← StatsRow.afterHits_add, ← hrow]
    exact ih hnext h.2

end Responder

/-- The statistics after a run, from those before it. -/
structure HitsExact (db db' : Db) (events : List (HitEvent × Ambient)) : Prop where
  hits : ∀ name, db'.hits name = db.hits name + HitEvent.count name events
  row : ∀ name, 0 < HitEvent.count name events →
    (db'.statsDomains.filter fun r => r.name = name).length = 1
  others : ∀ name, HitEvent.count name events = 0 →
    (db'.statsDomains.filter fun r => r.name = name) =
      db.statsDomains.filter fun r => r.name = name

private theorem Db.filter_stats (db : Db) (name : String) :
    (db.statsDomains.filter fun r => r.name = name) =
      (lookup StatsRow.name name db.statsDomains).toList := by
  have hkey := db.stats_unique.filter_key (fun _ => true) name
  have hall : (lookup StatsRow.name name db.statsDomains).filter (fun _ => true) =
      lookup StatsRow.name name db.statsDomains := by
    cases lookup StatsRow.name name db.statsDomains <;> rfl
  rw [hall] at hkey
  simpa using hkey

/-- From every database, with every sequence of requests and reloads in which no statement
raises, the hits are counted exactly. -/
theorem hitsExact_runEvents (options : ResponderOptions) (db : Db)
    (events : List (HitEvent × Ambient))
    (h : Along (Responder.step options) (fun e s => (Responder.step options e s).1 = 0) events
      { conn := ⟨db, none⟩ }) :
    HitsExact db
      (runEvents (Responder.step options) events { conn := ⟨db, none⟩ }).2.conn.file events := by
  have hrow := Responder.runEvents_row (s := { conn := ⟨db, none⟩ }) nofun h
  constructor
  · intro name
    rw [Db.hits, hrow, Db.hits, StatsRow.afterHits]
    split_ifs with hcount
    · rw [hcount]
      simp
    · simp
  · intro name hcount
    rw [Db.filter_stats, hrow, StatsRow.afterHits, if_neg (Nat.pos_iff_ne_zero.1 hcount)]
    rfl
  · intro name hcount
    rw [Db.filter_stats, Db.filter_stats, hrow, StatsRow.afterHits, if_pos hcount]

def hitEvents : List (HitEvent × Ambient) :=
  [(.request "GET / HTTP/1.1\r\nHost: ads.example\r\n\r\n", {}),
    (.request "GET / HTTP/1.1\r\n\r\n", {}),
    (.reload, {}),
    (.request "GET / HTTP/1.1\r\nHost: tracker.example\r\n\r\n", {}),
    (.request "GET / HTTP/1.1\r\nHost: ads.example\r\n\r\n", {})]

theorem hitsExact_hitEvents :
    HitsExact Db.empty
      (runEvents (Responder.step {}) hitEvents { conn := ⟨Db.empty, none⟩ }).2.conn.file
      hitEvents :=
  hitsExact_runEvents {} Db.empty hitEvents (by decide +kernel)

end DblService
