import DblService.Framework.Run
import Mathlib.Logic.Function.Basic

/-!
# The processes of the service

`main` runs the service in rounds.  In a round the master forks a worker, starts the DNS
proxy and posts the semaphore the worker waits for; then it waits for the worker, stops the
proxy and goes round again unless `signaled_exit` is set.  Signals come between any two
steps, and one that is caught in `waitpid` ends the wait.
-/

namespace DblService.Processes

open Framework

inductive Signal
  | term
  | int
  | hup
  | other  -- a signal that no handler is installed for and that ends the process
  deriving DecidableEq

/-- What is installed for `SIGTERM`, `SIGINT` and `SIGHUP`. -/
inductive Handler
  | default
  | master
  | worker
  deriving DecidableEq

/-! ## The state -/

inductive WorkerPc
  | forked  -- forked, with the handlers of the master
  | waiting  -- in `timed_wait`
  | posted
  | running  -- in `Worker::run`
  | exited
  | signaled (sig : Signal)
  | reaped  -- gone after `waitpid`
  deriving DecidableEq

def WorkerPc.alive : WorkerPc → Bool
  | forked | waiting | posted | running => true
  | exited | signaled _ | reaped => false

structure Worker where
  pc : WorkerPc
  handler : Handler
  semaphore : Nat
  termPending : Bool  -- a `SIGTERM` of the master that is not delivered yet
  stopFlag : Bool
  deriving DecidableEq

inductive MasterPc
  | looping  -- at the test of `signaled_exit`
  | creating
  | created
  | configured
  | forked  -- `fork` returned, `worker_pid_` is not set
  | assigned
  | saved
  | starting  -- in `start_dns_proxy`
  | started
  | failed  -- in the handler of the exception
  | tried  -- past the `try` block
  | waiting  -- in `waitpid`
  | waited
  | stopped
  | removed
  | exited  -- `EXIT_SUCCESS`
  | refused  -- `EXIT_FAILURE`
  | died  -- ended by a signal or an exception that nothing catches
  deriving DecidableEq

def MasterPc.ended : MasterPc → Bool
  | exited | refused | died => true
  | _ => false

structure Service where
  workerPid : Option Nat

/-- The master, the pid file it writes and what it did to the proxy. -/
structure Master where
  pc : MasterPc
  handlers : Bool
  signaledExit : Bool
  servicePtr : Option Service
  pid : Nat
  pidfile : Option Nat
  proxyTouched : Bool  -- `start_dns_proxy` ran and `stop_dns_proxy` did not

structure State where
  master : Master
  workers : List Worker  -- in the order of the forks
  -- `stop` read `worker_pid_` before it was assigned, or after its process was reaped
  strayKill : Bool

/-- Before the first round; a pid file may be left over. -/
def start (pid : Nat) (pidfile : Option Nat) : State where
  master :=
    { pc := .looping, handlers := false, signaledExit := false, servicePtr := none, pid := pid,
      pidfile := pidfile, proxyTouched := false }
  workers := []
  strayKill := false

namespace State

def workerPid (s : State) : Option Nat := s.master.servicePtr.bind Service.workerPid

def worker (s : State) : Option Worker := s.workerPid.bind (s.workers[·]?)

def modifyWorker (s : State) (i : Nat) (f : Worker → Worker) : State :=
  { s with workers := s.workers.modify i f }

/-- `Service::service_ptr->stop()`; without a service the null pointer is followed. -/
def stop (s : State) : State :=
  match s.master.servicePtr with
  | none => { s with master := { s.master with pc := .died } }
  | some ⟨none⟩ => { s with strayKill := true }
  | some ⟨some i⟩ =>
    { s.modifyWorker i fun w => { w with termPending := w.pc.alive } with
      strayKill := s.strayKill || decide (s.worker.map Worker.pc = some .reaped) }

end State

/-- What the handler of the master does before it calls `stop`; `waitpid` is not restarted. -/
def Master.catchSignal (m : Master) (sig : Signal) : Master :=
  { m with
    pc := if m.pc = .waiting then .waited else m.pc
    signaledExit := m.signaledExit || decide (sig ≠ .hup) }

def State.catchSignal (s : State) (sig : Signal) : State :=
  if s.master.handlers = false ∨ sig = .other then
    { s with master := { s.master with pc := .died } }
  else
    { s with master := s.master.catchSignal sig }.stop

/-- A signal that reaches a worker; the handler of the master finds no `worker_pid_` there. -/
def Worker.catchSignal (w : Worker) (sig : Signal) : Worker :=
  if sig = .other ∨ w.handler = .default then { w with pc := .signaled sig }
  else if w.handler = .worker ∧ w.pc = .running then { w with stopFlag := true }
  else w

/-- How a process ended that `waitpid` can return. -/
def Worker.status (w : Worker) : Option (Option Signal) :=
  match w.pc with
  | .exited => some none
  | .signaled sig => some (some sig)
  | _ => none

/-! ## The steps -/

inductive MasterStep
  | test
  | createFails  -- the database or the service could not be created
  | create (alive : Bool)  -- the service is created; whether the pid of the pid file is alive
  | configure
  | configureFails (filesystemError : Bool)
  | fork (pid : Nat)  -- `daemon` and `fork`, with the new pid of the master
  | assign
  | savePidfile
  | setupSignals
  | startProxy (ok : Bool)  -- whether `start_dns_proxy` returned
  | post
  | fail
  | wait
  | reap
  | stopProxy
  | removePidfile
  | reset
  deriving DecidableEq

inductive WorkerStep
  | setupSignals
  | acquire
  | giveUp  -- `timed_wait` is over without the semaphore
  | run
  | finish (updated : Bool)  -- `Worker::run` returned; whether there was an update
  | abort  -- a server could not be started
  deriving DecidableEq

inductive Event
  | master (m : MasterStep)
  | worker (i : Nat) (w : WorkerStep)
  | deliver (i : Nat)  -- the `SIGTERM` of the master arrives
  | signalWorker (i : Nat) (sig : Signal)  -- a signal from outside
  | signalMaster (sig : Signal)
  | die  -- the master ends by an exception that nothing catches

/-- The next state of the master, if this is its next step; `status` is what `waitpid` finds. -/
def Master.next (m : Master) (forks : Nat) (status : Option (Option Signal)) :
    MasterStep → Option Master
  | .test =>
    if m.pc = .looping then some { m with pc := if m.signaledExit then .exited else .creating }
    else none
  | .createFails => if m.pc = .creating then some { m with pc := .refused } else none
  | .create alive =>
    if m.pc = .creating then
      some { m with
        servicePtr := some ⟨none⟩
        pc := if m.pidfile.isSome && alive then .refused else .created }
    else none
  | .configure => if m.pc = .created then some { m with pc := .configured } else none
  | .configureFails _ => if m.pc = .created then some { m with pc := .refused } else none
  | .fork pid => if m.pc = .configured then some { m with pid := pid, pc := .forked } else none
  | .assign =>
    if m.pc = .forked then some { m with servicePtr := some ⟨some (forks - 1)⟩, pc := .assigned }
    else none
  | .savePidfile =>
    if m.pc = .assigned then some { m with pidfile := some m.pid, pc := .saved } else none
  | .setupSignals =>
    if m.pc = .saved then some { m with handlers := true, pc := .starting } else none
  | .startProxy ok =>
    if m.pc = .starting then
      some { m with proxyTouched := true, pc := if ok then .started else .failed }
    else none
  | .post => if m.pc = .started then some { m with pc := .tried } else none
  | .fail => if m.pc = .failed then some { m with signaledExit := true, pc := .tried } else none
  | .wait => if m.pc = .tried then some { m with pc := .waiting } else none
  | .reap =>
    match status with
    | none => none
    | some sig =>
      if m.pc = .waiting then
        some { m with
          signaledExit := m.signaledExit || decide (sig = some .hup ∨ sig = some .other)
          pc := .waited }
      else none
  | .stopProxy =>
    if m.pc = .waited then some { m with proxyTouched := false, pc := .stopped } else none
  | .removePidfile =>
    if m.pc = .stopped then some { m with pidfile := none, pc := .removed } else none
  | .reset => if m.pc = .removed then some { m with servicePtr := none, pc := .looping } else none

/-- The count of a new semaphore.  The segment is taken to be new and zeroed: `allocate` constructs
no `ServiceSHM`, whose semaphore would start at the same count. -/
def initialCount : Nat := 0

def State.touch (s : State) : MasterStep → State
  | .configureFails false => s.stop
  | .fork _ =>
    let handler : Handler := if s.master.handlers then .master else .default
    { s with workers := s.workers ++ [⟨.forked, handler, initialCount, false, false⟩] }
  | .post => (s.workerPid.map fun i =>
      s.modifyWorker i fun w => { w with semaphore := w.semaphore + 1 }).getD s
  | .fail => s.stop
  | .reap => (s.workerPid.map fun i => s.modifyWorker i fun w => { w with pc := .reaped }).getD s
  | _ => s

def workerStep (w : Worker) : WorkerStep → Option Worker
  | .setupSignals =>
    if w.pc = .forked then some { w with handler := .worker, pc := .waiting } else none
  | .acquire =>
    if w.pc = .waiting ∧ 0 < w.semaphore then
      some { w with semaphore := w.semaphore - 1, pc := .posted }
    else none
  | .giveUp => if w.pc = .waiting then some { w with pc := .exited } else none
  | .run => if w.pc = .posted then some { w with pc := .running } else none
  | .finish updated =>
    if w.pc = .running ∧ (updated = true ∨ w.stopFlag = true) then some { w with pc := .exited }
    else none
  | .abort => if w.pc = .running then some { w with pc := .exited } else none

def step (e : Event) (s : State) : Bool × State :=
  match e with
  | .master a =>
    match s.master.next s.workers.length (s.worker.bind Worker.status) a with
    | some m => (true, { s with master := m }.touch a)
    | none => (false, s)
  | .worker i a =>
    match s.workers[i]?.bind (workerStep · a) with
    | some w => (true, s.modifyWorker i fun _ => w)
    | none => (false, s)
  | .deliver i =>
    match s.workers[i]? with
    | some w =>
      if w.pc.alive && w.termPending then
        (true, { s.modifyWorker i fun w => { w with termPending := false }.catchSignal .term with
          strayKill := s.strayKill || decide (w.handler = .master) })
      else (false, s)
    | none => (false, s)
  | .signalWorker i sig =>
    match s.workers[i]? with
    | some w =>
      if w.pc.alive then
        (true, { s.modifyWorker i (·.catchSignal sig) with
          strayKill := s.strayKill || (decide (w.handler = .master) && decide (sig ≠ .other)) })
      else (false, s)
    | none => (false, s)
  | .signalMaster sig => if s.master.pc.ended then (false, s) else (true, s.catchSignal sig)
  | .die =>
    if s.master.pc.ended then (false, s)
    else (true, { s with master := { s.master with pc := .died } })

/-! ## What a step does to the master -/

namespace State

@[simp] theorem modifyWorker_master (s : State) (i : Nat) (f : Worker → Worker) :
    (s.modifyWorker i f).master = s.master := rfl

theorem stop_master (s : State) :
    s.stop.master =
      if s.master.servicePtr.isSome then s.master else { s.master with pc := .died } := by
  unfold stop
  split <;> simp_all

theorem touch_master {s : State} {a : MasterStep} :
    (s.touch a).master = s.master ∨
      s.master.servicePtr.isSome = false ∧ (s.touch a).master = { s.master with pc := .died } := by
  have hstop : s.stop.master = s.master ∨
      s.master.servicePtr.isSome = false ∧ s.stop.master = { s.master with pc := .died } := by
    rw [stop_master]
    cases s.master.servicePtr <;> simp
  cases a
  case configureFails filesystemError =>
    cases filesystemError with
    | false => exact hstop
    | true => exact .inl rfl
  case fail => exact hstop
  case post => exact .inl (by simp only [touch]; cases s.workerPid <;> rfl)
  case reap => exact .inl (by simp only [touch]; cases s.workerPid <;> rfl)
  all_goals exact .inl rfl

end State

inductive Moves (s : State) : Event → Master → Prop
  | stays (e : Event) : Moves s e s.master
  | dies {e : Event} {m : Master} (h : Moves s e m) : Moves s e { m with pc := .died }
  | catches (sig : Signal) (alive : s.master.pc.ended = false) (handlers : s.master.handlers = true)
      (handled : sig ≠ .other) : Moves s (.signalMaster sig) (s.master.catchSignal sig)
  | goes (a : MasterStep) (m : Master)
      (next : s.master.next s.workers.length (s.worker.bind Worker.status) a = some m) :
      Moves s (.master a) m

theorem moves_step (e : Event) (s : State) : Moves s e (step e s).2.master := by
  cases e with
  | master a =>
    cases hnext : s.master.next s.workers.length (s.worker.bind Worker.status) a with
    | none =>
      simp only [step, hnext]
      exact .stays _
    | some m =>
      simp only [step, hnext]
      rcases State.touch_master with h | ⟨_, h⟩
      · rw [h]
        exact .goes a m hnext
      · rw [h]
        exact .dies (.goes a m hnext)
  | worker i a =>
    simp only [step]
    split <;> exact .stays _
  | deliver i =>
    simp only [step]
    split
    · split <;> exact .stays _
    · exact .stays _
  | signalWorker i sig =>
    simp only [step]
    split
    · split <;> exact .stays _
    · exact .stays _
  | signalMaster sig =>
    simp only [step]
    cases hended : s.master.pc.ended with
    | true => exact .stays _
    | false =>
      simp only [Bool.false_eq_true, if_false, State.catchSignal]
      by_cases hdefault : s.master.handlers = false ∨ sig = .other
      · simp only [hdefault, if_true]
        exact .dies (.stays _)
      · have hcatches : Moves s (.signalMaster sig) (s.master.catchSignal sig) :=
          .catches sig hended (by simpa using fun h => hdefault (.inl h)) fun h =>
            hdefault (.inr h)
        simp only [hdefault, if_false, State.stop_master]
        split
        · exact hcatches
        · exact .dies hcatches
  | die =>
    simp only [step]
    split
    · exact .stays _
    · exact .dies (.stays _)

/-! ## What a step does to a worker -/

/-- What one step can do to the worker `i`; forks apart, no step adds one. -/
inductive WorkerMoves (s : State) : Event → Nat → Worker → Worker → Prop
  | stays (e : Event) (i : Nat) (w : Worker) : WorkerMoves s e i w w
  | told (e : Event) (i : Nat) (w : Worker) (term : Bool) :
      WorkerMoves s e i w { w with termPending := term }
  | posted (i : Nat) (w : Worker) (started : s.master.pc = .started)
      (current : s.workerPid = some i) :
      WorkerMoves s (.master .post) i w { w with semaphore := w.semaphore + 1 }
  | reaped (e : Event) (i : Nat) (w : Worker) : WorkerMoves s e i w { w with pc := .reaped }
  | goes (i : Nat) (w w' : Worker) (a : WorkerStep) (next : workerStep w a = some w') :
      WorkerMoves s (.worker i a) i w w'
  | catches (e : Event) (i : Nat) (w : Worker) (sig : Signal) :
      WorkerMoves s e i w (w.catchSignal sig)
  | andThen {e : Event} {i : Nat} {w w' w'' : Worker} (first : WorkerMoves s e i w w')
      (second : WorkerMoves s e i w' w'') : WorkerMoves s e i w w''

/-- Every worker after the step comes from one before. -/
def Traced (s : State) (e : Event) (ws : List Worker) : Prop :=
  ws.length = s.workers.length ∧ ∀ (i : Nat) (w' : Worker), ws[i]? = some w' →
    ∃ w : Worker, s.workers[i]? = some w ∧ WorkerMoves s e i w w'

namespace Traced

theorem refl (s : State) (e : Event) : Traced s e s.workers :=
  ⟨rfl, fun i w hw => ⟨w, hw, .stays e i w⟩⟩

theorem modify (s : State) (e : Event) (i : Nat) (f : Worker → Worker)
    (hf : ∀ w, s.workers[i]? = some w → WorkerMoves s e i w (f w)) :
    Traced s e (s.workers.modify i f) := by
  constructor
  · simp
  · intro j w' hw'
    by_cases hij : i = j
    · subst hij
      rw [List.getElem?_modify_eq] at hw'
      cases hw : s.workers[i]? with
      | none => simp [hw] at hw'
      | some w =>
        rw [hw] at hw'
        have hfw : f w = w' := Option.some.inj hw'
        subst hfw
        exact ⟨w, rfl, hf w hw⟩
    · rw [List.getElem?_modify_ne _ _ hij] at hw'
      exact ⟨w', hw', .stays e j w'⟩

theorem stop (s : State) (e : Event) (m : Master) :
    Traced s e ({ s with master := m } : State).stop.workers := by
  unfold State.stop
  split
  · exact refl s e
  · exact refl s e
  · exact modify s e _ _ fun w _ => .told e _ w _

end Traced

private theorem traced_touch {s : State} {a : MasterStep} {m : Master}
    (hnext : s.master.next s.workers.length (s.worker.bind Worker.status) a = some m)
    (ha : ∀ pid, a ≠ .fork pid) :
    Traced s (.master a) ({ s with master := m }.touch a).workers := by
  cases a
  case configureFails filesystemError =>
    cases filesystemError with
    | false => exact .stop s _ m
    | true => exact .refl s _
  case fork pid => exact absurd rfl (ha pid)
  case post =>
    simp only [Master.next] at hnext
    split at hnext
    · next hpc =>
      cases hnext
      have hpid : ({ s with master := { s.master with pc := .tried } } : State).workerPid =
          s.workerPid := rfl
      simp only [State.touch, hpid]
      cases hi : s.workerPid with
      | none => exact .refl s _
      | some i => exact .modify s _ i _ fun w _ => .posted i w hpc hi
    · cases hnext
  case fail => exact .stop s _ m
  case reap =>
    simp only [State.touch]
    cases ({ s with master := m } : State).workerPid with
    | none => exact .refl s _
    | some i => exact .modify s _ i _ fun w _ => .reaped _ i w
  all_goals exact .refl s _

theorem traced_step (e : Event) (s : State) (he : ∀ pid, e ≠ .master (.fork pid)) :
    Traced s e (step e s).2.workers := by
  cases e with
  | master a =>
    cases hnext : s.master.next s.workers.length (s.worker.bind Worker.status) a with
    | none =>
      simp only [step, hnext]
      exact .refl s _
    | some m =>
      simp only [step, hnext]
      exact traced_touch hnext fun pid h => he pid (by rw [h])
  | worker i a =>
    simp only [step]
    split
    · next w' hw' =>
      obtain ⟨w, hw, hstep⟩ := Option.bind_eq_some_iff.mp hw'
      refine .modify s _ i _ fun w₁ hw₁ => ?_
      rw [hw] at hw₁
      cases hw₁
      exact .goes i w w' a hstep
    · exact .refl s _
  | deliver i =>
    simp only [step]
    split
    · split
      · exact .modify s _ i _ fun w _ => .andThen (.told _ i w false) (.catches _ i _ .term)
      · exact .refl s _
    · exact .refl s _
  | signalWorker i sig =>
    simp only [step]
    split
    · split
      · exact .modify s _ i _ fun w _ => .catches _ i w sig
      · exact .refl s _
    · exact .refl s _
  | signalMaster sig =>
    simp only [step, State.catchSignal]
    split
    · exact .refl s _
    · split
      · exact .refl s _
      · exact .stop s _ _
  | die =>
    simp only [step]
    split <;> exact .refl s _

/-- A fork that is possible comes from `run` alone, and its worker has not passed anything. -/
theorem workers_fork (s : State) (pid : Nat) :
    (step (.master (.fork pid)) s).2.workers = s.workers ∨
      s.master.pc = .configured ∧ ∃ handler,
        (step (.master (.fork pid)) s).2.workers =
          s.workers ++ [⟨.forked, handler, 0, false, false⟩] := by
  simp only [step, Master.next]
  by_cases hpc : s.master.pc = .configured
  · simp only [hpc, if_true, State.touch]
    exact .inr ⟨trivial, _, rfl⟩
  · exact .inl (by simp [hpc])

end DblService.Processes
