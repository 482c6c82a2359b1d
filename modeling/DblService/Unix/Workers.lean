import DblService.Unix.Rounds

/-!
# The workers of the rounds

How many workers are alive, and when they serve.
-/

namespace DblService.Processes

open Framework

/-! ## One worker at a time -/

namespace MasterPc

/-- `worker_pid_` is the worker of this round. -/
def assignsWorker : MasterPc → Bool
  | assigned | saved | starting | started | failed | tried | waiting | waited | stopped
  | removed => true
  | _ => false

def minds : MasterPc → Bool
  | forked | assigned | saved | starting | started | failed | tried | waiting | died => true
  | _ => false

end MasterPc

private theorem alive_workerStep {w w' : Worker} {a : WorkerStep} (h : workerStep w a = some w') :
    w.pc.alive = true := by
  cases a <;> simp only [workerStep] at h <;> split at h <;> simp_all [WorkerPc.alive]

private theorem Worker.alive_catchSignal {w : Worker} {sig : Signal}
    (h : (w.catchSignal sig).pc.alive = true) : w.pc.alive = true := by
  unfold catchSignal at h
  split at h
  · simp [WorkerPc.alive] at h
  · split at h <;> exact h

/-- No step brings a worker back to life. -/
theorem WorkerMoves.alive {s : State} {e : Event} {i : Nat} {w w' : Worker}
    (h : WorkerMoves s e i w w') (halive : w'.pc.alive = true) : w.pc.alive = true := by
  induction h with
  | stays e i w => exact halive
  | told e i w term => exact halive
  | posted i w _ _ => exact halive
  | reaped e i w => simp [WorkerPc.alive] at halive
  | goes i w w' a hnext => exact alive_workerStep hnext
  | catches e i w sig => exact Worker.alive_catchSignal halive
  | andThen _ _ ih₁ ih₂ => exact ih₁ (ih₂ halive)

structure Quieter (ws ws' : List Worker) : Prop where
  length : ws'.length = ws.length
  alive : ∀ (i : Nat) (w' : Worker), ws'[i]? = some w' → w'.pc.alive = true →
    ∃ w : Worker, ws[i]? = some w ∧ w.pc.alive = true

theorem Quieter.refl (ws : List Worker) : Quieter ws ws := ⟨rfl, fun _ w h ha => ⟨w, h, ha⟩⟩

theorem quieter_step (e : Event) (s : State) (he : ∀ pid, e ≠ .master (.fork pid)) :
    Quieter s.workers (step e s).2.workers := by
  obtain ⟨hlength, htraced⟩ := traced_step e s he
  apply Quieter.mk hlength
  intro i w' hw' halive
  obtain ⟨w, hw, hmoves⟩ := htraced i w' hw'
  exact ⟨w, hw, hmoves.alive halive⟩

/-- A worker that is alive is the one of this round, and the round is not over. -/
structure Single (m : Master) (ws : List Worker) : Prop where
  assigned : m.pc.assignsWorker = true → m.servicePtr = some ⟨some (ws.length - 1)⟩
  alive : ∀ (i : Nat) (w : Worker), ws[i]? = some w → w.pc.alive = true →
    i + 1 = ws.length ∧ m.pc.minds = true

/-- A signal that is caught in `waitpid`. -/
def InterruptsWait : Event → State → Prop
  | .signalMaster sig, s => s.master.pc = .waiting ∧ sig ≠ .other
  | _, _ => False

private theorem single_start (pid : Nat) (pidfile : Option Nat) :
    Single (start pid pidfile).master (start pid pidfile).workers := by
  constructor <;> simp [start, MasterPc.assignsWorker]

namespace Single

variable {m m' : Master} {ws ws' : List Worker}

/-- Where the wait is not left, fewer workers are alive. -/
theorem keeps (h : Single m ws) (hws : Quieter ws ws')
    (hassigned : m'.pc.assignsWorker = true → m'.servicePtr = some ⟨some (ws.length - 1)⟩)
    (hminds : m.pc.minds = true → m'.pc.minds = true) : Single m' ws' := by
  constructor
  · rw [hws.length]
    exact hassigned
  · intro i w' hw' halive
    obtain ⟨w, hw, halive⟩ := hws.alive i w' hw' halive
    obtain ⟨hlast, hpc⟩ := h.alive i w hw halive
    exact ⟨by rw [hws.length]; exact hlast, hminds hpc⟩

theorem died (h : Single m ws) : Single { m with pc := .died } ws := by
  apply h.keeps (.refl ws)
  · simp [MasterPc.assignsWorker]
  · simp [MasterPc.minds]

theorem fork (h : Single m ws) (hpc : m.pc = .configured) (pid : Nat) (handler : Handler) :
    Single { m with pid := pid, pc := .forked } (ws ++ [⟨.forked, handler, 0, false, false⟩]) := by
  constructor
  · simp [MasterPc.assignsWorker]
  · intro i w hw halive
    apply And.intro _ rfl
    by_cases hi : i < ws.length
    · rw [List.getElem?_append_left hi] at hw
      have hminds := (h.alive i w hw halive).2
      simp [hpc, MasterPc.minds] at hminds
    · have hlength := (List.getElem?_eq_some_iff.mp hw).1
      simp only [List.length_append, List.length_singleton] at hlength ⊢
      omega

/-- The worker that `waitpid` returns was the only one. -/
theorem reap (h : Single m ws) {status : Option Signal}
    (hpc : m.pc = .waiting)
    (hstatus : ((m.servicePtr.bind Service.workerPid).bind (ws[·]?)).bind Worker.status =
      some status) (hws : Quieter ws ws') (flag : Bool) :
    Single { m with signaledExit := flag, pc := .waited } ws' := by
  have hservice : m.servicePtr = some ⟨some (ws.length - 1)⟩ :=
    h.assigned (by simp [hpc, MasterPc.assignsWorker])
  simp only [hservice, Option.bind_some] at hstatus
  have hnone : ∀ (i : Nat) (w : Worker), ws[i]? = some w → w.pc.alive = true → False := by
    intro i w hw halive
    have hlast := (h.alive i w hw halive).1
    have hi : ws.length - 1 = i := by omega
    rw [hi, hw, Option.bind_some] at hstatus
    cases hpc : w.pc <;> simp [hpc, Worker.status, WorkerPc.alive] at hstatus halive
  constructor
  · intro _
    rw [hws.length]
    exact hservice
  · intro i w' hw' halive
    obtain ⟨w, hw, halive⟩ := hws.alive i w' hw' halive
    exact (hnone i w hw halive).elim

/-- The other steps of the master. -/
theorem next (h : Single m ws) {status : Option (Option Signal)} {a : MasterStep}
    (hnext : m.next ws.length status a = some m') (hws : Quieter ws ws')
    (hfork : ∀ pid, a ≠ .fork pid) (hreap : a ≠ .reap) : Single m' ws' := by
  have hassigned := h.assigned
  cases a <;> simp only [Master.next] at hnext
  case fork pid => exact absurd rfl (hfork pid)
  case reap => exact absurd rfl hreap
  all_goals
    split at hnext
    · cases hnext
      apply h.keeps hws
      · simp_all [MasterPc.assignsWorker] <;> grind
      · simp_all [MasterPc.minds] <;> grind
    · cases hnext

end Single

private theorem single_fork {s : State} (h : Single s.master s.workers) (pid : Nat) :
    Single (step (.master (.fork pid)) s).2.master (step (.master (.fork pid)) s).2.workers := by
  simp only [step, Master.next]
  by_cases hpc : s.master.pc = .configured
  · simp only [hpc, if_true, State.touch]
    exact h.fork hpc pid _
  · simp only [hpc, if_false]
    exact h

private theorem single_master {s : State} {a : MasterStep} {m : Master} {ws : List Worker}
    (h : Single s.master s.workers) (hfork : ∀ pid, a ≠ .fork pid)
    (hnext : s.master.next s.workers.length (s.worker.bind Worker.status) a = some m)
    (hquiet : Quieter s.workers ws) : Single m ws := by
  by_cases hreap : a = .reap
  · subst hreap
    simp only [Master.next] at hnext
    cases hstatus : s.worker.bind Worker.status with
    | none => simp [hstatus] at hnext
    | some status =>
      simp only [hstatus] at hnext
      split at hnext
      · next hpc =>
        cases hnext
        exact h.reap hpc hstatus hquiet _
      · cases hnext
  · exact h.next hnext hquiet hfork hreap

theorem single_step (e : Event) (s : State) (h : Single s.master s.workers)
    (hwait : ¬ InterruptsWait e s) : Single (step e s).2.master (step e s).2.workers := by
  by_cases hfork : ∃ pid, e = .master (.fork pid)
  · obtain ⟨pid, rfl⟩ := hfork
    exact single_fork h pid
  · have he : ∀ pid, e ≠ .master (.fork pid) := fun pid he => hfork ⟨pid, he⟩
    have hquiet := quieter_step e s he
    have hmoves := moves_step e s
    generalize (step e s).2.master = m at hmoves ⊢
    clear hfork
    induction hmoves with
    | stays e => exact h.keeps hquiet h.assigned id
    | dies _ ih => exact (ih hwait he hquiet).died
    | catches sig _ _ hhandled =>
      have hpc : s.master.pc ≠ .waiting := fun hpc => hwait ⟨hpc, hhandled⟩
      have hsame : (s.master.catchSignal sig).pc = s.master.pc := by
        simp [Master.catchSignal, hpc]
      apply h.keeps hquiet
      · rw [hsame]
        exact h.assigned
      · rw [hsame]
        exact id
    | goes a m hnext => exact single_master h (fun pid ha => he pid (by rw [ha])) hnext hquiet

/-- Unless a signal is caught in `waitpid`, there is never more than one worker, and none is left
when a round is over or the service has ended; a signal there leaves the old worker to itself. -/
theorem one_worker (pid : Nat) (pidfile : Option Nat) (es : List Event)
    (h : Along step (fun e s => ¬ InterruptsWait e s) es (start pid pidfile)) :
    let s := (runEvents step es (start pid pidfile)).2
    (∀ (i j : Nat) (w w' : Worker), s.workers[i]? = some w → s.workers[j]? = some w' →
        w.pc.alive = true → w'.pc.alive = true → i = j) ∧
      (s.master.pc.minds = false → ∀ w ∈ s.workers, w.pc.alive = false) := by
  intro s
  have hsingle : Single s.master s.workers :=
    h.invariant (I := fun s => Single s.master s.workers) (fun e s hs he => single_step e s hs he)
      (single_start pid pidfile)
  constructor
  · intro i j w w' hw hw' halive halive'
    have hi := (hsingle.alive i w hw halive).1
    have hj := (hsingle.alive j w' hw' halive').1
    omega
  · intro hminds w hw
    obtain ⟨i, hi⟩ := List.mem_iff_getElem?.mp hw
    by_contra halive
    have hpc := (hsingle.alive i w hi (by simpa using halive)).2
    simp [hminds] at hpc

instance (e : Event) (s : State) : Decidable (InterruptsWait e s) :=
  match e with
  | .signalMaster sig => inferInstanceAs (Decidable (s.master.pc = .waiting ∧ sig ≠ .other))
  | .master _ | .worker _ _ | .deliver _ | .signalWorker _ _ | .die => isFalse id

def firstHalf (pid i : Nat) : List Event :=
  [.master .test, .master (.create false), .master .configure, .master (.fork pid),
    .master .assign, .worker i .setupSignals, .master .savePidfile, .master .setupSignals,
    .master (.startProxy true), .master .post, .worker i .acquire, .worker i .run]

def secondHalf : List Event :=
  [.master .stopProxy, .master .removePidfile, .master .reset]

/-- A signal that comes before `waitpid`, and the next round. -/
def reloadedInTime : List Event :=
  firstHalf 2 0 ++ [.signalMaster .hup, .master .wait, .deliver 0, .worker 0 (.finish false),
    .master .reap] ++ secondHalf ++ firstHalf 3 1

/-- The same signal in `waitpid`. -/
def reloadedInWait : List Event :=
  firstHalf 2 0 ++ [.master .wait, .signalMaster .hup] ++ secondHalf ++ firstHalf 3 1

/-- In time the old worker is gone; from `waitpid` the master goes on while it still runs. -/
theorem one_worker_reload :
    (let s := (runEvents step reloadedInTime (start 1 none)).2;
      (∀ (i j : Nat) (w w' : Worker), s.workers[i]? = some w → s.workers[j]? = some w' →
          w.pc.alive = true → w'.pc.alive = true → i = j) ∧
        (s.master.pc.minds = false → ∀ w ∈ s.workers, w.pc.alive = false)) ∧
      (runEvents step reloadedInTime (start 1 none)).2.workers.map Worker.pc =
        [.reaped, .running] ∧
      (runEvents step reloadedInWait (start 1 none)).2.workers.map Worker.pc =
        [.running, .running] :=
  ⟨one_worker 1 none reloadedInTime (by decide +kernel), by decide +kernel, by decide +kernel⟩

/-! ## Nobody is served before the proxy is up -/

/-- The worker has the semaphore, or can take it. -/
def Worker.Admitted (w : Worker) : Prop := 0 < w.semaphore ∨ w.pc = .posted ∨ w.pc = .running

/-- In its round `start_dns_proxy` returned. -/
def ProxyStarted (s : State) (es : List Event) (i : Nat) : Prop :=
  ∃ before after, es = before ++ .master (.startProxy true) :: after ∧
    (runEvents step before s).2.master.pc = .starting ∧
    (runEvents step before s).2.workerPid = some i

theorem ProxyStarted.append {s : State} {es : List Event} {i : Nat} (h : ProxyStarted s es i)
    (e : Event) : ProxyStarted s (es ++ [e]) i := by
  obtain ⟨before, after, rfl, hpc, hi⟩ := h
  exact ⟨before, after ++ [e], by simp, hpc, hi⟩

private theorem admitted_workerStep {w w' : Worker} {a : WorkerStep} (h : workerStep w a = some w')
    (hw' : w'.Admitted) : w.Admitted := by
  cases a <;> simp only [workerStep] at h <;> split at h <;> cases h <;>
    simp_all [Worker.Admitted]

/-- No worker comes past the semaphore by another step than the post. -/
theorem WorkerMoves.admitted {s : State} {e : Event} {i : Nat} {w w' : Worker}
    (h : WorkerMoves s e i w w') (hw' : w'.Admitted) :
    w.Admitted ∨ s.master.pc = .started ∧ s.workerPid = some i := by
  induction h with
  | stays e i w => exact .inl hw'
  | told e i w term => exact .inl hw'
  | posted i w hpc hi => exact .inr ⟨hpc, hi⟩
  | reaped e i w => exact .inl (hw'.imp id (by simp))
  | goes i w w' a hnext =>
    exact .inl (admitted_workerStep hnext hw')
  | catches e i w sig =>
    apply Or.inl
    unfold Worker.catchSignal at hw'
    split at hw'
    · exact hw'.imp id (by simp)
    · split at hw' <;> exact hw'
  | andThen _ _ ih₁ ih₂ =>
    rcases ih₂ hw' with h | h
    · exact ih₁ h
    · exact .inr h

/-- What is admitted, and what is about to be, had its proxy started. -/
structure Served (s₀ : State) (es : List Event) (s : State) : Prop where
  admitted : ∀ (i : Nat) (w : Worker), s.workers[i]? = some w → w.Admitted → ProxyStarted s₀ es i
  started : s.master.pc = .started → ∀ i, s.workerPid = some i → ProxyStarted s₀ es i

private theorem next_started {m m' : Master} {forks : Nat} {status : Option (Option Signal)}
    {a : MasterStep} (h : m.next forks status a = some m') (hpc : m'.pc = .started) :
    a = .startProxy true ∧ m.pc = .starting ∧ m'.servicePtr = m.servicePtr := by
  cases a <;> simp only [Master.next] at h
  case startProxy ok =>
    split at h
    · cases h
      cases ok <;> simp_all
    · cases h
  case reap =>
    split at h
    · cases h
    · split at h <;> cases h
      cases hpc
  all_goals
    split at h
    · cases h
      first
        | cases hpc
        | split at hpc <;> cases hpc
    · cases h

/-- The master stands after a start only if it stood there before or has just started it. -/
theorem Moves.started {s : State} {e : Event} {m : Master} (h : Moves s e m)
    (hpc : m.pc = .started) :
    m.servicePtr = s.master.servicePtr ∧
      (s.master.pc = .started ∨
        e = .master (.startProxy true) ∧ s.master.pc = .starting) := by
  cases h with
  | stays e => exact ⟨rfl, .inl hpc⟩
  | dies _ => cases hpc
  | catches sig _ _ _ =>
    by_cases hwaiting : s.master.pc = .waiting
    · simp [Master.catchSignal, hwaiting] at hpc
    · simp only [Master.catchSignal, hwaiting, if_false] at hpc
      exact ⟨rfl, .inl hpc⟩
  | goes a m hnext =>
    obtain ⟨rfl, hstarting, hservice⟩ := next_started hnext hpc
    exact ⟨hservice, .inr ⟨rfl, hstarting⟩⟩

theorem served_step {s₀ : State} (es : List Event) (e : Event)
    (h : Served s₀ es (runEvents step es s₀).2) :
    Served s₀ (es ++ [e]) (step e (runEvents step es s₀).2).2 := by
  generalize hs : (runEvents step es s₀).2 = s at h
  constructor
  · intro i w' hw' hadmitted
    by_cases hfork : ∃ pid, e = .master (.fork pid)
    · obtain ⟨pid, rfl⟩ := hfork
      rcases workers_fork s pid with hws | ⟨_, handler, hws⟩ <;> rw [hws] at hw'
      · exact (h.admitted i w' hw' hadmitted).append _
      · by_cases hi : i < s.workers.length
        · rw [List.getElem?_append_left hi] at hw'
          exact (h.admitted i w' hw' hadmitted).append _
        · rw [List.getElem?_append_right (by omega)] at hw'
          have hnew := List.mem_of_getElem? hw'
          simp only [List.mem_singleton] at hnew
          subst hnew
          simp [Worker.Admitted] at hadmitted
    · obtain ⟨_, htraced⟩ := traced_step e s fun pid he => hfork ⟨pid, he⟩
      obtain ⟨w, hw, hmoves⟩ := htraced i w' hw'
      rcases hmoves.admitted hadmitted with hbefore | ⟨hpc, hi⟩
      · exact (h.admitted i w hw hbefore).append e
      · exact (h.started hpc i hi).append e
  · intro hpc i hi
    obtain ⟨hservice, hstarted | ⟨rfl, hstarting⟩⟩ := (moves_step e s).started hpc
    · rw [State.workerPid, hservice] at hi
      exact (h.started hstarted i hi).append e
    · rw [State.workerPid, hservice] at hi
      exact ⟨es, [], rfl, by rw [hs]; exact hstarting, by rw [hs]; exact hi⟩

/-- Whatever happens in whatever order, a worker comes past the semaphore only after the master
of its round has started the proxy; where the start failed the worker never serves. -/
theorem served_after_proxy (pid : Nat) (pidfile : Option Nat) (es : List Event) (i : Nat)
    (w : Worker) (hw : (runEvents step es (start pid pidfile)).2.workers[i]? = some w)
    (hserves : w.pc = .posted ∨ w.pc = .running) :
    ProxyStarted (start pid pidfile) es i := by
  have hserved : Served (start pid pidfile) es (runEvents step es (start pid pidfile)).2 := by
    apply runEvents_invariant (R := Served (start pid pidfile))
    · constructor <;> simp [start]
    · exact fun es e h => served_step es e h
  exact hserved.admitted i w hw (.inr hserves)

theorem served_after_proxy_first : ProxyStarted (start 1 none) (firstHalf 2 0) 0 :=
  served_after_proxy 1 none (firstHalf 2 0) 0 ⟨.running, .worker, 0, false, false⟩
    (by decide +kernel) (by decide +kernel)

end DblService.Processes
