import DblService.Framework.Simulation
import DblService.Unix.Processes

/-!
# The rounds of the master

What a round takes outside the process, the pid file and the proxy, and what ends the
loop of `main`.
-/

namespace DblService.Processes

open Framework

/-! ## The pid file and the proxy -/

namespace MasterPc

def owns : MasterPc → Bool
  | created | configured | forked | assigned | saved | starting | started | failed | tried
  | waiting | waited | stopped | removed => true
  | looping | creating | exited | refused | died => false

def touches : MasterPc → Bool
  | started | failed | tried | waiting | waited => true
  | _ => false

def announces : MasterPc → Bool
  | saved | starting | started | failed | tried | waiting | waited | stopped => true
  | _ => false

end MasterPc

/-- What a round takes it gives back; `leftover` is the pid file that the first round found. -/
structure Master.Bracketed (leftover : Option Nat) (m : Master) : Prop where
  owned : m.pc ≠ .died → m.pc ≠ .refused → m.servicePtr.isSome = m.pc.owns
  touched : m.pc ≠ .died → m.proxyTouched = m.pc.touches
  announced : m.pc.announces = true → m.pidfile = some m.pid
  gone : m.pc ≠ .died → m.pc.announces = false →
    m.pidfile = if m.handlers then none else leftover
  handlers : m.signaledExit = true ∨ m.pc.announces = true ∧ m.pc ≠ .saved → m.handlers = true
  exited : m.pc = .exited → m.signaledExit = true

namespace Master.Bracketed

variable {leftover : Option Nat} {m m' : Master}

theorem init (pid : Nat) (pidfile : Option Nat) :
    (start pid pidfile).master.Bracketed pidfile := by
  constructor <;> simp [start, MasterPc.owns, MasterPc.touches, MasterPc.announces]

theorem next {forks : Nat} {status : Option (Option Signal)} {a : MasterStep}
    (h : m.Bracketed leftover) (hnext : m.next forks status a = some m') :
    m'.Bracketed leftover := by
  have ⟨howned, htouched, hannounced, hgone, hhandlers, hexited⟩ := h
  cases a <;> simp only [Master.next] at hnext
  case reap =>
    cases status with
    | none => cases hnext
    | some sig =>
      simp only at hnext
      split at hnext
      · cases hnext
        constructor <;> simp_all [MasterPc.owns, MasterPc.touches, MasterPc.announces]
      · cases hnext
  all_goals
    split at hnext
    · cases hnext
      constructor <;> simp_all [MasterPc.owns, MasterPc.touches, MasterPc.announces] <;> grind
    · cases hnext

theorem died (h : m.Bracketed leftover) :
    ({ m with pc := .died } : Master).Bracketed leftover := by
  constructor <;> simp [MasterPc.announces]
  exact fun hexit => h.handlers (.inl hexit)

theorem catchSignal (h : m.Bracketed leftover) (sig : Signal) (hhandlers : m.handlers = true) :
    (m.catchSignal sig).Bracketed leftover := by
  have ⟨howned, htouched, hannounced, hgone, _, hexited⟩ := h
  by_cases hwaiting : m.pc = .waiting
  · constructor <;>
      simp_all [Master.catchSignal, MasterPc.owns, MasterPc.touches, MasterPc.announces]
  · constructor <;> simp_all [Master.catchSignal]

private theorem moves {s : State} {e : Event} (h : s.master.Bracketed leftover) (hm : Moves s e m) :
    m.Bracketed leftover := by
  induction hm with
  | stays e => exact h
  | dies _ ih => exact ih.died
  | catches sig _ hhandlers _ => exact h.catchSignal sig hhandlers
  | goes a m hnext => exact h.next hnext

end Master.Bracketed

theorem bracketed_runEvents (pid : Nat) (pidfile : Option Nat) (es : List Event) :
    (runEvents step es (start pid pidfile)).2.master.Bracketed pidfile :=
  runEvents_invariant (R := fun _ (s : State) => s.master.Bracketed pidfile)
    (Master.Bracketed.init pid pidfile) (fun _ e h => h.moves (moves_step e _)) es

/-- The call of `start_dns_proxy` (true) or of `stop_dns_proxy` that a step is. -/
def proxyCall : Event → State → Option Bool
  | .master (.startProxy _), s => if s.master.pc = .starting then some true else none
  | .master .stopProxy, s => if s.master.pc = .waited then some false else none
  | _, _ => none

private theorem touch_proxyTouched (s : State) (a : MasterStep) :
    (s.touch a).master.proxyTouched = s.master.proxyTouched := by
  rcases State.touch_master (s := s) (a := a) with h | ⟨_, h⟩ <;> rw [h]

private theorem proxyTouched_catchSignal (s : State) (sig : Signal) :
    (s.catchSignal sig).master.proxyTouched = s.master.proxyTouched := by
  unfold State.catchSignal
  split
  · rfl
  · rw [State.stop_master]
    split <;> rfl

private theorem next_proxyTouched {s : State} {a : MasterStep} {m : Master}
    (h : s.master.next s.workers.length (s.worker.bind Worker.status) a = some m) :
    m.proxyTouched = (proxyCall (.master a) s).getD s.master.proxyTouched := by
  cases a <;> simp only [Master.next] at h
  case reap =>
    split at h
    · cases h
    · split at h <;> cases h
      rfl
  all_goals
    split at h <;> cases h
    simp_all [proxyCall]

private theorem proxyCall_none {s : State} {a : MasterStep}
    (h : s.master.next s.workers.length (s.worker.bind Worker.status) a = none) :
    proxyCall (.master a) s = none := by
  cases a
  case startProxy ok => simpa [Master.next, proxyCall] using h
  case stopProxy => simpa [Master.next, proxyCall] using h
  all_goals rfl

/-- Only the calls touch the proxy. -/
theorem proxyTouched_step (e : Event) (s : State) :
    (step e s).2.master.proxyTouched = (proxyCall e s).getD s.master.proxyTouched := by
  cases e with
  | master a =>
    cases hnext : s.master.next s.workers.length (s.worker.bind Worker.status) a with
    | some m =>
      simp only [step, hnext, touch_proxyTouched]
      exact next_proxyTouched hnext
    | none => simp only [step, hnext, proxyCall_none hnext, Option.getD_none]
  | worker i a =>
    simp only [step]
    split <;> rfl
  | deliver i =>
    simp only [step]
    split
    · split <;> rfl
    · rfl
  | signalWorker i sig =>
    simp only [step]
    split
    · split <;> rfl
    · rfl
  | signalMaster sig =>
    simp only [step]
    split
    · rfl
    · exact proxyTouched_catchSignal s sig
  | die =>
    simp only [step]
    split <;> rfl

private theorem proxyCall_turns {leftover : Option Nat} {e : Event} {s : State} {b : Bool}
    (h : s.master.Bracketed leftover) (hcall : proxyCall e s = some b) :
    s.master.proxyTouched ≠ b := by
  unfold proxyCall at hcall
  split at hcall
  · split at hcall <;> cases hcall
    next hpc => simp [h.touched (by simp [hpc]), hpc, MasterPc.touches]
  · split at hcall <;> cases hcall
    next hpc => simp [h.touched (by simp [hpc]), hpc, MasterPc.touches]
  · cases hcall

/-- Whatever happens in whatever order, the proxy is started and stopped in turn, and it is started
in the end exactly while a round stands between the two calls; the pid file holds the pid of the
master from `save_pidfile` to `remove_pidfile`, and outside of them it is what the first round
found, or gone once a round has written its own; and a reload never finds a service that is already
running. -/
theorem rounds_bracketed (pid : Nat) (pidfile : Option Nat) (es : List Event) :
    let s := (runEvents step es (start pid pidfile)).2
    let calls := visible step proxyCall es (start pid pidfile)
    ((false :: calls).IsChain (· ≠ ·) ∧
        (s.master.pc ≠ .died → calls.getLastD false = s.master.pc.touches)) ∧
      (s.master.pc.announces = true → s.master.pidfile = some s.master.pid) ∧
      (s.master.pc ≠ .died → s.master.pc.announces = false →
        s.master.pidfile = if s.master.handlers then none else pidfile) ∧
      (s.master.pc = .exited → s.master.pidfile = none) ∧
      (s.master.handlers = true → s.master.pc = .creating → ∀ alive,
        (step (.master (.create alive)) s).2.master.pc = .created) := by
  intro s calls
  have h : s.master.Bracketed pidfile := bracketed_runEvents pid pidfile es
  obtain ⟨halternate, hlast⟩ := visible_alternates (I := fun s : State => s.master.Bracketed pidfile)
    (fun e s hs => hs.moves (moves_step e s)) proxyTouched_step
    (fun e s b hs hcall => proxyCall_turns hs hcall) es (Master.Bracketed.init pid pidfile)
  refine ⟨⟨halternate, ?_⟩, h.announced, h.gone, ?_, ?_⟩
  · intro halive
    exact hlast.trans (h.touched halive)
  · intro hexited
    have hhandlers := h.handlers (.inl (h.exited hexited))
    have hgone := h.gone (by simp [hexited]) (by simp [hexited, MasterPc.announces])
    rwa [hhandlers, if_pos rfl] at hgone
  · intro hhandlers hcreating alive
    have hgone := h.gone (by simp [hcreating]) (by simp [hcreating, MasterPc.announces])
    rw [hhandlers, if_pos rfl] at hgone
    simp [step, Master.next, State.touch, hcreating, hgone]

/-! ## Why the loop ends -/

/-- A step that ends the service for good. -/
def AsksToEnd : Event → State → Prop
  | .signalMaster sig, s =>
    (sig = .term ∨ sig = .int) ∧ s.master.handlers = true ∧ s.master.pc.ended = false
  | .master .fail, s => s.master.pc = .failed
  | .master .reap, s => s.master.pc = .waiting ∧
      (s.worker.bind Worker.status = some (some .hup) ∨
        s.worker.bind Worker.status = some (some .other))
  | _, _ => False

private theorem touch_signaledExit (s : State) (a : MasterStep) :
    (s.touch a).master.signaledExit = s.master.signaledExit := by
  rcases State.touch_master (s := s) (a := a) with h | ⟨_, h⟩ <;> rw [h]

private theorem next_signaledExit {s : State} {a : MasterStep} {m : Master}
    (h : s.master.next s.workers.length (s.worker.bind Worker.status) a = some m) :
    m.signaledExit = true ↔ s.master.signaledExit = true ∨ AsksToEnd (.master a) s := by
  cases a <;> simp only [Master.next] at h
  case reap =>
    cases hstatus : s.worker.bind Worker.status with
    | none => simp [hstatus] at h
    | some sig =>
      simp only [hstatus] at h
      split at h
      · cases h
        simp_all [AsksToEnd]
      · cases h
  all_goals
    split at h
    · cases h
      simp_all [AsksToEnd]
    · cases h

private theorem next_none {s : State} {a : MasterStep}
    (h : s.master.next s.workers.length (s.worker.bind Worker.status) a = none) :
    ¬ AsksToEnd (.master a) s := by
  cases a <;> simp only [AsksToEnd, not_false_iff]
  case fail =>
    intro hfailed
    simp [Master.next, hfailed] at h
  case reap =>
    rintro ⟨hwaiting, hstatus | hstatus⟩ <;> simp [Master.next, hwaiting, hstatus] at h

private theorem signaledExit_catchSignal (s : State) (sig : Signal) :
    (s.catchSignal sig).master.signaledExit = true ↔
      s.master.signaledExit = true ∨ s.master.handlers = true ∧ (sig = .term ∨ sig = .int) := by
  cases hhandlers : s.master.handlers <;> cases sig <;>
    simp [State.catchSignal, hhandlers, State.stop_master, Master.catchSignal] <;> split <;> rfl

theorem signaledExit_step (e : Event) (s : State) :
    (step e s).2.master.signaledExit = true ↔
      s.master.signaledExit = true ∨ AsksToEnd e s := by
  cases e with
  | master a =>
    cases hnext : s.master.next s.workers.length (s.worker.bind Worker.status) a with
    | some m =>
      simp only [step, hnext, touch_signaledExit]
      exact next_signaledExit hnext
    | none =>
      simp only [step, hnext]
      simp [next_none hnext]
  | worker i a =>
    simp only [step, AsksToEnd, or_false]
    split <;> rfl
  | deliver i =>
    simp only [step, AsksToEnd, or_false]
    split
    · split <;> rfl
    · rfl
  | signalWorker i sig =>
    simp only [step, AsksToEnd, or_false]
    split
    · split <;> rfl
    · rfl
  | signalMaster sig =>
    cases hended : s.master.pc.ended with
    | true => simp [step, AsksToEnd, hended]
    | false =>
      simp only [step, hended, Bool.false_eq_true, if_false, signaledExit_catchSignal, AsksToEnd,
        and_true]
      tauto
  | die =>
    simp only [step, AsksToEnd, or_false]
    split <;> rfl

/-- The loop of `main` is left exactly when a signal asked for it, a round could not be started
or a worker crashed under the eyes of the master; everything else is a reload. -/
theorem exit_iff_asked (pid : Nat) (pidfile : Option Nat) (es : List Event) :
    let s := (runEvents step es (start pid pidfile)).2
    (s.master.signaledExit = true ↔
        ∃ before e after, es = before ++ e :: after ∧
          AsksToEnd e (runEvents step before (start pid pidfile)).2) ∧
      (s.master.pc = .exited → s.master.signaledExit = true) ∧
      (s.master.pc = .looping → (step (.master .test) s).2.master.pc =
        if s.master.signaledExit then .exited else .creating) := by
  intro s
  have hraised := runEvents_raised (f := fun s : State => s.master.signaledExit)
    signaledExit_step es (start pid pidfile)
  have hunset : (start pid pidfile).master.signaledExit = true ↔ False := by simp [start]
  rw [hunset, false_or] at hraised
  refine ⟨hraised, ?_, ?_⟩
  · exact (bracketed_runEvents pid pidfile es).exited
  · intro hlooping
    simp only [step, Master.next, hlooping, if_true, State.touch]

end DblService.Processes
