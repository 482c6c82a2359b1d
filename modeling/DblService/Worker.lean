import DblService.Framework.Run
import Mathlib.Logic.Function.Basic

/-!
# Stopping the worker

`Worker::run` tests the flag, takes its mutex and waits; `Service::signal_stop` sets the
flag and then wakes whoever waits, without the mutex.  The steps of the worker and of
any number of calls are interleaved.
-/

namespace DblService.Worker

open Framework

inductive Pc
  | updating
  | testing
  | tested
  | locked
  | waiting
  | woken  -- `wait_for` returned after a notification
  | timedOut  -- `wait_for` returned after the interval
  | stopping
  deriving DecidableEq

inductive Phase
  | ahead
  | flagged
  | completed
  deriving DecidableEq

inductive WorkerStep
  | update (updated : Bool)
  | test
  | lock
  | wait
  | timeout
  | resume

inductive Event (Call : Type)
  | setFlag (c : Call)
  | notifyAll (c : Call)
  | worker (w : WorkerStep)

structure State (Call : Type) where
  pc : Pc
  stopFlag : Bool
  calls : Call → Phase

/-- Where a step of the worker leads, if it is the next one. -/
def next (stopFlag : Bool) : Pc → WorkerStep → Option Pc
  | .updating, .update updated => some (if updated then .stopping else .testing)
  | .testing, .test => some (if stopFlag then .stopping else .tested)
  | .tested, .lock => some .locked
  | .locked, .wait => some .waiting
  | .waiting, .timeout => some .timedOut
  | .timedOut, .update updated => some (if updated then .stopping else .testing)
  | .woken, .resume => some .testing
  | _, _ => none

section

variable {Call : Type}

def start : State Call := ⟨.updating, false, fun _ => .ahead⟩

def step [DecidableEq Call] : Event Call → State Call → Bool × State Call
  | .setFlag c, s =>
    if s.calls c = .ahead then
      (true, { s with stopFlag := true, calls := Function.update s.calls c .flagged })
    else (false, s)
  | .notifyAll c, s =>
    if s.calls c = .flagged then
      -- wakes those who wait now, and nobody who waits later
      (true, { s with
        pc := if s.pc = .waiting then .woken else s.pc
        calls := Function.update s.calls c .completed })
    else (false, s)
  | .worker w, s =>
    match next s.stopFlag s.pc w with
    | some pc => (true, { s with pc })
    | none => (false, s)

/-! ## A stop request that is slept through -/

/-- The worker waits, a call is completed and no notification is still to come. -/
def Missed (s : State Call) : Prop :=
  s.pc = .waiting ∧ (∃ c, s.calls c = .completed) ∧ ∀ c, s.calls c ≠ .flagged

/-- The worker tested the flag and does not wait yet. -/
def Pc.isBetween (pc : Pc) : Prop := pc = .tested ∨ pc = .locked

/-- The last notification of the calls so far comes between the test and the wait. -/
def Lost : Event Call → State Call → Prop
  | .notifyAll c, s => s.pc.isBetween ∧ s.calls c = .flagged ∧ ∀ c', c' ≠ c → s.calls c' ≠ .flagged
  | _, _ => False

/-- A stop request seen by nobody is still to be notified. -/
structure Announced (s : State Call) : Prop where
  flag : ∀ c, s.calls c ≠ .ahead → s.stopFlag = true
  pending : s.pc.isBetween ∨ s.pc = .waiting → s.stopFlag = true → ∃ c, s.calls c = .flagged

private theorem Announced.not_missed {s : State Call} (h : Announced s) : ¬ Missed s := by
  rintro ⟨hwaiting, ⟨c, hc⟩, hnone⟩
  have hahead : s.calls c ≠ .ahead := by simp [hc]
  obtain ⟨c', hc'⟩ := h.pending (.inr hwaiting) (h.flag c hahead)
  exact hnone c' hc'

private theorem announced_start : Announced (start : State Call) := by
  constructor
  · intro c hc
    simp [start] at hc
  · intro _ hflag
    simp [start] at hflag

private theorem next_between {stopFlag : Bool} {pc pc' : Pc} {w : WorkerStep}
    (h : next stopFlag pc w = some pc') (hpc' : pc'.isBetween ∨ pc' = .waiting) :
    stopFlag = false ∨ pc.isBetween := by
  cases pc <;> cases w <;> simp only [next, Option.some.injEq, reduceCtorEq] at h
  case updating.update updated =>
    cases updated <;> subst h <;> simp [Pc.isBetween] at hpc'
  case testing.test =>
    cases stopFlag with
    | false => exact .inl rfl
    | true =>
      subst h
      simp [Pc.isBetween] at hpc'
  case tested.lock => exact .inr (.inl rfl)
  case locked.wait => exact .inr (.inr rfl)
  case waiting.timeout =>
    subst h
    simp [Pc.isBetween] at hpc'
  case woken.resume =>
    subst h
    simp [Pc.isBetween] at hpc'
  case timedOut.update updated =>
    cases updated <;> subst h <;> simp [Pc.isBetween] at hpc'

variable [DecidableEq Call]

private theorem announced_setFlag {s : State Call} (h : Announced s) (c : Call) :
    Announced (step (.setFlag c) s).2 := by
  by_cases hc : s.calls c = .ahead
  · simp only [step, hc, if_true]
    constructor
    · intro _ _
      rfl
    · intro _ _
      exact ⟨c, Function.update_self ..⟩
  · simp only [step, hc, if_false]
    exact h

private theorem announced_notifyAll {s : State Call} (h : Announced s) {c : Call}
    (hlost : ¬ Lost (.notifyAll c) s) : Announced (step (.notifyAll c) s).2 := by
  by_cases hc : s.calls c = .flagged
  · simp only [step, hc, if_true]
    have hahead : s.calls c ≠ .ahead := by simp [hc]
    constructor
    · intro _ _
      exact h.flag c hahead
    · intro hpc _
      by_cases hwaiting : s.pc = .waiting
      · simp [hwaiting, Pc.isBetween] at hpc
      · -- another call has to notify yet
        simp only [hwaiting, if_false, or_false] at hpc
        by_contra hnone
        apply hlost
        apply And.intro hpc
        apply And.intro hc
        intro c' hne hflagged
        apply hnone
        exact ⟨c', (Function.update_of_ne hne ..).trans hflagged⟩
  · simp only [step, hc, if_false]
    exact h

private theorem announced_worker {s : State Call} (h : Announced s) (w : WorkerStep) :
    Announced (step (.worker w) s).2 := by
  cases hnext : next s.stopFlag s.pc w with
  | none =>
    simp only [step, hnext]
    exact h
  | some pc =>
    simp only [step, hnext]
    constructor
    · exact h.flag
    · intro hpc hflag
      rcases next_between hnext hpc with hfalse | hbetween
      · exact absurd (hfalse.symm.trans hflag) Bool.false_ne_true
      · exact h.pending (.inl hbetween) hflag

/-- Every step but a lost notification keeps what is announced. -/
theorem announced_step (e : Event Call) (s : State Call) (h : Announced s) (hlost : ¬ Lost e s) :
    Announced (step e s).2 := by
  cases e with
  | setFlag c => exact announced_setFlag h c
  | notifyAll c => exact announced_notifyAll h hlost
  | worker w => exact announced_worker h w

/-- A lost notification is slept through as soon as the worker goes on. -/
theorem missed_of_lost {e : Event Call} {s : State Call} (h : Lost e s) :
    ∃ ws : List WorkerStep, Missed (runEvents step (e :: ws.map .worker) s).2 := by
  cases e with
  | setFlag c => exact h.elim
  | worker w => exact h.elim
  | notifyAll c =>
    obtain ⟨hbetween, hc, hlast⟩ := h
    have hnone : ∀ c', Function.update s.calls c .completed c' ≠ .flagged := by
      intro c'
      by_cases heq : c' = c
      · rw [heq, Function.update_self]
        decide
      · rw [Function.update_of_ne heq]
        exact hlast c' heq
    have hcompleted : ∃ c', Function.update s.calls c .completed c' = .completed :=
      ⟨c, Function.update_self ..⟩
    rcases hbetween with hpc | hpc
    · apply Exists.intro [.lock, .wait]
      simp only [List.map_cons, List.map_nil, runEvents, step, hc, hpc, next, if_true]
      exact ⟨rfl, hcompleted, hnone⟩
    · apply Exists.intro [.wait]
      simp only [List.map_cons, List.map_nil, runEvents, step, hc, hpc, next, if_true]
      exact ⟨rfl, hcompleted, hnone⟩

/-- Where no notification of a run comes last between a test and its wait, no stop request is
slept through. -/
theorem not_missed_runEvents (Call : Type) [DecidableEq Call] (es pre : List (Event Call))
    (h : Along step (fun e s => ¬ Lost e s) es start) (hpre : pre <+: es) :
    ¬ Missed (runEvents step pre start).2 := by
  obtain ⟨rest, rfl⟩ := hpre
  have hannounced : Announced (runEvents step pre (start : State Call)).2 :=
    Along.invariant (fun e s hs hlost => announced_step e s hs hlost) h.of_append announced_start
  exact hannounced.not_missed

end

/-! ## One call -/

def sleptThrough : List (Event Unit) :=
  [.worker (.update false), .worker .test, .setFlag (), .notifyAll (), .worker .lock, .worker .wait]

theorem missed_sleptThrough : Missed (runEvents step sleptThrough start).2 := by
  have hcompleted :
      (runEvents step sleptThrough (start : State Unit)).2.calls () = .completed := rfl
  refine ⟨rfl, ⟨(), hcompleted⟩, ?_⟩
  intro c hflagged
  rw [hcompleted] at hflagged
  cases hflagged

/-- The notification comes when the worker waits. -/
theorem not_missed_woken :
    ¬ Missed (runEvents step
      [.worker (.update false), .worker .test, .worker .lock, .worker .wait, .setFlag (),
        .notifyAll ()] (start : State Unit)).2 := by
  apply not_missed_runEvents Unit _ _ _ List.prefix_rfl
  refine ⟨id, id, id, id, id, ?_, trivial⟩
  rintro ⟨hbetween, _⟩
  rcases hbetween with h | h <;> cases h

end DblService.Worker
