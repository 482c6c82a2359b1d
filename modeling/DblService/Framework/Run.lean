import Mathlib.Data.List.Induction

/-!
# Runs of a system

A system answers one event after the other: `step e s` is the answer to `e` in the
state `s` and the state it leaves.  `Along` says what every step of a run meets;
invariants of single steps become invariants of runs, and events that leave no
trace can be deleted from a run.
-/

namespace DblService.Framework

variable {σ ε ρ : Type}

/-- The answers to the events in order and the last state. -/
def runEvents (step : ε → σ → ρ × σ) : List ε → σ → List ρ × σ
  | [], s => ([], s)
  | e :: es, s =>
    let x := step e s
    let y := runEvents step es x.2
    (x.1 :: y.1, y.2)

/-- Every step of the run meets `P`. -/
def Along (step : ε → σ → ρ × σ) (P : ε → σ → Prop) : List ε → σ → Prop
  | [], _ => True
  | e :: es, s => P e s ∧ Along step P es (step e s).2

/-- The events of a run that are not answered by a failure. -/
def surviving (step : ε → σ → ρ × σ) (failed : ρ → Bool) : List ε → σ → List ε
  | [], _ => []
  | e :: es, s =>
    let x := step e s
    if failed x.1 then surviving step failed es x.2 else e :: surviving step failed es x.2

variable {step : ε → σ → ρ × σ} {P Q : ε → σ → Prop} {I : σ → Prop}

theorem runEvents_append (es fs : List ε) (s : σ) :
    (runEvents step (es ++ fs) s).2 = (runEvents step fs (runEvents step es s).2).2 := by
  induction es generalizing s with
  | nil => rfl
  | cons e es ih => exact ih _

/-- A property of the events so far and of the state they lead to, by induction on the last
event. -/
theorem runEvents_invariant {R : List ε → σ → Prop} {s : σ} (hinit : R [] s)
    (hstep : ∀ es e, R es (runEvents step es s).2 →
      R (es ++ [e]) (step e (runEvents step es s).2).2) (es : List ε) :
    R es (runEvents step es s).2 := by
  induction es using List.reverseRecOn with
  | nil => exact hinit
  | append_singleton es e ih =>
    rw [runEvents_append]
    exact hstep es e ih

/-- A flag that every step leaves or raises is raised by one of them. -/
theorem runEvents_raised {f : σ → Bool} {Raises : ε → σ → Prop}
    (hstep : ∀ e s, f (step e s).2 = true ↔ f s = true ∨ Raises e s)
    (es : List ε) (s : σ) :
    f (runEvents step es s).2 = true ↔
      f s = true ∨ ∃ before e after, es = before ++ e :: after ∧
        Raises e (runEvents step before s).2 := by
  induction es generalizing s with
  | nil => simp [runEvents]
  | cons e es ih =>
    simp only [runEvents]
    rw [ih, hstep]
    constructor
    · rintro ((h | h) | ⟨before, e', after, rfl, h⟩)
      · exact .inl h
      · exact .inr ⟨[], e, es, rfl, h⟩
      · exact .inr ⟨e :: before, e', after, rfl, h⟩
    · rintro (h | ⟨before, e', after, hes, h⟩)
      · exact .inl (.inl h)
      · cases before with
        | nil =>
          cases hes
          exact .inl (.inr h)
        | cons e'' before =>
          cases hes
          exact .inr ⟨before, e', after, rfl, h⟩

namespace Along

instance decidable [h : ∀ e s, Decidable (P e s)] :
    (es : List ε) → (s : σ) → Decidable (Along step P es s)
  | [], _ => isTrue trivial
  | e :: es, s =>
    have : Decidable (Along step P es (step e s).2) := decidable es _
    inferInstanceAs (Decidable (P e s ∧ Along step P es (step e s).2))

theorem of_forall {es : List ε} (h : ∀ e ∈ es, ∀ s, P e s) (s : σ) : Along step P es s := by
  induction es generalizing s with
  | nil => trivial
  | cons e es ih =>
    exact ⟨h e List.mem_cons_self s, ih (fun x hx => h x (List.mem_cons_of_mem _ hx)) _⟩

theorem of_append {es fs : List ε} {s : σ} (h : Along step P (es ++ fs) s) : Along step P es s := by
  induction es generalizing s with
  | nil => trivial
  | cons e es ih => exact ⟨h.1, ih h.2⟩

/-- An invariant of the steps that meet `P` holds after every run of such steps. -/
theorem invariant (hstep : ∀ e s, I s → P e s → I (step e s).2) {es : List ε} {s : σ}
    (h : Along step P es s) (hs : I s) : I (runEvents step es s).2 := by
  induction es generalizing s with
  | nil => exact hs
  | cons e es ih => exact ih h.2 (hstep e s hs h.1)

/-- What follows from `P` under an invariant is met along the run as well. -/
theorem mono (hstep : ∀ e s, I s → P e s → I (step e s).2 ∧ Q e s) {es : List ε} {s : σ}
    (h : Along step P es s) (hs : I s) : Along step Q es s := by
  induction es generalizing s with
  | nil => trivial
  | cons e es ih =>
    have hnext := hstep e s hs h.1
    exact ⟨hnext.2, ih h.2 hnext.1⟩

/-- Where failures leave the state alone, deleting the failed events changes neither the
other answers nor the last state. -/
theorem delete {failed : ρ → Bool} {es : List ε} {s : σ}
    (h : Along step (fun e s => failed (step e s).1 = true → (step e s).2 = s) es s) :
    runEvents step (surviving step failed es s) s =
      ((runEvents step es s).1.filter fun r => !failed r, (runEvents step es s).2) := by
  induction es generalizing s with
  | nil => rfl
  | cons e es ih =>
    have hrest := ih h.2
    cases hf : failed (step e s).1 with
    | true =>
      have hsame := h.1 hf
      have hskip : surviving step failed (e :: es) s = surviving step failed es (step e s).2 := by
        simp [surviving, hf]
      rw [hskip]
      rw [hsame] at hrest ⊢
      rw [hrest]
      simp [runEvents, hf, hsame]
    | false =>
      have hkeep : surviving step failed (e :: es) s =
          e :: surviving step failed es (step e s).2 := by
        simp [surviving, hf]
      rw [hkeep]
      simp [runEvents, hrest, hf]

end Along

end DblService.Framework
