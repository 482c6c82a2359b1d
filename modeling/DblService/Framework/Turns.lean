import Mathlib.Tactic.SplitIfs
import DblService.Framework.Program

/-!
# Programs that take turns

Several programs run on one state.  A turn of a program takes it past the next call that ends a
scope: the calls of a scope stay together, and between two scopes the others can change the
state.
-/

namespace DblService.Framework.Program

variable {F : Signature} {α β σ : Type} {ends : F.Op → Bool} {h : Handler F σ}

/-- The calls up to the first that ends a scope, and what is left of the program. -/
def turn (ends : F.Op → Bool) (h : Handler F σ) : Program F α → σ → Option (Program F α × σ)
  | .done a, s => some (.done a, s)
  | .call op next, s => (h op s).bind fun x =>
    if ends op then some (next x.1, x.2) else turn ends h (next x.1) x.2

/-! ## Programs of one scope -/

/-- Every path of the program ends with the first call that ends a scope. -/
def OneScope (ends : F.Op → Bool) : Program F α → Prop
  | .done _ => False
  | .call op next =>
    if ends op then ∀ r, ∃ a, next r = .done a else ∀ r, (next r).OneScope ends

namespace OneScope

variable {p : Program F α} {f : α → Program F β}

/-- Calls within the scope, and then its end. -/
theorem of_uses (hp : p.Uses fun op => ends op = false) (hf : ∀ a, (f a).OneScope ends) :
    (p.bind f).OneScope ends := by
  induction p with
  | done a => exact hf a
  | call op next ih =>
    simp only [bind, OneScope, hp.1, Bool.false_eq_true, if_false]
    exact fun r => ih r (hp.2 r)

/-- The answer may be worked on. -/
theorem bind_done (hp : p.OneScope ends) (hf : ∀ a, ∃ b, f a = .done b) :
    (p.bind f).OneScope ends := by
  induction p with
  | done a => exact hp.elim
  | call op next ih =>
    simp only [OneScope] at hp
    simp only [bind, OneScope]
    split_ifs at hp ⊢ with hends
    · intro r
      obtain ⟨a, ha⟩ := hp r
      rw [ha]
      exact hf a
    · exact fun r => ih r (hp r)

/-- A turn of what begins with a scope is the run of that scope. -/
theorem turn_bind (hp : p.OneScope ends) (f : α → Program F β) (s : σ) :
    (p.bind f).turn ends h s = (p.run h s).map fun x => (f x.1, x.2) := by
  induction p generalizing s with
  | done a => exact hp.elim
  | call op next ih =>
    simp only [OneScope] at hp
    simp only [bind, turn, run]
    cases h op s with
    | none => rfl
    | some x =>
      obtain ⟨r, s₁⟩ := x
      split_ifs at hp ⊢ with hends
      · obtain ⟨a, ha⟩ := hp r
        simp [ha, bind, run]
      · exact ih r (hp r) s₁

theorem turn_eq (hp : p.OneScope ends) (s : σ) :
    p.turn ends h s = (p.run h s).map fun x => (.done x.1, x.2) := by
  rw [← hp.turn_bind .done, Program.bind_done]

end OneScope

end DblService.Framework.Program
