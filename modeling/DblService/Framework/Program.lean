import Mathlib.Logic.Basic

/-!
# Programs over an effect signature

A program is a tree of calls to its surroundings: every node names a call and
holds one continuation per possible answer.  A handler gives the calls a meaning
on a state, and may block.  Exceptions are the `ExceptT` layer over programs, so
the same text is a program with `do`, `throw` and `try`, whatever the handler.
-/

namespace DblService.Framework

/-- The calls a program may make, and the type of the answer of each. -/
structure Signature where
  Op : Type
  Reply : Op → Type

inductive Program (F : Signature) (α : Type) where
  | done (a : α)
  | call (op : F.Op) (next : F.Reply op → Program F α)

variable {F : Signature} {α β γ : Type}

namespace Program

def bind : Program F α → (α → Program F β) → Program F β
  | .done a, f => f a
  | .call op next, f => .call op fun r => (next r).bind f

instance : Monad (Program F) where
  pure := .done
  bind := bind

def perform (op : F.Op) : Program F (F.Reply op) := .call op .done

theorem bind_done (p : Program F α) : p.bind .done = p := by
  induction p with
  | done a => rfl
  | call op next ih =>
    simp only [bind]
    congr 1
    funext r
    exact ih r

theorem bind_assoc (p : Program F α) (f : α → Program F β) (g : β → Program F γ) :
    (p.bind f).bind g = p.bind fun a => (f a).bind g := by
  induction p with
  | done a => rfl
  | call op next ih =>
    simp only [bind]
    congr 1
    funext r
    exact ih r

instance : LawfulMonad (Program F) :=
  LawfulMonad.mk' _ bind_done (fun _ _ => rfl) bind_assoc

/-- Every call on every path of the program satisfies `P`. -/
def Uses (P : F.Op → Prop) : Program F α → Prop
  | .done _ => True
  | .call op next => P op ∧ ∀ r, (next r).Uses P

theorem Uses.bind {P : F.Op → Prop} {p : Program F α} {f : α → Program F β}
    (hp : p.Uses P) (hf : ∀ a, (f a).Uses P) : (p.bind f).Uses P := by
  induction p with
  | done a => exact hf a
  | call op next ih => exact ⟨hp.1, fun r => ih r (hp.2 r)⟩

theorem Uses.mono {P Q : F.Op → Prop} {p : Program F α} (hp : p.Uses P) (h : ∀ op, P op → Q op) :
    p.Uses Q := by
  induction p with
  | done a => trivial
  | call op next ih => exact ⟨h op hp.1, fun r => ih r (hp.2 r)⟩

end Program

/-- The meaning of the calls on a state; `none` is a call that blocks for ever. -/
abbrev Handler (F : Signature) (σ : Type) := (op : F.Op) → σ → Option (F.Reply op × σ)

variable {σ τ : Type}

namespace Program

def run (h : Handler F σ) : Program F α → σ → Option (α × σ)
  | .done a, s => some (a, s)
  | .call op next, s => (h op s).bind fun x => (next x.1).run h x.2

theorem run_bind (h : Handler F σ) (p : Program F α) (f : α → Program F β) (s : σ) :
    (p.bind f).run h s = (p.run h s).bind fun x => (f x.1).run h x.2 := by
  induction p generalizing s with
  | done a => rfl
  | call op next ih =>
    simp only [bind, run]
    cases h op s with
    | none => rfl
    | some x => exact ih x.1 x.2

/-- `run_bind` for the bind of `do`. -/
theorem run_bind' (h : Handler F σ) (p : Program F α) (f : α → Program F β) (s : σ) :
    (p >>= f).run h s = (p.run h s).bind fun x => (f x.1).run h x.2 :=
  run_bind h p f s

/-- A handler that answers like another on related states runs every program
alike: the abstract run is also a run of the concrete one. -/
theorem run_simulates {h : Handler F σ} {g : Handler F τ} {R : σ → τ → Prop}
    (hstep : ∀ op s t r s', R s t → h op s = some (r, s') → ∃ t', g op t = some (r, t') ∧ R s' t')
    (p : Program F α) {s s' : σ} {t : τ} {a : α} (hR : R s t) (hrun : p.run h s = some (a, s')) :
    ∃ t', p.run g t = some (a, t') ∧ R s' t' := by
  induction p generalizing s t with
  | done b =>
    simp only [run, Option.some.injEq, Prod.mk.injEq] at hrun
    obtain ⟨rfl, rfl⟩ := hrun
    exact ⟨t, rfl, hR⟩
  | call op next ih =>
    simp only [run, Option.bind_eq_some_iff] at hrun
    obtain ⟨⟨r, s₁⟩, hop, hnext⟩ := hrun
    obtain ⟨t₁, hg, hR₁⟩ := hstep op s t r s₁ hR hop
    obtain ⟨t', hrun', hR'⟩ := ih r hR₁ hnext
    exact ⟨t', by simp only [run, hg, Option.bind_some, hrun'], hR'⟩

end Program

/-! ## Exceptions -/

/-- A program that ends with a value or with an exception. -/
abbrev Code (F : Signature) (ε α : Type) := ExceptT ε (Program F) α

namespace Code

variable {ε : Type}

/-- The run of a program with exceptions. -/
def exec (h : Handler F σ) (p : Code F ε α) (s : σ) : Option (Except ε α × σ) := p.run.run h s

variable (h : Handler F σ) (s : σ)

@[simp] theorem exec_pure (a : α) : exec h (pure a : Code F ε α) s = some (.ok a, s) := rfl

@[simp] theorem exec_throw (e : ε) : exec h (throw e : Code F ε α) s = some (.error e, s) := rfl

theorem exec_bind (p : Code F ε α) (f : α → Code F ε β) :
    exec h (p >>= f) s = (exec h p s).bind fun x =>
      match x.1 with
      | .ok a => exec h (f a) x.2
      | .error e => some (.error e, x.2) := by
  change ((ExceptT.run p).bind _).run h s = _
  rw [Program.run_bind]
  unfold exec
  cases (ExceptT.run p).run h s with
  | none => rfl
  | some x =>
    obtain ⟨r, s₁⟩ := x
    cases r <;> rfl

theorem exec_tryCatch (p : Code F ε α) (f : ε → Code F ε α) :
    exec h (tryCatch p f) s = (exec h p s).bind fun x =>
      match x.1 with
      | .ok a => some (.ok a, x.2)
      | .error e => exec h (f e) x.2 := by
  change ((ExceptT.run p).bind _).run h s = _
  rw [Program.run_bind]
  unfold exec
  cases (ExceptT.run p).run h s with
  | none => rfl
  | some x =>
    obtain ⟨r, s₁⟩ := x
    cases r <;> rfl

theorem exec_map (g : α → β) (p : Code F ε α) :
    exec h (g <$> p) s = (exec h p s).map fun x => (x.1.map g, x.2) := by
  rw [map_eq_pure_bind, exec_bind]
  cases exec h p s with
  | none => rfl
  | some x =>
    obtain ⟨r, s₁⟩ := x
    cases r <;> rfl

@[simp] theorem exec_lift (p : Program F α) :
    exec h (ExceptT.lift p : Code F ε α) s = (p.run h s).map fun x => (.ok x.1, x.2) := by
  change ((p.bind _).run h s) = _
  rw [Program.run_bind]
  cases p.run h s with
  | none => rfl
  | some x => rfl

/-- From every state with `I` the program ends, in a state with `I`. -/
def Keeps (h : Handler F σ) (I : σ → Prop) (p : Code F ε α) : Prop :=
  ∀ s, I s → ∃ r s', exec h p s = some (r, s') ∧ I s'

namespace Keeps

variable {h : Handler F σ} {I : σ → Prop} {p : Code F ε α}

theorem pure (a : α) : Keeps h I (Pure.pure a : Code F ε α) := fun s hs => ⟨.ok a, s, rfl, hs⟩

theorem throw (e : ε) : Keeps h I (MonadExcept.throw e : Code F ε α) :=
  fun s hs => ⟨.error e, s, rfl, hs⟩

theorem bind {f : α → Code F ε β} (hp : Keeps h I p) (hf : ∀ a, Keeps h I (f a)) :
    Keeps h I (p >>= f) := by
  intro s hs
  obtain ⟨r, s₁, hrun, hs₁⟩ := hp s hs
  rw [exec_bind, hrun]
  cases r with
  | error e => exact ⟨.error e, s₁, rfl, hs₁⟩
  | ok a => exact hf a s₁ hs₁

theorem tryCatch {f : ε → Code F ε α} (hp : Keeps h I p) (hf : ∀ e, Keeps h I (f e)) :
    Keeps h I (MonadExcept.tryCatch p f) := by
  intro s hs
  obtain ⟨r, s₁, hrun, hs₁⟩ := hp s hs
  rw [exec_tryCatch, hrun]
  cases r with
  | error e => exact hf e s₁ hs₁
  | ok a => exact ⟨.ok a, s₁, rfl, hs₁⟩

theorem forM {xs : List β} {f : β → Code F ε PUnit} (hf : ∀ x ∈ xs, Keeps h I (f x)) :
    Keeps h I (xs.forM f) := by
  induction xs with
  | nil => exact Keeps.pure _
  | cons x xs ih =>
    exact (hf x List.mem_cons_self).bind fun _ =>
      ih fun y hy => hf y (List.mem_cons_of_mem _ hy)

end Keeps

/-- `Keeps`, and every value returned satisfies `Q`. -/
def Yields (h : Handler F σ) (I : σ → Prop) (p : Code F ε α) (Q : α → Prop) : Prop :=
  ∀ s, I s → ∃ r s', exec h p s = some (r, s') ∧ I s' ∧ ∀ a, r = .ok a → Q a

theorem Yields.bind {h : Handler F σ} {I : σ → Prop} {p : Code F ε α} {Q : α → Prop}
    {f : α → Code F ε β} (hp : Yields h I p Q) (hf : ∀ a, Q a → Keeps h I (f a)) :
    Keeps h I (p >>= f) := by
  intro s hs
  obtain ⟨r, s₁, hrun, hs₁, hQ⟩ := hp s hs
  rw [exec_bind, hrun]
  cases r with
  | error e => exact ⟨.error e, s₁, rfl, hs₁⟩
  | ok a => exact hf a (hQ a rfl) s₁ hs₁

end Code

end DblService.Framework
