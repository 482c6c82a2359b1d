import DblService.Framework.Program
import Mathlib.Data.List.Basic
import Mathlib.Logic.Function.Basic
import Mathlib.Logic.Relation

/-!
# Monitors and threads

A monitor follows the calls of a program: it says which call is allowed, and what it
keeps after the answer.  Programs that follow a monitor, whatever they are answered, can
be interleaved: what one step of a thread preserves holds in every reachable state.
-/

namespace DblService.Framework

variable {F : Signature} {α β σ μ ε : Type}

/-- A protocol for the calls of one program. -/
structure Monitor (F : Signature) (μ : Type) where
  allowed : μ → F.Op → Prop
  next : μ → (op : F.Op) → F.Reply op → μ

namespace Program

/-- From `m` every call is allowed, whatever was answered, and the program ends at `m'`. -/
def Follows (M : Monitor F μ) (m' : μ) : Program F α → μ → Prop
  | .done _, m => m = m'
  | .call op next, m => M.allowed m op ∧ ∀ r, (next r).Follows M m' (M.next m op r)

variable {M : Monitor F μ} {m m₁ m₂ : μ}

theorem Follows.bind {p : Program F α} {f : α → Program F β} (hp : p.Follows M m₁ m)
    (hf : ∀ a, (f a).Follows M m₂ m₁) : (p.bind f).Follows M m₂ m := by
  induction p generalizing m with
  | done a =>
    cases hp
    exact hf a
  | call op next ih => exact ⟨hp.1, fun r => ih r (hp.2 r)⟩

end Program

namespace Code

/-- The program ends, by a value or by an exception, where the monitor was before. -/
def Returns (M : Monitor F μ) (m : μ) (p : Code F ε α) : Prop := p.run.Follows M m m

namespace Returns

variable {M : Monitor F μ} {m : μ} {p : Code F ε α}

theorem pure (a : α) : Returns M m (Pure.pure a : Code F ε α) := rfl

theorem throw (e : ε) : Returns M m (MonadExcept.throw e : Code F ε α) := rfl

theorem bind {f : α → Code F ε β} (hp : Returns M m p) (hf : ∀ a, Returns M m (f a)) :
    Returns M m (p >>= f) := by
  apply Program.Follows.bind hp
  intro r
  cases r with
  | error e => rfl
  | ok a => exact hf a

theorem tryCatch {f : ε → Code F ε α} (hp : Returns M m p) (hf : ∀ e, Returns M m (f e)) :
    Returns M m (MonadExcept.tryCatch p f) := by
  apply Program.Follows.bind hp
  intro r
  cases r with
  | error e => exact hf e
  | ok a => rfl

theorem forM {xs : List β} {f : β → Code F ε PUnit} (hf : ∀ x ∈ xs, Returns M m (f x)) :
    Returns M m (xs.forM f) := by
  induction xs with
  | nil => exact Returns.pure _
  | cons x xs ih =>
    exact (hf x List.mem_cons_self).bind fun _ =>
      ih fun y hy => hf y (List.mem_cons_of_mem _ hy)

theorem lift {p : Program F α} (hp : p.Follows M m m) :
    Returns M m (ExceptT.lift p : Code F ε α) :=
  Program.Follows.bind hp fun _ => rfl

end Returns

end Code

/-! ## Threads -/

/-- Threads with the rest of their programs, over one shared state. -/
structure Threads (F : Signature) (σ : Type) where
  shared : σ
  programs : List (Program F Unit)

namespace Threads

/-- A thread whose program has ended begins another one, or the next call of a thread is
served. -/
inductive Step (starts : Program F Unit → Prop)
    (serves : Nat → (op : F.Op) → σ → F.Reply op → σ → Prop) (w : Threads F σ) :
    Threads F σ → Prop
  | start (t : Nat) (p : Program F Unit) (hended : w.programs[t]? = some (.done ()))
      (hp : starts p) : Step starts serves w { w with programs := w.programs.set t p }
  | call (t : Nat) (op : F.Op) (next : F.Reply op → Program F Unit) (r : F.Reply op) (s : σ)
      (hcall : w.programs[t]? = some (.call op next)) (hserves : serves t op w.shared r s) :
      Step starts serves w { shared := s, programs := w.programs.set t (next r) }

/-- With `m` kept of the threads, each follows the monitor from where it is, and the shared
state agrees. -/
structure Keeps (M : Monitor F μ) (idle : μ) (R : σ → (Nat → μ) → Prop) (w : Threads F σ)
    (m : Nat → μ) : Prop where
  agrees : R w.shared m
  follows : ∀ t (p : Program F Unit), w.programs[t]? = some p → p.Follows M idle (m t)
  absent : ∀ t, w.programs[t]? = none → m t = idle

def Monitored (M : Monitor F μ) (idle : μ) (R : σ → (Nat → μ) → Prop) (w : Threads F σ) : Prop :=
  ∃ m, w.Keeps M idle R m

variable {starts : Program F Unit → Prop}
  {serves : Nat → (op : F.Op) → σ → F.Reply op → σ → Prop} {M : Monitor F μ} {idle : μ}
  {R : σ → (Nat → μ) → Prop}

theorem getElem?_set_cases {xs : List α} {t u : Nat} {x y : α} (h : (xs.set t x)[u]? = some y) :
    (t = u ∧ y = x) ∨ (t ≠ u ∧ xs[u]? = some y) := by
  rw [List.getElem?_set] at h
  split_ifs at h with htu hlt
  · exact Or.inl ⟨htu, (Option.some.inj h).symm⟩
  · exact Or.inr ⟨htu, h⟩

/-- One step of one thread. -/
theorem Step.monitored (hstarts : ∀ p, starts p → p.Follows M idle idle)
    (hserves : ∀ t op s r s' (m : Nat → μ), R s m → M.allowed (m t) op → serves t op s r s' →
      R s' (Function.update m t (M.next (m t) op r)))
    {w w' : Threads F σ} (hstep : Step starts serves w w') (hw : w.Monitored M idle R) :
    w'.Monitored M idle R := by
  obtain ⟨m, hR, hfollows, habsent⟩ := hw
  cases hstep with
  | start t p hended hp =>
    have hidle : m t = idle := hfollows t _ hended
    refine ⟨m, hR, ?_, fun u hu => habsent u ?_⟩
    · intro u q hq
      rcases getElem?_set_cases hq with ⟨rfl, rfl⟩ | ⟨_, hq⟩
      · rw [hidle]
        exact hstarts q hp
      · exact hfollows u q hq
    · simpa using hu
  | call t op next r s hcall hserve =>
    obtain ⟨hallowed, hnext⟩ := hfollows t _ hcall
    refine ⟨Function.update m t (M.next (m t) op r), hserves t op _ r s m hR hallowed hserve,
      ?_, ?_⟩
    · intro u q hq
      rcases getElem?_set_cases hq with ⟨rfl, rfl⟩ | ⟨hne, hq⟩
      · rw [Function.update_self]
        exact hnext r
      · rw [Function.update_of_ne (Ne.symm hne)]
        exact hfollows u q hq
    · intro u hu
      have hnone : w.programs[u]? = none := by simpa using hu
      have hne : u ≠ t := by
        rintro rfl
        rw [hcall] at hnone
        cases hnone
      rw [Function.update_of_ne hne]
      exact habsent u hnone

/-- Any interleaving of any number of steps. -/
theorem monitored_of_reachable (hstarts : ∀ p, starts p → p.Follows M idle idle)
    (hserves : ∀ t op s r s' (m : Nat → μ), R s m → M.allowed (m t) op → serves t op s r s' →
      R s' (Function.update m t (M.next (m t) op r)))
    {w w' : Threads F σ} (hreach : Relation.ReflTransGen (Step starts serves) w w')
    (hw : w.Monitored M idle R) : w'.Monitored M idle R := by
  induction hreach with
  | refl => exact hw
  | tail _ hstep ih => exact hstep.monitored hstarts hserves ih

/-- Where what serves the calls of one shared state is matched by what serves another, threads
that run on the one run on the other as well. -/
theorem simulated {τ : Type} {serves' : Nat → (op : F.Op) → τ → F.Reply op → τ → Prop}
    {R : σ → τ → Prop} (hserves : ∀ t op s r s' u, R s u → serves t op s r s' →
      ∃ u', serves' t op u r u' ∧ R s' u')
    {w w' : Threads F σ} (hreach : Relation.ReflTransGen (Step starts serves) w w') {u : τ}
    (hu : R w.shared u) :
    ∃ u', Relation.ReflTransGen (Step starts serves') ⟨u, w.programs⟩ ⟨u', w'.programs⟩ ∧
      R w'.shared u' := by
  induction hreach with
  | refl => exact ⟨u, .refl, hu⟩
  | tail _ hstep ih =>
    obtain ⟨u₁, hreach, hu₁⟩ := ih
    cases hstep with
    | start t p hended hp => exact ⟨u₁, hreach.tail (.start t p hended hp), hu₁⟩
    | call t op next r s hcall hserve =>
      obtain ⟨u₂, hserve', hu₂⟩ := hserves t op _ r s u₁ hu₁ hserve
      exact ⟨u₂, hreach.tail (.call t op next r u₂ hcall hserve'), hu₂⟩

end Threads

end DblService.Framework
