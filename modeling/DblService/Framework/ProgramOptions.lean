import Mathlib.Logic.Function.Basic
import Mathlib.Data.List.Basic

/-!
# Options of a program

The options of a program take their values from several sources in turn, and what an
earlier source gives wins over a later one and over the default.  `notify` writes the
stored values, one option after the other, to the fields of the settings they are bound
to: of several options bound to one field the last one decides.
-/

namespace DblService.Framework

/-- Where the value of an option goes: to a field of the settings, or to none of them. -/
inductive Target (Kind Field : Type)
  | field (f : Field)
  | other (k : Kind)
  deriving DecidableEq

namespace Target

variable {Kind Field : Type} {Carrier : Kind → Type} {kindOf : Field → Kind}

@[reducible] def kind (kindOf : Field → Kind) : Target Kind Field → Kind
  | .field f => kindOf f
  | .other k => k

def isField : Target Kind Field → Bool
  | .field _ => true
  | .other _ => false

def write [DecidableEq Field] : (t : Target Kind Field) → Carrier (t.kind kindOf) →
    ((f : Field) → Carrier (kindOf f)) → (f : Field) → Carrier (kindOf f)
  | .field f, x, s => Function.update s f x
  | .other _, _, s => s

def read : (t : Target Kind Field) → ((f : Field) → Carrier (kindOf f)) →
    Option (Carrier (t.kind kindOf))
  | .field f, s => some (s f)
  | .other _, _ => none

theorem read_write [DecidableEq Field] {t : Target Kind Field} (h : t.isField = true)
    (x : Carrier (t.kind kindOf)) (s : (f : Field) → Carrier (kindOf f)) :
    t.read (t.write x s) = some x := by
  cases t with
  | field f =>
    change some (Function.update s f x f) = some x
    rw [Function.update_self]
  | other k => simp [isField] at h

theorem read_write_of_ne [DecidableEq Field] {t t' : Target Kind Field} (h : t ≠ t')
    (x : Carrier (t'.kind kindOf)) (s : (f : Field) → Carrier (kindOf f)) :
    t.read (t'.write x s) = t.read s := by
  cases t with
  | other k => rfl
  | field f =>
    cases t' with
    | other k => rfl
    | field f' =>
      have hf : f ≠ f' := by
        intro heq
        apply h
        rw [heq]
      change some (Function.update s f' x f) = some (s f)
      rw [Function.update_of_ne hf]

end Target

/-- A stored value, and whether it is the default. -/
structure Entry (α : Type) where
  value : α
  defaulted : Bool

abbrev VariablesMap {Opt : Type} (Value : Opt → Type) := (o : Opt) → Option (Entry (Value o))

namespace VariablesMap

variable {Opt τ ε : Type} {Value : Opt → Type}

def empty : VariablesMap Value := fun _ => none

def value (vm : VariablesMap Value) (o : Opt) : Option (Value o) := (vm o).map Entry.value

def given (vm : VariablesMap Value) (o : Opt) : Option (Value o) :=
  (vm o).bind fun e => if e.defaulted then none else some e.value

def isFinal (vm : VariablesMap Value) (o : Opt) : Bool := (vm.given o).isSome

/-! ## The sources -/

section Store

variable [DecidableEq Opt]
  (parse : (o : Opt) → Option (Value o) → List τ → Except ε (Value o))

/-- One occurrence of an option; those in `final` keep the value of an earlier source. -/
def assign (final : Opt → Bool) (vm : VariablesMap Value) (x : Opt × List τ) :
    Except ε (VariablesMap Value) :=
  if final x.1 then .ok vm
  else do
    let value ← parse x.1 (vm.given x.1) x.2
    pure (Function.update vm x.1 (some ⟨value, false⟩))

def applyDefaults (default : (o : Opt) → Option (Value o)) (vm : VariablesMap Value) :
    VariablesMap Value :=
  fun o => (vm o).or ((default o).map fun x => ⟨x, true⟩)

/-- One source: its occurrences in order, then the defaults of what is not stored. -/
def store (default : (o : Opt) → Option (Value o)) (vm : VariablesMap Value)
    (occurrences : List (Opt × List τ)) : Except ε (VariablesMap Value) :=
  applyDefaults default <$> occurrences.foldlM (assign parse vm.isFinal) vm

/-- The tokens at each occurrence of an option. -/
def occurrencesOf (o : Opt) (occurrences : List (Opt × List τ)) : List (List τ) :=
  occurrences.filterMap fun x => if x.1 = o then some x.2 else none

def collect (o : Opt) : Option (Value o) → List (List τ) → Except ε (Option (Value o))
  | v, [] => .ok v
  | v, ts :: rest => do
    let x ← parse o v ts
    collect o (some x) rest

variable {parse}

theorem given_update_self (vm : VariablesMap Value) (o : Opt) (x : Value o) :
    VariablesMap.given (Function.update vm o (some ⟨x, false⟩)) o = some x := by
  simp [given]

theorem given_update_of_ne (vm : VariablesMap Value) {o o' : Opt} (h : o' ≠ o) (e) :
    VariablesMap.given (Function.update vm o e) o' = vm.given o' := by
  simp [given, h]

private theorem assign_ok {final : Opt → Bool} {x : Opt × List τ} {vm vm' : VariablesMap Value}
    (h : assign parse final vm x = .ok vm') : (final x.1 = true ∧ vm' = vm) ∨
      (final x.1 = false ∧ ∃ v, parse x.1 (vm.given x.1) x.2 = .ok v ∧
        vm' = Function.update vm x.1 (some ⟨v, false⟩)) := by
  cases hfinal : final x.1 with
  | true =>
    simp only [assign, hfinal, if_true, Except.ok.injEq] at h
    exact .inl ⟨rfl, h.symm⟩
  | false =>
    cases hp : parse x.1 (vm.given x.1) x.2 with
    | error e => simp [assign, hfinal, hp, bind, Except.bind] at h
    | ok v =>
      simp only [assign, hfinal, hp, bind, Except.bind, pure, Except.pure] at h
      cases h
      exact .inr ⟨rfl, v, rfl, rfl⟩

private theorem foldlM_cons_ok {α β : Type} {f : β → α → Except ε β} {x : α} {xs : List α}
    {b b' : β} (h : (x :: xs).foldlM f b = .ok b')
    : ∃ c, f b x = .ok c ∧ xs.foldlM f c = .ok b' := by
  rw [List.foldlM_cons] at h
  cases hx : f b x with
  | error e => simp [hx, bind, Except.bind] at h
  | ok c =>
    rw [hx] at h
    exact ⟨c, rfl, h⟩

private theorem foldlM_assign_final {final : Opt → Bool} {o : Opt} (ho : final o = true)
    {occurrences : List (Opt × List τ)} {vm vm' : VariablesMap Value}
    (h : occurrences.foldlM (assign parse final) vm = .ok vm') : vm' o = vm o := by
  induction occurrences generalizing vm with
  | nil =>
    cases h
    rfl
  | cons x xs ih =>
    obtain ⟨vm₁, hx, hxs⟩ := foldlM_cons_ok h
    rw [ih hxs]
    rcases assign_ok hx with ⟨_, rfl⟩ | ⟨hfinal, v, _, rfl⟩
    · rfl
    · have hne : o ≠ x.1 := by
        intro heq
        simp [← heq, ho] at hfinal
      exact Function.update_of_ne hne _ _

omit [DecidableEq Opt] in
private theorem collect_some {o : Opt} {v : Value o} {occurrences : List (List τ)}
    {r : Option (Value o)} (h : collect parse o (some v) occurrences = .ok r) :
    r.isSome = true := by
  induction occurrences generalizing v with
  | nil =>
    cases h
    rfl
  | cons ts rest ih =>
    cases hp : parse o (some v) ts with
    | error e => simp [collect, hp, bind, Except.bind] at h
    | ok x =>
      simp only [collect, hp, bind, Except.bind] at h
      exact ih h

private theorem foldlM_assign {final : Opt → Bool} {o : Opt} (ho : final o = false)
    {occurrences : List (Opt × List τ)} {vm vm' : VariablesMap Value}
    (h : occurrences.foldlM (assign parse final) vm = .ok vm') :
    collect parse o (vm.given o) (occurrencesOf o occurrences) = .ok (vm'.given o) ∧
      (vm'.given o = none → vm' o = vm o) := by
  induction occurrences generalizing vm with
  | nil =>
    cases h
    exact ⟨rfl, fun _ => rfl⟩
  | cons x xs ih =>
    obtain ⟨vm₁, hx, hxs⟩ := foldlM_cons_ok h
    obtain ⟨hcollect, hsame⟩ := ih hxs
    by_cases heq : x.1 = o
    · subst heq
      rcases assign_ok hx with ⟨hfinal, _⟩ | ⟨_, v, hv, rfl⟩
      · simp [ho] at hfinal
      · have hfirst : occurrencesOf x.1 (x :: xs) = x.2 :: occurrencesOf x.1 xs := by
          simp [occurrencesOf]
        rw [given_update_self] at hcollect
        rw [hfirst]
        constructor
        · simp only [collect, hv, bind, Except.bind]
          exact hcollect
        · intro hnone
          have hsome := collect_some hcollect
          simp [hnone] at hsome
    · have hne : o ≠ x.1 := Ne.symm heq
      have hskip : occurrencesOf o (x :: xs) = occurrencesOf o xs := by
        simp [occurrencesOf, heq]
      rcases assign_ok hx with ⟨_, rfl⟩ | ⟨_, v, _, rfl⟩
      · rw [hskip]
        exact ⟨hcollect, hsame⟩
      · rw [given_update_of_ne vm hne] at hcollect
        rw [hskip]
        apply And.intro hcollect
        intro hnone
        rw [hsame hnone]
        exact Function.update_of_ne hne _ _

variable {default : (o : Opt) → Option (Value o)} {vm vm' : VariablesMap Value}
  {occurrences : List (Opt × List τ)}

private theorem store_ok (h : store parse default vm occurrences = .ok vm') :
    ∃ vm₁, occurrences.foldlM (assign parse vm.isFinal) vm = .ok vm₁ ∧
      vm' = applyDefaults default vm₁ := by
  cases hfold : occurrences.foldlM (assign parse vm.isFinal) vm with
  | error e => simp [store, hfold, Functor.map, Except.map] at h
  | ok vm₁ =>
    simp only [store, hfold, Functor.map, Except.map, Except.ok.injEq] at h
    exact ⟨vm₁, rfl, h.symm⟩

omit [DecidableEq Opt] in
private theorem given_applyDefaults (vm : VariablesMap Value) (o : Opt) :
    (applyDefaults default vm).given o = vm.given o := by
  cases hvm : vm o with
  | some e => simp [given, applyDefaults, hvm]
  | none => cases hdefault : default o <;> simp [given, applyDefaults, hvm, hdefault]

/-- An option that no earlier source gave takes its value from its own occurrences. -/
theorem given_store {o : Opt} (ho : vm.given o = none)
    (h : store parse default vm occurrences = .ok vm') :
    collect parse o none (occurrencesOf o occurrences) = .ok (vm'.given o) := by
  obtain ⟨vm₁, hfold, rfl⟩ := store_ok h
  rw [given_applyDefaults]
  have hfinal : vm.isFinal o = false := by simp [isFinal, ho]
  have hcollect := (foldlM_assign hfinal hfold).1
  rwa [ho] at hcollect

/-- A source without occurrences gives nothing. -/
theorem given_store_nil (h : store parse default vm [] = .ok vm') (o : Opt) :
    vm'.given o = vm.given o := by
  obtain ⟨vm₁, hfold, rfl⟩ := store_ok h
  cases hfold
  exact given_applyDefaults vm o

/-- What is stored is what a source gave, otherwise the default. -/
theorem value_store {o : Opt}
    (ho : vm o = none ∨ vm.value o = (vm.given o).or (default o))
    (h : store parse default vm occurrences = .ok vm') :
    vm'.value o = (vm'.given o).or (default o) := by
  obtain ⟨vm₁, hfold, rfl⟩ := store_ok h
  rw [given_applyDefaults]
  cases hgiven : vm₁.given o with
  | some x =>
    obtain ⟨e, he, hx⟩ := Option.bind_eq_some_iff.mp hgiven
    have hvalue : e.value = x := by
      cases hd : e.defaulted <;> simp [hd] at hx
      exact hx
    simp [value, applyDefaults, he, hvalue]
  | none =>
    have hsame : vm₁ o = vm o := by
      cases hfinal : vm.isFinal o with
      | true => exact foldlM_assign_final hfinal hfold
      | false => exact (foldlM_assign hfinal hfold).2 hgiven
    have hnone : vm.given o = none := by
      simpa only [given, hsame] using hgiven
    cases hvm : vm o with
    | none => cases hdefault : default o <;> simp [value, applyDefaults, hsame, hvm, hdefault]
    | some e =>
      rcases ho with ho | ho
      · simp [hvm] at ho
      · rw [hnone] at ho
        rw [← ho]
        simp [value, applyDefaults, hsame, hvm]

end Store

/-! ## Writing the settings -/

section Notify

variable {σ ρ : Type}

def notify (write : (o : Opt) → Value o → σ → σ) (vm : VariablesMap Value) (order : List Opt)
    (s : σ) : σ :=
  order.foldl (fun s o => match vm.value o with
    | some x => write o x s
    | none => s) s

variable {write : (o : Opt) → Value o → σ → σ} {vm : VariablesMap Value}

private theorem notify_append (pre post : List Opt) (s : σ) :
    notify write vm (pre ++ post) s = notify write vm post (notify write vm pre s) :=
  List.foldl_append

private theorem notify_cons (o : Opt) (order : List Opt) (s : σ) :
    notify write vm (o :: order) s = notify write vm order (match vm.value o with
      | some x => write o x s
      | none => s) := rfl

/-- What no stored option of the list writes to is left alone. -/
theorem notify_frame (read : σ → ρ) {order : List Opt}
    (h : ∀ o ∈ order, ∀ x, vm.value o = some x → ∀ s, read (write o x s) = read s) (s : σ) :
    read (notify write vm order s) = read s := by
  induction order generalizing s with
  | nil => rfl
  | cons o order ih =>
    rw [notify_cons, ih fun o' ho' => h o' (List.mem_cons_of_mem _ ho')]
    cases hx : vm.value o with
    | none => rfl
    | some x => exact h o List.mem_cons_self x hx s

/-- The last stored option that writes to a place decides what is there. -/
theorem notify_last (read : σ → ρ) {o : Opt} {x : Value o} (hx : vm.value o = some x)
    {pre post : List Opt} {r : ρ} (hwrite : ∀ s, read (write o x s) = r)
    (hpost : ∀ o' ∈ post, ∀ y, vm.value o' = some y → ∀ s, read (write o' y s) = read s)
    (s : σ) : read (notify write vm (pre ++ o :: post) s) = r := by
  rw [notify_append, notify_cons, notify_frame read hpost, hx]
  exact hwrite _

end Notify

end VariablesMap

end DblService.Framework
