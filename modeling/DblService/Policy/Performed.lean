import DblService.Policy.Operations

/-!
# Programs that perform operations

What a program does to the policy is the operations it calls, in order, up to an exception
that leaves it.
-/

namespace DblService

open Framework Session

/-- The run of a program that is to perform some operations: the answers to those it reached,
which are all of them unless it threw. -/
structure Performed (env : Env) (ops : List PolicyOp) (answers : List (Option (Except Exc Bool)))
    {α : Type} (s : Store) (r : Except Exc α) (s' : Store) : Prop where
  released : s'.held = false
  explained : ExplainsPart (PolicyOp.Outcome env) ops (∃ a, r = .ok a) answers
    s.conn.file.policy s'.conn.file.policy

namespace Performed

variable {α β : Type} {env : Env} {ops ops' : List PolicyOp} {s s₁ s' : Store}
  {answers answers' : List (Option (Except Exc Bool))} {r : Except Exc α}

theorem silent (hs' : s'.held = false) (hpolicy : s'.conn.file.policy = s.conn.file.policy) :
    Performed env [] [] s r s' := by
  refine ⟨hs', ?_⟩
  rw [hpolicy]
  exact .nil _ _

theorem single {op : PolicyOp} {answer : Option (Except Exc Bool)} (hs' : s'.held = false)
    (h : PolicyOp.Outcome env op answer s.conn.file.policy s'.conn.file.policy) :
    Performed env [op] [answer] s r s' :=
  ⟨hs', .single _ h⟩

/-- The result does not matter, but for the exceptions. -/
theorem result (h : Performed env ops answers s r s') {q : Except Exc β}
    (hq : (∃ b, q = .ok b) → ∃ a, r = .ok a) : Performed env ops answers s q s' :=
  ⟨h.released, h.explained.weaken hq⟩

theorem cut {e : Exc} (h : Performed env ops answers s (.error e : Except Exc α) s')
    (ops' : List PolicyOp) :
    Performed env (ops ++ ops') answers s (.error e : Except Exc β) s' :=
  ⟨h.released, h.explained.cut (by simp) ops'⟩

theorem append {a : α} {q : Except Exc β} (h : Performed env ops answers s (.ok a) s₁)
    (h' : Performed env ops' answers' s₁ q s') :
    Performed env (ops ++ ops') (answers ++ answers') s q s' :=
  ⟨h'.released, h.explained.append ⟨a, rfl⟩ h'.explained⟩

end Performed

/-- From every store without a session the program ends after these operations. -/
def Performs {α : Type} (env : Env) (p : Code α) (ops : List PolicyOp) : Prop :=
  ∀ s : Store, s.held = false →
    ∃ r s' answers, s.exec p = some (r, s') ∧ Performed env ops answers s r s'

namespace Performs

open Framework.Code DomainListManager DomainManager

variable {α β : Type} {env : Env} {ops ops' : List PolicyOp} {p : Code α}

theorem bind {f : α → Code β} (hp : Performs env p ops) (hf : ∀ a, Performs env (f a) ops') :
    Performs env (p >>= f) (ops ++ ops') := by
  intro s hs
  obtain ⟨r, s₁, answers, hrun, hdone⟩ := hp s hs
  rw [Store.exec_bind, hrun]
  cases r with
  | error e => exact ⟨.error e, s₁, answers, rfl, hdone.cut ops'⟩
  | ok a =>
    obtain ⟨r, s', answers', hrun', hdone'⟩ := hf a s₁ hdone.released
    exact ⟨r, s', answers ++ answers', hrun', hdone.append hdone'⟩

/-- A program that leaves the policy of the file alone. -/
theorem of_keeps (hp : ∀ P : Policy,
    Keeps Store.handle (Store.Holds (fun c => c.file.policy = P) fun _ => True) p) :
    Performs env p [] := by
  intro s hs
  obtain ⟨r, s', hrun, hs'⟩ := hp s.conn.file.policy s ⟨hs, rfl, fun _ _ => trivial⟩
  exact ⟨r, s', [], hrun, .silent hs'.released hs'.conn⟩

theorem pure (a : α) : Performs env (Pure.pure a : Code α) [] :=
  of_keeps fun _ => Keeps.pure a

theorem throw (e : Exc) : Performs env (MonadExcept.throw e : Code α) [] :=
  of_keeps fun _ => Keeps.throw e

theorem map {f : α → β} (hp : Performs env p ops) :
    Performs env (p >>= fun a => Pure.pure (f a)) ops := by
  simpa using hp.bind fun a => pure (f a)

end Performs

namespace PolicyOp

open Framework.Code DomainListManager DomainManager

variable {env : Env} {op : PolicyOp}

/-- An operation that says so did what it is for, where it had something to do. -/
theorem Outcome.of_true {P P' : Policy} (h : Outcome env op (some (.ok true)) P P')
    (hactive : ¬ op.Idle env P) : P' = op.effect env P := by
  cases h with
  | whole => rfl
  | nothing hidle => exact absurd hidle hactive
  | refused hr => exact absurd rfl hr
  | begun hr => exact absurd rfl hr

private theorem keeps_code (env : Env) (h : op ≠ .restart) :
    Keeps Store.handle (Store.Holds (fun _ => True) fun _ => True) (op.code env) := by
  have hall (stmts : List Stmt) : Store.Preserves (fun _ => True) stmts := fun _ _ _ _ _ => trivial
  cases op with
  | create name url description custom =>
    exact (Store.keeps_create (hall _)).bind fun _ => Keeps.pure _
  | importList lst custom => exact Store.keeps_importList (hall _) fun _ => hall _
  | block domains => exact Store.keeps_blockDomains (hall _) fun _ => hall _
  | unblock domains => exact Store.keeps_unblockDomains (hall _)
  | setEnabled name enabled => exact Store.keeps_committed (hall _)
  | remove name => exact Store.keeps_committed (hall _)
  | restart => exact absurd rfl h

theorem exec_code (env : Env) (h : op ≠ .restart) {s : Store} (hs : s.held = false) :
    ∃ r s', s.exec (op.code env) = some (r, s') ∧ Performed env [op] [some r] s r s' := by
  obtain ⟨r, s', hrun, hs'⟩ := keeps_code env h s ⟨hs, trivial, fun _ _ => trivial⟩
  refine ⟨r, s', hrun, .single hs'.released ?_⟩
  have houtcome := step_outcome env (op, s.ambient) s.conn
  have hstart : s = { conn := s.conn, ambient := s.ambient } := by
    rw [← hs]
  rw [hstart] at hrun
  rw [step_of_ne_restart env h, Connection.perform_of_exec hrun] at houtcome
  exact houtcome

theorem performs_code (env : Env) (h : op ≠ .restart) : Performs env (op.code env) [op] := by
  intro s hs
  obtain ⟨r, s', hrun, hdone⟩ := exec_code env h hs
  exact ⟨r, s', _, hrun, hdone⟩

private theorem attempt_faults {a : Ambient} (h : a.faults = []) (c : Connection) (k : Call) :
    (a.attempt c k).2.2.faults = [] := by
  unfold Ambient.attempt
  split_ifs
  · simp [Ambient.skip, Ambient.raise, h]
  · cases c.answer a.now k <;> simp [Ambient.skip, Ambient.raise, h]

/-- What never finds the database busy does not find it busy later. -/
theorem faults_of_exec {α : Type} {p : Code α} {s s' : Store} {r : Except Exc α}
    (hs : s.ambient.faults = []) (hrun : s.exec p = some (r, s')) : s'.ambient.faults = [] := by
  have hstep (op : Op) (s t : Store) (r : op.Reply) (s' : Store)
      (h : s = t ∧ s.ambient.faults = []) (hop : Store.handle op s = some (r, s')) :
      ∃ t', Store.handle op t = some (r, t') ∧ s' = t' ∧ s'.ambient.faults = [] := by
    obtain ⟨rfl, hs⟩ := h
    refine ⟨s', hop, rfl, ?_⟩
    cases op with
    | lease =>
      simp only [Store.handle] at hop
      split_ifs at hop
      cases hop
      exact hs
    | release i =>
      simp only [Store.handle] at hop
      split_ifs at hop
      cases hop
      exact hs
    | sql i k =>
      simp only [Store.handle] at hop
      split_ifs at hop
      cases hop
      exact attempt_faults hs _ _
    | httpFetch url =>
      cases hop
      exact hs
  obtain ⟨t', _, rfl, hfaults⟩ :=
    Program.run_simulates (R := fun s t => s = t ∧ s.ambient.faults = []) hstep p.run ⟨rfl, hs⟩ hrun
  exact hfaults

private theorem released_withSession {α : Type} {body : Nat → Code α} {s s' : Store}
    {r : Except Exc α} (hs : s.held = false) (hrun : s.exec (withSession body) = some (r, s')) :
    s'.held = false := by
  rw [Store.exec_withSession s body hs] at hrun
  obtain ⟨x, _, hx⟩ := Option.map_eq_some_iff.mp hrun
  cases hx
  rfl

theorem exec_init_of_restart {env : Env} {s s' : Store}
    (h : s.exec (PolicyOp.restart.code env) = some (.ok true, s')) :
    s.exec DB.init = some (.ok (), s') := by
  rw [code, Store.exec_bind] at h
  cases hinit : s.exec DB.init with
  | none => simp [hinit] at h
  | some x =>
    obtain ⟨r, s₁⟩ := x
    rw [hinit] at h
    cases r with
    | error e => cases h
    | ok _ =>
      cases h
      rfl

/-- The start, on a file that was just opened. -/
theorem exec_restart (env : Env) {s : Store} (hs : s.held = false) (hidle : s.conn.tx = none) :
    ∃ r s', s.exec (PolicyOp.restart.code env) = some (r, s') ∧
      Performed env [.restart] [some r] s r s' := by
  obtain ⟨q, s', hinit, _⟩ := s.exec_init hs hidle
  have hreleased : s'.held = false := by
    rw [DB.init_eq] at hinit
    exact released_withSession hs hinit
  have hrun : s.exec (PolicyOp.restart.code env) = some (q.map fun _ => true, s') := by
    rw [code, Store.exec_bind, hinit]
    cases q <;> rfl
  exact ⟨_, s', hrun, .single hreleased (outcome_restart hs hidle hrun)⟩

end PolicyOp

end DblService
