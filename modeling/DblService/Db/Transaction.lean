import DblService.Db.Session
import Mathlib.Data.Nat.Find

/-!
# What a block of statements does

For a sequential client the scope of a session is one of three blocks: a
transaction, a query collected row by row, or a query of one row.  Each has one
lemma that says everything it can do, whichever of its statements raise.
-/

namespace DblService

open Framework Session

namespace Ambient

/-- None of the next `n` statements finds the database busy. -/
def Quiet (a : Ambient) (n : Nat) : Prop := true ∉ a.faults.take n

instance (a : Ambient) (n : Nat) : Decidable (a.Quiet n) :=
  inferInstanceAs (Decidable (true ∉ _))

variable {a : Ambient}

@[simp] theorem skip_zero : a.skip 0 = a := rfl

@[simp] theorem skip_now (n : Nat) : (a.skip n).now = a.now := rfl

@[simp] theorem skip_replies (n : Nat) : (a.skip n).replies = a.replies := rfl

@[simp] theorem skip_raised (n : Nat) : (a.skip n).raised = a.raised := rfl

@[simp] theorem raise_now : a.raise.now = a.now := rfl

@[simp] theorem raise_replies : a.raise.replies = a.replies := rfl

@[simp] theorem raise_raised : a.raise.raised = a.raised + 1 := rfl

@[simp] theorem raise_skip (n : Nat) : a.raise.skip n = (a.skip n).raise := rfl

@[simp] theorem raise_quiet (n : Nat) : a.raise.Quiet n ↔ a.Quiet n := Iff.rfl

private theorem skip_skip (m n : Nat) : (a.skip m).skip n = a.skip (m + n) := by
  simp [skip, List.drop_drop]

theorem quiet_zero : a.Quiet 0 := by
  simp [Quiet]

theorem quiet_succ {n : Nat} : a.Quiet (n + 1) ↔ a.faulty = false ∧ (a.skip 1).Quiet n := by
  unfold Quiet faulty skip
  cases a.faults with
  | nil => simp
  | cons b bs => cases b <;> simp

theorem quiet_add {m n : Nat} : a.Quiet (m + n) ↔ a.Quiet m ∧ (a.skip m).Quiet n := by
  simp [Quiet, skip, List.take_add, List.mem_append, not_or]

theorem quiet_last {n : Nat} : a.Quiet (n + 1) ↔ a.Quiet n ∧ (a.skip n).faulty = false := by
  rw [quiet_add, quiet_succ]
  simp [quiet_zero]

theorem Quiet.mono {m n : Nat} (h : a.Quiet n) (hmn : m ≤ n) : a.Quiet m := by
  obtain ⟨k, rfl⟩ := Nat.exists_eq_add_of_le hmn
  exact (quiet_add.mp h).1

theorem quiet_of_no_faults (h : a.faults = []) (n : Nat) : a.Quiet n := by
  simp [Quiet, h]

private theorem skip_of_no_faults (h : a.faults = []) (n : Nat) : a.skip n = a := by
  cases a
  simp_all [skip]

end Ambient

/-- The statements in order, up to the first that raises. -/
def Stmt.runAll (now : Int) (stmts : List Stmt) (db : Db) : Except SqlError Db :=
  stmts.foldlM (Stmt.run now) db

namespace Stmt

theorem runAll_cons (now : Int) (st : Stmt) (stmts : List Stmt) (db : Db) :
    runAll now (st :: stmts) db = (st.run now db).bind (runAll now stmts) := rfl

@[simp] theorem runAll_nil (now : Int) (db : Db) : runAll now [] db = .ok db := rfl

theorem runAll_append (now : Int) (xs ys : List Stmt) (db : Db) :
    runAll now (xs ++ ys) db = (runAll now xs db).bind (runAll now ys) := by
  simp [runAll, List.foldlM_append]
  rfl

/-- What every statement of the list keeps, the whole list keeps. -/
theorem runAll_preserves {now : Int} {I : Db → Prop} {stmts : List Stmt}
    (hstep : ∀ st ∈ stmts, ∀ db db', I db → st.run now db = .ok db' → I db') {db db' : Db}
    (hdb : I db) (hrun : runAll now stmts db = .ok db') : I db' := by
  induction stmts generalizing db with
  | nil =>
    simp only [runAll_nil, Except.ok.injEq] at hrun
    exact hrun ▸ hdb
  | cons st stmts ih =>
    rw [runAll_cons] at hrun
    cases hst : st.run now db with
    | error e => simp [hst, Except.bind] at hrun
    | ok db₁ =>
      rw [hst] at hrun
      exact ih (fun st' h => hstep st' (List.mem_cons_of_mem _ h))
        (hstep st List.mem_cons_self db db₁ hdb hst) hrun

end Stmt

namespace Store

/-- The store after `n` statements that leave the connection at `c`. -/
def after (s : Store) (c : Connection) (n : Nat) : Store :=
  { s with conn := c, ambient := s.ambient.skip n }

def afterRaise (s : Store) (c : Connection) (n : Nat) : Store :=
  { s with conn := c, ambient := (s.ambient.skip n).raise }

section
variable (s : Store) (c d : Connection) (m n : Nat)

@[simp] theorem after_conn : (s.after c n).conn = c := rfl

@[simp] theorem after_held : (s.after c n).held = s.held := rfl

@[simp] theorem after_ambient : (s.after c n).ambient = s.ambient.skip n := rfl

@[simp] theorem afterRaise_conn : (s.afterRaise c n).conn = c := rfl

@[simp] theorem afterRaise_held : (s.afterRaise c n).held = s.held := rfl

@[simp] theorem afterRaise_ambient :
    (s.afterRaise c n).ambient = (s.ambient.skip n).raise := rfl

@[simp] theorem after_after : (s.after c m).after d n = s.after d (m + n) := by
  simp [after, Ambient.skip_skip]

@[simp] theorem after_afterRaise : (s.after c m).afterRaise d n = s.afterRaise d (m + n) := by
  simp [after, afterRaise, Ambient.skip_skip]

@[simp] theorem after_zero : s.after s.conn 0 = s := rfl

/-- Without faults only the connection changes. -/
theorem after_of_no_faults (h : s.ambient.faults = []) : s.after c n = { s with conn := c } := by
  simp only [after, Ambient.skip_of_no_faults h]

end

/-- A client that finds the database free. -/
def free (c : Connection) : Store := { conn := c }

/-- Between two operations, when no statement finds the database busy. -/
structure IsFree (s : Store) : Prop where
  released : s.held = false
  faults : s.ambient.faults = []

theorem free_isFree (c : Connection) : (free c).IsFree := ⟨rfl, rfl⟩

def attempt (s : Store) (k : Call) : Except SqlError k.Result × Store :=
  let r := s.ambient.attempt s.conn k
  (r.1, { s with conn := r.2.1, ambient := r.2.2 })

theorem exec_sql (s : Store) (k : Call) :
    s.exec (sql 0 k) = some ((s.attempt k).1.mapError Exc.sql, (s.attempt k).2) := rfl

theorem attempt_busy {s : Store} {k : Call} (h : s.ambient.faulty = true) :
    s.attempt k = (.error .busy, s.afterRaise s.conn 1) := by
  simp [attempt, afterRaise, Ambient.attempt, h]

theorem attempt_ok {s : Store} {k : Call} (h : s.ambient.faulty = false) {x : k.Result}
    {c : Connection} (hc : s.conn.answer s.ambient.now k = .ok (x, c)) :
    s.attempt k = (.ok x, s.after c 1) := by
  simp [attempt, after, Ambient.attempt, h, hc]

private theorem attempt_error {s : Store} {k : Call} (h : s.ambient.faulty = false) {e : SqlError}
    (hc : s.conn.answer s.ambient.now k = .error e) :
    s.attempt k = (.error e, s.afterRaise s.conn 1) := by
  simp [attempt, afterRaise, Ambient.attempt, h, hc]

theorem exec_withSession {α : Type} (s : Store) (body : Nat → Code α) (hs : s.held = false) :
    s.exec (withSession body) =
      (({ s with held := true } : Store).exec (body 0)).map fun x =>
        (x.1, { x.2 with held := false }) := by
  have hlease : handle .lease s = some ((0 : Nat), { s with held := true }) := by
    simp only [handle, hs, Bool.false_eq_true, if_false]
  change ((handle .lease s).bind _) = _
  rw [hlease]
  change (Program.bind (body 0).run _).run handle { s with held := true } = _
  rw [Program.run_bind]
  unfold Store.exec Framework.Code.exec
  cases (body 0).run.run handle { s with held := true } with
  | none => rfl
  | some x => rfl

theorem exec_bind {α β : Type} (s : Store) (p : Code α) (f : α → Code β) :
    s.exec (p >>= f) = (s.exec p).bind fun x =>
      match x.1 with
      | .ok a => x.2.exec (f a)
      | .error e => some (.error e, x.2) := by
  unfold Store.exec
  rw [Framework.Code.exec_bind]
  congr 1
  funext x
  cases x.1 <;> rfl

theorem exec_catchRuntime {α : Type} (s : Store) (p : Code α) (f : Exc → Code α) :
    s.exec (catchRuntime p f) = (s.exec p).bind fun x =>
      match x.1 with
      | .ok a => some (.ok a, x.2)
      | .error e => if e.isRuntimeError then x.2.exec (f e) else some (.error e, x.2) := by
  unfold Store.exec catchRuntime
  rw [Framework.Code.exec_tryCatch]
  congr 1
  funext x
  cases x.1 with
  | ok a => rfl
  | error e =>
    dsimp only
    split_ifs <;> rfl

/-- Statements within an open transaction: all run, or one raises and the ones before it
stay in the transaction. -/
theorem exec_stmts (stmts : List Stmt) (s : Store) (db : Db) (htx : s.conn.tx = some db) :
    (∃ db', s.exec (stmts.forM (Session.exec 0)) =
        some (.ok (), s.after ⟨s.conn.file, some db'⟩ stmts.length) ∧
      Stmt.runAll s.ambient.now stmts db = .ok db' ∧ s.ambient.Quiet stmts.length) ∨
    ∃ i e db', s.exec (stmts.forM (Session.exec 0)) =
        some (.error (.sql e), s.afterRaise ⟨s.conn.file, some db'⟩ (i + 1)) ∧
      i < stmts.length ∧ Stmt.runAll s.ambient.now (stmts.take i) db = .ok db' ∧
      s.ambient.Quiet i ∧
      (¬ s.ambient.Quiet (i + 1) ∨ ∃ e', Stmt.runAll s.ambient.now stmts db = .error e') := by
  have hself : s.conn = ⟨s.conn.file, some db⟩ := by rw [← htx]
  induction stmts generalizing s db with
  | nil =>
    refine Or.inl ⟨db, ?_, rfl, Ambient.quiet_zero⟩
    rw [← hself]
    rfl
  | cons st stmts ih =>
    have hcons : ((st :: stmts).forM (Session.exec 0) : Code Unit) =
        sql 0 (.exec st) >>= fun _ => stmts.forM (Session.exec 0) := rfl
    rw [hcons, exec_bind, exec_sql]
    cases hf : s.ambient.faulty with
    | true =>
      have hnot : ¬ s.ambient.Quiet 1 := by simp [Ambient.quiet_succ, hf]
      refine Or.inr ⟨0, .busy, db, ?_, by simp, rfl, Ambient.quiet_zero, Or.inl hnot⟩
      rw [attempt_busy hf, ← hself]
      rfl
    | false =>
      cases hst : st.run s.ambient.now db with
      | error e =>
        have hans : s.conn.answer s.ambient.now (.exec st) = .error e := by
          simp [Connection.answer, htx, hst, Except.map]
        have hall : Stmt.runAll s.ambient.now (st :: stmts) db = .error e := by
          simp [Stmt.runAll_cons, hst, Except.bind]
        refine Or.inr ⟨0, e, db, ?_, by simp, rfl, Ambient.quiet_zero, Or.inr ⟨e, hall⟩⟩
        rw [attempt_error hf hans, ← hself]
        rfl
      | ok db₁ =>
        have hans : s.conn.answer s.ambient.now (.exec st) =
            .ok ((), ⟨s.conn.file, some db₁⟩) := by
          simp [Connection.answer, htx, hst, Except.map]
        have hrest (stmts : List Stmt) : Stmt.runAll s.ambient.now (st :: stmts) db =
            Stmt.runAll s.ambient.now stmts db₁ := by
          rw [Stmt.runAll_cons, hst]
          rfl
        rw [attempt_ok hf hans]
        rcases ih (s.after ⟨s.conn.file, some db₁⟩ 1) db₁ rfl rfl with
          ⟨db', hrun, hall, hq⟩ | ⟨i, e, db', hrun, hi, hpre, hq, hwhy⟩
        · refine Or.inl ⟨db', ?_, (hrest stmts).trans hall, Ambient.quiet_succ.mpr ⟨hf, hq⟩⟩
          simp only [after_after, Nat.add_comm 1] at hrun
          exact hrun
        · refine Or.inr ⟨i + 1, e, db', ?_, Nat.succ_lt_succ hi, (hrest _).trans hpre,
            Ambient.quiet_succ.mpr ⟨hf, hq⟩, ?_⟩
          · simp only [after_afterRaise, Nat.add_comm 1] at hrun
            exact hrun
          · rcases hwhy with hwhy | ⟨e', he'⟩
            · exact Or.inl fun hq' => hwhy (Ambient.quiet_succ.mp hq').2
            · exact Or.inr ⟨e', (hrest stmts).trans he'⟩

end Store

/-! ## The three blocks -/

/-- Everything a transaction of these statements can do to the store, and whether it ended. -/
inductive Transacted (stmts : List Stmt) (s : Store) : Bool → Store → Prop
  | committed (db : Db) (hidle : s.conn.tx = none) (hquiet : s.ambient.Quiet (stmts.length + 2))
      (hrun : Stmt.runAll s.ambient.now stmts s.conn.file = .ok db) :
      Transacted stmts s true (s.after ⟨db, none⟩ (stmts.length + 2))
  | refused (hbegin : s.ambient.faulty = true ∨ s.conn.tx ≠ none) :
      Transacted stmts s false (s.afterRaise s.conn 1)
  | abandoned (i : Nat) (db : Db) (hidle : s.conn.tx = none) (hi : i ≤ stmts.length)
      (hrun : Stmt.runAll s.ambient.now (stmts.take i) s.conn.file = .ok db)
      (hquiet : s.ambient.Quiet (i + 1))
      (hwhy : ¬ s.ambient.Quiet (i + 2) ∨
        ∃ e, Stmt.runAll s.ambient.now stmts s.conn.file = .error e) :
      Transacted stmts s false (s.afterRaise ⟨s.conn.file, some db⟩ (i + 2))

namespace Transacted

variable {stmts : List Stmt} {s s' : Store} {done : Bool}

/-- What a lease adds around the transaction is taken back by the release. -/
theorem release {held : Bool} (h : Transacted stmts { s with held } done s') :
    Transacted stmts s done { s' with held := s.held } := by
  cases h with
  | committed db hidle hquiet hrun => exact .committed db hidle hquiet hrun
  | refused hbegin => exact .refused hbegin
  | abandoned i db hidle hi hrun hquiet hwhy =>
    exact .abandoned i db hidle hi hrun hquiet hwhy

theorem held_eq (h : Transacted stmts s done s') : s'.held = s.held := by
  cases h <;> rfl

theorem replies_eq (h : Transacted stmts s done s') : s'.ambient.replies = s.ambient.replies := by
  cases h <;> rfl

/-- It ended iff none of its statements raised. -/
theorem raised_eq (h : Transacted stmts s done s') :
    s'.ambient.raised = s.ambient.raised + if done then 0 else 1 := by
  cases h <;> rfl

theorem done_iff (h : Transacted stmts s done s') :
    done = true ↔ s.conn.tx = none ∧ s.ambient.Quiet (stmts.length + 2) ∧
      ∃ db, Stmt.runAll s.ambient.now stmts s.conn.file = .ok db := by
  cases h with
  | committed db hidle hquiet hrun => simp [hidle, hquiet, hrun]
  | refused hbegin =>
    rcases hbegin with hf | htx
    · simp [Ambient.quiet_succ, hf]
    · simp [htx]
  | abandoned i db hidle hi hrun hquiet hwhy =>
    rcases hwhy with hnot | ⟨e, he⟩
    · have hnot : ¬ s.ambient.Quiet (stmts.length + 2) := fun h => hnot (h.mono (by omega))
      simp [hnot]
    · simp [he]

/-- A transaction left open refuses the next one. -/
theorem of_open (h : Transacted stmts s done s') (hopen : s.conn.tx ≠ none) :
    done = false ∧ s' = s.afterRaise s.conn 1 := by
  cases h with
  | committed _ hidle => exact absurd hidle hopen
  | refused => exact ⟨rfl, rfl⟩
  | abandoned _ _ hidle => exact absurd hidle hopen

/-- A busy database refuses it at once. -/
theorem of_busy (h : Transacted stmts s done s') (hbusy : s.ambient.faulty = true) :
    done = false ∧ s' = s.afterRaise s.conn 1 := by
  have hnot (n : Nat) : ¬ s.ambient.Quiet (n + 1) := by simp [Ambient.quiet_succ, hbusy]
  cases h with
  | committed _ _ hquiet => exact absurd hquiet (hnot _)
  | refused => exact ⟨rfl, rfl⟩
  | abandoned _ _ _ _ _ hquiet => exact absurd hquiet (hnot _)

/-- A transaction that began and did not end is still open. -/
theorem stays_open (h : Transacted stmts s false s') (hidle : s.conn.tx = none)
    (hfree : s.ambient.faulty = false) : s'.conn.tx ≠ none := by
  cases h with
  | refused hbegin =>
    rcases hbegin with hbusy | hopen
    · rw [hfree] at hbusy
      cases hbusy
    · exact absurd hidle hopen
  | abandoned => simp

/-- What the statements did, when none of them can raise. -/
theorem of_quiet (h : Transacted stmts s done s') (hidle : s.conn.tx = none)
    (hquiet : s.ambient.Quiet (stmts.length + 2)) {db : Db}
    (hrun : Stmt.runAll s.ambient.now stmts s.conn.file = .ok db) :
    done = true ∧ s' = s.after ⟨db, none⟩ (stmts.length + 2) := by
  have hdone := h.done_iff.mpr ⟨hidle, hquiet, db, hrun⟩
  cases h with
  | committed db' _ _ hrun' =>
    rw [hrun, Except.ok.injEq] at hrun'
    exact ⟨rfl, hrun' ▸ rfl⟩
  | refused => cases hdone
  | abandoned => cases hdone

end Transacted

/-- Everything a query collected row by row can do. -/
inductive Collected (q : Query) (s : Store) : List q.Row → Store → Prop
  | complete (hquiet : s.ambient.Quiet ((q.rows s.conn.view).length + 2)) :
      Collected q s (q.rows s.conn.view) (s.after s.conn ((q.rows s.conn.view).length + 2))
  | refused (hbusy : s.ambient.faulty = true) : Collected q s [] (s.afterRaise s.conn 1)
  | cut (i : Nat) (hi : i ≤ (q.rows s.conn.view).length) (hquiet : s.ambient.Quiet (i + 1))
      (hbusy : ¬ s.ambient.Quiet (i + 2)) :
      Collected q s ((q.rows s.conn.view).take i) (s.afterRaise s.conn (i + 2))

namespace Store

/-- The outcome of a block: it ended, or a statement of it raised. -/
def Ends (r : Except Exc Unit) (done : Bool) : Prop :=
  (r = .ok () ∧ done = true) ∨ ∃ e, r = .error (.sql e) ∧ done = false

theorem exec_statements (s : Store) (stmts : List Stmt) :
    ∃ r done s', s.exec (do begin 0; stmts.forM (Session.exec 0); commit 0) = some (r, s') ∧
      Ends r done ∧ Transacted stmts s done s' := by
  rw [exec_bind, Session.begin, exec_sql]
  cases hf : s.ambient.faulty with
  | true =>
    refine ⟨.error (.sql .busy), false, s.afterRaise s.conn 1, ?_, Or.inr ⟨_, rfl, rfl⟩,
      .refused (Or.inl hf)⟩
    rw [attempt_busy hf]
    rfl
  | false =>
  cases htx : s.conn.tx with
  | some db =>
    refine ⟨.error (.sql .nestedTransaction), false, s.afterRaise s.conn 1, ?_,
      Or.inr ⟨_, rfl, rfl⟩, .refused (Or.inr (by simp [htx]))⟩
    rw [attempt_error hf (e := .nestedTransaction) (by simp [Connection.answer, htx])]
    rfl
  | none =>
    let s₀ := s.after ⟨s.conn.file, some s.conn.file⟩ 1
    have hbegin : s.attempt .begin = (.ok (), s₀) :=
      attempt_ok hf (by simp [Connection.answer, htx])
    rw [hbegin]
    change ∃ r done s', s₀.exec (stmts.forM (Session.exec 0) >>= fun _ => commit 0) = _ ∧ _
    rw [exec_bind]
    rcases exec_stmts stmts s₀ s.conn.file rfl with
      ⟨db, hrun, hall, hq⟩ | ⟨i, e, db, hrun, hi, hpre, hq, hwhy⟩
    · have hquiet : s.ambient.Quiet (stmts.length + 1) := Ambient.quiet_succ.mpr ⟨hf, hq⟩
      have hpre : Stmt.runAll s.ambient.now (stmts.take stmts.length) s.conn.file = .ok db := by
        rw [List.take_length]
        exact hall
      let s₁ := s.after ⟨s.conn.file, some db⟩ (stmts.length + 1)
      have hs₁ : s₀.after ⟨s₀.conn.file, some db⟩ stmts.length = s₁ := by
        simp [s₀, s₁, Nat.add_comm]
      rw [hrun, hs₁]
      change ∃ r done s', s₁.exec (sql 0 .commit) = _ ∧ _
      rw [exec_sql]
      cases hc : s₁.ambient.faulty with
      | true =>
        have hnot : ¬ s.ambient.Quiet (stmts.length + 2) := by
          intro h
          exact absurd hc (by simpa [s₁] using (Ambient.quiet_last.mp h).2)
        refine ⟨.error (.sql .busy), false, s₁.afterRaise s₁.conn 1, ?_, Or.inr ⟨_, rfl, rfl⟩, ?_⟩
        · rw [attempt_busy hc]
          rfl
        · have h := Transacted.abandoned stmts.length db htx (Nat.le_refl _) hpre hquiet
            (Or.inl hnot)
          simpa [s₁] using h
      | false =>
        have hcommit : s₁.attempt .commit = (.ok (), s₁.after ⟨db, none⟩ 1) :=
          attempt_ok hc rfl
        have hquiet' : s.ambient.Quiet (stmts.length + 2) :=
          Ambient.quiet_last.mpr ⟨hquiet, hc⟩
        refine ⟨.ok (), true, s₁.after ⟨db, none⟩ 1, ?_, Or.inl ⟨rfl, rfl⟩, ?_⟩
        · rw [hcommit]
          rfl
        · have h := Transacted.committed db htx hquiet' hall
          simpa [s₁] using h
    · refine ⟨.error (.sql e), false, s₀.afterRaise ⟨s₀.conn.file, some db⟩ (i + 1), ?_,
        Or.inr ⟨_, rfl, rfl⟩, ?_⟩
      · rw [hrun]
        rfl
      have hwhy' : ¬ s.ambient.Quiet (i + 2) ∨
          ∃ e, Stmt.runAll s.ambient.now stmts s.conn.file = .error e := by
        rcases hwhy with hwhy | he
        · exact Or.inl fun h => hwhy (Ambient.quiet_succ.mp h).2
        · exact Or.inr he
      have h := Transacted.abandoned i db htx (Nat.le_of_lt hi) hpre
        (Ambient.quiet_succ.mpr ⟨hf, hq⟩) hwhy'
      have hadd : 1 + (i + 1) = i + 2 := by omega
      simpa [s₀, hadd] using h

theorem exec_transaction (s : Store) (stmts : List Stmt) (hs : s.held = false) :
    ∃ r done s', s.exec (transaction stmts) = some (r, s') ∧ Ends r done ∧
      Transacted stmts s done s' := by
  obtain ⟨r, done, s', hrun, hr, h⟩ := exec_statements { s with held := true } stmts
  refine ⟨r, done, { s' with held := s.held }, ?_, hr, h.release⟩
  rw [transaction, exec_withSession s _ hs, hrun, hs]
  rfl

theorem exec_committed (s : Store) (stmts : List Stmt) (hs : s.held = false) :
    ∃ done s', s.exec (committed stmts) = some (.ok done, s') ∧ Transacted stmts s done s' := by
  obtain ⟨r, done, s', hrun, hr, h⟩ := exec_transaction s stmts hs
  refine ⟨done, s', ?_, h⟩
  rw [committed, exec_catchRuntime, exec_bind, hrun]
  rcases hr with ⟨rfl, rfl⟩ | ⟨e, rfl, rfl⟩
  · rfl
  · rfl

theorem run_fetchAll {ρ : Type} (rows : List ρ) (s : Store) :
    (s.ambient.Quiet (rows.length + 1) ∧ (fetchAll 0 rows).run handle s =
      some ((rows, .ok ()), s.after s.conn (rows.length + 1))) ∨
    ∃ i ≤ rows.length, s.ambient.Quiet i ∧ ¬ s.ambient.Quiet (i + 1) ∧
      (fetchAll 0 rows).run handle s =
        some ((rows.take i, .error (.sql .busy)), s.afterRaise s.conn (i + 1)) := by
  have hstep (s : Store) : (sql 0 .fetchRow).run.run handle s = s.exec (sql 0 .fetchRow) := rfl
  induction rows generalizing s with
  | nil =>
    rw [fetchAll, Program.run_bind', hstep, exec_sql]
    cases hf : s.ambient.faulty with
    | true =>
      have hnot : ¬ s.ambient.Quiet 1 := by simp [Ambient.quiet_succ, hf]
      refine Or.inr ⟨0, Nat.le_refl _, Ambient.quiet_zero, hnot, ?_⟩
      rw [attempt_busy hf]
      rfl
    | false =>
      refine Or.inl ⟨Ambient.quiet_succ.mpr ⟨hf, Ambient.quiet_zero⟩, ?_⟩
      rw [attempt_ok hf (x := ()) rfl]
      rfl
  | cons row rows ih =>
    rw [fetchAll, Program.run_bind', hstep, exec_sql]
    cases hf : s.ambient.faulty with
    | true =>
      have hnot : ¬ s.ambient.Quiet 1 := by simp [Ambient.quiet_succ, hf]
      refine Or.inr ⟨0, Nat.zero_le _, Ambient.quiet_zero, hnot, ?_⟩
      rw [attempt_busy hf]
      rfl
    | false =>
      rw [attempt_ok hf (x := ()) rfl]
      let t := s.after s.conn 1
      have hnext (x : List ρ × Except Exc Unit) (t' : Store)
          (hrun : (fetchAll 0 rows).run handle t = some (x, t')) :
          ((fetchAll 0 rows >>= fun rest => pure (row :: rest.1, rest.2) : Program effects
            (List ρ × Except Exc Unit)).run handle t) = some ((row :: x.1, x.2), t') := by
        rw [Program.run_bind', hrun]
        rfl
      rcases ih t with ⟨hq, hrun⟩ | ⟨i, hi, hq, hnot, hrun⟩
      · refine Or.inl ⟨Ambient.quiet_succ.mpr ⟨hf, hq⟩, (hnext _ _ hrun).trans ?_⟩
        simp [t, Nat.add_comm]
      · refine Or.inr ⟨i + 1, Nat.succ_le_succ hi, Ambient.quiet_succ.mpr ⟨hf, hq⟩,
          fun h => hnot (Ambient.quiet_succ.mp h).2, (hnext _ _ hrun).trans ?_⟩
        simp [t, Nat.add_comm]

theorem exec_queryOne (s : Store) (q : Query) (hs : s.held = false) :
    s.exec (queryOne q) =
      if s.ambient.faulty then some (.error (.sql .busy), s.afterRaise s.conn 1)
      else some (.ok (q.rows s.conn.view).head?, s.after s.conn 1) := by
  rw [queryOne, exec_withSession s _ hs, exec_bind, exec_sql]
  obtain ⟨conn, held, amb⟩ := s
  simp only at hs
  subst hs
  cases hf : amb.faulty with
  | true =>
    rw [attempt_busy hf]
    rfl
  | false =>
    have hans : conn.answer amb.now (.query q) = .ok (q.rows conn.view, conn) := rfl
    rw [attempt_ok hf hans]
    rfl

theorem exec_pushRows {ρ : Type} (rows : List ρ) (s : Store) :
    (s.ambient.Quiet (rows.length + 1) ∧
      s.exec (pushRows 0 rows) = some (.ok rows, s.after s.conn (rows.length + 1))) ∨
    ∃ i ≤ rows.length, s.ambient.Quiet i ∧ ¬ s.ambient.Quiet (i + 1) ∧
      s.exec (pushRows 0 rows) = some (.ok (rows.take i), s.afterRaise s.conn (i + 1)) := by
  have hlift : s.exec (ExceptT.lift (fetchAll 0 rows) : Code (List ρ × Except Exc Unit)) =
      ((fetchAll 0 rows).run handle s).map fun x => (.ok x.1, x.2) :=
    Framework.Code.exec_lift handle s _
  rw [pushRows, exec_bind, hlift]
  rcases run_fetchAll rows s with ⟨hq, hrun⟩ | ⟨i, hi, hq, hnot, hrun⟩
  · refine Or.inl ⟨hq, ?_⟩
    rw [hrun]
    rfl
  · refine Or.inr ⟨i, hi, hq, hnot, ?_⟩
    rw [hrun]
    rfl

theorem exec_collect (s : Store) (q : Query) (hs : s.held = false) :
    ∃ rows s', s.exec (collect q) = some (.ok rows, s') ∧ Collected q s rows s' := by
  rw [collect, exec_withSession s _ hs, exec_catchRuntime, exec_bind, exec_sql]
  obtain ⟨conn, held, amb⟩ := s
  simp only at hs
  subst hs
  let s : Store := ⟨conn, false, amb⟩
  let s₁ : Store := (⟨conn, true, amb⟩ : Store).after conn 1
  cases hf : amb.faulty with
  | true =>
    refine ⟨[], s.afterRaise conn 1, ?_, .refused hf⟩
    rw [attempt_busy hf]
    rfl
  | false =>
    have hans : conn.answer amb.now (.query q) = .ok (q.rows conn.view, conn) := rfl
    rw [attempt_ok hf hans]
    rcases exec_pushRows (q.rows conn.view) s₁ with ⟨hq, hrun⟩ | ⟨i, hi, hq, hnot, hrun⟩
    · refine ⟨q.rows conn.view, s.after conn ((q.rows conn.view).length + 2), ?_,
        .complete (Ambient.quiet_succ.mpr ⟨hf, hq⟩)⟩
      simp only [s₁, after_after, Nat.add_comm 1] at hrun
      change Option.map _ (Option.bind (s₁.exec (pushRows 0 (q.rows conn.view))) _) = _
      simp only [s₁, hrun]
      rfl
    · refine ⟨(q.rows conn.view).take i, s.afterRaise conn (i + 2), ?_,
        .cut i hi (Ambient.quiet_succ.mpr ⟨hf, hq⟩) fun h => hnot (Ambient.quiet_succ.mp h).2⟩
      simp only [s₁, after_afterRaise, Nat.add_comm 1] at hrun
      change Option.map _ (Option.bind (s₁.exec (pushRows 0 (q.rows conn.view))) _) = _
      simp only [s₁, hrun]
      rfl

end Store

namespace Collected

variable {q : Query} {s s' : Store} {rows : List q.Row}

theorem conn_eq (h : Collected q s rows s') : s'.conn = s.conn := by
  cases h <;> rfl

theorem held_eq (h : Collected q s rows s') : s'.held = s.held := by
  cases h <;> rfl

theorem replies_eq (h : Collected q s rows s') : s'.ambient.replies = s.ambient.replies := by
  cases h <;> rfl

theorem subset (h : Collected q s rows s') : ∀ row ∈ rows, row ∈ q.rows s.conn.view := by
  cases h with
  | complete _ => exact fun _ hrow => hrow
  | refused _ => exact nofun
  | cut i _ _ _ => exact fun _ hrow => List.mem_of_mem_take hrow

/-- Rows are only missing when a statement raised. -/
theorem of_quiet (h : Collected q s rows s')
    (hquiet : s.ambient.Quiet ((q.rows s.conn.view).length + 2)) :
    rows = q.rows s.conn.view ∧ s' = s.after s.conn ((q.rows s.conn.view).length + 2) := by
  cases h with
  | complete _ => exact ⟨rfl, rfl⟩
  | refused hbusy =>
    have := (Ambient.quiet_succ.mp hquiet).1
    rw [hbusy] at this
    cases this
  | cut i hi _ hbusy => exact absurd (hquiet.mono (by omega)) hbusy

theorem raised_eq_iff (h : Collected q s rows s') :
    s'.ambient.raised = s.ambient.raised ↔
      s.ambient.Quiet ((q.rows s.conn.view).length + 2) := by
  cases h with
  | complete hquiet => simp [hquiet]
  | refused hbusy => simp [Ambient.quiet_succ, hbusy]
  | cut i hi _ hbusy =>
    have hnot : ¬ s.ambient.Quiet ((q.rows s.conn.view).length + 2) :=
      fun h => hbusy (h.mono (by omega))
    simp [hnot]

end Collected

/-! ## What the busy statements leave -/

/-- How many of the next `n` statements run before one finds the database busy. -/
def Ambient.quietFor (a : Ambient) (n : Nat) : Nat := Nat.findGreatest a.Quiet n

private theorem Ambient.quietFor_of_quiet {a : Ambient} {n : Nat} (h : a.Quiet n) :
    a.quietFor n = n :=
  Nat.findGreatest_eq h

private theorem Ambient.quietFor_of_busy {a : Ambient} {k n : Nat} (hk : k ≤ n) (hquiet : a.Quiet k)
    (hbusy : ¬ a.Quiet (k + 1)) : a.quietFor n = k :=
  Nat.findGreatest_eq_iff.mpr ⟨hk, fun _ => hquiet, fun _ hj _ h => hbusy (h.mono hj)⟩

/-- The records that are read before a statement finds the database busy. -/
def Query.readable (q : Query) (db : Db) (a : Ambient) : List q.Row :=
  (q.rows db).take (a.quietFor ((q.rows db).length + 2) - 1)

def Query.faultsLeft (q : Query) (db : Db) (a : Ambient) : List Bool :=
  a.faults.drop (min ((q.rows db).length + 2) (a.quietFor ((q.rows db).length + 2) + 1))

theorem Collected.readable_eq {q : Query} {s s' : Store} {rows : List q.Row}
    (h : Collected q s rows s') :
    rows = q.readable s.conn.view s.ambient ∧
      s'.ambient.faults = q.faultsLeft s.conn.view s.ambient := by
  unfold Query.readable Query.faultsLeft
  cases h with
  | complete hquiet =>
    rw [Ambient.quietFor_of_quiet hquiet, List.take_of_length_le (by omega),
      min_eq_left (by omega)]
    exact ⟨rfl, rfl⟩
  | refused hbusy =>
    have hnone : ¬ s.ambient.Quiet (0 + 1) := by simp [Ambient.quiet_succ, hbusy]
    rw [Ambient.quietFor_of_busy (Nat.zero_le _) Ambient.quiet_zero hnone,
      min_eq_right (by omega)]
    exact ⟨rfl, rfl⟩
  | cut i hi hquiet hbusy =>
    rw [Ambient.quietFor_of_busy (by omega) hquiet hbusy, min_eq_right (by omega)]
    exact ⟨rfl, rfl⟩

/-- The faults that an idle connection still meets; with an open transaction every transaction
is refused, and there is nothing to say. -/
def Store.access (s : Store) : Option (List Bool) :=
  if s.conn.tx = none then some s.ambient.faults else none

theorem Store.access_idle {s : Store} (h : s.conn.tx = none) : s.access = some s.ambient.faults :=
  if_pos h

theorem Store.access_open {s : Store} (h : s.conn.tx ≠ none) : s.access = none := if_neg h

/-- What a transaction of `n` statements leaves of an idle connection: it commits, or it is
refused at once, or it stays open. -/
def afterTransaction (n : Nat) (faults : List Bool) : Option (List Bool) :=
  if true ∉ faults.take (n + 2) then some (faults.drop (n + 2))
  else if faults.headD false = true then some (faults.drop 1)
  else none

theorem Transacted.access_eq {stmts : List Stmt} {s s' : Store} {done : Bool}
    (h : Transacted stmts s done s') (hidle : s.conn.tx = none) {db : Db}
    (hrun : Stmt.runAll s.ambient.now stmts s.conn.file = .ok db) :
    s'.access = afterTransaction stmts.length s.ambient.faults := by
  change _ = if s.ambient.Quiet (stmts.length + 2) then some _ else
    if s.ambient.faulty = true then some _ else none
  cases h with
  | committed _ _ hquiet _ =>
    rw [if_pos hquiet]
    rfl
  | refused hbegin =>
    have hf : s.ambient.faulty = true := hbegin.resolve_right (not_not.mpr hidle)
    have hnot : ¬ s.ambient.Quiet (stmts.length + 2) := by simp [Ambient.quiet_succ, hf]
    rw [if_neg hnot, if_pos hf]
    exact Store.access_idle hidle
  | abandoned i _ _ hi _ hquiet hwhy =>
    have hnot : ¬ s.ambient.Quiet (stmts.length + 2) := by
      rcases hwhy with hbusy | ⟨e, he⟩
      · exact fun h => hbusy (h.mono (by omega))
      · rw [hrun] at he
        cases he
    have hf : s.ambient.faulty = false := (Ambient.quiet_succ.mp hquiet).1
    rw [if_neg hnot, if_neg (by rw [hf]; decide)]
    exact Store.access_open (by simp)

/-- A first statement that fails leaves the transaction open, unless it was refused at once. -/
theorem Transacted.access_of_error {stmts : List Stmt} {s s' : Store} {done : Bool}
    (h : Transacted stmts s done s') (hidle : s.conn.tx = none) {e : SqlError}
    (hrun : Stmt.runAll s.ambient.now stmts s.conn.file = .error e) :
    done = false ∧
      s'.access = if s.ambient.faulty = true then some (s.ambient.faults.drop 1) else none := by
  cases h with
  | committed db _ _ hrun' =>
    rw [hrun] at hrun'
    cases hrun'
  | refused hbegin =>
    have hf : s.ambient.faulty = true := hbegin.resolve_right (not_not.mpr hidle)
    rw [if_pos hf]
    exact ⟨rfl, Store.access_idle hidle⟩
  | abandoned i _ _ _ _ hquiet =>
    have hf : s.ambient.faulty = false := (Ambient.quiet_succ.mp hquiet).1
    rw [if_neg (by rw [hf]; decide)]
    exact ⟨rfl, Store.access_open (by simp)⟩

namespace Store

/-- A query of a client that finds the database free runs to completion. -/
theorem exec_collect_free (c : Connection) (q : Query) :
    (free c).exec (collect q) = some (.ok (q.rows c.view), free c) := by
  obtain ⟨rows, s', hrun, hc⟩ := exec_collect (free c) q rfl
  obtain ⟨rfl, rfl⟩ := hc.of_quiet (Ambient.quiet_of_no_faults rfl _)
  exact hrun

end Store

/-! ## Invariants of the connection -/

namespace Connection

/-- The predicate holds of the file and of a transaction left open. -/
def Both (I : Db → Prop) (c : Connection) : Prop :=
  I c.file ∧ ∀ db, c.tx = some db → I db

def Views (I : Db → Prop) (c : Connection) : Prop := I c.view

theorem Both.view {I : Db → Prop} {c : Connection} (h : c.Both I) : I c.view := by
  unfold Connection.view
  cases htx : c.tx with
  | none => exact h.1
  | some db => exact h.2 db htx

end Connection

namespace Store

/-- Every transaction of these statements keeps the predicate, whichever of them raise. -/
def Preserves (J : Connection → Prop) (stmts : List Stmt) : Prop :=
  ∀ s s' done, Transacted stmts s done s' → J s.conn → J s'.conn

section
variable {I : Db → Prop} {stmts : List Stmt}
  (hI : ∀ st ∈ stmts, ∀ now db db', I db → st.run now db = .ok db' → I db')
include hI

theorem preserves_both : Preserves (Connection.Both I) stmts := by
  intro s s' done h hboth
  constructor
  · cases h with
    | committed db _ _ hrun =>
      exact Stmt.runAll_preserves (fun st hst => hI st hst _) hboth.1 hrun
    | refused => exact hboth.1
    | abandoned => exact hboth.1
  · intro db hdb
    cases h with
    | committed => cases hdb
    | refused => exact hboth.2 db hdb
    | abandoned i db₁ _ _ hrun _ _ =>
      cases hdb
      refine Stmt.runAll_preserves (fun st hst => hI st ?_ _) hboth.1 hrun
      exact List.mem_of_mem_take hst

theorem preserves_views : Preserves (Connection.Views I) stmts := by
  intro s s' done h hview
  have hfile (hidle : s.conn.tx = none) : I s.conn.file := by
    simpa only [Connection.Views, Connection.view, hidle, Option.getD_none] using hview
  cases h with
  | committed db hidle _ hrun =>
    exact Stmt.runAll_preserves (fun st hst => hI st hst _) (hfile hidle) hrun
  | refused => exact hview
  | abandoned i db hidle _ hrun _ _ =>
    refine Stmt.runAll_preserves (fun st hst => hI st ?_ _) (hfile hidle) hrun
    exact List.mem_of_mem_take hst

end

/-- Between two operations, with a predicate of the connection and one of the answers that are
still to come. -/
structure Holds (J : Connection → Prop) (A : Option Response → Prop) (s : Store) : Prop where
  released : s.held = false
  conn : J s.conn
  answers : ∀ r ∈ s.ambient.replies, A r

variable {J : Connection → Prop} {A : Option Response → Prop}

theorem Holds.collected {q : Query} {s s' : Store} {rows : List q.Row} (h : s.Holds J A)
    (hc : Collected q s rows s') : s'.Holds J A := by
  have hconn := hc.conn_eq
  exact ⟨hc.held_eq.trans h.released, hconn ▸ h.conn, hc.replies_eq ▸ h.answers⟩

open Framework.Code

theorem keeps_transaction {stmts : List Stmt} (hJ : Preserves J stmts) :
    Keeps handle (Holds J A) (transaction stmts) := by
  intro s hs
  obtain ⟨r, done, s', hrun, _, ht⟩ := exec_transaction s stmts hs.released
  exact ⟨r, s', hrun, ht.held_eq.trans hs.released, hJ s s' done ht hs.conn,
    ht.replies_eq ▸ hs.answers⟩

theorem keeps_catchRuntime {α : Type} {p : Code α} {f : Exc → Code α}
    (hp : Keeps handle (Holds J A) p) (hf : ∀ e, Keeps handle (Holds J A) (f e)) :
    Keeps handle (Holds J A) (catchRuntime p f) := by
  apply Keeps.tryCatch hp
  intro e
  split_ifs
  · exact hf e
  · exact Keeps.throw e

theorem keeps_committed {stmts : List Stmt} (hJ : Preserves J stmts) :
    Keeps handle (Holds J A) (committed stmts) :=
  keeps_catchRuntime ((keeps_transaction hJ).bind fun _ => Keeps.pure _) fun _ => Keeps.pure _

theorem keeps_collect (q : Query) : Keeps handle (Holds J A) (collect q) := by
  intro s hs
  obtain ⟨rows, s', hrun, hc⟩ := exec_collect s q hs.released
  exact ⟨.ok rows, s', hrun, hs.collected hc⟩

theorem keeps_queryOne (q : Query) : Keeps handle (Holds J A) (queryOne q) := by
  intro s hs
  rw [show Framework.Code.exec handle (queryOne q) s = _ from exec_queryOne s q hs.released]
  split_ifs
  · exact ⟨_, _, rfl, hs.released, hs.conn, hs.answers⟩
  · exact ⟨_, _, rfl, hs.released, hs.conn, hs.answers⟩

end Store

/-! ## Statements of their own -/

/-- A call that is answered keeps the predicate if its statement does. -/
theorem Connection.Both.answer {I : Db → Prop} {c c' : Connection} {now : Int} {k : Call}
    {x : k.Result} (hk : ∀ st, k = .exec st → ∀ db db', I db → st.run now db = .ok db' → I db')
    (h : c.Both I) (hc : c.answer now k = .ok (x, c')) : c'.Both I := by
  cases k with
  | begin =>
    simp only [Connection.answer] at hc
    split at hc <;> cases hc
    refine ⟨h.1, ?_⟩
    rintro db ⟨⟩
    exact h.1
  | commit =>
    simp only [Connection.answer] at hc
    split at hc <;> cases hc
    rename_i db htx
    exact ⟨h.2 db htx, by rintro db ⟨⟩⟩
  | exec st =>
    simp only [Connection.answer] at hc
    split at hc
    · rename_i db htx
      cases hrun : st.run now db with
      | error e => rw [hrun] at hc; cases hc
      | ok db' =>
        rw [hrun] at hc
        cases hc
        refine ⟨h.1, ?_⟩
        rintro db' ⟨⟩
        exact hk st rfl db _ (h.2 db htx) hrun
    · rename_i htx
      cases hrun : st.run now c.file with
      | error e => rw [hrun] at hc; cases hc
      | ok db' =>
        rw [hrun] at hc
        cases hc
        refine ⟨hk st rfl c.file db' h.1 hrun, ?_⟩
        intro db hdb
        exact h.2 db hdb
  | query q => cases hc; exact h
  | fetchRow => cases hc; exact h

namespace Store

/-- A statement keeps the predicate whatever becomes of it. -/
theorem keeps_sql {I : Db → Prop} {k : Call}
    (hk : ∀ st, k = .exec st → ∀ now db db', I db → st.run now db = .ok db' → I db') :
    Framework.Code.Keeps handle (fun s => s.conn.Both I) (sql 0 k) := by
  intro s hs
  refine ⟨_, _, exec_sql s k, ?_⟩
  cases hf : s.ambient.faulty with
  | true =>
    rw [attempt_busy hf]
    exact hs
  | false =>
    cases hc : s.conn.answer s.ambient.now k with
    | error e =>
      rw [attempt_error hf hc]
      exact hs
    | ok x =>
      rw [attempt_ok hf hc]
      exact Connection.Both.answer (fun st hst db db' => hk st hst _ db db') hs hc

theorem keeps_withSession {α : Type} {I : Db → Prop} {body : Nat → Code α}
    (h : Framework.Code.Keeps handle (fun s => s.conn.Both I) (body 0)) :
    Framework.Code.Keeps handle (fun s => s.held = false ∧ s.conn.Both I) (withSession body) := by
  intro s hs
  obtain ⟨r, s', hrun, hs'⟩ := h { s with held := true } hs.2
  refine ⟨r, { s' with held := false }, ?_, rfl, hs'⟩
  have hexec := exec_withSession s body hs.1
  rw [show ({ s with held := true } : Store).exec (body 0) = some (r, s') from hrun] at hexec
  exact hexec

end Store

/-! ## One operation after the other -/

/-- An operation on the connection, whatever its surroundings do: its result, and the
connection it leaves. -/
def Connection.perform {α : Type} (c : Connection) (ambient : Ambient) (p : Code α) :
    Option (Except Exc α) × Connection :=
  match ({ conn := c, ambient } : Store).exec p with
  | some (r, s) => (some r, s.conn)
  | none => (none, c)

theorem Connection.perform_of_exec {α : Type} {c : Connection} {ambient : Ambient} {p : Code α}
    {r : Except Exc α} {s' : Store}
    (hrun : ({ conn := c, ambient } : Store).exec p = some (r, s')) :
    c.perform ambient p = (some r, s'.conn) := by
  unfold perform
  rw [hrun]

theorem Connection.exec_of_perform {α : Type} {c : Connection} {ambient : Ambient} {p : Code α}
    {r : Except Exc α} (h : (c.perform ambient p).1 = some r) :
    ∃ s', ({ conn := c, ambient } : Store).exec p = some (r, s') ∧
      c.perform ambient p = (some r, s'.conn) := by
  cases hrun : ({ conn := c, ambient } : Store).exec p with
  | none =>
    unfold perform at h
    rw [hrun] at h
    cases h
  | some x =>
    obtain ⟨r', s'⟩ := x
    have hperform := Connection.perform_of_exec hrun
    rw [hperform, Option.some.injEq] at h
    rw [h] at hperform ⊢
    exact ⟨s', rfl, hperform⟩

theorem Connection.perform_of_keeps {α : Type} {J : Connection → Prop}
    {A : Option Response → Prop} {c : Connection} {ambient : Ambient} {p : Code α}
    (hk : Framework.Code.Keeps Store.handle (Store.Holds J A) p) (hA : ∀ r ∈ ambient.replies, A r)
    (hc : J c) : J (c.perform ambient p).2 := by
  obtain ⟨r, s', hrun, hs'⟩ := hk { conn := c, ambient } ⟨rfl, hc, hA⟩
  rw [Connection.perform_of_exec hrun]
  exact hs'.conn

end DblService
