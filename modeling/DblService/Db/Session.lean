import DblService.Db.Queries
import DblService.Http
import DblService.Framework.Program

/-!
# Sessions, transactions and the pool

What a program asks of its surroundings: leasing a `soci::session` from the pool
and giving it back, one statement at a time, and fetching a URL.  Two handlers
give this a meaning: `Pool.handle` keeps every connection of the pool with its
own open transaction, and `Store.handle` is the view of a client that runs its
operations one after the other and so always gets the first connection.
-/

namespace DblService

open Framework

inductive Call
  | begin
  | commit
  | exec (st : Stmt)
  | query (q : Query)
  | fetchRow  -- stepping a result to its next row

@[reducible] def Call.Result : Call → Type
  | .query q => List q.Row
  | _ => Unit

inductive Op
  | lease
  | release (c : Nat)
  | sql (c : Nat) (k : Call)
  | httpFetch (url : String)

@[reducible] def Op.Reply : Op → Type
  | .lease => Nat
  | .release _ => Unit
  | .sql _ k => Except SqlError k.Result
  | .httpFetch _ => Option Response

abbrev effects : Signature := ⟨Op, Op.Reply⟩

abbrev Code (α : Type) := Framework.Code effects Exc α

/-! ## The calls -/

namespace Session

variable {α : Type}

def call (op : Op) : Program effects op.Reply := Program.call op Program.done

/-- The scope of a leased session: it is given back however the body ends. -/
def withSession (body : Nat → Code α) : Code α := ExceptT.mk do
  let c ← call .lease
  let r ← (body c).run
  call (.release c)
  pure r

/-- A call that raises is an exception of the program. -/
def sql (c : Nat) (k : Call) : Code k.Result := ExceptT.mk do
  let r ← call (.sql c k)
  pure (Except.mapError Exc.sql r)

def begin (c : Nat) : Code Unit := sql c .begin

def commit (c : Nat) : Code Unit := sql c .commit

def exec (c : Nat) (st : Stmt) : Code Unit := sql c (.exec st)

/-- `try { ... } catch(const std::runtime_error&) { ... }`. -/
def catchRuntime (body : Code α) (handler : Exc → Code α) : Code α :=
  tryCatch body fun e => if e.isRuntimeError then handler e else throw e

/-- `begin()`, the statements in order, `commit()`, on a session of its own. -/
def transaction (stmts : List Stmt) : Code Unit :=
  withSession fun c => do
    begin c
    stmts.forM (exec c)
    commit c

/-- A transaction whose exceptions the caller sees as `false`. -/
def committed (stmts : List Stmt) : Code Bool :=
  catchRuntime
    (do
      transaction stmts
      pure true)
    fun _ => pure false

/-- `while(st.fetch()) { ptr->push_back(record); }`: the records pushed, and the exception
that ended the loop early. -/
def fetchAll {ρ : Type} (c : Nat) : List ρ → Program effects (List ρ × Except Exc Unit)
  | [] => do
    let r ← (sql c .fetchRow).run
    pure ([], r)
  | row :: rows => do
    match ← (sql c .fetchRow).run with
    | .error e => pure ([], .error e)
    | .ok () =>
      let rest ← fetchAll c rows
      pure (row :: rest.1, rest.2)

/-- The loop within its `try`: the records pushed before it ended stay. -/
def pushRows {ρ : Type} (c : Nat) (rows : List ρ) : Code (List ρ) := do
  let fetched ← ExceptT.lift (fetchAll c rows)
  match fetched.2 with
  | .ok () => pure fetched.1
  | .error e => if e.isRuntimeError then pure fetched.1 else throw e

/-- The records a query pushed before it ended, by an exception or not. -/
def collect (q : Query) : Code (List q.Row) :=
  withSession fun c => catchRuntime
    (do
      let rows ← sql c (.query q)
      pushRows c rows)
    fun _ => pure []

/-- `*session_ptr << q, into(x)`: the first row of the result, if there is one. -/
def queryOne (q : Query) : Code (Option q.Row) :=
  withSession fun c => do
    let rows ← sql c (.query q)
    pure (List.head? rows)

end Session

/-! ## One connection -/

/-- The committed content of the file and the open transaction of a connection. -/
structure Connection where
  file : Db
  tx : Option Db := none
  deriving DecidableEq

namespace Connection

/-- What the connection reads. -/
def view (c : Connection) : Db := c.tx.getD c.file

theorem view_of_idle {c : Connection} (h : c.tx = none) : c.view = c.file := by
  rw [view, h]
  rfl

def answer (now : Int) (c : Connection) : (k : Call) → Except SqlError (k.Result × Connection)
  | .begin =>
    match c.tx with
    | some _ => .error .nestedTransaction
    | none => .ok ((), { c with tx := some c.file })
  | .commit =>
    match c.tx with
    | some db => .ok ((), { file := db, tx := none })
    | none => .error .noTransaction
  | .exec st =>
    match c.tx with
    | some db => (st.run now db).map fun db => ((), { c with tx := some db })
    | none => (st.run now c.file).map fun db => ((), { c with file := db })
  | .query q => .ok (q.rows c.view, c)
  | .fetchRow => .ok ((), c)

end Connection

/-- What is outside the database: which of the next statements find it busy, the clock, and
the answers to the next HTTP transfers (past the end of the list they fail).  `raised` counts
the statements that raised; no program can read it. -/
structure Ambient where
  faults : List Bool := []
  now : Int := 0
  replies : List (Option Response) := []
  raised : Nat := 0
  deriving DecidableEq

namespace Ambient

def faulty (a : Ambient) : Bool := a.faults.headD false

def skip (a : Ambient) (n : Nat) : Ambient := { a with faults := a.faults.drop n }

def raise (a : Ambient) : Ambient := { a with raised := a.raised + 1 }

def nextReply (a : Ambient) : Option Response := a.replies.headD none

def afterReply (a : Ambient) : Ambient := { a with replies := a.replies.tail }

/-- One statement: it finds the database busy, or the connection answers it. A statement
that raises leaves the connection as it was, its transaction included. -/
def attempt (a : Ambient) (c : Connection) (k : Call) :
    Except SqlError k.Result × Connection × Ambient :=
  if a.faulty then (.error .busy, c, (a.skip 1).raise)
  else match c.answer a.now k with
    | .ok (x, c') => (.ok x, c', a.skip 1)
    | .error e => (.error e, c, (a.skip 1).raise)

end Ambient

/-! ## The pool -/

structure Slot where
  leased : Bool := false
  tx : Option Db := none

structure Pool where
  file : Db
  slots : List Slot
  ambient : Ambient := {}

namespace Pool

def setLeased (w : Pool) (i : Nat) (leased : Bool) : Pool :=
  { w with slots := w.slots.modify i fun s => { s with leased } }

def handle : Handler effects Pool
  | .lease, w =>
    -- the first free connection; without one the caller waits
    (w.slots.findIdx? fun s => !s.leased).map fun i => (i, w.setLeased i true)
  | .release i, w => some ((), w.setLeased i false)
  | .sql i k, w => (w.slots[i]?).map fun slot =>
    let r := w.ambient.attempt ⟨w.file, slot.tx⟩ k
    (r.1, { file := r.2.1.file,
            slots := w.slots.set i { slot with tx := r.2.1.tx },
            ambient := r.2.2 })
  | .httpFetch _, w =>
    some (w.ambient.nextReply, { w with ambient := w.ambient.afterReply })

end Pool

/-! ## A sequential client -/

/-- The pool as a client sees it that holds at most one session at a time: the first
connection of the pool. -/
structure Store where
  conn : Connection
  held : Bool := false
  ambient : Ambient := {}
  deriving DecidableEq

namespace Store

def handle : Handler effects Store
  | .lease, s => if s.held then none else some ((0 : Nat), { s with held := true })
  | .release i, s => if i = 0 then some ((), { s with held := false }) else none
  | .sql i k, s =>
    if i = 0 then
      let r := s.ambient.attempt s.conn k
      some (r.1, { s with conn := r.2.1, ambient := r.2.2 })
    else none
  | .httpFetch _, s =>
    some (s.ambient.nextReply, { s with ambient := s.ambient.afterReply })

abbrev exec {α : Type} (s : Store) (p : Code α) : Option (Except Exc α × Store) :=
  Framework.Code.exec handle p s

/-- The pool whose first connection is the client's. -/
def pool (s : Store) (rest : List Slot) : Pool :=
  { file := s.conn.file, slots := { leased := s.held, tx := s.conn.tx } :: rest,
    ambient := s.ambient }

private theorem handle_pool (rest : List Slot) (op : Op) (s : Store) (r : op.Reply) (s' : Store)
    (hop : handle op s = some (r, s')) :
    Pool.handle op (s.pool rest) = some (r, s'.pool rest) := by
  cases op with
  | lease =>
    cases hheld : s.held with
    | true => simp [handle, hheld] at hop
    | false =>
      simp only [handle, hheld, Bool.false_eq_true, if_false, Option.some.injEq] at hop
      obtain ⟨rfl, rfl⟩ := hop
      simp only [Pool.handle, pool, hheld, List.findIdx?_cons, Bool.not_false, if_true]
      rfl
  | release i =>
    by_cases hi : i = 0
    · subst hi
      simp only [handle, if_true, Option.some.injEq] at hop
      obtain ⟨rfl, rfl⟩ := hop
      rfl
    · simp [handle, hi] at hop
  | sql i k =>
    by_cases hi : i = 0
    · subst hi
      simp only [handle, if_true, Option.some.injEq] at hop
      obtain ⟨rfl, rfl⟩ := hop
      rfl
    · simp [handle, hi] at hop
  | httpFetch url =>
    simp only [handle, Option.some.injEq] at hop
    obtain ⟨rfl, rfl⟩ := hop
    rfl

/-- What a sequential client computes is what the pool computes. -/
theorem exec_pool {α : Type} {p : Code α} {s s' : Store} (rest : List Slot) {r : Except Exc α}
    (hrun : s.exec p = some (r, s')) :
    Framework.Code.exec Pool.handle p (s.pool rest) = some (r, s'.pool rest) := by
  have hstep (op : Op) (s : Store) (w : Pool) (r : op.Reply) (s' : Store) (hw : s.pool rest = w)
      (hop : handle op s = some (r, s')) :
      ∃ w', Pool.handle op w = some (r, w') ∧ s'.pool rest = w' :=
    ⟨s'.pool rest, hw ▸ handle_pool rest op s r s' hop, rfl⟩
  obtain ⟨w', hrun', hw'⟩ :=
    Program.run_simulates (R := fun s w => s.pool rest = w) hstep p.run rfl hrun
  exact hw' ▸ hrun'

end Store

end DblService
