import DblService.Framework.Program
import Mathlib.Logic.Function.Basic

/-!
# Programs that write files

A program with exceptions that also writes text files.  A stream that is opened on a file
empties the file at once and appends what is inserted; a stream that fails to open drops it.
An exception does not undo what was written.
-/

namespace DblService.Framework

/-- The text of every file, and which files can be opened for writing. -/
structure Disk where
  content : String → Option String
  writable : String → Bool

namespace Disk

variable (d : Disk)

def put (path text : String) : Disk :=
  { d with content := Function.update d.content path (some text) }

def truncate (path : String) : Disk := if d.writable path then d.put path "" else d

def append (path text : String) : Disk :=
  match d.content path with
  | none => d
  | some old => d.put path (old ++ text)

/-- What is inserted into a stream; `none` is a stream that could not be opened. -/
def receive (ofh : Option String) (text : String) : Disk :=
  ofh.elim d fun path => d.append path text

@[simp] theorem put_content (path text : String) : (d.put path text).content path = some text :=
  Function.update_self ..

@[simp] theorem put_writable (path text : String) : (d.put path text).writable = d.writable := rfl

@[simp] theorem put_put (path text text' : String) :
    (d.put path text).put path text' = d.put path text' := by
  simp only [put, Function.update_idem]

@[simp] theorem append_put (path text text' : String) :
    (d.put path text).append path text' = d.put path (text ++ text') := by
  simp [append]

theorem append_empty (path : String) : d.append path "" = d := by
  unfold append
  cases h : d.content path with
  | none => rfl
  | some old =>
    simp only [String.append_empty, put, ← h, Function.update_eq_self]

theorem receive_empty (ofh : Option String) : d.receive ofh "" = d := by
  cases ofh with
  | none => rfl
  | some path => exact d.append_empty path

theorem append_append (path text text' : String) :
    (d.append path text).append path text' = d.append path (text ++ text') := by
  cases h : d.content path with
  | none => simp [append, h]
  | some old => simp [append, h, String.append_assoc]

@[simp] theorem receive_receive (ofh : Option String) (text text' : String) :
    (d.receive ofh text).receive ofh text' = d.receive ofh (text ++ text') := by
  cases ofh with
  | none => rfl
  | some path => exact d.append_append path text text'

end Disk

variable {F : Signature} {ε σ α β : Type}

abbrev FileCode (F : Signature) (ε α : Type) := ExceptT ε (StateT Disk (Program F)) α

namespace FileCode

def ofstream (path : String) : FileCode F ε (Option String) := do
  let d : Disk ← get
  set (d.truncate path)
  pure (if d.writable path then some path else none)

def insert (ofh : Option String) (text : String) : FileCode F ε Unit :=
  modify fun d => d.receive ofh text

def lift (p : Code F ε α) : FileCode F ε α := ExceptT.mk (StateT.lift p.run)

def exec (h : Handler F σ) (p : FileCode F ε α) (d : Disk) (s : σ) :
    Option ((Except ε α × Disk) × σ) := (p.run.run d).run h s

variable (h : Handler F σ) (d : Disk) (s : σ)

@[simp] theorem exec_pure (a : α) :
    exec h (pure a : FileCode F ε α) d s = some ((.ok a, d), s) := rfl

@[simp] theorem exec_throw (e : ε) :
    exec h (throw e : FileCode F ε α) d s = some ((.error e, d), s) := rfl

theorem exec_bind (p : FileCode F ε α) (f : α → FileCode F ε β) :
    exec h (p >>= f) d s = (exec h p d s).bind fun x =>
      match x.1.1 with
      | .ok a => exec h (f a) x.1.2 x.2
      | .error e => some ((.error e, x.1.2), x.2) := by
  change (Program.bind (p.run.run d) _).run h s = _
  rw [Program.run_bind]
  unfold exec
  cases (p.run.run d).run h s with
  | none => rfl
  | some x =>
    obtain ⟨⟨r, d₁⟩, s₁⟩ := x
    cases r <;> rfl

theorem exec_ofstream (path : String) :
    exec h (ofstream path : FileCode F ε (Option String)) d s =
      some ((.ok (if d.writable path then some path else none), d.truncate path), s) := rfl

theorem exec_insert (ofh : Option String) (text : String) :
    exec h (insert ofh text : FileCode F ε Unit) d s = some ((.ok (), d.receive ofh text), s) := rfl

theorem exec_lift (p : Code F ε α) :
    exec h (lift p) d s = (Code.exec h p s).map fun x => ((x.1, d), x.2) := by
  change (Program.bind p.run _).run h s = _
  rw [Program.run_bind]
  unfold Code.exec
  cases p.run.run h s <;> rfl

/-- Insertions one after the other are one insertion. -/
theorem exec_insertAll (ofh : Option String) (texts : List String) :
    exec h (texts.forM (insert ofh) : FileCode F ε Unit) d s =
      some ((.ok (), d.receive ofh (String.join texts)), s) := by
  induction texts generalizing d with
  | nil =>
    change some ((Except.ok (), d), s) = _
    rw [String.join_nil, d.receive_empty]
  | cons text texts ih =>
    change exec h (insert ofh text >>= fun _ => texts.forM (insert ofh)) d s = _
    rw [exec_bind, exec_insert]
    change exec h (texts.forM (insert ofh)) (d.receive ofh text) s = _
    rw [ih, String.join_cons, Disk.receive_receive]

end FileCode

end DblService.Framework
