import DblService.Http
import DblService.Launch

/-!
# Starting and stopping the DNS proxy on Unix

`service::Unix` runs commands and looks at what they answer.  A machine is any function that
answers a command after the commands run before it, so it may change its mind at any time.
-/

namespace DblService

open Framework

/-- The status and the output of a command, after the commands run so far. -/
abbrev Shell := List String → String → Int × String

/-- What a `service::Unix` keeps about the proxy, and what it has done. -/
structure Unix where
  systemProxyWasRunning : Bool := false
  commands : List String := []  -- the commands run, in order
  slept : Nat := 0  -- milliseconds spent in `sleep_for`
  unlinked : List String := []  -- the files unlinked

namespace Unix

abbrev Code (α : Type) := ExceptT Exc (StateM Unix) α

def Code.start {α : Type} (p : Code α) (u : Unix) : Except Exc α × Unix := p.run.run u

theorem start_bind {α β : Type} (p : Code α) (f : α → Code β) (u : Unix) :
    (p >>= f).start u =
      match (p.start u).1 with
      | .ok a => (f a).start (p.start u).2
      | .error e => (.error e, (p.start u).2) := by
  unfold Code.start
  rw [ExceptT.run_bind, StateT.run_bind]
  rcases p.run.run u with ⟨r, u'⟩
  cases r <;> rfl

def orThrow {α : Type} (r : Except Exc α) : Code α := ExceptT.mk (pure r)

/-- `atoi` of a text without leading blanks. -/
def atoi (text : List Char) : Int :=
  let number (ds : List Char) : Int :=
    (ds.takeWhile Char.isDigit).foldl (fun n d => 10 * n + (d.toNat - 48 : Int)) 0
  match text with
  | '-' :: ds => -number ds
  | '+' :: ds => number ds
  | ds => number ds

section

variable (shell : Shell)

def runCommand (cmd : String) : Code (Int × String) := do
  let u ← get
  set { u with commands := u.commands ++ [cmd] }
  pure (shell u.commands cmd)

def sleepFor (ms : Nat) : Code Unit := modify fun u => { u with slept := u.slept + ms }

variable (pidofBin : String)

def getPidOf (program : String) : Code Int := do
  let (status, cmdOutput) ← runCommand shell (pidofBin ++ " " ++ program)
  if status = 0 then
    pure (atoi (Http.trimCopy cmdOutput.toList))
  else
    pure (-1)

def rcCommands (proxy action : String) : List String :=
  ["/usr/sbin/service " ++ proxy ++ " " ++ action,
    "/etc/init.d/" ++ proxy ++ " " ++ action,
    "/etc/rc.d/" ++ proxy ++ " " ++ action,
    "/usr/local/etc/rc.d/" ++ proxy ++ " " ++ action,
    "/usr/sbin/systemctl " ++ action ++ " " ++ proxy]

/-- The first command that succeeds ends the loop. -/
def tryCommands : List String → Code Bool
  | [] => pure false
  | cmd :: cmds => do
    let (status, _) ← runCommand shell cmd
    if status = 0 then pure true else tryCommands cmds

def runRc (config : Settings) (action : String) : Code Bool :=
  tryCommands shell (rcCommands (config .dnsProxy) action)

def waitTimeMs : Nat := 100

/-- `while(new_pid < 1 && wait_counter) { ... }`. -/
def awaitProxy (program : String) : (waitCounter : Nat) → (newPid : Int) → Code Int
  | 0, newPid => pure newPid
  | waitCounter + 1, newPid =>
    if newPid < 1 then do
      let newPid ← getPidOf shell pidofBin program
      sleepFor waitTimeMs
      awaitProxy program waitCounter newPid
    else
      pure newPid

def startDnsProxy (isExecutable : String → Bool) (config : Settings) (proxy : Proxy) :
    Code Unit := do
  if !config .noSystemDnsProxy then
    let proxyBin ← orThrow (Configurator.getProxyExecutableName config)
    let currentPid ← getPidOf shell pidofBin proxyBin
    modify fun u => { u with systemProxyWasRunning := decide (currentPid > 0) }
    let success ← runRc shell config "restart"
    if !success then
      throw (.runtime "Unable to start system dns proxy service")
    let newPid ← getPidOf shell pidofBin proxyBin
    let newPid ← awaitProxy shell pidofBin proxyBin (3000 / waitTimeMs) newPid
    if newPid = currentPid ∨ newPid < 0 then
      throw (.runtime ("Unable to start service: " ++ config .dnsProxy))
  else
    let cmd ← orThrow (Configurator.findProxyExecutable isExecutable config)
    if cmd = "" then
      throw (.runtime "Unable to find dns proxy executable")
    let cmd := cmd ++ " -v " ++ (" -c " ++ proxy.configPath config)
    let (status, _) ← runCommand shell cmd
    if status ≠ 0 then
      throw (.runtime ("Unable to start dns proxy. Command: " ++ cmd))

end

/-! ## Runs on any machine -/

/-- The same object after some more commands. -/
def ran (u : Unix) (cmds : List String) : Unix := { u with commands := u.commands ++ cmds }

@[simp] theorem ran_systemProxyWasRunning (u : Unix) (cmds : List String) :
    (u.ran cmds).systemProxyWasRunning = u.systemProxyWasRunning := rfl

@[simp] theorem ran_ran (u : Unix) (xs ys : List String) :
    (u.ran xs).ran ys = u.ran (xs ++ ys) := by
  simp [ran]

@[simp] theorem ran_nil (u : Unix) : u.ran [] = u := by
  simp [ran]

@[simp] theorem start_orThrow {α : Type} (r : Except Exc α) (u : Unix) :
    (orThrow r).start u = (r, u) := rfl

@[simp] theorem start_get (u : Unix) : (get : Code Unix).start u = (.ok u, u) := rfl

variable {shell : Shell} {pidofBin : String}

@[simp] theorem start_runCommand (cmd : String) (u : Unix) :
    (runCommand shell cmd).start u = (.ok (shell u.commands cmd), u.ran [cmd]) := rfl

def ask (pidofBin program : String) : String := pidofBin ++ " " ++ program

def pidAfter (shell : Shell) (pidofBin program : String) (past : List String) : Int :=
  let answer := shell past (ask pidofBin program)
  if answer.1 = 0 then atoi (Http.trimCopy answer.2.toList) else -1

def AllFail (shell : Shell) (past : List String) : List String → Prop
  | [] => True
  | cmd :: cmds => (shell past cmd).1 ≠ 0 ∧ AllFail shell (past ++ [cmd]) cmds

/-- What the loop over some commands runs, and whether one of them succeeded. -/
inductive Tried (shell : Shell) (past cmds : List String) : List String → Bool → Prop
  | success (failed : List String) (cmd : String) (rest : List String)
      (order : cmds = failed ++ cmd :: rest) (fails : AllFail shell past failed)
      (succeeds : (shell (past ++ failed) cmd).1 = 0) : Tried shell past cmds (failed ++ [cmd]) true
  | failure (fails : AllFail shell past cmds) : Tried shell past cmds cmds false

theorem Tried.cons {past cmds ran : List String} {cmd : String} {success : Bool}
    (hcmd : (shell past cmd).1 ≠ 0) (h : Tried shell (past ++ [cmd]) cmds ran success) :
    Tried shell past (cmd :: cmds) (cmd :: ran) success := by
  cases h with
  | success failed last rest order fails succeeds =>
    exact .success (cmd :: failed) last rest (by simp [order]) ⟨hcmd, fails⟩
      (by simpa using succeeds)
  | failure fails => exact .failure ⟨hcmd, fails⟩

def restarted (shell : Shell) (pidofBin program : String) (u : Unix) (tried : List String)
    (asked turns : Nat) : Unix :=
  { u.ran (ask pidofBin program :: (tried ++ List.replicate asked (ask pidofBin program))) with
    systemProxyWasRunning := decide (pidAfter shell pidofBin program u.commands > 0)
    slept := u.slept + waitTimeMs * turns }

/-- The pid that is seen after the commands that were tried and some more questions. -/
def pidSeen (shell : Shell) (pidofBin program : String) (u : Unix) (tried : List String)
    (i : Nat) : Int :=
  pidAfter shell pidofBin program
    (u.commands ++ ask pidofBin program ::
      (tried ++ List.replicate i (ask pidofBin program)))

/-- How a start ends where the proxy is a service of the system. -/
inductive Restarted (shell : Shell) (pidofBin program service : String) (u : Unix) :
    Except Exc Unit × Unix → Prop
  | refused
      (fails : AllFail shell (u.commands ++ [ask pidofBin program])
        (rcCommands service "restart")) :
      Restarted shell pidofBin program service u
        (.error (.runtime "Unable to start system dns proxy service"),
          u.restarted shell pidofBin program (rcCommands service "restart") 0 0)
  | seen (tried : List String) (turns : Nat)
      (tries : Tried shell (u.commands ++ [ask pidofBin program])
        (rcCommands service "restart") tried true)
      (bounded : turns ≤ 30)
      (waited : ∀ i < turns, pidSeen shell pidofBin program u tried i < 1)
      (ended : turns < 30 → 1 ≤ pidSeen shell pidofBin program u tried turns) :
      Restarted shell pidofBin program service u
        (if pidSeen shell pidofBin program u tried turns =
              pidAfter shell pidofBin program u.commands ∨
            pidSeen shell pidofBin program u tried turns < 0 then
          .error (.runtime ("Unable to start service: " ++ service))
        else .ok (), u.restarted shell pidofBin program tried (turns + 1) turns)

variable {isExecutable : String → Bool} {config : Settings} {proxy : Proxy}

/-- What the object keeps between a start and the stop. -/
theorem Restarted.keeps {program service : String} {u : Unix} {r : Except Exc Unit × Unix}
    (h : Restarted shell pidofBin program service u r) :
    r.2.systemProxyWasRunning = decide (pidAfter shell pidofBin program u.commands > 0) ∧
      r.2.unlinked = u.unlinked := by
  cases h <;> exact ⟨rfl, rfl⟩

end Unix

end DblService
