import DblService.Framework.Monitor
import DblService.Service.ServiceConnection
import DblService.Updater

/-!
# Leases

Threads share the sessions of one pool.  An operation leases one session at a time, uses
no other and gives it back before it ends, however its statements are answered: so a
thread that waits for a session holds none, and they do not all wait.
-/

namespace DblService

open Framework Session

/-- What is kept of a thread: the session it holds. -/
def leases : Monitor effects (Option Nat) where
  allowed held
    | .lease => held = none
    | .release c | .sql c _ => held = some c
    | .httpFetch _ => True
  next held
    | .lease, c => some c
    | .release _, _ => none
    | .sql _ _, _ | .httpFetch _, _ => held

/-- The operation begins and ends without a session, and never holds two. -/
abbrev GivesBack {α : Type} (p : Code α) : Prop := Framework.Code.Returns leases none p

open Framework.Code

variable {α β : Type} {held : Option Nat}

/-! ## The blocks -/

private theorem returns_sql (c : Nat) (k : Call) : Returns leases (some c) (sql c k) :=
  ⟨rfl, fun r => by cases r <;> rfl⟩

private theorem givesBack_withSession {body : Nat → Code α}
    (h : ∀ c, Returns leases (some c) (body c)) :
    GivesBack (withSession body) := by
  refine ⟨rfl, ?_⟩
  intro c
  change Program.Follows leases none
    ((body c).run.bind fun r => (call (.release c)).bind fun _ => .done r) (some c)
  exact Program.Follows.bind (h c) fun r => ⟨rfl, fun _ => rfl⟩

private theorem returns_catchRuntime {body : Code α} {handler : Exc → Code α}
    (hbody : Returns leases held body) (hhandler : ∀ e, Returns leases held (handler e)) :
    Returns leases held (catchRuntime body handler) := by
  apply hbody.tryCatch
  intro e
  split_ifs
  · exact hhandler e
  · exact .throw e

private theorem follows_fetchAll {ρ : Type} (c : Nat) (rows : List ρ) :
    (fetchAll c rows).Follows leases (some c) (some c) := by
  induction rows with
  | nil => exact Program.Follows.bind (returns_sql c .fetchRow) fun _ => rfl
  | cons row rows ih =>
    apply Program.Follows.bind (returns_sql c .fetchRow)
    intro r
    cases r with
    | error e => rfl
    | ok _ => exact Program.Follows.bind ih fun _ => rfl

private theorem returns_pushRows {ρ : Type} (c : Nat) (rows : List ρ) :
    Returns leases (some c) (pushRows c rows) := by
  apply (Returns.lift (follows_fetchAll c rows)).bind
  intro fetched
  cases fetched.2 with
  | ok _ => exact .pure _
  | error e =>
    dsimp only
    split_ifs
    · exact .pure _
    · exact .throw e

private theorem givesBack_transaction (stmts : List Stmt) : GivesBack (transaction stmts) :=
  givesBack_withSession fun c => (returns_sql c .begin).bind fun _ =>
    (Returns.forM fun st _ => returns_sql c (.exec st)).bind fun _ => returns_sql c .commit

private theorem givesBack_committed (stmts : List Stmt) : GivesBack (committed stmts) :=
  returns_catchRuntime ((givesBack_transaction stmts).bind fun _ => .pure _) fun _ => .pure _

private theorem givesBack_collect (q : Query) : GivesBack (collect q) :=
  givesBack_withSession fun c => returns_catchRuntime
    ((returns_sql c (.query q)).bind fun rows => returns_pushRows c rows) fun _ => .pure _

private theorem givesBack_queryOne (q : Query) : GivesBack (queryOne q) :=
  givesBack_withSession fun c => (returns_sql c (.query q)).bind fun _ => .pure _

private theorem givesBack_countRows (q : Query) (total : List q.Row → Int) :
    GivesBack (countRows q total) :=
  returns_catchRuntime
    (givesBack_withSession fun c => (returns_sql c .begin).bind fun _ =>
      (returns_sql c (.query q)).bind fun _ => (returns_sql c .commit).bind fun _ => .pure _)
    fun _ => .pure _

private theorem givesBack_orThrow (r : Except Exc α) : GivesBack (orThrow r) := by
  cases r with
  | ok a => exact .pure a
  | error e => exact .throw e

/-! ## The operations -/

section
open DomainListManager DomainManager

private theorem givesBack_getDomainByName (name : String) :
    GivesBack (DomainManager.getByName name) :=
  returns_catchRuntime ((givesBack_queryOne _).bind fun _ => .pure _) fun _ => .pure _

private theorem givesBack_getListByName (name : String) (withDomains : Bool) :
    GivesBack (DomainListManager.getByName name withDomains) := by
  refine returns_catchRuntime ((givesBack_queryOne _).bind ?_) fun _ => .pure _
  intro row
  dsimp only
  split_ifs
  · exact (givesBack_collect _).bind fun _ => .pure _
  · exact .pure _

private theorem givesBack_create (name url description : String) (custom : Bool) :
    GivesBack (create name url description custom) := by
  refine returns_catchRuntime ((givesBack_transaction _).bind fun _ =>
    (givesBack_getListByName _ _).bind ?_) fun _ => .pure _
  intro l
  cases l with
  | none => exact .throw _
  | some l => exact .pure _

private theorem givesBack_importList (lst : DomainList) (custom : Bool) :
    GivesBack (importList lst custom) :=
  returns_catchRuntime
    ((givesBack_create _ _ _ _).bind fun _ => (givesBack_transaction _).bind fun _ => .pure _)
    fun _ => .pure _

private theorem givesBack_blockDomains (env : Env) (domains : List String) (listId : Int) :
    GivesBack (blockDomains env domains listId) := by
  simp only [blockDomains]
  split_ifs
  · exact .pure _
  · exact (givesBack_create _ _ _ _).bind fun id => givesBack_committed _
  · exact Returns.bind (.pure _) fun id => givesBack_committed _

private theorem givesBack_unblockDomains (env : Env) (domains : List String) :
    GivesBack (unblockDomains env domains) := by
  simp only [unblockDomains]
  split_ifs
  · exact .pure _
  · exact givesBack_committed _

end

private theorem givesBack_init : GivesBack DB.init := by
  refine givesBack_withSession fun c => (returns_sql c .begin).bind fun _ =>
    (Returns.forM fun st _ => returns_sql c (.exec st)).bind fun _ =>
      (returns_sql c (.query .countDomainLists)).bind ?_
  intro rows
  split_ifs
  · exact (returns_sql c _).bind fun _ => (returns_sql c _).bind fun _ => returns_sql c .commit
  · exact returns_sql c .commit

private theorem givesBack_logDomainHit (domain : String) : GivesBack (Logger.logDomainHit domain) :=
  (givesBack_committed _).bind fun _ => .pure _

private theorem givesBack_settingsGet (key default : String) :
    GivesBack (SettingsManager.get key default) :=
  (returns_catchRuntime ((givesBack_queryOne _).bind fun _ => .pure _) fun _ => .pure _).bind
    fun _ => .pure _

private theorem givesBack_auth (env : Env) (a : Auth) (hash : String) :
    GivesBack (a.auth env hash) := by
  apply (givesBack_settingsGet _ _).bind
  intro passwd
  split_ifs <;> exact .pure _

private theorem givesBack_setPassword (env : Env) (a : Auth) (passwdHash hashedToken : String) :
    GivesBack (a.setPassword env passwdHash hashedToken) := by
  unfold Auth.setPassword
  split_ifs
  · exact .pure _
  · exact .pure _
  · exact .pure _
  · exact (givesBack_committed _).bind fun _ => .pure _

private theorem givesBack_fetch (url : String) : GivesBack (Updater.fetch url) :=
  Returns.lift ⟨trivial, fun _ => rfl⟩

private theorem givesBack_importFetched (env : Env) (lst : DomainList) (body : String) :
    GivesBack (Updater.importFetched env lst body) := by
  refine returns_catchRuntime ?_ fun _ => .pure _
  rcases Updater.decode env lst body with ⟨_ | _, decoded⟩
  · exact .throw _
  · exact (givesBack_importList _ _).bind fun _ => .pure _

private theorem givesBack_updateList (env : Env) (lst : DomainList) :
    GivesBack (Updater.updateList env lst) := by
  apply (givesBack_fetch _).bind
  intro response
  split_ifs
  · apply (givesBack_fetch _).bind
    intro response
    cases response with
    | none => exact .pure _
    | some response => exact givesBack_importFetched env lst response.body
  · exact .pure _

private theorem givesBack_updateEach (env : Env) (lists : List DomainList) :
    GivesBack (Updater.updateEach env lists) := by
  induction lists with
  | nil => exact .pure _
  | cons lst lists ih =>
    exact (givesBack_updateList env lst).bind fun _ => ih.bind fun _ => .pure _

theorem givesBack_run (env : Env) (config : Config) : GivesBack (Updater.run env config) := by
  refine Returns.bind ?_ fun _ => .pure _
  unfold Updater.updateLists
  split_ifs
  · exact .pure _
  · exact (givesBack_collect _).bind fun _ => givesBack_updateEach env _

/-! ## The requests -/

namespace ServiceConnection

private theorem givesBack_unless {refused : Prop} [Decidable refused] {e : Exc}
    {rest : PUnit → Code α} (hrest : GivesBack (rest ⟨⟩)) :
    GivesBack (if refused then throw e >>= rest else rest ⟨⟩) := by
  split_ifs
  · exact (Returns.throw e).bind fun _ => hrest
  · exact hrest

private theorem givesBack_domainNames (env : Env) (refusal : String) (data : Json) :
    GivesBack (domainNames env refusal data) :=
  (givesBack_orThrow _).bind fun _ => givesBack_unless (givesBack_orThrow _)

private theorem givesBack_handleSetServicePassword (env : Env) (conn : ServiceConnection)
    (data : Json) :
    GivesBack (handleSetServicePassword env conn data) := by
  refine (givesBack_orThrow _).bind fun _ => (givesBack_orThrow _).bind fun _ =>
    (givesBack_orThrow _).bind fun _ => (givesBack_orThrow _).bind fun _ =>
      (givesBack_setPassword env conn.auth _ _).bind ?_
  intro result
  exact givesBack_unless (.pure _)

private theorem givesBack_handleImportDomainList (env : Env) (data : Json) :
    GivesBack (handleImportDomainList env data) :=
  (givesBack_orThrow _).bind fun _ => givesBack_unless
    ((givesBack_orThrow _).bind fun _ => (givesBack_orThrow _).bind fun _ =>
      (givesBack_orThrow _).bind fun _ => (givesBack_importList _ _).bind fun _ => .pure _)

private theorem givesBack_handleGetDomainList (env : Env) (data : Json) :
    GivesBack (handleGetDomainList env data) := by
  refine (givesBack_orThrow _).bind fun name => (givesBack_orThrow _).bind fun name =>
    givesBack_unless ?_
  refine (givesBack_orThrow _).bind fun _ => (givesBack_orThrow _).bind fun withDomains =>
    (givesBack_getListByName _ _).bind ?_
  intro lst
  cases lst with
  | some lst => exact .pure _
  | none => exact .throw _

private theorem givesBack_handleGetDomain (env : Env) (data : Json) :
    GivesBack (handleGetDomain env data) := by
  refine (givesBack_orThrow _).bind fun name => (givesBack_orThrow _).bind fun name =>
    givesBack_unless ((givesBack_getDomainByName _).bind ?_)
  intro domain
  cases domain with
  | some domain => exact .pure _
  | none => exact .throw _

private theorem givesBack_handleGetDomains (env : Env) (data : Json) :
    GivesBack (handleGetDomains env data) := by
  apply (givesBack_orThrow _).bind
  intro type
  apply (givesBack_orThrow _).bind
  intro type
  dsimp only
  split_ifs
  · exact (givesBack_collect _).bind fun _ => .pure _
  · exact (givesBack_collect _).bind fun _ => .pure _
  · exact (givesBack_orThrow _).bind fun listId => (givesBack_orThrow _).bind fun listId =>
      givesBack_unless ((givesBack_collect _).bind fun _ => .pure _)

private theorem givesBack_handler (env : Env) (status : Status) (conn : ServiceConnection)
    {cmd : String} {handler : Handler} (hmem : (cmd, handler) ∈ handlers env status conn)
    (data : Json) :
    GivesBack (handler data) := by
  simp only [handlers, List.mem_cons, Prod.mk.injEq, List.not_mem_nil, or_false] at hmem
  rcases hmem with ⟨_, rfl⟩ | ⟨_, rfl⟩ | ⟨_, rfl⟩ | ⟨_, rfl⟩ | ⟨_, rfl⟩ | ⟨_, rfl⟩ | ⟨_, rfl⟩ |
    ⟨_, rfl⟩ | ⟨_, rfl⟩ | ⟨_, rfl⟩ | ⟨_, rfl⟩ | ⟨_, rfl⟩ | ⟨_, rfl⟩ | ⟨_, rfl⟩
  · exact .pure _
  · exact givesBack_handleSetServicePassword env conn data
  · exact (givesBack_committed _).bind fun _ => .pure _
  · exact .throw _
  · exact (givesBack_domainNames env _ data).bind fun _ =>
      (givesBack_blockDomains env _ 0).bind fun _ => .pure _
  · exact (givesBack_domainNames env _ data).bind fun _ =>
      (givesBack_unblockDomains env _).bind fun _ => .pure _
  · exact givesBack_handleImportDomainList env data
  · exact (givesBack_collect _).bind fun _ => .pure _
  · exact givesBack_handleGetDomainList env data
  · exact .throw _
  · exact .pure _
  · exact givesBack_handleGetDomain env data
  · exact givesBack_handleGetDomains env data
  · exact .pure _

private theorem givesBack_dispatch (env : Env) (status : Status) (conn : ServiceConnection)
    (cmd : String) (data : Json) : GivesBack (dispatch env status conn cmd data) := by
  unfold dispatch
  cases hroute : route env status conn cmd with
  | getToken => exact .pure _
  | auth =>
    refine (givesBack_orThrow _).bind fun hash => (givesBack_orThrow _).bind fun hash =>
      (givesBack_auth env conn.auth hash).bind ?_
    intro accepted
    cases accepted with
    | true => exact .pure _
    | false => exact .throw _
  | refused => exact .throw _
  | unknown => exact .throw _
  | handle handler =>
    obtain ⟨_, hmem⟩ := route_handle hroute
    exact (givesBack_handler env status conn hmem data).bind fun _ => .pure _

private theorem givesBack_read (env : Env) (config : Config) (status : Status)
    (conn : ServiceConnection) (request : String) : GivesBack (read env config status conn request)
    := by
  have hprocess : GivesBack (processRequest env status conn request) :=
    returns_catchRuntime ((givesBack_orThrow _).bind fun x =>
      (givesBack_dispatch env status conn x.1 x.2).bind fun _ => .pure _) fun _ => .pure _
  apply (hprocess.bind fun _ => .pure _).tryCatch
  intro e
  split_ifs
  · exact .pure _
  · exact .pure _
  · exact .throw e

end ServiceConnection

/-! ## Threads on one pool -/

/-- The operations of the managers, the authentication, the logger, the updater and the
connections of the service. -/
inductive Operation
  | init
  | getLists
  | getList (name : String) (withDomains : Bool)
  | create (name url description : String) (custom : Bool)
  | importList (lst : DomainList) (custom : Bool)
  | removeList (name : String)
  | setEnabled (name : String) (enabled : Bool)
  | countLists
  | getDomains (listId : Int)
  | getDomain (name : String)
  | getBlocked
  | getWhitelisted
  | blockDomains (env : Env) (domains : List String) (listId : Int)
  | unblockDomains (env : Env) (domains : List String)
  | countBlocked
  | getSetting (key default : String)
  | setSetting (key value : String)
  | removeSetting (key : String)
  | auth (env : Env) (a : Auth) (hash : String)
  | setPassword (env : Env) (a : Auth) (passwdHash hashedToken : String)
  | removePassword
  | logDomainHit (domain : String)
  | update (env : Env) (config : Config)
  | connect (env : Env) (a : Auth)
  | request (env : Env) (config : Config) (status : Status) (conn : ServiceConnection)
      (text : String)

def ended (p : Code α) : Program effects Unit := p.run.bind fun _ => .done ()

namespace Operation

def program : Operation → Program effects Unit
  | init => ended DB.init
  | getLists => ended DomainListManager.get
  | getList name withDomains => ended (DomainListManager.getByName name withDomains)
  | create name url description custom =>
    ended (DomainListManager.create name url description custom)
  | importList lst custom => ended (DomainListManager.importList lst custom)
  | removeList name => ended (DomainListManager.remove name)
  | setEnabled name enabled => ended (DomainListManager.setEnabled name enabled)
  | countLists => ended DomainListManager.count
  | getDomains listId => ended (DomainManager.get listId)
  | getDomain name => ended (DomainManager.getByName name)
  | getBlocked => ended DomainManager.getBlocked
  | getWhitelisted => ended DomainManager.getWhitelisted
  | blockDomains env domains listId => ended (DomainManager.blockDomains env domains listId)
  | unblockDomains env domains => ended (DomainManager.unblockDomains env domains)
  | countBlocked => ended DomainManager.countBlocked
  | getSetting key default => ended (SettingsManager.get key default)
  | setSetting key value => ended (SettingsManager.set key value)
  | removeSetting key => ended (SettingsManager.remove key)
  | auth env a hash => ended (a.auth env hash)
  | setPassword env a passwdHash hashedToken => ended (a.setPassword env passwdHash hashedToken)
  | removePassword => ended Auth.removePassword
  | logDomainHit domain => ended (Logger.logDomainHit domain)
  | update env config => ended (Updater.run env config)
  | connect env a => ended (ServiceConnection.create env a)
  | request env config status conn text =>
    ended (ServiceConnection.read env config status conn text)

private theorem follows_program (operation : Operation) :
    operation.program.Follows leases none none := by
  have hended {α : Type} {p : Code α} (h : GivesBack p) : (ended p).Follows leases none none :=
    Program.Follows.bind h fun _ => rfl
  cases operation with
  | init => exact hended givesBack_init
  | getLists | getDomains | getBlocked | getWhitelisted => exact hended (givesBack_collect _)
  | getList name withDomains => exact hended (givesBack_getListByName name withDomains)
  | create name url description custom => exact hended (givesBack_create name url description custom)
  | importList lst custom => exact hended (givesBack_importList lst custom)
  | removeList | setEnabled | setSetting | removeSetting | removePassword =>
    exact hended (givesBack_committed _)
  | countLists | countBlocked => exact hended (givesBack_countRows _ _)
  | getDomain name => exact hended (givesBack_getDomainByName name)
  | blockDomains env domains listId => exact hended (givesBack_blockDomains env domains listId)
  | unblockDomains env domains => exact hended (givesBack_unblockDomains env domains)
  | getSetting key default => exact hended (givesBack_settingsGet key default)
  | auth env a hash => exact hended (givesBack_auth env a hash)
  | setPassword env a passwdHash hashedToken =>
    exact hended (givesBack_setPassword env a passwdHash hashedToken)
  | logDomainHit domain => exact hended (givesBack_logDomainHit domain)
  | update env config => exact hended (givesBack_run env config)
  | connect env a => exact hended ((givesBack_auth env a "").bind fun _ => .pure _)
  | request env config status conn text =>
    exact hended (ServiceConnection.givesBack_read env config status conn text)

end Operation

/-- Who holds each session of the pool. -/
abbrev Holders := List (Option Nat)

/-- A lease takes any session that is free; a statement and a transfer may be answered by
anything. -/
def serves (t : Nat) : (op : Op) → Holders → op.Reply → Holders → Prop
  | .lease, holders, c, holders' => holders[c]? = some none ∧ holders' = holders.set c (some t)
  | .release c, holders, _, holders' => holders' = holders.set c none
  | .sql _ _, holders, _, holders' | .httpFetch _, holders, _, holders' => holders' = holders

private theorem Pool.setLeased_map (w : Pool) (c : Nat) (leased : Bool) :
    (w.setLeased c leased).slots.map Slot.leased = (w.slots.map Slot.leased).set c leased := by
  apply List.ext_getElem?
  intro i
  simp only [Pool.setLeased, List.getElem?_map, List.getElem?_modify, List.getElem?_set,
    List.length_map]
  by_cases hci : c = i
  · subst hci
    cases hslot : w.slots[c]? with
    | none => simp [List.getElem?_eq_none_iff.mp hslot]
    | some slot => simp [(List.getElem?_eq_some_iff.mp hslot).1]
  · simp [hci]

private theorem Pool.handle_serves (t : Nat) {op : Op} {w w' : Pool} {r : op.Reply}
    (h : Pool.handle op w = some (r, w')) {holders : Holders}
    (hagree : holders.map Option.isSome = w.slots.map Slot.leased) :
    ∃ holders', serves t op holders r holders' ∧
      holders'.map Option.isSome = w'.slots.map Slot.leased := by
  cases op with
  | lease =>
    obtain ⟨c, hfind, hw⟩ := Option.map_eq_some_iff.mp h
    obtain ⟨rfl, rfl⟩ := Prod.mk.inj hw
    obtain ⟨hlt, hfree, _⟩ := List.findIdx?_eq_some_iff_getElem.mp hfind
    have hholder : (holders.map Option.isSome)[c]? = some false := by
      rw [hagree, List.getElem?_map, List.getElem?_eq_getElem hlt, Option.map_some]
      simpa using hfree
    refine ⟨holders.set c (some t), ⟨?_, rfl⟩, ?_⟩
    · rw [List.getElem?_map, Option.map_eq_some_iff] at hholder
      obtain ⟨holder, hget, hnone⟩ := hholder
      rw [hget, Option.isNone_iff_eq_none.mp (Option.isSome_eq_false_iff.mp hnone)]
    · rw [List.map_set, hagree, Pool.setLeased_map]
      rfl
  | release c =>
    cases h
    refine ⟨holders.set c none, rfl, ?_⟩
    rw [List.map_set, hagree, Pool.setLeased_map]
    rfl
  | sql c k =>
    obtain ⟨slot, hslot, hw⟩ := Option.map_eq_some_iff.mp h
    cases hw
    refine ⟨holders, rfl, hagree.trans ?_⟩
    have hsame : (w.slots.map Slot.leased).set c slot.leased = w.slots.map Slot.leased := by
      obtain ⟨hlt, hget⟩ := List.getElem?_eq_some_iff.mp hslot
      rw [← hget, ← List.map_set, List.set_getElem_self]
    rw [List.map_set]
    exact hsame.symm
  | httpFetch url =>
    cases h
    exact ⟨holders, rfl, hagree⟩

/-- Threads that begin operations, in any order and any number, on one pool. -/
abbrev Workers := Threads effects Holders

namespace Workers

def start (size threads : Nat) : Workers :=
  ⟨List.replicate size none, List.replicate threads (.done ())⟩

def Step : Workers → Workers → Prop :=
  Threads.Step (fun p => ∃ operation : Operation, p = operation.program) serves

def Reachable (size threads : Nat) : Workers → Prop :=
  Relation.ReflTransGen Step (start size threads)

def Holds (w : Workers) (t c : Nat) : Prop := w.shared[c]? = some (some t)

/-- The thread is about to lease a session. -/
def Leases (w : Workers) (t : Nat) : Prop :=
  ∃ next : Nat → Program effects Unit, w.programs[t]? = some (.call Op.lease next)

def Waits (w : Workers) (t : Nat) : Prop := w.Leases t ∧ ∀ c : Nat, w.shared[c]? ≠ some none

/-- The last operation of the thread has returned. -/
def Returned (w : Workers) (t : Nat) : Prop := w.programs[t]? = some (.done ())

/-- The holders are the sessions that are kept of the threads. -/
def Agrees (size : Nat) (holders : Holders) (m : Nat → Option Nat) : Prop :=
  holders.length = size ∧ ∀ t c, m t = some c ↔ holders[c]? = some (some t)

theorem Agrees.serves {size : Nat} {t : Nat} {op : Op} {holders holders' : Holders} {r : op.Reply}
    {m : Nat → Option Nat} (h : Agrees size holders m) (hallowed : leases.allowed (m t) op)
    (hserves : DblService.serves t op holders r holders') :
    Agrees size holders' (Function.update m t (leases.next (m t) op r)) := by
  obtain ⟨hlength, hm⟩ := h
  cases op with
  | lease =>
    obtain ⟨hfree, rfl⟩ := hserves
    refine ⟨by rw [List.length_set, hlength], ?_⟩
    intro u c
    have hlt : r < holders.length := (List.getElem?_eq_some_iff.mp hfree).1
    have hnone : m t = none := hallowed
    change Function.update m t (some r) u = some c ↔ (holders.set r (some t))[c]? = some (some u)
    by_cases hu : u = t
    · subst hu
      rw [Function.update_self, List.getElem?_set]
      have hother := hm u c
      rw [hnone] at hother
      split_ifs with hrc
      · simp [hrc]
      · rw [← hother]
        simp [hrc]
    · rw [Function.update_of_ne hu, hm, List.getElem?_set]
      split_ifs with hrc
      · subst hrc
        simp [hfree, Ne.symm hu]
      · rfl
  | release c =>
    cases hserves
    have hheld : m t = some c := hallowed
    have hholder := (hm t c).mp hheld
    have hlt : c < holders.length := (List.getElem?_eq_some_iff.mp hholder).1
    refine ⟨by rw [List.length_set, hlength], ?_⟩
    intro u d
    change Function.update m t none u = some d ↔ (holders.set c none)[d]? = some (some u)
    by_cases hu : u = t
    · subst hu
      rw [Function.update_self, List.getElem?_set]
      have hother := hm u d
      rw [hheld] at hother
      split_ifs with hcd
      · simp
      · rw [← hother]
        simp [hcd]
    · rw [Function.update_of_ne hu, hm, List.getElem?_set]
      split_ifs with hcd
      · subst hcd
        simp [hholder, Ne.symm hu]
      · rfl
  | sql c k =>
    cases hserves
    have hsame : Function.update m t (leases.next (m t) (.sql c k) r) = m :=
      Function.update_eq_self t m
    rw [hsame]
    exact ⟨hlength, hm⟩
  | httpFetch url =>
    cases hserves
    have hsame : Function.update m t (leases.next (m t) (.httpFetch url) r) = m :=
      Function.update_eq_self t m
    rw [hsame]
    exact ⟨hlength, hm⟩

/-- In every reachable state each thread follows the monitor. -/
theorem Reachable.monitored {size threads : Nat} {w : Workers} (h : Reachable size threads w) :
    w.Monitored leases none (Agrees size) := by
  refine Threads.monitored_of_reachable ?_ ?_ h ?_
  · rintro p ⟨operation, rfl⟩
    exact operation.follows_program
  · intro t op holders r holders' m hagrees hallowed hserves
    exact hagrees.serves hallowed hserves
  · refine ⟨fun _ => none, ⟨List.length_replicate, ?_⟩, ?_, fun _ _ => rfl⟩
    · intro t c
      simp [Workers.start, List.getElem?_replicate]
    · intro t p hp
      simp only [Workers.start, List.getElem?_replicate] at hp
      split_ifs at hp
      cases hp
      rfl

private theorem exists_not_waits {size threads : Nat} {w : Workers} (hsize : 0 < size)
    (hreach : Reachable size threads w) (hne : w.programs ≠ []) :
    ∃ t < w.programs.length, ¬ w.Waits t := by
  obtain ⟨m, ⟨hlength, hm⟩, hfollows, habsent⟩ := hreach.monitored
  by_contra hall
  push Not at hall
  obtain ⟨holder, hfirst⟩ : ∃ holder, w.shared[0]? = some holder :=
    ⟨_, List.getElem?_eq_getElem (by omega)⟩
  cases holder with
  | none =>
    have hpos : 0 < w.programs.length := List.length_pos_iff.mpr hne
    exact (hall 0 hpos).2 0 hfirst
  | some t =>
    have hheld := (hm t 0).mpr hfirst
    cases hprogram : w.programs[t]? with
    | none =>
      rw [habsent t hprogram] at hheld
      cases hheld
    | some p =>
      have hlt := (List.getElem?_eq_some_iff.mp hprogram).1
      obtain ⟨next, hnext⟩ := (hall t hlt).1
      rw [show m t = none from (hfollows t _ hnext).1] at hheld
      cases hheld

/-- On a pool that is not empty, whatever the threads do: no thread holds two sessions, one that
is about to lease a session or whose operation has returned holds none, and not all threads wait
for a session. -/
theorem never_all_wait (size threads : Nat) (hsize : 0 < size) (w : Workers)
    (hreach : Reachable size threads w) :
    (∀ t c c', w.Holds t c → w.Holds t c' → c = c') ∧
      (∀ t c, w.Leases t → ¬ w.Holds t c) ∧
      (∀ t c, w.Returned t → ¬ w.Holds t c) ∧
      (w.programs ≠ [] → ∃ t < w.programs.length, ¬ w.Waits t) := by
  obtain ⟨m, ⟨hlength, hm⟩, hfollows, habsent⟩ := hreach.monitored
  have hleases (t : Nat) (h : w.Leases t) : m t = none := by
    obtain ⟨next, hnext⟩ := h
    exact (hfollows t _ hnext).1
  have hreturned (t : Nat) (h : w.Returned t) : m t = none := hfollows t _ h
  refine ⟨?_, ?_, ?_, exists_not_waits hsize hreach⟩
  · intro t c c' hc hc'
    have hsame := ((hm t c).mpr hc).symm.trans ((hm t c').mpr hc')
    exact Option.some.inj hsame
  · intro t c ht hc
    have hheld := (hleases t ht).symm.trans ((hm t c).mpr hc)
    cases hheld
  · intro t c ht hc
    have hheld := (hreturned t ht).symm.trans ((hm t c).mpr hc)
    cases hheld

/-- Two threads on one session: the first has leased it to remove a list. -/
theorem never_all_wait_leased :
    ∃ w, Reachable 1 2 w ∧ w.Holds 0 0 ∧
      (∀ t c c', w.Holds t c → w.Holds t c' → c = c') ∧
      (∀ t c, w.Leases t → ¬ w.Holds t c) ∧
      (∀ t c, w.Returned t → ¬ w.Holds t c) ∧
      (w.programs ≠ [] → ∃ t < w.programs.length, ¬ w.Waits t) := by
  obtain ⟨next, hprogram⟩ : ∃ next : Nat → Program effects Unit,
      (Operation.removeList "ads").program = .call Op.lease next := ⟨_, rfl⟩
  let begun : Workers := ⟨[none], [.call Op.lease next, .done ()]⟩
  let leased : Workers := ⟨[some 0], [next 0, .done ()]⟩
  have hbegin : Step (start 1 2) begun := .start 0 _ rfl ⟨.removeList "ads", hprogram.symm⟩
  have hlease : Step begun leased := by
    have hserved : serves 0 Op.lease begun.shared (0 : Nat) leased.shared := ⟨rfl, rfl⟩
    exact Threads.Step.call (w := begun) 0 Op.lease next (0 : Nat) leased.shared rfl hserved
  have hreach : Reachable 1 2 leased := (Relation.ReflTransGen.single hbegin).tail hlease
  exact ⟨leased, hreach, rfl, never_all_wait 1 2 (by decide) leased hreach⟩

/-- On the pool itself, with all its sessions free at the start: there is always a thread that is
not about to lease a session, or a session that is free. -/
theorem pool_progress {pool : Pool} (hfree : ∀ slot ∈ pool.slots, slot.leased = false)
    (hsize : pool.slots ≠ []) {threads : Nat} {w : Threads effects Pool}
    (hreach : Relation.ReflTransGen
      (Threads.Step (fun p => ∃ operation : Operation, p = operation.program)
        fun _ op w r w' => Pool.handle op w = some (r, w'))
      ⟨pool, List.replicate threads (.done ())⟩ w) (hne : w.programs ≠ []) :
    ∃ t < w.programs.length,
      ¬ ((∃ next : Nat → Program effects Unit, w.programs[t]? = some (.call Op.lease next)) ∧
        ∀ slot ∈ w.shared.slots, slot.leased = true) := by
  have hagree : (List.replicate pool.slots.length (none : Option Nat)).map Option.isSome =
      pool.slots.map Slot.leased := by
    rw [List.map_replicate, eq_comm, List.map_eq_replicate_iff]
    exact hfree
  have hserved (t : Nat) (op : Op) (w : Pool) (r : op.Reply) (w' : Pool) (holders : Holders)
      (hagree : holders.map Option.isSome = w.slots.map Slot.leased)
      (hserve : Pool.handle op w = some (r, w')) :
      ∃ holders', serves t op holders r holders' ∧
        holders'.map Option.isSome = w'.slots.map Slot.leased :=
    Pool.handle_serves t hserve hagree
  obtain ⟨holders, hworkers, hholders⟩ := Threads.simulated
    (R := fun (w : Pool) (holders : Holders) =>
      holders.map Option.isSome = w.slots.map Slot.leased) hserved hreach hagree
  obtain ⟨t, ht, hwaits⟩ :=
    exists_not_waits (List.length_pos_iff.mpr hsize) hworkers hne
  refine ⟨t, ht, fun ⟨hleases, hall⟩ => hwaits ⟨hleases, ?_⟩⟩
  intro c hc
  have hslot : (w.shared.slots.map Slot.leased)[c]? = some false := by
    rw [← hholders, List.getElem?_map, hc]
    rfl
  rw [List.getElem?_map] at hslot
  obtain ⟨slot, hslot, hleased⟩ := Option.map_eq_some_iff.mp hslot
  rw [hall slot (List.mem_of_getElem? hslot)] at hleased
  cases hleased

end Workers

end DblService
