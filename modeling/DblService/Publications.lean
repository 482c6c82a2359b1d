import DblService.Updater
import DblService.Framework.Run

/-!
# Publications of a list

The site of a list publishes one version after the other, each stamped with its
time, while the updater runs step by step: the lists are read, the first transfer
for a list is compared with its `mtime`, the second brings the document, and
`import` stamps the `mtime` with the clock.  Between any two steps the site may
publish again.
-/

namespace DblService

open Framework Session

/-! ## What an import does to the stamps -/

namespace Db

def mtimeOf (db : Db) (name : String) : Int :=
  ((db.listNamed name).map DomainListRow.mtime).getD 0

private theorem mtimeOf_ensureList (db : Db) (name url description : String) (custom : Bool)
    (n : String) : (db.ensureList name url description custom).mtimeOf n = db.mtimeOf n := by
  unfold mtimeOf
  rw [ensureList_listNamed]
  cases db.listNamed n with
  | some l => rfl
  | none =>
    rw [Option.none_or]
    split_ifs <;> rfl

private theorem mtimeOf_congr {db db' : Db} (h : db'.domainLists = db.domainLists) (n : String) :
    db'.mtimeOf n = db.mtimeOf n := by
  unfold mtimeOf listNamed
  rw [h]

private theorem mtimeOf_touchList (db : Db) {l : DomainListRow} (hl : l ∈ db.domainLists)
    (now : Int) (n : String) :
    (db.touchList l.id now).mtimeOf n = if l.name = n then now else db.mtimeOf n := by
  unfold mtimeOf
  rw [touchList_listNamed]
  by_cases hn : l.name = n
  · rw [listNamed_eq_some.mpr ⟨hl, hn⟩]
    simp [hn]
  · cases hk : db.listNamed n with
    | none => simp [hn]
    | some k =>
      obtain ⟨hmem, hkn⟩ := listNamed_eq_some.mp hk
      have hid : k.id ≠ l.id := by
        intro hid
        rw [list_id_inj hmem hl hid] at hkn
        exact hn hkn
      simp [hn, hid]

private theorem mtimeOf_touchList_zero (db : Db) (now : Int) (n : String) :
    (db.touchList 0 now).mtimeOf n = db.mtimeOf n := by
  unfold mtimeOf
  rw [touchList_listNamed]
  cases hl : db.listNamed n with
  | none => rfl
  | some l =>
    have hpos := db.list_id_pos l (listNamed_eq_some.mp hl).1
    have hid : l.id ≠ 0 := by omega
    simp [hid]

end Db

namespace DomainListManager

private theorem Imported.mtimeOf {lst : DomainList} {custom : Bool} {now : Int} {db db' : Db}
    {l : DomainListRow} (h : Imported lst custom now db db' l) (n : String) :
    db'.mtimeOf n = if effectiveName lst.name = n then now else db.mtimeOf n := by
  obtain ⟨hl, hname⟩ := Db.listNamed_eq_some.mp h.target
  rw [Db.mtimeOf_congr h.lists, Db.mtimeOf_touchList _ hl, hname, ensured,
    Db.mtimeOf_ensureList]

private theorem runAll_importStmts_zero {lst : DomainList} {now : Int} {db db' : Db}
    (h : Stmt.runAll now (importStmts lst 0) db = .ok db') (n : String) :
    db'.mtimeOf n = db.mtimeOf n := by
  by_cases hnames : lst.domains.map Domain.name = []
  · rw [importStmts, hnames] at h
    cases h
    exact db.mtimeOf_touchList_zero now n
  · rw [importStmts, Stmt.runAll_insertOrReplace_error now hnames db.no_list_zero] at h
    cases h

private theorem Created.mtimeOf {name url description : String} {custom : Bool} {s s' : Store}
    {r : Option Int} (h : Created name url description custom s r s') (n : String) :
    s'.conn.file.mtimeOf n = s.conn.file.mtimeOf n := by
  have hensured {t : Store} (ht : Transacted
      [.insertOrIgnoreDomainList (effectiveName name) url description custom] s true t) :
      t.conn.file.mtimeOf n = s.conn.file.mtimeOf n := by
    cases ht with
    | committed db _ _ hrun =>
      cases hrun
      exact s.conn.file.mtimeOf_ensureList _ _ _ _ n
  cases h with
  | failed _ ht => cases ht <;> rfl
  | crashed _ ht _ =>
    have hsame := hensured ht
    exact hsame
  | created _ _ ht _ _ =>
    have hsame := hensured ht
    exact hsame

end DomainListManager

namespace Store

open DomainListManager Updater

/-- Both transactions of an import of the list go through: no transaction was left open and
none of its statements finds the database busy. -/
def Admits (s : Store) (lst : DomainList) : Prop :=
  s.conn.tx = none ∧ s.ambient.Quiet (lst.domains.length + 7)

/-- An import that goes through stamps its list; any other stamps nothing and either fails or
raises. -/
theorem exec_importList_cases {s : Store} (hs : s.held = false) (lst : DomainList)
    (custom : Bool) :
    ∃ r s', s.exec (importList lst custom) = some (r, s') ∧
      ((s.Admits lst ∧ r = .ok true ∧ s'.ambient.raised = s.ambient.raised ∧
          ∃ t, Imported lst custom s.ambient.now s.conn.file s'.conn.file t) ∨
        (¬ s.Admits lst ∧ (r = .ok true → s'.ambient.raised ≠ s.ambient.raised) ∧
          ∀ n, s'.conn.file.mtimeOf n = s.conn.file.mtimeOf n)) := by
  obtain ⟨r, s₁, hcreated, hrun⟩ := exec_importList s lst custom hs
  have hlength (id : Int) : (importStmts lst id).length + 2 = lst.domains.length + 3 := by
    simp [importStmts]
  have hquiet₇ (hquiet : s.ambient.Quiet (lst.domains.length + 7)) :
      s.ambient.Quiet 4 ∧ (s.ambient.skip 4).Quiet (lst.domains.length + 3) := by
    rw [← Ambient.quiet_add]
    exact hquiet.mono (by omega)
  by_cases hadmits : s.Admits lst
  · obtain ⟨hidle, hquiet⟩ := hadmits
    obtain ⟨hfour, hrest⟩ := hquiet₇ hquiet
    obtain ⟨l, hl, rfl, rfl⟩ := hcreated.of_quiet hidle hfour
    obtain ⟨done, s', hexec, ht⟩ := hrun
    obtain ⟨db', hall, himported⟩ :=
      runAll_importStmts lst custom s.ambient.now s.conn.file hl
    obtain ⟨rfl, rfl⟩ := ht.of_quiet rfl ((hlength l.id).symm ▸ hrest) hall
    exact ⟨_, _, hexec, Or.inl ⟨⟨hidle, hquiet⟩, rfl, rfl, l, himported⟩⟩
  · cases r with
    | none => exact ⟨_, _, hrun, Or.inr ⟨hadmits, by simp, hcreated.mtimeOf⟩⟩
    | some id =>
      obtain ⟨done, s', hexec, ht⟩ := hrun
      have hraises : done = true → s'.ambient.raised ≠ s.ambient.raised := by
        rintro rfl hraised
        have hfirst := hcreated.raised_le
        have hsecond := ht.raised_eq
        simp only [if_true, Nat.add_zero] at hsecond
        obtain ⟨hidle, hfour⟩ := hcreated.raised_eq_iff.mp (by omega)
        obtain ⟨l, _, _, rfl⟩ := hcreated.of_quiet hidle hfour
        obtain ⟨_, hrest, _⟩ := ht.done_iff.mp rfl
        rw [hlength] at hrest
        refine hadmits ⟨hidle, ?_⟩
        rw [show lst.domains.length + 7 = 4 + (lst.domains.length + 3) by omega]
        exact Ambient.quiet_add.mpr ⟨hfour, hrest⟩
      refine ⟨_, s', hexec, Or.inr ⟨hadmits, ?_, ?_⟩⟩
      · intro hdone
        cases hdone
        exact hraises rfl
      · intro n
        rw [← hcreated.mtimeOf n]
        cases ht with
        | refused _ => rfl
        | abandoned _ _ _ _ _ _ _ => rfl
        | committed db _ _ hall =>
          -- the id is that of no list, or neither transaction raised
          cases hcreated with
          | failed _ _ => exact runAll_importStmts_zero hall n
          | created s₂ _ hfirst _ _ =>
            have hsame := hfirst.raised_eq
            exact absurd hsame (hraises rfl)

/-- The step for a decoded body, whatever `import` ended with. -/
theorem exec_importFetched_result {s s' : Store} {env : Env} {lst lst' : DomainList}
    {body : String} {r : Except Exc Bool} (hdecode : decode env lst body = (.ok (), lst'))
    (hexec : s.exec (importList lst' false) = some (r, s')) :
    ∃ u, s.exec (importFetched env lst body) = some (u, s') ∧
      (u = .ok (.imported body true) ↔ r = .ok true) := by
  cases r with
  | ok committed =>
    exact ⟨_, exec_importFetched_decoded hdecode hexec, by simp⟩
  | error e =>
    rw [importFetched, hdecode, exec_catchRuntime]
    change ∃ u, Option.bind (s.exec (importList lst' false >>= _)) _ = _ ∧ _
    rw [exec_bind, hexec]
    change ∃ u, (if e.isRuntimeError = true then _ else _) = _ ∧ _
    split_ifs
    · exact ⟨.ok (.rejected body), rfl, by simp⟩
    · exact ⟨.error e, rfl, by simp⟩

/-- The `try` block for a fetched body stamps the list it imports, when the body decodes and
the import goes through. -/
theorem exec_importFetched_cases {s : Store} (hs : s.held = false) (env : Env)
    (lst : DomainList) (body : String) :
    ∃ r s', s.exec (importFetched env lst body) = some (r, s') ∧
      ((∃ lst' t, decode env lst body = (.ok (), lst') ∧ s.Admits lst' ∧
          r = .ok (.imported body true) ∧ s'.ambient.raised = s.ambient.raised ∧
          Imported lst' false s.ambient.now s.conn.file s'.conn.file t) ∨
        ((∀ lst', decode env lst body = (.ok (), lst') → ¬ s.Admits lst') ∧
          (r = .ok (.imported body true) → s'.ambient.raised ≠ s.ambient.raised) ∧
          ∀ n, s'.conn.file.mtimeOf n = s.conn.file.mtimeOf n)) := by
  rcases hdecode : decode env lst body with ⟨e | ⟨⟩, lst'⟩
  · refine ⟨_, s, exec_importFetched_error hdecode, Or.inr ⟨by simp, ?_, fun _ => rfl⟩⟩
    intro hr
    cases he : e.isRuntimeError <;> simp [he] at hr
  · obtain ⟨r, s', hexec, hcases⟩ := exec_importList_cases hs lst' false
    obtain ⟨u, hrun, hu⟩ := exec_importFetched_result hdecode hexec
    refine ⟨u, s', hrun, ?_⟩
    rcases hcases with ⟨hadmits, hr, hraised, t, himported⟩ | ⟨hrefused, hraised, hsame⟩
    · exact Or.inl ⟨lst', t, rfl, hadmits, hu.mpr hr, hraised, himported⟩
    · refine Or.inr ⟨?_, fun h => hraised (hu.mp h), hsame⟩
      intro lst₁ hlst₁
      cases hlst₁
      exact hrefused

end Store

/-! ## The site and the updater -/

/-- A version that was published, with the answer to the transfers that fetch it. -/
structure Version where
  number : Nat
  time : Int
  response : Response
  deriving DecidableEq, Repr

/-- Where the updater is; the lists are those whose turn is still to come. -/
inductive Phase
  | idle
  | checking (lists : List DomainList)  -- before the first transfer for the next list
  -- the first transfer asked for the second
  | outdated (lst : DomainList) (lists : List DomainList)
  -- the body is here; it is a version of the list when its site answered
  | fetched (lst : DomainList) (version : Option Version) (body : String)
      (lists : List DomainList)
  deriving DecidableEq

def Phase.version : Phase → Option Version
  | .fetched _ version _ _ => version
  | _ => none

structure Site where
  conn : Connection
  now : Int
  published : Version
  phase : Phase := .idle
  -- the version last imported into the list; `none` stands for a document that is none
  imported : Option Version := none
  deriving DecidableEq

namespace Site

/-- What happens next.  A step of the updater comes with the statements that find the database
busy, or with the answer of the transfer. -/
inductive Event
  | tick (seconds : Nat)
  | publish (response : Response)
  | start (faults : List Bool)  -- `mgr.get()`
  | probe (reply : Option Response)  -- the first `rq.fetch()` and the comparison
  | fetch (reply : Option Response)  -- the second `rq.fetch()`
  | store (faults : List Bool)  -- `lst.from_json` and `mgr.import`

variable (env : Env) (config : Config) (name : String)

def client (s : Site) (faults : List Bool) : Store :=
  { conn := s.conn, ambient := { faults, now := s.now } }

/-- The answer to a transfer: for the list of that name it is the version that is published,
unless the transfer fails. -/
def answer (s : Site) (lst : DomainList) (reply : Option Response) : Option Response :=
  if lst.name = name then reply.map fun _ => s.published.response else reply

def publish (s : Site) (response : Response) : Site :=
  { s with published := ⟨s.published.number + 1, s.now, response⟩ }

def start (s : Site) (faults : List Bool) : Site :=
  if config.disableListUpdate then s
  else match (s.client faults).exec DomainListManager.get with
    | some (.ok lists, s') =>
      { s with conn := s'.conn, phase := .checking (lists.filter (Updater.isSelected config)) }
    | some (.error _, s') => { s with conn := s'.conn }
    | none => s

def probe (s : Site) (lst : DomainList) (lists : List DomainList) (reply : Option Response) :
    Site :=
  if Updater.isOutdated env lst (s.answer name lst reply) then
    { s with phase := .outdated lst lists }
  else { s with phase := .checking lists }

def fetch (s : Site) (lst : DomainList) (lists : List DomainList) (reply : Option Response) :
    Site :=
  match s.answer name lst reply with
  | some response =>
    let version := if lst.name = name then some s.published else none
    { s with phase := .fetched lst version response.body lists }
  | none => { s with phase := .checking lists }

def Landed (lst : DomainList) (body : String) (r : Except Exc ListUpdate) (s' : Store) : Prop :=
  r = .ok (.imported body true) ∧ s'.ambient.raised = 0 ∧
    DomainListManager.effectiveName (Updater.decode env lst body).2.name = name

instance (lst : DomainList) (body : String) (r : Except Exc ListUpdate) (s' : Store) :
    Decidable (Landed env name lst body r s') :=
  inferInstanceAs (Decidable (_ ∧ _ ∧ _))

/-- An exception that no `try` block catches ends the run. -/
def afterStore (lists : List DomainList) : Except Exc ListUpdate → Phase
  | .ok _ => .checking lists
  | .error _ => .idle

def store (s : Site) (lst : DomainList) (version : Option Version) (body : String)
    (lists : List DomainList) (faults : List Bool) : Site :=
  match (s.client faults).exec (Updater.importFetched env lst body) with
  | some (r, s') =>
    { s with
      conn := s'.conn
      phase := afterStore lists r
      imported := if Landed env name lst body r s' then version else s.imported }
  | none => s

/-- One step; an event that does not fit the phase of the updater changes nothing. -/
def next : Event → Site → Site
  | .tick seconds, s => { s with now := s.now + seconds }
  | .publish response, s => s.publish response
  | .start faults, s =>
    match s.phase with
    | .idle | .checking [] => s.start config faults
    | _ => s
  | .probe reply, s =>
    match s.phase with
    | .checking (lst :: lists) => s.probe env name lst lists reply
    | _ => s
  | .fetch reply, s =>
    match s.phase with
    | .outdated lst lists => s.fetch name lst lists reply
    | _ => s
  | .store faults, s =>
    match s.phase with
    | .fetched lst version body lists => s.store env name lst version body lists faults
    | _ => s

def step (e : Event) (s : Site) : Unit × Site := ((), next env config name e s)

variable {env config name} {s : Site} {lst : DomainList} {lists : List DomainList}

private theorem next_probe (h : s.phase = .checking (lst :: lists)) (reply : Option Response) :
    next env config name (.probe reply) s = s.probe env name lst lists reply := by
  simp only [next, h]

private theorem next_fetch_none (h : s.phase = .outdated lst lists) {reply : Option Response}
    (hreply : s.answer name lst reply = none) :
    next env config name (.fetch reply) s = { s with phase := .checking lists } := by
  simp only [next, h, fetch, hreply]

private theorem next_fetch_some (h : s.phase = .outdated lst lists) {reply : Option Response}
    {response : Response} (hreply : s.answer name lst reply = some response) :
    next env config name (.fetch reply) s =
      let version := if lst.name = name then some s.published else none
      { s with phase := .fetched lst version response.body lists } := by
  simp only [next, h, fetch, hreply]

private theorem next_store {version : Option Version} {body : String}
    (h : s.phase = .fetched lst version body lists) (faults : List Bool) :
    next env config name (.store faults) s = s.store env name lst version body lists faults := by
  simp only [next, h]

private theorem store_of_exec {version : Option Version} {body : String} {faults : List Bool}
    {r : Except Exc ListUpdate} {s' : Store}
    (h : (s.client faults).exec (Updater.importFetched env lst body) = some (r, s')) :
    s.store env name lst version body lists faults =
      { s with
        conn := s'.conn
        phase := afterStore lists r
        imported := if Landed env name lst body r s' then version else s.imported } := by
  simp only [store, h]

private theorem next_store_of_exec {version : Option Version} {body : String} {faults : List Bool}
    (hphase : s.phase = .fetched lst version body lists) {r : Except Exc ListUpdate} {s' : Store}
    (h : (s.client faults).exec (Updater.importFetched env lst body) = some (r, s')) :
    let t := next env config name (.store faults) s
    t.conn = s'.conn ∧ t.phase = afterStore lists r := by
  rw [next_store hphase, store_of_exec h]
  exact ⟨rfl, rfl⟩

/-- The three steps for a list do what the loop body does when nothing comes between them. -/
theorem exec_updateList_steps (hphase : s.phase = .checking (lst :: lists))
    (reply reply' : Option Response) (faults : List Bool) :
    ∃ r s', Store.exec { conn := s.conn, ambient := { faults, now := s.now, replies :=
          [s.answer name lst reply, s.answer name lst reply'] } } (Updater.updateList env lst) =
        some (r, s') ∧
      let t := (runEvents (step env config name) [.probe reply, .fetch reply', .store faults] s).2
      t.conn = s'.conn ∧ t.phase = afterStore lists r := by
  rw [Store.exec_updateList]
  simp only [runEvents, step, next_probe hphase, Ambient.nextReply, Ambient.afterReply,
    List.headD_cons, List.tail_cons]
  by_cases hout : Updater.isOutdated env lst (s.answer name lst reply) = true
  · have hprobe : s.probe env name lst lists reply = { s with phase := .outdated lst lists } :=
      if_pos hout
    simp only [hout, if_true, hprobe]
    cases hreply : s.answer name lst reply' with
    | none =>
      rw [next_fetch_none (s := { s with phase := .outdated lst lists }) rfl hreply]
      exact ⟨_, _, rfl, rfl, rfl⟩
    | some response =>
      obtain ⟨r, s', hexec, _⟩ :=
        Store.exec_importFetched_cases (s := s.client faults) rfl env lst response.body
      rw [next_fetch_some (s := { s with phase := .outdated lst lists }) rfl hreply]
      exact ⟨r, s', hexec, next_store_of_exec rfl hexec⟩
  · have hprobe : s.probe env name lst lists reply = { s with phase := .checking lists } :=
      if_neg hout
    simp only [hout, Bool.false_eq_true, if_false, hprobe]
    exact ⟨_, _, rfl, rfl, rfl⟩

/-! ## What is lost -/

end Site

/-- An update of the list of that name is between its comparison and its import. -/
def Phase.Updating (name : String) : Phase → Prop
  | .outdated lst _ | .fetched lst _ _ _ => lst.name = name
  | .idle | .checking _ => False

instance (name : String) : (p : Phase) → Decidable (p.Updating name)
  | .outdated _ _ | .fetched _ _ _ _ => inferInstanceAs (Decidable (_ = _))
  | .idle | .checking _ => isFalse id

namespace Site

variable (env : Env) (config : Config) (name : String)

/-- A stamp that is not older than the last version means that it was imported. -/
def Current (s : Site) : Prop :=
  s.published.time ≤ s.conn.file.mtimeOf name → s.imported = some s.published

def NothingLost (s : Site) : Prop := ¬ s.phase.Updating name → s.Current name

/-- The import of the body stamps the list of that name. -/
def Stamps (s : Site) (lst : DomainList) (body : String) (faults : List Bool) : Prop :=
  (Updater.decode env lst body).1 = .ok () ∧
    (s.client faults).Admits (Updater.decode env lst body).2 ∧
    DomainListManager.effectiveName (Updater.decode env lst body).2.name = name

/-- What an import in this phase stamps is the last version. -/
def ImportsLast (s : Site) (faults : List Bool) : Phase → Prop
  | .fetched lst version body _ => s.Stamps env name lst body faults → version = some s.published
  | _ => True

/-- A version is published later than the stamp of the list, and what an import stamps is the
last version. -/
def Timely : Event → Site → Prop
  | .publish _, s => s.conn.file.mtimeOf name < s.now
  | .store faults, s => s.ImportsLast env name faults s.phase
  | _, _ => True

def Exact : Event → Site → Prop
  | .publish response, s => response.getLastModified env = s.now
  | _, _ => True

section
variable (s : Site) (faults : List Bool)

instance (lst : DomainList) (body : String) : Decidable (s.Stamps env name lst body faults) :=
  inferInstanceAs (Decidable (_ ∧ (_ ∧ ¬ _) ∧ _))

instance : (p : Phase) → Decidable (s.ImportsLast env name faults p)
  | .fetched lst version body _ =>
    inferInstanceAs (Decidable (s.Stamps env name lst body faults → version = some s.published))
  | .idle | .checking _ | .outdated _ _ => isTrue trivial

instance : (e : Event) → Decidable (Timely env name e s)
  | .publish _ => inferInstanceAs (Decidable (_ < _))
  | .store faults => inferInstanceAs (Decidable (s.ImportsLast env name faults s.phase))
  | .tick _ | .start _ | .probe _ | .fetch _ => isTrue trivial

instance : (e : Event) → Decidable (Exact env e s)
  | .publish _ => inferInstanceAs (Decidable (_ = _))
  | .tick _ | .start _ | .probe _ | .fetch _ | .store _ => isTrue trivial

instance : Decidable (s.Current name) := inferInstanceAs (Decidable (_ → _))

instance : Decidable (s.NothingLost name) := inferInstanceAs (Decidable (¬ _ → _))

end

variable {env config name} {s : Site}

private theorem store_cases (s : Site) (lst : DomainList) (version : Option Version) (body : String)
    (lists : List DomainList) (faults : List Bool) :
    let t := s.store env name lst version body lists faults
    t.published = s.published ∧ t.now = s.now ∧
      ((s.Stamps env name lst body faults ∧ t.conn.file.mtimeOf name = s.now ∧
          t.imported = version) ∨
        (¬ s.Stamps env name lst body faults ∧
          t.conn.file.mtimeOf name = s.conn.file.mtimeOf name ∧ t.imported = s.imported)) := by
  obtain ⟨r, s', hexec, hcases⟩ :=
    Store.exec_importFetched_cases (s := s.client faults) rfl env lst body
  rw [store_of_exec hexec]
  refine ⟨rfl, rfl, ?_⟩
  rcases hcases with ⟨lst', _, hdecode, hadmits, hr, hraised, himported⟩ |
    ⟨hrefused, hraised, hsame⟩
  · have hmtime := himported.mtimeOf name
    obtain rfl : (Updater.decode env lst body).2 = lst' := congrArg Prod.snd hdecode
    by_cases hname : DomainListManager.effectiveName (Updater.decode env lst body).2.name = name
    · rw [if_pos hname] at hmtime
      exact Or.inl ⟨⟨congrArg Prod.fst hdecode, hadmits, hname⟩, hmtime,
        if_pos ⟨hr, hraised, hname⟩⟩
    · rw [if_neg hname] at hmtime
      exact Or.inr ⟨fun h => hname h.2.2, hmtime, if_neg fun h => hname h.2.2⟩
  · refine Or.inr ⟨?_, hsame name, if_neg fun h => hraised h.1 h.2.1⟩
    intro h
    exact hrefused _ (Prod.ext h.1 rfl) h.2.1

private theorem store_phase (s : Site) (lst : DomainList) (version : Option Version) (body : String)
    (lists : List DomainList) (faults : List Bool) :
    ∃ r, (s.store env name lst version body lists faults).phase = afterStore lists r := by
  obtain ⟨r, s', hexec, _⟩ :=
    Store.exec_importFetched_cases (s := s.client faults) rfl env lst body
  exact ⟨r, congrArg Site.phase (store_of_exec hexec)⟩

/-! ## One step -/

/-- The stamps and the versions are as before, and a version that is fetched now is the last
one. -/
structure Leaves (s t : Site) : Prop where
  file : t.conn.file = s.conn.file
  published : t.published = s.published
  imported : t.imported = s.imported
  now : s.now ≤ t.now
  held : ∀ v, t.phase.version = some v → s.phase.version = some v ∨ v = s.published

theorem Leaves.refl (s : Site) : s.Leaves s :=
  ⟨rfl, rfl, rfl, le_refl _, fun _ => Or.inl⟩

private theorem leaves_start (s : Site) (faults : List Bool) :
    s.Leaves (s.start config faults) := by
  unfold start
  split_ifs
  · exact .refl s
  · obtain ⟨lists, s', hexec, hcollected⟩ :=
      (s.client faults).exec_collect .getDomainLists rfl
    have hexec : (s.client faults).exec DomainListManager.get = some (.ok lists, s') := hexec
    rw [hexec]
    exact ⟨congrArg Connection.file hcollected.conn_eq, rfl, rfl, le_refl _, by simp [Phase.version]⟩

private theorem leaves_probe (s : Site) (lst : DomainList) (lists : List DomainList)
    (reply : Option Response) : s.Leaves (s.probe env name lst lists reply) := by
  unfold probe
  split_ifs <;> exact ⟨rfl, rfl, rfl, le_refl _, by simp [Phase.version]⟩

private theorem leaves_fetch (s : Site) (lst : DomainList) (lists : List DomainList)
    (reply : Option Response) : s.Leaves (s.fetch name lst lists reply) := by
  unfold fetch
  cases s.answer name lst reply with
  | none => exact ⟨rfl, rfl, rfl, le_refl _, by simp [Phase.version]⟩
  | some response =>
    refine ⟨rfl, rfl, rfl, le_refl _, fun v hv => Or.inr ?_⟩
    simp only [Phase.version] at hv
    split_ifs at hv
    exact (Option.some.inj hv).symm

private theorem next_cases (e : Event) (s : Site) :
    (∃ response, e = .publish response ∧ next env config name e s = s.publish response) ∨
      (∃ faults lst version body lists, e = .store faults ∧
        s.phase = .fetched lst version body lists ∧
        next env config name e s = s.store env name lst version body lists faults) ∨
      (Timely env name e s ∧ s.Leaves (next env config name e s)) := by
  cases e with
  | tick seconds =>
    refine Or.inr (Or.inr ⟨trivial, rfl, rfl, rfl, ?_, fun _ => Or.inl⟩)
    change s.now ≤ s.now + seconds
    omega
  | publish response => exact Or.inl ⟨response, rfl, rfl⟩
  | start faults =>
    refine Or.inr (Or.inr ⟨trivial, ?_⟩)
    simp only [next]
    split
    · exact leaves_start s faults
    · exact leaves_start s faults
    · exact .refl s
  | probe reply =>
    refine Or.inr (Or.inr ⟨trivial, ?_⟩)
    simp only [next]
    split
    · exact leaves_probe s _ _ reply
    · exact .refl s
  | fetch reply =>
    refine Or.inr (Or.inr ⟨trivial, ?_⟩)
    simp only [next]
    split
    · exact leaves_fetch s _ _ reply
    · exact .refl s
  | store faults =>
    cases hphase : s.phase with
    | fetched lst version body lists =>
      exact Or.inr (Or.inl ⟨faults, lst, version, body, lists, rfl, rfl, next_store hphase faults⟩)
    | idle | checking _ | outdated _ _ =>
      refine Or.inr (Or.inr ?_)
      simp only [Timely, ImportsLast, next, hphase]
      exact ⟨trivial, .refl s⟩

private theorem current_next (e : Event) (hs : s.Current name) (he : Timely env name e s) :
    (next env config name e s).Current name := by
  rcases next_cases e s with ⟨response, rfl, h⟩ | ⟨faults, lst, version, body, lists, rfl,
    hphase, h⟩ | ⟨_, h⟩
  · rw [h]
    intro hstamp
    exact absurd hstamp (not_le.mpr he)
  · have hversion : s.Stamps env name lst body faults → version = some s.published := by
      simpa only [Timely, ImportsLast, hphase] using he
    rw [h]
    obtain ⟨hpublished, _, hcases⟩ := s.store_cases lst version body lists faults
    intro hstamp
    rw [hpublished] at hstamp ⊢
    rcases hcases with ⟨hstamps, _, himported⟩ | ⟨_, hmtime, himported⟩
    · rw [himported]
      exact hversion hstamps
    · rw [himported]
      exact hs (hmtime ▸ hstamp)
  · intro hstamp
    rw [h.published, h.file] at hstamp
    rw [h.published, h.imported]
    exact hs hstamp

/-- Versions are numbered and stamped in the order in which they are published. -/
structure Ordered (s : Site) : Prop where
  time : s.published.time ≤ s.now
  imported : ∀ v, s.imported = some v → v.number ≤ s.published.number
  held : ∀ v, s.phase.version = some v → v.number ≤ s.published.number

private theorem ordered_next (e : Event) (hs : s.Ordered) : (next env config name e s).Ordered := by
  rcases next_cases e s with ⟨response, rfl, h⟩ | ⟨faults, lst, version, body, lists, rfl,
    hphase, h⟩ | ⟨_, h⟩
  · rw [h]
    exact ⟨le_refl _, fun v hv => Nat.le_succ_of_le (hs.imported v hv),
      fun v hv => Nat.le_succ_of_le (hs.held v hv)⟩
  · rw [h]
    obtain ⟨hpublished, hnow, hcases⟩ := s.store_cases lst version body lists faults
    obtain ⟨r, hafter⟩ := s.store_phase lst version body lists faults
    refine ⟨?_, ?_, ?_⟩
    · rw [hpublished, hnow]
      exact hs.time
    · intro v hv
      rw [hpublished]
      rcases hcases with ⟨_, _, himported⟩ | ⟨_, _, himported⟩
      · rw [himported] at hv
        apply hs.held v
        rw [hphase]
        exact hv
      · rw [himported] at hv
        exact hs.imported v hv
    · intro v hv
      rw [hafter] at hv
      cases r <;> cases hv
  · refine ⟨?_, ?_, ?_⟩
    · rw [h.published]
      exact hs.time.trans h.now
    · intro v hv
      rw [h.published]
      rw [h.imported] at hv
      exact hs.imported v hv
    · intro v hv
      rw [h.published]
      rcases h.held v hv with hsame | rfl
      · exact hs.held v hsame
      · exact le_refl _

private theorem timely_of_current_next (e : Event) (hs : s.Ordered)
    (h : (next env config name e s).Current name) : Timely env name e s := by
  rcases next_cases e s with ⟨response, rfl, hnext⟩ | ⟨faults, lst, version, body, lists, rfl,
    hphase, hnext⟩ | ⟨he, _⟩
  · rw [hnext] at h
    by_contra hlate
    have hnew : s.imported = some ⟨s.published.number + 1, s.now, response⟩ := h (not_lt.mp hlate)
    have hle := hs.imported _ hnew
    simp only at hle
    omega
  · simp only [Timely, ImportsLast, hphase]
    intro hstamps
    rw [hnext] at h
    obtain ⟨hpublished, _, hcases⟩ := s.store_cases lst version body lists faults
    rcases hcases with ⟨_, hmtime, himported⟩ | ⟨hnot, _⟩
    · rw [← himported, ← hpublished]
      apply h
      rw [hpublished, hmtime]
      exact hs.time
    · exact absurd hstamps hnot
  · exact he

/-! ## Runs -/

variable {es : List Event}

/-- When every step of a run meets the condition no published version is lost: once no update
of the list is in progress, a stamp that is not older than the last publication means that the
last version was imported. -/
theorem run_nothingLost (s : Site) (es : List Event) (hs : s.Current name)
    (htimely : Along (step env config name) (Timely env name) es s) :
    (runEvents (step env config name) es s).2.NothingLost name := by
  have hkeeps : ∀ e s, Current name s → Timely env name e s →
      Current name (step env config name e s).2 := fun e _ hs he => current_next e hs he
  exact fun _ => htimely.invariant hkeeps hs

/-- The second version is published after the import of the first and before the next update. -/
theorem run_nothingLost_two :
    let env := { Env.ofTexts [("one", .object [("name", .string "CUSTOM")]),
      ("two", .object [("name", .string "CUSTOM"), ("url", .string "http://two.example")])] with
      parseDate := fun date => if date = "Thu, 01 Jan 1970 00:00:10" then some 10 else some 12 }
    let s : Site := { conn := ⟨Db.seeded, none⟩, now := 10, published :=
      ⟨0, 10, ⟨200, "Last-Modified: Thu, 01 Jan 1970 00:00:10", "one"⟩⟩ }
    let update : List Event := [.start [], .probe (some ⟨200, "", ""⟩),
      .fetch (some ⟨200, "", ""⟩), .tick 1, .store []]
    let es := update ++ [.tick 1,
      .publish ⟨200, "Last-Modified: Thu, 01 Jan 1970 00:00:12", "two"⟩] ++ update
    s.Current "CUSTOM" ∧ Along (step env {} "CUSTOM") (Timely env "CUSTOM") es s ∧
      (runEvents (step env {} "CUSTOM") es s).2.NothingLost "CUSTOM" := by
  intro env s update es
  have hcurrent : s.Current "CUSTOM" := by decide +kernel
  have htimely : Along (step env {} "CUSTOM") (Timely env "CUSTOM") es s := by decide +kernel
  exact ⟨hcurrent, htimely, run_nothingLost s es hcurrent htimely⟩

/-- The second version is published between the second transfer and the import of the first:
the stamp is later than it. -/
theorem published_during_import :
    let env := { Env.ofTexts [("one", .object [("name", .string "CUSTOM")]),
      ("two", .object [("name", .string "CUSTOM"), ("url", .string "http://two.example")])] with
      parseDate := fun date => if date = "Thu, 01 Jan 1970 00:00:10" then some 10 else some 11 }
    let s : Site := { conn := ⟨Db.seeded, none⟩, now := 10, published :=
      ⟨0, 10, ⟨200, "Last-Modified: Thu, 01 Jan 1970 00:00:10", "one"⟩⟩ }
    let es : List Event := [.start [], .probe (some ⟨200, "", ""⟩), .fetch (some ⟨200, "", ""⟩),
      .tick 1, .publish ⟨200, "Last-Modified: Thu, 01 Jan 1970 00:00:11", "two"⟩, .tick 1,
      .store []]
    s.Current "CUSTOM" ∧ s.published.response.getLastModified env = s.published.time ∧
      Along (step env {} "CUSTOM") (Exact env) es s ∧
      ¬ (runEvents (step env {} "CUSTOM") es s).2.NothingLost "CUSTOM" := by
  decide +kernel

/-- No other run keeps every stamp honest. -/
theorem along_current_iff (hordered : s.Ordered) (hs : s.Current name) :
    Along (step env config name) (fun e s => (next env config name e s).Current name) es s ↔
      Along (step env config name) (Timely env name) es s := by
  have hforced : ∀ e s, Ordered s → (next env config name e s).Current name →
      Ordered (step env config name e s).2 ∧ Timely env name e s :=
    fun e _ hs he => ⟨ordered_next e hs, timely_of_current_next e hs he⟩
  have hkept : ∀ e s, Current name s → Timely env name e s →
      Current name (step env config name e s).2 ∧ (next env config name e s).Current name :=
    fun e _ hs he => ⟨current_next e hs he, current_next e hs he⟩
  exact ⟨fun h => Along.mono hforced h hordered, fun h => Along.mono hkept h hs⟩

end Site

end DblService
