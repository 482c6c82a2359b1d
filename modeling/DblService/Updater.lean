import DblService.Manager.DomainManager

/-!
# The updater

`Updater::run` fetches the document of every selected list and imports it.  The
step for one list says what became of it; the result of the run only keeps
whether some step got past its `import` call, whatever that returned.
-/

namespace DblService

open Framework Session

def UPDATE_URL : String := "http://noise-nation.net/lists"

inductive ListUpdate
  | upToDate  -- the `Last-Modified` date is not newer
  | notFetched  -- the second transfer failed
  | rejected (body : String)  -- decoding threw a `std::runtime_error`
  | imported (body : String) (committed : Bool)  -- `import` was called, with its result
  deriving DecidableEq, Repr

def ListUpdate.isUpdated : ListUpdate → Bool
  | .imported _ _ => true
  | _ => false

namespace Updater

def updateUrl (lst : DomainList) : String :=
  if lst.url ≠ "" then lst.url else UPDATE_URL ++ "/" ++ lst.name ++ ".json"

def fetch (url : String) : Code (Option Response) := ExceptT.lift (call (.httpFetch url))

/-- `lst.from_json(body)`: the exception it throws, if any, and the list it leaves. -/
def decode (env : Env) (lst : DomainList) (body : String) : Except Exc Unit × DomainList :=
  (DomainList.fromJson env body).run.run lst

/-- The `try` block for a fetched body. -/
def importFetched (env : Env) (lst : DomainList) (body : String) : Code ListUpdate :=
  catchRuntime
    (match decode env lst body with
    | (.error e, _) => throw e
    | (.ok (), lst) => do
      let committed ← DomainListManager.importList lst false
      pure (.imported body committed))
    fun _ => pure (.rejected body)

def isOutdated (env : Env) (lst : DomainList) (response : Option Response) : Bool :=
  let lastModified := (response.map (Response.getLastModified env)).getD 0
  lastModified = 0 || lst.mtime < lastModified

def updateList (env : Env) (lst : DomainList) : Code ListUpdate := do
  let response ← fetch (updateUrl lst)
  if isOutdated env lst response then
    match ← fetch (updateUrl lst) with
    | some response => importFetched env lst response.body
    | none => pure .notFetched
  else
    pure .upToDate

def isSelected (config : Config) (lst : DomainList) : Bool :=
  config.listIds.isEmpty || config.listIds.contains lst.name

def updateEach (env : Env) : List DomainList → Code (List ListUpdate)
  | [] => pure []
  | lst :: lists => do
    let update ← updateList env lst
    let updates ← updateEach env lists
    pure (update :: updates)

def updateLists (env : Env) (config : Config) : Code (List ListUpdate) :=
  if config.disableListUpdate then pure []
  else do
    let lists ← DomainListManager.get
    updateEach env (lists.filter (isSelected config))

def run (env : Env) (config : Config) : Code Bool := do
  let updates ← updateLists env config
  pure (updates.any ListUpdate.isUpdated)

end Updater

/-! ## The step for one list -/

namespace Store

theorem exec_fetch (s : Store) (url : String) :
    s.exec (Updater.fetch url) =
      some (.ok s.ambient.nextReply, { s with ambient := s.ambient.afterReply }) := rfl

end Store

/-- The body that the step for a list imports, if it gets one. -/
def Updater.fetchedBody (env : Env) (lst : DomainList) (replies : List (Option Response)) :
    Option String :=
  if isOutdated env lst (replies.headD none) then (replies.tail.headD none).map Response.body
  else none

/-- Nothing changed but the rows of these names, which belong to the list, and its `mtime`. -/
structure UpdatesOnly (l : DomainListRow) (names : List String) (db db' : Db) : Prop where
  domains : ∀ m, db'.owner m ≠ db.owner m → m ∈ names ∧ db'.owner m = some l.id
  lists : ∃ mtime, db'.domainLists = (db.touchList l.id mtime).domainLists
  settings : db'.settings = db.settings
  stats : db'.statsDomains = db.statsDomains

private theorem Db.touchList_self (db : Db) {l : DomainListRow} (hl : l ∈ db.domainLists) :
    (db.touchList l.id l.mtime).domainLists = db.domainLists := by
  have hf : ∀ k ∈ db.domainLists,
      (if k.id = l.id then { k with mtime := l.mtime } else k) = id k := by
    intro k hk
    split_ifs with hid
    · rw [Db.list_id_inj hk hl hid]
      rfl
    · rfl
  exact (List.map_congr_left hf).trans (List.map_id _)

theorem UpdatesOnly.refl {db : Db} {l : DomainListRow} (hl : l ∈ db.domainLists)
    (names : List String) : UpdatesOnly l names db db :=
  ⟨fun _ h => absurd rfl h, ⟨l.mtime, (db.touchList_self hl).symm⟩, rfl, rfl⟩

namespace Updater

/-- The import of the document stays within the list: the name it is decoded to is that of
the list, or it decodes to a list that holds all of it already. -/
def Targets (env : Env) (now : Int) (db : Db) (l : DomainListRow) (body : String) : Prop :=
  match decode env (DomainList.fromRow l) body with
  | (.error _, _) => True
  | (.ok (), lst) =>
    let name := DomainListManager.effectiveName lst.name
    name = l.name ∨ ∃ t, db.listNamed name = some t ∧ t.mtime = now ∧
      ∀ d ∈ lst.domains, db.owner d.name = some t.id

private theorem imported_of_taken {custom : Bool} {now : Int} {db db' : Db} {t k : DomainListRow}
    {lst : DomainList} (h : DomainListManager.Imported lst custom now db db' t)
    (hk : db.listNamed (DomainListManager.effectiveName lst.name) = some k) :
    DomainListManager.ensured lst custom db = db ∧ t = k := by
  have hsame : DomainListManager.ensured lst custom db = db := db.ensureList_of_taken hk
  have ht := h.target
  rw [hsame, hk, Option.some.injEq] at ht
  exact ⟨hsame, ht.symm⟩

private theorem updatesOnly_taken {custom : Bool} {now : Int} {db db' : Db} {l t : DomainListRow}
    {names : List String} {lst : DomainList} (hu : UpdatesOnly l names db db')
    (h : DomainListManager.Imported lst custom now db db' t) :
    DomainListManager.effectiveName lst.name ∈ db.domainLists.map DomainListRow.name := by
  obtain ⟨mtime, hlists⟩ := hu.lists
  rw [h.lists] at hlists
  by_contra hfree
  have happend : (DomainListManager.ensured lst custom db).domainLists.length =
      db.domainLists.length + 1 := by
    rw [DomainListManager.ensured, Db.ensureList, dif_neg hfree]
    exact List.length_append
  have hlength := congrArg List.length hlists
  simp only [Db.touchList, Db.updateLists, List.length_map] at hlength
  omega

def documentNames (env : Env) (l : DomainListRow) (body : String) : List String :=
  (decode env (DomainList.fromRow l) body).2.domains.map Domain.name

private theorem updatesOnly_iff {custom : Bool} {now : Int} {db db' : Db} {l t : DomainListRow}
    {lst : DomainList} (hl : l ∈ db.domainLists)
    (h : DomainListManager.Imported lst custom now db db' t) :
    UpdatesOnly l (lst.domains.map Domain.name) db db' ↔
      DomainListManager.effectiveName lst.name = l.name ∨
        ∃ t, db.listNamed (DomainListManager.effectiveName lst.name) = some t ∧ t.mtime = now ∧
          ∀ d ∈ lst.domains, db.owner d.name = some t.id := by
  constructor
  · intro hu
    by_cases hname : DomainListManager.effectiveName lst.name = l.name
    · exact Or.inl hname
    obtain ⟨mtime, hlists⟩ := hu.lists
    rw [h.lists] at hlists
    have htaken := updatesOnly_taken hu h
    obtain ⟨k, hk⟩ := Option.isSome_iff_exists.mp (db.listNamed_isSome.mpr htaken)
    obtain ⟨hsame, rfl⟩ := imported_of_taken h hk
    obtain ⟨hmem, hkname⟩ := Db.listNamed_eq_some.mp hk
    have hid : t.id ≠ l.id := fun hid => hname (hkname ▸ congrArg _ (Db.list_id_inj hmem hl hid))
    rw [hsame] at hlists
    refine Or.inr ⟨t, hk, ?_, ?_⟩
    · have hrow := List.map_inj_left.mp hlists t hmem
      simp only [if_true, if_neg hid] at hrow
      rw [← hrow]
    · intro d hd
      have hin : d.name ∈ lst.domains.map Domain.name := List.mem_map.mpr ⟨d, hd, rfl⟩
      have howner := h.owner d.name
      rw [if_pos hin] at howner
      by_contra hne
      have hmoved := (hu.domains d.name (by rw [howner]; exact Ne.symm hne)).2
      rw [howner, Option.some.injEq] at hmoved
      exact hid hmoved
  · rintro (hname | ⟨k, hk, hmtime, howned⟩)
    · have hk : db.listNamed (DomainListManager.effectiveName lst.name) = some l :=
        Db.listNamed_eq_some.mpr ⟨hl, hname.symm⟩
      obtain ⟨hsame, rfl⟩ := imported_of_taken h hk
      refine ⟨?_, ⟨now, ?_⟩, h.settings, h.stats⟩
      · intro m hm
        rw [h.owner m] at hm ⊢
        by_cases hin : m ∈ lst.domains.map Domain.name
        · exact ⟨hin, if_pos hin⟩
        · exact absurd (if_neg hin) hm
      · rw [h.lists, hsame]
    · obtain ⟨hsame, rfl⟩ := imported_of_taken h hk
      refine ⟨fun m hm => absurd ?_ hm, ⟨l.mtime, ?_⟩, h.settings, h.stats⟩
      · rw [h.owner m]
        by_cases hin : m ∈ lst.domains.map Domain.name
        · obtain ⟨d, hd, rfl⟩ := List.mem_map.mp hin
          rw [if_pos hin, howned d hd]
        · rw [if_neg hin]
      · rw [h.lists, hsame, ← hmtime, db.touchList_self (Db.listNamed_eq_some.mp hk).1,
          db.touchList_self hl]

end Updater

namespace Store

open Updater

variable {s : Store} {env : Env} {lst lst' : DomainList} {body : String}

theorem exec_importFetched_error {e : Exc} (h : decode env lst body = (.error e, lst')) :
    s.exec (importFetched env lst body) =
      some (if e.isRuntimeError then .ok (.rejected body) else .error e, s) := by
  rw [importFetched, h, exec_catchRuntime]
  cases he : e.isRuntimeError with
  | true =>
    change (if e.isRuntimeError then _ else _) = _
    rw [if_pos he]
    rfl
  | false =>
    change (if e.isRuntimeError then _ else _) = _
    rw [if_neg (Bool.eq_false_iff.mp he)]
    rfl

/-- A decoded body is imported, and the step says whether that committed. -/
theorem exec_importFetched_decoded {committed : Bool} {s' : Store}
    (h : decode env lst body = (.ok (), lst'))
    (himport : s.exec (DomainListManager.importList lst' false) = some (.ok committed, s')) :
    s.exec (importFetched env lst body) = some (.ok (.imported body committed), s') := by
  rw [importFetched, h, exec_catchRuntime]
  change Option.bind (s.exec (DomainListManager.importList lst' false >>= _)) _ = _
  rw [exec_bind, himport]
  rfl

theorem exec_importFetched_ok (hs : s.IsFree) (h : decode env lst body = (.ok (), lst')) :
    ∃ s', s.exec (importFetched env lst body) =
        some (.ok (.imported body s.conn.tx.isNone), s') ∧ s'.IsFree ∧
      s'.ambient.replies = s.ambient.replies ∧
      ((s.conn.tx = none ∧ s'.conn.tx = none ∧ ∃ t,
          DomainListManager.Imported lst' false s.ambient.now s.conn.file s'.conn.file t) ∨
        (s.conn.tx ≠ none ∧ s'.conn = s.conn)) := by
  by_cases hidle : s.conn.tx = none
  · obtain ⟨db', t, hrun, himported⟩ := exec_importList_free hs hidle lst' false
    refine ⟨{ s with conn := ⟨db', none⟩ }, ?_, ⟨hs.released, hs.faults⟩, rfl,
      Or.inl ⟨hidle, rfl, t, himported⟩⟩
    rw [hidle]
    exact exec_importFetched_decoded h hrun
  · obtain ⟨s', hrun, hs', hconn, hreplies⟩ := exec_importList_open hs hidle lst' false
    refine ⟨s', ?_, hs', hreplies, Or.inr ⟨hidle, hconn⟩⟩
    rw [Option.isNone_eq_false_iff.mpr (Option.ne_none_iff_isSome.mp hidle)]
    exact exec_importFetched_decoded h hrun

/-- The step for one list is the import of the body it fetched, if it fetched one. -/
theorem exec_updateList :
    s.exec (updateList env lst) =
      if isOutdated env lst s.ambient.nextReply then
        let s' := { s with ambient := s.ambient.afterReply.afterReply }
        match s.ambient.afterReply.nextReply with
        | some response => s'.exec (importFetched env lst response.body)
        | none => some (.ok .notFetched, s')
      else some (.ok .upToDate, { s with ambient := s.ambient.afterReply }) := by
  rw [updateList, exec_bind, exec_fetch]
  cases hout : isOutdated env lst s.ambient.nextReply with
  | false =>
    simp only [Option.bind_some, hout, Bool.false_eq_true, if_false]
    rfl
  | true =>
    simp only [Option.bind_some, hout, if_true]
    rw [exec_bind, exec_fetch]
    simp only [Option.bind_some]
    cases s.ambient.afterReply.nextReply <;> rfl

end Store

namespace Updater

/-- When the step for a list stays within it. -/
def StaysWithin (env : Env) (now : Int) (db : Db) (l : DomainListRow)
    (replies : List (Option Response)) : Prop :=
  ∀ body, fetchedBody env (DomainList.fromRow l) replies = some body → Targets env now db l body

/-- The names of the document that the step fetches, if it fetches one. -/
def fetchedNames (env : Env) (l : DomainListRow) (replies : List (Option Response)) :
    List String :=
  ((fetchedBody env (DomainList.fromRow l) replies).map (documentNames env l)).getD []

private theorem importFetched_updatesOnly_iff (env : Env) {s : Store} (hs : s.IsFree)
    (hidle : s.conn.tx = none) {l : DomainListRow} (hl : l ∈ s.conn.file.domainLists)
    (body : String) :
    ∃ r s', s.exec (importFetched env (DomainList.fromRow l) body) = some (r, s') ∧
      s'.conn.tx = none ∧ (UpdatesOnly l (documentNames env l body) s.conn.file s'.conn.file ↔
        Targets env s.ambient.now s.conn.file l body) := by
  rcases hdecode : decode env (DomainList.fromRow l) body with ⟨e | ⟨⟩, lst'⟩
  · have hT : Targets env s.ambient.now s.conn.file l body := by simp [Targets, hdecode]
    exact ⟨_, s, Store.exec_importFetched_error hdecode, hidle, iff_of_true (.refl hl _) hT⟩
  · obtain ⟨s', hrun, _, _, hcases⟩ := Store.exec_importFetched_ok hs hdecode
    rcases hcases with ⟨_, hidle', t, himported⟩ | ⟨hopen, _⟩
    · refine ⟨_, s', hrun, hidle', ?_⟩
      simp only [documentNames, Targets, hdecode]
      exact updatesOnly_iff hl himported
    · exact absurd hidle hopen

/-- The step for a list changes nothing but the rows of the names in its document and its own
`mtime`, exactly when the document does not name another list. -/
theorem updateList_updatesOnly_iff (env : Env) (now : Int) (replies : List (Option Response))
    (db : Db) (l : DomainListRow) (hl : l ∈ db.domainLists) :
    ∃ r s', ({ conn := ⟨db, none⟩, ambient := { now, replies } } : Store).exec
        (updateList env (DomainList.fromRow l)) = some (r, s') ∧
      s'.conn.tx = none ∧ (UpdatesOnly l (fetchedNames env l replies) db s'.conn.file ↔
        StaysWithin env now db l replies) := by
  rw [Store.exec_updateList]
  have hnothing (hnone : fetchedBody env (DomainList.fromRow l) replies = none) :
      UpdatesOnly l (fetchedNames env l replies) db db ↔ StaysWithin env now db l replies :=
    iff_of_true (.refl hl _) fun body h => by simp [hnone] at h
  cases hout : isOutdated env (DomainList.fromRow l) (replies.headD none) with
  | false =>
    have hnone : fetchedBody env (DomainList.fromRow l) replies = none := by
      rw [fetchedBody, hout]
      rfl
    refine ⟨.ok .upToDate, { conn := ⟨db, none⟩, ambient := { now, replies := replies.tail } }, ?_,
      rfl, hnothing hnone⟩
    simp only [Ambient.nextReply, hout, Bool.false_eq_true, if_false]
    rfl
  | true =>
    simp only [Ambient.nextReply, Ambient.afterReply, hout, if_true]
    cases hreply : replies.tail.headD none with
    | none =>
      have hnone : fetchedBody env (DomainList.fromRow l) replies = none := by
        rw [fetchedBody, hout, if_pos rfl, hreply]
        rfl
      exact ⟨.ok .notFetched, _, rfl, rfl, hnothing hnone⟩
    | some response =>
      have hbody : fetchedBody env (DomainList.fromRow l) replies = some response.body := by
        rw [fetchedBody, hout, if_pos rfl, hreply]
        rfl
      obtain ⟨r, s', hrun, hidle, hiff⟩ := importFetched_updatesOnly_iff env
        (s := { conn := ⟨db, none⟩, ambient := { now, replies := replies.tail.tail } })
        ⟨rfl, rfl⟩ rfl hl response.body
      refine ⟨r, s', hrun, hidle, ?_⟩
      simp only [fetchedNames, StaysWithin, hbody, Option.map_some, Option.getD_some,
        Option.some.injEq, forall_eq']
      exact hiff

/-- A document for `CUSTOM` that carries its name. -/
theorem updateList_updatesOnly_custom :
    let env := .ofTexts [("doc", .object [("name", .string "CUSTOM"),
      ("domains", .array [.object [("name", .string "ads.example")]])])]
    let l : DomainListRow :=
      ⟨1, "CUSTOM", "", "Custom, uncategorized list", true, true, false, 0⟩
    let replies := [some ⟨200, "", "doc"⟩, some ⟨200, "", "doc"⟩]
    l ∈ Db.seeded.domainLists ∧
      ∃ r s', ({ conn := ⟨Db.seeded, none⟩, ambient := { now := 5, replies } } : Store).exec
          (updateList env (DomainList.fromRow l)) = some (r, s') ∧
        s'.conn.tx = none ∧
          UpdatesOnly l (fetchedNames env l replies) Db.seeded s'.conn.file := by
  intro env l replies
  have hl : l ∈ Db.seeded.domainLists := by decide
  have hwithin : StaysWithin env 5 Db.seeded l replies := by
    intro body hbody
    obtain rfl : "doc" = body := Option.some.inj hbody
    exact Or.inl rfl
  obtain ⟨r, s', hrun, hidle, hiff⟩ := updateList_updatesOnly_iff env 5 replies Db.seeded l hl
  exact ⟨hl, r, s', hrun, hidle, hiff.mpr hwithin⟩

/-- A document for `CUSTOM` that carries the name of another list. -/
theorem updateList_other_list :
    let env := .ofTexts [("doc", .object [("name", .string "WHITELIST"),
      ("domains", .array [.object [("name", .string "ads.example")]])])]
    let l : DomainListRow :=
      ⟨1, "CUSTOM", "", "Custom, uncategorized list", true, true, false, 0⟩
    let replies := [some ⟨200, "", "doc"⟩, some ⟨200, "", "doc"⟩]
    l ∈ Db.seeded.domainLists ∧
      ∃ r s', ({ conn := ⟨Db.seeded, none⟩, ambient := { now := 5, replies } } : Store).exec
          (updateList env (DomainList.fromRow l)) = some (r, s') ∧
        ¬ UpdatesOnly l (fetchedNames env l replies) Db.seeded s'.conn.file := by
  intro env l replies
  have howner : (({ conn := ⟨Db.seeded, none⟩, ambient := { now := 5, replies } } : Store).exec
      (updateList env (DomainList.fromRow l))).map (fun x => x.2.conn.file.owner "ads.example") =
        some (some 2) := by decide +kernel
  obtain ⟨⟨r, s'⟩, hrun, hwhite⟩ := Option.map_eq_some_iff.mp howner
  refine ⟨by decide, r, s', hrun, ?_⟩
  intro h
  have hmoved := h.domains "ads.example" (by rw [hwhite]; decide)
  rw [hwhite] at hmoved
  exact absurd hmoved.2 (by decide)

/-! ## The run over all lists -/

/-- The answers that the step for a list leaves to the next. -/
def remaining (env : Env) (lst : DomainList) (replies : List (Option Response)) :
    List (Option Response) :=
  if isOutdated env lst (replies.headD none) then replies.tail.tail else replies.tail

def fetched (env : Env) : List DomainList → List (Option Response) → List (DomainList × String)
  | [], _ => []
  | lst :: lists, replies =>
    ((fetchedBody env lst replies).map fun body => (lst, body)).toList ++
      fetched env lists (remaining env lst replies)

/-- Decoding throws what the `try` block does not catch. -/
def Escapes (env : Env) (p : DomainList × String) : Prop :=
  ∃ e, (decode env p.1 p.2).1 = .error e ∧ e.isRuntimeError = false

/-- A list that is imported, the body it was decoded from, and the faults that the connection
still meets. -/
structure Import where
  lst : DomainList
  body : String
  access : Option (List Bool)
  deriving DecidableEq

def imports (env : Env) : List (DomainList × String) → Option (List Bool) → List Import
  | [], _ => []
  | p :: fetched, access => match decode env p.1 p.2 with
    | (.ok (), lst) =>
      ⟨lst, p.2, access⟩ ::
        imports env fetched (access.bind (afterImport lst.domains.length))
    | (.error _, _) => imports env fetched access

/-- Everything the step for a list can do. -/
inductive Stepped (env : Env) (lst : DomainList) (s : Store) : Except Exc ListUpdate → Store → Prop
  | skipped (u : ListUpdate) (s' : Store)
      (hbody : fetchedBody env lst s.ambient.replies = none) (hu : u.isUpdated = false)
      (hconn : s'.conn = s.conn) (haccess : s'.access = s.access) : Stepped env lst s (.ok u) s'
  | rejected (body : String) (e : Exc) (lst' : DomainList) (s' : Store)
      (hbody : fetchedBody env lst s.ambient.replies = some body)
      (hdecode : decode env lst body = (.error e, lst')) (he : e.isRuntimeError = true)
      (hconn : s'.conn = s.conn) (haccess : s'.access = s.access) :
      Stepped env lst s (.ok (.rejected body)) s'
  | escaped (body : String) (e : Exc) (lst' : DomainList) (s' : Store)
      (hbody : fetchedBody env lst s.ambient.replies = some body)
      (hdecode : decode env lst body = (.error e, lst')) (he : e.isRuntimeError = false) :
      Stepped env lst s (.error e) s'
  | lost (body : String) (lst' : DomainList) (s' : Store)
      (hbody : fetchedBody env lst s.ambient.replies = some body)
      (hdecode : decode env lst body = (.ok (), lst')) (hlost : LosesList s.access) :
      Stepped env lst s (.error .nullDereference) s'
  | imported (body : String) (lst' : DomainList) (committed : Bool) (s' : Store)
      (hbody : fetchedBody env lst s.ambient.replies = some body)
      (hdecode : decode env lst body = (.ok (), lst')) (hfound : ¬ LosesList s.access)
      (hcommits : committed = true ↔ Commits lst'.domains.length s.access)
      (haccess : s'.access = s.access.bind (afterImport lst'.domains.length)) :
      Stepped env lst s (.ok (.imported body committed)) s'

theorem exec_importFetched_lost {env : Env} {s : Store} {lst lst' : DomainList} {body : String}
    (hs : s.held = false) (hdecode : decode env lst body = (.ok (), lst')) (hlost : s.LosesList) :
    ∃ s', s.exec (importFetched env lst body) = some (.error .nullDereference, s') := by
  obtain ⟨r, s₁, hcreated, hrun⟩ := s.exec_importList lst' false hs
  obtain rfl := hcreated.eq_none_iff.mpr hlost
  rw [importFetched, hdecode, Store.exec_catchRuntime]
  change ∃ s', Option.bind (s.exec (DomainListManager.importList lst' false >>= _)) _ = _
  rw [Store.exec_bind, hrun]
  exact ⟨s₁, rfl⟩

theorem exec_updateList_stepped {s : Store} (hs : s.held = false) (env : Env) (lst : DomainList) :
    ∃ r s', s.exec (updateList env lst) = some (r, s') ∧ Stepped env lst s r s' ∧
      ((∃ u, r = .ok u) → s'.held = false ∧
        s'.ambient.replies = remaining env lst s.ambient.replies) := by
  obtain ⟨conn, held, amb⟩ := s
  rw [Store.exec_updateList]
  unfold remaining
  have hnone (h : isOutdated env lst (amb.replies.headD none) = false) :
      fetchedBody env lst amb.replies = none := by
    rw [fetchedBody, h]
    rfl
  have hbody (h : isOutdated env lst (amb.replies.headD none) = true) :
      fetchedBody env lst amb.replies = (amb.replies.tail.headD none).map Response.body := by
    rw [fetchedBody, h]
    rfl
  change ∃ r s', (if isOutdated env lst (amb.replies.headD none) then _ else _) = _ ∧ _
  cases hout : isOutdated env lst (amb.replies.headD none) with
  | false =>
    exact ⟨.ok .upToDate, ⟨conn, held, amb.afterReply⟩, rfl,
      .skipped _ _ (hnone hout) rfl rfl rfl, fun _ => ⟨hs, rfl⟩⟩
  | true =>
    have hbody := hbody hout
    simp only [if_true]
    cases hreply : amb.replies.tail.headD none with
    | none =>
      rw [hreply] at hbody
      refine ⟨.ok .notFetched, ⟨conn, held, amb.afterReply.afterReply⟩, ?_,
        .skipped _ _ hbody rfl rfl rfl, fun _ => ⟨hs, rfl⟩⟩
      simp only [Ambient.nextReply, Ambient.afterReply, hreply]
    | some response =>
      rw [hreply] at hbody
      let t : Store := ⟨conn, held, amb.afterReply.afterReply⟩
      have hnext : amb.afterReply.nextReply = some response := hreply
      simp only [hnext]
      rcases hdecode : decode env lst response.body with ⟨e | ⟨⟩, lst'⟩
      · have hrun := Store.exec_importFetched_error (s := t) hdecode
        cases he : e.isRuntimeError with
        | true =>
          rw [he, if_pos rfl] at hrun
          exact ⟨_, t, hrun, .rejected _ e lst' t hbody hdecode he rfl rfl, fun _ => ⟨hs, rfl⟩⟩
        | false =>
          rw [he, if_neg Bool.false_ne_true] at hrun
          refine ⟨_, t, hrun, .escaped _ e lst' t hbody hdecode he, ?_⟩
          rintro ⟨u, hu⟩
          cases hu
      · by_cases hlost : t.LosesList
        · obtain ⟨s', hrun⟩ := exec_importFetched_lost (s := t) hs hdecode hlost
          refine ⟨_, s', hrun, .lost _ lst' s' hbody hdecode (Store.losesList_iff.mp hlost), ?_⟩
          rintro ⟨u, hu⟩
          cases hu
        · obtain ⟨done, s', himport, hs', hreplies, hdone, haccess⟩ :=
            Store.exec_importList_access (s := t) hs lst' false hlost
          have hrun := Store.exec_importFetched_decoded (s := t) hdecode himport
          exact ⟨_, s', hrun, .imported _ lst' done s' hbody hdecode
            (fun h => hlost (Store.losesList_iff.mpr h)) hdone haccess, fun _ => ⟨hs', hreplies⟩⟩

/-- Everything the loop can do with the bodies it fetches. -/
inductive Looped (env : Env) (fetched : List (DomainList × String)) (s : Store) :
    Except Exc (List ListUpdate) → Store → Prop
  | escaped (e : Exc) (s' : Store) (h : ∃ p ∈ fetched, Escapes env p) :
      Looped env fetched s (.error e) s'
  | lost (e : Exc) (s' : Store) (h : ∃ i ∈ imports env fetched s.access, LosesList i.access) :
      Looped env fetched s (.error e) s'
  | done (updates : List ListUpdate) (s' : Store) (hdecoded : ∀ p ∈ fetched, ¬ Escapes env p)
      (hfound : ∀ i ∈ imports env fetched s.access, ¬ LosesList i.access)
      (himported : ∀ body committed, .imported body committed ∈ updates ↔
        ∃ i ∈ imports env fetched s.access, i.body = body ∧
          (committed = true ↔ Commits i.lst.domains.length i.access))
      (hsame : imports env fetched s.access = [] → s'.conn = s.conn) :
      Looped env fetched s (.ok updates) s'

namespace Looped

variable {env : Env} {fetched : List (DomainList × String)} {s s₁ s' : Store}
  {r : Except Exc (List ListUpdate)} {u : ListUpdate}

private theorem cons_skipped (h : Looped env fetched s₁ r s') (hconn : s₁.conn = s.conn)
    (haccess : s₁.access = s.access) (hu : u.isUpdated = false) :
    Looped env fetched s (r.map (u :: ·)) s' := by
  cases h with
  | escaped e s' h => exact .escaped e s' h
  | lost e s' h => exact .lost e s' (haccess ▸ h)
  | done updates s' hdecoded hfound himported hsame =>
    rw [haccess] at hfound himported hsame
    refine .done _ s' hdecoded hfound ?_ fun h => (hsame h).trans hconn
    intro body committed
    rw [List.mem_cons, ← himported body committed]
    apply or_iff_right
    rintro rfl
    cases hu

private theorem cons_rejected (h : Looped env fetched s r s') {p : DomainList × String} {e : Exc}
    {lst' : DomainList} (hdecode : decode env p.1 p.2 = (.error e, lst'))
    (he : e.isRuntimeError = true) : Looped env (p :: fetched) s r s' := by
  have himports : imports env (p :: fetched) s.access = imports env fetched s.access := by
    rw [imports, hdecode]
  cases h with
  | escaped e' s' h =>
    obtain ⟨q, hq, hesc⟩ := h
    exact .escaped e' s' ⟨q, List.mem_cons_of_mem _ hq, hesc⟩
  | lost e' s' h => exact .lost e' s' (himports ▸ h)
  | done updates s' hdecoded hfound himported hsame =>
    rw [← himports] at hfound himported hsame
    refine .done updates s' ?_ hfound himported hsame
    intro q hq
    rcases List.mem_cons.mp hq with rfl | hq
    · rintro ⟨e', he', hescapes⟩
      rw [hdecode] at he'
      cases he'
      rw [he] at hescapes
      cases hescapes
    · exact hdecoded q hq

private theorem cons_imported (h : Looped env fetched s₁ r s') {p : DomainList × String}
    {lst' : DomainList} (hdecode : decode env p.1 p.2 = (.ok (), lst')) {committed : Bool}
    (hfound : ¬ LosesList s.access)
    (hcommits : committed = true ↔ Commits lst'.domains.length s.access)
    (haccess : s₁.access = s.access.bind (afterImport lst'.domains.length)) :
    Looped env (p :: fetched) s (r.map (.imported p.2 committed :: ·)) s' := by
  have himports : imports env (p :: fetched) s.access =
      ⟨lst', p.2, s.access⟩ :: imports env fetched s₁.access := by
    rw [imports, hdecode, haccess]
  cases h with
  | escaped e s' h =>
    obtain ⟨q, hq, hesc⟩ := h
    exact .escaped e s' ⟨q, List.mem_cons_of_mem _ hq, hesc⟩
  | lost e s' h =>
    obtain ⟨i, hi, hlost⟩ := h
    exact .lost e s' ⟨i, himports ▸ List.mem_cons_of_mem _ hi, hlost⟩
  | done updates s' hdecoded hfound' himported hsame =>
    refine .done _ s' ?_ ?_ ?_ ?_
    · intro q hq
      rcases List.mem_cons.mp hq with rfl | hq
      · rintro ⟨e, he, _⟩
        rw [hdecode] at he
        cases he
      · exact hdecoded q hq
    · rw [himports]
      exact List.forall_mem_cons.mpr ⟨hfound, hfound'⟩
    · intro body committed'
      rw [List.mem_cons, himported, himports, List.exists_mem_cons_iff, ListUpdate.imported.injEq]
      refine or_congr_left ⟨?_, ?_⟩
      · rintro ⟨rfl, rfl⟩
        exact ⟨rfl, hcommits⟩
      · rintro ⟨rfl, hcommits'⟩
        exact ⟨rfl, Bool.eq_iff_iff.mpr (hcommits'.trans hcommits.symm)⟩
    · rw [himports]
      intro hnil
      cases hnil

end Looped

theorem exec_updateEach (env : Env) (lists : List DomainList) {s : Store} (hs : s.held = false) :
    ∃ r s', s.exec (updateEach env lists) = some (r, s') ∧
      Looped env (fetched env lists s.ambient.replies) s r s' := by
  induction lists generalizing s with
  | nil =>
    refine ⟨.ok [], s, rfl, .done [] s ?_ ?_ ?_ fun _ => rfl⟩
    · simp [fetched]
    · simp [fetched, imports]
    · simp [fetched, imports]
  | cons lst lists ih =>
    obtain ⟨r, s₁, hrun, hstep, hnext⟩ := exec_updateList_stepped hs env lst
    rw [updateEach, Store.exec_bind, hrun]
    have hrest (u : ListUpdate) (hr : r = .ok u) :
        ∃ q s', s₁.exec (updateEach env lists >>= fun updates => pure (u :: updates)) =
            some (q.map (u :: ·), s') ∧
          Looped env (fetched env lists (remaining env lst s.ambient.replies)) s₁ q s' := by
      obtain ⟨hs₁, hreplies⟩ := hnext ⟨u, hr⟩
      obtain ⟨q, s', hrun', hlooped⟩ := ih hs₁
      rw [hreplies] at hlooped
      refine ⟨q, s', ?_, hlooped⟩
      rw [Store.exec_bind, hrun']
      cases q <;> rfl
    unfold fetched
    cases hstep with
    | skipped u _ hbody hu hconn haccess =>
      obtain ⟨q, s', hrun', hlooped⟩ := hrest u rfl
      rw [hbody]
      exact ⟨_, s', hrun', hlooped.cons_skipped hconn haccess hu⟩
    | rejected body e lst' _ hbody hdecode he hconn haccess =>
      obtain ⟨q, s', hrun', hlooped⟩ := hrest _ rfl
      rw [hbody]
      exact ⟨_, s', hrun',
        (hlooped.cons_skipped hconn haccess rfl).cons_rejected (p := (lst, body)) hdecode he⟩
    | escaped body e lst' _ hbody hdecode he =>
      rw [hbody]
      refine ⟨.error e, s₁, rfl, .escaped e s₁ ⟨(lst, body), List.mem_cons_self, e, ?_, he⟩⟩
      rw [hdecode]
    | lost body lst' _ hbody hdecode hlost =>
      rw [hbody]
      refine ⟨.error .nullDereference, s₁, rfl, .lost _ s₁ ⟨⟨lst', body, s.access⟩, ?_, hlost⟩⟩
      simp [imports, hdecode]
    | imported body lst' committed _ hbody hdecode hfound hcommits haccess =>
      obtain ⟨q, s', hrun', hlooped⟩ := hrest _ rfl
      rw [hbody]
      exact ⟨_, s', hrun',
        hlooped.cons_imported (p := (lst, body)) hdecode hfound hcommits haccess⟩

/-- The lists and bodies of a run: of the lists those that are read before the query finds the
database busy. -/
def fetchedLists (env : Env) (config : Config) (s : Store) : List (DomainList × String) :=
  if config.disableListUpdate then []
  else fetched env
    ((Query.getDomainLists.readable s.conn.view s.ambient).filter (isSelected config))
    s.ambient.replies

def importedLists (env : Env) (config : Config) (s : Store) : List Import :=
  imports env (fetchedLists env config s)
    (s.access.map fun _ => Query.getDomainLists.faultsLeft s.conn.view s.ambient)

/-- The run ends, it returns whether a document was parsed and its import committed, and it
changes no list and no domain when it returns false. -/
def ReportsUpdate (env : Env) (config : Config) (s : Store) : Prop :=
  ∃ updates b s', s.exec (updateLists env config) = some (.ok updates, s') ∧
    s.exec (run env config) = some (.ok b, s') ∧
    (b = true ↔ ∃ body, .imported body true ∈ updates ∧ (env.parseJson body).isSome) ∧
    (b = false → s'.conn.file.domains = s.conn.file.domains ∧
      s'.conn.file.domainLists = s.conn.file.domainLists)

/-- When the run reports what it did: no exception escapes, no import follows a null pointer,
and if there are imports then that of some JSON document commits. -/
structure Reportable (env : Env) (config : Config) (s : Store) : Prop where
  decoded : ∀ p ∈ fetchedLists env config s, ¬ Escapes env p
  found : ∀ i ∈ importedLists env config s, ¬ LosesList i.access
  committed : importedLists env config s ≠ [] → ∃ i ∈ importedLists env config s,
    Commits i.lst.domains.length i.access ∧ (env.parseJson i.body).isSome

theorem exec_updateLists {s : Store} (hs : s.held = false) (env : Env) (config : Config) :
    ∃ s₁ r s', s.exec (updateLists env config) = some (r, s') ∧ s₁.conn = s.conn ∧
      imports env (fetchedLists env config s) s₁.access = importedLists env config s ∧
      Looped env (fetchedLists env config s) s₁ r s' := by
  unfold updateLists importedLists fetchedLists
  cases config.disableListUpdate with
  | true =>
    refine ⟨s, .ok [], s, rfl, rfl, rfl, .done [] s ?_ ?_ ?_ fun _ => rfl⟩
    · simp
    · simp [imports]
    · simp [imports]
  | false =>
    obtain ⟨rows, s₁, hrun, hc⟩ := s.exec_collect .getDomainLists hs
    obtain ⟨rfl, hfaults⟩ := hc.readable_eq
    have haccess : s₁.access =
        s.access.map fun _ => Query.getDomainLists.faultsLeft s.conn.view s.ambient := by
      unfold Store.access
      rw [hc.conn_eq, hfaults]
      split_ifs <;> rfl
    simp only [Bool.false_eq_true, if_false]
    rw [DomainListManager.get, Store.exec_bind, hrun]
    obtain ⟨r, s', hrun', hlooped⟩ :=
      exec_updateEach env ((Query.getDomainLists.readable s.conn.view s.ambient).filter
        (isSelected config)) (hc.held_eq.trans hs)
    rw [hc.replies_eq] at hlooped
    exact ⟨s₁, r, s', hrun', hc.conn_eq, by rw [haccess], hlooped⟩

/-- What `run` returns is whether `import` was called. -/
theorem exec_run {s s' : Store} {env : Env} {config : Config} {r : Except Exc (List ListUpdate)}
    (h : s.exec (updateLists env config) = some (r, s')) :
    s.exec (run env config) = some (r.map fun us => us.any ListUpdate.isUpdated, s') := by
  rw [run, Store.exec_bind, h]
  cases r <;> rfl

private theorem any_isUpdated_iff {updates : List ListUpdate} {is : List Import}
    (h : ∀ body committed, .imported body committed ∈ updates ↔
      ∃ i ∈ is, i.body = body ∧ (committed = true ↔ Commits i.lst.domains.length i.access)) :
    updates.any ListUpdate.isUpdated = true ↔ is ≠ [] := by
  rw [List.any_eq_true]
  constructor
  · rintro ⟨u, hu, hupdated⟩
    cases u with
    | imported body committed =>
      obtain ⟨i, hi, _⟩ := (h body committed).mp hu
      exact List.ne_nil_of_mem hi
    | _ => cases hupdated
  · intro hne
    obtain ⟨i, is', rfl⟩ := List.exists_cons_of_ne_nil hne
    by_cases hcommits : Commits i.lst.domains.length i.access
    · exact ⟨_, (h i.body true).mpr ⟨i, List.mem_cons_self, rfl, by simp [hcommits]⟩, rfl⟩
    · exact ⟨_, (h i.body false).mpr ⟨i, List.mem_cons_self, rfl, by simp [hcommits]⟩, rfl⟩

private theorem reportable_of_reportsUpdate {env : Env} {config : Config} {s : Store}
    (hs : s.held = false) (h : ReportsUpdate env config s) : Reportable env config s := by
  obtain ⟨s₁, r, s', hrun, hconn, himports, hlooped⟩ := exec_updateLists hs env config
  obtain ⟨updates, b, s'', hupdates, hb, hiff, _⟩ := h
  rw [hrun, Option.some.injEq, Prod.mk.injEq] at hupdates
  obtain ⟨rfl, rfl⟩ := hupdates
  rw [exec_run hrun, Option.some.injEq, Prod.mk.injEq] at hb
  cases hb.1
  cases hlooped with
  | done _ _ hdecoded hfound himported hsame =>
    rw [himports] at hfound himported
    refine ⟨hdecoded, hfound, ?_⟩
    intro hne
    obtain ⟨body, hmem, hjson⟩ := hiff.mp ((any_isUpdated_iff himported).mpr hne)
    obtain ⟨i, hi, rfl, hcommits⟩ := (himported body true).mp hmem
    exact ⟨i, hi, hcommits.mp rfl, hjson⟩

private theorem reportsUpdate_of_reportable {env : Env} {config : Config} {s : Store}
    (hs : s.held = false) (h : Reportable env config s) : ReportsUpdate env config s := by
  obtain ⟨s₁, r, s', hrun, hconn, himports, hlooped⟩ := exec_updateLists hs env config
  cases hlooped with
  | escaped e _ hescapes =>
    obtain ⟨p, hp, hescapes⟩ := hescapes
    exact absurd hescapes (h.decoded p hp)
  | lost e _ hlost =>
    obtain ⟨i, hi, hlost⟩ := hlost
    exact absurd hlost (h.found i (himports ▸ hi))
  | done updates _ hdecoded hfound himported hsame =>
    rw [himports] at himported hsame
    refine ⟨updates, updates.any ListUpdate.isUpdated, s', hrun, exec_run hrun, ?_, ?_⟩
    · rw [any_isUpdated_iff himported]
      constructor
      · intro hne
        obtain ⟨i, hi, hcommits, hjson⟩ := h.committed hne
        exact ⟨i.body, (himported i.body true).mpr ⟨i, hi, rfl, by simp [hcommits]⟩, hjson⟩
      · rintro ⟨body, hmem, _⟩
        obtain ⟨i, hi, _⟩ := (himported body true).mp hmem
        exact List.ne_nil_of_mem hi
    · intro hfalse
      have hnone : importedLists env config s = [] := by
        by_contra hne
        rw [(any_isUpdated_iff himported).mpr hne] at hfalse
        cases hfalse
      rw [(hsame hnone).trans hconn]
      exact ⟨rfl, rfl⟩

/-- For every state of the connection, every selection, every answer to the transfers, and
whichever statements find the database busy. -/
theorem run_reportsUpdate_iff (env : Env) (config : Config) (c : Connection) (ambient : Ambient) :
    ReportsUpdate env config { conn := c, ambient } ↔
      Reportable env config { conn := c, ambient } :=
  ⟨reportable_of_reportsUpdate rfl, reportsUpdate_of_reportable rfl⟩

/-- An error page in place of the document of `CUSTOM` is reported as an update. -/
theorem run_reports_error_page :
    ¬ ReportsUpdate (.ofTexts []) {} { conn := ⟨Db.seeded, none⟩, ambient :=
      { replies := [some ⟨404, "", "<html>"⟩, some ⟨404, "", "<html>"⟩] } } := by
  intro h
  have himport : importedLists (.ofTexts []) {} { conn := ⟨Db.seeded, none⟩, ambient :=
      { replies := [some ⟨404, "", "<html>"⟩, some ⟨404, "", "<html>"⟩] } } =
        [⟨{ id := 1, name := "CUSTOM", description := some "Custom, uncategorized list",
            active := 1, custom := 1 }, "<html>", some []⟩] := by decide +kernel
  have hreport := (reportable_of_reportsUpdate rfl h).committed
  rw [himport] at hreport
  obtain ⟨i, hi, _, hjson⟩ := hreport (by simp)
  obtain rfl := List.mem_singleton.mp hi
  cases hjson

end Updater

end DblService
