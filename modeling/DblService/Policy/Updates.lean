import DblService.Policy.Performed
import DblService.Whitelist

/-!
# The policy under updates

A run of the updater imports the documents it gets, one list after the other.  Whatever the
network answers and whatever fails, these imports are all it does to the policy.
-/

namespace DblService

open Framework Session

namespace Updater

/-- The operation that the step for a list reaches with the body it fetched. -/
def asksFor (env : Env) (p : DomainList × String) : Option PolicyOp :=
  match decode env p.1 p.2 with
  | (.ok (), lst) => some (.importList lst false)
  | (.error _, _) => none

def stepOp (env : Env) (lst : DomainList) (replies : List (Option Response)) : Option PolicyOp :=
  (fetchedBody env lst replies).bind fun body => asksFor env (lst, body)

/-- The operations of a run over these lists, one for each body that is decoded. -/
def planned (env : Env) (config : Config) (lists : List DomainList)
    (replies : List (Option Response)) : List PolicyOp :=
  if config.disableListUpdate then []
  else (fetched env (lists.filter (isSelected config)) replies).filterMap (asksFor env)

end Updater

/-! ## The step for one list -/

theorem DomainListManager.Created.replies_eq {name url description : String} {custom : Bool}
    {s s' : Store} {r : Option Int} (h : Created name url description custom s r s') :
    s'.ambient.replies = s.ambient.replies := by
  cases h with
  | failed _ h => exact h.replies_eq
  | crashed _ h _ => exact h.replies_eq
  | created _ _ h _ _ => exact h.replies_eq

namespace Store

open Updater

variable {s : Store} {env : Env}

/-- An import ends with its result or follows a null pointer. -/
theorem exec_importList_replies (hs : s.held = false) (lst : DomainList) (custom : Bool) :
    ∃ r s', s.exec (DomainListManager.importList lst custom) = some (r, s') ∧
      s'.ambient.replies = s.ambient.replies ∧
      ∀ e, r = .error e → e.isRuntimeError = false := by
  obtain ⟨id, s₁, hcreated, hrun⟩ := s.exec_importList lst custom hs
  cases id with
  | none =>
    refine ⟨_, s₁, hrun, hcreated.replies_eq, ?_⟩
    intro e he
    cases he
    rfl
  | some id =>
    obtain ⟨done, s', hexec, ht⟩ := hrun
    exact ⟨_, s', hexec, ht.replies_eq.trans hcreated.replies_eq, nofun⟩

theorem exec_importFetched_performed (env : Env) (hs : s.held = false) (lst : DomainList)
    (body : String) :
    ∃ r s' answers, s.exec (importFetched env lst body) = some (r, s') ∧
      s'.ambient.replies = s.ambient.replies ∧
      Performed env (asksFor env (lst, body)).toList answers s r s' ∧
      ∀ u, r = .ok u → (u.isUpdated = true ↔ (asksFor env (lst, body)).isSome) := by
  unfold asksFor
  rcases hdecode : decode env lst body with ⟨e | ⟨⟩, lst'⟩
  · refine ⟨_, s, [], exec_importFetched_error hdecode, rfl, .silent hs rfl, ?_⟩
    intro u hu
    split_ifs at hu
    cases hu
    simp [ListUpdate.isUpdated]
  · have hop : PolicyOp.importList lst' false ≠ .restart := by simp
    obtain ⟨r, s', hexec, hdone⟩ := PolicyOp.exec_code env hop hs
    obtain ⟨r', s'', hrun, hreplies, herror⟩ := exec_importList_replies hs lst' false
    cases hrun.symm.trans hexec
    cases r with
    | ok committed =>
      refine ⟨_, s', _, exec_importFetched_decoded hdecode hexec, hreplies,
        hdone.result fun _ => ⟨committed, rfl⟩, ?_⟩
      intro u hu
      cases hu
      simp [ListUpdate.isUpdated]
    | error e =>
      -- the exception is no `std::runtime_error`, so the `try` block lets it pass
      have hexec' : s.exec (importFetched env lst body) = some (.error e, s') := by
        rw [importFetched, hdecode, exec_catchRuntime]
        change Option.bind (s.exec (DomainListManager.importList lst' false >>= _)) _ = _
        rw [exec_bind, hrun]
        simp [herror e rfl]
      exact ⟨_, s', _, hexec', hreplies, hdone.result (by simp), by simp⟩

/-- The step for a list performs its import, if it decodes a document. -/
theorem exec_updateList_performed (env : Env) (hs : s.held = false) (lst : DomainList) :
    ∃ r s' answers, s.exec (updateList env lst) = some (r, s') ∧
      s'.ambient.replies = remaining env lst s.ambient.replies ∧
      Performed env (stepOp env lst s.ambient.replies).toList answers s r s' ∧
      ∀ u, r = .ok u → (u.isUpdated = true ↔ (stepOp env lst s.ambient.replies).isSome) := by
  obtain ⟨conn, held, amb⟩ := s
  simp only at hs
  subst hs
  rw [exec_updateList]
  unfold stepOp fetchedBody remaining
  change ∃ r s' answers, (if isOutdated env lst (amb.replies.headD none) then _ else _) = _ ∧ _
  cases isOutdated env lst (amb.replies.headD none) with
  | false =>
    refine ⟨.ok .upToDate, ⟨conn, false, amb.afterReply⟩, [], rfl, rfl, .silent rfl rfl, ?_⟩
    simp [ListUpdate.isUpdated]
  | true =>
    simp only [if_true]
    cases hreply : amb.replies.tail.headD none with
    | none =>
      refine ⟨.ok .notFetched, ⟨conn, false, amb.afterReply.afterReply⟩, [], ?_, rfl,
        .silent rfl rfl, ?_⟩
      · simp only [Ambient.nextReply, Ambient.afterReply, hreply]
      · simp [ListUpdate.isUpdated]
    | some response =>
      have hnext : amb.afterReply.nextReply = some response := hreply
      simp only [hnext, Option.map_some, Option.bind_some]
      let t : Store := ⟨conn, false, amb.afterReply.afterReply⟩
      obtain ⟨r, s', answers, hrun, hreplies, ⟨hs', hexplained⟩, hupdated⟩ :=
        exec_importFetched_performed (s := t) env rfl lst response.body
      exact ⟨r, s', answers, hrun, hreplies, ⟨hs', hexplained⟩, hupdated⟩

private theorem filterMap_fetched_cons (lst : DomainList) (lists : List DomainList)
    (replies : List (Option Response)) :
    (fetched env (lst :: lists) replies).filterMap (asksFor env) =
      (stepOp env lst replies).toList ++
        (fetched env lists (remaining env lst replies)).filterMap (asksFor env) := by
  rw [fetched, List.filterMap_append]
  congr 1
  unfold stepOp
  cases fetchedBody env lst replies with
  | none => rfl
  | some body =>
    cases h : asksFor env (lst, body) <;> simp [h]

theorem exec_updateEach_performed (env : Env) (lists : List DomainList) (hs : s.held = false) :
    ∃ r s' answers, s.exec (updateEach env lists) = some (r, s') ∧
      Performed env ((fetched env lists s.ambient.replies).filterMap (asksFor env)) answers s r
        s' ∧
      ∀ us, r = .ok us → (us.any ListUpdate.isUpdated = true ↔
        (fetched env lists s.ambient.replies).filterMap (asksFor env) ≠ []) := by
  induction lists generalizing s with
  | nil =>
    refine ⟨.ok [], s, [], rfl, .silent hs rfl, ?_⟩
    intro us hus
    cases hus
    simp [fetched]
  | cons lst lists ih =>
    obtain ⟨r, s₁, answers, hrun, hreplies, hdone, hupdated⟩ :=
      exec_updateList_performed env hs lst
    rw [updateEach, exec_bind, hrun, filterMap_fetched_cons]
    cases r with
    | error e => exact ⟨.error e, s₁, answers, rfl, hdone.cut _, by simp⟩
    | ok u =>
      obtain ⟨r', s', answers', hrun', hdone', hupdated'⟩ := ih hdone.released
      rw [hreplies] at hdone' hupdated'
      change ∃ r s' answers, s₁.exec (updateEach env lists >>= _) = _ ∧ _
      rw [exec_bind, hrun']
      cases r' with
      | error e =>
        exact ⟨.error e, s', _, rfl, (hdone.append hdone').result (by simp), by simp⟩
      | ok us =>
        refine ⟨.ok (u :: us), s', _, rfl, (hdone.append hdone').result fun _ => ⟨us, rfl⟩, ?_⟩
        intro all hall
        cases hall
        rw [List.any_cons, Bool.or_eq_true, hupdated u rfl, hupdated' us rfl]
        cases stepOp env lst s.ambient.replies <;> simp

end Store

/-! ## The run -/

private theorem Collected.isPrefix {q : Query} {s s' : Store} {rows : List q.Row}
    (h : Collected q s rows s') : rows <+: q.rows s.conn.view := by
  cases h with
  | complete _ => exact List.prefix_rfl
  | refused _ => exact List.nil_prefix
  | cut i _ _ _ => exact List.take_prefix i _

namespace Updater

open PolicyOp

variable {env : Env}

theorem exec_run_performed (env : Env) (config : Config) {s : Store} (hs : s.held = false) :
    ∃ lists r s' answers, lists <+: Query.getDomainLists.rows s.conn.view ∧
      s.exec (run env config) = some (r, s') ∧
      Performed env (planned env config lists s.ambient.replies) answers s r s' ∧
      ∀ b, r = .ok b → (b = true ↔ planned env config lists s.ambient.replies ≠ []) := by
  unfold planned
  cases hdisabled : config.disableListUpdate with
  | true =>
    have hlists : s.exec (updateLists env config) = some (.ok [], s) := by
      rw [updateLists, hdisabled]
      rfl
    refine ⟨[], _, s, [], List.nil_prefix, exec_run hlists, .silent hs rfl, ?_⟩
    intro b hb
    cases hb
    simp
  | false =>
    obtain ⟨lists, s₁, hrun, hc⟩ := s.exec_collect .getDomainLists hs
    obtain ⟨r, s', answers, heach, hdone, hupdated⟩ := Store.exec_updateEach_performed env
      (lists.filter (isSelected config)) (hc.held_eq.trans hs)
    rw [hc.replies_eq] at hdone hupdated
    have hlists : s.exec (updateLists env config) = some (r, s') := by
      rw [updateLists, hdisabled]
      simp only [Bool.false_eq_true, if_false]
      rw [DomainListManager.get, Store.exec_bind, hrun]
      exact heach
    refine ⟨lists, _, s', answers, hc.isPrefix, exec_run hlists, ?_, ?_⟩
    · obtain ⟨hs', hexplained⟩ := hdone.result (q := r.map fun us => us.any ListUpdate.isUpdated)
        (by cases r <;> simp [Except.map])
      rw [hc.conn_eq] at hexplained
      exact ⟨hs', hexplained⟩
    · intro b hb
      cases r with
      | error e => cases hb
      | ok us =>
        cases hb
        exact hupdated us rfl

/-- Whatever the network answers and whatever fails, all that a run of the updater does to the
policy is to import, without the mark of a custom list, the documents that it got for the
selected lists it read and could decode: in order, all of them unless an exception leaves the
run, and the run that returns says whether there was one. -/
theorem updates_explained (env : Env) (config : Config) (c : Connection) (ambient : Ambient) :
    let x := c.perform ambient (run env config)
    ∃ lists answers, lists <+: Query.getDomainLists.rows c.view ∧
      ExplainsPart (PolicyOp.Outcome env) (planned env config lists ambient.replies)
        (∃ b, x.1 = some (.ok b)) answers c.file.policy x.2.file.policy ∧
      ∀ b, x.1 = some (.ok b) → (b = true ↔ planned env config lists ambient.replies ≠ []) := by
  obtain ⟨lists, r, s', answers, hfirst, hrun, hdone, hupdated⟩ :=
    exec_run_performed env config (s := ⟨c, false, ambient⟩) rfl
  intro x
  have hx : x = (some r, s'.conn) := Connection.perform_of_exec hrun
  refine ⟨lists, answers, hfirst, ?_, ?_⟩
  · simpa [hx] using hdone.explained
  · simpa [hx] using hupdated

/-! ## What no run of the updater does -/

/-- The lists are read from the rows, and the bodies are answers of the network. -/
theorem mem_fetched {lists : List DomainList} {replies : List (Option Response)}
    {p : DomainList × String} (h : p ∈ fetched env lists replies) :
    p.1 ∈ lists ∧ ∃ response, some response ∈ replies ∧ response.body = p.2 := by
  induction lists generalizing replies with
  | nil => cases h
  | cons lst lists ih =>
    rcases List.mem_append.mp h with h | h
    · rw [Option.mem_toList, Option.map_eq_some_iff] at h
      obtain ⟨body, hbody, rfl⟩ := h
      refine ⟨List.mem_cons_self, ?_⟩
      unfold fetchedBody at hbody
      split_ifs at hbody
      obtain ⟨response, hresponse, rfl⟩ := Option.map_eq_some_iff.mp hbody
      refine ⟨response, List.mem_of_mem_tail ?_, rfl⟩
      cases htail : replies.tail with
      | nil => simp [htail] at hresponse
      | cons reply rest => simpa [htail] using List.mem_cons.mpr (Or.inl hresponse.symm)
    · obtain ⟨hlist, response, hresponse, hbody⟩ := ih h
      refine ⟨List.mem_cons_of_mem _ hlist, response, ?_, hbody⟩
      unfold remaining at hresponse
      split_ifs at hresponse
      · exact List.mem_of_mem_tail (List.mem_of_mem_tail hresponse)
      · exact List.mem_of_mem_tail hresponse

private theorem mem_planned {config : Config} {db : Db} {lists : List DomainList}
    {replies : List (Option Response)} {op : PolicyOp}
    (hlists : lists <+: Query.getDomainLists.rows db)
    (h : op ∈ planned env config lists replies) :
    ∃ l lst response, op = .importList lst false ∧ some response ∈ replies ∧
      lst.domains.map Domain.name = documentNames env l response.body := by
  unfold planned at h
  split_ifs at h
  · cases h
  obtain ⟨p, hp, hop⟩ := List.mem_filterMap.mp h
  obtain ⟨hlist, response, hresponse, hbody⟩ := mem_fetched hp
  obtain ⟨l, _, hl⟩ := List.mem_map.mp (hlists.subset (List.mem_of_mem_filter hlist))
  unfold asksFor at hop
  rcases hdecode : decode env p.1 p.2 with ⟨e | ⟨⟩, lst⟩
  · simp [hdecode] at hop
  · rw [hdecode] at hop
    cases hop
    refine ⟨l, lst, response, rfl, hresponse, ?_⟩
    rw [documentNames, hbody]
    have hl' : DomainList.fromRow l = p.1 := hl
    rw [hl', hdecode]

def step (env : Env) (config : Config) (ambient : Ambient) (c : Connection) :
    Option (Except Exc Bool) × Connection := c.perform ambient (run env config)

private theorem extends_import {lst : DomainList} {custom : Bool} {r : Option (Except Exc Bool)}
    {P P' : Policy} (h : PolicyOp.Outcome env (.importList lst custom) r P P') : P.Extends P' := by
  cases h with
  | whole => exact Registry.Extends.trans .ensure .assign
  | nothing _ => exact .refl P
  | refused _ => exact .refl P
  | begun _ => exact .ensure

/-- One run keeps every list and what no document names. -/
theorem step_untouched (config : Config) {ambient : Ambient} {m : String}
    (hm : ∀ reply ∈ ambient.replies, ListOp.Lacks env m reply) (c : Connection) :
    c.file.policy.Extends (step env config ambient c).2.file.policy ∧
      Registry.SameFor m c.file.policy (step env config ambient c).2.file.policy := by
  obtain ⟨lists, r, s', answers, hlists, hrun, hdone, _⟩ :=
    exec_run_performed env config (s := ⟨c, false, ambient⟩) rfl
  have hstep : (step env config ambient c).2 = s'.conn :=
    congrArg Prod.snd (Connection.perform_of_exec hrun)
  rw [hstep]
  apply hdone.explained.invariant
    (I := fun P => c.file.policy.Extends P ∧ Registry.SameFor m c.file.policy P) _
    ⟨.refl _, .refl m _⟩
  intro op hop r P P' hstep hP
  obtain ⟨l, lst, response, rfl, hresponse, hnames⟩ := mem_planned hlists hop
  have hlacks : m ∉ lst.domains.map Domain.name := by
    rw [hnames]
    exact hm _ hresponse response rfl l
  exact ⟨hP.1.trans (extends_import hstep), hP.2.trans (hstep.sameFor hlacks fun _ _ => id)⟩

theorem untouched_runEvents (config : Config) {es : List Ambient} {m : String}
    (hm : ∀ ambient ∈ es, ∀ reply ∈ ambient.replies, ListOp.Lacks env m reply) (c : Connection) :
    let c' := (runEvents (step env config) es c).2
    c.file.policy.Extends c'.file.policy ∧ Registry.SameFor m c.file.policy c'.file.policy := by
  have hlacks : Along (step env config)
      (fun ambient _ => ∀ reply ∈ ambient.replies, ListOp.Lacks env m reply) es c :=
    Along.of_forall (fun ambient hambient _ => hm ambient hambient) c
  apply hlacks.invariant (I := fun c' : Connection => c.file.policy.Extends c'.file.policy ∧
    Registry.SameFor m c.file.policy c'.file.policy) _ ⟨.refl _, .refl m _⟩
  intro ambient c' hc' hambient
  obtain ⟨hextends, hsame⟩ := step_untouched config hambient c'
  exact ⟨hc'.1.trans hextends, hc'.2.trans hsame⟩

/-- Whatever the network answers in any number of runs of the updater, and whatever fails: no
list is removed, switched or changed, and a domain that no document names belongs to the list
it belonged to; an idle database blocks, or allows, it as an idle one did before. -/
theorem updates_untouched (env : Env) (config : Config) (es : List Ambient) (c : Connection)
    (m : String) (hm : ∀ ambient ∈ es, ∀ reply ∈ ambient.replies, ListOp.Lacks env m reply) :
    let c' := (runEvents (step env config) es c).2
    (∀ n a, c.file.policy.group n = some a → c'.file.policy.group n = some a) ∧
      c'.file.policy.owner m = c.file.policy.owner m ∧
      (c'.tx = none →
        (∃ rows, c'.Lists DomainManager.getBlocked rows ∧
          (m ∈ rows.map Domain.name ↔ c.file.policy.Blocks m)) ∧
        ∃ rows, c'.Lists DomainManager.getWhitelisted rows ∧
          (m ∈ rows.map Domain.name ↔ c.file.policy.Allows m)) := by
  intro c'
  obtain ⟨hextends, hsame⟩ := untouched_runEvents config hm c
  refine ⟨hextends, hsame.owner, fun hidle => ?_⟩
  have hreads := Connection.reads_policy (c := c') hidle
  obtain ⟨blocked, hblocked, _, hb⟩ := hreads.blocked
  obtain ⟨allowed, hallowed, _, ha⟩ := hreads.whitelisted
  exact ⟨⟨blocked, hblocked, (hb m).trans hsame.within⟩, allowed, hallowed,
    (ha m).trans hsame.within⟩

def twoRuns : List Ambient :=
  [{ replies := [some ⟨200, "", "doc"⟩, some ⟨200, "", "doc"⟩] },
    { replies := [some ⟨404, "", "<html>"⟩, some ⟨404, "", "<html>"⟩]
      faults := [false, false, true] }]

theorem updates_untouched_ads :
    let env := Env.ofTexts [("doc", .object [("name", .string "CUSTOM"),
      ("domains", .array [.object [("name", .string "b")]])])]
    let c : Connection := ⟨Db.seeded.replaceDomain "ads.example" 1 Db.seeded_custom_id, none⟩
    let c' := (runEvents (step env {}) twoRuns c).2
    (∀ n a, c.file.policy.group n = some a → c'.file.policy.group n = some a) ∧
      c'.file.policy.owner "ads.example" = c.file.policy.owner "ads.example" ∧
      (c'.tx = none →
        (∃ rows, c'.Lists DomainManager.getBlocked rows ∧
          ("ads.example" ∈ rows.map Domain.name ↔ c.file.policy.Blocks "ads.example")) ∧
        ∃ rows, c'.Lists DomainManager.getWhitelisted rows ∧
          ("ads.example" ∈ rows.map Domain.name ↔ c.file.policy.Allows "ads.example")) := by
  intro env c
  have hdoc (l : DomainListRow) : documentNames env l "doc" = ["b"] := rfl
  have hpage (l : DomainListRow) : documentNames env l "<html>" = [] := rfl
  apply updates_untouched env {} twoRuns c "ads.example"
  intro ambient hambient reply hreply response hresponse l
  subst hresponse
  simp only [twoRuns, List.mem_cons, List.not_mem_nil, or_false] at hambient
  rcases hambient with rfl | rfl
  · simp only [List.mem_cons, List.not_mem_nil, or_false, or_self, Option.some.injEq] at hreply
    subst hreply
    simp [hdoc]
  · simp only [List.mem_cons, List.not_mem_nil, or_false, or_self, Option.some.injEq] at hreply
    subst hreply
    simp [hpage]

end Updater

end DblService
