import DblService.CommandLine
import DblService.Decoding
import DblService.Policy.ProxyFile
import DblService.Policy.Updates

/-!
# The whole system

One file is behind the service with its clients and its updater, and behind the calls of the
program.  A name comes in through any of them, and each checks it on its own: the validator asks
the resolver, which may answer otherwise the next time.
-/

namespace DblService

open Framework Session

/-! ## Names that were checked -/

namespace DomainList

/-- The domains that decoding adds are valid. -/
theorem Decoded.valid {env : Env} {root : Json} {l l' : DomainList} {r : Except Exc Unit}
    (h : Decoded env root l r l') :
    ∀ d ∈ l'.domains, d ∈ l.domains ∨ env.isValid d.name = true := by
  have hpushed (l : DomainList) (entries : List Json) :
      ∀ d ∈ (l.push (pushed env entries)).domains, d ∈ l.domains ∨ env.isValid d.name = true := by
    intro d hd
    rcases List.mem_append.mp hd with hd | hd
    · exact .inl hd
    · obtain ⟨item, _, hitem⟩ := List.mem_filterMap.mp hd
      unfold entryDomain readEntry at hitem
      cases hname : env.readMember item "name" with
      | error e => simp [hname, Bind.bind, Except.bind, Except.toOption] at hitem
      | ok name =>
        rw [hname] at hitem
        have hread := Option.some.inj (Option.join_eq_some_iff.mp hitem)
        obtain ⟨text, htext, rfl⟩ := Option.map_eq_some_iff.mp hread
        exact .inr (Option.filter_eq_some_iff.mp htext).2
  cases h with
  | name | url | description | domains => exact fun d hd => .inl hd
  | entry => exact hpushed _ _
  | done => exact hpushed _ _

end DomainList

namespace PolicyOp

/-- The names that the operation does not check itself are valid. -/
def Validated (env : Env) : PolicyOp → Prop
  | .importList lst _ => ∀ d ∈ lst.domains, env.isValid d.name = true
  | _ => True

variable {env : Env} {op : PolicyOp}

private theorem Outcome.validated {r : Option (Except Exc Bool)} {P P' : Policy}
    (h : Outcome env op r P P') (hop : op.Validated env) {m : String}
    (hm : (P'.owner m).isSome = true) : (P.owner m).isSome = true ∨ env.isValid m = true := by
  have hbegun : (op.begun P).owner = P.owner := by
    cases op <;> rfl
  have hassigned {R : Policy} {keys : String → Prop} {list : String}
      (howner : R.owner = P.owner) (hkeys : ∀ k, keys k → env.isValid k = true)
      (hm : ((R.assign keys list).owner m).isSome = true) :
      (P.owner m).isSome = true ∨ env.isValid m = true := by
    simp only [Registry.assign] at hm
    split_ifs at hm with hk
    · exact .inr (hkeys m hk.1)
    · exact .inl (howner ▸ hm)
  have hfiltered (domains : List String) (k : String)
      (hk : k ∈ DomainManager.filterValid env domains) : env.isValid k = true :=
    (List.mem_filter.mp hk).2
  cases h with
  | nothing | refused => exact .inl hm
  | begun => exact .inl (hbegun ▸ hm)
  | whole =>
    cases op with
    | create => exact .inl hm
    | importList lst custom =>
      apply hassigned hbegun _ hm
      intro k hk
      obtain ⟨d, hd, rfl⟩ := List.mem_map.mp hk
      exact hop d hd
    | block domains => exact hassigned hbegun (fun k hk => hfiltered domains k hk.1) hm
    | unblock domains => exact hassigned rfl (hfiltered domains) hm
    | setEnabled => exact .inl hm
    | remove list =>
      simp only [effect, Registry.dissolve] at hm
      split_ifs at hm
      · cases hm
      · exact .inl hm
    | restart =>
      simp only [effect] at hm
      split_ifs at hm <;> exact .inl hm

private theorem explainsPart_validated {ops : List PolicyOp} {whole : Prop}
    {answers : List (Option (Except Exc Bool))} {P P' : Policy}
    (h : ExplainsPart (Outcome env) ops whole answers P P') (hops : ∀ op ∈ ops, op.Validated env)
    {m : String} (hm : (P'.owner m).isSome = true) :
    (P.owner m).isSome = true ∨ env.isValid m = true := by
  refine h.invariant (I := fun Q : Policy => (Q.owner m).isSome = true →
    (P.owner m).isSome = true ∨ env.isValid m = true) ?_ .inl hm
  intro op hop r Q Q' hstep hQ hm
  rcases hstep.validated (hops op hop) hm with hm | hm
  · exact hQ hm
  · exact .inr hm

end PolicyOp

/-! ## The channels -/

private theorem ServiceConnection.requestedList_valid {env : Env} {data : Json} {lst : DomainList}
    {custom : Bool} (h : (requestedList env data).toOption = some (lst, custom)) :
    ∀ d ∈ lst.domains, env.isValid d.name = true := by
  unfold requestedList at h
  cases hdocument : env.get data "domain_list" with
  | error e => simp [hdocument, Bind.bind, Except.bind, Except.toOption] at h
  | ok document =>
  rcases hdecode : (DomainList.initFromJson env document).run.run {} with ⟨r, decoded⟩
  simp only [hdocument, hdecode, Bind.bind, Except.bind] at h
  have hvalid := (DomainList.decoded env document {} hdecode).valid
  split_ifs at h
  · cases h
  cases r with
  | error e => cases h
  | ok _ =>
    cases hget : env.get data "custom" with
    | error e => simp [hget, Except.toOption] at h
    | ok j =>
      cases hbool : env.asBool j with
      | error e => simp [hget, hbool, Except.toOption] at h
      | ok b =>
        simp only [hget, hbool] at h
        cases h
        intro d hd
        exact (hvalid d hd).resolve_left List.not_mem_nil

private theorem ServiceConnection.asksFor_validated {env : Env} {conn : ServiceConnection}
    {text : String} {op : PolicyOp} (h : conn.asksFor env text = some op) : op.Validated env := by
  cases op with
  | importList lst custom =>
    unfold asksFor at h
    split at h
    · cases h
    · split_ifs at h
      · simp at h
      · simp at h
      · obtain ⟨⟨lst', custom'⟩, hlist, hop⟩ := Option.map_eq_some_iff.mp h
        cases hop
        exact requestedList_valid hlist
  | create | block | unblock | setEnabled | remove | restart => trivial

private theorem Updater.planned_validated {env : Env} {config : Config} {db : Db}
    {lists : List DomainList} {replies : List (Option Response)} {op : PolicyOp}
    (hlists : lists <+: Query.getDomainLists.rows db)
    (h : op ∈ planned env config lists replies) : op.Validated env := by
  unfold planned at h
  split_ifs at h
  · cases h
  obtain ⟨p, hp, hop⟩ := List.mem_filterMap.mp h
  obtain ⟨hlist, _⟩ := mem_fetched hp
  obtain ⟨l, _, hl⟩ := List.mem_map.mp (hlists.subset (List.mem_of_mem_filter hlist))
  have hnone : p.1.domains = [] := by
    rw [← show DomainList.fromRow l = p.1 from hl]
    rfl
  unfold asksFor at hop
  rcases hdecode : decode env p.1 p.2 with ⟨e | ⟨⟩, lst⟩
  · simp [hdecode] at hop
  · rw [hdecode] at hop
    cases hop
    intro d hd
    unfold decode DomainList.fromJson at hdecode
    cases hparse : env.parseJson p.2 with
    | none =>
      rw [hparse] at hdecode
      cases hdecode
      rw [hnone] at hd
      cases hd
    | some root =>
      rw [hparse] at hdecode
      have hvalid := (DomainList.decoded env root p.1 hdecode).valid d hd
      simpa [hnone] using hvalid

private theorem CallOptions.operations_validated {env : Env} {options : CallOptions} {op : PolicyOp}
    (h : op ∈ options.operations) : op.Validated env := by
  have hlist (op : PolicyOp) (h : Mgmt.listOperation options.mgmt = some op) :
      op.Validated env := by
    unfold Mgmt.listOperation at h
    split_ifs at h <;> cases h <;> trivial
  rcases List.mem_cons.mp h with rfl | h
  · trivial
  split_ifs at h
  · cases h
  unfold Mgmt.operations at h
  split_ifs at h
  · exact hlist op (Option.mem_toList.mp h)
  · cases h
  · unfold Mgmt.domainOperations at h
    rcases List.mem_append.mp h with h | h <;> split_ifs at h <;> simp at h <;> subst h <;> trivial

/-! ## The system -/

inductive SystemEvent
  | served (e : Event)  -- a client of the service
  | updated (ambient : Ambient)  -- a run of the updater
  | called (options : CallOptions) (ambient : Ambient)  -- a call of the program
  | reloaded (ambient : Ambient)  -- the next round of the service

namespace System

/-- An event, and what the resolver finds while it lasts. -/
def step (env : Env) (config : Config) (e : (String → Bool) × SystemEvent) (w : Service) :
    Unit × Service :=
  let env := { env with isValid := e.1 }
  match e.2 with
  | .served e => ((), (Service.step env config e w).2)
  | .updated ambient => ((), { w with db := (Updater.step env config ambient w.db).2 })
  | .called options ambient =>
    -- SQLite lets no other connection write while a transaction of the service is open, so the
    -- call finds the database busy in `DB::init` and ends
    if w.db.tx = none then
      ((), { w with db := ⟨(CallOptions.step env (options, ambient) w.db.file).2, none⟩ })
    else ((), w)
  | .reloaded ambient => ((), { db := (PolicyOp.step env (.restart, ambient) w.db).2 })

variable {env : Env} {config : Config} {e : (String → Bool) × SystemEvent} {w : Service}

/-- The names that an event gives an owner were valid while it lasted. -/
theorem step_validated {m : String}
    (hm : ((step env config e w).2.db.file.policy.owner m).isSome = true) :
    (w.db.file.policy.owner m).isSome = true ∨ e.1 m = true := by
  obtain ⟨resolves, e⟩ := e
  let env' : Env := { env with isValid := resolves }
  cases e with
  | served e =>
    cases hasks : Service.asks env' e w with
    | none =>
      have hsame : (Service.step env' config e w).2.db.file.policy = w.db.file.policy :=
        Service.step_silent hasks
      exact .inl (hsame ▸ hm)
    | some x =>
      have hstep : (Service.step env' config e w).2.db = _ := Service.step_asked hasks
      have hvalidated : x.1.Validated env' := by
        cases e with
        | opened uuid ambient => cases hasks
        | request i text status ambient =>
          obtain ⟨conn, _, hconn⟩ := Option.bind_eq_some_iff.mp hasks
          obtain ⟨op, hop, rfl⟩ := Option.map_eq_some_iff.mp hconn
          exact ServiceConnection.asksFor_validated hop
      have houtcome := PolicyOp.step_outcome env' x w.db
      rw [← hstep] at houtcome
      exact houtcome.validated hvalidated hm
  | updated ambient =>
    obtain ⟨lists, r, s', answers, hlists, hrun, hdone, _⟩ :=
      Updater.exec_run_performed env' config (s := ⟨w.db, false, ambient⟩) rfl
    have hstep : (Updater.step env' config ambient w.db).2 = s'.conn :=
      congrArg Prod.snd (Connection.perform_of_exec hrun)
    have hm' : (s'.conn.file.policy.owner m).isSome = true := hstep ▸ hm
    exact PolicyOp.explainsPart_validated hdone.explained
      (fun op hop => Updater.planned_validated hlists hop) hm'
  | called options ambient =>
    unfold step at hm
    split_ifs at hm
    · obtain ⟨answers, hexplained⟩ :=
        (CallOptions.step_outcome env' (options, ambient) w.db.file).explained
      exact PolicyOp.explainsPart_validated hexplained
        (fun op hop => CallOptions.operations_validated hop) hm
    · exact .inl hm
  | reloaded ambient =>
    exact (PolicyOp.step_outcome env' (.restart, ambient) w.db).validated trivial hm

/-- Whatever clients, updates and calls bring in, in whatever order, and whatever fails: a name
has an owner only if it had one at the start, or the resolver knew it when it came in; and the next
round of the service that nothing disturbs writes records of such names only. -/
theorem names_validated (env : Env) (config : Config)
    (es : List ((String → Bool) × SystemEvent)) (w : Service)
    (proxy : Proxy) (settings : Settings) (files : Files) (asctime : String)
    (entries : ConfigEntries) (d : Disk)
    (hgenerate : settings.toProxyOptions.dnsProxyGenerateConfig = true)
    (hopened : ¬ BackEnd.Refuses files settings.toProxyOptions)
    (hloaded : ¬ (proxy.backEnd settings).LacksTemplate files settings.toProxyOptions)
    (hwritable : d.writable (proxy.configPath settings) = true) :
    let file := (runEvents (step env config) es w).2.db.file
    (∀ m, (file.policy.owner m).isSome = true →
        (w.db.file.policy.owner m).isSome = true ∨ ∃ e ∈ es, e.1 m = true) ∧
      ∃ names s', FileCode.exec Store.handle (proxy.configure settings files asctime entries) d
          (Store.free ⟨file, none⟩) =
          some ((.ok (), d.put (proxy.configPath settings)
            ((proxy.backEnd settings).fileText files settings.toProxyOptions asctime entries
              (DnsProxy.create settings.toConfig) names)), s') ∧
        ∀ m ∈ names, (w.db.file.policy.owner m).isSome = true ∨ ∃ e ∈ es, e.1 m = true := by
  intro file
  have howned (m : String) (hm : (file.policy.owner m).isSome = true) :
      (w.db.file.policy.owner m).isSome = true ∨ ∃ e ∈ es, e.1 m = true := by
    refine runEvents_invariant (R := fun es (w' : Service) =>
      (w'.db.file.policy.owner m).isSome = true →
        (w.db.file.policy.owner m).isSome = true ∨ ∃ e ∈ es, e.1 m = true) .inl ?_ es hm
    intro es e ih hm
    rcases step_validated hm with hm | hm
    · exact (ih hm).imp_right fun ⟨e', he', h⟩ => ⟨e', List.mem_append_left _ he', h⟩
    · exact .inr ⟨e, by simp, hm⟩
  obtain ⟨names, s', hexec, _, hnames⟩ :=
    Proxy.exec_configure env asctime entries hgenerate hopened hloaded hwritable file
  refine ⟨howned, names, s', hexec, fun m hm => howned m ?_⟩
  rcases (hnames m).mp hm with ⟨list, _, hown, _⟩ | ⟨list, _, hown, _⟩ <;> simp [hown]

/-- A name that the resolver knows while a client blocks it, and one that it no longer knows. -/
theorem names_validated_block :
    let env := Env.ofTexts Service.blockTexts
    let w : Service := { db := ⟨Db.secured, none⟩, connections := [⟨⟨.zero⟩, true⟩] }
    let es : List ((String → Bool) × SystemEvent) :=
      [(fun name => name == "b", .served (.request 0 "block b" {} {})),
        (fun _ => false, .called { mgmt := { block := ["c"] } } {}),
        (fun _ => false, .reloaded {})]
    let settings := Settings.generating
    let d : Disk := .holding "old"
    let file := (runEvents (step env {}) es w).2.db.file
    (file.policy.owner "b" = some "CUSTOM" ∧ file.policy.owner "c" = none) ∧
    (∀ m, (file.policy.owner m).isSome = true →
        (w.db.file.policy.owner m).isSome = true ∨ ∃ e ∈ es, e.1 m = true) ∧
      ∃ names s', FileCode.exec Store.handle
          (Proxy.dnsmasq.configure settings .everywhere "" []) d (Store.free ⟨file, none⟩) =
          some ((.ok (), d.put (Proxy.dnsmasq.configPath settings)
            ((Proxy.dnsmasq.backEnd settings).fileText .everywhere
              settings.toProxyOptions "" [] (DnsProxy.create settings.toConfig) names)),
            s') ∧
        ∀ m ∈ names, (w.db.file.policy.owner m).isSome = true ∨ ∃ e ∈ es, e.1 m = true := by
  intro env w es settings d file
  refine ⟨by decide +kernel, names_validated env {} es w .dnsmasq settings .everywhere "" [] d
    rfl ?_ ?_ rfl⟩
  · unfold BackEnd.Refuses
    decide +kernel
  · rintro ⟨_, habsent⟩
    cases habsent

end System

end DblService
