import DblService.Framework.Run
import DblService.Updater

/-!
# Whitelisting

What `unblock_domains` achieves, and what keeps a name whitelisted while lists are
imported, updated, created, switched and removed around it.
-/

namespace DblService

open Framework Session

/-! ## Unblocking -/

structure Unblocked (env : Env) (domains : List String) (c c' : Connection) : Prop where
  blocked : ∃ rows, (Store.free c').exec DomainManager.getBlocked =
      some (.ok rows, Store.free c') ∧
    ∀ name ∈ DomainManager.filterValid env domains, name ∉ rows.map Domain.name
  whitelisted : ∃ rows, (Store.free c').exec DomainManager.getWhitelisted =
      some (.ok rows, Store.free c') ∧
    ∀ name ∈ DomainManager.filterValid env domains, name ∈ rows.map Domain.name
  others : ∀ name ∉ DomainManager.filterValid env domains,
    c'.view.owner name = c.view.owner name

/-- The list that `unblock_domains` finds by its name is an enabled whitelist. -/
def Db.HasWhitelist (db : Db) : Prop :=
  ∃ l, db.listNamed "WHITELIST" = some l ∧ l.active = true ∧ l.isWhitelist = true

/-- The tables after a successful call. -/
theorem unblockDomains_committed {env : Env} {domains : List String} {s s' : Store}
    (hs : s.held = false)
    (h : s.exec (DomainManager.unblockDomains env domains) = some (.ok true, s')) :
    DomainManager.filterValid env domains ≠ [] ∧
      ∃ l, s.conn.view.listNamed "WHITELIST" = some l ∧
        Db.SameButDomains s.conn.view s'.conn.view ∧
        ∀ m, s'.conn.view.owner m =
          if m ∈ DomainManager.filterValid env domains then some l.id else s.conn.view.owner m := by
  by_cases hvalid : DomainManager.filterValid env domains = []
  · rw [Store.exec_unblockDomains_nil s env hvalid] at h
    cases h
  refine ⟨hvalid, ?_⟩
  obtain ⟨done, s₁, hrun, ht⟩ := Store.exec_unblockDomains s env domains hvalid hs
  rw [hrun, Option.some.injEq, Prod.mk.injEq, Except.ok.injEq] at h
  obtain ⟨rfl, rfl⟩ := h
  cases ht with
  | committed db hidle _ hdb =>
    rw [Connection.view_of_idle hidle]
    cases hl : s.conn.file.listNamed "WHITELIST" with
    | none =>
      rw [Stmt.runAll_whitelist_error _ hvalid hl] at hdb
      cases hdb
    | some l =>
      obtain ⟨db', hdb', hsame, howner⟩ := Stmt.runAll_whitelist s.ambient.now
        (DomainManager.filterValid env domains) hl
      rw [hdb, Except.ok.injEq] at hdb'
      subst hdb'
      exact ⟨l, rfl, hsame, howner⟩

/-- A successful call does what it is for, exactly when the list it finds is an enabled
whitelist. -/
theorem unblockDomains_unblocked_iff (env : Env) (domains : List String) (s s' : Store)
    (hs : s.held = false)
    (h : s.exec (DomainManager.unblockDomains env domains) = some (.ok true, s')) :
    Unblocked env domains s.conn s'.conn ↔ s.conn.view.HasWhitelist := by
  obtain ⟨hvalid, l, hl, hsame, howner⟩ := unblockDomains_committed hs h
  obtain ⟨hmem, hname⟩ := Db.listNamed_eq_some.mp hl
  have hmem' : l ∈ s'.conn.view.domainLists := hsame.lists ▸ hmem
  have hblocked := Store.exec_collect_free s'.conn .getBlockedDomains
  have hwhite := Store.exec_collect_free s'.conn .getAllWhitelistedDomains
  constructor
  · intro hu
    obtain ⟨name, hin⟩ := List.exists_mem_of_ne_nil _ hvalid
    obtain ⟨rows, hrows, hall⟩ := hu.whitelisted
    rw [DomainManager.getWhitelisted, hwhite, Option.some.injEq, Prod.mk.injEq,
      Except.ok.injEq] at hrows
    obtain ⟨k, hk, hflags, hko⟩ :=
      Db.mem_getWhitelisted_names.mp (hrows.1 ▸ hall name hin)
    rw [howner name, if_pos hin, Option.some.injEq] at hko
    have hkl : l = k := Db.list_id_inj hmem' hk hko
    exact ⟨l, hl, hkl ▸ hflags⟩
  · rintro ⟨k, hk, hactive, hflag⟩
    obtain rfl : l = k := Option.some.inj (hl.symm.trans hk)
    refine ⟨⟨_, hblocked, ?_⟩, ⟨_, hwhite, ?_⟩,
      ?_⟩
    · intro name hin hb
      obtain ⟨j, hj, ⟨_, hno⟩, hjo⟩ := Db.mem_getBlocked_names.mp hb
      rw [howner name, if_pos hin, Option.some.injEq] at hjo
      rw [← Db.list_id_inj hmem' hj hjo, hflag] at hno
      cases hno
    · intro name hin
      exact Db.mem_getWhitelisted_names.mpr
        ⟨l, hmem', ⟨hactive, hflag⟩, by rw [howner name, if_pos hin]⟩
    · intro name hout
      rw [howner name, if_neg hout]

/-- Unblocking a name on the tables of the first start. -/
theorem unblockDomains_unblocked_seeded :
    ∃ s', (Store.free ⟨Db.seeded, none⟩).exec
          (DomainManager.unblockDomains (.ofTexts []) ["ads.example"]) = some (.ok true, s') ∧
      Unblocked (.ofTexts []) ["ads.example"] ⟨Db.seeded, none⟩ s'.conn := by
  have hok : ((Store.free ⟨Db.seeded, none⟩).exec
      (DomainManager.unblockDomains (.ofTexts []) ["ads.example"])).map Prod.fst =
        some (.ok true) := by decide +kernel
  obtain ⟨⟨r, s'⟩, hrun, rfl⟩ := Option.map_eq_some_iff.mp hok
  have hwhitelist : Db.seeded.HasWhitelist := by
    unfold Db.HasWhitelist
    decide
  exact ⟨s', hrun, (unblockDomains_unblocked_iff (.ofTexts []) ["ads.example"]
    (Store.free ⟨Db.seeded, none⟩) s' rfl hrun).mpr hwhitelist⟩

def Db.recreated : Db :=
  (Db.seeded.deleteList "WHITELIST").ensureList "WHITELIST" "" "" false

/-- Once `WHITELIST` was removed and created again, unblocking a name blocks it. -/
theorem unblockDomains_recreated :
    (Store.free ⟨Db.empty, none⟩).exec
        (do
          DB.init
          let _ ← DomainListManager.remove "WHITELIST"
          let _ ← DomainListManager.create "WHITELIST" "" "" false) =
      some (.ok (), Store.free ⟨Db.recreated, none⟩) ∧
    ∃ s', (Store.free ⟨Db.recreated, none⟩).exec
          (DomainManager.unblockDomains (.ofTexts []) ["ads.example"]) = some (.ok true, s') ∧
        ¬ Unblocked (.ofTexts []) ["ads.example"] ⟨Db.recreated, none⟩ s'.conn := by
  refine ⟨by decide +kernel, ?_⟩
  have hrun : ((Store.free ⟨Db.recreated, none⟩).exec
      (DomainManager.unblockDomains (.ofTexts []) ["ads.example"])).map
        (fun x => (x.1, (Query.getBlockedDomains.rows x.2.conn.view).map Domain.name)) =
          some (.ok true, ["ads.example"]) := by decide +kernel
  obtain ⟨⟨r, s'⟩, hexec, hrows⟩ := Option.map_eq_some_iff.mp hrun
  obtain ⟨rfl, hnames⟩ := Prod.mk.inj hrows
  refine ⟨s', hexec, ?_⟩
  intro h
  obtain ⟨rows, hget, hnone⟩ := h.blocked
  rw [DomainManager.getBlocked, Store.exec_collect_free, Option.some.injEq, Prod.mk.injEq,
    Except.ok.injEq] at hget
  apply hnone "ads.example" (by decide +kernel)
  rw [← hget.1, hnames]
  exact List.mem_singleton.mpr rfl

/-! ## Staying whitelisted -/

/-- The name belongs to the whitelist of that name. -/
def Db.WhitelistedBy (list domain : String) (db : Db) : Prop :=
  ∃ l ∈ db.domainLists, l.name = list ∧ db.owner domain = some l.id ∧ l.isWhitelist = true

private theorem Db.WhitelistedBy.isWhitelisted {list domain : String} {db : Db}
    (h : db.WhitelistedBy list domain) : db.IsWhitelisted domain := by
  obtain ⟨l, hl, _, howner, hflag⟩ := h
  exact ⟨l, hl, howner, hflag⟩

private theorem Db.IsWhitelisted.not_blocked {domain : String} {db : Db}
    (h : db.IsWhitelisted domain) :
    domain ∉ (Query.getBlockedDomains.rows db).map Domain.name := by
  intro hb
  obtain ⟨l, hl, howner, hflag⟩ := h
  obtain ⟨k, hk, ⟨_, hno⟩, hko⟩ := Db.mem_getBlocked_names.mp hb
  rw [Db.list_id_inj hk hl (Option.some.inj (hko.symm.trans howner)), hflag] at hno
  cases hno

/-- The statements that leave the name with its whitelist. -/
def Stmt.Spares (list domain : String) : Stmt → Prop
  | .insertOrReplaceDomain name _ | .insertOrReplaceWhitelisted name => name ≠ domain
  | .deleteDomainList name => name ≠ list
  | _ => True

private theorem Db.whitelistedBy_iff {list domain : String} {db : Db} :
    db.WhitelistedBy list domain ↔
      db.OwnedBy (fun l => l.name = list ∧ l.isWhitelist = true) domain := by
  constructor
  · rintro ⟨l, hl, hname, howner, hflag⟩
    exact ⟨l, hl, ⟨hname, hflag⟩, howner⟩
  · rintro ⟨l, hl, ⟨hname, hflag⟩, howner⟩
    exact ⟨l, hl, hname, howner, hflag⟩

private theorem Stmt.Spares.whitelistedBy {list domain : String} {st : Stmt}
    (hst : st.Spares list domain) {now : Int} {db db' : Db} (h : db.WhitelistedBy list domain)
    (hrun : st.run now db = .ok db') :
    db'.WhitelistedBy list domain := by
  have hleaves : st.Leaves (fun l => l.name = list ∧ l.isWhitelist = true) domain := by
    cases st with
    | insertOrReplaceDomain name listId => exact Or.inl hst
    | insertOrReplaceWhitelisted name => exact hst
    | deleteUnlessWhitelisted name => exact Or.inr fun l hl => hl.2
    | deleteDomainList name => exact fun l hl heq => hst (heq ▸ hl.1)
    | _ => trivial
  rw [Db.whitelistedBy_iff] at h ⊢
  exact hleaves.ownedBy (fun l l' _ hname hflag hl => ⟨hname.trans hl.1, hflag.trans hl.2⟩) h hrun

/-- The operations on lists and blocked names, with the results their callers may drop. -/
inductive ListOp
  | block (domains : List String) (listId : Int)
  | importList (lst : DomainList) (custom : Bool)
  | update (config : Config)
  | create (name url description : String) (custom : Bool)
  | setEnabled (name : String) (enabled : Bool)
  | remove (name : String)

namespace ListOp

def code (env : Env) : ListOp → Code Unit
  | .block domains listId => do let _ ← DomainManager.blockDomains env domains listId
  | .importList lst custom => do let _ ← DomainListManager.importList lst custom
  | .update config => do let _ ← Updater.run env config
  | .create name url description custom => do
    let _ ← DomainListManager.create name url description custom
  | .setEnabled name enabled => do let _ ← DomainListManager.setEnabled name enabled
  | .remove name => do let _ ← DomainListManager.remove name

/-- One operation on the connection, whatever its surroundings do. -/
def step (env : Env) (e : ListOp × Ambient) (c : Connection) :
    Option (Except Exc Unit) × Connection :=
  c.perform e.2 (e.1.code env)

/-- The operation is about other lists: it neither switches nor removes this one. -/
def Other (list : String) : ListOp → Prop
  | .setEnabled name _ | .remove name => name ≠ list
  | _ => True

/-- The document, decoded over any list, does not hold the name. -/
def Lacks (env : Env) (domain : String) (response : Option Response) : Prop :=
  ∀ r, response = some r → ∀ l, domain ∉ Updater.documentNames env l r.body

/-- The name is in no domain list that the operation imports. -/
def Avoids (env : Env) (domain : String) (e : ListOp × Ambient) : Prop :=
  match e.1 with
  | .importList lst _ => domain ∉ lst.domains.map Domain.name
  | .update _ => ∀ r ∈ e.2.replies, Lacks env domain r
  | _ => True

end ListOp

namespace Store

open Framework.Code DomainListManager ListOp

variable {list domain : String} {A : Option Response → Prop}

private theorem preserves_whitelistedBy {stmts : List Stmt}
    (h : ∀ st ∈ stmts, st.Spares list domain) :
    Preserves (Connection.Both (Db.WhitelistedBy list domain)) stmts :=
  preserves_both fun st hst _ _ _ hdb hrun => (h st hst).whitelistedBy hdb hrun

private theorem keeps_importList_whitelistedBy {lst : DomainList} {custom : Bool}
    (h : domain ∉ lst.domains.map Domain.name) :
    Keeps handle (Holds (Connection.Both (Db.WhitelistedBy list domain)) A)
      (importList lst custom) := by
  refine keeps_importList (preserves_whitelistedBy ?_) fun id => preserves_whitelistedBy ?_
  · intro st hst
    rw [List.mem_singleton.mp hst]
    trivial
  · intro st hst
    rcases List.mem_append.mp hst with hst | hst
    · obtain ⟨name, hname, rfl⟩ := List.mem_map.mp hst
      exact fun heq => h (heq ▸ hname)
    · rw [List.mem_singleton.mp hst]
      trivial

private theorem keeps_importFetched_whitelistedBy {env : Env} {l : DomainListRow} {body : String}
    (h : domain ∉ Updater.documentNames env l body) :
    Keeps handle (Holds (Connection.Both (Db.WhitelistedBy list domain)) A)
      (Updater.importFetched env (DomainList.fromRow l) body) := by
  refine keeps_catchRuntime ?_ fun _ => Keeps.pure _
  split
  · exact Keeps.throw _
  · rename_i lst hdecode
    have hlst : domain ∉ lst.domains.map Domain.name := by
      simpa [Updater.documentNames, hdecode] using h
    exact (keeps_importList_whitelistedBy hlst).bind fun _ => Keeps.pure _

private theorem keeps_updateList_whitelistedBy (env : Env) (l : DomainListRow) :
    Keeps handle (Holds (Connection.Both (Db.WhitelistedBy list domain)) (Lacks env domain))
      (Updater.updateList env (DomainList.fromRow l)) := by
  intro s hs
  have hnext {replies : List (Option Response)} {r : Response}
      (hall : ∀ x ∈ replies, Lacks env domain x) (h : replies.headD none = some r) :
      domain ∉ Updater.documentNames env l r.body := by
    cases replies with
    | nil => cases h
    | cons x xs => exact hall x List.mem_cons_self r h l
  have htail : ∀ x ∈ s.ambient.replies.tail, Lacks env domain x :=
    fun x hx => hs.answers x (List.mem_of_mem_tail hx)
  rw [show Framework.Code.exec handle _ s = _ from exec_updateList]
  split_ifs
  · dsimp only
    split
    · rename_i response hreply
      exact keeps_importFetched_whitelistedBy (hnext htail hreply) _
        ⟨hs.released, hs.conn, fun x hx => htail x (List.mem_of_mem_tail hx)⟩
    · exact ⟨_, _, rfl, hs.released, hs.conn,
        fun x hx => htail x (List.mem_of_mem_tail hx)⟩
  · exact ⟨_, _, rfl, hs.released, hs.conn, htail⟩

private theorem keeps_updateEach_whitelistedBy (env : Env) {lists : List DomainList}
    (h : ∀ lst ∈ lists, ∃ l, DomainList.fromRow l = lst) :
    Keeps handle (Holds (Connection.Both (Db.WhitelistedBy list domain)) (Lacks env domain))
      (Updater.updateEach env lists) := by
  induction lists with
  | nil => exact Keeps.pure _
  | cons lst lists ih =>
    obtain ⟨l, rfl⟩ := h lst List.mem_cons_self
    have hrest := ih fun x hx => h x (List.mem_cons_of_mem _ hx)
    exact (keeps_updateList_whitelistedBy env l).bind fun _ => hrest.bind fun _ => Keeps.pure _

theorem keeps_run_whitelistedBy (env : Env) (config : Config) :
    Keeps handle (Holds (Connection.Both (Db.WhitelistedBy list domain)) (Lacks env domain))
      (Updater.run env config) := by
  refine Keeps.bind ?_ fun _ => Keeps.pure _
  unfold Updater.updateLists
  split_ifs
  · exact Keeps.pure _
  intro s hs
  obtain ⟨lists, s₁, hrun, hc⟩ := exec_collect s .getDomainLists hs.released
  have hrows : ∀ lst ∈ lists.filter (Updater.isSelected config),
      ∃ l, DomainList.fromRow l = lst := by
    intro lst hlst
    obtain ⟨l, _, hl⟩ := List.mem_map.mp (hc.subset lst (List.mem_of_mem_filter hlst))
    exact ⟨l, hl⟩
  obtain ⟨r, s', hrest, hs'⟩ := keeps_updateEach_whitelistedBy env hrows s₁ (hs.collected hc)
  refine ⟨r, s', ?_, hs'⟩
  rw [DomainListManager.get, Framework.Code.exec_bind]
  change Option.bind (s.exec (collect .getDomainLists)) _ = _
  rw [hrun]
  exact hrest

end Store

namespace ListOp

open Framework.Code DomainListManager DomainManager

variable {env : Env} {list domain : String} {e : ListOp × Ambient} {c : Connection}

/-- The operation on other lists keeps the name whitelisted unless it imports it. -/
theorem step_whitelistedBy (hc : c.Both (Db.WhitelistedBy list domain)) (hother : e.1.Other list)
    (havoids : Avoids env domain e) : (step env e c).2.Both (Db.WhitelistedBy list domain) := by
  have htrue : ∀ r ∈ e.2.replies, (fun _ : Option Response => True) r := fun _ _ => trivial
  obtain ⟨op, ambient⟩ := e
  have hone (st : Stmt) (hst : st.Spares list domain) :
      Store.Preserves (Connection.Both (Db.WhitelistedBy list domain)) [st] :=
    Store.preserves_whitelistedBy fun st' hst' => List.mem_singleton.mp hst' ▸ hst
  cases op with
  | block domains listId =>
    refine Connection.perform_of_keeps ((Store.keeps_blockDomains (hone _ trivial) fun id =>
      Store.preserves_whitelistedBy ?_).bind fun _ => Keeps.pure _) htrue hc
    intro st hst
    rcases List.mem_append.mp hst with hst | hst
    · obtain ⟨name, _, rfl⟩ := List.mem_map.mp hst
      trivial
    · obtain ⟨name, _, rfl⟩ := List.mem_map.mp hst
      trivial
  | importList lst custom =>
    exact Connection.perform_of_keeps
      ((Store.keeps_importList_whitelistedBy havoids).bind fun _ => Keeps.pure _) htrue hc
  | update config =>
    exact Connection.perform_of_keeps ((Store.keeps_run_whitelistedBy env config).bind fun _ => Keeps.pure _)
      havoids hc
  | create name url description custom =>
    exact Connection.perform_of_keeps ((Store.keeps_create (hone _ trivial)).bind fun _ => Keeps.pure _) htrue hc
  | setEnabled name enabled =>
    exact Connection.perform_of_keeps
      ((Store.keeps_committed (hone (.setActive enabled name) trivial)).bind fun _ => Keeps.pure _)
      htrue hc
  | remove name =>
    exact Connection.perform_of_keeps
      ((Store.keeps_committed (hone (.deleteDomainList name) hother)).bind fun _ => Keeps.pure _)
      htrue hc

/-- A whitelisted name stays whitelisted and unblocked over every run of operations on other
lists that do not import it. -/
theorem run_whitelistedBy (env : Env) (list domain : String) (es : List (ListOp × Ambient))
    (c : Connection) (hc : c.Both (Db.WhitelistedBy list domain))
    (hother : ∀ e ∈ es, e.1.Other list) (havoids : ∀ e ∈ es, Avoids env domain e) :
    (runEvents (step env) es c).2.Both (Db.WhitelistedBy list domain) ∧
      ∀ ambient rows s', ({ conn := (runEvents (step env) es c).2, ambient } : Store).exec
          DomainManager.getBlocked = some (.ok rows, s') → domain ∉ rows.map Domain.name := by
  have halong : Along (step env) (fun e _ => e.1.Other list ∧ Avoids env domain e) es c :=
    Along.of_forall (fun e he _ => ⟨hother e he, havoids e he⟩) c
  have hend : (runEvents (step env) es c).2.Both (Db.WhitelistedBy list domain) :=
    halong.invariant (fun e c hc he => step_whitelistedBy hc he.1 he.2) hc
  refine ⟨hend, ?_⟩
  intro ambient rows s' hrun hin
  obtain ⟨rows', s₁, hrun', hcol⟩ := Store.exec_collect
    { conn := (runEvents (step env) es c).2, ambient } .getBlockedDomains rfl
  rw [DomainManager.getBlocked, hrun'] at hrun
  cases hrun
  obtain ⟨d, hd, rfl⟩ := List.mem_map.mp hin
  exact hend.view.isWhitelisted.not_blocked (List.mem_map.mpr ⟨d, hcol.subset d hd, rfl⟩)

def whitelistedState : Connection :=
  ⟨Db.seeded.replaceDomain "ads.example" 2 (by decide), none⟩

/-- A run that blocks the name again and imports another. -/
theorem run_whitelistedBy_seeded :
    let es : List (ListOp × Ambient) :=
      [(.block ["ads.example"] 0, {}), (.importList { name := "ADS", domains := [{ name := "b" }] }
        false, {})]
    let c := whitelistedState
    c.Both (Db.WhitelistedBy "WHITELIST" "ads.example") ∧
      (runEvents (step (.ofTexts [])) es c).2.Both (Db.WhitelistedBy "WHITELIST" "ads.example") ∧
      ∀ ambient rows s', ({ conn := (runEvents (step (.ofTexts [])) es c).2, ambient } : Store).exec
          DomainManager.getBlocked = some (.ok rows, s') →
        "ads.example" ∉ rows.map Domain.name := by
  intro es c
  have hc : c.Both (Db.WhitelistedBy "WHITELIST" "ads.example") :=
    ⟨⟨⟨2, "WHITELIST", "", "Custom, default whitelist", true, true, true, 0⟩, by decide, rfl,
      by decide, rfl⟩, nofun⟩
  refine ⟨hc, run_whitelistedBy (.ofTexts []) "WHITELIST" "ads.example" es c hc ?_ ?_⟩
  · simp [es, Other]
  · simp [es, Avoids]

/-- An import that holds the name takes it from the whitelist, and it is blocked. -/
theorem run_import_whitelisted :
    let c := (runEvents (step (.ofTexts []))
      [(.importList { name := "ADS", domains := [{ name := "ads.example" }] } false, {})]
      whitelistedState).2
    whitelistedState.Both (Db.WhitelistedBy "WHITELIST" "ads.example") ∧
      ¬ c.view.IsWhitelisted "ads.example" ∧
      "ads.example" ∈ (Query.getBlockedDomains.rows c.view).map Domain.name := by
  refine ⟨⟨⟨⟨2, "WHITELIST", "", "Custom, default whitelist", true, true, true, 0⟩, by decide,
    rfl, by decide, rfl⟩, nofun⟩, ?_, ?_⟩
  · decide +kernel
  · decide +kernel

end ListOp

end DblService
