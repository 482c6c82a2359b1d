import DblService.Framework.Run
import DblService.Manager.Listings

/-!
# Staying blocked

A name has one owner: the list it was last imported or blocked into.  As long as that
list is enabled the name is blocked, whatever is done to other lists and other names.
-/

namespace DblService

open Framework Session

/-- The operations on lists and names, with their results. -/
inductive BlockOp
  | create (name url description : String) (custom : Bool)
  | importList (lst : DomainList) (custom : Bool)
  | block (domains : List String) (listId : Int)
  | unblock (domains : List String)
  | setEnabled (name : String) (enabled : Bool)
  | remove (name : String)

namespace BlockOp

def code (env : Env) : BlockOp → Code Bool
  | .create name url description custom => do
    let id ← DomainListManager.create name url description custom
    pure (id ≠ 0)
  | .importList lst custom => DomainListManager.importList lst custom
  | .block domains listId => DomainManager.blockDomains env domains listId
  | .unblock domains => DomainManager.unblockDomains env domains
  | .setEnabled name enabled => DomainListManager.setEnabled name enabled
  | .remove name => DomainListManager.remove name

/-- One operation on the connection, whatever its surroundings do. -/
def step (env : Env) (e : BlockOp × Ambient) (c : Connection) :
    Option (Except Exc Bool) × Connection :=
  c.perform e.2 (e.1.code env)

/-- The operation returned true and put the name into the list: it imported a list that holds
the name, or blocked a name that no whitelist owned. -/
def Puts (env : Env) (list domain : String) (e : BlockOp × Ambient) (c : Connection) : Prop :=
  (step env e c).1 = some (.ok true) ∧
    match e.1 with
    | .importList lst _ =>
      DomainListManager.effectiveName lst.name = list ∧ domain ∈ lst.domains.map Domain.name
    | .block domains listId =>
      domain ∈ DomainManager.filterValid env domains ∧ ¬ c.view.IsWhitelisted domain ∧
        (listId = 0 ∧ list = "CUSTOM" ∨ ∃ l, c.view.listNamed list = some l ∧ l.id = listId)
    | _ => False

/-- The operation neither removes the list nor takes the name from it: it is about other names,
or imports into this list. -/
def Spares (env : Env) (list domain : String) : BlockOp → Prop
  | .importList lst _ =>
    domain ∉ lst.domains.map Domain.name ∨ DomainListManager.effectiveName lst.name = list
  | .block domains _ | .unblock domains => domain ∉ DomainManager.filterValid env domains
  | .remove name => name ≠ list
  | .create _ _ _ _ | .setEnabled _ _ => True

/-- The list with this id, which is no whitelist. -/
def Target (list : String) (id : Int) (l : DomainListRow) : Prop :=
  l.name = list ∧ l.id = id ∧ l.isWhitelist = false

private theorem Target.fixed (list : String) (id : Int) : DomainListRow.Fixed (Target list id) := by
  intro l l' hid hname hflag hl
  exact ⟨hname.trans hl.1, hid.trans hl.2.1, hflag.trans hl.2.2⟩

end BlockOp

namespace Store

open Framework.Code DomainListManager DomainManager BlockOp

variable {list domain : String} {id : Int} {A : Option Response → Prop}

private theorem preserves_ownedBy {stmts : List Stmt}
    (h : ∀ st ∈ stmts, st.Leaves (Target list id) domain) :
    Preserves (Connection.Both (Db.OwnedBy (Target list id) domain)) stmts :=
  preserves_both fun st hst _ _ _ hdb hrun => (h st hst).ownedBy (Target.fixed list id) hdb hrun

private theorem create_yields {name url description : String} {custom : Bool}
    (hname : effectiveName name = list) :
    Yields handle (Holds (Connection.Both (Db.OwnedBy (Target list id) domain)) A)
      (create name url description custom) (fun found => found = 0 ∨ found = id) := by
  intro s hs
  obtain ⟨r, s₁, hcreated, hexec⟩ := exec_create s name url description custom hs.released
  have hkeeps : Keeps handle (Holds (Connection.Both (Db.OwnedBy (Target list id) domain)) A)
      (create name url description custom) := by
    apply keeps_create
    apply preserves_ownedBy
    intro st hst
    rw [List.mem_singleton.mp hst]
    trivial
  obtain ⟨r', s₁', hexec', hs₁⟩ := hkeeps s hs
  obtain ⟨rfl, rfl⟩ := Prod.mk.inj (Option.some.inj (hexec'.symm.trans hexec))
  refine ⟨_, _, hexec, hs₁, ?_⟩
  intro found hfound
  cases hcreated with
  | failed s₁ h =>
    cases hfound
    exact Or.inl rfl
  | crashed s₁ h hbusy => cases hfound
  | created s₁ l h hquiet hl =>
    cases hfound
    obtain ⟨hmem, hlname⟩ := Db.listNamed_eq_some.mp hl
    obtain ⟨k, hk, ⟨hkname, hkid, _⟩, _⟩ := hs₁.conn.1
    rw [Db.list_name_inj hmem hk (hlname.trans (hname.trans hkname.symm))]
    exact Or.inr hkid

private theorem keeps_importList_ownedBy {lst : DomainList} {custom : Bool}
    (h : domain ∉ lst.domains.map Domain.name ∨ effectiveName lst.name = list) :
    Keeps handle (Holds (Connection.Both (Db.OwnedBy (Target list id) domain)) A)
      (importList lst custom) := by
  have hstmts (found : Int) (hfound : domain ∉ lst.domains.map Domain.name ∨ found = 0 ∨ found = id) :
      Preserves (Connection.Both (Db.OwnedBy (Target list id) domain)) (importStmts lst found) := by
    apply preserves_ownedBy
    intro st hst
    rcases List.mem_append.mp hst with hst | hst
    · obtain ⟨name, hname, rfl⟩ := List.mem_map.mp hst
      rcases hfound with hnot | rfl | rfl
      · exact Or.inl fun heq => hnot (heq ▸ hname)
      · exact Or.inr (Or.inl rfl)
      · exact Or.inr (Or.inr fun l hl => hl.2.1)
    · rw [List.mem_singleton.mp hst]
      trivial
  rcases h with hnot | hname
  · apply keeps_importList
    · apply preserves_ownedBy
      intro st hst
      rw [List.mem_singleton.mp hst]
      trivial
    · exact fun found => hstmts found (Or.inl hnot)
  · refine keeps_catchRuntime ((create_yields hname).bind ?_) fun _ =>
      Keeps.pure _
    intro found hfound
    exact (keeps_transaction (hstmts found (Or.inr hfound))).bind fun _ => Keeps.pure _

end Store

namespace BlockOp

open Framework.Code DomainListManager DomainManager

variable {env : Env} {list domain : String} {id : Int} {e : BlockOp × Ambient} {c : Connection}

/-- An operation that spares the name leaves it with its list. -/
theorem step_ownedBy (hc : c.Both (Db.OwnedBy (Target list id) domain))
    (hspares : e.1.Spares env list domain) :
    (step env e c).2.Both (Db.OwnedBy (Target list id) domain) := by
  have htrue : ∀ r ∈ e.2.replies, (fun _ : Option Response => True) r := fun _ _ => trivial
  obtain ⟨op, ambient⟩ := e
  have hone (st : Stmt) (hst : st.Leaves (Target list id) domain) :
      Store.Preserves (Connection.Both (Db.OwnedBy (Target list id) domain)) [st] :=
    Store.preserves_ownedBy fun st' hst' => List.mem_singleton.mp hst' ▸ hst
  cases op with
  | create name url description custom =>
    exact Connection.perform_of_keeps
      ((Store.keeps_create (hone _ trivial)).bind fun _ => Keeps.pure _) htrue hc
  | importList lst custom =>
    exact Connection.perform_of_keeps (Store.keeps_importList_ownedBy hspares) htrue hc
  | block domains listId =>
    refine Connection.perform_of_keeps (Store.keeps_blockDomains (hone _ trivial) fun found =>
      Store.preserves_ownedBy ?_) htrue hc
    intro st hst
    rcases List.mem_append.mp hst with hst | hst
    · obtain ⟨name, hname, rfl⟩ := List.mem_map.mp hst
      exact Or.inl fun heq => hspares (heq ▸ hname)
    · obtain ⟨name, _, rfl⟩ := List.mem_map.mp hst
      trivial
  | unblock domains =>
    refine Connection.perform_of_keeps (Store.keeps_unblockDomains
      (Store.preserves_ownedBy ?_)) htrue hc
    intro st hst
    obtain ⟨name, hname, rfl⟩ := List.mem_map.mp hst
    exact fun heq => hspares (heq ▸ hname)
  | setEnabled name enabled =>
    exact Connection.perform_of_keeps (Store.keeps_committed (hone (.setActive enabled name) trivial))
      htrue hc
  | remove name =>
    refine Connection.perform_of_keeps
      (Store.keeps_committed (hone (.deleteDomainList name) ?_)) htrue hc
    exact fun l hl heq => hspares (heq.symm.trans hl.1)

def Belongs (list domain : String) (c : Connection) : Prop :=
  c.tx = none ∧ ∃ l, c.file.listNamed list = some l ∧ c.file.owner domain = some l.id

private theorem belongs_of_importStmts {lst : DomainList} {s s' : Store} {l : DomainListRow}
    (ht : Transacted (importStmts lst l.id) s true s')
    (hl : s.conn.file.listNamed (effectiveName lst.name) = some l)
    (hin : domain ∈ lst.domains.map Domain.name) :
    Belongs (effectiveName lst.name) domain s'.conn := by
  have hsame : ensured lst true s.conn.file = s.conn.file := Db.ensureList_of_taken _ hl
  obtain ⟨db', hall, himported⟩ :=
    runAll_importStmts lst true s.ambient.now s.conn.file (l := l) (by rw [hsame, hl])
  rw [hsame] at hall
  obtain ⟨hmem, hname⟩ := Db.listNamed_eq_some.mp hl
  cases ht with
  | committed db _ _ hrun =>
    obtain rfl : db' = db := Except.ok.inj (hall.symm.trans hrun)
    have hlists := himported.lists
    rw [hsame] at hlists
    refine ⟨rfl, { l with mtime := s.ambient.now }, Db.listNamed_eq_some.mpr ⟨?_, hname⟩, ?_⟩
    · change _ ∈ db'.domainLists
      rw [hlists]
      exact List.mem_map.mpr ⟨l, hmem, if_pos rfl⟩
    · exact (himported.owner domain).trans (if_pos hin)

private theorem belongs_of_blockStmts {names : List String} {s s' : Store} {l : DomainListRow}
    (ht : Transacted (blockStmts names l.id) s true s') (hl : s.conn.file.listNamed list = some l)
    (hin : domain ∈ names)
    (hfree : ¬ s.conn.file.IsWhitelisted domain) : Belongs list domain s'.conn := by
  obtain ⟨hmem, hname⟩ := Db.listNamed_eq_some.mp hl
  obtain ⟨db', hall, hsame, howner⟩ := Stmt.runAll_block s.ambient.now names ⟨l, hmem, rfl⟩
  cases ht with
  | committed db _ _ hrun =>
    obtain rfl : db' = db := Except.ok.inj (hall.symm.trans hrun)
    refine ⟨rfl, l, Db.listNamed_eq_some.mpr ⟨hsame.lists ▸ hmem, hname⟩, ?_⟩
    exact (howner domain).trans (if_pos ⟨hin, hfree⟩)

/-- Names that a block gives to a list need the list. -/
theorem list_of_blockStmts {names : List String} {listId : Int} {s s' : Store}
    (ht : Transacted (blockStmts names listId) s true s') (hin : domain ∈ names)
    (hfree : ¬ s.conn.file.IsWhitelisted domain) :
    ∃ l ∈ s.conn.file.domainLists, l.id = listId := by
  by_contra hnone
  cases ht with
  | committed db _ _ hrun =>
    obtain ⟨db₁, hdelete, hsame, howner⟩ :=
      Stmt.runAll_deleteUnlessWhitelisted s.ambient.now s.conn.file names
    have hgone : db₁.owner domain = none := (howner domain).trans (if_pos ⟨hin, hfree⟩)
    have herror := Stmt.runAll_insertOrIgnore_error s.ambient.now (hsame.lists ▸ hnone) hin hgone
    rw [blockStmts, Stmt.runAll_append, hdelete] at hrun
    cases herror.symm.trans hrun

private theorem belongs_of_importList {lst : DomainList} {custom : Bool} {s s' : Store}
    (hs : s.held = false) (hrun : s.exec (DomainListManager.importList lst custom) = some (.ok true, s'))
    (hin : domain ∈ lst.domains.map Domain.name) :
    Belongs (effectiveName lst.name) domain s'.conn := by
  obtain ⟨r, s₁, hcreated, hexec⟩ := s.exec_importList lst custom hs
  cases r with
  | none =>
    rw [hexec] at hrun
    cases hrun
  | some found =>
    obtain ⟨done, s₂, hexec, ht⟩ := hexec
    rw [hexec] at hrun
    cases hrun
    cases hcreated with
    | failed _ _ =>
      -- there is no list 0
      exfalso
      cases ht with
      | committed db _ _ hall =>
        have hnames : lst.domains.map Domain.name ≠ [] := List.ne_nil_of_mem hin
        rw [importStmts, Stmt.runAll_insertOrReplace_error _ hnames s₁.conn.file.no_list_zero]
          at hall
        cases hall
    | created s₁ l _ _ hl => exact belongs_of_importStmts ht hl hin

private theorem belongs_of_blockDomains_zero {env : Env} {domains : List String} {s s' : Store}
    (hs : s.held = false) (hrun : s.exec (blockDomains env domains 0) = some (.ok true, s'))
    (hin : domain ∈ filterValid env domains) (hfree : ¬ s.conn.view.IsWhitelisted domain) :
    Belongs "CUSTOM" domain s'.conn := by
  obtain ⟨r, s₁, hcreated, hexec⟩ :=
    s.exec_blockDomains_zero env domains (List.ne_nil_of_mem hin) hs
  cases r with
  | none =>
    rw [hexec] at hrun
    cases hrun
  | some found =>
    obtain ⟨done, s₂, hexec, ht⟩ := hexec
    rw [hexec] at hrun
    cases hrun
    cases hcreated with
    | failed _ hfailed =>
      exfalso
      have hidle := (ht.done_iff.mp rfl).1
      cases hfailed with
      | refused _ =>
        have hview : s.conn.view = s.conn.file := Connection.view_of_idle hidle
        rw [hview] at hfree
        have hzero := list_of_blockStmts ht hin hfree
        exact s.conn.file.no_list_zero hzero
      | abandoned => cases hidle
    | created s₀ l hdone _ hl =>
      cases hdone with
      | committed db hidle _ hdb =>
        cases hdb
        apply belongs_of_blockStmts ht hl hin
        intro hwhite
        apply hfree
        rw [Connection.view_of_idle hidle]
        exact s.conn.file.ensureList_isWhitelisted hwhite

private theorem belongs_of_blockDomains {env : Env} {domains : List String} {s s' : Store}
    {l : DomainListRow} (hs : s.held = false) (hl : s.conn.view.listNamed list = some l)
    (hrun : s.exec (blockDomains env domains l.id) = some (.ok true, s'))
    (hin : domain ∈ filterValid env domains) (hfree : ¬ s.conn.view.IsWhitelisted domain) :
    Belongs list domain s'.conn := by
  have hid : l.id ≠ 0 := fun h0 =>
    s.conn.view.no_list_zero ⟨l, (Db.listNamed_eq_some.mp hl).1, h0⟩
  obtain ⟨done, s₁, hexec, ht⟩ :=
    s.exec_blockDomains env domains hid (List.ne_nil_of_mem hin) hs
  rw [hexec] at hrun
  cases hrun
  have hview : s.conn.view = s.conn.file := Connection.view_of_idle (ht.done_iff.mp rfl).1
  rw [hview] at hl hfree
  exact belongs_of_blockStmts ht hl hin hfree

private theorem Puts.belongs (h : Puts env list domain e c) :
    Belongs list domain (step env e c).2 := by
  obtain ⟨hok, hop⟩ := h
  obtain ⟨op, ambient⟩ := e
  obtain ⟨s', hrun, hconn⟩ := Connection.exec_of_perform hok
  rw [step, hconn]
  cases op with
  | create | unblock | setEnabled | remove => exact hop.elim
  | importList lst custom =>
    obtain ⟨rfl, hin⟩ := hop
    exact belongs_of_importList rfl hrun hin
  | block domains listId =>
    obtain ⟨hin, hfree, hlist⟩ := hop
    rcases hlist with ⟨rfl, rfl⟩ | ⟨l, hl, rfl⟩
    · exact belongs_of_blockDomains_zero rfl hrun hin hfree
    · exact belongs_of_blockDomains rfl hl hrun hin hfree

/-- A name that was put into a list that is no whitelist is blocked in every later state in
which that list is enabled, as long as no operation takes the name or removes the list. -/
theorem run_blocked (env : Env) (list domain : String) (e : BlockOp × Ambient) (c : Connection)
    (hput : Puts env list domain e c)
    (hkind : ∀ l, (step env e c).2.view.listNamed list = some l → l.isWhitelist = false)
    (es : List (BlockOp × Ambient)) (hes : ∀ e' ∈ es, e'.1.Spares env list domain) :
    let c' := (runEvents (step env) es (step env e c).2).2
    ∀ l, c'.view.listNamed list = some l → l.active = true →
      ∃ rows, c'.Lists DomainManager.getBlocked rows ∧ domain ∈ rows.map Domain.name := by
  intro c' l hl hactive
  obtain ⟨hidle, k, hk, howner⟩ := hput.belongs
  have hview : (step env e c).2.view = (step env e c).2.file := Connection.view_of_idle hidle
  obtain ⟨hmem, hname⟩ := Db.listNamed_eq_some.mp hk
  have hstart : (step env e c).2.Both (Db.OwnedBy (Target list k.id) domain) := by
    refine ⟨⟨k, hmem, ⟨hname, rfl, hkind k (by rw [hview, hk])⟩, howner⟩, ?_⟩
    intro db hdb
    rw [hidle] at hdb
    cases hdb
  have halong : Along (step env) (fun e' _ => e'.1.Spares env list domain) es (step env e c).2 :=
    Along.of_forall (fun e' he' _ => hes e' he') _
  have hend : c'.Both (Db.OwnedBy (Target list k.id) domain) :=
    halong.invariant (fun e' c hc he' => step_ownedBy hc he') hstart
  obtain ⟨m, hm, ⟨hmname, _, hflag⟩, hmowner⟩ := hend.view
  obtain ⟨hlmem, hlname⟩ := Db.listNamed_eq_some.mp hl
  have hlm : l = m := Db.list_name_inj hlmem hm (hlname.trans hmname.symm)
  subst hlm
  exact ⟨_, Store.exec_collect_free c' .getBlockedDomains,
    Db.mem_getBlocked_names.mpr ⟨l, hlmem, ⟨hactive, hflag⟩, hmowner⟩⟩

/-- A name imported into one list stays blocked while another list is imported and removed. -/
theorem run_blocked_seeded :
    let env := Env.ofTexts []
    let lst : DomainList := { name := "A", domains := [{ name := "ads.example" }] }
    let es : List (BlockOp × Ambient) := [(.importList { name := "B", domains := [{ name := "b" }] }
      false, {}), (.remove "B", {}), (.importList lst false, { faults := [false, true] })]
    let c' := (runEvents (step env) es
      (step env (.importList lst false, {}) ⟨Db.seeded, none⟩).2).2
    ∀ l, c'.view.listNamed "A" = some l → l.active = true →
      ∃ rows, c'.Lists DomainManager.getBlocked rows ∧ "ads.example" ∈ rows.map Domain.name := by
  intro env lst es
  apply run_blocked env "A" "ads.example"
  · exact ⟨by decide +kernel, by decide, by decide⟩
  · intro l hl
    have hrow : (step env (.importList lst false, {}) ⟨Db.seeded, none⟩).2.view.listNamed "A" =
        some ⟨3, "A", "", "", true, false, false, 0⟩ := by decide +kernel
    rw [hrow] at hl
    cases hl
    rfl
  · intro e he
    simp only [es, List.mem_cons, List.not_mem_nil, or_false] at he
    rcases he with rfl | rfl | rfl
    · exact Or.inl (by decide)
    · exact show "B" ≠ "A" by decide
    · exact Or.inr rfl

/-- The same name imported into a second list that is then removed is not blocked any more. -/
theorem run_blocked_overlap :
    let env := Env.ofTexts []
    let es : List (BlockOp × Ambient) :=
      [(.importList { name := "A", domains := [{ name := "ads.example" }] } false, {}),
        (.importList { name := "B", domains := [{ name := "ads.example" }] } false, {}),
        (.remove "B", {})]
    let c := (runEvents (step env) es ⟨Db.seeded, none⟩).2
    (runEvents (step env) es ⟨Db.seeded, none⟩).1 = List.replicate 3 (some (.ok true)) ∧
      c.view.listNamed "A" = some ⟨3, "A", "", "", true, false, false, 0⟩ ∧
      c.Lists DomainManager.getBlocked [] := by
  intro env es c
  refine ⟨?_, ?_, ?_⟩
  · decide +kernel
  · decide +kernel
  · unfold Connection.Lists
    decide +kernel

end BlockOp

end DblService
