import DblService.Manager.Tables
import DblService.Mgmt
import DblService.Whitelist

/-!
# Blocking and unblocking in one command

`manage_domains` unblocks first and blocks afterwards, and warns that a name given to both will
be blocked.  The second step does not take a name from a whitelist, so the warning comes true
for the names that no whitelist owns by then.
-/

namespace DblService

open Framework Session DomainManager

namespace Db

/-- A list that is switched on and is no whitelist owns the name. -/
def IsBlocked (db : Db) (name : String) : Prop :=
  ∃ l ∈ db.domainLists, (l.active = true ∧ l.isWhitelist = false) ∧ db.owner name = some l.id

private theorem exists_owner_iff {db : Db} {name : String} {l : DomainListRow}
    {P : DomainListRow → Prop} (hl : l ∈ db.domainLists) (howner : db.owner name = some l.id) :
    (∃ k ∈ db.domainLists, P k ∧ db.owner name = some k.id) ↔ P l := by
  constructor
  · rintro ⟨k, hk, hkind, hko⟩
    have hid : l.id = k.id := Option.some.inj (howner.symm.trans hko)
    exact Db.list_id_inj hl hk hid ▸ hkind
  · intro hkind
    exact ⟨l, hl, hkind, howner⟩

private theorem isBlocked_iff_of_owner {db : Db} {name : String} {l : DomainListRow}
    (hl : l ∈ db.domainLists) (howner : db.owner name = some l.id) :
    db.IsBlocked name ↔ l.active = true ∧ l.isWhitelist = false :=
  exists_owner_iff hl howner

private theorem isWhitelisted_iff_of_owner {db : Db} {name : String} {l : DomainListRow}
    (hl : l ∈ db.domainLists) (howner : db.owner name = some l.id) :
    db.IsWhitelisted name ↔ l.isWhitelist = true := by
  have hiff : _ ↔ l.isWhitelist = true :=
    exists_owner_iff (P := fun k => k.isWhitelist = true) hl howner
  simpa only [IsWhitelisted, and_comm] using hiff

end Db

/-! ## The two steps -/

/-- What `unblock_domains` does to the owners. -/
structure OwnersUnblocked (names : List String) (db db' : Db) : Prop where
  same : Db.SameButDomains db db'
  whitelist : ∀ m ∈ names, ∃ l, db.listNamed "WHITELIST" = some l ∧ db'.owner m = some l.id
  others : ∀ m, m ∉ names → db'.owner m = db.owner m

theorem exec_unblockDomains_raised (env : Env) {s : Store} (hs : s.held = false)
    (domains : List String) :
    ∃ done s', s.exec (unblockDomains env domains) = some (.ok done, s') ∧ s'.held = false ∧
      s.ambient.raised ≤ s'.ambient.raised ∧
      (s'.ambient.raised = s.ambient.raised →
        OwnersUnblocked (filterValid env domains) s.conn.view s'.conn.view) := by
  by_cases hvalid : filterValid env domains = []
  · refine ⟨false, s, Store.exec_unblockDomains_nil s env hvalid, hs, Nat.le_refl _, ?_⟩
    intro _
    exact ⟨.refl _, by simp [hvalid], fun m _ => rfl⟩
  · obtain ⟨done, s', hexec, ht⟩ := Store.exec_unblockDomains s env domains hvalid hs
    have hdone := ht.raised_eq
    refine ⟨done, s', hexec, ht.held_eq.trans hs, by omega, ?_⟩
    intro hraised
    cases done with
    | false =>
      simp only [Bool.false_eq_true, if_false] at hdone
      omega
    | true =>
      obtain ⟨_, l, hl, hsame, howner⟩ := unblockDomains_committed hs hexec
      refine ⟨hsame, ?_, ?_⟩
      · intro m hm
        exact ⟨l, hl, by rw [howner, if_pos hm]⟩
      · intro m hm
        rw [howner, if_neg hm]

/-- What `block_domains` does with the default list, when nothing raises. -/
inductive Blocks (names : List String) (db db' : Db) : Prop
  | nothing (h : names = []) (hsame : db' = db)
  | owners (h : names ≠ []) (l : DomainListRow) (howners : OwnersBlocked names db db' l)

theorem exec_blockDomains_blocks (env : Env) {s : Store} (hs : s.held = false)
    (domains : List String) :
    ∃ r s', s.exec (blockDomains env domains 0) = some (r, s') ∧
      s.ambient.raised ≤ s'.ambient.raised ∧
      (s'.ambient.raised = s.ambient.raised →
        (∃ done, r = .ok done) ∧ Blocks (filterValid env domains) s.conn.view s'.conn.view) := by
  by_cases hvalid : filterValid env domains = []
  · refine ⟨_, s, Store.exec_blockDomains_nil s env 0 hvalid, Nat.le_refl _, ?_⟩
    intro _
    exact ⟨⟨false, rfl⟩, .nothing hvalid rfl⟩
  · obtain ⟨r, s', hexec, hle, hquiet⟩ := exec_blockDomains_raised env hs domains hvalid
    refine ⟨r, s', hexec, hle, ?_⟩
    intro hraised
    obtain ⟨rfl, hidle, hidle', l, howners⟩ := hquiet hraised
    rw [Connection.view, Connection.view, hidle, hidle']
    exact ⟨⟨true, rfl⟩, .owners hvalid l howners⟩

/-! ## The tables after both -/

section
variable {U B : List String} {db db₁ db₂ : Db}

def Db.CustomActive (db : Db) : Prop := ∀ l, db.listNamed "CUSTOM" = some l → l.active = true

def Db.CustomBlocks (db : Db) : Prop := ∀ l, db.listNamed "CUSTOM" = some l → l.isWhitelist = false

private theorem DomainManager.OwnersBlocked.isBlocked_iff {l : DomainListRow}
    (h : OwnersBlocked B db db₂ l) (hactive : db.CustomActive) {m : String} (hm : m ∈ B) :
    db₂.IsBlocked m ↔ db.CustomBlocks ∧ ¬ db.IsWhitelisted m := by
  have hmem : l ∈ db₂.domainLists := h.same.lists ▸ (Db.listNamed_eq_some.mp h.custom).1
  have hcustom := h.custom
  rw [withCustom, Db.ensureList_listNamed, if_pos rfl] at hcustom
  have hkind : l.active = true ∧ (l.isWhitelist = false ↔ db.CustomBlocks) := by
    unfold Db.CustomBlocks
    cases hk : db.listNamed "CUSTOM" with
    | none =>
      rw [hk, Option.none_or, Option.some.injEq] at hcustom
      rw [← hcustom]
      exact ⟨rfl, iff_of_true rfl (by simp)⟩
    | some k =>
      rw [hk, Option.some_or, Option.some.injEq] at hcustom
      subst hcustom
      exact ⟨hactive k hk, by simp⟩
  by_cases hw : db.IsWhitelisted m
  · obtain ⟨k, hk, howner, hflag⟩ := id hw
    have hk₂ : k ∈ db₂.domainLists := h.same.lists ▸ db.ensureList_mem hk
    have howner₂ : db₂.owner m = some k.id := by rw [h.owner, if_neg (by simp [hw]), howner]
    simp [Db.isBlocked_iff_of_owner hk₂ howner₂, hflag, hw]
  · have howner₂ : db₂.owner m = some l.id := by rw [h.owner, if_pos ⟨hm, hw⟩]
    simp [Db.isBlocked_iff_of_owner hmem howner₂, hkind, hw]

private theorem Blocks.isBlocked_iff (h : Blocks B db db₂) {m : String} (hm : m ∉ B) :
    db₂.IsBlocked m ↔ db.IsBlocked m := by
  cases h with
  | nothing _ hsame => rw [hsame]
  | owners _ l h =>
    have howner : db₂.owner m = db.owner m := by rw [h.owner, if_neg (by simp [hm])]
    constructor
    · rintro ⟨k, hk, hkind, hko⟩
      obtain ⟨j, hj, hid⟩ := Db.owner_exists (howner.symm.trans hko)
      have hj₂ : j ∈ db₂.domainLists := h.same.lists ▸ db.ensureList_mem hj
      have hjk : j = k := Db.list_id_inj hj₂ hk hid
      exact ⟨j, hj, hjk ▸ hkind, by rw [← howner, hko, hid]⟩
    · rintro ⟨k, hk, hkind, hko⟩
      exact ⟨k, h.same.lists ▸ db.ensureList_mem hk, hkind, by rw [howner, hko]⟩

namespace OwnersUnblocked

theorem listNamed (h : OwnersUnblocked U db db₁) (n : String) :
    db₁.listNamed n = db.listNamed n := by
  rw [Db.listNamed, Db.listNamed, h.same.lists]

private theorem customActive (h : OwnersUnblocked U db db₁) (hactive : db.CustomActive) :
    db₁.CustomActive := by
  intro l hl
  exact hactive l (h.listNamed _ ▸ hl)

private theorem customBlocks_iff (h : OwnersUnblocked U db db₁) :
    db₁.CustomBlocks ↔ db.CustomBlocks := by
  unfold Db.CustomBlocks
  rw [h.listNamed]

private theorem of_mem (h : OwnersUnblocked U db db₁) {m : String} (hm : m ∈ U) :
    ∃ l, db.listNamed "WHITELIST" = some l ∧
      (db₁.IsWhitelisted m ↔ l.isWhitelist = true) ∧
      (db₁.IsBlocked m ↔ l.active = true ∧ l.isWhitelist = false) := by
  obtain ⟨l, hl, howner⟩ := h.whitelist m hm
  have hmem : l ∈ db₁.domainLists := h.same.lists ▸ (Db.listNamed_eq_some.mp hl).1
  exact ⟨l, hl, Db.isWhitelisted_iff_of_owner hmem howner, Db.isBlocked_iff_of_owner hmem howner⟩

private theorem not_isWhitelisted_iff (h : OwnersUnblocked U db db₁) {m : String} (hm : m ∈ U) :
    ¬ db₁.IsWhitelisted m ↔
      ∀ l, db.listNamed "WHITELIST" = some l → l.isWhitelist = false := by
  obtain ⟨l, hl, hflag, _⟩ := h.of_mem hm
  simp [hl, hflag]

private theorem not_isBlocked_iff (h : OwnersUnblocked U db db₁) {m : String} (hm : m ∈ U) :
    ¬ db₁.IsBlocked m ↔
      ∀ l, db.listNamed "WHITELIST" = some l → l.active = false ∨ l.isWhitelist = true := by
  obtain ⟨l, hl, _, hkind⟩ := h.of_mem hm
  cases hactive : l.active <;> simp [hl, hkind, hactive]

end OwnersUnblocked

private theorem Blocks.isBlocked_iff_of_mem (hb : Blocks B db₁ db₂) (hu : OwnersUnblocked U db db₁)
    (hactive : db.CustomActive) {m : String} (hm : m ∈ B) :
    db₂.IsBlocked m ↔ db.CustomBlocks ∧ ¬ db₁.IsWhitelisted m := by
  cases hb with
  | nothing h _ =>
    rw [h] at hm
    cases hm
  | owners _ l h => rw [h.isBlocked_iff (hu.customActive hactive) hm, hu.customBlocks_iff]

end

private theorem lists_getBlocked_iff (c : Connection) (names : List String) :
    (∃ rows, c.Lists getBlocked rows ∧ ∀ m ∈ names, m ∈ rows.map Domain.name) ↔
      ∀ m ∈ names, c.view.IsBlocked m := by
  have hlists : c.Lists getBlocked (Query.getBlockedDomains.rows c.view) :=
    Store.exec_collect_free c _
  constructor
  · intro ⟨rows, hrows, hall⟩ m hm
    have hrows : rows = Query.getBlockedDomains.rows c.view :=
      Except.ok.inj (Prod.mk.inj (Option.some.inj (hrows.symm.trans hlists))).1
    exact Db.mem_getBlocked_names.mp (hrows ▸ hall m hm)
  · intro hall
    exact ⟨_, hlists, fun m hm => Db.mem_getBlocked_names.mpr (hall m hm)⟩

/-! ## What the warning says -/

namespace Mgmt

/-- Every valid name given to block is blocked, and no other valid name given to unblock is. -/
structure BlockingWins (env : Env) (options : MgmtOptions) (c : Connection) : Prop where
  blocked : ∃ rows, c.Lists getBlocked rows ∧
    ∀ m ∈ filterValid env options.block, m ∈ rows.map Domain.name
  unblocked : ∀ m ∈ filterValid env options.unblock, m ∉ options.block → ¬ c.view.IsBlocked m

/-- Nothing that is to be blocked is on a whitelist once the names to unblock have gone to the
list `WHITELIST`, and that list does not block what is only unblocked. -/
structure Unopposed (env : Env) (options : MgmtOptions) (db : Db) : Prop where
  custom : filterValid env options.block ≠ [] → db.CustomBlocks
  before : ∀ m ∈ filterValid env options.block, m ∉ options.unblock → ¬ db.IsWhitelisted m
  both : ∀ m ∈ filterValid env options.block, m ∈ options.unblock →
    ∀ l, db.listNamed "WHITELIST" = some l → l.isWhitelist = false
  unblock : ∀ m ∈ filterValid env options.unblock, m ∉ options.block →
    ∀ l, db.listNamed "WHITELIST" = some l → l.active = false ∨ l.isWhitelist = true

private theorem blockingWins_iff {env : Env} {options : MgmtOptions} {db db₁ : Db} {c : Connection}
    (hactive : db.CustomActive) (hu : OwnersUnblocked (filterValid env options.unblock) db db₁)
    (hb : Blocks (filterValid env options.block) db₁ c.view) :
    BlockingWins env options c ↔ Unopposed env options db := by
  have hvalid {names : List String} {m : String} :
      m ∈ filterValid env names ↔ m ∈ names ∧ env.isValid m = true := List.mem_filter
  have hgiven {names : List String} {m : String} (h : m ∉ names) : m ∉ filterValid env names :=
    fun hm => h (hvalid.mp hm).1
  have hboth {m : String} (hm : m ∈ filterValid env options.block) (hin : m ∈ options.unblock) :
      m ∈ filterValid env options.unblock := hvalid.mpr ⟨hin, (hvalid.mp hm).2⟩
  have hblocked {m : String} (hm : m ∈ filterValid env options.block) :
      c.view.IsBlocked m ↔ db.CustomBlocks ∧ ¬ db₁.IsWhitelisted m :=
    hb.isBlocked_iff_of_mem hu hactive hm
  have hbefore {m : String} (hm : m ∉ options.unblock) :
      db₁.IsWhitelisted m ↔ db.IsWhitelisted m :=
    hu.same.isWhitelisted_iff (hu.others m (hgiven hm))
  constructor
  · intro h
    have hwins := (lists_getBlocked_iff c _).mp h.blocked
    constructor
    · intro hne
      obtain ⟨m, hm⟩ := List.exists_mem_of_ne_nil _ hne
      exact ((hblocked hm).mp (hwins m hm)).1
    · intro m hm hnot
      exact (hbefore hnot).not.mp ((hblocked hm).mp (hwins m hm)).2
    · intro m hm hin
      exact (hu.not_isWhitelisted_iff (hboth hm hin)).mp ((hblocked hm).mp (hwins m hm)).2
    · intro m hm hnot
      apply (hu.not_isBlocked_iff hm).mp
      exact (hb.isBlocked_iff (hgiven hnot)).not.mp (h.unblocked m hm hnot)
  · intro h
    constructor
    · apply (lists_getBlocked_iff c _).mpr
      intro m hm
      apply (hblocked hm).mpr
      refine ⟨h.custom (List.ne_nil_of_mem hm), ?_⟩
      by_cases hin : m ∈ options.unblock
      · exact (hu.not_isWhitelisted_iff (hboth hm hin)).mpr (h.both m hm hin)
      · exact (hbefore hin).not.mpr (h.before m hm hin)
    · intro m hm hnot
      apply (hb.isBlocked_iff (hgiven hnot)).not.mpr
      exact (hu.not_isBlocked_iff hm).mpr (h.unblock m hm hnot)

/-- The warnings for the names given to both. -/
def warnings (options : MgmtOptions) : List String :=
  (options.block.filter fun domain => decide (domain ∈ options.unblock)).map fun domain =>
    "WARNING: " ++ ("Conflicting domain (will be blocked): " ++ domain)

private theorem conflicts_warnings {options : MgmtOptions} (hfatal : options.isFatal = false) :
    conflicts options = .ok (warnings options) := by
  unfold conflicts warnings
  generalize options.block.filter _ = both
  induction both with
  | nil => rfl
  | cons domain both ih =>
    rw [List.mapM_cons, ih]
    simp only [hfatal]
    rfl

private theorem manageDomains_eq (env : Env) {options : MgmtOptions}
    (hfatal : options.isFatal = false) :
    manageDomains env options = (do
      let _ ← unblockDomains env options.unblock
      let _ ← blockDomains env options.block 0
      pure { done := true, err := warnings options }) := by
  have hskip {α : Type} (p : Code α) : (do let _ ← unblockDomains env []; p) = p := rfl
  have hblock : (do
      let err ← conflicts options
      let _ ← blockDomains env options.block 0
      pure ({ done := true, err } : Managed) : Code Managed) = (do
      let _ ← blockDomains env options.block 0
      pure { done := true, err := warnings options }) := by
    rw [conflicts_warnings hfatal]
    rfl
  have hnone (h : options.block = []) : (do
      let _ ← blockDomains env options.block 0
      pure ({ done := true, err := warnings options } : Managed) : Code Managed) =
        pure { done := true } := by
    simp only [warnings, h]
    rfl
  by_cases hu : options.unblock = []
  · by_cases hb : options.block = []
    · rw [hnone hb, hu, hskip]
      simp only [manageDomains, hu, hb, ne_eq, not_true_eq_false, if_false]
    · rw [hu, hskip, ← hblock]
      simp only [manageDomains, hu, hb, ne_eq, not_true_eq_false, not_false_eq_true, if_false,
        if_true]
  · by_cases hb : options.block = []
    · rw [hnone hb]
      simp only [manageDomains, hu, hb, ne_eq, not_true_eq_false, not_false_eq_true, if_false,
        if_true]
    · rw [← hblock]
      simp only [manageDomains, hu, hb, ne_eq, not_false_eq_true, if_true]

/-- When no statement raises, the command is as good as its warning exactly when no whitelist
stands against it. -/
theorem manageDomains_blockingWins_iff (env : Env) (s : Store) (hs : s.held = false)
    (options : MgmtOptions) (hfatal : options.isFatal = false) :
    ∃ r s', s.exec (manageDomains env options) = some (r, s') ∧
      (s'.ambient.raised = s.ambient.raised → s.conn.view.CustomActive →
        r = .ok { done := true, err := warnings options } ∧
          (BlockingWins env options s'.conn ↔ Unopposed env options s.conn.view)) := by
  obtain ⟨done, s₁, hunblock, hs₁, hle₁, hu⟩ :=
    exec_unblockDomains_raised env hs options.unblock
  obtain ⟨r, s₂, hblock, hle₂, hb⟩ := exec_blockDomains_blocks env hs₁ options.block
  rw [manageDomains_eq env hfatal]
  refine ⟨r.map fun _ => { done := true, err := warnings options }, s₂, ?_, ?_⟩
  · rw [Store.exec_bind, hunblock]
    change s₁.exec (blockDomains env options.block 0 >>= _) = _
    rw [Store.exec_bind, hblock]
    cases r <;> rfl
  · intro hraised hactive
    obtain ⟨⟨done', rfl⟩, hblocks⟩ := hb (by omega)
    exact ⟨rfl, blockingWins_iff hactive (hu (by omega)) hblocks⟩

private theorem seeded_custom : Db.seeded.CustomActive ∧ Db.seeded.CustomBlocks := by
  have hcustom : Db.seeded.listNamed "CUSTOM" =
      some ⟨1, "CUSTOM", "", "Custom, uncategorized list", true, true, false, 0⟩ := by
    decide +kernel
  constructor
  · intro l hl
    rw [hcustom, Option.some.injEq] at hl
    rw [← hl]
  · intro l hl
    rw [hcustom, Option.some.injEq] at hl
    rw [← hl]

/-- Two different names. -/
theorem manageDomains_blockingWins_seeded :
    ∃ s', (Store.free ⟨Db.seeded, none⟩).exec
        (manageDomains (.ofTexts []) { block := ["ads.example"], unblock := ["kept.example"] }) =
        some (.ok { done := true }, s') ∧
      BlockingWins (.ofTexts []) { block := ["ads.example"], unblock := ["kept.example"] }
        s'.conn := by
  let options : MgmtOptions := { block := ["ads.example"], unblock := ["kept.example"] }
  obtain ⟨r, s', hexec, hpost⟩ := manageDomains_blockingWins_iff (.ofTexts [])
    (Store.free ⟨Db.seeded, none⟩) rfl options rfl
  have hraised : ((Store.free ⟨Db.seeded, none⟩).exec (manageDomains (.ofTexts []) options)).map
      (fun x => x.2.ambient.raised) = some 0 := by decide +kernel
  rw [hexec, Option.map_some, Option.some.injEq] at hraised
  have hwhitelist : Db.seeded.listNamed "WHITELIST" =
      some ⟨2, "WHITELIST", "", "Custom, default whitelist", true, true, true, 0⟩ := by
    decide +kernel
  obtain ⟨rfl, hiff⟩ := hpost hraised seeded_custom.1
  refine ⟨s', hexec, hiff.mpr ⟨?_, ?_, ?_, ?_⟩⟩
  · intro _
    exact seeded_custom.2
  · intro m _ _
    have hnone : ¬ Db.seeded.IsWhitelisted m := by
      rintro ⟨l, _, howner, _⟩
      cases howner
    exact hnone
  · intro m hm hin
    obtain rfl : m = "kept.example" := List.mem_singleton.mp hin
    exact absurd hm (by decide)
  · intro m _ _ l hl
    have hl := hwhitelist.symm.trans hl
    rw [← Option.some.inj hl]
    exact Or.inr rfl

/-- The name is warned to be blocked, and is on the whitelist instead. -/
theorem manageDomains_conflict :
    let options : MgmtOptions := { block := ["ads.example"], unblock := ["ads.example"] }
    ∃ s', (Store.free ⟨Db.seeded, none⟩).exec (manageDomains (.ofTexts []) options) =
        some (.ok { done := true,
                    err := ["WARNING: Conflicting domain (will be blocked): ads.example"] }, s') ∧
      s'.ambient.raised = 0 ∧ Db.seeded.CustomActive ∧
      s'.conn.Lists getBlocked [] ∧ s'.conn.view.IsWhitelisted "ads.example" ∧
      ¬ BlockingWins (.ofTexts []) options s'.conn := by
  intro options
  let db' : Db := Db.seeded.replaceDomain "ads.example" 2 Db.seeded_whitelist_id
  have hlists : (⟨db', none⟩ : Connection).Lists getBlocked [] := by
    unfold Connection.Lists
    decide +kernel
  refine ⟨Store.free ⟨db', none⟩, by decide +kernel, rfl, seeded_custom.1, hlists,
    by decide +kernel, ?_⟩
  rintro ⟨⟨rows, hrows, hall⟩, _⟩
  have hnil : rows = [] := Except.ok.inj (Prod.mk.inj (Option.some.inj (hrows.symm.trans hlists))).1
  have hin := hall "ads.example" (by decide)
  rw [hnil] at hin
  cases hin

end Mgmt

end DblService
