import DblService.Manager.DomainManager
import Mathlib.Data.String.Basic

/-!
# The DNS back ends

`Unbound` and `DNSMasq` write one override record for each name and each enabled
protocol: for the names added to the proxy itself, then for the names that the
domain manager returns.  The text of a record is the only difference.
-/

namespace DblService

open Framework

inductive Protocol
  | ipv4
  | ipv6
  deriving DecidableEq, Repr

/-- One call of `save_domain`. -/
structure Override where
  protocol : Protocol
  domain : String
  address : String
  deriving DecidableEq, Repr

def Config.overrides (config : Config) (domain : String) : List Override :=
  (if config.networkNoIp4 then [] else [⟨.ipv4, domain, config.networkIp4Address⟩]) ++
    (if config.networkNoIp6 then [] else [⟨.ipv6, domain, config.networkIp6Address⟩])

/-- The state of a back end; `domains_` is a `std::set`, iterated in order. -/
structure DnsProxy where
  config : Config
  domains : List String
  sorted : domains.Pairwise (· < ·)

namespace DnsProxy

def create (config : Config) : DnsProxy := ⟨config, [], .nil⟩

theorem nodup (proxy : DnsProxy) : proxy.domains.Nodup :=
  proxy.sorted.imp fun h => ne_of_lt h

def addDomain (proxy : DnsProxy) (name : String) : DnsProxy :=
  { proxy with
    domains := if name ∈ proxy.domains then proxy.domains
      else proxy.domains.orderedInsert (· ≤ ·) name
    sorted := by
      split_ifs with h
      · exact proxy.sorted
      · have hle : (proxy.domains.orderedInsert (· ≤ ·) name).Pairwise (· ≤ ·) :=
          (proxy.sorted.imp le_of_lt).orderedInsert name _
        have hne : (proxy.domains.orderedInsert (· ≤ ·) name).Pairwise (· ≠ ·) :=
          (List.perm_orderedInsert _ _ _).nodup_iff.mpr (List.nodup_cons.mpr ⟨h, proxy.nodup⟩)
        exact hle.imp₂ (fun _ _ h₁ h₂ => lt_of_le_of_ne h₁ h₂) hne }

def removeDomain (proxy : DnsProxy) (name : String) : DnsProxy :=
  { proxy with
    domains := proxy.domains.filter fun d => d ≠ name
    sorted := proxy.sorted.filter _ }

def countDomains (proxy : DnsProxy) : Nat := proxy.domains.length

/-- The records both generators write, in the order of the file. -/
def overrides (proxy : DnsProxy) : Code (List Override) := do
  let domains ← DomainManager.get 0
  pure (proxy.domains.flatMap proxy.config.overrides ++
    domains.flatMap fun domain => proxy.config.overrides domain.name)

end DnsProxy

namespace Unbound

def saveDomain (r : Override) : String :=
  "    local-data: \"" ++ r.domain ++ " IN " ++ (if r.protocol = .ipv4 then "A" else "AAAA") ++
    " " ++ r.address ++ "\"\n"

def generateDomainsConfig (proxy : DnsProxy) : Code (List String) :=
  (List.map saveDomain) <$> proxy.overrides

end Unbound

namespace DNSMasq

def saveDomain (r : Override) : String := "address=/." ++ r.domain ++ "/" ++ r.address ++ "\n"

def generateDomainsConfig (proxy : DnsProxy) : Code (List String) :=
  (List.map saveDomain) <$> proxy.overrides

end DNSMasq

/-! ## The names that get a record -/

private theorem Config.overrides_domain {config : Config} {domain : String} {r : Override}
    (h : r ∈ config.overrides domain) : r.domain = domain := by
  simp only [Config.overrides, List.mem_append] at h
  rcases h with h | h
  · split_ifs at h
    · cases h
    · rw [List.mem_singleton.mp h]
  · split_ifs at h
    · cases h
    · rw [List.mem_singleton.mp h]

theorem Config.overrides_eq_nil {config : Config} {domain : String} :
    config.overrides domain = [] ↔ config.networkNoIp4 = true ∧ config.networkNoIp6 = true := by
  cases h4 : config.networkNoIp4 <;> cases h6 : config.networkNoIp6 <;> simp [overrides, h4, h6]

private theorem Config.filter_overrides (config : Config) {names : List String}
    (hnames : names.Nodup) (name : String) :
    (names.flatMap config.overrides).filter (fun r => r.domain = name) =
      if name ∈ names then config.overrides name else [] := by
  induction names with
  | nil => rfl
  | cons n ns ih =>
    obtain ⟨hn, hns⟩ := List.nodup_cons.mp hnames
    have hown : (config.overrides n).filter (fun r => r.domain = name) =
        if n = name then config.overrides n else [] := by
      split_ifs with h
      · apply List.filter_eq_self.mpr
        intro r hr
        simpa [h] using Config.overrides_domain hr
      · apply List.filter_eq_nil_iff.mpr
        intro r hr
        simpa [Config.overrides_domain hr] using h
    rw [List.flatMap_cons, List.filter_append, hown, ih hns]
    by_cases h : n = name
    · subst h
      simp [hn]
    · simp [h, Ne.symm h]

def Db.IsDisabled (db : Db) (name : String) : Prop :=
  ∃ l ∈ db.domainLists, db.owner name = some l.id ∧ l.active = false

/-- The generated records are those of the proxy's own names and of the blocked names, one
for each enabled protocol; whitelisted names and names of disabled lists have none. -/
structure ExactlyBlocked (proxy : DnsProxy) (c : Connection) (records : List Override) :
    Prop where
  names : ∃ blocked, (Store.free c).exec DomainManager.getBlocked =
      some (.ok blocked, Store.free c) ∧
    ∀ name, records.filter (fun r => r.domain = name) =
      if name ∈ proxy.domains ∨ name ∈ blocked.map Domain.name then proxy.config.overrides name
      else []
  excluded : ∀ name, c.view.IsWhitelisted name ∨ c.view.IsDisabled name →
    records.filter (fun r => r.domain = name) = []

namespace DnsProxy

def activeNames (db : Db) : List String := ((Query.getDomains 0).rows db).map Domain.name

def records (proxy : DnsProxy) (db : Db) : List Override :=
  proxy.domains.flatMap proxy.config.overrides ++ (activeNames db).flatMap proxy.config.overrides

theorem exec_overrides (proxy : DnsProxy) (c : Connection) :
    (Store.free c).exec proxy.overrides = some (.ok (proxy.records c.view), Store.free c) := by
  have hget : (Store.free c).exec (DomainManager.get 0) = _ := Store.exec_collect_free c _
  rw [overrides, Store.exec_bind, hget]
  simp only [records, activeNames, List.flatMap_map]
  rfl

theorem activeNames_nodup (db : Db) : (activeNames db).Nodup := Db.getDomains_names_nodup db

theorem mem_activeNames {db : Db} {name : String} : name ∈ activeNames db ↔
    ∃ l ∈ db.domainLists, l.active = true ∧ db.owner name = some l.id := Db.mem_getDomains_names

private theorem filter_records (proxy : DnsProxy) (db : Db) (name : String) :
    (proxy.records db).filter (fun r => r.domain = name) =
      (if name ∈ proxy.domains then proxy.config.overrides name else []) ++
        (if name ∈ activeNames db then proxy.config.overrides name else []) := by
  rw [records, List.filter_append, Config.filter_overrides _ proxy.nodup,
    Config.filter_overrides _ (activeNames_nodup db)]

/-- When the generators do what they are for. -/
def Suits (proxy : DnsProxy) (db : Db) : Prop :=
  (proxy.config.networkNoIp4 = true ∧ proxy.config.networkNoIp6 = true) ∨
    ((∀ l ∈ db.domainLists, l.active = true → l.isWhitelist = true →
        ∀ name, db.owner name ≠ some l.id) ∧
      ∀ name ∈ proxy.domains, db.owner name = none)

private theorem exactlyBlocked_of_suits {proxy : DnsProxy} {c : Connection}
    (h : proxy.Suits c.view) :
    ExactlyBlocked proxy c (proxy.records c.view) := by
  have hblocked : (Store.free c).exec DomainManager.getBlocked = _ :=
    Store.exec_collect_free c .getBlockedDomains
  rcases h with hoff | ⟨hwhite, hown⟩
  · have hnil (name : String) : proxy.config.overrides name = [] :=
      Config.overrides_eq_nil.mpr hoff
    exact ⟨⟨_, hblocked, fun name => by simp [filter_records, hnil]⟩,
      fun name _ => by simp [filter_records, hnil]⟩
  · have hactive (name : String) : name ∈ activeNames c.view ↔
        name ∈ (Query.getBlockedDomains.rows c.view).map Domain.name := by
      rw [mem_activeNames, Db.mem_getBlocked_names]
      constructor
      · rintro ⟨l, hl, ha, ho⟩
        have hflag : l.isWhitelist = false :=
          Bool.eq_false_of_not_eq_true fun hw => hwhite l hl ha hw name ho
        exact ⟨l, hl, ⟨ha, hflag⟩, ho⟩
      · rintro ⟨l, hl, ⟨ha, _⟩, ho⟩
        exact ⟨l, hl, ha, ho⟩
    have hdisjoint (name : String) (hd : name ∈ proxy.domains) : name ∉ activeNames c.view := by
      rw [mem_activeNames]
      rintro ⟨l, _, _, ho⟩
      rw [hown name hd] at ho
      cases ho
    refine ⟨⟨_, hblocked, ?_⟩, ?_⟩
    · intro name
      simp only [filter_records, ← hactive name]
      by_cases hd : name ∈ proxy.domains
      · simp [hd, hdisjoint name hd]
      · simp [hd]
    · intro name hex
      have howned : ∃ l ∈ c.view.domainLists, c.view.owner name = some l.id ∧
          (l.isWhitelist = true ∨ l.active = false) := by
        rcases hex with ⟨l, hl, ho, hw⟩ | ⟨l, hl, ho, ha⟩
        · exact ⟨l, hl, ho, Or.inl hw⟩
        · exact ⟨l, hl, ho, Or.inr ha⟩
      obtain ⟨l, hl, ho, hflags⟩ := howned
      have hd : name ∉ proxy.domains := by
        intro hd
        rw [hown name hd] at ho
        cases ho
      have ha : name ∉ activeNames c.view := by
        rw [mem_activeNames]
        rintro ⟨k, hk, hka, hko⟩
        have hkl : k = l := Db.list_id_inj hk hl (Option.some.inj (hko.symm.trans ho))
        rcases hflags with hw | hoff
        · exact hwhite k hk hka (hkl ▸ hw) name hko
        · rw [hkl, hoff] at hka
          cases hka
      simp [filter_records, hd, ha]

private theorem suits_of_exactlyBlocked {proxy : DnsProxy} {c : Connection}
    (h : ExactlyBlocked proxy c (proxy.records c.view)) : proxy.Suits c.view := by
  by_cases hoff : proxy.config.networkNoIp4 = true ∧ proxy.config.networkNoIp6 = true
  · exact Or.inl hoff
  have hne (name : String) : proxy.config.overrides name ≠ [] := fun h =>
    hoff (Config.overrides_eq_nil.mp h)
  -- a name that must not have a record is in neither source of names
  have hexcluded (name : String) (hex : c.view.IsWhitelisted name ∨ c.view.IsDisabled name) :
      name ∉ proxy.domains ∧ name ∉ activeNames c.view := by
    have hnone := h.excluded name hex
    rw [filter_records, List.append_eq_nil_iff] at hnone
    constructor
    · intro hd
      exact hne name (by simpa [hd] using hnone.1)
    · intro ha
      exact hne name (by simpa [ha] using hnone.2)
  refine Or.inr ⟨?_, ?_⟩
  · intro l hl ha hw name ho
    apply (hexcluded name (Or.inl ⟨l, hl, ho, hw⟩)).2
    exact mem_activeNames.mpr ⟨l, hl, ha, ho⟩
  · intro name hd
    cases ho : c.view.owner name with
    | none => rfl
    | some id =>
      obtain ⟨l, hl, rfl⟩ := Db.owner_exists ho
      have ha : l.active = true := by
        cases hact : l.active with
        | true => rfl
        | false => exact absurd hd (hexcluded name (Or.inr ⟨l, hl, ho, hact⟩)).1
      have hin : name ∈ activeNames c.view := mem_activeNames.mpr ⟨l, hl, ha, ho⟩
      obtain ⟨⟨blocked, _, hnames⟩, _⟩ := h
      have htwice := hnames name
      rw [filter_records, if_pos hd, if_pos hin, if_pos (Or.inl hd)] at htwice
      exact absurd (List.append_right_eq_self.mp htwice) (hne name)

end DnsProxy

/-- Both back ends write exactly the blocked names, as long as no enabled list that owns a
name is a whitelist and no name of the proxy is in the table. -/
theorem generateDomainsConfig_iff (proxy : DnsProxy) (c : Connection) :
    (Store.free c).exec (Unbound.generateDomainsConfig proxy) =
        some (.ok ((proxy.records c.view).map Unbound.saveDomain), Store.free c) ∧
      (Store.free c).exec (DNSMasq.generateDomainsConfig proxy) =
        some (.ok ((proxy.records c.view).map DNSMasq.saveDomain), Store.free c) ∧
      (ExactlyBlocked proxy c (proxy.records c.view) ↔ proxy.Suits c.view) := by
  have hmap (f : Override → String) : (Store.free c).exec (List.map f <$> proxy.overrides) =
      some (.ok ((proxy.records c.view).map f), Store.free c) := by
    have hrun := proxy.exec_overrides c
    unfold Store.exec at hrun ⊢
    rw [Framework.Code.exec_map, hrun]
    rfl
  exact ⟨hmap _, hmap _, DnsProxy.suits_of_exactlyBlocked, DnsProxy.exactlyBlocked_of_suits⟩

/-- After the first start, unblocking one name gives it a record. -/
theorem generateDomainsConfig_unblocked :
    ∃ c, (Store.free ⟨Db.empty, none⟩).exec
          (do DB.init; DomainManager.unblockDomains (Env.ofTexts []) ["ads.example"]) =
        some (.ok true, Store.free c) ∧
      ¬ ExactlyBlocked (DnsProxy.create {}) c ((DnsProxy.create {}).records c.view) := by
  refine ⟨_, rfl, ?_⟩
  intro h
  rcases DnsProxy.suits_of_exactlyBlocked h with ⟨hoff, _⟩ | ⟨hwhite, _⟩
  · cases hoff
  · refine hwhite ⟨2, "WHITELIST", "", "Custom, default whitelist", true, true, true, 0⟩ ?_ rfl rfl
      "ads.example" ?_
    · decide
    · decide

end DblService
