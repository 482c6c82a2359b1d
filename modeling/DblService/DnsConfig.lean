import DblService.DnsProxy

/-!
# The generated proxy configuration

What `create_config` of the two back ends writes: the rendered template, the addresses
that the proxy is bound to, and the override records.  Every write comes with what it
says, so that the two syntaxes can be compared.
-/

namespace DblService

open Framework Session

/-- What the generators ask of the file system. -/
structure Files where
  present : String → Bool
  isDirectory : String → Bool
  content : String → String

/-- The configuration values of the proxy itself. -/
structure ProxyOptions where
  baseDir : String := ""
  templatesDir : String := ""
  noSystemDnsProxy : Bool := false
  dnsProxyChroot : String := ""
  dnsProxyConfig : String := ""
  dnsProxyConfigDestDir : String := ""
  dnsProxyDisableDnssec : Bool := false
  dnsProxyGenerateConfig : Bool := false
  dnsProxyIncludeDir : String := ""
  dnsProxyLogfile : String := "dbsblocker-proxy.log"
  dnsProxyPort : Int := 53
  dnsProxyRootKey : String := "root.key"
  dnsProxyUser : String := "unbound"
  dnsProxyWorkdir : String := ""

def joinPath (root name : String) : String :=
  if root = "" || root.endsWith "/" then root ++ name else root ++ "/" ++ name

/-- `Template::Values_t`, in the order of its iteration. -/
abbrev ConfigEntries := List (String × String)

def ConfigEntries.setValue (entries : ConfigEntries) (key value : String) : ConfigEntries :=
  entries.filter (fun e => e.1 ≠ key) ++ [(key, value)]

def ProxyOptions.generateConfig (options : ProxyOptions) (entries : ConfigEntries) :
    ConfigEntries :=
  let directory := if options.dnsProxyWorkdir ≠ "" then options.dnsProxyWorkdir else options.baseDir
  let entries := entries.setValue "DIRECTORY" directory
  let entries := entries.setValue "USER" options.dnsProxyUser
  let entries := entries.setValue "CHROOT" options.dnsProxyChroot
  let entries := entries.setValue "LOGFILE" options.dnsProxyLogfile
  entries.setValue "PORT" (toString options.dnsProxyPort)

def Template.render (content : String) (values : ConfigEntries) : String :=
  values.foldl (fun content value => content.replace ("$" ++ value.1) value.2) content

/-- One write to the configuration file, with the address it binds the proxy to or the address
it answers a domain with.  The line `interface: ADDRESS` is what binds the proxy in both files, as
the code has it; to dnsmasq the address of such a line would be `listen-address`. -/
structure Entry where
  text : String
  binds : Option String := none
  overrides : Option (String × String) := none

structure Generated where
  path : String
  entries : List Entry

namespace Generated

def text (g : Generated) : String := String.join (g.entries.map Entry.text)

def bound (g : Generated) : List String := g.entries.filterMap Entry.binds

def overridden (g : Generated) : List (String × String) := g.entries.filterMap Entry.overrides

end Generated

/-- What differs between the back ends. -/
structure BackEnd where
  configName : String
  templateName : String
  network : List Entry  -- the writes after the template
  included : Entry  -- the write in place of both in the include file of the system
  saveDomain : Override → String

/-- The common text of both `create_config`; `asctime` is the time of the generation. -/
def BackEnd.createConfig (backEnd : BackEnd) (files : Files) (options : ProxyOptions)
    (asctime : String) (entries : ConfigEntries) (proxy : DnsProxy) : Code (Option Generated) := do
  if options.dnsProxyConfig ≠ "" && !files.present options.dnsProxyConfig then
    throw (.runtime ("Configuration file does not exist: " ++ options.dnsProxyConfig))
  else if !options.dnsProxyGenerateConfig then
    pure none
  else
    let entries := entries.setValue "GENERATION_TIME" asctime
    let save (r : Override) : Entry :=
      { text := backEnd.saveDomain r, overrides := some (r.domain, r.address) }
    if !options.noSystemDnsProxy then
      if !files.isDirectory options.dnsProxyIncludeDir then
        throw (.runtime ("Invalid system dns proxy include dir: " ++ options.dnsProxyIncludeDir))
      else
        let records ← proxy.overrides
        pure (some
          { path := joinPath options.dnsProxyIncludeDir "dnsblocker.conf"
            entries := backEnd.included :: records.map save })
    else
      let entries := options.generateConfig entries
      let template := joinPath options.templatesDir backEnd.templateName
      if !files.present template then
        throw (.runtime ("Template not found: " ++ template))
      else
        let records ← proxy.overrides
        pure (some
          { path := joinPath options.dnsProxyConfigDestDir backEnd.configName
            entries :=
              { text := Template.render (files.content template) entries ++ "\n" } ::
                backEnd.network ++ { text := "\n" } :: records.map save })

namespace Unbound

def ws : String := "    "

def interface (address : String) : Entry :=
  { text := ws ++ "interface: " ++ address ++ "\n", binds := some address }

def network (config : Config) (options : ProxyOptions) : List Entry :=
  [if config.networkNoIp4 then { text := ws ++ "do-ip4: no\n" }
    else interface config.networkIp4Address,
   if config.networkNoIp6 then { text := ws ++ "do-ip6: no\n" }
    else interface config.networkIp6Address] ++
  if options.dnsProxyDisableDnssec then []
  else [{ text := ws ++ "auto-trust-anchor-file: \"" ++ options.dnsProxyRootKey ++ "\"\n" }]

def createConfig (files : Files) (options : ProxyOptions) (asctime : String)
    (entries : ConfigEntries) (proxy : DnsProxy) : Code (Option Generated) :=
  BackEnd.createConfig
    { configName := "proxy-unbound.conf"
      templateName := "unbound.conf"
      network := network proxy.config options
      included := { text := "server:\n" }
      saveDomain := saveDomain }
    files options asctime entries proxy

end Unbound

namespace DNSMasq

def interface (address : String) : Entry :=
  { text := "interface: " ++ address ++ "\n", binds := some address }

/-- An address is written when its protocol is switched off. -/
def network (config : Config) : List Entry :=
  (if config.networkNoIp4 then [interface config.networkIp4Address] else []) ++
    if config.networkNoIp6 then [interface config.networkIp6Address] else []

def createConfig (files : Files) (options : ProxyOptions) (asctime : String)
    (entries : ConfigEntries) (proxy : DnsProxy) : Code (Option Generated) :=
  BackEnd.createConfig
    { configName := "proxy-dnsmasq.conf"
      templateName := "dnsmasq.conf"
      network := network proxy.config
      included := { text := "\n" }
      saveDomain := saveDomain }
    files options asctime entries proxy

end DNSMasq

/-! ## Tags and lines -/

private theorem append_line_inj (start a b : String) :
    start ++ a ++ "\n" = start ++ b ++ "\n" ↔ a = b := by
  simp [← String.toList_inj]

/-- Of the lines about the network exactly the `interface` lines are tagged with an address. -/
theorem Unbound.network_tagged (config : Config) (options : ProxyOptions) :
    ∀ e ∈ network config options, ∀ a, e.binds = some a ↔ e.text = (interface a).text := by
  have hinterface (address a : String) :
      (interface address).binds = some a ↔ (interface address).text = (interface a).text := by
    simp only [interface, Option.some.injEq, append_line_inj]
  have hother (line a : String) (hline : line.toList.head? ≠ some 'i') :
      (none : Option String) = some a ↔ ws ++ line = (interface a).text := by
    refine iff_of_false (by simp) ?_
    intro h
    have hlist := congrArg String.toList h
    simp only [interface, String.toList_append, List.append_assoc,
      List.append_cancel_left_eq] at hlist
    rw [hlist] at hline
    exact hline rfl
  intro e he a
  simp only [network, List.mem_append, List.mem_cons, List.not_mem_nil, or_false] at he
  rcases he with (rfl | rfl) | he
  · cases config.networkNoIp4 with
    | true => exact hother "do-ip4: no\n" a (by decide)
    | false => exact hinterface _ a
  · cases config.networkNoIp6 with
    | true => exact hother "do-ip6: no\n" a (by decide)
    | false => exact hinterface _ a
  · split_ifs at he
    · cases he
    · rw [List.mem_singleton] at he
      subst he
      have hanchor := hother ("auto-trust-anchor-file: \"" ++ options.dnsProxyRootKey ++ "\"\n") a
        (by simp [String.toList_append])
      simpa only [String.append_assoc] using hanchor

theorem DNSMasq.network_tagged (config : Config) :
    ∀ e ∈ network config, ∀ a, e.binds = some a ↔ e.text = (interface a).text := by
  have hinterface (address a : String) :
      (interface address).binds = some a ↔ (interface address).text = (interface a).text := by
    simp only [interface, Option.some.injEq, append_line_inj]
  intro e he a
  simp only [network, List.mem_append, List.mem_ite_nil_right, List.mem_singleton] at he
  rcases he with ⟨_, rfl⟩ | ⟨_, rfl⟩ <;> exact hinterface _ a

/-! ## What the files say -/

/-- The addresses the proxy is to be bound to. -/
def Config.addresses (config : Config) : List String :=
  (if config.networkNoIp4 then [] else [config.networkIp4Address]) ++
    if config.networkNoIp6 then [] else [config.networkIp6Address]

/-- The two files bind the proxy to the addresses of the enabled protocols, and override the
same domains by the same addresses. -/
structure SameProxy (config : Config) (unbound dnsmasq : Generated) : Prop where
  unboundBinds : ∀ a, a ∈ unbound.bound ↔ a ∈ config.addresses
  dnsmasqBinds : ∀ a, a ∈ dnsmasq.bound ↔ a ∈ config.addresses
  sameOverrides : ∀ p, p ∈ unbound.overridden ↔ p ∈ dnsmasq.overridden

def BackEnd.written (backEnd : BackEnd) (files : Files) (options : ProxyOptions)
    (asctime : String) (entries : ConfigEntries) (records : List Override) : Generated :=
  { path := joinPath options.dnsProxyConfigDestDir backEnd.configName
    entries :=
      { text := Template.render (files.content (joinPath options.templatesDir backEnd.templateName))
          (options.generateConfig (entries.setValue "GENERATION_TIME" asctime)) ++ "\n" } ::
        backEnd.network ++ { text := "\n" } :: records.map fun r =>
          { text := backEnd.saveDomain r, overrides := some (r.domain, r.address) } }

namespace BackEnd

variable (backEnd : BackEnd) {files : Files} {options : ProxyOptions} (asctime : String)
  (entries : ConfigEntries)

theorem exec_createConfig
    (hconfig : options.dnsProxyConfig = "" ∨ files.present options.dnsProxyConfig)
    (hgenerate : options.dnsProxyGenerateConfig = true) (hown : options.noSystemDnsProxy = true)
    (htemplate : files.present (joinPath options.templatesDir backEnd.templateName) = true)
    (proxy : DnsProxy) (c : Connection) :
    (Store.free c).exec (backEnd.createConfig files options asctime entries proxy) =
      some (.ok (some (backEnd.written files options asctime entries (proxy.records c.view))),
        Store.free c) := by
  have hpresent : (decide (options.dnsProxyConfig ≠ "") && !files.present options.dnsProxyConfig) =
      false := by
    rcases hconfig with h | h <;> simp [h]
  have hgen : (!options.dnsProxyGenerateConfig) = false := by rw [hgenerate]; rfl
  have hsystem : (!options.noSystemDnsProxy) = false := by rw [hown]; rfl
  have hfound : (!files.present (joinPath options.templatesDir backEnd.templateName)) = false := by
    rw [htemplate]; rfl
  simp only [createConfig, hpresent, hgen, hsystem, hfound, Bool.false_eq_true, if_false]
  rw [Store.exec_bind, proxy.exec_overrides]
  rfl

private theorem written_bound (records : List Override) :
    (backEnd.written files options asctime entries records).bound =
      backEnd.network.filterMap Entry.binds := by
  simp [written, Generated.bound, List.filterMap_append, List.filterMap_map]

private theorem written_overridden (h : backEnd.network.filterMap Entry.overrides = [])
    (records : List Override) : (backEnd.written files options asctime entries records).overridden =
      records.map fun r => (r.domain, r.address) := by
  simp [written, Generated.overridden, List.filterMap_append, List.filterMap_map, h]

/-- A write that is tagged with a domain and an address is a record of them. -/
theorem written_tagged (h : backEnd.network.filterMap Entry.overrides = [])
    (records : List Override) :
    ∀ e ∈ (backEnd.written files options asctime entries records).entries, ∀ domain address,
      e.overrides = some (domain, address) →
        ∃ p, e.text = backEnd.saveDomain ⟨p, domain, address⟩ := by
  intro e he domain address htag
  simp only [written, List.cons_append, List.mem_cons, List.mem_append, List.mem_map] at he
  rcases he with rfl | he | rfl | ⟨r, _, rfl⟩
  · cases htag
  · have hmem := List.mem_filterMap.mpr ⟨e, he, htag⟩
    rw [h] at hmem
    cases hmem
  · cases htag
  · cases htag
    exact ⟨r.protocol, rfl⟩

end BackEnd

private theorem Unbound.network_binds (config : Config) (options : ProxyOptions) :
    (network config options).filterMap Entry.binds = config.addresses := by
  cases h4 : config.networkNoIp4 <;> cases h6 : config.networkNoIp6 <;>
    cases hd : options.dnsProxyDisableDnssec <;>
      simp [network, interface, Config.addresses, h4, h6, hd]

private theorem Unbound.network_overrides (config : Config) (options : ProxyOptions) :
    (network config options).filterMap Entry.overrides = [] := by
  cases h4 : config.networkNoIp4 <;> cases h6 : config.networkNoIp6 <;>
    cases hd : options.dnsProxyDisableDnssec <;> simp [network, interface, h4, h6, hd]

private theorem DNSMasq.network_binds (config : Config) :
    (network config).filterMap Entry.binds =
      (if config.networkNoIp4 then [config.networkIp4Address] else []) ++
        if config.networkNoIp6 then [config.networkIp6Address] else [] := by
  cases h4 : config.networkNoIp4 <;> cases h6 : config.networkNoIp6 <;>
    simp [network, interface, h4, h6]

private theorem DNSMasq.network_overrides (config : Config) :
    (network config).filterMap Entry.overrides = [] := by
  cases h4 : config.networkNoIp4 <;> cases h6 : config.networkNoIp6 <;>
    simp [network, interface, h4, h6]

/-- One protocol is switched off, and both have one address. -/
def Config.OneAddress (config : Config) : Prop :=
  config.networkIp4Address = config.networkIp6Address ∧
    config.networkNoIp4 ≠ config.networkNoIp6

private theorem DNSMasq.network_binds_iff (config : Config) :
    (∀ a, a ∈ (network config).filterMap Entry.binds ↔ a ∈ config.addresses) ↔
      config.OneAddress := by
  rw [DNSMasq.network_binds]
  unfold Config.addresses Config.OneAddress
  cases config.networkNoIp4 with
  | false =>
    cases config.networkNoIp6 with
    | false =>
      refine iff_of_false ?_ (by simp)
      intro h
      have hlost := (h config.networkIp4Address).mpr (by simp)
      simp at hlost
    | true =>
      simp only [Bool.false_eq_true, if_false, if_true, List.nil_append, List.append_nil,
        List.mem_singleton, ne_eq, not_false_eq_true, and_true]
      constructor
      · intro h
        exact (h _).mpr rfl
      · intro h a
        rw [h]
  | true =>
    cases config.networkNoIp6 with
    | false =>
      simp only [Bool.false_eq_true, if_false, if_true, List.nil_append, List.append_nil,
        List.mem_singleton, ne_eq, Bool.true_eq_false, not_false_eq_true, and_true]
      constructor
      · intro h
        exact (h _).mp rfl
      · intro h a
        rw [h]
    | true =>
      refine iff_of_false ?_ (by simp)
      intro h
      have hextra := (h config.networkIp4Address).mp (by simp)
      simp at hextra

/-- With readable files both back ends write a configuration of their own for the same proxy,
exactly when one protocol is switched off and both have one address. -/
theorem createConfig_sameProxy_iff (files : Files) (options : ProxyOptions) (asctime : String)
    (entries : ConfigEntries) (proxy : DnsProxy) (c : Connection)
    (hgenerate : options.dnsProxyGenerateConfig = true) (hown : options.noSystemDnsProxy = true)
    (hfiles : ∀ path, files.present path = true) :
    ∃ unbound dnsmasq,
      (Store.free c).exec (Unbound.createConfig files options asctime entries proxy) =
        some (.ok (some unbound), Store.free c) ∧
      (Store.free c).exec (DNSMasq.createConfig files options asctime entries proxy) =
        some (.ok (some dnsmasq), Store.free c) ∧
      (SameProxy proxy.config unbound dnsmasq ↔ proxy.config.OneAddress) := by
  refine ⟨_, _, BackEnd.exec_createConfig _ asctime entries (Or.inr (hfiles _)) hgenerate hown
    (hfiles _) proxy c, BackEnd.exec_createConfig _ asctime entries (Or.inr (hfiles _)) hgenerate
    hown (hfiles _) proxy c, ?_⟩
  rw [← DNSMasq.network_binds_iff]
  constructor
  · intro h
    simpa only [BackEnd.written_bound] using h.dnsmasqBinds
  · intro h
    refine ⟨?_, ?_, ?_⟩
    · intro a
      rw [BackEnd.written_bound, Unbound.network_binds]
    · intro a
      rw [BackEnd.written_bound]
      exact h a
    · intro p
      rw [BackEnd.written_overridden _ _ _ (Unbound.network_overrides _ _),
        BackEnd.written_overridden _ _ _ (DNSMasq.network_overrides _)]

def ProxyOptions.own : ProxyOptions := { noSystemDnsProxy := true, dnsProxyGenerateConfig := true }

def Files.everywhere : Files :=
  { present := fun _ => true, isDirectory := fun _ => true, content := fun _ => "" }

/-- IPv6 is switched off and both addresses are one. -/
theorem createConfig_sameProxy_one :
    let config : Config := { networkIp6Address := "127.0.0.1", networkNoIp6 := true }
    ∃ unbound dnsmasq,
        (Store.free ⟨Db.seeded, none⟩).exec
            (Unbound.createConfig .everywhere .own "" [] (DnsProxy.create config)) =
          some (.ok (some unbound), Store.free ⟨Db.seeded, none⟩) ∧
        (Store.free ⟨Db.seeded, none⟩).exec
            (DNSMasq.createConfig .everywhere .own "" [] (DnsProxy.create config)) =
          some (.ok (some dnsmasq), Store.free ⟨Db.seeded, none⟩) ∧
        SameProxy config unbound dnsmasq := by
  intro config
  have hone : config.OneAddress := ⟨rfl, by decide⟩
  obtain ⟨unbound, dnsmasq, hunbound, hdnsmasq, hiff⟩ := createConfig_sameProxy_iff .everywhere
    .own "" [] (DnsProxy.create config) ⟨Db.seeded, none⟩ rfl rfl fun _ => rfl
  exact ⟨unbound, dnsmasq, hunbound, hdnsmasq, hiff.mpr hone⟩

/-- With the default configuration `DNSMasq` binds the proxy to no address. -/
theorem createConfig_default :
    ∃ unbound dnsmasq,
      (Store.free ⟨Db.seeded, none⟩).exec
          (Unbound.createConfig .everywhere .own "" [] (DnsProxy.create {})) =
        some (.ok (some unbound), Store.free ⟨Db.seeded, none⟩) ∧
      (Store.free ⟨Db.seeded, none⟩).exec
          (DNSMasq.createConfig .everywhere .own "" [] (DnsProxy.create {})) =
        some (.ok (some dnsmasq), Store.free ⟨Db.seeded, none⟩) ∧
      unbound.bound = ["127.0.0.1", "::1"] ∧ dnsmasq.bound = [] ∧
      ¬ SameProxy {} unbound dnsmasq := by
  refine ⟨_, _, rfl, rfl, rfl, rfl, ?_⟩
  intro h
  have hbound := (h.dnsmasqBinds "127.0.0.1").mpr List.mem_cons_self
  cases hbound

end DblService
