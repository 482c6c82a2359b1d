import DblService.DnsConfig
import DblService.Framework.Disk

/-!
# The configuration file on disk

`create_config` with the file it writes.  The stream is opened before the template is looked
for and before the names are read, so what fails in between is seen in the file.
-/

namespace DblService

open Framework Session

abbrev FileCode (α : Type) := Framework.FileCode effects Exc α

namespace BackEnd

open Framework.FileCode

variable (backEnd : BackEnd) (files : Files) (options : ProxyOptions) (asctime : String)
  (entries : ConfigEntries) (proxy : DnsProxy)

def saveDomains (ofh : Option String) (records : List Override) : FileCode Unit :=
  (records.map backEnd.saveDomain).forM (insert ofh)

def generateDomainsConfig (ofh : Option String) : FileCode Unit := do
  backEnd.saveDomains ofh (proxy.domains.flatMap proxy.config.overrides)
  let domains ← lift (DomainManager.get 0)
  backEnd.saveDomains ofh (domains.flatMap fun domain => proxy.config.overrides domain.name)

def configFilePath : String :=
  if !options.noSystemDnsProxy then joinPath options.dnsProxyIncludeDir "dnsblocker.conf"
  else joinPath options.dnsProxyConfigDestDir backEnd.configName

/-- The common text of both `create_config`, with the file. -/
def createConfigFile : FileCode Unit := do
  if options.dnsProxyConfig ≠ "" && !files.present options.dnsProxyConfig then
    throw (.runtime ("Configuration file does not exist: " ++ options.dnsProxyConfig))
  else if !options.dnsProxyGenerateConfig then
    pure ()
  else
    let entries := entries.setValue "GENERATION_TIME" asctime
    if !options.noSystemDnsProxy && !files.isDirectory options.dnsProxyIncludeDir then
      throw (.runtime ("Invalid system dns proxy include dir: " ++ options.dnsProxyIncludeDir))
    else
      let ofh ← ofstream (backEnd.configFilePath options)
      if options.noSystemDnsProxy then
        let entries := options.generateConfig entries
        let template := joinPath options.templatesDir backEnd.templateName
        if !files.present template then
          throw (.runtime ("Template not found: " ++ template))
        else
          insert ofh (Template.render (files.content template) entries ++ "\n")
          (backEnd.network.map Entry.text).forM (insert ofh)
          insert ofh "\n"
          backEnd.generateDomainsConfig proxy ofh
      else
        insert ofh backEnd.included.text
        backEnd.generateDomainsConfig proxy ofh

end BackEnd

def Unbound.backEnd (config : Config) (options : ProxyOptions) : BackEnd where
  configName := "proxy-unbound.conf"
  templateName := "unbound.conf"
  network := network config options
  included := { text := "server:\n" }
  saveDomain := saveDomain

def Unbound.createConfigFile (files : Files) (options : ProxyOptions) (asctime : String)
    (entries : ConfigEntries) (proxy : DnsProxy) : FileCode Unit :=
  (backEnd proxy.config options).createConfigFile files options asctime entries proxy

def DNSMasq.backEnd (config : Config) : BackEnd where
  configName := "proxy-dnsmasq.conf"
  templateName := "dnsmasq.conf"
  network := network config
  included := { text := "\n" }
  saveDomain := saveDomain

def DNSMasq.createConfigFile (files : Files) (options : ProxyOptions) (asctime : String)
    (entries : ConfigEntries) (proxy : DnsProxy) : FileCode Unit :=
  (backEnd proxy.config).createConfigFile files options asctime entries proxy

/-! ## What a run leaves -/

namespace BackEnd

open Framework.FileCode

variable (backEnd : BackEnd) {files : Files} {options : ProxyOptions} {asctime : String}
  {entries : ConfigEntries} {proxy : DnsProxy}

def header (files : Files) (options : ProxyOptions) (asctime : String) (entries : ConfigEntries) :
    String :=
  if options.noSystemDnsProxy then
    Template.render (files.content (joinPath options.templatesDir backEnd.templateName))
        (options.generateConfig (entries.setValue "GENERATION_TIME" asctime)) ++ "\n" ++
      String.join (backEnd.network.map Entry.text) ++ "\n"
  else backEnd.included.text

def fileText (files : Files) (options : ProxyOptions) (asctime : String) (entries : ConfigEntries)
    (proxy : DnsProxy) (names : List String) : String :=
  backEnd.header files options asctime entries ++
    String.join ((proxy.domains.flatMap proxy.config.overrides).map backEnd.saveDomain) ++
    String.join ((names.flatMap proxy.config.overrides).map backEnd.saveDomain)

def generated (files : Files) (options : ProxyOptions) (asctime : String) (entries : ConfigEntries)
    (records : List Override) : Generated :=
  if options.noSystemDnsProxy then backEnd.written files options asctime entries records
  else
    { path := joinPath options.dnsProxyIncludeDir "dnsblocker.conf"
      entries := backEnd.included :: records.map fun r =>
        { text := backEnd.saveDomain r, overrides := some (r.domain, r.address) } }

private theorem generated_path (records : List Override) :
    (backEnd.generated files options asctime entries records).path =
      backEnd.configFilePath options := by
  unfold generated configFilePath
  cases options.noSystemDnsProxy <;> rfl

private theorem generated_text (names : List String) :
    (backEnd.generated files options asctime entries
      (proxy.domains.flatMap proxy.config.overrides ++
        names.flatMap proxy.config.overrides)).text =
      backEnd.fileText files options asctime entries proxy names := by
  have hrecords (records : List Override) : String.join ((records.map fun r =>
      ({ text := backEnd.saveDomain r, overrides := some (r.domain, r.address) } : Entry)).map
        Entry.text) = String.join (records.map backEnd.saveDomain) := by
    rw [List.map_map]
    rfl
  unfold generated fileText header
  cases options.noSystemDnsProxy with
  | false =>
    simp only [Bool.false_eq_true, if_false, Generated.text, List.map_cons, String.join_cons,
      hrecords, List.map_append, String.join_append, String.append_assoc]
  | true =>
    simp only [if_true, Generated.text, written, List.map_cons, List.map_append, List.cons_append,
      String.join_cons, String.join_append, hrecords, String.append_assoc]

/-- It throws before the file is opened. -/
def Refuses (files : Files) (options : ProxyOptions) : Prop :=
  (options.dnsProxyConfig ≠ "" ∧ files.present options.dnsProxyConfig = false) ∨
    (options.noSystemDnsProxy = false ∧ files.isDirectory options.dnsProxyIncludeDir = false)

def LacksTemplate (files : Files) (options : ProxyOptions) : Prop :=
  options.noSystemDnsProxy = true ∧
    files.present (joinPath options.templatesDir backEnd.templateName) = false

/-- Everything a generation can do: its result, the disk and the store afterwards, beside what
`createConfig` returns on the same store. -/
inductive Created (files : Files) (options : ProxyOptions) (asctime : String)
    (entries : ConfigEntries) (proxy : DnsProxy) (d : Disk) (s : Store) :
    Except Exc Unit → Disk → Store → Prop
  | refused (what : String) (h : Refuses files options)
      (hrun : s.exec (backEnd.createConfig files options asctime entries proxy) =
        some (.error (.runtime what), s)) :
      Created files options asctime entries proxy d s (.error (.runtime what)) d s
  | lost (what : String) (hopened : ¬ Refuses files options)
      (h : backEnd.LacksTemplate files options)
      (hrun : s.exec (backEnd.createConfig files options asctime entries proxy) =
        some (.error (.runtime what), s)) :
      Created files options asctime entries proxy d s (.error (.runtime what))
        (d.truncate (backEnd.configFilePath options)) s
  | written (rows : List Domain) (s' : Store) (hopened : ¬ Refuses files options)
      (hloaded : ¬ backEnd.LacksTemplate files options)
      (h : Collected (.getDomains 0) s rows s')
      (hrun : s.exec (backEnd.createConfig files options asctime entries proxy) =
        some (.ok (some (backEnd.generated files options asctime entries
          (proxy.domains.flatMap proxy.config.overrides ++
            (rows.map Domain.name).flatMap proxy.config.overrides))), s')) :
      Created files options asctime entries proxy d s (.ok ())
        (if d.writable (backEnd.configFilePath options) then
          d.put (backEnd.configFilePath options)
            (backEnd.fileText files options asctime entries proxy (rows.map Domain.name))
          else d) s'

theorem exec_generateDomainsConfig (proxy : DnsProxy) (ofh : Option String) (d : Disk) {s : Store}
    (hs : s.held = false) :
    ∃ rows s', Collected (.getDomains 0) s rows s' ∧
      s.exec proxy.overrides = some (.ok (proxy.domains.flatMap proxy.config.overrides ++
        (rows.map Domain.name).flatMap proxy.config.overrides), s') ∧
      exec Store.handle (backEnd.generateDomainsConfig proxy ofh) d s =
        some ((.ok (), d.receive ofh
          (String.join ((proxy.domains.flatMap proxy.config.overrides).map backEnd.saveDomain) ++
            String.join (((rows.map Domain.name).flatMap proxy.config.overrides).map
              backEnd.saveDomain))), s') := by
  obtain ⟨rows, s', hrun, hc⟩ := Store.exec_collect s (.getDomains 0) hs
  refine ⟨rows, s', hc, ?_, ?_⟩
  · have hget : s.exec (DomainManager.get 0) = some (.ok rows, s') := hrun
    rw [DnsProxy.overrides, Store.exec_bind, hget, List.flatMap_map]
    rfl
  rw [generateDomainsConfig, exec_bind, saveDomains, exec_insertAll]
  change exec Store.handle (lift (DomainManager.get 0) >>= _) _ s = _
  rw [exec_bind, exec_lift, DomainManager.get]
  change Option.bind (Option.map _ (s.exec (collect (.getDomains 0)))) _ = _
  rw [hrun]
  change exec Store.handle (backEnd.saveDomains ofh _) _ s' = _
  rw [saveDomains, exec_insertAll, List.flatMap_map, Disk.receive_receive]

private theorem receive_truncate (d : Disk) (path text : String) :
    (d.truncate path).receive (if d.writable path then some path else none) text =
      if d.writable path then d.put path text else d := by
  cases hw : d.writable path with
  | false => simp [Disk.truncate, Disk.receive, hw]
  | true => simp [Disk.truncate, Disk.receive, hw]

private theorem guards_of_opened (h : ¬ Refuses files options) :
    (decide (options.dnsProxyConfig ≠ "") && !files.present options.dnsProxyConfig) = false ∧
      (!options.noSystemDnsProxy && !files.isDirectory options.dnsProxyIncludeDir) = false := by
  simp only [Refuses, not_or, not_and, Bool.not_eq_false] at h
  constructor
  · by_cases hne : options.dnsProxyConfig = ""
    · simp [hne]
    · simp [h.1 hne]
  · cases hown : options.noSystemDnsProxy with
    | true => rfl
    | false => simp [h.2 hown]

private theorem template_present (h : ¬ backEnd.LacksTemplate files options)
    (hown : options.noSystemDnsProxy = true) :
    files.present (joinPath options.templatesDir backEnd.templateName) = true := by
  by_contra habsent
  exact h ⟨hown, Bool.eq_false_iff.2 habsent⟩

/-- Both versions refuse with the same message, and nothing has happened by then. -/
theorem exec_refused (hgenerate : options.dnsProxyGenerateConfig = true)
    (h : Refuses files options) (d : Disk) (s : Store) :
    ∃ what, exec Store.handle (backEnd.createConfigFile files options asctime entries proxy) d s =
        some ((.error (.runtime what), d), s) ∧
      s.exec (backEnd.createConfig files options asctime entries proxy) =
        some (.error (.runtime what), s) := by
  unfold createConfigFile createConfig
  cases hconfig : decide (options.dnsProxyConfig ≠ "") && !files.present options.dnsProxyConfig with
  | true => exact ⟨_, rfl, rfl⟩
  | false =>
    have hdir : (!options.noSystemDnsProxy && !files.isDirectory options.dnsProxyIncludeDir) =
        true := by
      rcases h with ⟨hne, habsent⟩ | ⟨hsystem, habsent⟩
      · simp [hne, habsent] at hconfig
      · simp [hsystem, habsent]
    simp only [Bool.and_eq_true, Bool.not_eq_true'] at hdir
    simp only [hgenerate, hdir, Bool.not_true, Bool.not_false, Bool.and_self,
      Bool.false_eq_true, if_false, if_true]
    exact ⟨_, rfl, rfl⟩

/-- Without its template the file has been emptied, and nothing else has happened. -/
theorem exec_lost (hgenerate : options.dnsProxyGenerateConfig = true)
    (hopened : ¬ Refuses files options) (h : backEnd.LacksTemplate files options) (d : Disk)
    (s : Store) :
    ∃ what, exec Store.handle (backEnd.createConfigFile files options asctime entries proxy) d s =
        some ((.error (.runtime what), d.truncate (backEnd.configFilePath options)), s) ∧
      s.exec (backEnd.createConfig files options asctime entries proxy) =
        some (.error (.runtime what), s) := by
  obtain ⟨hconfig, hdir⟩ := guards_of_opened hopened
  unfold createConfigFile createConfig
  simp only [hconfig, hgenerate, h.1, h.2, Bool.not_true, Bool.not_false, Bool.false_and,
    Bool.false_eq_true, if_false, if_true]
  exact ⟨_, rfl, rfl⟩

/-- Once the template is there, the header is written and the records follow. -/
theorem exec_header (hgenerate : options.dnsProxyGenerateConfig = true)
    (hopened : ¬ Refuses files options) (hloaded : ¬ backEnd.LacksTemplate files options)
    (d : Disk) (s : Store) :
    let path := backEnd.configFilePath options
    let ofh : Option String := if d.writable path then some path else none
    exec Store.handle (backEnd.createConfigFile files options asctime entries proxy) d s =
      exec Store.handle (backEnd.generateDomainsConfig proxy ofh)
        ((d.truncate path).receive ofh (backEnd.header files options asctime entries)) s := by
  intro path ofh
  obtain ⟨hconfig, hdir⟩ := guards_of_opened hopened
  unfold createConfigFile header
  simp only [hconfig, hgenerate, hdir, Bool.not_true, Bool.false_eq_true, if_false]
  rw [exec_bind, exec_ofstream]
  cases hown : options.noSystemDnsProxy with
  | false =>
    change exec Store.handle (insert ofh backEnd.included.text >>= fun _ => _) _ s = _
    rw [exec_bind, exec_insert]
    rfl
  | true =>
    have htemplate := backEnd.template_present hloaded hown
    simp only [htemplate, Bool.not_true, Bool.false_eq_true, if_false, if_true]
    change exec Store.handle (insert ofh _ >>= fun _ => _) _ s = _
    rw [exec_bind, exec_insert]
    change exec Store.handle ((backEnd.network.map Entry.text).forM (insert ofh) >>=
      fun _ => _) _ s = _
    rw [exec_bind, exec_insertAll]
    change exec Store.handle (insert ofh "\n" >>= fun _ => _) _ s = _
    rw [exec_bind, exec_insert, Disk.receive_receive, Disk.receive_receive,
      ← String.append_assoc]
    rfl

/-- What `createConfig` returns once the records are read. -/
theorem exec_createConfig_generated (hgenerate : options.dnsProxyGenerateConfig = true)
    (hopened : ¬ Refuses files options) (hloaded : ¬ backEnd.LacksTemplate files options)
    {s s' : Store} {records : List Override}
    (hrecords : s.exec proxy.overrides = some (.ok records, s')) :
    s.exec (backEnd.createConfig files options asctime entries proxy) =
      some (.ok (some (backEnd.generated files options asctime entries records)), s') := by
  obtain ⟨hconfig, hdir⟩ := guards_of_opened hopened
  unfold createConfig generated
  cases hown : options.noSystemDnsProxy with
  | false =>
    have hisdir : (!files.isDirectory options.dnsProxyIncludeDir) = false := by
      simpa [hown] using hdir
    simp only [hconfig, hgenerate, hisdir, Bool.not_true, Bool.not_false, Bool.false_eq_true,
      if_false, if_true]
    rw [Store.exec_bind, hrecords]
    rfl
  | true =>
    have htemplate := backEnd.template_present hloaded hown
    simp only [hconfig, hgenerate, htemplate, Bool.not_true, Bool.false_eq_true, if_false,
      if_true]
    rw [Store.exec_bind, hrecords]
    rfl

theorem exec_createConfigFile (hgenerate : options.dnsProxyGenerateConfig = true) (d : Disk)
    {s : Store} (hs : s.held = false) :
    ∃ r d' s', exec Store.handle
        (backEnd.createConfigFile files options asctime entries proxy) d s =
        some ((r, d'), s') ∧
      backEnd.Created files options asctime entries proxy d s r d' s' := by
  by_cases hrefuses : Refuses files options
  · obtain ⟨what, hfile, hrun⟩ := backEnd.exec_refused hgenerate hrefuses d s
    exact ⟨_, d, s, hfile, .refused what hrefuses hrun⟩
  by_cases hlacks : backEnd.LacksTemplate files options
  · obtain ⟨what, hfile, hrun⟩ := backEnd.exec_lost hgenerate hrefuses hlacks d s
    exact ⟨_, _, s, hfile, .lost what hrefuses hlacks hrun⟩
  let path := backEnd.configFilePath options
  let ofh : Option String := if d.writable path then some path else none
  obtain ⟨rows, s', hc, hrecords, hdomains⟩ := backEnd.exec_generateDomainsConfig proxy ofh
    ((d.truncate path).receive ofh (backEnd.header files options asctime entries)) hs
  refine ⟨_, _, s', ?_, .written rows s' hrefuses hlacks hc
    (backEnd.exec_createConfig_generated hgenerate hrefuses hlacks hrecords)⟩
  rw [backEnd.exec_header hgenerate hrefuses hlacks, hdomains, Disk.receive_receive,
    receive_truncate, fileText, String.append_assoc]

/-! ## All or nothing -/

/-- The call returned and the file holds the text, or it threw and the file holds what it
held before. -/
def AllOrNothing (path text : String) (r : Except Exc Unit) (d d' : Disk) : Prop :=
  match r with
  | .ok () => d'.content path = some text
  | .error _ => d'.content path = d.content path

/-- No row is missing that a record would be written for: both protocols are switched off, or no
statement fails before the last row was fetched. -/
def ReadsAll (proxy : DnsProxy) (s : Store) : Prop :=
  (proxy.config.networkNoIp4 = true ∧ proxy.config.networkNoIp6 = true) ∨
    DnsProxy.activeNames s.conn.view = [] ∨
    s.ambient.Quiet ((DnsProxy.activeNames s.conn.view).length + 1)

/-- The call throws before it opens the file; or the template is missing and emptying the file
changes nothing; or the file is opened and all names are read; or it cannot be opened and needs no
change. -/
def Safe (files : Files) (options : ProxyOptions) (asctime : String) (entries : ConfigEntries)
    (proxy : DnsProxy) (d : Disk) (s : Store) : Prop :=
  let path := backEnd.configFilePath options
  Refuses files options ∨
    (backEnd.LacksTemplate files options ∧ (d.writable path = true → d.content path = some "")) ∨
    (¬ backEnd.LacksTemplate files options ∧ d.writable path = true ∧ ReadsAll proxy s) ∨
    (¬ backEnd.LacksTemplate files options ∧ d.writable path = false ∧
      d.content path = some (backEnd.fileText files options asctime entries proxy
        (DnsProxy.activeNames s.conn.view)))

private theorem join_eq_empty {texts : List String} (h : ∀ text ∈ texts, text ≠ "") :
    String.join texts = "" ↔ texts = [] := by
  cases texts with
  | nil => simp
  | cons text texts =>
    have hne := h text List.mem_cons_self
    simp [hne]

private theorem fileText_take_iff (hsave : ∀ r, backEnd.saveDomain r ≠ "") (names : List String)
    (i : Nat) :
    backEnd.fileText files options asctime entries proxy (names.take i) =
        backEnd.fileText files options asctime entries proxy names ↔
      (proxy.config.networkNoIp4 = true ∧ proxy.config.networkNoIp6 = true) ∨
        names.drop i = [] := by
  have hrest : String.join (((names.drop i).flatMap proxy.config.overrides).map
      backEnd.saveDomain) = "" ↔ (proxy.config.networkNoIp4 = true ∧
        proxy.config.networkNoIp6 = true) ∨ names.drop i = [] := by
    have hlines (records : List Override) :
        ∀ text ∈ records.map backEnd.saveDomain, text ≠ "" := by
      intro text htext
      obtain ⟨r, _, rfl⟩ := List.mem_map.mp htext
      exact hsave r
    rw [join_eq_empty (hlines _), List.map_eq_nil_iff, List.flatMap_eq_nil_iff]
    simp only [Config.overrides_eq_nil]
    cases names.drop i with
    | nil => simp
    | cons name rest =>
      simp only [List.mem_cons, forall_eq_or_imp, reduceCtorEq, or_false]
      exact and_iff_left_of_imp fun hoff _ _ => hoff
  have hsplit : backEnd.fileText files options asctime entries proxy names =
      backEnd.fileText files options asctime entries proxy (names.take i) ++
        String.join (((names.drop i).flatMap proxy.config.overrides).map backEnd.saveDomain) := by
    conv_lhs => rw [← List.take_append_drop i names]
    simp only [fileText, List.flatMap_append, List.map_append, String.join_append,
      String.append_assoc]
  rw [← hrest, hsplit]
  constructor
  · intro h
    rw [← String.append_right_inj, ← h, String.append_empty]
  · intro h
    rw [h, String.append_empty]

private theorem fileText_collected_iff (hsave : ∀ r, backEnd.saveDomain r ≠ "") {s s' : Store}
    {rows : List (Query.getDomains 0).Row} (h : Collected (.getDomains 0) s rows s') :
    backEnd.fileText files options asctime entries proxy (rows.map Domain.name) =
        backEnd.fileText files options asctime entries proxy (DnsProxy.activeNames s.conn.view) ↔
      ReadsAll proxy s := by
  have hlength : (DnsProxy.activeNames s.conn.view).length =
      ((Query.getDomains 0).rows s.conn.view).length := List.length_map _
  have htaken (i : Nat) : (((Query.getDomains 0).rows s.conn.view).take i).map Domain.name =
      (DnsProxy.activeNames s.conn.view).take i := List.map_take
  cases h with
  | complete hquiet =>
    refine iff_of_true rfl (Or.inr (Or.inr ?_))
    rw [hlength]
    exact hquiet.mono (by omega)
  | refused hbusy =>
    have hnone : ([] : List Domain).map Domain.name =
        (DnsProxy.activeNames s.conn.view).take 0 := rfl
    rw [hnone, backEnd.fileText_take_iff hsave, List.drop_zero, ReadsAll]
    simp [Ambient.quiet_succ, hbusy]
  | cut i hi hquiet hbusy =>
    rw [htaken, backEnd.fileText_take_iff hsave, ReadsAll, List.drop_eq_nil_iff, hlength]
    have hlast : (DnsProxy.activeNames s.conn.view = [] ∨
        s.ambient.Quiet (((Query.getDomains 0).rows s.conn.view).length + 1)) ↔
          ((Query.getDomains 0).rows s.conn.view).length ≤ i := by
      constructor
      · rintro (hnil | hall)
        · rw [← hlength, hnil]
          exact Nat.zero_le i
        · by_contra hlt
          exact hbusy (hall.mono (by omega))
      · intro hle
        exact Or.inr (hquiet.mono (by omega))
    rw [hlast]

private theorem Created.allOrNothing_iff (hsave : ∀ r, backEnd.saveDomain r ≠ "") {d d' : Disk}
    {s s' : Store} {r : Except Exc Unit}
    (h : backEnd.Created files options asctime entries proxy d s r d' s') :
    AllOrNothing (backEnd.configFilePath options)
        (backEnd.fileText files options asctime entries proxy
          (DnsProxy.activeNames s.conn.view)) r d d' ↔
      backEnd.Safe files options asctime entries proxy d s := by
  unfold Safe
  cases h with
  | refused what hrefuses _ =>
    exact iff_of_true rfl (Or.inl hrefuses)
  | lost what hopened hlacks _ =>
    simp only [AllOrNothing, hopened, hlacks, not_true_eq_false, false_and, or_false, false_or,
      true_and]
    cases hw : d.writable (backEnd.configFilePath options) with
    | false => simp [Disk.truncate, hw]
    | true =>
      simp only [Disk.truncate, hw, if_true, Disk.put_content, true_implies]
      exact eq_comm
  | written rows s' hopened hloaded hc _ =>
    simp only [AllOrNothing, hopened, hloaded, not_false_eq_true, false_and, false_or, true_and]
    cases hw : d.writable (backEnd.configFilePath options) with
    | false => simp
    | true => simpa using backEnd.fileText_collected_iff hsave hc

/-- What `createConfig` returns is what is written to a file that can be opened. -/
theorem createConfigFile_createConfig (hgenerate : options.dnsProxyGenerateConfig = true)
    (d : Disk) {s : Store} (hs : s.held = false) :
    ∃ r d' s', s.exec (backEnd.createConfig files options asctime entries proxy) =
        some (r, s') ∧
      exec Store.handle (backEnd.createConfigFile files options asctime entries proxy) d s =
        some ((r.map fun _ => (), d'), s') ∧
      ∀ g, r = .ok (some g) → d' = if d.writable g.path then d.put g.path g.text else d := by
  obtain ⟨r, d', s', hexec, h⟩ : ∃ r d' s', exec Store.handle
      (backEnd.createConfigFile files options asctime entries proxy) d s = some ((r, d'), s') ∧
        backEnd.Created files options asctime entries proxy d s r d' s' :=
    backEnd.exec_createConfigFile hgenerate d hs
  cases h with
  | refused what _ hrun => exact ⟨_, d, s, hrun, hexec, by simp⟩
  | lost what _ _ hrun => exact ⟨_, _, s, hrun, hexec, by simp⟩
  | written rows s' _ _ _ hrun =>
    refine ⟨_, _, s', hrun, hexec, ?_⟩
    intro g hg
    obtain rfl := Option.some.inj (Except.ok.inj hg)
    rw [generated_path, generated_text]

end BackEnd

private theorem Unbound.saveDomain_ne (r : Override) : saveDomain r ≠ "" := by
  unfold saveDomain
  simp

private theorem DNSMasq.saveDomain_ne (r : Override) : saveDomain r ≠ "" := by
  unfold saveDomain
  simp

open Framework.FileCode in
/-- Both back ends generate their file all or nothing exactly when nothing fails between the
opening of the file and the last row. -/
theorem createConfigFile_allOrNothing_iff (files : Files) (options : ProxyOptions)
    (asctime : String) (entries : ConfigEntries) (proxy : DnsProxy) (d : Disk) (s : Store)
    (hs : s.held = false) (hgenerate : options.dnsProxyGenerateConfig = true) :
    (∃ r d' s', exec Store.handle (Unbound.createConfigFile files options asctime entries proxy)
        d s = some ((r, d'), s') ∧
      let backEnd := Unbound.backEnd proxy.config options
      (BackEnd.AllOrNothing (backEnd.configFilePath options)
          (backEnd.fileText files options asctime entries proxy
            (DnsProxy.activeNames s.conn.view)) r d d' ↔
        backEnd.Safe files options asctime entries proxy d s)) ∧
    ∃ r d' s', exec Store.handle (DNSMasq.createConfigFile files options asctime entries proxy)
        d s = some ((r, d'), s') ∧
      let backEnd := DNSMasq.backEnd proxy.config
      (BackEnd.AllOrNothing (backEnd.configFilePath options)
          (backEnd.fileText files options asctime entries proxy
            (DnsProxy.activeNames s.conn.view)) r d d' ↔
        backEnd.Safe files options asctime entries proxy d s) := by
  constructor
  · obtain ⟨r, d', s', hexec, h⟩ :=
      (Unbound.backEnd proxy.config options).exec_createConfigFile hgenerate d hs
    exact ⟨r, d', s', hexec, h.allOrNothing_iff _ Unbound.saveDomain_ne⟩
  · obtain ⟨r, d', s', hexec, h⟩ := (DNSMasq.backEnd proxy.config).exec_createConfigFile
      hgenerate d hs
    exact ⟨r, d', s', hexec, h.allOrNothing_iff _ DNSMasq.saveDomain_ne⟩

def Framework.Disk.holding (text : String) : Disk :=
  { content := fun _ => some text, writable := fun _ => true }

def Files.withoutTemplate : Files :=
  { present := fun _ => false, isDirectory := fun _ => true, content := fun _ => "" }

def twoNamesDb : Db :=
  (Db.seeded.insertDomain "a.example" 1 Db.seeded_custom_id).insertDomain "b.example" 1
    Db.seeded_custom_id

/-- Nothing fails, and both names are written. -/
theorem createConfigFile_allOrNothing_twoNames :
    let s : Store := Store.free ⟨twoNamesDb, none⟩
    let backEnd := Unbound.backEnd {} .own
    let text := backEnd.fileText .everywhere .own "" [] (DnsProxy.create {})
      (DnsProxy.activeNames twoNamesDb)
    DnsProxy.activeNames twoNamesDb = ["a.example", "b.example"] ∧
      ∃ r d' s', Framework.FileCode.exec Store.handle
        (Unbound.createConfigFile .everywhere .own "" [] (DnsProxy.create {})) (.holding "old") s =
        some ((r, d'), s') ∧
      BackEnd.AllOrNothing (backEnd.configFilePath .own) text r (.holding "old") d' := by
  intro s backEnd text
  obtain ⟨⟨r, d', s', hexec, hiff⟩, _⟩ := createConfigFile_allOrNothing_iff .everywhere .own "" []
    (DnsProxy.create {}) (.holding "old") s rfl rfl
  refine ⟨by decide +kernel, r, d', s', hexec, hiff.mpr (Or.inr (Or.inr (Or.inl ⟨?_, rfl, ?_⟩)))⟩
  · rintro ⟨_, habsent⟩
    cases habsent
  · exact Or.inr (Or.inr (Ambient.quiet_of_no_faults rfl _))

def ProxyOptions.system : ProxyOptions :=
  { dnsProxyIncludeDir := "/etc/unbound", dnsProxyGenerateConfig := true }

/-- Without the template the call throws and leaves an empty file; when the database gets busy
after one of two names, it returns and leaves half of the records. -/
theorem createConfigFile_torn :
    (∃ d' s', Framework.FileCode.exec Store.handle
        (Unbound.createConfigFile .withoutTemplate .own "" [] (DnsProxy.create {}))
        (.holding "old") (Store.free ⟨twoNamesDb, none⟩) =
        some ((.error (.runtime "Template not found: unbound.conf"), d'), s') ∧
      d'.content "proxy-unbound.conf" = some "" ∧
      ¬ BackEnd.AllOrNothing "proxy-unbound.conf"
        ((Unbound.backEnd {} .own).fileText .withoutTemplate .own "" [] (DnsProxy.create {})
          (DnsProxy.activeNames twoNamesDb))
        (.error (.runtime "Template not found: unbound.conf")) (.holding "old") d') ∧
    ∃ d' s', Framework.FileCode.exec Store.handle
        (DNSMasq.createConfigFile .withoutTemplate .system "" []
          (DnsProxy.create { networkNoIp6 := true })) (.holding "old")
        { conn := ⟨twoNamesDb, none⟩, ambient := { faults := [false, false, true] } } =
        some ((.ok (), d'), s') ∧
      DnsProxy.activeNames twoNamesDb = ["a.example", "b.example"] ∧
      d'.content "/etc/unbound/dnsblocker.conf" =
        some "\naddress=/.a.example/127.0.0.1\n" ∧
      ¬ BackEnd.AllOrNothing "/etc/unbound/dnsblocker.conf"
        ((DNSMasq.backEnd { networkNoIp6 := true }).fileText .withoutTemplate .system "" []
          (DnsProxy.create { networkNoIp6 := true }) (DnsProxy.activeNames twoNamesDb))
        (.ok ()) (.holding "old") d' := by
  refine ⟨⟨_, _, rfl, rfl, ?_⟩, ⟨_, _, rfl, by decide +kernel, by decide +kernel, ?_⟩⟩
  · unfold BackEnd.AllOrNothing
    decide +kernel
  · unfold BackEnd.AllOrNothing
    decide +kernel

end DblService
