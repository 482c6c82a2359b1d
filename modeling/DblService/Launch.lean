import DblService.ConfigFile
import DblService.Configurator

/-!
# Starting the DNS proxy

The back end is created from the value of the option `dns-proxy` in lower case; the
program of that back end is named from the value as it was written, and started from
another field of the settings.
-/

namespace DblService

open Framework

def Settings.toConfig (s : Settings) : Config where
  isDebug := s .isDebug
  networkIp4Address := s .networkIp4address
  networkIp6Address := s .networkIp6address
  networkNoIp4 := s .networkNoIp4
  networkNoIp6 := s .networkNoIp6
  disableListUpdate := s .disableListUpdate
  listIds := s .listIds

def Settings.toProxyOptions (s : Settings) : ProxyOptions where
  baseDir := s .baseDir
  templatesDir := s .templatesDir
  noSystemDnsProxy := s .noSystemDnsProxy
  dnsProxyChroot := s .dnsProxyChroot
  dnsProxyConfig := s .dnsProxyConfig
  dnsProxyConfigDestDir := s .dnsProxyConfigDestDir
  dnsProxyDisableDnssec := s .dnsProxyDisableDnssec
  dnsProxyGenerateConfig := s .dnsProxyGenerateConfig
  dnsProxyIncludeDir := s .dnsProxyIncludeDir
  dnsProxyLogfile := s .dnsProxyLogfile
  dnsProxyPort := s .dnsProxyPort
  dnsProxyRootKey := s .dnsProxyRootKey
  dnsProxyUser := s .dnsProxyUser
  dnsProxyWorkdir := s .dnsProxyWorkdir

inductive Proxy
  | unbound
  | dnsmasq
  deriving DecidableEq

namespace Proxy

def name : Proxy → String
  | unbound => "unbound"
  | dnsmasq => "dnsmasq"

def backEnd (config : Settings) : Proxy → BackEnd
  | unbound => Unbound.backEnd config.toConfig config.toProxyOptions
  | dnsmasq => DNSMasq.backEnd config.toConfig

/-- `get_config_path` after `create_config`. -/
def configPath (config : Settings) (proxy : Proxy) : String :=
  if config .dnsProxyGenerateConfig then
    (proxy.backEnd config).configFilePath config.toProxyOptions
  else ""

def create (config : Settings) : Except Exc Proxy :=
  let name := ServiceConnection.toLower (config .dnsProxy)
  if name = "dnsmasq" then .ok dnsmasq
  else if name = "unbound" then .ok unbound
  else .error (.runtime ("No support for: " ++ name))

end Proxy

def validateOptions (po : Options) : Except Exc Unit :=
  let proxy := ServiceConnection.toLower ((po.vm.value .dnsProxy).getD "")
  if proxy ≠ "unbound" ∧ proxy ≠ "dnsmasq" then .error (.runtime "Invalid dnsproxy software")
  else .ok ()

/-- `fs::find_executable`; a path is executable where `stat` finds a file its owner may run. -/
def findExecutable (isExecutable : String → Bool) (name : String) : String :=
  let dirs := ["/bin", "/sbin", "/usr/bin", "/usr/sbin", "/usr/local/bin", "/usr/local/sbin"]
  ((dirs.map fun dir => dir ++ "/" ++ name).find? isExecutable).getD ""

namespace Configurator

def getProxyExecutableName (config : Settings) : Except Exc String :=
  if config .dnsProxy = "dnsmasq" then .ok "dnsmasq"
  else if config .dnsProxy = "unbound" then .ok "unbound"
  else .error (.runtime "Invalid dns proxy")

def findProxyExecutable (isExecutable : String → Bool) (config : Settings) :
    Except Exc String := do
  let executable ← if config .dnsProxyExecutable = "" then
      (findExecutable isExecutable) <$> getProxyExecutableName config
    else pure (config .dnsProxyExecutable)
  if executable = "" then throw (.runtime "Unable to locate dns proxy software")
  pure executable

end Configurator

inductive Start
  -- the service of the system is restarted, and waited for under a name
  | service (name program : String)
  | command (cmd : String)

/-- `Unix::start_dns_proxy` up to the program it runs. -/
def startDnsProxy (isExecutable : String → Bool) (config : Settings) (proxy : Proxy) :
    Except Exc Start := do
  if !config .noSystemDnsProxy then
    let program ← Configurator.getProxyExecutableName config
    pure (.service (config .dnsProxy) program)
  else
    let cmd ← Configurator.findProxyExecutable isExecutable config
    if cmd = "" then throw (.runtime "Unable to find dns proxy executable")
    pure (.command (cmd ++ " -v " ++ " -c " ++ proxy.configPath config))

/-! ## The program that is started -/

def fileName (path : String) : String :=
  String.ofList (path.toList.reverse.takeWhile (· ≠ '/')).reverse

/-- The program of the back end that was created is the one that is named and started. -/
structure StartsConfigured (isExecutable : String → Bool) (config : Settings) (proxy : Proxy) :
    Prop where
  created : Proxy.create config = .ok proxy
  named : Configurator.getProxyExecutableName config = .ok proxy.name
  found : ∃ program, Configurator.findProxyExecutable isExecutable config = .ok program ∧
    fileName program = proxy.name
  started : config .noSystemDnsProxy = true → ∃ program, fileName program = proxy.name ∧
    startDnsProxy isExecutable config proxy =
      .ok (.command (program ++ " -v " ++ " -c " ++ proxy.configPath config))

namespace Options

variable {sysname : String} {disk : String → ConfigPath} {argv : List (Opt × List String)}
  {config : Settings} {p : Options}

private theorem config_of_unbound {f : Field} (hf : ∀ o ∈ Opt.all, o.target ≠ .field f)
    (h : parse (some sysname) disk argv config = .ok p) : p.config f = config f := by
  have hnotify : ∀ (vm : VariablesMap Opt.Value) (s : Settings), notify vm s f = s f := by
    intro vm s
    apply VariablesMap.notify_frame (fun s : Settings => s f)
    intro o _ x _ s'
    have hread := Target.read_write_of_ne (Ne.symm (hf o o.mem_all)) x s'
    exact Option.some.inj hread
  obtain ⟨vm, _, rfl | ⟨_, _, hconfig⟩⟩ := parse_ok h
  · exact hnotify vm config
  · rw [hconfig, hnotify, hnotify]

private theorem dnsProxyExecutable_unbound :
    ∀ o ∈ Opt.all, o.target ≠ .field .dnsProxyExecutable := by
  decide +kernel

private theorem dnsProxy_parse (h : parse (some sysname) disk argv config = .ok p) :
    p.vm.value .dnsProxy = some (p.config .dnsProxy) := by
  have hfield : Opt.dnsProxy.target.read p.config = _ := read_parse h rfl (by decide)
  rw [value_parse h]
  cases hgiven : Opt.dnsProxy.given argv with
  | some x =>
    rw [hgiven] at hfield
    exact hfield.symm
  | none =>
    rw [hgiven] at hfield
    exact hfield.symm

private theorem create_of_validate (h : parse (some sysname) disk argv config = .ok p)
    (hvalid : validateOptions p = .ok ()) : ∃ proxy, Proxy.create p.config = .ok proxy := by
  have hvalue := dnsProxy_parse h
  by_cases hmasq : ServiceConnection.toLower (p.config .dnsProxy) = "dnsmasq"
  · exact ⟨.dnsmasq, by simp [Proxy.create, hmasq]⟩
  · by_cases hbound : ServiceConnection.toLower (p.config .dnsProxy) = "unbound"
    · exact ⟨.unbound, by simp [Proxy.create, hbound]⟩
    · simp [validateOptions, hvalue, hmasq, hbound] at hvalid

private theorem findProxyExecutable_parse (isExecutable : String → Bool)
    (h : parse (some sysname) disk argv .unix = .ok p) :
    Configurator.findProxyExecutable isExecutable p.config = .ok "unbound" := by
  have hfield : p.config .dnsProxyExecutable = "unbound" :=
    config_of_unbound dnsProxyExecutable_unbound h
  simp [Configurator.findProxyExecutable, hfield, bind, Except.bind, pure, Except.pure]

private theorem fileName_unbound : fileName "unbound" = "unbound" := by decide +kernel

private theorem dnsProxy_of_startsConfigured {isExecutable : String → Bool} {proxy : Proxy}
    (h : parse (some sysname) disk argv .unix = .ok p)
    (hstarts : StartsConfigured isExecutable p.config proxy) : p.config .dnsProxy = "unbound" := by
  obtain ⟨program, hprogram, hname⟩ := hstarts.found
  rw [findProxyExecutable_parse isExecutable h] at hprogram
  cases hprogram
  have hproxy : proxy = .unbound := by
    cases proxy with
    | unbound => rfl
    | dnsmasq => simp [fileName_unbound, Proxy.name] at hname
  have hnamed := hstarts.named
  rw [hproxy] at hnamed
  by_contra hne
  by_cases hmasq : p.config .dnsProxy = "dnsmasq" <;>
    simp [Configurator.getProxyExecutableName, hne, hmasq, Proxy.name] at hnamed

/-- After `parse` and with an accepted proxy a back end is created, and its program is the one
that is named and started exactly when the value of the option is `unbound` as it stands. -/
theorem startsConfigured_iff (isExecutable : String → Bool) (sysname : String)
    (disk : String → ConfigPath) (argv : List (Opt × List String)) (p : Options)
    (h : parse (some sysname) disk argv .unix = .ok p) (hvalid : validateOptions p = .ok ()) :
    (∃ proxy, Proxy.create p.config = .ok proxy) ∧
      ((∃ proxy, StartsConfigured isExecutable p.config proxy) ↔
        p.config .dnsProxy = "unbound") := by
  apply And.intro (create_of_validate h hvalid)
  constructor
  · rintro ⟨proxy, hstarts⟩
    exact dnsProxy_of_startsConfigured h hstarts
  · intro hdns
    have hfound := findProxyExecutable_parse isExecutable h
    apply Exists.intro Proxy.unbound
    constructor
    · have hlower : ServiceConnection.toLower "unbound" = "unbound" := by decide +kernel
      simp [Proxy.create, hdns, hlower]
    · simp [Configurator.getProxyExecutableName, hdns, Proxy.name]
    · exact ⟨"unbound", hfound, fileName_unbound⟩
    · intro hown
      apply Exists.intro "unbound"
      apply And.intro fileName_unbound
      simp [startDnsProxy, hown, hfound, bind, Except.bind, pure, Except.pure]

private theorem exists_parse_dnsProxy (value : String) :
    ∃ p, parse (some "Linux") (fun _ => .file []) [(.dnsProxy, [value])] .unix = .ok p ∧
      p.config .dnsProxy = value := by
  obtain ⟨p, hp⟩ : ∃ p, parse (some "Linux") (fun _ => .file []) [(.dnsProxy, [value])] .unix =
      .ok p := exists_parse rfl rfl fun _ => ⟨[], rfl⟩
  have hfield : Opt.dnsProxy.target.read p.config = _ := read_parse hp rfl (by decide)
  exact ⟨p, hp, Option.some.inj hfield⟩

private theorem validateOptions_ok {value : String}
    (h : parse (some sysname) disk argv config = .ok p) (hvalue : p.config .dnsProxy = value)
    (hlower : ServiceConnection.toLower value = "unbound" ∨
      ServiceConnection.toLower value = "dnsmasq") : validateOptions p = .ok () := by
  rcases hlower with hlower | hlower <;>
    simp [validateOptions, dnsProxy_parse h, hvalue, hlower]

/-- The value as the sample file writes it. -/
theorem startsConfigured_unbound :
    ∃ p, parse (some "Linux") (fun _ => .file []) [(.dnsProxy, ["unbound"])] .unix = .ok p ∧
      (∃ proxy, Proxy.create p.config = .ok proxy) ∧
      ∃ proxy, StartsConfigured (fun _ => true) p.config proxy := by
  obtain ⟨p, hp, hvalue⟩ := exists_parse_dnsProxy "unbound"
  obtain ⟨hcreated, hstarts⟩ := startsConfigured_iff (fun _ => true) "Linux" (fun _ => .file [])
    [(.dnsProxy, ["unbound"])] p hp (validateOptions_ok hp hvalue (.inl (by decide +kernel)))
  exact ⟨p, hp, hcreated, hstarts.mpr hvalue⟩

/-- In upper case the back end is created and its name is refused; for the other back end the
program of this one is started. -/
theorem startsConfigured_upper :
    (∃ p, parse (some "Linux") (fun _ => .file []) [(.dnsProxy, ["Unbound"])] .unix = .ok p ∧
        validateOptions p = .ok () ∧ Proxy.create p.config = .ok .unbound ∧
        Configurator.getProxyExecutableName p.config = .error (.runtime "Invalid dns proxy") ∧
        ¬ ∃ proxy, StartsConfigured (fun _ => true) p.config proxy) ∧
      ∃ p, parse (some "Linux") (fun _ => .file []) [(.dnsProxy, ["dnsmasq"])] .unix = .ok p ∧
        validateOptions p = .ok () ∧ Proxy.create p.config = .ok .dnsmasq ∧
        Configurator.findProxyExecutable (fun _ => true) p.config = .ok "unbound" ∧
        ¬ ∃ proxy, StartsConfigured (fun _ => true) p.config proxy := by
  have hupper : ServiceConnection.toLower "Unbound" = "unbound" := by decide +kernel
  have hlower : ServiceConnection.toLower "dnsmasq" = "dnsmasq" := by decide +kernel
  constructor
  · obtain ⟨p, hp, hvalue⟩ := exists_parse_dnsProxy "Unbound"
    apply Exists.intro p
    apply And.intro hp
    apply And.intro (validateOptions_ok hp hvalue (.inl hupper))
    constructor
    · simp [Proxy.create, hvalue, hupper]
    constructor
    · simp [Configurator.getProxyExecutableName, hvalue]
    · rintro ⟨proxy, hstarts⟩
      have hdns := dnsProxy_of_startsConfigured hp hstarts
      simp [hvalue] at hdns
  · obtain ⟨p, hp, hvalue⟩ := exists_parse_dnsProxy "dnsmasq"
    apply Exists.intro p
    apply And.intro hp
    apply And.intro (validateOptions_ok hp hvalue (.inr hlower))
    constructor
    · simp [Proxy.create, hvalue, hlower]
    apply And.intro (findProxyExecutable_parse _ hp)
    rintro ⟨proxy, hstarts⟩
    have hdns := dnsProxy_of_startsConfigured hp hstarts
    simp [hvalue] at hdns

end Options

end DblService
