import DblService.Framework.ProgramOptions
import DblService.Service.ServiceConnection
import Mathlib.Data.String.Basic

/-!
# The options

The command line is stored before the configuration file, so that its values win.  The
file names an option under a heading `section.option`; what it does not name by the
name of an option is ignored.
-/

namespace DblService

open Framework

/-- The types of the values; an option without one, as `help`, stores its text. -/
inductive Kind
  | untyped
  | flag
  | int
  | string
  | strings
  deriving DecidableEq

@[reducible] def Kind.Value : Kind → Type
  | .flag => Bool
  | .int => Int
  | .untyped | .string => String
  | .strings => List String

inductive Field
  | isDebug
  | isFatal
  | isForeground
  | isTest
  | isVerbose
  | noChdir
  | noCloseFds
  | platform
  | baseDir
  | dbDir
  | logFile
  | templatesDir
  | scriptDir
  | loggerConfigPath
  | servicePort
  | httpResponderEnable
  | httpResponderPort
  | httpResponderStatusCode
  | httpResponderStatusText
  | networkIp4address
  | networkIp6address
  | networkInterface
  | networkNoIp4
  | networkNoIp6
  | noSystemDnsProxy
  | noUpdate
  | updateInterval
  | dnsProxy
  | dnsProxyChroot
  | dnsProxyConfig
  | dnsProxyConfigDestDir
  | dnsProxyDisableDnssec
  | dnsProxyExecutable
  | dnsProxyIncludeDir
  | dnsProxyGenerateConfig
  | dnsProxyLogfile
  | dnsProxyPort
  | dnsProxyPidfile
  | dnsProxyRootKey
  | dnsProxyUser
  | dnsProxyWorkdir
  | serviceDb
  | serviceConfig
  | serviceLogfile
  | servicePidfile
  | serviceUser
  | disableListUpdate
  | listIds
  deriving DecidableEq

@[reducible] def Field.kind : Field → Kind
  | .isDebug | .isFatal | .isForeground | .isTest | .isVerbose | .noChdir | .noCloseFds
  | .httpResponderEnable | .networkNoIp4 | .networkNoIp6 | .noSystemDnsProxy | .noUpdate
  | .dnsProxyDisableDnssec | .dnsProxyGenerateConfig | .disableListUpdate => .flag
  | .servicePort | .httpResponderPort | .httpResponderStatusCode | .updateInterval
  | .dnsProxyPort => .int
  | .listIds => .strings
  | _ => .string

abbrev Settings := (f : Field) → f.kind.Value

def Settings.unix : Settings
  | .isDebug | .isFatal | .isForeground | .isTest | .isVerbose | .noChdir | .noCloseFds
  | .networkNoIp4 | .networkNoIp6 | .noSystemDnsProxy | .noUpdate | .dnsProxyDisableDnssec
  | .dnsProxyGenerateConfig | .disableListUpdate => false
  | .httpResponderEnable => true
  | .platform => "unix"
  | .baseDir => "/etc/dnsblocker"
  | .dbDir => "/var/lib/dnsblocker"
  | .logFile => "/var/log/dnsblocker/dnsblocker.log"
  | .templatesDir => "/etc/dnsblocker/templates"
  | .scriptDir => "/etc/dnsblocker/scripts/unix"
  | .loggerConfigPath => "/etc/dnsblocker/log.conf"
  | .servicePort => (7654 : Int)
  | .httpResponderPort => (80 : Int)
  | .httpResponderStatusCode => (404 : Int)
  | .httpResponderStatusText => "Not found"
  | .networkIp4address => "127.0.0.1"
  | .networkIp6address => "::1"
  | .networkInterface => "lo"
  | .updateInterval => (3600 : Int)
  | .dnsProxy => "unbound"
  | .dnsProxyChroot => ""
  | .dnsProxyConfig => ""
  | .dnsProxyConfigDestDir => "/var/run/dnsblocker"
  | .dnsProxyExecutable => "unbound"
  | .dnsProxyIncludeDir => "/etc/unbound/unbound.conf.d"
  | .dnsProxyLogfile => "/var/log/dnsblocker/proxy.log"
  | .dnsProxyPort => (53 : Int)
  | .dnsProxyPidfile => "/var/run/dnsblocker/proxy.pid"
  | .dnsProxyRootKey => "/etc/dnsblocker/dnssec/root.key"
  | .dnsProxyUser => "unbound"
  | .dnsProxyWorkdir => "/etc/dnsblocker"
  | .serviceDb => "/var/lib/dnsblocker/dbsblocker.db"
  | .serviceConfig => "/etc/dnsblocker/dnsblocker.conf"
  | .serviceLogfile => "/var/log/dnsblocker/service.log"
  | .servicePidfile => "/var/run/dnsblocker/service.pid"
  | .serviceUser => "dnsblocker"
  | .listIds => ["CUSTOM"]

/-- An option, what it is bound to and its default, given the name of the platform and the
settings that `parse` is called with. -/
structure Description where
  name : String
  target : Target Kind Field
  default : String → Settings → Option (target.kind Field.kind).Value := fun _ _ => none

/-- The options by their long names. -/
inductive Opt
  | help
  | debug
  | fatal
  | foreground
  | verbose
  | test
  | basedir
  | config
  | noConfig
  | db
  | logfile
  | loggerConfigPath
  | noChdir
  | noCloseFds
  | pidfile
  | platform
  | servicePort
  | scriptDir
  | serviceUser
  | templatesDir
  | noSystemDnsProxy
  | noUpdate
  | updateInterval
  | disableListUpdate
  | listIds
  | dnsProxy
  | dnsProxyIncludeDir
  | dnsProxyChroot
  | dnsProxyConfig
  | dnsProxyConfigDestdir
  | dnsProxyDisableDnssec
  | dnsProxyGenerateConfig
  | dnsProxyLogfile
  | dnsProxyPidfile
  | dnsProxyPort
  | dnsProxyRootKey
  | dnsProxyUser
  | dnsProxyWorkdir
  | networkInterface
  | networkIp4address
  | networkIp6address
  | networkNoIp4
  | networkNoIp6
  | httpResponderEnable
  | httpResponderPort
  | httpResponderStatusCode
  | httpResponderStatusText
  | query
  | domainLists
  | domains
  | domain
  | block
  | unblock
  | addList
  | listName
  | listUrl
  | listDescription
  | deleteList
  | enableList
  | disableList
  | exportLists
  deriving DecidableEq

namespace Opt

@[reducible] def description : Opt → Description
  | help => ⟨"help", .other .untyped, fun _ _ => none⟩
  | debug => ⟨"debug", .field .isDebug, fun _ _ => some false⟩
  | fatal => ⟨"fatal", .field .isFatal, fun _ _ => some false⟩
  | foreground => ⟨"foreground", .field .isForeground, fun _ _ => some false⟩
  | verbose => ⟨"verbose", .field .isVerbose, fun _ _ => some false⟩
  | test => ⟨"test", .field .isTest, fun _ _ => some false⟩
  | basedir => ⟨"basedir", .field .baseDir, fun _ c => some (c .baseDir)⟩
  | config => ⟨"config", .field .serviceConfig, fun _ c => some (c .serviceConfig)⟩
  -- bound to the local `no_config`, which is false when the default is taken from it
  | noConfig => ⟨"no-config", .other .flag, fun _ _ => some false⟩
  | db => ⟨"db", .field .serviceDb, fun _ c => some (c .serviceDb)⟩
  | logfile => ⟨"logfile", .field .serviceLogfile, fun _ c => some (c .serviceLogfile)⟩
  | loggerConfigPath =>
    ⟨"logger-config-path", .field .loggerConfigPath, fun _ c => some (c .loggerConfigPath)⟩
  | noChdir => ⟨"no-chdir", .field .noChdir, fun _ _ => some false⟩
  -- bound to the same member as the option before it
  | noCloseFds => ⟨"no-close-fds", .field .noChdir, fun _ _ => some false⟩
  | pidfile => ⟨"pidfile", .field .servicePidfile, fun _ c => some (c .servicePidfile)⟩
  | platform => ⟨"platform", .field .platform, fun platform _ => some platform⟩
  | servicePort => ⟨"service-port", .field .servicePort, fun _ c => some (c .servicePort)⟩
  | scriptDir => ⟨"script-dir", .field .scriptDir, fun _ c => some (c .scriptDir)⟩
  | serviceUser => ⟨"service-user", .field .serviceUser, fun _ c => some (c .serviceUser)⟩
  | templatesDir => ⟨"templates-dir", .field .templatesDir, fun _ c => some (c .templatesDir)⟩
  | noSystemDnsProxy => ⟨"no-system-dns-proxy", .field .noSystemDnsProxy, fun _ _ => some false⟩
  | noUpdate => ⟨"no-update", .field .noUpdate, fun _ _ => some false⟩
  | updateInterval =>
    ⟨"update-interval", .field .updateInterval, fun _ c => some (c .updateInterval)⟩
  | disableListUpdate =>
    ⟨"disable-list-update", .field .disableListUpdate, fun _ c => some (c .disableListUpdate)⟩
  | listIds => ⟨"list-ids", .field .listIds, fun _ _ => none⟩
  | dnsProxy => ⟨"dns-proxy", .field .dnsProxy, fun _ c => some (c .dnsProxy)⟩
  | dnsProxyIncludeDir =>
    ⟨"dns-proxy-include-dir", .field .dnsProxyIncludeDir, fun _ c => some (c .dnsProxyIncludeDir)⟩
  | dnsProxyChroot =>
    ⟨"dns-proxy-chroot", .field .dnsProxyChroot, fun _ c => some (c .dnsProxyChroot)⟩
  | dnsProxyConfig => ⟨"dns-proxy-config", .field .dnsProxyConfig, fun _ _ => some ""⟩
  | dnsProxyConfigDestdir =>
    ⟨"dns-proxy-config-destdir", .field .dnsProxyConfigDestDir,
      fun _ c => some (c .dnsProxyConfigDestDir)⟩
  | dnsProxyDisableDnssec =>
    ⟨"dns-proxy-disable-dnssec", .field .dnsProxyDisableDnssec,
      fun _ c => some (c .dnsProxyDisableDnssec)⟩
  | dnsProxyGenerateConfig =>
    ⟨"dns-proxy-generate-config", .field .dnsProxyGenerateConfig,
      fun _ c => some (c .dnsProxyGenerateConfig)⟩
  | dnsProxyLogfile =>
    ⟨"dns-proxy-logfile", .field .dnsProxyLogfile, fun _ c => some (c .dnsProxyLogfile)⟩
  | dnsProxyPidfile =>
    ⟨"dns-proxy-pidfile", .field .dnsProxyPidfile, fun _ c => some (c .dnsProxyPidfile)⟩
  | dnsProxyPort => ⟨"dns-proxy-port", .field .dnsProxyPort, fun _ c => some (c .dnsProxyPort)⟩
  | dnsProxyRootKey =>
    ⟨"dns-proxy-root-key", .field .dnsProxyRootKey, fun _ c => some (c .dnsProxyRootKey)⟩
  | dnsProxyUser => ⟨"dns-proxy-user", .field .dnsProxyUser, fun _ c => some (c .dnsProxyUser)⟩
  | dnsProxyWorkdir =>
    ⟨"dns-proxy-workdir", .field .dnsProxyWorkdir, fun _ c => some (c .dnsProxyWorkdir)⟩
  | networkInterface =>
    ⟨"network-interface", .field .networkInterface, fun _ c => some (c .networkInterface)⟩
  | networkIp4address =>
    ⟨"network-ip4address", .field .networkIp4address, fun _ c => some (c .networkIp4address)⟩
  | networkIp6address =>
    ⟨"network-ip6address", .field .networkIp6address, fun _ c => some (c .networkIp6address)⟩
  | networkNoIp4 => ⟨"network-no-ip4", .field .networkNoIp4, fun _ c => some (c .networkNoIp4)⟩
  | networkNoIp6 => ⟨"network-no-ip6", .field .networkNoIp6, fun _ c => some (c .networkNoIp6)⟩
  | httpResponderEnable =>
    ⟨"http-responder-enable", .field .httpResponderEnable, fun _ _ => some false⟩
  | httpResponderPort =>
    ⟨"http-responder-port", .field .httpResponderPort, fun _ c => some (c .httpResponderPort)⟩
  | httpResponderStatusCode =>
    ⟨"http-responder-status-code", .field .httpResponderStatusCode,
      fun _ c => some (c .httpResponderStatusCode)⟩
  | httpResponderStatusText =>
    ⟨"http-responder-status-text", .field .httpResponderStatusText,
      fun _ c => some (c .httpResponderStatusText)⟩
  | query => ⟨"query", .other .flag, fun _ _ => some false⟩
  | domainLists => ⟨"domain-lists", .other .flag, fun _ _ => some false⟩
  | domains => ⟨"domains", .other .flag, fun _ _ => some false⟩
  | domain => ⟨"domain", .other .string, fun _ _ => some ""⟩
  | block => ⟨"block", .other .strings, fun _ _ => none⟩
  | unblock => ⟨"unblock", .other .strings, fun _ _ => none⟩
  | addList => ⟨"add-list", .other .flag, fun _ _ => some false⟩
  | listName => ⟨"list-name", .other .string, fun _ _ => some ""⟩
  | listUrl => ⟨"list-url", .other .string, fun _ _ => some ""⟩
  | listDescription => ⟨"list-description", .other .string, fun _ _ => some ""⟩
  | deleteList => ⟨"delete-list", .other .string, fun _ _ => some ""⟩
  | enableList => ⟨"enable-list", .other .string, fun _ _ => some ""⟩
  | disableList => ⟨"disable-list", .other .string, fun _ _ => some ""⟩
  | exportLists => ⟨"export-lists", .other .string, fun _ _ => some ""⟩

def all : List Opt :=
  [help, debug, fatal, foreground, verbose, test,
    basedir, config, noConfig, db, logfile, loggerConfigPath, noChdir, noCloseFds, pidfile,
    platform, servicePort, scriptDir, serviceUser, templatesDir, noSystemDnsProxy, noUpdate,
    updateInterval,
    networkInterface, networkIp4address, networkIp6address, networkNoIp4, networkNoIp6,
    dnsProxy, dnsProxyIncludeDir,
    dnsProxyChroot, dnsProxyConfig, dnsProxyConfigDestdir, dnsProxyDisableDnssec,
    dnsProxyGenerateConfig, dnsProxyLogfile, dnsProxyPidfile, dnsProxyPort, dnsProxyRootKey,
    dnsProxyUser, dnsProxyWorkdir,
    httpResponderEnable, httpResponderPort, httpResponderStatusCode, httpResponderStatusText,
    disableListUpdate, listIds,
    block, unblock, addList, listName, listUrl, listDescription, deleteList, enableList,
    disableList, exportLists,
    query, domainLists, domains, domain]

def name (o : Opt) : String := o.description.name

@[reducible] def target (o : Opt) : Target Kind Field := o.description.target

abbrev Value (o : Opt) : Type := (o.target.kind Field.kind).Value

def default (platform : String) (config : Settings) (o : Opt) : Option o.Value :=
  o.description.default platform config

theorem mem_all (o : Opt) : o ∈ all := by
  cases o <;> decide

end Opt

/-! ## Reading values -/

/-- What `parse` throws: an error of `program_options` with a text of its own, or one of
the program. -/
inductive OptionsError
  | programOptions
  | runtime (what : String)

def lexicalCast (s : String) : Option Int :=
  let number (digits : List Char) : Option Nat :=
    if digits ≠ [] ∧ digits.all Char.isDigit then
      some (digits.foldl (fun n c => 10 * n + (c.toNat - '0'.toNat)) 0)
    else none
  let value : Option Int := match s.toList with
    | '-' :: digits => (number digits).map fun n => -(n : Int)
    | '+' :: digits => (number digits).map fun n => (n : Int)
    | digits => (number digits).map fun n => (n : Int)
  value.filter Json.isInt

/-- The texts of a `bool`. -/
def readBool (s : String) : Option Bool :=
  let lower := ServiceConnection.toLower s
  if lower ∈ ["", "on", "yes", "1", "true"] then some true
  else if lower ∈ ["off", "no", "0", "false"] then some false
  else none

def single {α : Type} (previous : Option α) : List String → Option String
  | [token] => if previous.isSome then none else some token
  | _ => none

/-- The value of an option after one more occurrence with these tokens. -/
def Kind.read : (k : Kind) → Option k.Value → List String → Option k.Value
  | .untyped, previous, [] => if previous.isSome then none else some ""
  | .untyped, previous, tokens => single previous tokens
  -- the implicit value, also where there is one already
  | .flag, _, [] => some true
  | .flag, previous, tokens => (single previous tokens).bind readBool
  | .int, previous, tokens => (single previous tokens).bind lexicalCast
  | .string, previous, tokens => single previous tokens
  | .strings, previous, tokens => some (previous.getD [] ++ tokens)

def Kind.takes : Kind → Nat → Bool
  | .untyped, n | .flag, n => n = 0
  | .int, n | .string, n => n = 1
  | .strings, n => 1 ≤ n

def Opt.parse (o : Opt) (previous : Option o.Value) (tokens : List String) :
    Except OptionsError o.Value :=
  match (o.target.kind Field.kind).read previous tokens with
  | some x => .ok x
  | none => .error .programOptions

/-! ## The configuration file -/

structure FileSection where
  heading : String
  lines : List (String × String)

/-- What the names of the lines under a heading are put behind. -/
def FileSection.start (s : FileSection) : String :=
  if s.heading.toList.getLast? = some '.' then s.heading else s.heading ++ "."

def FileSection.keys (s : FileSection) : List (String × String) :=
  s.lines.map fun line => (s.start ++ line.1, line.2)

/-- The option of exactly this name. -/
def Opt.ofName (key : String) : Option Opt := Opt.all.find? fun o => o.name = key

/-- `po::parse_config_file` where unknown names are allowed. -/
def parseConfigFile (file : List FileSection) : List (Opt × List String) :=
  (file.flatMap FileSection.keys).filterMap fun line =>
    (Opt.ofName line.1).map fun o => (o, [line.2])

inductive ConfigPath
  | missing
  | unreadable
  | file (sections : List FileSection)

/-! ## `Options::parse` -/

/-- The options in the order of their names, which is that of the variables map. -/
def Opt.order : List Opt := Opt.all.mergeSort fun a b => a.name ≤ b.name

def notify (vm : VariablesMap Opt.Value) (config : Settings) : Settings :=
  vm.notify (fun o x s => o.target.write x s) Opt.order config

/-- The variables map and the settings after `parse`. -/
structure Options where
  vm : VariablesMap Opt.Value
  config : Settings

def Options.hasHelp (vm : VariablesMap Opt.Value) : Bool := (vm .help).isSome

def Options.noConfig (vm : VariablesMap Opt.Value) : Bool := (vm.value .noConfig).getD false

/-- The name of the system comes from `uname`, which may fail. -/
def Options.parse (uname : Option String) (disk : String → ConfigPath)
    (argv : List (Opt × List String)) (config : Settings) : Except OptionsError Options := do
  let some sysname := uname | throw (.runtime "uname() failed")
  let default := Opt.default (ServiceConnection.toLower sysname) config
  if !argv.all (fun x => (x.1.target.kind Field.kind).takes x.2.length) then
    throw .programOptions
  let vm ← VariablesMap.store Opt.parse default .empty argv
  let config := notify vm config
  if hasHelp vm then return ⟨vm, config⟩
  if noConfig vm then return ⟨vm, config⟩
  match disk (config .serviceConfig) with
  | .missing =>
    throw (.runtime ("Configuration file does not exist: " ++ config .serviceConfig))
  | .unreadable => throw (.runtime "Cannot read configuration file")
  | .file sections =>
    let vm ← VariablesMap.store Opt.parse default vm (parseConfigFile sections)
    return ⟨vm, notify vm config⟩

namespace Opt

/-! ## The options and their fields -/

def isField (o : Opt) : Bool := o.target.isField

private theorem nodup_all : all.Nodup := by decide +kernel

private theorem target_cases : ∀ o ∈ all, ∀ o' ∈ all, o.isField = true → o.target = o'.target →
    o = o' ∨ (o = noChdir ∧ o' = noCloseFds) ∨ (o = noCloseFds ∧ o' = noChdir) := by
  decide +kernel

private theorem dot_not_mem : (all.all fun o => !o.name.toList.contains '.') = true := by
  decide +kernel

private theorem noChdir_lt : noChdir.name < noCloseFds.name := by decide +kernel

private theorem nodup_order : order.Nodup := (List.mergeSort_perm _ _).nodup_iff.mpr nodup_all

private theorem sorted_order : order.Pairwise fun a b => a.name ≤ b.name := by
  have h : order.Pairwise fun a b => decide (a.name ≤ b.name) = true := by
    apply List.pairwise_mergeSort
    · intro a b c hab hbc
      simpa using le_trans (of_decide_eq_true hab) (of_decide_eq_true hbc)
    · intro a b
      simpa using le_total a.name b.name
  exact h.imp fun hab => of_decide_eq_true hab

end Opt

/-! ## Names in a file -/

private theorem FileSection.dot_mem_start (s : FileSection) : '.' ∈ s.start.toList := by
  by_cases h : s.heading.toList.getLast? = some '.'
  · simp only [start, h, if_true]
    exact List.mem_of_getLast? h
  · simp [start, h]

private theorem Opt.ofName_start (s : FileSection) (name : String) :
    ofName (s.start ++ name) = none := by
  simp only [ofName, List.find?_eq_none, decide_eq_true_eq]
  intro o ho hname
  have hdot : '.' ∈ o.name.toList := by
    rw [hname, String.toList_append]
    exact List.mem_append_left _ s.dot_mem_start
  have hall := List.all_eq_true.mp dot_not_mem o ho
  simp [hdot] at hall

private theorem parseConfigFile_eq_nil (file : List FileSection) : parseConfigFile file = [] := by
  simp only [parseConfigFile, List.filterMap_eq_nil_iff]
  intro line hline
  obtain ⟨s, _, hs⟩ := List.mem_flatMap.mp hline
  obtain ⟨l, _, rfl⟩ := List.mem_map.mp hs
  simp [Opt.ofName_start]

/-! ## The value that an option is given -/

def Opt.given (o : Opt) (occurrences : List (Opt × List String)) : Option o.Value :=
  (VariablesMap.collect Opt.parse o none (VariablesMap.occurrencesOf o occurrences)).toOption.join

/-- The lines of a file under the names they are written with. -/
def namedLines (file : List FileSection) : List (Opt × List String) :=
  (file.flatMap FileSection.lines).filterMap fun line =>
    (Opt.ofName line.1).map fun o => (o, [line.2])

/-! ## What a run of `parse` leaves -/

namespace Options

private theorem target_ne {o o' : Opt} (ho : o.isField = true) (hne : o ≠ .noChdir) (ho' : o' ≠ o)
    (hpair : o = .noCloseFds → o' ≠ .noChdir) : o.target ≠ o'.target := by
  intro htarget
  rcases Opt.target_cases o (Opt.mem_all o) o' (Opt.mem_all o') ho htarget with
    heq | ⟨hc, _⟩ | ⟨hf, hc⟩
  · exact ho' heq.symm
  · exact hne hc
  · exact hpair hf hc

private theorem read_notify {vm : VariablesMap Opt.Value}
    (hstored : (vm.value .noCloseFds).isSome = true) {o : Opt} (ho : o.isField = true)
    (hne : o ≠ .noChdir) (config : Settings) :
    o.target.read (notify vm config) = (vm.value o).or (o.target.read config) := by
  cases hx : vm.value o with
  | none =>
    have hpair : o ≠ .noCloseFds := by
      intro heq
      subst heq
      simp [hx] at hstored
    apply VariablesMap.notify_frame o.target.read
    intro o' _ y hy s
    apply Target.read_write_of_ne
    apply target_ne ho hne
    · intro heq
      subst heq
      simp [hx] at hy
    · intro heq
      exact absurd heq hpair
  | some x =>
    have hmem : o ∈ Opt.order := List.mem_mergeSort.mpr o.mem_all
    obtain ⟨pre, post, horder⟩ := List.append_of_mem hmem
    have hnodup : (pre ++ o :: post).Nodup := horder ▸ Opt.nodup_order
    have hsorted : (pre ++ o :: post).Pairwise fun a b => a.name ≤ b.name :=
      horder ▸ Opt.sorted_order
    have hlast : ∀ o' ∈ post, o.target ≠ o'.target := by
      intro o' ho'
      apply target_ne ho hne
      · intro heq
        subst heq
        exact (List.nodup_cons.mp (List.nodup_append.mp hnodup).2.1).1 ho'
      · -- the other option of the shared field is written before
        intro hfds hchdir
        have hle := (List.pairwise_cons.mp (List.pairwise_append.mp hsorted).2.1).1 o' ho'
        rw [hfds, hchdir] at hle
        exact absurd Opt.noChdir_lt (not_lt_of_ge hle)
    rw [notify, horder]
    apply VariablesMap.notify_last o.target.read hx
    · intro s
      exact Target.read_write ho x s
    · intro o' ho' y _ s
      exact Target.read_write_of_ne (hlast o' ho') y s

variable {sysname : String} {disk : String → ConfigPath} {argv : List (Opt × List String)}
  {config : Settings} {p : Options}

private theorem parse_takes (h : parse (some sysname) disk argv config = .ok p) :
    argv.all (fun x => (x.1.target.kind Field.kind).takes x.2.length) = true := by
  cases htakes : argv.all fun x => (x.1.target.kind Field.kind).takes x.2.length with
  | true => rfl
  | false =>
    simp [parse, htakes, bind, Except.bind, throw, throwThe, MonadExceptOf.throw] at h

/-- What `parse` does before it looks for the file. -/
theorem parse_ok (h : parse (some sysname) disk argv config = .ok p) :
    ∃ vm, VariablesMap.store Opt.parse (Opt.default (ServiceConnection.toLower sysname) config)
        .empty argv = .ok vm ∧
      (p = ⟨vm, notify vm config⟩ ∨ ∃ sections,
        VariablesMap.store Opt.parse (Opt.default (ServiceConnection.toLower sysname) config)
          vm (parseConfigFile sections) = .ok p.vm ∧
        p.config = notify p.vm (notify vm config)) := by
  have htakes := parse_takes h
  cases hstore : VariablesMap.store Opt.parse
      (Opt.default (ServiceConnection.toLower sysname) config) .empty argv with
  | error e =>
    simp [parse, htakes, hstore, bind, Except.bind] at h
  | ok vm =>
    apply Exists.intro vm
    apply And.intro rfl
    simp only [parse, htakes, hstore, bind, Except.bind, Bool.not_true, Bool.false_eq_true,
      if_false, pure, Except.pure] at h
    split_ifs at h with hhelp hconfig
    · exact .inl (Except.ok.inj h).symm
    · exact .inl (Except.ok.inj h).symm
    · cases hdisk : disk (notify vm config .serviceConfig) with
      | missing => simp [hdisk, throw, throwThe, MonadExceptOf.throw] at h
      | unreadable => simp [hdisk, throw, throwThe, MonadExceptOf.throw] at h
      | file sections =>
        simp only [hdisk] at h
        cases hfile : VariablesMap.store Opt.parse
            (Opt.default (ServiceConnection.toLower sysname) config) vm
            (parseConfigFile sections) with
        | error e => simp [hfile] at h
        | ok vm₂ =>
          simp only [hfile, Except.ok.injEq] at h
          cases h
          exact .inr ⟨sections, hfile, rfl⟩

private theorem given_argv {vm : VariablesMap Opt.Value} {default : (o : Opt) → Option o.Value}
    (h : VariablesMap.store Opt.parse default .empty argv = .ok vm) (o : Opt) :
    vm.given o = o.given argv := by
  rw [Opt.given, VariablesMap.given_store rfl h]
  rfl

private theorem value_argv {vm : VariablesMap Opt.Value} {default : (o : Opt) → Option o.Value}
    (h : VariablesMap.store Opt.parse default .empty argv = .ok vm) (o : Opt) :
    vm.value o = (o.given argv).or (default o) := by
  rw [VariablesMap.value_store (.inl rfl) h, given_argv h]

private theorem stored_noCloseFds {vm : VariablesMap Opt.Value}
    (h : ∀ o, vm.value o =
      (o.given argv).or (o.default (ServiceConnection.toLower sysname) config)) :
    (vm.value .noCloseFds).isSome = true := by
  rw [h, Option.isSome_or]
  exact Bool.or_true _

/-- What `parse` stores: the value of the command line, otherwise the default. -/
theorem value_parse (h : parse (some sysname) disk argv config = .ok p) (o : Opt) :
    p.vm.value o =
      (o.given argv).or (o.default (ServiceConnection.toLower sysname) config) := by
  obtain ⟨vm, hstore, hp⟩ := parse_ok h
  have hvalue := value_argv hstore o
  rcases hp with rfl | ⟨sections, hfile, _⟩
  · exact hvalue
  · rw [parseConfigFile_eq_nil] at hfile
    rw [← given_argv hstore] at hvalue
    rw [VariablesMap.value_store (.inr hvalue) hfile, VariablesMap.given_store_nil hfile,
      given_argv hstore]

/-- The field of an option after `parse`. -/
theorem read_parse (h : parse (some sysname) disk argv config = .ok p) {o : Opt}
    (ho : o.isField = true) (hne : o ≠ .noChdir) :
    o.target.read p.config =
      ((o.given argv).or (o.default (ServiceConnection.toLower sysname) config)).or
        (o.target.read config) := by
  have hvalue := value_parse h
  obtain ⟨vm, hstore, hp⟩ := parse_ok h
  have hvm := value_argv hstore
  rw [← hvalue o]
  rcases hp with rfl | ⟨sections, _, hconfig⟩
  · exact read_notify (stored_noCloseFds hvm) ho hne config
  · rw [hconfig, read_notify (stored_noCloseFds hvalue) ho hne, read_notify (stored_noCloseFds hvm) ho hne,
      hvalue o, hvm o]
    cases (o.given argv).or (o.default (ServiceConnection.toLower sysname) config) <;> rfl

private theorem read_noChdir (config : Settings) :
    Opt.noChdir.target.read config = Opt.noCloseFds.target.read config := rfl

end Options

/-! ## Precedence -/

/-- The configuration file that a command line has `parse` read. -/
def configFile (disk : String → ConfigPath) (argv : List (Opt × List String))
    (config : Settings) : List FileSection :=
  if (Opt.help.given argv).isSome ∨ Opt.noConfig.given argv = some true then []
  else match disk ((Opt.config.given argv).getD (config .serviceConfig)) with
    | .file sections => sections
    | _ => []

/-- The value on the command line, otherwise in the file, otherwise the default. -/
def Opt.precedence (sysname : String) (config : Settings) (argv : List (Opt × List String))
    (file : List FileSection) (o : Opt) : Option o.Value :=
  ((o.given argv).or (o.given (namedLines file))).or
    ((o.default (ServiceConnection.toLower sysname) config).or (o.target.read config))

/-- The fields of the options have the values of that precedence. -/
def Options.FollowsPrecedence (sysname : String) (disk : String → ConfigPath)
    (argv : List (Opt × List String)) (config : Settings) (p : Options) : Prop :=
  ∀ o : Opt, o.isField = true →
    o.target.read p.config = o.precedence sysname config argv (configFile disk argv config)

/-- The fields of all options but one are the same. -/
def Options.Undisturbed (o : Opt) (p p' : Options) : Prop :=
  ∀ o' : Opt, o' ≠ o → o'.isField = true → o'.target.read p.config = o'.target.read p'.config

/-- A command line with every occurrence of one option left out. -/
def without (o : Opt) (argv : List (Opt × List String)) : List (Opt × List String) :=
  argv.filter fun x => x.1 ≠ o

/-- The file changes nothing: where it gives a value that the command line does not, that
value is the default, and the two options of the shared field agree. -/
structure FileAgrees (sysname : String) (config : Settings) (argv : List (Opt × List String))
    (file : List FileSection) : Prop where
  default : ∀ o : Opt, o.isField = true → o ≠ .noChdir → o.given argv = none →
    ∀ x, o.given (namedLines file) = some x →
      (o.default (ServiceConnection.toLower sysname) config).or (o.target.read config) = some x
  shared : Opt.noChdir.precedence sysname config argv file =
    Opt.noCloseFds.precedence sysname config argv file

private theorem Opt.given_of_without {o o' : Opt} {argv argv' : List (Opt × List String)}
    (h : without o argv = without o argv') (hne : o' ≠ o) : o'.given argv = o'.given argv' := by
  have hoccurrences : ∀ xs : List (Opt × List String),
      VariablesMap.occurrencesOf o' xs = VariablesMap.occurrencesOf o' (without o xs) := by
    intro xs
    induction xs with
    | nil => rfl
    | cons x xs ih =>
      by_cases hx : x.1 = o
      · have hother : ¬ x.1 = o' := by
          intro heq
          exact hne (heq.symm.trans hx)
        have hdrop : without o (x :: xs) = without o xs := by simp [without, hx]
        rw [hdrop, ← ih]
        simp [VariablesMap.occurrencesOf, hother]
      · have hkeep : without o (x :: xs) = x :: without o xs := by simp [without, hx]
        rw [hkeep]
        simp only [VariablesMap.occurrencesOf, List.filterMap_cons] at ih ⊢
        rw [ih]
  rw [given, given, hoccurrences argv, hoccurrences argv', h]

namespace Options

variable {sysname : String} {disk : String → ConfigPath} {argv argv' : List (Opt × List String)}
  {config : Settings} {p p' : Options}

private theorem collect_noCloseFds {occurrences : List (List String)}
    (h : ∀ tokens ∈ occurrences, tokens = []) (v : Option Bool) :
    VariablesMap.collect Opt.parse .noCloseFds v occurrences = .ok v ∨
      VariablesMap.collect Opt.parse .noCloseFds v occurrences = .ok (some true) := by
  induction occurrences generalizing v with
  | nil => exact .inl rfl
  | cons tokens rest ih =>
    have htokens := h tokens List.mem_cons_self
    subst htokens
    have hrest := ih (fun ts hts => h ts (List.mem_cons_of_mem _ hts)) (some true)
    right
    -- the implicit value
    change VariablesMap.collect Opt.parse .noCloseFds (some true) rest = _
    simpa only [or_self] using hrest

private theorem given_noCloseFds (h : parse (some sysname) disk argv config = .ok p) :
    Opt.noCloseFds.given argv = none ∨ Opt.noCloseFds.given argv = some true := by
  have htakes := List.all_eq_true.mp (parse_takes h)
  have hempty : ∀ tokens ∈ VariablesMap.occurrencesOf Opt.noCloseFds argv, tokens = [] := by
    intro tokens hmem
    obtain ⟨x, hx, hsome⟩ := List.mem_filterMap.mp hmem
    split_ifs at hsome with ho
    have hlength := htakes x hx
    rw [ho] at hlength
    cases hsome
    exact List.length_eq_zero_iff.mp (of_decide_eq_true hlength)
  rcases collect_noCloseFds hempty none with hcollect | hcollect
  · left
    rw [Opt.given, hcollect]
    rfl
  · right
    rw [Opt.given, hcollect]
    rfl

private theorem followsPrecedence_iff (h : parse (some sysname) disk argv config = .ok p) :
    FollowsPrecedence sysname disk argv config p ↔
      FileAgrees sysname config argv (configFile disk argv config) := by
  have hread {o : Opt} (ho : o.isField = true) (hne : o ≠ .noChdir) := read_parse h ho hne
  constructor
  · intro hfollows
    constructor
    · intro o ho hne hargv x hfile
      have hprecedence := hfollows o ho
      rw [hread ho hne, Opt.precedence, hargv, hfile] at hprecedence
      exact hprecedence
    · calc
        Opt.noChdir.precedence sysname config argv (configFile disk argv config)
          = Opt.noChdir.target.read p.config := (hfollows .noChdir rfl).symm
        _ = Opt.noCloseFds.target.read p.config := read_noChdir p.config
        _ = Opt.noCloseFds.precedence sysname config argv (configFile disk argv config) :=
          hfollows .noCloseFds rfl
  · intro hagrees
    have hother : ∀ o : Opt, o.isField = true → o ≠ .noChdir →
        o.target.read p.config =
          o.precedence sysname config argv (configFile disk argv config) := by
      intro o ho hne
      rw [hread ho hne, Opt.precedence]
      cases hargv : o.given argv with
      | some x => rfl
      | none =>
        cases hfile : o.given (namedLines (configFile disk argv config)) with
        | none => rfl
        | some x => exact hagrees.default o ho hne hargv x hfile
    intro o ho
    by_cases hne : o = .noChdir
    · subst hne
      calc
        Opt.noChdir.target.read p.config
          = Opt.noCloseFds.target.read p.config := read_noChdir p.config
        _ = Opt.noCloseFds.precedence sysname config argv (configFile disk argv config) :=
          hother .noCloseFds rfl (by decide)
        _ = Opt.noChdir.precedence sysname config argv (configFile disk argv config) :=
          hagrees.shared.symm
    · exact hother o ho hne

private theorem undisturbed_iff (h : parse (some sysname) disk argv config = .ok p)
    (h' : parse (some sysname) disk argv' config = .ok p') {o : Opt}
    (hwithout : without o argv = without o argv') :
    Undisturbed o p p' ↔
      (o = .noCloseFds → Opt.noCloseFds.given argv = Opt.noCloseFds.given argv') := by
  constructor
  · intro hsame ho
    have hne : Opt.noCloseFds ≠ .noChdir := by decide
    have hp : Opt.noCloseFds.target.read p.config = _ := read_parse h rfl hne
    have hp' : Opt.noCloseFds.target.read p'.config = _ := read_parse h' rfl hne
    have hfield : Opt.noCloseFds.target.read p.config = Opt.noCloseFds.target.read p'.config :=
      hsame .noChdir (ho ▸ hne.symm) rfl
    rw [hp, hp'] at hfield
    rcases given_noCloseFds h with hgiven | hgiven <;>
      rcases given_noCloseFds h' with hgiven' | hgiven'
    · rw [hgiven, hgiven']
    · rw [hgiven, hgiven'] at hfield
      cases hfield
    · rw [hgiven, hgiven'] at hfield
      cases hfield
    · rw [hgiven, hgiven']
  · intro hshared o' hne ho'
    have hother : ∀ o' : Opt, o'.isField = true → o' ≠ .noChdir →
        o'.given argv = o'.given argv' → o'.target.read p.config = o'.target.read p'.config := by
      intro o' ho' hne hgiven
      rw [read_parse h ho' hne, read_parse h' ho' hne, hgiven]
    by_cases hchdir : o' = .noChdir
    · subst hchdir
      apply hother .noCloseFds rfl (by decide)
      by_cases ho : o = .noCloseFds
      · exact hshared ho
      · exact Opt.given_of_without hwithout (Ne.symm ho)
    · exact hother o' ho' hchdir (Opt.given_of_without hwithout hne)

/-- A readable file is accepted whatever it says. -/
theorem exists_parse {vm : VariablesMap Opt.Value}
    (htakes : argv.all (fun x => (x.1.target.kind Field.kind).takes x.2.length) = true)
    (hstore : VariablesMap.store Opt.parse (Opt.default (ServiceConnection.toLower sysname) config)
      .empty argv = .ok vm)
    (hdisk : ∀ path, ∃ sections, disk path = .file sections) :
    ∃ p, parse (some sysname) disk argv config = .ok p := by
  obtain ⟨sections, hfile⟩ := hdisk (notify vm config .serviceConfig)
  simp only [parse, htakes, hstore, bind, Except.bind, Bool.not_true, Bool.false_eq_true,
    if_false, pure, Except.pure, hfile, parseConfigFile_eq_nil]
  split_ifs
  · exact ⟨_, rfl⟩
  · exact ⟨_, rfl⟩
  · exact ⟨_, rfl⟩

/-- After `parse` the options have the values of the documented precedence exactly when the
file changes nothing, and leaving one option out disturbs no other field exactly when it is
not the second option of the shared field. -/
theorem precedence_iff (sysname : String) (disk : String → ConfigPath)
    (argv argv' : List (Opt × List String)) (config : Settings) (p p' : Options) (o : Opt)
    (h : parse (some sysname) disk argv config = .ok p)
    (h' : parse (some sysname) disk argv' config = .ok p')
    (hwithout : without o argv = without o argv') :
    (FollowsPrecedence sysname disk argv config p ↔
        FileAgrees sysname config argv (configFile disk argv config)) ∧
      (Undisturbed o p p' ↔
        (o = .noCloseFds → Opt.noCloseFds.given argv = Opt.noCloseFds.given argv')) :=
  ⟨followsPrecedence_iff h, undisturbed_iff h h' hwithout⟩

private theorem exists_parse_file (file : List FileSection) :
    ∃ p, parse (some "Linux") (fun _ => .file file) [] .unix = .ok p :=
  exists_parse rfl rfl fun _ => ⟨file, rfl⟩

def dnsmasqFile : List FileSection := [⟨"service", [("dns-proxy", "dnsmasq")]⟩]

/-- The proxy of the command line goes before the one of the file, and leaving it out disturbs no
other field. -/
theorem precedence_dnsProxy :
    ∃ p p', parse (some "Linux") (fun _ => .file dnsmasqFile) [(.dnsProxy, ["unbound"])] .unix =
        .ok p ∧
      parse (some "Linux") (fun _ => .file dnsmasqFile) [] .unix = .ok p' ∧
      FollowsPrecedence "Linux" (fun _ => .file dnsmasqFile) [(.dnsProxy, ["unbound"])] .unix p ∧
      Undisturbed .dnsProxy p p' := by
  obtain ⟨p, hp⟩ : ∃ p, parse (some "Linux") (fun _ => .file dnsmasqFile)
      [(.dnsProxy, ["unbound"])] .unix = .ok p := exists_parse rfl rfl fun _ => ⟨dnsmasqFile, rfl⟩
  obtain ⟨p', hp'⟩ := exists_parse_file dnsmasqFile
  obtain ⟨hfollows, hundisturbed⟩ := precedence_iff "Linux" (fun _ => .file dnsmasqFile)
    [(.dnsProxy, ["unbound"])] [] .unix p p' .dnsProxy hp hp' rfl
  refine ⟨p, p', hp, hp', hfollows.mpr ⟨?_, by decide +kernel⟩, hundisturbed.mpr (by simp)⟩
  intro o _ _ hargv x hfile
  by_cases ho : o = .dnsProxy
  · subst ho
    cases hargv
  · have hwithout : without .dnsProxy (namedLines dnsmasqFile) = without .dnsProxy [] := by
      decide +kernel
    have hnone : o.given (namedLines dnsmasqFile) = none :=
      (Opt.given_of_without hwithout ho).trans rfl
    exact absurd (hnone.symm.trans hfile) (by simp)

/-- The proxy that the file names is not the one in the settings. -/
theorem parse_dnsmasqFile :
    ∃ p, parse (some "Linux") (fun _ => .file dnsmasqFile) [] .unix = .ok p ∧
      Opt.dnsProxy.given (namedLines dnsmasqFile) = some "dnsmasq" ∧
      p.config .dnsProxy = "unbound" ∧
      ¬ FollowsPrecedence "Linux" (fun _ => .file dnsmasqFile) [] .unix p := by
  obtain ⟨p, hp⟩ := exists_parse_file dnsmasqFile
  have hgiven : Opt.dnsProxy.given (namedLines dnsmasqFile) = some "dnsmasq" := by
    decide +kernel
  have hfield : Opt.dnsProxy.target.read p.config = some "unbound" :=
    read_parse hp rfl (by decide)
  refine ⟨p, hp, hgiven, Option.some.inj hfield, ?_⟩
  intro hfollows
  have hdnsmasq : Opt.dnsProxy.target.read p.config = some "dnsmasq" := by
    rw [hfollows .dnsProxy rfl]
    change (Opt.dnsProxy.given (namedLines dnsmasqFile)).or _ = _
    rw [hgiven]
    rfl
  rw [hfield] at hdnsmasq
  simp at hdnsmasq

end Options

end DblService
