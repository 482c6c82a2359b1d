import DblService.DnsConfig
import DblService.Options

/-!
# The configurator

The interface that the service uses and its address.  The loopback interface is there
for a local address, every other address needs an interface of its own.
-/

namespace DblService

open Framework

structure Ioctls where
  setAddress : Bool  -- `SIOCSIFADDR`
  getFlags : Bool  -- `SIOCGIFFLAGS`
  setFlags : Bool  -- `SIOCSIFFLAGS`

def Ioctls.Succeed (io : Ioctls) : Prop :=
  io.setAddress = true ∧ io.getFlags = true ∧ io.setFlags = true

inductive InterfaceChange
  | address (interface address : String)
  | up (interface : String)
  deriving DecidableEq

abbrev InterfaceList := String → Option (List String)

namespace Configurator

def getDefaultInterface : String := "lo"

/-- `Unix::configure_interface`: what it throws and what it changes. -/
def configureInterface (io : Ioctls) (interface ip4address : String) :
    Except Exc Unit × List InterfaceChange :=
  let addressed := if io.setAddress then [InterfaceChange.address interface ip4address] else []
  let failed := if !io.setAddress then true else if !io.getFlags then true else false
  let raised := if !failed && io.setFlags then [InterfaceChange.up interface] else []
  -- stands after the branch that logs a failure of the last call, not in it
  let failed := if !failed then true else failed
  (if failed then .error (.runtime "Interface configuration failed") else .ok (),
    addressed ++ raised)

def chooseInterface (config : Settings) : Except Exc String :=
  if config .networkIp4address = "127.0.0.1" || config .networkIp6address = "::1" then
    .ok getDefaultInterface
  else if config .networkInterface = "" then
    .error (.runtime ("Create a dedicated interface to use with address: " ++
      config .networkIp4address))
  else .ok (config .networkInterface)

def configureDnsProxy (config : Settings) (proxy : ConfigEntries) : ConfigEntries :=
  proxy.setValue "PIDFILE" (config .dnsProxyPidfile)

/-- `Configurator::configure` with the values of the proxy. -/
def configure (config : Settings) (available : InterfaceList) (io : Ioctls)
    (proxy : ConfigEntries) : Except Exc ConfigEntries × List InterfaceChange :=
  match chooseInterface config with
  | .error e => (.error e, [])
  | .ok interface =>
    match available interface with
    | none => (.error (.runtime ("Invalid interface: " ++ interface)), [])
    | some addresses =>
      if config .networkIp4address ∈ addresses then (.ok (configureDnsProxy config proxy), [])
      else
        let r := configureInterface io interface (config .networkIp4address)
        (r.1.map fun _ => configureDnsProxy config proxy, r.2)

/-! ## The interface to use -/

/-- The interface for the configured address: the loopback interface for its own address
only. -/
def dedicated (config : Settings) : Option String :=
  if config .networkIp4address = "127.0.0.1" then some getDefaultInterface
  else if config .networkInterface = "" then none
  else some (config .networkInterface)

def Carries (available : InterfaceList) (interface address : String) : Prop :=
  ∃ addresses, available interface = some addresses ∧ address ∈ addresses

def Lacks (available : InterfaceList) (interface address : String) : Prop :=
  ∃ addresses, available interface = some addresses ∧ address ∉ addresses

/-- The interface to use has the address or can be given it. -/
def Usable (config : Settings) (available : InterfaceList) (io : Ioctls) : Prop :=
  ∃ interface addresses, dedicated config = some interface ∧
    available interface = some addresses ∧
    (config .networkIp4address ∈ addresses ∨ io.Succeed)

/-- `configure` completes where the interface is usable, and gives no other address than its
own to the loopback interface unless that is the configured one. -/
structure Correct (config : Settings) (available : InterfaceList) (io : Ioctls)
    (proxy : ConfigEntries) : Prop where
  completes : (∃ entries, (configure config available io proxy).1 = .ok entries) ↔
    Usable config available io
  loopback : ∀ address,
    .address getDefaultInterface address ∈ (configure config available io proxy).2 →
    address = "127.0.0.1" ∨ config .networkInterface = getDefaultInterface

/-- Where the test of the second address changes nothing, no interface may be left that all
three calls configure; where it chooses the loopback interface instead of another one, that
has to carry the address when the other one is usable, and must not be given it. -/
def Suits (config : Settings) (available : InterfaceList) (io : Ioctls) : Prop :=
  if config .networkIp4address = "127.0.0.1" ∨ config .networkIp6address ≠ "::1" ∨
      config .networkInterface = getDefaultInterface then
    ∀ interface, dedicated config = some interface →
      ¬ (Lacks available interface (config .networkIp4address) ∧ io.Succeed)
  else
    (Carries available getDefaultInterface (config .networkIp4address) ↔
        Usable config available io) ∧
      ¬ (Lacks available getDefaultInterface (config .networkIp4address) ∧ io.setAddress = true)

section

variable {config : Settings} {available : InterfaceList} {io : Ioctls} {proxy : ConfigEntries}

private theorem configureInterface_error (io : Ioctls) (interface address : String) :
    (configureInterface io interface address).1 =
      .error (.runtime "Interface configuration failed") := by
  cases h : io.setAddress <;> cases h' : io.getFlags <;> simp [configureInterface, h, h']

private theorem address_mem_configureInterface {interface address i a : String} :
    .address i a ∈ (configureInterface io interface address).2 ↔
      io.setAddress = true ∧ i = interface ∧ a = address := by
  cases h : io.setAddress <;> cases h' : io.getFlags <;> cases h'' : io.setFlags <;>
    simp [configureInterface, h, h', h'']

private theorem configure_of_choose {interface : String}
    (h : chooseInterface config = .ok interface) :
    ((∃ entries, (configure config available io proxy).1 = .ok entries) ↔
        Carries available interface (config .networkIp4address)) ∧
      ∀ i a, .address i a ∈ (configure config available io proxy).2 ↔
        i = interface ∧ a = config .networkIp4address ∧
          Lacks available interface (config .networkIp4address) ∧ io.setAddress = true := by
  cases havailable : available interface with
  | none => simp [configure, h, havailable, Carries, Lacks]
  | some addresses =>
    by_cases hmem : config .networkIp4address ∈ addresses
    · simp [configure, h, havailable, Carries, Lacks, hmem]
    · have hchanges : (configure config available io proxy).2 =
          (configureInterface io interface (config .networkIp4address)).2 := by
        simp [configure, h, havailable, hmem]
      constructor
      · simp [configure, h, havailable, Carries, hmem, configureInterface_error, Except.map]
      · intro i a
        rw [hchanges, address_mem_configureInterface]
        simp only [Lacks, havailable, Option.some.injEq, exists_eq_left', hmem, not_false_eq_true,
          true_and]
        tauto

private theorem configure_of_error {e : Exc} (h : chooseInterface config = .error e) :
    configure config available io proxy = (.error e, []) := by
  simp [configure, h]

private theorem not_lacks_of_carries {interface address : String}
    (h : Carries available interface address) : ¬ Lacks available interface address := by
  rintro ⟨addresses, havailable, hmem⟩
  obtain ⟨addresses', havailable', hmem'⟩ := h
  rw [havailable] at havailable'
  cases havailable'
  exact hmem hmem'

private theorem usable_iff {interface : String} (h : dedicated config = some interface) :
    Usable config available io ↔
      Carries available interface (config .networkIp4address) ∨
        (Lacks available interface (config .networkIp4address) ∧ io.Succeed) := by
  constructor
  · rintro ⟨i, addresses, hi, havailable, hrest⟩
    rw [h] at hi
    cases hi
    by_cases hmem : config .networkIp4address ∈ addresses
    · exact .inl ⟨addresses, havailable, hmem⟩
    · exact .inr ⟨⟨addresses, havailable, hmem⟩, hrest.resolve_left hmem⟩
  · rintro (⟨addresses, havailable, hmem⟩ | ⟨⟨addresses, havailable, _⟩, hsucceed⟩)
    · exact ⟨interface, addresses, h, havailable, .inl hmem⟩
    · exact ⟨interface, addresses, h, havailable, .inr hsucceed⟩

private theorem correct_of_dedicated {interface : String}
    (hchoose : chooseInterface config = .ok interface)
    (hdedicated : dedicated config = some interface) :
    Correct config available io proxy ↔
      ¬ (Lacks available interface (config .networkIp4address) ∧ io.Succeed) := by
  obtain ⟨hok, hchanges⟩ := configure_of_choose hchoose
  have husable := @usable_iff config available io _ hdedicated
  constructor
  · intro hcorrect hleft
    have hcarries := hok.mp (hcorrect.completes.mpr (husable.mpr (.inr hleft)))
    exact not_lacks_of_carries hcarries hleft.1
  · intro hleft
    constructor
    · rw [hok, husable]
      simp [hleft]
    · intro address haddress
      obtain ⟨hinterface, haddress, _⟩ := (hchanges _ _).mp haddress
      by_cases hlocal : config .networkIp4address = "127.0.0.1"
      · exact .inl (haddress.trans hlocal)
      · right
        by_cases hempty : config .networkInterface = ""
        · simp [dedicated, hlocal, hempty] at hdedicated
        · simp only [dedicated, hlocal, hempty, if_false, Option.some.injEq] at hdedicated
          exact hdedicated.trans hinterface.symm

private theorem correct_of_loopback (hchoose : chooseInterface config = .ok getDefaultInterface)
    (haddress : config .networkIp4address ≠ "127.0.0.1")
    (hinterface : config .networkInterface ≠ getDefaultInterface) :
    Correct config available io proxy ↔
      (Carries available getDefaultInterface (config .networkIp4address) ↔
          Usable config available io) ∧
        ¬ (Lacks available getDefaultInterface (config .networkIp4address) ∧
          io.setAddress = true) := by
  obtain ⟨hok, hchanges⟩ := configure_of_choose hchoose
  constructor
  · intro hcorrect
    apply And.intro (hok.symm.trans hcorrect.completes)
    intro hgiven
    rcases hcorrect.loopback _ ((hchanges _ _).mpr ⟨rfl, rfl, hgiven⟩) with h | h
    · exact haddress h
    · exact hinterface h
  · intro h
    apply Correct.mk (hok.trans h.1)
    intro a ha
    exact absurd ((hchanges _ _).mp ha).2.2 h.2

/-- `configure` does what the interface to use asks for exactly when that interface suits. -/
theorem correct_iff (config : Settings) (available : InterfaceList) (io : Ioctls)
    (proxy : ConfigEntries) :
    Correct config available io proxy ↔ Suits config available io := by
  by_cases hlocal : config .networkIp4address = "127.0.0.1"
  · have hchoose : chooseInterface config = .ok getDefaultInterface := by
      simp [chooseInterface, hlocal]
    have hdedicated : dedicated config = some getDefaultInterface := by
      simp [dedicated, hlocal]
    rw [correct_of_dedicated hchoose hdedicated]
    simp [Suits, hlocal, hdedicated]
  by_cases hsix : config .networkIp6address = "::1"
  · have hchoose : chooseInterface config = .ok getDefaultInterface := by
      simp [chooseInterface, hsix]
    by_cases hinterface : config .networkInterface = getDefaultInterface
    · have hdedicated : dedicated config = some getDefaultInterface := by
        simp [dedicated, hlocal, hinterface, getDefaultInterface]
      rw [correct_of_dedicated hchoose hdedicated]
      simp [Suits, hinterface, hdedicated]
    · rw [correct_of_loopback hchoose hlocal hinterface]
      simp [Suits, hlocal, hsix, hinterface]
  · by_cases hempty : config .networkInterface = ""
    · have hdedicated : dedicated config = none := by simp [dedicated, hlocal, hempty]
      have hchoose : ∃ e, chooseInterface config = .error e := by
        simp [chooseInterface, hlocal, hsix, hempty]
      obtain ⟨e, he⟩ := hchoose
      have hsuits : Suits config available io := by
        simp [Suits, hsix, hdedicated]
      apply iff_of_true _ hsuits
      constructor
      · simp [configure_of_error he, Usable, hdedicated]
      · simp [configure_of_error he]
    · have hdedicated : dedicated config = some (config .networkInterface) := by
        simp [dedicated, hlocal, hempty]
      have hchoose : chooseInterface config = .ok (config .networkInterface) := by
        simp [chooseInterface, hlocal, hsix, hempty]
      rw [correct_of_dedicated hchoose hdedicated]
      simp [Suits, hsix, hdedicated]

end

/-! ## A dedicated interface -/

def dedicatedSettings (ip6address : String) : Settings
  | .networkIp4address => "10.0.0.1"
  | .networkIp6address => ip6address
  | .networkInterface => "eth0"
  | f => Settings.unix f

def twoInterfaces : InterfaceList := fun interface =>
  if interface = "lo" then some ["127.0.0.1"]
  else if interface = "eth0" then some ["192.168.1.5"]
  else none

/-- All three calls configure the dedicated interface, and `configure` fails; with the default
second address the loopback interface is given the address. -/
theorem configure_eth0 :
    (configure (dedicatedSettings "fd00::1") twoInterfaces ⟨true, true, true⟩ []).1 =
        .error (.runtime "Interface configuration failed") ∧
      (configure (dedicatedSettings "fd00::1") twoInterfaces ⟨true, true, true⟩ []).2 =
        [.address "eth0" "10.0.0.1", .up "eth0"] ∧
      ¬ Correct (dedicatedSettings "fd00::1") twoInterfaces ⟨true, true, true⟩ [] ∧
      (configure (dedicatedSettings "::1") twoInterfaces ⟨true, true, true⟩ []).2 =
        [.address "lo" "10.0.0.1", .up "lo"] := by
  have herror : (configure (dedicatedSettings "fd00::1") twoInterfaces ⟨true, true, true⟩ []).1 =
      .error (.runtime "Interface configuration failed") := rfl
  have husable : Usable (dedicatedSettings "fd00::1") twoInterfaces ⟨true, true, true⟩ :=
    ⟨"eth0", ["192.168.1.5"], rfl, rfl, .inr ⟨rfl, rfl, rfl⟩⟩
  apply And.intro herror
  apply And.intro rfl
  constructor
  · intro hcorrect
    obtain ⟨entries, hok⟩ := hcorrect.completes.mpr husable
    rw [herror] at hok
    cases hok
  · rfl

end Configurator

end DblService
