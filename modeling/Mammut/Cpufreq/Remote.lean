import Mammut.Cpufreq.Messages
import Mammut.Server.Servant

/-! `DomainRemote`, from `cpufreq-remote.cpp`: the domain of a server, on which each call is a
request. -/

namespace Mammut.Cpufreq

variable {σ α : Type}

/-- A `DomainRemote`: `_availableFrequencies` is what its constructor receives. -/
structure DomainRemote where
  domainIdentifier : DomainId
  availableFrequencies : List Frequency
  deriving DecidableEq, Repr

namespace DomainRemote

variable (proto : Protobuf Request Response)
  (moduleDispatcher : String → Option (Module (CpuFreqLinux σ)))

/-- `_communicator->remoteCall`. -/
def request (r : Request) (expected : Expected Response α) : Call (Session (CpuFreqLinux σ)) α :=
  remoteCall proto schema moduleDispatcher r expected

/-- The constructor. -/
def new (id : DomainId) : Call (Session (CpuFreqLinux σ)) DomainRemote := do
  return ⟨id, ← request proto moduleDispatcher (.getAvailableFrequencies id) Expect.frequencies⟩

variable (d : DomainRemote)

def getId : DomainId := d.domainIdentifier

def removeTurboFrequencies : Call (Session (CpuFreqLinux σ)) Unit :=
  request proto moduleDispatcher (.removeTurboFrequenciesDomain d.getId) Expect.resultVoid

/-- As the source has it, with the request to remove the frequencies. -/
def reinsertTurboFrequencies : Call (Session (CpuFreqLinux σ)) Unit :=
  request proto moduleDispatcher (.removeTurboFrequenciesDomain d.getId) Expect.resultVoid

def getAvailableFrequencies : List Frequency := d.availableFrequencies

def getAvailableGovernors : Call (Session (CpuFreqLinux σ)) (List Governor) := do
  let gs ← request proto moduleDispatcher (.getAvailableGovernors d.getId) Expect.governors
  return gs.map Governor.ofUInt32

def isGovernorAvailable (governor : Governor) : Call (Session (CpuFreqLinux σ)) Bool :=
  return (← d.getAvailableGovernors proto moduleDispatcher).contains governor

/-- `getCurrentFrequency`, and with `userspace` also `getCurrentFrequencyUserspace`. -/
def getCurrentFrequency (userspace : Bool) : Call (Session (CpuFreqLinux σ)) Frequency :=
  request proto moduleDispatcher (.getCurrentFrequency d.getId userspace) Expect.currentFrequency

def getCurrentGovernor : Call (Session (CpuFreqLinux σ)) Governor := do
  let g ← request proto moduleDispatcher (.getCurrentGovernor d.getId) Expect.currentGovernor
  return Governor.ofUInt32 g

def setFrequencyUserspace (frequency : Frequency) : Call (Session (CpuFreqLinux σ)) Bool :=
  request proto moduleDispatcher (.changeFrequency d.getId frequency) Expect.result

def setHighestFrequencyUserspace : Call (Session (CpuFreqLinux σ)) Bool :=
  match d.getAvailableFrequencies.getLast? with
  | none => return false
  | some back => d.setFrequencyUserspace proto moduleDispatcher back

def setLowestFrequencyUserspace : Call (Session (CpuFreqLinux σ)) Bool :=
  match d.getAvailableFrequencies.head? with
  | none => return false
  | some front => d.setFrequencyUserspace proto moduleDispatcher front

def getHardwareFrequencyBounds : Call (Session (CpuFreqLinux σ)) (Frequency × Frequency) :=
  request proto moduleDispatcher (.getHardwareFrequencyBounds d.getId)
    Expect.hardwareFrequencyBounds

/-- The bounds, or `none` for `false`; the variables of the caller are set also then. -/
def getCurrentGovernorBounds : Call (Session (CpuFreqLinux σ)) (Option (Frequency × Frequency)) := do
  let (lb, ub, result) ←
    request proto moduleDispatcher (.getGovernorBounds d.getId) Expect.governorBounds
  return if result then some (lb, ub) else none

def setGovernorBounds (lb ub : Frequency) : Call (Session (CpuFreqLinux σ)) Bool :=
  request proto moduleDispatcher (.changeFrequencyBounds d.getId lb ub) Expect.result

def setGovernor (governor : Governor) : Call (Session (CpuFreqLinux σ)) Bool :=
  request proto moduleDispatcher (.changeGovernor d.getId governor.toUInt32) Expect.result

/-- The call on a `DomainRemote`. -/
def call : DomainCall → Call (Session (CpuFreqLinux σ)) Value
  | .removeTurboFrequencies => do
    d.removeTurboFrequencies proto moduleDispatcher
    return .unit
  | .reinsertTurboFrequencies => do
    d.reinsertTurboFrequencies proto moduleDispatcher
    return .unit
  | .getAvailableFrequencies => return .frequencies d.getAvailableFrequencies
  | .getAvailableGovernors => do
    return .governors (← d.getAvailableGovernors proto moduleDispatcher)
  | .isGovernorAvailable g => do return .result (← d.isGovernorAvailable proto moduleDispatcher g)
  | .getCurrentFrequency => do
    return .frequency (← d.getCurrentFrequency proto moduleDispatcher false)
  | .getCurrentFrequencyUserspace => do
    return .frequency (← d.getCurrentFrequency proto moduleDispatcher true)
  | .getCurrentGovernor => do return .governor (← d.getCurrentGovernor proto moduleDispatcher)
  | .setFrequencyUserspace f => do
    return .result (← d.setFrequencyUserspace proto moduleDispatcher f)
  | .setHighestFrequencyUserspace => do
    return .result (← d.setHighestFrequencyUserspace proto moduleDispatcher)
  | .setLowestFrequencyUserspace => do
    return .result (← d.setLowestFrequencyUserspace proto moduleDispatcher)
  | .getHardwareFrequencyBounds => do
    return .bounds (some (← d.getHardwareFrequencyBounds proto moduleDispatcher))
  | .getCurrentGovernorBounds => do
    return .bounds (← d.getCurrentGovernorBounds proto moduleDispatcher)
  | .setGovernorBounds lb ub => do
    return .result (← d.setGovernorBounds proto moduleDispatcher lb ub)
  | .setGovernor g => do return .result (← d.setGovernor proto moduleDispatcher g)

end DomainRemote

end Mammut.Cpufreq
