import Mammut.Cpufreq.Messages
import Mammut.Server.Servant

/-! `CpuFreq::processMessage`, from `cpufreq.cpp`: the requests of the clients, on the domains of
the server. -/

namespace Mammut.Cpufreq

open DomainLinux Utils

variable {σ α : Type} (sys : System σ)

namespace CpuFreq

/-- A call on `domains.at(i)`. -/
def onDomain (i : ℕ) (call : Call (DomainLinux × σ) α) : Call (CpuFreqLinux σ) α := fun s =>
  match s.1[i]? with
  | none => .error .outOfRange s
  | some d =>
    match call (d, s.2) with
    | .ok a (e, t) => .ok a (s.1.set i e, t)
    | .error x (e, t) => .error x (s.1.set i e, t)

theorem onDomain_run_of_some {i : ℕ} {s : CpuFreqLinux σ} {d : DomainLinux}
    (hd : s.1[i]? = some d) (call : Call (DomainLinux × σ) α) :
    (onDomain i call).run s = match call.run (d, s.2) with
      | .ok a (e, t) => .ok a (s.1.set i e, t)
      | .error x (e, t) => .error x (s.1.set i e, t) := by
  show onDomain i call s = _
  rw [onDomain, hd]
  rfl

theorem onDomain_run_of_none {i : ℕ} {s : CpuFreqLinux σ} (hd : s.1[i]? = none)
    (call : Call (DomainLinux × σ) α) : (onDomain i call).run s = .error .outOfRange s := by
  show onDomain i call s = _
  rw [onDomain, hd]

/-- A call on every domain. -/
def onDomains (call : Call (DomainLinux × σ) Unit) : Call (CpuFreqLinux σ) Unit := do
  (List.range (← get).1.length).forM fun i => onDomain i call

/-- `_boostingFile`. -/
def boostingFile : File := ⟨"/sys/devices/system/cpu/cpufreq/", "boost"⟩

def isBoostingSupported : Call σ Bool := return (sys.read boostingFile (← get)).isSome

def isBoostingEnabled : Call σ Bool := do
  if ← isBoostingSupported sys then
    return stringToInt (← sys.readFirstLineFromFile boostingFile) ≠ 0
  return false

/-- `writeFile`. -/
def writeBoosting (line : String) : Call σ Unit := do
  if (← modifyGet (sys.write boostingFile (line ++ "\n"))) = .notOpened then
    throw (.runtimeError ("Impossible to open file: " ++ boostingFile.path ++ boostingFile.name))

def enableBoosting : Call σ Unit := writeBoosting sys "1"

def disableBoosting : Call σ Unit := writeBoosting sys "0"

/-- Setting the element `mutable_domains(i)`, which must exist. -/
def setDomain (r : List DomainMessage) (i : ℕ) (m : DomainMessage) : Call σ (List DomainMessage) :=
  if i < r.length then return r.set i m else throw .undefined

/-- The response to `GetDomains`. -/
def domainMessages (domains : List DomainLinux) : Call σ (List DomainMessage) :=
  domains.foldlM (fun r d =>
    setDomain r d.getId.toNat ⟨d.getId, d.getVirtualCoresIdentifiers⟩) []

/-- The response to `GetGovernorBounds`, whose bounds may be variables that were not set. -/
def governorBoundsRes : Option (Frequency × Frequency) → Response
  | some (lb, ub) => .getGovernorBoundsRes lb ub true
  | none => .getGovernorBoundsRes sys.frequency sys.frequency false

/-- The block of `processMessage` for a request. -/
def serve : Request → Call (CpuFreqLinux σ) Response
  | .removeTurboFrequencies => do onDomains (onFst removeTurboFrequencies); return .resultVoid
  | .reinsertTurboFrequencies => do onDomains (onFst reinsertTurboFrequencies); return .resultVoid
  | .removeTurboFrequenciesDomain id => do
    onDomain id.toNat (onFst removeTurboFrequencies)
    return .resultVoid
  | .reinsertTurboFrequenciesDomain id => do
    onDomain id.toNat (onFst reinsertTurboFrequencies)
    return .resultVoid
  | .isBoostingSupported => do return .result (← onSnd (isBoostingSupported sys))
  | .isBoostingEnabled => do return .result (← onSnd (isBoostingEnabled sys))
  | .enableBoosting => do onSnd (enableBoosting sys); return .resultVoid
  | .disableBoosting => do onSnd (disableBoosting sys); return .resultVoid
  | .getDomains => do return .getDomainsRes (← domainMessages (← get).1)
  | .getAvailableFrequencies id => do
    let fs ← onDomain id.toNat (onSystem (return ·.getAvailableFrequencies))
    return .getAvailableFrequenciesRes fs
  | .getAvailableGovernors id => do
    let gs ← onDomain id.toNat (onSystem (return ·.getAvailableGovernors))
    return .getAvailableGovernorsRes (gs.map (·.toUInt32))
  | .getCurrentFrequency id userspace => do
    if userspace then
      let f ← onDomain id.toNat (onSystem (·.getCurrentFrequencyUserspace sys))
      return .getCurrentFrequencyRes f
    else
      let f ← onDomain id.toNat (onSystem (·.getCurrentFrequency sys))
      return .getCurrentFrequencyRes f
  | .getCurrentGovernor id => do
    let g ← onDomain id.toNat (onSystem (·.getCurrentGovernor sys))
    return .getCurrentGovernorRes g.toUInt32
  | .changeFrequency id frequency => do
    return .result (← onDomain id.toNat (onSystem (·.setFrequencyUserspace sys frequency)))
  | .getHardwareFrequencyBounds id => do
    let (lb, ub) ← onDomain id.toNat (onSystem (·.getHardwareFrequencyBounds sys))
    return .getHardwareFrequencyBoundsRes lb ub
  | .getGovernorBounds id => do
    return governorBoundsRes sys (← onDomain id.toNat (onSystem (·.getCurrentGovernorBounds sys)))
  | .changeFrequencyBounds id lb ub => do
    return .result (← onDomain id.toNat (onSystem (·.setGovernorBounds sys lb ub)))
  | .changeGovernor id governor => do
    let g := Governor.ofUInt32 governor
    return .result (← onDomain id.toNat (onSystem (·.setGovernor sys g)))
  | .getTransitionLatency id => do
    let latency ← onDomain id.toNat (onSystem (·.getTransitionLatency sys))
    return .resultInt (Int32.ofInt latency)
  | .getCurrentVoltage id => do
    return .resultDouble (← onDomain id.toNat (onSystem (·.getCurrentVoltage sys)))

/-- `processMessage`: the block of the request whose name the identifier is, if its text can be
parsed. -/
def processMessage (proto : Protobuf Request Response) : Module (CpuFreqLinux σ) :=
  fun messageIdIn messageIn =>
    match proto.parseRequest messageIdIn messageIn with
    | none => return none
    | some request => do return setMessageFromData proto schema (← serve sys request)

end CpuFreq

end Mammut.Cpufreq
