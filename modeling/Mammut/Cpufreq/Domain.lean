import Mammut.Cxx
import Mammut.Utils.Text

/-! `DomainLinux`, from `cpufreq-linux.cpp`: the frequency and the governor of some virtual cores
that change them together, as the files of `sysfs` show them, or the registers of an EPYC. -/

namespace Mammut.Cpufreq

open Utils

abbrev Frequency := UInt32
abbrev DomainId := UInt32
abbrev VirtualCoreId := UInt32

inductive Governor
  | GOVERNOR_CONSERVATIVE
  | GOVERNOR_ONDEMAND
  | GOVERNOR_INTERACTIVE
  | GOVERNOR_USERSPACE
  | GOVERNOR_POWERSAVE
  | GOVERNOR_PERFORMANCE
  | GOVERNOR_NUM
  deriving DecidableEq, Repr

open Governor

namespace Governor

/-- The number of a governor. -/
def toUInt32 : Governor → UInt32
  | GOVERNOR_CONSERVATIVE => 0
  | GOVERNOR_ONDEMAND => 1
  | GOVERNOR_INTERACTIVE => 2
  | GOVERNOR_USERSPACE => 3
  | GOVERNOR_POWERSAVE => 4
  | GOVERNOR_PERFORMANCE => 5
  | GOVERNOR_NUM => 6

/-- A cast to `Governor`.  No vector holds a number beyond those of the enumeration, which is
therefore treated as `GOVERNOR_NUM` is. -/
def ofUInt32 (n : UInt32) : Governor :=
  match n.toNat with
  | 0 => GOVERNOR_CONSERVATIVE
  | 1 => GOVERNOR_ONDEMAND
  | 2 => GOVERNOR_INTERACTIVE
  | 3 => GOVERNOR_USERSPACE
  | 4 => GOVERNOR_POWERSAVE
  | 5 => GOVERNOR_PERFORMANCE
  | _ => GOVERNOR_NUM

@[simp] theorem ofUInt32_toUInt32 (g : Governor) : ofUInt32 g.toUInt32 = g := by
  cases g <;> rfl

@[simp] theorem ofUInt32_comp_toUInt32 : ofUInt32 ∘ (·.toUInt32) = id :=
  funext ofUInt32_toUInt32

end Governor

/-- `enumStrings<Governor>::data`. -/
def enumStrings : List String :=
  ["conservative", "ondemand", "interactive", "userspace", "powersave", "performance"]

variable {σ : Type}

/-- `GOVERNOR_NUM` has no string: its number is beyond the array. -/
def getGovernorNameFromGovernor (governor : Governor) : Call σ String :=
  match enumStrings[governor.toUInt32.toNat]? with
  | some name => return name
  | none => throw .undefined

/-- `stringToEnum` to a local variable that holds `g`: the first word of the name is looked up. -/
def getGovernorFromGovernorName (g : Governor) (governorName : String) : Governor :=
  match enumStrings.idxOf? (firstWord governorName) with
  | some position => Governor.ofUInt32 (UInt32.ofNat position)
  | none => g

/-- A file of the directory `path`. -/
structure File where
  path : String
  name : String
  deriving DecidableEq, Repr

/-- How opening a file and writing a text ends. -/
inductive Write
  | notOpened
  | failed
  | written
  deriving DecidableEq, Repr

/-- The system as a domain finds it. -/
structure System (σ : Type) where
  /-- The contents of a file that can be opened. -/
  read : File → σ → Option String
  write : File → String → σ → Write × σ
  /-- `Msr::readBits` of a virtual core: register, highest and lowest bit. -/
  readBits : VirtualCoreId → ℕ → ℕ → ℕ → σ → Bool × UInt64
  writeBits : VirtualCoreId → ℕ → ℕ → ℕ → UInt64 → σ → Bool × σ
  /-- `getCurrentVoltage` of a domain with these registers, EPYC or not: the bits of a double. -/
  voltage : VirtualCoreId → Bool → Call σ UInt64
  /-- What local variables hold that were not initialised. -/
  governor : Governor
  frequency : Frequency

/-- `_msr` is the virtual core whose registers it reads. -/
structure DomainLinux where
  domainIdentifier : DomainId
  virtualCores : List VirtualCoreId
  availableGovernors : List Governor
  availableFrequencies : List Frequency
  paths : List String
  msr : VirtualCoreId
  turboFrequencies : List Frequency
  epyc : Bool
  deriving DecidableEq, Repr

/-- `intToString` of a frequency, which is converted to `int`. -/
def frequencyToString (f : Frequency) : String := intToString f.toBitVec.toInt

/-- `stringToInt` of a text, converted to a frequency. -/
def stringToFrequency (s : String) : Frequency := ⟨BitVec.ofInt 32 (stringToInt s)⟩

namespace System

variable (sys : System σ)

def readFirstLineFromFile (file : File) : Call σ String := do
  match sys.read file (← get) with
  | some text => return firstLine text
  | none => throw (.runtimeError ("Impossible to open file " ++ file.path ++ file.name))

end System

namespace DomainLinux

variable (sys : System σ) (d : DomainLinux)

def getId : DomainId := d.domainIdentifier

def getVirtualCoresIdentifiers : List VirtualCoreId := d.virtualCores

/-- `_paths.at(0)`. -/
def path : Call σ String :=
  match d.paths with
  | path :: _ => return path
  | [] => throw .outOfRange

def writeToDomainFiles (what name : String) : Call σ Unit :=
  d.paths.forM fun path => do
    if (← modifyGet (sys.write ⟨path, name⟩ what)) ≠ .written then
      throw (.runtimeError "Write to frequency domain files failed.")

/-- The loop of `removeTurboFrequencies` over the frequencies from the iterator on, after those
that it has kept.  An access beyond a text leaves the vectors as they are by then. -/
def removeTurboLoop (kept : List Frequency) : List Frequency → Call DomainLinux Unit
  | [] => return
  | f :: rest =>
    match (frequencyToString f).toList[3]? with
    | none => throw .outOfRange
    | some c =>
      if c = '1' then do
        modify fun d => { d with
          turboFrequencies := d.turboFrequencies ++ [f]
          availableFrequencies := kept ++ rest }
        removeTurboLoop kept rest
      else
        removeTurboLoop (kept ++ [f]) rest

/-- On x86_64. -/
def removeTurboFrequencies : Call DomainLinux Unit := do
  let d ← get
  if d.turboFrequencies = [] then
    removeTurboLoop [] d.availableFrequencies

def reinsertTurboFrequencies : Call DomainLinux Unit :=
  modify fun d => { d with
    availableFrequencies := d.availableFrequencies ++ d.turboFrequencies
    turboFrequencies := [] }

def getAvailableFrequencies : List Frequency := d.availableFrequencies

def getAvailableGovernors : List Governor := d.availableGovernors

def isGovernorAvailable (governor : Governor) : Bool := d.getAvailableGovernors.contains governor

def getCurrentFrequency : Call σ Frequency := do
  if d.epyc then return 0
  return stringToFrequency (← sys.readFirstLineFromFile ⟨← d.path, "scaling_cur_freq"⟩)

def getCurrentEpycPstate : Call σ UInt64 := return (sys.readBits d.msr 0xC0010062 2 0 (← get)).2

def getCurrentGovernor : Call σ Governor := do
  if d.epyc then return GOVERNOR_USERSPACE
  return getGovernorFromGovernorName sys.governor
    (← sys.readFirstLineFromFile ⟨← d.path, "scaling_governor"⟩)

def getCurrentFrequencyUserspace : Call σ Frequency := do
  if d.epyc then
    let pState ← d.getCurrentEpycPstate sys
    -- the index counts from the last frequency, and wraps around below the first
    match d.availableFrequencies.reverse[pState.toNat]? with
    | some f => return f
    | none => throw .undefined
  else
    match ← d.getCurrentGovernor sys with
    | GOVERNOR_USERSPACE =>
      return stringToFrequency (← sys.readFirstLineFromFile ⟨← d.path, "scaling_setspeed"⟩)
    | _ => return 0

def setFrequencyUserspace (frequency : Frequency) : Call σ Bool := do
  if d.epyc then
    match d.availableFrequencies.idxOf? frequency with
    | some i =>
      let pState := UInt64.ofNat (d.availableFrequencies.length - 1 - i)
      modifyGet (sys.writeBits d.msr 0xC0010062 2 0 pState)
    | none => return false
  else
    match ← d.getCurrentGovernor sys with
    | GOVERNOR_USERSPACE =>
      if !d.availableFrequencies.contains frequency then
        return false
      d.writeToDomainFiles sys (frequencyToString frequency) "scaling_setspeed"
      return true
    | _ => return false

def setHighestFrequencyUserspace : Call σ Bool :=
  match d.getAvailableFrequencies.getLast? with
  | none => return false
  | some back => d.setFrequencyUserspace sys back

def setLowestFrequencyUserspace : Call σ Bool :=
  match d.getAvailableFrequencies.head? with
  | none => return false
  | some front => d.setFrequencyUserspace sys front

/-- The lower and the upper bound. -/
def getHardwareFrequencyBounds : Call σ (Frequency × Frequency) := do
  if d.epyc then return (0, 0)
  let lowerBound ← sys.readFirstLineFromFile ⟨← d.path, "cpuinfo_min_freq"⟩
  let upperBound ← sys.readFirstLineFromFile ⟨← d.path, "cpuinfo_max_freq"⟩
  return (stringToFrequency lowerBound, stringToFrequency upperBound)

/-- The bounds, or `none` for `false`, which leaves the variables of the caller as they are. -/
def getCurrentGovernorBounds : Call σ (Option (Frequency × Frequency)) := do
  if d.epyc then return none
  let lowerBound ← sys.readFirstLineFromFile ⟨← d.path, "scaling_min_freq"⟩
  let upperBound ← sys.readFirstLineFromFile ⟨← d.path, "scaling_max_freq"⟩
  return some (stringToFrequency lowerBound, stringToFrequency upperBound)

def setGovernorBounds (lowerBound upperBound : Frequency) : Call σ Bool := do
  if d.epyc then return false
  if !d.getAvailableFrequencies.contains lowerBound ||
      !d.getAvailableFrequencies.contains upperBound || lowerBound > upperBound then
    return false
  d.writeToDomainFiles sys (frequencyToString lowerBound) "scaling_min_freq"
  d.writeToDomainFiles sys (frequencyToString upperBound) "scaling_max_freq"
  return true

def setGovernor (governor : Governor) : Call σ Bool := do
  if d.epyc then return governor = GOVERNOR_USERSPACE
  if !d.availableGovernors.contains governor then
    return false
  d.writeToDomainFiles sys (← getGovernorNameFromGovernor governor) "scaling_governor"
  return true

/-- `-1` when the latency is unknown. -/
def getTransitionLatency : Call σ Int :=
  match d.paths with
  | [] => return -1
  | path :: _ => do
    match sys.read ⟨path, "cpuinfo_transition_latency"⟩ (← get) with
    | none => return -1
    | some text => return stringToInt (firstLine text)

def getCurrentVoltage : Call σ UInt64 := sys.voltage d.msr d.epyc

end DomainLinux

end Mammut.Cpufreq
