import Mathlib.Data.Rat.Init
import Mathlib.Logic.Function.Basic
import Mammut.Cxx
import Mammut.Topology.Build
import Mammut.Utils.Text

/-! The units of a `TopologyLinux`, from `topology-linux.cpp`: what they read from the files of the
kernel and from the registers, and what they write to them. -/

set_option linter.dupNamespace false

namespace Mammut.Topology

open Utils

variable {σ : Type}

/-- The system as the units find it. -/
structure System (σ : Type) where
  sysfsRootPrefix : String
  /-- The contents of a file that can be opened. -/
  read : String → σ → Option String
  /-- Whether a file could be opened to write a text to it. -/
  write : String → String → σ → Bool × σ
  /-- The time stamp counter of a virtual core whose registers can be read. -/
  readTsc : VirtualCoreId → σ → Option UInt64
  clockTicksPerSecond : ℕ
  /-- `maximizeUtilization` of a virtual core, whose thread is moved to it. -/
  maximizeUtilization : VirtualCoreId → Call σ Unit
  resetUtilization : VirtualCoreId → Call σ Unit

/-- A `VirtualCoreIdleLevelLinux`. -/
structure IdleLevel where
  levelId : UInt32
  lastAbsTime : UInt32
  lastAbsCount : UInt32
  deriving DecidableEq, Repr

/-- A `TopologyLinux` with what its virtual cores remember. -/
structure TopologyLinux where
  topology : Topology
  idleLevels : VirtualCoreId → List IdleLevel
  lastProcIdleTime : VirtualCoreId → ℚ

namespace System

variable (sys : System σ)

def existsFile (fileName : String) : Call σ Bool := return (sys.read fileName (← get)).isSome

def readFirstLineFromFile (fileName : String) : Call σ String := do
  match sys.read fileName (← get) with
  | some text => return firstLine text
  | none => throw (.runtimeError ("Impossible to open file " ++ fileName))

/-- The lines of the file. -/
def readFile (fileName : String) : Call σ (List String) := do
  match sys.read fileName (← get) with
  | some text => return split text '\n'
  | none => throw (.runtimeError ("Impossible to open file " ++ fileName))

theorem readFile_run {fileName text : String} {s : σ} (h : sys.read fileName s = some text) :
    (sys.readFile fileName).run s = .ok (split text '\n') s := by
  simp [readFile, h]

def writeFile (fileName line : String) : Call σ Unit := do
  if !(← modifyGet (sys.write fileName (line ++ "\n"))) then
    throw (.runtimeError ("Impossible to open file: " ++ fileName))

/-- A `uint` from the number in the first line of a file. -/
def readUint (fileName : String) : Call σ UInt32 := do
  return ⟨BitVec.ofInt 32 (stringToInt (← sys.readFirstLineFromFile fileName))⟩

/-- The directory of a virtual core. -/
def cpuPath (v : VirtualCoreId) : String :=
  sys.sysfsRootPrefix ++ "/sys/devices/system/cpu/cpu" ++ intToString v

end System

namespace CpuLinux

variable (sys : System σ)

/-- The value in a line of `/proc/cpuinfo`. -/
def infoOf (line : String) : Call σ String :=
  match (split line ':')[1]? with
  | some value => return ltrim value
  | none => throw .outOfRange

def getCpuInfo (infoName : String) : Call σ String := do
  match sys.read (sys.sysfsRootPrefix ++ "/proc/cpuinfo") (← get) with
  | none => throw (.runtimeError "Impossible to open /proc/cpuinfo.")
  | some text =>
    match (split text '\n').find? (startsWith · infoName) with
    | some line => infoOf line
    | none => return ""

def getVendorId : Call σ String := getCpuInfo sys "vendor_id"

def getFamily : Call σ String := getCpuInfo sys "cpu family"

def getModel : Call σ String := getCpuInfo sys "model"

end CpuLinux

/-- `maximizeUtilization` of a CPU, a physical core or a topology, of its virtual cores. -/
def maximizeUtilization (sys : System σ) (virtualCores : List VirtualCore) : Call σ Unit :=
  virtualCores.forM fun v => sys.maximizeUtilization v.virtualCoreId

def resetUtilization (sys : System σ) (virtualCores : List VirtualCore) : Call σ Unit :=
  virtualCores.forM fun v => sys.resetUtilization v.virtualCoreId

namespace VirtualCoreLinux

variable (sys : System σ) (v : VirtualCoreId)

/-- The loop of `hasFlag`, with `procFound`. -/
def flagIn (flagName : String) : Bool → List String → Bool
  | _, [] => false
  | false, line :: file =>
    -- `find` of the number is 0 only at the beginning, where the line has another word
    flagIn flagName (startsWith line "processor" && !startsWith line (" " ++ intToString v)) file
  | true, line :: file =>
    if startsWith line "flags" && (contains line (" " ++ flagName ++ " ") ||
        contains line (" " ++ flagName ++ "\n")) then true
    else if startsWith line "processor" then false
    else flagIn flagName true file

def hasFlag (flagName : String) : Call σ Bool := do
  let cpuinfo := sys.sysfsRootPrefix ++ "/proc/cpuinfo"
  if ← sys.existsFile cpuinfo then
    return flagIn v flagName false (← sys.readFile cpuinfo)
  return false

def getAbsoluteTicks : Call σ UInt64 := return (sys.readTsc v (← get)).getD 0

/-- The field of a line of `/proc/stat`, if the line is taken for that of the virtual core. -/
def procStatField (type : ℕ) (field : Option Int) (line : String) : Call σ (Option Int) :=
  if contains line ("cpu" ++ intToString v) then
    match (split line ' ')[type]? with
    | some s => return some (intOf (stringToInt s))
    | none => throw .undefined
  else return field

/-- Microseconds. -/
def getProcStatTime (type : ℕ) : Call σ ℚ := do
  let lines ← sys.readFile (sys.sysfsRootPrefix ++ "/proc/stat")
  match ← lines.foldlM (procStatField v type) none with
  | none => return -1
  | some field => return field / sys.clockTicksPerSecond * 1000000

/-- `PROC_STAT_IDLE`. -/
def getAbsoluteIdleTime : Call σ ℚ := getProcStatTime sys v 4

/-- `_hotplugFile`. -/
def hotplugFile : String := sys.cpuPath v ++ "/online"

def isHotPluggable : Call σ Bool := sys.existsFile (hotplugFile sys v)

def isHotPlugged : Call σ Bool := do
  if ← isHotPluggable sys v then
    return stringToInt (← sys.readFirstLineFromFile (hotplugFile sys v)) > 0
  return true

def hotPlug : Call σ Unit := do
  if ← isHotPluggable sys v then
    sys.writeFile (hotplugFile sys v) "1"

def hotUnplug : Call σ Unit := do
  if ← isHotPluggable sys v then
    sys.writeFile (hotplugFile sys v) "0"

end VirtualCoreLinux

namespace VirtualCoreIdleLevelLinux

variable (sys : System σ) (v : VirtualCoreId) (level : IdleLevel)

/-- A file of the level, in its `_path`. -/
def file (name : String) : String :=
  sys.cpuPath v ++ "/cpuidle/state" ++ intToString level.levelId.toNat ++ "/" ++ name

def getName : Call σ String := sys.readFirstLineFromFile (file sys v level "name")

def getDesc : Call σ String := sys.readFirstLineFromFile (file sys v level "desc")

def isEnableable : Call σ Bool := sys.existsFile (file sys v level "disable")

def isEnabled : Call σ Bool := do
  if ← isEnableable sys v level then
    return (← sys.readFirstLineFromFile (file sys v level "disable")) = "0"
  return true

def enable : Call σ Unit := sys.writeFile (file sys v level "disable") "0"

def disable : Call σ Unit := sys.writeFile (file sys v level "disable") "1"

def getExitLatency : Call σ UInt32 := sys.readUint (file sys v level "latency")

def getConsumedPower : Call σ UInt32 := sys.readUint (file sys v level "power")

def getAbsoluteTime : Call σ UInt32 := sys.readUint (file sys v level "time")

def getTime : Call σ UInt32 := return (← getAbsoluteTime sys v level) - level.lastAbsTime

def getAbsoluteCount : Call σ UInt32 := sys.readUint (file sys v level "usage")

def getCount : Call σ UInt32 := return (← getAbsoluteCount sys v level) - level.lastAbsCount

end VirtualCoreIdleLevelLinux

end Mammut.Topology
