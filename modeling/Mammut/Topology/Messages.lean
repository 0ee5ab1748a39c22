import Mammut.Communicator.Remote
import Mammut.Topology.Linux

/-! The messages of `topology-remote.proto`. -/

namespace Mammut.Topology

/-- `SetUtilization::UnitType`. -/
inductive UnitType
  | TOPOLOGY
  | CPU
  | PHYSICAL_CORE
  | VIRTUAL_CORE
  deriving DecidableEq, Repr

/-- `SetUtilization::Type`. -/
inductive Utilization
  | MAXIMIZE
  | RESET
  deriving DecidableEq, Repr

/-- A request about an idle level. -/
inductive LevelRequest
  | getName
  | getDesc
  | isEnableable
  | isEnabled
  | enable
  | disable
  | getExitLatency
  | getConsumedPower
  | getAbsTime
  | getTime
  | resetTime
  | getAbsCount
  | getCount
  | resetCount
  deriving DecidableEq, Repr

inductive Request
  | getTopology
  | setUtilization (type : Utilization) (unitType : UnitType) (id : UInt32)
  | getCpuVendorId (cpuId : UInt32)
  | getCpuFamily (cpuId : UInt32)
  | getCpuModel (cpuId : UInt32)
  | getAbsoluteTicks (virtualCoreId : UInt32)
  | hasFlag (virtualCoreId : UInt32) (flagName : String)
  | isHotPluggable (virtualCoreId : UInt32)
  | isHotPlugged (virtualCoreId : UInt32)
  | hotPlug (virtualCoreId : UInt32)
  | hotUnplug (virtualCoreId : UInt32)
  | getIdleTime (virtualCoreId : UInt32)
  | resetIdleTime (virtualCoreId : UInt32)
  /-- `IdleLevelGetName` and the other requests with these two fields. -/
  | idleLevel (request : LevelRequest) (virtualCoreId levelId : UInt32)
  | idleLevelsGet (virtualCoreId : UInt32)
  deriving DecidableEq, Repr

/-- A response; `none` is a required field that was not set. -/
inductive Response
  | getTopologyRes (coordinates : List VirtualCoreCoordinates)
  | getCpuVendorIdRes (vendorId : String)
  | getCpuFamilyRes (family : String)
  | getCpuModelRes (model : String)
  | getIdleTimeRes (idleTime : ℚ)
  | idleLevelsGetRes (levelId : List UInt32)
  | idleLevelGetNameRes (name : Option String)
  | idleLevelGetDescRes (description : Option String)
  | idleLevelGetExitLatencyRes (exitLatency : Option UInt32)
  | idleLevelGetConsumedPowerRes (consumedPower : Option UInt32)
  | idleLevelGetTimeRes (time : Option UInt32)
  | idleLevelGetCountRes (count : Option UInt32)
  | resultVoid
  | resultBool (result : Option Bool)
  | resultUint64 (result : UInt64)
  deriving DecidableEq

def LevelRequest.name : LevelRequest → String
  | getName => "IdleLevelGetName"
  | getDesc => "IdleLevelGetDesc"
  | isEnableable => "IdleLevelIsEnableable"
  | isEnabled => "IdleLevelIsEnabled"
  | enable => "IdleLevelEnable"
  | disable => "IdleLevelDisable"
  | getExitLatency => "IdleLevelGetExitLatency"
  | getConsumedPower => "IdleLevelGetConsumedPower"
  | getAbsTime => "IdleLevelGetAbsTime"
  | getTime => "IdleLevelGetTime"
  | resetTime => "IdleLevelResetTime"
  | getAbsCount => "IdleLevelGetAbsCount"
  | getCount => "IdleLevelGetCount"
  | resetCount => "IdleLevelResetCount"

def Request.name : Request → String
  | getTopology => "GetTopology"
  | setUtilization _ _ _ => "SetUtilization"
  | getCpuVendorId _ => "GetCpuVendorId"
  | getCpuFamily _ => "GetCpuFamily"
  | getCpuModel _ => "GetCpuModel"
  | getAbsoluteTicks _ => "GetAbsoluteTicks"
  | hasFlag _ _ => "HasFlag"
  | isHotPluggable _ => "IsHotPluggable"
  | isHotPlugged _ => "IsHotPlugged"
  | hotPlug _ => "HotPlug"
  | hotUnplug _ => "HotUnplug"
  | getIdleTime _ => "GetIdleTime"
  | resetIdleTime _ => "ResetIdleTime"
  | idleLevel request _ _ => request.name
  | idleLevelsGet _ => "IdleLevelsGet"

def Response.name : Response → String
  | getTopologyRes _ => "GetTopologyRes"
  | getCpuVendorIdRes _ => "GetCpuVendorIdRes"
  | getCpuFamilyRes _ => "GetCpuFamilyRes"
  | getCpuModelRes _ => "GetCpuModelRes"
  | getIdleTimeRes _ => "GetIdleTimeRes"
  | idleLevelsGetRes _ => "IdleLevelsGetRes"
  | idleLevelGetNameRes _ => "IdleLevelGetNameRes"
  | idleLevelGetDescRes _ => "IdleLevelGetDescRes"
  | idleLevelGetExitLatencyRes _ => "IdleLevelGetExitLatencyRes"
  | idleLevelGetConsumedPowerRes _ => "IdleLevelGetConsumedPowerRes"
  | idleLevelGetTimeRes _ => "IdleLevelGetTimeRes"
  | idleLevelGetCountRes _ => "IdleLevelGetCountRes"
  | resultVoid => "ResultVoid"
  | resultBool _ => "ResultBool"
  | resultUint64 _ => "ResultUint64"

/-- The name of a message of the package. -/
def messageName (name : String) : String := "mammut.topology." ++ name

/-- The definition, which `rw` is slow to unfold. -/
theorem messageName_eq (name : String) : messageName name = "mammut.topology." ++ name := rfl

def schema : Schema Request Response where
  requestName r := messageName r.name
  responseName r := messageName r.name

end Mammut.Topology
