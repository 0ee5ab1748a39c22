import Mammut.Server.Servant
import Mammut.Topology.Messages

/-! `Topology::processMessage`, from `topology.cpp`: the requests of the clients, on the units of
the server. -/

set_option linter.dupNamespace false

namespace Mammut.Topology

variable {σ α : Type} (sys : System σ)

namespace TopologyLinux

/-- A virtual core forgets its idle time. -/
def resetIdleTime (v : VirtualCoreId) : Call (TopologyLinux × σ) Unit := do
  let idle ← onSnd (VirtualCoreLinux.getAbsoluteIdleTime sys v)
  modify fun s => ({ s.1 with lastProcIdleTime := Function.update s.1.lastProcIdleTime v idle }, s.2)

def getIdleTime (v : VirtualCoreId) : Call (TopologyLinux × σ) ℚ := do
  let idle ← onSnd (VirtualCoreLinux.getAbsoluteIdleTime sys v)
  return idle - (← get).1.lastProcIdleTime v

/-- A change of level `i` of a virtual core. -/
def setLevel (v : VirtualCoreId) (i : ℕ) (f : IdleLevel → IdleLevel) (t : TopologyLinux) :
    TopologyLinux :=
  { t with idleLevels := Function.update t.idleLevels v ((t.idleLevels v).modify i f) }

/-- `resetTime` of level `i`. -/
def resetTime (v : VirtualCoreId) (i : ℕ) (level : IdleLevel) : Call (TopologyLinux × σ) Unit := do
  let time ← onSnd (VirtualCoreIdleLevelLinux.getAbsoluteTime sys v level)
  modify fun s => (s.1.setLevel v i fun l => { l with lastAbsTime := time }, s.2)

def resetCount (v : VirtualCoreId) (i : ℕ) (level : IdleLevel) : Call (TopologyLinux × σ) Unit := do
  let count ← onSnd (VirtualCoreIdleLevelLinux.getAbsoluteCount sys v level)
  modify fun s => (s.1.setLevel v i fun l => { l with lastAbsCount := count }, s.2)

end TopologyLinux

namespace Service

/-- `PROCESS_CPU_REQUEST`. -/
def onCpu (id : UInt32) (processing : Cpu → Call (TopologyLinux × σ) α) :
    Call (TopologyLinux × σ) α := do
  match (← get).1.topology.getCpu id.toNat with
  | some c => processing c
  | none => throw (.runtimeError
      "FATAL exception. Operation required on non existing CPU. This should never happen.")

/-- `PROCESS_VIRTUAL_CORE_REQUEST`. -/
def onVirtualCore (id : UInt32) (processing : VirtualCoreId → Call (TopologyLinux × σ) α) :
    Call (TopologyLinux × σ) α := do
  match (← get).1.topology.getVirtualCore id.toNat with
  | some vc => processing vc.virtualCoreId
  | none => throw (.runtimeError
      "FATAL exception. Operation required on non existing VirtualCore. This should never happen.")

/-- `PROCESS_IDLE_LEVEL`: the field that the last level with the identifier sets. -/
def onLevels (levelId : UInt32) (processing : VirtualCoreId → ℕ → IdleLevel →
    Call (TopologyLinux × σ) α) (v : VirtualCoreId) : Call (TopologyLinux × σ) (Option α) := do
  let levels := (← get).1.idleLevels v
  if levels = [] then
    throw (.runtimeError "Idle levels not present.")
  levels.zipIdx.foldlM (fun field (level, i) =>
    if level.levelId = levelId then some <$> processing v i level else pure field) none

/-- A function of the system on a level. -/
def read (k : VirtualCoreId → IdleLevel → Call σ α) (v : VirtualCoreId) (_ : ℕ)
    (level : IdleLevel) : Call (TopologyLinux × σ) α := onSnd (k v level)

open VirtualCoreIdleLevelLinux in
/-- The processing of the requests about an idle level. -/
def serveLevel (levelId : UInt32) (v : VirtualCoreId) :
    LevelRequest → Call (TopologyLinux × σ) Response
  | .getName => return .idleLevelGetNameRes (← onLevels levelId (read (getName sys)) v)
  | .getDesc => return .idleLevelGetDescRes (← onLevels levelId (read (getDesc sys)) v)
  | .isEnableable => return .resultBool (← onLevels levelId (read (isEnableable sys)) v)
  | .isEnabled => return .resultBool (← onLevels levelId (read (isEnabled sys)) v)
  | .enable => do
    let _ ← onLevels levelId (read (enable sys)) v
    return .resultVoid
  | .disable => do
    let _ ← onLevels levelId (read (disable sys)) v
    return .resultVoid
  | .getExitLatency =>
    return .idleLevelGetExitLatencyRes (← onLevels levelId (read (getExitLatency sys)) v)
  | .getConsumedPower =>
    return .idleLevelGetConsumedPowerRes (← onLevels levelId (read (getConsumedPower sys)) v)
  | .getAbsTime => return .idleLevelGetTimeRes (← onLevels levelId (read (getAbsoluteTime sys)) v)
  | .getTime => return .idleLevelGetTimeRes (← onLevels levelId (read (getTime sys)) v)
  | .resetTime => do
    let _ ← onLevels levelId (TopologyLinux.resetTime sys) v
    return .resultVoid
  | .getAbsCount => return .idleLevelGetCountRes (← onLevels levelId (read (getAbsoluteCount sys)) v)
  | .getCount => return .idleLevelGetCountRes (← onLevels levelId (read (getCount sys)) v)
  | .resetCount => do
    let _ ← onLevels levelId (TopologyLinux.resetCount sys) v
    return .resultVoid

/-- The virtual cores of the unit of a `SetUtilization`, if it exists. -/
def unitCores (t : Topology) (unitType : UnitType) (id : UInt32) : Option (List VirtualCore) :=
  match unitType with
  | .TOPOLOGY => some t.virtualCores
  | .CPU => (t.getCpu id.toNat).map (·.virtualCores)
  | .PHYSICAL_CORE => (t.getPhysicalCore id.toNat).map (·.virtualCores)
  | .VIRTUAL_CORE => (t.getVirtualCore id.toNat).map ([·])

/-- The block of `processMessage` for a request. -/
def serve : Request → Call (TopologyLinux × σ) Response
  | .getTopology => do
    let virtualCores := (← get).1.topology.virtualCores
    return .getTopologyRes (virtualCores.map fun vc =>
      ⟨vc.cpuId, vc.physicalCoreId, vc.virtualCoreId⟩)
  | .setUtilization type unitType id => do
    match unitCores (← get).1.topology unitType id with
    | none => throw (.runtimeError "Operation required on non existing unit.")
    | some virtualCores =>
      match type with
      | .MAXIMIZE => onSnd (maximizeUtilization sys virtualCores)
      | .RESET => onSnd (resetUtilization sys virtualCores)
      return .resultVoid
  | .getCpuVendorId id => onCpu id fun _ => do
    return .getCpuVendorIdRes (← onSnd (CpuLinux.getVendorId sys))
  | .getCpuFamily id => onCpu id fun _ => do
    return .getCpuFamilyRes (← onSnd (CpuLinux.getFamily sys))
  | .getCpuModel id => onCpu id fun _ => do
    return .getCpuModelRes (← onSnd (CpuLinux.getModel sys))
  | .getAbsoluteTicks id => onVirtualCore id fun v => do
    return .resultUint64 (← onSnd (VirtualCoreLinux.getAbsoluteTicks sys v))
  | .hasFlag id flagName => onVirtualCore id fun v => do
    return .resultBool (some (← onSnd (VirtualCoreLinux.hasFlag sys v flagName)))
  | .isHotPluggable id => onVirtualCore id fun v => do
    return .resultBool (some (← onSnd (VirtualCoreLinux.isHotPluggable sys v)))
  | .isHotPlugged id => onVirtualCore id fun v => do
    return .resultBool (some (← onSnd (VirtualCoreLinux.isHotPlugged sys v)))
  | .hotPlug id => onVirtualCore id fun v => do
    onSnd (VirtualCoreLinux.hotPlug sys v)
    return .resultVoid
  | .hotUnplug id => onVirtualCore id fun v => do
    onSnd (VirtualCoreLinux.hotUnplug sys v)
    return .resultVoid
  | .getIdleTime id => onVirtualCore id fun v => do
    return .getIdleTimeRes (← TopologyLinux.getIdleTime sys v)
  | .resetIdleTime id => onVirtualCore id fun v => do
    TopologyLinux.resetIdleTime sys v
    return .resultVoid
  | .idleLevel request id levelId => onVirtualCore id fun v => serveLevel sys levelId v request
  | .idleLevelsGet id => onVirtualCore id fun v => do
    return .idleLevelsGetRes (((← get).1.idleLevels v).map (·.levelId))

/-- `processMessage`: the block of the request whose name the identifier is, if its text can be
parsed. -/
def processMessage (proto : Protobuf Request Response) : Module (TopologyLinux × σ) :=
  fun messageIdIn messageIn =>
    match proto.parseRequest messageIdIn messageIn with
    | none => return none
    | some request => do return setMessageFromData proto schema (← serve sys request)

end Service

end Mammut.Topology
