import Mammut.Server.Calls
import Mammut.Topology.HotPlug
import Mammut.Topology.Remote

/-! The units of a client's topology, from `topology-remote.cpp`, beside the units of the server
that they stand for: the calls of a client, and the same calls on the server's units. -/

set_option linter.dupNamespace false

namespace Mammut.Topology

open Service

variable {σ α : Type}

namespace Expect

def resultVoid : Expected Response Unit where
  name := messageName "ResultVoid"
  read r := match r with
    | .resultVoid => some ()
    | _ => none

def resultBool : Expected Response Bool where
  name := messageName "ResultBool"
  read r := match r with
    | .resultBool result => result
    | _ => none

def resultUint64 : Expected Response UInt64 where
  name := messageName "ResultUint64"
  read r := match r with
    | .resultUint64 result => some result
    | _ => none

def vendorId : Expected Response String where
  name := messageName "GetCpuVendorIdRes"
  read r := match r with
    | .getCpuVendorIdRes vendorId => some vendorId
    | _ => none

def family : Expected Response String where
  name := messageName "GetCpuFamilyRes"
  read r := match r with
    | .getCpuFamilyRes family => some family
    | _ => none

def model : Expected Response String where
  name := messageName "GetCpuModelRes"
  read r := match r with
    | .getCpuModelRes model => some model
    | _ => none

def idleTime : Expected Response ℚ where
  name := messageName "GetIdleTimeRes"
  read r := match r with
    | .getIdleTimeRes idleTime => some idleTime
    | _ => none

def idleLevels : Expected Response (List UInt32) where
  name := messageName "IdleLevelsGetRes"
  read r := match r with
    | .idleLevelsGetRes levelId => some levelId
    | _ => none

def levelName : Expected Response String where
  name := messageName "IdleLevelGetNameRes"
  read r := match r with
    | .idleLevelGetNameRes name => name
    | _ => none

def levelDesc : Expected Response String where
  name := messageName "IdleLevelGetDescRes"
  read r := match r with
    | .idleLevelGetDescRes description => description
    | _ => none

def exitLatency : Expected Response UInt32 where
  name := messageName "IdleLevelGetExitLatencyRes"
  read r := match r with
    | .idleLevelGetExitLatencyRes exitLatency => exitLatency
    | _ => none

def consumedPower : Expected Response UInt32 where
  name := messageName "IdleLevelGetConsumedPowerRes"
  read r := match r with
    | .idleLevelGetConsumedPowerRes consumedPower => consumedPower
    | _ => none

def levelTime : Expected Response UInt32 where
  name := messageName "IdleLevelGetTimeRes"
  read r := match r with
    | .idleLevelGetTimeRes time => time
    | _ => none

def levelCount : Expected Response UInt32 where
  name := messageName "IdleLevelGetCountRes"
  read r := match r with
    | .idleLevelGetCountRes count => count
    | _ => none

end Expect

/-- A unit whose utilization can be set. -/
inductive LoadUnit
  | topology
  | cpu (c : Cpu)
  | physicalCore (p : PhysicalCore)
  | virtualCore (v : VirtualCore)

namespace LoadUnit

def unitType : LoadUnit → UnitType
  | topology => .TOPOLOGY
  | cpu _ => .CPU
  | physicalCore _ => .PHYSICAL_CORE
  | virtualCore _ => .VIRTUAL_CORE

def id : LoadUnit → ℕ
  | topology => 0
  | cpu c => c.cpuId
  | physicalCore p => p.physicalCoreId
  | virtualCore v => v.virtualCoreId

/-- The virtual cores that the functions of the unit loop over. -/
def virtualCores (t : Topology) : LoadUnit → List VirtualCore
  | topology => t.virtualCores
  | cpu c => c.virtualCores
  | physicalCore p => p.virtualCores
  | virtualCore v => [v]

/-- The unit is the one of the topology with its identifier. -/
def Of (t : Topology) : LoadUnit → Prop
  | topology => True
  | cpu c => t.getCpu c.cpuId = some c
  | physicalCore p => t.getPhysicalCore p.physicalCoreId = some p
  | virtualCore v => t.getVirtualCore v.virtualCoreId = some v

end LoadUnit

/-- A call about the hot plugging of a virtual core, or of a unit that has several. -/
inductive PlugCall
  | isHotPluggable
  | isHotPlugged
  | hotPlug
  | hotUnplug
  deriving DecidableEq, Repr

/-- A call of a client on one of its units. -/
inductive ClientCall
  | setUtilization (type : Utilization) (u : LoadUnit)
  | getVendorId (c : Cpu)
  | getFamily (c : Cpu)
  | getModel (c : Cpu)
  | hasFlag (v : VirtualCore) (flagName : String)
  | getAbsoluteTicks (v : VirtualCore)
  | getIdleTime (v : VirtualCore)
  | resetIdleTime (v : VirtualCore)
  | plugCore (call : PlugCall) (v : VirtualCore)
  | plugUnit (call : PlugCall) (u : PluggableUnit)
  /-- A call on the idle level at a position of the core's. -/
  | level (request : LevelRequest) (v : VirtualCore) (i : ℕ)

/-- What a call returns. -/
inductive ClientValue
  | unit
  | flag (b : Bool)
  | text (s : String)
  | number (n : UInt32)
  | ticks (n : UInt64)
  | time (x : ℚ)
  deriving DecidableEq

section Remote

variable (proto : Protobuf Request Response)
  (moduleDispatcher : String → Option (Module (TopologyLinux × σ)))

def request (r : Request) (expected : Expected Response α) :
    Call (Session (TopologyLinux × σ)) α :=
  remoteCall proto schema moduleDispatcher r expected

/-- `setUtilization`. -/
def setUtilization (type : Utilization) (u : LoadUnit) : Call (Session (TopologyLinux × σ)) Unit :=
  request proto moduleDispatcher (.setUtilization type u.unitType (UInt32.ofNat u.id))
    Expect.resultVoid

namespace CpuRemote

variable (cpuId : CpuId)

def getVendorId : Call (Session (TopologyLinux × σ)) String :=
  request proto moduleDispatcher (.getCpuVendorId (UInt32.ofNat cpuId)) Expect.vendorId

def getFamily : Call (Session (TopologyLinux × σ)) String :=
  request proto moduleDispatcher (.getCpuFamily (UInt32.ofNat cpuId)) Expect.family

def getModel : Call (Session (TopologyLinux × σ)) String :=
  request proto moduleDispatcher (.getCpuModel (UInt32.ofNat cpuId)) Expect.model

end CpuRemote

namespace VirtualCoreRemote

variable (v : VirtualCoreId)

def hasFlag (flagName : String) : Call (Session (TopologyLinux × σ)) Bool :=
  request proto moduleDispatcher (.hasFlag (UInt32.ofNat v) flagName) Expect.resultBool

def getAbsoluteTicks : Call (Session (TopologyLinux × σ)) UInt64 :=
  request proto moduleDispatcher (.getAbsoluteTicks (UInt32.ofNat v)) Expect.resultUint64

def getIdleTime : Call (Session (TopologyLinux × σ)) ℚ :=
  request proto moduleDispatcher (.getIdleTime (UInt32.ofNat v)) Expect.idleTime

def resetIdleTime : Call (Session (TopologyLinux × σ)) Unit :=
  request proto moduleDispatcher (.resetIdleTime (UInt32.ofNat v)) Expect.resultVoid

def isHotPluggable : Call (Session (TopologyLinux × σ)) Bool :=
  request proto moduleDispatcher (.isHotPluggable (UInt32.ofNat v)) Expect.resultBool

def isHotPlugged : Call (Session (TopologyLinux × σ)) Bool :=
  request proto moduleDispatcher (.isHotPlugged (UInt32.ofNat v)) Expect.resultBool

def hotPlug : Call (Session (TopologyLinux × σ)) Unit :=
  request proto moduleDispatcher (.hotPlug (UInt32.ofNat v)) Expect.resultVoid

def hotUnplug : Call (Session (TopologyLinux × σ)) Unit :=
  request proto moduleDispatcher (.hotUnplug (UInt32.ofNat v)) Expect.resultVoid

end VirtualCoreRemote

namespace VirtualCoreIdleLevelRemote

variable (v : VirtualCoreId) (levelId : UInt32)

/-- The request about the level. -/
def ask (r : LevelRequest) (expected : Expected Response α) :
    Call (Session (TopologyLinux × σ)) α :=
  request proto moduleDispatcher (.idleLevel r (UInt32.ofNat v) levelId) expected

/-- The functions of the level. -/
def call : LevelRequest → Call (Session (TopologyLinux × σ)) ClientValue
  | .getName => return .text (← ask proto moduleDispatcher v levelId .getName Expect.levelName)
  | .getDesc => return .text (← ask proto moduleDispatcher v levelId .getDesc Expect.levelDesc)
  | .isEnableable =>
    return .flag (← ask proto moduleDispatcher v levelId .isEnableable Expect.resultBool)
  | .isEnabled => return .flag (← ask proto moduleDispatcher v levelId .isEnabled Expect.resultBool)
  | .enable => do
    ask proto moduleDispatcher v levelId .enable Expect.resultVoid
    return .unit
  | .disable => do
    ask proto moduleDispatcher v levelId .disable Expect.resultVoid
    return .unit
  | .getExitLatency =>
    return .number (← ask proto moduleDispatcher v levelId .getExitLatency Expect.exitLatency)
  | .getConsumedPower =>
    return .number (← ask proto moduleDispatcher v levelId .getConsumedPower Expect.consumedPower)
  | .getAbsTime =>
    return .number (← ask proto moduleDispatcher v levelId .getAbsTime Expect.levelTime)
  | .getTime => return .number (← ask proto moduleDispatcher v levelId .getTime Expect.levelTime)
  | .resetTime => do
    ask proto moduleDispatcher v levelId .resetTime Expect.resultVoid
    return .unit
  | .getAbsCount =>
    return .number (← ask proto moduleDispatcher v levelId .getAbsCount Expect.levelCount)
  | .getCount => return .number (← ask proto moduleDispatcher v levelId .getCount Expect.levelCount)
  | .resetCount => do
    ask proto moduleDispatcher v levelId .resetCount Expect.resultVoid
    return .unit

/-- The constructor of the level. -/
def new : Call (Session (TopologyLinux × σ)) Unit := do
  let _ ← call proto moduleDispatcher v levelId .resetTime
  let _ ← call proto moduleDispatcher v levelId .resetCount

end VirtualCoreIdleLevelRemote

/-- The constructor of a virtual core: the identifiers of its idle levels. -/
def VirtualCoreRemote.new (v : VirtualCoreId) :
    Call (Session (TopologyLinux × σ)) (List UInt32) := do
  let levelIds ← request proto moduleDispatcher (.idleLevelsGet (UInt32.ofNat v)) Expect.idleLevels
  levelIds.forM fun levelId => VirtualCoreIdleLevelRemote.new proto moduleDispatcher v levelId
  VirtualCoreRemote.resetIdleTime proto moduleDispatcher v
  return levelIds

end Remote

namespace PluggableUnit

variable {τ : Type}

/-- The virtual cores are asked one after the other, until one says no. -/
def all (query : VirtualCoreId → Call τ Bool) : PluggableUnit → Call τ Bool
  | physicalCore p => p.virtualCores.allM fun v => query v.virtualCoreId
  | cpu _ physicalCores => physicalCores.allM fun p =>
      p.virtualCores.allM fun v => query v.virtualCoreId

/-- The virtual cores are told one after the other. -/
def each (command : VirtualCoreId → Call τ Unit) : PluggableUnit → Call τ Unit
  | physicalCore p => p.virtualCores.forM fun v => command v.virtualCoreId
  | cpu _ physicalCores => physicalCores.forM fun p =>
      p.virtualCores.forM fun v => command v.virtualCoreId

end PluggableUnit

namespace PlugCall

section Remote

variable (proto : Protobuf Request Response)
  (moduleDispatcher : String → Option (Module (TopologyLinux × σ)))

/-- The call on a virtual core of the client. -/
def remoteCore (v : VirtualCoreId) : PlugCall → Call (Session (TopologyLinux × σ)) ClientValue
  | isHotPluggable => return .flag (← VirtualCoreRemote.isHotPluggable proto moduleDispatcher v)
  | isHotPlugged => return .flag (← VirtualCoreRemote.isHotPlugged proto moduleDispatcher v)
  | hotPlug => do
    VirtualCoreRemote.hotPlug proto moduleDispatcher v
    return .unit
  | hotUnplug => do
    VirtualCoreRemote.hotUnplug proto moduleDispatcher v
    return .unit

/-- The call on a physical core or a CPU of the client. -/
def remoteUnit (u : PluggableUnit) : PlugCall → Call (Session (TopologyLinux × σ)) ClientValue
  | isHotPluggable =>
    return .flag (← u.all (VirtualCoreRemote.isHotPluggable proto moduleDispatcher))
  | isHotPlugged =>
    return .flag (← u.all (VirtualCoreRemote.isHotPlugged proto moduleDispatcher))
  | hotPlug => do
    u.each (VirtualCoreRemote.hotPlug proto moduleDispatcher)
    return .unit
  | hotUnplug => do
    u.each (VirtualCoreRemote.hotUnplug proto moduleDispatcher)
    return .unit

end Remote

variable (sys : System σ)

def onCore (v : VirtualCoreId) : PlugCall → Call σ ClientValue
  | isHotPluggable => return .flag (← VirtualCoreLinux.isHotPluggable sys v)
  | isHotPlugged => return .flag (← VirtualCoreLinux.isHotPlugged sys v)
  | hotPlug => do
    VirtualCoreLinux.hotPlug sys v
    return .unit
  | hotUnplug => do
    VirtualCoreLinux.hotUnplug sys v
    return .unit

def onUnit (u : PluggableUnit) : PlugCall → Call σ ClientValue
  | isHotPluggable => return .flag (← u.isHotPluggable sys)
  | isHotPlugged => return .flag (← u.isHotPlugged sys)
  | hotPlug => do
    u.hotPlug sys
    return .unit
  | hotUnplug => do
    u.hotUnplug sys
    return .unit

/-- The request about a virtual core. -/
def request (v : VirtualCoreId) : PlugCall → Request
  | isHotPluggable => .isHotPluggable (UInt32.ofNat v)
  | isHotPlugged => .isHotPlugged (UInt32.ofNat v)
  | hotPlug => .hotPlug (UInt32.ofNat v)
  | hotUnplug => .hotUnplug (UInt32.ofNat v)

end PlugCall

namespace TopologyLinux

variable (sys : System σ)

open VirtualCoreIdleLevelLinux in
/-- A function of level `i` of a virtual core. -/
def callLevel (v : VirtualCoreId) (i : ℕ) (level : IdleLevel) :
    LevelRequest → Call (TopologyLinux × σ) ClientValue
  | .getName => return .text (← read (getName sys) v i level)
  | .getDesc => return .text (← read (getDesc sys) v i level)
  | .isEnableable => return .flag (← read (isEnableable sys) v i level)
  | .isEnabled => return .flag (← read (isEnabled sys) v i level)
  | .enable => do
    read (enable sys) v i level
    return .unit
  | .disable => do
    read (disable sys) v i level
    return .unit
  | .getExitLatency => return .number (← read (getExitLatency sys) v i level)
  | .getConsumedPower => return .number (← read (getConsumedPower sys) v i level)
  | .getAbsTime => return .number (← read (getAbsoluteTime sys) v i level)
  | .getTime => return .number (← read (getTime sys) v i level)
  | .resetTime => do
    TopologyLinux.resetTime sys v i level
    return .unit
  | .getAbsCount => return .number (← read (getAbsoluteCount sys) v i level)
  | .getCount => return .number (← read (getCount sys) v i level)
  | .resetCount => do
    TopologyLinux.resetCount sys v i level
    return .unit

/-- The level at a position, as it is now. -/
def atLevel (v : VirtualCoreId) (i : ℕ) (k : IdleLevel → Call (TopologyLinux × σ) α) :
    Call (TopologyLinux × σ) α := do
  match ((← get).1.idleLevels v)[i]? with
  | some level => k level
  | none => throw .undefined

end TopologyLinux

namespace ClientCall

/-- The call on the client's unit; `levelIds` are the identifiers that its virtual cores have asked
for. -/
def remote (proto : Protobuf Request Response)
    (moduleDispatcher : String → Option (Module (TopologyLinux × σ)))
    (levelIds : VirtualCoreId → List UInt32) : ClientCall → Call (Session (TopologyLinux × σ)) ClientValue
  | setUtilization type u => do
    Topology.setUtilization proto moduleDispatcher type u
    return .unit
  | getVendorId c => return .text (← CpuRemote.getVendorId proto moduleDispatcher c.cpuId)
  | getFamily c => return .text (← CpuRemote.getFamily proto moduleDispatcher c.cpuId)
  | getModel c => return .text (← CpuRemote.getModel proto moduleDispatcher c.cpuId)
  | hasFlag v flagName =>
    return .flag (← VirtualCoreRemote.hasFlag proto moduleDispatcher v.virtualCoreId flagName)
  | getAbsoluteTicks v =>
    return .ticks (← VirtualCoreRemote.getAbsoluteTicks proto moduleDispatcher v.virtualCoreId)
  | getIdleTime v =>
    return .time (← VirtualCoreRemote.getIdleTime proto moduleDispatcher v.virtualCoreId)
  | resetIdleTime v => do
    VirtualCoreRemote.resetIdleTime proto moduleDispatcher v.virtualCoreId
    return .unit
  | plugCore call v => call.remoteCore proto moduleDispatcher v.virtualCoreId
  | plugUnit call u => call.remoteUnit proto moduleDispatcher u
  | level r v i =>
    match (levelIds v.virtualCoreId)[i]? with
    | some levelId => VirtualCoreIdleLevelRemote.call proto moduleDispatcher v.virtualCoreId levelId r
    | none => throw .undefined

/-- The call on the server's unit. -/
def onServer (sys : System σ) : ClientCall → Call (TopologyLinux × σ) ClientValue
  | setUtilization type u => do
    let virtualCores := u.virtualCores (← get).1.topology
    match type with
    | .MAXIMIZE => onSnd (maximizeUtilization sys virtualCores)
    | .RESET => onSnd (resetUtilization sys virtualCores)
    return .unit
  | getVendorId _ => return .text (← onSnd (CpuLinux.getVendorId sys))
  | getFamily _ => return .text (← onSnd (CpuLinux.getFamily sys))
  | getModel _ => return .text (← onSnd (CpuLinux.getModel sys))
  | hasFlag v flagName =>
    return .flag (← onSnd (VirtualCoreLinux.hasFlag sys v.virtualCoreId flagName))
  | getAbsoluteTicks v => return .ticks (← onSnd (VirtualCoreLinux.getAbsoluteTicks sys v.virtualCoreId))
  | getIdleTime v => return .time (← TopologyLinux.getIdleTime sys v.virtualCoreId)
  | resetIdleTime v => do
    TopologyLinux.resetIdleTime sys v.virtualCoreId
    return .unit
  | plugCore call v => onSnd (call.onCore sys v.virtualCoreId)
  | plugUnit call u => onSnd (call.onUnit sys u)
  | level r v i => TopologyLinux.atLevel v.virtualCoreId i fun level =>
      TopologyLinux.callLevel sys v.virtualCoreId i level r

end ClientCall

end Mammut.Topology
