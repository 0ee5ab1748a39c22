import Mathlib.Data.List.Basic

/-! The construction of a `Topology`, from `topology.cpp`: three nested builders, each of which
scans all the coordinates and appends the units that it creates to a vector of the topology. -/

set_option linter.dupNamespace false

namespace Mammut.Topology

abbrev CpuId := ℕ
abbrev PhysicalCoreId := ℕ
abbrev VirtualCoreId := ℕ

structure VirtualCoreCoordinates where
  cpuId : CpuId
  physicalCoreId : PhysicalCoreId
  virtualCoreId : VirtualCoreId
  deriving DecidableEq, Repr

structure VirtualCore where
  cpuId : CpuId
  physicalCoreId : PhysicalCoreId
  virtualCoreId : VirtualCoreId
  deriving DecidableEq, Repr

structure PhysicalCore where
  cpuId : CpuId
  physicalCoreId : PhysicalCoreId
  virtualCores : List VirtualCore
  deriving DecidableEq, Repr

structure Cpu where
  cpuId : CpuId
  physicalCores : List PhysicalCore
  virtualCores : List VirtualCore
  deriving DecidableEq, Repr

/-- The vectors of a `Topology`.  A pointer to a unit is the unit. -/
structure Topology where
  cpus : List Cpu
  physicalCores : List PhysicalCore
  virtualCores : List VirtualCore
  deriving DecidableEq, Repr

def PhysicalCore.getVirtualCore (p : PhysicalCore) (virtualCoreId : VirtualCoreId) :
    Option VirtualCore :=
  p.virtualCores.find? (·.virtualCoreId = virtualCoreId)

namespace Cpu

def virtualCoresFromPhysicalCores (physicalCores : List PhysicalCore) : List VirtualCore :=
  physicalCores.foldl (fun v p => v ++ p.virtualCores) []

/-- The constructor. -/
def new (cpuId : CpuId) (physicalCores : List PhysicalCore) : Cpu :=
  ⟨cpuId, physicalCores, virtualCoresFromPhysicalCores physicalCores⟩

def getPhysicalCore (c : Cpu) (physicalCoreId : PhysicalCoreId) : Option PhysicalCore :=
  c.physicalCores.find? (·.physicalCoreId = physicalCoreId)

def getVirtualCore (c : Cpu) (virtualCoreId : VirtualCoreId) : Option VirtualCore :=
  c.physicalCores.findSome? (·.getVirtualCore virtualCoreId)

end Cpu

namespace Topology

def getCpu (t : Topology) (cpuId : CpuId) : Option Cpu := t.cpus.find? (·.cpuId = cpuId)

def getPhysicalCore (t : Topology) (physicalCoreId : PhysicalCoreId) : Option PhysicalCore :=
  t.cpus.findSome? (·.getPhysicalCore physicalCoreId)

def getVirtualCore (t : Topology) (virtualCoreId : VirtualCoreId) : Option VirtualCore :=
  t.cpus.findSome? (·.getVirtualCore virtualCoreId)

def empty : Topology := ⟨[], [], []⟩

variable (coord : List VirtualCoreCoordinates)

/-- The loop body of `buildVirtualCoresVector`: the vector that it returns, and the topology. -/
def addVirtualCore (cpuId : CpuId) (physicalCoreId : PhysicalCoreId)
    (s : List VirtualCore × Topology) (vcc : VirtualCoreCoordinates) :
    List VirtualCore × Topology :=
  if vcc.cpuId = cpuId ∧ vcc.physicalCoreId = physicalCoreId then
    let v : VirtualCore := ⟨vcc.cpuId, vcc.physicalCoreId, vcc.virtualCoreId⟩
    (s.1 ++ [v], { s.2 with virtualCores := s.2.virtualCores ++ [v] })
  else s

def buildVirtualCoresVector (cpuId : CpuId) (physicalCoreId : PhysicalCoreId) (t : Topology) :
    List VirtualCore × Topology :=
  coord.foldl (addVirtualCore cpuId physicalCoreId) ([], t)

/-- The variables of the loop of `buildPhysicalCoresVector`. -/
structure PhysicalLoop where
  physicalCores : List PhysicalCore
  usedIdentifiers : List PhysicalCoreId
  topology : Topology

def addPhysicalCore (cpuId : CpuId) (s : PhysicalLoop) (vcc : VirtualCoreCoordinates) :
    PhysicalLoop :=
  if vcc.cpuId = cpuId ∧ vcc.physicalCoreId ∉ s.usedIdentifiers then
    let (vir, t) := buildVirtualCoresVector coord vcc.cpuId vcc.physicalCoreId s.topology
    let p : PhysicalCore := ⟨vcc.cpuId, vcc.physicalCoreId, vir⟩
    { physicalCores := s.physicalCores ++ [p]
      usedIdentifiers := s.usedIdentifiers ++ [vcc.physicalCoreId]
      topology := { t with physicalCores := t.physicalCores ++ [p] } }
  else s

def buildPhysicalCoresVector (cpuId : CpuId) (t : Topology) : List PhysicalCore × Topology :=
  let s := coord.foldl (addPhysicalCore coord cpuId) ⟨[], [], t⟩
  (s.physicalCores, s.topology)

def addCpu (t : Topology) (cpuId : CpuId) : Topology :=
  let (phy, t) := buildPhysicalCoresVector coord cpuId t
  { t with cpus := t.cpus ++ [Cpu.new cpuId phy] }

def uniqueCpuIds : List CpuId :=
  coord.foldl (fun ids vcc => if vcc.cpuId ∈ ids then ids else ids ++ [vcc.cpuId]) []

def buildCpuVector : Topology := (uniqueCpuIds coord).foldl (addCpu coord) empty

end Topology

end Mammut.Topology
