import Mathlib.Data.List.FinRange
import Mammut.Kit.Grouping
import Mammut.Topology.Build

/-! What `buildCpuVector` builds: the coordinates grouped by CPU, and within it by physical core.
The accumulating loops are grouping (`Kit.Grouping`), and the vectors of the topology are the
concatenations of those of its units. -/

set_option linter.dupNamespace false

namespace Mammut.Topology

open Kit.Grouping

def VirtualCore.of (vcc : VirtualCoreCoordinates) : VirtualCore :=
  ⟨vcc.cpuId, vcc.physicalCoreId, vcc.virtualCoreId⟩

@[simp] theorem VirtualCore.of_cpuId (vcc : VirtualCoreCoordinates) :
    (VirtualCore.of vcc).cpuId = vcc.cpuId := rfl

@[simp] theorem VirtualCore.of_physicalCoreId (vcc : VirtualCoreCoordinates) :
    (VirtualCore.of vcc).physicalCoreId = vcc.physicalCoreId := rfl

@[simp] theorem VirtualCore.of_virtualCoreId (vcc : VirtualCoreCoordinates) :
    (VirtualCore.of vcc).virtualCoreId = vcc.virtualCoreId := rfl

namespace Topology

variable (coord : List VirtualCoreCoordinates)

/-- The coordinates of a CPU. -/
def onCpu (c : CpuId) : List VirtualCoreCoordinates := coord.filter (·.cpuId = c)

/-- The virtual cores of a physical core. -/
def virtuals (c : CpuId) (p : PhysicalCoreId) : List VirtualCore :=
  ((onCpu coord c).filter (·.physicalCoreId = p)).map VirtualCore.of

/-- The physical cores of a CPU. -/
def physicals (c : CpuId) : List PhysicalCore :=
  (distinct ((onCpu coord c).map (·.physicalCoreId))).map fun p => ⟨c, p, virtuals coord c p⟩

theorem buildVirtualCoresVector_eq (c : CpuId) (p : PhysicalCoreId) (t : Topology) :
    buildVirtualCoresVector coord c p t =
      (virtuals coord c p, { t with virtualCores := t.virtualCores ++ virtuals coord c p }) := by
  induction coord using List.reverseRecOn with
  | nil => simp [buildVirtualCoresVector, virtuals, onCpu]
  | append_singleton l vcc ih =>
    unfold buildVirtualCoresVector at ih ⊢
    rw [List.foldl_append, ih, List.foldl_cons, List.foldl_nil]
    unfold addVirtualCore
    by_cases hc : vcc.cpuId = c <;> by_cases hp : vcc.physicalCoreId = p <;>
      simp [hc, hp, virtuals, onCpu, VirtualCore.of]

theorem buildPhysicalCoresVector_eq (c : CpuId) (t : Topology) :
    buildPhysicalCoresVector coord c t = (physicals coord c,
      { t with
        physicalCores := t.physicalCores ++ physicals coord c
        virtualCores := t.virtualCores ++ (physicals coord c).flatMap (·.virtualCores) }) := by
  have hloop : ∀ l : List VirtualCoreCoordinates,
      l.foldl (addPhysicalCore coord c) ⟨[], [], t⟩ =
        let used := distinct ((onCpu l c).map (·.physicalCoreId))
        let phy := used.map fun p => (⟨c, p, virtuals coord c p⟩ : PhysicalCore)
        ⟨phy, used, { t with
          physicalCores := t.physicalCores ++ phy
          virtualCores := t.virtualCores ++ phy.flatMap (·.virtualCores) }⟩ := by
    intro l
    induction l using List.reverseRecOn with
    | nil => simp [onCpu]
    | append_singleton l vcc ih =>
      rw [List.foldl_append, ih, List.foldl_cons, List.foldl_nil]
      unfold addPhysicalCore
      by_cases hc : vcc.cpuId = c
      · have hon : onCpu (l ++ [vcc]) c = onCpu l c ++ [vcc] := by simp [onCpu, hc]
        rw [hon, List.map_append, List.map_singleton, distinct_concat]
        by_cases hused : vcc.physicalCoreId ∈ distinct ((onCpu l c).map (·.physicalCoreId))
        · simp [hc, hused]
        · simp [hc, hused, buildVirtualCoresVector_eq]
      · have hon : onCpu (l ++ [vcc]) c = onCpu l c := by simp [onCpu, hc]
        simp [hc, hon]
  simp only [buildPhysicalCoresVector, hloop]
  rfl

theorem uniqueCpuIds_eq : uniqueCpuIds coord = distinct (coord.map (·.cpuId)) := by
  rw [uniqueCpuIds, distinct, List.foldl_map]

theorem Cpu.virtualCoresFromPhysicalCores_eq (phy : List PhysicalCore) :
    Cpu.virtualCoresFromPhysicalCores phy = phy.flatMap (·.virtualCores) := by
  induction phy using List.reverseRecOn with
  | nil => rfl
  | append_singleton l p ih =>
    unfold Cpu.virtualCoresFromPhysicalCores at ih ⊢
    rw [List.foldl_append, ih, List.flatMap_append]
    simp

/-- The CPUs of the topology. -/
def units : List Cpu :=
  (distinct (coord.map (·.cpuId))).map fun c => Cpu.new c (physicals coord c)

/-- The vectors that `buildCpuVector` leaves are those of the units, one after the other. -/
theorem buildCpuVector_eq :
    buildCpuVector coord =
      { cpus := units coord
        physicalCores := (units coord).flatMap (·.physicalCores)
        virtualCores := (units coord).flatMap (·.virtualCores) } := by
  have hloop : ∀ ids : List CpuId, ids.foldl (addCpu coord) empty =
      let cs := ids.map fun c => Cpu.new c (physicals coord c)
      ⟨cs, cs.flatMap (·.physicalCores), cs.flatMap (·.virtualCores)⟩ := by
    intro ids
    induction ids using List.reverseRecOn with
    | nil => rfl
    | append_singleton l c ih =>
      rw [List.foldl_append, ih, List.foldl_cons, List.foldl_nil]
      simp [addCpu, buildPhysicalCoresVector_eq, Cpu.new, Cpu.virtualCoresFromPhysicalCores_eq]
  rw [buildCpuVector, uniqueCpuIds_eq, hloop]
  rfl

end Topology

end Mammut.Topology
