import Mathlib.Data.List.Nodup
import Mammut.Kit.Grouping
import Mammut.Topology.Units

/-! A built topology represents its coordinates: no virtual core is lost or duplicated, the units
nest, and the nested lookups find the unit that has the identifier. -/

set_option linter.dupNamespace false

namespace Mammut.Topology

open Kit.Grouping

def VirtualCore.coordinates (v : VirtualCore) : VirtualCoreCoordinates :=
  ⟨v.cpuId, v.physicalCoreId, v.virtualCoreId⟩

namespace Topology

/-- The topology `t` holds exactly the coordinates `coord`, grouped, and its lookups are exact. -/
structure Represents (coord : List VirtualCoreCoordinates) (t : Topology) : Prop where
  virtualCores_perm : (t.virtualCores.map VirtualCore.coordinates).Perm coord
  virtualCores_eq : t.cpus.flatMap (·.virtualCores) = t.virtualCores
  physicalCores_eq : t.cpus.flatMap (·.physicalCores) = t.physicalCores
  cpuIds_nodup : (t.cpus.map (·.cpuId)).Nodup
  physicalCoreIds_nodup : (t.physicalCores.map (·.physicalCoreId)).Nodup
  physicalCore_parent : ∀ c ∈ t.cpus, ∀ p ∈ c.physicalCores, p.cpuId = c.cpuId
  virtualCore_parent : ∀ c ∈ t.cpus, ∀ v ∈ c.virtualCores, v.cpuId = c.cpuId
  virtualCore_parents : ∀ p ∈ t.physicalCores, ∀ v ∈ p.virtualCores,
    v.physicalCoreId = p.physicalCoreId ∧ v.cpuId = p.cpuId
  cpu_nonempty : ∀ c ∈ t.cpus, c.physicalCores ≠ [] ∧ c.virtualCores ≠ []
  physicalCore_nonempty : ∀ p ∈ t.physicalCores, p.virtualCores ≠ []
  getCpu_some : ∀ id c, t.getCpu id = some c ↔ c ∈ t.cpus ∧ c.cpuId = id
  getCpu_none : ∀ id, t.getCpu id = none ↔ ∀ vcc ∈ coord, vcc.cpuId ≠ id
  getPhysicalCore_some : ∀ id p,
    t.getPhysicalCore id = some p ↔ p ∈ t.physicalCores ∧ p.physicalCoreId = id
  getPhysicalCore_none : ∀ id, t.getPhysicalCore id = none ↔ ∀ vcc ∈ coord, vcc.physicalCoreId ≠ id
  getVirtualCore_some : ∀ id v,
    t.getVirtualCore id = some v ↔ v ∈ t.virtualCores ∧ v.virtualCoreId = id
  getVirtualCore_none : ∀ id, t.getVirtualCore id = none ↔ ∀ vcc ∈ coord, vcc.virtualCoreId ≠ id

variable {coord : List VirtualCoreCoordinates}

theorem mem_onCpu {c : CpuId} {vcc : VirtualCoreCoordinates} :
    vcc ∈ onCpu coord c ↔ vcc ∈ coord ∧ vcc.cpuId = c := by
  simp [onCpu]

theorem mem_virtuals {c : CpuId} {p : PhysicalCoreId} {v : VirtualCore} :
    v ∈ virtuals coord c p ↔ v.coordinates ∈ coord ∧ v.cpuId = c ∧ v.physicalCoreId = p := by
  constructor
  · intro hv
    obtain ⟨vcc, hvcc, rfl⟩ := List.mem_map.mp hv
    obtain ⟨hon, hp⟩ := List.mem_filter.mp hvcc
    obtain ⟨hmem, hc⟩ := mem_onCpu.mp hon
    exact ⟨hmem, hc, by simpa using hp⟩
  · rintro ⟨hmem, hc, hp⟩
    refine List.mem_map.mpr ⟨v.coordinates, List.mem_filter.mpr ⟨mem_onCpu.mpr ⟨hmem, hc⟩, ?_⟩, rfl⟩
    exact decide_eq_true hp

theorem mem_physicals {c : CpuId} {p : PhysicalCore} :
    p ∈ physicals coord c ↔ p.cpuId = c ∧ p.virtualCores = virtuals coord c p.physicalCoreId ∧
      ∃ vcc ∈ coord, vcc.cpuId = c ∧ vcc.physicalCoreId = p.physicalCoreId := by
  constructor
  · intro hp
    obtain ⟨id, hid, rfl⟩ := List.mem_map.mp hp
    obtain ⟨vcc, hvcc, hphys⟩ := List.mem_map.mp (mem_distinct.mp hid)
    obtain ⟨hmem, hc⟩ := mem_onCpu.mp hvcc
    exact ⟨rfl, rfl, vcc, hmem, hc, hphys⟩
  · rintro ⟨hc, hvirt, vcc, hmem, hvc, hphys⟩
    refine List.mem_map.mpr ⟨p.physicalCoreId, mem_distinct.mpr ?_, ?_⟩
    · exact List.mem_map.mpr ⟨vcc, mem_onCpu.mpr ⟨hmem, hvc⟩, hphys⟩
    · rw [← hc] at hvirt ⊢
      rw [← hvirt]

theorem mem_units {c : Cpu} :
    c ∈ units coord ↔ c = Cpu.new c.cpuId (physicals coord c.cpuId) ∧
      ∃ vcc ∈ coord, vcc.cpuId = c.cpuId := by
  constructor
  · intro hc
    obtain ⟨id, hid, rfl⟩ := List.mem_map.mp hc
    obtain ⟨vcc, hmem, hcpu⟩ := List.mem_map.mp (mem_distinct.mp hid)
    exact ⟨rfl, vcc, hmem, hcpu⟩
  · rintro ⟨hc, vcc, hmem, hcpu⟩
    exact List.mem_map.mpr ⟨c.cpuId, mem_distinct.mpr (List.mem_map.mpr ⟨vcc, hmem, hcpu⟩), hc.symm⟩

/-- The CPU and the physical core that are created for a coordinate. -/
theorem new_mem_units {vcc : VirtualCoreCoordinates} (hmem : vcc ∈ coord) :
    Cpu.new vcc.cpuId (physicals coord vcc.cpuId) ∈ units coord :=
  mem_units.mpr ⟨rfl, vcc, hmem, rfl⟩

theorem new_mem_physicals {vcc : VirtualCoreCoordinates} (hmem : vcc ∈ coord) :
    ⟨vcc.cpuId, vcc.physicalCoreId, virtuals coord vcc.cpuId vcc.physicalCoreId⟩ ∈
      physicals coord vcc.cpuId :=
  mem_physicals.mpr ⟨rfl, rfl, vcc, hmem, rfl, rfl⟩

theorem virtuals_of_physicals {c : CpuId} {p : PhysicalCore} (hp : p ∈ physicals coord c) :
    p.virtualCores = virtuals coord c p.physicalCoreId := (mem_physicals.mp hp).2.1

theorem unit_virtualCores_perm (coord : List VirtualCoreCoordinates) (c : CpuId) :
    ((physicals coord c).flatMap (·.virtualCores)).Perm ((onCpu coord c).map VirtualCore.of) := by
  have hgroups := (flatMap_distinct_perm (·.physicalCoreId) (onCpu coord c)).map VirtualCore.of
  rw [List.map_flatMap] at hgroups
  simpa [physicals, List.flatMap_map, virtuals] using hgroups

theorem units_virtualCores_perm (coord : List VirtualCoreCoordinates) :
    ((units coord).flatMap (·.virtualCores)).Perm (coord.map VirtualCore.of) := by
  have hgroups := (flatMap_distinct_perm (·.cpuId) coord).map VirtualCore.of
  rw [List.map_flatMap] at hgroups
  refine List.Perm.trans ?_ hgroups
  rw [units, List.flatMap_map]
  refine List.Perm.flatMap_left _ fun c _ => ?_
  simpa [Cpu.new, Cpu.virtualCoresFromPhysicalCores_eq, onCpu] using
    unit_virtualCores_perm coord c

theorem units_ids_nodup : ((units coord).map (·.cpuId)).Nodup := by
  have hids : (units coord).map (·.cpuId) = distinct (coord.map (·.cpuId)) := by
    simp [units, Cpu.new, Function.comp_def]
  rw [hids]
  exact distinct_nodup _

/-- Physical cores of different CPUs have different identifiers when the coordinates say so. -/
theorem units_physicalCoreIds_nodup
    (hcpu : ∀ a ∈ coord, ∀ b ∈ coord, a.physicalCoreId = b.physicalCoreId → a.cpuId = b.cpuId) :
    (((units coord).flatMap (·.physicalCores)).map (·.physicalCoreId)).Nodup := by
  have hids : ((units coord).flatMap (·.physicalCores)).map (·.physicalCoreId) =
      (distinct (coord.map (·.cpuId))).flatMap fun c =>
        distinct ((onCpu coord c).map (·.physicalCoreId)) := by
    simp [units, List.flatMap_map, List.map_flatMap, Cpu.new, physicals, Function.comp_def]
  rw [hids, List.nodup_flatMap]
  refine ⟨fun c _ => distinct_nodup _, (distinct_nodup _).imp fun {c d} hne => ?_⟩
  intro id hc hd
  obtain ⟨a, ha, rfl⟩ := List.mem_map.mp (mem_distinct.mp hc)
  obtain ⟨b, hb, heq⟩ := List.mem_map.mp (mem_distinct.mp hd)
  obtain ⟨hac, rfl⟩ := mem_onCpu.mp ha
  obtain ⟨hbc, rfl⟩ := mem_onCpu.mp hb
  exact hne (hcpu a hac b hbc heq.symm)

theorem getPhysicalCore_eq (t : Topology) (id : PhysicalCoreId) :
    t.getPhysicalCore id = (t.cpus.flatMap (·.physicalCores)).find? (·.physicalCoreId = id) := by
  rw [List.find?_flatMap]
  rfl

theorem getVirtualCore_eq (t : Topology) (id : VirtualCoreId) :
    t.getVirtualCore id = (t.cpus.flatMap fun c => c.physicalCores.flatMap (·.virtualCores)).find?
      (·.virtualCoreId = id) := by
  rw [List.find?_flatMap]
  refine congrArg (fun f => t.cpus.findSome? f) (funext fun c => ?_)
  rw [List.find?_flatMap]
  rfl

/-- The units of a CPU of the topology. -/
theorem cpu_units {c : Cpu} (hc : c ∈ units coord) :
    c.physicalCores = physicals coord c.cpuId ∧
      c.virtualCores = (physicals coord c.cpuId).flatMap (·.virtualCores) := by
  obtain ⟨hnew, -⟩ := mem_units.mp hc
  constructor
  · exact congrArg Cpu.physicalCores hnew
  · exact (congrArg Cpu.virtualCores hnew).trans (Cpu.virtualCoresFromPhysicalCores_eq _)

theorem virtualCores_of_cpus :
    ((units coord).flatMap fun c => c.physicalCores.flatMap (·.virtualCores)) =
      (units coord).flatMap (·.virtualCores) := by
  rw [List.flatMap_def, List.flatMap_def]
  refine congrArg List.flatten (List.map_congr_left fun c hc => ?_)
  obtain ⟨hphys, hvirt⟩ := cpu_units hc
  rw [hphys, hvirt]

theorem mem_virtualCores {v : VirtualCore} :
    v ∈ (units coord).flatMap (·.virtualCores) ↔ v.coordinates ∈ coord := by
  rw [(units_virtualCores_perm coord).mem_iff]
  constructor
  · intro hv
    obtain ⟨vcc, hvcc, rfl⟩ := List.mem_map.mp hv
    exact hvcc
  · exact fun hv => List.mem_map.mpr ⟨v.coordinates, hv, rfl⟩

theorem mem_physicalCores {p : PhysicalCore} :
    p ∈ (units coord).flatMap (·.physicalCores) ↔
      p ∈ physicals coord p.cpuId := by
  constructor
  · intro hp
    obtain ⟨c, hc, hpc⟩ := List.mem_flatMap.mp hp
    rw [(cpu_units hc).1] at hpc
    rwa [(mem_physicals.mp hpc).1]
  · intro hp
    obtain ⟨-, -, vcc, hmem, hcpu, -⟩ := mem_physicals.mp hp
    have hunit := new_mem_units hmem
    rw [hcpu] at hunit
    exact List.mem_flatMap.mpr ⟨_, hunit, hp⟩

/-- A built physical core has a virtual core, at the coordinates that created it. -/
theorem physicals_nonempty {c : CpuId} {p : PhysicalCore} (hp : p ∈ physicals coord c) :
    p.virtualCores ≠ [] := by
  obtain ⟨-, hvirt, vcc, hmem, hcpu, hphys⟩ := mem_physicals.mp hp
  rw [hvirt]
  exact List.ne_nil_of_mem (a := VirtualCore.of vcc) (mem_virtuals.mpr ⟨hmem, hcpu, hphys⟩)

theorem cpu_nonempty_of_units {c : Cpu} (hc : c ∈ units coord) :
    c.physicalCores ≠ [] ∧ c.virtualCores ≠ [] := by
  obtain ⟨-, vcc, hmem, hcpu⟩ := mem_units.mp hc
  obtain ⟨hphys, hvirt⟩ := cpu_units hc
  have hp := new_mem_physicals hmem
  rw [hcpu] at hp
  rw [hphys, hvirt]
  refine ⟨List.ne_nil_of_mem hp, ?_⟩
  rw [Ne, List.flatMap_eq_nil_iff]
  exact fun hnil => physicals_nonempty hp (hnil _ hp)

/-- Building a topology from coordinates with distinct virtual cores, whose physical cores lie on
one CPU each, represents them. -/
theorem buildCpuVector_represents
    (hids : (coord.map (·.virtualCoreId)).Nodup)
    (hcpu : ∀ a ∈ coord, ∀ b ∈ coord, a.physicalCoreId = b.physicalCoreId → a.cpuId = b.cpuId) :
    Represents coord (buildCpuVector coord) := by
  have hvperm := units_virtualCores_perm coord
  have hvids : (((units coord).flatMap (·.virtualCores)).map (·.virtualCoreId)).Nodup := by
    apply (hvperm.map _).nodup_iff.mpr
    rwa [List.map_map]
  rw [buildCpuVector_eq]
  exact {
    virtualCores_perm := by
      have hperm := hvperm.map VirtualCore.coordinates
      rw [List.map_map] at hperm
      exact hperm.trans (.of_eq (List.map_id coord))
    virtualCores_eq := rfl
    physicalCores_eq := rfl
    cpuIds_nodup := units_ids_nodup
    physicalCoreIds_nodup := units_physicalCoreIds_nodup hcpu
    physicalCore_parent := by
      intro c hc p hp
      rw [(cpu_units hc).1] at hp
      exact (mem_physicals.mp hp).1
    virtualCore_parent := by
      intro c hc v hv
      rw [(cpu_units hc).2] at hv
      obtain ⟨p, hp, hvp⟩ := List.mem_flatMap.mp hv
      rw [virtuals_of_physicals hp] at hvp
      exact (mem_virtuals.mp hvp).2.1
    virtualCore_parents := by
      intro p hp v hv
      rw [virtuals_of_physicals (mem_physicalCores.mp hp)] at hv
      obtain ⟨-, hvc, hvp⟩ := mem_virtuals.mp hv
      exact ⟨hvp, hvc⟩
    cpu_nonempty := fun c hc => cpu_nonempty_of_units hc
    physicalCore_nonempty := fun p hp => physicals_nonempty (mem_physicalCores.mp hp)
    getCpu_some := fun id c => find?_key_iff Cpu.cpuId units_ids_nodup
    getCpu_none := by
      intro id
      refine (find?_key_none_iff Cpu.cpuId).trans ⟨fun h vcc hmem => ?_, fun h c hc => ?_⟩
      · exact h _ (new_mem_units hmem)
      · obtain ⟨-, vcc, hmem, hcpu⟩ := mem_units.mp hc
        exact hcpu ▸ h vcc hmem
    getPhysicalCore_some := by
      intro id p
      rw [getPhysicalCore_eq]
      exact find?_key_iff PhysicalCore.physicalCoreId (units_physicalCoreIds_nodup hcpu)
    getPhysicalCore_none := by
      intro id
      rw [getPhysicalCore_eq]
      refine (find?_key_none_iff PhysicalCore.physicalCoreId).trans
        ⟨fun h vcc hmem => ?_, fun h p hp => ?_⟩
      · exact h _ (mem_physicalCores.mpr (new_mem_physicals hmem))
      · obtain ⟨-, -, vcc, hmem, -, hphys⟩ := mem_physicals.mp (mem_physicalCores.mp hp)
        exact hphys ▸ h vcc hmem
    getVirtualCore_some := by
      intro id v
      rw [getVirtualCore_eq, virtualCores_of_cpus]
      exact find?_key_iff VirtualCore.virtualCoreId hvids
    getVirtualCore_none := by
      intro id
      rw [getVirtualCore_eq, virtualCores_of_cpus]
      refine (find?_key_none_iff VirtualCore.virtualCoreId).trans
        ⟨fun h vcc hmem => ?_, fun h v hv => ?_⟩
      · exact h (VirtualCore.of vcc) (mem_virtualCores.mpr hmem)
      · exact h v.coordinates (mem_virtualCores.mp hv) }

/-- Two packages of two cores, whose siblings are listed interleaved. -/
def interleaved : List VirtualCoreCoordinates :=
  [⟨0, 0, 0⟩, ⟨1, 2, 1⟩, ⟨0, 1, 2⟩, ⟨1, 3, 3⟩, ⟨0, 0, 4⟩, ⟨1, 2, 5⟩]

theorem buildCpuVector_represents_interleaved :
    Represents interleaved (buildCpuVector interleaved) :=
  buildCpuVector_represents (by decide) (by decide)

end Topology

end Mammut.Topology
