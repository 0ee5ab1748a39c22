import Mammut.Cxx
import Mammut.Topology.Lookups

/-! One virtual core for each physical core, from `topology.cpp`.  The loop over identifiers and the
loop over units select the same physical cores, since a lookup never returns `NULL` for a virtual
core of the topology, and two units are equal just when their identifiers are. -/

set_option linter.dupNamespace false

namespace Mammut.Topology

open Kit.Grouping

def getOneVirtualPerPhysical (virtualCores : List VirtualCore) : List VirtualCore :=
  virtualCores.foldl (fun r vc =>
    if r.any fun v => v.physicalCoreId = vc.physicalCoreId then r else r ++ [vc]) []

def getNumPhysicalCores (virtualCores : List VirtualCore) : ℕ :=
  (getOneVirtualPerPhysical virtualCores).length

/-- `operator==`. -/
def PhysicalCore.equals (lhs rhs : PhysicalCore) : Bool := lhs.physicalCoreId = rhs.physicalCoreId

namespace Topology

/-- The inner loop of `virtualToPhysical`, which compares what the pointers point to. -/
def contained (p : Option PhysicalCore) : List (Option PhysicalCore) → Except Exn Bool
  | [] => return false
  | q :: physicalCores =>
    match q, p with
    | some lhs, some rhs => if lhs.equals rhs then return true else contained p physicalCores
    | _, _ => throw .undefined

/-- The loop body of `virtualToPhysical`. -/
def addUncontained (t : Topology) (physicalCores : List (Option PhysicalCore))
    (vc : VirtualCore) : Except Exn (List (Option PhysicalCore)) := do
  let p := t.getPhysicalCore vc.physicalCoreId
  return if ← contained p physicalCores then physicalCores else physicalCores ++ [p]

/-- A pointer to a unit is the unit, or `none` for `NULL`. -/
def virtualToPhysical (t : Topology) (virtualCores : List VirtualCore) :
    Except Exn (List (Option PhysicalCore)) :=
  virtualCores.foldlM (addUncontained t) []

variable {coord : List VirtualCoreCoordinates}

theorem getOneVirtualPerPhysical_eq (virtualCores : List VirtualCore) :
    getOneVirtualPerPhysical virtualCores = firsts VirtualCore.physicalCoreId virtualCores := rfl

/-- A virtual core's physical core is found, by its identifier. -/
theorem getPhysicalCore_of_mem {v : VirtualCore} (hv : v ∈ (buildCpuVector coord).virtualCores) :
    ∃ p, (buildCpuVector coord).getPhysicalCore v.physicalCoreId = some p ∧
      p.physicalCoreId = v.physicalCoreId := by
  rw [buildCpuVector_eq] at hv
  have hp := new_mem_physicals (mem_virtualCores.mp hv)
  rw [getPhysicalCore_eq, buildCpuVector_eq]
  cases hfind : ((units coord).flatMap (·.physicalCores)).find?
      (·.physicalCoreId = v.physicalCoreId) with
  | none => exact absurd (List.find?_eq_none.mp hfind _ (mem_physicalCores.mpr hp)) (by
      simp [VirtualCore.coordinates])
  | some p => exact ⟨p, rfl, by simpa using List.find?_some hfind⟩

/-- Units are compared by their identifiers. -/
theorem contained_eq (p : PhysicalCore) (physicalCores : List PhysicalCore) :
    contained (some p) (physicalCores.map some) =
      .ok (decide (p.physicalCoreId ∈ physicalCores.map (·.physicalCoreId))) := by
  induction physicalCores with
  | nil => rfl
  | cons q physicalCores ih =>
    rw [List.map_cons, contained, ih]
    by_cases hq : q.physicalCoreId = p.physicalCoreId
    · simp [PhysicalCore.equals, hq]
      rfl
    · simp [PhysicalCore.equals, hq, Ne.symm hq]

/-- The identifiers of found physical cores are those that were looked for. -/
theorem ids_of_found {vs : List VirtualCore} {ps : List PhysicalCore}
    (hvs : ∀ v ∈ vs, v ∈ (buildCpuVector coord).virtualCores)
    (hps : ps.map some = vs.map fun v => (buildCpuVector coord).getPhysicalCore v.physicalCoreId) :
    ps.map (·.physicalCoreId) = vs.map (·.physicalCoreId) := by
  apply List.map_injective_iff.mpr (Option.some_injective _)
  calc
    (ps.map (·.physicalCoreId)).map some = (ps.map some).map (Option.map (·.physicalCoreId)) := by
        rw [List.map_map, List.map_map]
        rfl
    _ = vs.map fun v => some v.physicalCoreId := by
        rw [hps, List.map_map]
        refine List.map_congr_left fun v hv => ?_
        obtain ⟨p, hp, hid⟩ := getPhysicalCore_of_mem (hvs v hv)
        simp [hp, hid]
    _ = (vs.map (·.physicalCoreId)).map some := by
        rw [List.map_map]
        rfl

/-- The loop over units does what the loop over identifiers does. -/
theorem virtualToPhysical_eq {virtualCores : List VirtualCore}
    (h : ∀ v ∈ virtualCores, v ∈ (buildCpuVector coord).virtualCores) :
    ∃ physicalCores : List PhysicalCore,
      (buildCpuVector coord).virtualToPhysical virtualCores = .ok (physicalCores.map some) ∧
      physicalCores.map some = (getOneVirtualPerPhysical virtualCores).map fun v =>
        (buildCpuVector coord).getPhysicalCore v.physicalCoreId := by
  rw [getOneVirtualPerPhysical_eq]
  induction virtualCores using List.reverseRecOn with
  | nil => exact ⟨[], rfl, rfl⟩
  | append_singleton vs v ih =>
    obtain ⟨ps, hrun, hps⟩ := ih fun u hu => h u (List.mem_append_left [v] hu)
    obtain ⟨p, hp, hid⟩ := getPhysicalCore_of_mem (h v (by simp))
    have hfirsts : ∀ u ∈ firsts VirtualCore.physicalCoreId vs,
        u ∈ (buildCpuVector coord).virtualCores := fun u hu =>
      h u (List.mem_append_left [v] ((firsts_sublist _ vs).subset hu))
    have hstep : (buildCpuVector coord).virtualToPhysical (vs ++ [v]) =
        addUncontained (buildCpuVector coord) (ps.map some) v := by
      unfold virtualToPhysical at hrun ⊢
      rw [List.foldlM_append, hrun]
      exact bind_pure (addUncontained (buildCpuVector coord) (ps.map some) v)
    rw [hstep, addUncontained, hp, contained_eq, hid, ids_of_found hfirsts hps, firsts_concat]
    by_cases hmem : v.physicalCoreId ∈ (firsts VirtualCore.physicalCoreId vs).map (·.physicalCoreId)
    · rw [if_pos hmem, decide_eq_true hmem]
      exact ⟨ps, rfl, hps⟩
    · rw [if_neg hmem, decide_eq_false hmem]
      refine ⟨ps ++ [p], ?_, by simp [hps, hp]⟩
      rw [List.map_append]
      rfl

/-- The selections of one virtual core and of one physical core for each physical core are the
same, by the first occurrences of their identifiers. -/
theorem representatives {virtualCores : List VirtualCore}
    (h : ∀ v ∈ virtualCores, v ∈ (buildCpuVector coord).virtualCores) :
    (getOneVirtualPerPhysical virtualCores).Sublist virtualCores ∧
    ((getOneVirtualPerPhysical virtualCores).map (·.physicalCoreId)).Nodup ∧
    (∀ id ∈ virtualCores.map (·.physicalCoreId), ∃ v ∈ getOneVirtualPerPhysical virtualCores,
      virtualCores.find? (·.physicalCoreId = id) = some v) ∧
    getNumPhysicalCores virtualCores =
      (virtualCores.map (·.physicalCoreId)).toFinset.card ∧
    ∃ physicalCores, (buildCpuVector coord).virtualToPhysical virtualCores = .ok physicalCores ∧
      none ∉ physicalCores ∧
      physicalCores = (getOneVirtualPerPhysical virtualCores).map fun v =>
        (buildCpuVector coord).getPhysicalCore v.physicalCoreId := by
  have hids := map_firsts VirtualCore.physicalCoreId virtualCores
  rw [← getOneVirtualPerPhysical_eq] at hids
  refine ⟨firsts_sublist _ virtualCores, ?_, fun id hid => ?_, ?_, ?_⟩
  · rw [hids]
    exact distinct_nodup _
  · obtain ⟨u, hu, rfl⟩ := List.mem_map.mp hid
    have hfirst := find?_firsts VirtualCore.physicalCoreId virtualCores u.physicalCoreId
    rw [← getOneVirtualPerPhysical_eq] at hfirst
    cases hfind : virtualCores.find? (·.physicalCoreId = u.physicalCoreId) with
    | none => exact absurd (List.find?_eq_none.mp hfind u hu) (by simp)
    | some v => exact ⟨v, List.mem_of_find?_eq_some (hfirst.trans hfind), rfl⟩
  · rw [← length_distinct, ← hids, List.length_map]
    rfl
  · obtain ⟨physicalCores, hrun, heq⟩ := virtualToPhysical_eq h
    exact ⟨_, hrun, by simp, heq⟩

theorem representatives_interleaved :
    getNumPhysicalCores (buildCpuVector interleaved).virtualCores =
      ((buildCpuVector interleaved).virtualCores.map (·.physicalCoreId)).toFinset.card :=
  (representatives fun v (hv : v ∈ (buildCpuVector interleaved).virtualCores) => hv).2.2.2.1

end Topology

end Mammut.Topology
