import Mammut.Topology.Rollback
import Mammut.Topology.Units

/-! Hot plugging of the units with several virtual cores, from `topology.cpp`.  Whether a unit can
be plugged is asked of all its virtual cores, and a call plugs each of those that can be: the two
agree when all of them can, or none. -/

set_option linter.dupNamespace false

namespace Mammut.Topology

open Kit.Programs Machine Utils

/-- A physical core, or a CPU with its physical cores. -/
inductive PluggableUnit
  | physicalCore (p : PhysicalCore)
  | cpu (cpuId : CpuId) (physicalCores : List PhysicalCore)

namespace PluggableUnit

variable {σ : Type} (sys : System σ)

def virtualCores : PluggableUnit → List VirtualCore
  | .physicalCore p => p.virtualCores
  | .cpu cpuId physicalCores => (Cpu.new cpuId physicalCores).virtualCores

def isHotPluggable : PluggableUnit → Call σ Bool
  | .physicalCore p => p.isHotPluggable sys
  | .cpu cpuId physicalCores => (Cpu.new cpuId physicalCores).isHotPluggable sys

def isHotPlugged : PluggableUnit → Call σ Bool
  | .physicalCore p => p.isHotPlugged sys
  | .cpu cpuId physicalCores => (Cpu.new cpuId physicalCores).isHotPlugged sys

def hotPlug : PluggableUnit → Call σ Unit
  | .physicalCore p => p.hotPlug sys
  | .cpu cpuId physicalCores => (Cpu.new cpuId physicalCores).hotPlug sys

def hotUnplug : PluggableUnit → Call σ Unit
  | .physicalCore p => p.hotUnplug sys
  | .cpu cpuId physicalCores => (Cpu.new cpuId physicalCores).hotUnplug sys

end PluggableUnit

open VirtualCoreLinux (hotplugFile)

theorem hotplugFile_injective {σ : Type} (sys : System σ) :
    Function.Injective (hotplugFile sys) := by
  intro v w h
  have htext : intToString v = intToString w := by
    simpa [hotplugFile, System.cpuPath, String.append_left_inj, String.append_right_inj] using h
  exact_mod_cast intToString_injective htext

section Runs

variable (base : System Machine) (m : Machine) (u : PluggableUnit)

/-- The machine after the virtual cores that can be plugged were all plugged, or unplugged. -/
def Machine.plugAll (plug : Bool) (vs : List VirtualCore) : Machine := { m with
  files := fun file =>
    if file ∈ vs.map (fun v => hotplugFile base v.virtualCoreId) ∧ (m.files file).isSome then
      some (if plug then "1\n" else "0\n")
    else m.files file }

theorem plugAll_nil (plug : Bool) : m.plugAll base plug [] = m := by
  simp [plugAll]

theorem plugAll_append (plug : Bool) (vs ws : List VirtualCore) :
    m.plugAll base plug (vs ++ ws) = (m.plugAll base plug vs).plugAll base plug ws := by
  unfold plugAll
  congr 1
  funext file
  by_cases hvs : file ∈ vs.map (fun v => hotplugFile base v.virtualCoreId)
  · by_cases hfile : (m.files file).isSome <;> simp [hvs, hfile]
  · by_cases hfile : (m.files file).isSome <;> simp [hvs, hfile]

theorem plugged_plugAll (plug : Bool) (vs : List VirtualCore) (file : String) :
    (m.plugAll base plug vs).plugged file =
      if file ∈ vs.map (fun v => hotplugFile base v.virtualCoreId) ∧ (m.files file).isSome then plug
      else m.plugged file := by
  by_cases h : file ∈ vs.map (fun v => hotplugFile base v.virtualCoreId) ∧ (m.files file).isSome
  · have hstore : (m.store file (if plug then "1\n" else "0\n")).plugged file = plug :=
      plugged_store plug
    simp only [plugged, plugAll, store, Function.update_self, if_pos h] at hstore ⊢
    exact hstore
  · simp only [plugged, plugAll, if_neg h]

/-- Plugs the virtual core, or unplugs it. -/
def plugCore (plug : Bool) (v : VirtualCore) : Call Machine Unit :=
  if plug then VirtualCoreLinux.hotPlug (system base) v.virtualCoreId
  else VirtualCoreLinux.hotUnplug (system base) v.virtualCoreId

theorem plugCore_run (plug : Bool) (v : VirtualCore) :
    (plugCore base plug v).run m = .ok () (m.plugAll base plug [v]) := by
  rw [plugCore, plug_run]
  congr 1
  by_cases hfile : (m.files (hotplugFile base v.virtualCoreId)).isSome
  · rw [if_pos hfile, plugAll, store]
    congr 1
    funext file
    by_cases hname : file = hotplugFile base v.virtualCoreId
    · subst hname
      simp [hfile]
    · simp [hname]
  · have hfiles : (m.plugAll base plug [v]).files = m.files := by
      funext file
      by_cases hname : file = hotplugFile base v.virtualCoreId
      · subst hname
        simp [plugAll, hfile]
      · simp [plugAll, hname]
    rw [if_neg hfile]
    exact congrArg (fun files => { m with files }) hfiles.symm

theorem plugCores_run (plug : Bool) (vs : List VirtualCore) :
    (vs.forM (plugCore base plug)).run m = .ok () (m.plugAll base plug vs) := by
  induction vs generalizing m with
  | nil => rw [plugAll_nil]; rfl
  | cons v vs ih =>
    rw [run_forM_cons (plugCore_run base m plug v), ih, ← plugAll_append, List.singleton_append]

def plugPhysicalCore (plug : Bool) (p : PhysicalCore) : Call Machine Unit :=
  p.virtualCores.forM (plugCore base plug)

theorem plugPhysicalCores_run (plug : Bool) (ps : List PhysicalCore) :
    (ps.forM (plugPhysicalCore base plug)).run m =
      .ok () (m.plugAll base plug (ps.flatMap (·.virtualCores))) := by
  induction ps generalizing m with
  | nil => rw [List.flatMap_nil, plugAll_nil]; rfl
  | cons p ps ih =>
    have hcore : (plugPhysicalCore base plug p).run m = _ :=
      plugCores_run base m plug p.virtualCores
    rw [run_forM_cons hcore, ih, ← plugAll_append, List.flatMap_cons]

theorem cpu_virtualCores (cpuId : CpuId) (ps : List PhysicalCore) :
    (PluggableUnit.cpu cpuId ps).virtualCores = ps.flatMap (·.virtualCores) :=
  Topology.Cpu.virtualCoresFromPhysicalCores_eq ps

theorem unit_isHotPluggable_run : (u.isHotPluggable (system base)).run m =
    .ok (u.virtualCores.all fun v => (m.files (hotplugFile base v.virtualCoreId)).isSome) m := by
  have hcore (p : PhysicalCore) : (p.isHotPluggable (system base)).run m =
      .ok (p.virtualCores.all fun v => (m.files (hotplugFile base v.virtualCoreId)).isSome) m :=
    run_allM fun _ _ => isHotPluggable_run
  cases u with
  | physicalCore p => exact hcore p
  | cpu cpuId ps =>
    rw [cpu_virtualCores, List.all_flatMap]
    exact run_allM fun p _ => hcore p

theorem unit_isHotPlugged_run : (u.isHotPlugged (system base)).run m =
    .ok (u.virtualCores.all fun v => m.plugged (hotplugFile base v.virtualCoreId)) m := by
  have hcore (p : PhysicalCore) : (p.isHotPlugged (system base)).run m =
      .ok (p.virtualCores.all fun v => m.plugged (hotplugFile base v.virtualCoreId)) m :=
    run_allM fun _ _ => isHotPlugged_run
  cases u with
  | physicalCore p => exact hcore p
  | cpu cpuId ps =>
    rw [cpu_virtualCores, List.all_flatMap]
    exact run_allM fun p _ => hcore p

theorem unit_hotPlug_run :
    (u.hotPlug (system base)).run m = .ok () (m.plugAll base true u.virtualCores) := by
  cases u with
  | physicalCore p => exact plugCores_run base m true p.virtualCores
  | cpu cpuId ps =>
    rw [cpu_virtualCores]
    exact plugPhysicalCores_run base m true ps

theorem unit_hotUnplug_run :
    (u.hotUnplug (system base)).run m = .ok () (m.plugAll base false u.virtualCores) := by
  cases u with
  | physicalCore p => exact plugCores_run base m false p.virtualCores
  | cpu cpuId ps =>
    rw [cpu_virtualCores]
    exact plugPhysicalCores_run base m false ps

/-- What the documentation of a unit promises of hot plugging in a state of the machine. -/
def PlugsAsDocumented : Prop :=
  ∃ pluggable plugged unplugged, (u.isHotPluggable (system base)).run m = .ok pluggable m ∧
    (u.hotPlug (system base)).run m = .ok () plugged ∧
    (u.hotUnplug (system base)).run m = .ok () unplugged ∧
    (pluggable = false → ∀ v,
      plugged.plugged (hotplugFile base v) = m.plugged (hotplugFile base v) ∧
        unplugged.plugged (hotplugFile base v) = m.plugged (hotplugFile base v)) ∧
    (pluggable = true → u.virtualCores ≠ [] →
      (∀ v ∈ u.virtualCores, unplugged.plugged (hotplugFile base v.virtualCoreId) = false) ∧
        (u.isHotPlugged (system base)).run unplugged = .ok false unplugged ∧
        (u.isHotPlugged (system base)).run plugged = .ok true plugged) ∧
    ∀ w, (∀ v ∈ u.virtualCores, v.virtualCoreId ≠ w) →
      plugged.plugged (hotplugFile base w) = m.plugged (hotplugFile base w) ∧
        unplugged.plugged (hotplugFile base w) = m.plugged (hotplugFile base w)

variable {base m u}

/-- A virtual core of the unit that can be plugged is, or is not, after the call. -/
theorem plugged_plugAll_of_mem (plug : Bool) {vs : List VirtualCore} {v : VirtualCore} (hv : v ∈ vs)
    (hfile : (m.files (hotplugFile base v.virtualCoreId)).isSome) :
    (m.plugAll base plug vs).plugged (hotplugFile base v.virtualCoreId) = plug := by
  have hmem := List.mem_map_of_mem (f := fun v => hotplugFile base v.virtualCoreId) hv
  rw [plugged_plugAll, if_pos ⟨hmem, hfile⟩]

/-- The other virtual cores keep their state. -/
theorem plugged_plugAll_of_other (plug : Bool) {vs : List VirtualCore} {w : VirtualCoreId}
    (hw : ∀ v ∈ vs, v.virtualCoreId = w → m.files (hotplugFile base w) = none) :
    (m.plugAll base plug vs).plugged (hotplugFile base w) = m.plugged (hotplugFile base w) := by
  rw [plugged_plugAll, if_neg]
  rintro ⟨hmem, hfile⟩
  obtain ⟨v, hv, hname⟩ := List.mem_map.mp hmem
  rw [hw v hv (hotplugFile_injective base hname)] at hfile
  exact Bool.false_ne_true hfile

theorem plugsAsDocumented_of_all
    (h : ∀ v ∈ u.virtualCores, (m.files (hotplugFile base v.virtualCoreId)).isSome) :
    PlugsAsDocumented base m u := by
  refine ⟨_, _, _, unit_isHotPluggable_run base m u, unit_hotPlug_run base m u,
    unit_hotUnplug_run base m u, fun hpluggable => ?_, fun _ hne => ?_, fun w hw => ?_⟩
  · rw [List.all_eq_true.mpr h] at hpluggable
    exact absurd hpluggable (by decide)
  · have hunplugged : ∀ v ∈ u.virtualCores, (m.plugAll base false u.virtualCores).plugged
        (hotplugFile base v.virtualCoreId) = false :=
      fun v hv => plugged_plugAll_of_mem false hv (h v hv)
    have hplugged : ∀ v ∈ u.virtualCores, (m.plugAll base true u.virtualCores).plugged
        (hotplugFile base v.virtualCoreId) = true :=
      fun v hv => plugged_plugAll_of_mem true hv (h v hv)
    refine ⟨hunplugged, ?_, ?_⟩
    · obtain ⟨v, hv⟩ := List.exists_mem_of_ne_nil _ hne
      rw [unit_isHotPlugged_run, List.all_eq_false.mpr ⟨v, hv, by simp [hunplugged v hv]⟩]
    · rw [unit_isHotPlugged_run, List.all_eq_true.mpr hplugged]
  · exact ⟨plugged_plugAll_of_other true fun v hv hid => absurd hid (hw v hv),
      plugged_plugAll_of_other false fun v hv hid => absurd hid (hw v hv)⟩

theorem plugsAsDocumented_of_none
    (h : ∀ v ∈ u.virtualCores, m.files (hotplugFile base v.virtualCoreId) = none) :
    PlugsAsDocumented base m u := by
  have hkeeps (plug : Bool) (w : VirtualCoreId) :
      (m.plugAll base plug u.virtualCores).plugged (hotplugFile base w) =
        m.plugged (hotplugFile base w) :=
    plugged_plugAll_of_other plug fun v hv hid => hid ▸ h v hv
  refine ⟨_, _, _, unit_isHotPluggable_run base m u, unit_hotPlug_run base m u,
    unit_hotUnplug_run base m u, fun _ w => ⟨hkeeps true w, hkeeps false w⟩, fun hall hne => ?_,
    fun w _ => ⟨hkeeps true w, hkeeps false w⟩⟩
  obtain ⟨v, hv⟩ := List.exists_mem_of_ne_nil _ hne
  have hsome := List.all_eq_true.mp hall v hv
  rw [h v hv] at hsome
  exact absurd hsome (by decide)

/-- Of a unit that cannot be plugged, the calls plug and unplug a virtual core that can. -/
theorem not_plugsAsDocumented {v w : VirtualCore} (hv : v ∈ u.virtualCores)
    (hfree : (m.files (hotplugFile base v.virtualCoreId)).isSome) (hw : w ∈ u.virtualCores)
    (hfixed : m.files (hotplugFile base w.virtualCoreId) = none) :
    (u.isHotPluggable (system base)).run m = .ok false m ∧
      (m.plugAll base true u.virtualCores).plugged (hotplugFile base v.virtualCoreId) = true ∧
      (m.plugAll base false u.virtualCores).plugged (hotplugFile base v.virtualCoreId) = false ∧
      ¬PlugsAsDocumented base m u := by
  have hask := unit_isHotPluggable_run base m u
  rw [List.all_eq_false.mpr ⟨w, hw, by simp [hfixed]⟩] at hask
  have hplugged := plugged_plugAll_of_mem true hv hfree
  have hunplugged := plugged_plugAll_of_mem false hv hfree
  refine ⟨hask, hplugged, hunplugged, ?_⟩
  rintro ⟨pluggable, plugged, unplugged, hask', hplug, hunplug, hkeeps, -⟩
  rw [hask, EStateM.Result.ok.injEq] at hask'
  rw [unit_hotPlug_run, EStateM.Result.ok.injEq] at hplug
  rw [unit_hotUnplug_run, EStateM.Result.ok.injEq] at hunplug
  -- The two calls leave the virtual core in different states, and one of them was another before.
  obtain ⟨hkept, hkept'⟩ := hkeeps hask'.1.symm v.virtualCoreId
  rw [← hplug.2, hplugged] at hkept
  rw [← hunplug.2, hunplugged, ← hkept] at hkept'
  exact Bool.false_ne_true hkept'

/-- A unit is plugged and unplugged as its documentation says exactly when all its virtual cores can
be plugged, or none of them. -/
theorem plugsAsDocumented_iff (base : System Machine) (m : Machine) (u : PluggableUnit) :
    PlugsAsDocumented base m u ↔
      (∀ v ∈ u.virtualCores, (m.files (hotplugFile base v.virtualCoreId)).isSome) ∨
        ∀ v ∈ u.virtualCores, m.files (hotplugFile base v.virtualCoreId) = none := by
  constructor
  · intro hdocumented
    by_contra hmixed
    obtain ⟨hfixed, hfree⟩ := not_or.mp hmixed
    simp only [not_forall, ← Option.isSome_iff_ne_none] at hfree
    obtain ⟨v, hv, hfree⟩ := hfree
    simp only [not_forall, Bool.not_eq_true, Option.isSome_eq_false_iff,
      Option.isNone_iff_eq_none] at hfixed
    obtain ⟨w, hw, hfixed⟩ := hfixed
    exact (not_plugsAsDocumented hv hfree hw hfixed).2.2.2 hdocumented
  · rintro (hall | hnone)
    · exact plugsAsDocumented_of_all hall
    · exact plugsAsDocumented_of_none hnone

end Runs

/-- A physical core with a virtual core that can be plugged and one that cannot. -/
def mixedCore : PhysicalCore := ⟨0, 0, [⟨0, 0, 0⟩, ⟨0, 0, 1⟩]⟩

/-- The unit cannot be plugged, and a call unplugs a virtual core of it. -/
structure UnplugsHalf (u : PluggableUnit) : Prop where
  notPluggable : (u.isHotPluggable (system noSystem)).run halved = .ok false halved
  plugged : halved.plugged (hotplugFile noSystem 0) = true
  unplugs : ∃ m, (u.hotUnplug (system noSystem)).run halved = .ok () m ∧
    m.plugged (hotplugFile noSystem 0) = false
  undocumented : ¬PlugsAsDocumented noSystem halved u

theorem unplugsHalf {u : PluggableUnit} (hcores : u.virtualCores = mixedCore.virtualCores) :
    UnplugsHalf u := by
  have hname : hotplugFile noSystem 0 = "/sys/devices/system/cpu/cpu0/online" := by decide
  have hplugged : halved.plugged (hotplugFile noSystem 0) = true := by rw [hname]; decide
  have hfirst : (⟨0, 0, 0⟩ : VirtualCore) ∈ u.virtualCores := by simp [hcores, mixedCore]
  have hsecond : (⟨0, 0, 1⟩ : VirtualCore) ∈ u.virtualCores := by simp [hcores, mixedCore]
  have hfree :
      (halved.files (hotplugFile noSystem (⟨0, 0, 0⟩ : VirtualCore).virtualCoreId)).isSome := by
    rw [hname]; decide
  have hfixed :
      halved.files (hotplugFile noSystem (⟨0, 0, 1⟩ : VirtualCore).virtualCoreId) = none := by
    decide
  obtain ⟨hask, -, hunplugged, hnot⟩ := not_plugsAsDocumented hfirst hfree hsecond hfixed
  exact ⟨hask, hplugged, ⟨_, unit_hotUnplug_run noSystem halved u, hunplugged⟩, hnot⟩

/-- Neither the core nor its CPU can be plugged. -/
theorem hotUnplug_mixedCore :
    UnplugsHalf (.physicalCore mixedCore) ∧ UnplugsHalf (.cpu 0 [mixedCore]) :=
  ⟨unplugsHalf rfl, unplugsHalf rfl⟩

end Mammut.Topology
