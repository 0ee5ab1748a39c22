import Mammut.Topology.Rollback
import Mammut.Topology.Units

/-! A modulation that was set is read back, by a virtual core from its register and by a physical
core or a CPU as the largest of those of its virtual cores, and setting it changes no bit but those
of the modulation. -/

set_option linter.dupNamespace false

namespace Mammut.Topology

open Kit Kit.Programs Utils Machine VirtualCoreLinux

variable {hw : ClockMsrs Machine} {m m' m'' : Machine} {v w : VirtualCoreId} {value : ℚ}

/-- The register of the virtual core can be read and written. -/
structure Accessible (hw : ClockMsrs Machine) (v : VirtualCoreId) (m : Machine) : Prop where
  available : hw.available v
  readable : ((m.registers v).content MSR_CLOCK_MODULATION).isSome
  writable : (m.registers v).writable MSR_CLOCK_MODULATION

/-- A bit of a register of a virtual core. -/
def Machine.bit (m : Machine) (w : VirtualCoreId) (which k : ℕ) : Option Bool :=
  ((m.registers w).content which).map (·.getLsbD k)

/-- No bit has changed but those of the modulation of some virtual cores. -/
def ChangesOnly (hw : ClockMsrs Machine) (vs : List VirtualCoreId) (m m' : Machine) : Prop :=
  m'.files = m.files ∧ ∀ w which k,
    ¬ (w ∈ vs ∧ which = MSR_CLOCK_MODULATION ∧ clkModLowBit hw w ≤ k ∧ k ≤ 4) →
      m'.bit w which k = m.bit w which k

theorem ChangesOnly.refl (vs : List VirtualCoreId) (m : Machine) : ChangesOnly hw vs m m :=
  ⟨rfl, fun _ _ _ _ => rfl⟩

theorem ChangesOnly.trans {vs : List VirtualCoreId} (first : ChangesOnly hw vs m m')
    (second : ChangesOnly hw vs m' m'') : ChangesOnly hw vs m m'' :=
  ⟨second.1.trans first.1, fun w which k h => (second.2 w which k h).trans (first.2 w which k h)⟩

theorem ChangesOnly.mono {vs us : List VirtualCoreId} (h : ChangesOnly hw vs m m')
    (hsub : ∀ v ∈ vs, v ∈ us) : ChangesOnly hw us m m' :=
  ⟨h.1, fun w which k hout => h.2 w which k fun hin => hout ⟨hsub w hin.1, hin.2⟩⟩

/-- A modulation leaves the bits outside its field. -/
theorem getLsbD_encode {low k : ℕ} {step : ℚ} {old : BitVec 64} (hlow : low ≤ 3)
    (hout : ¬ (low ≤ k ∧ k ≤ 4)) : (encode low step value old).getLsbD k = old.getLsbD k := by
  by_cases hk : k < 64
  · rw [encode]
    split
    · rw [BitFields.getLsbD_insert hk, if_neg hout]
    · rw [BitFields.getLsbD_insert hk, if_neg (by omega), BitFields.getLsbD_insert hk,
        if_neg (by omega)]
  · rw [BitVec.getLsbD_of_ge _ _ (by omega), BitVec.getLsbD_of_ge _ _ (by omega)]

theorem modulated_changesOnly : ChangesOnly hw [v] m (m.modulated hw v value) := by
  refine ⟨files_modulated, fun w which k hout => ?_⟩
  by_cases hw' : w = v
  · subst hw'
    unfold Machine.bit Machine.modulated
    cases hcontent : (m.registers w).content MSR_CLOCK_MODULATION with
    | none => rfl
    | some old =>
      by_cases hwhich : which = MSR_CLOCK_MODULATION
      · subst hwhich
        have hlow := clkModLowBit_le hw w
        have hfield : ¬ (clkModLowBit hw w ≤ k ∧ k ≤ 4) := fun hin =>
          hout ⟨List.mem_singleton_self w, rfl, hin⟩
        rw [hold_content, hcontent, Option.map_some, Option.map_some,
          getLsbD_encode (by omega) hfield]
      · simp [hold, Machine.setRegisters, Function.update_of_ne hwhich]
  · rw [Machine.bit, registers_modulated_other hw']
    rfl

theorem Accessible.modulated (h : Accessible hw w m) : Accessible hw w (m.modulated hw v value) :=
  have hlike : Machine.Like m (m.modulated hw v value) := (Machine.Like.refl m).modulated
  ⟨h.available, hlike.readable w h.readable, by rw [hlike.writable]; exact h.writable⟩

theorem modulation_modulated (h : Accessible hw v m)
    (hvalue : value ∈ getClockModulationValues hw v) :
    (m.modulated hw v value).modulation hw v = value := by
  obtain ⟨old, hcontent⟩ := Option.isSome_iff_exists.mp h.readable
  simp [Machine.modulated, hcontent, modulation, h.available, decode_encode hvalue]

theorem modulation_modulated_other (hne : w ≠ v) :
    (m.modulated hw v value).modulation hw w = m.modulation hw w := by
  simp only [modulation, registers_modulated_other hne]

/-- The machine after the modulation of some virtual cores has been set. -/
def Machine.modulatedAll (hw : ClockMsrs Machine) (value : ℚ) (vs : List VirtualCore)
    (m : Machine) : Machine :=
  vs.foldl (fun m v => m.modulated hw v.virtualCoreId value) m

/-- The virtual cores, all of whose registers can be read and written and take the value. -/
def Supported (hw : ClockMsrs Machine) (value : ℚ) (vs : List VirtualCore) (m : Machine) : Prop :=
  ∀ v ∈ vs, Accessible hw v.virtualCoreId m ∧
    value ∈ getClockModulationValues hw v.virtualCoreId

section All

variable {vs : List VirtualCore}

theorem Supported.modulated (h : Supported hw value vs m) :
    Supported hw value vs (m.modulated hw v value) :=
  fun u hu => ⟨(h u hu).1.modulated, (h u hu).2⟩

theorem setAll_run (h : Supported hw value vs m) :
    (vs.forM fun v => VirtualCoreLinux.setClockModulation (msrs hw) v.virtualCoreId value).run m =
      .ok () (m.modulatedAll hw value vs) := by
  induction vs generalizing m with
  | nil => rfl
  | cons v vs ih =>
    obtain ⟨hv, hvs⟩ := List.forall_mem_cons.mp h
    obtain ⟨old, hcontent⟩ := Option.isSome_iff_exists.mp hv.1.readable
    have hfirst := setClockModulation_run hv.1.available hv.1.writable hcontent hv.2
    rw [run_forM_cons (f := fun v : VirtualCore => VirtualCoreLinux.setClockModulation (msrs hw)
      v.virtualCoreId value) hfirst]
    exact ih (Supported.modulated hvs)

theorem modulatedAll_changesOnly :
    ChangesOnly hw (vs.map (·.virtualCoreId)) m (m.modulatedAll hw value vs) := by
  induction vs generalizing m with
  | nil => exact .refl _ m
  | cons v vs ih =>
    have hfirst : ChangesOnly hw [v.virtualCoreId] m (m.modulated hw v.virtualCoreId value) :=
      modulated_changesOnly
    refine (hfirst.mono ?_).trans (ih.mono ?_)
    · simp
    · exact fun u hu => List.mem_cons_of_mem _ hu

/-- A virtual core keeps the value when it is set on others. -/
theorem modulatedAll_keeps (h : Supported hw value vs m) (hv : m.modulation hw v = value) :
    (m.modulatedAll hw value vs).modulation hw v = value := by
  induction vs generalizing m with
  | nil => exact hv
  | cons u vs ih =>
    obtain ⟨hu, hvs⟩ := List.forall_mem_cons.mp h
    apply ih (Supported.modulated hvs)
    by_cases hne : v = u.virtualCoreId
    · rw [hne]
      exact modulation_modulated hu.1 hu.2
    · rw [modulation_modulated_other hne, hv]

theorem modulatedAll_modulation (h : Supported hw value vs m) :
    ∀ v ∈ vs, (m.modulatedAll hw value vs).modulation hw v.virtualCoreId = value := by
  induction vs generalizing m with
  | nil => simp
  | cons u vs ih =>
    obtain ⟨hu, hvs⟩ := List.forall_mem_cons.mp h
    have hrest := Supported.modulated (v := u.virtualCoreId) hvs
    have hfirst := modulatedAll_keeps hrest (modulation_modulated hu.1 hu.2)
    exact List.forall_mem_cons.mpr ⟨hfirst, ih hrest⟩

end All

section Largest

variable {vs : List VirtualCore} {ps : List PhysicalCore} {max : ℚ}

/-- The largest of values that are all the same. -/
theorem largest_same (hvalue : -1 < value) (hmax : max = -1 ∨ max = value) :
    (if value > max then value else max) = value := by
  rcases hmax with rfl | rfl
  · exact if_pos hvalue
  · exact ite_self _

/-- A search for the largest of what some calls return, which is a value, or -1 from those that `e`
says to be empty. -/
theorem largest_run {ι : Type} {l : List ι} {get : ι → Call Machine ℚ} {e : ι → Prop}
    [DecidablePred e] (hvalue : -1 < value) (hmax : max = -1 ∨ max = value)
    (h : ∀ i ∈ l, (get i).run m = .ok (if e i then -1 else value) m) :
    (l.foldlM (fun max i => do
      let v ← get i
      return if v > max then v else max) max).run m =
        .ok (if ∀ i ∈ l, e i then max else value) m := by
  induction l generalizing max with
  | nil => simp
  | cons i l ih =>
    obtain ⟨hi, hl⟩ := List.forall_mem_cons.mp h
    have hstep : (do
        let v ← get i
        return if v > max then v else max : Call Machine ℚ).run m =
          .ok (if e i then max else value) m := by
      rw [EStateM.run_bind, hi]
      apply congrArg (EStateM.Result.ok · m)
      by_cases hempty : e i
      · rw [if_pos hempty, if_pos hempty]
        rcases hmax with rfl | rfl
        · exact ite_self _
        · exact if_neg (not_lt.mpr hvalue.le)
      · rw [if_neg hempty, if_neg hempty]
        exact largest_same hvalue hmax
    rw [run_foldlM_cons hstep]
    by_cases hempty : e i
    · rw [if_pos hempty, ih hmax hl]
      simp [hempty]
    · rw [if_neg hempty, ih (.inr rfl) hl, ite_self, if_neg]
      simp [hempty]

theorem physicalCore_get_run (hvalue : -1 < value) {p : PhysicalCore}
    (h : ∀ v ∈ p.virtualCores, m.modulation hw v.virtualCoreId = value) :
    (p.getClockModulation (msrs hw)).run m = .ok (if p.virtualCores = [] then -1 else value) m := by
  refine (largest_run (e := fun _ => False) hvalue (.inl rfl) fun v hv => ?_).trans ?_
  · rw [getClockModulation_run, h v hv, if_neg id]
  · refine congrArg (EStateM.Result.ok · m) (if_congr ?_ rfl rfl)
    exact List.eq_nil_iff_forall_not_mem.symm

theorem cpu_get_run (hvalue : -1 < value) {c : Cpu}
    (h : ∀ p ∈ c.physicalCores, ∀ v ∈ p.virtualCores, m.modulation hw v.virtualCoreId = value) :
    (c.getClockModulation (msrs hw)).run m =
      .ok (if c.physicalCores.flatMap (·.virtualCores) = [] then -1 else value) m := by
  refine (largest_run (e := fun p : PhysicalCore => p.virtualCores = []) hvalue (.inl rfl)
    fun p hp => physicalCore_get_run hvalue (h p hp)).trans ?_
  refine congrArg (EStateM.Result.ok · m) (if_congr ?_ rfl rfl)
  exact List.flatMap_eq_nil_iff.symm

end Largest

section Sets

variable {vs : List VirtualCore}

theorem one_lt_of_mem (hvalue : value ∈ getClockModulationValues hw v) : -1 < value := by
  rcases List.mem_append.mp hvalue with hmod | hfull
  · obtain ⟨i, -, rfl⟩ := List.mem_map.mp hmod
    have hpos : 0 < clkModStep hw v * ((i + 1 : ℕ) : ℚ) :=
      mul_pos (clkModStep_pos hw v) (by positivity)
    exact lt_trans (by norm_num) hpos
  · rw [List.mem_singleton.mp hfull]
    norm_num

/-- What `setClockModulation` and `getClockModulation` of a unit do with its virtual cores. -/
def Sets (hw : ClockMsrs Machine) (vs : List VirtualCoreId) (values : List ℚ)
    (setClockModulation : ℚ → Call Machine Unit) (getClockModulation : Call Machine ℚ)
    (m : Machine) : Prop :=
  ∀ value,
    (value ∈ values → ∃ m', (setClockModulation value).run m = .ok () m' ∧
      getClockModulation.run m' = .ok value m' ∧
      (∀ v ∈ vs, (VirtualCoreLinux.getClockModulation (msrs hw) v).run m' = .ok value m') ∧
      ChangesOnly hw vs m m') ∧
    (value ∉ values → ∃ e, (setClockModulation value).run m = .error e m)

theorem setClockModulation_throws (hvalue : value ∉ getClockModulationValues hw v) :
    ∃ e, (VirtualCoreLinux.setClockModulation (msrs hw) v value).run m = .error e m := by
  have hvalues : value ∉ getClockModulationValues (msrs hw) v := hvalue
  rw [VirtualCoreLinux.setClockModulation, if_pos hvalues]
  exact ⟨_, rfl⟩

/-- The virtual cores of a unit use the same encoding. -/
theorem values_eq {u : VirtualCoreId} (h : hw.extended u = hw.extended v) :
    getClockModulationValues hw u = getClockModulationValues hw v := by
  unfold getClockModulationValues possibleValues clkModStep
  rw [h]

/-- A unit whose calls are those of its virtual cores, one after the other. -/
theorem sets_of_all {set : ℚ → Call Machine Unit} {get : Call Machine ℚ} {vc : VirtualCore}
    (hset : ∀ value, set value = vs.forM fun v =>
      VirtualCoreLinux.setClockModulation (msrs hw) v.virtualCoreId value)
    (hget : ∀ m value, -1 < value → (∀ v ∈ vs, m.modulation hw v.virtualCoreId = value) →
      get.run m = .ok value m)
    (haccess : ∀ v ∈ vs, Accessible hw v.virtualCoreId m)
    (hsame : ∀ v ∈ vs, hw.extended v.virtualCoreId = hw.extended vc.virtualCoreId)
    (hvc : vc ∈ vs) :
    Sets hw (vs.map (·.virtualCoreId)) (getClockModulationValues hw vc.virtualCoreId) set get m := by
  intro value
  rw [hset]
  constructor
  · intro hvalue
    have hsupported : Supported hw value vs m := fun v hv =>
      ⟨haccess v hv, by rw [values_eq (hsame v hv)]; exact hvalue⟩
    have hall := modulatedAll_modulation hsupported
    refine ⟨_, setAll_run hsupported, hget _ _ (one_lt_of_mem hvalue) hall, fun v hv => ?_,
      modulatedAll_changesOnly⟩
    obtain ⟨u, hu, rfl⟩ := List.mem_map.mp hv
    rw [getClockModulation_run, hall u hu]
  · intro hvalue
    cases vs with
    | nil => exact absurd hvc List.not_mem_nil
    | cons v vs =>
      have hfirst : value ∉ getClockModulationValues hw v.virtualCoreId := by
        rwa [values_eq (hsame v List.mem_cons_self)]
      obtain ⟨e, he⟩ := setClockModulation_throws (m := m) hfirst
      refine ⟨e, ?_⟩
      show (VirtualCoreLinux.setClockModulation (msrs hw) v.virtualCoreId value >>= fun _ =>
        _).run m = _
      rw [EStateM.run_bind, he]

/-- The calls of a physical core are those of its virtual cores, and so are those of a CPU. -/
theorem cpu_set_eq (c : Cpu) (value : ℚ) : c.setClockModulation (msrs hw) value =
    (c.physicalCores.flatMap (·.virtualCores)).forM fun v =>
      VirtualCoreLinux.setClockModulation (msrs hw) v.virtualCoreId value :=
  (forM_flatMap _ _ _).symm

theorem virtualCore_sets (h : Accessible hw v m) :
    Sets hw [v] (getClockModulationValues hw v) (VirtualCoreLinux.setClockModulation (msrs hw) v)
      (VirtualCoreLinux.getClockModulation (msrs hw) v) m := by
  have hvc : (⟨0, 0, v⟩ : VirtualCore) ∈ [(⟨0, 0, v⟩ : VirtualCore)] := List.mem_singleton_self _
  refine sets_of_all (fun value => ?_) (fun m value _ hall => ?_) (fun u hu => ?_) (fun u hu => ?_)
    hvc
  · exact bind_pure_unit.symm
  · rw [getClockModulation_run, hall _ hvc]
  · rw [List.mem_singleton.mp hu]
    exact h
  · rw [List.mem_singleton.mp hu]

/-- A virtual core, a physical core or a CPU takes each supported value, which it and its virtual
cores then show, and throws for any other. -/
theorem clockModulation_sets (hw : ClockMsrs Machine) (m : Machine) :
    (∀ v, Accessible hw v m → Sets hw [v] (getClockModulationValues (msrs hw) v)
      (VirtualCoreLinux.setClockModulation (msrs hw) v)
      (VirtualCoreLinux.getClockModulation (msrs hw) v) m) ∧
    (∀ p : PhysicalCore, ∀ vc ∈ p.virtualCores,
      (∀ v ∈ p.virtualCores, Accessible hw v.virtualCoreId m ∧
        hw.extended v.virtualCoreId = hw.extended vc.virtualCoreId) →
      Sets hw (p.virtualCores.map (·.virtualCoreId))
        (getClockModulationValues (msrs hw) vc.virtualCoreId) (p.setClockModulation (msrs hw))
        (p.getClockModulation (msrs hw)) m) ∧
    ∀ cpuId physicalCores, ∀ vc ∈ (Cpu.new cpuId physicalCores).virtualCores,
      (∀ v ∈ (Cpu.new cpuId physicalCores).virtualCores, Accessible hw v.virtualCoreId m ∧
        hw.extended v.virtualCoreId = hw.extended vc.virtualCoreId) →
      Sets hw ((Cpu.new cpuId physicalCores).virtualCores.map (·.virtualCoreId))
        (getClockModulationValues (msrs hw) vc.virtualCoreId)
        ((Cpu.new cpuId physicalCores).setClockModulation (msrs hw))
        ((Cpu.new cpuId physicalCores).getClockModulation (msrs hw)) m := by
  refine ⟨fun v h => virtualCore_sets h, fun p vc hvc h => ?_, fun cpuId ps vc hvc h => ?_⟩
  · refine sets_of_all (fun _ => rfl) (fun m value hvalue hall => ?_) (fun v hv => (h v hv).1)
      (fun v hv => (h v hv).2) hvc
    rw [physicalCore_get_run hvalue hall, if_neg (List.ne_nil_of_mem hvc)]
  · have hcores : (Cpu.new cpuId ps).virtualCores = ps.flatMap (·.virtualCores) :=
      Topology.Cpu.virtualCoresFromPhysicalCores_eq ps
    rw [hcores] at hvc h ⊢
    refine sets_of_all (cpu_set_eq _) (fun m value hvalue hall => ?_) (fun v hv => (h v hv).1)
      (fun v hv => (h v hv).2) hvc
    have hall' : ∀ p ∈ (Cpu.new cpuId ps).physicalCores, ∀ v ∈ p.virtualCores,
        m.modulation hw v.virtualCoreId = value := fun p hp v hv =>
      hall v (List.mem_flatMap.mpr ⟨p, hp, hv⟩)
    rw [cpu_get_run hvalue hall']
    exact congrArg (EStateM.Result.ok · m) (if_neg (List.ne_nil_of_mem hvc))

theorem clockModulation_sets_quarter : ∃ m,
    (VirtualCoreLinux.setClockModulation (msrs firstMsr) 0 25).run halved = .ok () m ∧
    (VirtualCoreLinux.getClockModulation (msrs firstMsr) 0).run m = .ok 25 m :=
  have haccess : Accessible firstMsr 0 halved := ⟨rfl, rfl, rfl⟩
  have hvalue : 25 ∈ getClockModulationValues (msrs firstMsr) 0 :=
    List.mem_append_left _
      (List.mem_map.mpr ⟨1, by decide, by norm_num [clkModStep, firstMsr, msrs]⟩)
  have ⟨m, hrun, hget, _⟩ := ((clockModulation_sets firstMsr halved).1 0 haccess 25).1 hvalue
  ⟨m, hrun, hget⟩

end Sets

end Mammut.Topology
