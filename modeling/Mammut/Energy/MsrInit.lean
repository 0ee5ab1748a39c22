import Mammut.Energy.MsrMeters

/-! What `init` of `CounterCpusLinuxMsr` leaves behind: a counter that is configured, whose meters
start at the reset that `init` ends with. -/

namespace Mammut.Energy

open Kit Kit.Meters Kit.Programs CpuFamily

namespace CounterCpusLinuxMsr

theorem foldl_maxCpuId (cpus : List Cpu) (m : CpuId) :
    let r := cpus.foldl (fun m cpu => if cpu.cpuId > m then cpu.cpuId else m) m
    m ≤ r ∧ (∀ id ∈ ids cpus, id ≤ r) ∧ (r = m ∨ r ∈ ids cpus) := by
  induction cpus generalizing m with
  | nil => simp [ids]
  | cons cpu rest ih =>
    simp only [List.foldl_cons, ids, List.map_cons, List.mem_cons]
    by_cases hgt : cpu.cpuId > m
    · obtain ⟨hm, hle, hmem⟩ := ih cpu.cpuId
      rw [if_pos hgt]
      refine ⟨hgt.le.trans hm, ?_, Or.inr hmem⟩
      rintro id (rfl | hid)
      · exact hm
      · exact hle id hid
    · obtain ⟨hm, hle, hmem⟩ := ih m
      rw [if_neg hgt]
      refine ⟨hm, ?_, hmem.imp_right Or.inr⟩
      rintro id (rfl | hid)
      · exact (not_lt.mp hgt).trans hm
      · exact hle id hid

theorem le_maxCpuId {cpus : List Cpu} {id : CpuId} (hid : id ∈ ids cpus) : id ≤ maxCpuId cpus :=
  (foldl_maxCpuId cpus 0).2.1 id hid

theorem maxCpuId_mem {cpus : List Cpu} (hne : cpus ≠ []) : maxCpuId cpus ∈ ids cpus := by
  obtain ⟨-, hle, hzero | hmem⟩ := foldl_maxCpuId cpus 0
  · obtain ⟨first, rest, rfl⟩ := List.exists_cons_of_ne_nil hne
    have hfirst : first.cpuId ≤ maxCpuId (first :: rest) := le_maxCpuId (by simp [ids])
    have hmax : maxCpuId (first :: rest) = 0 := hzero
    rw [hmax] at hfirst ⊢
    simp [ids, Nat.le_zero.mp hfirst]
  · exact hmem

/-- The loop that opens the registers of the CPUs `done`, so far. -/
structure Opened (c1 : CounterCpusLinuxMsr) (done : List Cpu) (c : CounterCpusLinuxMsr) :
    Prop where
  others : c = { c1 with msrs := c.msrs }
  size : c.msrs.size = maxCpuId c1.cpus + 1
  opened : ∀ cpu ∈ done, c.msrs.get? cpu.cpuId = some cpu.virtualCoreId
  closed : ∀ id ∉ ids done, c.msrs.get? id = none

variable {c0 c1 c : CounterCpusLinuxMsr} {dev now : Device} {cpus : List Cpu}

theorem openMsr_triple (hnodup : (ids c1.cpus).Nodup)
    (havailable : ∀ cpu ∈ c1.cpus, dev.available cpu.virtualCoreId) :
    Triple (Opened c1 []) (c1.cpus.forM (openMsr dev)) (fun _ => Opened c1 c1.cpus) Never := by
  apply triple_forM (Opened c1)
  rintro done cpu rest hl c ⟨hothers, hsize, hopened, hclosed⟩
  have hmem : cpu ∈ c1.cpus := by rw [hl]; simp
  have hlt : cpu.cpuId < c.msrs.size := by
    rw [hsize]
    exact Nat.lt_succ_of_le (le_maxCpuId (List.mem_map_of_mem hmem))
  have hfresh : cpu.cpuId ∉ ids done := by
    rw [hl, ids, List.map_append, List.nodup_append] at hnodup
    exact fun hin => hnodup.2.2 _ hin _ (by simp) rfl
  simp only [openMsr, EStateM.run_bind, EStateM.run_get, writableSlot_of_lt hlt, EStateM.run_pure,
    EStateM.run_modify, havailable cpu hmem, if_true]
  refine ⟨?_, by simpa using hsize, ?_, ?_⟩
  · conv_lhs => rw [hothers]
  · intro other hother
    rcases List.mem_append.mp hother with hdone | hlast
    · have hne : cpu.cpuId ≠ other.cpuId := fun heq =>
        hfresh (heq ▸ List.mem_map_of_mem hdone)
      simpa [Slots.get?_set_ne hne] using hopened other hdone
    · rw [List.mem_singleton.mp hlast]
      simp [hlt]
  · intro id hid
    have hne : cpu.cpuId ≠ id := fun heq => hid (by simp [ids, heq])
    have hold : id ∉ ids done := fun hin =>
      hid (by rw [ids, List.map_append]; exact List.mem_append_left _ hin)
    simpa [Slots.get?_set_ne hne] using hclosed id hold

/-- What `init` has set up before it resets the counters. -/
structure Allocated (dev : Device) (c1 c0 : CounterCpusLinuxMsr) : Prop where
  configured : Configured c0
  represents : Represents c0 (fun _ => False) (fun _ => ⟨0, 0⟩) c0
  reads : ∀ d, c0.present d → ∀ cpu ∈ c0.cpus, ∀ which, register c0.family d = some which →
    d = .cpu ∨ dev.reads cpu.virtualCoreId which
  closed : ∀ id ∉ ids c0.cpus, c0.msrs.get? id = none
  maxId : c0.maxId = maxCpuId c0.cpus
  cpus : c0.cpus = c1.cpus
  family : c0.family = c1.family

theorem allocate_run (hne : c1.cpus ≠ []) (hnodup : (ids c1.cpus).Nodup)
    (havailable : ∀ cpu ∈ c1.cpus, dev.available cpu.virtualCoreId) :
    ∃ c0, (allocate dev).run c1 = .ok () c0 ∧ Allocated dev c1 c0 := by
  let empty : CounterCpusLinuxMsr := { c1 with
    maxId := maxCpuId c1.cpus, msrs := .uninitialised (maxCpuId c1.cpus + 1) }
  have hstart : Opened empty [] empty := ⟨rfl, by simp [empty], by simp, by simp [empty]⟩
  have loop : Triple (Opened empty []) (c1.cpus.forM (openMsr dev))
      (fun _ => Opened empty c1.cpus) Never := openMsr_triple hnodup havailable
  obtain ⟨⟨⟩, c2, hrun, hothers, hsize, hopened, hclosed⟩ := loop.returns hstart
  obtain ⟨msrs, rfl⟩ : ∃ msrs, c2 = { empty with msrs := msrs } := ⟨c2.msrs, hothers⟩
  obtain ⟨last, hlast, hlastId⟩ := mem_ids.mp (maxCpuId_mem hne)
  have hmsr : msrs.get? (maxCpuId c1.cpus) = some last.virtualCoreId := by
    rw [← hlastId]; exact hopened last hlast
  simp only [allocate, EStateM.run_bind, EStateM.run_get, EStateM.run_modify]
  rw [show (c1.cpus.forM (openMsr dev)).run empty = _ from hrun]
  simp only [readSlot_of_some hmsr, EStateM.run_pure]
  refine ⟨_, rfl, ⟨⟨hnodup, hopened, ?_⟩, ⟨rfl, ?_, ?_, ?_⟩, ?_, hclosed, rfl, rfl, rfl⟩⟩
  · intro d hd
    obtain ⟨first, rest, hcons⟩ := List.exists_cons_of_ne_nil hne
    cases hf : c1.family <;> cases d <;>
      simp_all [empty, present, register, hasCoresCounter, hasGraphicCounter, hasDramCounter]
  · intro id hid d
    simpa using Nat.lt_succ_of_le (le_maxCpuId hid)
  · intro id hid
    refine ⟨.zero, ?_, fun d => by simp⟩
    exact Slots.get?_filled (Nat.lt_succ_of_le (le_maxCpuId hid))
  · intro id hid d hp hfalse
    exact hfalse.elim
  · intro d hp cpu hcpu which hreg
    cases d with
    | cpu => exact Or.inl rfl
    | _ =>
      right
      have hall := List.all_eq_true.mp hp cpu hcpu
      cases hf : c1.family <;>
        simp_all [empty, register, hasCoresCounter, hasGraphicCounter, hasDramCounter]

/-- A CPU that `init` supports has registers that can be opened. -/
theorem available_of_supported {cpu : Cpu} (h : isCpuSupported dev cpu) :
    dev.available cpu.virtualCoreId := by
  simp only [isCpuSupported, isCpuIntelSupported, isCpuAMDSupported, Bool.or_eq_true,
    Bool.and_eq_true] at h
  rcases h with h | h
  · exact h.1.1.1.2
  · exact h.1.1.2

/-- The object on which `init` allocates. -/
def chosen (cpus : List Cpu) (f family : CpuFamily) : CounterCpusLinuxMsr :=
  { CounterCpusLinuxMsr.new cpus f with family := family, initialized := true }

theorem init_allocates {first : Cpu} {rest : List Cpu} {family : CpuFamily} (f : CpuFamily)
    (now : Device) (hvendor : vendorFamily first = some family)
    (hsupported : ∀ cpu ∈ first :: rest, isCpuSupported dev cpu) :
    (init dev now).run (.new (first :: rest) f) =
      (do allocate dev; reset now; return true : Call CounterCpusLinuxMsr Bool).run
        (chosen (first :: rest) f family) := by
  have hall : (first :: rest).all (isCpuSupported dev) = true := List.all_eq_true.mpr hsupported
  simp only [init, CounterCpusLinuxMsr.new, EStateM.run_bind, EStateM.run_get, hvendor,
    EStateM.run_modify, hall, if_true]
  rfl

/-- With supported CPUs, `init` is a reset of what it allocates. -/
theorem init_run {first : Cpu} {rest : List Cpu} {family : CpuFamily} (f : CpuFamily)
    (now : Device) (hvendor : vendorFamily first = some family)
    (hnodup : (ids (first :: rest)).Nodup)
    (hsupported : ∀ cpu ∈ first :: rest, isCpuSupported dev cpu) :
    ∃ c1 c0, c1.cpus = first :: rest ∧ c1.family = family ∧ Allocated dev c1 c0 ∧
      (init dev now).run (.new (first :: rest) f) =
        (do reset now; return true : Call CounterCpusLinuxMsr Bool).run c0 := by
  have havailable : ∀ cpu ∈ (chosen (first :: rest) f family).cpus,
      dev.available cpu.virtualCoreId := fun cpu hcpu => available_of_supported (hsupported cpu hcpu)
  have hne : (chosen (first :: rest) f family).cpus ≠ [] := List.cons_ne_nil _ _
  obtain ⟨c0, hrun, hallocated⟩ := allocate_run hne hnodup havailable
  refine ⟨_, c0, rfl, rfl, hallocated, ?_⟩
  rw [init_allocates f now hvendor hsupported, EStateM.run_bind, hrun]

/-- The parts of an `init` that returns `true`. -/
theorem init_parts {f : CpuFamily} (h : (init dev now).run (.new cpus f) = .ok true c) :
    ∃ family c0, cpus ≠ [] ∧ (∀ cpu ∈ cpus, isCpuSupported dev cpu) ∧
      (allocate dev).run (chosen cpus f family) = .ok () c0 ∧ (reset now).run c0 = .ok () c := by
  cases cpus with
  | nil => simp [init, CounterCpusLinuxMsr.new] at h
  | cons first rest =>
    cases hvendor : vendorFamily first with
    | none => simp [init, CounterCpusLinuxMsr.new, hvendor] at h
    | some family =>
      by_cases hall : (first :: rest).all (isCpuSupported dev) = true
      · have hsupported := List.all_eq_true.mp hall
        rw [init_allocates f now hvendor hsupported] at h
        obtain ⟨_, c0, hallocate, h⟩ := ok_of_bind h
        obtain ⟨_, c', hreset, h⟩ := ok_of_bind h
        cases h
        exact ⟨family, c0, List.cons_ne_nil _ _, hsupported, hallocate, hreset⟩
      · rw [Bool.not_eq_true] at hall
        simp only [init, CounterCpusLinuxMsr.new, EStateM.run_bind, EStateM.run_get, hvendor,
          EStateM.run_modify, hall] at h
        cases h

/-- With supported CPUs, what `allocate` leaves is allocated. -/
theorem allocated_of_run {f family : CpuFamily} (hne : cpus ≠ []) (hnodup : (ids cpus).Nodup)
    (hsupported : ∀ cpu ∈ cpus, isCpuSupported dev cpu)
    (h : (allocate dev).run (chosen cpus f family) = .ok () c0) :
    Allocated dev (chosen cpus f family) c0 := by
  obtain ⟨c0', hrun, hallocated⟩ := allocate_run (show (chosen cpus f family).cpus ≠ [] from hne)
    hnodup fun cpu hcpu => available_of_supported (hsupported cpu hcpu)
  rw [h, EStateM.Result.ok.injEq] at hrun
  rw [hrun.2]
  exact hallocated

/-- An `init` that returns `true` ended with a reset of what it had allocated. -/
theorem init_true {f : CpuFamily} (hnodup : (ids cpus).Nodup)
    (h : (init dev now).run (.new cpus f) = .ok true c) :
    ∃ c1 c0, c1.cpus = cpus ∧ Allocated dev c1 c0 ∧ (reset now).run c0 = .ok () c := by
  obtain ⟨family, c0, hne, hsupported, hallocate, hreset⟩ := init_parts h
  exact ⟨_, c0, rfl, allocated_of_run hne hnodup hsupported hallocate, hreset⟩

/-- With contiguous identifiers the destructor reads no slot that `init` has not written. -/
theorem destroy_run {seen : CpuId → Prop} {b : Bank Zone} (halloc : Allocated dev c1 c0)
    (hids : Contiguous c0.cpus) (hne : c0.cpus ≠ []) (h : Represents c0 seen b c) :
    destroy.run c = .ok () c := by
  have hmsrs : c.msrs = c0.msrs := by rw [h.setup]
  have hmax : c.maxId = maxCpuId c0.cpus := by rw [h.setup]; exact halloc.maxId
  have hslot : ∀ i ∈ List.range (c.maxId + 1), ∃ core, c.msrs.get? i = some core := by
    intro i hi
    have hn : maxCpuId c0.cpus < c0.cpus.length :=
      List.mem_range.mp (hids.mem_iff.mp (maxCpuId_mem hne))
    have hlt : i < c0.cpus.length := by
      rw [List.mem_range, hmax] at hi
      exact Nat.lt_of_le_of_lt (Nat.le_of_lt_succ hi) hn
    obtain ⟨cpu, hcpu, hid⟩ := mem_ids.mp (hids.mem_iff.mpr (List.mem_range.mpr hlt))
    rw [hmsrs, ← hid]
    exact ⟨_, halloc.configured.msr cpu hcpu⟩
  have loop : Triple (· = c) ((List.range (c.maxId + 1)).forM fun i => do
      let _ ← readSlot (← get).msrs i) (fun _ => (· = c)) Never := by
    apply triple_forM_invariant
    rintro i hi s rfl
    obtain ⟨core, hcore⟩ := hslot i hi
    simp [hcore]
  obtain ⟨⟨⟩, t, hrun, ht⟩ := loop.returns rfl
  rw [ht] at hrun
  cases hinit : c.initialized with
  | false => simp [destroy, hinit]
  | true =>
    simp only [destroy, EStateM.run_bind, EStateM.run_get, hinit, if_true]
    exact hrun

/-- A counter that `init` has set up is metered. -/
theorem Allocated.metered (halloc : Allocated dev c1 c0) (hids : Contiguous c0.cpus)
    (hne : c0.cpus ≠ []) : Metered methods c0.gauge (Represents c0 (· ∈ ids c0.cpus)) where
  read h hz hown := by
    obtain ⟨u, hu, rfl⟩ := Option.map_eq_some_iff.mp hown
    obtain ⟨hp, hid⟩ := Gauge.zones_iff.mp hz
    exact getJoules_shown halloc.configured h hid hp hid hu
  blind h hz hown := by
    obtain ⟨hp, hid⟩ := Gauge.zones_iff.mp hz
    exact getJoules_blind halloc.configured h hid hp (Option.map_eq_none_iff.mp hown)
  absent h hp := getJoules_absent (by rw [h.present_eq]; exact hp)
  reset b dev := by
    apply (reset_triple dev halloc.configured hids).conseq (fun _ h => h) (fun _ _ h => h.1)
    rintro e c ⟨i, hi, hfailed⟩
    exact hfailed.blindZone hi
  destroy h := destroy_run halloc hids hne h

end CounterCpusLinuxMsr

end Mammut.Energy
