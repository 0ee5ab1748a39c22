import Mathlib.Data.List.Perm.Subperm
import Mammut.Energy.MsrRuns
import Mammut.Energy.SysFsRuns

/-! Positions and identifiers.  `reset` runs over the positions `0..n-1`, and
`CounterCpusLinuxSysFs` has as many slots as there are CPUs, but the other methods use the
identifiers of the CPUs.  Both counters are sound exactly when the identifiers are the
positions. -/

namespace Mammut.Energy

open Kit Kit.Meters Kit.Programs Kit.Runs CpuFamily

theorem nodup_range_perm {l : List ℕ} (h : List.range l.length ⊆ l) :
    l.Perm (List.range l.length) :=
  ((List.nodup_range.subperm h).perm_of_length_le (by simp)).symm

theorem nodup_perm_range {l : List ℕ} (hnodup : l.Nodup) (h : l ⊆ List.range l.length) :
    l.Perm (List.range l.length) :=
  (hnodup.subperm h).perm_of_length_le (by simp)

@[simp] theorem length_ids (cpus : List Cpu) : (ids cpus).length = cpus.length := by simp [ids]

namespace CounterCpusLinuxMsr

/-- After a successful `init`, every access is inside its array, to a slot that was written, the
registers in the slot of a CPU are its own, and after a reset a read of a CPU reports only the
energy that it has consumed since. -/
def Sound (cpus : List Cpu) (f : CpuFamily) (dev now : Device) : Prop :=
  ∃ c, (init dev now).run (.new cpus f) = .ok true c ∧ Inside methods cpus c ∧
    (∀ cpu ∈ cpus, c.msrs.get? cpu.cpuId = some cpu.virtualCoreId) ∧
    ∀ E, c.gauge.Shows (fun _ => 2 ^ 32) now c.gauge.zones E →
      ExactReads methods c.gauge (fun _ => 2 ^ 32) ⟨c, Tally.start E, []⟩

/-- The registers that `dev` shows to `init` can be read by its reset too. -/
def StaysReadable (cpus : List Cpu) (family : CpuFamily) (dev now : Device) : Prop :=
  ∀ cpu ∈ cpus, ∀ d which, register family d = some which →
    d = .cpu ∨ dev.reads cpu.virtualCoreId which → now.reads cpu.virtualCoreId which

variable {c : CounterCpusLinuxMsr} {dev now : Device} {cpus : List Cpu} {family f : CpuFamily}
  {msrs : Slots VirtualCoreId} {i which : ℕ} {d : Domain}

theorem shown_isSome {core : VirtualCoreId} (h : now.reads core which) :
    (shown now core which).isSome := by
  unfold Device.reads at h
  unfold shown
  cases hread : now.read core which with
  | none => simp [hread] at h
  | some result => simp_all

theorem restart_msrs : Triple (fun c => c.msrs = msrs) (restart dev i d which)
    (fun _ c => c.msrs = msrs ∧ (msrs.get? i).isSome) (fun _ _ => True) := by
  rintro c rfl
  unfold restart readEnergyCounter
  by_cases hwhich : which ∈ energyStatus
  · cases hslot : c.msrs.get? i with
    | none => simp [hwhich, hslot]
    | some msr =>
      cases hread : dev.read msr which with
      | none => simp [hwhich, hslot, hread]
      | some result =>
        by_cases hzero : result = 0
        · simp [hwhich, hslot, hread, hzero]
        · by_cases hlt : i < (c.lastReadCounters d).size
          · simp [hwhich, hslot, hread, hzero, hlt, setLast]
          · simp [hwhich, hslot, hread, hzero, writableSlot, hlt]
  · simp [hwhich]

theorem restartIf_msrs {has : CounterCpusLinuxMsr → Bool} {p : Prop} :
    Triple (fun c => c.msrs = msrs ∧ p) (restartIf has dev i d which)
      (fun _ c => c.msrs = msrs ∧ p) (fun _ _ => True) := by
  rintro c ⟨hc, hp⟩
  simp only [restartIf, EStateM.run_bind, EStateM.run_get]
  cases has c with
  | false => exact ⟨hc, hp⟩
  | true => exact restart_msrs.post (fun _ _ h => ⟨h.1, hp⟩) c hc

theorem resetAt_msrs : Triple (fun c => c.msrs = msrs) (resetAt dev i)
    (fun _ c => c.msrs = msrs ∧ (msrs.get? i).isSome) (fun _ _ => True) := by
  have hpackage : Triple (fun c => c.msrs = msrs) (restartPackage dev i)
      (fun _ c => c.msrs = msrs ∧ (msrs.get? i).isSome) (fun _ _ => True) := by
    rintro c hc
    simp only [restartPackage, EStateM.run_bind, EStateM.run_get]
    cases c.family <;> exact restart_msrs c hc
  unfold resetAt
  refine triple_bind hpackage fun _ => ?_
  refine triple_bind restartIf_msrs fun _ => ?_
  refine triple_bind restartIf_msrs fun _ => ?_
  refine triple_bind restartIf_msrs fun _ => ?_
  rintro c hc
  simp only [clearJoules, EStateM.run_bind, EStateM.run_get]
  by_cases hlt : i < c.joulesCpus.size
  · simp only [writableSlot_of_lt hlt, EStateM.run_pure, EStateM.run_modify]
    exact hc
  · simp [writableSlot, hlt]

theorem reset_msrs {c' : CounterCpusLinuxMsr} (hrun : (reset dev).run c = .ok () c') :
    ∀ i < c.cpus.length, (c.msrs.get? i).isSome := by
  have loop : Triple (fun s => s.msrs = c.msrs ∧ ∀ i ∈ ([] : List ℕ), (c.msrs.get? i).isSome)
      ((List.range c.cpus.length).forM (resetAt dev))
      (fun _ s => s.msrs = c.msrs ∧ ∀ i ∈ List.range c.cpus.length, (c.msrs.get? i).isSome)
      (fun _ _ => True) := by
    apply triple_forM fun visited (s : CounterCpusLinuxMsr) =>
      s.msrs = c.msrs ∧ ∀ i ∈ visited, (c.msrs.get? i).isSome
    rintro visited i rest - s ⟨hs, hvisited⟩
    apply resetAt_msrs.post ?_ s hs
    rintro _ t ⟨ht, hi⟩
    refine ⟨ht, fun j hj => ?_⟩
    rcases List.mem_append.mp hj with hmem | hmem
    · exact hvisited j hmem
    · rw [List.mem_singleton.mp hmem]; exact hi
  simp only [reset, EStateM.run_bind, EStateM.run_get] at hrun
  have hall := loop.ok_of ⟨rfl, by simp⟩ hrun
  exact fun i hi => hall.2 i (List.mem_range.mpr hi)

/-- The counter is sound only when the identifiers are contiguous. -/
theorem Sound.contiguous (hnodup : (ids cpus).Nodup) (h : Sound cpus f dev now) :
    Contiguous cpus := by
  obtain ⟨c, hinit, -⟩ := h
  obtain ⟨c1, c0, hcpus, halloc, hreset⟩ := init_true hnodup hinit
  have hcpus0 : c0.cpus = cpus := halloc.cpus.trans hcpus
  have hslots := reset_msrs hreset
  rw [Contiguous, ← length_ids]
  apply nodup_range_perm
  intro i hi
  by_contra hmissing
  rw [hcpus0] at hslots
  have hslot := hslots i (by simpa using hi)
  rw [halloc.closed i (by rw [hcpus0]; exact hmissing)] at hslot
  contradiction

/-- With contiguous identifiers and readable registers the counter is sound. -/
theorem sound_of_contiguous {first : Cpu} {rest : List Cpu} (hcpus : cpus = first :: rest)
    (hids : Contiguous cpus) (hvendor : vendorFamily first = some family)
    (hsupported : ∀ cpu ∈ cpus, isCpuSupported dev cpu)
    (hreadable : StaysReadable cpus family dev now) : Sound cpus f dev now := by
  have hnodup : (ids cpus).Nodup := hids.nodup_iff.mpr List.nodup_range
  subst hcpus
  obtain ⟨c1, c0, hcpus, hfamily, halloc, hrun⟩ := init_run f now hvendor hnodup hsupported
  have hcpus0 : c0.cpus = first :: rest := halloc.cpus.trans hcpus
  have hids0 : Contiguous c0.cpus := by rw [hcpus0]; exact hids
  have hne : c0.cpus ≠ [] := by rw [hcpus0]; exact List.cons_ne_nil _ _
  have hfamily0 : c0.family = family := halloc.family.trans hfamily
  have hq := reset_triple now halloc.configured hids0 c0 halloc.represents
  cases hreset : (reset now).run c0 with
  | error e c =>
    rw [hreset] at hq
    obtain ⟨i, hi, -, ⟨d, hp, hblind⟩, -⟩ := hq
    obtain ⟨cpu, hcpu, rfl⟩ := mem_ids.mp hi
    obtain ⟨which, hreg⟩ := halloc.configured.counts d hp
    have hreads : now.reads cpu.virtualCoreId which :=
      hreadable cpu (hcpus0 ▸ hcpu) d which (hfamily0 ▸ hreg)
        (halloc.reads d hp cpu hcpu which hreg)
    rw [halloc.configured.own_eq hcpu, hreg, Option.bind_some] at hblind
    have hsome := shown_isSome hreads
    rw [hblind] at hsome
    contradiction
  | ok u c =>
    rw [hreset] at hq
    replace hq := hq.1
    have hmetered := halloc.metered hids0 hne
    refine ⟨c, ?_, ?_, ?_, fun E hshows => ?_⟩
    · rw [hrun, EStateM.run_bind, hreset]
      rfl
    · have hinside := hmetered.inside hq
      rwa [show c0.gauge.cpus = first :: rest from hcpus0] at hinside
    · intro cpu hcpu
      rw [hq.setup]
      exact halloc.configured.msr cpu (hcpus0 ▸ hcpu)
    · rw [hq.gauge_eq] at hshows ⊢
      exact hmetered.exactReads (fun _ _ => rfl) (Metered.start_inStep hq hshows)

end CounterCpusLinuxMsr

namespace CounterCpusLinuxSysFs

/-- After a successful `init`, every access is inside its vector, and after a reset a read of a
CPU reports only the energy that it has consumed since, when all the zones have the range `R`. -/
def Sound (cpus : List Cpu) (files now : Powercap) (R : ℕ) : Prop :=
  ∃ c, (init files now).run (.new cpus) = .ok true c ∧ Inside methods cpus c ∧
    ∀ T, (c.gauge R).Shows (fun _ => R) now (c.gauge R).zones T →
      ExactReads methods (c.gauge R) (fun _ => R) ⟨c, Tally.start T, []⟩

/-- The counter of package `i`, and those of its subzones, exist. -/
def Exist (files now : Powercap) (i : ℕ) : Prop :=
  (files.number (energyFile i none)).isSome ∧ (now.number (energyFile i none)).isSome ∧
    ∀ sub < files.names.length, (now.number (energyFile i (some sub))).isSome

variable {c : CounterCpusLinuxSysFs} {files now : Powercap} {cpus : List Cpu} {R n i : ℕ}
  {d : Domain} {sub : Option ℕ}

theorem read_size : Triple (fun c => c.joulesCpus.size = n) (read files i d sub)
    (fun _ c => c.joulesCpus.size = n) (fun _ _ => True) := by
  rintro c hc
  unfold read readJoules
  cases hj : c.joulesCpus.get? i with
  | none => simp [hj]
  | some j =>
    cases hfile : files.number (energyFile i sub) with
    | none => simp [hj]
    | some uj =>
      cases hlast : (c.last d).get? i with
      | none => simp [hj, hlast]
      | some last =>
        simp only [EStateM.run_bind, EStateM.run_get, readSlot_of_some hj,
          readSlot_of_some hlast, EStateM.run_pure, EStateM.run_modify]
        simpa [setLast, setJoules] using hc

theorem getJoules_size : Triple (fun c => c.joulesCpus.size = n) (getJoules files d i)
    (fun _ c => c.joulesCpus.size = n) (fun _ _ => True) := by
  intro c hc
  rw [getJoules_eq]
  cases c.subzone d with
  | none => exact hc
  | some sub => exact read_size c hc

theorem reset_size : Triple (fun c => c.joulesCpus.size = n) (reset files)
    (fun _ c => c.joulesCpus.size = n) (fun _ _ => True) := by
  intro c hc
  simp only [reset, EStateM.run_bind, EStateM.run_get]
  refine triple_forM_invariant (fun i _ => ?_) c hc
  unfold resetAt
  refine triple_bind (getJoules_size (d := .cpu)) fun _ => ?_
  refine triple_bind (getJoules_size (d := .cores)) fun _ => ?_
  refine triple_bind (getJoules_size (d := .graphic)) fun _ => ?_
  refine triple_bind (getJoules_size (d := .dram)) fun _ => ?_
  intro s hs
  simp only [clearJoules, EStateM.run_bind, EStateM.run_get]
  by_cases hlt : i < s.joulesCpus.size
  · simpa [writableSlot_of_lt hlt, setJoules] using hs
  · simp [writableSlot, hlt]

/-- The counter is sound only when the identifiers are contiguous. -/
theorem Sound.contiguous (hnodup : (ids cpus).Nodup) (hrange : files.number maxRangeFile = some R)
    (h : Sound cpus files now R) : Contiguous cpus := by
  obtain ⟨c, hinit, hinside, -⟩ := h
  have hsize : c.joulesCpus.size = cpus.length :=
    reset_size.ok_of (by simp [allocated]) (init_true hrange hinit)
  rw [Contiguous, ← length_ids]
  apply nodup_perm_range hnodup
  intro id hid
  rw [length_ids, List.mem_range]
  by_contra hout
  have hslot : c.joulesCpus.get? id = none := by
    cases hj : c.joulesCpus.get? id with
    | none => rfl
    | some j => exact absurd (hsize ▸ Slots.lt_size hj) hout
  apply hinside [] c .nil (.getJoules files .cpu id) hid
  exact ⟨c, by simp [Op.exec, methods, getJoules, getJoulesCpu, read, hslot]⟩

theorem foldl_findSubzone_mem (l : List (String × ℕ)) (c : CounterCpusLinuxSysFs) (d : Domain)
    (k : ℕ) (h : (l.foldl findSubzone c).subzone d = some (some k)) :
    k ∈ l.map Prod.snd ∨ c.subzone d = some (some k) := by
  induction l generalizing c with
  | nil => exact Or.inr h
  | cons x rest ih =>
    rw [List.foldl_cons] at h
    rcases ih _ h with hmem | hfound
    · exact Or.inl (List.mem_cons_of_mem _ hmem)
    · unfold findSubzone at hfound
      split_ifs at hfound <;> cases d <;> simp_all [subzone]

theorem allocated_subzone {k : ℕ} (h : (allocated files cpus R).subzone d = some (some k)) :
    k < files.names.length := by
  have hfold : (files.names.zipIdx.foldl findSubzone
      { CounterCpusLinuxSysFs.new cpus with initialized := true }).subzone d = some (some k) := h
  rcases foldl_findSubzone_mem _ _ d k hfold with hmem | hnew
  · simpa [List.zipIdx_map_snd] using hmem
  · cases d <;> simp [subzone, CounterCpusLinuxSysFs.new] at hnew

/-- With contiguous identifiers and files that exist the counter is sound. -/
theorem sound_of_contiguous (hids : Contiguous cpus) (hexist : ∀ i < cpus.length, Exist files now i)
    (hrange : files.number maxRangeFile = some R) : Sound cpus files now R := by
  have hrun := init_run now (fun i hi => (hexist i hi).1) hrange
  have hrep : Represents (allocated files cpus R) R (fun _ => ⟨0, 0⟩) (allocated files cpus R) :=
    allocated_represents hids
  have hids0 : Contiguous (allocated files cpus R).cpus := by rw [allocated_cpus]; exact hids
  have hq := reset_triple now hids0 _ hrep
  have hmetered := metered (R := R) hids0
  cases hreset : (reset now).run (allocated files cpus R) with
  | error e c =>
    rw [hreset] at hq
    obtain ⟨-, ⟨⟨d, id⟩, hz, hblind⟩, -⟩ := hq
    obtain ⟨hp, hid⟩ := Gauge.zones_iff.mp hz
    have hlt : id < cpus.length := List.mem_range.mp (hids.mem_iff.mp (by simpa [gauge] using hid))
    obtain ⟨sub, hsub⟩ := Option.isSome_iff_exists.mp hp
    rw [own_eq hsub] at hblind
    obtain ⟨-, hpackage, hsubzones⟩ := hexist id hlt
    cases sub with
    | none => rw [hblind] at hpackage; contradiction
    | some k =>
      have hsome := hsubzones k (allocated_subzone hsub)
      rw [hblind] at hsome
      contradiction
  | ok u c =>
    rw [hreset] at hq
    refine ⟨c, ?_, ?_, fun T hshows => ?_⟩
    · rw [hrun, EStateM.run_bind, hreset]
      rfl
    · have hinside := hmetered.inside hq
      have hcpus : ((allocated files cpus R).gauge R).cpus = cpus := allocated_cpus (R := R)
      rwa [hcpus] at hinside
    · rw [hq.gauge_eq] at hshows ⊢
      exact hmetered.exactReads (fun _ _ => rfl) (Metered.start_inStep hq hshows)

end CounterCpusLinuxSysFs

/-- On a machine whose registers and files can be read, the counters are sound exactly when the
identifiers of the CPUs are contiguous. -/
theorem sound_iff_contiguous {first : Cpu} {rest : List Cpu} {family f : CpuFamily}
    {dev now : Device} {files filesNow : Powercap} {R : ℕ}
    (hnodup : (ids (first :: rest)).Nodup) (hvendor : CounterCpusLinuxMsr.vendorFamily first = some family)
    (hsupported : ∀ cpu ∈ first :: rest, isCpuSupported dev cpu)
    (hreadable : CounterCpusLinuxMsr.StaysReadable (first :: rest) family dev now)
    (hexist : ∀ i < (first :: rest).length, CounterCpusLinuxSysFs.Exist files filesNow i)
    (hrange : files.number maxRangeFile = some R) :
    (CounterCpusLinuxMsr.Sound (first :: rest) f dev now ↔ Contiguous (first :: rest)) ∧
      (CounterCpusLinuxSysFs.Sound (first :: rest) files filesNow R ↔
        Contiguous (first :: rest)) := by
  refine ⟨⟨fun h => h.contiguous hnodup, fun h => ?_⟩,
    ⟨fun h => h.contiguous hnodup hrange, fun h => ?_⟩⟩
  · exact CounterCpusLinuxMsr.sound_of_contiguous rfl h hvendor hsupported hreadable
  · exact CounterCpusLinuxSysFs.sound_of_contiguous h hexist hrange

theorem packageOnly_readable {cpus : List Cpu} :
    CounterCpusLinuxMsr.StaysReadable cpus CPU_FAMILY_INTEL
      (CounterCpusLinuxMsr.packageOnly 7) (CounterCpusLinuxMsr.packageOnly 9) := by
  intro cpu _ d which hreg hor
  cases d <;> cases hreg
  case cpu => rfl
  all_goals rcases hor with h | h <;> cases h

theorem sound_iff_contiguous_oneCpu :
    CounterCpusLinuxMsr.Sound oneCpu CPU_FAMILY_AMD (CounterCpusLinuxMsr.packageOnly 7)
      (CounterCpusLinuxMsr.packageOnly 9) ∧
    CounterCpusLinuxSysFs.Sound oneCpu (CounterCpusLinuxSysFs.twoFiles 0 0)
      (CounterCpusLinuxSysFs.twoFiles 8 4) 10 := by
  have hexist : ∀ i < oneCpu.length, CounterCpusLinuxSysFs.Exist
      (CounterCpusLinuxSysFs.twoFiles 0 0) (CounterCpusLinuxSysFs.twoFiles 8 4) i := by
    intro i hi
    obtain rfl : i = 0 := Nat.lt_one_iff.mp hi
    refine ⟨rfl, rfl, fun sub hsub => ?_⟩
    obtain rfl : sub = 0 := Nat.lt_one_iff.mp hsub
    rfl
  obtain ⟨hmsr, hsysfs⟩ := sound_iff_contiguous (by decide) rfl (by decide) packageOnly_readable
    hexist rfl
  exact ⟨hmsr.mpr oneCpu_contiguous, hsysfs.mpr oneCpu_contiguous⟩

/-- The CPUs of the comment in `init`: one with identifier 1 and one with identifier 3. -/
def sparseCpus : List Cpu := [⟨1, "GenuineIntel", "6", 0⟩, ⟨3, "GenuineIntel", "6", 1⟩]

def sparseFiles : Powercap where
  number fileName :=
    if fileName = energyFile 0 none ∨ fileName = energyFile 1 none then some 4
    else if fileName = maxRangeFile then some 10
    else none
  names := []

/-- With identifiers 1 and 3, the `init` of one counter resets through a pointer that was never
written, and after the `init` of the other a read of CPU 3 is outside the vectors. -/
theorem sparse_undefined :
    (∀ cpu ∈ sparseCpus, isCpuSupported (CounterCpusLinuxMsr.packageOnly 7) cpu) ∧
    Undefined (CounterCpusLinuxMsr.init (CounterCpusLinuxMsr.packageOnly 7)
      (CounterCpusLinuxMsr.packageOnly 9)) (.new sparseCpus CPU_FAMILY_AMD) ∧
    (∃ c, (CounterCpusLinuxSysFs.init sparseFiles sparseFiles).run (.new sparseCpus) = .ok true c ∧
      3 ∈ ids sparseCpus ∧ Undefined (CounterCpusLinuxSysFs.getJoules sparseFiles .cpu 3) c) ∧
    ¬CounterCpusLinuxMsr.Sound sparseCpus CPU_FAMILY_AMD (CounterCpusLinuxMsr.packageOnly 7)
      (CounterCpusLinuxMsr.packageOnly 9) ∧
    ¬CounterCpusLinuxSysFs.Sound sparseCpus sparseFiles sparseFiles 10 := by
  have hnodup : (ids sparseCpus).Nodup := by decide
  have hsparse : ¬Contiguous sparseCpus := by
    unfold Contiguous
    decide
  refine ⟨by decide, ⟨_, rfl⟩, ⟨_, rfl, by decide, ⟨_, rfl⟩⟩, ?_, ?_⟩
  · exact fun h => hsparse (h.contiguous hnodup)
  · exact fun h => hsparse (h.contiguous hnodup rfl)

end Mammut.Energy
