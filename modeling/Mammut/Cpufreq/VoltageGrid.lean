import Mammut.Cpufreq.Voltages
import Mammut.Kit.Grouping
import Mammut.Utils.Msr

/-! The keys of the table that `getVoltageTable` makes, and what its values are the means of.  A
voltage depends on the files, on the load and on the time, so here each sample is kept with the
state in which it was taken, and the sources of the voltages may depend on all of it. -/

namespace Mammut.Cpufreq

open Governor Kit Kit.Programs Mammut.Topology Utils

def MSR_PERF_STATUS : ℕ := 0x198

/-- What `getCurrentVoltage` finds on a machine that is no EPYC: the registers of `_msr`, when they
are available, and the sum of the sensor `VOLT250USP0V0`, when it exists. -/
structure VoltageSources where
  registers : Option Registers
  sensor : Option Float

namespace VoltageSources

/-- The voltage, when it can be read. -/
def voltage (s : VoltageSources) : Option Float :=
  match s.registers.map (Msr.readBits MSR_PERF_STATUS 47 32) with
  | some (true, r) => if r ≠ 0 then some (r.toFloat / Float.ofNat (1 <<< 13)) else s.sensor
  | _ => s.sensor

def getCurrentVoltage (s : VoltageSources) : Float := s.voltage.getD 0

end VoltageSources

/-- A sample of the voltage, if it could be read, and the files and the calls before it. -/
structure Sample where
  cells : Cells
  calls : Calls
  voltage : Option Float

/-- The calls on virtual cores and the samples so far. -/
structure Load where
  calls : Calls
  samples : List Sample

namespace Load

def call (vc : VirtualCoreId) (c : UtilizationCall) : Call Load Unit :=
  modify fun l => { l with calls := l.calls ++ [(vc, c)] }

/-- Virtual cores whose calls are recorded. -/
def cores (physical : VirtualCoreId → PhysicalCoreId) : VirtualCores Load where
  getPhysicalCoreId := physical
  maximizeUtilization vc := call vc .maximizeUtilization
  resetUtilization vc := call vc .resetUtilization

def getCurrentVoltage (sources : Cells → Load → VoltageSources) : Call (Cells × Load) Float :=
  modifyGet fun (c, l) =>
    let found := sources c l
    (found.getCurrentVoltage, c, { l with samples := l.samples ++ [⟨c, l.calls, found.voltage⟩] })

end Load

namespace DomainLinux

section Code

variable {σ τ : Type} (getCurrentVoltage : Call (σ × τ) Float) (sys : System σ)
  (cores : VirtualCores τ) (d : DomainLinux)

/-- `sampleVoltage`, for voltages that may depend on the load. -/
def sampleLoadedVoltage (numSamples : ℕ) (numVirtualCores : UInt32) (r : VoltageTable)
    (frequency : Frequency) : Call (σ × τ) VoltageTable := do
  let _ ← onFst (d.setFrequencyUserspace sys frequency)
  let voltageSum ← (List.range numSamples).foldlM
    (fun sum _ => do return sum + (← getCurrentVoltage)) (0 : Float)
  return r.insert ⟨numVirtualCores, frequency⟩ (voltageSum / Float.ofNat numSamples)

/-- `getVoltageTable`, for voltages that may depend on the load. -/
def getLoadedVoltageTable (numVirtualCores : UInt32) (onlyPhysicalCores : Bool) :
    Call (σ × τ) VoltageTable := do
  let numSamples := if d.epyc then 1 else 5
  let oldGovernor ← onFst (d.getCurrentGovernor sys)
  let oldFrequency ← onFst (d.getCurrentFrequencyUserspace sys)
  let oldBounds ← if d.epyc then pure none else onFst (d.getCurrentGovernorBounds sys)
  if !(← onFst (d.setGovernor sys GOVERNOR_USERSPACE)) then
    return OrdMap.empty
  let vcToMax := d.vcToMax cores onlyPhysicalCores
  let numVirtualCores := if numVirtualCores.toNat > vcToMax.length
    then UInt32.ofNat vcToMax.length else numVirtualCores
  (vcToMax.take numVirtualCores.toNat).forM fun vc => onSnd (cores.maximizeUtilization vc)
  let r ← d.availableFrequencies.foldlM
    (d.sampleLoadedVoltage getCurrentVoltage sys numSamples numVirtualCores) OrdMap.empty
  (vcToMax.take numVirtualCores.toNat).forM fun vc => onSnd (cores.resetUtilization vc)
  onFst (d.putBack sys oldGovernor oldFrequency (oldBounds.getD (sys.frequency, sys.frequency)))
  return r

/-- `getVoltageTable` for each number of virtual cores. -/
def getLoadedVoltageTables (onlyPhysicalCores : Bool) : Call (σ × τ) VoltageTable := do
  let numCores := (d.vcToMax cores onlyPhysicalCores).length
  (List.range (numCores + 1)).foldlM (fun r i => do
    let tmp ← d.getLoadedVoltageTable getCurrentVoltage sys cores (UInt32.ofNat i) onlyPhysicalCores
    return tmp.entries.foldl (fun r entry => r.insert entry.1 entry.2) r) OrdMap.empty

/-- Voltages that the files alone decide. -/
theorem getLoadedVoltageTable_onFst (numVirtualCores : UInt32) (onlyPhysicalCores : Bool) :
    d.getLoadedVoltageTable (do return Float.ofBits (← onFst (d.getCurrentVoltage sys))) sys cores
        numVirtualCores onlyPhysicalCores =
      d.getVoltageTable sys cores numVirtualCores onlyPhysicalCores := by
  have hsample (numSamples : ℕ) (n : UInt32) :
      (fun r frequency => (onFst (d.sampleVoltage sys numSamples n r frequency) :
        Call (σ × τ) VoltageTable)) =
      d.sampleLoadedVoltage (do return Float.ofBits (← onFst (d.getCurrentVoltage sys))) sys
        numSamples n := by
    funext r frequency
    simp only [sampleVoltage, sampleLoadedVoltage, onFst_bind, onFst_foldlM, onFst_pure, bind_assoc,
      pure_bind]
  simp only [getLoadedVoltageTable, getVoltageTable, onFst_foldlM, hsample]

theorem getLoadedVoltageTables_onFst (onlyPhysicalCores : Bool) :
    d.getLoadedVoltageTables (do return Float.ofBits (← onFst (d.getCurrentVoltage sys))) sys cores
      onlyPhysicalCores = d.getVoltageTables sys cores onlyPhysicalCores := by
  simp only [getLoadedVoltageTables, getVoltageTables, getLoadedVoltageTable_onFst]

end Code

end DomainLinux

/-- The last call on a virtual core has maximized its utilization. -/
def Calls.Maximized (calls : Calls) (vc : VirtualCoreId) : Prop :=
  (calls.on vc).getLast? = some .maximizeUtilization

/-- The mean, in which a sample that could not be read counts as 0. -/
def mean (samples : List Sample) : Float :=
  samples.foldl (fun sum s => sum + s.voltage.getD 0) 0 / Float.ofNat samples.length

/-- The sample is one of the voltage, taken while the virtual cores `vcs` and no other ones were
maximized and the frequency of the userspace governor was `frequency`. -/
structure Sample.At (sources : Cells → Load → VoltageSources) (d : DomainLinux)
    (vcs : List VirtualCoreId) (frequency : Frequency) (s : Sample) : Prop where
  shown : ∃ l : Load, l.calls = s.calls ∧ s.voltage = (sources s.cells l).voltage
  maximized : ∀ vc, s.calls.Maximized vc ↔ vc ∈ vcs
  governor : d.governorName s.cells = "userspace"
  frequency : d.frequencyIn "scaling_setspeed" s.cells = frequency

/-- The entries of a table are means of five samples in a row, taken at their keys. -/
def Sampled (sources : Cells → Load → VoltageSources) (d : DomainLinux)
    (chosen : List VirtualCoreId) (samples : List Sample) (table : VoltageTable) : Prop :=
  ∀ e ∈ table.entries, ∃ taken, taken <:+: samples ∧ taken.length = 5 ∧ e.2 = mean taken ∧
    ∀ s ∈ taken, s.At sources d (chosen.take e.1.first.toNat) e.1.second

theorem Sampled.empty {sources : Cells → Load → VoltageSources} {d : DomainLinux}
    {chosen : List VirtualCoreId} {samples : List Sample} :
    Sampled sources d chosen samples OrdMap.empty :=
  fun _ he => absurd he List.not_mem_nil

theorem Sampled.mono {sources : Cells → Load → VoltageSources} {d : DomainLinux}
    {chosen : List VirtualCoreId} {samples more : List Sample} {table : VoltageTable}
    (h : Sampled sources d chosen samples table) (hmore : samples <+: more) :
    Sampled sources d chosen more table := fun e he =>
  have ⟨taken, hinfix, hrest⟩ := h e he
  ⟨taken, hinfix.trans hmore.isInfix, hrest⟩

theorem maximized_iff {calls : Calls} (h : calls.EndReset) {vcs : List VirtualCoreId}
    {vc : VirtualCoreId} :
    Calls.Maximized (calls ++ vcs.map (·, .maximizeUtilization)) vc ↔ vc ∈ vcs := by
  rw [Calls.Maximized, Calls.on_append, Calls.on_map, List.getLast?_append]
  cases hvcs : vcs.filter (· = vc) with
  | nil =>
    have hnot : vc ∉ vcs := fun hmem =>
      List.filter_eq_nil_iff.mp hvcs vc hmem (by simp)
    refine iff_of_false (fun hlast => ?_) hnot
    exact absurd (h vc .maximizeUtilization (by simpa using hlast)) nofun
  | cons v rest =>
    have hmem : v ∈ vcs.filter (· = vc) := hvcs ▸ List.mem_cons_self
    have hv : v ∈ vcs ∧ v = vc := by simpa using hmem
    refine iff_of_true ?_ (hv.2 ▸ hv.1)
    rw [List.getLast?_map, List.getLast?_cons]
    rfl

theorem forM_call (vcs : List VirtualCoreId) (uc : UtilizationCall) (c : Cells) (l : Load) :
    (vcs.forM fun vc => onSnd (Load.call vc uc) : Call (Cells × Load) Unit).run (c, l) =
      .ok () (c, { l with calls := l.calls ++ vcs.map (·, uc) }) := by
  induction vcs generalizing l with
  | nil => simp
  | cons vc rest ih =>
    have hcall : (onSnd (Load.call vc uc) : Call (Cells × Load) Unit).run (c, l) =
        .ok () (c, { l with calls := l.calls ++ [(vc, uc)] }) := rfl
    rw [run_forM_cons (f := fun vc => onSnd (Load.call vc uc)) hcall, ih]
    simp

section Loops

variable (sources : Cells → Load → VoltageSources)

/-- The samples that a loop takes, without a change of the files or of the load. -/
theorem samples_taken {ι : Type} (l : List ι) (sum : Float) (c : Cells) (load : Load) :
    ∃ taken : List Sample, taken.length = l.length ∧
      (∀ s ∈ taken, s.cells = c ∧ s.calls = load.calls ∧
        ∃ l : Load, l.calls = load.calls ∧ s.voltage = (sources c l).voltage) ∧
      (l.foldlM (fun sum _ => do return sum + (← Load.getCurrentVoltage sources)) sum).run
        (c, load) = .ok (taken.foldl (fun sum s => sum + s.voltage.getD 0) sum)
          (c, { load with samples := load.samples ++ taken }) := by
  induction l generalizing sum load with
  | nil => exact ⟨[], rfl, by simp, by simp⟩
  | cons i l ih =>
    let s : Sample := ⟨c, load.calls, (sources c load).voltage⟩
    obtain ⟨taken, hlength, htaken, hrun⟩ :=
      ih (sum + s.voltage.getD 0) { load with samples := load.samples ++ [s] }
    refine ⟨s :: taken, by simp [hlength], ?_, ?_⟩
    · exact List.forall_mem_cons.mpr ⟨⟨rfl, rfl, load, rfl, rfl⟩, htaken⟩
    · have hstep : (do return sum + (← Load.getCurrentVoltage sources) :
          Call (Cells × Load) Float).run (c, load) = .ok (sum + s.voltage.getD 0)
            (c, { load with samples := load.samples ++ [s] }) := rfl
      rw [run_foldlM_cons hstep, hrun, List.append_assoc]
      rfl

end Loops

namespace DomainLinux

open Cells

variable {sources : Cells → Load → VoltageSources} {g : Governor} {f : Frequency}
  {physical : VirtualCoreId → PhysicalCoreId} {d : DomainLinux} {n : UInt32}
  {onlyPhysicalCores : Bool} {chosen : List VirtualCoreId} {calls : Calls} {samples : List Sample}
  {done : List Frequency} {r : VoltageTable}

/-- What holds in the loop over the frequencies when those of `done` have been sampled. -/
structure Row (sources : Cells → Load → VoltageSources) (d : DomainLinux)
    (chosen : List VirtualCoreId) (n : UInt32) (calls : Calls) (samples : List Sample)
    (done : List Frequency) (r : VoltageTable) (s : Cells × Load) : Prop where
  userspace : s.1 ⟨d.first, "scaling_governor"⟩ = "userspace"
  calls : s.2.calls = calls
  samples : samples <+: s.2.samples
  keys : ∀ k, k ∈ r.keys ↔ k.first = n ∧ k.second ∈ done
  sampled : Sampled sources d chosen s.2.samples r

theorem sampleLoadedVoltage_row (hfiles : d.OnFiles)
    (hcalls : ∀ vc, calls.Maximized vc ↔ vc ∈ chosen.take n.toNat) {frequency : Frequency}
    (hfrequency : frequency ∈ d.availableFrequencies) :
    Triple (Row sources d chosen n calls samples done r)
      (d.sampleLoadedVoltage (Load.getCurrentVoltage sources) (system g f) 5 n r frequency)
      (Row sources d chosen n calls samples (done ++ [frequency])) Never := by
  rintro ⟨c, load⟩ h
  have hbefore : c ⟨d.first, "scaling_governor"⟩ = "userspace" := h.userspace
  have huserspace : governorIn g d c = GOVERNOR_USERSPACE := by
    rw [governorIn, hbefore]
    rfl
  have hset := setFrequencyUserspace_run (g := g) (f := f) (c := c) hfiles frequency
  rw [if_pos ⟨huserspace, hfrequency⟩] at hset
  generalize hc' : c.writeAll d.paths "scaling_setspeed" (frequencyToString frequency) = c' at hset
  have hgovernor : c' ⟨d.first, "scaling_governor"⟩ = "userspace" := by
    rw [← hc', writeAll_of_name (by simp)]
    exact hbefore
  have hspeed : d.frequencyIn "scaling_setspeed" c' = frequency := by
    rw [frequencyIn, ← hc', writeAll_of_mem hfiles.first_mem, stringToFrequency_frequencyToString]
  obtain ⟨taken, hlength, htaken, hloop⟩ := samples_taken sources (List.range 5) 0 c' load
  have hrun : (d.sampleLoadedVoltage (Load.getCurrentVoltage sources) (system g f) 5 n r
      frequency).run (c, load) = .ok (r.insert ⟨n, frequency⟩ (mean taken))
        (c', { load with samples := load.samples ++ taken }) := by
    rw [mean, hlength]
    simp only [sampleLoadedVoltage, EStateM.run_bind, run_onFst, hset, hloop, EStateM.run_pure,
      List.length_range]
  rw [hrun]
  refine ⟨hgovernor, h.calls, h.samples.trans (List.prefix_append _ _), fun k => ?_, ?_⟩
  · obtain ⟨vcs, frequency'⟩ := k
    rw [OrdMap.mem_keys_insert, h.keys, List.mem_append, List.mem_singleton,
      VoltageTableKey.mk.injEq, ← and_or_left]
    exact and_congr_right fun _ => or_comm
  · intro e he
    rcases OrdMap.mem_insert he with rfl | hold
    · refine ⟨taken, (List.suffix_append _ _).isInfix, hlength, rfl, fun s hs => ?_⟩
      obtain ⟨hcells, hload, l, hl, hvoltage⟩ := htaken s hs
      refine ⟨⟨l, hl.trans hload.symm, hcells ▸ hvoltage⟩, fun vc => ?_, ?_, ?_⟩
      · rw [hload, h.calls]
        exact hcalls vc
      · rw [hcells, governorName, hgovernor]
        rfl
      · rw [hcells]
        exact hspeed
    · exact h.sampled.mono (List.prefix_append _ _) e hold

theorem putBack_returns (hfiles : d.OnFiles) (oldGovernor : Governor) (oldFrequency : Frequency)
    (oldBounds : Frequency × Frequency) (c : Cells) :
    ∃ t, (d.putBack (system g f) oldGovernor oldFrequency oldBounds).run c = .ok () t := by
  obtain ⟨b, c₁, hset, -⟩ := setGovernor_leaves (g := g) (f := f) hfiles oldGovernor c
  simp only [putBack, hfiles.not_epyc, EStateM.run_bind, hset]
  by_cases hold : oldGovernor = GOVERNOR_USERSPACE
  · rw [if_pos hold, EStateM.run_bind, setFrequencyUserspace_run hfiles]
    split_ifs <;> exact ⟨_, rfl⟩
  · rw [if_neg hold]
    simp only [Bool.not_false, if_true, EStateM.run_bind, setGovernorBounds_run hfiles]
    split_ifs <;> exact ⟨_, rfl⟩

/-- What holds between the calls for the numbers of virtual cores, when the table has entries for
those that `p` holds of. -/
structure Rows (sources : Cells → Load → VoltageSources) (d : DomainLinux)
    (chosen : List VirtualCoreId) (samples : List Sample) (p : UInt32 → Prop) (r : VoltageTable)
    (s : Cells × Load) : Prop where
  calls : s.2.calls.EndReset
  samples : samples <+: s.2.samples
  keys : ∀ k, k ∈ r.keys ↔ p k.first ∧ k.second ∈ d.availableFrequencies
  sampled : Sampled sources d chosen s.2.samples r

theorem getLoadedVoltageTable_rows (sources : Cells → Load → VoltageSources) (hfiles : d.OnFiles)
    (huser : GOVERNOR_USERSPACE ∈ d.availableGovernors)
    (hn : n.toNat ≤ (d.vcToMax (Load.cores physical) onlyPhysicalCores).length) :
    Triple (fun s => s.2.calls.EndReset ∧ samples <+: s.2.samples)
      (d.getLoadedVoltageTable (Load.getCurrentVoltage sources) (system g f) (Load.cores physical) n
        onlyPhysicalCores)
      (Rows sources d (d.vcToMax (Load.cores physical) onlyPhysicalCores) samples (· = n))
      Never := by
  rintro ⟨c, load⟩ ⟨hreset, hsamples⟩
  generalize hchosen : d.vcToMax (Load.cores physical) onlyPhysicalCores = chosen at hn ⊢
  have hnum : (if n.toNat > chosen.length then UInt32.ofNat chosen.length else n) = n :=
    if_neg (by omega)
  generalize hc₁ : c.writeAll d.paths "scaling_governor"
    (enumStrings[GOVERNOR_USERSPACE.toUInt32.toNat]?.getD "") = c₁
  have hfile : c₁ ⟨d.first, "scaling_governor"⟩ = "userspace" := by
    rw [← hc₁, writeAll_of_mem hfiles.first_mem]
    rfl
  generalize hcalls₁ : load.calls ++ (chosen.take n.toNat).map (·, .maximizeUtilization) = calls₁
  have hmaximized : ∀ vc, calls₁.Maximized vc ↔ vc ∈ chosen.take n.toNat := fun vc =>
    hcalls₁ ▸ maximized_iff hreset
  have hloop : Triple (Row sources d chosen n calls₁ samples [] OrdMap.empty)
      (d.availableFrequencies.foldlM
        (d.sampleLoadedVoltage (Load.getCurrentVoltage sources) (system g f) 5 n) OrdMap.empty)
      (Row sources d chosen n calls₁ samples d.availableFrequencies) Never := by
    refine triple_foldlM _ fun done frequency rest r hl => ?_
    exact sampleLoadedVoltage_row hfiles hmaximized (by simp [hl])
  have hstart : Row sources d chosen n calls₁ samples [] OrdMap.empty
      (c₁, ⟨calls₁, load.samples⟩) :=
    ⟨hfile, rfl, hsamples, by simp, .empty⟩
  obtain ⟨r, ⟨c₂, load₂⟩, hsample, hrow⟩ := hloop.returns hstart
  obtain ⟨c₃, hback⟩ := putBack_returns (g := g) (f := f) hfiles (governorIn g d c)
    (if governorIn g d c = GOVERNOR_USERSPACE then frequencyIn "scaling_setspeed" d c else 0)
    (frequencyIn "scaling_min_freq" d c, frequencyIn "scaling_max_freq" d c) c₂
  have hrun : (d.getLoadedVoltageTable (Load.getCurrentVoltage sources) (system g f)
      (Load.cores physical) n onlyPhysicalCores).run (c, load) = .ok r (c₃, { load₂ with
        calls := load₂.calls ++ (chosen.take n.toNat).map (·, .resetUtilization) }) := by
    rw [getLoadedVoltageTable, hchosen]
    simp only [hfiles.not_epyc, Bool.false_eq_true, if_false, EStateM.run_bind, run_onFst,
      getCurrentGovernor_run hfiles, getCurrentFrequencyUserspace_run hfiles,
      getCurrentGovernorBounds_run hfiles, setGovernor_run hfiles, if_pos huser, hnum, hc₁]
    rw [if_neg (by simp)]
    simp only [Load.cores, EStateM.run_bind, forM_call, hcalls₁, hsample, run_onFst,
      Option.getD_some, hback, EStateM.run_pure]
  rw [hrun]
  refine ⟨?_, hrow.samples, hrow.keys, hrow.sampled⟩
  have hcalls : load₂.calls = calls₁ := hrow.calls
  show Calls.EndReset (load₂.calls ++ _)
  rw [hcalls, ← hcalls₁, List.append_assoc]
  exact hreset.append (Calls.endReset_of_reset _)

/-- The table of one more number of virtual cores is inserted. -/
theorem Rows.insert {p : UInt32 → Prop} {tmp : VoltageTable} {s t : Cells × Load}
    (h : Rows sources d chosen [] p r s) (htmp : Rows sources d chosen s.2.samples (· = n) tmp t) :
    Rows sources d chosen [] (fun m => p m ∨ m = n)
      (tmp.entries.foldl (fun r entry => r.insert entry.1 entry.2) r) t := by
  refine ⟨htmp.calls, List.nil_prefix, fun k => ?_, fun e he => ?_⟩
  · rw [OrdMap.mem_keys_foldl_insert, h.keys, or_and_right]
    exact or_congr_right (htmp.keys k)
  · rcases OrdMap.mem_foldl_insert he with hold | hnew
    · exact h.sampled.mono htmp.samples e hold
    · exact htmp.sampled e hnew

/-- The tables for the numbers of virtual cores, one after the other. -/
theorem getLoadedVoltageTables_rows (hfiles : d.OnFiles)
    (huser : GOVERNOR_USERSPACE ∈ d.availableGovernors) :
    Triple (fun s => s.2.calls.EndReset)
      (d.getLoadedVoltageTables (Load.getCurrentVoltage sources) (system g f) (Load.cores physical)
        onlyPhysicalCores)
      (Rows sources d (d.vcToMax (Load.cores physical) onlyPhysicalCores) []
        fun n => n.toNat ≤ (d.vcToMax (Load.cores physical) onlyPhysicalCores).length) Never := by
  generalize hchosen : d.vcToMax (Load.cores physical) onlyPhysicalCores = chosen
  have hloop : Triple (Rows sources d chosen [] (fun n => ∃ i ∈ ([] : List ℕ), n = UInt32.ofNat i)
      OrdMap.empty)
      (d.getLoadedVoltageTables (Load.getCurrentVoltage sources) (system g f) (Load.cores physical)
        onlyPhysicalCores)
      (Rows sources d chosen [] fun n => ∃ i ∈ List.range (chosen.length + 1), n = UInt32.ofNat i)
      Never := by
    rw [getLoadedVoltageTables, hchosen]
    refine triple_foldlM
      (fun done => Rows sources d chosen [] fun n => ∃ i ∈ done, n = UInt32.ofNat i)
      fun done i rest r hl s hs => ?_
    have hi : i < chosen.length + 1 := List.mem_range.mp (by simp [hl])
    have hn : (UInt32.ofNat i).toNat ≤
        (d.vcToMax (Load.cores physical) onlyPhysicalCores).length := by
      rw [hchosen]
      exact le_trans (Nat.mod_le _ _) (Nat.le_of_lt_succ hi)
    obtain ⟨tmp, t, hrun, htmp⟩ := (getLoadedVoltageTable_rows sources (g := g) (f := f) hfiles
      huser hn).returns ⟨hs.calls, List.prefix_refl s.2.samples⟩
    rw [EStateM.run_bind, hrun]
    rw [hchosen] at htmp
    simpa [or_comm] using hs.insert htmp
  refine hloop.conseq (fun s hs => ?_) (fun r s h => ?_) fun _ _ h => h
  · exact ⟨hs, List.nil_prefix, by simp, .empty⟩
  · refine ⟨h.calls, h.samples, fun k => (h.keys k).trans (and_congr_left fun _ => ?_), h.sampled⟩
    constructor
    · rintro ⟨i, hi, hk⟩
      rw [hk]
      exact le_trans (Nat.mod_le _ _) (Nat.le_of_lt_succ (List.mem_range.mp hi))
    · intro hk
      exact ⟨k.first.toNat, List.mem_range.mpr (by omega), by simp⟩

/-- The number of distinct physical cores of the domain, or of virtual cores. -/
def numCores (physical : VirtualCoreId → PhysicalCoreId) (d : DomainLinux)
    (onlyPhysicalCores : Bool) : ℕ :=
  if onlyPhysicalCores then (d.virtualCores.map physical).toFinset.card else d.virtualCores.length

theorem length_vcToMax : (d.vcToMax (Load.cores physical) onlyPhysicalCores).length =
    d.numCores physical onlyPhysicalCores := by
  cases onlyPhysicalCores with
  | false => rfl
  | true =>
    show (Grouping.firsts physical d.virtualCores).length =
      (d.virtualCores.map physical).toFinset.card
    rw [← Grouping.length_distinct, ← Grouping.map_firsts, List.length_map]

/-- A table over the whole grid of numbers of cores and frequencies. -/
structure Grid (sources : Cells → Load → VoltageSources)
    (physical : VirtualCoreId → PhysicalCoreId) (d : DomainLinux) (onlyPhysicalCores : Bool)
    (samples : List Sample) (table : VoltageTable) : Prop where
  keys : ∀ k, k ∈ table.keys ↔
    k.first.toNat ≤ d.numCores physical onlyPhysicalCores ∧ k.second ∈ d.availableFrequencies
  entries : ∀ k v, table.find? k = some v → ∃ vcs taken,
    vcs.Sublist (d.vcToMax (Load.cores physical) onlyPhysicalCores) ∧
    vcs.length = k.first.toNat ∧ taken <:+: samples ∧ taken.length = 5 ∧ v = mean taken ∧
    ∀ s ∈ taken, s.At sources d vcs k.second

/-- What is said of the table, where voltages can be read and where they cannot. -/
structure AsDocumented (sources : Cells → Load → VoltageSources)
    (physical : VirtualCoreId → PhysicalCoreId) (d : DomainLinux) (onlyPhysicalCores : Bool)
    (samples : List Sample) (table : VoltageTable) : Prop where
  readable : (∀ c l, (sources c l).voltage ≠ none) →
    Grid sources physical d onlyPhysicalCores samples table
  unreadable : (∀ c l, (sources c l).voltage = none) → table = OrdMap.empty

theorem Rows.grid {s : Cells × Load}
    (h : Rows sources d (d.vcToMax (Load.cores physical) onlyPhysicalCores) []
      (fun n => n.toNat ≤ (d.vcToMax (Load.cores physical) onlyPhysicalCores).length) r s) :
    Grid sources physical d onlyPhysicalCores s.2.samples r := by
  refine ⟨fun k => ?_, fun k v hv => ?_⟩
  · rw [← length_vcToMax]
    exact h.keys k
  · have hentry : (k, v) ∈ r.entries := OrdMap.find?_some_iff.mp hv
    have hkey := ((h.keys k).mp (OrdMap.mem_keys_iff.mpr ⟨v, hentry⟩)).1
    obtain ⟨taken, hinfix, hlength, hmean, hat⟩ := h.sampled _ hentry
    exact ⟨_, taken, List.take_sublist _ _, List.length_take_of_le hkey, hinfix, hlength, hmean,
      hat⟩

/-- The frequencies of a domain whose table is empty. -/
theorem Grid.eq_empty_iff (h : Grid sources physical d onlyPhysicalCores samples r) :
    r = OrdMap.empty ↔ d.availableFrequencies = [] := by
  constructor
  · rintro rfl
    refine List.eq_nil_iff_forall_not_mem.mpr fun frequency hfrequency => ?_
    exact List.not_mem_nil ((h.keys ⟨0, frequency⟩).mpr ⟨Nat.zero_le _, hfrequency⟩)
  · intro hnone
    have hkeys : r.keys = [] := List.eq_nil_iff_forall_not_mem.mpr fun k hk => by
      have hmem := ((h.keys k).mp hk).2
      rw [hnone] at hmem
      exact List.not_mem_nil hmem
    exact OrdMap.ext_entries (List.map_eq_nil_iff.mp hkeys)

end DomainLinux

end Mammut.Cpufreq
