import Mathlib.Data.Prod.Lex
import Mammut.Cpufreq.Cells
import Mammut.Kit.OrdMap
import Mammut.Topology.Build
import Mammut.Topology.Utilization

/-! `getVoltageTable`, from `cpufreq-linux.cpp`: it sets each frequency of a domain under load,
reads the voltages, and puts the domain back.  The domain is what it was exactly when its governor
is an available one that the enumeration names: what was read of any other one cannot be set. -/

namespace Mammut.Cpufreq

open Governor Kit Kit.Programs Kit.Runs Utils

/-- The virtual cores that the domains are about. -/
structure VirtualCores (τ : Type) where
  getPhysicalCoreId : VirtualCoreId → Topology.PhysicalCoreId
  maximizeUtilization : VirtualCoreId → Call τ Unit
  resetUtilization : VirtualCoreId → Call τ Unit

/-- A `pair`. -/
structure VoltageTableKey where
  first : VirtualCoreId
  second : Frequency
  deriving DecidableEq, Repr

theorem VoltageTableKey.toLex_injective :
    Function.Injective fun k : VoltageTableKey => toLex (k.first.toNat, k.second.toNat) := by
  rintro ⟨v, f⟩ ⟨v', f'⟩ heq
  obtain ⟨hfirst, hsecond⟩ := Prod.mk.inj (toLex.injective heq)
  exact congrArg₂ mk (UInt32.toNat_inj.mp hfirst) (UInt32.toNat_inj.mp hsecond)

instance : LinearOrder VoltageTableKey := LinearOrder.lift' _ VoltageTableKey.toLex_injective

abbrev VoltageTable := OrdMap VoltageTableKey Float

variable {σ τ : Type}

/-- `getOneVirtualPerPhysical`, from `topology.cpp`. -/
def VirtualCores.getOneVirtualPerPhysical (cores : VirtualCores τ)
    (virtualCores : List VirtualCoreId) : List VirtualCoreId :=
  virtualCores.foldl (fun r vc =>
    if r.any fun v => cores.getPhysicalCoreId v = cores.getPhysicalCoreId vc then r
    else r ++ [vc]) []

namespace DomainLinux

section Code

variable (sys : System σ) (cores : VirtualCores τ) (d : DomainLinux)

def vcToMax (onlyPhysicalCores : Bool) : List VirtualCoreId :=
  if onlyPhysicalCores then cores.getOneVirtualPerPhysical d.virtualCores else d.virtualCores

/-- The loop body over the frequencies.  It sleeps before each sample. -/
def sampleVoltage (numSamples : ℕ) (numVirtualCores : UInt32) (r : VoltageTable)
    (frequency : Frequency) : Call σ VoltageTable := do
  let _ ← d.setFrequencyUserspace sys frequency
  let voltageSum ← (List.range numSamples).foldlM
    (fun sum _ => do return sum + Float.ofBits (← d.getCurrentVoltage sys)) (0 : Float)
  return r.insert ⟨numVirtualCores, frequency⟩ (voltageSum / Float.ofNat numSamples)

/-- The end of `getVoltageTable`, which ignores what the setters return. -/
def putBack (oldGovernor : Governor) (oldFrequency : Frequency)
    (oldBounds : Frequency × Frequency) : Call σ Unit := do
  let _ ← d.setGovernor sys oldGovernor
  if oldGovernor = GOVERNOR_USERSPACE then
    let _ ← d.setFrequencyUserspace sys oldFrequency
  else if !d.epyc then
    let _ ← d.setGovernorBounds sys oldBounds.1 oldBounds.2

/-- `getVoltageTable` for a number of virtual cores, which it bounds by those that there are. -/
def getVoltageTable (numVirtualCores : UInt32) (onlyPhysicalCores : Bool) :
    Call (σ × τ) VoltageTable := do
  let numSamples := if d.epyc then 1 else 5
  let oldGovernor ← onFst (d.getCurrentGovernor sys)
  let oldFrequency ← onFst (d.getCurrentFrequencyUserspace sys)
  let oldBounds ← if d.epyc then pure none else onFst (d.getCurrentGovernorBounds sys)
  if !(← onFst (d.setGovernor sys GOVERNOR_USERSPACE)) then
    return OrdMap.empty
  let vcToMax := d.vcToMax cores onlyPhysicalCores
  let numVirtualCores := if numVirtualCores.toNat > vcToMax.length
    then UInt32.ofNat vcToMax.length else numVirtualCores
  (vcToMax.take numVirtualCores.toNat).forM fun vc => onSnd (cores.maximizeUtilization vc)
  let r ← onFst (d.availableFrequencies.foldlM
    (d.sampleVoltage sys numSamples numVirtualCores) OrdMap.empty)
  (vcToMax.take numVirtualCores.toNat).forM fun vc => onSnd (cores.resetUtilization vc)
  onFst (d.putBack sys oldGovernor oldFrequency (oldBounds.getD (sys.frequency, sys.frequency)))
  return r

/-- `getVoltageTable` for each number of virtual cores. -/
def getVoltageTables (onlyPhysicalCores : Bool) : Call (σ × τ) VoltageTable := do
  let numCores := (d.vcToMax cores onlyPhysicalCores).length
  (List.range (numCores + 1)).foldlM (fun r i => do
    let tmp ← d.getVoltageTable sys cores (UInt32.ofNat i) onlyPhysicalCores
    return tmp.entries.foldl (fun r entry => r.insert entry.1 entry.2) r) OrdMap.empty

section Voltage

/-! The calls but that for the voltage do not read it. -/

variable (voltage : VirtualCoreId → Bool → Call σ UInt64)

theorem getCurrentGovernor_voltage :
    d.getCurrentGovernor { sys with voltage } = d.getCurrentGovernor sys := rfl

theorem getCurrentFrequencyUserspace_voltage :
    d.getCurrentFrequencyUserspace { sys with voltage } = d.getCurrentFrequencyUserspace sys := rfl

theorem getCurrentGovernorBounds_voltage :
    d.getCurrentGovernorBounds { sys with voltage } = d.getCurrentGovernorBounds sys := rfl

theorem setGovernor_voltage (governor : Governor) :
    d.setGovernor { sys with voltage } governor = d.setGovernor sys governor := rfl

theorem setFrequencyUserspace_voltage (frequency : Frequency) :
    d.setFrequencyUserspace { sys with voltage } frequency =
      d.setFrequencyUserspace sys frequency := rfl

theorem putBack_voltage (oldGovernor : Governor) (oldFrequency : Frequency)
    (oldBounds : Frequency × Frequency) :
    d.putBack { sys with voltage } oldGovernor oldFrequency oldBounds =
      d.putBack sys oldGovernor oldFrequency oldBounds := rfl

end Voltage

end Code

end DomainLinux

/-- The files of `system`, with sensors that show a voltage or throw. -/
def Cells.sensed (g : Governor) (f : Frequency)
    (voltage : VirtualCoreId → Cells → Except Exn UInt64) : System Cells :=
  { Cells.system g f with
    voltage := fun vc _ => do
      match voltage vc (← get) with
      | .ok v => return v
      | .error e => throw e }

/-- The calls on virtual cores. -/
abbrev Calls := List (VirtualCoreId × Topology.UtilizationCall)

/-- Virtual cores whose calls are recorded, in their order. -/
def VirtualCores.recorded (physical : VirtualCoreId → Topology.PhysicalCoreId) :
    VirtualCores Calls where
  getPhysicalCoreId := physical
  maximizeUtilization vc := modify (· ++ [(vc, .maximizeUtilization)])
  resetUtilization vc := modify (· ++ [(vc, .resetUtilization)])

namespace Calls

open Mammut.Topology Spinner

/-- The calls on a virtual core. -/
def on (calls : Calls) (vc : VirtualCoreId) : List UtilizationCall :=
  (calls.filter (·.1 = vc)).map Prod.snd

/-- The calls leave no spinner running that was not running before, when no wait of `start` ends
before the thread that it has created has set `_running`. -/
def LeaveNone (calls : Calls) : Prop :=
  ∀ (vc : VirtualCoreId) (returns : Bool → Bool) (before during : List Label) (s t : Spinner),
    Run (Guarded Prompt (Spinner.Step returns)) new before s → s.caller = .idle →
    Run (Guarded Prompt (Spinner.Step returns)) s during t → callsOf during = calls.on vc →
    t.caller = .idle → LeavesNone s t

theorem on_append (calls more : Calls) (vc : VirtualCoreId) :
    on (calls ++ more) vc = calls.on vc ++ more.on vc := by simp [on]

theorem on_map (vcs : List VirtualCoreId) (call : UtilizationCall) (vc : VirtualCoreId) :
    on (vcs.map (·, call)) vc = (vcs.filter (· = vc)).map fun _ => call := by
  simp only [on, List.filter_map, List.map_map]
  rfl

/-- The last call on each virtual core is `resetUtilization`. -/
def EndReset (calls : Calls) : Prop :=
  ∀ (vc : VirtualCoreId) (call : UtilizationCall), call ∈ (calls.on vc).getLast? →
    call = .resetUtilization

theorem EndReset.append {calls more : Calls} (h : calls.EndReset) (hmore : more.EndReset) :
    EndReset (calls ++ more) := by
  intro vc call hlast
  rw [on_append, List.getLast?_append, Option.mem_def, Option.or_eq_some_iff] at hlast
  rcases hlast with hlast | ⟨-, hlast⟩
  · exact hmore vc call hlast
  · exact h vc call hlast

theorem endReset_of_reset (vcs : List VirtualCoreId) :
    EndReset (vcs.map (·, .maximizeUtilization) ++ vcs.map (·, .resetUtilization)) := by
  intro vc call hlast
  rw [on_append, on_map, on_map] at hlast
  cases hvcs : vcs.filter (· = vc) with
  | nil => simp [hvcs] at hlast
  | cons v rest =>
    rw [hvcs, List.getLast?_append_of_ne_nil _ (by simp)] at hlast
    obtain ⟨_, -, hcall⟩ := List.mem_map.mp (List.mem_of_getLast? hlast)
    exact hcall.symm

theorem EndReset.leaveNone {calls : Calls} (h : calls.EndReset) : calls.LeaveNone := by
  intro vc returns before during s t hbefore hidle hduring hcalls hback
  have hinv : Inv s := hbefore.invariant Inv inv_new fun _ _ _ h hstep => h.step hstep.1 hstep.2
  exact hinv.leavesNone hidle hduring (hcalls ▸ h vc) hback

end Calls

namespace DomainLinux

open Cells

variable {g : Governor} {f : Frequency} {voltage : VirtualCoreId → Cells → Except Exn UInt64}
  {physical : VirtualCoreId → Topology.PhysicalCoreId} {d : DomainLinux} {c c' : Cells}
  {done calls : Calls} {n : UInt32} {onlyPhysicalCores : Bool}
  {r : VoltageTable}

theorem forM_recorded (vcs : List VirtualCoreId) (call : Topology.UtilizationCall) (s : σ)
    (calls : Calls) :
    (vcs.forM fun vc => onSnd (modify (· ++ [(vc, call)])) : Call (σ × Calls) Unit).run (s, calls) =
      .ok () (s, calls ++ vcs.map (·, call)) := by
  induction vcs generalizing calls with
  | nil => simp
  | cons vc rest ih =>
    have hcall : (onSnd (modify (· ++ [(vc, call)])) : Call (σ × Calls) Unit).run (s, calls) =
        .ok () (s, calls ++ [(vc, call)]) := rfl
    rw [run_forM_cons (f := fun vc => onSnd (modify (· ++ [(vc, call)]))) hcall, ih]
    simp

/-- The frequency is the only file that `setFrequencyUserspace` changes. -/
theorem setFrequencyUserspace_keeps (hfiles : d.OnFiles) (frequency : Frequency) {file : File}
    {content : String} (hname : file.name ≠ "scaling_setspeed") :
    Keeps (fun t : Cells => t file = content) (d.setFrequencyUserspace (system g f) frequency) := by
  intro t ht
  have hrun := setFrequencyUserspace_run (g := g) (f := f) (c := t) hfiles frequency
  by_cases haccepts : governorIn g d t = GOVERNOR_USERSPACE ∧ frequency ∈ d.availableFrequencies
  · rw [if_pos haccepts] at hrun
    rw [hrun]
    have hother : writeAll d.paths "scaling_setspeed" (frequencyToString frequency) t file =
      t file := writeAll_of_name hname
    exact hother.trans ht
  · rw [if_neg haccepts] at hrun
    rw [hrun]
    exact ht

theorem sampleVoltage_keeps (hfiles : d.OnFiles) (numSamples : ℕ) (r : VoltageTable)
    (frequency : Frequency) {file : File} {content : String}
    (hname : file.name ≠ "scaling_setspeed") :
    Keeps (fun t : Cells => t file = content)
      (d.sampleVoltage (sensed g f voltage) numSamples n r frequency) := by
  refine keeps_bind ?_ fun _ => keeps_bind ?_ fun _ => keeps_pure
  · rw [sensed, setFrequencyUserspace_voltage]
    exact setFrequencyUserspace_keeps hfiles frequency hname
  · refine triple_foldlM_invariant fun sum _ _ => keeps_bind (fun t ht => ?_) fun _ => keeps_pure
    cases hv : voltage d.msr t <;> simpa [getCurrentVoltage, sensed, hv] using ht

/-- The governor that the files of a domain show, in the enumeration or not. -/
def governorName (d : DomainLinux) (c : Cells) : String :=
  firstWord (firstLine (c ⟨d.first, "scaling_governor"⟩))

/-- The governor of the domain is available, and the enumeration has its name. -/
def Named (d : DomainLinux) (c : Cells) : Prop :=
  ∃ governor ∈ d.availableGovernors,
    enumStrings[governor.toUInt32.toNat]? = some (d.governorName c)

/-- `c'` shows of the domain what `c` shows. -/
structure Restored (d : DomainLinux) (c c' : Cells) : Prop where
  governor : d.governorName c' = d.governorName c
  frequency : d.governorName c = "userspace" →
    frequencyIn "scaling_setspeed" d c' = frequencyIn "scaling_setspeed" d c
  lowerBound : frequencyIn "scaling_min_freq" d c' = frequencyIn "scaling_min_freq" d c
  upperBound : frequencyIn "scaling_max_freq" d c' = frequencyIn "scaling_max_freq" d c

theorem Restored.refl (d : DomainLinux) (c : Cells) : d.Restored c c :=
  ⟨rfl, fun _ => rfl, rfl, rfl⟩

theorem Restored.trans {c₁ c₂ c₃ : Cells} (h : d.Restored c₁ c₂) (h' : d.Restored c₂ c₃) :
    d.Restored c₁ c₃ where
  governor := h'.governor.trans h.governor
  frequency huserspace :=
    (h'.frequency (h.governor.trans huserspace)).trans (h.frequency huserspace)
  lowerBound := h'.lowerBound.trans h.lowerBound
  upperBound := h'.upperBound.trans h.upperBound

theorem idxOf?_enumStrings {governor : Governor} {name : String}
    (hname : enumStrings[governor.toUInt32.toNat]? = some name) :
    enumStrings.idxOf? name = some governor.toUInt32.toNat := by
  revert hname
  cases governor <;> simp +decide [enumStrings, Governor.toUInt32] <;> rintro rfl <;> rfl

theorem governorIn_of_name {governor : Governor} (g : Governor)
    (hname : enumStrings[governor.toUInt32.toNat]? = some (d.governorName c)) :
    governorIn g d c = governor := by
  have hlookup := idxOf?_enumStrings hname
  rw [governorName] at hlookup
  rw [governorIn, getGovernorFromGovernorName, hlookup]
  cases governor <;> rfl

/-- The name of a governor that is written is read back. -/
theorem governorName_of_name {governor : Governor} (hnamed : governor ≠ GOVERNOR_NUM)
    (hfile : c ⟨d.first, "scaling_governor"⟩ = enumStrings[governor.toUInt32.toNat]?.getD "") :
    enumStrings[governor.toUInt32.toNat]? = some (d.governorName c) := by
  rw [governorName, hfile]
  cases governor with
  | GOVERNOR_NUM => exact absurd rfl hnamed
  | _ => rfl

theorem frequencyIn_congr {name : String} (hsame : c' ⟨d.first, name⟩ = c ⟨d.first, name⟩) :
    frequencyIn name d c' = frequencyIn name d c := by rw [frequencyIn, hsame, frequencyIn]

theorem setGovernor_leaves (hfiles : d.OnFiles) (governor : Governor) (c : Cells) :
    ∃ b t, (d.setGovernor (system g f) governor).run c = .ok b t ∧
      t ⟨d.first, "scaling_governor"⟩ = (if governor ∈ d.availableGovernors
        then enumStrings[governor.toUInt32.toNat]?.getD ""
        else c ⟨d.first, "scaling_governor"⟩) ∧
      ∀ file : File, file.name ≠ "scaling_governor" → t file = c file := by
  have hrun := setGovernor_run (g := g) (f := f) (c := c) hfiles governor
  by_cases hmem : governor ∈ d.availableGovernors
  · rw [if_pos hmem] at hrun
    refine ⟨_, _, hrun, ?_, fun file hname => writeAll_of_name hname⟩
    rw [if_pos hmem, writeAll_of_mem hfiles.first_mem]
  · rw [if_neg hmem] at hrun
    refine ⟨_, _, hrun, ?_, fun _ _ => rfl⟩
    rw [if_neg hmem]

/-- Bounds that are set to what they are stay. -/
theorem setGovernorBounds_leaves (hfiles : d.OnFiles) (c : Cells) :
    ∃ b t, (d.setGovernorBounds (system g f) (frequencyIn "scaling_min_freq" d c)
        (frequencyIn "scaling_max_freq" d c)).run c = .ok b t ∧
      t ⟨d.first, "scaling_governor"⟩ = c ⟨d.first, "scaling_governor"⟩ ∧
      frequencyIn "scaling_min_freq" d t = frequencyIn "scaling_min_freq" d c ∧
      frequencyIn "scaling_max_freq" d t = frequencyIn "scaling_max_freq" d c := by
  have hrun := setGovernorBounds_run (g := g) (f := f) (c := c) hfiles
    (frequencyIn "scaling_min_freq" d c) (frequencyIn "scaling_max_freq" d c)
  by_cases haccepts : frequencyIn "scaling_min_freq" d c ∈ d.availableFrequencies ∧
      frequencyIn "scaling_max_freq" d c ∈ d.availableFrequencies ∧
      frequencyIn "scaling_min_freq" d c ≤ frequencyIn "scaling_max_freq" d c
  · rw [if_pos haccepts] at hrun
    refine ⟨_, _, hrun, ?_, ?_, ?_⟩
    · rw [writeAll_of_name (by simp), writeAll_of_name (by simp)]
    · rw [frequencyIn, writeAll_of_name (by simp), writeAll_of_mem hfiles.first_mem,
        stringToFrequency_frequencyToString]
    · rw [frequencyIn, writeAll_of_mem hfiles.first_mem, stringToFrequency_frequencyToString]
  · rw [if_neg haccepts] at hrun
    exact ⟨_, _, hrun, rfl, rfl, rfl⟩

theorem putBack_leaves {oldGovernor : Governor} {oldFrequency : Frequency} (hfiles : d.OnFiles)
    (huser : GOVERNOR_USERSPACE ∈ d.availableGovernors) (c : Cells) :
    ∃ t, (d.putBack (system g f) oldGovernor oldFrequency
        (frequencyIn "scaling_min_freq" d c, frequencyIn "scaling_max_freq" d c)).run c = .ok () t ∧
      t ⟨d.first, "scaling_governor"⟩ = (if oldGovernor ∈ d.availableGovernors
        then enumStrings[oldGovernor.toUInt32.toNat]?.getD ""
        else c ⟨d.first, "scaling_governor"⟩) ∧
      frequencyIn "scaling_min_freq" d t = frequencyIn "scaling_min_freq" d c ∧
      frequencyIn "scaling_max_freq" d t = frequencyIn "scaling_max_freq" d c ∧
      (oldGovernor = GOVERNOR_USERSPACE → oldFrequency ∈ d.availableFrequencies →
        frequencyIn "scaling_setspeed" d t = oldFrequency) := by
  obtain ⟨b, c₁, hset, hgov, hothers⟩ :=
    setGovernor_leaves (g := g) (f := f) hfiles oldGovernor c
  have hbounds : ∀ name, name ≠ "scaling_governor" → frequencyIn name d c₁ = frequencyIn name d c :=
    fun name hname => frequencyIn_congr (hothers _ hname)
  have hlower := hbounds "scaling_min_freq" (by decide)
  have hupper := hbounds "scaling_max_freq" (by decide)
  unfold putBack
  simp only [EStateM.run_bind, hset]
  by_cases hold : oldGovernor = GOVERNOR_USERSPACE
  · rw [if_pos hold]
    have huserspace : governorIn g d c₁ = GOVERNOR_USERSPACE := by
      rw [hold, if_pos huser] at hgov
      rw [governorIn, hgov]
      rfl
    have hfrequency := setFrequencyUserspace_run (g := g) (f := f) (c := c₁) hfiles oldFrequency
    by_cases hmem : oldFrequency ∈ d.availableFrequencies
    · rw [if_pos ⟨huserspace, hmem⟩] at hfrequency
      refine ⟨_, by rw [EStateM.run_bind, hfrequency]; rfl, ?_, ?_, ?_, fun _ _ => ?_⟩
      · rw [← hgov, writeAll_of_name (by simp)]
      · rw [← hlower]
        exact frequencyIn_congr (writeAll_of_name (by simp))
      · rw [← hupper]
        exact frequencyIn_congr (writeAll_of_name (by simp))
      · rw [frequencyIn, writeAll_of_mem hfiles.first_mem, stringToFrequency_frequencyToString]
    · rw [if_neg fun h => hmem h.2] at hfrequency
      refine ⟨_, by rw [EStateM.run_bind, hfrequency]; rfl, hgov, hlower, hupper, ?_⟩
      exact fun _ h => absurd h hmem
  · rw [if_neg hold, hfiles.not_epyc]
    obtain ⟨b', t, hrun, hgov', hlower', hupper'⟩ :=
      setGovernorBounds_leaves (g := g) (f := f) hfiles c₁
    rw [hlower, hupper] at hrun
    refine ⟨t, ?_, hgov'.trans hgov, hlower'.trans hlower, hupper'.trans hupper, ?_⟩
    · simp only [Bool.not_false, if_true, EStateM.run_bind, hrun]
      rfl
    · exact fun h => absurd h hold

theorem getVoltageTable_parts (hfiles : d.OnFiles)
    (huser : GOVERNOR_USERSPACE ∈ d.availableGovernors)
    (hrun : (d.getVoltageTable (sensed g f voltage) (.recorded physical) n onlyPhysicalCores).run
      (c, done) = .ok r (c', calls)) :
    ∃ (more : Calls) (c₁ : Cells), calls = done ++ more ∧ more.EndReset ∧
      c₁ ⟨d.first, "scaling_governor"⟩ = "userspace" ∧
      (∀ name, name ≠ "scaling_governor" → name ≠ "scaling_setspeed" →
        frequencyIn name d c₁ = frequencyIn name d c) ∧
      (d.putBack (system g f) (governorIn g d c)
        (if governorIn g d c = GOVERNOR_USERSPACE then frequencyIn "scaling_setspeed" d c else 0)
        (frequencyIn "scaling_min_freq" d c₁, frequencyIn "scaling_max_freq" d c₁)).run c₁ =
          .ok () c' := by
  rw [getVoltageTable, sensed] at hrun
  simp only [hfiles.not_epyc, Bool.false_eq_true, if_false, getCurrentGovernor_voltage,
    getCurrentFrequencyUserspace_voltage, getCurrentGovernorBounds_voltage, setGovernor_voltage,
    putBack_voltage, EStateM.run_bind, run_onFst, getCurrentGovernor_run hfiles,
    getCurrentFrequencyUserspace_run hfiles, getCurrentGovernorBounds_run hfiles,
    setGovernor_run hfiles, if_pos huser] at hrun
  rw [if_neg (by simp)] at hrun
  generalize (if n.toNat > _ then _ else n) = m at hrun
  generalize List.take m.toNat _ = vcs at hrun
  obtain ⟨_, s₁, hmax, hrun⟩ := ok_of_bind hrun
  cases (forM_recorded vcs .maximizeUtilization _ done).symm.trans hmax
  obtain ⟨r', ⟨c₁, _⟩, hsample, hrun⟩ := ok_of_bind hrun
  obtain ⟨hsample, rfl⟩ := ok_of_onFst hsample
  obtain ⟨_, s₂, hreset, hrun⟩ := ok_of_bind hrun
  cases (forM_recorded vcs .resetUtilization c₁ _).symm.trans hreset
  obtain ⟨_, s₃, hback, hrun⟩ := ok_of_bind hrun
  obtain ⟨hback, hcalls⟩ := ok_of_onFst hback
  cases hrun
  have hkeeps : ∀ (file : File) (content : String), file.name ≠ "scaling_setspeed" →
      Keeps (fun t : Cells => t file = content) (d.availableFrequencies.foldlM
        (d.sampleVoltage (sensed g f voltage) 5 m) OrdMap.empty) := fun file content hname =>
    triple_foldlM_invariant fun r frequency _ => sampleVoltage_keeps hfiles 5 r frequency hname
  have hfile : ∀ file : File, file.name ≠ "scaling_setspeed" →
      c₁ file = c.writeAll d.paths "scaling_governor" "userspace" file := fun file hname =>
    (hkeeps file _ hname).ok_of rfl hsample
  have hothers : ∀ name, name ≠ "scaling_governor" → name ≠ "scaling_setspeed" →
      frequencyIn name d c₁ = frequencyIn name d c := fun name hgov hspeed =>
    frequencyIn_congr ((hfile _ hspeed).trans (writeAll_of_name hgov))
  refine ⟨_, c₁, hcalls.trans (List.append_assoc _ _ _), Calls.endReset_of_reset vcs, ?_,
    hothers, ?_⟩
  · rw [hfile _ (by simp), writeAll_of_mem hfiles.first_mem]
  · rw [hothers _ (by simp) (by simp), hothers _ (by simp) (by simp)]
    exact hback

/-- The governor of a domain that `getVoltageTable` restores is an available one, of the
enumeration. -/
theorem named_of_restored (hfiles : d.OnFiles) (huser : GOVERNOR_USERSPACE ∈ d.availableGovernors)
    (hrun : (d.getVoltageTable (sensed g f voltage) (.recorded physical) n onlyPhysicalCores).run
      (c, done) = .ok r (c', calls)) (hrestored : d.Restored c c') : d.Named c := by
  obtain ⟨more, c₁, -, -, hgov₁, -, hback⟩ := getVoltageTable_parts hfiles huser hrun
  obtain ⟨t, hback', hgov, -⟩ := putBack_leaves hfiles huser c₁
  cases hback'.symm.trans hback
  by_cases hmem : governorIn g d c ∈ d.availableGovernors
  · rw [if_pos hmem] at hgov
    have hnamed : governorIn g d c ≠ GOVERNOR_NUM := fun h => hfiles.governors_named (h ▸ hmem)
    refine ⟨_, hmem, ?_⟩
    rw [← hrestored.governor]
    exact governorName_of_name hnamed hgov
  · rw [if_neg hmem, hgov₁] at hgov
    refine ⟨GOVERNOR_USERSPACE, huser, ?_⟩
    rw [← hrestored.governor]
    exact governorName_of_name (by decide) hgov

theorem restored_of_named (hfiles : d.OnFiles) (huser : GOVERNOR_USERSPACE ∈ d.availableGovernors)
    (hfrequency : d.governorName c = "userspace" →
      frequencyIn "scaling_setspeed" d c ∈ d.availableFrequencies)
    (hrun : (d.getVoltageTable (sensed g f voltage) (.recorded physical) n onlyPhysicalCores).run
      (c, done) = .ok r (c', calls)) (hnamed : d.Named c) : d.Restored c c' := by
  obtain ⟨more, c₁, -, -, hgov₁, hothers, hback⟩ := getVoltageTable_parts hfiles huser hrun
  obtain ⟨t, hback', hgov, hlower, hupper, hspeed⟩ := putBack_leaves hfiles huser c₁
  cases hback'.symm.trans hback
  obtain ⟨governor, hmem, hname⟩ := hnamed
  have hold : governorIn g d c = governor := governorIn_of_name g hname
  rw [hold, if_pos hmem] at hgov
  rw [hold] at hspeed
  refine ⟨?_, fun huserspace => ?_, ?_, ?_⟩
  · have hne : governor ≠ GOVERNOR_NUM := fun h => hfiles.governors_named (h ▸ hmem)
    exact Option.some.inj ((governorName_of_name hne hgov).symm.trans hname)
  · have hgovernor : governor = GOVERNOR_USERSPACE := by
      rw [← hold]
      apply governorIn_of_name g
      rw [huserspace]
      rfl
    rw [if_pos hgovernor] at hspeed
    exact hspeed hgovernor (hfrequency huserspace)
  · exact hlower.trans (hothers _ (by simp) (by simp))
  · exact hupper.trans (hothers _ (by simp) (by simp))

/-- When `getVoltageTable` returns, the domain has the governor, the userspace frequency and the
bounds that it had, and no spinner is left running, if and only if the domain had an available
governor whose name the enumeration has. -/
theorem getVoltageTable_restores_iff (hfiles : d.OnFiles)
    (huser : GOVERNOR_USERSPACE ∈ d.availableGovernors)
    (hfrequency : d.governorName c = "userspace" →
      frequencyIn "scaling_setspeed" d c ∈ d.availableFrequencies)
    (hrun : (d.getVoltageTable (sensed g f voltage) (.recorded physical) n onlyPhysicalCores).run
      (c, []) = .ok r (c', calls)) :
    d.Restored c c' ∧ calls.LeaveNone ↔ d.Named c := by
  constructor
  · rintro ⟨hrestored, -⟩
    exact named_of_restored hfiles huser hrun hrestored
  · intro hnamed
    refine ⟨restored_of_named hfiles huser hfrequency hrun hnamed, ?_⟩
    obtain ⟨more, -, hcalls, hreset, -⟩ := getVoltageTable_parts hfiles huser hrun
    rw [hcalls, List.nil_append]
    exact hreset.leaveNone

/-- A domain of one virtual core. -/
def oneCore : DomainLinux where
  domainIdentifier := 0
  virtualCores := [0]
  availableGovernors := [GOVERNOR_USERSPACE, GOVERNOR_ONDEMAND]
  availableFrequencies := [1200000]
  paths := ["/sys/devices/system/cpu/cpu0/cpufreq/"]
  msr := 0
  turboFrequencies := []
  epyc := false

theorem oneCore_onFiles : oneCore.OnFiles := ⟨rfl, by decide, by decide⟩

/-- One frequency, under a governor. -/
def under (governor : String) : Cells := fun file =>
  if file.name = "scaling_governor" then governor else "1200000"

/-- The state that `getVoltageTable` leaves there. -/
def measured (governor : String) : Cells × Calls :=
  after (oneCore.getVoltageTable (sensed GOVERNOR_NUM 0 fun _ _ => .ok 0) (.recorded fun _ => 0) 1
    false) (under governor, [])

theorem getVoltageTable_restores_iff_ondemand :
    oneCore.Restored (under "ondemand") (measured "ondemand").1 ∧
      (measured "ondemand").2.LeaveNone ↔ oneCore.Named (under "ondemand") := by
  obtain ⟨r, hrun⟩ : ∃ r, (oneCore.getVoltageTable (sensed GOVERNOR_NUM 0 fun _ _ => .ok 0)
      (.recorded fun _ => 0) 1 false).run (under "ondemand", []) = .ok r (measured "ondemand") :=
    ⟨_, rfl⟩
  exact getVoltageTable_restores_iff oneCore_onFiles (by decide) (by decide +kernel) hrun

/-- A governor that the enumeration does not have is left as `userspace`. -/
theorem unknown_governor_not_restored :
    oneCore.OnFiles ∧ GOVERNOR_USERSPACE ∈ oneCore.availableGovernors ∧
    oneCore.governorName (under "schedutil") = "schedutil" ∧
    (∃ r, (oneCore.getVoltageTable (sensed GOVERNOR_NUM 0 fun _ _ => .ok 0)
      (.recorded fun _ => 0) 1 false).run (under "schedutil", []) = .ok r (measured "schedutil")) ∧
    oneCore.governorName (measured "schedutil").1 = "userspace" ∧
    ¬oneCore.Restored (under "schedutil") (measured "schedutil").1 := by
  have hbefore : oneCore.governorName (under "schedutil") = "schedutil" := by decide +kernel
  have hafter : oneCore.governorName (measured "schedutil").1 = "userspace" := by decide +kernel
  refine ⟨oneCore_onFiles, by decide, hbefore, ⟨_, rfl⟩, hafter, fun hrestored => ?_⟩
  have hsame := hrestored.governor
  rw [hbefore, hafter] at hsame
  exact absurd hsame (by decide)

/-- The same for all numbers of virtual cores, one after the other. -/
theorem getVoltageTables_restores (hfiles : d.OnFiles)
    (huser : GOVERNOR_USERSPACE ∈ d.availableGovernors)
    (hfrequency : d.governorName c = "userspace" →
      frequencyIn "scaling_setspeed" d c ∈ d.availableFrequencies) (hnamed : d.Named c) :
    Triple (· = (c, [])) (d.getVoltageTables (sensed g f voltage) (.recorded physical)
        onlyPhysicalCores)
      (fun _ t => d.Restored c t.1 ∧ Calls.LeaveNone t.2) fun _ _ => True := by
  have hloop : Triple (fun t : Cells × Calls => d.Restored c t.1 ∧ Calls.EndReset t.2)
      (d.getVoltageTables (sensed g f voltage) (.recorded physical) onlyPhysicalCores)
      (fun _ t => d.Restored c t.1 ∧ Calls.EndReset t.2) fun _ _ => True := by
    refine triple_foldlM_invariant fun r i _ => triple_bind (Q := fun _ t => d.Restored c t.1 ∧
      Calls.EndReset t.2) ?_ fun tmp => triple_pure fun _ ht => ht
    rintro ⟨c₁, done⟩ ⟨hrestored, hreset⟩
    have hname := hrestored.governor
    cases hrun : (d.getVoltageTable (sensed g f voltage) (.recorded physical) (UInt32.ofNat i)
        onlyPhysicalCores).run (c₁, done) with
    | error e t => trivial
    | ok tmp t =>
      obtain ⟨more, -, hcalls, hmore, -⟩ := getVoltageTable_parts hfiles huser hrun
      have hnext : d.Restored c₁ t.1 := by
        refine restored_of_named hfiles huser (fun huserspace => ?_) hrun ?_
        · rw [hname] at huserspace
          rw [hrestored.frequency huserspace]
          exact hfrequency huserspace
        · rw [Named, hname]
          exact hnamed
      refine ⟨hrestored.trans hnext, ?_⟩
      rw [hcalls]
      exact hreset.append hmore
  refine hloop.conseq ?_ (fun _ _ h => ⟨h.1, h.2.leaveNone⟩) fun _ _ _ => trivial
  rintro _ rfl
  exact ⟨.refl d c, by simp [Calls.EndReset, Calls.on]⟩

end DomainLinux

end Mammut.Cpufreq
