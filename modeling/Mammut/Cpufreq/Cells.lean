import Mammut.Cpufreq.CpuFreq

/-! A domain on files that are plain cells, which store what is written to them: what each call on
the domain returns, and the cells that it leaves. -/

namespace Mammut.Cpufreq

open Governor Kit.Programs Utils

/-- The contents of the files. -/
abbrev Cells := File → String

namespace Cells

/-- A text written to a file of several directories. -/
def writeAll (paths : List String) (name what : String) (c : Cells) : Cells := fun file =>
  if file.path ∈ paths ∧ file.name = name then what else c file

/-- The system that consists of the files; a machine with such files is no EPYC. -/
def system (governor : Governor) (frequency : Frequency) : System Cells where
  read file c := some (c file)
  write file what c := (.written, fun f => if f = file then what else c f)
  readBits _ _ _ _ _ := (false, 0)
  writeBits _ _ _ _ _ c := (false, c)
  voltage _ _ := return 0
  governor := governor
  frequency := frequency

variable {g : Governor} {f : Frequency} {c : Cells} {paths : List String} {name what : String}

theorem writeAll_of_mem {path : String} (hpath : path ∈ paths) :
    writeAll paths name what c ⟨path, name⟩ = what := by
  simp [writeAll, hpath]

theorem writeAll_of_name {file : File} (hname : file.name ≠ name) :
    writeAll paths name what c file = c file := by
  simp [writeAll, hname]

theorem writeAll_of_path {file : File} (hpath : file.path ∉ paths) :
    writeAll paths name what c file = c file := by
  simp [writeAll, hpath]

@[simp] theorem system_governor : (system g f).governor = g := rfl

@[simp] theorem readFirstLine_run (file : File) :
    ((system g f).readFirstLineFromFile file).run c = .ok (firstLine (c file)) c := rfl

end Cells

open Cells

namespace DomainLinux

variable {d : DomainLinux} {g : Governor} {f : Frequency} {c : Cells}

/-- A domain of a machine with files: what its constructor ensures. -/
structure OnFiles (d : DomainLinux) : Prop where
  not_epyc : d.epyc = false
  paths_ne_nil : d.paths ≠ []
  governors_named : GOVERNOR_NUM ∉ d.availableGovernors

/-- The directory that the domain reads from. -/
def first (d : DomainLinux) : String := d.paths.headD ""

theorem OnFiles.first_mem (h : d.OnFiles) : d.first ∈ d.paths := by
  obtain ⟨path, rest, hpaths⟩ := List.exists_cons_of_ne_nil h.paths_ne_nil
  simp [first, hpaths]

theorem path_run (h : d.OnFiles) {σ : Type} (s : σ) : (d.path : Call σ String).run s =
    .ok d.first s := by
  obtain ⟨path, rest, hpaths⟩ := List.exists_cons_of_ne_nil h.paths_ne_nil
  simp [DomainLinux.path, first, hpaths]

theorem writeToDomainFiles_run (what name : String) :
    (d.writeToDomainFiles (system g f) what name).run c =
      .ok () (c.writeAll d.paths name what) := by
  suffices h : ∀ (paths : List String) (c : Cells), (paths.forM fun path => do
      if (← modifyGet ((system g f).write ⟨path, name⟩ what)) ≠ .written then
        throw (.runtimeError "Write to frequency domain files failed.") : Call Cells Unit).run c =
      .ok () (c.writeAll paths name what) from h d.paths c
  intro paths
  induction paths with
  | nil =>
    intro c
    have hc : c = writeAll [] name what c := by
      funext file
      simp [writeAll]
    exact congrArg (EStateM.Result.ok ()) hc
  | cons path rest ih =>
    intro c
    refine (ih _).trans (congrArg (EStateM.Result.ok ()) ?_)
    funext file
    obtain ⟨filePath, fileName⟩ := file
    by_cases hname : fileName = name <;> by_cases hrest : filePath ∈ rest <;>
      by_cases hpath : filePath = path <;> simp [writeAll, hname, hrest, hpath]

/-- The governor that the files of a domain name. -/
def governorIn (g : Governor) (d : DomainLinux) (c : Cells) : Governor :=
  getGovernorFromGovernorName g (firstLine (c ⟨d.first, "scaling_governor"⟩))

/-- The frequency that a file of a domain holds. -/
def frequencyIn (name : String) (d : DomainLinux) (c : Cells) : Frequency :=
  stringToFrequency (firstLine (c ⟨d.first, name⟩))

theorem getCurrentGovernor_run (h : d.OnFiles) :
    (d.getCurrentGovernor (system g f)).run c = .ok (governorIn g d c) c := by
  simp [getCurrentGovernor, h.not_epyc, path_run h, governorIn]

theorem getCurrentFrequencyUserspace_run (h : d.OnFiles) :
    (d.getCurrentFrequencyUserspace (system g f)).run c =
      .ok (if governorIn g d c = GOVERNOR_USERSPACE then frequencyIn "scaling_setspeed" d c else 0)
        c := by
  simp only [getCurrentFrequencyUserspace, h.not_epyc, Bool.false_eq_true, if_false,
    EStateM.run_bind, getCurrentGovernor_run h]
  cases governorIn g d c <;> simp [path_run h, frequencyIn]

theorem getCurrentGovernorBounds_run (h : d.OnFiles) :
    (d.getCurrentGovernorBounds (system g f)).run c =
      .ok (some (frequencyIn "scaling_min_freq" d c, frequencyIn "scaling_max_freq" d c)) c := by
  simp [getCurrentGovernorBounds, h.not_epyc, path_run h, frequencyIn]

theorem setGovernor_run (h : d.OnFiles) (governor : Governor) :
    (d.setGovernor (system g f) governor).run c =
      if governor ∈ d.availableGovernors then
        .ok true (c.writeAll d.paths "scaling_governor" (enumStrings[governor.toUInt32.toNat]?.getD ""))
      else .ok false c := by
  by_cases hmem : governor ∈ d.availableGovernors
  · have hname : getGovernorNameFromGovernor (σ := Cells) governor =
        pure (enumStrings[governor.toUInt32.toNat]?.getD "") := by
      cases governor with
      | GOVERNOR_NUM => exact absurd hmem h.governors_named
      | _ => rfl
    simp [setGovernor, h.not_epyc, hmem, hname, writeToDomainFiles_run]
  · simp [setGovernor, h.not_epyc, hmem]

theorem setFrequencyUserspace_run (h : d.OnFiles) (frequency : Frequency) :
    (d.setFrequencyUserspace (system g f) frequency).run c =
      if governorIn g d c = GOVERNOR_USERSPACE ∧ frequency ∈ d.availableFrequencies then
        .ok true (c.writeAll d.paths "scaling_setspeed" (frequencyToString frequency))
      else .ok false c := by
  simp only [setFrequencyUserspace, h.not_epyc, Bool.false_eq_true, if_false,
    EStateM.run_bind, getCurrentGovernor_run h]
  by_cases hmem : frequency ∈ d.availableFrequencies
  · cases governorIn g d c <;> simp [hmem, writeToDomainFiles_run]
  · cases governorIn g d c <;> simp [hmem]

theorem setGovernorBounds_run (h : d.OnFiles) (lowerBound upperBound : Frequency) :
    (d.setGovernorBounds (system g f) lowerBound upperBound).run c =
      if lowerBound ∈ d.availableFrequencies ∧ upperBound ∈ d.availableFrequencies ∧
          lowerBound ≤ upperBound then
        .ok true ((c.writeAll d.paths "scaling_min_freq" (frequencyToString lowerBound)).writeAll
          d.paths "scaling_max_freq" (frequencyToString upperBound))
      else .ok false c := by
  have hlt : upperBound < lowerBound ↔ ¬lowerBound ≤ upperBound := UInt32.not_le.symm
  by_cases hlower : lowerBound ∈ d.availableFrequencies <;>
    by_cases hupper : upperBound ∈ d.availableFrequencies <;>
    by_cases hle : lowerBound ≤ upperBound <;>
    simp [setGovernorBounds, getAvailableFrequencies, h.not_epyc, hlt, hlower, hupper, hle,
      writeToDomainFiles_run]

end DomainLinux

/-- A printed frequency is read back. -/
@[simp] theorem stringToFrequency_frequencyToString (f : Frequency) :
    stringToFrequency (firstLine (frequencyToString f)) = f := by
  rw [frequencyToString, firstLine_intToString, stringToFrequency, stringToInt_intToString,
    BitVec.ofInt_toInt]

/-- A governor is found under its name. -/
theorem getGovernorFromGovernorName_name (g : Governor) {governor : Governor}
    (hnamed : governor ≠ GOVERNOR_NUM) :
    getGovernorFromGovernorName g
      (firstLine (enumStrings[governor.toUInt32.toNat]?.getD "")) = governor := by
  cases governor with
  | GOVERNOR_NUM => exact absurd rfl hnamed
  | _ => rfl

end Mammut.Cpufreq
