import Mammut.Cpufreq.CpuFreq

/-! How the functions of a domain end: they return, or throw a `std::runtime_error`. -/

namespace Mammut.Cpufreq.DomainLinux

open Governor Kit.Programs

variable {σ : Type} {sys : System σ} {d : DomainLinux}

/-- What the constructor of a domain ensures. -/
structure WellFormed (d : DomainLinux) : Prop where
  paths_ne_nil : ¬d.epyc → d.paths ≠ []
  governors_named : GOVERNOR_NUM ∉ d.availableGovernors

/-- A property of the hardware, which the calls do not change. -/
theorem WellFormed.congr {d' : DomainLinux} (h : d'.hardware = d.hardware) (hd : d.WellFormed) :
    d'.WellFormed := by
  simp only [hardware, Prod.mk.injEq] at h
  obtain ⟨hgovernors, hpaths, hepyc⟩ := h
  exact ⟨by rw [hepyc, hpaths]; exact hd.paths_ne_nil, by rw [hgovernors]; exact hd.governors_named⟩

/-- The call ends in order in every state. -/
abbrev EndsOrderly {α : Type} (call : Call σ α) : Prop := Orderly (fun _ => True) call

theorem readFirstLineFromFile_ends (file : File) : EndsOrderly (sys.readFirstLineFromFile file) := by
  refine orderly_bind orderly_get fun s => ?_
  cases sys.read file s with
  | none => exact orderly_throw
  | some text => exact orderly_pure

theorem path_ends (h : d.paths ≠ []) : EndsOrderly (d.path : Call σ String) := by
  obtain ⟨path, rest, hpaths⟩ := List.exists_cons_of_ne_nil h
  rw [DomainLinux.path, hpaths]
  exact orderly_pure

theorem readPath_ends {β : Type} (h : d.paths ≠ []) (name : String) {f : String → Call σ β}
    (hf : ∀ line, EndsOrderly (f line)) :
    EndsOrderly (do f (← sys.readFirstLineFromFile ⟨← d.path, name⟩)) :=
  orderly_bind (path_ends h) fun _ => orderly_bind (readFirstLineFromFile_ends _) hf

theorem writeToDomainFiles_ends (what name : String) :
    EndsOrderly (d.writeToDomainFiles sys what name) := by
  refine orderly_forM fun path _ => orderly_bind orderly_modifyGet fun _ => ?_
  split_ifs
  · exact orderly_throw
  · exact orderly_pure

theorem getGovernorNameFromGovernor_ends {g : Governor} (h : g ≠ GOVERNOR_NUM) :
    EndsOrderly (getGovernorNameFromGovernor g : Call σ String) := by
  cases g <;> first | exact absurd rfl h | exact orderly_pure

theorem getCurrentFrequency_ends (h : d.WellFormed) : EndsOrderly (d.getCurrentFrequency sys) := by
  unfold getCurrentFrequency
  split_ifs with hepyc
  · exact orderly_pure
  · exact readPath_ends (h.paths_ne_nil hepyc) _ fun _ => orderly_pure

theorem getCurrentGovernor_ends (h : d.WellFormed) : EndsOrderly (d.getCurrentGovernor sys) := by
  unfold getCurrentGovernor
  split_ifs with hepyc
  · exact orderly_pure
  · exact readPath_ends (h.paths_ne_nil hepyc) _ fun _ => orderly_pure

/-- The state that the processor of an EPYC is in has a frequency. -/
def PstateKnown (sys : System σ) (d : DomainLinux) (s : σ) : Prop :=
  d.epyc → (sys.readBits d.msr 0xC0010062 2 0 s).2.toNat < d.availableFrequencies.length

theorem getCurrentFrequencyUserspace_ends (h : d.WellFormed) :
    Orderly (d.PstateKnown sys) (d.getCurrentFrequencyUserspace sys) := by
  intro s hs
  unfold getCurrentFrequencyUserspace
  by_cases hepyc : d.epyc
  · have hlt := hs hepyc
    rw [← List.length_reverse] at hlt
    simp [hepyc, getCurrentEpycPstate, List.getElem?_eq_getElem hlt]
  · rw [if_neg hepyc]
    refine orderly_bind (getCurrentGovernor_ends h) (fun g => ?_) s trivial
    cases g with
    | GOVERNOR_USERSPACE => exact readPath_ends (h.paths_ne_nil hepyc) _ fun _ => orderly_pure
    | _ => exact orderly_pure

theorem setFrequencyUserspace_ends (h : d.WellFormed) (f : Frequency) :
    EndsOrderly (d.setFrequencyUserspace sys f) := by
  unfold setFrequencyUserspace
  by_cases hepyc : d.epyc
  · rw [if_pos hepyc]
    cases d.availableFrequencies.idxOf? f with
    | none => exact orderly_pure
    | some i => exact orderly_modifyGet
  · rw [if_neg hepyc]
    refine orderly_bind (getCurrentGovernor_ends h) fun g => ?_
    cases g with
    | GOVERNOR_USERSPACE =>
      dsimp only
      split_ifs
      · exact orderly_pure
      · exact orderly_bind (writeToDomainFiles_ends _ _) fun _ => orderly_pure
    | _ => exact orderly_pure

theorem getHardwareFrequencyBounds_ends (h : d.WellFormed) :
    EndsOrderly (d.getHardwareFrequencyBounds sys) := by
  unfold getHardwareFrequencyBounds
  split_ifs with hepyc
  · exact orderly_pure
  · have hpaths := h.paths_ne_nil hepyc
    exact readPath_ends hpaths _ fun _ => readPath_ends hpaths _ fun _ => orderly_pure

theorem getCurrentGovernorBounds_ends (h : d.WellFormed) :
    EndsOrderly (d.getCurrentGovernorBounds sys) := by
  unfold getCurrentGovernorBounds
  split_ifs with hepyc
  · exact orderly_pure
  · have hpaths := h.paths_ne_nil hepyc
    exact readPath_ends hpaths _ fun _ => readPath_ends hpaths _ fun _ => orderly_pure

theorem setGovernorBounds_ends (lb ub : Frequency) :
    EndsOrderly (d.setGovernorBounds sys lb ub) := by
  unfold setGovernorBounds
  split_ifs
  · exact orderly_pure
  · exact orderly_pure
  · exact orderly_bind (writeToDomainFiles_ends _ _) fun _ =>
      orderly_bind (writeToDomainFiles_ends _ _) fun _ => orderly_pure

theorem setGovernor_ends (h : d.WellFormed) (g : Governor) :
    EndsOrderly (d.setGovernor sys g) := by
  unfold setGovernor
  split_ifs with hepyc hmem
  · exact orderly_pure
  · exact orderly_pure
  · have hne : g ≠ GOVERNOR_NUM := by
      rintro rfl
      simp [h.governors_named] at hmem
    exact orderly_bind (getGovernorNameFromGovernor_ends hne) fun _ =>
      orderly_bind (writeToDomainFiles_ends _ _) fun _ => orderly_pure

theorem getTransitionLatency_ends : EndsOrderly (d.getTransitionLatency sys) := by
  unfold getTransitionLatency
  cases d.paths with
  | nil => exact orderly_pure
  | cons path rest =>
    refine orderly_bind orderly_get fun s => ?_
    cases sys.read ⟨path, "cpuinfo_transition_latency"⟩ s with
    | none => exact orderly_pure
    | some text => exact orderly_pure

/-- Every frequency is printed with four characters or more. -/
def FourChars (fs : List Frequency) : Prop :=
  ∀ f ∈ fs, (frequencyToString f).toList[3]? ≠ none

theorem removeTurboLoop_returns {kept rest : List Frequency} (h : FourChars rest)
    (d : DomainLinux) : ∃ e, (removeTurboLoop kept rest).run d = .ok () e := by
  induction rest generalizing kept d with
  | nil => exact ⟨d, rfl⟩
  | cons f rest ih =>
    have hrest : FourChars rest := fun g hg => h g (List.mem_cons_of_mem _ hg)
    unfold removeTurboLoop
    cases hc : (frequencyToString f).toList[3]? with
    | none => exact absurd hc (h f List.mem_cons_self)
    | some c =>
      dsimp only
      split_ifs
      · exact ih hrest _
      · exact ih hrest d

/-- An access beyond a text ends the loop. -/
theorem removeTurboLoop_outOfRange {kept rest : List Frequency} (h : ¬FourChars rest)
    (d : DomainLinux) : ∃ e, (removeTurboLoop kept rest).run d = .error .outOfRange e := by
  induction rest generalizing kept d with
  | nil => exact absurd (fun f hf => by cases hf) h
  | cons f rest ih =>
    unfold removeTurboLoop
    cases hc : (frequencyToString f).toList[3]? with
    | none => exact ⟨d, rfl⟩
    | some c =>
      have hrest : ¬FourChars rest := fun hrest => h fun g hg => by
        obtain rfl | hg := List.mem_cons.mp hg
        · simp [hc]
        · exact hrest g hg
      dsimp only
      split_ifs
      · exact ih hrest _
      · exact ih hrest d

/-- With no turbo frequency to remove, the loop changes nothing. -/
theorem removeTurboLoop_unchanged {kept rest : List Frequency}
    (h : ∀ f ∈ rest, ∃ c, (frequencyToString f).toList[3]? = some c ∧ c ≠ '1') (d : DomainLinux) :
    (removeTurboLoop kept rest).run d = .ok () d := by
  induction rest generalizing kept with
  | nil => rfl
  | cons f rest ih =>
    obtain ⟨c, hc, hne⟩ := h f List.mem_cons_self
    rw [removeTurboLoop, hc]
    simp only [hne, if_false]
    exact ih fun g hg => h g (List.mem_cons_of_mem _ hg)

/-- What `removeTurboFrequencies` needs to return. -/
def RemovesInOrder (d : DomainLinux) : Prop :=
  d.turboFrequencies = [] → FourChars d.availableFrequencies

theorem removeTurboFrequencies_returns (h : d.RemovesInOrder) :
    ∃ e, removeTurboFrequencies.run d = .ok () e := by
  rw [removeTurboFrequencies, EStateM.run_bind, EStateM.run_get]
  dsimp only
  split_ifs with hturbo
  · exact removeTurboLoop_returns (h hturbo) d
  · exact ⟨d, rfl⟩

theorem removeTurboFrequencies_ends_iff :
    Orderly (· = d) removeTurboFrequencies ↔ d.RemovesInOrder := by
  refine ⟨fun hends hturbo => ?_, fun h => ?_⟩
  · by_contra hshort
    obtain ⟨e, he⟩ := removeTurboLoop_outOfRange hshort d
    have hrun : removeTurboFrequencies.run d = .error .outOfRange e := by
      rw [removeTurboFrequencies, EStateM.run_bind, EStateM.run_get]
      exact (congrArg (EStateM.run · d) (if_pos hturbo)).trans he
    exact not_orderly_at_of_error hrun (fun _ => Exn.noConfusion) hends
  · obtain ⟨e, he⟩ := removeTurboFrequencies_returns h
    exact orderly_at_of_ok he

/-- A state whose register has no frequency makes the index undefined. -/
theorem getCurrentFrequencyUserspace_ends_iff (h : d.WellFormed) {s : σ} :
    Orderly (· = s) (d.getCurrentFrequencyUserspace sys) ↔ d.PstateKnown sys s := by
  refine ⟨fun hends hepyc => ?_, fun hs =>
    orderly_mono (getCurrentFrequencyUserspace_ends h) fun t ht => ht ▸ hs⟩
  by_contra hlt
  have hnone : d.availableFrequencies.reverse[(sys.readBits d.msr 0xC0010062 2 0 s).2.toNat]? =
      none := List.getElem?_eq_none (by simpa using hlt)
  have hrun : (d.getCurrentFrequencyUserspace sys).run s = .error .undefined s := by
    simp [getCurrentFrequencyUserspace, hepyc, getCurrentEpycPstate, hnone]
  exact not_orderly_at_of_error hrun (fun _ => Exn.noConfusion) hends

theorem onSystem_ends_iff {α : Type} {k : DomainLinux → Call σ α} {s : DomainLinux × σ} :
    Orderly (· = s) (onSystem k) ↔ Orderly (· = s.2) (k s.1) := by
  rw [← orderly_at_onSnd]
  exact orderly_at_bind rfl

end Mammut.Cpufreq.DomainLinux
