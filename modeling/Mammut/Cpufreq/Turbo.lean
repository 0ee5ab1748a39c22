import Mathlib.Algebra.Group.Nat.Defs
import Mathlib.Data.List.Basic
import Mammut.Cpufreq.Domain
import Mammut.Kit.Programs

/-! The turbo frequencies of a domain that is not an EPYC: what `removeTurboFrequencies` takes from
the vector of the available frequencies, and where `reinsertTurboFrequencies` puts it back. -/

namespace Mammut.Cpufreq

open Kit.Programs Utils

variable {σ : Type}

namespace DomainLinux

/-- The constructor for a machine that is not an EPYC.  `frequencies` and `governors` are what it
reads from the files of the first virtual core. -/
def new (domainIdentifier : DomainId) (first : VirtualCoreId) (others : List VirtualCoreId)
    (sysfsRootPrefix : String) (frequencies : List Frequency) (governors : List Governor) :
    DomainLinux where
  domainIdentifier := domainIdentifier
  virtualCores := first :: others
  availableGovernors := governors.filter (· ≠ .GOVERNOR_NUM)
  availableFrequencies := frequencies.mergeSort fun f g => f ≤ g
  paths := (first :: others).map fun id =>
    sysfsRootPrefix ++ "/sys/devices/system/cpu/cpu" ++ intToString id.toBitVec.toInt ++ "/cpufreq/"
  msr := first
  turboFrequencies := []
  epyc := false

end DomainLinux

inductive TurboCall
  | removeTurboFrequencies
  | reinsertTurboFrequencies
  deriving DecidableEq, Repr

def TurboCall.call : TurboCall → Call DomainLinux Unit
  | removeTurboFrequencies => DomainLinux.removeTurboFrequencies
  | reinsertTurboFrequencies => DomainLinux.reinsertTurboFrequencies

/-- The test of `removeTurboFrequencies`. -/
def isTurbo (f : Frequency) : Bool := (frequencyToString f).toList[3]? == some '1'

/-- The frequencies as the loop of `removeTurboFrequencies` leaves them. -/
def kept (fs : List Frequency) : List Frequency := fs.filter (!isTurbo ·)

/-- The frequencies that the loop of `removeTurboFrequencies` moves. -/
def turbos (fs : List Frequency) : List Frequency := fs.filter isTurbo

/-- The texts of the frequencies have four characters. -/
def FourDigits (fs : List Frequency) : Prop := ∀ f ∈ fs, 1000 ≤ f.toNat ∧ f.toNat < 2 ^ 31

instance (fs : List Frequency) : Decidable (FourDigits fs) :=
  List.decidableBAll (fun f : Frequency => 1000 ≤ f.toNat ∧ f.toNat < 2 ^ 31) fs

theorem fourth_digit {f : Frequency} (hlow : 1000 ≤ f.toNat) (hhigh : f.toNat < 2 ^ 31) :
    ∃ c, (frequencyToString f).toList[3]? = some c := by
  have hint : f.toBitVec.toInt = (f.toNat : Int) := by
    apply BitVec.toInt_eq_toNat_of_lt
    have hword : f.toBitVec.toNat = f.toNat := rfl
    omega
  have htext : (frequencyToString f).toList = Nat.toDigits 10 f.toNat := by
    rw [frequencyToString, hint]
    simp [intToString, Int.toString_eq_repr, Int.repr, Nat.toList_repr]
  have hlength : ¬(Nat.toDigits 10 f.toNat).length ≤ 3 := by
    rw [Nat.length_toDigits_le_iff (by decide) (by decide)]
    omega
  rw [htext]
  exact ⟨_, List.getElem?_eq_getElem (by omega)⟩

section Order

variable {fs : List Frequency}

@[simp] theorem kept_append (fs gs : List Frequency) : kept (fs ++ gs) = kept fs ++ kept gs :=
  List.filter_append ..

@[simp] theorem turbos_append (fs gs : List Frequency) :
    turbos (fs ++ gs) = turbos fs ++ turbos gs := List.filter_append ..

@[simp] theorem kept_kept (fs : List Frequency) : kept (kept fs) = kept fs := by
  simp [kept]

@[simp] theorem turbos_turbos (fs : List Frequency) : turbos (turbos fs) = turbos fs := by
  simp [turbos]

@[simp] theorem kept_turbos (fs : List Frequency) : kept (turbos fs) = [] := by
  simp [kept, turbos]

@[simp] theorem turbos_kept (fs : List Frequency) : turbos (kept fs) = [] := by
  simp [kept, turbos]

theorem kept_append_turbos_perm (fs : List Frequency) : (kept fs ++ turbos fs).Perm fs :=
  List.perm_append_comm.trans (List.filter_append_perm isTurbo fs)

/-- Every frequency that the test finds is at least every one that it does not find. -/
def TurboAbove (fs : List Frequency) : Prop :=
  ∀ f ∈ fs, ∀ g ∈ fs, isTurbo f = false → isTurbo g = true → f ≤ g

instance (fs : List Frequency) : Decidable (TurboAbove fs) :=
  letI (f : Frequency) : Decidable (∀ g ∈ fs, isTurbo f = false → isTurbo g = true → f ≤ g) :=
    List.decidableBAll (fun g => isTurbo f = false → isTurbo g = true → f ≤ g) fs
  List.decidableBAll
    (fun f : Frequency => ∀ g ∈ fs, isTurbo f = false → isTurbo g = true → f ≤ g) fs

/-- Frequencies in order stay so behind the others just when they are above them. -/
theorem sorted_kept_append_turbos (hsorted : fs.Pairwise (· ≤ ·)) :
    (kept fs ++ turbos fs).Pairwise (· ≤ ·) ↔ TurboAbove fs := by
  rw [List.pairwise_append]
  constructor
  · rintro ⟨-, -, habove⟩ f hf g hg hkept hturbo
    exact habove f (List.mem_filter.mpr ⟨hf, by simp [hkept]⟩) g
      (List.mem_filter.mpr ⟨hg, hturbo⟩)
  · intro habove
    refine ⟨hsorted.filter _, hsorted.filter _, fun f hf g hg => ?_⟩
    obtain ⟨hf, hkept⟩ := List.mem_filter.mp hf
    obtain ⟨hg, hturbo⟩ := List.mem_filter.mp hg
    exact habove f hf g hg (by simpa using hkept) hturbo

/-- Then they are where they were. -/
theorem kept_append_turbos (hsorted : fs.Pairwise (· ≤ ·)) (habove : TurboAbove fs) :
    kept fs ++ turbos fs = fs :=
  (kept_append_turbos_perm fs).eq_of_pairwise (fun _ _ _ _ => UInt32.le_antisymm)
    ((sorted_kept_append_turbos hsorted).mpr habove) hsorted

end Order

namespace DomainLinux

theorem removeTurboLoop_run {before rest : List Frequency} {d : DomainLinux}
    (hdigits : FourDigits rest) (hd : d.availableFrequencies = before ++ rest) :
    (removeTurboLoop before rest).run d = .ok ⟨⟩ { d with
      availableFrequencies := before ++ kept rest
      turboFrequencies := d.turboFrequencies ++ turbos rest } := by
  induction rest generalizing before d with
  | nil =>
    simp only [kept, turbos, List.filter_nil, List.append_nil] at hd ⊢
    rw [← hd]
    rfl
  | cons f rest ih =>
    obtain ⟨hlow, hhigh⟩ := hdigits f List.mem_cons_self
    obtain ⟨c, hc⟩ := fourth_digit hlow hhigh
    have hrest : FourDigits rest := fun g hg => hdigits g (List.mem_cons_of_mem f hg)
    unfold removeTurboLoop
    rw [hc]
    by_cases hturbo : c = '1'
    · have htest : isTurbo f = true := by simp [isTurbo, hc, hturbo]
      simp only [hturbo, if_true, EStateM.run_bind, EStateM.run_modify]
      rw [ih hrest rfl]
      simp [kept, turbos, htest]
    · have htest : isTurbo f = false := by simpa [isTurbo, hc] using hturbo
      simp only [hturbo, if_false]
      rw [ih hrest (by simp [hd])]
      simp [kept, turbos, htest]

theorem removeTurboFrequencies_run {d : DomainLinux}
    (hdigits : FourDigits d.availableFrequencies) :
    removeTurboFrequencies.run d = .ok ⟨⟩ (if d.turboFrequencies = [] then { d with
      availableFrequencies := kept d.availableFrequencies
      turboFrequencies := turbos d.availableFrequencies } else d) := by
  have hget : (get : Call DomainLinux DomainLinux).run d = .ok d d := rfl
  unfold removeTurboFrequencies
  rw [EStateM.run_bind, hget]
  by_cases hturbo : d.turboFrequencies = []
  · simp only [hturbo, if_true]
    rw [removeTurboLoop_run hdigits rfl]
    simp [hturbo]
  · simp only [hturbo, if_false]
    rfl

/-- Where the calls leave the frequencies `fs`. -/
inductive Placed (fs : List Frequency) (d : DomainLinux) : Prop
  | initial (havailable : d.availableFrequencies = fs) (hturbo : d.turboFrequencies = [])
  | removed (havailable : d.availableFrequencies = kept fs) (hturbo : d.turboFrequencies = turbos fs)
  | reinserted (havailable : d.availableFrequencies = kept fs ++ turbos fs)
      (hturbo : d.turboFrequencies = [])

theorem Placed.fourDigits {fs : List Frequency} {d : DomainLinux} (h : Placed fs d)
    (hdigits : FourDigits fs) : FourDigits d.availableFrequencies := by
  intro f hf
  apply hdigits
  cases h with
  | initial havailable hturbo => rwa [havailable] at hf
  | removed havailable hturbo =>
    rw [havailable] at hf
    exact List.mem_of_mem_filter hf
  | reinserted havailable hturbo =>
    rw [havailable] at hf
    exact (kept_append_turbos_perm fs).mem_iff.mp hf

theorem Placed.step {fs : List Frequency} {d : DomainLinux} (h : Placed fs d)
    (hdigits : FourDigits fs) (c : TurboCall) :
    ∃ d', c.call.run d = .ok ⟨⟩ d' ∧ Placed fs d' := by
  cases c with
  | removeTurboFrequencies =>
    refine ⟨_, removeTurboFrequencies_run (h.fourDigits hdigits), ?_⟩
    by_cases hnone : d.turboFrequencies = []
    · rw [if_pos hnone]
      cases h with
      | initial havailable hturbo => exact .removed (by rw [havailable]) (by rw [havailable])
      | removed havailable hturbo =>
        exact .removed (by simp [havailable]) (by simp [havailable, ← hturbo, hnone])
      | reinserted havailable hturbo =>
        exact .removed (by simp [havailable]) (by simp [havailable])
    · rwa [if_neg hnone]
  | reinsertTurboFrequencies =>
    refine ⟨_, rfl, ?_⟩
    cases h with
    | initial havailable hturbo => exact .initial (by simp [havailable, hturbo]) rfl
    | removed havailable hturbo => exact .reinserted (by simp [havailable, hturbo]) rfl
    | reinserted havailable hturbo => exact .reinserted (by simp [havailable, hturbo]) rfl

theorem Placed.calls {fs : List Frequency} {d : DomainLinux} (h : Placed fs d)
    (hdigits : FourDigits fs) (calls : List TurboCall) :
    ∃ d', (calls.forM TurboCall.call).run d = .ok ⟨⟩ d' ∧ Placed fs d' := by
  induction calls generalizing d with
  | nil => exact ⟨d, rfl, h⟩
  | cons c calls ih =>
    obtain ⟨d₁, hrun, hplaced⟩ := h.step hdigits c
    obtain ⟨d₂, hruns, hplaced⟩ := ih hplaced
    refine ⟨d₂, ?_, hplaced⟩
    show (c.call >>= fun _ => calls.forM TurboCall.call).run d = _
    rw [EStateM.run_bind, hrun]
    exact hruns

/-- What the calls promise about a domain that was constructed as `d₀` and has become `d`. -/
structure Ordered (d₀ d : DomainLinux) : Prop where
  sorted : d.getAvailableFrequencies.Pairwise (· ≤ ·)
  perm : (d.availableFrequencies ++ d.turboFrequencies).Perm d₀.availableFrequencies
  restored : (after reinsertTurboFrequencies d).getAvailableFrequencies =
    d₀.getAvailableFrequencies
  highest : ∀ {σ : Type} (sys : System σ), ∀ f ∈ d.getAvailableFrequencies,
    (∀ g ∈ d.getAvailableFrequencies, g ≤ f) →
      d.setHighestFrequencyUserspace sys = d.setFrequencyUserspace sys f
  lowest : ∀ {σ : Type} (sys : System σ), ∀ f ∈ d.getAvailableFrequencies,
    (∀ g ∈ d.getAvailableFrequencies, f ≤ g) →
      d.setLowestFrequencyUserspace sys = d.setFrequencyUserspace sys f

/-- The last of some frequencies in order is the highest. -/
theorem setHighestFrequencyUserspace_eq {d : DomainLinux} {f : Frequency} (sys : System σ)
    (hsorted : d.getAvailableFrequencies.Pairwise (· ≤ ·)) (hf : f ∈ d.getAvailableFrequencies)
    (hmax : ∀ g ∈ d.getAvailableFrequencies, g ≤ f) :
    d.setHighestFrequencyUserspace sys = d.setFrequencyUserspace sys f := by
  obtain ⟨front, back, hlist⟩ :=
    (List.eq_nil_or_concat' d.getAvailableFrequencies).resolve_left (List.ne_nil_of_mem hf)
  have hback : back = f := by
    rw [hlist] at hsorted hf hmax
    apply UInt32.le_antisymm (hmax back (by simp))
    rcases List.mem_append.mp hf with hfront | hlast
    · exact (List.pairwise_append.mp hsorted).2.2 f hfront back (by simp)
    · rw [List.mem_singleton.mp hlast]
      exact UInt32.le_refl _
  rw [setHighestFrequencyUserspace, hlist, List.getLast?_append, hback]
  rfl

/-- The first of some frequencies in order is the lowest. -/
theorem setLowestFrequencyUserspace_eq {d : DomainLinux} {f : Frequency} (sys : System σ)
    (hsorted : d.getAvailableFrequencies.Pairwise (· ≤ ·)) (hf : f ∈ d.getAvailableFrequencies)
    (hmin : ∀ g ∈ d.getAvailableFrequencies, f ≤ g) :
    d.setLowestFrequencyUserspace sys = d.setFrequencyUserspace sys f := by
  cases hlist : d.getAvailableFrequencies with
  | nil => rw [hlist] at hf; cases hf
  | cons front rest =>
    have hfront : front = f := by
      rw [hlist] at hsorted hf hmin
      refine UInt32.le_antisymm ?_ (hmin front List.mem_cons_self)
      rcases List.mem_cons.mp hf with rfl | hrest
      · exact UInt32.le_refl _
      · exact (List.pairwise_cons.mp hsorted).1 f hrest
    rw [setLowestFrequencyUserspace, hlist, hfront]
    rfl

theorem Placed.ordered {d₀ d : DomainLinux} (h : Placed d₀.availableFrequencies d)
    (hsorted : d₀.availableFrequencies.Pairwise (· ≤ ·))
    (habove : TurboAbove d₀.availableFrequencies) : Ordered d₀ d := by
  have hback := kept_append_turbos hsorted habove
  have hnow : d.availableFrequencies.Pairwise (· ≤ ·) := by
    cases h with
    | initial havailable hturbo => rwa [havailable]
    | removed havailable hturbo =>
      rw [havailable]
      exact hsorted.filter _
    | reinserted havailable hturbo => rwa [havailable, hback]
  have hall : d.availableFrequencies ++ d.turboFrequencies = d₀.availableFrequencies := by
    cases h with
    | initial havailable hturbo => rw [havailable, hturbo, List.append_nil]
    | removed havailable hturbo => rw [havailable, hturbo, hback]
    | reinserted havailable hturbo => rw [havailable, hturbo, List.append_nil, hback]
  exact {
    sorted := hnow
    perm := by rw [hall]
    restored := hall
    highest := fun sys _ hf hmax => setHighestFrequencyUserspace_eq sys hnow hf hmax
    lowest := fun sys _ hf hmin => setLowestFrequencyUserspace_eq sys hnow hf hmin }

theorem remove_reinsert_run {d : DomainLinux} (hnew : d.turboFrequencies = [])
    (hdigits : FourDigits d.availableFrequencies) :
    ([.removeTurboFrequencies, .reinsertTurboFrequencies].forM TurboCall.call).run d =
      .ok ⟨⟩ { d with
        availableFrequencies := kept d.availableFrequencies ++ turbos d.availableFrequencies
        turboFrequencies := [] } := by
  have hremove := removeTurboFrequencies_run hdigits
  rw [if_pos hnew] at hremove
  show (removeTurboFrequencies >>= fun _ =>
    [TurboCall.reinsertTurboFrequencies].forM TurboCall.call).run d = _
  rw [EStateM.run_bind, hremove]
  rfl

section Construction

variable {domainIdentifier : DomainId} {first : VirtualCoreId} {others : List VirtualCoreId}
  {sysfsRootPrefix : String} {frequencies : List Frequency} {governors : List Governor}

theorem new_sorted : (new domainIdentifier first others sysfsRootPrefix frequencies
    governors).availableFrequencies.Pairwise (· ≤ ·) := by
  have htrans (f g h : Frequency) (hfg : decide (f ≤ g) = true) (hgh : decide (g ≤ h) = true) :
      decide (f ≤ h) = true :=
    decide_eq_true (UInt32.le_trans (of_decide_eq_true hfg) (of_decide_eq_true hgh))
  have htotal (f g : Frequency) : (decide (f ≤ g) || decide (g ≤ f)) = true := by
    simpa using UInt32.le_total f g
  exact (List.pairwise_mergeSort htrans htotal frequencies).imp of_decide_eq_true

theorem mem_new {f : Frequency} : f ∈ (new domainIdentifier first others sysfsRootPrefix
    frequencies governors).availableFrequencies ↔ f ∈ frequencies :=
  (List.mergeSort_perm _ _).mem_iff

/-- The frequencies of a domain stay in order through any calls just when the ones that
`removeTurboFrequencies` takes are above the others. -/
theorem ordered_iff (hdigits : FourDigits frequencies) :
    (∀ calls : List TurboCall, ∃ d, (calls.forM TurboCall.call).run (new domainIdentifier first
        others sysfsRootPrefix frequencies governors) = .ok ⟨⟩ d ∧
      Ordered (new domainIdentifier first others sysfsRootPrefix frequencies governors) d) ↔
    TurboAbove frequencies := by
  set d₀ := new domainIdentifier first others sysfsRootPrefix frequencies governors with hd₀
  have hdigits₀ : FourDigits d₀.availableFrequencies := fun f hf => hdigits f (mem_new.mp hf)
  have habove_iff : TurboAbove d₀.availableFrequencies ↔ TurboAbove frequencies := by
    simp only [TurboAbove, hd₀, mem_new]
  rw [← habove_iff]
  constructor
  · intro hcalls
    obtain ⟨d, hrun, hordered⟩ := hcalls [.removeTurboFrequencies, .reinsertTurboFrequencies]
    rw [remove_reinsert_run rfl hdigits₀] at hrun
    cases hrun
    exact (sorted_kept_append_turbos new_sorted).mp hordered.sorted
  · intro habove calls
    obtain ⟨d, hrun, hplaced⟩ := (Placed.initial rfl rfl : Placed d₀.availableFrequencies d₀).calls
      hdigits₀ calls
    exact ⟨d, hrun, hplaced.ordered new_sorted habove⟩

end Construction

/-- A turbo frequency above the others. -/
theorem ordered_iff_turboAbove : TurboAbove [2301000, 1200000, 2300000] ∧
    ∀ calls : List TurboCall, ∃ d, (calls.forM TurboCall.call).run
        (new 0 0 [] "" [2301000, 1200000, 2300000] []) = .ok ⟨⟩ d ∧
      Ordered (new 0 0 [] "" [2301000, 1200000, 2300000] []) d := by
  have habove : TurboAbove [2301000, 1200000, 2300000] := by decide +kernel
  exact ⟨habove, (ordered_iff (by decide +kernel)).mpr habove⟩

/-- A frequency that passes for a turbo frequency, below one that does not. -/
theorem reinserted_unordered :
    ∃ d, ([.removeTurboFrequencies, .reinsertTurboFrequencies].forM TurboCall.call).run
        (new 0 0 [] "" [1331000, 1600000] []) = .ok ⟨⟩ d ∧
      d.getAvailableFrequencies = [1600000, 1331000] ∧
      ¬d.getAvailableFrequencies.Pairwise (· ≤ ·) ∧
      ∀ {σ : Type} (sys : System σ),
        d.setHighestFrequencyUserspace sys = d.setFrequencyUserspace sys 1331000 := by
  have hfrequencies : (new 0 0 [] "" [1331000, 1600000] []).availableFrequencies =
      [1331000, 1600000] := List.mergeSort_of_pairwise (by decide)
  have hlist : kept [1331000, 1600000] ++ turbos [1331000, 1600000] = [1600000, 1331000] := by
    decide +kernel
  refine ⟨_, remove_reinsert_run rfl (by rw [hfrequencies]; decide +kernel), ?_⟩
  rw [hfrequencies, hlist]
  exact ⟨rfl, by decide, fun sys => rfl⟩

end DomainLinux

end Mammut.Cpufreq
