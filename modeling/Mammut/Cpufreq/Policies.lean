import Mathlib.Logic.Function.Basic
import Mammut.Cpufreq.Cells

/-! The bounds of the governor on files that the kernel checks: a policy never lets its bounds
cross, and rejects a write that would make them.  A stream learns of that only when it is flushed,
which is after `writeToDomainFiles` has asked it. -/

namespace Mammut.Cpufreq

/-- What the kernel holds behind `scaling_min_freq` and `scaling_max_freq`. -/
@[ext] structure Policy where
  minFreq : Frequency
  maxFreq : Frequency
  ordered : minFreq ≤ maxFreq

namespace Policy

def storeMin (p : Policy) (f : Frequency) : Policy :=
  if h : f ≤ p.maxFreq then ⟨f, p.maxFreq, h⟩ else p

def storeMax (p : Policy) (f : Frequency) : Policy :=
  if h : p.minFreq ≤ f then ⟨p.minFreq, f, h⟩ else p

/-- What a policy makes of a text written to one of its files. -/
def store (p : Policy) (name what : String) : Policy :=
  if name = "scaling_min_freq" then p.storeMin (stringToFrequency (Utils.firstLine what))
  else if name = "scaling_max_freq" then p.storeMax (stringToFrequency (Utils.firstLine what))
  else p

def shown (p : Policy) (name : String) : Option String :=
  if name = "scaling_min_freq" then some (frequencyToString p.minFreq)
  else if name = "scaling_max_freq" then some (frequencyToString p.maxFreq)
  else none

variable {p : Policy} {f lowerBound upperBound : Frequency}

@[simp] theorem shown_min : p.shown "scaling_min_freq" = some (frequencyToString p.minFreq) := by
  simp [shown]

@[simp] theorem shown_max : p.shown "scaling_max_freq" = some (frequencyToString p.maxFreq) := by
  simp [shown]

@[simp] theorem store_min :
    p.store "scaling_min_freq" (frequencyToString f) = p.storeMin f := by simp [store]

@[simp] theorem store_max :
    p.store "scaling_max_freq" (frequencyToString f) = p.storeMax f := by simp [store]

theorem storeMin_of_le (h : f ≤ p.maxFreq) : p.storeMin f = ⟨f, p.maxFreq, h⟩ := dif_pos h

theorem storeMin_of_lt (h : p.maxFreq < f) : p.storeMin f = p := dif_neg (UInt32.not_le.mpr h)

theorem storeMax_of_le (h : p.minFreq ≤ f) : p.storeMax f = ⟨p.minFreq, f, h⟩ := dif_pos h

theorem storeMin_storeMin : (p.storeMin f).storeMin f = p.storeMin f := by
  by_cases h : f ≤ p.maxFreq
  · have hmax : (p.storeMin f).maxFreq = p.maxFreq := by rw [storeMin_of_le h]
    rw [storeMin_of_le (hmax ▸ h)]
    simp only [storeMin_of_le h]
  · simp only [storeMin_of_lt (UInt32.not_le.mp h)]

theorem storeMax_storeMax : (p.storeMax f).storeMax f = p.storeMax f := by
  by_cases h : p.minFreq ≤ f
  · have hmin : (p.storeMax f).minFreq = p.minFreq := by rw [storeMax_of_le h]
    rw [storeMax_of_le (hmin ▸ h)]
    simp only [storeMax_of_le h]
  · have hreject : p.storeMax f = p := dif_neg h
    rw [hreject, hreject]

theorem store_store (name what : String) :
    (p.store name what).store name what = p.store name what := by
  unfold store
  split
  · exact storeMin_storeMin
  · split
    · exact storeMax_storeMax
    · rfl

/-- Bounds that are stored one after the other arrive when the lower one is stored: the policy
rejects it when it is above the old upper bound, and accepts the upper one in any case. -/
theorem storeMax_storeMin_iff (hle : lowerBound ≤ upperBound) :
    (p.storeMin lowerBound).storeMax upperBound = ⟨lowerBound, upperBound, hle⟩ ↔
      lowerBound ≤ p.maxFreq := by
  by_cases h : lowerBound ≤ p.maxFreq
  · rw [storeMin_of_le h, storeMax_of_le hle]
    exact iff_of_true rfl h
  · have hlt : p.maxFreq < lowerBound := UInt32.not_le.mp h
    have hmin : p.minFreq < lowerBound := UInt32.lt_of_le_of_lt p.ordered hlt
    rw [storeMin_of_lt hlt, storeMax_of_le (UInt32.le_trans (UInt32.le_of_lt hmin) hle)]
    refine iff_of_false (fun heq => ?_) h
    exact UInt32.ne_of_lt hmin (congrArg minFreq heq)

end Policy

theorem System.readFirstLineFromFile_run {σ : Type} {sys : System σ} {file : File} {s : σ}
    {text : String} (h : sys.read file s = some text) :
    (sys.readFirstLineFromFile file).run s = .ok (Utils.firstLine text) s := by
  simp [readFirstLineFromFile, h]

theorem DomainLinux.getCurrentGovernorBounds_reads {σ : Type} {sys : System σ} {d : DomainLinux}
    {s : σ} {path lower upper : String} {rest : List String} (hepyc : d.epyc = false)
    (hpaths : d.paths = path :: rest) (hmin : sys.read ⟨path, "scaling_min_freq"⟩ s = some lower)
    (hmax : sys.read ⟨path, "scaling_max_freq"⟩ s = some upper) :
    (d.getCurrentGovernorBounds sys).run s = .ok (some (stringToFrequency (Utils.firstLine lower),
      stringToFrequency (Utils.firstLine upper))) s := by
  have hpath : (d.path : Call σ String).run s = .ok path s := by simp [DomainLinux.path, hpaths]
  simp [getCurrentGovernorBounds, hepyc, hpath, System.readFirstLineFromFile_run hmin,
    System.readFirstLineFromFile_run hmax]

section System

variable {π : Type} [DecidableEq π]

/-- The policies behind the files of the directories `policyOf` tells of.  A write reports what
`fail` says before the buffer is flushed. -/
def Policy.system (policyOf : String → π) : System (π → Policy) where
  read file policies := (policies (policyOf file.path)).shown file.name
  write file what policies := (.written, Function.update policies (policyOf file.path)
    ((policies (policyOf file.path)).store file.name what))
  readBits _ _ _ _ _ := (false, 0)
  writeBits _ _ _ _ _ policies := (false, policies)
  voltage _ _ := return 0
  governor := .GOVERNOR_NUM
  frequency := 0

variable {policyOf : String → π} {policies : π → Policy} {d : DomainLinux}
  {lowerBound upperBound : Frequency}

theorem writeToDomainFiles_policies (what name : String) :
    (d.writeToDomainFiles (Policy.system policyOf) what name).run policies =
      .ok () fun i => if i ∈ d.paths.map policyOf then (policies i).store name what
        else policies i := by
  suffices h : ∀ (paths : List String) (policies : π → Policy), (paths.forM fun path => do
      if (← modifyGet ((Policy.system policyOf).write ⟨path, name⟩ what)) ≠ .written then
        throw (.runtimeError "Write to frequency domain files failed.") :
          Call (π → Policy) Unit).run policies =
      .ok () fun i => if i ∈ paths.map policyOf then (policies i).store name what
        else policies i from h d.paths policies
  intro paths
  induction paths with
  | nil =>
    intro policies
    simp
  | cons path rest ih =>
    intro policies
    refine (ih _).trans (congrArg (EStateM.Result.ok ()) (funext fun i => ?_))
    by_cases hi : i = policyOf path
    · simp [hi, Policy.store_store]
    · simp [hi]

/-- What the files in the directory of a virtual core show of the bounds. -/
def boundsIn (policyOf : String → π) (policies : π → Policy) (path : String) :
    Frequency × Frequency :=
  ((policies (policyOf path)).minFreq, (policies (policyOf path)).maxFreq)

theorem read_policies (policyOf : String → π) (policies : π → Policy) (path name : String) :
    (Policy.system policyOf).read ⟨path, name⟩ policies =
      (policies (policyOf path)).shown name := rfl

theorem getCurrentGovernorBounds_policies (hepyc : d.epyc = false) {path : String}
    {rest : List String} (hpaths : d.paths = path :: rest) :
    (d.getCurrentGovernorBounds (Policy.system policyOf)).run policies =
      .ok (some (boundsIn policyOf policies path)) policies := by
  have hmin := (read_policies policyOf policies path _).trans Policy.shown_min
  have hmax := (read_policies policyOf policies path _).trans Policy.shown_max
  rw [DomainLinux.getCurrentGovernorBounds_reads hepyc hpaths hmin hmax,
    stringToFrequency_frequencyToString, stringToFrequency_frequencyToString]
  rfl

/-- What `setGovernorBounds` promises: bounds that it sets are those of every virtual core of the
domain, and bounds that it refuses change nothing. -/
def SetsBounds (policyOf : String → π) (d : DomainLinux) (lowerBound upperBound : Frequency)
    (policies : π → Policy) : Prop :=
  match (d.setGovernorBounds (Policy.system policyOf) lowerBound upperBound).run policies with
  | .ok true policies' =>
    (d.getCurrentGovernorBounds (Policy.system policyOf)).run policies' =
      .ok (some (lowerBound, upperBound)) policies' ∧
    ∀ path ∈ d.paths, boundsIn policyOf policies' path = (lowerBound, upperBound)
  | .ok false policies' => policies' = policies
  | .error _ _ => False

/-- The bounds pass the checks of `setGovernorBounds`. -/
def DomainLinux.AcceptsBounds (d : DomainLinux) (lowerBound upperBound : Frequency) : Prop :=
  lowerBound ∈ d.availableFrequencies ∧ upperBound ∈ d.availableFrequencies ∧
    lowerBound ≤ upperBound

instance : Decidable (d.AcceptsBounds lowerBound upperBound) := by
  unfold DomainLinux.AcceptsBounds
  infer_instance

/-- Bounds that pass the checks are written to the policies of the domain, one after the other. -/
theorem setGovernorBounds_policies (hepyc : d.epyc = false) :
    (d.setGovernorBounds (Policy.system policyOf) lowerBound upperBound).run policies =
      if d.AcceptsBounds lowerBound upperBound then
        (do d.writeToDomainFiles (Policy.system policyOf)
              (frequencyToString lowerBound) "scaling_min_freq"
            d.writeToDomainFiles (Policy.system policyOf)
              (frequencyToString upperBound) "scaling_max_freq"
            return true : Call (π → Policy) Bool).run policies
      else .ok false policies := by
  have hlt : upperBound < lowerBound ↔ ¬lowerBound ≤ upperBound := UInt32.not_le.symm
  unfold DomainLinux.AcceptsBounds
  by_cases hlower : lowerBound ∈ d.availableFrequencies <;>
    by_cases hupper : upperBound ∈ d.availableFrequencies <;>
    by_cases hle : lowerBound ≤ upperBound <;>
    simp [DomainLinux.setGovernorBounds, DomainLinux.getAvailableFrequencies, hepyc, hlt, hlower,
      hupper, hle]

theorem setGovernorBounds_accepts (hepyc : d.epyc = false)
    (h : d.AcceptsBounds lowerBound upperBound) :
    (d.setGovernorBounds (Policy.system policyOf) lowerBound upperBound).run policies =
      .ok true fun i => if i ∈ d.paths.map policyOf then
        ((policies i).storeMin lowerBound).storeMax upperBound else policies i := by
  rw [setGovernorBounds_policies hepyc, if_pos h]
  simp only [EStateM.run_bind, writeToDomainFiles_policies, EStateM.run_pure, Policy.store_min,
    Policy.store_max]
  refine congrArg (EStateM.Result.ok true) (funext fun i => ?_)
  by_cases hi : i ∈ d.paths.map policyOf
  · rw [if_pos hi, if_pos hi, if_pos hi]
  · rw [if_neg hi, if_neg hi, if_neg hi]

/-- `setGovernorBounds` keeps its promise exactly when it refuses the bounds or the new lower bound
is not above an old upper bound. -/
theorem setsBounds_iff (hepyc : d.epyc = false) (hpaths : d.paths ≠ []) :
    SetsBounds policyOf d lowerBound upperBound policies ↔
      (d.AcceptsBounds lowerBound upperBound →
        ∀ path ∈ d.paths, lowerBound ≤ (boundsIn policyOf policies path).2) := by
  unfold SetsBounds
  by_cases haccepts : d.AcceptsBounds lowerBound upperBound
  · rw [setGovernorBounds_accepts hepyc haccepts]
    obtain ⟨first, rest, hcons⟩ := List.exists_cons_of_ne_nil hpaths
    have hle := haccepts.2.2
    have hbounds : ∀ path ∈ d.paths, boundsIn policyOf (fun i =>
        if i ∈ d.paths.map policyOf then
          ((policies i).storeMin lowerBound).storeMax upperBound else policies i) path =
        (lowerBound, upperBound) ↔ lowerBound ≤ (boundsIn policyOf policies path).2 := by
      intro path hpath
      rw [boundsIn, boundsIn, if_pos (List.mem_map_of_mem hpath),
        ← Policy.storeMax_storeMin_iff hle, Policy.ext_iff, Prod.mk.injEq]
    simp only [getCurrentGovernorBounds_policies hepyc hcons]
    constructor
    · rintro ⟨-, hall⟩ _ path hpath
      exact (hbounds path hpath).mp (hall path hpath)
    · intro hall
      have hset := fun path hpath => (hbounds path hpath).mpr (hall haccepts path hpath)
      have hfirst := hset first (by rw [hcons]; exact List.mem_cons_self)
      exact ⟨by rw [hfirst], hset⟩
  · rw [setGovernorBounds_policies hepyc, if_neg haccepts]
    exact iff_of_true rfl fun h => absurd h haccepts

end System

/-- A domain of one virtual core with four frequencies. -/
def fourSteps : DomainLinux where
  domainIdentifier := 0
  virtualCores := [0]
  availableGovernors := []
  availableFrequencies := [1000000, 2000000, 3000000, 4000000]
  paths := ["/sys/devices/system/cpu/cpu0/cpufreq/"]
  msr := 0
  turboFrequencies := []
  epyc := false

/-- Bounds that begin within the old ones. -/
theorem setsBounds_within :
    SetsBounds (fun _ => ()) fourSteps 2000000 4000000
      fun _ => ⟨1000000, 2000000, by decide⟩ := by
  refine (setsBounds_iff rfl (by decide)).mpr fun _ path _ => ?_
  simp [boundsIn]

/-- Bounds above the old ones: the call returns `true` and leaves 1 to 4 GHz in place of 3 to 4. -/
theorem setsBounds_above_fails :
    ¬SetsBounds (fun _ => ()) fourSteps 3000000 4000000
      fun _ => ⟨1000000, 2000000, by decide⟩ := by
  unfold SetsBounds
  rw [setGovernorBounds_accepts rfl ⟨by decide, by decide, by decide⟩]
  rintro ⟨-, hall⟩
  have hcore := hall "/sys/devices/system/cpu/cpu0/cpufreq/" (by simp [fourSteps])
  simp [boundsIn, fourSteps, Policy.storeMin, Policy.storeMax] at hcore

end Mammut.Cpufreq
