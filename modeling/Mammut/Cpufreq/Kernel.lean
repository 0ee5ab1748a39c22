import Mathlib.Logic.Function.Basic
import Mammut.Cpufreq.Policies
import Mammut.Cpufreq.Service
import Mammut.Utils.Words

/-! The domains of `cpufreq-linux.cpp` on the files of a kernel, whose policies have a governor,
bounds, and a frequency that the user sets.  The calls on a domain do what they would on the policy
itself: neither the formats of the files nor the directories of the virtual cores show. -/

namespace Mammut.Cpufreq

open Governor Kit.Lockstep Kit.Programs Utils

/-- A policy of the kernel.  `speed` is the frequency that the governor `userspace` was told to set,
and `hardware` the one at which the virtual cores run under any other. -/
structure KernelPolicy extends Policy where
  governors : List String
  words : ∀ name ∈ governors, name ≠ "" ∧ ∀ c ∈ name.toList, isSpace c = false
  governor : String
  available : governor ∈ governors
  speed : Frequency
  hardware : Frequency
  cpuinfoMin : Frequency
  cpuinfoMax : Frequency

/-- A line with a number, as the kernel prints it. -/
def kernelLine (f : Frequency) : String := intToString f.toNat ++ "\n"

/-- The number that the kernel reads, which has no sign. -/
def kernelRead (text : String) : Option Frequency :=
  let digits := text.toList.dropWhile isSpace
  if digits.takeWhile Char.isDigit = [] then none
  else some (UInt32.ofNat (leadingDigits digits))

namespace KernelPolicy

/-- The frequency at which the virtual cores run. -/
def running (p : KernelPolicy) : Frequency :=
  if p.governor = "userspace" then max p.minFreq (min p.speed p.maxFreq) else p.hardware

def setMin (p : KernelPolicy) (f : Frequency) : KernelPolicy :=
  { p with toPolicy := p.storeMin f }

def setMax (p : KernelPolicy) (f : Frequency) : KernelPolicy :=
  { p with toPolicy := p.storeMax f }

def setSpeed (p : KernelPolicy) (f : Frequency) : KernelPolicy :=
  if p.governor = "userspace" then { p with speed := f } else p

/-- Another governor takes over; `userspace` keeps the frequency that it finds. -/
def setGovernor (p : KernelPolicy) (name : String) : KernelPolicy :=
  if h : name ∈ p.governors ∧ name ≠ p.governor then
    { p with
      governor := name
      available := h.1
      speed := if name = "userspace" then p.running else p.speed }
  else p

/-- What a number written to a file does. -/
def setRead (set : KernelPolicy → Frequency → KernelPolicy) (p : KernelPolicy) (text : String) :
    KernelPolicy :=
  match kernelRead text with
  | some f => set p f
  | none => p

/-- What a text written to a file does. -/
def write (p : KernelPolicy) (name what : String) : KernelPolicy :=
  if name = "scaling_governor" then p.setGovernor (firstWord what)
  else if name = "scaling_min_freq" then setRead setMin p what
  else if name = "scaling_max_freq" then setRead setMax p what
  else if name = "scaling_setspeed" then setRead setSpeed p what
  else p

/-- What a file shows. -/
def text (p : KernelPolicy) (name : String) : Option String :=
  if name = "scaling_governor" then some (p.governor ++ "\n")
  else if name = "scaling_min_freq" then some (kernelLine p.minFreq)
  else if name = "scaling_max_freq" then some (kernelLine p.maxFreq)
  else if name = "scaling_cur_freq" then some (kernelLine p.running)
  else if name = "cpuinfo_min_freq" then some (kernelLine p.cpuinfoMin)
  else if name = "cpuinfo_max_freq" then some (kernelLine p.cpuinfoMax)
  else if name = "scaling_setspeed" then
    some (if p.governor = "userspace" then kernelLine p.running else "<unsupported>\n")
  else none

variable {p : KernelPolicy} {f : Frequency} {name what : String}

theorem setGovernor_of_eq (h : p.governor = name) : p.setGovernor name = p :=
  dif_neg fun hne => hne.2 h.symm

theorem setGovernor_setGovernor : (p.setGovernor name).setGovernor name = p.setGovernor name := by
  by_cases h : name ∈ p.governors ∧ name ≠ p.governor
  · apply setGovernor_of_eq
    rw [setGovernor, dif_pos h]
  · have hsame : p.setGovernor name = p := dif_neg h
    rw [hsame, hsame]

theorem setSpeed_setSpeed : (p.setSpeed f).setSpeed f = p.setSpeed f := by
  by_cases h : p.governor = "userspace" <;> simp [setSpeed, h]

theorem setRead_setRead {set : KernelPolicy → Frequency → KernelPolicy}
    (h : ∀ p f, set (set p f) f = set p f) :
    setRead set (setRead set p what) what = setRead set p what := by
  unfold setRead
  cases kernelRead what with
  | some f => exact h p f
  | none => rfl

/-- A text that is written to the directories of several virtual cores sets their policy once. -/
theorem write_write : (p.write name what).write name what = p.write name what := by
  have hmin : ∀ (p : KernelPolicy) f, (p.setMin f).setMin f = p.setMin f := fun p f =>
    congrArg (fun bounds => { p with toPolicy := bounds }) Policy.storeMin_storeMin
  have hmax : ∀ (p : KernelPolicy) f, (p.setMax f).setMax f = p.setMax f := fun p f =>
    congrArg (fun bounds => { p with toPolicy := bounds }) Policy.storeMax_storeMax
  unfold write
  split
  · exact setGovernor_setGovernor
  · split
    · exact setRead_setRead hmin
    · split
      · exact setRead_setRead hmax
      · split
        · exact setRead_setRead fun _ _ => setSpeed_setSpeed
        · rfl

end KernelPolicy

theorem firstLine_line {s : String} (h : '\n' ∉ s.toList) : firstLine (s ++ "\n") = s := by
  have hall : ∀ c ∈ s.toList, decide (c ≠ '\n') = true := by
    intro c hc
    simp only [ne_eq, decide_eq_true_eq]
    exact fun heq => h (heq ▸ hc)
  rw [firstLine, String.toList_append, List.takeWhile_append_of_pos hall]
  simp

/-- A number that the kernel prints is read back. -/
@[simp] theorem stringToFrequency_kernelLine (f : Frequency) :
    stringToFrequency (firstLine (kernelLine f)) = f := by
  rw [kernelLine, firstLine_line (not_mem_intToString rfl _), stringToFrequency,
    stringToInt_intToString]
  apply UInt32.toBitVec_inj.mp
  apply BitVec.eq_of_toNat_eq
  simp

/-- The kernel reads a frequency that is printed without a sign. -/
theorem kernelRead_frequencyToString (f : Frequency) :
    kernelRead (frequencyToString f) = if f.toNat < 2 ^ 31 then some f else none := by
  rw [frequencyToString]
  by_cases h : f.toNat < 2 ^ 31
  · have hint : f.toBitVec.toInt = (f.toNat : Int) := BitVec.toInt_eq_toNat_of_lt (by
      show 2 * f.toNat < 2 ^ 32
      omega)
    obtain ⟨c, cs, hdigits, hc⟩ := toDigits_cons f.toNat
    have hdrop : (Nat.toDigits 10 f.toNat).dropWhile isSpace = Nat.toDigits 10 f.toNat := by
      rw [hdigits, List.dropWhile_cons_of_neg (by simp [isSpace_of_isDigit hc])]
    have hdigit : (Nat.toDigits 10 f.toNat).takeWhile Char.isDigit ≠ [] := by
      rw [hdigits, List.takeWhile_cons_of_pos hc]
      exact List.cons_ne_nil _ _
    rw [if_pos h, hint, kernelRead, toList_intToString, hdrop]
    simp only [hdigit, if_false, leadingDigits_toDigits, UInt32.ofNat_toNat]
  · have hneg : f.toBitVec.toInt < 0 := by
      rw [BitVec.toInt_eq_toNat_cond]
      have hlt : f.toBitVec.toNat < 2 ^ 32 := f.toBitVec.isLt
      have hge : 2 ^ 31 ≤ f.toBitVec.toNat := Nat.not_lt.mp h
      split <;> omega
    obtain ⟨n, hn⟩ := Int.eq_negSucc_of_lt_zero hneg
    rw [if_neg h, hn, kernelRead, toList_intToString_negSucc]
    rfl

namespace KernelPolicy

variable {p : KernelPolicy} {f : Frequency} {name what : String}

/-- What a frequency that the code prints does. -/
def told (set : KernelPolicy → Frequency → KernelPolicy) (p : KernelPolicy) (f : Frequency) :
    KernelPolicy :=
  if f.toNat < 2 ^ 31 then set p f else p

theorem setRead_frequencyToString (set : KernelPolicy → Frequency → KernelPolicy) :
    setRead set p (frequencyToString f) = told set p f := by
  unfold setRead told
  rw [kernelRead_frequencyToString]
  by_cases h : f.toNat < 2 ^ 31
  · rw [if_pos h, if_pos h]
  · rw [if_neg h, if_neg h]

/-- The governor that the code finds under the name of the policy's. -/
def governorOf (g : Governor) (p : KernelPolicy) : Governor :=
  match enumStrings.idxOf? p.governor with
  | some position => Governor.ofUInt32 (UInt32.ofNat position)
  | none => g

theorem governor_plain (p : KernelPolicy) : '\n' ∉ p.governor.toList := fun hmem =>
  absurd ((p.words _ p.available).2 _ hmem) (by decide)

theorem getGovernorFromGovernorName_governor (g : Governor) :
    getGovernorFromGovernorName g (firstLine (p.governor ++ "\n")) = p.governorOf g := by
  obtain ⟨hne, hspace⟩ := p.words _ p.available
  rw [firstLine_line p.governor_plain, getGovernorFromGovernorName, firstWord_eq_self hne hspace]
  rfl

theorem governorOf_userspace (g : Governor) (h : p.governor = "userspace") :
    p.governorOf g = GOVERNOR_USERSPACE := by
  rw [governorOf, h]
  rfl

/-- `setFrequencyUserspace` on a domain with this policy. -/
def setFrequencyUserspace (g : Governor) (f : Frequency) : Call (DomainLinux × KernelPolicy) Bool :=
  fun (d, p) =>
  if p.governorOf g = GOVERNOR_USERSPACE ∧ f ∈ d.availableFrequencies then
    .ok true (d, told setSpeed p f)
  else .ok false (d, p)

/-- `setHighestFrequencyUserspace` and `setLowestFrequencyUserspace`, which pick a frequency. -/
def setPicked (g : Governor) (pick : List Frequency → Option Frequency) :
    Call (DomainLinux × KernelPolicy) Bool := do
  match pick (← get).1.availableFrequencies with
  | some f => setFrequencyUserspace g f
  | none => return false

/-- What a call on a domain does that has this policy and no files. -/
def call (g : Governor) : DomainCall → Call (DomainLinux × KernelPolicy) Value
  | .removeTurboFrequencies => do onFst DomainLinux.removeTurboFrequencies; return .unit
  | .reinsertTurboFrequencies => do onFst DomainLinux.reinsertTurboFrequencies; return .unit
  | .getAvailableFrequencies => fun s => .ok (.frequencies s.1.availableFrequencies) s
  | .getAvailableGovernors => fun s => .ok (.governors s.1.availableGovernors) s
  | .isGovernorAvailable governor => fun s => .ok (.result (s.1.isGovernorAvailable governor)) s
  | .getCurrentFrequency => fun s => .ok (.frequency s.2.running) s
  | .getCurrentFrequencyUserspace => fun s =>
    .ok (.frequency (if s.2.governor = "userspace" then s.2.running else 0)) s
  | .getCurrentGovernor => fun s => .ok (.governor (s.2.governorOf g)) s
  | .setFrequencyUserspace f => do return .result (← setFrequencyUserspace g f)
  | .setHighestFrequencyUserspace => do return .result (← setPicked g List.getLast?)
  | .setLowestFrequencyUserspace => do return .result (← setPicked g List.head?)
  | .getHardwareFrequencyBounds => fun s => .ok (.bounds (some (s.2.cpuinfoMin, s.2.cpuinfoMax))) s
  | .getCurrentGovernorBounds => fun s => .ok (.bounds (some (s.2.minFreq, s.2.maxFreq))) s
  | .setGovernorBounds lowerBound upperBound => fun (d, p) =>
    if d.AcceptsBounds lowerBound upperBound then
      .ok (.result true) (d, told setMax (told setMin p lowerBound) upperBound)
    else .ok (.result false) (d, p)
  | .setGovernor governor => fun (d, p) =>
    if governor ∈ d.availableGovernors then
      .ok (.result true) (d, p.setGovernor (enumStrings[governor.toUInt32.toNat]?.getD ""))
    else .ok (.result false) (d, p)

end KernelPolicy

section System

variable {π : Type} [DecidableEq π]

/-- The files of the policies, `policyOf` telling whose a directory is.  A write reports success
before the buffer is flushed. -/
def KernelPolicy.system (policyOf : String → π) (g : Governor) (f : Frequency) :
    System (π → KernelPolicy) where
  read file policies := (policies (policyOf file.path)).text file.name
  write file what policies := (.written, Function.update policies (policyOf file.path)
    ((policies (policyOf file.path)).write file.name what))
  readBits _ _ _ _ _ := (false, 0)
  writeBits _ _ _ _ _ policies := (false, policies)
  voltage _ _ := return 0
  governor := g
  frequency := f

/-- A call on a domain with the policy `i`. -/
def onPolicy {α : Type} (i : π) (call : Call (DomainLinux × KernelPolicy) α) :
    Call (DomainLinux × (π → KernelPolicy)) α :=
  focus (fun s => (s.1, s.2 i)) (fun s t => (s.1, Function.update t.2 i s.2)) call

/-- A domain on the files of one policy. -/
structure DomainLinux.OnPolicy (policyOf : String → π) (i : π) (d : DomainLinux) : Prop
    extends d.OnFiles where
  policy : ∀ path ∈ d.paths, policyOf path = i

variable {policyOf : String → π} {g : Governor} {f₀ f : Frequency} {d : DomainLinux} {i : π}
  {policies : π → KernelPolicy} {name what text : String}

theorem writeToDomainFiles_kernel (h : d.OnPolicy policyOf i) :
    (d.writeToDomainFiles (KernelPolicy.system policyOf g f₀) what name).run policies =
      .ok () (Function.update policies i ((policies i).write name what)) := by
  let write : String → Call (π → KernelPolicy) Unit := fun path => do
    if (← modifyGet ((KernelPolicy.system policyOf g f₀).write ⟨path, name⟩ what)) ≠ .written then
      throw (.runtimeError "Write to frequency domain files failed.")
  have hwrite {path : String} (hpath : policyOf path = i) (policies : π → KernelPolicy) :
      (write path).run policies =
        .ok () (Function.update policies i ((policies i).write name what)) := by
    subst hpath
    rfl
  -- the directories after the first find what it has already written
  have hrest : ∀ (paths : List String) (policies : π → KernelPolicy),
      (∀ path ∈ paths, policyOf path = i) → (policies i).write name what = policies i →
      (paths.forM write).run policies = .ok () policies := by
    intro paths
    induction paths with
    | nil => exact fun _ _ _ => rfl
    | cons path rest ih =>
      intro policies hall hsame
      have hfirst := hwrite (hall path List.mem_cons_self) policies
      rw [hsame, Function.update_eq_self] at hfirst
      rw [run_forM_cons hfirst]
      exact ih policies (fun p hp => hall p (List.mem_cons_of_mem _ hp)) hsame
  obtain ⟨first, rest, hpaths⟩ := List.exists_cons_of_ne_nil h.paths_ne_nil
  show (d.paths.forM write).run policies = _
  rw [hpaths, run_forM_cons (hwrite (h.policy first (by simp [hpaths])) policies)]
  refine hrest rest _ (fun path hpath => h.policy path (by simp [hpaths, hpath])) ?_
  rw [Function.update_self]
  exact KernelPolicy.write_write

theorem readFirstLine_kernel (h : d.OnPolicy policyOf i)
    (htext : (policies i).text name = some text) :
    ((KernelPolicy.system policyOf g f₀).readFirstLineFromFile ⟨d.first, name⟩).run policies =
      .ok (firstLine text) policies := by
  apply System.readFirstLineFromFile_run
  show (policies (policyOf d.first)).text name = _
  rw [h.policy d.first h.first_mem, htext]

/-- A number in a file of the domain. -/
theorem readFrequency_kernel (h : d.OnPolicy policyOf i)
    (htext : (policies i).text name = some (kernelLine f)) :
    (do return stringToFrequency (← (KernelPolicy.system policyOf g f₀).readFirstLineFromFile
      ⟨← d.path, name⟩) : Call (π → KernelPolicy) Frequency).run policies = .ok f policies := by
  simp only [EStateM.run_bind, DomainLinux.path_run h.toOnFiles, readFirstLine_kernel h htext,
    EStateM.run_pure, stringToFrequency_kernelLine]

theorem getCurrentGovernor_kernel (h : d.OnPolicy policyOf i) :
    (d.getCurrentGovernor (KernelPolicy.system policyOf g f₀)).run policies =
      .ok ((policies i).governorOf g) policies := by
  have htext : (policies i).text "scaling_governor" = some ((policies i).governor ++ "\n") := rfl
  simp only [DomainLinux.getCurrentGovernor, h.not_epyc, Bool.false_eq_true, if_false,
    EStateM.run_bind, DomainLinux.path_run h.toOnFiles, readFirstLine_kernel h htext,
    EStateM.run_pure]
  exact congrArg (EStateM.Result.ok · policies)
    (KernelPolicy.getGovernorFromGovernorName_governor g)

theorem getCurrentFrequencyUserspace_kernel (h : d.OnPolicy policyOf i) :
    (d.getCurrentFrequencyUserspace (KernelPolicy.system policyOf g f₀)).run policies =
      .ok (if (policies i).governor = "userspace" then (policies i).running else 0) policies := by
  simp only [DomainLinux.getCurrentFrequencyUserspace, h.not_epyc, Bool.false_eq_true, if_false,
    EStateM.run_bind, getCurrentGovernor_kernel h]
  by_cases huser : (policies i).governor = "userspace"
  · have htext : (policies i).text "scaling_setspeed" = some (kernelLine (policies i).running) := by
      simp [KernelPolicy.text, huser]
    rw [(policies i).governorOf_userspace g huser, if_pos huser]
    exact readFrequency_kernel h htext
  · have htext : (policies i).text "scaling_setspeed" = some "<unsupported>\n" := by
      simp [KernelPolicy.text, huser]
    rw [if_neg huser]
    cases (policies i).governorOf g with
    | GOVERNOR_USERSPACE =>
      simp only [EStateM.run_bind, DomainLinux.path_run h.toOnFiles, readFirstLine_kernel h htext,
        EStateM.run_pure]
      exact congrArg (EStateM.Result.ok · policies) (by decide +kernel)
    | _ => rfl

theorem setFrequencyUserspace_kernel (h : d.OnPolicy policyOf i) :
    (d.setFrequencyUserspace (KernelPolicy.system policyOf g f₀) f).run policies =
      if (policies i).governorOf g = GOVERNOR_USERSPACE ∧ f ∈ d.availableFrequencies then
        .ok true (Function.update policies i
          (KernelPolicy.told KernelPolicy.setSpeed (policies i) f))
      else .ok false policies := by
  have hwrite : (policies i).write "scaling_setspeed" (frequencyToString f) =
      KernelPolicy.told KernelPolicy.setSpeed (policies i) f :=
    KernelPolicy.setRead_frequencyToString KernelPolicy.setSpeed
  simp only [DomainLinux.setFrequencyUserspace, h.not_epyc, Bool.false_eq_true, if_false,
    EStateM.run_bind, getCurrentGovernor_kernel h]
  by_cases hmem : f ∈ d.availableFrequencies
  · cases (policies i).governorOf g <;> simp [hmem, writeToDomainFiles_kernel h, hwrite]
  · cases (policies i).governorOf g <;> simp [hmem]

theorem setGovernorBounds_kernel (h : d.OnPolicy policyOf i) (lowerBound upperBound : Frequency) :
    (d.setGovernorBounds (KernelPolicy.system policyOf g f₀) lowerBound upperBound).run policies =
      if d.AcceptsBounds lowerBound upperBound then
        .ok true (Function.update policies i (KernelPolicy.told KernelPolicy.setMax
          (KernelPolicy.told KernelPolicy.setMin (policies i) lowerBound) upperBound))
      else .ok false policies := by
  have hmin (p : KernelPolicy) : p.write "scaling_min_freq" (frequencyToString lowerBound) =
      KernelPolicy.told KernelPolicy.setMin p lowerBound :=
    KernelPolicy.setRead_frequencyToString KernelPolicy.setMin
  have hmax (p : KernelPolicy) : p.write "scaling_max_freq" (frequencyToString upperBound) =
      KernelPolicy.told KernelPolicy.setMax p upperBound :=
    KernelPolicy.setRead_frequencyToString KernelPolicy.setMax
  have hlt : upperBound < lowerBound ↔ ¬lowerBound ≤ upperBound := UInt32.not_le.symm
  unfold DomainLinux.AcceptsBounds
  by_cases hlower : lowerBound ∈ d.availableFrequencies <;>
    by_cases hupper : upperBound ∈ d.availableFrequencies <;>
    by_cases hle : lowerBound ≤ upperBound <;>
    simp [DomainLinux.setGovernorBounds, DomainLinux.getAvailableFrequencies, h.not_epyc, hlt,
      hlower, hupper, hle, writeToDomainFiles_kernel h, hmin, hmax]

theorem setGovernor_kernel (h : d.OnPolicy policyOf i) (governor : Governor) :
    (d.setGovernor (KernelPolicy.system policyOf g f₀) governor).run policies =
      if governor ∈ d.availableGovernors then
        .ok true (Function.update policies i
          ((policies i).setGovernor (enumStrings[governor.toUInt32.toNat]?.getD "")))
      else .ok false policies := by
  by_cases hmem : governor ∈ d.availableGovernors
  · have hname : getGovernorNameFromGovernor (σ := π → KernelPolicy) governor =
        pure (enumStrings[governor.toUInt32.toNat]?.getD "") := by
      cases governor with
      | GOVERNOR_NUM => exact absurd hmem h.governors_named
      | _ => rfl
    have hwrite : (policies i).write "scaling_governor"
        (enumStrings[governor.toUInt32.toNat]?.getD "") =
        (policies i).setGovernor (enumStrings[governor.toUInt32.toNat]?.getD "") := by
      have hword : firstWord (enumStrings[governor.toUInt32.toNat]?.getD "") =
          enumStrings[governor.toUInt32.toNat]?.getD "" := by
        cases governor <;> decide +kernel
      show (policies i).setGovernor (firstWord _) = _
      rw [hword]
    simp [DomainLinux.setGovernor, h.not_epyc, hmem, hname, writeToDomainFiles_kernel h, hwrite]
  · simp [DomainLinux.setGovernor, h.not_epyc, hmem]

theorem onSystem_run {σ α : Type} (k : DomainLinux → Call σ α) (s : σ) :
    (DomainLinux.onSystem k).run (d, s) = mapState (fun t => (d, t)) ((k d).run s) := by
  simp only [DomainLinux.onSystem, EStateM.run_bind, EStateM.run_get, run_onSnd]
  cases (k d).run s <;> rfl

theorem onPolicy_run {α : Type} (call : Call (DomainLinux × KernelPolicy) α) :
    (onPolicy i call).run (d, policies) = mapState
      (fun s => (s.1, Function.update policies i s.2)) (call.run (d, policies i)) := by
  rw [onPolicy, run_focus]
  cases call.run (d, policies i) with
  | ok a s => simp only [mapState_ok]
  | error e s => simp only [mapState_error]

/-- A call that returns on the policy does so on the files. -/
theorem onPolicy_ok {call : Call (DomainLinux × KernelPolicy) Value} {v : Value} {p : KernelPolicy}
    (h : call.run (d, policies i) = .ok v (d, p)) :
    (onPolicy i call).run (d, policies) = .ok v (d, Function.update policies i p) := by
  rw [onPolicy_run, h, mapState_ok]

/-- A call that only reads the policy. -/
theorem onPolicy_reads {call : Call (DomainLinux × KernelPolicy) Value} {v : Value}
    (h : call.run (d, policies i) = .ok v (d, policies i)) :
    (onPolicy i call).run (d, policies) = .ok v (d, policies) := by
  rw [onPolicy_ok h, Function.update_eq_self]

theorem onPolicy_onFst (call : Call DomainLinux Unit) :
    (onPolicy i (do onFst call; return Value.unit)).run (d, policies) =
      (do onFst call; return Value.unit : Call (DomainLinux × (π → KernelPolicy)) Value).run
        (d, policies) := by
  simp only [onPolicy_run, EStateM.run_bind, run_onFst]
  cases call.run d <;> simp

/-- Setting a frequency, on the files and on the policy. -/
theorem setFrequency_call (h : d.OnPolicy policyOf i) :
    (do return Value.result (← DomainLinux.onSystem (·.setFrequencyUserspace
      (KernelPolicy.system policyOf g f₀) f)) : Call _ Value).run (d, policies) =
      (onPolicy i (do return Value.result (← KernelPolicy.setFrequencyUserspace g f))).run
        (d, policies) := by
  have hfiles := @setFrequencyUserspace_kernel π _ policyOf g f₀ f d i policies h
  by_cases haccepts : (policies i).governorOf g = GOVERNOR_USERSPACE ∧ f ∈ d.availableFrequencies
  · rw [if_pos haccepts] at hfiles
    have hpolicy : (KernelPolicy.setFrequencyUserspace g f).run (d, policies i) =
        .ok true (d, KernelPolicy.told KernelPolicy.setSpeed (policies i) f) := if_pos haccepts
    rw [onPolicy_ok (by rw [EStateM.run_bind, hpolicy]; rfl), EStateM.run_bind, onSystem_run,
      hfiles]
    rfl
  · rw [if_neg haccepts] at hfiles
    have hpolicy : (KernelPolicy.setFrequencyUserspace g f).run (d, policies i) =
        .ok false (d, policies i) := if_neg haccepts
    rw [onPolicy_reads (by rw [EStateM.run_bind, hpolicy]; rfl), EStateM.run_bind, onSystem_run,
      hfiles]
    rfl

/-- Setting a frequency that is picked, on the files and on the policy. -/
theorem setPicked_call (h : d.OnPolicy policyOf i) (pick : List Frequency → Option Frequency)
    {k : DomainLinux → Call (π → KernelPolicy) Bool}
    (hnone : pick d.availableFrequencies = none → k d = pure false)
    (hsome : ∀ f, pick d.availableFrequencies = some f →
      k d = d.setFrequencyUserspace (KernelPolicy.system policyOf g f₀) f) :
    (do return Value.result (← DomainLinux.onSystem k) : Call _ Value).run (d, policies) =
      (onPolicy i (do return Value.result (← KernelPolicy.setPicked g pick))).run
        (d, policies) := by
  have hget : (get : Call (DomainLinux × KernelPolicy) _).run (d, policies i) =
      .ok (d, policies i) (d, policies i) := rfl
  cases hpick : pick d.availableFrequencies with
  | none =>
    have hpolicy : (KernelPolicy.setPicked g pick).run (d, policies i) =
        .ok false (d, policies i) := by
      simp only [KernelPolicy.setPicked, EStateM.run_bind, hget, hpick, EStateM.run_pure]
    rw [onPolicy_reads (by rw [EStateM.run_bind, hpolicy]; rfl), EStateM.run_bind, onSystem_run,
      hnone hpick]
    rfl
  | some f =>
    have hset := @setFrequency_call π _ policyOf g f₀ f d i policies h
    have hpolicy : (KernelPolicy.setPicked g pick).run (d, policies i) =
        (KernelPolicy.setFrequencyUserspace g f).run (d, policies i) := by
      simp only [KernelPolicy.setPicked, EStateM.run_bind, hget, hpick]
    rw [EStateM.run_bind, onSystem_run, onPolicy_run, EStateM.run_bind] at hset ⊢
    rw [hsome f hpick, hset, hpolicy]

/-- A call on a domain does on the files what it does on the policy. -/
theorem call_kernel (h : d.OnPolicy policyOf i) (c : DomainCall) :
    (DomainLinux.call (KernelPolicy.system policyOf g f₀) c).run (d, policies) =
      (onPolicy i (KernelPolicy.call g c)).run (d, policies) := by
  have hgetter {α : Type} {k : DomainLinux → Call (π → KernelPolicy) α} {a : α} {v : α → Value}
      (hk : (k d).run policies = .ok a policies)
      (hpolicy : (KernelPolicy.call g c).run (d, policies i) = .ok (v a) (d, policies i)) :
      (do return v (← DomainLinux.onSystem k) : Call _ Value).run (d, policies) =
        (onPolicy i (KernelPolicy.call g c)).run (d, policies) := by
    rw [onPolicy_reads hpolicy, EStateM.run_bind, onSystem_run, hk]
    rfl
  cases c with
  | removeTurboFrequencies => exact (onPolicy_onFst _).symm
  | reinsertTurboFrequencies => exact (onPolicy_onFst _).symm
  | getAvailableFrequencies => exact hgetter rfl rfl
  | getAvailableGovernors => exact hgetter rfl rfl
  | isGovernorAvailable governor => exact hgetter rfl rfl
  | getCurrentFrequency =>
    have htext : (policies i).text "scaling_cur_freq" = some (kernelLine (policies i).running) :=
      rfl
    refine hgetter (α := Frequency) (v := Value.frequency) ?_ rfl
    simp only [DomainLinux.getCurrentFrequency, h.not_epyc, Bool.false_eq_true, if_false]
    exact readFrequency_kernel h htext
  | getCurrentFrequencyUserspace => exact hgetter (getCurrentFrequencyUserspace_kernel h) rfl
  | getCurrentGovernor => exact hgetter (getCurrentGovernor_kernel h) rfl
  | setFrequencyUserspace f => exact setFrequency_call h
  | setHighestFrequencyUserspace =>
    refine @setPicked_call π _ policyOf g f₀ d i policies h List.getLast? _ (fun hnone => ?_)
      fun f hsome => ?_
    · simp only [DomainLinux.setHighestFrequencyUserspace, DomainLinux.getAvailableFrequencies,
        hnone]
    · simp only [DomainLinux.setHighestFrequencyUserspace, DomainLinux.getAvailableFrequencies,
        hsome]
  | setLowestFrequencyUserspace =>
    refine @setPicked_call π _ policyOf g f₀ d i policies h List.head? _ (fun hnone => ?_)
      fun f hsome => ?_
    · simp only [DomainLinux.setLowestFrequencyUserspace, DomainLinux.getAvailableFrequencies,
        hnone]
    · simp only [DomainLinux.setLowestFrequencyUserspace, DomainLinux.getAvailableFrequencies,
        hsome]
  | getHardwareFrequencyBounds =>
    have hmin : (policies i).text "cpuinfo_min_freq" = some (kernelLine (policies i).cpuinfoMin) :=
      rfl
    have hmax : (policies i).text "cpuinfo_max_freq" = some (kernelLine (policies i).cpuinfoMax) :=
      rfl
    refine hgetter (v := fun bounds => .bounds (some bounds)) ?_ rfl
    simp only [DomainLinux.getHardwareFrequencyBounds, h.not_epyc, Bool.false_eq_true, if_false,
      EStateM.run_bind, DomainLinux.path_run h.toOnFiles, readFirstLine_kernel h hmin,
      readFirstLine_kernel h hmax, EStateM.run_pure, stringToFrequency_kernelLine]
  | getCurrentGovernorBounds =>
    have hmin : (policies i).text "scaling_min_freq" = some (kernelLine (policies i).minFreq) := rfl
    have hmax : (policies i).text "scaling_max_freq" = some (kernelLine (policies i).maxFreq) := rfl
    refine hgetter (v := Value.bounds) ?_ rfl
    simp only [DomainLinux.getCurrentGovernorBounds, h.not_epyc, Bool.false_eq_true, if_false,
      EStateM.run_bind, DomainLinux.path_run h.toOnFiles, readFirstLine_kernel h hmin,
      readFirstLine_kernel h hmax, EStateM.run_pure, stringToFrequency_kernelLine]
  | setGovernorBounds lowerBound upperBound =>
    show (do return Value.result (← DomainLinux.onSystem
      (·.setGovernorBounds _ lowerBound upperBound)) : Call _ Value).run _ = _
    rw [EStateM.run_bind, onSystem_run, setGovernorBounds_kernel h]
    by_cases haccepts : d.AcceptsBounds lowerBound upperBound
    · have hpolicy : (KernelPolicy.call g (.setGovernorBounds lowerBound upperBound)).run
          (d, policies i) = .ok (.result true) (d, KernelPolicy.told KernelPolicy.setMax
            (KernelPolicy.told KernelPolicy.setMin (policies i) lowerBound) upperBound) :=
        if_pos haccepts
      rw [if_pos haccepts, onPolicy_ok hpolicy]
      rfl
    · have hpolicy : (KernelPolicy.call g (.setGovernorBounds lowerBound upperBound)).run
          (d, policies i) = .ok (.result false) (d, policies i) := if_neg haccepts
      rw [if_neg haccepts, onPolicy_reads hpolicy]
      rfl
  | setGovernor governor =>
    show (do return Value.result (← DomainLinux.onSystem (·.setGovernor _ governor)) :
      Call _ Value).run _ = _
    rw [EStateM.run_bind, onSystem_run, setGovernor_kernel h]
    by_cases hmem : governor ∈ d.availableGovernors
    · have hpolicy : (KernelPolicy.call g (.setGovernor governor)).run (d, policies i) =
          .ok (.result true) (d, (policies i).setGovernor
            (enumStrings[governor.toUInt32.toNat]?.getD "")) := if_pos hmem
      rw [if_pos hmem, onPolicy_ok hpolicy]
      rfl
    · have hpolicy : (KernelPolicy.call g (.setGovernor governor)).run (d, policies i) =
          .ok (.result false) (d, policies i) := if_neg hmem
      rw [if_neg hmem, onPolicy_reads hpolicy]
      rfl

end System

end Mammut.Cpufreq
