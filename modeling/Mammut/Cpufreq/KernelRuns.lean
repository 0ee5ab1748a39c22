import Mammut.Cpufreq.Kernel
import Mammut.Cpufreq.Rollback

/-! Runs of the domains on a kernel: the clients call domains in any order, while the hardware and
other programs change the policies.  Every run on the files is one on the policies, and what a call
sets is what the next calls find, until something else sets it. -/

namespace Mammut.Cpufreq

open CpuFreq Governor Kit.Lockstep Kit.Programs

variable {π : Type} [DecidableEq π]

/-- A client calls a domain, or something else changes a policy. -/
inductive PolicyEvent (π : Type)
  | call (i : ℕ) (c : DomainCall)
  | change (j : π) (f : KernelPolicy → KernelPolicy)

namespace PolicyEvent

/-- An event, where `perform` tells what the calls on a domain do. -/
def exec (perform : ℕ → DomainCall → Call (DomainLinux × (π → KernelPolicy)) Value) :
    PolicyEvent π → Call (CpuFreqLinux (π → KernelPolicy)) Value
  | .call i c => onDomain i (perform i c)
  | .change j f => fun s => .ok .unit (s.1, Function.update s.2 j (f (s.2 j)))

/-- The calls are made on the files. -/
def onFiles (policyOf : String → π) (g : Governor) (f₀ : Frequency) :
    PolicyEvent π → Call (CpuFreqLinux (π → KernelPolicy)) Value :=
  exec fun _ c => DomainLinux.call (KernelPolicy.system policyOf g f₀) c

/-- The calls are made on the policies. -/
def onPolicies (policy : ℕ → π) (g : Governor) :
    PolicyEvent π → Call (CpuFreqLinux (π → KernelPolicy)) Value :=
  exec fun i c => onPolicy (policy i) (KernelPolicy.call g c)

/-- The event leaves what `attr` shows of the policy `j`: the calls on domains with this policy are
not among those that `sets` names. -/
def Spares {β : Type} (policy : ℕ → π) (j : π) (sets : DomainCall → Bool)
    (attr : KernelPolicy → β) : PolicyEvent π → Prop
  | .call i c => policy i = j → sets c = false
  | .change i f => i = j → ∀ p, attr (f p) = attr p

end PolicyEvent

/-- Each domain lies on the files of its policy. -/
def Placed (policyOf : String → π) (policy : ℕ → π) (s : CpuFreqLinux (π → KernelPolicy)) : Prop :=
  ∀ (i : ℕ) (d : DomainLinux), s.1[i]? = some d → d.OnPolicy policyOf (policy i)

variable {policyOf : String → π} {policy : ℕ → π} {g : Governor} {f₀ : Frequency}
  {s : CpuFreqLinux (π → KernelPolicy)}

omit [DecidableEq π] in
theorem onPolicy_congr {d d' : DomainLinux} {j : π} (h : d'.hardware = d.hardware)
    (hd : d.OnPolicy policyOf j) : d'.OnPolicy policyOf j := by
  have hpaths : d'.paths = d.paths := congrArg (fun hardware => hardware.2.1) h
  exact ⟨CpuFreq.onFiles_congr h hd.toOnFiles, fun path hpath => hd.policy path (hpaths ▸ hpath)⟩

open PolicyEvent

/-- An event does on the files what it does on the policies. -/
theorem exec_agrees (h : Placed policyOf policy s) (e : PolicyEvent π) :
    (onFiles policyOf g f₀ e).run s = (onPolicies policy g e).run s := by
  cases e with
  | call i c =>
    show (onDomain i _).run s = (onDomain i _).run s
    cases hd : s.1[i]? with
    | none => rw [onDomain_run_of_none hd, onDomain_run_of_none hd]
    | some d =>
      rw [onDomain_run_of_some hd, onDomain_run_of_some hd, call_kernel (h i d hd)]
  | change j f => rfl

theorem Placed.exec (h : Placed policyOf policy s) (e : PolicyEvent π) :
    Placed policyOf policy (final ((onFiles policyOf g f₀ e).run s)) := by
  cases e with
  | change j f => exact h
  | call i c =>
    show Placed policyOf policy (final ((onDomain i _).run s))
    cases hd : s.1[i]? with
    | none =>
      rw [onDomain_run_of_none hd]
      exact h
    | some d =>
      let sys := KernelPolicy.system policyOf g f₀
      have hhardware : (after (DomainLinux.call sys c) (d, s.2)).1.hardware = d.hardware :=
        after_of_keeps (DomainLinux.call_hardware sys c) (show (d, s.2).1.hardware = _ from rfl)
      have hdomains : (final ((onDomain i (DomainLinux.call sys c)).run s)).1 =
          s.1.set i (after (DomainLinux.call sys c) (d, s.2)).1 := by
        rw [onDomain_run_of_some hd, after]
        cases (DomainLinux.call sys c).run (d, s.2) <;> rfl
      intro j d' hd'
      rw [hdomains, List.getElem?_set] at hd'
      by_cases hij : i = j
      · subst hij
        rw [if_pos rfl] at hd'
        split at hd'
        · exact Option.some.inj hd' ▸ onPolicy_congr hhardware (h i d hd)
        · cases hd'
      · rw [if_neg hij] at hd'
        exact h j d' hd'

/-- The calls of any run return what they would on the policies, and leave the policies so. -/
theorem trace_onPolicies (h : Placed policyOf policy s) (events : List (PolicyEvent π)) :
    trace (onFiles policyOf g f₀) s events = trace (onPolicies policy g) s events := by
  induction events generalizing s with
  | nil => rfl
  | cons e events ih =>
    simp only [trace]
    rw [ih (h.exec e), exec_agrees h e]

namespace DomainCall

def setsGovernor : DomainCall → Bool
  | .setGovernor _ => true
  | _ => false

def setsBounds : DomainCall → Bool
  | .setGovernorBounds _ _ => true
  | _ => false

/-- The calls that set the frequency of `userspace`, or begin it. -/
def setsSpeed : DomainCall → Bool
  | .setFrequencyUserspace _ => true
  | .setHighestFrequencyUserspace => true
  | .setLowestFrequencyUserspace => true
  | .setGovernor _ => true
  | _ => false

end DomainCall

namespace KernelPolicy

variable {β : Type} {p : KernelPolicy}

@[simp] theorem setGovernor_toPolicy (name : String) :
    (p.setGovernor name).toPolicy = p.toPolicy := by
  by_cases h : name ∈ p.governors ∧ name ≠ p.governor <;> simp [setGovernor, h]

@[simp] theorem setSpeed_toPolicy (f : Frequency) : (p.setSpeed f).toPolicy = p.toPolicy := by
  by_cases h : p.governor = "userspace" <;> simp [setSpeed, h]

@[simp] theorem setSpeed_governor (f : Frequency) : (p.setSpeed f).governor = p.governor := by
  by_cases h : p.governor = "userspace" <;> simp [setSpeed, h]

theorem setGovernor_governor {name : String} (h : name ∈ p.governors) :
    (p.setGovernor name).governor = name := by
  by_cases hne : name ≠ p.governor
  · rw [setGovernor, dif_pos ⟨h, hne⟩]
  · have hname : name = p.governor := not_not.mp hne
    rw [setGovernor_of_eq hname.symm, hname]

/-- The bounds that are set one after the other, when the first is not above the old upper one. -/
theorem told_bounds {lowerBound upperBound : Frequency} (hle : lowerBound ≤ upperBound)
    (hupper : upperBound.toNat < 2 ^ 31) (hlower : lowerBound ≤ p.maxFreq) :
    (told setMax (told setMin p lowerBound) upperBound).toPolicy =
      ⟨lowerBound, upperBound, hle⟩ := by
  have hlt : lowerBound.toNat < 2 ^ 31 := by
    have := UInt32.le_iff_toNat_le.mp hle
    omega
  rw [told, if_pos hupper, told, if_pos hlt]
  exact (Policy.storeMax_storeMin_iff hle).mpr hlower

theorem running_of_between (huser : p.governor = "userspace") (hmin : p.minFreq ≤ p.speed)
    (hmax : p.speed ≤ p.maxFreq) : p.running = p.speed := by
  have hinner : min p.speed p.maxFreq = p.speed := if_pos hmax
  rw [running, if_pos huser, hinner]
  exact if_pos hmin

/-- What every number set through `set` keeps, is kept when the code writes one. -/
theorem told_keeps {attr : KernelPolicy → β} {set : KernelPolicy → Frequency → KernelPolicy}
    (h : ∀ f, attr (set p f) = attr p) (f : Frequency) : attr (told set p f) = attr p := by
  unfold told
  split
  · exact h f
  · rfl

theorem setFrequencyUserspace_keeps {attr : KernelPolicy → β}
    (h : ∀ p f, attr (setSpeed p f) = attr p) {b : β} (g : Governor) (f : Frequency) :
    Keeps (fun s : DomainLinux × KernelPolicy => attr s.2 = b) (setFrequencyUserspace g f) := by
  intro s hs
  by_cases haccepts : s.2.governorOf g = GOVERNOR_USERSPACE ∧ f ∈ s.1.availableFrequencies
  · have hrun : (setFrequencyUserspace g f).run s = .ok true (s.1, told setSpeed s.2 f) :=
      if_pos haccepts
    rw [hrun]
    exact (told_keeps (h s.2) f).trans hs
  · have hrun : (setFrequencyUserspace g f).run s = .ok false s := if_neg haccepts
    rw [hrun]
    exact hs

/-- A call keeps what the ones that it makes on the policy keep. -/
theorem call_keeps {attr : KernelPolicy → β} {b : β} (g : Governor) (c : DomainCall)
    (hspeed : c.setsSpeed = true → ∀ p f, attr (setSpeed p f) = attr p)
    (hgovernor : c.setsGovernor = true → ∀ p name, attr (setGovernor p name) = attr p)
    (hbounds : c.setsBounds = true →
      ∀ p f, attr (setMin p f) = attr p ∧ attr (setMax p f) = attr p) :
    Keeps (fun s : DomainLinux × KernelPolicy => attr s.2 = b) (call g c) := by
  have honFst (call : Call DomainLinux Unit) :
      Keeps (fun s : DomainLinux × KernelPolicy => attr s.2 = b) (onFst call) := by
    intro s hs
    rw [run_onFst]
    cases call.run s.1 <;> exact hs
  have hset (f : Frequency) (hc : c.setsSpeed = true) :=
    setFrequencyUserspace_keeps (b := b) (hspeed hc) g f
  have hpicked (pick : List Frequency → Option Frequency) (hc : c.setsSpeed = true) :
      Keeps (fun s : DomainLinux × KernelPolicy => attr s.2 = b) (setPicked g pick) := by
    refine keeps_bind keeps_get fun s => ?_
    cases pick s.1.availableFrequencies with
    | some f => exact hset f hc
    | none => exact keeps_pure
  cases c with
  | removeTurboFrequencies => exact keeps_bind (honFst _) fun _ => keeps_pure
  | reinsertTurboFrequencies => exact keeps_bind (honFst _) fun _ => keeps_pure
  | setFrequencyUserspace f => exact keeps_bind (hset f rfl) fun _ => keeps_pure
  | setHighestFrequencyUserspace => exact keeps_bind (hpicked _ rfl) fun _ => keeps_pure
  | setLowestFrequencyUserspace => exact keeps_bind (hpicked _ rfl) fun _ => keeps_pure
  | setGovernorBounds lowerBound upperBound =>
    intro s hs
    by_cases haccepts : s.1.AcceptsBounds lowerBound upperBound
    · have hrun : (call g (.setGovernorBounds lowerBound upperBound)).run s =
          .ok (.result true) (s.1, told setMax (told setMin s.2 lowerBound) upperBound) :=
        if_pos haccepts
      rw [hrun]
      exact (told_keeps (fun f => (hbounds rfl _ f).2) _).trans
        ((told_keeps (fun f => (hbounds rfl _ f).1) _).trans hs)
    · have hrun : (call g (.setGovernorBounds lowerBound upperBound)).run s =
          .ok (.result false) s := if_neg haccepts
      rw [hrun]
      exact hs
  | setGovernor governor =>
    intro s hs
    by_cases hmem : governor ∈ s.1.availableGovernors
    · have hrun : (call g (.setGovernor governor)).run s = .ok (.result true)
          (s.1, s.2.setGovernor (enumStrings[governor.toUInt32.toNat]?.getD "")) := if_pos hmem
      rw [hrun]
      exact (hgovernor rfl _ _).trans hs
    · have hrun : (call g (.setGovernor governor)).run s = .ok (.result false) s := if_neg hmem
      rw [hrun]
      exact hs
  | _ => exact fun s hs => hs

end KernelPolicy

/-- A call on a domain, on its policy. -/
theorem onPolicies_call_run {i : ℕ} {d : DomainLinux} (hd : s.1[i]? = some d) (c : DomainCall) :
    (onPolicies policy g (.call i c)).run s = mapState
      (fun t => (s.1.set i t.1, Function.update s.2 (policy i) t.2))
      ((KernelPolicy.call g c).run (d, s.2 (policy i))) := by
  show (onDomain i _).run s = _
  rw [onDomain_run_of_some hd, onPolicy_run]
  cases (KernelPolicy.call g c).run (d, s.2 (policy i)) <;> rfl

theorem onPolicies_call_none {i : ℕ} (hd : s.1[i]? = none) (c : DomainCall) :
    (onPolicies policy g (.call i c)).run s = .error .outOfRange s :=
  onDomain_run_of_none hd _

section Lasts

variable {β : Type} {attr : KernelPolicy → β} {sets : DomainCall → Bool} {j : π}

/-- An event that spares what `attr` shows of a policy leaves it. -/
theorem exec_spares {e : PolicyEvent π} (he : e.Spares policy j sets attr)
    (hcall : ∀ c b, sets c = false →
      Keeps (fun t : DomainLinux × KernelPolicy => attr t.2 = b) (KernelPolicy.call g c)) :
    attr ((final ((onPolicies policy g e).run s)).2 j) = attr (s.2 j) := by
  cases e with
  | change k f =>
    show attr (Function.update s.2 k (f (s.2 k)) j) = _
    by_cases hk : j = k
    · subst hk
      rw [Function.update_self]
      exact he rfl _
    · rw [Function.update_of_ne hk]
  | call i c =>
    cases hd : s.1[i]? with
    | none => rw [onPolicies_call_none hd, final_error]
    | some d =>
      rw [onPolicies_call_run hd, final_mapState]
      show attr (Function.update s.2 (policy i) _ j) = _
      by_cases hj : j = policy i
      · subst hj
        rw [Function.update_self]
        exact after_of_keeps (hcall c (attr (s.2 (policy i))) (he rfl))
          (show attr (d, s.2 (policy i)).2 = _ from rfl)
      · rw [Function.update_of_ne hj]

theorem trace_spares {events : List (PolicyEvent π)}
    (hspares : ∀ e ∈ events, e.Spares policy j sets attr)
    (hcall : ∀ c b, sets c = false →
      Keeps (fun t : DomainLinux × KernelPolicy => attr t.2 = b) (KernelPolicy.call g c)) :
    attr ((trace (onPolicies policy g) s events).2.2 j) = attr (s.2 j) := by
  induction events generalizing s with
  | nil => rfl
  | cons e events ih =>
    rw [List.forall_mem_cons] at hspares
    exact (ih hspares.2).trans (exec_spares hspares.1 hcall)

theorem exec_length (e : PolicyEvent π) :
    (final ((onPolicies policy g e).run s)).1.length = s.1.length := by
  cases e with
  | change k f => rfl
  | call i c =>
    cases hd : s.1[i]? with
    | none => rw [onPolicies_call_none hd, final_error]
    | some d =>
      rw [onPolicies_call_run hd, final_mapState]
      exact List.length_set

/-- What a call sets for a domain is what a later one finds, when the events in between spare it. -/
theorem finds_later {i : ℕ} {d : DomainLinux} {set get : DomainCall} {v w : Value}
    {p : KernelPolicy} {later : List (PolicyEvent π)} (h : Placed policyOf policy s)
    (hd : s.1[i]? = some d)
    (hset : ∃ d', (KernelPolicy.call g set).run (d, s.2 (policy i)) = .ok v (d', p))
    (hspares : ∀ e ∈ later, e.Spares policy (policy i) sets attr)
    (hcall : ∀ c b, sets c = false →
      Keeps (fun t : DomainLinux × KernelPolicy => attr t.2 = b) (KernelPolicy.call g c))
    (hget : ∀ (d' : DomainLinux) (q : KernelPolicy), attr q = attr p →
      (KernelPolicy.call g get).run (d', q) = .ok w (d', q)) :
    outcome ((onFiles policyOf g f₀ (.call i get)).run
      (trace (onFiles policyOf g f₀) s (.call i set :: later)).2) = .ok w := by
  obtain ⟨d', hset⟩ := hset
  have hplaced : Placed policyOf policy
      (trace (onFiles policyOf g f₀) s (.call i set :: later)).2 :=
    trace_invariant (fun _ e ht => ht.exec e) h _
  rw [trace_onPolicies h] at hplaced ⊢
  have hlength : (trace (onPolicies policy g) s (.call i set :: later)).2.1.length = s.1.length :=
    trace_invariant (I := fun t : CpuFreqLinux (π → KernelPolicy) => t.1.length = s.1.length)
      (fun _ e ht => (exec_length e).trans ht) rfl _
  obtain ⟨d'', hd''⟩ : ∃ d'',
      (trace (onPolicies policy g) s (.call i set :: later)).2.1[i]? = some d'' := by
    have hlt : i < s.1.length := (List.getElem?_eq_some_iff.mp hd).1
    exact ⟨_, List.getElem?_eq_getElem (by omega)⟩
  have hattr : attr ((trace (onPolicies policy g) s (.call i set :: later)).2.2 (policy i)) =
      attr p := by
    refine (trace_spares hspares hcall).trans ?_
    rw [onPolicies_call_run hd, hset, mapState_ok, final_ok]
    show attr (Function.update s.2 (policy i) p (policy i)) = _
    rw [Function.update_self]
  rw [exec_agrees hplaced, onPolicies_call_run hd'', hget d'' _ hattr, mapState_ok, outcome_ok]

end Lasts

/-- What a call returns on the files it returns on the policy. -/
theorem outcome_call {i : ℕ} {d : DomainLinux} {c : DomainCall} (h : Placed policyOf policy s)
    (hd : s.1[i]? = some d) :
    outcome ((onFiles policyOf g f₀ (.call i c)).run s) =
      outcome ((KernelPolicy.call g c).run (d, s.2 (policy i))) := by
  rw [exec_agrees h, onPolicies_call_run hd, outcome_mapState]

/-- A call that returned a value was made on a domain. -/
theorem domain_of_outcome {i : ℕ} {c : DomainCall} {v : Value} (h : Placed policyOf policy s)
    (hv : outcome ((onFiles policyOf g f₀ (.call i c)).run s) = .ok v) :
    ∃ d, s.1[i]? = some d ∧ d.OnPolicy policyOf (policy i) ∧
      outcome ((KernelPolicy.call g c).run (d, s.2 (policy i))) = .ok v := by
  cases hd : s.1[i]? with
  | some d => exact ⟨d, rfl, h i d hd, (outcome_call h hd).symm.trans hv⟩
  | none =>
    rw [exec_agrees h, onPolicies_call_none hd] at hv
    cases hv

section Sets

variable {i : ℕ} {later : List (PolicyEvent π)}

theorem governor_lasts (h : Placed policyOf policy s) {governor : Governor}
    (hset : outcome ((onFiles policyOf g f₀ (.call i (.setGovernor governor))).run s) =
      .ok (.result true))
    (hname : enumStrings[governor.toUInt32.toNat]?.getD "" ∈ (s.2 (policy i)).governors)
    (hspares : ∀ e ∈ later, e.Spares policy (policy i) DomainCall.setsGovernor (·.governor)) :
    outcome ((onFiles policyOf g f₀ (.call i .getCurrentGovernor)).run
      (trace (onFiles policyOf g f₀) s (.call i (.setGovernor governor) :: later)).2) =
      .ok (.governor governor) := by
  obtain ⟨d, hd, hplaced, hset⟩ := domain_of_outcome h hset
  have hmem : governor ∈ d.availableGovernors := by
    by_contra hnot
    have hrun : (KernelPolicy.call g (.setGovernor governor)).run (d, s.2 (policy i)) =
        .ok (.result false) (d, s.2 (policy i)) := if_neg hnot
    rw [hrun] at hset
    cases hset
  have hnamed : governor ≠ GOVERNOR_NUM := fun hnum => hplaced.governors_named (hnum ▸ hmem)
  refine finds_later h hd ⟨d, if_pos hmem⟩ hspares (fun c b hc => ?_) fun d' q hq => ?_
  · exact KernelPolicy.call_keeps g c (fun _ p f => p.setSpeed_governor f)
      (fun htrue => absurd (hc.symm.trans htrue) (by decide)) fun _ p f => ⟨rfl, rfl⟩
  · have hgovernor : q.governor = enumStrings[governor.toUInt32.toNat]?.getD "" :=
      hq.trans (KernelPolicy.setGovernor_governor hname)
    have hfound : q.governorOf g = governor := by
      rw [KernelPolicy.governorOf, hgovernor]
      cases governor with
      | GOVERNOR_NUM => exact absurd rfl hnamed
      | _ => rfl
    show EStateM.Result.ok (Value.governor (q.governorOf g)) (d', q) = _
    rw [hfound]

theorem bounds_last (h : Placed policyOf policy s) {lowerBound upperBound : Frequency}
    (hset : outcome ((onFiles policyOf g f₀ (.call i (.setGovernorBounds lowerBound
      upperBound))).run s) = .ok (.result true))
    (hupper : upperBound.toNat < 2 ^ 31) (hlower : lowerBound ≤ (s.2 (policy i)).maxFreq)
    (hspares : ∀ e ∈ later, e.Spares policy (policy i) DomainCall.setsBounds (·.toPolicy)) :
    outcome ((onFiles policyOf g f₀ (.call i .getCurrentGovernorBounds)).run
      (trace (onFiles policyOf g f₀) s
        (.call i (.setGovernorBounds lowerBound upperBound) :: later)).2) =
      .ok (.bounds (some (lowerBound, upperBound))) := by
  obtain ⟨d, hd, -, hset⟩ := domain_of_outcome h hset
  have haccepts : d.AcceptsBounds lowerBound upperBound := by
    by_contra hnot
    have hrun : (KernelPolicy.call g (.setGovernorBounds lowerBound upperBound)).run
        (d, s.2 (policy i)) = .ok (.result false) (d, s.2 (policy i)) := if_neg hnot
    rw [hrun] at hset
    cases hset
  refine finds_later h hd ⟨d, if_pos haccepts⟩ hspares (fun c b hc => ?_) fun d' q hq => ?_
  · exact KernelPolicy.call_keeps g c (fun _ p f => p.setSpeed_toPolicy f)
      (fun _ p name => p.setGovernor_toPolicy name)
      fun htrue => absurd (hc.symm.trans htrue) (by decide)
  · have hbounds := hq.trans (KernelPolicy.told_bounds haccepts.2.2 hupper hlower)
    show EStateM.Result.ok (Value.bounds (some (q.toPolicy.minFreq, q.toPolicy.maxFreq)))
      (d', q) = _
    rw [hbounds]

/-- What decides how fast the virtual cores of a policy run under `userspace`. -/
def KernelPolicy.request (p : KernelPolicy) : String × Frequency × Policy :=
  (p.governor, p.speed, p.toPolicy)

theorem call_keeps_request {c : DomainCall} (hc : (c.setsSpeed || c.setsBounds) = false)
    (b : String × Frequency × Policy) :
    Keeps (fun t : DomainLinux × KernelPolicy => t.2.request = b) (KernelPolicy.call g c) := by
  obtain ⟨hspeed, hbounds⟩ := Bool.or_eq_false_iff.mp hc
  have hgovernor : c.setsGovernor = false := by
    cases c with
    | setGovernor governor => cases hspeed
    | _ => rfl
  exact @KernelPolicy.call_keeps _ KernelPolicy.request b g c
    (fun htrue => absurd (hspeed.symm.trans htrue) Bool.false_ne_true)
    (fun htrue => absurd (hgovernor.symm.trans htrue) Bool.false_ne_true)
    fun htrue => absurd (hbounds.symm.trans htrue) Bool.false_ne_true

theorem frequency_lasts (h : Placed policyOf policy s) {f : Frequency}
    (hset : outcome ((onFiles policyOf g f₀ (.call i (.setFrequencyUserspace f))).run s) =
      .ok (.result true))
    (hsmall : f.toNat < 2 ^ 31) (huser : (s.2 (policy i)).governor = "userspace")
    (hmin : (s.2 (policy i)).minFreq ≤ f) (hmax : f ≤ (s.2 (policy i)).maxFreq)
    (hspares : ∀ e ∈ later, e.Spares policy (policy i) (fun c => c.setsSpeed || c.setsBounds)
      KernelPolicy.request)
    {get : DomainCall}
    (hget : get ∈ [DomainCall.getCurrentFrequencyUserspace, .getCurrentFrequency]) :
    outcome ((onFiles policyOf g f₀ (.call i get)).run
      (trace (onFiles policyOf g f₀) s (.call i (.setFrequencyUserspace f) :: later)).2) =
      .ok (.frequency f) := by
  obtain ⟨d, hd, -, hset⟩ := domain_of_outcome h hset
  have haccepts : (s.2 (policy i)).governorOf g = GOVERNOR_USERSPACE ∧
      f ∈ d.availableFrequencies := by
    by_contra hnot
    have hrun : (KernelPolicy.setFrequencyUserspace g f).run (d, s.2 (policy i)) =
        .ok false (d, s.2 (policy i)) := if_neg hnot
    simp only [KernelPolicy.call, EStateM.run_bind, hrun] at hset
    cases hset
  have hcall : (KernelPolicy.call g (.setFrequencyUserspace f)).run (d, s.2 (policy i)) =
      .ok (.result true) (d, { s.2 (policy i) with speed := f }) := by
    have hrun : (KernelPolicy.setFrequencyUserspace g f).run (d, s.2 (policy i)) =
        .ok true (d, KernelPolicy.told KernelPolicy.setSpeed (s.2 (policy i)) f) :=
      if_pos haccepts
    have htold : KernelPolicy.told KernelPolicy.setSpeed (s.2 (policy i)) f =
        { s.2 (policy i) with speed := f } := by
      rw [KernelPolicy.told, if_pos hsmall, KernelPolicy.setSpeed, if_pos huser]
    simp only [KernelPolicy.call, EStateM.run_bind, hrun, htold]
    rfl
  refine finds_later h hd ⟨d, hcall⟩ hspares (fun c b hc => call_keeps_request hc b)
    fun d' q hq => ?_
  simp only [KernelPolicy.request, Prod.mk.injEq] at hq
  obtain ⟨hgovernor, hspeed, hpolicy⟩ := hq
  have hq : q.governor = "userspace" := hgovernor.trans huser
  have hrunning : q.running = f := by
    refine (KernelPolicy.running_of_between hq ?_ ?_).trans hspeed
    · rw [hspeed, hpolicy]
      exact hmin
    · rw [hspeed, hpolicy]
      exact hmax
  rcases List.mem_pair.mp hget with rfl | rfl
  · show EStateM.Result.ok (Value.frequency (if q.governor = "userspace" then q.running else 0))
      (d', q) = _
    rw [if_pos hq, hrunning]
  · show EStateM.Result.ok (Value.frequency q.running) (d', q) = _
    rw [hrunning]

end Sets

/-- A domain of two virtual cores, which share the policy. -/
def sharedDomain : DomainLinux where
  domainIdentifier := 0
  virtualCores := [0, 1]
  availableGovernors := [GOVERNOR_USERSPACE, GOVERNOR_PERFORMANCE]
  availableFrequencies := [1000000, 2000000]
  paths := ["/sys/devices/system/cpu/cpu0/cpufreq/", "/sys/devices/system/cpu/cpu1/cpufreq/"]
  msr := 0
  turboFrequencies := []
  epyc := false

def sharedPolicy : KernelPolicy where
  minFreq := 1000000
  maxFreq := 2000000
  ordered := by decide
  governors := ["userspace", "performance"]
  words := by simp [Utils.isSpace]
  governor := "userspace"
  available := by decide
  speed := 1000000
  hardware := 1000000
  cpuinfoMin := 1000000
  cpuinfoMax := 2000000

theorem sharedDomain_placed :
    Placed (fun _ => ()) (fun _ => ()) ([sharedDomain], fun _ => sharedPolicy) := by
  intro i d hd
  have hd : d ∈ [sharedDomain] := List.mem_of_getElem? hd
  rw [List.mem_singleton.mp hd]
  exact ⟨⟨rfl, by decide, by decide⟩, fun _ _ => rfl⟩

end Mammut.Cpufreq
