import Mammut.Cpufreq.Domain
import Mammut.Kit.Runs

/-! The domains of a machine, from `cpufreq.cpp`: the calls of their clients, and the rollback
points. -/

namespace Mammut.Cpufreq

open Governor Kit.Programs Kit.Runs

variable {σ : Type} (sys : System σ)

/-- A call of a client on a domain. -/
inductive DomainCall
  | removeTurboFrequencies
  | reinsertTurboFrequencies
  | getAvailableFrequencies
  | getAvailableGovernors
  | isGovernorAvailable (governor : Governor)
  | getCurrentFrequency
  | getCurrentFrequencyUserspace
  | getCurrentGovernor
  | setFrequencyUserspace (frequency : Frequency)
  | setHighestFrequencyUserspace
  | setLowestFrequencyUserspace
  | getHardwareFrequencyBounds
  | getCurrentGovernorBounds
  | setGovernorBounds (lowerBound upperBound : Frequency)
  | setGovernor (governor : Governor)
  deriving DecidableEq, Repr

/-- What a call returns. -/
inductive Value
  | unit
  | result (b : Bool)
  | frequencies (fs : List Frequency)
  | governors (gs : List Governor)
  | frequency (f : Frequency)
  | governor (g : Governor)
  /-- `none` for `false`, which leaves the variables of the caller meaningless. -/
  | bounds (bounds : Option (Frequency × Frequency))
  deriving DecidableEq, Repr

namespace DomainLinux

/-- A function of the domain that does not change it. -/
def onSystem {α : Type} (k : DomainLinux → Call σ α) : Call (DomainLinux × σ) α := do
  onSnd (k (← get).1)

/-- The call on a `DomainLinux`. -/
def call : DomainCall → Call (DomainLinux × σ) Value
  | .removeTurboFrequencies => do onFst removeTurboFrequencies; return .unit
  | .reinsertTurboFrequencies => do onFst reinsertTurboFrequencies; return .unit
  | .getAvailableFrequencies => do return .frequencies (← onSystem (return ·.getAvailableFrequencies))
  | .getAvailableGovernors => do return .governors (← onSystem (return ·.getAvailableGovernors))
  | .isGovernorAvailable g => do return .result (← onSystem (return ·.isGovernorAvailable g))
  | .getCurrentFrequency => do return .frequency (← onSystem (·.getCurrentFrequency sys))
  | .getCurrentFrequencyUserspace => do
    return .frequency (← onSystem (·.getCurrentFrequencyUserspace sys))
  | .getCurrentGovernor => do return .governor (← onSystem (·.getCurrentGovernor sys))
  | .setFrequencyUserspace f => do return .result (← onSystem (·.setFrequencyUserspace sys f))
  | .setHighestFrequencyUserspace => do
    return .result (← onSystem (·.setHighestFrequencyUserspace sys))
  | .setLowestFrequencyUserspace => do
    return .result (← onSystem (·.setLowestFrequencyUserspace sys))
  | .getHardwareFrequencyBounds => do
    return .bounds (some (← onSystem (·.getHardwareFrequencyBounds sys)))
  | .getCurrentGovernorBounds => do
    return .bounds (← onSystem (·.getCurrentGovernorBounds sys))
  | .setGovernorBounds lb ub => do return .result (← onSystem (·.setGovernorBounds sys lb ub))
  | .setGovernor g => do return .result (← onSystem (·.setGovernor sys g))

/-- What does not change about a domain. -/
def hardware (d : DomainLinux) : List Governor × List String × Bool :=
  (d.availableGovernors, d.paths, d.epyc)

theorem removeTurboLoop_hardware {h : List Governor × List String × Bool}
    (kept rest : List Frequency) :
    Keeps (fun d : DomainLinux => d.hardware = h) (removeTurboLoop kept rest) := by
  induction rest generalizing kept with
  | nil => exact keeps_pure
  | cons f rest ih =>
    unfold removeTurboLoop
    cases (frequencyToString f).toList[3]? with
    | none => exact keeps_throw
    | some c =>
      by_cases hc : c = '1'
      · simp only [hc, if_true]
        exact keeps_bind (triple_modify fun d hd => hd) fun _ => ih kept
      · simp only [hc, if_false]
        exact ih _

theorem removeTurboFrequencies_hardware {h : List Governor × List String × Bool} :
    Keeps (fun d : DomainLinux => d.hardware = h) removeTurboFrequencies := by
  refine keeps_bind keeps_get fun d => ?_
  by_cases hturbo : d.turboFrequencies = []
  · rw [if_pos hturbo]
    exact removeTurboLoop_hardware [] _
  · rw [if_neg hturbo]
    exact keeps_pure

theorem reinsertTurboFrequencies_hardware {h : List Governor × List String × Bool} :
    Keeps (fun d : DomainLinux => d.hardware = h) reinsertTurboFrequencies :=
  triple_modify fun _ hd => hd

theorem onSystem_keeps {α : Type} {I : DomainLinux → Prop} (k : DomainLinux → Call σ α) :
    Keeps (fun s : DomainLinux × σ => I s.1) (onSystem k) :=
  keeps_bind keeps_get fun s => keeps_onSnd (k s.1)

/-- What the functions keep that move turbo frequencies, every call keeps. -/
theorem call_keeps {I : DomainLinux → Prop} (hremove : Keeps I removeTurboFrequencies)
    (hreinsert : Keeps I reinsertTurboFrequencies) (c : DomainCall) :
    Keeps (fun s : DomainLinux × σ => I s.1) (call sys c) := by
  cases c with
  | removeTurboFrequencies => exact keeps_bind (keeps_onFst hremove) fun _ => keeps_pure
  | reinsertTurboFrequencies => exact keeps_bind (keeps_onFst hreinsert) fun _ => keeps_pure
  | _ => exact keeps_bind (onSystem_keeps (I := I) _) fun _ => keeps_pure

theorem call_hardware {h : List Governor × List String × Bool} (c : DomainCall) :
    Keeps (fun s : DomainLinux × σ => s.1.hardware = h) (call sys c) :=
  call_keeps sys removeTurboFrequencies_hardware reinsertTurboFrequencies_hardware c

end DomainLinux

/-- A `CpuFreqLinux`: its domains, and the system. -/
abbrev CpuFreqLinux (σ : Type) := List DomainLinux × σ

/-- A client makes a call on domain `l.1`, which returns or throws. -/
inductive Step : CpuFreqLinux σ → ℕ × DomainCall → CpuFreqLinux σ → Prop
  | call {domains : List DomainLinux} {s : σ} {i : ℕ} {d : DomainLinux} {c : DomainCall}
      (hd : domains[i]? = some d) :
      Step (domains, s) (i, c)
        (domains.set i (after (DomainLinux.call sys c) (d, s)).1,
          (after (DomainLinux.call sys c) (d, s)).2)

structure RollbackPoint where
  frequencies : List Frequency
  lowerBounds : List Frequency
  upperBounds : List Frequency
  governors : List Governor
  deriving DecidableEq, Repr

namespace CpuFreq

/-- The loop body of `getRollbackPoint`. -/
def savePoint (rp : RollbackPoint) (d : DomainLinux) : Call σ RollbackPoint := do
  let g ← d.getCurrentGovernor sys
  let f ← d.getCurrentFrequencyUserspace sys
  let bounds ← d.getCurrentGovernorBounds sys
  let (lb, ub) := bounds.getD (sys.frequency, sys.frequency)
  return {
    governors := rp.governors ++ [g]
    frequencies := rp.frequencies ++ [f]
    lowerBounds := rp.lowerBounds ++ [lb]
    upperBounds := rp.upperBounds ++ [ub] }

def getRollbackPoint (domains : List DomainLinux) : Call σ RollbackPoint :=
  domains.foldlM (savePoint sys) ⟨[], [], [], []⟩

/-- `getDomains().at(i)`. -/
def domainAt (domains : List DomainLinux) (i : ℕ) : Call σ DomainLinux :=
  match domains[i]? with
  | some d => return d
  | none => throw .outOfRange

/-- An element of a vector of the rollback point, which `[i]` does not check. -/
def element (fs : List Frequency) (i : ℕ) : Call σ Frequency :=
  match fs[i]? with
  | some f => return f
  | none => throw .undefined

/-- The loop body of `rollback`. -/
def restorePoint (domains : List DomainLinux) (rp : RollbackPoint) (g : Governor) (i : ℕ) :
    Call σ Unit := do
  let d ← domainAt domains i
  if !(← d.setGovernor sys g) then
    throw (.runtimeError ("Domain: Impossible to rollback the domain to governor: " ++
      (← getGovernorNameFromGovernor g)))
  if g = GOVERNOR_USERSPACE then
    let f ← element rp.frequencies i
    if !(← d.setFrequencyUserspace sys f) then
      throw (.runtimeError ("Domain: Impossible to rollback the domain to frequency: " ++
        frequencyToString f))
  else
    let lb ← element rp.lowerBounds i
    let ub ← element rp.upperBounds i
    if !(← d.setGovernorBounds sys lb ub) then
      throw (.runtimeError ("Domain: Impossible to rollback the domain to bounds: " ++
        frequencyToString lb ++ " " ++ frequencyToString ub))

def rollback (domains : List DomainLinux) (rp : RollbackPoint) : Call σ Unit :=
  rp.governors.zipIdx.forM fun (g, i) => restorePoint sys domains rp g i

end CpuFreq

end Mammut.Cpufreq
