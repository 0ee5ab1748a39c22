import Mathlib.Data.List.Basic
import Mammut.Utils.Monitor

/-! The thread that maximizes the utilization of a virtual core: `Thread`, from `utils.cpp`, and the
calls of `VirtualCoreLinux` on it, from `topology-linux.cpp`.  The caller and the threads that it
starts take their steps in any order. -/

set_option linter.dupNamespace false

namespace Mammut.Topology

open Kit.Runs Utils

/-- Where an operating system thread is in `threadDispatcher`. -/
inductive Dispatcher
  /-- Before `_pidSet.notifyAll()`. -/
  | created
  /-- Before `_running = true`. -/
  | notified
  /-- In `run()`. -/
  | running
  /-- In `run()`, which has seen that it has to stop. -/
  | leaving
  /-- Before `_running = false`. -/
  | finished
  | ended
  deriving DecidableEq, Repr

/-- `run()` has returned. -/
def Dispatcher.RunReturned : Dispatcher → Prop
  | finished => True
  | ended => True
  | _ => False

/-- The thread has yet to set `_running`. -/
def Dispatcher.Unset : Dispatcher → Prop
  | created => True
  | notified => True
  | _ => False

/-- The thread has set `_running`, and has yet to clear it. -/
def Dispatcher.HasSet : Dispatcher → Prop
  | running => True
  | leaving => True
  | finished => True
  | _ => False

theorem Dispatcher.unset_or_set (pc : Dispatcher) : pc.Unset ∨ pc.HasSet ∨ pc = .ended := by
  cases pc <;> simp [Unset, HasSet]

/-- The calls that the caller makes. -/
inductive UtilizationCall
  | start
  | join
  | maximizeUtilization
  | resetUtilization
  deriving DecidableEq, Repr

/-- Where the caller is.  A `resetUtilization` is nested when `maximizeUtilization` calls it. -/
inductive Caller
  | idle
  /-- `if(_utilizationThread->running())` of `maximizeUtilization`. -/
  | maximizeTest
  /-- `if(_utilizationThread->running())` of `resetUtilization`. -/
  | resetTest (nested : Bool)
  /-- `setStop(true)`. -/
  | stopping (nested : Bool)
  /-- `pthread_join`, in `resetUtilization` or in a `join` of its own. -/
  | joining (reset : Option Bool)
  | resetReturns (nested : Bool)
  /-- `setStop(false)`. -/
  | restarting
  /-- `if(!_running)` of `start`. -/
  | startTest
  /-- `pthread_create`. -/
  | creating
  /-- `_pidSet.wait()`. -/
  | waiting
  deriving DecidableEq, Repr

def UtilizationCall.entry : UtilizationCall → Caller
  | start => .startTest
  | join => .joining none
  | maximizeUtilization => .maximizeTest
  | resetUtilization => .resetTest false

/-- A `SpinnerThread`, the operating system threads that have been created for it, the last of which
`_thread` is about, and its caller. -/
structure Spinner where
  running : Bool
  stop : Bool
  pidSet : Monitor Unit
  threads : List Dispatcher
  /-- `_thread` has not been joined. -/
  joinable : Bool
  caller : Caller

namespace Spinner

/-- The constructor. -/
def new : Spinner := ⟨false, false, .new, [], false, .idle⟩

/-- The next statement of the caller, but for `_pidSet.wait()`. -/
def callerStep (s : Spinner) : Option Spinner :=
  match s.caller with
  | .idle => none
  | .maximizeTest =>
    some { s with caller := if s.running then .resetTest true else .restarting }
  | .resetTest nested =>
    some { s with caller := if s.running then .stopping nested else .resetReturns nested }
  | .stopping nested => some { s with stop := true, caller := .joining (some nested) }
  | .joining reset =>
    if s.joinable ∧ s.threads.getLast? = some .ended then
      some { s with joinable := false, caller := reset.elim .idle .resetReturns }
    else none
  | .resetReturns nested => some { s with caller := if nested then .restarting else .idle }
  | .restarting => some { s with stop := false, caller := .startTest }
  -- a `start` that finds `_running` set throws
  | .startTest => some { s with caller := if s.running then .idle else .creating }
  | .creating =>
    some { s with threads := s.threads ++ [.created], joinable := true, caller := .waiting }
  | .waiting => none

variable (returns : Bool → Bool)

/-- The next statement of a thread.  Whether `run()` may return depends on what it reads from
`_stop`: that of a spinner returns when it reads `true`. -/
def threadStep (s : Spinner) (i : ℕ) : Dispatcher → Option Spinner
  | .created => some { s with
      threads := s.threads.set i .notified
      pidSet := { s.pidSet with predicate := true }.wakeAll }
  | .notified => some { s with threads := s.threads.set i .running, running := true }
  | .running => if returns s.stop then some { s with threads := s.threads.set i .leaving } else none
  | .leaving => some { s with threads := s.threads.set i .finished }
  | .finished => some { s with threads := s.threads.set i .ended, running := false }
  | .ended => none

inductive Label
  | call (c : UtilizationCall)
  | caller
  /-- `pthread_create` fails, and `start` throws. -/
  | createFails
  | wait (e : Monitor.Event Unit)
  | thread (i : ℕ)

inductive Step (s : Spinner) : Label → Spinner → Prop
  | call {c : UtilizationCall} (hidle : s.caller = .idle) :
      Step s (.call c) { s with caller := c.entry }
  | caller {s' : Spinner} (hstep : s.callerStep = some s') : Step s .caller s'
  | createFails (hcreating : s.caller = .creating) : Step s .createFails { s with caller := .idle }
  | wait {e : Monitor.Event Unit} {m : Monitor Unit} (hwaiting : s.caller = .waiting)
      (hcaller : e.caller = some ()) (huntimed : e ≠ .call () true)
      (hstep : Monitor.Step s.pidSet e m) :
      Step s (.wait e) { s with
        pidSet := m
        caller := if m.thread () = .returned false true then .idle else .waiting }
  | thread {i : ℕ} {pc : Dispatcher} {s' : Spinner} (hpc : s.threads[i]? = some pc)
      (hstep : s.threadStep returns i pc = some s') : Step s (.thread i) s'

/-- The call of `start` that created the thread has returned. -/
def Started (s : Spinner) (i : ℕ) : Prop :=
  i < s.threads.length ∧ ¬(s.caller = .waiting ∧ i + 1 = s.threads.length)

/-- What `running` is for. -/
structure Safe (s : Spinner) : Prop where
  /-- From the return of `start` to the return of `run`, `running` is true. -/
  running : ∀ i pc, s.Started i → s.threads[i]? = some pc → ¬pc.RunReturned → s.running = true
  /-- `start` creates no thread while the `run` of another has not returned. -/
  alone : s.caller = .creating → ∀ pc ∈ s.threads, pc.RunReturned
  /-- When `resetUtilization` returns, no spinner is running. -/
  reset : ∀ nested, s.caller = .resetReturns nested → ∀ pc ∈ s.threads, pc.RunReturned

/-- When the wait of `start` ends, the thread that it has created has set `_running`. -/
def Prompt (s : Spinner) : Label → Prop
  | .wait e => ∀ m, Monitor.Step s.pidSet e m → m.thread () = .returned false true →
      ∀ pc ∈ s.threads.getLast?, ¬pc.Unset
  | _ => True

/-- The invariant of the runs whose steps are prompt. -/
structure Inv (s : Spinner) : Prop where
  newest : ∀ i pc, s.threads[i]? = some pc → pc ≠ .ended → i + 1 = s.threads.length
  flag : s.running = true ↔ ∃ pc ∈ s.threads, pc.HasSet
  starting : ∀ pc ∈ s.threads, pc.Unset → s.caller = .waiting
  quiet : (s.caller = .creating ∨ ∃ nested, s.caller = .resetReturns nested) →
    ∀ pc ∈ s.threads, pc = .ended

variable {returns} {s t : Spinner} {l : Label}

/-- A thread that has not ended is the last. -/
theorem Inv.last (h : Inv s) {pc : Dispatcher} (hpc : pc ∈ s.threads) (hne : pc ≠ .ended) :
    s.threads.getLast? = some pc := by
  obtain ⟨i, hi⟩ := List.getElem?_of_mem hpc
  rw [List.getLast?_eq_getElem?, ← h.newest i pc hi hne]
  exact hi

theorem Inv.running_iff (h : Inv s) {pc : Dispatcher} (hpc : pc ∈ s.threads) (hne : pc ≠ .ended) :
    s.running = true ↔ pc.HasSet := by
  refine h.flag.trans ⟨?_, fun hset => ⟨pc, hpc, hset⟩⟩
  rintro ⟨q, hq, hset⟩
  have hlast := h.last hq (by rintro rfl; exact hset)
  rw [h.last hpc hne] at hlast
  rwa [Option.some.inj hlast]

/-- Outside `start` every thread has ended, when `running` is false. -/
theorem Inv.all_ended (h : Inv s) (hrunning : s.running = false) (hcaller : s.caller ≠ .waiting) :
    ∀ pc ∈ s.threads, pc = .ended := by
  intro pc hpc
  rcases pc.unset_or_set with hunset | hset | hended
  · exact absurd (h.starting pc hpc hunset) hcaller
  · rw [h.flag.mpr ⟨pc, hpc, hset⟩] at hrunning
    contradiction
  · exact hended

theorem Inv.go (h : Inv s) (hthreads : t.threads = s.threads) (hrunning : t.running = s.running)
    (hstarting : (∃ pc ∈ s.threads, pc.Unset) → t.caller = .waiting)
    (hquiet : (t.caller = .creating ∨ ∃ nested, t.caller = .resetReturns nested) →
      ∀ pc ∈ s.threads, pc = .ended) : Inv t where
  newest := by rw [hthreads]; exact h.newest
  flag := by rw [hthreads, hrunning]; exact h.flag
  starting := by
    rw [hthreads]
    exact fun pc hpc hunset => hstarting ⟨pc, hpc, hunset⟩
  quiet := by rw [hthreads]; exact hquiet

theorem inv_new : Inv new := by
  constructor <;> simp [new]

theorem Inv.move (h : Inv s) (hcaller : s.caller ≠ .waiting) (hthreads : t.threads = s.threads)
    (hrunning : t.running = s.running)
    (hquiet : (t.caller = .creating ∨ ∃ nested, t.caller = .resetReturns nested) →
      ∀ pc ∈ s.threads, pc = .ended) : Inv t := by
  refine h.go hthreads hrunning ?_ hquiet
  rintro ⟨pc, hpc, hunset⟩
  exact absurd (h.starting pc hpc hunset) hcaller

theorem Inv.callerStep (h : Inv s) (hstep : s.callerStep = some t) : Inv t := by
  unfold Spinner.callerStep at hstep
  cases hcaller : s.caller with
  | idle => simp [hcaller] at hstep
  | maximizeTest =>
    simp only [hcaller, Option.some.injEq] at hstep
    subst hstep
    refine h.move (by simp [hcaller]) rfl rfl ?_
    cases s.running <;> simp
  | resetTest nested =>
    simp only [hcaller, Option.some.injEq] at hstep
    subst hstep
    refine h.move (by simp [hcaller]) rfl rfl ?_
    cases hrunning : s.running with
    | true => simp
    | false => exact fun _ => h.all_ended hrunning (by simp [hcaller])
  | stopping nested =>
    simp only [hcaller, Option.some.injEq] at hstep
    subst hstep
    exact h.move (by simp [hcaller]) rfl rfl (by simp)
  | joining reset =>
    simp only [hcaller] at hstep
    split at hstep
    · rename_i hjoin
      cases hstep
      refine h.move (by simp [hcaller]) rfl rfl fun _ pc hpc => ?_
      by_contra hne
      have hlast := (h.last hpc hne).symm.trans hjoin.2
      exact hne (Option.some.inj hlast)
    · cases hstep
  | resetReturns nested =>
    simp only [hcaller, Option.some.injEq] at hstep
    subst hstep
    refine h.move (by simp [hcaller]) rfl rfl ?_
    cases nested <;> simp
  | restarting =>
    simp only [hcaller, Option.some.injEq] at hstep
    subst hstep
    exact h.move (by simp [hcaller]) rfl rfl (by simp)
  | startTest =>
    simp only [hcaller, Option.some.injEq] at hstep
    subst hstep
    refine h.move (by simp [hcaller]) rfl rfl ?_
    cases hrunning : s.running with
    | true => simp
    | false => exact fun _ => h.all_ended hrunning (by simp [hcaller])
  | creating =>
    simp only [hcaller, Option.some.injEq] at hstep
    subst hstep
    have hended := h.quiet (Or.inl hcaller)
    refine ⟨fun i pc hpc hne => ?_, ?_, fun _ _ _ => rfl, by simp⟩
    · rcases List.mem_append.mp (List.mem_of_getElem? hpc) with hold | hnew
      · exact absurd (hended pc hold) hne
      · by_contra hlast
        have hlt : i < (s.threads ++ [Dispatcher.created]).length :=
          (List.getElem?_eq_some_iff.mp hpc).1
        rw [List.length_append, List.length_singleton] at hlt hlast
        rw [List.getElem?_append_left (by omega)] at hpc
        exact hne (hended pc (List.mem_of_getElem? hpc))
    · simp [h.flag, Dispatcher.HasSet]
  | waiting => simp [hcaller] at hstep

theorem Inv.set (h : Inv s) {i : ℕ} {pc next : Dispatcher} (hpc : s.threads[i]? = some pc)
    (hne : pc ≠ .ended) (hthreads : t.threads = s.threads.set i next)
    (hcaller : t.caller = s.caller)
    (hflag : t.running = true ↔ next.HasSet) (hunset : next.Unset → pc.Unset) : Inv t := by
  have hlast := h.newest i pc hpc hne
  have hlt : i < s.threads.length := by omega
  have hothers : ∀ j q, (s.threads.set i next)[j]? = some q → j = i ∧ q = next ∨ q = .ended := by
    intro j q hq
    by_cases hji : j = i
    · rw [hji, List.getElem?_set_self hlt] at hq
      exact Or.inl ⟨hji, (Option.some.inj hq).symm⟩
    · rw [List.getElem?_set_ne (Ne.symm hji)] at hq
      by_contra hq'
      rw [not_or] at hq'
      have hjlast := h.newest j q hq hq'.2
      omega
  have hmem : ∀ q ∈ s.threads.set i next, q = next ∨ q = .ended := by
    intro q hq
    obtain ⟨j, hj⟩ := List.getElem?_of_mem hq
    exact (hothers j q hj).imp_left And.right
  refine ⟨fun j q hq hq' => ?_, ?_, fun q hq hqunset => ?_, fun hquiet => ?_⟩
  · rw [hthreads] at hq ⊢
    rw [((hothers j q hq).resolve_right hq').1, List.length_set]
    exact hlast
  · rw [hflag, hthreads]
    constructor
    · intro hset
      exact ⟨next, List.mem_of_getElem? (List.getElem?_set_self hlt), hset⟩
    · rintro ⟨q, hq, hset⟩
      rcases hmem q hq with rfl | rfl
      · exact hset
      · exact hset.elim
  · rw [hthreads] at hq
    rcases hmem q hq with rfl | rfl
    · rw [hcaller]
      exact h.starting pc (List.mem_of_getElem? hpc) (hunset hqunset)
    · exact hqunset.elim
  · rw [hcaller] at hquiet
    exact absurd (h.quiet hquiet pc (List.mem_of_getElem? hpc)) hne

theorem Inv.threadStep (h : Inv s) {i : ℕ} {pc : Dispatcher} (hpc : s.threads[i]? = some pc)
    (hstep : s.threadStep returns i pc = some t) : Inv t := by
  have hrunning := h.running_iff (List.mem_of_getElem? hpc)
  cases pc with
  | created =>
    cases hstep
    exact h.set hpc nofun rfl rfl (hrunning nofun) fun _ => trivial
  | notified =>
    cases hstep
    exact h.set hpc nofun rfl rfl (by simp [Dispatcher.HasSet]) nofun
  | running =>
    simp only [Spinner.threadStep] at hstep
    split at hstep
    · cases hstep
      exact h.set hpc nofun rfl rfl (hrunning nofun) nofun
    · cases hstep
  | leaving =>
    cases hstep
    exact h.set hpc nofun rfl rfl (hrunning nofun) nofun
  | finished =>
    cases hstep
    exact h.set hpc nofun rfl rfl (by simp [Dispatcher.HasSet]) nofun
  | ended => cases hstep

theorem Inv.step (h : Inv s) (hprompt : Prompt s l) (hstep : Step returns s l t) : Inv t := by
  cases hstep with
  | @call c hidle =>
    refine h.move (by simp [hidle]) rfl rfl ?_
    cases c <;> simp [UtilizationCall.entry]
  | caller hstep => exact h.callerStep hstep
  | createFails hcreating => exact h.move (by simp [hcreating]) rfl rfl (by simp)
  | @wait e m hwaiting hcaller huntimed hstep =>
    refine h.go rfl rfl ?_ ?_
    · rintro ⟨pc, hpc, hunset⟩
      have hlast := h.last hpc (by rintro rfl; exact hunset)
      have hblocked : m.thread () ≠ .returned false true := fun hreturned =>
        hprompt m hstep hreturned pc hlast hunset
      simp [hblocked]
    · by_cases hreturned : m.thread () = .returned false true <;> simp [hreturned]
  | thread hpc hstep => exact h.threadStep hpc hstep

theorem Inv.safe (h : Inv s) : Safe s where
  running i pc hstarted hpc hreturned := by
    have hmem := List.mem_of_getElem? hpc
    rcases pc.unset_or_set with hunset | hset | hended
    · have hlast := h.newest i pc hpc (by rintro rfl; exact hunset)
      exact absurd ⟨h.starting pc hmem hunset, hlast⟩ hstarted.2
    · exact h.flag.mpr ⟨pc, hmem, hset⟩
    · rw [hended] at hreturned
      exact absurd trivial hreturned
  alone hcreating pc hpc := by
    rw [h.quiet (Or.inl hcreating) pc hpc]
    trivial
  reset nested hreturns pc hpc := by
    rw [h.quiet (Or.inr ⟨nested, hreturns⟩) pc hpc]
    trivial

theorem step_deterministic {m m₁ m₂ : Monitor Unit} {e : Monitor.Event Unit}
    (he : e.caller = some ()) (h₁ : Monitor.Step m e m₁) (h₂ : Monitor.Step m e m₂) : m₁ = m₂ := by
  cases h₁ with
  | call _ => cases h₂; rfl
  | wake hwait =>
    cases h₂ with
    | wake hwait' =>
      cases hwait.symm.trans hwait'
      rfl
  | timeout _ => cases h₂; rfl
  | acquire hwoken =>
    cases h₂ with
    | acquire hwoken' =>
      cases hwoken.symm.trans hwoken'
      rfl
  | _ => cases he

/-- A wait that ends too early leaves an unsafe state. -/
theorem Inv.prompt_of_safe (h : Inv s) (hstep : Step returns s l t) (hsafe : Safe t) :
    Prompt s l := by
  cases hstep with
  | @wait e m hwaiting hcaller huntimed hstep =>
    intro m' hstep' hreturned pc hpc hunset
    rw [step_deterministic hcaller hstep' hstep] at hreturned
    have hmem : pc ∈ s.threads := List.mem_of_getLast? hpc
    have hne : pc ≠ .ended := by rintro rfl; exact hunset
    obtain ⟨i, hi⟩ := List.getElem?_of_mem hmem
    have hrunning : s.running = true := by
      apply hsafe.running i pc ⟨(List.getElem?_eq_some_iff.mp hi).1, ?_⟩ hi
      · cases pc <;> simp_all [Dispatcher.Unset, Dispatcher.RunReturned]
      · rintro ⟨hwaits, -⟩
        simp [hreturned] at hwaits
    have hset := (h.running_iff hmem hne).mp hrunning
    cases pc <;> simp_all [Dispatcher.Unset, Dispatcher.HasSet]
  | _ => trivial

/-- The calls that are made in a run. -/
def callsOf (labels : List Label) : List UtilizationCall :=
  labels.filterMap fun
    | .call c => some c
    | _ => none

/-- A thread that runs in `t` ran in `s`. -/
def LeavesNone (s t : Spinner) : Prop := ∀ (i : ℕ) (pc : Dispatcher), t.threads[i]? = some pc →
  pc.RunReturned ∨ ∃ qc : Dispatcher, s.threads[i]? = some qc ∧ ¬qc.RunReturned

/-- The caller is in a `resetUtilization`, or it has returned from it and no spinner runs. -/
def Resetting (s : Spinner) : Prop :=
  match s.caller with
  | .resetTest nested => nested = false
  | .stopping nested => nested = false
  | .joining (some nested) => nested = false
  | .resetReturns nested => nested = false
  | .idle => ∀ pc ∈ s.threads, pc = .ended
  | _ => False

theorem threadStep_caller {i : ℕ} {pc : Dispatcher} (hstep : s.threadStep returns i pc = some t) :
    t.caller = s.caller := by
  cases pc with
  | running =>
    simp only [Spinner.threadStep] at hstep
    split at hstep <;> cases hstep
    rfl
  | _ => cases hstep <;> rfl

/-- What a thread runs next returns, if what it runs does. -/
theorem threadStep_threads {i : ℕ} {pc : Dispatcher} (hstep : s.threadStep returns i pc = some t) :
    ∃ next, t.threads = s.threads.set i next ∧ (pc.RunReturned → next.RunReturned) := by
  cases pc with
  | running =>
    simp only [Spinner.threadStep] at hstep
    split at hstep <;> cases hstep
    exact ⟨_, rfl, id⟩
  | ended => cases hstep
  | finished =>
    cases hstep
    exact ⟨_, rfl, id⟩
  | _ =>
    cases hstep
    exact ⟨_, rfl, False.elim⟩

/-- Without a call, only threads take steps while the caller is idle. -/
theorem leavesNone_step {u : Spinner} (hidle : s.caller = .idle) (hleaves : LeavesNone u s)
    (hcall : ∀ c, l ≠ .call c) (hstep : Step returns s l t) :
    t.caller = .idle ∧ LeavesNone u t := by
  cases hstep with
  | @call c _ => exact absurd rfl (hcall c)
  | caller hstep => simp [callerStep, hidle] at hstep
  | createFails hcreating => simp [hidle] at hcreating
  | wait hwaiting => simp [hidle] at hwaiting
  | @thread i pc _ hpc hstep =>
    refine ⟨(threadStep_caller hstep).trans hidle, fun j qc hqc => ?_⟩
    obtain ⟨next, hthreads, hreturned⟩ := threadStep_threads hstep
    rw [hthreads] at hqc
    by_cases hji : j = i
    · rw [hji, List.getElem?_set_self (List.getElem?_eq_some_iff.mp hpc).1] at hqc
      cases hqc
      rw [hji]
      exact (hleaves i pc hpc).imp_left hreturned
    · rw [List.getElem?_set_ne (Ne.symm hji)] at hqc
      exact hleaves j qc hqc

theorem resetting_step (h : Inv s) (hresetting : Resetting s) (hcall : ∀ c, l ≠ .call c)
    (hstep : Step returns s l t) : Resetting t := by
  cases hstep with
  | @call c _ => exact absurd rfl (hcall c)
  | createFails hcreating => simp [Resetting, hcreating] at hresetting
  | wait hwaiting => simp [Resetting, hwaiting] at hresetting
  | @thread i pc _ hpc hstep =>
    have hcaller := threadStep_caller hstep
    by_cases hidle : s.caller = .idle
    · have hended : ∀ pc ∈ s.threads, pc = .ended := by simpa [Resetting, hidle] using hresetting
      rw [hended pc (List.mem_of_getElem? hpc)] at hstep
      cases hstep
    · unfold Resetting at hresetting ⊢
      rw [hcaller]
      split at hresetting <;> simp_all
  | caller hstep =>
    unfold callerStep at hstep
    cases hcaller : s.caller with
    | resetTest nested =>
      simp only [hcaller, Option.some.injEq] at hstep
      have hnested : nested = false := by simpa [Resetting, hcaller] using hresetting
      subst hstep
      cases s.running <;> simpa [Resetting] using hnested
    | stopping nested =>
      simp only [hcaller, Option.some.injEq] at hstep
      subst hstep
      simpa [Resetting, hcaller] using hresetting
    | joining reset =>
      cases reset with
      | none => simp [Resetting, hcaller] at hresetting
      | some nested =>
        simp only [hcaller] at hstep
        split at hstep <;> cases hstep
        simpa [Resetting, hcaller] using hresetting
    | resetReturns nested =>
      simp only [hcaller, Option.some.injEq] at hstep
      have hnested : nested = false := by simpa [Resetting, hcaller] using hresetting
      subst hstep
      simpa [Resetting, hnested] using h.quiet (Or.inr ⟨nested, hcaller⟩)
    | idle => simp [hcaller] at hstep
    | _ => simp [Resetting, hcaller] at hresetting

/-- A caller whose last call, if it makes any, is `resetUtilization` leaves no spinner running that
was not running before. -/
theorem Inv.leavesNone {labels : List Label} (h : Inv s) (hidle : s.caller = .idle)
    (run : Run (Guarded Prompt (Step returns)) s labels t)
    (hlast : ∀ c ∈ (callsOf labels).getLast?, c = .resetUtilization) (hback : t.caller = .idle) :
    LeavesNone s t := by
  suffices hmain : Inv t ∧ (callsOf labels = [] → t.caller = .idle ∧ LeavesNone s t) ∧
      ((callsOf labels).getLast? = some .resetUtilization → Resetting t) by
    cases hcalls : (callsOf labels).getLast? with
    | none => exact (hmain.2.1 (List.getLast?_eq_none_iff.mp hcalls)).2
    | some c =>
      have hresetting := hmain.2.2 (hcalls.trans (congrArg some (hlast c hcalls)))
      rw [Resetting, hback] at hresetting
      intro i pc hpc
      rw [hresetting pc (List.mem_of_getElem? hpc)]
      exact Or.inl trivial
  clear hlast hback
  induction run with
  | nil =>
    refine ⟨h, fun _ => ⟨hidle, fun i pc hpc => ?_⟩, nofun⟩
    by_cases hreturned : pc.RunReturned
    · exact Or.inl hreturned
    · exact Or.inr ⟨pc, hpc, hreturned⟩
  | @snoc labels t u l _ hstep ih =>
    obtain ⟨hinv, hnone, hreset⟩ := ih
    refine ⟨hinv.step hstep.1 hstep.2, ?_⟩
    by_cases hcall : ∃ c, l = .call c
    · obtain ⟨c, rfl⟩ := hcall
      have hcalls : callsOf (labels ++ [.call c]) = callsOf labels ++ [c] := by simp [callsOf]
      rw [hcalls]
      refine ⟨by simp, fun hc => ?_⟩
      rw [List.getLast?_concat] at hc
      cases hc
      cases hstep.2
      rfl
    · have hother : ∀ c, l ≠ .call c := fun c hc => hcall ⟨c, hc⟩
      have hcalls : callsOf (labels ++ [l]) = callsOf labels := by
        cases l with
        | call c => exact absurd rfl (hother c)
        | _ => simp [callsOf]
      rw [hcalls]
      refine ⟨fun hnil => ?_, fun hc => resetting_step hinv (hreset hc) hother hstep.2⟩
      exact leavesNone_step (hnone hnil).1 (hnone hnil).2 hother hstep.2

/-- In a run, `running` is true from the return of `start` to that of `run`, no thread is created
while another one runs, and no spinner runs when `resetUtilization` returns, just when no wait of
`start` ends before the thread that it has created has set `_running`. -/
theorem run_safe_iff {returns : Bool → Bool} {labels : List Label} {s : Spinner} :
    Run (fun s l t => Step returns s l t ∧ Safe t) new labels s ↔
      Run (Guarded Prompt (Step returns)) new labels s := by
  have hinv {labels : List Label} {s : Spinner}
      (run : Run (Guarded Prompt (Step returns)) new labels s) : Inv s :=
    run.invariant Inv inv_new fun _ _ _ h hstep => h.step hstep.1 hstep.2
  constructor
  · intro run
    induction run with
    | nil => exact .nil
    | snoc _ hstep ih => exact ih.snoc ⟨(hinv ih).prompt_of_safe hstep.1 hstep.2, hstep.1⟩
  · intro run
    induction run with
    | nil => exact .nil
    | snoc run hstep ih =>
      exact ih.snoc ⟨hstep.2, ((hinv run).step hstep.1 hstep.2).safe⟩

/-- A `maximizeUtilization` whose wait ends as soon as the new thread has notified it: the thread
has yet to set `running`. -/
theorem early_run : ∃ labels s, Run (Step id) new labels s ∧ s.caller = .idle ∧ s.running = false ∧
    s.threads = [.notified] := by
  have called : Run (Step id) new _ _ := Run.nil.snoc (.call (c := .maximizeUtilization) rfl)
  have tested : Run (Step id) new _ _ :=
    ((called.snoc (.caller rfl)).snoc (.caller rfl)).snoc (.caller rfl)
  have waiting : Run (Step id) new _ _ :=
    (tested.snoc (.caller rfl)).snoc (.wait (e := .call () false) rfl rfl nofun (.call trivial))
  have notified : Run (Step id) new _ _ := waiting.snoc (.thread (i := 0) rfl rfl)
  have returned : Run (Step id) new _ _ :=
    notified.snoc (.wait (e := .acquire ()) rfl rfl nofun (.acquire rfl))
  exact ⟨_, _, returned, rfl, rfl, rfl⟩

/-- With a wait that ends early `running` is false after `start`, another `maximizeUtilization`
creates a second thread, and `resetUtilization` leaves the spinner running. -/
theorem early_wait_unsafe :
    (∃ labels s, Run (Step id) new labels s ∧ s.Started 0 ∧ s.running = false ∧
      s.threads = [.notified]) ∧
    (∃ labels s, Run (Step id) new labels s ∧ s.threads = [.running, .created]) ∧
    (∃ labels s, Run (Step id) new labels s ∧ s.caller = .resetReturns false ∧
      s.threads = [.running]) ∧
    ¬∀ labels s, Run (Step id) new labels s → Safe s := by
  obtain ⟨labels, ⟨running, stop, pidSet, threads, joinable, caller⟩, run, hcaller, hrunning,
    hthreads⟩ := early_run
  cases hcaller
  cases hrunning
  cases hthreads
  have resets := ((run.snoc (.call (c := .resetUtilization) rfl)).snoc (.caller rfl)).snoc
    (.thread (i := 0) rfl rfl)
  have again := ((((run.snoc (.call (c := .maximizeUtilization) rfl)).snoc (.caller rfl)).snoc
    (.caller rfl)).snoc (.caller rfl)).snoc (.caller rfl)
  refine ⟨⟨_, _, run, ⟨Nat.zero_lt_one, by simp⟩, rfl, rfl⟩,
    ⟨_, _, again.snoc (.thread (i := 0) rfl rfl), rfl⟩, ⟨_, _, resets, rfl, rfl⟩, fun hsafe => ?_⟩
  exact (hsafe _ _ resets).reset false rfl .running (by simp)

end Spinner

end Mammut.Topology
