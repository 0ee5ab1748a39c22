import Mathlib.Data.Int.Notation
import Mathlib.Logic.Function.Basic
import Mammut.Kit.Runs

/-! `Monitor`, from `utils.cpp`: a flag with a condition, on which the threads `T` wait and which
they notify.  A stretch that holds the mutex is one step.  The clock plays no part in the steps;
what `timedWait` makes of it comes last. -/

namespace Mammut.Utils

open Kit.Runs

/-- What a wait on the condition returns. -/
inductive WaitResult
  | success
  | ETIMEDOUT
  deriving DecidableEq, Repr

/-- Where a thread is, in a call of `wait`, or of `timedWait` if it is timed. -/
inductive ThreadState
  | out
  /-- Blocked on the condition, without the mutex. -/
  | waiting (timed : Bool)
  /-- The wait on the condition is over, and the thread has yet to take the mutex again. -/
  | woken (timed : Bool) (rc : WaitResult)
  | returned (timed : Bool) (result : Bool)
  deriving DecidableEq, Repr

/-- The thread is in no call. -/
def ThreadState.Outside : ThreadState → Prop
  | out => True
  | returned _ _ => True
  | _ => False

structure Monitor (T : Type) where
  predicate : Bool
  thread : T → ThreadState

variable {T : Type} [DecidableEq T]

inductive Monitor.Event (T : Type)
  | call (t : T) (timed : Bool)
  /-- The condition wakes the thread, notified or not. -/
  | wake (t : T)
  | timeout (t : T)
  | acquire (t : T)
  /-- `notifyOne` wakes a thread that is waiting, if there is one. -/
  | notifyOne (woken : Option T)
  | notifyAll
  deriving DecidableEq

namespace Monitor

/-- The constructor. -/
def new : Monitor T := ⟨false, fun _ => .out⟩

def setThread (m : Monitor T) (t : T) (state : ThreadState) : Monitor T :=
  { m with thread := Function.update m.thread t state }

/-- The test of the loop of `wait` and `timedWait`, and what follows it up to the next wait on the
condition or to the end of the call. -/
def loop (m : Monitor T) (t : T) (timed : Bool) (rc : WaitResult) : Monitor T :=
  if !m.predicate && rc ≠ .ETIMEDOUT then m.setThread t (.waiting timed)
  else { m with predicate := false }.setThread t (.returned timed (rc = WaitResult.success))

/-- A broadcast. -/
def wakeAll (m : Monitor T) : Monitor T :=
  { m with thread := fun t => match m.thread t with
    | .waiting timed => .woken timed .success
    | state => state }

inductive Step (m : Monitor T) : Event T → Monitor T → Prop
  | call {t : T} {timed : Bool} (hout : (m.thread t).Outside) :
      Step m (.call t timed) (m.loop t timed .success)
  | wake {t : T} {timed : Bool} (hwait : m.thread t = .waiting timed) :
      Step m (.wake t) (m.setThread t (.woken timed .success))
  | timeout {t : T} (hwait : m.thread t = .waiting true) :
      Step m (.timeout t) (m.setThread t (.woken true .ETIMEDOUT))
  | acquire {t : T} {timed : Bool} {rc : WaitResult} (hwoken : m.thread t = .woken timed rc) :
      Step m (.acquire t) (m.loop t timed rc)
  | notifyOne {t : T} {timed : Bool} (hwait : m.thread t = .waiting timed) :
      Step m (.notifyOne (some t))
        ({ m with predicate := true }.setThread t (.woken timed .success))
  | notifyNone (hnone : ∀ t timed, m.thread t ≠ .waiting timed) :
      Step m (.notifyOne none) { m with predicate := true }
  | notifyAll : Step m .notifyAll { m with predicate := true }.wakeAll

/-- A thread that has timed out takes the mutex again when `_predicate` is not set. -/
def Timely (m : Monitor T) : Event T → Prop
  | .acquire t => m.thread t = .woken true .ETIMEDOUT → m.predicate = false
  | _ => True

/-- The thread that the step belongs to, when it is one of a call of `wait` or `timedWait`. -/
def Event.caller : Event T → Option T
  | .call t _ => some t
  | .wake t => some t
  | .timeout t => some t
  | .acquire t => some t
  | _ => none

/-- No notification is lost: the step of a `timedWait` that clears `_predicate` returns `true`. -/
def Delivers (m : Monitor T) (e : Event T) (m' : Monitor T) : Prop :=
  ∀ t result, e.caller = some t → m.predicate = true → m'.predicate = false →
    m'.thread t = .returned true result → result = true

variable {m m' : Monitor T} {e : Event T}

@[simp] theorem setThread_predicate (t : T) (state : ThreadState) :
    (m.setThread t state).predicate = m.predicate := rfl

@[simp] theorem setThread_thread_self (t : T) (state : ThreadState) :
    (m.setThread t state).thread t = state := by simp [setThread]

/-- A call that finds `_predicate` set, when it is not too late. -/
theorem loop_of_set {t : T} {timed : Bool} {rc : WaitResult} (hset : m.predicate = true)
    (hrc : rc ≠ .ETIMEDOUT) :
    m.loop t timed rc = { m with predicate := false }.setThread t (.returned timed true) := by
  cases rc with
  | success => simp [loop, hset]
  | ETIMEDOUT => exact absurd rfl hrc

/-- A call that is too late clears `_predicate` and returns `false`. -/
theorem loop_timedOut (t : T) (timed : Bool) :
    m.loop t timed .ETIMEDOUT =
      { m with predicate := false }.setThread t (.returned timed false) := by
  simp [loop]

theorem Step.delivers (hstep : Step m e m') (htimely : Timely m e) : Delivers m e m' := by
  intro t result hcaller hset hclear hreturned
  cases hstep with
  | call hout =>
    cases hcaller
    rw [loop_of_set hset (by decide), setThread_thread_self] at hreturned
    cases hreturned
    rfl
  | @acquire _ timed rc hwoken =>
    cases hcaller
    cases rc with
    | success =>
      rw [loop_of_set hset (by decide), setThread_thread_self] at hreturned
      cases hreturned
      rfl
    | ETIMEDOUT =>
      cases timed with
      | false => simp [loop] at hreturned
      | true => cases (htimely hwoken).symm.trans hset
  | wake hwait => cases hclear.symm.trans hset
  | timeout hwait => cases hclear.symm.trans hset
  | _ => cases hcaller

/-- A step loses a notification just when it is a thread that timed out, and that takes the mutex
after the notification. -/
theorem Step.delivers_iff (hstep : Step m e m') : Delivers m e m' ↔ Timely m e := by
  refine ⟨fun hdelivers => ?_, hstep.delivers⟩
  cases hstep with
  | @acquire t timed rc hwoken =>
    intro hlate
    cases hwoken.symm.trans hlate
    by_contra hset
    rw [loop_timedOut] at hdelivers
    cases hdelivers t false rfl (Bool.not_eq_false _ ▸ hset) rfl (setThread_thread_self _ _)
  | _ => trivial

/-- In a run no notification is lost just when all the steps are timely. -/
theorem run_delivers_iff {events : List (Event T)} {start m : Monitor T} :
    Run (fun m e m' => Step m e m' ∧ Delivers m e m') start events m ↔
      Run (Guarded Timely Step) start events m :=
  ⟨fun run => run.mono fun _ _ _ h => ⟨h.1.delivers_iff.mp h.2, h.1⟩,
    fun run => run.mono fun _ _ _ h => ⟨h.2, h.2.delivers_iff.mpr h.1⟩⟩

/-- The threads in calls are those of a list, blocked in `wait`. -/
structure Blocked (waiters : List T) (m : Monitor T) : Prop where
  nodup : waiters.Nodup
  waiting : ∀ t ∈ waiters, m.thread t = .waiting false
  outside : ∀ t ∉ waiters, (m.thread t).Outside

/-- What happens when nobody notifies or calls: threads wake up and take the mutex again. -/
def Event.Resumes : Event T → Prop
  | .wake _ => True
  | .acquire _ => True
  | _ => False

/-- No thread can go on. -/
def Stuck (m : Monitor T) : Prop := ∀ t m', ¬ Step m (.acquire t) m'

/-- After a `notifyAll` the waiters have all returned by the time that no thread can go on. -/
def ReleasesAll (waiters : List T) (m : Monitor T) : Prop :=
  ∀ events notified m', Step m .notifyAll notified →
    Run (Guarded (fun _ e => e.Resumes) Step) notified events m' → Stuck m' →
    ∀ t ∈ waiters, (m'.thread t).Outside

/-- The threads that a broadcast has woken. -/
structure Woken (waiters : List T) (m : Monitor T) : Prop where
  nodup : waiters.Nodup
  woken : ∀ t ∈ waiters, m.thread t = .woken false .success
  outside : ∀ t ∉ waiters, (m.thread t).Outside

variable {waiters : List T}

theorem setThread_thread_ne {t u : T} (h : u ≠ t) (state : ThreadState) :
    (m.setThread t state).thread u = m.thread u := by simp [setThread, h]

omit [DecidableEq T] in
theorem wakeAll_thread (m : Monitor T) (t : T) : m.wakeAll.thread t = match m.thread t with
    | .waiting timed => .woken timed .success
    | state => state := rfl

omit [DecidableEq T] in
theorem Blocked.woken (h : Blocked waiters m) :
    Woken waiters ({ m with predicate := true }.wakeAll) where
  nodup := h.nodup
  woken := by
    intro t ht
    rw [wakeAll_thread, h.waiting t ht]
  outside := by
    intro t ht
    have hout := h.outside t ht
    rw [wakeAll_thread]
    show (match m.thread t with
      | .waiting timed => ThreadState.woken timed .success
      | state => state).Outside
    cases hthread : m.thread t with
    | waiting timed =>
      rw [hthread] at hout
      exact hout.elim
    | _ =>
      rw [hthread] at hout
      exact hout

/-- A thread that takes the mutex when `_predicate` is not set waits again. -/
theorem loop_of_clear {t : T} {timed : Bool} (hclear : m.predicate = false) :
    m.loop t timed .success = m.setThread t (.waiting timed) := by
  simp [loop, hclear]

/-- Woken threads take the mutex one after the other, and wait again when `_predicate` is not
set. -/
theorem run_clear {ws : List T} (hnodup : ws.Nodup)
    (hwoken : ∀ t ∈ ws, m.thread t = .woken false .success) (hclear : m.predicate = false) :
    ∃ events m', Run (Guarded (fun _ e => e.Resumes) Step) m events m' ∧
      (∀ t ∈ ws, m'.thread t = .waiting false) ∧ ∀ t ∉ ws, m'.thread t = m.thread t := by
  induction ws generalizing m with
  | nil => exact ⟨[], m, .nil, by simp, fun _ _ => rfl⟩
  | cons w ws ih =>
    obtain ⟨hw, hrest⟩ := List.nodup_cons.mp hnodup
    have hstep : Step m (.acquire w) (m.setThread w (.waiting false)) :=
      loop_of_clear hclear ▸ Step.acquire (hwoken w List.mem_cons_self)
    have hne : ∀ t ∈ ws, t ≠ w := fun t ht heq => hw (heq ▸ ht)
    have hwoken' : ∀ t ∈ ws, (m.setThread w (.waiting false)).thread t =
        .woken false .success := fun t ht => by
      rw [setThread_thread_ne (hne t ht), hwoken t (List.mem_cons_of_mem w ht)]
    obtain ⟨events, m', run, hwaiting, hsame⟩ := ih hrest hwoken' hclear
    have hfirst : Run (Guarded (fun _ e => e.Resumes) Step) m ([] ++ [.acquire w])
        (m.setThread w (.waiting false)) := Run.nil.snoc ⟨trivial, hstep⟩
    refine ⟨_, m', hfirst.append run, List.forall_mem_cons.mpr ⟨?_, hwaiting⟩, fun t ht => ?_⟩
    · rw [hsame w hw, setThread_thread_self]
    · rw [List.mem_cons, not_or] at ht
      rw [hsame t ht.2, setThread_thread_ne ht.1]

/-- The first of the woken threads returns, and the others wait again. -/
theorem Woken.run_rest {w : T} {ws : List T} (h : Woken (w :: ws) m) (hset : m.predicate = true) :
    ∃ events m', Run (Guarded (fun _ e => e.Resumes) Step) m events m' ∧ Stuck m' ∧
      ∀ t ∈ ws, m'.thread t = .waiting false := by
  obtain ⟨hw, hnodup⟩ := List.nodup_cons.mp h.nodup
  have hwoken := h.woken w List.mem_cons_self
  have hreturned : m.loop w false .success =
      { m with predicate := false }.setThread w (.returned false true) :=
    loop_of_set hset (by decide)
  have hstep : Step m (.acquire w)
      ({ m with predicate := false }.setThread w (.returned false true)) :=
    hreturned ▸ Step.acquire hwoken
  have hne : ∀ t ∈ ws, t ≠ w := fun t ht heq => hw (heq ▸ ht)
  have hothers : ∀ t ∈ ws, ({ m with predicate := false }.setThread w
      (.returned false true)).thread t = .woken false .success := fun t ht => by
    rw [setThread_thread_ne (hne t ht)]
    exact h.woken t (List.mem_cons_of_mem w ht)
  obtain ⟨events, m', run, hwaiting, hsame⟩ := run_clear hnodup hothers rfl
  have hfirst : Run (Guarded (fun _ e => e.Resumes) Step) m ([] ++ [.acquire w])
      ({ m with predicate := false }.setThread w (.returned false true)) :=
    Run.nil.snoc ⟨trivial, hstep⟩
  refine ⟨_, m', hfirst.append run, fun t m'' hacquire => ?_, hwaiting⟩
  cases hacquire with
  | acquire hthread =>
    by_cases htw : t = w
    · rw [htw, hsame w hw, setThread_thread_self] at hthread
      cases hthread
    · by_cases hmem : t ∈ ws
      · cases (hwaiting t hmem).symm.trans hthread
      · have hout := h.outside t (by simp [htw, hmem])
        rw [hsame t hmem, setThread_thread_ne htw] at hthread
        rw [show m.thread t = _ from hthread] at hout
        exact hout

/-- The only thread that was woken finds `_predicate` set. -/
theorem Woken.run_one {w : T} (h : Woken [w] m) (hset : m.predicate = true)
    {events : List (Event T)} (run : Run (Guarded (fun _ e => e.Resumes) Step) m events m') :
    (∀ t ≠ w, (m'.thread t).Outside) ∧
      (m'.thread w = .woken false .success ∧ m'.predicate = true ∨
        m'.thread w = .returned false true) := by
  refine run.invariant (fun m => (∀ t ≠ w, (m.thread t).Outside) ∧
    (m.thread w = .woken false .success ∧ m.predicate = true ∨
      m.thread w = .returned false true)) ?_ ?_
  · exact ⟨fun t ht => h.outside t (by simpa using ht), .inl ⟨h.woken w (by simp), hset⟩⟩
  · rintro a e b ⟨hothers, hw⟩ ⟨hresumes, hstep⟩
    -- the others are in no call, so it is this thread that resumes
    have honly {t : T} {state : ThreadState} (hthread : a.thread t = state)
        (hin : ¬ state.Outside) : t = w := by
      by_contra hne
      exact hin (hthread ▸ hothers t hne)
    cases hstep with
    | wake hwait =>
      cases honly hwait id
      rcases hw with ⟨hwoken, -⟩ | hreturned
      · cases hwait.symm.trans hwoken
      · cases hwait.symm.trans hreturned
    | acquire hthread =>
      cases honly hthread id
      rcases hw with ⟨hwoken, hset⟩ | hreturned
      · cases hthread.symm.trans hwoken
        rw [loop_of_set hset (by decide)]
        refine ⟨fun t ht => ?_, .inr (setThread_thread_self _ _)⟩
        rw [setThread_thread_ne ht]
        exact hothers t ht
      · cases hthread.symm.trans hreturned
    | _ => exact absurd hresumes id

/-- A `notifyAll` releases all of the threads that are blocked in `wait` exactly when there is at
most one: the first to take the mutex clears `_predicate`, and the others find it so. -/
theorem releasesAll_iff (h : Blocked waiters m) :
    ReleasesAll waiters m ↔ waiters.length ≤ 1 := by
  constructor
  · intro hreleases
    rcases waiters with _ | ⟨w, _ | ⟨v, ws⟩⟩
    · exact Nat.zero_le 1
    · exact Nat.le_refl 1
    · obtain ⟨events, m', run, hstuck, hwaiting⟩ := h.woken.run_rest rfl
      have hout := hreleases events _ m' .notifyAll run hstuck v (by simp)
      rw [hwaiting v List.mem_cons_self] at hout
      exact hout.elim
  · intro hlength events notified m' hnotify run hstuck t ht
    cases hnotify
    rcases waiters with _ | ⟨w, _ | ⟨v, ws⟩⟩
    · exact absurd ht List.not_mem_nil
    · rw [List.mem_singleton] at ht
      rcases (h.woken.run_one rfl run).2 with ⟨hwoken, -⟩ | hreturned
      · exact absurd (Step.acquire hwoken) (hstuck w _)
      · rw [ht, hreturned]
        trivial
    · simp at hlength

/-- All of the threads are blocked in `wait`. -/
def allWaiting : Monitor T := ⟨false, fun _ => .waiting false⟩

omit [DecidableEq T] in
theorem allWaiting_blocked (hnodup : waiters.Nodup) (hall : ∀ t, t ∈ waiters) :
    Blocked waiters allWaiting :=
  ⟨hnodup, fun _ _ => rfl, fun t ht => absurd (hall t) ht⟩

/-- The only thread that waits is released. -/
theorem releasesAll_one : ReleasesAll [()] allWaiting :=
  have hblocked : Blocked [()] allWaiting :=
    allWaiting_blocked (by decide) fun _ => List.mem_singleton_self ()
  (releasesAll_iff hblocked).mpr (by decide)

/-- Of two threads that wait, one is still blocked when no thread can go on. -/
theorem not_releasesAll_two : ¬ ReleasesAll [false, true] allWaiting := by
  intro hreleases
  have hblocked : Blocked [false, true] allWaiting :=
    allWaiting_blocked (by decide) fun t => by cases t <;> decide
  obtain ⟨events, m', run, hstuck, hwaiting⟩ := hblocked.woken.run_rest rfl
  have hout := hreleases events _ m' .notifyAll run hstuck true (by decide)
  rw [hwaiting true (by decide)] at hout
  exact hout

end Monitor

def MAMMUT_NANOSECS_IN_MSEC : ℤ := 1000000
def MAMMUT_NANOSECS_IN_SEC : ℤ := 1000000000
def MAMMUT_MILLISECS_IN_SEC : ℤ := 1000

/-- A `struct timeval`, as `gettimeofday` fills it. -/
structure Timeval where
  tv_sec : ℤ
  tv_usec : ℤ
  nonneg : 0 ≤ tv_usec
  lt : tv_usec < 1000000

structure Timespec where
  tv_sec : ℤ
  tv_nsec : ℤ
  deriving DecidableEq, Repr

def Timeval.nanoseconds (now : Timeval) : ℤ := now.tv_sec * 1000000000 + now.tv_usec * 1000

def Timespec.nanoseconds (delay : Timespec) : ℤ := delay.tv_sec * 1000000000 + delay.tv_nsec

/-- The time until which `timedWait` waits. -/
def Monitor.deadline (now : Timeval) (milliSeconds : ℤ) : Timespec :=
  let delay : Timespec := ⟨now.tv_sec + milliSeconds.tdiv MAMMUT_MILLISECS_IN_SEC,
    now.tv_usec * 1000 + milliSeconds.tmod MAMMUT_MILLISECS_IN_SEC * MAMMUT_NANOSECS_IN_MSEC⟩
  if delay.tv_nsec ≥ MAMMUT_NANOSECS_IN_SEC then
    ⟨delay.tv_sec + 1, delay.tv_nsec - MAMMUT_NANOSECS_IN_SEC⟩
  else delay

theorem Monitor.deadline_exact (now : Timeval) {milliSeconds : ℤ} (h : 0 ≤ milliSeconds) :
    (deadline now milliSeconds).nanoseconds = now.nanoseconds + milliSeconds * 1000000 ∧
      0 ≤ (deadline now milliSeconds).tv_nsec ∧
      (deadline now milliSeconds).tv_nsec < 1000000000 := by
  obtain ⟨sec, usec, hnonneg, hlt⟩ := now
  have hdiv : milliSeconds.tdiv 1000 = milliSeconds / 1000 := Int.tdiv_eq_ediv_of_nonneg h
  have hmod : milliSeconds.tmod 1000 = milliSeconds % 1000 := Int.tmod_eq_emod_of_nonneg h
  simp only [deadline, MAMMUT_NANOSECS_IN_SEC, MAMMUT_MILLISECS_IN_SEC, MAMMUT_NANOSECS_IN_MSEC,
    hdiv, hmod, Timeval.nanoseconds, Timespec.nanoseconds]
  split
  · simp only
    omega
  · simp only
    omega

end Mammut.Utils
