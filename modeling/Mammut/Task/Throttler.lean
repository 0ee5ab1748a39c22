import Mathlib.Data.Rat.Defs
import Mathlib.Algebra.Order.Ring.Rat
import Mammut.Cxx
import Mammut.Kit.OrdMap
import Mammut.Kit.Runs
import Mammut.Utils.Text

/-! `ThrottlerThread`, from `task-linux.cpp`, and the system it is part of: clients ask it to
throttle processes and processes terminate, at any moment, while its `run` resumes and stops the
throttled ones in turns.  `H` are the process handlers, in the order of their addresses. -/

namespace Mammut.Task

open Kit Utils

/-- `pid_t`. -/
abbrev TaskId := ℤ

inductive Signal
  | SIGCONT
  | SIGSTOP
  deriving DecidableEq, Repr

structure ThrottlerThread (H : Type) [LinearOrder H] where
  run : Bool
  throttlingInterval : ℕ
  processesToAdd : List (H × ℚ)
  processesToRemove : List H
  sumPercentages : ℚ
  throttlingValues : OrdMap H ℚ

variable {H : Type} [LinearOrder H]

namespace ThrottlerThread

def MAMMUT_THROTTLING_INTERVAL_DEFAULT_MICROSECS : ℕ := 100000

/-- The constructor. -/
def new : ThrottlerThread H where
  run := true
  throttlingInterval := MAMMUT_THROTTLING_INTERVAL_DEFAULT_MICROSECS
  processesToAdd := []
  processesToRemove := []
  sumPercentages := 0
  throttlingValues := .empty

def addProcess (t : ThrottlerThread H) (process : H × ℚ) : ThrottlerThread H :=
  match t.throttlingValues.find? process.1 with
  | some _ => { t with throttlingValues := t.throttlingValues.assign process.1 process.2 }
  | none =>
    if t.sumPercentages + process.2 ≤ 100 then
      { t with
        throttlingValues := t.throttlingValues.insert process.1 process.2
        sumPercentages := t.sumPercentages + process.2 }
    else t

def removeProcess (t : ThrottlerThread H) (process : H) : ThrottlerThread H :=
  match t.throttlingValues.find? process with
  | some percentage => { t with
      sumPercentages := t.sumPercentages - percentage
      throttlingValues := t.throttlingValues.erase process }
  | none => t

/-- The requests to add, as `run` handles them. -/
def addProcesses (t : ThrottlerThread H) : ThrottlerThread H :=
  { t.processesToAdd.foldl addProcess t with processesToAdd := [] }

def removeProcesses (t : ThrottlerThread H) : ThrottlerThread H :=
  { t.processesToRemove.foldl removeProcess t with processesToRemove := [] }

/-- The first stretch of an iteration of `run` that holds `_lock`. -/
def drain (t : ThrottlerThread H) : ThrottlerThread H := t.addProcesses.removeProcesses

/-- The second one. -/
def eraseTerminated (t : ThrottlerThread H) (terminated : List H) : ThrottlerThread H :=
  { t with throttlingValues := terminated.foldl OrdMap.erase t.throttlingValues }

def throttle (t : ThrottlerThread H) (process : H) (percentage : ℚ) : Bool × ThrottlerThread H :=
  if t.throttlingValues.find? process = none ∧ t.sumPercentages + percentage > 100 then (false, t)
  else (true, { t with processesToAdd := t.processesToAdd ++ [(process, percentage)] })

def removeThrottling (t : ThrottlerThread H) (process : H) : ThrottlerThread H :=
  { t with processesToRemove := t.processesToRemove ++ [process] }

def setThrottlingInterval (t : ThrottlerThread H) (throttlingInterval : ℕ) : ThrottlerThread H :=
  { t with throttlingInterval := throttlingInterval }

def stop (t : ThrottlerThread H) : ThrottlerThread H := { t with run := false }

variable {t : ThrottlerThread H}

theorem addProcess_requests (process : H × ℚ) :
    (t.addProcess process).processesToAdd = t.processesToAdd ∧
      (t.addProcess process).processesToRemove = t.processesToRemove := by
  unfold addProcess
  split
  · exact ⟨rfl, rfl⟩
  · split <;> exact ⟨rfl, rfl⟩

theorem removeProcess_requests (process : H) :
    (t.removeProcess process).processesToAdd = t.processesToAdd := by
  unfold removeProcess
  split <;> rfl

/-- The removals wait for their turn. -/
theorem addProcesses_processesToRemove :
    t.addProcesses.processesToRemove = t.processesToRemove :=
  List.foldlRecOn (motive := fun u : ThrottlerThread H => u.processesToRemove = t.processesToRemove)
    t.processesToAdd addProcess rfl fun _ h process _ => (addProcess_requests process).2.trans h

@[simp] theorem drain_processesToAdd : t.drain.processesToAdd = [] :=
  List.foldlRecOn (motive := fun u : ThrottlerThread H => u.processesToAdd = [])
    t.addProcesses.processesToRemove removeProcess (rfl : t.addProcesses.processesToAdd = [])
    fun _ h process _ => (removeProcess_requests process).trans h

end ThrottlerThread

/-- Where `run` is.  In the loop over the throttled processes, `todo` are those that it has not
come to yet. -/
inductive Pc (H : Type)
  /-- At `while(_run.test_and_set())`, between two iterations. -/
  | test
  | drain
  | resume (todo : List (H × ℚ)) (slept : ℚ) (interval : ℕ) (terminated : List H)
  /-- After `usleep(activeMicroSecs)`, with `process` running. -/
  | suspend (process : H) (todo : List (H × ℚ)) (slept : ℚ) (interval : ℕ) (terminated : List H)
  | erase (slept : ℚ) (interval : ℕ) (terminated : List H)
  /-- In the loop after the iterations. -/
  | finish (todo : List H)
  | returned
  deriving DecidableEq

/-- The throttler and the processes: which are alive, and the last signal that it sent to each. -/
structure System (H : Type) [LinearOrder H] where
  thread : ThrottlerThread H
  pc : Pc H
  alive : TaskId → Bool
  lastSignal : TaskId → Option Signal

inductive Event (H : Type)
  | throttle (process : H) (percentage : ℚ)
  | removeThrottling (process : H)
  | setThrottlingInterval (throttlingInterval : ℕ)
  | stop
  | terminate (pid : TaskId)
  /-- The next step of `run`. -/
  | run
  deriving DecidableEq

/-- What the handlers refer to: the processes, and the one that the library is part of. -/
structure Processes (H : Type) where
  pid : H → TaskId
  self : TaskId

namespace System

variable (env : Processes H)

/-- `ProcessHandlerLinux::throttle`. -/
def throttle (s : System H) (process : H) (percentage : ℚ) : Except Exn Bool × System H :=
  if env.pid process = env.self then
    (.error (.runtimeError "Trottling cannot be applied on the calling process."), s)
  else if percentage ≤ 0 ∨ percentage > 100 then
    (.error (.runtimeError "Throttling percentage must be in range ]0, 100]."), s)
  else match s.thread.throttle process percentage with
    | (false, _) => (.error (.runtimeError ("Throttling on pid " ++ intToString (env.pid process) ++
        " cannot be performed since the sum of throttling percentages for the different processes" ++
        " exceeds 100%.")), s)
    | (true, thread) => (.ok (s.alive (env.pid process)), { s with thread := thread })

/-- `ProcessHandlerLinux::sendSignal`, which reaches the processes that are alive. -/
def sendSignal (s : System H) (process : H) (signal : Signal) : Bool × System H :=
  if s.alive (env.pid process) then
    (true, { s with lastSignal := fun p =>
      if p = env.pid process then some signal else s.lastSignal p })
  else (false, s)

/-- A step of `run`. -/
def stepRun (s : System H) : Option (System H) :=
  match s.pc with
  | .test =>
    -- `test_and_set` leaves the flag set, whatever it found.
    some { s with
      thread := { s.thread with run := true }
      pc := if s.thread.run then .drain else .finish s.thread.throttlingValues.keys }
  | .drain => some { s with
      thread := s.thread.drain
      pc := .resume s.thread.drain.throttlingValues.entries 0 s.thread.throttlingInterval [] }
  | .resume [] slept interval terminated => some { s with pc := .erase slept interval terminated }
  | .resume ((process, percentage) :: todo) slept interval terminated =>
    match s.sendSignal env process .SIGCONT with
    | (true, s) => some { s with
        pc := .suspend process todo (slept + percentage / 100 * interval) interval terminated }
    | (false, s) => some { s with pc := .resume todo slept interval (terminated ++ [process]) }
  | .suspend process todo slept interval terminated =>
    match s.sendSignal env process .SIGSTOP with
    | (true, s) => some { s with pc := .resume todo slept interval terminated }
    | (false, s) => some { s with pc := .resume todo slept interval (terminated ++ [process]) }
  | .erase _ _ terminated => some { s with
      thread := s.thread.eraseTerminated terminated
      pc := .test }
  | .finish [] => some { s with pc := .returned }
  | .finish (process :: todo) =>
    some { (s.sendSignal env process .SIGCONT).2 with pc := .finish todo }
  | .returned => none

def next (s : System H) : Event H → Option (System H)
  | .throttle process percentage => some (s.throttle env process percentage).2
  | .removeThrottling process => some { s with thread := s.thread.removeThrottling process }
  | .setThrottlingInterval throttlingInterval =>
    some { s with thread := s.thread.setThrottlingInterval throttlingInterval }
  | .stop => some { s with thread := s.thread.stop }
  | .terminate pid => some { s with alive := fun p => if p = pid then false else s.alive p }
  | .run => s.stepRun env

/-- The start of `run`: some processes are alive, and none has been sent a signal. -/
def initial (alive : TaskId → Bool) : System H where
  thread := .new
  pc := .test
  alive := alive
  lastSignal _ := none

def Step (s : System H) (e : Event H) (s' : System H) : Prop := s.next env e = some s'

variable {env} {s s' : System H}

theorem sendSignal_thread (process : H) (signal : Signal) :
    (s.sendSignal env process signal).2.thread = s.thread := by
  unfold sendSignal
  split <;> rfl

theorem sendSignal_of_alive {process : H} {signal : Signal} (h : s.alive (env.pid process) = true) :
    s.sendSignal env process signal = (true, (s.sendSignal env process signal).2) := by
  simp [sendSignal, h]

theorem sendSignal_of_dead {process : H} {signal : Signal} (h : s.alive (env.pid process) = false) :
    s.sendSignal env process signal = (false, s) := by
  simp [sendSignal, h]

theorem sendSignal_alive (process : H) (signal : Signal) :
    (s.sendSignal env process signal).2.alive = s.alive := by
  unfold sendSignal
  split <;> rfl

/-- What a step of `run` can do. -/
inductive RunStep (env : Processes H) (s : System H) : System H → Prop
  | again (hpc : s.pc = .test) (hrun : s.thread.run = true) : RunStep env s { s with pc := .drain }
  | last (hpc : s.pc = .test) (hrun : s.thread.run = false) : RunStep env s { s with
      thread := { s.thread with run := true }
      pc := .finish s.thread.throttlingValues.keys }
  | drain (hpc : s.pc = .drain) : RunStep env s { s with
      thread := s.thread.drain
      pc := .resume s.thread.drain.throttlingValues.entries 0 s.thread.throttlingInterval [] }
  | visited {slept : ℚ} {interval : ℕ} {terminated : List H}
      (hpc : s.pc = .resume [] slept interval terminated) :
      RunStep env s { s with pc := .erase slept interval terminated }
  | resumed {process : H} {percentage : ℚ} {todo : List (H × ℚ)} {slept : ℚ} {interval : ℕ}
      {terminated : List H}
      (hpc : s.pc = .resume ((process, percentage) :: todo) slept interval terminated)
      (halive : s.alive (env.pid process) = true) :
      RunStep env s { (s.sendSignal env process .SIGCONT).2 with
        pc := .suspend process todo (slept + percentage / 100 * interval) interval terminated }
  | notResumed {process : H} {percentage : ℚ} {todo : List (H × ℚ)} {slept : ℚ} {interval : ℕ}
      {terminated : List H}
      (hpc : s.pc = .resume ((process, percentage) :: todo) slept interval terminated)
      (hdead : s.alive (env.pid process) = false) :
      RunStep env s { s with pc := .resume todo slept interval (terminated ++ [process]) }
  | suspended {process : H} {todo : List (H × ℚ)} {slept : ℚ} {interval : ℕ} {terminated : List H}
      (hpc : s.pc = .suspend process todo slept interval terminated)
      (halive : s.alive (env.pid process) = true) :
      RunStep env s { (s.sendSignal env process .SIGSTOP).2 with
        pc := .resume todo slept interval terminated }
  | notSuspended {process : H} {todo : List (H × ℚ)} {slept : ℚ} {interval : ℕ}
      {terminated : List H} (hpc : s.pc = .suspend process todo slept interval terminated)
      (hdead : s.alive (env.pid process) = false) :
      RunStep env s { s with pc := .resume todo slept interval (terminated ++ [process]) }
  | erase {slept : ℚ} {interval : ℕ} {terminated : List H}
      (hpc : s.pc = .erase slept interval terminated) : RunStep env s { s with
        thread := s.thread.eraseTerminated terminated
        pc := .test }
  | finished (hpc : s.pc = .finish []) : RunStep env s { s with pc := .returned }
  | continued {process : H} {todo : List H} (hpc : s.pc = .finish (process :: todo)) :
      RunStep env s { (s.sendSignal env process .SIGCONT).2 with pc := .finish todo }

theorem stepRun_cases (hstep : s.stepRun env = some s') : RunStep env s s' := by
  unfold stepRun at hstep
  cases hpc : s.pc with
  | test =>
    simp only [hpc, Option.some.injEq] at hstep
    subst hstep
    cases hrun : s.thread.run with
    | true =>
      have hsame : { s.thread with run := true } = s.thread := by rw [← hrun]
      simpa only [hsame, if_true] using .again hpc hrun
    | false => exact .last hpc hrun
  | drain =>
    simp only [hpc, Option.some.injEq] at hstep
    exact hstep ▸ .drain hpc
  | resume todo slept interval terminated =>
    cases todo with
    | nil =>
      simp only [hpc, Option.some.injEq] at hstep
      exact hstep ▸ .visited hpc
    | cons entry todo =>
      simp only [hpc] at hstep
      cases halive : s.alive (env.pid entry.1) with
      | true =>
        rw [sendSignal_of_alive halive] at hstep
        exact Option.some.inj hstep ▸ .resumed hpc halive
      | false =>
        rw [sendSignal_of_dead halive] at hstep
        exact Option.some.inj hstep ▸ .notResumed hpc halive
  | suspend process todo slept interval terminated =>
    simp only [hpc] at hstep
    cases halive : s.alive (env.pid process) with
    | true =>
      rw [sendSignal_of_alive halive] at hstep
      exact Option.some.inj hstep ▸ .suspended hpc halive
    | false =>
      rw [sendSignal_of_dead halive] at hstep
      exact Option.some.inj hstep ▸ .notSuspended hpc halive
  | erase slept interval terminated =>
    simp only [hpc, Option.some.injEq] at hstep
    exact hstep ▸ .erase hpc
  | finish todo =>
    cases todo with
    | nil =>
      simp only [hpc, Option.some.injEq] at hstep
      exact hstep ▸ .finished hpc
    | cons process todo =>
      simp only [hpc, Option.some.injEq] at hstep
      exact hstep ▸ .continued hpc
  | returned => simp only [hpc] at hstep; cases hstep

/-- What the clients and the processes leave as it is. -/
structure Frame (s s' : System H) : Prop where
  pc : s'.pc = s.pc
  throttlingValues : s'.thread.throttlingValues = s.thread.throttlingValues
  sumPercentages : s'.thread.sumPercentages = s.thread.sumPercentages
  lastSignal : s'.lastSignal = s.lastSignal
  alive : ∀ p, s'.alive p = true → s.alive p = true

theorem next_frame {e : Event H} (he : e ≠ .run) (hstep : s.next env e = some s') : Frame s s' := by
  cases e with
  | run => exact absurd rfl he
  | throttle process percentage =>
    simp only [next, Option.some.injEq] at hstep
    subst hstep
    unfold throttle ThrottlerThread.throttle
    split_ifs <;> exact ⟨rfl, rfl, rfl, rfl, fun _ h => h⟩
  | terminate pid =>
    cases hstep
    refine ⟨rfl, rfl, rfl, rfl, fun p hp => ?_⟩
    by_cases hpid : p = pid
    · simp [hpid] at hp
    · simpa [hpid] using hp
  | _ =>
    cases hstep
    exact ⟨rfl, rfl, rfl, rfl, fun _ h => h⟩

/-- Processes 7, 8, ... through handlers 0, 1, ... -/
def sevenOn : Processes ℕ := ⟨fun h => 7 + h, 1⟩

/-- Process 7 is throttled, and stopped at the end of the first iteration. -/
def throttleOnce : List (Event ℕ) := [.throttle 0 50, .run, .run, .run, .run, .run, .run]

end System

end Mammut.Task
