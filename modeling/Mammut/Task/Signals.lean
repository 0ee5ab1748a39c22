import Mammut.Task.Throttler

/-! Which processes the throttler leaves stopped.  A process that it has stopped is throttled
through some handler, so that an iteration resumes it, unless a request to remove the throttling
takes its last handler from the map: `removeProcess` sends no signal. -/

namespace Mammut.Task

open Kit Kit.Runs

variable {H : Type} [LinearOrder H]

namespace ThrottlerThread

variable {t : ThrottlerThread H} {h h' : H}

theorem mem_keys_addProcess {process : H × ℚ} (hmem : h ∈ t.throttlingValues.keys) :
    h ∈ (t.addProcess process).throttlingValues.keys := by
  unfold addProcess
  cases t.throttlingValues.find? process.1 with
  | some x => simpa using hmem
  | none =>
    by_cases hsum : t.sumPercentages + process.2 ≤ 100
    · simp [hsum, hmem]
    · simpa [hsum] using hmem

theorem mem_keys_addProcesses (hmem : h ∈ t.throttlingValues.keys) :
    h ∈ t.addProcesses.throttlingValues.keys := by
  refine List.foldlRecOn (motive := fun u : ThrottlerThread H => h ∈ u.throttlingValues.keys)
    t.processesToAdd addProcess hmem ?_
  intro u hu process _
  exact mem_keys_addProcess hu

theorem mem_keys_removeProcess (hmem : h ∈ t.throttlingValues.keys) (hne : h ≠ h') :
    h ∈ (t.removeProcess h').throttlingValues.keys := by
  unfold removeProcess
  cases t.throttlingValues.find? h' with
  | some x => simp [hne, hmem]
  | none => exact hmem

/-- A drain erases only handlers with a request to remove them. -/
theorem mem_keys_drain (hmem : h ∈ t.addProcesses.throttlingValues.keys)
    (hkeep : h ∉ t.processesToRemove) : h ∈ t.drain.throttlingValues.keys := by
  refine List.foldlRecOn (motive := fun u : ThrottlerThread H => h ∈ u.throttlingValues.keys)
    t.addProcesses.processesToRemove removeProcess hmem ?_
  intro u hu process hprocess
  rw [addProcesses_processesToRemove] at hprocess
  exact mem_keys_removeProcess hu (ne_of_mem_of_not_mem hprocess hkeep).symm

theorem mem_keys_eraseTerminated {terminated : List H} (hmem : h ∈ t.throttlingValues.keys)
    (hkeep : h ∉ terminated) : h ∈ (t.eraseTerminated terminated).throttlingValues.keys := by
  refine List.foldlRecOn (motive := fun m : OrdMap H ℚ => h ∈ m.keys) terminated OrdMap.erase
    hmem ?_
  intro m hm process hprocess
  exact OrdMap.mem_keys_erase.mpr ⟨(ne_of_mem_of_not_mem hprocess hkeep).symm, hm⟩

end ThrottlerThread

namespace Pc

/-- The handlers that the loop of an iteration has yet to send a signal through. -/
def visiting : Pc H → List H
  | .resume todo _ _ _ => todo.map Prod.fst
  | .suspend process todo _ _ _ => process :: todo.map Prod.fst
  | _ => []

/-- The handlers whose processes the iteration has found terminated. -/
def terminated : Pc H → List H
  | .resume _ _ _ terminated => terminated
  | .suspend _ _ _ _ terminated => terminated
  | .erase _ _ terminated => terminated
  | _ => []

end Pc

namespace System

/-- The handlers through which the throttler will still resume processes. -/
def holders (s : System H) : List H :=
  match s.pc with
  | .finish todo => todo
  | .returned => []
  | _ => s.thread.throttlingValues.keys

/-- The process is alive and the last signal that the throttler sent to it is `SIGSTOP`. -/
def Stopped (s : System H) (p : TaskId) : Prop :=
  s.alive p = true ∧ s.lastSignal p = some .SIGSTOP

/-- Every stopped process has a handler through which the throttler will resume it. -/
structure Held (env : Processes H) (s : System H) : Prop where
  held : ∀ p, s.Stopped p → ∃ h ∈ s.holders, env.pid h = p
  visiting : ∀ h ∈ s.pc.visiting, h ∈ s.thread.throttlingValues.keys
  dead : ∀ h ∈ s.pc.terminated, s.alive (env.pid h) = false

/-- A drain leaves each stopped process a handler: when one is to be removed, another one is
throttled and is not to be removed. -/
def DrainKeeps (env : Processes H) (s : System H) (e : Event H) : Prop :=
  e = .run → s.pc = .drain → ∀ h ∈ s.thread.processesToRemove, s.Stopped (env.pid h) →
    ∃ h' ∈ s.thread.addProcesses.throttlingValues.keys,
      env.pid h' = env.pid h ∧ h' ∉ s.thread.processesToRemove

variable {env : Processes H} {s s' : System H}

/-- What the clients and the processes do keeps the invariant. -/
theorem Held.frame (hs : Held env s) (h : Frame s s') : Held env s' := by
  have hholders : s'.holders = s.holders := by simp only [holders, h.pc, h.throttlingValues]
  refine ⟨fun p hp => ?_, fun process hmem => ?_, fun process hmem => ?_⟩
  · rw [hholders]
    exact hs.held p ⟨h.alive p hp.1, h.lastSignal ▸ hp.2⟩
  · rw [h.throttlingValues]
    exact hs.visiting process (h.pc ▸ hmem)
  · have hdead := hs.dead process (h.pc ▸ hmem)
    cases halive : s'.alive (env.pid process) with
    | false => rfl
    | true => rw [h.alive _ halive] at hdead; contradiction

/-- A signal leaves the processes of other handlers as they are, and `SIGCONT` resumes its own. -/
theorem stopped_sendSignal {process : H} {signal : Signal} {p : TaskId}
    (h : (s.sendSignal env process signal).2.Stopped p) :
    s.Stopped p ∧ p ≠ env.pid process ∨ p = env.pid process ∧ signal = .SIGSTOP := by
  unfold sendSignal at h
  by_cases heq : p = env.pid process
  · right
    refine ⟨heq, ?_⟩
    subst heq
    split at h
    case isTrue halive => simpa [Stopped, halive] using h
    case isFalse halive => exact absurd h.1 halive
  · left
    refine ⟨?_, heq⟩
    split at h
    · simpa [Stopped, heq] using h
    · exact h

theorem Held.drain (hs : Held env s) (hpc : s.pc = .drain) (hguard : DrainKeeps env s .run)
    (slept : ℚ) (interval : ℕ) : Held env { s with
      thread := s.thread.drain
      pc := .resume s.thread.drain.throttlingValues.entries slept interval [] } := by
  refine ⟨fun p hp => ?_, fun h hmem => hmem, fun h hmem => absurd hmem List.not_mem_nil⟩
  have hheld := hs.held p hp
  simp only [holders, hpc] at hheld
  obtain ⟨h, hmem, rfl⟩ := hheld
  by_cases hremove : h ∈ s.thread.processesToRemove
  · obtain ⟨h', hmem', hpid, hkeep⟩ := hguard rfl hpc h hremove hp
    exact ⟨h', ThrottlerThread.mem_keys_drain hmem' hkeep, hpid⟩
  · exact ⟨h, ThrottlerThread.mem_keys_drain (ThrottlerThread.mem_keys_addProcesses hmem) hremove,
      rfl⟩

theorem Held.stepRun (hs : Held env s) (hguard : DrainKeeps env s .run)
    (hstep : s.stepRun env = some s') : Held env s' := by
  obtain ⟨hheld, hvisiting, hdead⟩ := id hs
  cases stepRun_cases hstep with
  | again hpc hrun =>
    simp only [holders, hpc] at hheld
    exact ⟨hheld, nofun, nofun⟩
  | last hpc hrun =>
    simp only [holders, hpc] at hheld
    exact ⟨hheld, nofun, nofun⟩
  | drain hpc => exact hs.drain hpc hguard 0 _
  | visited hpc =>
    rw [hpc] at hdead
    simp only [holders, hpc] at hheld
    exact ⟨hheld, nofun, hdead⟩
  | resumed hpc halive =>
    rw [hpc] at hvisiting hdead
    simp only [holders, hpc] at hheld
    refine ⟨fun p hp => ?_, fun h hmem => ?_, fun h hmem => ?_⟩
    · rcases stopped_sendSignal hp with ⟨hp, -⟩ | ⟨-, hsignal⟩
      · simpa only [holders, sendSignal_thread] using hheld p hp
      · cases hsignal
    · rw [sendSignal_thread]
      exact hvisiting h hmem
    · rw [sendSignal_alive]
      exact hdead h hmem
  | notResumed hpc halive =>
    rw [hpc] at hvisiting hdead
    simp only [holders, hpc] at hheld
    refine ⟨hheld, fun h hmem => hvisiting h (List.mem_cons_of_mem _ hmem), fun h hmem => ?_⟩
    rcases List.mem_append.mp hmem with hmem | hmem
    · exact hdead h hmem
    · rw [List.mem_singleton.mp hmem]; exact halive
  | suspended hpc halive =>
    rw [hpc] at hvisiting hdead
    simp only [holders, hpc] at hheld
    have hprocess := hvisiting _ List.mem_cons_self
    refine ⟨fun p hp => ?_, fun h hmem => ?_, fun h hmem => ?_⟩
    · rcases stopped_sendSignal hp with ⟨hp, -⟩ | ⟨rfl, -⟩
      · simpa only [holders, sendSignal_thread] using hheld p hp
      · exact ⟨_, by simpa only [holders, sendSignal_thread] using hprocess, rfl⟩
    · rw [sendSignal_thread]
      exact hvisiting h (List.mem_cons_of_mem _ hmem)
    · rw [sendSignal_alive]
      exact hdead h hmem
  | notSuspended hpc halive =>
    rw [hpc] at hvisiting hdead
    simp only [holders, hpc] at hheld
    refine ⟨hheld, fun h hmem => hvisiting h (List.mem_cons_of_mem _ hmem), fun h hmem => ?_⟩
    rcases List.mem_append.mp hmem with hmem | hmem
    · exact hdead h hmem
    · rw [List.mem_singleton.mp hmem]; exact halive
  | erase hpc =>
    rw [hpc] at hdead
    simp only [holders, hpc] at hheld
    refine ⟨fun p hp => ?_, nofun, nofun⟩
    obtain ⟨h, hmem, rfl⟩ := hheld p hp
    have hkeep : h ∉ _ := fun hterminated => by
      have halive := hdead h hterminated
      rw [hp.1] at halive
      contradiction
    exact ⟨h, ThrottlerThread.mem_keys_eraseTerminated hmem hkeep, rfl⟩
  | finished hpc =>
    simp only [holders, hpc] at hheld
    exact ⟨hheld, nofun, nofun⟩
  | continued hpc =>
    simp only [holders, hpc] at hheld
    refine ⟨fun p hp => ?_, nofun, nofun⟩
    rcases stopped_sendSignal hp with ⟨hp, hne⟩ | ⟨-, hsignal⟩
    · obtain ⟨h, hmem, rfl⟩ := hheld p hp
      rcases List.mem_cons.mp hmem with rfl | hmem
      · exact absurd rfl hne
      · exact ⟨h, hmem, rfl⟩
    · cases hsignal

theorem Held.step {e : Event H} (hs : Held env s)
    (hstep : Guarded (DrainKeeps env) (Step env) s e s') : Held env s' := by
  obtain ⟨hguard, hstep⟩ := hstep
  by_cases he : e = .run
  · subst he
    exact hs.stepRun hguard hstep
  · exact hs.frame (next_frame he hstep)

theorem initial_held (alive : TaskId → Bool) : Held env (initial alive : System H) :=
  ⟨fun _ hp => absurd hp.2 nofun, nofun, nofun⟩

/-- In every run whose drains leave each stopped process a handler, a process that the throttler
has stopped is throttled between two iterations, and none is left stopped when `run` returns. -/
theorem stopped_throttled {alive : TaskId → Bool} {events : List (Event H)}
    (hrun : Run (Guarded (DrainKeeps env) (Step env)) (initial alive) events s) :
    (s.pc = .test → ∀ p, s.Stopped p → ∃ h ∈ s.thread.throttlingValues.keys, env.pid h = p) ∧
      (s.pc = .returned → ∀ p, ¬s.Stopped p) := by
  have hheld : Held env s := hrun.invariant (Held env) (initial_held alive) fun _ _ _ h hs => h.step hs
  refine ⟨fun hpc p hp => ?_, fun hpc p hp => ?_⟩
  · simpa only [holders, hpc] using hheld.held p hp
  · obtain ⟨h, hmem, -⟩ := hheld.held p hp
    rw [holders, hpc] at hmem
    cases hmem

instance (p : TaskId) : Decidable (s.Stopped p) :=
  inferInstanceAs (Decidable (s.alive p = true ∧ s.lastSignal p = some .SIGSTOP))

instance (e : Event H) : Decidable (DrainKeeps env s e) :=
  inferInstanceAs (Decidable (e = .run → s.pc = .drain → ∀ h ∈ s.thread.processesToRemove,
    s.Stopped (env.pid h) → ∃ h' ∈ s.thread.addProcesses.throttlingValues.keys,
      env.pid h' = env.pid h ∧ h' ∉ s.thread.processesToRemove))

/-- Its throttling is removed, and the removal drained. -/
def removeOnce : List (Event ℕ) := throttleOnce ++ [.removeThrottling 0, .run, .run, .run, .run]

theorem stopped_throttled_once : ∃ s : System ℕ, s.pc = .test ∧ s.Stopped 7 ∧
    ∃ h ∈ s.thread.throttlingValues.keys, sevenOn.pid h = 7 := by
  have hfollow : ((follow (fun s e => if DrainKeeps sevenOn s e then s.next sevenOn e else none)
      (initial fun _ => true) throttleOnce).map fun s =>
        (s.pc, s.alive 7, s.lastSignal 7)) = some (.test, true, some .SIGSTOP) := by
    decide +kernel
  obtain ⟨s, hs, hproj⟩ := Option.map_eq_some_iff.mp hfollow
  simp only [Prod.mk.injEq] at hproj
  have hrun := follow_guarded (fun s e => next sevenOn s e) (DrainKeeps sevenOn) hs
  exact ⟨s, hproj.1, hproj.2, (stopped_throttled hrun).1 hproj.1 7 hproj.2⟩

/-- Process 7 stays stopped: between two iterations, when it is no longer throttled, and when `run`
has returned. -/
theorem removed_stays_stopped :
    (∃ s : System ℕ, Run (Step sevenOn) (initial fun _ => true) removeOnce s ∧ s.pc = .test ∧
      s.Stopped 7 ∧ s.thread.throttlingValues.keys = []) ∧
    ∃ s : System ℕ, Run (Step sevenOn) (initial fun _ => true)
      (removeOnce ++ [.stop, .run, .run]) s ∧ s.pc = .returned ∧ s.Stopped 7 := by
  have hfirst : ((follow (next sevenOn) (initial fun _ => true) removeOnce).map fun s =>
      (s.pc, s.alive 7, s.lastSignal 7, s.thread.throttlingValues.keys)) =
        some (.test, true, some .SIGSTOP, []) := by
    decide +kernel
  have hsecond : ((follow (next sevenOn) (initial fun _ => true)
      (removeOnce ++ [.stop, .run, .run])).map fun s => (s.pc, s.alive 7, s.lastSignal 7)) =
        some (.returned, true, some .SIGSTOP) := by
    decide +kernel
  obtain ⟨s, hs, hproj⟩ := Option.map_eq_some_iff.mp hfirst
  obtain ⟨s', hs', hproj'⟩ := Option.map_eq_some_iff.mp hsecond
  simp only [Prod.mk.injEq] at hproj hproj'
  exact ⟨⟨s, follow_run _ hs, hproj.1, ⟨hproj.2.1, hproj.2.2.1⟩, hproj.2.2.2⟩,
    ⟨s', follow_run _ hs', hproj'.1, hproj'.2⟩⟩

end System

end Mammut.Task
