import Mammut.Task.Throttler

/-! `_sumPercentages` against the percentages in `_throttlingValues`.  The branch of `addProcess`
that updates a percentage, and the erasure of the handlers of terminated processes, leave
`_sumPercentages` as it is; every other step keeps the two in agreement. -/

namespace Mammut.Task

open Kit Kit.Runs

variable {H : Type} [LinearOrder H]

namespace ThrottlerThread

/-- `_sumPercentages` is the sum of the percentages of the throttled handlers. -/
def Agrees (t : ThrottlerThread H) : Prop := t.sumPercentages = t.throttlingValues.total

/-- A request for a handler that is throttled when `run` comes to it repeats its percentage. -/
def Repeats (t : ThrottlerThread H) : List (H × ℚ) → Prop
  | [] => True
  | process :: rest =>
    (∀ percentage ∈ t.throttlingValues.find? process.1, process.2 = percentage) ∧
      (t.addProcess process).Repeats rest

variable {t : ThrottlerThread H}

theorem Agrees.addProcess {process : H × ℚ} (h : t.Agrees)
    (hrepeats : ∀ percentage ∈ t.throttlingValues.find? process.1, process.2 = percentage) :
    (t.addProcess process).Agrees := by
  unfold ThrottlerThread.addProcess
  cases hfind : t.throttlingValues.find? process.1 with
  | some percentage =>
    have heq : process.2 = percentage := hrepeats percentage hfind
    have hsame : t.throttlingValues.assign process.1 process.2 = t.throttlingValues :=
      OrdMap.assign_self (by rw [heq]; exact hfind)
    simpa only [Agrees, hsame] using h
  | none =>
    by_cases hsum : t.sumPercentages + process.2 ≤ 100
    · have htotal : (t.throttlingValues.insert process.1 process.2).total =
          t.throttlingValues.total + process.2 := OrdMap.total_insert hfind
      simp only [hsum, if_true, Agrees, htotal]
      rw [h]
    · simpa only [hsum, if_false] using h

theorem Agrees.addProcesses (h : t.Agrees) (hrepeats : t.Repeats t.processesToAdd) :
    t.addProcesses.Agrees := by
  have hfold : ∀ (requests : List (H × ℚ)) (t : ThrottlerThread H), t.Agrees →
      t.Repeats requests → (requests.foldl ThrottlerThread.addProcess t).Agrees := by
    intro requests
    induction requests with
    | nil => exact fun _ h _ => h
    | cons process rest ih => exact fun t h hrepeats => ih _ (h.addProcess hrepeats.1) hrepeats.2
  exact hfold _ t h hrepeats

theorem Agrees.removeProcess {process : H} (h : t.Agrees) : (t.removeProcess process).Agrees := by
  unfold ThrottlerThread.removeProcess
  cases hfind : t.throttlingValues.find? process with
  | none => exact h
  | some percentage =>
    have htotal : (t.throttlingValues.erase process).total =
        t.throttlingValues.total - percentage := OrdMap.total_erase hfind
    simp only [Agrees, htotal]
    rw [h]

theorem Agrees.removeProcesses (h : t.Agrees) : t.removeProcesses.Agrees := by
  refine List.foldlRecOn (motive := ThrottlerThread.Agrees) t.processesToRemove
    ThrottlerThread.removeProcess h ?_
  intro u hu process _
  exact hu.removeProcess

end ThrottlerThread

/-- The handlers that the end of an iteration erases. -/
def Pc.erased : Pc H → List H
  | .erase _ _ terminated => terminated
  | _ => []

namespace System

/-- The steps that keep `_sumPercentages`: a drain in which every request for a throttled handler
repeats its percentage, and the end of an iteration that has found no process terminated. -/
def KeepsSum (s : System H) (e : Event H) : Prop :=
  e = .run → (s.pc = .drain → s.thread.Repeats s.thread.processesToAdd) ∧ s.pc.erased = []

variable {env : Processes H} {s s' : System H}

theorem agrees_stepRun (h : s.thread.Agrees) (hkeeps : KeepsSum s .run)
    (hstep : s.stepRun env = some s') : s'.thread.Agrees := by
  obtain ⟨hrepeats, herased⟩ := hkeeps rfl
  cases stepRun_cases hstep with
  | drain hpc => exact (h.addProcesses (hrepeats hpc)).removeProcesses
  | erase hpc =>
    rw [hpc] at herased
    obtain rfl : _ = [] := herased
    exact h
  | resumed hpc halive => simpa only [sendSignal_thread] using h
  | suspended hpc halive => simpa only [sendSignal_thread] using h
  | continued hpc => simpa only [sendSignal_thread] using h
  | _ => exact h

/-- In every run in which the drained requests repeat the percentages of the throttled handlers and
no iteration finds a process terminated, `_sumPercentages` is the sum of the percentages. -/
theorem sumPercentages_total {alive : TaskId → Bool} {events : List (Event H)}
    (hrun : Run (Guarded KeepsSum (Step env)) (initial alive) events s) :
    s.thread.sumPercentages = s.thread.throttlingValues.total := by
  refine hrun.invariant (fun s => s.thread.Agrees) rfl fun s e s' h hstep => ?_
  obtain ⟨hkeeps, hstep⟩ := hstep
  by_cases he : e = .run
  · subst he
    exact agrees_stepRun h hkeeps hstep
  · have hframe := next_frame he hstep
    rw [ThrottlerThread.Agrees, hframe.sumPercentages, hframe.throttlingValues]
    exact h

instance decidableRepeats : (t : ThrottlerThread H) → (l : List (H × ℚ)) → Decidable (t.Repeats l)
  | _, [] => inferInstanceAs (Decidable True)
  | t, process :: rest =>
    have := decidableRepeats (t.addProcess process) rest
    inferInstanceAs (Decidable (_ ∧ _))

instance (e : Event H) : Decidable (KeepsSum s e) :=
  inferInstanceAs (Decidable (e = .run →
    (s.pc = .drain → s.thread.Repeats s.thread.processesToAdd) ∧ s.pc.erased = []))

theorem sumPercentages_total_once : ∃ s : System ℕ, s.pc = .test ∧ s.thread.sumPercentages = 50 ∧
    s.thread.sumPercentages = s.thread.throttlingValues.total := by
  have hfollow : ((follow (fun s e => if KeepsSum s e then s.next sevenOn e else none)
      (initial fun _ => true) throttleOnce).map fun s =>
        (s.pc, s.thread.sumPercentages)) = some (.test, 50) := by
    decide +kernel
  obtain ⟨s, hs, hproj⟩ := Option.map_eq_some_iff.mp hfollow
  simp only [Prod.mk.injEq] at hproj
  have hrun := follow_guarded (fun s e => next sevenOn s e) KeepsSum hs
  exact ⟨s, hproj.1, hproj.2, sumPercentages_total hrun⟩

/-- The percentage of handler 0 is updated from 50 to 80. -/
def updateOnce : List (Event ℕ) :=
  throttleOnce ++ [.throttle 0 80, .run, .run, .run, .run, .run, .run]

/-- The process of handler 0 terminates. -/
def terminateOnce : List (Event ℕ) := throttleOnce ++ [.terminate 7, .run, .run, .run, .run, .run]

/-- An update leaves a sum of 50 for a percentage of 80, and a termination one of 50 for none. -/
theorem sumPercentages_drifts :
    (∃ s : System ℕ, Run (Step sevenOn) (initial fun _ => true) updateOnce s ∧ s.pc = .test ∧
      s.thread.sumPercentages = 50 ∧ s.thread.throttlingValues.total = 80) ∧
    ∃ s : System ℕ, Run (Step sevenOn) (initial fun _ => true) terminateOnce s ∧ s.pc = .test ∧
      s.thread.sumPercentages = 50 ∧ s.thread.throttlingValues.total = 0 := by
  have hupdate : ((follow (next sevenOn) (initial fun _ => true) updateOnce).map fun s =>
      (s.pc, s.thread.sumPercentages, s.thread.throttlingValues.total)) =
        some (.test, 50, 80) := by
    decide +kernel
  have hterminate : ((follow (next sevenOn) (initial fun _ => true) terminateOnce).map fun s =>
      (s.pc, s.thread.sumPercentages, s.thread.throttlingValues.total)) =
        some (.test, 50, 0) := by
    decide +kernel
  obtain ⟨s, hs, hproj⟩ := Option.map_eq_some_iff.mp hupdate
  obtain ⟨s', hs', hproj'⟩ := Option.map_eq_some_iff.mp hterminate
  simp only [Prod.mk.injEq] at hproj hproj'
  exact ⟨⟨s, follow_run _ hs, hproj⟩, ⟨s', follow_run _ hs', hproj'⟩⟩

end System

end Mammut.Task
