import Mammut.Task.Requests

/-! The lives of the process handlers.  The destructor of a handler only queues the removal of its
throttling, while the map that the throttler walks still has the handler in it. -/

namespace Mammut.Task

open Kit Kit.Runs

variable {H : Type}

inductive Status
  | absent
  | live
  /-- The destructor has queued the removal of the throttling. -/
  | releasing
  | destroyed
  deriving DecidableEq, Repr

namespace Pc

/-- The handler through which the next step of `run` sends a signal. -/
def target : Pc H → Option H
  | .resume ((process, _) :: _) _ _ _ => some process
  | .suspend process _ _ _ _ => some process
  | .finish (process :: _) => some process
  | _ => none

/-- The handlers through which the loop that `run` is in has yet to send a signal. -/
def ahead : Pc H → List H
  | .resume todo _ _ _ => todo.map Prod.fst
  | .suspend process todo _ _ _ => process :: todo.map Prod.fst
  | .finish todo => todo
  | _ => []

theorem target_mem_ahead {pc : Pc H} {process : H} (h : pc.target = some process) :
    process ∈ pc.ahead := by
  revert h
  fun_cases target pc <;> simp_all [ahead]

end Pc

variable [LinearOrder H]

/-- A `ProcessesManagerLinux`, with the handlers that its clients have. -/
structure ProcessesManagerLinux (H : Type) [LinearOrder H] where
  system : System H
  status : H → Status

namespace ProcessesManagerLinux

inductive Event (H : Type)
  | getProcessHandler (process : H)
  /-- The destructor of the handler queues the removal. -/
  | releaseProcessHandler (process : H)
  /-- The destructor of the handler completes. -/
  | destroyed (process : H)
  | system (e : Task.Event H)
  deriving DecidableEq

/-- The handler that a call is made on. -/
def receiver : Task.Event H → Option H
  | .throttle process _ => some process
  | .removeThrottling process => some process
  | _ => none

variable (env : Processes H)

def setStatus (m : ProcessesManagerLinux H) (process : H) (status : Status) :
    ProcessesManagerLinux H :=
  { m with status := fun p => if p = process then status else m.status p }

/-- A step: the clients use the handlers that they have. -/
def next (m : ProcessesManagerLinux H) : Event H → Option (ProcessesManagerLinux H)
  | .getProcessHandler process =>
    if m.status process = .absent then some (m.setStatus process .live) else none
  | .releaseProcessHandler process =>
    if m.status process = .live then
      some { m.setStatus process .releasing with
        system := { m.system with thread := m.system.thread.removeThrottling process } }
    else none
  | .destroyed process =>
    if m.status process = .releasing then some (m.setStatus process .destroyed) else none
  | .system e =>
    if (receiver e).all (m.status · = .live) then
      (m.system.next env e).map fun system => { m with system := system }
    else none

def initial (alive : TaskId → Bool) : ProcessesManagerLinux H := ⟨.initial alive, fun _ => .absent⟩

def Step (m : ProcessesManagerLinux H) (e : Event H) (m' : ProcessesManagerLinux H) : Prop :=
  m.next env e = some m'

/-- A handler is destroyed when the loop that `run` is in has no signal left to send through it, and
`run` leaves its iterations when no handler that is throttled has been destroyed. -/
def Spares (m : ProcessesManagerLinux H) : Event H → Prop
  | .destroyed process => process ∉ m.system.pc.ahead
  | .system .run => m.system.pc = .test → m.system.thread.run = false →
      ∀ process ∈ m.system.thread.throttlingValues.keys, m.status process ≠ .destroyed
  | _ => True

/-- The destructor of the handler has queued the removal. -/
def Released (m : ProcessesManagerLinux H) (process : H) : Prop :=
  m.status process = .releasing ∨ m.status process = .destroyed

/-- The throttler has a handler, or a request to add it. -/
def Known (t : ThrottlerThread H) (process : H) : Prop :=
  t.throttlingValues.find? process ≠ none ∨ process ∈ t.processesToAdd.map Prod.fst

/-- What the throttler still has of a released handler is to be removed. -/
structure Safe (m : ProcessesManagerLinux H) : Prop where
  ahead : ∀ process ∈ m.system.pc.ahead, m.status process ≠ .destroyed
  released : ∀ process, m.Released process → Known m.system.thread process →
    process ∈ m.system.thread.processesToRemove

variable {env} {m m' : ProcessesManagerLinux H} {s s' : System H}

/-- The calls of the clients add requests for the handlers that they are made on. -/
theorem next_known {e : Task.Event H} (he : e ≠ .run) (hstep : s.next env e = some s') :
    (∀ p, Known s'.thread p → Known s.thread p ∨ receiver e = some p) ∧
      ∀ p ∈ s.thread.processesToRemove, p ∈ s'.thread.processesToRemove := by
  cases e with
  | run => exact absurd rfl he
  | throttle process percentage =>
    simp only [System.next, Option.some.injEq] at hstep
    subst hstep
    unfold System.throttle ThrottlerThread.throttle
    split_ifs
    · exact ⟨fun _ hp => .inl hp, fun _ hp => hp⟩
    · exact ⟨fun _ hp => .inl hp, fun _ hp => hp⟩
    · exact ⟨fun _ hp => .inl hp, fun _ hp => hp⟩
    · refine ⟨fun p hp => ?_, fun _ hp => hp⟩
      simp only [Known, List.map_append, List.mem_append] at hp ⊢
      obtain hp | hp | hp := hp
      · exact .inl (.inl hp)
      · exact .inl (.inr hp)
      · exact .inr (congrArg some (List.mem_singleton.mp hp).symm)
  | removeThrottling process =>
    cases hstep
    exact ⟨fun _ hp => .inl hp, fun _ hp => List.mem_append_left _ hp⟩
  | _ =>
    cases hstep
    exact ⟨fun _ hp => .inl hp, fun _ hp => hp⟩

/-- A drain leaves nothing of the handlers to remove. -/
theorem drain_known {t : ThrottlerThread H} {p : H} (h : Known t.drain p) :
    Known t p ∧ p ∉ t.processesToRemove := by
  obtain h | h := h
  · rw [ThrottlerThread.find?_drain] at h
    split_ifs at h with hremove
    · exact absurd rfl h
    · refine ⟨?_, hremove⟩
      by_contra hunknown
      obtain ⟨hthrottled, hrequested⟩ := not_or.mp hunknown
      rw [ThrottlerThread.addProcesses] at h
      exact hthrottled fun hnone =>
        h ((ThrottlerThread.find?_addAll_of_not_requested hrequested).trans hnone)
  · rw [ThrottlerThread.drain_processesToAdd] at h
    cases h

theorem eraseTerminated_known {t : ThrottlerThread H} {terminated : List H} {p : H}
    (h : Known (t.eraseTerminated terminated) p) : Known t p := by
  refine h.imp_left fun hp hnone => hp ?_
  refine List.foldlRecOn (motive := fun m : OrdMap H ℚ => m.find? p = none) terminated
    OrdMap.erase hnone fun m hm q _ => ?_
  rw [OrdMap.find?_erase, hm, ite_self]

theorem Safe.stepRun (h : Safe m) (hspares : Spares m (.system .run))
    (hstep : m.system.stepRun env = some s') : Safe { m with system := s' } := by
  obtain ⟨hahead, hreleased⟩ := h
  cases System.stepRun_cases hstep with
  | again hpc hrun => exact ⟨nofun, hreleased⟩
  | last hpc hrun => exact ⟨hspares hpc hrun, hreleased⟩
  | drain hpc =>
    have hgone : ∀ p, m.Released p → ¬Known m.system.thread.drain p := fun p hp hknown =>
      (drain_known hknown).2 (hreleased p hp (drain_known hknown).1)
    refine ⟨fun p hp hdestroyed => ?_, fun p hp hknown => absurd hknown (hgone p hp)⟩
    exact hgone p (.inr hdestroyed) (.inl fun hnone => OrdMap.find?_none_iff.mp hnone hp)
  | visited hpc => exact ⟨nofun, hreleased⟩
  | resumed hpc halive =>
    rw [hpc] at hahead
    refine ⟨hahead, ?_⟩
    rwa [System.sendSignal_thread]
  | notResumed hpc hdead =>
    rw [hpc] at hahead
    exact ⟨fun p hp => hahead p (List.mem_cons_of_mem _ hp), hreleased⟩
  | suspended hpc halive =>
    rw [hpc] at hahead
    refine ⟨fun p hp => hahead p (List.mem_cons_of_mem _ hp), ?_⟩
    rwa [System.sendSignal_thread]
  | notSuspended hpc hdead =>
    rw [hpc] at hahead
    exact ⟨fun p hp => hahead p (List.mem_cons_of_mem _ hp), hreleased⟩
  | erase hpc => exact ⟨nofun, fun p hp hknown => hreleased p hp (eraseTerminated_known hknown)⟩
  | finished hpc => exact ⟨nofun, hreleased⟩
  | continued hpc =>
    rw [hpc] at hahead
    refine ⟨fun p hp => hahead p (List.mem_cons_of_mem _ hp), ?_⟩
    rwa [System.sendSignal_thread]

theorem Safe.step {e : Event H} (h : Safe m) (hstep : Guarded Spares (Step env) m e m') :
    Safe m' := by
  obtain ⟨hspares, hstep⟩ := hstep
  cases e with
  | getProcessHandler q =>
    obtain ⟨hq, hnext⟩ := Option.ite_none_right_eq_some.mp hstep
    cases hnext
    refine ⟨fun p hp => ?_, fun p hp hknown => h.released p ?_ hknown⟩
    · by_cases hpq : p = q
      · simp [setStatus, hpq]
      · simpa [setStatus, hpq] using h.ahead p hp
    · by_cases hpq : p = q
      · simp [Released, setStatus, hpq] at hp
      · simpa [Released, setStatus, hpq] using hp
  | releaseProcessHandler q =>
    obtain ⟨hq, hnext⟩ := Option.ite_none_right_eq_some.mp hstep
    cases hnext
    refine ⟨fun p hp => ?_, fun p hp hknown => ?_⟩
    · by_cases hpq : p = q
      · simp [setStatus, hpq]
      · simpa [setStatus, hpq] using h.ahead p hp
    · by_cases hpq : p = q
      · exact hpq ▸ List.mem_append_right _ List.mem_cons_self
      · exact List.mem_append_left _ (h.released p (by simpa [Released, setStatus, hpq] using hp) hknown)
  | destroyed q =>
    obtain ⟨hq, hnext⟩ := Option.ite_none_right_eq_some.mp hstep
    cases hnext
    refine ⟨fun p hp => ?_, fun p hp hknown => h.released p ?_ hknown⟩
    · have hpq : p ≠ q := fun hpq => hspares (hpq ▸ hp)
      simpa [setStatus, hpq] using h.ahead p hp
    · by_cases hpq : p = q
      · exact .inl (hpq ▸ hq)
      · simpa [Released, setStatus, hpq] using hp
  | system e =>
    obtain ⟨hlive, hnext⟩ := Option.ite_none_right_eq_some.mp hstep
    obtain ⟨s', hs', rfl⟩ := Option.map_eq_some_iff.mp hnext
    by_cases he : e = .run
    · subst he
      exact h.stepRun hspares hs'
    · have hframe := System.next_frame he hs'
      obtain ⟨hknown, hremove⟩ := next_known he hs'
      refine ⟨fun p hp => h.ahead p (hframe.pc ▸ hp), fun p hp hp' => hremove p ?_⟩
      obtain hp' | hcalled := hknown p hp'
      · exact h.released p hp hp'
      · rw [hcalled] at hlive
        have hp : m.Released p := hp
        simp_all [Released]

/-- In every run in which handlers are destroyed and the iterations end only so, the throttler
sends no signal through a destroyed handler. -/
theorem target_not_destroyed {alive : TaskId → Bool} {events : List (Event H)}
    (hrun : Run (Guarded Spares (Step env)) (initial alive) events m) :
    ∀ process, m.system.pc.target = some process → m.status process ≠ .destroyed := by
  have hsafe : Safe m := hrun.invariant Safe ⟨nofun, fun _ hp => by simp [Released, initial] at hp⟩
    fun _ _ _ h hs => h.step hs
  exact fun process htarget => hsafe.ahead process (Pc.target_mem_ahead htarget)

instance (m : ProcessesManagerLinux H) : (e : Event H) → Decidable (Spares m e)
  | .destroyed process => inferInstanceAs (Decidable (process ∉ m.system.pc.ahead))
  | .system .run => inferInstanceAs (Decidable (m.system.pc = .test → m.system.thread.run = false →
      ∀ process ∈ m.system.thread.throttlingValues.keys, m.status process ≠ .destroyed))
  | .getProcessHandler _ | .releaseProcessHandler _ => inferInstanceAs (Decidable True)
  | .system (.throttle _ _) | .system (.removeThrottling _) | .system (.setThrottlingInterval _)
  | .system .stop | .system (.terminate _) => inferInstanceAs (Decidable True)

/-- The throttler is about to resume process 7. -/
def resumeOnce : List (Event ℕ) :=
  [.getProcessHandler 0, .system (.throttle 0 50), .system .run, .system .run]

theorem target_not_destroyed_once : ∃ m : ProcessesManagerLinux ℕ,
    m.system.pc.target = some 0 ∧ m.status 0 ≠ .destroyed := by
  have hfollow : ((follow (fun m e => if Spares m e then next System.sevenOn m e else none)
      (initial fun _ => true) resumeOnce).map fun m => m.system.pc.target) = some (some 0) := by
    decide +kernel
  obtain ⟨m, hm, htarget⟩ := Option.map_eq_some_iff.mp hfollow
  have hrun := follow_guarded (fun m e => next System.sevenOn m e) Spares hm
  exact ⟨m, htarget, target_not_destroyed hrun 0 htarget⟩

/-- A handler is released while the throttler is about to send a signal through it, and another one
between the last iteration and the loop that resumes the throttled processes. -/
theorem released_is_signalled :
    (∃ m : ProcessesManagerLinux ℕ, Run (Step System.sevenOn) (initial fun _ => true)
      (resumeOnce ++ [.releaseProcessHandler 0, .destroyed 0]) m ∧
        m.system.pc.target = some 0 ∧ m.status 0 = .destroyed) ∧
    ∃ m : ProcessesManagerLinux ℕ, Run (Step System.sevenOn) (initial fun _ => true)
      (resumeOnce ++ [.system .run, .system .run, .system .run, .system .run, .system .stop,
        .releaseProcessHandler 0, .destroyed 0, .system .run]) m ∧
        m.system.pc.target = some 0 ∧ m.status 0 = .destroyed := by
  have hloop : ((follow (next System.sevenOn) (initial fun _ => true)
      (resumeOnce ++ [.releaseProcessHandler 0, .destroyed 0])).map fun m =>
        (m.system.pc.target, m.status 0)) = some (some 0, .destroyed) := by
    decide +kernel
  have hfinal : ((follow (next System.sevenOn) (initial fun _ => true)
      (resumeOnce ++ [.system .run, .system .run, .system .run, .system .run, .system .stop,
        .releaseProcessHandler 0, .destroyed 0, .system .run])).map fun m =>
        (m.system.pc.target, m.status 0)) = some (some 0, .destroyed) := by
    decide +kernel
  obtain ⟨m, hm, hproj⟩ := Option.map_eq_some_iff.mp hloop
  obtain ⟨m', hm', hproj'⟩ := Option.map_eq_some_iff.mp hfinal
  simp only [Prod.mk.injEq] at hproj hproj'
  exact ⟨⟨m, follow_run _ hm, hproj⟩, ⟨m', follow_run _ hm', hproj'⟩⟩

end ProcessesManagerLinux

end Mammut.Task
