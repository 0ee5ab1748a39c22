import Mathlib.Algebra.Order.BigOperators.Group.List
import Mathlib.Tactic.Linarith
import Mathlib.Tactic.Positivity
import Mammut.Task.Throttler

/-! The time that an iteration of the throttler sleeps while a process runs.  `throttle` and
`addProcess` bound the sum of the percentages, but neither checks the one that replaces another:
the bound holds as long as no request raises the percentage of a throttled handler. -/

namespace Mammut.Task

open Kit Kit.Runs

variable {H : Type} [LinearOrder H]

namespace ThrottlerThread

/-- A request for a handler that is throttled when `run` comes to it asks for no more than its
percentage. -/
def NeverRaises (t : ThrottlerThread H) : List (H × ℚ) → Prop
  | [] => True
  | process :: rest =>
    (∀ percentage ∈ t.throttlingValues.find? process.1, process.2 ≤ percentage) ∧
      (t.addProcess process).NeverRaises rest

/-- The percentages are positive, and their sum is at most the one that is checked. -/
structure Bounded (t : ThrottlerThread H) : Prop where
  positive : ∀ e ∈ t.throttlingValues.entries, 0 < e.2
  total_le : t.throttlingValues.total ≤ t.sumPercentages
  sum_le : t.sumPercentages ≤ 100

variable {t : ThrottlerThread H}

theorem Bounded.total (h : t.Bounded) : t.throttlingValues.total ≤ 100 := h.total_le.trans h.sum_le

theorem Bounded.congr {t' : ThrottlerThread H} (h : t.Bounded)
    (hvalues : t'.throttlingValues = t.throttlingValues)
    (hsum : t'.sumPercentages = t.sumPercentages) : t'.Bounded :=
  ⟨by rw [hvalues]; exact h.positive, by rw [hvalues, hsum]; exact h.total_le,
    by rw [hsum]; exact h.sum_le⟩

theorem Bounded.addProcess {process : H × ℚ} (h : t.Bounded) (hpositive : 0 < process.2)
    (hlower : ∀ percentage ∈ t.throttlingValues.find? process.1, process.2 ≤ percentage) :
    (t.addProcess process).Bounded := by
  unfold ThrottlerThread.addProcess
  cases hfind : t.throttlingValues.find? process.1 with
  | some percentage =>
    have hle := hlower percentage hfind
    refine ⟨fun e he => ?_, ?_, h.sum_le⟩
    · obtain rfl | he := OrdMap.mem_assign he
      · exact hpositive
      · exact h.positive e he
    · have htotal := h.total_le
      rw [OrdMap.total_assign hfind]
      linarith
  | none =>
    dsimp only
    split_ifs with hsum
    · refine ⟨fun e he => ?_, ?_, hsum⟩
      · obtain rfl | he := OrdMap.mem_insertEntry he
        · exact hpositive
        · exact h.positive e he
      · have htotal := h.total_le
        rw [OrdMap.total_insert hfind]
        linarith
    · exact h

theorem Bounded.removeProcess {process : H} (h : t.Bounded) : (t.removeProcess process).Bounded := by
  unfold ThrottlerThread.removeProcess
  cases hfind : t.throttlingValues.find? process with
  | none => exact h
  | some percentage =>
    have hpositive := h.positive _ (OrdMap.find?_some_iff.mp hfind)
    refine ⟨fun e he => h.positive e (OrdMap.mem_erase he), ?_, ?_⟩
    · rw [OrdMap.total_erase hfind]
      exact sub_le_sub_right h.total_le _
    · have hsum := h.sum_le
      dsimp only at hpositive ⊢
      linarith

theorem Bounded.addProcesses (h : t.Bounded) (hpositive : ∀ r ∈ t.processesToAdd, 0 < r.2)
    (hlower : t.NeverRaises t.processesToAdd) : t.addProcesses.Bounded := by
  have hfold : ∀ (requests : List (H × ℚ)) (t : ThrottlerThread H), t.Bounded →
      (∀ r ∈ requests, 0 < r.2) → t.NeverRaises requests →
      (requests.foldl ThrottlerThread.addProcess t).Bounded := by
    intro requests
    induction requests with
    | nil => exact fun _ h _ _ => h
    | cons process rest ih =>
      intro t h hpositive hlower
      obtain ⟨hfirst, hrest⟩ := List.forall_mem_cons.mp hpositive
      exact ih _ (h.addProcess hfirst hlower.1) hrest hlower.2
  exact (hfold _ t h hpositive hlower).congr rfl rfl

theorem Bounded.removeProcesses (h : t.Bounded) : t.removeProcesses.Bounded :=
  (List.foldlRecOn (motive := Bounded) t.processesToRemove ThrottlerThread.removeProcess h
    fun _ h _ _ => h.removeProcess).congr rfl rfl

/-- The handler of a terminated process takes its percentage with it. -/
theorem Bounded.erase (h : t.Bounded) (process : H) :
    { t with throttlingValues := t.throttlingValues.erase process }.Bounded := by
  have hle : (t.throttlingValues.erase process).total ≤ t.throttlingValues.total := by
    cases hfind : t.throttlingValues.find? process with
    | none => rw [OrdMap.erase_of_absent hfind]
    | some percentage =>
      have hpositive := h.positive _ (OrdMap.find?_some_iff.mp hfind)
      rw [OrdMap.total_erase hfind]
      exact sub_le_self _ hpositive.le
  exact ⟨fun e he => h.positive e (OrdMap.mem_erase he), hle.trans h.total_le, h.sum_le⟩

theorem Bounded.eraseTerminated (h : t.Bounded) (terminated : List H) :
    (t.eraseTerminated terminated).Bounded :=
  List.foldlRecOn (motive := fun m => { t with throttlingValues := m }.Bounded) terminated
    OrdMap.erase h fun _ hm process _ => hm.erase process

end ThrottlerThread

/-- The time that an iteration has slept so far, and its interval. -/
def Pc.sleeps : Pc H → Option (ℚ × ℕ)
  | .resume _ slept interval _ => some (slept, interval)
  | .suspend _ _ slept interval _ => some (slept, interval)
  | .erase slept interval _ => some (slept, interval)
  | _ => none

/-- The processes that the loop of an iteration has yet to resume, with their percentages. -/
def Pc.todo : Pc H → List (H × ℚ)
  | .resume todo _ _ _ => todo
  | .suspend _ todo _ _ _ => todo
  | _ => []

namespace System

/-- The steps that raise no percentage. -/
def LowersOnly (s : System H) (e : Event H) : Prop :=
  e = .run → s.pc = .drain → s.thread.NeverRaises s.thread.processesToAdd

/-- The interval has room for what an iteration has slept and for the percentages ahead of it. -/
structure Within (s : System H) : Prop where
  bounded : s.thread.Bounded
  requests : ∀ r ∈ s.thread.processesToAdd, 0 < r.2
  todo : ∀ e ∈ s.pc.todo, 0 < e.2
  room : ∀ slept interval, s.pc.sleeps = some (slept, interval) →
    slept + (s.pc.todo.map Prod.snd).sum / 100 * interval ≤ interval

variable {env : Processes H} {s s' : System H}

theorem next_requests {e : Event H} (he : e ≠ .run) (hstep : s.next env e = some s')
    (h : ∀ r ∈ s.thread.processesToAdd, 0 < r.2) : ∀ r ∈ s'.thread.processesToAdd, 0 < r.2 := by
  cases e with
  | run => exact absurd rfl he
  | throttle process percentage =>
    simp only [next, Option.some.injEq] at hstep
    subst hstep
    unfold throttle ThrottlerThread.throttle
    split_ifs with hself hrange hsum
    · exact h
    · exact h
    · exact h
    · intro r hr
      rcases List.mem_append.mp hr with hr | hr
      · exact h r hr
      · obtain rfl := List.mem_singleton.mp hr
        exact not_le.mp (not_or.mp hrange).1
  | _ =>
    cases hstep
    exact h

theorem Within.stepRun (h : Within s) (hlower : LowersOnly s .run)
    (hstep : s.stepRun env = some s') : Within s' := by
  obtain ⟨hbounded, hrequests, htodo, hroom⟩ := h
  cases stepRun_cases hstep with
  | again hpc hrun => exact ⟨hbounded, hrequests, nofun, nofun⟩
  | last hpc hrun => exact ⟨hbounded.congr rfl rfl, hrequests, nofun, nofun⟩
  | drain hpc =>
    have hdrained : s.thread.drain.Bounded :=
      (hbounded.addProcesses hrequests (hlower rfl hpc)).removeProcesses
    refine ⟨hdrained, ?_, hdrained.positive, ?_⟩
    · rw [ThrottlerThread.drain_processesToAdd]
      exact nofun
    · rintro slept interval hsleeps
      cases hsleeps
      have hshare := div_le_one_of_le₀ hdrained.total (by norm_num : (0 : ℚ) ≤ 100)
      rw [zero_add]
      exact mul_le_of_le_one_left (Nat.cast_nonneg _) hshare
  | visited hpc =>
    rw [hpc] at htodo hroom
    exact ⟨hbounded, hrequests, nofun, hroom⟩
  | resumed hpc halive =>
    rw [hpc] at htodo hroom
    refine ⟨?_, ?_, (List.forall_mem_cons.mp htodo).2, ?_⟩
    · rwa [sendSignal_thread]
    · rwa [sendSignal_thread]
    · rintro slept interval hsleeps
      cases hsleeps
      have hle := hroom _ _ rfl
      simp only [Pc.todo, List.map_cons, List.sum_cons] at hle ⊢
      linarith
  | @notResumed process percentage todo slept interval terminated hpc hdead =>
    rw [hpc] at htodo hroom
    obtain ⟨hpercentage, htodo⟩ := List.forall_mem_cons.mp htodo
    refine ⟨hbounded, hrequests, htodo, ?_⟩
    rintro slept interval hsleeps
    cases hsleeps
    have hle := hroom _ _ rfl
    have hskipped : 0 ≤ percentage / 100 * interval := by
      dsimp only at hpercentage
      positivity
    simp only [Pc.todo, List.map_cons, List.sum_cons] at hle ⊢
    linarith
  | suspended hpc halive =>
    rw [hpc] at htodo hroom
    refine ⟨?_, ?_, htodo, hroom⟩
    · rwa [sendSignal_thread]
    · rwa [sendSignal_thread]
  | notSuspended hpc hdead =>
    rw [hpc] at htodo hroom
    exact ⟨hbounded, hrequests, htodo, hroom⟩
  | erase hpc => exact ⟨hbounded.eraseTerminated _, hrequests, nofun, nofun⟩
  | finished hpc => exact ⟨hbounded, hrequests, nofun, nofun⟩
  | continued hpc =>
    refine ⟨?_, ?_, nofun, nofun⟩
    · rwa [sendSignal_thread]
    · rwa [sendSignal_thread]

theorem Within.step {e : Event H} (h : Within s) (hstep : Guarded LowersOnly (Step env) s e s') :
    Within s' := by
  obtain ⟨hlower, hstep⟩ := hstep
  by_cases he : e = .run
  · subst he
    exact h.stepRun hlower hstep
  · have hframe := next_frame he hstep
    refine ⟨h.bounded.congr hframe.throttlingValues hframe.sumPercentages,
      next_requests he hstep h.requests, ?_, ?_⟩
    · rw [hframe.pc]
      exact h.todo
    · rw [hframe.pc]
      exact h.room

theorem Within.slept_le (h : Within s) {slept : ℚ} {interval : ℕ}
    (hsleeps : s.pc.sleeps = some (slept, interval)) : slept ≤ interval := by
  have hahead : 0 ≤ (s.pc.todo.map Prod.snd).sum := List.sum_nonneg fun percentage hmem => by
    obtain ⟨e, he, rfl⟩ := List.mem_map.mp hmem
    exact (h.todo e he).le
  have hle : 0 ≤ (s.pc.todo.map Prod.snd).sum / 100 * interval := by positivity
  have hroom := h.room slept interval hsleeps
  linarith

theorem initial_within (alive : TaskId → Bool) : Within (initial alive : System H) :=
  ⟨⟨nofun, le_refl 0, by norm_num [initial, ThrottlerThread.new]⟩, nofun, nofun, nofun⟩

/-- In every run whose drains raise no percentage, the percentages sum to at most 100, an iteration
never sleeps longer than its interval while processes run, and the rest that it sleeps at its end is
not negative. -/
theorem slept_le_interval {alive : TaskId → Bool} {events : List (Event H)}
    (hrun : Run (Guarded LowersOnly (Step env)) (initial alive) events s) :
    s.thread.throttlingValues.total ≤ 100 ∧
      (∀ slept interval, s.pc.sleeps = some (slept, interval) → slept ≤ interval) ∧
      ∀ slept interval terminated, s.pc = .erase slept interval terminated →
        0 ≤ (interval : ℚ) - slept := by
  have hwithin : Within s := hrun.invariant Within (initial_within alive) fun _ _ _ h hs => h.step hs
  refine ⟨hwithin.bounded.total, fun slept interval => hwithin.slept_le, ?_⟩
  intro slept interval terminated hpc
  have hsleeps : s.pc.sleeps = some (slept, interval) := by rw [hpc]; rfl
  exact sub_nonneg.mpr (hwithin.slept_le hsleeps)

instance decidableNeverRaises :
    (t : ThrottlerThread H) → (l : List (H × ℚ)) → Decidable (t.NeverRaises l)
  | _, [] => inferInstanceAs (Decidable True)
  | t, process :: rest =>
    have := decidableNeverRaises (t.addProcess process) rest
    inferInstanceAs (Decidable (_ ∧ _))

instance (e : Event H) : Decidable (LowersOnly s e) :=
  inferInstanceAs (Decidable (e = .run → s.pc = .drain →
    s.thread.NeverRaises s.thread.processesToAdd))

/-- Two handlers share the interval, up to the end of an iteration. -/
def shareOnce : List (Event ℕ) :=
  [.throttle 0 50, .throttle 1 50, .run, .run, .run, .run, .run, .run, .run]

theorem slept_le_interval_once : ∃ s : System ℕ, s.pc = .erase 100000 100000 [] ∧
    s.thread.throttlingValues.total ≤ 100 ∧ (0 : ℚ) ≤ (100000 : ℕ) - 100000 := by
  have hfollow : ((follow (fun s e => if LowersOnly s e then s.next sevenOn e else none)
      (initial fun _ => true) shareOnce).map fun s => s.pc) =
        some (.erase 100000 100000 []) := by
    decide +kernel
  obtain ⟨s, hs, hpc⟩ := Option.map_eq_some_iff.mp hfollow
  have hrun := follow_guarded (fun s e => next sevenOn s e) LowersOnly hs
  obtain ⟨htotal, -, hrest⟩ := slept_le_interval hrun
  exact ⟨s, hpc, htotal, hrest _ _ _ hpc⟩

/-- The first of them asks for the whole interval in the next iteration. -/
def raiseOnce : List (Event ℕ) :=
  shareOnce ++ [.throttle 0 100, .run, .run, .run, .run, .run, .run, .run, .run]

/-- The percentages sum to 150, and the iteration has slept for more than its interval. -/
theorem raise_oversleeps : ∃ s : System ℕ, Run (Step sevenOn) (initial fun _ => true) raiseOnce s ∧
    s.thread.throttlingValues.total = 150 ∧ s.pc = .erase 150000 100000 [] ∧
      ((100000 : ℕ) : ℚ) - 150000 < 0 := by
  have hfollow : ((follow (next sevenOn) (initial fun _ => true) raiseOnce).map fun s =>
      (s.thread.throttlingValues.total, s.pc)) = some (150, .erase 150000 100000 []) := by
    decide +kernel
  obtain ⟨s, hs, hproj⟩ := Option.map_eq_some_iff.mp hfollow
  simp only [Prod.mk.injEq] at hproj
  exact ⟨s, follow_run _ hs, hproj.1, hproj.2, by norm_num⟩

end System

end Mammut.Task
