import Mammut.Energy.MsrRuns
import Mammut.Energy.Refresher
import Mammut.Energy.SysFsRuns

/-! How many refreshers a CPUs counter has, and how the destructor stops them: what the messages of
a server do to the threads of its counter, in any order with the steps of the threads. -/

namespace Mammut.Utils

/-- The thread is in the loop of `CounterCpusLinuxRefresher::run`, not notified so far. -/
def ThreadState.Looping : ThreadState → Prop
  | out => True
  | waiting timed => timed = true
  | woken timed _ => timed = true
  | returned timed result => timed = true ∧ result = false

theorem ThreadState.Looping.cases {state : ThreadState} (h : state.Looping) :
    (state = .out ∨ state = .returned true false) ∨
      (state = .waiting true ∨ state = .woken true .success) ∨ state = .woken true .ETIMEDOUT := by
  cases state with
  | out => simp
  | waiting timed =>
    cases h
    simp
  | woken timed rc =>
    cases h
    cases rc <;> simp
  | returned timed result =>
    obtain ⟨rfl, rfl⟩ := h
    simp

end Mammut.Utils

namespace Mammut.Energy

open Kit.Runs Utils

variable {γ ω Env : Type}

namespace CounterCpusLinux

variable {c : CounterCpusLinux γ} {i : ℕ} {e : Monitor.Event ℕ} {m : Monitor ℕ}

/-- The loop of the refresher is over. -/
def Ended (c : CounterCpusLinux γ) (i : ℕ) : Prop :=
  c.stopRefresher.thread i = .returned true true

theorem waits_cases (hwaits : c.Waits i e) (hstep : Monitor.Step c.stopRefresher e m) :
    (c.Between i ∧ e = .call i true ∧ m = c.stopRefresher.loop i true .success) ∨
    (∃ timed, c.stopRefresher.thread i = .waiting timed ∧ e = .wake i ∧
      m = c.stopRefresher.setThread i (.woken timed .success)) ∨
    (c.stopRefresher.thread i = .waiting true ∧ e = .timeout i ∧
      m = c.stopRefresher.setThread i (.woken true .ETIMEDOUT)) ∨
    (∃ timed rc, c.stopRefresher.thread i = .woken timed rc ∧ e = .acquire i ∧
      m = c.stopRefresher.loop i timed rc) := by
  cases hstep with
  | call hout =>
    obtain ⟨rfl, rfl, hbetween⟩ := hwaits
    exact .inl ⟨hbetween, rfl, rfl⟩
  | @wake t timed hwait =>
    cases hwaits
    exact .inr (.inl ⟨timed, hwait, rfl, rfl⟩)
  | timeout hwait =>
    cases hwaits
    exact .inr (.inr (.inl ⟨hwait, rfl, rfl⟩))
  | @acquire t timed rc hwoken =>
    cases hwaits
    exact .inr (.inr (.inr ⟨timed, rc, hwoken, rfl, rfl⟩))
  | _ => cases hwaits

theorem not_waits (hended : c.Ended i) (hwaits : c.Waits i e) :
    ¬Monitor.Step c.stopRefresher e m := by
  intro hstep
  unfold Ended at hended
  rcases waits_cases hwaits hstep with ⟨hout | hout, -⟩ | ⟨_, hout, -⟩ | ⟨hout, -⟩ | ⟨_, _, hout, -⟩
  all_goals cases hended.symm.trans hout

/-- While nothing has been notified, a refresher stays in its loop. -/
theorem looping_step (hset : c.stopRefresher.predicate = false)
    (hloop : (c.stopRefresher.thread i).Looping) (hwaits : c.Waits i e)
    (hstep : Monitor.Step c.stopRefresher e m) :
    m.predicate = false ∧ (m.thread i).Looping := by
  rcases waits_cases hwaits hstep with
    ⟨-, -, rfl⟩ | ⟨timed, hwait, -, rfl⟩ | ⟨-, -, rfl⟩ | ⟨timed, rc, hwoken, -, rfl⟩
  · simp [Monitor.loop, hset, ThreadState.Looping]
  · rw [hwait] at hloop
    exact ⟨hset, by simpa [ThreadState.Looping] using hloop⟩
  · exact ⟨hset, by simp [ThreadState.Looping]⟩
  · rw [hwoken] at hloop
    cases rc with
    | success => simpa [Monitor.loop, hset, ThreadState.Looping] using hloop
    | ETIMEDOUT => simpa [Monitor.loop_timedOut, ThreadState.Looping] using hloop

/-- A refresher that takes the mutex after the notification, and has not timed out, ends. -/
theorem ended_of_notified (hset : c.stopRefresher.predicate = true)
    (hnotified : c.Between i ∨ c.stopRefresher.thread i = .woken true .success)
    (hwaits : c.Waits i e) (hstep : Monitor.Step c.stopRefresher e m) :
    m.thread i = .returned true true := by
  have hthread : ∀ {state}, c.stopRefresher.thread i = state →
      state = .out ∨ state = .returned true false ∨ state = .woken true .success := by
    rintro _ rfl
    rcases hnotified with (hout | hreturned) | hwoken
    · exact .inl hout
    · exact .inr (.inl hreturned)
    · exact .inr (.inr hwoken)
  rcases waits_cases hwaits hstep with
    ⟨-, -, rfl⟩ | ⟨timed, hwait, -⟩ | ⟨hwait, -⟩ | ⟨timed, rc, hwoken, -, rfl⟩
  · simp [Monitor.loop_of_set hset]
  · simpa using hthread hwait
  · simpa using hthread hwait
  · have hrc : timed = true ∧ rc = .success := by simpa using hthread hwoken
    obtain ⟨rfl, rfl⟩ := hrc
    simp [Monitor.loop_of_set hset]

/-- The step of a refresher that is in its loop. -/
theorem exists_step
    (hnotified : c.Between i ∨ c.stopRefresher.thread i = .woken true .success) :
    ∃ e m, c.Waits i e ∧ Monitor.Step c.stopRefresher e m := by
  rcases hnotified with hbetween | hwoken
  · have hout : (c.stopRefresher.thread i).Outside := by
      rcases hbetween with h | h <;> rw [h] <;> trivial
    exact ⟨.call i true, _, ⟨rfl, rfl, hbetween⟩, .call hout⟩
  · exact ⟨.acquire i, _, rfl, .acquire hwoken⟩

end CounterCpusLinux

namespace EnergyServer

open CounterCpusLinuxMsr (cpusClass packageOnly)

variable {I : CpusClass γ Env} {cpus : List Cpu} {plug memory : Option (Service.Counter ω)}
  {s s' : EnergyServer γ ω} {l : Event Env}

/-- A server whose counter has one refresher. -/
structure Single (s : EnergyServer γ ω) : Prop where
  started : s.cpus.started = [0]
  refresher : s.cpus.refresher = some 0
  serving : s.phase = .serving →
    s.cpus.stopRefresher.predicate = false ∧ (s.cpus.stopRefresher.thread 0).Looping
  destroyed : s.phase = .destroyed → s.cpus.Ended 0

theorem single_of_init {dev now : Env} {counter : γ} {c : CounterCpusLinux γ} {w : ω}
    (hinit : (CounterCpusLinux.init I dev now).run (.new counter) = .ok true c) :
    (⟨c, w, .serving⟩ : EnergyServer γ ω).Single := by
  have hthreads := (CounterCpusLinux.init_new hinit).1
  simp only [CounterCpusLinux.threads, Prod.mk.injEq] at hthreads
  obtain ⟨hstop, hrefresher, hstarted⟩ := hthreads
  exact {
    started := hstarted
    refresher := hrefresher
    serving := fun _ => by simp only [hstop]; exact ⟨rfl, trivial⟩
    destroyed := fun h => nomatch h }

theorem Single.step (h : s.Single) (hguard : NoInit I s l)
    (hstep : Step I cpus plug memory s l s') : s'.Single := by
  cases hstep with
  | @message dev now cr hserving =>
    have hthreads := threads_receive cpus plug memory hguard
    simp only [CounterCpusLinux.threads, Prod.mk.injEq] at hthreads
    obtain ⟨hstop, hrefresher, hstarted⟩ := hthreads
    exact {
      started := hstarted.trans h.started
      refresher := hrefresher.trans h.refresher
      serving := fun hphase => by rw [hstop]; exact h.serving hphase
      destroyed := fun hphase => by
        unfold CounterCpusLinux.Ended
        rw [hstop]
        exact h.destroyed hphase }
  | @refresher i env e m hstarted hwaits hmonitor =>
    rw [h.started, List.mem_singleton] at hstarted
    subst hstarted
    exact {
      started := h.started
      refresher := h.refresher
      serving := fun hphase => by
        obtain ⟨hset, hloop⟩ := h.serving hphase
        exact CounterCpusLinux.looping_step hset hloop hwaits hmonitor
      destroyed := fun hphase =>
        absurd hmonitor (CounterCpusLinux.not_waits (h.destroyed hphase) hwaits) }
  | notifyAll hserving hmonitor =>
    exact {
      started := h.started
      refresher := h.refresher
      serving := fun hphase => nomatch hphase
      destroyed := fun hphase => nomatch hphase }
  | @join i hjoining hrefresher hended =>
    cases h.refresher.symm.trans hrefresher
    exact {
      started := h.started
      refresher := h.refresher
      serving := fun hphase => nomatch hphase
      destroyed := fun _ => hended }

theorem Single.run {events : List (Event Env)} (h : s.Single)
    (run : Run (Guarded (NoInit I) (Step I cpus plug memory)) s events s') : s'.Single :=
  run.invariant Single h fun _ _ _ h hstep => h.step hstep.1 hstep.2

theorem Single.atMostOne (h : s.Single) {i j : ℕ} (hi : s.cpus.Running i)
    (hj : s.cpus.Running j) : i = j := by
  have hi' := hi.1
  have hj' := hj.1
  rw [h.started, List.mem_singleton] at hi' hj'
  rw [hi', hj']

theorem Single.none_of_destroyed (h : s.Single) (hphase : s.phase = .destroyed) (i : ℕ) :
    ¬s.cpus.Running i := by
  rintro ⟨hstarted, hrunning⟩
  rw [h.started, List.mem_singleton] at hstarted
  subst hstarted
  exact hrunning (h.destroyed hphase)

theorem call_step (cpus : List Cpu) (plug memory : Option (Service.Counter ω)) (env : Env) (i : ℕ)
    (hstarted : i ∈ s.cpus.started) (hbetween : s.cpus.Between i) :
    Step I cpus plug memory s (.refresher i env (.call i true)) { s with cpus := { s.cpus with
      counter := s.cpus.refresh I env cpus (.call i true)
      stopRefresher := s.cpus.stopRefresher.loop i true .success } } := by
  have hout : (s.cpus.stopRefresher.thread i).Outside := by
    rcases hbetween with h | h <;> rw [h] <;> trivial
  exact .refresher hstarted ⟨rfl, rfl, hbetween⟩ (.call hout)

theorem acquire_step (cpus : List Cpu) (plug memory : Option (Service.Counter ω)) (env : Env)
    (i : ℕ) {timed : Bool} {rc : WaitResult} (hstarted : i ∈ s.cpus.started)
    (hwoken : s.cpus.stopRefresher.thread i = .woken timed rc) :
    Step I cpus plug memory s (.refresher i env (.acquire i)) { s with cpus := { s.cpus with
      counter := s.cpus.counter
      stopRefresher := s.cpus.stopRefresher.loop i timed rc } } :=
  .refresher hstarted rfl (.acquire hwoken)

/-- A server of one CPU, whose counter has been initialised. -/
def oneCpuServer : EnergyServer CounterCpusLinuxMsr Unit where
  cpus :=
    match (CounterCpusLinux.init cpusClass (packageOnly 7) (packageOnly 7)).run
      (.new (.new oneCpu .CPU_FAMILY_AMD)) with
    | .ok _ c => c
    | .error _ c => c
  rest := ()
  phase := .serving

theorem oneCpuServer_init : (CounterCpusLinux.init cpusClass (packageOnly 7) (packageOnly 7)).run
    (.new (.new oneCpu .CPU_FAMILY_AMD)) = .ok true oneCpuServer.cpus := rfl

def initCpus : CounterReq := ⟨.COUNTER_TYPE_PB_CPUS, none, .COUNTER_COMMAND_INIT⟩

theorem threads_initCpus {dev now : Env} {counter : γ} (hserving : s.phase = .serving)
    (h : (I.init dev now).run s.cpus.counter = .ok true counter) :
    ∃ s', Step I cpus plug memory s (.message dev now initCpus) s' ∧ s'.phase = .serving ∧
      s'.cpus.threads = (s.cpus.stopRefresher, some s.cpus.created,
        s.cpus.started ++ [s.cpus.created]) := by
  refine ⟨_, .message hserving, hserving, ?_⟩
  have hafter := after_map (onFst (CounterCpusLinux.init I dev now))
    (fun b => some (CounterRes.counterResBool (some b))) (s.cpus, s.rest)
  have hserve : (counters I cpus plug memory dev now).serve initCpus = (do
      return some (.counterResBool (some (← onFst (CounterCpusLinux.init I dev now))))) := rfl
  rw [receive, hserve, hafter, after_onFst]
  exact CounterCpusLinux.init_again h

/-- With two refreshers, the destructor stops the second one and leaves the first. -/
theorem leaves_running (env : Env) (hserving : s.phase = .serving)
    (hthreads : s.cpus.threads = (.new, some 1, [0, 1])) :
    ∃ events s', Run (Step I cpus plug memory) s events s' ∧ s'.phase = .destroyed ∧
      s'.cpus.Running 0 := by
  obtain ⟨⟨counter, stopRefresher, refresher, created, started⟩, w, phase⟩ := s
  simp only [CounterCpusLinux.threads, Prod.mk.injEq] at hserving hthreads
  obtain ⟨rfl, rfl, rfl⟩ := hthreads
  subst hserving
  have waits := Run.nil.snoc (call_step (I := I) cpus plug memory
    (s := ⟨⟨counter, .new, some 1, created, [0, 1]⟩, w, .serving⟩) env 0 (by simp) (.inl rfl))
  have notified := waits.snoc (.notifyAll rfl .notifyAll)
  have ended := notified.snoc (call_step cpus plug memory env 1 (by simp) (by exact .inl rfl))
  exact ⟨_, _, ended.snoc (.join rfl rfl rfl), rfl, List.mem_cons_self, ThreadState.noConfusion⟩

/-- A refresher that was waiting ends when the destructor notifies it. -/
theorem destroyed_of_single (cpus : List Cpu) (plug memory : Option (Service.Counter ω)) (env : Env)
    (hserving : s.phase = .serving) (hthreads : s.cpus.threads = (.new, some 0, [0])) :
    ∃ events s', Run (Guarded (NoInit I) (Step I cpus plug memory)) s events s' ∧
      s'.phase = .destroyed := by
  obtain ⟨⟨counter, stopRefresher, refresher, created, started⟩, w, phase⟩ := s
  simp only [CounterCpusLinux.threads, Prod.mk.injEq] at hserving hthreads
  obtain ⟨rfl, rfl, rfl⟩ := hthreads
  subst hserving
  have waits : Run (Guarded (NoInit I) (Step I cpus plug memory)) _ _ _ :=
    Run.nil.snoc ⟨by exact trivial, call_step (I := I) cpus plug memory
      (s := ⟨⟨counter, .new, some 0, created, [0]⟩, w, .serving⟩) env 0 (by simp) (.inl rfl)⟩
  have notified := waits.snoc ⟨by exact trivial, .notifyAll rfl .notifyAll⟩
  have ended := notified.snoc
    ⟨by exact trivial, acquire_step cpus plug memory env 0 (by simp) (by rfl)⟩
  exact ⟨_, _, ended.snoc ⟨by exact trivial, .join rfl rfl rfl⟩, rfl⟩

/-- While no request initialises a counter of the CPUs that is supported, the counter has one
refresher, and none once its destructor is over. -/
theorem one_refresher {dev now : Env} {counter : γ} {c : CounterCpusLinux γ} {w : ω}
    {events : List (Event Env)}
    (hinit : (CounterCpusLinux.init I dev now).run (.new counter) = .ok true c)
    (run : Run (Guarded (NoInit I) (Step I cpus plug memory)) ⟨c, w, .serving⟩ events s) :
    (∀ i j, s.cpus.Running i → s.cpus.Running j → i = j) ∧
      (s.phase = .destroyed → ∀ i, ¬s.cpus.Running i) := by
  have hsingle := (single_of_init hinit).run run
  exact ⟨fun _ _ => hsingle.atMostOne, hsingle.none_of_destroyed⟩

/-- A server that serves a request, and then destroys its counter. -/
theorem one_refresher_oneCpu : ∃ events s,
    Run (Guarded (NoInit cpusClass) (Step cpusClass oneCpu none none)) oneCpuServer events s ∧
      s.phase = .destroyed ∧ ∀ i, ¬s.cpus.Running i := by
  let get : CounterReq := ⟨.COUNTER_TYPE_PB_CPUS, none, .COUNTER_COMMAND_GET⟩
  let s := oneCpuServer.receive cpusClass oneCpu none none (packageOnly 7) (packageOnly 7) get
  have hguard : NoInit cpusClass oneCpuServer (.message (packageOnly 7) (packageOnly 7) get) :=
    fun hcmd => nomatch hcmd
  have served : Run (Guarded (NoInit cpusClass) (Step cpusClass oneCpu none none))
      oneCpuServer _ s := Run.nil.snoc ⟨hguard, .message rfl⟩
  obtain ⟨events, s', run, hdestroyed⟩ := destroyed_of_single (I := cpusClass) (s := s) oneCpu none
    none (packageOnly 7) rfl rfl
  have hnone := (one_refresher oneCpuServer_init (served.append run)).2 hdestroyed
  exact ⟨_, s', served.append run, hdestroyed, hnone⟩

/-- A client that initialises the counter starts a second refresher, which is the one that the
destructor waits for. -/
theorem two_refreshers : ∃ s,
    Run (Step cpusClass oneCpu none none) oneCpuServer
      ([] ++ [.message (packageOnly 7) (packageOnly 7) initCpus]) s ∧
    (s.cpus.Running 0 ∧ s.cpus.Running 1) ∧
    ∃ events s', Run (Step cpusClass oneCpu none none) s events s' ∧
      s'.phase = .destroyed ∧ s'.cpus.Running 0 := by
  have hinit : (cpusClass.init (packageOnly 7) (packageOnly 7)).run oneCpuServer.cpus.counter =
      .ok true _ := rfl
  obtain ⟨s, message, hserving, hthreads⟩ := threads_initCpus (s := oneCpuServer) rfl hinit
  have hstarted : s.cpus.started = [0, 1] := congrArg (·.2.2) hthreads
  have hout (i : ℕ) : s.cpus.stopRefresher.thread i = .out :=
    congrFun (congrArg (·.1.thread) hthreads) i
  refine ⟨s, Run.nil.snoc message, ⟨⟨by simp [hstarted], by simp [hout]⟩, by simp [hstarted],
    by simp [hout]⟩, ?_⟩
  exact leaves_running (packageOnly 7) hserving hthreads

/-! ### The notification of the destructor -/

/-- The refresher calls `timedWait` no more. -/
def NeverWaits (I : CpusClass γ Env) (cpus : List Cpu) (plug memory : Option (Service.Counter ω))
    (s : EnergyServer γ ω) : Prop :=
  ∀ events s' i env t timed s'', Run (Step I cpus plug memory) s events s' →
    ¬Step I cpus plug memory s' (.refresher i env (.call t timed)) s''

/-- The `join` does not block: until the refresher has ended it has a step to take, which is its
last. -/
def JoinEnds (I : CpusClass γ Env) (cpus : List Cpu) (plug memory : Option (Service.Counter ω))
    (s : EnergyServer γ ω) : Prop :=
  ∀ events s', Run (Step I cpus plug memory) s events s' → s'.cpus.Ended 0 ∨
    (∀ env, ∃ e s'', Step I cpus plug memory s' (.refresher 0 env e) s'') ∧
      ∀ env e s'', Step I cpus plug memory s' (.refresher 0 env e) s'' → s''.cpus.Ended 0

/-- The destructor has notified its refresher, which has not timed out. -/
structure Notified (s : EnergyServer γ ω) : Prop where
  started : s.cpus.started = [0]
  phase : s.phase ≠ .serving
  thread : s.cpus.Ended 0 ∨ s.cpus.stopRefresher.predicate = true ∧
    (s.cpus.Between 0 ∨ s.cpus.stopRefresher.thread 0 = .woken true .success)

theorem Notified.ended (h : s.Notified) {i : ℕ} {env : Env} {e : Monitor.Event ℕ}
    (hstep : Step I cpus plug memory s (.refresher i env e) s') : s'.cpus.Ended 0 := by
  cases hstep with
  | @refresher _ _ _ m hstarted hwaits hmonitor =>
    rw [h.started, List.mem_singleton] at hstarted
    subst hstarted
    rcases h.thread with hended | ⟨hset, hnotified⟩
    · exact absurd hmonitor (CounterCpusLinux.not_waits hended hwaits)
    · exact CounterCpusLinux.ended_of_notified hset hnotified hwaits hmonitor

/-- A step after the notification leaves the refresher where it is, or is its last. -/
theorem Notified.step (h : s.Notified) (hstep : Step I cpus plug memory s l s') :
    s'.Notified ∧ (s'.cpus.Ended 0 ∨ s'.cpus.stopRefresher = s.cpus.stopRefresher) := by
  have hlast : ∀ i env e, l = .refresher i env e → s'.cpus.Ended 0 := by
    rintro i env e rfl
    exact h.ended hstep
  cases hstep with
  | message hserving => exact absurd hserving h.phase
  | notifyAll hserving hmonitor => exact absurd hserving h.phase
  | @refresher i env e m hstarted hwaits hmonitor =>
    have hended := hlast i env e rfl
    exact ⟨⟨h.started, h.phase, .inl hended⟩, .inl hended⟩
  | join hjoining hrefresher hended =>
    exact ⟨⟨h.started, Phase.noConfusion, h.thread⟩, .inr rfl⟩

theorem Notified.joinEnds (h : s.Notified) : JoinEnds I cpus plug memory s := by
  intro events s' run
  have hnotified : s'.Notified := run.invariant Notified h fun _ _ _ h hstep => (h.step hstep).1
  rcases hnotified.thread with hended | ⟨-, hloop⟩
  · exact .inl hended
  · refine .inr ⟨fun env => ?_, fun env e s'' hstep => hnotified.ended hstep⟩
    obtain ⟨e, m, hwaits, hmonitor⟩ := CounterCpusLinux.exists_step hloop
    exact ⟨e, _, .refresher (by simp [hnotified.started]) hwaits hmonitor⟩

theorem Notified.neverWaits (h : s.Notified) (hinside : ¬s.cpus.Between 0) :
    NeverWaits I cpus plug memory s := by
  intro events s' i env t timed s'' run hcall
  have hkept : s'.Notified ∧ ¬s'.cpus.Between 0 := by
    refine run.invariant (fun s => s.Notified ∧ ¬s.cpus.Between 0) ⟨h, hinside⟩ ?_
    rintro a l b ⟨hnotified, hinside⟩ hstep
    obtain ⟨hnext, hended | hsame⟩ := hnotified.step hstep
    · refine ⟨hnext, ?_⟩
      rintro (hout | hreturned)
      · cases hended.symm.trans hout
      · cases hended.symm.trans hreturned
    · refine ⟨hnext, ?_⟩
      unfold CounterCpusLinux.Between
      rwa [hsame]
  cases hcall with
  | refresher hstarted hwaits hmonitor =>
    rw [hkept.1.started, List.mem_singleton] at hstarted
    subst hstarted
    exact hkept.2 hwaits.2.2

/-- The server whose destructor has notified `_stopRefresher`. -/
def notify (s : EnergyServer γ ω) : EnergyServer γ ω :=
  { s with
    cpus := { s.cpus with
      stopRefresher := { s.cpus.stopRefresher with predicate := true }.wakeAll }
    phase := .joining }

theorem notifyAll_cases (hstep : Step I cpus plug memory s .notifyAll s') :
    s.phase = .serving ∧ s' = s.notify := by
  cases hstep with
  | notifyAll hserving hmonitor =>
    cases hmonitor
    exact ⟨hserving, rfl⟩

theorem not_neverWaits (env : Env) {events : List (Event Env)}
    (run : Run (Step I cpus plug memory) s events s') (hstarted : 0 ∈ s'.cpus.started)
    (hbetween : s'.cpus.Between 0) : ¬NeverWaits I cpus plug memory s :=
  fun h => h _ _ _ env _ _ _ run (call_step cpus plug memory env 0 hstarted hbetween)

/-- Between two calls of `timedWait`, the notification is the return of the next one. -/
theorem Single.notify_between (h : s.Single) (cpus : List Cpu)
    (plug memory : Option (Service.Counter ω)) (env : Env) (hbetween : s.cpus.Between 0) :
    ¬NeverWaits I cpus plug memory s.notify ∧ JoinEnds I cpus plug memory s.notify := by
  have hbetween' : s.notify.cpus.Between 0 := by
    unfold CounterCpusLinux.Between
    rcases hbetween with h | h <;> simp [notify, Monitor.wakeAll, h]
  have hnotified : s.notify.Notified := ⟨h.started, Phase.noConfusion, .inr ⟨rfl, .inl hbetween'⟩⟩
  exact ⟨not_neverWaits env .nil (by simp [notify, h.started]) hbetween', hnotified.joinEnds⟩

/-- A call of `timedWait` that has not timed out gets the notification. -/
theorem Single.notify_inside (h : s.Single) (cpus : List Cpu)
    (plug memory : Option (Service.Counter ω))
    (hinside : s.cpus.stopRefresher.thread 0 = .waiting true ∨
      s.cpus.stopRefresher.thread 0 = .woken true .success) :
    NeverWaits I cpus plug memory s.notify ∧ JoinEnds I cpus plug memory s.notify := by
  have hwoken : s.notify.cpus.stopRefresher.thread 0 = .woken true .success := by
    rcases hinside with h | h <;> simp [notify, Monitor.wakeAll, h]
  have hnotified : s.notify.Notified := ⟨h.started, Phase.noConfusion, .inr ⟨rfl, .inr hwoken⟩⟩
  have hinside' : ¬s.notify.cpus.Between 0 := by simp [CounterCpusLinux.Between, hwoken]
  exact ⟨hnotified.neverWaits hinside', hnotified.joinEnds⟩

/-- A call of `timedWait` that has timed out clears the notification and returns `false`, so that
the refresher waits again. -/
theorem Single.notify_late (h : s.Single) (cpus : List Cpu)
    (plug memory : Option (Service.Counter ω)) (env : Env)
    (hlate : s.cpus.stopRefresher.thread 0 = .woken true .ETIMEDOUT) :
    ¬NeverWaits I cpus plug memory s.notify ∧ ¬JoinEnds I cpus plug memory s.notify := by
  have hlate' : s.notify.cpus.stopRefresher.thread 0 = .woken true .ETIMEDOUT := by
    simp [notify, Monitor.wakeAll, hlate]
  have hmem : 0 ∈ s.notify.cpus.started := by simp [notify, h.started]
  have hstep := acquire_step (I := I) cpus plug memory env 0 hmem hlate'
  constructor
  · refine not_neverWaits env (Run.nil.snoc hstep) hmem (.inr ?_)
    simp [Monitor.loop_timedOut]
  · intro hends
    rcases hends [] s.notify .nil with hended | ⟨-, hlast⟩
    · cases hended.symm.trans hlate'
    · have hended := hlast env _ _ hstep
      simp [CounterCpusLinux.Ended, Monitor.loop_timedOut] at hended

/-- `timedWait` loses no notification just when no thread that has timed out takes the mutex after
one.  The destructor's notification keeps its refresher from another `timedWait` just when it finds
the refresher in one, not timed out; and the `join` ends just when it does not find it timed out. -/
theorem notified_iff {T : Type} [DecidableEq T] (monitorEvents : List (Monitor.Event T))
    (m : Monitor T) {dev now : Env} {counter : γ} {c : CounterCpusLinux γ} {w : ω}
    {events : List (Event Env)}
    (hinit : (CounterCpusLinux.init I dev now).run (.new counter) = .ok true c)
    (run : Run (Guarded (NoInit I) (Step I cpus plug memory)) ⟨c, w, .serving⟩ events s)
    (hnotify : Step I cpus plug memory s .notifyAll s') :
    (Run (fun m e m' => Monitor.Step m e m' ∧ Monitor.Delivers m e m') .new monitorEvents m ↔
      Run (Guarded Monitor.Timely Monitor.Step) .new monitorEvents m) ∧
    (NeverWaits I cpus plug memory s' ↔ s.cpus.stopRefresher.thread 0 = .waiting true ∨
      s.cpus.stopRefresher.thread 0 = .woken true .success) ∧
    (JoinEnds I cpus plug memory s' ↔
      s.cpus.stopRefresher.thread 0 ≠ .woken true .ETIMEDOUT) := by
  have hsingle := (single_of_init hinit).run run
  obtain ⟨hserving, rfl⟩ := notifyAll_cases hnotify
  refine ⟨Monitor.run_delivers_iff, ?_⟩
  rcases (hsingle.serving hserving).2.cases with hbetween | hinside | hlate
  · obtain ⟨hwaits, hends⟩ := hsingle.notify_between (I := I) cpus plug memory dev hbetween
    refine ⟨iff_of_false hwaits ?_, iff_of_true hends ?_⟩
    · rcases hbetween with h | h <;> simp [h]
    · rcases hbetween with h | h <;> simp [h]
  · obtain ⟨hwaits, hends⟩ := hsingle.notify_inside (I := I) cpus plug memory hinside
    refine ⟨iff_of_true hwaits hinside, iff_of_true hends ?_⟩
    rcases hinside with h | h <;> simp [h]
  · obtain ⟨hwaits, hends⟩ := hsingle.notify_late (I := I) cpus plug memory dev hlate
    exact ⟨iff_of_false hwaits (by simp [hlate]), iff_of_false hends (by simp [hlate])⟩

/-- The server of one CPU, whose refresher waits. -/
theorem oneCpuServer_waits : ∃ events s,
    Run (Guarded (NoInit cpusClass) (Step cpusClass oneCpu none none)) oneCpuServer events s ∧
      s.phase = .serving ∧ s.cpus.started = [0] ∧ s.cpus.stopRefresher.predicate = false ∧
      s.cpus.stopRefresher.thread 0 = .waiting true := by
  have hcall := call_step (I := cpusClass) (s := oneCpuServer) oneCpu none none (packageOnly 7) 0
    List.mem_cons_self (.inl rfl)
  exact ⟨_, _, Run.nil.snoc ⟨by exact trivial, hcall⟩, rfl, rfl, rfl, rfl⟩

/-- A destructor that finds its refresher waiting. -/
theorem notified_iff_oneCpu : ∃ events s s',
    Run (Guarded (NoInit cpusClass) (Step cpusClass oneCpu none none)) oneCpuServer events s ∧
      Step cpusClass oneCpu none none s .notifyAll s' ∧
      NeverWaits cpusClass oneCpu none none s' ∧ JoinEnds cpusClass oneCpu none none s' := by
  obtain ⟨events, s, run, hserving, -, -, hwaits⟩ := oneCpuServer_waits
  have hnotify : Step cpusClass oneCpu none none s .notifyAll s.notify :=
    .notifyAll hserving .notifyAll
  obtain ⟨-, hnever, hends⟩ := notified_iff [] (.new : Monitor ℕ) oneCpuServer_init run hnotify
  exact ⟨events, s, s.notify, run, hnotify, hnever.mpr (.inl hwaits), hends.mpr (by simp [hwaits])⟩

/-- A thread that times out just before the notification, and takes the mutex just after it. -/
theorem notification_lost :
    (∃ events m m', Run Monitor.Step (.new : Monitor ℕ) events m ∧
      Monitor.Step m (.acquire 0) m' ∧ ¬Monitor.Delivers m (.acquire 0) m') ∧
    ∃ events s s',
      Run (Guarded (NoInit cpusClass) (Step cpusClass oneCpu none none)) oneCpuServer events s ∧
        Step cpusClass oneCpu none none s .notifyAll s' ∧
        ¬NeverWaits cpusClass oneCpu none none s' ∧ ¬JoinEnds cpusClass oneCpu none none s' := by
  constructor
  · have call : Monitor.Step (.new : Monitor ℕ) (.call 0 true) _ := .call trivial
    have waits := Run.nil.snoc call
    have timedOut := waits.snoc (.timeout (t := 0) rfl)
    have notified := timedOut.snoc .notifyAll
    refine ⟨_, _, _, notified, .acquire (t := 0) rfl, fun hdelivers => ?_⟩
    have htimely := (Monitor.Step.acquire (t := 0) rfl).delivers_iff.mp hdelivers
    cases htimely rfl
  · obtain ⟨events, s, run, hserving, hstarted, -, hwaits⟩ := oneCpuServer_waits
    have htimeout : Step cpusClass oneCpu none none s
        (.refresher 0 (packageOnly 7) (.timeout 0)) _ :=
      .refresher (by simp [hstarted]) rfl (.timeout hwaits)
    have late := run.snoc ⟨by exact trivial, htimeout⟩
    have hsingle := (single_of_init oneCpuServer_init).run late
    obtain ⟨hnever, hends⟩ := hsingle.notify_late (I := cpusClass) oneCpu none none (packageOnly 7)
      (by simp)
    exact ⟨_, _, _, late, .notifyAll hserving .notifyAll, hnever, hends⟩

end EnergyServer

end Mammut.Energy
