import Mammut.Energy.Msr
import Mammut.Energy.Service
import Mammut.Energy.SysFs
import Mammut.Utils.Monitor

/-! The refreshers of a CPUs counter, from `energy-linux.cpp`: the threads that `init` starts, that
wait on `_stopRefresher` between two reads of the counter, and that the destructor stops; and the
`Energy` object that the counter is part of, with the requests that it serves meanwhile. -/

namespace Mammut.Energy

open Kit.Runs Kit.Programs Utils

variable {γ ω Env : Type}

/-- A class of CPUs counters: `CounterCpusLinuxMsr` or `CounterCpusLinuxSysFs`. -/
structure CpusClass (γ Env : Type) extends CounterCpus γ Env where
  /-- The checks that `init` makes before it creates the refresher. -/
  supported : Env → γ → Bool
  init : Env → Env → Call γ Bool
  hasJoules : γ → Domain → Bool
  supported_of_init : ∀ {dev now c c'}, (init dev now).run c = .ok true c' → supported dev c = true

/-- A `CounterCpusLinux`, with the refreshers that it has created and those that it has started. -/
structure CounterCpusLinux (γ : Type) where
  counter : γ
  stopRefresher : Monitor ℕ
  refresher : Option ℕ
  created : ℕ
  started : List ℕ

namespace CounterCpusLinux

/-- The constructor. -/
def new (counter : γ) : CounterCpusLinux γ where
  counter := counter
  stopRefresher := .new
  refresher := none
  created := 0
  started := []

def setCounter (counter : γ) (c : CounterCpusLinux γ) : CounterCpusLinux γ :=
  { c with counter := counter }

/-- A call of the class. -/
def onCounter {α : Type} (call : Call γ α) : Call (CounterCpusLinux γ) α :=
  focus counter setCounter call

/-- `_refresher = new CounterCpusLinuxRefresher(this)`. -/
def createRefresher (c : CounterCpusLinux γ) : CounterCpusLinux γ :=
  { c with refresher := some c.created, created := c.created + 1 }

/-- `_refresher->start()`. -/
def startRefresher (c : CounterCpusLinux γ) : CounterCpusLinux γ :=
  { c with started := c.started ++ c.refresher.toList }

variable (I : CpusClass γ Env)

def init (dev now : Env) : Call (CounterCpusLinux γ) Bool := do
  if I.supported dev (← get).counter then
    modify createRefresher
  let initialized ← onCounter (I.init dev now)
  if initialized then
    modify startRefresher
  return initialized

def getJoulesCpuAll (env : Env) (cpus : List Cpu) : Call γ Joules :=
  cpus.foldlM (fun r cpu => do return r + (← I.getJoules env .cpu cpu.cpuId)) 0

/-- The counter, as `processMessage` calls it. -/
def methods (cpus : List Cpu) (dev now : Env) : Service.CounterCpus (CounterCpusLinux γ) where
  init := init I dev now
  reset := onCounter (I.reset now)
  getJoules := onCounter (getJoulesCpuAll I now cpus)
  cpus := ids cpus
  getJoulesComponents id := onCounter (getJoulesComponents (I.getJoules now) id)
  hasJoulesCores := do return I.hasJoules (← get).counter .cores
  hasJoulesGraphic := do return I.hasJoules (← get).counter .graphic
  hasJoulesDram := do return I.hasJoules (← get).counter .dram

/-- The threads, and what they wait on. -/
def threads (c : CounterCpusLinux γ) : Monitor ℕ × Option ℕ × List ℕ :=
  (c.stopRefresher, c.refresher, c.started)

/-- The thread of the refresher has been started and has not ended. -/
def Running (c : CounterCpusLinux γ) (i : ℕ) : Prop :=
  i ∈ c.started ∧ c.stopRefresher.thread i ≠ .returned true true

/-- The refresher is not in a call of `timedWait`, and will make one. -/
def Between (c : CounterCpusLinux γ) (i : ℕ) : Prop :=
  c.stopRefresher.thread i = .out ∨ c.stopRefresher.thread i = .returned true false

/-- A step of a call of `timedWait` that a refresher makes. -/
def Waits (c : CounterCpusLinux γ) (i : ℕ) : Monitor.Event ℕ → Prop
  | .call t timed => t = i ∧ timed = true ∧ c.Between i
  | e => e.caller = some i

/-- The body of the loop of `run`, at the end of which the refresher calls `timedWait` again. -/
def refresh (env : Env) (cpus : List Cpu) (c : CounterCpusLinux γ) : Monitor.Event ℕ → γ
  | .call i _ =>
    if c.stopRefresher.thread i = .returned true false then
      after (getJoulesComponentsAll (I.getJoules env) cpus) c.counter
    else c.counter
  | _ => c.counter

variable {I} {c : CounterCpusLinux γ}

theorem onCounter_keeps {α : Type} (call : Call γ α) (x : Monitor ℕ × Option ℕ × List ℕ) :
    Keeps (fun c : CounterCpusLinux γ => c.threads = x) (onCounter call) :=
  keeps_focus (keeps_true call) (fun _ _ => trivial) fun _ _ h _ => h

/-- The counter with the refresher that `init` creates once its checks have passed. -/
def checked (I : CpusClass γ Env) (dev : Env) (c : CounterCpusLinux γ) : CounterCpusLinux γ :=
  if I.supported dev c.counter then createRefresher c else c

theorem init_run (dev now : Env) : (init I dev now).run c =
    match (I.init dev now).run c.counter with
    | .ok true counter => .ok true (startRefresher (setCounter counter (checked I dev c)))
    | .ok false counter => .ok false (setCounter counter (checked I dev c))
    | .error e counter => .error e (setCounter counter (checked I dev c)) := by
  have hget : (get : Call (CounterCpusLinux γ) _).run c = .ok c c := rfl
  have hmodify : (modify createRefresher : Call (CounterCpusLinux γ) PUnit).run c =
      .ok ⟨⟩ (createRefresher c) := rfl
  unfold init checked
  cases h : I.supported dev c.counter with
  | false =>
    simp only [EStateM.run_bind, hget, h, Bool.false_eq_true, if_false, onCounter, run_focus]
    cases (I.init dev now).run c.counter with
    | error e counter => rfl
    | ok initialized counter => cases initialized <;> rfl
  | true =>
    have hcounter : (createRefresher c).counter = c.counter := rfl
    simp only [EStateM.run_bind, hget, h, if_true, hmodify, onCounter, run_focus, hcounter]
    cases (I.init dev now).run c.counter with
    | error e counter => rfl
    | ok initialized counter => cases initialized <;> rfl

theorem threads_init {dev now : Env} (h : I.supported dev c.counter = false) :
    (after (init I dev now) c).threads = c.threads := by
  have hchecked : checked I dev c = c := by simp [checked, h]
  unfold after
  rw [init_run, hchecked]
  cases hrun : (I.init dev now).run c.counter with
  | error e counter => rfl
  | ok initialized counter =>
    cases initialized with
    | false => rfl
    | true => cases (I.supported_of_init hrun).symm.trans h

/-- The `init` of a new counter starts a refresher. -/
theorem init_new {dev now : Env} {counter : γ}
    (h : (init I dev now).run (.new counter) = .ok true c) :
    c.threads = (.new, some 0, [0]) ∧ c.created = 1 := by
  rw [init_run] at h
  cases hrun : (I.init dev now).run (new counter).counter with
  | error e counter' => rw [hrun] at h; cases h
  | ok initialized counter' =>
    rw [hrun] at h
    cases initialized with
    | false => cases h
    | true =>
      have hchecked : checked I dev (new counter) = createRefresher (new counter) := by
        simp [checked, I.supported_of_init hrun]
      rw [hchecked] at h
      cases h
      exact ⟨rfl, rfl⟩

/-- Another `init` that returns `true` starts another refresher. -/
theorem init_again {dev now : Env} {counter : γ}
    (h : (I.init dev now).run c.counter = .ok true counter) :
    (after (init I dev now) c).threads =
      (c.stopRefresher, some c.created, c.started ++ [c.created]) := by
  have hchecked : checked I dev c = createRefresher c := by
    simp [checked, I.supported_of_init h]
  unfold after
  rw [init_run, h, hchecked]
  rfl

end CounterCpusLinux

namespace CounterCpusLinuxMsr

/-- The checks of `init`. -/
def supported (dev : Device) (c : CounterCpusLinuxMsr) : Bool :=
  match c.cpus with
  | [] => false
  | first :: rest => (vendorFamily first).isSome && (first :: rest).all (isCpuSupported dev)

theorem supported_of_init {dev now : Device} {c c' : CounterCpusLinuxMsr}
    (h : (init dev now).run c = .ok true c') : supported dev c = true := by
  cases hcpus : c.cpus with
  | nil => simp [init, hcpus] at h
  | cons first rest =>
    cases hvendor : vendorFamily first with
    | none => simp [init, hcpus, hvendor] at h
    | some family =>
      by_cases hall : (first :: rest).all (isCpuSupported dev) = true
      · simp only [supported, hcpus, hvendor, hall, Option.isSome_some, Bool.and_self]
      · rw [Bool.not_eq_true] at hall
        simp only [init, EStateM.run_bind, EStateM.run_get, hcpus, hvendor, EStateM.run_modify,
          hall] at h
        cases h

def cpusClass : CpusClass CounterCpusLinuxMsr Device where
  toCounterCpus := methods
  supported := supported
  init := init
  hasJoules c
    | .cpu => true
    | .cores => c.hasJoulesCores
    | .graphic => c.hasJoulesGraphic
    | .dram => c.hasJoulesDram
  supported_of_init := supported_of_init

end CounterCpusLinuxMsr

namespace CounterCpusLinuxSysFs

/-- The checks of `init`. -/
def supported (files : Powercap) (c : CounterCpusLinuxSysFs) : Bool :=
  (List.range c.cpus.length).all fun i => (files.number (energyFile i none)).isSome

theorem supported_of_init {files now : Powercap} {c c' : CounterCpusLinuxSysFs}
    (h : (init files now).run c = .ok true c') : supported files c = true := by
  by_contra hall
  unfold supported at hall
  simp only [init, EStateM.run_bind, EStateM.run_get, if_neg hall] at h
  cases h

def cpusClass : CpusClass CounterCpusLinuxSysFs Powercap where
  toCounterCpus := methods
  supported := supported
  init := init
  hasJoules c
    | .cpu => true
    | .cores => c.idCores.isSome
    | .graphic => c.idGraphic.isSome
    | .dram => c.idDram.isSome
  supported_of_init := supported_of_init

end CounterCpusLinuxSysFs

inductive Phase
  | serving
  /-- The destructor of the counter has notified `_stopRefresher`, and waits for `_refresher`. -/
  | joining
  | destroyed
  deriving DecidableEq, Repr

/-- An `Energy` object with a CPUs counter, and what its other counters are part of. -/
structure EnergyServer (γ ω : Type) where
  cpus : CounterCpusLinux γ
  rest : ω
  phase : Phase

namespace EnergyServer

inductive Event (Env : Type)
  | message (dev now : Env) (cr : CounterReq)
  | refresher (i : ℕ) (env : Env) (e : Monitor.Event ℕ)
  | notifyAll
  | join

/-- A counter that is not about the CPUs. -/
def other (counter : Service.Counter ω) : Service.Counter (CounterCpusLinux γ × ω) where
  init := onSnd counter.init
  reset := onSnd counter.reset
  getJoules := onSnd counter.getJoules

/-- The part of the counter in the state of the server. -/
def whole (counter : Service.CounterCpus (CounterCpusLinux γ)) :
    Service.CounterCpus (CounterCpusLinux γ × ω) where
  init := onFst counter.init
  reset := onFst counter.reset
  getJoules := onFst counter.getJoules
  cpus := counter.cpus
  getJoulesComponents id := onFst (counter.getJoulesComponents id)
  hasJoulesCores := onFst counter.hasJoulesCores
  hasJoulesGraphic := onFst counter.hasJoulesGraphic
  hasJoulesDram := onFst counter.hasJoulesDram

variable (I : CpusClass γ Env) (cpus : List Cpu) (plug memory : Option (Service.Counter ω))

def counters (dev now : Env) : Service.Counters (CounterCpusLinux γ × ω) where
  counterPlug := plug.map other
  counterMemory := memory.map other
  counterCpus := some (whole (CounterCpusLinux.methods I cpus dev now))

/-- The state after a message. -/
def receive (dev now : Env) (cr : CounterReq) (s : EnergyServer γ ω) : EnergyServer γ ω :=
  let t := after ((counters I cpus plug memory dev now).serve cr) (s.cpus, s.rest)
  { s with cpus := t.1, rest := t.2 }

inductive Step (s : EnergyServer γ ω) : Event Env → EnergyServer γ ω → Prop
  | message {dev now : Env} {cr : CounterReq} (hserving : s.phase = .serving) :
      Step s (.message dev now cr) (s.receive I cpus plug memory dev now cr)
  | refresher {i : ℕ} {env : Env} {e : Monitor.Event ℕ} {m : Monitor ℕ}
      (hstarted : i ∈ s.cpus.started) (hwaits : s.cpus.Waits i e)
      (hstep : Monitor.Step s.cpus.stopRefresher e m) :
      Step s (.refresher i env e) { s with cpus := { s.cpus with
        counter := s.cpus.refresh I env cpus e
        stopRefresher := m } }
  | notifyAll {m : Monitor ℕ} (hserving : s.phase = .serving)
      (hstep : Monitor.Step s.cpus.stopRefresher .notifyAll m) :
      Step s .notifyAll { s with
        cpus := { s.cpus with stopRefresher := m }
        phase := .joining }
  | join {i : ℕ} (hjoining : s.phase = .joining) (hrefresher : s.cpus.refresher = some i)
      (hended : s.cpus.stopRefresher.thread i = .returned true true) :
      Step s .join { s with
        cpus := s.cpus.setCounter (after I.destroy s.cpus.counter)
        phase := .destroyed }

variable {I cpus plug memory} {s s' : EnergyServer γ ω}

/-- A request to initialise the counter of the CPUs finds it unsupported. -/
def NoInit (I : CpusClass γ Env) (s : EnergyServer γ ω) : Event Env → Prop
  | .message dev _ cr => cr.cmd = .COUNTER_COMMAND_INIT → cr.type = .COUNTER_TYPE_PB_CPUS →
      I.supported dev s.cpus.counter = false
  | _ => True

theorem threads_receive (cpus : List Cpu) (plug memory : Option (Service.Counter ω))
    {dev now : Env} {cr : CounterReq} (h : NoInit I s (.message dev now cr)) :
    (s.receive I cpus plug memory dev now cr).cpus.threads = s.cpus.threads := by
  by_cases hinit : cr.cmd = .COUNTER_COMMAND_INIT ∧ cr.type = .COUNTER_TYPE_PB_CPUS
  · obtain ⟨hcmd, htype⟩ := hinit
    have hserve : (counters I cpus plug memory dev now).serve cr = (do
        return some (.counterResBool (some (← onFst (CounterCpusLinux.init I dev now))))) := by
      simp only [Service.Counters.serve, hcmd, htype]
      rfl
    rw [receive, hserve]
    have hafter := after_map (onFst (CounterCpusLinux.init I dev now))
      (fun b => some (CounterRes.counterResBool (some b))) (s.cpus, s.rest)
    rw [hafter, after_onFst]
    exact CounterCpusLinux.threads_init (h hcmd htype)
  · let P (t : CounterCpusLinux γ × ω) : Prop := t.1.threads = s.cpus.threads
    have hcpus {α : Type} (call : Call γ α) :
        Keeps P (onFst (CounterCpusLinux.onCounter call)) :=
      keeps_onFst (CounterCpusLinux.onCounter_keeps call _)
    have hother {α : Type} (call : Call ω α) : Keeps P (onSnd call) :=
      keeps_onSnd (I := fun c : CounterCpusLinux γ => c.threads = s.cpus.threads) call
    have hhas (f : γ → Bool) :
        Keeps P (onFst (do return f (← get).counter : Call (CounterCpusLinux γ) Bool)) :=
      keeps_onFst (I := fun c : CounterCpusLinux γ => c.threads = s.cpus.threads)
        (keeps_bind keeps_get fun _ => keeps_pure)
    have hkeeps : Keeps P ((counters I cpus plug memory dev now).serve cr) := by
      refine Service.Counters.serve_keeps _ ?_ ?_ ?_
      · intro hcmd c hc
        cases htype : cr.type with
        | COUNTER_TYPE_PB_CPUS => exact absurd ⟨hcmd, htype⟩ hinit
        | _ =>
          rw [htype] at hc
          obtain ⟨c, -, rfl⟩ := Option.map_eq_some_iff.mp hc
          exact hother c.init
      · intro c hc
        cases htype : cr.type with
        | COUNTER_TYPE_PB_CPUS =>
          rw [htype] at hc
          cases hc
          exact ⟨hcpus _, hcpus _⟩
        | _ =>
          rw [htype] at hc
          obtain ⟨c, -, rfl⟩ := Option.map_eq_some_iff.mp hc
          exact ⟨hother c.reset, hother c.getJoules⟩
      · intro c hc
        cases hc
        exact ⟨fun id => hcpus _, hhas (I.hasJoules · .cores), hhas (I.hasJoules · .graphic),
          hhas (I.hasJoules · .dram)⟩
    exact after_of_keeps hkeeps rfl

end EnergyServer

end Mammut.Energy
