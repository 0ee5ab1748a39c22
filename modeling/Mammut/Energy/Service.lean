import Mammut.Energy.Counter
import Mammut.Server.Servant

/-! `Energy::processMessage`, from `energy.cpp`, and the messages of `energy-remote.proto`: the
requests of the clients, on the counters that the server has found. -/

namespace Mammut.Energy

variable {σ : Type}

inductive CounterTypePb
  | COUNTER_TYPE_PB_CPUS
  | COUNTER_TYPE_PB_MEMORY
  | COUNTER_TYPE_PB_PLUG
  deriving DecidableEq, Repr

inductive CounterValueType
  | COUNTER_VALUE_TYPE_ALL
  | COUNTER_VALUE_TYPE_CPU
  | COUNTER_VALUE_TYPE_CORES
  | COUNTER_VALUE_TYPE_GRAPHIC
  | COUNTER_VALUE_TYPE_DRAM
  deriving DecidableEq, Repr

inductive CounterCommand
  | COUNTER_COMMAND_INIT
  | COUNTER_COMMAND_RESET
  | COUNTER_COMMAND_GET
  | COUNTER_COMMAND_HAS
  deriving DecidableEq, Repr

structure CounterReq where
  type : CounterTypePb
  subtype : Option CounterValueType
  cmd : CounterCommand
  deriving DecidableEq, Repr

/-- `CounterResGetCpu::Results`. -/
structure CpuResults where
  cpuid : UInt32
  joules : JoulesCpu
  deriving DecidableEq

/-- A response; `none` is a required field that was not set. -/
inductive CounterRes
  | counterResBool (res : Option Bool)
  | counterResGetGeneric (joules : Joules)
  | counterResGetCpu (joules : List CpuResults)
  deriving DecidableEq

/-- The name of a message of the package. -/
def messageName (name : String) : String := "mammut.energy." ++ name

def CounterRes.name : CounterRes → String
  | counterResBool _ => "CounterResBool"
  | counterResGetGeneric _ => "CounterResGetGeneric"
  | counterResGetCpu _ => "CounterResGetCpu"

def schema : Schema CounterReq CounterRes where
  requestName _ := messageName "CounterReq"
  responseName r := messageName r.name

namespace Service

/-- A `Counter`: the functions of its class that a request can call. -/
structure Counter (σ : Type) where
  init : Call σ Bool
  reset : Call σ Unit
  getJoules : Call σ Joules

/-- A `CounterCpus`. -/
structure CounterCpus (σ : Type) extends Counter σ where
  cpus : List CpuId
  getJoulesComponents : CpuId → Call σ JoulesCpu
  hasJoulesCores : Call σ Bool
  hasJoulesGraphic : Call σ Bool
  hasJoulesDram : Call σ Bool

/-- The components of every CPU. -/
def CounterCpus.results (counter : CounterCpus σ) : Call σ (List CpuResults) :=
  counter.cpus.mapM fun cpuId => do
    return ⟨UInt32.ofNat cpuId, ← counter.getJoulesComponents cpuId⟩

/-- The counters of an `Energy` object, those that were found. -/
structure Counters (σ : Type) where
  counterPlug : Option (Counter σ)
  counterMemory : Option (Counter σ)
  counterCpus : Option (CounterCpus σ)

/-- A call through a pointer to a counter. -/
def through {α γ : Type} (counter : Option γ) (call : γ → Call σ α) : Call σ α :=
  match counter with
  | some c => call c
  | none => throw .undefined

namespace Counters

open CounterTypePb CounterValueType CounterCommand Kit.Programs

variable (counters : Counters σ)

/-- The counter of a type. -/
def ofType : CounterTypePb → Option (Counter σ)
  | COUNTER_TYPE_PB_PLUG => counters.counterPlug
  | COUNTER_TYPE_PB_MEMORY => counters.counterMemory
  | COUNTER_TYPE_PB_CPUS => counters.counterCpus.map (·.toCounter)

/-- The block of `processMessage`; `none` for `false`. -/
def serve (cr : CounterReq) : Call σ (Option CounterRes) :=
  match cr.cmd with
  | COUNTER_COMMAND_INIT =>
    match counters.ofType cr.type with
    | some counter => return some (.counterResBool (some (← counter.init)))
    | none => return some (.counterResBool (some false))
  | COUNTER_COMMAND_RESET => do
    through (counters.ofType cr.type) (·.reset)
    return some (.counterResBool (some true))
  | COUNTER_COMMAND_HAS =>
    if cr.type = COUNTER_TYPE_PB_CPUS then
      -- a subtype that is absent reads as the first of the enumeration
      match cr.subtype.getD COUNTER_VALUE_TYPE_ALL with
      | COUNTER_VALUE_TYPE_CORES => do
        let res ← through counters.counterCpus (·.hasJoulesCores)
        return some (.counterResBool (some res))
      | COUNTER_VALUE_TYPE_GRAPHIC => do
        let res ← through counters.counterCpus (·.hasJoulesGraphic)
        return some (.counterResBool (some res))
      | COUNTER_VALUE_TYPE_DRAM => do
        let res ← through counters.counterCpus (·.hasJoulesDram)
        return some (.counterResBool (some res))
      | _ => return some (.counterResBool none)
    else return none
  | COUNTER_COMMAND_GET =>
    if cr.type = COUNTER_TYPE_PB_CPUS then do
      return some (.counterResGetCpu (← through counters.counterCpus (·.results)))
    else do
      return some (.counterResGetGeneric (← through (counters.ofType cr.type) (·.getJoules)))

/-- `processMessage`. -/
def processMessage (proto : Protobuf CounterReq CounterRes) : Module σ :=
  fun messageIdIn messageIn =>
    match proto.parseRequest messageIdIn messageIn with
    | none => return none
    | some cr => do
      match ← counters.serve cr with
      | none => return none
      | some r => return setMessageFromData proto schema r

/-- What the functions of the counters keep, but for `init` when it is not the request. -/
theorem serve_keeps {P : σ → Prop} {cr : CounterReq}
    (hinit : cr.cmd = COUNTER_COMMAND_INIT →
      ∀ c, counters.ofType cr.type = some c → Keeps P c.init)
    (hcounter : ∀ c, counters.ofType cr.type = some c → Keeps P c.reset ∧ Keeps P c.getJoules)
    (hcpus : ∀ c, counters.counterCpus = some c → (∀ id, Keeps P (c.getJoulesComponents id)) ∧
      Keeps P c.hasJoulesCores ∧ Keeps P c.hasJoulesGraphic ∧ Keeps P c.hasJoulesDram) :
    Keeps P (counters.serve cr) := by
  have hthrough {α δ : Type} {counter : Option δ} {call : δ → Call σ α}
      (h : ∀ c, counter = some c → Keeps P (call c)) : Keeps P (through counter call) := by
    cases counter with
    | none => exact keeps_throw
    | some c => exact h c rfl
  unfold serve
  cases hcmd : cr.cmd with
  | COUNTER_COMMAND_INIT =>
    cases hc : counters.ofType cr.type with
    | none => exact keeps_pure
    | some c => exact keeps_bind (hinit hcmd c hc) fun _ => keeps_pure
  | COUNTER_COMMAND_RESET =>
    exact keeps_bind (hthrough fun c hc => (hcounter c hc).1) fun _ => keeps_pure
  | COUNTER_COMMAND_HAS =>
    dsimp only
    split_ifs
    · split
      · exact keeps_bind (hthrough fun c hc => (hcpus c hc).2.1) fun _ => keeps_pure
      · exact keeps_bind (hthrough fun c hc => (hcpus c hc).2.2.1) fun _ => keeps_pure
      · exact keeps_bind (hthrough fun c hc => (hcpus c hc).2.2.2) fun _ => keeps_pure
      · exact keeps_pure
    · exact keeps_pure
  | COUNTER_COMMAND_GET =>
    dsimp only
    split_ifs
    · refine keeps_bind (hthrough fun c hc => keeps_mapM fun id => ?_) fun _ => keeps_pure
      exact keeps_bind ((hcpus c hc).1 id) fun _ => keeps_pure
    · exact keeps_bind (hthrough fun c hc => (hcounter c hc).2) fun _ => keeps_pure

/-- The request can be served: it returns, or throws a `std::runtime_error`. -/
def Servable (s : σ) (cr : CounterReq) : Prop :=
  match cr.cmd with
  | COUNTER_COMMAND_INIT => ∀ c, counters.ofType cr.type = some c → Orderly (· = s) c.init
  | COUNTER_COMMAND_RESET => ∃ c, counters.ofType cr.type = some c ∧ Orderly (· = s) c.reset
  | COUNTER_COMMAND_HAS =>
    if cr.type = COUNTER_TYPE_PB_CPUS then
      match cr.subtype.getD COUNTER_VALUE_TYPE_ALL with
      | COUNTER_VALUE_TYPE_CORES =>
        ∃ c, counters.counterCpus = some c ∧ Orderly (· = s) c.hasJoulesCores
      | COUNTER_VALUE_TYPE_GRAPHIC =>
        ∃ c, counters.counterCpus = some c ∧ Orderly (· = s) c.hasJoulesGraphic
      | COUNTER_VALUE_TYPE_DRAM =>
        ∃ c, counters.counterCpus = some c ∧ Orderly (· = s) c.hasJoulesDram
      | _ => True
    else True
  | COUNTER_COMMAND_GET =>
    if cr.type = COUNTER_TYPE_PB_CPUS then
      ∃ c, counters.counterCpus = some c ∧ Orderly (· = s) c.results
    else ∃ c, counters.ofType cr.type = some c ∧ Orderly (· = s) c.getJoules

theorem through_ends_iff {α γ : Type} {counter : Option γ} {call : γ → Call σ α} {s : σ} :
    Orderly (· = s) (through counter call) ↔ ∃ c, counter = some c ∧ Orderly (· = s) (call c) := by
  cases counter with
  | none =>
    exact iff_of_false (not_orderly_at_throw fun _ => Exn.noConfusion) fun ⟨_, h, _⟩ => nomatch h
  | some c => simp [through]

theorem serve_ends_iff {s : σ} (cr : CounterReq) :
    Orderly (· = s) (counters.serve cr) ↔ counters.Servable s cr := by
  unfold serve Servable
  cases cr.cmd with
  | COUNTER_COMMAND_INIT =>
    cases counters.ofType cr.type with
    | none => exact iff_of_true orderly_pure fun _ h => nomatch h
    | some c =>
      simp only [Option.some.injEq, forall_eq']
      exact orderly_at_map
  | COUNTER_COMMAND_RESET => exact orderly_at_map.trans through_ends_iff
  | COUNTER_COMMAND_HAS =>
    by_cases htype : cr.type = COUNTER_TYPE_PB_CPUS
    · simp only [htype, if_true]
      cases cr.subtype.getD COUNTER_VALUE_TYPE_ALL with
      | COUNTER_VALUE_TYPE_ALL => exact iff_of_true orderly_pure trivial
      | COUNTER_VALUE_TYPE_CPU => exact iff_of_true orderly_pure trivial
      | COUNTER_VALUE_TYPE_CORES => exact orderly_at_map.trans through_ends_iff
      | COUNTER_VALUE_TYPE_GRAPHIC => exact orderly_at_map.trans through_ends_iff
      | COUNTER_VALUE_TYPE_DRAM => exact orderly_at_map.trans through_ends_iff
    · simp only [htype, if_false]
      exact iff_of_true orderly_pure trivial
  | COUNTER_COMMAND_GET =>
    by_cases htype : cr.type = COUNTER_TYPE_PB_CPUS
    · simp only [htype, if_true]
      exact orderly_at_map.trans through_ends_iff
    · simp only [htype, if_false]
      exact orderly_at_map.trans through_ends_iff

end Counters

end Service

end Mammut.Energy
