import Mammut.Energy.Remote
import Mammut.Server.Linearizable

/-! The counters of a client that several threads use at once, over the one connection that they
share. -/

namespace Mammut.Energy

open CounterTypePb CounterCommand Kit.Histories Kit.Lockstep Kit.Runs Service Utils

variable {σ : Type}

namespace ClientCall

/-- What the call is to the communicator; none when the constructor has asked. -/
def asks : ClientCall → Option (RemoteCall CounterReq CounterRes ClientValue)
  | init type => some ⟨⟨type, none, COUNTER_COMMAND_INIT⟩, Expect.res.map .bool⟩
  | reset type => some ⟨⟨type, none, COUNTER_COMMAND_RESET⟩, Expect.res.map fun _ => .unit⟩
  | getJoulesPlug =>
    some ⟨⟨COUNTER_TYPE_PB_PLUG, none, COUNTER_COMMAND_GET⟩, Expect.generic.map .joules⟩
  | getJoulesMemory =>
    some ⟨⟨COUNTER_TYPE_PB_MEMORY, none, COUNTER_COMMAND_GET⟩, Expect.generic.map .joules⟩
  | getJoulesSum d => some ⟨⟨COUNTER_TYPE_PB_CPUS, none, COUNTER_COMMAND_GET⟩,
      Expect.cpu.map fun results => .joules ((sumOf results).get d)⟩
  | getJoules d cpuId => some ⟨⟨COUNTER_TYPE_PB_CPUS, none, COUNTER_COMMAND_GET⟩,
      Expect.cpu.map fun results => .joules ((resultOf cpuId results).get d)⟩
  | hasJoulesCores | hasJoulesGraphic | hasJoulesDram => none

variable {proto : Protobuf CounterReq CounterRes} {moduleDispatcher : String → Option (Module σ)}
  {counters : Counters σ} {r : CounterCpusRemote}

/-- The call on the communicator is the one of the client's counter. -/
theorem asks_atOnce {c : ClientCall} {call : RemoteCall CounterReq CounterRes ClientValue}
    (h : c.asks = some call) :
    call.atOnce proto schema moduleDispatcher = c.remote proto moduleDispatcher r := by
  unfold RemoteCall.atOnce
  cases c with
  | init type => cases h; cases type <;> exact remoteCall_map _ _ _
  | reset type =>
    cases h
    rw [remoteCall_map]
    cases type <;>
      · simp only [remote, counter, CounterCpusRemote.counter, CounterPlugRemote,
          CounterMemoryRemote, counterRemote, Energy.request, bind_assoc, pure_bind]
  | getJoulesPlug => cases h; exact remoteCall_map _ _ _
  | getJoulesMemory => cases h; exact remoteCall_map _ _ _
  | getJoulesSum d =>
    cases h
    rw [remoteCall_map]
    simp only [remote, CounterCpusRemote.getJoulesSum, CounterCpusRemote.getJoulesComponentsSum,
      CounterCpusRemote.getResults, Energy.request, bind_assoc, pure_bind]
  | getJoules d cpuId =>
    cases h
    rw [remoteCall_map]
    simp only [remote, CounterCpusRemote.getJoules, CounterCpusRemote.getJoulesComponents,
      CounterCpusRemote.getResults, Energy.request, bind_assoc, pure_bind]
  | hasJoulesCores => cases h
  | hasJoulesGraphic => cases h
  | hasJoulesDram => cases h

theorem trace_asks
    (hactivated : moduleDispatcher "energy" = some (counters.processMessage proto)) {s : σ}
    {cs : List ClientCall} {calls : List (RemoteCall CounterReq CounterRes ClientValue)}
    (hcalls : List.Forall₂ (fun c call => c.asks = some call) cs calls)
    (along : Along (Agrees counters proto r) (onServer counters) s cs) :
    trace (RemoteCall.atOnce proto schema moduleDispatcher) ⟨s, true⟩ calls =
      ((trace (onServer counters) s cs).1, ⟨(trace (onServer counters) s cs).2, true⟩) := by
  have hsame : trace (RemoteCall.atOnce proto schema moduleDispatcher) ⟨s, true⟩ calls =
      trace (remote proto moduleDispatcher r) ⟨s, true⟩ cs := by
    clear along
    generalize (⟨s, true⟩ : Session σ) = session
    induction hcalls generalizing session with
    | nil => rfl
    | cons hasks _ ih => simp only [trace, asks_atOnce hasks (r := r), ih]
  rw [hsame]
  exact trace_follows (I := fun _ => True) (fun s c _ h => remote_follows hactivated r s c h)
    (fun _ _ _ => trivial) trivial cs along

variable {T : Type} [DecidableEq T] {modules : σ}
  {events : List (Sharing.Event T CounterReq CounterRes ClientValue)}
  {s : Sharing T CounterReq CounterRes ClientValue σ}
  {h : Sharing.Calls T CounterReq CounterRes ClientValue}

/-- The call of the communicator is one of those that the threads make on their counters. -/
def AsksOne (uses : ClientCall → Prop) (c : ClientCall)
    (call : RemoteCall CounterReq CounterRes ClientValue) : Prop := uses c ∧ c.asks = some call

end ClientCall

section HeldJoules

open ClientCall Sharing

def askPlug : RemoteCall CounterReq CounterRes ClientValue :=
  ⟨⟨COUNTER_TYPE_PB_PLUG, none, COUNTER_COMMAND_GET⟩, Expect.generic.map .joules⟩

/-- The response to it when five joules are held. -/
def fiveJoules : String × String :=
  (messageName "CounterResGetGeneric",
    ofBytes (Kit.Records.write [(1, .fixed (Kit.Binary64.toWord 5))]))

theorem heldJoules_serve : (heldJoules.serve askPlug.request).run 5 =
    .ok (some (.counterResGetGeneric 5)) 5 := rfl

theorem five_representable : Kit.Binary64.Representable 5 :=
  ⟨Kit.Binary64.bits 5, by decide +kernel, by decide +kernel⟩

theorem askPlug_inBytes : IsBytes (schema.requestName askPlug.request) ∧
    IsBytes (proto2.serializeRequest askPlug.request) :=
  ⟨(by decide +kernel : IsBytes (messageName "CounterReq")), isBytes_ofBytes _⟩

theorem heldOnly_answers : Servant.Answers (outcome ((processMessage heldOnly
    (askPlug.message proto2 schema)).run 5)) fiveJoules := by
  have hmodule : (heldJoules.processMessage proto2 (schema.requestName askPlug.request)
      (proto2.serializeRequest askPlug.request)).run 5 = .ok (some fiveJoules) 5 := by
    have hparse : proto2.parseRequest (schema.requestName askPlug.request)
        (proto2.serializeRequest askPlug.request) = some askPlug.request := proto2_asks _
    rw [Counters.processMessage, hparse, EStateM.run_bind, heldJoules_serve]
    rfl
  have hprocess : (Servant.process heldOnly (schema.requestName askPlug.request)
      (proto2.serializeRequest askPlug.request)).run 5 = .ok fiveJoules 5 := by
    rw [process_run (moduleName_request askPlug.request) heldOnly_energy, hmodule]
  rw [processMessage, RemoteCall.message, textOf_messageOf askPlug_inBytes, Servant.processRequest,
    hprocess]
  rfl

theorem fiveJoules_inBytes : IsBytes fiveJoules.1 ∧ IsBytes fiveJoules.2 :=
  ⟨(by decide +kernel : IsBytes (messageName "CounterResGetGeneric")), isBytes_ofBytes _⟩

theorem askPlug_result : askPlug.result proto2 (messageOf fiveJoules) = .ok (.joules 5) := by
  obtain ⟨text, htext, hparse⟩ :=
    proto2_carries (r := .counterResGetGeneric 5) five_representable
  obtain rfl : fiveJoules.2 = text := Option.some.inj htext
  rw [RemoteCall.result, textOf_messageOf fiveJoules_inBytes]
  exact readResponse_of_parse rfl (by decide +kernel) hparse rfl

end HeldJoules

end Mammut.Energy
