import Mammut.Energy.Codec

/-! The counters of a client, from `energy-remote.cpp`, and the `Energy` object that its constructor
makes of them in `energy.cpp`: what each of their calls does on the counters of the server. -/

namespace Mammut.Energy

open CounterTypePb CounterValueType CounterCommand Kit.Lockstep Service

variable {σ α β : Type}

namespace Expect

def res : Expected CounterRes Bool where
  name := messageName "CounterResBool"
  read r := match r with
    | .counterResBool res => res
    | _ => none

def generic : Expected CounterRes Joules where
  name := messageName "CounterResGetGeneric"
  read r := match r with
    | .counterResGetGeneric joules => some joules
    | _ => none

def cpu : Expected CounterRes (List CpuResults) where
  name := messageName "CounterResGetCpu"
  read r := match r with
    | .counterResGetCpu joules => some joules
    | _ => none

end Expect

/-- The sum of the results, as `getJoulesComponents()` makes it. -/
def sumOf (results : List CpuResults) : JoulesCpu := results.foldl (fun jc r => jc.add r.joules) .zero

/-- The result of a CPU, as `getJoulesComponents(cpuId)` looks it up. -/
def resultOf (cpuId : CpuId) (results : List CpuResults) : JoulesCpu :=
  results.foldl (fun jc r => if r.cpuid = UInt32.ofNat cpuId then r.joules else jc) .zero

section Requests

variable (proto : Protobuf CounterReq CounterRes) (moduleDispatcher : String → Option (Module σ))

def request (cr : CounterReq) (expected : Expected CounterRes α) : Call (Session σ) α :=
  remoteCall proto schema moduleDispatcher cr expected

/-- What `CounterPlugRemote` and `CounterMemoryRemote` share: the type that their requests name
is all in which they differ. -/
def counterRemote (type : CounterTypePb) : Counter (Session σ) where
  init := request proto moduleDispatcher ⟨type, none, COUNTER_COMMAND_INIT⟩ Expect.res
  reset := do
    let _ ← request proto moduleDispatcher ⟨type, none, COUNTER_COMMAND_RESET⟩ Expect.res
  getJoules := request proto moduleDispatcher ⟨type, none, COUNTER_COMMAND_GET⟩ Expect.generic

def CounterPlugRemote : Counter (Session σ) :=
  counterRemote proto moduleDispatcher COUNTER_TYPE_PB_PLUG

def CounterMemoryRemote : Counter (Session σ) :=
  counterRemote proto moduleDispatcher COUNTER_TYPE_PB_MEMORY

/-- `CounterCpusRemote`: the CPUs of the client's topology, and what the constructor has asked
for. -/
structure CounterCpusRemote where
  cpus : List CpuId
  hasCores : Bool
  hasGraphic : Bool
  hasDram : Bool
  deriving DecidableEq, Repr

namespace CounterCpusRemote

/-- The question of the constructor about a domain. -/
def has (subtype : CounterValueType) : Call (Session σ) Bool :=
  request proto moduleDispatcher ⟨COUNTER_TYPE_PB_CPUS, some subtype, COUNTER_COMMAND_HAS⟩ Expect.res

/-- The constructor, on the CPUs of the topology. -/
def new (cpus : List CpuId) : Call (Session σ) CounterCpusRemote := do
  let hasCores ← has proto moduleDispatcher COUNTER_VALUE_TYPE_CORES
  let hasGraphic ← has proto moduleDispatcher COUNTER_VALUE_TYPE_GRAPHIC
  let hasDram ← has proto moduleDispatcher COUNTER_VALUE_TYPE_DRAM
  return ⟨cpus, hasCores, hasGraphic, hasDram⟩

/-- The request of every read. -/
def getResults : Call (Session σ) (List CpuResults) :=
  request proto moduleDispatcher ⟨COUNTER_TYPE_PB_CPUS, none, COUNTER_COMMAND_GET⟩ Expect.cpu

/-- `getJoulesComponents()`. -/
def getJoulesComponentsSum : Call (Session σ) JoulesCpu :=
  return sumOf (← getResults proto moduleDispatcher)

/-- `getJoulesComponents(cpuId)`. -/
def getJoulesComponents (cpuId : CpuId) : Call (Session σ) JoulesCpu :=
  return resultOf cpuId (← getResults proto moduleDispatcher)

/-- `getJoulesCpu()`, `getJoulesCores()`, `getJoulesGraphic()` and `getJoulesDram()`. -/
def getJoulesSum (d : Domain) : Call (Session σ) Joules :=
  return (← getJoulesComponentsSum proto moduleDispatcher).get d

/-- `getJoulesCpu(cpuId)`, `getJoulesCores(cpuId)`, `getJoulesGraphic(cpuId)` and
`getJoulesDram(cpuId)`. -/
def getJoules (d : Domain) (cpuId : CpuId) : Call (Session σ) Joules :=
  return (← getJoulesComponents proto moduleDispatcher cpuId).get d

/-- `getJoulesCpuAll()` and the like, which are those of `CounterCpus`. -/
def getJoulesAll (d : Domain) (cpus : List CpuId) : Call (Session σ) Joules :=
  cpus.foldlM (fun r cpuId => do
    return r + (← getJoules proto moduleDispatcher d cpuId)) 0

def counter (r : CounterCpusRemote) : Service.CounterCpus (Session σ) where
  init := request proto moduleDispatcher ⟨COUNTER_TYPE_PB_CPUS, none, COUNTER_COMMAND_INIT⟩ Expect.res
  reset := do
    let _ ← request proto moduleDispatcher ⟨COUNTER_TYPE_PB_CPUS, none, COUNTER_COMMAND_RESET⟩
      Expect.res
  getJoules := getJoulesAll proto moduleDispatcher .cpu r.cpus
  cpus := r.cpus
  getJoulesComponents := getJoulesComponents proto moduleDispatcher
  hasJoulesCores := return r.hasCores
  hasJoulesGraphic := return r.hasGraphic
  hasJoulesDram := return r.hasDram

end CounterCpusRemote

/-- The constructor of `Energy` for a client; `topology` is `Topology::getInstance`. -/
def Service.Counters.remote (topology : Call (Session σ) (List CpuId)) :
    Call (Session σ) (Counters (Session σ)) := do
  let cpl := CounterPlugRemote proto moduleDispatcher
  let plug ← cpl.init
  if plug then cpl.reset
  let cml := CounterMemoryRemote proto moduleDispatcher
  let memory ← cml.init
  let ccl ← CounterCpusRemote.new proto moduleDispatcher (← topology)
  let cpus ← (ccl.counter proto moduleDispatcher).init
  return {
    counterPlug := if plug then some cpl else none
    counterMemory := if memory then some cml else none
    counterCpus := if cpus then some (ccl.counter proto moduleDispatcher) else none }

end Requests

/-- A call of a client on one of its counters. -/
inductive ClientCall
  | init (type : CounterTypePb)
  | reset (type : CounterTypePb)
  | getJoulesPlug
  | getJoulesMemory
  | getJoulesSum (d : Domain)
  | getJoules (d : Domain) (cpuId : CpuId)
  | hasJoulesCores
  | hasJoulesGraphic
  | hasJoulesDram
  deriving DecidableEq, Repr

inductive ClientValue
  | unit
  | bool (b : Bool)
  | joules (j : Joules)
  deriving DecidableEq

namespace ClientCall

/-- The request that the call sends; none when the constructor has sent it. -/
def request : ClientCall → Option CounterReq
  | init type => some ⟨type, none, COUNTER_COMMAND_INIT⟩
  | reset type => some ⟨type, none, COUNTER_COMMAND_RESET⟩
  | getJoulesPlug => some ⟨COUNTER_TYPE_PB_PLUG, none, COUNTER_COMMAND_GET⟩
  | getJoulesMemory => some ⟨COUNTER_TYPE_PB_MEMORY, none, COUNTER_COMMAND_GET⟩
  | getJoulesSum _ => some ⟨COUNTER_TYPE_PB_CPUS, none, COUNTER_COMMAND_GET⟩
  | getJoules _ _ => some ⟨COUNTER_TYPE_PB_CPUS, none, COUNTER_COMMAND_GET⟩
  | hasJoulesCores => none
  | hasJoulesGraphic => none
  | hasJoulesDram => none

section Remote

variable (proto : Protobuf CounterReq CounterRes) (moduleDispatcher : String → Option (Module σ))
  (r : CounterCpusRemote)

/-- The counter of a type of the client. -/
def counter : CounterTypePb → Counter (Session σ)
  | COUNTER_TYPE_PB_PLUG => CounterPlugRemote proto moduleDispatcher
  | COUNTER_TYPE_PB_MEMORY => CounterMemoryRemote proto moduleDispatcher
  | COUNTER_TYPE_PB_CPUS => (r.counter proto moduleDispatcher).toCounter

/-- The call on the client's counter. -/
def remote : ClientCall → Call (Session σ) ClientValue
  | init type => return .bool (← (counter proto moduleDispatcher r type).init)
  | reset type => do
    (counter proto moduleDispatcher r type).reset
    return .unit
  | getJoulesPlug => return .joules (← (CounterPlugRemote proto moduleDispatcher).getJoules)
  | getJoulesMemory => return .joules (← (CounterMemoryRemote proto moduleDispatcher).getJoules)
  | getJoulesSum d =>
    return .joules (← CounterCpusRemote.getJoulesSum proto moduleDispatcher d)
  | getJoules d cpuId =>
    return .joules (← CounterCpusRemote.getJoules proto moduleDispatcher d cpuId)
  | hasJoulesCores => return .bool (← (r.counter proto moduleDispatcher).hasJoulesCores)
  | hasJoulesGraphic => return .bool (← (r.counter proto moduleDispatcher).hasJoulesGraphic)
  | hasJoulesDram => return .bool (← (r.counter proto moduleDispatcher).hasJoulesDram)

end Remote

section OnServer

variable (counters : Counters σ)

/-- The call on the server's counter of the type. -/
def onServer : ClientCall → Call σ ClientValue
  | init type =>
    match counters.ofType type with
    | some counter => return .bool (← counter.init)
    | none => return .bool false
  | reset type => do
    through (counters.ofType type) (·.reset)
    return .unit
  | getJoulesPlug => return .joules (← through counters.counterPlug (·.getJoules))
  | getJoulesMemory => return .joules (← through counters.counterMemory (·.getJoules))
  | getJoulesSum d =>
    return .joules ((sumOf (← through counters.counterCpus (·.results))).get d)
  | getJoules d cpuId =>
    return .joules ((resultOf cpuId (← through counters.counterCpus (·.results))).get d)
  | hasJoulesCores => return .bool (← through counters.counterCpus (·.hasJoulesCores))
  | hasJoulesGraphic => return .bool (← through counters.counterCpus (·.hasJoulesGraphic))
  | hasJoulesDram => return .bool (← through counters.counterCpus (·.hasJoulesDram))

/-- The request reaches the server, which answers it, and protobuf carries the answer. -/
structure Answered (proto : Protobuf CounterReq CounterRes) (s : σ) (cr : CounterReq) : Prop where
  asks : proto.Asks schema cr
  ends : Orderly (· = s) (counters.serve cr)
  carries : ∀ res t, (counters.serve cr).run s = .ok (some res) t → proto.Carries schema res

/-- When a call on the client's counter does what it does on the server's: the request is
answered, and what the constructor has asked for is still so. -/
def Agrees (proto : Protobuf CounterReq CounterRes) (r : CounterCpusRemote) (s : σ) :
    ClientCall → Prop
  | hasJoulesCores =>
    (through counters.counterCpus (·.hasJoulesCores)).run s = .ok r.hasCores s
  | hasJoulesGraphic =>
    (through counters.counterCpus (·.hasJoulesGraphic)).run s = .ok r.hasGraphic s
  | hasJoulesDram =>
    (through counters.counterCpus (·.hasJoulesDram)).run s = .ok r.hasDram s
  | call => ∀ cr ∈ call.request, Answered counters proto s cr

end OnServer

end ClientCall

/-! ### The requests on the server -/

section Follows

variable {proto : Protobuf CounterReq CounterRes} {moduleDispatcher : String → Option (Module σ)}
  {counters : Counters σ}

theorem moduleName_request (cr : CounterReq) (s : σ) :
    (getModuleNameFromMessageId (schema.requestName cr)).run s = .ok "energy" s := by
  have hsplit : Utils.split (messageName "CounterReq") '.' =
      ["mammut", "energy", "CounterReq"] := by
    decide +kernel
  simp [getModuleNameFromMessageId, schema, hsplit]

/-- A request that the server answers with what it makes of `call`. -/
theorem request_follows
    (hactivated : moduleDispatcher "energy" = some (counters.processMessage proto))
    {cr : CounterReq} {expected : Expected CounterRes α} {call : Call σ β}
    {response : β → CounterRes} {value : β → α} {s : σ}
    (hserve : counters.serve cr = do return some (response (← call)))
    (hexpected : ∀ b, expected.name = schema.responseName (response b))
    (hnonempty : expected.name ≠ "") (hread : ∀ b, expected.read (response b) = some (value b))
    (hends : Orderly (· = s) call) (hasks : proto.Asks schema cr)
    (hcarries : ∀ b t, call.run s = .ok b t → proto.Carries schema (response b)) :
    Follows (fun s => ⟨s, true⟩) s (request proto moduleDispatcher cr expected)
      (do return value (← call)) := by
  have hmodule : Follows id s (counters.processMessage proto (schema.requestName cr)
      (proto.serializeRequest cr))
      (do return setMessageFromData proto schema (response (← call))) := by
    have hparse : proto.parseRequest (schema.requestName cr) (proto.serializeRequest cr) =
        some cr := hasks
    unfold Follows
    rw [Counters.processMessage, hparse]
    simp only [hserve, EStateM.run_bind, id]
    cases call.run s <;> rfl
  exact remoteCall_follows (moduleName_request cr) hactivated hmodule hexpected hnonempty hread
    hends hcarries

namespace ClientCall

theorem answered_follows
    (hactivated : moduleDispatcher "energy" = some (counters.processMessage proto))
    {cr : CounterReq} {expected : Expected CounterRes α} {call : Call σ β}
    {response : β → CounterRes} {read : β → α} (decode : α → ClientValue) {s : σ}
    (h : Answered counters proto s cr)
    (hserve : counters.serve cr = do return some (response (← call)))
    (hexpected : ∀ b, expected.name = schema.responseName (response b))
    (hnonempty : expected.name ≠ "") (hread : ∀ b, expected.read (response b) = some (read b)) :
    Follows (fun s => ⟨s, true⟩) s
      (do return decode (← Energy.request proto moduleDispatcher cr expected))
      (do return decode (read (← call))) := by
  obtain ⟨hasks, hends, hcarries⟩ := h
  rw [hserve] at hends
  have hfollows := request_follows hactivated hserve hexpected hnonempty hread
    (orderly_at_map.mp hends) hasks fun b t hcall => hcarries (response b) t (by
      rw [hserve, EStateM.run_bind, hcall]
      rfl)
  have hbind := hfollows.bind fun a t _ => follows_pure (a := decode a)
  simpa only [bind_assoc, pure_bind] using hbind

/-- The step lemma of the calls of a client. -/
theorem remote_follows
    (hactivated : moduleDispatcher "energy" = some (counters.processMessage proto))
    (r : CounterCpusRemote) (s : σ) (c : ClientCall) (h : Agrees counters proto r s c) :
    Follows (fun s => ⟨s, true⟩) s (c.remote proto moduleDispatcher r) (c.onServer counters) := by
  have hbool : Expect.res.name ≠ "" := by decide +kernel
  have hgeneric : Expect.generic.name ≠ "" := by decide +kernel
  have hcpu : Expect.cpu.name ≠ "" := by decide +kernel
  have cached {call : Call σ Bool} {flag : Bool} (hcall : call.run s = .ok flag s) :
      Follows (fun s => ⟨s, true⟩) s (pure (.bool flag) : Call (Session σ) ClientValue)
        (do return .bool (← call)) := by
    unfold Follows
    rw [EStateM.run_bind, hcall]
    rfl
  cases c with
  | init type =>
    have hrequest : (counter proto moduleDispatcher r type).init =
        Energy.request proto moduleDispatcher ⟨type, none, COUNTER_COMMAND_INIT⟩ Expect.res := by
      cases type <;> rfl
    rw [remote, onServer, hrequest]
    cases hc : counters.ofType type with
    | some k =>
      have hserve : counters.serve ⟨type, none, COUNTER_COMMAND_INIT⟩ = do
          return some (.counterResBool (some (← k.init))) := by
        simp only [Counters.serve, hc]
      exact answered_follows hactivated .bool (h _ rfl) hserve (fun _ => rfl) hbool fun _ => rfl
    | none =>
      have hserve : counters.serve ⟨type, none, COUNTER_COMMAND_INIT⟩ = do
          return some (.counterResBool (some (← pure false))) := by
        simp only [Counters.serve, hc]
        rfl
      exact answered_follows hactivated .bool (h _ rfl) hserve (fun _ => rfl) hbool fun _ => rfl
  | reset type =>
    have hrequest : (counter proto moduleDispatcher r type).reset = (do
        let _ ← Energy.request proto moduleDispatcher ⟨type, none, COUNTER_COMMAND_RESET⟩
          Expect.res) := by
      cases type <;> rfl
    have hserve : counters.serve ⟨type, none, COUNTER_COMMAND_RESET⟩ = do
        return some ((fun _ => .counterResBool (some true))
          (← through (counters.ofType type) (·.reset))) := rfl
    rw [remote, onServer, hrequest]
    simp only [bind_assoc, pure_bind]
    exact answered_follows hactivated (fun _ => .unit) (h _ rfl) hserve (fun _ => rfl) hbool
      fun _ => rfl
  | getJoulesPlug =>
    exact answered_follows hactivated .joules (h _ rfl) rfl (fun _ => rfl) hgeneric fun _ => rfl
  | getJoulesMemory =>
    exact answered_follows hactivated .joules (h _ rfl) rfl (fun _ => rfl) hgeneric fun _ => rfl
  | getJoulesSum d =>
    simp only [remote, CounterCpusRemote.getJoulesSum, CounterCpusRemote.getJoulesComponentsSum,
      bind_assoc, pure_bind]
    exact answered_follows hactivated (fun results => .joules ((sumOf results).get d)) (h _ rfl) rfl
      (fun _ => rfl) hcpu fun _ => rfl
  | getJoules d cpuId =>
    simp only [remote, CounterCpusRemote.getJoules, CounterCpusRemote.getJoulesComponents,
      bind_assoc, pure_bind]
    exact answered_follows hactivated (fun results => .joules ((resultOf cpuId results).get d))
      (h _ rfl) rfl (fun _ => rfl) hcpu fun _ => rfl
  | hasJoulesCores => exact cached h
  | hasJoulesGraphic => exact cached h
  | hasJoulesDram => exact cached h

end ClientCall

end Follows

section HeldJoules

open ClientCall

/-- A plug counter that holds the joules since its last reset. -/
def heldJoules : Counters ℚ where
  counterPlug := some ⟨pure true, set (0 : ℚ), get⟩
  counterMemory := none
  counterCpus := none

def heldOnly (moduleId : String) : Option (Module ℚ) :=
  if moduleId = "energy" then some (heldJoules.processMessage proto2) else none

theorem heldOnly_energy : heldOnly "energy" = some (heldJoules.processMessage proto2) := rfl

def readAndReset : List ClientCall :=
  [.getJoulesPlug, .reset COUNTER_TYPE_PB_PLUG, .getJoulesPlug, .init COUNTER_TYPE_PB_CPUS]

end HeldJoules

end Mammut.Energy
