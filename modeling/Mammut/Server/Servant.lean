import Mammut.Communicator.Remote
import Mammut.Utils.Text

/-! The servant of a client, from `mammut-server.cpp`: it receives a request, has it processed by
the module that its identifier names, and sends the response or the text of the exception. -/

namespace Mammut

open Utils

/-- `processMessage` of a module: the identifier and the text of the response, or `false`. -/
abbrev Module (σ : Type) := String → String → Call σ (Option (String × String))

variable {ε σ : Type}

/-- A `std::runtime_error` with a text of a client in it: `what` ends at a null character. -/
def throwText {α : Type} (what : String) : Call σ α := throw (.runtimeError (cString what))

/-- `getModuleNameFromMessageId`. -/
def getModuleNameFromMessageId (messageId : String) : Call σ String :=
  match split messageId '.' with
  | ["mammut", name, _] => return name
  | _ => throwText ("Wrong message id: " ++ messageId)

/-- The receiving and the sending side of a communicator. -/
structure Endpoint (ε : Type) where
  receive : Call ε (Option (String × String))
  send : String → String → Call ε Unit

namespace Servant

variable (endpoint : Endpoint ε) (moduleDispatcher : String → Option (Module σ))

/-- The part of the loop of `run` that computes the response. -/
def process (messageIdIn messageIn : String) : Call σ (String × String) := do
  let moduleId ← getModuleNameFromMessageId messageIdIn
  match moduleDispatcher moduleId with
  | none => throwText ("Server: Module " ++ moduleId ++ " not activated.")
  | some processMessage =>
    match ← processMessage messageIdIn messageIn with
    | none => throwText ("Server: Error while processing message " ++ messageIdIn ++ ".")
    | some out => return out

/-- The `try` block of the loop: whether the loop goes on. -/
def attempt : Call (ε × σ) Bool := do
  match ← onFst endpoint.receive with
  | none => return false
  | some (messageIdIn, messageIn) =>
    let (messageIdOut, messageOut) ← onSnd (process moduleDispatcher messageIdIn messageIn)
    onFst (endpoint.send messageIdOut messageOut)
    return true

/-- An iteration of the loop: whether the loop goes on. -/
def iteration : Call (ε × σ) Bool := fun s =>
  match (attempt endpoint moduleDispatcher).run s with
  | .ok goesOn t => .ok goesOn t
  | .error (.runtimeError what) t =>
    match (onFst (endpoint.send "" what)).run t with
    | .ok _ u => .ok true u
    | .error .undefined u => .error .undefined u
    -- FATAL communication error
    | .error _ u => .ok false u
  -- FATAL processing error
  | .error .outOfRange t => .ok false t
  | .error .undefined t => .error .undefined t

/-- `run`, for at most so many requests. -/
def run : ℕ → Call (ε × σ) Unit
  | 0 => return
  | n + 1 => do
    if ← iteration endpoint moduleDispatcher then
      run n

end Servant

/-- A connection as the messages that the servant has yet to receive, and those that it has sent.
Its end is closed after the last of them. -/
structure Mailbox where
  incoming : List (String × String)
  outgoing : List (String × String)
  deriving DecidableEq, Repr

def Mailbox.endpoint : Endpoint Mailbox where
  receive := do
    match (← get).incoming with
    | [] => return none
    | message :: rest =>
      modify fun m => { m with incoming := rest }
      return some message
  send id text := modify fun m => { m with outgoing := m.outgoing ++ [(id, text)] }

namespace Servant

/-- An iteration of the loop on a message that has been received completely. -/
theorem iteration_run (moduleDispatcher : String → Option (Module σ)) (id text : String)
    (rest out : List (String × String)) (s : σ) :
    (iteration Mailbox.endpoint moduleDispatcher).run (⟨(id, text) :: rest, out⟩, s) =
      match (process moduleDispatcher id text).run s with
      | .ok response t => .ok true (⟨rest, out ++ [response]⟩, t)
      | .error (.runtimeError what) t => .ok true (⟨rest, out ++ [("", what)]⟩, t)
      | .error .outOfRange t => .ok false (⟨rest, out⟩, t)
      | .error .undefined t => .error .undefined (⟨rest, out⟩, t) := by
  have hattempt : (attempt Mailbox.endpoint moduleDispatcher).run (⟨(id, text) :: rest, out⟩, s) =
      match (process moduleDispatcher id text).run s with
      | .ok response t => .ok true (⟨rest, out ++ [response]⟩, t)
      | .error e t => .error e (⟨rest, out⟩, t) := by
    have hreceive : (onFst Mailbox.endpoint.receive : Call (Mailbox × σ) _).run
        (⟨(id, text) :: rest, out⟩, s) = .ok (some (id, text)) (⟨rest, out⟩, s) := rfl
    rw [attempt, EStateM.run_bind, hreceive]
    simp only [EStateM.run_bind, run_onSnd]
    cases (process moduleDispatcher id text).run s <;> rfl
  show iteration Mailbox.endpoint moduleDispatcher (⟨(id, text) :: rest, out⟩, s) = _
  rw [iteration, hattempt]
  cases (process moduleDispatcher id text).run s with
  | ok response t => rfl
  | error e t => cases e <;> rfl

end Servant

/-- A client's view of the server: its state, and whether the session is open. -/
structure Session (σ : Type) where
  server : σ
  isOpen : Bool

/-- `remoteCall`: the servant makes one iteration on the request. -/
def remoteCall {Req Res α : Type} (proto : Protobuf Req Res) (schema : Schema Req Res)
    (moduleDispatcher : String → Option (Module σ)) (request : Req) (expected : Expected Res α) :
    Call (Session σ) α := fun s =>
  if s.isOpen then
    let message := (schema.requestName request, proto.serializeRequest request)
    match (Servant.iteration Mailbox.endpoint moduleDispatcher).run (⟨[message], []⟩, s.server) with
    | .ok goesOn (mailbox, t) =>
      match readResponse proto expected mailbox.outgoing.head? with
      | .ok a => .ok a ⟨t, goesOn⟩
      | .error e => .error e ⟨t, goesOn⟩
    | .error e (_, t) => .error e ⟨t, false⟩
  else
    match readResponse proto expected none with
    | .ok a => .ok a s
    | .error e => .error e s

section RemoteCall

variable {Req Res α : Type} {proto : Protobuf Req Res} {schema : Schema Req Res}
  {moduleDispatcher : String → Option (Module σ)} {request : Req} {expected : Expected Res α}
  {s t : σ}

theorem remoteCall_run_ok {response : String × String} {a : α}
    (hprocess : (Servant.process moduleDispatcher (schema.requestName request)
      (proto.serializeRequest request)).run s = .ok response t)
    (hread : readResponse proto expected (some response) = .ok a) :
    (remoteCall proto schema moduleDispatcher request expected).run ⟨s, true⟩ =
      .ok a ⟨t, true⟩ := by
  show remoteCall proto schema moduleDispatcher request expected ⟨s, true⟩ = _
  simp only [remoteCall, if_true, Servant.iteration_run, hprocess, List.nil_append,
    List.head?_cons, hread]

theorem remoteCall_run_unreadable {response : String × String} {e : Exn}
    (hprocess : (Servant.process moduleDispatcher (schema.requestName request)
      (proto.serializeRequest request)).run s = .ok response t)
    (hread : readResponse proto expected (some response) = .error e) :
    (remoteCall proto schema moduleDispatcher request expected).run ⟨s, true⟩ =
      .error e ⟨t, true⟩ := by
  show remoteCall proto schema moduleDispatcher request expected ⟨s, true⟩ = _
  simp only [remoteCall, if_true, Servant.iteration_run, hprocess, List.nil_append,
    List.head?_cons, hread]

theorem remoteCall_run_error {what : String}
    (hprocess : (Servant.process moduleDispatcher (schema.requestName request)
      (proto.serializeRequest request)).run s = .error (.runtimeError what) t) :
    (remoteCall proto schema moduleDispatcher request expected).run ⟨s, true⟩ =
      .error (.runtimeError what) ⟨t, true⟩ := by
  show remoteCall proto schema moduleDispatcher request expected ⟨s, true⟩ = _
  simp only [remoteCall, if_true, Servant.iteration_run, hprocess, List.nil_append,
    List.head?_cons, readResponse]

theorem remoteCall_run_closed
    (hprocess : (Servant.process moduleDispatcher (schema.requestName request)
      (proto.serializeRequest request)).run s = .error .outOfRange t) :
    (remoteCall proto schema moduleDispatcher request expected).run ⟨s, true⟩ =
      .error (.runtimeError "Communicator: Server closed connection while receiving response.")
        ⟨t, false⟩ := by
  show remoteCall proto schema moduleDispatcher request expected ⟨s, true⟩ = _
  simp only [remoteCall, if_true, Servant.iteration_run, hprocess, List.head?_nil, readResponse]

theorem remoteCall_run_undefined
    (hprocess : (Servant.process moduleDispatcher (schema.requestName request)
      (proto.serializeRequest request)).run s = .error .undefined t) :
    (remoteCall proto schema moduleDispatcher request expected).run ⟨s, true⟩ =
      .error .undefined ⟨t, false⟩ := by
  show remoteCall proto schema moduleDispatcher request expected ⟨s, true⟩ = _
  simp only [remoteCall, if_true, Servant.iteration_run, hprocess]

end RemoteCall

end Mammut
