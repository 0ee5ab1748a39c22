import Mammut.Cxx

/-! Requests and responses, from `communicator.cpp`, `utils.hpp` and the messages that protobuf
generates.  A `std::string` that travels is the `String` whose characters are its bytes. -/

namespace Mammut

/-- The names of the messages of a module: `GetTypeName`. -/
structure Schema (Req Res : Type) where
  requestName : Req → String
  responseName : Res → String

/-- What protobuf generates for the messages of a module.  The parsers take the name of the type
of the message, and its text. -/
structure Protobuf (Req Res : Type) where
  serializeRequest : Req → String
  parseRequest : String → String → Option Req
  serializeResponse : Res → Option String
  parseResponse : String → String → Option Res

/-- Messages are parsed from what they are serialised to. -/
structure Protobuf.Lawful {Req Res : Type} (proto : Protobuf Req Res) (schema : Schema Req Res) :
    Prop where
  request : ∀ r, proto.parseRequest (schema.requestName r) (proto.serializeRequest r) = some r
  response : ∀ r, ∃ text, proto.serializeResponse r = some text ∧
    proto.parseResponse (schema.responseName r) text = some r

/-- A response that a call expects: the name of its type, and what the call reads from it. -/
structure Expected (Res α : Type) where
  name : String
  read : Res → Option α

variable {Req Res α : Type} (proto : Protobuf Req Res) (schema : Schema Req Res)

/-- `setMessageFromData`: the identifier and the text of a response. -/
def setMessageFromData (r : Res) : Option (String × String) :=
  (proto.serializeResponse r).map fun text => (schema.responseName r, text)

/-- What `remoteCall` does with what it has received; `none` if the connection was closed. -/
def readResponse (expected : Expected Res α) : Option (String × String) → Except Exn α
  | none => .error (.runtimeError
      "Communicator: Server closed connection while receiving response.")
  | some (responseMessageId, responseMessage) =>
    if responseMessageId = "" then .error (.runtimeError responseMessage)
    else if responseMessageId ≠ expected.name then
      .error (.runtimeError "remoteCall: Expected message does not match with received one.")
    else
      match (proto.parseResponse expected.name responseMessage).bind expected.read with
      | none => .error (.runtimeError "remoteCall: Impossible to parse received message.")
      | some a => .ok a

variable {proto}

theorem readResponse_error {expected : Expected Res α} {received : Option (String × String)}
    {e : Exn} (h : readResponse proto expected received = .error e) :
    ∃ what, e = .runtimeError what := by
  revert h
  fun_cases readResponse proto expected received <;> grind

end Mammut
