import Mathlib.Algebra.Group.Nat.Defs
import Mathlib.Logic.Function.Basic
import Mammut.Communicator.Dialogues
import Mammut.Kit.Runs
import Mammut.Server.Answers

/-! The threads `T` of a client that share a communicator, and the servant at the other end of its
connection: the steps of `remoteCall`, from `communicator.cpp`, and those of the loop of `run`, from
`mammut-server.cpp`.  Bytes travel in parts of any size, and the steps interleave in any way. -/

namespace Mammut

open Kit Kit.Lockstep Utils

/-- The bytes of an identifier and of a text. -/
def messageOf (m : String × String) : Message := (bytesOf m.1, bytesOf m.2)

def textOf (m : Message) : String × String := (ofBytes m.1, ofBytes m.2)

/-- The lengths fit the header. -/
def Short (m : Message) : Prop := m.1.length < 2 ^ 32 ∧ m.2.length < 2 ^ 32

instance (m : Message) : Decidable (Short m) := inferInstanceAs (Decidable (_ ∧ _))

def frameOf (m : Message) : Bytes := Communicator.frame m.1 m.2

/-- The arguments of `remoteCall`. -/
structure RemoteCall (Req Res α : Type) where
  request : Req
  expected : Expected Res α

/-- The part of `remoteCall` that receives. -/
def receiveResponse : Talk Message := do
  match ← Talk.receive [] with
  | none => Dialogue.throw (.runtimeError
      "Communicator: Server closed connection while receiving response.")
  | some response => return response

/-- The part of `remoteCall` that holds the lock. -/
def exchange (request : Message) : Talk Message := do
  Talk.send request.1 request.2
  receiveResponse

/-- Where a thread is in `remoteCall`.  A call that has the lock carries its number in the order in
which calls got it. -/
inductive Caller (Req Res α : Type)
  | out
  | locking (call : RemoteCall Req Res α)
  | inside (call : RemoteCall Req Res α) (ticket : ℕ) (talk : Talk Message)
  /-- The lock is released, and the response is yet to be read. -/
  | reading (call : RemoteCall Req Res α) (ticket : ℕ) (received : Message)
  | returned (call : RemoteCall Req Res α) (ticket : ℕ) (result : Except Exn α)

/-- The thread is in no call. -/
def Caller.Outside {Req Res α : Type} : Caller Req Res α → Prop
  | out => True
  | returned _ _ _ => True
  | _ => False

/-- Where the servant is in its loop. -/
inductive ServantState
  | receiving (talk : Talk (Option Message))
  | sending (talk : Talk Unit)
  | ended

/-- The communicator, its connection, and both ends of it. -/
structure Sharing (T Req Res α σ : Type) where
  lock : Option T
  /-- The bytes on their way to the servant. -/
  requests : Bytes
  /-- The bytes on their way to the client. -/
  responses : Bytes
  thread : T → Caller Req Res α
  servant : ServantState
  /-- The state of the modules of the servant. -/
  modules : σ
  /-- The threads that have had the lock, in order, with their requests. -/
  acquired : List (T × Message)
  /-- The requests that the servant has processed, in order, with the responses. -/
  processed : List (Message × (String × String))

variable {T Req Res α σ : Type}

inductive Sharing.Event (T Req Res α : Type)
  | call (t : T) (call : RemoteCall Req Res α)
  | acquire (t : T)
  /-- The thread sends or receives. -/
  | talk (t : T)
  | release (t : T)
  | finish (t : T)
  /-- The servant sends or receives. -/
  | serve
  | respond (response : String × String)
  | again
  | close

variable (proto : Protobuf Req Res) (schema : Schema Req Res)

/-- What `remoteCall` sends. -/
def RemoteCall.message (call : RemoteCall Req Res α) : Message :=
  messageOf (schema.requestName call.request, proto.serializeRequest call.request)

/-- What `remoteCall` does with what it has received. -/
def RemoteCall.result (call : RemoteCall Req Res α) (received : Message) : Except Exn α :=
  readResponse proto call.expected (some (textOf received))

namespace Sharing

/-- A new communicator, and a new servant. -/
def new (modules : σ) : Sharing T Req Res α σ where
  lock := none
  requests := []
  responses := []
  thread _ := .out
  servant := .receiving (Talk.receive [])
  modules := modules
  acquired := []
  processed := []

variable [DecidableEq T]

def setThread (s : Sharing T Req Res α σ) (t : T) (caller : Caller Req Res α) :
    Sharing T Req Res α σ :=
  { s with thread := Function.update s.thread t caller }

variable (moduleDispatcher : String → Option (Module σ))

/-- The processing of a request whose bytes have been received. -/
def processMessage (request : Message) : Call σ (String × String) :=
  Servant.processRequest moduleDispatcher (textOf request)

inductive Step (s : Sharing T Req Res α σ) : Event T Req Res α → Sharing T Req Res α σ → Prop
  | call {t : T} {call : RemoteCall Req Res α} (hout : (s.thread t).Outside) :
      Step s (.call t call) (s.setThread t (.locking call))
  | acquire {t : T} {call : RemoteCall Req Res α} (hlocking : s.thread t = .locking call)
      (hfree : s.lock = none) :
      Step s (.acquire t)
        ({ s with lock := some t, acquired := s.acquired ++ [(t, call.message proto schema)] }.setThread t
          (.inside call s.acquired.length (exchange (call.message proto schema))))
  | talk {t : T} {call : RemoteCall Req Res α} {ticket : ℕ} {talk talk' : Talk Message}
      {requests responses : Bytes} (hinside : s.thread t = .inside call ticket talk)
      (htalk : Dialogue.Step (s.servant = .ended) talk s.responses s.requests
        talk' responses requests) :
      Step s (.talk t) ({ s with requests := requests, responses := responses }.setThread t
        (.inside call ticket talk'))
  | release {t : T} {call : RemoteCall Req Res α} {ticket : ℕ} {received : Message}
      (hinside : s.thread t = .inside call ticket (.done received)) :
      Step s (.release t) ({ s with lock := none }.setThread t (.reading call ticket received))
  /-- An exception leaves the block that holds the lock. -/
  | throws {t : T} {call : RemoteCall Req Res α} {ticket : ℕ} {e : Exn}
      (hinside : s.thread t = .inside call ticket (.throw e)) :
      Step s (.release t) ({ s with lock := none }.setThread t (.returned call ticket (.error e)))
  | finish {t : T} {call : RemoteCall Req Res α} {ticket : ℕ} {received : Message}
      (hreading : s.thread t = .reading call ticket received) :
      Step s (.finish t) (s.setThread t (.returned call ticket (call.result proto received)))
  | receive {talk talk' : Talk (Option Message)} {requests responses : Bytes}
      (hservant : s.servant = .receiving talk)
      (htalk : Dialogue.Step False talk s.requests s.responses talk' requests responses) :
      Step s .serve
        { s with servant := .receiving talk', requests := requests, responses := responses }
  | send {talk talk' : Talk Unit} {requests responses : Bytes}
      (hservant : s.servant = .sending talk)
      (htalk : Dialogue.Step False talk s.requests s.responses talk' requests responses) :
      Step s .serve
        { s with servant := .sending talk', requests := requests, responses := responses }
  | respond {request : Message} {response : String × String}
      (hservant : s.servant = .receiving (.done (some request)))
      (hresponse : Servant.Answers (outcome ((processMessage moduleDispatcher request).run s.modules))
        response) :
      Step s (.respond response)
        { s with
          servant := .sending (Talk.send (messageOf response).1 (messageOf response).2)
          modules := final ((processMessage moduleDispatcher request).run s.modules)
          processed := s.processed ++ [(request, response)] }
  /-- The exception of a receive that is cut short is sent to the client. -/
  | truncated {what : String} (hservant : s.servant = .receiving (.throw (.runtimeError what))) :
      Step s .serve { s with servant := .sending (Talk.send [] (bytesOf what)) }
  | again (hservant : s.servant = .sending (.done ())) :
      Step s .again { s with servant := .receiving (Talk.receive []) }
  /-- The connection is closed, or the processing ends the loop. -/
  | close {received : Option Message} (hservant : s.servant = .receiving (.done received))
      (hfatal : ∀ request ∈ received, ¬∃ response, Servant.Answers
        (outcome ((processMessage moduleDispatcher request).run s.modules)) response) :
      Step s .close { s with servant := .ended }

/-- The servant responds to each request, and messages have lengths that fit their headers:
protobuf makes none of 2 GiB or more. -/
def Serves (_ : Sharing T Req Res α σ) : Event T Req Res α → Prop
  | .call _ call => Short (call.message proto schema)
  | .respond response => Short (messageOf response)
  | .close => False
  | _ => True

end Sharing

end Mammut
