import Mammut.Cxx
import Mammut.Kit.Wire

/-! Messages on a connection, from `communicator.cpp` and `communicator-tcp.cpp`: a message is
sent as the length of its identifier, the identifier, the length of its body and the body. -/

namespace Mammut

open Kit

/-- The characters of a `std::string`, or of an array of `char`. -/
abbrev Bytes := List UInt8

/-- `sizeof(uint32_t)`. -/
def sizeofUint32 : ℕ := 4

/-- The bytes in memory of `htonl` of a number. -/
def htonl (n : UInt32) : Bytes := Wire.bigEndian sizeofUint32 n.toNat

def ntohl (bytes : Bytes) : UInt32 := UInt32.ofNat (Wire.value bytes)

/-- The virtual functions `send` and `receive` of a `Communicator`; `none` for `false`. -/
structure Channel (σ : Type) where
  send : Bytes → Call σ Unit
  receive : ℕ → Call σ (Option Bytes)

namespace Communicator

variable {σ : Type} (channel : Channel σ)

def sendHeader (messageId : Bytes) (messageLength : ℕ) : Call σ Unit := do
  let messageIdLen := messageId.length
  channel.send (htonl (UInt32.ofNat messageIdLen))
  if messageIdLen ≠ 0 then
    channel.send messageId
  channel.send (htonl (UInt32.ofNat messageLength))

def send (messageId message : Bytes) : Call σ Unit := do
  sendHeader channel messageId message.length
  channel.send message

/-- The identifier and the length of the body; `messageId` is the value of the argument. -/
def receiveHeader (messageId : Bytes) : Call σ (Option (Bytes × ℕ)) := do
  match ← channel.receive sizeofUint32 with
  | none => return none
  | some inMessageIdLen =>
    let messageIdLen := (ntohl inMessageIdLen).toNat
    let messageId ←
      if messageIdLen ≠ 0 then
        match ← channel.receive messageIdLen with
        | none => throw (.runtimeError "Communicator: Truncated receive.")
        | some messageIdArr => pure messageIdArr
      else pure messageId
    match ← channel.receive sizeofUint32 with
    | none => throw (.runtimeError "Communicator: Truncated receive.")
    | some inMessageLength => return some (messageId, (ntohl inMessageLength).toNat)

/-- The identifier and the body; `none` when the connection was closed. -/
def receive (messageId : Bytes) : Call σ (Option (Bytes × Bytes)) := do
  match ← receiveHeader channel messageId with
  | none => return none
  | some (messageId, messageLength) =>
    match ← channel.receive messageLength with
    | none => throw (.runtimeError "Communicator: Truncated receive.")
    | some message => return some (messageId, message)

end Communicator

/-- The system calls on a socket.  A failed one gives the text of `errno`. -/
structure Socket (σ : Type) where
  read : ℕ → σ → Except String Bytes × σ
  write : Bytes → σ → Except String ℕ × σ
  /-- `errnoToStr` after a `write` that did not fail. -/
  errnoToStr : String

namespace CommunicatorTcp

variable {σ : Type} (socket : Socket σ)

def send (message : Bytes) : Call σ Unit := do
  let result ← modifyGet (socket.write message)
  match result with
  | .error errno => throw (.runtimeError ("CommunicatorTcp: Write failed: " ++ errno))
  | .ok written =>
    if written ≠ message.length then
      throw (.runtimeError ("CommunicatorTcp: Write failed: " ++ socket.errnoToStr))

/-- The loop of `receive`, `message` being what it has read.  Every iteration but the last reads
a byte, so `messageLength` of them are enough. -/
def receiveLoop (messageLength : ℕ) : ℕ → Bytes → Call σ (Option Bytes)
  | 0, message => return some message
  | fuel + 1, message => do
    if message.length < messageLength then
      match ← modifyGet (socket.read (messageLength - message.length)) with
      | .error errno => throw (.runtimeError ("CommunicatorTcp: Read failed: " ++ errno))
      | .ok result =>
        if result = [] then
          return none
        receiveLoop messageLength fuel (message ++ result)
    else
      return some message

def receive (messageLength : ℕ) : Call σ (Option Bytes) :=
  receiveLoop socket messageLength messageLength []

def channel : Channel σ := ⟨send socket, receive socket⟩

end CommunicatorTcp

/-- A connection that loses nothing: the parts in which the bytes arrive, and the bytes sent. -/
structure Connection where
  incoming : List (Wire.Chunk UInt8)
  outgoing : Bytes
  deriving DecidableEq, Repr

namespace Connection

/-- What `read` transfers at most, so that its result is an `int`. -/
def maxTransfer : ℕ := 0x7ffff000

def socket : Socket Connection where
  read n s :=
    let (bytes, left) := Wire.readSome (min n maxTransfer) s.incoming
    (.ok bytes, { s with incoming := left })
  write bytes s := (.ok bytes.length, { s with outgoing := s.outgoing ++ bytes })
  errnoToStr := "Success"

end Connection

end Mammut
