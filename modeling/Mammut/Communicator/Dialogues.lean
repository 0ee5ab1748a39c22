import Mathlib.Algebra.Group.Nat.Defs
import Mammut.Communicator.Communicator
import Mammut.Kit.Dialogues

/-! The functions of `communicator.cpp` as dialogues, to be interleaved with the other end of the
connection, and the bytes of a message. -/

namespace Mammut

open Kit

abbrev Talk (α : Type) := Dialogue UInt8 Exn α

/-- An identifier and a body. -/
abbrev Message := Bytes × Bytes

/-- The dialogue on a channel. -/
abbrev Talk.on {σ α : Type} (talk : Talk α) (channel : Channel σ) : Call σ α :=
  Dialogue.perform channel.send channel.receive talk

@[simp] theorem length_htonl (n : UInt32) : (htonl n).length = sizeofUint32 :=
  Wire.length_bigEndian _ _

/-- A length survives the byte order of the network when it fits the 32 bits. -/
theorem ntohl_htonl {n : ℕ} (hn : n < 2 ^ 32) : (ntohl (htonl (UInt32.ofNat n))).toNat = n := by
  have hmod : ∀ k : ℕ, k % 2 ^ 32 % 256 ^ sizeofUint32 % 2 ^ 32 = k % 2 ^ 32 := by
    intro k
    rw [sizeofUint32]
    omega
  rw [ntohl, htonl, Wire.value_bigEndian, UInt32.toNat_ofNat', UInt32.toNat_ofNat', hmod,
    Nat.mod_eq_of_lt hn]

/-- The bytes of a message on the connection. -/
def Communicator.frame (messageId message : Bytes) : Bytes :=
  htonl (UInt32.ofNat messageId.length) ++ messageId ++
    htonl (UInt32.ofNat message.length) ++ message

namespace Talk

def sendHeader (messageId : Bytes) (messageLength : ℕ) : Talk Unit := do
  let messageIdLen := messageId.length
  Dialogue.sends (htonl (UInt32.ofNat messageIdLen))
  if messageIdLen ≠ 0 then
    Dialogue.sends messageId
  Dialogue.sends (htonl (UInt32.ofNat messageLength))

def send (messageId message : Bytes) : Talk Unit := do
  sendHeader messageId message.length
  Dialogue.sends message

def receiveHeader (messageId : Bytes) : Talk (Option (Bytes × ℕ)) := do
  match ← Dialogue.receives sizeofUint32 with
  | none => return none
  | some inMessageIdLen =>
    let messageIdLen := (ntohl inMessageIdLen).toNat
    let messageId ←
      if messageIdLen ≠ 0 then
        match ← Dialogue.receives messageIdLen with
        | none => Dialogue.throw (.runtimeError "Communicator: Truncated receive.")
        | some messageIdArr => pure messageIdArr
      else pure messageId
    match ← Dialogue.receives sizeofUint32 with
    | none => Dialogue.throw (.runtimeError "Communicator: Truncated receive.")
    | some inMessageLength => return some (messageId, (ntohl inMessageLength).toNat)

def receive (messageId : Bytes) : Talk (Option Message) := do
  match ← receiveHeader messageId with
  | none => return none
  | some (messageId, messageLength) =>
    match ← Dialogue.receives messageLength with
    | none => Dialogue.throw (.runtimeError "Communicator: Truncated receive.")
    | some message => return some (messageId, message)

variable {σ : Type} (channel : Channel σ)

theorem sendHeader_on (messageId : Bytes) (messageLength : ℕ) :
    (sendHeader messageId messageLength).on channel =
      Communicator.sendHeader channel messageId messageLength := by
  by_cases hid : messageId.length = 0
  · simp [on, sendHeader, Communicator.sendHeader, Dialogue.perform_bind,
      Dialogue.perform_sends, hid]
  · simp [on, sendHeader, Communicator.sendHeader, Dialogue.perform_bind,
      Dialogue.perform_sends, hid]

theorem send_on (messageId message : Bytes) :
    (send messageId message).on channel = Communicator.send channel messageId message := by
  rw [send, Communicator.send, ← sendHeader_on]
  simp [on, Dialogue.perform_bind, Dialogue.perform_sends]

theorem receiveHeader_on (messageId : Bytes) :
    (receiveHeader messageId).on channel = Communicator.receiveHeader channel messageId := by
  refine Dialogue.perform_receives_bind fun inMessageIdLen => ?_
  cases inMessageIdLen with
  | none => rfl
  | some inMessageIdLen =>
    by_cases hid : (ntohl inMessageIdLen).toNat = 0
    · simp only [hid, ne_eq, not_true_eq_false, if_false]
      refine Dialogue.perform_receives_bind fun inMessageLength => ?_
      cases inMessageLength <;> rfl
    · simp only [hid, ne_eq, not_false_eq_true, if_true]
      refine Dialogue.perform_receives_bind fun messageIdArr => ?_
      cases messageIdArr with
      | none => rfl
      | some messageIdArr =>
        refine Dialogue.perform_receives_bind fun inMessageLength => ?_
        cases inMessageLength <;> rfl

theorem receive_on (messageId : Bytes) :
    (receive messageId).on channel = Communicator.receive channel messageId := by
  rw [receive, Communicator.receive, ← receiveHeader_on, on, Dialogue.perform_bind]
  congr 1
  funext header
  cases header with
  | none => rfl
  | some header =>
    refine Dialogue.perform_receives_bind fun message => ?_
    cases message <;> rfl

open Communicator

theorem sent_send (messageId message : Bytes) :
    (send messageId message).sent = frame messageId message := by
  by_cases hid : messageId = []
  · subst hid
    simp [send, sendHeader, frame]
  · simp [send, sendHeader, frame, hid]

theorem afterSent_send (messageId message : Bytes) :
    (send messageId message).afterSent = .done () := by
  by_cases hid : messageId = []
  · subst hid
    simp [send, sendHeader]
  · simp [send, sendHeader, hid]

theorem run_receives_htonl (n : UInt32) (left : Bytes) :
    (Dialogue.receives sizeofUint32 : Talk _).run (htonl n ++ left) =
      some (some (htonl n), left) := by
  rw [← length_htonl n]
  exact Dialogue.run_receives _ _

theorem run_receiveHeader {messageId : Bytes} {messageLength : ℕ}
    (hid : messageId.length < 2 ^ 32) (hlen : messageLength < 2 ^ 32) (left : Bytes) :
    (receiveHeader []).run (htonl (UInt32.ofNat messageId.length) ++
        (messageId ++ (htonl (UInt32.ofNat messageLength) ++ left))) =
      some (some (messageId, messageLength), left) := by
  rw [receiveHeader, Dialogue.run_bind, run_receives_htonl]
  simp only [Option.bind_some, ntohl_htonl hid]
  by_cases hnil : messageId = []
  · subst hnil
    simp [Dialogue.run_bind, run_receives_htonl, ntohl_htonl hlen, Dialogue.run_pure]
  · have hne : messageId.length ≠ 0 := by simpa using hnil
    simp [hne, Dialogue.run_bind, Dialogue.run_receives, run_receives_htonl, ntohl_htonl hlen,
      Dialogue.run_pure]

theorem run_receive {messageId message : Bytes}
    (hid : messageId.length < 2 ^ 32) (hlen : message.length < 2 ^ 32) (left : Bytes) :
    (receive []).run (frame messageId message ++ left) =
      some (some (messageId, message), left) := by
  have hheader := run_receiveHeader hid hlen (message ++ left)
  have hframe : frame messageId message ++ left = htonl (UInt32.ofNat messageId.length) ++
      (messageId ++ (htonl (UInt32.ofNat message.length) ++ (message ++ left))) := by
    simp [frame]
  rw [hframe, receive, Dialogue.run_bind, hheader]
  simp [Dialogue.run_bind, Dialogue.run_receives, Dialogue.run_pure]

end Talk

end Mammut
