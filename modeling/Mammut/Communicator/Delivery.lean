import Mammut.Communicator.Dialogues

/-! What is sent on a connection is received, whatever the parts in which it arrives.  Reading is
described by what is read and by the contents still to come, which do not depend on the parts. -/

namespace Mammut

open Kit

namespace Connection

/-- From a stream whose contents to come are `pending`, a call returns `a` and leaves `left`. -/
def Takes {α : Type} (call : Call Connection α) (pending : Bytes) (a : α) (left : Bytes) : Prop :=
  ∀ s : Connection, Wire.contents s.incoming = pending → ∃ t, call.run s = .ok a t ∧
    Wire.contents t.incoming = left ∧ t.outgoing = s.outgoing

variable {α β : Type} {call : Call Connection α} {f : α → Call Connection β} {a : α} {b : β}
  {pending left rest : Bytes}

theorem takes_pure : Takes (pure a) pending a pending :=
  fun s hs => ⟨s, rfl, hs, rfl⟩

theorem Takes.bind (hcall : Takes call pending a left) (hf : Takes (f a) left b rest) :
    Takes (call >>= f) pending b rest := by
  intro s hs
  obtain ⟨t, hrun, hleft, hout⟩ := hcall s hs
  obtain ⟨u, hrun', hrest, hout'⟩ := hf t hleft
  refine ⟨u, ?_, hrest, hout'.trans hout⟩
  rw [EStateM.run_bind, hrun]
  exact hrun'

/-- A read gives a first part of what is to come, and it is not empty. -/
theorem read_some {n : ℕ} (hn : n ≠ 0) (s : Connection) (hs : Wire.contents s.incoming ≠ []) :
    ∃ part t, socket.read n s = (.ok part, t) ∧ part ≠ [] ∧ part.length ≤ n ∧
      part ++ Wire.contents t.incoming = Wire.contents s.incoming ∧ t.outgoing = s.outgoing := by
  have hmin : min n maxTransfer ≠ 0 := by
    have : maxTransfer ≠ 0 := by decide
    omega
  refine ⟨_, _, rfl, Wire.readSome_ne_nil hmin hs, ?_, Wire.readSome_contents, rfl⟩
  exact Nat.le_trans Wire.readSome_length_le (Nat.min_le_left _ _)

end Connection

open Connection

namespace CommunicatorTcp

theorem receiveLoop_read {σ : Type} {sock : Socket σ} {n fuel : ℕ} {got part : Bytes} {s t : σ}
    (hlt : got.length < n) (hread : sock.read (n - got.length) s = (.ok part, t))
    (hpart : part ≠ []) :
    (receiveLoop sock n (fuel + 1) got).run s = (receiveLoop sock n fuel (got ++ part)).run t := by
  rw [receiveLoop, if_pos hlt, EStateM.run_bind]
  simp [hread, hpart]

/-- The loop completes a message of which it has read the bytes `got`. -/
theorem receiveLoop_takes (fuel : ℕ) (got todo left : Bytes) (hfuel : todo.length ≤ fuel) :
    Takes (receiveLoop Connection.socket (got ++ todo).length fuel got) (todo ++ left)
      (some (got ++ todo)) left := by
  induction fuel generalizing got todo with
  | zero =>
    have htodo : todo = [] := List.length_eq_zero_iff.mp (Nat.le_zero.mp hfuel)
    subst htodo
    simpa [receiveLoop] using takes_pure
  | succ fuel ih =>
    intro s hs
    by_cases htodo : todo = []
    · subst htodo
      refine ⟨s, ?_, hs, rfl⟩
      simp [receiveLoop]
    · have hpos : todo.length ≠ 0 := by simpa using htodo
      obtain ⟨part, t, hread, hpart, hlen, hcontents, hout⟩ :=
        read_some hpos s (by rw [hs]; simp [htodo])
      rw [hs] at hcontents
      obtain ⟨todo', rfl, hleft⟩ : ∃ todo', todo = part ++ todo' ∧
          Wire.contents t.incoming = todo' ++ left := by
        obtain ⟨todo', htodo', hleft⟩ | ⟨more, hmore, hleft⟩ :=
          List.append_eq_append_iff.mp hcontents
        · exact ⟨todo', htodo', hleft⟩
        · have hnil : more = [] := by
            rw [hmore, List.length_append] at hlen
            exact List.length_eq_zero_iff.mp (by omega)
          subst hnil
          exact ⟨[], by simpa using hmore.symm, by simpa using hleft.symm⟩
      have hfuel' : todo'.length ≤ fuel := by
        have : part.length ≠ 0 := by simpa using hpart
        rw [List.length_append] at hfuel
        omega
      obtain ⟨u, hrun, hrest, hout'⟩ := ih (got ++ part) todo' hfuel' t hleft
      refine ⟨u, ?_, hrest, hout'.trans hout⟩
      have hlt : got.length < (got ++ (part ++ todo')).length := by
        rw [List.length_append]
        omega
      have hask : (got ++ (part ++ todo')).length - got.length = (part ++ todo').length := by
        rw [List.length_append, Nat.add_sub_cancel_left]
      rw [← hask] at hread
      rw [receiveLoop_read hlt hread hpart, ← List.append_assoc]
      exact hrun

/-- What is to come is received, in as many bytes as the caller asks for. -/
theorem receive_takes (message left : Bytes) :
    Takes (receive Connection.socket message.length) (message ++ left) (some message) left :=
  receiveLoop_takes message.length [] message left (Nat.le_refl _)

theorem send_sent (message : Bytes) (s : Connection) :
    (send Connection.socket message).run s =
      .ok () { s with outgoing := s.outgoing ++ message } := by
  have hwrite : (modifyGet (Connection.socket.write message) : Call Connection _).run s =
      .ok (.ok message.length) { s with outgoing := s.outgoing ++ message } := rfl
  rw [send, EStateM.run_bind, hwrite]
  simp

end CommunicatorTcp

namespace Communicator

open CommunicatorTcp

theorem send_frame (messageId message : Bytes) (s : Connection) :
    (send (channel Connection.socket) messageId message).run s =
      .ok () { s with outgoing := s.outgoing ++ frame messageId message } := by
  by_cases hid : messageId = []
  · subst hid
    simp [send, sendHeader, channel, send_sent, EStateM.run_bind, frame]
  · simp [send, sendHeader, channel, send_sent, EStateM.run_bind, frame, hid]

/-- A dialogue receives what its run says from any stream with these contents. -/
theorem run_takes {α : Type} {talk : Talk α} {pending left : Bytes} {a : α}
    (h : talk.run pending = some (a, left)) :
    Takes (talk.on (channel Connection.socket)) pending a left := by
  induction talk generalizing pending with
  | done a =>
    cases h
    exact takes_pure
  | throw e => cases h
  | send elements next ih => cases h
  | receive n next ih =>
    by_cases hn : n ≤ pending.length
    · rw [Dialogue.run, if_pos hn] at h
      have htakes := receive_takes (pending.take n) (pending.drop n)
      rw [List.length_take_of_le hn, List.take_append_drop] at htakes
      exact htakes.bind (ih _ h)
    · rw [Dialogue.run, if_neg hn] at h
      cases h

theorem receive_frame_takes {messageId message : Bytes}
    (hid : messageId.length < 2 ^ 32) (hlen : message.length < 2 ^ 32) (left : Bytes) :
    Takes (receive (channel Connection.socket) []) (frame messageId message ++ left)
      (some (messageId, message)) left := by
  rw [← Talk.receive_on]
  exact run_takes (Talk.run_receive hid hlen left)

/-- Messages sent one after the other. -/
def sendAll {σ : Type} (ch : Channel σ) (messages : List (Bytes × Bytes)) : Call σ Unit :=
  messages.forM fun m => send ch m.1 m.2

/-- Successive calls of `receive`, each with an empty `messageId`, as the callers make them. -/
def receiveMany {σ : Type} (ch : Channel σ) : ℕ → Call σ (List (Option (Bytes × Bytes)))
  | 0 => return []
  | n + 1 => do
    let received ← receive ch []
    let rest ← receiveMany ch n
    return received :: rest

def frames (messages : List (Bytes × Bytes)) : Bytes := messages.flatMap fun m => frame m.1 m.2

theorem sendAll_frames (messages : List (Bytes × Bytes)) (s : Connection) :
    (sendAll (channel Connection.socket) messages).run s =
      .ok () { s with outgoing := s.outgoing ++ frames messages } := by
  induction messages generalizing s with
  | nil => simp [sendAll, frames]
  | cons m rest ih =>
    have hcons : sendAll (channel Connection.socket) (m :: rest) =
        send (channel Connection.socket) m.1 m.2 >>= fun _ =>
          sendAll (channel Connection.socket) rest := rfl
    rw [hcons, EStateM.run_bind, send_frame]
    apply (ih _).trans
    simp [frames]

theorem receiveMany_takes {messages : List (Bytes × Bytes)}
    (hlen : ∀ m ∈ messages, m.1.length < 2 ^ 32 ∧ m.2.length < 2 ^ 32) (left : Bytes) :
    Takes (receiveMany (channel Connection.socket) messages.length) (frames messages ++ left)
      (messages.map some) left := by
  induction messages with
  | nil => exact takes_pure
  | cons m rest ih =>
    obtain ⟨hid, hbody⟩ := hlen m List.mem_cons_self
    have hfirst := receive_frame_takes hid hbody (frames rest ++ left)
    rw [← List.append_assoc] at hfirst
    exact hfirst.bind ((ih fun n hn => hlen n (List.mem_cons_of_mem m hn)).bind takes_pure)

/-- Messages with an empty identifier, with an empty body, and with bytes like those of a header. -/
def someMessages : List (Bytes × Bytes) := [([7, 8], [9]), ([], []), ([0, 0, 0, 1], [0, 0, 0, 0])]

end Communicator

end Mammut
