import Mammut.Communicator.Delivery

/-! What is received when the peer closes the connection before all that was sent has arrived.
How a call ends then is a matter of the bytes that did, and not of the parts in which they came. -/

namespace Mammut

open Kit

namespace Connection

variable {α β : Type} {call : Call Connection α} {f : α → Call Connection β} {pending : Bytes}

/-- From a stream whose contents to come are `pending`, a call returns or throws, and leaves the
second. -/
def Ends (call : Call Connection α) (pending : Bytes) (r : Except Exn α × Bytes) : Prop :=
  ∀ s : Connection, Wire.contents s.incoming = pending → ∃ t,
    Wire.contents t.incoming = r.2 ∧ call.run s = match r.1 with
      | .ok a => .ok a t
      | .error e => .error e t

theorem Takes.ends {a : α} {left : Bytes} (h : Takes call pending a left) :
    Ends call pending (.ok a, left) := by
  intro s hs
  obtain ⟨t, hrun, hleft, -⟩ := h s hs
  exact ⟨t, hleft, hrun⟩

theorem Ends.bind {a : α} {left : Bytes} {r : Except Exn β × Bytes}
    (hcall : Ends call pending (.ok a, left)) (hf : Ends (f a) left r) :
    Ends (call >>= f) pending r := by
  intro s hs
  obtain ⟨t, hleft, hrun⟩ := hcall s hs
  obtain ⟨u, hrest, hrun'⟩ := hf t hleft
  refine ⟨u, hrest, ?_⟩
  rw [EStateM.run_bind, hrun]
  exact hrun'

end Connection

open Connection

namespace CommunicatorTcp

/-- The loop comes to the end of a stream that does not bring all the bytes. -/
theorem receiveLoop_short {n : ℕ} (fuel : ℕ) (got pending : Bytes)
    (hshort : got.length + pending.length < n) (hfuel : n - got.length ≤ fuel) :
    Takes (receiveLoop Connection.socket n fuel got) pending none [] := by
  induction fuel generalizing got pending with
  | zero => omega
  | succ fuel ih =>
    intro s hs
    have hlt : got.length < n := by omega
    have hask : n - got.length ≠ 0 := by omega
    by_cases hpending : pending = []
    · subst hpending
      obtain ⟨incoming, outgoing⟩ := s
      cases incoming with
      | nil =>
        have hread : Connection.socket.read (n - got.length) ⟨[], outgoing⟩ =
            (.ok [], ⟨[], outgoing⟩) := rfl
        refine ⟨⟨[], outgoing⟩, ?_, rfl, rfl⟩
        rw [receiveLoop, if_pos hlt, EStateM.run_bind]
        simp [hread]
      | cons c rest =>
        have hc : c.1 = [] := (List.append_eq_nil_iff.mp hs).1
        exact absurd hc c.2
    · obtain ⟨part, t, hread, hpart, -, hcontents, hout⟩ :=
        read_some hask s (by rw [hs]; exact hpending)
      have hpos : part.length ≠ 0 := by simpa using hpart
      have hlength := congrArg List.length hcontents
      rw [hs, List.length_append] at hlength
      obtain ⟨u, hrun, hleft, hout'⟩ := ih (got ++ part) (Wire.contents t.incoming)
        (by rw [List.length_append]; omega) (by rw [List.length_append]; omega) t rfl
      refine ⟨u, ?_, hleft, hout'.trans hout⟩
      rw [receiveLoop_read hlt hread hpart]
      exact hrun

theorem receive_short {n : ℕ} {pending : Bytes} (h : pending.length < n) :
    Takes (receive Connection.socket n) pending none [] :=
  receiveLoop_short n [] pending (by simpa using h) (Nat.sub_le ..)

end CommunicatorTcp

namespace Communicator

open CommunicatorTcp

/-- A dialogue ends on a connection as it does on the bytes that come. -/
theorem runClosed_ends {α : Type} (talk : Talk α) (pending : Bytes) :
    Ends (talk.on (channel Connection.socket)) pending (talk.runClosed pending) := by
  induction talk generalizing pending with
  | done a => exact takes_pure.ends
  | throw e => exact fun s hs => ⟨s, hs, rfl⟩
  | send elements next ih =>
    have hsend : Ends (CommunicatorTcp.send Connection.socket elements) pending (.ok (), pending) :=
      fun s hs => ⟨{ s with outgoing := s.outgoing ++ elements }, hs, send_sent elements s⟩
    exact hsend.bind (ih pending)
  | receive n next ih =>
    by_cases hn : n ≤ pending.length
    · have htakes := receive_takes (pending.take n) (pending.drop n)
      rw [List.length_take_of_le hn, List.take_append_drop] at htakes
      rw [Dialogue.runClosed, if_pos hn]
      exact htakes.ends.bind (ih _ _)
    · rw [Dialogue.runClosed, if_neg hn]
      exact (receive_short (Nat.lt_of_not_le hn)).ends.bind (ih _ _)

/-- The length that the first length field of a stream gives to the identifier. -/
def announcedId (pending : Bytes) : ℕ := (ntohl (pending.take sizeofUint32)).toNat

/-- The length that the length fields at the beginning of a stream give to the first message, as far
as they are there. -/
def announced (pending : Bytes) : ℕ :=
  let afterId := pending.drop (sizeofUint32 + announcedId pending)
  2 * sizeofUint32 + announcedId pending + (ntohl (afterId.take sizeofUint32)).toNat

def truncated : Exn := .runtimeError "Communicator: Truncated receive."

section Ends

variable {pending : Bytes}

theorem runClosed_receive_closed (h : pending.length < sizeofUint32) :
    (Talk.receive []).runClosed pending = (.ok none, []) := by
  have hheader : (Talk.receiveHeader []).runClosed pending = (.ok none, []) := by
    rw [Talk.receiveHeader, Dialogue.runClosed_bind_ok (Dialogue.runClosed_receives_short h)]
    rfl
  rw [Talk.receive, Dialogue.runClosed_bind_ok hheader]
  rfl

/-- The header of a message whose second length field has not arrived. -/
theorem runClosed_receiveHeader_short (h : sizeofUint32 ≤ pending.length)
    (hshort : pending.length < 2 * sizeofUint32 + announcedId pending) :
    (Talk.receiveHeader []).runClosed pending = (.error truncated, []) := by
  rw [Talk.receiveHeader, Dialogue.runClosed_bind_ok (Dialogue.runClosed_receives h)]
  show Dialogue.runClosed (if announcedId pending ≠ 0 then _ else _) _ = _
  have hlength : (pending.drop sizeofUint32).length = pending.length - sizeofUint32 :=
    List.length_drop
  by_cases hid : announcedId pending = 0
  · rw [if_neg (by simpa using hid)]
    have hlast : (pending.drop sizeofUint32).length < sizeofUint32 := by omega
    exact Dialogue.runClosed_bind_ok (Dialogue.runClosed_receives_short hlast) _
  · rw [if_pos hid]
    by_cases hcut : (pending.drop sizeofUint32).length < announcedId pending
    · exact Dialogue.runClosed_bind_ok (Dialogue.runClosed_receives_short hcut) _
    · have hgot := Dialogue.runClosed_receives (ε := Exn) (Nat.le_of_not_lt hcut)
      apply (Dialogue.runClosed_bind_ok hgot _).trans
      have hlast : ((pending.drop sizeofUint32).drop (announcedId pending)).length <
          sizeofUint32 := by
        rw [List.length_drop]
        omega
      exact Dialogue.runClosed_bind_ok (Dialogue.runClosed_receives_short hlast) _

theorem runClosed_receiveHeader (h : 2 * sizeofUint32 + announcedId pending ≤ pending.length) :
    (Talk.receiveHeader []).runClosed pending =
      (.ok (some ((pending.drop sizeofUint32).take (announcedId pending),
          announced pending - (2 * sizeofUint32 + announcedId pending))),
        pending.drop (2 * sizeofUint32 + announcedId pending)) := by
  have hfirst : sizeofUint32 ≤ pending.length := by omega
  have hbody : announced pending - (2 * sizeofUint32 + announcedId pending) =
      (ntohl ((pending.drop (sizeofUint32 + announcedId pending)).take sizeofUint32)).toNat := by
    simp [announced]
  have hdrop : pending.drop (2 * sizeofUint32 + announcedId pending) =
      (pending.drop (sizeofUint32 + announcedId pending)).drop sizeofUint32 := by
    rw [List.drop_drop]
    congr 1
    omega
  have hlast : sizeofUint32 ≤ (pending.drop (sizeofUint32 + announcedId pending)).length := by
    rw [List.length_drop]
    omega
  rw [hbody, hdrop, Talk.receiveHeader,
    Dialogue.runClosed_bind_ok (Dialogue.runClosed_receives hfirst)]
  show Dialogue.runClosed (if announcedId pending ≠ 0 then _ else _) _ = _
  by_cases hid : announcedId pending = 0
  · rw [if_neg (by simpa using hid)]
    rw [hid, Nat.add_zero] at hlast ⊢
    exact Dialogue.runClosed_bind_ok (Dialogue.runClosed_receives hlast) _
  · have hcut : announcedId pending ≤ (pending.drop sizeofUint32).length := by
      rw [List.length_drop]
      omega
    have hgot := Dialogue.runClosed_receives (ε := Exn) hcut
    rw [if_pos hid]
    apply (Dialogue.runClosed_bind_ok hgot _).trans
    rw [← List.drop_drop] at hlast ⊢
    exact Dialogue.runClosed_bind_ok (Dialogue.runClosed_receives hlast) _

/-- A message is cut when fewer bytes than its length fields announce have arrived. -/
theorem runClosed_receive_truncated (h : sizeofUint32 ≤ pending.length)
    (hshort : pending.length < announced pending) :
    (Talk.receive []).runClosed pending = (.error truncated, []) := by
  rw [Talk.receive]
  by_cases hheader : pending.length < 2 * sizeofUint32 + announcedId pending
  · exact Dialogue.runClosed_bind_error (runClosed_receiveHeader_short h hheader) _
  · rw [Dialogue.runClosed_bind_ok (runClosed_receiveHeader (Nat.le_of_not_lt hheader))]
    have hbody : (pending.drop (2 * sizeofUint32 + announcedId pending)).length <
        announced pending - (2 * sizeofUint32 + announcedId pending) := by
      rw [List.length_drop]
      omega
    exact Dialogue.runClosed_bind_ok (Dialogue.runClosed_receives_short hbody) _

theorem runClosed_receive_complete (h : announced pending ≤ pending.length) :
    ∃ m left, (Talk.receive []).runClosed pending = (.ok (some m), left) ∧
      m.1.length < 2 ^ 32 ∧ m.2.length < 2 ^ 32 := by
  have hle : 2 * sizeofUint32 + announcedId pending ≤ announced pending := Nat.le_add_right ..
  have hbody : announced pending - (2 * sizeofUint32 + announcedId pending) ≤
      (pending.drop (2 * sizeofUint32 + announcedId pending)).length := by
    rw [List.length_drop]
    omega
  have hfits : announced pending - (2 * sizeofUint32 + announcedId pending) < 2 ^ 32 := by
    rw [announced, Nat.add_sub_cancel_left]
    exact UInt32.toNat_lt _
  rw [Talk.receive, Dialogue.runClosed_bind_ok (runClosed_receiveHeader (Nat.le_trans hle h))]
  refine ⟨_, _, Dialogue.runClosed_bind_ok (Dialogue.runClosed_receives hbody) _, ?_, ?_⟩
  · exact Nat.lt_of_le_of_lt (List.length_take_le ..) (UInt32.toNat_lt _)
  · exact Nat.lt_of_le_of_lt (List.length_take_le ..) hfits

/-- The length fields of a part of a message announce more than the part. -/
theorem lt_announced {messageId message : Bytes} (hid : messageId.length < 2 ^ 32)
    (hlen : message.length < 2 ^ 32) (hpart : pending <+: frame messageId message)
    (hfirst : sizeofUint32 ≤ pending.length)
    (hcut : pending.length < (frame messageId message).length) :
    pending.length < announced pending := by
  obtain ⟨rest, hrest⟩ := hpart
  have htake : (pending ++ rest).take sizeofUint32 = pending.take sizeofUint32 :=
    List.take_append_of_le_length hfirst
  have hannounced : announcedId pending = messageId.length := by
    rw [announcedId, ← htake, hrest]
    simp [frame, ntohl_htonl hid]
  by_cases hheader : pending.length < 2 * sizeofUint32 + announcedId pending
  · exact Nat.lt_of_lt_of_le hheader (Nat.le_add_right ..)
  · have hdrop : (pending ++ rest).drop (sizeofUint32 + announcedId pending) =
        pending.drop (sizeofUint32 + announcedId pending) ++ rest :=
      List.drop_append_of_le_length (by omega)
    have hlast : sizeofUint32 ≤ (pending.drop (sizeofUint32 + announcedId pending)).length := by
      rw [List.length_drop]
      omega
    have htake' : (pending.drop (sizeofUint32 + announcedId pending) ++ rest).take sizeofUint32 =
        (pending.drop (sizeofUint32 + announcedId pending)).take sizeofUint32 :=
      List.take_append_of_le_length hlast
    have hbody : (ntohl ((pending.drop (sizeofUint32 + announcedId pending)).take
        sizeofUint32)).toNat = message.length := by
      rw [← htake', ← hdrop, hrest, hannounced]
      simp [frame, ← List.drop_drop, ntohl_htonl hlen]
    rw [announced, hbody, hannounced]
    simp only [frame, List.length_append, length_htonl] at hcut
    omega

end Ends

/-- The messages all of whose bytes are among the first `k` that are sent, and those bytes of the
next message that are. -/
def cut : List Message → ℕ → List Message × Bytes
  | [], _ => ([], [])
  | m :: rest, k =>
    if (frame m.1 m.2).length ≤ k then
      let later := cut rest (k - (frame m.1 m.2).length)
      (m :: later.1, later.2)
    else ([], (frame m.1 m.2).take k)

theorem cut_spec {messages : List Message} {k : ℕ} (hk : k < (frames messages).length) :
    (frames messages).take k = frames (cut messages k).1 ++ (cut messages k).2 ∧
      ∃ m rest, messages = (cut messages k).1 ++ m :: rest ∧
        (cut messages k).2 <+: frame m.1 m.2 ∧
        (cut messages k).2.length < (frame m.1 m.2).length := by
  induction messages generalizing k with
  | nil => exact absurd hk (Nat.not_lt_zero k)
  | cons m rest ih =>
    have hframes : frames (m :: rest) = frame m.1 m.2 ++ frames rest := by simp [frames]
    rw [hframes, List.length_append] at hk
    by_cases hle : (frame m.1 m.2).length ≤ k
    · obtain ⟨htake, next, later, hmessages, hpart, hlt⟩ :=
        ih (k := k - (frame m.1 m.2).length) (by omega)
      rw [cut, if_pos hle, hframes, List.take_append, List.take_of_length_le hle, htake]
      refine ⟨by simp [frames], next, later, ?_, hpart, hlt⟩
      rw [List.cons_append, ← hmessages]
    · rw [cut, if_neg hle, hframes, List.take_append_of_le_length (by omega)]
      refine ⟨by simp [frames], m, rest, rfl, List.take_prefix .., ?_⟩
      rw [List.length_take]
      omega

/-- The complete messages among the first `k` bytes are received, and the next call tells a closed
connection from a message that was cut. -/
def ReportsCut (messages : List Message) (k : ℕ) (s : Connection) : Prop :=
  ∃ t u, (receiveMany (channel Connection.socket) (cut messages k).1.length).run s =
      .ok ((cut messages k).1.map some) t ∧
    (receive (channel Connection.socket) []).run t =
      if (cut messages k).2 = [] then .ok none u else .error truncated u

theorem receive_ends (pending : Bytes) :
    Ends (receive (channel Connection.socket) []) pending
      ((Talk.receive []).runClosed pending) := by
  rw [← Talk.receive_on]
  exact runClosed_ends _ pending

/-- A message that is received has lengths that fit their fields. -/
theorem receive_fits {s t : Connection} {m : Message}
    (h : (receive (channel Connection.socket) []).run s = .ok (some m) t) :
    m.1.length < 2 ^ 32 ∧ m.2.length < 2 ^ 32 := by
  obtain ⟨u, -, hrun⟩ := receive_ends (Wire.contents s.incoming) s rfl
  rw [h] at hrun
  by_cases hfirst : (Wire.contents s.incoming).length < sizeofUint32
  · rw [runClosed_receive_closed hfirst] at hrun
    cases hrun
  · by_cases hshort : (Wire.contents s.incoming).length < announced (Wire.contents s.incoming)
    · rw [runClosed_receive_truncated (Nat.le_of_not_lt hfirst) hshort] at hrun
      cases hrun
    · obtain ⟨m', left, hclosed, hfits⟩ := runClosed_receive_complete (Nat.le_of_not_lt hshort)
      rw [hclosed] at hrun
      cases hrun
      exact hfits

theorem receiveMany_fits {messages : List Message} {s t : Connection}
    (h : (receiveMany (channel Connection.socket) messages.length).run s =
      .ok (messages.map some) t) :
    ∀ m ∈ messages, m.1.length < 2 ^ 32 ∧ m.2.length < 2 ^ 32 := by
  induction messages generalizing s with
  | nil => exact fun m hm => absurd hm List.not_mem_nil
  | cons m rest ih =>
    obtain ⟨received, s1, hfirst, hrest⟩ := Kit.Programs.ok_of_bind h
    obtain ⟨others, s2, hothers, hresult⟩ := Kit.Programs.ok_of_bind hrest
    cases hresult
    intro n hn
    rcases List.mem_cons.mp hn with rfl | hn
    · exact receive_fits hfirst
    · exact ih hothers n hn

/-- When the complete messages are received, the next call tells a message that was cut, unless the
part of it is too short for its first length field, or long enough for what its fields announce. -/
theorem reportsCut_of_fits {messages : List Message} {k : ℕ} {s : Connection}
    (hk : k < (frames messages).length)
    (hs : Wire.contents s.incoming = (frames messages).take k)
    (hfits : ∀ m ∈ (cut messages k).1, m.1.length < 2 ^ 32 ∧ m.2.length < 2 ^ 32) :
    ReportsCut messages k s ↔ (cut messages k).2 = [] ∨
      sizeofUint32 ≤ (cut messages k).2.length ∧
        (cut messages k).2.length < announced (cut messages k).2 := by
  obtain ⟨t, hrun, hleft, -⟩ := receiveMany_takes hfits (cut messages k).2 s
    (hs.trans (cut_spec hk).1)
  obtain ⟨u, -, hnext⟩ := receive_ends (cut messages k).2 t hleft
  -- The calls have one outcome: it remains to compare that of the last with what is asked of it.
  have hreports : ReportsCut messages k s ↔ ∃ v,
      (receive (channel Connection.socket) []).run t =
        if (cut messages k).2 = [] then .ok none v else .error truncated v := by
    constructor
    · rintro ⟨t', v, hrun', hlast⟩
      rw [hrun, EStateM.Result.ok.injEq] at hrun'
      exact ⟨v, hrun'.2 ▸ hlast⟩
    · rintro ⟨v, hlast⟩
      exact ⟨t, v, hrun, hlast⟩
  rw [hreports, hnext]
  by_cases hnil : (cut messages k).2 = []
  · have hclosed : (cut messages k).2.length < sizeofUint32 := by rw [hnil]; decide
    simp only [runClosed_receive_closed hclosed, if_pos hnil]
    exact ⟨fun _ => .inl hnil, fun _ => ⟨u, rfl⟩⟩
  · by_cases hfirst : (cut messages k).2.length < sizeofUint32
    · simp only [runClosed_receive_closed hfirst, if_neg hnil]
      constructor
      · rintro ⟨v, hv⟩
        cases hv
      · rintro (h | ⟨h, -⟩)
        · exact absurd h hnil
        · omega
    · by_cases hshort : (cut messages k).2.length < announced (cut messages k).2
      · simp only [runClosed_receive_truncated (Nat.le_of_not_lt hfirst) hshort, if_neg hnil]
        exact ⟨fun _ => .inr ⟨Nat.le_of_not_lt hfirst, hshort⟩, fun _ => ⟨u, rfl⟩⟩
      · obtain ⟨m, left, hclosed, -⟩ := runClosed_receive_complete (Nat.le_of_not_lt hshort)
        simp only [hclosed, if_neg hnil]
        constructor
        · rintro ⟨v, hv⟩
          cases hv
        · rintro (h | ⟨-, h⟩)
          · exact absurd h hnil
          · exact absurd h hshort

/-- The messages that arrived are received in order, then the end of the stream is told from a cut:
exactly when the messages fit their length fields, and the stream is over at a message's beginning,
or where the part of a message has its first length field and not all that its fields announce. -/
theorem receiveMany_cut_iff (messages : List Message) : ∃ sent : Connection,
    (sendAll (channel Connection.socket) messages).run ⟨[], []⟩ = .ok () sent ∧
    ∀ k < sent.outgoing.length, ∀ s : Connection,
      Wire.contents s.incoming = sent.outgoing.take k →
      (ReportsCut messages k s ↔
        (∀ m ∈ (cut messages k).1, m.1.length < 2 ^ 32 ∧ m.2.length < 2 ^ 32) ∧
          ((cut messages k).2 = [] ∨ sizeofUint32 ≤ (cut messages k).2.length ∧
            (cut messages k).2.length < announced (cut messages k).2)) ∧
      ((∀ m ∈ messages, m.1.length < 2 ^ 32 ∧ m.2.length < 2 ^ 32) →
        (ReportsCut messages k s ↔
          (cut messages k).2 = [] ∨ sizeofUint32 ≤ (cut messages k).2.length)) := by
  refine ⟨_, sendAll_frames messages ⟨[], []⟩, fun k hk s hs => ?_⟩
  rw [List.nil_append] at hk hs
  obtain ⟨-, m, rest, hmessages, hpart, hlt⟩ := cut_spec hk
  constructor
  · constructor
    · intro hreports
      have hfits : ∀ m ∈ (cut messages k).1, m.1.length < 2 ^ 32 ∧ m.2.length < 2 ^ 32 := by
        obtain ⟨t, u, hrun, -⟩ := hreports
        exact receiveMany_fits hrun
      exact ⟨hfits, (reportsCut_of_fits hk hs hfits).mp hreports⟩
    · rintro ⟨hfits, hcut⟩
      exact (reportsCut_of_fits hk hs hfits).mpr hcut
  · intro hfits
    have hdone : ∀ m ∈ (cut messages k).1, m.1.length < 2 ^ 32 ∧ m.2.length < 2 ^ 32 :=
      fun n hn => hfits n (hmessages ▸ List.mem_append_left _ hn)
    have hnext : m.1.length < 2 ^ 32 ∧ m.2.length < 2 ^ 32 :=
      hfits m (hmessages ▸ List.mem_append_right _ List.mem_cons_self)
    rw [reportsCut_of_fits hk hs hdone]
    refine or_congr_right ⟨fun h => h.1, fun h => ⟨h, ?_⟩⟩
    exact lt_announced hnext.1 hnext.2 hpart h hlt

theorem receiveMany_cut_inBody : ReportsCut [([], []), ([7], [8, 9])] 18
    ⟨[⟨[0, 0, 0, 0, 0, 0, 0, 0, 0, 0], by decide⟩, ⟨[0, 1, 7, 0, 0, 0, 2, 8], by decide⟩], []⟩ := by
  obtain ⟨sent, hsent, hcut⟩ := receiveMany_cut_iff [([], []), ([7], [8, 9])]
  rw [sendAll_frames] at hsent
  cases hsent
  exact ((hcut 18 (by decide) _ (by decide)).2 (by decide)).mpr (.inr (by decide))

/-- A stream that is over after one byte of the first length field: it looks closed. -/
theorem receive_cut_first_byte : ∃ sent s t : Connection,
    (sendAll (channel Connection.socket) [([7], [8])]).run ⟨[], []⟩ = .ok () sent ∧
      Wire.contents s.incoming = sent.outgoing.take 1 ∧
      (receive (channel Connection.socket) []).run s = .ok none t ∧
      ¬ReportsCut [([7], [8])] 1 s := by
  refine ⟨⟨[], frames [([7], [8])]⟩, ⟨[⟨[0], by decide⟩], []⟩, ⟨[], []⟩,
    sendAll_frames [([7], [8])] ⟨[], []⟩, by decide, by rfl, ?_⟩
  rintro ⟨t, u, hrun, hlast⟩
  cases hrun
  cases hlast

end Communicator

end Mammut
