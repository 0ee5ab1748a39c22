import Mammut.Server.Sharing

/-! The invariant of a shared communicator.  Requests carry no number: that a response is the one
to the request of the thread that receives it follows from what is on the connection while the
thread holds the lock, and from how far the servant has read it. -/

namespace Mammut

open Kit Kit.Lockstep

theorem sent_exchange (request : Message) : (exchange request).sent = frameOf request := by
  rw [exchange, Dialogue.sent_bind (Talk.afterSent_send _ _), Talk.sent_send]
  exact List.append_nil _

theorem afterSent_exchange (request : Message) :
    (exchange request).afterSent = receiveResponse :=
  Dialogue.afterSent_bind (Talk.afterSent_send _ _) fun _ => receiveResponse

theorem run_frameOf {m : Message} (h : Short m) :
    (Talk.receive []).run (frameOf m) = some (some m, []) := by
  have hrun := Talk.run_receive h.1 h.2 []
  rwa [List.append_nil] at hrun

theorem run_receiveResponse {m : Message} (h : Short m) :
    receiveResponse.run (frameOf m) = some (m, []) := by
  rw [receiveResponse, Dialogue.run_bind, run_frameOf h]
  rfl

namespace ServantState

/-- What the servant has yet to send. -/
def sent : ServantState → Bytes
  | receiving talk => talk.sent
  | sending talk => talk.sent
  | ended => []

/-- How the servant receives its next request. -/
def reader : ServantState → Talk (Option Message)
  | receiving talk => talk.afterSent
  | _ => Talk.receive []

/-- The servant is in its loop, and after a response it receives the next request. -/
def Loops : ServantState → Prop
  | receiving _ => True
  | sending talk => talk.afterSent = .done ()
  | ended => False

end ServantState

namespace Sharing

variable {T Req Res α σ : Type} (proto : Protobuf Req Res) (schema : Schema Req Res)
  (moduleDispatcher : String → Option (Module σ))

/-- The call had the lock in its turn, and the servant processed its request in that turn. -/
structure Owns (s : Sharing T Req Res α σ) (t : T) (call : RemoteCall Req Res α) (ticket : ℕ)
    (response : String × String) : Prop where
  acquired : s.acquired[ticket]? = some (t, call.message proto schema)
  processed : s.processed[ticket]? = some (call.message proto schema, response)

/-- What holds of a thread. -/
def Good (s : Sharing T Req Res α σ) (t : T) : Caller Req Res α → Prop
  | .out => True
  | .locking call => Short (call.message proto schema)
  | .inside _ _ _ => s.lock = some t
  | .reading call ticket received =>
    ∃ response, s.Owns proto schema t call ticket response ∧ received = messageOf response
  | .returned call ticket result =>
    ∃ response, s.Owns proto schema t call ticket response ∧
      result = call.result proto (messageOf response)

/-- The responses are those that the servant gives to the requests one after the other. -/
structure Computed (modules : σ) (s : Sharing T Req Res α σ) : Prop where
  responses : List.Forall₂ Servant.Answers
    (trace (processMessage moduleDispatcher) modules (s.processed.map Prod.fst)).1
    (s.processed.map Prod.snd)
  modules : s.modules =
    (trace (processMessage moduleDispatcher) modules (s.processed.map Prod.fst)).2

/-- Nothing is on the connection. -/
structure Idle (s : Sharing T Req Res α σ) : Prop where
  lock : s.lock = none
  requests : s.requests = []
  responses : s.responses = []
  sent : s.servant.sent = []
  reader : s.servant.reader = Talk.receive []
  all : s.acquired.map Prod.snd = s.processed.map Prod.fst

/-- The request of a thread is on the connection, or a part of it. -/
structure Asking (s : Sharing T Req Res α σ) (t : T) (call : RemoteCall Req Res α) (ticket : ℕ)
    (talk : Talk Message) : Prop where
  lock : s.lock = some t
  acquired : s.acquired[ticket]? = some (t, call.message proto schema)
  ticket : ticket = s.processed.length
  all : s.acquired.map Prod.snd = s.processed.map Prod.fst ++ [call.message proto schema]
  responses : s.responses = []
  sent : s.servant.sent = []
  waits : talk.afterSent = receiveResponse
  frame : s.requests ++ talk.sent <:+ frameOf (call.message proto schema)
  reads : s.servant.reader.run (s.requests ++ talk.sent) =
    some (some (call.message proto schema), [])

/-- The response to a thread is on the connection, or a part of it. -/
structure Answering (s : Sharing T Req Res α σ) (t : T) (call : RemoteCall Req Res α) (ticket : ℕ)
    (talk : Talk Message) (response : String × String) : Prop where
  lock : s.lock = some t
  own : s.Owns proto schema t call ticket response
  all : s.acquired.map Prod.snd = s.processed.map Prod.fst
  requests : s.requests = []
  reader : s.servant.reader = Talk.receive []
  sent : talk.sent = []
  frame : s.responses ++ s.servant.sent <:+ frameOf (messageOf response)
  reads : talk.afterSent.run (s.responses ++ s.servant.sent) = some (messageOf response, [])

inductive Channel (s : Sharing T Req Res α σ) : Prop
  | idle (h : s.Idle)
  | asking {t : T} {call : RemoteCall Req Res α} {ticket : ℕ} {talk : Talk Message}
      (hinside : s.thread t = .inside call ticket talk)
      (h : s.Asking proto schema t call ticket talk)
  | answering {t : T} {call : RemoteCall Req Res α} {ticket : ℕ} {talk : Talk Message}
      {response : String × String} (hinside : s.thread t = .inside call ticket talk)
      (h : s.Answering proto schema t call ticket talk response)

structure Holds (modules : σ) (s : Sharing T Req Res α σ) : Prop where
  threads : ∀ t, s.Good proto schema t (s.thread t)
  loops : s.servant.Loops
  computed : s.Computed moduleDispatcher modules
  channel : s.Channel proto schema

variable {proto schema moduleDispatcher} {s s' : Sharing T Req Res α σ} {t : T}
  {caller : Caller Req Res α} {call : RemoteCall Req Res α} {ticket : ℕ} {modules : σ}

theorem getElem?_of_isPrefix {β : Type} {l more : List β} (h : l <+: more) {n : ℕ} {b : β}
    (hn : l[n]? = some b) : more[n]? = some b := by
  obtain ⟨rest, rfl⟩ := h
  rw [List.getElem?_append_left (List.getElem?_eq_some_iff.mp hn).1, hn]

theorem Good.mono (h : s.Good proto schema t caller)
    (hlock : s.lock = some t → s'.lock = some t) (hacquired : s.acquired <+: s'.acquired)
    (hprocessed : s.processed <+: s'.processed) : s'.Good proto schema t caller := by
  have howns : ∀ {call ticket response}, s.Owns proto schema t call ticket response →
      s'.Owns proto schema t call ticket response := fun h =>
    ⟨getElem?_of_isPrefix hacquired h.acquired, getElem?_of_isPrefix hprocessed h.processed⟩
  cases caller with
  | out => trivial
  | locking call => exact h
  | inside call ticket talk => exact hlock h
  | reading call ticket received =>
    obtain ⟨response, hown, hreceived⟩ := h
    exact ⟨response, howns hown, hreceived⟩
  | returned call ticket result =>
    obtain ⟨response, hown, hresult⟩ := h
    exact ⟨response, howns hown, hresult⟩

namespace Holds

variable (h : s.Holds proto schema moduleDispatcher modules)
include h

theorem not_ended : s.servant ≠ .ended := by
  intro hended
  have hloops := h.loops
  rwa [hended] at hloops

theorem inside_of_lock (hlock : s.lock = some t) :
    ∃ call ticket talk, s.thread t = .inside call ticket talk := by
  cases h.channel with
  | idle hidle => rw [hidle.lock] at hlock; cases hlock
  | asking hinside hasks =>
    obtain rfl := Option.some.inj (hlock.symm.trans hasks.lock)
    exact ⟨_, _, _, hinside⟩
  | answering hinside hanswers =>
    obtain rfl := Option.some.inj (hlock.symm.trans hanswers.lock)
    exact ⟨_, _, _, hinside⟩

theorem lock_of_inside {talk : Talk Message} (hinside : s.thread t = .inside call ticket talk) :
    s.lock = some t := by
  have hgood := h.threads t
  rwa [hinside] at hgood

/-- The connection serves the thread that holds the lock. -/
theorem channel_of_inside {talk : Talk Message} (hinside : s.thread t = .inside call ticket talk) :
    s.Asking proto schema t call ticket talk ∨
      ∃ response, s.Answering proto schema t call ticket talk response := by
  have hlock := h.lock_of_inside hinside
  cases h.channel with
  | idle hidle => rw [hidle.lock] at hlock; cases hlock
  | asking hin hasks =>
    obtain rfl := Option.some.inj (hlock.symm.trans hasks.lock)
    obtain ⟨rfl, rfl, rfl⟩ := Caller.inside.inj (hinside.symm.trans hin)
    exact .inl hasks
  | answering hin hanswers =>
    obtain rfl := Option.some.inj (hlock.symm.trans hanswers.lock)
    obtain ⟨rfl, rfl, rfl⟩ := Caller.inside.inj (hinside.symm.trans hin)
    exact .inr ⟨_, hanswers⟩

/-- A thread that has received a message has received its own response. -/
theorem received {received : Message} (hinside : s.thread t = .inside call ticket (.done received)) :
    ∃ response, received = messageOf response ∧ s.responses = [] ∧ s.servant.sent = [] ∧
      s.Answering proto schema t call ticket (.done received) response := by
  obtain hasks | ⟨response, hanswers⟩ := h.channel_of_inside hinside
  · cases hasks.waits
  · obtain ⟨hreceived, hnone⟩ := Prod.mk.inj (Option.some.inj hanswers.reads)
    obtain ⟨hresponses, hsent⟩ := List.append_eq_nil_iff.mp hnone
    exact ⟨response, hreceived, hresponses, hsent, hanswers⟩

/-- Nothing goes wrong on the connection. -/
theorem not_throws {e : Exn} : s.thread t ≠ .inside call ticket (.throw e) := by
  intro hinside
  obtain hasks | ⟨response, hanswers⟩ := h.channel_of_inside hinside
  · cases hasks.waits
  · cases hanswers.reads

theorem not_truncated {e : Exn} : s.servant ≠ .receiving (.throw e) := by
  intro hservant
  cases h.channel with
  | idle hidle =>
    have hreader := hidle.reader
    rw [hservant] at hreader
    cases hreader
  | asking _ hasks =>
    have hreads := hasks.reads
    rw [hservant] at hreads
    cases hreads
  | answering _ hanswers =>
    have hreader := hanswers.reader
    rw [hservant] at hreader
    cases hreader

theorem sends {servant : ServantState} {requests responses : Bytes} (hloops : servant.Loops)
    (hrequests : requests = s.requests)
    (hout : responses ++ servant.sent = s.responses ++ s.servant.sent)
    (hreader : servant.reader = s.servant.reader) :
    { s with servant := servant, requests := requests, responses := responses }.Holds proto schema
      moduleDispatcher modules := by
  subst hrequests
  refine ⟨fun t => (h.threads t).mono id (List.prefix_refl _) (List.prefix_refl _), hloops,
    ⟨h.computed.responses, h.computed.modules⟩, ?_⟩
  have hnone (hresponses : s.responses = []) (hsent : s.servant.sent = []) :
      responses = [] ∧ servant.sent = [] := by
    rwa [hresponses, hsent, List.append_nil, List.append_eq_nil_iff] at hout
  cases h.channel with
  | idle hidle =>
    obtain ⟨hresponses, hsent⟩ := hnone hidle.responses hidle.sent
    exact .idle
      { lock := hidle.lock
        requests := hidle.requests
        responses := hresponses
        sent := hsent
        reader := hreader.trans hidle.reader
        all := hidle.all }
  | asking hinside hasks =>
    obtain ⟨hresponses, hsent⟩ := hnone hasks.responses hasks.sent
    exact .asking hinside
      { lock := hasks.lock
        acquired := hasks.acquired
        ticket := hasks.ticket
        all := hasks.all
        responses := hresponses
        sent := hsent
        waits := hasks.waits
        frame := hasks.frame
        reads := hreader.symm ▸ hasks.reads }
  | answering hinside hanswers =>
    exact .answering hinside
      { lock := hanswers.lock
        own := ⟨hanswers.own.acquired, hanswers.own.processed⟩
        all := hanswers.all
        requests := hanswers.requests
        reader := hreader.trans hanswers.reader
        sent := hanswers.sent
        frame := hout.symm ▸ hanswers.frame
        reads := hout.symm ▸ hanswers.reads }

theorem receive {talk talk' : Talk (Option Message)} {requests responses : Bytes}
    (hservant : s.servant = .receiving talk)
    (htalk : Dialogue.Step False talk s.requests s.responses talk' requests responses) :
    { s with servant := .receiving talk', requests := requests, responses := responses }.Holds
      proto schema moduleDispatcher modules := by
  -- While there is no request to be received, the servant waits.
  have hwaits (hrequests : s.requests = []) (hreader : s.servant.reader = Talk.receive []) :
      { s with servant := .receiving talk', requests := requests, responses := responses }.Holds
        proto schema moduleDispatcher modules := by
    rw [hservant] at hreader
    obtain ⟨hin, hout, hafter⟩ := htalk.sends (by
      rw [show talk.afterSent = Talk.receive [] from hreader, hrequests]
      exact fun _ _ _ _ => Dialogue.not_step_receive id (by decide))
    exact h.sends trivial hin (by rw [hservant]; exact hout) (by rw [hservant]; exact hafter)
  cases h.channel with
  | idle hidle => exact hwaits hidle.requests hidle.reader
  | answering _ hanswers => exact hwaits hanswers.requests hanswers.reader
  | asking hinside hasks =>
    have hsent := hasks.sent
    have hreads := hasks.reads
    rw [hservant] at hsent hreads
    obtain ⟨hout, hsent', hleft, hreads'⟩ := htalk.receives id hsent hreads
    exact ⟨fun t => (h.threads t).mono id (List.prefix_refl _) (List.prefix_refl _), trivial,
      ⟨h.computed.responses, h.computed.modules⟩, .asking hinside
        { lock := hasks.lock
          acquired := hasks.acquired
          ticket := hasks.ticket
          all := hasks.all
          responses := hout.trans hasks.responses
          sent := hsent'
          waits := hasks.waits
          frame := (List.suffix_append_self_iff.mpr hleft).trans hasks.frame
          reads := hreads' }⟩

theorem send {talk talk' : Talk Unit} {requests responses : Bytes}
    (hservant : s.servant = .sending talk)
    (htalk : Dialogue.Step False talk s.requests s.responses talk' requests responses) :
    { s with servant := .sending talk', requests := requests, responses := responses }.Holds
      proto schema moduleDispatcher modules := by
  have hloops := h.loops
  rw [hservant] at hloops
  obtain ⟨hin, hout, hafter⟩ := htalk.sends (by
    rw [show talk.afterSent = .done () from hloops]
    exact fun _ _ _ _ => Dialogue.not_step_done)
  exact h.sends (hafter.trans hloops) hin (by rw [hservant]; exact hout) (by rw [hservant]; rfl)

theorem again (hservant : s.servant = .sending (.done ())) :
    { s with servant := .receiving (Talk.receive []) }.Holds proto schema moduleDispatcher
      modules :=
  h.sends trivial rfl (by rw [hservant]; rfl) (by rw [hservant]; rfl)

/-- What the servant has received is the request of the thread that holds the lock. -/
theorem request_received {request : Message}
    (hservant : s.servant = .receiving (.done (some request))) :
    ∃ t call talk, s.thread t = .inside call s.processed.length talk ∧
      s.Asking proto schema t call s.processed.length talk ∧
      request = call.message proto schema ∧ s.requests = [] ∧ talk.sent = [] := by
  cases h.channel with
  | idle hidle =>
    have hreader := hidle.reader
    rw [hservant] at hreader
    cases hreader
  | answering _ hanswers =>
    have hreader := hanswers.reader
    rw [hservant] at hreader
    cases hreader
  | asking hinside hasks =>
    obtain rfl := hasks.ticket
    have hreads := hasks.reads
    rw [hservant] at hreads
    obtain ⟨hrequest, hnone⟩ := Prod.mk.inj (Option.some.inj hreads)
    obtain ⟨hrequests, hsent⟩ := List.append_eq_nil_iff.mp hnone
    exact ⟨_, _, _, hinside, hasks, Option.some.inj hrequest, hrequests, hsent⟩

theorem respond {request : Message} {response : String × String}
    (hservant : s.servant = .receiving (.done (some request)))
    (hresponse : Servant.Answers (outcome ((processMessage moduleDispatcher request).run s.modules))
      response) (hshort : Short (messageOf response)) :
    { s with
      servant := .sending (Talk.send (messageOf response).1 (messageOf response).2)
      modules := final ((processMessage moduleDispatcher request).run s.modules)
      processed := s.processed ++ [(request, response)] }.Holds proto schema moduleDispatcher
        modules := by
  obtain ⟨t, call, talk, hinside, hasks, rfl, hrequests, hsent⟩ := h.request_received hservant
  have hframe : s.responses ++ (Talk.send (messageOf response).1 (messageOf response).2).sent =
      frameOf (messageOf response) := by
    rw [hasks.responses, Talk.sent_send, List.nil_append]
    rfl
  refine ⟨fun t => (h.threads t).mono id (List.prefix_refl _) (List.prefix_append _ _),
    Talk.afterSent_send _ _, ⟨?_, ?_⟩, .answering hinside
      { lock := hasks.lock
        own := ⟨hasks.acquired, by simp⟩
        all := by simp [hasks.all]
        requests := hrequests
        reader := rfl
        sent := hsent
        frame := ⟨[], hframe⟩
        reads := ?_ }⟩
  · simp only [List.map_append, List.map_cons, List.map_nil, trace_concat]
    rw [← h.computed.modules]
    exact List.rel_append h.computed.responses (.cons hresponse .nil)
  · simp only [List.map_append, List.map_cons, List.map_nil, trace_concat]
    rw [← h.computed.modules]
  · rw [hasks.waits]
    exact hframe.symm ▸ run_receiveResponse hshort

end Holds

section Steps

variable [DecidableEq T]

@[simp] theorem setThread_thread_self : (s.setThread t caller).thread t = caller := by
  simp [setThread]

theorem setThread_thread_of_ne {u : T} (h : u ≠ t) :
    (s.setThread t caller).thread u = s.thread u := by
  simp [setThread, h]

/-- The state of the threads, when one of them takes a step. -/
theorem good_setThread (hthreads : ∀ u, s.Good proto schema u (s.thread u))
    (hthread : s'.thread = s.thread) (h : s'.Good proto schema t caller)
    (hlock : ∀ u ≠ t, s.lock = some u → s'.lock = some u)
    (hacquired : s.acquired <+: s'.acquired) (hprocessed : s.processed = s'.processed) (u : T) :
    (s'.setThread t caller).Good proto schema u ((s'.setThread t caller).thread u) := by
  by_cases hu : u = t
  · subst hu
    rw [setThread_thread_self]
    exact h.mono id (List.prefix_refl _) (List.prefix_refl _)
  · rw [setThread_thread_of_ne hu, hthread]
    exact (hthreads u).mono (hlock u hu) hacquired (hprocessed ▸ List.prefix_refl _)

namespace Holds

variable (h : s.Holds proto schema moduleDispatcher modules)
include h

theorem setThread (houtside : s.lock ≠ some t) (hgood : s.Good proto schema t caller) :
    (s.setThread t caller).Holds proto schema moduleDispatcher modules := by
  have hother : ∀ u, s.lock = some u → (s.setThread t caller).thread u = s.thread u := by
    intro u hu
    apply setThread_thread_of_ne
    rintro rfl
    exact houtside hu
  refine ⟨good_setThread h.threads rfl hgood (fun _ _ => id) (List.prefix_refl _) rfl, h.loops,
    ⟨h.computed.responses, h.computed.modules⟩, ?_⟩
  cases h.channel with
  | idle hidle => exact .idle { hidle with }
  | asking hinside hasks => exact .asking ((hother _ hasks.lock).trans hinside) { hasks with }
  | answering hinside hanswers =>
    exact .answering ((hother _ hanswers.lock).trans hinside)
      { hanswers with own := ⟨hanswers.own.acquired, hanswers.own.processed⟩ }

theorem acquire (hlocking : s.thread t = .locking call) (hfree : s.lock = none) :
    ({ s with
        lock := some t
        acquired := s.acquired ++ [(t, call.message proto schema)] }.setThread t
      (.inside call s.acquired.length (exchange (call.message proto schema)))).Holds proto schema
        moduleDispatcher modules := by
  have hshort := h.threads t
  rw [hlocking] at hshort
  have hidle : s.Idle := by
    cases h.channel with
    | idle hidle => exact hidle
    | asking _ hasks => cases hfree.symm.trans hasks.lock
    | answering _ hanswers => cases hfree.symm.trans hanswers.lock
  have hframe : s.requests ++ (exchange (call.message proto schema)).sent =
      frameOf (call.message proto schema) := by
    rw [hidle.requests, sent_exchange, List.nil_append]
  refine ⟨good_setThread h.threads rfl rfl ?_ (List.prefix_append _ _) rfl, h.loops,
    ⟨h.computed.responses, h.computed.modules⟩, .asking setThread_thread_self
      { lock := rfl
        acquired := List.getElem?_concat_length
        ticket := by simpa [Sharing.setThread] using congrArg List.length hidle.all
        all := by simp [Sharing.setThread, hidle.all]
        responses := hidle.responses
        sent := hidle.sent
        waits := afterSent_exchange _
        frame := ⟨[], hframe⟩
        reads := ?_ }⟩
  · intro u _ hu
    cases hfree.symm.trans hu
  · show s.servant.reader.run (s.requests ++ (exchange (call.message proto schema)).sent) = _
    rw [hframe, hidle.reader]
    exact run_frameOf hshort

theorem talk {talk talk' : Talk Message} {requests responses : Bytes}
    (hinside : s.thread t = .inside call ticket talk)
    (htalk : Dialogue.Step (s.servant = .ended) talk s.responses s.requests
      talk' responses requests) :
    ({ s with requests := requests, responses := responses }.setThread t
      (.inside call ticket talk')).Holds proto schema moduleDispatcher modules := by
  have hlock := h.lock_of_inside hinside
  refine ⟨good_setThread h.threads rfl hlock (fun _ _ => id) (List.prefix_refl _) rfl, h.loops,
    ⟨h.computed.responses, h.computed.modules⟩, ?_⟩
  obtain hasks | ⟨response, hanswers⟩ := h.channel_of_inside hinside
  · -- The thread sends the rest of its request, for no response comes before.
    obtain ⟨hin, hout, hafter⟩ := htalk.sends (by
      rw [hasks.waits, hasks.responses]
      exact fun _ _ _ _ => Dialogue.not_step_receive h.not_ended (by decide))
    exact .asking setThread_thread_self
      { lock := hlock
        acquired := hasks.acquired
        ticket := hasks.ticket
        all := hasks.all
        responses := hin.trans hasks.responses
        sent := hasks.sent
        waits := hafter.trans hasks.waits
        frame := hout.symm ▸ hasks.frame
        reads := hout.symm ▸ hasks.reads }
  · obtain ⟨hout, hsent, hleft, hreads⟩ :=
      htalk.receives h.not_ended hanswers.sent hanswers.reads
    exact .answering setThread_thread_self
      { lock := hlock
        own := ⟨hanswers.own.acquired, hanswers.own.processed⟩
        all := hanswers.all
        requests := hout.trans hanswers.requests
        reader := hanswers.reader
        sent := hsent
        frame := (List.suffix_append_self_iff.mpr hleft).trans hanswers.frame
        reads := hreads }

theorem release {received : Message} (hinside : s.thread t = .inside call ticket (.done received)) :
    ({ s with lock := none }.setThread t (.reading call ticket received)).Holds proto schema
      moduleDispatcher modules := by
  have hheld := h.lock_of_inside hinside
  obtain ⟨response, hreceived, hresponses, hsent, hanswers⟩ := h.received hinside
  refine ⟨good_setThread h.threads rfl
    ⟨response, ⟨hanswers.own.acquired, hanswers.own.processed⟩, hreceived⟩ ?_
    (List.prefix_refl _) rfl, h.loops, ⟨h.computed.responses, h.computed.modules⟩, .idle
      { lock := rfl
        requests := hanswers.requests
        responses := hresponses
        sent := hsent
        reader := hanswers.reader
        all := hanswers.all }⟩
  intro u hu hlock
  exact absurd (Option.some.inj (hlock.symm.trans hheld)) hu

theorem step {e : Event T Req Res α} (hserves : s.Serves proto schema e)
    (hstep : s.Step proto schema moduleDispatcher e s') :
    s'.Holds proto schema moduleDispatcher modules := by
  cases hstep with
  | call hout =>
    refine h.setThread (fun hlock => ?_) hserves
    obtain ⟨call, ticket, talk, hinside⟩ := h.inside_of_lock hlock
    rw [hinside] at hout
    exact hout
  | acquire hlocking hfree => exact h.acquire hlocking hfree
  | talk hinside htalk => exact h.talk hinside htalk
  | release hinside => exact h.release hinside
  | throws hinside => exact absurd hinside h.not_throws
  | @finish t call ticket received hreading =>
    have hgood := h.threads t
    rw [hreading] at hgood
    obtain ⟨response, hown, rfl⟩ := hgood
    refine h.setThread (fun hlock => ?_) ⟨response, hown, rfl⟩
    obtain ⟨_, _, _, hinside⟩ := h.inside_of_lock hlock
    rw [hreading] at hinside
    cases hinside
  | receive hservant htalk => exact h.receive hservant htalk
  | send hservant htalk => exact h.send hservant htalk
  | respond hservant hresponse => exact h.respond hservant hresponse hserves
  | truncated hservant => exact absurd hservant h.not_truncated
  | again hservant => exact h.again hservant
  | close => exact hserves.elim

end Holds

end Steps

theorem holds_new (modules : σ) :
    (new modules : Sharing T Req Res α σ).Holds proto schema moduleDispatcher modules :=
  ⟨fun _ => trivial, trivial, ⟨.nil, rfl⟩, .idle ⟨rfl, rfl, rfl, rfl, rfl, rfl⟩⟩

end Sharing

end Mammut
