import Mammut.Server.SharingInvariant

/-! Runs of a shared communicator: no two requests are out at a time, each call receives its own
response, and the servant processes the requests in the order of the lock. -/

namespace Mammut.Sharing

open Kit Kit.Lockstep Kit.Runs

variable {T Req Res α σ : Type} (proto : Protobuf Req Res) (schema : Schema Req Res)
  (moduleDispatcher : String → Option (Module σ))

/-- The thread has a request out: it has the lock for it, and has yet to release it with the
response. -/
def Outstanding (s : Sharing T Req Res α σ) (t : T) : Prop :=
  ∃ call ticket talk, s.thread t = .inside call ticket talk

/-- Of the messages of all threads, one travels at most: the request that is out, or the response
to it. -/
def OneMessage (s : Sharing T Req Res α σ) : Prop :=
  s.requests = [] ∧ s.responses = [] ∨
  ∃ t call ticket talk, s.thread t = .inside call ticket talk ∧
    (s.requests <:+: frameOf (call.message proto schema) ∧ s.responses = [] ∨
      s.requests = [] ∧ ∃ response, s.Owns proto schema t call ticket response ∧
        s.responses <:+: frameOf (messageOf response))

structure Correct (modules : σ) (s : Sharing T Req Res α σ) : Prop where
  oneOutstanding : ∀ t u, s.Outstanding t → s.Outstanding u → t = u
  oneMessage : s.OneMessage proto schema
  ownResponse : ∀ t call ticket result, s.thread t = .returned call ticket result →
    ∃ response, s.Owns proto schema t call ticket response ∧
      result = call.result proto (messageOf response)
  computed : s.Computed moduleDispatcher modules
  inOrder : s.processed.map Prod.fst <+: s.acquired.map Prod.snd
  onePending : s.acquired.length ≤ s.processed.length + 1

variable {proto schema moduleDispatcher} {s s' : Sharing T Req Res α σ} {t : T}
  {call : RemoteCall Req Res α} {ticket : ℕ} {modules : σ}

theorem infix_of_suffix_append {β : Type} {l more whole : List β} (h : l ++ more <:+ whole) :
    l <:+: whole := (List.prefix_append l more).isInfix.trans h.isInfix

theorem Holds.oneMessage (h : s.Holds proto schema moduleDispatcher modules) :
    s.OneMessage proto schema := by
  cases h.channel with
  | idle hidle => exact .inl ⟨hidle.requests, hidle.responses⟩
  | asking hinside hasks =>
    exact .inr ⟨_, _, _, _, hinside, .inl ⟨infix_of_suffix_append hasks.frame, hasks.responses⟩⟩
  | answering hinside hanswers =>
    exact .inr ⟨_, _, _, _, hinside, .inr ⟨hanswers.requests, _, hanswers.own,
      infix_of_suffix_append hanswers.frame⟩⟩

/-- The requests that had the lock are those that have been processed, and one more at most. -/
theorem Holds.all (h : s.Holds proto schema moduleDispatcher modules) :
    ∃ out, s.acquired.map Prod.snd = s.processed.map Prod.fst ++ out ∧ out.length ≤ 1 := by
  cases h.channel with
  | idle hidle => exact ⟨[], by simp [hidle.all], Nat.zero_le 1⟩
  | asking _ hasks => exact ⟨_, hasks.all, Nat.le_refl 1⟩
  | answering _ hanswers => exact ⟨[], by simp [hanswers.all], Nat.zero_le 1⟩

theorem Holds.correct (h : s.Holds proto schema moduleDispatcher modules) :
    s.Correct proto schema moduleDispatcher modules := by
  obtain ⟨out, hall, hout⟩ := h.all
  refine ⟨?_, h.oneMessage, ?_, h.computed, ⟨out, hall.symm⟩, ?_⟩
  · rintro t u ⟨_, _, _, ht⟩ ⟨_, _, _, hu⟩
    exact Option.some.inj ((h.lock_of_inside ht).symm.trans (h.lock_of_inside hu))
  · intro t call ticket result hreturned
    have hgood := h.threads t
    rwa [hreturned] at hgood
  · have hlength := congrArg List.length hall
    rw [List.length_map, List.length_append, List.length_map] at hlength
    omega

variable [DecidableEq T]

theorem run_correct {events : List (Event T Req Res α)}
    (run : Run (Guarded (Serves proto schema) (Step proto schema moduleDispatcher))
      (new modules) events s) : s.Correct proto schema moduleDispatcher modules :=
  (run.invariant (Holds proto schema moduleDispatcher modules) (holds_new modules)
    fun _ _ _ h hstep => h.step hstep.1 hstep.2).correct

/-- The events that are neither calls, nor responses, nor the end of the loop. -/
def Event.Silent : Event T Req Res α → Prop
  | .call _ _ | .respond _ | .close => False
  | _ => True

variable {G : Sharing T Req Res α σ → Event T Req Res α → Prop}

/-- There is a run of a communicator from one state to another whose steps meet a condition. -/
def ReachesBy (G : Sharing T Req Res α σ → Event T Req Res α → Prop) (proto : Protobuf Req Res)
    (schema : Schema Req Res) (moduleDispatcher : String → Option (Module σ))
    (s s' : Sharing T Req Res α σ) : Prop :=
  ∃ events, Run (Guarded G (Step proto schema moduleDispatcher)) s events s'

/-- The condition is one on calls and responses. -/
def Lets (G : Sharing T Req Res α σ → Event T Req Res α → Prop) : Prop := ∀ s e, e.Silent → G s e

omit [DecidableEq T] in
theorem lets_serves : Lets (Serves proto schema : Sharing T Req Res α σ → _) := by
  intro s e he
  cases e <;> trivial

namespace ReachesBy

theorem step {start : Sharing T Req Res α σ}
    (h : ReachesBy G proto schema moduleDispatcher start s) {e : Event T Req Res α}
    (hstep : s.Step proto schema moduleDispatcher e s') (hG : G s e) :
    ReachesBy G proto schema moduleDispatcher start s' := by
  obtain ⟨events, run⟩ := h
  exact ⟨_, run.snoc ⟨hG, hstep⟩⟩

theorem talk {start : Sharing T Req Res α σ}
    (h : ReachesBy G proto schema moduleDispatcher start s) (hG : Lets G)
    {talk talk' : Talk Message} {requests responses : Bytes}
    (hinside : s.thread t = .inside call ticket talk)
    (hsteps : Dialogue.Steps False talk s.responses s.requests talk' responses requests) :
    ∃ s', ReachesBy G proto schema moduleDispatcher start s' ∧ s'.modules = s.modules ∧
      s'.thread t = .inside call ticket talk' ∧ s'.servant = s.servant ∧
      s'.requests = requests ∧ s'.responses = responses := by
  generalize hin : s.responses = incoming at hsteps
  generalize hout : s.requests = outgoing at hsteps
  induction hsteps generalizing s with
  | refl => exact ⟨s, h, rfl, hinside, rfl, hout, hin⟩
  | head first _ ih =>
    subst hin hout
    have hnext := h.step (.talk hinside first.of_open) (hG _ _ trivial)
    have hrest := ih hnext setThread_thread_self rfl rfl
    exact hrest

theorem receive {start : Sharing T Req Res α σ}
    (h : ReachesBy G proto schema moduleDispatcher start s) (hG : Lets G)
    {talk talk' : Talk (Option Message)} {requests responses : Bytes}
    (hservant : s.servant = .receiving talk)
    (hsteps : Dialogue.Steps False talk s.requests s.responses talk' requests responses) :
    ∃ s', ReachesBy G proto schema moduleDispatcher start s' ∧ s'.modules = s.modules ∧
      s'.thread = s.thread ∧ s'.servant = .receiving talk' ∧
      s'.requests = requests ∧ s'.responses = responses := by
  generalize hin : s.requests = incoming at hsteps
  generalize hout : s.responses = outgoing at hsteps
  induction hsteps generalizing s with
  | refl => exact ⟨s, h, rfl, rfl, hservant, hin, hout⟩
  | head first _ ih =>
    subst hin hout
    have hnext := h.step (e := .serve) (.receive hservant first) (hG _ _ trivial)
    have hrest := ih hnext rfl rfl rfl
    exact hrest

theorem send {start : Sharing T Req Res α σ}
    (h : ReachesBy G proto schema moduleDispatcher start s) (hG : Lets G)
    {talk talk' : Talk Unit} {requests responses : Bytes}
    (hservant : s.servant = .sending talk)
    (hsteps : Dialogue.Steps False talk s.requests s.responses talk' requests responses) :
    ∃ s', ReachesBy G proto schema moduleDispatcher start s' ∧ s'.modules = s.modules ∧
      s'.thread = s.thread ∧ s'.servant = .sending talk' ∧
      s'.requests = requests ∧ s'.responses = responses := by
  generalize hin : s.requests = incoming at hsteps
  generalize hout : s.responses = outgoing at hsteps
  induction hsteps generalizing s with
  | refl => exact ⟨s, h, rfl, rfl, hservant, hin, hout⟩
  | head first _ ih =>
    subst hin hout
    have hnext := h.step (e := .serve) (.send hservant first) (hG _ _ trivial)
    have hrest := ih hnext rfl rfl rfl
    exact hrest

end ReachesBy

/-- Nothing is on the connection, and the servant waits for a request. -/
structure Ready (s : Sharing T Req Res α σ) : Prop where
  requests : s.requests = []
  responses : s.responses = []
  servant : s.servant = .receiving (Talk.receive [])

/-- A thread gets the lock and sends its request. -/
theorem Ready.ask (h : s.Ready) (hG : Lets G) (hlock : s.lock = none) (hout : (s.thread t).Outside)
    (hcall : G s (.call t call)) :
    ∃ s', ReachesBy G proto schema moduleDispatcher s s' ∧ s'.modules = s.modules ∧
      s'.thread t = .inside call s.acquired.length receiveResponse ∧
      s'.servant = .receiving (Talk.receive []) ∧
      s'.requests = frameOf (call.message proto schema) ∧ s'.responses = [] := by
  have hstart : ReachesBy G proto schema moduleDispatcher s s := ⟨[], .nil⟩
  have hlocking := hstart.step (e := .call t call) (.call hout) hcall
  have hacquired := hlocking.step (.acquire setThread_thread_self hlock) (hG _ _ trivial)
  obtain ⟨s', hreach, hmodules, hinside, hservant, hrequests, hresponses⟩ :=
    hacquired.talk hG setThread_thread_self (Dialogue.steps_afterSent _)
  rw [afterSent_exchange] at hinside
  rw [sent_exchange] at hrequests
  refine ⟨s', hreach, hmodules, hinside, hservant.trans h.servant, hrequests.trans ?_,
    hresponses.trans h.responses⟩
  show s.requests ++ _ = _
  rw [h.requests, List.nil_append]

/-- The servant receives a request, and sends the response. -/
theorem ReachesBy.answer {start : Sharing T Req Res α σ}
    (h : ReachesBy G proto schema moduleDispatcher start s) (hG : Lets G) {request : Message}
    {response : String × String} (hservant : s.servant = .receiving (Talk.receive []))
    (hrequests : s.requests = frameOf request) (hresponses : s.responses = [])
    (hshort : Short request)
    (hresponse : Servant.Answers (outcome ((processMessage moduleDispatcher request).run s.modules))
      response) (hrespond : ∀ s, G s (.respond response)) :
    ∃ s', ReachesBy G proto schema moduleDispatcher start s' ∧ s'.thread = s.thread ∧
      s'.servant = .receiving (Talk.receive []) ∧ s'.requests = [] ∧
      s'.responses = frameOf (messageOf response) := by
  obtain ⟨s₁, h₁, hmodules₁, hthread₁, hservant₁, hrequests₁, hresponses₁⟩ :=
    h.receive hG hservant (Dialogue.steps_run (hrequests ▸ run_frameOf hshort))
  have hresponded := h₁.step (e := .respond response)
    (.respond hservant₁ (hmodules₁.symm ▸ hresponse)) (hrespond _)
  obtain ⟨s₂, h₂, -, hthread₂, hservant₂, hrequests₂, hresponses₂⟩ :=
    hresponded.send hG rfl (Dialogue.steps_afterSent _)
  rw [Talk.afterSent_send] at hservant₂
  refine ⟨_, h₂.step (e := .again) (.again hservant₂) (hG _ _ trivial), hthread₂.trans hthread₁, rfl,
    hrequests₂.trans hrequests₁, hresponses₂.trans ?_⟩
  show s₁.responses ++ _ = _
  rw [hresponses₁, hresponses, Talk.sent_send]
  rfl

/-- A call that is alone returns what it makes of the response to its request. -/
theorem Ready.call_returnsBy (h : s.Ready) (hG : Lets G) (hlock : s.lock = none)
    (hout : (s.thread t).Outside) (hcall : G s (.call t call))
    (hshort : Short (call.message proto schema)) {response : String × String}
    (hresponse : Servant.Answers (outcome ((processMessage moduleDispatcher
      (call.message proto schema)).run s.modules)) response) (hshort' : Short (messageOf response))
    (hrespond : ∀ s, G s (.respond response)) :
    ∃ s', ReachesBy G proto schema moduleDispatcher s s' ∧ s'.Ready ∧ s'.lock = none ∧
      s'.thread t =
        .returned call s.acquired.length (call.result proto (messageOf response)) := by
  obtain ⟨s₁, h₁, hmodules₁, hinside₁, hservant₁, hrequests₁, hresponses₁⟩ :=
    h.ask hG hlock hout hcall
  rw [← hmodules₁] at hresponse
  obtain ⟨s₂, h₂, hthread₂, hservant₂, hrequests₂, hresponses₂⟩ :=
    h₁.answer hG hservant₁ hrequests₁ hresponses₁ hshort hresponse hrespond
  have hreceive := run_receiveResponse hshort'
  rw [← hresponses₂] at hreceive
  obtain ⟨s₃, h₃, -, hinside₃, hservant₃, hrequests₃, hresponses₃⟩ :=
    h₂.talk hG ((congrFun hthread₂ t).trans hinside₁) (Dialogue.steps_run hreceive)
  have hreleased := h₃.step (e := .release t) (.release hinside₃) (hG _ _ trivial)
  have hfinished := hreleased.step (e := .finish t) (.finish setThread_thread_self) (hG _ _ trivial)
  exact ⟨_, hfinished, ⟨hrequests₃.trans hrequests₂, hresponses₃, hservant₃.trans hservant₂⟩, rfl,
    setThread_thread_self⟩

/-- There is a run of a communicator from one state to another. -/
def Reaches (proto : Protobuf Req Res) (schema : Schema Req Res)
    (moduleDispatcher : String → Option (Module σ)) : Sharing T Req Res α σ → Sharing T Req Res α σ → Prop :=
  ReachesBy (Serves proto schema) proto schema moduleDispatcher

theorem Ready.call_returns (h : s.Ready) (hlock : s.lock = none) (hout : (s.thread t).Outside)
    (hshort : Short (call.message proto schema)) {response : String × String}
    (hresponse : Servant.Answers (outcome ((processMessage moduleDispatcher
      (call.message proto schema)).run s.modules)) response) (hshort' : Short (messageOf response)) :
    ∃ s', Reaches proto schema moduleDispatcher s s' ∧ s'.Ready ∧ s'.lock = none ∧
      s'.thread t =
        .returned call s.acquired.length (call.result proto (messageOf response)) :=
  h.call_returnsBy lets_serves hlock hout hshort hshort hresponse hshort' fun _ => hshort'

/-- Protobuf for texts. -/
def textProto : Protobuf String String := ⟨id, fun _ text => some text, some, fun _ text => some text⟩

def textSchema : Schema String String := ⟨fun _ => "mammut.echo.Text", fun _ => "mammut.echo.Text"⟩

/-- A server with a module that sends back what it receives. -/
def echo : String → Option (Module Unit) := fun _ => some fun id text => return some (id, text)

def sayHello : RemoteCall String String String := ⟨"hello", ⟨"mammut.echo.Text", some⟩⟩

theorem run_correct_echo : ∃ s : Sharing Bool String String String Unit,
    s.thread true = .returned sayHello 0 (.ok "hello") ∧
      s.Correct textProto textSchema echo () := by
  have hready : (new () : Sharing Bool String String String Unit).Ready := ⟨rfl, rfl, rfl⟩
  have hmessage : textOf (sayHello.message textProto textSchema) = ("mammut.echo.Text", "hello") := by
    decide +kernel
  have hname : Servant.moduleOf "mammut.echo.Text" = some "echo" := by decide +kernel
  have hresponse : Servant.Answers (outcome ((processMessage echo
      (sayHello.message textProto textSchema)).run ())) ("mammut.echo.Text", "hello") := by
    rw [processMessage, hmessage, Servant.processRequest, Servant.process, Servant.getModuleName_eq,
      hname]
    rfl
  obtain ⟨s, ⟨events, run⟩, -, -, hreturned⟩ :=
    hready.call_returns (t := true) rfl trivial (by decide) hresponse (by decide)
  exact ⟨s, hreturned, run_correct run⟩

end Mammut.Sharing
