import Mammut.Server.Servant

/-! Calls of a client that the server answers by a call on an object of its own: the client sees
what that call returns or throws, and the server is left as that call leaves it. -/

namespace Mammut

open Kit.Lockstep Utils

variable {σ S Req Res α β : Type} {proto : Protobuf Req Res} {schema : Schema Req Res}
  {moduleDispatcher : String → Option (Module σ)} {f : S → σ} {s : S} {call : Call S β}

/-- Protobuf takes the request back from what it has made of it. -/
def Protobuf.Asks (proto : Protobuf Req Res) (schema : Schema Req Res) (request : Req) : Prop :=
  proto.parseRequest (schema.requestName request) (proto.serializeRequest request) = some request

/-- Protobuf takes the response back from what it has made of it. -/
def Protobuf.Carries (proto : Protobuf Req Res) (schema : Schema Req Res) (response : Res) :
    Prop :=
  ∃ text, proto.serializeResponse response = some text ∧
    proto.parseResponse (schema.responseName response) text = some response

theorem Protobuf.Carries.message {response : Res} (h : proto.Carries schema response) :
    ∃ text, setMessageFromData proto schema response = some (schema.responseName response, text) ∧
      proto.parseResponse (schema.responseName response) text = some response := by
  obtain ⟨text, htext, hparse⟩ := h
  exact ⟨text, by rw [setMessageFromData, htext, Option.map_some], hparse⟩

theorem readResponse_of_parse {expected : Expected Res α} {response : Res} {text : String} {a : α}
    (hname : expected.name = schema.responseName response) (hnonempty : expected.name ≠ "")
    (hparse : proto.parseResponse (schema.responseName response) text = some response)
    (hread : expected.read response = some a) :
    readResponse proto expected (some (schema.responseName response, text)) = .ok a := by
  rw [hname] at hnonempty
  rw [readResponse, if_neg hnonempty, hname, if_neg (not_not.mpr rfl), hparse, Option.bind_some,
    hread]

theorem process_run {module : Module σ} {name messageIdIn : String}
    (hname : ∀ s : σ, (getModuleNameFromMessageId messageIdIn).run s = .ok name s)
    (hactivated : moduleDispatcher name = some module) (messageIn : String) (t : σ) :
    (Servant.process moduleDispatcher messageIdIn messageIn).run t =
      match (module messageIdIn messageIn).run t with
      | .ok (some out) t => .ok out t
      | .ok none t => .error (.runtimeError (cString
          ("Server: Error while processing message " ++ messageIdIn ++ "."))) t
      | .error e t => .error e t := by
  rw [Servant.process, EStateM.run_bind, hname]
  simp only [hactivated, EStateM.run_bind]
  rcases (module messageIdIn messageIn).run t with ⟨⟨⟩ | out, t⟩ | ⟨e, t⟩ <;> rfl

/-- The step lemma of a remote call: the module of the request answers it with what it makes of
`call`, and the client reads that. -/
theorem remoteCall_follows {module : Module σ} {name : String} {request : Req}
    {expected : Expected Res α} {response : β → Res} {value : β → α}
    (hname : ∀ s : σ, (getModuleNameFromMessageId (schema.requestName request)).run s = .ok name s)
    (hactivated : moduleDispatcher name = some module)
    (hmodule : Follows f s (module (schema.requestName request) (proto.serializeRequest request))
      (do return setMessageFromData proto schema (response (← call))))
    (hexpected : ∀ b, expected.name = schema.responseName (response b))
    (hnonempty : expected.name ≠ "") (hread : ∀ b, expected.read (response b) = some (value b))
    (hends : Orderly (· = s) call)
    (hcarries : ∀ b t, call.run s = .ok b t → proto.Carries schema (response b)) :
    Follows (fun s => ⟨f s, true⟩) s (remoteCall proto schema moduleDispatcher request expected)
      (do return value (← call)) := by
  have hprocess := process_run hname hactivated (proto.serializeRequest request) (f s)
  unfold Follows at hmodule ⊢
  rw [hmodule, EStateM.run_bind] at hprocess
  rw [EStateM.run_bind]
  obtain ⟨b, t, hcall⟩ | ⟨what, t, hcall⟩ := hends.ends rfl
  · obtain ⟨text, htext, hparse⟩ := (hcarries b t hcall).message
    simp only [hcall, EStateM.run_pure, mapState_ok, htext] at hprocess
    rw [hcall]
    exact remoteCall_run_ok hprocess
      (readResponse_of_parse (hexpected b) hnonempty hparse (hread b))
  · rw [hcall] at hprocess ⊢
    exact remoteCall_run_error hprocess

/-- What a call makes of what it reads. -/
def Expected.map (expected : Expected Res α) (f : α → β) : Expected Res β where
  name := expected.name
  read r := (expected.read r).map f

theorem readResponse_map (expected : Expected Res α) (f : α → β)
    (received : Option (String × String)) :
    readResponse proto (expected.map f) received =
      (readResponse proto expected received).map f := by
  have hname : (expected.map f).name = expected.name := rfl
  cases received with
  | none => rfl
  | some received =>
    obtain ⟨id, text⟩ := received
    have hbind : (proto.parseResponse expected.name text).bind (expected.map f).read =
        ((proto.parseResponse expected.name text).bind expected.read).map f := by
      cases proto.parseResponse expected.name text <;> rfl
    simp only [readResponse, hname, hbind]
    split_ifs
    · rfl
    · rfl
    · cases (proto.parseResponse expected.name text).bind expected.read <;> rfl

theorem remoteCall_map (request : Req) (expected : Expected Res α) (f : α → β) :
    remoteCall proto schema moduleDispatcher request (expected.map f) =
      do return f (← remoteCall proto schema moduleDispatcher request expected) := by
  funext s
  show (remoteCall proto schema moduleDispatcher request (expected.map f)).run s =
    (do return f (← remoteCall proto schema moduleDispatcher request expected) : Call _ _).run s
  rw [EStateM.run_bind]
  by_cases hopen : s.isOpen
  · simp only [EStateM.run, remoteCall, if_pos hopen, readResponse_map]
    cases Servant.iteration Mailbox.endpoint moduleDispatcher
      (⟨[(schema.requestName request, proto.serializeRequest request)], []⟩, s.server) with
    | ok goesOn t =>
      obtain ⟨mailbox, t⟩ := t
      dsimp only
      cases readResponse proto expected mailbox.outgoing.head? <;> rfl
    | error e t => rfl
  · simp only [EStateM.run, remoteCall, if_neg hopen, readResponse_map]
    cases readResponse proto expected none <;> rfl

end Mammut
