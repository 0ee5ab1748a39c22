import Mathlib.Data.List.Forall2
import Mammut.Server.Servant

/-! When a servant answers all the requests of its client: exactly when the processing of each of
them returns, or throws a `std::runtime_error`. -/

namespace Mammut.Servant

open Kit.Lockstep Kit.Programs

variable {σ : Type} (moduleDispatcher : String → Option (Module σ))

/-- The processing of a request. -/
def processRequest (request : String × String) : Call σ (String × String) :=
  process moduleDispatcher request.1 request.2

/-- The response to a request whose processing ended like this. -/
def Answers : Except Exn (String × String) → String × String → Prop
  | .ok (messageIdOut, messageOut), response => response = (messageIdOut, messageOut)
  | .error (.runtimeError what), response => response = ("", what)
  | .error _, _ => False

/-- After `n` requests, or when there are no more, the servant has sent exactly one response to
each of them, in their order, and has received no other. -/
def AnswersAll (requests sent : List (String × String)) (s : σ) : Prop :=
  ∀ n, ∃ responses,
    (run Mailbox.endpoint moduleDispatcher n).run (⟨requests, sent⟩, s) =
      .ok () (⟨requests.drop n, sent ++ responses⟩,
        (trace (processRequest moduleDispatcher) s (requests.take n)).2) ∧
    List.Forall₂ Answers (trace (processRequest moduleDispatcher) s (requests.take n)).1 responses

variable {moduleDispatcher} {request : String × String} {rest sent : List (String × String)} {s : σ}

theorem answers_iff {x : Call σ (String × String)} :
    (∃ response, Answers (outcome (x.run s)) response) ↔ Orderly (· = s) x := by
  unfold Orderly Triple
  cases hx : x.run s with
  | ok out t => simp [Answers, hx]
  | error e t => cases e <;> simp [Answers, hx, RuntimeError]

theorem answers_unique {out : Except Exn (String × String)} {r r' : String × String}
    (h : Answers out r) (h' : Answers out r') : r = r' := by
  cases out with
  | ok _ => exact h.trans h'.symm
  | error e =>
    cases e with
    | runtimeError what => exact h.trans h'.symm
    | outOfRange => exact h.elim
    | undefined => exact h.elim

/-- A request whose processing ends in order. -/
theorem iteration_answered {response : String × String}
    (h : Answers (outcome ((processRequest moduleDispatcher request).run s)) response) :
    (iteration Mailbox.endpoint moduleDispatcher).run (⟨request :: rest, sent⟩, s) =
      .ok true (⟨rest, sent ++ [response]⟩,
        final ((processRequest moduleDispatcher request).run s)) := by
  obtain ⟨id, text⟩ := request
  rw [iteration_run]
  unfold processRequest at h ⊢
  cases hx : (process moduleDispatcher id text).run s with
  | ok out t =>
    rw [hx] at h
    rw [show response = out from h]
    rfl
  | error e t =>
    rw [hx] at h
    cases e with
    | runtimeError what =>
      rw [show response = ("", what) from h]
      rfl
    | outOfRange => exact h.elim
    | undefined => exact h.elim

theorem run_closed (n : ℕ) : (run Mailbox.endpoint moduleDispatcher n).run (⟨[], sent⟩, s) =
    .ok () (⟨[], sent⟩, s) := by
  cases n with
  | zero => rfl
  | succ n => rfl

theorem answersAll_cons {response : String × String}
    (h : Answers (outcome ((processRequest moduleDispatcher request).run s)) response) :
    AnswersAll moduleDispatcher (request :: rest) sent s ↔
      AnswersAll moduleDispatcher rest (sent ++ [response])
        (final ((processRequest moduleDispatcher request).run s)) := by
  have hrun (n : ℕ) : (run Mailbox.endpoint moduleDispatcher (n + 1)).run
      (⟨request :: rest, sent⟩, s) = (run Mailbox.endpoint moduleDispatcher n).run
        (⟨rest, sent ++ [response]⟩, final ((processRequest moduleDispatcher request).run s)) := by
    rw [run, EStateM.run_bind, iteration_answered h]
    rfl
  constructor
  · intro hall n
    obtain ⟨responses, hrun', hresponses⟩ := hall (n + 1)
    rw [List.take_succ_cons] at hrun' hresponses
    obtain ⟨first, others, hfirst, hothers, rfl⟩ := List.forall₂_cons_left_iff.mp hresponses
    obtain rfl := answers_unique h hfirst
    rw [hrun] at hrun'
    exact ⟨others, by rw [hrun', List.append_assoc]; rfl, hothers⟩
  · intro hall n
    cases n with
    | zero => exact ⟨[], by rw [List.append_nil]; rfl, .nil⟩
    | succ n =>
      obtain ⟨others, hrun', hothers⟩ := hall n
      rw [List.append_assoc] at hrun'
      exact ⟨response :: others, by rw [hrun, hrun']; rfl, .cons h hothers⟩

theorem answersAll_iff (requests sent : List (String × String)) (s : σ) :
    AnswersAll moduleDispatcher requests sent s ↔
      Along (fun s request => Orderly (· = s) (processRequest moduleDispatcher request))
        (processRequest moduleDispatcher) s requests := by
  induction requests generalizing sent s with
  | nil =>
    refine iff_of_true (fun n => ⟨[], ?_, ?_⟩) trivial
    · simp [run_closed, trace]
    · simp [trace]
  | cons request rest ih =>
    by_cases h : Orderly (· = s) (processRequest moduleDispatcher request)
    · obtain ⟨response, hresponse⟩ := answers_iff.mpr h
      rw [answersAll_cons hresponse, ih]
      exact ⟨fun hrest => ⟨h, hrest⟩, And.right⟩
    · refine iff_of_false (fun hall => h ?_) (fun halong => h halong.1)
      obtain ⟨responses, -, hresponses⟩ := hall 1
      obtain ⟨first, -, hfirst, -, -⟩ := List.forall₂_cons_left_iff.mp hresponses
      exact answers_iff.mp ⟨first, hfirst⟩

/-- The module that an identifier names. -/
def moduleOf (messageId : String) : Option String :=
  match Utils.split messageId '.' with
  | ["mammut", name, _] => some name
  | _ => none

theorem getModuleName_eq (messageId : String) : (getModuleNameFromMessageId messageId : Call σ _) =
    match moduleOf messageId with
    | some name => pure name
    | none => throwText ("Wrong message id: " ++ messageId) := by
  unfold getModuleNameFromMessageId moduleOf
  generalize Utils.split messageId '.' = fields
  split
  · rfl
  · split
    · simp_all
    · rfl

theorem throwText_ends {α : Type} {P : σ → Prop} {what : String} :
    Orderly P (throwText what : Call σ α) := orderly_throw

/-- Only the module can end the processing of a request otherwise. -/
theorem process_ends_iff {id text : String} :
    Orderly (· = s) (process moduleDispatcher id text) ↔
      ∀ name, moduleOf id = some name → ∀ processMessage,
        moduleDispatcher name = some processMessage → Orderly (· = s) (processMessage id text) := by
  rw [process, getModuleName_eq]
  cases moduleOf id with
  | none => exact iff_of_true (orderly_at_of_error rfl) fun _ h => nomatch h
  | some name =>
    simp only [pure_bind, Option.some.injEq, forall_eq']
    cases moduleDispatcher name with
    | none => exact iff_of_true throwText_ends fun _ h => nomatch h
    | some processMessage =>
      simp only [Option.some.injEq, forall_eq']
      refine orderly_at_bind_left fun out => ?_
      cases out with
      | none => exact throwText_ends
      | some out => exact orderly_pure

theorem process_keeps {I : σ → Prop} {id text : String}
    (h : ∀ name processMessage, moduleDispatcher name = some processMessage →
      Keeps I (processMessage id text)) : Keeps I (process moduleDispatcher id text) := by
  rw [process, getModuleName_eq]
  refine keeps_bind ?_ fun name => ?_
  · cases moduleOf id with
    | none => exact keeps_throw
    | some name => exact keeps_pure
  · cases hname : moduleDispatcher name with
    | none => exact keeps_throw
    | some processMessage =>
      refine keeps_bind (h name processMessage hname) fun out => ?_
      cases out with
      | none => exact keeps_throw
      | some out => exact keeps_pure

/-- Whoever makes a call with this request finds the connection open, and parses the response or
throws a `std::runtime_error`; the connection is still open after it. -/
def CallServed (moduleDispatcher : String → Option (Module σ)) (s : σ)
    (request : String × String) : Prop :=
  ∀ (Req Res α : Type) (proto : Protobuf Req Res) (schema : Schema Req Res) (r : Req)
    (expected : Expected Res α), (schema.requestName r, proto.serializeRequest r) = request →
    ∃ t, (∃ a, (remoteCall proto schema moduleDispatcher r expected).run ⟨s, true⟩ =
        .ok a ⟨t, true⟩) ∨
      ∃ what, (remoteCall proto schema moduleDispatcher r expected).run ⟨s, true⟩ =
        .error (.runtimeError what) ⟨t, true⟩

theorem callServed_of_ends
    (h : Orderly (· = s) (processRequest moduleDispatcher request)) :
    CallServed moduleDispatcher s request := by
  rintro Req Res α proto schema r expected rfl
  obtain ⟨response, t, hprocess⟩ | ⟨what, t, hprocess⟩ := h.ends rfl
  · cases hread : readResponse proto expected (some response) with
    | ok a => exact ⟨t, .inl ⟨a, remoteCall_run_ok hprocess hread⟩⟩
    | error e =>
      obtain ⟨what, rfl⟩ := readResponse_error hread
      exact ⟨t, .inr ⟨what, remoteCall_run_unreadable hprocess hread⟩⟩
  · exact ⟨t, .inr ⟨what, remoteCall_run_error hprocess⟩⟩

end Mammut.Servant
