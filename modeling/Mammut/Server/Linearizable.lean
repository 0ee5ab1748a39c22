import Mammut.Kit.Histories
import Mammut.Server.SharingRuns

/-! The threads of a client that share a communicator see what they would see if each of their calls
were made at once, on the state of the server: `remoteCall` of a session stands for the bytes that
travel while several threads wait. -/

namespace Mammut

open Kit Kit.Histories Kit.Lockstep Kit.Runs Utils

variable {T Req Res α σ : Type} (proto : Protobuf Req Res) (schema : Schema Req Res)
  (moduleDispatcher : String → Option (Module σ))

/-- The call on the session of a client that is alone. -/
def RemoteCall.atOnce (call : RemoteCall Req Res α) : Call (Session σ) α :=
  remoteCall proto schema moduleDispatcher call.request call.expected

/-- The call of a thread that has had the lock for it and has yet to return, with its place. -/
def Caller.pending : Caller Req Res α → Option (RemoteCall Req Res α × ℕ)
  | .inside call ticket _ => some (call, ticket)
  | .reading call ticket _ => some (call, ticket)
  | _ => none

namespace Sharing

/-- The calls of the threads, each of which takes effect when it gets the lock. -/
abbrev Calls (T Req Res α : Type) := History T (RemoteCall Req Res α) (Except Exn α)

/-- A step as the threads see it. -/
def record [DecidableEq T] (s : Sharing T Req Res α σ) (e : Event T Req Res α)
    (h : Calls T Req Res α) : Calls T Req Res α :=
  match e with
  | .call t _ => { h with made := Function.update h.made t (h.returned.map Prod.fst) }
  | .acquire t =>
    match s.thread t with
    | .locking call => { h with order := h.order ++ [(t, call)], earlier := h.earlier ++ [h.made t] }
    | _ => h
  | .release t =>
    match s.thread t with
    | .inside _ ticket (.throw e) => { h with returned := h.returned ++ [(ticket, .error e)] }
    | _ => h
  | .finish t =>
    match s.thread t with
    | .reading call ticket received =>
      { h with returned := h.returned ++ [(ticket, call.result proto received)] }
    | _ => h
  | _ => h

/-- The characters of the texts that travel are bytes. -/
def InBytes (_ : Sharing T Req Res α σ) : Event T Req Res α → Prop
  | .call _ call =>
    IsBytes (schema.requestName call.request) ∧ IsBytes (proto.serializeRequest call.request)
  | .respond response => IsBytes response.1 ∧ IsBytes response.2
  | _ => True

variable {proto schema moduleDispatcher}

theorem textOf_messageOf {m : String × String} (h : IsBytes m.1 ∧ IsBytes m.2) :
    textOf (messageOf m) = m := by
  rw [messageOf, textOf, ofBytes_bytesOf h.1, ofBytes_bytesOf h.2]

/-- A call at once on the state in which the servant processes its request. -/
theorem atOnce_run {call : RemoteCall Req Res α} {response : String × String} {s : σ}
    (hcall : IsBytes (schema.requestName call.request) ∧
      IsBytes (proto.serializeRequest call.request))
    (hresponse : IsBytes response.1 ∧ IsBytes response.2)
    (h : Servant.Answers (outcome ((processMessage moduleDispatcher
      (call.message proto schema)).run s)) response) :
    outcome ((RemoteCall.atOnce proto schema moduleDispatcher call).run ⟨s, true⟩) =
        call.result proto (messageOf response) ∧
      final ((RemoteCall.atOnce proto schema moduleDispatcher call).run ⟨s, true⟩) =
        ⟨final ((processMessage moduleDispatcher (call.message proto schema)).run s), true⟩ := by
  rw [processMessage, RemoteCall.message, textOf_messageOf hcall] at h ⊢
  have hiteration := @Servant.iteration_answered _ _ _ [] [] s _ h
  show outcome (remoteCall proto schema moduleDispatcher call.request call.expected ⟨s, true⟩) = _ ∧
    final (remoteCall proto schema moduleDispatcher call.request call.expected ⟨s, true⟩) = _
  simp only [remoteCall, if_true]
  rw [hiteration, RemoteCall.result, textOf_messageOf hresponse]
  simp only [List.nil_append, List.head?_cons]
  cases readResponse proto call.expected (some response) <;> exact ⟨rfl, rfl⟩

/-- The calls at once, one after the other, when the servant answers their requests. -/
theorem trace_atOnce {calls : List (RemoteCall Req Res α)} {responses : List (String × String)}
    {s : σ}
    (hcalls : ∀ call ∈ calls, IsBytes (schema.requestName call.request) ∧
      IsBytes (proto.serializeRequest call.request))
    (hresponses : ∀ response ∈ responses, IsBytes response.1 ∧ IsBytes response.2)
    (h : List.Forall₂ Servant.Answers (trace (processMessage moduleDispatcher) s
      (calls.map fun call => call.message proto schema)).1 responses) :
    trace (RemoteCall.atOnce proto schema moduleDispatcher) ⟨s, true⟩ calls =
      (List.zipWith (fun call response => call.result proto (messageOf response)) calls responses,
        ⟨(trace (processMessage moduleDispatcher) s
          (calls.map fun call => call.message proto schema)).2, true⟩) := by
  induction calls generalizing responses s with
  | nil => rfl
  | cons call calls ih =>
    obtain ⟨response, others, hfirst, hothers, rfl⟩ := List.forall₂_cons_left_iff.mp h
    obtain ⟨hcall, hcalls⟩ := List.forall_mem_cons.mp hcalls
    obtain ⟨hresponse, hresponses⟩ := List.forall_mem_cons.mp hresponses
    obtain ⟨hout, hfinal⟩ := atOnce_run hcall hresponse hfirst
    rw [List.map_cons, trace, hout, hfinal, ih hcalls hresponses hothers]
    rfl

variable (proto schema moduleDispatcher)

/-- The invariant of a communicator and the record of its calls. -/
structure Accounts (modules : σ) (s : Sharing T Req Res α σ) (h : Calls T Req Res α) : Prop where
  holds : s.Holds proto schema moduleDispatcher modules
  acquired : s.acquired = h.order.map fun c => (c.1, c.2.message proto schema)
  length : h.earlier.length = h.order.length
  pending : ∀ t call ticket, (s.thread t).pending = some (call, ticket) →
    h.order[ticket]? = some (t, call) ∧ ticket ∉ h.returned.map Prod.fst
  returned : ∀ i r, (i, r) ∈ h.returned → ∃ t call response, h.order[i]? = some (t, call) ∧
    s.processed[i]? = some (call.message proto schema, response) ∧
      r = call.result proto (messageOf response)
  once : (h.returned.map Prod.fst).Nodup
  made : ∀ t, ∀ j ∈ h.made t, j < h.order.length
  earlier : ∀ (i : ℕ) (places : List ℕ), h.earlier[i]? = some places → ∀ j ∈ places, j < i
  responses : ∀ p ∈ s.processed, IsBytes p.2.1 ∧ IsBytes p.2.2

variable {proto schema moduleDispatcher} {s s' : Sharing T Req Res α σ} {h : Calls T Req Res α}
  {modules : σ}

theorem accounts_new (modules : σ) :
    Accounts proto schema moduleDispatcher modules (new modules : Sharing T Req Res α σ)
      History.new where
  holds := holds_new modules
  acquired := rfl
  length := rfl
  pending _ _ _ h := by cases h
  returned _ _ h := nomatch h
  once := List.nodup_nil
  made _ _ h := nomatch h
  earlier _ _ h := nomatch h
  responses _ h := nomatch h

/-- The history is right as far as the servant has processed the requests. -/
theorem Accounts.linearizes (ha : Accounts proto schema moduleDispatcher modules s h)
    (hcalls : ∀ call ∈ h.calls, IsBytes (schema.requestName call.request) ∧
      IsBytes (proto.serializeRequest call.request)) :
    h.Linearizes (RemoteCall.atOnce proto schema moduleDispatcher) ⟨modules, true⟩ ∧
      (trace (RemoteCall.atOnce proto schema moduleDispatcher) ⟨modules, true⟩
        (h.calls.take s.processed.length)).2 = ⟨s.modules, true⟩ := by
  obtain ⟨out, hall, -⟩ := ha.holds.all
  have hmessages : h.calls.map (fun call => call.message proto schema) =
      s.processed.map Prod.fst ++ out := by
    rw [← hall, ha.acquired, List.map_map, History.calls, List.map_map]
    rfl
  have htake : (h.calls.take s.processed.length).map (fun call => call.message proto schema) =
      s.processed.map Prod.fst := by
    rw [List.map_take, hmessages, List.take_left' (List.length_map _)]
  have hcomputed := ha.holds.computed
  have htrace := @trace_atOnce _ _ _ _ proto schema moduleDispatcher _ _ modules
    (fun call hcall => hcalls call (List.mem_of_mem_take hcall))
    (fun response hresponse => by
      obtain ⟨p, hp, rfl⟩ := List.mem_map.mp hresponse
      exact ha.responses p hp)
    (htake ▸ hcomputed.responses)
  refine ⟨⟨fun i r hr => ?_, ha.once, ha.earlier⟩, ?_⟩
  · obtain ⟨t, call, response, horder, hprocessed, rfl⟩ := ha.returned i r hr
    have hcall : (h.calls.take s.processed.length)[i]? = some call := by
      have hlt := (List.getElem?_eq_some_iff.mp hprocessed).1
      rw [List.getElem?_take_of_lt hlt, History.calls, List.getElem?_map, horder]
      rfl
    have hresponse : (s.processed.map Prod.snd)[i]? = some response := by
      rw [List.getElem?_map, hprocessed]
      rfl
    have hout : (trace (RemoteCall.atOnce proto schema moduleDispatcher) ⟨modules, true⟩
        (h.calls.take s.processed.length)).1[i]? =
          some (call.result proto (messageOf response)) := by
      rw [htrace, List.getElem?_zipWith, hcall, hresponse]
    rw [← List.take_append_drop s.processed.length h.calls, trace_append]
    rw [List.getElem?_append_left (List.getElem?_eq_some_iff.mp hout).1, hout]
  · rw [htrace, htake, ← hcomputed.modules]

namespace Accounts

theorem returned_lt (ha : Accounts proto schema moduleDispatcher modules s h) :
    ∀ j ∈ h.returned.map Prod.fst, j < h.order.length := by
  intro j hj
  obtain ⟨⟨i, r⟩, hr, rfl⟩ := List.mem_map.mp hj
  obtain ⟨t, call, response, horder, -⟩ := ha.returned i r hr
  exact (List.getElem?_eq_some_iff.mp horder).1

/-- A step that gives no thread the lock, and lets none return. -/
theorem keep (ha : Accounts proto schema moduleDispatcher modules s h)
    (hholds : s'.Holds proto schema moduleDispatcher modules) (hacquired : s'.acquired = s.acquired)
    (hprocessed : s.processed <+: s'.processed)
    (hresponses : ∀ p ∈ s'.processed, IsBytes p.2.1 ∧ IsBytes p.2.2)
    (hpending : ∀ t, (s'.thread t).pending = (s.thread t).pending) :
    Accounts proto schema moduleDispatcher modules s' h where
  holds := hholds
  acquired := hacquired.trans ha.acquired
  length := ha.length
  pending t call ticket ht := ha.pending t call ticket ((hpending t).symm.trans ht)
  returned i r hr := by
    obtain ⟨t, call, response, horder, hp, hresult⟩ := ha.returned i r hr
    exact ⟨t, call, response, horder, getElem?_of_isPrefix hprocessed hp, hresult⟩
  once := ha.once
  made := ha.made
  earlier := ha.earlier
  responses := hresponses

variable [DecidableEq T] {t : T} {call : RemoteCall Req Res α} {caller : Caller Req Res α}
  {ticket : ℕ}

/-- A thread goes on in its call. -/
theorem keep_thread (ha : Accounts proto schema moduleDispatcher modules s h)
    (hholds : (s'.setThread t caller).Holds proto schema moduleDispatcher modules)
    (hthread : s'.thread = s.thread) (hacquired : s'.acquired = s.acquired)
    (hprocessed : s'.processed = s.processed) (hpending : caller.pending = (s.thread t).pending) :
    Accounts proto schema moduleDispatcher modules (s'.setThread t caller) h := by
  have hprefix : s.processed <+: (s'.setThread t caller).processed :=
    hprocessed ▸ List.prefix_refl _
  refine ha.keep hholds hacquired hprefix (fun p hp => ha.responses p (hprocessed ▸ hp)) fun u => ?_
  by_cases hut : u = t
  · rw [hut, setThread_thread_self, hpending]
  · rw [setThread_thread_of_ne hut, hthread]

theorem acquire (ha : Accounts proto schema moduleDispatcher modules s h)
    (hlocking : s.thread t = .locking call) (hfree : s.lock = none) :
    Accounts proto schema moduleDispatcher modules
      ({ s with
          lock := some t
          acquired := s.acquired ++ [(t, call.message proto schema)] }.setThread t
        (.inside call s.acquired.length (exchange (call.message proto schema))))
      { h with order := h.order ++ [(t, call)], earlier := h.earlier ++ [h.made t] } := by
  have hlength : s.acquired.length = h.order.length := by rw [ha.acquired, List.length_map]
  have hgrows {i : ℕ} {c : T × RemoteCall Req Res α} (hi : h.order[i]? = some c) :
      (h.order ++ [(t, call)])[i]? = some c :=
    getElem?_of_isPrefix (List.prefix_append _ _) hi
  refine ⟨ha.holds.acquire hlocking hfree, ?_, ?_, ?_, ?_, ha.once, ?_, ?_, ha.responses⟩
  · simp [Sharing.setThread, ha.acquired]
  · simp [ha.length]
  · intro u call' ticket hu
    by_cases hut : u = t
    · rw [hut, setThread_thread_self] at hu
      cases hu
      refine ⟨by simp [hut, hlength], fun hmem => ?_⟩
      exact absurd (ha.returned_lt _ hmem) (by omega)
    · rw [setThread_thread_of_ne hut] at hu
      obtain ⟨horder, hnot⟩ := ha.pending u call' ticket hu
      exact ⟨hgrows horder, hnot⟩
  · intro i r hr
    obtain ⟨u, call', response, horder, hp, hresult⟩ := ha.returned i r hr
    exact ⟨u, call', response, hgrows horder, hp, hresult⟩
  · intro u j hj
    have hlt := ha.made u j hj
    simp only [List.length_append, List.length_singleton]
    omega
  · intro i places hi j hj
    rcases Nat.lt_or_ge i h.earlier.length with hlt | hge
    · rw [List.getElem?_append_left hlt] at hi
      exact ha.earlier i places hi j hj
    · rw [List.getElem?_append_right hge, List.getElem?_singleton] at hi
      split_ifs at hi with hzero
      cases hi
      have hmade := ha.made t j hj
      have hsame := ha.length
      omega

theorem finish (ha : Accounts proto schema moduleDispatcher modules s h) {received : Message}
    (hreading : s.thread t = .reading call ticket received)
    (hholds : (s.setThread t (.returned call ticket (call.result proto received))).Holds proto
      schema moduleDispatcher modules) :
    Accounts proto schema moduleDispatcher modules
      (s.setThread t (.returned call ticket (call.result proto received)))
      { h with returned := h.returned ++ [(ticket, call.result proto received)] } := by
  have hpending : (s.thread t).pending = some (call, ticket) := by rw [hreading]; rfl
  obtain ⟨horder, hnot⟩ := ha.pending t call ticket hpending
  refine ⟨hholds, ha.acquired, ha.length, ?_, ?_, ?_, ha.made, ha.earlier, ha.responses⟩
  · intro u call' ticket' hu
    have hut : u ≠ t := by
      rintro rfl
      rw [setThread_thread_self] at hu
      cases hu
    rw [setThread_thread_of_ne hut] at hu
    obtain ⟨horder', hnot'⟩ := ha.pending u call' ticket' hu
    refine ⟨horder', ?_⟩
    rw [List.map_append, List.mem_append, not_or]
    refine ⟨hnot', fun hmem => hut ?_⟩
    -- The place is that of one thread.
    obtain rfl : ticket' = ticket := by simpa using hmem
    exact congrArg Prod.fst (Option.some.inj (horder'.symm.trans horder))
  · intro i r hr
    rw [List.mem_append, List.mem_singleton] at hr
    rcases hr with hr | hr
    · exact ha.returned i r hr
    · obtain ⟨rfl, rfl⟩ := Prod.mk.inj hr
      have hgood := ha.holds.threads t
      rw [hreading] at hgood
      obtain ⟨response, hown, rfl⟩ := hgood
      exact ⟨t, call, response, horder, hown.processed, rfl⟩
  · rw [List.map_append, List.nodup_append]
    refine ⟨ha.once, by simp, ?_⟩
    rintro a hmem b hb rfl
    obtain rfl : a = ticket := by simpa using hb
    exact hnot hmem

theorem step (ha : Accounts proto schema moduleDispatcher modules s h) {e : Event T Req Res α}
    (hserves : s.Serves proto schema e) (hbytes : s.InBytes proto schema e)
    (hstep : s.Step proto schema moduleDispatcher e s') :
    Accounts proto schema moduleDispatcher modules s' (s.record proto e h) := by
  have hholds := ha.holds.step hserves hstep
  -- The servant takes a step that gives it no response.
  have hservant {servant : ServantState} {requests responses : Bytes}
      (hnext : { s with servant := servant, requests := requests, responses := responses }.Holds
        proto schema moduleDispatcher modules) :
      Accounts proto schema moduleDispatcher modules
        { s with servant := servant, requests := requests, responses := responses } h :=
    ha.keep hnext rfl (List.prefix_refl _) ha.responses fun _ => rfl
  cases hstep with
  | @call t call hout =>
    have hnone : (s.thread t).pending = none := by
      cases hthread : s.thread t with
      | out => rfl
      | returned call ticket result => rfl
      | locking call => rw [hthread] at hout; exact hout.elim
      | inside call ticket talk => rw [hthread] at hout; exact hout.elim
      | reading call ticket received => rw [hthread] at hout; exact hout.elim
    have hcalled := ha.keep_thread hholds rfl rfl rfl hnone.symm
    refine { hcalled with made := fun u j hj => ?_ }
    show j < h.order.length
    replace hj : j ∈ Function.update h.made t (h.returned.map Prod.fst) u := hj
    by_cases hut : u = t
    · rw [hut, Function.update_self] at hj
      exact ha.returned_lt j hj
    · rw [Function.update_of_ne hut] at hj
      exact ha.made u j hj
  | acquire hlocking hfree =>
    rw [record]
    simp only [hlocking]
    exact ha.acquire hlocking hfree
  | talk hinside htalk =>
    exact ha.keep_thread hholds rfl rfl rfl (by rw [hinside]; rfl)
  | release hinside =>
    rw [record]
    simp only [hinside]
    exact ha.keep_thread hholds rfl rfl rfl (by rw [hinside]; rfl)
  | throws hinside => exact absurd hinside ha.holds.not_throws
  | finish hreading =>
    rw [record]
    simp only [hreading]
    exact ha.finish hreading hholds
  | receive hservant' htalk => exact hservant hholds
  | send hservant' htalk => exact hservant hholds
  | respond hservant' hresponse =>
    refine ha.keep hholds rfl (List.prefix_append _ _) (fun p hp => ?_) fun _ => rfl
    rcases List.mem_append.mp hp with hp | hp
    · exact ha.responses p hp
    · rw [List.mem_singleton.mp hp]
      exact hbytes
  | truncated hservant' => exact hservant hholds
  | again hservant' => exact hservant hholds
  | close => exact hserves.elim

end Accounts

section Made

variable [DecidableEq T] {P : RemoteCall Req Res α → Prop} {t : T} {caller : Caller Req Res α}

/-- What holds of the calls that threads wait to make, and of those that they have made. -/
def AllCalls (P : RemoteCall Req Res α → Prop) (s : Sharing T Req Res α σ) (h : Calls T Req Res α) :
    Prop :=
  (∀ t call, s.thread t = .locking call → P call) ∧ ∀ call ∈ h.calls, P call

/-- A thread whose call is in order goes on. -/
theorem AllCalls.keep_thread (ha : s.AllCalls P h) (hthread : s'.thread = s.thread)
    (hcaller : ∀ call, caller = .locking call → P call) :
    (s'.setThread t caller).AllCalls P h := by
  refine ⟨fun u call hu => ?_, ha.2⟩
  by_cases hut : u = t
  · rw [hut, setThread_thread_self] at hu
    exact hcaller call hu
  · rw [setThread_thread_of_ne hut, hthread] at hu
    exact ha.1 u call hu

theorem AllCalls.step (ha : s.AllCalls P h) {e : Event T Req Res α}
    (hcall : ∀ t call, e = .call t call → P call)
    (hstep : s.Step proto schema moduleDispatcher e s') :
    s'.AllCalls P (s.record proto e h) := by
  cases hstep with
  | @call t call hout =>
    exact ha.keep_thread rfl fun call' hlocking =>
      hcall t call' (by rw [Caller.locking.inj hlocking])
  | @acquire t call hlocking hfree =>
    rw [record]
    simp only [hlocking]
    refine ⟨(ha.keep_thread rfl fun _ h => by cases h).1, fun call' hmem => ?_⟩
    simp only [History.calls, List.map_append, List.map_singleton, List.mem_append,
      List.mem_singleton] at hmem
    rcases hmem with hmem | rfl
    · exact ha.2 call' hmem
    · exact ha.1 t call' hlocking
  | talk hinside htalk => exact ha.keep_thread rfl fun _ h => by cases h
  | release hinside =>
    rw [record]
    simp only [hinside]
    exact ha.keep_thread rfl fun _ h => by cases h
  | throws hinside =>
    rw [record]
    simp only [hinside]
    exact ha.keep_thread rfl fun _ h => by cases h
  | finish hreading =>
    rw [record]
    simp only [hreading]
    exact ha.keep_thread rfl fun _ h => by cases h
  | receive hservant htalk => exact ha
  | send hservant htalk => exact ha
  | respond hservant hresponse => exact ha
  | truncated hservant => exact ha
  | again hservant => exact ha
  | close => exact ha

end Made

variable [DecidableEq T]

variable (proto schema) in
/-- The servant serves, and what travels are bytes. -/
def Regular (s : Sharing T Req Res α σ) (e : Event T Req Res α) : Prop :=
  s.Serves proto schema e ∧ s.InBytes proto schema e

/-- The runs of a communicator with the record of its calls. -/
abbrev RecordedRun (proto : Protobuf Req Res) (schema : Schema Req Res)
    (moduleDispatcher : String → Option (Module σ)) (modules : σ) (events : List (Event T Req Res α))
    (s : Sharing T Req Res α σ) (h : Calls T Req Res α) : Prop :=
  Run (Recorded (Guarded (Regular proto schema) (Step proto schema moduleDispatcher))
    (record proto)) (new modules, History.new) events (s, h)

variable {events : List (Event T Req Res α)}

theorem RecordedRun.accounts
    (run : RecordedRun proto schema moduleDispatcher modules events s h) :
    Accounts proto schema moduleDispatcher modules s h :=
  run.invariant (fun p => Accounts proto schema moduleDispatcher modules p.1 p.2)
    (accounts_new modules) fun _ _ _ ha hstep =>
      hstep.2 ▸ ha.step hstep.1.1.1 hstep.1.1.2 hstep.1.2

theorem RecordedRun.allCalls {P : RemoteCall Req Res α → Prop}
    (run : RecordedRun proto schema moduleDispatcher modules events s h)
    (hcalls : ∀ (a : Sharing T Req Res α σ) t call, a.Regular proto schema (.call t call) →
      .call t call ∈ events → P call) : s.AllCalls P h := by
  unfold RecordedRun at run
  generalize hp : (s, h) = p at run
  induction run generalizing s h with
  | nil =>
    cases hp
    exact ⟨fun _ _ h => (by cases h), fun _ h => (by cases h)⟩
  | @snoc events q r e first hstep ih =>
    subst hp
    obtain ⟨⟨hregular, hstep⟩, hrecord⟩ := hstep
    have hall := ih (fun a t call ha hmem => hcalls a t call ha (List.mem_append_left _ hmem)) rfl
    rw [show h = record proto q.1 e q.2 from hrecord]
    exact hall.step (fun t call he => hcalls q.1 t call (he ▸ hregular) (by simp [he])) hstep

/-- The threads that share a communicator see a history of calls at once on the session of one
client, of which the modules of the server are in the state that the session has after the calls
whose requests have been processed. -/
theorem run_linearizes (run : RecordedRun proto schema moduleDispatcher modules events s h) :
    h.Linearizes (RemoteCall.atOnce proto schema moduleDispatcher) ⟨modules, true⟩ ∧
      (trace (RemoteCall.atOnce proto schema moduleDispatcher) ⟨modules, true⟩
        (h.calls.take s.processed.length)).2 = ⟨s.modules, true⟩ :=
  run.accounts.linearizes (run.allCalls fun _ _ _ hregular _ => hregular.2).2

/-- Calls of the threads that do at once what calls on objects of the server do: the threads see a
history of the latter. -/
theorem RecordedRun.onServer {C : Type} {asks : C → RemoteCall Req Res α → Prop}
    {onServer : C → Call σ α}
    (run : RecordedRun proto schema moduleDispatcher modules events s h)
    (hcalls : ∀ t call, .call t call ∈ events → ∃ c, asks c call)
    (htrace : ∀ cs calls, List.Forall₂ asks cs calls →
      trace (RemoteCall.atOnce proto schema moduleDispatcher) ⟨modules, true⟩ calls =
        ((trace onServer modules cs).1, ⟨(trace onServer modules cs).2, true⟩)) :
    ∃ h' : History T C (Except Exn α), StandsFor asks h' h ∧ h'.Linearizes onServer modules ∧
      s.modules = (trace onServer modules (h'.calls.take s.processed.length)).2 := by
  obtain ⟨hlinear, hmodules⟩ :=
    run.accounts.linearizes (run.allCalls fun _ _ _ hregular _ => hregular.2).2
  obtain ⟨h', hstands⟩ :=
    exists_standsFor (run.allCalls fun _ t call _ hmem => hcalls t call hmem).2
  refine ⟨h', hstands, hstands.linearizes hlinear ?_, ?_⟩
  · rw [htrace _ _ hstands.calls]
  · rw [htrace _ _ (List.forall₂_take s.processed.length hstands.calls)] at hmodules
    exact (congrArg Session.server hmodules).symm

omit [DecidableEq T] in
theorem lets_regular : Lets (Regular proto schema : Sharing T Req Res α σ → _) := by
  intro s e he
  exact ⟨lets_serves s e he, by cases e <;> trivial⟩

/-- A thread that is alone makes a call, and no other is made. -/
theorem exists_recordedRun {t : T} {call : RemoteCall Req Res α} {response : String × String}
    (hcall : Regular proto schema (new modules : Sharing T Req Res α σ) (.call t call))
    (hanswers : Servant.Answers (outcome ((processMessage moduleDispatcher
      (call.message proto schema)).run modules)) response)
    (hresponse : Regular proto schema (new modules : Sharing T Req Res α σ) (.respond response)) :
    ∃ events s h, RecordedRun proto schema moduleDispatcher modules events s h ∧
      s.thread t = .returned call 0 (call.result proto (messageOf response)) ∧
      ∀ u call', .call u call' ∈ events → call' = call := by
  have hlets : Lets fun (s : Sharing T Req Res α σ) e => s.Regular proto schema e ∧
      ∀ u call', e = .call u call' → call' = call := by
    refine fun s e he => ⟨lets_regular s e he, ?_⟩
    rintro u call' rfl
    exact he.elim
  have hready : (new modules : Sharing T Req Res α σ).Ready := ⟨rfl, rfl, rfl⟩
  obtain ⟨s, ⟨events, run⟩, -, -, hreturned⟩ := hready.call_returnsBy (t := t) hlets rfl trivial
    ⟨hcall, by rintro u call' ⟨⟩; rfl⟩ hcall.1 hanswers hresponse.1
    fun _ => ⟨hresponse, by rintro u call' ⟨⟩⟩
  have hcalls := run.forall_labels fun _ _ _ hstep => hstep.1.2
  obtain ⟨h, recorded⟩ := (run.mono fun _ _ _ hstep => ⟨hstep.1.1, hstep.2⟩ :
    Run (Guarded (Regular proto schema) (Step proto schema moduleDispatcher)) _ events s).recorded
      (record proto) History.new
  exact ⟨events, s, h, recorded, hreturned, fun u call' hmem => hcalls _ hmem u call' rfl⟩

theorem run_linearizes_echo :
    ∃ (s : Sharing Bool String String String Unit) (h : Calls Bool String String String),
      s.thread true = .returned sayHello 0 (.ok "hello") ∧
        h.Linearizes (RemoteCall.atOnce textProto textSchema echo) ⟨(), true⟩ ∧
        (trace (RemoteCall.atOnce textProto textSchema echo) ⟨(), true⟩
          (h.calls.take s.processed.length)).2 = ⟨s.modules, true⟩ := by
  have hbytes : IsBytes "mammut.echo.Text" ∧ IsBytes "hello" := by simp [IsBytes]
  have hmessage : textOf (sayHello.message textProto textSchema) = ("mammut.echo.Text", "hello") :=
    textOf_messageOf hbytes
  have hname : Servant.moduleOf "mammut.echo.Text" = some "echo" := by decide +kernel
  have hresponse : Servant.Answers (outcome ((processMessage echo
      (sayHello.message textProto textSchema)).run ())) ("mammut.echo.Text", "hello") := by
    rw [processMessage, hmessage, Servant.processRequest, Servant.process, Servant.getModuleName_eq,
      hname]
    rfl
  have hshort : Short (sayHello.message textProto textSchema) := by decide
  obtain ⟨events, s, h, run, hreturned, -⟩ := @exists_recordedRun Bool _ _ _ _
    textProto textSchema echo () _ true sayHello _ ⟨hshort, hbytes⟩ hresponse ⟨hshort, hbytes⟩
  exact ⟨s, h, hreturned, run_linearizes run⟩

end Sharing

end Mammut
