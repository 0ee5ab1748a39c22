import Mathlib.Data.List.Basic

/-! Programs that talk over a pair of streams: a dialogue sends elements, or receives as many as
it asks for, until it ends.  `Step` takes one in parts of any size.  What it sends before it next
receives, what it receives and what it makes of that do not depend on the parts. -/

namespace Kit

inductive Dialogue (β ε α : Type)
  | done (a : α)
  | throw (e : ε)
  | send (elements : List β) (next : Dialogue β ε α)
  /-- The elements received, or `none` when the stream is over before them. -/
  | receive (n : ℕ) (next : Option (List β) → Dialogue β ε α)

namespace Dialogue

variable {β ε α γ σ : Type}

def bind : Dialogue β ε α → (α → Dialogue β ε γ) → Dialogue β ε γ
  | done a, f => f a
  | throw e, _ => throw e
  | send elements next, f => send elements (next.bind f)
  | receive n next, f => receive n fun received => (next received).bind f

instance : Monad (Dialogue β ε) where
  pure := done
  bind := bind

theorem bind_done (d : Dialogue β ε α) : d.bind done = d := by
  induction d with
  | done a => rfl
  | throw e => rfl
  | send elements next ih => rw [bind, ih]
  | receive n next ih => simp only [bind, ih]

theorem bind_bind {δ : Type} (d : Dialogue β ε α) (f : α → Dialogue β ε γ)
    (g : γ → Dialogue β ε δ) : (d.bind f).bind g = d.bind fun a => (f a).bind g := by
  induction d with
  | done a => rfl
  | throw e => rfl
  | send elements next ih => simp only [bind, ih]
  | receive n next ih => simp only [bind, ih]

instance : LawfulMonad (Dialogue β ε) :=
  LawfulMonad.mk' _ bind_done (fun _ _ => rfl) bind_bind

def sends (elements : List β) : Dialogue β ε Unit := send elements (done ())

def receives (n : ℕ) : Dialogue β ε (Option (List β)) := receive n done

/-- The dialogue as a program on a state, given the programs that send and that receive. -/
def perform (sender : List β → EStateM ε σ Unit) (receiver : ℕ → EStateM ε σ (Option (List β))) :
    Dialogue β ε α → EStateM ε σ α
  | done a => pure a
  | throw e => MonadExcept.throw e
  | send elements next => do
    sender elements
    next.perform sender receiver
  | receive n next => do
    let received ← receiver n
    (next received).perform sender receiver

section Perform

variable {sender : List β → EStateM ε σ Unit} {receiver : ℕ → EStateM ε σ (Option (List β))}

theorem perform_sends (elements : List β) :
    (sends elements).perform sender receiver = sender elements :=
  bind_pure (sender elements)

theorem perform_receives (n : ℕ) :
    (receives n).perform sender receiver = receiver n :=
  bind_pure (receiver n)

theorem perform_bind (d : Dialogue β ε α) (f : α → Dialogue β ε γ) :
    (d >>= f).perform sender receiver =
      d.perform sender receiver >>= fun a => (f a).perform sender receiver := by
  induction d with
  | done a => exact (pure_bind a fun a => (f a).perform sender receiver).symm
  | throw e => rfl
  | send elements next ih =>
    rw [perform, bind_assoc, ← ih]
    rfl
  | receive n next ih =>
    rw [perform, bind_assoc]
    simp only [← ih]
    rfl

/-- A dialogue that receives first, one case for what it receives. -/
theorem perform_receives_bind {n : ℕ} {f : Option (List β) → Dialogue β ε α}
    {program : Option (List β) → EStateM ε σ α}
    (h : ∀ received, (f received).perform sender receiver = program received) :
    (receives n >>= f).perform sender receiver = receiver n >>= program := by
  rw [perform_bind, perform_receives]
  congr 1
  funext received
  exact h received

end Perform

/-- What the dialogue returns, and what it leaves, when it receives from a stream that holds these
elements and sends nothing. -/
def run : Dialogue β ε α → List β → Option (α × List β)
  | done a, pending => some (a, pending)
  | throw _, _ => none
  | send _ _, _ => none
  | receive n next, pending =>
    if n ≤ pending.length then (next (some (pending.take n))).run (pending.drop n) else none

theorem run_pure (a : α) (pending : List β) :
    (pure a : Dialogue β ε α).run pending = some (a, pending) := rfl

theorem run_bind (d : Dialogue β ε α) (f : α → Dialogue β ε γ) (pending : List β) :
    (d >>= f).run pending = (d.run pending).bind fun r => (f r.1).run r.2 := by
  induction d generalizing pending with
  | done a => rfl
  | throw e => rfl
  | send elements next ih => rfl
  | receive n next ih =>
    have hrun := ih (some (pending.take n)) (pending.drop n)
    show (if n ≤ pending.length then _ else none) = (if n ≤ pending.length then _ else none).bind _
    by_cases h : n ≤ pending.length
    · rw [if_pos h, if_pos h]
      exact hrun
    · rw [if_neg h, if_neg h]
      rfl

/-- The elements asked for are the first that come. -/
theorem run_receives (elements left : List β) :
    (receives elements.length : Dialogue β ε _).run (elements ++ left) =
      some (some elements, left) := by
  simp [receives, run]

/-- How the dialogue ends, and what it leaves, when it receives from a stream that holds these
elements and is then over. -/
def runClosed : Dialogue β ε α → List β → Except ε α × List β
  | done a, pending => (.ok a, pending)
  | throw e, pending => (.error e, pending)
  | send _ next, pending => next.runClosed pending
  | receive n next, pending =>
    if n ≤ pending.length then (next (some (pending.take n))).runClosed (pending.drop n)
    else (next none).runClosed []

@[simp] theorem runClosed_pure (a : α) (pending : List β) :
    (pure a : Dialogue β ε α).runClosed pending = (.ok a, pending) := rfl

@[simp] theorem runClosed_throw (e : ε) (pending : List β) :
    (throw e : Dialogue β ε α).runClosed pending = (.error e, pending) := rfl

theorem runClosed_receives {n : ℕ} {pending : List β} (h : n ≤ pending.length) :
    (receives n : Dialogue β ε _).runClosed pending =
      (.ok (some (pending.take n)), pending.drop n) :=
  if_pos h

theorem runClosed_receives_short {n : ℕ} {pending : List β} (h : pending.length < n) :
    (receives n : Dialogue β ε _).runClosed pending = (.ok none, []) :=
  if_neg (Nat.not_le_of_lt h)

theorem runClosed_bind (d : Dialogue β ε α) (f : α → Dialogue β ε γ) (pending : List β) :
    (d >>= f).runClosed pending = match d.runClosed pending with
      | (.ok a, left) => (f a).runClosed left
      | (.error e, left) => (.error e, left) := by
  induction d generalizing pending with
  | done a => rfl
  | throw e => rfl
  | send elements next ih => exact ih pending
  | receive n next ih =>
    show (if n ≤ pending.length then _ else _) = _
    rw [runClosed]
    by_cases h : n ≤ pending.length
    · rw [if_pos h, if_pos h]
      exact ih _ _
    · rw [if_neg h, if_neg h]
      exact ih _ _

theorem runClosed_bind_ok {d : Dialogue β ε α} {a : α} {pending left : List β}
    (h : d.runClosed pending = (.ok a, left)) (f : α → Dialogue β ε γ) :
    (d >>= f).runClosed pending = (f a).runClosed left := by
  rw [runClosed_bind, h]

theorem runClosed_bind_error {d : Dialogue β ε α} {e : ε} {pending left : List β}
    (h : d.runClosed pending = (.error e, left)) (f : α → Dialogue β ε γ) :
    (d >>= f).runClosed pending = (.error e, left) := by
  rw [runClosed_bind, h]

/-- The end of the stream does not matter to a dialogue that receives all that it asks for. -/
theorem runClosed_of_run {d : Dialogue β ε α} {a : α} {pending left : List β}
    (h : d.run pending = some (a, left)) : d.runClosed pending = (.ok a, left) := by
  induction d generalizing pending with
  | done b =>
    cases h
    rfl
  | throw e => cases h
  | send elements next ih => cases h
  | receive n next ih =>
    by_cases hn : n ≤ pending.length
    · rw [run, if_pos hn] at h
      rw [runClosed, if_pos hn]
      exact ih _ h
    · rw [run, if_neg hn] at h
      cases h

/-- What is sent before anything is received. -/
def sent : Dialogue β ε α → List β
  | send elements next => elements ++ next.sent
  | _ => []

/-- The dialogue after it has sent that. -/
def afterSent : Dialogue β ε α → Dialogue β ε α
  | send _ next => next.afterSent
  | d => d

@[simp] theorem sent_done (a : α) : (done a : Dialogue β ε α).sent = [] := rfl

@[simp] theorem afterSent_done (a : α) : (done a : Dialogue β ε α).afterSent = done a := rfl

@[simp] theorem sent_sends (elements : List β) :
    (sends elements : Dialogue β ε Unit).sent = elements := List.append_nil elements

@[simp] theorem afterSent_sends (elements : List β) :
    (sends elements : Dialogue β ε Unit).afterSent = done () := rfl

@[simp] theorem sent_sends_bind (elements : List β) (f : Unit → Dialogue β ε α) :
    (sends elements >>= f).sent = elements ++ (f ()).sent := rfl

@[simp] theorem afterSent_sends_bind (elements : List β) (f : Unit → Dialogue β ε α) :
    (sends elements >>= f).afterSent = (f ()).afterSent := rfl

theorem sent_bind {d : Dialogue β ε α} {a : α} (h : d.afterSent = done a)
    (f : α → Dialogue β ε γ) : (d >>= f).sent = d.sent ++ (f a).sent := by
  induction d with
  | done b => cases h; rfl
  | throw e => cases h
  | send elements next ih =>
    show elements ++ (next >>= f).sent = elements ++ next.sent ++ (f a).sent
    rw [ih h, List.append_assoc]
  | receive n next ih => cases h

theorem afterSent_bind {d : Dialogue β ε α} {a : α} (h : d.afterSent = done a)
    (f : α → Dialogue β ε γ) : (d >>= f).afterSent = (f a).afterSent := by
  induction d with
  | done b => cases h; rfl
  | throw e => cases h
  | send elements next ih => exact ih h
  | receive n next ih => cases h

/-- A dialogue that can go on by receiving has nothing to send first. -/
theorem sent_of_run {d : Dialogue β ε α} {pending : List β} {r : α × List β}
    (h : d.run pending = some r) : d.sent = [] ∧ d.afterSent = d := by
  cases d with
  | send elements next => cases h
  | _ => exact ⟨rfl, rfl⟩

/-- A step of a dialogue whose incoming stream brings nothing more when it is `closed`. -/
inductive Step (closed : Prop) :
    Dialogue β ε α → List β → List β → Dialogue β ε α → List β → List β → Prop
  | write {part rest incoming outgoing : List β} {next : Dialogue β ε α} :
      Step closed (send (part ++ rest) next) incoming outgoing
        (send rest next) incoming (outgoing ++ part)
  | written {incoming outgoing : List β} {next : Dialogue β ε α} :
      Step closed (send [] next) incoming outgoing next incoming outgoing
  | read {part left outgoing : List β} {n : ℕ} {next : Option (List β) → Dialogue β ε α}
      (hpart : part ≠ []) (hn : part.length ≤ n) :
      Step closed (receive n next) (part ++ left) outgoing
        (receive (n - part.length) fun received => next (received.map (part ++ ·))) left outgoing
  | complete {incoming outgoing : List β} {next : Option (List β) → Dialogue β ε α} :
      Step closed (receive 0 next) incoming outgoing (next (some [])) incoming outgoing
  | eof {outgoing : List β} {n : ℕ} {next : Option (List β) → Dialogue β ε α}
      (hclosed : closed) (hn : n ≠ 0) :
      Step closed (receive n next) [] outgoing (next none) [] outgoing

/-- An end that keeps its side open does what any end may do. -/
theorem Step.of_open {closed : Prop} {d d' : Dialogue β ε α} {i o i' o' : List β}
    (h : Step False d i o d' i' o') : Step closed d i o d' i' o' := by
  cases h with
  | write => exact .write
  | written => exact .written
  | read hpart hn => exact .read hpart hn
  | complete => exact .complete
  | eof h _ => exact h.elim

variable {closed : Prop} {d d' : Dialogue β ε α} {incoming outgoing incoming' outgoing' : List β}

/-- A read of a part of what is asked for changes nothing in the end. -/
theorem run_read {part left : List β} {n : ℕ} {next : Option (List β) → Dialogue β ε α}
    (hn : part.length ≤ n) :
    (receive n next).run (part ++ left) =
      (receive (n - part.length) fun received => next (received.map (part ++ ·))).run left := by
  have htake : (part ++ left).take n = part ++ left.take (n - part.length) := by
    rw [List.take_append, List.take_of_length_le hn]
  have hdrop : (part ++ left).drop n = left.drop (n - part.length) := by
    rw [List.drop_append, List.drop_eq_nil_of_le hn, List.nil_append]
  have hle : n ≤ (part ++ left).length ↔ n - part.length ≤ left.length := by
    rw [List.length_append]
    omega
  simp only [run, htake, hdrop, hle, Option.map_some]

theorem not_step_receive {n : ℕ} {next : Option (List β) → Dialogue β ε α} (hopen : ¬closed)
    (hn : n ≠ 0) : ¬Step closed (receive n next) [] outgoing d' incoming' outgoing' := by
  intro h
  generalize hincoming : ([] : List β) = incoming at h
  generalize hd : receive n next = d at h
  cases h with
  | write => cases hd
  | written => cases hd
  | read hpart _ => exact hpart (List.append_eq_nil_iff.mp hincoming.symm).1
  | complete => exact hn (by injection hd)
  | eof h _ => exact hopen h

theorem not_step_done {a : α} :
    ¬Step closed (done a) incoming outgoing d' incoming' outgoing' := nofun

/-- While what comes after the elements to be sent can take no step, only these are sent. -/
theorem Step.sends (h : Step closed d incoming outgoing d' incoming' outgoing')
    (hstuck : ∀ out next incoming' out',
      ¬Step closed d.afterSent incoming out next incoming' out') :
    incoming' = incoming ∧ outgoing' ++ d'.sent = outgoing ++ d.sent ∧
      d'.afterSent = d.afterSent := by
  cases h with
  | write => exact ⟨rfl, by simp [sent], rfl⟩
  | written => exact ⟨rfl, rfl, rfl⟩
  | read hpart hn => exact absurd (.read hpart hn) (hstuck outgoing _ _ _)
  | complete => exact absurd .complete (hstuck outgoing _ _ _)
  | eof h hn => exact absurd (.eof h hn) (hstuck outgoing _ _ _)

/-- While there is nothing to be sent, elements are only received, and it does not matter to the
rest how many at a time; `more` is what has yet to come. -/
theorem Step.receives (h : Step closed d incoming outgoing d' incoming' outgoing') (hopen : ¬closed)
    (hsent : d.sent = []) {more : List β} {r : α × List β}
    (hrun : d.afterSent.run (incoming ++ more) = some r) :
    outgoing' = outgoing ∧ d'.sent = [] ∧ incoming' <:+ incoming ∧
      d'.afterSent.run (incoming' ++ more) = some r := by
  cases h with
  | @write part rest _ _ next =>
    obtain ⟨rfl, hrest⟩ : part = [] ∧ rest ++ next.sent = [] := by
      simpa [sent, and_assoc] using hsent
    exact ⟨by simp, hrest, List.suffix_refl _, hrun⟩
  | written => exact ⟨rfl, hsent, List.suffix_refl _, hrun⟩
  | @read part left _ n next hpart hn =>
    refine ⟨rfl, rfl, List.suffix_append _ _, ?_⟩
    rw [List.append_assoc] at hrun
    exact (run_read hn).symm.trans hrun
  | @complete _ _ next =>
    have hnext : (next (some [])).run (incoming ++ more) = some r := by
      simpa [afterSent, run] using hrun
    obtain ⟨hnone, hself⟩ := sent_of_run hnext
    exact ⟨rfl, hnone, List.suffix_refl _, by rw [hself]; exact hnext⟩
  | eof h hn => exact absurd h hopen

/-- Any number of steps. -/
inductive Steps (closed : Prop) :
    Dialogue β ε α → List β → List β → Dialogue β ε α → List β → List β → Prop
  | refl {d : Dialogue β ε α} {incoming outgoing : List β} :
      Steps closed d incoming outgoing d incoming outgoing
  | head {d mid d' : Dialogue β ε α} {incoming outgoing i o incoming' outgoing' : List β}
      (first : Step closed d incoming outgoing mid i o)
      (rest : Steps closed mid i o d' incoming' outgoing') :
      Steps closed d incoming outgoing d' incoming' outgoing'

/-- A dialogue can send all that it has to. -/
theorem steps_afterSent (d : Dialogue β ε α) :
    Steps closed d incoming outgoing d.afterSent incoming (outgoing ++ d.sent) := by
  induction d generalizing outgoing with
  | send elements next ih =>
    have hwrite : Step closed (send elements next) incoming outgoing
        (send [] next) incoming (outgoing ++ elements) := by
      have hwrite : Step closed (send (elements ++ []) next) incoming outgoing
        (send [] next) incoming (outgoing ++ elements) := .write
      rwa [List.append_nil] at hwrite
    rw [sent, ← List.append_assoc]
    exact .head hwrite (.head .written ih)
  | done a => exact (List.append_nil outgoing).symm ▸ .refl
  | throw e => exact (List.append_nil outgoing).symm ▸ .refl
  | receive n next ih => exact (List.append_nil outgoing).symm ▸ .refl

/-- A dialogue can receive all that its run says. -/
theorem steps_run {d : Dialogue β ε α} {a : α} {left : List β}
    (h : d.run incoming = some (a, left)) :
    Steps closed d incoming outgoing (done a) left outgoing := by
  induction d generalizing incoming with
  | done b =>
    cases h
    exact .refl
  | throw e => cases h
  | send elements next ih => cases h
  | receive n next ih =>
    by_cases hn : n ≤ incoming.length
    · rw [run, if_pos hn] at h
      have hrest := ih _ h
      by_cases hzero : n = 0
      · subst hzero
        exact .head .complete hrest
      · have hpart : incoming.take n ≠ [] := by
          rw [Ne, ← List.length_eq_zero_iff, List.length_take_of_le hn]
          exact hzero
        have hread : Step closed (receive n next) (incoming.take n ++ incoming.drop n) outgoing _ _ _ :=
          .read hpart (List.length_take_le _ _)
        rw [List.take_append_drop, List.length_take_of_le hn, Nat.sub_self] at hread
        refine .head hread (.head .complete ?_)
        simpa using hrest
    · rw [run, if_neg hn] at h
      cases h

end Dialogue

end Kit
