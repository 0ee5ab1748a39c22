import Mammut.Kit.Lockstep
import Mammut.Kit.Programs
import Mammut.Kit.Slots

/-! Calls of the source as programs: a call has a state, and it returns, throws, or runs into
behaviour that the language leaves undefined. -/

namespace Mammut

open Kit

/-- How a call ends when it does not return. -/
inductive Exn
  | runtimeError (what : String)
  /-- `std::out_of_range`, from an access that `at` checks. -/
  | outOfRange
  /-- Undefined behaviour: an access outside an array, to a slot that was never written, or
  through a null pointer. -/
  | undefined
  deriving DecidableEq, Repr

/-- A call on an object of state `σ`. -/
abbrev Call (σ α : Type) := EStateM Exn σ α

variable {σ τ α : Type}

/-- The state that a call leaves, however it ends. -/
def after (call : Call σ α) (s : σ) : σ := Lockstep.final (call.run s)

/-- A call on the first part of a state. -/
def onFst (call : Call σ α) : Call (σ × τ) α := fun s =>
  match call s.1 with
  | .ok a t => .ok a (t, s.2)
  | .error e t => .error e (t, s.2)

/-- A call on the second part of a state. -/
def onSnd (call : Call τ α) : Call (σ × τ) α := fun s =>
  match call s.2 with
  | .ok a t => .ok a (s.1, t)
  | .error e t => .error e (s.1, t)

/-- A call on the part of a state that `get` shows and `put` changes. -/
def focus (get : τ → σ) (put : σ → τ → τ) (call : Call σ α) : Call τ α := fun t =>
  match call (get t) with
  | .ok a s => .ok a (put s t)
  | .error e s => .error e (put s t)

theorem after_of_keeps {I : σ → Prop} {call : Call σ α} {s : σ} (h : Programs.Keeps I call)
    (hs : I s) : I (after call s) := by
  have hkept := h s hs
  unfold after
  cases hr : call.run s with
  | ok a t => rw [hr] at hkept; exact hkept
  | error e t => rw [hr] at hkept; exact hkept

/-- What is computed from the result of a call does not change its state. -/
theorem after_map {β : Type} (call : Call σ α) (f : α → β) (s : σ) :
    after (do return f (← call)) s = after call s := by
  unfold after
  rw [EStateM.run_bind]
  cases call.run s <;> rfl

theorem after_onFst (call : Call σ α) (s : σ × τ) :
    after (onFst call) s = (after call s.1, s.2) := by
  unfold after
  show Lockstep.final (onFst call s) = _
  unfold onFst
  show Lockstep.final (match call.run s.1 with | .ok a t => _ | .error e t => _) = _
  cases call.run s.1 <;> rfl

theorem run_onFst (call : Call σ α) (s : σ × τ) :
    (onFst call).run s = match call.run s.1 with
      | .ok a t => .ok a (t, s.2)
      | .error e t => .error e (t, s.2) := rfl

theorem onFst_pure (a : α) : (onFst (pure a : Call σ α) : Call (σ × τ) α) = pure a := rfl

theorem onFst_bind {β : Type} (call : Call σ α) (f : α → Call σ β) :
    (onFst (call >>= f) : Call (σ × τ) β) = onFst call >>= fun a => onFst (f a) := by
  funext s
  show (onFst (call >>= f)).run s = (onFst call >>= fun a => onFst (f a)).run s
  rw [run_onFst, EStateM.run_bind, EStateM.run_bind, run_onFst]
  cases call.run s.1 <;> rfl

/-- A loop on the first part of a state. -/
theorem onFst_foldlM {ι : Type} (f : α → ι → Call σ α) (l : List ι) (a : α) :
    (onFst (l.foldlM f a) : Call (σ × τ) α) = l.foldlM (fun a i => onFst (f a i)) a := by
  induction l generalizing a with
  | nil => rfl
  | cons i l ih =>
    rw [List.foldlM_cons, List.foldlM_cons, onFst_bind]
    exact congrArg (onFst (f a i) >>= ·) (funext fun a => ih a)

theorem run_onSnd (call : Call τ α) (s : σ × τ) :
    (onSnd call).run s = match call.run s.2 with
      | .ok a t => .ok a (s.1, t)
      | .error e t => .error e (s.1, t) := rfl

/-- What is computed from the result of a call on the second part of a state. -/
theorem onSnd_map {β : Type} (call : Call τ α) (f : α → β) :
    (onSnd (do return f (← call)) : Call (σ × τ) β) = do return f (← onSnd call) := by
  funext s
  show (onSnd (do return f (← call))).run s = (do return f (← onSnd call) : Call (σ × τ) β).run s
  rw [run_onSnd, EStateM.run_bind, EStateM.run_bind, run_onSnd]
  cases call.run s.2 <;> rfl

/-- What follows a call on the second part of a state follows the call on the whole. -/
theorem follows_onSnd {β υ : Type} {f : σ × τ → υ} {s : σ × τ} {x : Call υ β} {call : Call τ β}
    (h : Lockstep.Follows (fun u => f (s.1, u)) s.2 x call) :
    Lockstep.Follows f s x (onSnd call) := by
  unfold Lockstep.Follows at h ⊢
  rw [h, run_onSnd]
  cases call.run s.2 <;> rfl

theorem ok_of_onFst {call : Call σ α} {s t : σ × τ} {a : α} (h : (onFst call).run s = .ok a t) :
    call.run s.1 = .ok a t.1 ∧ t.2 = s.2 := by
  rw [run_onFst] at h
  cases hr : call.run s.1 with
  | ok b u =>
    rw [hr] at h
    cases h
    exact ⟨rfl, rfl⟩
  | error e u => simp [hr] at h

theorem keeps_onFst {I : σ → Prop} {call : Call σ α} (h : Programs.Keeps I call) :
    Programs.Keeps (fun s : σ × τ => I s.1) (onFst call) := by
  intro s hs
  have hkept := h s.1 hs
  rw [run_onFst]
  cases hr : call.run s.1 with
  | ok a t => rw [hr] at hkept; exact hkept
  | error e t => rw [hr] at hkept; exact hkept

/-- A call on the second part of a state keeps the first. -/
theorem keeps_onSnd {I : σ → Prop} (call : Call τ α) :
    Programs.Keeps (fun s : σ × τ => I s.1) (onSnd call) := by
  intro s hs
  rw [run_onSnd]
  cases call.run s.2 with
  | ok a t => exact hs
  | error e t => exact hs

theorem run_focus (get : τ → σ) (put : σ → τ → τ) (call : Call σ α) (t : τ) :
    (focus get put call).run t = match call.run (get t) with
      | .ok a s => .ok a (put s t)
      | .error e s => .error e (put s t) := rfl

theorem keeps_focus {I : σ → Prop} {J : τ → Prop} {get : τ → σ} {put : σ → τ → τ}
    {call : Call σ α} (h : Programs.Keeps I call) (shows : ∀ t, J t → I (get t))
    (puts : ∀ s t, J t → I s → J (put s t)) : Programs.Keeps J (focus get put call) := by
  intro t ht
  have hkept := h (get t) (shows t ht)
  rw [run_focus]
  cases hr : call.run (get t) with
  | ok a s => rw [hr] at hkept; exact puts s t ht hkept
  | error e s => rw [hr] at hkept; exact puts s t ht hkept

/-- The exceptions that handlers of `std::runtime_error` catch. -/
def RuntimeError (e : Exn) (_ : σ) : Prop := ∃ what, e = .runtimeError what

/-- From a state that satisfies `P`, the call returns or throws a `std::runtime_error`. -/
def Orderly (P : σ → Prop) (call : Call σ α) : Prop :=
  Programs.Triple P call (fun _ _ => True) RuntimeError

theorem orderly_pure {P : σ → Prop} {a : α} : Orderly P (pure a : Call σ α) := fun _ _ => trivial

theorem orderly_throw {P : σ → Prop} {what : String} :
    Orderly P (throw (.runtimeError what) : Call σ α) := fun _ _ => ⟨what, rfl⟩

theorem orderly_bind {β : Type} {P : σ → Prop} {x : Call σ α} {f : α → Call σ β}
    (hx : Orderly P x) (hf : ∀ a, Orderly (fun _ => True) (f a)) : Orderly P (x >>= f) :=
  Programs.triple_bind hx hf

theorem orderly_get {P : σ → Prop} : Orderly P (get : Call σ σ) := fun _ _ => trivial

theorem orderly_modifyGet {P : σ → Prop} {f : σ → α × σ} :
    Orderly P (modifyGet f : Call σ α) := fun _ _ => trivial

theorem orderly_mono {P P' : σ → Prop} {call : Call σ α} (h : Orderly P call)
    (hP : ∀ s, P' s → P s) : Orderly P' call := fun s hs => h s (hP s hs)

theorem orderly_forM {ι : Type} {l : List ι} {f : ι → Call σ Unit}
    (h : ∀ i ∈ l, Orderly (fun _ => True) (f i)) : Orderly (fun _ => True) (l.forM f) :=
  (Programs.triple_forM_invariant h).post fun _ _ _ => trivial

/-- How an orderly call ends. -/
theorem Orderly.ends {P : σ → Prop} {call : Call σ α} (h : Orderly P call) {s : σ} (hs : P s) :
    (∃ a t, call.run s = .ok a t) ∨ ∃ what t, call.run s = .error (.runtimeError what) t := by
  have hends := h s hs
  cases hr : call.run s with
  | ok a t => exact .inl ⟨a, t, rfl⟩
  | error e t =>
    rw [hr] at hends
    obtain ⟨what, rfl⟩ := hends
    exact .inr ⟨what, t, rfl⟩

section At

variable {β : Type} {s : σ}

theorem orderly_at_iff {call : Call σ α} :
    Orderly (· = s) call ↔ ∀ e t, call.run s = .error e t → ∃ what, e = .runtimeError what := by
  constructor
  · intro h e t hrun
    have hends := h s rfl
    rw [hrun] at hends
    exact hends
  · rintro h _ rfl
    cases hrun : call.run _ with
    | ok a t => trivial
    | error e t => exact h e t hrun

theorem orderly_at_of_ok {call : Call σ α} {a : α} {t : σ} (hrun : call.run s = .ok a t) :
    Orderly (· = s) call := by simp [orderly_at_iff, hrun]

theorem orderly_at_of_error {call : Call σ α} {what : String} {t : σ}
    (hrun : call.run s = .error (.runtimeError what) t) : Orderly (· = s) call := by
  simp [orderly_at_iff, hrun]

theorem not_orderly_at_of_error {call : Call σ α} {e : Exn} {t : σ}
    (hrun : call.run s = .error e t) (he : ∀ what, e ≠ .runtimeError what) :
    ¬Orderly (· = s) call := by
  rw [orderly_at_iff]
  intro h
  obtain ⟨what, hwhat⟩ := h e t hrun
  exact he what hwhat

theorem not_orderly_at_throw {e : Exn} (he : ∀ what, e ≠ .runtimeError what) :
    ¬Orderly (· = s) (throw e : Call σ α) := not_orderly_at_of_error (t := s) rfl he

theorem not_orderly_at_bind {x : Call σ α} {f : α → Call σ β} (hx : ¬Orderly (· = s) x) :
    ¬Orderly (· = s) (x >>= f) := by
  rw [orderly_at_iff] at hx ⊢
  rw [EStateM.run_bind]
  cases hr : x.run s with
  | ok a t => simp [hr] at hx
  | error e t => simpa [hr] using hx

theorem orderly_at_bind_left {x : Call σ α} {f : α → Call σ β}
    (hf : ∀ a, Orderly (fun _ => True) (f a)) : Orderly (· = s) (x >>= f) ↔ Orderly (· = s) x := by
  constructor
  · intro h
    by_contra hx
    exact not_orderly_at_bind hx h
  · intro h
    exact orderly_bind h hf

theorem orderly_at_map {x : Call σ α} {f : α → β} :
    Orderly (· = s) (do return f (← x)) ↔ Orderly (· = s) x :=
  orderly_at_bind_left fun _ => orderly_pure

theorem orderly_at_bind {x : Call σ α} {f : α → Call σ β} {a : α} {t : σ}
    (hx : x.run s = .ok a t) : Orderly (· = s) (x >>= f) ↔ Orderly (· = t) (f a) := by
  rw [orderly_at_iff, orderly_at_iff, EStateM.run_bind, hx]

theorem orderly_at_onFst {s : σ × τ} {x : Call σ α} :
    Orderly (· = s) (onFst x) ↔ Orderly (· = s.1) x := by
  rw [orderly_at_iff, orderly_at_iff, run_onFst]
  cases x.run s.1 <;> simp

theorem orderly_at_focus {get : τ → σ} {put : σ → τ → τ} {t : τ} {x : Call σ α} :
    Orderly (· = t) (focus get put x) ↔ Orderly (· = get t) x := by
  rw [orderly_at_iff, orderly_at_iff, run_focus]
  cases x.run (get t) <;> simp

theorem orderly_at_onSnd {s : σ × τ} {x : Call τ α} :
    Orderly (· = s) (onSnd x) ↔ Orderly (· = s.2) x := by
  rw [orderly_at_iff, orderly_at_iff, run_onSnd]
  cases x.run s.2 <;> simp

end At

/-- The value in slot `i` of an array. -/
def readSlot (slots : Slots α) (i : ℕ) : Call σ α :=
  match slots.get? i with
  | some a => pure a
  | none => throw .undefined

/-- Slot `i` of an array, to be written. -/
def writableSlot (slots : Slots α) (i : ℕ) : Call σ Unit :=
  if i < slots.size then pure () else throw .undefined

variable {slots : Slots α} {i : ℕ} {a : α} {s : σ}

@[simp] theorem readSlot_of_some (h : slots.get? i = some a) :
    (readSlot slots i : Call σ α) = pure a := by simp [readSlot, h]

@[simp] theorem readSlot_of_none (h : slots.get? i = none) :
    (readSlot slots i : Call σ α) = throw .undefined := by simp [readSlot, h]

@[simp] theorem writableSlot_of_lt (h : i < slots.size) :
    (writableSlot slots i : Call σ Unit) = pure () := if_pos h

end Mammut
