import Mathlib.Data.List.Basic

/-! Pre- and postconditions of programs that have a state and throw exceptions (`EStateM`).  An
exception keeps the state in which it was thrown, so a triple has a postcondition for it too. -/

namespace Kit.Programs

variable {ε σ α β ι : Type}

@[simp] theorem run_throw (e : ε) (s : σ) :
    EStateM.run (throw e : EStateM ε σ α) s = .error e s := rfl

@[simp] theorem run_map (f : α → β) (x : EStateM ε σ α) (s : σ) :
    (f <$> x).run s = match x.run s with
      | .ok a t => .ok (f a) t
      | .error e t => .error e t := rfl

/-- A program that returns is made of two that do. -/
theorem ok_of_bind {x : EStateM ε σ α} {f : α → EStateM ε σ β} {s u : σ} {b : β}
    (h : (x >>= f).run s = .ok b u) : ∃ a t, x.run s = .ok a t ∧ (f a).run t = .ok b u := by
  rw [EStateM.run_bind] at h
  cases hx : x.run s with
  | ok a t =>
    rw [hx] at h
    exact ⟨a, t, rfl, h⟩
  | error e t => simp [hx] at h

theorem run_forM_cons {f : ι → EStateM ε σ PUnit} {i : ι} {l : List ι} {s t : σ}
    (h : (f i).run s = .ok ⟨⟩ t) : ((i :: l).forM f).run s = (l.forM f).run t := by
  show (f i >>= fun _ => l.forM f).run s = _
  rw [EStateM.run_bind, h]

theorem run_foldlM_cons {f : β → ι → EStateM ε σ β} {i : ι} {l : List ι} {b c : β} {s t : σ}
    (h : (f b i).run s = .ok c t) : ((i :: l).foldlM f b).run s = (l.foldlM f c).run t := by
  rw [List.foldlM_cons, EStateM.run_bind, h]

/-- A loop over the elements of lists is a loop over the lists. -/
theorem forM_flatMap {γ : Type} (f : γ → EStateM ε σ PUnit) (g : ι → List γ) (l : List ι) :
    (l.flatMap g).forM f = l.forM fun i => (g i).forM f := by
  induction l with
  | nil => rfl
  | cons i l ih =>
    rw [List.flatMap_cons]
    exact List.forM_append.trans (congrArg (fun rest => (g i).forM f >>= fun _ => rest) ih)

/-- A search that only reads the state. -/
theorem run_allM {p : ι → EStateM ε σ Bool} {f : ι → Bool} {l : List ι} {s : σ}
    (h : ∀ i ∈ l, (p i).run s = .ok (f i) s) : (l.allM p).run s = .ok (l.all f) s := by
  induction l with
  | nil => rfl
  | cons i l ih =>
    rw [List.allM, EStateM.run_bind, h i List.mem_cons_self, List.all_cons]
    cases f i with
    | false => rfl
    | true => exact ih fun j hj => h j (List.mem_cons_of_mem i hj)

/-- From a state that satisfies `P`, `prog` returns a value and a state that satisfy `Q`, or
throws an exception in a state that satisfy `X` together. -/
def Triple (P : σ → Prop) (prog : EStateM ε σ α) (Q : α → σ → Prop) (X : ε → σ → Prop) : Prop :=
  ∀ s, P s → match prog.run s with
    | .ok a t => Q a t
    | .error e t => X e t

/-- No exception: the postcondition for the exceptions of a program that throws none. -/
def Never (_ : ε) (_ : σ) : Prop := False

namespace Triple

variable {P P' : σ → Prop} {Q Q' : α → σ → Prop} {X X' : ε → σ → Prop} {prog : EStateM ε σ α}

theorem ok_of (h : Triple P prog Q X) {s t : σ} {a : α} (hs : P s) (hr : prog.run s = .ok a t) :
    Q a t := by
  have := h s hs
  rwa [hr] at this

theorem error_of (h : Triple P prog Q X) {s t : σ} {e : ε} (hs : P s)
    (hr : prog.run s = .error e t) : X e t := by
  have := h s hs
  rwa [hr] at this

/-- A program that never throws returns. -/
theorem returns (h : Triple P prog Q Never) {s : σ} (hs : P s) :
    ∃ a t, prog.run s = .ok a t ∧ Q a t := by
  have hq := h s hs
  cases hr : prog.run s with
  | ok a t => rw [hr] at hq; exact ⟨a, t, rfl, hq⟩
  | error e t => rw [hr] at hq; exact hq.elim

theorem conseq (h : Triple P prog Q X) (pre : ∀ s, P' s → P s) (post : ∀ a s, Q a s → Q' a s)
    (exn : ∀ e s, X e s → X' e s) : Triple P' prog Q' X' := by
  intro s hs
  have hq := h s (pre s hs)
  cases hr : prog.run s with
  | ok a t => rw [hr] at hq; exact post a t hq
  | error e t => rw [hr] at hq; exact exn e t hq

theorem pre (h : Triple P prog Q X) (hpre : ∀ s, P' s → P s) : Triple P' prog Q X :=
  h.conseq hpre (fun _ _ h => h) fun _ _ h => h

theorem post (h : Triple P prog Q X) (hpost : ∀ a s, Q a s → Q' a s) : Triple P prog Q' X :=
  h.conseq (fun _ h => h) hpost fun _ _ h => h

end Triple

variable {P : σ → Prop} {Q : α → σ → Prop} {T : β → σ → Prop} {X : ε → σ → Prop}

theorem triple_pure {a : α} (h : ∀ s, P s → Q a s) :
    Triple P (pure a : EStateM ε σ α) Q X :=
  fun s hs => h s hs

theorem triple_modify {f : σ → σ} {R : PUnit → σ → Prop} (h : ∀ s, P s → R ⟨⟩ (f s)) :
    Triple P (modify f : EStateM ε σ PUnit) R X :=
  fun s hs => h s hs

theorem triple_bind {x : EStateM ε σ α} {f : α → EStateM ε σ β} (hx : Triple P x Q X)
    (hf : ∀ a, Triple (Q a) (f a) T X) : Triple P (x >>= f) T X := by
  intro s hs
  have hq := hx s hs
  rw [EStateM.run_bind]
  cases hr : x.run s with
  | ok a t => rw [hr] at hq; exact hf a t hq
  | error e t => rw [hr] at hq; exact hq

/-- `prog` keeps `I`, however it ends. -/
def Keeps (I : σ → Prop) (prog : EStateM ε σ α) : Prop := Triple I prog (fun _ => I) fun _ => I

theorem keeps_pure {I : σ → Prop} {a : α} : Keeps I (pure a : EStateM ε σ α) := fun _ hs => hs

theorem keeps_throw {I : σ → Prop} {e : ε} : Keeps I (throw e : EStateM ε σ α) := fun _ hs => hs

theorem keeps_true (x : EStateM ε σ α) : Keeps (fun _ => True) x := fun s _ => by
  cases x.run s <;> trivial

theorem keeps_get {I : σ → Prop} : Keeps I (get : EStateM ε σ σ) := fun _ hs => hs

theorem keeps_bind {I : σ → Prop} {x : EStateM ε σ α} {f : α → EStateM ε σ β} (hx : Keeps I x)
    (hf : ∀ a, Keeps I (f a)) : Keeps I (x >>= f) :=
  triple_bind hx hf

theorem keeps_mapM {I : σ → Prop} {l : List ι} {f : ι → EStateM ε σ α} (h : ∀ i, Keeps I (f i)) :
    Keeps I (l.mapM f) := by
  induction l with
  | nil => exact keeps_pure
  | cons i l ih =>
    rw [List.mapM_cons]
    exact keeps_bind (h i) fun _ => keeps_bind ih fun _ => keeps_pure

/-- The loop rule: `I done` holds when the elements `done` of the list have been visited. -/
theorem triple_forM {f : ι → EStateM ε σ PUnit} {l : List ι} (I : List ι → σ → Prop)
    (step : ∀ done i rest, l = done ++ i :: rest →
      Triple (I done) (f i) (fun _ => I (done ++ [i])) X) :
    Triple (I []) (l.forM f) (fun _ => I l) X := by
  suffices h : ∀ rest done, l = done ++ rest →
      Triple (I done) (rest.forM f) (fun _ => I l) X from h l [] rfl
  intro rest
  induction rest with
  | nil =>
    intro done hl
    exact triple_pure fun s hs => by rw [hl, List.append_nil]; exact hs
  | cons i rest ih =>
    intro done hl
    exact triple_bind (step done i rest hl) fun _ => ih (done ++ [i]) (by simp [hl])

/-- The loop rule for an invariant that does not mention the elements visited. -/
theorem triple_forM_invariant {f : ι → EStateM ε σ PUnit} {l : List ι} {I : σ → Prop}
    (step : ∀ i ∈ l, Triple I (f i) (fun _ => I) X) : Triple I (l.forM f) (fun _ => I) X :=
  triple_forM (fun _ => I) fun done i rest hl => step i (by simp [hl])

/-- The loop rule for a body that returns exactly for the elements with `p`. -/
theorem triple_forM_each {f : ι → EStateM ε σ PUnit} {l : List ι} {I : σ → Prop} {p : ι → Prop}
    (step : ∀ i ∈ l, Triple I (f i) (fun _ s => I s ∧ p i) (fun e s => X e s ∧ ¬p i)) :
    Triple I (l.forM f) (fun _ s => I s ∧ ∀ i ∈ l, p i) (fun e s => X e s ∧ ¬∀ i ∈ l, p i) := by
  have loop : Triple (fun s => I s ∧ ∀ i ∈ ([] : List ι), p i) (l.forM f)
      (fun _ s => I s ∧ ∀ i ∈ l, p i) (fun e s => X e s ∧ ¬∀ i ∈ l, p i) := by
    apply triple_forM fun done s => I s ∧ ∀ i ∈ done, p i
    rintro done i rest hl s ⟨hs, hdone⟩
    have hmem : i ∈ l := by simp [hl]
    apply (step i hmem).conseq (fun _ h => h) ?_ ?_ s hs
    · rintro _ t ⟨ht, hi⟩
      refine ⟨ht, fun j hj => ?_⟩
      rcases List.mem_append.mp hj with hj | hj
      · exact hdone j hj
      · rwa [List.mem_singleton.mp hj]
    · rintro e t ⟨ht, hi⟩
      exact ⟨ht, fun hall => hi (hall i hmem)⟩
  exact loop.pre fun s hs => ⟨hs, by simp⟩

/-- The loop rule for a loop with a result: `I done b` holds when the elements `done` of the list
have been visited and the result is `b`. -/
theorem triple_foldlM {f : β → ι → EStateM ε σ β} {l : List ι} {b : β} (I : List ι → β → σ → Prop)
    (step : ∀ done i rest b, l = done ++ i :: rest →
      Triple (I done b) (f b i) (I (done ++ [i])) X) :
    Triple (I [] b) (l.foldlM f b) (I l) X := by
  suffices h : ∀ rest done b, l = done ++ rest →
      Triple (I done b) (rest.foldlM f b) (I l) X from h l [] b rfl
  intro rest
  induction rest with
  | nil =>
    intro done b hl
    exact triple_pure fun s hs => by rw [hl, List.append_nil]; exact hs
  | cons i rest ih =>
    intro done b hl
    rw [List.foldlM_cons]
    exact triple_bind (step done i rest b hl) fun b => ih (done ++ [i]) b (by simp [hl])

theorem triple_foldlM_invariant {f : β → ι → EStateM ε σ β} {l : List ι} {b : β} {I : σ → Prop}
    (step : ∀ b, ∀ i ∈ l, Triple I (f b i) (fun _ => I) X) :
    Triple I (l.foldlM f b) (fun _ => I) X :=
  triple_foldlM (fun _ _ => I) fun done i rest b hl => step b i (by simp [hl])

end Kit.Programs
