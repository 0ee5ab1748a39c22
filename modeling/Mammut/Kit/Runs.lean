import Mathlib.Data.List.Basic

/-! Runs of a labelled transition relation, for systems whose parts take steps in any order.  A
property that one step keeps holds in every state of a run (`Run.invariant`), and `Guarded`
restricts a relation to the steps that meet a condition. -/

namespace Kit.Runs

variable {S L : Type*}

/-- A run from `s`: the labels of its steps, in order, and the state that it reaches. -/
inductive Run (step : S → L → S → Prop) (s : S) : List L → S → Prop
  | nil : Run step s [] s
  | snoc {labels : List L} {t u : S} {l : L} :
      Run step s labels t → step t l u → Run step s (labels ++ [l]) u

/-- The steps of `step` that meet the condition `guard` on the state before and the label. -/
def Guarded (guard : S → L → Prop) (step : S → L → S → Prop) (s : S) (l : L) (t : S) : Prop :=
  guard s l ∧ step s l t

variable {step : S → L → S → Prop} {s t u : S} {labels more : List L}

/-- The invariant rule: what holds at the start and is kept by each step holds at the end. -/
theorem Run.invariant (I : S → Prop) (run : Run step s labels t) (start : I s)
    (keep : ∀ a l b, I a → step a l b → I b) : I t := by
  induction run with
  | nil => exact start
  | snoc _ h ih => exact keep _ _ _ ih h

/-- What holds of the label of every step holds of every label of a run. -/
theorem Run.forall_labels {P : L → Prop} (run : Run step s labels t)
    (h : ∀ a l b, step a l b → P l) : ∀ l ∈ labels, P l := by
  induction run with
  | nil => exact fun _ hl => nomatch hl
  | snoc _ hs ih =>
    intro l hl
    rcases List.mem_append.mp hl with hl | hl
    · exact ih l hl
    · exact List.mem_singleton.mp hl ▸ h _ _ _ hs

theorem Run.append (first : Run step s labels t) (second : Run step t more u) :
    Run step s (labels ++ more) u := by
  induction second with
  | nil => simpa using first
  | snoc _ h ih => rw [← List.append_assoc]; exact ih.snoc h

theorem Run.mono {step' : S → L → S → Prop} (run : Run step s labels t)
    (h : ∀ a l b, step a l b → step' a l b) : Run step' s labels t := by
  induction run with
  | nil => exact .nil
  | snoc _ hs ih => exact ih.snoc (h _ _ _ hs)

/-- The steps of `step` beside a record that each of them continues. -/
def Recorded {H : Type*} (step : S → L → S → Prop) (record : S → L → H → H) (p : S × H) (l : L)
    (q : S × H) : Prop := step p.1 l q.1 ∧ q.2 = record p.1 l p.2

/-- Every run has its record. -/
theorem Run.recorded {H : Type*} (run : Run step s labels t) (record : S → L → H → H) (h : H) :
    ∃ h', Run (Recorded step record) (s, h) labels (t, h') := by
  induction run with
  | nil => exact ⟨h, .nil⟩
  | snoc _ hstep ih =>
    obtain ⟨h', run'⟩ := ih
    exact ⟨_, run'.snoc ⟨hstep, rfl⟩⟩

/-- The run of a step function through a list of labels, when every step is enabled. -/
def follow (next : S → L → Option S) : S → List L → Option S
  | s, [] => some s
  | s, l :: ls => (next s l).bind fun t => follow next t ls

theorem follow_run (next : S → L → Option S) (h : follow next s labels = some t) :
    Run (fun a l b => next a l = some b) s labels t := by
  induction labels generalizing s with
  | nil => cases h; exact .nil
  | cons l ls ih =>
    obtain ⟨mid, hmid, rest⟩ := Option.bind_eq_some_iff.mp h
    have one : Run (fun a l b => next a l = some b) s ([] ++ [l]) mid := Run.nil.snoc hmid
    exact one.append (ih rest)

/-- The same with a condition on the steps. -/
theorem follow_guarded (next : S → L → Option S) (guard : S → L → Prop)
    [∀ s l, Decidable (guard s l)]
    (h : follow (fun s l => if guard s l then next s l else none) s labels = some t) :
    Run (Guarded guard fun a l b => next a l = some b) s labels t := by
  refine (follow_run _ h).mono fun a l b hstep => ?_
  by_cases hguard : guard a l
  · rw [if_pos hguard] at hstep
    exact ⟨hguard, hstep⟩
  · rw [if_neg hguard] at hstep
    cases hstep

end Kit.Runs
