import Mathlib.Data.List.Basic

/-! Two machines that make the same calls, one of which stands for the other.  When every call
returns or throws the same on both from related states, and leaves related states, then so do the
calls of a whole trace. -/

namespace Kit.Lockstep

variable {ε S T L α β : Type}

/-- What the caller sees of a call. -/
def outcome : EStateM.Result ε S α → Except ε α
  | .ok a _ => .ok a
  | .error e _ => .error e

/-- The state that a call leaves. -/
def final : EStateM.Result ε S α → S
  | .ok _ s => s
  | .error _ s => s

@[simp] theorem outcome_ok (a : α) (s : S) :
    outcome (.ok a s : EStateM.Result ε S α) = .ok a := rfl

@[simp] theorem outcome_error (e : ε) (s : S) :
    outcome (.error e s : EStateM.Result ε S α) = .error e := rfl

@[simp] theorem final_ok (a : α) (s : S) : final (.ok a s : EStateM.Result ε S α) = s := rfl

@[simp] theorem final_error (e : ε) (s : S) :
    final (.error e s : EStateM.Result ε S α) = s := rfl

/-- The result in the states of another machine. -/
def mapState (f : S → T) : EStateM.Result ε S α → EStateM.Result ε T α
  | .ok a s => .ok a (f s)
  | .error e s => .error e (f s)

@[simp] theorem mapState_ok (f : S → T) (a : α) (s : S) :
    mapState f (.ok a s : EStateM.Result ε S α) = .ok a (f s) := rfl

@[simp] theorem mapState_error (f : S → T) (e : ε) (s : S) :
    mapState f (.error e s : EStateM.Result ε S α) = .error e (f s) := rfl

@[simp] theorem outcome_mapState (f : S → T) (r : EStateM.Result ε S α) :
    outcome (mapState f r) = outcome r := by cases r <;> rfl

@[simp] theorem final_mapState (f : S → T) (r : EStateM.Result ε S α) :
    final (mapState f r) = f (final r) := by cases r <;> rfl

/-- From the state that stands for `s`, `x` does what `y` does from `s`. -/
def Follows (f : S → T) (s : S) (x : EStateM ε T α) (y : EStateM ε S α) : Prop :=
  x.run (f s) = mapState f (y.run s)

theorem follows_pure {f : S → T} {s : S} {a : α} :
    Follows f s (pure a : EStateM ε T α) (pure a) := rfl

theorem Follows.congr {f : S → T} {s : S} {x : EStateM ε T α} {y y' : EStateM ε S α}
    (h : Follows f s x y) (hy : y'.run s = y.run s) : Follows f s x y' := by
  rw [Follows, hy]
  exact h

theorem Follows.bind {f : S → T} {s : S} {x : EStateM ε T α} {y : EStateM ε S α}
    {g : α → EStateM ε T β} {h : α → EStateM ε S β} (hx : Follows f s x y)
    (hg : ∀ a t, y.run s = .ok a t → Follows f t (g a) (h a)) : Follows f s (x >>= g) (y >>= h) := by
  unfold Follows at hx ⊢
  rw [EStateM.run_bind, EStateM.run_bind, hx]
  cases hy : y.run s with
  | ok a t => exact hg a t hy
  | error e t => rfl

theorem follows_mapM {ι : Type} {f : S → T} {g : ι → EStateM ε T β} {h : ι → EStateM ε S β}
    (hg : ∀ i s, Follows f s (g i) (h i)) (l : List ι) (s : S) :
    Follows f s (l.mapM g) (l.mapM h) := by
  induction l generalizing s with
  | nil => exact follows_pure
  | cons i l ih =>
    simp only [List.mapM_cons]
    exact (hg i s).bind fun _ t _ => (ih t).bind fun _ _ _ => follows_pure

theorem follows_forM {ι : Type} {f : S → T} {g : ι → EStateM ε T PUnit} {h : ι → EStateM ε S PUnit}
    {l : List ι} (hg : ∀ i ∈ l, ∀ s, Follows f s (g i) (h i)) (s : S) :
    Follows f s (l.forM g) (l.forM h) := by
  induction l generalizing s with
  | nil => exact follows_pure
  | cons i l ih =>
    show Follows f s (g i >>= fun _ => l.forM g) (h i >>= fun _ => l.forM h)
    exact (hg i List.mem_cons_self s).bind fun _ t _ =>
      ih (fun j hj => hg j (List.mem_cons_of_mem _ hj)) t

theorem follows_allM {ι : Type} {f : S → T} {g : ι → EStateM ε T Bool} {h : ι → EStateM ε S Bool}
    {l : List ι} (hg : ∀ i ∈ l, ∀ s, Follows f s (g i) (h i)) (s : S) :
    Follows f s (l.allM g) (l.allM h) := by
  induction l generalizing s with
  | nil => exact follows_pure
  | cons i l ih =>
    rw [List.allM_cons, List.allM_cons]
    refine (hg i List.mem_cons_self s).bind fun b t _ => ?_
    cases b with
    | false => exact follows_pure
    | true => exact ih (fun j hj => hg j (List.mem_cons_of_mem _ hj)) t

/-- The outcomes of some calls, one after the other, and the state after them.  An exception does
not keep the caller from making the next call. -/
def trace (step : L → EStateM ε S α) (s : S) : List L → List (Except ε α) × S
  | [] => ([], s)
  | l :: ls =>
    let r := (step l).run s
    let rest := trace step (final r) ls
    (outcome r :: rest.1, rest.2)

theorem trace_concat (step : L → EStateM ε S α) (s : S) (ls : List L) (l : L) :
    trace step s (ls ++ [l]) =
      ((trace step s ls).1 ++ [outcome ((step l).run (trace step s ls).2)],
        final ((step l).run (trace step s ls).2)) := by
  induction ls generalizing s with
  | nil => rfl
  | cons m ls ih => simp only [List.cons_append, trace, ih]

/-- The invariant rule of traces. -/
theorem trace_invariant {step : L → EStateM ε S α} {I : S → Prop}
    (keeps : ∀ s l, I s → I (final ((step l).run s))) {s : S} (start : I s) (ls : List L) :
    I (trace step s ls).2 := by
  induction ls generalizing s with
  | nil => exact start
  | cons l ls ih => exact ih (keeps s l start)

/-- Every call of the trace is made in a state that meets a condition. -/
def Along (guard : S → L → Prop) (step : L → EStateM ε S α) (s : S) : List L → Prop
  | [] => True
  | l :: ls => guard s l ∧ Along guard step (final ((step l).run s)) ls

/-- Conditions that are the same wherever the trace goes. -/
theorem along_congr {step : L → EStateM ε S α} {I : S → Prop} {guard guard' : S → L → Prop}
    (same : ∀ s l, I s → (guard s l ↔ guard' s l))
    (keeps : ∀ s l, I s → I (final ((step l).run s))) {s : S} (start : I s) (ls : List L) :
    Along guard step s ls ↔ Along guard' step s ls := by
  induction ls generalizing s with
  | nil => exact Iff.rfl
  | cons l ls ih => exact and_congr (same s l start) (ih (keeps s l start))

theorem along_mono {step : L → EStateM ε S α} {guard guard' : S → L → Prop}
    (mono : ∀ s l, guard s l → guard' s l) {s : S} {ls : List L} (along : Along guard step s ls) :
    Along guard' step s ls := by
  induction ls generalizing s with
  | nil => trivial
  | cons l ls ih => exact ⟨mono s l along.1, ih along.2⟩

variable {step : L → EStateM ε S α} {step' : L → EStateM ε T α} {R : S → T → Prop}
  {guard : S → L → Prop}

theorem trace_agrees
    (agree : ∀ s t l, R s t → guard s l →
      outcome ((step' l).run t) = outcome ((step l).run s) ∧
      R (final ((step l).run s)) (final ((step' l).run t)))
    {s : S} {t : T} (start : R s t) (ls : List L) (along : Along guard step s ls) :
    (trace step' t ls).1 = (trace step s ls).1 ∧ R (trace step s ls).2 (trace step' t ls).2 := by
  induction ls generalizing s t with
  | nil => exact ⟨rfl, start⟩
  | cons l ls ih =>
    obtain ⟨hguard, hrest⟩ := along
    obtain ⟨hout, hstate⟩ := agree s t l start hguard
    obtain ⟨houts, hlast⟩ := ih hstate hrest
    exact ⟨by simp only [trace, hout, houts], hlast⟩

/-- Calls that follow the calls on another machine, from states that keep an invariant. -/
theorem trace_follows {f : S → T} {I : S → Prop}
    (follows : ∀ s l, I s → guard s l → Follows f s (step' l) (step l))
    (keeps : ∀ s l, I s → I (final ((step l).run s))) {s : S} (start : I s) (ls : List L)
    (along : Along guard step s ls) :
    trace step' (f s) ls = ((trace step s ls).1, f (trace step s ls).2) := by
  have hstep : ∀ s t l, t = f s ∧ I s → guard s l →
      outcome ((step' l).run t) = outcome ((step l).run s) ∧
      final ((step' l).run t) = f (final ((step l).run s)) ∧ I (final ((step l).run s)) := by
    rintro s _ l ⟨rfl, hs⟩ hl
    rw [follows s l hs hl]
    exact ⟨outcome_mapState f _, final_mapState f _, keeps s l hs⟩
  obtain ⟨houts, hlast, -⟩ := trace_agrees hstep ⟨rfl, start⟩ ls along
  exact Prod.ext houts hlast

end Kit.Lockstep
