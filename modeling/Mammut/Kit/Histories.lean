import Mathlib.Data.List.Forall2
import Mammut.Kit.Lockstep

/-! Histories of the calls that some threads make on one object.  A call may take its time, and the
calls of the other threads take place meanwhile; the object is right when each call could as well
take effect at once, some time between the moment it is made and the moment it returns. -/

namespace Kit.Histories

open Lockstep

/-- The calls `L` of threads `T`, with results `R`. -/
structure History (T L R : Type) where
  /-- The calls in the order in which they take effect. -/
  order : List (T × L)
  /-- The calls that had returned when each of these was made, by their places in the order. -/
  earlier : List (List ℕ)
  /-- The calls that have returned, by their places in the order, with their results. -/
  returned : List (ℕ × R)
  /-- The calls that had returned when a thread made its last call. -/
  made : T → List ℕ

variable {T L ε S S' α : Type}

namespace History

def new {R : Type} : History T L R := ⟨[], [], [], fun _ => []⟩

def calls {R : Type} (h : History T L R) : List L := h.order.map Prod.snd

variable (h : History T L (Except ε α))

/-- The calls return what they return when they are made one after the other in their order, each
of them once, and the order is one that the threads could have seen. -/
structure Linearizes (step : L → EStateM ε S α) (start : S) : Prop where
  results : ∀ i r, (i, r) ∈ h.returned → (trace step start h.calls).1[i]? = some r
  once : (h.returned.map Prod.fst).Nodup
  realTime : ∀ (i : ℕ) (places : List ℕ), h.earlier[i]? = some places → ∀ j ∈ places, j < i

end History

/-- The same history, of calls that stand for those of the other. -/
structure StandsFor {L' R : Type} (stands : L' → L → Prop) (h' : History T L' R)
    (h : History T L R) : Prop where
  order : List.Forall₂ (fun c' c => c'.1 = c.1 ∧ stands c'.2 c.2) h'.order h.order
  earlier : h'.earlier = h.earlier
  returned : h'.returned = h.returned
  made : h'.made = h.made

section StandsFor

variable {L' R : Type} {stands : L' → L → Prop}

theorem exists_standsFor {h : History T L R} (hcalls : ∀ l ∈ h.calls, ∃ l', stands l' l) :
    ∃ h' : History T L' R, StandsFor stands h' h := by
  suffices ∃ order : List (T × L'),
      List.Forall₂ (fun c' c => c'.1 = c.1 ∧ stands c'.2 c.2) order h.order by
    obtain ⟨order, horder⟩ := this
    exact ⟨⟨order, h.earlier, h.returned, h.made⟩, horder, rfl, rfl, rfl⟩
  unfold History.calls at hcalls
  generalize h.order = order at hcalls
  induction order with
  | nil => exact ⟨[], .nil⟩
  | cons c order ih =>
    obtain ⟨l', hl'⟩ := hcalls c.2 (by simp)
    obtain ⟨order', horder'⟩ := ih fun l hl => hcalls l (List.mem_cons_of_mem _ hl)
    exact ⟨(c.1, l') :: order', .cons ⟨rfl, hl'⟩ horder'⟩

theorem StandsFor.calls {h' : History T L' R} {h : History T L R}
    (hstands : StandsFor stands h' h) : List.Forall₂ stands h'.calls h.calls := by
  unfold History.calls
  rw [List.forall₂_map_left_iff, List.forall₂_map_right_iff]
  exact hstands.order.imp fun _ _ h => h.2

/-- A history of one object is one of another, when the calls have the same outcomes. -/
theorem StandsFor.linearizes {h' : History T L' (Except ε α)} {h : History T L (Except ε α)}
    (hstands : StandsFor stands h' h) {step : L → EStateM ε S α} {start : S}
    {step' : L' → EStateM ε S' α} {start' : S'} (hl : h.Linearizes step start)
    (heq : (trace step start h.calls).1 = (trace step' start' h'.calls).1) :
    h'.Linearizes step' start' := by
  obtain ⟨hresults, honce, hrealTime⟩ := hl
  refine ⟨fun i r hr => ?_, hstands.returned ▸ honce, hstands.earlier ▸ hrealTime⟩
  rw [← heq]
  exact hresults i r (hstands.returned ▸ hr)

end StandsFor


/-- The outcomes of the first calls do not depend on those after them. -/
theorem trace_append (step : L → EStateM ε S α) (s : S) (ls more : List L) :
    (trace step s (ls ++ more)).1 =
      (trace step s ls).1 ++ (trace step (trace step s ls).2 more).1 := by
  induction ls generalizing s with
  | nil => rfl
  | cons l ls ih => simp only [List.cons_append, trace, ih]

end Kit.Histories
