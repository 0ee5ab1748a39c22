import Mathlib.Algebra.Order.Ring.Defs
import Mathlib.Algebra.Order.Field.Basic

/-! The integral of a quantity that is read now and then: a reading stands for the whole time since
the reading before it. -/

namespace Kit.Integrals

variable {K : Type*}

/-- The time of the last reading, or `t` before the first. -/
def latest (t : K) : List (K × K) → K
  | [] => t
  | (u, _) :: rest => latest u rest

@[simp] theorem latest_nil (t : K) : latest t [] = t := rfl

@[simp] theorem latest_concat (t u w : K) (readings : List (K × K)) :
    latest t (readings ++ [(u, w)]) = u := by
  induction readings generalizing t with
  | nil => rfl
  | cons reading rest ih => exact ih reading.1

theorem latest_mem (t : K) (readings : List (K × K)) :
    latest t readings ∈ t :: readings.map Prod.fst := by
  induction readings generalizing t with
  | nil => exact List.mem_cons_self
  | cons reading rest ih => exact List.mem_cons_of_mem t (ih reading.1)

section Ring

variable [Ring K]

/-- The sum of the values of the readings `(u, w)`, each times the time since the one before. -/
def integral (t : K) : List (K × K) → K
  | [] => 0
  | (u, w) :: rest => w * (u - t) + integral u rest

@[simp] theorem integral_nil (t : K) : integral t [] = 0 := rfl

theorem integral_append (t : K) (first second : List (K × K)) :
    integral t (first ++ second) = integral t first + integral (latest t first) second := by
  induction first generalizing t with
  | nil => simp
  | cons reading first ih =>
    obtain ⟨u, w⟩ := reading
    simp only [List.cons_append, integral, latest, ih, add_assoc]

theorem integral_concat (t u w : K) (readings : List (K × K)) :
    integral t (readings ++ [(u, w)]) =
      integral t readings + w * (u - latest t readings) := by
  simp [integral_append, integral]

end Ring

section Order

variable [Ring K] [PartialOrder K] [IsOrderedRing K]

/-- The integral of readings that are not negative is not negative. -/
theorem integral_nonneg {t : K} {readings : List (K × K)}
    (sorted : (t :: readings.map Prod.fst).Pairwise (· ≤ ·)) (hw : ∀ r ∈ readings, 0 ≤ r.2) :
    0 ≤ integral t readings := by
  induction readings generalizing t with
  | nil => simp
  | cons reading rest ih =>
    obtain ⟨u, w⟩ := reading
    rw [List.map_cons, List.pairwise_cons] at sorted
    have hrest := ih sorted.2 fun r hr => hw r (List.mem_cons_of_mem _ hr)
    have htu : t ≤ u := sorted.1 u List.mem_cons_self
    have hfirst : 0 ≤ w * (u - t) :=
      mul_nonneg (hw (u, w) List.mem_cons_self) (sub_nonneg.mpr htu)
    exact add_nonneg hfirst hrest

/-- An integral of such readings does not decrease as readings are added. -/
theorem integral_le_append {t : K} {first second : List (K × K)}
    (sorted : (t :: (first ++ second).map Prod.fst).Pairwise (· ≤ ·))
    (hw : ∀ r ∈ second, 0 ≤ r.2) : integral t first ≤ integral t (first ++ second) := by
  rw [integral_append]
  refine le_add_of_nonneg_right (integral_nonneg ?_ hw)
  rw [List.map_append, List.pairwise_cons, List.pairwise_append] at sorted
  obtain ⟨hstart, -, hsecond, hcross⟩ := sorted
  refine List.pairwise_cons.mpr ⟨fun u hu => ?_, hsecond⟩
  rcases List.mem_cons.mp (latest_mem t first) with heq | hmem
  · rw [heq]
    exact hstart u (List.mem_append_right _ hu)
  · exact hcross _ hmem u hu

end Order

end Kit.Integrals
