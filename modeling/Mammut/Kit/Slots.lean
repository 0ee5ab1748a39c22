import Mathlib.Data.List.Basic

/-! Arrays whose slots hold nothing until they are written, as `new T[n]` returns them. -/

namespace Kit

/-- An array: `none` is a slot that has not been written. -/
structure Slots (α : Type) where
  cells : List (Option α)

namespace Slots

variable {α : Type}

/-- An array of `n` slots, none of them written. -/
def uninitialised (n : ℕ) : Slots α := ⟨List.replicate n none⟩

/-- An array of `n` slots that all hold `a`. -/
def filled (n : ℕ) (a : α) : Slots α := ⟨List.replicate n (some a)⟩

def size (s : Slots α) : ℕ := s.cells.length

/-- What slot `i` holds: nothing when it lies outside the array or was never written. -/
def get? (s : Slots α) (i : ℕ) : Option α := s.cells[i]?.join

/-- The array after a write to slot `i`. -/
def set (s : Slots α) (i : ℕ) (a : α) : Slots α := ⟨s.cells.set i (some a)⟩

variable {s : Slots α} {i j n : ℕ} {a : α}

@[simp] theorem size_uninitialised : (uninitialised n : Slots α).size = n := by
  simp [uninitialised, size]

@[simp] theorem size_filled : (filled n a).size = n := by simp [filled, size]

@[simp] theorem size_set : (s.set i a).size = s.size := by simp [set, size]

@[simp] theorem get?_uninitialised : (uninitialised n : Slots α).get? i = none := by
  by_cases h : i < n <;> simp [uninitialised, get?, h]

theorem get?_filled (h : i < n) : (filled n a).get? i = some a := by
  simp [filled, get?, h]

@[simp] theorem get?_set_self (h : i < s.size) : (s.set i a).get? i = some a := by
  simp only [size] at h
  simp [set, get?, h]

@[simp] theorem get?_set_ne (h : i ≠ j) : (s.set i a).get? j = s.get? j := by
  simp [set, get?, List.getElem?_set_ne h]

theorem lt_size (h : s.get? i = some a) : i < s.size := by
  by_contra out
  simp [get?, List.getElem?_eq_none (Nat.not_lt.mp out)] at h

end Slots

end Kit
