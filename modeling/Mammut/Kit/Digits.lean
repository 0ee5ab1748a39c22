import Mathlib.Algebra.Order.Field.Power
import Mathlib.Algebra.Order.Floor.Semifield
import Mathlib.Data.Int.Log
import Mathlib.Tactic.FieldSimp
import Mathlib.Tactic.Linarith
import Mathlib.Tactic.NormNum
import Mathlib.Tactic.Positivity
import Mathlib.Tactic.Ring

/-! Rounding to a number of significant digits.  A number is rounded at the place where its last
digit stands, to the even digit when it is halfway, and keeps its value exactly when it has no more
digits than that. -/

namespace Kit.Digits

variable {K : Type} [Field K] [LinearOrder K] [IsStrictOrderedRing K] [FloorSemiring K]

/-- The nearest natural number to one that is not negative, and the even one of two. -/
def roundHalfEven (x : K) : ℕ :=
  if x - ⌊x⌋₊ < 1 / 2 then ⌊x⌋₊
  else if 1 / 2 < x - ⌊x⌋₊ then ⌊x⌋₊ + 1
  else if ⌊x⌋₊ % 2 = 0 then ⌊x⌋₊ else ⌊x⌋₊ + 1

@[simp] theorem roundHalfEven_natCast (n : ℕ) : roundHalfEven (n : K) = n := by
  rw [roundHalfEven, Nat.floor_natCast, if_pos (by rw [sub_self]; positivity)]

theorem roundHalfEven_bounds {x : K} {m n : ℕ} (hlow : (m : K) ≤ x) (hhigh : x < n) :
    m ≤ roundHalfEven x ∧ roundHalfEven x ≤ n := by
  have hx : 0 ≤ x := (Nat.cast_nonneg m).trans hlow
  have hm : m ≤ ⌊x⌋₊ := Nat.le_floor hlow
  have hn : ⌊x⌋₊ < n := (Nat.floor_lt hx).mpr hhigh
  unfold roundHalfEven
  split_ifs <;> omega

/-- A natural number of some power of the base. -/
structure Scaled where
  significand : ℕ
  exponent : ℤ
  deriving DecidableEq, Repr

def Scaled.value (b : ℕ) (s : Scaled) : K := s.significand * (b : K) ^ s.exponent

/-- The place of the last of the `p` digits of a number. -/
def lastPlace (b p : ℕ) (x : K) : ℤ := Int.log b x + 1 - p

/-- The number in units of that place. -/
def rounded (b p : ℕ) (x : K) : ℕ := roundHalfEven (x / (b : K) ^ lastPlace b p x)

/-- A positive number with `p` significant digits. -/
def significant (b p : ℕ) (x : K) : Scaled :=
  -- the carry out of the first digit
  if rounded b p x = b ^ p then ⟨b ^ (p - 1), lastPlace b p x + 1⟩
  else ⟨rounded b p x, lastPlace b p x⟩

section Rounding

variable {b p : ℕ} (hb : 1 < b) (hp : 0 < p) {x : K} (hx : 0 < x)

include hb

theorem zpow_pos_of_base (e : ℤ) : (0 : K) < (b : K) ^ e :=
  zpow_pos (by exact_mod_cast Nat.zero_lt_of_lt hb) e

include hp hx

/-- The digits are as many as there should be. -/
theorem scaled_bounds : ((b ^ (p - 1) : ℕ) : K) ≤ x / (b : K) ^ lastPlace b p x ∧
    x / (b : K) ^ lastPlace b p x < ((b ^ p : ℕ) : K) := by
  have hne : (b : K) ≠ 0 := by exact_mod_cast (Nat.zero_lt_of_lt hb).ne'
  have hpos : (0 : K) < (b : K) ^ lastPlace b p x := zpow_pos_of_base hb _
  have hlow := Int.zpow_log_le_self hb hx
  have hhigh := Int.lt_zpow_succ_log_self hb x
  constructor
  · rw [le_div_iff₀ hpos, Nat.cast_pow, ← zpow_natCast, ← zpow_add₀ hne]
    have hexponent : ((p - 1 : ℕ) : ℤ) + lastPlace b p x = Int.log b x := by
      unfold lastPlace
      omega
    rwa [hexponent]
  · rw [div_lt_iff₀ hpos, Nat.cast_pow, ← zpow_natCast, ← zpow_add₀ hne]
    have hexponent : (p : ℤ) + lastPlace b p x = Int.log b x + 1 := by
      unfold lastPlace
      omega
    rwa [hexponent]

theorem significant_bounds : b ^ (p - 1) ≤ (significant b p x).significand ∧
    (significant b p x).significand < b ^ p := by
  obtain ⟨hlow, hhigh⟩ := scaled_bounds hb hp hx
  obtain ⟨hm, hn⟩ := roundHalfEven_bounds hlow hhigh
  unfold significant
  split_ifs with hcarry
  · exact ⟨le_rfl, Nat.pow_lt_pow_right hb (by omega)⟩
  · exact ⟨hm, lt_of_le_of_ne hn hcarry⟩

omit [IsStrictOrderedRing K] hx in
/-- The carry changes nothing of the value. -/
theorem value_significant : (significant b p x).value b =
    (rounded b p x : K) * (b : K) ^ lastPlace b p x := by
  have hne : (b : K) ≠ 0 := by exact_mod_cast (Nat.zero_lt_of_lt hb).ne'
  unfold significant Scaled.value
  split_ifs with hcarry
  · obtain ⟨q, rfl⟩ : ∃ q, p = q + 1 := ⟨p - 1, by omega⟩
    rw [hcarry, zpow_add₀ hne, zpow_one]
    push_cast
    rw [pow_succ]
    ring
  · rfl

/-- A number keeps its value just when it has no more digits. -/
theorem significant_eq_iff :
    (significant b p x).value b = x ↔ ∃ s : Scaled, s.significand < b ^ p ∧ x = s.value b := by
  have hne : (b : K) ≠ 0 := by exact_mod_cast (Nat.zero_lt_of_lt hb).ne'
  constructor
  · intro h
    exact ⟨significant b p x, (significant_bounds hb hp hx).2, h.symm⟩
  · rintro ⟨⟨m, e⟩, hm, hvalue⟩
    -- The place of the last digit is no higher than that of the significand.
    have hlt : x < (b : K) ^ ((p : ℤ) + e) := by
      rw [hvalue, Scaled.value, zpow_add₀ hne, zpow_natCast]
      have hcast : (m : K) < (b : K) ^ p := by exact_mod_cast hm
      exact mul_lt_mul_of_pos_right hcast (zpow_pos_of_base hb e)
    have hlog := (Int.lt_zpow_iff_log_lt hb hx).mp hlt
    obtain ⟨k, hk⟩ : ∃ k : ℕ, e = lastPlace b p x + k := by
      refine ⟨(e - lastPlace b p x).toNat, ?_⟩
      unfold lastPlace
      omega
    have hwhole : x / (b : K) ^ lastPlace b p x = ((m * b ^ k : ℕ) : K) := by
      rw [div_eq_iff (zpow_pos_of_base hb _).ne']
      calc x = m * ((b : K) ^ lastPlace b p x * (b : K) ^ k) := by
            rw [← zpow_natCast, ← zpow_add₀ hne, ← hk]
            exact hvalue
        _ = ((m * b ^ k : ℕ) : K) * (b : K) ^ lastPlace b p x := by
            push_cast
            ring
    rw [value_significant hb hp, rounded, hwhole, roundHalfEven_natCast, ← hwhole]
    exact div_mul_cancel₀ x (zpow_pos_of_base hb _).ne'

end Rounding

end Kit.Digits
