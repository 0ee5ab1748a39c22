import Mathlib.Algebra.Order.Field.Power
import Mathlib.Data.Int.Log
import Mathlib.Data.Rat.Floor
import Mathlib.Tactic.Linarith
import Mathlib.Tactic.NormNum
import Mathlib.Tactic.Positivity

/-! The binary64 format of IEEE 754: words of 64 bits, and the rational numbers that the finite
ones stand for. -/

namespace Kit.Binary64

/-- The number of a word whose sign is clear and whose exponent is not all ones. -/
def magnitude (n : ℕ) : ℚ :=
  if n < 2 ^ 52 then n * 2 ^ (-1074 : ℤ)
  else (2 ^ 52 + n % 2 ^ 52 : ℕ) * 2 ^ ((n / 2 ^ 52 : ℕ) - 1075 : ℤ)

/-- The word of a number that is not negative. -/
def bits (x : ℚ) : ℕ :=
  if x < 2 ^ (-1022 : ℤ) then ⌊x * 2 ^ (1074 : ℤ)⌋.toNat
  else (Int.log 2 x + 1022).toNat * 2 ^ 52 + ⌊x * 2 ^ (52 - Int.log 2 x)⌋.toNat

/-- The number of a finite word. -/
def ofWord (n : ℕ) : Option ℚ :=
  if n / 2 ^ 52 % 2 ^ 11 = 2047 then none
  else some (if n < 2 ^ 63 then magnitude n else -magnitude (n - 2 ^ 63))

def toWord (x : ℚ) : ℕ := if x < 0 then 2 ^ 63 + bits (-x) else bits x

/-- The numbers that the format has. -/
def Representable (x : ℚ) : Prop := ∃ n < 2047 * 2 ^ 52, |x| = magnitude n

/-- A significand of 53 bits has its first bit where the exponent says. -/
theorem log_significand {m : ℕ} (hm : m < 2 ^ 52) (e : ℤ) :
    Int.log 2 (((2 ^ 52 + m : ℕ) : ℚ) * 2 ^ e) = e + 52 := by
  have hpos : (0 : ℚ) < (2 ^ 52 + m : ℕ) * 2 ^ e := by positivity
  have hlow : (2 : ℚ) ^ (e + 52) ≤ (2 ^ 52 + m : ℕ) * 2 ^ e := by
    have hsplit : (2 : ℚ) ^ (e + 52) = 2 ^ 52 * 2 ^ e := by
      rw [zpow_add₀ two_ne_zero, mul_comm]
      norm_num
    rw [hsplit]
    apply mul_le_mul_of_nonneg_right _ (by positivity)
    push_cast
    linarith [Nat.cast_nonneg (α := ℚ) m]
  have hhigh : ((2 ^ 52 + m : ℕ) : ℚ) * 2 ^ e < 2 ^ (e + 52 + 1) := by
    have hsplit : (2 : ℚ) ^ (e + 52 + 1) = 2 ^ 53 * 2 ^ e := by
      rw [add_assoc, zpow_add₀ two_ne_zero, mul_comm]
      norm_num
    rw [hsplit]
    apply mul_lt_mul_of_pos_right _ (by positivity)
    have hm' : (m : ℚ) < 2 ^ 52 := by exact_mod_cast hm
    push_cast
    linarith
  have hle : e + 52 ≤ Int.log 2 (((2 ^ 52 + m : ℕ) : ℚ) * 2 ^ e) :=
    (Int.zpow_le_iff_le_log one_lt_two hpos).mp (by exact_mod_cast hlow)
  have hlt : Int.log 2 (((2 ^ 52 + m : ℕ) : ℚ) * 2 ^ e) < e + 52 + 1 :=
    (Int.lt_zpow_iff_log_lt one_lt_two hpos).mp (by exact_mod_cast hhigh)
  omega

theorem bits_magnitude {n : ℕ} : bits (magnitude n) = n := by
  by_cases hsmall : n < 2 ^ 52
  · have hlt : (n : ℚ) * 2 ^ (-1074 : ℤ) < 2 ^ (-1022 : ℤ) := by
      have hsplit : (2 : ℚ) ^ (-1022 : ℤ) = 2 ^ 52 * 2 ^ (-1074 : ℤ) := by
        rw [← zpow_natCast, ← zpow_add₀ two_ne_zero]
        norm_num
      rw [hsplit]
      have hn : (n : ℚ) < 2 ^ 52 := by exact_mod_cast hsmall
      exact mul_lt_mul_of_pos_right hn (by positivity)
    have hscaled : (n : ℚ) * 2 ^ (-1074 : ℤ) * 2 ^ (1074 : ℤ) = n := by
      rw [mul_assoc, ← zpow_add₀ two_ne_zero]
      norm_num
    rw [magnitude, if_pos hsmall, bits, if_pos hlt, hscaled, Int.floor_natCast, Int.toNat_natCast]
  · obtain ⟨m, hm⟩ : ∃ m, m = n % 2 ^ 52 := ⟨_, rfl⟩
    obtain ⟨e, he⟩ : ∃ e, e = n / 2 ^ 52 := ⟨_, rfl⟩
    have hpos : 1 ≤ e := by omega
    have hmlt : m < 2 ^ 52 := by omega
    have hsum : n = e * 2 ^ 52 + m := by omega
    have hlog : Int.log 2 (((2 ^ 52 + m : ℕ) : ℚ) * 2 ^ ((e : ℤ) - 1075)) = e - 1023 := by
      rw [log_significand hmlt]
      omega
    have hnormal : ¬((2 ^ 52 + m : ℕ) : ℚ) * 2 ^ ((e : ℤ) - 1075) < 2 ^ (-1022 : ℤ) := by
      have hle : (-1022 : ℤ) ≤ Int.log 2 (((2 ^ 52 + m : ℕ) : ℚ) * 2 ^ ((e : ℤ) - 1075)) := by
        omega
      rw [not_lt]
      exact_mod_cast (Int.zpow_le_iff_le_log one_lt_two (by positivity)).mpr hle
    have hscaled : ((2 ^ 52 + m : ℕ) : ℚ) * 2 ^ ((e : ℤ) - 1075) * 2 ^ (52 - ((e : ℤ) - 1023)) =
        (2 ^ 52 + m : ℕ) := by
      have hexponent : (e : ℤ) - 1075 + (52 - (e - 1023)) = 0 := by omega
      rw [mul_assoc, ← zpow_add₀ two_ne_zero, hexponent, zpow_zero, mul_one]
    rw [magnitude, if_neg hsmall, ← hm, ← he, bits, if_neg hnormal, hlog, hscaled,
      Int.floor_natCast, Int.toNat_natCast]
    omega

theorem magnitude_bits {x : ℚ} (hx : 0 ≤ x) (h : Representable x) :
    magnitude (bits x) = x ∧ bits x < 2047 * 2 ^ 52 := by
  obtain ⟨n, hn, habs⟩ := h
  rw [abs_of_nonneg hx] at habs
  rw [habs, bits_magnitude]
  exact ⟨rfl, hn⟩

/-- Representable numbers come back from their words. -/
theorem ofWord_toWord {x : ℚ} (h : Representable x) : ofWord (toWord x) = some x := by
  rcases lt_or_ge x 0 with hx | hx
  · have hneg : Representable (-x) := by
      obtain ⟨n, hn, habs⟩ := h
      exact ⟨n, hn, by rwa [abs_neg]⟩
    obtain ⟨hvalue, hlt⟩ := magnitude_bits (by linarith) hneg
    have hfinite : ¬(2 ^ 63 + bits (-x)) / 2 ^ 52 % 2 ^ 11 = 2047 := by omega
    rw [toWord, if_pos hx, ofWord, if_neg hfinite, if_neg (by omega), Nat.add_sub_cancel_left,
      hvalue, neg_neg]
  · obtain ⟨hvalue, hlt⟩ := magnitude_bits hx h
    have hfinite : ¬bits x / 2 ^ 52 % 2 ^ 11 = 2047 := by omega
    rw [toWord, if_neg (not_lt.mpr hx), ofWord, if_neg hfinite, if_pos (by omega), hvalue]

theorem toWord_lt {x : ℚ} (h : Representable x) : toWord x < 2 ^ 64 := by
  rcases lt_or_ge x 0 with hx | hx
  · have hneg : Representable (-x) := by
      obtain ⟨n, hn, habs⟩ := h
      exact ⟨n, hn, by rwa [abs_neg]⟩
    have hlt := (magnitude_bits (by linarith) hneg).2
    rw [toWord, if_pos hx]
    omega
  · have hlt := (magnitude_bits hx h).2
    rw [toWord, if_neg (not_lt.mpr hx)]
    omega

end Kit.Binary64
