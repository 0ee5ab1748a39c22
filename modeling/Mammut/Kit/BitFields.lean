import Mathlib.Data.Nat.Bitwise

/-! Fields of bits in a word: what is read from a field, and a word with a field written bit by
bit. -/

namespace Kit.BitFields

variable {w : ℕ} {high low k n : ℕ} {v old value : BitVec w}

/-- The bits of a word from `high` down to `low`. -/
def extract (high low : ℕ) (v : BitVec w) : BitVec w :=
  if high - low + 1 < w then (v >>> low) &&& ((1#w <<< (high - low + 1)) - 1#w) else v

/-- Clears bit `i` of the first word when it lies in the field, and of the second when it does
not. -/
def clearBit (high low : ℕ) (words : BitVec w × BitVec w) (i : ℕ) : BitVec w × BitVec w :=
  if low ≤ i ∧ i ≤ high then (words.1 &&& ~~~(1#w <<< i), words.2)
  else (words.1, words.2 &&& ~~~(1#w <<< i))

/-- The word `old` with `value` in the bits from `high` down to `low`. -/
def insert (high low : ℕ) (old value : BitVec w) : BitVec w :=
  let words := (List.range w).foldl (clearBit high low) (old, value <<< low)
  words.1 ||| words.2

theorem getLsbD_clear (v : BitVec w) (n k : ℕ) :
    (v &&& ~~~(1#w <<< n)).getLsbD k = (v.getLsbD k && !decide (k = n)) := by
  by_cases hk : k < w
  · by_cases hkn : k < n
    · simp [hk, hkn, Nat.ne_of_lt hkn]
    · by_cases heq : k = n
      · have hpos : 0 < w := by omega
        simp [heq, hpos]
      · have hne : k - n ≠ 0 := by omega
        simp [hk, hkn, heq, hne]
  · simp [BitVec.getLsbD_of_ge v k (by omega)]

theorem getLsbD_clearBits (high low : ℕ) (words : BitVec w × BitVec w) (n k : ℕ) :
    ((List.range n).foldl (clearBit high low) words).1.getLsbD k =
        (words.1.getLsbD k && !decide (k < n ∧ low ≤ k ∧ k ≤ high)) ∧
      ((List.range n).foldl (clearBit high low) words).2.getLsbD k =
        (words.2.getLsbD k && !decide (k < n ∧ ¬(low ≤ k ∧ k ≤ high))) := by
  induction n with
  | zero => simp
  | succ n ih =>
    rw [List.range_succ, List.foldl_append, List.foldl_cons, List.foldl_nil]
    generalize (List.range n).foldl (clearBit high low) words = cleared at ih ⊢
    obtain ⟨hold, hvalue⟩ := ih
    have hlt : k ≠ n → (k < n + 1 ↔ k < n) := by omega
    unfold clearBit
    by_cases hfield : low ≤ n ∧ n ≤ high
    · rw [if_pos hfield]
      simp only [getLsbD_clear, hold, hvalue]
      by_cases hk : k = n
      · simp [hk, hfield]
      · simp [hk, hlt]
    · rw [if_neg hfield]
      simp only [getLsbD_clear, hold, hvalue]
      by_cases hk : k = n
      · simp [hk, hfield]
      · simp [hk, hlt]

/-- What `insert` leaves in a bit. -/
theorem getLsbD_insert (hk : k < w) : (insert high low old value).getLsbD k =
    if low ≤ k ∧ k ≤ high then value.getLsbD (k - low) else old.getLsbD k := by
  obtain ⟨hold, hvalue⟩ := getLsbD_clearBits high low (old, value <<< low) w k
  simp only [insert, BitVec.getLsbD_or, hold, hvalue, BitVec.getLsbD_shiftLeft]
  split
  · rename_i hfield
    simp [hk, hfield]
  · rename_i hfield
    simp [hk, hfield]

theorem toNat_extract (hbits : high - low + 1 < w) :
    (extract high low v).toNat = v.toNat / 2 ^ low % 2 ^ (high - low + 1) := by
  have hlt : 2 ^ (high - low + 1) < 2 ^ w := Nat.pow_lt_pow_right (by decide) hbits
  have hone : 1 < 2 ^ w := Nat.one_lt_two_pow (by omega)
  have hpos : 0 < 2 ^ (high - low + 1) := Nat.two_pow_pos _
  have hmask : ((1#w <<< (high - low + 1)) - 1#w).toNat = 2 ^ (high - low + 1) - 1 := by
    rw [BitVec.toNat_sub, BitVec.toNat_shiftLeft, BitVec.toNat_ofNat, Nat.shiftLeft_eq,
      Nat.mod_eq_of_lt hone, Nat.one_mul, Nat.mod_eq_of_lt hlt]
    have hsum : 2 ^ w - 1 + 2 ^ (high - low + 1) = 2 ^ (high - low + 1) - 1 + 2 ^ w := by omega
    rw [hsum, Nat.add_mod_right, Nat.mod_eq_of_lt (by omega)]
  rw [extract, if_pos hbits, BitVec.toNat_and, hmask, Nat.and_two_pow_sub_one_eq_mod,
    BitVec.toNat_ushiftRight, Nat.shiftRight_eq_div_pow]

/-- A bit of a field is a bit of the word. -/
theorem getLsbD_extract (hlow : low ≤ high) (hhigh : high < w) :
    (extract high low v).getLsbD k = (decide (k ≤ high - low) && v.getLsbD (low + k)) := by
  by_cases hbits : high - low + 1 < w
  · rw [BitVec.getLsbD, toNat_extract hbits, Nat.testBit_mod_two_pow, Nat.testBit_div_two_pow,
      BitVec.getLsbD, Nat.add_comm k low]
    congr 1
    rw [decide_eq_decide]
    omega
  · -- The field is the whole word.
    rw [extract, if_neg hbits]
    obtain rfl : low = 0 := by omega
    by_cases hk : k < w
    · have hle : k ≤ high := by omega
      simp [hle]
    · simp [BitVec.getLsbD_of_ge v k (by omega)]

/-- What is read from a field depends on its bits only. -/
theorem extract_congr {v' : BitVec w} (hlow : low ≤ high) (hhigh : high < w)
    (h : ∀ k, low ≤ k → k ≤ high → v.getLsbD k = v'.getLsbD k) :
    extract high low v = extract high low v' := by
  refine BitVec.eq_of_getLsbD_eq fun k _ => ?_
  rw [getLsbD_extract hlow hhigh, getLsbD_extract hlow hhigh]
  by_cases hfield : k ≤ high - low
  · rw [h (low + k) (by omega) (by omega)]
  · simp [hfield]

/-- A field holds what was written to it, modulo its width. -/
theorem toNat_extract_insert (hlow : low ≤ high) (hhigh : high < w) :
    (extract high low (insert high low old value)).toNat =
      value.toNat % 2 ^ (high - low + 1) := by
  refine Nat.eq_of_testBit_eq fun k => ?_
  rw [Nat.testBit_mod_two_pow]
  show (extract high low (insert high low old value)).getLsbD k = (_ && value.getLsbD k)
  rw [getLsbD_extract hlow hhigh]
  by_cases hfield : k ≤ high - low
  · have hin : low ≤ low + k ∧ low + k ≤ high := by omega
    have hlt : k < high - low + 1 := by omega
    rw [getLsbD_insert (by omega), if_pos hin, Nat.add_sub_cancel_left]
    simp [hfield, hlt]
  · have hlt : ¬k < high - low + 1 := by omega
    simp [hfield, hlt]

/-- A field that shares no bit with the one that is written keeps what it holds. -/
theorem extract_insert_disjoint {high' low' : ℕ} (hlow : low' ≤ high') (hhigh : high' < w)
    (h : high' < low ∨ high < low') :
    extract high' low' (insert high low old value) = extract high' low' old := by
  refine extract_congr hlow hhigh fun k hk hk' => ?_
  rw [getLsbD_insert (by omega), if_neg (by omega)]

/-- Writing back what a field holds changes nothing. -/
theorem insert_extract (hlow : low ≤ high) (hhigh : high < w) :
    insert high low old (extract high low old) = old := by
  refine BitVec.eq_of_getLsbD_eq fun k hk => ?_
  rw [getLsbD_insert hk]
  split
  · rename_i hfield
    have hle : k - low ≤ high - low := by omega
    have hsum : low + (k - low) = k := by omega
    rw [getLsbD_extract hlow hhigh, hsum]
    simp [hle]
  · rfl

theorem extract_insert_self (hlow : low ≤ high) (hhigh : high < w)
    (hfits : value.toNat < 2 ^ (high - low + 1)) :
    extract high low (insert high low old value) = value := by
  apply BitVec.eq_of_toNat_eq
  rw [toNat_extract_insert hlow hhigh, Nat.mod_eq_of_lt hfits]

/-- Of a value that is written, only the bits that fit in the field matter. -/
theorem insert_congr {value' : BitVec w}
    (h : value.toNat % 2 ^ (high - low + 1) = value'.toNat % 2 ^ (high - low + 1)) :
    insert high low old value = insert high low old value' := by
  refine BitVec.eq_of_getLsbD_eq fun k hk => ?_
  rw [getLsbD_insert hk, getLsbD_insert hk]
  by_cases hfield : low ≤ k ∧ k ≤ high
  · rw [if_pos hfield, if_pos hfield]
    have hbit := congrArg (fun n : ℕ => n.testBit (k - low)) h
    have hlt : k - low < high - low + 1 := by omega
    simpa [Nat.testBit_mod_two_pow, hlt, BitVec.getLsbD] using hbit
  · rw [if_neg hfield, if_neg hfield]

end Kit.BitFields
