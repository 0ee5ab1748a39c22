import Mathlib.Data.List.DropRight
import Mathlib.Data.Rat.Floor
import Mammut.Kit.Digits
import Mammut.Utils.Text

/-! The text of a `double`: what a stream prints of it by default, with six significant digits, and
what `atof` reads.  A `double` is the rational number that it stands for. -/

namespace Mammut.Utils

open Kit.Digits

/-- The last `d` digits of a number. -/
def lastDigits : ℕ → ℕ → List Char
  | 0, _ => []
  | d + 1, n => lastDigits d (n / 10) ++ [Nat.digitChar (n % 10)]

/-- The digits after the point, which goes with the zeros at their end. -/
def fraction (digits : List Char) : List Char :=
  if digits.rdropWhile (· = '0') = [] then [] else '.' :: digits.rdropWhile (· = '0')

/-- A number of which `d` digits stand after the point. -/
def plain (d n : ℕ) : List Char := Nat.toDigits 10 (n / 10 ^ d) ++ fraction (lastDigits d n)

/-- An exponent, of two digits at least. -/
def exponentText (e : ℤ) : List Char :=
  'e' :: (if e < 0 then '-' else '+') ::
    if e.natAbs < 10 then '0' :: Nat.toDigits 10 e.natAbs else Nat.toDigits 10 e.natAbs

/-- Six digits, with an exponent if the point is far from them. -/
def sixDigits (s : Scaled) : List Char :=
  if -4 ≤ s.exponent + 5 ∧ s.exponent + 5 < 6 then plain (-s.exponent).toNat s.significand
  else plain 5 s.significand ++ exponentText (s.exponent + 5)

/-- `%g` of a positive number. -/
def general (x : ℚ) : List Char := sixDigits (significant 10 6 x)

/-- `out << x`. -/
def doubleToString (x : ℚ) : String :=
  String.ofList (if x < 0 then '-' :: general (-x) else if x = 0 then ['0'] else general x)

/-- The exponent that a text begins with. -/
def exponentOf : List Char → ℤ
  | [] => 0
  | c :: cs =>
    if c = 'e' ∨ c = 'E' then
      match cs with
      | '-' :: cs => -(leadingDigits cs : ℤ)
      | '+' :: cs => leadingDigits cs
      | cs => leadingDigits cs
    else 0

/-- The digits of a number, around a point if there is one, and its exponent. -/
def magnitude (cs : List Char) : ℚ :=
  match cs.dropWhile Char.isDigit with
  | '.' :: rest =>
    Nat.ofDigitChars 10 (cs.takeWhile Char.isDigit ++ rest.takeWhile Char.isDigit) 0 /
      10 ^ (rest.takeWhile Char.isDigit).length * 10 ^ exponentOf (rest.dropWhile Char.isDigit)
  | rest => leadingDigits cs * 10 ^ exponentOf rest

/-- `atof`, of a decimal number. -/
def atof (s : String) : ℚ :=
  match s.toList.dropWhile isSpace with
  | '-' :: cs => -magnitude cs
  | '+' :: cs => magnitude cs
  | cs => magnitude cs

/-- `stringToDouble`. -/
def stringToDouble (s : String) : ℚ := atof s

theorem isDigit_lastDigits (d n : ℕ) : ∀ c ∈ lastDigits d n, c.isDigit := by
  induction d generalizing n with
  | zero => exact fun c hc => nomatch hc
  | succ d ih =>
    intro c hc
    rcases List.mem_append.mp hc with hc | hc
    · exact ih (n / 10) c hc
    · rw [List.mem_singleton.mp hc, Nat.isDigit_digitChar]
      exact decide_eq_true (Nat.mod_lt n (by decide))

theorem length_lastDigits (d n : ℕ) : (lastDigits d n).length = d := by
  induction d generalizing n with
  | zero => rfl
  | succ d ih => rw [lastDigits, List.length_append, ih, List.length_singleton]

/-- The digits of a number follow those of its quotient. -/
theorem ofDigitChars_lastDigits (d n first : ℕ) :
    Nat.ofDigitChars 10 (lastDigits d n) first = 10 ^ d * first + n % 10 ^ d := by
  induction d generalizing n with
  | zero => simp [lastDigits, Nat.mod_one]
  | succ d ih =>
    have hmod : n % 10 ^ (d + 1) = n % 10 + 10 * (n / 10 % 10 ^ d) := by
      rw [Nat.pow_succ', Nat.mod_mul]
    rw [lastDigits, Nat.ofDigitChars_append, ih,
      Nat.ofDigitChars_cons_digitChar_of_lt_ten (Nat.mod_lt n (by decide)), Nat.ofDigitChars_nil,
      hmod, Nat.pow_succ]
    ring

/-- The zeros at the end of the digits change nothing of the number. -/
theorem ofDigitChars_rdropWhile (whole digits : List Char) :
    (Nat.ofDigitChars 10 (whole ++ digits.rdropWhile (· = '0')) 0 : ℚ) /
        10 ^ (digits.rdropWhile (· = '0')).length =
      Nat.ofDigitChars 10 (whole ++ digits) 0 / 10 ^ digits.length := by
  obtain ⟨k, hzeros⟩ : ∃ k, digits.rtakeWhile (· = '0') = List.replicate k '0' :=
    ⟨_, List.eq_replicate_of_mem fun c hc => by simpa using List.mem_rtakeWhile_imp hc⟩
  have hjoin : digits.rdropWhile (· = '0') ++ digits.rtakeWhile (· = '0') = digits :=
    List.rdropWhile_append_rtakeWhile
  rw [hzeros] at hjoin
  generalize digits.rdropWhile (· = '0') = kept at hjoin ⊢
  rw [← hjoin, ← List.append_assoc, Nat.ofDigitChars_append (l := whole ++ kept),
    Nat.ofDigitChars_replicate_zero, List.length_append, List.length_replicate, pow_add]
  push_cast
  field_simp

/-- What follows the digits is no digit, and no point. -/
def Ends (tail : List Char) : Prop := ∀ c, tail.head? = some c → c = 'e'

theorem takeWhile_digits {digits tail : List Char} (hdigits : ∀ c ∈ digits, c.isDigit)
    (htail : ∀ c, tail.head? = some c → c.isDigit = false) :
    (digits ++ tail).takeWhile Char.isDigit = digits ∧
      (digits ++ tail).dropWhile Char.isDigit = tail := by
  rw [List.takeWhile_append_of_pos hdigits, List.dropWhile_append_of_pos hdigits]
  cases tail with
  | nil => simp
  | cons c tail =>
    have hc := htail c rfl
    simp [hc]

theorem Ends.not_isDigit {tail : List Char} (h : Ends tail) :
    ∀ c, tail.head? = some c → c.isDigit = false := by
  intro c hc
  rw [h c hc]
  decide

theorem magnitude_whole {whole tail : List Char} (hwhole : ∀ c ∈ whole, c.isDigit)
    (htail : Ends tail) :
    magnitude (whole ++ tail) = (Nat.ofDigitChars 10 whole 0 : ℚ) * 10 ^ exponentOf tail := by
  obtain ⟨htake, hdrop⟩ := takeWhile_digits hwhole htail.not_isDigit
  unfold magnitude leadingDigits
  rw [hdrop, htake]
  cases tail with
  | nil => rfl
  | cons c tail =>
    obtain rfl := htail c rfl
    rfl

theorem magnitude_point {whole digits tail : List Char} (hwhole : ∀ c ∈ whole, c.isDigit)
    (hdigits : ∀ c ∈ digits, c.isDigit) (htail : Ends tail) :
    magnitude (whole ++ '.' :: (digits ++ tail)) =
      (Nat.ofDigitChars 10 (whole ++ digits) 0 : ℚ) / 10 ^ digits.length *
        10 ^ exponentOf tail := by
  have hpoint : ∀ c, ('.' :: (digits ++ tail)).head? = some c → c.isDigit = false := by
    rintro c ⟨⟩
    decide
  obtain ⟨htake, hdrop⟩ := takeWhile_digits hwhole hpoint
  obtain ⟨htake', hdrop'⟩ := takeWhile_digits hdigits htail.not_isDigit
  unfold magnitude
  rw [hdrop, htake]
  show (Nat.ofDigitChars 10 (whole ++ (digits ++ tail).takeWhile Char.isDigit) 0 : ℚ) /
    10 ^ ((digits ++ tail).takeWhile Char.isDigit).length *
      10 ^ exponentOf ((digits ++ tail).dropWhile Char.isDigit) = _
  rw [htake', hdrop']

/-- A number that is printed is read. -/
theorem magnitude_plain (d n : ℕ) {tail : List Char} (htail : Ends tail) :
    magnitude (plain d n ++ tail) = n / 10 ^ d * 10 ^ exponentOf tail := by
  have hwhole : ∀ c ∈ Nat.toDigits 10 (n / 10 ^ d), c.isDigit := fun c hc =>
    Nat.isDigit_of_mem_toDigits (by decide) (by decide) hc
  have hkept : ∀ c ∈ (lastDigits d n).rdropWhile (· = '0'), c.isDigit := fun c hc =>
    isDigit_lastDigits d n c ((List.rdropWhile_prefix _ _).subset hc)
  have hall : Nat.ofDigitChars 10 (Nat.toDigits 10 (n / 10 ^ d) ++ lastDigits d n) 0 = n := by
    rw [Nat.ofDigitChars_append, Nat.ofDigitChars_ten_toDigits, ofDigitChars_lastDigits,
      Nat.div_add_mod]
  have hvalue := ofDigitChars_rdropWhile (Nat.toDigits 10 (n / 10 ^ d)) (lastDigits d n)
  rw [hall, length_lastDigits] at hvalue
  rw [plain, List.append_assoc, fraction]
  generalize (lastDigits d n).rdropWhile (· = '0') = kept at hkept hvalue ⊢
  rw [← hvalue]
  by_cases hnil : kept = []
  · subst hnil
    rw [if_pos rfl, List.nil_append, magnitude_whole hwhole htail, List.append_nil, List.length_nil,
      pow_zero, div_one]
  · rw [if_neg hnil, List.cons_append, magnitude_point hwhole hkept htail]

theorem ends_exponentText (e : ℤ) : Ends (exponentText e) := by
  rintro c ⟨⟩
  rfl

theorem exponentOf_exponentText (e : ℤ) : exponentOf (exponentText e) = e := by
  have hdigits : leadingDigits (if e.natAbs < 10 then '0' :: Nat.toDigits 10 e.natAbs
      else Nat.toDigits 10 e.natAbs) = e.natAbs := by
    split
    · have hzero := leadingDigits_toDigits e.natAbs
      rw [leadingDigits] at hzero ⊢
      rw [List.takeWhile_cons_of_pos (by decide), Nat.ofDigitChars_cons]
      exact hzero
    · exact leadingDigits_toDigits e.natAbs
  by_cases he : e < 0
  · rw [exponentText, if_pos he]
    show (if 'e' = 'e' ∨ 'e' = 'E' then -(leadingDigits _ : ℤ) else 0) = e
    rw [if_pos (.inl rfl), hdigits]
    omega
  · rw [exponentText, if_neg he]
    show (if 'e' = 'e' ∨ 'e' = 'E' then (leadingDigits _ : ℤ) else 0) = e
    rw [if_pos (.inl rfl), hdigits]
    omega

/-- Six digits are read as the number that they are of. -/
theorem magnitude_sixDigits (s : Scaled) : magnitude (sixDigits s) = s.value 10 := by
  unfold sixDigits Scaled.value
  split
  · next hplain =>
    have hends : Ends [] := fun c hc => nomatch hc
    have hread := magnitude_plain (-s.exponent).toNat s.significand hends
    have hexponent : s.exponent = -((-s.exponent).toNat : ℤ) := by omega
    rw [List.append_nil] at hread
    rw [hread, exponentOf, zpow_zero, mul_one, div_eq_mul_inv, ← zpow_natCast, ← zpow_neg,
      ← hexponent]
    norm_num
  · rw [magnitude_plain 5 s.significand (ends_exponentText _), exponentOf_exponentText,
      zpow_add₀ (by norm_num)]
    norm_num
    ring

/-- The characters of a number. -/
def IsNumberChar (c : Char) : Prop := c.isDigit ∨ c = '.' ∨ c = 'e' ∨ c = '+' ∨ c = '-'

theorem isNumberChar_toDigits (n : ℕ) : ∀ c ∈ Nat.toDigits 10 n, IsNumberChar c := fun _ hc =>
  .inl (Nat.isDigit_of_mem_toDigits (by decide) (by decide) hc)

theorem isNumberChar_plain (d n : ℕ) : ∀ c ∈ plain d n, IsNumberChar c := by
  intro c hc
  rcases List.mem_append.mp hc with hc | hc
  · exact isNumberChar_toDigits _ c hc
  · unfold fraction at hc
    split at hc
    · cases hc
    · rcases List.mem_cons.mp hc with rfl | hc
      · exact .inr (.inl rfl)
      · exact .inl (isDigit_lastDigits d n c ((List.rdropWhile_prefix _ _).subset hc))

theorem isNumberChar_exponentText (e : ℤ) : ∀ c ∈ exponentText e, IsNumberChar c := by
  unfold exponentText
  rw [List.forall_mem_cons, List.forall_mem_cons]
  refine ⟨.inr (.inr (.inl rfl)), ?_, ?_⟩
  · split
    · exact .inr (.inr (.inr (.inr rfl)))
    · exact .inr (.inr (.inr (.inl rfl)))
  · split
    · rw [List.forall_mem_cons]
      exact ⟨.inl (by decide), isNumberChar_toDigits _⟩
    · exact isNumberChar_toDigits _

theorem isNumberChar_sixDigits (s : Scaled) : ∀ c ∈ sixDigits s, IsNumberChar c := by
  unfold sixDigits
  split
  · exact isNumberChar_plain _ _
  · intro c hc
    rcases List.mem_append.mp hc with hc | hc
    · exact isNumberChar_plain _ _ c hc
    · exact isNumberChar_exponentText _ c hc

theorem isNumberChar_doubleToString (x : ℚ) : ∀ c ∈ (doubleToString x).toList, IsNumberChar c := by
  rw [doubleToString, String.toList_ofList]
  split
  · rw [List.forall_mem_cons]
    exact ⟨.inr (.inr (.inr (.inr rfl))), isNumberChar_sixDigits _⟩
  · split
    · rw [List.forall_mem_singleton]
      exact .inl (by decide)
    · exact isNumberChar_sixDigits _

theorem sixDigits_cons (s : Scaled) : ∃ c cs, sixDigits s = c :: cs ∧ c.isDigit := by
  have hplain (d n : ℕ) : ∃ c cs, plain d n = c :: cs ∧ c.isDigit := by
    obtain ⟨c, cs, hdigits, hc⟩ := toDigits_cons (n / 10 ^ d)
    exact ⟨c, cs ++ fraction (lastDigits d n), by rw [plain, hdigits, List.cons_append], hc⟩
  unfold sixDigits
  split
  · exact hplain _ _
  · obtain ⟨c, cs, htext, hc⟩ := hplain 5 s.significand
    exact ⟨c, _, by rw [htext, List.cons_append], hc⟩

theorem doubleToString_ne_nil (x : ℚ) : (doubleToString x).toList ≠ [] := by
  rw [doubleToString, String.toList_ofList]
  split
  · exact List.cons_ne_nil _ _
  · split
    · exact List.cons_ne_nil _ _
    · obtain ⟨c, cs, htext, -⟩ := sixDigits_cons (significant 10 6 x)
      rw [general, htext]
      exact List.cons_ne_nil c cs

/-- A text that begins with a digit is read without a sign. -/
theorem atof_of_digit {c : Char} {cs : List Char} (hc : c.isDigit) :
    atof (String.ofList (c :: cs)) = magnitude (c :: cs) := by
  unfold atof
  rw [String.toList_ofList, List.dropWhile_cons_of_neg (by simp [isSpace_of_isDigit hc])]
  split
  · next heq =>
    obtain ⟨rfl, -⟩ := List.cons.inj heq
    exact absurd hc (by decide)
  · next heq =>
    obtain ⟨rfl, -⟩ := List.cons.inj heq
    exact absurd hc (by decide)
  · rfl

/-- A number is read back just when it has no more than six digits. -/
theorem stringToDouble_doubleToString_iff (x : ℚ) : stringToDouble (doubleToString x) = x ↔
    ∃ s : Scaled, s.significand < 10 ^ 6 ∧ |x| = s.value 10 := by
  unfold stringToDouble doubleToString
  rcases lt_trichotomy x 0 with hneg | rfl | hpos
  · have hread : atof (String.ofList ('-' :: general (-x))) = -magnitude (general (-x)) := by
      unfold atof
      rw [String.toList_ofList, List.dropWhile_cons_of_neg (by decide)]
      rfl
    rw [if_pos hneg, hread, general, magnitude_sixDigits, abs_of_neg hneg,
      ← significant_eq_iff (by decide) (by decide) (neg_pos.mpr hneg), neg_eq_iff_eq_neg]
  · rw [if_neg (lt_irrefl 0), if_pos rfl]
    refine iff_of_true ?_ ⟨⟨0, 0⟩, by norm_num, by simp [Scaled.value]⟩
    rw [atof_of_digit (by decide)]
    have hzero : Nat.ofDigitChars 10 ['0'] 0 = 0 := rfl
    simp [magnitude, leadingDigits, exponentOf, hzero]
  · obtain ⟨c, cs, htext, hc⟩ := sixDigits_cons (significant 10 6 x)
    have hvalue := magnitude_sixDigits (significant 10 6 x)
    rw [if_neg hpos.not_gt, if_neg hpos.ne', general, htext, atof_of_digit hc, ← htext, hvalue,
      abs_of_pos hpos, ← significant_eq_iff (by decide) (by decide) hpos]

end Mammut.Utils
