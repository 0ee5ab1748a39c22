import Mathlib.Algebra.Group.Int.Defs
import Mathlib.Algebra.Group.Nat.Defs
import Mathlib.Data.List.TakeWhile

/-! The text functions of `utils.cpp`: numbers and the fields of a line. -/

namespace Mammut.Utils

/-- `intToString`: `out << x`. -/
def intToString (x : Int) : String := toString x

/-- `isspace` in the "C" locale. -/
def isSpace (c : Char) : Bool :=
  c = ' ' || c = '\t' || c = '\n' || c = '\x0b' || c = '\x0c' || c = '\r'

/-- The bytes of a `std::string`, each of which is a character. -/
def bytesOf (s : String) : List UInt8 := s.toList.map Char.toUInt8

def ofBytes (bytes : List UInt8) : String := String.ofList (bytes.map Char.ofUInt8)

@[simp] theorem bytesOf_ofBytes (bytes : List UInt8) : bytesOf (ofBytes bytes) = bytes := by
  have hbyte (b : UInt8) : (Char.ofUInt8 b).toUInt8 = b := UInt8.toUInt8_toUInt32 b
  simp [bytesOf, ofBytes, Function.comp_def, hbyte]

/-- The characters of the text are bytes. -/
def IsBytes (s : String) : Prop := ∀ c ∈ s.toList, c.toNat < 256

instance (s : String) : Decidable (IsBytes s) :=
  List.decidableBAll (fun c : Char => c.toNat < 256) s.toList

theorem ofBytes_bytesOf {s : String} (h : IsBytes s) : ofBytes (bytesOf s) = s := by
  have hback : s.toList.map (Char.ofUInt8 ∘ Char.toUInt8) = s.toList := by
    apply (List.map_congr_left fun c hc => ?_).trans (List.map_id _)
    have hlt : c.toNat < 256 := h c hc
    apply Char.ext
    apply UInt32.toNat_inj.mp
    show c.val.toUInt8.toUInt32.toNat = c.val.toNat
    rw [UInt8.toNat_toUInt32, UInt32.toNat_toUInt8]
    exact Nat.mod_eq_of_lt hlt
  rw [ofBytes, bytesOf, List.map_map, hback, String.ofList_toList]

theorem isBytes_ofBytes (bytes : List UInt8) : IsBytes (ofBytes bytes) := by
  intro c hc
  rw [ofBytes, String.toList_ofList, List.mem_map] at hc
  obtain ⟨b, -, rfl⟩ := hc
  show b.toUInt32.toNat < 256
  rw [UInt8.toNat_toUInt32]
  exact b.toNat_lt

/-- The first line, as `getline` reads it. -/
def firstLine (s : String) : String := String.ofList (s.toList.takeWhile (· ≠ '\n'))

/-- `compare` with a text of the same beginning, or `find` with the result 0. -/
def startsWith (s what : String) : Bool := what.toList.isPrefixOf s.toList

/-- `find` with a result other than `npos`. -/
def contains (s what : String) : Bool := within what.toList s.toList
where
  within (what : List Char) : List Char → Bool
    | [] => what = []
    | c :: cs => what.isPrefixOf (c :: cs) || within what cs

def ltrim (s : String) : String := String.ofList (s.toList.dropWhile isSpace)

/-- What a `const char*` shows of a text. -/
def cString (s : String) : String := String.ofList (s.toList.takeWhile (· ≠ '\x00'))

/-- The first word, as `>>` reads it. -/
def firstWord (s : String) : String :=
  String.ofList ((s.toList.dropWhile isSpace).takeWhile (!isSpace ·))

/-- The number that a text's leading digits spell. -/
def leadingDigits (cs : List Char) : ℕ := Nat.ofDigitChars 10 (cs.takeWhile Char.isDigit) 0

/-- `atoi`: white space, a sign, and the digits that follow. -/
def atoi (s : String) : Int :=
  match s.toList.dropWhile isSpace with
  | '-' :: cs => -(leadingDigits cs : Int)
  | '+' :: cs => leadingDigits cs
  | cs => leadingDigits cs

/-- `stringToInt`. -/
def stringToInt (s : String) : Int := atoi s

/-- The `int` for the number that `atoi` reads: it is read by `strtol`, which stays within a `long`,
and keeps its 32 low bits. -/
def intOf (x : Int) : Int := (BitVec.ofInt 32 (max (-2 ^ 63) (min x (2 ^ 63 - 1)))).toInt

theorem intOf_eq_self {x : Int} (hlow : -2 ^ 31 ≤ x) (hhigh : x < 2 ^ 31) : intOf x = x := by
  rw [intOf, Int.min_eq_left (by omega), Int.max_eq_right (by omega), BitVec.toInt_ofInt]
  exact Int.bmod_eq_of_le (by omega) (by omega)

/-- A number that is no `int` is read as a smaller one. -/
theorem intOf_le {x : Int} (h : 0 ≤ x) : intOf x ≤ x ∧ (intOf x = x ↔ x < 2 ^ 31) := by
  have hbound : intOf x < 2 ^ 31 := BitVec.toInt_lt
  by_cases hfits : x < 2 ^ 31
  · rw [intOf_eq_self (by omega) hfits]
    exact ⟨Int.le_refl x, fun _ => hfits, fun _ => rfl⟩
  · exact ⟨by omega, fun heq => by omega, fun hlt => absurd hlt hfits⟩

/-- As an `uint` it has the bits of the number. -/
theorem ofInt_intOf {x : Int} (hlow : -2 ^ 63 ≤ x) (hhigh : x < 2 ^ 63) :
    BitVec.ofInt 32 (intOf x) = BitVec.ofInt 32 x := by
  rw [intOf, Int.min_eq_left (by omega), Int.max_eq_right (by omega), BitVec.ofInt_toInt]

/-- The `uint` with the bits of an `int`. -/
def uintOf (x : Int) : ℕ := (BitVec.ofInt 32 x).toNat

/-- `dashedRangeToIntegers`: where there is no dash, the position after it is the first. -/
def dashedRangeToIntegers (dashedRange : String) : Int × Int :=
  let text := dashedRange.toList
  let rangeStart := String.ofList (text.takeWhile (· ≠ '-'))
  let rangeStop := String.ofList (if '-' ∈ text then (text.dropWhile (· ≠ '-')).tail else text)
  (intOf (stringToInt rangeStart), intOf (stringToInt rangeStop))

/-- `split` after the characters `item`, in reverse order, of a field: `getline` ends a field at
`delim`, and the end of the text ends one only if it has a character. -/
def splitFrom (delim : Char) : List Char → List Char → List String
  | [], [] => []
  | c :: item, [] => [String.ofList (c :: item).reverse]
  | item, c :: cs =>
    if c = delim then String.ofList item.reverse :: splitFrom delim [] cs
    else splitFrom delim (c :: item) cs

/-- `split`: the fields of `s` between the characters `delim`. -/
def split (s : String) (delim : Char) : List String := splitFrom delim [] s.toList

theorem splitFrom_field {delim : Char} {field : List Char} (hdelim : delim ∉ field)
    (item rest : List Char) : splitFrom delim item (field ++ delim :: rest) =
      String.ofList (item.reverse ++ field) :: splitFrom delim [] rest := by
  induction field generalizing item with
  | nil => simp [splitFrom]
  | cons c field ih =>
    rw [List.mem_cons, not_or] at hdelim
    rw [List.cons_append, splitFrom, if_neg (Ne.symm hdelim.1), ih hdelim.2]
    simp

theorem splitFrom_last {delim : Char} {field item : List Char} (hdelim : delim ∉ field)
    (hne : item ++ field ≠ []) :
    splitFrom delim item field = [String.ofList (item.reverse ++ field)] := by
  induction field generalizing item with
  | nil =>
    cases item with
    | nil => exact absurd rfl hne
    | cons c item => simp [splitFrom]
  | cons c field ih =>
    rw [List.mem_cons, not_or] at hdelim
    rw [splitFrom, if_neg (Ne.symm hdelim.1), ih hdelim.2 (by simp)]
    simp

/-- A field goes on with characters other than the delimiter. -/
theorem splitFrom_append {delim : Char} {field : List Char} (hdelim : delim ∉ field)
    (item rest : List Char) :
    splitFrom delim item (field ++ rest) = splitFrom delim (field.reverse ++ item) rest := by
  induction field generalizing item with
  | nil => rfl
  | cons c field ih =>
    rw [List.mem_cons, not_or] at hdelim
    rw [List.cons_append, splitFrom, if_neg (Ne.symm hdelim.1), ih hdelim.2]
    simp

/-- Words that each follow a delimiter are the fields after the one that they end. -/
theorem splitFrom_words {delim : Char} {words : List String} {item : List Char}
    (hwords : ∀ w ∈ words, delim ∉ w.toList ∧ w ≠ "") (hne : item ≠ [] ∨ words ≠ []) :
    splitFrom delim item (words.flatMap fun w => delim :: w.toList) =
      String.ofList item.reverse :: words := by
  induction words generalizing item with
  | nil =>
    cases item with
    | nil => simp at hne
    | cons c item => rfl
  | cons w words ih =>
    obtain ⟨hdelim, hw⟩ := hwords w List.mem_cons_self
    have hitem : w.toList.reverse ++ [] ≠ [] := by simpa using hw
    have hrest := ih (fun v hv => hwords v (List.mem_cons_of_mem _ hv)) (.inl hitem)
    rw [List.flatMap_cons, List.cons_append, splitFrom, if_pos rfl, splitFrom_append hdelim, hrest]
    simp

/-- Words that follow a text which does not end with the delimiter come after its fields. -/
theorem splitFrom_text_words {delim c : Char} {words : List String} (hc : c ≠ delim)
    (hwords : ∀ w ∈ words, delim ∉ w.toList ∧ w ≠ "") (item text : List Char) :
    splitFrom delim item (text ++ c :: words.flatMap fun w => delim :: w.toList) =
      splitFrom delim item (text ++ [c]) ++ words := by
  induction text generalizing item with
  | nil =>
    have hitem : c :: item ≠ [] := List.cons_ne_nil c item
    rw [List.nil_append, splitFrom, if_neg hc, splitFrom_words hwords (.inl hitem), List.nil_append,
      splitFrom, if_neg hc]
    rfl
  | cons d text ih =>
    rw [List.cons_append, List.cons_append, splitFrom, splitFrom]
    split
    · rw [ih]
      rfl
    · exact ih _

/-- The last field of a text has its last character. -/
theorem splitFrom_last_mem {delim c : Char} (hc : c ≠ delim) (item text : List Char) :
    ∃ fields last, splitFrom delim item (text ++ [c]) = fields ++ [last] ∧ c ∈ last.toList ∧
      (delim ∈ text → fields ≠ []) := by
  induction text generalizing item with
  | nil =>
    refine ⟨[], String.ofList (c :: item).reverse, ?_, by simp, by simp⟩
    rw [List.nil_append, splitFrom, if_neg hc]
    rfl
  | cons d text ih =>
    rw [List.cons_append, splitFrom]
    by_cases hd : d = delim
    · obtain ⟨fields, last, hsplit, hlast, -⟩ := ih []
      rw [if_pos hd, hsplit]
      exact ⟨_ :: fields, last, rfl, hlast, fun _ => List.cons_ne_nil _ _⟩
    · obtain ⟨fields, last, hsplit, hlast, hne⟩ := ih (d :: item)
      rw [if_neg hd, hsplit]
      refine ⟨fields, last, rfl, hlast, fun hmem => hne ?_⟩
      exact (List.mem_cons.mp hmem).resolve_left (Ne.symm hd)

/-- A text that has characters has fields. -/
theorem splitFrom_ne_nil {delim : Char} {item text : List Char} (hne : item ++ text ≠ []) :
    splitFrom delim item text ≠ [] := by
  induction text generalizing item with
  | nil =>
    cases item with
    | nil => exact absurd rfl hne
    | cons c item => exact List.cons_ne_nil _ _
  | cons d text ih =>
    rw [splitFrom]
    split
    · exact List.cons_ne_nil _ _
    · exact ih (List.cons_ne_nil _ _)

theorem split_three {delim : Char} {s a b c : String}
    (hs : s.toList = a.toList ++ delim :: (b.toList ++ delim :: c.toList)) (ha : delim ∉ a.toList)
    (hb : delim ∉ b.toList) (hc : delim ∉ c.toList) (hne : c.toList ≠ []) :
    split s delim = [a, b, c] := by
  rw [split, hs, splitFrom_field ha, splitFrom_field hb, splitFrom_last hc hne]
  simp

theorem toList_intToString (n : ℕ) : (intToString n).toList = Nat.toDigits 10 n := by
  simp [intToString, Int.toString_eq_repr, Int.repr, Nat.toList_repr]

theorem toList_intToString_negSucc (n : ℕ) :
    (intToString (Int.negSucc n)).toList = '-' :: (intToString (n + 1 : ℕ)).toList := by
  rw [toList_intToString]
  simp [intToString, Int.toString_eq_repr, Int.repr, Nat.toList_repr]

theorem isDigit_of_mem_intToString {n : ℕ} {c : Char} (h : c ∈ (intToString n).toList) :
    c.isDigit := by
  rw [toList_intToString] at h
  exact Nat.isDigit_of_mem_toDigits (by decide) (by decide) h

theorem not_mem_intToString {c : Char} (hc : c.isDigit = false) (n : ℕ) :
    c ∉ (intToString n).toList := by
  intro hmem
  rw [isDigit_of_mem_intToString hmem] at hc
  cases hc

theorem intToString_ne_empty (n : ℕ) : intToString n ≠ "" := by
  intro hempty
  have htext := toList_intToString n
  rw [hempty] at htext
  exact Nat.toDigits_ne_nil htext.symm

theorem leadingDigits_toDigits (n : ℕ) : leadingDigits (Nat.toDigits 10 n) = n := by
  have digits : ∀ c ∈ Nat.toDigits 10 n, c.isDigit := fun c hc =>
    Nat.isDigit_of_mem_toDigits (by decide) (by decide) hc
  rw [leadingDigits, List.takeWhile_eq_self_iff.mpr digits, Nat.ofDigitChars_ten_toDigits]

theorem isSpace_of_isDigit {c : Char} (h : c.isDigit) : isSpace c = false := by
  have hc := h
  simp only [Char.isDigit, Bool.and_eq_true, decide_eq_true_eq] at hc
  simp only [isSpace, Bool.or_eq_false_iff, decide_eq_false_iff_not]
  refine ⟨⟨⟨⟨⟨?_, ?_⟩, ?_⟩, ?_⟩, ?_⟩, ?_⟩ <;> rintro rfl <;> revert h <;> decide

theorem toDigits_cons (n : ℕ) :
    ∃ c cs, Nat.toDigits 10 n = c :: cs ∧ c.isDigit := by
  cases h : Nat.toDigits 10 n with
  | nil => exact (Nat.toDigits_ne_nil h).elim
  | cons c cs =>
    have mem : c ∈ Nat.toDigits 10 n := by simp [h]
    exact ⟨c, cs, rfl, Nat.isDigit_of_mem_toDigits (by decide) (by decide) mem⟩

theorem takeWhile_append_of_mem {α : Type} {p : α → Bool} {l : List α} {a : α} (ha : a ∈ l)
    (hp : p a = false) (rest : List α) : (l ++ rest).takeWhile p = l.takeWhile p := by
  induction l with
  | nil => simp at ha
  | cons b l ih =>
    cases hb : p b with
    | false => simp [hb]
    | true =>
      have hne : a ≠ b := by
        rintro rfl
        simp [hp] at hb
      have hrest := ih ((List.mem_cons.mp ha).resolve_left hne)
      simp [hb, hrest]

/-- `atoi` reads the digits that a text begins with. -/
theorem stringToInt_digits (n : ℕ) {rest : List Char}
    (h : ∀ c ∈ rest.head?, c.isDigit = false) :
    stringToInt (String.ofList ((intToString n).toList ++ rest)) = n := by
  obtain ⟨c, cs, hdigits, hc⟩ := toDigits_cons n
  have hall : ∀ d ∈ (intToString n).toList, d.isDigit := fun d hd => isDigit_of_mem_intToString hd
  have hrest : rest.takeWhile Char.isDigit = [] := by
    cases rest with
    | nil => rfl
    | cons d rest => exact List.takeWhile_cons_of_neg (by simp [h d rfl])
  have hvalue : leadingDigits ((intToString n).toList ++ rest) = n := by
    rw [leadingDigits, List.takeWhile_append_of_pos hall, hrest, List.append_nil,
      toList_intToString, Nat.ofDigitChars_ten_toDigits]
  rw [toList_intToString, hdigits] at hvalue ⊢
  rw [stringToInt, atoi, String.toList_ofList, List.cons_append, List.dropWhile_cons_of_neg
    (by simp [isSpace_of_isDigit hc])]
  rw [List.cons_append] at hvalue
  split
  · simp_all
  · simp_all
  · rw [hvalue]

/-- A number that an `uint` holds is what it becomes as an `int` and back. -/
theorem uintOf_intOf {n : ℕ} (h : n < 2 ^ 32) : uintOf (intOf n) = n := by
  rw [uintOf, ofInt_intOf (by omega) (by omega), BitVec.toNat_ofInt]
  omega

theorem uintOf_lt (x : Int) : uintOf x < 2 ^ 32 := (BitVec.ofInt 32 x).isLt

/-- A text without the character that would end it. -/
theorem takeWhile_ne_eq_self {s : String} {last : Char} (h : last ∉ s.toList) :
    String.ofList (s.toList.takeWhile (· ≠ last)) = s := by
  have hall : ∀ c ∈ s.toList, decide (c ≠ last) = true := by
    intro c hc
    apply decide_eq_true
    rintro rfl
    exact h hc
  rw [List.takeWhile_eq_self_iff.mpr hall, String.ofList_toList]

theorem firstLine_eq_self {s : String} (h : '\n' ∉ s.toList) : firstLine s = s :=
  takeWhile_ne_eq_self h

theorem cString_eq_self {s : String} (h : '\x00' ∉ s.toList) : cString s = s :=
  takeWhile_ne_eq_self h

theorem firstLine_intToString (x : Int) : firstLine (intToString x) = intToString x := by
  apply firstLine_eq_self
  cases x with
  | ofNat n => exact not_mem_intToString (by decide) n
  | negSucc n =>
    rw [toList_intToString_negSucc, List.mem_cons, not_or]
    exact ⟨by decide, not_mem_intToString (by decide) (n + 1)⟩

/-- `atoi` reads back what `intToString` prints. -/
theorem atoi_intToString (x : Int) : atoi (intToString x) = x := by
  cases x with
  | ofNat n =>
    obtain ⟨c, cs, h, hc⟩ := toDigits_cons n
    have text : (intToString (Int.ofNat n)).toList = c :: cs := by
      rw [← h]
      exact toList_intToString n
    have value := leadingDigits_toDigits n
    rw [h] at value
    simp only [atoi, text, List.dropWhile_cons, isSpace_of_isDigit hc, Bool.false_eq_true,
      ite_false]
    split
    · simp_all
    · simp_all
    · rw [value]; rfl
  | negSucc n =>
    have text : (intToString (Int.negSucc n)).toList = '-' :: Nat.toDigits 10 (n + 1) := by
      rw [toList_intToString_negSucc, toList_intToString]
    have noSpace : isSpace '-' = false := by decide
    simp only [atoi, text, List.dropWhile_cons, noSpace, Bool.false_eq_true, ite_false,
      leadingDigits_toDigits]
    rfl

@[simp] theorem stringToInt_intToString (x : Int) : stringToInt (intToString x) = x :=
  atoi_intToString x

theorem intToString_injective : Function.Injective intToString :=
  Function.LeftInverse.injective stringToInt_intToString

end Mammut.Utils
