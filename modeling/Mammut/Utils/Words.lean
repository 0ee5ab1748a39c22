import Mammut.Utils.Text

/-! What the searches and the splits of `utils.cpp` and its callers find in a text of words and
lines. -/

namespace Mammut.Utils

/-- The text of a file with these lines. -/
def ofLines (lines : List String) : String :=
  String.ofList (lines.flatMap fun line => line.toList ++ ['\n'])

theorem split_ofLines {lines : List String} (h : ∀ line ∈ lines, '\n' ∉ line.toList) :
    split (ofLines lines) '\n' = lines := by
  rw [split, ofLines, String.toList_ofList]
  induction lines with
  | nil => rfl
  | cons line lines ih =>
    obtain ⟨hline, hlines⟩ := List.forall_mem_cons.mp h
    rw [List.flatMap_cons, List.append_assoc, List.singleton_append, splitFrom_field hline,
      ih hlines, List.reverse_nil, List.nil_append, String.ofList_toList]

theorem startsWith_iff_prefix {s what : String} :
    startsWith s what = true ↔ what.toList <+: s.toList :=
  List.isPrefixOf_iff_prefix

theorem contains_iff {s what : String} :
    contains s what = true ↔ what.toList <:+: s.toList := by
  show contains.within what.toList s.toList = true ↔ _
  induction s.toList with
  | nil => simp [contains.within]
  | cons c text ih => simp [contains.within, ih, List.infix_cons_iff]

/-- What begins with a character is not found before that character is. -/
theorem infix_skip {c : Char} {first what rest : List Char} (h : c ∉ first) :
    c :: what <:+: first ++ rest ↔ c :: what <:+: rest := by
  induction first with
  | nil => rfl
  | cons d first ih =>
    rw [List.mem_cons, not_or] at h
    rw [List.cons_append, List.infix_cons_iff, ih h.2]
    apply or_iff_right
    intro hprefix
    exact h.1 (List.cons_prefix_cons.mp hprefix).1

section Between

variable {delim : Char} {f first : List Char} {words : List String}

/-- The word before a delimiter is the only one. -/
theorem word_unique {w rest others : List Char} (hf : delim ∉ f) (hw : delim ∉ w)
    (h : f ++ delim :: rest = w ++ delim :: others) : f = w := by
  have htake {v : List Char} (hv : delim ∉ v) (tail : List Char) :
      (v ++ delim :: tail).takeWhile (· ≠ delim) = v := by
    rw [List.takeWhile_append_of_pos fun c hc => ?_, List.takeWhile_cons_of_neg (by simp),
      List.append_nil]
    exact decide_eq_true fun heq => hv (heq ▸ hc)
  rw [← htake hf rest, h, htake hw]

/-- A text without the delimiter begins others just when it begins their first word. -/
theorem prefix_words_iff (hf : delim ∉ f) :
    f <+: first ++ words.flatMap (fun w => delim :: w.toList) ↔ f <+: first := by
  induction f generalizing first with
  | nil => simp
  | cons c f ih =>
    rw [List.mem_cons, not_or] at hf
    cases first with
    | nil =>
      cases words with
      | nil => simp
      | cons w words =>
        have hne : c ≠ delim := Ne.symm hf.1
        simp [hne]
    | cons d first =>
      rw [List.cons_append, List.cons_prefix_cons, List.cons_prefix_cons, ih hf.2]

/-- A word ends where the text's first one does just when another follows it. -/
theorem word_prefix_iff (hf : delim ∉ f) (hfirst : delim ∉ first) :
    f ++ [delim] <+: first ++ words.flatMap (fun w => delim :: w.toList) ↔
      words ≠ [] ∧ f = first := by
  cases words with
  | nil =>
    refine iff_of_false (fun hprefix => hfirst ?_) fun h => h.1 rfl
    exact (List.append_nil first ▸ hprefix).subset (by simp)
  | cons w words =>
    rw [and_iff_right (List.cons_ne_nil w words), List.flatMap_cons, List.cons_append]
    constructor
    · rintro ⟨rest, hrest⟩
      rw [List.append_assoc, List.singleton_append] at hrest
      exact word_unique hf hfirst hrest
    · rintro rfl
      exact ⟨w.toList ++ words.flatMap fun w => delim :: w.toList, by simp⟩

/-- A word is found between two delimiters just when it follows one and is not the last. -/
theorem between_iff (hf : delim ∉ f) (hfirst : delim ∉ first)
    (hwords : ∀ w ∈ words, delim ∉ w.toList) :
    delim :: (f ++ [delim]) <:+: first ++ words.flatMap (fun w => delim :: w.toList) ↔
      String.ofList f ∈ words.dropLast := by
  induction words generalizing first with
  | nil =>
    rw [List.flatMap_nil, infix_skip hfirst]
    simp
  | cons w words ih =>
    obtain ⟨hw, hrest⟩ := List.forall_mem_cons.mp hwords
    rw [infix_skip hfirst, List.flatMap_cons, List.cons_append, List.infix_cons_iff,
      List.cons_prefix_cons, and_iff_right rfl, word_prefix_iff hf hw, ih hw hrest]
    cases words with
    | nil => simp
    | cons v words =>
      have heq : f = w.toList ↔ String.ofList f = w := by
        rw [← String.toList_inj, String.toList_ofList]
      simp [heq]

/-- A text without the delimiter that ends it. -/
def beforeEnd (delim : Char) (text : List Char) : List Char :=
  if text.getLast? = some delim then text.dropLast else text

theorem beforeEnd_cons {c : Char} {text : List Char} (h : text ≠ [] ∨ c ≠ delim) :
    beforeEnd delim (c :: text) = c :: beforeEnd delim text := by
  cases text with
  | nil =>
    have hc : c ≠ delim := h.resolve_left fun hne => hne rfl
    simp [beforeEnd, hc]
  | cons d text =>
    rw [beforeEnd, beforeEnd, List.getLast?_cons_cons, List.dropLast_cons_cons]
    split <;> rfl

/-- The fields of a text are what stands between its delimiters, apart from one at its end. -/
theorem splitFrom_fields {item : List Char} (hitem : delim ∉ item) (text : List Char)
    (hne : item ++ text ≠ []) : ∃ first words, splitFrom delim item text = first :: words ∧
      delim ∉ first.toList ∧ (∀ w ∈ words, delim ∉ w.toList) ∧
      item.reverse ++ beforeEnd delim text =
        first.toList ++ words.flatMap fun w => delim :: w.toList := by
  induction text generalizing item with
  | nil =>
    cases item with
    | nil => exact absurd rfl hne
    | cons c item =>
      refine ⟨String.ofList (c :: item).reverse, [], rfl, ?_, by simp, by simp [beforeEnd]⟩
      rwa [String.toList_ofList, List.mem_reverse]
  | cons d text ih =>
    rw [splitFrom]
    by_cases hd : d = delim
    · subst hd
      have hfield : d ∉ (String.ofList item.reverse).toList := by
        rwa [String.toList_ofList, List.mem_reverse]
      cases text with
      | nil =>
        rw [if_pos rfl]
        exact ⟨_, [], rfl, hfield, by simp, by simp [beforeEnd]⟩
      | cons c text =>
        obtain ⟨first, words, hsplit, hfirst, hwords, hjoin⟩ :=
          ih (List.not_mem_nil (a := d)) (List.cons_ne_nil c text)
        rw [List.reverse_nil, List.nil_append] at hjoin
        rw [if_pos rfl, hsplit, beforeEnd_cons (.inl (List.cons_ne_nil c text)), hjoin]
        exact ⟨_, first :: words, rfl, hfield, List.forall_mem_cons.mpr ⟨hfirst, hwords⟩, by simp⟩
    · have hnext : delim ∉ d :: item := by simpa using ⟨Ne.symm hd, hitem⟩
      obtain ⟨first, words, hsplit, hfirst, hwords, hjoin⟩ := ih hnext (List.cons_ne_nil _ _)
      rw [if_neg hd, hsplit, beforeEnd_cons (.inr hd)]
      refine ⟨first, words, rfl, hfirst, hwords, ?_⟩
      rw [← hjoin]
      simp

theorem splitFrom_join {c : Char} (hc : c ≠ delim) {item : List Char} (hitem : delim ∉ item)
    (text : List Char) : ∃ first words, splitFrom delim item (text ++ [c]) = first :: words ∧
      delim ∉ first.toList ∧ (∀ w ∈ words, delim ∉ w.toList) ∧
      item.reverse ++ (text ++ [c]) = first.toList ++ words.flatMap fun w => delim :: w.toList := by
  have hend : beforeEnd delim (text ++ [c]) = text ++ [c] := by
    rw [beforeEnd, if_neg]
    simp [hc]
  have hfields := splitFrom_fields hitem (text ++ [c]) (by simp)
  rwa [hend] at hfields

/-- What stands before a delimiter has one field more than it has delimiters. -/
theorem splitFrom_before (item before rest : List Char) :
    ∃ fields, splitFrom delim item (before ++ delim :: rest) =
        fields ++ splitFrom delim [] rest ∧ fields.length = before.count delim + 1 := by
  induction before generalizing item with
  | nil =>
    rw [List.nil_append, splitFrom, if_pos rfl]
    exact ⟨[String.ofList item.reverse], rfl, rfl⟩
  | cons c before ih =>
    rw [List.cons_append, splitFrom]
    by_cases hc : c = delim
    · obtain ⟨fields, hsplit, hlength⟩ := ih []
      rw [if_pos hc, hsplit]
      exact ⟨_ :: fields, rfl, by simp [hlength, hc]⟩
    · obtain ⟨fields, hsplit, hlength⟩ := ih (c :: item)
      rw [if_neg hc, hsplit]
      exact ⟨fields, rfl, by rw [hlength, List.count_cons_of_ne hc]⟩

/-- Joined words have a delimiter for each of them but the first. -/
theorem count_words (hfirst : delim ∉ first) (hwords : ∀ w ∈ words, delim ∉ w.toList) :
    (first ++ words.flatMap fun w => delim :: w.toList).count delim = words.length := by
  induction words generalizing first with
  | nil => simpa using List.count_eq_zero_of_not_mem hfirst
  | cons w words ih =>
    obtain ⟨hw, hrest⟩ := List.forall_mem_cons.mp hwords
    rw [List.flatMap_cons, List.count_append, List.cons_append, List.count_cons_self, ih hw hrest,
      List.count_eq_zero_of_not_mem hfirst, List.length_cons]
    omega

theorem toList_intercalate_words (first : String) (words : List String) :
    ((String.singleton delim).intercalate (first :: words)).toList =
      first.toList ++ words.flatMap fun w => delim :: w.toList := by
  rw [String.toList_intercalate]
  induction words generalizing first with
  | nil => simp
  | cons w words ih =>
    rw [List.map_cons, List.map_cons, List.intercalate_cons_cons, ← List.map_cons, ih]
    simp

end Between

/-- A word is found between two spaces just when it is one of the fields, neither the first nor the
last. -/
theorem contains_between_iff {s f : String} {text : List Char} {c : Char}
    (hs : s.toList = text ++ [c]) (hc : c ≠ ' ') (hf : ' ' ∉ f.toList) :
    contains s (" " ++ f ++ " ") = true ↔ f ∈ (split s ' ').tail.dropLast := by
  obtain ⟨first, words, hsplit, hfirst, hwords, hjoin⟩ :=
    splitFrom_join hc (List.not_mem_nil (a := ' ')) text
  have hwhat : (" " ++ f ++ " ").toList = ' ' :: (f.toList ++ [' ']) := by simp
  rw [List.reverse_nil, List.nil_append] at hjoin
  rw [contains_iff, hwhat, hs, hjoin, between_iff hf hfirst hwords, split, hs, hsplit,
    String.ofList_toList]
  rfl

section Split

variable (s : String) (delim : Char)

theorem not_mem_split : ∀ token ∈ split s delim, delim ∉ token.toList := by
  by_cases hs : s = ""
  · subst hs
    exact fun token htoken => absurd htoken List.not_mem_nil
  · obtain ⟨first, words, hsplit, hfirst, hwords, -⟩ :=
      splitFrom_fields (List.not_mem_nil (a := delim)) s.toList (by simpa using hs)
    rw [split, hsplit]
    exact List.forall_mem_cons.mpr ⟨hfirst, hwords⟩

theorem intercalate_split : ((String.singleton delim).intercalate (split s delim)).toList =
    beforeEnd delim s.toList := by
  by_cases hs : s = ""
  · subst hs
    rfl
  · obtain ⟨first, words, hsplit, -, -, hjoin⟩ :=
      splitFrom_fields (List.not_mem_nil (a := delim)) s.toList (by simpa using hs)
    rw [split, hsplit, toList_intercalate_words, ← hjoin]
    rfl

theorem length_split (hs : s ≠ "") :
    (split s delim).length = (beforeEnd delim s.toList).count delim + 1 := by
  obtain ⟨first, words, hsplit, hfirst, hwords, hjoin⟩ :=
    splitFrom_fields (List.not_mem_nil (a := delim)) s.toList (by simpa using hs)
  rw [List.reverse_nil, List.nil_append] at hjoin
  rw [split, hsplit, hjoin, count_words hfirst hwords, List.length_cons]

theorem count_beforeEnd (text : List Char) : text.count delim =
    (beforeEnd delim text).count delim + if text.getLast? = some delim then 1 else 0 := by
  rw [beforeEnd]
  split
  · next hlast =>
    obtain ⟨before, rfl⟩ := List.getLast?_eq_some_iff.mp hlast
    simp
  · rfl

/-- `split` undoes a join with the delimiter, and keeps the empty fields. -/
theorem split_fields :
    (∀ token ∈ split s delim, delim ∉ token.toList) ∧
    (String.singleton delim).intercalate (split s delim) =
      (if s.toList.getLast? = some delim then String.ofList s.toList.dropLast else s) ∧
    split "" delim = [] ∧
    (split s delim).length + (if s = "" ∨ s.toList.getLast? = some delim then 1 else 0) =
      s.toList.count delim + 1 ∧
    ∀ before after, s.toList = before ++ delim :: delim :: after →
      (split s delim)[before.count delim + 1]? = some "" := by
  refine ⟨not_mem_split s delim, ?_, rfl, ?_, fun before after hs => ?_⟩
  · rw [← String.toList_inj, intercalate_split, beforeEnd]
    split
    · rw [String.toList_ofList]
    · rfl
  · by_cases hs : s = ""
    · subst hs
      simp [split, splitFrom]
    · rw [length_split s delim hs, count_beforeEnd delim s.toList]
      simp only [hs, false_or]
      omega
  · obtain ⟨fields, hsplit, hlength⟩ := splitFrom_before [] before (delim :: after)
    rw [split, hs, hsplit, splitFrom, if_pos rfl, ← hlength]
    simp

end Split

/-- The words that `>>` reads after the characters `word`, in reverse order, of one. -/
def wordsFrom : List Char → List Char → List String
  | [], [] => []
  | c :: word, [] => [String.ofList (c :: word).reverse]
  | [], c :: cs => if isSpace c then wordsFrom [] cs else wordsFrom [c] cs
  | d :: word, c :: cs =>
    if isSpace c then String.ofList (d :: word).reverse :: wordsFrom [] cs
    else wordsFrom (c :: d :: word) cs

/-- What a loop over `>>` reads. -/
def words (s : String) : List String := wordsFrom [] s.toList

theorem mem_wordsFrom {word text : List Char} (hword : ∀ c ∈ word, isSpace c = false) {w : String}
    (hw : w ∈ wordsFrom word text) : w.toList ≠ [] ∧ ∀ c ∈ w.toList, isSpace c = false := by
  induction text generalizing word with
  | nil =>
    cases word with
    | nil => exact absurd hw List.not_mem_nil
    | cons d word =>
      rw [List.mem_singleton.mp hw, String.toList_ofList]
      exact ⟨by simp, fun c hc => hword c (List.mem_reverse.mp hc)⟩
  | cons c text ih =>
    cases word with
    | nil =>
      rw [wordsFrom] at hw
      split at hw
      · exact ih (by simp) hw
      · next hc => exact ih (by simpa using hc) hw
    | cons d word =>
      rw [wordsFrom] at hw
      split at hw
      · rcases List.mem_cons.mp hw with rfl | hrest
        · rw [String.toList_ofList]
          exact ⟨by simp, fun c hc => hword c (List.mem_reverse.mp hc)⟩
        · exact ih (by simp) hrest
      · next hc =>
        exact ih (List.forall_mem_cons.mpr ⟨by simpa using hc, hword⟩) hw

/-- A word is the first of itself. -/
theorem firstWord_eq_self {w : String} (hne : w ≠ "") (hspace : ∀ c ∈ w.toList, isSpace c = false) :
    firstWord w = w := by
  have hdrop : w.toList.dropWhile isSpace = w.toList := by
    cases hlist : w.toList with
    | nil => exact absurd (String.toList_eq_nil_iff.mp hlist) hne
    | cons c cs => exact List.dropWhile_cons_of_neg (by simp [hspace c (by simp [hlist])])
  have hall : ∀ c ∈ w.toList, (!isSpace c) = true := by simpa using hspace
  rw [firstWord, hdrop, List.takeWhile_eq_self_iff.mpr hall, String.ofList_toList]

theorem firstWord_of_mem_words {s w : String} (hw : w ∈ words s) : firstWord w = w := by
  obtain ⟨hne, hspace⟩ := mem_wordsFrom (by simp) hw
  exact firstWord_eq_self (fun hempty => hne (by rw [hempty]; rfl)) hspace

/-- The digits of a number after its sign, and whether this is a minus. -/
def signed : List Char → Bool × List Char
  | '-' :: digits => (true, digits)
  | '+' :: digits => (false, digits)
  | digits => (false, digits)

/-- `>>` to an `uint`, with what it leaves of the text.  It fails where there is no number, and at
one that is too large. -/
def readUint (text : List Char) : Option (UInt32 × List Char) :=
  let (negative, digits) := signed (text.dropWhile isSpace)
  let n := leadingDigits digits
  if digits.takeWhile Char.isDigit = [] ∨ 2 ^ 32 ≤ n then none
  else some (if negative then -UInt32.ofNat n else UInt32.ofNat n, digits.dropWhile Char.isDigit)

/-- A loop over `>>`, of at most `n` numbers. -/
def readUintsFrom : ℕ → List Char → List UInt32
  | 0, _ => []
  | n + 1, text =>
    match readUint text with
    | none => []
    | some (number, rest) => number :: readUintsFrom n rest

/-- What a loop over `>>` reads: each number has a character. -/
def readUints (s : String) : List UInt32 := readUintsFrom s.toList.length s.toList

/-- A number is read where another character follows its digits. -/
theorem readUint_digits (v : UInt32) {before rest : List Char} (hbefore : ∀ c ∈ before, isSpace c)
    (hrest : ∀ c ∈ rest.head?, c.isDigit = false) :
    readUint (before ++ ((intToString v.toNat).toList ++ rest)) = some (v, rest) := by
  obtain ⟨c, cs, hdigits, hc⟩ := toDigits_cons v.toNat
  have hall : ∀ d ∈ Nat.toDigits 10 v.toNat, d.isDigit := fun d hd =>
    Nat.isDigit_of_mem_toDigits (by decide) (by decide) hd
  have hdrop : (before ++ (Nat.toDigits 10 v.toNat ++ rest)).dropWhile isSpace =
      Nat.toDigits 10 v.toNat ++ rest := by
    rw [List.dropWhile_append_of_pos hbefore, hdigits, List.cons_append,
      List.dropWhile_cons_of_neg (by simp [isSpace_of_isDigit hc])]
  have hsigned : signed (Nat.toDigits 10 v.toNat ++ rest) =
      (false, Nat.toDigits 10 v.toNat ++ rest) := by
    rw [hdigits, List.cons_append]
    unfold signed
    split
    · next heq => cases heq; exact absurd hc (by decide)
    · next heq => cases heq; exact absurd hc (by decide)
    · rfl
  have htake : rest.takeWhile Char.isDigit = [] := by
    cases rest with
    | nil => rfl
    | cons d rest => exact List.takeWhile_cons_of_neg (by simp [hrest d rfl])
  have hleave : rest.dropWhile Char.isDigit = rest := by
    cases rest with
    | nil => rfl
    | cons d rest => exact List.dropWhile_cons_of_neg (by simp [hrest d rfl])
  have hvalue : leadingDigits (Nat.toDigits 10 v.toNat ++ rest) = v.toNat := by
    rw [leadingDigits, List.takeWhile_append_of_pos hall, htake, List.append_nil,
      Nat.ofDigitChars_ten_toDigits]
  have hnumber : (Nat.toDigits 10 v.toNat ++ rest).takeWhile Char.isDigit ≠ [] := by
    rw [hdigits, List.cons_append, List.takeWhile_cons_of_pos hc]
    exact List.cons_ne_nil _ _
  have hfits : ¬2 ^ 32 ≤ v.toNat := Nat.not_le.mpr v.toNat_lt
  rw [readUint, toList_intToString, hdrop, hsigned]
  simp only [hvalue, hnumber, hfits, or_self, if_false, Bool.false_eq_true,
    List.dropWhile_append_of_pos hall, hleave, UInt32.ofNat_toNat]

theorem readUintsFrom_words (first : UInt32) (rest : List UInt32) {n : ℕ} {before : List Char}
    (hbefore : ∀ c ∈ before, isSpace c) (hn : rest.length < n) :
    readUintsFrom n (before ++ ((intToString first.toNat).toList ++
      (rest.flatMap (fun v => ' ' :: (intToString v.toNat).toList) ++ ['\n']))) =
      first :: rest := by
  induction rest generalizing first n before with
  | nil =>
    obtain ⟨m, rfl⟩ := Nat.exists_eq_succ_of_ne_zero (Nat.ne_of_gt hn)
    have hend : readUintsFrom m ['\n'] = [] := by cases m <;> rfl
    rw [readUintsFrom, readUint_digits first hbefore (by simp)]
    simp only [List.flatMap_nil, List.nil_append, hend]
  | cons v rest ih =>
    obtain ⟨m, rfl⟩ := Nat.exists_eq_succ_of_ne_zero (Nat.ne_of_gt (Nat.zero_lt_of_lt hn))
    rw [readUintsFrom, readUint_digits first hbefore (by simp)]
    have hrest := @ih v m [' '] (by simp [isSpace]) (by
      rw [List.length_cons] at hn
      omega)
    simpa using hrest

end Mammut.Utils
