import Mammut.Topology.Scan
import Mammut.Utils.Words

/-! The list of cores that the kernel shows, and what the constructor of a `Topology` makes of it.
It reads the number that the list begins with and the one after its first dash, so it scans all of
the list exactly when this is a single item, or its only range is its last item. -/

set_option linter.dupNamespace false

namespace Mammut.Topology

open Kit.Programs Utils

/-- An identifier, or all of those from a first to a last one. -/
inductive CpuItem where
  | single (id : ℕ)
  | range (first last : ℕ)
  deriving DecidableEq, Repr

namespace CpuItem

def first : CpuItem → ℕ
  | single id => id
  | range first _ => first

def last : CpuItem → ℕ
  | single id => id
  | range _ last => last

/-- The end of a range. -/
def rangeEnd : CpuItem → Option ℕ
  | single _ => none
  | range _ last => some last

def ids (item : CpuItem) : List ℕ :=
  List.range' item.first (item.last + 1 - item.first)

def text : CpuItem → String
  | single id => intToString id
  | range first last => intToString first ++ "-" ++ intToString last

end CpuItem

/-- A list of items in the order of their identifiers. -/
structure CpuList where
  items : List CpuItem
  ordered : ∀ item ∈ items, item.first ≤ item.last
  increasing : items.Pairwise fun item next => item.last < next.first

namespace CpuList

def ids (l : CpuList) : List ℕ := l.items.flatMap CpuItem.ids

def text (l : CpuList) : String := ",".intercalate (l.items.map CpuItem.text)

/-- The number that the text begins with. -/
def lowest (l : CpuList) : ℕ := (l.items.head?.map CpuItem.first).getD 0

/-- The number after the first dash, or the one that the text begins with. -/
def highest (l : CpuList) : ℕ := (l.items.findSome? CpuItem.rangeEnd).getD l.lowest

/-- The lists that are scanned whole: those of one item, and those whose only range is the last
item. -/
def ReadWhole (l : CpuList) : Prop :=
  (∀ id ∈ l.ids, id < 2 ^ 32) ∧
    (l.items.length ≤ 1 ∨ ∃ (singles : List ℕ) (first last : ℕ),
      l.items = singles.map CpuItem.single ++ [CpuItem.range first last])

section Text

/-- Where the first range stands. -/
theorem first_range (items : List CpuItem) :
    (∃ singles : List ℕ, items = singles.map CpuItem.single ∧
      items.findSome? CpuItem.rangeEnd = none) ∨
    ∃ (singles : List ℕ) (first last : ℕ) (more : List CpuItem),
      items = singles.map CpuItem.single ++ CpuItem.range first last :: more ∧
      items.findSome? CpuItem.rangeEnd = some last := by
  induction items with
  | nil => exact .inl ⟨[], rfl, rfl⟩
  | cons item items ih =>
    cases item with
    | range first last => exact .inr ⟨[], first, last, items, rfl, rfl⟩
    | single id =>
      rcases ih with ⟨singles, rfl, hnone⟩ | ⟨singles, first, last, more, rfl, hsome⟩
      · exact .inl ⟨id :: singles, rfl, hnone⟩
      · exact .inr ⟨id :: singles, first, last, more, rfl, hsome⟩

/-- The text of the items that follow one. -/
def tailText (items : List CpuItem) : List Char :=
  (items.map CpuItem.text).flatMap fun w => ',' :: w.toList

theorem tailText_head (items : List CpuItem) :
    ∀ c ∈ (tailText items).head?, c.isDigit = false := by
  cases items with
  | nil => simp [tailText]
  | cons item items =>
    intro c hc
    have hcomma : c = ',' := by simpa [tailText, eq_comm] using hc
    rw [hcomma]
    decide

theorem not_mem_tailText (singles : List ℕ) :
    '-' ∉ tailText (singles.map CpuItem.single) := by
  induction singles with
  | nil => simp [tailText]
  | cons id singles ih =>
    have hid : '-' ∉ (intToString id).toList := not_mem_intToString (by decide) id
    have hcons : tailText ((id :: singles).map CpuItem.single) =
        ',' :: ((intToString id).toList ++ tailText (singles.map CpuItem.single)) := rfl
    rw [hcons, List.mem_cons, List.mem_append, not_or, not_or]
    exact ⟨by decide, hid, ih⟩

theorem tailText_append (items more : List CpuItem) :
    tailText (items ++ more) = tailText items ++ tailText more := by
  rw [tailText, List.map_append, List.flatMap_append]
  rfl

theorem tailText_range (first last : ℕ) (more : List CpuItem) :
    tailText (CpuItem.range first last :: more) = ',' :: (intToString first).toList ++
      '-' :: ((intToString last).toList ++ tailText more) := by
  simp [tailText, CpuItem.text]

theorem text_cons {l : CpuList} {item : CpuItem} {items : List CpuItem}
    (h : l.items = item :: items) : l.text.toList = item.text.toList ++ tailText items := by
  have hcomma : "," = String.singleton ',' := rfl
  rw [text, h, List.map_cons, hcomma]
  exact toList_intercalate_words item.text (items.map CpuItem.text)

/-- What stands before the first dash begins with the first identifier. -/
theorem stringToInt_before {id : ℕ} {rest : List Char}
    (h : ∀ c ∈ rest.head?, c.isDigit = false) : stringToInt (String.ofList
      (((intToString id).toList ++ rest).takeWhile (· ≠ '-'))) = id := by
  have hall : ∀ c ∈ (intToString id).toList, decide (c ≠ '-') = true := by
    intro c hc
    apply decide_eq_true
    rintro rfl
    exact not_mem_intToString (by decide) id hc
  rw [List.takeWhile_append_of_pos hall]
  refine stringToInt_digits id fun c hc => ?_
  cases rest with
  | nil => simp at hc
  | cons d rest =>
    rw [List.takeWhile_cons] at hc
    split_ifs at hc
    · exact h c hc
    · simp at hc

/-- What stands after the first dash begins with the identifier that ends the range. -/
theorem after_dash {before rest : List Char} (h : '-' ∉ before) :
    ((before ++ '-' :: rest).dropWhile (· ≠ '-')).tail = rest := by
  induction before with
  | nil => simp
  | cons c before ih =>
    rw [List.mem_cons, not_or] at h
    rw [List.cons_append, List.dropWhile_cons, if_pos (decide_eq_true (Ne.symm h.1))]
    exact ih h.2

/-- The text begins with the first identifier. -/
theorem text_first {l : CpuList} {item : CpuItem} {items : List CpuItem}
    (h : l.items = item :: items) :
    ∃ rest, l.text.toList = (intToString item.first).toList ++ rest ∧
      ∀ c ∈ rest.head?, c.isDigit = false := by
  cases item with
  | single id =>
    have hsingle : (CpuItem.single id).text = intToString id := rfl
    refine ⟨tailText items, ?_, tailText_head items⟩
    rw [text_cons h, hsingle, CpuItem.first]
  | range first last =>
    refine ⟨'-' :: ((intToString last).toList ++ tailText items), ?_, ?_⟩
    · rw [text_cons h]
      simp [CpuItem.text, CpuItem.first]
    · intro c hc
      rw [← Option.some.inj hc]
      decide

/-- A list without ranges has no dash. -/
theorem text_singles {l : CpuList} {singles : List ℕ}
    (h : l.items = singles.map CpuItem.single) : '-' ∉ l.text.toList := by
  cases singles with
  | nil =>
    rw [text, h]
    simp
  | cons id singles =>
    rw [text_cons h, List.mem_append, not_or]
    exact ⟨not_mem_intToString (by decide) id, not_mem_tailText singles⟩

/-- The first dash is that of the first range. -/
theorem text_range {l : CpuList} {singles : List ℕ} {first last : ℕ}
    {more : List CpuItem} (h : l.items = singles.map CpuItem.single ++ .range first last :: more) :
    ∃ before, l.text.toList = before ++ '-' :: ((intToString last).toList ++ tailText more) ∧
      '-' ∉ before := by
  have hfirst : '-' ∉ (intToString first).toList := not_mem_intToString (by decide) first
  cases singles with
  | nil =>
    refine ⟨(intToString first).toList, ?_, hfirst⟩
    rw [text_cons h]
    simp [CpuItem.text]
  | cons id singles =>
    rw [List.map_cons, List.cons_append] at h
    refine ⟨(intToString id).toList ++ tailText (singles.map CpuItem.single) ++
      ',' :: (intToString first).toList, ?_, ?_⟩
    · rw [text_cons h, tailText_append, tailText_range]
      simp [CpuItem.text]
    · have hid : '-' ∉ (intToString id).toList := not_mem_intToString (by decide) id
      simp [hid, hfirst, not_mem_tailText]

/-- `dashedRangeToIntegers` reads the number that the list begins with, and the one after its first
dash. -/
theorem dashedRange_text (l : CpuList) :
    dashedRangeToIntegers l.text = (intOf l.lowest, intOf l.highest) := by
  have hstart : stringToInt (String.ofList (l.text.toList.takeWhile (· ≠ '-'))) = l.lowest := by
    cases hitems : l.items with
    | nil =>
      rw [text, lowest, hitems]
      rfl
    | cons item items =>
      obtain ⟨rest, htext, hrest⟩ := text_first hitems
      rw [htext, stringToInt_before hrest, lowest, hitems]
      rfl
  rw [dashedRangeToIntegers, hstart, highest]
  refine congrArg (fun x => (intOf l.lowest, intOf x)) ?_
  rcases first_range l.items with ⟨singles, hsingles, hnone⟩ | ⟨singles, first, last, more, hrange,
    hsome⟩
  · have hdash := text_singles hsingles
    have hall : ∀ c ∈ l.text.toList, decide (c ≠ '-') = true := by
      intro c hc
      apply decide_eq_true
      rintro rfl
      exact hdash hc
    rw [if_neg hdash, hnone, ← List.takeWhile_eq_self_iff.mpr hall, hstart]
    rfl
  · obtain ⟨before, htext, hbefore⟩ := text_range hrange
    rw [htext, if_pos (by simp), after_dash hbefore,
      stringToInt_digits last (tailText_head more), hsome]
    rfl

theorem firstLine_text (l : CpuList) : firstLine (l.text ++ "\n") = l.text := by
  have hitem (item : CpuItem) : '\n' ∉ item.text.toList := by
    have hid (id : ℕ) : '\n' ∉ (intToString id).toList := not_mem_intToString (by decide) id
    cases item with
    | single id => exact hid id
    | range first last => simp [CpuItem.text, hid]
  have htext : '\n' ∉ l.text.toList := by
    cases hitems : l.items with
    | nil =>
      rw [text, hitems]
      simp
    | cons head items =>
      rw [text_cons hitems, tailText]
      simp [hitem]
  have hall : ∀ c ∈ l.text.toList, decide (c ≠ '\n') = true := by
    intro c hc
    apply decide_eq_true
    rintro rfl
    exact htext hc
  rw [firstLine, String.toList_append, List.takeWhile_append_of_pos hall]
  simp

end Text

/-- One range, `0-3`. -/
def oneRange : CpuList := ⟨[.range 0 3], by decide, by decide⟩

/-- Two ranges, `0-3,8-11`. -/
def twoRanges : CpuList := ⟨[.range 0 3, .range 8 11], by decide, by decide⟩

section Scanned

variable (l : CpuList)

theorem first_mem_ids {item : CpuItem} (h : item ∈ l.items) : item.first ∈ l.ids := by
  have hle := l.ordered item h
  exact List.mem_flatMap.mpr ⟨item, h, List.mem_range'_1.mpr (by omega)⟩

theorem last_mem_ids {item : CpuItem} (h : item ∈ l.items) : item.last ∈ l.ids := by
  have hle := l.ordered item h
  exact List.mem_flatMap.mpr ⟨item, h, List.mem_range'_1.mpr (by omega)⟩

theorem between_of_mem_ids {id : ℕ} (h : id ∈ l.ids) :
    ∃ item ∈ l.items, item.first ≤ id ∧ id ≤ item.last := by
  obtain ⟨item, hitem, hid⟩ := List.mem_flatMap.mp h
  obtain ⟨hfirst, hlast⟩ := List.mem_range'_1.mp hid
  exact ⟨item, hitem, hfirst, by omega⟩

/-- The list begins with its lowest identifier. -/
theorem lowest_le {id : ℕ} (h : id ∈ l.ids) : l.lowest ≤ id := by
  obtain ⟨item, hitem, hfirst, -⟩ := l.between_of_mem_ids h
  have hincreasing := l.increasing
  rw [lowest]
  cases hitems : l.items with
  | nil => simp
  | cons head items =>
    rw [hitems] at hitem hincreasing
    have hhead := l.ordered head (by simp [hitems])
    rcases List.mem_cons.mp hitem with rfl | hmem
    · exact hfirst
    · have hlt := (List.pairwise_cons.mp hincreasing).1 item hmem
      show head.first ≤ id
      omega

/-- The scan ends with an identifier of the list. -/
theorem highest_mem (hne : l.items ≠ []) : l.highest ∈ l.ids := by
  obtain ⟨head, items, hitems⟩ := List.exists_cons_of_ne_nil hne
  rw [highest]
  rcases first_range l.items with ⟨singles, hsingles, hnone⟩ | ⟨singles, first, last, more, hrange,
    hsome⟩
  · rw [hnone, Option.getD_none, lowest, hitems]
    exact l.first_mem_ids (by simp [hitems])
  · rw [hsome]
    have hend : CpuItem.range first last ∈ l.items := by simp [hrange]
    exact l.last_mem_ids hend

/-- Nothing follows the item that ends the scan if no identifier is above it. -/
theorem shape_of_le_highest (h : ∀ id ∈ l.ids, id ≤ l.highest) :
    l.items.length ≤ 1 ∨ ∃ (singles : List ℕ) (first last : ℕ),
      l.items = singles.map CpuItem.single ++ [CpuItem.range first last] := by
  have hincreasing := l.increasing
  rcases first_range l.items with ⟨singles, hitems, hnone⟩ | ⟨singles, first, last, more, hitems,
    hsome⟩
  · left
    rw [hitems]
    rcases singles with _ | ⟨id, _ | ⟨next, singles⟩⟩
    · exact Nat.zero_le 1
    · exact Nat.le_refl 1
    · rw [hitems] at hincreasing
      have hlt : id < next := (List.pairwise_cons.mp hincreasing).1 (.single next) (by simp)
      have hnext : CpuItem.single next ∈ l.items := by simp [hitems]
      have hle := h next (l.first_mem_ids hnext)
      rw [highest, hnone, Option.getD_none, lowest, hitems] at hle
      exact absurd hle (Nat.not_le.mpr hlt)
  · right
    rcases more with _ | ⟨next, more⟩
    · exact ⟨singles, first, last, hitems⟩
    · rw [hitems] at hincreasing
      have hrest := (List.pairwise_append.mp hincreasing).2.1
      have hlt : last < next.first := (List.pairwise_cons.mp hrest).1 next (by simp)
      have hle := h next.first (l.first_mem_ids (by simp [hitems]))
      rw [highest, hsome, Option.getD_some] at hle
      exact absurd hle (Nat.not_le.mpr hlt)

theorem le_highest_of_shape (h : l.items.length ≤ 1 ∨ ∃ (singles : List ℕ) (first last : ℕ),
    l.items = singles.map CpuItem.single ++ [CpuItem.range first last]) {id : ℕ}
    (hid : id ∈ l.ids) : id ≤ l.highest := by
  obtain ⟨item, hitem, -, hlast⟩ := l.between_of_mem_ids hid
  have hincreasing := l.increasing
  have hordered := l.ordered
  rcases h with hlength | ⟨singles, first, last, hitems⟩
  · obtain ⟨only, honly⟩ := List.length_eq_one_iff.mp
      (Nat.le_antisymm hlength (List.length_pos_of_mem hitem))
    rw [honly, List.mem_singleton] at hitem
    rw [highest, lowest, honly, ← hitem]
    cases item with
    | single id => exact hlast
    | range first last => exact hlast
  · rw [hitems] at hitem hincreasing hordered
    have hsingles : (singles.map CpuItem.single).findSome? CpuItem.rangeEnd = none := by
      simp [List.findSome?_eq_none_iff, CpuItem.rangeEnd]
    have hend : l.highest = last := by
      rw [highest, hitems, List.findSome?_append, hsingles]
      rfl
    rcases List.mem_append.mp hitem with hsingle | hrange
    · have hlt := (List.pairwise_append.mp hincreasing).2.2 item hsingle (.range first last)
        (by simp)
      have hle : first ≤ last := hordered (.range first last) (by simp)
      rw [hend]
      exact hlast.trans (hlt.le.trans hle)
    · rw [List.mem_singleton.mp hrange] at hlast
      rw [hend]
      exact hlast

/-- The identifiers of the list are scanned exactly when it is one that is read whole. -/
theorem scanned_iff : (∀ id ∈ l.ids, id ∈ Topology.between (uintOf (intOf l.lowest))
    (uintOf (intOf l.highest))) ↔ l.ReadWhole := by
  constructor
  · intro h
    have hbound : ∀ id ∈ l.ids, id < 2 ^ 32 := by
      intro id hid
      exact (Topology.mem_between.mp (h id hid)).2.trans_lt (uintOf_lt _)
    refine ⟨hbound, l.shape_of_le_highest fun id hid => ?_⟩
    have hne : l.items ≠ [] := by
      intro hnil
      rw [ids, hnil] at hid
      exact List.not_mem_nil hid
    have hle := (Topology.mem_between.mp (h id hid)).2
    rwa [uintOf_intOf (hbound _ (l.highest_mem hne))] at hle
  · rintro ⟨hbound, hshape⟩ id hid
    have hne : l.items ≠ [] := by
      intro hnil
      rw [ids, hnil] at hid
      exact List.not_mem_nil hid
    have hlow := l.lowest_le hid
    have hhigh := l.le_highest_of_shape hshape hid
    have hid' := hbound id hid
    rw [uintOf_intOf (by omega), uintOf_intOf (hbound _ (l.highest_mem hne))]
    exact Topology.mem_between.mpr ⟨hlow, hhigh⟩

end Scanned

end CpuList

namespace Topology

variable {σ : Type} {sys : System σ} {getCommandOutput : String → Call σ (List String)} {s s' : σ}

end Topology

end Mammut.Topology
