import Mathlib.Data.List.Perm.Subperm
import Mathlib.Data.Set.Lattice

/-! A set cut by a family of parts that have nothing in common: the parts that lie in it as a whole,
and those that it touches. -/

namespace Kit.Partitions

section Count

variable {α : Type*} [DecidableEq α] {l m : List α}

/-- A list without duplicates has as many elements in `m` as there are in `m` exactly when it has
them all. -/
theorem countP_mem_eq_length_iff (hl : l.Nodup) (hm : m.Nodup) :
    l.countP (· ∈ m) = m.length ↔ m ⊆ l := by
  rw [List.countP_eq_length_filter]
  constructor
  · intro hlength a ha
    have hsub : l.filter (· ∈ m) ⊆ m := fun b hb => by simpa using (List.mem_filter.mp hb).2
    have hperm := (List.subperm_of_subset (hl.filter _) hsub).perm_of_length_le hlength.ge
    exact (List.mem_filter.mp (hperm.mem_iff.mpr ha)).1
  · intro hsub
    refine List.Perm.length_eq ((List.perm_ext_iff_of_nodup (hl.filter _) hm).mpr fun a => ?_)
    simp only [List.mem_filter, decide_eq_true_eq]
    exact ⟨fun h => h.2, fun ha => ⟨hsub ha, ha⟩⟩

end Count

section Classes

variable {α : Type*} {classOf : α → List α} {present : List α} {classes : List (List α)}

/-- The classes of the elements of a list, each of which is there once. -/
structure Classes (classOf : α → List α) (present : List α) (classes : List (List α)) : Prop where
  self : ∀ a ∈ present, a ∈ classOf a
  same : ∀ a ∈ present, ∀ b ∈ classOf a, classOf b = classOf a
  mem_iff : ∀ l, l ∈ classes ↔ ∃ a ∈ present, classOf a = l
  nodup : classes.Nodup

theorem Classes.classOf_eq (h : Classes classOf present classes) {l : List α} (hl : l ∈ classes)
    {a : α} (ha : a ∈ l) : classOf a = l := by
  obtain ⟨b, hb, rfl⟩ := (h.mem_iff l).mp hl
  exact h.same b hb a ha

/-- An element is in one class. -/
theorem Classes.index_unique (h : Classes classOf present classes) {i j : ℕ} {l m : List α} {a : α}
    (hl : classes[i]? = some l) (hm : classes[j]? = some m) (ha : a ∈ l) (ha' : a ∈ m) : i = j := by
  have hsame : l = m := by
    rw [← h.classOf_eq (List.mem_of_getElem? hl) ha, h.classOf_eq (List.mem_of_getElem? hm) ha']
  subst hsame
  have hi := (List.getElem?_eq_some_iff.mp hl).1
  exact (List.getElem?_inj hi h.nodup).mp (hl.trans hm.symm)

end Classes

variable {ι α : Type*} {parts : ι → Set α} {s : Set α}

/-- The parts that lie in `s`. -/
def whole (parts : ι → Set α) (s : Set α) : Set ι := {i | parts i ⊆ s}

/-- The parts that `s` has an element of. -/
def touched (parts : ι → Set α) (s : Set α) : Set ι := {i | (parts i ∩ s).Nonempty}

theorem whole_subset_touched (nonempty : ∀ i, (parts i).Nonempty) :
    whole parts s ⊆ touched parts s := by
  intro i hi
  obtain ⟨a, ha⟩ := nonempty i
  exact ⟨a, ha, hi ha⟩

/-- The parts that `s` touches all lie in it exactly when it is a union of parts. -/
theorem whole_eq_touched_iff (nonempty : ∀ i, (parts i).Nonempty)
    (disjoint : ∀ i j a, a ∈ parts i → a ∈ parts j → i = j) (covers : s ⊆ ⋃ i, parts i) :
    whole parts s = touched parts s ↔ ∃ t : Set ι, s = ⋃ i ∈ t, parts i := by
  constructor
  · intro heq
    refine ⟨whole parts s, Set.Subset.antisymm (fun a ha => ?_) (Set.iUnion₂_subset fun i hi => hi)⟩
    obtain ⟨i, hi⟩ := Set.mem_iUnion.mp (covers ha)
    have htouched : i ∈ touched parts s := ⟨a, hi, ha⟩
    exact Set.mem_iUnion₂.mpr ⟨i, heq ▸ htouched, hi⟩
  · rintro ⟨t, rfl⟩
    apply Set.Subset.antisymm (whole_subset_touched nonempty)
    rintro i ⟨a, hi, ha⟩
    obtain ⟨j, hj, haj⟩ := Set.mem_iUnion₂.mp ha
    obtain rfl := disjoint i j a hi haj
    exact Set.subset_iUnion₂_of_subset i hj Set.Subset.rfl

end Kit.Partitions
