import Mathlib.Data.Finset.Card
import Mathlib.Data.List.Induction
import Mathlib.Data.List.Nodup
import Mathlib.Data.List.Perm.Basic

/-! Grouping a list by a key.  `distinct` collects the keys, in the order of their first
occurrences; the groups of distinct keys make up the list again, in another order, and a lookup by
a key that no two elements share finds the one that has it. -/

namespace Kit.Grouping

variable {α β κ : Type*} [DecidableEq κ]

/-- The distinct elements of a list, in the order of their first occurrences. -/
def distinct (l : List κ) : List κ :=
  l.foldl (fun seen a => if a ∈ seen then seen else seen ++ [a]) []

@[simp] theorem distinct_nil : distinct ([] : List κ) = [] := rfl

theorem distinct_concat (l : List κ) (a : κ) :
    distinct (l ++ [a]) = if a ∈ distinct l then distinct l else distinct l ++ [a] := by
  unfold distinct
  rw [List.foldl_append]
  rfl

@[simp] theorem mem_distinct {l : List κ} {a : κ} : a ∈ distinct l ↔ a ∈ l := by
  induction l using List.reverseRecOn with
  | nil => simp
  | append_singleton l b ih =>
    rw [distinct_concat]
    split_ifs with hb
    · rw [List.mem_append, List.mem_singleton]
      constructor
      · exact fun hmem => Or.inl (ih.mp hmem)
      · rintro (hmem | rfl)
        · exact ih.mpr hmem
        · exact hb
    · simp [ih]

theorem distinct_nodup (l : List κ) : (distinct l).Nodup := by
  induction l using List.reverseRecOn with
  | nil => exact List.nodup_nil
  | append_singleton l a ih =>
    rw [distinct_concat]
    split_ifs with ha
    · exact ih
    · exact ih.append (List.nodup_singleton a) (by simpa using ha)

theorem length_distinct (l : List κ) : (distinct l).length = l.toFinset.card := by
  rw [← List.toFinset_card_of_nodup (distinct_nodup l)]
  apply congrArg Finset.card
  ext a
  rw [List.mem_toFinset, mem_distinct, List.mem_toFinset]

/-- The groups of some distinct keys are the elements that have one of them. -/
theorem flatMap_group_perm (key : α → κ) (l : List α) {keys : List κ} (hnodup : keys.Nodup) :
    (keys.flatMap fun k => l.filter (key · = k)).Perm (l.filter (key · ∈ keys)) := by
  induction keys with
  | nil => simp
  | cons k rest ih =>
    obtain ⟨hk, hrest⟩ := List.nodup_cons.mp hnodup
    have hhead : (l.filter (key · ∈ k :: rest)).filter (key · = k) = l.filter (key · = k) := by
      rw [List.filter_filter]
      refine List.filter_congr fun a _ => ?_
      by_cases ha : key a = k <;> simp [ha]
    have htail : (l.filter (key · ∈ k :: rest)).filter (fun a => !decide (key a = k)) =
        l.filter (key · ∈ rest) := by
      rw [List.filter_filter]
      refine List.filter_congr fun a _ => ?_
      by_cases ha : key a = k
      · simp [ha, hk]
      · simp [ha]
    have hsplit := List.filter_append_perm (key · = k) (l.filter (key · ∈ k :: rest))
    rw [hhead, htail] at hsplit
    rw [List.flatMap_cons]
    exact ((ih hrest).append_left _).trans hsplit

/-- Grouping by a key reorders a list. -/
theorem flatMap_distinct_perm (key : α → κ) (l : List α) :
    ((distinct (l.map key)).flatMap fun k => l.filter (key · = k)).Perm l := by
  refine (flatMap_group_perm key l (distinct_nodup _)).trans (.of_eq ?_)
  exact List.filter_eq_self.mpr fun a ha => by simpa using ⟨a, ha, rfl⟩

/-- Elements seen before add nothing. -/
theorem distinct_append_of_mem {l more : List κ} (h : ∀ a ∈ more, a ∈ l) :
    distinct (l ++ more) = distinct l := by
  induction more using List.reverseRecOn with
  | nil => rw [List.append_nil]
  | append_singleton more a ih =>
    have hmore : distinct (l ++ more) = distinct l := ih fun b hb => h b (by simp [hb])
    have ha : a ∈ distinct l := mem_distinct.mpr (h a (by simp))
    rw [← List.append_assoc, distinct_concat, hmore, if_pos ha]

section Groups

variable {key : α → κ} {keys : List κ} {group : κ → List α}

/-- The keys of groups that are not empty, one after the other. -/
theorem distinct_flatMap (hnodup : keys.Nodup) (hkey : ∀ k ∈ keys, ∀ a ∈ group k, key a = k)
    (hne : ∀ k ∈ keys, group k ≠ []) : distinct ((keys.flatMap group).map key) = keys := by
  induction keys using List.reverseRecOn with
  | nil => rfl
  | append_singleton keys k ih =>
    have hfresh : k ∉ keys := by
      intro hmem
      exact (List.nodup_append.mp hnodup).2.2 k hmem k List.mem_cons_self rfl
    have hseen : distinct ((keys.flatMap group).map key) = keys :=
      ih (List.nodup_append.mp hnodup).1 (fun k hk => hkey k (by simp [hk]))
        fun k hk => hne k (by simp [hk])
    obtain ⟨a, rest, hgroup⟩ := List.exists_cons_of_ne_nil (hne k (by simp))
    have hgroupKey : ∀ b ∈ a :: rest, key b = k := fun b hb =>
      hkey k (by simp) b (hgroup ▸ hb)
    have hsplit : ((keys ++ [k]).flatMap group).map key =
        ((keys.flatMap group).map key ++ [k]) ++ rest.map key := by
      simp [hgroup, hgroupKey a List.mem_cons_self]
    rw [hsplit, distinct_append_of_mem, distinct_concat, hseen, if_neg hfresh]
    intro b hb
    obtain ⟨c, hc, rfl⟩ := List.mem_map.mp hb
    simp [hgroupKey c (List.mem_cons_of_mem a hc)]

/-- The group of a key, among all the groups. -/
theorem filter_flatMap_group (hnodup : keys.Nodup)
    (hkey : ∀ k ∈ keys, ∀ a ∈ group k, key a = k) {k : κ} (hk : k ∈ keys) :
    (keys.flatMap group).filter (key · = k) = group k := by
  have hself : ∀ j ∈ keys, j = k → (group j).filter (key · = k) = group k := by
    rintro j hj rfl
    exact List.filter_eq_self.mpr fun a ha => by simpa using hkey j hj a ha
  have hother : ∀ j ∈ keys, j ≠ k → (group j).filter (key · = k) = [] := by
    intro j hj hne
    rw [List.filter_eq_nil_iff]
    intro a ha
    simpa [hkey j hj a ha] using hne
  induction keys with
  | nil => cases hk
  | cons j keys ih =>
    obtain ⟨hfresh, hrest⟩ := List.nodup_cons.mp hnodup
    rw [List.flatMap_cons, List.filter_append]
    by_cases hj : j = k
    · have hnone : (keys.flatMap group).filter (key · = k) = [] := by
        rw [List.filter_eq_nil_iff]
        intro a ha
        obtain ⟨i, hi, hmem⟩ := List.mem_flatMap.mp ha
        have hkey' := hkey i (List.mem_cons_of_mem j hi) a hmem
        have hne : i ≠ k := fun heq => hfresh (hj ▸ heq ▸ hi)
        simpa [hkey'] using hne
      rw [hself j List.mem_cons_self hj, hnone, List.append_nil]
    · have hmem : k ∈ keys := (List.mem_cons.mp hk).resolve_left (Ne.symm hj)
      rw [hother j List.mem_cons_self hj, List.nil_append]
      exact ih hrest (fun i hi => hkey i (List.mem_cons_of_mem j hi)) hmem
        (fun i hi => hself i (List.mem_cons_of_mem j hi))
        fun i hi => hother i (List.mem_cons_of_mem j hi)

end Groups

section Firsts

variable (key : α → κ)

/-- The elements whose keys no element before them has. -/
def firsts (l : List α) : List α :=
  l.foldl (fun r a => if r.any fun b => key b = key a then r else r ++ [a]) []

variable (l : List α)

theorem firsts_concat (a : α) : firsts key (l ++ [a]) =
    if key a ∈ (firsts key l).map key then firsts key l else firsts key l ++ [a] := by
  unfold firsts
  rw [List.foldl_append, List.foldl_cons, List.foldl_nil]
  simp only [List.any_eq_true, decide_eq_true_eq, List.mem_map]

theorem map_firsts : (firsts key l).map key = distinct (l.map key) := by
  induction l using List.reverseRecOn with
  | nil => rfl
  | append_singleton l a ih =>
    rw [firsts_concat, ih, List.map_append, List.map_singleton, distinct_concat]
    split_ifs
    · exact ih
    · rw [List.map_append, ih, List.map_singleton]

theorem firsts_sublist : (firsts key l).Sublist l := by
  induction l using List.reverseRecOn with
  | nil => exact .slnil
  | append_singleton l a ih =>
    rw [firsts_concat]
    split_ifs
    · exact ih.trans (List.sublist_append_left l [a])
    · exact ih.append_right [a]

/-- Each key has the element that had it first. -/
theorem find?_firsts (k : κ) : (firsts key l).find? (key · = k) = l.find? (key · = k) := by
  induction l using List.reverseRecOn with
  | nil => rfl
  | append_singleton l a ih =>
    rw [firsts_concat, List.find?_append, ← ih]
    split_ifs with ha
    · cases hfind : (firsts key l).find? (key · = k) with
      | some b => rfl
      | none =>
        obtain ⟨b, hb, hkey⟩ := List.mem_map.mp ha
        have hne : key b ≠ k := by simpa using List.find?_eq_none.mp hfind b hb
        simp [← hkey, hne]
    · rw [List.find?_append]

end Firsts

/-- Numbering the distinct elements in the order of their first occurrences uses the numbers from 0
on, each when those before it have been used. -/
theorem distinct_map_idxOf [BEq κ] [LawfulBEq κ] (l : List κ) :
    distinct (l.map fun k => (distinct l).idxOf k) = List.range (distinct l).length := by
  induction l using List.reverseRecOn with
  | nil => rfl
  | append_singleton l a ih =>
    rw [List.map_append, List.map_singleton]
    by_cases ha : a ∈ distinct l
    · have hseen : distinct (l ++ [a]) = distinct l := by rw [distinct_concat, if_pos ha]
      rw [hseen, distinct_append_of_mem, ih]
      intro i hi
      rw [List.mem_singleton.mp hi]
      exact List.mem_map.mpr ⟨a, mem_distinct.mp ha, rfl⟩
    · have hseen : distinct (l ++ [a]) = distinct l ++ [a] := by rw [distinct_concat, if_neg ha]
      have hbefore : (l.map fun k => (distinct l ++ [a]).idxOf k) =
          l.map fun k => (distinct l).idxOf k :=
        List.map_congr_left fun k hk => List.idxOf_append_of_mem (mem_distinct.mpr hk)
      have hlast : (distinct l ++ [a]).idxOf a = (distinct l).length := by
        rw [List.idxOf_append_of_notMem ha, List.idxOf_cons_self, Nat.add_zero]
      rw [hseen, hbefore, hlast, distinct_concat, ih, if_neg List.not_mem_range_self,
        List.length_append, List.length_singleton, List.range_succ]

/-- With distinct keys a lookup finds the element that has the key. -/
theorem find?_key_iff (key : α → κ) {l : List α} (hnodup : (l.map key).Nodup) {k : κ} {a : α} :
    l.find? (key · = k) = some a ↔ a ∈ l ∧ key a = k := by
  constructor
  · intro h
    exact ⟨List.mem_of_find?_eq_some h, by simpa using List.find?_some h⟩
  · rintro ⟨hmem, rfl⟩
    cases hfind : l.find? (key · = key a) with
    | none =>
      have hnone := List.find?_eq_none.mp hfind a hmem
      simp at hnone
    | some b =>
      have hkey : key b = key a := by simpa using List.find?_some hfind
      rw [List.inj_on_of_nodup_map hnodup (List.mem_of_find?_eq_some hfind) hmem hkey]

theorem find?_key_none_iff (key : α → κ) {l : List α} {k : κ} :
    l.find? (key · = k) = none ↔ ∀ a ∈ l, key a ≠ k := by
  simp [List.find?_eq_none]

end Kit.Grouping
