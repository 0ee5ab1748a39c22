import Mathlib.Order.Lattice
import Mathlib.Algebra.BigOperators.Group.List.Basic
import Mathlib.Algebra.Group.Basic
import Mathlib.Order.Defs.LinearOrder

/-! Ordered maps, as lists of entries with increasing keys: what an iteration over the map visits.
`insert` leaves a key that is present as it is, and `assign` changes its value. -/

namespace Kit

/-- A map whose entries are in the order of their keys. -/
structure OrdMap (K V : Type) [LinearOrder K] where
  entries : List (K × V)
  sorted : entries.Pairwise fun a b => a.1 < b.1

namespace OrdMap

variable {K V : Type} [LinearOrder K]

def insertEntry (k : K) (v : V) : List (K × V) → List (K × V)
  | [] => [(k, v)]
  | e :: rest =>
    if k < e.1 then (k, v) :: e :: rest
    else if k = e.1 then e :: rest
    else e :: insertEntry k v rest

theorem mem_insertEntry {k : K} {v : V} {e : K × V} {l : List (K × V)}
    (h : e ∈ insertEntry k v l) : e = (k, v) ∨ e ∈ l := by
  induction l with
  | nil => exact Or.inl (List.mem_singleton.mp h)
  | cons head rest ih =>
    unfold insertEntry at h
    split_ifs at h
    · rcases List.mem_cons.mp h with rfl | hmem
      · exact Or.inl rfl
      · exact Or.inr hmem
    · exact Or.inr h
    · rcases List.mem_cons.mp h with rfl | hmem
      · exact Or.inr List.mem_cons_self
      · exact (ih hmem).imp_right (List.mem_cons_of_mem _)

theorem insertEntry_sorted {k : K} {v : V} {l : List (K × V)}
    (h : l.Pairwise fun a b => a.1 < b.1) :
    (insertEntry k v l).Pairwise fun a b => a.1 < b.1 := by
  induction l with
  | nil => exact List.pairwise_singleton _ _
  | cons head rest ih =>
    obtain ⟨hhead, hrest⟩ := List.pairwise_cons.mp h
    unfold insertEntry
    split_ifs with hlt heq
    · refine List.pairwise_cons.mpr ⟨fun e he => ?_, h⟩
      rcases List.mem_cons.mp he with rfl | hmem
      · exact hlt
      · exact hlt.trans (hhead e hmem)
    · exact h
    · refine List.pairwise_cons.mpr ⟨fun e he => ?_, ih hrest⟩
      rcases mem_insertEntry he with rfl | hmem
      · exact lt_of_le_of_ne (not_lt.mp hlt) (Ne.symm heq)
      · exact hhead e hmem

/-- Inserting a key that is not there adds one entry. -/
theorem insertEntry_perm {k : K} {v : V} {l : List (K × V)} (h : ∀ e ∈ l, e.1 ≠ k) :
    (insertEntry k v l).Perm ((k, v) :: l) := by
  induction l with
  | nil => exact .refl _
  | cons head rest ih =>
    unfold insertEntry
    split_ifs with hlt heq
    · exact .refl _
    · exact absurd heq.symm (h head List.mem_cons_self)
    · have hrest := ih fun e he => h e (List.mem_cons_of_mem _ he)
      exact (hrest.cons head).trans (.swap _ _ _)

def empty : OrdMap K V := ⟨[], .nil⟩

def find? (m : OrdMap K V) (k : K) : Option V := (m.entries.find? (·.1 = k)).map Prod.snd

def keys (m : OrdMap K V) : List K := m.entries.map Prod.fst

def insert (m : OrdMap K V) (k : K) (v : V) : OrdMap K V :=
  ⟨insertEntry k v m.entries, insertEntry_sorted m.sorted⟩

def assign (m : OrdMap K V) (k : K) (v : V) : OrdMap K V where
  entries := m.entries.map fun e => if e.1 = k then (e.1, v) else e
  sorted := by
    refine List.pairwise_map.mpr (m.sorted.imp fun {a b} h => ?_)
    split_ifs <;> exact h

def erase (m : OrdMap K V) (k : K) : OrdMap K V :=
  ⟨m.entries.filter (·.1 ≠ k), m.sorted.filter _⟩

variable {m : OrdMap K V} {k k' : K} {v v' : V}

@[simp] theorem keys_empty : (empty : OrdMap K V).keys = [] := rfl

theorem find?_none_iff : m.find? k = none ↔ k ∉ m.keys := by
  simp only [find?, keys, Option.map_eq_none_iff, List.find?_eq_none, List.mem_map,
    decide_eq_true_eq, not_exists, not_and]

theorem entry_unique {l : List (K × V)} (hsorted : l.Pairwise fun a b => a.1 < b.1)
    {e e' : K × V} (he : e ∈ l) (he' : e' ∈ l) (hkey : e.1 = e'.1) : e = e' := by
  induction l with
  | nil => cases he
  | cons head rest ih =>
    obtain ⟨hhead, hrest⟩ := List.pairwise_cons.mp hsorted
    rcases List.mem_cons.mp he with rfl | hmem <;> rcases List.mem_cons.mp he' with rfl | hmem'
    · rfl
    · exact absurd hkey (hhead e' hmem').ne
    · exact absurd hkey.symm (hhead e hmem).ne
    · exact ih hrest hmem hmem'

theorem find?_some_iff : m.find? k = some v ↔ (k, v) ∈ m.entries := by
  unfold find?
  constructor
  · intro h
    obtain ⟨e, he, rfl⟩ := Option.map_eq_some_iff.mp h
    have hkey : e.1 = k := by simpa using List.find?_some he
    rw [← hkey]
    exact List.mem_of_find?_eq_some he
  · intro h
    cases hfind : m.entries.find? (·.1 = k) with
    | none =>
      have hnone := List.find?_eq_none.mp hfind (k, v) h
      simp at hnone
    | some e =>
      have hkey : e.1 = k := by simpa using List.find?_some hfind
      rw [entry_unique m.sorted (List.mem_of_find?_eq_some hfind) h hkey]
      rfl

theorem mem_keys_iff : k ∈ m.keys ↔ ∃ v, (k, v) ∈ m.entries := by
  simp [keys]

theorem mem_keys_insertEntry {l : List (K × V)} :
    k' ∈ (insertEntry k v l).map Prod.fst ↔ k' = k ∨ k' ∈ l.map Prod.fst := by
  induction l with
  | nil => simp [insertEntry]
  | cons head rest ih =>
    unfold insertEntry
    split_ifs with hlt heq
    · simp
    · simp [heq]
    · simp only [List.map_cons, List.mem_cons, ih]
      exact or_left_comm

@[simp] theorem mem_keys_insert : k' ∈ (m.insert k v).keys ↔ k' = k ∨ k' ∈ m.keys :=
  mem_keys_insertEntry

@[simp] theorem keys_assign : (m.assign k v).keys = m.keys := by
  simp only [keys, assign, List.map_map]
  refine List.map_congr_left fun e _ => ?_
  simp only [Function.comp_apply]
  split_ifs <;> rfl

@[simp] theorem mem_keys_erase : k' ∈ (m.erase k).keys ↔ k' ≠ k ∧ k' ∈ m.keys := by
  simp only [keys, erase, List.mem_map, List.mem_filter, decide_eq_true_eq]
  constructor
  · rintro ⟨e, ⟨he, hne⟩, rfl⟩
    exact ⟨hne, e, he, rfl⟩
  · rintro ⟨hne, e, he, rfl⟩
    exact ⟨e, ⟨he, hne⟩, rfl⟩

theorem erase_perm {l : List (K × V)} (hsorted : l.Pairwise fun a b => a.1 < b.1)
    (h : (k, v) ∈ l) : l.Perm ((k, v) :: l.filter (·.1 ≠ k)) := by
  induction l with
  | nil => cases h
  | cons head rest ih =>
    obtain ⟨hhead, hrest⟩ := List.pairwise_cons.mp hsorted
    rcases List.mem_cons.mp h with rfl | hmem
    · have hkeep : rest.filter (·.1 ≠ k) = rest :=
        List.filter_eq_self.mpr fun e he => by simpa using (hhead e he).ne'
      rw [List.filter_cons_of_neg (by simp), hkeep]
    · have hne : head.1 ≠ k := (hhead _ hmem).ne
      rw [List.filter_cons_of_pos (by simpa using hne)]
      exact ((ih hrest hmem).cons head).trans (.swap _ _ _)

/-- Assigning the value that is there changes nothing. -/
theorem assign_self (h : m.find? k = some v) : m.assign k v = m := by
  have hentries : m.entries.map (fun e => if e.1 = k then (e.1, v) else e) = m.entries := by
    refine (List.map_congr_left fun e he => ?_).trans (List.map_id _)
    split_ifs with hkey
    · have hentry : e = (k, v) := entry_unique m.sorted he (find?_some_iff.mp h) hkey
      rw [hentry]
      rfl
    · rfl
  cases m
  simpa [assign] using hentries

theorem mem_assign {e : K × V} (h : e ∈ (m.assign k v).entries) : e = (k, v) ∨ e ∈ m.entries := by
  obtain ⟨e', he', rfl⟩ := List.mem_map.mp h
  split_ifs with hkey
  · exact .inl (by rw [hkey])
  · exact .inr he'

theorem mem_erase {e : K × V} (h : e ∈ (m.erase k).entries) : e ∈ m.entries :=
  List.mem_of_mem_filter h

theorem mem_insert {e : K × V} (h : e ∈ (m.insert k v).entries) : e = (k, v) ∨ e ∈ m.entries :=
  mem_insertEntry h

/-- The keys after some entries have been inserted. -/
theorem mem_keys_foldl_insert {l : List (K × V)} :
    k ∈ (l.foldl (fun r e => r.insert e.1 e.2) m).keys ↔ k ∈ m.keys ∨ k ∈ l.map Prod.fst := by
  induction l generalizing m with
  | nil => simp
  | cons e l ih =>
    rw [List.foldl_cons, ih, mem_keys_insert, List.map_cons, List.mem_cons, or_assoc]
    exact or_left_comm

theorem mem_foldl_insert {l : List (K × V)} {e : K × V}
    (h : e ∈ (l.foldl (fun r e => r.insert e.1 e.2) m).entries) : e ∈ m.entries ∨ e ∈ l := by
  induction l generalizing m with
  | nil => exact .inl h
  | cons head l ih =>
    rcases ih h with hmem | hmem
    · rcases mem_insert hmem with rfl | hold
      · exact .inr List.mem_cons_self
      · exact .inl hold
    · exact .inr (List.mem_cons_of_mem _ hmem)

theorem erase_of_absent (h : m.find? k = none) : m.erase k = m := by
  have hentries : m.entries.filter (·.1 ≠ k) = m.entries := by
    refine List.filter_eq_self.mpr fun e he => ?_
    have hne : e.1 ≠ k := fun hkey => find?_none_iff.mp h (mem_keys_iff.mpr ⟨e.2, hkey ▸ he⟩)
    simpa using hne
  cases m
  simpa [erase] using hentries

/-- An assignment replaces the entry of the key. -/
theorem assign_perm {l : List (K × V)} (hsorted : l.Pairwise fun a b => a.1 < b.1)
    (h : (k, v') ∈ l) :
    (l.map fun e => if e.1 = k then (e.1, v) else e).Perm ((k, v) :: l.filter (·.1 ≠ k)) := by
  have hothers : (l.filter (·.1 ≠ k)).map (fun e => if e.1 = k then (e.1, v) else e) =
      l.filter (·.1 ≠ k) := by
    refine (List.map_congr_left fun e he => ?_).trans (List.map_id _)
    have hne : e.1 ≠ k := by simpa using (List.mem_filter.mp he).2
    simp [hne]
  have hperm := (erase_perm hsorted h).map fun e => if e.1 = k then (e.1, v) else e
  rw [List.map_cons, if_pos rfl, hothers] at hperm
  exact hperm

theorem find?_insert (h : m.find? k = none) :
    (m.insert k v).find? k' = if k' = k then some v else m.find? k' := by
  have hfresh : ∀ e ∈ m.entries, e.1 ≠ k := fun e he hkey =>
    find?_none_iff.mp h (mem_keys_iff.mpr ⟨e.2, hkey ▸ he⟩)
  refine Option.ext fun w => ?_
  rw [find?_some_iff, insert, (insertEntry_perm hfresh).mem_iff, List.mem_cons, Prod.mk.injEq]
  split_ifs with hkey
  · subst hkey
    rw [Option.some.injEq, eq_comm (a := v)]
    exact ⟨fun hw => hw.elim And.right fun he => absurd rfl (hfresh _ he), fun hw => .inl ⟨rfl, hw⟩⟩
  · rw [find?_some_iff]
    exact or_iff_right fun hw => hkey hw.1

theorem find?_assign (h : m.find? k = some v') :
    (m.assign k v).find? k' = if k' = k then some v else m.find? k' := by
  refine Option.ext fun w => ?_
  rw [find?_some_iff, assign, (assign_perm m.sorted (find?_some_iff.mp h)).mem_iff, List.mem_cons,
    Prod.mk.injEq, List.mem_filter]
  split_ifs with hkey
  · simp [hkey, eq_comm]
  · simp [hkey, find?_some_iff]

@[simp] theorem find?_erase : (m.erase k).find? k' = if k' = k then none else m.find? k' := by
  refine Option.ext fun w => ?_
  rw [find?_some_iff, erase, List.mem_filter]
  split_ifs with hkey
  · simp [hkey]
  · simp [hkey, find?_some_iff]

section MapValues

variable {W : Type}

/-- The map with its values changed. -/
def mapValues (f : V → W) (m : OrdMap K V) : OrdMap K W where
  entries := m.entries.map fun e => (e.1, f e.2)
  sorted := List.pairwise_map.mpr m.sorted

theorem ext_entries {m m' : OrdMap K V} (h : m.entries = m'.entries) : m = m' := by
  cases m
  cases m'
  cases h
  rfl

theorem mapValues_eq_self_iff {f : V → V} : m.mapValues f = m ↔ ∀ e ∈ m.entries, f e.2 = e.2 := by
  have hentries : m.mapValues f = m ↔ m.entries.map (fun e => (e.1, f e.2)) = m.entries.map id := by
    rw [List.map_id]
    exact ⟨congrArg entries, fun h => ext_entries (show (m.mapValues f).entries = m.entries from h)⟩
  rw [hentries, List.map_inj_left]
  exact forall₂_congr fun e _ => ⟨congrArg Prod.snd, fun h => Prod.ext rfl h⟩

theorem insertEntry_last {l : List (K × V)} (h : ∀ e ∈ l, e.1 < k) :
    insertEntry k v l = l ++ [(k, v)] := by
  induction l with
  | nil => rfl
  | cons head rest ih =>
    obtain ⟨hhead, hrest⟩ := List.forall_mem_cons.mp h
    rw [insertEntry, if_neg hhead.not_gt, if_neg hhead.ne', ih hrest, List.cons_append]

/-- Inserting the entries in their order builds the map. -/
theorem foldl_insert_eq (f : V → W) (m : OrdMap K V) :
    m.entries.foldl (fun r e => r.insert e.1 (f e.2)) empty = m.mapValues f := by
  have hbuild : ∀ (l : List (K × V)) (r : OrdMap K W),
      (l.Pairwise fun a b => a.1 < b.1) → (∀ e ∈ l, ∀ a ∈ r.entries, a.1 < e.1) →
      (l.foldl (fun r e => r.insert e.1 (f e.2)) r).entries =
        r.entries ++ l.map fun e => (e.1, f e.2) := by
    intro l
    induction l with
    | nil => exact fun r _ _ => (List.append_nil _).symm
    | cons e l ih =>
      intro r hsorted hbefore
      obtain ⟨he, hl⟩ := List.pairwise_cons.mp hsorted
      obtain ⟨hfirst, hrest⟩ := List.forall_mem_cons.mp hbefore
      have hinsert : (r.insert e.1 (f e.2)).entries = r.entries ++ [(e.1, f e.2)] :=
        insertEntry_last hfirst
      rw [List.foldl_cons, ih _ hl, hinsert, List.append_assoc]
      · rfl
      · intro b hb a ha
        rw [hinsert] at ha
        rcases List.mem_append.mp ha with ha | ha
        · exact hrest b hb a ha
        · rw [List.mem_singleton.mp ha]
          exact he b hb
  have hentries := hbuild m.entries empty m.sorted fun _ _ _ ha => nomatch ha
  exact ext_entries hentries

end MapValues

section Total

variable {V : Type} [AddCommGroup V] {m : OrdMap K V} {k : K} {v w : V}

/-- The sum of the values. -/
def total (m : OrdMap K V) : V := (m.entries.map Prod.snd).sum

theorem total_insert (h : m.find? k = none) : (m.insert k v).total = m.total + v := by
  have hfresh : ∀ e ∈ m.entries, e.1 ≠ k := fun e he hkey =>
    find?_none_iff.mp h (mem_keys_iff.mpr ⟨e.2, hkey ▸ he⟩)
  have hperm := (insertEntry_perm (v := v) hfresh).map Prod.snd
  unfold total insert
  rw [hperm.sum_eq, List.map_cons, List.sum_cons, add_comm]

theorem total_erase (h : m.find? k = some v) : (m.erase k).total = m.total - v := by
  have hperm := (erase_perm m.sorted (find?_some_iff.mp h)).map Prod.snd
  unfold total erase
  rw [hperm.sum_eq, List.map_cons, List.sum_cons, add_sub_cancel_left]

theorem total_assign (h : m.find? k = some v) : (m.assign k w).total = m.total - v + w := by
  have hperm := (assign_perm (v := w) m.sorted (find?_some_iff.mp h)).map Prod.snd
  rw [← total_erase h]
  unfold total assign erase
  rw [hperm.sum_eq, List.map_cons, List.sum_cons, add_comm]

end Total

end OrdMap

end Kit
