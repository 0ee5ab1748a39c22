import Mathlib.Algebra.Group.Nat.Defs
import Mathlib.Data.Set.Lattice
import Mathlib.Data.UInt
import Mathlib.Tactic.FinCases
import Mammut.Cpufreq.Domain
import Mammut.Kit.Partitions

/-! The searches of `cpufreq.cpp` for the domains of some virtual cores.  A `Domain*` is the position
of the domain in `getDomains()`. -/

namespace Mammut.Cpufreq

open Kit.Partitions Utils

/-- `Domain::contains`. -/
def DomainLinux.contains (d : DomainLinux) (virtualCore : VirtualCoreId) : Bool :=
  d.virtualCores.any (· == virtualCore)

namespace CpuFreq

section Lookups

variable (domains : List DomainLinux)

def getDomain (virtualCore : VirtualCoreId) : Except Exn (Fin domains.length) :=
  match (List.finRange domains.length).find? fun i => domains[i].contains virtualCore with
  | some i => return i
  | none => throw (.runtimeError ("getDomain: no domain found for virtual core: " ++
      intToString virtualCore.toBitVec.toInt))

def addDomain (r : List (Fin domains.length)) (virtualCore : VirtualCoreId) :
    Except Exn (List (Fin domains.length)) := do
  let d ← getDomain domains virtualCore
  return if r.contains d then r else r ++ [d]

/-- `getDomains` of some virtual cores. -/
def getDomains (virtualCores : List VirtualCoreId) : Except Exn (List (Fin domains.length)) :=
  virtualCores.foldlM (addDomain domains) []

/-- `contained`, after the loop over the virtual cores. -/
def contained (d : DomainLinux) (virtualCores : List VirtualCoreId) : UInt32 :=
  virtualCores.foldl (fun n virtualCore => if d.contains virtualCore then n + 1 else n) 0

def getDomainsComplete (virtualCores : List VirtualCoreId) : List (Fin domains.length) :=
  (List.finRange domains.length).filter fun i =>
    (contained domains[i] virtualCores).toNat == domains[i].virtualCores.length

end Lookups

/-- The domains divide the virtual cores of the machine among them. -/
structure Divides (domains : List DomainLinux) (cores : List VirtualCoreId) : Prop where
  nonempty : ∀ d ∈ domains, d.virtualCores ≠ []
  nodup : ∀ d ∈ domains, d.virtualCores.Nodup
  disjoint : ∀ i j : Fin domains.length, ∀ v ∈ domains[i].virtualCores,
    v ∈ domains[j].virtualCores → i = j
  covers : ∀ v, v ∈ cores ↔ ∃ d ∈ domains, v ∈ d.virtualCores

/-- No virtual core has the largest number there is: `Topology` counts the virtual cores in a `uint`
up to `highestCoreId`, in a loop that would not end. -/
def Counted (cores : List VirtualCoreId) : Prop := 0xFFFFFFFF ∉ cores

section Contained

variable {d : DomainLinux} {virtualCores : List VirtualCoreId}

theorem contains_iff {v : VirtualCoreId} : d.contains v = true ↔ v ∈ d.virtualCores := by
  simp [DomainLinux.contains]

theorem contained_eq :
    contained d virtualCores = UInt32.ofNat (virtualCores.countP (· ∈ d.virtualCores)) := by
  suffices h : ∀ n : UInt32, virtualCores.foldl
      (fun n virtualCore => if d.contains virtualCore then n + 1 else n) n =
        n + UInt32.ofNat (virtualCores.countP (· ∈ d.virtualCores)) by
    simpa [contained] using h 0
  induction virtualCores with
  | nil => simp
  | cons v rest ih =>
    intro n
    rw [List.foldl_cons, ih, List.countP_cons]
    by_cases hv : v ∈ d.virtualCores
    · simp [contains_iff.mpr hv, hv, UInt32.add_assoc, UInt32.add_comm]
    · simp [hv, mt contains_iff.mp hv]

/-- The virtual cores of a machine are fewer than the numbers of a `uint`. -/
theorem length_lt (hnodup : virtualCores.Nodup) (hcounted : Counted virtualCores) :
    virtualCores.length < 2 ^ 32 := by
  have hsub : (virtualCores.map UInt32.toNat) ⊆ List.range (2 ^ 32 - 1) := by
    intro n hn
    obtain ⟨v, hv, rfl⟩ := List.mem_map.mp hn
    have hne : v ≠ 0xFFFFFFFF := fun heq => hcounted (heq ▸ hv)
    have hlt := v.toNat_lt
    have hne' : v.toNat ≠ 2 ^ 32 - 1 := fun heq => hne (UInt32.toNat_inj.mp heq)
    rw [List.mem_range]
    omega
  have hinj : (virtualCores.map UInt32.toNat).Nodup :=
    hnodup.map fun _ _ h => UInt32.toNat_inj.mp h
  have hle := (List.subperm_of_subset hinj hsub).length_le
  rw [List.length_map, List.length_range] at hle
  omega

theorem contained_eq_length_iff (hvcs : virtualCores.Nodup) (hcounted : Counted virtualCores)
    (hd : d.virtualCores.Nodup) :
    (contained d virtualCores).toNat = d.virtualCores.length ↔ d.virtualCores ⊆ virtualCores := by
  have hlt : virtualCores.countP (· ∈ d.virtualCores) < 2 ^ 32 :=
    lt_of_le_of_lt List.countP_le_length (length_lt hvcs hcounted)
  rw [contained_eq, UInt32.toNat_ofNat', Nat.mod_eq_of_lt hlt]
  exact countP_mem_eq_length_iff hvcs hd

end Contained

section Divides

variable {domains : List DomainLinux} {cores virtualCores : List VirtualCoreId}

theorem Divides.getDomain_eq (h : Divides domains cores) {v : VirtualCoreId}
    {i : Fin domains.length} (hv : v ∈ domains[i].virtualCores) : getDomain domains v = .ok i := by
  unfold getDomain
  cases hfind : (List.finRange domains.length).find? fun i => domains[i].contains v with
  | none =>
    have hnot := List.find?_eq_none.mp hfind i (List.mem_finRange i)
    exact absurd (contains_iff.mpr hv) hnot
  | some j =>
    have hcontains : domains[j].contains v = true := by simpa using List.find?_some hfind
    rw [h.disjoint i j v hv (contains_iff.mp hcontains)]
    rfl

theorem Divides.exists_domain (h : Divides domains cores) {v : VirtualCoreId} (hv : v ∈ cores) :
    ∃ i : Fin domains.length, v ∈ domains[i].virtualCores := by
  obtain ⟨d, hd, hmem⟩ := (h.covers v).mp hv
  obtain ⟨i, hi, rfl⟩ := List.mem_iff_getElem.mp hd
  exact ⟨⟨i, hi⟩, hmem⟩

/-- The loop of `getDomains` adds the domains of the virtual cores to those found before. -/
theorem Divides.getDomains_loop (h : Divides domains cores) (hsub : virtualCores ⊆ cores)
    {r : List (Fin domains.length)} (hr : r.Nodup) :
    ∃ r', virtualCores.foldlM (addDomain domains) r = .ok r' ∧ r'.Nodup ∧
      ∀ i, i ∈ r' ↔ i ∈ r ∨ ∃ v ∈ virtualCores, v ∈ domains[i].virtualCores := by
  induction virtualCores generalizing r with
  | nil => exact ⟨r, rfl, hr, by simp⟩
  | cons v rest ih =>
    obtain ⟨hv, hrest⟩ := List.cons_subset.mp hsub
    obtain ⟨j, hj⟩ := h.exists_domain hv
    have hstep : addDomain domains r v = .ok (if r.contains j then r else r ++ [j]) := by
      simp only [addDomain, h.getDomain_eq hj]
      rfl
    have hnodup : (if r.contains j then r else r ++ [j]).Nodup := by
      by_cases hmem : j ∈ r
      · simpa [hmem] using hr
      · simpa [hmem] using hr.append (List.nodup_singleton j) (by simpa using hmem)
    have hmem : ∀ i, i ∈ (if r.contains j then r else r ++ [j]) ↔ i ∈ r ∨ i = j := by
      intro i
      by_cases hj' : j ∈ r
      · simp only [List.contains_iff_mem, hj', if_true]
        exact ⟨.inl, fun hi => hi.elim id fun heq => heq ▸ hj'⟩
      · simp [hj']
    obtain ⟨r', hrun, hr', hall⟩ := ih hrest hnodup
    refine ⟨r', ?_, hr', fun i => ?_⟩
    · rw [List.foldlM_cons, hstep]
      exact hrun
    · have hij : v ∈ domains[i].virtualCores ↔ i = j :=
        ⟨fun hi => h.disjoint i j v hi hj, fun heq => heq ▸ hj⟩
      simp only [hall, hmem, List.mem_cons, exists_eq_or_imp, hij, or_assoc]

theorem Divides.getDomains_spec (h : Divides domains cores) (hsub : virtualCores ⊆ cores) :
    ∃ r, getDomains domains virtualCores = .ok r ∧ r.Nodup ∧
      ∀ i, i ∈ r ↔ ∃ v ∈ virtualCores, v ∈ domains[i].virtualCores := by
  obtain ⟨r, hrun, hr, hmem⟩ := h.getDomains_loop hsub List.nodup_nil
  exact ⟨r, hrun, hr, by simpa using hmem⟩

theorem Divides.mem_getDomainsComplete (h : Divides domains cores) (hcounted : Counted cores)
    (hvcs : virtualCores.Nodup) (hsub : virtualCores ⊆ cores) (i : Fin domains.length) :
    i ∈ getDomainsComplete domains virtualCores ↔ domains[i].virtualCores ⊆ virtualCores := by
  have hnodup := h.nodup domains[i] (List.getElem_mem i.isLt)
  simp only [getDomainsComplete, List.mem_filter, List.mem_finRange, true_and, beq_iff_eq]
  exact contained_eq_length_iff hvcs (fun hmax => hcounted (hsub hmax)) hnodup

/-- `getDomainsComplete` finds the domains that lie in `virtualCores`, in order, and `getDomains`
those that have an element of it.  They find the same exactly when `virtualCores` is a union of
domains. -/
theorem getDomainsComplete_getDomains (h : Divides domains cores) (hcounted : Counted cores)
    (hvcs : virtualCores.Nodup) (hsub : virtualCores ⊆ cores) :
    (getDomainsComplete domains virtualCores).Pairwise (· < ·) ∧
    (∀ i, i ∈ getDomainsComplete domains virtualCores ↔
      ∀ v ∈ domains[i].virtualCores, v ∈ virtualCores) ∧
    ∃ r, getDomains domains virtualCores = .ok r ∧ r.Nodup ∧
      (∀ i, i ∈ r ↔ ∃ v ∈ virtualCores, v ∈ domains[i].virtualCores) ∧
      (∀ i ∈ getDomainsComplete domains virtualCores, i ∈ r) ∧
      ((∀ i, i ∈ getDomainsComplete domains virtualCores ↔ i ∈ r) ↔
        ∃ some : Set (Fin domains.length),
          ∀ v, v ∈ virtualCores ↔ ∃ i ∈ some, v ∈ domains[i].virtualCores) := by
  let parts (i : Fin domains.length) : Set VirtualCoreId := {v | v ∈ domains[i].virtualCores}
  let s : Set VirtualCoreId := {v | v ∈ virtualCores}
  have hcomplete := h.mem_getDomainsComplete hcounted hvcs hsub
  obtain ⟨r, hrun, hr, hmem⟩ := h.getDomains_spec hsub
  have hne : ∀ i, (parts i).Nonempty := fun i =>
    List.exists_mem_of_ne_nil _ (h.nonempty domains[i] (List.getElem_mem i.isLt))
  have hcovers : s ⊆ ⋃ i, parts i := fun v hv => Set.mem_iUnion.mpr (h.exists_domain (hsub hv))
  have hwhole : ∀ i, i ∈ getDomainsComplete domains virtualCores ↔ i ∈ whole parts s := hcomplete
  have htouched : ∀ i, i ∈ r ↔ i ∈ touched parts s := fun i => by
    rw [hmem]
    exact ⟨fun ⟨v, hv, hi⟩ => ⟨v, hi, hv⟩, fun ⟨v, hi, hv⟩ => ⟨v, hv, hi⟩⟩
  refine ⟨(List.pairwise_lt_finRange _).filter _, hcomplete, r, hrun, hr, hmem, ?_, ?_⟩
  · intro i hi
    exact (htouched i).mpr (whole_subset_touched hne ((hwhole i).mp hi))
  · have hunion := whole_eq_touched_iff hne h.disjoint hcovers
    simp only [hwhole, htouched, ← Set.ext_iff, hunion]
    refine exists_congr fun t => ?_
    simp [Set.ext_iff, parts, s]

end Divides

/-- Two domains of two virtual cores. -/
def twoDomains : List DomainLinux :=
  [⟨0, [0, 1], [], [], [], 0, [], false⟩, ⟨1, [2, 3], [], [], [], 2, [], false⟩]

theorem twoDomains_divides : Divides twoDomains [0, 1, 2, 3] where
  nonempty := by simp [twoDomains]
  nodup := by simp [twoDomains]
  disjoint := by
    intro i j v hi hj
    fin_cases i <;> fin_cases j <;> simp_all [twoDomains]
    all_goals rcases hi with rfl | rfl <;> simp at hj
  covers := by simp [twoDomains, or_assoc]

/-- One of the domains, and a part of the other. -/
theorem getDomainsComplete_getDomains_two :
    (getDomainsComplete twoDomains [2, 1, 3]).Pairwise (· < ·) ∧
    ∃ r, getDomains twoDomains [2, 1, 3] = .ok r ∧ r.Nodup ∧
      ∀ i ∈ getDomainsComplete twoDomains [2, 1, 3], i ∈ r := by
  have hcounted : Counted [0, 1, 2, 3] := by simp [Counted]
  have hvcs : ([2, 1, 3] : List VirtualCoreId).Nodup := by simp
  have hsub : [2, 1, 3] ⊆ ([0, 1, 2, 3] : List VirtualCoreId) := by simp
  obtain ⟨hsorted, -, r, hrun, hr, -, hincluded, -⟩ :=
    getDomainsComplete_getDomains twoDomains_divides hcounted hvcs hsub
  exact ⟨hsorted, r, hrun, hr, hincluded⟩

end CpuFreq

end Mammut.Cpufreq
