import Mathlib.Data.Nat.Find
import Mathlib.Tactic.IntervalCases
import Mammut.Cpufreq.Domain
import Mammut.Utils.Msr

/-! A domain of an EPYC, which is in one of the P-states that its registers define.  The constructor
lists the frequencies of those that are defined from the last to the first, and the setter takes the
number of a P-state from a position in that list. -/

namespace Mammut.Cpufreq

open Kit Utils

/-- The frequency of a P-state: `(fId / dfsId)*200.0*1000`, where the quotient is of integers. -/
def epycFrequency (fId dfsId : UInt64) : Frequency :=
  UInt32.ofNat ((fId / dfsId).toNat * 200 * 1000)

section Constructor

variable {σ : Type} (sys : System σ)

/-- The body of the loop of the constructor over the P-states. -/
def pushPState (msr : VirtualCoreId) (s : σ) (availableFrequencies : List Frequency) (i : ℕ) :
    List Frequency :=
  let (fIdr, fId) := sys.readBits msr (0xC0010064 + i) 7 0 s
  let (dfsIdr, dfsId) := sys.readBits msr (0xC0010064 + i) 13 8 s
  if !fIdr || !dfsIdr || fId = 0 || dfsId = 0 then availableFrequencies
  else availableFrequencies ++ [epycFrequency fId dfsId]

/-- The constructor for an EPYC. -/
def DomainLinux.newEpyc (s : σ) (domainIdentifier : DomainId) (first : VirtualCoreId)
    (others : List VirtualCoreId) : DomainLinux where
  domainIdentifier := domainIdentifier
  virtualCores := first :: others
  availableGovernors := [.GOVERNOR_USERSPACE]
  availableFrequencies := (List.range 9).reverse.foldl (pushPState sys first s) []
  paths := []
  msr := first
  turboFrequencies := []
  epyc := true

end Constructor

/-- The registers of the virtual cores of an EPYC, which has no files for the frequencies. -/
def epycSystem (stale : BitVec 64) : System (VirtualCoreId → Registers) where
  read _ _ := none
  write _ _ s := (.notOpened, s)
  readBits core which high low s := Msr.readBits which high low (s core)
  writeBits core which high low value s :=
    let (written, registers) := Msr.writeBits which high low stale value (s core)
    (written, Function.update s core registers)
  voltage _ _ := return 0
  governor := .GOVERNOR_NUM
  frequency := 0

/-- What the definition register of P-state `i` says, when it can be read and neither of its two
numbers is zero. -/
def decoded (r : Registers) (i : ℕ) : Option Frequency := do
  let value ← r.content (0xC0010064 + i)
  let fId := value.toNat % 256
  let dfsId := value.toNat / 256 % 64
  if fId = 0 ∨ dfsId = 0 then none else some (UInt32.ofNat (fId / dfsId * 200 * 1000))

theorem pushPState_eq {stale : BitVec 64} (msr : VirtualCoreId) (s : VirtualCoreId → Registers)
    (fs : List Frequency) (i : ℕ) :
    pushPState (epycSystem stale) msr s fs i = fs ++ (decoded (s msr) i).toList := by
  have hread : ∀ high low, (epycSystem stale).readBits msr (0xC0010064 + i) high low s =
      Msr.readBits (0xC0010064 + i) high low (s msr) := fun _ _ => rfl
  unfold pushPState decoded
  simp only [hread]
  cases h : (s msr).content (0xC0010064 + i) with
  | none => simp [Msr.readBits_of_none h]
  | some value =>
    have hfId : (BitFields.extract 7 0 value).toNat = value.toNat % 256 := by
      rw [BitFields.toNat_extract (by decide)]
      simp
    have hdfsId : (BitFields.extract 13 8 value).toNat = value.toNat / 256 % 64 :=
      BitFields.toNat_extract (by decide)
    have hzero : ∀ v : BitVec 64, (UInt64.ofBitVec v = 0) ↔ v.toNat = 0 := by
      intro v
      rw [← UInt64.toNat_inj]
      rfl
    have hquotient : epycFrequency ⟨BitFields.extract 7 0 value⟩ ⟨BitFields.extract 13 8 value⟩ =
        UInt32.ofNat (value.toNat % 256 / (value.toNat / 256 % 64) * 200 * 1000) := by
      rw [epycFrequency, UInt64.toNat_div]
      exact congrArg₂ (fun fId dfsId => UInt32.ofNat (fId / dfsId * 200 * 1000)) hfId hdfsId
    simp only [Msr.readBits_of_some h, hzero, hfId, hdfsId, hquotient, Bool.not_true, Bool.false_or,
      Option.bind_eq_bind, Option.bind_some]
    by_cases hvalid : value.toNat % 256 = 0 ∨ value.toNat / 256 % 64 = 0
    · simp [hvalid]
    · simp [hvalid]

theorem foldl_append_toList {α β : Type} (g : α → Option β) (l : List α) (fs : List β) :
    l.foldl (fun fs i => fs ++ (g i).toList) fs = fs ++ l.filterMap g := by
  induction l generalizing fs with
  | nil => simp
  | cons i l ih => cases h : g i <;> simp [ih, h]

theorem newEpyc_availableFrequencies {stale : BitVec 64} {s : VirtualCoreId → Registers}
    {id : DomainId} {first : VirtualCoreId} {others : List VirtualCoreId} :
    (DomainLinux.newEpyc (epycSystem stale) s id first others).availableFrequencies =
      ((List.range 9).filterMap (decoded (s first))).reverse := by
  have hpush : pushPState (epycSystem stale) first s =
      fun fs i => fs ++ (decoded (s first) i).toList := by
    funext fs i
    exact pushPState_eq first s fs i
  rw [DomainLinux.newEpyc, hpush, foldl_append_toList, List.nil_append, List.filterMap_reverse]

section Rank

variable {α : Type} {g : ℕ → Option α} {i m : ℕ} {a : α}

/-- The numbers below `i` that `g` is defined for. -/
def rank (g : ℕ → Option α) (i : ℕ) : ℕ := ((List.range i).filterMap g).length

theorem rank_le : rank g i ≤ i := by
  have h := List.length_filterMap_le g (List.range i)
  rwa [List.length_range] at h

/-- The last number with a value comes first from the end, behind those above it. -/
theorem filterMap_range_split (hi : i < m) (hg : g i = some a)
    (hlast : ∀ j, i < j → j < m → g j ≠ some a) :
    ∃ above, (List.range m).filterMap g = (List.range i).filterMap g ++ a :: above ∧
      a ∉ above := by
  obtain ⟨n, rfl⟩ : ∃ n, m = i + 1 + n := ⟨m - (i + 1), by omega⟩
  refine ⟨((List.range n).map (i + 1 + ·)).filterMap g, ?_, ?_⟩
  · rw [List.range_add, List.range_succ]
    simp [hg]
  · intro hmem
    obtain ⟨j, hj, hgj⟩ := List.mem_filterMap.mp hmem
    obtain ⟨k, hk, rfl⟩ := List.mem_map.mp hj
    rw [List.mem_range] at hk
    exact hlast (i + 1 + k) (by omega) (by omega) hgj

theorem getElem?_rank (hi : i < m) (hg : g i = some a)
    (hlast : ∀ j, i < j → j < m → g j ≠ some a) :
    ((List.range m).filterMap g)[rank g i]? = some a := by
  obtain ⟨above, hsplit, -⟩ := filterMap_range_split hi hg hlast
  simp [hsplit, rank]

theorem idxOf?_reverse_rank [DecidableEq α] (hi : i < m) (hg : g i = some a)
    (hlast : ∀ j, i < j → j < m → g j ≠ some a) :
    ∃ k, ((List.range m).filterMap g).reverse.idxOf? a = some k ∧
      ((List.range m).filterMap g).reverse.length - 1 - k = rank g i := by
  obtain ⟨above, hsplit, habove⟩ := filterMap_range_split hi hg hlast
  refine ⟨above.length, ?_, ?_⟩
  · have hnone : above.reverse.findIdx? (· == a) = none := by
      rw [List.findIdx?_eq_none_iff]
      intro b hb
      rw [beq_eq_false_iff_ne]
      rintro rfl
      exact habove (List.mem_reverse.mp hb)
    rw [hsplit, List.reverse_append, List.reverse_cons, List.append_assoc, List.idxOf?,
      List.findIdx?_append, hnone]
    simp [List.findIdx?_cons]
  · simp [hsplit, rank]

/-- A value that `g` takes is taken by a last number. -/
theorem exists_last [DecidableEq α] (hmem : a ∈ (List.range m).filterMap g) :
    ∃ i < m, g i = some a ∧ ∀ j, i < j → j < m → g j ≠ some a := by
  obtain ⟨i, hi, hg⟩ := List.mem_filterMap.mp hmem
  rw [List.mem_range] at hi
  refine ⟨Nat.findGreatest (fun j => g j = some a) (m - 1), ?_, ?_, fun j hj hm => ?_⟩
  · exact Nat.lt_of_le_of_lt (Nat.findGreatest_le _) (by omega)
  · exact Nat.findGreatest_spec (P := fun j => g j = some a) (by omega : i ≤ m - 1) hg
  · exact Nat.findGreatest_is_greatest hj (by omega)

end Rank

/-- A write of the number of a P-state to the register that the core is switched by. -/
def writePState (stale : BitVec 64) (d : DomainLinux) (p : UInt64) :
    Call (VirtualCoreId → Registers) Bool :=
  modifyGet ((epycSystem stale).writeBits d.msr 0xC0010062 2 0 p)

/-- Each available frequency is set by a write of the number of a P-state that has it, and is read
back when the write succeeds. -/
def PicksPStates (stale : BitVec 64) (defs : Registers) (d : DomainLinux) : Prop :=
  ∀ f ∈ d.getAvailableFrequencies, ∃ p : UInt64, p.toNat < 8 ∧ decoded defs p.toNat = some f ∧
    ∀ s, (d.setFrequencyUserspace (epycSystem stale) f).run s = (writePState stale d p).run s ∧
      ∀ t, (writePState stale d p).run s = .ok true t →
        (d.getCurrentFrequencyUserspace (epycSystem stale)).run t = .ok f t

/-- The last P-state of each frequency could be taken for the one that has as its number how many
are defined below it, in three bits: that one has the same frequency. -/
def NumbersAgree (defs : Registers) : Prop :=
  ∀ i < 9, ∀ f, decoded defs i = some f → (∀ j, i < j → j < 9 → decoded defs j ≠ some f) →
    decoded defs (rank (decoded defs) i % 8) = some f

section Write

variable {stale : BitVec 64} {d : DomainLinux} {p q : UInt64} {s t : VirtualCoreId → Registers}

theorem writePState_congr (h : p.toNat % 8 = q.toNat % 8) :
    writePState stale d p = writePState stale d q := by
  have hsame : ∀ r : Registers, Msr.writeBits 0xC0010062 2 0 stale p r =
      Msr.writeBits 0xC0010062 2 0 stale q r := by
    intro r
    have hinsert : ∀ old : BitVec 64, BitFields.insert 2 0 old p.toBitVec =
        BitFields.insert 2 0 old q.toBitVec := fun old =>
      BitFields.insert_congr h
    rw [Msr.writeBits, Msr.writeBits, hinsert]
  unfold writePState epycSystem
  simp only [hsame]

theorem readBits_writePState (h : (writePState stale d p).run s = .ok true t) :
    ∃ q, Msr.readBits 0xC0010062 2 0 (t d.msr) = (true, q) ∧ q.toNat = p.toNat % 8 := by
  have hrun : (writePState stale d p).run s =
      .ok (Msr.writeBits 0xC0010062 2 0 stale p (s d.msr)).1
        (Function.update s d.msr (Msr.writeBits 0xC0010062 2 0 stale p (s d.msr)).2) := rfl
  rw [hrun, EStateM.Result.ok.injEq] at h
  obtain ⟨hok, rfl⟩ := h
  cases hwritable : (s d.msr).writable 0xC0010062 with
  | false =>
    rw [Msr.writeBits_of_not_writable hwritable] at hok
    cases hok
  | true =>
    refine ⟨⟨BitFields.extract 2 0 (BitFields.insert 2 0
      (((s d.msr).content 0xC0010062).getD stale) p.toBitVec)⟩, ?_, ?_⟩
    · apply Msr.readBits_of_some
      simp [Msr.writeBits_of_writable hwritable]
    · exact BitFields.toNat_extract_insert (by decide) (by decide)

theorem setFrequencyUserspace_epyc (hepyc : d.epyc = true) {f : Frequency} {k : ℕ}
    (hk : d.availableFrequencies.idxOf? f = some k) :
    d.setFrequencyUserspace (epycSystem stale) f =
      writePState stale d (UInt64.ofNat (d.availableFrequencies.length - 1 - k)) := by
  simp [DomainLinux.setFrequencyUserspace, hepyc, hk, writePState]

theorem getCurrentFrequencyUserspace_epyc (hepyc : d.epyc = true) {f : Frequency}
    (hread : Msr.readBits 0xC0010062 2 0 (t d.msr) = (true, q))
    (hf : d.availableFrequencies.reverse[q.toNat]? = some f) :
    (d.getCurrentFrequencyUserspace (epycSystem stale)).run t = .ok f t := by
  have hpstate : (d.getCurrentEpycPstate (epycSystem stale)).run t = .ok q t := by
    have hbits : (epycSystem stale).readBits d.msr 0xC0010062 2 0 t = (true, q) := hread
    simp [DomainLinux.getCurrentEpycPstate, hbits]
  simp [DomainLinux.getCurrentFrequencyUserspace, hepyc, hpstate, hf]

end Write

section Domain

variable {stale : BitVec 64} {s : VirtualCoreId → Registers} {d : DomainLinux} {defs : Registers}
  {f : Frequency} {i : ℕ}

/-- The number that is written for a frequency: how many P-states are defined below the last one
that has it. -/
theorem setFrequencyUserspace_rank (hepyc : d.epyc = true)
    (havail : d.availableFrequencies = ((List.range 9).filterMap (decoded defs)).reverse)
    (hi : i < 9) (hf : decoded defs i = some f)
    (hlast : ∀ j, i < j → j < 9 → decoded defs j ≠ some f) :
    d.setFrequencyUserspace (epycSystem stale) f =
      writePState stale d (UInt64.ofNat (rank (decoded defs) i)) := by
  obtain ⟨k, hk, hrank⟩ := idxOf?_reverse_rank hi hf hlast
  rw [← havail] at hk hrank
  rw [setFrequencyUserspace_epyc hepyc hk, hrank]

theorem toNat_rank (hi : i < 9) :
    (UInt64.ofNat (rank (decoded defs) i)).toNat = rank (decoded defs) i := by
  have hle : rank (decoded defs) i ≤ i := rank_le
  rw [UInt64.toNat_ofNat']
  omega

/-- The frequency at the position that is read for a number counted below the last P-state. -/
theorem frequency_at_rank (hi : i < 9) (hf : decoded defs i = some f)
    (hlast : ∀ j, i < j → j < 9 → decoded defs j ≠ some f)
    (hagree : decoded defs (rank (decoded defs) i % 8) = some f) :
    ((List.range 9).filterMap (decoded defs))[rank (decoded defs) i % 8]? = some f := by
  have hle : rank (decoded defs) i ≤ i := rank_le
  by_cases hlt : rank (decoded defs) i < 8
  · rw [Nat.mod_eq_of_lt hlt]
    exact getElem?_rank hi hf hlast
  · -- all nine P-states are defined, and the number 8 is written as 0
    have hzero : rank (decoded defs) i % 8 = 0 := by omega
    rw [hzero] at hagree ⊢
    have hrange : List.range 9 = 0 :: (List.range 8).map Nat.succ := List.range_succ_eq_map
    rw [hrange, List.filterMap_cons_some hagree]
    rfl

theorem exists_writable (stale : BitVec 64) (d : DomainLinux) (p : UInt64) :
    ∃ s t, (writePState stale d p).run s = .ok true t :=
  ⟨fun _ => ⟨fun _ => none, fun _ => true⟩, _, rfl⟩

/-- What is written for the last P-state with a frequency is the number of one that has it too. -/
theorem PicksPStates.agree (hpicks : PicksPStates stale defs d) (hepyc : d.epyc = true)
    (havail : d.availableFrequencies = ((List.range 9).filterMap (decoded defs)).reverse) :
    NumbersAgree defs := by
  intro i hi f hf hlast
  have hmem : f ∈ d.getAvailableFrequencies := by
    rw [DomainLinux.getAvailableFrequencies, havail, List.mem_reverse]
    exact List.mem_filterMap.mpr ⟨i, List.mem_range.mpr hi, hf⟩
  obtain ⟨p, hp, hdecoded, hruns⟩ := hpicks f hmem
  rw [setFrequencyUserspace_rank hepyc havail hi hf hlast] at hruns
  obtain ⟨s, t, hwrite⟩ := exists_writable stale d (UInt64.ofNat (rank (decoded defs) i))
  obtain ⟨q, hq, hrank⟩ := readBits_writePState hwrite
  obtain ⟨q', hq', hpq⟩ := readBits_writePState ((hruns s).1.symm.trans hwrite)
  have hsame : q = q' := (Prod.mk.inj (hq.symm.trans hq')).2
  rw [toNat_rank hi] at hrank
  rw [← hrank, hsame, hpq, Nat.mod_eq_of_lt hp]
  exact hdecoded

end Domain

/-- A domain of an EPYC sets the P-states of its frequencies exactly when numbers that are counted
among the defined P-states agree with the numbers of the P-states. -/
theorem picksPStates_iff (stale : BitVec 64) (s : VirtualCoreId → Registers) (id : DomainId)
    (first : VirtualCoreId) (others : List VirtualCoreId) :
    PicksPStates stale (s first)
        (DomainLinux.newEpyc (epycSystem stale) s id first others) ↔ NumbersAgree (s first) := by
  have havail := @newEpyc_availableFrequencies stale s id first others
  have hepyc : (DomainLinux.newEpyc (epycSystem stale) s id first others).epyc = true := rfl
  generalize DomainLinux.newEpyc (epycSystem stale) s id first others = d at havail hepyc ⊢
  constructor
  · intro hpicks
    exact hpicks.agree hepyc havail
  · intro hagree f hmem
    rw [DomainLinux.getAvailableFrequencies, havail, List.mem_reverse] at hmem
    obtain ⟨i, hi, hf, hlast⟩ := exists_last hmem
    have hdecoded := hagree i hi f hf hlast
    have hmod : (UInt64.ofNat (rank (decoded (s first)) i % 8)).toNat =
        rank (decoded (s first)) i % 8 := by
      rw [UInt64.toNat_ofNat']
      omega
    have hcongr : (UInt64.ofNat (rank (decoded (s first)) i)).toNat % 8 =
        (UInt64.ofNat (rank (decoded (s first)) i % 8)).toNat % 8 := by
      rw [toNat_rank hi, hmod, Nat.mod_mod]
    refine ⟨UInt64.ofNat (rank (decoded (s first)) i % 8), ?_, ?_,
      fun s' => ⟨?_, fun t hwrite => ?_⟩⟩
    · rw [hmod]
      exact Nat.mod_lt _ (by decide)
    · rw [hmod]
      exact hdecoded
    · rw [setFrequencyUserspace_rank hepyc havail hi hf hlast, writePState_congr hcongr]
    · obtain ⟨q, hq, hrank⟩ := readBits_writePState hwrite
      rw [hmod, Nat.mod_mod] at hrank
      apply getCurrentFrequencyUserspace_epyc hepyc hq
      rw [havail, List.reverse_reverse, hrank]
      exact frequency_at_rank hi hf hlast hdecoded

/-- Up to eight P-states, defined from the first one on without a gap. -/
theorem numbersAgree_of_initial {defs : Registers} {n : ℕ} (hn : n ≤ 8)
    (h : ∀ i < 9, (decoded defs i).isSome ↔ i < n) : NumbersAgree defs := by
  intro i hi f hf _
  have hin : i < n := (h i hi).mp (by rw [hf]; rfl)
  have hrank : rank (decoded defs) i = i := by
    have hdefined : ∀ j ∈ List.range i, (decoded defs j).isSome := fun j hj =>
      (h j (by have := List.mem_range.mp hj; omega)).mpr (by have := List.mem_range.mp hj; omega)
    rw [rank, List.length_filterMap_eq_countP, List.countP_eq_length.mpr hdefined,
      List.length_range]
  rw [hrank, Nat.mod_eq_of_lt (by omega)]
  exact hf

/-- P-states 0 and 2 at 2.4 and 1.8 GHz, and a register of zeros between them. -/
def gapAtOne : Registers where
  content which :=
    if which = 0xC0010064 then some 0x0218
    else if which = 0xC0010065 then some 0
    else if which = 0xC0010066 then some 0x0212
    else none
  writable _ := true

/-- The frequency of P-state 2 is set by the number 1. -/
theorem gapAtOne_not_picked :
    ¬PicksPStates 0 gapAtOne
      (DomainLinux.newEpyc (epycSystem 0) (fun _ => gapAtOne) 0 0 []) := by
  intro hpicks
  have hagree := hpicks.agree rfl newEpyc_availableFrequencies
  have hlast : ∀ j, 2 < j → j < 9 → decoded gapAtOne j ≠ some 1800000 := by
    intro j hlow hhigh
    have hnone : decoded gapAtOne j = none := by
      interval_cases j <;> rfl
    simp [hnone]
  have hwrong := hagree 2 (by decide) 1800000 (by decide) hlast
  revert hwrong
  decide

end Mammut.Cpufreq
