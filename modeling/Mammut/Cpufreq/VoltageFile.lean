import Mathlib.Tactic.IntervalCases
import Mammut.Cpufreq.Voltages
import Mammut.Utils.Doubles
import Mammut.Utils.Words

/-! The file of a voltage table, from `cpufreq.cpp`: `dumpVoltageTable` writes a line for each entry,
and `loadVoltageTable` reads them. -/

namespace Mammut.Cpufreq

open Kit Kit.Digits Utils

/-- A `VoltageTable`, with the voltages as the numbers that they are. -/
abbrev ExactVoltageTable := OrdMap VoltageTableKey ℚ

/-- The contents of the files that can be opened. -/
abbrev Files := String → Option String

/-- A `uint` from what `stringToInt` returns. -/
def uintOf (s : String) : UInt32 := ⟨BitVec.ofInt 32 (intOf (stringToInt s))⟩

def entryLine (e : VoltageTableKey × ℚ) : String :=
  intToString e.1.first.toNat ++ ";" ++ intToString e.1.second.toNat ++ ";" ++ doubleToString e.2

/-- What `dumpVoltageTable` writes. -/
def dumpedLines (voltageTable : ExactVoltageTable) : List String :=
  "# This file contains the voltage table in the following format: " ::
    "# NumVirtualCores;Frequency;Voltage" :: voltageTable.entries.map entryLine

def dumpVoltageTable (writable : String → Bool) (voltageTable : ExactVoltageTable)
    (fileName : String) : Call Files Unit := do
  if !writable fileName then
    throw (.runtimeError "Impossible to open the specified voltage table file.")
  modify fun files => Function.update files fileName (some (ofLines (dumpedLines voltageTable)))

/-- The body of the loop over the lines. -/
def loadLine (voltageTable : ExactVoltageTable) (line : String) :
    Call Files ExactVoltageTable :=
  match line.toList with
  | [] => throw .outOfRange
  | c :: _ =>
    if c = '#' then return voltageTable
    else
      match split line ';' with
      | first :: second :: voltage :: _ =>
        return voltageTable.insert ⟨uintOf first, uintOf second⟩ (stringToDouble voltage)
      | _ => throw .outOfRange

def loadVoltageTable (fileName : String) : Call Files ExactVoltageTable := do
  match (← get) fileName with
  | none => throw (.runtimeError "Impossible to open the specified voltage table file.")
  | some text => (split text '\n').foldlM loadLine OrdMap.empty

/-- A number of at most six significant digits. -/
def SixDigits (x : ℚ) : Prop := ∃ s : Scaled, s.significand < 10 ^ 6 ∧ |x| = s.value 10

theorem uintOf_intToString (n : UInt32) : uintOf (intToString n.toNat) = n := by
  have hlt := n.toNat_lt
  have hbits : BitVec.ofInt 32 (n.toNat : Int) = n.toBitVec := by
    rw [BitVec.ofInt_natCast]
    exact congrArg UInt32.toBitVec n.ofNat_toNat
  rw [uintOf, stringToInt_intToString, ofInt_intOf (by omega) (by omega), hbits]

theorem not_mem_entry {c : Char} (hc : ¬IsNumberChar c) (e : VoltageTableKey × ℚ) :
    c ∉ (intToString e.1.first.toNat).toList ∧ c ∉ (intToString e.1.second.toNat).toList ∧
      c ∉ (doubleToString e.2).toList := by
  refine ⟨fun hmem => hc ?_, fun hmem => hc ?_, fun hmem => hc ?_⟩
  · exact .inl (isDigit_of_mem_intToString hmem)
  · exact .inl (isDigit_of_mem_intToString hmem)
  · exact isNumberChar_doubleToString e.2 c hmem

theorem not_isNumberChar_of_separator :
    ¬IsNumberChar ';' ∧ ¬IsNumberChar '\n' ∧ ¬IsNumberChar '#' := by
  unfold IsNumberChar
  decide

theorem split_entryLine (e : VoltageTableKey × ℚ) : split (entryLine e) ';' =
    [intToString e.1.first.toNat, intToString e.1.second.toNat, doubleToString e.2] := by
  obtain ⟨hfirst, hsecond, hvoltage⟩ := not_mem_entry not_isNumberChar_of_separator.1 e
  refine split_three ?_ hfirst hsecond hvoltage (doubleToString_ne_nil e.2)
  simp [entryLine]

/-- The line of an entry is read as the entry, with the voltage that its text shows. -/
theorem loadLine_entry (voltageTable : ExactVoltageTable) (e : VoltageTableKey × ℚ) :
    loadLine voltageTable (entryLine e) =
      pure (voltageTable.insert e.1 (stringToDouble (doubleToString e.2))) := by
  obtain ⟨c, cs, hdigits, hc⟩ := toDigits_cons e.1.first.toNat
  have htext : (entryLine e).toList = c :: (cs ++ (";" ++ intToString e.1.second.toNat ++ ";" ++
      doubleToString e.2).toList) := by
    simp [entryLine, toList_intToString, hdigits]
  have hne : c ≠ '#' := by
    rintro rfl
    exact absurd hc (by decide)
  unfold loadLine
  rw [htext]
  show (if c = '#' then _ else _) = _
  rw [if_neg hne, split_entryLine]
  show pure (voltageTable.insert ⟨uintOf _, uintOf _⟩ _) = _
  rw [uintOf_intToString, uintOf_intToString]

variable {writable : String → Bool} {fileName : String}

theorem dumpVoltageTable_run (hopen : writable fileName = true) (voltageTable : ExactVoltageTable)
    (files : Files) : (dumpVoltageTable writable voltageTable fileName).run files =
      .ok () (Function.update files fileName (some (ofLines (dumpedLines voltageTable)))) := by
  unfold dumpVoltageTable
  rw [hopen]
  rfl

theorem dumpedLines_newline (voltageTable : ExactVoltageTable) :
    ∀ line ∈ dumpedLines voltageTable, '\n' ∉ line.toList := by
  unfold dumpedLines
  rw [List.forall_mem_cons, List.forall_mem_cons]
  refine ⟨by simp, by simp, ?_⟩
  intro line hline
  obtain ⟨e, -, rfl⟩ := List.mem_map.mp hline
  obtain ⟨hfirst, hsecond, hvoltage⟩ := not_mem_entry not_isNumberChar_of_separator.2.1 e
  simpa [entryLine] using ⟨hfirst, hsecond, hvoltage⟩

theorem loadLine_comment {line : String} (h : line.toList.head? = some '#')
    (voltageTable : ExactVoltageTable) : loadLine voltageTable line = pure voltageTable := by
  obtain ⟨cs, hcs⟩ := List.head?_eq_some_iff.mp h
  unfold loadLine
  rw [hcs]
  rfl

/-- The entries are read one after the other. -/
theorem loadLines_entries (entries : List (VoltageTableKey × ℚ)) (voltageTable : ExactVoltageTable) :
    (entries.map entryLine).foldlM loadLine voltageTable = (pure (entries.foldl (fun r e =>
      r.insert e.1 (stringToDouble (doubleToString e.2))) voltageTable) :
        Call Files ExactVoltageTable) := by
  induction entries generalizing voltageTable with
  | nil => rfl
  | cons e entries ih =>
    rw [List.map_cons, List.foldlM_cons, loadLine_entry, pure_bind, ih]
    rfl

/-- What is read of a file that was written is the table with the voltages that their texts show. -/
theorem loadVoltageTable_run (voltageTable : ExactVoltageTable) {files : Files}
    (hfile : files fileName = some (ofLines (dumpedLines voltageTable))) :
    (loadVoltageTable fileName).run files =
      .ok (voltageTable.mapValues fun v => stringToDouble (doubleToString v)) files := by
  have hlines : (dumpedLines voltageTable).foldlM loadLine OrdMap.empty =
      (pure (voltageTable.mapValues fun v => stringToDouble (doubleToString v)) :
        Call Files ExactVoltageTable) := by
    rw [dumpedLines, List.foldlM_cons, loadLine_comment (by simp), pure_bind, List.foldlM_cons,
      loadLine_comment (by simp), pure_bind, loadLines_entries,
      OrdMap.foldl_insert_eq fun v => stringToDouble (doubleToString v)]
  have hget : (get : Call Files Files).run files = .ok files files := rfl
  rw [loadVoltageTable, EStateM.run_bind, hget]
  simp only [hfile, split_ofLines (dumpedLines_newline voltageTable), hlines]
  rfl

/-- A table that was dumped is loaded just when its voltages have no more than six digits. -/
theorem loadVoltageTable_dump_iff (hopen : writable fileName = true)
    (voltageTable : ExactVoltageTable) (files : Files) :
    (∃ files', (do
      dumpVoltageTable writable voltageTable fileName
      loadVoltageTable fileName).run files = .ok voltageTable files') ↔
      ∀ e ∈ voltageTable.entries, SixDigits e.2 := by
  have hload := loadVoltageTable_run voltageTable
    (Function.update_self fileName (some (ofLines (dumpedLines voltageTable))) files)
  rw [EStateM.run_bind, dumpVoltageTable_run hopen]
  show (∃ files', (loadVoltageTable fileName).run _ = .ok voltageTable files') ↔ _
  have hvalues : (∀ e ∈ voltageTable.entries, SixDigits e.2) ↔
      voltageTable.mapValues (fun v => stringToDouble (doubleToString v)) = voltageTable := by
    rw [OrdMap.mapValues_eq_self_iff]
    exact forall₂_congr fun e _ => (stringToDouble_doubleToString_iff e.2).symm
  rw [hload, hvalues]
  constructor
  · rintro ⟨files', h⟩
    exact (EStateM.Result.ok.inj h).1
  · intro h
    exact ⟨_, congrArg (EStateM.Result.ok · _) h⟩

/-- The table of two cores at 2.4 GHz. -/
def sampleTable (voltage : ℚ) : ExactVoltageTable :=
  ⟨[(⟨2, 2400000⟩, voltage)], List.pairwise_singleton _ _⟩

theorem loadVoltageTable_sample : ∃ files', (do
    dumpVoltageTable (fun _ => true) (sampleTable (9 / 8)) "voltageTable.txt"
    loadVoltageTable "voltageTable.txt").run (fun _ => none) =
      .ok (sampleTable (9 / 8)) files' := by
  refine (loadVoltageTable_dump_iff rfl (sampleTable (9 / 8)) fun _ => none).mpr ?_
  intro e he
  rw [List.mem_singleton.mp he]
  refine ⟨⟨1125, -3⟩, by norm_num, ?_⟩
  show |(9 / 8 : ℚ)| = 1125 * 10 ^ (-3 : ℤ)
  norm_num [abs_of_pos]

/-- A voltage as `MSR_PERF_STATUS` shows it has more digits. -/
theorem not_sixDigits : ¬SixDigits (9001 / 8192) := by
  rintro ⟨⟨m, e⟩, hm, hvalue⟩
  rw [abs_of_pos (by norm_num), Scaled.value] at hvalue
  replace hm : m < 1000000 := hm
  rcases Int.eq_nat_or_neg e with ⟨k, rfl | rfl⟩
  · have hwhole : 9001 = 8192 * (m * 10 ^ k) := by
      have hq : (9001 : ℚ) = 8192 * (m * 10 ^ k) := by
        rw [div_eq_iff (by norm_num), zpow_natCast] at hvalue
        push_cast at hvalue
        linarith
      exact_mod_cast hq
    omega
  · have hwhole : 9001 * 10 ^ k = 8192 * m := by
      have hq : (9001 : ℚ) * 10 ^ k = 8192 * m := by
        rw [zpow_neg, zpow_natCast, div_eq_iff (by norm_num)] at hvalue
        push_cast at hvalue
        rw [hvalue]
        field_simp
      exact_mod_cast hq
    have hk : k < 6 := by
      by_contra hk
      have hpow : 10 ^ 6 ≤ 10 ^ k := Nat.pow_le_pow_right (by decide) (not_lt.mp hk)
      omega
    interval_cases k <;> omega

theorem loadVoltageTable_not_dumped : ¬∀ (writable : String → Bool) (fileName : String)
    (voltageTable : ExactVoltageTable) (files : Files), writable fileName = true →
      (∀ e ∈ voltageTable.entries, ∃ r k : ℕ, e.2 = r / 2 ^ k) → ∃ files', (do
        dumpVoltageTable writable voltageTable fileName
        loadVoltageTable fileName).run files = .ok voltageTable files' := by
  intro h
  have hdyadic : ∀ e ∈ (sampleTable (9001 / 8192)).entries, ∃ r k : ℕ, e.2 = r / 2 ^ k := by
    intro e he
    rw [List.mem_singleton.mp he]
    exact ⟨9001, 13, by norm_num⟩
  obtain ⟨files', hrun⟩ := h (fun _ => true) "voltageTable.txt" (sampleTable (9001 / 8192))
    (fun _ => none) rfl hdyadic
  have hload := loadVoltageTable_run (sampleTable (9001 / 8192)) (Function.update_self
    "voltageTable.txt" (some (ofLines (dumpedLines (sampleTable (9001 / 8192))))) fun _ => none)
  have hdump : (dumpVoltageTable (fun _ => true) (sampleTable (9001 / 8192))
      "voltageTable.txt").run (fun _ => none) = _ := dumpVoltageTable_run rfl _ _
  rw [EStateM.run_bind, hdump] at hrun
  have hmap := (EStateM.Result.ok.inj (hload.symm.trans hrun)).1
  have hvoltage := OrdMap.mapValues_eq_self_iff.mp hmap _ (List.mem_singleton_self _)
  exact not_sixDigits ((stringToDouble_doubleToString_iff _).mp hvoltage)

end Mammut.Cpufreq
