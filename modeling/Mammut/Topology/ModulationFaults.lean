import Mammut.Topology.Rollback

/-! The accesses to `MSR_CLOCK_MODULATION` may fail one by one, and `setClockModulation` does not
look at their results: which of the ways to fail leave the register as it was or with the value. -/

set_option linter.dupNamespace false

namespace Mammut.Topology

open Kit Kit.BitFields Utils VirtualCoreLinux

/-- How the accesses of one `writeBits` end: what a read that fails leaves in `oldValue`, or `none`
if it succeeds, and whether the write succeeds. -/
structure Fault where
  oldValue : Option (BitVec 64)
  written : Bool
  deriving DecidableEq

namespace Fault

def none : Fault := ⟨Option.none, true⟩

/-- What `oldValue` holds after the read. -/
def seen (f : Fault) (content : BitVec 64) : BitVec 64 := f.oldValue.getD content

end Fault

/-- The content of the register, and how the accesses to come end. -/
structure FaultyMsr where
  content : BitVec 64
  faults : List Fault

namespace FaultyMsr

def next (s : FaultyMsr) : Fault := s.faults.headD .none

/-- The register that the accesses find: a read that fails is one of what it leaves in `oldValue`,
and a write that fails changes nothing. -/
def msrs (extended : Bool) : ClockMsrs FaultyMsr where
  available _ := true
  extended _ := extended
  registers _ s := ⟨fun _ => some (s.next.seen s.content), fun _ => s.next.written⟩
  setRegisters _ r s :=
    { content := if s.next.written then (r.content MSR_CLOCK_MODULATION).getD s.content
        else s.content
      faults := s.faults.tail }
  stale := 0

variable {extended : Bool} {v : VirtualCoreId} {c : BitVec 64} {f : Fault} {faults : List Fault}

/-- The bits that are written after a read that fails are those of a register that cannot be read,
with what the read leaves in `oldValue`. -/
theorem writeBits_unreadable (high low : ℕ) (value : UInt64) (oldValue : BitVec 64) :
    (Msr.writeBits MSR_CLOCK_MODULATION high low oldValue value
        ⟨fun _ => none, fun _ => true⟩).2.content MSR_CLOCK_MODULATION =
      (Msr.writeBits MSR_CLOCK_MODULATION high low (msrs extended).stale value
        ((msrs extended).registers v ⟨c, ⟨some oldValue, true⟩ :: faults⟩)).2.content
          MSR_CLOCK_MODULATION := by
  simp [Msr.writeBits, Msr.write, msrs, next, Fault.seen]

theorem writeBits_run (high low : ℕ) (value : UInt64) :
    ((msrs extended).writeBits v high low value).run ⟨c, f :: faults⟩ = .ok f.written
      ⟨if f.written then insert high low (f.seen c) value.toBitVec else c, faults⟩ := by
  have hget (s : FaultyMsr) : (get : Call FaultyMsr FaultyMsr).run s = .ok s s := rfl
  have hnext : next ⟨c, f :: faults⟩ = f := rfl
  simp only [ClockMsrs.writeBits, msrs, if_true, EStateM.run_bind, hget, hnext, EStateM.run_modify,
    EStateM.run_pure]
  cases hwritten : f.written with
  | false => simp [Msr.writeBits, Msr.write]
  | true => simp [Msr.writeBits, Msr.write]

/-- The duty cycle that stands for a value. -/
def dutyOf (step value : ℚ) : BitVec 64 := (UInt64.ofNat (value / step).floor.toNat).toBitVec

/-- The bits outside the modulation are the same. -/
def SameOutside (low : ℕ) (x y : BitVec 64) : Prop :=
  ∀ k, ¬ (low ≤ k ∧ k ≤ 4) → x.getLsbD k = y.getLsbD k

/-- The register is as it was, or shows the value, and no other bit has changed. -/
def Intact (low : ℕ) (step value : ℚ) (before content : BitVec 64) : Prop :=
  (content = before ∨ decode low step content = value) ∧ SameOutside low content before

/-- What the write of the duty cycle may find, where the register was `c` before the call. -/
def DutyCoherent (low : ℕ) (step value : ℚ) (c found : BitVec 64) : Prop :=
  SameOutside low found c ∧
    (found.getLsbD 4 = true ∨ c.getLsbD 4 = false ∧ extract 3 low c = dutyOf step value)

/-- What the write of bit 4 may find when the duty cycle is not written after it. -/
def EnableCoherent (low : ℕ) (step value : ℚ) (c found : BitVec 64) : Prop :=
  SameOutside low found c ∧ (extract 3 low found = dutyOf step value ∨
    c.getLsbD 4 = true ∧ extract 3 low found = extract 3 low c)

/-- How the accesses may end: for a value below 100, bit 4 and the duty cycle are written by one
access each. -/
def Coherent (low : ℕ) (step value : ℚ) (c : BitVec 64) (first second : Fault) : Prop :=
  if value = 100 then first.written = true → SameOutside low (first.seen c) c
  else match first.written, second.written with
    | false, false => True
    | true, false => EnableCoherent low step value c (first.seen c)
    | false, true => DutyCoherent low step value c (second.seen c)
    | true, true => match second.oldValue with
      | none => SameOutside low (first.seen c) c
      | some oldValue => DutyCoherent low step value c oldValue

section Parts

variable {low high n : ℕ} {step value : ℚ} {x y field : BitVec 64}

/-- A word is its modulation and the bits outside it. -/
theorem eq_iff_parts (hlow : low ≤ 3) : x = y ↔
    SameOutside low x y ∧ x.getLsbD 4 = y.getLsbD 4 ∧ extract 3 low x = extract 3 low y := by
  constructor
  · rintro rfl
    exact ⟨fun _ _ => rfl, rfl, rfl⟩
  · rintro ⟨hout, hbit, hduty⟩
    refine BitVec.eq_of_getLsbD_eq fun k _ => ?_
    by_cases hin : low ≤ k ∧ k ≤ 3
    · have hk := congrArg (BitVec.getLsbD · (k - low)) hduty
      simp only [getLsbD_extract hlow (by decide : 3 < 64)] at hk
      rw [show low + (k - low) = k by omega] at hk
      have hle : k - low ≤ 3 - low := by omega
      simpa [hle] using hk
    · by_cases hfour : k = 4
      · rw [hfour]
        exact hbit
      · exact hout k (by omega)

theorem sameOutside_insert {bottom : ℕ} (hlow : low ≤ bottom) (hhigh : high ≤ 4) :
    SameOutside low (insert high bottom x field) y ↔ SameOutside low x y := by
  refine forall_congr' fun k => imp_congr_right fun hout => ?_
  by_cases hk : k < 64
  · rw [getLsbD_insert hk, if_neg (by omega)]
  · rw [BitVec.getLsbD_of_ge _ _ (by omega), BitVec.getLsbD_of_ge x _ (by omega)]

theorem getLsbD_insert_duty : (insert 3 low x field).getLsbD 4 = x.getLsbD 4 := by
  rw [getLsbD_insert (by decide), if_neg (by omega)]

theorem getLsbD_insert_enable : (insert 4 4 x 1).getLsbD 4 = true := by
  rw [getLsbD_insert (by decide), if_pos (by omega)]
  rfl

theorem extract_insert_enable (hlow : low ≤ 3) :
    extract 3 low (insert 4 4 x field) = extract 3 low x :=
  extract_insert_disjoint hlow (by decide) (.inl (by decide))

theorem dutyOf_steps (hstep : step ≠ 0) :
    dutyOf step (step * n) = (UInt64.ofNat n).toBitVec := by
  rw [dutyOf, floor_steps hstep]

/-- A supported value below 100 is a number of steps that fits in the field of the duty cycle. -/
structure Steps (low : ℕ) (step value : ℚ) : Prop where
  low_le : low ≤ 3
  step_ne : step ≠ 0
  ne_full : value ≠ 100
  fits : (dutyOf step value).toNat < 2 ^ (3 - low + 1)
  eq_mul : value = (dutyOf step value).toNat * step

theorem Steps.extract_insert (h : Steps low step value) :
    extract 3 low (insert 3 low x (dutyOf step value)) = dutyOf step value :=
  extract_insert_self h.low_le (by decide) h.fits

/-- The contents that show the value. -/
theorem Steps.decode_eq (h : Steps low step value) : decode low step x = value ↔
    x.getLsbD 4 = true ∧ extract 3 low x = dutyOf step value := by
  by_cases hbit : extract 4 4 x = 0
  · have hoff : x.getLsbD 4 = false := extract_bit_eq_zero.mp hbit
    rw [decode, if_pos hbit, hoff]
    simp [Ne.symm h.ne_full]
  · have hon : x.getLsbD 4 = true := by
      rw [extract_bit_eq_zero] at hbit
      simpa using hbit
    rw [decode, if_neg hbit, hon]
    constructor
    · intro heq
      rw [h.eq_mul] at heq
      have hcast := mul_right_cancel₀ h.step_ne heq
      exact ⟨rfl, BitVec.eq_of_toNat_eq (Nat.cast_injective hcast)⟩
    · intro heq
      rw [heq.2]
      exact h.eq_mul.symm

/-- The duty cycle is written over what the access finds. -/
theorem Steps.intact_duty (h : Steps low step value) :
    Intact low step value x (insert 3 low y (dutyOf step value)) ↔
      DutyCoherent low step value x y := by
  have hout : SameOutside low (insert 3 low y (dutyOf step value)) x ↔ SameOutside low y x :=
    sameOutside_insert le_rfl (by decide)
  rw [Intact, DutyCoherent, h.decode_eq, eq_iff_parts h.low_le, hout, getLsbD_insert_duty,
    h.extract_insert]
  cases y.getLsbD 4 <;> cases x.getLsbD 4 <;> grind

/-- Bit 4 is written over what the access finds. -/
theorem Steps.intact_enable (h : Steps low step value) :
    Intact low step value x (insert 4 4 y 1) ↔ EnableCoherent low step value x y := by
  have hlow := h.low_le
  have hout : SameOutside low (insert 4 4 y 1) x ↔ SameOutside low y x :=
    sameOutside_insert (by omega) le_rfl
  rw [Intact, EnableCoherent, h.decode_eq, eq_iff_parts hlow, hout, getLsbD_insert_enable,
    extract_insert_enable hlow]
  cases x.getLsbD 4 <;> grind

/-- The duty cycle is written over what the access that enables the modulation left. -/
theorem Steps.intact_both (h : Steps low step value) :
    Intact low step value x (insert 3 low (insert 4 4 y 1) (dutyOf step value)) ↔
      SameOutside low y x := by
  have hlow := h.low_le
  rw [h.intact_duty, DutyCoherent, sameOutside_insert (by omega) le_rfl, getLsbD_insert_enable]
  simp

end Parts

section Runs

open VirtualCoreLinux

variable {value : ℚ} {first second : Fault}

theorem steps_of_supported (hvalue : value ∈ getClockModulationValues (msrs extended) v)
    (hne : value ≠ 100) :
    Steps (clkModLowBit (msrs extended) v) (clkModStep (msrs extended) v) value := by
  have hlow := clkModLowBit_le (msrs extended) v
  have hstep := (clkModStep_pos (msrs extended) v).ne'
  obtain ⟨n, rfl, hfits⟩ := VirtualCoreLinux.steps_of_mem (msrs extended) v hvalue hne
  have hduty : (dutyOf (clkModStep (msrs extended) v) (clkModStep (msrs extended) v * n)).toNat =
      n := by
    rw [dutyOf_steps hstep]
    exact toNat_steps hfits
  refine ⟨by omega, hstep, hne, ?_, ?_⟩
  · rwa [hduty, show 3 - clkModLowBit (msrs extended) v + 1 = 4 - clkModLowBit (msrs extended) v by
      omega]
  · rw [hduty, mul_comm]

/-- The register after the call. -/
def after (low : ℕ) (step value : ℚ) (c : BitVec 64) (first second : Fault) : BitVec 64 :=
  if value = 100 then if first.written then insert 4 low (first.seen c) 0 else c
  else
    let c' := if first.written then insert 4 4 (first.seen c) 1 else c
    if second.written then insert 3 low (second.seen c') (dutyOf step value) else c'

theorem setClockModulation_run (hvalue : value ∈ getClockModulationValues (msrs extended) v) :
    ∃ rest, (setClockModulation (msrs extended) v value).run ⟨c, [first, second]⟩ = .ok ()
      ⟨after (clkModLowBit (msrs extended) v) (clkModStep (msrs extended) v) value c first second,
        rest⟩ := by
  unfold setClockModulation after
  rw [if_neg (not_not_intro hvalue)]
  by_cases hfull : value = 100
  · rw [if_pos hfull, if_pos hfull, EStateM.run_bind, writeBits_run]
    exact ⟨[second], rfl⟩
  · rw [if_neg hfull, if_neg hfull, EStateM.run_bind, writeBits_run]
    simp only [EStateM.run_bind, writeBits_run]
    exact ⟨[], rfl⟩

theorem intact_full {low : ℕ} {step : ℚ} (hlow : low ≤ 4) :
    Intact low step 100 c (insert 4 low (first.seen c) 0) ↔ SameOutside low (first.seen c) c := by
  have hshown : decode low step (insert 4 low (first.seen c) 0) = 100 := by
    have h : decode low step (encode low step 100 (first.seen c)) = 100 := decode_encode_full hlow
    rwa [encode, if_pos rfl] at h
  rw [Intact, sameOutside_insert le_rfl le_rfl, hshown]
  simp

theorem intact_refl {low : ℕ} {step : ℚ} : Intact low step value c c :=
  ⟨.inl rfl, fun _ _ => rfl⟩

/-- After `setClockModulation`, the register is as it was or shows the value, with no other bit
changed, exactly when the accesses end in one of the ways of `Coherent`. -/
theorem setClockModulation_intact_iff
    (hvalue : value ∈ getClockModulationValues (msrs extended) v) :
    ∃ s, (setClockModulation (msrs extended) v value).run ⟨c, [first, second]⟩ = .ok () s ∧
      (Intact (clkModLowBit (msrs extended) v) (clkModStep (msrs extended) v) value c s.content ↔
        Coherent (clkModLowBit (msrs extended) v) (clkModStep (msrs extended) v) value c first
          second) := by
  obtain ⟨rest, hrun⟩ := setClockModulation_run hvalue
  refine ⟨_, hrun, ?_⟩
  by_cases hfull : value = 100
  · have hlow := clkModLowBit_le (msrs extended) v
    subst hfull
    simp only [after, Coherent, if_true]
    cases hfirst : first.written with
    | false => simp [intact_refl]
    | true => simpa using intact_full (by omega)
  · have hsteps := steps_of_supported hvalue hfull
    simp only [after, Coherent, if_neg hfull]
    cases hfirst : first.written with
    | false =>
      cases hsecond : second.written with
      | false => simp [intact_refl]
      | true => simpa using hsteps.intact_duty
    | true =>
      cases hsecond : second.written with
      | false => simpa using hsteps.intact_enable
      | true =>
        cases hold : second.oldValue with
        | none => simpa [Fault.seen, hold] using hsteps.intact_both
        | some oldValue => simpa [Fault.seen, hold] using hsteps.intact_duty

theorem fifty_mem : 50 ∈ getClockModulationValues (msrs false) 0 := by
  have hstep : clkModStep (msrs false) 0 = 12.5 := rfl
  have hvalues : possibleValues (msrs false) 0 = 7 := rfl
  rw [getClockModulationValues, hstep, hvalues]
  decide +kernel

/-- All the accesses succeed. -/
theorem setClockModulation_intact_iff_no_fault : ∃ s,
    (setClockModulation (msrs false) 0 50).run ⟨0, [.none, .none]⟩ = .ok () s ∧
      Intact (clkModLowBit (msrs false) 0) (clkModStep (msrs false) 0) 50 0 s.content :=
  have ⟨s, hrun, hiff⟩ := setClockModulation_intact_iff fifty_mem
  have hne : (50 : ℚ) ≠ 100 := by norm_num
  have hcoherent : Coherent (clkModLowBit (msrs false) 0) (clkModStep (msrs false) 0) 50 0 .none
      .none := by
    rw [Coherent, if_neg hne]
    exact fun _ _ => rfl
  ⟨s, hrun, hiff.mpr hcoherent⟩

/-- The modulation is enabled and its duty cycle is not written; a read fails and leaves bit 63. -/
theorem duty_not_written : 50 ∈ getClockModulationValues (msrs false) 0 ∧
    (∃ s, (setClockModulation (msrs false) 0 50).run ⟨0, [⟨none, true⟩, ⟨none, false⟩]⟩ =
      .ok () s ∧ s.content ≠ 0 ∧
        decode (clkModLowBit (msrs false) 0) (clkModStep (msrs false) 0) s.content ≠ 50) ∧
    ∃ s, (setClockModulation (msrs false) 0 50).run ⟨0, [⟨some (1#64 <<< 63), true⟩, .none]⟩ =
      .ok () s ∧ s.content.getLsbD 63 ≠ (0 : BitVec 64).getLsbD 63 := by
  have hlow : clkModLowBit (msrs false) 0 = 1 := rfl
  have hstep : clkModStep (msrs false) 0 = 12.5 := rfl
  refine ⟨fifty_mem, ?_, ?_⟩
  · obtain ⟨rest, hrun⟩ := setClockModulation_run (c := 0) fifty_mem
    refine ⟨_, hrun, ?_⟩
    rw [hlow, hstep]
    show after 1 12.5 50 0 ⟨none, true⟩ ⟨none, false⟩ ≠ 0 ∧
      decode 1 12.5 (after 1 12.5 50 0 ⟨none, true⟩ ⟨none, false⟩) ≠ 50
    decide +kernel
  · obtain ⟨rest, hrun⟩ := setClockModulation_run (c := 0) fifty_mem
    refine ⟨_, hrun, ?_⟩
    rw [hlow, hstep]
    show (after 1 12.5 50 0 ⟨some (1#64 <<< 63), true⟩ .none).getLsbD 63 ≠
      (0 : BitVec 64).getLsbD 63
    decide +kernel

end Runs

end FaultyMsr

end Mammut.Topology
