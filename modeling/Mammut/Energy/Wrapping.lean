import Mathlib.Algebra.Order.Field.Rat
import Mathlib.Data.Rat.Floor
import Mathlib.Tactic.FieldSimp
import Mathlib.Tactic.Linarith
import Mathlib.Tactic.NormNum
import Mammut.Energy.MsrInit
import Mammut.Energy.Runs
import Mammut.Utils.Monitor

/-! How long the refresher of a `CounterCpusLinuxMsr` sleeps, from `energy-linux.cpp`: half of the
time in which the counters wrap, as an `int` of milliseconds.  The fields of the registers decide
whether there is such a number. -/

namespace Mammut.Energy

open Kit Kit.Programs CpuFamily Utils

/-- The conversion of a `double` to an `int`, which is defined when the result is one. -/
def toInt (x : ℚ) : Option ℤ :=
  let n := if 0 ≤ x then ⌊x⌋ else ⌈x⌉
  if -2 ^ 31 ≤ n ∧ n < 2 ^ 31 then some n else none

theorem toInt_of_nonneg {x : ℚ} (h : 0 ≤ x) :
    toInt x = if x < 2 ^ 31 then some ⌊x⌋ else none := by
  have hfloor : 0 ≤ ⌊x⌋ := Int.floor_nonneg.mpr h
  have hlow : -2 ^ 31 ≤ ⌊x⌋ := by omega
  have hlt : ⌊x⌋ < 2 ^ 31 ↔ x < 2 ^ 31 := by
    rw [Int.floor_lt]
    norm_num
  simp only [toInt, if_pos h, hlow, true_and, hlt]

namespace CounterCpusLinuxMsr

/-- `sleepingIntervalMs` of the refresher. -/
def sleepingIntervalMs (c : CounterCpusLinuxMsr) : ℚ := c.getWrappingInterval / 2 * 1000

/-- The argument of `timedWait`; there is none after a division by zero. -/
def sleepingInterval (c : CounterCpusLinuxMsr) : Option ℤ :=
  if c.thermalSpecPower = 0 then none else toInt c.sleepingIntervalMs

/-- The time in which a counter of 32 bits wraps at the thermal specification power, in seconds. -/
def wrappingTime (c : CounterCpusLinuxMsr) : ℚ := 2 ^ 32 * c.energyPerUnit / c.thermalSpecPower

/-- What is asked of the refresher's sleep. -/
def SleepsInTime (c : CounterCpusLinuxMsr) : Prop :=
  ∃ milliSeconds, c.sleepingInterval = some milliSeconds ∧ 0 < milliSeconds ∧
    (milliSeconds : ℚ) / 1000 ≤ c.wrappingTime / 2 ∧
    ∀ now : Timeval,
      (Monitor.deadline now milliSeconds).nanoseconds = now.nanoseconds + milliSeconds * 1000000 ∧
        0 ≤ (Monitor.deadline now milliSeconds).tv_nsec ∧
        (Monitor.deadline now milliSeconds).tv_nsec < 1000000000

/-- The milliseconds of half a wrap for an energy unit and a power of 1. -/
def halfWrapMs : ℚ := 0xFFFFFFFF * 500

variable {c : CounterCpusLinuxMsr}

theorem sleepingIntervalMs_eq :
    c.sleepingIntervalMs = halfWrapMs * c.energyPerUnit / c.thermalSpecPower := by
  rw [sleepingIntervalMs, getWrappingInterval, halfWrapMs]
  ring

/-- Half of the counter's range is not exceeded, in whatever units. -/
theorem floor_le_wrappingTime (henergy : 0 ≤ c.energyPerUnit) (hpower : 0 ≤ c.thermalSpecPower) :
    ((⌊c.sleepingIntervalMs⌋ : ℤ) : ℚ) / 1000 ≤ c.wrappingTime / 2 := by
  have hfloor : ((⌊c.sleepingIntervalMs⌋ : ℤ) : ℚ) ≤ c.sleepingIntervalMs := Int.floor_le _
  have hquotient : 0 ≤ c.energyPerUnit / c.thermalSpecPower := div_nonneg henergy hpower
  have hms : c.sleepingIntervalMs = halfWrapMs * (c.energyPerUnit / c.thermalSpecPower) := by
    rw [sleepingIntervalMs_eq, mul_div_assoc]
  have hwrap : c.wrappingTime = 2 ^ 32 * (c.energyPerUnit / c.thermalSpecPower) := by
    rw [wrappingTime, mul_div_assoc]
  rw [hms, halfWrapMs] at hfloor
  rw [hwrap]
  rw [hms, halfWrapMs]
  linarith

/-- The sleep is one when at least a millisecond and fewer than `2 ^ 31` make half a wrap. -/
theorem sleepsInTime_iff (henergy : 0 ≤ c.energyPerUnit) (hpower : 0 ≤ c.thermalSpecPower) :
    c.SleepsInTime ↔ c.thermalSpecPower ≠ 0 ∧
      c.thermalSpecPower ≤ halfWrapMs * c.energyPerUnit ∧
      halfWrapMs * c.energyPerUnit < 2 ^ 31 * c.thermalSpecPower := by
  by_cases hzero : c.thermalSpecPower = 0
  · refine ⟨fun ⟨ms, hms, _⟩ => ?_, fun h => absurd hzero h.1⟩
    rw [sleepingInterval, if_pos hzero] at hms
    cases hms
  · have hpos : 0 < c.thermalSpecPower := lt_of_le_of_ne hpower (Ne.symm hzero)
    have hmul : 0 ≤ halfWrapMs * c.energyPerUnit := mul_nonneg (by norm_num [halfWrapMs]) henergy
    have hnonneg : 0 ≤ c.sleepingIntervalMs := by
      rw [sleepingIntervalMs_eq]
      exact div_nonneg hmul hpower
    have hone : 0 < ⌊c.sleepingIntervalMs⌋ ↔ c.thermalSpecPower ≤ halfWrapMs * c.energyPerUnit := by
      rw [Int.floor_pos, sleepingIntervalMs_eq, le_div_iff₀ hpos, one_mul]
    have hmax : c.sleepingIntervalMs < 2 ^ 31 ↔
        halfWrapMs * c.energyPerUnit < 2 ^ 31 * c.thermalSpecPower := by
      rw [sleepingIntervalMs_eq, div_lt_iff₀ hpos]
    have hinterval : c.sleepingInterval =
        if c.sleepingIntervalMs < 2 ^ 31 then some ⌊c.sleepingIntervalMs⌋ else none := by
      rw [sleepingInterval, if_neg hzero, toInt_of_nonneg hnonneg]
    rw [← hone, ← hmax]
    constructor
    · rintro ⟨ms, hms, hmspos, -⟩
      rw [hinterval] at hms
      by_cases hlt : c.sleepingIntervalMs < 2 ^ 31
      · rw [if_pos hlt] at hms
        cases hms
        exact ⟨hzero, hmspos, hlt⟩
      · rw [if_neg hlt] at hms
        cases hms
    · rintro ⟨-, hmspos, hlt⟩
      refine ⟨⌊c.sleepingIntervalMs⌋, by rw [hinterval, if_pos hlt], hmspos,
        floor_le_wrappingTime henergy hpower, fun now => ?_⟩
      exact Monitor.deadline_exact now (le_of_lt hmspos)

/-- The fields of the registers: the exponents of the energy and of the power unit, and the thermal
specification power in units of power. -/
def energyExponent (units : UInt64) : ℕ := ((units >>> 8) &&& 0x1F).toNat

def powerExponent (units : UInt64) : ℕ := ((units >>> 0) &&& 0xF).toNat

def specPower (info : UInt64) : ℕ := (info &&& 0x7FFF).toNat

theorem energyExponent_lt (units : UInt64) : energyExponent units < 32 := by
  have h : energyExponent units ≤ (0x1F : UInt64).toNat := by
    rw [energyExponent, UInt64.toNat_and]
    exact Nat.and_le_right
  exact Nat.lt_succ_of_le h

/-- `_thermalSpecPower`, of the contents of the registers. -/
def thermalSpecOf (units info : UInt64) : CpuFamily → ℚ
  | CPU_FAMILY_INTEL => (1 / 2) ^ powerExponent units * (specPower info : ℚ)
  | CPU_FAMILY_AMD => 180

/-- The fields for which half a wrap takes a millisecond or more, and fewer than `2 ^ 31`. -/
def FieldsFit (units info : UInt64) : CpuFamily → Prop
  | CPU_FAMILY_INTEL => specPower info ≠ 0 ∧
      2 ^ energyExponent units * specPower info ≤ 0xFFFFFFFF * 500 * 2 ^ powerExponent units ∧
      0xFFFFFFFF * 500 * 2 ^ powerExponent units <
        2 ^ 31 * (2 ^ energyExponent units * specPower info)
  | CPU_FAMILY_AMD => 3 ≤ energyExponent units

/-- Units that are powers of a half are compared by multiplying with the powers of two. -/
theorem half_pow_mul_le (a b x y : ℕ) :
    ((1 / 2 : ℚ) ^ a * x ≤ y * (1 / 2) ^ b ↔ 2 ^ b * x ≤ y * 2 ^ a) := by
  have ha : (0 : ℚ) < 2 ^ a := by positivity
  have hb : (0 : ℚ) < 2 ^ b := by positivity
  rw [one_div, inv_pow, inv_pow, ← div_eq_mul_inv, inv_mul_eq_div, div_le_div_iff₀ ha hb,
    mul_comm (x : ℚ)]
  exact_mod_cast Iff.rfl

theorem sleepsInTime_iff_units {e p s : ℕ} (henergy : c.energyPerUnit = (1 / 2) ^ e)
    (hpower : c.thermalSpecPower = (1 / 2) ^ p * s) :
    c.SleepsInTime ↔ s ≠ 0 ∧ 2 ^ e * s ≤ 0xFFFFFFFF * 500 * 2 ^ p ∧
      0xFFFFFFFF * 500 * 2 ^ p < 2 ^ 31 * (2 ^ e * s) := by
  have hhalf : ∀ n : ℕ, (0 : ℚ) ≤ (1 / 2) ^ n := fun n => by positivity
  have hms : halfWrapMs = ((0xFFFFFFFF * 500 : ℕ) : ℚ) := by norm_num [halfWrapMs]
  have henergy0 : 0 ≤ c.energyPerUnit := henergy ▸ hhalf e
  have hpower0 : 0 ≤ c.thermalSpecPower := hpower ▸ mul_nonneg (hhalf p) (Nat.cast_nonneg s)
  have hzero : (1 / 2 : ℚ) ^ p * s ≠ 0 ↔ s ≠ 0 := by simp
  have hscale : (2 : ℚ) ^ 31 * ((1 / 2) ^ p * s) = (1 / 2) ^ p * ((2 ^ 31 * s : ℕ) : ℚ) := by
    push_cast
    ring
  have hnat : 2 ^ e * (2 ^ 31 * s) = 2 ^ 31 * (2 ^ e * s) := Nat.mul_left_comm ..
  rw [sleepsInTime_iff henergy0 hpower0, henergy, hpower, hms, hzero, hscale, half_pow_mul_le,
    ← not_le, half_pow_mul_le, hnat, not_le]

theorem sleepsInTime_iff_fieldsFit {units info : UInt64} {family : CpuFamily}
    (henergy : c.energyPerUnit = (1 / 2) ^ energyExponent units)
    (hpower : c.thermalSpecPower = thermalSpecOf units info family) :
    c.SleepsInTime ↔ FieldsFit units info family := by
  cases family with
  | CPU_FAMILY_INTEL => exact sleepsInTime_iff_units henergy hpower
  | CPU_FAMILY_AMD =>
    have hamd : c.thermalSpecPower = (1 / 2) ^ 0 * ((180 : ℕ) : ℚ) := by
      rw [hpower, thermalSpecOf]
      norm_num
    rw [sleepsInTime_iff_units henergy hamd, FieldsFit]
    have hmax : 2 ^ energyExponent units ≤ 2 ^ 31 :=
      Nat.pow_le_pow_right (by decide) (Nat.le_of_lt_succ (energyExponent_lt units))
    constructor
    · rintro ⟨-, -, hlt⟩
      by_contra hsmall
      have hfour : 2 ^ energyExponent units ≤ 2 ^ 2 := Nat.pow_le_pow_right (by decide) (by omega)
      omega
    · intro hthree
      have height : 2 ^ 3 ≤ 2 ^ energyExponent units := Nat.pow_le_pow_right (by decide) hthree
      omega

/-- What `init` reads of the registers of units, and of the power information, of a virtual core. -/
def unitsRead (dev : Device) (core : VirtualCoreId) : CpuFamily → UInt64
  | CPU_FAMILY_INTEL => (dev.read core MSR_RAPL_POWER_UNIT_INTEL).getD dev.stale
  | CPU_FAMILY_AMD => (dev.read core MSR_RAPL_POWER_UNIT_AMD).getD dev.stale

def infoRead (dev : Device) (core : VirtualCoreId) (family : CpuFamily) : UInt64 :=
  (dev.read core MSR_PKG_POWER_INFO_INTEL).getD (unitsRead dev core family)

/-- The units are those of the CPU with the largest identifier. -/
theorem allocate_units {dev : Device} {c1 c0 : CounterCpusLinuxMsr}
    (h : (allocate dev).run c1 = .ok () c0) :
    ∃ msr, c0.msrs.get? (maxCpuId c1.cpus) = some msr ∧
      c0.energyPerUnit = (1 / 2) ^ energyExponent (unitsRead dev msr c1.family) ∧
      c0.thermalSpecPower = thermalSpecOf (unitsRead dev msr c1.family)
        (infoRead dev msr c1.family) c1.family := by
  obtain ⟨_, _, hget, h⟩ := ok_of_bind h
  cases hget
  obtain ⟨_, _, hget, h⟩ := ok_of_bind h
  cases hget
  obtain ⟨_, _, hmodify, h⟩ := ok_of_bind h
  cases hmodify
  obtain ⟨_, c2, -, h⟩ := ok_of_bind h
  obtain ⟨_, _, hmodify, h⟩ := ok_of_bind h
  cases hmodify
  obtain ⟨_, _, hget, h⟩ := ok_of_bind h
  cases hget
  obtain ⟨msr, c3, hread, h⟩ := ok_of_bind h
  cases h
  cases hslot : c2.msrs.get? (maxCpuId c1.cpus) with
  | none =>
    rw [readSlot_of_none hslot] at hread
    cases hread
  | some core =>
    rw [readSlot_of_some hslot] at hread
    cases hread
    refine ⟨msr, hslot, ?_⟩
    cases hfamily : c1.family <;> exact ⟨rfl, rfl⟩

/-- What `reset` leaves as it is. -/
def SameUnits (c0 c : CounterCpusLinuxMsr) : Prop :=
  c.energyPerUnit = c0.energyPerUnit ∧ c.thermalSpecPower = c0.thermalSpecPower ∧
    c.family = c0.family

theorem resetAt_keeps (c0 : CounterCpusLinuxMsr) (now : Device) (i : ℕ) :
    Keeps (SameUnits c0) (resetAt now i) := by
  have hslot {α : Type} (slots : Slots α) : Keeps (SameUnits c0) (readSlot slots i) := by
    unfold readSlot
    split
    · exact keeps_pure
    · exact keeps_throw
  have hwritable {α : Type} (slots : Slots α) : Keeps (SameUnits c0) (writableSlot slots i) := by
    unfold writableSlot
    split
    · exact keeps_pure
    · exact keeps_throw
  have hread (which : ℕ) : Keeps (SameUnits c0) (readEnergyCounter now i which) := by
    unfold readEnergyCounter
    split
    · refine keeps_bind keeps_get fun _ => keeps_bind (hslot _) fun _ => ?_
      split
      · split
        · exact keeps_throw
        · exact keeps_pure
      · exact keeps_throw
    · exact keeps_throw
  have hmodify {f : CounterCpusLinuxMsr → CounterCpusLinuxMsr}
      (hf : ∀ c, SameUnits c (f c)) : Keeps (SameUnits c0) (modify f : Call _ PUnit) :=
    triple_modify fun c hc =>
      ⟨(hf c).1.trans hc.1, (hf c).2.1.trans hc.2.1, (hf c).2.2.trans hc.2.2⟩
  have hrestart (d : Domain) (which : ℕ) : Keeps (SameUnits c0) (restart now i d which) :=
    keeps_bind (hread which) fun _ => keeps_bind keeps_get fun _ =>
      keeps_bind (hwritable _) fun _ => hmodify fun _ => ⟨rfl, rfl, rfl⟩
  have hrestartIf (has : CounterCpusLinuxMsr → Bool) (d : Domain) (which : ℕ) :
      Keeps (SameUnits c0) (restartIf has now i d which) := by
    refine keeps_bind keeps_get fun c => ?_
    cases has c with
    | true => exact hrestart d which
    | false => exact keeps_pure
  refine keeps_bind ?_ fun _ => keeps_bind (hrestartIf _ _ _) fun _ =>
    keeps_bind (hrestartIf _ _ _) fun _ => keeps_bind (hrestartIf _ _ _) fun _ => ?_
  · refine keeps_bind keeps_get fun c => ?_
    cases c.family with
    | CPU_FAMILY_INTEL => exact hrestart _ _
    | CPU_FAMILY_AMD => exact hrestart _ _
  · exact keeps_bind keeps_get fun _ => keeps_bind (hwritable _) fun _ =>
      hmodify fun _ => ⟨rfl, rfl, rfl⟩

theorem init_units {cpus : List Cpu} {f : CpuFamily} {dev now : Device} {c : CounterCpusLinuxMsr}
    (hnodup : (ids cpus).Nodup) (h : (init dev now).run (.new cpus f) = .ok true c) :
    ∃ cpu ∈ cpus, cpu.cpuId = maxCpuId cpus ∧
      c.energyPerUnit = (1 / 2) ^ energyExponent (unitsRead dev cpu.virtualCoreId c.family) ∧
      c.thermalSpecPower = thermalSpecOf (unitsRead dev cpu.virtualCoreId c.family)
        (infoRead dev cpu.virtualCoreId c.family) c.family := by
  obtain ⟨family, c0, hne, hsupported, hallocate, hreset⟩ := init_parts h
  have hallocated := allocated_of_run hne hnodup hsupported hallocate
  obtain ⟨msr, hmsr, henergy, hpower⟩ := allocate_units hallocate
  obtain ⟨cpu, hcpu, hid⟩ := mem_ids.mp (maxCpuId_mem hne)
  have hcore : msr = cpu.virtualCoreId := by
    have hopened := hallocated.configured.msr cpu (hallocated.cpus ▸ hcpu)
    rw [hid] at hopened
    exact Option.some.inj (hmsr.symm.trans hopened)
  have hkeeps : Keeps (SameUnits c0) (reset now) :=
    keeps_bind keeps_get fun _ => triple_forM_invariant fun i _ => resetAt_keeps c0 now i
  obtain ⟨henergy', hpower', hfamily⟩ := hkeeps.ok_of ⟨rfl, rfl, rfl⟩ hreset
  have hchosen : (chosen cpus f family).family = c.family :=
    (hfamily.trans hallocated.family).symm
  rw [hcore, hchosen] at henergy hpower
  exact ⟨cpu, hcpu, hid, henergy'.trans henergy, hpower'.trans hpower⟩

/-- The refresher of a counter that `init` accepts sleeps as it is asked to just when the fields of
the registers that `init` took the units from fit. -/
theorem init_sleepsInTime_iff {cpus : List Cpu} {f : CpuFamily} {dev now : Device}
    {c : CounterCpusLinuxMsr} (hnodup : (ids cpus).Nodup)
    (h : (init dev now).run (.new cpus f) = .ok true c) :
    ∃ cpu ∈ cpus, cpu.cpuId = maxCpuId cpus ∧
      (c.SleepsInTime ↔ FieldsFit (unitsRead dev cpu.virtualCoreId c.family)
        (infoRead dev cpu.virtualCoreId c.family) c.family) := by
  obtain ⟨cpu, hcpu, hid, henergy, hpower⟩ := init_units hnodup h
  exact ⟨cpu, hcpu, hid, sleepsInTime_iff_fieldsFit henergy hpower⟩

/-- The registers of a CPU: those of the units and of the power information, and an energy. -/
def unitsOnly (units info : UInt64) : Device where
  available _ := true
  read _ which :=
    if which = MSR_PKG_ENERGY_STATUS_INTEL then some 1
    else if which = MSR_RAPL_POWER_UNIT_INTEL then some units
    else if which = MSR_PKG_POWER_INFO_INTEL then some info
    else none
  stale := 0

/-- What `init` leaves with these registers. -/
def unitsInit (units info : UInt64) : CounterCpusLinuxMsr :=
  match (init (unitsOnly units info) (unitsOnly units info)).run
      (.new oneCpu CPU_FAMILY_AMD) with
  | .ok _ c => c
  | .error _ c => c

theorem init_sleepsInTime_typical : (unitsInit 0xA0E03 0x2F8).SleepsInTime := by
  have hinit : (init (unitsOnly 0xA0E03 0x2F8) (unitsOnly 0xA0E03 0x2F8)).run
      (.new oneCpu CPU_FAMILY_AMD) = .ok true (unitsInit 0xA0E03 0x2F8) := rfl
  obtain ⟨cpu, hcpu, -, hiff⟩ := init_sleepsInTime_iff (by decide) hinit
  obtain rfl := List.mem_singleton.mp hcpu
  exact hiff.mpr ⟨by decide, by decide, by decide⟩

/-- A register that is not zero and gives no thermal specification power: `init` accepts it, and the
refresher divides by zero. -/
theorem init_no_thermalSpecPower :
    (init (unitsOnly 0xA0E03 0x10000) (unitsOnly 0xA0E03 0x10000)).run
        (.new oneCpu CPU_FAMILY_AMD) =
      .ok true (unitsInit 0xA0E03 0x10000) ∧
    (unitsInit 0xA0E03 0x10000).sleepingInterval = none ∧
    ¬(unitsInit 0xA0E03 0x10000).SleepsInTime := by
  have hinit : (init (unitsOnly 0xA0E03 0x10000) (unitsOnly 0xA0E03 0x10000)).run
      (.new oneCpu CPU_FAMILY_AMD) =
        .ok true (unitsInit 0xA0E03 0x10000) := rfl
  obtain ⟨cpu, hcpu, -, -, hpower⟩ := init_units (by decide) hinit
  obtain rfl := List.mem_singleton.mp hcpu
  have hzero : (unitsInit 0xA0E03 0x10000).thermalSpecPower = 0 := by
    rw [hpower]
    exact mul_zero _
  have hnone : (unitsInit 0xA0E03 0x10000).sleepingInterval = none := if_pos hzero
  refine ⟨hinit, hnone, ?_⟩
  rintro ⟨ms, hms, -⟩
  rw [hnone] at hms
  cases hms

end CounterCpusLinuxMsr

end Mammut.Energy
