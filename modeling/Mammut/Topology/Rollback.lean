import Mathlib.Algebra.Field.Rat
import Mathlib.Tactic.FieldSimp
import Mathlib.Tactic.NormNum
import Mammut.Topology.Modulation

/-! `rollback` on a machine whose files and registers are cells: it brings back what
`getRollbackPoint` saw of each virtual core, whatever its clients did to the units meanwhile. -/

set_option linter.dupNamespace false

namespace Mammut.Topology

open Kit Kit.Programs Utils

/-- The contents of the files that exist, and the registers of the virtual cores. -/
structure Machine where
  files : String → Option String
  registers : VirtualCoreId → Registers

namespace Machine

def store (file text : String) (m : Machine) : Machine :=
  { m with files := Function.update m.files file (some text) }

def setRegisters (v : VirtualCoreId) (r : Registers) (m : Machine) : Machine :=
  { m with registers := Function.update m.registers v r }

/-- The files are cells: one that exists can be written, and then holds the text. -/
def system (base : System Machine) : System Machine := { base with
  read := fun file m => m.files file
  write := fun file text m => if (m.files file).isSome then (true, m.store file text) else (false, m) }

/-- The registers are those of the machine. -/
def msrs (base : ClockMsrs Machine) : ClockMsrs Machine := { base with
  registers := fun v m => m.registers v
  setRegisters := setRegisters }

/-- What a file says of the virtual core that it is about: it is plugged when there is no file. -/
def plugged (m : Machine) (file : String) : Bool :=
  match m.files file with
  | some text => stringToInt (firstLine text) > 0
  | none => true

/-- What has not changed since `m0`: which files exist, and which registers can be read and
written. -/
structure Like (m0 m : Machine) : Prop where
  files : ∀ file, (m.files file).isSome = (m0.files file).isSome
  readable : ∀ v, ((m0.registers v).content MSR_CLOCK_MODULATION).isSome →
    ((m.registers v).content MSR_CLOCK_MODULATION).isSome
  writable : ∀ v, (m.registers v).writable = (m0.registers v).writable

theorem Like.refl (m : Machine) : Like m m := ⟨fun _ => rfl, fun _ h => h, fun _ => rfl⟩

end Machine

open Machine

section Frames

variable {base : System Machine} {hw : ClockMsrs Machine} {m0 m : Machine} {v : VirtualCoreId}

theorem writeFile_run (file line : String) : ((system base).writeFile file line).run m =
    if (m.files file).isSome then
      .ok () (m.store file (line ++ "\n"))
    else .error (.runtimeError ("Impossible to open file: " ++ file)) m := by
  simp only [System.writeFile, EStateM.run_bind, EStateM.run_modifyGet, system]
  by_cases h : (m.files file).isSome
  · simp [h]
  · simp [h]

theorem isHotPluggable_run : (VirtualCoreLinux.isHotPluggable (system base) v).run m =
    .ok (m.files (VirtualCoreLinux.hotplugFile base v)).isSome m := rfl

theorem isHotPlugged_run : (VirtualCoreLinux.isHotPlugged (system base) v).run m =
    .ok (m.plugged (VirtualCoreLinux.hotplugFile base v)) m := by
  simp only [VirtualCoreLinux.isHotPlugged, EStateM.run_bind, isHotPluggable_run, plugged]
  have hread : (system base).read (VirtualCoreLinux.hotplugFile (system base) v) m =
      m.files (VirtualCoreLinux.hotplugFile base v) := rfl
  cases hfile : m.files (VirtualCoreLinux.hotplugFile base v) with
  | none => simp
  | some text => simp [System.readFirstLineFromFile, hread, hfile]

theorem plug_run (plug : Bool) :
    (if plug then VirtualCoreLinux.hotPlug (system base) v
      else VirtualCoreLinux.hotUnplug (system base) v).run m = .ok ()
      (if (m.files (VirtualCoreLinux.hotplugFile base v)).isSome then
        m.store (VirtualCoreLinux.hotplugFile base v) (if plug then "1\n" else "0\n")
      else m) := by
  have hname : VirtualCoreLinux.hotplugFile (system base) v = VirtualCoreLinux.hotplugFile base v :=
    rfl
  by_cases h : (m.files (VirtualCoreLinux.hotplugFile base v)).isSome
  · cases plug <;> simp [VirtualCoreLinux.hotPlug, VirtualCoreLinux.hotUnplug, EStateM.run_bind,
      isHotPluggable_run, writeFile_run, hname, h]
  · cases plug <;> simp [VirtualCoreLinux.hotPlug, VirtualCoreLinux.hotUnplug, EStateM.run_bind,
      isHotPluggable_run, h]

theorem Machine.Like.store {file text : String} (h : Like m0 m) (hfile : (m.files file).isSome) :
    Like m0 (m.store file text) := by
  refine ⟨fun other => ?_, h.readable, h.writable⟩
  rw [← h.files other]
  by_cases hother : other = file
  · simp [Machine.store, hother, hfile]
  · simp [Machine.store, Function.update_of_ne hother]

theorem Machine.Like.setRegisters {r : Registers} (h : Like m0 m)
    (hread : ((m.registers v).content MSR_CLOCK_MODULATION).isSome →
      (r.content MSR_CLOCK_MODULATION).isSome)
    (hwrite : r.writable = (m.registers v).writable) : Like m0 (m.setRegisters v r) := by
  refine ⟨h.files, fun w hw => ?_, fun w => ?_⟩
  · by_cases hv : w = v
    · subst hv
      simpa [Machine.setRegisters] using hread (h.readable w hw)
    · simpa [Machine.setRegisters, Function.update_of_ne hv] using h.readable w hw
  · by_cases hv : w = v
    · subst hv
      simpa [Machine.setRegisters, hwrite] using h.writable w
    · simpa [Machine.setRegisters, Function.update_of_ne hv] using h.writable w

theorem hotPlug_keeps : Keeps (Like m0) (VirtualCoreLinux.hotPlug (system base) v) := by
  intro m h
  rw [show (VirtualCoreLinux.hotPlug (system base) v).run m = _ from plug_run true]
  by_cases hfile : (m.files (VirtualCoreLinux.hotplugFile base v)).isSome
  · simpa [hfile] using h.store hfile
  · simpa [hfile] using h

theorem hotUnplug_keeps : Keeps (Like m0) (VirtualCoreLinux.hotUnplug (system base) v) := by
  intro m h
  rw [show (VirtualCoreLinux.hotUnplug (system base) v).run m = _ from plug_run false]
  by_cases hfile : (m.files (VirtualCoreLinux.hotplugFile base v)).isSome
  · simpa [hfile] using h.store hfile
  · simpa [hfile] using h

theorem writeBits_run (high low : ℕ) (value : UInt64) :
    ((msrs hw).writeBits v high low value).run m =
      if hw.available v then
        let r := Msr.writeBits MSR_CLOCK_MODULATION high low hw.stale value (m.registers v)
        .ok r.1 (m.setRegisters v r.2)
      else .ok false m := by
  have hget : (get : Call Machine Machine).run m = .ok m m := rfl
  cases h : hw.available v with
  | false => simp [ClockMsrs.writeBits, msrs, h]
  | true => simp [ClockMsrs.writeBits, msrs, h, EStateM.run_bind, hget]

theorem writeBits_keeps (high low : ℕ) (value : UInt64) :
    Keeps (Like m0) ((msrs hw).writeBits v high low value) := by
  intro m h
  rw [writeBits_run]
  cases hw.available v with
  | false => exact h
  | true =>
    cases hwrite : (m.registers v).writable MSR_CLOCK_MODULATION with
    | false =>
      rw [Msr.writeBits_of_not_writable hwrite]
      exact h.setRegisters id rfl
    | true =>
      rw [Msr.writeBits_of_writable hwrite]
      exact h.setRegisters (fun _ => by simp) rfl

theorem setClockModulation_keeps (value : ℚ) :
    Keeps (Like m0) (VirtualCoreLinux.setClockModulation (msrs hw) v value) := by
  unfold VirtualCoreLinux.setClockModulation
  by_cases hvalue : value ∉ VirtualCoreLinux.getClockModulationValues (msrs hw) v
  · rw [if_pos hvalue]
    exact keeps_throw
  · rw [if_neg hvalue]
    by_cases hfull : value = 100
    · rw [if_pos hfull]
      exact keeps_bind (writeBits_keeps _ _ _) fun _ => keeps_pure
    · rw [if_neg hfull]
      refine keeps_bind (writeBits_keeps _ _ _) fun _ => ?_
      exact keeps_bind (writeBits_keeps _ _ _) fun _ => keeps_pure

theorem act_keeps (a : Action) :
    Keeps (Like m0) (VirtualCoreLinux.act (system base) (msrs hw) v a) := by
  cases a with
  | hotPlug => exact hotPlug_keeps
  | hotUnplug => exact hotUnplug_keeps
  | setClockModulation value => exact setClockModulation_keeps value

theorem physicalCore_keeps (p : PhysicalCore) (a : Action) :
    Keeps (Like m0) (p.act (system base) (msrs hw) a) := by
  cases a with
  | hotPlug => exact triple_forM_invariant fun _ _ => hotPlug_keeps
  | hotUnplug => exact triple_forM_invariant fun _ _ => hotUnplug_keeps
  | setClockModulation value => exact triple_forM_invariant fun _ _ => setClockModulation_keeps value

theorem cpu_keeps (c : Cpu) (a : Action) : Keeps (Like m0) (c.act (system base) (msrs hw) a) := by
  have hcores (p : PhysicalCore) : Keeps (Like m0) (p.act (system base) (msrs hw) a) :=
    physicalCore_keeps p a
  cases a with
  | hotPlug => exact triple_forM_invariant fun p _ => hcores p
  | hotUnplug => exact triple_forM_invariant fun p _ => hcores p
  | setClockModulation value => exact triple_forM_invariant fun p _ => hcores p

/-- No sequence of calls creates a file or takes a register away. -/
theorem trace_keeps (calls : List UnitCall) :
    Like m (Lockstep.trace (UnitCall.exec (system base) (msrs hw)) m calls).2 := by
  apply Lockstep.trace_invariant ?_ (Like.refl m)
  intro s call hs
  have hkeeps : Keeps (Like m) (call.exec (system base) (msrs hw)) := by
    cases call with
    | virtualCore v a => exact act_keeps a
    | physicalCore p a => exact physicalCore_keeps p a
    | cpu c a => exact cpu_keeps c a
  exact after_of_keeps hkeeps hs

end Frames

section Registers

open BitFields

variable {low n : ℕ} {step value : ℚ} {old : BitVec 64}

/-- What the content of the register says, for fields that begin at bit `low`. -/
def decode (low : ℕ) (step : ℚ) (content : BitVec 64) : ℚ :=
  if extract 4 4 content = 0 then 100 else (extract 3 low content).toNat * step

/-- What a modulation leaves in the register. -/
def encode (low : ℕ) (step value : ℚ) (old : BitVec 64) : BitVec 64 :=
  if value = 100 then insert 4 low old 0
  else insert 3 low (insert 4 4 old 1) (UInt64.ofNat (value / step).floor.toNat).toBitVec

theorem extract_bit_eq_zero : extract 4 4 old = 0 ↔ old.getLsbD 4 = false := by
  have hbit : (extract 4 4 old).getLsbD 0 = old.getLsbD 4 := by
    rw [getLsbD_extract (by decide) (by decide)]
    simp
  constructor
  · intro h
    rw [← hbit, h]
    rfl
  · intro h
    refine BitVec.eq_of_getLsbD_eq fun k hk => ?_
    rw [getLsbD_extract (by decide) (by decide)]
    by_cases hzero : k = 0
    · subst hzero; simpa using h
    · simp [hzero]

/-- A disabled modulation is read back. -/
theorem decode_encode_full (hlow : low ≤ 4) : decode low step (encode low step 100 old) = 100 := by
  have hbit : extract 4 4 (insert 4 low old 0) = 0 := by
    rw [extract_bit_eq_zero, getLsbD_insert (by decide), if_pos ⟨hlow, le_rfl⟩]
    simp
  simp only [decode, encode, if_true, hbit]

theorem floor_steps (hstep : step ≠ 0) (n : ℕ) : (step * n / step).floor.toNat = n := by
  rw [mul_div_cancel_left₀ _ hstep]
  exact congrArg Int.toNat (Rat.floor_intCast n)

theorem toNat_steps (hn : n < 2 ^ (4 - low)) : (UInt64.ofNat n).toBitVec.toNat = n := by
  have hle : 2 ^ (4 - low) ≤ 2 ^ 64 := Nat.pow_le_pow_right (by decide) (by omega)
  exact UInt64.toNat_ofNat_of_lt (lt_of_lt_of_le hn hle)

/-- A duty cycle of `n` steps is read back when the field holds `n`. -/
theorem decode_encode_steps (hlow : low ≤ 3) (hstep : step ≠ 0) (hn : n < 2 ^ (4 - low))
    (hne : step * n ≠ 100) : decode low step (encode low step (step * n) old) = step * n := by
  have hbit : extract 4 4 (insert 3 low (insert 4 4 old 1) (UInt64.ofNat n).toBitVec) ≠ 0 := by
    intro h
    rw [extract_bit_eq_zero, getLsbD_insert (by decide), if_neg (by omega),
      getLsbD_insert (by decide), if_pos (by omega)] at h
    simp at h
  have hfits : n < 2 ^ (3 - low + 1) := by rwa [show 3 - low + 1 = 4 - low by omega]
  have hvalue : (UInt64.ofNat n).toBitVec.toNat = n := toNat_steps hn
  have hfield : extract 3 low (insert 3 low (insert 4 4 old 1) (UInt64.ofNat n).toBitVec) =
      (UInt64.ofNat n).toBitVec :=
    extract_insert_self hlow (by decide) (by rwa [hvalue])
  rw [encode, if_neg hne, floor_steps hstep, decode, if_neg hbit, hfield, hvalue, mul_comm]

end Registers

section Restore

open VirtualCoreLinux

variable {base : System Machine} {hw : ClockMsrs Machine} {m0 m : Machine} {v w : VirtualCoreId}
  {file other : String} {plug : Bool} {value : ℚ} {old : BitVec 64}

theorem decode_encode (hvalue : value ∈ getClockModulationValues hw v) :
    decode (clkModLowBit hw v) (clkModStep hw v)
      (encode (clkModLowBit hw v) (clkModStep hw v) value old) = value := by
  have hlow := clkModLowBit_le hw v
  by_cases hfull : value = 100
  · rw [hfull]
    exact decode_encode_full (by omega)
  · obtain ⟨n, rfl, hfits⟩ := steps_of_mem hw v hvalue hfull
    exact decode_encode_steps (by omega) (clkModStep_pos hw v).ne' hfits hfull

namespace Machine

/-- What `getClockModulation` returns. -/
def modulation (hw : ClockMsrs Machine) (v : VirtualCoreId) (m : Machine) : ℚ :=
  match (m.registers v).content MSR_CLOCK_MODULATION with
  | some content =>
    if hw.available v then decode (clkModLowBit hw v) (clkModStep hw v) content else 100
  | none => 100

/-- The machine after a call that plugs or unplugs the virtual core of a file. -/
def replugged (file : String) (plug : Bool) (m : Machine) : Machine :=
  if (m.files file).isSome ∧ m.plugged file ≠ plug then m.store file (if plug then "1\n" else "0\n")
  else m

def hold (v : VirtualCoreId) (content : BitVec 64) (m : Machine) : Machine :=
  let r := m.registers v
  m.setRegisters v
    { r with content := Function.update r.content MSR_CLOCK_MODULATION (some content) }

/-- The machine after the modulation of a virtual core has been set. -/
def modulated (hw : ClockMsrs Machine) (v : VirtualCoreId) (value : ℚ) (m : Machine) : Machine :=
  match (m.registers v).content MSR_CLOCK_MODULATION with
  | some old => m.hold v (encode (clkModLowBit hw v) (clkModStep hw v) value old)
  | none => m

@[simp] theorem hold_content (v : VirtualCoreId) (content : BitVec 64) (m : Machine) :
    ((m.hold v content).registers v).content MSR_CLOCK_MODULATION = some content := by
  simp [hold, setRegisters]

@[simp] theorem hold_writable (v : VirtualCoreId) (content : BitVec 64) (m : Machine) :
    ((m.hold v content).registers v).writable = (m.registers v).writable := by
  simp [hold, setRegisters]

@[simp] theorem hold_hold (v : VirtualCoreId) (content content' : BitVec 64) (m : Machine) :
    (m.hold v content).hold v content' = m.hold v content' := by
  simp [hold, setRegisters]

theorem plugged_store (plug : Bool) :
    (m.store file (if plug then "1\n" else "0\n")).plugged file = plug := by
  cases plug with
  | false => simp only [plugged, store, Function.update_self]; decide
  | true => simp only [plugged, store, Function.update_self]; decide

theorem plugged_replugged (h : (m.files file).isSome) :
    (m.replugged file plug).plugged file = plug := by
  unfold replugged
  by_cases hplug : m.plugged file = plug
  · simp [hplug]
  · rw [if_pos ⟨h, hplug⟩]
    exact plugged_store plug

theorem plugged_replugged_other (h : other ≠ file) :
    (m.replugged file plug).plugged other = m.plugged other := by
  unfold replugged
  split
  · simp [plugged, store, Function.update_of_ne h]
  · rfl

end Machine

theorem readBits_run (high low : ℕ) : ((msrs hw).readBits v high low).run m = .ok
    (if hw.available v then Msr.readBits MSR_CLOCK_MODULATION high low (m.registers v)
      else (false, 0)) m := by
  have hget : (get : Call Machine Machine).run m = .ok m m := rfl
  cases hv : hw.available v with
  | false => simp [ClockMsrs.readBits, msrs, hv]
  | true => simp [ClockMsrs.readBits, msrs, hv, hget]

theorem getClockModulation_run :
    (getClockModulation (msrs hw) v).run m = .ok (m.modulation hw v) m := by
  have hlow : clkModLowBit (msrs hw) v = clkModLowBit hw v := rfl
  have hstep : clkModStep (msrs hw) v = clkModStep hw v := rfl
  have hzero (b : BitVec 64) : (⟨b⟩ : UInt64) = 0 ↔ b = 0 :=
    ⟨fun h => congrArg UInt64.toBitVec h, fun h => by rw [h]; rfl⟩
  simp only [getClockModulation, modulation, EStateM.run_bind, readBits_run, hlow, hstep]
  cases hv : hw.available v with
  | false => cases (m.registers v).content MSR_CLOCK_MODULATION <;> rfl
  | true =>
    cases hcontent : (m.registers v).content MSR_CLOCK_MODULATION with
    | none => simp [Msr.readBits_of_none hcontent]
    | some content =>
      simp only [if_true, Msr.readBits_of_some hcontent, hzero, decode]
      by_cases hbit : BitFields.extract 4 4 content = 0
      · simp only [hbit, if_true, EStateM.run_pure]
      · simp only [hbit, if_false, EStateM.run_bind, readBits_run, hv, if_true,
          Msr.readBits_of_some hcontent, EStateM.run_pure]
        rfl

/-- The register of a core with clock modulation takes a supported value. -/
theorem setClockModulation_run (hv : hw.available v)
    (hwritable : (m.registers v).writable MSR_CLOCK_MODULATION)
    (hcontent : (m.registers v).content MSR_CLOCK_MODULATION = some old)
    (hvalue : value ∈ getClockModulationValues hw v) :
    (setClockModulation (msrs hw) v value).run m = .ok () (m.modulated hw v value) := by
  have hlow : clkModLowBit (msrs hw) v = clkModLowBit hw v := rfl
  have hstep : clkModStep (msrs hw) v = clkModStep hw v := rfl
  have hvalues : getClockModulationValues (msrs hw) v = getClockModulationValues hw v := rfl
  have hwrite (high low : ℕ) (x : UInt64) (c : BitVec 64) (s : Machine)
      (hs : (s.registers v).content MSR_CLOCK_MODULATION = some c)
      (hsw : (s.registers v).writable MSR_CLOCK_MODULATION) :
      ((msrs hw).writeBits v high low x).run s =
        .ok true (s.hold v (BitFields.insert high low c x.toBitVec)) := by
    simp only [writeBits_run, hv, if_true, Msr.writeBits_of_writable hsw, hs, Option.getD_some]
    rfl
  simp only [setClockModulation, hvalues, hvalue, not_true, if_false, hlow, hstep, modulated,
    hcontent, encode]
  by_cases hfull : value = 100
  · simp only [hfull, if_true, EStateM.run_bind, hwrite _ _ _ _ _ hcontent hwritable]
    rfl
  · simp only [hfull, if_false, EStateM.run_bind, hwrite _ _ _ _ _ hcontent hwritable]
    rw [hwrite _ _ _ _ _ (hold_content _ _ _) (by simpa using hwritable)]
    simp only [hold_hold, EStateM.run_pure]
    rfl

/-- The machine after `rollback` has restored a virtual core. -/
def Machine.restored (base : System Machine) (hw : ClockMsrs Machine) (v : VirtualCoreId)
    (plug : Bool) (value : ℚ) (m : Machine) : Machine :=
  if hw.available v then (m.replugged (hotplugFile base v) plug).modulated hw v value
  else m.replugged (hotplugFile base v) plug

@[simp] theorem Machine.registers_replugged : (m.replugged file plug).registers = m.registers := by
  unfold replugged
  split <;> rfl

theorem element_run {α : Type} {l : List α} {i : ℕ} {a : α} (h : l[i]? = some a) :
    (Topology.element l i : Call Machine α).run m = .ok a m := by
  simp [Topology.element, h]

theorem restorePoint_run {rp : RollbackPoint} {i : ℕ} (hplug : rp.plugged[i]? = some plug)
    (hvalue : rp.clockModulation[i]? = some value)
    (hmsr : hw.available v → (m.registers v).writable MSR_CLOCK_MODULATION ∧
      ((m.registers v).content MSR_CLOCK_MODULATION).isSome ∧
      value ∈ getClockModulationValues hw v) :
    (Topology.restorePoint (system base) (msrs hw) rp v i).run m =
      .ok () (m.restored base hw v plug value) := by
  have hmodulate (s : Machine) (hs : s.registers = m.registers) : (do
      if hasClockModulation (msrs hw) v then
        setClockModulation (msrs hw) v (← Topology.element rp.clockModulation i) :
        Call Machine Unit).run s =
        .ok () (if hw.available v then s.modulated hw v value else s) := by
    have havailable : hasClockModulation (msrs hw) v = hw.available v := rfl
    cases hv : hw.available v with
    | false => simp [havailable, hv]
    | true =>
      obtain ⟨hwritable, hcontent, hmem⟩ := hmsr hv
      obtain ⟨old, hold⟩ := Option.isSome_iff_exists.mp hcontent
      rw [← hs] at hwritable hold
      simp [havailable, hv, EStateM.run_bind, element_run hvalue,
        setClockModulation_run hv hwritable hold hmem]
  have hcall : (if plug then hotPlug (system base) v else hotUnplug (system base) v).run m = _ :=
    plug_run plug
  unfold Topology.restorePoint Machine.restored
  cases hfile : (m.files (hotplugFile base v)).isSome with
  | false =>
    simp only [EStateM.run_bind, isHotPluggable_run, hfile, Bool.false_eq_true, if_false]
    rw [hmodulate m rfl]
    simp [replugged, hfile]
  | true =>
    simp only [hfile, if_true] at hcall
    simp only [EStateM.run_bind, isHotPluggable_run, hfile, if_true, element_run hplug]
    cases plug with
    | true =>
      simp only [if_true] at hcall ⊢
      cases hplugged : m.plugged (hotplugFile base v) with
      | true =>
        simp only [EStateM.run_bind, isHotPlugged_run, hplugged, if_true]
        rw [hmodulate m rfl]
        simp [replugged, hplugged]
      | false =>
        simp only [EStateM.run_bind, isHotPlugged_run, hplugged, Bool.false_eq_true, if_false, hcall]
        rw [hmodulate (m.store _ _) rfl]
        simp [replugged, hfile, hplugged]
    | false =>
      simp only [Bool.false_eq_true, if_false] at hcall ⊢
      cases hplugged : m.plugged (hotplugFile base v) with
      | true =>
        simp only [EStateM.run_bind, isHotPlugged_run, hplugged, if_true, hcall]
        rw [hmodulate (m.store _ _) rfl]
        simp [replugged, hfile, hplugged]
      | false =>
        simp only [EStateM.run_bind, isHotPlugged_run, hplugged, Bool.false_eq_true, if_false]
        rw [hmodulate m rfl]
        simp [replugged, hplugged]

theorem Machine.Like.replugged (h : Like m0 m) : Like m0 (m.replugged file plug) := by
  unfold Machine.replugged
  split
  · rename_i hstore
    exact h.store hstore.1
  · exact h

theorem Machine.Like.modulated (h : Like m0 m) : Like m0 (m.modulated hw v value) := by
  unfold Machine.modulated
  cases (m.registers v).content MSR_CLOCK_MODULATION with
  | none => exact h
  | some old => exact h.setRegisters (fun _ => by simp) rfl

theorem Machine.Like.restored (h : Like m0 m) : Like m0 (m.restored base hw v plug value) := by
  unfold Machine.restored
  split
  · exact h.replugged.modulated
  · exact h.replugged

theorem files_modulated : (m.modulated hw v value).files = m.files := by
  unfold Machine.modulated
  cases (m.registers v).content MSR_CLOCK_MODULATION <;> rfl

theorem registers_modulated_other (hne : w ≠ v) :
    (m.modulated hw v value).registers w = m.registers w := by
  unfold Machine.modulated
  cases (m.registers v).content MSR_CLOCK_MODULATION with
  | none => rfl
  | some old => simp [hold, setRegisters, Function.update_of_ne hne]

theorem plugged_restored (name : String) :
    (m.restored base hw v plug value).plugged name =
      (m.replugged (hotplugFile base v) plug).plugged name := by
  unfold Machine.restored
  split
  · simp only [plugged, files_modulated]
  · rfl

theorem modulation_restored (hv : hw.available v)
    (hcontent : ((m.registers v).content MSR_CLOCK_MODULATION).isSome)
    (hvalue : value ∈ getClockModulationValues hw v) :
    (m.restored base hw v plug value).modulation hw v = value := by
  obtain ⟨old, hold⟩ := Option.isSome_iff_exists.mp hcontent
  simp [Machine.restored, hv, Machine.modulated, hold, modulation, decode_encode hvalue]

theorem modulation_restored_other (hne : w ≠ v) :
    (m.restored base hw v plug value).modulation hw w = m.modulation hw w := by
  have hregs : (m.restored base hw v plug value).registers w = m.registers w := by
    unfold Machine.restored
    split
    · rw [registers_modulated_other hne, registers_replugged]
    · rw [registers_replugged]
  simp only [modulation, hregs]

theorem modulation_of_unavailable (hv : hw.available v = false) : m.modulation hw v = 100 := by
  unfold modulation
  cases (m.registers v).content MSR_CLOCK_MODULATION <;> simp [hv]

/-- The virtual core is plugged and modulated as in `m0`. -/
def Machine.Agrees (base : System Machine) (hw : ClockMsrs Machine) (m m0 : Machine)
    (v : VirtualCoreId) : Prop :=
  m.plugged (hotplugFile base v) = m0.plugged (hotplugFile base v) ∧
    m.modulation hw v = m0.modulation hw v

/-- The step lemma of `rollback`: it brings one virtual core back, and leaves those that agree. -/
theorem agrees_restored (h : Like m0 m)
    (hmsr : hw.available v → ((m.registers v).content MSR_CLOCK_MODULATION).isSome ∧
      m0.modulation hw v ∈ getClockModulationValues hw v)
    (hw0 : w = v ∨ m.Agrees base hw m0 w) :
    (m.restored base hw v (m0.plugged (hotplugFile base v)) (m0.modulation hw v)).Agrees
      base hw m0 w := by
  constructor
  · rw [plugged_restored]
    by_cases hfile : hotplugFile base w = hotplugFile base v
    · rw [hfile]
      by_cases hexists : (m.files (hotplugFile base v)).isSome
      · exact plugged_replugged hexists
      · have hnone : m0.files (hotplugFile base v) = none := by
          have hsame := h.files (hotplugFile base v)
          simpa [hsame] using hexists
        have hnone' : m.files (hotplugFile base v) = none := by simpa using hexists
        simp [replugged, plugged, hnone, hnone']
    · rw [plugged_replugged_other hfile]
      rcases hw0 with rfl | hagrees
      · contradiction
      · exact hagrees.1
  · by_cases heq : w = v
    · subst heq
      cases hv : hw.available w with
      | false => rw [modulation_of_unavailable hv, modulation_of_unavailable hv]
      | true => exact modulation_restored hv (hmsr hv).1 (hmsr hv).2
    · rw [modulation_restored_other heq]
      exact (hw0.resolve_left heq).2

/-- What `getRollbackPoint` saves. -/
def pointOf (base : System Machine) (hw : ClockMsrs Machine) (m : Machine) (vs : List VirtualCore) :
    RollbackPoint :=
  ⟨vs.map fun v => m.plugged (hotplugFile base v.virtualCoreId),
    vs.map fun v => m.modulation hw v.virtualCoreId⟩

theorem getRollbackPoint_run (t : Topology) :
    (t.getRollbackPoint (system base) (msrs hw)).run m =
      .ok (pointOf base hw m t.virtualCores) m := by
  suffices h : ∀ rest done : List VirtualCore, (rest.foldlM (Topology.savePoint (system base) (msrs hw))
      (pointOf base hw m done)).run m = .ok (pointOf base hw m (done ++ rest)) m by
    exact h t.virtualCores []
  intro rest
  induction rest with
  | nil => intro done; simp
  | cons v rest ih =>
    intro done
    have hpoint : (Topology.savePoint (system base) (msrs hw) (pointOf base hw m done) v).run m =
        .ok (pointOf base hw m (done ++ [v])) m := by
      simp [Topology.savePoint, EStateM.run_bind, isHotPlugged_run, getClockModulation_run, pointOf]
    rw [run_foldlM_cons hpoint, ih]
    simp

/-- The reads and writes of `MSR_CLOCK_MODULATION` of a core with clock modulation succeed, and its
modulation is disabled or has a supported value. -/
structure Modulated (hw : ClockMsrs Machine) (v : VirtualCoreId) (m : Machine) : Prop where
  writable : (m.registers v).writable MSR_CLOCK_MODULATION
  readable : ((m.registers v).content MSR_CLOCK_MODULATION).isSome
  supported : m.modulation hw v = 100 ∨ m.modulation hw v ∈ getClockModulationValues hw v

theorem Modulated.mem_values (h : Modulated hw v m) :
    m.modulation hw v ∈ getClockModulationValues hw v := by
  rcases h.supported with hfull | hmem
  · simp [hfull, getClockModulationValues]
  · exact hmem

theorem restorePoint_agrees {t : Topology} {vc : VirtualCore} {i : ℕ}
    (hmsr : hw.available vc.virtualCoreId → Modulated hw vc.virtualCoreId m0)
    (hget : t.virtualCores[i]? = some vc) (h : Like m0 m) :
    ∃ m', (Topology.restorePoint (system base) (msrs hw) (pointOf base hw m0 t.virtualCores)
        vc.virtualCoreId i).run m = .ok () m' ∧ Like m0 m' ∧
      ∀ w, w = vc.virtualCoreId ∨ m.Agrees base hw m0 w → m'.Agrees base hw m0 w := by
  have hplug : (pointOf base hw m0 t.virtualCores).plugged[i]? =
      some (m0.plugged (hotplugFile base vc.virtualCoreId)) := by
    simp [pointOf, hget]
  have hvalue : (pointOf base hw m0 t.virtualCores).clockModulation[i]? =
      some (m0.modulation hw vc.virtualCoreId) := by
    simp [pointOf, hget]
  refine ⟨_, restorePoint_run hplug hvalue fun hav => ?_, h.restored, fun w hw0 => ?_⟩
  · have hmod := hmsr hav
    exact ⟨by rw [h.writable]; exact hmod.writable, h.readable _ hmod.readable, hmod.mem_values⟩
  · refine agrees_restored h (fun hav => ?_) hw0
    exact ⟨h.readable _ (hmsr hav).readable, (hmsr hav).mem_values⟩

/-- The run of `rollback`: from any machine with the same files and registers, it brings back each
virtual core. -/
theorem rollback_triple (t : Topology)
    (hmsr : ∀ v ∈ t.virtualCores, hw.available v.virtualCoreId → Modulated hw v.virtualCoreId m0) :
    Triple (Like m0)
      (t.rollback (system base) (msrs hw) (pointOf base hw m0 t.virtualCores))
      (fun _ m => ∀ v ∈ t.virtualCores, m.Agrees base hw m0 v.virtualCoreId) Never := by
  let visited (done : List (VirtualCore × ℕ)) (m : Machine) : Prop :=
    Like m0 m ∧ ∀ p ∈ done, m.Agrees base hw m0 p.1.virtualCoreId
  have hloop : Triple (visited [])
      (t.rollback (system base) (msrs hw) (pointOf base hw m0 t.virtualCores))
      (fun _ => visited t.virtualCores.zipIdx) Never := by
    apply triple_forM visited
    rintro done ⟨vc, i⟩ rest hl m ⟨hlike, hdone⟩
    have hmem : (vc, i) ∈ t.virtualCores.zipIdx := by simp [hl]
    have hget : t.virtualCores[i]? = some vc := List.mem_zipIdx_iff_getElem?.mp hmem
    obtain ⟨m', hrun, hlike', hagrees⟩ :=
      restorePoint_agrees (hmsr vc (List.mem_of_getElem? hget)) hget hlike
    rw [hrun]
    refine ⟨hlike', fun p hp => hagrees _ ?_⟩
    rcases List.mem_append.mp hp with hp | hp
    · exact Or.inr (hdone p hp)
    · rw [List.mem_singleton.mp hp]
      exact Or.inl rfl
  apply hloop.conseq (fun m h => ⟨h, by simp⟩) ?_ fun _ _ h => h
  rintro _ m ⟨-, hall⟩ vc hvc
  obtain ⟨i, hi⟩ := List.getElem?_of_mem hvc
  exact hall (vc, i) (List.mem_zipIdx_iff_getElem?.mpr hi)

/-- Whatever calls are made in between, and however they end, `rollback` returns, and each virtual
core is plugged and modulated as it was when the rollback point was taken. -/
theorem rollback_restores (base : System Machine) (hw : ClockMsrs Machine) (t : Topology)
    (m0 : Machine) (calls : List UnitCall)
    (hmsr : ∀ v ∈ t.virtualCores, hw.available v.virtualCoreId → Modulated hw v.virtualCoreId m0) :
    ∃ rp m, (t.getRollbackPoint (system base) (msrs hw)).run m0 = .ok rp m0 ∧
      (t.rollback (system base) (msrs hw) rp).run
        (Lockstep.trace (UnitCall.exec (system base) (msrs hw)) m0 calls).2 = .ok () m ∧
      ∀ v ∈ t.virtualCores, ∃ plugged value,
        (isHotPlugged (system base) v.virtualCoreId).run m0 = .ok plugged m0 ∧
        (isHotPlugged (system base) v.virtualCoreId).run m = .ok plugged m ∧
        (getClockModulation (msrs hw) v.virtualCoreId).run m0 = .ok value m0 ∧
        (getClockModulation (msrs hw) v.virtualCoreId).run m = .ok value m := by
  obtain ⟨⟨⟩, m, hrun, hagrees⟩ := (rollback_triple t hmsr).returns (trace_keeps calls)
  refine ⟨_, m, getRollbackPoint_run t, hrun, fun v hv => ?_⟩
  obtain ⟨hplugged, hmodulation⟩ := hagrees v hv
  refine ⟨_, _, isHotPlugged_run, ?_, getClockModulation_run, ?_⟩
  · rw [isHotPlugged_run, hplugged]
  · rw [getClockModulation_run, hmodulation]

end Restore

/-- A core that can be plugged, with a duty cycle of four steps, and one that cannot. -/
def twoCores : Topology where
  cpus := []
  physicalCores := []
  virtualCores := [⟨0, 0, 0⟩, ⟨0, 0, 1⟩]

def noSystem : System Machine where
  sysfsRootPrefix := ""
  read _ _ := none
  write _ _ m := (false, m)
  readTsc _ _ := none
  clockTicksPerSecond := 100
  maximizeUtilization _ := pure ()
  resetUtilization _ := pure ()

def firstMsr : ClockMsrs Machine where
  available v := v == 0
  extended _ := false
  registers v m := m.registers v
  setRegisters := Machine.setRegisters
  stale := 0

def halved : Machine where
  files file := if file = "/sys/devices/system/cpu/cpu0/online" then some "1\n" else none
  registers _ := ⟨fun which => if which = MSR_CLOCK_MODULATION then some 24 else none, fun _ => true⟩

theorem rollback_restores_twoCores : ∃ rp m,
    (twoCores.getRollbackPoint (system noSystem) (msrs firstMsr)).run halved = .ok rp halved ∧
    (twoCores.rollback (system noSystem) (msrs firstMsr) rp).run
      (Lockstep.trace (UnitCall.exec (system noSystem) (msrs firstMsr)) halved
        [.virtualCore ⟨0, 0, 0⟩ .hotUnplug, .virtualCore ⟨0, 0, 0⟩ (.setClockModulation 25)]).2 =
      .ok () m ∧
    m.plugged "/sys/devices/system/cpu/cpu0/online" ∧ m.modulation firstMsr 0 = 50 := by
  have hduty : (BitFields.extract 3 1 (24 : BitVec 64)).toNat = 4 := by decide
  have hbit : BitFields.extract 4 4 (24 : BitVec 64) ≠ 0 := by decide
  have hfifty : halved.modulation firstMsr 0 = 50 := by
    have hdecode : halved.modulation firstMsr 0 = decode 1 12.5 24 := rfl
    rw [hdecode, decode, if_neg hbit, hduty]
    norm_num
  have hmsr : ∀ v ∈ twoCores.virtualCores, firstMsr.available v.virtualCoreId →
      Modulated firstMsr v.virtualCoreId halved := by
    intro v hv hav
    obtain hv0 : v.virtualCoreId = 0 := by simpa [firstMsr] using hav
    rw [hv0]
    refine ⟨rfl, rfl, Or.inr ?_⟩
    rw [hfifty]
    apply List.mem_append_left
    exact List.mem_map.mpr ⟨3, by decide, by norm_num [VirtualCoreLinux.clkModStep, firstMsr]⟩
  obtain ⟨rp, m, hpoint, hrun, hall⟩ := rollback_restores noSystem firstMsr twoCores halved
    [.virtualCore ⟨0, 0, 0⟩ .hotUnplug, .virtualCore ⟨0, 0, 0⟩ (.setClockModulation 25)] hmsr
  refine ⟨rp, m, hpoint, hrun, ?_⟩
  obtain ⟨plugged, value, hplugged0, hplugged, hvalue0, hvalue⟩ := hall ⟨0, 0, 0⟩ (by decide)
  rw [isHotPlugged_run] at hplugged0 hplugged
  rw [getClockModulation_run] at hvalue0 hvalue
  cases hplugged0
  cases hvalue0
  constructor
  · have hname : VirtualCoreLinux.hotplugFile noSystem 0 = "/sys/devices/system/cpu/cpu0/online" := by
      decide
    have hsame : m.plugged (VirtualCoreLinux.hotplugFile noSystem 0) =
        halved.plugged (VirtualCoreLinux.hotplugFile noSystem 0) := by
      injection hplugged
    rw [hname] at hsame
    rw [hsame]
    decide
  · have hsame : m.modulation firstMsr 0 = halved.modulation firstMsr 0 := by
      injection hvalue
    rw [hsame, hfifty]

end Mammut.Topology
