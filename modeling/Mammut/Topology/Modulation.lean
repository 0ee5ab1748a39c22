import Mathlib.Tactic.NormNum
import Mammut.Topology.Linux
import Mammut.Utils.Msr

/-! Clock modulation, hot plugging and rollback, from `topology-linux.cpp` and `topology.cpp`: what
the virtual cores write to their register, and the calls that a physical core, a CPU or the
topology makes on its virtual cores. -/

set_option linter.dupNamespace false

namespace Mammut.Topology

open Utils

def MSR_CLOCK_MODULATION : ℕ := 0x19A

/-- The registers that the virtual cores reach through `_clkModMsr`, when it could be opened, and
bit 5 of `EAX` from the `cpuid` of their constructors.  `stale` is what the local variable of
`writeBits` holds. -/
structure ClockMsrs (σ : Type) where
  available : VirtualCoreId → Bool
  extended : VirtualCoreId → Bool
  registers : VirtualCoreId → σ → Registers
  setRegisters : VirtualCoreId → Registers → σ → σ
  stale : BitVec 64

namespace ClockMsrs

variable {σ : Type} (msrs : ClockMsrs σ) (v : VirtualCoreId)

def readBits (high low : ℕ) : Call σ (Bool × UInt64) := do
  if msrs.available v then
    return Msr.readBits MSR_CLOCK_MODULATION high low (msrs.registers v (← get))
  else return (false, 0)

def writeBits (high low : ℕ) (value : UInt64) : Call σ Bool := do
  if msrs.available v then
    let r := Msr.writeBits MSR_CLOCK_MODULATION high low msrs.stale value
      (msrs.registers v (← get))
    modify (msrs.setRegisters v r.2)
    return r.1
  else return false

end ClockMsrs

/-- What a client asks of a virtual core, or of all those of a unit. -/
inductive Action
  | hotPlug
  | hotUnplug
  | setClockModulation (value : ℚ)

namespace VirtualCoreLinux

variable {σ : Type} (sys : System σ) (msrs : ClockMsrs σ) (v : VirtualCoreId)

/-- `_clkModLowBit`. -/
def clkModLowBit : ℕ := if msrs.extended v then 0 else 1

/-- `_clkModStep`. -/
def clkModStep : ℚ := if msrs.extended v then 6.25 else 12.5

def possibleValues : ℕ := if msrs.extended v then 15 else 7

def hasClockModulation : Bool := msrs.available v

/-- `_clkModValues`. -/
def getClockModulationValues : List ℚ :=
  (List.range (possibleValues msrs v)).map (fun i => clkModStep msrs v * (i + 1 : ℕ)) ++ [100]

theorem clkModLowBit_le : clkModLowBit msrs v ≤ 1 := by
  unfold clkModLowBit
  split <;> decide

theorem clkModStep_pos : 0 < clkModStep msrs v := by
  unfold clkModStep
  split <;> norm_num

/-- A value below 100 is a number of steps that fits in the field of the duty cycle. -/
theorem steps_of_mem {value : ℚ} (hvalue : value ∈ getClockModulationValues msrs v)
    (hne : value ≠ 100) :
    ∃ n : ℕ, value = clkModStep msrs v * n ∧ n < 2 ^ (4 - clkModLowBit msrs v) := by
  obtain ⟨i, hi, rfl⟩ : ∃ i < possibleValues msrs v, clkModStep msrs v * (i + 1 : ℕ) = value := by
    simpa [getClockModulationValues, hne] using hvalue
  refine ⟨i + 1, rfl, ?_⟩
  unfold possibleValues at hi
  unfold clkModLowBit
  split <;> simp_all <;> omega

def setClockModulation (value : ℚ) : Call σ Unit := do
  if value ∉ getClockModulationValues msrs v then
    throw (.runtimeError ("Wrong modulation value. Please use only value returned by " ++
      "getClockModulationValues() call"))
  else if value = 100 then
    let _ ← msrs.writeBits v 4 (clkModLowBit msrs v) 0
  else
    let _ ← msrs.writeBits v 4 4 1
    let _ ← msrs.writeBits v 3 (clkModLowBit msrs v)
      (UInt64.ofNat (value / clkModStep msrs v).floor.toNat)

def getClockModulation : Call σ ℚ := do
  let enabled ← msrs.readBits v 4 4
  if enabled.2 = 0 then return 100
  let duty ← msrs.readBits v 3 (clkModLowBit msrs v)
  return duty.2.toNat * clkModStep msrs v

def act : Action → Call σ Unit
  | .hotPlug => hotPlug sys v
  | .hotUnplug => hotUnplug sys v
  | .setClockModulation value => setClockModulation msrs v value

end VirtualCoreLinux

namespace PhysicalCore

variable {σ : Type} (sys : System σ) (msrs : ClockMsrs σ) (p : PhysicalCore)

/-- A call on each virtual core. -/
def onVirtualCores (call : VirtualCoreId → Call σ Unit) : Call σ Unit :=
  p.virtualCores.forM fun v => call v.virtualCoreId

def isHotPluggable : Call σ Bool :=
  p.virtualCores.allM fun v => VirtualCoreLinux.isHotPluggable sys v.virtualCoreId

def isHotPlugged : Call σ Bool :=
  p.virtualCores.allM fun v => VirtualCoreLinux.isHotPlugged sys v.virtualCoreId

def hotPlug : Call σ Unit := p.onVirtualCores (VirtualCoreLinux.hotPlug sys)

def hotUnplug : Call σ Unit := p.onVirtualCores (VirtualCoreLinux.hotUnplug sys)

def setClockModulation (value : ℚ) : Call σ Unit :=
  p.onVirtualCores fun v => VirtualCoreLinux.setClockModulation msrs v value

def getClockModulation : Call σ ℚ :=
  p.virtualCores.foldlM (fun max vc => do
    let v ← VirtualCoreLinux.getClockModulation msrs vc.virtualCoreId
    return if v > max then v else max) (-1)

def act : Action → Call σ Unit
  | .hotPlug => p.hotPlug sys
  | .hotUnplug => p.hotUnplug sys
  | .setClockModulation value => p.setClockModulation msrs value

end PhysicalCore

namespace Cpu

variable {σ : Type} (sys : System σ) (msrs : ClockMsrs σ) (c : Cpu)

def isHotPluggable : Call σ Bool := c.physicalCores.allM (·.isHotPluggable sys)

def isHotPlugged : Call σ Bool := c.physicalCores.allM (·.isHotPlugged sys)

def hotPlug : Call σ Unit := c.physicalCores.forM (·.hotPlug sys)

def hotUnplug : Call σ Unit := c.physicalCores.forM (·.hotUnplug sys)

def setClockModulation (value : ℚ) : Call σ Unit :=
  c.physicalCores.forM (·.setClockModulation msrs value)

def getClockModulation : Call σ ℚ :=
  c.physicalCores.foldlM (fun max p => do
    let v ← p.getClockModulation msrs
    return if v > max then v else max) (-1)

def act : Action → Call σ Unit
  | .hotPlug => c.hotPlug sys
  | .hotUnplug => c.hotUnplug sys
  | .setClockModulation value => c.setClockModulation msrs value

end Cpu

structure RollbackPoint where
  plugged : List Bool
  clockModulation : List ℚ
  deriving DecidableEq, Repr

namespace Topology

variable {σ : Type} (sys : System σ) (msrs : ClockMsrs σ) (t : Topology)

/-- The loop body of `getRollbackPoint`. -/
def savePoint (rp : RollbackPoint) (v : VirtualCore) : Call σ RollbackPoint := do
  let plugged ← VirtualCoreLinux.isHotPlugged sys v.virtualCoreId
  let modulation ← VirtualCoreLinux.getClockModulation msrs v.virtualCoreId
  return ⟨rp.plugged ++ [plugged], rp.clockModulation ++ [modulation]⟩

def getRollbackPoint : Call σ RollbackPoint :=
  t.virtualCores.foldlM (savePoint sys msrs) ⟨[], []⟩

/-- An element of a vector of the rollback point, which `[i]` does not check. -/
def element {α : Type} (l : List α) (i : ℕ) : Call σ α :=
  match l[i]? with
  | some a => return a
  | none => throw .undefined

/-- The loop body of `rollback`. -/
def restorePoint (rp : RollbackPoint) (v : VirtualCoreId) (i : ℕ) : Call σ Unit := do
  if ← VirtualCoreLinux.isHotPluggable sys v then
    if ← element rp.plugged i then
      unless ← VirtualCoreLinux.isHotPlugged sys v do
        VirtualCoreLinux.hotPlug sys v
    else
      if ← VirtualCoreLinux.isHotPlugged sys v then
        VirtualCoreLinux.hotUnplug sys v
  if VirtualCoreLinux.hasClockModulation msrs v then
    VirtualCoreLinux.setClockModulation msrs v (← element rp.clockModulation i)

def rollback (rp : RollbackPoint) : Call σ Unit :=
  t.virtualCores.zipIdx.forM fun (v, i) => restorePoint sys msrs rp v.virtualCoreId i

end Topology

/-- A call that a client makes between the two. -/
inductive UnitCall
  | virtualCore (v : VirtualCore) (a : Action)
  | physicalCore (p : PhysicalCore) (a : Action)
  | cpu (c : Cpu) (a : Action)

def UnitCall.exec {σ : Type} (sys : System σ) (msrs : ClockMsrs σ) : UnitCall → Call σ Unit
  | .virtualCore v a => VirtualCoreLinux.act sys msrs v.virtualCoreId a
  | .physicalCore p a => p.act sys msrs a
  | .cpu c a => c.act sys msrs a

end Mammut.Topology
