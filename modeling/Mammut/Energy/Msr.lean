import Mathlib.Data.Rat.Defs
import Mammut.Energy.Counter
import Mammut.Utils.Text

/-! `CounterCpusLinuxMsr`, from `energy-linux.cpp`: the energy counters of the CPUs, read from their
model specific registers.  A call runs against the registers as it finds them (`Device`); no call
but `init` reads a register twice. -/

namespace Mammut.Energy

open Kit Utils

def MSR_RAPL_POWER_UNIT_INTEL : ℕ := 0x606
def MSR_PKG_ENERGY_STATUS_INTEL : ℕ := 0x611
def MSR_PKG_POWER_INFO_INTEL : ℕ := 0x614
def MSR_PP0_ENERGY_STATUS_INTEL : ℕ := 0x639
def MSR_PP1_ENERGY_STATUS_INTEL : ℕ := 0x641
def MSR_DRAM_ENERGY_STATUS_INTEL : ℕ := 0x619
def MSR_RAPL_POWER_UNIT_AMD : ℕ := 0xC0010299
def MSR_PP0_ENERGY_STATUS_AMD : ℕ := 0xC001029A
def MSR_PKG_ENERGY_STATUS_AMD : ℕ := 0xC001029B

inductive CpuFamily
  | CPU_FAMILY_INTEL
  | CPU_FAMILY_AMD
  deriving DecidableEq, Repr

open CpuFamily

/-- The registers of the virtual cores: whether `Msr` opens them, and what `Msr::read` finds.
`stale` is what `uint64_t result` holds before a read stores to it. -/
structure Device where
  available : VirtualCoreId → Bool
  read : VirtualCoreId → ℕ → Option UInt64
  stale : UInt64

/-- An `Msr*` is the virtual core whose registers it reads.  The four arrays
`_lastReadCounters...` are one function of the domain. -/
structure CounterCpusLinuxMsr where
  cpus : List Cpu
  family : CpuFamily
  initialized : Bool
  msrs : Slots VirtualCoreId
  maxId : CpuId
  powerPerUnit : ℚ
  energyPerUnit : ℚ
  timePerUnit : ℚ
  thermalSpecPower : ℚ
  joulesCpus : Slots JoulesCpu
  lastReadCounters : Domain → Slots UInt32
  hasJoulesCores : Bool
  hasJoulesGraphic : Bool
  hasJoulesDram : Bool

/-- The constructor: null arrays, and an uninitialised `_family`. -/
def CounterCpusLinuxMsr.new (cpus : List Cpu) (family : CpuFamily) : CounterCpusLinuxMsr where
  cpus := cpus
  family := family
  initialized := false
  msrs := .uninitialised 0
  maxId := 0
  powerPerUnit := 0
  energyPerUnit := 0
  timePerUnit := 0
  thermalSpecPower := 0
  joulesCpus := .uninitialised 0
  lastReadCounters _ := .uninitialised 0
  hasJoulesCores := false
  hasJoulesGraphic := false
  hasJoulesDram := false

/-- `getVendorId().compare(0, 12, name)` is zero. -/
def Cpu.hasVendor (cpu : Cpu) (name : String) : Bool :=
  cpu.vendorId.toList.take 12 == name.toList

/-- A register that can be read and is not zero. -/
def Device.reads (dev : Device) (core : VirtualCoreId) (which : ℕ) : Bool :=
  match dev.read core which with
  | some value => value ≠ 0
  | none => false

def isCpuIntelSupported (dev : Device) (cpu : Cpu) : Bool :=
  cpu.family == "6" && cpu.hasVendor "GenuineIntel" && dev.available cpu.virtualCoreId &&
  dev.reads cpu.virtualCoreId MSR_RAPL_POWER_UNIT_INTEL &&
  dev.reads cpu.virtualCoreId MSR_PKG_POWER_INFO_INTEL &&
  (dev.read cpu.virtualCoreId MSR_PKG_ENERGY_STATUS_INTEL).isSome

def isCpuAMDSupported (dev : Device) (cpu : Cpu) : Bool :=
  cpu.family == "23" && cpu.hasVendor "AuthenticAMD" && dev.available cpu.virtualCoreId &&
  dev.reads cpu.virtualCoreId MSR_RAPL_POWER_UNIT_AMD &&
  (dev.read cpu.virtualCoreId MSR_PKG_ENERGY_STATUS_AMD).isSome

def isCpuSupported (dev : Device) (cpu : Cpu) : Bool :=
  isCpuIntelSupported dev cpu || isCpuAMDSupported dev cpu

def hasCoresCounter (dev : Device) : CpuFamily → Cpu → Bool
  | CPU_FAMILY_INTEL, cpu => dev.reads cpu.virtualCoreId MSR_PP0_ENERGY_STATUS_INTEL
  | CPU_FAMILY_AMD, _ => false

def hasGraphicCounter (dev : Device) : CpuFamily → Cpu → Bool
  | CPU_FAMILY_INTEL, cpu => dev.reads cpu.virtualCoreId MSR_PP1_ENERGY_STATUS_INTEL
  | CPU_FAMILY_AMD, _ => false

def hasDramCounter (dev : Device) : CpuFamily → Cpu → Bool
  | CPU_FAMILY_INTEL, cpu => dev.reads cpu.virtualCoreId MSR_DRAM_ENERGY_STATUS_INTEL
  | CPU_FAMILY_AMD, _ => false

/-- The bits `mask` of a register from `shift` on, as the exponent of a unit: `pow(0.5, ...)`. -/
def unitOf (result : UInt64) (shift mask : UInt64) : ℚ :=
  (1 / 2 : ℚ) ^ ((result >>> shift) &&& mask).toNat

namespace CounterCpusLinuxMsr

/-- The registers that `readEnergyCounter` accepts. -/
def energyStatus : List ℕ :=
  [MSR_PKG_ENERGY_STATUS_INTEL, MSR_PP0_ENERGY_STATUS_INTEL, MSR_PP1_ENERGY_STATUS_INTEL,
    MSR_DRAM_ENERGY_STATUS_INTEL, MSR_PKG_ENERGY_STATUS_AMD, MSR_PP0_ENERGY_STATUS_AMD]

def readEnergyCounter (dev : Device) (cpuId : CpuId) (which : ℕ) :
    Call CounterCpusLinuxMsr UInt32 := do
  if which ∈ energyStatus then
    let msr ← readSlot (← get).msrs cpuId
    match dev.read msr which with
    | some result =>
      if result = 0 then
        throw (.runtimeError
          "Fatal error. Counter has been created but registers are not present.")
      else return (result &&& 0xFFFFFFFF).toUInt32
    | none =>
      throw (.runtimeError
        "Fatal error. Counter has been created but registers are not present.")
  else throw (.runtimeError "Invalid energy counter specification.")

end CounterCpusLinuxMsr

/-- `deltaDiff`, on `uint32_t`. -/
def deltaDiff (c1 c2 : UInt32) : UInt32 :=
  if c2 > c1 then c2 - c1 else (0xFFFFFFFF - c1) + 1 + c2

namespace CounterCpusLinuxMsr

def setLast (c : CounterCpusLinuxMsr) (d : Domain) (cpuId : CpuId) (value : UInt32) :
    CounterCpusLinuxMsr :=
  { c with lastReadCounters := fun e =>
      if e = d then (c.lastReadCounters d).set cpuId value else c.lastReadCounters e }

def setJoules (c : CounterCpusLinuxMsr) (cpuId : CpuId) (joules : JoulesCpu) :
    CounterCpusLinuxMsr :=
  { c with joulesCpus := c.joulesCpus.set cpuId joules }

/-- `updateCounter`.  Its references `joules` and `lastReadCounter` are the slots of `d`. -/
def updateCounter (dev : Device) (cpuId : CpuId) (d : Domain) (counterType : ℕ) :
    Call CounterCpusLinuxMsr Unit := do
  let joules ← readSlot (← get).joulesCpus cpuId
  let currentCounter ← readEnergyCounter dev cpuId counterType
  let lastReadCounter ← readSlot ((← get).lastReadCounters d) cpuId
  let consumed := ((deltaDiff lastReadCounter currentCounter).toNat : ℚ) * (← get).energyPerUnit
  modify fun c => c.setJoules cpuId (joules.set d (joules.get d + consumed))
  modify fun c => c.setLast d cpuId currentCounter

def updatePackage (dev : Device) (cpuId : CpuId) : Call CounterCpusLinuxMsr Unit := do
  match (← get).family with
  | CPU_FAMILY_INTEL => updateCounter dev cpuId .cpu MSR_PKG_ENERGY_STATUS_INTEL
  | CPU_FAMILY_AMD => updateCounter dev cpuId .cpu MSR_PKG_ENERGY_STATUS_AMD

def getJoulesCpu (dev : Device) (cpuId : CpuId) : Call CounterCpusLinuxMsr Joules := do
  updatePackage dev cpuId
  return (← readSlot (← get).joulesCpus cpuId).cpu

def updateCores (dev : Device) (cpuId : CpuId) : Call CounterCpusLinuxMsr Unit := do
  match (← get).family with
  | CPU_FAMILY_INTEL => updateCounter dev cpuId .cores MSR_PP0_ENERGY_STATUS_INTEL
  | CPU_FAMILY_AMD => pure ()

def getJoulesCores (dev : Device) (cpuId : CpuId) : Call CounterCpusLinuxMsr Joules := do
  if (← get).hasJoulesCores then
    updateCores dev cpuId
    return (← readSlot (← get).joulesCpus cpuId).cores
  else return 0

def getJoulesGraphic (dev : Device) (cpuId : CpuId) : Call CounterCpusLinuxMsr Joules := do
  if (← get).hasJoulesGraphic then
    match (← get).family with
    | CPU_FAMILY_INTEL =>
      updateCounter dev cpuId .graphic MSR_PP1_ENERGY_STATUS_INTEL
      return (← readSlot (← get).joulesCpus cpuId).graphic
    | CPU_FAMILY_AMD => return 0
  else return 0

def getJoulesDram (dev : Device) (cpuId : CpuId) : Call CounterCpusLinuxMsr Joules := do
  if (← get).hasJoulesDram then
    match (← get).family with
    | CPU_FAMILY_INTEL =>
      updateCounter dev cpuId .dram MSR_DRAM_ENERGY_STATUS_INTEL
      return (← readSlot (← get).joulesCpus cpuId).dram
    | CPU_FAMILY_AMD => return 0
  else return 0

def getJoules (dev : Device) : Domain → CpuId → Call CounterCpusLinuxMsr Joules
  | .cpu => getJoulesCpu dev
  | .cores => getJoulesCores dev
  | .graphic => getJoulesGraphic dev
  | .dram => getJoulesDram dev

/-- `_lastReadCounters...[i] = readEnergyCounter(i, which)`. -/
def restart (dev : Device) (i : ℕ) (d : Domain) (which : ℕ) : Call CounterCpusLinuxMsr Unit := do
  let value ← readEnergyCounter dev i which
  writableSlot ((← get).lastReadCounters d) i
  modify fun c => c.setLast d i value

def restartPackage (dev : Device) (i : ℕ) : Call CounterCpusLinuxMsr Unit := do
  match (← get).family with
  | CPU_FAMILY_INTEL => restart dev i .cpu MSR_PKG_ENERGY_STATUS_INTEL
  | CPU_FAMILY_AMD => restart dev i .cpu MSR_PKG_ENERGY_STATUS_AMD

def restartIf (has : CounterCpusLinuxMsr → Bool) (dev : Device) (i : ℕ) (d : Domain)
    (which : ℕ) : Call CounterCpusLinuxMsr Unit := do
  if has (← get) then restart dev i d which

def clearJoules (i : ℕ) : Call CounterCpusLinuxMsr Unit := do
  writableSlot (← get).joulesCpus i
  modify fun c => c.setJoules i .zero

/-- The body of the loop of `reset`, which uses the position `i` as the identifier of a CPU. -/
def resetAt (dev : Device) (i : ℕ) : Call CounterCpusLinuxMsr Unit := do
  restartPackage dev i
  restartIf hasJoulesCores dev i .cores MSR_PP0_ENERGY_STATUS_INTEL
  restartIf hasJoulesGraphic dev i .graphic MSR_PP1_ENERGY_STATUS_INTEL
  restartIf hasJoulesDram dev i .dram MSR_DRAM_ENERGY_STATUS_INTEL
  clearJoules i

def reset (dev : Device) : Call CounterCpusLinuxMsr Unit := do
  (List.range (← get).cpus.length).forM (resetAt dev)

/-- `_msrs[cpu->getCpuId()] = new Msr(...)`. -/
def openMsr (dev : Device) (cpu : Cpu) : Call CounterCpusLinuxMsr Unit := do
  writableSlot (← get).msrs cpu.cpuId
  modify fun c => { c with msrs := c.msrs.set cpu.cpuId cpu.virtualCoreId }
  unless dev.available cpu.virtualCoreId do
    throw (.runtimeError ("Impossible to open msr for CPU " ++ intToString cpu.cpuId))

/-- The largest identifier of a CPU. -/
def maxCpuId (cpus : List Cpu) : CpuId :=
  cpus.foldl (fun m cpu => if cpu.cpuId > m then cpu.cpuId else m) 0

/-- `init` from the allocation of `_msrs` up to the call of `reset`. -/
def allocate (dev : Device) : Call CounterCpusLinuxMsr Unit := do
  let cpus := (← get).cpus
  let family := (← get).family
  let maxId := maxCpuId cpus
  modify fun c => { c with maxId := maxId, msrs := .uninitialised (maxId + 1) }
  cpus.forM (openMsr dev)
  modify fun c => { c with
    joulesCpus := .filled (maxId + 1) .zero
    lastReadCounters := fun _ => .uninitialised (maxId + 1) }
  let msr ← readSlot (← get).msrs maxId
  let powerUnit := match family with
    | CPU_FAMILY_INTEL => MSR_RAPL_POWER_UNIT_INTEL
    | CPU_FAMILY_AMD => MSR_RAPL_POWER_UNIT_AMD
  let units := (dev.read msr powerUnit).getD dev.stale
  let info := (dev.read msr MSR_PKG_POWER_INFO_INTEL).getD units
  modify fun c => { c with
    powerPerUnit := unitOf units 0 0xF
    energyPerUnit := unitOf units 8 0x1F
    timePerUnit := unitOf units 16 0xF
    thermalSpecPower := match family with
      | CPU_FAMILY_INTEL => unitOf units 0 0xF * ((info &&& 0x7FFF).toNat : ℚ)
      | CPU_FAMILY_AMD => 180
    hasJoulesCores := cpus.all (hasCoresCounter dev family)
    hasJoulesGraphic := cpus.all (hasGraphicCounter dev family)
    hasJoulesDram := cpus.all (hasDramCounter dev family) }

def vendorFamily (cpu : Cpu) : Option CpuFamily :=
  if cpu.hasVendor "GenuineIntel" then some CPU_FAMILY_INTEL
  else if cpu.hasVendor "AuthenticAMD" then some CPU_FAMILY_AMD
  else none

/-- `init`.  The registers are those of `dev` for its checks and those of `now` for `reset`. -/
def init (dev now : Device) : Call CounterCpusLinuxMsr Bool := do
  match (← get).cpus with
  | [] => throw .undefined
  | first :: _ =>
    match vendorFamily first with
    | none => return false
    | some family =>
      modify fun c => { c with family := family }
      if (← get).cpus.all (isCpuSupported dev) then
        modify fun c => { c with initialized := true }
        allocate dev
        reset now
        return true
      else return false

/-- The destructor reads every slot of `_msrs` before it frees the arrays. -/
def destroy : Call CounterCpusLinuxMsr Unit := do
  if (← get).initialized then
    (List.range ((← get).maxId + 1)).forM fun i => do
      let _ ← readSlot (← get).msrs i

/-- `getWrappingInterval`. -/
def getWrappingInterval (c : CounterCpusLinuxMsr) : ℚ :=
  0xFFFFFFFF * c.energyPerUnit / c.thermalSpecPower

def methods : CounterCpus CounterCpusLinuxMsr Device := ⟨getJoules, reset, destroy⟩

end CounterCpusLinuxMsr

end Mammut.Energy
