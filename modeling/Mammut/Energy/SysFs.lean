import Mathlib.Data.Rat.Defs
import Mammut.Energy.Counter
import Mammut.Utils.Text

/-! `CounterCpusLinuxSysFs`, from `energy-linux.cpp`: the energy counters of the CPUs, read from the
files of the powercap framework.  The package of a CPU is the one that has its identifier as
number. -/

namespace Mammut.Energy

open Kit Utils

def RAPL_SYSFS_PREFIX : String := "/sys/class/powercap/intel-rapl/intel-rapl:"

/-- The counter of package `package` (`sub` is `-1`), or of one of its subzones. -/
def energyFile (package : ℕ) : Option ℕ → String
  | none => RAPL_SYSFS_PREFIX ++ intToString package ++ "/energy_uj"
  | some sub => RAPL_SYSFS_PREFIX ++ intToString package ++ "/intel-rapl:" ++ intToString package ++
      ":" ++ intToString sub ++ "/energy_uj"

def maxRangeFile : String := RAPL_SYSFS_PREFIX ++ "0/max_energy_range_uj"

/-- The files: the numbers that `atof` reads from those that can be opened, and the names of the
subzones of package 0. -/
structure Powercap where
  number : String → Option ℕ
  names : List String

/-- The vectors `_last...` are one function of the domain, and `-1` is `none`. -/
structure CounterCpusLinuxSysFs where
  cpus : List Cpu
  initialized : Bool
  idCores : Option ℕ
  idGraphic : Option ℕ
  idDram : Option ℕ
  joulesCpus : Slots JoulesCpu
  last : Domain → Slots Joules
  maxValue : Joules

namespace CounterCpusLinuxSysFs

def new (cpus : List Cpu) : CounterCpusLinuxSysFs where
  cpus := cpus
  initialized := false
  idCores := none
  idGraphic := none
  idDram := none
  joulesCpus := .uninitialised 0
  last _ := .uninitialised 0
  maxValue := 0

/-- The first line of a file that holds a number of microjoules, in joules. -/
def readJoules (files : Powercap) (fileName : String) : Call CounterCpusLinuxSysFs Joules :=
  match files.number fileName with
  | some uj => return (uj : Joules) / 1000000
  | none => throw (.runtimeError ("Impossible to open file " ++ fileName))

def setLast (c : CounterCpusLinuxSysFs) (d : Domain) (cpuId : CpuId) (value : Joules) :
    CounterCpusLinuxSysFs :=
  { c with last := fun e => if e = d then (c.last d).set cpuId value else c.last e }

def setJoules (c : CounterCpusLinuxSysFs) (cpuId : CpuId) (joules : JoulesCpu) :
    CounterCpusLinuxSysFs :=
  { c with joulesCpus := c.joulesCpus.set cpuId joules }

/-- `read`.  Its references `cumulative` and `last` are those of `d`. -/
def read (files : Powercap) (cpuId : CpuId) (d : Domain) (sub : Option ℕ) :
    Call CounterCpusLinuxSysFs Joules := do
  let cumulative ← readSlot (← get).joulesCpus cpuId
  let now ← readJoules files (energyFile cpuId sub)
  let last ← readSlot ((← get).last d) cpuId
  let maxValue := (← get).maxValue
  let r := if last > now then maxValue - last + now else now - last
  modify fun c => c.setJoules cpuId (cumulative.set d (cumulative.get d + r))
  modify fun c => c.setLast d cpuId now
  return cumulative.get d + r

def getJoulesCpu (files : Powercap) (cpuId : CpuId) : Call CounterCpusLinuxSysFs Joules :=
  read files cpuId .cpu none

/-- A method that reads the subzone `sub`, if there is one. -/
def readSubzone (files : Powercap) (cpuId : CpuId) (d : Domain) (sub : Option ℕ) :
    Call CounterCpusLinuxSysFs Joules :=
  match sub with
  | some sub => read files cpuId d (some sub)
  | none => return 0

def getJoulesCores (files : Powercap) (cpuId : CpuId) : Call CounterCpusLinuxSysFs Joules := do
  readSubzone files cpuId .cores (← get).idCores

def getJoulesGraphic (files : Powercap) (cpuId : CpuId) : Call CounterCpusLinuxSysFs Joules := do
  readSubzone files cpuId .graphic (← get).idGraphic

def getJoulesDram (files : Powercap) (cpuId : CpuId) : Call CounterCpusLinuxSysFs Joules := do
  readSubzone files cpuId .dram (← get).idDram

def getJoules (files : Powercap) : Domain → CpuId → Call CounterCpusLinuxSysFs Joules
  | .cpu => getJoulesCpu files
  | .cores => getJoulesCores files
  | .graphic => getJoulesGraphic files
  | .dram => getJoulesDram files

def clearJoules (i : ℕ) : Call CounterCpusLinuxSysFs Unit := do
  writableSlot (← get).joulesCpus i
  modify fun c => c.setJoules i .zero

/-- The body of the loop of `reset`, which uses the position `i` as the identifier of a CPU. -/
def resetAt (files : Powercap) (i : ℕ) : Call CounterCpusLinuxSysFs Unit := do
  let _ ← getJoulesCpu files i
  let _ ← getJoulesCores files i
  let _ ← getJoulesGraphic files i
  let _ ← getJoulesDram files i
  clearJoules i

def reset (files : Powercap) : Call CounterCpusLinuxSysFs Unit := do
  (List.range (← get).cpus.length).forM (resetAt files)

/-- The body of the loop of `init` over the names of the subzones. -/
def findSubzone (c : CounterCpusLinuxSysFs) (subzone : String × ℕ) : CounterCpusLinuxSysFs :=
  if subzone.1 = "core" then { c with idCores := some subzone.2 }
  else if subzone.1 = "dram" then { c with idDram := some subzone.2 }
  else if subzone.1 = "uncore" then { c with idGraphic := some subzone.2 }
  else c

/-- `init`.  The files are those of `files` for its checks and those of `now` for `reset`. -/
def init (files now : Powercap) : Call CounterCpusLinuxSysFs Bool := do
  let n := (← get).cpus.length
  if (List.range n).all fun i => (files.number (energyFile i none)).isSome then
    modify fun c => { c with initialized := true }
    modify fun c => files.names.zipIdx.foldl findSubzone c
    modify fun c => { c with last := fun _ => .filled n 0, joulesCpus := .filled n .zero }
    let maxValue ← readJoules files maxRangeFile
    modify fun c => { c with maxValue := maxValue }
    reset now
    return true
  else return false

/-- The destructor, which accesses no slot. -/
def destroy : Call CounterCpusLinuxSysFs Unit := return ()

def methods : CounterCpus CounterCpusLinuxSysFs Powercap := ⟨getJoules, reset, destroy⟩

end CounterCpusLinuxSysFs

end Mammut.Energy
