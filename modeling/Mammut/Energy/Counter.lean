import Mathlib.Data.Rat.Init
import Mammut.Cxx
import Mammut.Kit.Grouping

/-! What the energy counters of the CPUs share: the joules of a CPU, the CPUs that they count for,
and the methods of `CounterCpus` that loop over all of them. -/

namespace Mammut.Energy

/-- `Joules`: a `double`, as an exact rational. -/
abbrev Joules := ℚ

abbrev CpuId := ℕ
abbrev VirtualCoreId := ℕ

/-- The parts of a CPU whose energy is counted apart. -/
inductive Domain
  | cpu
  | cores
  | graphic
  | dram
  deriving DecidableEq, Repr

/-- The domains, in the order in which `getJoulesComponents` names them. -/
def Domain.all : List Domain := [.cpu, .cores, .graphic, .dram]

theorem Domain.mem_all (d : Domain) : d ∈ Domain.all := by cases d <;> decide

/-- A domain of a CPU: what has an energy counter of its own. -/
abbrev Zone := Domain × CpuId

/-- `JoulesCpu`. -/
@[ext] structure JoulesCpu where
  cpu : Joules
  cores : Joules
  graphic : Joules
  dram : Joules
  deriving DecidableEq

namespace JoulesCpu

/-- `zero`, and what the default constructor builds. -/
def zero : JoulesCpu := ⟨0, 0, 0, 0⟩

/-- `operator+=`. -/
def add (j k : JoulesCpu) : JoulesCpu :=
  ⟨j.cpu + k.cpu, j.cores + k.cores, j.graphic + k.graphic, j.dram + k.dram⟩

def get (j : JoulesCpu) : Domain → Joules
  | .cpu => j.cpu
  | .cores => j.cores
  | .graphic => j.graphic
  | .dram => j.dram

def set (j : JoulesCpu) (d : Domain) (x : Joules) : JoulesCpu :=
  match d with
  | .cpu => { j with cpu := x }
  | .cores => { j with cores := x }
  | .graphic => { j with graphic := x }
  | .dram => { j with dram := x }

@[simp] theorem get_zero (d : Domain) : zero.get d = 0 := by cases d <;> rfl

@[simp] theorem get_set_self (j : JoulesCpu) (d : Domain) (x : Joules) :
    (j.set d x).get d = x := by cases d <;> rfl

@[simp] theorem get_set_ne (j : JoulesCpu) {d e : Domain} (x : Joules) (h : d ≠ e) :
    (j.set d x).get e = j.get e := by
  cases d <;> cases e <;> first | rfl | exact absurd rfl h

end JoulesCpu

/-- What the counters use of a `topology::Cpu`: its identifiers, and its first virtual core. -/
structure Cpu where
  cpuId : CpuId
  vendorId : String
  family : String
  virtualCoreId : VirtualCoreId
  deriving DecidableEq, Repr

/-- The identifiers of the CPUs, in the order of the topology. -/
def ids (cpus : List Cpu) : List CpuId := cpus.map Cpu.cpuId

/-- The positions of the CPUs are their identifiers: these are `0..n-1`, in any order. -/
def Contiguous (cpus : List Cpu) : Prop := (ids cpus).Perm (List.range cpus.length)

theorem mem_ids {cpus : List Cpu} {id : CpuId} :
    id ∈ ids cpus ↔ ∃ cpu ∈ cpus, cpu.cpuId = id := List.mem_map

/-- With distinct identifiers, the first CPU with an identifier is the one that has it. -/
theorem find?_cpuId {cpus : List Cpu} (hnodup : (ids cpus).Nodup) {cpu : Cpu} (hcpu : cpu ∈ cpus) :
    cpus.find? (·.cpuId == cpu.cpuId) = some cpu := by
  exact (Kit.Grouping.find?_key_iff Cpu.cpuId hnodup).mpr ⟨hcpu, rfl⟩

section Components

variable {γ : Type} (getJoules : Domain → CpuId → Call γ Joules)

/-- `getJoulesComponents`. -/
def getJoulesComponents (cpuId : CpuId) : Call γ JoulesCpu := do
  let cpu ← getJoules .cpu cpuId
  let cores ← getJoules .cores cpuId
  let graphic ← getJoules .graphic cpuId
  let dram ← getJoules .dram cpuId
  return ⟨cpu, cores, graphic, dram⟩

def addJoulesComponents (r : JoulesCpu) (cpu : Cpu) : Call γ JoulesCpu := do
  return r.add (← getJoulesComponents getJoules cpu.cpuId)

/-- `getJoulesComponentsAll`. -/
def getJoulesComponentsAll (cpus : List Cpu) : Call γ JoulesCpu :=
  cpus.foldlM (addJoulesComponents getJoules) .zero

/-- The calls of `getJoulesComponentsAll`. -/
def pass (cpus : List Cpu) : List Zone :=
  cpus.flatMap fun cpu => Domain.all.map fun d => (d, cpu.cpuId)

theorem mem_pass {cpus : List Cpu} {z : Zone} (h : z ∈ pass cpus) : z.2 ∈ ids cpus := by
  obtain ⟨cpu, hcpu, hz⟩ := List.mem_flatMap.mp h
  obtain ⟨d, -, rfl⟩ := List.mem_map.mp hz
  exact List.mem_map_of_mem hcpu

/-- But for the sum that it returns, `getJoulesComponentsAll` is its calls one after the other. -/
theorem getJoulesComponentsAll_calls (cpus : List Cpu) :
    (fun _ => ()) <$> getJoulesComponentsAll getJoules cpus =
      forM (pass cpus) fun z => (fun _ => ()) <$> getJoules z.1 z.2 := by
  unfold getJoulesComponentsAll
  generalize JoulesCpu.zero = r
  induction cpus generalizing r with
  | nil => simp [pass]
  | cons cpu rest ih =>
    have hpass : pass (cpu :: rest) = (.cpu, cpu.cpuId) :: (.cores, cpu.cpuId) ::
        (.graphic, cpu.cpuId) :: (.dram, cpu.cpuId) :: pass rest := by
      simp [pass, Domain.all]
    simp only [hpass, List.forM_cons, List.foldlM_cons, map_bind, ih]
    simp only [addJoulesComponents, getJoulesComponents, bind_assoc, bind_map_left, pure_bind]

end Components

/-- The methods of a `CounterCpus` that its classes define, on an object of state `γ` in an
environment `Env` that shows the energy consumed. -/
structure CounterCpus (γ Env : Type) where
  getJoules : Env → Domain → CpuId → Call γ Joules
  reset : Env → Call γ Unit
  destroy : Call γ Unit

end Mammut.Energy
