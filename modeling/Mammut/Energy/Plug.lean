import Mathlib.Algebra.Order.Ring.Rat
import Mathlib.Tactic.NormNum
import Mammut.Energy.Counter
import Mammut.Kit.Integrals

/-! The counters of the energy at the plug that integrate a power over time, from
`energy-linux.cpp`: `CounterPlugSmartPower2Linux`, `CounterPlugFileLinux` and
`CounterPlugINALinux`.  The times are whole milliseconds, as `ulong`. -/

namespace Mammut.Energy

open Kit Kit.Integrals Kit.Lockstep

/-- `now - last`, on `ulong`. -/
def elapsedMillis (last now : UInt64) : ℚ := ((now - last).toNat : ℚ)

structure CounterPlugSmartPower2Linux where
  usbFile : Bool
  lastTimestamp : UInt64
  cumulativeJoules : Joules

namespace CounterPlugSmartPower2Linux

/-- The constructor, which leaves `_lastTimestamp` as it finds it. -/
def new (lastTimestamp : UInt64) : CounterPlugSmartPower2Linux := ⟨false, lastTimestamp, 0⟩

/-- `opens` is whether `MAMMUT_SMARTPOWER2_PATH` names a file that can be opened. -/
def init (opens : Bool) (now : UInt64) : Call CounterPlugSmartPower2Linux Bool := do
  if opens then
    modify fun c => { c with usbFile := true, lastTimestamp := now }
    return true
  else return false

/-- `power` is the third value of the next line of the file. -/
def getWatts (power : ℚ) : Call CounterPlugSmartPower2Linux ℚ := do
  if (← get).usbFile then return power else return 0

def getJoules (power : ℚ) (now : UInt64) : Call CounterPlugSmartPower2Linux Joules := do
  let watts ← getWatts power
  modify fun c => { c with
    cumulativeJoules := c.cumulativeJoules + watts * (elapsedMillis c.lastTimestamp now / 1000) }
  modify fun c => { c with lastTimestamp := now }
  return (← get).cumulativeJoules

def reset (now : UInt64) : Call CounterPlugSmartPower2Linux Unit := do
  modify fun c => { c with cumulativeJoules := 0 }
  modify fun c => { c with lastTimestamp := now }

end CounterPlugSmartPower2Linux

structure CounterPlugFileLinux where
  lastTimestamp : UInt64
  cumulativeJoules : Joules

namespace CounterPlugFileLinux

def new (now : UInt64) : CounterPlugFileLinux := ⟨now, 0⟩

/-- `available` is whether the file of the counter exists. -/
def init (available : Bool) (now : UInt64) : Call CounterPlugFileLinux Bool := do
  if available then modify fun c => { c with lastTimestamp := now }
  return available

/-- `watts` is the first value of the first line of the file. -/
def getJoules (watts : ℚ) (now : UInt64) : Call CounterPlugFileLinux Joules := do
  modify fun c => { c with
    cumulativeJoules := c.cumulativeJoules + watts * (elapsedMillis c.lastTimestamp now / 1000) }
  modify fun c => { c with lastTimestamp := now }
  return (← get).cumulativeJoules

def reset (now : UInt64) : Call CounterPlugFileLinux Unit := do
  modify fun c => { c with cumulativeJoules := 0 }
  modify fun c => { c with lastTimestamp := now }

end CounterPlugFileLinux

/-- What a sensor answers: whether its device opens and takes its two status requests, and
`cur_uW`, when its registers can be read. -/
structure SensorIna where
  opens : Bool
  getsStatus : Bool
  setsStatus : Bool
  cur_uW : Option UInt32

namespace SensorIna

variable {γ : Type}

def init (sensor : SensorIna) : Call γ Bool := do
  if sensor.opens then
    if !sensor.getsStatus then throw (.runtimeError "CounterPlugINA: ioctl error (0)")
    if !sensor.setsStatus then throw (.runtimeError "CounterPlugINA: ioctl error (1)")
    return true
  else return false

def getWatts (sensor : SensorIna) : Call γ ℚ :=
  match sensor.cur_uW with
  | some cur_uW => return cur_uW.toNat / 1000 / 1000
  | none => throw (.runtimeError "CounterPlugINA: ioctl error (2)")

end SensorIna

/-- `_sensorA7` and `_sensorA15`. -/
structure Sensors where
  sensorA7 : SensorIna
  sensorA15 : SensorIna

/-- `_lastRead` is a `double`. -/
structure CounterPlugINALinux where
  lastRead : ℚ
  cumulativeJoules : Joules

namespace CounterPlugINALinux

def new (lastRead : ℚ) : CounterPlugINALinux := ⟨lastRead, 0⟩

def init (sensors : Sensors) (now : UInt64) : Call CounterPlugINALinux Bool := do
  modify fun c => { c with lastRead := now.toNat }
  if ← sensors.sensorA7.init then sensors.sensorA15.init else return false

def getJoules (sensors : Sensors) (now : UInt64) : Call CounterPlugINALinux Joules := do
  let watts := (← sensors.sensorA7.getWatts) + (← sensors.sensorA15.getWatts)
  let j := watts * ((now.toNat - (← get).lastRead) / 1000)
  modify fun c => { c with cumulativeJoules := c.cumulativeJoules + j }
  modify fun c => { c with lastRead := now.toNat }
  return j

def reset (now : UInt64) : Call CounterPlugINALinux Unit := do
  modify fun c => { c with cumulativeJoules := 0 }
  modify fun c => { c with lastRead := now.toNat }

/-- The power that the two sensors show together, when both can be read. -/
def watts (sensors : Sensors) : Option ℚ := do
  let a7 ← sensors.sensorA7.cur_uW
  let a15 ← sensors.sensorA15.cur_uW
  return a7.toNat / 1000 / 1000 + a15.toNat / 1000 / 1000

end CounterPlugINALinux

/-- A call of a plug counter at a time, in an environment where it can read a power. -/
inductive PlugCall (Env : Type)
  | getJoules (env : Env) (now : UInt64)
  | reset (now : UInt64)

def PlugCall.now {Env : Type} : PlugCall Env → UInt64
  | .getJoules _ now => now
  | .reset now => now

/-- The methods of a plug counter of state `γ`, and the power that it reads in an environment. -/
structure CounterPlug (γ Env : Type) where
  watts : Env → Option ℚ
  getJoules : Env → UInt64 → Call γ Joules
  reset : UInt64 → Call γ Unit

def CounterPlugSmartPower2Linux.methods : CounterPlug CounterPlugSmartPower2Linux ℚ :=
  ⟨some, getJoules, reset⟩

def CounterPlugFileLinux.methods : CounterPlug CounterPlugFileLinux ℚ := ⟨some, getJoules, reset⟩

def CounterPlugINALinux.methods : CounterPlug CounterPlugINALinux Sensors :=
  ⟨watts, getJoules, reset⟩

section Law

variable {γ Env : Type}

/-- The time of the last reset, or `start`, and the readings since. -/
def sinceReset (watts : Env → Option ℚ) (start : ℚ) (calls : List (PlugCall Env)) :
    ℚ × List (ℚ × ℚ) :=
  calls.foldl (fun since call => match call with
    | .reset now => (now.toNat, [])
    | .getJoules env now => match watts env with
      | some w => (since.1, since.2 ++ [((now.toNat : ℚ), w)])
      | none => since) (start, [])

/-- The joules that the calls have read since the last reset: each reading of a power counts for
the time since the call before. -/
def consumed (watts : Env → Option ℚ) (start : UInt64) (calls : List (PlugCall Env)) : Joules :=
  let since := sinceReset watts start.toNat calls
  integral since.1 since.2 / 1000

/-- The calls come in the order of time, from `start` on. -/
def InTime (start : UInt64) (calls : List (PlugCall Env)) : Prop :=
  (start :: calls.map PlugCall.now).Pairwise (· ≤ ·)

instance (start : UInt64) (calls : List (PlugCall Env)) : Decidable (InTime start calls) :=
  inferInstanceAs (Decidable (List.Pairwise _ _))

namespace CounterPlug

def call (plug : CounterPlug γ Env) : PlugCall Env → Call γ Joules
  | .getJoules env now => plug.getJoules env now
  | .reset now => do
    plug.reset now
    return 0

/-- What `getJoules()` returns or throws after some calls. -/
def answer (plug : CounterPlug γ Env) (c : γ) (calls : List (PlugCall Env)) (env : Env)
    (now : UInt64) : Except Exn Joules :=
  outcome ((plug.getJoules env now).run (trace plug.call c calls).2)

/-- Every `getJoules()` that reads a power returns the joules consumed since the last reset. -/
def Exact (plug : CounterPlug γ Env) (c : γ) (start : UInt64) (calls : List (PlugCall Env)) :
    Prop :=
  ∀ earlier env now later, calls = earlier ++ .getJoules env now :: later →
    (plug.watts env).isSome →
    plug.answer c earlier env now =
      .ok (consumed plug.watts start (earlier ++ [.getJoules env now]))

/-- When no power read is negative, the values returned between two resets do not decrease. -/
def Monotone (plug : CounterPlug γ Env) (c : γ) (calls : List (PlugCall Env)) : Prop :=
  (∀ env now w, .getJoules env now ∈ calls → plug.watts env = some w → 0 ≤ w) →
  ∀ earlier env now between env' now' later j j',
    calls = earlier ++ .getJoules env now :: (between ++ .getJoules env' now' :: later) →
    (∀ t, .reset t ∉ between) →
    plug.answer c earlier env now = .ok j →
    plug.answer c (earlier ++ .getJoules env now :: between) env' now' = .ok j' → j ≤ j'

end CounterPlug

end Law

end Mammut.Energy
