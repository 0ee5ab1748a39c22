import Mammut.Communicator.Remote
import Mammut.Cpufreq.CpuFreq

/-! The messages of `cpufreq-remote.proto`. -/

namespace Mammut.Cpufreq

inductive Request
  | getDomains
  | isBoostingSupported
  | removeTurboFrequencies
  | removeTurboFrequenciesDomain (id : DomainId)
  | reinsertTurboFrequencies
  | reinsertTurboFrequenciesDomain (id : DomainId)
  | isBoostingEnabled
  | enableBoosting
  | disableBoosting
  | getAvailableFrequencies (id : DomainId)
  | getAvailableGovernors (id : DomainId)
  | getCurrentFrequency (id : DomainId) (userspace : Bool)
  | getCurrentGovernor (id : DomainId)
  | changeFrequency (id : DomainId) (frequency : UInt32)
  | getHardwareFrequencyBounds (id : DomainId)
  | getGovernorBounds (id : DomainId)
  | changeFrequencyBounds (id : DomainId) (lowerBound upperBound : UInt32)
  | changeGovernor (id : DomainId) (governor : UInt32)
  | getTransitionLatency (id : DomainId)
  | getCurrentVoltage (id : DomainId)
  deriving DecidableEq, Repr

/-- `GetDomainsRes::Domain`. -/
structure DomainMessage where
  id : DomainId
  virtualCoresIds : List VirtualCoreId
  deriving DecidableEq, Repr

inductive Response
  | getDomainsRes (domains : List DomainMessage)
  | getAvailableFrequenciesRes (frequencies : List UInt32)
  | getAvailableGovernorsRes (governors : List UInt32)
  | getCurrentFrequencyRes (frequency : UInt32)
  | getCurrentGovernorRes (governor : UInt32)
  | getHardwareFrequencyBoundsRes (lowerBound upperBound : UInt32)
  | getGovernorBoundsRes (lowerBound upperBound : UInt32) (result : Bool)
  | resultVoid
  | result (result : Bool)
  | resultInt (result : Int32)
  /-- The bits of a double. -/
  | resultDouble (result : UInt64)
  deriving DecidableEq, Repr

/-- The name of a message of the package. -/
def messageName (name : String) : String := "mammut.cpufreq." ++ name

/-- The definition, which `rw` is slow to unfold. -/
theorem messageName_eq (name : String) : messageName name = "mammut.cpufreq." ++ name := rfl

def Request.name : Request → String
  | getDomains => "GetDomains"
  | isBoostingSupported => "IsBoostingSupported"
  | removeTurboFrequencies => "RemoveTurboFrequencies"
  | removeTurboFrequenciesDomain _ => "RemoveTurboFrequenciesDomain"
  | reinsertTurboFrequencies => "ReinsertTurboFrequencies"
  | reinsertTurboFrequenciesDomain _ => "ReinsertTurboFrequenciesDomain"
  | isBoostingEnabled => "IsBoostingEnabled"
  | enableBoosting => "EnableBoosting"
  | disableBoosting => "DisableBoosting"
  | getAvailableFrequencies _ => "GetAvailableFrequencies"
  | getAvailableGovernors _ => "GetAvailableGovernors"
  | getCurrentFrequency _ _ => "GetCurrentFrequency"
  | getCurrentGovernor _ => "GetCurrentGovernor"
  | changeFrequency _ _ => "ChangeFrequency"
  | getHardwareFrequencyBounds _ => "GetHardwareFrequencyBounds"
  | getGovernorBounds _ => "GetGovernorBounds"
  | changeFrequencyBounds _ _ _ => "ChangeFrequencyBounds"
  | changeGovernor _ _ => "ChangeGovernor"
  | getTransitionLatency _ => "GetTransitionLatency"
  | getCurrentVoltage _ => "GetCurrentVoltage"

def Response.name : Response → String
  | getDomainsRes _ => "GetDomainsRes"
  | getAvailableFrequenciesRes _ => "GetAvailableFrequenciesRes"
  | getAvailableGovernorsRes _ => "GetAvailableGovernorsRes"
  | getCurrentFrequencyRes _ => "GetCurrentFrequencyRes"
  | getCurrentGovernorRes _ => "GetCurrentGovernorRes"
  | getHardwareFrequencyBoundsRes _ _ => "GetHardwareFrequencyBoundsRes"
  | getGovernorBoundsRes _ _ _ => "GetGovernorBoundsRes"
  | resultVoid => "ResultVoid"
  | result _ => "Result"
  | resultInt _ => "ResultInt"
  | resultDouble _ => "ResultDouble"

def schema : Schema Request Response where
  requestName r := messageName r.name
  responseName r := messageName r.name

/-! What the calls of a client expect. -/

namespace Expect

def resultVoid : Expected Response Unit where
  name := messageName "ResultVoid"
  read r := match r with
    | .resultVoid => some ()
    | _ => none

def result : Expected Response Bool where
  name := messageName "Result"
  read r := match r with
    | .result b => some b
    | _ => none

def frequencies : Expected Response (List UInt32) where
  name := messageName "GetAvailableFrequenciesRes"
  read r := match r with
    | .getAvailableFrequenciesRes fs => some fs
    | _ => none

def governors : Expected Response (List UInt32) where
  name := messageName "GetAvailableGovernorsRes"
  read r := match r with
    | .getAvailableGovernorsRes gs => some gs
    | _ => none

def currentFrequency : Expected Response UInt32 where
  name := messageName "GetCurrentFrequencyRes"
  read r := match r with
    | .getCurrentFrequencyRes f => some f
    | _ => none

def currentGovernor : Expected Response UInt32 where
  name := messageName "GetCurrentGovernorRes"
  read r := match r with
    | .getCurrentGovernorRes g => some g
    | _ => none

def hardwareFrequencyBounds : Expected Response (UInt32 × UInt32) where
  name := messageName "GetHardwareFrequencyBoundsRes"
  read r := match r with
    | .getHardwareFrequencyBoundsRes lb ub => some (lb, ub)
    | _ => none

def governorBounds : Expected Response (UInt32 × UInt32 × Bool) where
  name := messageName "GetGovernorBoundsRes"
  read r := match r with
    | .getGovernorBoundsRes lb ub b => some (lb, ub, b)
    | _ => none

end Expect

end Mammut.Cpufreq
