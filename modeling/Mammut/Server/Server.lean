import Mammut.Cpufreq.RemoteAgrees
import Mammut.Cpufreq.ServiceEnds
import Mammut.Energy.Service
import Mammut.Server.Answers
import Mammut.Topology.ServiceEnds

/-! The servant with the modules of `mammut-server.cpp`: which requests of its client it answers,
and in which states of the machine. -/

namespace Mammut.Server

open Kit Kit.Lockstep Kit.Programs Servant

/-- The modules that the server was started with. -/
structure ModulesMask where
  cpufreq : Bool
  topology : Bool
  energy : Bool

/-- The state of the objects of the modules, and of the rest of the machine. -/
structure Machine (σ : Type) where
  domains : List Cpufreq.DomainLinux
  topology : Topology.TopologyLinux
  rest : σ

/-- A server: its modules, the system that they find, the energy counters that are present, and
the messages that protobuf generates. -/
structure Config (σ : Type) where
  modules : ModulesMask
  cpufreq : Cpufreq.System σ
  topology : Topology.System σ
  counters : Energy.Service.Counters σ
  cpufreqProto : Protobuf Cpufreq.Request Cpufreq.Response
  topologyProto : Protobuf Topology.Request Topology.Response
  energyProto : Protobuf Energy.CounterReq Energy.CounterRes

variable {σ : Type}

namespace Machine

def cpufreq (m : Machine σ) : Cpufreq.CpuFreqLinux σ := (m.domains, m.rest)

def setCpufreq (s : Cpufreq.CpuFreqLinux σ) (m : Machine σ) : Machine σ :=
  { m with domains := s.1, rest := s.2 }

def topologyLinux (m : Machine σ) : Topology.TopologyLinux × σ := (m.topology, m.rest)

def setTopologyLinux (s : Topology.TopologyLinux × σ) (m : Machine σ) : Machine σ :=
  { m with topology := s.1, rest := s.2 }

def setRest (s : σ) (m : Machine σ) : Machine σ := { m with rest := s }

end Machine

namespace Config

open Machine

variable (c : Config σ)

def cpufreqModule : Module (Machine σ) := fun id text =>
  focus Machine.cpufreq setCpufreq (Cpufreq.CpuFreq.processMessage c.cpufreq c.cpufreqProto id text)

def topologyModule : Module (Machine σ) := fun id text =>
  focus topologyLinux setTopologyLinux
    (Topology.Service.processMessage c.topology c.topologyProto id text)

def energyModule : Module (Machine σ) := fun id text =>
  focus rest setRest (c.counters.processMessage c.energyProto id text)

/-- `_moduleDispatcher`. -/
def moduleDispatcher (moduleId : String) : Option (Module (Machine σ)) :=
  match moduleId with
  | "cpufreq" => if c.modules.cpufreq then some c.cpufreqModule else none
  | "topology" => if c.modules.topology then some c.topologyModule else none
  | "energy" => if c.modules.energy then some c.energyModule else none
  | _ => none

/-- The module of a request, if it is activated, can serve what it parses. -/
structure Answerable (m : Machine σ) (request : String × String) : Prop where
  cpufreq : moduleOf request.1 = some "cpufreq" → c.modules.cpufreq →
    ∀ r, c.cpufreqProto.parseRequest request.1 request.2 = some r →
      Cpufreq.CpuFreq.Servable c.cpufreq m.cpufreq r
  topology : moduleOf request.1 = some "topology" → c.modules.topology →
    ∀ r, c.topologyProto.parseRequest request.1 request.2 = some r →
      Topology.Service.Servable c.topology m.topologyLinux r
  energy : moduleOf request.1 = some "energy" → c.modules.energy →
    ∀ r, c.energyProto.parseRequest request.1 request.2 = some r →
      c.counters.Servable m.rest r

/-- The domains are as their constructors have made them. -/
def AllWellFormed (m : Machine σ) : Prop := Cpufreq.CpuFreq.AllWellFormed m.cpufreq

variable {c} {m : Machine σ} {id text : String}

theorem cpufreqModule_ends_iff (hwell : AllWellFormed m) :
    Orderly (· = m) (c.cpufreqModule id text) ↔
      ∀ r, c.cpufreqProto.parseRequest id text = some r →
        Cpufreq.CpuFreq.Servable c.cpufreq m.cpufreq r := by
  apply orderly_at_focus.trans
  unfold Cpufreq.CpuFreq.processMessage
  cases c.cpufreqProto.parseRequest id text with
  | none => exact iff_of_true orderly_pure fun _ h => nomatch h
  | some r =>
    simp only [Option.some.injEq, forall_eq']
    exact orderly_at_map.trans (Cpufreq.CpuFreq.serve_ends_iff hwell r)

theorem topologyModule_ends_iff :
    Orderly (· = m) (c.topologyModule id text) ↔
      ∀ r, c.topologyProto.parseRequest id text = some r →
        Topology.Service.Servable c.topology m.topologyLinux r := by
  apply orderly_at_focus.trans
  unfold Topology.Service.processMessage
  cases c.topologyProto.parseRequest id text with
  | none => exact iff_of_true orderly_pure fun _ h => nomatch h
  | some r =>
    simp only [Option.some.injEq, forall_eq']
    exact orderly_at_map.trans (Topology.Service.serve_ends_iff r)

theorem energyModule_ends_iff :
    Orderly (· = m) (c.energyModule id text) ↔
      ∀ r, c.energyProto.parseRequest id text = some r → c.counters.Servable m.rest r := by
  apply orderly_at_focus.trans
  unfold Energy.Service.Counters.processMessage
  cases c.energyProto.parseRequest id text with
  | none => exact iff_of_true orderly_pure fun _ h => nomatch h
  | some r =>
    simp only [Option.some.injEq, forall_eq']
    refine (orderly_at_bind_left fun out => ?_).trans (Energy.Service.Counters.serve_ends_iff _ r)
    cases out <;> exact orderly_pure

theorem moduleDispatcher_some {name : String} {pm : Module (Machine σ)}
    (h : c.moduleDispatcher name = some pm) :
    (name = "cpufreq" ∧ c.modules.cpufreq ∧ pm = c.cpufreqModule) ∨
    (name = "topology" ∧ c.modules.topology ∧ pm = c.topologyModule) ∨
    (name = "energy" ∧ c.modules.energy ∧ pm = c.energyModule) := by
  unfold moduleDispatcher at h
  split at h
  · obtain ⟨hmask, hpm⟩ := Option.ite_none_right_eq_some.mp h
    exact .inl ⟨rfl, hmask, (Option.some.inj hpm).symm⟩
  · obtain ⟨hmask, hpm⟩ := Option.ite_none_right_eq_some.mp h
    exact .inr (.inl ⟨rfl, hmask, (Option.some.inj hpm).symm⟩)
  · obtain ⟨hmask, hpm⟩ := Option.ite_none_right_eq_some.mp h
    exact .inr (.inr ⟨rfl, hmask, (Option.some.inj hpm).symm⟩)
  · cases h

theorem processRequest_ends_iff (hwell : AllWellFormed m) (request : String × String) :
    Orderly (· = m) (processRequest c.moduleDispatcher request) ↔ c.Answerable m request := by
  refine process_ends_iff.trans ⟨fun h => ⟨?_, ?_, ?_⟩, fun h name hname pm hpm => ?_⟩
  · intro hname hmask
    exact (cpufreqModule_ends_iff hwell).mp (h _ hname _ (if_pos hmask))
  · intro hname hmask
    exact topologyModule_ends_iff.mp (h _ hname _ (if_pos hmask))
  · intro hname hmask
    exact energyModule_ends_iff.mp (h _ hname _ (if_pos hmask))
  · obtain ⟨rfl, hmask, rfl⟩ | ⟨rfl, hmask, rfl⟩ | ⟨rfl, hmask, rfl⟩ := moduleDispatcher_some hpm
    · exact (cpufreqModule_ends_iff hwell).mpr (h.cpufreq hname hmask)
    · exact topologyModule_ends_iff.mpr (h.topology hname hmask)
    · exact energyModule_ends_iff.mpr (h.energy hname hmask)

theorem processRequest_keeps (request : String × String) :
    Keeps AllWellFormed (processRequest c.moduleDispatcher request) := by
  refine process_keeps fun name pm hpm => ?_
  obtain ⟨-, -, rfl⟩ | ⟨-, -, rfl⟩ | ⟨-, -, rfl⟩ := moduleDispatcher_some hpm
  · refine keeps_focus ?_ (fun _ h => h) fun _ _ _ h => h
    unfold Cpufreq.CpuFreq.processMessage
    cases c.cpufreqProto.parseRequest request.1 request.2 with
    | none => exact keeps_pure
    | some r => exact keeps_bind (Cpufreq.CpuFreq.serve_wellFormed r) fun _ => keeps_pure
  · exact keeps_focus (keeps_true _) (fun _ _ => trivial) fun _ _ h _ => h
  · exact keeps_focus (keeps_true _) (fun _ _ => trivial) fun _ _ h _ => h

end Config

section OneDomain

open Cpufreq CpuFreq

/-- A server of one domain, without other modules and counters. -/
def oneDomainServer : Config Cells where
  modules := ⟨true, false, false⟩
  cpufreq := Cells.system .GOVERNOR_NUM 0
  topology :=
    { sysfsRootPrefix := "", read := fun _ _ => none, write := fun _ _ c => (false, c),
      readTsc := fun _ _ => none, clockTicksPerSecond := 100,
      maximizeUtilization := fun _ => pure (), resetUtilization := fun _ => pure () }
  counters := ⟨none, none, none⟩
  cpufreqProto := proto2
  topologyProto := ⟨fun _ => "", fun _ _ => none, fun _ => none, fun _ _ => none⟩
  energyProto := ⟨fun _ => "", fun _ _ => none, fun _ => none, fun _ _ => none⟩

def oneDomainMachine : Machine Cells where
  domains := [oneDomain]
  topology := ⟨⟨[], [], []⟩, fun _ => [], fun _ => 0⟩
  rest := slow

/-- The message of a request. -/
def cpufreqRequest (r : Request) : String × String :=
  (schema.requestName r, proto2.serializeRequest r)

theorem oneDomainMachine_wellFormed : Config.AllWellFormed oneDomainMachine := by
  intro d hd
  obtain rfl : d = oneDomain := List.mem_singleton.mp hd
  exact ⟨fun _ => by decide, by decide⟩

end OneDomain

end Mammut.Server
