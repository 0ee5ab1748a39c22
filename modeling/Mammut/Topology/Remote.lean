import Mammut.Kit.Records
import Mammut.Topology.Service
import Mammut.Topology.Units

/-! The topology of a client, from `topology.cpp`: its constructor builds it from the coordinates
that the server sends, which are those of the virtual cores of the server's own topology. -/

set_option linter.dupNamespace false

namespace Mammut.Topology

open Kit.Grouping

variable {σ : Type}

def Expect.coordinates : Expected Response (List VirtualCoreCoordinates) where
  name := messageName "GetTopologyRes"
  read r := match r with
    | .getTopologyRes coordinates => some coordinates
    | _ => none

namespace Topology

/-- The constructor for a client. -/
def remote (proto : Protobuf Request Response) (moduleDispatcher : String → Option (Module σ)) :
    Call (Session σ) Topology := do
  let coord ← remoteCall proto schema moduleDispatcher .getTopology Expect.coordinates
  return buildCpuVector coord

variable (coord : List VirtualCoreCoordinates)

/-- The coordinates in the order of the topology, those of a CPU. -/
def regroupedCpu (c : CpuId) : List VirtualCoreCoordinates :=
  (distinct ((onCpu coord c).map (·.physicalCoreId))).flatMap fun p =>
    (onCpu coord c).filter (·.physicalCoreId = p)

/-- The coordinates in the order of the topology. -/
def regrouped : List VirtualCoreCoordinates :=
  (distinct (coord.map (·.cpuId))).flatMap (regroupedCpu coord)

/-- The coordinates that the server sends. -/
def coordinates (t : Topology) : List VirtualCoreCoordinates :=
  t.virtualCores.map fun vc => ⟨vc.cpuId, vc.physicalCoreId, vc.virtualCoreId⟩

theorem coordinates_buildCpuVector : (buildCpuVector coord).coordinates = regrouped coord := by
  have hback (l : List VirtualCoreCoordinates) : (l.map VirtualCore.of).map (fun vc =>
      (⟨vc.cpuId, vc.physicalCoreId, vc.virtualCoreId⟩ : VirtualCoreCoordinates)) = l := by
    rw [List.map_map]
    exact List.map_id l
  simp only [coordinates, buildCpuVector_eq, units, Cpu.new, Cpu.virtualCoresFromPhysicalCores_eq,
    physicals, virtuals, List.flatMap_map, List.map_flatMap, hback]
  rfl

variable {coord}

theorem regroupedCpu_cpuId {c : CpuId} {vcc : VirtualCoreCoordinates}
    (h : vcc ∈ regroupedCpu coord c) : vcc.cpuId = c := by
  obtain ⟨p, -, hvcc⟩ := List.mem_flatMap.mp h
  have honCpu := (List.mem_filter.mp hvcc).1
  simpa [onCpu] using (List.mem_filter.mp honCpu).2

theorem regroupedCpu_ne_nil {c : CpuId} (hc : c ∈ coord.map (·.cpuId)) :
    regroupedCpu coord c ≠ [] := by
  obtain ⟨vcc, hvcc, rfl⟩ := List.mem_map.mp hc
  have hmem : vcc ∈ onCpu coord vcc.cpuId := List.mem_filter.mpr ⟨hvcc, by simp⟩
  refine List.ne_nil_of_mem (a := vcc) (List.mem_flatMap.mpr ⟨vcc.physicalCoreId, ?_, ?_⟩)
  · exact mem_distinct.mpr (List.mem_map_of_mem hmem)
  · exact List.mem_filter.mpr ⟨hmem, by simp⟩

theorem distinct_cpuId_regrouped :
    distinct ((regrouped coord).map (·.cpuId)) = distinct (coord.map (·.cpuId)) :=
  distinct_flatMap (distinct_nodup _) (fun _ _ _ h => regroupedCpu_cpuId h) fun _ hc =>
    regroupedCpu_ne_nil (mem_distinct.mp hc)

theorem onCpu_regrouped {c : CpuId} (hc : c ∈ coord.map (·.cpuId)) :
    onCpu (regrouped coord) c = regroupedCpu coord c :=
  filter_flatMap_group (distinct_nodup _) (fun _ _ _ h => regroupedCpu_cpuId h)
    (mem_distinct.mpr hc)

/-- The physical cores of a CPU do not depend on the order of the others' coordinates. -/
theorem physicals_regrouped {c : CpuId} (hc : c ∈ coord.map (·.cpuId)) :
    physicals (regrouped coord) c = physicals coord c := by
  have hkey : ∀ p ∈ distinct ((onCpu coord c).map (·.physicalCoreId)),
      ∀ vcc ∈ (onCpu coord c).filter (·.physicalCoreId = p), vcc.physicalCoreId = p := by
    intro p _ vcc hvcc
    simpa using (List.mem_filter.mp hvcc).2
  have hne : ∀ p ∈ distinct ((onCpu coord c).map (·.physicalCoreId)),
      (onCpu coord c).filter (·.physicalCoreId = p) ≠ [] := by
    intro p hp
    obtain ⟨vcc, hvcc, rfl⟩ := List.mem_map.mp (mem_distinct.mp hp)
    exact List.ne_nil_of_mem (List.mem_filter.mpr ⟨hvcc, by simp⟩)
  have hkeys : distinct ((onCpu (regrouped coord) c).map (·.physicalCoreId)) =
      distinct ((onCpu coord c).map (·.physicalCoreId)) := by
    rw [onCpu_regrouped hc]
    exact distinct_flatMap (distinct_nodup _) hkey hne
  rw [physicals, hkeys]
  refine List.map_congr_left fun p hp => ?_
  have hgroup : (onCpu (regrouped coord) c).filter (·.physicalCoreId = p) =
      (onCpu coord c).filter (·.physicalCoreId = p) := by
    rw [onCpu_regrouped hc]
    exact filter_flatMap_group (distinct_nodup _) hkey hp
  rw [virtuals, hgroup, virtuals]

theorem units_regrouped : units (regrouped coord) = units coord := by
  rw [units, distinct_cpuId_regrouped]
  refine List.map_congr_left fun c hc => ?_
  rw [physicals_regrouped (mem_distinct.mp hc)]

/-- The order of the virtual cores of a topology is a fixed point of the builders. -/
theorem buildCpuVector_coordinates (coord : List VirtualCoreCoordinates) :
    buildCpuVector (buildCpuVector coord).coordinates = buildCpuVector coord := by
  rw [coordinates_buildCpuVector, buildCpuVector_eq, units_regrouped, buildCpuVector_eq]

/-- The server has the module, and protobuf takes a request and the response to it back from what
it has made of them. -/
structure Serves (sys : System σ) (proto : Protobuf Request Response)
    (moduleDispatcher : String → Option (Module (TopologyLinux × σ))) (request : Request)
    (response : Response) : Prop where
  activated : moduleDispatcher "topology" = some (Service.processMessage sys proto)
  request : proto.parseRequest (schema.requestName request) (proto.serializeRequest request) =
    some request
  response : ∃ text, proto.serializeResponse response = some text ∧
    proto.parseResponse (schema.responseName response) text = some response

theorem split_messageName {name : String} (hplain : '.' ∉ name.toList) (hne : name.toList ≠ []) :
    Utils.split (messageName name) '.' = ["mammut", "topology", name] :=
  Utils.split_three (by simp [messageName_eq]) (by decide) (by decide) hplain hne

theorem moduleName_getTopology {τ : Type} (s : τ) :
    (getModuleNameFromMessageId (schema.requestName .getTopology)).run s = .ok "topology" s := by
  have hsplit := split_messageName (by decide : '.' ∉ "GetTopology".toList) (by decide)
  simp [getModuleNameFromMessageId, schema, Request.name, hsplit]

end Topology

/-! ### A server of two CPUs -/

section TwoCpus

open Kit.Records Utils

namespace VirtualCoreCoordinates

/-- The fields of a `GetTopologyRes::Vcc`. -/
def records (vcc : VirtualCoreCoordinates) : List Record :=
  [(1, .number vcc.cpuId), (2, .number vcc.physicalCoreId), (3, .number vcc.virtualCoreId)]

def ofBytes? (bytes : List UInt8) : Option VirtualCoreCoordinates := do
  let rs ← read bytes
  return ⟨← number? 1 rs, ← number? 2 rs, ← number? 3 rs⟩

theorem ofBytes?_write (vcc : VirtualCoreCoordinates) :
    ofBytes? (write vcc.records) = some vcc := by
  have hfits : ∀ r ∈ vcc.records, Fits r := by simp [records, Fits]
  simp only [ofBytes?, read_write hfits, Option.bind_eq_bind, Option.bind_some]
  simp [records, number?]

end VirtualCoreCoordinates

open VirtualCoreCoordinates in
/-- The request for the topology, and the response to it, in the wire format of proto2. -/
def coordinatesProto : Protobuf Request Response where
  serializeRequest _ := ""
  parseRequest name _ := if name = messageName "GetTopology" then some .getTopology else none
  serializeResponse r := match r with
    | .getTopologyRes coordinates =>
      some (ofBytes (write (coordinates.map fun vcc => (1, .bytes (write vcc.records)))))
    | _ => none
  parseResponse name text :=
    if name = messageName "GetTopologyRes" then do
      let rs ← read (bytesOf text)
      return .getTopologyRes (← (repeated 1 rs).mapM ofBytes?)
    else none

/-- The dispatcher of a server that has only this module. -/
def topologyOnly (sys : System σ) (moduleId : String) : Option (Module (TopologyLinux × σ)) :=
  if moduleId = "topology" then some (Service.processMessage sys coordinatesProto) else none

theorem topologyOnly_serves (sys : System σ) (coordinates : List VirtualCoreCoordinates) :
    Topology.Serves sys coordinatesProto (topologyOnly sys) .getTopology
      (.getTopologyRes coordinates) where
  activated := rfl
  request := by decide
  response := by
    have hmapM : (coordinates.map fun vcc => write vcc.records).mapM
        VirtualCoreCoordinates.ofBytes? = some coordinates := by
      induction coordinates with
      | nil => rfl
      | cons vcc coordinates ih =>
        simp [VirtualCoreCoordinates.ofBytes?_write, -List.mapM_map, ih]
    have hparts : repeated 1 (coordinates.map fun vcc => (1, .bytes (write vcc.records))) =
        coordinates.map fun vcc => write vcc.records := by
      rw [← repeated_map 1 (coordinates.map fun vcc => write vcc.records), List.map_map]
      rfl
    refine ⟨_, rfl, ?_⟩
    simp only [coordinatesProto, schema, Response.name, if_true, bytesOf_ofBytes]
    rw [read_write (by simp [Fits])]
    simp only [Option.bind_eq_bind, Option.bind_some, hparts, hmapM]
    rfl

def twoCpus : TopologyLinux where
  topology := Topology.buildCpuVector [⟨0, 0, 0⟩, ⟨1, 0, 1⟩, ⟨0, 1, 2⟩, ⟨0, 0, 3⟩, ⟨1, 1, 4⟩]
  idleLevels _ := []
  lastProcIdleTime _ := 0

def noFiles : System Unit where
  sysfsRootPrefix := ""
  read _ _ := none
  write _ _ s := (false, s)
  readTsc _ _ := none
  clockTicksPerSecond := 100
  maximizeUtilization _ := pure ()
  resetUtilization _ := pure ()

end TwoCpus

end Mammut.Topology
