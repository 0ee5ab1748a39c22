import Mammut.Kit.Binary64
import Mammut.Server.Calls
import Mammut.Topology.Remote

/-! The messages of `topology-remote.proto` as they travel. -/

namespace Mammut.Topology

open Kit Kit.Records Utils

/-- A number of 32 bits, of which the wire may have more. -/
def uint32? (i : ℕ) (rs : List Record) : Option UInt32 := (number? i rs).map UInt32.ofNat

def bool? (i : ℕ) (rs : List Record) : Option Bool := (number? i rs).map fun n => decide (n ≠ 0)

def string? (i : ℕ) (rs : List Record) : Option String := (repeated i rs).getLast?.map ofBytes

namespace UnitType

def number : UnitType → ℕ
  | TOPOLOGY => 0
  | CPU => 1
  | PHYSICAL_CORE => 2
  | VIRTUAL_CORE => 3

def ofNumber (n : ℕ) : Option UnitType := [TOPOLOGY, CPU, PHYSICAL_CORE, VIRTUAL_CORE][n]?

theorem ofNumber_number (u : UnitType) : ofNumber u.number = some u := by cases u <;> rfl

end UnitType

namespace Utilization

def number : Utilization → ℕ
  | MAXIMIZE => 0
  | RESET => 1

def ofNumber (n : ℕ) : Option Utilization := [MAXIMIZE, RESET][n]?

theorem ofNumber_number (u : Utilization) : ofNumber u.number = some u := by cases u <;> rfl

end Utilization

namespace LevelRequest

def all : List LevelRequest :=
  [getName, getDesc, isEnableable, isEnabled, enable, disable, getExitLatency, getConsumedPower,
    getAbsTime, getTime, resetTime, getAbsCount, getCount, resetCount]

end LevelRequest

namespace Request

def records : Request → List Record
  | .getTopology => []
  | .setUtilization type unitType id =>
    [(1, .number type.number), (2, .number unitType.number), (3, .number id.toNat)]
  | .getCpuVendorId id | .getCpuFamily id | .getCpuModel id | .getAbsoluteTicks id
  | .isHotPluggable id | .isHotPlugged id | .hotPlug id | .hotUnplug id | .getIdleTime id
  | .resetIdleTime id | .idleLevelsGet id => [(1, .number id.toNat)]
  | .hasFlag id flagName => [(1, .number id.toNat), (2, .bytes (bytesOf flagName))]
  | .idleLevel _ id levelId => [(1, .number id.toNat), (2, .number levelId.toNat)]

def parsers : List (String × (List Record → Option Request)) :=
  [("GetTopology", fun _ => some .getTopology),
    ("SetUtilization", fun rs => do
      let type ← Utilization.ofNumber (← number? 1 rs)
      let unitType ← UnitType.ofNumber (← number? 2 rs)
      return .setUtilization type unitType (← uint32? 3 rs)),
    ("GetCpuVendorId", fun rs => return .getCpuVendorId (← uint32? 1 rs)),
    ("GetCpuFamily", fun rs => return .getCpuFamily (← uint32? 1 rs)),
    ("GetCpuModel", fun rs => return .getCpuModel (← uint32? 1 rs)),
    ("GetAbsoluteTicks", fun rs => return .getAbsoluteTicks (← uint32? 1 rs)),
    ("HasFlag", fun rs => return .hasFlag (← uint32? 1 rs) (← string? 2 rs)),
    ("IsHotPluggable", fun rs => return .isHotPluggable (← uint32? 1 rs)),
    ("IsHotPlugged", fun rs => return .isHotPlugged (← uint32? 1 rs)),
    ("HotPlug", fun rs => return .hotPlug (← uint32? 1 rs)),
    ("HotUnplug", fun rs => return .hotUnplug (← uint32? 1 rs)),
    ("GetIdleTime", fun rs => return .getIdleTime (← uint32? 1 rs)),
    ("ResetIdleTime", fun rs => return .resetIdleTime (← uint32? 1 rs)),
    ("IdleLevelsGet", fun rs => return .idleLevelsGet (← uint32? 1 rs))] ++
  LevelRequest.all.map fun request =>
    (request.name, fun rs => return .idleLevel request (← uint32? 1 rs) (← uint32? 2 rs))

/-- The texts are bytes. -/
def Sendable : Request → Prop
  | .hasFlag _ flagName => IsBytes flagName
  | _ => True

end Request

namespace Response

/-- The fields; none when a required one was not set. -/
def records? : Response → Option (List Record)
  | .getTopologyRes coordinates =>
    some (coordinates.map fun vcc => (1, .bytes (write vcc.records)))
  | .getCpuVendorIdRes text | .getCpuFamilyRes text | .getCpuModelRes text =>
    some [(1, .bytes (bytesOf text))]
  | .getIdleTimeRes idleTime => some [(1, .fixed (Binary64.toWord idleTime))]
  | .idleLevelsGetRes levelId => some (levelId.map fun n => (1, .number n.toNat))
  | .idleLevelGetNameRes text | .idleLevelGetDescRes text =>
    text.map fun t => [(1, .bytes (bytesOf t))]
  | .idleLevelGetExitLatencyRes n | .idleLevelGetConsumedPowerRes n | .idleLevelGetTimeRes n
  | .idleLevelGetCountRes n => n.map fun k => [(1, .number k.toNat)]
  | .resultVoid => some []
  | .resultBool result => result.map fun b => [(1, .number b.toNat)]
  | .resultUint64 result => some [(1, .number result.toNat)]

def parsers : List (String × (List Record → Option Response)) :=
  [("GetTopologyRes",
      fun rs => return .getTopologyRes (← (repeated 1 rs).mapM VirtualCoreCoordinates.ofBytes?)),
    ("GetCpuVendorIdRes", fun rs => return .getCpuVendorIdRes (← string? 1 rs)),
    ("GetCpuFamilyRes", fun rs => return .getCpuFamilyRes (← string? 1 rs)),
    ("GetCpuModelRes", fun rs => return .getCpuModelRes (← string? 1 rs)),
    ("GetIdleTimeRes",
      fun rs => return .getIdleTimeRes (← (fixed? 1 rs).bind Binary64.ofWord)),
    ("IdleLevelsGetRes", fun rs => return .idleLevelsGetRes ((← numbers 1 rs).map UInt32.ofNat)),
    ("IdleLevelGetNameRes", fun rs => return .idleLevelGetNameRes (some (← string? 1 rs))),
    ("IdleLevelGetDescRes", fun rs => return .idleLevelGetDescRes (some (← string? 1 rs))),
    ("IdleLevelGetExitLatencyRes",
      fun rs => return .idleLevelGetExitLatencyRes (some (← uint32? 1 rs))),
    ("IdleLevelGetConsumedPowerRes",
      fun rs => return .idleLevelGetConsumedPowerRes (some (← uint32? 1 rs))),
    ("IdleLevelGetTimeRes", fun rs => return .idleLevelGetTimeRes (some (← uint32? 1 rs))),
    ("IdleLevelGetCountRes", fun rs => return .idleLevelGetCountRes (some (← uint32? 1 rs))),
    ("ResultVoid", fun _ => some .resultVoid),
    ("ResultBool", fun rs => return .resultBool (some (← bool? 1 rs))),
    ("ResultUint64", fun rs => return .resultUint64 (UInt64.ofNat (← number? 1 rs)))]

/-- The required fields are set, the texts are bytes, and the times are those that a `double`
has. -/
def Sendable : Response → Prop
  | .getCpuVendorIdRes text | .getCpuFamilyRes text | .getCpuModelRes text => IsBytes text
  | .getIdleTimeRes idleTime => Binary64.Representable idleTime
  | .idleLevelGetNameRes text | .idleLevelGetDescRes text => ∃ t, text = some t ∧ IsBytes t
  | .idleLevelGetExitLatencyRes n | .idleLevelGetConsumedPowerRes n | .idleLevelGetTimeRes n
  | .idleLevelGetCountRes n => n.isSome
  | .resultBool result => result.isSome
  | _ => True

end Response

/-- The message of the given name whose fields the bytes of a text are. -/
def parse {α : Type} (parsers : List (String × (List Record → Option α))) (name text : String) :
    Option α := do
  let parser ← parsers.find? fun p => messageName p.1 = name
  parser.2 (← read (bytesOf text))

/-- The messages in the wire format of proto2. -/
def proto2 : Protobuf Request Response where
  serializeRequest r := ofBytes (write r.records)
  parseRequest := parse Request.parsers
  serializeResponse r := r.records?.map fun rs => ofBytes (write rs)
  parseResponse := parse Response.parsers

theorem parse_write {α : Type} {parsers : List (String × (List Record → Option α))}
    {name : String} {parser : List Record → Option α} {rs : List Record} {a : α}
    (hfind : parsers.find? (fun p => p.1 = name) = some (name, parser))
    (hfits : ∀ r ∈ rs, Fits r) (hparser : parser rs = some a) :
    parse parsers (messageName name) (ofBytes (write rs)) = some a := by
  have hname : (fun p : String × (List Record → Option α) =>
      decide (messageName p.1 = messageName name)) = fun p => decide (p.1 = name) := by
    funext p
    simp [messageName_eq]
  simp only [parse, hname, hfind, bytesOf_ofBytes, read_write hfits, Option.bind_eq_bind,
    Option.bind_some, hparser]

theorem string?_singleton {text : String} (h : IsBytes text) :
    string? 1 [(1, .bytes (bytesOf text))] = some text := by
  simp [string?, repeated, ofBytes_bytesOf h]

theorem proto2_asks {r : Request} (h : r.Sendable) : proto2.Asks schema r := by
  cases r with
  | hasFlag id flagName =>
    refine parse_write rfl (by simp [Request.records, Fits]) ?_
    simp [Request.records, uint32?, number?, string?, repeated, ofBytes_bytesOf h]
  | setUtilization type unitType id =>
    refine parse_write rfl (by simp [Request.records, Fits]) ?_
    simp [Request.records, uint32?, number?, Utilization.ofNumber_number, UnitType.ofNumber_number]
  | idleLevel request id levelId =>
    cases request <;>
      exact parse_write rfl (by simp [Request.records, Fits]) (by
        simp [Request.records, uint32?, number?])
  | _ =>
    exact parse_write rfl (by simp [Request.records, Fits]) (by
      simp [Request.records, uint32?, number?])

theorem mapM_ofBytes? (coordinates : List VirtualCoreCoordinates) :
    (coordinates.map fun vcc => write vcc.records).mapM VirtualCoreCoordinates.ofBytes? =
      some coordinates := by
  induction coordinates with
  | nil => rfl
  | cons vcc coordinates ih =>
    simp [VirtualCoreCoordinates.ofBytes?_write, -List.mapM_map, ih]

theorem numbers_each (i : ℕ) (ns : List UInt32) :
    numbers i (ns.map fun n => (i, .number n.toNat)) = some (ns.map UInt32.toNat) := by
  have hmapM : (ns.map fun n => ((i, .number n.toNat) : Record)).mapM (numbersIn i) =
      some (ns.map fun n => [n.toNat]) := by
    induction ns with
    | nil => rfl
    | cons n ns ih => simp [numbersIn, -List.mapM_map, ih]
  rw [numbers, hmapM, Option.map_some]
  exact congrArg some List.map_eq_flatMap.symm

theorem proto2_carries {r : Response} (h : r.Sendable) : proto2.Carries schema r := by
  cases r with
  | getTopologyRes coordinates =>
    refine ⟨_, rfl, parse_write rfl (by simp [Fits]) ?_⟩
    have hparts : repeated 1 (coordinates.map fun vcc => (1, .bytes (write vcc.records))) =
        coordinates.map fun vcc => write vcc.records := by
      rw [← repeated_map 1 (coordinates.map fun vcc => write vcc.records), List.map_map]
      rfl
    rw [hparts, mapM_ofBytes?]
    rfl
  | getCpuVendorIdRes text =>
    exact ⟨_, rfl, parse_write rfl (by simp [Fits]) (by simp [string?_singleton h])⟩
  | getCpuFamilyRes text =>
    exact ⟨_, rfl, parse_write rfl (by simp [Fits]) (by simp [string?_singleton h])⟩
  | getCpuModelRes text =>
    exact ⟨_, rfl, parse_write rfl (by simp [Fits]) (by simp [string?_singleton h])⟩
  | getIdleTimeRes idleTime =>
    refine ⟨_, rfl, parse_write rfl ?_ ?_⟩
    · simpa [Fits] using Binary64.toWord_lt h
    · simp [fixed?, Binary64.ofWord_toWord h]
  | idleLevelsGetRes levelId =>
    refine ⟨_, rfl, parse_write rfl (by simp [Fits]) ?_⟩
    simp only [numbers_each, Option.bind_eq_bind, Option.bind_some, List.map_map]
    simp [Function.comp_def]
  | idleLevelGetNameRes text =>
    obtain ⟨t, rfl, ht⟩ := h
    exact ⟨_, rfl, parse_write rfl (by simp [Fits]) (by simp [string?_singleton ht])⟩
  | idleLevelGetDescRes text =>
    obtain ⟨t, rfl, ht⟩ := h
    exact ⟨_, rfl, parse_write rfl (by simp [Fits]) (by simp [string?_singleton ht])⟩
  | resultVoid => exact ⟨_, rfl, parse_write rfl (by simp [Fits]) rfl⟩
  | resultBool result =>
    obtain ⟨b, rfl⟩ := Option.isSome_iff_exists.mp h
    refine ⟨_, rfl, parse_write rfl (by simp [Fits]) ?_⟩
    cases b <;> rfl
  | resultUint64 result =>
    exact ⟨_, rfl, parse_write rfl (by simp [Fits]) (by simp [number?])⟩
  | idleLevelGetExitLatencyRes n | idleLevelGetConsumedPowerRes n | idleLevelGetTimeRes n
  | idleLevelGetCountRes n =>
    obtain ⟨k, rfl⟩ := Option.isSome_iff_exists.mp h
    exact ⟨_, rfl, parse_write rfl (by simp [Fits]) (by simp [uint32?, number?])⟩

end Mammut.Topology
