import Mammut.Energy.Service
import Mammut.Kit.Binary64
import Mammut.Kit.Records
import Mammut.Server.Calls
import Mammut.Utils.Text

/-! The messages of `energy-remote.proto` as they travel. -/

namespace Mammut.Energy

open CounterTypePb CounterValueType CounterCommand Kit Kit.Records Utils

namespace CounterTypePb

def number : CounterTypePb → ℕ
  | COUNTER_TYPE_PB_CPUS => 0
  | COUNTER_TYPE_PB_MEMORY => 1
  | COUNTER_TYPE_PB_PLUG => 2

def ofNumber (n : ℕ) : Option CounterTypePb :=
  [COUNTER_TYPE_PB_CPUS, COUNTER_TYPE_PB_MEMORY, COUNTER_TYPE_PB_PLUG][n]?

theorem ofNumber_number (t : CounterTypePb) : ofNumber t.number = some t := by cases t <;> rfl

end CounterTypePb

namespace CounterValueType

def number : CounterValueType → ℕ
  | COUNTER_VALUE_TYPE_ALL => 0
  | COUNTER_VALUE_TYPE_CPU => 1
  | COUNTER_VALUE_TYPE_CORES => 2
  | COUNTER_VALUE_TYPE_GRAPHIC => 3
  | COUNTER_VALUE_TYPE_DRAM => 4

def ofNumber (n : ℕ) : Option CounterValueType :=
  [COUNTER_VALUE_TYPE_ALL, COUNTER_VALUE_TYPE_CPU, COUNTER_VALUE_TYPE_CORES,
    COUNTER_VALUE_TYPE_GRAPHIC, COUNTER_VALUE_TYPE_DRAM][n]?

theorem ofNumber_number (v : CounterValueType) : ofNumber v.number = some v := by cases v <;> rfl

end CounterValueType

namespace CounterCommand

def number : CounterCommand → ℕ
  | COUNTER_COMMAND_INIT => 0
  | COUNTER_COMMAND_RESET => 1
  | COUNTER_COMMAND_GET => 2
  | COUNTER_COMMAND_HAS => 3

def ofNumber (n : ℕ) : Option CounterCommand :=
  [COUNTER_COMMAND_INIT, COUNTER_COMMAND_RESET, COUNTER_COMMAND_GET, COUNTER_COMMAND_HAS][n]?

theorem ofNumber_number (c : CounterCommand) : ofNumber c.number = some c := by cases c <;> rfl

end CounterCommand

namespace CounterReq

def records (cr : CounterReq) : List Record :=
  (1, .number cr.type.number) ::
    (cr.subtype.toList.map (fun v => (2, .number v.number)) ++ [(3, .number cr.cmd.number)])

def ofRecords? (rs : List Record) : Option CounterReq := do
  return {
    type := ← CounterTypePb.ofNumber (← number? 1 rs)
    subtype := (number? 2 rs).bind CounterValueType.ofNumber
    cmd := ← CounterCommand.ofNumber (← number? 3 rs) }

theorem ofRecords?_records (cr : CounterReq) : ofRecords? cr.records = some cr := by
  obtain ⟨type, subtype, cmd⟩ := cr
  cases subtype <;>
    simp [ofRecords?, records, number?, CounterTypePb.ofNumber_number,
      CounterValueType.ofNumber_number, CounterCommand.ofNumber_number]

end CounterReq

/-- A `double` of a message. -/
def double? (i : ℕ) (rs : List Record) : Option Joules := (fixed? i rs).bind Binary64.ofWord

namespace CpuResults

def records (r : CpuResults) : List Record :=
  [(1, .number r.cpuid.toNat), (2, .fixed (Binary64.toWord r.joules.cpu)),
    (3, .fixed (Binary64.toWord r.joules.cores)), (4, .fixed (Binary64.toWord r.joules.graphic)),
    (5, .fixed (Binary64.toWord r.joules.dram))]

def ofBytes? (bytes : List UInt8) : Option CpuResults := do
  let rs ← read bytes
  return ⟨UInt32.ofNat (← number? 1 rs),
    ⟨← double? 2 rs, ← double? 3 rs, ← double? 4 rs, ← double? 5 rs⟩⟩

/-- The joules are those that a `double` has. -/
def Sendable (r : CpuResults) : Prop := ∀ d, Binary64.Representable (r.joules.get d)

theorem ofBytes?_write {r : CpuResults} (h : r.Sendable) : ofBytes? (write r.records) = some r := by
  have hfits : ∀ record ∈ r.records, Fits record := by
    have hlt (d : Domain) := Binary64.toWord_lt (h d)
    intro record hrecord
    simp only [records, List.mem_cons, List.not_mem_nil, or_false] at hrecord
    obtain rfl | rfl | rfl | rfl | rfl := hrecord
    · trivial
    · exact hlt .cpu
    · exact hlt .cores
    · exact hlt .graphic
    · exact hlt .dram
  have hcpu := Binary64.ofWord_toWord (h .cpu)
  have hcores := Binary64.ofWord_toWord (h .cores)
  have hgraphic := Binary64.ofWord_toWord (h .graphic)
  have hdram := Binary64.ofWord_toWord (h .dram)
  simp only [JoulesCpu.get] at hcpu hcores hgraphic hdram
  rw [ofBytes?, read_write hfits]
  simp [records, number?, double?, fixed?, hcpu, hcores, hgraphic, hdram]

end CpuResults

namespace CounterRes

/-- The message with its required fields; none when one was not set. -/
def records? : CounterRes → Option (List Record)
  | counterResBool res => res.map fun b => [(1, .number b.toNat)]
  | counterResGetGeneric joules => some [(1, .fixed (Binary64.toWord joules))]
  | counterResGetCpu joules => some (joules.map fun r => (1, .bytes (write r.records)))

def parsers : List (String × (List Record → Option CounterRes)) :=
  [("CounterResBool",
      fun rs => return .counterResBool (some (decide ((← number? 1 rs) ≠ 0)))),
    ("CounterResGetGeneric", fun rs => return .counterResGetGeneric (← double? 1 rs)),
    ("CounterResGetCpu",
      fun rs => return .counterResGetCpu (← (repeated 1 rs).mapM CpuResults.ofBytes?))]

/-- The required fields are set, and the joules are those that a `double` has. -/
def Sendable : CounterRes → Prop
  | counterResBool res => res.isSome
  | counterResGetGeneric joules => Binary64.Representable joules
  | counterResGetCpu joules => ∀ r ∈ joules, r.Sendable

end CounterRes

/-- The messages in the wire format of proto2. -/
def proto2 : Protobuf CounterReq CounterRes where
  serializeRequest cr := ofBytes (write cr.records)
  parseRequest name text :=
    if name = messageName "CounterReq" then (read (bytesOf text)).bind CounterReq.ofRecords? else none
  serializeResponse r := r.records?.map fun rs => ofBytes (write rs)
  parseResponse name text := do
    let parser ← CounterRes.parsers.find? fun p => messageName p.1 = name
    parser.2 (← read (bytesOf text))

theorem proto2_asks (cr : CounterReq) : proto2.Asks schema cr := by
  have hfits : ∀ r ∈ cr.records, Fits r := by
    obtain ⟨type, subtype, cmd⟩ := cr
    cases subtype <;> simp [CounterReq.records, Fits]
  show (if schema.requestName cr = messageName "CounterReq" then _ else none) = some cr
  rw [schema, if_pos rfl]
  show (read (bytesOf (ofBytes (write cr.records)))).bind CounterReq.ofRecords? = some cr
  rw [bytesOf_ofBytes, read_write hfits, Option.bind_some, CounterReq.ofRecords?_records]

theorem parse_write {name : String} {parser : List Record → Option CounterRes} {rs : List Record}
    {r : CounterRes}
    (hfind : CounterRes.parsers.find? (fun p => p.1 = name) = some (name, parser))
    (hfits : ∀ record ∈ rs, Fits record) (hparser : parser rs = some r) :
    proto2.parseResponse (messageName name) (ofBytes (write rs)) = some r := by
  have hname : (fun p : String × (List Record → Option CounterRes) =>
      decide (messageName p.1 = messageName name)) = fun p => decide (p.1 = name) := by
    funext p
    simp [messageName]
  simp only [proto2, hname, hfind, bytesOf_ofBytes, read_write hfits, Option.bind_eq_bind,
    Option.bind_some, hparser]

theorem mapM_ofBytes? {results : List CpuResults} (h : ∀ r ∈ results, r.Sendable) :
    (results.map fun r => write r.records).mapM CpuResults.ofBytes? = some results := by
  induction results with
  | nil => rfl
  | cons r results ih =>
    have htail := ih fun r hr => h r (List.mem_cons_of_mem _ hr)
    simp [CpuResults.ofBytes?_write (h r List.mem_cons_self), -List.mapM_map, htail]

theorem proto2_carries {r : CounterRes} (h : r.Sendable) : proto2.Carries schema r := by
  cases r with
  | counterResBool res =>
    obtain ⟨b, rfl⟩ := Option.isSome_iff_exists.mp h
    refine ⟨_, rfl, parse_write rfl (by simp [Fits]) ?_⟩
    cases b <;> rfl
  | counterResGetGeneric joules =>
    refine ⟨_, rfl, parse_write rfl ?_ ?_⟩
    · simpa [Fits] using Binary64.toWord_lt h
    · simp [double?, fixed?, Binary64.ofWord_toWord h]
  | counterResGetCpu joules =>
    refine ⟨_, rfl, parse_write rfl (by simp [Fits]) ?_⟩
    have hparts : repeated 1 (joules.map fun r => (1, .bytes (write r.records))) =
        joules.map fun r => write r.records := by
      rw [← repeated_map 1 (joules.map fun r => write r.records), List.map_map]
      rfl
    rw [hparts, mapM_ofBytes? h]
    rfl

end Mammut.Energy
