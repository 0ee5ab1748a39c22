import Mammut.Cpufreq.Messages
import Mammut.Kit.Records
import Mammut.Utils.Text

/-! The messages of `cpufreq-remote.proto` as they travel. -/

namespace Mammut.Cpufreq

open Kit.Records Utils

/-- A number of 32 bits, of which the wire may have more. -/
def uint32? (i : ℕ) (rs : List Record) : Option UInt32 := (number? i rs).map UInt32.ofNat

def bool? (i : ℕ) (rs : List Record) : Option Bool := (number? i rs).map fun n => decide (n ≠ 0)

/-- A signed number of 32 bits, which travels as one of 64. -/
def int32? (i : ℕ) (rs : List Record) : Option Int32 :=
  (number? i rs).map fun n => (UInt64.ofNat n).toInt64.toInt32

namespace Request

def records : Request → List Record
  | .removeTurboFrequenciesDomain id | .reinsertTurboFrequenciesDomain id
  | .getAvailableFrequencies id | .getAvailableGovernors id | .getCurrentGovernor id
  | .getHardwareFrequencyBounds id | .getGovernorBounds id | .getTransitionLatency id
  | .getCurrentVoltage id => [(1, .number id.toNat)]
  | .getCurrentFrequency id userspace => [(1, .number id.toNat), (2, .number userspace.toNat)]
  | .changeFrequency id n | .changeGovernor id n => [(1, .number id.toNat), (2, .number n.toNat)]
  | .changeFrequencyBounds id lb ub =>
    [(1, .number id.toNat), (2, .number lb.toNat), (3, .number ub.toNat)]
  | _ => []

/-- What the fields of a message have to be, by its name. -/
def parsers : List (String × (List Record → Option Request)) :=
  [("GetDomains", fun _ => some .getDomains),
    ("IsBoostingSupported", fun _ => some .isBoostingSupported),
    ("RemoveTurboFrequencies", fun _ => some .removeTurboFrequencies),
    ("RemoveTurboFrequenciesDomain", fun rs => return .removeTurboFrequenciesDomain (← uint32? 1 rs)),
    ("ReinsertTurboFrequencies", fun _ => some .reinsertTurboFrequencies),
    ("ReinsertTurboFrequenciesDomain",
      fun rs => return .reinsertTurboFrequenciesDomain (← uint32? 1 rs)),
    ("IsBoostingEnabled", fun _ => some .isBoostingEnabled),
    ("EnableBoosting", fun _ => some .enableBoosting),
    ("DisableBoosting", fun _ => some .disableBoosting),
    ("GetAvailableFrequencies", fun rs => return .getAvailableFrequencies (← uint32? 1 rs)),
    ("GetAvailableGovernors", fun rs => return .getAvailableGovernors (← uint32? 1 rs)),
    ("GetCurrentFrequency", fun rs => return .getCurrentFrequency (← uint32? 1 rs) (← bool? 2 rs)),
    ("GetCurrentGovernor", fun rs => return .getCurrentGovernor (← uint32? 1 rs)),
    ("ChangeFrequency", fun rs => return .changeFrequency (← uint32? 1 rs) (← uint32? 2 rs)),
    ("GetHardwareFrequencyBounds", fun rs => return .getHardwareFrequencyBounds (← uint32? 1 rs)),
    ("GetGovernorBounds", fun rs => return .getGovernorBounds (← uint32? 1 rs)),
    ("ChangeFrequencyBounds",
      fun rs => return .changeFrequencyBounds (← uint32? 1 rs) (← uint32? 2 rs) (← uint32? 3 rs)),
    ("ChangeGovernor", fun rs => return .changeGovernor (← uint32? 1 rs) (← uint32? 2 rs)),
    ("GetTransitionLatency", fun rs => return .getTransitionLatency (← uint32? 1 rs)),
    ("GetCurrentVoltage", fun rs => return .getCurrentVoltage (← uint32? 1 rs))]

end Request

namespace DomainMessage

def records (m : DomainMessage) : List Record :=
  (1, .number m.id.toNat) :: packed 2 (m.virtualCoresIds.map UInt32.toNat)

def ofBytes? (bytes : List UInt8) : Option DomainMessage := do
  let rs ← read bytes
  return ⟨← uint32? 1 rs, (← numbers 2 rs).map UInt32.ofNat⟩

end DomainMessage

namespace Response

def records : Response → List Record
  | .getDomainsRes domains => domains.map fun m => (1, .bytes (write m.records))
  | .getAvailableFrequenciesRes ns | .getAvailableGovernorsRes ns =>
    packed 1 (ns.map UInt32.toNat)
  | .getCurrentFrequencyRes n | .getCurrentGovernorRes n => [(1, .number n.toNat)]
  | .getHardwareFrequencyBoundsRes lb ub => [(1, .number lb.toNat), (2, .number ub.toNat)]
  | .getGovernorBoundsRes lb ub b =>
    [(1, .number lb.toNat), (2, .number ub.toNat), (3, .number b.toNat)]
  | .resultVoid => []
  | .result b => [(1, .number b.toNat)]
  | .resultInt n => [(1, .number n.toInt64.toUInt64.toNat)]
  | .resultDouble bits => [(1, .fixed bits.toNat)]

def parsers : List (String × (List Record → Option Response)) :=
  [("GetDomainsRes", fun rs => return .getDomainsRes (← (repeated 1 rs).mapM DomainMessage.ofBytes?)),
    ("GetAvailableFrequenciesRes",
      fun rs => return .getAvailableFrequenciesRes ((← numbers 1 rs).map UInt32.ofNat)),
    ("GetAvailableGovernorsRes",
      fun rs => return .getAvailableGovernorsRes ((← numbers 1 rs).map UInt32.ofNat)),
    ("GetCurrentFrequencyRes", fun rs => return .getCurrentFrequencyRes (← uint32? 1 rs)),
    ("GetCurrentGovernorRes", fun rs => return .getCurrentGovernorRes (← uint32? 1 rs)),
    ("GetHardwareFrequencyBoundsRes",
      fun rs => return .getHardwareFrequencyBoundsRes (← uint32? 1 rs) (← uint32? 2 rs)),
    ("GetGovernorBoundsRes",
      fun rs => return .getGovernorBoundsRes (← uint32? 1 rs) (← uint32? 2 rs) (← bool? 3 rs)),
    ("ResultVoid", fun _ => some .resultVoid),
    ("Result", fun rs => return .result (← bool? 1 rs)),
    ("ResultInt", fun rs => return .resultInt (← int32? 1 rs)),
    ("ResultDouble", fun rs => return .resultDouble (UInt64.ofNat (← fixed? 1 rs)))]

end Response

/-- The message of the given name whose fields the bytes of a text are. -/
def parse {α : Type} (parsers : List (String × (List Record → Option α))) (name text : String) :
    Option α := do
  let parser ← parsers.find? fun p => messageName p.1 = name
  parser.2 (← read (bytesOf text))

/-- The messages in the wire format of proto2. -/
def proto2 : Protobuf Request Response where
  serializeRequest r := ofBytes (write r.records)
  parseRequest := parse Request.parsers
  serializeResponse r := some (ofBytes (write r.records))
  parseResponse := parse Response.parsers

theorem parse_write {α : Type} {parsers : List (String × (List Record → Option α))}
    {name : String} {parser : List Record → Option α} {rs : List Record} {a : α}
    (hfind : parsers.find? (fun p => p.1 = name) = some (name, parser))
    (hfits : ∀ r ∈ rs, Fits r) (hparser : parser rs = some a) :
    parse parsers (messageName name) (ofBytes (write rs)) = some a := by
  have hname : (fun p : String × (List Record → Option α) =>
      decide (messageName p.1 = messageName name)) = fun p => decide (p.1 = name) := by
    funext p
    simp [messageName_eq]
  simp only [parse, hname, hfind, bytesOf_ofBytes, read_write hfits, Option.bind_eq_bind,
    Option.bind_some, hparser]

theorem parse_request (r : Request) :
    parse Request.parsers (messageName r.name) (ofBytes (write r.records)) = some r := by
  cases r <;>
    exact parse_write rfl (by simp [Request.records, Fits]) (by
      simp [Request.records, uint32?, bool?, number?])

theorem ofBytes?_write (m : DomainMessage) :
    DomainMessage.ofBytes? (write m.records) = some m := by
  have hfits : ∀ r ∈ m.records, Fits r := by
    intro r hr
    obtain rfl | hr := List.mem_cons.mp hr
    · trivial
    · exact packed_fits hr
  have hid : number? 1 m.records = some m.id.toNat := by
    unfold DomainMessage.records packed
    split_ifs <;> simp [number?]
  have hcores : numbers 2 m.records = some (m.virtualCoresIds.map UInt32.toNat) := by
    have hpacked := numbers_packed 2 (m.virtualCoresIds.map UInt32.toNat)
    rw [numbers, Option.map_eq_some_iff] at hpacked ⊢
    obtain ⟨parts, hparts, hflat⟩ := hpacked
    exact ⟨[] :: parts, by simp [DomainMessage.records, numbersIn, hparts], by simpa using hflat⟩
  simp [DomainMessage.ofBytes?, read_write hfits, uint32?, hid, hcores, Function.comp_def]

theorem mapM_ofBytes? (domains : List DomainMessage) :
    (domains.map fun m => write m.records).mapM DomainMessage.ofBytes? = some domains := by
  induction domains with
  | nil => rfl
  | cons m domains ih => simp [ofBytes?_write, -List.mapM_map, ih]

theorem parse_response (r : Response) :
    parse Response.parsers (messageName r.name) (ofBytes (write r.records)) = some r := by
  cases r with
  | getDomainsRes domains =>
    apply parse_write rfl (by simp [Response.records, Fits])
    have hparts : repeated 1 (Response.records (.getDomainsRes domains)) =
        domains.map fun m => write m.records := by
      rw [← repeated_map 1 (domains.map fun m => write m.records), List.map_map]
      rfl
    rw [hparts, mapM_ofBytes?]
    rfl
  | getAvailableFrequenciesRes ns =>
    refine parse_write rfl (fun r hr => packed_fits hr) ?_
    simp [Response.records, numbers_packed, Function.comp_def]
  | getAvailableGovernorsRes ns =>
    refine parse_write rfl (fun r hr => packed_fits hr) ?_
    simp [Response.records, numbers_packed, Function.comp_def]
  | resultInt n =>
    apply parse_write rfl (by simp [Response.records, Fits])
    have hvalue : (UInt64.ofNat n.toInt64.toUInt64.toNat).toInt64.toInt32 = n := by
      rw [UInt64.ofNat_toNat]
      exact Int32.toInt32_toInt64 n
    simp only [Response.records, int32?, number?, List.reverse_singleton, List.findSome?_cons,
      if_true, Option.map_some, hvalue, Option.bind_eq_bind, Option.bind_some, Option.pure_def]
  | resultDouble bits =>
    apply parse_write rfl (by simpa [Response.records, Fits] using bits.toNat_lt)
    simp [Response.records, fixed?]
  | _ =>
    exact parse_write rfl (by simp [Response.records, Fits]) (by
      simp [Response.records, uint32?, bool?, number?])

theorem proto2_lawful : proto2.Lawful schema where
  request := parse_request
  response r := ⟨_, rfl, parse_response r⟩

end Mammut.Cpufreq
