import Mathlib.Data.Prod.Lex
import Mammut.Kit.OrdMap
import Mammut.Topology.Linux
import Mammut.Topology.Lookups

/-! The constructor of a local `Topology`, from `topology.cpp`: a scan of the virtual cores that may
be there.  The pair of a package and a core of it is replaced by a number, that of its first
occurrence. -/

set_option linter.dupNamespace false

namespace Mammut.Topology

open Kit Kit.Grouping Kit.Programs Utils

/-- The variables of the scan. -/
structure Scan where
  uniquePhysicalCoreIds : OrdMap (CpuId ×ₗ PhysicalCoreId) PhysicalCoreId
  nextIdToUse : PhysicalCoreId
  coord : List VirtualCoreCoordinates

/-- `core_id` is not unique, but the pair is. -/
def VirtualCoreCoordinates.identifiersPair (vcc : VirtualCoreCoordinates) :
    CpuId × PhysicalCoreId :=
  (vcc.cpuId, vcc.physicalCoreId)

namespace Scan

def start : Scan := ⟨OrdMap.empty, 0, []⟩

/-- The end of the loop body, from the coordinates that were read. -/
def push (scan : Scan) (vcc : VirtualCoreCoordinates) : Scan :=
  match scan.uniquePhysicalCoreIds.find? (toLex vcc.identifiersPair) with
  | none =>
    { uniquePhysicalCoreIds :=
        scan.uniquePhysicalCoreIds.insert (toLex vcc.identifiersPair) scan.nextIdToUse
      nextIdToUse := scan.nextIdToUse + 1
      coord := scan.coord ++ [{ vcc with physicalCoreId := scan.nextIdToUse }] }
  | some physicalCoreId => { scan with coord := scan.coord ++ [{ vcc with physicalCoreId }] }

/-- The distinct pairs. -/
def pairs (online : List VirtualCoreCoordinates) : List (CpuId × PhysicalCoreId) :=
  distinct (online.map (·.identifiersPair))

/-- The coordinates with the number of each pair. -/
def numbered (online : List VirtualCoreCoordinates) : List VirtualCoreCoordinates :=
  online.map fun vcc => { vcc with physicalCoreId := (pairs online).idxOf vcc.identifiersPair }

/-- The map has the number of each pair, and the next one to use is that of the next new pair. -/
structure Holds (online : List VirtualCoreCoordinates) (scan : Scan) : Prop where
  find : ∀ pair, scan.uniquePhysicalCoreIds.find? (toLex pair) =
    if pair ∈ pairs online then some ((pairs online).idxOf pair) else none
  next : scan.nextIdToUse = (pairs online).length
  coord : scan.coord = numbered online

theorem holds_start : Holds [] start := ⟨fun _ => rfl, rfl, rfl⟩

theorem pairs_concat (online : List VirtualCoreCoordinates) (vcc : VirtualCoreCoordinates) :
    pairs (online ++ [vcc]) = if vcc.identifiersPair ∈ pairs online then pairs online
      else pairs online ++ [vcc.identifiersPair] := by
  rw [pairs, List.map_append, List.map_singleton, distinct_concat]
  by_cases h : vcc.identifiersPair ∈ pairs online
  · rw [if_pos h]
    exact if_pos h
  · rw [if_neg h]
    exact if_neg h

/-- The pairs of the coordinates keep their numbers. -/
theorem numbered_concat (online : List VirtualCoreCoordinates) (vcc : VirtualCoreCoordinates) :
    numbered (online ++ [vcc]) = numbered online ++ [{ vcc with
      physicalCoreId := (pairs (online ++ [vcc])).idxOf vcc.identifiersPair }] := by
  rw [numbered, List.map_append, List.map_singleton]
  refine congrArg (· ++ _) (List.map_congr_left fun other hother => ?_)
  have hmem : other.identifiersPair ∈ pairs online :=
    mem_distinct.mpr (List.mem_map_of_mem hother)
  rw [pairs_concat]
  split_ifs
  · rfl
  · rw [List.idxOf_append_of_mem hmem]

theorem Holds.push {online : List VirtualCoreCoordinates} {scan : Scan} (h : Holds online scan)
    (vcc : VirtualCoreCoordinates) : Holds (online ++ [vcc]) (scan.push vcc) := by
  have hfind := h.find vcc.identifiersPair
  have hpairs := pairs_concat online vcc
  have hcoord := numbered_concat online vcc
  by_cases hmem : vcc.identifiersPair ∈ pairs online
  · rw [if_pos hmem] at hfind hpairs
    have hpush : scan.push vcc = { scan with coord := scan.coord ++ [{ vcc with
        physicalCoreId := (pairs online).idxOf vcc.identifiersPair }] } := by
      rw [Scan.push, hfind]
    rw [hpairs] at hcoord
    rw [hpush]
    exact ⟨hpairs ▸ h.find, hpairs ▸ h.next, by rw [hcoord, h.coord]⟩
  · rw [if_neg hmem] at hfind hpairs
    have hpush : scan.push vcc =
        { uniquePhysicalCoreIds :=
            scan.uniquePhysicalCoreIds.insert (toLex vcc.identifiersPair) scan.nextIdToUse
          nextIdToUse := scan.nextIdToUse + 1
          coord := scan.coord ++ [{ vcc with physicalCoreId := scan.nextIdToUse }] } := by
      rw [Scan.push, hfind]
    have hlast : (pairs online ++ [vcc.identifiersPair]).idxOf vcc.identifiersPair =
        (pairs online).length := by
      rw [List.idxOf_append_of_notMem hmem, List.idxOf_cons_self, Nat.add_zero]
    rw [hpush]
    refine ⟨fun pair => ?_, ?_, ?_⟩
    · show (scan.uniquePhysicalCoreIds.insert (toLex vcc.identifiersPair) scan.nextIdToUse).find?
        (toLex pair) = _
      rw [OrdMap.find?_insert hfind, h.find, h.next, hpairs]
      by_cases heq : pair = vcc.identifiersPair
      · rw [if_pos (congrArg toLex heq), heq, hlast]
        simp
      · rw [if_neg fun hlex => heq (toLex.injective hlex)]
        by_cases hold : pair ∈ pairs online
        · rw [if_pos hold, if_pos (List.mem_append_left _ hold), List.idxOf_append_of_mem hold]
        · rw [if_neg hold, if_neg]
          simp [hold, heq]
    · show scan.nextIdToUse + 1 = _
      rw [h.next, hpairs, List.length_append, List.length_singleton]
    · show scan.coord ++ [_] = _
      rw [hcoord, hpairs, hlast, h.coord, h.next]

theorem holds_foldl (online : List VirtualCoreCoordinates) :
    Holds online (online.foldl Scan.push start) := by
  induction online using List.reverseRecOn with
  | nil => exact holds_start
  | append_singleton online vcc ih =>
    rw [List.foldl_append]
    exact ih.push vcc

/-- What the numbers of physical cores are: that of the pair's first occurrence. -/
structure Numbered (online coord : List VirtualCoreCoordinates) : Prop where
  virtualCoreIds : coord.map (·.virtualCoreId) = online.map (·.virtualCoreId)
  cpuIds : coord.map (·.cpuId) = online.map (·.cpuId)
  same_iff : ∀ a ∈ online.zip coord, ∀ b ∈ online.zip coord,
    a.2.physicalCoreId = b.2.physicalCoreId ↔
      (a.1.cpuId, a.1.physicalCoreId) = (b.1.cpuId, b.1.physicalCoreId)
  same_cpu : ∀ a ∈ coord, ∀ b ∈ coord, a.physicalCoreId = b.physicalCoreId → a.cpuId = b.cpuId
  first_occurrences : distinct (coord.map (·.physicalCoreId)) = List.range
    (online.map fun vcc => (vcc.cpuId, vcc.physicalCoreId)).toFinset.card
  physicalCoreIds : ∀ id, (∃ vcc ∈ coord, vcc.physicalCoreId = id) ↔
    id < (online.map fun vcc => (vcc.cpuId, vcc.physicalCoreId)).toFinset.card

theorem length_pairs (online : List VirtualCoreCoordinates) : (pairs online).length =
    (online.map fun vcc => (vcc.cpuId, vcc.physicalCoreId)).toFinset.card :=
  length_distinct _

theorem numbered_ids (online : List VirtualCoreCoordinates) :
    distinct ((numbered online).map (·.physicalCoreId)) = List.range (pairs online).length := by
  rw [pairs, ← distinct_map_idxOf, numbered, List.map_map, List.map_map]
  rfl

theorem idxOf_pair {online : List VirtualCoreCoordinates} {a b : VirtualCoreCoordinates}
    (ha : a ∈ online) : (pairs online).idxOf a.identifiersPair =
      (pairs online).idxOf b.identifiersPair ↔ a.identifiersPair = b.identifiersPair := by
  have hmem : a.identifiersPair ∈ pairs online := mem_distinct.mpr (List.mem_map_of_mem ha)
  exact List.idxOf_inj hmem

theorem numbered_spec (online : List VirtualCoreCoordinates) :
    Numbered online (numbered online) where
  virtualCoreIds := by
    rw [numbered, List.map_map]
    rfl
  cpuIds := by
    rw [numbered, List.map_map]
    rfl
  same_iff := by
    have hzip : ∀ a ∈ online.zip (numbered online), a.1 ∈ online ∧
        a.2.physicalCoreId = (pairs online).idxOf a.1.identifiersPair := by
      intro a ha
      rw [numbered, List.zip_map_right, List.zip_eq_zipWith, List.zipWith_self, List.map_map] at ha
      obtain ⟨vcc, hmem, rfl⟩ := List.mem_map.mp ha
      exact ⟨hmem, rfl⟩
    intro a ha b hb
    obtain ⟨hmem, hid⟩ := hzip a ha
    obtain ⟨-, hid'⟩ := hzip b hb
    rw [hid, hid']
    exact idxOf_pair hmem
  same_cpu := by
    intro a ha b hb hsame
    obtain ⟨a, hmem, rfl⟩ := List.mem_map.mp ha
    obtain ⟨b, hmem', rfl⟩ := List.mem_map.mp hb
    exact (Prod.mk.inj ((idxOf_pair hmem).mp hsame)).1
  first_occurrences := by rw [numbered_ids, length_pairs]
  physicalCoreIds := by
    intro id
    rw [← length_pairs, ← List.mem_range, ← numbered_ids, mem_distinct, List.mem_map]

end Scan

variable {σ : Type}

namespace System

variable (sys : System σ)

def coresListFile : String := sys.sysfsRootPrefix ++ "/sys/devices/system/cpu/possible"

def getTopologyPathFromVirtualCoreId (id : VirtualCoreId) : String := sys.cpuPath id ++ "/topology/"

/-- The `uint` for the number in the first line of a file. -/
def readId (fileName : String) : Call σ ℕ := do
  return uintOf (intOf (stringToInt (← sys.readFirstLineFromFile fileName)))

/-- The loop body of the constructor.  If the path does not exist, the virtual core is not
online. -/
def scan (scan : Scan) (virtualCoreId : VirtualCoreId) : Call σ Scan := do
  let path := sys.getTopologyPathFromVirtualCoreId virtualCoreId
  if ← sys.existsFile path then
    let cpuId ← sys.readId (path ++ "physical_package_id")
    let physicalCoreId ← sys.readId (path ++ "core_id")
    return scan.push { cpuId, physicalCoreId, virtualCoreId }
  return scan

/-- What the files say of a virtual core that is online. -/
def coordinates (s : σ) (v : VirtualCoreId) : Option VirtualCoreCoordinates := do
  let path := sys.getTopologyPathFromVirtualCoreId v
  let _ ← sys.read path s
  let cpuId ← sys.read (path ++ "physical_package_id") s
  let coreId ← sys.read (path ++ "core_id") s
  return ⟨uintOf (intOf (stringToInt (firstLine cpuId))),
    uintOf (intOf (stringToInt (firstLine coreId))), v⟩

/-- The files of a virtual core that is online can be read. -/
def Readable (s : σ) (v : VirtualCoreId) : Prop :=
  (sys.read (sys.getTopologyPathFromVirtualCoreId v) s).isSome → (sys.coordinates s v).isSome

variable {sys} {s : σ} {v : VirtualCoreId}

theorem coordinates_virtualCoreId {vcc : VirtualCoreCoordinates}
    (h : sys.coordinates s v = some vcc) : vcc.virtualCoreId = v := by
  simp only [coordinates, Option.bind_eq_bind, Option.bind_eq_some_iff, Option.pure_def,
    Option.some.injEq] at h
  obtain ⟨_, -, _, -, _, -, hvcc⟩ := h
  rw [← hvcc]

theorem isSome_coordinates (h : sys.Readable s v) : (sys.coordinates s v).isSome ↔
    (sys.read (sys.getTopologyPathFromVirtualCoreId v) s).isSome := by
  refine ⟨fun hsome => ?_, h⟩
  obtain ⟨vcc, hvcc⟩ := Option.isSome_iff_exists.mp hsome
  simp only [coordinates, Option.bind_eq_bind, Option.bind_eq_some_iff] at hvcc
  obtain ⟨text, hread, -⟩ := hvcc
  rw [hread]
  rfl

theorem existsFile_run (fileName : String) :
    (sys.existsFile fileName).run s = .ok (sys.read fileName s).isSome s := rfl

theorem readId_run {fileName text : String} (h : sys.read fileName s = some text) :
    (sys.readId fileName).run s = .ok (uintOf (intOf (stringToInt (firstLine text)))) s := by
  simp [readId, readFirstLineFromFile, h]

theorem readId_throws {fileName : String} (h : sys.read fileName s = none) :
    ∃ e, (sys.readId fileName).run s = .error e s := by
  simp [readId, readFirstLineFromFile, h]

variable (sys s)

/-- The loop body adds what the files say, or throws if it cannot read them. -/
theorem scan_run (v : VirtualCoreId) (scan : Scan) :
    (sys.Readable s v ∧
      (sys.scan scan v).run s = .ok ((sys.coordinates s v).elim scan scan.push) s) ∨
    (¬ sys.Readable s v ∧ ∃ e, (sys.scan scan v).run s = .error e s) := by
  rw [System.scan, Readable, EStateM.run_bind, existsFile_run]
  cases hpath : sys.read (sys.getTopologyPathFromVirtualCoreId v) s with
  | none =>
    have hnone : sys.coordinates s v = none := by
      rw [coordinates, hpath]
      rfl
    rw [hnone]
    exact .inl ⟨fun h => h, rfl⟩
  | some text =>
    simp only [Option.isSome_some, ite_true, EStateM.run_bind, true_implies]
    cases hcpu : sys.read (sys.getTopologyPathFromVirtualCoreId v ++ "physical_package_id") s with
    | none =>
      obtain ⟨e, he⟩ := readId_throws hcpu
      rw [he]
      exact .inr ⟨by simp [coordinates, hcpu], e, rfl⟩
    | some cpuId =>
      rw [readId_run hcpu]
      cases hcore : sys.read (sys.getTopologyPathFromVirtualCoreId v ++ "core_id") s with
      | none =>
        obtain ⟨e, he⟩ := readId_throws hcore
        simp only [he]
        exact .inr ⟨by simp [coordinates, hcore], e, rfl⟩
      | some coreId =>
        have hsome : sys.coordinates s v = some ⟨uintOf (intOf (stringToInt (firstLine cpuId))),
            uintOf (intOf (stringToInt (firstLine coreId))), v⟩ := by
          simp [coordinates, hpath, hcpu, hcore]
        simp only [readId_run hcore, hsome]
        exact .inl ⟨rfl, rfl⟩

/-- The scan numbers the virtual cores that are online, or throws. -/
theorem foldlM_scan_run (ids : List VirtualCoreId) (scan : Scan) :
    ((∀ v ∈ ids, sys.Readable s v) ∧ (ids.foldlM sys.scan scan).run s =
        .ok ((ids.filterMap (sys.coordinates s)).foldl Scan.push scan) s) ∨
      (¬ (∀ v ∈ ids, sys.Readable s v) ∧ ∃ e, (ids.foldlM sys.scan scan).run s = .error e s) := by
  induction ids generalizing scan with
  | nil => exact .inl ⟨by simp, rfl⟩
  | cons v ids ih =>
    rw [List.forall_mem_cons]
    rcases scan_run sys s v scan with ⟨hv, hrun⟩ | ⟨hv, e, he⟩
    · rw [run_foldlM_cons hrun]
      refine (ih _).imp (fun hrest => ⟨⟨hv, hrest.1⟩, ?_⟩) fun hrest =>
        ⟨fun h => hrest.1 h.2, hrest.2⟩
      rw [hrest.2, List.filterMap_cons]
      cases sys.coordinates s v <;> rfl
    · refine .inr ⟨fun h => hv h.1, e, ?_⟩
      rw [List.foldlM_cons, EStateM.run_bind, he]

end System

namespace Topology

variable (sys : System σ) (getCommandOutput : String → Call σ (List String))

/-- The identifiers that the constructor scans between, `lowestCoreId` and `highestCoreId`. -/
def coreIds : Call σ (Int × Int) := do
  if ← sys.existsFile sys.coresListFile then
    let range ← sys.readFirstLineFromFile sys.coresListFile
    return dashedRangeToIntegers range
  let coresIdentifiers ← getCommandOutput ("ls " ++ sys.sysfsRootPrefix ++
    "/sys/devices/system/cpu/ | " ++ "grep cpu | sed  's/cpu//g' | sort -n")
  match coresIdentifiers.head?, coresIdentifiers.getLast? with
  | some front, some back => return (intOf (stringToInt front), intOf (stringToInt back))
  | _, _ => throw .undefined

/-- The identifiers from a lowest to a highest one. -/
def between (lowest highest : ℕ) : List VirtualCoreId := List.range' lowest (highest + 1 - lowest)

theorem mem_between {lowest highest id : ℕ} :
    id ∈ between lowest highest ↔ lowest ≤ id ∧ id ≤ highest := by
  rw [between, List.mem_range'_1]
  omega

/-- The constructor, or `none` for a loop that has no end: no `uint` is above the largest one, after
which the others follow. -/
def new : Call σ (Option Topology) := do
  let (lowestCoreId, highestCoreId) ← coreIds sys getCommandOutput
  let lowest := uintOf lowestCoreId
  let highest := uintOf highestCoreId
  let scan ← (between lowest highest).foldlM sys.scan Scan.start
  if highest = 2 ^ 32 - 1 then
    let _ ← (List.range lowest).foldlM sys.scan scan
    return none
  return some (buildCpuVector scan.coord)

section Constructor

variable {sys getCommandOutput} {s s' : σ} {lowest highest : Int}

/-- The virtual cores that the constructor finds. -/
def online (sys : System σ) (s : σ) (lowest highest : Int) : List VirtualCoreCoordinates :=
  (between (uintOf lowest) (uintOf highest)).filterMap (sys.coordinates s)

theorem coreIds_run {text : String} (h : sys.read sys.coresListFile s = some text) :
    (coreIds sys getCommandOutput).run s = .ok (dashedRangeToIntegers (firstLine text)) s := by
  simp [coreIds, System.existsFile, System.readFirstLineFromFile, h]

/-- The scan from the identifiers that were read. -/
theorem scan_start_run (hbounds : (coreIds sys getCommandOutput).run s = .ok (lowest, highest) s')
    (hfiles : ∀ v ∈ between (uintOf lowest) (uintOf highest), sys.Readable s' v) :
    (new sys getCommandOutput).run s = (do
      let scan := (online sys s' lowest highest).foldl Scan.push Scan.start
      if uintOf highest = 2 ^ 32 - 1 then
        let _ ← (List.range (uintOf lowest)).foldlM sys.scan scan
        return none
      return some (buildCpuVector scan.coord)).run s' := by
  rcases System.foldlM_scan_run sys s' (between (uintOf lowest) (uintOf highest))
      Scan.start with ⟨-, hrun⟩ | ⟨hthrows, -⟩
  · rw [new, EStateM.run_bind, hbounds]
    simp only
    rw [EStateM.run_bind, hrun]
    rfl
  · exact absurd hfiles hthrows

theorem new_run (hbounds : (coreIds sys getCommandOutput).run s = .ok (lowest, highest) s')
    (hfiles : ∀ v ∈ between (uintOf lowest) (uintOf highest), sys.Readable s' v)
    (hend : uintOf highest ≠ 2 ^ 32 - 1) : (new sys getCommandOutput).run s =
      .ok (some (buildCpuVector (Scan.numbered (online sys s' lowest highest)))) s' := by
  rw [scan_start_run hbounds hfiles]
  simp only [if_neg hend, (Scan.holds_foldl (online sys s' lowest highest)).coord]
  rfl

/-- The constructor returns what it built of the virtual cores that it found. -/
theorem ok_of_new {t : Topology} (h : (new sys getCommandOutput).run s = .ok (some t) s') :
    ∃ lowest highest, (coreIds sys getCommandOutput).run s = .ok (lowest, highest) s' ∧
      (∀ v ∈ between (uintOf lowest) (uintOf highest), sys.Readable s' v) ∧
      t = buildCpuVector (Scan.numbered (online sys s' lowest highest)) := by
  obtain ⟨⟨lowest, highest⟩, u, hbounds, hnew⟩ := ok_of_bind h
  obtain ⟨scan, w, hscan, hreturn⟩ := ok_of_bind hnew
  rcases System.foldlM_scan_run sys u (between (uintOf lowest) (uintOf highest))
      Scan.start with ⟨hfiles, hrun⟩ | ⟨-, e, he⟩
  · rw [hrun] at hscan
    cases hscan
    refine ⟨lowest, highest, ?_⟩
    split_ifs at hreturn
    · obtain ⟨_, _, -, hnone⟩ := ok_of_bind hreturn
      cases hnone
    · cases hreturn
      exact ⟨hbounds, hfiles, congrArg buildCpuVector (Scan.holds_foldl _).coord⟩
  · rw [he] at hscan
    cases hscan

theorem online_virtualCoreIds : (online sys s lowest highest).map (·.virtualCoreId) =
    (between (uintOf lowest) (uintOf highest)).filter fun v => (sys.coordinates s v).isSome := by
  rw [online, List.map_filterMap]
  induction between (uintOf lowest) (uintOf highest) with
  | nil => rfl
  | cons v ids ih =>
    rw [List.filterMap_cons, List.filter_cons, ih]
    cases hcoord : sys.coordinates s v with
    | none => rfl
    | some vcc => simp [System.coordinates_virtualCoreId hcoord]

/-- They are found in the order of their identifiers. -/
theorem online_increasing :
    ((online sys s lowest highest).map (·.virtualCoreId)).Pairwise (· < ·) := by
  rw [online_virtualCoreIds]
  exact (List.pairwise_lt_range' 1 Nat.one_pos).filter _

theorem mem_virtualCoreIds {coord : List VirtualCoreCoordinates} {v : VirtualCoreId} :
    v ∈ (buildCpuVector coord).virtualCores.map (·.virtualCoreId) ↔
      v ∈ coord.map (·.virtualCoreId) := by
  rw [buildCpuVector_eq, List.mem_map, List.mem_map]
  constructor
  · rintro ⟨u, hu, rfl⟩
    exact ⟨u.coordinates, mem_virtualCores.mp hu, rfl⟩
  · rintro ⟨vcc, hvcc, rfl⟩
    exact ⟨VirtualCore.of vcc, mem_virtualCores.mpr hvcc, rfl⟩

/-- What the topology has are the virtual cores that were scanned and are online. -/
theorem mem_new {t : Topology} {v : VirtualCoreId}
    (hbounds : (coreIds sys getCommandOutput).run s = .ok (lowest, highest) s')
    (h : (new sys getCommandOutput).run s = .ok (some t) s') :
    v ∈ t.virtualCores.map (·.virtualCoreId) ↔ v ∈ between (uintOf lowest) (uintOf highest) ∧
      (sys.read (sys.getTopologyPathFromVirtualCoreId v) s').isSome := by
  obtain ⟨low, high, hbounds', hfiles, rfl⟩ := ok_of_new h
  rw [hbounds] at hbounds'
  cases hbounds'
  rw [mem_virtualCoreIds, (Scan.numbered_spec _).virtualCoreIds, online_virtualCoreIds,
    List.mem_filter]
  exact and_congr_right fun hv => System.isSome_coordinates (hfiles v hv)

/-- The virtual cores have numbers of their own, which a `uint` holds. -/
theorem new_virtualCoreIds {t : Topology}
    (h : (new sys getCommandOutput).run s = .ok (some t) s') :
    (t.virtualCores.map (·.virtualCoreId)).Nodup ∧
      ∀ id ∈ t.virtualCores.map (·.virtualCoreId), id < 2 ^ 32 := by
  obtain ⟨lowest, highest, hbounds, hfiles, ht⟩ := ok_of_new h
  constructor
  · have hperm := (units_virtualCores_perm
      (Scan.numbered (online sys s' lowest highest))).map (·.virtualCoreId)
    rw [List.map_map] at hperm
    have hids : ((Scan.numbered (online sys s' lowest highest)).map (·.virtualCoreId)).Nodup := by
      rw [(Scan.numbered_spec _).virtualCoreIds]
      exact online_increasing.imp Nat.ne_of_lt
    rw [ht, buildCpuVector_eq]
    exact hperm.nodup_iff.mpr hids
  · intro id hid
    have hmem := ((mem_new hbounds h).mp hid).1
    exact Nat.lt_of_le_of_lt (mem_between.mp hmem).2 (uintOf_lt highest)

/-- The topology that the constructor builds has the virtual cores that it found, and the number of
a physical core is that of its first virtual core's pair. -/
theorem new_numbers {t : Topology} (h : (new sys getCommandOutput).run s = .ok (some t) s') :
    ∃ lowest highest coord, (coreIds sys getCommandOutput).run s = .ok (lowest, highest) s' ∧
      ((online sys s' lowest highest).map (·.virtualCoreId)).Pairwise (· < ·) ∧
      Scan.Numbered (online sys s' lowest highest) coord ∧ Represents coord t := by
  obtain ⟨lowest, highest, hbounds, -, rfl⟩ := ok_of_new h
  have hspec := Scan.numbered_spec (online sys s' lowest highest)
  refine ⟨lowest, highest, _, hbounds, online_increasing, hspec,
    buildCpuVector_represents ?_ hspec.same_cpu⟩
  rw [hspec.virtualCoreIds]
  exact online_increasing.imp Nat.ne_of_lt

end Constructor

/-- A machine whose list of cores has a text, and whose other files each show a zero. -/
def listing (text : String) : System Unit where
  sysfsRootPrefix := ""
  read fileName _ := some (if fileName = "/sys/devices/system/cpu/possible" then text else "0\n")
  write _ _ s := (false, s)
  readTsc _ _ := none
  clockTicksPerSecond := 100
  maximizeUtilization _ := return ()
  resetUtilization _ := return ()

theorem listing_coreIds (text : String) : (listing text).read (listing text).coresListFile () =
    some text := by
  have hname : (listing text).coresListFile = "/sys/devices/system/cpu/possible" := rfl
  rw [hname]
  exact congrArg some (if_pos rfl)

theorem listing_readable (text : String) (v : VirtualCoreId) : (listing text).Readable () v :=
  fun _ => rfl

/-- Two virtual cores of one physical core. -/
theorem new_numbers_listing : ∃ lowest highest coord,
    (coreIds (listing "0-1\n") fun _ => return []).run () = .ok (lowest, highest) () ∧
      Scan.Numbered (online (listing "0-1\n") () lowest highest) coord := by
  have hrange : dashedRangeToIntegers (firstLine "0-1\n") = (0, 1) := by decide +kernel
  have hbounds : (coreIds (listing "0-1\n") fun _ => return []).run () = .ok (0, 1) () := by
    rw [coreIds_run (listing_coreIds "0-1\n"), hrange]
  have hrun := new_run hbounds (fun v _ => listing_readable _ v) (by decide)
  obtain ⟨lowest, highest, coord, hbounds, -, hnumbered, -⟩ := new_numbers hrun
  exact ⟨lowest, highest, coord, hbounds, hnumbered⟩

end Topology

end Mammut.Topology
