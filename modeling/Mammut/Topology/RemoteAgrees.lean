import Mammut.Topology.Codec
import Mammut.Topology.RemoteUnits
import Mammut.Topology.ServiceEnds

/-! What a client's units return is what the server's do: each call of a client does on the server
what the same call on the server's unit does, over any run of calls. -/

set_option linter.dupNamespace false

namespace Mammut.Topology

open Kit.Lockstep Kit.Programs Service

variable {σ α β : Type}

/-! ### The requests on the server -/

/-- The names of the requests. -/
def requestNames : List String :=
  ["GetTopology", "SetUtilization", "GetCpuVendorId", "GetCpuFamily", "GetCpuModel",
    "GetAbsoluteTicks", "HasFlag", "IsHotPluggable", "IsHotPlugged", "HotPlug", "HotUnplug",
    "GetIdleTime", "ResetIdleTime", "IdleLevelsGet", "IdleLevelGetName", "IdleLevelGetDesc",
    "IdleLevelIsEnableable", "IdleLevelIsEnabled", "IdleLevelEnable", "IdleLevelDisable",
    "IdleLevelGetExitLatency", "IdleLevelGetConsumedPower", "IdleLevelGetAbsTime",
    "IdleLevelGetTime", "IdleLevelResetTime", "IdleLevelGetAbsCount", "IdleLevelGetCount",
    "IdleLevelResetCount"]

theorem moduleName_request {τ : Type} (r : Request) (s : τ) :
    (getModuleNameFromMessageId (schema.requestName r)).run s = .ok "topology" s := by
  have hplain : ∀ name ∈ requestNames, '.' ∉ name.toList ∧ name.toList ≠ [] := by decide +kernel
  have hmem : r.name ∈ requestNames := by
    cases r with
    | idleLevel request _ _ =>
      cases request <;> simp [Request.name, LevelRequest.name, requestNames]
    | _ => simp [Request.name, requestNames]
  have hsplit := Topology.split_messageName (hplain r.name hmem).1 (hplain r.name hmem).2
  simp [getModuleNameFromMessageId, schema, hsplit]

section Follows

variable {S : Type} {sys : System σ} {proto : Protobuf Request Response}
  {moduleDispatcher : String → Option (Module (TopologyLinux × σ))} {f : S → TopologyLinux × σ}
  {s : S}

/-- A request that the server answers with what it makes of `call`. -/
theorem request_follows (hactivated : moduleDispatcher "topology" = some (processMessage sys proto))
    {r : Request} {expected : Expected Response α} {call : Call S β} (response : β → Response)
    (read : β → α) {γ : Type} (decode : α → γ)
    (hserve : Follows f s (serve sys r) (do return response (← call)))
    (hexpected : ∀ b, expected.name = schema.responseName (response b))
    (hnonempty : expected.name ≠ "") (hread : ∀ b, expected.read (response b) = some (read b))
    (hends : Orderly (· = s) call) (hasks : proto.Asks schema r)
    (hcarries : ∀ b t, call.run s = .ok b t → proto.Carries schema (response b)) :
    Follows (fun s => ⟨f s, true⟩) s
      (do return decode (← request proto moduleDispatcher r expected))
      (do return decode (read (← call))) := by
  have hmodule : Follows f s (processMessage sys proto (schema.requestName r)
      (proto.serializeRequest r))
      (do return setMessageFromData proto schema (response (← call))) := by
    have hparse : proto.parseRequest (schema.requestName r) (proto.serializeRequest r) = some r :=
      hasks
    unfold Follows at hserve ⊢
    rw [processMessage, hparse]
    rw [EStateM.run_bind] at hserve ⊢
    rw [EStateM.run_bind, hserve]
    cases call.run s <;> rfl
  have hfollows := remoteCall_follows (moduleName_request r) hactivated hmodule hexpected hnonempty
    hread hends hcarries
  have hbind := hfollows.bind fun a t _ => follows_pure (a := decode a)
  simpa only [request, bind_assoc, pure_bind] using hbind

theorem onVirtualCore_run {id : UInt32} {vc : VirtualCore} {s : TopologyLinux × σ}
    (h : s.1.topology.getVirtualCore id.toNat = some vc)
    (k : VirtualCoreId → Call (TopologyLinux × σ) α) :
    (onVirtualCore id k).run s = (k vc.virtualCoreId).run s := by
  have hget : (get : Call (TopologyLinux × σ) _).run s = .ok s s := rfl
  rw [onVirtualCore, EStateM.run_bind, hget]
  simp only [h]

theorem onCpu_run {id : UInt32} {c : Cpu} {s : TopologyLinux × σ}
    (h : s.1.topology.getCpu id.toNat = some c) (k : Cpu → Call (TopologyLinux × σ) α) :
    (onCpu id k).run s = (k c).run s := by
  have hget : (get : Call (TopologyLinux × σ) _).run s = .ok s s := rfl
  rw [onCpu, EStateM.run_bind, hget]
  simp only [h]

end Follows

/-! ### The level that a request names -/

section Levels

variable {levelId : UInt32} {v : VirtualCoreId}
  {processing : VirtualCoreId → ℕ → IdleLevel → Call (TopologyLinux × σ) α}

/-- What the loop of a request does with a level. -/
def visit (levelId : UInt32)
    (processing : VirtualCoreId → ℕ → IdleLevel → Call (TopologyLinux × σ) α) (v : VirtualCoreId)
    (field : Option α) (level : IdleLevel × ℕ) : Call (TopologyLinux × σ) (Option α) :=
  if level.1.levelId = levelId then some <$> processing v level.2 level.1 else pure field

/-- Levels with other identifiers are passed over. -/
theorem visit_others {levels : List (IdleLevel × ℕ)}
    (h : ∀ level ∈ levels, level.1.levelId ≠ levelId) (field : Option α) :
    levels.foldlM (visit levelId processing v) field = pure field := by
  induction levels with
  | nil => rfl
  | cons level levels ih =>
    rw [List.foldlM_cons, visit, if_neg (h level List.mem_cons_self), pure_bind]
    exact ih fun other hother => h other (List.mem_cons_of_mem _ hother)

/-- With distinct identifiers, the request is about the one level that has the identifier. -/
theorem onLevels_run {s : TopologyLinux × σ} {i : ℕ} {level : IdleLevel}
    (hnodup : ((s.1.idleLevels v).map (·.levelId)).Nodup)
    (hlevel : (s.1.idleLevels v)[i]? = some level) :
    (onLevels level.levelId processing v).run s =
      (do return some (← processing v i level) : Call (TopologyLinux × σ) (Option α)).run s := by
  obtain ⟨hi, hget⟩ := List.getElem?_eq_some_iff.mp hlevel
  obtain ⟨before, hbefore⟩ : ∃ before, before = (s.1.idleLevels v).take i := ⟨_, rfl⟩
  obtain ⟨after, hafter⟩ : ∃ after, after = (s.1.idleLevels v).drop (i + 1) := ⟨_, rfl⟩
  have hsplit : s.1.idleLevels v = before ++ level :: after := by
    rw [hbefore, hafter, ← hget, List.getElem_cons_drop, List.take_append_drop]
  have hlength : before.length = i := by rw [hbefore, List.length_take_of_le hi.le]
  rw [hsplit, List.map_append, List.map_cons, List.nodup_append, List.nodup_cons] at hnodup
  obtain ⟨-, ⟨hnotAfter, -⟩, hdisjoint⟩ := hnodup
  have hothersBefore : ∀ other ∈ before.zipIdx, other.1.levelId ≠ level.levelId :=
    fun other hother =>
      hdisjoint _ (List.mem_map_of_mem (List.fst_mem_of_mem_zipIdx hother)) _ List.mem_cons_self
  have hothersAfter : ∀ other ∈ after.zipIdx (i + 1), other.1.levelId ≠ level.levelId :=
    fun other hother heq =>
      hnotAfter (heq ▸ List.mem_map_of_mem (List.fst_mem_of_mem_zipIdx hother))
  have hne : before ++ level :: after ≠ [] := by simp
  have hstate : (get : Call (TopologyLinux × σ) _).run s = .ok s s := rfl
  rw [onLevels, EStateM.run_bind, hstate]
  simp only [hsplit, if_neg hne]
  show ((before ++ level :: after).zipIdx.foldlM (visit level.levelId processing v) none).run s = _
  rw [List.zipIdx_append, List.foldlM_append, visit_others hothersBefore, pure_bind,
    List.zipIdx_cons, List.foldlM_cons, hlength, Nat.zero_add]
  simp only [visit_others hothersAfter, bind_pure, visit, if_pos, map_eq_pure_bind]

end Levels

/-! ### One request -/

section Answers

variable {sys : System σ} {proto : Protobuf Request Response}
  {moduleDispatcher : String → Option (Module (TopologyLinux × σ))} {s : TopologyLinux × σ}

/-- The request reaches the server, which answers it, and protobuf carries the answer. -/
structure Answered (sys : System σ) (proto : Protobuf Request Response) (s : TopologyLinux × σ)
    (r : Request) : Prop where
  asks : proto.Asks schema r
  ends : Orderly (· = s) (serve sys r)
  carries : ∀ res t, (serve sys r).run s = .ok res t → proto.Carries schema res

theorem answered_follows
    (hactivated : moduleDispatcher "topology" = some (processMessage sys proto)) {r : Request}
    {expected : Expected Response α} {call : Call (TopologyLinux × σ) β} (response : β → Response)
    (read : β → α) {γ : Type} (decode : α → γ) (h : Answered sys proto s r)
    (hserve : (serve sys r).run s =
      (do return response (← call) : Call (TopologyLinux × σ) Response).run s)
    (hexpected : ∀ b, expected.name = schema.responseName (response b))
    (hnonempty : expected.name ≠ "") (hread : ∀ b, expected.read (response b) = some (read b)) :
    Follows (fun s => ⟨s, true⟩) s
      (do return decode (← request proto moduleDispatcher r expected))
      (do return decode (read (← call))) := by
  obtain ⟨hasks, hends, hcarries⟩ := h
  have hfollows : Follows id s (serve sys r) (do return response (← call)) := by
    rw [Follows, id, hserve]
    cases (do return response (← call) : Call (TopologyLinux × σ) Response).run s <;> rfl
  have hcall : Orderly (· = s) call := by
    rw [orderly_at_iff, hserve, ← orderly_at_iff] at hends
    exact orderly_at_map.mp hends
  refine request_follows hactivated response read decode hfollows hexpected hnonempty hread hcall
    hasks ?_
  intro b t hrun
  exact hcarries (response b) t (by rw [hserve, EStateM.run_bind, hrun]; rfl)

/-- A request about a virtual core, answered with what the server makes of a call on it. -/
theorem virtualCore_serve {v : VirtualCore} (hfits : v.virtualCoreId < 2 ^ 32)
    (hv : s.1.topology.getVirtualCore v.virtualCoreId = some v)
    (k : VirtualCoreId → Call (TopologyLinux × σ) Response) :
    (onVirtualCore (UInt32.ofNat v.virtualCoreId) k).run s = (k v.virtualCoreId).run s := by
  have hid : (UInt32.ofNat v.virtualCoreId).toNat = v.virtualCoreId :=
    UInt32.toNat_ofNat_of_lt' hfits
  exact onVirtualCore_run (by rw [hid]; exact hv) k

theorem cpu_serve {c : Cpu} (hfits : c.cpuId < 2 ^ 32) (hc : s.1.topology.getCpu c.cpuId = some c)
    (k : Cpu → Call (TopologyLinux × σ) Response) :
    (onCpu (UInt32.ofNat c.cpuId) k).run s = (k c).run s := by
  have hid : (UInt32.ofNat c.cpuId).toNat = c.cpuId := UInt32.toNat_ofNat_of_lt' hfits
  exact onCpu_run (by rw [hid]; exact hc) k

theorem unitCores_of {u : LoadUnit} (hfits : u.id < 2 ^ 32) (hu : u.Of s.1.topology) :
    unitCores s.1.topology u.unitType (UInt32.ofNat u.id) =
      some (u.virtualCores s.1.topology) := by
  have hid : (UInt32.ofNat u.id).toNat = u.id := UInt32.toNat_ofNat_of_lt' hfits
  cases u with
  | topology => rfl
  | cpu c =>
    have hc : s.1.topology.getCpu (UInt32.ofNat c.cpuId).toNat = some c := (congrArg _ hid).trans hu
    simp only [unitCores, LoadUnit.unitType, LoadUnit.id, hc]
    rfl
  | physicalCore p =>
    have hp : s.1.topology.getPhysicalCore (UInt32.ofNat p.physicalCoreId).toNat = some p :=
      (congrArg _ hid).trans hu
    simp only [unitCores, LoadUnit.unitType, LoadUnit.id, hp]
    rfl
  | virtualCore v =>
    have hv : s.1.topology.getVirtualCore (UInt32.ofNat v.virtualCoreId).toNat = some v :=
      (congrArg _ hid).trans hu
    simp only [unitCores, LoadUnit.unitType, LoadUnit.id, hv]
    rfl

end Answers

/-! ### The units of the topology -/

/-- The topology has the virtual core, whose identifier fits the field of a request. -/
def Topology.Has (t : Topology) (v : VirtualCore) : Prop :=
  v.virtualCoreId < 2 ^ 32 ∧ t.getVirtualCore v.virtualCoreId = some v

namespace PlugCall

/-- The responses to the requests of the call. -/
def responses : PlugCall → List Response
  | isHotPluggable | isHotPlugged => [.resultBool (some true), .resultBool (some false)]
  | hotPlug | hotUnplug => [.resultVoid]

/-- Protobuf carries the requests about some virtual cores, and the responses to them. -/
def Carried (proto : Protobuf Request Response) (call : PlugCall) (vs : List VirtualCore) : Prop :=
  (∀ v ∈ vs, proto.Asks schema (call.request v.virtualCoreId)) ∧
    ∀ res ∈ call.responses, proto.Carries schema res

end PlugCall

namespace ClientCall

variable (levelIds : VirtualCoreId → List UInt32)

/-- The request that the call sends; none when its virtual cores do that. -/
def request : ClientCall → Option Request
  | setUtilization type u => some (.setUtilization type u.unitType (UInt32.ofNat u.id))
  | getVendorId c => some (.getCpuVendorId (UInt32.ofNat c.cpuId))
  | getFamily c => some (.getCpuFamily (UInt32.ofNat c.cpuId))
  | getModel c => some (.getCpuModel (UInt32.ofNat c.cpuId))
  | hasFlag v flagName => some (.hasFlag (UInt32.ofNat v.virtualCoreId) flagName)
  | getAbsoluteTicks v => some (.getAbsoluteTicks (UInt32.ofNat v.virtualCoreId))
  | getIdleTime v => some (.getIdleTime (UInt32.ofNat v.virtualCoreId))
  | resetIdleTime v => some (.resetIdleTime (UInt32.ofNat v.virtualCoreId))
  | plugCore call v => some (call.request v.virtualCoreId)
  | plugUnit _ _ => none
  | level r v i => (levelIds v.virtualCoreId)[i]?.map (.idleLevel r (UInt32.ofNat v.virtualCoreId))

/-- The unit of the call is one of the topology. -/
def Of (t : Topology) : ClientCall → Prop
  | setUtilization _ u => u.id < 2 ^ 32 ∧ u.Of t
  | getVendorId c | getFamily c | getModel c => c.cpuId < 2 ^ 32 ∧ t.getCpu c.cpuId = some c
  | hasFlag v _ | getAbsoluteTicks v | getIdleTime v | resetIdleTime v | plugCore _ v
  | level _ v _ => t.Has v
  | plugUnit _ u => ∀ v ∈ u.virtualCores, t.Has v

/-- When a call on the client's unit does what it does on the server's: the unit is one of the
server's, and the requests are answered. -/
def Agrees (sys : System σ) (proto : Protobuf Request Response) (s : TopologyLinux × σ)
    (c : ClientCall) : Prop :=
  c.Of s.1.topology ∧ match c with
    | plugUnit call u => call.Carried proto u.virtualCores
    | c => ∀ r ∈ c.request levelIds, Answered sys proto s r

end ClientCall

section Plug

variable {sys : System σ} {proto : Protobuf Request Response}
  {moduleDispatcher : String → Option (Module (TopologyLinux × σ))} {t : TopologyLinux}

namespace PluggableUnit

variable {τ : Type} {f : σ → τ} {u : PluggableUnit}

theorem all_follows {query : VirtualCoreId → Call τ Bool} {query' : VirtualCoreId → Call σ Bool}
    (h : ∀ v ∈ u.virtualCores, ∀ s, Follows f s (query v.virtualCoreId) (query' v.virtualCoreId))
    (s : σ) : Follows f s (u.all query) (u.all query') := by
  cases u with
  | physicalCore p => exact follows_allM h s
  | cpu cpuId ps =>
    rw [cpu_virtualCores] at h
    exact follows_allM (fun p hp => follows_allM fun v hv =>
      h v (List.mem_flatMap.mpr ⟨p, hp, hv⟩)) s

theorem each_follows {command : VirtualCoreId → Call τ Unit}
    {command' : VirtualCoreId → Call σ Unit}
    (h : ∀ v ∈ u.virtualCores,
      ∀ s, Follows f s (command v.virtualCoreId) (command' v.virtualCoreId))
    (s : σ) : Follows f s (u.each command) (u.each command') := by
  cases u with
  | physicalCore p => exact follows_forM h s
  | cpu cpuId ps =>
    rw [cpu_virtualCores] at h
    exact follows_forM (fun p hp => follows_forM fun v hv =>
      h v (List.mem_flatMap.mpr ⟨p, hp, hv⟩)) s

end PluggableUnit

/-- A request about a virtual core that the server answers with what it makes of a call on the
files of the core. -/
theorem core_follows {v : VirtualCore} (hv : t.topology.Has v)
    {k : VirtualCoreId → Call σ β} {response : β → Response} (s : σ) :
    Follows (fun u => (t, u)) s
      (onVirtualCore (UInt32.ofNat v.virtualCoreId) fun v => do return response (← onSnd (k v)))
      (do return response (← k v.virtualCoreId)) := by
  rw [Follows, virtualCore_serve (s := (t, s)) hv.1 hv.2, EStateM.run_bind, EStateM.run_bind,
    run_onSnd]
  cases (k v.virtualCoreId).run s <;> rfl

theorem query_follows (hactivated : moduleDispatcher "topology" = some (processMessage sys proto))
    {v : VirtualCore} (hv : t.topology.Has v) {r : Request} {k : VirtualCoreId → Call σ Bool}
    (hserve : serve sys r = onVirtualCore (UInt32.ofNat v.virtualCoreId) fun v => do
      return .resultBool (some (← onSnd (k v))))
    (hends : EndsOrderly (k v.virtualCoreId)) (hasks : proto.Asks schema r)
    (hcarries : ∀ b, proto.Carries schema (.resultBool (some b))) (s : σ) :
    Follows (fun u => ⟨(t, u), true⟩) s (request proto moduleDispatcher r Expect.resultBool)
      (k v.virtualCoreId) := by
  have hanswer : Follows (fun u => (t, u)) s (serve sys r)
      (do return .resultBool (some (← k v.virtualCoreId))) := by
    rw [hserve]
    exact core_follows hv s
  have hfollows := request_follows hactivated (fun b => .resultBool (some b)) id id hanswer
    (fun _ => rfl) (by decide +kernel : Expect.resultBool.name ≠ "") (fun _ => rfl)
    (orderly_mono hends fun _ _ => trivial) hasks fun b _ _ => hcarries b
  simpa only [id, bind_pure] using hfollows

theorem command_follows (hactivated : moduleDispatcher "topology" = some (processMessage sys proto))
    {v : VirtualCore} (hv : t.topology.Has v) {r : Request} {k : VirtualCoreId → Call σ Unit}
    (hserve : serve sys r = onVirtualCore (UInt32.ofNat v.virtualCoreId) fun v => do
      onSnd (k v)
      return .resultVoid)
    (hends : EndsOrderly (k v.virtualCoreId)) (hasks : proto.Asks schema r)
    (hcarries : proto.Carries schema .resultVoid) (s : σ) :
    Follows (fun u => ⟨(t, u), true⟩) s (request proto moduleDispatcher r Expect.resultVoid)
      (k v.virtualCoreId) := by
  have hanswer : Follows (fun u => (t, u)) s (serve sys r) (do
      k v.virtualCoreId
      return .resultVoid) := by
    rw [hserve]
    exact core_follows hv s
  have hfollows := request_follows hactivated (fun _ => .resultVoid) id id hanswer (fun _ => rfl)
    (by decide +kernel : Expect.resultVoid.name ≠ "") (fun _ => rfl)
    (orderly_mono hends fun _ _ => trivial) hasks fun _ _ _ => hcarries
  simpa only [id, bind_pure] using hfollows

namespace PlugCall

theorem remoteUnit_follows
    (hactivated : moduleDispatcher "topology" = some (processMessage sys proto)) {call : PlugCall}
    {u : PluggableUnit} (hunit : ∀ v ∈ u.virtualCores, t.topology.Has v)
    (h : call.Carried proto u.virtualCores) (s : σ) :
    Follows (fun u => ⟨(t, u), true⟩) s (call.remoteUnit proto moduleDispatcher u)
      (call.onUnit sys u) := by
  obtain ⟨hasks, hcarries⟩ := h
  have hflags (hflags : call.responses = [.resultBool (some true), .resultBool (some false)])
      (b : Bool) : proto.Carries schema (.resultBool (some b)) :=
    hcarries _ (by rw [hflags]; cases b <;> simp)
  cases call with
  | isHotPluggable =>
    have hall : u.isHotPluggable sys = u.all (VirtualCoreLinux.isHotPluggable sys) := by
      cases u <;> rfl
    rw [remoteUnit, onUnit, hall]
    exact (PluggableUnit.all_follows (fun v hv => query_follows hactivated (hunit v hv) rfl
      (existsFile_ends _) (hasks v hv) (hflags rfl)) s).bind fun _ _ _ => follows_pure
  | isHotPlugged =>
    have hall : u.isHotPlugged sys = u.all (VirtualCoreLinux.isHotPlugged sys) := by
      cases u <;> rfl
    rw [remoteUnit, onUnit, hall]
    exact (PluggableUnit.all_follows (fun v hv => query_follows hactivated (hunit v hv) rfl
      (isHotPlugged_ends _) (hasks v hv) (hflags rfl)) s).bind fun _ _ _ => follows_pure
  | hotPlug =>
    have heach : u.hotPlug sys = u.each (VirtualCoreLinux.hotPlug sys) := by cases u <;> rfl
    rw [remoteUnit, onUnit, heach]
    exact (PluggableUnit.each_follows (fun v hv => command_follows hactivated (hunit v hv) rfl
      (hotPlug_ends _) (hasks v hv) (hcarries _ List.mem_cons_self)) s).bind
        fun _ _ _ => follows_pure
  | hotUnplug =>
    have heach : u.hotUnplug sys = u.each (VirtualCoreLinux.hotUnplug sys) := by cases u <;> rfl
    rw [remoteUnit, onUnit, heach]
    exact (PluggableUnit.each_follows (fun v hv => command_follows hactivated (hunit v hv) rfl
      (hotUnplug_ends _) (hasks v hv) (hcarries _ List.mem_cons_self)) s).bind
        fun _ _ _ => follows_pure

end PlugCall

end Plug

/-! ### The calls of a client -/

namespace ClientCall

variable {sys : System σ} {proto : Protobuf Request Response}
  {moduleDispatcher : String → Option (Module (TopologyLinux × σ))}
  {levelIds : VirtualCoreId → List UInt32} {s : TopologyLinux × σ}

/-- What the client has asked for when it was built: the identifiers of the idle levels, which are
distinct on the server. -/
def Built (t : Topology) (levelIds : VirtualCoreId → List UInt32) (u : TopologyLinux) : Prop :=
  u.topology = t ∧ ∀ v, (u.idleLevels v).map (·.levelId) = levelIds v

/-- A request about a level, answered with what the server makes of a call on it. -/
theorem level_follows
    (hactivated : moduleDispatcher "topology" = some (processMessage sys proto)) {v : VirtualCore}
    (hv : s.1.topology.Has v) (hnodup : ((s.1.idleLevels v.virtualCoreId).map (·.levelId)).Nodup)
    {i : ℕ} {level : IdleLevel} (hlevel : (s.1.idleLevels v.virtualCoreId)[i]? = some level)
    {r : LevelRequest} {expected : Expected Response α} (response : Option β → Response)
    {processing : VirtualCoreId → ℕ → IdleLevel → Call (TopologyLinux × σ) β} {read : β → α}
    (decode : α → ClientValue)
    (h : Answered sys proto s (.idleLevel r (UInt32.ofNat v.virtualCoreId) level.levelId))
    (hserve : serveLevel sys level.levelId v.virtualCoreId r = do
      return response (← onLevels level.levelId processing v.virtualCoreId))
    (hexpected : ∀ b, expected.name = schema.responseName (response (some b)))
    (hnonempty : expected.name ≠ "")
    (hread : ∀ b, expected.read (response (some b)) = some (read b)) :
    Follows (fun s => ⟨s, true⟩) s
      (do return decode (← VirtualCoreIdleLevelRemote.ask proto moduleDispatcher v.virtualCoreId
        level.levelId r expected))
      (do return decode (read (← processing v.virtualCoreId i level))) := by
  refine answered_follows hactivated (fun b => response (some b)) read decode h ?_ hexpected
    hnonempty hread
  rw [serve, virtualCore_serve hv.1 hv.2, hserve, EStateM.run_bind, onLevels_run hnodup hlevel,
    EStateM.run_bind, EStateM.run_bind]
  cases (processing v.virtualCoreId i level).run s <;> rfl

theorem callLevel_follows
    (hactivated : moduleDispatcher "topology" = some (processMessage sys proto)) {v : VirtualCore}
    (hv : s.1.topology.Has v) (hnodup : ((s.1.idleLevels v.virtualCoreId).map (·.levelId)).Nodup)
    {i : ℕ} {level : IdleLevel} (hlevel : (s.1.idleLevels v.virtualCoreId)[i]? = some level)
    {r : LevelRequest}
    (h : Answered sys proto s (.idleLevel r (UInt32.ofNat v.virtualCoreId) level.levelId)) :
    Follows (fun s => ⟨s, true⟩) s
      (VirtualCoreIdleLevelRemote.call proto moduleDispatcher v.virtualCoreId level.levelId r)
      (TopologyLinux.callLevel sys v.virtualCoreId i level r) := by
  have hvoid : Expect.resultVoid.name ≠ "" := by decide +kernel
  have hbool : Expect.resultBool.name ≠ "" := by decide +kernel
  have htime : Expect.levelTime.name ≠ "" := by decide +kernel
  have hcount : Expect.levelCount.name ≠ "" := by decide +kernel
  cases r with
  | getName =>
    exact level_follows hactivated hv hnodup hlevel _ .text h rfl (fun _ => rfl) (by decide +kernel)
      fun _ => rfl
  | getDesc =>
    exact level_follows hactivated hv hnodup hlevel _ .text h rfl (fun _ => rfl) (by decide +kernel)
      fun _ => rfl
  | isEnableable =>
    exact level_follows hactivated hv hnodup hlevel _ .flag h rfl (fun _ => rfl) hbool fun _ => rfl
  | isEnabled =>
    exact level_follows hactivated hv hnodup hlevel _ .flag h rfl (fun _ => rfl) hbool fun _ => rfl
  | enable =>
    exact level_follows hactivated hv hnodup hlevel (fun _ => .resultVoid) (fun _ => .unit) h rfl
      (fun _ => rfl) hvoid fun _ => rfl
  | disable =>
    exact level_follows hactivated hv hnodup hlevel (fun _ => .resultVoid) (fun _ => .unit) h rfl
      (fun _ => rfl) hvoid fun _ => rfl
  | getExitLatency =>
    exact level_follows hactivated hv hnodup hlevel _ .number h rfl (fun _ => rfl)
      (by decide +kernel) fun _ => rfl
  | getConsumedPower =>
    exact level_follows hactivated hv hnodup hlevel _ .number h rfl (fun _ => rfl)
      (by decide +kernel) fun _ => rfl
  | getAbsTime =>
    exact level_follows hactivated hv hnodup hlevel _ .number h rfl (fun _ => rfl) htime
      fun _ => rfl
  | getTime =>
    exact level_follows hactivated hv hnodup hlevel _ .number h rfl (fun _ => rfl) htime
      fun _ => rfl
  | resetTime =>
    exact level_follows hactivated hv hnodup hlevel (fun _ => .resultVoid) (fun _ => .unit) h rfl
      (fun _ => rfl) hvoid fun _ => rfl
  | getAbsCount =>
    exact level_follows hactivated hv hnodup hlevel _ .number h rfl (fun _ => rfl) hcount
      fun _ => rfl
  | getCount =>
    exact level_follows hactivated hv hnodup hlevel _ .number h rfl (fun _ => rfl) hcount
      fun _ => rfl
  | resetCount =>
    exact level_follows hactivated hv hnodup hlevel (fun _ => .resultVoid) (fun _ => .unit) h rfl
      (fun _ => rfl) hvoid fun _ => rfl

/-- A request about a virtual core, answered with what the server makes of a call on it. -/
theorem onVirtualCore_follows
    (hactivated : moduleDispatcher "topology" = some (processMessage sys proto)) {v : VirtualCore}
    (hv : s.1.topology.Has v) {r : Request} {expected : Expected Response α}
    (k : VirtualCoreId → Call (TopologyLinux × σ) β) (response : β → Response) (read : β → α)
    (decode : α → ClientValue) (h : Answered sys proto s r)
    (hserve : serve sys r = onVirtualCore (UInt32.ofNat v.virtualCoreId) fun v => do
      return response (← k v))
    (hexpected : ∀ b, expected.name = schema.responseName (response b))
    (hnonempty : expected.name ≠ "") (hread : ∀ b, expected.read (response b) = some (read b)) :
    Follows (fun s => ⟨s, true⟩) s
      (do return decode (← Topology.request proto moduleDispatcher r expected))
      (do return decode (read (← k v.virtualCoreId))) :=
  answered_follows hactivated response read decode h
    (by rw [hserve, virtualCore_serve hv.1 hv.2]) hexpected hnonempty hread

theorem onCpu_follows
    (hactivated : moduleDispatcher "topology" = some (processMessage sys proto)) {c : Cpu}
    (hc : c.cpuId < 2 ^ 32 ∧ s.1.topology.getCpu c.cpuId = some c) {r : Request}
    {expected : Expected Response α} {call : Call (TopologyLinux × σ) α} (response : α → Response)
    (decode : α → ClientValue) (h : Answered sys proto s r)
    (hserve : serve sys r = onCpu (UInt32.ofNat c.cpuId) fun _ => do return response (← call))
    (hexpected : ∀ a, expected.name = schema.responseName (response a))
    (hnonempty : expected.name ≠ "") (hread : ∀ a, expected.read (response a) = some a) :
    Follows (fun s => ⟨s, true⟩) s
      (do return decode (← Topology.request proto moduleDispatcher r expected))
      (do return decode (← call)) :=
  answered_follows hactivated response id decode h (by rw [hserve, cpu_serve hc.1 hc.2]) hexpected
    hnonempty hread

/-- The step lemma of the calls of a client. -/
theorem remote_follows
    (hactivated : moduleDispatcher "topology" = some (processMessage sys proto)) {t : Topology}
    (hbuilt : Built t levelIds s.1) (hnodup : ∀ v, (levelIds v).Nodup) (c : ClientCall)
    (h : c.Agrees levelIds sys proto s) :
    Follows (fun s => ⟨s, true⟩) s (c.remote proto moduleDispatcher levelIds) (c.onServer sys) := by
  obtain ⟨hunit, h⟩ := h
  have hvoid : Expect.resultVoid.name ≠ "" := by decide +kernel
  have hbool : Expect.resultBool.name ≠ "" := by decide +kernel
  have hget : (get : Call (TopologyLinux × σ) _).run s = .ok s s := rfl
  cases c with
  | setUtilization type u =>
    have hcores := unitCores_of hunit.1 hunit.2
    have hfollows (command : Call (TopologyLinux × σ) Unit)
        (hserve : (serve sys (.setUtilization type u.unitType (UInt32.ofNat u.id))).run s =
          (do return (fun _ => Response.resultVoid) (← command) :
            Call (TopologyLinux × σ) _).run s) :=
      answered_follows hactivated (fun _ => .resultVoid) id (fun _ => ClientValue.unit) (h _ rfl)
        hserve (fun _ => rfl) hvoid fun _ => rfl
    cases type with
    | MAXIMIZE =>
      apply (hfollows (onSnd (maximizeUtilization sys (u.virtualCores s.1.topology))) ?_).congr
      · rw [onServer, EStateM.run_bind, hget]
      · rw [serve, EStateM.run_bind, hget]
        simp only [hcores]
    | RESET =>
      apply (hfollows (onSnd (resetUtilization sys (u.virtualCores s.1.topology))) ?_).congr
      · rw [onServer, EStateM.run_bind, hget]
      · rw [serve, EStateM.run_bind, hget]
        simp only [hcores]
  | getVendorId c =>
    exact onCpu_follows hactivated hunit _ .text (h _ rfl) rfl (fun _ => rfl) (by decide +kernel)
      fun _ => rfl
  | getFamily c =>
    exact onCpu_follows hactivated hunit _ .text (h _ rfl) rfl (fun _ => rfl) (by decide +kernel)
      fun _ => rfl
  | getModel c =>
    exact onCpu_follows hactivated hunit _ .text (h _ rfl) rfl (fun _ => rfl) (by decide +kernel)
      fun _ => rfl
  | hasFlag v flagName =>
    exact onVirtualCore_follows hactivated hunit
      (fun v => onSnd (VirtualCoreLinux.hasFlag sys v flagName)) (fun b => .resultBool (some b)) id
      .flag (h _ rfl) rfl (fun _ => rfl) hbool fun _ => rfl
  | getAbsoluteTicks v =>
    exact onVirtualCore_follows hactivated hunit
      (fun v => onSnd (VirtualCoreLinux.getAbsoluteTicks sys v)) .resultUint64 id .ticks (h _ rfl)
      rfl (fun _ => rfl) (by decide +kernel : Expect.resultUint64.name ≠ "") fun _ => rfl
  | getIdleTime v =>
    exact onVirtualCore_follows hactivated hunit (TopologyLinux.getIdleTime sys) .getIdleTimeRes id
      .time (h _ rfl) rfl (fun _ => rfl) (by decide +kernel : Expect.idleTime.name ≠ "")
      fun _ => rfl
  | resetIdleTime v =>
    exact onVirtualCore_follows hactivated hunit (TopologyLinux.resetIdleTime sys)
      (fun _ => .resultVoid) id (fun _ => .unit) (h _ rfl) rfl (fun _ => rfl) hvoid fun _ => rfl
  | plugCore call v =>
    cases call with
    | isHotPluggable =>
      rw [onServer, PlugCall.onCore, onSnd_map]
      exact onVirtualCore_follows hactivated hunit
        (fun v => onSnd (VirtualCoreLinux.isHotPluggable sys v)) (fun b => .resultBool (some b)) id
        .flag (h _ rfl) rfl (fun _ => rfl) hbool fun _ => rfl
    | isHotPlugged =>
      rw [onServer, PlugCall.onCore, onSnd_map]
      exact onVirtualCore_follows hactivated hunit
        (fun v => onSnd (VirtualCoreLinux.isHotPlugged sys v)) (fun b => .resultBool (some b)) id
        .flag (h _ rfl) rfl (fun _ => rfl) hbool fun _ => rfl
    | hotPlug =>
      rw [onServer, PlugCall.onCore, onSnd_map _ fun _ => ClientValue.unit]
      exact onVirtualCore_follows hactivated hunit
        (fun v => onSnd (VirtualCoreLinux.hotPlug sys v)) (fun _ => .resultVoid) id
        (fun _ => .unit) (h _ rfl) rfl (fun _ => rfl) hvoid fun _ => rfl
    | hotUnplug =>
      rw [onServer, PlugCall.onCore, onSnd_map _ fun _ => ClientValue.unit]
      exact onVirtualCore_follows hactivated hunit
        (fun v => onSnd (VirtualCoreLinux.hotUnplug sys v)) (fun _ => .resultVoid) id
        (fun _ => .unit) (h _ rfl) rfl (fun _ => rfl) hvoid fun _ => rfl
  | plugUnit call u => exact follows_onSnd (PlugCall.remoteUnit_follows hactivated hunit h s.2)
  | level r v i =>
    have hlevels := hbuilt.2 v.virtualCoreId
    have hids : (levelIds v.virtualCoreId)[i]? =
        (s.1.idleLevels v.virtualCoreId)[i]?.map (·.levelId) := by
      rw [← hlevels, List.getElem?_map]
    cases hlevel : (s.1.idleLevels v.virtualCoreId)[i]? with
    | none =>
      rw [hlevel] at hids
      have hserver : ((level r v i).onServer sys).run s =
          (throw Exn.undefined : Call (TopologyLinux × σ) ClientValue).run s := by
        rw [onServer, TopologyLinux.atLevel, EStateM.run_bind, hget]
        simp only [hlevel]
      rw [Follows, hserver, remote, hids]
      rfl
    | some level =>
      rw [hlevel] at hids
      have hserver : ((ClientCall.level r v i).onServer sys).run s =
          (TopologyLinux.callLevel sys v.virtualCoreId i level r).run s := by
        rw [onServer, TopologyLinux.atLevel, EStateM.run_bind, hget]
        simp only [hlevel]
      have hasked := h _ (by rw [request, hids]; rfl)
      refine Follows.congr ?_ hserver
      rw [remote, hids]
      exact callLevel_follows hactivated hunit (by rw [hlevels]; exact hnodup _) hlevel hasked

/-- A virtual core of the client that is constructed has the identifiers of the server's levels. -/
theorem new_levelIds (hactivated : moduleDispatcher "topology" = some (processMessage sys proto))
    {v : VirtualCore} (hv : s.1.topology.Has v)
    (h : Answered sys proto s (.idleLevelsGet (UInt32.ofNat v.virtualCoreId)))
    {ids : List UInt32} {u : Session (TopologyLinux × σ)}
    (hnew : (VirtualCoreRemote.new proto moduleDispatcher v.virtualCoreId).run ⟨s, true⟩ =
      .ok ids u) : ids = (s.1.idleLevels v.virtualCoreId).map (·.levelId) := by
  let levels : Call (TopologyLinux × σ) (List UInt32) := do
    return ((← get).1.idleLevels v.virtualCoreId).map (·.levelId)
  have hserve : (serve sys (.idleLevelsGet (UInt32.ofNat v.virtualCoreId))).run s =
      (do return .idleLevelsGetRes (← levels) : Call (TopologyLinux × σ) Response).run s := by
    rw [serve, virtualCore_serve hv.1 hv.2]
    rfl
  have hasked := answered_follows hactivated .idleLevelsGetRes id id h hserve
    (fun _ => rfl) (by decide +kernel : Expect.idleLevels.name ≠ "") fun _ => rfl
  simp only [id, bind_pure] at hasked
  obtain ⟨asked, t, hrequest, hrest⟩ := ok_of_bind hnew
  have hids : asked = (s.1.idleLevels v.virtualCoreId).map (·.levelId) := by
    have hrun := hrequest.symm.trans hasked
    injection hrun
  obtain ⟨_, _, -, hlast⟩ := ok_of_bind hrest
  obtain ⟨_, _, -, hlast⟩ := ok_of_bind hlast
  injection hlast with hvalue
  rw [← hvalue, hids]

theorem built_setLevel {t : Topology} {u : TopologyLinux} (h : Built t levelIds u)
    (v : VirtualCoreId) (i : ℕ) {f : IdleLevel → IdleLevel} (hf : ∀ l, (f l).levelId = l.levelId) :
    Built t levelIds (u.setLevel v i f) := by
  refine ⟨h.1, fun w => ?_⟩
  rw [← h.2 w]
  show (Function.update u.idleLevels v ((u.idleLevels v).modify i f) w).map (·.levelId) = _
  rcases eq_or_ne w v with rfl | hne
  · apply List.ext_getElem?
    intro j
    rw [Function.update_self, List.getElem?_map, List.getElem?_modify, List.getElem?_map]
    cases (u.idleLevels w)[j]? with
    | none => rfl
    | some l => by_cases hij : i = j <;> simp [hij, hf]
  · rw [Function.update_of_ne hne]

/-- The calls leave the units of the topology and the identifiers of the idle levels. -/
theorem onServer_keeps (t : Topology) (c : ClientCall) :
    Keeps (fun s : TopologyLinux × σ => Built t levelIds s.1) (c.onServer sys) := by
  have reads {γ : Type} (k : Call σ γ) (decode : γ → ClientValue) :
      Keeps (fun s : TopologyLinux × σ => Built t levelIds s.1)
        (do return decode (← onSnd k)) := keeps_bind (keeps_onSnd k) fun _ => keeps_pure
  have resets {γ : Type} (k : Call σ γ) {f : γ → TopologyLinux → TopologyLinux}
      (hf : ∀ a u, Built t levelIds u → Built t levelIds (f a u)) :
      Keeps (fun s : TopologyLinux × σ => Built t levelIds s.1)
        (onSnd k >>= fun a => modify fun s => (f a s.1, s.2)) :=
    keeps_bind (keeps_onSnd k) fun a s hs => hf a s.1 hs
  have idle (v : VirtualCoreId) : Keeps (fun s : TopologyLinux × σ => Built t levelIds s.1)
      (TopologyLinux.resetIdleTime sys v) := resets _
    (f := fun idle u => { u with lastProcIdleTime := Function.update u.lastProcIdleTime v idle })
    fun _ _ h => h
  cases c with
  | setUtilization type u =>
    refine keeps_bind keeps_get fun s => ?_
    cases type <;> exact keeps_bind (keeps_onSnd _) fun _ => keeps_pure
  | getVendorId c => exact reads _ .text
  | getFamily c => exact reads _ .text
  | getModel c => exact reads _ .text
  | hasFlag v flagName => exact reads _ .flag
  | getAbsoluteTicks v => exact reads _ .ticks
  | getIdleTime v =>
    exact keeps_bind (keeps_bind (keeps_onSnd _) fun _ => keeps_bind keeps_get fun _ => keeps_pure)
      fun _ => keeps_pure
  | resetIdleTime v => exact keeps_bind (idle v.virtualCoreId) fun _ => keeps_pure
  | plugCore call v => exact keeps_onSnd _
  | plugUnit call u => exact keeps_onSnd _
  | level r v i =>
    refine keeps_bind keeps_get fun s => ?_
    cases (s.1.idleLevels v.virtualCoreId)[i]? with
    | none => exact keeps_throw
    | some l =>
      cases r with
      | enable => exact reads _ fun _ => .unit
      | disable => exact reads _ fun _ => .unit
      | resetTime =>
        exact keeps_bind (resets _ fun _ _ h => built_setLevel h _ i fun _ => rfl)
          fun _ => keeps_pure
      | resetCount =>
        exact keeps_bind (resets _ fun _ _ h => built_setLevel h _ i fun _ => rfl)
          fun _ => keeps_pure
      | getName => exact reads _ .text
      | getDesc => exact reads _ .text
      | isEnableable => exact reads _ .flag
      | isEnabled => exact reads _ .flag
      | getExitLatency => exact reads _ .number
      | getConsumedPower => exact reads _ .number
      | getAbsTime => exact reads _ .number
      | getTime => exact reads _ .number
      | getAbsCount => exact reads _ .number
      | getCount => exact reads _ .number

/-- The calls of a client return and throw what the same calls on the server's units do, and leave
the server as these leave it, in every run whose calls are all about units of the server's and are
all answered. -/
theorem remote_units_agree
    (hactivated : moduleDispatcher "topology" = some (processMessage sys proto)) {t : Topology}
    (hbuilt : Built t levelIds s.1) (hnodup : ∀ v, (levelIds v).Nodup) (calls : List ClientCall)
    (along : Along (Agrees levelIds sys proto) (onServer sys) s calls) :
    trace (remote proto moduleDispatcher levelIds) ⟨s, true⟩ calls =
      ((trace (onServer sys) s calls).1, ⟨(trace (onServer sys) s calls).2, true⟩) :=
  trace_follows (fun _ c hs h => remote_follows hactivated hs hnodup c h)
    (fun _ c hs => after_of_keeps (onServer_keeps t c) hs) hbuilt calls along

end ClientCall

section OneFile

open ClientCall

/-- A system whose files are all one. -/
def oneFile : System String where
  sysfsRootPrefix := ""
  read _ text := some text
  write _ text _ := (true, text)
  readTsc _ _ := none
  clockTicksPerSecond := 100
  maximizeUtilization _ := pure ()
  resetUtilization _ := pure ()

/-- Two CPUs whose virtual cores have two idle levels each. -/
def twoIdleCpus : TopologyLinux := { twoCpus with idleLevels := fun _ => [⟨0, 0, 0⟩, ⟨1, 0, 0⟩] }

def oneFileOnly (moduleId : String) : Option (Module (TopologyLinux × String)) :=
  if moduleId = "topology" then some (processMessage oneFile proto2) else none

/-- The first physical core is unplugged and asked for, and so is the name of a level. -/
def unplugFirst : List ClientCall :=
  let core : PluggableUnit := .physicalCore ⟨0, 0, [⟨0, 0, 0⟩, ⟨0, 0, 3⟩]⟩
  [.plugUnit .hotUnplug core, .plugUnit .isHotPlugged core, .level .getName ⟨0, 0, 3⟩ 1]

theorem remote_units_agree_unplug :
    trace (ClientCall.remote proto2 oneFileOnly fun _ => [0, 1]) ⟨(twoIdleCpus, "1"), true⟩
      unplugFirst =
      ([.ok .unit, .ok (.flag false), .ok (.text "0")], ⟨(twoIdleCpus, "0\n"), true⟩) := by
  let levelIds : VirtualCoreId → List UInt32 := fun _ => [0, 1]
  have hdistinct : ∀ v, (levelIds v).Nodup := fun _ => by decide
  have hcores : twoCpus.topology.Has ⟨0, 0, 0⟩ ∧ twoCpus.topology.Has ⟨0, 0, 3⟩ :=
    ⟨⟨by decide, by decide⟩, ⟨by decide, by decide⟩⟩
  have hcore : ∀ v ∈ [(⟨0, 0, 0⟩ : VirtualCore), ⟨0, 0, 3⟩], twoCpus.topology.Has v := by
    simpa using hcores
  have hcarried (call : PlugCall) (vs : List VirtualCore) : call.Carried proto2 vs := by
    refine ⟨fun v _ => proto2_asks ?_, fun res hres => proto2_carries ?_⟩
    · cases call <;> trivial
    · cases call <;>
        simp only [PlugCall.responses, List.mem_cons, List.not_mem_nil, or_false] at hres
      · obtain rfl | rfl := hres <;> rfl
      · obtain rfl | rfl := hres <;> rfl
      · rw [hres]; trivial
      · rw [hres]; trivial
  have hserve : (serve oneFile (.idleLevel .getName 3 1)).run (twoIdleCpus, "0\n") =
      .ok (.idleLevelGetNameRes (some "0")) (twoIdleCpus, "0\n") := rfl
  have hlevel : ∀ r ∈ (level .getName ⟨0, 0, 3⟩ 1).request levelIds,
      Answered oneFile proto2 (twoIdleCpus, "0\n") r := by
    rintro _ ⟨⟩
    refine ⟨proto2_asks trivial, orderly_at_of_ok hserve, fun res t h => ?_⟩
    cases hserve.symm.trans h
    exact proto2_carries ⟨"0", rfl, by simp [Utils.IsBytes]⟩
  have hbuilt : Built twoCpus.topology levelIds twoIdleCpus := ⟨rfl, fun _ => rfl⟩
  have hactivated : oneFileOnly "topology" = some (processMessage oneFile proto2) := rfl
  exact remote_units_agree (s := (twoIdleCpus, "1")) hactivated hbuilt hdistinct
    unplugFirst ⟨⟨hcore, hcarried _ _⟩, ⟨hcore, hcarried _ _⟩, ⟨hcores.2, hlevel⟩, trivial⟩

end OneFile

end Mammut.Topology
