import Mammut.Topology.Service

/-! Which requests `Topology::processMessage` serves in order, and in which states of the files. -/

set_option linter.dupNamespace false

namespace Mammut.Topology.Service

open Kit.Programs Utils

variable {σ α : Type} {sys : System σ} {s : TopologyLinux × σ}

/-- `getCpuInfo` finds a value in the line that it takes for that of the field. -/
def InfoReadable (sys : System σ) (infoName : String) (s : σ) : Prop :=
  ∀ text, sys.read (sys.sysfsRootPrefix ++ "/proc/cpuinfo") s = some text →
    ∀ line, (split text '\n').find? (startsWith · infoName) = some line →
      (split line ':')[1]? ≠ none

/-- `getProcStatTime` finds the field in each of the lines that it takes for that of the core. -/
def StatReadable (sys : System σ) (v : VirtualCoreId) (type : ℕ) (s : σ) : Prop :=
  ∀ text, sys.read (sys.sysfsRootPrefix ++ "/proc/stat") s = some text →
    ∀ line ∈ split text '\n', contains line ("cpu" ++ intToString v) → (split line ' ')[type]? ≠ none

/-- The request can be served: it returns a response, or throws a `std::runtime_error`. -/
def Servable (sys : System σ) (s : TopologyLinux × σ) : Request → Prop
  | .setUtilization type unitType id => ∀ cores, unitCores s.1.topology unitType id = some cores →
      match type with
      | .MAXIMIZE => Orderly (· = s.2) (maximizeUtilization sys cores)
      | .RESET => Orderly (· = s.2) (resetUtilization sys cores)
  | .getCpuVendorId id => ∀ c, s.1.topology.getCpu id.toNat = some c →
      InfoReadable sys "vendor_id" s.2
  | .getCpuFamily id => ∀ c, s.1.topology.getCpu id.toNat = some c →
      InfoReadable sys "cpu family" s.2
  | .getCpuModel id => ∀ c, s.1.topology.getCpu id.toNat = some c → InfoReadable sys "model" s.2
  | .getIdleTime id | .resetIdleTime id =>
      ∀ vc, s.1.topology.getVirtualCore id.toNat = some vc →
        StatReadable sys vc.virtualCoreId 4 s.2
  | _ => True

theorem onCpu_ends_iff {id : UInt32} {k : Cpu → Call (TopologyLinux × σ) α} :
    Orderly (· = s) (onCpu id k) ↔
      ∀ c, s.1.topology.getCpu id.toNat = some c → Orderly (· = s) (k c) := by
  have hget : (get : Call (TopologyLinux × σ) _).run s = .ok s s := rfl
  rw [onCpu, orderly_at_bind hget]
  cases s.1.topology.getCpu id.toNat with
  | none => simpa using orderly_throw
  | some c => simp

theorem onVirtualCore_ends_iff {id : UInt32}
    {k : VirtualCoreId → Call (TopologyLinux × σ) α} :
    Orderly (· = s) (onVirtualCore id k) ↔
      ∀ vc, s.1.topology.getVirtualCore id.toNat = some vc →
        Orderly (· = s) (k vc.virtualCoreId) := by
  have hget : (get : Call (TopologyLinux × σ) _).run s = .ok s s := rfl
  rw [onVirtualCore, orderly_at_bind hget]
  cases s.1.topology.getVirtualCore id.toNat with
  | none => simpa using orderly_throw
  | some vc => simp

theorem infoOf_ends_iff {line : String} {s : σ} :
    Orderly (· = s) (CpuLinux.infoOf line : Call σ String) ↔ (split line ':')[1]? ≠ none := by
  unfold CpuLinux.infoOf
  cases (split line ':')[1]? with
  | none => exact iff_of_false (not_orderly_at_throw fun _ => Exn.noConfusion) fun h => h rfl
  | some value => exact iff_of_true orderly_pure (Option.some_ne_none value)

theorem getCpuInfo_ends_iff {infoName : String} {s : σ} :
    Orderly (· = s) (CpuLinux.getCpuInfo sys infoName) ↔ InfoReadable sys infoName s := by
  have hget : (get : Call σ σ).run s = .ok s s := rfl
  rw [CpuLinux.getCpuInfo, orderly_at_bind hget, InfoReadable]
  cases sys.read (sys.sysfsRootPrefix ++ "/proc/cpuinfo") s with
  | none => exact iff_of_true orderly_throw fun _ h => nomatch h
  | some text =>
    simp only [Option.some.injEq, forall_eq']
    cases (split text '\n').find? (startsWith · infoName) with
    | none => exact iff_of_true orderly_pure fun _ h => nomatch h
    | some line =>
      simp only [Option.some.injEq, forall_eq']
      exact infoOf_ends_iff

/-- The loop of `getProcStatTime`, which changes nothing but its variable. -/
theorem procStatFields_ends_iff {v : VirtualCoreId} {type : ℕ} {lines : List String}
    (field : Option Int) {s : σ} :
    Orderly (· = s) (lines.foldlM (VirtualCoreLinux.procStatField v type) field : Call σ _) ↔
      ∀ line ∈ lines, contains line ("cpu" ++ intToString v) → (split line ' ')[type]? ≠ none := by
  induction lines generalizing field with
  | nil => exact iff_of_true orderly_pure fun _ h => nomatch h
  | cons line lines ih =>
    rw [List.foldlM_cons, List.forall_mem_cons]
    unfold VirtualCoreLinux.procStatField at ih ⊢
    by_cases hline : contains line ("cpu" ++ intToString v)
    · rw [if_pos hline]
      cases hfield : (split line ' ')[type]? with
      | none =>
        refine iff_of_false (not_orderly_at_bind (not_orderly_at_throw fun _ => Exn.noConfusion)) ?_
        exact fun h => h.1 hline rfl
      | some text =>
        rw [and_iff_right fun _ => Option.some_ne_none text]
        exact (orderly_at_bind rfl).trans (ih _)
    · rw [if_neg hline, and_iff_right fun h => absurd h hline]
      exact (orderly_at_bind rfl).trans (ih _)

theorem getAbsoluteIdleTime_ends_iff {v : VirtualCoreId} {s : σ} :
    Orderly (· = s) (VirtualCoreLinux.getAbsoluteIdleTime sys v) ↔ StatReadable sys v 4 s := by
  unfold VirtualCoreLinux.getAbsoluteIdleTime VirtualCoreLinux.getProcStatTime StatReadable
  cases htext : sys.read (sys.sysfsRootPrefix ++ "/proc/stat") s with
  | none =>
    have hread : (sys.readFile (sys.sysfsRootPrefix ++ "/proc/stat")).run s = .error
        (.runtimeError ("Impossible to open file " ++ (sys.sysfsRootPrefix ++ "/proc/stat"))) s := by
      simp [System.readFile, htext]
    refine iff_of_true (orderly_at_iff.mpr fun e t hrun => ?_)
      fun _ h => absurd h.symm (Option.some_ne_none _)
    rw [EStateM.run_bind, hread] at hrun
    cases hrun
    exact ⟨_, rfl⟩
  | some text =>
    simp only [orderly_at_bind (sys.readFile_run htext), Option.some.injEq, forall_eq']
    rw [← procStatFields_ends_iff none]
    exact orderly_at_bind_left fun field => by cases field <;> exact orderly_pure

/-- The call ends in order in every state. -/
abbrev EndsOrderly (call : Call σ α) : Prop := Orderly (fun _ => True) call

theorem readFirstLineFromFile_ends (fileName : String) :
    EndsOrderly (sys.readFirstLineFromFile fileName) := by
  refine orderly_bind orderly_get fun s => ?_
  cases sys.read fileName s with
  | none => exact orderly_throw
  | some text => exact orderly_pure

theorem readFile_ends (fileName : String) : EndsOrderly (sys.readFile fileName) := by
  refine orderly_bind orderly_get fun s => ?_
  cases sys.read fileName s with
  | none => exact orderly_throw
  | some text => exact orderly_pure

theorem writeFile_ends (fileName line : String) : EndsOrderly (sys.writeFile fileName line) := by
  refine orderly_bind orderly_modifyGet fun opened => ?_
  cases opened with
  | false => exact orderly_throw
  | true => exact orderly_pure

theorem existsFile_ends (fileName : String) : EndsOrderly (sys.existsFile fileName) :=
  orderly_bind orderly_get fun _ => orderly_pure

theorem readUint_ends (fileName : String) : EndsOrderly (sys.readUint fileName) :=
  orderly_bind (readFirstLineFromFile_ends fileName) fun _ => orderly_pure

theorem ifExists_ends {fileName : String} {call other : Call σ α} (hcall : EndsOrderly call)
    (hother : EndsOrderly other) :
    EndsOrderly (sys.existsFile fileName >>= fun b => if b then call else other) := by
  refine orderly_bind (existsFile_ends fileName) fun b => ?_
  cases b with
  | false => exact hother
  | true => exact hcall

theorem hasFlag_ends (v : VirtualCoreId) (flagName : String) :
    EndsOrderly (VirtualCoreLinux.hasFlag sys v flagName) :=
  ifExists_ends (orderly_bind (readFile_ends _) fun _ => orderly_pure) orderly_pure

theorem isHotPlugged_ends (v : VirtualCoreId) : EndsOrderly (VirtualCoreLinux.isHotPlugged sys v) :=
  ifExists_ends (orderly_bind (readFirstLineFromFile_ends _) fun _ => orderly_pure) orderly_pure

theorem hotPlug_ends (v : VirtualCoreId) : EndsOrderly (VirtualCoreLinux.hotPlug sys v) :=
  ifExists_ends (writeFile_ends _ _) orderly_pure

theorem hotUnplug_ends (v : VirtualCoreId) : EndsOrderly (VirtualCoreLinux.hotUnplug sys v) :=
  ifExists_ends (writeFile_ends _ _) orderly_pure

theorem isEnabled_ends (v : VirtualCoreId) (level : IdleLevel) :
    EndsOrderly (VirtualCoreIdleLevelLinux.isEnabled sys v level) :=
  ifExists_ends (orderly_bind (readFirstLineFromFile_ends _) fun _ => orderly_pure) orderly_pure

theorem onSnd_ends {call : Call σ α} (h : EndsOrderly call) :
    EndsOrderly (onSnd call : Call (TopologyLinux × σ) α) := fun s _ =>
  orderly_at_onSnd.mpr (orderly_mono h fun _ _ => trivial) s rfl

theorem onLevels_ends {levelId : UInt32} {v : VirtualCoreId}
    {processing : VirtualCoreId → ℕ → IdleLevel → Call (TopologyLinux × σ) α}
    (h : ∀ i level, EndsOrderly (processing v i level)) :
    EndsOrderly (onLevels levelId processing v) := by
  refine orderly_bind orderly_get fun s => ?_
  dsimp only
  split_ifs with hlevels
  · exact orderly_throw
  · refine (triple_foldlM_invariant (I := fun _ => True) fun field p _ => ?_).post
      fun _ _ _ => trivial
    split_ifs
    · exact orderly_bind (h p.2 p.1) fun _ => orderly_pure
    · exact orderly_pure

theorem serveLevel_ends (levelId : UInt32) (v : VirtualCoreId) (request : LevelRequest) :
    EndsOrderly (serveLevel sys levelId v request) := by
  have reads {α : Type} {k : VirtualCoreId → IdleLevel → Call σ α}
      (hk : ∀ level, EndsOrderly (k v level)) : EndsOrderly (onLevels levelId (read k) v) :=
    onLevels_ends fun _ level => onSnd_ends (hk level)
  have resets {k : VirtualCoreId → IdleLevel → Call σ UInt32}
      {f : UInt32 → ℕ → TopologyLinux × σ → TopologyLinux × σ}
      (hk : ∀ level, EndsOrderly (k v level)) (i : ℕ) (level : IdleLevel) :
      EndsOrderly (onSnd (k v level) >>= fun n => modify (f n i)) :=
    orderly_bind (onSnd_ends (hk level)) fun _ => orderly_modifyGet
  cases request with
  | getName => exact orderly_bind (reads fun _ => readFirstLineFromFile_ends _) fun _ => orderly_pure
  | getDesc => exact orderly_bind (reads fun _ => readFirstLineFromFile_ends _) fun _ => orderly_pure
  | isEnableable => exact orderly_bind (reads fun _ => existsFile_ends _) fun _ => orderly_pure
  | isEnabled => exact orderly_bind (reads fun _ => isEnabled_ends v _) fun _ => orderly_pure
  | enable => exact orderly_bind (reads fun _ => writeFile_ends _ _) fun _ => orderly_pure
  | disable => exact orderly_bind (reads fun _ => writeFile_ends _ _) fun _ => orderly_pure
  | getExitLatency => exact orderly_bind (reads fun _ => readUint_ends _) fun _ => orderly_pure
  | getConsumedPower => exact orderly_bind (reads fun _ => readUint_ends _) fun _ => orderly_pure
  | getAbsTime => exact orderly_bind (reads fun _ => readUint_ends _) fun _ => orderly_pure
  | getAbsCount => exact orderly_bind (reads fun _ => readUint_ends _) fun _ => orderly_pure
  | getTime =>
    exact orderly_bind (reads fun _ => orderly_bind (readUint_ends _) fun _ => orderly_pure)
      fun _ => orderly_pure
  | getCount =>
    exact orderly_bind (reads fun _ => orderly_bind (readUint_ends _) fun _ => orderly_pure)
      fun _ => orderly_pure
  | resetTime =>
    exact orderly_bind (onLevels_ends (resets fun _ => readUint_ends _)) fun _ => orderly_pure
  | resetCount =>
    exact orderly_bind (onLevels_ends (resets fun _ => readUint_ends _)) fun _ => orderly_pure

theorem serve_ends_iff (r : Request) : Orderly (· = s) (serve sys r) ↔ Servable sys s r := by
  have hget : (get : Call (TopologyLinux × σ) _).run s = .ok s s := rfl
  -- requests about a virtual core that always end in order
  have always {id : UInt32} {k : VirtualCoreId → Call (TopologyLinux × σ) Response}
      (hk : ∀ v, EndsOrderly (k v)) : Orderly (· = s) (onVirtualCore id k) :=
    onVirtualCore_ends_iff.mpr fun vc _ => orderly_mono (hk _) fun _ _ => trivial
  have reads {α : Type} {call : Call σ α} {f : α → Response} (h : EndsOrderly call) :
      EndsOrderly (do return f (← (onSnd call : Call (TopologyLinux × σ) α))) :=
    orderly_bind (onSnd_ends h) fun _ => orderly_pure
  cases r with
  | getTopology => exact iff_of_true (orderly_bind orderly_get fun _ => orderly_pure) trivial
  | setUtilization type unitType id =>
    rw [serve, orderly_at_bind hget, Servable]
    cases unitCores s.1.topology unitType id with
    | none => exact iff_of_true orderly_throw fun _ h => nomatch h
    | some cores =>
      simp only [Option.some.injEq, forall_eq']
      cases type <;> exact orderly_at_map.trans orderly_at_onSnd
  | getCpuVendorId id =>
    refine onCpu_ends_iff.trans (forall₂_congr fun c _ => ?_)
    exact orderly_at_map.trans (orderly_at_onSnd.trans getCpuInfo_ends_iff)
  | getCpuFamily id =>
    refine onCpu_ends_iff.trans (forall₂_congr fun c _ => ?_)
    exact orderly_at_map.trans (orderly_at_onSnd.trans getCpuInfo_ends_iff)
  | getCpuModel id =>
    refine onCpu_ends_iff.trans (forall₂_congr fun c _ => ?_)
    exact orderly_at_map.trans (orderly_at_onSnd.trans getCpuInfo_ends_iff)
  | getIdleTime id =>
    rw [serve]
    refine onVirtualCore_ends_iff.trans (forall₂_congr fun vc _ => ?_)
    refine orderly_at_map.trans ((orderly_at_bind_left fun _ => ?_).trans
      (orderly_at_onSnd.trans getAbsoluteIdleTime_ends_iff))
    exact orderly_bind orderly_get fun _ => orderly_pure
  | resetIdleTime id =>
    rw [serve]
    refine onVirtualCore_ends_iff.trans (forall₂_congr fun vc _ => ?_)
    exact orderly_at_map.trans ((orderly_at_bind_left fun _ => orderly_modifyGet).trans
      (orderly_at_onSnd.trans getAbsoluteIdleTime_ends_iff))
  | getAbsoluteTicks id =>
    rw [serve]
    exact iff_of_true (always fun _ => reads (orderly_bind orderly_get fun _ => orderly_pure)) trivial
  | hasFlag id flagName =>
    rw [serve]
    exact iff_of_true (always fun v => reads (hasFlag_ends v _)) trivial
  | isHotPluggable id =>
    rw [serve]
    exact iff_of_true (always fun _ => reads (existsFile_ends _)) trivial
  | isHotPlugged id =>
    rw [serve]
    exact iff_of_true (always fun v => reads (isHotPlugged_ends v)) trivial
  | hotPlug id =>
    rw [serve]
    exact iff_of_true (always fun v => reads (hotPlug_ends v)) trivial
  | hotUnplug id =>
    rw [serve]
    exact iff_of_true (always fun v => reads (hotUnplug_ends v)) trivial
  | idleLevel request id levelId =>
    exact iff_of_true (always fun v => serveLevel_ends levelId v request) trivial
  | idleLevelsGet id =>
    rw [serve]
    exact iff_of_true (always fun _ => orderly_bind orderly_get fun _ => orderly_pure) trivial

end Mammut.Topology.Service
