import Mathlib.Algebra.Order.Ring.Rat
import Mammut.Cxx

/-! The power cappers, from `energy-linux.cpp`, and the rollback points of `energy.cpp`.  `raplcap`
is a parameter: the functions of it that the cappers call, on a state of its own. -/

namespace Mammut.Energy

open Kit Kit.Lockstep Kit.Programs

inductive CounterType
  | COUNTER_CPUS
  | COUNTER_MEMORY
  | COUNTER_PLUG
  | COUNTER_NUM
  deriving DecidableEq, Repr

open CounterType

/-- The types below `COUNTER_NUM`. -/
def CounterType.all : List CounterType := [COUNTER_CPUS, COUNTER_MEMORY, COUNTER_PLUG]

inductive RaplcapZone
  | RAPLCAP_ZONE_PACKAGE
  | RAPLCAP_ZONE_DRAM
  | RAPLCAP_ZONE_PSYS
  deriving DecidableEq, Repr

open RaplcapZone

structure RaplcapLimit where
  watts : ℚ
  seconds : ℚ
  deriving DecidableEq, Repr

/-- `raplcap`: a call that fails has the result `none`, or `false`. -/
structure Raplcap (σ : Type) where
  numSockets : ℕ
  init : Bool
  isZoneSupported : ℕ → RaplcapZone → Bool
  getLimits : ℕ → RaplcapZone → σ → Option (RaplcapLimit × RaplcapLimit)
  setLimits : ℕ → RaplcapZone → Option RaplcapLimit → Option RaplcapLimit → σ → Bool × σ
  isZoneEnabled : ℕ → RaplcapZone → σ → Bool
  setZoneEnabled : ℕ → RaplcapZone → Bool → σ → Bool × σ

structure PowerCap where
  value : ℚ
  window : ℚ
  preparedOnly : Bool
  deriving DecidableEq, Repr

structure PowerCapperLinux where
  zone : RaplcapZone
  sockets : ℕ
  deriving DecidableEq, Repr

variable {σ : Type} (rc : Raplcap σ)

/-- The zone that the constructor chooses; of `COUNTER_NUM` it throws. -/
def CounterType.zone : CounterType → Option RaplcapZone
  | COUNTER_CPUS => some RAPLCAP_ZONE_PACKAGE
  | COUNTER_MEMORY => some RAPLCAP_ZONE_DRAM
  | COUNTER_PLUG => some RAPLCAP_ZONE_PSYS
  | COUNTER_NUM => none

namespace PowerCapperLinux

/-- The constructor and `init`: the capper, when it is available. -/
def init (type : CounterType) : Option PowerCapperLinux := do
  let zone ← type.zone
  if rc.numSockets = 0 then none
  else if !rc.init then none
  else if (List.range rc.numSockets).all fun i => rc.isZoneSupported i zone then
    some ⟨zone, rc.numSockets⟩
  else none

variable (pc : PowerCapperLinux)

/-- `get` of a window. -/
def getWindow (socketId windowId : ℕ) : Call σ PowerCap := do
  match rc.getLimits socketId pc.zone (← get) with
  | none => throw (.runtimeError "raplcap_get_limits")
  | some (zero, one) =>
    let limit := if windowId = 0 then zero else one
    return ⟨limit.watts, limit.seconds, !rc.isZoneEnabled socketId pc.zone (← get)⟩

/-- `get` of a socket. -/
def getSocket (socketId : ℕ) : Call σ (PowerCap × PowerCap) := do
  let first ← pc.getWindow rc socketId 0
  let second ← pc.getWindow rc socketId 1
  return (first, second)

/-- `get` of the whole machine. -/
def getAll : Call σ (List (PowerCap × PowerCap)) :=
  (List.range pc.sockets).foldlM (fun r i => do return r ++ [← pc.getSocket rc i]) []

/-- `set` of a window. -/
def setWindow (windowId socketId : ℕ) (cap : PowerCap) : Call σ Unit := do
  let lim : RaplcapLimit := ⟨cap.value, cap.window⟩
  let r ← modifyGet fun s =>
    if windowId = 0 then rc.setLimits socketId pc.zone (some lim) none s
    else rc.setLimits socketId pc.zone none (some lim) s
  if !r then throw (.runtimeError "raplcap_set_limits")
  if !(← modifyGet (rc.setZoneEnabled socketId pc.zone !cap.preparedOnly)) then
    throw (.runtimeError "raplcap_set_zone_enabled")

/-- `set` of a socket. -/
def setSocket (socketId : ℕ) (cap : PowerCap) : Call σ Unit :=
  (List.range 2).forM fun i => pc.setWindow rc i socketId cap

/-- `set` of the whole machine. -/
def setAll (cap : PowerCap) : Call σ Unit :=
  (List.range pc.sockets).forM fun i =>
    pc.setSocket rc i { cap with value := cap.value / pc.sockets }

end PowerCapperLinux

/-- A call of a client on a power capper. -/
inductive SetCall
  | machine (cap : PowerCap)
  | socket (socketId : ℕ) (cap : PowerCap)
  | window (windowId socketId : ℕ) (cap : PowerCap)

structure RollbackPoint where
  powerCaps : CounterType → List (PowerCap × PowerCap)

def powerCappers (type : CounterType) : Option PowerCapperLinux := PowerCapperLinux.init rc type

/-- A call on the power capper of a type, which is a null pointer when there is none. -/
def setCap (l : CounterType × SetCall) : Call σ Unit :=
  match powerCappers rc l.1 with
  | none => throw .undefined
  | some pc => match l.2 with
    | .machine cap => pc.setAll rc cap
    | .socket socketId cap => pc.setSocket rc socketId cap
    | .window windowId socketId cap => pc.setWindow rc windowId socketId cap

def savePoint (rp : RollbackPoint) (type : CounterType) : Call σ RollbackPoint := do
  match powerCappers rc type with
  | none => return rp
  | some pc =>
    let caps ← pc.getAll rc
    return ⟨fun t => if t = type then caps else rp.powerCaps t⟩

def getRollbackPoint : Call σ RollbackPoint :=
  CounterType.all.foldlM (savePoint rc) ⟨fun _ => []⟩

/-- The body of the loop of `rollback` over the sockets. -/
def restoreSocket (pc : PowerCapperLinux) (cap : (PowerCap × PowerCap) × ℕ) : Call σ Unit := do
  pc.setWindow rc 0 cap.2 cap.1.1
  pc.setWindow rc 1 cap.2 cap.1.2

def restorePoint (rp : RollbackPoint) (type : CounterType) : Call σ Unit :=
  match powerCappers rc type with
  | none => return
  | some pc => (rp.powerCaps type).zipIdx.forM (restoreSocket rc pc)

def rollback (rp : RollbackPoint) : Call σ Unit :=
  CounterType.all.forM (restorePoint rc rp)

/-- What `raplcap` keeps for a zone of a socket. -/
structure Caps where
  zero : RaplcapLimit
  one : RaplcapLimit
  enabled : Bool
  deriving DecidableEq, Repr

/-- The caps after one of a zone of a socket has changed. -/
def putCaps (f : ℕ → RaplcapZone → Caps) (i : ℕ) (zone : RaplcapZone) (c : Caps) :
    ℕ → RaplcapZone → Caps :=
  fun j z => if j = i ∧ z = zone then c else f j z

/-- `raplcap` keeps two limits and a flag for each zone of a socket, and its calls succeed.  A limit
that is not given stays as it is. -/
structure Raplcap.Stores (rc : Raplcap σ) (caps : σ → ℕ → RaplcapZone → Caps) : Prop where
  getLimits : ∀ i zone s, rc.getLimits i zone s = some ((caps s i zone).zero, (caps s i zone).one)
  isZoneEnabled : ∀ i zone s, rc.isZoneEnabled i zone s = (caps s i zone).enabled
  setLimits : ∀ i zone zero one s, ∃ t, rc.setLimits i zone zero one s = (true, t) ∧
    caps t = putCaps (caps s) i zone { caps s i zone with
      zero := zero.getD (caps s i zone).zero
      one := one.getD (caps s i zone).one }
  setZoneEnabled : ∀ i zone enabled s, ∃ t, rc.setZoneEnabled i zone enabled s = (true, t) ∧
    caps t = putCaps (caps s) i zone { caps s i zone with enabled := enabled }

namespace Caps

/-- A cap as `set` passes it on. -/
def limit (cap : PowerCap) : RaplcapLimit := ⟨cap.value, cap.window⟩

/-- The caps after `set` of a window. -/
def withWindow (c : Caps) (windowId : ℕ) (cap : PowerCap) : Caps :=
  if windowId = 0 then ⟨limit cap, c.one, !cap.preparedOnly⟩
  else ⟨c.zero, limit cap, !cap.preparedOnly⟩

/-- What `get` of a socket makes of the caps. -/
def shown (c : Caps) : PowerCap × PowerCap :=
  (⟨c.zero.watts, c.zero.seconds, !c.enabled⟩, ⟨c.one.watts, c.one.seconds, !c.enabled⟩)

/-- Both windows that were shown bring the caps back, whatever they are before. -/
theorem withWindow_shown (c before : Caps) :
    (before.withWindow 0 c.shown.1).withWindow 1 c.shown.2 = c := by
  obtain ⟨⟨_, _⟩, ⟨_, _⟩, enabled⟩ := c
  simp [withWindow, shown, limit]

end Caps

variable {caps : σ → ℕ → RaplcapZone → Caps}

@[simp] theorem putCaps_self (f : ℕ → RaplcapZone → Caps) (i : ℕ) (zone : RaplcapZone) (c : Caps) :
    putCaps f i zone c i zone = c := if_pos ⟨rfl, rfl⟩

@[simp] theorem putCaps_putCaps (f : ℕ → RaplcapZone → Caps) (i : ℕ) (zone : RaplcapZone)
    (c c' : Caps) : putCaps (putCaps f i zone c) i zone c' = putCaps f i zone c' := by
  funext j z
  by_cases h : j = i ∧ z = zone <;> simp [putCaps, h]

section Runs

variable {rc} (h : rc.Stores caps) (pc : PowerCapperLinux) (i : ℕ) (s : σ)

include h

theorem setWindow_run (windowId : ℕ) (cap : PowerCap) :
    ∃ t, (pc.setWindow rc windowId i cap).run s = .ok () t ∧
      caps t = putCaps (caps s) i pc.zone ((caps s i pc.zone).withWindow windowId cap) := by
  have hlimits : ∃ t, (if windowId = 0 then rc.setLimits i pc.zone (some (Caps.limit cap)) none s
      else rc.setLimits i pc.zone none (some (Caps.limit cap)) s) = (true, t) ∧
      caps t = putCaps (caps s) i pc.zone { caps s i pc.zone with
        zero := if windowId = 0 then Caps.limit cap else (caps s i pc.zone).zero
        one := if windowId = 0 then (caps s i pc.zone).one else Caps.limit cap } := by
    by_cases hwindow : windowId = 0
    · simpa [hwindow] using h.setLimits i pc.zone (some (Caps.limit cap)) none s
    · simpa [hwindow] using h.setLimits i pc.zone none (some (Caps.limit cap)) s
  obtain ⟨t, hset, ht⟩ := hlimits
  obtain ⟨u, henable, hu⟩ := h.setZoneEnabled i pc.zone (!cap.preparedOnly) t
  refine ⟨u, ?_, ?_⟩
  · unfold Caps.limit at hset
    simp [PowerCapperLinux.setWindow, hset, henable]
  · rw [hu, ht, putCaps_self, putCaps_putCaps, Caps.withWindow]
    by_cases hwindow : windowId = 0 <;> simp [hwindow]

theorem getSocket_run : (pc.getSocket rc i).run s = .ok (caps s i pc.zone).shown s := by
  simp [PowerCapperLinux.getSocket, PowerCapperLinux.getWindow, h.getLimits, h.isZoneEnabled,
    Caps.shown]

theorem getAll_run : (pc.getAll rc).run s =
    .ok ((List.range pc.sockets).map fun i => (caps s i pc.zone).shown) s := by
  suffices hloop : ∀ (l : List ℕ) (r : List (PowerCap × PowerCap)),
      (l.foldlM (fun r i => do return r ++ [← pc.getSocket rc i]) r : Call σ _).run s =
        .ok (r ++ l.map fun i => (caps s i pc.zone).shown) s from hloop _ _
  intro l
  induction l with
  | nil => intro r; simp
  | cons i rest ih =>
    intro r
    have hfirst : (do return r ++ [← pc.getSocket rc i] : Call σ _).run s =
        .ok (r ++ [(caps s i pc.zone).shown]) s := by
      rw [EStateM.run_bind, getSocket_run h]
      rfl
    rw [run_foldlM_cons hfirst, ih, List.map_cons, List.append_assoc, List.singleton_append]

/-- A socket gets the caps that were shown of it. -/
theorem restoreSocket_run (c : Caps) :
    ∃ t, (restoreSocket rc pc (c.shown, i)).run s = .ok () t ∧
      caps t = putCaps (caps s) i pc.zone c := by
  obtain ⟨t, hfirst, ht⟩ := setWindow_run h pc i s 0 c.shown.1
  obtain ⟨u, hsecond, hu⟩ := setWindow_run h pc i t 1 c.shown.2
  refine ⟨u, ?_, ?_⟩
  · rw [restoreSocket, EStateM.run_bind, hfirst]
    exact hsecond
  · rw [hu, ht, putCaps_self, putCaps_putCaps, Caps.withWindow_shown]

/-- Sockets get the caps that some state shows of them, and the others keep theirs. -/
theorem restoreSockets_run (goal : ℕ → RaplcapZone → Caps) (is : List ℕ) :
    ∃ t, ((is.map fun i => ((goal i pc.zone).shown, i)).forM (restoreSocket rc pc)).run s =
        .ok () t ∧
      ∀ j z, caps t j z = if j ∈ is ∧ z = pc.zone then goal j z else caps s j z := by
  induction is generalizing s with
  | nil => exact ⟨s, rfl, by simp⟩
  | cons i rest ih =>
    obtain ⟨t, hfirst, ht⟩ := restoreSocket_run h pc i s (goal i pc.zone)
    obtain ⟨u, hrest, hu⟩ := ih t
    refine ⟨u, ?_, fun j z => ?_⟩
    · rw [List.map_cons, run_forM_cons hfirst, hrest]
    · rw [hu, ht]
      by_cases hz : z = pc.zone
      · by_cases hj : j = i <;> simp [putCaps, hz, hj]
      · simp [putCaps, hz]

end Runs

section Points

variable {rc} (h : rc.Stores caps) (s : σ)

/-- What a rollback point holds of each available capper. -/
def Saves (rc : Raplcap σ) (caps : σ → ℕ → RaplcapZone → Caps) (s : σ) (rp : RollbackPoint)
    (types : List CounterType) : Prop :=
  ∀ type ∈ types, ∀ pc, powerCappers rc type = some pc →
    rp.powerCaps type = (List.range pc.sockets).map fun i => (caps s i pc.zone).shown

include h

theorem savePoint_run {types : List CounterType} {rp : RollbackPoint}
    (saves : Saves rc caps s rp types) (type : CounterType) :
    ∃ rp', (savePoint rc rp type).run s = .ok rp' s ∧ Saves rc caps s rp' (types ++ [type]) := by
  unfold savePoint
  cases hpc : powerCappers rc type with
  | none =>
    refine ⟨rp, rfl, fun t ht pc hsome => ?_⟩
    rcases List.mem_append.mp ht with ht | ht
    · exact saves t ht pc hsome
    · rw [List.mem_singleton.mp ht, hpc] at hsome
      cases hsome
  | some pc =>
    refine ⟨⟨fun t => if t = type then
      (List.range pc.sockets).map fun i => (caps s i pc.zone).shown else rp.powerCaps t⟩, ?_,
      fun t ht pc' hsome => ?_⟩
    · simp only [EStateM.run_bind, getAll_run h]
      rfl
    · by_cases heq : t = type
      · obtain rfl : pc = pc' := Option.some.inj (hpc.symm.trans (heq ▸ hsome))
        exact if_pos heq
      · have hold : t ∈ types := by simpa [heq] using ht
        exact (if_neg heq).trans (saves t hold pc' hsome)

theorem getRollbackPoint_run :
    ∃ rp, (getRollbackPoint rc).run s = .ok rp s ∧ Saves rc caps s rp CounterType.all := by
  suffices hloop : ∀ (l done : List CounterType) (rp : RollbackPoint), Saves rc caps s rp done →
      ∃ rp', (l.foldlM (savePoint rc) rp).run s = .ok rp' s ∧ Saves rc caps s rp' (done ++ l) from
    hloop CounterType.all [] ⟨fun _ => []⟩ fun _ hnone => by cases hnone
  intro l
  induction l with
  | nil => intro done rp saves; exact ⟨rp, rfl, by simpa using saves⟩
  | cons type rest ih =>
    intro done rp saves
    obtain ⟨rp', hfirst, hsaves⟩ := savePoint_run h s saves type
    obtain ⟨rp'', hrest, hall⟩ := ih (done ++ [type]) rp' hsaves
    refine ⟨rp'', ?_, by simpa using hall⟩
    rw [run_foldlM_cons hfirst, hrest]

/-- Restoring a type leaves what is restored already. -/
theorem restorePoint_run {rp : RollbackPoint} (saves : Saves rc caps s rp CounterType.all)
    {type : CounterType} (htype : type ∈ CounterType.all) (t : σ) :
    ∃ u, (restorePoint rc rp type).run t = .ok () u ∧
      (∀ pc, powerCappers rc type = some pc →
        ∀ i < pc.sockets, caps u i pc.zone = caps s i pc.zone) ∧
      ∀ i zone, caps t i zone = caps s i zone → caps u i zone = caps s i zone := by
  unfold restorePoint
  cases hpc : powerCappers rc type with
  | none => exact ⟨t, rfl, fun _ hsome => (by cases hsome), fun _ _ hsame => hsame⟩
  | some pc =>
    have hzip : (rp.powerCaps type).zipIdx =
        (List.range pc.sockets).map fun i => ((caps s i pc.zone).shown, i) := by
      rw [saves type htype pc hpc]
      exact List.ext_getElem (by simp) (by simp)
    obtain ⟨u, hrun, hu⟩ := restoreSockets_run h pc t (caps s) (List.range pc.sockets)
    refine ⟨u, by rw [hzip]; exact hrun, fun pc' hsome i hi => ?_, fun i zone hsame => ?_⟩
    · obtain rfl := Option.some.inj hsome
      rw [hu, if_pos ⟨List.mem_range.mpr hi, rfl⟩]
    · rw [hu]
      split
      · rfl
      · exact hsame

theorem rollback_run {rp : RollbackPoint} (saves : Saves rc caps s rp CounterType.all) (t : σ) :
    ∃ u, (rollback rc rp).run t = .ok () u ∧ ∀ type pc, powerCappers rc type = some pc →
      ∀ i < pc.sockets, caps u i pc.zone = caps s i pc.zone := by
  suffices hloop : ∀ l ⊆ CounterType.all, ∀ t, ∃ u, (l.forM (restorePoint rc rp)).run t = .ok () u ∧
      (∀ type ∈ l, ∀ pc, powerCappers rc type = some pc →
        ∀ i < pc.sockets, caps u i pc.zone = caps s i pc.zone) ∧
      ∀ i zone, caps t i zone = caps s i zone → caps u i zone = caps s i zone by
    obtain ⟨u, hrun, hrestored, -⟩ := hloop CounterType.all (List.Subset.refl _) t
    refine ⟨u, hrun, fun type pc hpc => hrestored type ?_ pc hpc⟩
    cases type with
    | COUNTER_NUM => cases hpc
    | _ => decide
  intro l
  induction l with
  | nil => exact fun _ t => ⟨t, rfl, fun _ hnone => (List.not_mem_nil hnone).elim, fun _ _ h => h⟩
  | cons type rest ih =>
    intro hsub t
    obtain ⟨htype, hrest⟩ := List.cons_subset.mp hsub
    obtain ⟨t', hfirst, hown, hkept⟩ := restorePoint_run h s saves htype t
    obtain ⟨u, hrun, hothers, hkept'⟩ := ih hrest t'
    refine ⟨u, by rw [run_forM_cons hfirst, hrun], fun type' htype' pc hpc i hi => ?_,
      fun i zone hsame => hkept' i zone (hkept i zone hsame)⟩
    rcases List.mem_cons.mp htype' with rfl | hmem
    · exact hkept' i pc.zone (hown pc hpc i hi)
    · exact hothers type' hmem pc hpc i hi

/-- After any calls on the power cappers, `rollback` brings back the limits and the flags of all the
sockets, and with them what `get` returns. -/
theorem rollback_restores_caps : ∃ rp, (getRollbackPoint rc).run s = .ok rp s ∧
    ∀ calls, ∃ u, (rollback rc rp).run (trace (setCap rc) s calls).2 = .ok () u ∧
      ∀ type pc, powerCappers rc type = some pc →
        (∀ i < pc.sockets, caps u i pc.zone = caps s i pc.zone) ∧
        outcome ((pc.getAll rc).run u) = outcome ((pc.getAll rc).run s) := by
  obtain ⟨rp, hrun, saves⟩ := getRollbackPoint_run h s
  refine ⟨rp, hrun, fun calls => ?_⟩
  obtain ⟨u, hroll, hcaps⟩ := rollback_run h s saves (trace (setCap rc) s calls).2
  refine ⟨u, hroll, fun type pc hpc => ⟨hcaps type pc hpc, ?_⟩⟩
  rw [getAll_run h, getAll_run h, outcome_ok, outcome_ok]
  refine congrArg Except.ok (List.map_congr_left fun i hi => ?_)
  rw [hcaps type pc hpc i (List.mem_range.mp hi)]

end Points

/-- A machine of two sockets without the zone of the plug, whose state is the caps. -/
def twoSockets : Raplcap (ℕ → RaplcapZone → Caps) where
  numSockets := 2
  init := true
  isZoneSupported _ zone := zone ≠ RAPLCAP_ZONE_PSYS
  getLimits i zone s := some ((s i zone).zero, (s i zone).one)
  setLimits i zone zero one s := (true, putCaps s i zone { s i zone with
    zero := zero.getD (s i zone).zero
    one := one.getD (s i zone).one })
  isZoneEnabled i zone s := (s i zone).enabled
  setZoneEnabled i zone enabled s := (true, putCaps s i zone { s i zone with enabled := enabled })

theorem twoSockets_stores : twoSockets.Stores id where
  getLimits _ _ _ := rfl
  isZoneEnabled _ _ _ := rfl
  setLimits _ _ _ _ _ := ⟨_, rfl, rfl⟩
  setZoneEnabled _ _ _ _ := ⟨_, rfl, rfl⟩

/-- 100 and 120 watts over a second, in every zone. -/
def evenCaps : ℕ → RaplcapZone → Caps := fun _ _ => ⟨⟨100, 1⟩, ⟨120, 1⟩, true⟩

/-- A cap of the whole machine, and one of a window that is only prepared. -/
theorem rollback_restores_caps_twoSockets :
    ∃ rp u, (getRollbackPoint twoSockets).run evenCaps = .ok rp evenCaps ∧
      (rollback twoSockets rp).run (trace (setCap twoSockets) evenCaps
        [(COUNTER_CPUS, .machine ⟨80, 2, false⟩),
          (COUNTER_MEMORY, .window 1 0 ⟨30, 1, true⟩)]).2 = .ok () u ∧
      u 1 RAPLCAP_ZONE_PACKAGE = evenCaps 1 RAPLCAP_ZONE_PACKAGE := by
  obtain ⟨rp, hrun, hall⟩ := rollback_restores_caps twoSockets_stores evenCaps
  obtain ⟨u, hroll, hcaps⟩ := hall [(COUNTER_CPUS, .machine ⟨80, 2, false⟩),
    (COUNTER_MEMORY, .window 1 0 ⟨30, 1, true⟩)]
  have hpc : powerCappers twoSockets COUNTER_CPUS = some ⟨RAPLCAP_ZONE_PACKAGE, 2⟩ := rfl
  exact ⟨rp, u, hrun, hroll, (hcaps _ _ hpc).1 1 (by decide)⟩

end Mammut.Energy
