import Mammut.Cpufreq.Codec
import Mammut.Cpufreq.Endings
import Mammut.Cpufreq.Remote
import Mammut.Cpufreq.Rollback
import Mammut.Cpufreq.Service

/-! A `DomainRemote` against the `DomainLinux` that it stands for: what the requests of each call
do on the server, and when a call on the one agrees with the call on the other. -/

namespace Mammut.Cpufreq

open DomainLinux CpuFreq Governor Kit.Lockstep Kit.Programs Utils

variable {σ α β γ : Type} {sys : System σ} {proto : Protobuf Request Response}
  {moduleDispatcher : String → Option (Module (CpuFreqLinux σ))}

/-- The names of the requests. -/
def requestNames : List String :=
  ["GetDomains", "IsBoostingSupported", "RemoveTurboFrequencies", "RemoveTurboFrequenciesDomain",
    "ReinsertTurboFrequencies", "ReinsertTurboFrequenciesDomain", "IsBoostingEnabled",
    "EnableBoosting", "DisableBoosting", "GetAvailableFrequencies", "GetAvailableGovernors",
    "GetCurrentFrequency", "GetCurrentGovernor", "ChangeFrequency", "GetHardwareFrequencyBounds",
    "GetGovernorBounds", "ChangeFrequencyBounds", "ChangeGovernor", "GetTransitionLatency",
    "GetCurrentVoltage"]

theorem moduleName_request (r : Request) (s : σ) :
    (getModuleNameFromMessageId (schema.requestName r)).run s = .ok "cpufreq" s := by
  have hplain : ∀ name ∈ requestNames, '.' ∉ name.toList ∧ name.toList ≠ [] := by decide +kernel
  have hname : ∀ name ∈ requestNames, split (messageName name) '.' = ["mammut", "cpufreq", name] :=
    fun name hmem => split_three (by simp [messageName_eq]) (by decide) (by decide) (hplain name hmem).1
      (hplain name hmem).2
  have hmem : r.name ∈ requestNames := by cases r <;> simp [Request.name, requestNames]
  simp [getModuleNameFromMessageId, schema, hname r.name hmem]

/-- The server has the module, and protobuf does its work. -/
structure Serves (sys : System σ) (proto : Protobuf Request Response)
    (moduleDispatcher : String → Option (Module (CpuFreqLinux σ))) : Prop where
  activated : moduleDispatcher "cpufreq" = some (processMessage sys proto)
  lawful : proto.Lawful schema

theorem process_run (h : Serves sys proto moduleDispatcher) (r : Request) (s : CpuFreqLinux σ) :
    (Servant.process moduleDispatcher (schema.requestName r) (proto.serializeRequest r)).run s =
      match (serve sys r).run s with
      | .ok res t => .ok (schema.responseName res, (proto.serializeResponse res).getD "") t
      | .error e t => .error e t := by
  rw [Servant.process, EStateM.run_bind, moduleName_request]
  simp only [h.activated, processMessage, h.lawful.request, EStateM.run_bind]
  cases (serve sys r).run s with
  | error e t => rfl
  | ok res t =>
    obtain ⟨text, htext, -⟩ := h.lawful.response res
    simp [setMessageFromData, htext]

theorem request_ok (h : Serves sys proto moduleDispatcher) {r : Request} {res : Response}
    {s t : CpuFreqLinux σ} {expected : Expected Response α} {a : α}
    (hserve : (serve sys r).run s = .ok res t) (hname : expected.name = schema.responseName res)
    (hread : expected.read res = some a) :
    (DomainRemote.request proto moduleDispatcher r expected).run ⟨s, true⟩ = .ok a ⟨t, true⟩ := by
  obtain ⟨text, htext, hparse⟩ := h.lawful.response res
  have hprocess := process_run h r s
  simp only [hserve, htext, Option.getD_some] at hprocess
  have hnonempty : schema.responseName res ≠ "" := by simp [schema, messageName_eq]
  have hread' : readResponse proto expected (some (schema.responseName res, text)) = .ok a := by
    rw [readResponse, if_neg hnonempty, hname, if_neg (not_not.mpr rfl), hparse, Option.bind_some,
      hread]
  exact remoteCall_run_ok hprocess hread'

theorem request_error (h : Serves sys proto moduleDispatcher) {r : Request}
    {s t : CpuFreqLinux σ} {expected : Expected Response α} {what : String}
    (hserve : (serve sys r).run s = .error (.runtimeError what) t) :
    (DomainRemote.request proto moduleDispatcher r expected).run ⟨s, true⟩ =
      .error (.runtimeError what) ⟨t, true⟩ := by
  have hprocess := process_run h r s
  simp only [hserve] at hprocess
  exact remoteCall_run_error hprocess

/-- The session of a client of a server whose domain `i` is the first part of `s`. -/
def session (domains : List DomainLinux) (i : ℕ) (s : DomainLinux × σ) :
    Session (CpuFreqLinux σ) :=
  ⟨(domains.set i s.1, s.2), true⟩

variable {domains : List DomainLinux}

theorem onDomain_run {i : ℕ} (hi : i < domains.length) (call : Call (DomainLinux × σ) α)
    (s : DomainLinux × σ) :
    (onDomain i call).run (domains.set i s.1, s.2) =
      mapState (fun t => (domains.set i t.1, t.2)) (call.run s) := by
  have hat : (domains.set i s.1)[i]? = some s.1 := by simp [hi]
  rw [onDomain_run_of_some hat]
  cases call.run s <;> simp

/-- A request that the server answers with a call on the domain. -/
theorem request_follows (h : Serves sys proto moduleDispatcher) {id : DomainId}
    (hid : id.toNat < domains.length) {r : Request} {expected : Expected Response α}
    {call : Call (DomainLinux × σ) β} {encode : β → Response} {decode : α → γ} {value : β → γ}
    {s : DomainLinux × σ} (hserve : serve sys r = do return encode (← onDomain id.toNat call))
    (hname : ∀ b, expected.name = schema.responseName (encode b))
    (hread : ∀ b, (expected.read (encode b)).map decode = some (value b))
    (hends : Orderly (· = s) call) :
    Follows (session domains id.toNat) s
      (do return decode (← DomainRemote.request proto moduleDispatcher r expected))
      (do return value (← call)) := by
  have hrun : (serve sys r).run (domains.set id.toNat s.1, s.2) =
      match mapState (fun t => (domains.set id.toNat t.1, t.2)) (call.run s) with
      | .ok b t => .ok (encode b) t
      | .error e t => .error e t := by
    rw [hserve, EStateM.run_bind, onDomain_run hid]
    cases call.run s <;> rfl
  unfold Follows
  rw [EStateM.run_bind, EStateM.run_bind]
  obtain ⟨b, t, hcall⟩ | ⟨what, t, hcall⟩ := hends.ends rfl
  · obtain ⟨a, ha, hvalue⟩ := Option.map_eq_some_iff.mp (hread b)
    rw [hcall] at hrun ⊢
    rw [session, request_ok h hrun (hname b) ha]
    exact congrArg (EStateM.Result.ok · _) hvalue
  · rw [hcall] at hrun ⊢
    rw [session, request_error h hrun]
    rfl

/-- When a call on a `DomainRemote` that has cached these frequencies does on the server what it
does on the domain itself. -/
def Agrees (sys : System σ) (cached : List Frequency) (s : DomainLinux × σ) : DomainCall → Prop
  | .removeTurboFrequencies => s.1.RemovesInOrder
  | .reinsertTurboFrequencies => s.1.turboFrequencies = [] ∧
      ∀ f ∈ s.1.availableFrequencies, ∃ c, (frequencyToString f).toList[3]? = some c ∧ c ≠ '1'
  | .getAvailableFrequencies => cached = s.1.availableFrequencies
  | .setHighestFrequencyUserspace => cached.getLast? = s.1.availableFrequencies.getLast?
  | .setLowestFrequencyUserspace => cached.head? = s.1.availableFrequencies.head?
  | .getCurrentFrequencyUserspace => s.1.PstateKnown sys s.2
  | _ => True

/-- Both calls send the request to remove the frequencies. -/
theorem removal_follows (h : Serves sys proto moduleDispatcher) {r : DomainRemote}
    (hid : r.getId.toNat < domains.length) {s : DomainLinux × σ} (hs : s.1.RemovesInOrder)
    {c : DomainCall} (hc : c = .removeTurboFrequencies ∨ c = .reinsertTurboFrequencies) :
    Follows (session domains r.getId.toNat) s (r.call proto moduleDispatcher c)
      (DomainLinux.call sys .removeTurboFrequencies) := by
  obtain ⟨e, he⟩ := removeTurboFrequencies_returns hs
  have hends : Orderly (· = s) (onFst removeTurboFrequencies : Call (DomainLinux × σ) Unit) := by
    rintro _ rfl
    rw [run_onFst, he]
    trivial
  obtain rfl | rfl := hc <;>
    exact request_follows h hid rfl (fun _ => rfl) (fun _ => rfl) hends

/-- Without turbo frequencies on the domain, the request to remove them changes as little as
reinserting them would. -/
theorem reinsert_follows (h : Serves sys proto moduleDispatcher) {r : DomainRemote}
    (hid : r.getId.toNat < domains.length) {s : DomainLinux × σ}
    (hturbo : s.1.turboFrequencies = [])
    (hnone : ∀ f ∈ s.1.availableFrequencies,
      ∃ c, (frequencyToString f).toList[3]? = some c ∧ c ≠ '1') :
    Follows (session domains r.getId.toNat) s
      (r.call proto moduleDispatcher .reinsertTurboFrequencies)
      (DomainLinux.call sys .reinsertTurboFrequencies) := by
  have hremoves : s.1.RemovesInOrder := by
    intro _ f hf hshort
    obtain ⟨c, hc, -⟩ := hnone f hf
    rw [hshort] at hc
    cases hc
  have hremove : removeTurboFrequencies.run s.1 = .ok () s.1 := by
    rw [removeTurboFrequencies, EStateM.run_bind, EStateM.run_get]
    exact (congrArg (EStateM.run · s.1) (if_pos hturbo)).trans
      (removeTurboLoop_unchanged hnone s.1)
  have hinsert : reinsertTurboFrequencies.run s.1 = .ok () s.1 := by
    show EStateM.Result.ok ()
      { s.1 with
        availableFrequencies := s.1.availableFrequencies ++ s.1.turboFrequencies
        turboFrequencies := [] } = _
    rw [hturbo, List.append_nil, ← hturbo]
  apply (removal_follows h hid hremoves (.inr rfl)).congr
  simp only [DomainLinux.call, EStateM.run_bind, run_onFst, hremove, hinsert]

theorem call_follows (h : Serves sys proto moduleDispatcher) {r : DomainRemote}
    (hid : r.getId.toNat < domains.length) {s : DomainLinux × σ} (hs : s.1.WellFormed)
    (c : DomainCall) (hc : Agrees sys r.availableFrequencies s c) :
    Follows (session domains r.getId.toNat) s (r.call proto moduleDispatcher c)
      (DomainLinux.call sys c) := by
  have orderly {β : Type} {k : DomainLinux → Call σ β} (hk : EndsOrderly (k s.1)) :
      Orderly (· = s) (onSystem k) :=
    onSystem_ends_iff.mpr (orderly_mono hk fun _ _ => trivial)
  have constant {β : Type} (f : DomainLinux → β) :
      Orderly (· = s) (onSystem (return f ·) : Call (DomainLinux × σ) β) := orderly orderly_pure
  have set (f : Frequency) : Follows (session domains r.getId.toNat) s
      (do return Value.result (← r.setFrequencyUserspace proto moduleDispatcher f))
      (do return Value.result (← onSystem (·.setFrequencyUserspace sys f))) :=
    request_follows h hid rfl (fun _ => rfl) (fun _ => rfl)
      (orderly (setFrequencyUserspace_ends hs f))
  -- Which frequency is the highest or the lowest does not depend on the system.
  have chosen {k : DomainLinux → Call σ Bool} {y : Call σ Bool}
      {x : Call (Session (CpuFreqLinux σ)) Value} (hk : k s.1 = y)
      (hx : Follows (session domains r.getId.toNat) s x (do return Value.result (← onSnd y))) :
      Follows (session domains r.getId.toNat) s x (do return Value.result (← onSystem k)) := by
    subst hk
    exact hx.congr rfl
  cases c with
  | removeTurboFrequencies => exact removal_follows h hid hc (.inl rfl)
  | reinsertTurboFrequencies => exact reinsert_follows h hid hc.1 hc.2
  | getAvailableFrequencies =>
    have hcached : r.getAvailableFrequencies = s.1.getAvailableFrequencies := hc
    rw [DomainRemote.call, hcached]
    rfl
  | getAvailableGovernors =>
    simp only [DomainRemote.call, DomainRemote.getAvailableGovernors, bind_assoc, pure_bind]
    refine request_follows h hid rfl (fun _ => rfl) (fun gs => ?_) (constant _)
    simp [Expect.governors]
  | isGovernorAvailable g =>
    simp only [DomainRemote.call, DomainRemote.isGovernorAvailable,
      DomainRemote.getAvailableGovernors, bind_assoc, pure_bind]
    show Follows _ _ _ (do
      return Value.result (List.contains (← onSystem (return ·.getAvailableGovernors)) g))
    refine request_follows h hid rfl (fun _ => rfl) (fun gs => ?_) (constant _)
    simp [Expect.governors]
  | getCurrentFrequency =>
    exact request_follows h hid rfl (fun _ => rfl) (fun _ => rfl)
      (orderly (getCurrentFrequency_ends hs))
  | getCurrentFrequencyUserspace =>
    exact request_follows h hid rfl (fun _ => rfl) (fun _ => rfl)
      (onSystem_ends_iff.mpr ((getCurrentFrequencyUserspace_ends_iff hs).mpr hc))
  | getCurrentGovernor =>
    simp only [DomainRemote.call, DomainRemote.getCurrentGovernor, bind_assoc, pure_bind]
    refine request_follows h hid rfl (fun _ => rfl) (fun g => ?_)
      (orderly (getCurrentGovernor_ends hs))
    simp [Expect.currentGovernor]
  | setFrequencyUserspace f => exact set f
  | setHighestFrequencyUserspace =>
    have hcached : r.getAvailableFrequencies.getLast? = s.1.getAvailableFrequencies.getLast? := hc
    rw [DomainRemote.call, DomainRemote.setHighestFrequencyUserspace, hcached]
    cases hlast : s.1.getAvailableFrequencies.getLast? with
    | none =>
      have hnone : s.1.setHighestFrequencyUserspace sys = pure false := by
        rw [DomainLinux.setHighestFrequencyUserspace, hlast]
      exact chosen hnone (follows_pure.congr rfl)
    | some f =>
      have hsome : s.1.setHighestFrequencyUserspace sys = s.1.setFrequencyUserspace sys f := by
        rw [DomainLinux.setHighestFrequencyUserspace, hlast]
      exact chosen hsome ((set f).congr rfl)
  | setLowestFrequencyUserspace =>
    have hcached : r.getAvailableFrequencies.head? = s.1.getAvailableFrequencies.head? := hc
    rw [DomainRemote.call, DomainRemote.setLowestFrequencyUserspace, hcached]
    cases hhead : s.1.getAvailableFrequencies.head? with
    | none =>
      have hnone : s.1.setLowestFrequencyUserspace sys = pure false := by
        rw [DomainLinux.setLowestFrequencyUserspace, hhead]
      exact chosen hnone (follows_pure.congr rfl)
    | some f =>
      have hsome : s.1.setLowestFrequencyUserspace sys = s.1.setFrequencyUserspace sys f := by
        rw [DomainLinux.setLowestFrequencyUserspace, hhead]
      exact chosen hsome ((set f).congr rfl)
  | getHardwareFrequencyBounds =>
    exact request_follows h hid rfl (fun _ => rfl) (fun _ => rfl)
      (orderly (getHardwareFrequencyBounds_ends hs))
  | getCurrentGovernorBounds =>
    simp only [DomainRemote.call, DomainRemote.getCurrentGovernorBounds, bind_assoc, pure_bind]
    refine request_follows h hid rfl (fun bounds => ?_) (fun bounds => ?_)
      (orderly (getCurrentGovernorBounds_ends hs))
    · cases bounds <;> rfl
    · cases bounds <;> rfl
  | setGovernorBounds lb ub =>
    exact request_follows h hid rfl (fun _ => rfl) (fun _ => rfl)
      (orderly (setGovernorBounds_ends lb ub))
  | setGovernor g =>
    have hserve : serve sys (.changeGovernor r.getId g.toUInt32) = do
        return .result (← onDomain r.getId.toNat (onSystem (·.setGovernor sys g))) := by
      simp only [serve, Governor.ofUInt32_toUInt32]
    exact request_follows h hid hserve (fun _ => rfl) (fun _ => rfl)
      (orderly (setGovernor_ends hs g))

/-- The calls on a `DomainRemote` return and throw what the same calls on the domain do, and leave
the domain and the system of the server as these leave them, in every run whose calls all meet
`Agrees`. -/
theorem remote_agrees (h : Serves sys proto moduleDispatcher) (r : DomainRemote)
    {d : DomainLinux} (hd : domains[r.getId.toNat]? = some d) (hwell : d.WellFormed) (s : σ)
    (calls : List DomainCall)
    (along : Along (Agrees sys r.availableFrequencies) (DomainLinux.call sys) (d, s) calls) :
    trace (r.call proto moduleDispatcher) ⟨(domains, s), true⟩ calls =
      ((trace (DomainLinux.call sys) (d, s) calls).1,
        session domains r.getId.toNat (trace (DomainLinux.call sys) (d, s) calls).2) := by
  have hid : r.getId.toNat < domains.length := (List.getElem?_eq_some_iff.mp hd).1
  have hstart : session domains r.getId.toNat (d, s) = ⟨(domains, s), true⟩ := by
    rw [session, set_of_getElem? hd]
  rw [← hstart]
  refine trace_follows (I := fun s => s.1.WellFormed) (fun s c hs hc => ?_) (fun s c hs => ?_)
    hwell calls along
  · exact call_follows h hid hs c hc
  · exact hs.congr (after_of_keeps (call_hardware sys c) rfl)

/-- The dispatcher of a server that has only this module. -/
def cpufreqOnly (sys : System σ) (proto : Protobuf Request Response) (moduleId : String) :
    Option (Module (CpuFreqLinux σ)) :=
  if moduleId = "cpufreq" then some (processMessage sys proto) else none

theorem cpufreqOnly_serves (hlawful : proto.Lawful schema) :
    Serves sys proto (cpufreqOnly sys proto) := ⟨rfl, hlawful⟩

/-- A domain with a turbo frequency. -/
def turboDomain : DomainLinux :=
  { oneDomain with availableFrequencies := [1200000, 2400000, 2401000] }

/-- The remote of `turboDomain`. -/
def turboRemote : DomainRemote := ⟨0, [1200000, 2400000, 2401000]⟩

theorem remote_agrees_turboRemote :
    trace (turboRemote.call proto2 (cpufreqOnly (Cells.system GOVERNOR_NUM 0) proto2))
        ⟨([turboDomain], slow), true⟩ [.setGovernor GOVERNOR_ONDEMAND, .getCurrentGovernor] =
      ((trace (DomainLinux.call (Cells.system GOVERNOR_NUM 0)) (turboDomain, slow)
          [.setGovernor GOVERNOR_ONDEMAND, .getCurrentGovernor]).1,
        session [turboDomain] 0 (trace (DomainLinux.call (Cells.system GOVERNOR_NUM 0))
          (turboDomain, slow) [.setGovernor GOVERNOR_ONDEMAND, .getCurrentGovernor]).2) :=
  remote_agrees (cpufreqOnly_serves proto2_lawful) turboRemote rfl
    ⟨fun _ => by decide, by decide⟩ slow _ ⟨trivial, trivial, trivial⟩

/-- What is left of `turboDomain` without its turbo frequency. -/
def turboRemoved : DomainLinux :=
  { turboDomain with availableFrequencies := [1200000, 2400000], turboFrequencies := [2401000] }

theorem turboDomain_remove : (DomainLinux.call (Cells.system GOVERNOR_NUM 0)
    .removeTurboFrequencies).run (turboDomain, slow) = .ok .unit (turboRemoved, slow) := rfl

theorem turboRemoved_remove : (DomainLinux.call (Cells.system GOVERNOR_NUM 0)
    .removeTurboFrequencies).run (turboRemoved, slow) = .ok .unit (turboRemoved, slow) := rfl

/-- Turbo frequencies that were removed are not reinserted. -/
theorem turbo_not_reinserted :
    (DomainRemote.new proto2 (cpufreqOnly (Cells.system GOVERNOR_NUM 0) proto2) 0).run
        ⟨([turboDomain], slow), true⟩ = .ok turboRemote ⟨([turboDomain], slow), true⟩ ∧
    (trace (turboRemote.call proto2 (cpufreqOnly (Cells.system GOVERNOR_NUM 0) proto2))
        ⟨([turboDomain], slow), true⟩
        [.removeTurboFrequencies, .reinsertTurboFrequencies]).2.server.1 = [turboRemoved] ∧
    (trace (DomainLinux.call (Cells.system GOVERNOR_NUM 0)) (turboDomain, slow)
        [.removeTurboFrequencies, .reinsertTurboFrequencies]).2.1 = turboDomain ∧
    turboRemoved ≠ turboDomain := by
  have hserves : Serves (Cells.system GOVERNOR_NUM 0) proto2
      (cpufreqOnly (Cells.system GOVERNOR_NUM 0) proto2) := cpufreqOnly_serves proto2_lawful
  have hid : turboRemote.getId.toNat < [turboDomain].length := by decide
  have hfirst : (turboRemote.call proto2 (cpufreqOnly (Cells.system GOVERNOR_NUM 0) proto2)
      .removeTurboFrequencies).run ⟨([turboDomain], slow), true⟩ =
        .ok .unit ⟨([turboRemoved], slow), true⟩ := by
    have hremoves : turboDomain.RemovesInOrder := by
      intro _ f hf
      rcases List.mem_cons.mp hf with rfl | hf
      · decide +kernel
      rcases List.mem_cons.mp hf with rfl | hf
      · decide +kernel
      obtain rfl := List.mem_singleton.mp hf
      decide +kernel
    have hfollows := removal_follows hserves hid (s := (turboDomain, slow)) hremoves (.inl rfl)
    rw [Follows, turboDomain_remove] at hfollows
    exact hfollows
  have hsecond : (turboRemote.call proto2 (cpufreqOnly (Cells.system GOVERNOR_NUM 0) proto2)
      .reinsertTurboFrequencies).run ⟨([turboRemoved], slow), true⟩ =
        .ok .unit ⟨([turboRemoved], slow), true⟩ := by
    have hremoves : turboRemoved.RemovesInOrder := fun hnil => by cases hnil
    have hfollows := removal_follows hserves hid (s := (turboRemoved, slow)) hremoves (.inr rfl)
    rw [Follows, turboRemoved_remove] at hfollows
    exact hfollows
  refine ⟨?_, ?_, rfl, by decide⟩
  · have hrequest : (DomainRemote.request proto2
        (cpufreqOnly (Cells.system GOVERNOR_NUM 0) proto2) (.getAvailableFrequencies 0)
        Expect.frequencies).run ⟨([turboDomain], slow), true⟩ =
          .ok [1200000, 2400000, 2401000] ⟨([turboDomain], slow), true⟩ :=
      request_ok hserves rfl rfl rfl
    rw [DomainRemote.new, EStateM.run_bind, hrequest]
    rfl
  · simp only [trace, hfirst, hsecond, final_ok]

end Mammut.Cpufreq
