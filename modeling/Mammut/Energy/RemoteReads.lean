import Mammut.Energy.Moments
import Mammut.Energy.MsrRuns
import Mammut.Energy.Refresher
import Mammut.Energy.Remote

/-! What a client reads over the network of the energy that the CPUs of the server consume: the
server reads every zone of every CPU, one after the other, and the client looks up its own. -/

namespace Mammut.Energy

open CounterTypePb CounterCommand Kit Kit.Lockstep Kit.Programs Kit.Runs Service
open Kit.Meters hiding Follows

variable {γ Env ω : Type}

variable {I : CounterCpus γ Env} {G : Gauge Env} {R : Zone → ℕ} {holds : Bank Zone → γ → Prop}
  {env : Env} {E : Zone → ℕ} {w w' w'' : World γ}

section Pass

variable (M : Metered I G holds) (hR : ∀ z, G.zones z → R z = G.modulus)

include M hR

/-- The run lemma of the pass. -/
theorem results_sameMoment {l : List CpuId} (hl : ∀ id ∈ l, id ∈ ids G.cpus)
    (h : InStep G R holds w) (well : AllReadWell G R w.tally env E) :
    ∃ w', (l.mapM fun id => do
        return (⟨UInt32.ofNat id, ← getJoulesComponents (I.getJoules env) id⟩ : CpuResults)).run
          w.counter =
        .ok (l.map fun id => ⟨UInt32.ofNat id, G.joulesCpu w.tally E id⟩) w'.counter ∧
      SameMoment I G R holds env E w w' := by
  induction l generalizing w with
  | nil => exact ⟨w, rfl, .refl h⟩
  | cons id l ih =>
    obtain ⟨w₁, hfirst, h₁⟩ := getJoulesComponents_sameMoment M hR h (hl id List.mem_cons_self) well
    obtain ⟨w₂, hrest, h₂⟩ := ih (fun i hi => hl i (List.mem_cons_of_mem _ hi)) h₁.inStep
      (h₁.allReadWell well)
    simp only [h₁.joulesCpu_eq] at hrest
    refine ⟨w₂, ?_, h₁.trans h₂⟩
    simp only [List.mapM_cons, EStateM.run_bind, hfirst, EStateM.run_pure, hrest, List.map_cons]

end Pass

/-! ### What the client looks up -/

variable {F : CpuId → JoulesCpu} {l : List CpuId} {id : CpuId}

theorem ofNat_ne {i : CpuId} (hi : i < 2 ^ 32) (hid : id < 2 ^ 32) (hne : i ≠ id) :
    UInt32.ofNat i ≠ UInt32.ofNat id := by
  intro h
  apply hne
  have htoNat := congrArg UInt32.toNat h
  rwa [UInt32.toNat_ofNat_of_lt' hi, UInt32.toNat_ofNat_of_lt' hid] at htoNat

theorem foldl_resultOf (hl : ∀ i ∈ l, i < 2 ^ 32) (hid : id < 2 ^ 32) (jc : JoulesCpu) :
    (l.map fun i => (⟨UInt32.ofNat i, F i⟩ : CpuResults)).foldl
        (fun jc r => if r.cpuid = UInt32.ofNat id then r.joules else jc) jc =
      if id ∈ l then F id else jc := by
  induction l generalizing jc with
  | nil => rfl
  | cons i l ih =>
    have htail := ih fun j hj => hl j (List.mem_cons_of_mem _ hj)
    simp only [List.map_cons, List.foldl_cons, htail]
    by_cases hi : i = id
    · simp [hi]
    · have hne := ofNat_ne (hl i List.mem_cons_self) hid hi
      simp [hne, Ne.symm hi]

theorem resultOf_results (hl : ∀ i ∈ l, i < 2 ^ 32) (hid : id ∈ l) :
    resultOf id (l.map fun i => ⟨UInt32.ofNat i, F i⟩) = F id := by
  rw [resultOf, foldl_resultOf hl (hl id hid), if_pos hid]

theorem get_add (j k : JoulesCpu) (d : Domain) : (j.add k).get d = j.get d + k.get d := by
  cases d <;> rfl

theorem sumOf_results (d : Domain) :
    (sumOf (l.map fun i => ⟨UInt32.ofNat i, F i⟩)).get d = (l.map fun i => (F i).get d).sum := by
  have hfold (jc : JoulesCpu) : ((l.map fun i => (⟨UInt32.ofNat i, F i⟩ : CpuResults)).foldl
      (fun jc r => jc.add r.joules) jc).get d = jc.get d + (l.map fun i => (F i).get d).sum := by
    induction l generalizing jc with
    | nil => simp
    | cons i l ih =>
      simp only [List.map_cons, List.foldl_cons, ih, get_add, List.sum_cons, add_assoc]
  rw [sumOf, hfold, JoulesCpu.get_zero, zero_add]

/-! ### The requests of the reads -/

section Requests

variable {proto : Protobuf CounterReq CounterRes}
  {moduleDispatcher : String → Option (Module (CounterCpusLinux γ × ω))}

/-- The state of a server whose counter is in state `c`. -/
def serverOf (cc : CounterCpusLinux γ) (rest : ω) (c : γ) : CounterCpusLinux γ × ω :=
  (cc.setCounter c, rest)

/-- The results of the CPUs, as their counter computes them. -/
def resultsOf (I : CounterCpus γ Env) (cpus : List Cpu) (env : Env) : Call γ (List CpuResults) :=
  (ids cpus).mapM fun id => do
    return ⟨UInt32.ofNat id, ← getJoulesComponents (I.getJoules env) id⟩

theorem serve_get_follows (I : CpusClass γ Env) (cpus : List Cpu)
    (plug memory : Option (Service.Counter ω)) (dev now : Env) (cc : CounterCpusLinux γ) (rest : ω)
    (c : γ) :
    Follows (serverOf cc rest) c
      ((EnergyServer.counters I cpus plug memory dev now).serve
        ⟨COUNTER_TYPE_PB_CPUS, none, COUNTER_COMMAND_GET⟩)
      (do return some (.counterResGetCpu (← resultsOf I.toCounterCpus cpus now))) := by
  have hcomponents (id : CpuId) (c : γ) : Follows (serverOf cc rest) c
      (onFst (CounterCpusLinux.onCounter (getJoulesComponents (I.getJoules now) id)))
      (getJoulesComponents (I.getJoules now) id) := by
    unfold Follows
    have hcounter : (serverOf cc rest c).1.counter = c := rfl
    rw [run_onFst, CounterCpusLinux.onCounter, run_focus, hcounter]
    cases (getJoulesComponents (I.getJoules now) id).run c <;> rfl
  have hresults := follows_mapM (fun id c => (hcomponents id c).bind fun jc t _ =>
    follows_pure (a := (⟨UInt32.ofNat id, jc⟩ : CpuResults))) (ids cpus) c
  exact hresults.bind fun _ _ _ => follows_pure

/-- The answer to a request for the joules of the CPUs, as the client reads it. -/
theorem getResults_follows {I : CpusClass γ Env} {cpus : List Cpu}
    {plug memory : Option (Service.Counter ω)} {dev now : Env} (cc : CounterCpusLinux γ) (rest : ω)
    {c c' : γ} {results : List CpuResults}
    (hactivated : moduleDispatcher "energy" =
      some ((EnergyServer.counters I cpus plug memory dev now).processMessage proto))
    (hasks : proto.Asks schema ⟨COUNTER_TYPE_PB_CPUS, none, COUNTER_COMMAND_GET⟩)
    (hrun : (resultsOf I.toCounterCpus cpus now).run c = .ok results c')
    (hcarries : proto.Carries schema (.counterResGetCpu results)) :
    (CounterCpusRemote.getResults proto moduleDispatcher).run ⟨serverOf cc rest c, true⟩ =
      .ok results ⟨serverOf cc rest c', true⟩ := by
  have hmodule : Follows (serverOf cc rest) c
      ((EnergyServer.counters I cpus plug memory dev now).processMessage proto
        (schema.requestName ⟨COUNTER_TYPE_PB_CPUS, none, COUNTER_COMMAND_GET⟩)
        (proto.serializeRequest ⟨COUNTER_TYPE_PB_CPUS, none, COUNTER_COMMAND_GET⟩))
      (do return setMessageFromData proto schema (.counterResGetCpu
        (← resultsOf I.toCounterCpus cpus now))) := by
    have hserve := serve_get_follows I cpus plug memory dev now cc rest c
    have hparse : proto.parseRequest _ _ = _ := hasks
    unfold Follows at hserve ⊢
    rw [EStateM.run_bind, hrun] at hserve ⊢
    rw [Service.Counters.processMessage, hparse]
    simp only [EStateM.run_bind, hserve]
    rfl
  have hfollows : Follows (fun c => ⟨serverOf cc rest c, true⟩) c
      (CounterCpusRemote.getResults proto moduleDispatcher)
      (do return id (← resultsOf I.toCounterCpus cpus now)) :=
    remoteCall_follows (moduleName_request _) hactivated hmodule (fun _ => rfl) (by decide +kernel)
      (fun _ => rfl) (orderly_at_of_ok hrun) fun b t h => by
        cases hrun.symm.trans h
        exact hcarries
  unfold Follows at hfollows
  rw [EStateM.run_bind, hrun] at hfollows
  exact hfollows

/-- The reads of a client find in every zone what it has consumed since its last reset, and leave
the server where reads of its own would leave it. -/
theorem Metered.remote_reads {I : CpusClass γ Env} {cpus : List Cpu}
    {plug memory : Option (Service.Counter ω)} {dev : Env} (cc : CounterCpusLinux γ) (rest : ω)
    (M : Metered I.toCounterCpus G holds) (hR : ∀ z, G.zones z → R z = G.modulus)
    (hcpus : G.cpus = cpus) (hids : ∀ id ∈ ids cpus, id < 2 ^ 32) (h : InStep G R holds w)
    (well : AllReadWell G R w.tally env E)
    (hactivated : moduleDispatcher "energy" =
      some ((EnergyServer.counters I cpus plug memory dev env).processMessage proto))
    (hasks : proto.Asks schema ⟨COUNTER_TYPE_PB_CPUS, none, COUNTER_COMMAND_GET⟩)
    (hcarries : proto.Carries schema (.counterResGetCpu
      ((ids cpus).map fun id => ⟨UInt32.ofNat id, G.joulesCpu w.tally E id⟩))) :
    ∃ w', SameMoment I.toCounterCpus G R holds env E w w' ∧
      (∀ d, ∀ id ∈ ids cpus, (CounterCpusRemote.getJoules proto moduleDispatcher d id).run
          ⟨serverOf cc rest w.counter, true⟩ =
        .ok (G.joules w.tally E (d, id)) ⟨serverOf cc rest w'.counter, true⟩) ∧
      ∀ d, (CounterCpusRemote.getJoulesSum proto moduleDispatcher d).run
          ⟨serverOf cc rest w.counter, true⟩ =
        .ok ((ids cpus).map fun id => G.joules w.tally E (d, id)).sum
          ⟨serverOf cc rest w'.counter, true⟩ := by
  subst hcpus
  obtain ⟨w', hrun, hmoment⟩ := results_sameMoment M hR (fun _ hid => hid) h well
  have hresults := getResults_follows cc rest hactivated hasks hrun hcarries
  refine ⟨w', hmoment, fun d id hid => ?_, fun d => ?_⟩
  · simp only [CounterCpusRemote.getJoules, CounterCpusRemote.getJoulesComponents,
      EStateM.run_bind, hresults, EStateM.run_pure, resultOf_results hids hid, Gauge.get_joulesCpu]
  · simp only [CounterCpusRemote.getJoulesSum, CounterCpusRemote.getJoulesComponentsSum,
      EStateM.run_bind, hresults, EStateM.run_pure, sumOf_results, Gauge.get_joulesCpu]

end Requests

namespace CounterCpusLinuxMsr

theorem init_gauge_cpus {cpus : List Cpu} {f : CpuFamily} {dev now : Device}
    {c : CounterCpusLinuxMsr} (hids : Contiguous cpus)
    (hinit : (init dev now).run (.new cpus f) = .ok true c) : c.gauge.cpus = cpus := by
  have hnodup : (ids cpus).Nodup := hids.nodup_iff.mpr List.nodup_range
  obtain ⟨c1, c0, hcpus, halloc, hreset⟩ := init_true hnodup hinit
  have hcpus0 : c0.cpus = cpus := halloc.cpus.trans hcpus
  have hids0 : Contiguous c0.cpus := by rw [hcpus0]; exact hids
  have hrep := ((reset_triple now halloc.configured hids0).ok_of halloc.represents hreset).1
  rw [hrep.gauge_eq]
  exact hcpus0

/-- In every run after a successful `init`, what a client reads over the network of a domain of a
CPU, or of a domain of all CPUs, is the energy consumed since the last reset. -/
theorem remote_reads_exact {cpus : List Cpu} {f : CpuFamily} {dev now env : Device}
    {c : CounterCpusLinuxMsr} {E₀ E : Zone → ℕ} {events : List (Event Device)}
    {w : World CounterCpusLinuxMsr} {proto : Protobuf CounterReq CounterRes}
    {moduleDispatcher : String → Option (Module (CounterCpusLinux CounterCpusLinuxMsr × ω))}
    {plug memory : Option (Service.Counter ω)} (cc : CounterCpusLinux CounterCpusLinuxMsr)
    (rest : ω) (hids : Contiguous cpus) (hfit : cpus.length ≤ 2 ^ 32)
    (hinit : (init dev now).run (.new cpus f) = .ok true c)
    (hshows : c.gauge.Shows (fun _ => 2 ^ 32) now c.gauge.zones E₀)
    (hrun : Run (Step methods c.gauge fun _ => 2 ^ 32) ⟨c, Tally.start E₀, []⟩ events w)
    (well : AllReadWell c.gauge (fun _ => 2 ^ 32) w.tally env E)
    (hactivated : moduleDispatcher "energy" =
      some ((EnergyServer.counters cpusClass cpus plug memory dev env).processMessage proto))
    (hasks : proto.Asks schema ⟨COUNTER_TYPE_PB_CPUS, none, COUNTER_COMMAND_GET⟩)
    (hcarries : proto.Carries schema (.counterResGetCpu
      ((ids cpus).map fun id => ⟨UInt32.ofNat id, c.gauge.joulesCpu w.tally E id⟩))) :
    ∃ events' w', Run (Step methods c.gauge fun _ => 2 ^ 32) w events' w' ∧
      w'.tally.atReset = w.tally.atReset ∧
      (∀ d, ∀ id ∈ ids cpus, (CounterCpusRemote.getJoules proto moduleDispatcher d id).run
          ⟨serverOf cc rest w.counter, true⟩ =
        .ok (if c.present d then ((E (d, id) : ℚ) - w.tally.atReset (d, id)) * c.energyPerUnit
          else 0) ⟨serverOf cc rest w'.counter, true⟩) ∧
      ∀ d, (CounterCpusRemote.getJoulesSum proto moduleDispatcher d).run
          ⟨serverOf cc rest w.counter, true⟩ =
        .ok ((ids cpus).map fun id =>
          if c.present d then ((E (d, id) : ℚ) - w.tally.atReset (d, id)) * c.energyPerUnit
          else 0).sum ⟨serverOf cc rest w'.counter, true⟩ := by
  obtain ⟨holds, M, hstart⟩ := init_inStep hids hinit hshows
  have hguarded : Run (Guarded (CorrectedStep c.gauge fun _ => 2 ^ 32)
      (Step methods c.gauge fun _ => 2 ^ 32)) ⟨c, Tally.start E₀, []⟩ events w :=
    hrun.mono fun w e w' hstep => ⟨correctedStep_of_modulus (fun _ _ => rfl) w e, hstep⟩
  have hlt : ∀ id ∈ ids cpus, id < 2 ^ 32 := fun id hid =>
    (List.mem_range.mp (hids.mem_iff.mp hid)).trans_le hfit
  obtain ⟨w', hmoment, hreads, hsums⟩ := Metered.remote_reads (I := cpusClass) cc rest M
    (fun _ _ => rfl) (init_gauge_cpus hids hinit) hlt (M.run_inStep hstart hguarded) well
    hactivated hasks hcarries
  obtain ⟨events', run⟩ := hmoment.run
  exact ⟨events', w', run, hmoment.atReset, hreads, hsums⟩

/-- A server of one CPU. -/
def oneCpuModules (moduleId : String) :
    Option (Module (CounterCpusLinux CounterCpusLinuxMsr × Unit)) :=
  if moduleId = "energy" then
    some ((EnergyServer.counters cpusClass oneCpu none none (packageOnly 7)
      (packageOnly 16)).processMessage proto2)
  else none

/-- A client that reads a register of the server that has wrapped since its reset. -/
theorem remote_reads_exact_oneCpu : ∃ c',
    (CounterCpusRemote.getJoules proto2 oneCpuModules .cpu 0).run
        ⟨serverOf (.new oneCpuInit) () oneCpuInit, true⟩ =
      .ok (32 * oneCpuInit.energyPerUnit) ⟨serverOf (.new oneCpuInit) () c', true⟩ := by
  have hinit : (init (packageOnly 7) (packageOnly 4294967280)).run
      (.new oneCpu .CPU_FAMILY_AMD) = .ok true oneCpuInit := rfl
  have hsendable : (CounterRes.counterResGetCpu ((ids oneCpu).map fun id =>
      ⟨UInt32.ofNat id, oneCpuInit.gauge.joulesCpu (Tally.start fun _ => 4294967280)
        (fun _ => 4294967312) id⟩)).Sendable := by
    intro r hr d
    obtain rfl := List.mem_singleton.mp hr
    cases d with
    | cpu => exact ⟨Binary64.bits (1 / 512), by decide +kernel, by decide +kernel⟩
    | _ => exact ⟨0, by norm_num, by decide +kernel⟩
  have hactivated : oneCpuModules "energy" = some ((EnergyServer.counters cpusClass oneCpu none none
      (packageOnly 7) (packageOnly 16)).processMessage proto2) := rfl
  obtain ⟨_, w', -, -, hreads, -⟩ := remote_reads_exact (.new oneCpuInit) ()
    oneCpu_contiguous (by decide) hinit (oneCpuInit_shows 4294967280 _ rfl (by norm_num)) .nil
    oneCpuInit_allReadWell hactivated (proto2_asks _) (proto2_carries hsendable)
  refine ⟨w'.counter, (hreads .cpu 0 (by decide)).trans ?_⟩
  norm_num [Tally.start, present]

end CounterCpusLinuxMsr

end Mammut.Energy
