import Mammut.Cpufreq.Endings
import Mammut.Cpufreq.Service

/-! Which requests `CpuFreq::processMessage` serves in order, and in which states of the domains. -/

namespace Mammut.Cpufreq.CpuFreq

open DomainLinux Kit.Programs

variable {σ α : Type} {sys : System σ} {s : CpuFreqLinux σ}

/-- The request can be served: it returns a response, or throws a `std::runtime_error`. -/
def Servable (sys : System σ) (s : CpuFreqLinux σ) : Request → Prop
  | .getDomains => s.1 = []
  | .removeTurboFrequencies => ∀ d ∈ s.1, d.RemovesInOrder
  | .removeTurboFrequenciesDomain id => ∃ d, s.1[id.toNat]? = some d ∧ d.RemovesInOrder
  | .getCurrentFrequency id userspace => ∃ d, s.1[id.toNat]? = some d ∧
      (userspace → d.PstateKnown sys s.2)
  | .getCurrentVoltage id => ∃ d, s.1[id.toNat]? = some d ∧
      Orderly (· = s.2) (d.getCurrentVoltage sys)
  | .reinsertTurboFrequenciesDomain id | .getAvailableFrequencies id | .getAvailableGovernors id
  | .getCurrentGovernor id | .changeFrequency id _ | .getHardwareFrequencyBounds id
  | .getGovernorBounds id | .changeFrequencyBounds id _ _ | .changeGovernor id _
  | .getTransitionLatency id => ∃ d, s.1[id.toNat]? = some d
  | .reinsertTurboFrequencies | .isBoostingSupported | .isBoostingEnabled | .enableBoosting
  | .disableBoosting => True

theorem onDomain_ends_iff {i : ℕ} {call : Call (DomainLinux × σ) α} :
    Orderly (· = s) (onDomain i call) ↔
      ∃ d, s.1[i]? = some d ∧ Orderly (· = (d, s.2)) call := by
  cases hd : s.1[i]? with
  | none =>
    simpa using not_orderly_at_of_error (onDomain_run_of_none hd call) fun _ => Exn.noConfusion
  | some d =>
    simp only [orderly_at_iff, onDomain_run_of_some hd, Option.some.injEq, exists_eq_left']
    cases call.run (d, s.2) <;> simp

theorem onDomain_onSystem_ends_iff {i : ℕ} {k : DomainLinux → Call σ α}
    (hk : ∀ d ∈ s.1, EndsOrderly (k d)) :
    Orderly (· = s) (onDomain i (onSystem k)) ↔ ∃ d, s.1[i]? = some d := by
  rw [onDomain_ends_iff]
  refine exists_congr fun d => and_iff_left_of_imp fun hd => ?_
  rw [onSystem_ends_iff]
  exact orderly_mono (hk d (List.mem_of_getElem? hd)) fun _ _ => trivial

/-- A function that some domains can execute, and that then returns. -/
structure Decides (op : Call DomainLinux Unit) (good : DomainLinux → Prop) : Prop where
  returns : ∀ d, good d → ∃ e, op.run d = .ok () e
  ends_badly : ∀ d, ¬good d → ¬Orderly (· = d) op

variable {op : Call DomainLinux Unit} {good : DomainLinux → Prop}

theorem onDomain_onFst_run (hop : Decides op good) {i : ℕ} {d : DomainLinux}
    (hd : s.1[i]? = some d) (hgood : good d) :
    ∃ e, (onDomain i (onFst op : Call (DomainLinux × σ) Unit)).run s = .ok () (s.1.set i e, s.2) := by
  obtain ⟨e, he⟩ := hop.returns d hgood
  exact ⟨e, by rw [onDomain_run_of_some hd, run_onFst, he]⟩

/-- The loop over some domains: each of them is as it was when its turn comes. -/
theorem forM_onDomain_ends_iff (hop : Decides op good) {l : List ℕ} (hnodup : l.Nodup)
    (s : CpuFreqLinux σ) :
    Orderly (· = s) (l.forM fun i => onDomain i (onFst op : Call (DomainLinux × σ) Unit)) ↔
      ∀ i ∈ l, ∃ d, s.1[i]? = some d ∧ good d := by
  induction l generalizing s with
  | nil => exact iff_of_true (fun _ _ => trivial) fun i hi => by cases hi
  | cons i l ih =>
    obtain ⟨hi, hl⟩ := List.nodup_cons.mp hnodup
    rw [List.forall_mem_cons]
    show Orderly _ (onDomain i (onFst op) >>= fun _ => l.forM fun i => onDomain i (onFst op)) ↔ _
    by_cases hfirst : ∃ d, s.1[i]? = some d ∧ good d
    · obtain ⟨d, hd, hgood⟩ := hfirst
      obtain ⟨e, he⟩ := onDomain_onFst_run hop hd hgood
      rw [orderly_at_bind he, ih hl, and_iff_right ⟨d, hd, hgood⟩]
      refine forall₂_congr fun j hj => ?_
      have hne : i ≠ j := fun hij => hi (hij ▸ hj)
      rw [List.getElem?_set_ne hne]
    · refine iff_of_false (not_orderly_at_bind fun hends => hfirst ?_) fun h => hfirst h.1
      obtain ⟨d, hd, hends⟩ := onDomain_ends_iff.mp hends
      refine ⟨d, hd, ?_⟩
      by_contra hbad
      exact hop.ends_badly d hbad (orderly_at_onFst.mp hends)

theorem onDomains_ends_iff (hop : Decides op good) :
    Orderly (· = s) (onDomains (onFst op : Call (DomainLinux × σ) Unit)) ↔ ∀ d ∈ s.1, good d := by
  have hget : (get : Call (CpuFreqLinux σ) _).run s = .ok s s := rfl
  rw [onDomains, orderly_at_bind hget, forM_onDomain_ends_iff hop List.nodup_range]
  constructor
  · intro h d hd
    obtain ⟨i, hi⟩ := List.mem_iff_getElem?.mp hd
    obtain ⟨hlt, -⟩ := List.getElem?_eq_some_iff.mp hi
    obtain ⟨d', hd', hgood⟩ := h i (List.mem_range.mpr hlt)
    rw [hi] at hd'
    exact Option.some.inj hd' ▸ hgood
  · intro h i hi
    have hlt := List.mem_range.mp hi
    exact ⟨s.1[i], List.getElem?_eq_getElem hlt, h _ (List.getElem_mem hlt)⟩

theorem removeTurboFrequencies_decides : Decides removeTurboFrequencies RemovesInOrder where
  returns _ := removeTurboFrequencies_returns
  ends_badly _ := mt removeTurboFrequencies_ends_iff.mp

theorem reinsertTurboFrequencies_decides : Decides reinsertTurboFrequencies fun _ => True where
  returns _ _ := ⟨_, rfl⟩
  ends_badly _ h := absurd trivial h

/-- The element that is set has never been added to the response. -/
theorem domainMessages_ends_iff {domains : List DomainLinux} :
    Orderly (· = s) (domainMessages domains : Call (CpuFreqLinux σ) _) ↔ domains = [] := by
  cases domains with
  | nil => exact iff_of_true (fun _ _ => trivial) rfl
  | cons d rest =>
    refine iff_of_false ?_ (List.cons_ne_nil _ _)
    exact not_orderly_at_of_error (e := .undefined) (t := s) rfl fun _ => Exn.noConfusion

theorem isBoostingEnabled_ends : EndsOrderly (isBoostingEnabled sys) := by
  refine orderly_bind (orderly_bind orderly_get fun _ => orderly_pure) fun supported => ?_
  cases supported with
  | false => exact orderly_pure
  | true => exact orderly_bind (readFirstLineFromFile_ends _) fun _ => orderly_pure

theorem writeBoosting_ends (line : String) : EndsOrderly (writeBoosting sys line) := by
  refine orderly_bind orderly_modifyGet fun _ => ?_
  split_ifs
  · exact orderly_throw
  · exact orderly_pure

/-- All the domains are as their constructor has made them. -/
def AllWellFormed (s : CpuFreqLinux σ) : Prop := ∀ d ∈ s.1, d.WellFormed

theorem serve_ends_iff (hwell : AllWellFormed s) (r : Request) :
    Orderly (· = s) (serve sys r) ↔ Servable sys s r := by
  have always {α : Type} {call : Call σ α} (h : EndsOrderly call) :
      Orderly (· = s) (onSnd call : Call (CpuFreqLinux σ) α) :=
    orderly_at_onSnd.mpr (orderly_mono h fun _ _ => trivial)
  cases r with
  | getDomains =>
    have hget : (get : Call (CpuFreqLinux σ) _).run s = .ok s s := rfl
    exact (orderly_at_bind hget).trans (orderly_at_map.trans domainMessages_ends_iff)
  | isBoostingSupported =>
    exact iff_of_true (orderly_at_map.mpr (always (orderly_bind orderly_get fun _ => orderly_pure)))
      trivial
  | removeTurboFrequencies =>
    exact orderly_at_map.trans (onDomains_ends_iff removeTurboFrequencies_decides)
  | removeTurboFrequenciesDomain id =>
    refine orderly_at_map.trans (onDomain_ends_iff.trans (exists_congr fun d => and_congr_right' ?_))
    exact orderly_at_onFst.trans removeTurboFrequencies_ends_iff
  | reinsertTurboFrequencies =>
    exact orderly_at_map.trans ((onDomains_ends_iff reinsertTurboFrequencies_decides).trans
      (iff_of_true (fun _ _ => trivial) trivial))
  | reinsertTurboFrequenciesDomain id =>
    refine orderly_at_map.trans (onDomain_ends_iff.trans (exists_congr fun d => ?_))
    exact and_iff_left (orderly_at_onFst.mpr (orderly_at_of_ok rfl))
  | isBoostingEnabled =>
    exact iff_of_true (orderly_at_map.mpr (always isBoostingEnabled_ends)) trivial
  | enableBoosting => exact iff_of_true (orderly_at_map.mpr (always (writeBoosting_ends _))) trivial
  | disableBoosting => exact iff_of_true (orderly_at_map.mpr (always (writeBoosting_ends _))) trivial
  | getAvailableFrequencies id =>
    exact orderly_at_map.trans (onDomain_onSystem_ends_iff fun _ _ => orderly_pure)
  | getAvailableGovernors id =>
    exact orderly_at_map.trans (onDomain_onSystem_ends_iff fun _ _ => orderly_pure)
  | getCurrentFrequency id userspace =>
    cases userspace with
    | false =>
      refine (orderly_at_map.trans (onDomain_onSystem_ends_iff fun d hd =>
        getCurrentFrequency_ends (hwell d hd))).trans (exists_congr fun d => ?_)
      exact (and_iff_left fun h => by cases h).symm
    | true =>
      refine orderly_at_map.trans (onDomain_ends_iff.trans (exists_congr fun d =>
        and_congr_right fun hd => ?_))
      have hd := hwell d (List.mem_of_getElem? hd)
      exact onSystem_ends_iff.trans ((getCurrentFrequencyUserspace_ends_iff hd).trans
        ⟨fun h _ => h, fun h => h rfl⟩)
  | getCurrentGovernor id =>
    exact orderly_at_map.trans
      (onDomain_onSystem_ends_iff fun d hd => getCurrentGovernor_ends (hwell d hd))
  | changeFrequency id f =>
    exact orderly_at_map.trans
      (onDomain_onSystem_ends_iff fun d hd => setFrequencyUserspace_ends (hwell d hd) f)
  | getHardwareFrequencyBounds id =>
    exact orderly_at_map.trans
      (onDomain_onSystem_ends_iff fun d hd => getHardwareFrequencyBounds_ends (hwell d hd))
  | getGovernorBounds id =>
    exact orderly_at_map.trans
      (onDomain_onSystem_ends_iff fun d hd => getCurrentGovernorBounds_ends (hwell d hd))
  | changeFrequencyBounds id lb ub =>
    exact orderly_at_map.trans (onDomain_onSystem_ends_iff fun d hd => setGovernorBounds_ends lb ub)
  | changeGovernor id g =>
    exact orderly_at_map.trans
      (onDomain_onSystem_ends_iff fun d hd => setGovernor_ends (hwell d hd) _)
  | getTransitionLatency id =>
    exact orderly_at_map.trans (onDomain_onSystem_ends_iff fun d hd => getTransitionLatency_ends)
  | getCurrentVoltage id =>
    refine orderly_at_map.trans (onDomain_ends_iff.trans (exists_congr fun d => and_congr_right' ?_))
    exact onSystem_ends_iff

theorem onDomain_wellFormed {call : Call (DomainLinux × σ) α}
    (hcall : ∀ h, Keeps (fun s => s.1.hardware = h) call) (i : ℕ) :
    Keeps AllWellFormed (onDomain i call) := by
  intro s hs
  cases hd : s.1[i]? with
  | none =>
    rw [onDomain_run_of_none hd]
    exact hs
  | some d =>
    have hset {e : DomainLinux} (he : e.hardware = d.hardware) {t : σ} :
        AllWellFormed (s.1.set i e, t) := by
      intro e' he'
      obtain he' | rfl := List.mem_or_eq_of_mem_set he'
      · exact hs e' he'
      · exact (hs d (List.mem_of_getElem? hd)).congr he
    have hkept := hcall d.hardware (d, s.2) rfl
    rw [onDomain_run_of_some hd]
    cases hrun : call.run (d, s.2) with
    | ok a t =>
      rw [hrun] at hkept
      exact hset hkept
    | error e t =>
      rw [hrun] at hkept
      exact hset hkept

theorem onDomains_wellFormed {call : Call (DomainLinux × σ) Unit}
    (hcall : ∀ h, Keeps (fun s => s.1.hardware = h) call) :
    Keeps AllWellFormed (onDomains call) :=
  keeps_bind keeps_get fun _ => triple_forM_invariant fun i _ => onDomain_wellFormed hcall i

theorem serve_wellFormed (r : Request) : Keeps AllWellFormed (serve sys r) := by
  have others {α : Type} (call : Call σ α) :
      Keeps AllWellFormed (onSnd call : Call (CpuFreqLinux σ) α) :=
    keeps_onSnd (I := fun domains : List DomainLinux => ∀ d ∈ domains, d.WellFormed) call
  have reads {α : Type} (k : DomainLinux → Call σ α) (i : ℕ) :
      Keeps AllWellFormed (onDomain i (onSystem k)) :=
    onDomain_wellFormed (fun h => onSystem_keeps (I := fun d => d.hardware = h) k) i
  have removes (h : List Governor × List String × Bool) :
      Keeps (fun s : DomainLinux × σ => s.1.hardware = h) (onFst removeTurboFrequencies) :=
    keeps_onFst removeTurboFrequencies_hardware
  have reinserts (h : List Governor × List String × Bool) :
      Keeps (fun s : DomainLinux × σ => s.1.hardware = h) (onFst reinsertTurboFrequencies) :=
    keeps_onFst reinsertTurboFrequencies_hardware
  cases r with
  | getDomains =>
    refine keeps_bind keeps_get fun s => keeps_bind ?_ fun _ => keeps_pure
    refine triple_foldlM_invariant fun r d _ => ?_
    unfold setDomain
    split_ifs
    · exact keeps_pure
    · exact keeps_throw
  | isBoostingSupported => exact keeps_bind (others _) fun _ => keeps_pure
  | isBoostingEnabled => exact keeps_bind (others _) fun _ => keeps_pure
  | enableBoosting => exact keeps_bind (others _) fun _ => keeps_pure
  | disableBoosting => exact keeps_bind (others _) fun _ => keeps_pure
  | removeTurboFrequencies => exact keeps_bind (onDomains_wellFormed removes) fun _ => keeps_pure
  | reinsertTurboFrequencies =>
    exact keeps_bind (onDomains_wellFormed reinserts) fun _ => keeps_pure
  | removeTurboFrequenciesDomain id =>
    exact keeps_bind (onDomain_wellFormed removes _) fun _ => keeps_pure
  | reinsertTurboFrequenciesDomain id =>
    exact keeps_bind (onDomain_wellFormed reinserts _) fun _ => keeps_pure
  | getCurrentFrequency id userspace =>
    cases userspace <;> exact keeps_bind (reads _ _) fun _ => keeps_pure
  | _ => exact keeps_bind (reads _ _) fun _ => keeps_pure

end Mammut.Cpufreq.CpuFreq
