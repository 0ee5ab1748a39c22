import Mammut.Cpufreq.RemoteAgrees

/-! `CpuFreqRemote`, from `cpufreq-remote.cpp`: the domains of a server, as its constructor rebuilds
them from the response to `GetDomains`. -/

namespace Mammut.Cpufreq

open CpuFreq

variable {σ : Type} {sys : System σ} {proto : Protobuf Request Response}
  {moduleDispatcher : String → Option (Module (CpuFreqLinux σ))}

/-- `filterVirtualCores`: those that have one of the identifiers. -/
def filterVirtualCores (virtualCores identifiers : List VirtualCoreId) : List VirtualCoreId :=
  virtualCores.filter (identifiers.contains ·)

@[simp] theorem mem_filterVirtualCores {virtualCores identifiers : List VirtualCoreId}
    {id : VirtualCoreId} :
    id ∈ filterVirtualCores virtualCores identifiers ↔ id ∈ virtualCores ∧ id ∈ identifiers := by
  simp [filterVirtualCores]

/-- A domain of a `CpuFreqRemote`, with its virtual cores. -/
structure RemoteDomain extends DomainRemote where
  virtualCores : List VirtualCoreId
  deriving DecidableEq, Repr

/-- `_domains`, in which a pointer may be null. -/
abbrev CpuFreqRemote := List (Option RemoteDomain)

def Expect.domains : Expected Response (List DomainMessage) where
  name := messageName "GetDomainsRes"
  read r := match r with
    | .getDomainsRes domains => some domains
    | _ => none

namespace CpuFreqRemote

variable (proto : Protobuf Request Response)
  (moduleDispatcher : String → Option (Module (CpuFreqLinux σ))) (vc : List VirtualCoreId)

/-- The loop body of the constructor. -/
def rebuild (domains : CpuFreqRemote) (d : DomainMessage) :
    Call (Session (CpuFreqLinux σ)) CpuFreqRemote := do
  let remote ← DomainRemote.new proto moduleDispatcher d.id
  if d.id.toNat < domains.length then
    return domains.set d.id.toNat (some ⟨remote, filterVirtualCores vc d.virtualCoresIds⟩)
  else throw .outOfRange

/-- The constructor, on a machine whose remote topology has the virtual cores `vc`. -/
def new : Call (Session (CpuFreqLinux σ)) CpuFreqRemote := do
  let r ← DomainRemote.request proto moduleDispatcher .getDomains Expect.domains
  r.foldlM (rebuild proto moduleDispatcher vc) (List.replicate r.length none)

/-- The domains are those of the server: one at each position, with that number as identifier, and
with the same virtual cores. -/
def Rebuilt (domains : List DomainLinux) (remote : CpuFreqRemote) : Prop :=
  remote.length = domains.length ∧ ∀ (i : ℕ) (d : DomainLinux), domains[i]? = some d →
    ∃ r : RemoteDomain, remote[i]? = some (some r) ∧ r.getId.toNat = i ∧
      ∀ id, id ∈ r.virtualCores ↔ id ∈ d.getVirtualCoresIdentifiers

variable {proto moduleDispatcher vc} {domains : List DomainLinux} {s : σ}

theorem new_run_nil (h : Serves sys proto moduleDispatcher) (s : σ) :
    (new proto moduleDispatcher vc).run ⟨([], s), true⟩ = .ok [] ⟨([], s), true⟩ := by
  have hserve : (serve sys .getDomains).run ([], s) = .ok (.getDomainsRes []) ([], s) := rfl
  have hrequest : (DomainRemote.request proto moduleDispatcher .getDomains Expect.domains).run
      ⟨([], s), true⟩ = .ok [] ⟨([], s), true⟩ := request_ok h hserve rfl rfl
  rw [new, EStateM.run_bind, hrequest]
  rfl

theorem new_run_cons (h : Serves sys proto moduleDispatcher) (d : DomainLinux)
    (rest : List DomainLinux) (s : σ) : (new proto moduleDispatcher vc).run
      ⟨(d :: rest, s), true⟩ = .error .undefined ⟨(d :: rest, s), false⟩ := by
  have hserve : (serve sys .getDomains).run (d :: rest, s) = .error .undefined (d :: rest, s) := rfl
  have hprocess := process_run h .getDomains (d :: rest, s)
  rw [hserve] at hprocess
  have hrequest : (DomainRemote.request proto moduleDispatcher .getDomains Expect.domains).run
      ⟨(d :: rest, s), true⟩ = .error .undefined ⟨(d :: rest, s), false⟩ :=
    remoteCall_run_undefined hprocess
  rw [new, EStateM.run_bind, hrequest]

/-- The element of the response that stands for a domain. -/
def domainMessage (d : DomainLinux) : DomainMessage := ⟨d.getId, d.getVirtualCoresIdentifiers⟩

/-- What the constructor makes of that element. -/
def remoteDomain (vc : List VirtualCoreId) (d : DomainLinux) : RemoteDomain where
  domainIdentifier := d.getId
  availableFrequencies := d.getAvailableFrequencies
  virtualCores := filterVirtualCores vc d.getVirtualCoresIdentifiers

theorem newDomain_run (h : Serves sys proto moduleDispatcher) {d : DomainLinux}
    (hd : domains[d.getId.toNat]? = some d) :
    (DomainRemote.new proto moduleDispatcher d.getId).run ⟨(domains, s), true⟩ =
      .ok ⟨d.getId, d.getAvailableFrequencies⟩ ⟨(domains, s), true⟩ := by
  have hset : domains.set d.getId.toNat d = domains := set_of_getElem? hd
  have hserve : (serve sys (.getAvailableFrequencies d.getId)).run (domains, s) =
      .ok (.getAvailableFrequenciesRes d.getAvailableFrequencies) (domains, s) := by
    simp only [serve, EStateM.run_bind]
    rw [onDomain_run_of_some hd]
    show EStateM.Result.ok _ (domains.set d.getId.toNat d, s) = _
    rw [hset]
  have hrequest : (DomainRemote.request proto moduleDispatcher (.getAvailableFrequencies d.getId)
      Expect.frequencies).run ⟨(domains, s), true⟩ = .ok _ ⟨(domains, s), true⟩ :=
    request_ok h hserve rfl rfl
  rw [DomainRemote.new, EStateM.run_bind, hrequest]
  rfl

theorem rebuild_run (h : Serves sys proto moduleDispatcher) {d : DomainLinux}
    (hd : domains[d.getId.toNat]? = some d) {remote : CpuFreqRemote}
    (hlt : d.getId.toNat < remote.length) :
    (rebuild proto moduleDispatcher vc remote (domainMessage d)).run ⟨(domains, s), true⟩ =
      .ok (remote.set d.getId.toNat (some (remoteDomain vc d))) ⟨(domains, s), true⟩ := by
  have hnew : (DomainRemote.new proto moduleDispatcher (domainMessage d).id).run
      ⟨(domains, s), true⟩ = .ok ⟨d.getId, d.getAvailableFrequencies⟩ ⟨(domains, s), true⟩ :=
    newDomain_run h hd
  have hlt' : (domainMessage d).id.toNat < remote.length := hlt
  rw [rebuild, EStateM.run_bind, hnew]
  simp only [if_pos hlt']
  rfl

theorem foldlM_rebuild_run (h : Serves sys proto moduleDispatcher)
    (hids : ∀ (i : ℕ) (d : DomainLinux), domains[i]? = some d → d.getId.toNat = i) :
    ((domains.map domainMessage).foldlM (rebuild proto moduleDispatcher vc)
        (List.replicate domains.length none)).run ⟨(domains, s), true⟩ =
      .ok (domains.map fun d => some (remoteDomain vc d)) ⟨(domains, s), true⟩ := by
  suffices hloop : ∀ rest done, domains = done ++ rest →
      ((rest.map domainMessage).foldlM (rebuild proto moduleDispatcher vc)
        (done.map (some <| remoteDomain vc ·) ++ List.replicate rest.length none)).run
          ⟨(domains, s), true⟩ =
        .ok (domains.map (some <| remoteDomain vc ·)) ⟨(domains, s), true⟩ from
    hloop domains [] rfl
  intro rest
  induction rest with
  | nil =>
    intro done hdone
    simp [hdone]
  | cons d rest ih =>
    intro done hdone
    have hat : domains[done.length]? = some d := by simp [hdone]
    have hid : d.getId.toNat = done.length := hids _ d hat
    have hstep : (rebuild proto moduleDispatcher vc
        (done.map (some <| remoteDomain vc ·) ++ List.replicate (rest.length + 1) none)
          (domainMessage d)).run ⟨(domains, s), true⟩ =
        .ok ((done ++ [d]).map (some <| remoteDomain vc ·) ++ List.replicate rest.length none)
          ⟨(domains, s), true⟩ := by
      have hlt : d.getId.toNat <
          (done.map (some <| remoteDomain vc ·) ++ List.replicate (rest.length + 1) none).length := by
        simp only [List.length_append, List.length_map, List.length_replicate, hid]
        omega
      rw [rebuild_run h (hid ▸ hat) hlt, hid, List.set_append_right _ _ (by simp)]
      simp [List.replicate_succ]
    rw [List.map_cons, List.foldlM_cons, EStateM.run_bind, List.length_cons, hstep]
    exact ih (done ++ [d]) (by simp [hdone])

/-- From a response with an element for each domain, the constructor would get all of them. -/
theorem rebuilt_of_messages (h : Serves sys proto moduleDispatcher) (s : σ)
    (hids : ∀ (i : ℕ) (d : DomainLinux), domains[i]? = some d → d.getId.toNat = i)
    (hcores : ∀ d ∈ domains, ∀ id ∈ d.getVirtualCoresIdentifiers, id ∈ vc) :
    ∃ remote, ((domains.map domainMessage).foldlM (rebuild proto moduleDispatcher vc)
        (List.replicate domains.length none)).run ⟨(domains, s), true⟩ =
      .ok remote ⟨(domains, s), true⟩ ∧ Rebuilt domains remote := by
  refine ⟨_, foldlM_rebuild_run h hids, by simp, fun i d hd => ?_⟩
  refine ⟨remoteDomain vc d, by simp [hd], hids i d hd, fun id => ?_⟩
  have hvc := hcores d (List.mem_of_getElem? hd) id
  simpa [remoteDomain] using hvc

end CpuFreqRemote

end Mammut.Cpufreq
