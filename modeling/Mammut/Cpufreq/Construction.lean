import Mammut.Cpufreq.CpuFreq
import Mammut.Cpufreq.DomainLookups
import Mammut.Cpufreq.Epyc
import Mammut.Cpufreq.Governors
import Mammut.Cpufreq.RemoteDomains
import Mammut.Topology.Scan

/-! The constructors of `cpufreq-linux.cpp`.  The domains of a machine are the lines that are left
when the files of its virtual cores are sorted and each of them is kept once; where there are no
such files, an EPYC has one domain for each of its physical cores. -/

namespace Mammut.Cpufreq

open CpuFreq Kit.Partitions Kit.Programs Kit.Runs Utils

variable {σ : Type}

/-- The machine as the constructors find it. -/
structure Machine (σ : Type) where
  files : Topology.System σ
  system : System σ
  existsDirectory : String → σ → Bool
  getCommandOutput : String → Call σ (List String)
  /-- What the variables hold that the lookups of the governors' names are to set. -/
  locals : ℕ → UInt32

/-- `stringToUint`: `atoll`, which stays within a `long long`, and its 32 low bits. -/
def stringToUint (s : String) : UInt32 :=
  ⟨BitVec.ofInt 32 (max (-2 ^ 63) (min (atoi s) (2 ^ 63 - 1)))⟩

/-- The frequency in a line of `time_in_state`, whose first field has to be there. -/
def timeInState (line : String) : Call σ Frequency :=
  match split line ' ' with
  | frequency :: _ => return stringToUint frequency
  | [] => throw .undefined

/-- The identifiers of the virtual cores of a topology. -/
def identifiers (virtualCores : List Topology.VirtualCore) : List VirtualCoreId :=
  virtualCores.map fun v => UInt32.ofNat v.virtualCoreId

/-- The virtual cores whose identifiers a line has. -/
def virtualCoresOf (t : Topology.Topology) (line : String) : List VirtualCoreId :=
  filterVirtualCores (identifiers t.virtualCores) (readUints (cString line))

namespace Machine

variable (m : Machine σ)

/-- The directory of the files of a virtual core. -/
def path (id : VirtualCoreId) : String :=
  m.files.sysfsRootPrefix ++ "/sys/devices/system/cpu/cpu" ++ intToString id.toBitVec.toInt ++
    "/cpufreq/"

def existsFile (file : File) : Call σ Bool := return (m.system.read file (← get)).isSome

/-- The test for an EPYC, on the first CPU: `compare(0, 12, _)` looks at twelve characters. -/
def isEpyc (t : Topology.Topology) : Call σ Bool :=
  match t.cpus with
  | [] => throw .undefined
  | _ :: _ => do
    if (← Topology.CpuLinux.getFamily m.files) ≠ "23" then return false
    let vendorId ← Topology.CpuLinux.getVendorId m.files
    return vendorId.toList.take 12 = "AuthenticAMD".toList

/-- The frequencies that the constructor of a domain reads. -/
def readFrequencies (path : String) : Call σ (List Frequency) := do
  if ← m.existsFile ⟨path, "scaling_available_frequencies"⟩ then
    match m.system.read ⟨path, "scaling_available_frequencies"⟩ (← get) with
    | some text => return readUints text
    | none =>
      throw (.runtimeError "Impossible to open scaling_available_frequencies file.")
  else
    match m.system.read ⟨path, "stats/time_in_state"⟩ (← get) with
    | some text => (split text '\n').mapM timeInState
    | none => return []

/-- The governors that it reads, `GOVERNOR_NUM` among them. -/
def openGovernors (path : String) : Call σ (List Governor) := do
  match m.system.read ⟨path, "scaling_available_governors"⟩ (← get) with
  | some text => return (readGovernors m.locals text).map Governor.ofUInt32
  | none => throw (.runtimeError "Impossible to open scaling_available_governors file.")

/-- The constructor of a `DomainLinux`. -/
def newDomain (t : Topology.Topology) (domainIdentifier : DomainId) :
    List VirtualCoreId → Call σ DomainLinux
  | [] => throw .outOfRange
  | first :: others => do
    if ← m.isEpyc t then
      return .newEpyc m.system (← get) domainIdentifier first others
    let frequencies ← m.readFrequencies (m.path first)
    let governors ← m.openGovernors (m.path first)
    return .new domainIdentifier first others m.files.sysfsRootPrefix frequencies governors

/-- The loops over the domains to construct, from the `i`-th on. -/
def newDomains (t : Topology.Topology) : ℕ → List (List VirtualCoreId) → Call σ (List DomainLinux)
  | _, [] => return []
  | i, virtualCores :: rest => do
    let d ← m.newDomain t (UInt32.ofNat i) virtualCores
    return d :: (← newDomains t (i + 1) rest)

def cpufreqDirectory : String :=
  m.files.sysfsRootPrefix ++ "/sys/devices/system/cpu/cpu0/cpufreq"

/-- If `freqdomain_cpus` files are present, they are considered instead of `related_cpus`. -/
def domainsFiles (s : σ) : String :=
  if (m.system.read ⟨m.path 0, "freqdomain_cpus"⟩ s).isSome then "freqdomain_cpus"
  else "related_cpus"

def domainsCommand (domainsFiles : String) : String :=
  "cat " ++ m.files.sysfsRootPrefix ++ "/sys/devices/system/cpu/cpu*/cpufreq/" ++ domainsFiles ++
    " | sort | uniq"

/-- The constructor of a `CpuFreqLinux`, or `none` where that of its topology does not end. -/
def newCpuFreq : Call σ (Option (List DomainLinux)) := do
  if m.existsDirectory m.cpufreqDirectory (← get) then
    match ← Topology.Topology.new m.files m.getCommandOutput with
    | none => return none
    | some t =>
      let output ← m.getCommandOutput (m.domainsCommand (m.domainsFiles (← get)))
      return some (← m.newDomains t 0 (output.map (virtualCoresOf t)))
  else
    match ← Topology.Topology.new m.files m.getCommandOutput with
    | none => return none
    | some t =>
      if ← m.isEpyc t then
        return some (← m.newDomains t 0 (t.physicalCores.map fun c => identifiers c.virtualCores))
      return some []

/-! ### What they construct -/

/-- What the constructor of a domain has to find. -/
def Opens (t : Topology.Topology) (s : σ) : List VirtualCoreId → Prop
  | [] => False
  | first :: _ => (m.isEpyc t).run s = .ok true s ∨ (m.isEpyc t).run s = .ok false s ∧
      (∃ frequencies, (m.readFrequencies (m.path first)).run s = .ok frequencies s) ∧
      (m.system.read ⟨m.path first, "scaling_available_governors"⟩ s).isSome

/-- A domain as it is constructed for the virtual cores `cores`. -/
structure Constructed (s : σ) (id : DomainId) (cores : List VirtualCoreId) (d : DomainLinux) :
    Prop where
  nonempty : cores ≠ []
  domainIdentifier : d.domainIdentifier = id
  virtualCores : d.virtualCores = cores
  turboFrequencies : d.turboFrequencies = []
  paths : d.epyc = false → d.paths = cores.map m.path
  frequencies : d.epyc = false → d.availableFrequencies.Pairwise (· ≤ ·) ∧
    ∃ first frequencies, cores.head? = some first ∧
      (m.readFrequencies (m.path first)).run s = .ok frequencies s ∧
      d.availableFrequencies.Perm frequencies

section Construct

variable {m} {t : Topology.Topology} {s : σ} {I : σ → Prop}

theorem getCpuInfo_keeps (infoName : String) :
    Keeps I (Topology.CpuLinux.getCpuInfo m.files infoName) := by
  refine keeps_bind keeps_get fun u => ?_
  cases m.files.read (m.files.sysfsRootPrefix ++ "/proc/cpuinfo") u with
  | none => exact keeps_throw
  | some text =>
    simp only
    cases (split text '\n').find? (startsWith · infoName) with
    | none => exact keeps_pure
    | some line =>
      show Keeps I (Topology.CpuLinux.infoOf line)
      rw [Topology.CpuLinux.infoOf]
      cases (split line ':')[1]? with
      | none => exact keeps_throw
      | some value => exact keeps_pure

theorem isEpyc_keeps : Keeps I (m.isEpyc t) := by
  unfold isEpyc
  cases t.cpus with
  | nil => exact keeps_throw
  | cons cpu cpus =>
    refine keeps_bind (getCpuInfo_keeps _) fun family => ?_
    split_ifs
    · exact keeps_pure
    · exact keeps_bind (getCpuInfo_keeps _) fun _ => keeps_pure

theorem readFrequencies_keeps (path : String) : Keeps I (m.readFrequencies path) := by
  refine keeps_bind (keeps_bind keeps_get fun _ => keeps_pure) fun found => ?_
  split_ifs
  · refine keeps_bind keeps_get fun u => ?_
    cases m.system.read ⟨path, "scaling_available_frequencies"⟩ u with
    | none => exact keeps_throw
    | some text => exact keeps_pure
  · refine keeps_bind keeps_get fun u => ?_
    cases m.system.read ⟨path, "stats/time_in_state"⟩ u with
    | none => exact keeps_pure
    | some text =>
      refine keeps_mapM fun line => ?_
      unfold timeInState
      split
      · exact keeps_pure
      · exact keeps_throw

/-- What only reads the state returns in it, or throws in it. -/
theorem ends_of_keeps {α : Type} {x : Call σ α} (h : ∀ I, Keeps I x) (s : σ) :
    (∃ a, x.run s = .ok a s) ∨ ∃ e, x.run s = .error e s := by
  have hkept := h (· = s) s rfl
  cases hx : x.run s with
  | ok a u => rw [hx] at hkept; exact .inl ⟨a, by rw [show u = s from hkept]⟩
  | error e u => rw [hx] at hkept; exact .inr ⟨e, by rw [show u = s from hkept]⟩

/-- The constructor of a domain returns one that is as constructed, or throws. -/
theorem newDomain_run (id : DomainId) (cores : List VirtualCoreId) :
    (m.Opens t s cores ∧
        ∃ d, (m.newDomain t id cores).run s = .ok d s ∧ m.Constructed s id cores d) ∨
      (¬m.Opens t s cores ∧ ∃ e, (m.newDomain t id cores).run s = .error e s) := by
  cases cores with
  | nil => exact .inr ⟨fun h => h, _, rfl⟩
  | cons first others =>
    rw [newDomain, EStateM.run_bind]
    obtain ⟨epyc, hepyc⟩ | ⟨e, he⟩ := ends_of_keeps (fun I => isEpyc_keeps (m := m) (t := t)) s
    · rw [hepyc]
      cases epyc with
      | true =>
        refine .inl ⟨.inl hepyc, _, rfl, ⟨List.cons_ne_nil _ _, rfl, rfl, rfl, ?_, ?_⟩⟩
        · exact fun h => nomatch h
        · exact fun h => nomatch h
      | false =>
        simp only [Bool.false_eq_true, if_false, EStateM.run_bind]
        obtain ⟨frequencies, hfrequencies⟩ | ⟨e, he⟩ :=
          ends_of_keeps (fun I => readFrequencies_keeps (m := m) (m.path first)) s
        · rw [hfrequencies]
          simp only [openGovernors, EStateM.run_bind, EStateM.run_get]
          cases hgovernors : m.system.read ⟨m.path first, "scaling_available_governors"⟩ s with
          | none =>
            refine .inr ⟨?_, _, rfl⟩
            rintro (h | ⟨-, -, hread⟩)
            · cases hepyc.symm.trans h
            · cases hgovernors ▸ hread
          | some text =>
            refine .inl ⟨.inr ⟨hepyc, ⟨_, hfrequencies⟩, hgovernors ▸ rfl⟩, _, rfl, ?_⟩
            exact ⟨List.cons_ne_nil _ _, rfl, rfl, rfl, fun _ => rfl, fun _ =>
              ⟨DomainLinux.new_sorted, first, frequencies, rfl, hfrequencies,
                List.mergeSort_perm _ _⟩⟩
        · rw [he]
          refine .inr ⟨?_, _, rfl⟩
          rintro (h | ⟨-, ⟨_, hread⟩, -⟩)
          · cases hepyc.symm.trans h
          · cases he.symm.trans hread
    · rw [he]
      refine .inr ⟨?_, _, rfl⟩
      rintro (h | ⟨h, -⟩) <;> cases he.symm.trans h

theorem newDomains_run (sets : List (List VirtualCoreId)) (i : ℕ) :
    ((∀ cores ∈ sets, m.Opens t s cores) ∧
      ∃ domains, (m.newDomains t i sets).run s = .ok domains s ∧ domains.length = sets.length ∧
        ∀ k cores, sets[k]? = some cores → ∃ d, domains[k]? = some d ∧
          m.Constructed s (UInt32.ofNat (i + k)) cores d) ∨
    (¬(∀ cores ∈ sets, m.Opens t s cores) ∧ ∃ e, (m.newDomains t i sets).run s = .error e s) := by
  induction sets generalizing i with
  | nil => exact .inl ⟨by simp, [], rfl, rfl, by simp⟩
  | cons cores sets ih =>
    rw [List.forall_mem_cons, newDomains, EStateM.run_bind]
    obtain ⟨hopens, d, hd, hconstructed⟩ | ⟨hnot, e, he⟩ :=
      newDomain_run (m := m) (t := t) (s := s) (UInt32.ofNat i) cores
    · simp only [hd, EStateM.run_bind]
      obtain ⟨hall, domains, hrun, hlength, hdomains⟩ | ⟨hnot, e, he⟩ := ih (i + 1)
      · refine .inl ⟨⟨hopens, hall⟩, d :: domains, by rw [hrun]; rfl, by simp [hlength], ?_⟩
        intro k cores' hk
        cases k with
        | zero => cases hk; exact ⟨d, rfl, hconstructed⟩
        | succ k =>
          obtain ⟨d', hd', hc⟩ := hdomains k cores' hk
          exact ⟨d', hd', by rwa [show i + (k + 1) = i + 1 + k by omega]⟩
      · exact .inr ⟨fun h => hnot h.2, e, by rw [he]⟩
    · rw [he]
      exact .inr ⟨fun h => hnot h.1, e, rfl⟩

end Construct

end Machine

/-! ### The calls of the clients -/

/-- What the calls on a domain do not change. -/
structure DomainLinux.Same (d d' : DomainLinux) : Prop where
  domainIdentifier : d'.domainIdentifier = d.domainIdentifier
  virtualCores : d'.virtualCores = d.virtualCores
  paths : d'.paths = d.paths
  epyc : d'.epyc = d.epyc
  frequencies : (d'.availableFrequencies ++ d'.turboFrequencies).Perm
    (d.availableFrequencies ++ d.turboFrequencies)

namespace DomainLinux

variable {d₀ : DomainLinux}

theorem Same.refl (d : DomainLinux) : d.Same d := ⟨rfl, rfl, rfl, rfl, .refl _⟩

/-- The frequencies that are left are those that the loop has kept and those that are to come. -/
theorem removeTurboLoop_same (kept rest : List Frequency) :
    Triple (fun d => d₀.Same d ∧ d.availableFrequencies = kept ++ rest) (removeTurboLoop kept rest)
      (fun _ d => d₀.Same d) fun _ d => d₀.Same d := by
  induction rest generalizing kept with
  | nil => exact triple_pure fun d hd => hd.1
  | cons f rest ih =>
    unfold removeTurboLoop
    cases (frequencyToString f).toList[3]? with
    | none => exact fun d hd => hd.1
    | some c =>
      by_cases hc : c = '1'
      · simp only [hc, if_true]
        refine triple_bind (triple_modify fun d hd => ?_) fun _ => ih kept
        obtain ⟨⟨hid, hcores, hpaths, hepyc, hperm⟩, havailable⟩ := hd
        refine ⟨⟨hid, hcores, hpaths, hepyc, ?_⟩, rfl⟩
        rw [havailable] at hperm
        refine List.Perm.trans ?_ hperm
        simp only [List.append_assoc, List.cons_append]
        refine List.Perm.append_left kept ?_
        rw [← List.append_assoc]
        exact List.perm_append_singleton f _
      · simp only [hc, if_false]
        exact (ih (kept ++ [f])).pre fun d hd => ⟨hd.1, by rw [hd.2]; simp⟩

theorem removeTurboFrequencies_same : Keeps (fun d => d₀.Same d) removeTurboFrequencies := by
  refine triple_bind (Q := fun d s => d₀.Same s ∧ d = s) (fun d hd => ⟨hd, rfl⟩) fun d => ?_
  split_ifs
  · exact (removeTurboLoop_same [] _).pre fun s hs => ⟨hs.1, by rw [hs.2]; rfl⟩
  · exact triple_pure fun s hs => hs.1

theorem reinsertTurboFrequencies_same : Keeps (fun d => d₀.Same d) reinsertTurboFrequencies := by
  refine triple_modify fun d hd => ⟨hd.1, hd.2, hd.3, hd.4, ?_⟩
  simpa using hd.frequencies

end DomainLinux

/-- The domains after calls of the clients, each of which is one of those before. -/
def SameDomains (domains domains' : List DomainLinux) : Prop :=
  List.Forall₂ DomainLinux.Same domains domains'

theorem SameDomains.refl (domains : List DomainLinux) : SameDomains domains domains :=
  List.forall₂_same.mpr fun d _ => .refl d

theorem SameDomains.set {domains domains' : List DomainLinux} (h : SameDomains domains domains')
    {i : ℕ} {d' : DomainLinux}
    (hd' : ∀ d₀ d : DomainLinux, domains'[i]? = some d → d₀.Same d → d₀.Same d') :
    SameDomains domains (domains'.set i d') := by
  induction h generalizing i with
  | nil => exact .nil
  | cons hsame hrest ih =>
    cases i with
    | zero => exact .cons (hd' _ _ rfl hsame) hrest
    | succ i => exact .cons hsame (ih hd')

theorem run_sameDomains {sys : System σ} {domains domains' : List DomainLinux} {s s' : σ}
    {calls : List (ℕ × DomainCall)} (run : Run (Step sys) (domains, s) calls (domains', s')) :
    SameDomains domains domains' := by
  refine run.invariant (fun p => SameDomains domains p.1) (.refl domains) ?_
  intro p l q hp hstep
  cases hstep with
  | call hd =>
    refine SameDomains.set hp fun d₀ d hd' hsame => ?_
    cases hd.symm.trans hd'
    exact after_of_keeps (DomainLinux.call_keeps sys DomainLinux.removeTurboFrequencies_same
      DomainLinux.reinsertTurboFrequencies_same _) hsame

theorem SameDomains.virtualCores {domains domains' : List DomainLinux}
    (h : SameDomains domains domains') :
    domains'.map (·.virtualCores) = domains.map (·.virtualCores) := by
  induction h with
  | nil => rfl
  | cons hsame _ ih => rw [List.map_cons, List.map_cons, hsame.virtualCores, ih]

theorem SameDomains.get {domains domains' : List DomainLinux} (h : SameDomains domains domains')
    {i : ℕ} {d' : DomainLinux} (hd' : domains'[i]? = some d') :
    ∃ d, domains[i]? = some d ∧ d.Same d' := by
  obtain ⟨hi, rfl⟩ := List.getElem?_eq_some_iff.mp hd'
  have hi₀ : i < domains.length := List.Forall₂.length_eq h ▸ hi
  exact ⟨domains[i], List.getElem?_eq_getElem hi₀, List.Forall₂.get h hi₀ hi⟩

/-! ### The files of the kernel -/

/-- A line of the kernel: some virtual cores, between spaces. -/
def cpuLine (ids : List VirtualCoreId) : String :=
  (String.singleton ' ').intercalate (ids.map fun v => intToString v.toNat) ++ "\n"

theorem readUints_cpuLine {ids : List VirtualCoreId} (hne : ids ≠ []) :
    readUints (cString (cpuLine ids)) = ids := by
  obtain ⟨first, rest, rfl⟩ := List.exists_cons_of_ne_nil hne
  have htext : (cpuLine (first :: rest)).toList = (intToString first.toNat).toList ++
      (rest.flatMap (fun v => ' ' :: (intToString v.toNat).toList) ++ ['\n']) := by
    rw [cpuLine, String.toList_append, List.map_cons, toList_intercalate_words, List.flatMap_map,
      List.append_assoc]
    rfl
  have hzero : '\x00' ∉ (cpuLine (first :: rest)).toList := by
    rw [htext]
    simp [not_mem_intToString]
  rw [readUints, cString_eq_self hzero, htext]
  apply @readUintsFrom_words first rest _ [] (by simp)
  have hlength : rest.length ≤
      (rest.flatMap fun v => ' ' :: (intToString v.toNat).toList).length := by
    clear htext hzero hne
    induction rest with
    | nil => exact Nat.le_refl 0
    | cons v rest ih =>
      rw [List.length_cons, List.flatMap_cons, List.length_append, List.length_cons]
      omega
  rw [List.length_append, List.length_append, List.length_singleton]
  omega

/-- The kernel describes the domains: each virtual core that is present has a file with those that
change their frequency together with it. -/
structure Machine.Describes (m : Machine σ) (s : σ) (t : Topology.Topology)
    (related : VirtualCoreId → List VirtualCoreId) (present : List VirtualCoreId) : Prop where
  topology : (Topology.Topology.new m.files m.getCommandOutput).run s = .ok (some t) s
  directory : m.existsDirectory m.cpufreqDirectory s = true
  output : ∃ lines, (m.getCommandOutput (m.domainsCommand (m.domainsFiles s))).run s = .ok lines s ∧
    lines.Nodup ∧ ∀ line, line ∈ lines ↔
      ∃ v ∈ present, m.system.read ⟨m.path v, m.domainsFiles s⟩ s = some line
  file : ∀ v ∈ present, m.system.read ⟨m.path v, m.domainsFiles s⟩ s = some (cpuLine (related v))
  self : ∀ v ∈ present, v ∈ related v
  same : ∀ v ∈ present, ∀ w ∈ related v, related w = related v
  online : identifiers t.virtualCores ⊆ present

namespace Machine.Describes

variable {m : Machine σ} {s : σ} {t : Topology.Topology}
  {related : VirtualCoreId → List VirtualCoreId} {present : List VirtualCoreId}

theorem identifiers_nodup (h : m.Describes s t related present) :
    (identifiers t.virtualCores).Nodup := by
  obtain ⟨hnodup, hlt⟩ := Topology.Topology.new_virtualCoreIds h.topology
  have hids : identifiers t.virtualCores =
      (t.virtualCores.map (·.virtualCoreId)).map UInt32.ofNat := by
    rw [List.map_map]
    rfl
  rw [hids]
  refine hnodup.map_on fun a ha b hb hab => ?_
  have hsame := congrArg UInt32.toNat hab
  rwa [UInt32.toNat_ofNat_of_lt' (hlt a ha), UInt32.toNat_ofNat_of_lt' (hlt b hb)] at hsame

theorem related_ne_nil (h : m.Describes s t related present) {v : VirtualCoreId}
    (hv : v ∈ present) : related v ≠ [] := List.ne_nil_of_mem (h.self v hv)

/-- The lines are the classes of the virtual cores. -/
theorem classes (h : m.Describes s t related present) : ∃ lines,
    (m.getCommandOutput (m.domainsCommand (m.domainsFiles s))).run s = .ok lines s ∧
      Classes related present (lines.map fun line => readUints (cString line)) := by
  obtain ⟨lines, hrun, hnodup, hmem⟩ := h.output
  have hline : ∀ line ∈ lines, ∃ v ∈ present, line = cpuLine (related v) ∧
      readUints (cString line) = related v := by
    intro line hline
    obtain ⟨v, hv, hread⟩ := (hmem line).mp hline
    obtain rfl : cpuLine (related v) = line := Option.some.inj ((h.file v hv).symm.trans hread)
    exact ⟨v, hv, rfl, readUints_cpuLine (h.related_ne_nil hv)⟩
  refine ⟨lines, hrun, h.self, h.same, fun l => ?_, ?_⟩
  · rw [List.mem_map]
    constructor
    · rintro ⟨line, hmem', rfl⟩
      obtain ⟨v, hv, -, hread⟩ := hline line hmem'
      exact ⟨v, hv, hread.symm⟩
    · rintro ⟨v, hv, rfl⟩
      exact ⟨_, (hmem _).mpr ⟨v, hv, h.file v hv⟩, readUints_cpuLine (h.related_ne_nil hv)⟩
  · refine hnodup.map_on fun a ha b hb hab => ?_
    obtain ⟨v, -, rfl, hv⟩ := hline a ha
    obtain ⟨w, -, rfl, hw⟩ := hline b hb
    rw [show related v = related w from hv.symm.trans (hab.trans hw)]

/-- The constructor constructs the domains of the classes. -/
theorem newCpuFreq_run (h : m.Describes s t related present) : ∃ classes,
    Classes related present classes ∧ m.newCpuFreq.run s =
      (do return some (← m.newDomains t 0
        (classes.map (filterVirtualCores (identifiers t.virtualCores))))).run s := by
  obtain ⟨lines, hrun, hclasses⟩ := h.classes
  refine ⟨_, hclasses, ?_⟩
  rw [newCpuFreq, EStateM.run_bind, EStateM.run_get]
  simp only [h.directory, if_true, EStateM.run_bind, h.topology, EStateM.run_get, hrun]
  rw [List.map_map]
  rfl

end Machine.Describes

/-! ### The domains that are found -/

section Divides

variable {domains domains' : List DomainLinux} {cores : List VirtualCoreId}

theorem CpuFreq.Divides.of_virtualCores (h : Divides domains cores)
    (hsame : domains'.map (·.virtualCores) = domains.map (·.virtualCores)) :
    Divides domains' cores := by
  have hlength : domains'.length = domains.length := by
    simpa using congrArg List.length hsame
  have hget (i : ℕ) (hi : i < domains'.length) (hi' : i < domains.length) :
      domains'[i].virtualCores = domains[i].virtualCores := by
    have hi'' := congrArg (·[i]?) hsame
    simpa [hi, hi'] using hi''
  have hmem : ∀ d' ∈ domains', ∃ d ∈ domains, d'.virtualCores = d.virtualCores := by
    intro d' hd'
    obtain ⟨i, hi, rfl⟩ := List.mem_iff_getElem.mp hd'
    exact ⟨domains[i], List.getElem_mem _, hget i hi (hlength ▸ hi)⟩
  refine ⟨fun d' hd' => ?_, fun d' hd' => ?_, fun i j v hi hj => ?_, fun v => ?_⟩
  · obtain ⟨d, hd, hcores⟩ := hmem d' hd'
    exact hcores ▸ h.nonempty d hd
  · obtain ⟨d, hd, hcores⟩ := hmem d' hd'
    exact hcores ▸ h.nodup d hd
  · have hi' : i < domains.length := hlength ▸ i.2
    have hj' : j < domains.length := hlength ▸ j.2
    have hsame := h.disjoint ⟨i, hi'⟩ ⟨j, hj'⟩ v (hget i i.2 hi' ▸ hi) (hget j j.2 hj' ▸ hj)
    exact Fin.ext (Fin.mk.inj hsame)
  · have hset (d : DomainLinux) : (∃ e ∈ domains, e.virtualCores = d.virtualCores) ↔
        ∃ e ∈ domains', e.virtualCores = d.virtualCores := by
      rw [← List.mem_map, ← List.mem_map, hsame]
    rw [h.covers]
    constructor
    · rintro ⟨d, hd, hv⟩
      obtain ⟨e, he, hcores⟩ := (hset d).mp ⟨d, hd, rfl⟩
      exact ⟨e, he, hcores ▸ hv⟩
    · rintro ⟨d, hd, hv⟩
      obtain ⟨e, he, hcores⟩ := hmem d hd
      exact ⟨e, he, hcores ▸ hv⟩

/-- There are no more domains than virtual cores. -/
theorem CpuFreq.Divides.length_le (h : Divides domains cores) : domains.length ≤ cores.length := by
  have hexists (i : Fin domains.length) : ∃ v, v ∈ domains[i].virtualCores :=
    List.exists_mem_of_ne_nil _ (h.nonempty _ (List.getElem_mem i.2))
  choose f hf using hexists
  have hinj : Function.Injective f := fun i j hij => h.disjoint i j (f i) (hf i) (hij ▸ hf j)
  have hsub : (List.finRange domains.length).map f ⊆ cores := by
    intro v hv
    obtain ⟨i, -, rfl⟩ := List.mem_map.mp hv
    exact (h.covers _).mpr ⟨_, List.getElem_mem i.2, hf i⟩
  have hle := (List.subperm_of_subset ((List.nodup_finRange _).map hinj) hsub).length_le
  simpa using hle

theorem length_le_of_nodup {l : List UInt32} (h : l.Nodup) : l.length ≤ 2 ^ 32 := by
  have hsub : l.map UInt32.toNat ⊆ List.range (2 ^ 32) := by
    intro n hn
    obtain ⟨v, -, rfl⟩ := List.mem_map.mp hn
    exact List.mem_range.mpr v.toNat_lt
  have hinj : (l.map UInt32.toNat).Nodup := h.map fun _ _ hsame => UInt32.toNat_inj.mp hsame
  have hle := (List.subperm_of_subset hinj hsub).length_le
  rwa [List.length_map, List.length_range] at hle

end Divides

/-- The domains stand for those of the kernel: each virtual core is in one of them, together with
those that are related to it. -/
structure Machine.Represents (m : Machine σ) (s : σ) (cores : List VirtualCoreId)
    (related : VirtualCoreId → List VirtualCoreId) (domains : List DomainLinux) : Prop where
  divides : Divides domains cores
  numbered : ∀ (i : ℕ) (d : DomainLinux), domains[i]? = some d → d.domainIdentifier.toNat = i
  same_iff : ∀ v ∈ cores, ∀ w ∈ cores,
    getDomain domains v = getDomain domains w ↔ related v = related w
  files : ∀ d ∈ domains, d.epyc = false → d.paths = d.virtualCores.map m.path ∧
    ∃ first frequencies, d.virtualCores.head? = some first ∧
      (m.readFrequencies (m.path first)).run s = .ok frequencies s ∧
      (d.availableFrequencies ++ d.turboFrequencies).Perm frequencies

namespace Machine

variable {m : Machine σ} {s : σ} {t : Topology.Topology}
  {related : VirtualCoreId → List VirtualCoreId} {present : List VirtualCoreId}
  {classes : List (List VirtualCoreId)} {domains : List DomainLinux}

/-- Domains that are constructed for the classes of the virtual cores divide them. -/
theorem divides_of_constructed {cores : List VirtualCoreId}
    (hclasses : Classes related present classes) (hnodup : cores.Nodup) (honline : cores ⊆ present)
    (hlength : domains.length = classes.length)
    (hdomains : ∀ (i : ℕ) (d : DomainLinux), domains[i]? = some d → ∃ l, classes[i]? = some l ∧
      m.Constructed s (UInt32.ofNat i) (filterVirtualCores cores l) d) : Divides domains cores := by
  have hmem : ∀ d ∈ domains,
      ∃ l, m.Constructed s d.domainIdentifier (filterVirtualCores cores l) d := by
    intro d hd
    obtain ⟨i, hi⟩ := List.mem_iff_getElem?.mp hd
    obtain ⟨l, -, hc⟩ := hdomains i d hi
    exact ⟨l, hc.domainIdentifier ▸ hc⟩
  refine ⟨fun d hd => ?_, fun d hd => ?_, fun i j v hi hj => ?_, fun v => ⟨fun hv => ?_, ?_⟩⟩
  · obtain ⟨l, hc⟩ := hmem d hd
    exact hc.virtualCores ▸ hc.nonempty
  · obtain ⟨l, hc⟩ := hmem d hd
    exact hc.virtualCores ▸ hnodup.filter _
  · obtain ⟨l, hl, hc⟩ := hdomains i _ (List.getElem?_eq_getElem i.2)
    obtain ⟨l', hl', hc'⟩ := hdomains j _ (List.getElem?_eq_getElem j.2)
    have hv : v ∈ filterVirtualCores cores l := hc.virtualCores ▸ hi
    have hv' : v ∈ filterVirtualCores cores l' := hc'.virtualCores ▸ hj
    rw [mem_filterVirtualCores] at hv hv'
    exact Fin.ext (hclasses.index_unique hl hl' hv.2 hv'.2)
  · obtain ⟨i, hi⟩ := List.mem_iff_getElem?.mp
      ((hclasses.mem_iff _).mpr ⟨v, honline hv, rfl⟩)
    have hlt : i < domains.length := hlength ▸ (List.getElem?_eq_some_iff.mp hi).1
    obtain ⟨l, hl, hc⟩ := hdomains i _ (List.getElem?_eq_getElem hlt)
    obtain rfl := Option.some.inj (hi.symm.trans hl)
    refine ⟨_, List.getElem_mem hlt, ?_⟩
    rw [hc.virtualCores, mem_filterVirtualCores]
    exact ⟨hv, hclasses.self v (honline hv)⟩
  · rintro ⟨d, hd, hv⟩
    obtain ⟨l, hc⟩ := hmem d hd
    rw [hc.virtualCores, mem_filterVirtualCores] at hv
    exact hv.1

/-- So do they after any calls of the clients. -/
theorem represents_of_constructed {domains' : List DomainLinux} {cores : List VirtualCoreId}
    (hclasses : Classes related present classes) (hnodup : cores.Nodup) (honline : cores ⊆ present)
    (hlength : domains.length = classes.length)
    (hdomains : ∀ (i : ℕ) (d : DomainLinux), domains[i]? = some d → ∃ l, classes[i]? = some l ∧
      m.Constructed s (UInt32.ofNat i) (filterVirtualCores cores l) d)
    (hsame : SameDomains domains domains') : m.Represents s cores related domains' := by
  have hdivides := (divides_of_constructed hclasses hnodup honline hlength hdomains).of_virtualCores
    hsame.virtualCores
  have hlt : domains'.length ≤ 2 ^ 32 := hdivides.length_le.trans (length_le_of_nodup hnodup)
  -- The domain of a virtual core has its class.
  have hclass : ∀ v ∈ cores, ∃ i : Fin domains'.length, getDomain domains' v = .ok i ∧
      classes[i.val]? = some (related v) := by
    intro v hv
    obtain ⟨i, hi⟩ := hdivides.exists_domain hv
    obtain ⟨d, hd, hsame'⟩ := SameDomains.get hsame (List.getElem?_eq_getElem i.2)
    obtain ⟨l, hl, hc⟩ := hdomains i d hd
    have hvl : v ∈ filterVirtualCores cores l := by
      rw [← hc.virtualCores, ← hsame'.virtualCores]
      exact hi
    refine ⟨i, hdivides.getDomain_eq hi, ?_⟩
    rw [hclasses.classOf_eq (List.mem_of_getElem? hl) (mem_filterVirtualCores.mp hvl).2, hl]
  refine ⟨hdivides, fun i d' hd' => ?_, fun v hv w hw => ?_, fun d' hd' hepyc => ?_⟩
  · obtain ⟨d, hd, hsame'⟩ := SameDomains.get hsame hd'
    obtain ⟨l, -, hc⟩ := hdomains i d hd
    have hi := (List.getElem?_eq_some_iff.mp hd').1
    rw [hsame'.domainIdentifier, hc.domainIdentifier]
    exact UInt32.toNat_ofNat_of_lt' (hi.trans_le hlt)
  · obtain ⟨i, hi, hiv⟩ := hclass v hv
    obtain ⟨j, hj, hjw⟩ := hclass w hw
    rw [hi, hj]
    constructor
    · intro hij
      obtain rfl : i = j := Except.ok.inj hij
      exact Option.some.inj (hiv.symm.trans hjw)
    · intro hrelated
      rw [hrelated, ← hjw] at hiv
      have hlti : i.val < classes.length := by
        by_contra hge
        rw [List.getElem?_eq_none (Nat.not_lt.mp hge), hjw] at hiv
        cases hiv
      exact congrArg Except.ok (Fin.ext ((List.getElem?_inj hlti hclasses.nodup).mp hiv))
  · obtain ⟨i, hi⟩ := List.mem_iff_getElem?.mp hd'
    obtain ⟨d, hd, hsame'⟩ := SameDomains.get hsame hi
    obtain ⟨l, -, hc⟩ := hdomains i d hd
    have hepyc' : d.epyc = false := hsame'.epyc ▸ hepyc
    obtain ⟨-, first, frequencies, hhead, hread, hperm⟩ := hc.frequencies hepyc'
    refine ⟨?_, first, frequencies, ?_, hread, ?_⟩
    · rw [hsame'.paths, hsame'.virtualCores, hc.virtualCores, hc.paths hepyc']
    · rw [hsame'.virtualCores, hc.virtualCores, hhead]
    · refine hsame'.frequencies.trans ?_
      rwa [hc.turboFrequencies, List.append_nil]

end Machine

/-- A machine of two virtual cores that do not change their frequency together. -/
def twoPolicies : Machine Unit where
  files := Topology.Topology.listing "0-1\n"
  system :=
    { read := fun file _ =>
        if file.name = "related_cpus" then
          some (if file.path = "/sys/devices/system/cpu/cpu0/cpufreq/" then "0\n" else "1\n")
        else if file.name = "scaling_available_governors" then some "userspace performance\n"
        else if file.name = "scaling_available_frequencies" then some "2000000 1000000\n"
        else none
      write := fun _ _ s => (.written, s)
      readBits := fun _ _ _ _ _ => (false, 0)
      writeBits := fun _ _ _ _ _ s => (false, s)
      voltage := fun _ _ => return 0
      governor := .GOVERNOR_NUM
      frequency := 0 }
  existsDirectory _ _ := true
  getCommandOutput _ := return ["0\n", "1\n"]
  locals _ := 0

/-- Its topology. -/
def twoSiblings : Topology.Topology := .buildCpuVector [⟨0, 0, 0⟩, ⟨0, 0, 1⟩]

theorem twoPolicies_topology : (Topology.Topology.new twoPolicies.files
    twoPolicies.getCommandOutput).run () = .ok (some twoSiblings) () := by
  have hrange : dashedRangeToIntegers (firstLine "0-1\n") = (0, 1) := by decide +kernel
  have hbounds : (Topology.Topology.coreIds (Topology.Topology.listing "0-1\n")
      fun _ => return ["0\n", "1\n"]).run () = .ok (0, 1) () := by
    rw [Topology.Topology.coreIds_run (Topology.Topology.listing_coreIds "0-1\n"), hrange]
  have honline : Topology.Scan.numbered (Topology.Topology.online
      (Topology.Topology.listing "0-1\n") () 0 1) = [⟨0, 0, 0⟩, ⟨0, 0, 1⟩] := by decide +kernel
  have hrun := Topology.Topology.new_run hbounds
    (fun v _ => Topology.Topology.listing_readable _ v) (by decide)
  rw [honline] at hrun
  exact hrun

theorem twoPolicies_describes :
    twoPolicies.Describes () twoSiblings (fun v => [v]) [0, 1] := by
  have hzero : twoPolicies.system.read ⟨twoPolicies.path 0, "related_cpus"⟩ () =
      some (cpuLine [0]) := by decide +kernel
  have hone : twoPolicies.system.read ⟨twoPolicies.path 1, "related_cpus"⟩ () =
      some (cpuLine [1]) := by decide +kernel
  have hline : [cpuLine [0], cpuLine [1]] = ["0\n", "1\n"] := by decide +kernel
  have hids : identifiers twoSiblings.virtualCores = [0, 1] := by decide +kernel
  have hfiles : twoPolicies.domainsFiles () = "related_cpus" := rfl
  refine ⟨twoPolicies_topology, rfl, ⟨["0\n", "1\n"], rfl, by decide, fun line => ?_⟩, ?_, ?_,
    ?_, ?_⟩
  · rw [hfiles, ← hline]
    simp [hzero, hone, eq_comm]
  · rw [hfiles]
    simp [hzero, hone]
  · simp
  · simp
  · rw [hids]
    exact List.Subset.refl _

end Mammut.Cpufreq
