import Mathlib.Data.List.Induction
import Mammut.Energy.Positions

/-! When a `CounterCpusLinuxMsr` throws.  `readEnergyCounter` takes a register that holds zero for
one that is absent, so on registers that can be read an operation throws exactly when one of those
that it reads holds zero. -/

namespace Mammut.Energy

open Kit Kit.Meters Kit.Programs Kit.Runs CpuFamily

variable {γ Env : Type}

/-- The call throws an exception. -/
def Throws {α : Type} (prog : Call γ α) (s : γ) : Prop :=
  ∃ what t, prog.run s = .error (.runtimeError what) t

/-- No operation of the sequence throws, however those before it ended. -/
def NeverThrows (I : CounterCpus γ Env) (cpus : List Cpu) (c : γ) (ops : List (Op Env)) : Prop :=
  ∀ before op rest c', ops = before ++ op :: rest → Run (OpStep I cpus) c before c' →
    ¬Throws (op.exec I cpus) c'

/-- `P` holds of the zones that the operation reads, and of what it reads them from. -/
def Op.Finds (P : Env → Zone → Prop) (cpus : List Cpu) : Op Env → Prop
  | .getJoules env d id => P env (d, id)
  | .getJoulesComponentsAll env => ∀ z : Zone, z.2 ∈ ids cpus → P env z
  | .reset env => ∀ z : Zone, z.2 ∈ ids cpus → P env z
  | .destroy => True

theorem Op.Finds.congr {P Q : Env → Zone → Prop} {R : Env → Zone → Prop} {cpus : List Cpu}
    {op : Op Env} (h : op.Finds R cpus) (heq : ∀ env z, R env z → (P env z ↔ Q env z)) :
    op.Finds P cpus ↔ op.Finds Q cpus := by
  cases op with
  | getJoules env d id => exact heq env _ h
  | getJoulesComponentsAll env =>
    exact ⟨fun hp z hz => (heq env z (h z hz)).mp (hp z hz),
      fun hq z hz => (heq env z (h z hz)).mpr (hq z hz)⟩
  | reset env =>
    exact ⟨fun hp z hz => (heq env z (h z hz)).mp (hp z hz),
      fun hq z hz => (heq env z (h z hz)).mpr (hq z hz)⟩
  | destroy => exact Iff.rfl

theorem mem_pass_iff {cpus : List Cpu} {z : Zone} : z ∈ pass cpus ↔ z.2 ∈ ids cpus := by
  refine ⟨mem_pass, fun h => ?_⟩
  obtain ⟨cpu, hcpu, hid⟩ := mem_ids.mp h
  exact List.mem_flatMap.mpr ⟨cpu, hcpu, List.mem_map.mpr ⟨z.1, z.1.mem_all, by rw [hid]⟩⟩

section Ends

variable {I : CounterCpus γ Env} {cpus : List Cpu} {holds : γ → Prop} {P : Env → Zone → Prop}
  {c : γ} {ops : List (Op Env)}

/-- The calls of `prog` return exactly when `p` holds, and throw otherwise. -/
def ReturnsIff {α : Type} (holds : γ → Prop) (prog : Call γ α) (p : Prop) : Prop :=
  Triple holds prog (fun _ c => holds c ∧ p)
    (fun e c => ((∃ what, e = .runtimeError what) ∧ holds c) ∧ ¬p)

theorem ReturnsIff.throws_iff {α : Type} {prog : Call γ α} {p : Prop}
    (h : ReturnsIff holds prog p) (hc : holds c) : Throws prog c ↔ ¬p := by
  have hq := h c hc
  unfold Throws
  cases hr : prog.run c with
  | ok a t =>
    rw [hr] at hq
    simp [hq.2]
  | error e t =>
    rw [hr] at hq
    obtain ⟨⟨⟨what, rfl⟩, -⟩, hp⟩ := hq
    simp [hp]

theorem ReturnsIff.congr {α : Type} {prog : Call γ α} {p q : Prop} (h : ReturnsIff holds prog p)
    (hpq : p ↔ q) : ReturnsIff holds prog q := by
  rwa [← propext hpq]

theorem ReturnsIff.discard {α : Type} {prog : Call γ α} {p : Prop} (h : ReturnsIff holds prog p) :
    ReturnsIff holds ((fun _ => ()) <$> prog : Call γ Unit) p := by
  intro c hc
  have hq := h c hc
  rw [run_map]
  cases hr : prog.run c with
  | ok a t => rw [hr] at hq; exact hq
  | error e t => rw [hr] at hq; exact hq

theorem returnsIff_pass {env : Env}
    (hread : ∀ z : Zone, z.2 ∈ ids cpus → ReturnsIff holds (I.getJoules env z.1 z.2) (P env z)) :
    ReturnsIff holds ((Op.getJoulesComponentsAll env).exec I cpus)
      ((Op.getJoulesComponentsAll env).Finds P cpus) := by
  have hcalls : (Op.getJoulesComponentsAll env).exec I cpus =
      (pass cpus).forM fun z => (fun _ => ()) <$> I.getJoules env z.1 z.2 :=
    getJoulesComponentsAll_calls (I.getJoules env) cpus
  have hloop : ReturnsIff holds ((Op.getJoulesComponentsAll env).exec I cpus)
      (∀ z ∈ pass cpus, P env z) := by
    rw [hcalls]
    exact triple_forM_each fun z hz => (hread z (mem_pass_iff.mp hz)).discard
  exact hloop.congr
    ⟨fun h z hz => h z (mem_pass_iff.mpr hz), fun h z hz => h z (mem_pass_iff.mp hz)⟩

/-- A sequence of operations can be carried out from every state that satisfies `holds`. -/
theorem run_of_returnsIff
    (hop : ∀ op : Op Env, op.About cpus → ReturnsIff holds (op.exec I cpus) (op.Finds P cpus))
    (hc : holds c) (habout : ∀ op ∈ ops, op.About cpus) :
    ∃ c', Run (OpStep I cpus) c ops c' ∧ holds c' := by
  induction ops using List.reverseRecOn with
  | nil => exact ⟨c, .nil, hc⟩
  | append_singleton before op ih =>
    obtain ⟨s, hrun, hs⟩ := ih fun o ho => habout o (List.mem_append_left _ ho)
    have hlast : op.About cpus := habout op (by simp)
    have hq := hop op hlast s hs
    cases hr : (op.exec I cpus).run s with
    | ok a t =>
      rw [hr] at hq
      have hend : EndsIn (op.exec I cpus) s t := by simp [EndsIn, hr]
      exact ⟨t, hrun.snoc ⟨hlast, hend⟩, hq.1⟩
    | error e t =>
      rw [hr] at hq
      obtain ⟨⟨⟨what, rfl⟩, ht⟩, -⟩ := hq
      have hend : EndsIn (op.exec I cpus) s t := by simp [EndsIn, hr]
      exact ⟨t, hrun.snoc ⟨hlast, hend⟩, ht⟩

/-- From operations to sequences of them. -/
theorem neverThrows_iff_finds
    (hop : ∀ op : Op Env, op.About cpus → ReturnsIff holds (op.exec I cpus) (op.Finds P cpus))
    (hc : holds c) (habout : ∀ op ∈ ops, op.About cpus) :
    NeverThrows I cpus c ops ↔ ∀ op ∈ ops, op.Finds P cpus := by
  constructor
  · intro h op hmem
    obtain ⟨before, rest, rfl⟩ := List.append_of_mem hmem
    obtain ⟨c', hrun, hc'⟩ := run_of_returnsIff hop hc fun o ho =>
      habout o (List.mem_append_left _ ho)
    by_contra hfinds
    exact h before op rest c' rfl hrun (((hop op (habout op hmem)).throws_iff hc').mpr hfinds)
  · rintro h before op rest c' rfl hrun
    have hmem : op ∈ before ++ op :: rest := by simp
    have hc' : holds c' := by
      apply hrun.invariant holds hc
      rintro s o t hs ⟨ho, hend⟩
      have hq := hop o ho s hs
      unfold EndsIn at hend
      cases hr : (o.exec I cpus).run s with
      | ok a s' => rw [hr] at hq hend; exact hend ▸ hq.1
      | error e s' => rw [hr] at hq hend; exact hend.2 ▸ hq.1.2
    rw [(hop op (habout op hmem)).throws_iff hc']
    exact not_not_intro (h op hmem)

end Ends

namespace CounterCpusLinuxMsr

/-- The domains that `init` finds to be counted. -/
def counted (dev : Device) (family : CpuFamily) (cpus : List Cpu) : Domain → Bool
  | .cpu => true
  | .cores => cpus.all (hasCoresCounter dev family)
  | .graphic => cpus.all (hasGraphicCounter dev family)
  | .dram => cpus.all (hasDramCounter dev family)

/-- What the energy status register of a zone holds. -/
def content (family : CpuFamily) (cpus : List Cpu) (dev : Device) (z : Zone) : Option UInt64 :=
  (cpus.find? (·.cpuId == z.2)).bind fun cpu =>
    (register family z.1).bind (dev.read cpu.virtualCoreId)

/-- The register of the zone can be read, if its domain is counted. -/
def Readable (dev : Device) (family : CpuFamily) (cpus : List Cpu) (now : Device) (z : Zone) :
    Prop :=
  counted dev family cpus z.1 → (content family cpus now z).isSome

/-- The register of the zone does not hold zero, if its domain is counted. -/
def Nonzero (dev : Device) (family : CpuFamily) (cpus : List Cpu) (now : Device) (z : Zone) :
    Prop :=
  counted dev family cpus z.1 → content family cpus now z ≠ some 0

/-- `readEnergyCounter` has a value for the zone, if its domain is counted. -/
def Shown (c0 : CounterCpusLinuxMsr) (dev : Device) (z : Zone) : Prop :=
  c0.present z.1 → (c0.own dev z).isSome

variable {c0 c1 c : CounterCpusLinuxMsr} {dev now : Device} {z : Zone} {cpus : List Cpu}
  {family f : CpuFamily}

theorem own_eq_content : c0.own dev z = (content c0.family c0.cpus dev z).bind fun result =>
    if result = 0 then none else some (result &&& 0xFFFFFFFF).toUInt32 := by
  unfold own content
  cases c0.cpus.find? (·.cpuId == z.2) with
  | none => rfl
  | some cpu =>
    cases hreg : register c0.family z.1 with
    | none => rfl
    | some which => rfl

/-- What `init` resets. -/
structure ReadyToReset (dev : Device) (family : CpuFamily) (cpus : List Cpu)
    (c0 : CounterCpusLinuxMsr) : Prop where
  allocated : ∃ c1, Allocated dev c1 c0
  present : c0.present = counted dev family cpus
  cpus : c0.cpus = cpus
  family : c0.family = family

/-- On a register that can be read, zero is the only value that is not shown. -/
theorem ReadyToReset.shown_iff (hready : ReadyToReset dev family cpus c0)
    (h : Readable dev family cpus now z) : c0.Shown now z ↔ Nonzero dev family cpus now z := by
  unfold Shown
  rw [hready.present]
  refine forall_congr' fun hp => ?_
  obtain ⟨result, hresult⟩ := Option.isSome_iff_exists.mp (h hp)
  rw [own_eq_content, hready.family, hready.cpus, hresult, Option.bind_some]
  by_cases hzero : result = 0
  · simp [hzero]
  · simp [hzero]

/-- The state of a counter that has been set up: it has a bank of meters. -/
def Working (c0 c : CounterCpusLinuxMsr) : Prop := ∃ b, Represents c0 (· ∈ ids c0.cpus) b c

theorem getJoules_returnsIff (halloc : Allocated dev c1 c0) (hids : Contiguous c0.cpus)
    (hne : c0.cpus ≠ []) (hid : z.2 ∈ ids c0.cpus) :
    ReturnsIff (Working c0) (methods.getJoules now z.1 z.2) (c0.Shown now z) := by
  have M := halloc.metered hids hne
  rintro c ⟨b, hb⟩
  cases hp : c0.present z.1 with
  | false =>
    rw [M.absent hb hp]
    exact ⟨⟨b, hb⟩, fun h => by rw [hp] at h; contradiction⟩
  | true =>
    have hz : c0.gauge.zones z := Gauge.zones_iff.mpr ⟨hp, hid⟩
    cases hown : c0.own now z with
    | none =>
      obtain ⟨what, hrun⟩ := M.blind hb hz (show c0.gauge.own now z = none by simp [gauge, hown])
      rw [hrun]
      refine ⟨⟨⟨what, rfl⟩, b, hb⟩, fun h => ?_⟩
      have hsome := h hp
      rw [hown] at hsome
      contradiction
    | some u =>
      obtain ⟨c', hrun, hb'⟩ :=
        M.read hb hz (show c0.gauge.own now z = some u.toNat by simp [gauge, hown])
      rw [hrun]
      exact ⟨⟨_, hb'⟩, fun _ => by rw [hown]; rfl⟩

theorem reset_returnsIff (now : Device) {seen : CpuId → Prop} {b : Bank Zone} (hc0 : Configured c0)
    (hids : Contiguous c0.cpus) :
    Triple (Represents c0 seen b) (reset now)
      (fun _ c => Working c0 c ∧ ∀ z : Zone, z.2 ∈ ids c0.cpus → c0.Shown now z)
      (fun e c => ((∃ what, e = .runtimeError what) ∧ ∃ b, Represents c0 seen b c) ∧
        ¬∀ z : Zone, z.2 ∈ ids c0.cpus → c0.Shown now z) := by
  apply (reset_triple now hc0 hids).conseq (fun _ h => h)
  · rintro _ c ⟨hrep, hsees⟩
    exact ⟨⟨_, hrep⟩, fun z hz => hsees z.2 hz z.1⟩
  · rintro e c ⟨i, hi, hthrown, ⟨d, hp, hown⟩, hrep⟩
    refine ⟨⟨hthrown, hrep⟩, fun h => ?_⟩
    have hsome := h (d, i) hi hp
    rw [hown] at hsome
    contradiction

/-- The step lemma: an operation returns exactly when it finds a value in each register that it
reads. -/
theorem op_returnsIff (halloc : Allocated dev c1 c0) (hids : Contiguous c0.cpus)
    (hne : c0.cpus ≠ []) {op : Op Device} (habout : op.About c0.cpus) :
    ReturnsIff (Working c0) (op.exec methods c0.cpus) (op.Finds c0.Shown c0.cpus) := by
  cases op with
  | getJoules env d id =>
    have hid : ((d, id) : Zone).2 ∈ ids c0.cpus := habout
    exact (getJoules_returnsIff halloc hids hne hid).discard
  | getJoulesComponentsAll env =>
    exact returnsIff_pass fun z hz => getJoules_returnsIff halloc hids hne hz
  | reset env =>
    rintro c ⟨b, hb⟩
    exact reset_returnsIff env halloc.configured hids c hb
  | destroy =>
    rintro c ⟨b, hb⟩
    have hrun := (halloc.metered hids hne).destroy hb
    simp only [Op.exec, hrun]
    exact ⟨⟨b, hb⟩, trivial⟩

/-- Registers are opened for the CPUs of the topology only. -/
def ClosedElsewhere (cpus : List Cpu) (c : CounterCpusLinuxMsr) : Prop :=
  c.cpus = cpus ∧ ∀ id ∉ ids cpus, c.msrs.get? id = none

theorem openMsr_closed : Triple (ClosedElsewhere cpus) (cpus.forM (openMsr dev))
    (fun _ => ClosedElsewhere cpus) (fun _ _ => True) := by
  apply triple_forM_invariant
  rintro cpu hcpu c ⟨hcpus, hclosed⟩
  by_cases hlt : cpu.cpuId < c.msrs.size
  · simp only [openMsr, EStateM.run_bind, EStateM.run_get, writableSlot_of_lt hlt, EStateM.run_pure,
      EStateM.run_modify]
    cases dev.available cpu.virtualCoreId with
    | false => trivial
    | true =>
      refine ⟨hcpus, fun id hid => ?_⟩
      have hne : cpu.cpuId ≠ id := fun heq => hid (heq ▸ List.mem_map_of_mem hcpu)
      simpa [Slots.get?_set_ne hne] using hclosed id hid
  · simp [openMsr, writableSlot, hlt]

theorem allocate_counted : Triple (fun c => c.cpus = cpus ∧ c.family = family) (allocate dev)
    (fun _ c => c.present = counted dev family cpus ∧ ClosedElsewhere cpus c)
    (fun _ _ => True) := by
  rintro c ⟨rfl, rfl⟩
  let empty : CounterCpusLinuxMsr := { c with
    maxId := maxCpuId c.cpus, msrs := .uninitialised (maxCpuId c.cpus + 1) }
  have hempty : ClosedElsewhere c.cpus empty := ⟨rfl, by simp [empty]⟩
  have hopens : Triple _ (c.cpus.forM (openMsr dev)) _ _ := openMsr_closed
  have hloop := hopens empty hempty
  simp only [allocate, EStateM.run_bind, EStateM.run_get, EStateM.run_modify]
  cases hopen : (c.cpus.forM (openMsr dev)).run empty with
  | error e t => trivial
  | ok _ t =>
    rw [hopen] at hloop
    cases hslot : t.msrs.get? (maxCpuId c.cpus) with
    | none => simp [hslot]
    | some core =>
      simp only [readSlot_of_some hslot, EStateM.run_pure]
      refine ⟨?_, hloop⟩
      funext d
      cases d <;> rfl

/-- A reset that returns has read the registers in every position, so the positions are
identifiers. -/
theorem contiguous_of_reset (hclosed : ClosedElsewhere cpus c0)
    (hreset : (reset now).run c0 = .ok () c) : Contiguous cpus := by
  have hslots := reset_msrs hreset
  rw [Contiguous, ← length_ids]
  apply nodup_range_perm
  intro i hi
  rw [hclosed.1, ← length_ids] at hslots
  by_contra hmissing
  have hslot := hslots i (List.mem_range.mp hi)
  rw [hclosed.2 i hmissing] at hslot
  contradiction

variable {first : Cpu} {rest : List Cpu}

theorem allocate_ready (f family : CpuFamily)
    (hsupported : ∀ cpu ∈ first :: rest, isCpuSupported dev cpu)
    (hids : Contiguous (first :: rest)) :
    ∃ c0, (allocate dev).run (chosen (first :: rest) f family) = .ok () c0 ∧
      ReadyToReset dev family (first :: rest) c0 := by
  have hne : (chosen (first :: rest) f family).cpus ≠ [] := List.cons_ne_nil _ _
  have hnodup : (ids (first :: rest)).Nodup := hids.nodup_iff.mpr List.nodup_range
  obtain ⟨c0, hrun, halloc⟩ := allocate_run hne hnodup fun cpu hcpu =>
    available_of_supported (hsupported cpu hcpu)
  have hcounted := allocate_counted.ok_of ⟨rfl, rfl⟩ hrun
  exact ⟨c0, hrun, ⟨_, halloc⟩, hcounted.1, halloc.cpus, halloc.family⟩

/-- An `init` that returns `true` has reset what it allocated. -/
theorem init_true_ready (hvendor : vendorFamily first = some family)
    (hsupported : ∀ cpu ∈ first :: rest, isCpuSupported dev cpu)
    (hinit : (init dev now).run (.new (first :: rest) f) = .ok true c) :
    Contiguous (first :: rest) ∧ ∃ c0, ReadyToReset dev family (first :: rest) c0 ∧
      (reset now).run c0 = .ok () c := by
  rw [init_allocates f now hvendor hsupported, EStateM.run_bind] at hinit
  cases hrun : (allocate dev).run (chosen (first :: rest) f family) with
  | error e t => rw [hrun] at hinit; cases hinit
  | ok _ c0 =>
    rw [hrun] at hinit
    simp only [EStateM.run_bind] at hinit
    cases hreset : (reset now).run c0 with
    | error e t => rw [hreset] at hinit; cases hinit
    | ok _ t =>
      rw [hreset] at hinit
      cases hinit
      have hcounted := allocate_counted.ok_of ⟨rfl, rfl⟩ hrun
      have hids : Contiguous (first :: rest) := contiguous_of_reset hcounted.2 hreset
      obtain ⟨c0', hrun', hready⟩ := allocate_ready f family hsupported hids
      rw [hrun] at hrun'
      cases hrun'
      exact ⟨hids, c0, hready, hreset⟩

/-- On supported CPUs whose registers can be read, `init` throws exactly when a register that its
reset reads holds zero, and in any sequence of operations that follows one throws exactly when a
register that one of them reads holds zero. -/
theorem never_throws_iff (hvendor : vendorFamily first = some family)
    (hsupported : ∀ cpu ∈ first :: rest, isCpuSupported dev cpu) :
    (Contiguous (first :: rest) →
      (Op.reset now).Finds (Readable dev family (first :: rest)) (first :: rest) →
      (¬Throws (init dev now) (.new (first :: rest) f) ↔
        (Op.reset now).Finds (Nonzero dev family (first :: rest)) (first :: rest))) ∧
    ∀ c ops, (init dev now).run (.new (first :: rest) f) = .ok true c →
      (∀ op ∈ ops, op.About (first :: rest)) →
      (∀ op ∈ ops, op.Finds (Readable dev family (first :: rest)) (first :: rest)) →
      (NeverThrows methods (first :: rest) c ops ↔
        ∀ op ∈ ops, op.Finds (Nonzero dev family (first :: rest)) (first :: rest)) := by
  constructor
  · intro hids hreads
    obtain ⟨c0, hrun, hready⟩ := allocate_ready f family hsupported hids
    obtain ⟨c1, halloc⟩ := hready.allocated
    have hids0 : Contiguous c0.cpus := by rw [hready.cpus]; exact hids
    have hreset := reset_returnsIff now halloc.configured hids0 c0 halloc.represents
    rw [hready.cpus] at hreset
    have hshown : (Op.reset now).Finds c0.Shown (first :: rest) ↔
        (Op.reset now).Finds (Nonzero dev family (first :: rest)) (first :: rest) :=
      hreads.congr fun _ _ h => hready.shown_iff h
    simp only [show (∀ z : Zone, z.2 ∈ ids (first :: rest) → c0.Shown now z) ↔ _ from hshown]
      at hreset
    unfold Throws
    rw [init_allocates f now hvendor hsupported, EStateM.run_bind, hrun]
    simp only [EStateM.run_bind]
    cases hr : (reset now).run c0 with
    | ok _ t =>
      rw [hr] at hreset
      simp [hreset.2]
    | error e t =>
      rw [hr] at hreset
      obtain ⟨⟨⟨what, rfl⟩, -⟩, hzero⟩ := hreset
      simp [hzero]
  · intro c ops hinit habout hreads
    obtain ⟨hids, c0, hready, hreset⟩ := init_true_ready hvendor hsupported hinit
    obtain ⟨c1, halloc⟩ := hready.allocated
    have hids0 : Contiguous c0.cpus := by rw [hready.cpus]; exact hids
    have hne : c0.cpus ≠ [] := by rw [hready.cpus]; exact List.cons_ne_nil _ _
    have hworking :=
      ((reset_returnsIff now halloc.configured hids0).ok_of halloc.represents hreset).1
    have hops : NeverThrows methods (first :: rest) c ops ↔
        ∀ op ∈ ops, op.Finds c0.Shown (first :: rest) := by
      apply neverThrows_iff_finds ?_ hworking habout
      intro op hop
      rw [← hready.cpus] at hop ⊢
      exact op_returnsIff halloc hids0 hne hop
    rw [hops]
    refine forall₂_congr fun op hop => ?_
    exact (hreads op hop).congr fun _ _ h => hready.shown_iff h

/-- `packageOnly` counts the whole CPU only. -/
theorem packageOnly_counted {d : Domain}
    (h : counted (packageOnly 7) CPU_FAMILY_INTEL oneCpu d) : d = .cpu := by
  cases d with
  | cpu => rfl
  | _ => cases h

theorem packageOnly_readable_zone (reading : UInt64) {z : Zone} (hz : z.2 ∈ ids oneCpu) :
    Readable (packageOnly 7) CPU_FAMILY_INTEL oneCpu (packageOnly reading) z := by
  obtain ⟨d, id⟩ := z
  obtain rfl : id = 0 := List.mem_singleton.mp hz
  intro h
  obtain rfl : d = .cpu := packageOnly_counted h
  rfl

theorem packageOnly_nonzero {reading : UInt64} (hreading : reading ≠ 0) {z : Zone}
    (hz : z.2 ∈ ids oneCpu) :
    Nonzero (packageOnly 7) CPU_FAMILY_INTEL oneCpu (packageOnly reading) z := by
  obtain ⟨d, id⟩ := z
  obtain rfl : id = 0 := List.mem_singleton.mp hz
  intro h
  obtain rfl : d = .cpu := packageOnly_counted h
  exact fun heq => hreading (Option.some.inj heq)

theorem oneCpu_supported : ∀ cpu ∈ oneCpu, isCpuSupported (packageOnly 7) cpu := by decide

/-- A read and a pass of a register that wraps without showing zero. -/
theorem never_throws_oneCpu : NeverThrows methods oneCpu oneCpuInit
    [.getJoules (packageOnly 16) .cpu 0, .getJoulesComponentsAll (packageOnly 5)] := by
  have hvendor : vendorFamily ⟨0, "GenuineIntel", "6", 0⟩ = some CPU_FAMILY_INTEL := rfl
  have hinit : (init (packageOnly 7) (packageOnly 4294967280)).run
      (.new oneCpu CPU_FAMILY_AMD) = .ok true oneCpuInit := rfl
  have hzero : (0 : CpuId) ∈ ids oneCpu := by decide
  apply ((never_throws_iff hvendor oneCpu_supported).2 oneCpuInit _ hinit ?_ ?_).mpr
  · rintro op hop
    rcases List.mem_pair.mp hop with rfl | rfl
    · exact packageOnly_nonzero (by decide) hzero
    · exact fun z hz => packageOnly_nonzero (by decide) hz
  · rintro op hop
    rcases List.mem_pair.mp hop with rfl | rfl
    · exact hzero
    · trivial
  · rintro op hop
    rcases List.mem_pair.mp hop with rfl | rfl
    · exact packageOnly_readable_zone 16 hzero
    · exact fun z hz => packageOnly_readable_zone 5 hz

/-- Once a register that can be read has wrapped to zero, a read, a pass and a reset throw. -/
theorem zero_throws :
    (init (packageOnly 7) (packageOnly 4294967280)).run (.new oneCpu CPU_FAMILY_AMD) =
      .ok true oneCpuInit ∧
    (packageOnly 0).read 0 MSR_PKG_ENERGY_STATUS_INTEL = some 0 ∧
    Throws (getJoules (packageOnly 0) .cpu 0) oneCpuInit ∧
    Throws ((Op.getJoulesComponentsAll (packageOnly 0)).exec methods oneCpu) oneCpuInit ∧
    Throws (reset (packageOnly 0)) oneCpuInit ∧
    ¬∀ ops : List (Op Device), (∀ op ∈ ops, op.About oneCpu) →
      (∀ op ∈ ops, op.Finds (Readable (packageOnly 7) CPU_FAMILY_INTEL oneCpu) oneCpu) →
      NeverThrows methods oneCpu oneCpuInit ops := by
  have hread : Throws ((Op.reset (packageOnly 0)).exec methods oneCpu) oneCpuInit := ⟨_, _, rfl⟩
  refine ⟨rfl, rfl, ⟨_, _, rfl⟩, ⟨_, _, rfl⟩, hread, fun h => ?_⟩
  have hnever := h [.reset (packageOnly 0)] ?_ ?_
  · exact hnever [] _ [] _ rfl .nil hread
  · rintro op hop
    rw [List.mem_singleton.mp hop]
    trivial
  · rintro op hop
    rw [List.mem_singleton.mp hop]
    exact fun z hz => packageOnly_readable_zone 0 hz

end CounterCpusLinuxMsr

end Mammut.Energy
