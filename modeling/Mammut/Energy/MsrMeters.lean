import Mathlib.Tactic.Ring
import Mathlib.Data.Rat.Cast.Defs
import Mammut.Energy.Msr
import Mammut.Energy.Runs

/-! `CounterCpusLinuxMsr` as a bank of meters: one for each domain of each CPU, fed with what the
register of that domain and that CPU shows.  `Represents` relates the arrays of the counter to the
bank, and each method has a lemma that says which meters it reads or resets. -/

namespace Mammut.Energy

open Kit Kit.Meters Kit.Programs CpuFamily

/-- Both branches of `deltaDiff` recover the growth between two readings, equal ones included. -/
theorem deltaDiff_toNat (c1 c2 : UInt32) :
    ((deltaDiff c1 c2).toNat : ℤ) = elapsed (2 ^ 32) c1.toNat c2.toNat := by
  have h1 := c1.toNat_lt
  have h2 := c2.toNat_lt
  unfold deltaDiff
  split
  case isTrue h =>
    have hlt : c1.toNat < c2.toNat := UInt32.lt_iff_toNat_lt.mp h
    rw [elapsed_of_le hlt.le, UInt32.toNat_sub_of_le _ _ (UInt32.le_iff_toNat_le.mpr hlt.le)]
    omega
  case isFalse h =>
    have hle : c2.toNat ≤ c1.toNat := not_lt.mp fun hlt => h (UInt32.lt_iff_toNat_lt.mpr hlt)
    have hsub : (0xFFFFFFFF - c1 : UInt32).toNat = 0xFFFFFFFF - c1.toNat :=
      UInt32.toNat_sub_of_le _ _ (UInt32.le_iff_toNat_le.mpr (by simp; omega))
    rw [UInt32.toNat_add, UInt32.toNat_add, hsub]
    unfold elapsed
    split <;> simp <;> omega

namespace CounterCpusLinuxMsr

/-- Whether a domain is counted: `has...`, and always for the whole CPU. -/
def present (c : CounterCpusLinuxMsr) : Domain → Bool
  | .cpu => true
  | .cores => c.hasJoulesCores
  | .graphic => c.hasJoulesGraphic
  | .dram => c.hasJoulesDram

/-- The register that counts the energy of a domain. -/
def register : CpuFamily → Domain → Option ℕ
  | CPU_FAMILY_INTEL, .cpu => some MSR_PKG_ENERGY_STATUS_INTEL
  | CPU_FAMILY_INTEL, .cores => some MSR_PP0_ENERGY_STATUS_INTEL
  | CPU_FAMILY_INTEL, .graphic => some MSR_PP1_ENERGY_STATUS_INTEL
  | CPU_FAMILY_INTEL, .dram => some MSR_DRAM_ENERGY_STATUS_INTEL
  | CPU_FAMILY_AMD, .cpu => some MSR_PKG_ENERGY_STATUS_AMD
  | CPU_FAMILY_AMD, _ => none

/-- What a register shows, when it can be read and is not zero. -/
def shown (dev : Device) (core : VirtualCoreId) (which : ℕ) : Option UInt32 :=
  (dev.read core which).bind fun result =>
    if result = 0 then none else some (result &&& 0xFFFFFFFF).toUInt32

/-- What the register of a zone shows on the CPU with that identifier. -/
def own (c : CounterCpusLinuxMsr) (dev : Device) (z : Zone) : Option UInt32 :=
  (c.cpus.find? (·.cpuId == z.2)).bind fun cpu =>
    (register c.family z.1).bind (shown dev cpu.virtualCoreId)

/-- What the counter counts: units of energy, in 32 bits. -/
def gauge (c : CounterCpusLinuxMsr) : Gauge Device where
  cpus := c.cpus
  present := c.present
  own dev z := (c.own dev z).map UInt32.toNat
  modulus := 2 ^ 32
  unit := c.energyPerUnit

/-- What `init` sets up and no other method changes. -/
structure Configured (c : CounterCpusLinuxMsr) : Prop where
  nodup : (ids c.cpus).Nodup
  msr : ∀ cpu ∈ c.cpus, c.msrs.get? cpu.cpuId = some cpu.virtualCoreId
  counts : ∀ d, c.present d → ∃ which, register c.family d = some which

/-- The arrays of `c` hold the meters of the bank `b`, for the CPUs of `c0`, whose other fields it
has.  The last readings are known for the CPUs that were reset (`seen`). -/
structure Represents (c0 : CounterCpusLinuxMsr) (seen : CpuId → Prop) (b : Bank Zone)
    (c : CounterCpusLinuxMsr) : Prop where
  setup : c = { c0 with joulesCpus := c.joulesCpus, lastReadCounters := c.lastReadCounters }
  size : ∀ id ∈ ids c0.cpus, ∀ d, id < (c.lastReadCounters d).size
  joules : ∀ id ∈ ids c0.cpus, ∃ j, c.joulesCpus.get? id = some j ∧
    ∀ d, c0.present d → j.get d = (b (d, id)).accumulated * c0.energyPerUnit
  last : ∀ id ∈ ids c0.cpus, ∀ d, c0.present d → seen id →
    ∃ u, (c.lastReadCounters d).get? id = some u ∧ u.toNat = (b (d, id)).last

variable {c0 c : CounterCpusLinuxMsr} {seen seen' : CpuId → Prop} {b : Bank Zone} {dev : Device}
  {d : Domain} {id : CpuId} {which : ℕ} {u : UInt32}

theorem register_mem_energyStatus {family : CpuFamily} (hreg : register family d = some which) :
    which ∈ energyStatus := by
  cases family <;> cases d <;> simp_all [register, energyStatus]

theorem Configured.own_eq (hc0 : Configured c0) {cpu : Cpu} (hcpu : cpu ∈ c0.cpus) :
    c0.own dev (d, cpu.cpuId) = (register c0.family d).bind (shown dev cpu.virtualCoreId) := by
  simp [own, find?_cpuId hc0.nodup hcpu]

namespace Represents

theorem present_eq (h : Represents c0 seen b c) : c.present = c0.present := by
  rw [h.setup]; rfl

theorem gauge_eq (h : Represents c0 seen b c) : c.gauge = c0.gauge := by
  rw [h.setup]; rfl

theorem congr {b' : Bank Zone} (h : Represents c0 seen b c)
    (heq : ∀ z, c0.gauge.zones z → b' z = b z) : Represents c0 seen b' c := by
  refine ⟨h.setup, h.size, fun id hid => ?_, fun id hid d hp hseen => ?_⟩
  · obtain ⟨j, hj, hacc⟩ := h.joules id hid
    refine ⟨j, hj, fun d hp => ?_⟩
    rw [heq (d, id) (Gauge.zones_iff.mpr ⟨hp, hid⟩)]
    exact hacc d hp
  · rw [heq (d, id) (Gauge.zones_iff.mpr ⟨hp, hid⟩)]
    exact h.last id hid d hp hseen

theorem weaken (h : Represents c0 seen b c) (hs : ∀ id, seen' id → seen id) :
    Represents c0 seen' b c :=
  ⟨h.setup, h.size, h.joules, fun id hid d hp hz => h.last id hid d hp (hs _ hz)⟩

end Represents

theorem readEnergyCounter_run (dev : Device) (hc0 : Configured c0) (h : Represents c0 seen b c)
    (hid : id ∈ ids c0.cpus) (hreg : register c0.family d = some which) :
    (readEnergyCounter dev id which).run c = match c0.own dev (d, id) with
      | some u => .ok u c
      | none => .error (.runtimeError
          "Fatal error. Counter has been created but registers are not present.") c := by
  obtain ⟨cpu, hcpu, rfl⟩ := mem_ids.mp hid
  have hmsr : c.msrs.get? cpu.cpuId = some cpu.virtualCoreId := by
    rw [h.setup]; exact hc0.msr cpu hcpu
  rw [hc0.own_eq hcpu, hreg]
  simp only [readEnergyCounter, register_mem_energyStatus hreg, if_true, EStateM.run_bind,
    EStateM.run_get, readSlot_of_some hmsr, EStateM.run_pure, shown, Option.bind_some]
  cases hread : dev.read cpu.virtualCoreId which with
  | none => rfl
  | some result =>
    by_cases hzero : result = 0
    · simp [hzero]
    · simp [hzero]

theorem updateCounter_run (hc0 : Configured c0) (h : Represents c0 seen b c)
    (hid : id ∈ ids c0.cpus) (hreg : register c0.family d = some which)
    (hpresent : c0.present d) (hseen : seen id) (hown : c0.own dev (d, id) = some u) :
    ∃ c', (updateCounter dev id d which).run c = .ok () c' ∧
      Represents c0 seen (b.read (2 ^ 32) (fun z => decide (z = (d, id))) fun _ => u.toNat) c' := by
  obtain ⟨j, hj, hacc⟩ := h.joules id hid
  obtain ⟨v, hv, hlast⟩ := h.last id hid d hpresent hseen
  have hread := readEnergyCounter_run dev hc0 h hid hreg
  rw [hown] at hread
  have hunit : c.energyPerUnit = c0.energyPerUnit := by rw [h.setup]
  have hgrowth : ((deltaDiff v u).toNat : ℚ) =
      ((elapsed (2 ^ 32) (b (d, id)).last u.toNat : ℤ) : ℚ) := by
    rw [← hlast, ← deltaDiff_toNat]; rfl
  refine ⟨(c.setJoules id (j.set d (j.get d +
    ((deltaDiff v u).toNat : ℚ) * c.energyPerUnit))).setLast d id u, ?_, ?_, ?_, ?_, ?_⟩
  · simp [updateCounter, readSlot_of_some hj, hread, readSlot_of_some hv, EStateM.run_bind]
  · rw [h.setup]; rfl
  · intro i hi e
    by_cases he : e = d <;> simp [setLast, setJoules, he, h.size i hi]
  · intro i hi
    by_cases hii : i = id
    · subst hii
      refine ⟨_, Slots.get?_set_self (Slots.lt_size hj), fun e hp => ?_⟩
      by_cases he : e = d
      · subst he
        simp [Bank.read, Meter.read, hacc e hp, hgrowth, hunit, add_mul]
      · rw [JoulesCpu.get_set_ne _ _ (Ne.symm he), hacc e hp]
        simp [Bank.read, he]
    · obtain ⟨k, hk, hkacc⟩ := h.joules i hi
      exact ⟨k, by simpa [setLast, setJoules, Slots.get?_set_ne (Ne.symm hii)] using hk,
        fun e hp => by simp [Bank.read, hii, hkacc e hp]⟩
  · intro i hi e hp hz
    by_cases heq : (e, i) = (d, id)
    · obtain ⟨rfl, rfl⟩ := Prod.mk.inj heq
      exact ⟨u, by simp [setLast, setJoules, Slots.lt_size hv], by simp [Bank.read, Meter.read]⟩
    · obtain ⟨w, hw, hwlast⟩ := h.last i hi e hp hz
      refine ⟨w, ?_, by simpa [Bank.read, heq] using hwlast⟩
      by_cases he : e = d
      · have hi' : id ≠ i := fun hii => heq (by rw [he, hii])
        simpa [setLast, setJoules, he, Slots.get?_set_ne hi'] using he ▸ hw
      · simpa [setLast, setJoules, he] using hw

/-- A method that reads a counted domain updates its counter and returns its joules. -/
theorem getJoules_eq (hpresent : c.present d) (hreg : register c.family d = some which) :
    (getJoules dev d id).run c = (do
      updateCounter dev id d which
      return (← readSlot (← get).joulesCpus id).get d : Call CounterCpusLinuxMsr Joules).run c := by
  cases d <;> cases hfamily : c.family <;> simp_all [present, register, getJoules, getJoulesCpu,
    getJoulesCores, getJoulesGraphic, getJoulesDram, updatePackage, updateCores, JoulesCpu.get]

/-- A read whose register can be read: the meter of the zone is read, and the value returned is
its energy. -/
theorem getJoules_shown (hc0 : Configured c0) (h : Represents c0 seen b c)
    (hid : id ∈ ids c0.cpus) (hpresent : c0.present d) (hseen : seen id)
    (hown : c0.own dev (d, id) = some u) :
    ∃ c', (getJoules dev d id).run c =
        .ok (((b (d, id)).read (2 ^ 32) u.toNat).accumulated * c0.energyPerUnit) c' ∧
      Represents c0 seen (b.read (2 ^ 32) (fun z => decide (z = (d, id))) fun _ => u.toNat) c' := by
  obtain ⟨which, hreg⟩ := hc0.counts d hpresent
  obtain ⟨c', hrun, hrep⟩ := updateCounter_run hc0 h hid hreg hpresent hseen hown
  obtain ⟨j, hj, hacc⟩ := hrep.joules id hid
  have hfamily : register c.family d = some which := by rw [h.setup]; exact hreg
  refine ⟨c', ?_, hrep⟩
  rw [getJoules_eq (by rw [h.present_eq]; exact hpresent) hfamily]
  simp only [EStateM.run_bind, hrun, EStateM.run_get, readSlot_of_some hj, EStateM.run_pure,
    hacc d hpresent]
  simp [Bank.read]

theorem getJoules_blind (hc0 : Configured c0) (h : Represents c0 seen b c)
    (hid : id ∈ ids c0.cpus) (hpresent : c0.present d) (hown : c0.own dev (d, id) = none) :
    ∃ what, (getJoules dev d id).run c = .error (.runtimeError what) c := by
  obtain ⟨which, hreg⟩ := hc0.counts d hpresent
  obtain ⟨j, hj, hacc⟩ := h.joules id hid
  have hfamily : register c.family d = some which := by rw [h.setup]; exact hreg
  have hread := readEnergyCounter_run dev hc0 h hid hreg
  rw [hown] at hread
  rw [getJoules_eq (by rw [h.present_eq]; exact hpresent) hfamily]
  simp [updateCounter, readSlot_of_some hj, hread]

theorem getJoules_absent (habsent : c.present d = false) :
    (getJoules dev d id).run c = .ok 0 c := by
  cases d <;> simp_all [present, getJoules, getJoulesCores, getJoulesGraphic, getJoulesDram]

/-- A reset that has restarted the domains `done` of CPU `i`, so far. -/
structure Restarted (c0 : CounterCpusLinuxMsr) (dev : Device) (seen : CpuId → Prop) (b : Bank Zone)
    (i : CpuId) (done : List Domain) (c : CounterCpusLinuxMsr) : Prop where
  represents : ∃ b', Represents c0 seen b' c ∧ ∀ z : Zone, z.2 ≠ i → b' z = b z
  restarted : ∀ d ∈ done, c0.present d → ∃ u, c0.own dev (d, i) = some u ∧
    (c.lastReadCounters d).get? i = some u

/-- The registers of CPU `i` that are counted can be read. -/
def Sees (c0 : CounterCpusLinuxMsr) (dev : Device) (i : CpuId) : Prop :=
  ∀ d, c0.present d → (c0.own dev (d, i)).isSome

/-- How a reset of CPU `i` fails: with an exception, because a register cannot be read. -/
structure ResetFailed (c0 : CounterCpusLinuxMsr) (dev : Device) (seen : CpuId → Prop)
    (i : CpuId) (e : Exn) (c : CounterCpusLinuxMsr) : Prop where
  thrown : ∃ what, e = .runtimeError what
  blind : ∃ d, c0.present d ∧ c0.own dev (d, i) = none
  represents : ∃ b, Represents c0 seen b c

variable {i : CpuId} {done : List Domain}

theorem restart_triple (hc0 : Configured c0) (hi : i ∈ ids c0.cpus) (hpresent : c0.present d)
    (hreg : register c0.family d = some which) :
    Triple (Restarted c0 dev seen b i done) (restart dev i d which)
      (fun _ => Restarted c0 dev seen b i (done ++ [d])) (ResetFailed c0 dev seen i) := by
  rintro c ⟨⟨b', hrep, hframe⟩, hdone⟩
  have hread := readEnergyCounter_run dev hc0 hrep hi hreg
  cases hown : c0.own dev (d, i) with
  | none =>
    rw [hown] at hread
    simp only [restart, EStateM.run_bind, hread]
    exact ⟨⟨_, rfl⟩, ⟨d, hpresent, hown⟩, b', hrep⟩
  | some u =>
    rw [hown] at hread
    have hsize := hrep.size i hi d
    simp only [restart, EStateM.run_bind, hread, EStateM.run_get, writableSlot_of_lt hsize,
      EStateM.run_pure, EStateM.run_modify]
    refine ⟨⟨fun z => if z = (d, i) then ⟨(b' z).accumulated, u.toNat⟩ else b' z,
      ⟨?_, ?_, ?_, ?_⟩, ?_⟩, ?_⟩
    · conv_lhs => rw [hrep.setup]
      rfl
    · intro id hid e
      by_cases he : e = d <;> simp [setLast, he, hrep.size id hid]
    · intro id hid
      obtain ⟨j, hj, hacc⟩ := hrep.joules id hid
      refine ⟨j, hj, fun e hp => ?_⟩
      rw [hacc e hp]
      split <;> simp_all
    · intro id hid e hp hz
      by_cases heq : (e, id) = (d, i)
      · obtain ⟨rfl, rfl⟩ := Prod.mk.inj heq
        exact ⟨u, by simp [setLast, hsize], by simp⟩
      · obtain ⟨w, hw, hlast⟩ := hrep.last id hid e hp hz
        refine ⟨w, ?_, by simpa [heq] using hlast⟩
        by_cases he : e = d
        · have hne : i ≠ id := fun h => heq (by rw [he, h])
          subst he
          simpa [setLast, Slots.get?_set_ne hne] using hw
        · simpa [setLast, he] using hw
    · intro z hz
      have hne : z ≠ (d, i) := fun h => hz (by rw [h])
      simp [hne, hframe z hz]
    · intro e he hpe
      by_cases heq : e = d
      · subst heq
        exact ⟨u, hown, by simp [setLast, hsize]⟩
      · have hmem : e ∈ done := by simpa [heq] using he
        obtain ⟨w, how, hw⟩ := hdone e hmem hpe
        exact ⟨w, how, by simpa [setLast, heq] using hw⟩

theorem Restarted.skip (h : Restarted c0 dev seen b i done c) (habsent : c0.present d = false) :
    Restarted c0 dev seen b i (done ++ [d]) c := by
  refine ⟨h.represents, fun e he hpe => h.restarted e ?_ hpe⟩
  rcases List.mem_append.mp he with hmem | hmem
  · exact hmem
  · rw [List.mem_singleton.mp hmem, habsent] at hpe
    contradiction

theorem restartPackage_triple (hc0 : Configured c0) (hi : i ∈ ids c0.cpus) :
    Triple (Restarted c0 dev seen b i []) (restartPackage dev i)
      (fun _ => Restarted c0 dev seen b i [.cpu]) (ResetFailed c0 dev seen i) := by
  intro c hc
  obtain ⟨b', hrep, hframe⟩ := hc.represents
  have hfamily : c.family = c0.family := by rw [hrep.setup]
  simp only [restartPackage, EStateM.run_bind, EStateM.run_get]
  cases hf : c0.family <;> simp only [hfamily, hf] <;>
    exact restart_triple hc0 hi rfl (by rw [hf]; rfl) c hc

theorem restartIf_triple {has : CounterCpusLinuxMsr → Bool} (hc0 : Configured c0)
    (hi : i ∈ ids c0.cpus) (hhas : ∀ c, has c = c.present d)
    (hreg : ∀ w, register c0.family d = some w → w = which) :
    Triple (Restarted c0 dev seen b i done) (restartIf has dev i d which)
      (fun _ => Restarted c0 dev seen b i (done ++ [d])) (ResetFailed c0 dev seen i) := by
  intro c hc
  obtain ⟨b', hrep, hframe⟩ := hc.represents
  have hpc : has c = c0.present d := by rw [hhas, hrep.present_eq]
  simp only [restartIf, EStateM.run_bind, EStateM.run_get, hpc]
  cases hp : c0.present d with
  | false => exact hc.skip hp
  | true =>
    obtain ⟨w, hw⟩ := hc0.counts d hp
    rw [hreg w hw] at hw
    exact restart_triple hc0 hi hp hw c hc

theorem clearJoules_triple (hi : i ∈ ids c0.cpus) :
    Triple (Restarted c0 dev seen b i Domain.all) (clearJoules i)
      (fun _ c => Represents c0 (fun id => seen id ∨ id = i)
        (b.reset (fun z => decide (z.2 = i)) (c0.gauge.readings dev)) c ∧ Sees c0 dev i)
      (ResetFailed c0 dev seen i) := by
  rintro c ⟨⟨b', hrep, hframe⟩, hdone⟩
  obtain ⟨j, hj, -⟩ := hrep.joules i hi
  simp only [clearJoules, EStateM.run_bind, EStateM.run_get,
    writableSlot_of_lt (Slots.lt_size hj), EStateM.run_pure, EStateM.run_modify]
  have hsees : Sees c0 dev i := by
    intro d hp
    obtain ⟨u, hown, -⟩ := hdone d d.mem_all hp
    simp [hown]
  refine ⟨⟨?_, hrep.size, ?_, ?_⟩, hsees⟩
  · conv_lhs => rw [hrep.setup]
    rfl
  · intro id hid
    by_cases heq : id = i
    · subst heq
      exact ⟨.zero, by simp [setJoules, Slots.lt_size hj],
        fun d _ => by simp [Bank.reset, Meter.reset]⟩
    · obtain ⟨k, hk, hacc⟩ := hrep.joules id hid
      refine ⟨k, by simpa [setJoules, Slots.get?_set_ne (Ne.symm heq)] using hk, fun d hp => ?_⟩
      rw [hacc d hp, hframe (d, id) heq]
      simp [Bank.reset, heq]
  · intro id hid d hp hz
    by_cases heq : id = i
    · subst heq
      obtain ⟨u, hown, hu⟩ := hdone d d.mem_all hp
      exact ⟨u, hu, by simp [Bank.reset, Meter.reset, Gauge.readings, gauge,
        hown]⟩
    · obtain ⟨u, hu, hlast⟩ := hrep.last id hid d hp (by simpa [heq] using hz)
      refine ⟨u, hu, ?_⟩
      rw [hlast, hframe (d, id) heq]
      simp [Bank.reset, heq]

/-- A reset of CPU `i` resets its meters, or throws because one of its registers is blind. -/
theorem resetAt_triple (hc0 : Configured c0) (hi : i ∈ ids c0.cpus) :
    Triple (Represents c0 seen b) (resetAt dev i)
      (fun _ c => Represents c0 (fun id => seen id ∨ id = i)
        (b.reset (fun z => decide (z.2 = i)) (c0.gauge.readings dev)) c ∧ Sees c0 dev i)
      (ResetFailed c0 dev seen i) := by
  have hstart : ∀ c, Represents c0 seen b c → Restarted c0 dev seen b i [] c := fun c h =>
    ⟨⟨b, h, fun _ _ => rfl⟩, fun _ hd => absurd hd List.not_mem_nil⟩
  have hunique : ∀ (d : Domain) which, register CPU_FAMILY_INTEL d = some which → d ≠ .cpu →
      ∀ w, register c0.family d = some w → w = which := by
    intro d which hreg hd w hw
    cases hf : c0.family <;> cases d <;> simp_all [register]
  unfold resetAt
  refine triple_bind ((restartPackage_triple hc0 hi).pre hstart) fun _ => ?_
  refine triple_bind (restartIf_triple hc0 hi (fun _ => rfl) (hunique .cores _ rfl nofun)) fun _ => ?_
  refine triple_bind (restartIf_triple hc0 hi (fun _ => rfl) (hunique .graphic _ rfl nofun))
    fun _ => ?_
  refine triple_bind (restartIf_triple hc0 hi (fun _ => rfl) (hunique .dram _ rfl nofun)) fun _ => ?_
  exact clearJoules_triple hi

/-- With contiguous identifiers, `reset` resets every meter, or throws because the register of some
zone cannot be read. -/
theorem reset_triple (dev : Device) (hc0 : Configured c0) (hids : Contiguous c0.cpus) :
    Triple (Represents c0 seen b) (reset dev)
      (fun _ c => Represents c0 (· ∈ ids c0.cpus)
        (b.reset c0.gauge.zones (c0.gauge.readings dev)) c ∧ ∀ i ∈ ids c0.cpus, Sees c0 dev i)
      (fun e c => ∃ i ∈ ids c0.cpus, ResetFailed c0 dev seen i e c) := by
  have hmem : ∀ i, i ∈ List.range c0.cpus.length ↔ i ∈ ids c0.cpus := fun i => hids.mem_iff.symm
  let visits (visited : List CpuId) (b : Bank Zone) (c : CounterCpusLinuxMsr) : Prop :=
    Represents c0 (fun id => seen id ∨ id ∈ visited) b c ∧ ∀ i ∈ visited, Sees c0 dev i
  have loop : Triple (visits [] b) ((List.range c0.cpus.length).forM (resetAt dev))
      (fun _ => visits (List.range c0.cpus.length)
        (b.reset (fun z => decide (z.2 ∈ List.range c0.cpus.length)) (c0.gauge.readings dev)))
      (fun e c => ∃ i ∈ ids c0.cpus, ResetFailed c0 dev seen i e c) := by
    apply triple_resetLoop visits
    rintro visited b i hlt c ⟨hrep, hvisited⟩
    have hi : i ∈ ids c0.cpus := (hmem i).mp (List.mem_range.mpr hlt)
    apply (resetAt_triple hc0 hi).conseq (fun _ h => h) ?_ ?_ c hrep
    · rintro _ c' ⟨h, hsees⟩
      refine ⟨h.weaken fun id hid => by simpa [or_assoc] using hid, fun j hj => ?_⟩
      rcases List.mem_append.mp hj with hmem | hmem
      · exact hvisited j hmem
      · rwa [List.mem_singleton.mp hmem]
    · intro e c' h
      obtain ⟨b', hb'⟩ := h.represents
      exact ⟨i, hi, h.thrown, h.blind, b', hb'.weaken fun _ => Or.inl⟩
  intro c hc
  have hcpus : c.cpus = c0.cpus := by rw [hc.setup]
  simp only [reset, EStateM.run_bind, EStateM.run_get, hcpus]
  apply (loop.post ?_) c ⟨hc.weaken fun id hid => by simpa using hid, by simp⟩
  rintro _ c' ⟨h, hsees⟩
  refine ⟨(h.weaken fun id hid => Or.inr ((hmem id).mpr hid)).congr fun z hz => ?_,
    fun i hi => hsees i ((hmem i).mpr hi)⟩
  have hid : z.2 ∈ List.range c0.cpus.length := (hmem z.2).mpr (Gauge.zones_iff.mp hz).2
  simp only [Bank.reset, hz, hid, decide_true]

theorem ResetFailed.blindZone {e : Exn} (hi : i ∈ ids c0.cpus) (h : ResetFailed c0 dev seen i e c) :
    (∃ what, e = .runtimeError what) ∧ (∃ z, c0.gauge.zones z ∧ c0.gauge.own dev z = none) ∧
      ∃ b, Represents c0 seen b c := by
  obtain ⟨d, hp, hown⟩ := h.blind
  exact ⟨h.thrown, ⟨(d, i), Gauge.zones_iff.mpr ⟨hp, hi⟩, by simp [gauge, hown]⟩, h.represents⟩

end CounterCpusLinuxMsr

end Mammut.Energy
