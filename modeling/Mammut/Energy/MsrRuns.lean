import Mathlib.Tactic.NormNum
import Mammut.Energy.MsrInit

/-! Runs of a `CounterCpusLinuxMsr` that `init` has set up, on registers of 32 bits. -/

namespace Mammut.Energy

open Kit Kit.Meters Kit.Programs Kit.Runs

namespace CounterCpusLinuxMsr

/-- A successful `init` starts in step with a tally of the energy consumed since. -/
theorem init_inStep {cpus : List Cpu} {f : CpuFamily} {dev now : Device} {c : CounterCpusLinuxMsr}
    {E : Zone → ℕ} (hids : Contiguous cpus)
    (hinit : (init dev now).run (.new cpus f) = .ok true c)
    (hshows : c.gauge.Shows (fun _ => 2 ^ 32) now c.gauge.zones E) :
    ∃ holds, Metered methods c.gauge holds ∧
      InStep c.gauge (fun _ => 2 ^ 32) holds ⟨c, Tally.start E, []⟩ := by
  have hnodup : (ids cpus).Nodup := hids.nodup_iff.mpr List.nodup_range
  have hne : cpus ≠ [] := by
    rintro rfl
    simp [init, CounterCpusLinuxMsr.new] at hinit
  obtain ⟨c1, c0, hcpus, halloc, hreset⟩ := init_true hnodup hinit
  have hcpus0 : c0.cpus = cpus := halloc.cpus.trans hcpus
  have hids0 : Contiguous c0.cpus := by rw [hcpus0]; exact hids
  have hrep := ((reset_triple now halloc.configured hids0).ok_of halloc.represents hreset).1
  have hmetered := halloc.metered hids0 (by rw [hcpus0]; exact hne)
  rw [hrep.gauge_eq] at hshows ⊢
  exact ⟨_, hmetered, Metered.start_inStep hrep hshows⟩

/-- In every run after a successful `init`, every read returns the energy that its domain of its
CPU has consumed since the last reset. -/
theorem getJoules_exact {cpus : List Cpu} {f : CpuFamily} {dev now env : Device}
    {c : CounterCpusLinuxMsr} {E₀ E : Zone → ℕ} {events : List (Event Device)}
    {w : World CounterCpusLinuxMsr} {d : Domain} {id : CpuId} (hids : Contiguous cpus)
    (hinit : (init dev now).run (.new cpus f) = .ok true c)
    (hshows : c.gauge.Shows (fun _ => 2 ^ 32) now c.gauge.zones E₀)
    (hrun : Run (Step methods c.gauge fun _ => 2 ^ 32) ⟨c, Tally.start E₀, []⟩ events w)
    (hid : id ∈ ids c.gauge.cpus)
    (well : ReadsWell c.gauge (fun _ => 2 ^ 32) w.tally (d, id) env E) :
    ∃ c', (getJoules env d id).run w.counter =
      .ok (if c.present d then ((E (d, id) : ℚ) - w.tally.atReset (d, id)) * c.energyPerUnit
        else 0) c' := by
  obtain ⟨holds, M, hstart⟩ := init_inStep hids hinit hshows
  exact M.exactReads (fun _ _ => rfl) hstart events w hrun d id hid env E well

/-- Registers that count only the energy of the package. -/
def packageOnly (reading : UInt64) : Device where
  available _ := true
  read _ which :=
    if which = MSR_PKG_ENERGY_STATUS_INTEL then some reading
    else if which = MSR_RAPL_POWER_UNIT_INTEL then some 0xA0E03
    else if which = MSR_PKG_POWER_INFO_INTEL then some 0x2F8
    else none
  stale := 0

def oneCpuInit : CounterCpusLinuxMsr :=
  match (init (packageOnly 7) (packageOnly 4294967280)).run (.new oneCpu .CPU_FAMILY_AMD) with
  | .ok _ c => c
  | .error _ c => c

/-- A register that wraps between its reset and its read. -/
theorem getJoules_exact_oneCpu : ∃ c',
    (getJoules (packageOnly 16) .cpu 0).run oneCpuInit = .ok (32 * oneCpuInit.energyPerUnit) c' := by
  have hinit : (init (packageOnly 7) (packageOnly 4294967280)).run
      (.new oneCpu .CPU_FAMILY_AMD) = .ok true oneCpuInit := rfl
  have honly : ∀ z, oneCpuInit.gauge.zones z → z = (.cpu, 0) := by
    rintro ⟨d, id⟩ hz
    obtain ⟨hp, hid⟩ := Gauge.zones_iff.mp hz
    obtain rfl : id = 0 := List.mem_singleton.mp hid
    cases d
    · rfl
    all_goals exact absurd hp (by decide)
  have hshows : oneCpuInit.gauge.Shows (fun _ => 2 ^ 32) (packageOnly 4294967280)
      oneCpuInit.gauge.zones fun _ => 4294967280 := by
    intro z hz _
    have hown : oneCpuInit.own (packageOnly 4294967280) (.cpu, 0) = some 4294967280 := rfl
    have hmod : 4294967280 % 2 ^ 32 = 4294967280 := by norm_num
    rw [honly z hz, hmod]
    exact congrArg (Option.map UInt32.toNat) hown
  have well : ReadsWell oneCpuInit.gauge (fun _ => 2 ^ 32) (Tally.start fun _ => 4294967280)
      (.cpu, 0) (packageOnly 16) fun _ => 4294967312 := by
    have hgap : 4294967312 - 4294967280 < 2 ^ 32 := by norm_num
    refine ⟨fun _ => by simp [Tally.start], ?_, fun _ _ => hgap⟩
    intro z hz _
    have hown : oneCpuInit.own (packageOnly 16) (.cpu, 0) = some 16 := rfl
    have hmod : 4294967312 % 2 ^ 32 = 16 := by norm_num
    rw [honly z hz, hmod]
    exact congrArg (Option.map UInt32.toNat) hown
  have hrun : Run (Step methods oneCpuInit.gauge fun _ => 2 ^ 32)
      ⟨oneCpuInit, Tally.start fun _ => 4294967280, []⟩ []
      ⟨oneCpuInit, Tally.start fun _ => 4294967280, []⟩ := Run.nil
  obtain ⟨c', hread⟩ := getJoules_exact oneCpu_contiguous hinit hshows hrun (d := .cpu) (by decide) well
  refine ⟨c', hread.trans ?_⟩
  norm_num [Tally.start, present]

end CounterCpusLinuxMsr

end Mammut.Energy
