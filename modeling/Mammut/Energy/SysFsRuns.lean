import Mathlib.Tactic.NormNum
import Mammut.Energy.SysFsMeters

/-! Runs of a `CounterCpusLinuxSysFs` that `init` has set up.  The powercap framework gives each
zone a range of its own, but the counter corrects the wraps of all of them with that of
package 0. -/

namespace Mammut.Energy

open Kit Kit.Meters Kit.Programs Kit.Runs

namespace CounterCpusLinuxSysFs

/-- What `init` has set up before it resets the counters. -/
def allocated (files : Powercap) (cpus : List Cpu) (R : ℕ) : CounterCpusLinuxSysFs :=
  { files.names.zipIdx.foldl findSubzone
      { CounterCpusLinuxSysFs.new cpus with initialized := true } with
    last := fun _ => .filled cpus.length 0
    joulesCpus := .filled cpus.length .zero
    maxValue := R / 1000000 }

theorem foldl_findSubzone_cpus (l : List (String × ℕ)) (c : CounterCpusLinuxSysFs) :
    (l.foldl findSubzone c).cpus = c.cpus := by
  induction l generalizing c with
  | nil => rfl
  | cons x rest ih =>
    rw [List.foldl_cons, ih]
    unfold findSubzone
    split_ifs <;> rfl

variable {cpus : List Cpu} {files now : Powercap} {c : CounterCpusLinuxSysFs} {R : ℕ}

@[simp] theorem allocated_cpus : (allocated files cpus R).cpus = cpus :=
  foldl_findSubzone_cpus _ _

theorem allocated_represents (hids : Contiguous cpus) :
    Represents (allocated files cpus R) R (fun _ => ⟨0, 0⟩) (allocated files cpus R) := by
  have hlt : ∀ id ∈ ids (allocated files cpus R).cpus, id < cpus.length := by
    intro id hid
    rw [allocated_cpus] at hid
    exact List.mem_range.mp (hids.mem_iff.mp hid)
  refine ⟨rfl, rfl, fun id hid => ?_, fun id hid d _ => ?_⟩
  · exact ⟨.zero, Slots.get?_filled (hlt id hid), fun d _ => by simp⟩
  · have hslot : ((allocated files cpus R).last d).get? id = some 0 := Slots.get?_filled (hlt id hid)
    rw [hslot]
    simp

theorem init_run (now : Powercap)
    (hexist : ∀ i < cpus.length, (files.number (energyFile i none)).isSome)
    (hrange : files.number maxRangeFile = some R) :
    (init files now).run (.new cpus) =
      (do reset now; return true : Call CounterCpusLinuxSysFs Bool).run
        (allocated files cpus R) := by
  have hall : ((List.range cpus.length).all fun i =>
      (files.number (energyFile i none)).isSome) = true := by
    rw [List.all_eq_true]
    exact fun i hi => hexist i (List.mem_range.mp hi)
  simp only [init, EStateM.run_bind, EStateM.run_get]
  rw [show (CounterCpusLinuxSysFs.new cpus).cpus = cpus from rfl, if_pos hall]
  simp only [EStateM.run_bind, EStateM.run_modify, readJoules, hrange, EStateM.run_pure]
  rfl

theorem init_true (hrange : files.number maxRangeFile = some R)
    (h : (init files now).run (.new cpus) = .ok true c) :
    (reset now).run (allocated files cpus R) = .ok () c := by
  by_cases hall : ((List.range cpus.length).all fun i =>
      (files.number (energyFile i none)).isSome) = true
  · rw [init_run now (fun i hi => List.all_eq_true.mp hall i (List.mem_range.mpr hi)) hrange,
      EStateM.run_bind] at h
    cases hreset : (reset now).run (allocated files cpus R) with
    | ok _ c' => rw [hreset] at h; cases h; rfl
    | error e c' => rw [hreset] at h; cases h
  · simp only [init, EStateM.run_bind, EStateM.run_get] at h
    rw [show (CounterCpusLinuxSysFs.new cpus).cpus = cpus from rfl, if_neg hall] at h
    cases h

/-- The counter is metered: its vectors hold a bank of meters. -/
theorem metered {c0 : CounterCpusLinuxSysFs} (hids : Contiguous c0.cpus) :
    Metered methods (c0.gauge R) (Represents c0 R) where
  read {b c files z r} h hz hown := by
    obtain ⟨hp, hid⟩ := Gauge.zones_iff.mp hz
    obtain ⟨sub, hsub⟩ := Option.isSome_iff_exists.mp hp
    rw [own_eq hsub] at hown
    obtain ⟨c', hrun, hrep⟩ := read_run h hid hsub hown
    refine ⟨c', ?_, hrep⟩
    simp only [methods, getJoules_eq, h.subzone_eq, hsub]
    exact hrun
  blind {b c files z} h hz hown := by
    obtain ⟨hp, hid⟩ := Gauge.zones_iff.mp hz
    obtain ⟨sub, hsub⟩ := Option.isSome_iff_exists.mp hp
    rw [own_eq hsub] at hown
    refine ⟨"Impossible to open file " ++ energyFile z.2 sub, ?_⟩
    simp only [methods, getJoules_eq, h.subzone_eq, hsub]
    exact read_blind h hid hown
  absent {b c files z} h hp := by
    have hnone : c0.subzone z.1 = none := by simpa [gauge] using hp
    simp only [methods, getJoules_eq, h.subzone_eq, hnone]
  reset b files := reset_triple files hids
  destroy _ := rfl

/-- A successful `init` starts in step with a tally of the energy consumed since. -/
theorem init_inStep {R : Zone → ℕ} {T : Zone → ℕ} (hids : Contiguous cpus)
    (hinit : (init files now).run (.new cpus) = .ok true c)
    (hrange : files.number maxRangeFile = some (R (.cpu, 0)))
    (hshows : (c.gauge (R (.cpu, 0))).Shows R now (c.gauge (R (.cpu, 0))).zones T) :
    ∃ holds, Metered methods (c.gauge (R (.cpu, 0))) holds ∧
      InStep (c.gauge (R (.cpu, 0))) R holds ⟨c, Tally.start T, []⟩ := by
  have hids0 : Contiguous (allocated files cpus (R (.cpu, 0))).cpus := by
    rw [allocated_cpus]; exact hids
  have hrep := (reset_triple now hids0).ok_of (allocated_represents hids) (init_true hrange hinit)
  rw [hrep.gauge_eq] at hshows ⊢
  exact ⟨_, metered hids0, Metered.start_inStep hrep hshows⟩

/-- In a run after a successful `init` in which every read finds no wrap, or reads a zone that has
the range of package 0, every such read returns the energy that its zone has consumed since the
last reset. -/
theorem getJoules_corrected {R T₀ T : Zone → ℕ} {env : Powercap} {events : List (Event Powercap)}
    {w : World CounterCpusLinuxSysFs} {d : Domain} {id : CpuId} (hids : Contiguous cpus)
    (hinit : (init files now).run (.new cpus) = .ok true c)
    (hrange : files.number maxRangeFile = some (R (.cpu, 0)))
    (hshows : (c.gauge (R (.cpu, 0))).Shows R now (c.gauge (R (.cpu, 0))).zones T₀)
    (hrun : Run (Guarded (CorrectedStep (c.gauge (R (.cpu, 0))) R)
      (Step methods (c.gauge (R (.cpu, 0))) R)) ⟨c, Tally.start T₀, []⟩ events w)
    (hid : id ∈ ids c.cpus) (well : ReadsWell (c.gauge (R (.cpu, 0))) R w.tally (d, id) env T)
    (hcorrected : Corrected (c.gauge (R (.cpu, 0))) R w.tally (d, id) T) :
    ∃ c', (getJoules env d id).run w.counter =
      .ok (if (c.subzone d).isSome then ((T (d, id) : ℚ) - w.tally.atReset (d, id)) * (1 / 1000000)
        else 0) c' := by
  obtain ⟨holds, M, hstart⟩ := init_inStep hids hinit hrange hshows
  obtain ⟨c', hread, -⟩ := M.read_inStep (z := (d, id)) (M.run_inStep hstart hrun) hid well
    hcorrected
  exact ⟨c', hread⟩

/-- A package with range 10, whose memory has range 5. -/
def twoRanges : Zone → ℕ
  | (.dram, _) => 5
  | _ => 10

def twoTotals (package dram : ℕ) : Zone → ℕ
  | (.dram, _) => dram
  | _ => package

def twoFiles (package dram : ℕ) : Powercap where
  number fileName :=
    if fileName = energyFile 0 none then some (package % 10)
    else if fileName = energyFile 0 (some 0) then some (dram % 5)
    else if fileName = maxRangeFile then some 10
    else none
  names := ["dram"]

def oneCpuInit : CounterCpusLinuxSysFs :=
  match (init (twoFiles 0 0) (twoFiles 8 4)).run (.new oneCpu) with
  | .ok _ c => c
  | .error _ c => c

theorem oneCpu_init :
    (init (twoFiles 0 0) (twoFiles 8 4)).run (.new oneCpu) = .ok true oneCpuInit := rfl

theorem oneCpu_shows (package dram : ℕ) (which : Zone → Bool) :
    (oneCpuInit.gauge 10).Shows twoRanges (twoFiles package dram) which
      (twoTotals package dram) := by
  rintro ⟨d, id⟩ hz _
  obtain ⟨hp, hid⟩ := Gauge.zones_iff.mp hz
  obtain rfl : id = 0 := List.mem_singleton.mp hid
  cases d with
  | cpu => rfl
  | dram => rfl
  | cores => exact absurd hp (by decide)
  | graphic => exact absurd hp (by decide)

theorem oneCpu_readsWell {d : Domain} {package dram : ℕ} (hpackage : 8 ≤ package ∧ package < 18)
    (hdram : 4 ≤ dram ∧ dram < 9) :
    ReadsWell (oneCpuInit.gauge 10) twoRanges (Tally.start (twoTotals 8 4)) (d, 0)
      (twoFiles package dram) (twoTotals package dram) := by
  refine ⟨?_, oneCpu_shows package dram _, ?_⟩
  · rintro ⟨d, id⟩
    cases d <;> simp [Tally.start, twoTotals] <;> omega
  · rintro ⟨d, id⟩ _
    cases d <;> simp [Tally.start, twoTotals, twoRanges] <;> omega

/-- A package that wraps between its reset and its read, whose range is the one of package 0. -/
theorem getJoules_corrected_oneCpu : ∃ c',
    (getJoules (twoFiles 13 4) .cpu 0).run oneCpuInit = .ok (5 * (1 / 1000000)) c' := by
  have hrun : Run (Guarded (CorrectedStep (oneCpuInit.gauge 10) twoRanges)
      (Step methods (oneCpuInit.gauge 10) twoRanges))
      ⟨oneCpuInit, Tally.start (twoTotals 8 4), []⟩ []
      ⟨oneCpuInit, Tally.start (twoTotals 8 4), []⟩ := Run.nil
  have well : ReadsWell (oneCpuInit.gauge 10) twoRanges (Tally.start (twoTotals 8 4)) (.cpu, 0)
      (twoFiles 13 4) (twoTotals 13 4) := oneCpu_readsWell (by omega) (by omega)
  obtain ⟨c', hread⟩ := getJoules_corrected oneCpu_contiguous oneCpu_init rfl (oneCpu_shows 8 4 _) hrun
    (by decide) well fun _ _ => rfl
  refine ⟨c', hread.trans ?_⟩
  norm_num [subzone, Tally.start, twoTotals]

/-- The memory wraps at 5, but the counter corrects the wrap with 10: it returns 7 microjoules for
the 2 that were consumed. -/
theorem dram_wrap_wrong :
    (init (twoFiles 0 0) (twoFiles 8 4)).run (.new oneCpu) = .ok true oneCpuInit ∧
    (twoFiles 0 0).number maxRangeFile = some (twoRanges (.cpu, 0)) ∧
    (oneCpuInit.gauge 10).Shows twoRanges (twoFiles 8 4) (oneCpuInit.gauge 10).zones
      (twoTotals 8 4) ∧
    ¬ExactReads methods (oneCpuInit.gauge 10) twoRanges
      ⟨oneCpuInit, Tally.start (twoTotals 8 4), []⟩ := by
  refine ⟨oneCpu_init, rfl, oneCpu_shows 8 4 _, fun hexact => ?_⟩
  obtain ⟨c', hread⟩ := hexact [] _ .nil .dram 0 (by decide) (twoFiles 8 6) (twoTotals 8 6)
    (oneCpu_readsWell (by omega) (by omega))
  obtain ⟨holds, M, ⟨b, hb, hfollows⟩, -⟩ := init_inStep oneCpu_contiguous oneCpu_init rfl (oneCpu_shows 8 4 _)
  have hz : (oneCpuInit.gauge 10).zones (.dram, 0) := by decide
  have hmetered : Metered methods (oneCpuInit.gauge 10) holds := M
  obtain ⟨c'', hwrong, -⟩ := hmetered.read hb hz (oneCpu_shows 8 6 _ _ hz hz)
  have hvalue := hwrong.symm.trans hread
  obtain ⟨hlast, haccumulated⟩ := hfollows _ hz
  have hlast4 : (b (.dram, 0)).last = 4 := hlast
  have hgrowth : elapsed 10 4 1 = 7 := rfl
  have hacc : ((b (.dram, 0)).read (oneCpuInit.gauge 10).modulus (twoTotals 8 6 (.dram, 0) %
      twoRanges (.dram, 0))).accumulated = 7 := by
    rw [Meter.read, haccumulated, hlast4]
    exact hgrowth
  rw [hacc, if_pos (by decide)] at hvalue
  norm_num [Tally.start, twoTotals, gauge] at hvalue

end CounterCpusLinuxSysFs

end Mammut.Energy
