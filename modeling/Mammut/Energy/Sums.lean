import Mathlib.Algebra.Order.BigOperators.Group.List
import Mammut.Energy.Moments
import Mammut.Energy.MsrRuns

/-! The energy of a machine: the functions of `energy.cpp` that add up what a counter returns for
each of the CPUs.  They hold no lock from one call to the next, so the zones are read at different
moments, between which other threads and the refresher call the counter too. -/

namespace Mammut.Energy

open Kit Kit.Meters Kit.Programs Kit.Runs

section Functions

variable {γ : Type} (getJoules : Domain → CpuId → Call γ Joules)

/-- `getJoulesCpuAll`, `getJoulesCoresAll`, `getJoulesGraphicAll` and `getJoulesDramAll`. -/
def getJoulesAll (d : Domain) (cpus : List Cpu) : Call γ Joules :=
  cpus.foldlM (fun r cpu => do return r + (← getJoules d cpu.cpuId)) 0

/-- A domain more in the sums. -/
def JoulesCpu.plus (sums : JoulesCpu) (d : Domain) (joules : Joules) : JoulesCpu :=
  sums.set d (sums.get d + joules)

/-- What the functions have in common: some zones, one after the other. -/
def sumReads (sums : JoulesCpu) (zones : List Zone) : Call γ JoulesCpu :=
  zones.foldlM (fun sums z => do return sums.plus z.1 (← getJoules z.1 z.2)) sums

theorem sumReads_cons (sums : JoulesCpu) (z : Zone) (zones : List Zone) :
    sumReads getJoules sums (z :: zones) =
      (do sumReads getJoules (sums.plus z.1 (← getJoules z.1 z.2)) zones) := by
  rw [sumReads, List.foldlM_cons, bind_assoc]
  simp only [pure_bind]
  rfl

/-- The zones of a domain. -/
def zonesOf (d : Domain) (cpus : List Cpu) : List Zone := (ids cpus).map fun id => (d, id)

theorem getJoulesAll_eq (d : Domain) (cpus : List Cpu) :
    (JoulesCpu.zero.set d) <$> getJoulesAll getJoules d cpus =
      sumReads getJoules .zero (zonesOf d cpus) := by
  have hloop (r : Joules) : (JoulesCpu.zero.set d) <$>
      cpus.foldlM (fun r cpu => do return r + (← getJoules d cpu.cpuId)) r =
        sumReads getJoules (JoulesCpu.zero.set d r) (zonesOf d cpus) := by
    induction cpus generalizing r with
    | nil => simp [sumReads, zonesOf, ids]
    | cons cpu cpus ih =>
      have hzones : zonesOf d (cpu :: cpus) = (d, cpu.cpuId) :: zonesOf d cpus := rfl
      have hplus (joules : Joules) : (JoulesCpu.zero.set d r).plus d joules =
          JoulesCpu.zero.set d (r + joules) := by cases d <;> rfl
      rw [List.foldlM_cons, hzones, sumReads_cons]
      simp only [bind_assoc, pure_bind, map_bind, ih, hplus]
  have hzero : JoulesCpu.zero.set d 0 = .zero := by cases d <;> rfl
  rw [getJoulesAll, hloop, hzero]

theorem getJoulesComponentsAll_eq (cpus : List Cpu) :
    getJoulesComponentsAll getJoules cpus = sumReads getJoules .zero (pass cpus) := by
  rw [getJoulesComponentsAll]
  generalize JoulesCpu.zero = sums
  induction cpus generalizing sums with
  | nil => rfl
  | cons cpu cpus ih =>
    have hpass : pass (cpu :: cpus) = (.cpu, cpu.cpuId) :: (.cores, cpu.cpuId) ::
        (.graphic, cpu.cpuId) :: (.dram, cpu.cpuId) :: pass cpus := rfl
    have hplus (a b c d : Joules) :
        (((sums.plus .cpu a).plus .cores b).plus .graphic c).plus .dram d = sums.add ⟨a, b, c, d⟩ :=
      rfl
    simp only [List.foldlM_cons, ih, hpass, sumReads_cons, addJoulesComponents, getJoulesComponents,
      bind_assoc, pure_bind, hplus]

/-- The functions that add up what the CPUs consume. -/
inductive SumCall
  /-- `getJoulesCpuAll`, `getJoulesCoresAll`, `getJoulesGraphicAll` or `getJoulesDramAll`. -/
  | getJoulesAll (d : Domain)
  | getJoulesComponentsAll

namespace SumCall

/-- The call, which leaves the domains at zero that it does not add up. -/
def exec (cpus : List Cpu) : SumCall → Call γ JoulesCpu
  | getJoulesAll d => (JoulesCpu.zero.set d) <$> Energy.getJoulesAll getJoules d cpus
  | getJoulesComponentsAll => Energy.getJoulesComponentsAll getJoules cpus

/-- The zones that it reads. -/
def zones (cpus : List Cpu) : SumCall → List Zone
  | getJoulesAll d => zonesOf d cpus
  | getJoulesComponentsAll => pass cpus

theorem exec_eq (cpus : List Cpu) (call : SumCall) :
    call.exec getJoules cpus = sumReads getJoules .zero (call.zones cpus) := by
  cases call with
  | getJoulesAll d => exact getJoulesAll_eq getJoules d cpus
  | getJoulesComponentsAll => exact getJoulesComponentsAll_eq getJoules cpus

theorem mem_zones {cpus : List Cpu} {call : SumCall} {z : Zone} (h : z ∈ call.zones cpus) :
    z.2 ∈ ids cpus := by
  cases call with
  | getJoulesAll d =>
    obtain ⟨id, hid, rfl⟩ := List.mem_map.mp h
    exact hid
  | getJoulesComponentsAll => exact mem_pass h

/-- The function adds up the domain. -/
def Adds : SumCall → Domain → Prop
  | getJoulesAll d, d' => d' = d
  | getJoulesComponentsAll, _ => True

end SumCall

end Functions

section Interleaved

variable {γ Env : Type}

/-- A thread in one of these functions, and the world around it: the zones that it has yet to read,
and the sums of those that it has read. -/
structure Summing (γ : Type) where
  world : World γ
  zones : List Zone
  sums : JoulesCpu

/-- The thread reads its next zone (`true`), or others do something that is no reset. -/
inductive SumStep (I : CounterCpus γ Env) (G : Gauge Env) (R : Zone → ℕ) :
    Summing γ → Bool × Event Env → Summing γ → Prop
  | read {c c' : γ} {t : Tally Zone} {pending zones : List Zone} {z : Zone} {sums : JoulesCpu}
      {env : Env} {E : Zone → ℕ} {v : Joules} (hid : z.2 ∈ ids G.cpus)
      (well : ReadsWell G R t z env E) (run : (I.getJoules env z.1 z.2).run c = .ok v c') :
      SumStep I G R ⟨⟨c, t, pending⟩, z :: zones, sums⟩ (true, ⟨.getJoules z.1 z.2, env, E⟩)
        ⟨⟨c', t.read (G.touched z) E well.grows, pending⟩, zones, sums.plus z.1 v⟩
  | other {w w' : World γ} {zones : List Zone} {sums : JoulesCpu} {e : Event Env}
      (hreset : e.act ≠ .reset) (step : Step I G R w e w') :
      SumStep I G R ⟨w, zones, sums⟩ (false, e) ⟨w', zones, sums⟩

/-- The units that the zones of a domain have consumed since their last reset. -/
def consumedOver (t : Tally Zone) (d : Domain) (zones : List Zone) : ℕ :=
  ((zones.filter fun z => z.1 = d).map fun z => t.total z - t.atReset z).sum

/-- The units that a domain of the machine has consumed. -/
def consumedAll (t : Tally Zone) (d : Domain) (cpus : List Cpu) : ℕ :=
  ((ids cpus).map fun id => t.total (d, id) - t.atReset (d, id)).sum

theorem consumedOver_append (t : Tally Zone) (d : Domain) (zones more : List Zone) :
    consumedOver t d (zones ++ more) = consumedOver t d zones + consumedOver t d more := by
  rw [consumedOver, List.filter_append, List.map_append, List.sum_append]
  rfl

theorem consumedOver_zones {t : Tally Zone} {d : Domain} {cpus : List Cpu} {call : SumCall}
    (h : call.Adds d) : consumedOver t d (call.zones cpus) = consumedAll t d cpus := by
  cases call with
  | getJoulesAll d' =>
    obtain rfl : d = d' := h
    simp [consumedOver, consumedAll, SumCall.zones, zonesOf, List.filter_map, Function.comp_def]
  | getJoulesComponentsAll =>
    show consumedOver t d (pass cpus) = _
    induction cpus with
    | nil => rfl
    | cons cpu cpus ih =>
      have hpass : pass (cpu :: cpus) =
          (Domain.all.map fun d => (d, cpu.cpuId)) ++ pass cpus := rfl
      have hone : consumedOver t d (Domain.all.map fun d => (d, cpu.cpuId)) =
          t.total (d, cpu.cpuId) - t.atReset (d, cpu.cpuId) := by
        cases d <;> simp [consumedOver, Domain.all]
      rw [hpass, consumedOver_append, hone, ih]
      simp [consumedAll, ids]

theorem consumedOver_mono {t t' : Tally Zone} (hreset : t'.atReset = t.atReset)
    (hgrows : ∀ z, t.total z ≤ t'.total z) (d : Domain) (zones : List Zone) :
    consumedOver t d zones ≤ consumedOver t' d zones := by
  apply List.sum_le_sum
  intro z _
  rw [hreset]
  exact Nat.sub_le_sub_right (hgrows z) _

variable {I : CounterCpus γ Env} {G : Gauge Env} {R : Zone → ℕ} {holds : Bank Zone → γ → Prop}
  {w w' : World γ}

/-- What is no reset leaves the resets where they were, and energy is only consumed. -/
theorem Step.later {e : Event Env} (step : Step I G R w e w') (hreset : e.act ≠ .reset) :
    w'.tally.atReset = w.tally.atReset ∧ ∀ z, w.tally.total z ≤ w'.tally.total z := by
  cases step with
  | getJoules hid well run => exact ⟨rfl, well.grows⟩
  | reset grows shows run => exact absurd rfl hreset
  | wake calls => exact ⟨rfl, fun _ => le_rfl⟩
  | refresh well run => exact ⟨rfl, well.grows⟩

/-- The sums are those of the zones of `done`, each at some moment since `w₀`. -/
structure Between (G : Gauge Env) (w₀ : World γ) (done : List Zone) (s : Summing γ) : Prop where
  atReset : s.world.tally.atReset = w₀.tally.atReset
  grows : ∀ z, w₀.tally.total z ≤ s.world.tally.total z
  sums : ∀ d, ∃ units : ℕ, s.sums.get d = (if G.present d then (units : ℚ) * G.unit else 0) ∧
    consumedOver w₀.tally d done ≤ units ∧ units ≤ consumedOver s.world.tally d done

/-- The read of a zone adds what it has consumed by then. -/
theorem Between.read {w₀ : World γ} {done zones : List Zone} {s : Summing γ} {z : Zone}
    (h : Between G w₀ done s) {c' : γ} {E : Zone → ℕ} (hgrows : ∀ z, s.world.tally.total z ≤ E z) :
    Between G w₀ (done ++ [z])
      ⟨⟨c', s.world.tally.read (G.touched z) E hgrows, s.world.pending⟩, zones,
        s.sums.plus z.1 (if G.present z.1 then
          ((E z : ℚ) - s.world.tally.atReset z) * G.unit else 0)⟩ := by
  have hlater : ∀ z, w₀.tally.total z ≤ E z := fun z => (h.grows z).trans (hgrows z)
  refine ⟨h.atReset, hlater, fun d => ?_⟩
  obtain ⟨units, hunits, hlow, hhigh⟩ := h.sums d
  have hmono : consumedOver s.world.tally d done ≤
      consumedOver (s.world.tally.read (G.touched z) E hgrows) d done := by
    apply consumedOver_mono
    · rfl
    · exact hgrows
  have hone (t : Tally Zone) :
      consumedOver t d [z] = if z.1 = d then t.total z - t.atReset z else 0 := by
    by_cases hd : z.1 = d <;> simp [consumedOver, hd]
  have hle : s.world.tally.atReset z ≤ E z :=
    ((s.world.tally.reset_le z).trans (s.world.tally.read_le z)).trans (hgrows z)
  by_cases hd : z.1 = d
  · subst hd
    refine ⟨units + (E z - s.world.tally.atReset z), ?_, ?_, ?_⟩
    · rw [JoulesCpu.plus, JoulesCpu.get_set_self, hunits]
      split
      · push_cast [hle]
        rw [add_mul]
      · rw [add_zero]
    · rw [consumedOver_append, hone, if_pos rfl, ← h.atReset]
      exact Nat.add_le_add hlow (Nat.sub_le_sub_right (hlater z) _)
    · rw [consumedOver_append, hone, if_pos rfl]
      exact Nat.add_le_add (hhigh.trans hmono) le_rfl
  · refine ⟨units, ?_, ?_, ?_⟩
    · rw [JoulesCpu.plus, JoulesCpu.get_set_ne _ _ hd, hunits]
    · rw [consumedOver_append, hone, if_neg hd]
      exact hlow
    · rw [consumedOver_append, hone, if_neg hd]
      exact hhigh.trans hmono

/-- The reads of the step are corrected well. -/
def CorrectedSum (G : Gauge Env) (R : Zone → ℕ) (s : Summing γ) (e : Bool × Event Env) : Prop :=
  CorrectedStep G R s.world e.2

/-- The run lemma of the sums, wherever the thread is. -/
theorem Metered.sum_between (M : Metered I G holds) (h : InStep G R holds w) {zones : List Zone}
    {s : Summing γ} {events : List (Bool × Event Env)}
    (run : Run (Guarded (CorrectedSum G R) (SumStep I G R)) ⟨w, zones, .zero⟩ events s) :
    InStep G R holds s.world ∧ ∃ done, zones = done ++ s.zones ∧ Between G w done s := by
  refine run.invariant (fun s => InStep G R holds s.world ∧
    ∃ done, zones = done ++ s.zones ∧ Between G w done s) ?_ ?_
  · refine ⟨h, [], rfl, rfl, fun _ => le_rfl, fun d => ⟨0, ?_, le_rfl, le_rfl⟩⟩
    rw [JoulesCpu.get_zero, Nat.cast_zero, zero_mul, ite_self]
  · rintro s e s' ⟨hin, done, hzones, hbetween⟩ ⟨hguard, hstep⟩
    cases hstep with
    | @read c c' t pending rest z sums env E v hid well run =>
      obtain ⟨c'', hrun, hbank⟩ := M.read_inStep hin hid well hguard
      cases run.symm.trans hrun
      refine ⟨⟨hbank, hin.pending⟩, done ++ [z], ?_, hbetween.read well.grows⟩
      rw [hzones, List.append_assoc]
      rfl
    | other hreset step =>
      obtain ⟨hatReset, hgrows⟩ := step.later hreset
      refine ⟨M.step_inStep hin ⟨hguard, step⟩, done, hzones, hatReset.trans hbetween.atReset,
        fun z => (hbetween.grows z).trans (hgrows z), fun d => ?_⟩
      obtain ⟨units, hunits, hlow, hhigh⟩ := hbetween.sums d
      exact ⟨units, hunits, hlow, hhigh.trans (consumedOver_mono hatReset hgrows d done)⟩

/-- A thread that no other interrupts reads its zones at one moment. -/
theorem Metered.sumReads_run (M : Metered I G holds) (hR : ∀ z, G.zones z → R z = G.modulus)
    {env : Env} {E : Zone → ℕ} {zones : List Zone} (hzones : ∀ z ∈ zones, z.2 ∈ ids G.cpus)
    (h : InStep G R holds w) (well : AllReadWell G R w.tally env E) (sums : JoulesCpu) :
    ∃ w' sums' during,
      (sumReads (I.getJoules env) sums zones).run w.counter = .ok sums' w'.counter ∧
      Run (SumStep I G R) ⟨w, zones, sums⟩ during ⟨w', [], sums'⟩ := by
  induction zones generalizing w sums with
  | nil => exact ⟨w, sums, [], rfl, .nil⟩
  | cons z zones ih =>
    have hid := hzones z List.mem_cons_self
    have hz := well z hid
    obtain ⟨c', hread, hbank⟩ := M.read_inStep h hid hz fun hlive _ => hR z hlive
    have hstep : SumStep I G R ⟨w, z :: zones, sums⟩ (true, ⟨.getJoules z.1 z.2, env, E⟩)
        ⟨⟨c', w.tally.read (G.touched z) E hz.grows, w.pending⟩, zones, sums.plus z.1 _⟩ :=
      .read hid hz hread
    obtain ⟨w', sums', during, hrun, run⟩ := ih
      (fun z' hz' => hzones z' (List.mem_cons_of_mem z hz'))
      (w := ⟨c', w.tally.read (G.touched z) E hz.grows, w.pending⟩) ⟨hbank, h.pending⟩
      (fun z' hz' => (well z' hz').read hz.grows) (sums.plus z.1 _)
    refine ⟨w', sums', _, ?_, (Run.nil.snoc hstep).append run⟩
    rw [sumReads_cons, EStateM.run_bind, hread]
    exact hrun

end Interleaved

namespace CounterCpusLinuxMsr

/-- In every run after a successful `init`, a thread that adds up what the CPUs consume, while
others read the counter too, finds for each domain an energy between what the machine had consumed
when it began and what it has when it ends. -/
theorem sums_between {cpus : List Cpu} {f : CpuFamily} {dev now : Device} {c : CounterCpusLinuxMsr}
    {E₀ : Zone → ℕ} {events : List (Event Device)} {w w' : World CounterCpusLinuxMsr}
    {call : SumCall} {sums : JoulesCpu} {during : List (Bool × Event Device)} {d : Domain}
    (hids : Contiguous cpus) (hinit : (init dev now).run (.new cpus f) = .ok true c)
    (hshows : c.gauge.Shows (fun _ => 2 ^ 32) now c.gauge.zones E₀)
    (before : Run (Step methods c.gauge fun _ => 2 ^ 32) ⟨c, Tally.start E₀, []⟩ events w)
    (run : Run (SumStep methods c.gauge fun _ => 2 ^ 32) ⟨w, call.zones cpus, .zero⟩ during
      ⟨w', [], sums⟩)
    (hadds : call.Adds d) : ∃ units : ℕ,
      sums.get d = (if c.present d then (units : ℚ) * c.energyPerUnit else 0) ∧
      consumedAll w.tally d cpus ≤ units ∧ units ≤ consumedAll w'.tally d cpus := by
  obtain ⟨holds, M, hstart⟩ := init_inStep hids hinit hshows
  have hguarded : Run (Guarded (CorrectedStep c.gauge fun _ => 2 ^ 32)
      (Step methods c.gauge fun _ => 2 ^ 32)) ⟨c, Tally.start E₀, []⟩ events w :=
    before.mono fun w e w' hstep => ⟨correctedStep_of_modulus (fun _ _ => rfl) w e, hstep⟩
  have hduring : Run (Guarded (CorrectedSum c.gauge fun _ => 2 ^ 32)
      (SumStep methods c.gauge fun _ => 2 ^ 32)) ⟨w, call.zones cpus, .zero⟩ during
      ⟨w', [], sums⟩ :=
    run.mono fun s e s' hstep => ⟨correctedStep_of_modulus (fun _ _ => rfl) s.world e.2, hstep⟩
  obtain ⟨-, done, hzones, hbetween⟩ := M.sum_between (M.run_inStep hstart hguarded) hduring
  rw [List.append_nil] at hzones
  subst hzones
  have hsums := hbetween.sums d
  rwa [consumedOver_zones hadds, consumedOver_zones hadds] at hsums

/-- A thread alone, on a machine of one CPU. -/
theorem sums_between_oneCpu : ∃ (w' : World CounterCpusLinuxMsr) (sums : JoulesCpu) (units : ℕ),
    (SumCall.getJoulesComponentsAll.exec (methods.getJoules (packageOnly 16)) oneCpu).run oneCpuInit =
        .ok sums w'.counter ∧
      sums.cpu = units * oneCpuInit.energyPerUnit ∧ units ≤ consumedAll w'.tally .cpu oneCpu := by
  have hinit : (init (packageOnly 7) (packageOnly 4294967280)).run
      (.new oneCpu .CPU_FAMILY_AMD) = .ok true oneCpuInit := rfl
  have hshows : oneCpuInit.gauge.Shows (fun _ => 2 ^ 32) (packageOnly 4294967280)
      oneCpuInit.gauge.zones fun _ => 4294967280 := oneCpuInit_shows 4294967280 _ rfl (by norm_num)
  obtain ⟨holds, M, hstart⟩ := init_inStep oneCpu_contiguous hinit hshows
  obtain ⟨w', sums, during, hrun, run⟩ := M.sumReads_run (fun _ _ => rfl)
    (fun z hz => SumCall.getJoulesComponentsAll.mem_zones hz) hstart oneCpuInit_allReadWell .zero
  obtain ⟨units, hunits, -, hle⟩ := sums_between (d := .cpu) oneCpu_contiguous hinit hshows .nil run
    trivial
  refine ⟨w', sums, units, ?_, ?_, hle⟩
  · rw [SumCall.exec_eq]
    exact hrun
  · exact hunits

end CounterCpusLinuxMsr

end Mammut.Energy
