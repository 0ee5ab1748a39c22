import Mathlib.Data.Rat.Cast.Order
import Mathlib.Tactic.Ring
import Mammut.Energy.Runs
import Mammut.Energy.SysFs

/-! `CounterCpusLinuxSysFs` as a bank of meters: one for each domain of each CPU, fed with what the
file of its zone shows.  All of them are corrected with the range of package 0. -/

namespace Mammut.Energy

open Kit Kit.Meters Kit.Programs

namespace CounterCpusLinuxSysFs

/-- The subzone of a domain, when it is counted. -/
def subzone (c : CounterCpusLinuxSysFs) : Domain → Option (Option ℕ)
  | .cpu => some none
  | .cores => c.idCores.map some
  | .graphic => c.idGraphic.map some
  | .dram => c.idDram.map some

/-- The file of a zone. -/
def fileOf (c : CounterCpusLinuxSysFs) (z : Zone) : Option String :=
  (c.subzone z.1).map (energyFile z.2)

/-- What the counter counts: microjoules, with the range `R` of package 0. -/
def gauge (c : CounterCpusLinuxSysFs) (R : ℕ) : Gauge Powercap where
  cpus := c.cpus
  present d := (c.subzone d).isSome
  own files z := (c.fileOf z).bind files.number
  modulus := R
  unit := 1 / 1000000

/-- The vectors of `c` hold the meters of the bank `b`, for the CPUs of `c0`, whose other fields it
has. -/
structure Represents (c0 : CounterCpusLinuxSysFs) (R : ℕ) (b : Bank Zone)
    (c : CounterCpusLinuxSysFs) : Prop where
  setup : c = { c0 with joulesCpus := c.joulesCpus, last := c.last }
  maxValue : c0.maxValue = R / 1000000
  joules : ∀ id ∈ ids c0.cpus, ∃ j, c.joulesCpus.get? id = some j ∧
    ∀ d, (c0.subzone d).isSome → j.get d = (b (d, id)).accumulated * (1 / 1000000)
  last : ∀ id ∈ ids c0.cpus, ∀ d, (c0.subzone d).isSome →
    (c.last d).get? id = some (((b (d, id)).last : ℚ) / 1000000)

variable {c0 c : CounterCpusLinuxSysFs} {R r : ℕ} {b : Bank Zone} {files : Powercap}
  {d : Domain} {id : CpuId} {sub : Option ℕ}

theorem Represents.congr {b' : Bank Zone} (h : Represents c0 R b c)
    (heq : ∀ z, (c0.gauge R).zones z → b' z = b z) : Represents c0 R b' c := by
  refine ⟨h.setup, h.maxValue, fun id hid => ?_, fun id hid d hp => ?_⟩
  · obtain ⟨j, hj, hacc⟩ := h.joules id hid
    refine ⟨j, hj, fun d hp => ?_⟩
    rw [heq (d, id) (Gauge.zones_iff.mpr ⟨hp, hid⟩)]
    exact hacc d hp
  · rw [heq (d, id) (Gauge.zones_iff.mpr ⟨hp, hid⟩)]
    exact h.last id hid d hp

theorem Represents.gauge_eq (h : Represents c0 R b c) : c.gauge R = c0.gauge R := by
  rw [h.setup]; rfl

/-- The correction of `read` is the one of a meter of modulus `R`. -/
theorem growth_eq (last now : ℕ) :
    (if (last : ℚ) / 1000000 > (now : ℚ) / 1000000
      then (R : ℚ) / 1000000 - (last : ℚ) / 1000000 + (now : ℚ) / 1000000
      else (now : ℚ) / 1000000 - (last : ℚ) / 1000000) =
    ((elapsed R last now : ℤ) : ℚ) * (1 / 1000000) := by
  have hiff : (last : ℚ) / 1000000 > (now : ℚ) / 1000000 ↔ now < last := by
    rw [gt_iff_lt, div_lt_div_iff_of_pos_right (by norm_num), Nat.cast_lt]
  by_cases h : now < last
  · rw [if_pos (hiff.mpr h), elapsed_of_lt h]
    push_cast
    ring
  · rw [if_neg (mt hiff.mp h), elapsed_of_le (not_lt.mp h)]
    push_cast
    ring

theorem read_run (h : Represents c0 R b c) (hid : id ∈ ids c0.cpus)
    (hsub : c0.subzone d = some sub) (hfile : files.number (energyFile id sub) = some r) :
    ∃ c', (read files id d sub).run c =
        .ok (((b (d, id)).read R r).accumulated * (1 / 1000000)) c' ∧
      Represents c0 R (b.read R (fun z => decide (z = (d, id))) fun _ => r) c' := by
  have hp : (c0.subzone d).isSome := by rw [hsub]; rfl
  obtain ⟨j, hj, hacc⟩ := h.joules id hid
  have hlast := h.last id hid d hp
  have hmax : c.maxValue = (R : ℚ) / 1000000 := by rw [h.setup]; exact h.maxValue
  have hvalue : j.get d + ((elapsed R (b (d, id)).last r : ℤ) : ℚ) * (1 / 1000000) =
      ((b (d, id)).read R r).accumulated * (1 / 1000000) := by
    rw [hacc d hp, ← add_mul]
    simp [Meter.read]
  refine ⟨(c.setJoules id (j.set d (((b (d, id)).read R r).accumulated *
    (1 / 1000000)))).setLast d id ((r : ℚ) / 1000000), ?_, ?_, h.maxValue, ?_, ?_⟩
  · simp only [read, readJoules, EStateM.run_bind, EStateM.run_get, readSlot_of_some hj, hfile,
      readSlot_of_some hlast, EStateM.run_pure, hmax, growth_eq, hvalue, EStateM.run_modify]
  · conv_lhs => rw [h.setup]
    rfl
  · intro i hi
    by_cases hii : i = id
    · subst hii
      refine ⟨_, Slots.get?_set_self (Slots.lt_size hj), fun e he => ?_⟩
      by_cases hed : e = d
      · subst hed
        simp [Bank.read]
      · rw [JoulesCpu.get_set_ne _ _ (Ne.symm hed), hacc e he]
        simp [Bank.read, hed]
    · obtain ⟨k, hk, hkacc⟩ := h.joules i hi
      refine ⟨k, by simpa [setLast, setJoules, Slots.get?_set_ne (Ne.symm hii)] using hk,
        fun e he => ?_⟩
      rw [hkacc e he]
      simp [Bank.read, hii]
  · intro i hi e he
    have hold := h.last i hi e he
    by_cases heq : (e, i) = (d, id)
    · obtain ⟨rfl, rfl⟩ := Prod.mk.inj heq
      simp [setLast, setJoules, Slots.lt_size hlast, Bank.read, Meter.read]
    · have hother : Bank.read R (fun z => decide (z = (d, id))) (fun _ => r) b (e, i) = b (e, i) := by
        simp [Bank.read, heq]
      rw [hother]
      by_cases hed : e = d
      · have hne : id ≠ i := fun hii => heq (by rw [hed, hii])
        subst hed
        simpa [setLast, setJoules, Slots.get?_set_ne hne] using hold
      · simpa [setLast, setJoules, hed] using hold

theorem read_blind (h : Represents c0 R b c) (hid : id ∈ ids c0.cpus)
    (hfile : files.number (energyFile id sub) = none) :
    (read files id d sub).run c =
      .error (.runtimeError ("Impossible to open file " ++ energyFile id sub)) c := by
  obtain ⟨j, hj, -⟩ := h.joules id hid
  simp [read, readJoules, readSlot_of_some hj, hfile]

/-- The methods that read a domain read its subzone, when it has one. -/
theorem getJoules_eq :
    (getJoules files d id).run c = match c.subzone d with
      | some sub => (read files id d sub).run c
      | none => .ok 0 c := by
  cases d with
  | cpu => rfl
  | cores =>
    cases h : c.idCores <;> simp [getJoules, getJoulesCores, readSubzone, subzone, h]
  | graphic =>
    cases h : c.idGraphic <;> simp [getJoules, getJoulesGraphic, readSubzone, subzone, h]
  | dram =>
    cases h : c.idDram <;> simp [getJoules, getJoulesDram, readSubzone, subzone, h]

theorem Represents.subzone_eq (h : Represents c0 R b c) : c.subzone = c0.subzone := by
  rw [h.setup]; rfl

theorem own_eq (hsub : c0.subzone d = some sub) :
    (c0.gauge R).own files (d, id) = files.number (energyFile id sub) := by
  simp [gauge, fileOf, hsub]

/-- A reset that has read the domains `done` of CPU `i`, so far. -/
structure Reread (c0 : CounterCpusLinuxSysFs) (R : ℕ) (files : Powercap) (b : Bank Zone)
    (i : CpuId) (done : List Domain) (b' : Bank Zone) : Prop where
  frame : ∀ z : Zone, z.2 ≠ i → b' z = b z
  last : ∀ d ∈ done, (c0.subzone d).isSome →
    (c0.gauge R).own files (d, i) = some (b' (d, i)).last

/-- How a reset of CPU `i` fails: with an exception, because a file cannot be opened. -/
def ResetFailed (c0 : CounterCpusLinuxSysFs) (R : ℕ) (files : Powercap) (e : Exn)
    (c : CounterCpusLinuxSysFs) : Prop :=
  (∃ what, e = .runtimeError what) ∧
    (∃ z, (c0.gauge R).zones z ∧ (c0.gauge R).own files z = none) ∧ ∃ b, Represents c0 R b c

variable {i : CpuId} {done : List Domain}

theorem reread_triple (hi : i ∈ ids c0.cpus) (d : Domain) (done : List Domain) :
    Triple (fun c => ∃ b', Represents c0 R b' c ∧ Reread c0 R files b i done b')
      (getJoules files d i)
      (fun _ c => ∃ b', Represents c0 R b' c ∧ Reread c0 R files b i (done ++ [d]) b')
      (ResetFailed c0 R files) := by
  rintro c ⟨b', hrep, hframe, hlast⟩
  rw [getJoules_eq, hrep.subzone_eq]
  cases hsub : c0.subzone d with
  | none =>
    refine ⟨b', hrep, hframe, fun e he hp => ?_⟩
    rcases List.mem_append.mp he with hmem | hmem
    · exact hlast e hmem hp
    · rw [List.mem_singleton.mp hmem, hsub] at hp
      contradiction
  | some sub =>
    cases hfile : files.number (energyFile i sub) with
    | none =>
      simp only [read_blind hrep hi hfile]
      have hlive : (c0.gauge R).zones (d, i) :=
        Gauge.zones_iff.mpr ⟨by simp [gauge, hsub], hi⟩
      exact ⟨⟨_, rfl⟩, ⟨(d, i), hlive, by rw [own_eq hsub, hfile]⟩, b', hrep⟩
    | some r =>
      obtain ⟨c', hrun, hrep'⟩ := read_run hrep hi hsub hfile
      simp only [hrun]
      refine ⟨_, hrep', fun z hz => ?_, fun e he hp => ?_⟩
      · have hne : z ≠ (d, i) := fun h => hz (by rw [h])
        simp [Bank.read, hne, hframe z hz]
      · by_cases hed : e = d
        · subst hed
          simp [own_eq hsub, hfile, Bank.read, Meter.read]
        · have hmem : e ∈ done := by simpa [hed] using he
          simpa [Bank.read, hed] using hlast e hmem hp

/-- A reset of CPU `i` resets its meters. -/
theorem resetAt_triple (hi : i ∈ ids c0.cpus) :
    Triple (Represents c0 R b) (resetAt files i)
      (fun _ => Represents c0 R (b.reset (fun z => decide (z.2 = i)) ((c0.gauge R).readings files)))
      (ResetFailed c0 R files) := by
  have hstart : ∀ c, Represents c0 R b c →
      ∃ b', Represents c0 R b' c ∧ Reread c0 R files b i [] b' := fun c h =>
    ⟨b, h, fun _ _ => rfl, fun _ hd => absurd hd List.not_mem_nil⟩
  unfold resetAt
  refine triple_bind ((reread_triple hi .cpu []).pre hstart) fun _ => ?_
  refine triple_bind (reread_triple hi .cores [.cpu]) fun _ => ?_
  refine triple_bind (reread_triple hi .graphic [.cpu, .cores]) fun _ => ?_
  refine triple_bind (reread_triple hi .dram [.cpu, .cores, .graphic]) fun _ => ?_
  rintro c ⟨b', hrep, hframe, hlast⟩
  obtain ⟨j, hj, -⟩ := hrep.joules i hi
  simp only [clearJoules, EStateM.run_bind, EStateM.run_get,
    writableSlot_of_lt (Slots.lt_size hj), EStateM.run_pure, EStateM.run_modify]
  refine ⟨?_, hrep.maxValue, ?_, ?_⟩
  · conv_lhs => rw [hrep.setup]
    rfl
  · intro id hid
    by_cases heq : id = i
    · subst heq
      exact ⟨.zero, by simp [setJoules, Slots.lt_size hj],
        fun d _ => by simp [Bank.reset, Meter.reset]⟩
    · obtain ⟨k, hk, hacc⟩ := hrep.joules id hid
      refine ⟨k, by simpa [setJoules, Slots.get?_set_ne (Ne.symm heq)] using hk, fun d hp => ?_⟩
      rw [hacc d hp, hframe (d, id) heq]
      simp [Bank.reset, heq]
  · intro id hid d hp
    have hold := hrep.last id hid d hp
    by_cases heq : id = i
    · subst heq
      have hown := hlast d d.mem_all hp
      simpa [setJoules, Bank.reset, Meter.reset, Gauge.readings, hown] using hold
    · rw [hframe (d, id) heq] at hold
      simpa [setJoules, Bank.reset, heq] using hold

theorem reset_triple (files : Powercap) (hids : Contiguous c0.cpus) :
    Triple (Represents c0 R b) (reset files)
      (fun _ => Represents c0 R (b.reset (c0.gauge R).zones ((c0.gauge R).readings files)))
      (ResetFailed c0 R files) := by
  have hmem : ∀ i, i ∈ List.range c0.cpus.length ↔ i ∈ ids c0.cpus := fun i => hids.mem_iff.symm
  have loop : Triple (Represents c0 R b) ((List.range c0.cpus.length).forM (resetAt files))
      (fun _ => Represents c0 R (b.reset (fun z => decide (z.2 ∈ List.range c0.cpus.length))
        ((c0.gauge R).readings files))) (ResetFailed c0 R files) := by
    apply triple_resetLoop fun _ => Represents c0 R
    exact fun _ b i hi => resetAt_triple ((hmem i).mp (List.mem_range.mpr hi))
  intro c hc
  have hcpus : c.cpus = c0.cpus := by rw [hc.setup]
  simp only [reset, EStateM.run_bind, EStateM.run_get, hcpus]
  apply (loop.post ?_) c hc
  intro _ c' h
  refine h.congr fun z hz => ?_
  have hid : z.2 ∈ List.range c0.cpus.length := (hmem z.2).mpr (Gauge.zones_iff.mp hz).2
  simp only [Bank.reset, hz, hid, decide_true]

end CounterCpusLinuxSysFs

end Mammut.Energy
