import Mathlib.Data.Rat.Cast.Order
import Mammut.Kit.Meters
import Mammut.Kit.Runs
import Mammut.Energy.Counter

/-! Runs of an energy counter.  `Gauge` says what a counter counts, and `Metered` that it does so
with a bank of meters.  Clients and the refresher call the counter in any order; the world keeps a
tally of the energy consumed beside it, and a metered counter returns what the tally says. -/

namespace Mammut.Energy

open Kit Kit.Meters Kit.Programs Kit.Runs

/-- What a counter counts: the domains, what the source of each zone shows (nothing when it cannot
be read), the modulus by which wraps are corrected, and the joules of one unit. -/
structure Gauge (Env : Type) where
  cpus : List Cpu
  present : Domain → Bool
  own : Env → Zone → Option ℕ
  modulus : ℕ
  unit : Joules

namespace Gauge

variable {Env : Type} (G : Gauge Env)

/-- The zones that are counted. -/
def zones (z : Zone) : Bool := G.present z.1 && decide (z.2 ∈ ids G.cpus)

def readings (env : Env) (z : Zone) : ℕ := (G.own env z).getD 0

/-- The zones that a read of `z` touches: none when its domain is not counted. -/
def touched (z z' : Zone) : Bool := decide (z' = z) && G.zones z'

/-- The sources of the zones of `which` show the totals `E` modulo `R`. -/
def Shows (R : Zone → ℕ) (env : Env) (which : Zone → Bool) (E : Zone → ℕ) : Prop :=
  ∀ z, G.zones z → which z → G.own env z = some (E z % R z)

variable {G} {z z' : Zone}

theorem zones_iff : G.zones z ↔ G.present z.1 ∧ z.2 ∈ ids G.cpus := by simp [zones]

theorem touched_iff : G.touched z z' ↔ z' = z ∧ G.zones z' := by simp [touched]

end Gauge

section Metered

variable {γ Env : Type}

/-- The methods of a counter keep a bank of meters (`holds`), one for each zone: they read and
reset the meters with what the source of the zone shows, and throw when it cannot be read. -/
structure Metered (I : CounterCpus γ Env) (G : Gauge Env) (holds : Bank Zone → γ → Prop) :
    Prop where
  read : ∀ {b : Bank Zone} {c : γ} {env : Env} {z : Zone} {r : ℕ}, holds b c → G.zones z → G.own env z = some r →
    ∃ c', (I.getJoules env z.1 z.2).run c =
        .ok (((b z).read G.modulus r).accumulated * G.unit) c' ∧
      holds (b.read G.modulus (fun z' => decide (z' = z)) fun _ => r) c'
  blind : ∀ {b : Bank Zone} {c : γ} {env : Env} {z : Zone}, holds b c → G.zones z → G.own env z = none →
    ∃ what, (I.getJoules env z.1 z.2).run c = .error (.runtimeError what) c
  absent : ∀ {b : Bank Zone} {c : γ} {env : Env} {z : Zone}, holds b c → G.present z.1 = false →
    (I.getJoules env z.1 z.2).run c = .ok 0 c
  reset : ∀ (b : Bank Zone) (env : Env), Triple (holds b) (I.reset env)
    (fun _ => holds (b.reset G.zones (G.readings env)))
    (fun e c => (∃ what, e = .runtimeError what) ∧ (∃ z, G.zones z ∧ G.own env z = none) ∧
      ∃ b, holds b c)
  destroy : ∀ {b : Bank Zone} {c : γ}, holds b c → I.destroy.run c = .ok () c

end Metered

section ResetLoop

variable {γ : Type} {X : Exn → γ → Prop} (holds : List CpuId → Bank Zone → γ → Prop) {n : ℕ}
  {resetAt : ℕ → Call γ Unit} {readings : Zone → ℕ} {b : Bank Zone}

/-- The loop of a `reset`: when the body resets the meters of the CPU that has the position as
identifier, the loop resets those of the first `n` identifiers. -/
theorem triple_resetLoop
    (step : ∀ visited b, ∀ i < n, Triple (holds visited b) (resetAt i)
      (fun _ => holds (visited ++ [i]) (b.reset (fun z => decide (z.2 = i)) readings)) X) :
    Triple (holds [] b) ((List.range n).forM resetAt)
      (fun _ => holds (List.range n)
        (b.reset (fun z => decide (z.2 ∈ List.range n)) readings)) X := by
  have hnone : b.reset (fun z : Zone => decide (z.2 ∈ ([] : List CpuId))) readings = b := by
    simpa using b.reset_none readings
  have hloop : Triple (holds [] (b.reset (fun z => decide (z.2 ∈ ([] : List CpuId))) readings))
      ((List.range n).forM resetAt) (fun _ => holds (List.range n)
        (b.reset (fun z => decide (z.2 ∈ List.range n)) readings)) X := by
    apply triple_forM fun visited =>
      holds visited (b.reset (fun z => decide (z.2 ∈ visited)) readings)
    intro visited i rest hl
    have hi : i < n := List.mem_range.mp (by rw [hl]; simp)
    have hzones : (fun z : Zone => decide (z.2 ∈ visited ++ [i])) =
        fun z => decide (z.2 ∈ visited) || decide (z.2 = i) := by
      funext z
      simp
    rw [hzones, ← Bank.reset_reset]
    exact step visited _ i hi
  rwa [hnone] at hloop

end ResetLoop

section Operations

variable {γ Env : Type}

/-- What the holder of a counter, its refresher included, does with it. -/
inductive Op (Env : Type)
  | getJoules (env : Env) (d : Domain) (cpuId : CpuId)
  | getJoulesComponentsAll (env : Env)
  | reset (env : Env)
  | destroy

/-- The operation is for CPUs of the topology only. -/
def Op.About (cpus : List Cpu) : Op Env → Prop
  | .getJoules _ _ id => id ∈ ids cpus
  | _ => True

def Op.exec (I : CounterCpus γ Env) (cpus : List Cpu) : Op Env → Call γ Unit
  | .getJoules env d id => do let _ ← I.getJoules env d id
  | .getJoulesComponentsAll env => do let _ ← Energy.getJoulesComponentsAll (I.getJoules env) cpus
  | .reset env => I.reset env
  | .destroy => I.destroy

/-- The program ends in state `t`: it returns, or throws an exception that can be caught. -/
def EndsIn {α : Type} (prog : Call γ α) (s t : γ) : Prop :=
  match prog.run s with
  | .ok _ s' => s' = t
  | .error e s' => e ≠ .undefined ∧ s' = t

def Undefined {α : Type} (prog : Call γ α) (s : γ) : Prop :=
  ∃ t, prog.run s = .error .undefined t

def OpStep (I : CounterCpus γ Env) (cpus : List Cpu) (s : γ) (op : Op Env) (t : γ) : Prop :=
  op.About cpus ∧ EndsIn (op.exec I cpus) s t

/-- No operation that follows any others accesses a slot outside its array or one that was never
written. -/
def Inside (I : CounterCpus γ Env) (cpus : List Cpu) (c : γ) : Prop :=
  ∀ ops c', Run (OpStep I cpus) c ops c' →
    ∀ op : Op Env, op.About cpus → ¬Undefined (op.exec I cpus) c'

variable {I : CounterCpus γ Env} {G : Gauge Env} {holds : Bank Zone → γ → Prop} {b : Bank Zone}
  {c c' : γ}

theorem Metered.getJoules_triple (M : Metered I G holds) {env : Env} {z : Zone}
    (hz : z.2 ∈ ids G.cpus) :
    Triple (fun c => ∃ b, holds b c) (I.getJoules env z.1 z.2) (fun _ c => ∃ b, holds b c)
      (fun e c => e ≠ .undefined ∧ ∃ b, holds b c) := by
  rintro c ⟨b, hb⟩
  cases hp : G.present z.1 with
  | false => rw [M.absent hb hp]; exact ⟨b, hb⟩
  | true =>
    have hlive : G.zones z := Gauge.zones_iff.mpr ⟨hp, hz⟩
    cases hown : G.own env z with
    | none =>
      obtain ⟨what, hrun⟩ := M.blind hb hlive hown
      rw [hrun]
      exact ⟨nofun, b, hb⟩
    | some r =>
      obtain ⟨c', hrun, hb'⟩ := M.read hb hlive hown
      rw [hrun]
      exact ⟨_, hb'⟩

/-- The step lemma of the operations: none is undefined, and each keeps a bank of meters. -/
theorem Metered.op_triple (M : Metered I G holds) {op : Op Env} (habout : op.About G.cpus) :
    Triple (fun c => ∃ b, holds b c) (op.exec I G.cpus) (fun _ c => ∃ b, holds b c)
      (fun e c => e ≠ .undefined ∧ ∃ b, holds b c) := by
  have done {α : Type} (a : α) : Triple (fun c => ∃ b, holds b c) (pure a : Call γ α)
      (fun _ c => ∃ b, holds b c) (fun e c => e ≠ .undefined ∧ ∃ b, holds b c) :=
    triple_pure fun _ h => h
  cases op with
  | getJoules env d id =>
    exact triple_bind (M.getJoules_triple (z := (d, id)) habout) fun _ => done ()
  | getJoulesComponentsAll env =>
    refine triple_bind (triple_foldlM_invariant fun r cpu hcpu => ?_) fun _ => done ()
    have hid : cpu.cpuId ∈ ids G.cpus := List.mem_map_of_mem hcpu
    unfold addJoulesComponents getJoulesComponents
    refine triple_bind ?_ fun j => done _
    refine triple_bind (M.getJoules_triple (z := (.cpu, cpu.cpuId)) hid) fun _ => ?_
    refine triple_bind (M.getJoules_triple (z := (.cores, cpu.cpuId)) hid) fun _ => ?_
    refine triple_bind (M.getJoules_triple (z := (.graphic, cpu.cpuId)) hid) fun _ => ?_
    exact triple_bind (M.getJoules_triple (z := (.dram, cpu.cpuId)) hid) fun _ => done _
  | reset env =>
    rintro c ⟨b, hb⟩
    apply (M.reset b env).conseq (fun _ h => h) (fun _ _ h => ⟨_, h⟩) ?_ c hb
    rintro e c' ⟨⟨what, rfl⟩, -, hb'⟩
    exact ⟨nofun, hb'⟩
  | destroy =>
    rintro c ⟨b, hb⟩
    simp only [Op.exec, M.destroy hb]
    exact ⟨b, hb⟩

/-- A metered counter never leaves its arrays. -/
theorem Metered.inside (M : Metered I G holds) (hb : holds b c) : Inside I G.cpus c := by
  intro ops c' hrun op habout
  have hc' : ∃ b, holds b c' := by
    apply hrun.invariant (fun c => ∃ b, holds b c) ⟨b, hb⟩
    rintro s op t hs ⟨hop, hend⟩
    have hq := M.op_triple hop s hs
    unfold EndsIn at hend
    cases hr : (op.exec I G.cpus).run s with
    | ok a s' => rw [hr] at hq hend; exact hend ▸ hq
    | error e s' => rw [hr] at hq hend; exact hend.2 ▸ hq.2
  rintro ⟨t, hundefined⟩
  exact ((M.op_triple habout).error_of hc' hundefined).1 rfl

end Operations

section Worlds

variable {γ Env : Type}

inductive Act
  | getJoules (d : Domain) (cpuId : CpuId)
  | reset
  /-- The refresher wakes up: the calls of its pass, in the order in which it will make them. -/
  | wake (order : List Zone)
  /-- The refresher makes the next call of its pass. -/
  | refresh
  deriving DecidableEq

/-- What happens next, what it reads from, and the energy consumed by then. -/
structure Event (Env : Type) where
  act : Act
  env : Env
  totals : Zone → ℕ

structure World (γ : Type) where
  counter : γ
  tally : Tally Zone
  pending : List Zone

/-- What is assumed of a read of `z`, whose source has the modulus `R z`: since its last read
less than that was consumed. -/
structure ReadsWell (G : Gauge Env) (R : Zone → ℕ) (t : Tally Zone) (z : Zone) (env : Env)
    (E : Zone → ℕ) : Prop where
  grows : ∀ z, t.total z ≤ E z
  shows : G.Shows R env (G.touched z) E
  gap : t.Gap R (G.touched z) E

inductive Step (I : CounterCpus γ Env) (G : Gauge Env) (R : Zone → ℕ) :
    World γ → Event Env → World γ → Prop
  | getJoules {c c' : γ} {t : Tally Zone} {pending : List Zone} {d : Domain} {id : CpuId}
      {env : Env} {E : Zone → ℕ} {v : Joules} (hid : id ∈ ids G.cpus)
      (well : ReadsWell G R t (d, id) env E) (run : (I.getJoules env d id).run c = .ok v c') :
      Step I G R ⟨c, t, pending⟩ ⟨.getJoules d id, env, E⟩
        ⟨c', t.read (G.touched (d, id)) E well.grows, pending⟩
  | reset {c c' : γ} {t : Tally Zone} {pending : List Zone} {env : Env} {E : Zone → ℕ}
      (grows : ∀ z, t.total z ≤ E z) (shows : G.Shows R env G.zones E)
      (run : (I.reset env).run c = .ok () c') :
      Step I G R ⟨c, t, pending⟩ ⟨.reset, env, E⟩ ⟨c', t.reset G.zones E grows, pending⟩
  | wake {c : γ} {t : Tally Zone} {order : List Zone} {env : Env} {E : Zone → ℕ}
      (calls : order.Perm (pass G.cpus)) :
      Step I G R ⟨c, t, []⟩ ⟨.wake order, env, E⟩ ⟨c, t, order⟩
  | refresh {c c' : γ} {t : Tally Zone} {z : Zone} {rest : List Zone} {env : Env}
      {E : Zone → ℕ} {v : Joules} (well : ReadsWell G R t z env E)
      (run : (I.getJoules env z.1 z.2).run c = .ok v c') :
      Step I G R ⟨c, t, z :: rest⟩ ⟨.refresh, env, E⟩
        ⟨c', t.read (G.touched z) E well.grows, rest⟩

/-- In every run from `w₀`, every read returns the energy that its domain of its CPU has consumed
since the last reset. -/
def ExactReads (I : CounterCpus γ Env) (G : Gauge Env) (R : Zone → ℕ) (w₀ : World γ) : Prop :=
  ∀ events w, Run (Step I G R) w₀ events w → ∀ d, ∀ id ∈ ids G.cpus, ∀ env E,
    ReadsWell G R w.tally (d, id) env E → ∃ c', (I.getJoules env d id).run w.counter =
      .ok (if G.present d then ((E (d, id) : ℚ) - w.tally.atReset (d, id)) * G.unit else 0) c'

/-- A read of `z` is corrected well: it finds no wrap, or the modulus of its source is the one by
which the counter corrects wraps. -/
def Corrected (G : Gauge Env) (R : Zone → ℕ) (t : Tally Zone) (z : Zone) (E : Zone → ℕ) : Prop :=
  G.zones z → E z % R z < t.atRead z % R z → R z = G.modulus

/-- The reads of the step are corrected well. -/
def CorrectedStep (G : Gauge Env) (R : Zone → ℕ) (w : World γ) (e : Event Env) : Prop :=
  match e.act with
  | .getJoules d id => Corrected G R w.tally (d, id) e.totals
  | .refresh => ∀ z ∈ w.pending.head?, Corrected G R w.tally z e.totals
  | _ => True

/-- The counter holds a bank of meters that follow the tally. -/
structure InStep (G : Gauge Env) (R : Zone → ℕ) (holds : Bank Zone → γ → Prop) (w : World γ) :
    Prop where
  bank : ∃ b, holds b w.counter ∧ b.FollowsAll R w.tally G.zones
  pending : ∀ z ∈ w.pending, z.2 ∈ ids G.cpus

variable {I : CounterCpus γ Env} {G : Gauge Env} {R : Zone → ℕ} {holds : Bank Zone → γ → Prop}
  {w w' : World γ} {z : Zone} {env : Env} {E : Zone → ℕ}

theorem Corrected.elapsed {t : Tally Zone} (h : Corrected G R t z E) (hz : G.zones z)
    (hle : t.atRead z ≤ E z) (hgap : E z - t.atRead z < R z) :
    elapsed G.modulus (t.atRead z % R z) (E z % R z) = (E z : ℤ) - t.atRead z := by
  by_cases wrap : E z % R z < t.atRead z % R z
  · rw [← h hz wrap]
    exact elapsed_mod hle hgap
  · exact elapsed_mod_of_le hle hgap (not_lt.mp wrap)

/-- The step lemma of a read: it returns the energy since the last reset, and stays in step. -/
theorem Metered.read_inStep (M : Metered I G holds) (h : InStep G R holds w)
    (hid : z.2 ∈ ids G.cpus) (well : ReadsWell G R w.tally z env E)
    (hcorrected : Corrected G R w.tally z E) :
    ∃ c, (I.getJoules env z.1 z.2).run w.counter =
        .ok (if G.present z.1 then ((E z : ℚ) - w.tally.atReset z) * G.unit else 0) c ∧
      ∃ b, holds b c ∧ b.FollowsAll R (w.tally.read (G.touched z) E well.grows) G.zones := by
  obtain ⟨⟨b, hb, hfollows⟩, -⟩ := h
  obtain ⟨hgrows, hshows, hgap⟩ := well
  cases hpresent : G.present z.1 with
  | false =>
    have hnone : ∀ z', ¬G.touched z z' := by
      intro z' hz'
      obtain ⟨rfl, hlive⟩ := Gauge.touched_iff.mp hz'
      rw [(Gauge.zones_iff.mp hlive).1] at hpresent
      contradiction
    refine ⟨w.counter, ?_, b, hb, fun z' hlive => (hfollows z' hlive).read_other (hnone z')⟩
    rw [M.absent hb hpresent]
    rfl
  | true =>
    have hlive : G.zones z := Gauge.zones_iff.mpr ⟨hpresent, hid⟩
    have hz : G.touched z z := Gauge.touched_iff.mpr ⟨rfl, hlive⟩
    obtain ⟨c, hrun, hb'⟩ := M.read hb hlive (hshows z hlive hz)
    have hread : Follows (R z) (w.tally.read (G.touched z) E hgrows) z
        ((b z).read G.modulus (E z % R z)) :=
      (hfollows z hlive).read_elapsed hz
        (hcorrected.elapsed hlive ((w.tally.read_le z).trans (hgrows z)) (hgap z hz))
    have hle : w.tally.atReset z ≤ E z :=
      ((w.tally.reset_le z).trans (w.tally.read_le z)).trans (hgrows z)
    refine ⟨c, ?_, _, hb', ?_⟩
    · rw [hrun, hread.accumulated, Tally.read_since hz, Int.cast_natCast, Nat.cast_sub hle]
      rfl
    · intro z' hlive'
      by_cases heq : z' = z
      · subst heq
        simpa [Bank.read] using hread
      · have hother : Follows (R z') (w.tally.read (G.touched z) E hgrows) z' (b z') :=
          (hfollows z' hlive').read_other fun ht => heq (Gauge.touched_iff.mp ht).1
        simpa [Bank.read, heq] using hother

/-- The step lemma of a reset: it returns, and restarts every meter. -/
theorem Metered.reset_inStep (M : Metered I G holds) {b : Bank Zone} {c : γ} {t' : Tally Zone}
    (hb : holds b c) (hshows : G.Shows R env G.zones E)
    (hstart : ∀ z, G.zones z → Follows (R z) t' z (Meter.reset (E z % R z))) :
    ∃ c', (I.reset env).run c = .ok () c' ∧ ∃ b, holds b c' ∧ b.FollowsAll R t' G.zones := by
  have hq := M.reset b env c hb
  cases hrun : (I.reset env).run c with
  | ok a c' =>
    rw [hrun] at hq
    refine ⟨c', rfl, _, hq, fun z hlive => ?_⟩
    simpa [Bank.reset, hlive, Gauge.readings, hshows z hlive hlive] using hstart z hlive
  | error e c' =>
    rw [hrun] at hq
    obtain ⟨-, ⟨z, hlive, hblind⟩, -⟩ := hq
    rw [hshows z hlive hlive] at hblind
    cases hblind

theorem Metered.step_inStep (M : Metered I G holds) {e : Event Env} (h : InStep G R holds w)
    (hstep : Guarded (CorrectedStep G R) (Step I G R) w e w') : InStep G R holds w' := by
  obtain ⟨hguard, hstep⟩ := hstep
  cases hstep with
  | getJoules hid well run =>
    obtain ⟨c', hrun, hbank⟩ := M.read_inStep h hid well hguard
    cases run.symm.trans hrun
    exact ⟨hbank, h.pending⟩
  | @reset _ _ t _ _ E grows shows run =>
    obtain ⟨b, hb, hfollows⟩ := h.bank
    have hstart : ∀ z, G.zones z →
        Follows (R z) (t.reset G.zones E grows) z (Meter.reset (E z % R z)) :=
      fun z hlive => Follows.reset hlive
    obtain ⟨c', hrun, hbank⟩ := M.reset_inStep hb shows hstart
    cases run.symm.trans hrun
    exact ⟨hbank, h.pending⟩
  | wake calls => exact ⟨h.bank, fun z hz => mem_pass (calls.mem_iff.mp hz)⟩
  | @refresh _ _ _ z rest _ _ _ well run =>
    obtain ⟨c', hrun, hbank⟩ := M.read_inStep h (h.pending z List.mem_cons_self) well
      (hguard z rfl)
    cases run.symm.trans hrun
    exact ⟨hbank, fun z' hz' => h.pending z' (List.mem_cons_of_mem _ hz')⟩

/-- The run lemma: a counter that starts in step stays in step. -/
theorem Metered.run_inStep (M : Metered I G holds) {events : List (Event Env)}
    (h : InStep G R holds w) (hrun : Run (Guarded (CorrectedStep G R) (Step I G R)) w events w') :
    InStep G R holds w' :=
  hrun.invariant (InStep G R holds) h fun _ _ _ hin hstep => M.step_inStep hin hstep

/-- A reset starts a run in step. -/
theorem Metered.start_inStep {b : Bank Zone} {c : γ}
    (hb : holds (b.reset G.zones (G.readings env)) c) (hshows : G.Shows R env G.zones E) :
    InStep G R holds ⟨c, Tally.start E, []⟩ := by
  refine ⟨⟨_, hb, fun z hlive => ?_⟩, fun z hz => absurd hz List.not_mem_nil⟩
  have hstart : Follows (R z) (Tally.start E) z (Meter.reset (E z % R z)) := Follows.start E z
  simpa [Bank.reset, hlive, Gauge.readings, hshows z hlive hlive] using hstart

/-- When every source has the modulus by which the counter corrects wraps, every read is exact. -/
theorem Metered.exactReads (M : Metered I G holds) (hR : ∀ z, G.zones z → R z = G.modulus)
    (h : InStep G R holds w) : ExactReads I G R w := by
  have hcorrected : ∀ t z E, Corrected G R t z E := fun _ z _ hz _ => hR z hz
  intro events w' hrun d id hid env E well
  have hguarded : Run (Guarded (CorrectedStep G R) (Step I G R)) w events w' := by
    refine hrun.mono fun w e w' hstep => ⟨?_, hstep⟩
    unfold CorrectedStep
    split
    · exact hcorrected _ _ _
    · exact fun z _ => hcorrected _ _ _
    · trivial
  obtain ⟨c', hread, -⟩ := M.read_inStep (z := (d, id)) (M.run_inStep h hguarded) hid well
    (hcorrected _ _ _)
  exact ⟨c', hread⟩

end Worlds

/-- The CPU of a machine that has only one. -/
def oneCpu : List Cpu := [⟨0, "GenuineIntel", "6", 0⟩]

theorem oneCpu_contiguous : Contiguous oneCpu := List.Perm.refl _

end Mammut.Energy
