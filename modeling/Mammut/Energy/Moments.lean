import Mammut.Energy.MsrRuns

/-! Reads of a counter at one moment: they return the joules of that moment, and leave what the
others at that moment return as it was. -/

namespace Mammut.Energy

open Kit Kit.Meters Kit.Programs Kit.Runs

variable {γ Env : Type}

namespace Gauge

variable (G : Gauge Env) (t : Tally Zone) (E : Zone → ℕ)

/-- The joules that a zone has consumed since its last reset, when the totals are `E`. -/
def joules (z : Zone) : Joules :=
  if G.present z.1 then ((E z : ℚ) - t.atReset z) * G.unit else 0

def joulesCpu (id : CpuId) : JoulesCpu :=
  ⟨G.joules t E (.cpu, id), G.joules t E (.cores, id), G.joules t E (.graphic, id),
    G.joules t E (.dram, id)⟩

variable {G t E}

theorem get_joulesCpu (d : Domain) (id : CpuId) :
    (G.joulesCpu t E id).get d = G.joules t E (d, id) := by cases d <;> rfl

end Gauge

/-- Reads that are made while the totals are `E` lead from `w` to `w'`: nothing is reset, and what
could be read well still can be. -/
structure SameMoment (I : CounterCpus γ Env) (G : Gauge Env) (R : Zone → ℕ)
    (holds : Bank Zone → γ → Prop) (env : Env) (E : Zone → ℕ) (w w' : World γ) : Prop where
  run : ∃ events, Run (Step I G R) w events w'
  inStep : InStep G R holds w'
  atReset : w'.tally.atReset = w.tally.atReset
  well : ∀ z, ReadsWell G R w.tally z env E → ReadsWell G R w'.tally z env E

variable {I : CounterCpus γ Env} {G : Gauge Env} {R : Zone → ℕ} {holds : Bank Zone → γ → Prop}
  {env : Env} {E : Zone → ℕ} {w w' w'' : World γ}

namespace SameMoment

theorem refl (h : InStep G R holds w) : SameMoment I G R holds env E w w :=
  ⟨⟨[], .nil⟩, h, rfl, fun _ hz => hz⟩

theorem trans (h : SameMoment I G R holds env E w w') (h' : SameMoment I G R holds env E w' w'') :
    SameMoment I G R holds env E w w'' := by
  obtain ⟨events, run⟩ := h.run
  obtain ⟨events', run'⟩ := h'.run
  exact ⟨⟨_, run.append run'⟩, h'.inStep, h'.atReset.trans h.atReset,
    fun z hz => h'.well z (h.well z hz)⟩

theorem joules_eq (h : SameMoment I G R holds env E w w') (z : Zone) :
    G.joules w'.tally E z = G.joules w.tally E z := by
  rw [Gauge.joules, h.atReset, Gauge.joules]

theorem joulesCpu_eq (h : SameMoment I G R holds env E w w') (id : CpuId) :
    G.joulesCpu w'.tally E id = G.joulesCpu w.tally E id := by
  simp only [Gauge.joulesCpu, h.joules_eq]

end SameMoment

/-- The CPUs whose reads are made while the totals are `E` can be read well. -/
def AllReadWell (G : Gauge Env) (R : Zone → ℕ) (t : Tally Zone) (env : Env) (E : Zone → ℕ) : Prop :=
  ∀ z : Zone, z.2 ∈ ids G.cpus → ReadsWell G R t z env E

theorem SameMoment.allReadWell (h : SameMoment I G R holds env E w w')
    (well : AllReadWell G R w.tally env E) : AllReadWell G R w'.tally env E :=
  fun z hz => h.well z (well z hz)

theorem correctedStep_of_modulus (hR : ∀ z, G.zones z → R z = G.modulus) (w : World γ)
    (e : Event Env) : CorrectedStep G R w e := by
  have hcorrected (t : Tally Zone) (z : Zone) (E : Zone → ℕ) : Corrected G R t z E :=
    fun hz _ => hR z hz
  unfold CorrectedStep
  split
  · exact hcorrected _ _ _
  · exact fun z _ => hcorrected _ z _
  · trivial

/-- What could be read well still can be after a read at the same moment. -/
theorem ReadsWell.read {t : Tally Zone} {z z' : Zone} (hz' : ReadsWell G R t z' env E)
    (grows : ∀ z, t.total z ≤ E z) :
    ReadsWell G R (t.read (G.touched z) E grows) z' env E :=
  ⟨fun _ => le_rfl, hz'.shows, hz'.gap.read⟩

section Pass

variable (M : Metered I G holds) (hR : ∀ z, G.zones z → R z = G.modulus)

include M hR

/-- The step lemma of the pass. -/
theorem read_sameMoment (h : InStep G R holds w) {z : Zone} (hid : z.2 ∈ ids G.cpus)
    (well : ReadsWell G R w.tally z env E) :
    ∃ w', (I.getJoules env z.1 z.2).run w.counter = .ok (G.joules w.tally E z) w'.counter ∧
      SameMoment I G R holds env E w w' := by
  obtain ⟨c', hread, hbank⟩ := M.read_inStep h hid well fun hz _ => hR z hz
  have hstep : Step I G R w ⟨.getJoules z.1 z.2, env, E⟩
      ⟨c', w.tally.read (G.touched z) E well.grows, w.pending⟩ := .getJoules hid well hread
  refine ⟨⟨c', w.tally.read (G.touched z) E well.grows, w.pending⟩, hread,
    ⟨_, Run.nil.snoc hstep⟩, ⟨hbank, h.pending⟩, rfl, fun _ hz' => hz'.read well.grows⟩

theorem getJoulesComponents_sameMoment (h : InStep G R holds w) {id : CpuId}
    (hid : id ∈ ids G.cpus) (well : AllReadWell G R w.tally env E) :
    ∃ w', (getJoulesComponents (I.getJoules env) id).run w.counter =
        .ok (G.joulesCpu w.tally E id) w'.counter ∧ SameMoment I G R holds env E w w' := by
  have read {w : World γ} (h : InStep G R holds w) (well : AllReadWell G R w.tally env E)
      (d : Domain) := read_sameMoment M hR h (z := (d, id)) hid (well _ hid)
  obtain ⟨w₁, hcpu, h₁⟩ := read h well .cpu
  obtain ⟨w₂, hcores, h₂⟩ := read h₁.inStep (h₁.allReadWell well) .cores
  have h₁₂ := h₁.trans h₂
  obtain ⟨w₃, hgraphic, h₃⟩ := read h₂.inStep (h₁₂.allReadWell well) .graphic
  have h₁₃ := h₁₂.trans h₃
  obtain ⟨w₄, hdram, h₄⟩ := read h₃.inStep (h₁₃.allReadWell well) .dram
  rw [h₁.joules_eq] at hcores
  rw [h₁₂.joules_eq] at hgraphic
  rw [h₁₃.joules_eq] at hdram
  refine ⟨w₄, ?_, h₁₃.trans h₄⟩
  simp only [getJoulesComponents, EStateM.run_bind, hcpu, hcores, hgraphic, hdram]
  rfl

end Pass

namespace CounterCpusLinuxMsr

/-- The counter of one CPU finds in its register what the total is modulo `2 ^ 32`. -/
theorem oneCpuInit_shows {reading : UInt64} {total : ℕ} (shown : ℕ) (which : Zone → Bool)
    (hown : (oneCpuInit.own (packageOnly reading) (.cpu, 0)).map UInt32.toNat = some shown)
    (hmod : total % 2 ^ 32 = shown) :
    oneCpuInit.gauge.Shows (fun _ => 2 ^ 32) (packageOnly reading) which fun _ => total := by
  rintro ⟨d, id⟩ hz _
  obtain ⟨hp, hid⟩ := Gauge.zones_iff.mp hz
  obtain rfl : id = 0 := List.mem_singleton.mp hid
  cases d with
  | cpu =>
    rw [hmod]
    exact hown
  | _ => exact absurd hp (by decide)

/-- It has wrapped since it was reset. -/
theorem oneCpuInit_allReadWell : AllReadWell oneCpuInit.gauge (fun _ => 2 ^ 32)
    (Tally.start fun _ => 4294967280) (packageOnly 16) fun _ => 4294967312 := by
  intro z _
  have hgap : 4294967312 - 4294967280 < 2 ^ 32 := by norm_num
  exact ⟨fun _ => by simp [Tally.start], oneCpuInit_shows 16 _ rfl (by norm_num), fun _ _ => hgap⟩

end CounterCpusLinuxMsr

end Mammut.Energy
