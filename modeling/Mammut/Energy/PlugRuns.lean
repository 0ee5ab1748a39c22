import Mathlib.Data.List.Induction
import Mammut.Energy.Plug

/-! What the plug counters return over whole runs.  Each of them keeps the time of its last call and
the joules consumed since the last reset; they differ in what they return. -/

namespace Mammut.Energy

open Kit Kit.Integrals Kit.Lockstep

section Since

variable {Env : Type} {watts : Env → Option ℚ} {start : ℚ} {calls : List (PlugCall Env)} {env : Env}
  {now : UInt64}

theorem sinceReset_reset :
    sinceReset watts start (calls ++ [.reset now]) = ((now.toNat : ℚ), []) := by simp [sinceReset]

theorem sinceReset_reads {w : ℚ} (h : watts env = some w) :
    sinceReset watts start (calls ++ [.getJoules env now]) =
      ((sinceReset watts start calls).1,
        (sinceReset watts start calls).2 ++ [((now.toNat : ℚ), w)]) := by
  simp [sinceReset, h]

theorem sinceReset_fails (h : watts env = none) :
    sinceReset watts start (calls ++ [.getJoules env now]) = sinceReset watts start calls := by
  simp [sinceReset, h]

/-- Without a reset, calls add readings to those that there are. -/
theorem sinceReset_append (watts : Env → Option ℚ) (start : ℚ) (calls more : List (PlugCall Env))
    (h : ∀ t, .reset t ∉ more) :
    ∃ readings, sinceReset watts start (calls ++ more) =
      ((sinceReset watts start calls).1, (sinceReset watts start calls).2 ++ readings) := by
  induction more using List.reverseRecOn with
  | nil => exact ⟨[], by simp⟩
  | append_singleton more call ih =>
    obtain ⟨readings, hmore⟩ := ih fun t ht => h t (List.mem_append_left _ ht)
    rw [← List.append_assoc]
    cases call with
    | reset now => exact absurd (by simp) (h now)
    | getJoules env now =>
      cases hw : watts env with
      | some w =>
        exact ⟨readings ++ [((now.toNat : ℚ), w)], by
          rw [sinceReset_reads hw, hmore, List.append_assoc]⟩
      | none => exact ⟨readings, by rw [sinceReset_fails hw, hmore]⟩

theorem mem_sinceReset {r : ℚ × ℚ} (h : r ∈ (sinceReset watts start calls).2) :
    ∃ env now, .getJoules env now ∈ calls ∧ watts env = some r.2 := by
  induction calls using List.reverseRecOn with
  | nil => cases h
  | append_singleton calls call ih =>
    cases call with
    | reset now =>
      rw [sinceReset_reset] at h
      cases h
    | getJoules env now =>
      cases hw : watts env with
      | none =>
        rw [sinceReset_fails hw] at h
        obtain ⟨env', now', hmem, hr⟩ := ih h
        exact ⟨env', now', List.mem_append_left _ hmem, hr⟩
      | some w =>
        rw [sinceReset_reads hw, List.mem_append, List.mem_singleton] at h
        rcases h with h | rfl
        · obtain ⟨env', now', hmem, hr⟩ := ih h
          exact ⟨env', now', List.mem_append_left _ hmem, hr⟩
        · exact ⟨env, now, by simp, hw⟩

@[simp] theorem consumed_nil {start : UInt64} : consumed watts start [] = 0 := by
  simp [consumed, sinceReset]

theorem consumed_reads {start : UInt64} {w : ℚ} {t : ℚ} (h : watts env = some w)
    (ht : latest (sinceReset watts start.toNat calls).1
      (sinceReset watts start.toNat calls).2 = t) :
    consumed watts start (calls ++ [.getJoules env now]) =
      consumed watts start calls + w * ((now.toNat - t) / 1000) := by
  simp only [consumed, sinceReset_reads h, integral_concat, ht, add_div, mul_div_assoc]

theorem consumed_fails {start : UInt64} (h : watts env = none) :
    consumed watts start (calls ++ [.getJoules env now]) = consumed watts start calls := by
  rw [consumed, sinceReset_fails h, consumed]

theorem consumed_reset {start : UInt64} :
    consumed watts start (calls ++ [.reset now]) = 0 := by
  rw [consumed, sinceReset_reset, integral_nil, zero_div]

end Since

section InTime

variable {Env : Type} {start : UInt64} {calls more : List (PlugCall Env)} {call : PlugCall Env}

theorem InTime.append_left (h : InTime start (calls ++ more)) : InTime start calls := by
  unfold InTime at h ⊢
  rw [List.map_append, ← List.cons_append] at h
  exact (List.pairwise_append.mp h).1

/-- The last call comes after all the others. -/
theorem InTime.le_last (h : InTime start (calls ++ [call])) {t : UInt64}
    (ht : t ∈ start :: calls.map PlugCall.now) : t ≤ call.now := by
  unfold InTime at h
  rw [List.map_append, ← List.cons_append] at h
  exact (List.pairwise_append.mp h).2.2 t ht call.now (by simp)

/-- The times of the readings since the last reset are times of calls. -/
theorem mem_times (watts : Env → Option ℚ) {x : ℚ}
    (hx : x ∈ (sinceReset watts start.toNat calls).1 ::
      (sinceReset watts start.toNat calls).2.map Prod.fst) :
    ∃ t ∈ start :: calls.map PlugCall.now, x = t.toNat := by
  induction calls using List.reverseRecOn with
  | nil => exact ⟨start, List.mem_cons_self, List.mem_singleton.mp hx⟩
  | append_singleton calls call ih =>
    have htimes : ∀ t ∈ start :: calls.map PlugCall.now,
        t ∈ start :: (calls ++ [call]).map PlugCall.now := by
      intro t ht
      rw [List.map_append, ← List.cons_append]
      exact List.mem_append_left _ ht
    cases call with
    | reset now =>
      rw [sinceReset_reset] at hx
      exact ⟨now, by simp [PlugCall.now], List.mem_singleton.mp hx⟩
    | getJoules env now =>
      cases hw : watts env with
      | none =>
        rw [sinceReset_fails hw] at hx
        obtain ⟨t, ht, hxt⟩ := ih hx
        exact ⟨t, htimes t ht, hxt⟩
      | some w =>
        rw [sinceReset_reads hw, List.map_append, ← List.cons_append, List.mem_append] at hx
        rcases hx with hx | hx
        · obtain ⟨t, ht, hxt⟩ := ih hx
          exact ⟨t, htimes t ht, hxt⟩
        · exact ⟨now, by simp [PlugCall.now], by simpa using hx⟩

theorem InTime.sorted (h : InTime start calls) (watts : Env → Option ℚ) :
    ((sinceReset watts start.toNat calls).1 ::
      (sinceReset watts start.toNat calls).2.map Prod.fst).Pairwise (· ≤ ·) := by
  induction calls using List.reverseRecOn with
  | nil => exact List.pairwise_singleton _ _
  | append_singleton calls call ih =>
    have hold := ih h.append_left
    cases call with
    | reset now =>
      rw [sinceReset_reset]
      exact List.pairwise_singleton _ _
    | getJoules env now =>
      cases hw : watts env with
      | none => rwa [sinceReset_fails hw]
      | some w =>
        rw [sinceReset_reads hw, List.map_append, ← List.cons_append, List.pairwise_append]
        refine ⟨hold, List.pairwise_singleton _ _, fun x hx y hy => ?_⟩
        obtain ⟨t, ht, rfl⟩ := mem_times watts hx
        obtain rfl : y = now.toNat := by simpa using hy
        exact Nat.cast_le.mpr (UInt64.le_iff_toNat_le.mp (h.le_last ht))

end InTime

/-- What two counters return for the joules `j` before a reading and `x` of the reading. -/
structure Integrates {γ Env : Type} (plug : CounterPlug γ Env) (shown : Joules → Joules → Joules)
    (holds : γ → UInt64 → Joules → Prop) : Prop where
  reads : ∀ {c t j env now w}, holds c t j → t ≤ now → plug.watts env = some w →
    ∃ c', (plug.getJoules env now).run c =
      .ok (shown j (w * ((now.toNat - t.toNat : ℚ) / 1000))) c' ∧
      holds c' now (j + w * ((now.toNat - t.toNat : ℚ) / 1000))
  fails : ∀ {c t j env} now, holds c t j → plug.watts env = none →
    ∃ e, (plug.getJoules env now).run c = .error e c
  resets : ∀ {c t j} now, holds c t j → ∃ c', (plug.reset now).run c = .ok () c' ∧ holds c' now 0

namespace Integrates

variable {γ Env : Type} {plug : CounterPlug γ Env} {shown : Joules → Joules → Joules}
  {holds : γ → UInt64 → Joules → Prop} {c : γ} {start now : UInt64} {calls : List (PlugCall Env)}
  {env : Env} {w : ℚ}

/-- After any calls, the counter holds the time of the last one and the joules consumed. -/
theorem holds_after (I : Integrates plug shown holds) (hstart : holds c start 0)
    (htime : InTime start calls) :
    ∃ t ∈ start :: calls.map PlugCall.now,
      latest (sinceReset plug.watts start.toNat calls).1
        (sinceReset plug.watts start.toNat calls).2 = t.toNat ∧
      holds (trace plug.call c calls).2 t (consumed plug.watts start calls) := by
  induction calls using List.reverseRecOn with
  | nil =>
    rw [consumed_nil]
    exact ⟨start, List.mem_cons_self, rfl, hstart⟩
  | append_singleton calls call ih =>
    obtain ⟨t, ht, hlatest, hholds⟩ := ih htime.append_left
    rw [trace_concat]
    cases call with
    | reset now =>
      obtain ⟨c', hrun, hc'⟩ := I.resets now hholds
      have hfinal : final ((plug.call (.reset now)).run (trace plug.call c calls).2) = c' := by
        simp only [CounterPlug.call, EStateM.run_bind, hrun]
        rfl
      refine ⟨now, by simp [PlugCall.now], by rw [sinceReset_reset]; rfl, ?_⟩
      rw [hfinal, consumed_reset]
      exact hc'
    | getJoules env now =>
      cases hw : plug.watts env with
      | none =>
        obtain ⟨e, hrun⟩ := I.fails now hholds hw
        refine ⟨t, ?_, by rw [sinceReset_fails hw]; exact hlatest, ?_⟩
        · rw [List.map_append, ← List.cons_append]
          exact List.mem_append_left _ ht
        · have hcall : plug.call (.getJoules env now) = plug.getJoules env now := rfl
          rw [consumed_fails hw, hcall, hrun]
          exact hholds
      | some w =>
        have hle : t ≤ now := htime.le_last ht
        obtain ⟨c', hrun, hc'⟩ := I.reads hholds hle hw
        have hcall : plug.call (.getJoules env now) = plug.getJoules env now := rfl
        refine ⟨now, by simp [PlugCall.now], ?_, ?_⟩
        · rw [sinceReset_reads hw]
          exact latest_concat ..
        · rw [consumed_reads hw hlatest, hcall, hrun]
          exact hc'

/-- What a call of `getJoules()` returns, next to the joules consumed. -/
theorem answer_eq (I : Integrates plug shown holds) (hstart : holds c start 0)
    (htime : InTime start (calls ++ [.getJoules env now])) (hw : plug.watts env = some w) :
    ∃ x, plug.answer c calls env now = .ok (shown (consumed plug.watts start calls) x) ∧
      consumed plug.watts start (calls ++ [.getJoules env now]) =
        consumed plug.watts start calls + x := by
  obtain ⟨t, ht, hlatest, hholds⟩ := I.holds_after hstart htime.append_left
  have hle : t ≤ now := htime.le_last ht
  obtain ⟨c', hrun, -⟩ := I.reads hholds hle hw
  exact ⟨_, congrArg outcome hrun, consumed_reads hw hlatest⟩

theorem answer_fails (I : Integrates plug shown holds) (hstart : holds c start 0)
    (htime : InTime start calls) (now : UInt64) (hw : plug.watts env = none) :
    ∃ e, plug.answer c calls env now = .error e := by
  obtain ⟨t, -, -, hholds⟩ := I.holds_after hstart htime
  obtain ⟨e, hrun⟩ := I.fails now hholds hw
  exact ⟨e, congrArg outcome hrun⟩

/-- A counter that returns what it has added up is exact. -/
theorem exact_of_sum (I : Integrates plug (· + ·) holds) (hstart : holds c start 0)
    (htime : InTime start calls) : plug.Exact c start calls := by
  intro earlier env now later hcalls hread
  obtain ⟨w, hw⟩ := Option.isSome_iff_exists.mp hread
  rw [hcalls, List.append_cons] at htime
  obtain ⟨x, hanswer, hsum⟩ := I.answer_eq hstart htime.append_left hw
  rw [hanswer, hsum]

/-- A counter that returns the last reading alone is exact when nothing came before it. -/
theorem exact_iff_of_last (I : Integrates plug (fun _ x => x) holds) (hstart : holds c start 0)
    (htime : InTime start calls) :
    plug.Exact c start calls ↔
      ∀ earlier env now later, calls = earlier ++ .getJoules env now :: later →
        (plug.watts env).isSome → consumed plug.watts start earlier = 0 := by
  refine forall₅_congr fun earlier env now later hcalls => imp_congr_right fun hread => ?_
  obtain ⟨w, hw⟩ := Option.isSome_iff_exists.mp hread
  rw [hcalls, List.append_cons] at htime
  obtain ⟨x, hanswer, hsum⟩ := I.answer_eq hstart htime.append_left hw
  rw [hanswer, hsum, Except.ok.injEq]
  exact right_eq_add

/-- An exact counter of a power that is never negative does not run backwards. -/
theorem monotone (I : Integrates plug shown holds) (hstart : holds c start 0)
    (htime : InTime start calls) (h : plug.Exact c start calls) : plug.Monotone c calls := by
  intro hpos earlier env now between env' now' later j j' hcalls hbetween hj hj'
  have hread : ∀ {before env now later}, calls = before ++ .getJoules env now :: later →
      ∀ {j}, plug.answer c before env now = .ok j →
      (plug.watts env).isSome ∧ consumed plug.watts start (before ++ [.getJoules env now]) = j := by
    intro before env now later hcut j hanswer
    cases hw : plug.watts env with
    | none =>
      rw [hcut] at htime
      obtain ⟨e, he⟩ := I.answer_fails hstart htime.append_left now hw
      rw [he] at hanswer
      cases hanswer
    | some w =>
      rw [h before env now later hcut (by simp [hw])] at hanswer
      exact ⟨rfl, Except.ok.inj hanswer⟩
  have hcut' : calls =
      (earlier ++ .getJoules env now :: between) ++ .getJoules env' now' :: later := by
    rw [hcalls]; simp
  obtain ⟨-, rfl⟩ := hread hcalls hj
  obtain ⟨-, rfl⟩ := hread hcut' hj'
  have hmore : ∀ t, .reset t ∉ between ++ [.getJoules env' now'] := by simp [hbetween]
  obtain ⟨readings, happend⟩ := sinceReset_append plug.watts start.toNat
    (earlier ++ [.getJoules env now]) _ hmore
  have hwhole : earlier ++ [.getJoules env now] ++ (between ++ [.getJoules env' now']) =
      earlier ++ .getJoules env now :: between ++ [.getJoules env' now'] := by simp
  rw [hwhole] at happend
  rw [hcut', List.append_cons] at htime hpos
  have hsorted := htime.append_left.sorted plug.watts
  unfold consumed
  rw [happend] at hsorted ⊢
  refine div_le_div_of_nonneg_right (integral_le_append hsorted fun r hr => ?_) (by norm_num)
  have hmem : r ∈ (sinceReset plug.watts start.toNat
      (earlier ++ .getJoules env now :: between ++ [.getJoules env' now'])).2 := by
    rw [happend]
    exact List.mem_append_right _ hr
  obtain ⟨e, t, hcall, hw⟩ := mem_sinceReset hmem
  exact hpos e t r.2 (List.mem_append_left _ hcall) hw

end Integrates

theorem elapsedMillis_eq {t now : UInt64} (h : t ≤ now) :
    elapsedMillis t now = now.toNat - t.toNat := by
  have hle : t.toNat ≤ now.toNat := UInt64.le_iff_toNat_le.mp h
  rw [elapsedMillis, UInt64.toNat_sub_of_le _ _ h, Nat.cast_sub hle]

theorem CounterPlugSmartPower2Linux.integrates :
    Integrates methods (· + ·) fun c t j =>
      c.usbFile = true ∧ c.lastTimestamp = t ∧ c.cumulativeJoules = j where
  reads := by
    rintro ⟨_, last, joules⟩ _ _ env now w ⟨rfl, rfl, rfl⟩ hle hw
    obtain rfl : env = w := Option.some.inj hw
    rw [← elapsedMillis_eq hle]
    exact ⟨_, rfl, rfl, rfl, rfl⟩
  fails := fun _ _ hw => by cases hw
  resets := by
    rintro c _ _ now ⟨husb, -, -⟩
    exact ⟨_, rfl, husb, rfl, rfl⟩

theorem CounterPlugFileLinux.integrates :
    Integrates methods (· + ·) fun c t j => c.lastTimestamp = t ∧ c.cumulativeJoules = j where
  reads := by
    rintro c _ _ env now w ⟨rfl, rfl⟩ hle hw
    obtain rfl : env = w := Option.some.inj hw
    rw [← elapsedMillis_eq hle]
    exact ⟨_, rfl, rfl, rfl⟩
  fails := fun _ _ hw => by cases hw
  resets := by
    rintro c _ _ now ⟨-, -⟩
    exact ⟨_, rfl, rfl, rfl⟩

theorem CounterPlugINALinux.integrates :
    Integrates methods (fun _ x => x) fun c t j =>
      c.lastRead = t.toNat ∧ c.cumulativeJoules = j where
  reads := by
    rintro c t _ env now w ⟨hlast, rfl⟩ hle hw
    obtain ⟨⟨_, _, _, a7⟩, ⟨_, _, _, a15⟩⟩ := env
    cases a7 with
    | none => cases hw
    | some a7 =>
      cases a15 with
      | none => cases hw
      | some a15 =>
        obtain rfl := Option.some.inj hw
        rw [← hlast]
        exact ⟨_, rfl, rfl, rfl⟩
  fails := by
    rintro c t j ⟨⟨_, _, _, a7⟩, ⟨_, _, _, a15⟩⟩ now - hw
    cases a7 with
    | none => exact ⟨_, rfl⟩
    | some a7 =>
      cases a15 with
      | none => exact ⟨_, rfl⟩
      | some a15 => cases hw
  resets := by
    rintro c _ _ now ⟨-, -⟩
    exact ⟨_, rfl, rfl, rfl⟩

theorem SensorIna.init_cases {γ : Type} (sensor : SensorIna) (c : γ) :
    (∃ b, sensor.init.run c = .ok b c) ∨ ∃ e, sensor.init.run c = .error e c := by
  obtain ⟨opens, gets, sets, uW⟩ := sensor
  cases opens
  · exact .inl ⟨false, rfl⟩
  · cases gets
    · exact .inr ⟨_, rfl⟩
    · cases sets
      · exact .inr ⟨_, rfl⟩
      · exact .inl ⟨true, rfl⟩

theorem CounterPlugINALinux.init_true {sensors : Sensors} {start : UInt64}
    {c c' : CounterPlugINALinux} (h : (init sensors start).run c = .ok true c') :
    c' = { c with lastRead := start.toNat } := by
  generalize hd : { c with lastRead := (start.toNat : ℚ) } = d
  have hmodify : (init sensors start).run c =
      (do if ← sensors.sensorA7.init then sensors.sensorA15.init else return false :
        Call CounterPlugINALinux Bool).run d := by rw [← hd]; rfl
  rw [hmodify, EStateM.run_bind] at h
  rcases sensors.sensorA7.init_cases d with ⟨b, hb⟩ | ⟨e, he⟩
  · rw [hb] at h
    cases b with
    | false => cases h
    | true =>
      rcases sensors.sensorA15.init_cases d with ⟨b, hb⟩ | ⟨e, he⟩
      · exact (EStateM.Result.ok.inj (hb.symm.trans h)).2.symm
      · cases he.symm.trans h
  · rw [he] at h
    cases h

section Plugs

variable {opens available : Bool} {sensors : Sensors} {stale created start : UInt64} {staleRead : ℚ}
  {p : CounterPlugSmartPower2Linux} {f : CounterPlugFileLinux} {i : CounterPlugINALinux}

/-- After `init()`, the counters of the SmartPower2 and of the file return what was consumed since
the last reset, and do not run backwards.  The counter of the sensors does so exactly when nothing
was consumed between a reset and the calls of `getJoules()` before each other one. -/
theorem plugs_exact_iff
    (hp : (CounterPlugSmartPower2Linux.init opens start).run (.new stale) = .ok true p)
    (hf : (CounterPlugFileLinux.init available start).run (.new created) = .ok true f)
    (hi : (CounterPlugINALinux.init sensors start).run (.new staleRead) = .ok true i)
    {calls : List (PlugCall ℚ)} (hcalls : InTime start calls)
    {inaCalls : List (PlugCall Sensors)} (hinaCalls : InTime start inaCalls) :
    (CounterPlugSmartPower2Linux.methods.Exact p start calls ∧
      CounterPlugSmartPower2Linux.methods.Monotone p calls) ∧
    (CounterPlugFileLinux.methods.Exact f start calls ∧
      CounterPlugFileLinux.methods.Monotone f calls) ∧
    ((CounterPlugINALinux.methods.Exact i start inaCalls ∧
      CounterPlugINALinux.methods.Monotone i inaCalls) ↔
      ∀ earlier env now later, inaCalls = earlier ++ .getJoules env now :: later →
        (CounterPlugINALinux.watts env).isSome →
        consumed CounterPlugINALinux.watts start earlier = 0) := by
  have hp0 : p.usbFile = true ∧ p.lastTimestamp = start ∧ p.cumulativeJoules = 0 := by
    cases opens <;> cases hp
    exact ⟨rfl, rfl, rfl⟩
  have hf0 : f.lastTimestamp = start ∧ f.cumulativeJoules = 0 := by
    cases available <;> cases hf
    exact ⟨rfl, rfl⟩
  have hi0 : i.lastRead = start.toNat ∧ i.cumulativeJoules = 0 := by
    rw [CounterPlugINALinux.init_true hi]
    exact ⟨rfl, rfl⟩
  have P := CounterPlugSmartPower2Linux.integrates
  have F := CounterPlugFileLinux.integrates
  have I := CounterPlugINALinux.integrates
  have hP := P.exact_of_sum hp0 hcalls
  have hF := F.exact_of_sum hf0 hcalls
  refine ⟨⟨hP, P.monotone hp0 hcalls hP⟩, ⟨hF, F.monotone hf0 hcalls hF⟩, ?_⟩
  constructor
  · rintro ⟨hexact, -⟩
    exact (I.exact_iff_of_last hi0 hinaCalls).mp hexact
  · intro h
    have hexact := (I.exact_iff_of_last hi0 hinaCalls).mpr h
    exact ⟨hexact, I.monotone hi0 hinaCalls hexact⟩

end Plugs

/-- Two sensors that show one watt together. -/
def oneWatt : Sensors := ⟨⟨true, true, true, some 1000000⟩, ⟨true, true, true, some 0⟩⟩

/-- A counter of the sensors that is reset before each reading. -/
theorem plugs_exact_iff_reset :
    CounterPlugSmartPower2Linux.methods.Exact ⟨true, 0, 0⟩ 0
      [.getJoules 1 1000, .getJoules 1 2000] ∧
    CounterPlugFileLinux.methods.Exact ⟨0, 0⟩ 0 [.getJoules 1 1000, .getJoules 1 2000] ∧
    CounterPlugINALinux.methods.Exact ⟨0, 0⟩ 0
      [.getJoules oneWatt 1000, .reset 2000, .getJoules oneWatt 3000] := by
  obtain ⟨⟨hp, -⟩, ⟨hf, -⟩, hi⟩ := @plugs_exact_iff true true oneWatt 5 0 0 7
    ⟨true, 0, 0⟩ ⟨0, 0⟩ ⟨0, 0⟩ rfl rfl rfl [.getJoules 1 1000, .getJoules 1 2000] (by decide)
    [.getJoules oneWatt 1000, .reset 2000, .getJoules oneWatt 3000] (by decide)
  refine ⟨hp, hf, (hi.mpr ?_).1⟩
  intro earlier env now later hcalls _
  rcases earlier with _ | ⟨first, _ | ⟨second, _ | ⟨third, earlier⟩⟩⟩
  · exact consumed_nil
  · cases hcalls
  · cases hcalls
    exact @consumed_reset _ _ [.getJoules oneWatt 1000] 2000 0
  · simp at hcalls

/-- Two calls a second apart at one watt: the second returns one joule of two. -/
theorem ina_not_exact :
    ∃ i, (CounterPlugINALinux.init oneWatt 0).run (.new 0) = .ok true i ∧
      InTime 0 [PlugCall.getJoules oneWatt 1000, .getJoules oneWatt 2000] ∧
      ¬CounterPlugINALinux.methods.Exact i 0
        [.getJoules oneWatt 1000, .getJoules oneWatt 2000] := by
  refine ⟨⟨0, 0⟩, rfl, by decide, fun h => ?_⟩
  have hsecond := h [.getJoules oneWatt 1000] oneWatt 2000 [] rfl rfl
  revert hsecond
  decide +kernel

end Mammut.Energy
