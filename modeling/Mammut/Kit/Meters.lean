import Mathlib.Algebra.Order.Ring.Int
import Mathlib.Order.Nat

/-! Resettable meters over registers that wrap.  A register of modulus `R` shows a growing total
modulo `R`.  `elapsed` recovers from two readings how much the total grew between them, and
`Meter` accumulates that growth.  `Tally` says what a meter is for: it keeps the totals
themselves, and a meter that follows it holds the growth since the last reset. -/

namespace Kit.Meters

/-- The growth between the readings `last` and `now` of a register of modulus `R`. -/
def elapsed (R last now : ℕ) : ℤ := if last ≤ now then now - last else R - last + now

theorem elapsed_of_le {R last now : ℕ} (h : last ≤ now) :
    elapsed R last now = now - last := if_pos h

theorem elapsed_of_lt {R last now : ℕ} (h : now < last) :
    elapsed R last now = R - last + now := if_neg (Nat.not_le.mpr h)

/-- A growth below the modulus shows in the readings as their distance, once around at most. -/
theorem mod_add_growth {R a b : ℕ} (le : a ≤ b) (lt : b - a < R) :
    b % R = a % R + (b - a) ∨ b % R + R = a % R + (b - a) := by
  have hR : 0 < R := by omega
  have ha := Nat.div_add_mod a R
  have hr := Nat.mod_lt a hR
  have hb : b = a % R + (b - a) + R * (a / R) := by omega
  have hmod : b % R = (a % R + (b - a)) % R := by
    conv_lhs => rw [hb]
    exact Nat.add_mul_mod_self_left _ _ _
  by_cases wrap : a % R + (b - a) < R
  · left; rw [hmod, Nat.mod_eq_of_lt wrap]
  · right
    rw [hmod, Nat.mod_eq_sub_mod (by omega), Nat.mod_eq_of_lt (by omega)]
    omega

/-- Two readings recover a growth below the modulus. -/
theorem elapsed_mod {R a b : ℕ} (le : a ≤ b) (lt : b - a < R) :
    elapsed R (a % R) (b % R) = (b : ℤ) - a := by
  have hr := Nat.mod_lt a (show 0 < R by omega)
  have hs := Nat.mod_lt b (show 0 < R by omega)
  unfold elapsed
  rcases mod_add_growth le lt with h | h <;> split <;> omega

/-- Without a wrap the modulus used for the correction plays no part. -/
theorem elapsed_mod_of_le {R R' a b : ℕ} (le : a ≤ b) (lt : b - a < R) (rises : a % R ≤ b % R) :
    elapsed R' (a % R) (b % R) = (b : ℤ) - a := by
  rw [elapsed_of_le rises, ← elapsed_mod le lt, elapsed_of_le rises]

/-- A meter: the growth it has accumulated and the reading it saw last. -/
structure Meter where
  accumulated : ℤ
  last : ℕ

/-- A reading `now`, with `R` as the modulus of the correction. -/
def Meter.read (R : ℕ) (m : Meter) (now : ℕ) : Meter :=
  ⟨m.accumulated + elapsed R m.last now, now⟩

/-- A reset at reading `now`. -/
def Meter.reset (now : ℕ) : Meter := ⟨0, now⟩

/-- The totals of the zones of a meter: now, when each zone was read last, and when it was reset
last. -/
structure Tally (Z : Type*) where
  total : Z → ℕ
  atRead : Z → ℕ
  atReset : Z → ℕ
  read_le : ∀ z, atRead z ≤ total z
  reset_le : ∀ z, atReset z ≤ atRead z

namespace Tally

variable {Z : Type*}

/-- The tally of zones reset when their totals are `E`. -/
def start (E : Z → ℕ) : Tally Z := ⟨E, E, E, fun _ => le_rfl, fun _ => le_rfl⟩

/-- What a zone consumed between its last reset and its last read. -/
def since (t : Tally Z) (z : Z) : ℕ := t.atRead z - t.atReset z

/-- The zones of `zones` are read when the totals are `E`. -/
def read (t : Tally Z) (zones : Z → Bool) (E : Z → ℕ) (grows : ∀ z, t.total z ≤ E z) :
    Tally Z where
  total := E
  atRead z := if zones z then E z else t.atRead z
  atReset := t.atReset
  read_le z := by
    split
    · exact le_rfl
    · exact (t.read_le z).trans (grows z)
  reset_le z := by
    split
    · exact (t.reset_le z).trans ((t.read_le z).trans (grows z))
    · exact t.reset_le z

/-- The zones of `zones` are read and reset when the totals are `E`. -/
def reset (t : Tally Z) (zones : Z → Bool) (E : Z → ℕ) (grows : ∀ z, t.total z ≤ E z) :
    Tally Z where
  total := E
  atRead z := if zones z then E z else t.atRead z
  atReset z := if zones z then E z else t.atReset z
  read_le := (t.read zones E grows).read_le
  reset_le z := by
    split
    · exact le_rfl
    · exact t.reset_le z

/-- Each zone of `zones` consumed less than its modulus since it was read. -/
def Gap (R : Z → ℕ) (t : Tally Z) (zones : Z → Bool) (E : Z → ℕ) : Prop :=
  ∀ z, zones z → E z - t.atRead z < R z

variable {t : Tally Z} {zones : Z → Bool} {E : Z → ℕ} {grows : ∀ z, t.total z ≤ E z} {z : Z}

@[simp] theorem read_atReset : (t.read zones E grows).atReset = t.atReset := rfl

theorem read_atRead (hz : zones z) : (t.read zones E grows).atRead z = E z := if_pos hz

theorem read_atRead_other (hz : ¬zones z) : (t.read zones E grows).atRead z = t.atRead z :=
  if_neg hz

theorem reset_atRead (hz : zones z) : (t.reset zones E grows).atRead z = E z := if_pos hz

theorem reset_atRead_other (hz : ¬zones z) : (t.reset zones E grows).atRead z = t.atRead z :=
  if_neg hz

theorem reset_since_other (hz : ¬zones z) : (t.reset zones E grows).since z = t.since z := by
  simp [since, reset, hz]

theorem reset_since (hz : zones z) : (t.reset zones E grows).since z = 0 := by
  simp [since, reset, hz]

theorem read_since (hz : zones z) : (t.read zones E grows).since z = E z - t.atReset z := by
  rw [since, read_atRead hz, read_atReset]

theorem read_since_other (hz : ¬zones z) : (t.read zones E grows).since z = t.since z := by
  rw [since, since, read_atRead_other hz, read_atReset]

/-- Zones that are read again while the totals stay what they are. -/
theorem Gap.read {R : Z → ℕ} {again : Z → Bool} (h : t.Gap R again E) :
    (t.read zones E grows).Gap R again E := by
  intro z hz
  have hgap := h z hz
  by_cases hread : zones z
  · rw [read_atRead hread, Nat.sub_self]
    omega
  · rw [read_atRead_other hread]
    exact hgap

end Tally

/-- A meter follows a zone of a tally through a register of modulus `R`. -/
structure Follows {Z : Type*} (R : ℕ) (t : Tally Z) (z : Z) (m : Meter) : Prop where
  last : m.last = t.atRead z % R
  accumulated : m.accumulated = t.since z

namespace Follows

variable {Z : Type*} {R R' : ℕ} {t : Tally Z} {z : Z} {m : Meter} {zones : Z → Bool} {E : Z → ℕ}
  {grows : ∀ z, t.total z ≤ E z}

/-- A reading whose correction recovers the growth keeps a meter in step. -/
theorem read_elapsed (h : Follows R t z m) (hz : zones z)
    (exact : elapsed R' (t.atRead z % R) (E z % R) = (E z : ℤ) - t.atRead z) :
    Follows R (t.read zones E grows) z (m.read R' (E z % R)) := by
  have h1 := t.reset_le z
  have h2 := (t.read_le z).trans (grows z)
  refine ⟨by rw [Tally.read_atRead hz]; rfl, ?_⟩
  rw [Tally.read_since hz]
  simp only [Meter.read, h.accumulated, h.last, exact, Tally.since]
  omega

/-- The step lemma of a read: a growth below the modulus keeps the meter in step. -/
theorem read (h : Follows R t z m) (hz : zones z) (gap : E z - t.atRead z < R) :
    Follows R (t.read zones E grows) z (m.read R (E z % R)) :=
  h.read_elapsed hz (elapsed_mod ((t.read_le z).trans (grows z)) gap)

theorem read_other (h : Follows R t z m) (hz : ¬zones z) :
    Follows R (t.read zones E grows) z m :=
  ⟨by rw [Tally.read_atRead_other hz, h.last], by rw [Tally.read_since_other hz, h.accumulated]⟩

/-- The step lemma of a reset. -/
theorem reset (hz : zones z) : Follows R (t.reset zones E grows) z (Meter.reset (E z % R)) :=
  ⟨by rw [Tally.reset_atRead hz]; rfl, by rw [Tally.reset_since hz]; rfl⟩

theorem reset_other (h : Follows R t z m) (hz : ¬zones z) :
    Follows R (t.reset zones E grows) z m :=
  ⟨by rw [Tally.reset_atRead_other hz, h.last],
    by rw [Tally.reset_since_other hz, h.accumulated]⟩

theorem start (E : Z → ℕ) (z : Z) : Follows R (Tally.start E) z (Meter.reset (E z % R)) :=
  ⟨rfl, by simp [Tally.since, Tally.start, Meter.reset]⟩

end Follows

/-- One meter for each zone. -/
abbrev Bank (Z : Type*) := Z → Meter

namespace Bank

variable {Z : Type*}

def read (R : ℕ) (zones : Z → Bool) (readings : Z → ℕ) (b : Bank Z) : Bank Z := fun z =>
  if zones z then (b z).read R (readings z) else b z

def reset (zones : Z → Bool) (readings : Z → ℕ) (b : Bank Z) : Bank Z := fun z =>
  if zones z then Meter.reset (readings z) else b z

/-- The meters of the zones of `live` follow a tally through registers of moduli `R`. -/
def FollowsAll (R : Z → ℕ) (t : Tally Z) (live : Z → Bool) (b : Bank Z) : Prop :=
  ∀ z, live z → Follows (R z) t z (b z)

variable {R : Z → ℕ} {R' : ℕ} {t : Tally Z} {zones live : Z → Bool} {b : Bank Z} {E : Z → ℕ}
  {grows : ∀ z, t.total z ≤ E z}

theorem reset_reset (zones zones' : Z → Bool) (readings : Z → ℕ) (b : Bank Z) :
    (b.reset zones readings).reset zones' readings =
      b.reset (fun z => zones z || zones' z) readings := by
  funext z
  unfold Bank.reset
  cases hz : zones z <;> cases hz' : zones' z <;> simp [hz, hz']

theorem reset_none (readings : Z → ℕ) (b : Bank Z) : b.reset (fun _ => false) readings = b := rfl

theorem FollowsAll.congr {b' : Bank Z} (h : FollowsAll R t live b)
    (heq : ∀ z, live z → b' z = b z) : FollowsAll R t live b' := by
  intro z hlive
  rw [heq z hlive]
  exact h z hlive

/-- The step lemma of a read of several zones: each correction must recover its growth. -/
theorem FollowsAll.read (h : FollowsAll R t live b)
    (exact : ∀ z, live z → zones z →
      elapsed R' (t.atRead z % R z) (E z % R z) = (E z : ℤ) - t.atRead z) :
    FollowsAll R (t.read zones E grows) live (b.read R' zones fun z => E z % R z) := by
  intro z hlive
  unfold Bank.read
  split
  case isTrue hz => exact (h z hlive).read_elapsed hz (exact z hlive hz)
  case isFalse hz => exact (h z hlive).read_other hz

/-- The step lemma of a reset of several zones. -/
theorem FollowsAll.reset (h : FollowsAll R t live b) :
    FollowsAll R (t.reset zones E grows) live (b.reset zones fun z => E z % R z) := by
  intro z hlive
  unfold Bank.reset
  split
  case isTrue hz => exact Follows.reset hz
  case isFalse hz => exact (h z hlive).reset_other hz

end Bank

end Kit.Meters
