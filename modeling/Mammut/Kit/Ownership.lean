import Mathlib.Logic.Function.Basic

/-! Places that own what lives on a heap: no place dangles, no two places share, and nothing lives
that no place owns. -/

namespace Kit

variable {K A R : Type*}

/-- The pointers `place` own what is alive.  `fits` tells which resources a place may own. -/
structure Owns (fits : K → R → Prop) (place : K → Option A) (alive : A → Option R) : Prop where
  live : ∀ {k a}, place k = some a → ∃ r, alive a = some r ∧ fits k r
  unique : ∀ {k k' a}, place k = some a → place k' = some a → k = k'
  owned : ∀ {a r}, alive a = some r → ∃ k, place k = some a

namespace Owns

variable {fits fits' : K → R → Prop} {place place' : K → Option A} {alive : A → Option R} {k : K}
  {a : A} {r : R}

theorem empty : Owns fits (fun _ => none : K → Option A) fun _ => none :=
  ⟨nofun, nofun, nofun⟩

/-- The same pointers in the same places, which may fit something else as long as they own it. -/
theorem congr (h : Owns fits place alive) (hplace : ∀ k, place' k = place k)
    (hfits : ∀ k r a, place k = some a → fits k r → fits' k r) : Owns fits' place' alive where
  live := by
    intro k a hk
    rw [hplace] at hk
    obtain ⟨r, hr, hfit⟩ := h.live hk
    exact ⟨r, hr, hfits k r a hk hfit⟩
  unique := by
    intro k k' a hk hk'
    rw [hplace] at hk hk'
    exact h.unique hk hk'
  owned := by
    intro a r hr
    obtain ⟨k, hk⟩ := h.owned hr
    exact ⟨k, by rw [hplace, hk]⟩

variable [DecidableEq K] [DecidableEq A]

/-- A place without a pointer takes what has just been allocated. -/
theorem adopt (h : Owns fits place alive) (hplace : place k = none) (hfresh : alive a = none)
    (hfits : fits k r) :
    Owns fits (Function.update place k (some a)) (Function.update alive a (some r)) := by
  have hother : ∀ {j b}, place j = some b → j ≠ k ∧ b ≠ a := by
    intro j b hj
    refine ⟨?_, ?_⟩
    · rintro rfl
      rw [hplace] at hj
      cases hj
    · rintro rfl
      obtain ⟨r', hr', -⟩ := h.live hj
      rw [hfresh] at hr'
      cases hr'
  refine ⟨?_, ?_, ?_⟩
  · intro j b hj
    by_cases hjk : j = k
    · subst hjk
      rw [Function.update_self] at hj
      cases hj
      exact ⟨r, Function.update_self _ _ _, hfits⟩
    · rw [Function.update_of_ne hjk] at hj
      rw [Function.update_of_ne (hother hj).2]
      exact h.live hj
  · intro j j' b hj hj'
    by_cases hjk : j = k <;> by_cases hjk' : j' = k
    · rw [hjk, hjk']
    · rw [Function.update_of_ne hjk'] at hj'
      rw [hjk, Function.update_self] at hj
      exact absurd (Option.some.inj hj).symm (hother hj').2
    · rw [Function.update_of_ne hjk] at hj
      rw [hjk', Function.update_self] at hj'
      exact absurd (Option.some.inj hj').symm (hother hj).2
    · rw [Function.update_of_ne hjk] at hj
      rw [Function.update_of_ne hjk'] at hj'
      exact h.unique hj hj'
  · intro b r' hb
    by_cases hba : b = a
    · exact ⟨k, by rw [Function.update_self, hba]⟩
    · rw [Function.update_of_ne hba] at hb
      obtain ⟨j, hj⟩ := h.owned hb
      exact ⟨j, by rw [Function.update_of_ne (hother hj).1, hj]⟩

/-- A place gives up its pointer, and what it points to is deleted. -/
theorem release (h : Owns fits place alive) (hplace : place k = some a) :
    Owns fits (Function.update place k none) (Function.update alive a none) := by
  have hother : ∀ {j b}, Function.update place k none j = some b →
      j ≠ k ∧ place j = some b ∧ b ≠ a := by
    intro j b hj
    have hjk : j ≠ k := by
      rintro rfl
      rw [Function.update_self] at hj
      cases hj
    rw [Function.update_of_ne hjk] at hj
    exact ⟨hjk, hj, fun hba => hjk (h.unique hj (hba ▸ hplace))⟩
  refine ⟨?_, ?_, ?_⟩
  · intro j b hj
    obtain ⟨-, hj, hba⟩ := hother hj
    rw [Function.update_of_ne hba]
    exact h.live hj
  · intro j j' b hj hj'
    exact h.unique (hother hj).2.1 (hother hj').2.1
  · intro b r' hb
    have hba : b ≠ a := by
      rintro rfl
      rw [Function.update_self] at hb
      cases hb
    rw [Function.update_of_ne hba] at hb
    obtain ⟨j, hj⟩ := h.owned hb
    have hjk : j ≠ k := by
      rintro rfl
      exact hba (Option.some.inj (hj.symm.trans hplace))
    exact ⟨j, by rw [Function.update_of_ne hjk, hj]⟩

end Owns

end Kit
