import Mathlib.Logic.Function.Basic
import Mammut.Kit.BitFields

/-! `Msr`, from `utils.cpp`: fields of bits in the model specific registers of a virtual core. -/

namespace Mammut.Utils

open Kit

/-- The registers of a virtual core: what they hold, of those that can be read, and those that take
a write. -/
structure Registers where
  content : ℕ → Option (BitVec 64)
  writable : ℕ → Bool

namespace Msr

variable (which high low : ℕ)

/-- Whether the register could be read, and its bits. -/
def readBits (r : Registers) : Bool × UInt64 :=
  match r.content which with
  | some value => (true, ⟨BitFields.extract high low value⟩)
  | none => (false, 0)

def write (value : BitVec 64) (r : Registers) : Bool × Registers :=
  if r.writable which then
    (true, { r with content := Function.update r.content which (some value) })
  else (false, r)

/-- `stale` is what the local variable `oldValue` holds, which a failed read leaves as it is. -/
def writeBits (stale : BitVec 64) (value : UInt64) (r : Registers) : Bool × Registers :=
  write which (BitFields.insert high low ((r.content which).getD stale) value.toBitVec) r

variable {which high low} {r : Registers} {stale content : BitVec 64} {value : UInt64}

theorem readBits_of_some (h : r.content which = some content) :
    readBits which high low r = (true, ⟨BitFields.extract high low content⟩) := by
  rw [readBits, h]

theorem readBits_of_none (h : r.content which = none) : readBits which high low r = (false, 0) := by
  rw [readBits, h]

theorem writeBits_of_writable (h : r.writable which = true) :
    writeBits which high low stale value r = (true, { r with
      content := Function.update r.content which
        (some (BitFields.insert high low ((r.content which).getD stale) value.toBitVec)) }) := by
  rw [writeBits, write, if_pos h]

theorem writeBits_of_not_writable (h : r.writable which = false) :
    writeBits which high low stale value r = (false, r) := by
  simp [writeBits, write, h]

/-- A field that was written reads the value modulo its width, every other bit of the registers is
as it was, and a field that is written back changes nothing. -/
theorem writeBits_field (hread : r.content which = some content) (hwrite : r.writable which = true)
    (hlow : low ≤ high) (hhigh : high ≤ 63) (stale : BitVec 64) (value : UInt64) :
    ∃ r' content', writeBits which high low stale value r = (true, r') ∧
      r'.content which = some content' ∧
      readBits which high low r' =
        (true, UInt64.ofNat (value.toNat % 2 ^ (high - low + 1))) ∧
      (∀ k < 64, ¬(low ≤ k ∧ k ≤ high) → content'.getLsbD k = content.getLsbD k) ∧
      (∀ other, other ≠ which → r'.content other = r.content other) ∧
      r'.writable = r.writable ∧
      (∀ other high' low', low' ≤ high' → high' ≤ 63 →
        other ≠ which ∨ high' < low ∨ high < low' →
        readBits other high' low' r' = readBits other high' low' r) ∧
      ∀ field, readBits which high low r = (true, field) →
        writeBits which high low stale field r = (true, r) := by
  have hrun : writeBits which high low stale value r = (true, { r with
      content := Function.update r.content which
        (some (BitFields.insert high low content value.toBitVec)) }) := by
    rw [writeBits_of_writable hwrite, hread, Option.getD_some]
  refine ⟨_, BitFields.insert high low content value.toBitVec, hrun, ?_, ?_, ?_, ?_, rfl, ?_, ?_⟩
  · simp
  · rw [readBits_of_some (Function.update_self ..)]
    congr 1
    apply UInt64.toNat_inj.mp
    have hlt : value.toNat % 2 ^ (high - low + 1) < 2 ^ 64 :=
      Nat.lt_of_le_of_lt (Nat.mod_le ..) value.toNat_lt
    rw [UInt64.toNat_ofNat_of_lt' hlt]
    exact BitFields.toNat_extract_insert hlow (by omega)
  · intro k hk hout
    rw [BitFields.getLsbD_insert hk, if_neg hout]
  · intro other hne
    exact Function.update_of_ne hne ..
  · intro other high' low' hlow' hhigh' hdisjoint
    by_cases hwhich : other = which
    · subst hwhich
      rw [readBits_of_some (Function.update_self ..), readBits_of_some hread,
        BitFields.extract_insert_disjoint hlow' (by omega) (by omega)]
    · simp only [readBits, Function.update_of_ne hwhich]
  · intro field hfield
    rw [readBits_of_some hread, Prod.mk.injEq] at hfield
    rw [writeBits_of_writable hwrite, hread, Option.getD_some, ← hfield.2,
      BitFields.insert_extract hlow (by omega), ← hread, Function.update_eq_self]

theorem writeBits_field_top : ∃ r' content',
    writeBits 0 63 60 0 0x25 ⟨fun _ => some 0, fun _ => true⟩ = (true, r') ∧
      r'.content 0 = some content' ∧ readBits 0 63 60 r' = (true, 5) :=
  have hread : (⟨fun _ => some 0, fun _ => true⟩ : Registers).content 0 = some 0 := rfl
  have ⟨r', content', hrun, hcontent, hfield, _⟩ :=
    writeBits_field hread rfl (by decide : 60 ≤ 63) (Nat.le_refl 63) 0 0x25
  ⟨r', content', hrun, hcontent, hfield⟩

end Msr

end Mammut.Utils
