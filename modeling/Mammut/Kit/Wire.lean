import Mathlib.Algebra.Group.Nat.Defs
import Mathlib.Data.List.Basic
import Mathlib.Data.Nat.Init

/-! Data on a byte stream: numbers of a fixed width, the most significant byte first, and streams
that arrive in parts.  What a read returns depends on the parts; what has been read and what is
still to come do not, taken together. -/

namespace Kit.Wire

/-- The `k` low bytes of a number. -/
def bigEndian : ℕ → ℕ → List UInt8
  | 0, _ => []
  | k + 1, n => bigEndian k (n / 256) ++ [UInt8.ofNat n]

def value (bytes : List UInt8) : ℕ := bytes.foldl (fun n b => 256 * n + b.toNat) 0

@[simp] theorem length_bigEndian (k n : ℕ) : (bigEndian k n).length = k := by
  induction k generalizing n with
  | zero => rfl
  | succ k ih => simp [bigEndian, ih]

theorem value_concat (bytes : List UInt8) (b : UInt8) :
    value (bytes ++ [b]) = 256 * value bytes + b.toNat := by
  simp [value]

theorem value_bigEndian (k n : ℕ) : value (bigEndian k n) = n % 256 ^ k := by
  induction k generalizing n with
  | zero => simp [bigEndian, value, Nat.mod_one]
  | succ k ih =>
    have hlow : (UInt8.ofNat n).toNat = n % 256 := UInt8.toNat_ofNat'
    rw [bigEndian, value_concat, ih, hlow, Nat.pow_succ', Nat.mod_mul, Nat.add_comm]

variable {α : Type*}

/-- A part of a stream: what one read returns at most. -/
abbrev Chunk (α : Type*) := { part : List α // part ≠ [] }

def contents (chunks : List (Chunk α)) : List α := chunks.flatMap (·.1)

@[simp] theorem contents_nil : contents ([] : List (Chunk α)) = [] := rfl

@[simp] theorem contents_cons (c : Chunk α) (rest : List (Chunk α)) :
    contents (c :: rest) = c.1 ++ contents rest := rfl

/-- A read of at most `n` elements takes them from the first chunk, whose rest stays. -/
def readSome [DecidableEq α] (n : ℕ) : List (Chunk α) → List α × List (Chunk α)
  | [] => ([], [])
  | c :: rest =>
    (c.1.take n, if h : c.1.drop n = [] then rest else ⟨c.1.drop n, h⟩ :: rest)

variable [DecidableEq α] {n : ℕ} {chunks : List (Chunk α)}

theorem readSome_contents :
    (readSome n chunks).1 ++ contents (readSome n chunks).2 = contents chunks := by
  cases chunks with
  | nil => rfl
  | cons c rest =>
    have hsplit := List.take_append_drop n c.1
    by_cases hdrop : c.1.drop n = []
    · rw [hdrop, List.append_nil] at hsplit
      simp [readSome, hdrop, hsplit]
    · simp [readSome, hdrop, ← List.append_assoc, hsplit]

theorem readSome_length_le : (readSome n chunks).1.length ≤ n := by
  cases chunks with
  | nil => exact Nat.zero_le n
  | cons c rest => exact List.length_take_le n c.1

/-- A read makes progress unless the stream is over. -/
theorem readSome_ne_nil (hn : n ≠ 0) (hleft : contents chunks ≠ []) :
    (readSome n chunks).1 ≠ [] := by
  cases chunks with
  | nil => exact absurd rfl hleft
  | cons c rest => simp [readSome, hn, c.2]

end Kit.Wire
