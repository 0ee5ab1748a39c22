import Mathlib.Algebra.Group.Nat.Defs
import Mammut.Kit.Wire

/-! Messages on the wire as records: each has a number and holds a number, eight bytes, or bytes
that say how many they are.  Numbers are written in groups of seven bits, the lowest first. -/

namespace Kit.Records

open Wire

variable {α : Type*}

/-- What takes a value from the front of some bytes, and leaves the others. -/
abbrev Reader (α : Type*) := List UInt8 → Option (α × List UInt8)

/-- The reader takes back the value that was written, whatever follows it. -/
def Inverts (read : Reader α) (write : α → List UInt8) (a : α) : Prop :=
  ∀ rest, read (write a ++ rest) = some (a, rest)

/-- The values that the bytes hold, at most `k` of them. -/
def readAll (read : Reader α) : ℕ → List UInt8 → Option (List α)
  | _, [] => some []
  | 0, _ :: _ => none
  | k + 1, b :: bytes =>
    (read (b :: bytes)).bind fun (a, rest) => (readAll read k rest).map (a :: ·)

theorem readAll_flatMap {read : Reader α} {write : α → List UInt8} {as : List α}
    (inverts : ∀ a ∈ as, Inverts read write a) (nonempty : ∀ a ∈ as, write a ≠ [])
    {k : ℕ} (hk : (as.flatMap write).length ≤ k) : readAll read k (as.flatMap write) = some as := by
  induction as generalizing k with
  | nil => cases k <;> rfl
  | cons a as ih =>
    rw [List.flatMap_cons] at hk ⊢
    have hread := inverts a List.mem_cons_self (as.flatMap write)
    obtain ⟨b, bytes, hwrite⟩ := List.exists_cons_of_ne_nil (nonempty a List.mem_cons_self)
    rw [hwrite, List.cons_append] at hk hread ⊢
    rw [List.length_cons, List.length_append] at hk
    obtain ⟨k, rfl⟩ : ∃ j, k = j + 1 := ⟨k - 1, by omega⟩
    have hrest := ih (fun a ha => inverts a (List.mem_cons_of_mem _ ha))
      (fun a ha => nonempty a (List.mem_cons_of_mem _ ha)) (k := k) (by omega)
    simp only [readAll, hread, Option.bind_some, hrest, Option.map_some]

/-- A number in groups of seven bits; every group but the last has its high bit set. -/
def varint (n : ℕ) : List UInt8 :=
  if n < 128 then [UInt8.ofNat n] else UInt8.ofNat (128 + n % 128) :: varint (n / 128)

def readVarint : Reader ℕ
  | [] => none
  | b :: bytes =>
    if b.toNat < 128 then some (b.toNat, bytes)
    else (readVarint bytes).map fun (high, rest) => (b.toNat - 128 + 128 * high, rest)

theorem varint_ne_nil (n : ℕ) : varint n ≠ [] := by
  rw [varint]
  split_ifs <;> exact List.cons_ne_nil _ _

theorem varint_inverts (n : ℕ) : Inverts readVarint varint n := by
  intro rest
  induction n using Nat.strongRecOn with
  | ind n ih =>
    rw [varint]
    split_ifs with hlast
    · have hbyte : (UInt8.ofNat n).toNat = n := by
        rw [UInt8.toNat_ofNat', Nat.mod_eq_of_lt (Nat.lt_trans hlast (by decide))]
      rw [List.singleton_append, readVarint, hbyte, if_pos hlast]
    · have hbyte : (UInt8.ofNat (128 + n % 128)).toNat = 128 + n % 128 := by
        rw [UInt8.toNat_ofNat', Nat.mod_eq_of_lt (by omega)]
      rw [List.cons_append, readVarint, hbyte, if_neg (by omega), ih (n / 128) (by omega)]
      simp only [Option.map_some, Option.some.injEq, Prod.mk.injEq, and_true]
      omega

/-- What a record holds. -/
inductive Payload
  | number (n : ℕ)
  | fixed (n : ℕ)
  | bytes (bs : List UInt8)
  deriving DecidableEq, Repr

abbrev Record := ℕ × Payload

def writeRecord : Record → List UInt8
  | (i, .number n) => varint (8 * i) ++ varint n
  | (i, .fixed n) => varint (8 * i + 1) ++ (bigEndian 8 n).reverse
  | (i, .bytes bs) => varint (8 * i + 2) ++ varint bs.length ++ bs

def readPayload (wireType : ℕ) (bytes : List UInt8) : Option (Payload × List UInt8) :=
  match wireType with
  | 0 => (readVarint bytes).map fun (n, rest) => (.number n, rest)
  | 1 =>
    if 8 ≤ bytes.length then some (.fixed (value (bytes.take 8).reverse), bytes.drop 8) else none
  | 2 => (readVarint bytes).bind fun (n, rest) =>
    if n ≤ rest.length then some (.bytes (rest.take n), rest.drop n) else none
  | _ => none

def readRecord : Reader Record := fun bytes =>
  (readVarint bytes).bind fun (tag, rest) =>
    (readPayload (tag % 8) rest).map fun (p, rest) => ((tag / 8, p), rest)

/-- A number that has to fit into eight bytes does. -/
def Fits : Record → Prop
  | (_, .fixed n) => n < 256 ^ 8
  | _ => True

theorem writeRecord_ne_nil (r : Record) : writeRecord r ≠ [] := by
  obtain ⟨i, p⟩ := r
  cases p <;> simp [writeRecord, varint_ne_nil]

theorem writeRecord_inverts {r : Record} (h : Fits r) : Inverts readRecord writeRecord r := by
  intro rest
  obtain ⟨i, p⟩ := r
  cases p with
  | number n =>
    have htag : 8 * i % 8 = 0 ∧ 8 * i / 8 = i := by omega
    rw [writeRecord, List.append_assoc, readRecord, varint_inverts]
    simp only [Option.bind_some, htag, readPayload, varint_inverts n rest, Option.map_some]
  | fixed n =>
    have htag : (8 * i + 1) % 8 = 1 ∧ (8 * i + 1) / 8 = i := by omega
    have hlength : (bigEndian 8 n).reverse.length = 8 := by simp
    have hvalue : value (bigEndian 8 n) = n := by rw [value_bigEndian, Nat.mod_eq_of_lt h]
    rw [writeRecord, List.append_assoc, readRecord, varint_inverts]
    simp only [Option.bind_some, htag, readPayload, List.length_append, hlength, Nat.le_add_right,
      if_true, List.take_left' hlength, List.drop_left' hlength, List.reverse_reverse, hvalue,
      Option.map_some]
  | bytes bs =>
    have htag : (8 * i + 2) % 8 = 2 ∧ (8 * i + 2) / 8 = i := by omega
    rw [writeRecord, List.append_assoc, List.append_assoc, readRecord, varint_inverts]
    simp only [Option.bind_some, htag, readPayload, varint_inverts bs.length (bs ++ rest),
      List.length_append, Nat.le_add_right, if_true, List.take_left, List.drop_left,
      Option.map_some]

def write (rs : List Record) : List UInt8 := rs.flatMap writeRecord

def read (bytes : List UInt8) : Option (List Record) := readAll readRecord bytes.length bytes

theorem read_write {rs : List Record} (h : ∀ r ∈ rs, Fits r) : read (write rs) = some rs :=
  readAll_flatMap (fun r hr => writeRecord_inverts (h r hr)) (fun r _ => writeRecord_ne_nil r)
    (Nat.le_refl _)

/-! The fields of a message: of a field that is there more than once the last record counts. -/

def number? (i : ℕ) (rs : List Record) : Option ℕ :=
  rs.reverse.findSome? fun r => match r with
    | (j, .number n) => if j = i then some n else none
    | _ => none

def fixed? (i : ℕ) (rs : List Record) : Option ℕ :=
  rs.reverse.findSome? fun r => match r with
    | (j, .fixed n) => if j = i then some n else none
    | _ => none

/-- The bytes of every record of a repeated field. -/
def repeated (i : ℕ) (rs : List Record) : List (List UInt8) :=
  rs.filterMap fun r => match r with
    | (j, .bytes bs) => if j = i then some bs else none
    | _ => none

theorem repeated_map (i : ℕ) (parts : List (List UInt8)) :
    repeated i (parts.map fun bs => (i, .bytes bs)) = parts := by
  simp [repeated, List.filterMap_map]

/-- The numbers of a repeated field in one record, which there is only if there is a number. -/
def packed (i : ℕ) (ns : List ℕ) : List Record :=
  if ns = [] then [] else [(i, .bytes (ns.flatMap varint))]

theorem packed_fits {i : ℕ} {ns : List ℕ} {r : Record} (hr : r ∈ packed i ns) : Fits r := by
  rw [packed] at hr
  split_ifs at hr
  · cases hr
  · rw [List.mem_singleton.mp hr]
    trivial

/-- The numbers that a record has for a repeated field. -/
def numbersIn (i : ℕ) : Record → Option (List ℕ)
  | (j, .bytes bs) => if j = i then readAll readVarint bs.length bs else some []
  | (j, .number n) => some (if j = i then [n] else [])
  | _ => some []

/-- The numbers of a repeated field. -/
def numbers (i : ℕ) (rs : List Record) : Option (List ℕ) :=
  (rs.mapM (numbersIn i)).map List.flatten

theorem numbers_packed (i : ℕ) (ns : List ℕ) : numbers i (packed i ns) = some ns := by
  rw [packed]
  split_ifs with hnil
  · rw [hnil]
    rfl
  · have hall : numbersIn i (i, .bytes (ns.flatMap varint)) = some ns := by
      rw [numbersIn, if_pos rfl]
      exact readAll_flatMap (fun n _ => varint_inverts n) (fun n _ => varint_ne_nil n)
        (Nat.le_refl _)
    simp [numbers, hall]

end Kit.Records
