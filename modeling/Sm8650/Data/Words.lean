import Mathlib.Data.BitVec

/-!
# Words as bytes

Little-endian words as lists of bytes, and words that are divided into named bit fields
from the low end up.
-/

namespace Sm8650.Data.Words

abbrev Byte := BitVec 8

/-! ## Little-endian words -/

/-- The `n` low bytes of a number, the lowest first. -/
def toBytes : Nat → Nat → List Byte
  | 0, _ => []
  | n + 1, word => BitVec.ofNat 8 word :: toBytes n (word / 256)

/-- The number that bytes stand for. -/
def ofBytes : List Byte → Nat
  | [] => 0
  | byte :: bytes => byte.toNat + 256 * ofBytes bytes

@[simp]
theorem length_toBytes (n word : Nat) : (toBytes n word).length = n := by
  induction n generalizing word with
  | zero => rfl
  | succ n ih => exact congrArg (· + 1) (ih (word / 256))

theorem ofBytes_toBytes {n word : Nat} (small : word < 256 ^ n) :
    ofBytes (toBytes n word) = word := by
  induction n generalizing word with
  | zero => exact (Nat.lt_one_iff.mp small).symm
  | succ n ih =>
    have rest : word / 256 < 256 ^ n := Nat.div_lt_of_lt_mul (by rwa [Nat.mul_comm])
    rw [toBytes, ofBytes, ih rest, BitVec.toNat_ofNat]
    omega

/-- The word of `w` bits in `n` bytes. -/
def write (n : Nat) {w : Nat} (word : BitVec w) : List Byte := toBytes n word.toNat

/-- The word of `w` bits at the head of the memory, of which it takes `n` bytes; what lies
behind the memory reads as 0. -/
def read (n w : Nat) (memory : List Byte) : BitVec w := BitVec.ofNat w (ofBytes (memory.take n))

@[simp]
theorem length_write (n : Nat) {w : Nat} (word : BitVec w) : (write n word).length = n :=
  length_toBytes n word.toNat

theorem read_write {n w : Nat} (fits : w ≤ 8 * n) (word : BitVec w) (memory : List Byte) :
    read n w (write n word ++ memory) = word := by
  have small : word.toNat < 256 ^ n := by
    have bound : 2 ^ w ≤ 2 ^ (8 * n) := Nat.pow_le_pow_right Nat.two_pos fits
    rw [Nat.pow_mul] at bound
    exact Nat.lt_of_lt_of_le word.isLt bound
  unfold read write
  rw [List.take_left' (length_toBytes n word.toNat), ofBytes_toBytes small, BitVec.ofNat_toNat,
    BitVec.setWidth_eq]

/-! ## Bit fields -/

section Fields

variable {F : Type}

/-- The word with the named fields of a layout, each cut to its width. -/
def pack : List (F × Nat) → (F → Nat) → Nat
  | [], _ => 0
  | (name, width) :: layout, values =>
    values name % 2 ^ width + 2 ^ width * pack layout values

/-- The field of a word; a name that is not in the layout reads as 0. -/
def field [DecidableEq F] : List (F × Nat) → F → Nat → Nat
  | [], _, _ => 0
  | (other, width) :: layout, name, word =>
    if other = name then word % 2 ^ width else field layout name (word / 2 ^ width)

theorem pack_lt (layout : List (F × Nat)) (values : F → Nat) :
    pack layout values < 2 ^ (layout.map Prod.snd).sum := by
  induction layout with
  | nil => exact Nat.one_pos
  | cons head layout ih =>
    have low : values head.1 % 2 ^ head.2 < 2 ^ head.2 :=
      Nat.mod_lt _ (Nat.two_pow_pos head.2)
    rw [List.map_cons, List.sum_cons, Nat.pow_add]
    calc values head.1 % 2 ^ head.2 + 2 ^ head.2 * pack layout values
        < 2 ^ head.2 + 2 ^ head.2 * pack layout values := Nat.add_lt_add_right low _
      _ = 2 ^ head.2 * (pack layout values + 1) := by rw [Nat.mul_add, Nat.mul_one, Nat.add_comm]
      _ ≤ 2 ^ head.2 * 2 ^ (layout.map Prod.snd).sum :=
          Nat.mul_le_mul_left _ ih

/-- A field of the word is what was packed for it, cut to its width. -/
theorem field_pack [DecidableEq F] {layout : List (F × Nat)} {values : F → Nat} {name : F} {width : Nat}
    (distinct : (layout.map Prod.fst).Nodup) (listed : (name, width) ∈ layout) :
    field layout name (pack layout values) = values name % 2 ^ width := by
  induction layout with
  | nil => cases listed
  | cons head layout ih =>
    obtain ⟨fresh, rest⟩ := List.nodup_cons.mp distinct
    have positive := Nat.two_pow_pos head.2
    have low : values head.1 % 2 ^ head.2 < 2 ^ head.2 := Nat.mod_lt _ positive
    rcases List.mem_cons.mp listed with rfl | later
    · rw [field, if_pos rfl, pack, Nat.add_mul_mod_self_left, Nat.mod_mod]
    · have other : head.1 ≠ name := fun same =>
        fresh (same ▸ List.mem_map_of_mem (f := Prod.fst) later)
      have behind : pack (head :: layout) values / 2 ^ head.2 = pack layout values := by
        rw [pack, Nat.add_mul_div_left _ _ positive, Nat.div_eq_of_lt low, Nat.zero_add]
      rw [field, if_neg other, behind, ih rest later]

end Fields

end Sm8650.Data.Words
