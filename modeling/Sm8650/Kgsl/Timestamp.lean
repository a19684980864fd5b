import Mathlib.Data.BitVec

/-!
# Timestamps of the GPU

A timestamp is the value of an unbounded counter modulo `2 ^ 32`. The comparison uses
machine words only, and yet two timestamps whose counters are less than half of the range
apart are ordered as their counters are.

Source: `kgsl.h`.
-/

namespace Sm8650.Kgsl

/-- `KGSL_TIMESTAMP_WINDOW` -/
def kgslTimestampWindow : BitVec 32 := 0x80000000

/-- `timestamp_cmp` -/
def timestampCmp (a b : BitVec 32) : Int :=
  if a = b then 0
  else if b < a ∧ a - b < kgslTimestampWindow then 1
  else
    let a := a + kgslTimestampWindow
    let b := b + kgslTimestampWindow
    if b < a ∧ a - b ≤ kgslTimestampWindow then 1 else -1

/-- The timestamp of a counter. -/
def ofCounter (counter : Int) : BitVec 32 :=
  BitVec.ofInt 32 counter

/-- Two counters are less than half of the range apart. -/
def Near (first second : Int) : Prop :=
  -(2 ^ 31 : Int) < first - second ∧ first - second < 2 ^ 31

instance (first second : Int) : Decidable (Near first second) :=
  inferInstanceAs (Decidable (_ ∧ _))

variable {first second : Int}

theorem Near.symm (near : Near first second) : Near second first := by
  obtain ⟨low, high⟩ := near
  constructor <;> omega

theorem near_self (counter : Int) : Near counter counter := by
  constructor <;> omega

theorem ofCounter_toNat (counter : Int) : ((ofCounter counter).toNat : Int) = counter % 2 ^ 32 := by
  rw [ofCounter, BitVec.toNat_ofInt, Int.toNat_of_nonneg]
  · rfl
  · exact Int.emod_nonneg _ (by decide)

/-- The comparison, on numbers. -/
theorem timestampCmp_eq (a b : BitVec 32) :
    timestampCmp a b = if a.toNat = b.toNat then 0
      else if b.toNat < a.toNat then (if a.toNat - b.toNat < 2 ^ 31 then 1 else -1)
      else if b.toNat - a.toNat < 2 ^ 31 then -1 else 1 := by
  unfold timestampCmp kgslTimestampWindow
  split_ifs <;> bv_omega

/-- Near counters are compared by their timestamps. -/
theorem timestampCmp_ofCounter (near : Near first second) :
    timestampCmp (ofCounter first) (ofCounter second) = (first - second).sign := by
  obtain ⟨low, high⟩ := near
  have firstWord := ofCounter_toNat first
  have secondWord := ofCounter_toNat second
  rw [timestampCmp_eq]
  split_ifs
  · rw [show first - second = 0 by omega, Int.sign_zero]
  · rw [Int.sign_eq_one_of_pos (by omega)]
  · rw [Int.sign_eq_neg_one_of_neg (by omega)]
  · rw [Int.sign_eq_neg_one_of_neg (by omega)]
  · rw [Int.sign_eq_one_of_pos (by omega)]

theorem timestampCmp_le_zero_iff (near : Near first second) :
    timestampCmp (ofCounter first) (ofCounter second) ≤ 0 ↔ first ≤ second := by
  rw [timestampCmp_ofCounter near]
  have sign := @Int.sign_nonpos_iff (first - second)
  omega

/-- The counter behind `timestamp` that is nearest to `counter`. -/
def nearest (counter : Int) (timestamp : BitVec 32) : Int :=
  counter + (timestamp - ofCounter counter).toInt

theorem ofCounter_nearest (counter : Int) (timestamp : BitVec 32) :
    ofCounter (nearest counter timestamp) = timestamp := by
  rw [nearest, ofCounter, BitVec.ofInt_add, BitVec.ofInt_toInt, ofCounter, BitVec.add_comm,
    BitVec.sub_add_cancel]

end Sm8650.Kgsl
