import Mathlib.Tactic.IntervalCases
import Sm8650.IpaNat.Table

/-!
# Sizing the SRAM table in 16 bits

`ipa_calc_num_sram_table_entries` counts up until a table no longer fits. The count and the power
of two are `uint16_t`, so the size of a table falls again beyond 32768 entries, and a memory that
has room for that table has room for every table.

Source: `ipa_table.c`.
-/

namespace Sm8650.IpaNat

/-- The loop of `Get2PowerTightUpperBound`, with its 16-bit shift. -/
def get2PowerLoopU16 : Nat → Nat → Nat → Nat → Nat × Nat
  | 0, _, prev, curr => (prev, curr)
  | rounds + 1, tmp, prev, curr =>
    if tmp = 1 then (prev, curr)
    else get2PowerLoopU16 rounds (tmp / 2) curr (2 * curr % 2 ^ 16)

/-- `Get2PowerTightUpperBound` on every `uint16_t`. -/
def get2PowerTightUpperBoundU16 (num : Nat) : Nat :=
  if num = 0 then 2
  else
    let bounds := get2PowerLoopU16 16 num 0 2
    if num = bounds.1 then bounds.1 else bounds.2

/-- The bytes of a table of rules and of its index table, for a count of 16 bits. -/
def sramTableSizeU16 (tot : Nat) : Nat :=
  (32 + 4) * (get2PowerTightUpperBoundU16 tot + getEvenTightUpperBound (tot * 43 / 100))

/-- The loop of `ipa_calc_num_sram_table_entries`, if it ends within the given rounds. -/
def sramSearch (sramSize : Nat) : Nat → Nat → Nat → Option Nat
  | 0, _, _ => none
  | rounds + 1, tot, numEntries =>
    if sramSize < sramTableSizeU16 tot then some numEntries
    else sramSearch sramSize rounds ((tot + 1) % 2 ^ 16) tot

/-- The search ends, and a result other than 0, which is its failure, is the largest count up to
which all tables fit. -/
def SizesSram (sramSize : Nat) : Prop :=
  ∃ rounds numEntries, sramSearch sramSize rounds 1 0 = some numEntries ∧
    (numEntries ≠ 0 → ∀ count, count ≤ numEntries ↔
      ∀ tot, 1 ≤ tot → tot ≤ count → sramTableSizeU16 tot ≤ sramSize)

/-- The size of the largest table, that of 32768 entries. -/
def largestSramTableSize : Nat := 1686888

/-! ## The size of a table -/

/-- A number of `k + 1` bits takes `k` rounds. -/
theorem get2PowerLoopU16_eq (k : Nat) {rounds tmp : Nat} (prev curr : Nat) (enough : k < rounds)
    (low : 2 ^ k ≤ tmp) (high : tmp < 2 ^ (k + 1)) (word : curr < 2 ^ 16) :
    get2PowerLoopU16 rounds tmp prev curr =
      (if k = 0 then prev else 2 ^ (k - 1) * curr % 2 ^ 16, 2 ^ k * curr % 2 ^ 16) := by
  induction k generalizing rounds tmp prev curr with
  | zero =>
    obtain ⟨rounds, rfl⟩ := Nat.exists_eq_add_of_lt enough
    have isOne : tmp = 1 := by omega
    rw [get2PowerLoopU16, if_pos isOne, Nat.pow_zero, Nat.one_mul, Nat.mod_eq_of_lt word]
    rfl
  | succ k ih =>
    obtain ⟨rounds, rfl⟩ := Nat.exists_eq_add_of_lt enough
    have notOne : tmp ≠ 1 := by omega
    rw [get2PowerLoopU16, if_neg notOne,
      ih curr (2 * curr % 2 ^ 16) (by omega) (by omega) (by omega) (Nat.mod_lt _ (by decide)),
      Nat.mul_mod_mod, Nat.mul_mod_mod, ← Nat.mul_assoc, ← Nat.mul_assoc, ← Nat.pow_succ,
      ← Nat.pow_succ, if_neg (Nat.succ_ne_zero k), Nat.succ_sub_one]
    cases k with
    | zero => rw [if_pos rfl, Nat.pow_zero, Nat.one_mul, Nat.mod_eq_of_lt word]
    | succ k => rw [if_neg (Nat.succ_ne_zero k), Nat.succ_sub_one]

theorem get2PowerTightUpperBoundU16_le {num : Nat} (word : num < 2 ^ 16) :
    get2PowerTightUpperBoundU16 num ≤ 2 ^ 15 ∧
      (2 ^ 15 < num → get2PowerTightUpperBoundU16 num = 0) := by
  unfold get2PowerTightUpperBoundU16
  by_cases zero : num = 0
  · simp [zero]
  have low := Nat.log2_self_le zero
  have high := @Nat.lt_log2_self num
  have few : num.log2 < 16 := (Nat.log2_lt zero).mpr word
  rw [if_neg zero, get2PowerLoopU16_eq num.log2 0 2 few low high (by decide)]
  generalize num.log2 = k at low high few
  interval_cases k <;> norm_num at low high ⊢ <;> split <;> omega

theorem getEvenTightUpperBound_le {num bound : Nat} (within : num ≤ 2 * bound)
    (positive : 0 < bound) : getEvenTightUpperBound num ≤ 2 * bound := by
  unfold getEvenTightUpperBound
  split
  · omega
  · split <;> omega

theorem sramTableSizeU16_le {tot : Nat} (word : tot < 2 ^ 16) :
    sramTableSizeU16 tot ≤ largestSramTableSize := by
  obtain ⟨base, wrapped⟩ := get2PowerTightUpperBoundU16_le word
  unfold sramTableSizeU16 largestSramTableSize
  by_cases large : 2 ^ 15 < tot
  · have expn := @getEvenTightUpperBound_le (tot * 43 / 100) 14090 (by omega) (by decide)
    omega
  · have expn := @getEvenTightUpperBound_le (tot * 43 / 100) 7045 (by omega) (by decide)
    omega

/-! ## The search -/

/-- A memory that has room for the largest table keeps the search going. -/
theorem sramSearch_eq_none {sramSize : Nat} (roomy : largestSramTableSize ≤ sramSize)
    (rounds : Nat) {tot : Nat} (numEntries : Nat) (word : tot < 2 ^ 16) :
    sramSearch sramSize rounds tot numEntries = none := by
  induction rounds generalizing tot numEntries with
  | zero => rfl
  | succ rounds ih =>
    have fits := Nat.le_trans (sramTableSizeU16_le word) roomy
    rw [sramSearch, if_neg (Nat.not_lt.mpr fits)]
    exact ih tot (Nat.mod_lt _ (by decide))

/-- Otherwise it stops at the first count that is too large. -/
theorem sramSearch_first {sramSize : Nat} (small : sramSize < largestSramTableSize) (rest tot : Nat)
    (reaches : tot + rest = 2 ^ 15) (positive : 0 < tot)
    (fits : ∀ other, 1 ≤ other → other < tot → sramTableSizeU16 other ≤ sramSize) :
    ∃ numEntries, sramSearch sramSize (rest + 1) tot (tot - 1) = some numEntries ∧
      (∀ other, 1 ≤ other → other ≤ numEntries → sramTableSizeU16 other ≤ sramSize) ∧
        sramSize < sramTableSizeU16 (numEntries + 1) := by
  induction rest generalizing tot with
  | zero =>
    have large : sramSize < sramTableSizeU16 tot := by
      obtain rfl : tot = 2 ^ 15 := reaches
      exact small
    refine ⟨tot - 1, ?_, fun other isCount below => fits other isCount (by omega), ?_⟩
    · rw [sramSearch, if_pos large]
    · rwa [Nat.sub_add_cancel positive]
  | succ rest ih =>
    by_cases large : sramSize < sramTableSizeU16 tot
    · refine ⟨tot - 1, ?_, fun other isCount below => fits other isCount (by omega), ?_⟩
      · rw [sramSearch, if_pos large]
      · rwa [Nat.sub_add_cancel positive]
    · have next := ih (tot + 1) (by omega) (Nat.succ_pos tot) fun other isCount below => by
        rcases Nat.lt_succ_iff_lt_or_eq.mp below with before | rfl
        · exact fits other isCount before
        · exact Nat.not_lt.mp large
      rw [sramSearch, if_neg large, Nat.mod_eq_of_lt (by omega)]
      exact next

/-- The search does what it should exactly if the largest table is too large for the memory. -/
theorem sizesSram_iff (sramSize : Nat) : SizesSram sramSize ↔ sramSize < largestSramTableSize := by
  constructor
  · rintro ⟨rounds, numEntries, found, -⟩
    by_contra roomy
    rw [sramSearch_eq_none (Nat.not_lt.mp roomy) rounds 0 (by decide)] at found
    cases found
  · intro small
    obtain ⟨numEntries, found, fit, large⟩ := sramSearch_first small 32767 1 rfl Nat.one_pos
      fun other isCount below => absurd isCount (Nat.not_le.mpr below)
    refine ⟨32768, numEntries, found, fun _ count => ⟨fun most tot isCount below =>
      fit tot isCount (Nat.le_trans below most), fun all => ?_⟩⟩
    by_contra more
    exact Nat.not_le.mpr large (all _ (Nat.succ_pos _) (Nat.not_le.mp more))

theorem not_sizesSram : ¬∀ sramSize < 2 ^ 32, SizesSram sramSize := by
  intro sizes
  obtain ⟨rounds, numEntries, found, -⟩ := sizes 2000000 (by decide)
  rw [sramSearch_eq_none (by decide) rounds 0 (by decide)] at found
  cases found

end Sm8650.IpaNat
