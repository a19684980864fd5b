import Mathlib.Data.Nat.ModEq

/-!
# One's-complement sums

Addition of words of `w` bits with end-around carry. It is addition modulo `2 ^ w - 1` on
representatives of which 0 has two, and a single fold of the carry is enough for two words.
-/

namespace Sm8650.Data.OnesComplement

variable {w : Nat}

/-- Adds the carry out of the low `w` bits back in, once. -/
def fold (w sum : Nat) : Nat := if 2 ^ w ≤ sum then sum - 2 ^ w + 1 else sum

/-- Addition with end-around carry. -/
def add (w a b : Nat) : Nat := fold w (a + b)

/-- The sum of words that are added to a first one. -/
def sumFrom (w first : Nat) (words : List Nat) : Nat := words.foldl (add w) first

theorem fold_modEq (w sum : Nat) : fold w sum ≡ sum [MOD 2 ^ w - 1] := by
  unfold fold
  by_cases carry : 2 ^ w ≤ sum
  · rw [if_pos carry]
    have positive := Nat.two_pow_pos w
    have added : sum - 2 ^ w + 1 + (2 ^ w - 1) ≡ sum - 2 ^ w + 1 [MOD 2 ^ w - 1] :=
      Nat.add_mod_right _ _
    rw [show sum - 2 ^ w + 1 + (2 ^ w - 1) = sum by omega] at added
    exact added.symm
  · rw [if_neg carry]

theorem add_modEq (w a b : Nat) : add w a b ≡ a + b [MOD 2 ^ w - 1] := fold_modEq w (a + b)

/-- Two words sum to less than twice the range, and one fold brings that back to a word. -/
theorem add_lt {a b : Nat} (left : a < 2 ^ w) (right : b < 2 ^ w) : add w a b < 2 ^ w := by
  unfold add fold
  by_cases carry : 2 ^ w ≤ a + b
  · rw [if_pos carry]
    omega
  · rw [if_neg carry]
    omega

theorem sumFrom_modEq (w first : Nat) (words : List Nat) :
    sumFrom w first words ≡ first + words.sum [MOD 2 ^ w - 1] := by
  induction words generalizing first with
  | nil => exact Nat.ModEq.refl first
  | cons word words ih =>
    have step : add w first word + words.sum ≡ first + word + words.sum [MOD 2 ^ w - 1] :=
      (add_modEq w first word).add_right _
    rw [List.sum_cons, ← Nat.add_assoc]
    exact (ih (add w first word)).trans step

theorem sumFrom_lt {first : Nat} {words : List Nat} (start : first < 2 ^ w)
    (small : ∀ word ∈ words, word < 2 ^ w) : sumFrom w first words < 2 ^ w := by
  induction words generalizing first with
  | nil => exact start
  | cons word words ih =>
    obtain ⟨head, rest⟩ := List.forall_mem_cons.mp small
    exact ih (add_lt start head) rest

end Sm8650.Data.OnesComplement
