import Mathlib.Data.Nat.ModEq
import Mathlib.Tactic.Ring
import Mathlib.Tactic.Linarith

/-!
# Linear probe sequences

The slots of a table of `size` entries visited from `start`, one step at a
time and wrapping at the end. The first `size` steps visit every slot exactly
once, which is all that a search by linear probing relies on.
-/

namespace Sm8650.Probe

/-- The slot visited at `step` by a linear probe from `start`. -/
def slot (size start step : Nat) : Nat :=
  (start + step) % size

theorem slot_lt {size : Nat} (positive : 0 < size) (start step : Nat) :
    slot size start step < size :=
  Nat.mod_lt _ positive

/-- One more step is one slot further, modulo the table size. -/
theorem slot_succ (size start step : Nat) :
    slot size start (step + 1) = (slot size start step + 1) % size := by
  simp [slot, Nat.add_assoc]

/-- Every slot is visited within the first `size` steps. -/
theorem exists_slot_eq {size index : Nat} (start : Nat) (bound : index < size) :
    ∃ step < size, slot size start step = index := by
  have positive : 0 < size := by omega
  refine ⟨(index + (size - start % size)) % size, Nat.mod_lt _ positive, ?_⟩
  have startLt : start % size < size := Nat.mod_lt _ positive
  have sum_eq : start % size + (index + (size - start % size)) = index + size := by omega
  calc
    slot size start ((index + (size - start % size)) % size)
        = (start % size + (index + (size - start % size))) % size := by
          simp [slot]
    _ = index := by rw [sum_eq, Nat.add_mod_right, Nat.mod_eq_of_lt bound]

/-- The first `size` steps visit pairwise distinct slots. -/
theorem slot_ne_of_lt {size start first second : Nat} (before : first < second)
    (bound : second < size) : slot size start first ≠ slot size start second := by
  intro same
  have congruent : start + first ≡ start + second [MOD size] := same
  have cancelled : first ≡ second [MOD size] := Nat.ModEq.add_left_cancel' start congruent
  have equal : first = second :=
    Nat.ModEq.eq_of_lt_of_lt cancelled (before.trans bound) bound
  omega

/-- `step` is the first of the steps below `size` at which `hit` holds. -/
def IsFirst (hit : Nat → Prop) (size step : Nat) : Prop :=
  step < size ∧ hit step ∧ ∀ earlier < step, ¬ hit earlier

theorem IsFirst.le_of_hit {hit : Nat → Prop} {size step other : Nat}
    (first : IsFirst hit size step) (hitOther : hit other) : step ≤ other := by
  by_contra later
  exact first.2.2 other (by omega) hitOther

/-- A search over finitely many steps either has a first hit or no hit. -/
theorem exists_isFirst_or_none (hit : Nat → Prop) (size : Nat) :
    (∃ step, IsFirst hit size step) ∨ ∀ step < size, ¬ hit step := by
  classical
  by_cases some_hit : ∃ step, step < size ∧ hit step
  · left
    have spec := Nat.find_spec some_hit
    refine ⟨Nat.find some_hit, spec.1, spec.2, ?_⟩
    intro earlier before hitEarlier
    have bound : earlier < size := before.trans spec.1
    exact Nat.find_min some_hit before ⟨bound, hitEarlier⟩
  · right
    intro step bound hitStep
    exact some_hit ⟨step, bound, hitStep⟩

end Sm8650.Probe
