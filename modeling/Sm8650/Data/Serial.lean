import Mathlib.Data.BitVec

/-!
# Serial numbers

Counters that wrap around are ordered by their difference: a value is at or after
another when the difference is at most half of the range. The relation is no order on
all values, but it is one on every window shorter than half of the range, where it is
the order of the distances from the start of the window.
-/

namespace Sm8650.Data.Serial

open BitVec

variable {w : Nat}

/-- Half of the range of a counter of `w` bits. -/
def half (w : Nat) : Nat :=
  2 ^ (w - 1)

/-- `first` is at or after `second`. -/
def gte (first second : BitVec w) : Bool :=
  decide ((first - second).toNat ≤ half w)

/-- `value` lies in the window of half the range that starts at `base`. -/
def Within (base value : BitVec w) : Prop :=
  (value - base).toNat < half w

instance (base value : BitVec w) : Decidable (Within base value) :=
  inferInstanceAs (Decidable (_ < _))

theorem gte_self (value : BitVec w) : gte value value = true := by
  simp [gte]

/-- The difference of two values is the difference of their distances. -/
theorem toNat_sub_eq (base first second : BitVec w) :
    (first - second).toNat = (2 ^ w - (second - base).toNat + (first - base).toNat) % 2 ^ w := by
  have shifted : first - second = (first - base) - (second - base) := by
    rw [BitVec.sub_eq_add_neg, BitVec.sub_eq_add_neg, BitVec.sub_eq_add_neg,
      BitVec.sub_eq_add_neg, neg_add, BitVec.sub_eq_add_neg, neg_neg]
    rw [BitVec.add_comm (-second) base, add_assoc first, ← add_assoc (-base),
      BitVec.add_comm (-base) base, ← BitVec.sub_eq_add_neg base, BitVec.sub_self,
      BitVec.zero_add]
  rw [shifted, toNat_sub]

/-- In a window the relation is the order of the distances from its start. -/
theorem gte_iff {base first second : BitVec w} (firstWithin : Within base first)
    (secondWithin : Within base second) :
    gte first second = true ↔ (second - base).toNat ≤ (first - base).toNat := by
  rw [gte, decide_eq_true_eq, toNat_sub_eq base]
  unfold Within half at firstWithin secondWithin
  unfold half
  generalize (first - base).toNat = x at *
  generalize (second - base).toNat = y at *
  cases w with
  | zero => simp at firstWithin secondWithin ⊢; omega
  | succ w =>
    rw [Nat.add_sub_cancel] at *
    rw [Nat.pow_succ]
    rcases Nat.lt_or_ge x y with before | after
    · rw [Nat.mod_eq_of_lt (by omega)]
      omega
    · rw [show 2 ^ w * 2 - y + x = x - y + 2 ^ w * 2 by omega, Nat.add_mod_right,
        Nat.mod_eq_of_lt (by omega)]
      omega

/-- The distance between two numbers that are cut off at the width of the counter. -/
theorem toNat_ofNat_sub_ofNat {base value : Nat} (after : base ≤ value)
    (near : value < base + 2 ^ w) :
    (BitVec.ofNat w value - BitVec.ofNat w base).toNat = value - base := by
  obtain ⟨distance, rfl⟩ := Nat.exists_eq_add_of_le after
  rw [ofNat_add, BitVec.add_comm, add_sub_cancel, toNat_ofNat,
    Nat.mod_eq_of_lt (by omega), Nat.add_sub_cancel_left]

theorem half_le (w : Nat) : half w ≤ 2 ^ w :=
  Nat.pow_le_pow_right (by decide) (Nat.sub_le w 1)

/-- Cut off at the width of the counter, the numbers of a window are in their own order. -/
theorem gte_ofNat {base first second : Nat} (firstAfter : base ≤ first)
    (firstNear : first < base + half w) (secondAfter : base ≤ second)
    (secondNear : second < base + half w) :
    gte (BitVec.ofNat w first) (BitVec.ofNat w second) = decide (second ≤ first) := by
  have range := half_le w
  have distance : ∀ value, base ≤ value → value < base + half w →
      (BitVec.ofNat w value - BitVec.ofNat w base).toNat = value - base :=
    fun value after near => toNat_ofNat_sub_ofNat after (by omega)
  have within : ∀ value, base ≤ value → value < base + half w →
      Within (BitVec.ofNat w base) (BitVec.ofNat w value) := by
    intro value after near
    rw [Within, distance value after near]
    omega
  rw [Bool.eq_iff_iff, decide_eq_true_eq,
    gte_iff (within first firstAfter firstNear) (within second secondAfter secondNear),
    distance first firstAfter firstNear, distance second secondAfter secondNear]
  omega

theorem gte_trans {base first second third : BitVec w} (firstWithin : Within base first)
    (secondWithin : Within base second) (thirdWithin : Within base third)
    (later : gte first second = true) (earlier : gte second third = true) :
    gte first third = true := by
  rw [gte_iff firstWithin secondWithin] at later
  rw [gte_iff secondWithin thirdWithin] at earlier
  rw [gte_iff firstWithin thirdWithin]
  exact Nat.le_trans earlier later

/-- Two values of a window are comparable. -/
theorem gte_of_not_gte {base first second : BitVec w} (firstWithin : Within base first)
    (secondWithin : Within base second) (earlier : ¬ gte first second = true) :
    gte second first = true := by
  rw [gte_iff firstWithin secondWithin] at earlier
  rw [gte_iff secondWithin firstWithin]
  omega

/-- The relation between neighbours that a sequence in order has. -/
def InOrder (earlier later : BitVec w) : Prop :=
  gte later earlier = true

/-- A value goes between the values it is at or after and the ones it is not, and the
sequence stays in order. -/
theorem pairwise_insert {base value : BitVec w} {before after : List (BitVec w)}
    (within : ∀ other ∈ value :: (before ++ after), Within base other)
    (ordered : (before ++ after).Pairwise InOrder)
    (atOrAfter : ∀ other ∈ before, gte value other = true)
    (stops : ∀ next ∈ after.head?, ¬ gte value next = true) :
    (before ++ value :: after).Pairwise InOrder := by
  have valueWithin := within value List.mem_cons_self
  rw [List.pairwise_append] at ordered ⊢
  obtain ⟨orderedBefore, orderedAfter, across⟩ := ordered
  have valueFirst : ∀ other ∈ after, InOrder value other := by
    cases after with
    | nil => simp
    | cons next after =>
      have nextWithin := within next (by simp)
      have nextLater : InOrder value next :=
        gte_of_not_gte valueWithin nextWithin (stops next rfl)
      intro other otherMem
      rcases List.mem_cons.1 otherMem with rfl | deeper
      · exact nextLater
      · have otherWithin := within other (by simp [deeper])
        exact gte_trans otherWithin nextWithin valueWithin
          (List.rel_of_pairwise_cons orderedAfter deeper) nextLater
  refine ⟨orderedBefore, List.pairwise_cons.2 ⟨valueFirst, orderedAfter⟩, ?_⟩
  intro earlier earlierMem later laterMem
  rcases List.mem_cons.1 laterMem with rfl | deeper
  · exact atOrAfter earlier earlierMem
  · exact across earlier earlierMem later deeper

end Sm8650.Data.Serial
