import Mathlib.Data.List.Basic

/-!
# Sets of small numbers in a machine word

A word whose bit `i` says whether `i` is in the set, as C code keeps small enumerations.
The members are added by shifting a one into place.
-/

namespace Sm8650.Data.FlagSet

open BitVec

variable {w : Nat}

/-- The set with the one member `i`. -/
def single (w i : Nat) : BitVec w := 1#w <<< i

/-- Adding a member. -/
def insert (flags : BitVec w) (i : Nat) : BitVec w := flags ||| single w i

/-- Membership, as the mask of the one member tests it. -/
def mem (flags : BitVec w) (i : Nat) : Bool := flags &&& single w i != 0#w

/-- Adding the members of a list, first to last. -/
def insertAll (flags : BitVec w) (members : List Nat) : BitVec w := members.foldl insert flags

@[simp]
theorem getLsbD_single (i j : Nat) : (single w i).getLsbD j = decide (j < w ∧ i = j) := by
  rw [single, getLsbD_shiftLeft, getLsbD_one, Bool.eq_iff_iff]
  simp only [Bool.and_eq_true, decide_eq_true_eq, Bool.not_eq_true', decide_eq_false_iff_not]
  omega

@[simp]
theorem getLsbD_insert (flags : BitVec w) (i j : Nat) :
    (insert flags i).getLsbD j = (flags.getLsbD j || decide (j < w ∧ i = j)) := by
  rw [insert, getLsbD_or, getLsbD_single]

@[simp]
theorem getLsbD_insertAll (flags : BitVec w) (members : List Nat) (j : Nat) :
    (insertAll flags members).getLsbD j = (flags.getLsbD j || decide (j < w ∧ j ∈ members)) := by
  induction members generalizing flags with
  | nil => simp [insertAll]
  | cons i members ih =>
    have rest : insertAll flags (i :: members) = insertAll (insert flags i) members := rfl
    rw [rest, ih, getLsbD_insert, Bool.eq_iff_iff]
    simp only [Bool.or_eq_true, decide_eq_true_eq, List.mem_cons]
    constructor
    · rintro ((old | ⟨inside, rfl⟩) | ⟨inside, member⟩)
      · exact .inl old
      · exact .inr ⟨inside, .inl rfl⟩
      · exact .inr ⟨inside, .inr member⟩
    · rintro (old | ⟨inside, rfl | member⟩)
      · exact .inl (.inl old)
      · exact .inl (.inr ⟨inside, rfl⟩)
      · exact .inr ⟨inside, member⟩

/-- The mask test reads the bit. -/
@[simp]
theorem mem_eq_getLsbD (flags : BitVec w) (i : Nat) : mem flags i = flags.getLsbD i := by
  rw [mem, Bool.eq_iff_iff, bne_iff_ne]
  constructor
  · intro nonempty
    by_contra out
    refine nonempty (eq_of_getLsbD_eq fun j _ => ?_)
    rw [getLsbD_and, getLsbD_single, getLsbD_zero, Bool.and_eq_false_iff]
    by_cases same : i = j
    · exact .inl (same ▸ Bool.eq_false_iff.mpr out)
    · exact .inr (decide_eq_false fun both => same both.2)
  · intro member empty
    have bit := congrArg (getLsbD · i) empty
    simp only [getLsbD_and, getLsbD_single, getLsbD_zero, member, and_true,
      Bool.true_and, decide_eq_false_iff_not] at bit
    exact bit (lt_of_getLsbD member)

/-- A set is the list of its members, picked from any list of candidates that covers it. -/
theorem insertAll_filter {α : Type} {code : α → Nat} {flags : BitVec w} {candidates : List α}
    (covered : ∀ i, flags.getLsbD i = true → ∃ a ∈ candidates, code a = i) :
    insertAll 0#w ((candidates.filter fun a => mem flags (code a)).map code) = flags := by
  apply eq_of_getLsbD_eq
  intro j inside
  rw [getLsbD_insertAll, getLsbD_zero, Bool.false_or, Bool.eq_iff_iff, decide_eq_true_eq,
    List.mem_map]
  constructor
  · rintro ⟨_, a, picked, rfl⟩
    rw [← mem_eq_getLsbD]
    exact (List.mem_filter.mp picked).2
  · intro member
    obtain ⟨a, candidate, rfl⟩ := covered j member
    exact ⟨inside, a, List.mem_filter.mpr ⟨candidate, (mem_eq_getLsbD flags _).trans member⟩, rfl⟩

theorem insertAll_ne_zero {members : List Nat} {i : Nat} (member : i ∈ members) (inside : i < w)
    (flags : BitVec w) : insertAll flags members ≠ 0#w := by
  intro empty
  have bit := getLsbD_insertAll flags members i
  rw [empty, getLsbD_zero, decide_eq_true (And.intro inside member), Bool.or_true] at bit
  exact Bool.false_ne_true bit

end Sm8650.Data.FlagSet
