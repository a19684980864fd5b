import Mathlib.Data.Set.Insert

/-!
# Exclusion by keys

Holders take keys, at most one holder a key, and an exclusive holder is alone. The record
that is consulted on admission is the set of the taken keys and one flag, never the holders
themselves; it may claim more than the holders do, so a holder may be forgotten.
-/

namespace Sm8650.Transition

open Function

universe u v

/-- Which keys are held, and what is recorded of them. -/
structure Exclusion (η : Type u) (κ : Type v) where
  held : η → Option (κ × Bool)
  taken : Set κ
  exclusive : Bool

namespace Exclusion

variable {η : Type u} {κ : Type v} {room : Exclusion η κ} {holder : η} {key : κ}
  {alone : Bool}

/-- The record covers the holders: no key is held twice, every key that is held is taken,
and an exclusive holder has the flag set and no other key beside its own. -/
structure Valid (room : Exclusion η κ) : Prop where
  distinct : ∀ ⦃first second key alone alone'⦄, room.held first = some (key, alone) →
    room.held second = some (key, alone') → first = second
  covered : ∀ ⦃holder key alone⦄, room.held holder = some (key, alone) → key ∈ room.taken
  sole : ∀ ⦃holder key⦄, room.held holder = some (key, true) →
    room.exclusive = true ∧ ∀ other ∈ room.taken, other = key

theorem valid_of_unheld (unheld : ∀ holder, room.held holder = none) : room.Valid where
  distinct first _ _ _ _ held := by
    rw [unheld first] at held
    cases held
  covered holder _ _ held := by
    rw [unheld holder] at held
    cases held
  sole holder _ held := by
    rw [unheld holder] at held
    cases held

/-- An exclusive holder is the only one. -/
theorem Valid.only (valid : room.Valid) (held : room.held holder = some (key, true)) {other : η}
    {key' : κ} {alone : Bool} (heldOther : room.held other = some (key', alone)) :
    other = holder := by
  obtain rfl := (valid.sole held).2 key' (valid.covered heldOther)
  exact valid.distinct heldOther held

variable [DecidableEq η]

/-- A new holder, recorded with its key. -/
def enroll (room : Exclusion η κ) (holder : η) (key : κ) (alone : Bool) : Exclusion η κ where
  held := update room.held holder (some (key, alone))
  taken := insert key room.taken
  exclusive := room.exclusive || alone

/-- The key of a holder is passed on to another one. -/
def handOver (room : Exclusion η κ) (holder next : η) : Exclusion η κ :=
  { room with
    held := update (update room.held holder none) next (room.held holder) }

/-- A holder leaves without a trace in the record. -/
def forget (room : Exclusion η κ) (holder : η) : Exclusion η κ :=
  { room with held := update room.held holder none }

/-- The record of a holder is taken back. -/
def settle (room : Exclusion η κ) (key : κ) (alone : Bool) : Exclusion η κ :=
  { room with
    taken := room.taken \ {key}
    exclusive := if alone then false else room.exclusive }

theorem forget_held (room : Exclusion η κ) {other : η} {entry : κ × Bool}
    (held : (room.forget holder).held other = some entry) :
    other ≠ holder ∧ room.held other = some entry := by
  by_cases same : other = holder
  · subst same
    simp [forget] at held
  · simp only [forget, update_of_ne same] at held
    exact ⟨same, held⟩

/-- A key that is not taken may be given out while the flag is clear, and exclusively if no
key is taken at all. -/
theorem Valid.enroll (valid : room.Valid) (free : key ∉ room.taken)
    (allowed : if alone then room.taken = ∅ else room.exclusive = false) :
    (room.enroll holder key alone).Valid where
  distinct := by
    have fresh : ∀ other entry, other ≠ holder → room.held other = some (key, entry) → False :=
      fun other entry _ held => free (valid.covered held)
    intro first second key' alone₁ alone₂ heldFirst heldSecond
    simp only [Exclusion.enroll, update_apply] at heldFirst heldSecond
    by_cases isFirst : first = holder
    · by_cases isSecond : second = holder
      · exact isFirst.trans isSecond.symm
      · rw [if_pos isFirst, Option.some.injEq, Prod.mk.injEq] at heldFirst
        rw [if_neg isSecond, ← heldFirst.1] at heldSecond
        exact (fresh second alone₂ isSecond heldSecond).elim
    · rw [if_neg isFirst] at heldFirst
      by_cases isSecond : second = holder
      · rw [if_pos isSecond, Option.some.injEq, Prod.mk.injEq] at heldSecond
        rw [← heldSecond.1] at heldFirst
        exact (fresh first alone₁ isFirst heldFirst).elim
      · rw [if_neg isSecond] at heldSecond
        exact valid.distinct heldFirst heldSecond
  covered := by
    intro other key' alone' held
    simp only [Exclusion.enroll, update_apply] at held ⊢
    by_cases same : other = holder
    · rw [if_pos same, Option.some.injEq, Prod.mk.injEq] at held
      exact held.1 ▸ Set.mem_insert _ _
    · rw [if_neg same] at held
      exact Set.mem_insert_of_mem _ (valid.covered held)
  sole := by
    intro other key' held
    simp only [Exclusion.enroll, update_apply] at held ⊢
    by_cases same : other = holder
    · rw [if_pos same] at held
      obtain ⟨rfl, rfl⟩ := held
      rw [allowed]
      exact ⟨Bool.or_true _, by simp⟩
    · rw [if_neg same] at held
      cases alone with
      | true => exact (Set.eq_empty_iff_forall_notMem.mp allowed key' (valid.covered held)).elim
      | false => exact (Bool.false_ne_true (allowed.symm.trans (valid.sole held).1)).elim

theorem Valid.forget (valid : room.Valid) : (room.forget holder).Valid where
  distinct := by
    intro first second key alone alone' heldFirst heldSecond
    exact valid.distinct (forget_held room heldFirst).2 (forget_held room heldSecond).2
  covered := by
    intro other key alone held
    exact valid.covered (forget_held room held).2
  sole := by
    intro other key held
    exact valid.sole (forget_held room held).2

theorem Valid.handOver (valid : room.Valid) {next : η} : (room.handOver holder next).Valid := by
  -- The old holder of an entry of the new room.
  have origin : ∀ ⦃other entry⦄, (room.handOver holder next).held other = some entry →
      ∃ old, room.held old = some entry ∧ other = if old = holder then next else old := by
    intro other entry held
    simp only [Exclusion.handOver, update_apply] at held
    by_cases isNext : other = next
    · rw [if_pos isNext] at held
      exact ⟨holder, held, by rw [if_pos rfl, isNext]⟩
    · rw [if_neg isNext] at held
      by_cases isHolder : other = holder
      · rw [if_pos isHolder] at held
        cases held
      · rw [if_neg isHolder] at held
        exact ⟨other, held, by rw [if_neg isHolder]⟩
  constructor
  · intro first second key alone alone' heldFirst heldSecond
    obtain ⟨oldFirst, before, rfl⟩ := origin heldFirst
    obtain ⟨oldSecond, before', rfl⟩ := origin heldSecond
    rw [valid.distinct before before']
  · intro other key alone held
    obtain ⟨old, before, _⟩ := origin held
    exact valid.covered before
  · intro other key held
    obtain ⟨old, before, _⟩ := origin held
    exact valid.sole before

/-- The record of a holder may be taken back once it has left. -/
theorem Valid.settle (valid : room.Valid) (held : room.held holder = some (key, alone)) :
    ((room.forget holder).settle key alone).Valid := by
  have others : ∀ ⦃other key' alone'⦄, (room.forget holder).held other = some (key', alone') →
      room.held other = some (key', alone') ∧ key' ≠ key := by
    intro other key' alone' heldOther
    obtain ⟨apart, before⟩ := forget_held room heldOther
    refine ⟨before, ?_⟩
    rintro rfl
    exact apart (valid.distinct before held)
  constructor
  · intro first second key' alone₁ alone₂ heldFirst heldSecond
    exact valid.distinct (others heldFirst).1 (others heldSecond).1
  · intro other key' alone' heldOther
    obtain ⟨before, apart⟩ := others heldOther
    exact ⟨valid.covered before, apart⟩
  · intro other key' heldOther
    obtain ⟨before, apart⟩ := others heldOther
    exact (apart ((valid.sole before).2 key (valid.covered held)).symm).elim

end Exclusion

end Sm8650.Transition
