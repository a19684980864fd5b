import Sm8650.Rmnet.Deaggregated
import Sm8650.Transition.Owned

/-!
# The pool of descriptors

The pool of a port as a pool of cells: a descriptor that is taken was in the pool or
was not allocated yet, and is cleared.
-/

namespace Sm8650.Rmnet

open Transition Function List

section Port

variable {port after : Port} {id : Nat}

theorem rmnetGetFragDescriptor_dataFormat {result : Option Nat}
    (got : port.rmnetGetFragDescriptor = (result, after)) : after.dataFormat = port.dataFormat := by
  unfold Port.rmnetGetFragDescriptor at got
  rcases free : port.freeList with _ | ⟨first, freeList⟩
  · rw [free] at got
    by_cases granted : port.allocs port.requests = true
    · simp only [if_pos granted] at got
      cases got
      rfl
    · simp only [if_neg granted] at got
      cases got
      rfl
  · rw [free] at got
    cases got
    rfl

section

variable (wellFormed : port.WellFormed)

include wellFormed

/-- Nothing is taken if the pool is empty and memory is not granted. -/
theorem Port.WellFormed.get_none (got : port.rmnetGetFragDescriptor = (none, after)) :
    after.WellFormed ∧ (∀ other, FromPool after other ↔ FromPool port other) ∧
      after.descs = port.descs := by
  unfold Port.rmnetGetFragDescriptor at got
  rcases free : port.freeList with _ | ⟨first, freeList⟩
  · rw [free] at got
    by_cases granted : port.allocs port.requests = true
    · simp only [if_pos granted] at got
      cases got
    · simp only [if_neg granted] at got
      cases got
      have nodup := free ▸ wellFormed.nodup
      exact ⟨⟨nodup, by simp, by simp⟩, fun other => by simp [FromPool, free], rfl⟩
  · rw [free] at got
    cases got

/-- A descriptor is taken from the front of the pool, or allocated. -/
theorem Port.WellFormed.get_some (got : port.rmnetGetFragDescriptor = (some id, after)) :
    after.WellFormed ∧ FromPool port id ∧
      (∀ other, FromPool after other ↔ FromPool port other ∧ other ≠ id) ∧
      after.descs id = .zero ∧
      ∀ other, ¬ FromPool port other → after.descs other = port.descs other := by
  unfold Port.rmnetGetFragDescriptor at got
  rcases free : port.freeList with _ | ⟨first, freeList⟩
  · rw [free] at got
    by_cases granted : port.allocs port.requests = true
    · simp only [if_pos granted] at got
      obtain ⟨same, rfl⟩ := Prod.mk.inj got
      cases same
      refine ⟨⟨?_, ?_, ?_⟩, .inr (Nat.le_refl _), fun other => ?_, update_self _ _ _,
        fun other notFree => ?_⟩
      · exact wellFormed.nodup
      · intro other member
        exact Nat.lt_succ_of_lt (wellFormed.inPool other member)
      · intro other member
        have listed : other ∈ port.freeList := member
        rw [free] at listed
        cases listed
      · simp only [FromPool, Port.setDesc, free, not_mem_nil, false_or]
        omega
      · exact update_of_ne (fun same => notFree (.inr (Nat.le_of_eq same.symm))) _ _
    · simp only [if_neg granted] at got
      cases got
  · rw [free] at got
    cases got
    have nodup := wellFormed.nodup
    rw [free, nodup_cons] at nodup
    have inside := wellFormed.inPool id (by rw [free]; exact mem_cons_self)
    refine ⟨⟨nodup.2, ?_, ?_⟩, .inl (by rw [free]; exact mem_cons_self), fun other => ?_,
      wellFormed.clear id (by rw [free]; exact mem_cons_self), fun _ _ => rfl⟩
    · intro other member
      exact wellFormed.inPool other (by rw [free]; exact mem_cons_of_mem _ member)
    · intro other member
      exact wellFormed.clear other (by rw [free]; exact mem_cons_of_mem _ member)
    · simp only [FromPool, free, mem_cons]
      constructor
      · rintro (listed | beyond)
        · refine ⟨.inl (.inr listed), ?_⟩
          rintro rfl
          exact nodup.1 listed
        · refine ⟨.inr beyond, ?_⟩
          rintro rfl
          exact Nat.not_le_of_lt inside beyond
      · rintro ⟨(same | listed) | beyond, different⟩
        · exact absurd same different
        · exact .inl listed
        · exact .inr beyond

/-- A descriptor that is put back is free and cleared. -/
theorem Port.WellFormed.recycle (notFree : ¬ FromPool port id) :
    (port.rmnetRecycleFragDescriptor id).WellFormed ∧
      (∀ other, FromPool (port.rmnetRecycleFragDescriptor id) other ↔
        FromPool port other ∨ other = id) ∧
      ∀ other, other ≠ id →
        (port.rmnetRecycleFragDescriptor id).descs other = port.descs other := by
  obtain ⟨notListed, inside⟩ := not_or.mp notFree
  refine ⟨⟨?_, ?_, ?_⟩, fun other => ?_, fun other different =>
    update_of_ne different _ _⟩
  · refine nodup_append.mpr ⟨wellFormed.nodup, nodup_singleton _, ?_⟩
    intro other listed last isLast
    rw [mem_singleton.mp isLast]
    exact ne_of_mem_of_not_mem listed notListed
  · intro other member
    rcases mem_append.mp member with listed | last
    · exact wellFormed.inPool other listed
    · rw [mem_singleton.mp last]
      exact Nat.lt_of_not_le inside
  · intro other member
    rcases mem_append.mp member with listed | last
    · have different := ne_of_mem_of_not_mem listed notListed
      exact (update_of_ne different _ _).trans (wellFormed.clear other listed)
    · rw [mem_singleton.mp last]
      exact update_self _ _ _
  · simp only [FromPool, Port.rmnetRecycleFragDescriptor, mem_append, mem_singleton]
    constructor
    · rintro ((listed | same) | beyond)
      · exact .inl (.inl listed)
      · exact .inr same
      · exact .inl (.inr beyond)
    · rintro ((listed | beyond) | same)
      · exact .inl (.inl listed)
      · exact .inr beyond
      · exact .inl (.inr same)

/-- A descriptor in use may be written. -/
theorem Port.WellFormed.of_written (notFree : ¬ FromPool port id)
    (freeList : after.freeList = port.freeList) (poolSize : after.poolSize = port.poolSize)
    (others : ∀ other, other ≠ id → after.descs other = port.descs other) : after.WellFormed := by
  refine ⟨by rw [freeList]; exact wellFormed.nodup, ?_, ?_⟩
  · intro other member
    rw [freeList] at member
    rw [poolSize]
    exact wellFormed.inPool other member
  · intro other member
    rw [freeList] at member
    have different : other ≠ id := fun same => notFree (.inl (same ▸ member))
    rw [others other different]
    exact wellFormed.clear other member

end

end Port

/-- The pool of a port. -/
def portPool : CellPool Port FragDescriptor where
  get port granted := { port with allocs := fun _ => granted }.rmnetGetFragDescriptor
  put := Port.rmnetRecycleFragDescriptor
  read port id := port.descs id
  write := Port.setDesc

theorem lawful_portPool : portPool.Lawful .zero Port.WellFormed FromPool where
  get_none {port granted after} wellFormed got := by
    have asked : Port.WellFormed { port with allocs := fun _ => granted } :=
      ⟨wellFormed.nodup, wellFormed.inPool, wellFormed.clear⟩
    obtain ⟨stillWellFormed, free, descs⟩ := asked.get_none got
    exact ⟨stillWellFormed, free, fun id _ => congrFun descs id⟩
  get_some {port granted id after} wellFormed got := by
    have asked : Port.WellFormed { port with allocs := fun _ => granted } :=
      ⟨wellFormed.nodup, wellFormed.inPool, wellFormed.clear⟩
    exact asked.get_some got
  put {port id} wellFormed notFree := by
    obtain ⟨stillWellFormed, free, others⟩ := wellFormed.recycle notFree
    exact ⟨stillWellFormed, free, fun other _ different => others other different⟩
  write {port id desc} wellFormed notFree := by
    have others : ∀ other, other ≠ id → (port.setDesc id desc).descs other = port.descs other :=
      fun other different => update_of_ne different _ _
    exact ⟨wellFormed.of_written notFree rfl rfl others, fun _ => Iff.rfl,
      update_self _ _ _, others⟩

end Sm8650.Rmnet
