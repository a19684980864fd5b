import Sm8650.Synx.Global

/-!
# What the sections do

Each section changes one object. The lemmas say what it changes there and which parents
it hands on, so that the invariants of the table never look into the sections.
-/

namespace Sm8650.Synx

open Coredata List

/-! ## Slots -/

/-- How often an object names a parent. -/
def Coredata.slotCount (obj : Coredata) (parent : Nat) : Nat :=
  obj.parentList.count parent

/-- The number of slots without a parent. -/
def Coredata.freeSlots (obj : Coredata) : Nat :=
  (List.ofFn obj.parents).count 0

theorem Coredata.slotCount_eq (obj : Coredata) {parent : Nat} (nonzero : parent ≠ 0) :
    obj.slotCount parent = (List.ofFn obj.parents).count parent := by
  exact count_filter (by simpa using nonzero)

theorem Coredata.slotCount_zero (obj : Coredata) : obj.slotCount 0 = 0 := by
  unfold slotCount parentList
  rw [count_eq_zero]
  intro member
  simp at member

theorem Coredata.ofFn_setSlot (obj : Coredata) (slot : Fin 4) (parent : Nat) :
    List.ofFn (obj.setSlot slot parent).parents = (List.ofFn obj.parents).set slot parent := by
  apply ext_getElem
  · simp
  · intro i bound _
    simp only [List.getElem_ofFn, getElem_set, setSlot, Function.update_apply]
    by_cases same : slot.val = i
    · rw [if_pos same, if_pos (Fin.ext same.symm)]
    · rw [if_neg same, if_neg fun equal => same (congrArg Fin.val equal).symm]

variable {obj : Coredata}

/-- Writing a parent into a free slot. -/
theorem Coredata.count_setSlot {slot : Fin 4} {parent : Nat} (free : obj.parents slot = 0)
    (nonzero : parent ≠ 0) (other : Nat) :
    (List.ofFn (obj.setSlot slot parent).parents).count other + (if other = 0 then 1 else 0) =
      (List.ofFn obj.parents).count other + (if other = parent then 1 else 0) := by
  have bound : slot.val < (List.ofFn obj.parents).length := by simp
  rw [ofFn_setSlot, count_set bound]
  simp only [List.getElem_ofFn, free, beq_iff_eq]
  have present : 0 < (List.ofFn obj.parents).count 0 := by
    rw [count_pos_iff, mem_ofFn]
    exact ⟨slot, free⟩
  by_cases isZero : other = 0
  · subst isZero
    simp only [if_true, nonzero, nonzero.symm]
    omega
  · simp only [isZero, Ne.symm isZero]
    by_cases isParent : other = parent
    · simp [isParent]
    · simp [isParent, Ne.symm isParent]

theorem Coredata.findSlot_zero {slot : Fin 4} (found : obj.findSlot 0 = some slot)
    : obj.parents slot = 0 := by
  have holds := List.find?_some found
  simpa using holds

theorem Coredata.exists_findSlot_zero (free : 0 < obj.freeSlots) :
    ∃ slot, obj.findSlot 0 = some slot := by
  have member := count_pos_iff.mp free
  rw [mem_ofFn] at member
  obtain ⟨slot, zero⟩ := member
  rw [← Option.isSome_iff_exists]
  unfold findSlot
  rw [List.find?_isSome]
  exact ⟨slot, mem_finRange slot, by simpa using zero⟩

/-! ## Updates -/

theorem Coredata.pending_of_status (unsignaled : obj.status = active) : obj.pending = true := by
  simp [pending, unsignaled]

theorem Coredata.pending_iff (obj : Coredata) :
    obj.pending = true ↔ obj.status = active ∨ obj.numChild ≠ 0 := by
  simp [pending]

/-- What the section of an update leaves of a composite that waits for children. -/
structure ChildSignaled (obj : Coredata) (status : Nat) (obj' : Coredata) : Prop where
  numChild : obj'.numChild + 1 = obj.numChild
  status : obj'.status = if obj.status = active ∨ IsError status then status else obj.status
  parents : obj'.parents = obj.parents
  handle : obj'.handle = obj.handle
  refcount : obj'.refcount = if obj'.numChild = 0 then obj.refcount - 1 else obj.refcount
  waiters : obj'.waiters = if obj'.numChild = 0 then fun _ => false else obj.waiters

/-- The section of an update on a composite that holds the reference of its children and
another one. -/
theorem updateSection_composite {table : Table} {idx : Nat} (status : Nat)
    (waits : (table idx).numChild ≠ 0) (held : 2 ≤ (table idx).refcount) :
    ∃ obj', (updateSection table idx status).table = table.set idx obj' ∧
      ChildSignaled (table idx) status obj' ∧
      (updateSection table idx status).parents =
        (if obj'.numChild = 0 then (table idx).parentList else []) ∧
      (updateSection table idx status).messages =
        (if obj'.numChild = 0 then
          notify (table idx).waiters ((table idx).handle <<< 32 ||| obj'.status) status
        else []) := by
  unfold updateSection
  rw [if_pos waits]
  by_cases last : ((table idx).childSignaled status).numChild = 0
  · rw [if_pos last]
    have kept : (table idx).refcount - 1 ≠ 0 := by omega
    refine ⟨{ (table idx).childSignaled status with
      waiters := fun _ => false, refcount := (table idx).refcount - 1 }, ?_, ?_, ?_, ?_⟩
    · simp only [completed]
      rw [if_neg]
      · rfl
      · exact kept
    · constructor
      · change (table idx).numChild - 1 + 1 = (table idx).numChild
        omega
      · rfl
      · rfl
      · rfl
      · exact (if_pos last).symm
      · exact (if_pos last).symm
    · rw [if_pos last]
      rfl
    · rw [if_pos last]
      rfl
  · rw [if_neg last]
    refine ⟨(table idx).childSignaled status, rfl, ?_, by rw [if_neg last], by rw [if_neg last]⟩
    constructor
    · change (table idx).numChild - 1 + 1 = (table idx).numChild
      omega
    · rfl
    · rfl
    · rfl
    · exact (if_neg last).symm
    · exact (if_neg last).symm

/-- The section of an update on an object that waits for no child. -/
theorem updateSection_leaf {table : Table} {idx : Nat} (status : Nat)
    (leaf : (table idx).numChild = 0) :
    (updateSection table idx status).table =
        table.set idx { table idx with status, waiters := fun _ => false } ∧
      (updateSection table idx status).parents = (table idx).parentList := by
  unfold updateSection
  rw [if_neg (by simpa using leaf)]
  exact ⟨rfl, rfl⟩

variable {status : Nat}

/-- The section of an update either leaves an object waiting for more children and tells
nobody, or it signals the object and all its parents are told. -/
theorem updateSection_cases (table : Table) (idx : Nat) (signal : active < status) :
    ∃ obj', (updateSection table idx status).table = table.set idx obj' ∧
      (((table idx).pending = true ∧ obj'.pending = true ∧ obj'.parents = (table idx).parents ∧
          (updateSection table idx status).parents = []) ∨
        (obj'.pending = false ∧
          (updateSection table idx status).parents = (table idx).parentList)) := by
  by_cases waits : (table idx).numChild = 0
  · obtain ⟨updated, parents⟩ := updateSection_leaf status waits
    refine ⟨_, updated, .inr ⟨?_, parents⟩⟩
    have different : status ≠ active := by omega
    simp [Coredata.pending, waits, different]
  · have told : ((table idx).childSignaled status).status ≠ active := by
      unfold childSignaled
      simp only
      split
      · omega
      · rename_i neither
        exact fun unsignaled => neither (.inl unsignaled)
    have pending : (table idx).pending = true := (pending_iff _).mpr (.inr waits)
    unfold updateSection
    rw [if_pos waits]
    by_cases last : ((table idx).childSignaled status).numChild = 0
    · rw [if_pos last]
      refine ⟨_, rfl, .inr ⟨?_, rfl⟩⟩
      unfold completed
      simp only
      split
      · decide
      · simp [Coredata.pending, told, last]
    · rw [if_neg last]
      exact ⟨_, rfl, .inl ⟨pending, (pending_iff _).mpr (.inr last), rfl, rfl⟩⟩

theorem getStatus_eq_active_iff (table : Table) (idx : Nat) :
    getStatus table idx = active ↔ (table idx).pending = true := by
  rw [pending_iff]
  unfold getStatus
  by_cases unsignaled : (table idx).status = active
  · simp [unsignaled]
  · by_cases waits : (table idx).numChild = 0 <;> simp [unsignaled, waits]

theorem getStatus_of_not_pending {table : Table} {idx : Nat}
    (done : (table idx).pending = false) : getStatus table idx = (table idx).status := by
  have both : ¬ ((table idx).status = active ∨ (table idx).numChild ≠ 0) := by
    rw [← pending_iff]
    simp [done]
  unfold getStatus
  rw [if_pos]
  exact ⟨fun unsignaled => both (.inl unsignaled), by
    by_contra waits
    exact both (.inr waits)⟩

/-- What every section of a call keeps holds at its end, when no update is left. -/
theorem updateStatusCore_invariant (inv : Table → List Nat → Prop)
    (keeps : ∀ table idx work, inv table (idx :: work) → inv (updateSection table idx status).table ((updateSection table idx status).parents ++ work))
    {fuel : Nat} {table table' : Table} {work : List Nat} {messages : List Message}
    (holds : inv table work)
    (runs : updateStatusCore status fuel table work = some (table', messages)) : inv table' [] := by
  induction fuel generalizing table work messages with
  | zero =>
    cases work with
    | nil =>
      simp only [updateStatusCore, Option.some.injEq, Prod.mk.injEq] at runs
      rwa [runs.1] at holds
    | cons idx work => simp [updateStatusCore] at runs
  | succ fuel ih =>
    cases work with
    | nil =>
      simp only [updateStatusCore, Option.some.injEq, Prod.mk.injEq] at runs
      rwa [runs.1] at holds
    | cons idx work =>
      simp only [updateStatusCore, Option.map_eq_some_iff] at runs
      obtain ⟨⟨reached, sent⟩, rest, rfl, -⟩ := runs
      exact ih (keeps table idx work holds) rest

/-! ## Errors -/

theorem not_isError_active : ¬ IsError active := by decide

theorem ChildSignaled.isError {obj obj' : Coredata} (told : ChildSignaled obj status obj') :
    IsError obj'.status ↔ IsError obj.status ∨ IsError status := by
  rw [told.status]
  by_cases error : IsError status
  · simp [error]
  · by_cases unsignaled : obj.status = active
    · simp [unsignaled, not_isError_active]
    · simp [unsignaled, error]

theorem ChildSignaled.status_ne_active {obj obj' : Coredata} (told : ChildSignaled obj status obj')
    (signal : active < status) : obj'.status ≠ active := by
  rw [told.status]
  split
  · omega
  · rename_i neither
    exact fun unsignaled => neither (.inl unsignaled)

end Sm8650.Synx
