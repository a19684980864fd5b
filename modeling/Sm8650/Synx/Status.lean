import Sm8650.Synx.Composite

/-!
# The status of composites

A signal travels up the graph with the status of the leaf. A composite that is signaled
records whether one of its children failed; it hands on the status of the leaf, not its
own, so the composites above it only learn of a failure when the last leaf below it
failed or no leaf did.
-/

namespace Sm8650.Synx

open Transition List Table

/-- Failures of the children while updates with `status` are on their way. -/
structure Errors (world : World) (work : List Nat) (status : Nat) : Prop where
  up : ∀ parent, ∀ child ∈ world.children parent, (world.table child).pending = false →
    IsError (world.table child).status →
      IsError (world.table parent).status ∨ parent ∈ work ∧ IsError status
  down : ∀ parent, world.children parent ≠ [] → IsError (world.table parent).status →
    ∃ child ∈ world.children parent, IsError (world.table child).status
  cause : ∀ parent ∈ work, IsError status →
    ∃ child ∈ world.children parent, IsError (world.table child).status

variable {world : World} {status : Nat}

theorem Errors.nil (errors : Errors world [] status) (other : Nat) : Errors world [] other where
  up := by
    intro parent child member done error
    rcases errors.up parent child member done error with recorded | ⟨queued, -⟩
    · exact .inl recorded
    · simp at queued
  down := errors.down
  cause := by simp

/-- A composite that records a failure has a leaf below it that failed. -/
theorem Errors.exists_leaf {work : List Nat} (errors : Errors world work status)
    (wired : Wired world) (parent : Nat) (composite : world.children parent ≠ [])
    (error : IsError (world.table parent).status) :
    ∃ leaf, LeafBelow world.children parent leaf ∧ IsError (world.table leaf).status := by
  induction parent using wired.induction with
  | step parent ih =>
    obtain ⟨child, member, failed⟩ := errors.down parent composite error
    by_cases last : world.children child = []
    · exact ⟨child, .child member last, failed⟩
    · obtain ⟨leaf, below, error⟩ := ih child member last failed
      exact ⟨leaf, .through member below, error⟩

/-- The status of a composite is that of the leaves below it: it is active while one of
them is unsignaled, and otherwise an error exactly if one of them was signaled with an
error. -/
def CompositeStatus (world : World) (parent : Nat) : Prop :=
  (getStatus world.table parent = active ↔
      ∃ leaf, LeafBelow world.children parent leaf ∧ (world.table leaf).status = active) ∧
    (getStatus world.table parent ≠ active →
      (IsError (getStatus world.table parent) ↔
        ∃ leaf, LeafBelow world.children parent leaf ∧ IsError (world.table leaf).status))

/-- A failed leaf is recorded by every signaled composite above it. -/
theorem Errors.recorded (errors : Errors world [] status) (counted : Counted world [])
    {parent leaf : Nat} (below : LeafBelow world.children parent leaf)
    (done : (world.table parent).numChild = 0) (error : IsError (world.table leaf).status)
    : IsError (world.table parent).status := by
  have upward : ∀ {child parent : Nat}, child ∈ world.children parent →
      (world.table parent).numChild = 0 → IsError (world.table child).status →
        IsError (world.table parent).status := by
    intro child parent member done error
    have settled := counted.children_done (ne_nil_of_mem member) done child member
    rcases errors.up parent child member settled error with recorded | ⟨queued, -⟩
    · exact recorded
    · simp at queued
  induction below with
  | child member last => exact upward member done error
  | through member rest ih =>
    have settled := counted.children_done (ne_nil_of_mem member) done _ member
    refine upward member done (ih ?_ error)
    by_contra waits
    rw [(Coredata.pending_iff _).mpr (.inr waits)] at settled
    exact Bool.noConfusion settled

theorem compositeStatus_of_invariants (wired : Wired world) (counted : Counted world [])
    (errors : Errors world [] status) {parent : Nat} (composite : world.children parent ≠ [])
    : CompositeStatus world parent := by
  have done_of : (world.table parent).pending = false → (world.table parent).numChild = 0 := by
    intro settled
    by_contra waits
    rw [(Coredata.pending_iff _).mpr (.inr waits)] at settled
    exact Bool.noConfusion settled
  constructor
  · rw [getStatus_eq_active_iff]
    constructor
    · exact counted.exists_pending_leaf wired parent composite
    · rintro ⟨leaf, below, unsignaled⟩
      by_contra settled
      exact counted.leaves_done below (done_of (by simpa using settled)) unsignaled
  · rw [Ne, getStatus_eq_active_iff, Bool.not_eq_true]
    intro settled
    rw [getStatus_of_not_pending settled]
    constructor
    · exact errors.exists_leaf wired parent composite
    · rintro ⟨leaf, below, error⟩
      exact errors.recorded counted below (done_of settled) error

/-! ## A signal on its way up -/

/-- A signal of `leaf` in `start` has got to `world`, with the updates in `work` left. -/
structure Cascade (start : World) (leaf status : Nat) (world : World) (work : List Nat) :
    Prop where
  children : world.children = start.children
  wired : Wired world
  counted : Counted world work
  errors : Errors world work status
  signaled : (world.table leaf).status = status
  others : ∀ idx, world.children idx = [] → idx ≠ leaf →
    (world.table idx).status = (start.table idx).status
  below : ∀ parent ∈ work, LeafBelow world.children parent leaf

/-- The failures below a composite are not hidden by the last leaf: where a leaf is
signaled without an error, no composite that this signals and that is itself a child has
a failed leaf below it. -/
def ErrorsLast (world : World) (leaf status : Nat) : Prop :=
  ¬ IsError status → ∀ composite parent, composite ∈ world.children parent →
    LeafBelow world.children composite leaf →
    (∀ other, LeafBelow world.children composite other → other ≠ leaf →
      (world.table other).status ≠ active) →
    ∀ other, LeafBelow world.children composite other → ¬ IsError (world.table other).status

namespace Cascade

variable {start world : World} {leaf status idx : Nat} {work : List Nat} {obj : Coredata}

section

variable (cascade : Cascade start leaf status world (idx :: work))

include cascade

theorem composite : world.children idx ≠ [] :=
  cascade.counted.composite idx (mem_cons_self ..)

/-- An update that signals a composite finds its children signaled. -/
theorem leaves_done
    (told : ChildSignaled (world.table idx) status obj) (last : obj.numChild = 0) {other : Nat}
    (below : LeafBelow world.children idx other) : (world.table other).status ≠ active := by
  have settled : ∀ child ∈ world.children idx, (world.table child).pending = false := by
    have count := cascade.counted.numChild idx cascade.composite
    have less := told.numChild
    rw [count_cons_self] at count
    rw [← pendingCount_eq_zero]
    omega
  intro unsignaled
  cases below with
  | child member _ =>
    have done := settled other member
    rw [Coredata.pending_of_status unsignaled] at done
    exact Bool.noConfusion done
  | through member rest =>
    have done := settled _ member
    refine cascade.counted.leaves_done rest ?_ unsignaled
    by_contra waits
    rw [(Coredata.pending_iff _).mpr (.inr waits)] at done
    exact Bool.noConfusion done

section

variable (errorsLast : ErrorsLast start leaf status)

include errorsLast

/-- A composite that hands its parents on records a failure only if the signal is one. -/
theorem isError_status (told : ChildSignaled (world.table idx) status obj) (last : obj.numChild = 0)
    {parent : Nat} (member : idx ∈ world.children parent) (error : IsError obj.status) :
    IsError status := by
  by_contra success
  have recorded : IsError (world.table idx).status := by
    rcases told.isError.mp error with recorded | failed
    · exact recorded
    · exact absurd failed success
  obtain ⟨other, below, failed⟩ :=
    cascade.errors.exists_leaf cascade.wired idx cascade.composite recorded
  have different : other ≠ leaf := by
    rintro rfl
    exact success (cascade.signaled ▸ failed)
  have children := cascade.children
  refine errorsLast success idx parent (children ▸ member)
    (children ▸ cascade.below idx (mem_cons_self ..)) ?_ other (children ▸ below) ?_
  · intro another belowAnother differs
    rw [← children] at belowAnother
    rw [← cascade.others another belowAnother.isLeaf differs]
    exact cascade.leaves_done told last belowAnother
  · rw [← cascade.others other below.isLeaf different]
    exact failed

/-- An update keeps track of the failures. -/
theorem errors_update (told : ChildSignaled (world.table idx) status obj) :
    Errors { world with table := world.table.set idx obj }
      ((if obj.numChild = 0 then (world.table idx).parentList else []) ++ work) status := by
  have irreflexive := cascade.wired.not_mem_children idx
  have kept : ∀ child, IsError (world.table child).status →
      IsError ((world.table.set idx obj) child).status := by
    intro child error
    by_cases equal : child = idx
    · subst equal
      rw [set_self]
      exact told.isError.mpr (.inl error)
    · rwa [set_of_ne _ _ equal]
  refine ⟨?_, ?_, ?_⟩
  · intro parent child member done error
    by_cases sameParent : parent = idx
    · subst sameParent
      have different : child ≠ parent := by
        rintro rfl
        exact irreflexive member
      simp only [set_of_ne _ _ different] at done error
      simp only [set_self]
      left
      rcases cascade.errors.up parent child member done error with recorded | ⟨-, failed⟩
      · exact told.isError.mpr (.inl recorded)
      · exact told.isError.mpr (.inr failed)
    · simp only [set_of_ne _ _ sameParent]
      by_cases sameChild : child = idx
      · subst sameChild
        simp only [set_self] at done error
        have last : obj.numChild = 0 := by
          by_contra waits
          rw [(Coredata.pending_iff _).mpr (.inr waits)] at done
          exact Bool.noConfusion done
        have failed := cascade.isError_status errorsLast told last member error
        have named : parent ∈ (world.table child).parentList := by
          rw [← count_pos_iff]
          have slots := cascade.wired.slots child parent
          unfold Coredata.slotCount at slots
          rw [slots]
          exact count_pos_iff.mpr member
        exact .inr ⟨by simp [last, named], failed⟩
      · simp only [set_of_ne _ _ sameChild] at done error
        rcases cascade.errors.up parent child member done error with recorded | ⟨queued, failed⟩
        · exact .inl recorded
        · rcases mem_cons.mp queued with equal | queued
          · exact absurd equal sameParent
          · exact .inr ⟨mem_append_right _ queued, failed⟩
  · intro parent composite error
    by_cases sameParent : parent = idx
    · subst sameParent
      simp only [set_self] at error
      have caused : ∃ child ∈ world.children parent, IsError (world.table child).status := by
        rcases told.isError.mp error with recorded | failed
        · exact cascade.errors.down parent composite recorded
        · exact cascade.errors.cause parent (mem_cons_self ..) failed
      obtain ⟨child, member, error⟩ := caused
      exact ⟨child, member, kept child error⟩
    · simp only [set_of_ne _ _ sameParent] at error
      obtain ⟨child, member, error⟩ := cascade.errors.down parent composite error
      exact ⟨child, member, kept child error⟩
  · intro parent queued failed
    rcases mem_append.mp queued with named | queued
    · split at named
      · refine ⟨idx, cascade.wired.mem_children named, ?_⟩
        simp only [set_self]
        exact told.isError.mpr (.inr failed)
      · simp at named
    · obtain ⟨child, member, error⟩ :=
        cascade.errors.cause parent (mem_cons_of_mem _ queued) failed
      exact ⟨child, member, kept child error⟩

/-- One update of a signal on its way up. -/
theorem update (signal : active < status) :
    Cascade start leaf status
      { world with table := (updateSection world.table idx status).table }
      ((updateSection world.table idx status).parents ++ work) := by
  have waits := cascade.counted.numChild_ne_zero
  have held := cascade.wired.heldTwice idx waits
  obtain ⟨obj, table, told, parents, -⟩ := updateSection_composite status waits held
  rw [table, parents]
  have isLeaf : ∀ {other}, world.children other = [] → other ≠ idx := by
    rintro other last rfl
    exact cascade.composite last
  have differs : leaf ≠ idx := isLeaf (cascade.below idx (mem_cons_self ..)).isLeaf
  refine ⟨cascade.children, cascade.wired.update cascade.counted signal told,
    cascade.counted.update cascade.wired signal told, cascade.errors_update errorsLast told,
    ?_, ?_, ?_⟩
  · simpa [set_of_ne _ _ differs] using cascade.signaled
  · intro other last different
    simpa [set_of_ne _ _ (isLeaf last)] using cascade.others other last different
  · intro parent queued
    rcases mem_append.mp queued with named | queued
    · split at named
      · exact .through (cascade.wired.mem_children named) (cascade.below idx (mem_cons_self ..))
      · simp at named
    · exact cascade.below parent (mem_cons_of_mem _ queued)

end

end

end Cascade

end Sm8650.Synx
