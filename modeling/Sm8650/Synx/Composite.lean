import Sm8650.Synx.Sections
import Sm8650.Transition.Reach

/-!
# Graphs of composites

The children of every merge are kept beside the table. Between calls, a composite waits
for as many children as are reported unsignaled; while a signal travels up the graph, it
also waits for the updates still on their way.
-/

namespace Sm8650.Synx

open Transition List Table Coredata

/-- The table, and the list each composite was merged from. -/
structure World where
  table : Table
  children : Nat → List Nat

/-- The leaves below a composite. -/
inductive LeafBelow (children : Nat → List Nat) : Nat → Nat → Prop
  | child {parent leaf : Nat} (member : leaf ∈ children parent) (last : children leaf = []) :
      LeafBelow children parent leaf
  | through {parent child leaf : Nat} (member : child ∈ children parent)
      (rest : LeafBelow children child leaf) : LeafBelow children parent leaf

theorem LeafBelow.isLeaf {children : Nat → List Nat} {parent leaf : Nat}
    (below : LeafBelow children parent leaf) : children leaf = [] := by
  induction below with
  | child _ last => exact last
  | through _ _ ih => exact ih

/-- The number of children of a list that are reported unsignaled. -/
def pendingCount (table : Table) (list : List Nat) : Nat :=
  list.countP fun child => (table child).pending

/-- How the objects refer to each other: the graph is acyclic, objects name their
composites in their slots, and references are held. -/
structure Wired (world : World) : Prop where
  acyclic : ∃ rank : Nat → Nat, ∀ parent, ∀ child ∈ world.children parent, rank child < rank parent
  child_exists : ∀ parent, ∀ child ∈ world.children parent, (world.table child).status ≠ 0
  parent_exists : ∀ parent, world.children parent ≠ [] → (world.table parent).status ≠ 0
  bounded : ∀ idx, (world.table idx).status ≠ 0 → idx ≠ 0 ∧ idx < maxObjs
  slots : ∀ child parent, (world.table child).slotCount parent = (world.children parent).count child
  held : ∀ idx, (world.table idx).status ≠ 0 → 1 ≤ (world.table idx).refcount
  heldTwice : ∀ idx, (world.table idx).numChild ≠ 0 → 2 ≤ (world.table idx).refcount
  leaf : ∀ idx, world.children idx = [] → (world.table idx).numChild = 0

/-- What the composites wait for while the updates in `work` are on their way. -/
structure Counted (world : World) (work : List Nat) : Prop where
  numChild : ∀ parent, world.children parent ≠ [] →
    (world.table parent).numChild =
      pendingCount world.table (world.children parent) + work.count parent
  done : ∀ parent, world.children parent ≠ [] → (world.table parent).numChild = 0 →
    (world.table parent).status ≠ active
  composite : ∀ parent ∈ work, world.children parent ≠ []

/-! ## Pending children -/

variable {obj : Coredata}

theorem pendingCount_set_of_eq {table : Table} {idx : Nat}
    (same : obj.pending = (table idx).pending) (list : List Nat) :
    pendingCount (table.set idx obj) list = pendingCount table list := by
  unfold pendingCount
  congr 1
  funext child
  by_cases equal : child = idx
  · subst equal
    rw [set_self, same]
  · rw [set_of_ne _ _ equal]

/-- An object that gets signaled is waited for no longer. -/
theorem pendingCount_set_of_done {table : Table} {idx : Nat}
    (before : (table idx).pending = true) (after : obj.pending = false) (list : List Nat) :
    pendingCount (table.set idx obj) list + list.count idx = pendingCount table list := by
  unfold pendingCount
  induction list with
  | nil => rfl
  | cons child rest ih =>
    simp only [countP_cons, count_cons]
    by_cases equal : child = idx
    · subst equal
      rw [set_self, before, after]
      simp only [Bool.false_eq_true, if_false, beq_self_eq_true]
      omega
    · have different : (child == idx) = false := by simpa using equal
      rw [set_of_ne _ _ equal, different]
      simp only [Bool.false_eq_true, if_false]
      omega

theorem pendingCount_eq_zero {table : Table} {list : List Nat} :
    pendingCount table list = 0 ↔ ∀ child ∈ list, (table child).pending = false := by
  unfold pendingCount
  simp

namespace Wired

variable {world : World}

section

variable (wired : Wired world)

include wired

theorem not_mem_children (parent : Nat) : parent ∉ world.children parent := by
  obtain ⟨rank, increasing⟩ := wired.acyclic
  exact fun member => Nat.lt_irrefl _ (increasing parent parent member)

/-- A parent named by an object is a composite that was merged from it. -/
theorem mem_children {child parent : Nat}
    (member : parent ∈ (world.table child).parentList) : child ∈ world.children parent := by
  have named : 0 < (world.table child).slotCount parent := count_pos_iff.mpr member
  rw [wired.slots] at named
  exact count_pos_iff.mp named

/-- Induction along the graph. -/
theorem induction {motive : Nat → Prop}
    (step : ∀ parent, (∀ child ∈ world.children parent, motive child) → motive parent)
    (parent : Nat) : motive parent := by
  obtain ⟨rank, increasing⟩ := wired.acyclic
  generalize measure : rank parent = bound
  induction bound using Nat.strong_induction_on generalizing parent with
  | _ bound ih =>
    apply step
    intro child member
    exact ih (rank child) (measure ▸ increasing parent child member) child rfl

/-- Replacing an object by one with the same slots. -/
theorem set {idx : Nat} (parents : obj.parents = (world.table idx).parents)
    (signaled : obj.status ≠ 0) (existing : (world.table idx).status ≠ 0)
    (held : 1 ≤ obj.refcount) (heldTwice : obj.numChild ≠ 0 → 2 ≤ obj.refcount)
    (leaf : world.children idx = [] → obj.numChild = 0) :
    Wired { world with table := world.table.set idx obj } where
  acyclic := wired.acyclic
  child_exists := by
    intro parent child member
    by_cases equal : child = idx
    · subst equal
      simpa using signaled
    · simpa [set_of_ne _ _ equal] using wired.child_exists parent child member
  parent_exists := by
    intro parent composite
    by_cases equal : parent = idx
    · subst equal
      simpa using signaled
    · simpa [set_of_ne _ _ equal] using wired.parent_exists parent composite
  bounded := by
    intro other exists'
    by_cases equal : other = idx
    · subst equal
      exact wired.bounded other existing
    · exact wired.bounded other (by simpa [set_of_ne _ _ equal] using exists')
  slots := by
    intro child parent
    by_cases equal : child = idx
    · subst equal
      have old := wired.slots child parent
      unfold slotCount parentList at old ⊢
      simpa [parents] using old
    · simpa [set_of_ne _ _ equal] using wired.slots child parent
  held := by
    intro other exists'
    by_cases equal : other = idx
    · subst equal
      simpa using held
    · simpa [set_of_ne _ _ equal] using
        wired.held other (by simpa [set_of_ne _ _ equal] using exists')
  heldTwice := by
    intro other waits
    by_cases equal : other = idx
    · subst equal
      simpa using heldTwice (by simpa using waits)
    · simpa [set_of_ne _ _ equal] using
        wired.heldTwice other (by simpa [set_of_ne _ _ equal] using waits)
  leaf := by
    intro other last
    by_cases equal : other = idx
    · subst equal
      simpa using leaf last
    · simpa [set_of_ne _ _ equal] using wired.leaf other last

/-- The children lists lose an object that gets signaled as often as its slots name the
composite. -/
theorem pendingCount_finish {idx : Nat}
    (before : (world.table idx).pending = true) (after : obj.pending = false) (parent : Nat) :
    pendingCount (world.table.set idx obj) (world.children parent) +
        (world.table idx).parentList.count parent =
      pendingCount world.table (world.children parent) := by
  have slots := wired.slots idx parent
  unfold slotCount at slots
  rw [slots]
  exact pendingCount_set_of_done before after _

end

end Wired

/-! ## Updates on their way -/

namespace Counted

variable {world : World} {work : List Nat} {idx status : Nat}

/-- A composite reached by an update waits for it. -/
theorem numChild_ne_zero (counted : Counted world (idx :: work)) :
    (world.table idx).numChild ≠ 0 := by
  have count := counted.numChild idx (counted.composite idx (mem_cons_self ..))
  rw [count_cons_self] at count
  omega

/-- Where a composite is signaled, its children are. -/
theorem children_done (counted : Counted world work) {parent : Nat}
    (composite : world.children parent ≠ []) (done : (world.table parent).numChild = 0) :
    ∀ child ∈ world.children parent, (world.table child).pending = false := by
  have count := counted.numChild parent composite
  rw [← pendingCount_eq_zero]
  omega

/-- Where a composite is signaled, the leaves below it are. -/
theorem leaves_done (counted : Counted world work) {parent leaf : Nat}
    (below : LeafBelow world.children parent leaf)
    (done : (world.table parent).numChild = 0) : (world.table leaf).status ≠ active := by
  induction below with
  | child member last =>
    have settled := counted.children_done (ne_nil_of_mem member) done _ member
    intro unsignaled
    rw [pending_of_status unsignaled] at settled
    exact Bool.noConfusion settled
  | through member rest ih =>
    apply ih
    have settled := counted.children_done (ne_nil_of_mem member) done _ member
    by_contra waits
    have pending := (pending_iff _).mpr (.inr waits)
    rw [pending] at settled
    exact Bool.noConfusion settled

/-- A composite that waits for a child has an unsignaled leaf below it. -/
theorem exists_pending_leaf (counted : Counted world []) (wired : Wired world) (parent : Nat)
    (composite : world.children parent ≠ []) (pending : (world.table parent).pending = true) :
    ∃ leaf, LeafBelow world.children parent leaf ∧ (world.table leaf).status = active := by
  induction parent using wired.induction with
  | step parent ih =>
    have waits : (world.table parent).numChild ≠ 0 := by
      intro none
      rcases (pending_iff _).mp pending with unsignaled | waits
      · exact counted.done parent composite none unsignaled
      · exact waits none
    have some : pendingCount world.table (world.children parent) ≠ 0 := by
      have count := counted.numChild parent composite
      simp only [count_nil] at count
      omega
    rw [Ne, pendingCount_eq_zero] at some
    push Not at some
    obtain ⟨child, member, unsettled⟩ := some
    have unsettled : (world.table child).pending = true := by simpa using unsettled
    by_cases last : world.children child = []
    · refine ⟨child, .child member last, ?_⟩
      rcases (pending_iff _).mp unsettled with unsignaled | waits
      · exact unsignaled
      · exact absurd (wired.leaf child last) waits
    · obtain ⟨leaf, below, unsignaled⟩ := ih child member last unsettled
      exact ⟨leaf, .through member below, unsignaled⟩

/-- An object that gets signaled hands its parents on. -/
theorem finish (counted : Counted world work) (wired : Wired world)
    (last : world.children idx = []) (before : (world.table idx).pending = true)
    (after : obj.pending = false) : Counted { world with table := world.table.set idx obj }
      ((world.table idx).parentList ++ work) where
  numChild := by
    intro parent composite
    have different : parent ≠ idx := by
      rintro rfl
      exact composite last
    have count := counted.numChild parent composite
    have finished := wired.pendingCount_finish before after parent
    simp only [set_of_ne _ _ different, count_append]
    omega
  done := by
    intro parent composite
    have different : parent ≠ idx := by
      rintro rfl
      exact composite last
    simpa only [set_of_ne _ _ different] using counted.done parent composite
  composite := by
    intro parent member
    rcases mem_append.mp member with named | queued
    · exact ne_nil_of_mem (wired.mem_children named)
    · exact counted.composite parent queued

/-- An update of a composite. -/
theorem update (counted : Counted world (idx :: work)) (wired : Wired world)
    (signal : active < status) (told : ChildSignaled (world.table idx) status obj) :
    Counted { world with table := world.table.set idx obj }
      ((if obj.numChild = 0 then (world.table idx).parentList else []) ++ work) := by
  have composite := counted.composite idx (mem_cons_self ..)
  have before : (world.table idx).pending = true :=
    (pending_iff _).mpr (.inr counted.numChild_ne_zero)
  have own : pendingCount (world.table.set idx obj) (world.children idx) =
      pendingCount world.table (world.children idx) := by
    apply countP_congr
    intro child member
    rw [set_of_ne]
    rintro rfl
    exact wired.not_mem_children child member
  have ownSlots : (world.table idx).parentList.count idx = 0 :=
    (wired.slots idx idx).trans (count_eq_zero.mpr (wired.not_mem_children idx))
  have others : ∀ parent, parent ≠ idx →
      pendingCount (world.table.set idx obj) (world.children parent) +
          ((if obj.numChild = 0 then (world.table idx).parentList else []) ++ work).count parent =
        pendingCount world.table (world.children parent) + (idx :: work).count parent := by
    intro parent different
    rw [count_append, count_cons_of_ne different.symm]
    by_cases last : obj.numChild = 0
    · have after : obj.pending = false := by
        simp [pending, last, told.status_ne_active signal]
      have finished := wired.pendingCount_finish before after parent
      rw [if_pos last]
      omega
    · have after : obj.pending = (world.table idx).pending := by
        rw [before]
        exact (pending_iff _).mpr (.inr last)
      rw [if_neg last, pendingCount_set_of_eq after, count_nil]
      omega
  refine ⟨?_, ?_, ?_⟩
  · intro parent isComposite
    by_cases equal : parent = idx
    · subst equal
      have count := counted.numChild parent composite
      have less := told.numChild
      rw [count_cons_self] at count
      simp only [set_self, count_append]
      split
      · omega
      · rw [count_nil]
        omega
    · simp only [set_of_ne _ _ equal]
      rw [counted.numChild parent isComposite]
      exact (others parent equal).symm
  · intro parent isComposite none
    by_cases equal : parent = idx
    · subst equal
      simpa using told.status_ne_active signal
    · simp only [set_of_ne _ _ equal] at none ⊢
      exact counted.done parent isComposite none
  · intro parent member
    rcases mem_append.mp member with named | queued
    · split at named
      · exact ne_nil_of_mem (wired.mem_children named)
      · simp at named
    · exact counted.composite parent (mem_cons_of_mem _ queued)

end Counted

theorem Wired.update {world : World} {work : List Nat} {idx status : Nat}
    (wired : Wired world) (counted : Counted world (idx :: work)) (signal : active < status)
    (told : ChildSignaled (world.table idx) status obj) :
    Wired { world with table := world.table.set idx obj } := by
  have composite := counted.composite idx (mem_cons_self ..)
  have existing := wired.parent_exists idx composite
  have heldTwice := wired.heldTwice idx counted.numChild_ne_zero
  refine wired.set told.parents ?_ existing ?_ ?_ fun last => absurd last composite
  · rw [told.status]
    split
    · omega
    · exact existing
  · rw [told.refcount]
    split <;> omega
  · intro waits
    rw [told.refcount, if_neg waits]
    exact heldTwice

end Sm8650.Synx
