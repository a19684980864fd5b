import Mathlib.Algebra.Order.BigOperators.Group.Finset
import Sm8650.Synx.Merging
import Sm8650.Synx.Status

/-!
# Building and signaling graphs

Objects are created, merged into composites that have just been created, and signaled,
one call after the other.
-/

namespace Sm8650.Synx

open Transition Finset Function Table Coredata World

/-- A call. -/
inductive Event
  | create (idx handle : Nat)
  | merge (idxList : List Nat) (parent : Nat)
  | signal (idx status : Nat)

/-- A composite is merged right after it has been created, from objects that exist and
have room for it. -/
structure Mergeable (world : World) (idxList : List Nat) (parent : Nat) : Prop where
  nonempty : idxList ≠ []
  unsignaled : (world.table parent).status = active
  fresh : world.children parent = [] ∧ ∀ other, parent ∉ world.children other
  existing : ∀ child ∈ idxList, (world.table child).status ≠ 0 ∧ child ≠ parent
  room : ∀ child ∈ idxList, idxList.count child ≤ (world.table child).freeSlots

/-- The calls made one after the other: an index is created when it is not in use, and
composites are mergeable. -/
def Legal (world : World) : Event → Prop
  | .create idx _ => idx ≠ 0 ∧ idx < maxObjs ∧ (world.table idx).status = 0
  | .merge idxList parent => Mergeable world idxList parent
  | .signal _ _ => True

/-- What a call leaves. -/
def Runs (world : World) : Event → World → Prop
  | .create idx handle, world' => world' = { world with table := initCoredata world.table idx handle }
  | .merge idxList parent, world' =>
    world' = ⟨(merge world.table idxList parent).2, update world.children parent idxList⟩
  | .signal idx status, world' => ∃ fuel rc messages,
      updateStatus fuel world.table idx status = some (rc, world'.table, messages) ∧
        world'.children = world.children

/-- Before the first call. -/
def World.start : World where
  table := fun _ => cleared
  children := fun _ => []

/-- The references and the counts while the updates in `work` are on their way. -/
structure Linked (world : World) (work : List Nat) : Prop where
  wired : Wired world
  counted : Counted world work

theorem linked_start : Linked .start [] where
  wired := by
    refine ⟨⟨fun _ => 0, ?_⟩, ?_, ?_, ?_, ?_, ?_, ?_, ?_⟩
    · intro parent child member
      exact absurd member (by simp [start])
    · intro parent child member
      exact absurd member (by simp [start])
    · intro parent composite
      exact absurd rfl composite
    · intro idx existing
      exact absurd rfl existing
    · intro child parent
      rw [List.count_eq_zero.mpr]
      · rfl
      · intro member
        simp [start] at member
    · intro idx existing
      exact absurd rfl existing
    · intro idx waits
      exact absurd rfl waits
    · intro idx _
      rfl
  counted := by
    refine ⟨?_, ?_, by simp⟩
    · intro parent composite
      exact absurd rfl composite
    · intro parent composite
      exact absurd rfl composite

/-- The invariants between calls. -/
structure Settled (world : World) : Prop extends Linked world [] where
  errors : Errors world [] active

theorem settled_start : Settled .start where
  toLinked := linked_start
  errors := by
    refine ⟨?_, ?_, by simp⟩
    · intro parent child member
      exact absurd member (by simp [start])
    · intro parent composite
      exact absurd rfl composite

/-! ## Creation -/

variable {world : World}

/-- An index that is not in use is neither a composite nor a child. -/
theorem Wired.unused (wired : Wired world) {idx : Nat} (unused : (world.table idx).status = 0) :
    world.children idx = [] ∧ ∀ parent, idx ∉ world.children parent := by
  constructor
  · by_contra composite
    exact wired.parent_exists idx composite unused
  · exact fun parent member => wired.child_exists parent idx member unused

theorem Linked.create (linked : Linked world []) {idx handle : Nat}
    (legal : Legal world (.create idx handle)) : Linked { world with table :=initCoredata world.table idx handle } [] := by
  obtain ⟨nonzero, bounded, unused⟩ := legal
  obtain ⟨noChildren, noParents⟩ := linked.wired.unused unused
  obtain ⟨wired, counted⟩ := linked
  have childNe : ∀ {parent child}, child ∈ world.children parent → child ≠ idx := by
    rintro parent child member rfl
    exact noParents parent member
  have parentNe : ∀ {parent}, world.children parent ≠ [] → parent ≠ idx := by
    rintro parent composite rfl
    exact composite noChildren
  unfold initCoredata
  refine ⟨⟨wired.acyclic, ?_, ?_, ?_, ?_, ?_, ?_, ?_⟩, ⟨?_, ?_, by simp⟩⟩
  · intro parent child member
    simpa only [set_of_ne _ _ (childNe member)] using wired.child_exists parent child member
  · intro parent composite
    simpa only [set_of_ne _ _ (parentNe composite)] using wired.parent_exists parent composite
  · intro other existing
    by_cases equal : other = idx
    · subst equal
      exact ⟨nonzero, bounded⟩
    · simp only [set_of_ne _ _ equal] at existing
      exact wired.bounded other existing
  · intro child parent
    by_cases equal : child = idx
    · subst equal
      rw [List.count_eq_zero.mpr (noParents parent)]
      unfold slotCount parentList
      rw [List.count_eq_zero]
      intro member
      simp [cleared] at member
    · simpa only [set_of_ne _ _ equal] using wired.slots child parent
  · intro other existing
    by_cases equal : other = idx
    · subst equal
      simp
    · simp only [set_of_ne _ _ equal] at existing ⊢
      exact wired.held other existing
  · intro other waits
    by_cases equal : other = idx
    · subst equal
      simp [cleared] at waits
    · simp only [set_of_ne _ _ equal] at waits ⊢
      exact wired.heldTwice other waits
  · intro other last
    by_cases equal : other = idx
    · subst equal
      simp [cleared]
    · simpa only [set_of_ne _ _ equal] using wired.leaf other last
  · intro parent composite
    have same : pendingCount (world.table.set idx
        { cleared with status := active, refcount := 1, handle })
        (world.children parent) = pendingCount world.table (world.children parent) := by
      apply List.countP_congr
      intro child member
      rw [set_of_ne _ _ (childNe member)]
    simp only [set_of_ne _ _ (parentNe composite)]
    rw [counted.numChild parent composite]
    exact congrArg (· + _) same.symm
  · intro parent composite
    simpa only [set_of_ne _ _ (parentNe composite)] using counted.done parent composite

theorem Settled.create (settled : Settled world) {idx handle : Nat}
    (legal : Legal world (.create idx handle)) : Settled { world with table :=initCoredata world.table idx handle } := by
  obtain ⟨noChildren, noParents⟩ := settled.wired.unused legal.2.2
  have childNe : ∀ {parent child}, child ∈ world.children parent → child ≠ idx := by
    rintro parent child member rfl
    exact noParents parent member
  have parentNe : ∀ {parent}, world.children parent ≠ [] → parent ≠ idx := by
    rintro parent composite rfl
    exact composite noChildren
  refine ⟨settled.toLinked.create legal, ?_⟩
  unfold initCoredata
  refine ⟨?_, ?_, by simp⟩
  · intro parent child member
    simpa only [set_of_ne _ _ (childNe member),
      set_of_ne _ _ (parentNe (List.ne_nil_of_mem member))] using
      settled.errors.up parent child member
  · intro parent composite error
    simp only [set_of_ne _ _ (parentNe composite)] at error
    obtain ⟨child, member, failed⟩ := settled.errors.down parent composite error
    exact ⟨child, member, by simpa only [set_of_ne _ _ (childNe member)] using failed⟩

/-! ## Merging -/

/-- What a merge leaves: the composite is set up, and every other object at most gets it
in its slots. -/
structure MergedInto (table : Table) (list : List Nat) (parent : Nat) (table' : Table) : Prop where
  away : ∀ idx, idx ≠ parent → SameButSlots (table idx) (table' idx)
  slots : ∀ idx other, other ≠ 0 →
    (table' idx).slotCount other =
      (table idx).slotCount other + (if other = parent then list.count idx else 0)
  status : (table' parent).status = (MergeVars.start.visitAll table list).parentStatus
  numChild : (table' parent).numChild = pendingCount table list
  refcount : (table' parent).refcount =
    (table parent).refcount + (if (table' parent).numChild ≠ 0 then 1 else 0)

theorem Mergeable.merged (wired : Wired world) {list : List Nat} {parent : Nat}
    (mergeable : Mergeable world list parent) :
    (merge world.table list parent).1 = 0 ∧
      MergedInto world.table list parent (merge world.table list parent).2 := by
  have existing : (world.table parent).status ≠ 0 := by
    rw [mergeable.unsignaled]
    decide
  obtain ⟨nonzero, bounded⟩ := wired.bounded parent existing
  have noChild : (world.table parent).numChild = 0 := wired.leaf parent mergeable.fresh.1
  obtain ⟨table', eq, published⟩ := merge_eq (by simpa [validIdx] using bounded) nonzero
    mergeable.nonempty
    (fun child member => by
      simpa [validIdx] using (wired.bounded child (mergeable.existing child member).1).2)
    mergeable.room
  rw [eq]
  refine ⟨rfl, ?_⟩
  change MergedInto world.table list parent
    (mergeFinish table' parent (MergeVars.start.visitAll world.table list))
  refine ⟨?_, ?_, ?_, ?_, ?_⟩
  · intro idx different
    rw [mergeFinish_of_ne _ _ different]
    exact published.same idx
  · intro idx other otherNonzero
    rw [← published.slots idx other otherNonzero]
    by_cases equal : idx = parent
    · subst equal
      rw [mergeFinish_self]
      rfl
    · rw [mergeFinish_of_ne _ _ equal]
  · rw [mergeFinish_self]
  · rw [mergeFinish_self]
    rw [(published.same parent).numChild, noChild, MergeVars.visitAll_numChild]
    simp [MergeVars.start, pendingCount]
  · rw [mergeFinish_self]
    rw [(published.same parent).refcount]
    split <;> rfl

namespace MergedInto

variable {world : World} {list : List Nat} {parent : Nat} {table' : Table}

theorem pendingCount_eq (merged : MergedInto world.table list parent table') {others : List Nat}
    (absent : parent ∉ others) : pendingCount table' others = pendingCount world.table others := by
  apply List.countP_congr
  intro child member
  rw [(merged.away child _).pending]
  rintro rfl
  exact absent member

/-- The graph stays acyclic because the composite was no child. -/
theorem acyclic (wired : Wired world) (mergeable : Mergeable world list parent) :
    ∃ rank : Nat → Nat, ∀ other, ∀ child ∈ update world.children parent list other,
      rank child < rank other := by
  obtain ⟨rank, increasing⟩ := wired.acyclic
  refine ⟨update rank parent ((list.map rank).sum + 1), ?_⟩
  intro other child member
  by_cases equal : other = parent
  · subst equal
    rw [update_self] at member ⊢
    rw [update_of_ne (mergeable.existing child member).2]
    have le := List.single_le_sum (fun _ _ => Nat.zero_le _) _ (List.mem_map_of_mem (f := rank) member)
    omega
  · rw [update_of_ne equal] at member ⊢
    have different : child ≠ parent := by
      rintro rfl
      exact mergeable.fresh.2 other member
    rw [update_of_ne different]
    exact increasing other child member

section

variable (merged : MergedInto world.table list parent table')

include merged

theorem wired (wired : Wired world) (mergeable : Mergeable world list parent) :
    Wired ⟨table', update world.children parent list⟩ := by
  have existingParent : (world.table parent).status ≠ 0 := by
    rw [mergeable.unsignaled]
    decide
  have statusParent : (table' parent).status ≠ 0 := by
    rw [merged.status]
    exact MergeVars.visitAll_ne_zero (by decide) fun child member =>
      (mergeable.existing child member).1
  have statusOther : ∀ {idx}, idx ≠ parent →
      (table' idx).status = (world.table idx).status := fun different =>
    (merged.away _ different).status
  have childNe : ∀ {other child}, child ∈ world.children other → child ≠ parent := by
    rintro other child member rfl
    exact mergeable.fresh.2 other member
  refine ⟨MergedInto.acyclic wired mergeable, ?_, ?_, ?_, ?_, ?_, ?_, ?_⟩
  · intro other child member
    by_cases equal : other = parent
    · subst equal
      simp only [update_self] at member
      obtain ⟨existing, different⟩ := mergeable.existing child member
      simpa only [statusOther different] using existing
    · simp only [update_of_ne equal] at member
      simpa only [statusOther (childNe member)] using wired.child_exists other child member
  · intro other composite
    by_cases equal : other = parent
    · subst equal
      exact statusParent
    · simp only [update_of_ne equal] at composite
      simpa only [statusOther equal] using wired.parent_exists other composite
  · intro idx existing
    by_cases equal : idx = parent
    · subst equal
      exact wired.bounded idx existingParent
    · simp only [statusOther equal] at existing
      exact wired.bounded idx existing
  · intro child other
    by_cases zero : other = 0
    · subst zero
      have notParent : (0 : Nat) ≠ parent := (wired.bounded parent existingParent).1.symm
      have old := wired.slots child 0
      rw [slotCount_zero] at old ⊢
      simpa only [update_of_ne notParent] using old
    · simp only [merged.slots child other zero, wired.slots child other]
      by_cases equal : other = parent
      · subst equal
        simp [mergeable.fresh.1]
      · simp [equal]
  · intro idx existing
    by_cases equal : idx = parent
    · subst equal
      have held := wired.held idx existingParent
      simp only [merged.refcount]
      omega
    · simp only [statusOther equal] at existing
      simp only [(merged.away idx equal).refcount]
      exact wired.held idx existing
  · intro idx waits
    by_cases equal : idx = parent
    · subst equal
      have held := wired.held idx existingParent
      simp only at waits
      simp only [merged.refcount, if_pos waits]
      omega
    · simp only [(merged.away idx equal).numChild, (merged.away idx equal).refcount] at waits ⊢
      exact wired.heldTwice idx waits
  · intro idx last
    have equal : idx ≠ parent := by
      rintro rfl
      simp only [update_self] at last
      exact mergeable.nonempty last
    simp only [update_of_ne equal] at last
    simp only [(merged.away idx equal).numChild]
    exact wired.leaf idx last

theorem counted (counted : Counted world []) (mergeable : Mergeable world list parent) :
    Counted ⟨table', update world.children parent list⟩ [] := by
  have absent : parent ∉ list := fun member => (mergeable.existing parent member).2 rfl
  refine ⟨?_, ?_, by simp⟩
  · intro other composite
    by_cases equal : other = parent
    · subst equal
      simp only [update_self, merged.numChild, merged.pendingCount_eq absent,
        List.count_nil, Nat.add_zero]
    · simp only [update_of_ne equal] at composite ⊢
      rw [(merged.away other equal).numChild, merged.pendingCount_eq (mergeable.fresh.2 other)]
      exact counted.numChild other composite
  · intro other composite none
    by_cases equal : other = parent
    · subst equal
      simp only [merged.numChild] at none
      simp only [merged.status]
      rw [Ne, MergeVars.visitAll_eq_active]
      rintro ⟨-, unsignaled⟩
      obtain ⟨child, member⟩ := List.exists_mem_of_ne_nil _ mergeable.nonempty
      have settled := pendingCount_eq_zero.mp none child member
      rw [pending_of_status (unsignaled child member)] at settled
      exact Bool.noConfusion settled
    · simp only [update_of_ne equal] at composite
      simp only [(merged.away other equal).numChild, (merged.away other equal).status] at none ⊢
      exact counted.done other composite none

theorem errors (errors : Errors world [] active) (mergeable : Mergeable world list parent) :
    Errors ⟨table', update world.children parent list⟩ [] active := by
  have failures : IsError (table' parent).status ↔
      ∃ child ∈ list, IsError (world.table child).status := by
    rw [merged.status, MergeVars.visitAll_isError]
    simp [MergeVars.start, not_isError_active]
  have childNe : ∀ {other child}, child ∈ world.children other → child ≠ parent := by
    rintro other child member rfl
    exact mergeable.fresh.2 other member
  refine ⟨?_, ?_, by simp⟩
  · intro other child member done error
    left
    by_cases equal : other = parent
    · subst equal
      simp only [update_self] at member
      have different := (mergeable.existing child member).2
      simp only [(merged.away child different).status] at error
      exact failures.mpr ⟨child, member, error⟩
    · simp only [update_of_ne equal] at member
      have same := merged.away child (childNe member)
      simp only [same.pending, same.status] at done error
      simp only [(merged.away other equal).status]
      rcases errors.up other child member done error with recorded | ⟨queued, -⟩
      · exact recorded
      · simp at queued
  · intro other composite error
    by_cases equal : other = parent
    · subst equal
      obtain ⟨child, member, failed⟩ := failures.mp error
      have different := (mergeable.existing child member).2
      refine ⟨child, by simpa only [update_self] using member, ?_⟩
      simpa only [(merged.away child different).status] using failed
    · simp only [update_of_ne equal] at composite ⊢
      simp only [(merged.away other equal).status] at error
      obtain ⟨child, member, failed⟩ := errors.down other composite error
      exact ⟨child, member, by simpa only [(merged.away child (childNe member)).status] using failed⟩

end

end MergedInto

theorem Linked.merge (linked : Linked world []) {list : List Nat} {parent : Nat}
    (mergeable : Mergeable world list parent) :
    Linked ⟨(merge world.table list parent).2, update world.children parent list⟩ [] := by
  have merged := (mergeable.merged linked.wired).2
  exact ⟨merged.wired linked.wired mergeable, merged.counted linked.counted mergeable⟩

theorem Settled.merge (settled : Settled world) {list : List Nat} {parent : Nat}
    (mergeable : Mergeable world list parent) :
    Settled ⟨(merge world.table list parent).2, update world.children parent list⟩ :=
  ⟨settled.toLinked.merge mergeable,
    (mergeable.merged settled.wired).2.errors settled.errors mergeable⟩

/-! ## Signaling -/

/-- A call that passes the check is on an unsignaled leaf. -/
theorem Linked.isLeaf (linked : Linked world []) {idx : Nat}
    (passes : updateStatusCheck world.table idx = none) :
    (world.table idx).numChild = 0 ∧ (world.table idx).status = active ∧
      world.children idx = [] := by
  unfold updateStatusCheck at passes
  have noChild : (world.table idx).numChild = 0 := by
    by_contra waits
    rw [if_pos waits] at passes
    cases passes
  rw [if_neg (by simpa using noChild)] at passes
  have unsignaled : (world.table idx).status = active := by
    by_contra signaled
    rw [if_pos signaled] at passes
    cases passes
  refine ⟨noChild, unsignaled, ?_⟩
  by_contra composite
  exact linked.counted.done idx composite noChild unsignaled

section Signal

variable {world : World} {idx status : Nat}

/-- The world after the section on the leaf. -/
def World.signaled (world : World) (idx status : Nat) : World :=
  { world with
    table := world.table.set idx { world.table idx with status, waiters := fun _ => false } }

/-- The section on the leaf sends the signal to its parents. -/
theorem Linked.signaled (linked : Linked world [])
    (passes : updateStatusCheck world.table idx = none) (signal : active < status) :
    Linked (world.signaled idx status) (world.table idx).parentList := by
  obtain ⟨noChild, unsignaled, last⟩ := linked.isLeaf passes
  have existing : (world.table idx).status ≠ 0 := by
    rw [unsignaled]
    decide
  have after : pending { world.table idx with status, waiters := fun _ => false } =
      false := by
    have different : status ≠ active := by omega
    simp [pending, noChild, different]
  have counted := linked.counted.finish linked.wired last
    (pending_of_status unsignaled) after
  rw [List.append_nil] at counted
  refine ⟨linked.wired.set rfl ?_ existing (linked.wired.held idx existing) ?_ fun _ => noChild,
    counted⟩
  · simp only
    omega
  · exact fun waits => absurd noChild waits

/-- One update of a composite. -/
theorem Linked.update {work : List Nat} (linked : Linked world (idx :: work))
    (signal : active < status) :
    Linked { world with table := (updateSection world.table idx status).table }
      ((updateSection world.table idx status).parents ++ work) := by
  have waits := linked.counted.numChild_ne_zero
  obtain ⟨obj, table, told, parents, -⟩ :=
    updateSection_composite status waits (linked.wired.heldTwice idx waits)
  rw [table, parents]
  exact ⟨linked.wired.update linked.counted signal told,
    linked.counted.update linked.wired signal told⟩

/-- The first section of a signal. -/
theorem Settled.cascade (settled : Settled world)
    (passes : updateStatusCheck world.table idx = none) (signal : active < status) :
    Cascade world idx status (world.signaled idx status) (world.table idx).parentList := by
  obtain ⟨noChild, unsignaled, last⟩ := settled.isLeaf passes
  have errors : Errors (world.signaled idx status) (world.table idx).parentList status := by
    unfold signaled
    refine ⟨?_, ?_, ?_⟩
    · intro parent child member done error
      have parentNe : parent ≠ idx := by
        rintro rfl
        simp [last] at member
      simp only [set_of_ne _ _ parentNe]
      by_cases equal : child = idx
      · subst equal
        simp only [set_self] at error
        refine .inr ⟨?_, error⟩
        have slots := settled.wired.slots child parent
        rw [← List.count_pos_iff]
        unfold slotCount at slots
        rw [slots]
        exact List.count_pos_iff.mpr member
      · simp only [set_of_ne _ _ equal] at done error
        rcases settled.errors.up parent child member done error with recorded | ⟨queued, -⟩
        · exact .inl recorded
        · simp at queued
    · intro parent composite error
      have parentNe : parent ≠ idx := by
        rintro rfl
        exact composite last
      simp only [set_of_ne _ _ parentNe] at error
      obtain ⟨child, member, failed⟩ := settled.errors.down parent composite error
      have childNe : child ≠ idx := by
        rintro rfl
        rw [unsignaled] at failed
        exact not_isError_active failed
      exact ⟨child, member, by simpa only [set_of_ne _ _ childNe] using failed⟩
    · intro parent named error
      exact ⟨idx, settled.wired.mem_children named, by simpa using error⟩
  have linked := settled.toLinked.signaled passes signal
  refine ⟨rfl, linked.wired, linked.counted, errors, by simp [signaled], ?_, ?_⟩
  · intro other _ different
    simp only [signaled, set_of_ne _ _ different]
  · intro parent named
    exact .child (settled.wired.mem_children named) last

/-- The core of a signal begins with the section on the leaf. -/
theorem updateStatusCore_leaf {fuel : Nat} (leaf : (world.table idx).numChild = 0) :
    updateStatusCore status (fuel + 1) world.table [idx] =
      (updateStatusCore status fuel (world.signaled idx status).table
        (world.table idx).parentList).map fun result =>
          (result.1, (updateSection world.table idx status).messages ++ result.2) := by
  obtain ⟨table, parents⟩ := updateSection_leaf status leaf
  simp only [updateStatusCore, table, parents, List.append_nil]
  rfl

end Signal

/-! ## Signals return -/

/-- The number of children that all composites wait for. -/
def totalPending (table : Table) : Nat :=
  ∑ idx ∈ range maxObjs, (table idx).numChild

theorem totalPending_set {table : Table} {idx : Nat} {obj : Coredata} (bounded : idx < maxObjs)
    (less : obj.numChild + 1 = (table idx).numChild) :
    totalPending (table.set idx obj) + 1 = totalPending table := by
  unfold totalPending
  have member : idx ∈ range maxObjs := mem_range.mpr bounded
  rw [← add_sum_erase _ _ member, ← add_sum_erase _ _ member, set_self]
  have rest : ∑ other ∈ (range maxObjs).erase idx, (table.set idx obj other).numChild =
      ∑ other ∈ (range maxObjs).erase idx, (table other).numChild := by
    refine sum_congr rfl fun other away => ?_
    rw [set_of_ne _ _ (ne_of_mem_erase away)]
  omega

/-- Every update takes one from what the composites wait for, so a signal ends. -/
theorem Linked.run_isSome {work : List Nat} {status fuel : Nat} (linked : Linked world work)
    (signal : active < status) (enough : totalPending world.table ≤ fuel) :
    (updateStatusCore status fuel world.table work).isSome := by
  induction fuel generalizing world work with
  | zero =>
    cases work with
    | nil => rfl
    | cons idx work =>
      have waits := linked.counted.numChild_ne_zero
      have composite := linked.counted.composite idx (List.mem_cons_self ..)
      have bounded := (linked.wired.bounded idx (linked.wired.parent_exists idx composite)).2
      have positive : (world.table idx).numChild ≤ totalPending world.table :=
        single_le_sum (f := fun other => (world.table other).numChild)
          (fun _ _ => Nat.zero_le _) (mem_range.mpr bounded)
      omega
  | succ fuel ih =>
    cases work with
    | nil => rfl
    | cons idx work =>
      have waits := linked.counted.numChild_ne_zero
      have composite := linked.counted.composite idx (List.mem_cons_self ..)
      have bounded := (linked.wired.bounded idx (linked.wired.parent_exists idx composite)).2
      obtain ⟨obj, updated, told, -⟩ :=
        updateSection_composite status waits (linked.wired.heldTwice idx waits)
      have less := totalPending_set bounded told.numChild
      simp only [updateStatusCore, Option.isSome_map]
      apply ih (linked.update signal)
      simp only [updated]
      omega

theorem Linked.updateStatus_isSome (linked : Linked world []) (idx status : Nat)
    : ∃ fuel, (updateStatus fuel world.table idx status).isSome := by
  refine ⟨totalPending (world.signaled idx status).table + 1, ?_⟩
  unfold updateStatus
  split
  · rfl
  · rename_i accepted
    have signal : active < status := by
      by_contra le
      exact accepted (.inr (by omega))
    cases passes : updateStatusCheck world.table idx with
    | some rc => rfl
    | none =>
      simp only [Option.isSome_map]
      rw [updateStatusCore_leaf (linked.isLeaf passes).1, Option.isSome_map]
      exact (linked.signaled passes signal).run_isSome signal (Nat.le_refl _)

/-! ## Runs -/

/-- The failures below a composite are not hidden. -/
def FailuresLast (world : World) : Event → Prop
  | .signal idx status => (world.table idx).status = active → ErrorsLast world idx status
  | _ => True

variable {idx status : Nat} {world world' : World}

/-- A signal is refused, or it goes through the parents of a leaf. -/
theorem Linked.signal_cases (linked : Linked world [])
    (runs : Runs world (.signal idx status) world') :
    world' = world ∨
      (updateStatusCheck world.table idx = none ∧ active < status ∧ ∃ fuel messages,
        updateStatusCore status fuel (world.signaled idx status).table
          (world.table idx).parentList = some (world'.table, messages) ∧
        world'.children = world.children) := by
  obtain ⟨fuel, rc, messages, result, children⟩ := runs
  obtain ⟨table', children'⟩ := world'
  subst children
  unfold updateStatus at result
  split at result
  · simp only [Option.some.injEq, Prod.mk.injEq] at result
    exact .inl (by rw [← result.2.1])
  · rename_i accepted
    have signal : active < status := by
      by_contra le
      exact accepted (.inr (by omega))
    cases passes : updateStatusCheck world.table idx with
    | some rc =>
      simp only [passes, Option.some.injEq, Prod.mk.injEq] at result
      exact .inl (by rw [← result.2.1])
    | none =>
      simp only [passes, Option.map_eq_some_iff] at result
      obtain ⟨⟨reached, sent⟩, core, -, rfl, -⟩ := result
      cases fuel with
      | zero => simp [updateStatusCore] at core
      | succ fuel =>
        rw [updateStatusCore_leaf (linked.isLeaf passes).1, Option.map_eq_some_iff] at core
        obtain ⟨⟨table, sent⟩, core, equal⟩ := core
        obtain ⟨rfl, -⟩ := equal
        exact .inr ⟨rfl, signal, fuel, sent, core, rfl⟩

theorem Linked.signal (linked : Linked world [])
    (runs : Runs world (.signal idx status) world') : Linked world' [] := by
  rcases linked.signal_cases runs with rfl | ⟨passes, signal, fuel, messages, core, children⟩
  · exact linked
  · obtain ⟨table', children'⟩ := world'
    subst children
    exact updateStatusCore_invariant (fun table work => Linked ⟨table, world.children⟩ work)
      (fun _ _ _ linked => linked.update signal) (linked.signaled passes signal) core

theorem Settled.signal (settled : Settled world)
    (last : FailuresLast world (.signal idx status)) (runs : Runs world (.signal idx status) world')
    : Settled world' := by
  rcases settled.signal_cases runs with rfl | ⟨passes, signal, fuel, messages, core, children⟩
  · exact settled
  · obtain ⟨table', children'⟩ := world'
    subst children
    have final := updateStatusCore_invariant
      (fun table work => Cascade world idx status ⟨table, world.children⟩ work)
      (fun _ _ _ cascade => cascade.update (last (settled.isLeaf passes).2.1) signal)
      (settled.cascade passes signal) core
    exact ⟨⟨final.wired, final.counted⟩, final.errors.nil active⟩

/-- Legal calls keep the references and the counts. -/
theorem linked_of_reaches
    (reaches : Reaches (fun world event world' => Legal world event ∧ Runs world event world') .start world)
    : Linked world [] := by
  refine @Reaches.invariant _ _ _ _ _ (fun world => Linked world []) reaches linked_start ?_
  rintro source event target linked ⟨legal, runs⟩
  cases event with
  | create idx handle =>
    rw [runs]
    exact linked.create legal
  | merge idxList parent =>
    rw [runs]
    exact linked.merge legal
  | signal idx status => exact linked.signal runs

theorem Settled.step (settled : Settled world) {event : Event}
    (legal : Legal world event) (last : FailuresLast world event)
    (runs : Runs world event world') : Settled world' := by
  cases event with
  | create idx handle =>
    rw [runs]
    exact settled.create legal
  | merge idxList parent =>
    rw [runs]
    exact settled.merge legal
  | signal idx status => exact settled.signal last runs

/-- In every run of legal calls in which no failure below a composite is hidden by the
last leaf, every signal returns and the status of every composite is that of the leaves
below it. -/
theorem compositeStatus_of_reaches (world : World)
    (reaches : Reaches (fun world event world' =>
      Legal world event ∧ FailuresLast world event ∧ Runs world event world') .start world) :
    (∀ parent, world.children parent ≠ [] → CompositeStatus world parent) ∧
      ∀ idx status, ∃ fuel, (updateStatus fuel world.table idx status).isSome := by
  have settled : Settled world := by
    refine reaches.invariant settled_start ?_
    rintro source event target settled ⟨legal, last, runs⟩
    exact settled.step legal last runs
  exact ⟨fun parent composite =>
    compositeStatus_of_invariants settled.wired settled.counted settled.errors composite,
    settled.updateStatus_isSome⟩

/-! ## A composite of a composite -/

/-- The world after a call, where a signal needs at most 8 sections. -/
def World.execute (world : World) : Event → World
  | .create idx handle => { world with table := initCoredata world.table idx handle }
  | .merge idxList parent =>
    ⟨(merge world.table idxList parent).2, update world.children parent idxList⟩
  | .signal idx status =>
    match updateStatus 8 world.table idx status with
    | some result => { world with table := result.2.1 }
    | none => world

theorem runs_execute {event : Event}
    (returns : ∀ idx status, event = .signal idx status → (updateStatus 8 world.table idx status).isSome)
    : Runs world event (world.execute event) := by
  cases event with
  | create idx handle => rfl
  | merge idxList parent => rfl
  | signal idx status =>
    obtain ⟨⟨rc, table, messages⟩, result⟩ :=
      Option.isSome_iff_exists.mp (returns idx status rfl)
    refine ⟨8, rc, messages, ?_, ?_⟩
    · simp only [execute, result]
    · simp only [execute, result]

/-- Object 3 is merged from the leaves 1 and 2, and object 4 from object 3. -/
def nestedCalls : List Event :=
  [.create 1 1, .create 2 2, .create 3 3, .create 4 4, .merge [1, 2] 3, .merge [3] 4]

/-- The world after some calls. -/
def World.after (events : List Event) : World :=
  events.foldl execute .start

/-- The calls of a list are legal and return. -/
def RunsThrough (guard : World → Event → Prop) (events : List Event) : Prop :=
  Allowed (fun world event => guard world event ∧ Runs world event (world.execute event))
    execute .start events

theorem RunsThrough.reaches {guard : World → Event → Prop} {events : List Event}
    (through : RunsThrough guard events) :
    Reaches (fun world event world' => guard world event ∧ Runs world event world') .start
      (after events) := by
  refine (Reaches.foldl through).mono ?_
  rintro source event target ⟨allowed, rfl⟩
  exact allowed

/-- Both merges are legal and hide no failure. -/
theorem nestedCalls_through :
    RunsThrough (fun world event => Legal world event ∧ FailuresLast world event)
      nestedCalls := by
  have runs : ∀ {world event}, (∀ idx status, event ≠ .signal idx status) →
      Runs world event (world.execute event) := by
    intro world event noSignal
    exact runs_execute fun idx status equal => absurd equal (noSignal idx status)
  refine ⟨⟨⟨⟨by decide, by decide, rfl⟩, trivial⟩, runs (by simp)⟩,
    ⟨⟨⟨by decide, by decide, rfl⟩, trivial⟩, runs (by simp)⟩,
    ⟨⟨⟨by decide, by decide, rfl⟩, trivial⟩, runs (by simp)⟩,
    ⟨⟨⟨by decide, by decide, rfl⟩, trivial⟩, runs (by simp)⟩,
    ⟨⟨?_, trivial⟩, runs (by simp)⟩, ⟨⟨?_, trivial⟩, runs (by simp)⟩, trivial⟩
  · refine ⟨by decide, rfl, ⟨rfl, ?_⟩, by decide +kernel, by decide +kernel⟩
    intro other member
    simp [execute, start] at member
  · refine ⟨by decide, rfl, ⟨rfl, ?_⟩, by decide +kernel, by decide +kernel⟩
    intro other member
    by_cases equal : other = 3
    · subst equal
      exact absurd member (by decide)
    · simp [execute, start, equal] at member

theorem nestedCalls_reaches :
    Reaches (fun world event world' => Legal world event ∧ Runs world event world') .start
      (after nestedCalls) :=
  RunsThrough.reaches (Allowed.mono nestedCalls_through fun _ _ allowed => ⟨allowed.1.1, allowed.2⟩)

/-- The lists of `nestedCalls`. -/
def nestedChildren : Nat → List Nat :=
  update (update (fun _ => []) 3 [1, 2]) 4 [3]

theorem leafBelow_nested {leaf : Nat} (isLeaf : leaf = 1 ∨ leaf = 2) :
    LeafBelow nestedChildren 3 leaf := by
  rcases isLeaf with rfl | rfl
  · exact .child (by decide) rfl
  · exact .child (by decide) rfl

/-- Only object 3 is a child and has leaves below it. -/
theorem eq_three_of_leafBelow {composite parent leaf : Nat}
    (member : composite ∈ nestedChildren parent)
    (below : LeafBelow nestedChildren composite leaf) : composite = 3 := by
  have nonempty : nestedChildren composite ≠ [] := by
    cases below with
    | child member _ | through member _ => exact List.ne_nil_of_mem member
  unfold nestedChildren at member nonempty
  grind

/-- The last leaf fails: the composite of the composite reports it. -/
theorem compositeStatus_sample :
    CompositeStatus (after (nestedCalls ++ [.signal 1 2, .signal 2 3])) 4 := by
  have through : RunsThrough (fun world event => Legal world event ∧ FailuresLast world event)
      (nestedCalls ++ [.signal 1 2, .signal 2 3]) := by
    refine nestedCalls_through.append ⟨⟨⟨trivial, ?_⟩, runs_execute ?_⟩,
      ⟨⟨trivial, ?_⟩, runs_execute ?_⟩, trivial⟩
    · intro _ _ composite parent member below signaled
      obtain rfl := eq_three_of_leafBelow member below
      exact absurd rfl (signaled 2 (leafBelow_nested (.inr rfl)) (by decide))
    · rintro idx status ⟨⟩
      decide +kernel
    · intro _ success
      exact absurd (by decide) success
    · rintro idx status ⟨⟩
      decide +kernel
  refine (compositeStatus_of_reaches _ (through.reaches.mono ?_)).1 4 (by decide +kernel)
  rintro world event world' ⟨⟨legal, last⟩, runs⟩
  exact ⟨legal, last, runs⟩

/-- The first leaf fails and the last one does not: the composite of the composite
reports success. -/
theorem not_compositeStatus_of_hidden_failure :
    ¬ ∀ world, Reaches (fun world event world' => Legal world event ∧ Runs world event world')
      .start world → ∀ parent, world.children parent ≠ [] → CompositeStatus world parent := by
  intro claim
  have through : RunsThrough Legal (nestedCalls ++ [.signal 1 3, .signal 2 2]) := by
    refine Allowed.append ?_ ⟨⟨trivial, runs_execute ?_⟩, ⟨trivial, runs_execute ?_⟩, trivial⟩
    · exact Allowed.mono nestedCalls_through fun _ _ allowed => ⟨allowed.1.1, allowed.2⟩
    · rintro idx status ⟨⟩
      decide +kernel
    · rintro idx status ⟨⟩
      decide +kernel
  have status := claim _ through.reaches 4 (by decide +kernel)
  have below : LeafBelow nestedChildren 4 1 := .through (by decide) (leafBelow_nested (.inl rfl))
  have error := (status.2 (by decide +kernel)).mpr ⟨1, below, by decide +kernel⟩
  revert error
  decide +kernel

end Sm8650.Synx
