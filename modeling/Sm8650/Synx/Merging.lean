import Sm8650.Synx.Sections

/-!
# Merging without interruption

A merge that meets no other call names the composite in a slot of every child and counts
the children that are reported unsignaled.
-/

namespace Sm8650.Synx

open List Coredata

/-! ## The variables of a merge -/

variable (vars : MergeVars)

theorem MergeVars.visit_numChild (child : Coredata) :
    (vars.visit child).numChild = vars.numChild + (if child.pending then 1 else 0) := by
  unfold visit Coredata.pending
  by_cases unsignaled : child.status = active
  · simp [unsignaled]
  · by_cases waits : child.numChild = 0 <;> simp [unsignaled, waits]

theorem MergeVars.visit_isError (child : Coredata) :
    IsError (vars.visit child).parentStatus ↔ IsError vars.parentStatus ∨ IsError child.status := by
  unfold visit
  by_cases unsignaled : child.status = active
  · simp [unsignaled, not_isError_active]
  · by_cases error : IsError child.status
    · simp [unsignaled, error]
    · by_cases first : vars.parentStatus = active
      · simp [unsignaled, first, not_isError_active]
      · simp [error, first]

theorem MergeVars.visit_eq_active (child : Coredata) :
    (vars.visit child).parentStatus = active ↔
      vars.parentStatus = active ∧ child.status = active := by
  unfold visit
  by_cases unsignaled : child.status = active
  · simp [unsignaled]
  · simp only [unsignaled, if_false, and_false, iff_false]
    split
    · exact unsignaled
    · split
      · exact unsignaled
      · assumption

theorem MergeVars.visit_ne_zero {vars : MergeVars} {child : Coredata}
    (nonzero : vars.parentStatus ≠ 0) (existing : child.status ≠ 0) :
    (vars.visit child).parentStatus ≠ 0 := by
  unfold visit
  simp only
  split
  · exact nonzero
  · split
    · exact existing
    · split
      · exact existing
      · exact nonzero

/-- The variables after a list of children. -/
def MergeVars.visitAll (table : Table) (vars : MergeVars) (list : List Nat) : MergeVars :=
  list.foldl (fun vars child => vars.visit (table child)) vars

variable (table : Table)

theorem MergeVars.visitAll_numChild (list : List Nat) :
    (visitAll table vars list).numChild =
      vars.numChild + list.countP fun child => (table child).pending := by
  unfold visitAll
  induction list generalizing vars with
  | nil => rfl
  | cons child list ih =>
    rw [foldl_cons, ih, visit_numChild, countP_cons]
    omega

theorem MergeVars.visitAll_isError (list : List Nat) :
    IsError (visitAll table vars list).parentStatus ↔
      IsError vars.parentStatus ∨ ∃ child ∈ list, IsError (table child).status := by
  unfold visitAll
  induction list generalizing vars with
  | nil => simp
  | cons child list ih =>
    rw [foldl_cons, ih, visit_isError]
    simp [or_assoc]

theorem MergeVars.visitAll_eq_active (list : List Nat) :
    (visitAll table vars list).parentStatus = active ↔
      vars.parentStatus = active ∧ ∀ child ∈ list, (table child).status = active := by
  unfold visitAll
  induction list generalizing vars with
  | nil => simp
  | cons child list ih =>
    rw [foldl_cons, ih, visit_eq_active]
    simp [and_assoc]

theorem MergeVars.visitAll_ne_zero {table : Table} {vars : MergeVars} {list : List Nat}
    (nonzero : vars.parentStatus ≠ 0) (existing : ∀ child ∈ list, (table child).status ≠ 0) :
    (visitAll table vars list).parentStatus ≠ 0 := by
  induction list generalizing vars with
  | nil => exact nonzero
  | cons child list ih =>
    refine ih (visit_ne_zero nonzero (existing child (mem_cons_self ..))) ?_
    exact fun other member => existing other (mem_cons_of_mem _ member)

/-! ## Publishing the composite -/

/-- Objects that differ in their slots only. -/
structure SameButSlots (obj obj' : Coredata) : Prop where
  status : obj'.status = obj.status
  handle : obj'.handle = obj.handle
  refcount : obj'.refcount = obj.refcount
  numChild : obj'.numChild = obj.numChild
  waiters : obj'.waiters = obj.waiters

theorem SameButSlots.refl (obj : Coredata) : SameButSlots obj obj :=
  ⟨rfl, rfl, rfl, rfl, rfl⟩

theorem SameButSlots.pending {obj obj' : Coredata} (same : SameButSlots obj obj') :
    obj'.pending = obj.pending := by
  unfold Coredata.pending
  rw [same.status, same.numChild]

theorem MergeVars.visit_congr {obj obj' : Coredata} (same : SameButSlots obj obj')
    (vars : MergeVars) : vars.visit obj' = vars.visit obj := by
  unfold visit
  rw [same.status, same.numChild]

/-- The children in `list` have got `parent` in a slot. -/
structure Published (table : Table) (list : List Nat) (parent : Nat) (table' : Table) : Prop where
  same : ∀ idx, SameButSlots (table idx) (table' idx)
  slots : ∀ idx other, other ≠ 0 →
    (table' idx).slotCount other =
      (table idx).slotCount other + (if other = parent then list.count idx else 0)

/-- A section of a merge on a child with a free slot. -/
theorem mergeSection_eq {table : Table} {idx parent : Nat}
    (nonzero : parent ≠ 0) (free : 0 < (table idx).freeSlots) :
    ∃ obj, mergeSection table idx parent vars = (table.set idx obj, vars.visit (table idx), true) ∧
      SameButSlots (table idx) obj ∧ obj.freeSlots + 1 = (table idx).freeSlots ∧
      ∀ other, other ≠ 0 →
        obj.slotCount other = (table idx).slotCount other + (if other = parent then 1 else 0) := by
  obtain ⟨slot, found⟩ := exists_findSlot_zero free
  have zero := findSlot_zero found
  refine ⟨(table idx).setSlot slot parent, ?_, ⟨rfl, rfl, rfl, rfl, rfl⟩, ?_, ?_⟩
  · unfold mergeSection
    simp only [found]
  · have count := count_setSlot zero nonzero 0
    simp only [nonzero.symm] at count
    exact count
  · intro other otherNonzero
    have count := count_setSlot zero nonzero other
    rw [if_neg otherNonzero] at count
    rw [slotCount_eq _ otherNonzero, slotCount_eq _ otherNonzero]
    exact count

theorem mergeFinish_of_ne {idx parent : Nat}
    (different : idx ≠ parent) : mergeFinish table parent vars idx = table idx := by
  exact Table.set_of_ne _ _ different

theorem mergeFinish_self (parent : Nat) (vars : MergeVars) :
    mergeFinish table parent vars parent =
      { table parent with
        numChild := (table parent).numChild + vars.numChild
        refcount := if (table parent).numChild + vars.numChild ≠ 0 then
          (table parent).refcount + 1 else (table parent).refcount
        status := vars.parentStatus } := by
  exact Table.set_self _ _ _

/-- A merge into a composite with children that have room for it succeeds. -/
theorem mergeLoop_eq (idxList : List Nat) {parent : Nat} (nonzero : parent ≠ 0) (list : List Nat)
    (rc : Int) (table : Table) (vars : MergeVars) (valid : ∀ child ∈ list, validIdx child = true)
    (free : ∀ child ∈ list, list.count child ≤ (table child).freeSlots) :
    ∃ table', mergeLoop idxList parent list rc table vars =
        (0, mergeFinish table' parent (vars.visitAll table list)) ∧
      Published table list parent table' := by
  induction list generalizing rc table vars with
  | nil =>
    refine ⟨table, rfl, fun idx => .refl _, ?_⟩
    simp
  | cons child list ih =>
    have room := free child (mem_cons_self ..)
    rw [count_cons_self] at room
    obtain ⟨obj, sec, same, less, slots⟩ :=
      mergeSection_eq vars nonzero (Nat.lt_of_lt_of_le (Nat.succ_pos _) room)
    have sameAll : ∀ idx, SameButSlots (table idx) (table.set child obj idx) := by
      intro idx
      by_cases equal : idx = child
      · subst equal
        rwa [Table.set_self]
      · rw [Table.set_of_ne _ _ equal]
        exact .refl _
    obtain ⟨table', loop, published⟩ := ih 0 (table.set child obj) (vars.visit (table child))
      (fun other member => valid other (mem_cons_of_mem _ member)) (by
        intro other member
        by_cases equal : other = child
        · subst equal
          rw [Table.set_self]
          omega
        · rw [Table.set_of_ne _ _ equal]
          have room := free other (mem_cons_of_mem _ member)
          rwa [count_cons_of_ne (Ne.symm equal)] at room)
    refine ⟨table', ?_, ?_, ?_⟩
    · unfold mergeLoop
      rw [if_pos (valid child (mem_cons_self ..)), sec]
      simp only [loop]
      have visits : MergeVars.visitAll (table.set child obj) (vars.visit (table child)) list =
          vars.visitAll table (child :: list) := by
        unfold MergeVars.visitAll
        rw [foldl_cons]
        congr 1
        funext current other
        exact MergeVars.visit_congr (sameAll other) current
      rw [visits]
    · intro idx
      have first := sameAll idx
      have second := published.same idx
      exact ⟨second.status.trans first.status, second.handle.trans first.handle,
        second.refcount.trans first.refcount, second.numChild.trans first.numChild,
        second.waiters.trans first.waiters⟩
    · intro idx other otherNonzero
      rw [published.slots idx other otherNonzero, count_cons]
      by_cases equal : idx = child
      · subst equal
        rw [Table.set_self, slots other otherNonzero]
        by_cases isParent : other = parent
        · simp only [isParent, if_true, beq_self_eq_true]
          omega
        · simp [isParent]
      · have different : (child == idx) = false := by simpa using Ne.symm equal
        rw [Table.set_of_ne _ _ equal, different]
        simp

/-- `synx_global_merge` of a list of children that have room for the composite. -/
theorem merge_eq {table : Table} {list : List Nat} {parent : Nat}
    (validParent : validIdx parent = true) (nonzero : parent ≠ 0) (nonempty : list ≠ [])
    (valid : ∀ child ∈ list, validIdx child = true)
    (free : ∀ child ∈ list, list.count child ≤ (table child).freeSlots) :
    ∃ table', merge table list parent =
        (0, mergeFinish table' parent (MergeVars.start.visitAll table list)) ∧
      Published table list parent table' := by
  obtain ⟨table', loop, published⟩ := mergeLoop_eq list nonzero list invalid table .start valid free
  refine ⟨table', ?_, published⟩
  unfold merge
  rw [if_neg (by simp [validParent]), if_neg nonempty]
  exact loop

end Sm8650.Synx
