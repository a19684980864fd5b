import Sm8650.Synx.Merging

/-!
# Rolling a merge back

A merge that meets an invalid index, or a child whose slots are all taken, takes the
composite out of the children again. The failure path walks back over as many entries of
the list as there are pending children, which is the number of entries visited only while
every one of them is pending; and it returns the value of the last lock, so that an invalid
index behind a valid one is reported as success.

Source: `synx_global.c`.
-/

namespace Sm8650.Synx

open List Function Coredata MergeVars Table

/-! ## The merge with its counters -/

/-- How the loop of `synx_global_merge` ends: in the last section, or behind the failure
path with the value to return. -/
inductive LoopEnd
  | finish (table : Table) (vars : MergeVars)
  | fail (rc : Int) (table : Table)

/-- The loop of `synx_global_merge` up to its last section; `rc` is the value of the last
lock taken. -/
def mergeWalk (idxList : List Nat) (parent : Nat) : List Nat → Int → Table → MergeVars → LoopEnd
  | [], _, table, vars => .finish table vars
  | idx :: rest, rc, table, vars =>
    if validIdx idx then
      match mergeSection table idx parent vars with
      | (table, vars, true) => mergeWalk idxList parent rest 0 table vars
      | (table, vars, false) => .fail nomem (mergeFail table idxList parent vars.numChild)
    else
      .fail rc (mergeFail table idxList parent vars.numChild)

/-- The last section of `synx_global_merge`; `num_child` and `refcount` are `u16`. -/
def mergeFinishU16 (table : Table) (parent : Nat) (vars : MergeVars) : Table :=
  let obj := table parent
  let numChild := (obj.numChild + vars.numChild) % 2 ^ 16
  table.set parent
    { obj with
      numChild
      refcount := if numChild ≠ 0 then (obj.refcount + 1) % 2 ^ 16 else obj.refcount
      status := vars.parentStatus }

/-- `synx_global_merge` with the widths of its counters. -/
def mergeU16 (table : Table) (idxList : List Nat) (parent : Nat) : Int × Table :=
  if validIdx parent = false then (invalid, table)
  else if idxList = [] then (0, table)
  else
    match mergeWalk idxList parent idxList invalid table .start with
    | .finish table vars => (0, mergeFinishU16 table parent vars)
    | .fail rc table => (rc, table)

/-- Every slot that differs was free and names the composite. -/
def Marked (obj : Coredata) (parent : Nat) (obj' : Coredata) : Prop :=
  ∀ slot, obj'.parents slot = obj.parents slot ∨ obj.parents slot = 0 ∧ obj'.parents slot = parent

theorem Marked.refl (obj : Coredata) (parent : Nat) : Marked obj parent obj :=
  fun _ => .inl rfl

variable {parent : Nat}

theorem Marked.trans {obj obj' obj'' : Coredata} (nonzero : parent ≠ 0)
    (first : Marked obj parent obj') (second : Marked obj' parent obj'') :
    Marked obj parent obj'' := by
  intro slot
  rcases second slot with same | ⟨wasFree, taken⟩
  · rw [same]
    exact first slot
  · rcases first slot with same | ⟨-, taken'⟩
    · exact .inr ⟨same.symm.trans wasFree, taken⟩
    · exact absurd (taken'.symm.trans wasFree) nonzero

theorem Coredata.slotCount_eq_zero_iff (obj : Coredata) (nonzero : parent ≠ 0) :
    obj.slotCount parent = 0 ↔ ∀ slot, obj.parents slot ≠ parent := by
  rw [slotCount_eq _ nonzero, count_eq_zero, mem_ofFn, not_exists]

/-- An object has its slots back as soon as none of them names the composite. -/
theorem Marked.parents_eq_iff {obj obj' : Coredata} (marked : Marked obj parent obj')
    (unrecorded : ∀ slot, obj.parents slot ≠ parent) :
    obj'.parents = obj.parents ↔ obj'.slotCount parent = 0 := by
  by_cases isZero : parent = 0
  · subst isZero
    simp only [slotCount_zero, iff_true]
    funext slot
    rcases marked slot with same | ⟨wasFree, -⟩
    · exact same
    · exact absurd wasFree (unrecorded slot)
  · rw [slotCount_eq_zero_iff _ isZero]
    constructor
    · intro same slot
      rw [same]
      exact unrecorded slot
    · intro none
      funext slot
      exact (marked slot).resolve_right fun taken => none slot taken.2

/-- What a merge that has gone through the children in `list` has left in the table. -/
structure Recorded (table : Table) (list : List Nat) (parent : Nat) (table' : Table) : Prop where
  same : ∀ idx, SameButSlots (table idx) (table' idx)
  marked : ∀ idx, Marked (table idx) parent (table' idx)
  count : ∀ idx, (table' idx).slotCount parent = (table idx).slotCount parent + list.count idx
  free : ∀ idx, (table' idx).freeSlots + list.count idx = (table idx).freeSlots

theorem Recorded.nil (table : Table) (parent : Nat) : Recorded table [] parent table where
  same := fun _ => .refl _
  marked := fun _ => .refl _ _
  count := fun _ => rfl
  free := fun _ => rfl

theorem SameButSlots.trans {obj obj' obj'' : Coredata} (first : SameButSlots obj obj')
    (second : SameButSlots obj' obj'') : SameButSlots obj obj'' where
  status := second.status.trans first.status
  handle := second.handle.trans first.handle
  refcount := second.refcount.trans first.refcount
  numChild := second.numChild.trans first.numChild
  waiters := second.waiters.trans first.waiters

theorem Recorded.append {table table' table'' : Table} {list list' : List Nat}
    (nonzero : parent ≠ 0) (first : Recorded table list parent table')
    (second : Recorded table' list' parent table'') :
    Recorded table (list ++ list') parent table'' where
  same := fun idx => (first.same idx).trans (second.same idx)
  marked := fun idx => (first.marked idx).trans nonzero (second.marked idx)
  count := by
    intro idx
    rw [second.count idx, first.count idx, count_append]
    omega
  free := by
    intro idx
    have freeFirst := first.free idx
    have freeSecond := second.free idx
    rw [count_append]
    omega

variable {table : Table}

/-- The section of a merge on a child with a free slot. -/
theorem mergeSection_recorded {idx parent : Nat} (vars : MergeVars) (nonzero : parent ≠ 0)
    (free : 0 < (table idx).freeSlots) :
    ∃ table', mergeSection table idx parent vars = (table', vars.visit (table idx), true) ∧
      Recorded table [idx] parent table' := by
  obtain ⟨slot, found⟩ := exists_findSlot_zero free
  have zero := findSlot_zero found
  obtain ⟨obj, sec, same, less, slots⟩ := mergeSection_eq vars nonzero free
  have written : table.set idx obj = table.set idx ((table idx).setSlot slot parent) := by
    unfold mergeSection at sec
    simp only [found] at sec
    exact (congrArg Prod.fst sec).symm
  refine ⟨table.set idx obj, sec, ?_, ?_, ?_, ?_⟩
  · intro other
    by_cases equal : other = idx
    · rw [equal, set_self]
      exact same
    · rw [set_of_ne _ _ equal]
      exact .refl _
  · intro other
    rw [written]
    by_cases equal : other = idx
    · rw [equal, set_self]
      intro at'
      unfold setSlot
      simp only [update_apply]
      by_cases here : at' = slot
      · rw [here, if_pos rfl]
        exact .inr ⟨zero, rfl⟩
      · rw [if_neg here]
        exact .inl rfl
    · rw [set_of_ne _ _ equal]
      exact .refl _ _
  · intro other
    by_cases equal : other = idx
    · rw [equal, set_self, slots parent nonzero]
      simp
    · rw [set_of_ne _ _ equal]
      simp [Ne.symm equal]
  · intro other
    by_cases equal : other = idx
    · rw [equal]
      simpa using less
    · rw [set_of_ne _ _ equal]
      simp [Ne.symm equal]

/-! ## The failure path -/

/-- A section of the failure path frees one slot that names the composite, if there is one. -/
theorem mergeUndo_slotCount (table : Table) (idx parent other : Nat) :
    (mergeUndo table idx parent other).slotCount parent =
      (table other).slotCount parent - (if idx = other then 1 else 0) := by
  by_cases isZero : parent = 0
  · rw [isZero, slotCount_zero, slotCount_zero, Nat.zero_sub]
  unfold mergeUndo
  rcases found : (table idx).findSlot parent with _ | slot
  · by_cases here : idx = other
    · subst here
      have absent : (table idx).slotCount parent = 0 := by
        rw [slotCount_eq_zero_iff _ isZero]
        intro slot named
        unfold findSlot at found
        rw [List.find?_eq_none] at found
        exact absurd (decide_eq_true named) (found slot (List.mem_finRange slot))
      simp [absent]
    · simp [here]
  · by_cases here : idx = other
    · subst here
      have named : (table idx).parents slot = parent := by
        have holds := List.find?_some found
        simpa using holds
      have bound : slot.val < (List.ofFn (table idx).parents).length := by simp
      simp only [set_self]
      have other : ((0 : Nat) == parent) = false := by simpa using Ne.symm isZero
      rw [slotCount_eq _ isZero, slotCount_eq _ isZero, ofFn_setSlot,
        List.count_set bound, List.getElem_ofFn, named, other]
      simp
    · simp only [if_neg here, Nat.sub_zero]
      rw [set_of_ne _ _ (Ne.symm here)]

/-- The failure path keeps to the slots that the merge has taken. -/
theorem mergeUndo_marked {table table' : Table} (idx : Nat) {parent other : Nat}
    (unrecorded : ∀ slot, (table other).parents slot ≠ parent)
    (marked : Marked (table other) parent (table' other)) :
    Marked (table other) parent (mergeUndo table' idx parent other) := by
  unfold mergeUndo
  rcases found : (table' idx).findSlot parent with _ | slot
  · exact marked
  · by_cases here : other = idx
    · have named : (table' other).parents slot = parent := by
        have holds := find?_some found
        rw [here]
        simpa using holds
      have wasFree : (table other).parents slot = 0 := by
        rcases marked slot with same | ⟨wasFree, -⟩
        · exact absurd (same.symm.trans named) (unrecorded slot)
        · exact wasFree
      subst here
      intro at'
      simp only [set_self, setSlot, update_apply]
      by_cases same : at' = slot
      · rw [if_pos same, same]
        exact .inl wasFree.symm
      · rw [if_neg same]
        exact marked at'
    · simp only [set_of_ne _ _ here]
      exact marked

theorem mergeFail_slotCount (table : Table) (idxList : List Nat) (parent other : Nat) :
    ∀ undone, undone ≤ idxList.length →
      (mergeFail table idxList parent undone other).slotCount parent =
        (table other).slotCount parent - (idxList.take undone).count other := by
  intro undone bound
  induction undone generalizing table with
  | zero => simp [mergeFail]
  | succ undone ih =>
    have inside : undone < idxList.length := bound
    unfold mergeFail
    rw [ih _ (Nat.le_of_succ_le bound), mergeUndo_slotCount, take_add_one,
      count_append, getD_eq_getElem?_getD,
      getElem?_eq_getElem inside, Option.getD_some,
      Option.toList_some, count_singleton]
    by_cases here : idxList[undone] = other
    · simp only [here, beq_self_eq_true]
      omega
    · simp [here]

theorem mergeFail_marked {table table' : Table} (idxList : List Nat) {parent other : Nat}
    (unrecorded : ∀ slot, (table other).parents slot ≠ parent) (undone : Nat)
    (marked : Marked (table other) parent (table' other)) :
    Marked (table other) parent (mergeFail table' idxList parent undone other) := by
  induction undone generalizing table' with
  | zero => exact marked
  | succ undone ih => exact ih (mergeUndo_marked _ unrecorded marked)

/-- Every child has its slots back exactly if the failure path goes over at least as many
entries as the merge has recorded. -/
theorem mergeFail_restores_iff {table table' : Table} {before rest : List Nat}
    (recorded : Recorded table before parent table')
    (valid : ∀ child ∈ before, validIdx child = true)
    (unrecorded : ∀ child ∈ before ++ rest, validIdx child = true → ∀ slot, (table child).parents slot ≠ parent)
    {undone : Nat} (bound : undone ≤ (before ++ rest).length) :
    (∀ child ∈ before ++ rest, validIdx child = true →
        (mergeFail table' (before ++ rest) parent undone child).parents = (table child).parents) ↔
      before.length ≤ undone := by
  have counted : ∀ child ∈ before ++ rest, validIdx child = true →
      ((mergeFail table' (before ++ rest) parent undone child).parents = (table child).parents ↔
        before.count child ≤ ((before ++ rest).take undone).count child) := by
    intro child member validChild
    have none := unrecorded child member validChild
    have none' : (table child).slotCount parent = 0 := by
      by_cases isZero : parent = 0
      · rw [isZero, slotCount_zero]
      · exact (slotCount_eq_zero_iff _ isZero).mpr none
    have marked := mergeFail_marked (before ++ rest) none undone (recorded.marked child)
    rw [marked.parents_eq_iff none, mergeFail_slotCount _ _ _ _ _ bound, recorded.count child]
    omega
  constructor
  · intro restored
    by_contra short
    have inside : undone < before.length := by omega
    have member : before[undone] ∈ before := getElem_mem inside
    have enough := (counted before[undone] (mem_append_left _ member)
      (valid _ member)).mp (restored _ (mem_append_left _ member) (valid _ member))
    rw [take_append_of_le_length (Nat.le_of_lt inside)] at enough
    have split : before.count before[undone] =
        (before.take undone).count before[undone] + (before.drop undone).count before[undone] := by
      rw [← count_append, take_append_drop]
    have again : 0 < (before.drop undone).count before[undone] := by
      rw [drop_eq_getElem_cons inside, count_cons_self]
      exact Nat.succ_pos _
    omega
  · intro enough child member validChild
    rw [counted child member validChild, take_append, take_of_length_le enough, count_append]
    exact Nat.le_add_right _ _

/-! ## Where the walk stops -/

/-- Every child is valid and has a free slot for each time it is listed. -/
def Fits (table : Table) (list : List Nat) : Prop :=
  ∀ child ∈ list, validIdx child = true ∧ list.count child ≤ (table child).freeSlots

/-- The entry at which a merge fails: the ones before it have been recorded. -/
structure FailsAt (table : Table) (list before : List Nat) (idx : Nat) (after : List Nat) :
    Prop where
  split : list = before ++ idx :: after
  fits : Fits table before
  stops : validIdx idx = false ∨ before.count idx = (table idx).freeSlots

theorem Fits.nil (table : Table) : Fits table [] := by
  intro child member
  exact absurd member not_mem_nil

theorem Fits.of_cons {idx : Nat} {rest : List Nat} (fits : Fits table (idx :: rest))
    {table' : Table} (recorded : Recorded table [idx] parent table') : Fits table' rest := by
  intro child member
  obtain ⟨valid, room⟩ := fits child (mem_cons_of_mem _ member)
  refine ⟨valid, ?_⟩
  have free := recorded.free child
  have count : ([idx] ++ rest).count child = [idx].count child + rest.count child :=
    count_append
  rw [singleton_append] at count
  omega

variable {list : List Nat}

/-- A child with room for one that names another parent in no slot. -/
theorem nonzero_of_fits (fits : Fits table list) (nonempty : list ≠ [])
    (unrecorded : ∀ child ∈ list, validIdx child = true → ∀ slot, (table child).parents slot ≠ parent)
    : parent ≠ 0 := by
  obtain ⟨child, rest, rfl⟩ := exists_cons_of_ne_nil nonempty
  have member : child ∈ child :: rest := mem_cons_self ..
  obtain ⟨valid, room⟩ := fits child member
  rw [count_cons_self] at room
  obtain ⟨slot, found⟩ := @exists_findSlot_zero (table child) (by omega)
  intro isZero
  exact unrecorded child member valid slot (by rw [isZero, findSlot_zero found])

variable {list before after : List Nat}

theorem FailsAt.mem {idx : Nat}
    (fails : FailsAt table list before idx after) {child : Nat} (member : child ∈ before) :
    child ∈ list := by
  rw [fails.split]
  exact mem_append_left _ member

/-- Either all entries fit, or there is a first one that does not. -/
theorem fits_or_failsAt (table : Table) (list : List Nat) :
    Fits table list ∨ ∃ before idx after, FailsAt table list before idx after := by
  induction list using reverseRecOn with
  | nil => exact .inl (.nil table)
  | append_singleton list idx ih =>
    rcases ih with fits | ⟨before, stop, after, fails⟩
    · by_cases stops : validIdx idx = false ∨ list.count idx = (table idx).freeSlots
      · exact .inr ⟨list, idx, [], rfl, fits, stops⟩
      · left
        rw [not_or] at stops
        have validLast : validIdx idx = true := by simpa using stops.1
        intro child member
        rw [count_append, count_singleton]
        by_cases last : child = idx
        · subst last
          refine ⟨validLast, ?_⟩
          have before : list.count child ≤ (table child).freeSlots := by
            by_cases earlier : child ∈ list
            · exact (fits child earlier).2
            · rw [count_eq_zero_of_not_mem earlier]
              exact Nat.zero_le _
          simp only [beq_self_eq_true, if_true]
          omega
        · have earlier : child ∈ list := by simpa [last] using member
          have different : (idx == child) = false := by simpa using Ne.symm last
          rw [different]
          exact fits child earlier
    · exact .inr ⟨before, stop, after ++ [idx], by rw [fails.split]; simp, fails.fits, fails.stops⟩

/-- The walk through children that have room. -/
theorem mergeWalk_append (idxList : List Nat) (before rest : List Nat) (rc : Int) (table : Table)
    (vars : MergeVars) (nonzero : before ≠ [] → parent ≠ 0) (fits : Fits table before) :
    ∃ table', Recorded table before parent table' ∧
      mergeWalk idxList parent (before ++ rest) rc table vars =
        mergeWalk idxList parent rest (if before = [] then rc else 0) table'
          (vars.visitAll table before) := by
  induction before generalizing rc table vars with
  | nil => exact ⟨table, .nil table parent, rfl⟩
  | cons child before ih =>
    have isParent : parent ≠ 0 := nonzero (cons_ne_nil _ _)
    obtain ⟨valid, room⟩ := fits child (mem_cons_self ..)
    rw [count_cons_self] at room
    obtain ⟨mid, sec, first⟩ := @mergeSection_recorded table child parent vars isParent (by omega)
    obtain ⟨table', second, walk⟩ := ih 0 mid (vars.visit (table child)) (fun _ => isParent)
      (fits.of_cons first)
    refine ⟨table', first.append isParent second, ?_⟩
    have visits : visitAll mid (vars.visit (table child)) before =
        vars.visitAll table (child :: before) := by
      unfold visitAll
      rw [foldl_cons]
      congr 1
      funext current other
      exact visit_congr (first.same other) current
    rw [cons_append]
    conv_lhs => unfold mergeWalk
    rw [if_pos valid, sec]
    simp [walk, visits]

/-! ## What a merge promises -/

/-- Some listed index is invalid or belongs to a child without a free slot. -/
def MustFail (table : Table) (list : List Nat) : Prop :=
  ∃ child ∈ list, validIdx child = false ∨ (table child).freeSlots = 0

/-- What the callers of `synx_global_merge` rely on. -/
structure MergeContract (table : Table) (list : List Nat) (parent : Nat) (result : Int × Table) :
    Prop where
  refused : MustFail table list → result.1 < 0 ∧
    ∀ child ∈ list, validIdx child = true → (result.2 child).parents = (table child).parents
  merged : result.1 = 0 →
    (∀ child ∈ list, validIdx child = true ∧ ∃ slot, (result.2 child).parents slot = parent) ∧
      (result.2 parent).numChild =
        (table parent).numChild + list.countP fun child => (table child).pending

/-- The inputs on which the counter of the composite does not wrap, and on which a failure is
met at the first entry or, at a child without a free slot, with no fewer pending children up
to there than entries before. -/
structure RollsBack (table : Table) (list : List Nat) (parent : Nat) : Prop where
  counted : list ≠ [] → Fits table list →
    (table parent).numChild + list.countP (fun child => (table child).pending) < 2 ^ 16
  walked : ∀ before idx after, FailsAt table list before idx after → MustFail table list →
    before = [] ∨ validIdx idx = true ∧
      before.length ≤ (before ++ [idx]).countP fun child => (table child).pending

/-- A list that fits has nothing that would make the merge fail. -/
theorem Fits.not_mustFail (fits : Fits table list) : ¬ MustFail table list := by
  rintro ⟨child, member, invalidIdx | full⟩
  · rw [(fits child member).1] at invalidIdx
    exact absurd invalidIdx (by decide)
  · have room := (fits child member).2
    have listed := count_pos_iff.mpr member
    omega

/-- The walk over children that have room. -/
theorem mergeWalk_of_fits (nonzero : list ≠ [] → parent ≠ 0) (fits : Fits table list) :
    ∃ table', Recorded table list parent table' ∧
      mergeWalk list parent list invalid table .start =
        .finish table' (start.visitAll table list) := by
  obtain ⟨table', recorded, walk⟩ := mergeWalk_append list list [] invalid table .start nonzero fits
  refine ⟨table', recorded, ?_⟩
  rw [append_nil] at walk
  exact walk

/-- The walk over a list with an entry that fails. -/
theorem mergeWalk_of_failsAt {idx : Nat} (parent : Nat)
    (nonzero : before ≠ [] → parent ≠ 0) (fails : FailsAt table list before idx after) :
    ∃ table', Recorded table before parent table' ∧
      mergeWalk list parent list invalid table .start =
        if validIdx idx = true then
          .fail nomem (mergeFail table' list parent
            ((before ++ [idx]).countP fun child => (table child).pending))
        else
          .fail (if before = [] then invalid else 0) (mergeFail table' list parent
            (before.countP fun child => (table child).pending)) := by
  obtain ⟨table', recorded, walk⟩ := mergeWalk_append list before (idx :: after) invalid table
    .start nonzero fails.fits
  refine ⟨table', recorded, ?_⟩
  have counted : (start.visitAll table before).numChild =
      before.countP fun child => (table child).pending := by
    rw [visitAll_numChild]
    exact Nat.zero_add _
  rw [← fails.split] at walk
  rw [walk]
  unfold mergeWalk
  cases validity : validIdx idx with
  | false =>
    rw [counted]
    simp
  | true =>
    -- The child has no slot left once the entries before have taken theirs.
    have full : (table' idx).freeSlots = 0 := by
      have free := recorded.free idx
      rcases fails.stops with invalidIdx | full
      · rw [validity] at invalidIdx
        exact absurd invalidIdx (by decide)
      · omega
    have none : (table' idx).findSlot 0 = none := by
      unfold findSlot
      rw [find?_eq_none]
      intro slot _ isFree
      unfold freeSlots at full
      rw [count_eq_zero, mem_ofFn] at full
      exact full ⟨slot, by simpa using isFree⟩
    simp only [mergeSection, none, visit_numChild, counted, (recorded.same idx).pending,
      countP_append, countP_singleton]

theorem mergeFinishU16_parents (table : Table) (parent : Nat) (vars : MergeVars) (idx : Nat) :
    (mergeFinishU16 table parent vars idx).parents = (table idx).parents := by
  unfold mergeFinishU16
  by_cases here : idx = parent
  · rw [here]
    simp
  · simp [set_of_ne _ _ here]

theorem mergeFinishU16_numChild (table : Table) (parent : Nat) (vars : MergeVars) :
    (mergeFinishU16 table parent vars parent).numChild =
      ((table parent).numChild + vars.numChild) % 2 ^ 16 := by
  unfold mergeFinishU16
  simp

theorem mergeU16_eq_walk (validParent : validIdx parent = true) (nonempty : list ≠ []) :
    mergeU16 table list parent =
      match mergeWalk list parent list invalid table .start with
      | .finish table vars => (0, mergeFinishU16 table parent vars)
      | .fail rc table => (rc, table) := by
  unfold mergeU16
  rw [if_neg (by simp [validParent]), if_neg nonempty]

/-- A merge of children that have room keeps its promise unless the counter wraps. -/
theorem mergeContract_iff_of_fits (validParent : validIdx parent = true)
    (unrecorded : ∀ child ∈ list, validIdx child = true → ∀ slot, (table child).parents slot ≠ parent)
    (fits : Fits table list) :
    MergeContract table list parent (mergeU16 table list parent) ↔
      (list ≠ [] → (table parent).numChild +
        list.countP (fun child => (table child).pending) < 2 ^ 16) := by
  by_cases nonempty : list = []
  · subst nonempty
    have same : mergeU16 table [] parent = (0, table) := by
      unfold mergeU16
      rw [if_neg (by simp [validParent]), if_pos rfl]
    rw [same]
    refine iff_of_true ⟨fun must => absurd must fits.not_mustFail, fun _ => ?_⟩
      fun nonempty => absurd rfl nonempty
    simp
  have nonzero := nonzero_of_fits fits nonempty unrecorded
  obtain ⟨table', recorded, walk⟩ := mergeWalk_of_fits (fun _ => nonzero) fits
  have numChild : ((mergeU16 table list parent).2 parent).numChild =
      ((table parent).numChild + list.countP fun child => (table child).pending) % 2 ^ 16 := by
    rw [mergeU16_eq_walk validParent nonempty, walk]
    rw [mergeFinishU16_numChild, (recorded.same parent).numChild, visitAll_numChild]
    exact congrArg (fun sum => ((table parent).numChild + sum) % 2 ^ 16) (Nat.zero_add _)
  have success : (mergeU16 table list parent).1 = 0 := by
    rw [mergeU16_eq_walk validParent nonempty, walk]
  constructor
  · intro contract _
    have grown := (contract.merged success).2
    omega
  · intro small
    refine ⟨fun must => absurd must fits.not_mustFail, fun _ => ⟨?_, ?_⟩⟩
    · intro child member
      refine ⟨(fits child member).1, ?_⟩
      have listed := count_pos_iff.mpr member
      have count := recorded.count child
      rw [mergeU16_eq_walk validParent nonempty, walk]
      simp only [mergeFinishU16_parents]
      by_contra none
      have absent := (slotCount_eq_zero_iff (table' child) nonzero).mpr
        (not_exists.mp none)
      omega
    · rw [numChild, Nat.mod_eq_of_lt (small nonempty)]

/-- A merge that fails keeps its promise if it fails at the first entry, or if its failure
path is long enough and the last lock is not what it returns. -/
theorem mergeContract_iff_of_failsAt {idx parent : Nat} (validParent : validIdx parent = true)
    (unrecorded : ∀ child ∈ list, validIdx child = true → ∀ slot, (table child).parents slot ≠ parent)
    (fails : FailsAt table list before idx after) :
    MergeContract table list parent (mergeU16 table list parent) ↔
      (MustFail table list → before = [] ∨ validIdx idx = true ∧
        before.length ≤ (before ++ [idx]).countP fun child => (table child).pending) := by
  have nonzero : before ≠ [] → parent ≠ 0 := fun some =>
    nonzero_of_fits fails.fits some fun child member => unrecorded child (fails.mem member)
  have nonempty : list ≠ [] := by
    rw [fails.split]
    simp
  obtain ⟨table', recorded, walk⟩ := mergeWalk_of_failsAt parent nonzero fails
  have restores : ∀ undone, undone ≤ list.length →
      ((∀ child ∈ list, validIdx child = true →
        (mergeFail table' list parent undone child).parents = (table child).parents) ↔
          before.length ≤ undone) := by
    have valid : ∀ child ∈ before, validIdx child = true := fun child member =>
      (fails.fits child member).1
    rw [fails.split] at unrecorded ⊢
    exact fun undone bound => mergeFail_restores_iff recorded valid unrecorded bound
  have entries : before.length + 1 ≤ list.length := by
    rw [fails.split, length_append, length_cons]
    omega
  cases validity : validIdx idx with
  | false =>
    have must : MustFail table list := ⟨idx, by rw [fails.split]; simp, .inl validity⟩
    have fewer := countP_le_length (p := fun child => (table child).pending) (l := before)
    rw [validity] at walk
    rw [mergeU16_eq_walk validParent nonempty, walk]
    simp only [must, Bool.false_eq_true, false_and, or_false, true_imp_iff]
    constructor
    · intro contract
      by_contra some
      have negative := (contract.refused must).1
      rw [if_neg some] at negative
      exact absurd negative (by decide : ¬ (0 : Int) < 0)
    · intro first
      subst first
      refine ⟨fun _ => ⟨(by decide : invalid < 0), (restores _ (by omega)).mpr (Nat.zero_le _)⟩, ?_⟩
      intro success
      exact absurd success (by decide : invalid ≠ 0)
  | true =>
    have fewer := countP_le_length (p := fun child => (table child).pending) (l := before ++ [idx])
    rw [length_append, length_singleton] at fewer
    rw [validity] at walk
    rw [mergeU16_eq_walk validParent nonempty, walk]
    simp only [true_and]
    constructor
    · intro contract must
      exact .inr ((restores _ (by omega)).mp (contract.refused must).2)
    · intro long
      refine ⟨fun must => ⟨(by decide : nomem < 0), (restores _ (by omega)).mpr ?_⟩, ?_⟩
      · rcases long must with first | enough
        · rw [first]
          exact Nat.zero_le _
        · exact enough
      · intro success
        exact absurd success (by decide : nomem ≠ 0)

/-- A merge rolls back what it has recorded, and reports it, exactly on the inputs of
`RollsBack`. -/
theorem mergeContract_iff_rollsBack {table : Table} {list : List Nat} {parent : Nat}
    (validParent : validIdx parent = true)
    (unrecorded : ∀ child ∈ list, validIdx child = true →
      ∀ slot, (table child).parents slot ≠ parent) :
    MergeContract table list parent (mergeU16 table list parent) ↔
      RollsBack table list parent := by
  constructor
  · intro contract
    constructor
    · intro nonempty fits
      exact (mergeContract_iff_of_fits validParent unrecorded fits).mp contract nonempty
    · intro before idx after fails must
      exact (mergeContract_iff_of_failsAt validParent unrecorded fails).mp contract must
  · intro rollsBack
    rcases fits_or_failsAt table list with fits | ⟨before, idx, after, fails⟩
    · exact (mergeContract_iff_of_fits validParent unrecorded fits).mpr fun nonempty =>
        rollsBack.counted nonempty fits
    · exact (mergeContract_iff_of_failsAt validParent unrecorded fails).mpr
        (rollsBack.walked before idx after fails)

/-- An object that has been signaled, one that has not, and one without a free slot. -/
def mixedTable : Table := fun idx =>
  { cleared with
    status := if idx = 1 ∨ idx = 3 then signaledSuccess else active
    refcount := 1
    parents := fun _ => if idx = 3 then 9 else 0 }

/-- The signaled child shortens the failure path, which leaves the composite in the slot of
the second child. -/
theorem mergeContract_mixedTable :
    validIdx 7 = true ∧ (∀ child ∈ [1, 2, 3], validIdx child = true →
        ∀ slot, (mixedTable child).parents slot ≠ 7) ∧
      MustFail mixedTable [1, 2, 3] ∧
      (mergeU16 mixedTable [1, 2, 3] 7).1 = nomem ∧
      ((mergeU16 mixedTable [1, 2, 3] 7).2 2).parents 0 = 7 ∧
      (mergeU16 mixedTable [2, maxObjs] 7).1 = 0 ∧
      ¬ MergeContract mixedTable [1, 2, 3] 7 (mergeU16 mixedTable [1, 2, 3] 7) := by
  refine ⟨by decide, by decide, ⟨3, by decide⟩, by decide, by decide, by decide, ?_⟩
  intro contract
  have restored := (contract.refused ⟨3, by decide⟩).2 2 (by decide) (by decide)
  exact absurd (congrFun restored 0) (by decide)

/-- Without the signaled child the failure path is long enough. -/
theorem mergeContract_iff_mixedTable :
    MergeContract mixedTable [2, 3] 7 (mergeU16 mixedTable [2, 3] 7) ↔
      RollsBack mixedTable [2, 3] 7 :=
  mergeContract_iff_rollsBack (by decide) (by decide)

end Sm8650.Synx
