import Sm8650.Data.Intervals

/-!
# Virtual buffer objects

A virtual buffer is backed by parts of other buffers, its children. Which child a part
belongs to is kept in an interval tree, and the page table is changed along with it. An
interval is named by its first and its last byte. The requests are checked when they are
made, so that no sum of offsets wraps around afterwards. The calls of the MMU and the
allocations succeed; in particular a page that is not mapped may be unmapped.

Source: `kgsl_vbo.c`.
-/

namespace Sm8650.Kgsl

open Data List RangeNode

/-- `PAGE_SIZE` -/
def pageSize : Nat := 4096

/-- What a page of the buffer is mapped to: a page of a child is named by its offset. -/
inductive Mapping
  | unmapped
  | zeroPage
  | child (id offset : Nat)
  deriving DecidableEq, Repr

/-- The page table of a buffer, by the number of the page. -/
abbrev Pagetable := Nat → Mapping

/-- The part of `struct kgsl_memdesc` of a virtual buffer that binds use. `noMapZero` is
`KGSL_MEMFLAGS_VBO_NO_MAP_ZERO`; the nodes of `ranges` belong to children by their ids. -/
structure Memdesc where
  size : Nat
  noMapZero : Bool
  ranges : List (RangeNode Nat)
  pagetable : Pagetable

/-- The page begins in the `length` bytes from `start` on. -/
def PageIn (start length page : Nat) : Prop :=
  start ≤ page * pageSize ∧ page * pageSize < start + length

instance (start length page : Nat) : Decidable (PageIn start length page) :=
  inferInstanceAs (Decidable (_ ∧ _))

/-- `kgsl_mmu_unmap_range` -/
def unmapRange (pagetable : Pagetable) (start length : Nat) : Pagetable :=
  fun page => if PageIn start length page then .unmapped else pagetable page

/-- `kgsl_mmu_map_zero_page_to_range` -/
def mapZeroPageToRange (pagetable : Pagetable) (start length : Nat) : Pagetable :=
  fun page => if PageIn start length page then .zeroPage else pagetable page

/-- `kgsl_mmu_map_child` -/
def mapChild (pagetable : Pagetable) (start child offset length : Nat) : Pagetable :=
  fun page =>
    if PageIn start length page then .child child (offset + (page * pageSize - start))
    else pagetable page

/-- `bind_range_len` -/
def bindRangeLen (range : RangeNode Nat) : Nat :=
  range.last - range.start + 1

namespace Memdesc

/-- The body of the loop of `kgsl_memdesc_remove_range`; no entry stands for all. -/
def removeNode (noMapZero : Bool) (entry : Option Nat)
    (state : List (RangeNode Nat) × Pagetable) (range : RangeNode Nat) :
    List (RangeNode Nat) × Pagetable :=
  if entry = none ∨ entry = some range.entry then
    let pagetable := unmapRange state.2 range.start (bindRangeLen range)
    (state.1.erase range,
      if noMapZero then pagetable
      else mapZeroPageToRange pagetable range.start (bindRangeLen range))
  else state

/-- `kgsl_memdesc_remove_range` -/
def removeRange (memdesc : Memdesc) (start last : Nat) (entry : Option Nat) : Memdesc :=
  let state := walk start last (removeNode memdesc.noMapZero entry) memdesc.ranges.length
    (memdesc.ranges, memdesc.pagetable) (iterFirst memdesc.ranges start last)
  { memdesc with ranges := state.1, pagetable := state.2 }

/-- The body of the loop of `kgsl_memdesc_add_range`. -/
def cutNode (noMapZero : Bool) (start last : Nat)
    (state : List (RangeNode Nat) × Pagetable) (cur : RangeNode Nat) :
    List (RangeNode Nat) × Pagetable :=
  let tree := state.1.erase cur
  let unmap := fun first length =>
    if noMapZero then unmapRange state.2 first length else state.2
  if start ≤ cur.start then
    if cur.last ≤ last then
      (tree, unmap cur.start (cur.last - cur.start + 1))
    else
      (insertInterval { cur with start := last + 1 } tree, unmap cur.start (last - cur.start + 1))
  else
    let tree :=
      if last < cur.last then insertInterval { cur with start := last + 1 } tree else tree
    (insertInterval { cur with last := start - 1 } tree,
      unmap start (min cur.last last - start + 1))

/-- The section of `kgsl_memdesc_add_range` under `ranges_lock`. -/
def insertRange (memdesc : Memdesc) (start last entry : Nat) : Memdesc :=
  let pagetable :=
    if memdesc.noMapZero then memdesc.pagetable
    else unmapRange memdesc.pagetable start (last - start + 1)
  let state := walk start last (cutNode memdesc.noMapZero start last) memdesc.ranges.length
    (memdesc.ranges, pagetable) (iterFirst memdesc.ranges start last)
  { memdesc with ranges := insertInterval ⟨start, last, entry⟩ state.1, pagetable := state.2 }

/-- The call of `kgsl_memdesc_add_range` behind that section. -/
def mapRange (memdesc : Memdesc) (start last entry offset : Nat) : Memdesc :=
  { memdesc with
    pagetable := mapChild memdesc.pagetable start entry offset (last - start + 1) }

/-- `kgsl_memdesc_add_range` -/
def addRange (memdesc : Memdesc) (start last entry offset : Nat) : Memdesc :=
  (memdesc.insertRange start last entry).mapRange start last entry offset

/-- What a page without a child is mapped to. -/
def blank (memdesc : Memdesc) : Mapping :=
  if memdesc.noMapZero then .unmapped else .zeroPage

/-- A new buffer. -/
def new (size : Nat) (noMapZero : Bool) : Memdesc where
  size := size
  noMapZero := noMapZero
  ranges := []
  pagetable := fun _ => if noMapZero then .unmapped else .zeroPage

end Memdesc

/-! ## The sections -/

section Sections

variable {front back : List (RangeNode Nat)} {node cur : RangeNode Nat} {start last : Nat}

theorem erase_split (ordered : Ordered (front ++ node :: back)) :
    (front ++ node :: back).erase node = front ++ back := by
  have fresh : node ∉ front := by
    intro among
    have apart := (Ordered.append_iff.mp ordered).2.2 node among node mem_cons_self
    have proper := (Ordered.append_iff.mp ordered).1.proper node among
    unfold Before at apart
    omega
  rw [erase_append_right _ fresh, erase_cons_head]

/-- A piece of a node goes where the node was. -/
theorem insertInterval_piece (ordered : Ordered (front ++ node :: back)) {piece : RangeNode Nat}
    (inside : node.start ≤ piece.start ∧ piece.start ≤ node.last) :
    insertInterval piece (front ++ back) = front ++ piece :: back := by
  obtain ⟨inFront, fromNode, across⟩ := Ordered.append_iff.mp ordered
  obtain ⟨_, _, behind⟩ := Ordered.cons_iff.mp fromNode
  apply insertInterval_append
  · intro other among
    have apart := across other among node mem_cons_self
    have proper := inFront.proper other among
    unfold Before at apart
    omega
  · intro other among
    have apart := behind other among
    unfold Before at apart
    omega

theorem pageIn_iff {first last page : Nat} (proper : first ≤ last) :
    PageIn first (last - first + 1) page ↔ first ≤ page * pageSize ∧ page * pageSize ≤ last := by
  unfold PageIn
  omega

end Sections

namespace Memdesc

variable {memdesc : Memdesc} {start last : Nat}

/-- The loop of an unbind drops a node of the child that overlaps the range, and no part
of any other one. -/
theorem edits_removeNode (noMapZero : Bool) (entry : Option Nat) (start last : Nat) :
    Edits start last (removeNode noMapZero entry)
      (fun node => if entry = none ∨ entry = some node.entry then [] else [node])
      (fun pagetable node page =>
        if (entry = none ∨ entry = some node.entry) ∧ node.covers (page * pageSize) = true then
          if noMapZero then .unmapped else .zeroPage
        else pagetable page) := by
  intro front back node pagetable ordered _
  have proper := ordered.proper node (mem_append_right _ mem_cons_self)
  unfold removeNode
  by_cases isChild : entry = none ∨ entry = some node.entry
  · simp only [if_pos isChild, erase_split ordered]
    refine ⟨?_, piecesOf_nil node⟩
    congr 1
    funext page
    cases noMapZero <;>
      simp only [isChild, true_and, if_true, Bool.false_eq_true, if_false, unmapRange,
        mapZeroPageToRange, bindRangeLen, pageIn_iff proper, covers_iff]
    split_ifs <;> rfl
  · simp only [isChild]
    exact ⟨rfl, piecesOf_self proper⟩

/-- A bind unmaps what is cut out of a node. -/
theorem unmap_cut {noMapZero : Bool} {node : RangeNode Nat} (pagetable : Pagetable)
    {first end' : Nat} (proper : first ≤ end')
    (isCut : ∀ a, (first ≤ a ∧ a ≤ end') ↔ node.covers a = true ∧ start ≤ a ∧ a ≤ last) :
    (if noMapZero then unmapRange pagetable first (end' - first + 1) else pagetable)
      = fun page =>
        if noMapZero = true ∧ node.covers (page * pageSize) = true
            ∧ start ≤ page * pageSize ∧ page * pageSize ≤ last then .unmapped
        else pagetable page := by
  funext page
  cases noMapZero with
  | false => simp
  | true =>
    simp only [true_and]
    refine if_congr ?_ rfl rfl
    rw [pageIn_iff proper, isCut]

/-- The loop of a bind cuts the range out of each node. -/
theorem edits_cutNode (noMapZero : Bool) (range : start ≤ last) :
    Edits start last (cutNode noMapZero start last) (outside start last)
      (fun pagetable node page =>
        if noMapZero = true ∧ node.covers (page * pageSize) = true
            ∧ start ≤ page * pageSize ∧ page * pageSize ≤ last then .unmapped
        else pagetable page) := by
  intro front back node pagetable ordered hit
  have proper := ordered.proper node (mem_append_right _ mem_cons_self)
  have pieces := piecesOf_outside proper range
  have replaced := ordered.replace pieces
  rw [overlaps_iff] at hit
  refine ⟨?_, pieces⟩
  unfold cutNode
  simp only [erase_split ordered]
  by_cases beyond : start ≤ node.start
  · have noLeft : ¬node.start < start := Nat.not_lt.mpr beyond
    by_cases within : node.last ≤ last
    · have nothing : node.outside start last = [] := by
        rw [outside, if_neg noLeft, if_neg (Nat.not_lt.mpr within)]
        rfl
      rw [if_pos beyond, if_pos within, nothing, unmap_cut pagetable proper]
      · rfl
      · intro a
        rw [covers_iff]
        omega
    · have right : node.outside start last = [{ node with start := last + 1 }] := by
        rw [outside, if_neg noLeft, if_pos (Nat.lt_of_not_le within), Nat.max_eq_right (by omega)]
        rfl
      rw [if_pos beyond, if_neg within, right, unmap_cut pagetable hit.1,
        insertInterval_piece ordered]
      · rfl
      · dsimp only
        omega
      · intro a
        rw [covers_iff]
        omega
  · have isLeft : node.start < start := Nat.lt_of_not_le beyond
    have leftEnd : min node.last (start - 1) = start - 1 := by omega
    rw [if_neg beyond, unmap_cut pagetable (show start ≤ min node.last last by omega)]
    · by_cases within : last < node.last
      · have both : node.outside start last
            = [{ node with last := start - 1 }, { node with start := last + 1 }] := by
          rw [outside, if_pos isLeft, if_pos within, leftEnd, Nat.max_eq_right (by omega)]
          rfl
        rw [both] at replaced
        have left : insertInterval { node with last := start - 1 }
            (front ++ { node with start := last + 1 } :: back)
              = front ++ { node with last := start - 1 }
                :: { node with start := last + 1 } :: back :=
          insertInterval_piece replaced ⟨Nat.le_refl _, by dsimp only; omega⟩
        rw [if_pos within, both, insertInterval_piece ordered (by dsimp only; omega), left]
        rfl
      · have left : node.outside start last = [{ node with last := start - 1 }] := by
          rw [outside, if_pos isLeft, if_neg within, leftEnd]
          rfl
        rw [if_neg within, left, insertInterval_piece ordered (by dsimp only; omega)]
        rfl
    · intro a
      rw [covers_iff]
      omega

/-- What several edits do to a page. -/
theorem foldl_pages {hits : RangeNode Nat → Nat → Prop} [∀ node page, Decidable (hits node page)]
    {mapping : Mapping} (nodes : List (RangeNode Nat)) (pagetable : Pagetable) (page : Nat) :
    nodes.foldl (fun pagetable node page =>
        if hits node page then mapping else pagetable page) pagetable page
      = if ∃ node ∈ nodes, hits node page then mapping else pagetable page := by
  induction nodes generalizing pagetable with
  | nil => simp
  | cons node nodes ih =>
    rw [foldl_cons, ih]
    by_cases later : ∃ other ∈ nodes, hits other page
    · have either : ∃ other ∈ node :: nodes, hits other page := by
        obtain ⟨other, among, hit⟩ := later
        exact ⟨other, mem_cons_of_mem node among, hit⟩
      rw [if_pos later, if_pos either]
    · rw [if_neg later]
      refine if_congr ?_ rfl rfl
      constructor
      · intro hit
        exact ⟨node, mem_cons_self, hit⟩
      · rintro ⟨other, among, hit⟩
        rcases mem_cons.mp among with rfl | deeper
        · exact hit
        · exact absurd ⟨other, deeper, hit⟩ later

/-- The nodes that an unbind drops. -/
def Dropped (start last : Nat) (entry : Option Nat) (node : RangeNode Nat) : Prop :=
  node.overlaps start last = true ∧ (entry = none ∨ entry = some node.entry)

instance (start last : Nat) (entry : Option Nat) : DecidablePred (Dropped start last entry) :=
  fun _ => inferInstanceAs (Decidable (_ ∧ _))

theorem flatMap_dropped (tree : List (RangeNode Nat)) (start last : Nat) (entry : Option Nat) :
    (tree.flatMap fun node =>
        if node.overlaps start last then
          if entry = none ∨ entry = some node.entry then [] else [node]
        else [node])
      = tree.filter fun node => ¬Dropped start last entry node := by
  induction tree with
  | nil => rfl
  | cons node tree ih =>
    rw [flatMap_cons, ih]
    by_cases dropped : Dropped start last entry node
    · rw [if_pos dropped.1, if_pos dropped.2, filter_cons_of_neg (by simpa using dropped)]
      rfl
    · rw [filter_cons_of_pos (by simpa using dropped)]
      by_cases hit : node.overlaps start last = true
      · rw [if_pos hit, if_neg fun isChild => dropped ⟨hit, isChild⟩]
        rfl
      · rw [if_neg hit]
        rfl

/-- The outcome of an unbind. -/
theorem removeRange_eq (ordered : Ordered memdesc.ranges) (entry : Option Nat) :
    (memdesc.removeRange start last entry).ranges
        = memdesc.ranges.filter (fun node => ¬Dropped start last entry node)
      ∧ ∀ page, (memdesc.removeRange start last entry).pagetable page
        = if ∃ node ∈ memdesc.ranges, Dropped start last entry node
            ∧ node.covers (page * pageSize) = true then memdesc.blank
          else memdesc.pagetable page := by
  have walked := @walk_eq _ _ _ _ _ _ _ _ (edits_removeNode memdesc.noMapZero entry start last)
    _ [] memdesc.ranges memdesc.pagetable ordered (Nat.le_refl _)
  simp only [nil_append, flatMap_dropped] at walked
  constructor
  · rw [removeRange, iterFirst, walked]
  · intro page
    rw [removeRange, iterFirst, walked]
    dsimp only
    rw [foldl_pages]
    refine if_congr ?_ rfl rfl
    constructor
    · rintro ⟨node, among, isChild, covered⟩
      obtain ⟨isNode, hit⟩ := mem_filter.mp among
      exact ⟨node, isNode, ⟨hit, isChild⟩, covered⟩
    · rintro ⟨node, isNode, ⟨hit, isChild⟩, covered⟩
      exact ⟨node, mem_filter.mpr ⟨isNode, hit⟩, isChild, covered⟩

/-- The outcome of the section of a bind; the pages of the range are mapped behind it. -/
theorem insertRange_eq (ordered : Ordered memdesc.ranges) (range : start ≤ last) (entry : Nat) :
    (memdesc.insertRange start last entry).ranges
        = insertInterval ⟨start, last, entry⟩ (carve memdesc.ranges start last)
      ∧ ∀ page, ¬(start ≤ page * pageSize ∧ page * pageSize ≤ last) →
        (memdesc.insertRange start last entry).pagetable page = memdesc.pagetable page := by
  have walked := fun pagetable => @walk_eq _ _ _ _ _ _ _ _
    (edits_cutNode memdesc.noMapZero range) _ [] memdesc.ranges pagetable ordered (Nat.le_refl _)
  have carved : (memdesc.ranges.flatMap fun node =>
      if node.overlaps start last then node.outside start last else [node])
        = carve memdesc.ranges start last := by
    apply flatMap_congr
    intro node among
    by_cases hit : node.overlaps start last = true
    · rw [if_pos hit]
    · rw [if_neg hit, outside_of_not_overlaps (ordered.proper node among) range
        (Bool.not_eq_true _ ▸ hit)]
  simp only [nil_append, carved] at walked
  constructor
  · rw [insertRange, iterFirst, walked]
  · intro page apart
    rw [insertRange, iterFirst, walked]
    dsimp only
    rw [foldl_pages, if_neg]
    · cases memdesc.noMapZero with
      | false =>
        show unmapRange _ _ _ page = _
        rw [unmapRange, if_neg]
        rwa [pageIn_iff range]
      | true => rfl
    · rintro ⟨node, _, _, _, inRange⟩
      exact apart inRange

end Memdesc

/-! ## Requests -/

/-- `struct kgsl_gpumem_bind_range` -/
structure GpumemBindRange where
  childOffset : BitVec 64
  targetOffset : BitVec 64
  length : BitVec 64
  childId : BitVec 32
  op : BitVec 32
  deriving DecidableEq, Repr

/-- `KGSL_GPUMEM_RANGE_OP_BIND` -/
def kgslGpumemRangeOpBind : BitVec 32 := 1

/-- `KGSL_GPUMEM_RANGE_OP_UNBIND` -/
def kgslGpumemRangeOpUnbind : BitVec 32 := 2

/-- What is asked of a buffer that is to be a child or a target. -/
structure BufferInfo where
  size : BitVec 64
  isVbo : Bool
  secure : Bool
  deriving DecidableEq, Repr

/-- An operation of a bind request. -/
inductive BindOp
  | bind (start last entry childOffset : Nat)
  | unbind (start last : Nat) (entry : Option Nat)
  deriving DecidableEq, Repr

/-- `PAGE_ALIGNED` -/
def pageAligned (x : BitVec 64) : Bool :=
  x.toNat % pageSize == 0

/-- `kgsl_memdesc_check_range` -/
def checkRange (size offset length : BitVec 64) : Bool :=
  decide (offset < size) && decide (offset < offset + length) && decide (offset + length ≤ size)

/-- One turn of the loop of `kgsl_sharedmem_create_bind_op`; `findId` is
`kgsl_sharedmem_find_id`. -/
def createBindOp (target : BufferInfo) (findId : BitVec 32 → Option BufferInfo)
    (range : GpumemBindRange) : Except Int BindOp :=
  let start := range.targetOffset.toNat
  let last := (range.targetOffset + range.length - 1).toNat
  if pageAligned range.targetOffset = false then .error (-22)
  else if range.length = 0 ∨ pageAligned range.length = false then .error (-22)
  else if checkRange target.size range.targetOffset range.length = false then .error (-22)
  else if range.childId = 0 ∧ range.op = kgslGpumemRangeOpUnbind then
    .ok (.unbind start last none)
  else
    match findId range.childId with
    | none => .error (-2)
    | some entry =>
      if entry.isVbo then .error (-22)
      else if target.secure ≠ entry.secure then .error (-1)
      else if range.op ≠ kgslGpumemRangeOpBind ∧ range.op ≠ kgslGpumemRangeOpUnbind then
        .error (-22)
      else if range.op = kgslGpumemRangeOpBind then
        if pageAligned range.childOffset = false then .error (-22)
        else if checkRange entry.size range.childOffset range.length = false then .error (-22)
        else .ok (.bind start last range.childId.toNat range.childOffset.toNat)
      else if range.childOffset ≠ 0 then .error (-22)
      else .ok (.unbind start last (some range.childId.toNat))

end Sm8650.Kgsl
