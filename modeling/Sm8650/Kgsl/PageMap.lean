import Sm8650.Kgsl.Vbo
import Sm8650.Transition.Reach

/-!
# Virtual buffers as page maps

The purpose of a virtual buffer is a map from its pages to the pages of children. A bind
sets the pages of its range; an unbind clears those pages of its range that belong to the
child it names. The code does the first page by page, the second by whole intervals: it
does what it is for if no interval of the child reaches out of the range.
-/

namespace Sm8650.Kgsl

open Data Transition List Memdesc RangeNode

/-- The child that a page belongs to and the offset in it. -/
abbrev PageMap := Nat → Option (Nat × Nat)

/-- The first byte of the page is in the range. -/
def InRange (start last page : Nat) : Prop :=
  start ≤ page * pageSize ∧ page * pageSize ≤ last

instance (start last page : Nat) : Decidable (InRange start last page) :=
  inferInstanceAs (Decidable (_ ∧ _))

/-- An operation on a page map. -/
def pageStep (map : PageMap) : BindOp → PageMap
  | .bind start last entry childOffset => fun page =>
    if InRange start last page then some (entry, childOffset + (page * pageSize - start))
    else map page
  | .unbind start last entry => fun page =>
    if InRange start last page ∧ (entry = none ∨ (map page).map Prod.fst = entry) then none
    else map page

/-- An operation on whole pages of a buffer. -/
def BindOp.Valid (size : Nat) : BindOp → Prop
  | .bind start last _ _ | .unbind start last _ =>
    start ≤ last ∧ last < size ∧ pageSize ∣ start ∧ pageSize ∣ last + 1

instance (size : Nat) (op : BindOp) : Decidable (op.Valid size) :=
  match op with
  | .bind _ _ _ _ => inferInstanceAs (Decidable (_ ∧ _))
  | .unbind _ _ _ => inferInstanceAs (Decidable (_ ∧ _))

/-- Every operation that is accepted is one on whole pages of the target. -/
theorem BindOp.valid_of_createBindOp {target : BufferInfo} {findId : BitVec 32 → Option BufferInfo}
    {range : GpumemBindRange} {op : BindOp} (created : createBindOp target findId range = .ok op) :
    op.Valid target.size.toNat := by
  unfold createBindOp at created
  by_cases crooked : pageAligned range.targetOffset = false
  · rw [if_pos crooked] at created
    cases created
  by_cases empty : range.length = 0 ∨ pageAligned range.length = false
  · rw [if_neg crooked, if_pos empty] at created
    cases created
  by_cases outside : checkRange target.size range.targetOffset range.length = false
  · rw [if_neg crooked, if_neg empty, if_pos outside] at created
    cases created
  rw [if_neg crooked, if_neg empty, if_neg outside] at created
  have valid : (unbind range.targetOffset.toNat (range.targetOffset + range.length - 1).toNat
      none).Valid target.size.toNat := by
    simp only [pageAligned, checkRange, Valid, pageSize, not_or, Bool.not_eq_false, beq_iff_eq,
      Bool.and_eq_true, decide_eq_true_eq] at *
    bv_omega
  by_cases special : range.childId = 0 ∧ range.op = kgslGpumemRangeOpUnbind
  · rw [if_pos special] at created
    exact Except.ok.inj created ▸ valid
  rw [if_neg special] at created
  cases found : findId range.childId <;> rw [found] at created
  · cases created
  dsimp only at created
  split_ifs at created
  all_goals exact Except.ok.inj created ▸ valid

/-! ## Buffers whose intervals are whole pages -/

/-- The intervals are disjoint and consist of pages of the buffer. -/
structure Memdesc.Tiled (memdesc : Memdesc) : Prop where
  ordered : Ordered memdesc.ranges
  inside : ∀ node ∈ memdesc.ranges, node.last < memdesc.size
  aligned : ∀ node ∈ memdesc.ranges, pageSize ∣ node.start ∧ pageSize ∣ node.last + 1

namespace Memdesc

variable {memdesc : Memdesc} {start last : Nat}

theorem tiled_new (size : Nat) (noMapZero : Bool) : (new size noMapZero).Tiled where
  ordered := .nil
  inside _ among := absurd among not_mem_nil
  aligned _ among := absurd among not_mem_nil

/-- Pages that are cut out of pages leave pages. -/
theorem mem_carve {tree : List (RangeNode Nat)} {piece : RangeNode Nat}
    (among : piece ∈ carve tree start last) : ∃ node ∈ tree, piece.last ≤ node.last
      ∧ (pageSize ∣ start → pageSize ∣ last + 1 →
        pageSize ∣ node.start ∧ pageSize ∣ node.last + 1 →
        pageSize ∣ piece.start ∧ pageSize ∣ piece.last + 1) := by
  obtain ⟨node, isNode, isPiece⟩ := mem_flatMap.mp among
  refine ⟨node, isNode, ?_⟩
  unfold pageSize
  rcases mem_append.mp isPiece with left | right
  · split_ifs at left
    · rw [mem_singleton.mp left]
      dsimp only
      omega
    · exact absurd left not_mem_nil
  · split_ifs at right
    · rw [mem_singleton.mp right]
      dsimp only
      omega
    · exact absurd right not_mem_nil

theorem Tiled.insertRange (tiled : memdesc.Tiled) {entry childOffset : Nat}
    (valid : (BindOp.bind start last entry childOffset).Valid memdesc.size) :
    (memdesc.insertRange start last entry).Tiled
      ∧ ∀ page, entryAt (memdesc.insertRange start last entry).ranges (page * pageSize)
        = if InRange start last page then some entry
          else entryAt memdesc.ranges (page * pageSize) := by
  obtain ⟨range, within, startAligned, lastAligned⟩ := valid
  have eq := (insertRange_eq tiled.ordered range entry).1
  have carved := tiled.ordered.carve range
  have free := fun other among => @overlaps_carve _ memdesc.ranges start last other among
  refine ⟨⟨?_, ?_, ?_⟩, ?_⟩
  · rw [eq]
    exact carved.insertInterval range free
  · rw [eq]
    intro node among
    rcases mem_insertInterval.mp among with rfl | isPiece
    · exact within
    · obtain ⟨whole, isNode, shorter, _⟩ := mem_carve isPiece
      exact Nat.lt_of_le_of_lt shorter (tiled.inside whole isNode)
  · rw [eq]
    intro node among
    rcases mem_insertInterval.mp among with rfl | isPiece
    · exact ⟨startAligned, lastAligned⟩
    · obtain ⟨whole, isNode, _, aligned⟩ := mem_carve isPiece
      exact aligned startAligned lastAligned (tiled.aligned whole isNode)
  · intro page
    rw [eq, entryAt_insertInterval carved range free, entryAt_carve _ range]
    have isNew : covers ⟨start, last, entry⟩ (page * pageSize) = true
        ↔ InRange start last page := covers_iff
    by_cases inRange : InRange start last page
    · rw [if_pos (isNew.mpr inRange), if_pos inRange]
    · rw [if_neg fun covered => inRange (isNew.mp covered), if_neg inRange]
      exact if_neg inRange

theorem Tiled.removeRange (tiled : memdesc.Tiled) (entry : Option Nat) :
    (memdesc.removeRange start last entry).Tiled := by
  have eq := (@removeRange_eq _ start last tiled.ordered entry).1
  have kept : ∀ node ∈ (memdesc.removeRange start last entry).ranges, node ∈ memdesc.ranges := by
    rw [eq]
    exact fun node among => mem_of_mem_filter among
  constructor
  · rw [eq]
    exact ⟨tiled.ordered.pairwise.filter _,
      fun node among => tiled.ordered.proper node (mem_of_mem_filter among)⟩
  · exact fun node among => tiled.inside node (kept node among)
  · exact fun node among => tiled.aligned node (kept node among)

/-- A page loses its child if its interval is dropped. -/
theorem Tiled.entryAt_removeRange (tiled : memdesc.Tiled) (entry : Option Nat) (page : Nat) :
    entryAt (memdesc.removeRange start last entry).ranges (page * pageSize)
      = if ∃ node ∈ memdesc.ranges, Dropped start last entry node
          ∧ node.covers (page * pageSize) = true then none
        else entryAt memdesc.ranges (page * pageSize) := by
  have eq := (@removeRange_eq _ start last tiled.ordered entry).1
  have after := (@Tiled.removeRange _ start last tiled entry).ordered
  by_cases hit : ∃ node ∈ memdesc.ranges, Dropped start last entry node
      ∧ node.covers (page * pageSize) = true
  · rw [if_pos hit, Option.eq_none_iff_forall_ne_some]
    intro child found
    obtain ⟨node, among, isDropped, covered⟩ := hit
    obtain ⟨other, isOther, alsoCovered, _⟩ := after.entryAt_eq_some_iff.mp found
    rw [eq, mem_filter, decide_eq_true_eq] at isOther
    rw [tiled.ordered.eq_of_covers isOther.1 among alsoCovered covered] at isOther
    exact isOther.2 isDropped
  · rw [if_neg hit]
    apply Option.ext
    intro child
    rw [after.entryAt_eq_some_iff, tiled.ordered.entryAt_eq_some_iff, eq]
    constructor
    · rintro ⟨node, among, covered, same⟩
      exact ⟨node, mem_of_mem_filter among, covered, same⟩
    · rintro ⟨node, among, covered, same⟩
      refine ⟨node, mem_filter.mpr ⟨among, ?_⟩, covered, same⟩
      rw [decide_eq_true_eq]
      exact fun isDropped => hit ⟨node, among, isDropped, covered⟩

/-- An interval with the first byte of a page has the page. -/
theorem Tiled.entryAt_eq_some_iff (tiled : memdesc.Tiled) {page child : Nat} :
    entryAt memdesc.ranges (page * pageSize) = some child
      ↔ ∃ node ∈ memdesc.ranges, node.entry = child
        ∧ node.start ≤ page * pageSize ∧ (page + 1) * pageSize ≤ node.last + 1 := by
  rw [tiled.ordered.entryAt_eq_some_iff]
  constructor
  · rintro ⟨node, among, covered, same⟩
    have aligned := (tiled.aligned node among).2
    rw [covers_iff] at covered
    refine ⟨node, among, same, covered.1, ?_⟩
    unfold pageSize at *
    omega
  · rintro ⟨node, among, same, first, whole⟩
    refine ⟨node, among, ?_, same⟩
    rw [covers_iff]
    unfold pageSize at *
    omega

end Memdesc

/-! ## The refinement -/

/-- A turn of the loop of `kgsl_sharedmem_bind_worker`. -/
def Memdesc.bindStep (memdesc : Memdesc) : BindOp → Memdesc
  | .bind start last entry childOffset => memdesc.addRange start last entry childOffset
  | .unbind start last entry => memdesc.removeRange start last entry

/-- The mapping that a page map asks for. -/
def Memdesc.mappingOf (memdesc : Memdesc) : Option (Nat × Nat) → Mapping
  | some (child, offset) => .child child offset
  | none => memdesc.blank

/-- The buffer is what the page map says: its intervals are disjoint and inside the buffer,
a page is in an interval of the child that the map gives it to and in no other one, and it
is mapped to the child's page, or to none. -/
structure Implements (memdesc : Memdesc) (map : PageMap) : Prop where
  disjoint : memdesc.ranges.Pairwise Before
  inside : ∀ node ∈ memdesc.ranges, node.start ≤ node.last ∧ node.last < memdesc.size
  covered : ∀ page child, (∃ node ∈ memdesc.ranges, node.entry = child
      ∧ node.start ≤ page * pageSize ∧ (page + 1) * pageSize ≤ node.last + 1)
    ↔ (map page).map Prod.fst = some child
  mapped : ∀ page, memdesc.pagetable page = memdesc.mappingOf (map page)

/-- No interval that an unbind drops reaches out of its range. -/
def Memdesc.Whole (memdesc : Memdesc) : BindOp → Prop
  | .bind _ _ _ _ => True
  | .unbind start last entry => ∀ node ∈ memdesc.ranges, Dropped start last entry node →
      start ≤ node.start ∧ node.last ≤ last

instance (memdesc : Memdesc) (op : BindOp) : Decidable (memdesc.Whole op) :=
  match op with
  | .bind _ _ _ _ => .isTrue trivial
  | .unbind _ _ _ => inferInstanceAs (Decidable (∀ node ∈ memdesc.ranges, _ → _))

/-- The invariant of the refinement. -/
structure Refines (memdesc : Memdesc) (map : PageMap) : Prop where
  tiled : memdesc.Tiled
  covered : ∀ page, entryAt memdesc.ranges (page * pageSize) = (map page).map Prod.fst
  mapped : ∀ page, memdesc.pagetable page = memdesc.mappingOf (map page)

namespace Refines

variable {memdesc : Memdesc} {map : PageMap} {start last : Nat}

section

variable (refines : Refines memdesc map)

include refines

theorem implements : Implements memdesc map where
  disjoint := refines.tiled.ordered.pairwise
  inside node among := ⟨refines.tiled.ordered.proper node among, refines.tiled.inside node among⟩
  covered page child := by
    rw [← refines.covered, refines.tiled.entryAt_eq_some_iff]
  mapped := refines.mapped

theorem addRange {entry childOffset : Nat}
    (valid : (BindOp.bind start last entry childOffset).Valid memdesc.size) :
    Refines (memdesc.addRange start last entry childOffset)
      (pageStep map (.bind start last entry childOffset)) := by
  obtain ⟨tiled, covered⟩ := refines.tiled.insertRange valid
  refine ⟨⟨tiled.ordered, tiled.inside, tiled.aligned⟩, ?_, ?_⟩
  · intro page
    have at' := covered page
    by_cases inRange : InRange start last page
    · rw [if_pos inRange] at at'
      simp only [pageStep, if_pos inRange]
      exact at'
    · rw [if_neg inRange, refines.covered] at at'
      simp only [pageStep, if_neg inRange]
      exact at'
  · intro page
    have range := valid.1
    have isMapped := @pageIn_iff start last page range
    show mapChild _ _ _ _ _ page = _
    by_cases inRange : InRange start last page
    · simp only [pageStep, if_pos inRange]
      exact if_pos (isMapped.mpr inRange)
    · have kept := (insertRange_eq refines.tiled.ordered range entry).2 page inRange
      simp only [pageStep, if_neg inRange]
      rw [mapChild, if_neg fun mapped => inRange (isMapped.mp mapped), kept, refines.mapped]
      rfl

/-- A page is cleared if its interval is dropped, provided that no such interval reaches
out of the range. -/
theorem removeRange {entry : Option Nat} (whole : memdesc.Whole (.unbind start last entry)) :
    Refines (memdesc.removeRange start last entry) (pageStep map (.unbind start last entry)) := by
  have pages := (@removeRange_eq _ start last refines.tiled.ordered entry).2
  have owners := @Tiled.entryAt_removeRange _ start last refines.tiled entry
  -- The interval of a page is dropped exactly if the page is to be cleared.
  have dropped : ∀ page node, node ∈ memdesc.ranges → node.covers (page * pageSize) = true →
      (Dropped start last entry node
        ↔ InRange start last page ∧ (entry = none ∨ (map page).map Prod.fst = entry)) := by
    intro page node among covered
    have owner : (map page).map Prod.fst = some node.entry := by
      rw [← refines.covered]
      exact refines.tiled.ordered.entryAt_eq_some_iff.mpr ⟨node, among, covered, rfl⟩
    rw [covers_iff] at covered
    rw [owner, @eq_comm _ _ entry]
    constructor
    · intro isDropped
      have inside := whole node among isDropped
      exact ⟨⟨by omega, by omega⟩, isDropped.2⟩
    · rintro ⟨inRange, isChild⟩
      unfold InRange at inRange
      refine ⟨?_, isChild⟩
      rw [overlaps_iff]
      omega
  have cleared : ∀ page, pageStep map (.unbind start last entry) page
      = if ∃ node ∈ memdesc.ranges, Dropped start last entry node
          ∧ node.covers (page * pageSize) = true then none else map page := by
    intro page
    by_cases hit : ∃ node ∈ memdesc.ranges, Dropped start last entry node
        ∧ node.covers (page * pageSize) = true
    · rw [if_pos hit]
      obtain ⟨node, among, isDropped, covered⟩ := hit
      exact if_pos ((dropped page node among covered).mp isDropped)
    · dsimp only [pageStep]
      split_ifs with concerned
      · cases owned : map page with
        | none => rfl
        | some owner =>
          have found : entryAt memdesc.ranges (page * pageSize) = some owner.1 := by
            rw [refines.covered, owned]
            rfl
          obtain ⟨node, among, covered, _⟩ :=
            refines.tiled.ordered.entryAt_eq_some_iff.mp found
          exact absurd ⟨node, among, (dropped page node among covered).mpr concerned, covered⟩ hit
      · rfl
  refine ⟨refines.tiled.removeRange entry, fun page => ?_, fun page => ?_⟩
  · rw [owners, cleared]
    split_ifs
    · rfl
    · exact refines.covered page
  · rw [pages, cleared]
    split_ifs
    · rfl
    · exact refines.mapped page

/-- One operation on the buffer and on the page map. -/
theorem step {op : BindOp} (valid : op.Valid memdesc.size)
    (whole : memdesc.Whole op) : Refines (memdesc.bindStep op) (pageStep map op) := by
  cases op with
  | bind start last entry childOffset => exact refines.addRange valid
  | unbind start last entry => exact refines.removeRange whole

/-- An unbind that drops an interval which reaches out of its range unbinds a page that it
does not concern. -/
theorem whole_of_implements {op : BindOp} (valid : op.Valid memdesc.size)
    (implements : Implements (memdesc.bindStep op) (pageStep map op)) : memdesc.Whole op := by
  cases op with
  | bind start last entry childOffset => trivial
  | unbind start last entry =>
    intro node among isDropped
    obtain ⟨startAligned, lastAligned⟩ := refines.tiled.aligned node among
    obtain ⟨range, _, _, endAligned⟩ := valid
    have hit := overlaps_iff.mp isDropped.1
    by_contra reaches
    -- The first page of the interval, or else the first one behind the range.
    obtain ⟨page, covered, apart⟩ : ∃ page, node.covers (page * pageSize) = true
        ∧ ¬InRange start last page := by
      unfold InRange
      unfold pageSize at *
      by_cases before : node.start < start
      · refine ⟨node.start / 4096, covers_iff.mpr ?_, ?_⟩ <;> omega
      · refine ⟨(last + 1) / 4096, covers_iff.mpr ?_, ?_⟩ <;> omega
    have owner : (map page).map Prod.fst = some node.entry := by
      rw [← refines.covered]
      exact refines.tiled.ordered.entryAt_eq_some_iff.mpr ⟨node, among, covered, rfl⟩
    have kept : (pageStep map (.unbind start last entry) page).map Prod.fst = some node.entry := by
      simp only [pageStep, if_neg fun cleared => apart (And.left cleared), owner]
    obtain ⟨other, isOther, _, first, whole⟩ := (implements.covered page node.entry).mpr kept
    have ranges := (@removeRange_eq _ start last refines.tiled.ordered entry).1
    rw [show (memdesc.bindStep (.unbind start last entry)).ranges
      = (memdesc.removeRange start last entry).ranges from rfl, ranges, mem_filter,
      decide_eq_true_eq] at isOther
    have alsoCovered : other.covers (page * pageSize) = true := by
      rw [covers_iff]
      unfold pageSize at *
      omega
    rw [refines.tiled.ordered.eq_of_covers isOther.1 among alsoCovered covered] at isOther
    exact isOther.2 isDropped

end

end Refines

theorem refines_new (size : Nat) (noMapZero : Bool) :
    Refines (new size noMapZero) fun _ => none where
  tiled := tiled_new size noMapZero
  covered _ := rfl
  mapped _ := rfl

@[simp]
theorem Memdesc.bindStep_size (memdesc : Memdesc) (op : BindOp) :
    (memdesc.bindStep op).size = memdesc.size := by
  cases op <;> rfl

/-- The intervals are whole pages of the target, and a page is mapped to the child whose interval
it is in, or to none. -/
structure Agrees (target : BufferInfo) (memdesc : Memdesc) : Prop where
  size : memdesc.size = target.size.toNat
  tiled : memdesc.Tiled
  pages : ∀ page, ∃ offset, memdesc.pagetable page
    = memdesc.mappingOf ((entryAt memdesc.ranges (page * pageSize)).map (·, offset))

/-- Accepted operations keep both in agreement, also an unbind that drops too much. -/
theorem agrees_of_accepted {target : BufferInfo} {noMapZero : Bool} {memdesc : Memdesc}
    (reached : Reaches (guarded
      (fun _ op => ∃ findId range, createBindOp target findId range = .ok op) bindStep)
      (.new target.size.toNat noMapZero) memdesc) : Agrees target memdesc := by
  refine reached.invariant ⟨rfl, tiled_new _ _, fun _ => ⟨0, rfl⟩⟩ ?_
  rintro source op _ ⟨size, tiled, pages⟩ ⟨⟨findId, range, created⟩, rfl⟩
  have valid := BindOp.valid_of_createBindOp created
  rw [← size] at valid
  cases op with
  | bind start last entry childOffset =>
    obtain ⟨after, owners⟩ := tiled.insertRange valid
    refine ⟨size, ⟨after.ordered, after.inside, after.aligned⟩, fun page => ?_⟩
    have isMapped := @pageIn_iff start last page valid.1
    simp only [bindStep, addRange, mapRange, owners, mapChild]
    by_cases inRange : InRange start last page
    · rw [if_pos inRange, if_pos (isMapped.mpr inRange)]
      exact ⟨_, rfl⟩
    · rw [if_neg inRange, if_neg fun mapped => inRange (isMapped.mp mapped),
        (insertRange_eq tiled.ordered valid.1 entry).2 page inRange]
      exact pages page
  | unbind start last entry =>
    refine ⟨size, tiled.removeRange entry, fun page => ?_⟩
    rw [bindStep, (removeRange_eq tiled.ordered entry).2, tiled.entryAt_removeRange]
    split_ifs
    · exact ⟨0, rfl⟩
    · exact pages page

theorem agrees_oneBind :
    Agrees ⟨16384, true, false⟩ ([BindOp.bind 4096 8191 5 0].foldl bindStep (.new 16384 false)) :=
  agrees_of_accepted (Reaches.foldl ⟨⟨fun _ => some ⟨8192, false, false⟩,
    ⟨0, 4096, 4096, 5, kgslGpumemRangeOpBind⟩, by decide +kernel⟩, trivial⟩)

theorem implements_iff {memdesc : Memdesc} {map : PageMap} (refines : Refines memdesc map)
    {ops : List BindOp} (valid : ∀ op ∈ ops, op.Valid memdesc.size) :
    (∀ n, Implements ((ops.take n).foldl bindStep memdesc) ((ops.take n).foldl pageStep map))
      ↔ Allowed Whole bindStep memdesc ops := by
  induction ops generalizing memdesc map with
  | nil =>
    constructor
    · exact fun _ => trivial
    · intro _ n
      rw [take_nil]
      exact refines.implements
  | cons op ops ih =>
    have validOp := valid op mem_cons_self
    have validRest : ∀ other ∈ ops, other.Valid (memdesc.bindStep op).size := by
      rw [bindStep_size]
      exact fun other among => valid other (mem_cons_of_mem op among)
    constructor
    · intro implements
      have whole := refines.whole_of_implements validOp (implements 1)
      exact ⟨whole, (ih (refines.step validOp whole) validRest).mp fun n => implements (n + 1)⟩
    · rintro ⟨whole, rest⟩ n
      cases n with
      | zero => exact refines.implements
      | succ n => exact (ih (refines.step validOp whole) validRest).mpr rest n

/-- A sequence of valid operations on a new buffer keeps to the page map all along if and
only if no unbind of it drops an interval that reaches out of its range. -/
theorem implements_iff_whole {size : Nat} {noMapZero : Bool} {ops : List BindOp}
    (valid : ∀ op ∈ ops, op.Valid size) :
    (∀ n, Implements ((ops.take n).foldl bindStep (.new size noMapZero))
        ((ops.take n).foldl pageStep fun _ => none))
      ↔ Allowed Whole bindStep (.new size noMapZero) ops :=
  implements_iff (refines_new size noMapZero) valid

/-- A bind of three pages is split by a bind of another child in its middle; the first part
is unbound, then all that is left of both. -/
def sampleOps : List BindOp :=
  [.bind 0 12287 5 4096, .bind 4096 8191 6 0, .unbind 0 4095 (some 5), .unbind 0 16383 none]

theorem implements_sampleOps :
    Allowed Whole bindStep (.new 16384 true) sampleOps
      ∧ ∀ n, Implements ((sampleOps.take n).foldl bindStep (.new 16384 true))
          ((sampleOps.take n).foldl pageStep fun _ => none) := by
  have whole : Allowed Whole bindStep (.new 16384 true) sampleOps :=
    ⟨trivial, trivial, by decide +kernel, by decide +kernel, trivial⟩
  exact ⟨whole, (@implements_iff_whole 16384 true sampleOps (by decide)).mpr whole⟩

/-- The unbind of the first of two pages takes the second one along. -/
theorem not_implements :
    ¬∀ (size : Nat) (noMapZero : Bool) (ops : List BindOp), pageSize ∣ size →
      (∀ op ∈ ops, op.Valid size) →
      Implements (ops.foldl bindStep (.new size noMapZero))
        (ops.foldl pageStep fun _ => none) := by
  intro implements
  have wrong := implements 16384 false [.bind 0 8191 5 0, .unbind 0 4095 (some 5)]
    (by decide) (by decide)
  obtain ⟨node, among, _⟩ := (wrong.covered 1 5).mpr (by decide +kernel)
  exact absurd among not_mem_nil

end Sm8650.Kgsl
