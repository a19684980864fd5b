import Mathlib.Data.List.GetD
import Sm8650.Fastrpc.Invocation

/-!
# Packing the arguments of a FastRPC call

The buffers of a call that are not mapped are copied into one area. A first pass over the
buffers, sorted by their addresses, finds how far each one lies in what comes before it; a
second pass adds up the sizes, and a third one places the buffers. The first pass does not
know which buffers are mapped.

Buffers that overlap keep their distance: the copied ones fall into groups, each of which goes
to the area in one piece.

Source: `adsprpc.c`.
-/

namespace Sm8650.Fastrpc

open List

/-! ## The code -/

/-- `struct overlap`; `stop` is its `end`. -/
structure Overlap where
  start : Nat
  stop : Nat
  raix : Nat
  mstart : Nat
  mend : Nat
  offset : Nat
  doCmo : Bool

/-- The record of a buffer before the records are sorted. -/
def rawOverlap (raix : Nat) (buf : RemoteBuf) : Overlap :=
  { start := buf.pv.toNat, stop := (buf.pv + buf.len).toNat, raix := raix
    mstart := 0, mend := 0, offset := 0, doCmo := false }

/-- The address test of `context_build_overlap`. -/
def RemoteBuf.accepted (buf : RemoteBuf) : Bool :=
  buf.len == 0 || decide (buf.pv < buf.pv + buf.len)

/-- `CMP`. -/
def cmp (first second : Nat) : Int :=
  if first = second then 0 else if first < second then -1 else 1

/-- `overlap_ptr_cmp`. -/
def overlapPtrCmp (a b : Overlap) : Int :=
  if cmp a.start b.start = 0 then cmp b.stop a.stop else cmp a.start b.start

/-- What `sort` leaves in `overps`. -/
structure Sorted (lpra : List RemoteBuf) (overps : List Overlap) : Prop where
  perm : overps.Perm (lpra.mapIdx rawOverlap)
  ordered : overps.Pairwise fun a b => overlapPtrCmp a b ≤ 0

/-- The second loop of `context_build_overlap`: the record, and `max` behind it. -/
def markOverlap (inbufs : Nat) (max overp : Overlap) : Overlap × Overlap :=
  if overp.start < max.stop then
    let overp := { overp with offset := max.stop - overp.start }
    if overp.stop > max.stop then
      ({ overp with mstart := max.stop, mend := overp.stop }, { max with stop := overp.stop })
    else
      ({ overp with
          mstart := 0
          mend := 0
          doCmo := overp.doCmo || (max.raix < inbufs && overp.raix + 1 > inbufs) ||
            (overp.raix < inbufs && max.raix + 1 > inbufs) }, max)
  else
    let overp := { overp with mstart := overp.start, mend := overp.stop, offset := 0 }
    (overp, overp)

def markOverlaps (inbufs : Nat) (max : Overlap) : List Overlap → List Overlap
  | [] => []
  | overp :: overps =>
    (markOverlap inbufs max overp).1 :: markOverlaps inbufs (markOverlap inbufs max overp).2 overps

/-- `BALIGN`. -/
def balign : Nat := 128

/-- `ALIGN` to `BALIGN`. -/
def align (n : Nat) : Nat := (n + (balign - 1)) / balign * balign

/-- The difference of two `size_t`. -/
def subSize (first second : Nat) : Nat := (first + (2 ^ 64 - second)) % 2 ^ 64

/-- `LONG_MAX`. -/
def longMax : Nat := 2 ^ 63 - 1

/-- The loop of `get_args` that adds up `copylen`, over the buffers that are copied. -/
def copyLength (copied : Nat → Bool) : List Overlap → Nat → Option Nat
  | [], copylen => some copylen
  | overp :: overps, copylen =>
    if copied overp.raix then
      let copylen := if overp.offset = 0 then align copylen else copylen
      let templen := subSize overp.mend overp.mstart
      if templen ≤ longMax ∧ copylen ≤ longMax - templen then
        copyLength copied overps (copylen + templen)
      else none
    else copyLength copied overps copylen

/-- The loop of `get_args` that copies, with the addresses it writes into `rpra`. -/
def placeBufs (copied : Nat → Bool) : List Overlap → Nat → Nat → Option (List (Nat × Nat))
  | [], _, _ => some []
  | overp :: overps, args, rlen =>
    if copied overp.raix then
      let rlen := if overp.offset = 0 then subSize rlen (align args - args) else rlen
      let args := if overp.offset = 0 then align args else args
      let mlen := subSize overp.mend overp.mstart
      if rlen ≥ mlen then
        (placeBufs copied overps (args + mlen) (subSize rlen mlen)).map
          ((overp.raix, subSize args overp.offset) :: ·)
      else none
    else placeBufs copied overps args rlen

/-- The size of the metadata of a call with so many arguments. -/
def metaLength (args : Nat) : Nat := 40 * args + 8 * mFdlist + 4 * 64 + 8 * 12 + 4

/-- `buf_page_size`. -/
def bufPageSize (size : Nat) : Nat :=
  max ((size % 2 ^ 32 + 4095) / 4096 * 4096) 4096

/-- Where the copies go: `args`, `rlen`, and the ends of the area. -/
structure CopyArea where
  args : Nat
  rlen : Nat
  start : Nat
  stop : Nat

/-- The copies share the buffer of the metadata if they fit behind it. -/
def copyArea (metalen copylen virt copyVirt : Nat) : CopyArea :=
  let totallen := align metalen + copylen
  if totallen ≤ bufPageSize metalen then
    ⟨virt + metalen, subSize totallen metalen, virt + metalen, virt + bufPageSize metalen⟩
  else if copylen ≠ 0 then ⟨copyVirt, copylen, copyVirt, copyVirt + copylen⟩
  else ⟨0, 0, 0, 0⟩

/-- A call: its buffers, how many of them are inputs, the number of its handles, and which
buffers have a map. -/
structure PackCall where
  lpra : List RemoteBuf
  inbufs : Nat
  handles : Nat
  mapped : Nat → Bool

namespace PackCall

def buf (call : PackCall) (i : Nat) : RemoteBuf := call.lpra.getD i ⟨0, 0, 0, 0⟩

def start (call : PackCall) (i : Nat) : Nat := (call.buf i).pv.toNat

def len (call : PackCall) (i : Nat) : Nat := (call.buf i).len.toNat

def stop (call : PackCall) (i : Nat) : Nat := call.start i + call.len i

/-- The buffers that are copied: not empty and not mapped. -/
def copied (call : PackCall) (i : Nat) : Bool := call.len i != 0 && !call.mapped i

def metalen (call : PackCall) : Nat := metaLength (call.lpra.length + call.handles)

/-- The records behind `context_build_overlap`. -/
def marked (call : PackCall) (overps : List Overlap) : List Overlap :=
  markOverlaps call.inbufs (rawOverlap 0 ⟨0, 0, 0, 0⟩) overps

/-- The part of `get_args` that packs the buffers; `none` is `-EFAULT`. -/
def getArgs (call : PackCall) (overps : List Overlap) (virt copyVirt : Nat) :
    Option (List (Nat × Nat)) := do
  let copylen ← copyLength call.copied (call.marked overps) 0
  let area := copyArea call.metalen copylen virt copyVirt
  placeBufs call.copied (call.marked overps) area.args area.rlen

/-! ## What it is for -/

/-- Two copied buffers overlap. -/
def Meets (call : PackCall) (i j : Nat) : Prop :=
  call.copied i = true ∧ call.copied j = true ∧
    call.start i < call.stop j ∧ call.start j < call.stop i

/-- Two buffers overlap directly or through a chain of copied ones. -/
def Chained (call : PackCall) : Nat → Nat → Prop := Relation.ReflTransGen call.Meets

/-- Every copied buffer has a place in the area; two of them keep their distance where they are
chained and have disjoint places otherwise. -/
structure Packs (call : PackCall) (area : CopyArea) (placed : List (Nat × Nat)) : Prop where
  all : ∀ i, call.copied i = true → ∃ pv, (i, pv) ∈ placed
  inside : ∀ i pv, (i, pv) ∈ placed → area.start ≤ pv ∧ pv + call.len i ≤ area.stop
  together : ∀ i pv j pv', (i, pv) ∈ placed → (j, pv') ∈ placed → call.Chained i j →
    pv + call.start j = pv' + call.start i
  apart : ∀ i pv j pv', (i, pv) ∈ placed → (j, pv') ∈ placed → ¬call.Chained i j →
    pv + call.len i ≤ pv' ∨ pv' + call.len j ≤ pv

/-- Where a copied buffer starts before the end of a buffer that is sorted before it, a copied
one that is sorted before it reaches as far. -/
def Covered (call : PackCall) (overps : List Overlap) : Prop :=
  ∀ before overp after, overps = before ++ overp :: after → call.copied overp.raix = true →
    ∀ other ∈ before, overp.start < other.stop →
      ∃ cover ∈ before, call.copied cover.raix = true ∧ other.stop ≤ cover.stop

end PackCall

/-! ## Arithmetic -/

theorem subSize_of_le {first second : Nat} (less : second ≤ first) (small : first < 2 ^ 64) :
    subSize first second = first - second := by
  unfold subSize
  omega

theorem le_align (n : Nat) : n ≤ align n := by
  unfold align balign
  omega

theorem align_add {base n : Nat} (aligned : balign ∣ base) : align (base + n) = base + align n := by
  unfold balign at aligned
  unfold align balign
  omega

theorem align_of_dvd {base : Nat} (aligned : balign ∣ base) : align base = base := by
  unfold balign at aligned
  unfold align balign
  omega

/-- What a record says: how far it lies in what comes before, and how much it adds to it. -/
theorem markOverlap_spec (inbufs : Nat) {max overp : Overlap} (ordered : overp.start ≤ overp.stop)
    (small : overp.stop < 2 ^ 64) :
    (markOverlap inbufs max overp).1.raix = overp.raix ∧
      (markOverlap inbufs max overp).1.offset = max.stop - overp.start ∧
      subSize (markOverlap inbufs max overp).1.mend (markOverlap inbufs max overp).1.mstart =
        (Max.max overp.stop max.stop) - (Max.max overp.start max.stop) ∧
      (markOverlap inbufs max overp).2.stop = Max.max overp.stop max.stop := by
  unfold markOverlap
  split
  · dsimp only
    split
    · refine ⟨rfl, rfl, ?_, ?_⟩
      · change subSize overp.stop max.stop = _
        rw [subSize_of_le (by omega) small]
        omega
      · dsimp only
        omega
    · refine ⟨rfl, rfl, ?_, ?_⟩
      · rw [subSize_of_le (Nat.le_refl 0) (by decide)]
        omega
      · change max.stop = _
        omega
  · refine ⟨rfl, ?_, ?_, ?_⟩
    · dsimp only
      omega
    · rw [subSize_of_le ordered small]
      omega
    · dsimp only
      omega

theorem start_le_of_overlapPtrCmp {a b : Overlap} (before : overlapPtrCmp a b ≤ 0) :
    a.start ≤ b.start := by
  unfold overlapPtrCmp cmp at before
  split_ifs at before <;> omega

/-- The area that is needed only grows. -/
theorem le_of_copyLength {copied : Nat → Bool} {overps : List Overlap} {copylen total : Nat}
    (sized : copyLength copied overps copylen = some total) : copylen ≤ total := by
  induction overps generalizing copylen with
  | nil => exact Nat.le_of_eq (Option.some.inj sized)
  | cons overp overps ih =>
    rw [copyLength] at sized
    split at sized
    · dsimp only at sized
      have grown : copylen ≤ if overp.offset = 0 then align copylen else copylen := by
        have grown := le_align copylen
        split <;> omega
      generalize (if overp.offset = 0 then align copylen else copylen) = start at sized grown
      split at sized
      · have rest := ih sized
        omega
      · cases sized
    · exact ih sized

namespace PackCall

variable {call : PackCall}

/-! ## Chains -/

theorem Meets.symm {i j : Nat} (meets : call.Meets i j) : call.Meets j i :=
  ⟨meets.2.1, meets.1, meets.2.2.2, meets.2.2.1⟩

theorem Chained.symm {i j : Nat} (chained : call.Chained i j) : call.Chained j i := by
  induction chained with
  | refl => exact Relation.ReflTransGen.refl
  | tail _ meets ih => exact ih.head meets.symm

/-- No copied buffer lies across the address. -/
def Separates (call : PackCall) (cut : Nat) : Prop :=
  ∀ i, call.copied i = true → call.stop i ≤ cut ∨ cut ≤ call.start i

/-- A chain stays on its side. -/
theorem Separates.stop_le {cut i j : Nat} (separates : call.Separates cut)
    (chained : call.Chained i j) (before : call.stop i ≤ cut) : call.stop j ≤ cut := by
  induction chained with
  | refl => exact before
  | tail _ meets ih =>
    obtain ⟨_, copied, _, reaches⟩ := meets
    rcases separates _ copied with before | behind
    · exact before
    · omega

/-! ## The records -/

theorem len_pos {i : Nat} (copied : call.copied i = true) : 0 < call.len i := by
  have nonempty := (Bool.and_eq_true_iff.mp copied).1
  exact Nat.pos_of_ne_zero (bne_iff_ne.mp nonempty)

theorem lt_length {i : Nat} (copied : call.copied i = true) : i < call.lpra.length := by
  by_contra outside
  have nonempty := len_pos copied
  rw [len, buf, getD_eq_default _ _ (Nat.le_of_not_lt outside)] at nonempty
  exact absurd nonempty (by decide)

section Sorted

variable {overps : List Overlap} (sorted : Sorted call.lpra overps)

include sorted

theorem mem_overps {overp : Overlap} (listed : overp ∈ overps) :
    overp = rawOverlap overp.raix (call.buf overp.raix) ∧ overp.raix < call.lpra.length := by
  obtain ⟨i, inside, rfl⟩ := mem_mapIdx.mp (sorted.perm.mem_iff.mp listed)
  have same : call.buf i = call.lpra[i] := getD_eq_getElem _ _ inside
  exact ⟨congrArg (rawOverlap i) same.symm, inside⟩

theorem exists_record {i : Nat} (copied : call.copied i = true) :
    ∃ overp ∈ overps, overp.raix = i :=
  ⟨_, sorted.perm.mem_iff.mpr (mem_mapIdx.mpr ⟨i, lt_length copied, rfl⟩), rfl⟩

theorem start_eq {overp : Overlap} (listed : overp ∈ overps) :
    overp.start = call.start overp.raix :=
  congrArg Overlap.start (mem_overps sorted listed).1

theorem ordered {overp : Overlap} (accepted : ∀ buf ∈ call.lpra, buf.accepted = true)
    (listed : overp ∈ overps) : overp.stop = call.stop overp.raix ∧ overp.stop < 2 ^ 64 := by
  obtain ⟨same, inside⟩ := mem_overps sorted listed
  have isBuf : call.buf overp.raix ∈ call.lpra := by
    rw [buf, getD_eq_getElem _ _ inside]
    exact getElem_mem inside
  have passed := accepted _ isBuf
  have stopEq : overp.stop = (call.buf overp.raix).pv.toNat.add
      (call.buf overp.raix).len.toNat % 2 ^ 64 := by
    rw [congrArg Overlap.stop same]
    exact BitVec.toNat_add _ _
  unfold stop start len
  unfold RemoteBuf.accepted at passed
  rw [Bool.or_eq_true, beq_iff_eq, decide_eq_true_eq, BitVec.lt_def, BitVec.toNat_add] at passed
  have pvSmall := (call.buf overp.raix).pv.isLt
  rw [stopEq]
  refine ⟨?_, Nat.mod_lt _ (by decide)⟩
  rcases passed with empty | grows
  · rw [empty]
    exact Nat.mod_eq_of_lt pvSmall
  · simp only [Nat.add_eq]
    omega

end Sorted

/-! ## The buffers that are placed -/

/-- Two places fit to each other. -/
def Fit (call : PackCall) (i pv j pv' : Nat) : Prop :=
  (call.Chained i j → pv + call.start j = pv' + call.start i) ∧
    (¬call.Chained i j → pv + call.len i ≤ pv' ∨ pv' + call.len j ≤ pv)

theorem Fit.symm {i pv j pv' : Nat} (fit : call.Fit i pv j pv') : call.Fit j pv' i pv :=
  ⟨fun chained => (fit.1 chained.symm).symm,
    fun notChained => (fit.2 fun chained => notChained chained.symm).symm⟩

/-- The last group: it starts at the address `cut`, reaches to `reach` and goes to the area from
`origin` to `args`. What is placed is in the group, or lies and is placed before it. -/
structure Group (call : PackCall) (base cut origin reach args head : Nat)
    (placed : List (Nat × Nat)) : Prop where
  base_le : base ≤ origin
  cut_le : cut ≤ reach
  span : origin + reach = args + cut
  separates : call.Separates cut
  reached : ∃ i pv, (i, pv) ∈ placed ∧ cut ≤ call.start i ∧ call.stop i = reach
  sides : ∀ i pv, (i, pv) ∈ placed → call.copied i = true ∧
    ((call.stop i ≤ cut ∧ base ≤ pv ∧ pv + call.len i ≤ origin) ∨
      (cut ≤ call.start i ∧ call.stop i ≤ reach ∧ pv + reach = args + call.start i ∧
        call.Chained head i))

namespace Group

variable {base cut origin reach args head : Nat} {placed : List (Nat × Nat)}

theorem inside (group : call.Group base cut origin reach args head placed) {i pv : Nat}
    (among : (i, pv) ∈ placed) : base ≤ pv ∧ pv + call.len i ≤ args := by
  obtain ⟨base_le, cut_le, span, _, _, sides⟩ := group
  obtain ⟨_, ⟨_, _, _⟩ | ⟨_, ends, _, _⟩⟩ := sides i pv among
  · omega
  · unfold stop at ends
    omega

/-- A buffer of the group fits to everything. -/
theorem fit (group : call.Group base cut origin reach args head placed) {i pv j pv' : Nat}
    (among : (i, pv) ∈ placed) (among' : (j, pv') ∈ placed) (member : cut ≤ call.start j) :
    call.Fit i pv j pv' := by
  have span := group.span
  obtain ⟨copied', ⟨ends, _⟩ | ⟨_, _, place', chained'⟩⟩ := group.sides j pv' among'
  · have nonempty := len_pos copied'
    unfold stop at ends
    omega
  obtain ⟨copied, ⟨ends, _, place⟩ | ⟨_, _, place, chained⟩⟩ := group.sides i pv among
  · refine ⟨fun chained => ?_, fun _ => .inl (by omega)⟩
    have ends' := group.separates.stop_le chained ends
    have nonempty := len_pos copied'
    unfold stop at ends'
    omega
  · exact ⟨fun _ => by omega, fun notChained => absurd (chained.symm.trans chained') notChained⟩

end Group

/-- The state between two buffers. -/
structure Placing (call : PackCall) (base : Nat) (before : List Overlap) (top copylen args : Nat)
    (placed : List (Nat × Nat)) : Prop where
  top_le : ∀ other ∈ before, other.stop ≤ top
  top_mem : top = 0 ∨ ∃ other ∈ before, other.stop = top
  aligned : align args = base + align copylen
  known : ∀ overp ∈ before, call.copied overp.raix = true → ∃ pv, (overp.raix, pv) ∈ placed
  isRecord : ∀ i pv, (i, pv) ∈ placed → ∃ overp ∈ before, overp.raix = i
  fit : ∀ i pv j pv', (i, pv) ∈ placed → (j, pv') ∈ placed → call.Fit i pv j pv'
  group : placed = [] ∨ args = base + copylen ∧
    ∃ cut origin reach head, call.Group base cut origin reach args head placed

namespace Placing

variable {base top copylen args : Nat} {overps before after : List Overlap} {overp : Overlap}
  {placed : List (Nat × Nat)}

section

variable (placing : call.Placing base before top copylen args placed)

include placing

theorem top_append (overp : Overlap) :
    (∀ other ∈ before ++ [overp], other.stop ≤ max overp.stop top) ∧
      (max overp.stop top = 0 ∨ ∃ other ∈ before ++ [overp], other.stop = max overp.stop top) := by
  constructor
  · intro other among
    obtain among | last := mem_append.mp among
    · exact Nat.le_trans (placing.top_le other among) (Nat.le_max_right _ _)
    · obtain rfl := mem_singleton.mp last
      exact Nat.le_max_left _ _
  · rcases Nat.le_total top overp.stop with less | more
    · exact .inr ⟨overp, mem_append_right _ (mem_singleton_self _), (Nat.max_eq_left less).symm⟩
    · rw [Nat.max_eq_right more]
      exact placing.top_mem.imp_right fun ⟨other, among, same⟩ =>
        ⟨other, mem_append_left _ among, same⟩

/-- A buffer that is not copied. -/
theorem skip (notCopied : ¬call.copied overp.raix = true) :
    call.Placing base (before ++ [overp]) (max overp.stop top) copylen args placed where
  top_le := (placing.top_append overp).1
  top_mem := (placing.top_append overp).2
  aligned := placing.aligned
  known := by
    intro other among copied
    obtain among | last := mem_append.mp among
    · exact placing.known other among copied
    · obtain rfl := mem_singleton.mp last
      exact absurd copied notCopied
  isRecord i pv among := by
    obtain ⟨other, listed, same⟩ := placing.isRecord i pv among
    exact ⟨other, mem_append_left _ listed, same⟩
  fit := placing.fit
  group := placing.group

/-- A buffer that is placed in the last group. -/
theorem extend (basis : balign ∣ base) {copylen' cut origin reach head pv : Nat}
    (group : call.Group base cut origin reach (base + copylen') head (placed ++ [(overp.raix, pv)]))
    (member : cut ≤ call.start overp.raix) :
    call.Placing base (before ++ [overp]) (max overp.stop top) copylen' (base + copylen')
      (placed ++ [(overp.raix, pv)]) where
  top_le := (placing.top_append overp).1
  top_mem := (placing.top_append overp).2
  aligned := align_add basis
  known := by
    intro other among copied
    obtain among | last := mem_append.mp among
    · obtain ⟨pv, among⟩ := placing.known other among copied
      exact ⟨pv, mem_append_left _ among⟩
    · obtain rfl := mem_singleton.mp last
      exact ⟨pv, mem_append_right _ (mem_singleton_self _)⟩
  isRecord := by
    intro i pv' among
    obtain among | last := mem_append.mp among
    · obtain ⟨other, listed, same⟩ := placing.isRecord i pv' among
      exact ⟨other, mem_append_left _ listed, same⟩
    · obtain ⟨rfl, _⟩ := Prod.mk.inj (mem_singleton.mp last)
      exact ⟨overp, mem_append_right _ (mem_singleton_self _), rfl⟩
  fit := by
    intro i pv₁ j pv₂ among among'
    have isMember : ∀ {k pv₃ : Nat}, (k, pv₃) ∈ [(overp.raix, pv)] → cut ≤ call.start k := by
      intro k pv₃ last
      obtain ⟨rfl, _⟩ := Prod.mk.inj (mem_singleton.mp last)
      exact member
    rcases mem_append.mp among' with old' | new'
    · rcases mem_append.mp among with old | new
      · exact placing.fit i pv₁ j pv₂ old old'
      · exact (group.fit among' among (isMember new)).symm
    · exact group.fit among among' (isMember new')
  group := .inr ⟨rfl, cut, origin, reach, head, group⟩

end

/-! ### The next buffer that is copied -/

variable (sorted : Sorted call.lpra overps) (accepted : ∀ buf ∈ call.lpra, buf.accepted = true)
  (parts : overps = before ++ overp :: after) (copied : call.copied overp.raix = true)
  (placing : call.Placing base before top copylen args placed) (basis : balign ∣ base)

include sorted parts in
theorem start_le : (∀ other ∈ before, other.start ≤ overp.start) ∧
    ∀ other ∈ after, overp.start ≤ other.start := by
  have ordered := sorted.ordered
  rw [parts] at ordered
  obtain ⟨_, ordered, across⟩ := pairwise_append.mp ordered
  exact ⟨fun other among => start_le_of_overlapPtrCmp (across other among overp mem_cons_self),
    fun other among => start_le_of_overlapPtrCmp (rel_of_pairwise_cons ordered among)⟩

include sorted accepted parts copied placing basis

/-- A buffer that starts before the end of what comes before it goes to the last group. -/
theorem joins (covered : call.Covered overps) (joined : overp.start < top)
    (room : base + (copylen + (max overp.stop top - top)) < 2 ^ 64) :
    args = base + copylen ∧ call.Placing base (before ++ [overp]) (max overp.stop top)
      (copylen + (max overp.stop top - top)) (base + (copylen + (max overp.stop top - top)))
      (placed ++ [(overp.raix, subSize args (top - overp.start))]) := by
  have listed : ∀ other ∈ before, other ∈ overps := fun other among =>
    parts ▸ mem_append_left _ among
  have isListed : overp ∈ overps := parts ▸ mem_append_right _ mem_cons_self
  have startEq := start_eq sorted isListed
  have stopEq := (ordered sorted accepted isListed).1
  obtain ⟨other, isOther, isTop⟩ := placing.top_mem.resolve_left (by omega)
  obtain ⟨cover, isCover, coverCopied, covers⟩ :=
    covered before overp after parts copied other isOther (isTop ▸ joined)
  obtain ⟨pv, isPlaced⟩ := placing.known cover isCover coverCopied
  obtain ⟨argsEq, cut, origin, reach, head, group⟩ :=
    placing.group.resolve_left (ne_nil_of_mem isPlaced)
  obtain ⟨base_le, cut_le, span, separates, ⟨u, pvU, uPlaced, uStart, uStop⟩, sides⟩ := group
  obtain ⟨uCopied, uSides⟩ := sides u pvU uPlaced
  obtain ⟨uRecord, uBefore, rfl⟩ := placing.isRecord u pvU uPlaced
  have uStop' := (ordered sorted accepted (listed _ uBefore)).1
  have uStartEq := start_eq sorted (listed _ uBefore)
  have uOrder := (start_le sorted parts).1 _ uBefore
  -- What reaches farthest is a buffer of the last group.
  have isReach : reach = top := by
    have coverStop := (ordered sorted accepted (listed _ isCover)).1
    have less := placing.top_le _ uBefore
    rcases (sides _ _ isPlaced).2 with ⟨ends, _⟩ | ⟨_, ends, _⟩ <;> omega
  have nonempty := len_pos copied
  have meets : call.Meets uRecord.raix overp.raix := by
    refine ⟨uCopied, copied, ?_, ?_⟩
    · unfold stop
      omega
    · omega
  have uChained : call.Chained head uRecord.raix := by
    rcases uSides with ⟨ends, _⟩ | ⟨_, _, _, chained⟩
    · have uNonempty := len_pos uCopied
      omega
    · exact chained
  have place : subSize args (top - overp.start) = args - (top - overp.start) :=
    subSize_of_le (by omega) (by omega)
  have group : call.Group base cut origin (max overp.stop top)
      (base + (copylen + (max overp.stop top - top))) head
      (placed ++ [(overp.raix, subSize args (top - overp.start))]) := by
    refine ⟨base_le, by omega, by omega, separates, ?_, fun i pv among => ?_⟩
    · rcases Nat.le_total overp.stop top with less | more
      · exact ⟨_, pvU, mem_append_left _ uPlaced, uStart, by omega⟩
      · exact ⟨overp.raix, _, mem_append_right _ (mem_singleton_self _), by omega,
          by omega⟩
    · obtain among | last := mem_append.mp among
      · obtain ⟨iCopied, left | ⟨starts, ends, place, chained⟩⟩ := sides i pv among
        · exact ⟨iCopied, .inl left⟩
        · exact ⟨iCopied, .inr ⟨starts, by omega, by omega, chained⟩⟩
      · obtain ⟨rfl, rfl⟩ := Prod.mk.inj (mem_singleton.mp last)
        exact ⟨copied, .inr ⟨by omega, by omega, by omega, uChained.tail meets⟩⟩
  exact ⟨argsEq, placing.extend basis group (by omega)⟩

/-- A buffer behind all that comes before it opens a group. -/
theorem opens (apart : top ≤ overp.start) (room : base + align copylen < 2 ^ 64) :
    call.Placing base (before ++ [overp]) (max overp.stop top)
      (align copylen + (overp.stop - overp.start))
      (base + (align copylen + (overp.stop - overp.start)))
      (placed ++ [(overp.raix, subSize (align args) 0)]) := by
  have isListed : overp ∈ overps := parts ▸ mem_append_right _ mem_cons_self
  have startEq := start_eq sorted isListed
  have stopEq := (ordered sorted accepted isListed).1
  have place : subSize (align args) 0 = base + align copylen := by
    rw [subSize_of_le (Nat.zero_le _) (placing.aligned ▸ room), placing.aligned, Nat.sub_zero]
  have stopIs : call.stop overp.raix = call.start overp.raix + call.len overp.raix := rfl
  have separates : call.Separates (call.start overp.raix) := by
    intro i iCopied
    obtain ⟨other, isOther, rfl⟩ := exists_record sorted iCopied
    have otherStart := start_eq sorted isOther
    have otherStop := (ordered sorted accepted isOther).1
    obtain ⟨_, orderedAfter⟩ := start_le sorted parts
    rw [parts] at isOther
    rcases mem_append.mp isOther with among | among
    · have ends := placing.top_le other among
      omega
    · rcases mem_cons.mp among with rfl | among
      · exact .inr (Nat.le_refl _)
      · have behind := orderedAfter other among
        omega
  rw [place]
  have group : call.Group base (call.start overp.raix) (base + align copylen)
      (call.stop overp.raix) (base + (align copylen + (overp.stop - overp.start))) overp.raix
      (placed ++ [(overp.raix, base + align copylen)]) := by
    refine ⟨Nat.le_add_right _ _, by omega, by omega, separates,
      ⟨overp.raix, _, mem_append_right _ (mem_singleton_self _), Nat.le_refl _, rfl⟩,
      fun i pv among => ?_⟩
    obtain among | last := mem_append.mp among
    · obtain ⟨argsEq, cut, origin, reach, head, group⟩ :=
        placing.group.resolve_left (ne_nil_of_mem among)
      obtain ⟨other, isOther, rfl⟩ := placing.isRecord i pv among
      have ends := placing.top_le other isOther
      have otherStop := (ordered sorted accepted
        (parts ▸ mem_append_left _ isOther : other ∈ overps)).1
      obtain ⟨low, high⟩ := group.inside among
      have grown := le_align copylen
      exact ⟨(group.sides _ _ among).1, .inl ⟨by omega, low, by omega⟩⟩
    · obtain ⟨rfl, rfl⟩ := Prod.mk.inj (mem_singleton.mp last)
      exact ⟨copied, .inr ⟨Nat.le_refl _, Nat.le_refl _, by omega, Relation.ReflTransGen.refl⟩⟩
  exact placing.extend basis group (Nat.le_refl _)

end Placing

section Loop

variable {base total : Nat} {overps : List Overlap} (sorted : Sorted call.lpra overps)
  (accepted : ∀ buf ∈ call.lpra, buf.accepted = true) (covered : call.Covered overps)
  (basis : balign ∣ base) (room : base + total < 2 ^ 64)

include sorted accepted covered basis room

/-- The loop places what is left, and does not run out of the area. -/
theorem placeBufs_placing {after before : List Overlap} {max : Overlap}
    {top copylen args rlen : Nat} {placed : List (Nat × Nat)} (parts : overps = before ++ after)
    (isTop : max.stop = top) (placing : call.Placing base before top copylen args placed)
    (sized : copyLength call.copied (markOverlaps call.inbufs max after) copylen = some total)
    (budget : args + rlen = base + total) :
    ∃ more top args', placeBufs call.copied (markOverlaps call.inbufs max after) args rlen =
        some more ∧
      call.Placing base overps top total args' (placed ++ more) ∧ args' ≤ base + total := by
  induction after generalizing before max top copylen args rlen placed with
  | nil =>
    obtain rfl := Option.some.inj sized
    rw [append_nil] at parts
    refine ⟨[], top, args, rfl, ?_, by omega⟩
    rw [parts, append_nil]
    exact placing
  | cons overp after ih =>
    have isListed : overp ∈ overps := parts ▸ mem_append_right _ mem_cons_self
    have startEq := start_eq sorted isListed
    obtain ⟨stopEq, small⟩ := ordered sorted accepted isListed
    have inOrder : overp.start ≤ overp.stop := by
      rw [startEq, stopEq]
      exact Nat.le_add_right _ _
    obtain ⟨raixEq, offsetEq, lenEq, topEq⟩ :=
      @markOverlap_spec call.inbufs max overp inOrder small
    rw [isTop] at offsetEq lenEq topEq
    have parts' : overps = (before ++ [overp]) ++ after := by
      rw [parts, append_assoc]
      rfl
    rw [markOverlaps, copyLength, raixEq] at sized
    rw [markOverlaps, placeBufs, raixEq]
    by_cases copied : call.copied overp.raix = true
    · rw [if_pos copied, offsetEq, lenEq] at sized
      rw [if_pos copied, offsetEq, lenEq]
      dsimp only at sized ⊢
      by_cases joined : overp.start < top
      · have notAligned : ∀ m n : Nat, (if top - overp.start = 0 then m else n) = n :=
          fun _ _ => if_neg (by omega)
        rw [notAligned, Nat.max_eq_right (Nat.le_of_lt joined)] at sized
        rw [notAligned, notAligned, Nat.max_eq_right (Nat.le_of_lt joined)]
        split at sized
        · have grown := le_of_copyLength sized
          obtain ⟨argsEq, next⟩ := placing.joins sorted accepted parts copied basis covered
            joined (by omega)
          have left : subSize rlen (Max.max overp.stop top - top) =
              rlen - (Max.max overp.stop top - top) := subSize_of_le (by omega) (by omega)
          obtain ⟨more, top', args', ran, rest⟩ := ih parts' topEq next sized
            (show _ + (rlen - (Max.max overp.stop top - top)) = _ by omega)
          rw [← Nat.add_assoc, ← argsEq] at ran
          rw [if_pos (by omega), left, ran]
          rw [append_assoc] at rest
          exact ⟨_, top', args', rfl, rest⟩
        · cases sized
      · have isAligned : ∀ m n : Nat, (if top - overp.start = 0 then m else n) = m :=
          fun _ _ => if_pos (by omega)
        rw [isAligned, Nat.max_eq_left (by omega), Nat.max_eq_left (by omega)] at sized
        rw [isAligned, isAligned, Nat.max_eq_left (by omega), Nat.max_eq_left (by omega)]
        split at sized
        · have grown := le_of_copyLength sized
          have argsEq := placing.aligned
          have behind := le_align args
          have next := placing.opens sorted accepted parts copied basis (by omega) (by omega)
          have left : subSize rlen (align args - args) = rlen - (align args - args) :=
            subSize_of_le (by omega) (by omega)
          have left' : subSize (rlen - (align args - args)) (overp.stop - overp.start) =
              rlen - (align args - args) - (overp.stop - overp.start) :=
            subSize_of_le (by omega) (by omega)
          obtain ⟨more, top', args', ran, rest⟩ := ih parts' topEq next sized
            (show _ + (rlen - (align args - args) - (overp.stop - overp.start)) = _ by omega)
          rw [← Nat.add_assoc, ← argsEq] at ran
          rw [left, if_pos (by omega), left', ran, show top - overp.start = 0 by omega]
          rw [append_assoc] at rest
          exact ⟨_, top', args', rfl, rest⟩
        · cases sized
    · rw [if_neg copied] at sized ⊢
      exact ih parts' topEq (placing.skip copied) sized budget

end Loop

/-! ## All buffers -/

theorem copyArea_fits {metalen copylen virt copyVirt : Nat} (aligned : 4096 ∣ virt)
    (aligned' : 4096 ∣ copyVirt) (inSpace : virt + bufPageSize metalen < 2 ^ 64)
    (inSpace' : copyVirt + copylen < 2 ^ 64) :
    ∃ base, balign ∣ base ∧ base + copylen < 2 ^ 64 ∧
      align (copyArea metalen copylen virt copyVirt).args = base ∧
      (copyArea metalen copylen virt copyVirt).args +
        (copyArea metalen copylen virt copyVirt).rlen = base + copylen ∧
      (copyArea metalen copylen virt copyVirt).start ≤ base ∧
      base + copylen ≤ (copyArea metalen copylen virt copyVirt).stop := by
  have grown := le_align metalen
  have basis : balign ∣ virt := Nat.dvd_trans (by decide) aligned
  have basis' : balign ∣ copyVirt := Nat.dvd_trans (by decide) aligned'
  have multiple : ∀ n, balign ∣ align n := fun n => Nat.dvd_mul_left _ _
  unfold copyArea
  dsimp only
  split
  · refine ⟨virt + align metalen, Nat.dvd_add basis (multiple metalen), by omega,
      align_add basis, ?_, ?_, ?_⟩
    · rw [subSize_of_le (by omega) (by omega)]
      dsimp only
      omega
    · dsimp only
      omega
    · dsimp only
      omega
  · split
    · exact ⟨copyVirt, basis', inSpace', align_of_dvd basis', rfl, Nat.le_refl _, Nat.le_refl _⟩
    · rename_i none
      rw [not_not.mp none]
      exact ⟨0, Nat.dvd_zero _, by decide, rfl, rfl, Nat.le_refl _, Nat.le_refl _⟩

section All

variable {overps : List Overlap} (sorted : Sorted call.lpra overps)
  (accepted : ∀ buf ∈ call.lpra, buf.accepted = true)

include sorted accepted

/-- It is enough that no copied buffer starts inside a mapped one. -/
theorem covered_of_outside (outside : ∀ i < call.lpra.length, ∀ j < call.lpra.length,
      call.copied i = true → call.mapped j = true →
        ¬(call.start j ≤ call.start i ∧ call.start i < call.stop j)) : call.Covered overps := by
  intro before overp after parts copied other isOther inside
  have isListed : overp ∈ overps := parts ▸ mem_append_right _ mem_cons_self
  have otherListed : other ∈ overps := parts ▸ mem_append_left _ isOther
  cases otherCopied : call.copied other.raix with
  | true => exact ⟨other, isOther, otherCopied, Nat.le_refl _⟩
  | false =>
    have order := (Placing.start_le sorted parts).1 other isOther
    rw [start_eq sorted isListed] at inside order
    rw [start_eq sorted otherListed] at order
    rw [(ordered sorted accepted otherListed).1] at inside
    cases mapped : call.mapped other.raix with
    | true =>
      exact absurd ⟨order, inside⟩ (outside _ (mem_overps sorted isListed).2 _
        (mem_overps sorted otherListed).2 copied mapped)
    | false =>
      rw [PackCall.copied, mapped, Bool.not_false, Bool.and_true] at otherCopied
      have empty : call.len other.raix = 0 := bne_eq_false_iff_eq.mp otherCopied
      unfold stop at inside
      omega

/-- If the sizes add up, every copied buffer gets its place in the area. -/
theorem getArgs_packs {virt copyVirt copylen : Nat} (covered : call.Covered overps)
    (sized : copyLength call.copied (call.marked overps) 0 = some copylen)
    (aligned : 4096 ∣ virt) (aligned' : 4096 ∣ copyVirt)
    (inSpace : virt + bufPageSize call.metalen < 2 ^ 64)
    (inSpace' : copyVirt + copylen < 2 ^ 64) :
    ∃ placed, call.getArgs overps virt copyVirt = some placed ∧
      call.Packs (copyArea call.metalen copylen virt copyVirt) placed := by
  obtain ⟨base, basis, room, argsAligned, budget, low, high⟩ :=
    copyArea_fits aligned aligned' inSpace inSpace'
  have start : call.Placing base [] 0 0 (copyArea call.metalen copylen virt copyVirt).args [] :=
    ⟨nofun, .inl rfl, argsAligned, nofun, nofun, nofun, .inl rfl⟩
  obtain ⟨placed, top, args, ran, packed, inArea⟩ :=
    placeBufs_placing sorted accepted covered basis room (nil_append _).symm rfl start sized budget
  refine ⟨placed, ?_, ⟨fun i copied => ?_, fun i pv among => ?_, ?_, ?_⟩⟩
  · unfold getArgs
    rw [sized]
    exact ran
  · obtain ⟨overp, isListed, rfl⟩ := exists_record sorted copied
    exact packed.known overp isListed copied
  · obtain ⟨_, cut, origin, reach, head, group⟩ :=
      packed.group.resolve_left (ne_nil_of_mem among)
    obtain ⟨above, below⟩ := group.inside among
    omega
  · exact fun i pv j pv' among among' => (packed.fit i pv j pv' among among').1
  · exact fun i pv j pv' among among' => (packed.fit i pv j pv' among among').2

end All

/-! An example: two adjacent buffers, one that overlaps the second, and a mapped one. -/

def adjacent : PackCall :=
  { lpra := [⟨0, 0, 4096, 128⟩, ⟨0, 0, 4224, 128⟩, ⟨0, 0, 4300, 100⟩, ⟨0, 0, 8192, 1000⟩]
    inbufs := 4, handles := 0, mapped := fun i => i == 3 }

def adjacentOverps : List Overlap := adjacent.lpra.mapIdx rawOverlap

theorem sorted_adjacent : Sorted adjacent.lpra adjacentOverps := ⟨List.Perm.refl _, by decide⟩

theorem getArgs_adjacent :
    adjacent.getArgs adjacentOverps 65536 0 = some [(0, 66304), (1, 66432), (2, 66508)] := by
  decide

/-- The distance of two buffers can be the one of their addresses by chance. -/
theorem not_packs_exactly_adjacent :
    ¬∀ (call : PackCall) (overps : List Overlap) (virt copyVirt copylen : Nat),
      Sorted call.lpra overps → (∀ buf ∈ call.lpra, buf.accepted = true) →
      copyLength call.copied (call.marked overps) 0 = some copylen →
      4096 ∣ virt → 4096 ∣ copyVirt → virt + bufPageSize call.metalen < 2 ^ 64 →
      copyVirt + copylen < 2 ^ 64 →
      ∃ placed, call.getArgs overps virt copyVirt = some placed ∧
        call.Packs (copyArea call.metalen copylen virt copyVirt) placed ∧
        ∀ i pv j pv', (i, pv) ∈ placed → (j, pv') ∈ placed →
          pv + call.start j = pv' + call.start i → call.Chained i j := by
  intro exactly
  obtain ⟨placed, ran, _, chains⟩ := exactly adjacent adjacentOverps 65536 0 304 sorted_adjacent
    (by decide) (by decide) (by decide) (by decide) (by decide) (by decide)
  obtain rfl := Option.some.inj (getArgs_adjacent.symm.trans ran)
  have chained := chains 0 66304 1 66432 (by decide) (by decide) (by decide)
  have separates : adjacent.Separates 4224 := by
    have all : ∀ i < 4, adjacent.stop i ≤ 4224 ∨ 4224 ≤ adjacent.start i := by decide
    exact fun i copied => all i (lt_length copied)
  exact absurd (separates.stop_le chained (by decide)) (by decide)

theorem getArgs_packs_adjacent :
    ∃ placed, adjacent.getArgs adjacentOverps 65536 0 = some placed ∧
      adjacent.Packs (copyArea adjacent.metalen 304 65536 0) placed :=
  getArgs_packs sorted_adjacent (by decide)
    (covered_of_outside sorted_adjacent (by decide) (by decide)) (by decide) (by decide)
    (by decide) (by decide) (by decide)

end PackCall

end Sm8650.Fastrpc
