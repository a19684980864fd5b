import Sm8650.Venus.Queue

/-!
# The interface queues under arbitrary indices

The firmware can write the header and the words of a queue. Both functions check the
pointer that they compute from an index in 32 bits, where indices that differ by a multiple
of 2^30 are the same. A read also bounds the index itself; a write does not, and computes
with the index as it is.
-/

namespace Sm8650.Venus

open Sm8650.Ring List BitVec

/-- A copy stays inside a destination and a source of the given sizes in bytes. -/
structure Memcpy.Within (copy : Memcpy) (dstSize srcSize : Nat) : Prop where
  dst_le : copy.dst + copy.len ≤ dstSize
  src_le : copy.src + copy.len ≤ srcSize

instance (copy : Memcpy) (dstSize srcSize : Nat) : Decidable (copy.Within dstSize srcSize) :=
  decidable_of_iff (copy.dst + copy.len ≤ dstSize ∧ copy.src + copy.len ≤ srcSize)
    ⟨fun ⟨dst, src⟩ => ⟨dst, src⟩, fun within => ⟨within.dst_le, within.src_le⟩⟩

/-- Every copy of a write stays inside the array and inside the first bytes of the packet,
as many as the packet's first word says. -/
def WriteWithin (qinfo : IfaceQInfo) (packet : Nat → U32) : Prop :=
  ∀ copy ∈ (writeQueueEffects qinfo packet).copies, copy.Within qinfo.memSize.toNat (packet 0).toNat

/-- Every copy of a read stays inside a packet buffer and inside the array. -/
def ReadWithin (qinfo : IfaceQInfo) (buffer : Nat → U32) (txReqIsSet : U32) : Prop :=
  ∀ copy ∈ (readQueueEffects qinfo buffer txReqIsSet).copies,
    copy.Within vidcIfaceqVarHugePktSize qinfo.memSize.toNat

/-- The write index is 2^30 or more, the pointer computed from it is that of a word of the
array from where the packet ends before the array does, and the indices leave room for the
packet. -/
structure WriteIdxAliased (qinfo : IfaceQInfo) (packet : Nat → U32) : Prop where
  size_pos : 0 < (packet 0 >>> 2).toNat
  room : (packet 0 >>> 2).toNat < qinfo.emptySpace.toNat
  large : 2 ^ 30 ≤ qinfo.qHdr.qhdrWriteIdx.toNat
  short : qinfo.qHdr.qhdrWriteIdx.toNat % 2 ^ 30 + (packet 0 >>> 2).toNat < qinfo.words.toNat

theorem WriteWithin.of_nil {qinfo : IfaceQInfo} {packet : Nat → U32}
    (nothing : (writeQueueEffects qinfo packet).copies = []) : WriteWithin qinfo packet := by
  intro copy among
  rw [nothing] at among
  exact absurd among not_mem_nil

section Fixed

variable {qinfo : IfaceQInfo}

section

variable (memSize : qinfo.memSize.toNat = vidcIfaceqQueueSize)

include memSize

theorem words_of_memSize : qinfo.words.toNat = 204800 := by
  rw [IfaceQInfo.words, sizeInWords_toNat, memSize]
  rfl

/-- The copies of a write that gets past its checks. -/
theorem writeWithin_iff_of_reached
    {packet : Nat → U32} (sizeOk : ¬ (packet 0 >>> 2 = 0 ∨ qinfo.words < packet 0 >>> 2))
    (room : ¬ qinfo.emptySpace ≤ packet 0 >>> 2)
    (inArray : ¬ qinfo.memSize.toNat < (qinfo.qHdr.qhdrWriteIdx <<< 2).toNat) :
    WriteWithin qinfo packet ↔ ¬ (2 ^ 30 ≤ qinfo.qHdr.qhdrWriteIdx.toNat
      ∧ qinfo.qHdr.qhdrWriteIdx.toNat % 2 ^ 30 + (packet 0 >>> 2).toNat < qinfo.words.toNat) := by
  have words := words_of_memSize memSize
  have size := sizeInWords_toNat (packet 0)
  have pointer := sizeInBytes_toNat qinfo.qHdr.qhdrWriteIdx
  have short : (packet 0 >>> 2).toNat ≤ qinfo.words.toNat :=
    BitVec.le_def.mp (BitVec.not_lt.mp (not_or.mp sizeOk).2)
  rw [memSize, vidcIfaceqQueueSize, pointer] at inArray
  rw [WriteWithin, writeQueueEffects]
  generalize packet 0 >>> 2 = count at *
  simp only [if_neg sizeOk, if_neg room, memSize, vidcIfaceqQueueSize, pointer, if_neg inArray]
  by_cases inside : qinfo.qHdr.qhdrWriteIdx + count < qinfo.words
  · have bytes := sizeInBytes_toNat count
    simp only [if_pos inside, mem_singleton, forall_eq]
    rw [BitVec.lt_def, toNat_add] at inside
    constructor
    · omega
    · intro notAliased
      constructor <;> dsimp only <;> omega
  · have endBytes := sizeInBytes_toNat (count - (qinfo.qHdr.qhdrWriteIdx + count - qinfo.words))
    have startBytes := sizeInBytes_toNat (qinfo.qHdr.qhdrWriteIdx + count - qinfo.words)
    simp only [if_neg inside, mem_cons, not_mem_nil, or_false, forall_eq_or_imp,
      forall_eq, endBytes, startBytes]
    rw [BitVec.lt_def, toNat_add] at inside
    simp only [toNat_sub, toNat_add]
    constructor
    · rintro ⟨first, second⟩ ⟨large, before⟩
      have second_le := second.dst_le
      dsimp only at second_le
      omega
    · intro notAliased
      refine ⟨⟨?_, ?_⟩, ?_, ?_⟩ <;> dsimp only <;> omega

/-- A write stays inside its memory exactly if its index is not aliased. -/
theorem writeWithin_iff
    (packet : Nat → U32) : WriteWithin qinfo packet ↔ ¬ WriteIdxAliased qinfo packet := by
  have words := words_of_memSize memSize
  by_cases sizeOk : packet 0 >>> 2 = 0 ∨ qinfo.words < packet 0 >>> 2
  · have nothing : (writeQueueEffects qinfo packet).copies = [] := by
      simp only [writeQueueEffects, if_pos sizeOk]
    refine iff_of_true (WriteWithin.of_nil nothing) fun aliased => ?_
    rcases sizeOk with zero | large
    · have size_pos := aliased.size_pos
      rw [zero] at size_pos
      exact absurd size_pos (by decide)
    · have short := aliased.short
      rw [BitVec.lt_def] at large
      omega
  · by_cases room : qinfo.emptySpace ≤ packet 0 >>> 2
    · have nothing : (writeQueueEffects qinfo packet).copies = [] := by
        simp only [writeQueueEffects, if_neg sizeOk, if_pos room]
      refine iff_of_true (WriteWithin.of_nil nothing) fun aliased => ?_
      exact absurd aliased.room (Nat.not_lt.mpr (BitVec.le_def.mp room))
    · by_cases inArray : qinfo.memSize.toNat < (qinfo.qHdr.qhdrWriteIdx <<< 2).toNat
      · have nothing : (writeQueueEffects qinfo packet).copies = [] := by
          simp only [writeQueueEffects, if_neg sizeOk, if_neg room, if_pos inArray]
        refine iff_of_true (WriteWithin.of_nil nothing) fun aliased => ?_
        have short := aliased.short
        rw [sizeInBytes_toNat, memSize, vidcIfaceqQueueSize] at inArray
        omega
      · rw [writeWithin_iff_of_reached memSize sizeOk room inArray, not_iff_not]
        constructor
        · rintro ⟨large, short⟩
          refine ⟨Nat.pos_of_ne_zero fun zero => ?_, BitVec.lt_def.mp (BitVec.not_le.mp room),
            large, short⟩
          exact sizeOk (Or.inl (eq_of_toNat_eq zero))
        · intro aliased
          exact ⟨aliased.large, aliased.short⟩

/-- A read stays inside its memory whatever the indices and the words of the array are. -/
theorem readWithin (buffer : Nat → U32)
    (txReqIsSet : U32) : ReadWithin qinfo buffer txReqIsSet := by
  have words := words_of_memSize memSize
  have pointer := sizeInBytes_toNat qinfo.qHdr.qhdrReadIdx
  rw [ReadWithin, readQueueEffects]
  simp only [pointer, memSize]
  by_cases empty : qinfo.qHdr.qhdrReadIdx = qinfo.qHdr.qhdrWriteIdx
  · simp [if_pos empty]
  by_cases outside : vidcIfaceqQueueSize < 4 * (qinfo.qHdr.qhdrReadIdx.toNat % 2 ^ 30) + 4
  · simp only [if_neg empty, if_pos outside, not_mem_nil, false_imp_iff, implies_true]
  simp only [if_neg empty, if_neg outside]
  have size := sizeInWords_toNat (qinfo.cells (4 * (qinfo.qHdr.qhdrReadIdx.toNat % 2 ^ 30) / 4))
  generalize qinfo.cells (4 * (qinfo.qHdr.qhdrReadIdx.toNat % 2 ^ 30) / 4) >>> 2 = count at *
  by_cases zero : count = 0
  · simp only [if_pos zero, not_mem_nil, false_imp_iff, implies_true]
  have bytes := sizeInBytes_toNat count
  by_cases good : (count <<< 2).toNat ≤ vidcIfaceqVarHugePktSize
      ∧ qinfo.qHdr.qhdrReadIdx ≤ qinfo.words
  · simp only [if_neg zero, if_pos good]
    obtain ⟨short, idx_le⟩ := good
    rw [BitVec.le_def] at idx_le
    rw [vidcIfaceqVarHugePktSize] at short
    by_cases inside : qinfo.qHdr.qhdrReadIdx + count < qinfo.words
    · simp only [if_pos inside, mem_singleton, forall_eq]
      rw [BitVec.lt_def, toNat_add] at inside
      constructor <;> simp only [vidcIfaceqVarHugePktSize, vidcIfaceqQueueSize] <;> omega
    · have endBytes := sizeInBytes_toNat (count - (qinfo.qHdr.qhdrReadIdx + count - qinfo.words))
      have startBytes := sizeInBytes_toNat (qinfo.qHdr.qhdrReadIdx + count - qinfo.words)
      simp only [if_neg inside, mem_cons, not_mem_nil, or_false, forall_eq_or_imp,
        forall_eq, endBytes, startBytes]
      rw [BitVec.lt_def, toNat_add] at inside
      simp only [toNat_sub, toNat_add]
      refine ⟨⟨?_, ?_⟩, ?_, ?_⟩ <;> simp only [vidcIfaceqVarHugePktSize, vidcIfaceqQueueSize] <;>
        omega
  · simp only [if_neg zero, if_neg good, not_mem_nil, false_imp_iff, implies_true]

end

end Fixed

/-- The memory that a write and a read touch under any header and any words of the array:
both stay inside exactly if the write index is not aliased. -/
theorem hostile_within_iff {qinfo : IfaceQInfo}
    (memSize : qinfo.memSize.toNat = vidcIfaceqQueueSize) (packet buffer : Nat → U32)
    (txReqIsSet : U32) :
    WriteWithin qinfo packet ∧ ReadWithin qinfo buffer txReqIsSet
      ↔ ¬ WriteIdxAliased qinfo packet := by
  rw [writeWithin_iff memSize packet, and_iff_left (readWithin memSize buffer txReqIsSet)]

/-- An empty queue whose indices are both 2^30. -/
def aliasedQueue : IfaceQInfo :=
  ⟨⟨0x01010000, 1, 0, 0x40000000, 0x40000000⟩, 819200, fun _ => 0⟩

/-- The first copy reads the whole size of the array out of a packet of 20 bytes and the
second is of nearly 4 GiB. -/
theorem aliasedQueue_not_within :
    (writeQueueEffects aliasedQueue fun i => [20, 7, 2, 3, 4].getD i 0).copies
        = [⟨0, 0, 819200⟩, ⟨0, 819200, 4294148116⟩]
      ∧ ¬ WriteWithin aliasedQueue fun i => [20, 7, 2, 3, 4].getD i 0 := by
  have copies : (writeQueueEffects aliasedQueue fun i => [20, 7, 2, 3, 4].getD i 0).copies
      = [⟨0, 0, 819200⟩, ⟨0, 819200, 4294148116⟩] := by decide
  refine ⟨copies, fun within => ?_⟩
  exact absurd (within _ mem_cons_self) (by decide)

/-- The same packet at the last words of the array. -/
theorem hostile_within_iff_wrap :
    WriteWithin { aliasedQueue with qHdr := { aliasedQueue.qHdr with qhdrWriteIdx := 204798 } }
        (fun i => [20, 7, 2, 3, 4].getD i 0)
      ∧ ReadWithin { aliasedQueue with qHdr := { aliasedQueue.qHdr with qhdrWriteIdx := 204798 } }
        (fun _ => 0) 0 :=
  (@hostile_within_iff
      { aliasedQueue with qHdr := { aliasedQueue.qHdr with qhdrWriteIdx := 204798 } }
      rfl _ _ _).mpr fun aliased => absurd aliased.large (by decide)

end Sm8650.Venus
