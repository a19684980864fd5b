import Sm8650.Kgsl.HfiQueue

/-!
# What a call on an HFI queue touches

The header and the dwords of a queue can be changed by the other processor, so that each of them
is arbitrary. The model lists what a call touches: dwords of the queue, the caller's buffer up to
a byte, and the modulus of an index.
-/

namespace Sm8650.Kgsl

open List

/-- `HFI_QUEUE_SIZE` in dwords -/
def hfiQueueDwords : Nat := 1024

/-- `HFI_MSG_ACK` -/
def hfiMsgAck : U32 := 1

/-- `MSG_HDR_GET_TYPE` -/
def msgHdrGetType (hdr : U32) : U32 := (hdr >>> 16) &&& 0xF

/-- A dword of the queue, bytes of the caller's buffer below a bound, or a modulus. -/
inductive Touch
  | queue (idx : Nat)
  | buffer (stop : Nat)
  | modulus (size : U32)

/-- What may be touched by a caller with a buffer of so many bytes. -/
def Touch.Ok (bytes : Nat) : Touch → Prop
  | queue idx => idx < hfiQueueDwords
  | buffer stop => stop ≤ bytes
  | modulus size => size ≠ 0

/-- The copy loops from the dword `i` of the message on, of which the first `copied` dwords are in
the caller's buffer. -/
def loopTouches (queueSize : U32) (copied : Nat) : Nat → Nat → U32 → List Touch
  | 0, _, _ => []
  | count + 1, i, idx =>
    .queue idx.toNat :: (if i < copied then [.buffer (4 * i + 4)] else []) ++
      .modulus queueSize :: loopTouches queueSize copied count (i + 1) ((idx + 1) % queueSize)

/-- What `gen7_hfi_queue_read` touches, the trace point included. -/
def readTouches (queue : HfiQueue) (maxSize : U32) : List Touch :=
  if queue.status = hfiQueueStatusDisabled then []
  else if queue.readIndex = queue.writeIndex then []
  else
    let msgHdr := queue.cells queue.readIndex.toNat
    let size := msgHdrGetSize msgHdr
    .buffer maxSize.toNat :: .queue queue.readIndex.toNat ::
      if maxSize >>> 2 < size then []
      else
        (if queue.readIndex < queue.queueSize then
            loopTouches queue.queueSize (maxSize >>> 2).toNat
              (min size.toNat (maxSize >>> 2).toNat) 0 queue.readIndex
          else []) ++
          .modulus queue.queueSize ::
            if msgHdrGetType msgHdr = hfiMsgAck then [.buffer 8] else []

/-- `empty_space` -/
def emptySpace (queue : HfiQueue) : U32 :=
  if queue.readIndex ≤ queue.writeIndex then
    queue.queueSize - (queue.writeIndex - queue.readIndex)
  else queue.readIndex - queue.writeIndex

/-- What `gen7_hfi_queue_write` touches. -/
def writeTouches (queue : HfiQueue) (sizeBytes : U32) : List Touch :=
  .buffer 4 ::
    if queue.status = hfiQueueStatusDisabled ∨ sizeBytes &&& 3 ≠ 0 then []
    else if emptySpace queue ≤ align4 (sizeBytes >>> 2) then []
    else
      loopTouches queue.queueSize (sizeBytes >>> 2).toNat (align4 (sizeBytes >>> 2)).toNat 0
        queue.writeIndex

/-- A read touches only what it may, and after a message that is too large the next read moves
on. -/
def ReadSafe (queue : HfiQueue) (maxSize : U32) : Prop :=
  (∀ touch ∈ readTouches queue maxSize, touch.Ok maxSize.toNat) ∧
    ∀ output, (queueRead queue output maxSize).1 = emsgsize → ∀ next,
      (queueRead (queueRead queue output maxSize).2.2 next maxSize).2.2.readIndex ≠ queue.readIndex

/-- A write touches only what it may. -/
def WriteSafe (queue : HfiQueue) (sizeBytes : U32) : Prop :=
  ∀ touch ∈ writeTouches queue sizeBytes, touch.Ok sizeBytes.toNat

/-- So many dwords from an index on, around a queue of a claimed size, lie in the queue. -/
def RunsInside (queueSize idx : U32) (count : Nat) : Prop :=
  queueSize ≠ 0 ∧ idx.toNat < hfiQueueDwords ∧
    (queueSize.toNat ≤ hfiQueueDwords ∨ idx.toNat + count ≤ hfiQueueDwords)

/-- The reader stops before it looks at the queue, or the message fits and its header, its dwords
and the indices are as the reader takes them to be. -/
def ReadFits (queue : HfiQueue) (maxSize : U32) : Prop :=
  queue.status = hfiQueueStatusDisabled ∨ queue.readIndex = queue.writeIndex ∨
    queue.readIndex.toNat < hfiQueueDwords ∧ queue.queueSize ≠ 0 ∧
    msgHdrGetSize (queue.cells queue.readIndex.toNat) ≤ maxSize >>> 2 ∧
    (queue.readIndex < queue.queueSize → RunsInside queue.queueSize queue.readIndex
      (msgHdrGetSize (queue.cells queue.readIndex.toNat)).toNat) ∧
    (msgHdrGetType (queue.cells queue.readIndex.toNat) = hfiMsgAck → 8 ≤ maxSize.toNat)

/-- There is a header in the message, and the writer stops before it writes or its dwords lie in
the queue. -/
def WriteFits (queue : HfiQueue) (sizeBytes : U32) : Prop :=
  4 ≤ sizeBytes.toNat ∧
    (queue.status = hfiQueueStatusDisabled ∨ sizeBytes &&& 3 ≠ 0 ∨
      emptySpace queue ≤ align4 (sizeBytes >>> 2) ∨
      RunsInside queue.queueSize queue.writeIndex (align4 (sizeBytes >>> 2)).toNat)

/-! ## The loops -/

theorem runsInside_succ {queueSize idx : U32} (count : Nat) :
    RunsInside queueSize idx (count + 1) ↔ idx.toNat < hfiQueueDwords ∧ queueSize ≠ 0 ∧
      (count = 0 ∨ RunsInside queueSize ((idx + 1) % queueSize) count) := by
  unfold RunsInside hfiQueueDwords
  by_cases inside : idx.toNat < 1024 ∧ queueSize ≠ 0
  · obtain ⟨below, notZero⟩ := inside
    have pos : 0 < queueSize.toNat := Nat.pos_of_ne_zero fun zero =>
      notZero (BitVec.eq_of_toNat_eq zero)
    have sum : (idx + 1).toNat = idx.toNat + 1 :=
      Nat.mod_eq_of_lt (Nat.lt_trans (Nat.succ_lt_succ below) (by decide))
    have next : ((idx + 1) % queueSize).toNat = (idx.toNat + 1) % queueSize.toNat := by
      rw [BitVec.toNat_umod, sum]
    simp only [notZero, next, ne_eq, not_false_eq_true, true_and]
    by_cases small : queueSize.toNat ≤ 1024
    · have further := Nat.mod_lt (idx.toNat + 1) pos
      omega
    · rw [Nat.mod_eq_of_lt (by omega)]
      omega
  · constructor
    · exact fun runs => absurd ⟨runs.2.1, runs.1⟩ inside
    · exact fun both => absurd ⟨both.1, both.2.1⟩ inside

theorem loopTouches_ok {queueSize : U32} {copied bytes : Nat} (fits : 4 * copied ≤ bytes)
    (count i : Nat) (idx : U32) :
    (∀ touch ∈ loopTouches queueSize copied count i idx, touch.Ok bytes) ↔
      count = 0 ∨ RunsInside queueSize idx count := by
  induction count generalizing i idx with
  | zero => simp [loopTouches]
  | succ count ih =>
    have buffer : ∀ touch ∈ (if i < copied then [Touch.buffer (4 * i + 4)] else []),
        touch.Ok bytes := by
      split
      case isTrue inBuffer =>
        exact forall_mem_singleton.mpr (show 4 * i + 4 ≤ bytes by omega)
      case isFalse => exact forall_mem_nil _
    rw [loopTouches, cons_append, forall_mem_cons, forall_mem_append,
      forall_mem_cons, ih, runsInside_succ, and_iff_right buffer]
    exact (or_iff_right (Nat.succ_ne_zero count)).symm

theorem four_mul_ushiftRight (size : U32) : 4 * (size >>> 2).toNat ≤ size.toNat := by
  rw [BitVec.toNat_ushiftRight, Nat.shiftRight_eq_div_pow]
  exact Nat.mul_div_le _ _

/-! ## Reads and writes -/

theorem readSafe_iff (queue : HfiQueue) (maxSize : U32) :
    ReadSafe queue maxSize ↔ ReadFits queue maxSize := by
  unfold ReadSafe ReadFits readTouches
  by_cases disabled : queue.status = hfiQueueStatusDisabled
  · simp [queueRead, disabled, einval, emsgsize]
  by_cases empty : queue.readIndex = queue.writeIndex
  · simp [queueRead, disabled, empty, enodata, emsgsize]
  rw [if_neg disabled, if_neg empty, or_iff_right disabled, or_iff_right empty]
  rw [forall_mem_cons, forall_mem_cons]
  by_cases large : maxSize >>> 2 < msgHdrGetSize (queue.cells queue.readIndex.toNat)
  · have stuck : ∀ output, queueRead queue output maxSize =
        (emsgsize, clearBytes output maxSize, queue) := by
      intro output
      rw [queueRead, if_neg disabled, if_neg empty]
      exact if_pos large
    constructor
    · intro safe
      have moves := safe.2 (fun _ => 0)
      rw [stuck] at moves
      exact absurd (congrArg (·.2.2.readIndex) (stuck fun _ => 0)) (moves rfl _)
    · exact fun fits => absurd fits.2.2.1 (BitVec.not_le.mpr large)
  · have fits := BitVec.not_lt.mp large
    have moves : ∀ output, (queueRead queue output maxSize).1 ≠ emsgsize := by
      intro output
      rw [queueRead, if_neg disabled, if_neg empty]
      dsimp only
      rw [if_neg large]
      split
      · unfold emsgsize
        omega
      · exact show enodata ≠ emsgsize by decide
    have loop := @loopTouches_ok queue.queueSize _ _ (four_mul_ushiftRight maxSize)
    rw [if_neg large, forall_mem_append, forall_mem_cons, Nat.min_eq_left fits,
      and_iff_left fun output failed => absurd failed (moves output)]
    have copies : ∀ size, (∀ touch ∈ if queue.readIndex < queue.queueSize then
        loopTouches queue.queueSize (maxSize >>> 2).toNat size 0 queue.readIndex else [],
          touch.Ok maxSize.toNat) ↔ (queue.readIndex < queue.queueSize →
            size = 0 ∨ RunsInside queue.queueSize queue.readIndex size) := by
      intro size
      split
      case isTrue inside => rw [loop, forall_prop_of_true inside]
      case isFalse outside => simp [outside]
    have trace : (∀ touch ∈ if msgHdrGetType (queue.cells queue.readIndex.toNat) = hfiMsgAck then
        [Touch.buffer 8] else [], touch.Ok maxSize.toNat) ↔
          (msgHdrGetType (queue.cells queue.readIndex.toNat) = hfiMsgAck → 8 ≤ maxSize.toNat) := by
      split <;> simp [*, Touch.Ok]
    rw [copies, trace]
    constructor
    · rintro ⟨_, below, runs, notZero, ack⟩
      refine ⟨below, notZero, fits, fun inside => ?_, ack⟩
      exact (runs inside).elim (fun none => ⟨notZero, below, .inr (none ▸ Nat.le_of_lt below)⟩) id
    · rintro ⟨below, notZero, _, runs, ack⟩
      exact ⟨Nat.le_refl _, below, fun inside => .inr (runs inside), notZero, ack⟩

theorem writeSafe_iff (queue : HfiQueue) (sizeBytes : U32) :
    WriteSafe queue sizeBytes ↔ WriteFits queue sizeBytes := by
  unfold WriteSafe writeTouches
  rw [forall_mem_cons]
  refine and_congr_right fun header => ?_
  by_cases refused : queue.status = hfiQueueStatusDisabled ∨ sizeBytes &&& 3 ≠ 0
  · rw [if_pos refused, ← or_assoc]
    exact iff_of_true (forall_mem_nil _) (.inl refused)
  by_cases full : emptySpace queue ≤ align4 (sizeBytes >>> 2)
  · rw [if_neg refused, if_pos full]
    exact iff_of_true (forall_mem_nil _) (.inr (.inr (.inl full)))
  have some : (align4 (sizeBytes >>> 2)).toNat ≠ 0 := by
    have quarter : (sizeBytes >>> 2).toNat = sizeBytes.toNat / 4 := by
      rw [BitVec.toNat_ushiftRight, Nat.shiftRight_eq_div_pow]
    have least : 4 ≤ sizeBytes.toNat := header
    rw [align4_toNat (by omega), roundUp4]
    omega
  rw [if_neg refused, if_neg full, loopTouches_ok (four_mul_ushiftRight sizeBytes),
    or_iff_right some, ← or_assoc, or_iff_right refused, or_iff_right full]

/-- The calls are safe on exactly the queues that fit them. -/
theorem hfiQueue_safe_iff (queue : HfiQueue) (bytes : U32) :
    (ReadSafe queue bytes ↔ ReadFits queue bytes) ∧
      (WriteSafe queue bytes ↔ WriteFits queue bytes) :=
  ⟨readSafe_iff queue bytes, writeSafe_iff queue bytes⟩

/-- A read index behind the queue is used before it is looked at. -/
theorem not_hfiQueue_safe :
    ¬∀ (queue : HfiQueue) (bytes : U32), ReadSafe queue bytes ∧ WriteSafe queue bytes := by
  intro safe
  have touches := (safe ⟨1, 1024, 5000, 0, fun _ => 0⟩ 76).1.1
  exact absurd (touches (.queue 5000) (.tail _ (.head _))) (show ¬5000 < 1024 by decide)

end Sm8650.Kgsl
