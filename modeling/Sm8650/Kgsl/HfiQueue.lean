import Sm8650.Data.Ring

/-!
# The HFI queues of the graphics management unit

Host and GMU exchange messages through queues in shared memory, whose sizes and
indices count dwords. The header of a message carries its size; the writer fills up
the last group of four dwords with a cookie, and the reader, which never sees that
filling, aligns the index at which it stopped. Trace points are left out.

Source: `adreno_gen7_hfi.c`, `adreno_hfi.h`.
-/

namespace Sm8650.Kgsl

open Sm8650.Ring Function

/-- A dword of a queue, and the type of sizes and indices. -/
abbrev U32 := BitVec 32

/-- `-EINVAL` -/
def einval : Int := -22

/-- `-ENOSPC` -/
def enospc : Int := -28

/-- `-ENODATA` -/
def enodata : Int := -61

/-- `-EMSGSIZE` -/
def emsgsize : Int := -90

/-- `HFI_QUEUE_STATUS_DISABLED` -/
def hfiQueueStatusDisabled : U32 := 0

/-- `HFI_QUEUE_STATUS_ENABLED` -/
def hfiQueueStatusEnabled : U32 := 1

/-- What fills up a message. -/
def cookie : U32 := 0xfafafafa

/-- `MSG_HDR_GET_SIZE` -/
def msgHdrGetSize (hdr : U32) : U32 :=
  (hdr >>> 8) &&& 0xFF

/-- `ALIGN(x, SZ_4)` -/
def align4 (x : U32) : U32 :=
  (x + 3) &&& ~~~3

/-- The fields of `struct hfi_queue_header` that reads and writes use, and the dwords
of the queue. -/
structure HfiQueue where
  status : U32
  queueSize : U32
  readIndex : U32
  writeIndex : U32
  cells : Nat → U32

/-- `memset(output, 0, max_size)` on an array of dwords, the lowest byte first. -/
def clearBytes (output : Nat → U32) (maxSize : U32) : Nat → U32 :=
  fun i =>
    let cleared := 8 * min 4 (maxSize.toNat - 4 * i)
    (output i >>> cleared) <<< cleared

/-- The copy loop of a read: `count` dwords from `read` on around the queue to the
dwords of `output` from `i` on. -/
def copyOut (cells : Nat → U32) (queueSize : U32) :
    Nat → Nat → (Nat → U32) → U32 → (Nat → U32) × U32
  | 0, _, output, read => (output, read)
  | count + 1, i, output, read =>
    copyOut cells queueSize count (i + 1) (update output i (cells read.toNat))
      ((read + 1) % queueSize)

/-- The copy loops of a write: dwords to the queue from `writeIdx` on. -/
def copyIn (queueSize : U32) : (Nat → U32) → U32 → List U32 → (Nat → U32) × U32
  | cells, writeIdx, [] => (cells, writeIdx)
  | cells, writeIdx, word :: words =>
    copyIn queueSize (update cells writeIdx.toNat word) ((writeIdx + 1) % queueSize) words

/-- `gen7_hfi_queue_read`: the result, the output buffer and the queue. -/
def queueRead (queue : HfiQueue) (output : Nat → U32) (maxSize : U32) :
    Int × (Nat → U32) × HfiQueue :=
  if queue.status = hfiQueueStatusDisabled then (einval, output, queue)
  else if queue.readIndex = queue.writeIndex then (enodata, output, queue)
  else
    let output := clearBytes output maxSize
    let size := msgHdrGetSize (queue.cells queue.readIndex.toNat)
    if maxSize >>> 2 < size then (emsgsize, output, queue)
    else if queue.readIndex < queue.queueSize then
      let copied := copyOut queue.cells queue.queueSize (min size.toNat (maxSize >>> 2).toNat) 0
        output queue.readIndex
      (size.toNat, copied.1, { queue with readIndex := align4 copied.2 % queue.queueSize })
    else
      (enodata, output,
        { queue with readIndex := align4 queue.readIndex % queue.queueSize })

/-- `gen7_hfi_queue_write`: the return value and the queue. -/
def queueWrite (queue : HfiQueue) (msg : Nat → U32) (sizeBytes : U32) : Int × HfiQueue :=
  let sizeDwords := sizeBytes >>> 2
  let alignSize := align4 sizeDwords
  if queue.status = hfiQueueStatusDisabled ∨ sizeBytes &&& 3 ≠ 0 then (einval, queue)
  else
    let emptySpace :=
      if queue.readIndex ≤ queue.writeIndex then
        queue.queueSize - (queue.writeIndex - queue.readIndex)
      else queue.readIndex - queue.writeIndex
    if emptySpace ≤ alignSize then (enospc, queue)
    else
      let written := copyIn queue.queueSize queue.cells queue.writeIndex
        (slice msg 0 sizeDwords.toNat)
      let filled := copyIn queue.queueSize written.1 written.2
        (List.replicate (alignSize.toNat - sizeDwords.toNat) cookie)
      (0, { queue with cells := filled.1, writeIndex := filled.2 })

/-! ## Machine words -/

theorem msgHdrGetSize_lt (hdr : U32) : (msgHdrGetSize hdr).toNat < 256 := by
  have below : (msgHdrGetSize hdr).toNat ≤ 255 := by exact Nat.and_le_right
  omega

/-- Four dwords at a time. -/
def roundUp4 (n : Nat) : Nat :=
  (n + 3) / 4 * 4

theorem le_roundUp4 (n : Nat) : n ≤ roundUp4 n := by
  unfold roundUp4
  omega

theorem dvd_roundUp4 (n : Nat) : 4 ∣ roundUp4 n :=
  Dvd.intro_left _ rfl

/-- Rounding up commutes with adding whole groups. -/
theorem roundUp4_add {whole : Nat} (isWhole : 4 ∣ whole) (n : Nat) :
    roundUp4 (whole + n) = whole + roundUp4 n := by
  unfold roundUp4
  omega

/-- The index at which the reader stopped, rounded up, is where the filling ends. -/
theorem roundUp4_mod {size : Nat} (isWhole : 4 ∣ size) (n : Nat) :
    roundUp4 (n % size) % size = roundUp4 n % size := by
  have whole : 4 ∣ size * (n / size) := Dvd.dvd.mul_right isWhole _
  calc
    roundUp4 (n % size) % size
        = (size * (n / size) + roundUp4 (n % size)) % size := by
          rw [Nat.mul_add_mod]
    _ = roundUp4 n % size := by
          rw [← roundUp4_add whole, Nat.div_add_mod]

theorem align4_toNat {x : U32} (small : x.toNat + 3 < 2 ^ 32) :
    (align4 x).toNat = roundUp4 x.toNat := by
  have sum : (x + 3).toNat = x.toNat + 3 := by exact Nat.mod_eq_of_lt small
  have mask : ~~~(3 : U32) = BitVec.allOnes 32 <<< 2 := by decide
  have shifted : align4 x = (x + 3) >>> 2 <<< 2 := by
    rw [align4, mask, BitVec.shiftLeft_ushiftRight]
  rw [shifted, BitVec.toNat_shiftLeft, BitVec.toNat_ushiftRight, roundUp4]
  omega

/-- An index that runs around the queue. -/
theorem succ_mod_toNat {idx size : U32} (inQueue : idx.toNat < size.toNat) :
    ((idx + 1) % size).toNat = (idx.toNat + 1) % size.toNat := by
  have one : (1 : U32).toNat = 1 := rfl
  have sum : (idx + 1).toNat = idx.toNat + 1 := by exact Nat.mod_eq_of_lt (by omega)
  rw [BitVec.toNat_umod, sum]

/-! ## The copy loops -/

theorem copyIn_append (queueSize : U32) (cells : Nat → U32) (writeIdx : U32)
    (first second : List U32) :
    copyIn queueSize cells writeIdx (first ++ second)
      = copyIn queueSize (copyIn queueSize cells writeIdx first).1
          (copyIn queueSize cells writeIdx first).2 second := by
  induction first generalizing cells writeIdx with
  | nil => rfl
  | cons word first ih => exact ih _ _

/-- The writer puts the dwords around the ring. -/
theorem wrote_copyIn {queueSize : U32} (cells : Nat → U32) {writeIdx : U32}
    (inQueue : writeIdx.toNat < queueSize.toNat) {words : List U32}
    (short : words.length ≤ queueSize.toNat) :
    Wrote cells (copyIn queueSize cells writeIdx words).1 queueSize.toNat writeIdx.toNat words
      ∧ (copyIn queueSize cells writeIdx words).2.toNat
        = (writeIdx.toNat + words.length) % queueSize.toNat := by
  induction words generalizing cells writeIdx with
  | nil => exact ⟨.nil, (Nat.mod_eq_of_lt inQueue).symm⟩
  | cons word words ih =>
    rw [List.length_cons] at short
    have next := succ_mod_toNat inQueue
    have inQueueNext : ((writeIdx + 1) % queueSize).toNat < queueSize.toNat := by
      exact Nat.mod_lt _ (by omega)
    obtain ⟨wrote, last⟩ := ih (update cells writeIdx.toNat word) inQueueNext (by omega)
    rw [next] at wrote last
    refine ⟨wrote.cons inQueue short, ?_⟩
    rw [copyIn, last, Nat.mod_add_mod, List.length_cons]
    congr 1
    omega

/-- The reader takes the dwords around the ring. -/
theorem copyOut_eq {queueSize : U32} (cells : Nat → U32) {read : U32}
    (inQueue : read.toNat < queueSize.toNat) (count i : Nat) (output : Nat → U32) :
    (copyOut cells queueSize count i output read).1
        = blit output i (window cells queueSize.toNat read.toNat count)
      ∧ (copyOut cells queueSize count i output read).2.toNat
        = (read.toNat + count) % queueSize.toNat := by
  induction count generalizing i output read with
  | zero => exact ⟨(blit_nil output i).symm, (Nat.mod_eq_of_lt inQueue).symm⟩
  | succ count ih =>
    have next := succ_mod_toNat inQueue
    have inQueueNext : ((read + 1) % queueSize).toNat < queueSize.toNat := by
      exact Nat.mod_lt _ (by omega)
    obtain ⟨copied, last⟩ := ih inQueueNext (i + 1) (update output i (cells read.toNat))
    rw [next] at copied last
    have adjacent : i + 1 = i + [cells read.toNat].length := rfl
    constructor
    · rw [copyOut, copied, Nat.add_comm count 1, window_add, window_one inQueue,
        ← blit_blit adjacent, blit_singleton]
    · rw [copyOut, last, Nat.mod_add_mod]
      congr 1
      omega

end Sm8650.Kgsl
