import Sm8650.HwFence.Queue
import Sm8650.Transition.Calls

/-!
# The client queues as bounded FIFOs

The abstract queue is a list of at most `capacity` messages. The memory of a
client queue represents such a list when the ring of dwords between the translated
indices consists of the blocks of its messages; every call keeps this, and the
index written back always translates to the index it stands for.
-/

namespace Sm8650.HwFence

open Sm8650.Ring Transition List MsmHwFenceQueue
open BitVec hiding cons_append

/-- A call on a queue. -/
inductive QueueCall
  | write (message : QueueMessage)
  | read
  deriving DecidableEq, Repr

/-- The payload that carries a message. -/
def QueueMessage.payload (message : QueueMessage) (reserve : U32) : MsmHwFenceQueuePayload where
  size := BitVec.ofNat 32 hwFenceClientQueuePayload
  type := hwFencePayloadType1
  version := hwFencePayloadRev10
  ctxtId := message.ctxtId
  seqno := message.seqno
  hash := message.hash
  flags := message.flags
  clientData := message.clientData
  error := message.error
  timestampLo := message.timestamp.extractLsb' 0 32
  timestampHi := message.timestamp.extractLsb' 32 32
  reserve

/-- A bounded FIFO with the return values of the driver: a write to a full queue
and a read from an empty one fail, and a read returns 1 while messages remain. -/
def fifoStep (capacity : Nat) (pending : List QueueMessage) :
    QueueCall → QueueReply × List QueueMessage
  | .write message =>
    if pending.length = capacity then
      (⟨einval, none⟩, pending)
    else
      (⟨0, none⟩, pending ++ [message])
  | .read =>
    match pending with
    | [] => (⟨einval, none⟩, [])
    | message :: rest => (⟨if rest = [] then 0 else 1, some (message.payload 0)⟩, rest)

/-- A call on the queue of a client at `queueType`. -/
def clientQueueStep (clientLockTblCnt : Nat) (client : MsmHwFenceClient) (queueType : Nat)
    (mem : QueueMemory) : QueueCall → QueueReply × QueueMemory
  | .write message => hwFenceUpdateQueue clientLockTblCnt client queueType message mem
  | .read => hwFenceReadQueueHelper (client.queues queueType) mem

/-- A reply without the dword of the payload that no write sets. -/
def QueueReply.observed (reply : QueueReply) : QueueReply :=
  { reply with payload := reply.payload.map fun payload => { payload with reserve := 0 } }

/-- A reply without the indication of a successful read whether messages remain. -/
def QueueReply.delivered (reply : QueueReply) : QueueReply :=
  { reply.observed with ret := if reply.payload.isSome then 0 else reply.ret }

/-- The translated indices are multiples of the payload size below the queue size. -/
structure IndicesAligned (queue : MsmHwFenceQueue) (mem : QueueMemory) : Prop where
  read_dvd : payloadSizeU32.toNat ∣ (queue.toDefault mem.header.readIndex).toNat
  read_lt : queue.toDefault mem.header.readIndex < queue.qSizeU32
  write_dvd : payloadSizeU32.toNat ∣ (queue.toDefault mem.header.writeIndex).toNat
  write_lt : queue.toDefault mem.header.writeIndex < queue.qSizeU32

/-- The 16 dwords of a message and of the reserved dword behind it. -/
def payloadWords (stored : QueueMessage × U32) : List U32 :=
  [64, hwFencePayloadRev10 ++ hwFencePayloadType1,
    stored.1.ctxtId.extractLsb' 0 32, stored.1.ctxtId.extractLsb' 32 32,
    stored.1.seqno.extractLsb' 0 32, stored.1.seqno.extractLsb' 32 32,
    stored.1.hash.extractLsb' 0 32, stored.1.hash.extractLsb' 32 32,
    stored.1.flags.extractLsb' 0 32, stored.1.flags.extractLsb' 32 32,
    stored.1.clientData.extractLsb' 0 32, stored.1.clientData.extractLsb' 32 32,
    stored.1.error, stored.1.timestamp.extractLsb' 0 32, stored.1.timestamp.extractLsb' 32 32,
    stored.2]

@[simp]
theorem length_payloadWords (stored : QueueMessage × U32) : (payloadWords stored).length = 16 :=
  rfl

theorem length_flatMap_payloadWords (stored : List (QueueMessage × U32)) :
    (stored.flatMap payloadWords).length = 16 * stored.length := by
  induction stored with
  | nil => rfl
  | cons first rest ih =>
    rw [flatMap_cons, length_append, length_payloadWords, length_cons]
    omega

/-- The stores of a write are one block copy; the reserved dword keeps its value. -/
theorem writePtrPayload_eq (cells : Nat → U32) (start : Nat) (message : QueueMessage) :
    writePtrPayload cells start message
      = blit cells start (payloadWords (message, cells (start + 15))) := by
  have sizeAndType : writewHigh (writewLow (writeq cells start
      (BitVec.ofNat 64 hwFenceClientQueuePayload)) (start + 1) hwFencePayloadType1) (start + 1)
        hwFencePayloadRev10 = blit cells start [64, hwFencePayloadRev10 ++ hwFencePayloadType1] := by
    have low : writewLow (writeq cells start (BitVec.ofNat 64 hwFenceClientQueuePayload))
        (start + 1) hwFencePayloadType1 = blit cells start [64, 1] := by
      have high : writeq cells start (BitVec.ofNat 64 hwFenceClientQueuePayload) (start + 1) = 0 := by
        exact blit_at (i := 1) (by simp)
      rw [writewLow, high]
      exact blit_overwrite cells start [64] _ _
    have stored : blit cells start [(64 : U32), 1] (start + 1) = 1 :=
      blit_at (i := 1) (by simp)
    rw [low, writewHigh, stored]
    exact blit_overwrite cells start [64] _ _
  have reserve : blit (blit cells start ((payloadWords (message, cells (start + 15))).take 15))
      (start + 15) [cells (start + 15)]
        = blit cells start ((payloadWords (message, cells (start + 15))).take 15) := by
    have kept : blit cells start ((payloadWords (message, cells (start + 15))).take 15) (start + 15)
        = cells (start + 15) := blit_outside (.inr (by simp))
    conv_lhs => rw [← kept]
    exact blit_self _ _
  have fields : writePtrPayload cells start message
      = blit cells start ((payloadWords (message, cells (start + 15))).take 15) := by
    rw [writePtrPayload, sizeAndType]
    simp only [writeq, writel]
    rw [blit_blit (by rfl), blit_blit (by rfl), blit_blit (by rfl), blit_blit (by rfl),
      blit_blit (by rfl), blit_blit (by rfl), blit_blit (by rfl), blit_blit (by rfl)]
    rfl
  rw [fields, ← reserve]
  exact blit_blit rfl

/-- The two dwords of a 64-bit field give the field back. -/
theorem append_extractLsb' (value : U64) :
    value.extractLsb' 32 32 ++ value.extractLsb' 0 32 = value := by
  apply eq_of_getLsbD_eq
  intro i inRange
  simp only [getLsbD_append]
  split
  · simp_all
  · have high : i - 32 < 32 := by omega
    have index : 32 + (i - 32) = i := by omega
    simp [high, index]

/-- A block of message dwords is read as the payload of the message. -/
theorem readPtrPayload_eq {cells : Nat → U32} {start : Nat} {stored : QueueMessage × U32}
    (block : slice cells start 16 = payloadWords stored) :
    readPtrPayload cells start = stored.1.payload stored.2 := by
  have word (i : Nat) {value : U32} (entry : (payloadWords stored)[i]? = some value) :
      cells (start + i) = value := by
    have inRange : i < 16 := (List.getElem?_eq_some_iff.mp entry).1
    rw [← block] at entry
    simpa [slice, inRange] using entry
  have quad (i : Nat) {value : U64}
      (low : (payloadWords stored)[i]? = some (value.extractLsb' 0 32))
      (high : (payloadWords stored)[i + 1]? = some (value.extractLsb' 32 32)) :
      readq cells (start + i) = value := by
    rw [readq, Nat.add_assoc, word i low, word (i + 1) high, append_extractLsb']
  have first : cells start = 64 := word 0 rfl
  have second : cells (start + 1) = hwFencePayloadRev10 ++ hwFencePayloadType1 := word 1 rfl
  have ctxtId : readq cells (start + 2) = stored.1.ctxtId := quad 2 rfl rfl
  have seqno : readq cells (start + 4) = stored.1.seqno := quad 4 rfl rfl
  have hash : readq cells (start + 6) = stored.1.hash := quad 6 rfl rfl
  have flags : readq cells (start + 8) = stored.1.flags := quad 8 rfl rfl
  have clientData : readq cells (start + 10) = stored.1.clientData := quad 10 rfl rfl
  have error : cells (start + 12) = stored.1.error := word 12 rfl
  have timestampLo : cells (start + 13) = stored.1.timestamp.extractLsb' 0 32 := word 13 rfl
  have timestampHi : cells (start + 14) = stored.1.timestamp.extractLsb' 32 32 := word 14 rfl
  have reserve : cells (start + 15) = stored.2 := word 15 rfl
  rw [readPtrPayload, first, second, ctxtId, seqno, hash, flags, clientData, error, timestampLo,
    timestampHi, reserve]
  rfl

/-- The dword index behind a payload: that of the next payload, or of the first one
behind the last. -/
def MsmHwFenceQueue.nextIdx (queue : MsmHwFenceQueue) (idx : U32) : U32 :=
  if queue.qSizeU32 ≤ idx + payloadSizeU32 then 0 else idx + payloadSizeU32

/-- A queue of `entries` payloads whose write index is not skipped and whose index
factor is one of the two that the device tree can select. -/
structure Configured (queue : MsmHwFenceQueue) (entries : Nat) : Prop where
  two_le : 2 ≤ entries
  bounded : 64 * entries < 2 ^ 32
  size_eq : queue.qSizeBytes.toNat = 64 * entries
  factor : queue.rdWrIdxFactor = 1 ∨ queue.rdWrIdxFactor = payloadSizeU32
  notSkipped : queue.skipWrIdx = false

namespace Configured

variable {queue : MsmHwFenceQueue} {entries : Nat}

section

variable (configured : Configured queue entries)

include configured

theorem qSizeU32_toNat : queue.qSizeU32.toNat = 16 * entries := by
  rw [qSizeU32, toNat_udiv, configured.size_eq]
  simp
  omega

/-- An aligned index survives the translation to the unit of the queue and back. -/
theorem toDefault_toCustom {idx : U32}
    (aligned : 16 ∣ idx.toNat) : queue.toDefault (queue.toCustom idx) = idx := by
  rw [toDefault, toCustom]
  by_cases translated : queue.requiresIdxTranslation
  · rw [if_pos translated, if_pos translated, idxTranslateCustomToDefault,
      idxTranslateDefaultToCustom, add_sub_cancel]
    rcases configured.factor with factor | factor
    · rw [factor]
      simp
    · rw [factor]
      apply eq_of_toNat_eq
      have size : payloadSizeU32.toNat = 16 := rfl
      rw [toNat_mul, toNat_udiv, size]
      omega
  · rw [if_neg translated, if_neg translated]

/-- The first dword is at the start index. -/
theorem toCustom_zero : queue.toCustom 0 = queue.rdWrIdxStart := by
  have factor : queue.rdWrIdxFactor ≠ 0 := by
    rcases configured.factor with factor | factor <;> rw [factor] <;> decide
  rw [toCustom]
  split
  · simp [idxTranslateDefaultToCustom]
  · rename_i plain
    rw [requiresIdxTranslation, decide_eq_true_eq] at plain
    by_contra noStart
    exact plain ⟨factor, .inl (Ne.symm noStart)⟩

theorem nextIdx_toNat {idx : U32} (aligned : 16 ∣ idx.toNat) (inQueue : idx.toNat < 16 * entries) :
    (queue.nextIdx idx).toNat = (idx.toNat + 16) % (16 * entries) := by
  rw [nextIdx]
  have bounded := configured.bounded
  have sum : (idx + payloadSizeU32).toNat = idx.toNat + 16 := by
    have size : payloadSizeU32.toNat = 16 := rfl
    rw [toNat_add]
    omega
  by_cases wraps : queue.qSizeU32 ≤ idx + payloadSizeU32
  · rw [if_pos wraps]
    rw [le_def, configured.qSizeU32_toNat] at wraps
    have atEnd : idx.toNat + 16 = 16 * entries := by omega
    rw [atEnd, Nat.mod_self]
    rfl
  · rw [if_neg wraps, sum]
    rw [le_def, configured.qSizeU32_toNat] at wraps
    rw [Nat.mod_eq_of_lt (by omega)]

theorem nextIdx_aligned {idx : U32}
    (aligned : 16 ∣ idx.toNat) (inQueue : idx.toNat < 16 * entries) :
    16 ∣ (queue.nextIdx idx).toNat := by
  rw [configured.nextIdx_toNat aligned inQueue]
  exact (Nat.dvd_mod_iff ⟨entries, rfl⟩).mpr (Nat.dvd_add aligned (Nat.dvd_refl 16))

end

end Configured

/-- The indices of the header stand for the aligned dword indices `rd` and `wr`, and
the ring between them consists of the blocks of the stored messages. -/
structure Carries (queue : MsmHwFenceQueue) (entries : Nat) (mem : QueueMemory) (rd wr : U32)
    (stored : List (QueueMessage × U32)) : Prop where
  readIndex_eq : mem.header.readIndex = queue.toCustom rd
  writeIndex_eq : mem.header.writeIndex = queue.toCustom wr
  rd_aligned : 16 ∣ rd.toNat
  wr_aligned : 16 ∣ wr.toNat
  holds : Holds mem.cells (16 * entries) rd.toNat wr.toNat (stored.flatMap payloadWords)

/-- The checks that a write makes before it looks at the queue succeed. -/
structure Admitted (clientLockTblCnt : Nat) (client : MsmHwFenceClient) (queueType : Nat) :
    Prop where
  queue_lt : queueType < client.queuesNum
  lock_lt : lockClientQueue queueType = true → (client.clientId - 1).toNat < clientLockTblCnt

namespace Carries

variable {queue : MsmHwFenceQueue} {entries : Nat} {mem : QueueMemory} {rd wr : U32}
  {stored rest : List (QueueMessage × U32)} {first : QueueMessage × U32}

section

variable (carries : Carries queue entries mem rd wr stored)

include carries

theorem stored_lt : stored.length < entries := by
  have short := carries.holds.pending_lt
  rw [length_flatMap_payloadWords] at short
  omega

theorem indicesAligned (configured : Configured queue entries) : IndicesAligned queue mem := by
  have readIdx : queue.toDefault mem.header.readIndex = rd := by
    rw [carries.readIndex_eq, configured.toDefault_toCustom carries.rd_aligned]
  have writeIdx : queue.toDefault mem.header.writeIndex = wr := by
    rw [carries.writeIndex_eq, configured.toDefault_toCustom carries.wr_aligned]
  refine ⟨?_, ?_, ?_, ?_⟩
  · rw [readIdx]
    exact carries.rd_aligned
  · rw [readIdx, lt_def, configured.qSizeU32_toNat]
    exact carries.holds.rd_lt
  · rw [writeIdx]
    exact carries.wr_aligned
  · rw [writeIdx, lt_def, configured.qSizeU32_toNat]
    exact carries.holds.wr_lt

/-- `q_free_u32` is the room behind the stored payloads. -/
theorem free_toNat (configured : Configured queue entries) :
    (if rd ≤ wr then queue.qSizeU32 - (wr - rd) else rd - wr : U32).toNat
      = 16 * entries - 16 * stored.length := by
  have holds := carries.holds
  rw [← configured.qSizeU32_toNat] at holds
  rw [holds.free_toNat, configured.qSizeU32_toNat, length_flatMap_payloadWords]

end

theorem read_nil (carries : Carries queue entries mem rd wr []) :
    hwFenceReadQueueHelper queue mem = (⟨einval, none⟩, mem) := by
  have same : rd = wr := eq_of_toNat_eq (carries.holds.rd_eq_wr_iff.mpr rfl)
  rw [hwFenceReadQueueHelper, carries.readIndex_eq, carries.writeIndex_eq, same]
  simp

/-- A read returns the oldest payload and drops it. Its return value compares the
new read index in the unit of the header with the write index in dwords. -/
theorem read_cons (carries : Carries queue entries mem rd wr (first :: rest))
    (configured : Configured queue entries) :
    ∃ next, hwFenceReadQueueHelper queue mem
        = (⟨if queue.toCustom (queue.nextIdx rd) = wr then 0 else 1,
            some (first.1.payload first.2)⟩, next)
      ∧ Carries queue entries next (queue.nextIdx rd) wr rest := by
  have holds := carries.holds
  have differ : rd ≠ wr := by
    intro same
    have nothing := holds.rd_eq_wr_iff.mp (congrArg BitVec.toNat same)
    simp [payloadWords] at nothing
  have block : slice mem.cells rd.toNat 16 = payloadWords first := by
    have front := holds.window_front
    have inside : rd.toNat + 16 ≤ 16 * entries := by
      have aligned := carries.rd_aligned
      have inQueue := holds.rd_lt
      omega
    rwa [length_payloadWords, window_eq_slice inside] at front
  refine ⟨{ mem with header :=
    { mem.header with readIndex := queue.toCustom (queue.nextIdx rd) } }, ?_, ?_⟩
  · rw [hwFenceReadQueueHelper, carries.readIndex_eq, carries.writeIndex_eq,
      configured.toDefault_toCustom carries.rd_aligned,
      configured.toDefault_toCustom carries.wr_aligned]
    simp only [if_neg differ, readPtrPayload_eq block]
    rfl
  · refine ⟨rfl, carries.writeIndex_eq, ?_, carries.wr_aligned, ?_⟩
    · exact configured.nextIdx_aligned carries.rd_aligned holds.rd_lt
    · rw [configured.nextIdx_toNat carries.rd_aligned holds.rd_lt]
      exact holds.read

section Update

variable {clientLockTblCnt queueType : Nat} {client : MsmHwFenceClient}

/-- A write looks only at the room behind the stored payloads. -/
theorem update_eq (carries : Carries (client.queues queueType) entries mem rd wr stored)
    (configured : Configured (client.queues queueType) entries)
    (admitted : Admitted clientLockTblCnt client queueType) (message : QueueMessage) :
    hwFenceUpdateQueue clientLockTblCnt client queueType message mem
      = if entries ≤ stored.length + 1 then
          (⟨einval, none⟩, mem)
        else
          (⟨0, none⟩,
            { header := { mem.header with
                writeIndex := (client.queues queueType).toCustom
                  ((client.queues queueType).nextIdx wr) }
              cells := writePtrPayload mem.cells wr.toNat message }) := by
  have free := carries.free_toNat configured
  have noRoom_iff : (if rd ≤ wr then (client.queues queueType).qSizeU32 - (wr - rd) else rd - wr)
      ≤ payloadSizeU32 ↔ entries ≤ stored.length + 1 := by
    have size : payloadSizeU32.toNat = 16 := rfl
    rw [le_def]
    omega
  have locked : ¬ (lockClientQueue queueType = true
      ∧ clientLockTblCnt ≤ (client.clientId - 1).toNat) := by
    rintro ⟨rx, beyond⟩
    exact absurd (admitted.lock_lt rx) (Nat.not_lt.mpr beyond)
  rw [hwFenceUpdateQueue, if_neg (Nat.not_le.mpr admitted.queue_lt), if_neg locked]
  simp only [wrIndex, setWrIndex, configured.notSkipped,
    Bool.false_eq_true, if_false, carries.readIndex_eq, carries.writeIndex_eq,
    configured.toDefault_toCustom carries.rd_aligned,
    configured.toDefault_toCustom carries.wr_aligned, noRoom_iff]
  rfl

/-- A write to a queue with room stores the message behind the others. -/
theorem update_room (carries : Carries (client.queues queueType) entries mem rd wr stored)
    (configured : Configured (client.queues queueType) entries)
    (admitted : Admitted clientLockTblCnt client queueType)
    (message : QueueMessage) (room : stored.length + 1 < entries) :
    ∃ next reserve, hwFenceUpdateQueue clientLockTblCnt client queueType message mem
        = (⟨0, none⟩, next)
      ∧ Carries (client.queues queueType) entries next rd ((client.queues queueType).nextIdx wr)
          (stored ++ [(message, reserve)]) := by
  have holds := carries.holds
  have inside : wr.toNat + 16 ≤ 16 * entries := by
    have aligned := carries.wr_aligned
    have inQueue := holds.wr_lt
    omega
  have wrote : Wrote mem.cells (writePtrPayload mem.cells wr.toNat message) (16 * entries)
      wr.toNat (payloadWords (message, mem.cells (wr.toNat + 15))) := by
    rw [writePtrPayload_eq]
    exact wrote_blit inside
  refine ⟨_, mem.cells (wr.toNat + 15),
    (carries.update_eq configured admitted message).trans (if_neg (Nat.not_le.mpr room)),
    carries.readIndex_eq, rfl, carries.rd_aligned, ?_, ?_⟩
  · exact configured.nextIdx_aligned carries.wr_aligned holds.wr_lt
  · rw [configured.nextIdx_toNat carries.wr_aligned holds.wr_lt, flatMap_append]
    refine holds.write wrote ?_
    rw [length_flatMap_payloadWords, length_payloadWords]
    omega

end Update

end Carries

/-- The memory of a queue represents a list of messages. -/
def Represents (queue : MsmHwFenceQueue) (entries : Nat) (mem : QueueMemory)
    (pending : List QueueMessage) : Prop :=
  ∃ rd wr stored, Carries queue entries mem rd wr stored ∧ stored.map Prod.fst = pending

section Simulation

variable {clientLockTblCnt queueType entries : Nat} {client : MsmHwFenceClient}
  {mem : QueueMemory} {pending : List QueueMessage}

/-- One call on a client queue and on the bounded FIFO: the two deliver the same, and
without index translation they also agree on whether messages remain. -/
theorem clientQueueStep_simulates (configured : Configured (client.queues queueType) entries)
    (admitted : Admitted clientLockTblCnt client queueType)
    (represents : Represents (client.queues queueType) entries mem pending) (call : QueueCall) :
    (clientQueueStep clientLockTblCnt client queueType mem call).1.delivered
        = (fifoStep (entries - 1) pending call).1.delivered
      ∧ ((client.queues queueType).requiresIdxTranslation = false →
          (clientQueueStep clientLockTblCnt client queueType mem call).1.observed
            = (fifoStep (entries - 1) pending call).1)
      ∧ Represents (client.queues queueType) entries
          (clientQueueStep clientLockTblCnt client queueType mem call).2
          (fifoStep (entries - 1) pending call).2 := by
  obtain ⟨rd, wr, stored, carries, rfl⟩ := represents
  cases call with
  | write message =>
    have short := carries.stored_lt
    by_cases full : stored.length = entries - 1
    · have reject := carries.update_eq configured admitted message
      rw [if_pos (by omega)] at reject
      simp only [clientQueueStep, reject, fifoStep, length_map, if_pos full]
      exact ⟨trivial, fun _ => rfl, rd, wr, stored, carries, rfl⟩
    · obtain ⟨next, reserve, accepted, carriesNext⟩ :=
        carries.update_room configured admitted message (by omega)
      simp only [clientQueueStep, accepted, fifoStep, length_map, if_neg full]
      refine ⟨trivial, fun _ => rfl, rd, _, _, carriesNext, ?_⟩
      simp
  | read =>
    cases stored with
    | nil =>
      simp only [clientQueueStep, carries.read_nil, fifoStep, map_nil]
      exact ⟨trivial, fun _ => rfl, rd, wr, [], carries, rfl⟩
    | cons first rest =>
      obtain ⟨next, taken, carriesNext⟩ := carries.read_cons configured
      simp only [clientQueueStep, taken, fifoStep, map_cons]
      refine ⟨rfl, fun plain => ?_, _, wr, rest, carriesNext, rfl⟩
      have emptied : (client.queues queueType).nextIdx rd = wr ↔ rest = [] := by
        rw [← toNat_inj, carriesNext.holds.rd_eq_wr_iff,
          ← length_eq_zero_iff, length_flatMap_payloadWords, ← length_eq_zero_iff]
        omega
      simp only [toCustom, plain, Bool.false_eq_true, if_false, emptied, map_eq_nil_iff]
      rfl

end Simulation

/-- The contract of a queue that starts empty: every sequence of calls gets the replies
of the bounded FIFO and leaves aligned indices inside the queue. -/
def FifoContract (step : QueueMemory → QueueCall → QueueReply × QueueMemory)
    (queue : MsmHwFenceQueue) (capacity : Nat) (mem : QueueMemory) : Prop :=
  ∀ calls, (runCalls step mem calls).1.map QueueReply.observed
      = (runCalls (fifoStep capacity) [] calls).1
    ∧ IndicesAligned queue (runCalls step mem calls).2

section Contract

variable {clientLockTblCnt queueType entries : Nat} {client : MsmHwFenceClient}
  {mem : QueueMemory}

/-- Whatever the unit of the indices, a queue delivers every message once and in order,
rejects a write exactly when it is full, and keeps its indices aligned. -/
theorem clientQueue_delivers (configured : Configured (client.queues queueType) entries)
    (admitted : Admitted clientLockTblCnt client queueType)
    (represents : Represents (client.queues queueType) entries mem []) (calls : List QueueCall) :
    (runCalls (clientQueueStep clientLockTblCnt client queueType) mem calls).1.map
          QueueReply.delivered
        = (runCalls (fifoStep (entries - 1)) [] calls).1.map QueueReply.delivered
      ∧ IndicesAligned (client.queues queueType)
          (runCalls (clientQueueStep clientLockTblCnt client queueType) mem calls).2 := by
  have simulates (state : QueueMemory) (abs : List QueueMessage) (call : QueueCall)
      (related : Represents (client.queues queueType) entries state abs) :=
    And.intro (clientQueueStep_simulates configured admitted related call).1
      (clientQueueStep_simulates configured admitted related call).2.2
  obtain ⟨sameReplies, _, _, _, carries, _⟩ := runCalls_simulates simulates represents calls
  exact ⟨sameReplies, carries.indicesAligned configured⟩

theorem fifoContract_of_plain (configured : Configured (client.queues queueType) entries)
    (admitted : Admitted clientLockTblCnt client queueType)
    (represents : Represents (client.queues queueType) entries mem [])
    (plain : (client.queues queueType).requiresIdxTranslation = false) :
    FifoContract (clientQueueStep clientLockTblCnt client queueType) (client.queues queueType)
      (entries - 1) mem := by
  intro calls
  refine ⟨?_, (clientQueue_delivers configured admitted represents calls).2⟩
  have simulates (state : QueueMemory) (abs : List QueueMessage) (call : QueueCall)
      (related : Represents (client.queues queueType) entries state abs) :
      (clientQueueStep clientLockTblCnt client queueType state call).1.observed
          = id (fifoStep (entries - 1) abs call).1 ∧ _ :=
    And.intro ((clientQueueStep_simulates configured admitted related call).2.1 plain)
      (clientQueueStep_simulates configured admitted related call).2.2
  rw [(runCalls_simulates simulates represents calls).1, map_id]

/-- A write to an empty queue and a read of its message. -/
theorem Carries.round {idx : U32}
    (carries : Carries (client.queues queueType) entries mem idx idx [])
    (configured : Configured (client.queues queueType) entries)
    (admitted : Admitted clientLockTblCnt client queueType) (message : QueueMessage) :
    ∃ reserve next,
      runCalls (clientQueueStep clientLockTblCnt client queueType) mem [.write message, .read]
          = ([⟨0, none⟩,
              ⟨if (client.queues queueType).toCustom ((client.queues queueType).nextIdx idx)
                  = (client.queues queueType).nextIdx idx then 0 else 1,
                some (message.payload reserve)⟩], next)
        ∧ Carries (client.queues queueType) entries next
            ((client.queues queueType).nextIdx idx) ((client.queues queueType).nextIdx idx) [] := by
  have two := configured.two_le
  obtain ⟨written, reserve, accepted, carriesWritten⟩ :=
    carries.update_room configured admitted message (by simp; omega)
  obtain ⟨next, taken, carriesNext⟩ := carriesWritten.read_cons configured
  refine ⟨reserve, next, ?_, carriesNext⟩
  simp only [runCalls, clientQueueStep, accepted, taken]

/-- Two rounds of a write and a read from an empty queue tell whether indices are
translated: the first two read indices would have to be the same in both units. -/
theorem plain_of_fifoContract (configured : Configured (client.queues queueType) entries)
    (admitted : Admitted clientLockTblCnt client queueType)
    (carries : Carries (client.queues queueType) entries mem 0 0 [])
    (contract : FifoContract (clientQueueStep clientLockTblCnt client queueType)
      (client.queues queueType) (entries - 1) mem) :
    (client.queues queueType).requiresIdxTranslation = false := by
  let message : QueueMessage := ⟨0, 0, 0, 0, 0, 0, 0⟩
  have two := configured.two_le
  obtain ⟨reserve₁, mem₁, run₁, carries₁⟩ := carries.round configured admitted message
  obtain ⟨reserve₂, mem₂, run₂, carries₂⟩ := carries₁.round configured admitted message
  have replies := (contract ([.write message, .read] ++ [.write message, .read])).1
  have room : ¬ 0 = entries - 1 := by omega
  rw [runCalls_append, run₁, run₂] at replies
  simp only [runCalls, fifoStep, length_nil, if_neg room, nil_append,
    QueueReply.observed, cons_append, map_cons, Option.map, cons.injEq,
    QueueReply.mk.injEq, if_true, true_and] at replies
  obtain ⟨⟨ret₁, _⟩, ⟨ret₂, _⟩, _⟩ := replies
  have size := configured.qSizeU32_toNat
  have first : (client.queues queueType).nextIdx 0 = 16 := by
    rw [nextIdx, if_neg]
    · rfl
    · rw [le_def]
      simp [payloadSizeU32]
      omega
  have second : (client.queues queueType).nextIdx 16 = 0
      ∨ (client.queues queueType).nextIdx 16 = 32 := by
    rw [nextIdx]
    split
    · exact .inl rfl
    · exact .inr rfl
  rw [first] at ret₁ ret₂
  have same₁ : (client.queues queueType).toCustom 16 = 16 := by
    by_contra differ
    rw [if_neg differ] at ret₁
    exact absurd ret₁ (by decide)
  have same₂ : (client.queues queueType).toCustom ((client.queues queueType).nextIdx 16)
      = (client.queues queueType).nextIdx 16 := by
    by_contra differ
    rw [if_neg differ] at ret₂
    exact absurd ret₂ (by decide)
  rw [Bool.eq_false_iff]
  intro translated
  simp only [toCustom, if_pos translated, idxTranslateDefaultToCustom] at same₁ same₂
  rw [requiresIdxTranslation] at translated
  rcases configured.factor with factor | factor
  · rw [factor] at same₁ translated
    have noStart : (client.queues queueType).rdWrIdxStart = 0 := by simpa using same₁
    simp [noStart] at translated
  · rw [factor] at same₁ same₂
    have start : (client.queues queueType).rdWrIdxStart = 15 := by
      have one : (16 / payloadSizeU32 : U32) = 1 := by decide
      bv_omega
    rw [start] at same₂
    rcases second with atStart | behind
    · rw [atStart] at same₂
      exact absurd same₂ (by decide)
    · rw [behind] at same₂
      exact absurd same₂ (by decide)

end Contract

section Registered

variable {tableHeaderSize queueHeaderSize : Nat} {defaultEntries : U32}
  {entry : Option (U32 × U32 × U32 × U32)} {extra : Option (List U32)}
  {type desc : ClientTypeDesc}

/-- A client type of the driver with properties that the device-tree checks accept. -/
def DtAccepted (desc : ClientTypeDesc) : Prop :=
  ∃ tableHeaderSize queueHeaderSize defaultEntries entry extra,
    ∃ type ∈ hwFenceClientTypes,
      parseClientQueueDtPropsIndv tableHeaderSize queueHeaderSize defaultEntries entry extra type
        = some desc

theorem parseExtra_spec
    (parsed : parseClientQueueDtPropsExtra tableHeaderSize queueHeaderSize extra type = some desc) :
    desc.queueEntries = type.queueEntries
      ∧ (desc.txqIdxFactor = type.txqIdxFactor ∨ desc.txqIdxFactor = 1
          ∨ desc.txqIdxFactor = payloadSizeU32) := by
  cases extra with
  | none =>
    cases parsed
    exact ⟨rfl, .inl rfl⟩
  | some tmp =>
    simp only [parseClientQueueDtPropsExtra, Option.ite_none_left_eq_some,
      Option.some.injEq] at parsed
    obtain ⟨_, _, _, _, _, _, rfl⟩ := parsed
    refine ⟨rfl, ?_⟩
    simp only [ClientTypeDesc.withExtra]
    split
    · split
      · exact .inr (.inr rfl)
      · exact .inr (.inl rfl)
    · exact .inl rfl

theorem parseIndv_spec
    (parsed : parseClientQueueDtPropsIndv tableHeaderSize queueHeaderSize defaultEntries entry
      extra type = some desc) :
    desc.queueEntries.toNat < u32Max / hwFenceClientQueuePayload
      ∧ (desc.txqIdxFactor = type.txqIdxFactor ∨ desc.txqIdxFactor = 1
          ∨ desc.txqIdxFactor = payloadSizeU32) := by
  simp only [parseClientQueueDtPropsIndv, Option.bind_eq_bind, Option.bind_eq_some_iff,
    Option.ite_none_left_eq_some, Option.some.injEq] at parsed
  obtain ⟨counted, fromEntry, _, padded, parsedExtra, fits, _, _, rfl⟩ := parsed
  have keptFactor : counted.txqIdxFactor = type.txqIdxFactor := by
    simp only [ClientTypeDesc.withEntry] at fromEntry
    split at fromEntry
    · cases fromEntry
      rfl
    · rw [Option.ite_none_left_eq_some] at fromEntry
      obtain ⟨_, selected⟩ := fromEntry
      cases selected
      rfl
  obtain ⟨_, factor⟩ := parseExtra_spec parsedExtra
  rw [keptFactor] at factor
  exact ⟨Nat.not_le.mp fits, factor⟩

theorem txqIdxFactor_of_mem (known : type ∈ hwFenceClientTypes) : type.txqIdxFactor = 0 := by
  revert type
  decide

/-- The queues of a client whose type has accepted properties. -/
theorem DtAccepted.configured (accepted : DtAccepted desc) {queueType : Nat}
    (two : 2 ≤ desc.queueEntries.toNat)
    (notSkipped : (initHwFencesQueue desc queueType).skipWrIdx = false) :
    Configured (initHwFencesQueue desc queueType) desc.queueEntries.toNat := by
  obtain ⟨_, _, _, _, _, type, known, parsed⟩ := accepted
  obtain ⟨fits, factor⟩ := parseIndv_spec parsed
  rw [txqIdxFactor_of_mem known] at factor
  have bounded : 64 * desc.queueEntries.toNat < 2 ^ 32 := by
    simp only [u32Max, hwFenceClientQueuePayload] at fits
    omega
  refine ⟨two, bounded, ?_, ?_, notSkipped⟩
  · have size : (BitVec.ofNat 32 (64 * desc.queueEntries.toNat)).toNat
        = 64 * desc.queueEntries.toNat := by
      rw [toNat_ofNat, Nat.mod_eq_of_lt bounded]
    rw [initHwFencesQueue]
    split <;> exact size
  · rw [initHwFencesQueue]
    split
    · rcases factor with factor | factor | factor <;> simp [factor, payloadSizeU32]
    · exact .inl rfl

/-- A header in zeroed memory is initialized with both indices at the start. -/
theorem carries_init (desc : ClientTypeDesc) (cells : Nat → U32) {queueType entries : Nat}
    (configured : Configured (initHwFencesQueue desc queueType) entries) :
    Carries (initHwFencesQueue desc queueType) entries
      ⟨initHfiQueueHeader desc queueType ⟨0, 0, 0⟩, cells⟩ 0 0 [] := by
  have two := configured.two_le
  have started : (initHfiQueueHeader desc queueType ⟨0, 0, 0⟩).readIndex
        = (initHwFencesQueue desc queueType).rdWrIdxStart
      ∧ (initHfiQueueHeader desc queueType ⟨0, 0, 0⟩).writeIndex
        = (initHwFencesQueue desc queueType).rdWrIdxStart := by
    rw [initHfiQueueHeader]
    split
    · rename_i offset
      simp [initHwFencesQueue, offset.2.1]
    · rename_i noOffset
      by_cases tx : isHwFenceTxQueue queueType
      · have start : desc.txqIdxStart = 0 := by
          by_contra nonzero
          exact noOffset ⟨nonzero, tx, rfl⟩
        simp [initHwFencesQueue, tx, start]
      · simp [initHwFencesQueue, tx]
  rw [← configured.toCustom_zero] at started
  exact ⟨started.1, started.2, by simp, by simp, Holds.empty cells (by simp; omega)⟩

/-- A queue whose indices are not translated: an Rx queue, or a Tx queue whose indices
start at zero and count dwords. -/
theorem requiresIdxTranslation_init_iff (accepted : DtAccepted desc) (queueType : Nat) :
    (initHwFencesQueue desc queueType).requiresIdxTranslation = false
      ↔ (isHwFenceTxQueue queueType = true →
          desc.txqIdxStart = 0 ∧ desc.txqIdxFactor ≠ payloadSizeU32) := by
  obtain ⟨_, _, _, _, _, type, known, parsed⟩ := accepted
  obtain ⟨_, factor⟩ := parseIndv_spec parsed
  rw [txqIdxFactor_of_mem known] at factor
  by_cases tx : isHwFenceTxQueue queueType
  · rcases factor with factor | factor | factor <;>
      simp [requiresIdxTranslation, initHwFencesQueue, tx, factor, payloadSizeU32]
  · simp [requiresIdxTranslation, initHwFencesQueue, tx]

/-- A client queue of at least two entries set up in zeroed memory keeps the contract of
a FIFO exactly when its indices are dword indices from zero on. -/
theorem clientQueue_fifoContract_iff (accepted : DtAccepted desc)
    (two : 2 ≤ desc.queueEntries.toNat) {clientLockTblCnt queueType : Nat}
    {client : MsmHwFenceClient} (queues : client.queues = initHwFencesQueue desc)
    (admitted : Admitted clientLockTblCnt client queueType)
    (notSkipped : (client.queues queueType).skipWrIdx = false) (cells : Nat → U32) :
    FifoContract (clientQueueStep clientLockTblCnt client queueType) (client.queues queueType)
        (desc.queueEntries.toNat - 1) ⟨initHfiQueueHeader desc queueType ⟨0, 0, 0⟩, cells⟩
      ↔ (isHwFenceTxQueue queueType = true →
          desc.txqIdxStart = 0 ∧ desc.txqIdxFactor ≠ payloadSizeU32) := by
  have configured := accepted.configured two (queues ▸ notSkipped)
  have carries := carries_init desc cells configured
  rw [← requiresIdxTranslation_init_iff accepted, ← queues]
  rw [← queues] at configured carries
  constructor
  · exact plain_of_fifoContract configured admitted carries
  · exact fifoContract_of_plain configured admitted ⟨0, 0, [], carries, rfl⟩

/-- The gpu type with four entries per queue and the given first Tx index. -/
def sampleDesc (txqIdxStart : U32) : ClientTypeDesc :=
  ⟨1, 1, 2, 4, 0, 0, 4096, txqIdxStart, 0, false⟩

/-- The gpu client of a driver with one client lock. -/
def sampleClient (txqIdxStart : U32) : MsmHwFenceClient :=
  ⟨1, 2, initHwFencesQueue (sampleDesc txqIdxStart)⟩

theorem sampleDesc_accepted : DtAccepted (sampleDesc 0) ∧ DtAccepted (sampleDesc 1) := by
  refine ⟨⟨24, 64, 4, none, none, ⟨1, 1, 2, 0, 0, 0, 0, 0, 0, false⟩, by decide, by decide⟩,
    ⟨24, 64, 4, none, some [0, 0, 1], ⟨1, 1, 2, 0, 0, 0, 0, 0, 0, false⟩, by decide, by decide⟩⟩

theorem clientQueue_fifoContract_sample :
    FifoContract (clientQueueStep 1 (sampleClient 0) 0) ((sampleClient 0).queues 0) 3
      ⟨initHfiQueueHeader (sampleDesc 0) 0 ⟨0, 0, 0⟩, fun _ => 0⟩ :=
  (clientQueue_fifoContract_iff sampleDesc_accepted.1 (by decide) rfl
    ⟨by decide, by decide⟩ (by decide) fun _ => 0).mpr (by decide)

/-- With a Tx index that starts at one, a read that empties the queue returns 1. -/
theorem not_clientQueue_fifoContract_start :
    DtAccepted (sampleDesc 1) ∧ 2 ≤ (sampleDesc 1).queueEntries.toNat
      ∧ Admitted 1 (sampleClient 1) 0 ∧ ((sampleClient 1).queues 0).skipWrIdx = false
      ∧ ¬ FifoContract (clientQueueStep 1 (sampleClient 1) 0) ((sampleClient 1).queues 0) 3
          ⟨initHfiQueueHeader (sampleDesc 1) 0 ⟨0, 0, 0⟩, fun _ => 0⟩ := by
  refine ⟨sampleDesc_accepted.2, by decide, ⟨by decide, by decide⟩, by decide, fun contract => ?_⟩
  have replies := (contract [.write ⟨0, 0, 0, 0, 0, 0, 0⟩, .read]).1
  exact absurd replies (by decide)

end Registered

end Sm8650.HwFence
