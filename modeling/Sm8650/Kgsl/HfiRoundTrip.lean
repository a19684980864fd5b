import Sm8650.Transition.Calls
import Sm8650.Kgsl.HfiQueue

/-!
# The HFI queues as message FIFOs

The abstract queue is the list of accepted messages. Each of them takes up its size
rounded up to four dwords, and one more group must stay free, so that equal indices
always mean an empty queue.
-/

namespace Sm8650.Kgsl

open Sm8650.Ring Transition List BitVec

/-- A message of `limit` dwords at most in memory: its header carries its size. -/
structure HfiMessage (limit : Nat) where
  memory : Nat → U32
  size_pos : 0 < (msgHdrGetSize (memory 0)).toNat
  size_le : (msgHdrGetSize (memory 0)).toNat ≤ limit

/-- The dwords of a message. -/
def HfiMessage.dwords {limit : Nat} (message : HfiMessage limit) : List U32 :=
  slice message.memory 0 (msgHdrGetSize (message.memory 0)).toNat

/-- A call on a queue; a read brings a buffer of `maxSize` bytes, in which every message
fits. -/
inductive HfiCall (limit : Nat)
  | write (message : HfiMessage limit)
  | read (output : Nat → U32) (maxSize : U32) (fits : limit ≤ (maxSize >>> 2).toNat)

/-- What a call reports. -/
inductive HfiReply
  | written (rc : Int)
  | read (result : Int) (output : Nat → U32)

/-- A call on a queue. -/
def hfiStep {limit : Nat} (queue : HfiQueue) : HfiCall limit → HfiReply × HfiQueue
  | .write message =>
    let result := queueWrite queue message.memory (msgHdrGetSize (message.memory 0) <<< 2)
    (.written result.1, result.2)
  | .read output maxSize _ =>
    let result := queueRead queue output maxSize
    (.read result.1 result.2.1, result.2.2)

/-- What became of a message that was to be written, and the message that a read
obtained. -/
inductive HfiOutcome
  | accepted
  | rejected
  | obtained (message : List U32)
  | nothing
  | failed (rc : Int)
  deriving DecidableEq, Repr

/-- The outcome that a reply reports: a read returns the size of the message. -/
def HfiReply.outcome : HfiReply → HfiOutcome
  | .written rc => if rc = 0 then .accepted else if rc = enospc then .rejected else .failed rc
  | .read result output =>
    if result = enodata then .nothing
    else if result < 0 then .failed result
    else .obtained (slice output 0 result.toNat)

/-- The dwords that messages take up. -/
def occupied (pending : List (List U32)) : Nat :=
  (pending.map fun message => roundUp4 message.length).sum

/-- The message FIFO over a queue of `size` dwords: a write is rejected when the free
space is not larger than the rounded size of the message. -/
def messageFifoStep {limit : Nat} (size : Nat) (pending : List (List U32)) :
    HfiCall limit → HfiOutcome × List (List U32)
  | .write message =>
    if size - occupied pending ≤ roundUp4 message.dwords.length then (.rejected, pending)
    else (.accepted, pending ++ [message.dwords])
  | .read _ _ _ =>
    match pending with
    | [] => (.nothing, [])
    | message :: rest => (.obtained message, rest)

/-! ## Messages in the ring -/

/-- A list of dwords that is a message: its header carries its size. -/
structure WellFormed (limit : Nat) (message : List U32) : Prop where
  pos : 0 < message.length
  le : message.length ≤ limit
  head_eq : ∃ hdr, message[0]? = some hdr ∧ (msgHdrGetSize hdr).toNat = message.length

/-- A message with its filling. -/
def filled (message : List U32) : List U32 :=
  message ++ List.replicate (roundUp4 message.length - message.length) cookie

@[simp]
theorem length_filled (message : List U32) : (filled message).length = roundUp4 message.length := by
  have small := le_roundUp4 message.length
  simp only [filled, length_append, length_replicate]
  omega

theorem length_flatMap_filled (pending : List (List U32)) :
    (pending.flatMap filled).length = occupied pending := by
  simp [occupied]

theorem dvd_occupied (pending : List (List U32)) : 4 ∣ occupied pending := by
  induction pending with
  | nil => exact dvd_zero 4
  | cons message pending ih => exact Nat.dvd_add (dvd_roundUp4 message.length) ih

theorem HfiMessage.length_dwords {limit : Nat} (message : HfiMessage limit) :
    message.dwords.length = (msgHdrGetSize (message.memory 0)).toNat :=
  length_slice _ _ _

theorem HfiMessage.wellFormed {limit : Nat} (message : HfiMessage limit) :
    WellFormed limit message.dwords where
  pos := message.length_dwords ▸ message.size_pos
  le := message.length_dwords ▸ message.size_le
  head_eq := by
    simp [dwords, slice, message.size_pos]

/-- A queue in use whose ring consists of the pending messages with their filling. -/
structure Carries (limit size : Nat) (queue : HfiQueue) (pending : List (List U32)) : Prop where
  enabled : queue.status ≠ hfiQueueStatusDisabled
  size_eq : queue.queueSize.toNat = size
  size_dvd : 4 ∣ size
  read_dvd : 4 ∣ queue.readIndex.toNat
  messages : ∀ message ∈ pending, WellFormed limit message
  holds : Holds queue.cells size queue.readIndex.toNat queue.writeIndex.toNat
    (pending.flatMap filled)

namespace Carries

variable {limit size : Nat} {queue : HfiQueue} {pending rest : List (List U32)}

theorem write_dvd (carries : Carries limit size queue pending) : 4 ∣ queue.writeIndex.toNat := by
  rw [carries.holds.wr_eq, length_flatMap_filled]
  exact (Nat.dvd_mod_iff carries.size_dvd).mpr (Nat.dvd_add carries.read_dvd (dvd_occupied pending))

/-- `empty_space` is the room behind the pending messages. -/
theorem emptySpace_toNat (carries : Carries limit size queue pending) :
    (if queue.readIndex ≤ queue.writeIndex then
        queue.queueSize - (queue.writeIndex - queue.readIndex)
      else queue.readIndex - queue.writeIndex : U32).toNat = size - occupied pending := by
  have holds := carries.holds
  rw [← carries.size_eq] at holds ⊢
  rw [holds.free_toNat, length_flatMap_filled]

end Carries

/-! ## Writes -/

namespace HfiMessage

variable {limit : Nat} (message : HfiMessage limit)

/-- `size_bytes` of a message. -/
theorem sizeDwords_eq :
    msgHdrGetSize (message.memory 0) <<< 2 >>> 2 = msgHdrGetSize (message.memory 0) := by
  have small := msgHdrGetSize_lt (message.memory 0)
  apply eq_of_toNat_eq
  rw [toNat_ushiftRight, toNat_shiftLeft]
  omega

theorem sizeBytes_aligned : msgHdrGetSize (message.memory 0) <<< 2 &&& 3 = 0 := by
  ext i inRange
  have low : (3 : U32)[i] = decide (i < 2) := by
    revert i
    decide
  simp only [getElem_and, low]
  by_cases below : i < 2 <;> simp [below]

theorem alignSize_toNat :
    (align4 (msgHdrGetSize (message.memory 0))).toNat = roundUp4 message.dwords.length := by
  have small := msgHdrGetSize_lt (message.memory 0)
  rw [align4_toNat (by omega), message.length_dwords]

end HfiMessage

namespace Carries

variable {limit size : Nat} {queue : HfiQueue} {pending rest : List (List U32)}

/-- A write without room leaves the queue. -/
theorem write_rejected (carries : Carries limit size queue pending) (message : HfiMessage limit)
    (noRoom : size - occupied pending ≤ roundUp4 message.dwords.length) :
    queueWrite queue message.memory (msgHdrGetSize (message.memory 0) <<< 2) = (enospc, queue) := by
  have usable : ¬(queue.status = hfiQueueStatusDisabled
      ∨ msgHdrGetSize (message.memory 0) <<< 2 &&& 3 ≠ 0) := by
    rintro (disabled | crooked)
    · exact carries.enabled disabled
    · exact crooked message.sizeBytes_aligned
  have full : (if queue.readIndex ≤ queue.writeIndex then
        queue.queueSize - (queue.writeIndex - queue.readIndex)
      else queue.readIndex - queue.writeIndex) ≤ align4 (msgHdrGetSize (message.memory 0)) := by
    rw [le_def, carries.emptySpace_toNat, message.alignSize_toNat]
    exact noRoom
  simp only [queueWrite, if_neg usable, message.sizeDwords_eq, if_pos full]

/-- A write with room appends the message. -/
theorem write_accepted (carries : Carries limit size queue pending) (message : HfiMessage limit)
    (room : roundUp4 message.dwords.length < size - occupied pending) :
    (queueWrite queue message.memory (msgHdrGetSize (message.memory 0) <<< 2)).1 = 0
      ∧ Carries limit size
        (queueWrite queue message.memory (msgHdrGetSize (message.memory 0) <<< 2)).2
        (pending ++ [message.dwords]) := by
  have usable : ¬(queue.status = hfiQueueStatusDisabled
      ∨ msgHdrGetSize (message.memory 0) <<< 2 &&& 3 ≠ 0) := by
    rintro (disabled | crooked)
    · exact carries.enabled disabled
    · exact crooked message.sizeBytes_aligned
  have notFull : ¬(if queue.readIndex ≤ queue.writeIndex then
        queue.queueSize - (queue.writeIndex - queue.readIndex)
      else queue.readIndex - queue.writeIndex) ≤ align4 (msgHdrGetSize (message.memory 0)) := by
    rw [le_def, carries.emptySpace_toNat, message.alignSize_toNat]
    omega
  have inQueue : queue.writeIndex.toNat < queue.queueSize.toNat :=
    carries.size_eq ▸ carries.holds.wr_lt
  have short : (filled message.dwords).length ≤ queue.queueSize.toNat := by
    rw [length_filled, carries.size_eq]
    omega
  obtain ⟨wrote, last⟩ := wrote_copyIn queue.cells inQueue short
  have twoLoops : copyIn queue.queueSize
      (copyIn queue.queueSize queue.cells queue.writeIndex message.dwords).1
      (copyIn queue.queueSize queue.cells queue.writeIndex message.dwords).2
      (replicate (roundUp4 message.dwords.length - message.dwords.length) cookie)
        = copyIn queue.queueSize queue.cells queue.writeIndex (filled message.dwords) := by
    rw [filled, copyIn_append]
  rw [carries.size_eq] at wrote last
  simp only [queueWrite, if_neg usable, message.sizeDwords_eq, if_neg notFull,
    message.alignSize_toNat]
  rw [← message.length_dwords]
  have written : slice message.memory 0 message.dwords.length = message.dwords := by
    rw [message.length_dwords]
    rfl
  rw [written, twoLoops]
  refine ⟨trivial, carries.enabled, carries.size_eq, carries.size_dvd, carries.read_dvd, ?_, ?_⟩
  · intro other among
    rcases mem_append.mp among with before | new
    · exact carries.messages other before
    · rw [mem_singleton.mp new]
      exact message.wellFormed
  · rw [flatMap_append, flatMap_singleton, last]
    apply carries.holds.write wrote
    rw [length_flatMap_filled, length_filled]
    omega

/-! ## Reads -/

theorem read_nil (carries : Carries limit size queue []) (output : Nat → U32) (maxSize : U32) :
    queueRead queue output maxSize = (enodata, output, queue) := by
  have same : queue.readIndex = queue.writeIndex :=
    eq_of_toNat_eq (carries.holds.rd_eq_wr_iff.mpr rfl)
  rw [queueRead, if_neg carries.enabled, if_pos same]

/-- A read copies the oldest message to the front of the buffer and drops it with its
filling. -/
theorem read_cons {message : List U32} (carries : Carries limit size queue (message :: rest))
    (output : Nat → U32) {maxSize : U32} (fits : limit ≤ (maxSize >>> 2).toNat) :
    (queueRead queue output maxSize).1 = message.length
      ∧ slice (queueRead queue output maxSize).2.1 0 message.length = message
      ∧ Carries limit size (queueRead queue output maxSize).2.2 rest := by
  have wellFormed := carries.messages message mem_cons_self
  have holds := carries.holds
  rw [flatMap_cons] at holds
  have positive := wellFormed.pos
  have rdLt := holds.rd_lt
  have nonempty : queue.readIndex ≠ queue.writeIndex := by
    intro same
    have nothing := holds.rd_eq_wr_iff.mp (congrArg BitVec.toNat same)
    rw [append_eq_nil_iff] at nothing
    have noDwords := congrArg length nothing.1
    rw [length_filled, length_nil] at noDwords
    have atLeast := le_roundUp4 message.length
    omega
  have notLonger := le_roundUp4 message.length
  have front : window queue.cells size queue.readIndex.toNat message.length = message := by
    have whole := holds.window_front
    rw [length_filled, ← Nat.add_sub_cancel' notLonger, window_add] at whole
    exact (append_inj whole (by simp)).1
  have header : (msgHdrGetSize (queue.cells queue.readIndex.toNat)).toNat = message.length := by
    obtain ⟨hdr, first, sized⟩ := wellFormed.head_eq
    rw [← front] at first
    have same : queue.cells queue.readIndex.toNat = hdr := by
      simpa [window, positive, Nat.mod_eq_of_lt rdLt] using first
    rw [same, sized]
  have small : ¬maxSize >>> 2 < msgHdrGetSize (queue.cells queue.readIndex.toNat) := by
    rw [lt_def]
    have within := wellFormed.le
    omega
  have inQueue : queue.readIndex < queue.queueSize := by
    rw [lt_def, carries.size_eq]
    exact rdLt
  have count : min (msgHdrGetSize (queue.cells queue.readIndex.toNat)).toNat
      (maxSize >>> 2).toNat = message.length := by
    have within := wellFormed.le
    omega
  obtain ⟨copied, last⟩ := copyOut_eq queue.cells (lt_def.mp inQueue) message.length 0
    (clearBytes output maxSize)
  rw [carries.size_eq] at copied last
  rw [front] at copied
  have next : (align4 (copyOut queue.cells queue.queueSize message.length 0
        (clearBytes output maxSize) queue.readIndex).2 % queue.queueSize).toNat
      = (queue.readIndex.toNat + (filled message).length) % size := by
    have bounded := queue.queueSize.isLt
    rw [carries.size_eq] at bounded
    have inside := Nat.mod_lt (queue.readIndex.toNat + message.length) (Nat.zero_lt_of_lt rdLt)
    rw [toNat_umod, carries.size_eq, align4_toNat, last, roundUp4_mod carries.size_dvd,
      roundUp4_add carries.read_dvd, length_filled]
    have whole := carries.size_dvd
    omega
  simp only [queueRead, if_neg carries.enabled, if_neg nonempty, if_neg small, if_pos inQueue,
    count]
  refine ⟨by rw [header], ?_, carries.enabled, carries.size_eq, carries.size_dvd, ?_, ?_, ?_⟩
  · rw [copied]
    exact slice_blit _ _ _
  · rw [next, length_filled]
    exact (Nat.dvd_mod_iff carries.size_dvd).mpr
      (Nat.dvd_add carries.read_dvd (dvd_roundUp4 message.length))
  · exact fun other among => carries.messages other (mem_cons_of_mem message among)
  · rw [next]
    exact holds.read

end Carries

/-! ## Sequences of calls -/

/-- One call on a queue and on the message FIFO. -/
theorem hfiStep_simulates {limit size : Nat} (queue : HfiQueue) (pending : List (List U32))
    (call : HfiCall limit) (carries : Carries limit size queue pending) :
    (hfiStep queue call).1.outcome = id (messageFifoStep size pending call).1
      ∧ Carries limit size (hfiStep queue call).2 (messageFifoStep size pending call).2 := by
  cases call with
  | write message =>
    by_cases noRoom : size - occupied pending ≤ roundUp4 message.dwords.length
    · have rejected := carries.write_rejected message noRoom
      simp only [hfiStep, messageFifoStep, if_pos noRoom, rejected]
      exact ⟨rfl, carries⟩
    · obtain ⟨rc, next⟩ := carries.write_accepted message (Nat.lt_of_not_le noRoom)
      simp only [hfiStep, messageFifoStep, if_neg noRoom, rc]
      exact ⟨rfl, next⟩
  | read output maxSize fits =>
    cases pending with
    | nil =>
      have nothing := carries.read_nil output maxSize
      simp only [hfiStep, nothing]
      exact ⟨rfl, carries⟩
    | cons message rest =>
      obtain ⟨result, obtained, next⟩ := carries.read_cons output fits
      simp only [hfiStep, HfiReply.outcome, result, Int.toNat_natCast, obtained]
      exact ⟨rfl, next⟩

/-- Any sequence of calls on an empty queue gets the outcomes of the message FIFO, and
both indices stay multiples of four inside the queue. -/
theorem hfiQueue_roundTrip {limit : Nat} {queue : HfiQueue}
    (enabled : queue.status ≠ hfiQueueStatusDisabled) (whole : 4 ∣ queue.queueSize.toNat)
    (readWhole : 4 ∣ queue.readIndex.toNat) (inQueue : queue.readIndex < queue.queueSize)
    (empty : queue.readIndex = queue.writeIndex) (calls : List (HfiCall limit)) :
    (runCalls hfiStep queue calls).1.map HfiReply.outcome
        = (runCalls (messageFifoStep queue.queueSize.toNat) [] calls).1
      ∧ (4 ∣ (runCalls hfiStep queue calls).2.readIndex.toNat
        ∧ (runCalls hfiStep queue calls).2.readIndex.toNat < queue.queueSize.toNat)
      ∧ 4 ∣ (runCalls hfiStep queue calls).2.writeIndex.toNat
        ∧ (runCalls hfiStep queue calls).2.writeIndex.toNat < queue.queueSize.toNat := by
  have initial : Carries limit queue.queueSize.toNat queue [] := by
    refine ⟨enabled, rfl, whole, readWhole, by simp, ?_⟩
    rw [← empty]
    exact Holds.empty queue.cells (lt_def.mp inQueue)
  obtain ⟨outcomes, carries⟩ := runCalls_simulates hfiStep_simulates initial calls
  rw [map_id] at outcomes
  exact ⟨outcomes, ⟨carries.read_dvd, carries.holds.rd_lt⟩, carries.write_dvd, carries.holds.wr_lt⟩

/-- A message of five dwords. -/
def sampleMessage (payload : U32) : HfiMessage 8 :=
  ⟨fun i => [0x500, payload, 2, 3, 4].getD i 0,
    (by decide : 0 < (msgHdrGetSize 0x500).toNat), (by decide : (msgHdrGetSize 0x500).toNat ≤ 8)⟩

/-- An empty queue of sixteen dwords, with both indices at the eighth one. -/
def sampleQueue : HfiQueue :=
  ⟨hfiQueueStatusEnabled, 16, 8, 8, fun _ => 0⟩

/-- The filling of the first message ends where the queue does; no other message fits
beside it. -/
theorem hfiQueue_roundTrip_sample :
    (runCalls hfiStep sampleQueue
        [.write (sampleMessage 7), .write (sampleMessage 8), .read (fun _ => 0) 32 (by decide),
          .write (sampleMessage 9), .read (fun _ => 0) 32 (by decide),
          .read (fun _ => 0) 32 (by decide)]).1.map HfiReply.outcome
      = [.accepted, .rejected, .obtained [0x500, 7, 2, 3, 4], .accepted,
          .obtained [0x500, 9, 2, 3, 4], .nothing] :=
  (@hfiQueue_roundTrip 8 sampleQueue (by decide) (by decide) (by decide) (by decide) rfl _).1.trans
    (by decide)

end Sm8650.Kgsl
