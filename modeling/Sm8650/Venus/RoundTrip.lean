import Sm8650.Transition.Calls
import Sm8650.Venus.Queue

/-!
# The interface queues as packet FIFOs

The abstract queue is the list of accepted packets. A packet is accepted when the
words behind the pending packets are strictly more than it needs, so that equal
indices always mean an empty queue.
-/

namespace Sm8650.Venus

open Sm8650.Ring Transition BitVec

/-- Memory that starts with a packet: the first word is its size in bytes. -/
structure Packet where
  memory : Nat → U32
  size_pos : 0 < (memory 0).toNat
  size_dvd : 4 ∣ (memory 0).toNat
  size_le : (memory 0).toNat ≤ vidcIfaceqVarHugePktSize

/-- The words of the packet that a memory starts with. -/
def packetWords (memory : Nat → U32) : List U32 :=
  slice memory 0 ((memory 0).toNat / 4)

/-- The words of a packet. -/
def Packet.words (packet : Packet) : List U32 :=
  packetWords packet.memory

/-- A call on a queue; a read brings the buffer of its caller. -/
inductive QueueCall
  | write (packet : Packet)
  | read (buffer : Nat → U32) (txReqIsSet : U32)

/-- What a call reports. -/
inductive QueueReply
  | written (rc : Int)
  | read (reply : ReadReply)

/-- A call on an interface queue. -/
def queueStep (qinfo : IfaceQInfo) : QueueCall → QueueReply × IfaceQInfo
  | .write packet =>
    (.written (writeQueue qinfo packet.memory).1, (writeQueue qinfo packet.memory).2)
  | .read buffer txReqIsSet =>
    (.read (readQueue qinfo buffer txReqIsSet).1, (readQueue qinfo buffer txReqIsSet).2)

/-- Whether a write was accepted, and the packet that a read obtained. -/
inductive Outcome
  | accepted
  | rejected
  | obtained (packet : List U32)
  | nothing
  deriving DecidableEq, Repr

/-- The outcome that a reply reports: an accepted write and a successful read return 0. -/
def QueueReply.outcome : QueueReply → Outcome
  | .written rc => if rc = 0 then .accepted else .rejected
  | .read reply => if reply.rc = 0 then .obtained (packetWords reply.packet) else .nothing

/-- The packet FIFO over a ring of `words` words: a write is accepted when the free
space is strictly larger than the packet. -/
def packetFifoStep (words : Nat) (pending : List (List U32)) : QueueCall → Outcome × List (List U32)
  | .write packet =>
    if packet.words.length < words - pending.flatten.length then
      (.accepted, pending ++ [packet.words])
    else
      (.rejected, pending)
  | .read _ _ =>
    match pending with
    | [] => (.nothing, [])
    | packet :: rest => (.obtained packet, rest)

/-- A list of words that is a packet: its first word is its size in bytes. -/
structure WellSized (packet : List U32) : Prop where
  pos : 0 < packet.length
  le : 4 * packet.length ≤ vidcIfaceqVarHugePktSize
  head_eq : packet[0]? = some (BitVec.ofNat 32 (4 * packet.length))

theorem Packet.length_words (packet : Packet) :
    4 * packet.words.length = (packet.memory 0).toNat := by
  rw [Packet.words, packetWords, length_slice]
  exact Nat.mul_div_cancel' packet.size_dvd

theorem Packet.wellSized (packet : Packet) : WellSized packet.words := by
  have size := packet.length_words
  have positive := packet.size_pos
  refine ⟨by omega, size ▸ packet.size_le, ?_⟩
  rw [size, Packet.words, packetWords]
  have inRange : 0 < (packet.memory 0).toNat / 4 := by omega
  simp [slice, inRange]

/-- The bytes of fewer than 2^30 words. -/
theorem bytes_toNat (count : U32) (small : 4 * count.toNat < 2 ^ 32) :
    (count <<< 2).toNat = 4 * count.toNat := by
  rw [sizeInBytes_toNat, Nat.mod_eq_of_lt (by omega)]

section Copies

variable (source into : Nat → U32) (start first second : Nat)

/-- One copy to the array. -/
theorem runCopies_write :
    runCopies source into [⟨4 * start, 0, 4 * first⟩] = blit into start (slice source 0 first) := by
  simp [runCopies, Memcpy.run]

/-- Two copies to the end and the start of the array. -/
theorem runCopies_write_wrap :
    runCopies source into [⟨4 * start, 0, 4 * first⟩, ⟨0, 4 * first, 4 * second⟩]
      = blit (blit into start (slice source 0 first)) 0 (slice source first second) := by
  simp [runCopies, Memcpy.run]

/-- One copy out of the array. -/
theorem runCopies_read :
    runCopies source into [⟨0, 4 * start, 4 * first⟩] = blit into 0 (slice source start first) := by
  simp [runCopies, Memcpy.run]

/-- Two copies out of the end and the start of the array. -/
theorem runCopies_read_wrap :
    runCopies source into [⟨0, 4 * start, 4 * first⟩, ⟨4 * first, 0, 4 * second⟩]
      = blit (blit into 0 (slice source start first)) first (slice source 0 second) := by
  simp [runCopies, Memcpy.run]

end Copies

section Advance

variable {idx count size : U32}

theorem add_toNat (inRing : idx.toNat < size.toNat) (short : count.toNat ≤ size.toNat)
    (bounded : 4 * size.toNat < 2 ^ 32) : (idx + count).toNat = idx.toNat + count.toNat := by
  rw [toNat_add]
  omega

/-- The index behind a packet that reaches the end of the array. -/
theorem add_sub_toNat (inRing : idx.toNat < size.toNat) (short : count.toNat ≤ size.toNat)
    (bounded : 4 * size.toNat < 2 ^ 32) (wraps : ¬ idx + count < size) :
    (idx + count - size).toNat = idx.toNat + count.toNat - size.toNat := by
  have sum := add_toNat inRing short bounded
  rw [lt_def] at wraps
  rw [toNat_sub_of_le (le_def.mpr (by omega)), sum]

/-- The number of words of such a packet that are at the end of the array. -/
theorem sub_add_sub_toNat (inRing : idx.toNat < size.toNat) (short : count.toNat ≤ size.toNat)
    (bounded : 4 * size.toNat < 2 ^ 32) (wraps : ¬ idx + count < size) :
    (count - (idx + count - size)).toNat = size.toNat - idx.toNat := by
  have wrapped := add_sub_toNat inRing short bounded wraps
  have sum := add_toNat inRing short bounded
  rw [lt_def] at wraps
  rw [toNat_sub_of_le (le_def.mpr (by omega))]
  omega

end Advance

/-- A queue of `words` words whose ring consists of the pending packets. -/
structure Carries (words : Nat) (qinfo : IfaceQInfo) (pending : List (List U32)) : Prop where
  memSize_eq : qinfo.memSize.toNat = 4 * words
  packets : ∀ packet ∈ pending, WellSized packet
  holds : Holds qinfo.cells words qinfo.qHdr.qhdrReadIdx.toNat qinfo.qHdr.qhdrWriteIdx.toNat
    pending.flatten

namespace Carries

variable {words : Nat} {qinfo : IfaceQInfo} {pending rest : List (List U32)}
  {packet : List U32}

section

variable (carries : Carries words qinfo pending)

include carries

theorem words_toNat : qinfo.words.toNat = words := by
  rw [IfaceQInfo.words, sizeInWords_toNat, carries.memSize_eq]
  omega

theorem bounded : 4 * words < 2 ^ 32 := by
  rw [← carries.memSize_eq]
  exact qinfo.memSize.isLt

/-- `empty_space` is the room behind the pending packets. -/
theorem emptySpace_toNat : qinfo.emptySpace.toNat = words - pending.flatten.length := by
  have holds := carries.holds
  rw [← carries.words_toNat] at holds
  exact holds.free_toNat.trans (by rw [carries.words_toNat])

/-- A rejected write leaves the pending packets. -/
theorem write_rejected {packet : Packet}
    (noRoom : words - pending.flatten.length ≤ packet.words.length) :
    (writeQueue qinfo packet.memory).1 ≠ 0
      ∧ Carries words (writeQueue qinfo packet.memory).2 pending := by
  have size := packet.length_words
  have sizeInWords : (packet.memory 0 >>> 2).toNat = packet.words.length := by
    rw [sizeInWords_toNat]
    omega
  have full : qinfo.emptySpace ≤ packet.memory 0 >>> 2 := by
    rw [le_def, carries.emptySpace_toNat, sizeInWords]
    exact noRoom
  rw [writeQueue, writeQueueEffects]
  by_cases tooLarge : packet.memory 0 >>> 2 = 0 ∨ qinfo.words < packet.memory 0 >>> 2
  · simp only [if_pos tooLarge]
    exact ⟨by decide, carries⟩
  · simp only [if_neg tooLarge, if_pos full]
    exact ⟨by decide, carries.memSize_eq, carries.packets, carries.holds⟩

/-- A write with room appends the packet. -/
theorem write_accepted {packet : Packet}
    (room : packet.words.length < words - pending.flatten.length) :
    (writeQueue qinfo packet.memory).1 = 0
      ∧ Carries words (writeQueue qinfo packet.memory).2 (pending ++ [packet.words]) := by
  have size := packet.length_words
  have positive := packet.size_pos
  have bounded := carries.bounded
  have words_eq := carries.words_toNat
  have wrLt := carries.holds.wr_lt
  have sizeInWords : (packet.memory 0 >>> 2).toNat = packet.words.length := by
    rw [sizeInWords_toNat]
    omega
  have packets : ∀ other ∈ pending ++ [packet.words], WellSized other := by
    intro other among
    rcases List.mem_append.mp among with before | new
    · exact carries.packets other before
    · rw [List.mem_singleton.mp new]
      exact packet.wellSized
  have fits : ¬ (packet.memory 0 >>> 2 = 0 ∨ qinfo.words < packet.memory 0 >>> 2) := by
    rintro (nothing | tooLarge)
    · have zero : (packet.memory 0 >>> 2).toNat = 0 := congrArg BitVec.toNat nothing
      omega
    · rw [lt_def] at tooLarge
      omega
  have hasRoom : ¬ qinfo.emptySpace ≤ packet.memory 0 >>> 2 := by
    rw [le_def, carries.emptySpace_toNat]
    omega
  have wrLt' : qinfo.qHdr.qhdrWriteIdx.toNat < qinfo.words.toNat := words_eq ▸ wrLt
  have short : (packet.memory 0 >>> 2).toNat ≤ qinfo.words.toNat := by omega
  have bounded' : 4 * qinfo.words.toNat < 2 ^ 32 := by omega
  have atWriter : (qinfo.qHdr.qhdrWriteIdx <<< 2).toNat = 4 * qinfo.qHdr.qhdrWriteIdx.toNat :=
    bytes_toNat _ (by omega)
  have inArray : ¬ qinfo.memSize.toNat < 4 * qinfo.qHdr.qhdrWriteIdx.toNat := by
    rw [carries.memSize_eq]
    omega
  have holds {after : Nat → U32} (wrote : Wrote qinfo.cells after words
      qinfo.qHdr.qhdrWriteIdx.toNat packet.words) : Holds after words
        qinfo.qHdr.qhdrReadIdx.toNat
        ((qinfo.qHdr.qhdrWriteIdx.toNat + packet.words.length) % words)
        (pending ++ [packet.words]).flatten := by
    rw [List.flatten_concat]
    exact carries.holds.write wrote (by omega)
  have packetSlice : slice packet.memory 0 packet.words.length = packet.words := by
    rw [Packet.words, packetWords, length_slice]
  rw [writeQueue, writeQueueEffects]
  simp only [if_neg fits, if_neg hasRoom, atWriter, if_neg inArray]
  by_cases inside : qinfo.qHdr.qhdrWriteIdx + packet.memory 0 >>> 2 < qinfo.words
  · have sum := add_toNat wrLt' short bounded'
    simp only [if_pos inside]
    rw [lt_def, sum, sizeInWords, words_eq] at inside
    have bytes := bytes_toNat (packet.memory 0 >>> 2) (by omega)
    refine ⟨trivial, carries.memSize_eq, packets, ?_⟩
    rw [sum, bytes, runCopies_write, sizeInWords, packetSlice]
    have after := holds (wrote_blit (by omega))
    rwa [Nat.mod_eq_of_lt inside] at after
  · have newWriteIdx := add_sub_toNat wrLt' short bounded' inside
    have atEnd := sub_add_sub_toNat wrLt' short bounded' inside
    have sum := add_toNat wrLt' short bounded'
    rw [sizeInWords, words_eq] at newWriteIdx
    rw [words_eq] at atEnd
    simp only [if_neg inside]
    rw [lt_def] at inside
    have endBytes := bytes_toNat (packet.memory 0 >>> 2
      - (qinfo.qHdr.qhdrWriteIdx + packet.memory 0 >>> 2 - qinfo.words)) (by omega)
    have startBytes := bytes_toNat
      (qinfo.qHdr.qhdrWriteIdx + packet.memory 0 >>> 2 - qinfo.words) (by omega)
    refine ⟨trivial, carries.memSize_eq, packets, ?_⟩
    rw [endBytes, startBytes, runCopies_write_wrap, newWriteIdx, atEnd]
    have first : slice packet.memory 0 (words - qinfo.qHdr.qhdrWriteIdx.toNat)
        = packet.words.take (words - qinfo.qHdr.qhdrWriteIdx.toNat) := by
      rw [← packetSlice, take_slice (by omega)]
    have second : slice packet.memory (words - qinfo.qHdr.qhdrWriteIdx.toNat)
        (qinfo.qHdr.qhdrWriteIdx.toNat + packet.words.length - words)
          = packet.words.drop (words - qinfo.qHdr.qhdrWriteIdx.toNat) := by
      rw [← packetSlice, drop_slice (by omega), packetSlice, Nat.zero_add]
      congr 1
      omega
    rw [first, second]
    have after := holds (wrote_blit_blit wrLt (by omega) (by omega))
    rwa [Nat.mod_eq_sub_mod (by omega), Nat.mod_eq_of_lt (by omega)] at after

end

theorem read_nil (carries : Carries words qinfo []) (buffer : Nat → U32) (txReqIsSet : U32) :
    (readQueue qinfo buffer txReqIsSet).1.rc ≠ 0
      ∧ Carries words (readQueue qinfo buffer txReqIsSet).2 [] := by
  have same : qinfo.qHdr.qhdrReadIdx = qinfo.qHdr.qhdrWriteIdx :=
    eq_of_toNat_eq (carries.holds.rd_eq_wr_iff.mpr rfl)
  rw [readQueue, readQueueEffects]
  simp only [if_pos same]
  exact ⟨by decide, carries.memSize_eq, carries.packets, carries.holds⟩

/-- A read copies the oldest packet to the front of the buffer and drops it. -/
theorem read_cons (carries : Carries words qinfo (packet :: rest)) (buffer : Nat → U32)
    (txReqIsSet : U32) :
    (readQueue qinfo buffer txReqIsSet).1.rc = 0
      ∧ (readQueue qinfo buffer txReqIsSet).1.packet = blit buffer 0 packet
      ∧ Carries words (readQueue qinfo buffer txReqIsSet).2 rest := by
  have wellSized := carries.packets packet List.mem_cons_self
  have packets : ∀ other ∈ rest, WellSized other := fun other among =>
    carries.packets other (List.mem_cons_of_mem packet among)
  have holds := carries.holds
  rw [List.flatten_cons] at holds
  have words_eq := carries.words_toNat
  have bounded := carries.bounded
  have positive := wellSized.pos
  have small := wellSized.le
  have rdLt := holds.rd_lt
  have shortPending := holds.pending_lt
  rw [List.length_append] at shortPending
  have differ : qinfo.qHdr.qhdrReadIdx ≠ qinfo.qHdr.qhdrWriteIdx := by
    intro same
    have nothing := holds.rd_eq_wr_iff.mp (congrArg BitVec.toNat same)
    simp only [List.append_eq_nil_iff] at nothing
    rw [nothing.1] at positive
    exact Nat.lt_irrefl 0 positive
  have atReader : (qinfo.qHdr.qhdrReadIdx <<< 2).toNat = 4 * qinfo.qHdr.qhdrReadIdx.toNat :=
    bytes_toNat _ (by omega)
  have inArray : ¬ qinfo.memSize.toNat < 4 * qinfo.qHdr.qhdrReadIdx.toNat + 4 := by
    rw [carries.memSize_eq]
    omega
  have front := holds.window_front
  have head : qinfo.cells qinfo.qHdr.qhdrReadIdx.toNat = BitVec.ofNat 32 (4 * packet.length) := by
    have first := wellSized.head_eq
    rw [← front] at first
    simpa [window, positive, Nat.mod_eq_of_lt rdLt] using first
  have sizeInWords : (qinfo.cells qinfo.qHdr.qhdrReadIdx.toNat >>> 2).toNat = packet.length := by
    rw [sizeInWords_toNat, head, toNat_ofNat]
    omega
  have sized : ¬ qinfo.cells qinfo.qHdr.qhdrReadIdx.toNat >>> 2 = 0 := by
    intro nothing
    have zero : (qinfo.cells qinfo.qHdr.qhdrReadIdx.toNat >>> 2).toNat = 0 :=
      congrArg BitVec.toNat nothing
    omega
  have good : ((qinfo.cells qinfo.qHdr.qhdrReadIdx.toNat >>> 2) <<< 2).toNat
      ≤ vidcIfaceqVarHugePktSize ∧ qinfo.qHdr.qhdrReadIdx ≤ qinfo.words := by
    constructor
    · rw [toNat_shiftLeft]
      omega
    · rw [le_def]
      omega
  have rdLt' : qinfo.qHdr.qhdrReadIdx.toNat < qinfo.words.toNat := words_eq ▸ rdLt
  have short : (qinfo.cells qinfo.qHdr.qhdrReadIdx.toNat >>> 2).toNat ≤ qinfo.words.toNat := by
    omega
  have bounded' : 4 * qinfo.words.toNat < 2 ^ 32 := by omega
  have sum := add_toNat rdLt' short bounded'
  have read := holds.read
  rw [readQueue, readQueueEffects]
  simp only [if_neg differ, atReader, if_neg inArray, Nat.mul_div_cancel_left _ (by decide : 0 < 4),
    if_neg sized, if_pos good]
  by_cases inside : qinfo.qHdr.qhdrReadIdx + qinfo.cells qinfo.qHdr.qhdrReadIdx.toNat >>> 2
      < qinfo.words
  · simp only [if_pos inside]
    rw [lt_def, sum, sizeInWords, words_eq] at inside
    refine ⟨trivial, ?_, carries.memSize_eq, packets, ?_⟩
    · have bytes := bytes_toNat (qinfo.cells qinfo.qHdr.qhdrReadIdx.toNat >>> 2) (by omega)
      rw [window_eq_slice (by omega)] at front
      rw [bytes, runCopies_read, sizeInWords, front]
    · rw [sum, sizeInWords]
      rwa [Nat.mod_eq_of_lt inside] at read
  · have newReadIdx := add_sub_toNat rdLt' short bounded' inside
    have atEnd := sub_add_sub_toNat rdLt' short bounded' inside
    rw [sizeInWords, words_eq] at newReadIdx
    rw [words_eq] at atEnd
    simp only [if_neg inside]
    rw [lt_def] at inside
    refine ⟨trivial, ?_, carries.memSize_eq, packets, ?_⟩
    · have endBytes := bytes_toNat (qinfo.cells qinfo.qHdr.qhdrReadIdx.toNat >>> 2
        - (qinfo.qHdr.qhdrReadIdx + qinfo.cells qinfo.qHdr.qhdrReadIdx.toNat >>> 2 - qinfo.words))
        (by omega)
      have startBytes := bytes_toNat
        (qinfo.qHdr.qhdrReadIdx + qinfo.cells qinfo.qHdr.qhdrReadIdx.toNat >>> 2 - qinfo.words)
        (by omega)
      rw [window_eq_slice_append rdLt (by omega) (by omega)] at front
      rw [endBytes, startBytes, runCopies_read_wrap, newReadIdx, atEnd, blit_blit (by simp), front]
    · rw [newReadIdx]
      rwa [Nat.mod_eq_sub_mod (by omega), Nat.mod_eq_of_lt (by omega)] at read

end Carries

/-- The packet at the front of a buffer that a packet was copied to. -/
theorem packetWords_blit {packet : List U32} (wellSized : WellSized packet)
    (buffer : Nat → U32) : packetWords (blit buffer 0 packet) = packet := by
  have positive := wellSized.pos
  have small := wellSized.le
  have head : blit buffer 0 packet 0 = BitVec.ofNat 32 (4 * packet.length) := by
    have first := wellSized.head_eq
    rw [List.getElem?_eq_getElem positive, Option.some.injEq] at first
    rw [← first]
    exact blit_at positive
  have size : (blit buffer 0 packet 0).toNat / 4 = packet.length := by
    have bound : 4 * packet.length < 2 ^ 32 := Nat.lt_of_le_of_lt small (by decide)
    rw [head, toNat_ofNat]
    omega
  rw [packetWords, size, slice_blit]

/-- One call on an interface queue and on the packet FIFO. -/
theorem queueStep_simulates {words : Nat} (qinfo : IfaceQInfo) (pending : List (List U32))
    (call : QueueCall) (carries : Carries words qinfo pending) :
    (queueStep qinfo call).1.outcome = id (packetFifoStep words pending call).1
      ∧ Carries words (queueStep qinfo call).2 (packetFifoStep words pending call).2 := by
  cases call with
  | write packet =>
    by_cases room : packet.words.length < words - pending.flatten.length
    · obtain ⟨rc, next⟩ := carries.write_accepted room
      simp only [queueStep, packetFifoStep, if_pos room, rc]
      exact ⟨rfl, next⟩
    · obtain ⟨rc, next⟩ := carries.write_rejected (Nat.le_of_not_lt room)
      simp only [queueStep, packetFifoStep, if_neg room, QueueReply.outcome, if_neg rc]
      exact ⟨rfl, next⟩
  | read buffer txReqIsSet =>
    cases pending with
    | nil =>
      obtain ⟨rc, next⟩ := carries.read_nil buffer txReqIsSet
      simp only [queueStep, QueueReply.outcome, if_neg rc]
      exact ⟨rfl, next⟩
    | cons packet rest =>
      obtain ⟨rc, obtained, next⟩ := carries.read_cons buffer txReqIsSet
      have wellSized := carries.packets packet List.mem_cons_self
      simp only [queueStep, QueueReply.outcome, rc, obtained, packetWords_blit wellSized]
      exact ⟨rfl, next⟩

/-- Any sequence of calls on an empty queue of `words` words gets the outcomes of the
packet FIFO, and the indices stay inside the queue. -/
theorem queue_roundTrip {words : Nat} (positive : 0 < words) {qinfo : IfaceQInfo}
    (memSize : qinfo.memSize.toNat = 4 * words) (readIdx : qinfo.qHdr.qhdrReadIdx = 0)
    (writeIdx : qinfo.qHdr.qhdrWriteIdx = 0) (calls : List QueueCall) :
    (runCalls queueStep qinfo calls).1.map QueueReply.outcome
        = (runCalls (packetFifoStep words) [] calls).1
      ∧ (runCalls queueStep qinfo calls).2.qHdr.qhdrReadIdx.toNat < words
      ∧ (runCalls queueStep qinfo calls).2.qHdr.qhdrWriteIdx.toNat < words := by
  have initial : Carries words qinfo [] := by
    refine ⟨memSize, by simp, ?_⟩
    rw [readIdx, writeIdx]
    exact Holds.empty qinfo.cells positive
  obtain ⟨outcomes, carries⟩ := runCalls_simulates queueStep_simulates initial calls
  rw [List.map_id] at outcomes
  exact ⟨outcomes, carries.holds.rd_lt, carries.holds.wr_lt⟩

/-- A packet of five words. -/
def samplePacket (payload : U32) : Packet :=
  ⟨fun i => [20, payload, 2, 3, 4].getD i 0, by simp, by simp, by simp [vidcIfaceqVarHugePktSize]⟩

/-- An empty queue of eight words. -/
def sampleQueue : IfaceQInfo :=
  ⟨⟨0x01010000, 1, 0, 0, 0⟩, 32, fun _ => 0⟩

/-- The second packet wraps around the end of the queue, and a third one does not fit
behind it. -/
theorem queue_roundTrip_sample :
    (runCalls queueStep sampleQueue
        [.write (samplePacket 7), .read (fun _ => 0) 0, .write (samplePacket 8),
          .write (samplePacket 9), .read (fun _ => 0) 0, .read (fun _ => 0) 0]).1.map
        QueueReply.outcome
      = [.accepted, .obtained [20, 7, 2, 3, 4], .accepted, .rejected,
          .obtained [20, 8, 2, 3, 4], .nothing] :=
  (@queue_roundTrip 8 (by decide) sampleQueue rfl rfl rfl _).1.trans (by decide)

end Sm8650.Venus
