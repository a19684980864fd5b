import Sm8650.Data.Ring

/-!
# The interface queues of the video driver

Host and video firmware exchange packets through queues in shared memory. The
first word of a packet is its size in bytes; a packet may wrap around the end of
the queue at any word.

Source: `venus_hfi_queue.c`.
-/

namespace Sm8650.Venus

open Sm8650.Ring

/-- A word of a queue, and the type of the index variables. -/
abbrev U32 := BitVec 32

/-- `-ENODATA`. -/
def enodata : Int := -61

/-- `-ENOTEMPTY`. -/
def enotempty : Int := -39

/-- `VIDC_IFACEQ_VAR_HUGE_PKT_SIZE`. -/
def vidcIfaceqVarHugePktSize : Nat := 1024 * 4

/-- `VIDC_IFACEQ_QUEUE_SIZE`, the `mem_size` of every interface queue. -/
def vidcIfaceqQueueSize : Nat := 1024 * 50 * 16

/-- `HFI_Q_ID_CTRL_TO_HOST_MSG_Q`. -/
def hfiQIdCtrlToHostMsgQ : U32 := 1

/-- The fields of `struct hfi_queue_header` that reads and writes use. -/
structure HfiQueueHeader where
  qhdrType : U32
  qhdrRxReq : U32
  qhdrTxReq : U32
  qhdrReadIdx : U32
  qhdrWriteIdx : U32
  deriving DecidableEq, Repr

/-- `struct msm_vidc_iface_q_info` of an allocated queue: its header, the size of its
array in bytes and the words of the array. -/
structure IfaceQInfo where
  qHdr : HfiQueueHeader
  memSize : U32
  cells : Nat → U32

/-- The number of words of the array. -/
def IfaceQInfo.words (qinfo : IfaceQInfo) : U32 :=
  qinfo.memSize >>> 2

/-- A `memcpy`: the byte offsets of its destination and its source, and its length in
bytes. -/
structure Memcpy where
  dst : Nat
  src : Nat
  len : Nat
  deriving DecidableEq, Repr

/-- The words of `into` after a copy out of `source`. -/
def Memcpy.run (copy : Memcpy) (source into : Nat → U32) : Nat → U32 :=
  blit into (copy.dst / 4) (slice source (copy.src / 4) (copy.len / 4))

/-- The words of `into` after a number of copies out of `source`. -/
def runCopies (source into : Nat → U32) (copies : List Memcpy) : Nat → U32 :=
  copies.foldl (fun into copy => copy.run source into) into

/-- `empty_space` of `__write_queue`. -/
def IfaceQInfo.emptySpace (qinfo : IfaceQInfo) : U32 :=
  let readIdx := qinfo.qHdr.qhdrReadIdx
  let writeIdx := qinfo.qHdr.qhdrWriteIdx
  if readIdx ≤ writeIdx then qinfo.words - (writeIdx - readIdx) else readIdx - writeIdx

/-- What a call does: what it returns, the queue it leaves and the copies it makes. -/
structure Effects (Reply : Type) where
  reply : Reply
  qinfo : IfaceQInfo
  copies : List Memcpy

/-- `__write_queue` for the packet in `packet`. The copies go from the packet to the
array. -/
def writeQueueEffects (qinfo : IfaceQInfo) (packet : Nat → U32) : Effects Int :=
  let packetSizeInWords := packet 0 >>> 2
  if packetSizeInWords = 0 ∨ qinfo.words < packetSizeInWords then
    ⟨enodata, qinfo, []⟩
  else
    let writeIdx := qinfo.qHdr.qhdrWriteIdx
    if qinfo.emptySpace ≤ packetSizeInWords then
      ⟨enotempty, { qinfo with qHdr := { qinfo.qHdr with qhdrTxReq := 1 } }, []⟩
    else
      let qHdr := { qinfo.qHdr with qhdrTxReq := 0 }
      let newWriteIdx := writeIdx + packetSizeInWords
      let writePtr := (writeIdx <<< 2).toNat
      if qinfo.memSize.toNat < writePtr then
        ⟨enodata, { qinfo with qHdr }, []⟩
      else if newWriteIdx < qinfo.words then
        let copies : List Memcpy := [⟨writePtr, 0, (packetSizeInWords <<< 2).toNat⟩]
        ⟨0, { qinfo with
          qHdr := { qHdr with qhdrWriteIdx := newWriteIdx }
          cells := runCopies packet qinfo.cells copies }, copies⟩
      else
        let newWriteIdx := newWriteIdx - qinfo.words
        let atEnd := ((packetSizeInWords - newWriteIdx) <<< 2).toNat
        let copies : List Memcpy := [⟨writePtr, 0, atEnd⟩, ⟨0, atEnd, (newWriteIdx <<< 2).toNat⟩]
        ⟨0, { qinfo with
          qHdr := { qHdr with qhdrWriteIdx := newWriteIdx }
          cells := runCopies packet qinfo.cells copies }, copies⟩

/-- `__write_queue` for the packet in `packet`: the return value and the queue. -/
def writeQueue (qinfo : IfaceQInfo) (packet : Nat → U32) : Int × IfaceQInfo :=
  let effects := writeQueueEffects qinfo packet
  (effects.reply, effects.qinfo)

/-- What `__read_queue` returns and stores for its caller. -/
structure ReadReply where
  rc : Int
  packet : Nat → U32
  txReqIsSet : U32

/-- `__read_queue` into the buffer `packet`; where the source leaves
`*pb_tx_req_is_set` alone, so does the reply. The copies go from the array to the
buffer. -/
def readQueueEffects (qinfo : IfaceQInfo) (packet : Nat → U32) (txReqIsSet : U32) :
    Effects ReadReply :=
  let receiveRequest : U32 := if qinfo.qHdr.qhdrType &&& hfiQIdCtrlToHostMsgQ ≠ 0 then 1 else 0
  let readIdx := qinfo.qHdr.qhdrReadIdx
  let writeIdx := qinfo.qHdr.qhdrWriteIdx
  let readPtr := (readIdx <<< 2).toNat
  if readIdx = writeIdx then
    ⟨⟨enodata, packet, 0⟩, { qinfo with qHdr := { qinfo.qHdr with qhdrRxReq := receiveRequest } },
      []⟩
  else if qinfo.memSize.toNat < readPtr + 4 then
    ⟨⟨enodata, packet, txReqIsSet⟩, qinfo, []⟩
  else
    let packetSizeInWords := qinfo.cells (readPtr / 4) >>> 2
    if packetSizeInWords = 0 then
      ⟨⟨enodata, packet, txReqIsSet⟩, qinfo, []⟩
    else
      let newReadIdx := readIdx + packetSizeInWords
      let close (rc : Int) (copies : List Memcpy) (newReadIdx : U32) : Effects ReadReply :=
        ⟨⟨rc, runCopies qinfo.cells packet copies, if qinfo.qHdr.qhdrTxReq = 1 then 1 else 0⟩,
          { qinfo with qHdr :=
              { qinfo.qHdr with qhdrRxReq := receiveRequest, qhdrReadIdx := newReadIdx } }, copies⟩
      if (packetSizeInWords <<< 2).toNat ≤ vidcIfaceqVarHugePktSize ∧ readIdx ≤ qinfo.words then
        if newReadIdx < qinfo.words then
          close 0 [⟨0, readPtr, (packetSizeInWords <<< 2).toNat⟩] newReadIdx
        else
          let newReadIdx := newReadIdx - qinfo.words
          let atEnd := ((packetSizeInWords - newReadIdx) <<< 2).toNat
          close 0 [⟨0, readPtr, atEnd⟩, ⟨atEnd, 0, (newReadIdx <<< 2).toNat⟩] newReadIdx
      else
        close enodata [] writeIdx

/-- `__read_queue` into the buffer `packet`: the reply and the queue. -/
def readQueue (qinfo : IfaceQInfo) (packet : Nat → U32) (txReqIsSet : U32) :
    ReadReply × IfaceQInfo :=
  let effects := readQueueEffects qinfo packet txReqIsSet
  (effects.reply, effects.qinfo)

/-- The number of words that the driver takes from the first word of a packet. -/
theorem sizeInWords_toNat (word : U32) : (word >>> 2).toNat = word.toNat / 4 := by
  rw [BitVec.toNat_ushiftRight, Nat.shiftRight_eq_div_pow]

/-- The bytes of a number of words, in 32 bits. -/
theorem sizeInBytes_toNat (count : U32) : (count <<< 2).toNat = 4 * (count.toNat % 2 ^ 30) := by
  rw [BitVec.toNat_shiftLeft]
  omega

end Sm8650.Venus
