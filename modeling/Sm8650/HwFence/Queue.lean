import Sm8650.Data.Ring
import Sm8650.HwFence.Table

/-!
# The client queues of the fence driver

Each client has a Tx queue and possibly an Rx queue in memory shared with the
fence controller. A queue is a header with a read and a write index and an array
of dwords that holds payloads of 64 bytes. A client type may ask in the device
tree for Tx indices that start at a nonzero value or count payloads instead of
dwords; the driver translates such indices around every access.

Sources: `hw_fence_drv_priv.c` and `hw_fence_drv_utils.c`.
-/

namespace Sm8650.HwFence

open Sm8650.Ring

/-- A dword of a queue, and the type of the index variables. -/
abbrev U32 := BitVec 32

/-- `U32_MAX`. -/
def u32Max : Nat := 2 ^ 32 - 1

/-- `HW_FENCE_CLIENT_QUEUE_PAYLOAD`, the size of a payload in bytes. -/
def hwFenceClientQueuePayload : Nat := 64

/-- The size of a payload in dwords. -/
def payloadSizeU32 : U32 := 16

/-- `HW_FENCE_CLIENT_QUEUES`. -/
def hwFenceClientQueues : Nat := 2

/-- `MAX_CLIENT_QUEUE_MEM_SIZE`. -/
def maxClientQueueMemSize : Nat := 0x100000

/-- `PAGE_SIZE`. -/
def pageSize : Nat := 4096

/-- `PAGE_ALIGN`. -/
def pageAlign (size : Nat) : Nat :=
  (size + pageSize - 1) / pageSize * pageSize

/-- `struct hw_fence_client_type_desc`, without its name and the first client id,
which only serve to find the properties in the device tree. -/
structure ClientTypeDesc where
  maxClientsNum : U32
  clientsNum : U32
  queuesNum : U32
  queueEntries : U32 := 0
  startPadding : U32 := 0
  endPadding : U32 := 0
  memSize : U32 := 0
  txqIdxStart : U32 := 0
  txqIdxFactor : U32 := 0
  skipTxqWrIdx : Bool
  deriving DecidableEq, Repr

/-- `hw_fence_client_types`: the types gpu, dpu, val, ipe, vpu and ife0 to ife7. -/
def hwFenceClientTypes : List ClientTypeDesc :=
  [⟨1, 1, 2, 0, 0, 0, 0, 0, 0, false⟩, ⟨6, 6, 2, 0, 0, 0, 0, 0, 0, false⟩,
    ⟨7, 7, 2, 0, 0, 0, 0, 0, 0, false⟩, ⟨32, 0, 2, 0, 0, 0, 0, 0, 0, false⟩,
    ⟨32, 0, 2, 0, 0, 0, 0, 0, 0, false⟩]
    ++ List.replicate 8 ⟨32, 0, 1, 0, 0, 0, 0, 0, 0, true⟩

section DeviceTree

/- The size in bytes of the table header and of a queue header, which are shared
with the users of the driver and defined outside this repository. -/
variable (tableHeaderSize queueHeaderSize : Nat)

/-- `HW_FENCE_HFI_CLIENT_HEADERS_SIZE`. -/
def hwFenceHfiClientHeadersSize (queuesNum : U32) : Nat :=
  tableHeaderSize + queueHeaderSize * queuesNum.toNat

/-- `max_idx_from_zero`, a product of `u32` values. -/
def maxIdxFromZero (idxByPayload : Bool) (queueEntries : U32) : U32 :=
  if idxByPayload then queueEntries else queueEntries * payloadSizeU32

/-- The properties that `_parse_client_queue_dt_props_extra` takes from the cells
of the device tree, in their order. -/
def ClientTypeDesc.withExtra (desc : ClientTypeDesc) (tmp : List U32) : ClientTypeDesc :=
  { desc with
    startPadding := tmp[0]?.getD desc.startPadding
    endPadding := tmp[1]?.getD desc.endPadding
    txqIdxStart := tmp[2]?.getD desc.txqIdxStart
    txqIdxFactor :=
      match tmp[3]? with
      | some byPayload => if byPayload ≠ 0 then payloadSizeU32 else 1
      | none => desc.txqIdxFactor }

/-- `_parse_client_queue_dt_props_extra`; `none` is `-EINVAL`. -/
def parseClientQueueDtPropsExtra (extra : Option (List U32)) (desc : ClientTypeDesc) :
    Option ClientTypeDesc :=
  match extra with
  | none => some desc
  | some tmp =>
    if tmp.length = 0 ∨ 4 < tmp.length then
      none
    else if (1 : U32) < tmp[3]?.getD 0 then
      none
    else
      let idxByPayload : Bool := tmp[3]?.getD 0 ≠ (0 : U32)
      let desc := desc.withExtra tmp
      let headers := hwFenceHfiClientHeadersSize tableHeaderSize queueHeaderSize desc.queuesNum
      if desc.startPadding.toNat % 4 ≠ 0 ∨ desc.endPadding.toNat % 4 ≠ 0
          ∨ (desc.startPadding + desc.endPadding).toNat % 8 ≠ 0 then
        none
      else if u32Max ≤ desc.startPadding.toNat + headers then
        none
      else if u32Max ≤ desc.endPadding.toNat + headers + desc.startPadding.toNat then
        none
      else if u32Max - (maxIdxFromZero idxByPayload desc.queueEntries).toNat
          ≤ desc.txqIdxStart.toNat then
        none
      else
        some desc

/-- The properties that `_parse_client_queue_dt_props_indv` takes from the device tree.
A type without a property of its own keeps its defaults and gets the default number
of entries. -/
def ClientTypeDesc.withEntry (desc : ClientTypeDesc) (defaultEntries : U32)
    (entry : Option (U32 × U32 × U32 × U32)) : Option ClientTypeDesc :=
  match entry with
  | none => some { desc with queueEntries := defaultEntries }
  | some (clientsNum, queuesNum, queueEntries, skipTxqWrIdx) =>
    if 1 < skipTxqWrIdx then
      none
    else
      some { desc with clientsNum, queuesNum, queueEntries, skipTxqWrIdx := skipTxqWrIdx ≠ 0 }

/-- `_parse_client_queue_dt_props_indv`; `none` is `-EINVAL`. -/
def parseClientQueueDtPropsIndv (defaultEntries : U32)
    (entry : Option (U32 × U32 × U32 × U32)) (extra : Option (List U32))
    (desc : ClientTypeDesc) : Option ClientTypeDesc := do
  let desc ← desc.withEntry defaultEntries entry
  if desc.maxClientsNum < desc.clientsNum ∨ desc.queuesNum = 0
      ∨ hwFenceClientQueues < desc.queuesNum.toNat ∨ desc.queueEntries = 0 then
    none
  else
    let desc ← parseClientQueueDtPropsExtra tableHeaderSize queueHeaderSize extra desc
    let headers := hwFenceHfiClientHeadersSize tableHeaderSize queueHeaderSize desc.queuesNum
    if u32Max / hwFenceClientQueuePayload ≤ desc.queueEntries.toNat then
      none
    else
      let queueSize := hwFenceClientQueuePayload * desc.queueEntries.toNat
      let occupied := headers + desc.startPadding.toNat + desc.endPadding.toNat
      -- the subtraction is made in 64-bit unsigned arithmetic
      if ((0xfffff000 : BitVec 64) - BitVec.ofNat 64 occupied).toNat / desc.queuesNum.toNat
          ≤ queueSize then
        none
      else
        let memSize : U32 := BitVec.ofNat 32
          (pageAlign (headers + queueSize * desc.queuesNum.toNat + desc.startPadding.toNat
            + desc.endPadding.toNat))
        if maxClientQueueMemSize < memSize.toNat then
          none
        else
          some { desc with memSize }

end DeviceTree

/-- `struct msm_hw_fence_queue`; the memory it points to is `QueueMemory`. -/
structure MsmHwFenceQueue where
  qSizeBytes : U32
  rdWrIdxStart : U32
  rdWrIdxFactor : U32
  skipWrIdx : Bool
  deriving DecidableEq, Repr

/-- The fields of `struct msm_hw_fence_hfi_queue_header` that the driver reads back. -/
structure HfiQueueHeader where
  readIndex : U32
  writeIndex : U32
  txWm : U32
  deriving DecidableEq, Repr

/-- The header of a queue and the dwords behind `va_queue`. -/
structure QueueMemory where
  header : HfiQueueHeader
  cells : Nat → U32

/-- `IS_HW_FENCE_TX_QUEUE`, for the position of a queue in its client. -/
def isHwFenceTxQueue (queueType : Nat) : Bool :=
  decide (queueType = 0)

/-- `_lock_client_queue`: only the Rx queue is locked. -/
def lockClientQueue (queueType : Nat) : Bool :=
  decide (queueType = 1)

/-- What one round of the loop of `init_hw_fences_queues` stores for the queue at
position `i` of a client. -/
def initHwFencesQueue (desc : ClientTypeDesc) (i : Nat) : MsmHwFenceQueue :=
  let qSizeBytes : U32 := BitVec.ofNat 32 (hwFenceClientQueuePayload * desc.queueEntries.toNat)
  if isHwFenceTxQueue i then
    { qSizeBytes
      rdWrIdxStart := desc.txqIdxStart
      rdWrIdxFactor := if desc.txqIdxFactor ≠ 0 then desc.txqIdxFactor else 1
      skipWrIdx := desc.skipTxqWrIdx }
  else
    { qSizeBytes, rdWrIdxStart := 0, rdWrIdxFactor := 1, skipWrIdx := false }

/-- What the same round makes of the indices in the header. -/
def initHfiQueueHeader (desc : ClientTypeDesc) (i : Nat) (header : HfiQueueHeader) :
    HfiQueueHeader :=
  if desc.txqIdxStart ≠ 0 ∧ isHwFenceTxQueue i ∧ header.writeIndex = 0 then
    { readIndex := desc.txqIdxStart
      writeIndex := desc.txqIdxStart
      txWm := if desc.skipTxqWrIdx then desc.txqIdxStart else header.txWm }
  else
    header

/-- `REQUIRES_IDX_TRANSLATION`. -/
def MsmHwFenceQueue.requiresIdxTranslation (queue : MsmHwFenceQueue) : Bool :=
  decide (queue.rdWrIdxFactor ≠ 0 ∧ (queue.rdWrIdxStart ≠ 0 ∨ 1 < queue.rdWrIdxFactor))

/-- `IDX_TRANSLATE_CUSTOM_TO_DEFAULT`. -/
def MsmHwFenceQueue.idxTranslateCustomToDefault (queue : MsmHwFenceQueue) (idx : U32) : U32 :=
  (idx - queue.rdWrIdxStart) * queue.rdWrIdxFactor

/-- `IDX_TRANSLATE_DEFAULT_TO_CUSTOM`. -/
def MsmHwFenceQueue.idxTranslateDefaultToCustom (queue : MsmHwFenceQueue) (idx : U32) : U32 :=
  idx / queue.rdWrIdxFactor + queue.rdWrIdxStart

/-- One index through `_translate_queue_indexes_custom_to_default`. -/
def MsmHwFenceQueue.toDefault (queue : MsmHwFenceQueue) (idx : U32) : U32 :=
  if queue.requiresIdxTranslation then queue.idxTranslateCustomToDefault idx else idx

/-- The translation back, before an index is stored in the header. -/
def MsmHwFenceQueue.toCustom (queue : MsmHwFenceQueue) (idx : U32) : U32 :=
  if queue.requiresIdxTranslation then queue.idxTranslateDefaultToCustom idx else idx

/-- `q_size_u32`. -/
def MsmHwFenceQueue.qSizeU32 (queue : MsmHwFenceQueue) : U32 :=
  queue.qSizeBytes / 4

/-- `struct msm_hw_fence_queue_payload`. -/
structure MsmHwFenceQueuePayload where
  size : U32
  type : BitVec 16
  version : BitVec 16
  ctxtId : U64
  seqno : U64
  hash : U64
  flags : U64
  clientData : U64
  error : U32
  timestampLo : U32
  timestampHi : U32
  reserve : U32
  deriving DecidableEq, Repr

/-- A 64-bit field of a little-endian structure, from the dword where it starts. -/
def readq (cells : Nat → U32) (start : Nat) : U64 :=
  cells (start + 1) ++ cells start

/-- `writeq_relaxed`. -/
def writeq (cells : Nat → U32) (start : Nat) (value : U64) : Nat → U32 :=
  blit cells start [value.extractLsb' 0 32, value.extractLsb' 32 32]

/-- `writel_relaxed`. -/
def writel (cells : Nat → U32) (start : Nat) (value : U32) : Nat → U32 :=
  blit cells start [value]

/-- `writew_relaxed` to the low half of a dword. -/
def writewLow (cells : Nat → U32) (start : Nat) (value : BitVec 16) : Nat → U32 :=
  blit cells start [(cells start).extractLsb' 16 16 ++ value]

/-- `writew_relaxed` to the high half of a dword. -/
def writewHigh (cells : Nat → U32) (start : Nat) (value : BitVec 16) : Nat → U32 :=
  blit cells start [value ++ (cells start).extractLsb' 0 16]

/-- The payload at a dword of the queue. -/
def readPtrPayload (cells : Nat → U32) (start : Nat) : MsmHwFenceQueuePayload where
  size := cells start
  type := (cells (start + 1)).extractLsb' 0 16
  version := (cells (start + 1)).extractLsb' 16 16
  ctxtId := readq cells (start + 2)
  seqno := readq cells (start + 4)
  hash := readq cells (start + 6)
  flags := readq cells (start + 8)
  clientData := readq cells (start + 10)
  error := cells (start + 12)
  timestampLo := cells (start + 13)
  timestampHi := cells (start + 14)
  reserve := cells (start + 15)

/-- The fence data that a write puts into a queue, with the time read while it runs. -/
structure QueueMessage where
  ctxtId : U64
  seqno : U64
  hash : U64
  flags : U64
  clientData : U64
  error : U32
  timestamp : U64
  deriving DecidableEq, Repr

/-- `HW_FENCE_PAYLOAD_TYPE_1`. -/
def hwFencePayloadType1 : BitVec 16 := 1

/-- `HW_FENCE_PAYLOAD_REV(1, 0)`. -/
def hwFencePayloadRev10 : BitVec 16 := 0x100

/-- The stores of `hw_fence_update_queue` into the payload at a dword; nothing is
stored to `reserve`. -/
def writePtrPayload (cells : Nat → U32) (start : Nat) (message : QueueMessage) : Nat → U32 :=
  let cells := writeq cells start (BitVec.ofNat 64 hwFenceClientQueuePayload)
  let cells := writewLow cells (start + 1) hwFencePayloadType1
  let cells := writewHigh cells (start + 1) hwFencePayloadRev10
  let cells := writeq cells (start + 2) message.ctxtId
  let cells := writeq cells (start + 4) message.seqno
  let cells := writeq cells (start + 6) message.hash
  let cells := writeq cells (start + 8) message.flags
  let cells := writeq cells (start + 10) message.clientData
  let cells := writel cells (start + 12) message.error
  let cells := writel cells (start + 13) (message.timestamp.extractLsb' 0 32)
  writel cells (start + 14) (message.timestamp.extractLsb' 32 32)

/-- The return value of a call and what it stored in the caller's payload. -/
structure QueueReply where
  ret : Int
  payload : Option MsmHwFenceQueuePayload
  deriving DecidableEq, Repr

/-- `hw_fence_read_queue_helper`. -/
def hwFenceReadQueueHelper (queue : MsmHwFenceQueue) (mem : QueueMemory) :
    QueueReply × QueueMemory :=
  let readIdx := queue.toDefault mem.header.readIndex
  let writeIdx := queue.toDefault mem.header.writeIndex
  if readIdx = writeIdx then
    (⟨einval, none⟩, mem)
  else
    let toReadIdx := readIdx + payloadSizeU32
    let toReadIdx := if queue.qSizeU32 ≤ toReadIdx then 0 else toReadIdx
    let toReadIdx := queue.toCustom toReadIdx
    (⟨if toReadIdx = writeIdx then 0 else 1, some (readPtrPayload mem.cells readIdx.toNat)⟩,
      { mem with header := { mem.header with readIndex := toReadIdx } })

/-- The parts of `struct msm_hw_fence_client` that a queue update looks at. -/
structure MsmHwFenceClient where
  clientId : U32
  queuesNum : Nat
  queues : Nat → MsmHwFenceQueue

/-- `wr_ptr` of `_get_update_queue_params`: the index that a write advances. -/
def MsmHwFenceQueue.wrIndex (queue : MsmHwFenceQueue) (header : HfiQueueHeader) : U32 :=
  if queue.skipWrIdx then header.txWm else header.writeIndex

/-- The store through `wr_ptr`. -/
def MsmHwFenceQueue.setWrIndex (queue : MsmHwFenceQueue) (header : HfiQueueHeader) (idx : U32) :
    HfiQueueHeader :=
  if queue.skipWrIdx then { header with txWm := idx } else { header with writeIndex := idx }

/-- `hw_fence_update_queue` on the memory of the client's queue at `queueType`; the
lock taken for the Rx queue is released on every exit and is not part of the state. -/
def hwFenceUpdateQueue (clientLockTblCnt : Nat) (client : MsmHwFenceClient) (queueType : Nat)
    (message : QueueMessage) (mem : QueueMemory) : QueueReply × QueueMemory :=
  if client.queuesNum ≤ queueType then
    (⟨einval, none⟩, mem)
  else
    let queue := client.queues queueType
    if lockClientQueue queueType ∧ clientLockTblCnt ≤ (client.clientId - 1).toNat then
      (⟨einval, none⟩, mem)
    else
      let readIdx := queue.toDefault mem.header.readIndex
      let writeIdx := queue.toDefault (queue.wrIndex mem.header)
      let qFreeU32 :=
        if readIdx ≤ writeIdx then queue.qSizeU32 - (writeIdx - readIdx) else readIdx - writeIdx
      if qFreeU32 ≤ payloadSizeU32 then
        (⟨einval, none⟩, mem)
      else
        let toWriteIdx := writeIdx + payloadSizeU32
        let toWriteIdx := if queue.qSizeU32 ≤ toWriteIdx then 0 else toWriteIdx
        let toWriteIdx := queue.toCustom toWriteIdx
        (⟨0, none⟩,
          { header := queue.setWrIndex mem.header toWriteIdx
            cells := writePtrPayload mem.cells writeIdx.toNat message })

end Sm8650.HwFence
