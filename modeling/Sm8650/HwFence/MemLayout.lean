import Sm8650.HwFence.Queue

/-!
# The memory of the fence driver

The control queues, the locks, the fence table, the queues of the clients and the debug events
share one carved-out memory. The sizes of these regions come from the device tree; offsets and
sums are kept in 32 bits.

Source: `hw_fence_drv_utils.c`.
-/

namespace Sm8650.HwFence

/-- `-ENOMEM`. -/
def enomem : Int := -12

/-- `sizeof(struct msm_hw_fence)`. -/
def sizeofMsmHwFence : Nat := 160

/-- `sizeof(struct msm_hw_fence_event)`. -/
def sizeofMsmHwFenceEvent : Nat := 64

/-- `HW_FENCE_CTRL_QUEUE_PAYLOAD`. -/
def hwFenceCtrlQueuePayload : Nat := 24

/-- `HW_FENCE_CTRL_QUEUES`. -/
def hwFenceCtrlQueues : Nat := 2

/-- `HW_FENCE_MAX_EVENTS`. -/
def hwFenceMaxEvents : Nat := 1000

/-- `HW_FENCE_MAX_CLIENT_TYPE_STATIC` and `HW_FENCE_MIN_RXQ_CLIENT_TYPE`. -/
def hwFenceMaxClientTypeStatic : Nat := 3

/-- What the driver takes from the header it shares with its users, which is outside this
repository: the sizes of the queue headers, the first client id of each client type, the id
`HW_FENCE_CLIENT_ID_VAL6`, which is a bit of a doorbell mask of 64 bits, the id
`HW_FENCE_CLIENT_MAX` and `MSM_HW_FENCE_MAX_SIGNAL_PER_CLIENT`. -/
structure MsmHwFenceHeader where
  tableHeaderSize : Nat
  queueHeaderSize : Nat
  headers_le : tableHeaderSize + queueHeaderSize * hwFenceCtrlQueues ≤ u32Max
  initId : Nat → Nat
  clientIdVal6 : Nat
  val6_lt : clientIdVal6 < 64
  clientMax : Nat
  maxSignalPerClient : Nat

/-- `HW_FENCE_MAX_STATIC_CLIENTS_INDEX`, the first id of the type `ipe`. -/
def MsmHwFenceHeader.maxStaticClientsIndex (header : MsmHwFenceHeader) : Nat :=
  header.initId hwFenceMaxClientTypeStatic

/-- `HW_FENCE_HFI_CTRL_HEADERS_SIZE`. -/
def MsmHwFenceHeader.ctrlHeadersSize (header : MsmHwFenceHeader) : Nat :=
  header.tableHeaderSize + header.queueHeaderSize * hwFenceCtrlQueues

/-- `HW_FENCE_MEM_LOCKS_SIZE`, a `size_t`. -/
def hwFenceMemLocksSize (rxqClientsNum : U32) : Nat :=
  8 * rxqClientsNum.toNat

/-- The properties of a client type in the device tree: the four cells of
`qcom,hw-fence-client-type-…` and the cells of its `-extra` property, if present. -/
structure TypeProps where
  entry : Option (U32 × U32 × U32 × U32)
  extra : Option (List U32)

/-- The properties of the device tree: `qcom,hw-fence-table-entries`,
`qcom,hw-fence-queue-entries` and those of the client types. -/
structure DeviceTree where
  tableEntries : Option U32
  queueEntries : Option U32
  types : Nat → TypeProps

/-- `struct hw_fence_client_queue_desc`. -/
structure ClientQueueDesc where
  type : ClientTypeDesc
  startOffset : U32

/-- What `struct hw_fence_driver_data` holds about the memory. `clientQueueSize` is the array
`hw_fence_client_queue_size` by client id. -/
structure DriverData where
  tableEntries : U32 := 0
  memFencesTableSize : U32 := 0
  queueEntries : U32 := 0
  ctrlQueueSize : U32 := 0
  memCtrlQueuesSize : U32 := 0
  clientQueueSize : Nat → Option ClientQueueDesc := fun _ => none
  rxqClientsNum : U32 := 0
  clientsNum : U32 := 0
  usedMemSize : U32 := 0
  size : Nat := 0

section Parse

variable (header : MsmHwFenceHeader)

/-- The first loop of `_parse_client_queue_dt_props`, from type `i` on. -/
def parseTypes (defaultEntries : U32) (types : Nat → TypeProps) :
    List ClientTypeDesc → Nat → Option (List ClientTypeDesc)
  | [], _ => some []
  | desc :: rest, i => do
      let desc ← parseClientQueueDtPropsIndv header.tableHeaderSize header.queueHeaderSize
        defaultEntries (types i).entry (types i).extra desc
      let rest ← parseTypes defaultEntries types rest (i + 1)
      some (desc :: rest)

/-- The number of clients of some types. -/
def clientsNumSum (descs : List ClientTypeDesc) : Nat :=
  (descs.map fun desc => desc.clientsNum.toNat).sum

/-- `rxq_clients_num`: the static clients and the configurable ones of types with both
queues. -/
def rxqClientsNum (descs : List ClientTypeDesc) : U32 :=
  BitVec.ofNat 32 (header.clientIdVal6
    + clientsNumSum ((descs.drop hwFenceMaxClientTypeStatic).filter fun desc =>
      desc.queuesNum.toNat == hwFenceClientQueues))

/-- `hw_fence_utils_get_client_id_priv`. -/
def getClientIdPriv (descs : List ClientTypeDesc) (clientId : Nat) : Nat :=
  if clientId < header.maxStaticClientsIndex then
    clientId
  else
    let clientType := hwFenceMaxClientTypeStatic
      + (clientId - header.maxStaticClientsIndex) / header.maxSignalPerClient
    let offset := (clientId - header.maxStaticClientsIndex) % header.maxSignalPerClient
    match descs[clientType]? with
    | none => header.clientMax
    | some desc =>
      if desc.clientsNum.toNat ≤ offset then
        header.clientMax
      else
        header.maxStaticClientsIndex + offset
          + clientsNumSum ((descs.take clientType).drop hwFenceMaxClientTypeStatic)

/-- The clients of all types in the order of the second loop of
`_parse_client_queue_dt_props`: the external id and the type of each. -/
def clientsOf (descs : List ClientTypeDesc) : List (Nat × ClientTypeDesc) :=
  descs.zipIdx.flatMap fun (desc, i) =>
    (List.range desc.clientsNum.toNat).map fun j => (header.initId i + j, desc)

/-- That loop: the array of descriptors and the offset behind the last client. -/
def placeClients (priv : Nat → Nat) :
    List (Nat × ClientTypeDesc) → U32 → (Nat → Option ClientQueueDesc) →
      (Nat → Option ClientQueueDesc) × U32
  | [], startOffset, queues => (queues, startOffset)
  | (clientIdExt, desc) :: rest, startOffset, queues =>
    placeClients priv rest (startOffset + desc.memSize)
      (Function.update queues (priv clientIdExt) (some ⟨desc, startOffset⟩))

/-- `_parse_client_queue_dt_props`; `alloc` says whether the array can be allocated. -/
def parseClientQueueDtProps (alloc : Bool) (types : Nat → TypeProps) (drvData : DriverData) :
    Option DriverData := do
  let descs ← parseTypes header drvData.queueEntries types hwFenceClientTypes 0
  let rxqNum := rxqClientsNum header descs
  if alloc = false then
    none
  else
    let startOffset : U32 := BitVec.ofNat 32 (pageAlign (drvData.memCtrlQueuesSize.toNat
      + hwFenceMemLocksSize rxqNum + drvData.memFencesTableSize.toNat))
    let placed := placeClients (getClientIdPriv header descs) (clientsOf header descs)
      startOffset fun _ => none
    some { drvData with
      rxqClientsNum := rxqNum
      clientsNum := BitVec.ofNat 32 (header.maxStaticClientsIndex
        + clientsNumSum (descs.drop hwFenceMaxClientTypeStatic))
      clientQueueSize := placed.1
      usedMemSize := placed.2 }

/-- `hw_fence_utils_parse_dt_props` on zeroed driver data: the value returned and the driver
data. A property that is there with the value 0 ends it with the return value 0. -/
def parseDtProps (alloc allocClients : Bool) (dt : DeviceTree) : Int × DriverData :=
  let drvData : DriverData := {}
  match dt.tableEntries with
  | none => (einval, drvData)
  | some tableEntries =>
    if tableEntries = 0 then
      (0, drvData)
    else
      let drvData := { drvData with tableEntries }
      if u32Max / sizeofMsmHwFence ≤ tableEntries.toNat then
        (einval, drvData)
      else
        let drvData := { drvData with
          memFencesTableSize := BitVec.ofNat 32 (sizeofMsmHwFence * tableEntries.toNat) }
        match dt.queueEntries with
        | none => (einval, drvData)
        | some queueEntries =>
          if queueEntries = 0 then
            (0, drvData)
          else
            let drvData := { drvData with queueEntries }
            if u32Max / hwFenceCtrlQueuePayload ≤ queueEntries.toNat then
              (einval, drvData)
            else
              let ctrlQueueSize := hwFenceCtrlQueuePayload * queueEntries.toNat
              let drvData := { drvData with ctrlQueueSize := BitVec.ofNat 32 ctrlQueueSize }
              if (u32Max - header.ctrlHeadersSize) / hwFenceCtrlQueues ≤ ctrlQueueSize then
                (einval, drvData)
              else
                let drvData := { drvData with
                  memCtrlQueuesSize := BitVec.ofNat 32
                    (header.ctrlHeadersSize + hwFenceCtrlQueues * ctrlQueueSize) }
                match parseClientQueueDtProps header alloc dt.types drvData with
                | none => (einval, drvData)
                | some drvData =>
                  if allocClients = false then (enomem, drvData) else (0, drvData)

end Parse

/-- The part of `hw_fence_utils_alloc_mem` about the size of the carved-out memory, a
`size_t`. -/
def allocMem (drvData : DriverData) (resourceSize : Nat) : Int × DriverData :=
  let drvData := { drvData with size := resourceSize }
  if drvData.size < drvData.usedMemSize.toNat then (enomem, drvData) else (0, drvData)

/-- `enum hw_fence_mem_reserve`, with the client whose queues are asked for. -/
inductive MemReserve
  | ctrlQueue
  | locksRegion
  | table
  | clientQueue (clientId : Nat)
  | eventsBuff
  deriving DecidableEq, Repr

/-- A region of the carved-out memory, in bytes from its start. -/
structure Region where
  startOffset : U32
  size : U32
  deriving DecidableEq, Repr

/-- The region that a reservation asks for; an error is what `hw_fence_utils_reserve_mem`
returns before it looks at the size of the memory. -/
def requested (drvData : DriverData) : MemReserve → Except Int Region
  | .ctrlQueue => .ok ⟨0, drvData.memCtrlQueuesSize⟩
  | .locksRegion =>
    .ok ⟨drvData.memCtrlQueuesSize, BitVec.ofNat 32 (hwFenceMemLocksSize drvData.rxqClientsNum)⟩
  | .table =>
    .ok ⟨BitVec.ofNat 32 (drvData.memCtrlQueuesSize.toNat
        + hwFenceMemLocksSize drvData.rxqClientsNum), drvData.memFencesTableSize⟩
  | .clientQueue clientId =>
    if clientId < drvData.clientsNum.toNat then
      match drvData.clientQueueSize clientId with
      | none => .error einval
      | some desc => .ok ⟨desc.startOffset, desc.type.memSize⟩
    else
      .error einval
  | .eventsBuff =>
    let startOffset := drvData.usedMemSize
    let remainingSizeBytes : U32 := BitVec.ofNat 32 (drvData.size - startOffset.toNat)
    if drvData.size ≤ startOffset.toNat
        ∨ remainingSizeBytes.toNat < sizeofMsmHwFenceEvent then
      .error enomem
    else
      let totalEvents := min (remainingSizeBytes.toNat / sizeofMsmHwFenceEvent) hwFenceMaxEvents
      .ok ⟨startOffset, BitVec.ofNat 32 (totalEvents * sizeofMsmHwFenceEvent)⟩

/-- `hw_fence_utils_reserve_mem`; the sum that is compared with the size of the memory is one
of 32 bits. -/
def reserveMem (drvData : DriverData) (type : MemReserve) : Except Int Region :=
  match requested drvData type with
  | .error ret => .error ret
  | .ok region =>
    if drvData.size < (region.startOffset + region.size).toNat then
      .error enomem
    else
      .ok region

end Sm8650.HwFence
