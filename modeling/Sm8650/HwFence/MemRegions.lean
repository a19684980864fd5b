import Mathlib.Algebra.Order.BigOperators.Group.List
import Mathlib.Algebra.Order.Group.Nat
import Sm8650.HwFence.MemLayout

/-!
# Regions of the carved-out memory

Every offset is a sum of sizes that are checked on their own. As long as the sum of all of
them fits in 32 bits, the regions are apart and inside the memory; where it does not, some
memory exists in which two regions meet or one leaves it.
-/

namespace Sm8650.HwFence

open Function List Option BitVec

/-- A byte of a region. -/
def Region.Contains (region : Region) (byte : Nat) : Prop :=
  region.startOffset.toNat ≤ byte ∧ byte < region.startOffset.toNat + region.size.toNat

/-- Every region handed out is inside the memory, and no two of them share a byte. -/
structure Sound (drvData : DriverData) : Prop where
  inside : ∀ type region, reserveMem drvData type = .ok region →
    region.startOffset.toNat + region.size.toNat ≤ drvData.size
  apart : ∀ type type' region region', type ≠ type' → reserveMem drvData type = .ok region →
    reserveMem drvData type' = .ok region' → ∀ byte, region.Contains byte → ¬ region'.Contains byte

/-- The regions are sound in a memory of any size that the driver accepts. -/
def LayoutSound (drvData : DriverData) : Prop :=
  ∀ resourceSize, (allocMem drvData resourceSize).1 = 0 → Sound (allocMem drvData resourceSize).2

/-! ## Client types -/

/-- The bytes of the queues of all clients. -/
def clientsSize (descs : List ClientTypeDesc) : Nat :=
  (descs.map fun desc => desc.clientsNum.toNat * desc.memSize.toNat).sum

/-- Accepted properties bound the number of clients and the bytes of a client. -/
theorem parseIndv_bounds {tableHeaderSize queueHeaderSize : Nat} {defaultEntries : U32}
    {entry : Option (U32 × U32 × U32 × U32)} {extra : Option (List U32)}
    {type desc : ClientTypeDesc}
    (parsed : parseClientQueueDtPropsIndv tableHeaderSize queueHeaderSize defaultEntries entry
      extra type = some desc) :
    desc.clientsNum.toNat ≤ type.maxClientsNum.toNat
      ∧ desc.memSize.toNat ≤ maxClientQueueMemSize := by
  simp only [parseClientQueueDtPropsIndv, bind_eq_bind, bind_eq_some_iff,
    ite_none_left_eq_some, some.injEq] at parsed
  obtain ⟨counted, fromEntry, valid, padded, parsedExtra, _, _, small, rfl⟩ := parsed
  have kept : padded.clientsNum = counted.clientsNum := by
    rcases extra with _ | tmp
    · cases parsedExtra
      rfl
    · simp only [parseClientQueueDtPropsExtra, ite_none_left_eq_some, some.injEq] at parsedExtra
      obtain ⟨_, _, _, _, _, _, rfl⟩ := parsedExtra
      rfl
  have keptMax : counted.maxClientsNum = type.maxClientsNum := by
    rcases entry with _ | ⟨clientsNum, queuesNum, queueEntries, skipTxqWrIdx⟩
    · cases fromEntry
      rfl
    · simp only [ClientTypeDesc.withEntry, ite_none_left_eq_some, some.injEq] at fromEntry
      rw [← fromEntry.2]
  refine ⟨?_, Nat.le_of_not_lt small⟩
  have bound := le_def.mp (BitVec.not_lt.mp (not_or.mp valid).1)
  rwa [kept, ← keptMax]

variable {header : MsmHwFenceHeader}

/-- The bounds of the types that a device tree is accepted with. -/
theorem parseTypes_bounds {defaultEntries : U32} {types : Nat → TypeProps}
    {descs parsed : List ClientTypeDesc} {i : Nat}
    (accepted : parseTypes header defaultEntries types descs i = some parsed) :
    clientsNumSum parsed ≤ (descs.map fun desc => desc.maxClientsNum.toNat).sum
      ∧ clientsSize parsed
        ≤ (descs.map fun desc => desc.maxClientsNum.toNat).sum * maxClientQueueMemSize := by
  induction descs generalizing i parsed with
  | nil =>
    cases accepted
    exact ⟨Nat.le_refl _, Nat.le_refl _⟩
  | cons desc rest ih =>
    simp only [parseTypes, bind_eq_bind, bind_eq_some_iff, some.injEq] at accepted
    obtain ⟨first, parsedFirst, others, parsedRest, rfl⟩ := accepted
    obtain ⟨clients, size⟩ := parseIndv_bounds parsedFirst
    obtain ⟨restClients, restSize⟩ := ih parsedRest
    constructor
    · exact Nat.add_le_add clients restClients
    · simp only [map_cons, sum_cons] at restSize ⊢
      rw [Nat.add_mul]
      exact Nat.add_le_add (Nat.mul_le_mul clients size) restSize

theorem clientsNumSum_le_of_sublist {descs descs' : List ClientTypeDesc}
    (sublist : descs.Sublist descs') : clientsNumSum descs ≤ clientsNumSum descs' :=
  (sublist.map _).sum_le_sum fun _ _ => Nat.zero_le _

theorem rxqClientsNum_lt {descs : List ClientTypeDesc} (few : clientsNumSum descs ≤ 334)
    : (rxqClientsNum header descs).toNat < 400 := by
  have counted : clientsNumSum ((descs.drop hwFenceMaxClientTypeStatic).filter fun desc =>
      desc.queuesNum.toNat == hwFenceClientQueues) ≤ clientsNumSum descs :=
    clientsNumSum_le_of_sublist (filter_sublist.trans (drop_sublist _ descs))
  have bit := header.val6_lt
  rw [rxqClientsNum, toNat_ofNat]
  omega

/-! ## Clients -/

/-- The bytes of the queues of some clients. -/
def queuesSize (clients : List (Nat × ClientTypeDesc)) : Nat :=
  (clients.map fun client => client.2.memSize.toNat).sum

theorem queuesSize_append (clients clients' : List (Nat × ClientTypeDesc)) :
    queuesSize (clients ++ clients') = queuesSize clients + queuesSize clients' := by
  rw [queuesSize, map_append, sum_append, queuesSize, queuesSize]

/-- The clients of one type. -/
theorem queuesSize_map (ids : List Nat) (first : Nat) (desc : ClientTypeDesc) :
    queuesSize (ids.map fun j => (first + j, desc)) = ids.length * desc.memSize.toNat := by
  induction ids with
  | nil => exact (Nat.zero_mul _).symm
  | cons j ids ih =>
    rw [map_cons, queuesSize, map_cons, sum_cons, ← queuesSize, ih,
      length_cons, Nat.succ_mul, Nat.add_comm]

theorem queuesSize_clientsOf (header : MsmHwFenceHeader) (descs : List ClientTypeDesc) :
    queuesSize (clientsOf header descs) = clientsSize descs := by
  rw [clientsOf]
  generalize 0 = i
  induction descs generalizing i with
  | nil => rfl
  | cons desc rest ih =>
    rw [zipIdx_cons, flatMap_cons, queuesSize_append, ih (i + 1), queuesSize_map,
      length_range, clientsSize, clientsSize, map_cons, sum_cons]

/-- The queues in an array are between two offsets and apart. -/
structure Placed (low high : Nat) (queues : Nat → Option ClientQueueDesc) : Prop where
  between : ∀ id desc, queues id = some desc →
    low ≤ desc.startOffset.toNat ∧ desc.startOffset.toNat + desc.type.memSize.toNat ≤ high
  apart : ∀ id id' desc desc', id ≠ id' → queues id = some desc → queues id' = some desc' →
    desc.startOffset.toNat + desc.type.memSize.toNat ≤ desc'.startOffset.toNat
      ∨ desc'.startOffset.toNat + desc'.type.memSize.toNat ≤ desc.startOffset.toNat

/-- One client more. -/
theorem Placed.update {low high : Nat} {queues : Nat → Option ClientQueueDesc}
    (placed : Placed low high queues) (above : low ≤ high) {startOffset : U32}
    (atHigh : startOffset.toNat = high) (id : Nat) (type : ClientTypeDesc) :
    Placed low (high + type.memSize.toNat) (update queues id (some ⟨type, startOffset⟩)) := by
  constructor
  · intro other desc found
    by_cases same : other = id
    · rw [same, update_self, some.injEq] at found
      rw [← found]
      dsimp only
      exact ⟨by omega, by omega⟩
    · rw [update_of_ne same] at found
      have before := placed.between other desc found
      exact ⟨before.1, by omega⟩
  · intro first second desc desc' different isFirst isSecond
    by_cases firstNew : first = id
    · have secondOld : second ≠ id := fun same => different (firstNew.trans same.symm)
      rw [firstNew, update_self, some.injEq] at isFirst
      rw [update_of_ne secondOld] at isSecond
      have before := placed.between second desc' isSecond
      rw [← isFirst]
      dsimp only
      exact .inr (by omega)
    · rw [update_of_ne firstNew] at isFirst
      by_cases secondNew : second = id
      · rw [secondNew, update_self, some.injEq] at isSecond
        have before := placed.between first desc isFirst
        rw [← isSecond]
        dsimp only
        exact .inl (by omega)
      · rw [update_of_ne secondNew] at isSecond
        exact placed.apart first second desc desc' different isFirst isSecond

/-- The loop over the clients keeps the queues apart as long as the offsets fit. -/
theorem placeClients_placed {priv : Nat → Nat} {clients : List (Nat × ClientTypeDesc)}
    {startOffset : U32} {low : Nat} {queues : Nat → Option ClientQueueDesc}
    (placed : Placed low startOffset.toNat queues) (above : low ≤ startOffset.toNat)
    (fits : startOffset.toNat + queuesSize clients < 2 ^ 32) :
    Placed low (startOffset.toNat + queuesSize clients)
      (placeClients priv clients startOffset queues).1 := by
  induction clients generalizing startOffset queues with
  | nil => exact placed
  | cons client rest ih =>
    obtain ⟨clientIdExt, desc⟩ := client
    simp only [queuesSize, map_cons, sum_cons] at fits ⊢
    have next : (startOffset + desc.memSize).toNat = startOffset.toNat + desc.memSize.toNat := by
      rw [toNat_add, Nat.mod_eq_of_lt (by omega)]
    have updated := placed.update above rfl (priv clientIdExt) desc
    rw [← next] at updated
    have all := ih updated (by omega) (by rw [next, queuesSize]; omega)
    rwa [next, queuesSize, Nat.add_assoc] at all

/-- The offset behind the last client, in 32 bits. -/
theorem placeClients_usedMemSize (priv : Nat → Nat) (clients : List (Nat × ClientTypeDesc))
    (startOffset : U32) (queues : Nat → Option ClientQueueDesc) :
    (placeClients priv clients startOffset queues).2.toNat
      = (startOffset.toNat + queuesSize clients) % 2 ^ 32 := by
  induction clients generalizing startOffset queues with
  | nil => exact (Nat.mod_eq_of_lt startOffset.isLt).symm
  | cons client rest ih =>
    rw [placeClients, ih, toNat_add]
    simp only [queuesSize, map_cons, sum_cons]
    omega

/-! ## Accepted device trees -/

/-- The bytes of the control queues. -/
def ctrlQueuesSize (header : MsmHwFenceHeader) (queueEntries : U32) : Nat :=
  header.ctrlHeadersSize + hwFenceCtrlQueues * (hwFenceCtrlQueuePayload * queueEntries.toNat)

/-- The bytes of the control queues, the locks and the fence table. -/
def fixedSize (header : MsmHwFenceHeader) (tableEntries queueEntries : U32)
    (descs : List ClientTypeDesc) : Nat :=
  ctrlQueuesSize header queueEntries + hwFenceMemLocksSize (rxqClientsNum header descs)
    + sizeofMsmHwFence * tableEntries.toNat

/-- The bytes up to the end of the last client's queues, without wrapping. -/
def requiredSize (header : MsmHwFenceHeader) (tableEntries queueEntries : U32)
    (descs : List ClientTypeDesc) : Nat :=
  pageAlign (fixedSize header tableEntries queueEntries descs) + clientsSize descs

/-- Driver data with the sizes of a device tree. -/
structure LaidOut (header : MsmHwFenceHeader) (tableEntries queueEntries : U32)
    (descs : List ClientTypeDesc) (drvData : DriverData) : Prop where
  memCtrlQueuesSize : drvData.memCtrlQueuesSize.toNat = ctrlQueuesSize header queueEntries
  memFencesTableSize : drvData.memFencesTableSize.toNat = sizeofMsmHwFence * tableEntries.toNat
  rxq : drvData.rxqClientsNum = rxqClientsNum header descs
  few : (rxqClientsNum header descs).toNat < 400
  small : clientsSize descs ≤ 334 * maxClientQueueMemSize
  placed : ∃ priv, (drvData.clientQueueSize, drvData.usedMemSize)
    = placeClients priv (clientsOf header descs)
      (BitVec.ofNat 32 (pageAlign (fixedSize header tableEntries queueEntries descs)))
      fun _ => none

/-- The client properties of an accepted device tree lay out the queues behind the rest. -/
theorem parseClientQueueDtProps_laidOut {alloc : Bool} {types : Nat → TypeProps}
    {tableEntries queueEntries : U32} {drvData parsed : DriverData}
    (entries : drvData.queueEntries = queueEntries)
    (ctrl : drvData.memCtrlQueuesSize.toNat = ctrlQueuesSize header queueEntries)
    (table : drvData.memFencesTableSize.toNat = sizeofMsmHwFence * tableEntries.toNat)
    (accepted : parseClientQueueDtProps header alloc types drvData = some parsed) :
    ∃ descs, parseTypes header queueEntries types hwFenceClientTypes 0 = some descs
      ∧ LaidOut header tableEntries queueEntries descs parsed := by
  simp only [parseClientQueueDtProps, bind_eq_bind, bind_eq_some_iff,
    ite_none_left_eq_some, some.injEq] at accepted
  obtain ⟨descs, parsedTypes, -, rfl⟩ := accepted
  rw [entries] at parsedTypes
  obtain ⟨few, small⟩ := parseTypes_bounds parsedTypes
  refine ⟨descs, parsedTypes, ctrl, table, rfl, rxqClientsNum_lt few, small,
    getClientIdPriv header descs, ?_⟩
  rw [ctrl, table, fixedSize]

/-- The outcomes of an accepted device tree. A number of entries that is present but 0 ends
the parsing early. -/
theorem parseDtProps_accepted {alloc allocClients : Bool} {dt : DeviceTree}
    (accepted : (parseDtProps header alloc allocClients dt).1 = 0) :
    (dt.tableEntries = some 0 ∧ (parseDtProps header alloc allocClients dt).2 = {})
      ∨ ∃ tableEntries, dt.tableEntries = some tableEntries ∧ tableEntries ≠ 0
        ∧ ((dt.queueEntries = some 0 ∧ ∃ size : U32, size ≠ 0
            ∧ (parseDtProps header alloc allocClients dt).2
              = { tableEntries, memFencesTableSize := size })
          ∨ ∃ queueEntries descs, dt.queueEntries = some queueEntries ∧ queueEntries ≠ 0
            ∧ parseTypes header queueEntries dt.types hwFenceClientTypes 0 = some descs
            ∧ LaidOut header tableEntries queueEntries descs
              (parseDtProps header alloc allocClients dt).2) := by
  have failed : einval ≠ 0 := by decide
  rw [parseDtProps] at accepted ⊢
  rcases tableProp : dt.tableEntries with _ | tableEntries
  · rw [tableProp] at accepted
    exact absurd accepted failed
  rw [tableProp] at accepted
  dsimp only at accepted ⊢
  by_cases noTable : tableEntries = 0
  · rw [if_pos noTable]
    exact .inl ⟨congrArg some noTable, rfl⟩
  rw [if_neg noTable] at accepted ⊢
  by_cases largeTable : u32Max / sizeofMsmHwFence ≤ tableEntries.toNat
  · rw [if_pos largeTable] at accepted
    exact absurd accepted failed
  rw [if_neg largeTable] at accepted ⊢
  have tableFits : sizeofMsmHwFence * tableEntries.toNat < 2 ^ 32 := by
    simp only [u32Max, sizeofMsmHwFence] at largeTable ⊢
    omega
  refine .inr ⟨tableEntries, rfl, noTable, ?_⟩
  rcases queueProp : dt.queueEntries with _ | queueEntries
  · rw [queueProp] at accepted
    exact absurd accepted failed
  rw [queueProp] at accepted
  dsimp only at accepted ⊢
  by_cases noQueue : queueEntries = 0
  · rw [if_pos noQueue]
    refine .inl ⟨congrArg some noQueue, _, ?_, rfl⟩
    intro zero
    have bytes := congrArg BitVec.toNat zero
    rw [toNat_ofNat, Nat.mod_eq_of_lt tableFits] at bytes
    refine noTable (eq_of_toNat_eq ?_)
    simpa [sizeofMsmHwFence] using bytes
  rw [if_neg noQueue] at accepted ⊢
  by_cases largeQueue : u32Max / hwFenceCtrlQueuePayload ≤ queueEntries.toNat
  · rw [if_pos largeQueue] at accepted
    exact absurd accepted failed
  rw [if_neg largeQueue] at accepted ⊢
  by_cases largeCtrl : (u32Max - header.ctrlHeadersSize) / hwFenceCtrlQueues
      ≤ hwFenceCtrlQueuePayload * queueEntries.toNat
  · rw [if_pos largeCtrl] at accepted
    exact absurd accepted failed
  rw [if_neg largeCtrl] at accepted ⊢
  have ctrlFits : ctrlQueuesSize header queueEntries < 2 ^ 32 := by
    simp only [u32Max, hwFenceCtrlQueues, ctrlQueuesSize] at largeCtrl ⊢
    omega
  generalize placedAt : parseClientQueueDtProps header alloc dt.types _ = placed at accepted ⊢
  rcases placed with _ | parsed
  · exact absurd accepted failed
  dsimp only at accepted ⊢
  by_cases noClients : allocClients = false
  · rw [if_pos noClients] at accepted
    exact absurd accepted (by decide : enomem ≠ 0)
  rw [if_neg noClients]
  obtain ⟨descs, parsedTypes, laidOut⟩ := parseClientQueueDtProps_laidOut rfl
    ((toNat_ofNat _ _).trans (Nat.mod_eq_of_lt ctrlFits))
    ((toNat_ofNat _ _).trans (Nat.mod_eq_of_lt tableFits)) placedAt
  exact .inr ⟨queueEntries, descs, rfl, noQueue, parsedTypes, laidOut⟩

/-! ## Sizes that fit -/

section Fits

variable {header : MsmHwFenceHeader} {tableEntries queueEntries : U32}
  {descs : List ClientTypeDesc} {drvData : DriverData}

theorem le_pageAlign (size : Nat) : size ≤ pageAlign size := by
  simp only [pageAlign, pageSize]
  omega

theorem pageAlign_lt (size : Nat) : pageAlign size < size + pageSize := by
  simp only [pageAlign, pageSize]
  omega

/-- The clients' queues start behind the other regions. -/
theorem fixed_le_pageAlign (header : MsmHwFenceHeader) (tableEntries queueEntries : U32)
    (descs : List ClientTypeDesc) :
    ctrlQueuesSize header queueEntries + hwFenceMemLocksSize (rxqClientsNum header descs)
        + sizeofMsmHwFence * tableEntries.toNat
      ≤ pageAlign (fixedSize header tableEntries queueEntries descs) :=
  le_pageAlign _

/-- Where the sum of the sizes fits in 32 bits, the clients' queues are apart behind the other
regions, and the events start behind them. -/
theorem LaidOut.placed_clients (laidOut : LaidOut header tableEntries queueEntries descs drvData)
    (fits : requiredSize header tableEntries queueEntries descs < 2 ^ 32) :
    Placed (pageAlign (fixedSize header tableEntries queueEntries descs))
        drvData.usedMemSize.toNat drvData.clientQueueSize
      ∧ drvData.usedMemSize.toNat = requiredSize header tableEntries queueEntries descs := by
  obtain ⟨priv, placed⟩ := laidOut.placed
  obtain ⟨queues, used⟩ := Prod.mk.inj placed
  rw [requiredSize] at fits ⊢
  have start : (BitVec.ofNat 32
      (pageAlign (fixedSize header tableEntries queueEntries descs))).toNat
      = pageAlign (fixedSize header tableEntries queueEntries descs) := by
    rw [toNat_ofNat, Nat.mod_eq_of_lt (by omega)]
  have usedEq : drvData.usedMemSize.toNat
      = pageAlign (fixedSize header tableEntries queueEntries descs) + clientsSize descs := by
    rw [used, placeClients_usedMemSize, start, queuesSize_clientsOf, Nat.mod_eq_of_lt fits]
  have nothing : Placed (pageAlign (fixedSize header tableEntries queueEntries descs))
      (BitVec.ofNat 32 (pageAlign (fixedSize header tableEntries queueEntries descs))).toNat
      fun _ => none := by
    constructor
    · intro id desc found
      cases found
    · intro id id' desc desc' _ found
      cases found
  have all := @placeClients_placed priv (clientsOf header descs) _ _ _ nothing
    (Nat.le_of_eq start.symm) (by rw [start, queuesSize_clientsOf]; exact fits)
  rw [start, queuesSize_clientsOf, ← queues, ← usedEq] at all
  exact ⟨all, usedEq⟩

variable {region : Region}

theorem reserveMem_ok {type : MemReserve} (reserved : reserveMem drvData type = .ok region) :
    requested drvData type = .ok region
      ∧ (region.startOffset + region.size).toNat ≤ drvData.size := by
  rw [reserveMem] at reserved
  rcases asked : requested drvData type with ret | found
  · rw [asked] at reserved
    exact absurd reserved (by simp)
  rw [asked] at reserved
  dsimp only at reserved
  by_cases exceeds : drvData.size < (found.startOffset + found.size).toNat
  · rw [if_pos exceeds] at reserved
    exact absurd reserved (by simp)
  · rw [if_neg exceeds, Except.ok.injEq] at reserved
    rw [← reserved]
    exact ⟨rfl, Nat.le_of_not_lt exceeds⟩

/-- The events are behind the used memory and inside the memory. -/
theorem requested_eventsBuff (asked : requested drvData .eventsBuff = .ok region) :
    region.startOffset = drvData.usedMemSize
      ∧ region.startOffset.toNat + region.size.toNat ≤ drvData.size := by
  rw [requested] at asked
  by_cases noSpace : drvData.size ≤ drvData.usedMemSize.toNat
      ∨ (BitVec.ofNat 32 (drvData.size - drvData.usedMemSize.toNat)).toNat < sizeofMsmHwFenceEvent
  · rw [if_pos noSpace] at asked
    exact absurd asked (by simp)
  · rw [if_neg noSpace, Except.ok.injEq] at asked
    rw [← asked]
    refine ⟨rfl, ?_⟩
    rw [toNat_ofNat, toNat_ofNat]
    simp only [sizeofMsmHwFenceEvent]
    omega

theorem requested_clientQueue {clientId : Nat}
    (asked : requested drvData (.clientQueue clientId) = .ok region) :
    ∃ desc, drvData.clientQueueSize clientId = some desc
      ∧ region = ⟨desc.startOffset, desc.type.memSize⟩ := by
  rw [requested] at asked
  by_cases known : clientId < drvData.clientsNum.toNat
  · rw [if_pos known] at asked
    rcases found : drvData.clientQueueSize clientId with _ | desc
    · rw [found] at asked
      exact absurd asked (by simp)
    · rw [found] at asked
      exact ⟨desc, rfl, (Except.ok.inj asked).symm⟩
  · rw [if_neg known] at asked
    exact absurd asked (by simp)

/-- The position of a kind of region in the memory. -/
def MemReserve.rank : MemReserve → Nat
  | .ctrlQueue => 0
  | .locksRegion => 1
  | .table => 2
  | .clientQueue _ => 3
  | .eventsBuff => 4

theorem MemReserve.rank_le (type : MemReserve) : type.rank + 1 ≤ 5 := by
  cases type <;> simp [rank]

/-- Only the queues of clients share a position. -/
theorem MemReserve.eq_or_clients {type type' : MemReserve} (same : type.rank = type'.rank) :
    type = type' ∨ ∃ id id', type = .clientQueue id ∧ type' = .clientQueue id' := by
  cases type <;> cases type' <;> simp [rank] at same ⊢

/-- The offsets between which the regions of each position lie. -/
def boundary (header : MsmHwFenceHeader) (tableEntries queueEntries : U32)
    (descs : List ClientTypeDesc) (drvData : DriverData) : Nat → Nat
  | 0 => 0
  | 1 => ctrlQueuesSize header queueEntries
  | 2 => ctrlQueuesSize header queueEntries + hwFenceMemLocksSize (rxqClientsNum header descs)
  | 3 => pageAlign (fixedSize header tableEntries queueEntries descs)
  | 4 => drvData.usedMemSize.toNat
  | _ => drvData.size

section

variable (laidOut : LaidOut header tableEntries queueEntries descs drvData)

include laidOut

section

variable (fits : requiredSize header tableEntries queueEntries descs < 2 ^ 32)

include fits

theorem LaidOut.boundary_mono (enough : drvData.usedMemSize.toNat ≤ drvData.size) :
    Monotone (boundary header tableEntries queueEntries descs drvData) := by
  have used := (laidOut.placed_clients fits).2
  have fixed := fixed_le_pageAlign header tableEntries queueEntries descs
  rw [requiredSize] at used
  refine monotone_nat_of_le_succ fun position => ?_
  match position with
  | 0 => exact Nat.zero_le _
  | 1 => exact Nat.le_add_right _ _
  | 2 => simp only [boundary]; omega
  | 3 => simp only [boundary]; omega
  | 4 => exact enough
  | _ + 5 => exact Nat.le_refl _

/-- A region lies at the position of its kind. -/
theorem LaidOut.between {type : MemReserve} (asked : requested drvData type = .ok region) :
    boundary header tableEntries queueEntries descs drvData type.rank ≤ region.startOffset.toNat
      ∧ region.startOffset.toNat + region.size.toNat
        ≤ boundary header tableEntries queueEntries descs drvData (type.rank + 1) := by
  have fixed := fixed_le_pageAlign header tableEntries queueEntries descs
  have ctrl := laidOut.memCtrlQueuesSize
  have table := laidOut.memFencesTableSize
  cases type with
  | ctrlQueue =>
    cases asked
    exact ⟨Nat.zero_le _, (Nat.zero_add _).trans_le (Nat.le_of_eq ctrl)⟩
  | locksRegion =>
    cases asked
    simp only [boundary, MemReserve.rank, toNat_ofNat, laidOut.rxq]
    omega
  | table =>
    cases asked
    rw [requiredSize] at fits
    simp only [boundary, MemReserve.rank, toNat_ofNat, laidOut.rxq]
    omega
  | clientQueue clientId =>
    obtain ⟨desc, found, rfl⟩ := requested_clientQueue asked
    exact (laidOut.placed_clients fits).1.between clientId desc found
  | eventsBuff =>
    obtain ⟨start, inside⟩ := requested_eventsBuff asked
    exact ⟨Nat.le_of_eq (congrArg BitVec.toNat start.symm), inside⟩

/-- Regions of different kinds, or of different clients, are apart and inside the memory. -/
theorem LaidOut.sound (enough : drvData.usedMemSize.toNat ≤ drvData.size) : Sound drvData := by
  have mono := laidOut.boundary_mono fits enough
  constructor
  · intro type region reserved
    have between := laidOut.between fits (reserveMem_ok reserved).1
    exact Nat.le_trans between.2 (mono type.rank_le)
  · intro type type' region region' different reserved reserved' byte inRegion inRegion'
    have asked := (reserveMem_ok reserved).1
    have asked' := (reserveMem_ok reserved').1
    have between := laidOut.between fits asked
    have between' := laidOut.between fits asked'
    obtain ⟨low, high⟩ := inRegion
    obtain ⟨low', high'⟩ := inRegion'
    rcases Nat.lt_trichotomy type.rank type'.rank with before | same | behind
    · have ordered : boundary header tableEntries queueEntries descs drvData (type.rank + 1)
          ≤ boundary header tableEntries queueEntries descs drvData type'.rank := mono before
      omega
    · rcases MemReserve.eq_or_clients same with equal | ⟨clientId, clientId', rfl, rfl⟩
      · exact different equal
      obtain ⟨desc, found, rfl⟩ := requested_clientQueue asked
      obtain ⟨desc', found', rfl⟩ := requested_clientQueue asked'
      have otherId : clientId ≠ clientId' := fun equal => different (congrArg _ equal)
      have apart := (laidOut.placed_clients fits).1.apart _ _ _ _ otherId found found'
      dsimp only at high high' low low'
      omega
    · have ordered : boundary header tableEntries queueEntries descs drvData (type'.rank + 1)
          ≤ boundary header tableEntries queueEntries descs drvData type.rank := mono behind
      omega

end

end

end Fits

/-! ## Sizes that do not fit -/

section Wraps

variable {header : MsmHwFenceHeader} {tableEntries queueEntries : U32}
  {descs : List ClientTypeDesc} {drvData : DriverData}

/-- A memory of 4 GiB less one byte passes every check of a reservation. -/
theorem reserveMem_of_requested (largest : drvData.size = u32Max) {type : MemReserve}
    {region : Region} (asked : requested drvData type = .ok region) :
    reserveMem drvData type = .ok region := by
  rw [reserveMem, asked]
  exact if_neg (by rw [largest, u32Max]; omega)

/-- Such a memory has room for events behind every used memory of some bytes less. -/
theorem requested_events (largest : drvData.size = u32Max)
    (room : drvData.usedMemSize.toNat + sizeofMsmHwFenceEvent ≤ u32Max) :
    ∃ region, requested drvData .eventsBuff = .ok region
      ∧ region.Contains drvData.usedMemSize.toNat := by
  have remaining : (BitVec.ofNat 32 (drvData.size - drvData.usedMemSize.toNat) : U32).toNat
      = u32Max - drvData.usedMemSize.toNat := by
    rw [toNat_ofNat, largest, Nat.mod_eq_of_lt (by rw [u32Max]; omega)]
  rw [sizeofMsmHwFenceEvent] at room
  rw [requested]
  rw [sizeofMsmHwFenceEvent, if_neg (by omega)]
  refine ⟨_, rfl, Nat.le_refl _, ?_⟩
  dsimp only
  rw [toNat_ofNat, hwFenceMaxEvents]
  omega

theorem allocMem_largest (drvData : DriverData) :
    (allocMem drvData u32Max).1 = 0
      ∧ (allocMem drvData u32Max).2 = { drvData with size := u32Max } := by
  rw [allocMem]
  dsimp only
  rw [if_neg (by rw [u32Max]; omega)]
  exact ⟨rfl, rfl⟩

/-- Where the sum of the sizes does not fit in 32 bits, a region leaves that memory or the
events are where the control queues, the locks or the fence table are. -/
theorem LaidOut.not_layoutSound (laidOut : LaidOut header tableEntries queueEntries descs drvData)
    (exceeds : 2 ^ 32 ≤ requiredSize header tableEntries queueEntries descs) :
    ¬ LayoutSound drvData := by
  intro layoutSound
  obtain ⟨allocated, memory⟩ := allocMem_largest drvData
  have sound := layoutSound u32Max allocated
  rw [memory] at sound
  have ctrl := laidOut.memCtrlQueuesSize
  have table := laidOut.memFencesTableSize
  have few := laidOut.few
  have locks : (BitVec.ofNat 32 (hwFenceMemLocksSize drvData.rxqClientsNum) : U32).toNat
      = hwFenceMemLocksSize (rxqClientsNum header descs) := by
    rw [laidOut.rxq, toNat_ofNat, hwFenceMemLocksSize, Nat.mod_eq_of_lt (by omega)]
  have reserved {type : MemReserve} {region : Region}
      (asked : requested { drvData with size := u32Max } type = .ok region) :
      reserveMem { drvData with size := u32Max } type = .ok region :=
    reserveMem_of_requested rfl asked
  have locksInside := sound.inside .locksRegion _ (reserved rfl)
  dsimp only at locksInside
  have tableStart : (BitVec.ofNat 32 (drvData.memCtrlQueuesSize.toNat
      + hwFenceMemLocksSize drvData.rxqClientsNum) : U32).toNat
        = ctrlQueuesSize header queueEntries
          + hwFenceMemLocksSize (rxqClientsNum header descs) := by
    rw [toNat_ofNat, laidOut.rxq]
    rw [u32Max] at locksInside
    omega
  have tableInside := sound.inside .table _ (reserved rfl)
  rw [tableStart, table] at tableInside
  -- the three fixed regions fit, so the used memory has wrapped to an offset inside them
  have fixed := pageAlign_lt (fixedSize header tableEntries queueEntries descs)
  have small := laidOut.small
  have usedSmall : drvData.usedMemSize.toNat ≤ 334 * maxClientQueueMemSize
      ∧ drvData.usedMemSize.toNat < fixedSize header tableEntries queueEntries descs := by
    obtain ⟨priv, placed⟩ := laidOut.placed
    rw [(Prod.mk.inj placed).2, placeClients_usedMemSize, queuesSize_clientsOf, toNat_ofNat]
    rw [requiredSize] at exceeds
    have fixedInside : fixedSize header tableEntries queueEntries descs ≤ u32Max := tableInside
    have aligned : pageAlign (fixedSize header tableEntries queueEntries descs) ≤ 2 ^ 32 := by
      simp only [pageAlign, pageSize, u32Max] at fixedInside ⊢
      omega
    simp only [maxClientQueueMemSize, pageSize] at *
    omega
  obtain ⟨events, askedEvents, containsUsed⟩ :=
    @requested_events { drvData with size := u32Max } rfl (by
      simp only [maxClientQueueMemSize, u32Max, sizeofMsmHwFenceEvent] at *
      omega)
  have notInside (type : MemReserve) (notEvents : type ≠ .eventsBuff) {region : Region}
      (asked : requested { drvData with size := u32Max } type = .ok region) :
      ¬ region.Contains drvData.usedMemSize.toNat := by
    intro contains
    exact sound.apart type .eventsBuff region events notEvents (reserved asked)
      (reserved askedEvents) _ contains containsUsed
  have notCtrl := notInside .ctrlQueue (by decide) rfl
  have notLocks := notInside .locksRegion (by decide) rfl
  have notTable := notInside .table (by decide) rfl
  simp only [Region.Contains] at notCtrl
  simp only [Region.Contains] at notLocks
  simp only [Region.Contains] at notTable
  rw [fixedSize] at usedSmall
  have zero : (0 : U32).toNat = 0 := rfl
  omega

/-- With a fence table but no control queues, the events are where the table is. -/
theorem not_layoutSound_of_table {tableEntries size : U32} (nonempty : size ≠ 0) :
    ¬ LayoutSound { tableEntries, memFencesTableSize := size } := by
  intro layoutSound
  obtain ⟨allocated, memory⟩ :=
    allocMem_largest { tableEntries, memFencesTableSize := size }
  have sound := layoutSound u32Max allocated
  obtain ⟨events, askedEvents, containsUsed⟩ :=
    @requested_events { tableEntries, memFencesTableSize := size, size := u32Max } rfl
      (by decide : 0 + sizeofMsmHwFenceEvent ≤ u32Max)
  refine sound.apart .table .eventsBuff _ events (by decide)
    (reserveMem_of_requested rfl rfl) (reserveMem_of_requested rfl askedEvents) 0 ?_ containsUsed
  refine ⟨Nat.le_refl _, ?_⟩
  have positive : 0 < size.toNat := Nat.pos_of_ne_zero fun zero =>
    nonempty (eq_of_toNat_eq zero)
  exact Nat.lt_of_lt_of_eq positive (Nat.zero_add _).symm

/-- Without a fence table there are only events. -/
theorem layoutSound_empty : LayoutSound {} := by
  intro resourceSize allocated
  have empty {type : MemReserve} {region : Region} (notEvents : type ≠ .eventsBuff)
      (asked : requested { size := resourceSize } type = .ok region) : region = ⟨0, 0⟩ := by
    cases type with
    | ctrlQueue | locksRegion | table => exact (Except.ok.inj asked).symm
    | clientQueue clientId =>
      obtain ⟨desc, found, -⟩ := requested_clientQueue asked
      cases found
    | eventsBuff => exact absurd rfl notEvents
  have nowhere (byte : Nat) : ¬ Region.Contains ⟨0, 0⟩ byte := fun contains =>
    Nat.not_lt_zero _ (Nat.lt_of_lt_of_eq contains.2 (Nat.zero_add _))
  constructor
  · intro type region reserved
    have asked := (reserveMem_ok reserved).1
    by_cases isEvents : type = .eventsBuff
    · subst isEvents
      exact (requested_eventsBuff asked).2
    · rw [empty isEvents asked]
      exact Nat.zero_le _
  · intro type type' region region' different reserved reserved' byte contains contains'
    have asked := (reserveMem_ok reserved).1
    have asked' := (reserveMem_ok reserved').1
    by_cases isEvents : type = .eventsBuff
    · have notEvents : type' ≠ .eventsBuff := fun same => different (isEvents.trans same.symm)
      rw [empty notEvents asked'] at contains'
      exact nowhere byte contains'
    · rw [empty isEvents asked] at contains
      exact nowhere byte contains

end Wraps

/-! ## Accepted device trees, exactly -/

/-- There is no fence table, or there are control queues and all regions but the events fit in
32 bits. -/
def LayoutFits (header : MsmHwFenceHeader) (dt : DeviceTree) : Prop :=
  dt.tableEntries = some 0
    ∨ ∃ tableEntries queueEntries descs, dt.tableEntries = some tableEntries
      ∧ dt.queueEntries = some queueEntries ∧ queueEntries ≠ 0
      ∧ parseTypes header queueEntries dt.types hwFenceClientTypes 0 = some descs
      ∧ requiredSize header tableEntries queueEntries descs < 2 ^ 32

/-- The regions of an accepted device tree are apart and inside every memory exactly if there
is no fence table, or there are control queues and the sum of the sizes fits in 32 bits. -/
theorem layoutSound_iff {header : MsmHwFenceHeader} {alloc allocClients : Bool} {dt : DeviceTree}
    (accepted : (parseDtProps header alloc allocClients dt).1 = 0) :
    LayoutSound (parseDtProps header alloc allocClients dt).2 ↔ LayoutFits header dt := by
  rcases parseDtProps_accepted accepted with ⟨noTable, data⟩
    | ⟨tableEntries, tableProp, nonempty, ⟨noQueue, size, positive, data⟩
      | ⟨queueEntries, descs, queueProp, queues, parsed, laidOut⟩⟩
  · rw [data]
    exact iff_of_true layoutSound_empty (.inl noTable)
  · rw [data]
    refine iff_of_false (not_layoutSound_of_table positive) ?_
    rintro (noTable | ⟨_, queueEntries, _, _, queueProp, queues, _⟩)
    · rw [tableProp] at noTable
      exact nonempty (some.inj noTable)
    · rw [noQueue] at queueProp
      exact queues (some.inj queueProp).symm
  · by_cases fits : requiredSize header tableEntries queueEntries descs < 2 ^ 32
    · refine iff_of_true (fun resourceSize allocated => ?_)
        (.inr ⟨_, _, _, tableProp, queueProp, queues, parsed, fits⟩)
      rw [allocMem] at allocated ⊢
      by_cases lacks : resourceSize
          < (parseDtProps header alloc allocClients dt).2.usedMemSize.toNat
      · rw [if_pos lacks] at allocated
        exact absurd allocated (by decide : enomem ≠ 0)
      · rw [if_neg lacks]
        have resized : LaidOut header tableEntries queueEntries descs
            { (parseDtProps header alloc allocClients dt).2 with size := resourceSize } :=
          ⟨laidOut.memCtrlQueuesSize, laidOut.memFencesTableSize, laidOut.rxq, laidOut.few,
            laidOut.small, laidOut.placed⟩
        exact resized.sound fits (Nat.le_of_not_lt lacks)
    · refine iff_of_false (laidOut.not_layoutSound (Nat.le_of_not_lt fits)) ?_
      rintro (noTable | ⟨_, _, _, tableProp', queueProp', _, parsed', fits'⟩)
      · rw [tableProp] at noTable
        exact nonempty (some.inj noTable)
      · rw [tableProp, some.injEq] at tableProp'
        rw [queueProp, some.injEq] at queueProp'
        rw [← queueProp', parsed, some.injEq] at parsed'
        rw [← tableProp', ← queueProp', ← parsed'] at fits'
        exact fits fits'

/-- A shared header with ids of 32 clients for each configurable type. -/
def sampleHeader : MsmHwFenceHeader where
  tableHeaderSize := 24
  queueHeaderSize := 64
  headers_le := by decide
  initId := fun i => [1, 2, 8].getD i (15 + 32 * (i - 3))
  clientIdVal6 := 14
  val6_lt := by decide
  clientMax := 335
  maxSignalPerClient := 32

/-- A device tree without properties of the client types. -/
def sampleDeviceTree (tableEntries : U32) : DeviceTree :=
  ⟨some tableEntries, some 128, fun _ => ⟨none, none⟩⟩

theorem layoutSound_iff_sample :
    LayoutSound (parseDtProps sampleHeader true true (sampleDeviceTree 8192)).2 :=
  (@layoutSound_iff sampleHeader true true (sampleDeviceTree 8192) (by decide)).mpr
    (.inr ⟨_, _, _, rfl, rfl, by decide, rfl, by decide⟩)

/-- With the most fences that the table can have, its end wraps around, and the region handed
out in a memory of 1 MiB is of nearly 4 GiB. -/
theorem reserveMem_table_wraps :
    let drvData := (parseDtProps sampleHeader true true (sampleDeviceTree 26843544)).2
    (parseDtProps sampleHeader true true (sampleDeviceTree 26843544)).1 = 0
      ∧ (allocMem drvData 0x100000).1 = 0
      ∧ reserveMem (allocMem drvData 0x100000).2 .table = .ok ⟨6408, 4294967040⟩
      ∧ ¬ LayoutSound drvData := by
  intro drvData
  have reserved : reserveMem (allocMem drvData 0x100000).2 .table = .ok ⟨6408, 4294967040⟩ := by
    decide +kernel
  have allocated : (allocMem drvData 0x100000).1 = 0 := by decide
  refine ⟨by decide, allocated, reserved, fun layoutSound => ?_⟩
  have inside := (layoutSound 0x100000 allocated).inside .table _ reserved
  exact absurd inside (by decide)

end Sm8650.HwFence
