import Sm8650.Data.Serial

/-!
# Management frame reordering: data and list operations

Management frames of several links carry a packet counter of their link and a time
stamp that all links share. The host keeps the frames it cannot deliver yet in an
ingress list, moves the ready ones to an egress list and hands those up one by one.
-/

namespace Sm8650.MgmtReo

open Data

/-- `MAX_MLO_LINKS`. -/
abbrev maxMloLinks : Nat := 6

abbrev Link := Fin maxMloLinks

instance : NeZero maxMloLinks := ⟨by decide⟩

/-- The outcome of a section. `sanityFailed` is an error of a consistency check of the
lists, `asserted` a failed `qdf_assert_always`, `error` every other error code. -/
inductive QdfStatus
  | success
  | error
  | sanityFailed
  | asserted
deriving DecidableEq

/-- A consistency check or an assertion has failed. -/
def QdfStatus.checkFailed : QdfStatus → Bool
  | .sanityFailed => true
  | .asserted => true
  | .success => false
  | .error => false

/-- `struct mgmt_rx_reo_params`. -/
structure ReoParams where
  valid : Bool
  linkId : Link
  mgmtPktCtr : BitVec 16
  globalTimestamp : BitVec 32
  durationUs : BitVec 16
  startTimestamp : BitVec 32
  endTimestamp : BitVec 32
deriving DecidableEq

/-- `struct mgmt_rx_reo_snapshot_params`. -/
structure Snapshot where
  valid : Bool
  mgmtPktCtr : BitVec 16
  globalTimestamp : BitVec 32
deriving DecidableEq

/-- `struct mgmt_rx_reo_wait_count`. -/
structure WaitCount where
  perLinkCount : Link → BitVec 32
  totalCount : BitVec 64
deriving DecidableEq

/-- The status bits of a list entry. -/
structure EntryStatus where
  waitForFrameOnOtherLinks : Bool
  agedOut : Bool
  olderThanLatestAgedOutFrame : Bool
  ingressListOverflow : Bool
  olderThanReadyToDeliverFrames : Bool
  egressListOverflow : Bool
deriving DecidableEq

/-- `struct mgmt_rx_reo_list_entry`. -/
structure ListEntry where
  rxParams : ReoParams
  waitCount : WaitCount
  ingressListInsertionTs : BitVec 64
  status : EntryStatus
  isParallelRx : Bool
deriving DecidableEq

/-- `mgmt_rx_reo_get_global_ts` of an entry. -/
def ListEntry.globalTs (entry : ListEntry) : BitVec 32 :=
  entry.rxParams.globalTimestamp

inductive DescriptorType
  | hostConsumedFrame
  | fwConsumedFrame
  | errorFrame
deriving DecidableEq

inductive ListType
  | ingress
  | egress
  | invalid
deriving DecidableEq

inductive DropReason
  | invalid
  | invalidReoParams
  | outOfOrderPktCtr
  | duplicatePktCtr
  | snapshotSanityFailure
deriving DecidableEq

/-- `struct mgmt_rx_reo_frame_descriptor`; `frameTypeMgt` says that `frame_type` is
`IEEE80211_FC0_TYPE_MGT`. -/
structure FrameDescriptor where
  type : DescriptorType
  frameTypeMgt : Bool
  rxParams : ReoParams
  waitCount : WaitCount
  isStale : Bool
  isParallelRx : Bool
  queuedList : ListType
  pktCtrDelta : Int
  reoRequired : Bool
  drop : Bool
  dropReason : DropReason

/-- The settings of a reorder context: the build option
`WLAN_MGMT_RX_REO_ERROR_HANDLING`, the packet counter threshold and the list limits. -/
structure Config where
  errorHandling : Bool
  pktCtrDeltaThresh : Nat
  ingressMaxListSize : Nat
  egressMaxListSize : Nat
  listEntryTimeoutUs : Nat

/-- `struct mgmt_rx_reo_context` and the host snapshots of its links. -/
structure ReoContext where
  hostSnapshot : Link → Snapshot
  ingressList : List ListEntry
  egressList : List ListEntry
  lastReleasedFrame : Option ReoParams

/-- `mgmt_rx_reo_compare_pkt_ctrs_gte`. -/
def comparePktCtrsGte (ctr1 ctr2 : BitVec 16) : Bool :=
  Serial.gte ctr1 ctr2

/-- `mgmt_rx_reo_subtract_pkt_ctrs`. -/
def subtractPktCtrs (ctr1 ctr2 : BitVec 16) : Int :=
  if (ctr1 - ctr2).toNat > Serial.half 16 then
    ((ctr1 - ctr2).toNat : Int) - 2 * Serial.half 16
  else
    (ctr1 - ctr2).toNat

/-- `mgmt_rx_reo_compare_global_timestamps_gte`. -/
def compareGlobalTimestampsGte (ts1 ts2 : BitVec 32) : Bool :=
  Serial.gte ts1 ts2

/-- `qdf_list_size`, a 32-bit count. -/
def listSize (list : List ListEntry) : Nat :=
  list.length % 2 ^ 32

/-! ## Wait counts -/

/-- Set the count of one link and take the difference off the total. -/
def WaitCount.lower (waitCount : WaitCount) (link : Link) (count : BitVec 32) : WaitCount :=
  { perLinkCount := Function.update waitCount.perLinkCount link count
    totalCount := waitCount.totalCount - (waitCount.perLinkCount link - count).setWidth 64 }

/-- `mgmt_rx_reo_update_wait_count`. -/
@[irreducible]
def updateWaitCount (oldFrame newFrame : WaitCount) : WaitCount :=
  (List.finRange maxMloLinks).foldl
    (fun waitCount link =>
      if waitCount.perLinkCount link ≠ 0 then
        waitCount.lower link
          (if waitCount.perLinkCount link ≤ newFrame.perLinkCount link then
            waitCount.perLinkCount link
          else
            newFrame.perLinkCount link)
      else
        waitCount)
    oldFrame

/-- Replace the wait count of an entry; a total of zero ends its waiting. -/
def ListEntry.withWaitCount (entry : ListEntry) (waitCount : WaitCount) : ListEntry :=
  { entry with
    waitCount := waitCount
    status := { entry.status with
      waitForFrameOnOtherLinks :=
        entry.status.waitForFrameOnOtherLinks && waitCount.totalCount != 0 } }

variable (entry : ListEntry)

@[simp]
theorem ListEntry.rxParams_withWaitCount (waitCount : WaitCount) :
    (entry.withWaitCount waitCount).rxParams = entry.rxParams :=
  rfl

/-- The last loop of `mgmt_rx_reo_update_ingress_list`: a frame of a link has arrived,
so a later frame waits for `delta` fewer frames of this link. -/
def ListEntry.reduceWaitCount (entry : ListEntry) (link : Link) (delta : BitVec 16) :
    ListEntry :=
  if entry.waitCount.perLinkCount link ≠ 0 then
    entry.withWaitCount
      (entry.waitCount.lower link
        (if delta.setWidth 32 ≤ entry.waitCount.perLinkCount link then
          entry.waitCount.perLinkCount link - delta.setWidth 32
        else
          0))
  else
    entry

@[simp]
theorem ListEntry.rxParams_reduceWaitCount (link : Link)
    (delta : BitVec 16) : (entry.reduceWaitCount link delta).rxParams = entry.rxParams := by
  unfold reduceWaitCount
  split <;> rfl

/-! ## Entries -/

/-- `mgmt_rx_reo_is_entry_ready_to_send_up`. -/
def isEntryReadyToSendUp (entry : ListEntry) : Bool :=
  entry.status.ingressListOverflow || entry.status.egressListOverflow ||
    !entry.status.waitForFrameOnOtherLinks || entry.status.agedOut ||
    entry.status.olderThanLatestAgedOutFrame || entry.status.olderThanReadyToDeliverFrames

/-- `mgmt_rx_reo_list_entry_get_release_reason` is not zero. -/
def hasReleaseReason (entry : ListEntry) : Bool :=
  !entry.status.waitForFrameOnOtherLinks || entry.status.agedOut ||
    entry.status.olderThanLatestAgedOutFrame || entry.status.ingressListOverflow ||
    entry.status.olderThanReadyToDeliverFrames || entry.status.egressListOverflow

theorem hasReleaseReason_of_ready {entry : ListEntry}
    (ready : isEntryReadyToSendUp entry = true) : hasReleaseReason entry = true := by
  simp only [isEntryReadyToSendUp, hasReleaseReason, Bool.or_eq_true] at ready ⊢
  tauto

/-- `mgmt_rx_reo_prepare_list_entry`. -/
def prepareListEntry (desc : FrameDescriptor) : ListEntry :=
  { rxParams := desc.rxParams
    waitCount := desc.waitCount
    ingressListInsertionTs := 0
    status :=
      { waitForFrameOnOtherLinks := desc.waitCount.totalCount != 0
        agedOut := false
        olderThanLatestAgedOutFrame := false
        ingressListOverflow := false
        olderThanReadyToDeliverFrames := false
        egressListOverflow := false }
    isParallelRx := false }

def ListEntry.markEgressListOverflow (entry : ListEntry) : ListEntry :=
  { entry with status := { entry.status with egressListOverflow := true } }

def ListEntry.markIngressListOverflow (entry : ListEntry) : ListEntry :=
  { entry with status := { entry.status with ingressListOverflow := true } }

/-- `mgmt_rx_reo_handle_egress_overflow`, called where the list has overflowed: the
oldest entries above the limit are to be released whatever they wait for. -/
def handleEgressOverflow (maxListSize : Nat) (list : List ListEntry) : List ListEntry :=
  if listSize list > maxListSize then
    (list.take (listSize list - maxListSize)).map ListEntry.markEgressListOverflow
      ++ list.drop (listSize list - maxListSize)
  else
    list

/-- `mgmt_rx_reo_check_sanity_list`. -/
def checkSanityList : List ListEntry → Bool
  | first :: next :: rest =>
    compareGlobalTimestampsGte next.globalTs first.globalTs && checkSanityList (next :: rest)
  | _ => true

/-- `mgmt_rx_reo_check_sanity_lists`. -/
def checkSanityLists (egressList ingressList : List ListEntry) : Bool :=
  checkSanityList egressList && checkSanityList ingressList &&
    (match egressList.getLast?, ingressList.head? with
    | some lastEntry, some firstEntry =>
      compareGlobalTimestampsGte firstEntry.globalTs lastEntry.globalTs
    | _, _ => true)

/-! ## Arrival of a frame -/

/-- `mgmt_rx_reo_is_stale_frame`. -/
def isStaleFrame (lastDelivered : Option ReoParams) (desc : FrameDescriptor) :
    FrameDescriptor :=
  match lastDelivered with
  | some last =>
    if desc.reoRequired then
      if compareGlobalTimestampsGte last.startTimestamp desc.rxParams.startTimestamp &&
          compareGlobalTimestampsGte desc.rxParams.endTimestamp last.endTimestamp then
        { desc with isStale := false, isParallelRx := true }
      else
        { desc with
          isStale :=
            !compareGlobalTimestampsGte desc.rxParams.startTimestamp last.startTimestamp
          isParallelRx := false }
    else
      { desc with isStale := false, isParallelRx := false }
  | none => { desc with isStale := false, isParallelRx := false }

/-- The entry is not newer than the time stamp. -/
def notAfter (ts : BitVec 32) (entry : ListEntry) : Bool :=
  compareGlobalTimestampsGte ts entry.globalTs

/-- What a list update leaves: the list, the descriptor, the entry prepared for the
frame and whether it is in the list now. -/
structure ListUpdate where
  status : QdfStatus
  list : List ListEntry
  desc : FrameDescriptor
  new : Option ListEntry
  isQueued : Bool

/-- The entry that `mgmt_rx_reo_update_egress_list` inserts before `leastGreater`. -/
def egressEntry (entry : ListEntry) (desc : FrameDescriptor) (leastGreater : ListEntry) :
    ListEntry :=
  let updated := entry.withWaitCount (updateWaitCount entry.waitCount leastGreater.waitCount)
  { updated with
    isParallelRx := desc.isParallelRx
    status := { updated.status with olderThanReadyToDeliverFrames := true } }

@[simp]
theorem rxParams_egressEntry (desc : FrameDescriptor) (leastGreater : ListEntry) :
    (egressEntry entry desc leastGreater).rxParams = entry.rxParams := by
  simp only [egressEntry, ListEntry.rxParams_withWaitCount]

/-- The second half of `mgmt_rx_reo_update_egress_list`, for a frame that is older than
the last entry: insert it before the least entry that is newer. -/
def insertIntoEgressList (config : Config) (egressList : List ListEntry)
    (desc : FrameDescriptor) (entry : ListEntry) : ListUpdate :=
  let tsNew := desc.rxParams.globalTimestamp
  match egressList.dropWhile (notAfter tsNew) with
  | [] => ⟨.sanityFailed, egressList, desc, some entry, false⟩
  | leastGreater :: rest =>
    let entry := egressEntry entry desc leastGreater
    ⟨.success,
      handleEgressOverflow config.egressMaxListSize
        (egressList.takeWhile (notAfter tsNew) ++ entry :: leastGreater :: rest),
      { desc with waitCount := entry.waitCount, queuedList := .egress },
      some entry, true⟩

/-- `mgmt_rx_reo_update_egress_list`. -/
def updateEgressList (config : Config) (egressList : List ListEntry)
    (lastReleasedFrame : Option ReoParams) (desc : FrameDescriptor)
    (new : Option ListEntry) : ListUpdate :=
  let desc := isStaleFrame lastReleasedFrame desc
  let tsNew := desc.rxParams.globalTimestamp
  if desc.isStale then
    if (egressList.takeWhile (notAfter tsNew)).all (·.isParallelRx) then
      ⟨.success, egressList, desc, new, false⟩
    else
      ⟨.asserted, egressList, desc, new, false⟩
  else
    match new, egressList.getLast? with
    | some entry, some last =>
      if compareGlobalTimestampsGte tsNew last.globalTs then
        ⟨.success, egressList, desc, new, false⟩
      else
        insertIntoEgressList config egressList desc entry
    | _, _ => ⟨.success, egressList, desc, new, false⟩

/-- The entry that `mgmt_rx_reo_update_ingress_list` inserts before the entries
`later`. -/
def ingressEntry (entry : ListEntry) (desc : FrameDescriptor) (insertionTs : BitVec 64)
    (later : List ListEntry) : ListEntry :=
  let updated :=
    match later with
    | [] => entry
    | leastGreater :: _ =>
      entry.withWaitCount (updateWaitCount entry.waitCount leastGreater.waitCount)
  { updated with ingressListInsertionTs := insertionTs, isParallelRx := desc.isParallelRx }

@[simp]
theorem rxParams_ingressEntry (desc : FrameDescriptor)
    (insertionTs : BitVec 64) (later : List ListEntry) :
    (ingressEntry entry desc insertionTs later).rxParams = entry.rxParams := by
  cases later with
  | nil => rfl
  | cons => simp only [ingressEntry, ListEntry.rxParams_withWaitCount]

/-- `mgmt_rx_reo_update_ingress_list`. -/
def updateIngressList (ingressList : List ListEntry) (desc : FrameDescriptor)
    (new : Option ListEntry) (insertionTs : BitVec 64) : ListUpdate :=
  let tsNew := desc.rxParams.globalTimestamp
  let earlier := ingressList.takeWhile (notAfter tsNew)
  let later := ingressList.dropWhile (notAfter tsNew)
  if earlier.all (fun cur => !desc.isStale || cur.isParallelRx) then
    let earlier := earlier.map fun cur =>
      cur.withWaitCount (updateWaitCount cur.waitCount desc.waitCount)
    let reduced := later.map fun cur =>
      cur.reduceWaitCount desc.rxParams.linkId (BitVec.ofInt 16 desc.pktCtrDelta)
    match new with
    | some entry =>
      if !desc.isStale && desc.queuedList != .egress then
        let entry := ingressEntry entry desc insertionTs later
        ⟨.success, earlier ++ entry :: reduced,
          { desc with waitCount := entry.waitCount, queuedList := .ingress },
          some entry, true⟩
      else
        ⟨.success, earlier ++ reduced, desc, new, false⟩
    | none => ⟨.success, earlier ++ reduced, desc, none, false⟩
  else
    ⟨.asserted, ingressList, desc, new, false⟩

/-! ## Moving, aging and releasing -/

/-- Mark an entry while entries above the limit remain to be marked. -/
def ListEntry.markWhile (entry : ListEntry) (numOverflowFrames : Nat) : ListEntry :=
  if numOverflowFrames > 0 then entry.markIngressListOverflow else entry

@[simp]
theorem ListEntry.rxParams_markWhile (numOverflowFrames : Nat) :
    (entry.markWhile numOverflowFrames).rxParams = entry.rxParams := by
  unfold markWhile
  split <;> rfl

/-- The loop of `mgmt_rx_reo_move_entries_ingress_to_egress_list`: mark the entries
above the limit and take entries as long as they are ready. -/
def collectReady : Nat → List ListEntry → List ListEntry × List ListEntry
  | _, [] => ([], [])
  | numOverflowFrames, entry :: rest =>
    if isEntryReadyToSendUp (entry.markWhile numOverflowFrames) then
      (entry.markWhile numOverflowFrames :: (collectReady (numOverflowFrames - 1) rest).1,
        (collectReady (numOverflowFrames - 1) rest).2)
    else
      ([], entry.markWhile numOverflowFrames :: rest)

/-- The entries that a move finds ready, and the rest of the ingress list. -/
def readyEntries (config : Config) (ctx : ReoContext) : List ListEntry × List ListEntry :=
  collectReady (listSize ctx.ingressList - config.ingressMaxListSize) ctx.ingressList

/-- `num_frames_ready_to_deliver`, a 16-bit count of the ready entries. -/
def numFramesReadyToDeliver (config : Config) (ctx : ReoContext) : Nat :=
  (readyEntries config ctx).1.length % 2 ^ 16

/-- `mgmt_rx_reo_move_entries_ingress_to_egress_list`. Where the 16-bit count differs
from the size of the list split off, the entries of that list are lost. -/
def moveEntriesIngressToEgressList (config : Config) (ctx : ReoContext) : QdfStatus × ReoContext :=
  let ready := (readyEntries config ctx).1
  let rest := (readyEntries config ctx).2
  if numFramesReadyToDeliver config ctx = 0 then
    (.success, { ctx with ingressList := ready ++ rest })
  else if numFramesReadyToDeliver config ctx ≠ listSize ready then
    (.sanityFailed, { ctx with ingressList := rest })
  else
    let egressList := handleEgressOverflow config.egressMaxListSize (ctx.egressList ++ ready)
    (if checkSanityLists egressList rest then .success else .sanityFailed,
      { ctx with ingressList := rest, egressList := egressList })

/-- The two loops of `mgmt_rx_reo_ageout_entries_ingress_list`, with whether an entry
has aged out. -/
def ageoutEntries (config : Config) (curTs : BitVec 64) : List ListEntry → List ListEntry × Bool
  | [] => ([], false)
  | entry :: rest =>
    let aged := decide
      (config.listEntryTimeoutUs ≤ (curTs - entry.ingressListInsertionTs).toNat)
    let later := (ageoutEntries config curTs rest).2
    ({ entry with
        status := { entry.status with
          agedOut := entry.status.agedOut || aged
          olderThanLatestAgedOutFrame :=
            entry.status.olderThanLatestAgedOutFrame || later } }
      :: (ageoutEntries config curTs rest).1,
      aged || later)

/-- `mgmt_rx_reo_ageout_entries_ingress_list`. -/
def ageoutEntriesIngressList (config : Config) (curTs : BitVec 64) (ctx : ReoContext) :
    ReoContext :=
  { ctx with ingressList := (ageoutEntries config curTs ctx.ingressList).1 }

/-- One `list_lock` section of `mgmt_rx_reo_release_egress_list_entries`, with the
scheduler off: the entry taken off the egress list, if any. -/
def releaseEgressListEntry (ctx : ReoContext) : QdfStatus × ReoContext × Option ListEntry :=
  match ctx.egressList with
  | [] => (.success, ctx, none)
  | firstEntry :: rest =>
    if isEntryReadyToSendUp firstEntry then
      match ctx.lastReleasedFrame with
      | none =>
        (.success,
          { ctx with
            egressList := rest, lastReleasedFrame := some firstEntry.rxParams },
          some firstEntry)
      | some last =>
        if compareGlobalTimestampsGte firstEntry.globalTs last.globalTimestamp then
          (.success,
            { ctx with
              egressList := rest, lastReleasedFrame := some firstEntry.rxParams },
            some firstEntry)
        else if firstEntry.isParallelRx then
          (.success, { ctx with egressList := rest }, some firstEntry)
        else
          (.asserted, { ctx with egressList := rest }, some firstEntry)
    else
      (.error, ctx, none)

/-- `mgmt_rx_reo_list_entry_send_up`; the frame is handed up on success. -/
def listEntrySendUp (entry : ListEntry) : QdfStatus :=
  if hasReleaseReason entry then .success else .sanityFailed

end Sm8650.MgmtReo
