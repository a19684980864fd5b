import Sm8650.MgmtReo.Core

/-!
# Management frame reordering: arrival of a frame

A frame or an event of the firmware enters the reorder algorithm under
`reo_algo_entry_lock`: its packet counter is compared with the host snapshot of its link,
its wait counts are computed, and the two lists are updated. The frame handler hands a
frame that needs no reordering to the upper layer itself.
-/

namespace Sm8650.MgmtReo

/-- What `wlan_mgmt_rx_reo_algo_calculate_wait_count` finds in the shared snapshots. -/
inductive WaitCountResult
  | computed (waitCount : WaitCount)
  | snapshotSanityFailure
  | failed

/-- A frame or event at the entry of the algorithm: what the target reports, whether its
pdev has an MLO vdev, the wait counts that the shared snapshots give, whether a list
entry can be prepared, the time of a list insertion, and what the move and the releases
that follow the section return. -/
structure Arrival where
  type : DescriptorType
  frameTypeMgt : Bool
  rxParams : ReoParams
  mloVdev : Bool
  waitCountResult : WaitCountResult
  entryAvailable : Bool
  insertionTs : BitVec 64
  releaseStatus : QdfStatus

/-- The descriptor that `tgt_mgmt_rx_reo_frame_handler`, or
`tgt_mgmt_rx_reo_enter_algo_without_buffer` for an event without a frame, fills in. -/
def Arrival.descriptor (arrival : Arrival) : FrameDescriptor :=
  { type := arrival.type
    frameTypeMgt := arrival.type != .hostConsumedFrame || arrival.frameTypeMgt
    rxParams := arrival.rxParams
    waitCount := { perLinkCount := fun _ => 0, totalCount := 0 }
    isStale := false
    isParallelRx := false
    queuedList := .invalid
    pktCtrDelta := 0
    reoRequired :=
      (arrival.type != .hostConsumedFrame || arrival.frameTypeMgt) && arrival.mloVdev
    drop := false
    dropReason := .invalid }

/-- `check_frame_sanity`: `check_and_handle_invalid_reo_params`, then
`check_and_handle_zero_frame_duration`. -/
def checkFrameSanity (config : Config) (desc : FrameDescriptor) : QdfStatus × FrameDescriptor :=
  if desc.rxParams.valid then
    if desc.type = .hostConsumedFrame ∧ desc.rxParams.durationUs = 0
        ∧ config.errorHandling = false then
      (.error, desc)
    else
      (.success, desc)
  else
    (.error, { desc with drop := true, dropReason := .invalidReoParams })

/-- `handle_out_of_order_pkt_ctr`: with error handling the frame is marked, without it
the counter is an error. -/
def handleOutOfOrderPktCtr (config : Config) (desc : FrameDescriptor) (hostSs : Snapshot) :
    QdfStatus × FrameDescriptor :=
  if config.errorHandling then
    (.success,
      { desc with
        drop := true
        dropReason :=
          if desc.rxParams.mgmtPktCtr = hostSs.mgmtPktCtr then .duplicatePktCtr
          else .outOfOrderPktCtr })
  else
    (.error, desc)

/-- The host snapshot that a frame leaves. -/
def ReoParams.snapshot (reoParams : ReoParams) : Snapshot :=
  { valid := true
    mgmtPktCtr := reoParams.mgmtPktCtr
    globalTimestamp := reoParams.globalTimestamp }

/-- The first test of `wlan_mgmt_rx_reo_update_host_snapshot`. -/
def checkPktCtr (config : Config) (hostSs : Snapshot) (desc : FrameDescriptor) :
    QdfStatus × FrameDescriptor :=
  if comparePktCtrsGte hostSs.mgmtPktCtr desc.rxParams.mgmtPktCtr then
    handleOutOfOrderPktCtr config desc hostSs
  else
    (.success, desc)

/-- `wlan_mgmt_rx_reo_update_host_snapshot`. -/
def updateHostSnapshot (config : Config) (hostSs : Snapshot) (desc : FrameDescriptor) :
    QdfStatus × Snapshot × FrameDescriptor :=
  let reoParams := desc.rxParams
  if reoParams.valid then
    if hostSs.valid then
      let checked := checkPktCtr config hostSs desc
      if checked.1 = .success then
        let pktCtrDelta := subtractPktCtrs reoParams.mgmtPktCtr hostSs.mgmtPktCtr
        let desc := { checked.2 with pktCtrDelta := pktCtrDelta }
        if pktCtrDelta ≠ 1 ∧ config.pktCtrDeltaThresh ≠ 0
            ∧ (config.pktCtrDeltaThresh : Int) < pktCtrDelta then
          (.error, hostSs, desc)
        else
          -- A frame marked for dropping comes here as well.
          (.success, reoParams.snapshot, desc)
      else
        (.error, hostSs, checked.2)
    else
      (.success, reoParams.snapshot, { desc with pktCtrDelta := 1 })
  else
    (.error, hostSs, desc)

/-- The packet counter is not newer than the one of the host snapshot. -/
def outOfOrder (hostSs : Snapshot) (reoParams : ReoParams) : Bool :=
  hostSs.valid && comparePktCtrsGte hostSs.mgmtPktCtr reoParams.mgmtPktCtr

/-- With error handling and without a threshold every frame with valid parameters leaves
its own counter in the host snapshot, marked or not. -/
theorem updateHostSnapshot_eq (config : Config) (hostSs : Snapshot) (desc : FrameDescriptor)
    (handling : config.errorHandling = true) (noThresh : config.pktCtrDeltaThresh = 0)
    (valid : desc.rxParams.valid = true) :
    ∃ delta reason, updateHostSnapshot config hostSs desc
      = (.success, desc.rxParams.snapshot,
          { desc with
            pktCtrDelta := delta
            drop := desc.drop || outOfOrder hostSs desc.rxParams
            dropReason := reason }) := by
  cases snapshotValid : hostSs.valid with
  | false =>
    simp [updateHostSnapshot, valid, snapshotValid, outOfOrder]
  | true =>
    cases older : comparePktCtrsGte hostSs.mgmtPktCtr desc.rxParams.mgmtPktCtr with
    | false =>
      simp [updateHostSnapshot, checkPktCtr, valid, snapshotValid, outOfOrder, older, noThresh]
    | true =>
      simp [updateHostSnapshot, checkPktCtr, handleOutOfOrderPktCtr, handling, valid,
        snapshotValid, outOfOrder, older, noThresh]

/-- `wlan_mgmt_rx_reo_algo_calculate_wait_count`. -/
def calculateWaitCount (result : WaitCountResult) (desc : FrameDescriptor) :
    QdfStatus × FrameDescriptor :=
  match result with
  | .computed waitCount => (.success, { desc with waitCount := waitCount })
  | .snapshotSanityFailure =>
    (.error, { desc with drop := true, dropReason := .snapshotSanityFailure })
  | .failed => (.error, desc)

/-- What the section under `reo_algo_entry_lock` leaves. -/
structure EntryResult where
  status : QdfStatus
  ctx : ReoContext
  desc : FrameDescriptor
  isQueued : Bool

/-- `mgmt_rx_reo_update_lists`. -/
def updateLists (config : Config) (ctx : ReoContext) (desc : FrameDescriptor)
    (arrival : Arrival) : EntryResult :=
  if (desc.type = .hostConsumedFrame ∧ desc.reoRequired = true)
      ∧ arrival.entryAvailable = false then
    ⟨.error, ctx, desc, false⟩
  else
    let new :=
      if desc.type = .hostConsumedFrame ∧ desc.reoRequired = true then
        some (prepareListEntry desc)
      else
        none
    let inEgress := updateEgressList config ctx.egressList ctx.lastReleasedFrame desc new
    let ctx := { ctx with egressList := inEgress.list }
    if inEgress.status = .success then
      if checkSanityList inEgress.list then
        let inIngress :=
          updateIngressList ctx.ingressList inEgress.desc inEgress.new arrival.insertionTs
        let ctx := { ctx with ingressList := inIngress.list }
        if inIngress.status = .success then
          ⟨if checkSanityList inIngress.list then .success else .sanityFailed, ctx,
            inIngress.desc, inIngress.isQueued || inEgress.isQueued⟩
        else
          ⟨inIngress.status, ctx, inIngress.desc, inIngress.isQueued || inEgress.isQueued⟩
      else
        ⟨.sanityFailed, ctx, inEgress.desc, inEgress.isQueued⟩
    else
      ⟨inEgress.status, ctx, inEgress.desc, inEgress.isQueued⟩

/-- The section under `reo_algo_entry_lock` of `wlan_mgmt_rx_reo_algo_entry`. -/
def algoEntry (config : Config) (ctx : ReoContext) (arrival : Arrival) : EntryResult :=
  let desc := arrival.descriptor
  let link := arrival.rxParams.linkId
  if desc.frameTypeMgt then
    let sane := checkFrameSanity config desc
    if sane.1 = .success then
      let updated := updateHostSnapshot config (ctx.hostSnapshot link) sane.2
      let ctx :=
        { ctx with hostSnapshot := Function.update ctx.hostSnapshot link updated.2.1 }
      if updated.1 = .success then
        if updated.2.2.drop then
          -- The status of a dropped frame is success.
          ⟨.success, ctx, updated.2.2, false⟩
        else
          let waiting := calculateWaitCount arrival.waitCountResult updated.2.2
          if waiting.1 = .success then
            updateLists config ctx waiting.2 arrival
          else
            ⟨waiting.1, ctx, waiting.2, false⟩
      else
        ⟨updated.1, ctx, updated.2.2, false⟩
    else
      ⟨sane.1, ctx, sane.2, false⟩
  else
    ⟨.error, ctx, desc, false⟩

/-- The status that `wlan_mgmt_rx_reo_algo_entry` returns: the lists are moved and
released only for a frame that has passed the whole section. -/
def algoEntryStatus (arrival : Arrival) (result : EntryResult) : QdfStatus :=
  if result.status = .success ∧ result.desc.drop = false then arrival.releaseStatus
  else result.status

/-- `tgt_mgmt_rx_reo_frame_handler` hands the frame to the upper layer itself, through
`tgt_mgmt_txrx_process_rx_frame`: the algorithm has returned success for a frame that
needs no reordering and has not queued it. -/
def handedUpByHandler (arrival : Arrival) (result : EntryResult) : Bool :=
  (arrival.type == .hostConsumedFrame) && !arrival.descriptor.reoRequired
    && (algoEntryStatus arrival result == .success) && !result.isQueued

end Sm8650.MgmtReo
