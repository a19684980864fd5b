import Mathlib.Data.BitVec

/-!
# A link of the camera request manager

A link connects devices of up to three pipeline delays. Requests are scheduled into the slots of
a ring, every device adds its part of a request to the table of its pipeline delay, and triggers
apply the requests to the devices. The model is of one link without sync links; it leaves out
what is only reported (to devices that skip a frame, to the watchdog and to user space).

Source: `cam_req_mgr_core.c`.
-/

namespace Sm8650.Crm

open Function

/-- `MAX_REQ_SLOTS` -/
def maxReqSlots : Nat := 48

/-- `MAX_DEV_FOR_SPECIAL_OPS` -/
def maxDevForSpecialOps : Nat := 4

/-- `CAM_PIPELINE_DELAY_MAX` -/
def camPipelineDelayMax : Nat := 3

theorem camPipelineDelayMax_pos : 0 < camPipelineDelayMax := by decide

theorem one_lt_camPipelineDelayMax : 1 < camPipelineDelayMax := by decide

/-- `BIT` -/
def bit (nr : Nat) : BitVec 64 := 1#64 <<< nr

/-- `enum crm_slot_status` -/
inductive SlotStatus
  | noReq
  | reqAdded
  | reqPending
  | reqReady
  | reqApplied
  deriving DecidableEq, Repr

/-- `enum crm_req_state` -/
inductive ReqState
  | empty
  | pending
  | ready
  deriving DecidableEq, Repr

/-- `enum cam_req_mgr_link_state` -/
inductive LinkState
  | available
  | idle
  | ready
  | err
  deriving DecidableEq, Repr

/-- `enum cam_req_mgr_device_id` -/
inductive DeviceId
  | reqMgr
  | sensor
  | flash
  | actuator
  | ife
  | customHw
  | external (nr : Nat)
  | tpg
  deriving DecidableEq, Repr

/-- The trigger points. -/
inductive Trigger
  | sof
  | eof
  deriving DecidableEq, Repr

/-- `struct cam_req_mgr_device_info`, with the delays that a link accepts. -/
structure DeviceInfo where
  devHdl : Int
  devId : DeviceId
  pDelay : Nat
  delayValid : pDelay < camPipelineDelayMax
  atSof : Bool
  atEof : Bool
  deriving DecidableEq

/-- `struct cam_req_mgr_connected_device`; its table is the one of its pipeline delay. -/
structure Device extends DeviceInfo where
  devBit : Nat
  deriving DecidableEq

/-- The device's triggers have this one among them. -/
def Device.triggered (dev : Device) : Trigger → Bool
  | .sof => dev.atSof
  | .eof => dev.atEof

/-- `struct cam_req_mgr_slot` -/
structure Slot where
  reqId : Int
  skipIdx : Bool
  status : SlotStatus
  recover : Bool
  deriving DecidableEq, Repr

/-- `struct crm_tbl_slot_special_ops` -/
structure SpecialOps where
  devHdl : List Int
  applyAtEof : Bool
  deriving DecidableEq, Repr

/-- `struct cam_req_mgr_tbl_slot` -/
structure TblSlot where
  reqReadyMap : BitVec 32
  reqApplyMap : BitVec 32
  state : ReqState
  injectDelayAtSof : Nat
  injectDelayAtEof : Nat
  ops : SpecialOps
  deriving DecidableEq

/-- `struct cam_req_mgr_req_tbl` -/
structure ReqTbl where
  pd : Nat
  devCount : Nat
  devMask : BitVec 32
  skipTraverse : Nat
  pdDelta : Nat
  slot : Nat → TblSlot

/-- `struct cam_req_mgr_apply` -/
structure Apply where
  idx : Nat
  reqId : Int
  deriving DecidableEq, Repr

/-- `struct cam_req_mgr_core_link`, with its `struct cam_req_mgr_req_data` and
`struct cam_req_mgr_req_queue`. -/
structure Link where
  devs : List Device
  maxDelay : Nat
  minDelay : Nat
  lTbl : List ReqTbl
  slot : Nat → Slot
  rdIdx : Nat
  wrIdx : Nat
  lastAppliedIdx : Option Nat
  applyData : Nat → Apply
  prevApplyData : Nat → Apply
  state : LinkState
  openReqCnt : BitVec 32
  lastFlushId : Int
  eofEventCnt : Int
  contEmptySlots : Nat

/-- `__cam_req_mgr_inc_idx` on the ring of slots. -/
def incIdx (val step : Nat) : Nat := (val + step) % maxReqSlots

/-- `__cam_req_mgr_dec_idx` on the ring of slots. -/
def decIdx (val step : Nat) : Nat :=
  if val < step then maxReqSlots + val - step else val - step

namespace TblSlot

/-- A slot of a table that no device has used. -/
def unused : TblSlot := ⟨0, 0, .empty, 0, 0, ⟨[], false⟩⟩

/-- The device's bit is set in `req_apply_map`. -/
def applied (slot : TblSlot) (devBit : Nat) : Bool :=
  slot.reqApplyMap.setWidth 64 &&& bit devBit ≠ 0

/-- The device's bit is set in `req_apply_map`. -/
def setApplied (slot : TblSlot) (devBit : Nat) : TblSlot :=
  { slot with reqApplyMap := (slot.reqApplyMap.setWidth 64 ||| bit devBit).setWidth 32 }

/-- What a flush leaves of a slot of a table. -/
def flushed (slot : TblSlot) : TblSlot :=
  { slot with reqReadyMap := 0, reqApplyMap := 0, state := .empty, ops := ⟨[], false⟩ }

end TblSlot

namespace Link

/-- The slot of the table of a pipeline delay. -/
def tblSlot (link : Link) (pd idx : Nat) : TblSlot :=
  match link.lTbl.find? fun tbl => tbl.pd = pd with
  | some tbl => tbl.slot idx
  | none => .unused

/-- The devices of a pipeline delay, as `dev_mask` has them. -/
def devMask (link : Link) (pd : Nat) : BitVec 32 :=
  match link.lTbl.find? fun tbl => tbl.pd = pd with
  | some tbl => tbl.devMask
  | none => 0

/-- A slot of the table of a pipeline delay changes. -/
def updateTblSlot (link : Link) (pd idx : Nat) (change : TblSlot → TblSlot) : Link :=
  { link with
    lTbl := link.lTbl.map fun tbl =>
      if tbl.pd = pd then
        { tbl with slot := update tbl.slot idx (change (tbl.slot idx)) }
      else tbl }

/-- A slot of the queue changes. -/
def updateSlot (link : Link) (idx : Nat) (change : Slot → Slot) : Link :=
  { link with slot := update link.slot idx (change (link.slot idx)) }

/-- A slot of the queue gets a status. -/
def setStatus (link : Link) (idx : Nat) (status : SlotStatus) : Link :=
  link.updateSlot idx fun slot => { slot with status := status }

/-- Another slot, or none, is the one applied last. -/
def setLastApplied (link : Link) (last : Option Nat) : Link :=
  { link with lastAppliedIdx := last }

/-- A slot is no longer the one applied last. -/
def forgetLastApplied (link : Link) (idx : Nat) : Link :=
  link.setLastApplied (if link.lastAppliedIdx = some idx then none else link.lastAppliedIdx)

/-- The tables of the link change. -/
def setTables (link : Link) (lTbl : List ReqTbl) : Link := { link with lTbl := lTbl }

/-! ## Setting up a link -/

/-- `__cam_req_mgr_add_tbl_to_link`, after a table with a delay that is not smaller. -/
def addTblAfter (newTbl tbl : ReqTbl) : List ReqTbl → List ReqTbl
  | [] => [{ tbl with pdDelta := tbl.pd - newTbl.pd }, { newTbl with pdDelta := 0 }]
  | next :: rest =>
    if newTbl.pd < next.pd then tbl :: addTblAfter newTbl next rest
    else { tbl with pdDelta := tbl.pd - newTbl.pd }
      :: { newTbl with pdDelta := newTbl.pd - next.pd } :: next :: rest

/-- `__cam_req_mgr_add_tbl_to_link` -/
def addTblToLink (lTbl : List ReqTbl) (newTbl : ReqTbl) : List ReqTbl :=
  match lTbl with
  | [] => [newTbl]
  | tbl :: rest =>
    if tbl.pd < newTbl.pd then { newTbl with pdDelta := newTbl.pd - tbl.pd } :: tbl :: rest
    else addTblAfter newTbl tbl rest

/-- `__cam_req_mgr_create_pd_tbl` -/
def createPdTbl (delay : Nat) : ReqTbl := ⟨delay, 0, 0, 0, 0, fun _ => .unused⟩

/-- `__cam_req_mgr_tbl_set_all_skip_cnt` -/
def tblSetAllSkipCnt : List ReqTbl → List ReqTbl
  | [] => []
  | first :: rest =>
    (first :: rest).map fun tbl => { tbl with skipTraverse := first.pd - tbl.pd }

/-- One device is connected in `__cam_req_mgr_setup_link_info`. -/
def connect (link : Link) (info : DeviceInfo) : Link :=
  let lTbl :=
    if link.lTbl.any fun tbl => tbl.pd = info.pDelay then link.lTbl
    else addTblToLink link.lTbl (createPdTbl info.pDelay)
  let devBit :=
    match lTbl.find? fun tbl => tbl.pd = info.pDelay with
    | some tbl => tbl.devCount
    | none => 0
  { link with
    devs := link.devs ++ [{ info with devBit := devBit }]
    lTbl := lTbl.map fun tbl =>
      if tbl.pd = info.pDelay then
        { tbl with
          devCount := tbl.devCount + 1
          devMask := (tbl.devMask.setWidth 64 ||| bit devBit).setWidth 32 }
      else tbl
    maxDelay := max link.maxDelay info.pDelay
    minDelay := min link.minDelay info.pDelay }

/-- A link without devices: `cam_req_mgr_core_link_reset`, `__cam_req_mgr_setup_in_q` and what
`cam_req_mgr_link` sets. -/
def reserved : Link where
  devs := []
  maxDelay := 0
  minDelay := camPipelineDelayMax - 1
  lTbl := []
  slot _ := ⟨-1, false, .noReq, false⟩
  rdIdx := 0
  wrIdx := 0
  lastAppliedIdx := some 0
  applyData _ := ⟨0, -1⟩
  prevApplyData _ := ⟨0, -1⟩
  state := .ready
  openReqCnt := 0
  lastFlushId := 0
  eofEventCnt := 0
  contEmptySlots := 0

/-- `__cam_req_mgr_setup_link_info` -/
def setup (infos : List DeviceInfo) : Link :=
  let link := infos.foldl connect reserved
  { link with lTbl := tblSetAllSkipCnt link.lTbl }

/-! ## Requests -/

/-- The search of `__cam_req_mgr_find_slot_for_req`, from a slot on. -/
def findSlotFrom (slot : Nat → Slot) (reqId : Int) : Nat → Nat → Option Nat
  | 0, _ => none
  | num + 1, idx =>
    if (slot idx).reqId = reqId then some idx else findSlotFrom slot reqId num (decIdx idx 1)

/-- `__cam_req_mgr_find_slot_for_req` -/
def findSlotForReq (link : Link) (reqId : Int) : Option Nat :=
  findSlotFrom link.slot reqId maxReqSlots link.rdIdx

/-- `__cam_req_mgr_in_q_skip_idx` -/
def inQSkipIdx (link : Link) (idx : Nat) : Link :=
  link.updateSlot idx fun slot => { slot with reqId := -1, skipIdx := true }

/-- `cam_req_mgr_process_sched_req` -/
def processSchedReq (link : Link) (reqId : Int) (bubbleEnable : Bool) : Link :=
  { link.updateSlot link.wrIdx fun _ => ⟨reqId, false, .reqAdded, bubbleEnable⟩ with
    openReqCnt := link.openReqCnt + 1
    wrIdx := incIdx link.wrIdx 1 }

/-- `cam_req_mgr_schedule_request`; says whether the request was taken. -/
def scheduleRequest (link : Link) (reqId : Int) (bubbleEnable : Bool) : Link × Bool :=
  if reqId ≤ link.lastFlushId then (link, false)
  else ({ link with lastFlushId := 0 }.processSchedReq reqId bubbleEnable, true)

/-- `struct cam_req_mgr_add_request` -/
structure AddRequest where
  devHdl : Int
  reqId : Int
  triggerEof : Bool
  skipAtSof : Nat
  skipAtEof : Nat
  deriving DecidableEq, Repr

/-- What a device adds to a slot of its table. The flag is set even if the slot has no room for
the device. -/
def addToSlot (addReq : AddRequest) (slot : TblSlot) (dev : Device) (mask : BitVec 32) :
    TblSlot :=
  let slot :=
    { slot with
      injectDelayAtSof := max slot.injectDelayAtSof (addReq.skipAtSof % 256)
      injectDelayAtEof := max slot.injectDelayAtEof (addReq.skipAtEof % 256) }
  let slot := { slot with ops.applyAtEof := slot.ops.applyAtEof || addReq.triggerEof }
  if addReq.triggerEof ∧ slot.ops.devHdl.length = maxDevForSpecialOps then slot
  else
    let slot :=
      if addReq.triggerEof then { slot with ops.devHdl := slot.ops.devHdl ++ [addReq.devHdl] }
      else slot
    let map := (slot.reqReadyMap.setWidth 64 ||| bit dev.devBit).setWidth 32
    { slot with reqReadyMap := map, state := if map = mask then .ready else .pending }

/-- `cam_req_mgr_process_add_req` -/
def processAddReq (link : Link) (addReq : AddRequest) : Link :=
  match link.devs.find? fun dev => dev.devHdl = addReq.devHdl,
      link.findSlotForReq addReq.reqId with
  | some dev, some idx =>
    link.updateTblSlot dev.pDelay idx fun slot =>
      addToSlot addReq slot dev (link.devMask dev.pDelay)
  | _, _ => link

/-- `cam_req_mgr_cb_add_req`, with the task that it enqueues. -/
def addReq (link : Link) (addReq : AddRequest) : Link :=
  if (link.findSlotForReq addReq.reqId).isNone then link
  else
    let link :=
      if addReq.triggerEof then { link with eofEventCnt := link.eofEventCnt + 1 } else link
    link.processAddReq addReq

/-! ## Slots are given up -/

/-- `__cam_req_mgr_reset_req_slot` -/
def resetReqSlot (link : Link) (idx : Nat) : Link :=
  if (link.slot idx).status = .reqAdded ∨ link.lastAppliedIdx = some idx then link
  else
    { link.updateSlot idx fun _ => ⟨-1, false, .noReq, false⟩ with
      lTbl := link.lTbl.map fun tbl => { tbl with slot := update tbl.slot idx .unused } }

/-- `__cam_req_mgr_flush_req_slot` -/
def flushReqSlot (link : Link) : Link :=
  { link with
    slot := fun _ => ⟨-1, true, .noReq, false⟩
    lTbl := link.lTbl.map fun tbl => { tbl with slot := fun idx => (tbl.slot idx).flushed }
    eofEventCnt := 0
    wrIdx := 0
    rdIdx := 0
    contEmptySlots := 0 }

/-- `__cam_req_mgr_reset_apply_data` -/
def resetApplyData (link : Link) : Link :=
  { link with
    applyData := fun pd => { link.applyData pd with reqId := -1 }
    prevApplyData := fun pd => { link.prevApplyData pd with reqId := -1 } }

/-- `__cam_req_mgr_get_dev_pd` -/
def getDevPd (link : Link) (devId : DeviceId) : Option Nat :=
  (link.devs.find? fun dev => dev.devId = devId).map fun dev => dev.pDelay

/-- `__cam_req_mgr_try_cancel_req` cancels a request in this slot. -/
def cancellable (link : Link) (reqId : Int) (idx : Nat) : Bool :=
  match (link.slot idx).status with
  | .reqPending | .reqApplied =>
    match link.getDevPd .ife with
    | none => false
    | some pd => (link.prevApplyData pd).reqId < reqId
  | .reqReady | .reqAdded => true
  | .noReq => false

/-- `__cam_req_mgr_try_cancel_req`; says whether the request was cancelled. -/
def tryCancelReq (link : Link) (reqId : Int) : Link × Bool :=
  match link.findSlotForReq reqId with
  | none => (link, false)
  | some idx =>
    if link.cancellable reqId idx then
      ({ link.inQSkipIdx idx with openReqCnt := link.openReqCnt - 1 }, true)
    else (link, false)

/-- `cam_req_mgr_process_flush_req` for `CAM_REQ_MGR_FLUSH_TYPE_ALL` -/
def flushAll (link : Link) (reqId : Int) : Link :=
  { link.flushReqSlot.resetApplyData with lastFlushId := reqId, openReqCnt := 0 }

/-- `cam_req_mgr_process_flush_req` for `CAM_REQ_MGR_FLUSH_TYPE_CANCEL_REQ` -/
def cancelReq (link : Link) (reqId : Int) : Link × Bool :=
  { link with lastFlushId := reqId }.tryCancelReq reqId

end Link

end Sm8650.Crm
