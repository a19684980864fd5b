import Sm8650.Crm.Link

/-!
# Triggers on a link

A trigger moves the read index on if the request there has been applied, looks for a request that
is ready in every table, each at its own distance from the read index, and applies the requests
to the devices. A bubble moves the read index back.

Source: `cam_req_mgr_core.c`.
-/

namespace Sm8650.Crm

open Function

namespace Link

/-- The answers of the devices to `apply_req` during one trigger. -/
abbrev Answers := Device → Int

/-! ## Looking for a request -/

/-- `__cam_req_mgr_traverse`: the requests found and the tables left, unless one of the tables is
not ready. -/
def traverse (slot : Nat → Slot) (validateOnly : Bool) :
    List ReqTbl → Nat → (Nat → Apply) → Option ((Nat → Apply) × List ReqTbl)
  | [], _, applyData => some (applyData, [])
  | tbl :: next, idx, applyData =>
    if (tbl.slot idx).state = .ready ∨ (slot idx).skipIdx ∨ 0 < tbl.skipTraverse then
      match traverse slot validateOnly next (decIdx idx tbl.pdDelta) applyData with
      | none => none
      | some (applyData, next) =>
        if validateOnly then some (applyData, tbl :: next)
        else if 0 < tbl.skipTraverse then
          some (update applyData tbl.pd ⟨idx, -1⟩,
            { tbl with skipTraverse := tbl.skipTraverse - 1 } :: next)
        else
          some (update applyData tbl.pd ⟨idx, (slot idx).reqId⟩, tbl :: next)
    else none

/-- `__cam_req_mgr_check_link_is_ready`. The result has the bit of every table when the traversal
succeeds, so that it is the mask of the link. -/
def checkLinkIsReady (link : Link) (idx : Nat) (validateOnly : Bool) : Link × Bool :=
  let link := if validateOnly then link else { link with applyData := fun _ => ⟨0, 0⟩ }
  match traverse link.slot validateOnly link.lTbl idx link.applyData with
  | none => (link, false)
  | some (applyData, lTbl) => ({ link with applyData := applyData, lTbl := lTbl }, true)

/-- The delays left of a slot after a trigger. -/
def delayed (trigger : Trigger) (slot : TblSlot) : TblSlot × Bool :=
  match trigger with
  | .sof =>
    if 0 < slot.injectDelayAtSof then
      ({ slot with injectDelayAtSof := slot.injectDelayAtSof - 1 }, true)
    else (slot, false)
  | .eof =>
    if 0 < slot.injectDelayAtEof then
      ({ slot with injectDelayAtEof := slot.injectDelayAtEof - 1 }, true)
    else (slot, false)

/-- `__cam_req_mgr_inject_delay`; says whether a table holds the request back. -/
def injectDelay (trigger : Trigger) : List ReqTbl → Nat → List ReqTbl × Bool
  | [], _ => ([], false)
  | tbl :: next, idx =>
    let (slot, held) := delayed trigger (tbl.slot idx)
    let (next, later) := injectDelay trigger next (decIdx idx tbl.pdDelta)
    ({ tbl with slot := update tbl.slot idx slot } :: next, held || later)

/-! ## Applying a request -/

/-- How the first loop of `__cam_req_mgr_send_req` ends. -/
inductive SpecialEnd
  | next
  | failed (rc : Int)
  | sent
  deriving DecidableEq, Repr

/-- The device has taken the request that was found for its table. -/
def markApplied (link : Link) (dev : Device) : Link :=
  link.updateTblSlot dev.pDelay (link.applyData dev.pDelay).idx fun slot =>
    slot.setApplied dev.devBit

/-- The operation at the end of the frame is done. -/
def eofApplied (link : Link) (dev : Device) : Link :=
  { link.updateTblSlot dev.pDelay (link.applyData dev.pDelay).idx fun slot =>
      { slot with ops.applyAtEof := false } with
    eofEventCnt := if 0 < link.eofEventCnt then link.eofEventCnt - 1 else link.eofEventCnt }

/-- The first loop of `__cam_req_mgr_send_req`, about the special operations that devices have
asked for. -/
def sendSpecial (trigger : Trigger) (answers : Answers) (link : Link) :
    List Device → Link × List (Device × Int) × SpecialEnd
  | [] => (link, [], .next)
  | dev :: rest =>
    let apply := link.applyData dev.pDelay
    let slot := link.tblSlot dev.pDelay apply.idx
    if slot.ops.devHdl = [] ∨ maxDevForSpecialOps < slot.ops.devHdl.length
        ∨ dev.devHdl ∉ slot.ops.devHdl ∨ slot.applied dev.devBit ∨ apply.reqId < 0 then
      sendSpecial trigger answers link rest
    else if slot.ops.applyAtEof ≠ decide (trigger = .eof) then (link, [], .next)
    else if answers dev ≠ 0 then (link, [], .failed (answers dev))
    else
      let link := link.markApplied dev
      if trigger = .eof then (link.eofApplied dev, [(dev, apply.reqId)], .sent)
      else
        let (link, given, ended) := sendSpecial trigger answers link rest
        (link, (dev, apply.reqId) :: given, ended)

/-- The regular loop calls the device. -/
def due (link : Link) (trigger : Trigger) (dev : Device) : Bool :=
  let apply := link.applyData dev.pDelay
  let slot := link.tblSlot dev.pDelay apply.idx
  dev.triggered trigger && decide (0 ≤ apply.reqId) && !slot.applied dev.devBit
    && !(decide (dev.devHdl ∈ slot.ops.devHdl)
      && decide (slot.ops.applyAtEof ≠ decide (trigger = .eof)))

/-- What the regular loop of `__cam_req_mgr_send_req` leaves. -/
structure Sent where
  link : Link
  given : List (Device × Int)
  reqAppliedToMinPd : Int
  rc : Int

/-- The device takes its request. -/
def Sent.take (sent : Sent) (dev : Device) (rc : Int) : Sent :=
  let apply := sent.link.applyData dev.pDelay
  { link := sent.link.markApplied dev
    given := sent.given ++ [(dev, apply.reqId)]
    reqAppliedToMinPd :=
      if dev.pDelay = sent.link.minDelay then apply.reqId else sent.reqAppliedToMinPd
    rc := rc }

/-- The regular loop of `__cam_req_mgr_send_req`. -/
def sendRegular (trigger : Trigger) (answers : Answers) : List Device → Sent → Sent
  | [], sent => sent
  | dev :: rest, sent =>
    if sent.link.due trigger dev then
      if answers dev < 0 then { sent with rc := answers dev }
      else sendRegular trigger answers rest (sent.take dev (answers dev))
    else sendRegular trigger answers rest sent

/-- `__cam_req_mgr_send_req`, with the devices that take a request. -/
def sendReq (link : Link) (trigger : Trigger) (answers : Answers) :
    Link × List (Device × Int) × Int :=
  match sendSpecial trigger answers link link.devs with
  | (link, given, .failed rc) => (link, given, rc)
  | (link, given, .sent) => (link, given, 0)
  | (link, given, .next) =>
    let sent := sendRegular trigger answers link.devs ⟨link, given, -1, 0⟩
    if sent.rc < 0 then (sent.link, sent.given, sent.rc)
    else
      let link := { sent.link with prevApplyData := sent.link.applyData }
      (if 0 < sent.reqAppliedToMinPd then { link with openReqCnt := link.openReqCnt - 1 }
        else link, sent.given, sent.rc)

/-! ## Processing a request -/

/-- `__cam_req_mgr_process_req` up to the call of `__cam_req_mgr_send_req`; says whether it is
reached. -/
def prepareReq (link : Link) (trigger : Trigger) : Link × Bool :=
  let slot := link.slot link.rdIdx
  if trigger = .eof ∧ link.eofEventCnt = 0 then (link, false)
  else if slot.status = .reqApplied then (link, false)
  else if trigger = .sof ∧ slot.status = .noReq then (link, false)
  else if slot.status = .reqReady then
    let (lTbl, held) := injectDelay trigger link.lTbl link.rdIdx
    (link.setTables lTbl, !held)
  else
    match link.checkLinkIsReady link.rdIdx true with
    | (link, false) => (link.setStatus link.rdIdx .reqPending, false)
    | (link, true) =>
      let (lTbl, held) := injectDelay trigger link.lTbl link.rdIdx
      let link := link.setTables lTbl
      if held then (link.setStatus link.rdIdx .reqPending, false)
      else
        match link.checkLinkIsReady link.rdIdx false with
        | (link, false) => (link.setStatus link.rdIdx .reqPending, false)
        | (link, true) => (link.setStatus link.rdIdx .reqReady, true)

/-- Every device has the request that was found for it. -/
def isApplied (link : Link) : Bool :=
  link.devs.all fun dev =>
    decide ((link.applyData dev.pDelay).reqId = -1)
      || decide ((link.tblSlot dev.pDelay (link.applyData dev.pDelay).idx).reqApplyMap
        = link.devMask dev.pDelay)

/-- The recovery from an error is done when a request has been sent. -/
def recovered (link : Link) : Link :=
  if link.state = .err then { link with state := .ready } else link

/-- `__cam_req_mgr_process_req` after the call of `__cam_req_mgr_send_req`. -/
def finishReq (link : Link) (rc : Int) : Link :=
  if rc < 0 then link.setStatus link.rdIdx .reqPending
  else
    let link := link.recovered
    if link.isApplied then
      ((link.setStatus link.rdIdx .reqApplied).setLastApplied (some link.rdIdx)).resetReqSlot
        (decIdx link.rdIdx (link.maxDelay + 1))
    else link

/-- `__cam_req_mgr_process_req` with the devices that take a request, and what
`__cam_req_mgr_send_req` returns if it is called. -/
def processReq (link : Link) (trigger : Trigger) (answers : Answers) :
    Link × List (Device × Int) × Option Int :=
  if link.state = .idle then (link, [], none)
  else
    match link.prepareReq trigger with
    | (link, false) => (link, [], none)
    | (link, true) =>
      let (link, given, rc) := link.sendReq trigger answers
      (link.finishReq rc, given, some rc)

/-! ## Triggers -/

/-- `__cam_req_mgr_move_to_next_req_slot`; says whether there is one. -/
def moveToNextReqSlot (link : Link) : Link × Bool :=
  let idx := incIdx link.rdIdx 1
  let link :=
    if (link.slot idx).status = .reqApplied then (link.forgetLastApplied idx).resetReqSlot idx
    else link
  if (link.slot idx).status = .noReq then
    if link.devs.all fun dev => link.maxDelay ≤ dev.pDelay then (link, false)
    else if link.maxDelay ≤ link.contEmptySlots then
      ({ link with contEmptySlots := link.contEmptySlots + 1 }, false)
    else
      ({ (link.inQSkipIdx idx).setStatus idx .reqAdded with
          contEmptySlots := link.contEmptySlots + 1
          wrIdx := if link.wrIdx = idx then incIdx link.wrIdx 1 else link.wrIdx
          rdIdx := idx }, true)
  else ({ link with contEmptySlots := 0, rdIdx := idx }, true)

/-- The slot that the request of a trigger gives up in `cam_req_mgr_process_trigger`. -/
def recycle (link : Link) (reqId : Int) : Link :=
  match link.findSlotForReq reqId with
  | none => link
  | some idx =>
    (link.forgetLastApplied idx).resetReqSlot
      (decIdx (if idx = link.rdIdx then decIdx idx 1 else idx) (link.maxDelay + 1))

/-- `cam_req_mgr_process_trigger` up to `__cam_req_mgr_process_req`; says whether it is reached. -/
def advance (link : Link) (trigger : Trigger) (reqId : Int) : Link × Bool :=
  let link := if trigger = .sof then link.recycle reqId else link
  if link.state = .available ∨ link.state = .idle then (link, false)
  else if trigger = .sof ∧ (link.slot link.rdIdx).status = .reqApplied then
    link.moveToNextReqSlot
  else (link, true)

/-- `cam_req_mgr_process_trigger` -/
def processTrigger (link : Link) (trigger : Trigger) (reqId : Int) (answers : Answers) :
    Link × List (Device × Int) × Option Int :=
  match link.advance trigger reqId with
  | (link, false) => (link, [], none)
  | (link, true) => link.processReq trigger answers

/-! ## Bubbles -/

/-- The tables lose what is known about the devices that have the request of a slot. -/
def clearApplyMaps (link : Link) (idx : Nat) : Link :=
  { link with
    lTbl := link.lTbl.map fun tbl =>
      { tbl with
        slot := update tbl.slot idx { tbl.slot idx with reqApplyMap := 0 } } }

/-- The slots after a bubble, up to the last applied one, are to be applied again. -/
def reapplySlots : Nat → Nat → Link → Link
  | 0, _, link => link
  | num + 1, idx, link =>
    let idx := incIdx idx 1
    reapplySlots num idx
      (if (link.slot idx).status = .reqApplied then
        (link.setStatus idx .reqAdded).clearApplyMaps idx
      else link)

/-- `cam_req_mgr_process_error` for `CRM_KMD_ERR_BUBBLE`, with `OPLUS_FEATURE_CAMERA_COMMON`, up
to `__cam_req_mgr_apply_on_bubble`; says whether it is reached. -/
def rewind (link : Link) (reqId : Int) : Link × Bool :=
  match link.findSlotForReq reqId with
  | none => (link, false)
  | some idx =>
    let slot := link.slot idx
    if !slot.recover then (link, false)
    else if slot.status ≠ .reqPending ∧ slot.status ≠ .reqApplied then (link, false)
    else
      let link := { link with lTbl := tblSetAllSkipCnt link.lTbl, rdIdx := idx }
      let link := (link.setStatus idx .reqAdded).clearApplyMaps idx
      let slotDiff :=
        match link.lastAppliedIdx with
        | some last => if last < idx then last + maxReqSlots - idx else last - idx
        | none => 1
      ({ reapplySlots slotDiff idx link with
          state := .err
          openReqCnt := link.openReqCnt + 1 }, true)

/-- `cam_req_mgr_process_error` for `CRM_KMD_ERR_BUBBLE`; the trigger is the one that the device
reports with the bubble. -/
def processError (link : Link) (reqId : Int) (trigger : Trigger) (answers : Answers) :
    Link × List (Device × Int) × Option Int :=
  match link.rewind reqId with
  | (link, false) => (link, [], none)
  | (link, true) => link.processReq trigger answers

end Link

end Sm8650.Crm
