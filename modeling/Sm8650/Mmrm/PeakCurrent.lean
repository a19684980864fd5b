import Sm8650.Mmrm.Clients

/-!
# Peak current of the clock clients

A request for a rate is checked against the peak current of the platform. The manager
keeps the aggregate of the currents of its clients at the highest level in use; a
request that leaves this level alone changes the aggregate by a difference, a request
that changes it makes the manager sum up again. A client of high priority that
overshoots the threshold may have another client throttled.

Source: `mmrm_clk_rsrc_mgr_sw.c`.
-/

namespace Sm8650.Mmrm

variable {n : Nat}

/-! ## Levels and sums over the table -/

/-- An entry that takes part in the sums: it has a clock and a rate. -/
def ClientEntry.active (entry : ClientEntry) : Bool :=
  entry.clk && decide (entry.clkRate ≠ 0)

/-- The loop of `mmrm_sw_check_req_level`: whether it stopped at a client at the
aggregate level, and the level of `next_max_entry`. -/
def checkReqLevelLoop (info : SwInfo n) (clkSrcId : Nat) (reqLevel : VddLevel) :
    List (Fin n) → Option VddLevel → Bool × Option VddLevel
  | [], nextMax => (false, nextMax)
  | c :: rest, nextMax =>
    let entry := info.clkClientTbl c
    if entry.active = false ∨ entry.clkSrcId = clkSrcId then
      checkReqLevelLoop info clkSrcId reqLevel rest nextMax
    else if entry.vddLevel = info.aggregLevel then
      (true, nextMax)
    else if entry.vddLevel < info.aggregLevel ∧ reqLevel < entry.vddLevel then
      checkReqLevelLoop info clkSrcId reqLevel rest (some entry.vddLevel)
    else
      checkReqLevelLoop info clkSrcId reqLevel rest nextMax

/-- `mmrm_sw_check_req_level`; levels out of range cannot be requested here. -/
def checkReqLevel (info : SwInfo n) (clkSrcId : Nat) (reqLevel : VddLevel) : VddLevel :=
  if reqLevel < info.aggregLevel then
    match checkReqLevelLoop info clkSrcId reqLevel (List.finRange n) none with
    | (true, _) => info.aggregLevel
    | (false, some nextMax) => if reqLevel < nextMax then nextMax else reqLevel
    | (false, none) => reqLevel
  else
    reqLevel

/-- `mmrm_sw_calculate_total_current`: the sum over the active clients other than the
one that makes the request. -/
def calculateTotalCurrent (info : SwInfo n) (reqLevel : VddLevel) (except : Fin n) : Nat :=
  (List.finRange n).foldl (fun sumCur c =>
    let entry := info.clkClientTbl c
    if entry.active = false ∨ c = except then
      sumCur
    else
      u32 (sumCur + u32 (entry.currentMa entry.vddLevel reqLevel * entry.numHwBlocks))) 0

/-! ## Throttling -/

/-- Outcomes met by `mmrm_sw_throttle_low_priority_client`: the answers of the
notifiers and of `clk_set_rate` for the throttle client of each index, and that of the
allocation of the bookkeeping entry. -/
structure ThrottleEnv where
  notifier : Nat → Int
  setRate : Nat → Int
  alloc : Bool

/-- The current saved by throttling a client, as the driver computes it. -/
def saving (info : SwInfo n) (entry : ClientEntry) : Nat :=
  entry.currentMa entry.vddLevel info.aggregLevel - entry.currentMa .lowSvs info.aggregLevel

/-- A client is passed over when throttling it does not save more than `delta_cur`; the
comparison is made on `u32`. -/
def passedOver (info : SwInfo n) (deltaCur : Int) (entry : ClientEntry) : Bool :=
  decide (entry.currentMa entry.vddLevel info.aggregLevel ≤
      entry.currentMa .lowSvs info.aggregLevel ∨
    saving info entry ≤ u32 deltaCur)

/-- What a throttled client is left with. -/
def ClientEntry.throttled (entry : ClientEntry) : ClientEntry :=
  { entry with clkRate := entry.freq .lowSvs, vddLevel := .lowSvs, reserve := false }

/-- The loop of `mmrm_sw_throttle_low_priority_client` over the throttle clients from
index `i` on, up to the point where it settles on a client. `rc` keeps the answer of
the last client that was asked. -/
def throttleSearch (env : ThrottleEnv) (info : SwInfo n) (deltaCur : Int) :
    Nat → Int → List Nat → Int × Option (Nat × Fin n)
  | _, rc, [] => (rc, none)
  | i, rc, tblEntryId :: rest =>
    if bound : tblEntryId < n then
      let c : Fin n := ⟨tblEntryId, bound⟩
      let entry := info.clkClientTbl c
      if passedOver info deltaCur entry then
        throttleSearch env info deltaCur (i + 1) rc rest
      else
        let rc := if entry.notifierCbFn then env.notifier i else rc
        if rc ≠ 0 then
          throttleSearch env info deltaCur (i + 1) rc rest
        else
          let rc := if entry.reserve = false then env.setRate i else rc
          if rc ≠ 0 then
            throttleSearch env info deltaCur (i + 1) rc rest
          else
            (rc, some (i, c))
    else
      throttleSearch env info deltaCur (i + 1) rc rest

/-- The value returned, `delta_cur` and the state left by the search for a client to
throttle. -/
structure ThrottleResult (n : Nat) where
  rc : Int
  deltaCur : Int
  info : SwInfo n

/-- `mmrm_sw_throttle_low_priority_client`. -/
def throttleLowPriorityClient (env : ThrottleEnv) (info : SwInfo n) (deltaCur : Int) :
    ThrottleResult n :=
  match throttleSearch env info deltaCur 0 0 info.throttleClientsInfo with
  | (rc, none) => ⟨rc, deltaCur, info⟩
  | (rc, some (i, c)) =>
    let entry := info.clkClientTbl c
    let deltaCur := s32 (deltaCur - saving info entry)
    if env.alloc = false then
      ⟨enomem, deltaCur, info⟩
    else
      ⟨rc, deltaCur,
        { info.setEntry c entry.throttled with
          throttledClients :=
            info.throttledClients ++ [⟨i, saving info entry, entry.vddLevel⟩] }⟩

/-- `mmrm_reinstate_throttled_client`: the clients whose current fits again are told,
whatever they answer, and leave the list. -/
def reinstateThrottledClient (info : SwInfo n) : SwInfo n :=
  { info with
    throttledClients := info.throttledClients.filter fun client =>
      decide (info.threshold < u32 (info.aggregVal + client.deltaCuMa)) }

/-! ## Check of a request -/

/-- What decides a request beside its arguments: the clock framework,
`msm_mmrm_enable_throttle_feature`, the outcomes of throttling, and the value returned
by the call that sets the rate. -/
structure SetvalEnv where
  driver : ClkDriver
  enableThrottleFeature : Bool
  throttle : ThrottleEnv
  setRate : Int

/-- `mmrm_sw_check_peak_current`; `clkVal` is a `u32`. -/
def checkPeakCurrent (env : SetvalEnv) (info : SwInfo n) (c : Fin n) (reqLevel : VddLevel)
    (clkVal numHwBlocks : Nat) : Int × SwInfo n :=
  let entry := info.clkClientTbl c
  let adjLevel := checkReqLevel info entry.clkSrcId reqLevel
  let newCur := if clkVal ≠ 0 then u32 (entry.currentMa reqLevel adjLevel * numHwBlocks) else 0
  let oldCur := if entry.clkRate ≠ 0 then
      u32 (entry.currentMa entry.vddLevel info.aggregLevel * entry.numHwBlocks)
    else 0
  let peakCur := if adjLevel ≠ info.aggregLevel then
      u32 (calculateTotalCurrent info adjLevel c + newCur)
    else info.aggregVal
  let deltaCur : Int := if adjLevel ≠ info.aggregLevel then 0 else s32 (newCur - oldCur)
  if s32 (s32 peakCur + deltaCur) ≤ 0 then
    (0, { info with aggregVal := 0, aggregLevel := adjLevel })
  else if info.threshold ≤ u32 (s32 peakCur + deltaCur) then
    if entry.pri = .high ∧ env.enableThrottleFeature then
      let result := throttleLowPriorityClient env.throttle info deltaCur
      if result.rc ≠ 0 then
        (result.rc, result.info)
      else
        (0, reinstateThrottledClient
          { result.info with aggregVal := u32 (peakCur + result.deltaCur), aggregLevel := adjLevel })
    else
      (einval, info)
  else
    (0, reinstateThrottledClient
      { info with aggregVal := u32 (peakCur + deltaCur), aggregLevel := adjLevel })

/-! ## Requests -/

/-- `drv_type` of `struct mmrm_client_data`. -/
inductive CrmDrv
  | swDrv
  | hwDrv
  deriving DecidableEq, Repr

/-- `struct mmrm_client_data`; `reserveOnly` is its `MMRM_CLIENT_DATA_FLAG_RESERVE_ONLY`. -/
structure ClientData where
  numHwBlocks : Nat
  reserveOnly : Bool
  drvType : CrmDrv
  crmDrvIdx : Nat
  pwrSt : Nat
  deriving DecidableEq, Repr

/-- The place of a vote in the table of a CRM client. -/
def crmIdx (entry : ClientEntry) (data : ClientData) : Nat :=
  match data.drvType with
  | .swDrv => entry.crmClientTbl.length - 1
  | .hwDrv => entry.numPwrStates * data.crmDrvIdx + data.pwrSt

/-- The largest vote of a CRM client at an index other than the current maximum, and its
index. -/
def maxOtherVote (entry : ClientEntry) : Nat × Nat :=
  (entry.crmClientTbl.zipIdx).foldl (fun best vote =>
    if vote.2 = entry.maxRateIdx then best
    else if best.1 < vote.1 then (u32 vote.1, vote.2) else best) (0, entry.maxRateIdx)

/-- `mmrm_sw_get_max_crm_rate`: the highest rate voted for, kept in a `u32`, and its
index. -/
def getMaxCrmRate (entry : ClientEntry) (data : ClientData) (newClkVal : Nat) : Nat × Nat :=
  let newValIdx := crmIdx entry data
  if u32 entry.clkRate < newClkVal then
    (u32 newClkVal, newValIdx)
  else if newValIdx = entry.maxRateIdx then
    let best := maxOtherVote entry
    if best.1 ≤ newClkVal then (u32 newClkVal, entry.maxRateIdx) else best
  else
    (u32 entry.clkRate, entry.maxRateIdx)

/-- The rate a request asks the manager to account for, and the index of the highest
vote of a CRM client. -/
def requestRate (entry : ClientEntry) (data : ClientData) (clkVal : Nat) : Nat × Nat :=
  if entry.isCrmClient then getMaxCrmRate entry data clkVal else (clkVal, 0)

/-- The level of a request, or the error that ends it. -/
def requestLevel (platform : Platform n) (driver : ClkDriver) (entry : ClientEntry)
    (data : ClientData) (clkVal : Nat) : Except Int VddLevel :=
  if clkVal ≠ 0 then
    match getReqLevel platform driver (requestRate entry data clkVal).1 with
    | .error _ => .error einval
    | .ok level =>
      if 1 ≤ data.numHwBlocks ∧ data.numHwBlocks ≤ entry.maxNumHwBlocks then .ok level
      else .error einval
  else
    .ok .lowSvs

/-- The entry once a request has been accepted; `rate` is the rate accounted for with
the index of the highest vote. -/
def ClientEntry.commit (entry : ClientEntry) (data : ClientData) (clkVal : Nat)
    (rate : Nat × Nat) (reqLevel : VddLevel) : ClientEntry :=
  let entry :=
    if entry.isCrmClient then
      { entry with
        maxRateIdx := rate.2, clkRate := rate.1
        crmClientTbl := entry.crmClientTbl.set (crmIdx entry data) clkVal }
    else
      { entry with clkRate := rate.1 }
  { entry with vddLevel := reqLevel, reserve := data.reserveOnly, numHwBlocks := data.numHwBlocks }

/-- The end of a request: setting the clock. -/
def setClkRate (env : SetvalEnv) : Int :=
  if env.setRate ≠ 0 then einval else 0

/-- A request that repeats the rate and the blocks of the last one. -/
def ClientEntry.unchanged (entry : ClientEntry) (data : ClientData) (clkVal : Nat) : Bool :=
  decide (entry.clkRate = clkVal ∧ entry.numHwBlocks = data.numHwBlocks) && !entry.isCrmClient

/-- The part of `mmrm_sw_clk_client_setval` that accounts for a new rate. -/
def setvalNew (platform : Platform n) (env : SetvalEnv) (info : SwInfo n) (c : Fin n)
    (data : ClientData) (clkVal : Nat) : Int × SwInfo n :=
  let entry := info.clkClientTbl c
  match requestLevel platform env.driver entry data clkVal with
  | .error rc => (rc, info)
  | .ok reqLevel =>
    let rate := requestRate entry data clkVal
    let checked := checkPeakCurrent env info c reqLevel (u32 rate.1) data.numHwBlocks
    if checked.1 ≠ 0 then
      checked
    else
      let committed := checked.2.setEntry c
        ((checked.2.clkClientTbl c).commit data clkVal rate reqLevel)
      if data.reserveOnly ∧ entry.isCrmClient = false then (0, committed)
      else (setClkRate env, committed)

/-- `mmrm_sw_clk_client_setval`. -/
def clkClientSetval (platform : Platform n) (env : SetvalEnv) (client : Option Nat)
    (clientData : Option ClientData) (clkVal : Nat) (info : SwInfo n) : Int × SwInfo n :=
  match client with
  | none => (einval, info)
  | some uid =>
    if bound : uid < n then
      match clientData with
      | none => (einval, info)
      | some data =>
        let c : Fin n := ⟨uid, bound⟩
        let entry := info.clkClientTbl c
        if entry.clk = false then
          (einval, info)
        else if entry.isCrmClient ∧
            (entry.hwDrvInstances ≤ data.crmDrvIdx ∨ entry.numPwrStates ≤ data.pwrSt) then
          (einval, info)
        else if entry.unchanged data clkVal then
          if entry.reserve = data.reserveOnly then
            (0, info)
          else if data.reserveOnly then
            (0, info.setEntry c { entry with reserve := true })
          else
            (setClkRate env, info.setEntry c { entry with reserve := false })
        else
          setvalNew platform env info c data clkVal
    else
      (einval, info)

end Sm8650.Mmrm
