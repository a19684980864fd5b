import Mathlib.Data.BitVec

/-!
# Clock clients of the multimedia resource manager

The software clock manager keeps a table of the clock sources of the platform. A
client registers for one of them; its entry then holds the current drawn by the
source at every pair of voltage levels, and the rate, level and number of hardware
blocks of the last accepted request.

Sources: `mmrm_clk_rsrc_mgr_sw.c`, `mmrm_clk_rsrc_mgr.h` and `mmrm_fixedpoint.h`.
-/

namespace Sm8650.Mmrm

/-- The `u32` that a value is stored as. -/
def u32 (value : Int) : Nat :=
  (value % 4294967296).toNat

/-- The `int` that a value is stored as. -/
def s32 (value : Int) : Int :=
  if u32 value < 2147483648 then u32 value else u32 value - 4294967296

/-- `-EINVAL`. -/
def einval : Int := -22

/-- `-ENOMEM`. -/
def enomem : Int := -12

/-- `enum mmrm_sw_vdd_levels`, without the count `MMRM_VDD_LEVEL_MAX`. -/
inductive VddLevel
  | lowSvs
  | svs
  | svsL1
  | nom
  | turbo
  deriving DecidableEq, Repr

namespace VddLevel

/-- The value of a level, which is its index in the tables. -/
def index : VddLevel → Nat
  | lowSvs => 0
  | svs => 1
  | svsL1 => 2
  | nom => 3
  | turbo => 4

/-- The levels in the order in which the loops of the source visit them. -/
def all : List VddLevel := [lowSvs, svs, svsL1, nom, turbo]

instance : LT VddLevel := ⟨fun first second => first.index < second.index⟩

instance (first second : VddLevel) : Decidable (first < second) :=
  inferInstanceAs (Decidable (first.index < second.index))

end VddLevel

/-- `enum mmrm_client_priority`, with the value 0 of an entry without a client. -/
inductive ClientPriority
  | unset
  | high
  | low
  deriving DecidableEq, Repr

/-- What the driver looks at in `struct mmrm_sw_clk_client_tbl_entry`. `clk` and
`client` say whether the pointers are usable, `notifierCbFn` whether the client gave a
callback; `crmClientTbl` is empty where the pointer is null. -/
structure ClientEntry where
  clk : Bool
  pri : ClientPriority
  notifierCbFn : Bool
  clkSrcId : Nat
  maxNumHwBlocks : Nat
  freq : VddLevel → Nat
  currentMa : VddLevel → VddLevel → Nat
  client : Bool
  clkRate : Nat
  vddLevel : VddLevel
  reserve : Bool
  refCount : Nat
  numHwBlocks : Nat
  isCrmClient : Bool
  hwDrvInstances : Nat
  numPwrStates : Nat
  maxRateIdx : Nat
  crmClientTbl : List Nat

/-- `struct mmrm_sw_throttled_clients_data`. -/
structure ThrottledClient where
  tableId : Nat
  deltaCuMa : Nat
  prevVddLevel : VddLevel
  deriving DecidableEq, Repr

/-- `struct mmrm_sw_clk_mgr_info` for a platform with `n` clock sources, together with
its `peak_cur_data`. `throttleClientsInfo` lists the `tbl_entry_id` of the clients that
may be throttled. -/
structure SwInfo (n : Nat) where
  clkClientTbl : Fin n → ClientEntry
  throttleClientsInfo : List Nat
  throttledClients : List ThrottledClient
  threshold : Nat
  aggregVal : Nat
  aggregLevel : VddLevel

/-- The table with the entry of `c` replaced. -/
def SwInfo.setEntry {n : Nat} (info : SwInfo n) (c : Fin n) (entry : ClientEntry) : SwInfo n :=
  { info with clkClientTbl := Function.update info.clkClientTbl c entry }

/-! ## Platform data -/

/-- `struct nom_clk_src_info`. -/
structure NomClkSrc where
  domain : Nat
  clkSrcId : Nat
  nomDynPwr : Nat
  nomLeakPwr : Nat
  numHwBlock : Nat

/-- The factors of a voltage corner, in `Q16` format. -/
structure Corner where
  scalingFactorDyn : Nat
  scalingFactorLeak : Nat
  voltFactor : Nat

/-- `struct mmrm_clk_platform_resources`, with the values of `mmrm_sw_vdd_corner`. -/
structure Platform (n : Nat) where
  nomClkSet : Fin n → NomClkSrc
  cornerTbl : VddLevel → Corner
  vddCorner : VddLevel → Int
  peakThreshold : Nat
  clsidThresholdClients : List Nat

/-- `domain << 16 | id` on `u32`. -/
def clkSrcId (domain id : Nat) : Nat :=
  u32 (((domain <<< 16) ||| id : Nat) : Int)

/-- An entry of the table allocated by `mmrm_init_sw_clk_mgr` and filled in by
`mmrm_sw_prepare_table`. -/
def prepareEntry (source : NomClkSrc) : ClientEntry where
  clk := false
  pri := .unset
  notifierCbFn := false
  clkSrcId := clkSrcId source.domain source.clkSrcId
  maxNumHwBlocks := source.numHwBlock
  freq := fun _ => 0
  currentMa := fun _ _ => 0
  client := false
  clkRate := 0
  vddLevel := .lowSvs
  reserve := false
  refCount := 0
  numHwBlocks := 0
  isCrmClient := false
  hwDrvInstances := 0
  numPwrStates := 0
  maxRateIdx := 0
  crmClientTbl := []

/-- The first entry with a given clock source. -/
def findSource {n : Nat} (tbl : Fin n → ClientEntry) (id : Nat) : Option (Fin n) :=
  (List.finRange n).find? fun c => id == (tbl c).clkSrcId

/-- `mmrm_init_sw_clk_mgr`. A throttle client that is not in the table keeps the index
0 of the zeroed structure. -/
def initSwClkMgr {n : Nat} (platform : Platform n) : SwInfo n :=
  let tbl := fun c => prepareEntry (platform.nomClkSet c)
  { clkClientTbl := tbl
    throttleClientsInfo := platform.clsidThresholdClients.map fun csid =>
      match findSource tbl csid with
      | some j => j.val
      | none => 0
    throttledClients := []
    threshold := platform.peakThreshold
    aggregVal := 0
    aggregLevel := .lowSvs }

/-! ## Fixed-point arithmetic -/

/-- `fp_t` is a `size_t` with 16 fractional bits. -/
def fpWrap (value : Nat) : Nat :=
  value % 2 ^ 64

/-- `FP(Q16_INT(q), Q16_FRAC(q), 100)`. -/
def fpOfQ16 (q : Nat) : Nat :=
  fpWrap ((q >>> 16) <<< 16 + ((((q &&& 0xFFFF) * 100) >>> 16) <<< 16) / 100)

/-- `fp_mult`. -/
def fpMult (first second : Nat) : Nat :=
  fpWrap (first * second) >>> 16

/-- `fp_div`. -/
def fpDiv (first second : Nat) : Nat :=
  fpWrap (first <<< 16) / second

/-- `fp_round`. -/
def fpRound (value : Nat) : Nat :=
  (value >>> 16) + (if 0xFFFF / 2 ≤ (value &&& 0xFFFF) then 1 else 0)

/-! ## Registration -/

/-- The answers of the clock framework during a call: `clk_round_rate` and
`qcom_clk_get_voltage` of the clock the call is about. -/
structure ClkDriver where
  roundRate : Nat → Int
  getVoltage : Int → Int

/-- `CLK_RATE_STEP`. -/
def clkRateStep : Int := 1000000

/-- The first level at which the corner is `voltageCorner`. -/
def matchLevel {n : Nat} (platform : Platform n) (voltageCorner : Int) : Option VddLevel :=
  VddLevel.all.find? fun level => voltageCorner == platform.vddCorner level

/-- The rounds of the loop of `mmrm_sw_update_freq` over the rates. -/
def updateFreqLoop {n : Nat} (platform : Platform n) (driver : ClkDriver) (clkValMax : Int) :
    Nat → Int → Int → (VddLevel → Nat) → VddLevel → Nat
  | 0, _, _, freq => freq
  | rounds + 1, clkVal, clkValMin, freq =>
    if clkVal < clkValMax then
      let clkValRound := driver.roundRate (clkVal % 2 ^ 64).toNat
      if clkValMin < clkValRound then
        let corner := driver.getVoltage clkValRound
        if corner < 0 ∨ platform.vddCorner .turbo < corner then
          freq
        else
          let corner := max corner (platform.vddCorner .lowSvs)
          let freq := match matchLevel platform corner with
            | some first => fun level =>
              if level < first then freq level else (clkValRound % 2 ^ 64).toNat
            | none => freq
          updateFreqLoop platform driver clkValMax rounds (clkVal + clkRateStep) clkValRound freq
      else
        updateFreqLoop platform driver clkValMax rounds (clkVal + clkRateStep) clkValMin freq
    else
      freq

/-- `mmrm_sw_update_freq`; the loop runs at most once for each step between the lowest
and the highest rate. -/
def updateFreq {n : Nat} (platform : Platform n) (driver : ClkDriver) : VddLevel → Nat :=
  let clkValMin := driver.roundRate 1
  let clkValMax := driver.roundRate (2 ^ 64 - 1)
  updateFreqLoop platform driver clkValMax ((clkValMax - clkValMin) / clkRateStep + 1).toNat
    clkValMin clkValMin (fun _ => (clkValMin % 2 ^ 64).toNat)

/-- The entry of `current_ma` computed by `mmrm_sw_update_curr` from the nominal powers
of the source and the frequencies of the client. -/
def currentEntry {n : Nat} (platform : Platform n) (source : NomClkSrc)
    (freq : VddLevel → Nat) (level volt : VddLevel) : Nat :=
  let dynSc := fpOfQ16 (platform.cornerTbl level).scalingFactorDyn
  let leakSc := fpOfQ16 (platform.cornerTbl level).scalingFactorLeak
  let pwrMw := fpDiv (fpMult (fpOfQ16 source.nomDynPwr) (freq level)) (freq .nom)
  let dynPwr := fpMult pwrMw dynSc
  let leakPwr := fpMult (fpOfQ16 source.nomLeakPwr) leakSc
  u32 (fpRound (fpDiv (fpWrap (dynPwr + leakPwr)) (fpOfQ16 (platform.cornerTbl volt).voltFactor)))

/-- `struct mmrm_clk_client_desc` with the other arguments of a registration. -/
structure ClientDesc where
  clientDomain : Nat
  clientId : Nat
  clk : Bool
  hwDrvInstances : Nat
  numPwrStates : Nat
  priority : ClientPriority
  notFnCb : Bool

/-- What decides a registration beside its arguments: `msm_mmrm_allow_multiple_register`
and the outcomes of the two allocations. -/
structure RegisterEnv where
  driver : ClkDriver
  allowMultipleRegister : Bool
  clientAlloc : Bool
  crmTblAlloc : Bool

/-- The fields cleared when a registration fails. -/
def ClientEntry.forget (entry : ClientEntry) : ClientEntry :=
  { entry with client := false, clk := false, pri := .unset, notifierCbFn := false }

/-- The fields cleared when the CRM data of a client goes. -/
def ClientEntry.forgetCrm (entry : ClientEntry) : ClientEntry :=
  { entry with
    isCrmClient := false, maxRateIdx := 0, hwDrvInstances := 0, numPwrStates := 0,
    crmClientTbl := [] }

/-- The entry once `mmrm_sw_clk_client_register` has copied what the client provides. -/
def ClientEntry.populate (entry : ClientEntry) (desc : ClientDesc) : ClientEntry :=
  { entry with
    refCount := 1, client := true, clk := desc.clk, pri := desc.priority,
    notifierCbFn := desc.notFnCb }

/-- Whether a description is that of a CRM client. -/
def ClientDesc.crm (desc : ClientDesc) : Bool :=
  decide (0 < desc.hwDrvInstances ∧ 0 < desc.numPwrStates)

/-- The entry with the CRM data of the client. -/
def ClientEntry.populateCrm (entry : ClientEntry) (desc : ClientDesc) : ClientEntry :=
  if desc.crm then
    { entry with
      isCrmClient := true, maxRateIdx := 0, hwDrvInstances := desc.hwDrvInstances,
      numPwrStates := desc.numPwrStates,
      crmClientTbl := List.replicate (desc.hwDrvInstances * desc.numPwrStates + 1) 0 }
  else
    entry

/-- `mmrm_sw_clk_client_register`; a client is known by its `client_uid`, the index of
its entry. -/
def clkClientRegister {n : Nat} (platform : Platform n) (env : RegisterEnv) (desc : ClientDesc)
    (info : SwInfo n) : Option (Fin n) × SwInfo n :=
  if n = 0 then (none, info) else
  match findSource info.clkClientTbl (clkSrcId desc.clientDomain desc.clientId) with
  | none => (none, info)
  | some c =>
    let entry := info.clkClientTbl c
    if entry.client then
      if env.allowMultipleRegister then
        (some c, info.setEntry c { entry with refCount := u32 (entry.refCount + 1) })
      else
        (none, info)
    else if env.clientAlloc = false then
      (none, info.setEntry c entry.forget)
    else
      let entry := entry.populate desc
      if 6 < desc.hwDrvInstances ∨ 5 < desc.numPwrStates then
        (none, info.setEntry c entry.forget)
      else if desc.crm ∧ env.crmTblAlloc = false then
        (none, info.setEntry c { entry with crmClientTbl := [] }.forget)
      else
        let entry := entry.populateCrm desc
        let entry := { entry with freq := updateFreq platform env.driver }
        match findSource info.clkClientTbl entry.clkSrcId with
        | none => (none, info.setEntry c entry.forgetCrm.forget)
        | some nominal =>
          let entry :=
            { entry with
              currentMa := currentEntry platform (platform.nomClkSet nominal) entry.freq }
          (some c, info.setEntry c entry)

/-- `mmrm_sw_clk_client_deregister`. -/
def clkClientDeregister {n : Nat} (client : Option Nat) (info : SwInfo n) : Int × SwInfo n :=
  match client with
  | none => (einval, info)
  | some uid =>
    if bound : uid < n then
      let c : Fin n := ⟨uid, bound⟩
      let entry := info.clkClientTbl c
      let entry := { entry with refCount := entry.refCount - 1 }
      if entry.refCount = 0 then
        (0, info.setEntry c
          { entry.forget.forgetCrm with vddLevel := .lowSvs, clkRate := 0 })
      else
        (0, info.setEntry c entry)
    else
      (einval, info)

/-! ## Level lookup -/

/-- `mmrm_sw_get_req_level`. -/
def getReqLevel {n : Nat} (platform : Platform n) (driver : ClkDriver) (clkVal : Nat) :
    Except Int VddLevel :=
  let clkRoundVal := driver.roundRate clkVal
  let voltageCorner := driver.getVoltage clkRoundVal
  if voltageCorner < 0 ∨ platform.vddCorner .turbo < voltageCorner then
    .error voltageCorner
  else if voltageCorner < platform.vddCorner .lowSvs then
    .ok .lowSvs
  else
    match matchLevel platform voltageCorner with
    | none => .error einval
    | some level => .ok level

end Sm8650.Mmrm
