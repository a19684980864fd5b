import Sm8650.IpaNat.Nati

/-!
# The state machine

`ipa_nat_statemach.c`: the callbacks, the table that selects one by state and
trigger, and the functions of the application interface. A callback may run a
further trigger through the machine before it returns; such triggers are nested
at most three deep.
-/

namespace Sm8650.IpaNat

/-- The memory types that `mem_type_str_to_ipa_nati_state` tells apart; `ddr` is
every string it does not know. -/
inductive MemType
  | hybrid
  | sram
  | ddr
  deriving DecidableEq, Repr

/-- `mem_type_str_to_ipa_nati_state`. -/
def memTypeStrToIpaNatiState : MemType → NatiState
  | .hybrid => .hybrid
  | .sram => .sramOnly
  | .ddr => .ddrOnly

/-- The table that a walk is asked for, with a callback that only reads. -/
inductive WalkRequest
  | useNatTable (walkCb : WalkCallback IpaNatRule Unit)
  | useIndexTable (walkCb : WalkCallback IpaNatIndxTblRule Unit)

/-- `ipa_nati_trigger`, with the arguments that come with it. -/
inductive NatiTrigger
  | null
  | addTable (publicIpAddr : BitVec 32) (numberOfEntries : Nat) (memType : MemType)
  | delTable (tblHdl : TblHdl)
  | clrTable (tblHdl : TblHdl)
  | wlkTable (tblHdl : TblHdl) (request : WalkRequest)
  | tblStats (tblHdl : TblHdl)
  | addRule (tblHdl : TblHdl) (clntRule : IpaNatIpv4Rule)
  | delRule (tblHdl : TblHdl) (ruleHdl : Nat)
  | tblSwitch
  | gotoDdr
  | gotoSram
  | getTstamp (tblHdl : TblHdl) (ruleHdl : Nat)
  | last

namespace Nati

/-- `BACK2_UNSTARTED_STATE`. -/
def back2UnstartedState (nati : Nati) : Nati :=
  { nati with prevState := .null, currState := .null }

/-- `IN_UNSTARTED_STATE`. -/
def inUnstartedState (nati : Nati) : Bool := nati.prevState = .null

/-- `IN_HYBRID_STATE`. -/
def inHybridState (nati : Nati) : Bool :=
  nati.currState = .hybrid || nati.currState = .hybridDdr

/-- `COMPATIBLE_NMI_4SWITCH`. -/
def compatibleNmi4Switch (nati : Nati) : NatMemIn → Bool
  | .sram => nati.currState = .hybridDdr || nati.currState = .sramOnly
  | .ddr => nati.currState = .hybrid || nati.currState = .ddrOnly

/-- `GEN_HOLD_STATE`. -/
def genHoldState (nati : Nati) : NatiState :=
  if nati.inHybridState = false then nati.currState
  else if nati.currState = .hybrid then .sramOnly
  else .ddrOnly

/-- `CHOOSE_MEM_SUB`. -/
def chooseMemSub (nati : Nati) : NatMemIn :=
  if nati.currState = .hybrid then .sram else .ddr

/-- The handle that the callbacks of the hybrid states use for the caller's. -/
def hybridTblHdl (nati : Nati) (tblHdl : TblHdl) : TblHdl :=
  if nati.currState = .hybrid then tblHdl else nati.ddrTblHdl

/-- The handle of the table in a memory type. -/
def memTblHdl (nati : Nati) : NatMemIn → TblHdl
  | .ddr => nati.ddrTblHdl
  | .sram => nati.sramTblHdl

/-- `VOTE_REQUIRED`. -/
def voteRequired (nati : Nati) (trigger : NatiTrigger) : Bool :=
  match trigger with
  | .getTstamp _ _ => false
  | .addTable _ _ _ => false
  | .gotoSram => true
  | .tblSwitch => true
  | _ => nati.currState = .sramOnly || nati.currState = .hybrid

/-- `ipa_nat_vote_clock`. -/
def voteClock (kernel : Kernel) (nati : Nati) : NatiResult :=
  let voted := nati.drvi.ipaNatiVoteClock kernel
  (voted.1, { nati with drvi := voted.2 })

/-- The switch statistics of a memory type with one switch more. -/
def countSwitch (nati : Nati) (sub : NatMemIn) (passed : Bool) : Nati :=
  let stats := nati.swStats sub
  let counted : NatiSwitchStats :=
    if passed then { stats with pass := stats.pass + 1 }
    else { stats with fail := stats.fail + 1 }
  { nati with swStats := Function.update nati.swStats sub counted }

end Nati

/-! ## Callbacks -/

/-- `ipa_nati_statemach` as a callback sees it. -/
abbrev Statemach := NatiTrigger → Nati → NatiResult

/-- `_smUndef`. -/
def smUndef (nati : Nati) : NatiResult := (.error .unspecified, nati)

/-- `_smDelTbl`. -/
def smDelTbl (kernel : Kernel) (tblHdl : TblHdl) (nati : Nati) : NatiResult :=
  let deleted := nati.drvi.ipaNATIDelIpv4Table kernel tblHdl
  let after := { nati with drvi := deleted.2 }
  match deleted.1 with
  | .error errno => (.error errno, after)
  | .ok _ => (.ok (), if after.inHybridState then after else after.back2UnstartedState)

/-- `_smFirstTbl`. -/
def smFirstTbl (statemach : Statemach) (publicIpAddr : BitVec 32) (numberOfEntries : Nat)
    (memType : MemType) (nati : Nati) : NatiResult :=
  statemach (.addTable publicIpAddr numberOfEntries memType)
    (nati.setState
      (if nati.holdState && nati.stateToHold ≠ .null then nati.stateToHold
        else memTypeStrToIpaNatiState memType))

/-- `_smAddDdrTbl`. -/
def smAddDdrTbl (kernel : Kernel) (publicIpAddr : BitVec 32) (numberOfEntries : Nat)
    (nati : Nati) : NatiResult :=
  let added := nati.drvi.ipaNATIAddIpv4Tbl kernel .ddr publicIpAddr numberOfEntries
  match added.1 with
  | .error errno => (.error errno, { nati with drvi := added.2, ddrTblHdl := none })
  | .ok nmi =>
    (.ok (), { nati with
      drvi := added.2
      ddrTblHdl := some nmi
      out := { nati.out with tblHdl := some nmi } })

/-- The bytes of an SRAM table and its index table. -/
def sramTableSize (tot : Nat) : Nat :=
  36 * ((calculatedEntries tot .sram).1 + (calculatedEntries tot .sram).2)

/-- The loop of `ipa_calc_num_sram_table_entries`. -/
def calcNumSramLoop (sramSize : Nat) : Nat → Nat → Nat → Nat
  | 0, _, numEntries => numEntries
  | rounds + 1, tot, numEntries =>
    if sramSize < sramTableSize tot then numEntries
    else calcNumSramLoop sramSize rounds (tot + 1) tot

/-- `ipa_calc_num_sram_table_entries`; 0 is its failure. A table of `tot` entries
has more than `tot` bytes. -/
def ipaCalcNumSramTableEntries (sramSize : Nat) : Nat :=
  calcNumSramLoop sramSize (sramSize + 1) 1 0

/-- `_smAddSramTbl`. -/
def smAddSramTbl (kernel : Kernel) (publicIpAddr : BitVec 32) (nati : Nati) : NatiResult :=
  let asked := nati.drvi.ipaNatiGetSramSize kernel
  match asked.1 with
  | .error errno => (.error errno, { nati with drvi := asked.2 })
  | .ok sramSize =>
    let totSlotsInSram := ipaCalcNumSramTableEntries sramSize
    if totSlotsInSram = 0 then
      (.error .unspecified, { nati with drvi := asked.2, totSlotsInSram := 0 })
    else
      let voted := { nati with
        drvi := asked.2
        totSlotsInSram := totSlotsInSram
        backToSramThresh := totSlotsInSram / 4 }.voteClock kernel
      match voted.1 with
      | .error errno => (.error errno, voted.2)
      | .ok _ =>
        let added := voted.2.drvi.ipaNATIAddIpv4Tbl kernel .sram publicIpAddr
          totSlotsInSram
        let devoted := ({ voted.2 with drvi := added.2 }.voteClock kernel).2
        match added.1 with
        | .error errno => (.error errno, { devoted with sramTblHdl := none })
        | .ok nmi =>
          (.ok (), { devoted with
            sramTblHdl := some nmi
            out := { devoted.out with tblHdl := some nmi } })

/-- `_smAddSramAndDdrTbl`. -/
def smAddSramAndDdrTbl (kernel : Kernel) (statemach : Statemach) (publicIpAddr : BitVec 32)
    (numberOfEntries : Nat) (nati : Nati) : NatiResult :=
  let sram := smAddSramTbl kernel publicIpAddr ((nati.forgetRules .sram).forgetRules .ddr)
  let ddr := smAddDdrTbl kernel publicIpAddr numberOfEntries sram.2
  match sram.1 with
  | .ok _ =>
    if numberOfEntries ≤ sram.2.totSlotsInSram then
      (.ok (), sram.2.setState .sramOnly)
    else
      -- The caller keeps the handle of the SRAM table.
      let both := { ddr.2 with out := sram.2.out }
      match ddr.1 with
      | .ok _ => statemach .gotoSram both
      | .error errno => (.error errno, both)
  | .error _ =>
    match ddr.1 with
    | .ok _ => (.ok (), ddr.2.setState .ddrOnly)
    | .error errno => (.error errno, ddr.2)

/-- `_smDelSramAndDdrTbl`. -/
def smDelSramAndDdrTbl (kernel : Kernel) (tblHdl : TblHdl) (nati : Nati) : NatiResult :=
  let sram := smDelTbl kernel tblHdl ((nati.forgetRules .sram).forgetRules .ddr)
  match sram.1 with
  | .error errno => (.error errno, sram.2)
  | .ok _ =>
    let ddr := smDelTbl kernel sram.2.ddrTblHdl sram.2
    match ddr.1 with
    | .error errno => (.error errno, ddr.2)
    | .ok _ => (.ok (), ddr.2.back2UnstartedState)

/-- `_smClrTbl`. -/
def smClrTbl (tblHdl : TblHdl) (nati : Nati) : NatiResult :=
  match tblHdl with
  | none => (.error .einval, nati)
  | some nmi =>
    let forgotten := nati.forgetRules nmi
    let cleared := forgotten.drvi.ipaNATIClearIpv4Tbl (some nmi)
    (cleared.1, { forgotten with drvi := cleared.2 })

/-- `_smClrTblHybrid`. -/
def smClrTblHybrid (tblHdl : TblHdl) (nati : Nati) : NatiResult :=
  smClrTbl (nati.hybridTblHdl tblHdl) nati

/-- A walk over one of the two tables. -/
def walkTable {ρ υ : Type} [EntryInterface ρ υ] (table : IpaTable ρ)
    (walkCb : WalkCallback ρ Unit) : Except Errno Unit :=
  (ipaTableWalk table 0 .slotFilled walkCb ()).1.ret

/-- `_smWalkTbl`. -/
def smWalkTbl (tblHdl : TblHdl) (request : WalkRequest) (nati : Nati) : NatiResult :=
  match nati.drvi.startedCache tblHdl with
  | .error errno => (.error errno, nati)
  | .ok nmi =>
    match nati.drvi.natTable? nmi with
    | none => (.error .einval, nati)
    | some natTable =>
      match request with
      | .useNatTable walkCb => (walkTable natTable.table walkCb, nati)
      | .useIndexTable walkCb => (walkTable natTable.indexTable walkCb, nati)

/-- `_smWalkTblHybrid`. -/
def smWalkTblHybrid (tblHdl : TblHdl) (request : WalkRequest) (nati : Nati) : NatiResult :=
  smWalkTbl (nati.hybridTblHdl tblHdl) request nati

/-- `gen_chain_stats` as far as it decides how the walk goes on. -/
def genChainStats {ρ : Type} : WalkCallback ρ Unit :=
  fun _ ruleHdl _ recordIndex =>
    if ruleHdl % 2 = 1 then (.positive recordIndex, ()) else (.zero, ())

/-- Whether a walk failed; a positive result does not count. -/
def WalkResult.failed : WalkResult → Bool
  | .negative _ => true
  | _ => false

/-- `_smStatTbl`. -/
def smStatTbl (tblHdl : TblHdl) (nati : Nati) : NatiResult :=
  match nati.drvi.startedCache tblHdl with
  | .error errno => (.error errno, nati)
  | .ok nmi =>
    match nati.drvi.natTable? nmi with
    | none => (.error .einval, nati)
    | some natTable =>
      if (ipaTableWalk natTable.table 0 .slotFilled genChainStats ()).1.failed ||
          (ipaTableWalk natTable.indexTable 0 .slotFilled genChainStats ()).1.failed then
        (.error .einval, nati)
      else
        (.ok (), nati)

/-- `_smStatTblHybrid`. -/
def smStatTblHybrid (tblHdl : TblHdl) (nati : Nati) : NatiResult :=
  smStatTbl (nati.hybridTblHdl tblHdl) nati

/-- The client's rule as `_smAddRuleToTbl` passes it on. -/
def IpaNatIpv4Rule.fresh (clntRule : IpaNatIpv4Rule) : IpaNatIpv4Rule :=
  { clntRule with redirect := 0, enable := 0, timeStamp := 0 }

/-- `_smAddRuleToTbl`. The caller's handle is zeroed unless the table handle was
bad. -/
def smAddRuleToTbl (kernel : Kernel) (tblHdl : TblHdl) (clntRule : IpaNatIpv4Rule)
    (nati : Nati) : NatiResult :=
  let added := nati.drvi.addIpv4Rule kernel tblHdl clntRule.fresh
  match added.1 with
  | .error errno =>
    (.error errno, { nati with
      drvi := added.2
      out := if tblHdl = none then nati.out else { nati.out with ruleHdl := 0 } })
  | .ok ruleHdl =>
    (.ok (), { nati with
      drvi := added.2
      out := { nati.out with ruleHdl := ruleHdl } }.setCounter nati.chooseMemSub
        (nati.totRulesInTable nati.chooseMemSub + 1))

/-- `_smDelRuleFromTbl`. -/
def smDelRuleFromTbl (kernel : Kernel) (tblHdl : TblHdl) (ruleHdl : Nat) (nati : Nati) :
    NatiResult :=
  let deleted := nati.drvi.delIpv4Rule kernel tblHdl ruleHdl
  match deleted.1 with
  | .error errno => (.error errno, { nati with drvi := deleted.2 })
  | .ok _ =>
    (.ok (), { nati with drvi := deleted.2 }.setCounter nati.chooseMemSub
      (nati.totRulesInTable nati.chooseMemSub - 1))

/-- `_smAddRuleHybrid`. -/
def smAddRuleHybrid (kernel : Kernel) (statemach : Statemach) (tblHdl : TblHdl)
    (clntRule : IpaNatIpv4Rule) (nati : Nati) : NatiResult :=
  let added := smAddRuleToTbl kernel (nati.hybridTblHdl tblHdl) clntRule nati
  match added.1 with
  | .ok _ => added.2.mapRule added.2.chooseMemSub added.2.out.ruleHdl added.2.out.ruleHdl
  | .error errno =>
    if added.2.currState = .hybrid ∧ added.2.holdState = false then
      let switched := statemach .tblSwitch added.2
      match switched.1 with
      | .error errno => (.error errno, switched.2)
      | .ok _ => statemach (.addRule tblHdl clntRule) (switched.2.setState .hybridDdr)
    else
      (.error errno, added.2)

/-- Takes a rule out of both maps. -/
def Nati.unmapRule (nati : Nati) (sub : NatMemIn) (origRuleHdl newRuleHdl : Nat) : Nati :=
  nati.setMaps sub
    ⟨(ipaNatMapDel (nati.mapPairs sub).orig2new origRuleHdl).2,
      (ipaNatMapDel (nati.mapPairs sub).new2orig newRuleHdl).2⟩

/-- Whether `_smDelRuleHybrid` goes back to SRAM. -/
def Nati.backToSram (nati : Nati) : Bool :=
  nati.currState = .hybridDdr &&
    (nati.totRulesInTable nati.chooseMemSub).toNat ≤ nati.backToSramThresh &&
    nati.holdState = false

/-- `_smDelRuleHybrid`. -/
def smDelRuleHybrid (kernel : Kernel) (statemach : Statemach) (tblHdl : TblHdl)
    (origRuleHdl : Nat) (nati : Nati) : NatiResult :=
  let sub := nati.chooseMemSub
  match (ipaNatMapDel (nati.mapPairs sub).orig2new origRuleHdl).1 with
  | .error errno => (.error errno, nati)
  | .ok newRuleHdl =>
    let deleted := smDelRuleFromTbl kernel (nati.hybridTblHdl tblHdl) newRuleHdl
      (nati.unmapRule sub origRuleHdl newRuleHdl)
    match deleted.1 with
    | .error errno => (.error errno, deleted.2)
    | .ok _ =>
      if deleted.2.backToSram then
        let switched := statemach .tblSwitch deleted.2
        match switched.1 with
        | .ok _ => (.ok (), switched.2.setState .hybrid)
        | .error _ => (.ok (), switched.2)
      else
        (.ok (), deleted.2)

/-- The two callbacks that move the focus of the hardware. -/
def smGoTo (kernel : Kernel) (nmi : NatMemIn) (state : NatiState) (nati : Nati) :
    NatiResult :=
  let posted := nati.drvi.ipaNATIPostIpv4InitCmd kernel (nati.memTblHdl nmi)
  let after := { nati with drvi := posted.2 }
  match posted.1 with
  | .error errno => (.error errno, after)
  | .ok _ => (.ok (), after.setState state)

/-- `_smGoToDdr`. -/
def smGoToDdr (kernel : Kernel) : Nati → NatiResult := smGoTo kernel .ddr .hybridDdr

/-- `_smGoToSram`. -/
def smGoToSram (kernel : Kernel) : Nati → NatiResult := smGoTo kernel .sram .hybrid

/-- The two callbacks that switch the memory type. -/
def smSwitch (kernel : Kernel) (statemach : Statemach) (src : NatMemIn) (goTo : NatiTrigger)
    (nati : Nati) : NatiResult :=
  let gone := statemach goTo nati
  match gone.1 with
  | .error errno => (.error errno, gone.2)
  | .ok _ =>
    let forgotten := gone.2.forgetRules src.other
    let copied := ipaNatiCopyIpv4Tbl kernel forgotten (forgotten.memTblHdl src)
      (forgotten.memTblHdl src.other)
    (copied.1, copied.2.countSwitch nati.chooseMemSub copied.1.isOk)

/-- `_smSwitchFromDdrToSram`. -/
def smSwitchFromDdrToSram (kernel : Kernel) (statemach : Statemach) : Nati → NatiResult :=
  smSwitch kernel statemach .ddr .gotoSram

/-- `_smSwitchFromSramToDdr`. -/
def smSwitchFromSramToDdr (kernel : Kernel) (statemach : Statemach) : Nati → NatiResult :=
  smSwitch kernel statemach .sram .gotoDdr

/-- `_smGetTmStmp`. -/
def smGetTmStmp (tblHdl : TblHdl) (ruleHdl : Nat) (nati : Nati) : NatiResult :=
  match nati.drvi.queryTimestamp tblHdl ruleHdl with
  | .error errno => (.error errno, nati)
  | .ok timeStamp => (.ok (), { nati with out := { nati.out with timeStamp := timeStamp } })

/-- `_smGetTmStmpHybrid`. -/
def smGetTmStmpHybrid (tblHdl : TblHdl) (origRuleHdl : Nat) (nati : Nati) : NatiResult :=
  match ipaNatMapFind (nati.mapPairs nati.chooseMemSub).orig2new origRuleHdl with
  | .error errno => (.error errno, nati)
  | .ok newRuleHdl => smGetTmStmp (nati.hybridTblHdl tblHdl) newRuleHdl nati

/-! ## The table -/

/-- `_state_mach_tbl`. -/
def stateMachTbl (kernel : Kernel) (statemach : Statemach) (state : NatiState)
    (trigger : NatiTrigger) : Nati → NatiResult :=
  match state, trigger with
  | .null, .addTable publicIpAddr numberOfEntries memType =>
    smFirstTbl statemach publicIpAddr numberOfEntries memType
  | .ddrOnly, .addTable publicIpAddr numberOfEntries _ =>
    smAddDdrTbl kernel publicIpAddr numberOfEntries
  | .sramOnly, .addTable publicIpAddr _ _ => smAddSramTbl kernel publicIpAddr
  | .hybrid, .addTable publicIpAddr numberOfEntries _ =>
    smAddSramAndDdrTbl kernel statemach publicIpAddr numberOfEntries
  | .ddrOnly, .delTable tblHdl => smDelTbl kernel tblHdl
  | .sramOnly, .delTable tblHdl => smDelTbl kernel tblHdl
  | .hybrid, .delTable tblHdl => smDelSramAndDdrTbl kernel tblHdl
  | .hybridDdr, .delTable tblHdl => smDelSramAndDdrTbl kernel tblHdl
  | .ddrOnly, .clrTable tblHdl => smClrTbl tblHdl
  | .sramOnly, .clrTable tblHdl => smClrTbl tblHdl
  | .hybrid, .clrTable tblHdl => smClrTblHybrid tblHdl
  | .hybridDdr, .clrTable tblHdl => smClrTblHybrid tblHdl
  | .ddrOnly, .wlkTable tblHdl request => smWalkTbl tblHdl request
  | .sramOnly, .wlkTable tblHdl request => smWalkTbl tblHdl request
  | .hybrid, .wlkTable tblHdl request => smWalkTblHybrid tblHdl request
  | .hybridDdr, .wlkTable tblHdl request => smWalkTblHybrid tblHdl request
  | .ddrOnly, .tblStats tblHdl => smStatTbl tblHdl
  | .sramOnly, .tblStats tblHdl => smStatTbl tblHdl
  | .hybrid, .tblStats tblHdl => smStatTblHybrid tblHdl
  | .hybridDdr, .tblStats tblHdl => smStatTblHybrid tblHdl
  | .ddrOnly, .addRule tblHdl clntRule => smAddRuleToTbl kernel tblHdl clntRule
  | .sramOnly, .addRule tblHdl clntRule => smAddRuleToTbl kernel tblHdl clntRule
  | .hybrid, .addRule tblHdl clntRule => smAddRuleHybrid kernel statemach tblHdl clntRule
  | .hybridDdr, .addRule tblHdl clntRule => smAddRuleHybrid kernel statemach tblHdl clntRule
  | .ddrOnly, .delRule tblHdl ruleHdl => smDelRuleFromTbl kernel tblHdl ruleHdl
  | .sramOnly, .delRule tblHdl ruleHdl => smDelRuleFromTbl kernel tblHdl ruleHdl
  | .hybrid, .delRule tblHdl ruleHdl => smDelRuleHybrid kernel statemach tblHdl ruleHdl
  | .hybridDdr, .delRule tblHdl ruleHdl => smDelRuleHybrid kernel statemach tblHdl ruleHdl
  | .hybrid, .tblSwitch => smSwitchFromSramToDdr kernel statemach
  | .hybridDdr, .tblSwitch => smSwitchFromDdrToSram kernel statemach
  | .hybrid, .gotoDdr => smGoToDdr kernel
  | .hybridDdr, .gotoDdr => smGoToDdr kernel
  | .hybrid, .gotoSram => smGoToSram kernel
  | .hybridDdr, .gotoSram => smGoToSram kernel
  | .ddrOnly, .getTstamp tblHdl ruleHdl => smGetTmStmp tblHdl ruleHdl
  | .sramOnly, .getTstamp tblHdl ruleHdl => smGetTmStmp tblHdl ruleHdl
  | .hybrid, .getTstamp tblHdl ruleHdl => smGetTmStmpHybrid tblHdl ruleHdl
  | .hybridDdr, .getTstamp tblHdl ruleHdl => smGetTmStmpHybrid tblHdl ruleHdl
  | _, _ => smUndef

/-- `give_mutex`. The mutex is recursive and held, so giving it back succeeds. -/
def giveMutex : Except Errno Unit := .ok ()

/-- The body of `ipa_nati_statemach` around a callback. -/
def runCallback (kernel : Kernel) (vote : Bool) (smCb : Nati → NatiResult) (nati : Nati) :
    NatiResult :=
  if vote then
    let voted := nati.voteClock kernel
    match voted.1 with
    | .error _ => (giveMutex, voted.2)
    | .ok _ => (giveMutex, ((smCb voted.2).2.voteClock kernel).2)
  else
    (giveMutex, (smCb nati).2)

/-- `ipa_nati_statemach`, for triggers nested at most `depth` deep. -/
def statemachAt (kernel : Kernel) : Nat → Statemach
  | 0, _, nati => smUndef nati
  | depth + 1, trigger, nati =>
    runCallback kernel (nati.voteRequired trigger)
      (stateMachTbl kernel (statemachAt kernel depth) nati.currState trigger) nati

/-- `ipa_nati_statemach`. -/
def ipaNatiStatemach (kernel : Kernel) : Statemach := statemachAt kernel 3

/-! ## The application interface -/

/-- `ipa_nat_switch_to`. -/
def ipaNatSwitchTo (kernel : Kernel) (nmi : NatMemIn) (holdState : Bool) (nati : Nati) :
    NatiResult :=
  if nati.inUnstartedState then
    (giveMutex, { nati with
      holdState := holdState
      stateToHold := match nmi with
        | .ddr => .ddrOnly
        | .sram => .sramOnly })
  else if nati.inHybridState then
    let switched : NatiResult :=
      if nati.compatibleNmi4Switch nmi then ipaNatiStatemach kernel .tblSwitch nati
      else (.ok (), nati)
    match switched.1 with
    | .error _ => (giveMutex, switched.2)
    | .ok _ =>
      (giveMutex, { switched.2 with
        holdState := holdState
        stateToHold := if holdState then switched.2.genHoldState
          else switched.2.stateToHold })
  else if holdState then
    if nati.compatibleNmi4Switch nmi then
      (giveMutex, { nati with stateToHold := nati.genHoldState, holdState := holdState })
    else
      (giveMutex, nati)
  else
    (giveMutex, { nati with stateToHold := .null, holdState := holdState })

/-- `ipa_nati_add_ipv4_tbl`. -/
def ipaNatiAddIpv4Tbl (kernel : Kernel) (publicIpAddr : BitVec 32) (memType : MemType)
    (numberOfEntries : Nat) : Nati → NatiResult :=
  ipaNatiStatemach kernel (.addTable publicIpAddr numberOfEntries memType)

/-- `ipa_nati_add_ipv4_rule`. -/
def ipaNatiAddIpv4Rule (kernel : Kernel) (tblHdl : TblHdl) (clntRule : IpaNatIpv4Rule) :
    Nati → NatiResult :=
  ipaNatiStatemach kernel (.addRule tblHdl clntRule)

/-- `ipa_nati_del_ipv4_rule`. -/
def ipaNatiDelIpv4Rule (kernel : Kernel) (tblHdl : TblHdl) (ruleHdl : Nat) : Nati → NatiResult :=
  ipaNatiStatemach kernel (.delRule tblHdl ruleHdl)

/-- `ipa_nati_query_timestamp`. -/
def ipaNatiQueryTimestamp (kernel : Kernel) (tblHdl : TblHdl) (ruleHdl : Nat) : Nati → NatiResult :=
  ipaNatiStatemach kernel (.getTstamp tblHdl ruleHdl)

end Sm8650.IpaNat
