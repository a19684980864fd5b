import Sm8650.IpaNat.Cache

/-!
# The nati object and the copy between memory types

The object of `ipa_nat_statemach.c` with its two pairs of rule maps, and the
migration of all rules from one memory type to the other. A rule keeps the
handle that the application got for it; the maps translate between that handle
and the one of the record that holds the rule now.
-/

namespace Sm8650.IpaNat

open Function

/-- `ipa_nati_state`. -/
inductive NatiState
  | null
  | ddrOnly
  | sramOnly
  | hybrid
  | hybridDdr
  deriving DecidableEq, Repr

/-- The memory type that the other half of a hybrid table is in. -/
def NatMemIn.other : NatMemIn → NatMemIn
  | .ddr => .sram
  | .sram => .ddr

/-! ## Rule maps -/

/-- A `std::map<uint32_t, uint32_t>` of `ipa_nat_map.cpp`. -/
abbrev RuleMap := Nat → Option Nat

/-- `ipa_nat_map_add`, which refuses a key that is there. -/
def ipaNatMapAdd (map : RuleMap) (key val : Nat) : Except Errno Unit × RuleMap :=
  match map key with
  | none => (.ok (), update map key (some val))
  | some _ => (.error .unspecified, map)

/-- `ipa_nat_map_find`. -/
def ipaNatMapFind (map : RuleMap) (key : Nat) : Except Errno Nat :=
  match map key with
  | none => .error .unspecified
  | some val => .ok val

/-- `ipa_nat_map_del`. -/
def ipaNatMapDel (map : RuleMap) (key : Nat) : Except Errno Nat × RuleMap :=
  match map key with
  | none => (.error .unspecified, map)
  | some val => (.ok val, update map key none)

/-- `nati_map_pair`. -/
structure NatiMapPair where
  orig2new : RuleMap
  new2orig : RuleMap

/-- Both maps after `ipa_nat_map_clear`. -/
def NatiMapPair.cleared : NatiMapPair where
  orig2new := fun _ => none
  new2orig := fun _ => none

/-! ## The object -/

/-- `nati_switch_stats`. -/
structure NatiSwitchStats where
  pass : BitVec 32
  fail : BitVec 32
  deriving DecidableEq

/-- The variables that the pointers among the arguments of a call point to. -/
structure NatiOut where
  tblHdl : TblHdl
  ruleHdl : Nat
  timeStamp : BitVec 24

/-- `ipa_nati_obj`, with the static data of the driver below it and the
variables of the call under way. -/
structure Nati where
  prevState : NatiState
  currState : NatiState
  holdState : Bool
  stateToHold : NatiState
  ddrTblHdl : TblHdl
  sramTblHdl : TblHdl
  totSlotsInSram : Nat
  backToSramThresh : Nat
  totRulesInTable : NatMemIn → BitVec 32
  mapPairs : NatMemIn → NatiMapPair
  swStats : NatMemIn → NatiSwitchStats
  drvi : Drvi
  out : NatiOut

/-- A return code and the object afterwards. -/
abbrev NatiResult := Except Errno Unit × Nati

namespace Nati

/-- The object before the first call. -/
def init (pdns : BitVec 8 → BitVec 32) : Nati where
  prevState := .null
  currState := .null
  holdState := false
  stateToHold := .null
  ddrTblHdl := none
  sramTblHdl := none
  totSlotsInSram := 0
  backToSramThresh := 0
  totRulesInTable := fun _ => 0
  mapPairs := fun _ => NatiMapPair.cleared
  swStats := fun _ => ⟨0, 0⟩
  drvi := Drvi.init pdns
  out := ⟨none, 0, 0⟩

/-- `SET_NATIOBJ_STATE`. -/
def setState (nati : Nati) (state : NatiState) : Nati :=
  { nati with prevState := nati.currState, currState := state }

/-- Sets the rule counter of a memory type. -/
def setCounter (nati : Nati) (sub : NatMemIn) (count : BitVec 32) : Nati :=
  { nati with totRulesInTable := update nati.totRulesInTable sub count }

/-- Sets the maps of a memory type. -/
def setMaps (nati : Nati) (sub : NatMemIn) (maps : NatiMapPair) : Nati :=
  { nati with mapPairs := update nati.mapPairs sub maps }

/-- The counter of a memory type at zero and its maps empty. -/
def forgetRules (nati : Nati) (sub : NatMemIn) : Nati :=
  (nati.setCounter sub 0).setMaps sub NatiMapPair.cleared

/-- Enters a rule into both maps of a memory type, under the handle that the
application holds and under the one of its record. -/
def mapRule (nati : Nati) (sub : NatMemIn) (origRuleHdl newRuleHdl : Nat) : NatiResult :=
  let maps := nati.mapPairs sub
  let forward := ipaNatMapAdd maps.orig2new origRuleHdl newRuleHdl
  match forward.1 with
  | .error errno => (.error errno, nati)
  | .ok _ =>
    let backward := ipaNatMapAdd maps.new2orig newRuleHdl origRuleHdl
    (backward.1, nati.setMaps sub ⟨forward.2, backward.2⟩)

end Nati

/-! ## Migration -/

/-- The client rule that `migrate_rule` makes of a record. -/
def IpaNatRule.v4Rule (natRule : IpaNatRule) : IpaNatIpv4Rule where
  targetIp := natRule.targetIp
  privateIp := natRule.privateIp
  targetPort := natRule.targetPort
  privatePort := natRule.privatePort
  publicPort := natRule.publicPort
  protocol := natRule.protocol
  pdnIndex := natRule.pdnIndex.setWidth 8
  redirect := BitVec.ofBool natRule.redirect |>.setWidth 8
  enable := BitVec.ofBool natRule.enable |>.setWidth 8
  timeStamp := natRule.timeStamp.setWidth 32
  ucActivationIndex := natRule.ucActivationIndex.setWidth 16
  s := natRule.s
  ucp := natRule.ucp
  dstOnly := natRule.dstOnly
  srcOnly := natRule.srcOnly

/-- `migrate_rule`, for a table in memory `nmi`. -/
def migrateRule (kernel : Kernel) (nmi : NatMemIn) (dstTblHdl : TblHdl) :
    WalkCallback IpaNatRule Nati :=
  fun nati tblRuleHdl natRule _ =>
    if natRule.protocol = ipahalNatInvalidProtocol then
      (.zero, nati)
    else
      match ipaNatMapFind (nati.mapPairs nmi).new2orig tblRuleHdl with
      | .error errno => (.negative errno, nati)
      | .ok origRuleHdl =>
        let added := nati.drvi.addIpv4Rule kernel dstTblHdl natRule.v4Rule
        match added.1 with
        | .error errno => (.negative errno, { nati with drvi := added.2 })
        | .ok newRuleHdl =>
          let counted := { nati with drvi := added.2 }.setCounter nmi.other
            (nati.totRulesInTable nmi.other + 1)
          let mapped := counted.mapRule nmi.other origRuleHdl newRuleHdl
          match mapped.1 with
          | .error errno => (.negative errno, mapped.2)
          | .ok _ => (.zero, mapped.2)

/-- The return code of a walk. -/
def WalkResult.ret : WalkResult → Except Errno Unit
  | .zero => .ok ()
  | .positive _ => .error .unspecified
  | .negative errno => .error errno

/-- `ipa_NATI_walk_ipv4_tbl` on the NAT table. The callback may change anything
but the table that is walked. -/
def Nati.walkIpv4Tbl (nati : Nati) (tblHdl : TblHdl)
    (walkCb : NatMemIn → WalkCallback IpaNatRule Nati) : NatiResult :=
  match nati.drvi.startedCache tblHdl with
  | .error errno => (.error errno, nati)
  | .ok nmi =>
    match nati.drvi.natTable? nmi with
    | none => (.error .einval, nati)
    | some natTable =>
      let walked := ipaTableWalk natTable.table 0 .slotFilled (walkCb nmi) nati
      (walked.1.ret, walked.2)

/-- `ipa_nati_copy_ipv4_tbl` with `migrate_rule`. -/
def ipaNatiCopyIpv4Tbl (kernel : Kernel) (nati : Nati) (srcTblHdl dstTblHdl : TblHdl) :
    NatiResult :=
  let cleared := nati.drvi.ipaNATIClearIpv4Tbl dstTblHdl
  match cleared.1 with
  | .error errno => (.error errno, { nati with drvi := cleared.2 })
  | .ok _ =>
    { nati with drvi := cleared.2 }.walkIpv4Tbl srcTblHdl
      (fun nmi => migrateRule kernel nmi dstTblHdl)

end Sm8650.IpaNat
