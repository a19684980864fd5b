import Sm8650.Fltrt.Translators

/-!
# Filtering rules

The generators `ipa_flt_gen_hw_rule` and parsers `ipa_flt_parse_hw_rule` of the hardware
versions. A rule starts with a header word whose fields differ between the versions; a zero
word ends a table.
-/

namespace Sm8650.Fltrt

open Data Data.Words

/-! ## Versions -/

/-- `enum ipa_hw_type` from version 3.0 on. -/
inductive IpaHwType where
  | v3_0
  | v3_1
  | v3_5
  | v3_5_1
  | v4_0
  | v4_1
  | v4_2
  | v4_5
  | v4_7
  | v4_9
  | v4_11
  | v5_0
  | v5_1
  | v5_2
  | v5_5
deriving DecidableEq, Repr

/-- The entries of `ipahal_fltrt_objs` that the source gives. -/
inductive FltrtObj where
  | v3_0
  | v4_0
  | v4_2
  | v4_5
  | v5_0
  | v5_5
deriving DecidableEq, Repr

/-- The entry that `ipahal_fltrt_init` leaves for a version: its own, or the one of the last
version before it that has one. -/
def IpaHwType.obj : IpaHwType → FltrtObj
  | .v3_0 | .v3_1 | .v3_5 | .v3_5_1 => .v3_0
  | .v4_0 | .v4_1 => .v4_0
  | .v4_2 => .v4_2
  | .v4_5 | .v4_7 | .v4_9 | .v4_11 => .v4_5
  | .v5_0 | .v5_1 | .v5_2 => .v5_0
  | .v5_5 => .v5_5

/-- The `eq_bitfield` of an entry. -/
def FltrtObj.eqTable : FltrtObj → EqTable
  | .v3_0 | .v4_0 | .v4_2 => eqTableTos
  | .v4_5 | .v5_0 | .v5_5 => eqTablePureAck

/-! ## Headers -/

/-- The fields of the header words and of the extension headers. -/
inductive HdrField where
  | enRule
  | action
  | rtTblIdx
  | retainHdr
  | pdnIdx
  | setMetadata
  | priority
  | statsCntIdx
  | statsCntIdxLsb
  | statsCntIdxMsb
  | ruleId
  | closeAggrIrqMod
  | extHdr
  | pipeDestIdx
  | hdrOffset
  | procCtx
  | system
  | ttl
  | qosClass
  | skipIngress
  | rsvd1
  | rsvd2
  | rsvd3
deriving DecidableEq, Repr

/-- `struct ipa3_0_flt_rule_hw_hdr`. -/
def fltRuleHwHdr3_0 : List (HdrField × Nat) :=
  [(.enRule, 16), (.action, 5), (.rtTblIdx, 5), (.retainHdr, 1), (.rsvd1, 5), (.priority, 10),
    (.rsvd2, 6), (.ruleId, 10), (.rsvd3, 6)]

/-- `struct ipa4_0_flt_rule_hw_hdr`. -/
def fltRuleHwHdr4_0 : List (HdrField × Nat) :=
  [(.enRule, 16), (.action, 5), (.rtTblIdx, 5), (.retainHdr, 1), (.pdnIdx, 4),
    (.setMetadata, 1), (.priority, 10), (.rsvd2, 6), (.ruleId, 10), (.rsvd3, 6)]

/-- `struct ipa4_5_flt_rule_hw_hdr`. -/
def fltRuleHwHdr4_5 : List (HdrField × Nat) :=
  [(.enRule, 16), (.action, 5), (.rtTblIdx, 5), (.retainHdr, 1), (.pdnIdx, 4),
    (.setMetadata, 1), (.priority, 10), (.statsCntIdxMsb, 2), (.rsvd2, 4), (.ruleId, 10),
    (.statsCntIdxLsb, 6)]

/-- `struct ipa5_0_flt_rule_hw_hdr`. -/
def fltRuleHwHdr5_0 : List (HdrField × Nat) :=
  [(.enRule, 16), (.rtTblIdx, 8), (.statsCntIdx, 8), (.priority, 8), (.rsvd1, 1),
    (.closeAggrIrqMod, 1), (.ruleId, 10), (.action, 5), (.pdnIdx, 4), (.setMetadata, 1),
    (.retainHdr, 1), (.rsvd2, 1)]

/-- `struct ipa5_5_flt_rule_hw_hdr`. -/
def fltRuleHwHdr5_5 : List (HdrField × Nat) :=
  [(.enRule, 16), (.rtTblIdx, 8), (.statsCntIdx, 8), (.priority, 8), (.extHdr, 1),
    (.closeAggrIrqMod, 1), (.ruleId, 10), (.action, 5), (.pdnIdx, 4), (.setMetadata, 1),
    (.retainHdr, 1), (.rsvd1, 1)]

/-- `struct ipa5_5_flt_rule_hw_hdr_ext`. -/
def fltRuleHwHdrExt : List (HdrField × Nat) := [(.ttl, 1), (.qosClass, 6), (.rsvd1, 9)]

/-! ## Generating -/

/-- `struct ipahal_flt_rule_gen_params` with the fields of `struct ipa_flt_rule_i` that the
generators read. -/
structure FltRuleGenParams where
  ipt : IpaIpType
  rtTblIdx : Nat
  priority : Nat
  id : Nat
  cntIdx : Byte
  action : Nat
  retainHdr : Byte
  pdnIdx : Byte
  setMetadata : Byte
  closeAggrIrqMod : Byte
  ttlUpdate : Byte
  qosClass : Byte
  eqAttribType : Bool
  eqAttrib : IpfltriRuleEq
  attrib : IpaRuleAttrib

/-- `x ? 0x1 : 0x0`. -/
def flag (x : Byte) : Nat := if x = 0 then 0 else 1

namespace FltRuleGenParams

variable (params : FltRuleGenParams)

/-- The checks of the action and of the rule id, which is the same in all versions; where the
code asserts, a failed check stops the machine. -/
def commonChecks : Bool := decide (params.action ≤ 3) && decide (params.id < 1023)

/-- The checks of `ipa_flt_gen_hw_rule`. -/
def checks3_0 : Bool :=
  params.commonChecks && decide (params.rtTblIdx ≤ 0x1F) && decide (params.priority ≤ 0x3FF)

/-- The checks of `ipa_flt_gen_hw_rule_ipav4` and `ipa_flt_gen_hw_rule_ipav4_5`. -/
def checks4_0 : Bool := params.checks3_0 && decide (params.pdnIdx.toNat ≤ 0xF)

/-- The checks of `ipa_flt_gen_hw_rule_ipav5_0` and `ipa_flt_gen_hw_rule_ipav5_5`. -/
def checks5_0 : Bool :=
  params.commonChecks && decide (params.rtTblIdx ≤ 0xFF) &&
    decide (params.pdnIdx.toNat ≤ 0xF) && decide (params.priority ≤ 0xFF)

/-- The values of the header fields in `ipa_flt_gen_hw_rule`. -/
def header3_0 (enRule : BitVec 16) : HdrField → Nat
  | .enRule => enRule.toNat
  | .action => params.action
  | .rtTblIdx => params.rtTblIdx
  | .retainHdr => flag params.retainHdr
  | .priority => params.priority
  | .ruleId => params.id
  | _ => 0

/-- The values of the header fields in `ipa_flt_gen_hw_rule_ipav4`. -/
def header4_0 (enRule : BitVec 16) : HdrField → Nat
  | .pdnIdx => params.pdnIdx.toNat
  | .setMetadata => params.setMetadata.toNat
  | name => params.header3_0 enRule name

/-- The values of the header fields in `ipa_flt_gen_hw_rule_ipav4_5`. -/
def header4_5 (enRule : BitVec 16) : HdrField → Nat
  | .statsCntIdxLsb => (params.cntIdx &&& 0x3F).toNat
  | .statsCntIdxMsb => ((params.cntIdx &&& 0xC0) >>> 6).toNat
  | name => params.header4_0 enRule name

/-- The values of the header fields in `ipa_flt_gen_hw_rule_ipav5_0`. -/
def header5_0 (enRule : BitVec 16) : HdrField → Nat
  | .pdnIdx => params.pdnIdx.toNat
  | .setMetadata => flag params.setMetadata
  | .statsCntIdx => params.cntIdx.toNat
  | .closeAggrIrqMod => flag params.closeAggrIrqMod
  | name => params.header3_0 enRule name

/-- Whether `ipa_flt_gen_hw_rule_ipav5_5` writes an extension header. -/
def extHdr : Bool := params.ttlUpdate != 0 || params.qosClass != 0

/-- The values of the header fields in `ipa_flt_gen_hw_rule_ipav5_5`. -/
def header5_5 (enRule : BitVec 16) : HdrField → Nat
  | .extHdr => params.extHdr.toNat
  | name => params.header5_0 enRule name

/-- The values of the fields of the extension header. -/
def headerExt : HdrField → Nat
  | .ttl => flag params.ttlUpdate
  | .qosClass => params.qosClass.toNat
  | _ => 0

/-- The bits and the body of a rule, from its equations or from its attributes. -/
def body (table : EqTable) : Option (BitVec 16 × List Byte) :=
  if params.eqAttribType then
    (ipaFltrtGenerateHwRuleBdyFromEq table params.eqAttrib).map fun body =>
      (params.eqAttrib.ruleEqBitmap, body)
  else ipaFltrtGenerateHwRuleBdy table params.attrib params.ipt

/-- The bits and the body of a rule of version 5.5. -/
def body5_5 (table : EqTable) : Option (BitVec 16 × List Byte) :=
  if params.eqAttribType then
    (ipaFltrtGenerateHwRuleBdyFromEq55 table params.eqAttrib params.extHdr).map fun body =>
      (params.eqAttrib.ruleEqBitmap, body)
  else ipaFltrtGenerateHwRuleBdy55 table params.attrib params.ipt params.extHdr

end FltRuleGenParams

/-- The end of every generator: a length that the caller knows already has to be right. -/
def checkHwLen (hwLen : Nat) (rule : List Byte) : Option (List Byte) :=
  if hwLen = 0 ∨ hwLen = rule.length then some rule else none

/-- A generator for a layout of the header word. -/
def genHwRule (layout : List (HdrField × Nat)) (checks : Bool)
    (header : BitVec 16 → HdrField → Nat) (body : Option (BitVec 16 × List Byte)) (hwLen : Nat) :
    Option (List Byte) :=
  if checks then
    body.bind fun (enRule, bytes) =>
      checkHwLen hwLen (toBytes 8 (pack layout (header enRule)) ++ bytes)
  else none

section Generators

variable (table : EqTable) (params : FltRuleGenParams) (hwLen : Nat)

/-- `ipa_flt_gen_hw_rule`. -/
def ipaFltGenHwRule : Option (List Byte) :=
  genHwRule fltRuleHwHdr3_0 params.checks3_0 params.header3_0 (params.body table) hwLen

/-- `ipa_flt_gen_hw_rule_ipav4`. -/
def ipaFltGenHwRuleIpav4 : Option (List Byte) :=
  genHwRule fltRuleHwHdr4_0 params.checks4_0 params.header4_0 (params.body table) hwLen

/-- `ipa_flt_gen_hw_rule_ipav4_5`. -/
def ipaFltGenHwRuleIpav4_5 : Option (List Byte) :=
  genHwRule fltRuleHwHdr4_5 params.checks4_0 params.header4_5 (params.body table) hwLen

/-- `ipa_flt_gen_hw_rule_ipav5_0`. -/
def ipaFltGenHwRuleIpav5_0 : Option (List Byte) :=
  genHwRule fltRuleHwHdr5_0 params.checks5_0 params.header5_0 (params.body table) hwLen

/-- `ipa_flt_gen_hw_rule_ipav5_5`. -/
def ipaFltGenHwRuleIpav5_5 : Option (List Byte) :=
  genHwRule fltRuleHwHdr5_5 params.checks5_0 params.header5_5
    ((params.body5_5 table).map fun (enRule, bytes) =>
      (enRule,
        (if params.extHdr then toBytes 2 (pack fltRuleHwHdrExt params.headerExt) else []) ++
          bytes))
    hwLen

end Generators

/-- `flt_generate_hw_rule` of an entry. -/
def FltrtObj.fltGenerateHwRule : FltrtObj → FltRuleGenParams → Nat → Option (List Byte)
  | .v3_0 => ipaFltGenHwRule eqTableTos
  | .v4_0 | .v4_2 => ipaFltGenHwRuleIpav4 eqTableTos
  | .v4_5 => ipaFltGenHwRuleIpav4_5 eqTablePureAck
  | .v5_0 => ipaFltGenHwRuleIpav5_0 eqTablePureAck
  | .v5_5 => ipaFltGenHwRuleIpav5_5 eqTablePureAck

/-! ## Parsing -/

/-- `struct ipahal_flt_rule_entry`. -/
structure FltRuleEntry where
  action : Nat
  rtTblIdx : Nat
  retainHdr : Nat
  pdnIdx : Nat
  setMetadata : Nat
  closeAggrIrqMod : Nat
  ttlUpdate : Nat
  qosClass : Nat
  eqAttribType : Bool
  eqAttrib : IpfltriRuleEq
  priority : Nat
  id : Nat
  cntIdx : Nat
  ruleSize : Nat
deriving DecidableEq, Repr

/-- The zeroed entry. -/
def FltRuleEntry.zero : FltRuleEntry :=
  ⟨0, 0, 0, 0, 0, 0, 0, 0, false, .zero, 0, 0, 0, 0⟩

/-- The fields that `ipa_flt_parse_hw_rule` takes from the header. -/
def parseHeader3_0 (get : HdrField → Nat) : FltRuleEntry :=
  { FltRuleEntry.zero with
    action := get .action
    rtTblIdx := get .rtTblIdx
    retainHdr := get .retainHdr
    priority := get .priority
    id := get .ruleId
    eqAttribType := true }

/-- The fields that `ipa_flt_parse_hw_rule_ipav4` takes from the header. -/
def parseHeader4_0 (get : HdrField → Nat) : FltRuleEntry :=
  { parseHeader3_0 get with
    pdnIdx := get .pdnIdx
    setMetadata := get .setMetadata }

/-- The fields that `ipa_flt_parse_hw_rule_ipav4_5` takes from the header. -/
def parseHeader4_5 (get : HdrField → Nat) : FltRuleEntry :=
  { parseHeader4_0 get with
    cntIdx := get .statsCntIdxLsb ||| (get .statsCntIdxMsb) <<< 6 }

/-- The fields that `ipa_flt_parse_hw_rule_ipav5_0` takes from the header. -/
def parseHeader5_0 (get : HdrField → Nat) : FltRuleEntry :=
  { parseHeader4_0 get with
    cntIdx := get .statsCntIdx
    closeAggrIrqMod := get .closeAggrIrqMod }

/-- The equations of a rule, behind a header of the given size. -/
def parseBody (table : EqTable) (get : HdrField → Nat) (hdrSz : Nat) (memory : List Byte)
    (entry : FltRuleEntry) : Option FltRuleEntry :=
  (ipaFltrtParseHwRuleEq table memory hdrSz
      { entry.eqAttrib with ruleEqBitmap := BitVec.ofNat 16 (get .enRule) }).map
    fun (eqAttrib, ruleSize) => { entry with eqAttrib := eqAttrib, ruleSize := ruleSize }

/-- A parser into a zeroed entry, for a layout of the header word. A zero word ends the table;
the entry then has the size 0. -/
def parseHwRule (table : EqTable) (layout : List (HdrField × Nat))
    (parseHeader : (HdrField → Nat) → FltRuleEntry) (memory : List Byte) : Option FltRuleEntry :=
  let word := ofBytes (memory.take 8)
  if word = 0 then some .zero
  else
    let get name := field layout name word
    parseBody table get 8 memory (parseHeader get)

section Parsers

variable (table : EqTable) (memory : List Byte)

/-- `ipa_flt_parse_hw_rule`. -/
def ipaFltParseHwRule : Option FltRuleEntry :=
  parseHwRule table fltRuleHwHdr3_0 parseHeader3_0 memory

/-- `ipa_flt_parse_hw_rule_ipav4`. -/
def ipaFltParseHwRuleIpav4 : Option FltRuleEntry :=
  parseHwRule table fltRuleHwHdr4_0 parseHeader4_0 memory

/-- `ipa_flt_parse_hw_rule_ipav4_5`. -/
def ipaFltParseHwRuleIpav4_5 : Option FltRuleEntry :=
  parseHwRule table fltRuleHwHdr4_5 parseHeader4_5 memory

/-- `ipa_flt_parse_hw_rule_ipav5_0`. -/
def ipaFltParseHwRuleIpav5_0 : Option FltRuleEntry :=
  parseHwRule table fltRuleHwHdr5_0 parseHeader5_0 memory

/-- `ipa_flt_parse_hw_rule_ipav5_5`, where an extension header belongs to the header. -/
def ipaFltParseHwRuleIpav5_5 : Option FltRuleEntry :=
  let word := ofBytes (memory.take 8)
  if word = 0 then some .zero
  else
    let get name := field fltRuleHwHdr5_5 name word
    let ext name := field fltRuleHwHdrExt name (ofBytes ((memory.drop 8).take 2))
    if get .extHdr = 0 then parseBody table get 8 memory (parseHeader5_0 get)
    else
      parseBody table get 10 memory
        { parseHeader5_0 get with ttlUpdate := ext .ttl, qosClass := ext .qosClass }

end Parsers

/-- `flt_parse_hw_rule` of an entry. -/
def FltrtObj.fltParseHwRule : FltrtObj → List Byte → Option FltRuleEntry
  | .v3_0 => ipaFltParseHwRule eqTableTos
  | .v4_0 | .v4_2 => ipaFltParseHwRuleIpav4 eqTableTos
  | .v4_5 => ipaFltParseHwRuleIpav4_5 eqTablePureAck
  | .v5_0 => ipaFltParseHwRuleIpav5_0 eqTablePureAck
  | .v5_5 => ipaFltParseHwRuleIpav5_5 eqTablePureAck

/-! ## Tables -/

/-- The rules of a table one after another. -/
def writeRules (obj : FltrtObj) (rules : List FltRuleGenParams) : Option (List Byte) :=
  (rules.mapM fun rule => obj.fltGenerateHwRule rule 0).map List.flatten

/-- A table, which a zero word ends. -/
def writeTable (obj : FltrtObj) (rules : List FltRuleGenParams) : Option (List Byte) :=
  (writeRules obj rules).map (· ++ List.replicate 8 0)

/-- Reading rules until one has the size 0; nothing when the parser fails or the fuel, which
counts the entries read, does not last. -/
def readTable (obj : FltrtObj) : Nat → List Byte → Option (List FltRuleEntry)
  | 0, _ => none
  | fuel + 1, memory => do
      let entry ← obj.fltParseHwRule memory
      if entry.ruleSize = 0 then some []
      else
        let entries ← readTable obj fuel (memory.drop entry.ruleSize)
        return entry :: entries

end Sm8650.Fltrt
