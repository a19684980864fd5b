import Sm8650.Fltrt.Body

/-!
# Rule attributes

`struct ipa_rule_attrib` and the steps in which both translators of `ipahal_fltrt.c` work
through it. A step assigns an attribute to an equation, of which most kinds have two slots.
-/

namespace Sm8650.Fltrt

open Data Data.Words

/-! ## Attributes -/

/-- `enum ipa_ip_type`. -/
inductive IpaIpType where
  | v4
  | v6
deriving DecidableEq, Repr

/-- The bits `IPA_FLT_*` of `attrib_mask`, in their order. -/
inductive FltAttrib where
  | tos
  | protocol
  | srcAddr
  | dstAddr
  | srcPortRange
  | dstPortRange
  | type
  | code
  | spi
  | srcPort
  | dstPort
  | tc
  | flowLabel
  | nextHdr
  | metaData
  | fragment
  | tosMasked
  | macSrcAddrEtherII
  | macDstAddrEtherII
  | macSrcAddr802_3
  | macDstAddr802_3
  | macEtherType
  | macDstAddrL2tp
  | tcpSyn
  | tcpSynL2tp
  | l2tpInnerIpType
  | l2tpInnerIpv4DstAddr
  | isPureAck
  | vlanId
  | macSrcAddr802_1Q
  | macDstAddr802_1Q
  | l2tpUdpInnerMacDstAddr
deriving DecidableEq, Repr

/-- The bits `IPA_FLT_EXT_*` of `ext_attrib_mask`, in their order. -/
inductive FltExtAttrib where
  | l2tpUdpTcpSyn
  | l2tpUdpInnerEtherType
  | mtu
  | l2tpUdpInnerNextHdr
  | nextHdr
deriving DecidableEq, Repr

/-- A MAC address, `u8[ETH_ALEN]`. -/
structure MacAddr where
  b0 : Byte
  b1 : Byte
  b2 : Byte
  b3 : Byte
  b4 : Byte
  b5 : Byte
deriving DecidableEq, Repr

/-- An IPv6 address, `u32[4]`. -/
structure Ipv6Addr where
  w0 : BitVec 32
  w1 : BitVec 32
  w2 : BitVec 32
  w3 : BitVec 32
deriving DecidableEq, Repr

/-- The IPv4 half of the union in the attributes. -/
structure Ipv4Attrib where
  tos : Byte
  protocol : Byte
  srcAddr : BitVec 32
  srcAddrMask : BitVec 32
  dstAddr : BitVec 32
  dstAddrMask : BitVec 32
deriving DecidableEq, Repr

/-- The IPv6 half of the union in the attributes. -/
structure Ipv6Attrib where
  tc : Byte
  flowLabel : BitVec 32
  nextHdr : Byte
  srcAddr : Ipv6Addr
  srcAddrMask : Ipv6Addr
  dstAddr : Ipv6Addr
  dstAddrMask : Ipv6Addr
deriving DecidableEq, Repr

/-- `struct ipa_rule_attrib`. The two halves of the union are kept apart here, so that what
the code reads of one does not depend on the other. -/
structure IpaRuleAttrib where
  attribMask : BitVec 32
  srcPortLo : BitVec 16
  srcPortHi : BitVec 16
  dstPortLo : BitVec 16
  dstPortHi : BitVec 16
  type : Byte
  code : Byte
  tosValue : Byte
  tosMask : Byte
  spi : BitVec 32
  srcPort : BitVec 16
  dstPort : BitVec 16
  metaData : BitVec 32
  metaDataMask : BitVec 32
  srcMacAddr : MacAddr
  srcMacAddrMask : MacAddr
  dstMacAddr : MacAddr
  dstMacAddrMask : MacAddr
  etherType : BitVec 16
  v4 : Ipv4Attrib
  v6 : Ipv6Attrib
  vlanId : BitVec 16
  payloadLength : BitVec 16
  extAttribMask : BitVec 32
  l2tpUdpNextHdr : Byte
deriving DecidableEq, Repr

/-- Whether the attribute is in the mask. -/
def IpaRuleAttrib.has (attrib : IpaRuleAttrib) (bit : FltAttrib) : Bool :=
  FlagSet.mem attrib.attribMask bit.ctorIdx

/-- Whether the attribute is in the second mask. -/
def IpaRuleAttrib.hasExt (attrib : IpaRuleAttrib) (bit : FltExtAttrib) : Bool :=
  FlagSet.mem attrib.extAttribMask bit.ctorIdx

/-- `ipa_fltrt_rule_generation_err_check` succeeds: no attribute of the other IP version. -/
def ipaFltrtRuleGenerationErrCheck (ipt : IpaIpType) (attrib : IpaRuleAttrib) : Bool :=
  match ipt with
  | .v4 => !(attrib.has .nextHdr || attrib.has .tc || attrib.has .flowLabel)
  | .v6 => !(attrib.has .tos || attrib.has .protocol)

/-! ## Assigning equations -/

/-- The kinds of equations that come in two slots, `ipa3_0_ofst_meq128` and so on. -/
inductive Slots where
  | ofstMeq128
  | ofstMeq32
  | ihlOfstMeq32
  | ihlOfstRng16
deriving DecidableEq, Repr

/-- The equation of a slot. -/
def Slots.equation : Slots → Nat → Equation
  | .ofstMeq128, i => if i = 0 then .offsetMeq128_0 else .offsetMeq128_1
  | .ofstMeq32, i => if i = 0 then .offsetMeq32_0 else .offsetMeq32_1
  | .ihlOfstMeq32, i => if i = 0 then .ihlOffsetMeq32_0 else .ihlOffsetMeq32_1
  | .ihlOfstRng16, i => if i = 0 then .ihlOffsetRange16_0 else .ihlOffsetRange16_1

/-- What a translator assigns to an equation. A stray byte is one that goes to the extra
words without any equation. -/
inductive Emission where
  | pureAck
  | tos (value : Byte)
  | protocol (value : Byte)
  | tc (value : Byte)
  | meq128 (eq : MaskEq128)
  | meq32 (eq : MaskEq32)
  | ihlMeq32 (eq : MaskEq32)
  | metadata (mask value : BitVec 32)
  | range16 (eq : RangeEq16)
  | flowLabel (value : BitVec 32)
  | isFrag
  | stray (value : Byte)
deriving DecidableEq, Repr

namespace Emission

/-- The slots that an emission takes one of. -/
def slots : Emission → Option Slots
  | .meq128 _ => some .ofstMeq128
  | .meq32 _ => some .ofstMeq32
  | .ihlMeq32 _ => some .ihlOfstMeq32
  | .range16 _ => some .ihlOfstRng16
  | _ => none

/-- The equations whose bits are set when the emission takes the `i`-th slot. -/
def bits (i : Nat) : Emission → List Equation
  | .pureAck => [.isPureAck]
  | .tos _ => [.tosEq]
  | .protocol _ => [.protocolEq]
  | .tc _ => [.tcEq]
  | .meq128 _ => [Slots.ofstMeq128.equation i]
  | .meq32 _ => [Slots.ofstMeq32.equation i]
  | .ihlMeq32 _ => [Slots.ihlOfstMeq32.equation i]
  | .metadata _ _ => [.metadataCompare]
  | .range16 _ => [Slots.ihlOfstRng16.equation i]
  | .flowLabel _ => [.flEq]
  | .isFrag => [.isFrag]
  | .stray _ => []

/-- The bytes that the emission writes in a rule body. -/
def streams : Emission → Streams
  | .pureAck => ⟨[0], []⟩
  | .tos value => ⟨[value], []⟩
  | .protocol value => ⟨[value], []⟩
  | .tc value => ⟨[value], []⟩
  | .meq128 eq => meq128Streams eq
  | .meq32 eq => meq32Streams eq
  | .ihlMeq32 eq => meq32Streams eq
  | .metadata mask value => metadataStreams ⟨0, mask, value⟩
  | .range16 eq => range16Streams eq
  | .flowLabel value => flStreams value
  | .isFrag => .none
  | .stray value => ⟨[value], []⟩

/-- The record with the emission in its place, the `i`-th where there are several. -/
def store (i : Nat) (r : IpfltriRuleEq) : Emission → IpfltriRuleEq
  | .pureAck => { r with tosEqPresent := true, tosEq := 0 }
  | .tos value => { r with tosEqPresent := true, tosEq := value }
  | .protocol value => { r with protocolEqPresent := true, protocolEq := value }
  | .tc value => { r with tcEqPresent := true, tcEq := value }
  | .meq128 eq =>
    { r with
      offsetMeq128 := if i = 0 then (eq, r.offsetMeq128.2) else (r.offsetMeq128.1, eq) }
  | .meq32 eq =>
    { r with
      offsetMeq32 := if i = 0 then (eq, r.offsetMeq32.2) else (r.offsetMeq32.1, eq) }
  | .ihlMeq32 eq =>
    { r with
      ihlOffsetMeq32 := if i = 0 then (eq, r.ihlOffsetMeq32.2) else (r.ihlOffsetMeq32.1, eq) }
  | .metadata mask value =>
    { r with metadataMeq32Present := true, metadataMeq32 := ⟨0, mask, value⟩ }
  | .range16 eq =>
    { r with
      ihlOffsetRange16 :=
        if i = 0 then (eq, r.ihlOffsetRange16.2) else (r.ihlOffsetRange16.1, eq) }
  | .flowLabel value => { r with flEqPresent := true, flEq := value }
  | .isFrag => { r with ipv4FragEqPresent := true }
  | .stray _ => r

end Emission

/-! ## Steps of a translator -/

/-- The local variables of a translator and what it has produced. -/
structure Progress (σ : Type) where
  enRule : BitVec 16
  used : Slots → Nat
  tosDone : Bool
  output : σ

/-- A step of a translator. -/
inductive Step where
  /-- Assigns an equation; an error when the slots have run out. -/
  | emit (emission : Emission)
  /-- Assigns an equation to the TOS attribute, unless it has one or the slots have run out. -/
  | emitTos (emission : Emission)
  /-- An error unless the condition holds. -/
  | require (condition : Bool)
  /-- An error unless the TOS attribute has an equation. -/
  | requireTos
deriving DecidableEq, Repr

section Running

variable {σ : Type} (table : EqTable) (write : Nat → σ → Emission → σ)

/-- `IPA_IS_RAN_OUT_OF_EQ`. -/
def Progress.ranOut (p : Progress σ) (emission : Emission) : Bool :=
  match emission.slots with
  | none => false
  | some slots => decide (2 ≤ p.used slots)

/-- Sets the bits of an emission, writes it and takes its slot. -/
def Progress.emit (p : Progress σ) (emission : Emission) : Progress σ :=
  let i := (emission.slots.map p.used).getD 0
  { p with
    enRule := FlagSet.insertAll p.enRule ((emission.bits i).map table.bit)
    used := fun slots => if emission.slots = some slots then p.used slots + 1 else p.used slots
    output := write i p.output emission }

/-- One step. -/
def Step.run (p : Progress σ) : Step → Option (Progress σ)
  | .emit emission =>
    if p.ranOut emission then none else some (p.emit table write emission)
  | .emitTos emission =>
    if p.tosDone || p.ranOut emission then some p
    else some { p.emit table write emission with tosDone := true }
  | .require condition => if condition then some p else none
  | .requireTos => if p.tosDone then some p else none

/-- All steps of a translator. -/
def runSteps (steps : List Step) (p : Progress σ) : Option (Progress σ) :=
  steps.foldlM (Step.run table write) p

/-- A translator from its first line. -/
def translate (steps : List Step) (output : σ) : Option (Progress σ) :=
  runSteps table write steps ⟨0, fun _ => 0, false, output⟩

end Running

/-- Steps that are taken only for an attribute. -/
def stepsWhen (present : Bool) (steps : List Step) : List Step := if present then steps else []

end Sm8650.Fltrt
