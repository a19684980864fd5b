import Sm8650.Fltrt.Attributes

/-!
# Attributes to rules

The two translators of `ipahal_fltrt.c`: `ipa_fltrt_generate_hw_rule_bdy` writes the body of a
rule from its attributes, and `ipa_flt_generate_eq` fills an equation record from them. Each
is given by its steps for either IP version, in the order of the source.
-/

namespace Sm8650.Fltrt

open Data Data.Words

/-! ## What the steps assign -/

/-- `htons` on a little-endian machine. -/
def htons (x : BitVec 16) : BitVec 16 := x.extractLsb' 0 8 ++ x.extractLsb' 8 8

/-- A 128-bit word with a MAC address in its six high bytes, the first byte on top. -/
def macWord (mac : MacAddr) : BitVec 128 :=
  mac.b0 ++ mac.b1 ++ mac.b2 ++ mac.b3 ++ mac.b4 ++ mac.b5 ++ (0 : BitVec 80)

/-- The first four bytes of a MAC address, the first byte on top. -/
def macFront (mac : MacAddr) : BitVec 32 := mac.b0 ++ mac.b1 ++ mac.b2 ++ mac.b3

/-- The last two bytes of a MAC address above two zero bytes. -/
def macBack (mac : MacAddr) : BitVec 32 := mac.b4 ++ mac.b5 ++ (0 : BitVec 16)

section Steps

variable (table : EqTable) (attrib : IpaRuleAttrib)

/-- `IPA_FLT_IS_PURE_ACK`. -/
def pureAckSteps : List Step :=
  stepsWhen (attrib.has .isPureAck) [.require (table.valid .isPureAck), .emit .pureAck]

/-- `ipa_fltrt_get_mac_data` for one kind of MAC address. -/
def macSteps (bit : FltAttrib) (offset : Byte) (mac mask : MacAddr) : List Step :=
  stepsWhen (attrib.has bit) [.emit (.meq128 ⟨offset, macWord mask, macWord mac⟩)]

/-- `ipa_fltrt_generate_mac_hw_rule_bdy` and `ipa_flt_generate_mac_eq`. -/
def macAddrSteps : List Step :=
  macSteps attrib .macDstAddrEtherII (-14) attrib.dstMacAddr attrib.dstMacAddrMask ++
    macSteps attrib .macSrcAddrEtherII (-8) attrib.srcMacAddr attrib.srcMacAddrMask ++
    macSteps attrib .macDstAddr802_3 (-22) attrib.dstMacAddr attrib.dstMacAddrMask ++
    macSteps attrib .macSrcAddr802_3 (-16) attrib.srcMacAddr attrib.srcMacAddrMask ++
    macSteps attrib .macDstAddr802_1Q (-18) attrib.dstMacAddr attrib.dstMacAddrMask ++
    macSteps attrib .macSrcAddr802_1Q (-10) attrib.srcMacAddr attrib.srcMacAddrMask

/-- `ipa_fltrt_generate_vlan_hw_rule_bdy` and `ipa_flt_generat_vlan_eq`. -/
def vlanSteps : List Step :=
  stepsWhen (attrib.has .vlanId)
    [.emit (.meq32 ⟨-6, 0xFFFF0FFF, 0x81000000 ||| (attrib.vlanId &&& 0xFFF).setWidth 32⟩)]

/-- `IPA_FLT_TYPE`, `IPA_FLT_CODE` and `IPA_FLT_SPI`. -/
def typeCodeSpiSteps : List Step :=
  stepsWhen (attrib.has .type) [.emit (.ihlMeq32 ⟨0, 0xFF, attrib.type.setWidth 32⟩)] ++
    stepsWhen (attrib.has .code) [.emit (.ihlMeq32 ⟨1, 0xFF, attrib.code.setWidth 32⟩)] ++
    stepsWhen (attrib.has .spi) [.emit (.ihlMeq32 ⟨0, 0xFFFFFFFF, attrib.spi⟩)]

/-- The two equations for a destination MAC address that is not at the packet's start. -/
def innerMacSteps (offset : Byte) : List Step :=
  [.emit (.ihlMeq32 ⟨offset, macFront attrib.dstMacAddrMask, macFront attrib.dstMacAddr⟩),
    .emit (.ihlMeq32 ⟨offset + 4, macBack attrib.dstMacAddrMask, macBack attrib.dstMacAddr⟩)]

/-- `IPA_FLT_MAC_DST_ADDR_L2TP`. -/
def l2tpDstSteps : List Step := stepsWhen (attrib.has .macDstAddrL2tp) (innerMacSteps attrib 8)

/-- `IPA_FLT_L2TP_UDP_INNER_MAC_DST_ADDR`. -/
def l2tpUdpDstSteps : List Step :=
  stepsWhen (attrib.has .l2tpUdpInnerMacDstAddr) (innerMacSteps attrib 24)

/-- `IPA_FLT_TCP_SYN`. -/
def tcpSynSteps : List Step :=
  stepsWhen (attrib.has .tcpSyn) [.emit (.ihlMeq32 ⟨12, 0x20000, 0x20000⟩)]

/-- `IPA_FLT_EXT_L2TP_UDP_INNER_ETHER_TYPE`, two words of which the low halves are 0. -/
def l2tpUdpEtherTypeSteps : List Step :=
  stepsWhen (attrib.hasExt .l2tpUdpInnerEtherType)
    [.emit (.meq32 ⟨76, attrib.etherType ++ (0 : BitVec 16), attrib.etherType ++ (0 : BitVec 16)⟩)]

/-- `IPA_FLT_META_DATA`. -/
def metaDataSteps : List Step :=
  stepsWhen (attrib.has .metaData) [.emit (.metadata attrib.metaDataMask attrib.metaData)]

/-- `IPA_FLT_SRC_PORT_RANGE` and `IPA_FLT_DST_PORT_RANGE`. -/
def portRangeSteps : List Step :=
  stepsWhen (attrib.has .srcPortRange)
      [.require (attrib.srcPortLo ≤ attrib.srcPortHi),
        .emit (.range16 ⟨0, attrib.srcPortLo, attrib.srcPortHi⟩)] ++
    stepsWhen (attrib.has .dstPortRange)
      [.require (attrib.dstPortLo ≤ attrib.dstPortHi),
        .emit (.range16 ⟨2, attrib.dstPortLo, attrib.dstPortHi⟩)]

/-- `IPA_FLT_SRC_PORT` and `IPA_FLT_DST_PORT`. -/
def portSteps : List Step :=
  stepsWhen (attrib.has .srcPort) [.emit (.range16 ⟨0, attrib.srcPort, attrib.srcPort⟩)] ++
    stepsWhen (attrib.has .dstPort) [.emit (.range16 ⟨2, attrib.dstPort, attrib.dstPort⟩)]

/-- `IPA_FLT_FRAGMENT`. -/
def fragmentSteps : List Step := stepsWhen (attrib.has .fragment) [.emit .isFrag]

/-- The TOS equation in a 32-bit slot. -/
def tosWord (offset : Byte) : MaskEq32 := ⟨offset, 0xFF0000, attrib.v4.tos.setWidth 32 <<< 16⟩

/-- `IPA_FLT_TOS_MASKED`, `IPA_FLT_SRC_ADDR` and `IPA_FLT_DST_ADDR` of IPv4. -/
def ipv4WordSteps : List Step :=
  stepsWhen (attrib.has .tosMasked)
      [.emit (.meq32 ⟨0, attrib.tosMask.setWidth 32 <<< 16, attrib.tosValue.setWidth 32 <<< 16⟩)] ++
    stepsWhen (attrib.has .srcAddr)
      [.emit (.meq32 ⟨12, attrib.v4.srcAddrMask, attrib.v4.srcAddr⟩)] ++
    stepsWhen (attrib.has .dstAddr) [.emit (.meq32 ⟨16, attrib.v4.dstAddrMask, attrib.v4.dstAddr⟩)]

/-- The TOS attribute in a 32-bit slot, and in one that counts from the IP header's end. -/
def tosMeq32Steps : List Step :=
  stepsWhen (attrib.has .tos) [.emitTos (.meq32 (tosWord attrib 0))]

def tosIhlMeq32Steps : List Step :=
  stepsWhen (attrib.has .tos) [.emitTos (.ihlMeq32 (tosWord attrib 0x80))]

/-- `IPA_FLT_MAC_ETHER_TYPE` of the rule bodies, two words of which the low halves are 0. -/
def etherTypeSteps : List Step :=
  stepsWhen (attrib.has .macEtherType)
    [.emit (.meq32
      ⟨-2, htons attrib.etherType ++ (0 : BitVec 16), htons attrib.etherType ++ (0 : BitVec 16)⟩)]

/-- `IPA_FLT_MAC_ETHER_TYPE` of the equation records. -/
def etherTypeEqSteps : List Step :=
  stepsWhen (attrib.has .macEtherType)
    [.emit (.meq32
      ⟨-2, (htons attrib.etherType).setWidth 32, (htons attrib.etherType).setWidth 32⟩)]

/-- A 128-bit word with a traffic class in its place. -/
def tosWord128 (tos : Byte) : BitVec 128 := (tos.setWidth 32 <<< 20) ++ (0 : BitVec 96)

/-- `IPA_FLT_TOS_MASKED` of IPv6. -/
def ipv6TosSteps : List Step :=
  stepsWhen (attrib.has .tosMasked)
    [.emit (.meq128 ⟨0, tosWord128 attrib.tosMask, tosWord128 attrib.tosValue⟩)]

/-- An IPv6 address with its first word on top, and with its first word below. -/
def Ipv6Addr.down (addr : Ipv6Addr) : BitVec 128 := addr.w0 ++ addr.w1 ++ addr.w2 ++ addr.w3

def Ipv6Addr.up (addr : Ipv6Addr) : BitVec 128 := addr.w3 ++ addr.w2 ++ addr.w1 ++ addr.w0

/-- `IPA_FLT_SRC_ADDR` and `IPA_FLT_DST_ADDR` of IPv6. -/
def ipv6AddrSteps (word : Ipv6Addr → BitVec 128) : List Step :=
  stepsWhen (attrib.has .srcAddr)
      [.emit (.meq128 ⟨8, word attrib.v6.srcAddrMask, word attrib.v6.srcAddr⟩)] ++
    stepsWhen (attrib.has .dstAddr)
      [.emit (.meq128 ⟨24, word attrib.v6.dstAddrMask, word attrib.v6.dstAddr⟩)]

/-- `IPA_FLT_TC`. -/
def tcSteps : List Step := stepsWhen (attrib.has .tc) [.emit (.tc attrib.v6.tc)]

/-- `IPA_FLT_NEXT_HDR`. -/
def nextHdrSteps : List Step :=
  stepsWhen (attrib.has .nextHdr) [.emit (.protocol attrib.v6.nextHdr)]

/-- `IPA_FLT_EXT_NEXT_HDR`, which writes a byte too many. -/
def extNextHdrSteps : List Step :=
  stepsWhen (attrib.hasExt .nextHdr)
    [.emit (.ihlMeq32 ⟨134, 0xFF000000, attrib.v6.nextHdr.setWidth 32 <<< 24⟩),
      .emit (.stray attrib.v6.nextHdr)]

/-- The equation for TCP in an inner IPv4 or IPv6 header. -/
def innerTcp (offset : Byte) : MaskEq32 :=
  if attrib.etherType = 0x0800 then ⟨offset + 4, 0xFF0000, 0x60000⟩ else ⟨offset, 0xFF00, 0x600⟩

/-- The equation for SYN behind an inner IPv4 or IPv6 header. -/
def innerSyn (offset : Byte) : MaskEq32 :=
  if attrib.etherType = 0x0800 then ⟨offset, 0x20000, 0x20000⟩
  else ⟨offset + 20, 0x20000, 0x20000⟩

/-- `IPA_FLT_EXT_L2TP_UDP_TCP_SYN`. -/
def l2tpUdpTcpSynSteps : List Step :=
  stepsWhen (attrib.hasExt .l2tpUdpTcpSyn)
    [.emit (.ihlMeq32 (innerTcp attrib 42)), .emit (.ihlMeq32 (innerSyn attrib 70))]

/-- `IPA_FLT_EXT_L2TP_UDP_INNER_NEXT_HDR`. -/
def l2tpUdpNextHdrSteps : List Step :=
  stepsWhen (attrib.hasExt .l2tpUdpInnerNextHdr)
    [.emit (.ihlMeq32
      (if attrib.etherType = 0x0800 then
        ⟨46, 0xFF0000, attrib.l2tpUdpNextHdr.setWidth 32 <<< 16⟩
      else ⟨42, 0xFF00, attrib.l2tpUdpNextHdr.setWidth 32 <<< 8⟩))]

/-- `IPA_FLT_TCP_SYN_L2TP` of the rule bodies. -/
def tcpSynL2tpSteps : List Step :=
  stepsWhen (attrib.has .tcpSynL2tp)
    [.emit (.ihlMeq32 (innerTcp attrib 26)), .emit (.ihlMeq32 (innerSyn attrib 54))]

/-- `IPA_FLT_TCP_SYN_L2TP` of the equation records: the second equation overwrites the first
one, and the second slot keeps the zeros that the record has at the start. -/
def tcpSynL2tpEqSteps : List Step :=
  stepsWhen (attrib.has .tcpSynL2tp)
    [.emit (.ihlMeq32 (innerSyn attrib 54)), .emit (.ihlMeq32 ⟨0, 0, 0⟩)]

/-- The inner IP type of `IPA_FLT_TCP_SYN_L2TP`. -/
def tcpSynL2tpRangeSteps : List Step :=
  stepsWhen (attrib.has .tcpSynL2tp)
    [.emit (.range16
      (if attrib.etherType = 0x0800 then ⟨21, 0x0045, 0x0045⟩
      else ⟨20, attrib.etherType, attrib.etherType⟩))]

/-- `IPA_FLT_L2TP_INNER_IP_TYPE` with the value that stands for the type. -/
def innerIpTypeSteps (value : BitVec 32) : List Step :=
  stepsWhen (attrib.has .l2tpInnerIpType) [.emit (.ihlMeq32 ⟨22, 0xF0000000, value⟩)]

/-- `IPA_FLT_L2TP_INNER_IPV4_DST_ADDR`. -/
def innerIpv4DstSteps : List Step :=
  stepsWhen (attrib.has .l2tpInnerIpv4DstAddr)
    [.emit (.ihlMeq32 ⟨38, attrib.v4.dstAddrMask, attrib.v4.dstAddr⟩)]

/-- `IPA_FLT_FLOW_LABEL`. -/
def flowLabelSteps : List Step :=
  stepsWhen (attrib.has .flowLabel) [.emit (.flowLabel attrib.v6.flowLabel)]

/-! ## Rule bodies -/

/-- `ipa_fltrt_generate_hw_rule_bdy_ip4`. -/
def hwRuleBdyIp4 : List Step :=
  pureAckSteps table attrib ++
    stepsWhen (attrib.has .tos && table.valid .tosEq) [.emitTos (.tos attrib.v4.tos)] ++
    stepsWhen (attrib.has .protocol) [.emit (.protocol attrib.v4.protocol)] ++
    macAddrSteps attrib ++ ipv4WordSteps attrib ++ etherTypeSteps attrib ++
    tosMeq32Steps attrib ++ vlanSteps attrib ++ typeCodeSpiSteps attrib ++
    l2tpDstSteps attrib ++ l2tpUdpDstSteps attrib ++ l2tpUdpEtherTypeSteps attrib ++
    tcpSynSteps attrib ++ tosIhlMeq32Steps attrib ++ metaDataSteps attrib ++
    stepsWhen (attrib.hasExt .mtu) [.emit (.range16 ⟨130, 0, attrib.payloadLength⟩)] ++
    portRangeSteps attrib ++ portSteps attrib ++ fragmentSteps attrib ++
    stepsWhen (attrib.has .tos) [.requireTos]

/-- `ipa_fltrt_generate_hw_rule_bdy_ip6`. -/
def hwRuleBdyIp6 : List Step :=
  pureAckSteps table attrib ++ nextHdrSteps attrib ++ extNextHdrSteps attrib ++
    tcSteps attrib ++ ipv6AddrSteps attrib Ipv6Addr.down ++ ipv6TosSteps attrib ++
    macAddrSteps attrib ++ etherTypeSteps attrib ++ vlanSteps attrib ++
    typeCodeSpiSteps attrib ++ l2tpDstSteps attrib ++ l2tpUdpDstSteps attrib ++
    l2tpUdpEtherTypeSteps attrib ++ l2tpUdpTcpSynSteps attrib ++ l2tpUdpNextHdrSteps attrib ++
    tcpSynSteps attrib ++ tcpSynL2tpSteps attrib ++
    innerIpTypeSteps attrib (if attrib.type = 0x40 then 0x40000000 else 0x60000000) ++
    innerIpv4DstSteps attrib ++ metaDataSteps attrib ++ portSteps attrib ++
    portRangeSteps attrib ++ tcpSynL2tpRangeSteps attrib ++ flowLabelSteps attrib ++
    fragmentSteps attrib

/-- The steps for an IP version. -/
def hwRuleBdySteps : IpaIpType → List Step
  | .v4 => hwRuleBdyIp4 table attrib
  | .v6 => hwRuleBdyIp6 table attrib

/-- The bytes behind the ones that are there already. -/
def writeStreams (_ : Nat) (streams : Streams) (emission : Emission) : Streams :=
  .concat [streams, emission.streams]

/-- The bits and bytes that `ipa_fltrt_generate_hw_rule_bdy` and its version for 5.5 have before
they lay the body; without any attribute they add the default equation. -/
def hwRuleBdyParts (ipt : IpaIpType) : Option (BitVec 16 × Streams) :=
  if ipaFltrtRuleGenerationErrCheck ipt attrib then
    (translate table writeStreams (hwRuleBdySteps table attrib ipt) .none).map fun p =>
      if attrib.attribMask = 0 then
        (p.enRule ||| table.pattern .offsetMeq32_0, .concat [p.output, meq32Streams ⟨0, 0, 0⟩])
      else (p.enRule, p.output)
  else none

/-- `ipa_fltrt_generate_hw_rule_bdy`, when its buffers can be had: the bits of the rule and
its body. -/
def ipaFltrtGenerateHwRuleBdy (ipt : IpaIpType) : Option (BitVec 16 × List Byte) :=
  (hwRuleBdyParts table attrib ipt).map fun (enRule, streams) =>
    (enRule, layBody (align streams.extra.length) streams)

/-- `ipa_fltrt_generate_hw_rule_bdy_5_5`; an extension header has taken two bytes of the first
word already. -/
def ipaFltrtGenerateHwRuleBdy55 (ipt : IpaIpType) (extHdr : Bool) :
    Option (BitVec 16 × List Byte) :=
  (hwRuleBdyParts table attrib ipt).map fun (enRule, streams) =>
    (enRule, layBody (align (extHdr.toNat * 2 + streams.extra.length) - extHdr.toNat * 2) streams)

/-! ## Equation records -/

/-- `ipa_flt_generate_eq_ip4`. The TOS equation of its own does not count as done here. -/
def generateEqIp4 : List Step :=
  pureAckSteps table attrib ++
    stepsWhen (attrib.has .tos && table.valid .tosEq) [.emit (.tos attrib.v4.tos)] ++
    stepsWhen (attrib.has .protocol) [.emit (.protocol attrib.v4.protocol)] ++
    macAddrSteps attrib ++ l2tpDstSteps attrib ++ tcpSynSteps attrib ++ ipv4WordSteps attrib ++
    etherTypeEqSteps attrib ++ tosMeq32Steps attrib ++ vlanSteps attrib ++
    typeCodeSpiSteps attrib ++ tosIhlMeq32Steps attrib ++ metaDataSteps attrib ++
    portRangeSteps attrib ++ portSteps attrib ++ fragmentSteps attrib ++
    stepsWhen (attrib.has .tos) [.requireTos]

/-- `ipa_flt_generate_eq_ip6`, which has the inner IP type of TCP SYN over L2TP twice. -/
def generateEqIp6 : List Step :=
  pureAckSteps table attrib ++ nextHdrSteps attrib ++ tcSteps attrib ++
    ipv6AddrSteps attrib Ipv6Addr.up ++ ipv6TosSteps attrib ++ macAddrSteps attrib ++
    l2tpDstSteps attrib ++ tcpSynSteps attrib ++ tcpSynL2tpEqSteps attrib ++
    innerIpTypeSteps attrib (attrib.type.setWidth 32 <<< 24) ++ innerIpv4DstSteps attrib ++
    etherTypeEqSteps attrib ++ vlanSteps attrib ++ typeCodeSpiSteps attrib ++
    metaDataSteps attrib ++ portSteps attrib ++ portRangeSteps attrib ++
    tcpSynL2tpRangeSteps attrib ++ tcpSynL2tpRangeSteps attrib ++ flowLabelSteps attrib ++
    fragmentSteps attrib

/-- The steps for an IP version. -/
def generateEqSteps : IpaIpType → List Step
  | .v4 => generateEqIp4 table attrib
  | .v6 => generateEqIp6 table attrib

/-- The record that a translator has filled, with its bitmap and its counts. -/
def finishEq (p : Progress IpfltriRuleEq) : IpfltriRuleEq :=
  { p.output with
    ruleEqBitmap := p.enRule
    numOffsetMeq32 := p.used .ofstMeq32
    numIhlOffsetRange16 := p.used .ihlOfstRng16
    numIhlOffsetMeq32 := p.used .ihlOfstMeq32
    numOffsetMeq128 := p.used .ofstMeq128 }

/-- `ipa_flt_generate_eq` on a zeroed record. Without any attribute the bitmap says the default
equation, whose fields are 0; the counts are left alone. -/
def ipaFltGenerateEq (ipt : IpaIpType) : Option IpfltriRuleEq :=
  if ipaFltrtRuleGenerationErrCheck ipt attrib then
    (translate table Emission.store (generateEqSteps table attrib ipt) .zero).map fun p =>
      let eqAtrb := finishEq p
      if attrib.attribMask = 0 ∧ attrib.extAttribMask = 0 then
        { eqAtrb with
          ruleEqBitmap := table.pattern .offsetMeq32_0
          offsetMeq32 := (⟨0, 0, 0⟩, eqAtrb.offsetMeq32.2) }
      else eqAtrb
  else none

end Steps

end Sm8650.Fltrt
