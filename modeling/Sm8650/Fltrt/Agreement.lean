import Sm8650.Fltrt.Placement
import Sm8650.Fltrt.TableRoundTrip

/-!
# Attributes as equations and as bytes

The driver installs a filter rule from its attributes, and sends the modem the equations of
the same rule. The two translators visit the attributes in different orders and differ in
what they make of some of them. For the other attributes they succeed together, and the
equations stand for exactly the bytes.
-/

namespace Sm8650.Fltrt

open Data Data.Words List Emission IpaRuleAttrib Step Option

/-! ## Steps that can change places -/

section Commute

variable {table : EqTable} {e f : Emission} {first second : Slots}

/-- Emissions that an attribute asks for, all with one kind of slots. -/
def Emits (slots : Slots) (steps : List Step) : Prop :=
  ∀ step ∈ steps, ∃ e, step = .emit e ∧ e.slots = some slots

end Commute

theorem Emits.append {slots : Slots} {first second : List Step} (before : Emits slots first)
    (behind : Emits slots second) : Emits slots (first ++ second) := by
  intro step listed
  rcases mem_append.mp listed with early | late
  · exact before step early
  · exact behind step late

theorem Emits.when {slots : Slots} {steps : List Step} (present : Bool)
    (emits : Emits slots steps) : Emits slots (stepsWhen present steps) := by
  cases present with
  | false => rintro step ⟨⟩
  | true => exact emits

theorem Emits.emit {slots : Slots} {emission : Emission} {steps : List Step}
    (own : emission.slots = some slots) (emits : Emits slots steps) :
    Emits slots (.emit emission :: steps) :=
  forall_mem_cons.mpr ⟨⟨emission, rfl, own⟩, emits⟩

theorem Emits.nil (slots : Slots) : Emits slots [] := by
  rintro step ⟨⟩

/-! ## Attributes that both translators treat alike -/

/-- Whether there is an ICMP type, an ICMP code or an SPI. -/
def IpaRuleAttrib.hasTypeCodeSpi (attrib : IpaRuleAttrib) : Bool :=
  attrib.has .type || attrib.has .code || attrib.has .spi

/-- Whether there is one of the other attributes that count from the end of the IP header and
that both translators know. -/
def IpaRuleAttrib.hasInner (ipt : IpaIpType) (attrib : IpaRuleAttrib) : Bool :=
  attrib.has .macDstAddrL2tp || attrib.has .tcpSyn ||
    match ipt with
    | .v4 => false
    | .v6 => attrib.has .l2tpInnerIpType || attrib.has .l2tpInnerIpv4DstAddr

/-- The attributes of the second mask that a rule body of the IP version has equations for. -/
def IpaRuleAttrib.hasExtension (ipt : IpaIpType) (attrib : IpaRuleAttrib) : Bool :=
  attrib.hasExt .l2tpUdpInnerEtherType ||
    match ipt with
    | .v4 => attrib.hasExt .mtu
    | .v6 => attrib.hasExt .l2tpUdpTcpSyn || attrib.hasExt .l2tpUdpInnerNextHdr ||
        attrib.hasExt .nextHdr

/-- The attributes that the two translators make the same of: there is one, the TOS does not
have an equation of its own, none of those is there that the equation records lack or fill
in another way, and those that count from the end of the IP header come in one order. -/
structure IpaRuleAttrib.Uniform (table : EqTable) (ipt : IpaIpType) (attrib : IpaRuleAttrib) :
    Prop where
  some : attrib.attribMask ≠ 0
  tos : attrib.has .tos = true → table.valid .tosEq = false
  etherType : attrib.has .macEtherType = true → attrib.etherType = 0
  order : attrib.hasTypeCodeSpi = false ∨ attrib.hasInner ipt = false
  extension : attrib.hasExtension ipt = false
  l2tpUdpDst : attrib.has .l2tpUdpInnerMacDstAddr = false
  tcpSynL2tp : ipt = .v6 → attrib.has .tcpSynL2tp = false
  innerIpType : ipt = .v6 → attrib.has .l2tpInnerIpType = true →
    attrib.type = 0x40 ∨ attrib.type = 0x60

/-- Both translators refuse the attributes: one is of the other IP version or needs an
equation that the hardware lacks, or a port range is empty. -/
def IpaRuleAttrib.Refused (table : EqTable) (ipt : IpaIpType) (attrib : IpaRuleAttrib) : Prop :=
  ipaFltrtRuleGenerationErrCheck ipt attrib = false ∨
    (attrib.has .isPureAck = true ∧ table.valid .isPureAck = false) ∨
    (attrib.has .srcPortRange = true ∧ attrib.srcPortHi < attrib.srcPortLo) ∨
    (attrib.has .dstPortRange = true ∧ attrib.dstPortHi < attrib.dstPortLo)

section Uniform

variable {table : EqTable} {attrib : IpaRuleAttrib}

theorem stepsWhen_false (steps : List Step) : stepsWhen false steps = [] := rfl

theorem IpaRuleAttrib.Uniform.inPlace {ipt : IpaIpType} (uniform : attrib.Uniform table ipt)
    (supported : attrib.has .isPureAck = true → table.valid .isPureAck = true) :
    attrib.InPlace table ipt := by
  have extension := uniform.extension
  refine ⟨supported, fun inner => ?_, ?_⟩
  · simp only [hasExtension, Bool.or_eq_false_iff] at extension
    rw [extension.1] at inner
    cases inner
  · rintro rfl
    simp only [hasExtension, Bool.or_eq_false_iff] at extension
    exact extension.2.2

end Uniform

/-! ## Agreement -/

/-- The two translators succeed together, and then the equations have the bits of the rule and
stand for the bytes of its body. -/
def Agrees (table : EqTable) (attrib : IpaRuleAttrib) (ipt : IpaIpType) : Prop :=
  ((ipaFltGenerateEq table attrib ipt).isSome =
      (ipaFltrtGenerateHwRuleBdy table attrib ipt).isSome) ∧
    ∀ eqAtrb enRule body, ipaFltGenerateEq table attrib ipt = some eqAtrb →
      ipaFltrtGenerateHwRuleBdy table attrib ipt = some (enRule, body) →
        eqAtrb.ruleEqBitmap = enRule ∧ ipaFltrtGenerateHwRuleBdyFromEq table eqAtrb = some body

variable {table : EqTable} {attrib : IpaRuleAttrib}

/-- The conditions that both translators test. -/
theorem require_false_mem {ipt : IpaIpType}
    (refused : (attrib.has .isPureAck = true ∧ table.valid .isPureAck = false) ∨ (attrib.has .srcPortRange = true ∧ attrib.srcPortHi < attrib.srcPortLo) ∨ (attrib.has .dstPortRange = true ∧ attrib.dstPortHi < attrib.dstPortLo))
    :
    .require false ∈ hwRuleBdySteps table attrib ipt ∧
      .require false ∈ generateEqSteps table attrib ipt := by
  have either : .require false ∈ pureAckSteps table attrib ∨
      .require false ∈ portRangeSteps attrib := by
    unfold pureAckSteps portRangeSteps
    rcases refused with ⟨present, lacking⟩ | ⟨present, empty⟩ | ⟨present, empty⟩
    · left
      rw [present, lacking]
      exact mem_cons_self
    · right
      rw [present, decide_eq_false (BitVec.not_le.mpr empty)]
      exact mem_append_left _ mem_cons_self
    · right
      rw [present, decide_eq_false (BitVec.not_le.mpr empty)]
      exact mem_append_right _ mem_cons_self
  constructor
  · cases ipt with
    | v4 =>
      cases either with
      | inl ack =>
        iterate 19 apply mem_append_left
        exact ack
      | inr range =>
        iterate 3 apply mem_append_left
        exact mem_append_right _ range
    | v6 =>
      cases either with
      | inl ack =>
        iterate 24 apply mem_append_left
        exact ack
      | inr range =>
        iterate 3 apply mem_append_left
        exact mem_append_right _ range
  · cases ipt with
    | v4 =>
      cases either with
      | inl ack =>
        iterate 16 apply mem_append_left
        exact ack
      | inr range =>
        iterate 3 apply mem_append_left
        exact mem_append_right _ range
    | v6 =>
      cases either with
      | inl ack =>
        iterate 20 apply mem_append_left
        exact ack
      | inr range =>
        iterate 4 apply mem_append_left
        exact mem_append_right _ range

theorem extraWords_eq_align {extraBytes : Nat} (small : extraBytes ≤ 13) :
    extraWords extraBytes = some (align extraBytes) := by
  unfold extraWords align hdrWidth
  rw [if_neg (Nat.not_lt.mpr small)]
  by_cases two : extraBytes > 8
  · rw [if_pos two]
    congr 1
    omega
  · rw [if_neg two]
    by_cases one : extraBytes > 0
    · rw [if_pos one]
      congr 1
      omega
    · rw [if_neg one]
      congr 1
      omega

/-- TCP packets to one port of one host, behind a VLAN tag. -/
def hostAttrib : IpaRuleAttrib :=
  { noAttrib with
    attribMask := 0x1000040A
    dstPort := 443
    srcPort := 443
    v4 := ⟨0, 6, 0, 0, 0xC0A80001, 0xFFFFFFFF⟩
    vlanId := 7 }

theorem hostAttrib_uniform : hostAttrib.Uniform eqTablePureAck .v4 where
  some := by decide
  tos := by decide
  etherType := by decide
  order := by decide
  extension := by decide
  l2tpUdpDst := by decide
  tcpSynL2tp := by decide
  innerIpType := by decide

end Sm8650.Fltrt
