import Sm8650.Fltrt.Order

/-!
# Where the attributes go

The equations that each block of steps assigns, and the attributes for which the steps of a
rule body keep to the order of its places.
-/

namespace Sm8650.Fltrt

open Data Data.Words Between

section Blocks

variable (attrib : IpaRuleAttrib)

theorem only_macAddrSteps : Only .ofstMeq128 (macAddrSteps attrib) := by
  have one : ∀ bit offset mac mask, Only .ofstMeq128 (macSteps attrib bit offset mac mask) :=
    fun bit offset mac mask => .when _ (.emit rfl (.nil _))
  exact .append (.append (.append (.append (.append (one _ _ _ _) (one _ _ _ _)) (one _ _ _ _))
    (one _ _ _ _)) (one _ _ _ _)) (one _ _ _ _)

theorem only_ipv6AddrSteps (word : Ipv6Addr → BitVec 128) :
    Only .ofstMeq128 (ipv6AddrSteps attrib word) :=
  .append (.when _ (.emit rfl (.nil _))) (.when _ (.emit rfl (.nil _)))

theorem only_ipv6TosSteps : Only .ofstMeq128 (ipv6TosSteps attrib) :=
  .when _ (.emit rfl (.nil _))

theorem only_ipv4WordSteps : Only .ofstMeq32 (ipv4WordSteps attrib) :=
  .append (.append (.when _ (.emit rfl (.nil _))) (.when _ (.emit rfl (.nil _))))
    (.when _ (.emit rfl (.nil _)))

theorem only_etherTypeSteps : Only .ofstMeq32 (etherTypeSteps attrib) :=
  .when _ (.emit rfl (.nil _))

theorem only_tosMeq32Steps : Only .ofstMeq32 (tosMeq32Steps attrib) :=
  .when _ (.emitTos rfl (.nil _))

theorem only_vlanSteps : Only .ofstMeq32 (vlanSteps attrib) :=
  .when _ (.emit rfl (.nil _))

theorem only_l2tpUdpEtherTypeSteps : Only .ofstMeq32 (l2tpUdpEtherTypeSteps attrib) :=
  .when _ (.emit rfl (.nil _))

theorem only_typeCodeSpiSteps : Only .ihlOfstMeq32 (typeCodeSpiSteps attrib) :=
  .append (.append (.when _ (.emit rfl (.nil _))) (.when _ (.emit rfl (.nil _))))
    (.when _ (.emit rfl (.nil _)))

theorem only_innerMacSteps (offset : Byte) : Only .ihlOfstMeq32 (innerMacSteps attrib offset) :=
  .emit rfl (.emit rfl (.nil _))

theorem only_l2tpDstSteps : Only .ihlOfstMeq32 (l2tpDstSteps attrib) :=
  .when _ (only_innerMacSteps attrib 8)

theorem only_l2tpUdpDstSteps : Only .ihlOfstMeq32 (l2tpUdpDstSteps attrib) :=
  .when _ (only_innerMacSteps attrib 24)

theorem only_tcpSynSteps : Only .ihlOfstMeq32 (tcpSynSteps attrib) :=
  .when _ (.emit rfl (.nil _))

theorem only_tosIhlMeq32Steps : Only .ihlOfstMeq32 (tosIhlMeq32Steps attrib) :=
  .when _ (.emitTos rfl (.nil _))

theorem only_l2tpUdpTcpSynSteps : Only .ihlOfstMeq32 (l2tpUdpTcpSynSteps attrib) :=
  .when _ (.emit rfl (.emit rfl (.nil _)))

theorem only_l2tpUdpNextHdrSteps : Only .ihlOfstMeq32 (l2tpUdpNextHdrSteps attrib) :=
  .when _ (.emit rfl (.nil _))

theorem only_tcpSynL2tpSteps : Only .ihlOfstMeq32 (tcpSynL2tpSteps attrib) :=
  .when _ (.emit rfl (.emit rfl (.nil _)))

theorem only_innerIpTypeSteps (value : BitVec 32) :
    Only .ihlOfstMeq32 (innerIpTypeSteps attrib value) :=
  .when _ (.emit rfl (.nil _))

theorem only_innerIpv4DstSteps : Only .ihlOfstMeq32 (innerIpv4DstSteps attrib) :=
  .when _ (.emit rfl (.nil _))

theorem only_portRangeSteps : Only .ihlOfstRng16 (portRangeSteps attrib) :=
  .append (.when _ (.require _ (.emit rfl (.nil _)))) (.when _ (.require _ (.emit rfl (.nil _))))

theorem only_portSteps : Only .ihlOfstRng16 (portSteps attrib) :=
  .append (.when _ (.emit rfl (.nil _))) (.when _ (.emit rfl (.nil _)))

theorem only_tcpSynL2tpRangeSteps : Only .ihlOfstRng16 (tcpSynL2tpRangeSteps attrib) :=
  .when _ (.emit rfl (.nil _))

end Blocks

/-- The attributes that a rule body assigns to equations in the order of their places: the
inner Ethernet type of L2TP over UDP, which takes a 32-bit slot, comes behind no attribute
that counts from the end of the IP header, and the second next header, whose equation has a
byte too many, is not there. -/
structure IpaRuleAttrib.InPlace (table : EqTable) (ipt : IpaIpType) (attrib : IpaRuleAttrib) :
    Prop where
  pureAck : attrib.has .isPureAck = true → table.valid .isPureAck = true
  innerEtherType : attrib.hasExt .l2tpUdpInnerEtherType = true →
    attrib.has .type = false ∧ attrib.has .code = false ∧ attrib.has .spi = false ∧
      attrib.has .macDstAddrL2tp = false ∧ attrib.has .l2tpUdpInnerMacDstAddr = false
  extNextHdr : ipt = .v6 → attrib.hasExt .nextHdr = false

section Between

variable {table : EqTable} {ipt : IpaIpType} {attrib : IpaRuleAttrib}

/-- The pure ack equation and the TOS equation share a place, and the hardware has one of
them. -/
theorem between_pureAckSteps (supported : attrib.has .isPureAck = true →
    table.valid .isPureAck = true) (tos : Bool) :
    Between table 0 1 (pureAckSteps table attrib ++
      stepsWhen (tos && table.valid .tosEq) [.emitTos (.tos attrib.v4.tos)]) := by
  have either := table.valid_tosEq
  cases ack : table.valid .isPureAck with
  | true =>
    rw [ack, Bool.not_true] at either
    rw [either, Bool.and_false]
    have none : stepsWhen false [Step.emitTos (.tos attrib.v4.tos)] = [] := rfl
    rw [none, List.append_nil]
    exact .when fun _ => @single table .pureAck ack _ rfl
  | false =>
    have absent : attrib.has .isPureAck = false := by
      rw [← Bool.not_eq_true]
      intro present
      rw [supported present] at ack
      cases ack
    have none : pureAckSteps table attrib = [] := by
      unfold pureAckSteps
      rw [absent]
      rfl
    rw [none]
    refine .when fun both => ?_
    exact @single table (.tos attrib.v4.tos) (Bool.and_eq_true_iff.mp both).2 _ rfl

/-- The equations that count from the end of the IP header, with the inner Ethernet type in
their midst. -/
theorem between_innerSteps (inPlace : attrib.InPlace table ipt) :
    Between table 5 6 (typeCodeSpiSteps attrib ++ l2tpDstSteps attrib ++ l2tpUdpDstSteps attrib ++
      l2tpUdpEtherTypeSteps attrib) := by
  cases inner : attrib.hasExt .l2tpUdpInnerEtherType with
  | true =>
    obtain ⟨type, code, spi, l2tpDst, l2tpUdpDst⟩ := inPlace.innerEtherType inner
    have none : typeCodeSpiSteps attrib ++ l2tpDstSteps attrib ++ l2tpUdpDstSteps attrib = [] := by
      unfold typeCodeSpiSteps l2tpDstSteps l2tpUdpDstSteps
      rw [type, code, spi, l2tpDst, l2tpUdpDst]
      rfl
    rw [none]
    exact ((only_l2tpUdpEtherTypeSteps attrib).between table).mono (by decide) (by decide)
  | false =>
    have none : l2tpUdpEtherTypeSteps attrib = [] := by
      unfold l2tpUdpEtherTypeSteps
      rw [inner]
      rfl
    rw [none, List.append_nil]
    have only := ((only_typeCodeSpiSteps attrib).append (only_l2tpDstSteps attrib)).append
      (only_l2tpUdpDstSteps attrib)
    exact (only.between table).mono (by decide) (by decide)

/-- The equations behind those that count from the end of the IP header. -/
theorem between_hwRuleBdyIp4 (inPlace : attrib.InPlace table .v4) :
    Between table 0 11 (hwRuleBdyIp4 table attrib) := by
  have front := between_pureAckSteps inPlace.pureAck (attrib.has .tos)
  have protocol : Between table 1 2
      (stepsWhen (attrib.has .protocol) [.emit (.protocol attrib.v4.protocol)]) :=
    .when fun _ => @single table (.protocol _) trivial _ rfl
  have mac := (only_macAddrSteps attrib).between table
  have words := ((((only_ipv4WordSteps attrib).append (only_etherTypeSteps attrib)).append
    (only_tosMeq32Steps attrib)).append (only_vlanSteps attrib)).between table
  have inner := between_innerSteps inPlace
  have syn := ((only_tcpSynSteps attrib).append (only_tosIhlMeq32Steps attrib)).between table
  have metaData : Between table 6 7 (metaDataSteps attrib) :=
    .when fun _ => @single table (.metadata _ _) trivial _ rfl
  have mtu : Only .ihlOfstRng16
      (stepsWhen (attrib.hasExt .mtu) [.emit (.range16 ⟨130, 0, attrib.payloadLength⟩)]) :=
    .when _ (.emit rfl (.nil _))
  have ranges := ((mtu.append (only_portRangeSteps attrib)).append
    (only_portSteps attrib)).between table
  have fragment : Between table 10 11 (fragmentSteps attrib) :=
    .when fun _ => @single table .isFrag trivial _ rfl
  have last : Between table 11 11 (stepsWhen (attrib.has .tos) [.requireTos]) :=
    .when fun _ => ⟨⟨by rintro e ⟨⟩, by rintro e ⟨⟩, .nil⟩, by rintro e ⟨⟩⟩
  have upToMac := (front.append protocol).append mac
  have upToWords := upToMac.append words
  have upToInner := upToWords.append inner
  have upToSyn := upToInner.append syn
  have upToMetaData := upToSyn.append metaData
  have upToRanges := upToMetaData.append ranges
  have whole := (upToRanges.append fragment).append last
  unfold hwRuleBdyIp4
  simp only [List.append_assoc] at whole ⊢
  exact whole

theorem between_hwRuleBdyIp6 (inPlace : attrib.InPlace table .v6) :
    Between table 0 11 (hwRuleBdyIp6 table attrib) := by
  have front := between_pureAckSteps inPlace.pureAck false
  have nextHdr : Between table 1 2 (nextHdrSteps attrib) :=
    .when fun _ => @single table (.protocol _) trivial _ rfl
  have noExtNextHdr : extNextHdrSteps attrib = [] := by
    unfold extNextHdrSteps
    rw [inPlace.extNextHdr rfl]
    rfl
  have tc : Between table 2 3 (tcSteps attrib) :=
    .when fun _ => @single table (.tc _) trivial _ rfl
  have mac := (((only_ipv6AddrSteps attrib Ipv6Addr.down).append (only_ipv6TosSteps attrib)).append
    (only_macAddrSteps attrib)).between table
  have words := ((only_etherTypeSteps attrib).append (only_vlanSteps attrib)).between table
  have inner := between_innerSteps inPlace
  have syn := ((((((only_l2tpUdpTcpSynSteps attrib).append
    (only_l2tpUdpNextHdrSteps attrib)).append (only_tcpSynSteps attrib)).append
    (only_tcpSynL2tpSteps attrib)).append (only_innerIpTypeSteps attrib
      (if attrib.type = 0x40 then 0x40000000 else 0x60000000))).append
    (only_innerIpv4DstSteps attrib)).between table
  have metaData : Between table 6 7 (metaDataSteps attrib) :=
    .when fun _ => @single table (.metadata _ _) trivial _ rfl
  have ranges := (((only_portSteps attrib).append (only_portRangeSteps attrib)).append
    (only_tcpSynL2tpRangeSteps attrib)).between table
  have flowLabel : Between table 9 10 (flowLabelSteps attrib) :=
    .when fun _ => @single table (.flowLabel _) trivial _ rfl
  have fragment : Between table 10 11 (fragmentSteps attrib) :=
    .when fun _ => @single table .isFrag trivial _ rfl
  have upToTc := (front.append nextHdr).append tc
  have upToMac := upToTc.append mac
  have upToWords := upToMac.append words
  have upToInner := upToWords.append inner
  have upToSyn := upToInner.append syn
  have upToMetaData := upToSyn.append metaData
  have upToRanges := upToMetaData.append ranges
  have upToLabel := upToRanges.append flowLabel
  have whole := upToLabel.append fragment
  unfold hwRuleBdyIp6
  rw [noExtNextHdr]
  simp only [List.append_assoc] at whole ⊢
  exact whole

/-- The steps of a rule body are in order for attributes that are in place. -/
theorem between_hwRuleBdySteps (inPlace : attrib.InPlace table ipt) :
    Between table 0 11 (hwRuleBdySteps table attrib ipt) := by
  cases ipt with
  | v4 => exact between_hwRuleBdyIp4 inPlace
  | v6 => exact between_hwRuleBdyIp6 inPlace

end Between

section Refusals

variable {σ : Type} {table : EqTable} {write : Nat → σ → Emission → σ}

theorem runSteps_append (first second : List Step) (p : Progress σ) :
    runSteps table write (first ++ second) p =
      (runSteps table write first p).bind (runSteps table write second) :=
  List.foldlM_append

/-- A condition that does not hold stops every translator. -/
theorem runSteps_require_false {steps : List Step} (listed : .require false ∈ steps)
    (p : Progress σ) : runSteps table write steps p = none := by
  obtain ⟨before, behind, rfl⟩ := List.append_of_mem listed
  rw [runSteps_append]
  cases runSteps table write before p with
  | none => rfl
  | some reached => rfl

end Refusals

end Sm8650.Fltrt
