import Mathlib.Algebra.Order.BigOperators.Group.List
import Mathlib.Data.List.Nodup
import Sm8650.Fltrt.Agreement

/-!
# Rules encoded directly

A rule body that is made from attributes stands beside no equation record. Its header says
which equations it has, and the parser takes the body apart by that alone: every bit has to be
set once, for one run of offset bytes in the order of the equations.
-/

namespace Sm8650.Fltrt

open Data Data.Words List IpfltriRuleEq Prod

/-! ## Bits that are set -/

/-- The record with an emission in its place, and the equations whose bits have been set, each
as often as it was set. -/
def claim (i : Nat) (state : IpfltriRuleEq × List Equation) (emission : Emission) :
    IpfltriRuleEq × List Equation :=
  (emission.store i state.1, state.2 ++ emission.bits i)

/-- The progress of a translator with another output. -/
def Progress.map {σ τ : Type} (view : σ → τ) (p : Progress σ) : Progress τ :=
  { p with output := view p.output }

/-- What `ipa_fltrt_generate_hw_rule_bdy` assigns to the equations, and whose bits it sets. -/
def hwRuleBdyClaims (table : EqTable) (attrib : IpaRuleAttrib) (ipt : IpaIpType) :
    Option (IpfltriRuleEq × List Equation) :=
  if ipaFltrtRuleGenerationErrCheck ipt attrib then
    (translate table claim (hwRuleBdySteps table attrib ipt) (.zero, [])).map fun p =>
      let eqAtrb := finishEq (p.map fst)
      if attrib.attribMask = 0 then
        ({ eqAtrb with
          ruleEqBitmap := p.enRule ||| table.pattern .offsetMeq32_0
          offsetMeq32 := (⟨0, 0, 0⟩, eqAtrb.offsetMeq32.2)
          numOffsetMeq32 := eqAtrb.numOffsetMeq32 + 1 }, p.output.2 ++ [.offsetMeq32_0])
      else (eqAtrb, p.output.2)
  else none

/-- `IPA3_0_HW_RULE_BUF_SIZE`. -/
def hwRuleBufSize : Nat := 256

/-- An accepted rule sets every bit once and writes as many offset bytes as the equations of
its bits take, both scratch buffers hold what is written, and the parser reads the assigned
values back from the body. -/
def Encodes (table : EqTable) (attrib : IpaRuleAttrib) (ipt : IpaIpType) : Prop :=
  ∀ enRule streams, hwRuleBdyParts table attrib ipt = some (enRule, streams) →
    ∃ eqAtrb claims, hwRuleBdyClaims table attrib ipt = some (eqAtrb, claims) ∧ claims.Nodup ∧
      streams.extra.length = ipaFltrtCalcExtraWrdBytes
        (readBitmap table { zero with ruleEqBitmap := enRule }) ∧
      align streams.extra.length ≤ hdrWidth * 2 ∧ align streams.rest.length ≤ hwRuleBufSize ∧
      ∀ body, ipaFltrtGenerateHwRuleBdy table attrib ipt = some (enRule, body) →
        ∀ header behind : List Byte, header.length % 8 = 0 →
          ipaFltrtParseHwRuleEq table (header ++ body ++ behind) header.length
              { zero with ruleEqBitmap := enRule } =
            some (eqAtrb.cut.inUse, header.length + body.length)

variable {q : Progress (IpfltriRuleEq × List Equation)}

section Claimed

variable {table : EqTable} {p : Progress Streams} {bound : Nat} {emission : Emission}

/-- The equations whose bits have been set are those of the record, and the fragment equation,
which has no bytes, comes last. -/
structure Claimed (table : EqTable) (q : Progress (IpfltriRuleEq × List Equation))
    (bound : Nat) : Prop where
  once : q.output.2.Nodup
  held : ∀ e ∈ q.output.2, (finishEq (q.map fst)).has e = true
  supported : ∀ e ∈ q.output.2, table.valid e = true
  frag : bound ≤ 10 → Equation.isFrag ∉ q.output.2

theorem eq_isFrag {i : Nat} (listed : .isFrag ∈ emission.bits i) : emission = .isFrag := by
  cases emission with
  | isFrag => rfl
  | meq128 eq | meq32 eq | ihlMeq32 eq | range16 eq =>
    simp only [Emission.bits, Slots.equation, mem_singleton] at listed
    split at listed <;> cases listed
  | _ => simp [Emission.bits] at listed

/-- An emission whose place is empty stands for an equation that the record does not have. -/
theorem not_held {q : Progress IpfltriRuleEq} (fits : emission.Fits table)
    (room : q.ranOut emission = false)
    (empty : emission.slots = none → (finishEq q).lane table emission.place = .none) :
    ∀ e ∈ emission.bits (slotOf q emission), e = .isFrag ∨ (finishEq q).has e = false := by
  cases emission with
  | isFrag => exact forall_mem_singleton.mpr (.inl rfl)
  | stray value => exact absurd fits id
  | meq128 eq | meq32 eq | ihlMeq32 eq | range16 eq =>
    refine forall_mem_singleton.mpr (.inr ?_)
    rcases slot_lt room rfl with used | used <;>
      simp [slotOf, Emission.slots, used, Slots.equation, IpfltriRuleEq.has, finishEq]
  | _ =>
    have none := congrArg (fun streams => streams.extra.length + streams.rest.length) (empty rfl)
    refine forall_mem_singleton.mpr (.inr (Bool.eq_false_iff.mpr fun has => ?_))
    have valid : table.valid _ = true := fits.bits_valid 0 _ mem_cons_self
    simp only [IpfltriRuleEq.has] at has
    simp [Emission.place, IpfltriRuleEq.lane, has, Streams.when, Streams.concat, Streams.none,
      metadataStreams, flStreams, valid] at none

theorem Claimed.emit (claimed : Claimed table q bound)
    (written : Written table p (q.map fst) bound) (fits : emission.Fits table)
    (ready : bound ≤ emission.ready) (room : (q.map fst).ranOut emission = false) :
    Claimed table (q.emit table claim emission) (emission.place + 1) := by
  have added := not_held fits room fun single =>
    written.empty _ (ready.trans (by simp [Emission.ready, single]))
  have before : bound ≤ emission.place + 1 := ready.trans (ready_le emission)
  have once : (emission.bits (slotOf (q.map fst) emission)).Nodup := by
    cases emission with
    | stray value => exact nodup_nil
    | _ => exact nodup_singleton _
  constructor
  · refine claimed.once.append once fun e old new => ?_
    rcases added e new with rfl | absent
    · rw [eq_isFrag new] at ready
      exact claimed.frag ready old
    · rw [claimed.held e old] at absent
      cases absent
  · intro e listed
    refine (has_emitted fits room ?_).trans ?_
    · rcases mem_append.mp listed with old | new
      · exact claimed.supported e old
      · exact fits.bits_valid _ e new
    · rcases mem_append.mp listed with old | new
      · rw [claimed.held e old, Bool.true_or]
      · exact Bool.or_eq_true_iff.mpr (.inr (decide_eq_true new))
  · intro e listed
    rcases mem_append.mp listed with old | new
    · exact claimed.supported e old
    · exact fits.bits_valid _ e new
  · intro early listed
    rcases mem_append.mp listed with old | new
    · exact claimed.frag (before.trans early) old
    · rw [eq_isFrag new] at early
      exact absurd early (by decide)

/-- A translator that has written bytes in order has set every bit once on its way. -/
theorem Claimed.run {steps : List Step}
    (claimed : Claimed table q bound) (written : Written table p (q.map fst) bound)
    (ordered : InOrder table bound (emissions steps)) {p' : Progress Streams}
    (ran : runSteps table writeStreams steps p = some p') :
    ∃ q' last, runSteps table claim steps q = some q' ∧
      Written table p' (q'.map fst) last ∧ Claimed table q' last := by
  have both := @runSteps_inStep _ _ table writeStreams claim
    (fun p q bound => Written table p (q.map fst) bound ∧ Claimed table q bound)
    (fun both => both.1.used) (fun both => both.1.tosDone)
    (fun both => ⟨both.1.withTosDone, ⟨both.2.once, both.2.held, both.2.supported, both.2.frag⟩⟩)
    (fun {p q _ emission} both fits ready room => by
      have sameRoom : (q.map fst).ranOut emission = false := by
        rw [← room]
        unfold Progress.ranOut
        rw [both.1.used]
      exact ⟨both.1.emit fits ready room, both.2.emit both.1 fits ready sameRoom⟩)
    steps p q bound ⟨written, claimed⟩ ordered
  rcases both with ⟨failed, -⟩ | ⟨p'', q', last, reached, claims, both⟩
  · rw [ran] at failed
    cases failed
  · cases ran.symm.trans reached
    exact ⟨q', last, claims, both⟩

end Claimed

/-! ## Encoding -/

theorem length_when (present : Bool) (streams : Streams) :
    (Streams.when present streams).rest.length ≤ streams.rest.length := by
  cases present with
  | false => exact Nat.zero_le _
  | true => exact Nat.le_refl _

/-- The values of a record fit the buffer for them. -/
theorem length_rest (table : EqTable) (a : IpfltriRuleEq) :
    align (a.streams table).rest.length ≤ hwRuleBufSize := by
  have lengths : Forall₂ (· ≤ ·) ((parts table a).map (·.streams.rest.length))
      [0, 0, 0, 0, 32, 32, 8, 8, 8, 8, 8, 4, 4, 4, 4, 4] := by
    iterate 16 refine .cons (length_when _ _) ?_
    exact .nil
  have whole : ((parts table a).map (·.streams.rest.length)).sum ≤ 124 := lengths.sum_le_sum
  unfold streams Streams.concat
  rw [length_flatMap]
  show (((parts table a).map (·.streams.rest.length)).sum + 7) / 8 * 8 ≤ 256
  omega

section Encoding

variable {table : EqTable} {attrib : IpaRuleAttrib} {ipt : IpaIpType}

/-- Bytes that stand for a record whose bits were set once encode the rule. -/
theorem Claimed.encodes {p : Progress Streams} {bound : Nat} (claimed : Claimed table q bound)
    (written : Written table p (q.map fst) bound)
    (parts : hwRuleBdyParts table attrib ipt = some (p.enRule, p.output))
    (claims : hwRuleBdyClaims table attrib ipt = some (finishEq (q.map fst), q.output.2)) :
    Encodes table attrib ipt := by
  intro enRule streams made
  rw [parts] at made
  cases made
  have wellFormed := written.wellFormed
  have length := length_extra wellFormed
  have small := wellFormed.extraBytes_le
  have bytes := written.bytes
  rw [← streams_cut] at bytes
  rw [← bytes] at length
  have bitmap : p.enRule = (finishEq (q.map fst)).cut.ruleEqBitmap := written.enRule
  refine ⟨_, _, claims, claimed.once, ?_, ?_, ?_, ?_⟩
  · rw [bitmap, wellFormed.readBitmap_eq]
    exact length
  · unfold align hdrWidth
    omega
  · rw [bytes]
    exact length_rest table _
  · intro body laid header behind whole
    obtain ⟨body', made, -, parsed⟩ := parse_generate wellFormed
    have same : body = body' := by
      unfold ipaFltrtGenerateHwRuleBdy at laid
      rw [parts] at laid
      unfold ipaFltrtGenerateHwRuleBdyFromEq at made
      rw [extraWords_eq_align small, recordStreams_eq, ← length] at made
      cases laid
      cases made
      rw [bytes]
      rfl
    rw [same, bitmap]
    exact parsed header behind whole

theorem Claimed.start (table : EqTable) : Claimed table ⟨0, fun _ => 0, false, (.zero, [])⟩ 0 where
  once := nodup_nil
  held := by rintro e ⟨⟩
  supported := by rintro e ⟨⟩
  frag _ := by rintro ⟨⟩

/-- Without any attribute there is nothing to assign. -/
theorem hwRuleBdySteps_nil (zero : attrib.attribMask = 0)
    (noExtension : attrib.hasExtension ipt = false) : hwRuleBdySteps table attrib ipt = [] := by
  have absent : attrib.has = fun _ => false := by
    funext bit
    unfold IpaRuleAttrib.has
    rw [zero]
    cases bit <;> rfl
  cases ipt with
  | v4 =>
    simp only [IpaRuleAttrib.hasExtension, Bool.or_eq_false_iff] at noExtension
    unfold hwRuleBdySteps hwRuleBdyIp4 pureAckSteps macAddrSteps macSteps ipv4WordSteps
      etherTypeSteps tosMeq32Steps vlanSteps typeCodeSpiSteps l2tpDstSteps l2tpUdpDstSteps
      l2tpUdpEtherTypeSteps tcpSynSteps tosIhlMeq32Steps metaDataSteps portRangeSteps portSteps
      fragmentSteps
    rw [absent, noExtension.1, noExtension.2]
    simp only [Bool.false_and, stepsWhen_false, append_nil]
  | v6 =>
    simp only [IpaRuleAttrib.hasExtension, Bool.or_eq_false_iff] at noExtension
    obtain ⟨inner, ⟨syn, innerNextHdr⟩, nextHdr⟩ := noExtension
    unfold hwRuleBdySteps hwRuleBdyIp6 pureAckSteps nextHdrSteps extNextHdrSteps tcSteps
      ipv6AddrSteps ipv6TosSteps macAddrSteps macSteps etherTypeSteps vlanSteps typeCodeSpiSteps
      l2tpDstSteps l2tpUdpDstSteps l2tpUdpEtherTypeSteps l2tpUdpTcpSynSteps l2tpUdpNextHdrSteps
      tcpSynSteps tcpSynL2tpSteps innerIpTypeSteps innerIpv4DstSteps metaDataSteps portSteps
      portRangeSteps tcpSynL2tpRangeSteps flowLabelSteps fragmentSteps
    rw [absent, inner, nextHdr, syn, innerNextHdr]
    simp only [stepsWhen_false, append_nil]

/-- A rule is encoded well if its attributes come in the order of their equations and one of
the first mask is there, or none of either mask. -/
theorem encodes_of_inPlace
    (inPlace : (attrib.has .isPureAck = true → table.valid .isPureAck = true) →
      attrib.InPlace table ipt)
    (default : attrib.attribMask = 0 → attrib.hasExtension ipt = false) :
    Encodes table attrib ipt := by
  intro enRule streams made
  have accepted := made
  unfold hwRuleBdyParts at accepted
  have checked : ipaFltrtRuleGenerationErrCheck ipt attrib = true := by
    by_contra refused
    rw [if_neg refused] at accepted
    cases accepted
  rw [if_pos checked] at accepted
  by_cases zero : attrib.attribMask = 0
  · have noSteps : hwRuleBdySteps table attrib ipt = [] := hwRuleBdySteps_nil zero (default zero)
    have fits : (Emission.meq32 ⟨0, 0, 0⟩).Fits table := trivial
    have claimed := (Claimed.start table).emit (Written.start table) fits (Nat.zero_le _) rfl
    have written := (Written.start table).emit fits (Nat.zero_le _) rfl
    refine claimed.encodes written ?_ ?_ enRule streams made
    · unfold hwRuleBdyParts
      rw [if_pos checked, noSteps]
      exact congrArg some ((if_pos zero).trans rfl)
    · unfold hwRuleBdyClaims
      rw [if_pos checked, noSteps]
      exact congrArg some ((if_pos zero).trans rfl)
  · obtain ⟨p, ran, output⟩ := Option.map_eq_some_iff.mp accepted
    have supported : attrib.has .isPureAck = true → table.valid .isPureAck = true := by
      intro present
      by_contra lacking
      have refused := (@require_false_mem table attrib ipt
        (.inl ⟨present, Bool.eq_false_iff.mpr lacking⟩)).1
      unfold translate at ran
      rw [runSteps_require_false refused] at ran
      cases ran
    obtain ⟨q, last, claims, written, claimed⟩ := (Claimed.start table).run (Written.start table)
      (between_hwRuleBdySteps (inPlace supported)).ordered ran
    refine claimed.encodes written ?_ ?_ enRule streams made
    · unfold hwRuleBdyParts
      rw [if_pos checked, ran]
      exact congrArg some (if_neg zero)
    · unfold hwRuleBdyClaims translate
      rw [if_pos checked, claims]
      exact congrArg some (if_neg zero)

end Encoding

theorem encodes_hostAttrib : Encodes eqTablePureAck hostAttrib .v4 :=
  encodes_of_inPlace hostAttrib_uniform.inPlace (fun zero => by cases zero)

/-- The inner ether type of an extended attribute gets its bytes behind those of an SPI, whose
equation comes after its own: the parser gives each the offset of the other. -/
theorem not_encodes_spi :
    ¬ Encodes eqTablePureAck
      { noAttrib with attribMask := 0x100, extAttribMask := 2, spi := 5 } .v4 := by
  intro encodes
  generalize shape : ({ noAttrib with attribMask := 0x100, extAttribMask := 2, spi := 5 } :
    IpaRuleAttrib) = attrib at encodes
  have differs : ((ipaFltrtGenerateHwRuleBdy eqTablePureAck attrib .v4).bind fun rule =>
      (ipaFltrtParseHwRuleEq eqTablePureAck ([] ++ rule.2 ++ []) 0
        { zero with ruleEqBitmap := rule.1 }).map fst) ≠
      (hwRuleBdyClaims eqTablePureAck attrib .v4).map (·.1.cut.inUse) := by
    subst shape
    decide +kernel
  cases made : hwRuleBdyParts eqTablePureAck attrib .v4 with
  | none =>
    subst shape
    cases made
  | some parts =>
    obtain ⟨eqAtrb, claims, assigned, -, -, -, -, reads⟩ := encodes parts.1 parts.2 made
    have laid : ipaFltrtGenerateHwRuleBdy eqTablePureAck attrib .v4 = some (parts.1, _) :=
      congrArg (Option.map _) made
    rw [laid, assigned] at differs
    exact differs (congrArg (Option.map fst) (reads _ laid [] [] rfl))

end Sm8650.Fltrt
