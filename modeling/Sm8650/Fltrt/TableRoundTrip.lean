import Sm8650.Fltrt.BodyRoundTrip
import Sm8650.Fltrt.Rules

/-!
# Filtering tables read back

The parsers of the versions up to 5.0 recover a table of equation rules from its image: the
header fields that a version has, and the equations in use. What a rule must not have is a
zero header word, since that is how a table ends.
-/

namespace Sm8650.Fltrt

open Data Data.Words List

/-! ## One rule -/

/-- A layout that fills the header word, with the rule's bits among its fields. -/
structure HeaderLayout (layout : List (HdrField × Nat)) : Prop where
  distinct : (layout.map Prod.fst).Nodup
  fills : (layout.map Prod.snd).sum = 64
  enRule : (.enRule, 16) ∈ layout

/-- Values that fit the fields of a layout. -/
def FitLayout (layout : List (HdrField × Nat)) (values : HdrField → Nat) : Prop :=
  ∀ entry ∈ layout, values entry.1 < 2 ^ entry.2

variable {layout : List (HdrField × Nat)}

theorem HeaderLayout.field_word (filled : HeaderLayout layout) {values : HdrField → Nat}
    (fit : FitLayout layout values) :
    ∀ entry ∈ layout, field layout entry.1 (pack layout values) = values entry.1 := by
  intro entry listed
  rw [field_pack filled.distinct listed, Nat.mod_eq_of_lt (fit entry listed)]

theorem HeaderLayout.ofBytes_word (filled : HeaderLayout layout) (values : HdrField → Nat)
    (behind : List Byte) :
    ofBytes ((toBytes 8 (pack layout values) ++ behind).take 8) = pack layout values := by
  have small := pack_lt layout values
  rw [filled.fills] at small
  rw [take_left' (length_toBytes 8 _), ofBytes_toBytes small]

/-- The header parser looks at the fields of the layout only, and leaves the equations to the
parser of the body. -/
structure ReadsLayout (layout : List (HdrField × Nat))
    (parseHeader : (HdrField → Nat) → FltRuleEntry) : Prop where
  congr : ∀ get values : HdrField → Nat, (∀ entry ∈ layout, get entry.1 = values entry.1) →
    parseHeader get = parseHeader values
  fresh : ∀ get, (parseHeader get).eqAttrib = .zero

/-- The parser reads a generated rule back: the header fields, the equations in use, and the
size. -/
theorem parseHwRule_genHwRule (filled : HeaderLayout layout) {table : EqTable} {a : IpfltriRuleEq}
    (wellFormed : a.WellFormed table) {header : BitVec 16 → HdrField → Nat}
    {parseHeader : (HdrField → Nat) → FltRuleEntry} (reads : ReadsLayout layout parseHeader)
    (bits : header a.ruleEqBitmap .enRule = a.ruleEqBitmap.toNat)
    (fit : FitLayout layout (header a.ruleEqBitmap))
    (word : pack layout (header a.ruleEqBitmap) ≠ 0) :
    ∃ rule,
      genHwRule layout true header
          ((ipaFltrtGenerateHwRuleBdyFromEq table a).map fun body => (a.ruleEqBitmap, body)) 0 =
        some rule ∧ 0 < rule.length ∧
      ∀ behind,
        parseHwRule table layout parseHeader (rule ++ behind) =
          some
            { parseHeader (header a.ruleEqBitmap) with
              eqAttrib := a.inUse, ruleSize := rule.length } := by
  obtain ⟨body, made, -, parsed⟩ := parse_generate wellFormed
  have eight := length_toBytes 8 (pack layout (header a.ruleEqBitmap))
  have get := filled.field_word fit
  refine ⟨toBytes 8 (pack layout (header a.ruleEqBitmap)) ++ body, ?_, ?_, fun behind => ?_⟩
  · unfold genHwRule
    rw [made, if_pos rfl, Option.map_some, Option.bind_some]
    exact if_pos (Or.inl rfl)
  · rw [length_append]
    omega
  · have enRule : BitVec.ofNat 16 (field layout .enRule (pack layout (header a.ruleEqBitmap))) =
        a.ruleEqBitmap := by
      rw [get _ filled.enRule, bits, BitVec.ofNat_toNat, BitVec.setWidth_eq]
    have found := parsed (toBytes 8 (pack layout (header a.ruleEqBitmap))) behind (by rw [eight])
    rw [eight] at found
    unfold parseHwRule parseBody
    dsimp only
    rw [append_assoc, filled.ofBytes_word, if_neg word, reads.fresh, enRule, ←
      append_assoc, found, reads.congr _ (header a.ruleEqBitmap) get, length_append]
    rfl

/-! ## The versions -/

/-- The checks of an entry's generator. -/
def FltrtObj.checks : FltrtObj → FltRuleGenParams → Bool
  | .v3_0 => FltRuleGenParams.checks3_0
  | .v4_0 | .v4_2 | .v4_5 => FltRuleGenParams.checks4_0
  | .v5_0 | .v5_5 => FltRuleGenParams.checks5_0

/-- The header word of a rule given by equations. -/
def FltrtObj.headerWord (obj : FltrtObj) (params : FltRuleGenParams) : Nat :=
  let enRule := params.eqAttrib.ruleEqBitmap
  match obj with
  | .v3_0 => pack fltRuleHwHdr3_0 (params.header3_0 enRule)
  | .v4_0 | .v4_2 => pack fltRuleHwHdr4_0 (params.header4_0 enRule)
  | .v4_5 => pack fltRuleHwHdr4_5 (params.header4_5 enRule)
  | .v5_0 => pack fltRuleHwHdr5_0 (params.header5_0 enRule)
  | .v5_5 => pack fltRuleHwHdr5_5 (params.header5_5 enRule)

/-- The entry that stands for a rule: the header fields that the version has, flags as 0 or 1,
the equations in use, and the size of the rule. -/
def FltrtObj.recovered (obj : FltrtObj) (params : FltRuleGenParams) : FltRuleEntry :=
  let entry3_0 : FltRuleEntry :=
    { FltRuleEntry.zero with
      action := params.action
      rtTblIdx := params.rtTblIdx
      retainHdr := flag params.retainHdr
      priority := params.priority
      id := params.id
      eqAttribType := true
      eqAttrib := params.eqAttrib.inUse
      ruleSize := ((obj.fltGenerateHwRule params 0).getD []).length }
  let entry4_0 :=
    { entry3_0 with
      pdnIdx := params.pdnIdx.toNat
      setMetadata := flag params.setMetadata }
  let entry4_5 := { entry4_0 with cntIdx := params.cntIdx.toNat }
  let entry5_0 := { entry4_5 with closeAggrIrqMod := flag params.closeAggrIrqMod }
  match obj with
  | .v3_0 => entry3_0
  | .v4_0 | .v4_2 => entry4_0
  | .v4_5 => entry4_5
  | .v5_0 => entry5_0
  | .v5_5 =>
    { entry5_0 with
      ttlUpdate := flag params.ttlUpdate
      qosClass := params.qosClass.toNat }

/-- A rule given by equations that a table can hold: its fields are in range, where the
metadata flag goes into its bit unchanged it is a flag, and its header word does not look like
the end of the table. -/
structure FltRuleGenParams.Holdable (obj : FltrtObj) (params : FltRuleGenParams) : Prop where
  equations : params.eqAttribType = true
  wellFormed : params.eqAttrib.WellFormed obj.eqTable
  checked : obj.checks params = true
  setMetadata : obj = .v4_0 ∨ obj = .v4_2 ∨ obj = .v4_5 → params.setMetadata.toNat ≤ 1
  word : obj.headerWord params ≠ 0

theorem flag_lt (x : Byte) : flag x < 2 ^ 1 := by
  unfold flag
  by_cases zero : x = 0
  · rw [if_pos zero]; decide
  · rw [if_neg zero]; decide

theorem flag_of_le {x : Byte} (small : x.toNat ≤ 1) : flag x = x.toNat := by
  unfold flag
  by_cases zero : x = 0
  · rw [zero]; rfl
  · rw [if_neg zero]
    have positive : x.toNat ≠ 0 := fun same => zero (BitVec.eq_of_toNat_eq same)
    omega

theorem layout3_0 : HeaderLayout fltRuleHwHdr3_0 := ⟨by decide, rfl, by decide⟩

theorem layout4_0 : HeaderLayout fltRuleHwHdr4_0 := ⟨by decide, rfl, by decide⟩

theorem layout4_5 : HeaderLayout fltRuleHwHdr4_5 := ⟨by decide, rfl, by decide⟩

theorem layout5_0 : HeaderLayout fltRuleHwHdr5_0 := ⟨by decide, rfl, by decide⟩

theorem reads3_0 : ReadsLayout fltRuleHwHdr3_0 parseHeader3_0 where
  congr get values same := by
    unfold parseHeader3_0
    rw [same (.action, 5) (by decide), same (.rtTblIdx, 5) (by decide),
      same (.retainHdr, 1) (by decide), same (.priority, 10) (by decide),
      same (.ruleId, 10) (by decide)]
  fresh _ := rfl

theorem reads4_0 : ReadsLayout fltRuleHwHdr4_0 parseHeader4_0 where
  congr get values same := by
    unfold parseHeader4_0 parseHeader3_0
    rw [same (.action, 5) (by decide), same (.rtTblIdx, 5) (by decide),
      same (.retainHdr, 1) (by decide), same (.priority, 10) (by decide),
      same (.ruleId, 10) (by decide), same (.pdnIdx, 4) (by decide),
      same (.setMetadata, 1) (by decide)]
  fresh _ := rfl

theorem reads4_5 : ReadsLayout fltRuleHwHdr4_5 parseHeader4_5 where
  congr get values same := by
    unfold parseHeader4_5 parseHeader4_0 parseHeader3_0
    rw [same (.action, 5) (by decide), same (.rtTblIdx, 5) (by decide),
      same (.retainHdr, 1) (by decide), same (.priority, 10) (by decide),
      same (.ruleId, 10) (by decide), same (.pdnIdx, 4) (by decide),
      same (.setMetadata, 1) (by decide), same (.statsCntIdxLsb, 6) (by decide),
      same (.statsCntIdxMsb, 2) (by decide)]
  fresh _ := rfl

theorem reads5_0 : ReadsLayout fltRuleHwHdr5_0 parseHeader5_0 where
  congr get values same := by
    unfold parseHeader5_0 parseHeader4_0 parseHeader3_0
    rw [same (.action, 5) (by decide), same (.rtTblIdx, 8) (by decide),
      same (.retainHdr, 1) (by decide), same (.priority, 8) (by decide),
      same (.ruleId, 10) (by decide), same (.pdnIdx, 4) (by decide),
      same (.setMetadata, 1) (by decide), same (.statsCntIdx, 8) (by decide),
      same (.closeAggrIrqMod, 1) (by decide)]
  fresh _ := rfl

/-- The counter index is put together again from its two parts. -/
theorem cntIdx_parts (cntIdx : Byte) :
    (cntIdx &&& 0x3F).toNat ||| ((cntIdx &&& 0xC0) >>> 6).toNat <<< 6 = cntIdx.toNat := by
  revert cntIdx
  decide +kernel

theorem cntIdx_parts_lt (cntIdx : Byte) :
    (cntIdx &&& 0x3F).toNat < 2 ^ 6 ∧ ((cntIdx &&& 0xC0) >>> 6).toNat < 2 ^ 2 := by
  revert cntIdx
  decide +kernel

variable {params : FltRuleGenParams}

theorem FltRuleGenParams.fit3_0 (checked : params.checks3_0 = true) (enRule : BitVec 16)
    : FitLayout fltRuleHwHdr3_0 (params.header3_0 enRule) := by
  unfold checks3_0 commonChecks at checked
  simp only [Bool.and_eq_true, decide_eq_true_eq] at checked
  have retainHdr := flag_lt params.retainHdr
  unfold FitLayout fltRuleHwHdr3_0
  simp only [forall_mem_cons, not_mem_nil, false_imp_iff, implies_true, and_true, header3_0]
  omega

theorem FltRuleGenParams.bounds4_0 (checked : params.checks4_0 = true) :
    params.action ≤ 3 ∧ params.id < 1023 ∧ params.rtTblIdx ≤ 0x1F ∧ params.priority ≤ 0x3FF ∧
      params.pdnIdx.toNat ≤ 0xF := by
  unfold checks4_0 checks3_0 commonChecks at checked
  simp only [Bool.and_eq_true, decide_eq_true_eq] at checked
  obtain ⟨⟨⟨⟨action, id⟩, rtTblIdx⟩, priority⟩, pdnIdx⟩ := checked
  exact ⟨action, id, rtTblIdx, priority, pdnIdx⟩

theorem FltRuleGenParams.fit4_0 (checked : params.checks4_0 = true)
    (oneBit : params.setMetadata.toNat ≤ 1) (enRule : BitVec 16) :
    FitLayout fltRuleHwHdr4_0 (params.header4_0 enRule) := by
  obtain ⟨action, id, rtTblIdx, priority, pdnIdx⟩ := bounds4_0 checked
  have retainHdr := flag_lt params.retainHdr
  unfold FitLayout fltRuleHwHdr4_0
  simp only [forall_mem_cons, not_mem_nil, false_imp_iff, implies_true, and_true,
    header4_0, header3_0]
  omega

theorem FltRuleGenParams.fit4_5 (checked : params.checks4_0 = true)
    (oneBit : params.setMetadata.toNat ≤ 1) (enRule : BitVec 16) :
    FitLayout fltRuleHwHdr4_5 (params.header4_5 enRule) := by
  obtain ⟨action, id, rtTblIdx, priority, pdnIdx⟩ := bounds4_0 checked
  obtain ⟨lsb, msb⟩ := cntIdx_parts_lt params.cntIdx
  have retainHdr := flag_lt params.retainHdr
  unfold FitLayout fltRuleHwHdr4_5
  simp only [forall_mem_cons, not_mem_nil, false_imp_iff, implies_true, and_true,
    header4_5, header4_0, header3_0]
  all_goals omega

theorem FltRuleGenParams.fit5_0 (checked : params.checks5_0 = true) (enRule : BitVec 16)
    : FitLayout fltRuleHwHdr5_0 (params.header5_0 enRule) := by
  unfold checks5_0 commonChecks at checked
  simp only [Bool.and_eq_true, decide_eq_true_eq] at checked
  have retainHdr := flag_lt params.retainHdr
  have setMetadata := flag_lt params.setMetadata
  have closeAggrIrqMod := flag_lt params.closeAggrIrqMod
  unfold FitLayout fltRuleHwHdr5_0
  simp only [forall_mem_cons, not_mem_nil, false_imp_iff, implies_true, and_true,
    header5_0, header3_0]
  omega

theorem recovered_size (obj : FltrtObj) {rule : List Byte}
    (made : obj.fltGenerateHwRule params 0 = some rule) :
    (obj.recovered params).ruleSize = rule.length := by
  have size : (obj.recovered params).ruleSize =
      ((obj.fltGenerateHwRule params 0).getD []).length := by
    cases obj <;> rfl
  rw [size, made]
  rfl

/-- A rule that a table can hold is generated, and its parser finds it. -/
theorem rule_recovered {obj : FltrtObj} (before5_5 : obj ≠ .v5_5) (holdable : params.Holdable obj) :
    ∃ rule, obj.fltGenerateHwRule params 0 = some rule ∧ 0 < rule.length ∧
      (obj.recovered params).ruleSize = rule.length ∧
      ∀ behind, obj.fltParseHwRule (rule ++ behind) = some (obj.recovered params) := by
  have checked := holdable.checked
  have word := holdable.word
  have body : ∀ table, params.body table =
      (ipaFltrtGenerateHwRuleBdyFromEq table params.eqAttrib).map fun body =>
        (params.eqAttrib.ruleEqBitmap, body) := fun table => if_pos holdable.equations
  cases obj with
  | v3_0 =>
    obtain ⟨rule, made, positive, parsed⟩ := parseHwRule_genHwRule layout3_0
      holdable.wellFormed reads3_0 rfl (params.fit3_0 checked _) word
    rw [← body, ← checked] at made
    have size := recovered_size .v3_0 made
    refine ⟨rule, made, positive, size, fun behind => (parsed behind).trans ?_⟩
    rw [← size]
    rfl
  | v4_0 =>
    obtain ⟨rule, made, positive, parsed⟩ := parseHwRule_genHwRule layout4_0
      holdable.wellFormed reads4_0 rfl (params.fit4_0 checked (holdable.setMetadata (.inl rfl)) _) word
    rw [← body, ← checked] at made
    have size := recovered_size .v4_0 made
    refine ⟨rule, made, positive, size, fun behind => (parsed behind).trans ?_⟩
    rw [← size]
    unfold FltrtObj.recovered
    rw [flag_of_le (holdable.setMetadata (.inl rfl))]
    rfl
  | v4_2 =>
    obtain ⟨rule, made, positive, parsed⟩ := parseHwRule_genHwRule layout4_0
      holdable.wellFormed reads4_0 rfl (params.fit4_0 checked (holdable.setMetadata (.inr (.inl rfl))) _) word
    rw [← body, ← checked] at made
    have size := recovered_size .v4_2 made
    refine ⟨rule, made, positive, size, fun behind => (parsed behind).trans ?_⟩
    rw [← size]
    unfold FltrtObj.recovered
    rw [flag_of_le (holdable.setMetadata (.inr (.inl rfl)))]
    rfl
  | v4_5 =>
    obtain ⟨rule, made, positive, parsed⟩ := parseHwRule_genHwRule layout4_5
      holdable.wellFormed reads4_5 rfl (params.fit4_5 checked (holdable.setMetadata (.inr (.inr rfl))) _) word
    rw [← body, ← checked] at made
    have size := recovered_size .v4_5 made
    refine ⟨rule, made, positive, size, fun behind => (parsed behind).trans ?_⟩
    rw [← size]
    unfold FltrtObj.recovered
    rw [flag_of_le (holdable.setMetadata (.inr (.inr rfl))), ← cntIdx_parts params.cntIdx]
    rfl
  | v5_0 =>
    obtain ⟨rule, made, positive, parsed⟩ := parseHwRule_genHwRule layout5_0
      holdable.wellFormed reads5_0 rfl (params.fit5_0 checked _) word
    rw [← body, ← checked] at made
    have size := recovered_size .v5_0 made
    refine ⟨rule, made, positive, size, fun behind => (parsed behind).trans ?_⟩
    rw [← size]
    rfl
  | v5_5 => exact absurd rfl before5_5

/-! ## Tables -/

theorem parse_terminator (obj : FltrtObj) : obj.fltParseHwRule (replicate 8 0) = some .zero := by
  cases obj <;> rfl

theorem writeTable_nil (obj : FltrtObj) : writeTable obj [] = some (replicate 8 0) := rfl

theorem writeTable_cons {obj : FltrtObj} {rules : List FltRuleGenParams} {rule image : List Byte}
    (first : obj.fltGenerateHwRule params 0 = some rule)
    (others : writeTable obj rules = some image) :
    writeTable obj (params :: rules) = some (rule ++ image) := by
  unfold writeTable writeRules at others ⊢
  rw [mapM_cons, first]
  cases behind : rules.mapM fun rule => obj.fltGenerateHwRule rule 0 with
  | none =>
    rw [behind] at others
    cases others
  | some images =>
    rw [behind] at others
    obtain rfl := Option.some.inj others
    simp

/-- A table of rules that it can hold is read back rule by rule up to its end. -/
theorem table_recovered {version : IpaHwType} (before5_5 : version ≠ .v5_5)
    {rules : List FltRuleGenParams} (holdable : ∀ rule ∈ rules, rule.Holdable version.obj) :
    ∃ image, writeTable version.obj rules = some image ∧
      ∀ fuel, rules.length < fuel →
        readTable version.obj fuel image = some (rules.map version.obj.recovered) := by
  have obj_before : version.obj ≠ .v5_5 := by
    cases version with
    | v5_5 => exact absurd rfl before5_5
    | _ => decide
  induction rules with
  | nil =>
    refine ⟨_, writeTable_nil _, fun fuel enough => ?_⟩
    obtain ⟨fuel, rfl⟩ := Nat.exists_eq_add_one_of_ne_zero (Nat.ne_of_gt enough)
    unfold readTable
    rw [parse_terminator]
    rfl
  | cons params rules ih =>
    obtain ⟨first, others⟩ := forall_mem_cons.mp holdable
    obtain ⟨image, written, read⟩ := ih others
    obtain ⟨rule, made, positive, size, parsed⟩ := rule_recovered obj_before first
    refine ⟨rule ++ image, writeTable_cons made written, fun fuel enough => ?_⟩
    obtain ⟨fuel, rfl⟩ := Nat.exists_eq_add_one_of_ne_zero
      (Nat.ne_of_gt (Nat.lt_of_le_of_lt (Nat.zero_le _) enough))
    have more : (version.obj.recovered params).ruleSize ≠ 0 := by
      rw [size]
      exact Nat.ne_of_gt positive
    unfold readTable
    rw [parsed, Option.bind_eq_bind, Option.bind_some, if_neg more, size, drop_left,
      read fuel (Nat.lt_of_add_lt_add_right enough)]
    rfl

/-! ## Rules that a table can and cannot hold -/

/-- Attributes that say nothing, for rules that are given by equations. -/
def noAttrib : IpaRuleAttrib :=
  ⟨0, 0, 0, 0, 0, 0, 0, 0, 0, 0, 0, 0, 0, 0, ⟨0, 0, 0, 0, 0, 0⟩, ⟨0, 0, 0, 0, 0, 0⟩,
    ⟨0, 0, 0, 0, 0, 0⟩, ⟨0, 0, 0, 0, 0, 0⟩, 0, ⟨0, 0, 0, 0, 0, 0⟩,
    ⟨0, 0, 0, ⟨0, 0, 0, 0⟩, ⟨0, 0, 0, 0⟩, ⟨0, 0, 0, 0⟩, ⟨0, 0, 0, 0⟩⟩, 0, 0, 0, 0⟩

/-- A rule that matches everything, with id 0, to routing table 0. -/
def bareRule : FltRuleGenParams where
  ipt := .v4
  rtTblIdx := 0
  priority := 0
  id := 0
  cntIdx := 0
  action := 0
  retainHdr := 0
  pdnIdx := 0
  setMetadata := 0
  closeAggrIrqMod := 0
  ttlUpdate := 0
  qosClass := 0
  eqAttribType := true
  eqAttrib := .zero
  attrib := noAttrib

/-- A rule that compares the protocol and a word of the IP header. -/
def wordRule : FltRuleGenParams :=
  { bareRule with
    id := 5
    cntIdx := 200
    eqAttrib :=
      { IpfltriRuleEq.zero with
        ruleEqBitmap := 0x22
        protocolEqPresent := true
        protocolEq := 6
        numOffsetMeq32 := 1
        offsetMeq32 := (⟨12, 0xFFFFFFFF, 0xC0A80001⟩, ⟨0, 0, 0⟩) } }

/-- A rule that compares the metadata, with an offset in its equation. -/
def metadataRule : FltRuleGenParams :=
  { bareRule with
    id := 5
    eqAttrib :=
      { IpfltriRuleEq.zero with
        ruleEqBitmap := 0x200
        metadataMeq32Present := true
        metadataMeq32 := ⟨5, 0xFF, 0x11⟩ } }

theorem bareRule_wellFormed : bareRule.eqAttrib.WellFormed eqTableTos :=
  ⟨by decide, by decide, by decide, by decide, by decide +kernel, by decide, fun _ => rfl⟩

theorem metadataRule_wellFormed : metadataRule.eqAttrib.WellFormed eqTableTos :=
  ⟨by decide, by decide, by decide, by decide, by decide +kernel, by decide, fun _ => rfl⟩

theorem wordRule_holdable : wordRule.Holdable IpaHwType.v4_5.obj where
  equations := rfl
  wellFormed :=
    ⟨by decide, by decide, by decide, by decide, by decide +kernel, by decide, fun _ => rfl⟩
  checked := rfl
  setMetadata _ := Nat.zero_le 1
  word := by decide +kernel

theorem table_recovered_wordRule :
    ∃ image, writeTable IpaHwType.v4_5.obj [wordRule] = some image ∧
      ∀ fuel, [wordRule].length < fuel →
        readTable IpaHwType.v4_5.obj fuel image =
          some ([wordRule].map IpaHwType.v4_5.obj.recovered) :=
  table_recovered (by decide) fun _ listed => mem_singleton.mp listed ▸ wordRule_holdable

/-- The bare rule is taken for the end of the table, and the offset of a metadata equation is
not in the image. -/
theorem table_not_recovered :
    bareRule.eqAttrib.WellFormed eqTableTos ∧ metadataRule.eqAttrib.WellFormed eqTableTos ∧
      FltrtObj.v3_0.checks bareRule = true ∧ FltrtObj.v3_0.checks metadataRule = true ∧
      (writeTable .v3_0 [bareRule]).bind (readTable .v3_0 2) = some [] ∧
      ((writeTable .v3_0 [metadataRule]).bind (readTable .v3_0 2)).map
          (List.map fun entry => entry.eqAttrib.metadataMeq32.offset) = some [0] ∧
      metadataRule.eqAttrib.metadataMeq32.offset = 5 :=
  ⟨bareRule_wellFormed, metadataRule_wellFormed, by decide, by decide, by decide +kernel,
    by decide +kernel, rfl⟩

end Sm8650.Fltrt
