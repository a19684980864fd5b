import Sm8650.Data.FlagSet
import Sm8650.Data.Words

/-!
# Rule equations

The equations of IPA filtering and routing rules as `ipahal_fltrt.c` keeps them: the
record `struct ipa_ipfltri_rule_eq`, and the table of each hardware version that gives
every equation its bit of the rule bitmap.
-/

namespace Sm8650.Fltrt

open Data Data.Words

/-! ## Equations and their bits -/

/-- `enum ipa_fltrt_equations`. -/
inductive Equation where
  | tosEq
  | protocolEq
  | tcEq
  | offsetMeq128_0
  | offsetMeq128_1
  | offsetMeq32_0
  | offsetMeq32_1
  | ihlOffsetMeq32_0
  | ihlOffsetMeq32_1
  | metadataCompare
  | ihlOffsetRange16_0
  | ihlOffsetRange16_1
  | ihlOffsetEq32
  | ihlOffsetEq16
  | flEq
  | isFrag
  | isPureAck
deriving DecidableEq, Repr

/-- All equations, in the order of the enumeration. -/
def equations : List Equation :=
  [.tosEq, .protocolEq, .tcEq, .offsetMeq128_0, .offsetMeq128_1, .offsetMeq32_0, .offsetMeq32_1,
    .ihlOffsetMeq32_0, .ihlOffsetMeq32_1, .metadataCompare, .ihlOffsetRange16_0,
    .ihlOffsetRange16_1, .ihlOffsetEq32, .ihlOffsetEq16, .flEq, .isFrag, .isPureAck]

theorem mem_equations (equation : Equation) : equation ∈ equations := by
  cases equation <;> decide

/-- The `eq_bitfield` of a hardware version. Bit 0 belongs either to the TOS equation or to
the pure ack equation; the other of the two is 0xFF, which stands for not supported. -/
structure EqTable where
  bit : Equation → Nat
  distinct : ∀ e ∈ equations, ∀ f ∈ equations, bit e = bit f → bit e ≠ 0xFF → e = f
  small : ∀ e ∈ equations, bit e ≠ 0xFF → bit e < 16
  others : ∀ e ∈ equations, e ≠ .tosEq → e ≠ .isPureAck → bit e ≠ 0xFF
  tosOrAck : bit .tosEq = 0xFF ↔ bit .isPureAck ≠ 0xFF

/-- The bits that are the same in all versions. -/
def commonBit : Equation → Nat
  | .protocolEq => 1
  | .tcEq => 2
  | .offsetMeq128_0 => 3
  | .offsetMeq128_1 => 4
  | .offsetMeq32_0 => 5
  | .offsetMeq32_1 => 6
  | .ihlOffsetMeq32_0 => 7
  | .ihlOffsetMeq32_1 => 8
  | .metadataCompare => 9
  | .ihlOffsetRange16_0 => 10
  | .ihlOffsetRange16_1 => 11
  | .ihlOffsetEq32 => 12
  | .ihlOffsetEq16 => 13
  | .flEq => 14
  | .isFrag => 15
  | .tosEq => 0xFF
  | .isPureAck => 0xFF

/-- The `eq_bitfield` of versions 3.0, 4.0 and 4.2. -/
def eqTableTos : EqTable where
  bit e := if e = .tosEq then 0 else commonBit e
  distinct := by decide
  small := by decide
  others := by decide
  tosOrAck := by decide

/-- The `eq_bitfield` of versions 4.5, 5.0 and 5.5. -/
def eqTablePureAck : EqTable where
  bit e := if e = .isPureAck then 0 else commonBit e
  distinct := by decide
  small := by decide
  others := by decide
  tosOrAck := by decide

namespace EqTable

variable (table : EqTable)

/-- `IPA_IS_RULE_EQ_VALID`. -/
def valid (e : Equation) : Bool := table.bit e != 0xFF

/-- `IPA_GET_RULE_EQ_BIT_PTRN`. -/
def pattern (e : Equation) : BitVec 16 := FlagSet.single 16 (table.bit e)

/-- Whether a bitmap has the bit of the equation. -/
def isSet (bitmap : BitVec 16) (e : Equation) : Bool := FlagSet.mem bitmap (table.bit e)

theorem valid_others {e : Equation} (not_tos : e ≠ .tosEq) (not_ack : e ≠ .isPureAck) :
    table.valid e = true :=
  bne_iff_ne.mpr (table.others e (mem_equations e) not_tos not_ack)

theorem valid_tosEq : table.valid .tosEq = !table.valid .isPureAck := by
  have either := table.tosOrAck
  unfold valid
  by_cases ack : table.bit .isPureAck = 0xFF
  · rw [ack]
    exact bne_iff_ne.mpr fun tos => either.mp tos ack
  · rw [either.mpr ack, bne_iff_ne.mpr ack]
    rfl

/-- The bitmap of a set of supported equations. -/
def bitmapOf (present : Equation → Bool) : BitVec 16 :=
  FlagSet.insertAll 0 ((equations.filter fun e => table.valid e && present e).map table.bit)

theorem isSet_bitmapOf (present : Equation → Bool) {e : Equation} (valid : table.valid e = true) :
    table.isSet (table.bitmapOf present) e = present e := by
  have supported : table.bit e ≠ 0xFF := bne_iff_ne.mp valid
  have inside := table.small e (mem_equations e) supported
  unfold isSet bitmapOf
  rw [FlagSet.mem_eq_getLsbD, FlagSet.getLsbD_insertAll, Bool.eq_iff_iff, Bool.or_eq_true,
    decide_eq_true_eq]
  constructor
  · rintro (zero | ⟨-, member⟩)
    · exact absurd zero (by simp)
    · obtain ⟨f, listed, same⟩ := List.mem_map.mp member
      obtain ⟨-, both⟩ := List.mem_filter.mp listed
      rw [Bool.and_eq_true] at both
      have equal := table.distinct f (mem_equations f) e (mem_equations e) same
        (bne_iff_ne.mp both.1)
      exact equal ▸ both.2
  · intro has
    have listed : e ∈ equations.filter fun f => table.valid f && present f :=
      List.mem_filter.mpr ⟨mem_equations e, by rw [valid, has]; rfl⟩
    exact .inr ⟨inside, List.mem_map_of_mem listed⟩

end EqTable

/-! ## Equation records -/

/-- `struct ipa_ipfltr_mask_eq_128`. The arrays of 16 bytes are words whose byte `i`, counted
from the low end, is the array's element `i`. -/
structure MaskEq128 where
  offset : Byte
  mask : BitVec 128
  value : BitVec 128
deriving DecidableEq, Repr

/-- `struct ipa_ipfltr_mask_eq_32`. -/
structure MaskEq32 where
  offset : Byte
  mask : BitVec 32
  value : BitVec 32
deriving DecidableEq, Repr

/-- `struct ipa_ipfltr_range_eq_16`. -/
structure RangeEq16 where
  offset : Byte
  rangeLow : BitVec 16
  rangeHigh : BitVec 16
deriving DecidableEq, Repr

/-- `struct ipa_ipfltr_eq_32`. -/
structure Eq32 where
  offset : Byte
  value : BitVec 32
deriving DecidableEq, Repr

/-- `struct ipa_ipfltr_eq_16`. -/
structure Eq16 where
  offset : Byte
  value : BitVec 16
deriving DecidableEq, Repr

/-- `struct ipa_ipfltri_rule_eq`; an array of two equations is a pair. `tosEqPresent` stands
for the pure ack equation where the hardware has that one. -/
structure IpfltriRuleEq where
  ruleEqBitmap : BitVec 16
  tosEqPresent : Bool
  tosEq : Byte
  protocolEqPresent : Bool
  protocolEq : Byte
  numIhlOffsetRange16 : Nat
  ihlOffsetRange16 : RangeEq16 × RangeEq16
  numOffsetMeq32 : Nat
  offsetMeq32 : MaskEq32 × MaskEq32
  tcEqPresent : Bool
  tcEq : Byte
  flEqPresent : Bool
  flEq : BitVec 32
  ihlOffsetEq16Present : Bool
  ihlOffsetEq16 : Eq16
  ihlOffsetEq32Present : Bool
  ihlOffsetEq32 : Eq32
  numIhlOffsetMeq32 : Nat
  ihlOffsetMeq32 : MaskEq32 × MaskEq32
  numOffsetMeq128 : Nat
  offsetMeq128 : MaskEq128 × MaskEq128
  metadataMeq32Present : Bool
  metadataMeq32 : MaskEq32
  ipv4FragEqPresent : Bool
deriving DecidableEq, Repr

/-- The zeroed record. -/
def IpfltriRuleEq.zero : IpfltriRuleEq :=
  ⟨0, false, 0, false, 0, 0, (⟨0, 0, 0⟩, ⟨0, 0, 0⟩), 0, (⟨0, 0, 0⟩, ⟨0, 0, 0⟩), false, 0, false, 0,
    false, ⟨0, 0⟩, false, ⟨0, 0⟩, 0, (⟨0, 0, 0⟩, ⟨0, 0, 0⟩), 0, (⟨0, 0, 0⟩, ⟨0, 0, 0⟩), false,
    ⟨0, 0, 0⟩, false⟩

/-- Which equations a record has. -/
def IpfltriRuleEq.has (attrib : IpfltriRuleEq) : Equation → Bool
  | .tosEq => attrib.tosEqPresent
  | .protocolEq => attrib.protocolEqPresent
  | .tcEq => attrib.tcEqPresent
  | .offsetMeq128_0 => decide (0 < attrib.numOffsetMeq128)
  | .offsetMeq128_1 => decide (1 < attrib.numOffsetMeq128)
  | .offsetMeq32_0 => decide (0 < attrib.numOffsetMeq32)
  | .offsetMeq32_1 => decide (1 < attrib.numOffsetMeq32)
  | .ihlOffsetMeq32_0 => decide (0 < attrib.numIhlOffsetMeq32)
  | .ihlOffsetMeq32_1 => decide (1 < attrib.numIhlOffsetMeq32)
  | .metadataCompare => attrib.metadataMeq32Present
  | .ihlOffsetRange16_0 => decide (0 < attrib.numIhlOffsetRange16)
  | .ihlOffsetRange16_1 => decide (1 < attrib.numIhlOffsetRange16)
  | .ihlOffsetEq32 => attrib.ihlOffsetEq32Present
  | .ihlOffsetEq16 => attrib.ihlOffsetEq16Present
  | .flEq => attrib.flEqPresent
  | .isFrag => attrib.ipv4FragEqPresent
  | .isPureAck => attrib.tosEqPresent

/-- `ipa_fltrt_calc_extra_wrd_bytes`. -/
def ipaFltrtCalcExtraWrdBytes (attrib : IpfltriRuleEq) : Nat :=
  attrib.tosEqPresent.toNat + attrib.protocolEqPresent.toNat + attrib.tcEqPresent.toNat +
    attrib.numOffsetMeq128 + attrib.numOffsetMeq32 + attrib.numIhlOffsetMeq32 +
    attrib.numIhlOffsetRange16 + attrib.ihlOffsetEq32Present.toNat +
    attrib.ihlOffsetEq16Present.toNat

/-- A record whose counts fit its arrays, whose bitmap names exactly the equations it has,
whose flow label fits the equation, and whose TOS value is 0 where it means pure ack. -/
structure IpfltriRuleEq.WellFormed (table : EqTable) (attrib : IpfltriRuleEq) : Prop where
  meq128 : attrib.numOffsetMeq128 ≤ 2
  meq32 : attrib.numOffsetMeq32 ≤ 2
  ihlMeq32 : attrib.numIhlOffsetMeq32 ≤ 2
  ihlRange16 : attrib.numIhlOffsetRange16 ≤ 2
  bitmap : attrib.ruleEqBitmap = table.bitmapOf attrib.has
  flowLabel : attrib.flEq < 0x100000#32
  pureAck : table.valid .isPureAck = true → attrib.tosEq = 0

theorem IpfltriRuleEq.WellFormed.extraBytes_le {table : EqTable} {attrib : IpfltriRuleEq}
    (wellFormed : attrib.WellFormed table) : ipaFltrtCalcExtraWrdBytes attrib ≤ 13 := by
  have flag : ∀ b : Bool, b.toNat ≤ 1 := Bool.toNat_le
  have tos := flag attrib.tosEqPresent
  have protocol := flag attrib.protocolEqPresent
  have tc := flag attrib.tcEqPresent
  have eq32 := flag attrib.ihlOffsetEq32Present
  have eq16 := flag attrib.ihlOffsetEq16Present
  have meq128 := wellFormed.meq128
  have meq32 := wellFormed.meq32
  have ihlMeq32 := wellFormed.ihlMeq32
  have range16 := wellFormed.ihlRange16
  unfold ipaFltrtCalcExtraWrdBytes
  omega

end Sm8650.Fltrt
