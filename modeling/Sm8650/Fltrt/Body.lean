import Sm8650.Fltrt.Equations

/-!
# Rule bodies

`ipa_fltrt_generate_hw_rule_bdy_from_eq`, its version for 5.5, and
`ipa_fltrt_parse_hw_rule_eq`. A body has two parts: the extra words with one byte for each
equation that needs one (mostly an offset), and the rest with masks and values.
-/

namespace Sm8650.Fltrt

open Data Data.Words

/-- `IPA3_0_HW_TBL_HDR_WIDTH`. -/
def hdrWidth : Nat := 8

/-- A length rounded up to the rule alignment. -/
def align (length : Nat) : Nat := (length + 7) / 8 * 8

/-! ## Generating -/

/-- The bytes that an equation contributes to the extra words and to the rest. -/
structure Streams where
  extra : List Byte
  rest : List Byte
deriving DecidableEq, Repr

namespace Streams

/-- No bytes. -/
def none : Streams := ⟨[], []⟩

/-- The bytes of an equation that is there only under a condition. -/
def when (present : Bool) (streams : Streams) : Streams := if present then streams else none

/-- The bytes of several equations, one after another. -/
def concat (parts : List Streams) : Streams :=
  ⟨parts.flatMap Streams.extra, parts.flatMap Streams.rest⟩

end Streams

/-- The bytes of a 128-bit equation: the low halves of mask and value, then the high ones. -/
def meq128Streams (eq : MaskEq128) : Streams :=
  ⟨[eq.offset],
    (write 16 eq.mask).take 8 ++ (write 16 eq.value).take 8 ++ (write 16 eq.mask).drop 8 ++
      (write 16 eq.value).drop 8⟩

/-- The bytes of a 32-bit equation with a mask. -/
def meq32Streams (eq : MaskEq32) : Streams := ⟨[eq.offset], write 4 eq.mask ++ write 4 eq.value⟩

/-- The bytes of the metadata equation, which has no offset. -/
def metadataStreams (eq : MaskEq32) : Streams := ⟨[], write 4 eq.mask ++ write 4 eq.value⟩

/-- The bytes of a range. -/
def range16Streams (eq : RangeEq16) : Streams :=
  ⟨[eq.offset], write 2 eq.rangeHigh ++ write 2 eq.rangeLow⟩

/-- The bytes of a 32-bit equation without a mask. -/
def eq32Streams (eq : Eq32) : Streams := ⟨[eq.offset], write 4 eq.value⟩

/-- The bytes of a 16-bit equation, which fills a word. -/
def eq16Streams (eq : Eq16) : Streams := ⟨[eq.offset], write 2 eq.value ++ write 2 (0 : BitVec 16)⟩

/-- The bytes of the flow label. -/
def flStreams (flEq : BitVec 32) : Streams := ⟨[], write 4 (flEq &&& 0xFFFFF)⟩

/-- The bytes for `tos_eq_present`, which stands for pure ack where that is supported. -/
def tosStreams (table : EqTable) (attrib : IpfltriRuleEq) : Option Streams :=
  if attrib.tosEqPresent then
    if table.valid .isPureAck then some ⟨[0], []⟩
    else if table.valid .tosEq then some ⟨[attrib.tosEq], []⟩
    else Option.none
  else some .none

/-- The bytes of the other equations, in the order they are written. -/
def equationStreams (attrib : IpfltriRuleEq) : List Streams :=
  [.when attrib.protocolEqPresent ⟨[attrib.protocolEq], []⟩,
    .when attrib.tcEqPresent ⟨[attrib.tcEq], []⟩,
    .when (0 < attrib.numOffsetMeq128) (meq128Streams attrib.offsetMeq128.1),
    .when (1 < attrib.numOffsetMeq128) (meq128Streams attrib.offsetMeq128.2),
    .when (0 < attrib.numOffsetMeq32) (meq32Streams attrib.offsetMeq32.1),
    .when (1 < attrib.numOffsetMeq32) (meq32Streams attrib.offsetMeq32.2),
    .when (0 < attrib.numIhlOffsetMeq32) (meq32Streams attrib.ihlOffsetMeq32.1),
    .when (1 < attrib.numIhlOffsetMeq32) (meq32Streams attrib.ihlOffsetMeq32.2),
    .when attrib.metadataMeq32Present (metadataStreams attrib.metadataMeq32),
    .when (0 < attrib.numIhlOffsetRange16) (range16Streams attrib.ihlOffsetRange16.1),
    .when (1 < attrib.numIhlOffsetRange16) (range16Streams attrib.ihlOffsetRange16.2),
    .when attrib.ihlOffsetEq32Present (eq32Streams attrib.ihlOffsetEq32),
    .when attrib.ihlOffsetEq16Present (eq16Streams attrib.ihlOffsetEq16),
    .when attrib.flEqPresent (flStreams attrib.flEq)]

/-- A body at a place from which the rest is `restOffset` bytes away. The extra words are
padded up to the rest, which the buffer's zeros do as well, and the rest to the alignment
that it starts at. -/
def layBody (restOffset : Nat) (streams : Streams) : List Byte :=
  streams.extra ++ List.replicate (restOffset - streams.extra.length) 0 ++ streams.rest ++
    List.replicate (align streams.rest.length - streams.rest.length) 0

/-- The bytes of a record. -/
def recordStreams (table : EqTable) (attrib : IpfltriRuleEq) : Option Streams :=
  (tosStreams table attrib).map fun tos => .concat (tos :: equationStreams attrib)

/-- The room for the extra words; more than 13 extra bytes are refused. -/
def extraWords (extraBytes : Nat) : Option Nat :=
  if extraBytes > 13 then Option.none
  else if extraBytes > hdrWidth then some (hdrWidth * 2)
  else if extraBytes > 0 then some hdrWidth
  else some 0

/-- `ipa_fltrt_generate_hw_rule_bdy_from_eq`; nothing stands for -EPERM. -/
def ipaFltrtGenerateHwRuleBdyFromEq (table : EqTable) (attrib : IpfltriRuleEq) :
    Option (List Byte) := do
  let restOffset ← extraWords (ipaFltrtCalcExtraWrdBytes attrib)
  let streams ← recordStreams table attrib
  return layBody restOffset streams

/-- The room for the extra words behind an extension header, which has taken two bytes of the
first word already. -/
def extraWords55 (extHdr : Bool) (extraBytes : Nat) : Option Nat :=
  if extraBytes > 13 then Option.none
  else if extraBytes > hdrWidth then some (hdrWidth * 2 - extHdr.toNat * 2)
  else if extraBytes > 0 then
    if extHdr && decide (extraBytes > hdrWidth - 2) then
      some (hdrWidth * 2 - extHdr.toNat * 2)
    else some (hdrWidth - extHdr.toNat * 2)
  else some (extHdr.toNat * hdrWidth - extHdr.toNat * 2)

/-- `ipa_fltrt_generate_hw_rule_bdy_from_eq_5_5`. -/
def ipaFltrtGenerateHwRuleBdyFromEq55 (table : EqTable) (attrib : IpfltriRuleEq)
    (extHdr : Bool) : Option (List Byte) := do
  let restOffset ← extraWords55 extHdr (ipaFltrtCalcExtraWrdBytes attrib)
  let streams ← recordStreams table attrib
  return layBody restOffset streams

/-! ## Parsing -/

/-- The memory from the cursor of the extra words and from the cursor of the rest on, and how
far the latter has moved. -/
structure Reader where
  extra : List Byte
  rest : List Byte
  consumed : Nat
deriving DecidableEq, Repr

/-- One equation of the parser: when the record has it, fields are read at the two cursors,
which move on. -/
structure Chunk where
  present : IpfltriRuleEq → Bool
  extraSize : Nat
  restSize : Nat
  store : List Byte → List Byte → IpfltriRuleEq → IpfltriRuleEq

/-- Reading an equation. -/
def Chunk.read (chunk : Chunk) (state : IpfltriRuleEq × Reader) : IpfltriRuleEq × Reader :=
  if chunk.present state.1 then
    (chunk.store state.2.extra state.2.rest state.1,
      { extra := state.2.extra.drop chunk.extraSize
        rest := state.2.rest.drop chunk.restSize
        consumed := state.2.consumed + chunk.restSize })
  else state

/-- The 128-bit equation at the two cursors. -/
def loadMeq128 (extra rest : List Byte) : MaskEq128 :=
  ⟨extra.headD 0, read 16 128 (rest.take 8 ++ (rest.drop 16).take 8),
    read 16 128 ((rest.drop 8).take 8 ++ (rest.drop 24).take 8)⟩

/-- The 32-bit equation with a mask at the two cursors. -/
def loadMeq32 (extra rest : List Byte) : MaskEq32 :=
  ⟨extra.headD 0, read 4 32 rest, read 4 32 (rest.drop 4)⟩

/-- The range at the two cursors. -/
def loadRange16 (extra rest : List Byte) : RangeEq16 :=
  ⟨extra.headD 0, read 2 16 (rest.drop 2), read 2 16 rest⟩

/-- The equations in the order they are read. -/
def chunks (table : EqTable) : List Chunk :=
  [⟨fun a => table.valid .tosEq && a.tosEqPresent, 1, 0,
      fun extra _ a => { a with tosEq := extra.headD 0 }⟩,
    ⟨fun a => table.valid .isPureAck && a.tosEqPresent, 1, 0,
      fun _ _ a => { a with tosEq := 0 }⟩,
    ⟨(·.protocolEqPresent), 1, 0, fun extra _ a => { a with protocolEq := extra.headD 0 }⟩,
    ⟨(·.tcEqPresent), 1, 0, fun extra _ a => { a with tcEq := extra.headD 0 }⟩,
    ⟨fun a => decide (0 < a.numOffsetMeq128), 1, 32,
      fun extra rest a =>
        { a with offsetMeq128 := (loadMeq128 extra rest, a.offsetMeq128.2) }⟩,
    ⟨fun a => decide (1 < a.numOffsetMeq128), 1, 32,
      fun extra rest a =>
        { a with offsetMeq128 := (a.offsetMeq128.1, loadMeq128 extra rest) }⟩,
    ⟨fun a => decide (0 < a.numOffsetMeq32), 1, 8,
      fun extra rest a => { a with offsetMeq32 := (loadMeq32 extra rest, a.offsetMeq32.2) }⟩,
    ⟨fun a => decide (1 < a.numOffsetMeq32), 1, 8,
      fun extra rest a => { a with offsetMeq32 := (a.offsetMeq32.1, loadMeq32 extra rest) }⟩,
    ⟨fun a => decide (0 < a.numIhlOffsetMeq32), 1, 8,
      fun extra rest a =>
        { a with ihlOffsetMeq32 := (loadMeq32 extra rest, a.ihlOffsetMeq32.2) }⟩,
    ⟨fun a => decide (1 < a.numIhlOffsetMeq32), 1, 8,
      fun extra rest a =>
        { a with ihlOffsetMeq32 := (a.ihlOffsetMeq32.1, loadMeq32 extra rest) }⟩,
    ⟨(·.metadataMeq32Present), 0, 8,
      fun _ rest a =>
        { a with
          metadataMeq32 :=
            { a.metadataMeq32 with mask := read 4 32 rest, value := read 4 32 (rest.drop 4) } }⟩,
    ⟨fun a => decide (0 < a.numIhlOffsetRange16), 1, 4,
      fun extra rest a =>
        { a with ihlOffsetRange16 := (loadRange16 extra rest, a.ihlOffsetRange16.2) }⟩,
    ⟨fun a => decide (1 < a.numIhlOffsetRange16), 1, 4,
      fun extra rest a =>
        { a with ihlOffsetRange16 := (a.ihlOffsetRange16.1, loadRange16 extra rest) }⟩,
    ⟨(·.ihlOffsetEq32Present), 1, 4,
      fun extra rest a => { a with ihlOffsetEq32 := ⟨extra.headD 0, read 4 32 rest⟩ }⟩,
    ⟨(·.ihlOffsetEq16Present), 1, 4,
      fun extra rest a => { a with ihlOffsetEq16 := ⟨extra.headD 0, read 2 16 rest⟩ }⟩,
    ⟨(·.flEqPresent), 0, 4,
      fun _ rest a => { a with flEq := read 4 32 rest &&& 0xfffff }⟩]

/-- The presence flags and counts, taken from the record's bitmap. -/
def readBitmap (table : EqTable) (attrib : IpfltriRuleEq) : IpfltriRuleEq :=
  let isSet := table.isSet attrib.ruleEqBitmap
  { attrib with
    tosEqPresent :=
      attrib.tosEqPresent || (table.valid .isPureAck && isSet .isPureAck) ||
        (table.valid .tosEq && isSet .tosEq)
    protocolEqPresent := attrib.protocolEqPresent || isSet .protocolEq
    tcEqPresent := attrib.tcEqPresent || isSet .tcEq
    numOffsetMeq128 :=
      attrib.numOffsetMeq128 + (isSet .offsetMeq128_0).toNat + (isSet .offsetMeq128_1).toNat
    numOffsetMeq32 :=
      attrib.numOffsetMeq32 + (isSet .offsetMeq32_0).toNat + (isSet .offsetMeq32_1).toNat
    numIhlOffsetMeq32 :=
      attrib.numIhlOffsetMeq32 + (isSet .ihlOffsetMeq32_0).toNat + (isSet .ihlOffsetMeq32_1).toNat
    metadataMeq32Present := attrib.metadataMeq32Present || isSet .metadataCompare
    numIhlOffsetRange16 :=
      attrib.numIhlOffsetRange16 + (isSet .ihlOffsetRange16_0).toNat +
        (isSet .ihlOffsetRange16_1).toNat
    ihlOffsetEq32Present := attrib.ihlOffsetEq32Present || isSet .ihlOffsetEq32
    ihlOffsetEq16Present := attrib.ihlOffsetEq16Present || isSet .ihlOffsetEq16
    flEqPresent := attrib.flEqPresent || isSet .flEq
    ipv4FragEqPresent := attrib.ipv4FragEqPresent || isSet .isFrag }

/-- `ipa_fltrt_parse_hw_rule_eq` on the memory from an aligned rule on: the record and the
size of the rule. -/
def ipaFltrtParseHwRuleEq (table : EqTable) (memory : List Byte) (hdrSz : Nat)
    (attrib : IpfltriRuleEq) : Option (IpfltriRuleEq × Nat) := do
  let flagged := readBitmap table attrib
  let restOffset ← extraWords (ipaFltrtCalcExtraWrdBytes flagged)
  let (parsed, reader) :=
    (chunks table).foldl (fun state chunk => chunk.read state)
      (flagged, ⟨memory.drop hdrSz, memory.drop (hdrSz + restOffset), 0⟩)
  return (parsed, align (hdrSz + restOffset + reader.consumed))

end Sm8650.Fltrt
