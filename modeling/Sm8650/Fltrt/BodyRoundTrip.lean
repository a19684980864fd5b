import Mathlib.Tactic.IntervalCases
import Sm8650.Fltrt.Body

/-!
# Rule bodies read back

The parser takes from the two parts of a body exactly the equations of the record that the
body was generated from. The two sides meet equation by equation: a chunk of the parser fits
the bytes of one equation.
-/

namespace Sm8650.Fltrt

open Data Data.Words List IpfltriRuleEq

/-! ## Records without what is not in use -/

/-- The record with everything zero that its flags and counts do not use, and without the
offset of the metadata equation. -/
def IpfltriRuleEq.inUse (a : IpfltriRuleEq) : IpfltriRuleEq :=
  { a with
    tosEq := if a.tosEqPresent then a.tosEq else 0
    protocolEq := if a.protocolEqPresent then a.protocolEq else 0
    ihlOffsetRange16 :=
      (if 0 < a.numIhlOffsetRange16 then a.ihlOffsetRange16.1 else ⟨0, 0, 0⟩,
        if 1 < a.numIhlOffsetRange16 then a.ihlOffsetRange16.2 else ⟨0, 0, 0⟩)
    offsetMeq32 :=
      (if 0 < a.numOffsetMeq32 then a.offsetMeq32.1 else ⟨0, 0, 0⟩,
        if 1 < a.numOffsetMeq32 then a.offsetMeq32.2 else ⟨0, 0, 0⟩)
    tcEq := if a.tcEqPresent then a.tcEq else 0
    flEq := if a.flEqPresent then a.flEq else 0
    ihlOffsetEq16 := if a.ihlOffsetEq16Present then a.ihlOffsetEq16 else ⟨0, 0⟩
    ihlOffsetEq32 := if a.ihlOffsetEq32Present then a.ihlOffsetEq32 else ⟨0, 0⟩
    ihlOffsetMeq32 :=
      (if 0 < a.numIhlOffsetMeq32 then a.ihlOffsetMeq32.1 else ⟨0, 0, 0⟩,
        if 1 < a.numIhlOffsetMeq32 then a.ihlOffsetMeq32.2 else ⟨0, 0, 0⟩)
    offsetMeq128 :=
      (if 0 < a.numOffsetMeq128 then a.offsetMeq128.1 else ⟨0, 0, 0⟩,
        if 1 < a.numOffsetMeq128 then a.offsetMeq128.2 else ⟨0, 0, 0⟩)
    metadataMeq32 :=
      if a.metadataMeq32Present then { a.metadataMeq32 with offset := 0 } else ⟨0, 0, 0⟩ }

/-- The flags, counts and bitmap of a record, over zeros. -/
def IpfltriRuleEq.flags (a : IpfltriRuleEq) : IpfltriRuleEq :=
  { zero with
    ruleEqBitmap := a.ruleEqBitmap
    tosEqPresent := a.tosEqPresent
    protocolEqPresent := a.protocolEqPresent
    numIhlOffsetRange16 := a.numIhlOffsetRange16
    numOffsetMeq32 := a.numOffsetMeq32
    tcEqPresent := a.tcEqPresent
    flEqPresent := a.flEqPresent
    ihlOffsetEq16Present := a.ihlOffsetEq16Present
    ihlOffsetEq32Present := a.ihlOffsetEq32Present
    numIhlOffsetMeq32 := a.numIhlOffsetMeq32
    numOffsetMeq128 := a.numOffsetMeq128
    metadataMeq32Present := a.metadataMeq32Present
    ipv4FragEqPresent := a.ipv4FragEqPresent }

variable {a : IpfltriRuleEq} {table : EqTable}

/-- The bitmap tells the parser the flags and counts. -/
theorem IpfltriRuleEq.WellFormed.readBitmap_eq (wellFormed : a.WellFormed table) :
    readBitmap table { zero with ruleEqBitmap := a.ruleEqBitmap } = a.flags := by
  have isSet : ∀ e, table.valid e = true → table.isSet a.ruleEqBitmap e = a.has e := by
    intro e valid
    rw [wellFormed.bitmap]
    exact table.isSet_bitmapOf a.has valid
  have others : ∀ e, e ≠ .tosEq → e ≠ .isPureAck → table.isSet a.ruleEqBitmap e = a.has e :=
    fun e not_tos not_ack => isSet e (table.valid_others not_tos not_ack)
  have count : ∀ n : Nat, n ≤ 2 → 0 + (decide (0 < n)).toNat + (decide (1 < n)).toNat = n := by
    intro n small
    interval_cases n <;> rfl
  have tos : (table.valid .isPureAck && table.isSet a.ruleEqBitmap .isPureAck ||
      table.valid .tosEq && table.isSet a.ruleEqBitmap .tosEq) = a.tosEqPresent := by
    cases ack : table.valid .isPureAck with
    | true =>
      have tos : table.valid .tosEq = false := by rw [table.valid_tosEq, ack]; rfl
      rw [isSet _ ack, tos, Bool.false_and, Bool.or_false]
      rfl
    | false =>
      have tos : table.valid .tosEq = true := by rw [table.valid_tosEq, ack]; rfl
      rw [isSet _ tos, tos]
      rfl
  unfold readBitmap flags
  dsimp only [zero]
  rw [Bool.false_or, tos, others .protocolEq (by decide) (by decide),
    others .tcEq (by decide) (by decide), others .offsetMeq128_0 (by decide) (by decide),
    others .offsetMeq128_1 (by decide) (by decide),
    others .offsetMeq32_0 (by decide) (by decide), others .offsetMeq32_1 (by decide) (by decide),
    others .ihlOffsetMeq32_0 (by decide) (by decide),
    others .ihlOffsetMeq32_1 (by decide) (by decide),
    others .metadataCompare (by decide) (by decide),
    others .ihlOffsetRange16_0 (by decide) (by decide),
    others .ihlOffsetRange16_1 (by decide) (by decide),
    others .ihlOffsetEq32 (by decide) (by decide), others .ihlOffsetEq16 (by decide) (by decide),
    others .flEq (by decide) (by decide), others .isFrag (by decide) (by decide)]
  simp only [has, Bool.false_or, count _ wellFormed.meq128,
    count _ wellFormed.meq32, count _ wellFormed.ihlMeq32, count _ wellFormed.ihlRange16]

/-! ## Chunks and the bytes they fit -/

/-- The bytes of one equation, and what reading them does to a record. -/
structure Part where
  streams : Streams
  effect : IpfltriRuleEq → IpfltriRuleEq

/-- An equation that is there under a condition, with the place that its value has in the
record. -/
def Part.of {α : Type} (present : Bool) (streams : Streams) (value : α)
    (get : IpfltriRuleEq → α) (set : α → IpfltriRuleEq → IpfltriRuleEq) : Part where
  streams := .when present streams
  effect r := set (if present then value else get r) r

/-- On a record with the flags of `a`, the chunk takes the part's bytes from the two cursors
and changes the record as the part says, which leaves the flags alone. -/
def Chunk.Fits (a : IpfltriRuleEq) (chunk : Chunk) (part : Part) : Prop :=
  ∀ r extra rest consumed, r.flags = a.flags →
    chunk.read (r, ⟨part.streams.extra ++ extra, part.streams.rest ++ rest, consumed⟩) =
        (part.effect r, ⟨extra, rest, consumed + part.streams.rest.length⟩) ∧
      (part.effect r).flags = a.flags

/-- A chunk fits an equation when it is there at the same time as its bytes are, is as long as
they are, and stores the value in its place. -/
theorem Chunk.Fits.of {α : Type} {chunk : Chunk} {present : Bool}
    {streams : Streams} {value : α} {get : IpfltriRuleEq → α}
    {set : α → IpfltriRuleEq → IpfltriRuleEq} (load : List Byte → List Byte → α)
    (loaded : ∀ extra rest, load (streams.extra ++ extra) (streams.rest ++ rest) = value)
    (present_flags : ∀ r, chunk.present r = chunk.present r.flags := by exact fun _ => rfl)
    (isPresent : chunk.present a.flags = present := by rfl)
    (extraSize : streams.extra.length = chunk.extraSize := by rfl)
    (restSize : streams.rest.length = chunk.restSize := by rfl)
    (store : ∀ extra rest r, chunk.store extra rest r = set (load extra rest) r := by
      exact fun _ _ _ => rfl)
    (set_get : ∀ r, set (get r) r = r := by exact fun _ => rfl)
    (flags_set : ∀ v r, (set v r).flags = r.flags := by exact fun _ _ => rfl) :
    chunk.Fits a (.of present streams value get set) := by
  intro r extra rest consumed same
  refine ⟨?_, (flags_set _ r).trans same⟩
  unfold Chunk.read Part.of
  rw [present_flags, same, isPresent]
  cases present with
  | false =>
    dsimp only [Streams.when]
    rw [if_neg (by decide), if_neg (by decide), if_neg (by decide), set_get]
    rfl
  | true =>
    dsimp only [Streams.when]
    rw [if_pos rfl, if_pos rfl, if_pos rfl, store, loaded, ← extraSize, ← restSize,
      drop_left, drop_left]

/-- Chunks that fit parts take the bytes of all of them. -/
theorem foldl_read {chunks : List Chunk} {parts : List Part}
    (fit : List.Forall₂ (Chunk.Fits a) chunks parts) (r : IpfltriRuleEq)
    (extra rest : List Byte) (consumed : Nat) (same : r.flags = a.flags) :
    chunks.foldl (fun state chunk => chunk.read state)
        (r, ⟨(Streams.concat (parts.map Part.streams)).extra ++ extra,
          (Streams.concat (parts.map Part.streams)).rest ++ rest, consumed⟩) =
      (parts.foldl (fun r part => part.effect r) r,
        ⟨extra, rest, consumed + (Streams.concat (parts.map Part.streams)).rest.length⟩) := by
  induction fit generalizing r consumed with
  | nil => rfl
  | @cons chunk part chunks parts head tail ih =>
    obtain ⟨reading, kept⟩ := head r ((Streams.concat (parts.map Part.streams)).extra ++ extra)
      ((Streams.concat (parts.map Part.streams)).rest ++ rest) consumed same
    unfold Streams.concat at reading ih ⊢
    rw [map_cons, flatMap_cons, flatMap_cons, append_assoc,
      append_assoc, foldl_cons, reading, ih _ _ kept,
      foldl_cons, length_append, Nat.add_assoc]

/-! ## The equations -/

theorem loadMeq128_append (eq : MaskEq128) (extra rest : List Byte) :
    loadMeq128 ((meq128Streams eq).extra ++ extra) ((meq128Streams eq).rest ++ rest) = eq := by
  have half : ∀ word : BitVec 128, ((write 16 word).take 8).length = 8 := fun word => by
    rfl
  have otherHalf : ∀ word : BitVec 128, ((write 16 word).drop 8).length = 8 := fun word => by
    rw [length_drop, length_write]
  have whole : ∀ word : BitVec 128,
      read 16 128 ((write 16 word).take 8 ++ (write 16 word).drop 8) = word := fun word => by
    simpa using read_write (n := 16) (by decide) word []
  have twice : ∀ memory : List Byte, memory.drop 16 = (memory.drop 8).drop 8 :=
    fun memory => by rw [drop_drop]
  have thrice : ∀ memory : List Byte, memory.drop 24 = ((memory.drop 8).drop 8).drop 8 :=
    fun memory => by rw [drop_drop, drop_drop]
  unfold loadMeq128 meq128Streams
  simp only [append_assoc, twice, thrice, take_left' (half _),
    drop_left' (half _), take_left' (otherHalf _), drop_left' (otherHalf _), whole]
  rfl

theorem loadMeq32_append (eq : MaskEq32) (extra rest : List Byte) :
    loadMeq32 ((meq32Streams eq).extra ++ extra) ((meq32Streams eq).rest ++ rest) = eq := by
  unfold loadMeq32 meq32Streams
  rw [append_assoc, read_write (by decide), drop_left' (length_write 4 eq.mask),
    read_write (by decide)]
  rfl

theorem loadRange16_append (eq : RangeEq16) (extra rest : List Byte) :
    loadRange16 ((range16Streams eq).extra ++ extra) ((range16Streams eq).rest ++ rest) = eq := by
  unfold loadRange16 range16Streams
  rw [append_assoc, read_write (by decide), drop_left' (length_write 2 eq.rangeHigh),
    read_write (by decide)]
  rfl

/-- The equations of a record in the order they are written and read. -/
def parts (table : EqTable) (a : IpfltriRuleEq) : List Part :=
  [.of (table.valid .tosEq && a.tosEqPresent) ⟨[a.tosEq], []⟩ a.tosEq (·.tosEq)
      fun v r => { r with tosEq := v },
    .of (table.valid .isPureAck && a.tosEqPresent) ⟨[0], []⟩ 0 (·.tosEq)
      fun v r => { r with tosEq := v },
    .of a.protocolEqPresent ⟨[a.protocolEq], []⟩ a.protocolEq (·.protocolEq)
      fun v r => { r with protocolEq := v },
    .of a.tcEqPresent ⟨[a.tcEq], []⟩ a.tcEq (·.tcEq) fun v r => { r with tcEq := v },
    .of (0 < a.numOffsetMeq128) (meq128Streams a.offsetMeq128.1) a.offsetMeq128.1
      (·.offsetMeq128.1) fun v r => { r with offsetMeq128 := (v, r.offsetMeq128.2) },
    .of (1 < a.numOffsetMeq128) (meq128Streams a.offsetMeq128.2) a.offsetMeq128.2
      (·.offsetMeq128.2) fun v r => { r with offsetMeq128 := (r.offsetMeq128.1, v) },
    .of (0 < a.numOffsetMeq32) (meq32Streams a.offsetMeq32.1) a.offsetMeq32.1
      (·.offsetMeq32.1) fun v r => { r with offsetMeq32 := (v, r.offsetMeq32.2) },
    .of (1 < a.numOffsetMeq32) (meq32Streams a.offsetMeq32.2) a.offsetMeq32.2
      (·.offsetMeq32.2) fun v r => { r with offsetMeq32 := (r.offsetMeq32.1, v) },
    .of (0 < a.numIhlOffsetMeq32) (meq32Streams a.ihlOffsetMeq32.1) a.ihlOffsetMeq32.1
      (·.ihlOffsetMeq32.1) fun v r => { r with ihlOffsetMeq32 := (v, r.ihlOffsetMeq32.2) },
    .of (1 < a.numIhlOffsetMeq32) (meq32Streams a.ihlOffsetMeq32.2) a.ihlOffsetMeq32.2
      (·.ihlOffsetMeq32.2) fun v r => { r with ihlOffsetMeq32 := (r.ihlOffsetMeq32.1, v) },
    .of a.metadataMeq32Present (metadataStreams a.metadataMeq32)
      (a.metadataMeq32.mask, a.metadataMeq32.value)
      (fun r => (r.metadataMeq32.mask, r.metadataMeq32.value)) fun v r =>
        { r with metadataMeq32 := { r.metadataMeq32 with mask := v.1, value := v.2 } },
    .of (0 < a.numIhlOffsetRange16) (range16Streams a.ihlOffsetRange16.1) a.ihlOffsetRange16.1
      (·.ihlOffsetRange16.1) fun v r => { r with ihlOffsetRange16 := (v, r.ihlOffsetRange16.2) },
    .of (1 < a.numIhlOffsetRange16) (range16Streams a.ihlOffsetRange16.2) a.ihlOffsetRange16.2
      (·.ihlOffsetRange16.2) fun v r => { r with ihlOffsetRange16 := (r.ihlOffsetRange16.1, v) },
    .of a.ihlOffsetEq32Present (eq32Streams a.ihlOffsetEq32) a.ihlOffsetEq32 (·.ihlOffsetEq32)
      fun v r => { r with ihlOffsetEq32 := v },
    .of a.ihlOffsetEq16Present (eq16Streams a.ihlOffsetEq16) a.ihlOffsetEq16 (·.ihlOffsetEq16)
      fun v r => { r with ihlOffsetEq16 := v },
    .of a.flEqPresent (flStreams a.flEq) (a.flEq &&& 0xfffff) (·.flEq)
      fun v r => { r with flEq := v }]

theorem chunks_fit (table : EqTable) (a : IpfltriRuleEq) :
    List.Forall₂ (Chunk.Fits a) (chunks table) (parts table a) := by
  have word : ∀ (value : BitVec 32) (rest : List Byte), read 4 32 (write 4 value ++ rest) = value :=
    fun value rest => read_write (by decide) value rest
  have metadata : ∀ rest : List Byte,
      (read 4 32 ((metadataStreams a.metadataMeq32).rest ++ rest),
          read 4 32 (((metadataStreams a.metadataMeq32).rest ++ rest).drop 4)) =
        (a.metadataMeq32.mask, a.metadataMeq32.value) := by
    intro rest
    unfold metadataStreams
    rw [append_assoc, word, drop_left' (length_write 4 a.metadataMeq32.mask), word]
  have eq16 : ∀ rest : List Byte,
      read 2 16 ((eq16Streams a.ihlOffsetEq16).rest ++ rest) = a.ihlOffsetEq16.value := by
    intro rest
    unfold eq16Streams
    rw [append_assoc, read_write (by decide)]
  have label : ∀ rest : List Byte,
      read 4 32 ((flStreams a.flEq).rest ++ rest) &&& 0xfffff = a.flEq &&& 0xfffff := by
    intro rest
    unfold flStreams
    rw [word, BitVec.and_assoc, BitVec.and_self]
  let head : List Byte → List Byte → Byte := fun extra _ => extra.headD 0
  exact
    .cons (.of head fun _ _ => rfl) <|
    .cons (.of (fun _ _ => 0) fun _ _ => rfl) <|
    .cons (.of head fun _ _ => rfl) <|
    .cons (.of head fun _ _ => rfl) <|
    .cons (.of loadMeq128 (loadMeq128_append _)) <|
    .cons (.of loadMeq128 (loadMeq128_append _)) <|
    .cons (.of loadMeq32 (loadMeq32_append _)) <|
    .cons (.of loadMeq32 (loadMeq32_append _)) <|
    .cons (.of loadMeq32 (loadMeq32_append _)) <|
    .cons (.of loadMeq32 (loadMeq32_append _)) <|
    .cons (.of (fun _ rest => (read 4 32 rest, read 4 32 (rest.drop 4))) fun _ => metadata) <|
    .cons (.of loadRange16 (loadRange16_append _)) <|
    .cons (.of loadRange16 (loadRange16_append _)) <|
    .cons (.of (fun extra rest => ⟨extra.headD 0, read 4 32 rest⟩)
      fun _ rest => congrArg (Eq32.mk a.ihlOffsetEq32.offset) (word _ rest)) <|
    .cons (.of (fun extra rest => ⟨extra.headD 0, read 2 16 rest⟩)
      fun _ rest => congrArg (Eq16.mk a.ihlOffsetEq16.offset) (eq16 rest)) <|
    .cons (.of (fun _ rest => read 4 32 rest &&& 0xfffff) fun _ => label) <|
    .nil

theorem foldl_parts (wellFormed : a.WellFormed table) :
    (parts table a).foldl (fun r part => part.effect r) a.flags = a.inUse := by
  have tos : (if (table.valid .isPureAck && a.tosEqPresent) = true then 0
      else if (table.valid .tosEq && a.tosEqPresent) = true then a.tosEq else 0) =
        if a.tosEqPresent = true then a.tosEq else 0 := by
    rw [table.valid_tosEq]
    cases ack : table.valid .isPureAck with
    | false => rfl
    | true =>
      rw [wellFormed.pureAck ack, Bool.true_and, ite_self]
  have label : a.flEq &&& 0xfffff = a.flEq := by
    apply BitVec.eq_of_toNat_eq
    exact (Nat.and_two_pow_sub_one_eq_mod _ 20).trans
      (Nat.mod_eq_of_lt (BitVec.lt_def.mp wellFormed.flowLabel))
  have metadata : (⟨0,
      (if a.metadataMeq32Present = true then (a.metadataMeq32.mask, a.metadataMeq32.value)
        else (0, 0)).1,
      (if a.metadataMeq32Present = true then (a.metadataMeq32.mask, a.metadataMeq32.value)
        else (0, 0)).2⟩ : MaskEq32) =
        if a.metadataMeq32Present = true then { a.metadataMeq32 with offset := 0 }
        else ⟨0, 0, 0⟩ := by
    cases a.metadataMeq32Present <;> rfl
  unfold parts inUse
  rw [label, ← tos, ← metadata]
  simp only [Part.of, decide_eq_true_eq]
  rfl

/-- The bytes of a record are those of its parts. -/
theorem recordStreams_eq (table : EqTable) (a : IpfltriRuleEq) :
    recordStreams table a = some (.concat ((parts table a).map Part.streams)) := by
  have tos : ∃ streams, tosStreams table a = some streams ∧
      streams = .concat [.when (table.valid .tosEq && a.tosEqPresent) ⟨[a.tosEq], []⟩,
        .when (table.valid .isPureAck && a.tosEqPresent) ⟨[0], []⟩] := by
    unfold tosStreams
    rw [table.valid_tosEq]
    cases a.tosEqPresent <;> cases table.valid .isPureAck <;> exact ⟨_, rfl, rfl⟩
  obtain ⟨streams, made, equal⟩ := tos
  unfold recordStreams
  rw [made, equal]
  simp only [Option.map_some, Streams.concat, parts, equationStreams, Part.of, map_cons,
    map_nil, flatMap_cons, flatMap_nil, append_nil, append_assoc]

/-! ## Bodies -/

/-- The bytes of a record; where each version lays them is the generators' business. -/
def IpfltriRuleEq.streams (table : EqTable) (a : IpfltriRuleEq) : Streams :=
  .concat ((parts table a).map Part.streams)

theorem length_extra (wellFormed : a.WellFormed table) :
    (a.streams table).extra.length = ipaFltrtCalcExtraWrdBytes a := by
  have one : ∀ (present : Bool) (streams : Streams), streams.extra.length = 1 →
      (Streams.when present streams).extra.length = present.toNat := by
    intro present streams single
    cases present with
    | false => rfl
    | true => exact single
  have none : ∀ (present : Bool) (streams : Streams), streams.extra.length = 0 →
      (Streams.when present streams).extra.length = 0 := by
    intro present streams empty
    cases present with
    | false => rfl
    | true => exact empty
  have count : ∀ n : Nat, n ≤ 2 → (decide (0 < n)).toNat + (decide (1 < n)).toNat = n := by
    intro n small
    interval_cases n <;> rfl
  have tos : (table.valid .tosEq && a.tosEqPresent).toNat +
      (table.valid .isPureAck && a.tosEqPresent).toNat = a.tosEqPresent.toNat := by
    rw [table.valid_tosEq]
    cases table.valid .isPureAck <;> cases a.tosEqPresent <;> rfl
  have meq128 := count _ wellFormed.meq128
  have meq32 := count _ wellFormed.meq32
  have ihlMeq32 := count _ wellFormed.ihlMeq32
  have range16 := count _ wellFormed.ihlRange16
  unfold streams Streams.concat parts ipaFltrtCalcExtraWrdBytes
  simp only [map_cons, map_nil, flatMap_cons, flatMap_nil,
    length_append, length_nil, Part.of, one _ ⟨[_], _⟩ rfl, one _ (meq128Streams _) rfl,
    one _ (meq32Streams _) rfl, one _ (range16Streams _) rfl, one _ (eq32Streams _) rfl,
    one _ (eq16Streams _) rfl, none _ (metadataStreams _) rfl, none _ (flStreams _) rfl]
  omega

/-- The parser finds the record wherever the two parts lie at its two cursors. -/
theorem parse_streams (wellFormed : a.WellFormed table)
    {memory behindExtra behindRest : List Byte} {hdrSz restOffset : Nat}
    (room : extraWords (ipaFltrtCalcExtraWrdBytes a) = some restOffset)
    (extra : memory.drop hdrSz = (a.streams table).extra ++ behindExtra)
    (rest : memory.drop (hdrSz + restOffset) = (a.streams table).rest ++ behindRest) :
    ipaFltrtParseHwRuleEq table memory hdrSz
        { zero with ruleEqBitmap := a.ruleEqBitmap } =
      some (a.inUse, align (hdrSz + restOffset + (a.streams table).rest.length)) := by
  unfold ipaFltrtParseHwRuleEq
  have flags : ipaFltrtCalcExtraWrdBytes a.flags = ipaFltrtCalcExtraWrdBytes a := rfl
  dsimp only [bind, Option.bind]
  rw [wellFormed.readBitmap_eq, flags, room]
  dsimp only
  rw [extra, rest]
  unfold streams
  rw [foldl_read (chunks_fit table a) a.flags behindExtra behindRest 0 rfl,
    foldl_parts wellFormed, Nat.zero_add]
  rfl

theorem align_eq_self_add {length : Nat} (n : Nat) (aligned : length % 8 = 0) :
    align (length + n) = length + align n := by
  unfold align
  omega

theorem le_align (length : Nat) : length ≤ align length := by
  unfold align
  omega

theorem extraWords_spec {extraBytes : Nat} (small : extraBytes ≤ 13) :
    ∃ room, extraWords extraBytes = some room ∧ extraBytes ≤ room ∧ room % 8 = 0 := by
  unfold extraWords hdrWidth
  rw [if_neg (Nat.not_lt.mpr small)]
  by_cases two : extraBytes > 8
  · exact ⟨16, if_pos two, by omega, rfl⟩
  · rw [if_neg two]
    by_cases one : extraBytes > 0
    · exact ⟨8, if_pos one, by omega, rfl⟩
    · exact ⟨0, if_neg one, by omega, rfl⟩

theorem layBody_append (restOffset : Nat) (streams : Streams) (behind : List Byte) :
    layBody restOffset streams ++ behind =
      streams.extra ++ (replicate (restOffset - streams.extra.length) 0 ++ (streams.rest ++
        (replicate (align streams.rest.length - streams.rest.length) 0 ++ behind))) := by
  unfold layBody
  simp

theorem drop_layBody {restOffset : Nat} {streams : Streams}
    (enough : streams.extra.length ≤ restOffset) (behind : List Byte) :
    (layBody restOffset streams ++ behind).drop restOffset =
      streams.rest ++
        (replicate (align streams.rest.length - streams.rest.length) 0 ++ behind) := by
  have padded : (streams.extra ++
      replicate (restOffset - streams.extra.length) (0 : Byte)).length = restOffset := by
    rw [length_append, length_replicate]
    omega
  rw [layBody_append, ← append_assoc, drop_left' padded]

theorem length_layBody {restOffset : Nat} {streams : Streams}
    (enough : streams.extra.length ≤ restOffset) :
    (layBody restOffset streams).length = restOffset + align streams.rest.length := by
  have padded := le_align streams.rest.length
  unfold layBody
  simp only [length_append, length_replicate]
  omega

/-- Every well-formed record has a body, whole words long, and behind an aligned header the
parser reads the record back from it and knows its size. -/
theorem parse_generate (wellFormed : a.WellFormed table) :
    ∃ body, ipaFltrtGenerateHwRuleBdyFromEq table a = some body ∧ body.length % 8 = 0 ∧
      ∀ (header behind : List Byte), header.length % 8 = 0 →
        ipaFltrtParseHwRuleEq table (header ++ body ++ behind) header.length
            { zero with ruleEqBitmap := a.ruleEqBitmap } =
          some (a.inUse, header.length + body.length) := by
  obtain ⟨restOffset, room, enough, aligned⟩ := extraWords_spec wellFormed.extraBytes_le
  rw [← length_extra wellFormed] at enough
  have made : ipaFltrtGenerateHwRuleBdyFromEq table a =
      some (layBody restOffset (a.streams table)) := by
    unfold ipaFltrtGenerateHwRuleBdyFromEq
    rw [room, recordStreams_eq]
    rfl
  have length := length_layBody enough
  refine ⟨layBody restOffset (a.streams table), made, ?_, fun header behind whole => ?_⟩
  · rw [length]
    unfold align
    omega
  have front : (header ++ layBody restOffset (a.streams table) ++ behind).drop header.length =
      layBody restOffset (a.streams table) ++ behind := by
    rw [append_assoc, drop_left]
  have back := drop_layBody enough behind
  rw [← front, drop_drop] at back
  rw [layBody_append] at front
  rw [length, ← Nat.add_assoc, ← align_eq_self_add _ (by omega)]
  exact parse_streams wellFormed room front back

end Sm8650.Fltrt
