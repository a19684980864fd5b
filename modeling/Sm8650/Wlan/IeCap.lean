import Mathlib.Data.List.GetD
import Sm8650.Data.Words

/-!
# Bit fields of a capability element

A capability field starts at any bit of a byte array and is at most 32 bits long, so it spans
up to five bytes. The setter and the getter walk these bytes with the same cursor.

Positions and widths are natural numbers: none of them leaves the range of its type.

Source: `wlan_utility.c` and `qdf_util.h`.
-/

namespace Sm8650.Wlan.IeCap

open Data.Words
open BitVec hiding and_self

/-! ## Bits of one byte -/

/-- The mask `(1 << num_bits) - 1`. -/
def mask (numBits : Nat) : BitVec 32 := (1#32 <<< numBits) - 1#32

/-- `QDF_SET_BITS` on a byte. -/
def qdfSetBits (var : Byte) (index numBits : Nat) (val : BitVec 32) : Byte :=
  let cleared := (var.setWidth 32 &&& ~~~(mask numBits <<< index)).setWidth 8
  (cleared.setWidth 32 ||| ((val &&& mask numBits) <<< index)).setWidth 8

/-- `QDF_GET_BITS` on a byte. -/
def qdfGetBits (val : Byte) (index numBits : Nat) : BitVec 32 :=
  (val.setWidth 32 >>> index) &&& mask numBits

theorem getLsbD_mask {numBits : Nat} (small : numBits ≤ 8) (bit : Nat) :
    (mask numBits).getLsbD bit = decide (bit < numBits) := by
  have power : (2 : Nat) ^ numBits ≤ 2 ^ 8 := Nat.pow_le_pow_right Nat.two_pos small
  have positive := Nat.two_pow_pos numBits
  have value : (mask numBits).toNat = 2 ^ numBits - 1 := by
    unfold mask
    rw [toNat_sub, toNat_shiftLeft]
    simp only [toNat_ofNat]
    omega
  rw [← testBit_toNat, value, Nat.testBit_two_pow_sub_one]

theorem getLsbD_qdfSetBits {index numBits : Nat} (fits : index + numBits ≤ 8) (var : Byte)
    (val : BitVec 32) {bit : Nat} (inside : bit < 8) :
    (qdfSetBits var index numBits val).getLsbD bit =
      if index ≤ bit ∧ bit < index + numBits then val.getLsbD (bit - index)
      else var.getLsbD bit := by
  have small : numBits ≤ 8 := by omega
  have word : bit < 32 := by omega
  unfold qdfSetBits
  simp only [getLsbD_setWidth, getLsbD_or, getLsbD_and, getLsbD_not,
    getLsbD_shiftLeft, getLsbD_mask small, inside, word]
  by_cases before : bit < index
  · have outside : ¬(index ≤ bit ∧ bit < index + numBits) := by omega
    simp [before, outside]
  · by_cases behind : bit - index < numBits
    · have field : index ≤ bit ∧ bit < index + numBits := by omega
      simp [before, behind, field]
    · have outside : ¬(index ≤ bit ∧ bit < index + numBits) := by omega
      simp [behind, outside]

theorem getLsbD_qdfGetBits {numBits : Nat} (small : numBits ≤ 8) (val : Byte) (index bit : Nat) :
    (qdfGetBits val index numBits).getLsbD bit =
      (decide (bit < numBits) && val.getLsbD (index + bit)) := by
  unfold qdfGetBits
  rw [getLsbD_and, getLsbD_mask small]
  by_cases field : bit < numBits
  · by_cases inside : index + bit < 8
    · have word : index + bit < 32 := by omega
      simp [field, word]
    · have beyond : val.getLsbD (index + bit) = false := getLsbD_of_ge _ _ (by omega)
      simp [beyond]
  · simp [field]

/-! ## The setter and the getter -/

/-- Where the loops of the setter and the getter are: the byte, the bit in it, the bits still
to go and the bits done. -/
structure Cursor where
  byteCnt : Nat
  bitPos : Nat
  totBits : Nat
  doneBits : Nat

/-- The bits of the field in the byte of the cursor. -/
def Cursor.fitBits (cursor : Cursor) : Nat :=
  if cursor.totBits > 8 - cursor.bitPos then 8 - cursor.bitPos else cursor.totBits

def Cursor.start (bitPos totBits : Nat) : Cursor where
  byteCnt := bitPos / 8
  bitPos := bitPos % 8
  totBits := totBits
  doneBits := 0

/-- The bits of the byte are done. -/
def Cursor.advance (cursor : Cursor) : Cursor :=
  let ended := decide (cursor.bitPos + cursor.fitBits = 8)
  { byteCnt := if ended then cursor.byteCnt + 1 else cursor.byteCnt
    bitPos := if ended then 0 else cursor.bitPos + cursor.fitBits
    totBits := cursor.totBits - cursor.fitBits
    doneBits := cursor.doneBits + cursor.fitBits }

/-- The field goes on behind the byte of the cursor. -/
def Cursor.spills (cursor : Cursor) : Bool :=
  decide (cursor.bitPos + cursor.totBits > 8)

/-- Set the bits of the byte of the cursor from the low bits of `value`. -/
def setByte (iecap : List Byte) (cursor : Cursor) (value : BitVec 32) : List Byte :=
  iecap.modify cursor.byteCnt fun byte => qdfSetBits byte cursor.bitPos cursor.fitBits value

/-- The rest of `wlan_iecap_set` from a cursor on: its loop, which runs at most once for each
bit, and the last byte. -/
def setFrom (value : BitVec 32) : Nat → List Byte → Cursor → List Byte
  | fuel + 1, iecap, cursor =>
    if cursor.spills then
      -- The source does not shift the value here.
      setFrom value fuel (setByte iecap cursor value) cursor.advance
    else
      setByte iecap cursor (value >>> cursor.doneBits)
  | 0, iecap, cursor =>
    if cursor.spills then iecap else setByte iecap cursor (value >>> cursor.doneBits)

/-- `wlan_iecap_set`. -/
def wlanIecapSet (iecap : List Byte) (bitPos totBits : Nat) (value : BitVec 32) : List Byte :=
  setFrom value totBits iecap (.start bitPos totBits)

/-- The bits of the byte of the cursor, at their place in the field. -/
def getByte (iecap : List Byte) (cursor : Cursor) : BitVec 32 :=
  qdfGetBits (iecap.getD cursor.byteCnt 0) cursor.bitPos cursor.fitBits <<< cursor.doneBits

/-- The rest of `wlan_iecap_get` from a cursor on. -/
def getFrom (iecap : List Byte) : Nat → BitVec 32 → Cursor → BitVec 32
  | fuel + 1, val, cursor =>
    if cursor.spills then getFrom iecap fuel (val ||| getByte iecap cursor) cursor.advance
    else val ||| getByte iecap cursor
  | 0, val, cursor => if cursor.spills then val else val ||| getByte iecap cursor

/-- `wlan_iecap_get`. -/
def wlanIecapGet (iecap : List Byte) (bitPos totBits : Nat) : BitVec 32 :=
  getFrom iecap totBits 0 (.start bitPos totBits)

/-! ## The bits of the array -/

/-- Bit `position` of a byte array. -/
def bitAt (iecap : List Byte) (position : Nat) : Bool :=
  (iecap.getD (position / 8) 0).getLsbD (position % 8)

/-- The cursor is inside a byte and the field ends in the array. -/
structure Cursor.Inside (cursor : Cursor) (size : Nat) : Prop where
  inByte : cursor.bitPos < 8
  some : 0 < cursor.totBits
  ends : 8 * cursor.byteCnt + cursor.bitPos + cursor.totBits ≤ 8 * size

/-- The array position of the cursor. -/
def Cursor.position (cursor : Cursor) : Nat := 8 * cursor.byteCnt + cursor.bitPos

theorem Cursor.spills_iff (cursor : Cursor) :
    cursor.spills = true ↔ 8 < cursor.bitPos + cursor.totBits := decide_eq_true_iff

/-- Behind a byte that the field spills over, the cursor is at the start of the next byte. -/
theorem Cursor.advance_of_spills {cursor : Cursor} (inByte : cursor.bitPos < 8)
    (spills : cursor.spills = true) :
    cursor.fitBits = 8 - cursor.bitPos ∧ cursor.advance =
      ⟨cursor.byteCnt + 1, 0, cursor.totBits - (8 - cursor.bitPos),
        cursor.doneBits + (8 - cursor.bitPos)⟩ := by
  rw [spills_iff] at spills
  have fit : cursor.fitBits = 8 - cursor.bitPos := if_pos (by omega)
  have ended : cursor.bitPos + (8 - cursor.bitPos) = 8 := by omega
  refine ⟨fit, ?_⟩
  unfold advance
  simp [fit, ended]

theorem Cursor.Inside.advance {cursor : Cursor} {size : Nat} (inside : cursor.Inside size)
    (spills : cursor.spills = true) : cursor.advance.Inside size := by
  obtain ⟨_, advanced⟩ := advance_of_spills inside.inByte spills
  rw [spills_iff] at spills
  have inByte := inside.inByte
  have ends := inside.ends
  rw [advanced]
  exact ⟨Nat.zero_lt_succ 7, by dsimp only; omega, by dsimp only; omega⟩

theorem Cursor.fitBits_of_not_spills {cursor : Cursor} (inByte : cursor.bitPos < 8)
    (ends : cursor.spills = false) : cursor.fitBits = cursor.totBits := by
  have within : ¬8 < cursor.bitPos + cursor.totBits := by
    rw [← spills_iff, ends]
    exact Bool.false_ne_true
  exact if_neg (by omega)

theorem bitAt_setByte {iecap : List Byte} {cursor : Cursor}
    (inside : cursor.byteCnt < iecap.length) (fits : cursor.bitPos + cursor.fitBits ≤ 8)
    (value : BitVec 32) (position : Nat) :
    bitAt (setByte iecap cursor value) position =
      if cursor.position ≤ position ∧ position < cursor.position + cursor.fitBits then
        value.getLsbD (position - cursor.position)
      else bitAt iecap position := by
  unfold bitAt setByte Cursor.position
  rw [List.getD_eq_getElem?_getD, List.getElem?_modify, List.getD_eq_getElem?_getD]
  by_cases same : cursor.byteCnt = position / 8
  · have present : position / 8 < iecap.length := same ▸ inside
    simp only [if_pos same, List.getElem?_eq_getElem present, Option.map_eq_map, Option.map_some,
      Option.getD_some, getLsbD_qdfSetBits fits _ _ (Nat.mod_lt _ (Nat.zero_lt_succ 7))]
    by_cases field : cursor.bitPos ≤ position % 8 ∧ position % 8 < cursor.bitPos + cursor.fitBits
    · rw [if_pos field, if_pos (by omega)]
      congr 1
      omega
    · rw [if_neg field, if_neg (by omega)]
  · have otherwise : ¬(8 * cursor.byteCnt + cursor.bitPos ≤ position ∧
        position < 8 * cursor.byteCnt + cursor.bitPos + cursor.fitBits) := by omega
    simp [if_neg same, if_neg otherwise]

/-- The bit of the value that the setter puts at a position of the field: in the last byte the
one that belongs there, in the bytes before it one of the low bits. -/
def sourceBit (cursor : Cursor) (position : Nat) : Nat :=
  if position / 8 = (cursor.position + cursor.totBits - 1) / 8 then
    cursor.doneBits + (position - cursor.position)
  else if position / 8 = cursor.byteCnt then position - cursor.position
  else position % 8

/-- The bytes behind the one of the cursor have the same source from the next cursor on. -/
theorem sourceBit_advance {cursor : Cursor} (inByte : cursor.bitPos < 8)
    (spills : cursor.spills = true) {position : Nat}
    (behind : 8 * (cursor.byteCnt + 1) ≤ position) :
    sourceBit cursor.advance position = sourceBit cursor position := by
  obtain ⟨_, advanced⟩ := Cursor.advance_of_spills inByte spills
  rw [Cursor.spills_iff] at spills
  rw [advanced]
  unfold sourceBit Cursor.position
  have ending : 8 * (cursor.byteCnt + 1) + 0 + (cursor.totBits - (8 - cursor.bitPos)) =
      8 * cursor.byteCnt + cursor.bitPos + cursor.totBits := by omega
  have other : ¬position / 8 = cursor.byteCnt := by omega
  have shifted : cursor.doneBits + (8 - cursor.bitPos) + (position - (8 * (cursor.byteCnt + 1) + 0)) =
      cursor.doneBits + (position - (8 * cursor.byteCnt + cursor.bitPos)) := by omega
  rw [ending, shifted, if_neg other]
  by_cases next : position / 8 = cursor.byteCnt + 1
  · have remainder : position - (8 * (cursor.byteCnt + 1) + 0) = position % 8 := by omega
    rw [if_pos next, remainder]
  · rw [if_neg next]

theorem sourceBit_first {cursor : Cursor} (spills : cursor.spills = true) {position : Nat}
    (inside : cursor.position ≤ position) (before : position < 8 * (cursor.byteCnt + 1)) :
    sourceBit cursor position = position - cursor.position := by
  rw [Cursor.spills_iff] at spills
  unfold Cursor.position at inside
  unfold sourceBit Cursor.position
  have notLast : ¬position / 8 = (8 * cursor.byteCnt + cursor.bitPos + cursor.totBits - 1) / 8 := by
    omega
  have first : position / 8 = cursor.byteCnt := by omega
  rw [if_neg notLast, if_pos first]

theorem sourceBit_last {cursor : Cursor} (inByte : cursor.bitPos < 8)
    (ends : cursor.spills = false) {position : Nat} (inside : cursor.position ≤ position)
    (before : position < cursor.position + cursor.totBits) :
    sourceBit cursor position = cursor.doneBits + (position - cursor.position) := by
  have within : ¬8 < cursor.bitPos + cursor.totBits := by
    rw [← Cursor.spills_iff, ends]
    exact Bool.false_ne_true
  unfold Cursor.position at inside before
  unfold sourceBit Cursor.position
  exact if_pos (by omega)

theorem bitAt_setFrom {value : BitVec 32} {fuel : Nat} {iecap : List Byte} {cursor : Cursor}
    (inside : cursor.Inside iecap.length) (enough : cursor.totBits ≤ fuel) (position : Nat) :
    bitAt (setFrom value fuel iecap cursor) position =
      if cursor.position ≤ position ∧ position < cursor.position + cursor.totBits then
        value.getLsbD (sourceBit cursor position)
      else bitAt iecap position := by
  induction fuel generalizing iecap cursor with
  | zero =>
    have some := inside.some
    omega
  | succ fuel ih =>
    have inByte := inside.inByte
    have some := inside.some
    have ends := inside.ends
    have present : cursor.byteCnt < iecap.length := by omega
    rw [setFrom]
    cases spills : cursor.spills with
    | true =>
      have long := cursor.spills_iff.mp spills
      obtain ⟨fit, advanced⟩ := Cursor.advance_of_spills inByte spills
      have next := inside.advance spills
      have fewer : cursor.advance.totBits ≤ fuel := by
        rw [advanced]
        dsimp only
        omega
      have start : cursor.advance.position = 8 * (cursor.byteCnt + 1) := by
        rw [advanced]
        rfl
      have stop : cursor.advance.position + cursor.advance.totBits =
          cursor.position + cursor.totBits := by
        rw [advanced]
        unfold Cursor.position
        dsimp only
        omega
      have written := bitAt_setByte present (by omega) value position
      have length : (setByte iecap cursor value).length = iecap.length :=
        List.length_modify _ _ _
      rw [← length] at next
      rw [if_pos rfl, ih next fewer, stop, start]
      by_cases behind : 8 * (cursor.byteCnt + 1) ≤ position
      · have reached : cursor.position ≤ position := by
          unfold Cursor.position
          omega
        have untouched : ¬(cursor.position ≤ position ∧
            position < cursor.position + cursor.fitBits) := by
          unfold Cursor.position
          omega
        rw [if_neg untouched] at written
        simp only [behind, reached, written, sourceBit_advance inByte spills behind]
      · have edge : cursor.position + cursor.fitBits = 8 * (cursor.byteCnt + 1) := by
          unfold Cursor.position
          omega
        have early : position < cursor.position + cursor.fitBits := by omega
        have inField : position < cursor.position + cursor.totBits := by omega
        rw [if_neg fun reached => behind reached.1, written]
        by_cases reached : cursor.position ≤ position
        · rw [if_pos ⟨reached, early⟩, if_pos ⟨reached, inField⟩,
            sourceBit_first spills reached (by omega)]
        · rw [if_neg fun field => reached field.1, if_neg fun field => reached field.1]
    | false =>
      have fit := Cursor.fitBits_of_not_spills inByte spills
      have within : ¬8 < cursor.bitPos + cursor.totBits := by
        rw [← Cursor.spills_iff, spills]
        exact Bool.false_ne_true
      rw [if_neg Bool.false_ne_true, bitAt_setByte present (by omega), fit]
      by_cases field : cursor.position ≤ position ∧ position < cursor.position + cursor.totBits
      · rw [if_pos field, if_pos field, getLsbD_ushiftRight,
          sourceBit_last inByte spills field.1 field.2]
      · rw [if_neg field, if_neg field]

theorem getLsbD_getByte {iecap : List Byte} {cursor : Cursor} (fits : cursor.fitBits ≤ 8)
    (inByte : cursor.bitPos + cursor.fitBits ≤ 8) {bit : Nat} (word : bit < 32) :
    (getByte iecap cursor).getLsbD bit =
      (decide (cursor.doneBits ≤ bit ∧ bit < cursor.doneBits + cursor.fitBits) &&
        bitAt iecap (cursor.position + (bit - cursor.doneBits))) := by
  unfold getByte
  rw [getLsbD_shiftLeft, getLsbD_qdfGetBits fits]
  by_cases before : bit < cursor.doneBits
  · have outside : ¬(cursor.doneBits ≤ bit ∧ bit < cursor.doneBits + cursor.fitBits) := by omega
    simp only [before, outside, decide_true, decide_false, Bool.not_true, Bool.and_false,
      Bool.false_and]
  · by_cases inside : bit - cursor.doneBits < cursor.fitBits
    · have field : cursor.doneBits ≤ bit ∧ bit < cursor.doneBits + cursor.fitBits := by omega
      have byte : (cursor.position + (bit - cursor.doneBits)) / 8 = cursor.byteCnt := by
        unfold Cursor.position
        omega
      have place : (cursor.position + (bit - cursor.doneBits)) % 8 =
          cursor.bitPos + (bit - cursor.doneBits) := by
        unfold Cursor.position
        omega
      unfold bitAt
      rw [byte, place]
      simp only [word, before, inside, field, decide_true, decide_false, Bool.not_false,
        Bool.true_and, and_self]
    · have outside : ¬(cursor.doneBits ≤ bit ∧ bit < cursor.doneBits + cursor.fitBits) := by omega
      simp [inside, outside]

theorem getLsbD_getFrom {iecap : List Byte} {fuel : Nat} {val : BitVec 32} {cursor : Cursor}
    (inside : cursor.Inside iecap.length) (enough : cursor.totBits ≤ fuel) {bit : Nat}
    (word : bit < 32) :
    (getFrom iecap fuel val cursor).getLsbD bit =
      (val.getLsbD bit ||
        (decide (cursor.doneBits ≤ bit ∧ bit < cursor.doneBits + cursor.totBits) &&
          bitAt iecap (cursor.position + (bit - cursor.doneBits)))) := by
  induction fuel generalizing val cursor with
  | zero =>
    have some := inside.some
    omega
  | succ fuel ih =>
    have inByte := inside.inByte
    rw [getFrom]
    cases spills : cursor.spills with
    | true =>
      have long := cursor.spills_iff.mp spills
      obtain ⟨fit, advanced⟩ := Cursor.advance_of_spills inByte spills
      have fewer : cursor.advance.totBits ≤ fuel := by
        rw [advanced]
        dsimp only
        omega
      have start : cursor.advance.position = cursor.position + (8 - cursor.bitPos) := by
        rw [advanced]
        unfold Cursor.position
        dsimp only
        omega
      have done : cursor.advance.doneBits = cursor.doneBits + (8 - cursor.bitPos) := by
        rw [advanced]
      have left : cursor.advance.totBits = cursor.totBits - (8 - cursor.bitPos) := by rw [advanced]
      rw [if_pos rfl, ih (inside.advance spills) fewer, getLsbD_or,
        getLsbD_getByte (by omega) (by omega) word, start, done, left, fit, Bool.or_assoc]
      by_cases early : bit < cursor.doneBits + (8 - cursor.bitPos)
      · have notLater : ¬(cursor.doneBits + (8 - cursor.bitPos) ≤ bit ∧
            bit < cursor.doneBits + (8 - cursor.bitPos) +
              (cursor.totBits - (8 - cursor.bitPos))) := by omega
        have same : (cursor.doneBits ≤ bit ∧ bit < cursor.doneBits + (8 - cursor.bitPos)) ↔
            (cursor.doneBits ≤ bit ∧ bit < cursor.doneBits + cursor.totBits) := by omega
        simp [notLater, same]
      · have notNow : ¬(cursor.doneBits ≤ bit ∧
            bit < cursor.doneBits + (8 - cursor.bitPos)) := by omega
        have same : (cursor.doneBits + (8 - cursor.bitPos) ≤ bit ∧
            bit < cursor.doneBits + (8 - cursor.bitPos) + (cursor.totBits - (8 - cursor.bitPos))) ↔
            (cursor.doneBits ≤ bit ∧ bit < cursor.doneBits + cursor.totBits) := by omega
        have place : cursor.position + (8 - cursor.bitPos) +
            (bit - (cursor.doneBits + (8 - cursor.bitPos))) =
            cursor.position + (bit - cursor.doneBits) := by omega
        simp [notNow, same, place]
    | false =>
      have fit := Cursor.fitBits_of_not_spills inByte spills
      have within : ¬8 < cursor.bitPos + cursor.totBits := by
        rw [← Cursor.spills_iff, spills]
        exact Bool.false_ne_true
      rw [if_neg Bool.false_ne_true, getLsbD_or,
        getLsbD_getByte (by omega) (by omega) word, fit]

/-! ## A field that is set and read back -/

/-- The field is not empty, fits a word and lies in the array. -/
structure FieldOf (iecap : List Byte) (bitPos totBits : Nat) : Prop where
  some : 1 ≤ totBits
  word : totBits ≤ 32
  inside : bitPos + totBits ≤ 8 * iecap.length

variable {bitPos totBits : Nat}

theorem FieldOf.start {iecap : List Byte} (field : FieldOf iecap bitPos totBits) :
    (Cursor.start bitPos totBits).Inside iecap.length where
  inByte := Nat.mod_lt _ (Nat.zero_lt_succ 7)
  some := field.some
  ends := by
    have inside := field.inside
    unfold Cursor.start
    dsimp only
    omega

@[simp]
theorem totBits_start (bitPos totBits : Nat) : (Cursor.start bitPos totBits).totBits = totBits :=
  rfl

@[simp]
theorem byteCnt_start (bitPos totBits : Nat) : (Cursor.start bitPos totBits).byteCnt = bitPos / 8 :=
  rfl

@[simp]
theorem position_start (bitPos totBits : Nat) : (Cursor.start bitPos totBits).position = bitPos :=
  Nat.div_add_mod bitPos 8

@[simp]
theorem doneBits_start (bitPos totBits : Nat) : (Cursor.start bitPos totBits).doneBits = 0 :=
  rfl

/-- Every byte between the first and the last byte of the field is due to get the eight low
bits of the value. -/
def Repeats (bitPos totBits : Nat) (value : BitVec 32) : Prop :=
  ∀ byte, bitPos / 8 < byte → byte < (bitPos + totBits - 1) / 8 →
    (value >>> (8 * byte - bitPos)).setWidth 8 = value.setWidth 8

/-- Bit for bit: the setter puts every bit of the value where it belongs. -/
def Placed (bitPos totBits : Nat) (value : BitVec 32) : Prop :=
  ∀ bit < totBits,
    value.getLsbD (sourceBit (.start bitPos totBits) (bitPos + bit)) = value.getLsbD bit

theorem placed_iff_repeats (value : BitVec 32) :
    Placed bitPos totBits value ↔ Repeats bitPos totBits value := by
  have source : ∀ bit, sourceBit (.start bitPos totBits) (bitPos + bit) =
      if (bitPos + bit) / 8 = (bitPos + totBits - 1) / 8 then bit
      else if (bitPos + bit) / 8 = bitPos / 8 then bit
      else (bitPos + bit) % 8 := by
    intro bit
    unfold sourceBit
    simp
  constructor
  · intro placed byte behind before
    apply eq_of_getLsbD_eq
    intro low small
    have index : 8 * byte - bitPos + low < totBits := by omega
    have here := placed _ index
    have place : bitPos + (8 * byte - bitPos + low) = 8 * byte + low := by omega
    rw [source, place, if_neg (by omega), if_neg (by omega), Nat.mul_add_mod,
      Nat.mod_eq_of_lt small] at here
    rw [getLsbD_setWidth, getLsbD_setWidth, getLsbD_ushiftRight, here]
  · intro repeats bit inField
    rw [source]
    by_cases last : (bitPos + bit) / 8 = (bitPos + totBits - 1) / 8
    · rw [if_pos last]
    · rw [if_neg last]
      by_cases first : (bitPos + bit) / 8 = bitPos / 8
      · rw [if_pos first]
      · rw [if_neg first]
        have small : (bitPos + bit) % 8 < 8 := Nat.mod_lt _ (Nat.zero_lt_succ 7)
        have low := congrArg (fun word => word.getLsbD ((bitPos + bit) % 8))
          (repeats ((bitPos + bit) / 8) (by omega) (by omega))
        have place : 8 * ((bitPos + bit) / 8) - bitPos + (bitPos + bit) % 8 = bit := by omega
        simp only [getLsbD_setWidth, getLsbD_ushiftRight, small, place] at low
        exact low.symm

theorem bitAt_wlanIecapSet {iecap : List Byte}
    (field : FieldOf iecap bitPos totBits) (value : BitVec 32) (position : Nat) :
    bitAt (wlanIecapSet iecap bitPos totBits value) position =
      if bitPos ≤ position ∧ position < bitPos + totBits then
        value.getLsbD (sourceBit (.start bitPos totBits) position)
      else bitAt iecap position := by
  have written := @bitAt_setFrom value totBits iecap _ field.start (Nat.le_refl totBits) position
  rw [position_start] at written
  exact written

theorem getLsbD_wlanIecapGet {iecap : List Byte}
    (field : FieldOf iecap bitPos totBits) {bit : Nat} (word : bit < 32) :
    (wlanIecapGet iecap bitPos totBits).getLsbD bit =
      (decide (bit < totBits) && bitAt iecap (bitPos + bit)) := by
  have taken := @getLsbD_getFrom iecap totBits 0#32 _ field.start (Nat.le_refl totBits) bit word
  simp only [position_start, doneBits_start, Nat.zero_add, Nat.zero_le, true_and,
    getLsbD_zero] at taken
  exact taken

theorem length_setFrom (value : BitVec 32) (fuel : Nat) (iecap : List Byte) (cursor : Cursor) :
    (setFrom value fuel iecap cursor).length = iecap.length := by
  induction fuel generalizing iecap cursor with
  | zero =>
    rw [setFrom]
    split
    · rfl
    · exact List.length_modify _ _ _
  | succ fuel ih =>
    rw [setFrom]
    split
    · exact (ih _ _).trans (List.length_modify _ _ _)
    · exact List.length_modify _ _ _

/-- The value comes back from the array that it was set in, and no other bit of the array has
changed. -/
structure RoundTrips (iecap : List Byte) (bitPos totBits : Nat) (value : BitVec 32) : Prop where
  same : wlanIecapGet (wlanIecapSet iecap bitPos totBits value) bitPos totBits = value
  length : (wlanIecapSet iecap bitPos totBits value).length = iecap.length
  others : ∀ position, position < bitPos ∨ bitPos + totBits ≤ position →
    bitAt (wlanIecapSet iecap bitPos totBits value) position = bitAt iecap position

/-- A value that fits its field comes back exactly when the bytes inside the field are due to
get its low bits. -/
theorem roundTrips_iff {iecap : List Byte} {value : BitVec 32}
    (field : FieldOf iecap bitPos totBits) (fits : value.toNat < 2 ^ totBits) :
    RoundTrips iecap bitPos totBits value ↔ Repeats bitPos totBits value := by
  rw [← placed_iff_repeats]
  have after : FieldOf (wlanIecapSet iecap bitPos totBits value) bitPos totBits :=
    ⟨field.some, field.word, (length_setFrom value _ iecap _).symm ▸ field.inside⟩
  have read : ∀ bit < 32,
      (wlanIecapGet (wlanIecapSet iecap bitPos totBits value) bitPos totBits).getLsbD bit =
        (decide (bit < totBits) &&
          value.getLsbD (sourceBit (.start bitPos totBits) (bitPos + bit))) := by
    intro bit word
    rw [getLsbD_wlanIecapGet after word, bitAt_wlanIecapSet field]
    by_cases inField : bit < totBits
    · rw [if_pos ⟨Nat.le_add_right _ _, Nat.add_lt_add_left inField _⟩]
    · rw [decide_eq_false inField, Bool.false_and, Bool.false_and]
  constructor
  · intro trip bit inField
    have here := read bit (Nat.lt_of_lt_of_le inField field.word)
    rw [trip.same, decide_eq_true inField] at here
    exact here.symm
  · intro placed
    refine ⟨?_, length_setFrom _ _ _ _, fun position outside => ?_⟩
    · apply eq_of_getLsbD_eq
      intro bit word
      rw [read bit word]
      by_cases inField : bit < totBits
      · rw [placed bit inField, decide_eq_true inField, Bool.true_and]
      · have beyond : value.getLsbD bit = false := by
          apply Nat.testBit_lt_two_pow
          exact Nat.lt_of_lt_of_le fits
            (Nat.pow_le_pow_right Nat.two_pos (Nat.le_of_not_lt inField))
        rw [decide_eq_false inField, Bool.false_and, beyond]
    · rw [bitAt_wlanIecapSet field, if_neg (by omega)]

/-- Twelve bits from bit 4 on take two bytes. -/
theorem roundTrips_twoBytes : RoundTrips [0, 0] 4 12 0xabc :=
  (roundTrips_iff ⟨by decide, by decide, by decide⟩ (by decide)).mpr
    fun byte behind before => absurd before (by omega)

/-- The second byte of a field of three gets the low bits again. -/
theorem not_roundTrips_threeBytes : ¬RoundTrips [0, 0, 0] 0 24 0x030201 := by
  intro trip
  exact absurd trip.same (by decide)

end Sm8650.Wlan.IeCap
