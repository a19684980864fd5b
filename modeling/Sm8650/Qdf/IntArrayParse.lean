import Sm8650.Qdf.IntParse

/-!
# Parsing lists of integers

The four array parsers share the loop over the elements and differ in the look at the range of
an element. The one for signed elements looks at the range of 64 bits and stores 32 of them.

An output array is a function of the index.

Source: `qdf_types.c`.
-/

namespace Sm8650.Qdf

open Data.Words Function List
open BitVec hiding append_assoc cons

/-! ## The code -/

/-- The loop of the array parsers: how many elements are left to store, how many are stored,
the string and the array. -/
def arrayParseFrom {w : Nat} (element : LazyInt → Except QdfError (BitVec w)) :
    Nat → Nat → List Byte → (Nat → BitVec w) → Except QdfError Nat × (Nat → BitVec w)
  | 0, _, _, outArray => (.error .failure, outArray)
  | left + 1, size, inStr, outArray =>
    match intParseLazy inStr with
    | .error status => (.error status, outArray)
    | .ok parsed =>
      match element parsed with
      | .error status => (.error status, outArray)
      | .ok value =>
        let inStr := strLeftTrim parsed.rest
        if firstOf inStr = code ',' then
          arrayParseFrom element left (size + 1) inStr.tail (update outArray size value)
        else if firstOf inStr = 0 then
          (.ok (size + 1), update outArray size value)
        else
          (.error .failure, outArray)

/-- The element check of `qdf_int32_array_parse`. -/
def int32Element (parsed : LazyInt) : Except QdfError (BitVec 32) :=
  if parsed.negate then
    let signedValue := -parsed.value
    if BitVec.slt 0 signedValue then .error .range else .ok (signedValue.setWidth 32)
  else
    let signedValue := parsed.value
    if BitVec.slt signedValue 0 then .error .range else .ok (signedValue.setWidth 32)

/-- The element check of the array parsers for unsigned types of `w` bits. -/
def uintElement (w : Nat) (parsed : LazyInt) : Except QdfError (BitVec w) :=
  if (parsed.value.setWidth w).setWidth 64 ≠ parsed.value ∨ parsed.negate = true then
    .error .range
  else .ok (parsed.value.setWidth w)

/-- `qdf_int32_array_parse`: the status with the number of elements, and the array. -/
def int32ArrayParse (inStr : List Byte) (outArray : Nat → BitVec 32) (arraySize : Nat) :
    Except QdfError Nat × (Nat → BitVec 32) :=
  arrayParseFrom int32Element arraySize 0 inStr outArray

/-- `qdf_uint32_array_parse`. -/
def uint32ArrayParse (inStr : List Byte) (outArray : Nat → BitVec 32) (arraySize : Nat) :
    Except QdfError Nat × (Nat → BitVec 32) :=
  arrayParseFrom (uintElement 32) arraySize 0 inStr outArray

/-- `qdf_uint16_array_parse`. -/
def uint16ArrayParse (inStr : List Byte) (outArray : Nat → BitVec 16) (arraySize : Nat) :
    Except QdfError Nat × (Nat → BitVec 16) :=
  arrayParseFrom (uintElement 16) arraySize 0 inStr outArray

/-- `qdf_uint8_array_parse`. -/
def uint8ArrayParse (inStr : List Byte) (outArray : Nat → BitVec 8) (arraySize : Nat) :
    Except QdfError Nat × (Nat → BitVec 8) :=
  arrayParseFrom (uintElement 8) arraySize 0 inStr outArray

/-! ## Lists as text -/

/-- An integer in decimal with white space around it; a minus stands before the negative
integers only. -/
structure Token (integer : Int) (text : List Byte) (negate : Bool)
    (lead sign digits trail : List Byte) : Prop where
  text : text = lead ++ (sign ++ (digits ++ trail))
  lead : Blank lead
  sign : Sign negate sign
  some : digits ≠ []
  all : AllDigits 10 digits
  trail : Blank trail
  value : integer = signed negate (valueOf 10 digits)
  negative : negate = true → integer < 0

/-- Tokens with single commas between them. -/
inductive Elements : List Int → List Byte → Prop
  | last {integer text negate lead sign digits trail}
      (token : Token integer text negate lead sign digits trail) : Elements [integer] text
  | more {integer text negate lead sign digits trail integers rest}
      (token : Token integer text negate lead sign digits trail)
      (others : Elements integers rest) : Elements (integer :: integers) (text ++ code ',' :: rest)

/-- The text is the list, whose elements are below `2^63` in absolute value. -/
structure ListText (integers : List Int) (text : List Byte) : Prop where
  written : (integers = [] ∧ Blank text) ∨ Elements integers text
  bounded : ∀ integer ∈ integers, integer.natAbs < 2 ^ 63

/-- The parser succeeds exactly for lists that fit the array and whose elements lie between the
bounds, stores exactly the list then, and never writes behind the array. -/
structure ArrayExact {w : Nat} (low high : Int) (toInt : BitVec w → Int) (integers : List Int)
    (arraySize : Nat) (before : Nat → BitVec w)
    (result : Except QdfError Nat × (Nat → BitVec w)) : Prop where
  success : (∃ outSize, result.1 = .ok outSize) ↔
    1 ≤ integers.length ∧ integers.length ≤ arraySize ∧
      ∀ integer ∈ integers, low ≤ integer ∧ integer ≤ high
  stored : ∀ outSize, result.1 = .ok outSize →
    (List.range outSize).map (fun index => toInt (result.2 index)) = integers
  inside : ∀ index, arraySize ≤ index → result.2 index = before index

/-! ## The loop -/

/-- The element check decides by `Fits` and converts with `store`. -/
structure Checks {w : Nat} (element : LazyInt → Except QdfError (BitVec w)) (Fits : Int → Prop)
    (store : Int → BitVec w) : Prop where
  fits : ∀ negate value rest, value < 2 ^ 63 → (negate = true → signed negate value < 0) →
    Fits (signed negate value) →
    element ⟨BitVec.ofNat 64 value, negate, rest⟩ = .ok (store (signed negate value))
  fails : ∀ negate value rest, value < 2 ^ 63 → ¬Fits (signed negate value) →
    ∃ status, element ⟨BitVec.ofNat 64 value, negate, rest⟩ = .error status

/-- No parser touches anything but the elements that were left to store. -/
theorem arrayParseFrom_frame {w : Nat} (element : LazyInt → Except QdfError (BitVec w))
    (left size : Nat) (inStr : List Byte) (outArray : Nat → BitVec w) {index : Nat}
    (outside : index < size ∨ size + left ≤ index) :
    (arrayParseFrom element left size inStr outArray).2 index = outArray index := by
  induction left generalizing size inStr outArray with
  | zero => rfl
  | succ left ih =>
    have other : index ≠ size := by omega
    rw [arrayParseFrom]
    split
    · rfl
    · split
      · rfl
      · dsimp only
        split
        · rw [ih _ _ _ (by omega), update_of_ne other]
        · split
          · exact update_of_ne other _ _
          · rfl

theorem stops_trail {trail rest : List Byte} (blank : Blank trail)
    (behind : rest = [] ∨ ∃ more, rest = code ',' :: more) : Stops (trail ++ rest) := by
  cases trail with
  | cons c trail =>
    intro first listed
    obtain rfl := Option.some.inj listed
    exact stops_of_isSpace (blank _ mem_cons_self)
  | nil =>
    rcases behind with rfl | ⟨more, rfl⟩
    · exact fun _ listed => nomatch listed
    · intro first listed
      obtain rfl := Option.some.inj listed
      decide

theorem strLeftTrim_trail {trail rest : List Byte} (blank : Blank trail)
    (behind : rest = [] ∨ ∃ more, rest = code ',' :: more) :
    strLeftTrim (trail ++ rest) = rest := by
  refine strLeftTrim_append blank ?_
  rcases behind with rfl | ⟨more, rfl⟩
  · exact fun _ listed => nomatch listed
  · intro first listed
    obtain rfl := Option.some.inj listed
    decide

/-- What the loop makes of one token. -/
theorem Token.parsed {integer : Int} {text lead sign digits trail rest : List Byte} {negate : Bool}
    (token : Token integer text negate lead sign digits trail) (bounded : integer.natAbs < 2 ^ 63)
    (behind : rest = [] ∨ ∃ more, rest = code ',' :: more) :
    valueOf 10 digits < 2 ^ 63 ∧
      intParseLazy (text ++ rest) =
        .ok ⟨BitVec.ofNat 64 (valueOf 10 digits), negate, trail ++ rest⟩ := by
  have small : valueOf 10 digits < 2 ^ 63 := by
    rw [token.value] at bounded
    cases negate with
    | false =>
      rw [signed_false] at bounded
      omega
    | true =>
      rw [signed_true] at bounded
      omega
  refine ⟨small, ?_⟩
  have found := intParseLazy_of_written token.lead token.sign (.decimal token.some token.all)
    (stops_trail token.trail behind) (neverDrops_of_lt (by decide) (Nat.lt_trans small (by decide)))
  rw [token.text, append_assoc, append_assoc, append_assoc]
  exact found

section Loop

variable {w : Nat} {element : LazyInt → Except QdfError (BitVec w)} {Fits : Int → Prop}
  {store : Int → BitVec w}

section

variable (checks : Checks element Fits store)

include checks

/-- One element that the check refuses ends the loop. -/
theorem arrayParseFrom_refused {integer : Int} {text lead sign digits trail rest : List Byte}
    {negate : Bool}
    (token : Token integer text negate lead sign digits trail) (bounded : integer.natAbs < 2 ^ 63)
    (behind : rest = [] ∨ ∃ more, rest = code ',' :: more) (refused : ¬Fits integer)
    (left size : Nat) (outArray : Nat → BitVec w) :
    ∃ status, (arrayParseFrom element (left + 1) size (text ++ rest) outArray).1 = .error status := by
  obtain ⟨small, parsed⟩ := token.parsed bounded behind
  obtain ⟨status, failed⟩ := checks.fails negate _ (trail ++ rest) small (token.value ▸ refused)
  rw [arrayParseFrom, parsed]
  dsimp only
  rw [failed]
  exact ⟨status, rfl⟩

theorem arrayParseFrom_last {integer : Int} {text lead sign digits trail : List Byte}
    {negate : Bool}
    (token : Token integer text negate lead sign digits trail) (bounded : integer.natAbs < 2 ^ 63)
    (fits : Fits integer) (left size : Nat) (outArray : Nat → BitVec w) :
    arrayParseFrom element (left + 1) size text outArray =
      (.ok (size + 1), update outArray size (store integer)) := by
  obtain ⟨small, parsed⟩ := token.parsed bounded (.inl rfl)
  have taken := checks.fits negate _ (trail ++ []) small (token.value ▸ token.negative)
    (token.value ▸ fits)
  rw [← token.value] at taken
  rw [append_nil] at parsed
  rw [arrayParseFrom, parsed]
  dsimp only
  rw [taken]
  rw [strLeftTrim_trail token.trail (.inl rfl)]
  rfl

theorem arrayParseFrom_more {integer : Int} {text lead sign digits trail : List Byte}
    {negate : Bool}
    (token : Token integer text negate lead sign digits trail) (bounded : integer.natAbs < 2 ^ 63)
    (fits : Fits integer) (left size : Nat) (rest : List Byte) (outArray : Nat → BitVec w) :
    arrayParseFrom element (left + 1) size (text ++ code ',' :: rest) outArray =
      arrayParseFrom element left (size + 1) rest (update outArray size (store integer)) := by
  have comma : code ',' :: rest = [] ∨ ∃ more, code ',' :: rest = code ',' :: more :=
    .inr ⟨rest, rfl⟩
  obtain ⟨small, parsed⟩ := token.parsed bounded comma
  have taken := checks.fits negate _ (trail ++ code ',' :: rest) small
    (token.value ▸ token.negative) (token.value ▸ fits)
  rw [← token.value] at taken
  rw [arrayParseFrom, parsed]
  dsimp only
  rw [taken]
  rw [strLeftTrim_trail token.trail comma]
  rfl

theorem arrayParseFrom_stored {integers : List Int} {text : List Byte}
    (elements : Elements integers text) (bounded : ∀ integer ∈ integers, integer.natAbs < 2 ^ 63)
    (fit : ∀ integer ∈ integers, Fits integer) {left : Nat} (room : integers.length ≤ left)
    (size : Nat) (outArray : Nat → BitVec w) :
    let result := arrayParseFrom element left size text outArray
    result.1 = .ok (size + integers.length) ∧
      (range integers.length).map (fun index => result.2 (size + index)) = integers.map store := by
  induction elements generalizing left size outArray with
  | last token =>
    obtain ⟨left, rfl⟩ : ∃ n, left = n + 1 := ⟨left - 1, (Nat.sub_add_cancel room).symm⟩
    have single := arrayParseFrom_last checks token (bounded _ mem_cons_self)
      (fit _ mem_cons_self) left size outArray
    rw [single]
    exact ⟨rfl, congrArg (· :: []) (update_self size _ outArray)⟩
  | @more integer _ _ _ _ _ _ integers rest token others ih =>
    rw [length_cons] at room
    obtain ⟨left, rfl⟩ : ∃ n, left = n + 1 := ⟨left - 1, by omega⟩
    have step := arrayParseFrom_more checks token (bounded _ mem_cons_self)
      (fit _ mem_cons_self) left size rest outArray
    obtain ⟨done, stored⟩ := ih (forall_mem_cons.mp bounded).2
      (forall_mem_cons.mp fit).2 (Nat.le_of_succ_le_succ room) (size + 1)
      (update outArray size (store integer))
    rw [step]
    refine ⟨?_, ?_⟩
    · rw [done, length_cons, Nat.add_assoc, Nat.add_comm 1]
    · have first := arrayParseFrom_frame element left (size + 1) rest
        (update outArray size (store integer)) (.inl (Nat.lt_succ_self size))
      rw [update_self] at first
      rw [length_cons, range_succ_eq_map, map_cons, map_map, map_cons, ← stored]
      refine congrArg₂ cons first ?_
      refine map_congr_left fun index _ => ?_
      rw [comp_apply, Nat.succ_eq_add_one, Nat.add_comm index, Nat.add_assoc]

theorem arrayParseFrom_failed {integers : List Int} {text : List Byte}
    (elements : Elements integers text)
    (bounded : ∀ integer ∈ integers, integer.natAbs < 2 ^ 63) {left : Nat}
    (bad : ¬((∀ integer ∈ integers, Fits integer) ∧ integers.length ≤ left))
    (size : Nat) (outArray : Nat → BitVec w) :
    ∃ status, (arrayParseFrom element left size text outArray).1 = .error status := by
  induction elements generalizing left size outArray with
  | last token =>
    cases left with
    | zero => exact ⟨_, rfl⟩
    | succ left =>
      have refused := fun fits => bad ⟨forall_mem_singleton.mpr fits, Nat.succ_pos left⟩
      have failed := arrayParseFrom_refused checks token (bounded _ mem_cons_self)
        (.inl rfl) refused left size outArray
      rwa [append_nil] at failed
  | @more integer _ _ _ _ _ _ integers rest token others ih =>
    cases left with
    | zero => exact ⟨_, rfl⟩
    | succ left =>
      by_cases fits : Fits integer
      · rw [arrayParseFrom_more checks token (bounded _ mem_cons_self) fits]
        refine ih (forall_mem_cons.mp bounded).2 ?_ _ _
        rintro ⟨fit, room⟩
        exact bad ⟨forall_mem_cons.mpr ⟨fits, fit⟩, Nat.succ_le_succ room⟩
      · exact arrayParseFrom_refused checks token (bounded _ mem_cons_self)
          (.inr ⟨rest, rfl⟩) fits left size outArray

end

end Loop

variable {text : List Byte}

/-- White space is no list. -/
theorem arrayParseFrom_blank {w : Nat} (element : LazyInt → Except QdfError (BitVec w))
    (blank : Blank text) (left size : Nat) (outArray : Nat → BitVec w) :
    ∃ status, (arrayParseFrom element left size text outArray).1 = .error status := by
  cases left with
  | zero => exact ⟨_, rfl⟩
  | succ left =>
    have nothing : intParseLazy text = .error .failure := by
      unfold intParseLazy consumeHead
      rw [(strLeftTrim_eq_nil_iff text).mpr blank]
      rfl
    rw [arrayParseFrom, nothing]
    exact ⟨_, rfl⟩

/-! ## The four parsers -/

theorem checks_int32Element :
    Checks int32Element (fun _ => True) fun integer => BitVec.ofInt 32 integer where
  fits negate value rest small _ _ := by
    have read : (BitVec.ofNat 64 value).toNat = value := by
      rw [toNat_ofNat]
      omega
    unfold int32Element
    dsimp only
    cases negate with
    | true =>
      have negative := toInt_neg_of_le (read.trans_le (Nat.le_of_lt small))
      rw [if_pos rfl, if_neg (by rw [slt_zero_left]; omega), signed_true]
      congr 1
      apply eq_of_toNat_eq
      rw [toNat_setWidth, toNat_neg, toNat_ofInt]
      omega
    | false =>
      have positive := toInt_of_lt (read.trans_lt small)
      rw [if_neg Bool.false_ne_true, if_neg (by rw [slt_zero_right]; omega), signed_false]
      congr 1
      apply eq_of_toNat_eq
      rw [toNat_setWidth, toNat_ofInt]
      omega
  fails _ _ _ _ impossible := absurd trivial impossible

theorem checks_uintElement {w : Nat} (short : w ≤ 64) :
    Checks (uintElement w) (fun integer => 0 ≤ integer ∧ integer ≤ 2 ^ w - 1)
      fun integer => BitVec.ofInt w integer where
  fits negate value rest small negative fits := by
    have read : (BitVec.ofNat 64 value).toNat = value := by
      rw [toNat_ofNat]
      omega
    have bound : ((2 ^ w : Nat) : Int) = 2 ^ w := Int.natCast_pow 2 w
    obtain rfl : negate = false := by
      cases negate with
      | false => rfl
      | true => exact absurd fits.1 (Int.not_le.mpr (negative rfl))
    rw [signed_false] at fits ⊢
    have kept : (BitVec.ofNat 64 value).toNat < 2 ^ w := by omega
    unfold uintElement
    rw [if_neg (by simp [(setWidth_setWidth_iff short _).mpr kept]), ofInt_natCast]
    congr 1
    apply eq_of_toNat_eq
    rw [toNat_setWidth, read, toNat_ofNat]
  fails negate value rest small refused := by
    have read : (BitVec.ofNat 64 value).toNat = value := by
      rw [toNat_ofNat]
      omega
    have bound : ((2 ^ w : Nat) : Int) = 2 ^ w := Int.natCast_pow 2 w
    refine ⟨.range, if_pos ?_⟩
    cases negate with
    | true => exact .inr rfl
    | false =>
      refine .inl fun kept => refused ?_
      have fits := (setWidth_setWidth_iff short _).mp kept
      rw [read] at fits
      rw [signed_false]
      omega

variable {integers : List Int}

theorem Elements.length_pos (elements : Elements integers text) : 1 ≤ integers.length := by
  cases elements with
  | last => exact Nat.le_refl 1
  | more => exact Nat.succ_pos _

section Results

variable {w : Nat} {element : LazyInt → Except QdfError (BitVec w)} {low high : Int}
  {toInt : BitVec w → Int} {integers : List Int} {text : List Byte} {arraySize : Nat}

/-- A parser that fails where it is to fail. -/
theorem arrayExact_of_error {outArray : Nat → BitVec w}
    (failed : ∃ status, (arrayParseFrom element arraySize 0 text outArray).1 = .error status)
    (bad : ¬(1 ≤ integers.length ∧ integers.length ≤ arraySize ∧
      ∀ integer ∈ integers, low ≤ integer ∧ integer ≤ high)) :
    ArrayExact low high toInt integers arraySize outArray
      (arrayParseFrom element arraySize 0 text outArray) := by
  obtain ⟨status, failed⟩ := failed
  refine ⟨iff_of_false ?_ bad, fun outSize done => ?_, fun index behind => ?_⟩
  · rintro ⟨outSize, done⟩
    rw [failed] at done
    cases done
  · rw [failed] at done
    cases done
  · exact arrayParseFrom_frame _ _ _ _ _ (.inr (by omega))

/-- A parser that stores what it is to store. -/
theorem arrayExact_of_stored {Fits : Int → Prop} {store : Int → BitVec w}
    (checks : Checks element Fits store) (elements : Elements integers text)
    (bounded : ∀ integer ∈ integers, integer.natAbs < 2 ^ 63)
    (fit : ∀ integer ∈ integers, Fits integer)
    (inRange : ∀ integer ∈ integers, low ≤ integer ∧ integer ≤ high)
    (stores : ∀ integer, low ≤ integer → integer ≤ high → toInt (store integer) = integer)
    (room : integers.length ≤ arraySize) (outArray : Nat → BitVec w) :
    ArrayExact low high toInt integers arraySize outArray
      (arrayParseFrom element arraySize 0 text outArray) := by
  obtain ⟨done, stored⟩ := arrayParseFrom_stored checks elements bounded fit room 0 outArray
  simp only [Nat.zero_add] at done stored
  refine ⟨iff_of_true ⟨_, done⟩ ⟨elements.length_pos, room, inRange⟩, fun outSize ended => ?_,
    fun index behind => ?_⟩
  · rw [done] at ended
    rw [← Except.ok.inj ended]
    calc (range integers.length).map (fun index => toInt (_ : BitVec w))
        = ((range integers.length).map fun index =>
            (arrayParseFrom element arraySize 0 text outArray).2 index).map toInt :=
          (map_map).symm
      _ = (integers.map store).map toInt := congrArg _ stored
      _ = integers.map (toInt ∘ store) := map_map
      _ = integers := by
          conv_rhs => rw [← map_id integers]
          exact map_congr_left fun integer listed =>
            stores integer (inRange integer listed).1 (inRange integer listed).2
  · exact arrayParseFrom_frame _ _ _ _ _ (.inr (by omega))

end Results

theorem uintArray_exact {w : Nat} (short : w ≤ 64) (listText : ListText integers text)
    (arraySize : Nat) (outArray : Nat → BitVec w) :
    ArrayExact 0 (2 ^ w - 1) (fun value => (value.toNat : Int)) integers arraySize outArray
      (arrayParseFrom (uintElement w) arraySize 0 text outArray) := by
  have checks := checks_uintElement short
  rcases listText.written with ⟨rfl, blank⟩ | elements
  · exact arrayExact_of_error (arrayParseFrom_blank _ blank _ _ _) fun good =>
      Nat.not_succ_le_zero 0 good.1
  · by_cases good : (∀ integer ∈ integers, 0 ≤ integer ∧ integer ≤ 2 ^ w - 1) ∧
        integers.length ≤ arraySize
    · refine arrayExact_of_stored checks elements listText.bounded good.1 good.1 ?_ good.2 outArray
      intro integer low high
      rw [toNat_ofInt, Int.emod_eq_of_lt low (by push_cast; omega), Int.toNat_of_nonneg low]
    · exact arrayExact_of_error
        (arrayParseFrom_failed checks elements listText.bounded good 0 outArray)
        fun all => good ⟨all.2.2, all.2.1⟩

theorem int32Array_exact_iff (listText : ListText integers text) (arraySize : Nat)
    (outArray : Nat → BitVec 32) :
    ArrayExact (-2 ^ 31) (2 ^ 31 - 1) BitVec.toInt integers arraySize outArray
        (int32ArrayParse text outArray arraySize) ↔
      (∀ integer ∈ integers, -2 ^ 31 ≤ integer ∧ integer ≤ 2 ^ 31 - 1) ∨
        arraySize < integers.length := by
  have checks := checks_int32Element
  rcases listText.written with ⟨rfl, blank⟩ | elements
  · refine iff_of_true ?_ (.inl fun _ listed => nomatch listed)
    exact arrayExact_of_error (arrayParseFrom_blank _ blank _ _ _) fun good =>
      Nat.not_succ_le_zero 0 good.1
  · constructor
    · intro exact
      by_contra bad
      obtain ⟨outside, room⟩ := not_or.mp bad
      have done := (arrayParseFrom_stored checks elements listText.bounded (fun _ _ => trivial)
        (Nat.not_lt.mp room) 0 outArray).1
      exact outside (exact.success.mp ⟨_, done⟩).2.2
    · rintro (inRange | long)
      · by_cases room : integers.length ≤ arraySize
        · refine arrayExact_of_stored checks elements listText.bounded (fun _ _ => trivial) inRange
            ?_ room outArray
          exact fun integer low high => toInt_ofInt_eq_self (by decide) low (by omega)
        · exact arrayExact_of_error (arrayParseFrom_failed checks elements listText.bounded
            (fun good => room good.2) 0 outArray) fun all => room all.2.1
      · exact arrayExact_of_error (arrayParseFrom_failed checks elements listText.bounded
          (fun good => Nat.not_le.mpr long good.2) 0 outArray) fun all => Nat.not_le.mpr long all.2.1

/-- The parsers of unsigned elements are exact. The one of signed elements is, exactly if no
element is outside 32 bits or the list is too long anyway. -/
theorem arrayParse_exact_iff {integers : List Int} {text : List Byte}
    (listText : ListText integers text) (arraySize : Nat) (out8 : Nat → BitVec 8)
    (out16 : Nat → BitVec 16) (out32 : Nat → BitVec 32) :
    (ArrayExact (-2 ^ 31) (2 ^ 31 - 1) BitVec.toInt integers arraySize out32
        (int32ArrayParse text out32 arraySize) ↔
      (∀ integer ∈ integers, -2 ^ 31 ≤ integer ∧ integer ≤ 2 ^ 31 - 1) ∨
        arraySize < integers.length) ∧
    ArrayExact 0 (2 ^ 32 - 1) (fun value => (value.toNat : Int)) integers arraySize out32
      (uint32ArrayParse text out32 arraySize) ∧
    ArrayExact 0 (2 ^ 16 - 1) (fun value => (value.toNat : Int)) integers arraySize out16
      (uint16ArrayParse text out16 arraySize) ∧
    ArrayExact 0 (2 ^ 8 - 1) (fun value => (value.toNat : Int)) integers arraySize out8
      (uint8ArrayParse text out8 arraySize) :=
  ⟨int32Array_exact_iff listText arraySize out32,
    uintArray_exact (by decide) listText arraySize out32,
    uintArray_exact (by decide) listText arraySize out16,
    uintArray_exact (by decide) listText arraySize out8⟩

/-- One integer that is not negative, written with its digits alone. -/
theorem listText_digits {digits : List Byte} {value : Nat} (some : digits ≠ [])
    (all : ∀ c ∈ digits, isDigit 10 c = true) (same : valueOf 10 digits = value)
    (small : value < 2 ^ 63) : ListText [(value : Int)] digits where
  written :=
    .inr (.last (@Token.mk _ _ false [] [] digits [] (append_nil digits).symm
      (fun _ listed => nomatch listed) .none some all (fun _ listed => nomatch listed)
      (congrArg Int.ofNat same.symm) nofun))
  bounded integer listed := by
    obtain rfl := mem_singleton.mp listed
    exact small

theorem arrayParse_exact_five :
    ArrayExact (-2 ^ 31) (2 ^ 31 - 1) BitVec.toInt [5] 1 (fun _ => 0)
      (int32ArrayParse [code '5'] (fun _ => 0) 1) :=
  (arrayParse_exact_iff (@listText_digits [code '5'] 5 (by decide) (by decide) rfl (by decide))
    1 (fun _ => 0) (fun _ => 0) (fun _ => 0)).1.mpr (.inl (by decide))

/-- `4294967303`, which is seven more than `2^32`. -/
def largeElement : List Byte := ['4', '2', '9', '4', '9', '6', '7', '3', '0', '3'].map code

/-- It is stored as seven. -/
theorem not_arrayExact_largeElement :
    ListText [4294967303] largeElement ∧
      ¬ArrayExact (-2 ^ 31) (2 ^ 31 - 1) BitVec.toInt [4294967303] 1 (fun _ => 0)
        (int32ArrayParse largeElement (fun _ => 0) 1) := by
  refine ⟨@listText_digits largeElement 4294967303 (by decide) (by decide) rfl (by decide),
    fun exact => ?_⟩
  have done : (int32ArrayParse largeElement (fun _ => 0) 1).1 = .ok 1 := rfl
  exact absurd (exact.success.mp ⟨1, done⟩).2.2 (by decide)

end Sm8650.Qdf
