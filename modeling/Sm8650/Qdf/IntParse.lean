import Sm8650.Qdf.Text

/-!
# Integer parsing

The parsers of all integer types read 64 bits and then look at the range of their own type.
A digit too many is noticed when the value, cut to 64 bits, gets smaller.

Source: `qdf_types.c`.
-/

namespace Sm8650.Qdf

open Data.Words List
open BitVec hiding cons_append not_not

/-! ## The code -/

/-- `qdf_consume_radix`. -/
def consumeRadix (str : List Byte) : Option (Nat × List Byte) :=
  if firstOf str = code '0' then
    if str.getD 1 0 = code 'b' then some (2, str.drop 2)
    else if str.getD 1 0 = code 'o' then some (8, str.drop 2)
    else if str.getD 1 0 = code 'x' then some (16, str.drop 2)
    else some (10, str)
  else if code '0' ≤ firstOf str ∧ firstOf str ≤ code '9' then some (10, str)
  else none

/-- The loop over the digits in `__qdf_int_parse_lazy`. -/
def parseDigits (radix : Nat) : BitVec 64 → List Byte → Except QdfError (BitVec 64 × List Byte)
  | value, [] => .ok (value, [])
  | value, c :: str =>
    match hexDigit c with
    | none => .ok (value, c :: str)
    | some digit =>
      if digit ≥ radix then .error .failure
      else
        let nextValue := value * BitVec.ofNat 64 radix + BitVec.ofNat 64 digit
        if nextValue < value then .error .range
        else parseDigits radix nextValue str

/-- What `__qdf_int_parse_lazy` finds at the start of a string. -/
structure LazyInt where
  value : BitVec 64
  negate : Bool
  rest : List Byte

/-- The part of `__qdf_int_parse_lazy` before the digits: whether there is a minus, the radix
and what is left. -/
def consumeHead (intStr : List Byte) : Option (Bool × Nat × List Byte) :=
  let str := strLeftTrim intStr
  match consumeChar str (code '-') with
  | some str => (consumeRadix str).map fun found => (true, found)
  | none =>
    let str := (consumeChar str (code '+')).getD str
    (consumeRadix str).map fun found => (false, found)

/-- `__qdf_int_parse_lazy`. -/
def intParseLazy (intStr : List Byte) : Except QdfError LazyInt :=
  match consumeHead intStr with
  | none => .error .failure
  | some (negate, radix, str) =>
    (parseDigits radix 0 str).map fun found => ⟨found.1, negate, found.2⟩

/-- `qdf_int_parse`. -/
def intParse (intStr : List Byte) : Except QdfError (BitVec 64 × Bool) := do
  let parsed ← intParseLazy intStr
  if firstOf (strLeftTrim parsed.rest) ≠ 0 then throw .failure
  pure (parsed.value, parsed.negate)

/-- `qdf_int64_parse`. -/
def int64Parse (intStr : List Byte) : Except QdfError (BitVec 64) := do
  let (value, negate) ← intParse intStr
  if negate then
    let signedValue := -value
    if BitVec.slt 0 signedValue then throw .range
    pure signedValue
  else
    let signedValue := value
    if BitVec.slt signedValue 0 then throw .range
    pure signedValue

/-- `qdf_uint64_parse`. -/
def uint64Parse (intStr : List Byte) : Except QdfError (BitVec 64) := do
  let (value, negate) ← intParse intStr
  if negate then throw .range
  pure value

/-- `qdf_int32_parse`. -/
def int32Parse (intStr : List Byte) : Except QdfError (BitVec 32) := do
  let value ← int64Parse intStr
  if (value.setWidth 32).signExtend 64 ≠ value then throw .range
  pure (value.setWidth 32)

/-- The parsers of the short unsigned types: a value that does not survive the conversion to
the type is out of range. -/
def uintParse (w : Nat) (intStr : List Byte) : Except QdfError (BitVec w) := do
  let value ← uint64Parse intStr
  if (value.setWidth w).setWidth 64 ≠ value then throw .range
  pure (value.setWidth w)

/-- `qdf_uint8_parse`. -/
def uint8Parse (intStr : List Byte) : Except QdfError (BitVec 8) := uintParse 8 intStr

/-- `qdf_uint16_parse`. -/
def uint16Parse (intStr : List Byte) : Except QdfError (BitVec 16) := uintParse 16 intStr

/-- `qdf_uint32_parse`. -/
def uint32Parse (intStr : List Byte) : Except QdfError (BitVec 32) := uintParse 32 intStr

/-! ## Integers as text -/

/-- All bytes are digits of the radix. -/
def AllDigits (radix : Nat) (digits : List Byte) : Prop := ∀ c ∈ digits, isDigit radix c = true

/-- The value of digits behind digits with a value. -/
def valueFrom (radix : Nat) (value : Nat) (digits : List Byte) : Nat :=
  digits.foldl (fun value c => value * radix + digitOf c) value

/-- The value of digits. -/
def valueOf (radix : Nat) (digits : List Byte) : Nat := valueFrom radix 0 digits

/-- A number in one of the four radices. -/
inductive Numeral : (radix : Nat) → (number digits : List Byte) → Prop
  | binary {digits} (all : AllDigits 2 digits) : Numeral 2 (code '0' :: code 'b' :: digits) digits
  | octal {digits} (all : AllDigits 8 digits) : Numeral 8 (code '0' :: code 'o' :: digits) digits
  | hex {digits} (all : AllDigits 16 digits) : Numeral 16 (code '0' :: code 'x' :: digits) digits
  | decimal {digits} (some : digits ≠ []) (all : AllDigits 10 digits) : Numeral 10 digits digits

/-- A sign, or none; a minus negates. -/
inductive Sign : (negate : Bool) → (sign : List Byte) → Prop
  | none : Sign false []
  | plus : Sign false [code '+']
  | minus : Sign true [code '-']

/-- A number with its sign, and white space around it. -/
structure IntText (text : List Byte) (negate : Bool) (radix : Nat) (digits : List Byte)
    (lead sign number trail : List Byte) : Prop where
  text : text = lead ++ (sign ++ (number ++ trail))
  lead : Blank lead
  sign : Sign negate sign
  number : Numeral radix number digits
  trail : Blank trail

/-- The text is a number with these digits. -/
def Reads (text : List Byte) (negate : Bool) (radix : Nat) (digits : List Byte) : Prop :=
  ∃ lead sign number trail, IntText text negate radix digits lead sign number trail

/-- The integer of an absolute value. -/
def signed (negate : Bool) (value : Nat) : Int := if negate then -value else value

/-- The text is an integer, with a minus only if that is allowed. -/
def Denotes (minus : Bool) (text : List Byte) (integer : Int) : Prop :=
  ∃ negate radix digits, Reads text negate radix digits ∧ (negate = true → minus = true) ∧
    integer = signed negate (valueOf radix digits)

/-- A parser succeeds with the integers between the bounds that the text is, and with nothing
else. -/
def Exact (minus : Bool) (low high : Int) (text : List Byte) (result : Except QdfError Int) :
    Prop :=
  ∀ integer, result = .ok integer ↔ Denotes minus text integer ∧ low ≤ integer ∧ integer ≤ high

/-- With no digit does the value, cut to 64 bits, get smaller. -/
def NeverDrops (radix : Nat) : Nat → List Byte → Prop
  | _, [] => True
  | value, c :: digits =>
    value % 2 ^ 64 ≤ (value * radix + digitOf c) % 2 ^ 64 ∧
      NeverDrops radix (value * radix + digitOf c) digits

/-- The number does not fit 64 bits, no digit shows it, and what is left of it lies between the
bounds. -/
def Overlooked (minus : Bool) (low high : Int) (text : List Byte) : Prop :=
  ∃ negate radix digits, Reads text negate radix digits ∧ (negate = true → minus = true) ∧
    2 ^ 64 ≤ valueOf radix digits ∧ NeverDrops radix 0 digits ∧
    low ≤ signed negate (valueOf radix digits % 2 ^ 64) ∧
    signed negate (valueOf radix digits % 2 ^ 64) ≤ high

/-! ## The digits -/

/-- The digits end here, and no letter of a radix follows. -/
def Stops (rest : List Byte) : Prop :=
  ∀ c ∈ rest.head?, isHex c = false ∧ c ≠ code 'o' ∧ c ≠ code 'x'

theorem valueFrom_cons (radix value : Nat) (c : Byte) (digits : List Byte) :
    valueFrom radix value (c :: digits) = valueFrom radix (value * radix + digitOf c) digits :=
  rfl

theorem ofNat_next (radix value digit : Nat) :
    BitVec.ofNat 64 value * BitVec.ofNat 64 radix + BitVec.ofNat 64 digit =
      BitVec.ofNat 64 (value * radix + digit) := by
  rw [ofNat_add, ofNat_mul]

variable {radix : Nat}

theorem parseDigits_nil {rest : List Byte} (stops : ∀ c ∈ rest.head?, isHex c = false)
    (value : BitVec 64) : parseDigits radix value rest = .ok (value, rest) := by
  cases rest with
  | nil => rfl
  | cons c rest =>
    have none : hexDigit c = none := Option.isSome_eq_false_iff.mp (stops c rfl) |> Option.isNone_iff_eq_none.mp
    rw [parseDigits, none]

theorem parseDigits_cons {c : Byte} (digit : isDigit radix c = true) (value : Nat)
    (str : List Byte) :
    parseDigits radix (BitVec.ofNat 64 value) (c :: str) =
      if (value * radix + digitOf c) % 2 ^ 64 < value % 2 ^ 64 then .error .range
      else parseDigits radix (BitVec.ofNat 64 (value * radix + digitOf c)) str := by
  have hex := isHex_of_isDigit digit
  have small := (isDigit_iff hex).mp digit
  rw [parseDigits, hexDigit_of_isHex hex]
  dsimp only
  rw [if_neg (Nat.not_le.mpr small), ofNat_next]
  exact if_congr (by rw [lt_def, toNat_ofNat, toNat_ofNat]) rfl rfl

theorem parseDigits_append {digits rest : List Byte} {value : Nat} (all : AllDigits radix digits)
    (stops : ∀ c ∈ rest.head?, isHex c = false) (rising : NeverDrops radix value digits) :
    parseDigits radix (BitVec.ofNat 64 value) (digits ++ rest) =
      .ok (BitVec.ofNat 64 (valueFrom radix value digits), rest) := by
  induction digits generalizing value with
  | nil => exact parseDigits_nil stops _
  | cons c digits ih =>
    obtain ⟨rises, later⟩ := rising
    obtain ⟨digit, others⟩ := forall_mem_cons.mp all
    rw [cons_append, parseDigits_cons digit, if_neg (Nat.not_lt.mpr rises),
      ih others later, valueFrom_cons]

theorem parseDigits_of_drop {digits : List Byte} {value : Nat} (all : AllDigits radix digits)
    (drops : ¬NeverDrops radix value digits) (rest : List Byte) :
    parseDigits radix (BitVec.ofNat 64 value) (digits ++ rest) = .error .range := by
  induction digits generalizing value with
  | nil => exact absurd trivial drops
  | cons c digits ih =>
    obtain ⟨digit, others⟩ := forall_mem_cons.mp all
    rw [cons_append, parseDigits_cons digit]
    by_cases rises : value % 2 ^ 64 ≤ (value * radix + digitOf c) % 2 ^ 64
    · rw [if_neg (Nat.not_lt.mpr rises)]
      exact ih others fun later => drops ⟨rises, later⟩
    · exact if_pos (Nat.lt_of_not_le rises)

/-- The digits that were read are a maximal run of digits of the radix. -/
theorem digits_of_parseDigits {value result : BitVec 64} {str rest : List Byte}
    (parsed : parseDigits radix value str = .ok (result, rest)) :
    ∃ digits, str = digits ++ rest ∧ AllDigits radix digits ∧
      ∀ c ∈ rest.head?, isHex c = false := by
  induction str generalizing value with
  | nil =>
    obtain ⟨_, rfl⟩ := Prod.mk.inj (Except.ok.inj parsed)
    exact ⟨[], rfl, fun _ listed => absurd listed not_mem_nil, fun _ listed => nomatch listed⟩
  | cons c str ih =>
    rw [parseDigits] at parsed
    cases found : hexDigit c with
    | none =>
      rw [found] at parsed
      obtain ⟨_, rfl⟩ := Prod.mk.inj (Except.ok.inj parsed)
      refine ⟨[], rfl, fun _ listed => absurd listed not_mem_nil, ?_⟩
      intro first listed
      rw [head?_cons, Option.mem_some_iff] at listed
      rw [← listed, isHex, found]
      rfl
    | some digit =>
      rw [found] at parsed
      dsimp only at parsed
      by_cases large : digit ≥ radix
      · rw [if_pos large] at parsed
        cases parsed
      · rw [if_neg large] at parsed
        split at parsed
        · cases parsed
        · obtain ⟨digits, rfl, all, stops⟩ := ih parsed
          refine ⟨c :: digits, rfl, forall_mem_cons.mpr ⟨?_, all⟩, stops⟩
          rw [isDigit, found, Option.any_some, decide_eq_true_iff]
          exact Nat.lt_of_not_le large

/-! ## The head of a number -/

/-- The byte is no letter that tells a radix. -/
def NoRadix (c : Byte) : Prop := c ≠ code 'b' ∧ c ≠ code 'o' ∧ c ≠ code 'x'

theorem noRadix_of_decimal : ∀ {c : Byte}, isDigit 10 c = true → NoRadix c := by
  unfold NoRadix
  decide

theorem noRadix_zero : NoRadix 0 := by
  unfold NoRadix
  decide

theorem consumeRadix_decimal {c : Byte} {str : List Byte} (digit : isDigit 10 c = true)
    (noRadix : ∀ next ∈ str.head?, NoRadix next) : consumeRadix (c :: str) = some (10, c :: str) := by
  rw [isDigit_decimal, decide_eq_true_iff] at digit
  have second : NoRadix ((c :: str).getD 1 0) := by
    cases str with
    | nil => exact noRadix_zero
    | cons next str => exact noRadix next rfl
  unfold consumeRadix
  rw [if_neg second.1, if_neg second.2.1, if_neg second.2.2]
  by_cases zero : firstOf (c :: str) = code '0'
  · exact if_pos zero
  · rw [if_neg zero]
    exact if_pos digit

theorem consumeRadix_append {number digits rest : List Byte} (numeral : Numeral radix number digits)
    (stops : Stops rest) : consumeRadix (number ++ rest) = some (radix, digits ++ rest) := by
  cases numeral with
  | binary all | octal all | hex all => rfl
  | decimal some all =>
    obtain ⟨c, digits, rfl⟩ := exists_cons_of_ne_nil some
    obtain ⟨digit, others⟩ := forall_mem_cons.mp all
    refine consumeRadix_decimal digit ?_
    cases digits with
    | nil =>
      intro next first
      obtain ⟨notHex, notO, notX⟩ := stops next first
      refine ⟨?_, notO, notX⟩
      rintro rfl
      exact absurd notHex (by decide)
    | cons second digits =>
      intro next first
      obtain rfl := Option.some.inj first
      exact noRadix_of_decimal (others _ mem_cons_self)

variable {number digits : List Byte}

/-- A number starts with a decimal digit. -/
theorem Numeral.digit_first (numeral : Numeral radix number digits) :
    ∃ c rest, number = c :: rest ∧ isDigit 10 c = true := by
  cases numeral with
  | binary all | octal all | hex all => exact ⟨_, _, rfl, by decide⟩
  | decimal some all =>
    obtain ⟨c, digits, rfl⟩ := exists_cons_of_ne_nil some
    exact ⟨c, digits, rfl, all c mem_cons_self⟩

theorem eq_of_second {str rest : List Byte} {c : Byte} (zero : firstOf str = code '0')
    (second : str.getD 1 0 = c) (notNul : c ≠ 0) (dropped : str.drop 2 = rest) :
    str = code '0' :: c :: rest := by
  match str with
  | [] => exact absurd second.symm notNul
  | [_] => exact absurd second.symm notNul
  | first :: next :: str =>
    obtain rfl : first = code '0' := zero
    obtain rfl : next = c := second
    obtain rfl : str = rest := dropped
    rfl

theorem numeral_of_consumeRadix {str digits rest : List Byte}
    (consumed : consumeRadix str = some (radix, digits ++ rest)) (all : AllDigits radix digits)
    (stops : ∀ c ∈ rest.head?, isHex c = false) :
    ∃ number, Numeral radix number digits ∧ str = number ++ rest := by
  have decimal : isDigit 10 (firstOf str) = true → some (10, str) = some (radix, digits ++ rest) →
      ∃ number, Numeral radix number digits ∧ str = number ++ rest := by
    intro digit found
    obtain ⟨rfl, same⟩ := Prod.mk.inj (Option.some.inj found)
    refine ⟨digits, .decimal ?_ all, same⟩
    -- Without a digit the rest would start with one.
    rintro rfl
    rw [same] at digit
    match rest, stops, digit with
    | [], _, digit => exact absurd digit (by decide)
    | c :: rest, stops, digit =>
      have hex : isHex c = true := isHex_of_isDigit digit
      rw [stops c rfl] at hex
      cases hex
  unfold consumeRadix at consumed
  split at consumed
  · rename_i zero
    split at consumed
    · rename_i second
      obtain ⟨rfl, dropped⟩ := Prod.mk.inj (Option.some.inj consumed)
      exact ⟨_, .binary all, eq_of_second zero second (by decide) dropped⟩
    · split at consumed
      · rename_i second
        obtain ⟨rfl, dropped⟩ := Prod.mk.inj (Option.some.inj consumed)
        exact ⟨_, .octal all, eq_of_second zero second (by decide) dropped⟩
      · split at consumed
        · rename_i second
          obtain ⟨rfl, dropped⟩ := Prod.mk.inj (Option.some.inj consumed)
          exact ⟨_, .hex all, eq_of_second zero second (by decide) dropped⟩
        · exact decimal (by rw [zero]; decide) consumed
  · split at consumed
    · rename_i digit
      exact decimal (by rw [isDigit_decimal]; exact decide_eq_true digit) consumed
    · cases consumed

theorem not_isSpace_of_decimal : ∀ {c : Byte}, isDigit 10 c = true →
    isSpace c = false ∧ c ≠ code '-' ∧ c ≠ code '+' := by
  decide

variable {negate : Bool}

theorem consumeHead_append {lead sign number digits rest : List Byte} (blank : Blank lead)
    (signs : Sign negate sign) (numeral : Numeral radix number digits) (stops : Stops rest) :
    consumeHead (lead ++ (sign ++ (number ++ rest))) = some (negate, radix, digits ++ rest) := by
  have radixFound := consumeRadix_append numeral stops
  obtain ⟨c, tail, rfl, digit⟩ := numeral.digit_first
  obtain ⟨notSpace, notMinus, notPlus⟩ := not_isSpace_of_decimal digit
  unfold consumeHead
  cases signs with
  | none =>
    have trimmed : strLeftTrim (lead ++ ([] ++ (c :: tail ++ rest))) = c :: tail ++ rest :=
      strLeftTrim_append blank fun first listed => Option.some.inj listed ▸ notSpace
    have noMinus : consumeChar (c :: tail ++ rest) (code '-') = none :=
      consumeChar_eq_none_iff.mpr notMinus
    have noPlus : consumeChar (c :: tail ++ rest) (code '+') = none :=
      consumeChar_eq_none_iff.mpr notPlus
    dsimp only
    rw [trimmed, noMinus, noPlus, Option.getD_none, radixFound]
    rfl
  | plus =>
    have trimmed : strLeftTrim (lead ++ ([code '+'] ++ (c :: tail ++ rest))) =
        code '+' :: (c :: tail ++ rest) :=
      strLeftTrim_append blank fun first listed => by
        obtain rfl := Option.some.inj listed
        decide
    have plus : consumeChar (code '+' :: (c :: tail ++ rest)) (code '+') =
        some (c :: tail ++ rest) :=
      (consumeChar_eq_some_iff (by decide)).mpr rfl
    dsimp only
    rw [trimmed, plus, Option.getD_some, radixFound]
    rfl
  | minus =>
    have trimmed : strLeftTrim (lead ++ ([code '-'] ++ (c :: tail ++ rest))) =
        code '-' :: (c :: tail ++ rest) :=
      strLeftTrim_append blank fun first listed => by
        obtain rfl := Option.some.inj listed
        decide
    have minus : consumeChar (code '-' :: (c :: tail ++ rest)) (code '-') =
        some (c :: tail ++ rest) :=
      (consumeChar_eq_some_iff (by decide)).mpr rfl
    dsimp only
    rw [trimmed, minus]
    dsimp only
    rw [radixFound]
    rfl

theorem number_of_consumeHead {text digits rest : List Byte}
    (consumed : consumeHead text = some (negate, radix, digits ++ rest))
    (all : AllDigits radix digits) (stops : ∀ c ∈ rest.head?, isHex c = false) :
    ∃ lead sign number, Blank lead ∧ Sign negate sign ∧ Numeral radix number digits ∧
      text = lead ++ (sign ++ (number ++ rest)) := by
  obtain ⟨lead, blank, split⟩ := exists_blank_append text
  have found : ∀ str, (consumeRadix str).map (fun found => (negate, found)) =
      some (negate, radix, digits ++ rest) →
      ∃ number, Numeral radix number digits ∧ str = number ++ rest := by
    intro str mapped
    obtain ⟨taken, consumed, same⟩ := Option.map_eq_some_iff.mp mapped
    obtain rfl := (Prod.mk.inj same).2
    exact numeral_of_consumeRadix consumed all stops
  unfold consumeHead at consumed
  dsimp only at consumed
  cases minus : consumeChar (strLeftTrim text) (code '-') with
  | some str =>
    rw [minus] at consumed
    obtain rfl : negate = true := by
      obtain ⟨taken, _, same⟩ := Option.map_eq_some_iff.mp consumed
      exact (Prod.mk.inj same).1.symm
    obtain ⟨number, numeral, rfl⟩ := found str consumed
    rw [consumeChar_eq_some_iff (by decide)] at minus
    exact ⟨lead, [code '-'], number, blank, .minus, numeral, by rw [split, minus]; rfl⟩
  | none =>
    rw [minus] at consumed
    obtain rfl : negate = false := by
      obtain ⟨taken, _, same⟩ := Option.map_eq_some_iff.mp consumed
      exact (Prod.mk.inj same).1.symm
    obtain ⟨number, numeral, same⟩ := found _ consumed
    cases plus : consumeChar (strLeftTrim text) (code '+') with
    | some str =>
      rw [plus, Option.getD_some] at same
      rw [consumeChar_eq_some_iff (by decide)] at plus
      exact ⟨lead, [code '+'], number, blank, .plus, numeral, by rw [split, plus, same]; rfl⟩
    | none =>
      rw [plus, Option.getD_none] at same
      exact ⟨lead, [], number, blank, .none, numeral, by rw [split, same]; rfl⟩

/-! ## Texts -/

theorem Numeral.all (numeral : Numeral radix number digits) : AllDigits radix digits := by
  cases numeral <;> assumption

theorem Numeral.two_le (numeral : Numeral radix number digits) : 2 ≤ radix := by
  cases numeral <;> decide

theorem stops_of_isSpace : ∀ {c : Byte}, isSpace c = true →
    isHex c = false ∧ c ≠ code 'o' ∧ c ≠ code 'x' := by
  decide

theorem stops_of_blank {trail : List Byte} (blank : Blank trail) : Stops trail :=
  fun c first => stops_of_isSpace (blank c (mem_of_mem_head? first))

/-- The digits are the longest run of digits of any radix. -/
theorem takeWhile_digits {digits rest : List Byte} (all : AllDigits radix digits)
    (stops : ∀ c ∈ rest.head?, isHex c = false) : (digits ++ rest).takeWhile isHex = digits := by
  rw [takeWhile_append_of_pos fun c listed => isHex_of_isDigit (all c listed)]
  cases rest with
  | nil => exact append_nil _
  | cons c rest =>
    rw [takeWhile_cons_of_neg (by rw [stops c rfl]; exact Bool.false_ne_true), append_nil]

/-- A text is one number at most. -/
theorem Reads.unique {text digits digits' : List Byte} {negate negate' : Bool} {radix radix' : Nat}
    (reads : Reads text negate radix digits) (reads' : Reads text negate' radix' digits') :
    negate = negate' ∧ radix = radix' ∧ digits = digits' := by
  obtain ⟨lead, sign, number, trail, written⟩ := reads
  obtain ⟨lead', sign', number', trail', written'⟩ := reads'
  have stops := stops_of_blank written.trail
  have stops' := stops_of_blank written'.trail
  have head := consumeHead_append written.lead written.sign written.number stops
  rw [← written.text, written'.text,
    consumeHead_append written'.lead written'.sign written'.number stops'] at head
  obtain ⟨rfl, others⟩ := Prod.mk.inj (Option.some.inj head)
  obtain ⟨rfl, same⟩ := Prod.mk.inj others
  refine ⟨rfl, rfl, ?_⟩
  have run := congrArg (takeWhile isHex) same
  rw [takeWhile_digits written'.number.all fun c first => (stops' c first).1,
    takeWhile_digits written.number.all fun c first => (stops c first).1] at run
  exact run.symm

theorem intParseLazy_of_written {lead sign number digits rest : List Byte} (blank : Blank lead)
    (signs : Sign negate sign) (numeral : Numeral radix number digits) (stops : Stops rest)
    (rising : NeverDrops radix 0 digits) :
    intParseLazy (lead ++ (sign ++ (number ++ rest))) =
      .ok ⟨BitVec.ofNat 64 (valueOf radix digits), negate, rest⟩ := by
  rw [intParseLazy, consumeHead_append blank signs numeral stops]
  dsimp only
  rw [show (0 : BitVec 64) = BitVec.ofNat 64 0 from rfl,
    parseDigits_append numeral.all (fun c first => (stops c first).1) rising]
  rfl

variable {text : List Byte}

/-- The parser takes the number at the start of the text unless its value gets smaller. -/
theorem intParseLazy_eq_ok {parsed : LazyInt} (found : intParseLazy text = .ok parsed) :
    ∃ lead sign number radix digits, Blank lead ∧ Sign parsed.negate sign ∧
      Numeral radix number digits ∧ text = lead ++ (sign ++ (number ++ parsed.rest)) ∧
      NeverDrops radix 0 digits ∧ parsed.value = BitVec.ofNat 64 (valueOf radix digits) := by
  unfold intParseLazy at found
  cases head : consumeHead text with
  | none =>
    rw [head] at found
    cases found
  | some taken =>
    obtain ⟨negate, radix, str⟩ := taken
    rw [head] at found
    dsimp only at found
    cases run : parseDigits radix 0 str with
    | error code =>
      rw [run] at found
      cases found
    | ok result =>
      rw [run] at found
      obtain rfl := Except.ok.inj found
      obtain ⟨digits, rfl, all, stops⟩ := digits_of_parseDigits run
      obtain ⟨lead, sign, number, blank, signs, numeral, same⟩ :=
        number_of_consumeHead head all stops
      have rising : NeverDrops radix 0 digits := by
        by_contra drops
        have failed := parseDigits_of_drop all drops result.2
        rw [← show (0 : BitVec 64) = BitVec.ofNat 64 0 from rfl, run] at failed
        cases failed
      have value := parseDigits_append all stops rising
      rw [← show (0 : BitVec 64) = BitVec.ofNat 64 0 from rfl, run] at value
      exact ⟨lead, sign, number, radix, digits, blank, signs, numeral, same, rising,
        congrArg Prod.fst (Except.ok.inj value)⟩

theorem intParse_eq_ok_iff (noNul : 0 ∉ text) (value : BitVec 64) (negate : Bool) :
    intParse text = .ok (value, negate) ↔ ∃ radix digits, Reads text negate radix digits ∧
      NeverDrops radix 0 digits ∧ value = BitVec.ofNat 64 (valueOf radix digits) := by
  constructor
  · intro parsed
    unfold intParse at parsed
    cases found : intParseLazy text with
    | error code =>
      rw [found] at parsed
      cases parsed
    | ok lazy =>
      rw [found] at parsed
      dsimp only [bind, Except.bind] at parsed
      split at parsed
      · cases parsed
      · rename_i ended
        obtain ⟨rfl, rfl⟩ := Prod.mk.inj (Except.ok.inj parsed)
        obtain ⟨lead, sign, number, radix, digits, blank, signs, numeral, same, rising, equal⟩ :=
          intParseLazy_eq_ok found
        refine ⟨radix, digits, ⟨lead, sign, number, lazy.rest, same, blank, signs, numeral, ?_⟩,
          rising, equal⟩
        rw [not_not, firstOf_eq_zero_iff, strLeftTrim_eq_nil_iff] at ended
        · exact ended
        · intro nul
          refine noNul ?_
          rw [same]
          obtain ⟨before, _, split⟩ := exists_blank_append lazy.rest
          rw [split]
          simp only [mem_append]
          exact .inr (.inr (.inr (.inr nul)))
  · rintro ⟨radix, digits, ⟨lead, sign, number, trail, written⟩, rising, rfl⟩
    have found := intParseLazy_of_written written.lead written.sign written.number
      (stops_of_blank written.trail) rising
    rw [← written.text] at found
    unfold intParse
    rw [found]
    dsimp only [bind, Except.bind]
    rw [(strLeftTrim_eq_nil_iff trail).mpr written.trail]
    rfl

/-! ## Values -/

theorem le_valueFrom (positive : 1 ≤ radix) (value : Nat) (digits : List Byte) :
    value ≤ valueFrom radix value digits := by
  induction digits generalizing value with
  | nil => exact Nat.le_refl value
  | cons c digits ih =>
    calc value ≤ value * radix + digitOf c :=
          Nat.le_add_right_of_le (Nat.le_mul_of_pos_right value positive)
      _ ≤ valueFrom radix value (c :: digits) := ih _

/-- A value that fits never gets smaller on the way. -/
theorem neverDrops_of_lt (positive : 1 ≤ radix) {value : Nat} {digits : List Byte}
    (fits : valueFrom radix value digits < 2 ^ 64) : NeverDrops radix value digits := by
  induction digits generalizing value with
  | nil => trivial
  | cons c digits ih =>
    have next := Nat.lt_of_le_of_lt (le_valueFrom positive _ digits) fits
    have rises : value ≤ value * radix + digitOf c :=
      Nat.le_add_right_of_le (Nat.le_mul_of_pos_right value positive)
    refine ⟨?_, ih fits⟩
    rw [Nat.mod_eq_of_lt next, Nat.mod_eq_of_lt (Nat.lt_of_le_of_lt rises next)]
    exact rises

theorem Reads.two_le {text digits : List Byte} (reads : Reads text negate radix digits)
    : 2 ≤ radix := by
  obtain ⟨lead, sign, number, trail, written⟩ := reads
  exact written.number.two_le

@[simp]
theorem signed_false (value : Nat) : signed false value = value :=
  rfl

@[simp]
theorem signed_true (value : Nat) : signed true value = -value :=
  rfl

theorem signed_inj {first second : Nat} (same : signed negate first = signed negate second)
    : first = second := by
  cases negate with
  | false => exact Int.ofNat.inj same
  | true => exact Int.ofNat.inj (Int.neg_inj.mp same)

theorem lt_of_signed {value : Nat} {low high : Int} (above : -2 ^ 64 < low) (below : high < 2 ^ 64)
    (atLeast : low ≤ signed negate value) (atMost : signed negate value ≤ high)
    : value < 2 ^ 64 := by
  cases negate with
  | false =>
    rw [signed_false] at atMost
    omega
  | true =>
    rw [signed_true] at atLeast
    omega

/-! ## The parsers of the integer types -/

/-- What a parser does: it takes the value cut to 64 bits where no digit made it smaller. -/
def Accepts (minus : Bool) (low high : Int) (text : List Byte) (result : Except QdfError Int) :
    Prop :=
  ∀ integer, result = .ok integer ↔ ∃ negate radix digits, Reads text negate radix digits ∧
    NeverDrops radix 0 digits ∧ (negate = true → minus = true) ∧
    integer = signed negate (valueOf radix digits % 2 ^ 64) ∧ low ≤ integer ∧ integer ≤ high

theorem Accepts.exact_iff {minus : Bool} {low high : Int} {result : Except QdfError Int}
    (accepts : Accepts minus low high text result) (above : -2 ^ 64 < low) (below : high < 2 ^ 64) :
    Exact minus low high text result ↔ ¬Overlooked minus low high text := by
  constructor
  · rintro exact ⟨negate, radix, digits, reads, allowed, large, rising, atLeast, atMost⟩
    have taken := (accepts _).mpr
      ⟨negate, radix, digits, reads, rising, allowed, rfl, atLeast, atMost⟩
    obtain ⟨⟨negate', radix', digits', reads', _, same⟩, _, _⟩ := (exact _).mp taken
    obtain ⟨rfl, rfl, rfl⟩ := reads.unique reads'
    have cut := signed_inj same
    omega
  · intro noticed integer
    rw [accepts integer]
    constructor
    · rintro ⟨negate, radix, digits, reads, rising, allowed, rfl, atLeast, atMost⟩
      have fits : valueOf radix digits < 2 ^ 64 := by
        by_contra large
        exact noticed ⟨negate, radix, digits, reads, allowed, Nat.le_of_not_lt large, rising,
          atLeast, atMost⟩
      rw [Nat.mod_eq_of_lt fits] at atLeast atMost ⊢
      exact ⟨⟨negate, radix, digits, reads, allowed, rfl⟩, atLeast, atMost⟩
    · rintro ⟨⟨negate, radix, digits, reads, allowed, rfl⟩, atLeast, atMost⟩
      have fits := lt_of_signed above below atLeast atMost
      refine ⟨negate, radix, digits, reads, ?_, allowed, ?_, atLeast, atMost⟩
      · exact neverDrops_of_lt (Nat.le_of_succ_le reads.two_le) fits
      · rw [Nat.mod_eq_of_lt fits]

/-- A parser that finishes the common one with a look at the range of its type. -/
theorem accepts_bind {minus : Bool} {low high : Int} {text : CString}
    {finish : BitVec 64 × Bool → Except QdfError Int}
    (finishes : ∀ value negate integer, finish (value, negate) = .ok integer ↔
      (negate = true → minus = true) ∧ integer = signed negate value.toNat ∧
        low ≤ integer ∧ integer ≤ high) :
    Accepts minus low high text.chars (intParse text.chars >>= finish) := by
  intro integer
  constructor
  · intro taken
    cases found : intParse text.chars with
    | error code =>
      rw [found] at taken
      cases taken
    | ok pair =>
      obtain ⟨value, negate⟩ := pair
      rw [found] at taken
      obtain ⟨allowed, same, bounds⟩ := (finishes value negate integer).mp taken
      obtain ⟨radix, digits, reads, rising, rfl⟩ :=
        (intParse_eq_ok_iff text.noNul value negate).mp found
      exact ⟨negate, radix, digits, reads, rising, allowed, same, bounds⟩
  · rintro ⟨negate, radix, digits, reads, rising, allowed, same, bounds⟩
    have found := (intParse_eq_ok_iff text.noNul _ negate).mpr ⟨radix, digits, reads, rising, rfl⟩
    rw [found]
    refine (finishes _ negate integer).mpr ⟨allowed, ?_, bounds⟩
    exact same

theorem accepts_uint64Parse (text : CString) :
    Accepts false 0 (2 ^ 64 - 1) text.chars
      ((uint64Parse text.chars).map fun value => (value.toNat : Int)) := by
  have same : (uint64Parse text.chars).map (fun value => (value.toNat : Int)) =
      intParse text.chars >>= fun found =>
        if found.2 then .error .range else .ok (found.1.toNat : Int) := by
    unfold uint64Parse
    cases intParse text.chars with
    | error code => rfl
    | ok found =>
      obtain ⟨value, negate⟩ := found
      cases negate <;> rfl
  rw [same]
  refine accepts_bind fun value negate integer => ?_
  cases negate with
  | true => exact iff_of_false nofun fun both => Bool.false_ne_true (both.1 rfl)
  | false =>
    rw [if_neg Bool.false_ne_true, Except.ok.injEq]
    constructor
    · rintro rfl
      exact ⟨nofun, rfl, by omega, by omega⟩
    · rintro ⟨_, rfl, _⟩
      rfl

theorem setWidth_setWidth_iff {w : Nat} (short : w ≤ 64) (value : BitVec 64) :
    (value.setWidth w).setWidth 64 = value ↔ value.toNat < 2 ^ w := by
  have power : 2 ^ w ≤ 2 ^ 64 := Nat.pow_le_pow_right Nat.two_pos short
  rw [← toNat_inj, toNat_setWidth, toNat_setWidth]
  constructor
  · intro same
    have cut := Nat.mod_lt value.toNat (Nat.two_pow_pos w)
    rw [Nat.mod_eq_of_lt (Nat.lt_of_lt_of_le cut power)] at same
    rwa [same] at cut
  · intro fits
    rw [Nat.mod_eq_of_lt fits, Nat.mod_eq_of_lt value.isLt]

theorem accepts_uintParse {w : Nat} (short : w ≤ 64) (text : CString) :
    Accepts false 0 (2 ^ w - 1) text.chars
      ((uintParse w text.chars).map fun value => (value.toNat : Int)) := by
  have same : (uintParse w text.chars).map (fun value => (value.toNat : Int)) =
      intParse text.chars >>= fun found =>
        if found.2 then .error .range
        else if (found.1.setWidth w).setWidth 64 ≠ found.1 then .error .range
        else .ok ((found.1.setWidth w).toNat : Int) := by
    unfold uintParse uint64Parse
    cases intParse text.chars with
    | error code => rfl
    | ok found =>
      obtain ⟨value, negate⟩ := found
      cases negate with
      | true => rfl
      | false =>
        dsimp only [bind, Except.bind, pure, Except.pure]
        rw [if_neg Bool.false_ne_true]
        dsimp only
        split <;> rfl
  rw [same]
  refine accepts_bind fun value negate integer => ?_
  cases negate with
  | true => exact iff_of_false nofun fun both => Bool.false_ne_true (both.1 rfl)
  | false =>
    have bound : ((2 ^ w : Nat) : Int) = 2 ^ w := Int.natCast_pow 2 w
    rw [if_neg Bool.false_ne_true, signed_false]
    by_cases fits : value.toNat < 2 ^ w
    · have kept : (value.setWidth w).toNat = value.toNat := by
        rw [toNat_setWidth, Nat.mod_eq_of_lt fits]
      rw [if_neg (not_not.mpr ((setWidth_setWidth_iff short value).mpr fits)), kept,
        Except.ok.injEq]
      constructor
      · rintro rfl
        exact ⟨nofun, rfl, by omega, by omega⟩
      · rintro ⟨_, rfl, _⟩
        rfl
    · rw [if_pos fun kept => fits ((setWidth_setWidth_iff short value).mp kept)]
      refine iff_of_false nofun ?_
      omega

variable {value : BitVec 64}

theorem toInt_neg_of_le (fits : value.toNat ≤ 2 ^ 63) : (-value).toInt = -(value.toNat : Int) := by
  have negated := toNat_neg value
  rw [toInt_eq_toNat_cond]
  split <;> omega

theorem toInt_neg_pos (large : 2 ^ 63 < value.toNat) : 0 < (-value).toInt := by
  have negated := toNat_neg value
  rw [toInt_eq_toNat_cond]
  split <;> omega

theorem toInt_of_lt (fits : value.toNat < 2 ^ 63) : value.toInt = value.toNat := by
  rw [toInt_eq_toNat_cond]
  split <;> omega

theorem toInt_neg_of_ge (large : 2 ^ 63 ≤ value.toNat) : value.toInt < 0 := by
  rw [toInt_eq_toNat_cond]
  split <;> omega

/-- What `qdf_int64_parse` does with the value and the sign. -/
def finishInt64 (found : BitVec 64 × Bool) : Except QdfError (BitVec 64) :=
  if found.2 then
    if BitVec.slt 0 (-found.1) then .error .range else .ok (-found.1)
  else if BitVec.slt found.1 0 then .error .range else .ok found.1

theorem int64Parse_eq (text : List Byte) : int64Parse text = intParse text >>= finishInt64 := by
  unfold int64Parse
  cases intParse text with
  | error code => rfl
  | ok found =>
    obtain ⟨value, negate⟩ := found
    dsimp only [bind, Except.bind, finishInt64]
    cases negate with
    | true =>
      split <;> rfl
    | false =>
      split <;> rfl

variable (value : BitVec 64)

theorem slt_zero_right : BitVec.slt value 0 = true ↔ value.toInt < 0 :=
  decide_eq_true_iff

theorem slt_zero_left : BitVec.slt 0 value = true ↔ 0 < value.toInt :=
  decide_eq_true_iff

/-- It succeeds for the integers of 64 bits. -/
theorem finishInt64_eq_ok_iff (value result : BitVec 64) (negate : Bool) :
    finishInt64 (value, negate) = .ok result ↔ result.toInt = signed negate value.toNat := by
  have lower := le_toInt result
  have upper := toInt_lt (x := result)
  unfold finishInt64
  dsimp only
  cases negate with
  | true =>
    rw [if_pos rfl, signed_true]
    by_cases fits : value.toNat ≤ 2 ^ 63
    · have read := toInt_neg_of_le fits
      rw [if_neg (by rw [slt_zero_left]; omega), Except.ok.injEq, ← read]
      exact ⟨fun same => congrArg _ same.symm, fun same => (eq_of_toInt_eq same).symm⟩
    · have positive := toInt_neg_pos (Nat.lt_of_not_le fits)
      rw [if_pos ((slt_zero_left _).mpr positive)]
      refine iff_of_false nofun ?_
      omega
  | false =>
    rw [if_neg Bool.false_ne_true, signed_false]
    by_cases fits : value.toNat < 2 ^ 63
    · have read := toInt_of_lt fits
      rw [if_neg (by rw [slt_zero_right]; omega), Except.ok.injEq, ← read]
      exact ⟨fun same => congrArg _ same.symm, fun same => (eq_of_toInt_eq same).symm⟩
    · have negative := toInt_neg_of_ge (Nat.le_of_not_lt fits)
      rw [if_pos ((slt_zero_right _).mpr negative)]
      refine iff_of_false nofun ?_
      omega

theorem map_eq_ok_iff {α β : Type} {f : α → β} {result : Except QdfError α} {b : β} :
    result.map f = .ok b ↔ ∃ a, result = .ok a ∧ f a = b := by
  cases result with
  | error code => exact iff_of_false nofun fun ⟨_, impossible, _⟩ => nomatch impossible
  | ok a =>
    constructor
    · intro same
      exact ⟨a, rfl, Except.ok.inj same⟩
    · rintro ⟨_, same, rfl⟩
      rw [← Except.ok.inj same]
      rfl

theorem map_bind_eq {α β γ : Type} (result : Except QdfError α) (next : α → Except QdfError β)
    (f : β → γ) : (result >>= next).map f = result >>= fun a => (next a).map f := by
  cases result <;> rfl

theorem accepts_int64Parse (text : CString) :
    Accepts true (-2 ^ 63) (2 ^ 63 - 1) text.chars ((int64Parse text.chars).map BitVec.toInt) := by
  rw [int64Parse_eq, map_bind_eq]
  refine accepts_bind fun value negate integer => ?_
  rw [map_eq_ok_iff]
  constructor
  · rintro ⟨result, finished, rfl⟩
    have lower := le_toInt result
    have upper := toInt_lt (x := result)
    exact ⟨fun _ => rfl, (finishInt64_eq_ok_iff value result negate).mp finished, by omega, by omega⟩
  · rintro ⟨_, same, atLeast, atMost⟩
    have read : (BitVec.ofInt 64 integer).toInt = integer :=
      toInt_ofInt_eq_self (by decide) atLeast (by omega)
    exact ⟨_, (finishInt64_eq_ok_iff value _ negate).mpr (read.trans same), read⟩

/-- A value of 64 bits survives the conversion to 32 bits exactly when it is small. -/
theorem signExtend_setWidth_iff :
    (value.setWidth 32).signExtend 64 = value ↔
      -2 ^ 31 ≤ value.toInt ∧ value.toInt ≤ 2 ^ 31 - 1 := by
  have extended : ((value.setWidth 32).signExtend 64).toInt = (value.setWidth 32).toInt :=
    toInt_signExtend_of_le (by decide)
  constructor
  · intro same
    have lower := le_toInt (value.setWidth 32)
    have upper := toInt_lt (x := value.setWidth 32)
    rw [← extended, same] at lower upper
    exact ⟨lower, by omega⟩
  · rintro ⟨lower, upper⟩
    apply eq_of_toInt_eq
    rw [extended, toInt_setWidth, Int.bmod_def]
    rw [toInt_eq_toNat_cond] at lower upper ⊢
    split at lower <;> split <;> omega

/-- What `qdf_int32_parse` does with a value of 64 bits. -/
def finishInt32 (value : BitVec 64) : Except QdfError (BitVec 32) :=
  if (value.setWidth 32).signExtend 64 ≠ value then .error .range else .ok (value.setWidth 32)

theorem int32Parse_eq (text : List Byte) :
    int32Parse text = intParse text >>= fun found => finishInt64 found >>= finishInt32 := by
  unfold int32Parse
  rw [int64Parse_eq, bind_assoc]
  rfl

theorem map_finishInt32_eq_ok_iff (integer : Int) :
    (finishInt32 value).map BitVec.toInt = .ok integer ↔
      integer = value.toInt ∧ -2 ^ 31 ≤ integer ∧ integer ≤ 2 ^ 31 - 1 := by
  unfold finishInt32
  by_cases kept : (value.setWidth 32).signExtend 64 = value
  · have read : (value.setWidth 32).toInt = value.toInt := by
      have extended : ((value.setWidth 32).signExtend 64).toInt = (value.setWidth 32).toInt :=
        toInt_signExtend_of_le (by decide)
      rw [← extended, kept]
    rw [if_neg (not_not.mpr kept), map_eq_ok_iff]
    constructor
    · rintro ⟨_, same, rfl⟩
      rw [← Except.ok.inj same, read]
      exact ⟨rfl, (signExtend_setWidth_iff value).mp kept⟩
    · rintro ⟨rfl, _⟩
      exact ⟨_, rfl, read⟩
  · rw [if_pos kept]
    refine iff_of_false nofun ?_
    rintro ⟨rfl, bounds⟩
    exact kept ((signExtend_setWidth_iff value).mpr bounds)

theorem accepts_int32Parse (text : CString) :
    Accepts true (-2 ^ 31) (2 ^ 31 - 1) text.chars ((int32Parse text.chars).map BitVec.toInt) := by
  rw [int32Parse_eq, map_bind_eq]
  refine accepts_bind fun value negate integer => ?_
  constructor
  · intro taken
    cases finished : finishInt64 (value, negate) with
    | error code =>
      rw [finished] at taken
      cases taken
    | ok result =>
      rw [finished] at taken
      obtain ⟨rfl, bounds⟩ := (map_finishInt32_eq_ok_iff result integer).mp taken
      exact ⟨fun _ => rfl, (finishInt64_eq_ok_iff value result negate).mp finished, bounds⟩
  · rintro ⟨_, same, atLeast, atMost⟩
    have read : (BitVec.ofInt 64 integer).toInt = integer :=
      toInt_ofInt_eq_self (by decide) (by omega) (by omega)
    rw [(finishInt64_eq_ok_iff value _ negate).mpr (read.trans same)]
    exact (map_finishInt32_eq_ok_iff _ integer).mpr ⟨read.symm, atLeast, atMost⟩

/-! ## All parsers -/

/-- Each parser is exact on a text exactly if it does not overlook that the number needs more
than 64 bits. -/
theorem parse_exact_iff (text : CString) :
    (Exact false 0 (2 ^ 64 - 1) text.chars
        ((uint64Parse text.chars).map fun value => (value.toNat : Int)) ↔
      ¬Overlooked false 0 (2 ^ 64 - 1) text.chars) ∧
    (Exact false 0 (2 ^ 32 - 1) text.chars
        ((uint32Parse text.chars).map fun value => (value.toNat : Int)) ↔
      ¬Overlooked false 0 (2 ^ 32 - 1) text.chars) ∧
    (Exact false 0 (2 ^ 16 - 1) text.chars
        ((uint16Parse text.chars).map fun value => (value.toNat : Int)) ↔
      ¬Overlooked false 0 (2 ^ 16 - 1) text.chars) ∧
    (Exact false 0 (2 ^ 8 - 1) text.chars
        ((uint8Parse text.chars).map fun value => (value.toNat : Int)) ↔
      ¬Overlooked false 0 (2 ^ 8 - 1) text.chars) ∧
    (Exact true (-2 ^ 63) (2 ^ 63 - 1) text.chars ((int64Parse text.chars).map BitVec.toInt) ↔
      ¬Overlooked true (-2 ^ 63) (2 ^ 63 - 1) text.chars) ∧
    (Exact true (-2 ^ 31) (2 ^ 31 - 1) text.chars ((int32Parse text.chars).map BitVec.toInt) ↔
      ¬Overlooked true (-2 ^ 31) (2 ^ 31 - 1) text.chars) :=
  ⟨(accepts_uint64Parse text).exact_iff (by decide) (by decide),
    (accepts_uintParse (by decide) text).exact_iff (by decide) (by decide),
    (accepts_uintParse (by decide) text).exact_iff (by decide) (by decide),
    (accepts_uintParse (by decide) text).exact_iff (by decide) (by decide),
    (accepts_int64Parse text).exact_iff (by decide) (by decide),
    (accepts_int32Parse text).exact_iff (by decide) (by decide)⟩

/-- The text `0x123456789abcdef01`. -/
def seventeenDigits : CString where
  chars := ['0', 'x', '1', '2', '3', '4', '5', '6', '7', '8', '9', 'a', 'b', 'c', 'd', 'e', 'f',
    '0', '1'].map code
  noNul := by decide

/-- A digit too many turns it into `0x23456789abcdef01`, which is larger than before. -/
theorem not_exact_seventeenDigits :
    ¬Exact false 0 (2 ^ 64 - 1) seventeenDigits.chars
      ((uint64Parse seventeenDigits.chars).map fun value => (value.toNat : Int)) := by
  intro exact
  have taken : (uint64Parse seventeenDigits.chars).map (fun value => (value.toNat : Int)) =
      .ok 0x23456789abcdef01 := by decide
  have reads : Reads seventeenDigits.chars false 16 (seventeenDigits.chars.drop 2) :=
    ⟨[], [], seventeenDigits.chars, [],
      { text := (append_nil _).symm
        lead := fun _ listed => nomatch listed
        sign := .none
        number := .hex (by unfold AllDigits; decide)
        trail := fun _ listed => nomatch listed }⟩
  obtain ⟨⟨negate, radix, digits, reads', _, same⟩, _⟩ := (exact _).mp taken
  obtain ⟨rfl, rfl, rfl⟩ := reads.unique reads'
  exact absurd same (by decide)

end Sm8650.Qdf
