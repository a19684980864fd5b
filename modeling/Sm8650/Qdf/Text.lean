import Mathlib.Data.List.TakeWhile
import Sm8650.Data.Words

/-!
# Strings and the functions that consume them

A string is the list of its bytes before the terminating NUL. A function that consumes a part
of a string returns what is left.

Source: `qdf_types.c` and `qdf_str.h`.
-/

namespace Sm8650.Qdf

open Data.Words

/-- The error statuses of the parsers. -/
inductive QdfError
  | failure
  | range
deriving DecidableEq

/-- The byte of a character. -/
def code (c : Char) : Byte := BitVec.ofNat 8 c.toNat

/-- A string with the bytes before its terminating NUL. -/
structure CString where
  chars : List Byte
  noNul : 0 ∉ chars

/-- The first byte of a string, which is the NUL of an empty one. -/
def firstOf (str : List Byte) : Byte := str.headD 0

theorem firstOf_eq_zero_iff {str : List Byte} (noNul : 0 ∉ str) : firstOf str = 0 ↔ str = [] := by
  cases str with
  | nil => exact iff_of_true rfl rfl
  | cons c str =>
    refine iff_of_false (fun zero => noNul ?_) (List.cons_ne_nil c str)
    exact zero ▸ List.mem_cons_self

/-- `qdf_is_space`, the `isspace` of the kernel. -/
def isSpace (c : Byte) : Bool :=
  (decide (9 ≤ c) && decide (c ≤ 13)) || c == 32 || c == 160

/-- `qdf_str_left_trim`. -/
def strLeftTrim (str : List Byte) : List Byte := str.dropWhile isSpace

/-- `qdf_consume_char`. -/
def consumeChar (str : List Byte) (c : Byte) : Option (List Byte) :=
  if firstOf str = c then some str.tail else none

/-- The digit that `qdf_consume_hex` makes of a byte. -/
def hexDigit (c : Byte) : Option Nat :=
  if code '0' ≤ c ∧ c ≤ code '9' then some (c - code '0').toNat
  else if code 'a' ≤ c ∧ c ≤ code 'f' then some (c - code 'a' + 10).toNat
  else if code 'A' ≤ c ∧ c ≤ code 'F' then some (c - code 'A' + 10).toNat
  else none

/-- The byte is a digit of some radix. -/
def isHex (c : Byte) : Bool := (hexDigit c).isSome

/-- `qdf_consume_hex`. -/
def consumeHex : List Byte → Option (Nat × List Byte)
  | [] => none
  | c :: str => (hexDigit c).map fun digit => (digit, str)

/-! ## White space -/

/-- The bytes are white space. -/
def Blank (str : List Byte) : Prop := ∀ c ∈ str, isSpace c = true

theorem strLeftTrim_eq_nil_iff (str : List Byte) : strLeftTrim str = [] ↔ Blank str :=
  List.dropWhile_eq_nil_iff

theorem strLeftTrim_append {lead str : List Byte} (blank : Blank lead)
    (stops : ∀ c ∈ str.head?, isSpace c = false) : strLeftTrim (lead ++ str) = str := by
  unfold strLeftTrim
  rw [List.dropWhile_append_of_pos blank]
  cases str with
  | nil => rfl
  | cons c str => exact List.dropWhile_cons_of_neg (by rw [stops c rfl]; exact Bool.false_ne_true)

/-- A string is white space followed by what the trimming leaves. -/
theorem exists_blank_append (str : List Byte) : ∃ lead, Blank lead ∧ str = lead ++ strLeftTrim str :=
  ⟨str.takeWhile isSpace, fun _ listed => List.mem_takeWhile_imp listed,
    List.takeWhile_append_dropWhile.symm⟩

/-! ## Digits -/

/-- The byte is a digit of the radix. -/
def isDigit (radix : Nat) (c : Byte) : Bool := (hexDigit c).any fun digit => digit < radix

/-- The value of a digit. -/
def digitOf (c : Byte) : Nat := (hexDigit c).getD 0

theorem isHex_of_isSpace : ∀ {c : Byte}, isSpace c = true → isHex c = false := by
  decide

theorem isDigit_decimal : ∀ c : Byte, isDigit 10 c = decide (code '0' ≤ c ∧ c ≤ code '9') := by
  decide

variable {c : Byte}

theorem hexDigit_of_isHex (hex : isHex c = true) : hexDigit c = some (digitOf c) := by
  obtain ⟨digit, found⟩ := Option.isSome_iff_exists.mp hex
  rw [digitOf, found, Option.getD_some]

theorem isHex_of_isDigit {radix : Nat} (digit : isDigit radix c = true) : isHex c = true := by
  unfold isHex
  cases found : hexDigit c with
  | none =>
    rw [isDigit, found] at digit
    cases digit
  | some _ => rfl

theorem isDigit_iff {radix : Nat} (hex : isHex c = true) :
    isDigit radix c = true ↔ digitOf c < radix := by
  rw [isDigit, hexDigit_of_isHex hex, Option.any_some, decide_eq_true_iff]

/-! ## Single bytes -/

theorem consumeChar_eq_some_iff {str rest : List Byte} (notNul : c ≠ 0) :
    consumeChar str c = some rest ↔ str = c :: rest := by
  cases str with
  | nil =>
    have other : firstOf [] ≠ c := Ne.symm notNul
    rw [consumeChar, if_neg other]
    exact iff_of_false nofun nofun
  | cons head str =>
    unfold consumeChar firstOf
    rw [List.headD_cons, List.cons.injEq]
    by_cases same : head = c
    · rw [if_pos same, Option.some.injEq]
      exact (and_iff_right same).symm
    · rw [if_neg same]
      exact iff_of_false nofun fun both => same both.1

theorem consumeChar_eq_none_iff {str : List Byte} : consumeChar str c = none ↔ firstOf str ≠ c := by
  unfold consumeChar
  by_cases same : firstOf str = c
  · rw [if_pos same]
    exact iff_of_false nofun fun other => other same
  · rw [if_neg same]
    exact iff_of_true rfl same

end Sm8650.Qdf
