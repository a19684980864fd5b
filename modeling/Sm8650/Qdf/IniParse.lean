import Mathlib.Data.List.DropRight
import Sm8650.Qdf.Text

/-!
# Configuration files

A file is read line by line. The reader writes a NUL over each line end, over the first value
indicator and over each comment indicator, and hands out pointers into the line; it has one
status for the end of the file and for a line that is none of the three forms.

The line under the cursor is the list of its bytes as they are rewritten, and a pointer into it
is an offset. The NUL behind the file is the end of the list. The callback is arbitrary, with
the context that it reads and writes.

Source: `qdf_parse.c`, without `WLAN_USE_CONFIG_PARAMS`.
-/

namespace Sm8650.Qdf.Ini

open Data.Words List

/-! ## The code -/

/-- The line under the cursor, from its first byte to the cursor. -/
structure Line where
  bytes : List Byte
  value : Option Nat
  comment : Bool

/-- The cursor moves over a byte and leaves another one there. -/
def Line.write (line : Line) (c : Byte) : Line := { line with bytes := line.bytes ++ [c] }

/-- The scan of `qdf_ini_read_values` to the end of the line. -/
def scanLine (line : Line) : List Byte → Line × List Byte
  | [] => (line, [])
  | c :: cursor =>
    if c = code '\r' ∨ c = code '\n' then (line.write 0, cursor)
    else if c = 0 then (line, c :: cursor)
    else if c = code '=' then
      if line.value = none ∧ line.comment = false then
        scanLine { line.write 0 with value := some (line.bytes.length + 1) } cursor
      else scanLine (line.write c) cursor
    else if c = code '#' then scanLine { line.write 0 with comment := true } cursor
    else scanLine (line.write c) cursor

/-- The string at an offset of a line. -/
def stringAt (bytes : List Byte) (offset : Nat) : List Byte :=
  (bytes.drop offset).takeWhile fun c => c != 0

/-- `qdf_str_trim`. -/
def strTrim (str : List Byte) : List Byte := strLeftTrim (str.rdropWhile isSpace)

/-- What `qdf_ini_read_values` hands out. -/
inductive Read
  | item (key value : List Byte)
  | section (name : List Byte)
deriving DecidableEq

/-- The line ends that `qdf_ini_read_values` skips behind a blank line. -/
def skipEol (cursor : List Byte) : List Byte :=
  cursor.dropWhile fun c => c == code '\n' || c == code '\r'

variable (cursor : List Byte)

theorem skipEol_length : (skipEol cursor).length ≤ cursor.length :=
  (dropWhile_sublist _).length_le

theorem scanLine_length (line : Line) (cursor : List Byte) :
    (scanLine line cursor).2.length ≤ cursor.length := by
  induction cursor generalizing line with
  | nil => exact Nat.le_refl 0
  | cons c cursor ih =>
    rw [scanLine]
    split
    · exact Nat.le_succ _
    · split
      · exact Nat.le_refl _
      · split
        · split
          · exact Nat.le_succ_of_le (ih _)
          · exact Nat.le_succ_of_le (ih _)
        · split
          · exact Nat.le_succ_of_le (ih _)
          · exact Nat.le_succ_of_le (ih _)

/-- A scan that does not begin at a NUL moves the cursor. -/
theorem scanLine_length_lt (line : Line) {cursor : List Byte} (more : firstOf cursor ≠ 0) :
    (scanLine line cursor).2.length < cursor.length := by
  cases cursor with
  | nil => exact absurd rfl more
  | cons c cursor =>
    have behind := fun line => Nat.lt_succ_of_le (scanLine_length line cursor)
    rw [scanLine]
    split
    · exact Nat.lt_succ_self _
    · have notNul : ¬c = 0 := more
      rw [if_neg notNul]
      split
      · split
        · exact behind _
        · exact behind _
      · split
        · exact behind _
        · exact behind _

/-- The line that `qdf_ini_read_values` scans, and the cursor behind it. -/
def scan (cursor : List Byte) : Line × List Byte :=
  scanLine { bytes := [], value := none, comment := false } cursor

/-- `qdf_ini_read_values`; `none` is its `QDF_STATUS_E_INVAL`. -/
def readValues (cursor : List Byte) : Option (Read × List Byte) :=
  if _more : firstOf cursor = 0 then none
  else
    let line := (scan cursor).1
    let rest := (scan cursor).2
    let key := strTrim (stringAt line.bytes 0)
    match line.value with
    | some value => some (.item key (stringAt line.bytes value), rest)
    | none =>
      if firstOf key = code '[' then
        if key.getLastD 0 ≠ code ']' then none else some (.section key.dropLast.tail, rest)
      else if firstOf key ≠ 0 then none
      else readValues (skipEol rest)
termination_by cursor.length
decreasing_by exact Nat.lt_of_le_of_lt (skipEol_length _) (scanLine_length_lt _ _more)

/-- What is handed out lies before the cursor. -/
theorem readValues_length {cursor rest : List Byte} {read : Read}
    (found : readValues cursor = some (read, rest)) : rest.length < cursor.length := by
  fun_induction readValues cursor with
  | case1 => cases found
  | case2 cursor more =>
    obtain rfl := congrArg Prod.snd (Option.some.inj found)
    exact scanLine_length_lt _ more
  | case3 => cases found
  | case4 cursor more =>
    obtain rfl := congrArg Prod.snd (Option.some.inj found)
    exact scanLine_length_lt _ more
  | case5 => cases found
  | case6 cursor more _ _ _ _ _ _ ih =>
    exact Nat.lt_trans (ih found)
      (Nat.lt_of_le_of_lt (skipEol_length _) (scanLine_length_lt _ more))

/-- The key and the value of a line. -/
abbrev Item := List Byte × List Byte

/-- What `qdf_ini_parse` keeps between two lines, and the calls of the callback with whether
they succeeded. -/
structure Trace (Context : Type*) where
  context : Context
  iniReadCount : BitVec 32
  calls : List (Item × Bool)

section Loop

variable {Context : Type*} (itemCb : Context → List Byte → List Byte → Bool × Context)

/-- A call of the callback. -/
def Trace.call (trace : Trace Context) (key value : List Byte) : Trace Context :=
  let result := itemCb trace.context key value
  { trace with context := result.2, calls := trace.calls ++ [((key, value), result.1)] }

/-- The loop of `qdf_ini_parse`. -/
def parseLoop (trace : Trace Context) (cursor : List Byte) : Trace Context :=
  match _found : readValues cursor with
  | none => trace
  | some (.section _, rest) => parseLoop trace rest
  | some (.item key value, rest) =>
    if (itemCb trace.context key value).1 = false then trace.call itemCb key value
    else parseLoop
      { trace.call itemCb key value with iniReadCount := trace.iniReadCount + 1 } rest
termination_by cursor.length
decreasing_by
  · exact readValues_length _found
  · exact readValues_length _found

/-- The status of `qdf_ini_parse`. -/
inductive Status
  | success
  | inval
deriving DecidableEq

/-- `qdf_ini_parse` on the content of the file. -/
def iniParse (context : Context) (file : List Byte) : Status × Trace Context :=
  let trace := parseLoop itemCb { context := context, iniReadCount := 0, calls := [] } file
  (if trace.iniReadCount ≠ 0 then .success else .inval, trace)

end Loop

/-! ## The lines of a file -/

/-- The bytes that end a line. -/
def isEol (c : Byte) : Bool := c == code '\r' || c == code '\n' || c == 0

/-- The lines of a file. -/
def lines (file : List Byte) : List (List Byte) := file.splitOnP isEol

/-- The part of a line before its comment. -/
def bare (line : List Byte) : List Byte := line.takeWhile fun c => c != code '#'

/-- What a line is. -/
inductive Kind
  | item (item : Item)
  | section
  | blank
  | malformed

/-- What a line without a value indicator is, by its text. -/
def kindOfText : List Byte → Kind
  | [] => .blank
  | c :: text =>
    if c = code '[' ∧ (c :: text).getLastD 0 = code ']' then .section else .malformed

/-- The line is an item, or else its text decides. -/
def kindOf (line : List Byte) : Kind :=
  if code '=' ∈ bare line then
    .item (strTrim ((bare line).takeWhile fun c => c != code '='),
      ((bare line).dropWhile fun c => c != code '=').tail)
  else kindOfText (strTrim (bare line))

/-- The item of a line. -/
def itemOf (line : List Byte) : Option Item :=
  match kindOf line with
  | .item item => some item
  | _ => none

/-- The items of a file in its order. -/
def items (file : List Byte) : List Item := (lines file).filterMap itemOf

/-- The items before the first malformed line. -/
def itemsUpTo : List (List Byte) → List Item
  | [] => []
  | line :: rest =>
    match kindOf line with
    | .item item => item :: itemsUpTo rest
    | .malformed => []
    | _ => itemsUpTo rest

/-- The items before the first NUL and the first malformed line. -/
def reached (file : List Byte) : List Item := itemsUpTo (lines (file.takeWhile fun c => c != 0))

/-- The number of items that the callback takes before it fails. -/
def accepted {Context : Type*} (itemCb : Context → List Byte → List Byte → Bool × Context) :
    Context → List Item → Nat
  | _, [] => 0
  | context, (key, value) :: rest =>
    if (itemCb context key value).1 = false then 0
    else accepted itemCb (itemCb context key value).2 rest + 1

/-- A malformed line or a NUL stands before an item. -/
inductive Hides (file : List Byte) : Prop
  | malformed {before : List (List Byte)} {line : List Byte} {after : List (List Byte)}
      (split : lines file = before ++ line :: after) (bad : kindOf line = .malformed)
      (hidden : after.filterMap itemOf ≠ [])
  | nul {before after : List Byte} (split : file = before ++ 0 :: after) (hidden : items after ≠ [])

/-! ## The scan of a line -/

theorem not_eol {c : Byte} (inside : isEol c = false) :
    ¬(c = code '\r' ∨ c = code '\n') ∧ c ≠ 0 := by
  obtain ⟨newline, nul⟩ := Bool.or_eq_false_iff.mp inside
  obtain ⟨cr, lf⟩ := Bool.or_eq_false_iff.mp newline
  exact ⟨not_or.mpr ⟨ne_of_beq_false cr, ne_of_beq_false lf⟩, ne_of_beq_false nul⟩

/-- The cursor behind a line end; it stays at a NUL. -/
def afterEol (rest : List Byte) : List Byte := if firstOf rest = 0 then rest else rest.tail

section Scan

variable {rest : List Byte}

/-- Text without indicators stays as it is. -/
theorem scanLine_plain {plain : List Byte} (inside : ∀ c ∈ plain, isEol c = false)
    (noComment : code '#' ∉ plain) (line : Line) (indicator : code '=' ∈ plain → line.value ≠ none) :
    scanLine line (plain ++ rest) =
      scanLine ⟨line.bytes ++ plain, line.value, line.comment⟩ rest := by
  induction plain generalizing line with
  | nil => rw [nil_append, append_nil]
  | cons c plain ih =>
    obtain ⟨here, behind⟩ := forall_mem_cons.mp inside
    obtain ⟨notEol, notNul⟩ := not_eol here
    obtain ⟨notHash, noHash⟩ := not_or.mp (fun listed => noComment (mem_cons.mpr listed))
    have next := ih behind noHash (line.write c)
      (fun listed => indicator (mem_cons_of_mem c listed))
    rw [Line.write, append_assoc] at next
    rw [cons_append, scanLine, if_neg notEol, if_neg notNul]
    by_cases equals : c = code '='
    · have valued : ¬(line.value = none ∧ line.comment = false) := fun both =>
        indicator (equals ▸ mem_cons_self) both.1
      rw [if_pos equals, if_neg valued]
      exact next
    · rw [if_neg equals, if_neg (Ne.symm notHash)]
      exact next

/-- Nothing in a comment is an indicator. -/
theorem scanLine_comment {comment : List Byte} (inside : ∀ c ∈ comment, isEol c = false)
    (line : Line) (commented : line.comment = true) :
    ∃ written, scanLine line (comment ++ rest) =
      scanLine ⟨line.bytes ++ written, line.value, true⟩ rest := by
  induction comment generalizing line with
  | nil => exact ⟨[], by rw [nil_append, append_nil, ← commented]⟩
  | cons c comment ih =>
    obtain ⟨here, behind⟩ := forall_mem_cons.mp inside
    obtain ⟨notEol, notNul⟩ := not_eol here
    have next : ∀ c, ∃ written, scanLine ⟨line.bytes ++ [c], line.value, true⟩ (comment ++ rest) =
        scanLine ⟨line.bytes ++ written, line.value, true⟩ rest := by
      intro c
      obtain ⟨written, scanned⟩ :=
        ih behind ⟨line.bytes ++ [c], line.value, true⟩ rfl
      exact ⟨c :: written, by rw [scanned, append_assoc, singleton_append]⟩
    have unvalued : ¬(line.value = none ∧ line.comment = false) := fun both => by
      rw [commented] at both
      cases both.2
    rw [cons_append, scanLine, if_neg notEol, if_neg notNul]
    have kept : line.write c = ⟨line.bytes ++ [c], line.value, true⟩ := by
      rw [Line.write, commented]
    split
    · rw [kept]
      exact next c
    · split
      · exact next 0
      · rw [kept]
        exact next c

/-- The line end, if there is one, is overwritten. -/
theorem scanLine_end (ends : ∀ c ∈ rest.head?, isEol c = true) (line : Line) :
    ∃ written : List Byte, (∀ c ∈ written.head?, c = 0) ∧
      scanLine line rest = (⟨line.bytes ++ written, line.value, line.comment⟩, afterEol rest) := by
  cases rest with
  | nil => exact ⟨[], nofun, by rw [scanLine, append_nil]; rfl⟩
  | cons c rest =>
    by_cases newline : c = code '\r' ∨ c = code '\n'
    · have notNul : ¬firstOf (c :: rest) = 0 := by
        obtain rfl | rfl := newline
        · exact (by decide : ¬code '\r' = 0)
        · exact (by decide : ¬code '\n' = 0)
      refine ⟨[0], fun c first => (Option.some.inj first).symm, ?_⟩
      rw [scanLine, if_pos newline, afterEol, if_neg notNul]
      rfl
    · have nul : c = 0 := by
        have eol := ends c rfl
        obtain either | nul := Bool.or_eq_true_iff.mp eol
        · refine absurd ?_ newline
          exact (Bool.or_eq_true_iff.mp either).imp eq_of_beq eq_of_beq
        · exact eq_of_beq nul
      refine ⟨[], nofun, ?_⟩
      have ended : firstOf (c :: rest) = 0 := nul
      rw [scanLine, if_neg newline, if_pos nul, afterEol, if_pos ended, append_nil]

/-- Behind the text of a line there is nothing or a comment. -/
theorem scanLine_tail {tail : List Byte} (inside : ∀ c ∈ tail, isEol c = false)
    (hash : ∀ c ∈ tail.head?, c = code '#') (ends : ∀ c ∈ rest.head?, isEol c = true)
    (line : Line) :
    ∃ (written : List Byte) (comment : Bool), (∀ c ∈ written.head?, c = 0) ∧
      scanLine line (tail ++ rest) =
        (⟨line.bytes ++ written, line.value, comment⟩, afterEol rest) := by
  cases tail with
  | nil =>
    obtain ⟨written, nul, scanned⟩ := scanLine_end ends line
    exact ⟨written, line.comment, nul, scanned⟩
  | cons c comment =>
    obtain rfl := hash c rfl
    obtain ⟨_, behind⟩ := forall_mem_cons.mp inside
    obtain ⟨overwritten, scanned⟩ := @scanLine_comment rest comment behind
      ⟨line.bytes ++ [0], line.value, true⟩ rfl
    obtain ⟨written, _, ended⟩ := scanLine_end ends
      ⟨line.bytes ++ [0] ++ overwritten, line.value, true⟩
    refine ⟨0 :: (overwritten ++ written), true,
      fun c first => (Option.some.inj first).symm, ?_⟩
    refine (scanned.trans ended).trans ?_
    rw [append_assoc, append_assoc, singleton_append]

end Scan

/-! ## What the reader hands out -/

theorem stringAt_append {before str written : List Byte} (noNul : 0 ∉ str)
    (nul : ∀ c ∈ written.head?, c = 0) :
    stringAt (before ++ (str ++ written)) before.length = str := by
  have inside : ∀ c ∈ str, (c != 0) = true := fun c listed =>
    bne_iff_ne.mpr fun zero => noNul (zero ▸ listed)
  unfold stringAt
  rw [drop_left, takeWhile_append_of_pos inside]
  cases written with
  | nil => exact append_nil str
  | cons c written =>
    obtain rfl := nul c rfl
    exact append_nil str

theorem bare_append (line : List Byte) :
    ∃ tail, line = bare line ++ tail ∧ (∀ c ∈ tail.head?, c = code '#') ∧ code '#' ∉ bare line := by
  refine ⟨line.dropWhile fun c => c != code '#', takeWhile_append_dropWhile.symm,
    fun c first => ?_, fun listed => ?_⟩
  · have head := head?_dropWhile_not (fun c => c != code '#') line
    rw [first] at head
    simpa using head
  · have kept := mem_takeWhile_imp listed
    exact bne_iff_ne.mp kept rfl

variable {line : List Byte}

theorem mem_of_mem_strTrim {c : Byte} (listed : c ∈ strTrim (bare line)) : c ∈ line :=
  ( takeWhile_prefix _).subset
    (( rdropWhile_prefix _ _).subset ((dropWhile_sublist _).subset listed))

section Reads

variable {line rest : List Byte} (inside : ∀ c ∈ line, isEol c = false)
  (ends : ∀ c ∈ rest.head?, isEol c = true)
include inside ends

/-- The scan of a line without a value. -/
theorem scan_text (text : code '=' ∉ bare line) :
    (scan (line ++ rest)).1.value = none ∧
      stringAt (scan (line ++ rest)).1.bytes 0 = bare line ∧
      (scan (line ++ rest)).2 = afterEol rest := by
  obtain ⟨tail, split, hash, noHash⟩ := bare_append line
  have within : ∀ c ∈ bare line ++ tail, isEol c = false := split ▸ inside
  have scanned := @scanLine_plain (tail ++ rest) (bare line)
    (fun c listed => within c (mem_append_left _ listed)) noHash ⟨[], none, false⟩
    (fun listed => absurd listed text)
  obtain ⟨written, comment, nul, ended⟩ := scanLine_tail
    (fun c listed => within c (mem_append_right _ listed)) hash ends
    ⟨[] ++ bare line, none, false⟩
  have whole : scan (line ++ rest) =
      (⟨[] ++ bare line ++ written, none, comment⟩, afterEol rest) := by
    rw [show line ++ rest = bare line ++ (tail ++ rest) by rw [← append_assoc, ← split]]
    exact scanned.trans ended
  have noNul : 0 ∉ bare line := fun listed =>
    (not_eol (within 0 (mem_append_left _ listed))).2 rfl
  rw [whole]
  exact ⟨rfl, @stringAt_append [] _ _ noNul nul, rfl⟩

/-- The scan of an item. -/
theorem scan_item (indicator : code '=' ∈ bare line) :
    ∃ value, (scan (line ++ rest)).1.value = some value ∧
      stringAt (scan (line ++ rest)).1.bytes 0 = (bare line).takeWhile (fun c => c != code '=') ∧
      stringAt (scan (line ++ rest)).1.bytes value =
        ((bare line).dropWhile fun c => c != code '=').tail ∧
      (scan (line ++ rest)).2 = afterEol rest := by
  obtain ⟨tail, split, hash, noHash⟩ := bare_append line
  have within : ∀ c ∈ bare line ++ tail, isEol c = false := split ▸ inside
  have noNul : 0 ∉ bare line := fun listed =>
    (not_eol (within 0 (mem_append_left _ listed))).2 rfl
  obtain ⟨key, value, parts, noEquals⟩ := eq_append_cons_of_mem indicator
  have stays : ∀ c ∈ key, (c != code '=') = true := fun c listed =>
    bne_iff_ne.mpr fun equals => noEquals (equals ▸ listed)
  rw [parts] at split within noNul noHash ⊢
  rw [takeWhile_append_of_pos stays, dropWhile_append_of_pos stays,
    takeWhile_cons_of_neg (by decide), append_nil]
  have inKey : ∀ c ∈ key, c ∈ key ++ code '=' :: value := fun c listed =>
    mem_append_left _ listed
  have inValue : ∀ c ∈ value, c ∈ key ++ code '=' :: value := fun c listed =>
    mem_append_right _ (mem_cons_of_mem _ listed)
  have first := @scanLine_plain (code '=' :: (value ++ (tail ++ rest))) key
    (fun c listed => within c (mem_append_left _ (inKey c listed)))
    (fun listed => noHash (inKey _ listed)) ⟨[], none, false⟩ (fun listed => absurd listed noEquals)
  have mark : scanLine ⟨[] ++ key, none, false⟩ (code '=' :: (value ++ (tail ++ rest))) =
      scanLine ⟨key ++ [0], some (key.length + 1), false⟩ (value ++ (tail ++ rest)) := by
    rfl
  have second := @scanLine_plain (tail ++ rest) value
    (fun c listed => within c (mem_append_left _ (inValue c listed)))
    (fun listed => noHash (inValue _ listed)) ⟨key ++ [0], some (key.length + 1), false⟩
    (fun _ => nofun)
  obtain ⟨written, comment, nul, ended⟩ := scanLine_tail
    (fun c listed => within c (mem_append_right _ listed)) hash ends
    ⟨key ++ [0] ++ value, some (key.length + 1), false⟩
  have whole : scan (line ++ rest) =
      (⟨key ++ [0] ++ value ++ written, some (key.length + 1), comment⟩, afterEol rest) := by
    rw [show line ++ rest = key ++ code '=' :: (value ++ (tail ++ rest)) by
      rw [split, append_assoc, append_assoc, cons_append]]
    exact first.trans (mark.trans (second.trans ended))
  have keyString := @stringAt_append [] key (0 :: (value ++ written))
    (fun listed => noNul (inKey 0 listed)) fun c first => (Option.some.inj first).symm
  have valueString := @stringAt_append (key ++ [0]) value written
    (fun listed => noNul (inValue 0 listed)) nul
  rw [length_append] at valueString
  rw [whole]
  refine ⟨key.length + 1, rfl, ?_, ?_, rfl⟩
  · rw [append_assoc, append_assoc]
    exact keyString
  · rw [append_assoc]
    exact valueString

/-! The line forms, one for each way out of the scan. -/

variable (more : firstOf (line ++ rest) ≠ 0)
include more

theorem readValues_item {item : Item} (kind : kindOf line = .item item) :
    readValues (line ++ rest) = some (.item item.1 item.2, afterEol rest) := by
  unfold kindOf at kind
  split at kind
  · rename_i indicator
    obtain ⟨value, valued, key, string, cursor⟩ := scan_item inside ends indicator
    obtain rfl := Kind.item.inj kind
    rw [readValues, dif_neg more]
    dsimp only
    rw [valued, key, cursor]
    dsimp only
    rw [string]
  · unfold kindOfText at kind
    split at kind
    · cases kind
    · split at kind
      · cases kind
      · cases kind

/-- A line without a value indicator is read by its text. -/
theorem readValues_text (text : code '=' ∉ bare line) :
    readValues (line ++ rest) =
      let key := strTrim (bare line)
      if firstOf key = code '[' then
        if key.getLastD 0 ≠ code ']' then none
        else some (.section key.dropLast.tail, afterEol rest)
      else if firstOf key ≠ 0 then none
      else readValues (skipEol (afterEol rest)) := by
  obtain ⟨unvalued, key, cursor⟩ := scan_text inside ends text
  rw [readValues, dif_neg more]
  dsimp only
  rw [unvalued, key, cursor]

theorem readValues_section (kind : kindOf line = .section) :
    ∃ name, readValues (line ++ rest) = some (.section name, afterEol rest) := by
  unfold kindOf at kind
  split at kind
  · cases kind
  · rename_i text
    rw [readValues_text inside ends more text]
    cases trimmed : strTrim (bare line) with
    | nil => rw [trimmed] at kind; cases kind
    | cons c key =>
      rw [trimmed, kindOfText] at kind
      split at kind
      · rename_i brackets
        exact ⟨_, (if_pos brackets.1).trans (if_neg (not_not.mpr brackets.2))⟩
      · cases kind

theorem readValues_malformed (kind : kindOf line = .malformed) :
    readValues (line ++ rest) = none := by
  unfold kindOf at kind
  split at kind
  · cases kind
  · rename_i text
    rw [readValues_text inside ends more text]
    cases trimmed : strTrim (bare line) with
    | nil => rw [trimmed] at kind; cases kind
    | cons c key =>
      rw [trimmed, kindOfText] at kind
      split at kind
      · cases kind
      · rename_i brackets
        by_cases opened : firstOf (c :: key) = code '['
        · exact (if_pos opened).trans (if_pos fun closed => brackets ⟨opened, closed⟩)
        · have notNul : firstOf (c :: key) ≠ 0 := by
            have listed : c ∈ strTrim (bare line) := trimmed ▸ mem_cons_self
            exact (not_eol (inside c (mem_of_mem_strTrim listed))).2
          exact (if_neg opened).trans (if_pos notNul)

theorem readValues_blank (kind : kindOf line = .blank) :
    readValues (line ++ rest) = readValues (skipEol (afterEol rest)) := by
  unfold kindOf at kind
  split at kind
  · cases kind
  · rename_i text
    rw [readValues_text inside ends more text]
    cases trimmed : strTrim (bare line) with
    | nil => exact (if_neg (by decide)).trans (if_neg (by decide))
    | cons c key =>
      rw [trimmed, kindOfText] at kind
      split at kind
      · cases kind
      · cases kind

end Reads

/-! ## The items that are reached -/

theorem reached_of_nul {cursor : List Byte} (ended : firstOf cursor = 0) : reached cursor = [] := by
  cases cursor with
  | nil => rfl
  | cons c cursor =>
    obtain rfl : c = 0 := ended
    rfl

/-- The first line decides with what is reached behind it. -/
theorem reached_line {line rest : List Byte} (inside : ∀ c ∈ line, isEol c = false)
    (ends : ∀ c ∈ rest.head?, isEol c = true) :
    reached (line ++ rest) =
      match kindOf line with
      | .item item => item :: reached (afterEol rest)
      | .malformed => []
      | _ => reached (afterEol rest) := by
  have noNul : ∀ c ∈ line, (c != 0) = true := fun c listed =>
    bne_iff_ne.mpr (not_eol (inside c listed)).2
  have alone : itemsUpTo (lines line) = itemsUpTo (line :: lines []) := by
    rw [lines, splitOnP_eq_singleton inside]
    rfl
  have step : reached (line ++ rest) =
      itemsUpTo (line :: lines ((afterEol rest).takeWhile fun c => c != 0)) := by
    unfold reached
    rw [takeWhile_append_of_pos noNul]
    cases rest with
    | nil => exact (congrArg (itemsUpTo ∘ lines) (append_nil line)).trans alone
    | cons c rest =>
      by_cases nul : c = 0
      · obtain rfl := nul
        exact (congrArg (itemsUpTo ∘ lines) (append_nil line)).trans alone
      · have more : ¬firstOf (c :: rest) = 0 := nul
        rw [takeWhile_cons_of_pos (p := fun c => c != 0) (bne_iff_ne.mpr nul), afterEol,
          if_neg more, lines, splitOnP_append_cons_of_forall_mem inside c (ends c rfl)]
        rfl
  rw [step]
  rfl

/-- The line ends behind a blank line are blank lines. -/
theorem reached_skipEol : reached (skipEol cursor) = reached cursor := by
  induction cursor with
  | nil => rfl
  | cons c cursor ih =>
    unfold skipEol
    by_cases newline : (c == code '\n' || c == code '\r') = true
    · rw [dropWhile_cons_of_pos (p := fun c => c == code '\n' || c == code '\r') newline]
      have eol : isEol c = true := by
        unfold isEol
        rw [Bool.or_comm (c == code '\r'), newline, Bool.true_or]
      have more : ¬firstOf (c :: cursor) = 0 := fun nul : c = 0 => by
        rw [nul] at newline
        exact absurd newline (by decide)
      have first := @reached_line [] (c :: cursor) (fun _ listed => nomatch listed)
        fun d head => Option.some.inj head ▸ eol
      rw [afterEol, if_neg more] at first
      exact ih.trans first.symm
    · rw [dropWhile_cons_of_neg (p := fun c => c == code '\n' || c == code '\r') newline]

/-- A cursor stands before a line and its end. -/
theorem exists_line :
    ∃ line rest, cursor = line ++ rest ∧ (∀ c ∈ line, isEol c = false) ∧
      ∀ c ∈ rest.head?, isEol c = true := by
  refine ⟨cursor.takeWhile fun c => !isEol c, cursor.dropWhile fun c => !isEol c,
    takeWhile_append_dropWhile.symm, fun c listed => ?_, fun c first => ?_⟩
  · have kept := mem_takeWhile_imp listed
    simpa using kept
  · have head := head?_dropWhile_not (fun c => !isEol c) cursor
    rw [first] at head
    simpa using head

theorem afterEol_length {line rest : List Byte} (more : firstOf (line ++ rest) ≠ 0) :
    (afterEol rest).length < (line ++ rest).length := by
  unfold afterEol
  cases line with
  | nil =>
    rw [nil_append] at more ⊢
    rw [if_neg more]
    cases rest with
    | nil => exact absurd rfl more
    | cons c rest => exact Nat.lt_succ_self _
  | cons c line =>
    rw [cons_append, length_cons, length_append]
    split
    · omega
    · rw [length_tail]
      omega

/-- What the reader hands out is what is reached next. -/
def Hands (cursor : List Byte) : Option (Read × List Byte) → Prop
  | none => reached cursor = []
  | some (.item key value, rest) => reached cursor = (key, value) :: reached rest
  | some (.section _, rest) => reached cursor = reached rest

theorem readValues_hands : Hands cursor (readValues cursor) := by
  induction length : cursor.length using Nat.strong_induction_on generalizing cursor with
  | _ _ ih =>
    by_cases ended : firstOf cursor = 0
    · rw [readValues, dif_pos ended]
      exact reached_of_nul ended
    · obtain ⟨line, rest, rfl, inside, ends⟩ := exists_line cursor
      have next := reached_line inside ends
      cases kind : kindOf line with
      | item item =>
        rw [kind] at next
        rw [readValues_item inside ends ended kind]
        exact next
      | «section» =>
        rw [kind] at next
        obtain ⟨name, found⟩ := readValues_section inside ends ended kind
        rw [found]
        exact next
      | malformed =>
        rw [kind] at next
        rw [readValues_malformed inside ends ended kind]
        exact next
      | blank =>
        rw [kind] at next
        rw [readValues_blank inside ends ended kind]
        have shorter : (skipEol (afterEol rest)).length < (line ++ rest).length :=
          Nat.lt_of_le_of_lt (skipEol_length _) (afterEol_length ended)
        have behind := ih _ (length ▸ shorter) _ rfl
        have same : reached (line ++ rest) = reached (skipEol (afterEol rest)) := by
          rw [next, reached_skipEol]
        revert behind
        cases readValues (skipEol (afterEol rest)) with
        | none => exact fun none => same.trans none
        | some found =>
          obtain ⟨_ | _, rest⟩ := found
          · exact fun item => same.trans item
          · exact fun «section» => same.trans «section»

/-! ## The calls of the callback -/

section Calls

variable {Context : Type*} (itemCb : Context → List Byte → List Byte → Bool × Context)

/-- The callback is called on the items until it fails. -/
def deliver : Trace Context → List Item → Trace Context
  | trace, [] => trace
  | trace, (key, value) :: rest =>
    if (itemCb trace.context key value).1 = false then trace.call itemCb key value
    else deliver { trace.call itemCb key value with iniReadCount := trace.iniReadCount + 1 } rest

variable (trace : Trace Context)

/-- The loop calls the callback on the items that are reached. -/
theorem parseLoop_eq_deliver :
    parseLoop itemCb trace cursor = deliver itemCb trace (reached cursor) := by
  have hands := readValues_hands cursor
  fun_induction parseLoop itemCb trace cursor with
  | case1 trace cursor found =>
    rw [found] at hands
    rw [show reached cursor = [] from hands]
    rfl
  | case2 trace cursor name rest found ih =>
    rw [found] at hands
    rw [show reached cursor = reached rest from hands]
    exact ih (readValues_hands rest)
  | case3 trace cursor key value rest found fails =>
    rw [found] at hands
    rw [show reached cursor = (key, value) :: reached rest from hands, deliver, if_pos fails]
  | case4 trace cursor key value rest found succeeds ih =>
    rw [found] at hands
    rw [show reached cursor = (key, value) :: reached rest from hands, deliver, if_neg succeeds]
    exact ih (readValues_hands rest)

theorem deliver_count (reads : List Item) :
    (deliver itemCb trace reads).iniReadCount =
      trace.iniReadCount + BitVec.ofNat 32 (accepted itemCb trace.context reads) := by
  induction reads generalizing trace with
  | nil => exact (BitVec.add_zero _).symm
  | cons item rest ih =>
    rw [deliver, accepted]
    split
    · exact (BitVec.add_zero _).symm
    · rw [ih, Nat.add_comm _ 1, BitVec.ofNat_add, ← BitVec.add_assoc]
      rfl

/-- The calls are on the items that are taken and the one behind them. -/
theorem deliver_calls (reads : List Item) :
    (deliver itemCb trace reads).calls.map Prod.fst =
      trace.calls.map Prod.fst ++ reads.take (accepted itemCb trace.context reads + 1) := by
  induction reads generalizing trace with
  | nil => exact (append_nil _).symm
  | cons item rest ih =>
    rw [deliver, accepted]
    split
    · rw [Trace.call, map_append]
      rfl
    · rw [ih, Trace.call, map_append, append_assoc]
      rfl

/-- The calls all succeed if all items are taken. -/
theorem deliver_succeeds (reads : List Item) :
    (∀ call ∈ (deliver itemCb trace reads).calls, call.2 = true) ↔
      (∀ call ∈ trace.calls, call.2 = true) ∧
        accepted itemCb trace.context reads = reads.length := by
  induction reads generalizing trace with
  | nil => exact (and_iff_left rfl).symm
  | cons item rest ih =>
    obtain ⟨key, value⟩ := item
    rw [deliver, accepted]
    split
    · rename_i fails
      refine iff_of_false (fun succeed => ?_) fun both => by cases both.2
      have last := succeed ((key, value), (itemCb trace.context key value).1)
        (mem_append_right _ (mem_singleton_self _))
      rw [show (itemCb trace.context key value).1 = true from last] at fails
      cases fails
    · rename_i succeeds
      rw [ih, Trace.call, forall_mem_append, forall_mem_singleton,
        length_cons, Nat.add_right_cancel_iff]
      rw [and_iff_left (eq_true_of_ne_false succeeds)]

end Calls

/-! ## What is not reached -/

theorem itemOf_malformed (bad : kindOf line = .malformed) : itemOf line = none := by
  unfold itemOf
  rw [bad]

/-- A line is skipped, taken, or the end. -/
theorem itemsUpTo_cons (line : List Byte) (rest : List (List Byte)) :
    kindOf line = .malformed ∧ itemsUpTo (line :: rest) = [] ∨
      (line :: rest).filterMap itemOf = (itemOf line).toList ++ rest.filterMap itemOf ∧
        itemsUpTo (line :: rest) = (itemOf line).toList ++ itemsUpTo rest := by
  rw [itemsUpTo, filterMap_cons, itemOf]
  cases kindOf line with
  | item item => exact .inr ⟨rfl, rfl⟩
  | «section» => exact .inr ⟨rfl, rfl⟩
  | blank => exact .inr ⟨rfl, rfl⟩
  | malformed => exact .inl ⟨rfl, rfl⟩

theorem itemsUpTo_prefix (read : List (List Byte)) : itemsUpTo read <+: read.filterMap itemOf := by
  induction read with
  | nil => exact prefix_rfl
  | cons line rest ih =>
    obtain ⟨_, ends⟩ | ⟨all, taken⟩ := itemsUpTo_cons line rest
    · rw [ends]
      exact nil_prefix
    · rw [all, taken]
      exact (prefix_append_right_inj _).mpr ih

/-- Nothing behind a malformed line is taken. -/
theorem itemsUpTo_before {read before : List (List Byte)} {after : List (List Byte)}
    (reads : read <+: before ++ line :: after) (bad : kindOf line = .malformed)
    : itemsUpTo read <+: before.filterMap itemOf := by
  induction before generalizing read with
  | nil =>
    obtain _ | ⟨first, read⟩ := read
    · exact prefix_rfl
    · obtain ⟨rfl, _⟩ := cons_prefix_cons.mp reads
      rw [itemsUpTo, bad]
      exact nil_prefix
  | cons second before ih =>
    obtain _ | ⟨first, read⟩ := read
    · exact nil_prefix
    · obtain ⟨rfl, others⟩ := cons_prefix_cons.mp reads
      obtain ⟨_, ends⟩ | ⟨_, taken⟩ := itemsUpTo_cons first read
      · rw [ends]
        exact nil_prefix
      · obtain ⟨bad', _⟩ | ⟨all, _⟩ := itemsUpTo_cons first before
        · rw [itemsUpTo, bad']
          exact nil_prefix
        · rw [taken, all]
          exact (prefix_append_right_inj _).mpr (ih others)

/-- Where something is missing, a malformed line hides it. -/
theorem exists_malformed {read : List (List Byte)}
    (missing : itemsUpTo read ≠ read.filterMap itemOf) :
    ∃ before line after, read = before ++ line :: after ∧ kindOf line = .malformed ∧
      after.filterMap itemOf ≠ [] := by
  induction read with
  | nil => exact absurd rfl missing
  | cons line rest ih =>
    obtain ⟨bad, ends⟩ | ⟨all, taken⟩ := itemsUpTo_cons line rest
    · refine ⟨[], line, rest, rfl, bad, fun none => missing ?_⟩
      rw [ends, filterMap_cons, itemOf_malformed bad, none]
    · have later : itemsUpTo rest ≠ rest.filterMap itemOf := fun same =>
        missing (by rw [all, taken, same])
      obtain ⟨before, bad, after, split, malformed, hidden⟩ := ih later
      exact ⟨line :: before, bad, after, by rw [split, cons_append], malformed, hidden⟩

theorem lines_nul (before after : List Byte) :
    lines (before ++ 0 :: after) = lines before ++ lines after :=
  splitOnP_append_cons before after (by decide)

theorem items_nul (before after : List Byte) :
    items (before ++ 0 :: after) = items before ++ items after := by
  unfold items
  rw [lines_nul, filterMap_append]

/-- The file up to its first NUL. -/
theorem takeWhile_or_nul (file : List Byte) :
    file.takeWhile (fun c => c != 0) = file ∨
      ∃ after, file = file.takeWhile (fun c => c != 0) ++ 0 :: after := by
  have split := takeWhile_append_dropWhile (p := fun c : Byte => c != 0) (l := file)
  cases behind : file.dropWhile (fun c => c != 0) with
  | nil =>
    rw [behind, append_nil] at split
    exact .inl split
  | cons c after =>
    have head := head?_dropWhile_not (fun c => c != 0) file
    rw [behind] at head split
    have nul : c = 0 := by simpa using head
    exact .inr ⟨after, by subst nul; exact split.symm⟩

theorem lines_prefix (file : List Byte) :
    lines (file.takeWhile fun c => c != 0) <+: lines file := by
  obtain whole | ⟨after, split⟩ := takeWhile_or_nul file
  · exact whole.symm ▸ prefix_rfl
  · have all := lines_nul (file.takeWhile fun c => c != 0) after
    rw [← split] at all
    rw [all]
    exact prefix_append _ _

theorem reached_prefix (file : List Byte) : reached file <+: items file :=
  ( itemsUpTo_prefix _).trans (( lines_prefix file).filterMap itemOf)

theorem takeWhile_append_nul (before after : List Byte) :
    (before ++ 0 :: after).takeWhile (fun c => c != 0) = before.takeWhile fun c => c != 0 := by
  induction before with
  | nil => rfl
  | cons c before ih =>
    rw [cons_append, takeWhile_cons, takeWhile_cons, ih]

/-- What is not reached stands behind a malformed line or a NUL. -/
theorem hides_iff (file : List Byte) : Hides file ↔ reached file ≠ items file := by
  constructor
  · intro hides same
    have longer : (items file).length ≤ (reached file).length := (congrArg length same).ge
    cases hides with
    | @malformed before line after split bad hidden =>
      have shorter := (itemsUpTo_before (split ▸ lines_prefix file) bad).length_le
      have rest := length_pos_of_ne_nil hidden
      unfold items reached at longer
      rw [split, filterMap_append, filterMap_cons_none (itemOf_malformed bad),
        length_append] at longer
      omega
    | @nul before after split hidden =>
      have shorter := ( reached_prefix before).length_le
      have rest := length_pos_of_ne_nil hidden
      unfold reached at longer shorter
      rw [split, takeWhile_append_nul, items_nul, length_append] at longer
      omega
  · intro missing
    obtain whole | ⟨after, split⟩ := takeWhile_or_nul file
    · unfold reached at missing
      rw [whole] at missing
      obtain ⟨before, line, after, split, bad, hidden⟩ := exists_malformed missing
      exact .malformed split bad hidden
    · by_cases hidden : items after = []
      · have all := items_nul (file.takeWhile fun c => c != 0) after
        rw [← split, hidden, append_nil] at all
        rw [all] at missing
        obtain ⟨before, line, between, parts, bad, some⟩ := exists_malformed missing
        have whole := lines_nul (file.takeWhile fun c => c != 0) after
        rw [← split, parts, append_assoc, cons_append] at whole
        refine .malformed whole bad fun none => some ?_
        rw [filterMap_append] at none
        exact (append_eq_nil_iff.mp none).1
      · exact .nul split hidden

/-! ## Nothing is lost silently -/

section Silent

variable {Context : Type*} (itemCb : Context → List Byte → List Byte → Bool × Context)
  (context : Context) (file : List Byte)

/-- The calls are on the items in file order, and on all of them with success behind a
success of the parser. -/
def LosesNothing : Prop :=
  (iniParse itemCb context file).2.calls.map Prod.fst <+: items file ∧
    ((iniParse itemCb context file).1 = .success →
      (iniParse itemCb context file).2.calls.map Prod.fst = items file ∧
        ∀ call ∈ (iniParse itemCb context file).2.calls, call.2 = true)

theorem iniParse_success_iff :
    (iniParse itemCb context file).1 = .success ↔
      ¬2 ^ 32 ∣ accepted itemCb context (reached file) := by
  have count := (deliver_count itemCb ⟨context, 0, []⟩ (reached file)).trans (BitVec.zero_add _)
  unfold iniParse
  dsimp only
  rw [parseLoop_eq_deliver, count, Nat.dvd_iff_mod_eq_zero]
  have zero : BitVec.ofNat 32 (accepted itemCb context (reached file)) = 0 ↔
      accepted itemCb context (reached file) % 2 ^ 32 = 0 := by
    rw [← BitVec.toNat_inj]
    rfl
  split
  · rename_i some
    exact iff_of_true rfl (zero.not.mp some)
  · rename_i none
    exact iff_of_false nofun (not_not.mpr (zero.mp (not_not.mp none)))

theorem iniParse_calls :
    (iniParse itemCb context file).2.calls.map Prod.fst =
      (reached file).take (accepted itemCb context (reached file) + 1) := by
  unfold iniParse
  rw [parseLoop_eq_deliver, deliver_calls]
  rfl

theorem iniParse_succeeds :
    (∀ call ∈ (iniParse itemCb context file).2.calls, call.2 = true) ↔
      accepted itemCb context (reached file) = (reached file).length := by
  unfold iniParse
  rw [parseLoop_eq_deliver, deliver_succeeds]
  exact and_iff_right fun _ listed => nomatch listed

/-- Something is lost silently exactly if some item has been taken and there is a malformed line
or a NUL before an item, or the callback fails. -/
theorem losesNothing_iff :
    LosesNothing itemCb context file ↔
      2 ^ 32 ∣ accepted itemCb context (reached file) ∨
        ¬Hides file ∧ accepted itemCb context (items file) = (items file).length := by
  unfold LosesNothing
  rw [iniParse_success_iff, iniParse_calls, iniParse_succeeds, hides_iff, not_not]
  have ordered : (reached file).take (accepted itemCb context (reached file) + 1) <+: items file :=
    ( take_prefix _ _).trans ( reached_prefix file)
  rw [and_iff_right ordered]
  constructor
  · intro success
    refine or_iff_not_imp_left.mpr fun counted => ?_
    obtain ⟨all, taken⟩ := success counted
    rw [take_of_length_le (by omega)] at all
    exact ⟨all, all ▸ taken⟩
  · rintro (none | ⟨all, taken⟩) counted
    · exact absurd none counted
    · rw [all, taken]
      exact ⟨take_of_length_le (Nat.le_succ _), rfl⟩

end Silent

/-- A callback that takes every item. -/
def takes (_ : Unit) (_ _ : List Byte) : Bool × Unit := (true, ())

theorem not_losesNothing_malformed :
    ¬∀ (itemCb : Unit → List Byte → List Byte → Bool × Unit) (context : Unit) (file : List Byte),
      LosesNothing itemCb context file := by
  intro nothing
  have file := nothing takes () ("a=1\nb\nc=2".toList.map code)
  have success := (iniParse_success_iff takes () ("a=1\nb\nc=2".toList.map code)).mpr (by decide)
  have delivered := (file.2 success).1
  rw [iniParse_calls] at delivered
  exact absurd delivered (by decide)

end Sm8650.Qdf.Ini
