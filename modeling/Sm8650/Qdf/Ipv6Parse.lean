import Mathlib.Data.List.GetD
import Sm8650.Qdf.Text

/-!
# IPv6 addresses

An address is eight groups of hex digits with single colons between them, or fewer groups with
one double colon in the place of the zero groups. The loop of the parser takes a colon before
it knows whether a group follows.

The bytes of an address under construction are a function of the index; they are arbitrary
until they are written.

Source: `qdf_types.c`.
-/

namespace Sm8650.Qdf.Ipv6

open Data.Words List Function

/-! ## The code -/

/-- The loop of `qdf_consume_hextet` with the digits that may still follow. -/
def consumeHextetFrom : Nat → Nat → BitVec 16 → List Byte → Nat × BitVec 16 × List Byte
  | 0, len, hextet, str => (len, hextet, str)
  | left + 1, len, hextet, str =>
    match consumeHex str with
    | none => (len, hextet, str)
    | some (digit, rest) =>
      consumeHextetFrom left (len + 1) ((hextet <<< 4) + BitVec.ofNat 16 digit) rest

/-- `qdf_consume_hextet`. -/
def consumeHextet (str : List Byte) : Option (BitVec 16 × List Byte) :=
  let (len, hextet, rest) := consumeHextetFrom 4 0 0 str
  if len = 0 then none else some (hextet, rest)

/-- The two bytes of a hextet. -/
def byteOf (hextet : BitVec 16) (index : Nat) : Byte :=
  if index % 2 = 0 then (hextet >>> 8).setWidth 8 else hextet.setWidth 8

/-- Store a hextet in an address. -/
def storeHextet (addr : Nat → Byte) (place : Nat) (hextet : BitVec 16) : Nat → Byte :=
  update (update addr (place * 2) ((hextet >>> 8).setWidth 8)) (place * 2 + 1) (hextet.setWidth 8)

/-- The loop of `qdf_ipv6_parse` between two groups. -/
structure State where
  addr : Nat → Byte
  hextetsFound : Nat
  zeroComp : Int
  str : List Byte

/-- The group at the start of the string is stored. -/
def State.store (state : State) (hextet : BitVec 16) (str : List Byte) : State :=
  { state with
    addr := storeHextet state.addr state.hextetsFound hextet
    hextetsFound := state.hextetsFound + 1
    str := str }

/-- The loop of `qdf_ipv6_parse` with the groups that may still follow. -/
def parseLoop : Nat → State → Except QdfError State
  | 0, state => .ok state
  | left + 1, state =>
    match consumeHextet state.str with
    | none => if (state.hextetsFound : Int) ≠ state.zeroComp then .error .failure else .ok state
    | some (hextet, str) =>
      let state := state.store hextet str
      match consumeChar str (code ':') with
      | none => .ok state
      | some str =>
        match consumeChar str (code ':') with
        | none => parseLoop left { state with str := str }
        | some str =>
          if state.zeroComp ≥ 0 then .error .failure
          else parseLoop left
            { state with str := str, zeroComp := state.hextetsFound }

/-- The leading zero compression. -/
def consumeStart (str : List Byte) : Except QdfError (Int × List Byte) :=
  match consumeChar str (code ':') with
  | none => .ok (-1, str)
  | some str =>
    match consumeChar str (code ':') with
    | none => .error .failure
    | some str => .ok (0, str)

/-- `qdf_ipv6_apply_zero_comp`. -/
def applyZeroComp (addr : Nat → Byte) (hextets zeroCompIndex : Nat) : Nat → Byte :=
  let zeroCompSize := (8 - hextets) * 2
  let bytesToMove := (hextets - zeroCompIndex) * 2
  let source := zeroCompIndex * 2
  let target := source + zeroCompSize
  let moved := fun index =>
    if target ≤ index ∧ index < target + bytesToMove then addr (index - target + source)
    else addr index
  fun index => if source ≤ index ∧ index < target then 0 else moved index

/-- The end of `qdf_ipv6_parse`, behind the loop. -/
def State.address (state : State) : Except QdfError (List Byte) := do
  if firstOf (strLeftTrim state.str) ≠ 0 then throw .failure
  if state.hextetsFound < 8 then
    if state.zeroComp < 0 then throw .failure
    pure ((List.range 16).map (applyZeroComp state.addr state.hextetsFound state.zeroComp.toNat))
  else
    if state.zeroComp > -1 then throw .failure
    pure ((List.range 16).map state.addr)

/-- The bytes that `qdf_ipv6_parse` finds, with what `addr` holds before it is written. -/
def ipv6Parse (addr : Nat → Byte) (ipv6Str : List Byte) : Except QdfError (List Byte) := do
  let (zeroComp, str) ← consumeStart (strLeftTrim ipv6Str)
  let state ← parseLoop 8 { addr := addr, hextetsFound := 0, zeroComp := zeroComp, str := str }
  state.address

/-- The status of `qdf_ipv6_parse` and `out_addr` behind it: only a success writes it. -/
def ipv6ParseTo (outAddr : List Byte) (addr : Nat → Byte) (ipv6Str : List Byte) :
    Except QdfError Unit × List Byte :=
  match ipv6Parse addr ipv6Str with
  | .ok bytes => (.ok (), bytes)
  | .error status => (.error status, outAddr)

/-! ## Addresses as text -/

/-- One to four hex digits. -/
structure Group (group : List Byte) : Prop where
  some : group ≠ []
  short : group.length ≤ 4
  hex : ∀ c ∈ group, isHex c = true

/-- Groups with single colons between them. -/
def joined (groups : List (List Byte)) : List Byte := List.intercalate [code ':'] groups

/-- The value of a group. -/
def hextetOf (group : List Byte) : BitVec 16 :=
  BitVec.ofNat 16 (group.foldl (fun value c => value * 16 + digitOf c) 0)

/-- The bytes of eight hextets. -/
def addressOf (hextets : List (BitVec 16)) : List Byte :=
  (List.range 16).map fun index => byteOf (hextets.getD (index / 2) 0) index

/-- The text without the white space around it is `core`. -/
def Trimmed (text core : List Byte) : Prop :=
  ∃ lead trail, text = lead ++ (core ++ trail) ∧ Blank lead ∧ Blank trail

/-- The address in text: eight groups, or fewer groups on the sides of a double colon. -/
inductive Address : List Byte → List (BitVec 16) → Prop
  | full {groups} (eight : groups.length = 8) (all : ∀ group ∈ groups, Group group) :
      Address (joined groups) (groups.map hextetOf)
  | compressed {left right} (fewer : left.length + right.length ≤ 7)
      (all : ∀ group ∈ left ++ right, Group group) :
      Address (joined left ++ (code ':' :: code ':' :: joined right))
        (left.map hextetOf ++ (List.replicate (8 - (left.length + right.length)) 0 ++
          right.map hextetOf))

/-- The text is an address with these bytes. -/
def Denotes (text : List Byte) (bytes : List Byte) : Prop :=
  ∃ core hextets, Trimmed text core ∧ Address core hextets ∧ bytes = addressOf hextets

/-- Eight groups with single colons between them, and a ninth colon behind them. -/
def Trailing (text : List Byte) : Prop :=
  ∃ groups, groups.length = 8 ∧ (∀ group ∈ groups, Group group) ∧
    Trimmed text (joined groups ++ [code ':'])

/-! ## Groups -/

@[simp]
theorem joined_nil : joined [] = [] :=
  rfl

@[simp]
theorem joined_singleton (group : List Byte) : joined [group] = group :=
  append_nil group

variable {groups : List (List Byte)}

theorem joined_cons (group : List Byte) (some : groups ≠ []) :
    joined (group :: groups) = group ++ code ':' :: joined groups := by
  obtain ⟨next, groups, rfl⟩ := exists_cons_of_ne_nil some
  rfl

theorem not_isHex_colon : isHex (code ':') = false := by decide

variable {left : Nat}

/-- The digits are taken, up to the limit. -/
theorem consumeHextetFrom_append {group rest : List Byte} (short : group.length ≤ left)
    (hex : ∀ c ∈ group, isHex c = true)
    (stops : group.length < left → ∀ c ∈ rest.head?, isHex c = false) (len value : Nat) :
    consumeHextetFrom left len (BitVec.ofNat 16 value) (group ++ rest) =
      (len + group.length,
        BitVec.ofNat 16 (group.foldl (fun value c => value * 16 + digitOf c) value), rest) := by
  induction group generalizing left len value with
  | nil =>
    cases left with
    | zero => rfl
    | succ left =>
      cases rest with
      | nil => rfl
      | cons c rest =>
        have none : hexDigit c = none :=
          Option.isNone_iff_eq_none.mp
            (Option.isSome_eq_false_iff.mp (stops (Nat.succ_pos left) c rfl))
        rw [nil_append, consumeHextetFrom, consumeHex, none]
        rfl
  | cons c group ih =>
    obtain ⟨digit, others⟩ := forall_mem_cons.mp hex
    cases left with
    | zero => exact absurd short (Nat.not_succ_le_zero _)
    | succ left =>
      have next : BitVec.ofNat 16 value <<< 4 + BitVec.ofNat 16 (digitOf c) =
          BitVec.ofNat 16 (value * 16 + digitOf c) := by
        apply BitVec.eq_of_toNat_eq
        rw [BitVec.toNat_add, BitVec.toNat_shiftLeft, BitVec.toNat_ofNat, BitVec.toNat_ofNat,
          BitVec.toNat_ofNat]
        omega
      rw [cons_append, consumeHextetFrom, consumeHex, hexDigit_of_isHex digit, Option.map_some]
      dsimp only
      rw [next, ih (Nat.le_of_succ_le_succ short) others
        (fun fewer => stops (Nat.succ_lt_succ fewer)), foldl_cons,
        length_cons, Nat.add_assoc, Nat.add_comm 1]

theorem consumeHextet_append {group rest : List Byte} (is : Group group)
    (stops : group.length < 4 → ∀ c ∈ rest.head?, isHex c = false) :
    consumeHextet (group ++ rest) = some (hextetOf group, rest) := by
  have taken := consumeHextetFrom_append is.short is.hex stops 0 0
  have some : ¬group.length = 0 := fun none => is.some (eq_nil_of_length_eq_zero none)
  unfold consumeHextet
  rw [show (0 : BitVec 16) = BitVec.ofNat 16 0 from rfl, taken, Nat.zero_add]
  exact if_neg some

/-- No group is taken where no digit is. -/
theorem consumeHextet_none {str : List Byte} (stops : ∀ c ∈ str.head?, isHex c = false) :
    consumeHextet str = none := by
  have taken := @consumeHextetFrom_append 4 [] str (by decide) (fun _ listed => nomatch listed)
    (fun _ => stops) 0 0
  unfold consumeHextet
  rw [show (0 : BitVec 16) = BitVec.ofNat 16 0 from rfl, ← nil_append str, taken]
  rfl

/-- Where digits are, they are taken as a group. -/
theorem exists_group {str : List Byte} (digits : ¬∀ c ∈ str.head?, isHex c = false) :
    ∃ group rest, Group group ∧ str = group ++ rest ∧
      consumeHextet str = some (hextetOf group, rest) := by
  have run : str = (str.takeWhile isHex).take 4 ++ ((str.takeWhile isHex).drop 4 ++
      str.dropWhile isHex) := by
    rw [← append_assoc, take_append_drop, takeWhile_append_dropWhile]
  have is : Group ((str.takeWhile isHex).take 4) := by
    refine ⟨?_, length_take_le _ _, fun c listed => ?_⟩
    · cases str with
      | nil => exact absurd (fun _ listed => nomatch listed) digits
      | cons c str =>
        have hex : isHex c = true := by
          by_contra notHex
          refine digits fun first listed => ?_
          rw [← Option.some.inj listed]
          exact eq_false_of_ne_true notHex
        rw [takeWhile_cons_of_pos hex]
        exact cons_ne_nil _ _
    · exact mem_takeWhile_imp (mem_of_mem_take listed)
  have stops : ((str.takeWhile isHex).take 4).length < 4 →
      ∀ c ∈ ((str.takeWhile isHex).drop 4 ++ str.dropWhile isHex).head?, isHex c = false := by
    intro fewer c first
    have short : (str.takeWhile isHex).length < 4 := by
      rw [length_take] at fewer
      omega
    rw [drop_eq_nil_of_le (Nat.le_of_lt short), nil_append] at first
    have head := head?_dropWhile_not isHex str
    rw [first] at head
    simpa using head
  have taken := consumeHextet_append is stops
  rw [← run] at taken
  exact ⟨_, _, is, run, taken⟩

/-! ## The loop over the groups -/

/-- Store the groups from a place on. -/
def storeGroups (addr : Nat → Byte) (place : Nat) : List (List Byte) → Nat → Byte
  | [] => addr
  | group :: groups => storeGroups (storeHextet addr place (hextetOf group)) (place + 1) groups

variable (addr : Nat → Byte)

theorem storeGroups_append (place : Nat) (first second : List (List Byte)) :
    storeGroups addr place (first ++ second) =
      storeGroups (storeGroups addr place first) (place + first.length) second := by
  induction first generalizing addr place with
  | nil => rfl
  | cons group first ih =>
    rw [cons_append, storeGroups, ih, storeGroups, length_cons, Nat.add_assoc, Nat.add_comm 1]

theorem isHex_firstOf_group {group : List Byte} (is : Group group) (rest : List Byte) :
    isHex (firstOf (group ++ rest)) = true := by
  obtain ⟨c, group, rfl⟩ := exists_cons_of_ne_nil is.some
  exact is.hex c mem_cons_self

theorem firstOf_group_ne_colon {group : List Byte} (is : Group group) (rest : List Byte) :
    firstOf (group ++ rest) ≠ code ':' := by
  intro colon
  have hex := isHex_firstOf_group is rest
  rw [colon] at hex
  cases hex

theorem consumeColon (str : List Byte) : consumeChar (code ':' :: str) (code ':') = some str :=
  (consumeChar_eq_some_iff (by decide)).mpr rfl

section Steps

variable (left : Nat) (addr : Nat → Byte) (found : Nat) (zeroComp : Int)
  {group rest : List Byte}

/-- A group and one colon: the loop goes on. -/
theorem parseLoop_single (is : Group group) (single : firstOf rest ≠ code ':') :
    parseLoop (left + 1) ⟨addr, found, zeroComp, group ++ code ':' :: rest⟩ =
      parseLoop left ⟨storeHextet addr found (hextetOf group), found + 1, zeroComp, rest⟩ := by
  have taken := @consumeHextet_append group (code ':' :: rest) is fun _ c first =>
    Option.some.inj first ▸ not_isHex_colon
  rw [parseLoop, taken]
  dsimp only
  rw [State.store, consumeColon]
  dsimp only
  rw [consumeChar_eq_none_iff.mpr single]

/-- A group and two colons: the rest is behind the zero groups. -/
theorem parseLoop_double (is : Group group) (none : zeroComp < 0) :
    parseLoop (left + 1) ⟨addr, found, zeroComp, group ++ code ':' :: code ':' :: rest⟩ =
      parseLoop left
        ⟨storeHextet addr found (hextetOf group), found + 1, (found + 1 : Nat), rest⟩ := by
  have taken := @consumeHextet_append group (code ':' :: code ':' :: rest) is fun _ c first =>
    Option.some.inj first ▸ not_isHex_colon
  rw [parseLoop, taken]
  exact if_neg (Int.not_le.mpr none)

/-- A group and no colon: the loop ends. -/
theorem parseLoop_last (is : Group group) (stops : ∀ c ∈ rest.head?, isHex c = false)
    (ends : firstOf rest ≠ code ':') :
    parseLoop (left + 1) ⟨addr, found, zeroComp, group ++ rest⟩ =
      .ok ⟨storeHextet addr found (hextetOf group), found + 1, zeroComp, rest⟩ := by
  have taken := consumeHextet_append is fun _ => stops
  rw [parseLoop, taken]
  dsimp only
  rw [State.store, consumeChar_eq_none_iff.mpr ends]

/-- No group: the loop ends where the zero groups are. -/
theorem parseLoop_none (stops : ∀ c ∈ rest.head?, isHex c = false) :
    parseLoop (left + 1) ⟨addr, found, (found : Nat), rest⟩ =
      .ok ⟨addr, found, (found : Nat), rest⟩ := by
  rw [parseLoop, consumeHextet_none stops]
  exact if_neg fun other => other rfl

end Steps

/-- All groups but the last one are followed by one colon. -/
theorem parseLoop_groups (left : Nat) (addr : Nat → Byte) (found : Nat) (zeroComp : Int)
    {last : List Byte} (rest : List Byte) (all : ∀ group ∈ groups ++ [last], Group group) :
    parseLoop (groups.length + left) ⟨addr, found, zeroComp, joined (groups ++ [last]) ++ rest⟩ =
      parseLoop left
        ⟨storeGroups addr found groups, found + groups.length, zeroComp, last ++ rest⟩ := by
  induction groups generalizing addr found with
  | nil => rw [nil_append, joined_singleton, length_nil, Nat.zero_add]; rfl
  | cons group groups ih =>
    obtain ⟨is, others⟩ := forall_mem_cons.mp all
    have some : groups ++ [last] ≠ [] := append_ne_nil_of_right_ne_nil _ (cons_ne_nil _ _)
    have next : firstOf (joined (groups ++ [last]) ++ rest) ≠ code ':' := by
      cases groups with
      | nil =>
        rw [nil_append, joined_singleton]
        exact firstOf_group_ne_colon (others _ mem_cons_self) rest
      | cons second groups =>
        rw [cons_append, joined_cons _
          (append_ne_nil_of_right_ne_nil _ (cons_ne_nil _ _)), append_assoc]
        exact firstOf_group_ne_colon (others _ mem_cons_self) _
    rw [cons_append, joined_cons group some, append_assoc, cons_append,
      length_cons, Nat.add_right_comm, parseLoop_single _ _ _ _ is next,
      ih _ _ others, storeGroups, Nat.add_assoc found, Nat.add_comm 1]

section Runs

variable (left : Nat) (addr : Nat → Byte) (found : Nat) (zeroComp : Int)
  {groups : List (List Byte)} {rest : List Byte}

theorem storeGroups_concat (place : Nat) (groups : List (List Byte)) (last : List Byte) :
    storeGroups addr place (groups ++ [last]) =
      storeHextet (storeGroups addr place groups) (place + groups.length) (hextetOf last) :=
  storeGroups_append addr place groups [last]

theorem exists_concat (some : groups ≠ []) : ∃ before last, groups = before ++ [last] :=
  ⟨groups.dropLast, groups.getLast some, (dropLast_append_getLast some).symm⟩

theorem parseLoop_run (some : groups ≠ []) (all : ∀ group ∈ groups, Group group)
    (stops : ∀ c ∈ rest.head?, isHex c = false) (ends : firstOf rest ≠ code ':') :
    parseLoop (groups.length + left) ⟨addr, found, zeroComp, joined groups ++ rest⟩ =
      .ok ⟨storeGroups addr found groups, found + groups.length, zeroComp, rest⟩ := by
  obtain ⟨before, last, rfl⟩ := exists_concat some
  have is := all last (mem_append_right _ (mem_singleton_self last))
  rw [length_append, length_singleton, Nat.add_assoc, Nat.add_comm 1,
    parseLoop_groups _ _ _ _ _ all, parseLoop_last _ _ _ _ is stops ends, storeGroups_concat,
    Nat.add_assoc]

theorem parseLoop_through (some : groups ≠ []) (all : ∀ group ∈ groups, Group group)
    (single : firstOf rest ≠ code ':') :
    parseLoop (groups.length + left) ⟨addr, found, zeroComp, joined groups ++ code ':' :: rest⟩ =
      parseLoop left ⟨storeGroups addr found groups, found + groups.length, zeroComp, rest⟩ := by
  obtain ⟨before, last, rfl⟩ := exists_concat some
  have is := all last (mem_append_right _ (mem_singleton_self last))
  rw [length_append, length_singleton, Nat.add_assoc, Nat.add_comm 1,
    parseLoop_groups _ _ _ _ _ all, parseLoop_single _ _ _ _ is single, storeGroups_concat,
    Nat.add_assoc]

theorem parseLoop_mark (some : groups ≠ []) (all : ∀ group ∈ groups, Group group)
    (none : zeroComp < 0) :
    parseLoop (groups.length + left)
        ⟨addr, found, zeroComp, joined groups ++ code ':' :: code ':' :: rest⟩ =
      parseLoop left ⟨storeGroups addr found groups, found + groups.length,
        (found + groups.length : Nat), rest⟩ := by
  obtain ⟨before, last, rfl⟩ := exists_concat some
  have is := all last (mem_append_right _ (mem_singleton_self last))
  rw [length_append, length_singleton, Nat.add_assoc, Nat.add_comm 1,
    parseLoop_groups _ _ _ _ _ all, parseLoop_double _ _ _ _ is none, storeGroups_concat,
    Nat.add_assoc]

/-- Behind the zero groups there may be groups or none. -/
theorem parseLoop_behind (fewer : groups.length < left) (all : ∀ group ∈ groups, Group group)
    (stops : ∀ c ∈ rest.head?, isHex c = false) (ends : firstOf rest ≠ code ':') :
    parseLoop left ⟨addr, found, (found : Nat), joined groups ++ rest⟩ =
      .ok ⟨storeGroups addr found groups, found + groups.length, (found : Nat), rest⟩ := by
  obtain ⟨more, rfl⟩ : ∃ more, left = groups.length + (more + 1) :=
    ⟨left - groups.length - 1, by omega⟩
  cases groups with
  | nil =>
    exact parseLoop_none _ _ _ stops
  | cons group groups => exact parseLoop_run _ _ _ _ (cons_ne_nil _ _) all stops ends

end Runs

/-! ## What the loop has read -/

variable {state final : State}

/-- One round of a loop that succeeds. -/
theorem parseLoop_succ_eq_ok (parsed : parseLoop (left + 1) state = .ok final) :
    ((state.hextetsFound : Int) = state.zeroComp ∧ final = state) ∨
    ∃ group, Group group ∧ ((∃ rest, state.str = group ++ rest ∧
          final = state.store (hextetOf group) rest) ∨
      (∃ rest, state.str = group ++ code ':' :: rest ∧
        parseLoop left (state.store (hextetOf group) rest) = .ok final) ∨
      ∃ rest, state.str = group ++ code ':' :: code ':' :: rest ∧ state.zeroComp < 0 ∧
        parseLoop left { state.store (hextetOf group) rest with
          zeroComp := (state.hextetsFound + 1 : Nat) } = .ok final) := by
  rw [parseLoop] at parsed
  by_cases digits : ∀ c ∈ state.str.head?, isHex c = false
  · rw [consumeHextet_none digits] at parsed
    dsimp only at parsed
    split at parsed
    · cases parsed
    · rename_i same
      exact .inl ⟨not_not.mp same, (Except.ok.inj parsed).symm⟩
  · obtain ⟨group, rest, is, split, taken⟩ := exists_group digits
    refine .inr ⟨group, is, ?_⟩
    rw [taken] at parsed
    dsimp only at parsed
    cases colon : consumeChar rest (code ':') with
    | none =>
      rw [colon] at parsed
      exact .inl ⟨rest, split, (Except.ok.inj parsed).symm⟩
    | some str =>
      rw [colon] at parsed
      dsimp only at parsed
      obtain rfl : rest = code ':' :: str := (consumeChar_eq_some_iff (by decide)).mp colon
      cases second : consumeChar str (code ':') with
      | none =>
        rw [second] at parsed
        exact .inr (.inl ⟨str, split, parsed⟩)
      | some str' =>
        rw [second] at parsed
        dsimp only at parsed
        obtain rfl : str = code ':' :: str' := (consumeChar_eq_some_iff (by decide)).mp second
        split at parsed
        · cases parsed
        · rename_i none
          exact .inr (.inr ⟨str', split, Int.not_le.mp none, parsed⟩)

/-- Behind the zero groups the loop takes groups with single colons between them. -/
theorem parseLoop_behind_sound (parsed : parseLoop left state = .ok final)
    (compressed : 0 ≤ state.zeroComp) (behind : state.zeroComp ≤ state.hextetsFound)
    (fewer : final.hextetsFound < state.hextetsFound + left) :
    ∃ right, (∀ group ∈ right, Group group) ∧ state.str = joined right ++ final.str ∧
      final.hextetsFound = state.hextetsFound + right.length ∧
      (right = [] → (state.hextetsFound : Int) = state.zeroComp) := by
  induction left generalizing state with
  | zero =>
    obtain rfl := Except.ok.inj parsed
    omega
  | succ left ih =>
    obtain ⟨same, rfl⟩ | ⟨group, is, ends⟩ := parseLoop_succ_eq_ok parsed
    · exact ⟨[], (fun _ listed => nomatch listed), rfl, rfl, fun _ => same⟩
    · obtain ⟨rest, split, rfl⟩ | ⟨rest, split, next⟩ | ⟨rest, split, none, _⟩ := ends
      · refine ⟨[group], forall_mem_singleton.mpr is, ?_, rfl, fun empty => ?_⟩
        · rw [joined_singleton]
          exact split
        · cases empty
      · obtain ⟨right, all, str, found, empty⟩ :=
          ih next compressed (by dsimp only [State.store]; omega)
            (by dsimp only [State.store]; omega)
        dsimp only [State.store] at str found empty
        have some : right ≠ [] := fun none => by
          have impossible := empty none
          omega
        refine ⟨group :: right, forall_mem_cons.mpr ⟨is, all⟩, ?_, ?_, nofun⟩
        · rw [joined_cons group some, append_assoc, cons_append, ← str]
          exact split
        · rw [length_cons]
          omega
      · omega

/-- How a loop that has met no zero groups yet ends. -/
inductive OpenEnd (left : Nat) (state final : State) (groups : List (List Byte)) : Prop
  | last (str : state.str = joined groups ++ final.str)
      (ended : final = ⟨storeGroups state.addr state.hextetsFound groups,
        state.hextetsFound + groups.length, -1, final.str⟩)
  | colon (str : state.str = joined groups ++ code ':' :: final.str)
      (all : groups.length = left)
      (ended : final = ⟨storeGroups state.addr state.hextetsFound groups,
        state.hextetsFound + groups.length, -1, final.str⟩)
  | mark (rest : List Byte) (str : state.str = joined groups ++ code ':' :: code ':' :: rest)
      (next : parseLoop (left - groups.length)
        ⟨storeGroups state.addr state.hextetsFound groups, state.hextetsFound + groups.length,
          (state.hextetsFound + groups.length : Nat), rest⟩ = .ok final)

theorem parseLoop_open_sound {left : Nat} {state final : State}
    (parsed : parseLoop (left + 1) state = .ok final) (none : state.zeroComp = -1) :
    ∃ groups, groups.length ≤ left + 1 ∧ (∀ group ∈ groups, Group group) ∧
      groups ≠ [] ∧ OpenEnd (left + 1) state final groups := by
  obtain ⟨same, rfl⟩ | ⟨group, is, ends⟩ := parseLoop_succ_eq_ok parsed
  · omega
  have one : ∀ other ∈ [group], Group other := forall_mem_singleton.mpr is
  have short : [group].length ≤ left + 1 := Nat.le_add_left 1 left
  obtain ⟨rest, split, rfl⟩ | ⟨rest, split, next⟩ | ⟨rest, split, _, next⟩ := ends
  · exact ⟨[group], short, one, nofun,
      .last (split.trans (by rw [joined_singleton]; rfl)) (by rw [← none]; rfl)⟩
  · cases left with
    | zero =>
      obtain rfl := Except.ok.inj next
      exact ⟨[group], short, one, nofun,
        .colon (split.trans (by rw [joined_singleton]; rfl)) rfl (by rw [← none]; rfl)⟩
    | succ left =>
      obtain ⟨groups, fewer, all, some, ended⟩ := parseLoop_open_sound next none
      have place : state.hextetsFound + 1 + groups.length =
          state.hextetsFound + (group :: groups).length := by
        rw [length_cons]
        omega
      refine ⟨group :: groups, Nat.succ_le_succ fewer, forall_mem_cons.mpr ⟨is, all⟩,
        cons_ne_nil _ _, ?_⟩
      have joins : ∀ tail, rest = joined groups ++ tail →
          state.str = joined (group :: groups) ++ tail := by
        intro tail str
        rw [joined_cons group some, append_assoc, cons_append, ← str]
        exact split
      cases ended with
      | last str ended => exact .last (joins _ str) (ended.trans (by rw [← place]; rfl))
      | colon str all ended =>
        exact .colon (joins _ str) (congrArg Nat.succ all) (ended.trans (by rw [← place]; rfl))
      | mark rest' str next =>
        refine .mark rest' (joins _ str) ?_
        rw [← place, length_cons, Nat.add_sub_add_right]
        exact next
  · exact ⟨[group], short, one, nofun, .mark rest (split.trans (by rw [joined_singleton])) next⟩
termination_by left

/-- A double colon once met stays where it is. -/
theorem parseLoop_zeroComp (parsed : parseLoop left state = .ok final)
    (compressed : 0 ≤ state.zeroComp) : final.zeroComp = state.zeroComp := by
  induction left generalizing state with
  | zero => exact congrArg State.zeroComp (Except.ok.inj parsed).symm
  | succ left ih =>
    obtain ⟨_, rfl⟩ | ⟨group, _, ends⟩ := parseLoop_succ_eq_ok parsed
    · rfl
    · obtain ⟨rest, _, rfl⟩ | ⟨rest, _, next⟩ | ⟨_, _, none, _⟩ := ends
      · rfl
      · have kept := ih next compressed
        exact kept
      · exact absurd compressed (Int.not_le.mpr none)

/-! ## The zero groups -/

theorem storeHextet_apply (place : Nat) (hextet : BitVec 16) (index : Nat) :
    storeHextet addr place hextet index =
      if index / 2 = place then byteOf hextet index else addr index := by
  unfold storeHextet byteOf
  by_cases second : index = place * 2 + 1
  · rw [second, update_self, if_pos (by omega), if_neg (by omega)]
  · rw [update_of_ne second]
    by_cases first : index = place * 2
    · rw [first, update_self, if_pos (by omega), if_pos (by omega)]
    · rw [update_of_ne first, if_neg (by omega)]

theorem byteOf_of_mod_eq (hextet : BitVec 16) {first second : Nat}
    (same : first % 2 = second % 2) : byteOf hextet first = byteOf hextet second := by
  unfold byteOf
  rw [same]

/-- The groups are stored in order, and nothing else is. -/
theorem storeGroups_apply (place : Nat) (groups : List (List Byte)) (index : Nat) :
    storeGroups addr place groups index =
      if place ≤ index / 2 ∧ index / 2 < place + groups.length then
        byteOf ((groups.map hextetOf).getD (index / 2 - place) 0) index
      else addr index := by
  induction groups generalizing addr place with
  | nil => exact (if_neg fun inside => by rw [length_nil] at inside; omega).symm
  | cons group groups ih =>
    rw [storeGroups, ih, storeHextet_apply, length_cons]
    by_cases behind : place + 1 ≤ index / 2 ∧ index / 2 < place + 1 + groups.length
    · rw [if_pos behind, if_pos (by omega),
        show index / 2 - place = index / 2 - (place + 1) + 1 by omega, map_cons,
        getD_cons_succ]
    · rw [if_neg behind]
      by_cases here : index / 2 = place
      · rw [if_pos here, if_pos (by omega), here, Nat.sub_self, map_cons, getD_cons_zero]
      · rw [if_neg here, if_neg (by omega)]

theorem addressOf_full (eight : groups.length = 8) :
    (range 16).map (storeGroups addr 0 groups) = addressOf (groups.map hextetOf) := by
  refine map_congr_left fun index listed => ?_
  have inside := mem_range.mp listed
  rw [storeGroups_apply, if_pos (by omega), Nat.sub_zero]

/-- The zero groups are inserted between the groups. -/
theorem addressOf_compressed {left right : List (List Byte)}
    (fewer : left.length + right.length ≤ 7) :
    (range 16).map (applyZeroComp (storeGroups addr 0 (left ++ right))
        (left.length + right.length) left.length) =
      addressOf (left.map hextetOf ++ (replicate (8 - (left.length + right.length)) 0 ++
        right.map hextetOf)) := by
  refine map_congr_left fun index listed => ?_
  have inside := mem_range.mp listed
  have leftLength : (left.map hextetOf).length = left.length := length_map _
  have zeroLength : (replicate (8 - (left.length + right.length)) (0 : BitVec 16)).length =
      8 - (left.length + right.length) := length_replicate
  unfold applyZeroComp
  dsimp only
  by_cases before : index / 2 < left.length
  · rw [if_neg (by omega), if_neg (by omega), storeGroups_apply, length_append,
      if_pos (by omega), Nat.sub_zero, map_append,
      getD_append _ _ _ _ (leftLength.symm ▸ before),
      getD_append _ _ _ _ (leftLength.symm ▸ before)]
  · have reached : (left.map hextetOf).length ≤ index / 2 := by omega
    rw [getD_append_right _ _ _ _ reached, leftLength]
    by_cases zero : index / 2 - left.length < 8 - (left.length + right.length)
    · rw [if_pos (by omega), getD_append _ _ _ _ (zeroLength.symm ▸ zero),
        getD_replicate _ zero, byteOf]
      split <;> rfl
    · rw [if_neg (by omega), if_pos (by omega), storeGroups_apply, length_append, if_pos (by
        omega), map_append, getD_append_right _ _ _ _ (by omega), getD_append_right _
        _ _ _ (by omega)]
      rw [byteOf_of_mod_eq _ (show _ = index % 2 by omega)]
      congr 2
      omega

/-! ## Addresses are parsed -/

variable {trail : List Byte}

theorem isHex_head_of_blank (blank : Blank trail) : ∀ c ∈ trail.head?, isHex c = false :=
  fun c first => isHex_of_isSpace (blank c (mem_of_mem_head? first))

theorem firstOf_blank_ne_colon (blank : Blank trail) : firstOf trail ≠ code ':' := by
  cases trail with
  | nil => decide
  | cons c trail =>
    intro colon
    have space := blank c mem_cons_self
    rw [show c = code ':' from colon] at space
    exact absurd space (by decide)

theorem joined_head (some : groups ≠ []) (all : ∀ group ∈ groups, Group group) (rest : List Byte) :
    ∃ c str, joined groups ++ rest = c :: str ∧ isHex c = true := by
  obtain ⟨group, groups, rfl⟩ := exists_cons_of_ne_nil some
  obtain ⟨is, _⟩ := forall_mem_cons.mp all
  obtain ⟨c, group, rfl⟩ := exists_cons_of_ne_nil is.some
  refine ⟨c, ?_⟩
  cases groups with
  | nil =>
    exact ⟨_, rfl, is.hex c mem_cons_self⟩
  | cons next groups =>
    exact ⟨_, rfl, is.hex c mem_cons_self⟩

theorem consumeStart_groups (some : groups ≠ []) (all : ∀ group ∈ groups, Group group)
    (rest : List Byte) :
    consumeStart (joined groups ++ rest) = .ok (-1, joined groups ++ rest) := by
  obtain ⟨c, str, starts, hex⟩ := joined_head some all rest
  have other : firstOf (joined groups ++ rest) ≠ code ':' := by
    intro colon
    rw [starts] at colon
    rw [show c = code ':' from colon] at hex
    cases hex
  unfold consumeStart
  rw [consumeChar_eq_none_iff.mpr other]

/-- The start of the string and the loop, with the groups that the loop may take. -/
def readGroups (limit : Nat) (addr : Nat → Byte) (str : List Byte) : Except QdfError State := do
  let (zeroComp, str) ← consumeStart str
  parseLoop limit { addr := addr, hextetsFound := 0, zeroComp := zeroComp, str := str }

theorem readGroups_full (more : Nat) (addr : Nat → Byte) (eight : groups.length = 8)
    (all : ∀ group ∈ groups, Group group) (blank : Blank trail) :
    readGroups (8 + more) addr (joined groups ++ trail) =
      .ok ⟨storeGroups addr 0 groups, 8, -1, trail⟩ := by
  have some : groups ≠ [] := fun none => by rw [none] at eight; cases eight
  have run := parseLoop_run more addr 0 (-1) some all (isHex_head_of_blank blank)
    (firstOf_blank_ne_colon blank)
  rw [eight] at run
  unfold readGroups
  rw [consumeStart_groups some all]
  exact run

theorem readGroups_compressed (more : Nat) (addr : Nat → Byte) {left right : List (List Byte)}
    (fewer : left.length + right.length ≤ 7) (all : ∀ group ∈ left ++ right, Group group)
    (blank : Blank trail) :
    readGroups (8 + more) addr (joined left ++ (code ':' :: code ':' :: joined right) ++ trail) =
      .ok ⟨storeGroups addr 0 (left ++ right), left.length + right.length, (left.length : Nat),
        trail⟩ := by
  have allLeft : ∀ group ∈ left, Group group := fun group listed =>
    all group (mem_append_left _ listed)
  have allRight : ∀ group ∈ right, Group group := fun group listed =>
    all group (mem_append_right _ listed)
  have behind := fun limit addr found (enough : right.length < limit) =>
    parseLoop_behind limit addr found enough allRight (isHex_head_of_blank blank)
      (firstOf_blank_ne_colon blank)
  unfold readGroups
  by_cases none : left = []
  · have last := behind (8 + more) addr 0 (by omega)
    rw [none, joined_nil, length_nil, nil_append]
    exact last
  · obtain ⟨others, limit⟩ : ∃ others, 8 + more = left.length + others :=
      ⟨8 + more - left.length, by omega⟩
    have last := behind others (storeGroups addr 0 left) (0 + left.length) (by omega)
    rw [Nat.zero_add] at last
    have mark := @parseLoop_mark others addr 0 (-1) left (joined right ++ trail) none allLeft
      (by decide)
    rw [Nat.zero_add, last, ← limit] at mark
    rw [append_assoc, consumeStart_groups none allLeft, storeGroups_append, Nat.zero_add]
    exact mark

/-- Behind the ninth colon a loop that might go on finds no group. -/
theorem readGroups_trailing (eight : groups.length = 8)
    (all : ∀ group ∈ groups, Group group) (blank : Blank trail) :
    readGroups 8 addr (joined groups ++ [code ':'] ++ trail) =
        .ok ⟨storeGroups addr 0 groups, 8, -1, trail⟩ ∧
      readGroups 9 addr (joined groups ++ [code ':'] ++ trail) = .error .failure := by
  have some : groups ≠ [] := fun none => by rw [none] at eight; cases eight
  have through := fun left => parseLoop_through left addr 0 (-1) some all
    (firstOf_blank_ne_colon blank)
  rw [eight] at through
  unfold readGroups
  rw [append_assoc, consumeStart_groups some all]
  refine ⟨through 0, (through 1).trans ?_⟩
  rw [parseLoop, consumeHextet_none (isHex_head_of_blank blank)]
  rfl

theorem address_head {core : List Byte} {hextets : List (BitVec 16)} (is : Address core hextets)
    (trail : List Byte) : ∀ c ∈ (core ++ trail).head?, isSpace c = false := by
  have notSpace : ∀ c : Byte, isHex c = true → isSpace c = false := fun c hex => by
    by_contra space
    rw [isHex_of_isSpace (eq_true_of_ne_false space)] at hex
    cases hex
  cases is with
  | @full groups eight all =>
    have some : groups ≠ [] := fun none => by rw [none] at eight; cases eight
    obtain ⟨c, str, starts, hex⟩ := joined_head some all trail
    intro first head
    rw [starts] at head
    exact Option.some.inj head ▸ notSpace c hex
  | @compressed left right fewer all =>
    intro first head
    by_cases none : left = []
    · rw [none] at head
      exact Option.some.inj head ▸ by decide
    · rw [append_assoc] at head
      obtain ⟨c, str, starts, hex⟩ := joined_head none
        (fun group listed => all group (mem_append_left _ listed))
        (code ':' :: code ':' :: joined right ++ trail)
      rw [starts] at head
      exact Option.some.inj head ▸ notSpace c hex

section Ends

variable {addr : Nat → Byte} {str : List Byte}

theorem ipv6Parse_eq_bind (str : List Byte) :
    ipv6Parse addr str = readGroups 8 addr (strLeftTrim str) >>= State.address := by
  unfold ipv6Parse readGroups
  cases consumeStart (strLeftTrim str) with
  | error _ => rfl
  | ok _ => rfl

theorem ipv6Parse_full {final : Nat → Byte} {trail : List Byte}
    (read : readGroups 8 addr (strLeftTrim str) = .ok ⟨final, 8, -1, trail⟩)
    (blank : Blank trail) : ipv6Parse addr str = .ok ((range 16).map final) := by
  have none : strLeftTrim trail = [] := (strLeftTrim_eq_nil_iff trail).mpr blank
  rw [ipv6Parse_eq_bind, read]
  change (if firstOf (strLeftTrim trail) ≠ 0 then _ else _) = _
  rw [none]
  rfl

theorem ipv6Parse_compressed {final : Nat → Byte} {found place : Nat} {trail : List Byte}
    (read : readGroups 8 addr (strLeftTrim str) = .ok ⟨final, found, (place : Nat), trail⟩)
    (fewer : found < 8) (blank : Blank trail) :
    ipv6Parse addr str = .ok ((range 16).map (applyZeroComp final found place)) := by
  have none : strLeftTrim trail = [] := (strLeftTrim_eq_nil_iff trail).mpr blank
  rw [ipv6Parse_eq_bind, read]
  change (if firstOf (strLeftTrim trail) ≠ 0 then _ else _) = _
  rw [none]
  rw [if_pos fewer]
  rfl

/-- What the checks behind the loop have found. -/
theorem ipv6Parse_eq_ok {bytes : List Byte} (parsed : ipv6Parse addr str = .ok bytes) :
    ∃ state, readGroups 8 addr (strLeftTrim str) = .ok state ∧
      firstOf (strLeftTrim state.str) = 0 ∧
      (state.hextetsFound < 8 ∧ 0 ≤ state.zeroComp ∨
        8 ≤ state.hextetsFound ∧ state.zeroComp < 0) := by
  rw [ipv6Parse_eq_bind] at parsed
  cases read : readGroups 8 addr (strLeftTrim str) with
  | error _ =>
    rw [read] at parsed
    cases parsed
  | ok state =>
    rw [read] at parsed
    refine ⟨state, rfl, ?_⟩
    change (if firstOf (strLeftTrim state.str) ≠ 0 then _ else _) = _ at parsed
    split at parsed
    · cases parsed
    · rename_i ended
      refine ⟨not_not.mp ended, ?_⟩
      split at parsed
      · rename_i fewer
        split at parsed
        · cases parsed
        · rename_i marked
          exact .inl ⟨fewer, Int.not_lt.mp marked⟩
      · rename_i all
        split at parsed
        · cases parsed
        · exact .inr ⟨Nat.not_lt.mp all, by omega⟩

end Ends

/-- An address is parsed to its bytes. -/
theorem ipv6Parse_of_denotes {text bytes : List Byte} (denotes : Denotes text bytes)
    (addr : Nat → Byte) : ipv6Parse addr text = .ok bytes := by
  obtain ⟨core, hextets, ⟨lead, trail, rfl, blankLead, blank⟩, is, rfl⟩ := denotes
  have trimmed := strLeftTrim_append blankLead (address_head is trail)
  cases is with
  | full eight all =>
    have read := readGroups_full 0 addr eight all blank
    rw [ipv6Parse_full (by rw [trimmed]; exact read) blank, addressOf_full addr eight]
  | compressed fewer all =>
    have read := readGroups_compressed 0 addr fewer all blank
    rw [ipv6Parse_compressed (by rw [trimmed]; exact read) (Nat.lt_succ_of_le fewer) blank,
      addressOf_compressed addr fewer]

/-- A loop that might take a ninth group ends well behind an address. -/
theorem readGroups_nine_of_denotes {text bytes : List Byte} (denotes : Denotes text bytes)
    (addr : Nat → Byte) : ∃ state, readGroups 9 addr (strLeftTrim text) = .ok state := by
  obtain ⟨core, hextets, ⟨lead, trail, rfl, blankLead, blank⟩, is, rfl⟩ := denotes
  rw [strLeftTrim_append blankLead (address_head is trail)]
  cases is with
  | full eight all => exact ⟨_, readGroups_full 1 addr eight all blank⟩
  | compressed fewer all => exact ⟨_, readGroups_compressed 1 addr fewer all blank⟩

/-! ## What is parsed is an address -/

/-- The loop takes an address, or eight groups and a ninth colon. -/
theorem address_or_trailing_of_readGroups {addr : Nat → Byte} {str : List Byte} {state : State}
    (read : readGroups 8 addr str = .ok state) (ends : state.hextetsFound < 8 ∧ 0 ≤ state.zeroComp ∨
      8 ≤ state.hextetsFound ∧ state.zeroComp < 0) :
    (∃ core hextets, str = core ++ state.str ∧ Address core hextets) ∨
      ∃ groups, groups.length = 8 ∧ (∀ group ∈ groups, Group group) ∧
        str = joined groups ++ [code ':'] ++ state.str := by
  unfold readGroups at read
  cases start : consumeStart str with
  | error _ =>
    rw [start] at read
    cases read
  | ok begun =>
    rw [start] at read
    obtain ⟨zeroComp, rest⟩ := begun
    change parseLoop 8 ⟨addr, 0, zeroComp, rest⟩ = .ok state at read
    unfold consumeStart at start
    cases first : consumeChar str (code ':') with
    | none =>
      rw [first] at start
      obtain ⟨rfl, rfl⟩ := Prod.mk.inj (Except.ok.inj start)
      obtain ⟨groups, fewer, all, _, ended⟩ := parseLoop_open_sound read rfl
      cases ended with
      | last split final =>
        have found : state.hextetsFound = 0 + groups.length :=
          congrArg State.hextetsFound final
        have unmarked : state.zeroComp = -1 := congrArg State.zeroComp final
        exact .inl ⟨_, _, split, .full (by omega) all⟩
      | colon split eight final =>
        refine .inr ⟨groups, eight, all, ?_⟩
        rw [append_assoc]
        exact split
      | mark rest' split next =>
        have marked : state.zeroComp = (0 + groups.length : Nat) :=
          parseLoop_zeroComp next (Int.natCast_nonneg _)
        obtain ⟨right, allRight, str, found, _⟩ :=
          parseLoop_behind_sound next (Int.natCast_nonneg _) (Int.le_refl _) (by dsimp only; omega)
        dsimp only at str found split
        refine .inl ⟨joined groups ++ (code ':' :: code ':' :: joined right), _, ?_,
          .compressed (by omega) fun group listed => ?_⟩
        · rw [split, str, append_assoc]
          rfl
        · exact (mem_append.mp listed).elim (all group) (allRight group)
    | some tail =>
      rw [first] at start
      dsimp only at start
      cases second : consumeChar tail (code ':') with
      | none =>
        rw [second] at start
        cases start
      | some tail' =>
        rw [second] at start
        obtain ⟨rfl, rfl⟩ := Prod.mk.inj (Except.ok.inj start)
        have marked : state.zeroComp = 0 := parseLoop_zeroComp read (Int.le_refl 0)
        obtain ⟨right, all, split, found, _⟩ :=
          parseLoop_behind_sound read (Int.le_refl 0) (Int.le_refl _) (by dsimp only; omega)
        dsimp only at split found
        refine .inl ⟨joined [] ++ (code ':' :: code ':' :: joined right), _, ?_,
          .compressed (by rw [length_nil]; omega) all⟩
        rw [(consumeChar_eq_some_iff (by decide)).mp first,
          (consumeChar_eq_some_iff (by decide)).mp second, split]
        rfl

theorem denotes_or_trailing_of_ok {text : CString} {addr : Nat → Byte} {bytes : List Byte}
    (parsed : ipv6Parse addr text.chars = .ok bytes) :
    (∃ bytes, Denotes text.chars bytes) ∨ Trailing text.chars := by
  obtain ⟨state, read, ended, ends⟩ := ipv6Parse_eq_ok parsed
  obtain ⟨lead, blankLead, split⟩ := exists_blank_append text.chars
  have blank : ∀ core, strLeftTrim text.chars = core ++ state.str → Blank state.str := by
    intro core taken
    refine (strLeftTrim_eq_nil_iff _).mp ((firstOf_eq_zero_iff fun nul => text.noNul ?_).mp ended)
    rw [split, taken]
    exact mem_append_right _ (mem_append_right _ ((dropWhile_sublist _).subset nul))
  obtain ⟨core, hextets, taken, is⟩ | ⟨groups, eight, all, taken⟩ :=
    address_or_trailing_of_readGroups read ends
  · exact .inl ⟨_, core, hextets, ⟨lead, state.str, by rw [← taken]; exact split, blankLead,
      blank core taken⟩, is, rfl⟩
  · exact .inr ⟨groups, eight, all, lead, state.str, by rw [← taken]; exact split, blankLead,
      blank _ taken⟩

/-- Eight groups and a ninth colon are parsed, and are no address. -/
theorem Trailing.parsed {text : List Byte} (trailing : Trailing text) (addr : Nat → Byte) :
    (∃ bytes, ipv6Parse addr text = .ok bytes) ∧ ¬∃ bytes, Denotes text bytes := by
  obtain ⟨groups, eight, all, lead, trail, rfl, blankLead, blank⟩ := trailing
  have trimmed : strLeftTrim (lead ++ (joined groups ++ [code ':'] ++ trail)) =
      joined groups ++ [code ':'] ++ trail := by
    refine strLeftTrim_append blankLead ?_
    rw [append_assoc]
    exact address_head (.full eight all) _
  obtain ⟨taken, failed⟩ := readGroups_trailing addr eight all blank
  refine ⟨⟨_, ipv6Parse_full (by rw [trimmed]; exact taken) blank⟩, fun ⟨bytes, denotes⟩ => ?_⟩
  obtain ⟨state, read⟩ := readGroups_nine_of_denotes denotes addr
  rw [trimmed, failed] at read
  cases read

/-! ## The parser and its grammar -/

/-- An address is parsed to its bytes, and other text is refused with `out_addr` as it was. -/
def Exact (text : List Byte) (addr : Nat → Byte) (outAddr : List Byte) : Prop :=
  (∀ bytes, Denotes text bytes → ipv6ParseTo outAddr addr text = (.ok (), bytes)) ∧
    ((¬∃ bytes, Denotes text bytes) →
      ∃ status, ipv6ParseTo outAddr addr text = (.error status, outAddr))

/-- The parser keeps to the grammar but for a ninth colon behind eight groups. -/
theorem parse_exact_iff_not_trailing (text : CString) (addr : Nat → Byte) (outAddr : List Byte) :
    Exact text.chars addr outAddr ↔ ¬Trailing text.chars := by
  constructor
  · intro exact trailing
    obtain ⟨⟨bytes, parsed⟩, none⟩ := trailing.parsed addr
    obtain ⟨status, refused⟩ := exact.2 none
    rw [ipv6ParseTo, parsed] at refused
    cases refused
  · intro ended
    refine ⟨fun bytes denotes => ?_, fun none => ?_⟩
    · rw [ipv6ParseTo, ipv6Parse_of_denotes denotes addr]
    · cases parsed : ipv6Parse addr text.chars with
      | error status => exact ⟨status, by rw [ipv6ParseTo, parsed]⟩
      | ok bytes =>
        exact absurd (denotes_or_trailing_of_ok parsed) (not_or.mpr ⟨none, ended⟩)

/-- The text of an example. -/
def chars (text : String) : List Byte := text.toList.map code

theorem not_exact_ninthColon :
    ¬∀ (text : CString) (addr : Nat → Byte) (outAddr : List Byte),
      Exact text.chars addr outAddr := by
  intro exact
  have digits : (['1', '2', '3', '4', '5', '6', '7', '8'].all fun c => isHex (code c)) = true := by
    decide
  have groups : ∀ c ∈ ['1', '2', '3', '4', '5', '6', '7', '8'], Group [code c] := fun c listed =>
    ⟨cons_ne_nil _ _, (show 1 ≤ 4 by decide),
      forall_mem_singleton.mpr (all_eq_true.mp digits c listed)⟩
  have trailing : Trailing (chars "1:2:3:4:5:6:7:8:") :=
    ⟨['1', '2', '3', '4', '5', '6', '7', '8'].map fun c => [code c], rfl,
      forall_mem_map.mpr groups, [], [], by decide, (fun _ listed => nomatch listed),
      fun _ listed => nomatch listed⟩
  obtain ⟨⟨bytes, parsed⟩, none⟩ := trailing.parsed fun _ => 0
  obtain ⟨status, refused⟩ :=
    (exact ⟨chars "1:2:3:4:5:6:7:8:", by decide⟩ (fun _ => 0) []).2 none
  cases refused

end Sm8650.Qdf.Ipv6
