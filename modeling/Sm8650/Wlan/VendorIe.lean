import Sm8650.Data.Words

/-!
# Looking up a vendor element

A buffer of elements is searched for an element with a given ID whose body starts with a given
OUI. The search compares the OUI with the bytes behind the element header, whether they belong
to the element or not.

Every read goes through `readBytes`, which fails outside the buffer.

Source: `wlan_utility.c`.
-/

namespace Sm8650.Wlan.VendorIe

open Data.Words List

/-! ## The code -/

/-- `count` bytes from `pos` on. -/
def readBytes (ie : List Byte) (pos count : Nat) : Option (List Byte) :=
  if pos + count ≤ ie.length then some ((ie.drop pos).take count) else none

/-- The loop of `wlan_is_ie_valid` with `ieLen` bytes left. -/
def isIeValidFrom (ie : List Byte) : Nat → Nat → Nat → Option Bool
  | 0, _, _ => some true
  | fuel + 1, ieLen, ptr =>
    if ieLen = 0 then some true
    else if ieLen < 2 then some false
    else do
      let header ← readBytes ie ptr 2
      let elen := (header.getD 1 0).toNat
      if elen > ieLen - 2 then some false
      else isIeValidFrom ie fuel (ieLen - 2 - elen) (ptr + 2 + elen)

/-- `wlan_is_ie_valid`. -/
def wlanIsIeValid (ie : List Byte) : Option Bool :=
  isIeValidFrom ie ie.length ie.length 0

/-- The loop of `wlan_get_ie_ptr_from_eid_n_oui` with `left` bytes left: nothing if a read
fails, else the element that is found, by its place. -/
def iePtrFrom (eid : Byte) (oui : Option (List Byte)) (ie : List Byte) :
    Nat → Nat → Nat → Option (Option Nat)
  | 0, _, _ => some none
  | fuel + 1, left, ptr =>
    if left ≥ 2 then do
      let header ← readBytes ie ptr 2
      let elemLen := (header.getD 1 0).toNat
      let left := left - 2
      if elemLen > left then some none
      else if eid = header.getD 0 0 then
        match oui with
        | none => some (some ptr)
        | some oui =>
          if oui.length > left then some none
          else do
            let bytes ← readBytes ie (ptr + 2) oui.length
            if bytes = oui then some (some ptr)
            else iePtrFrom eid (some oui) ie fuel (left - elemLen) (ptr + (elemLen + 2))
      else iePtrFrom eid oui ie fuel (left - elemLen) (ptr + (elemLen + 2))
    else some none

/-- `wlan_get_ie_ptr_from_eid_n_oui`. -/
def wlanGetIePtrFromEidNOui (eid : Byte) (oui : Option (List Byte)) (ie : List Byte) :
    Option (Option Nat) :=
  iePtrFrom eid oui ie ie.length ie.length 0

/-! ## Elements -/

/-- An element: its ID and the bytes that its length field counts. -/
structure Elem where
  id : Byte
  body : List Byte
  short : body.length < 256

def Elem.bytes (elem : Elem) : List Byte :=
  elem.id :: BitVec.ofNat 8 elem.body.length :: elem.body

/-- Elements one behind the other. -/
def bytesOf (elems : List Elem) : List Byte := elems.flatMap Elem.bytes

@[simp]
theorem bytesOf_nil : bytesOf [] = [] :=
  rfl

@[simp]
theorem bytesOf_cons (elem : Elem) (elems : List Elem) :
    bytesOf (elem :: elems) = elem.bytes ++ bytesOf elems :=
  flatMap_cons

theorem Elem.length_bytes (elem : Elem) : elem.bytes.length = elem.body.length + 2 := rfl

theorem Elem.toNat_length (elem : Elem) :
    (BitVec.ofNat 8 elem.body.length).toNat = elem.body.length := by
  exact Nat.mod_eq_of_lt elem.short

/-- The bytes do not start with a complete element. -/
def Incomplete (tail : List Byte) : Prop :=
  tail.length < 2 ∨ tail.length - 2 < (tail.getD 1 0).toNat

/-- The elements of the longest well-formed part at the head of a buffer, and what is left. -/
structure Split (ie : List Byte) (elems : List Elem) (tail : List Byte) : Prop where
  bytes : ie = bytesOf elems ++ tail
  incomplete : Incomplete tail

/-- Every buffer starts with a longest sequence of complete elements. -/
theorem exists_split (ie : List Byte) : ∃ elems tail, Split ie elems tail := by
  induction size : ie.length using Nat.strong_induction_on generalizing ie with
  | _ size ih =>
    by_cases incomplete : Incomplete ie
    · exact ⟨[], ie, rfl, incomplete⟩
    · match ie, incomplete with
      | [], incomplete => exact absurd (.inl Nat.two_pos) incomplete
      | [_], incomplete => exact absurd (.inl Nat.one_lt_two) incomplete
      | id :: len :: rest, incomplete =>
        have enough : len.toNat ≤ rest.length :=
          Nat.le_of_not_lt fun longer => incomplete (.inr longer)
        have taken : (rest.take len.toNat).length = len.toNat := length_take_of_le enough
        obtain ⟨elems, tail, split⟩ := ih (rest.drop len.toNat).length
          (by rw [← size, length_drop, length_cons, length_cons]; omega) _ rfl
        refine ⟨⟨id, rest.take len.toNat, taken.trans_lt len.isLt⟩ :: elems, tail, ?_,
          split.incomplete⟩
        rw [bytesOf_cons, append_assoc, ← split.bytes]
        unfold Elem.bytes
        dsimp only
        rw [taken, BitVec.ofNat_toNat, BitVec.setWidth_eq, cons_append, cons_append,
          take_append_drop]

/-! ## What the search is to find -/

/-- The element has the ID and its own body starts with the OUI. -/
def Elem.Matches (eid : Byte) (oui : List Byte) (elem : Elem) : Prop :=
  elem.id = eid ∧ oui <+: elem.body

instance (eid : Byte) (oui : List Byte) (elem : Elem) : Decidable (elem.Matches eid oui) :=
  inferInstanceAs (Decidable (_ ∧ _))

/-- The place of the first element that matches; the first element is at `ptr`. -/
def firstMatch (eid : Byte) (oui : List Byte) : List Elem → Nat → Option Nat
  | [], _ => none
  | elem :: elems, ptr =>
    if elem.Matches eid oui then some ptr
    else firstMatch eid oui elems (ptr + (elem.body.length + 2))

/-- The search stays in the buffer and finds the first element of the longest well-formed part
that matches, or nothing where there is none; in a valid buffer that part is the whole. -/
structure FindsFirst (eid : Byte) (oui ie : List Byte) : Prop where
  valid : wlanIsIeValid ie = some true → ∃ elems, ie = bytesOf elems ∧
    wlanGetIePtrFromEidNOui eid (some oui) ie = some (firstMatch eid oui elems 0)
  any : ∀ elems tail, Split ie elems tail →
    wlanGetIePtrFromEidNOui eid (some oui) ie = some (firstMatch eid oui elems 0)

/-- Before every match there is an element with the ID whose body is too short for the OUI, and
the bytes that follow its body complete the OUI. -/
def Completed (eid : Byte) (oui ie : List Byte) : Prop :=
  ∃ elems tail, Split ie elems tail ∧
    ∃ before elem after, elems = before ++ elem :: after ∧
      (∀ earlier ∈ before, ¬earlier.Matches eid oui) ∧
      elem.id = eid ∧ elem.body.length < oui.length ∧
      oui <+: elem.body ++ (bytesOf after ++ tail)

variable {eid : Byte} {elems : List Elem}

theorem le_of_firstMatch {oui : List Byte} {ptr place : Nat}
    (found : firstMatch eid oui elems ptr = some place) : ptr ≤ place := by
  induction elems generalizing ptr with
  | nil => cases found
  | cons elem elems ih =>
    rw [firstMatch] at found
    split at found
    · exact Nat.le_of_eq (Option.some.inj found)
    · exact Nat.le_trans (Nat.le_add_right _ _) (ih found)

/-! ## What the search finds -/

theorem readBytes_append (front middle behind : List Byte) {count : Nat}
    (length : middle.length = count) :
    readBytes (front ++ (middle ++ behind)) front.length count = some middle := by
  have enough : front.length + count ≤ (front ++ (middle ++ behind)).length := by
    rw [length_append, length_append]
    omega
  unfold readBytes
  rw [if_pos enough, drop_left, take_left' length]

/-- The bytes behind the element header start with the OUI. -/
def Elem.LooksLike (eid : Byte) (oui : List Byte) (elem : Elem) (behind : List Byte) : Prop :=
  elem.id = eid ∧ oui <+: elem.body ++ behind

instance (eid : Byte) (oui : List Byte) (elem : Elem) (behind : List Byte) :
    Decidable (elem.LooksLike eid oui behind) :=
  inferInstanceAs (Decidable (_ ∧ _))

/-- The first element that the search takes for a match. -/
def firstLike (eid : Byte) (oui tail : List Byte) : List Elem → Nat → Option Nat
  | [], _ => none
  | elem :: elems, ptr =>
    if elem.LooksLike eid oui (bytesOf elems ++ tail) then some ptr
    else firstLike eid oui tail elems (ptr + (elem.body.length + 2))

theorem Elem.Matches.looksLike {oui : List Byte} {elem : Elem} (found : elem.Matches eid oui)
    (behind : List Byte) : elem.LooksLike eid oui behind :=
  ⟨found.1, found.2.trans (prefix_append _ _)⟩

/-- Where too few bytes are left for the OUI, no later element looks like it either. -/
theorem firstLike_of_long {oui tail : List Byte}
    (long : (bytesOf elems ++ tail).length < oui.length + 2) (ptr : Nat) :
    firstLike eid oui tail elems ptr = none := by
  induction elems generalizing ptr with
  | nil => rfl
  | cons elem elems ih =>
    rw [bytesOf_cons, append_assoc, length_append, elem.length_bytes] at long
    have unlike : ¬elem.LooksLike eid oui (bytesOf elems ++ tail) := by
      intro like
      have fits := like.2.length_le
      rw [length_append] at fits
      omega
    rw [firstLike, if_neg unlike]
    exact ih (by omega) _

/-! ## Walking over the elements -/

theorem length_bytesOf_cons (elem : Elem) (elems : List Elem) (tail : List Byte) :
    (bytesOf (elem :: elems) ++ tail).length =
      elem.body.length + 2 + (bytesOf elems ++ tail).length := by
  rw [bytesOf_cons, append_assoc, length_append, elem.length_bytes]

theorem length_append_bytes (front : List Byte) (elem : Elem) :
    (front ++ elem.bytes).length = front.length + (elem.body.length + 2) :=
  length_append

theorem append_bytesOf_cons (front tail : List Byte) (elem : Elem) (elems : List Elem) :
    front ++ (bytesOf (elem :: elems) ++ tail) =
      (front ++ elem.bytes) ++ (bytesOf elems ++ tail) := by
  rw [bytesOf_cons, append_assoc, append_assoc]

theorem readHeader_cons (front tail : List Byte) (elem : Elem) (elems : List Elem) :
    readBytes (front ++ (bytesOf (elem :: elems) ++ tail)) front.length 2 =
      some [elem.id, BitVec.ofNat 8 elem.body.length] := by
  rw [bytesOf_cons, append_assoc]
  exact readBytes_append front [elem.id, BitVec.ofNat 8 elem.body.length]
    (elem.body ++ (bytesOf elems ++ tail)) rfl

/-- The bytes behind the header of the element. -/
theorem readBody_cons (front tail : List Byte) (elem : Elem) (elems : List Elem) {count : Nat}
    (inside : count ≤ (elem.body ++ (bytesOf elems ++ tail)).length) :
    readBytes (front ++ (bytesOf (elem :: elems) ++ tail)) (front.length + 2) count =
      some ((elem.body ++ (bytesOf elems ++ tail)).take count) := by
  have read := readBytes_append (front ++ [elem.id, BitVec.ofNat 8 elem.body.length])
    ((elem.body ++ (bytesOf elems ++ tail)).take count)
    ((elem.body ++ (bytesOf elems ++ tail)).drop count) (length_take_of_le inside)
  rw [take_append_drop, append_assoc, length_append] at read
  rw [bytesOf_cons, append_assoc]
  exact read

variable {tail : List Byte}

/-- A header without its body ends the walk, and so does a lone byte. -/
theorem readHeader_incomplete (front : List Byte) (long : 2 ≤ tail.length) :
    ∃ id len, readBytes (front ++ tail) front.length 2 = some [id, len] ∧ tail.getD 1 0 = len := by
  match tail, long with
  | id :: len :: rest, _ => exact ⟨id, len, readBytes_append front [id, len] rest rfl, rfl⟩

/-- `wlan_is_ie_valid` accepts the bytes when no element is cut off. -/
theorem isIeValidFrom_eq (front tail : List Byte) (elems : List Elem) (fuel : Nat)
    (incomplete : Incomplete tail) (enough : (bytesOf elems ++ tail).length ≤ fuel) :
    isIeValidFrom (front ++ (bytesOf elems ++ tail)) fuel (bytesOf elems ++ tail).length
        front.length = some tail.isEmpty := by
  induction elems generalizing front fuel with
  | nil =>
    rw [bytesOf_nil, nil_append] at enough ⊢
    cases fuel with
    | zero =>
      rw [eq_nil_of_length_eq_zero (Nat.le_zero.mp enough)]
      rfl
    | succ fuel =>
      rw [isIeValidFrom]
      by_cases none : tail.length = 0
      · rw [eq_nil_of_length_eq_zero none]
        rfl
      · have some : tail.isEmpty = false := by
          rw [isEmpty_eq_false_iff]
          exact fun empty => none (congrArg length empty)
        rw [if_neg none, some]
        by_cases long : 2 ≤ tail.length
        · obtain ⟨id, len, header, counted⟩ := readHeader_incomplete front long
          have cut := incomplete.resolve_left (Nat.not_lt.mpr long)
          rw [counted] at cut
          rw [if_neg (Nat.not_lt.mpr long), header]
          exact if_pos cut
        · exact if_pos (Nat.lt_of_not_le long)
  | cons elem elems ih =>
    have later := ih (front ++ elem.bytes)
    rw [length_bytesOf_cons] at enough ⊢
    rw [← append_bytesOf_cons, length_append_bytes] at later
    cases fuel with
    | zero => omega
    | succ fuel =>
      rw [isIeValidFrom, if_neg (by omega), if_neg (by omega), readHeader_cons]
      dsimp only [bind, Option.bind]
      have left : elem.body.length + 2 + (bytesOf elems ++ tail).length - 2 -
          elem.body.length = (bytesOf elems ++ tail).length := by omega
      have place : front.length + 2 + elem.body.length =
          front.length + (elem.body.length + 2) := by omega
      rw [getD_cons_succ, getD_cons_zero, elem.toNat_length, if_neg (by omega), left, place]
      exact later fuel (by omega)

theorem wlanIsIeValid_eq {ie : List Byte} (split : Split ie elems tail)
    : wlanIsIeValid ie = some tail.isEmpty := by
  rw [split.bytes]
  exact isIeValidFrom_eq [] tail elems _ split.incomplete (Nat.le_refl _)

theorem iePtrFrom_eq (eid : Byte) (oui front tail : List Byte) (elems : List Elem) (fuel : Nat)
    (incomplete : Incomplete tail) (enough : (bytesOf elems ++ tail).length ≤ fuel) :
    iePtrFrom eid (some oui) (front ++ (bytesOf elems ++ tail)) fuel
        (bytesOf elems ++ tail).length front.length =
      some (firstLike eid oui tail elems front.length) := by
  induction elems generalizing front fuel with
  | nil =>
    cases fuel with
    | zero => rfl
    | succ fuel =>
      rw [bytesOf_nil, nil_append, iePtrFrom]
      by_cases long : 2 ≤ tail.length
      · obtain ⟨id, len, header, counted⟩ := readHeader_incomplete front long
        have cut := incomplete.resolve_left (Nat.not_lt.mpr long)
        rw [counted] at cut
        rw [if_pos long, header]
        exact if_pos cut
      · exact if_neg long
  | cons elem elems ih =>
    have later := ih (front ++ elem.bytes)
    rw [length_bytesOf_cons] at enough ⊢
    rw [← append_bytesOf_cons, length_append_bytes] at later
    cases fuel with
    | zero => omega
    | succ fuel =>
      have left : elem.body.length + 2 + (bytesOf elems ++ tail).length - 2 =
          elem.body.length + (bytesOf elems ++ tail).length := by omega
      have rest : elem.body.length + (bytesOf elems ++ tail).length - elem.body.length =
          (bytesOf elems ++ tail).length :=
        Nat.add_sub_cancel_left _ _
      rw [iePtrFrom, if_pos (by omega), readHeader_cons]
      dsimp only [bind, Option.bind]
      rw [getD_cons_succ, getD_cons_zero, getD_cons_zero, elem.toNat_length, left,
        if_neg (by omega), rest, later fuel (by omega)]
      by_cases same : eid = elem.id
      · rw [if_pos same]
        by_cases long : oui.length > elem.body.length + (bytesOf elems ++ tail).length
        · rw [if_pos long, firstLike_of_long (by rw [length_bytesOf_cons]; omega)]
        · have inside : oui.length ≤ (elem.body ++ (bytesOf elems ++ tail)).length := by
            rw [length_append]
            omega
          rw [if_neg long, readBody_cons front tail elem elems inside]
          dsimp only
          rw [firstLike]
          by_cases like : oui <+: elem.body ++ (bytesOf elems ++ tail)
          · rw [if_pos (prefix_iff_eq_take.mp like).symm, if_pos ⟨same.symm, like⟩]
          · rw [if_neg fun taken => like (prefix_iff_eq_take.mpr taken.symm),
              if_neg fun found => like found.2]
      · have unlike : ¬elem.LooksLike eid oui (bytesOf elems ++ tail) :=
          fun like => same like.1.symm
        rw [if_neg same, firstLike, if_neg unlike]

theorem wlanGetIePtr_eq {oui ie : List Byte} (split : Split ie elems tail) :
    wlanGetIePtrFromEidNOui eid (some oui) ie = some (firstLike eid oui tail elems 0) := by
  rw [split.bytes]
  exact iePtrFrom_eq eid oui [] tail elems _ split.incomplete (Nat.le_refl _)

/-- The first element that looks like a match is one unless the bytes behind a short element
complete the OUI first. -/
theorem firstLike_eq_iff (eid : Byte) (oui tail : List Byte) (elems : List Elem) (ptr : Nat) :
    firstLike eid oui tail elems ptr = firstMatch eid oui elems ptr ↔
      ¬∃ before elem after, elems = before ++ elem :: after ∧
        (∀ earlier ∈ before, ¬earlier.Matches eid oui) ∧
        elem.id = eid ∧ elem.body.length < oui.length ∧
        oui <+: elem.body ++ (bytesOf after ++ tail) := by
  induction elems generalizing ptr with
  | nil =>
    refine iff_of_true rfl ?_
    rintro ⟨before, elem, after, impossible, _⟩
    exact absurd (congrArg length impossible) (by rw [length_append]; simp)
  | cons elem elems ih =>
    rw [firstLike, firstMatch]
    by_cases found : elem.Matches eid oui
    · rw [if_pos found, if_pos (found.looksLike _)]
      refine iff_of_true rfl ?_
      rintro ⟨before, other, after, same, unmatched, _, short, _⟩
      rcases before with _ | ⟨first, before⟩
      · obtain ⟨rfl, _⟩ := cons.inj same
        exact absurd found.2.length_le (Nat.not_le.mpr short)
      · obtain ⟨rfl, _⟩ := cons.inj same
        exact unmatched elem mem_cons_self found
    · rw [if_neg found]
      by_cases like : elem.LooksLike eid oui (bytesOf elems ++ tail)
      · rw [if_pos like]
        refine iff_of_false ?_ (not_not.mpr ?_)
        · intro same
          have later := le_of_firstMatch same.symm
          omega
        · refine ⟨[], elem, elems, rfl, fun _ listed => absurd listed not_mem_nil, like.1,
            ?_, like.2⟩
          by_contra long
          have own : oui <+: elem.body := by
            have cut := prefix_iff_eq_take.mp like.2
            rw [take_append_of_le_length (Nat.not_lt.mp long)] at cut
            exact prefix_iff_eq_take.mpr cut
          exact found ⟨like.1, own⟩
      · rw [if_neg like, ih]
        refine not_congr ⟨?_, ?_⟩
        · rintro ⟨before, other, after, rfl, unmatched, completed⟩
          exact ⟨elem :: before, other, after, rfl,
            forall_mem_cons.mpr ⟨found, unmatched⟩, completed⟩
        · rintro ⟨before, other, after, same, unmatched, id, short, completed⟩
          rcases before with _ | ⟨first, before⟩
          · obtain ⟨rfl, rfl⟩ := cons.inj same
            exact absurd ⟨id, completed⟩ like
          · obtain ⟨_, rest⟩ := cons.inj same
            exact ⟨before, other, after, rest, (forall_mem_cons.mp unmatched).2, id, short,
              completed⟩

/-- The search finds what it is to find exactly where no bytes behind a short element are taken
for the rest of the OUI. -/
theorem findsFirst_iff (eid : Byte) (oui ie : List Byte) :
    FindsFirst eid oui ie ↔ ¬Completed eid oui ie := by
  constructor
  · rintro finds ⟨elems, tail, split, completed⟩
    have same := finds.any elems tail split
    rw [wlanGetIePtr_eq split] at same
    exact (firstLike_eq_iff eid oui tail elems 0).mp (Option.some.inj same) completed
  · intro clear
    have any : ∀ elems tail, Split ie elems tail →
        wlanGetIePtrFromEidNOui eid (some oui) ie = some (firstMatch eid oui elems 0) := by
      intro elems tail split
      rw [wlanGetIePtr_eq split, (firstLike_eq_iff eid oui tail elems 0).mpr fun completed =>
        clear ⟨elems, tail, split, completed⟩]
    refine ⟨fun accepted => ?_, any⟩
    obtain ⟨elems, tail, split⟩ := exists_split ie
    rw [wlanIsIeValid_eq split, Option.some.injEq, List.isEmpty_iff] at accepted
    subst accepted
    exact ⟨elems, split.bytes.trans (List.append_nil _), any elems [] split⟩

/-- The second element completes the OUI behind the one byte of the first. -/
theorem not_findsFirst_completed : ¬FindsFirst 221 [0, 1, 0] [221, 1, 0, 1, 0] := by
  intro finds
  have split : Split [221, 1, 0, 1, 0] [⟨221, [0], by decide⟩, ⟨1, [], by decide⟩] [] :=
    ⟨rfl, .inl Nat.two_pos⟩
  exact absurd (finds.any _ _ split) (by decide)

end Sm8650.Wlan.VendorIe
