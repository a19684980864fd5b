import Mathlib.Data.List.GetD
import Sm8650.Crypto.Mmie

/-!
# Replays of management frames

A sender protects frames with consecutive packet numbers and the network delivers some
of them, in any order and as often as it likes. What the receiver accepts is compared
with what it should: every frame that is newer than all it has accepted, and no other.
-/

namespace Sm8650.Crypto

open List

/-! ## One frame -/

/-- The network changes some of the bits that are not authenticated. -/
def changeFlags (flags : Byte) (frame : List Byte) : List Byte :=
  frame.set 1 (frame.getD 1 0 ^^^ (flags &&& maskedFc1))

section Flags

variable {flags : Byte} {frame : List Byte}

@[simp]
theorem length_changeFlags : (changeFlags flags frame).length = frame.length :=
  length_set

theorem drop_changeFlags {count : Nat} (behind : 1 < count) :
    (changeFlags flags frame).drop count = frame.drop count :=
  drop_set_of_lt behind

theorem fc0_changeFlags : (changeFlags flags frame).getD 0 0 = frame.getD 0 0 := by
  rw [changeFlags, getD_eq_getElem?_getD, getElem?_set_ne (by decide), getD_eq_getElem?_getD]

theorem fc1_changeFlags (long : 1 < frame.length) :
    (changeFlags flags frame).getD 1 0 &&& ~~~maskedFc1 = frame.getD 1 0 &&& ~~~maskedFc1 := by
  have changed : (changeFlags flags frame).getD 1 0 = frame.getD 1 0 ^^^ (flags &&& maskedFc1) := by
    rw [changeFlags, getD_eq_getElem?_getD, getElem?_set_self long, Option.getD_some]
  rw [changed]
  ext i inside
  simp only [BitVec.getElem_and, BitVec.getElem_xor, BitVec.getElem_not]
  cases (frame.getD 1 0)[i] <;> cases flags[i] <;> cases maskedFc1[i] <;> rfl

end Flags

section Frame

variable {type : IgtkType} {key : IgtkKey} {bfrm mic : List Byte} {flags : Byte}

theorem length_mmieHead : (mmieHead type key).length = 10 := by
  simp [mmieHead, key.keytsc.length_bytes]

/-- The frame as it is delivered. -/
def onAir (type : IgtkType) (key : IgtkKey) (bfrm mic : List Byte) (flags : Byte) : List Byte :=
  changeFlags flags (bfrm ++ mmieHead type key ++ mic)

theorem length_onAir (length : mic.length = micLen type) :
    (onAir type key bfrm mic flags).length = bfrm.length + (10 + micLen type) := by
  unfold onAir
  rw [length_changeFlags, length_append, length_append, length_mmieHead, length, Nat.add_assoc]

theorem mmie_onAir (long : frameHdrLen ≤ bfrm.length) (length : mic.length = micLen type) :
    mmie type (onAir type key bfrm mic flags) = mmieHead type key ++ mic := by
  have header : 1 < frameHdrLen := by decide
  unfold mmie
  rw [length_onAir length, Nat.add_sub_cancel, onAir, drop_changeFlags (by omega),
    append_assoc, drop_left]

theorem elementId_mmieHead : (mmieHead type key ++ mic).getD 0 0 = wlanElemidMmie := rfl

theorem keyId_mmieHead {keyid : Nat} (inRange : keyid < wlanCryptoMaxIgtkKeyIdx)
    (keyix : key.keyix = BitVec.ofNat 16 (wlanCryptoMaxKeyIdx + keyid)) :
    mmieKeyId (mmieHead type key ++ mic) = wlanCryptoMaxKeyIdx + keyid := by
  change 256 * ((key.keyix >>> 8).setWidth 8).toNat + (key.keyix.setWidth 8).toNat = _
  have small : keyid = 0 ∨ keyid = 1 := by
    unfold wlanCryptoMaxIgtkKeyIdx at inRange
    omega
  rw [keyix]
  rcases small with rfl | rfl
  · rfl
  · rfl

theorem read_mmieHead : Counter.read (mmieHead type key ++ mic) 4 = key.keytsc := by
  obtain ⟨keylen, keyix, keyval, ⟨bytes, length⟩, keyrsc⟩ := key
  rcases bytes with _ | ⟨b0, _ | ⟨b1, _ | ⟨b2, _ | ⟨b3, _ | ⟨b4, _ | ⟨b5, rest⟩⟩⟩⟩⟩⟩
  all_goals simp only [length_cons, length_nil] at length
  any_goals omega
  have nothing : rest = [] := eq_nil_of_length_eq_zero (by omega)
  subst nothing
  rfl

theorem mic_mmieHead (length : mic.length = micLen type) :
    ((mmieHead type key ++ mic).drop 10).take (micLen type) = mic := by
  rw [drop_left' length_mmieHead, ← length, take_length]

theorem addr2_onAir (long : frameHdrLen ≤ bfrm.length) :
    addr2 (onAir type key bfrm mic flags) = addr2 bfrm := by
  unfold frameHdrLen at long
  unfold addr2 onAir
  rw [drop_changeFlags (by decide), append_assoc, drop_append_of_le_length (by omega),
    take_append_of_le_length (by rw [length_drop]; omega)]

/-- Both sides put the same additional data together. -/
theorem aad_onAir (long : frameHdrLen ≤ bfrm.length) :
    receivedAad (onAir type key bfrm mic flags) = sentAad bfrm := by
  unfold frameHdrLen at long
  have fc0 : (onAir type key bfrm mic flags).getD 0 0 = bfrm.getD 0 0 := by
    rw [onAir, fc0_changeFlags, append_assoc, getD_append _ _ _ _ (by omega)]
  have fc1 : (onAir type key bfrm mic flags).getD 1 0 &&& ~~~maskedFc1 =
      bfrm.getD 1 0 &&& ~~~maskedFc1 := by
    rw [onAir, fc1_changeFlags (by simp only [length_append]; omega), append_assoc,
      getD_append _ _ _ _ (by omega)]
  have addresses : ((onAir type key bfrm mic flags).drop 4).take 18 =
      (bfrm.drop 4).take 6 ++ addr2 bfrm ++ (bfrm.drop 16).take 6 := by
    rw [onAir, drop_changeFlags (by decide), append_assoc, drop_append_of_le_length (by omega),
      take_append_of_le_length (by rw [length_drop]; omega)]
    have two : (bfrm.drop 10).take 12 = addr2 bfrm ++ (bfrm.drop 16).take 6 := by
      rw [addr2, show (12 : Nat) = 6 + 6 from rfl, take_add, drop_drop]
    rw [show (18 : Nat) = 6 + 12 from rfl, take_add, drop_drop, two, append_assoc]
  unfold receivedAad sentAad
  rw [fc0, fc1, addresses]
  simp

/-- Both sides authenticate the same body. -/
theorem body_onAir (long : frameHdrLen ≤ bfrm.length) (length : mic.length = micLen type)
    (short : bfrm.length + (10 + micLen type) < 2 ^ 16) :
    (((onAir type key bfrm mic flags).drop frameHdrLen).take
        ((onAir type key bfrm mic flags).length % 2 ^ 16 - frameHdrLen)).take
          ((onAir type key bfrm mic flags).length % 2 ^ 16 - frameHdrLen - micLen type) =
      bfrm.drop frameHdrLen ++ mmieHead type key := by
  rw [length_onAir length, take_take, onAir, drop_changeFlags (by decide), append_assoc,
    drop_append_of_le_length long, ← append_assoc]
  apply take_left'
  rw [length_append, length_drop, length_mmieHead]
  omega

end Frame

/-! ## Sender and receiver -/

/-- A key of a known type is installed under an identifier. -/
structure Installed (keys : CryptoKeys) (keyid : Nat) (key : IgtkKey) : Prop where
  inRange : keyid < wlanCryptoMaxIgtkKeyIdx
  known : keys.igtkKeyType ≠ .other
  found : keys.igtkKey keyid = some key
  keyix : key.keyix = BitVec.ofNat 16 (wlanCryptoMaxKeyIdx + keyid)

/-- Two sides have the same key. -/
structure SameKey (first second : IgtkKey) : Prop where
  keylen : first.keylen = second.keylen
  keyix : first.keyix = second.keyix
  keyval : first.keyval = second.keyval

theorem Installed.replaced {keys : CryptoKeys} {keyid : Nat} {key other : IgtkKey}
    (installed : Installed keys keyid key) (same : SameKey other key) :
    Installed (keys.setKey keyid other) keyid other :=
  ⟨installed.inRange, installed.known, if_pos rfl, same.keyix.trans installed.keyix⟩

section Mac

variable {prims : MacPrimitives} {type : IgtkType} {first second : IgtkKey}

theorem computeMic_known (known : type ≠ .other) (frame : List Byte) (pn : Counter)
    (data : List Byte) : ∃ mic, computeMic prims type first frame pn data = some mic := by
  cases type with
  | aesCmac | aesCmac256 | aesGmac | aesGmac256 => exact ⟨_, rfl⟩
  | other => exact absurd rfl known

/-- The MIC is a function of the key, the second address, the counter and the data. -/
theorem computeMic_congr (same : SameKey first second) {frame other : List Byte}
    (sameAddr : addr2 frame = addr2 other) (pn : Counter) (data : List Byte) :
    computeMic prims type first frame pn data = computeMic prims type second other pn data := by
  unfold computeMic gmacNonce
  rw [same.keylen, same.keyval, sameAddr]

end Mac

section Protect

variable {prims : MacPrimitives} {keys : CryptoKeys} {keyid : Nat} {key : IgtkKey}
  {bfrm : List Byte}

/-- The key with the counter of the next frame. -/
def IgtkKey.counted (key : IgtkKey) : IgtkKey := { key with keytsc := key.keytsc.next }

/-- The MIC of a frame under the counter of a key. -/
def frameMic (prims : MacPrimitives) (type : IgtkType) (key : IgtkKey) (bfrm : List Byte) :
    Option Mic :=
  computeMic prims type key bfrm key.keytsc
    (sentAad bfrm ++ (bfrm.drop frameHdrLen ++ mmieHead type key) ++ List.replicate (micLen type) 0)

/-- What the sender makes of a frame. -/
theorem wlanCryptoAddMmie_eq (prims : MacPrimitives) (installed : Installed keys keyid key)
    (isDefault : keys.defIgtkTxKeyid = keyid) (long : frameHdrLen ≤ bfrm.length) (granted : Bool) :
    ∃ mic, frameMic prims keys.igtkKeyType key.counted bfrm = some mic ∧
      wlanCryptoAddMmie prims keys bfrm granted =
        (if granted then
          some (bfrm ++ mmieHead keys.igtkKeyType key.counted ++
            mic.bytes.take (micLen keys.igtkKeyType))
        else none, keys.setKey keyid key.counted) := by
  obtain ⟨mic, computed⟩ := @computeMic_known prims keys.igtkKeyType key.counted
    installed.known bfrm key.counted.keytsc
    (sentAad bfrm ++ (bfrm.drop frameHdrLen ++ mmieHead keys.igtkKeyType key.counted) ++
      replicate (micLen keys.igtkKeyType) 0)
  refine ⟨mic, computed, ?_⟩
  unfold wlanCryptoAddMmie
  rw [isDefault, if_neg (Nat.not_le_of_lt installed.inRange)]
  simp only [installed.found]
  rw [append_assoc bfrm, drop_append_of_le_length long, ← append_assoc,
    ← append_assoc, append_assoc (sentAad bfrm)]
  cases granted with
  | false => rfl
  | true =>
    rw [if_pos rfl, if_pos rfl]
    split
    next failed => cases failed.symm.trans computed
    next found =>
      cases found.symm.trans computed
      rfl

theorem length_mic (mic : Mic) (type : IgtkType) :
    (mic.bytes.take (micLen type)).length = micLen type := by
  refine length_take_of_le ?_
  rw [mic.length_bytes]
  unfold micLen
  by_cases cmac : type = .aesCmac
  · rw [if_pos cmac]
    decide
  · rw [if_neg cmac]

/-- What the receiver makes of a frame that is protected with its key: only the counter
can be wrong. -/
theorem wlanCryptoIsMmieValid_eq {sent : IgtkKey} {mic : Mic} (flags : Byte)
    (installed : Installed keys keyid key) (same : SameKey sent key)
    (long : frameHdrLen ≤ bfrm.length)
    (short : bfrm.length + (10 + micLen keys.igtkKeyType) < 2 ^ 16)
    (computed : frameMic prims keys.igtkKeyType sent bfrm = some mic) (granted : Bool × Bool) :
    wlanCryptoIsMmieValid prims keys (onAir keys.igtkKeyType sent bfrm
        (mic.bytes.take (micLen keys.igtkKeyType)) flags) granted =
      if qdfMemCmp sent.keytsc.bytes key.keyrsc.bytes = .gt ∧ granted.1 = true ∧
          granted.2 = true then
        (true, keys.setKey keyid { key with keyrsc := sent.keytsc })
      else (false, keys) := by
  have micLength := length_mic mic keys.igtkKeyType
  have keyId : mmieKeyId (mmieHead keys.igtkKeyType sent ++
      mic.bytes.take (micLen keys.igtkKeyType)) = wlanCryptoMaxKeyIdx + keyid :=
    keyId_mmieHead installed.inRange (same.keyix.trans installed.keyix)
  have inRange := installed.inRange
  unfold wlanCryptoIsMmieValid
  simp only [mmie_onAir long micLength]
  rw [if_neg (by rw [length_onAir micLength]; omega), if_neg (by rw [elementId_mmieHead]; simp),
    keyId, if_neg (by omega), Nat.add_sub_cancel_left]
  simp only [installed.found, read_mmieHead]
  by_cases newer : qdfMemCmp sent.keytsc.bytes key.keyrsc.bytes = .gt
  swap
  · rw [if_pos newer, if_neg fun both => newer both.1]
  rw [if_neg (not_not.mpr newer)]
  by_cases allocated : granted.1 = true ∧ granted.2 = true
  swap
  · have missing : (!granted.1 || !granted.2) = true := by
      rw [Bool.or_eq_true, Bool.not_eq_true', Bool.not_eq_true']
      rcases not_and_or.mp allocated with first | second
      · exact Or.inl ((Bool.not_eq_true _).mp first)
      · exact Or.inr ((Bool.not_eq_true _).mp second)
    rw [if_pos missing, if_neg fun both => allocated both.2]
  rw [if_neg (by rw [allocated.1, allocated.2]; decide), if_pos ⟨newer, allocated⟩,
    body_onAir long micLength short, aad_onAir long,
    ← computeMic_congr same (addr2_onAir long).symm]
  have sameMic : computeMic prims keys.igtkKeyType sent bfrm sent.keytsc (sentAad bfrm ++
      (bfrm.drop frameHdrLen ++ mmieHead keys.igtkKeyType sent) ++
        replicate (micLen keys.igtkKeyType) 0) = some mic := computed
  simp only [sameMic, mic_mmieHead micLength, qdfMemCmp_self]
  rw [if_neg (by simp)]

end Protect

/-! ## Histories -/

/-- A frame to be protected, and whether memory is granted for it. -/
structure Outgoing where
  frame : List Byte
  granted : Bool

/-- A frame is delivered: which one, with which flags changed, and which requests for
memory are granted to the receiver. -/
structure Delivery where
  index : Nat
  flags : Byte
  granted : Bool × Bool

/-- The frames that the sender makes, one after the other. -/
def sendAll (prims : MacPrimitives) : CryptoKeys → List Outgoing → List (Option (List Byte))
  | _, [] => []
  | keys, out :: outs =>
    let (frame, keys) := wlanCryptoAddMmie prims keys out.frame out.granted
    frame :: sendAll prims keys outs

/-- What is delivered. -/
def arrives (sent : List (Option (List Byte))) (delivery : Delivery) : List Byte :=
  changeFlags delivery.flags ((sent.getD delivery.index none).getD [])

/-- The packet number in a frame. -/
def packetNumber (type : IgtkType) (frm : List Byte) : Nat := (Counter.read (mmie type frm) 4).value

/-- The packet numbers that the receiver sees, and whether it accepts them. -/
def receiveAll (prims : MacPrimitives) :
    CryptoKeys → List (List Byte × (Bool × Bool)) → List (Nat × Bool)
  | _, [] => []
  | keys, (frm, granted) :: frames =>
    let (accepted, after) := wlanCryptoIsMmieValid prims keys frm granted
    (packetNumber keys.igtkKeyType frm, accepted) :: receiveAll prims after frames

/-- The counter of a frame. -/
def sentCounter (start : Counter) (index : Nat) : Counter := Counter.next^[index + 1] start

/-- The largest packet number so far. -/
def largerOf (largest : Option Counter) (pn : Counter) : Option Counter :=
  match largest with
  | none => some pn
  | some last => if last.value < pn.value then some pn else some last

/-- Whenever a frame is delivered, its counter comes behind the largest that was delivered
before (behind the first counter if nothing was) in the order of the bytes in memory, and
memory is granted, exactly if its packet number is larger. -/
def Agree (start : Counter) : Option Counter → List (Counter × (Bool × Bool)) → Prop
  | _, [] => True
  | largest, (pn, granted) :: deliveries =>
    ((qdfMemCmp pn.bytes (largest.getD start).bytes = .gt ∧ granted.1 = true ∧
        granted.2 = true) ↔ ∀ last, largest = some last → last.value < pn.value) ∧
      Agree start (largerOf largest pn) deliveries

/-- What is accepted is in order, and what is newer than all that was accepted is
accepted. -/
structure Ordered (log : List (Nat × Bool)) : Prop where
  increasing : ((log.filter fun entry => entry.2).map fun entry => entry.1).Pairwise (· < ·)
  fresh : ∀ before pn accepted after, log = before ++ (pn, accepted) :: after →
    (∀ entry ∈ before, entry.2 = true → entry.1 < pn) → accepted = true

/-- The same, where the newest that was accepted before is known. -/
def OrderedFrom : Option Nat → List (Nat × Bool) → Prop
  | _, [] => True
  | newest, (pn, accepted) :: log =>
    (accepted = true ↔ ∀ last, newest = some last → last < pn) ∧
      OrderedFrom (if accepted = true then some pn else newest) log

/-- The accepted packet numbers are in order, and behind the newest before them. -/
def Increasing (newest : Option Nat) (log : List (Nat × Bool)) : Prop :=
  (newest.toList ++ (log.filter fun entry => entry.2).map fun entry => entry.1).Pairwise (· < ·)

/-- What is newer than all that was accepted is accepted. -/
def AllFresh (newest : Option Nat) (log : List (Nat × Bool)) : Prop :=
  ∀ before pn accepted after, log = before ++ (pn, accepted) :: after →
    (∀ last, newest = some last → last < pn) →
      (∀ entry ∈ before, entry.2 = true → entry.1 < pn) → accepted = true

section Log

variable {newest : Option Nat} {pn : Nat} {log : List (Nat × Bool)}

theorem increasing_accepted : Increasing newest ((pn, true) :: log) ↔
    (∀ last, newest = some last → last < pn) ∧ Increasing (some pn) log := by
  unfold Increasing
  cases newest with
  | none => simp
  | some last =>
    simp only [Option.toList_some, filter_cons_of_pos, map_cons,
      singleton_append, pairwise_cons, mem_cons, forall_eq_or_imp,
      Option.some.injEq, forall_eq']
    constructor
    · rintro ⟨⟨first, _⟩, rest⟩
      exact ⟨first, rest⟩
    · rintro ⟨first, behind, rest⟩
      exact ⟨⟨first, fun other member => first.trans (behind other member)⟩, behind, rest⟩

theorem allFresh_accepted (newer : ∀ last, newest = some last → last < pn) :
    AllFresh newest ((pn, true) :: log) ↔ AllFresh (some pn) log := by
  constructor
  · intro fresh before other accepted after split behind others
    refine fresh ((pn, true) :: before) other accepted after (by rw [split]; rfl) ?_ ?_
    · exact fun last isNewest => (newer last isNewest).trans (behind pn rfl)
    · intro entry member
      rcases mem_cons.mp member with rfl | member
      · exact fun _ => behind pn rfl
      · exact others entry member
  · intro fresh before other accepted after split behind others
    rcases before with _ | ⟨first, before⟩
    · cases split
      rfl
    · obtain ⟨rfl, rest⟩ := cons.inj split
      refine fresh before other accepted after rest ?_ fun entry member =>
        others entry (mem_cons_of_mem _ member)
      rintro last isNewest
      cases isNewest
      exact others _ mem_cons_self rfl

theorem allFresh_rejected : AllFresh newest ((pn, false) :: log) ↔
    ¬ (∀ last, newest = some last → last < pn) ∧ AllFresh newest log := by
  constructor
  · intro fresh
    refine ⟨fun newer => ?_, fun before other accepted after split behind others => ?_⟩
    · have wrong := fresh [] pn false log rfl newer fun _ none => absurd none not_mem_nil
      cases wrong
    · refine fresh ((pn, false) :: before) other accepted after (by rw [split]; rfl) behind ?_
      intro entry member
      rcases mem_cons.mp member with rfl | member
      · exact fun wrong => absurd wrong Bool.false_ne_true
      · exact others entry member
  · rintro ⟨old, fresh⟩ before other accepted after split behind others
    rcases before with _ | ⟨first, before⟩
    · cases split
      exact absurd behind old
    · exact fresh before other accepted after (cons.inj split).2 behind fun entry member =>
        others entry (mem_cons_of_mem _ member)

theorem orderedFrom_iff : OrderedFrom newest log ↔ Increasing newest log ∧ AllFresh newest log := by
  induction log generalizing newest with
  | nil =>
    refine iff_of_true trivial ⟨?_, fun before pn accepted after split => ?_⟩
    · cases newest <;> simp [Increasing]
    · exact absurd split.symm (by simp)
  | cons entry log ih =>
    obtain ⟨pn, accepted⟩ := entry
    unfold OrderedFrom
    rw [ih]
    cases accepted with
    | true =>
      simp only [if_true, true_iff]
      rw [increasing_accepted, and_assoc]
      refine and_congr_right fun newer => ?_
      rw [allFresh_accepted newer]
    | false =>
      simp only [Bool.false_eq_true, false_iff]
      rw [allFresh_rejected]
      exact and_left_comm

theorem ordered_iff : Ordered log ↔ OrderedFrom none log := by
  rw [orderedFrom_iff]
  constructor
  · rintro ⟨increasing, fresh⟩
    exact ⟨increasing, fun before pn accepted after split _ => fresh before pn accepted after split⟩
  · rintro ⟨increasing, fresh⟩
    exact ⟨increasing, fun before pn accepted after split =>
      fresh before pn accepted after split fun _ none => by cases none⟩

end Log

/-! ## All frames -/

section History

variable {prims : MacPrimitives} {sender receiver : CryptoKeys} {keyid : Nat}
  {key sent : IgtkKey} {outs : List Outgoing} {deliveries : List Delivery}

/-- The key as it is when a frame is sent. -/
def IgtkKey.at (key : IgtkKey) (index : Nat) : IgtkKey :=
  { key with keytsc := sentCounter key.keytsc index }

/-- Each frame gets the next counter. -/
theorem sendAll_spec (prims : MacPrimitives) (installed : Installed sender keyid key)
    (isDefault : sender.defIgtkTxKeyid = keyid)
    (long : ∀ out ∈ outs, frameHdrLen ≤ out.frame.length) {index : Nat} {out : Outgoing}
    (found : outs[index]? = some out) (granted : out.granted = true) :
    ∃ mic, frameMic prims sender.igtkKeyType (key.at index) out.frame = some mic ∧
      (sendAll prims sender outs).getD index none =
        some (out.frame ++ mmieHead sender.igtkKeyType (key.at index) ++
          mic.bytes.take (micLen sender.igtkKeyType)) := by
  induction outs generalizing sender key index with
  | nil => cases found
  | cons first outs ih =>
    obtain ⟨mic, computed, result⟩ := wlanCryptoAddMmie_eq prims installed isDefault
      (long first mem_cons_self) first.granted
    unfold sendAll
    rw [result]
    cases index with
    | zero =>
      obtain rfl : first = out := Option.some.inj found
      refine ⟨mic, computed, ?_⟩
      rw [if_pos granted]
      rfl
    | succ index =>
      have counted : Installed (sender.setKey keyid key.counted) keyid key.counted :=
        installed.replaced ⟨rfl, rfl, rfl⟩
      obtain ⟨mic, computed, result⟩ := ih counted isDefault
        (fun out member => long out (mem_cons_of_mem _ member)) found
      exact ⟨mic, computed, result⟩

/-- The receiver's verdicts, told from the counters alone. -/
def verdicts : Counter → List (Counter × (Bool × Bool)) → List (Nat × Bool)
  | _, [] => []
  | rsc, (pn, granted) :: deliveries =>
    let accepted := decide (qdfMemCmp pn.bytes rsc.bytes = .gt ∧ granted.1 = true ∧
      granted.2 = true)
    (pn.value, accepted) :: verdicts (if accepted then pn else rsc) deliveries

theorem orderedFrom_verdicts_iff (start : Counter) (largest : Option Counter)
    (deliveries : List (Counter × (Bool × Bool))) :
    OrderedFrom (largest.map Counter.value) (verdicts (largest.getD start) deliveries) ↔
      Agree start largest deliveries := by
  induction deliveries generalizing largest with
  | nil => exact Iff.rfl
  | cons delivery deliveries ih =>
    obtain ⟨pn, granted⟩ := delivery
    have newer : (∀ last, largest.map Counter.value = some last → last < pn.value) ↔
        ∀ last, largest = some last → last.value < pn.value := by
      cases largest with
      | none => simp
      | some last => simp
    unfold verdicts OrderedFrom Agree
    by_cases accepted : qdfMemCmp pn.bytes (largest.getD start).bytes = .gt ∧
        granted.1 = true ∧ granted.2 = true
    · simp only [accepted, and_self, decide_true, true_iff, newer]
      refine and_congr_right fun larger => ?_
      have isLargest : largerOf largest pn = some pn := by
        cases largest with
        | none => rfl
        | some last => exact if_pos (larger last rfl)
      rw [isLargest]
      exact ih (some pn)
    · simp only [accepted, decide_false, Bool.false_eq_true, false_iff, newer]
      refine and_congr_right fun notLarger => ?_
      have isLargest : largerOf largest pn = largest := by
        cases largest with
        | none => exact absurd (fun last none => by cases none) notLarger
        | some last =>
          refine if_neg fun larger => notLarger fun other same => ?_
          rw [← Option.some.inj same]
          exact larger
      rw [isLargest]
      exact ih largest

/-- What is delivered is a frame on the air. -/
theorem arrives_eq (prims : MacPrimitives) (installed : Installed sender keyid key)
    (isDefault : sender.defIgtkTxKeyid = keyid)
    (long : ∀ out ∈ outs, frameHdrLen ≤ out.frame.length) {delivery : Delivery} {out : Outgoing}
    (found : outs[delivery.index]? = some out) (granted : out.granted = true) :
    ∃ mic, frameMic prims sender.igtkKeyType (key.at delivery.index) out.frame = some mic ∧
      arrives (sendAll prims sender outs) delivery =
        onAir sender.igtkKeyType (key.at delivery.index) out.frame
          (mic.bytes.take (micLen sender.igtkKeyType)) delivery.flags := by
  obtain ⟨mic, computed, result⟩ := sendAll_spec prims installed isDefault long found granted
  refine ⟨mic, computed, ?_⟩
  unfold arrives
  rw [result]
  rfl

/-- The receiver's verdicts depend on the counters only. -/
theorem receiveAll_eq (sends : Installed sender keyid sent)
    (isDefault : sender.defIgtkTxKeyid = keyid) (receives : Installed receiver keyid key)
    (same : SameKey sent key) (sameType : sender.igtkKeyType = receiver.igtkKeyType)
    (long : ∀ out ∈ outs, frameHdrLen ≤ out.frame.length)
    (short : ∀ out ∈ outs, out.frame.length + (10 + micLen receiver.igtkKeyType) < 2 ^ 16)
    (wasSent : ∀ delivery ∈ deliveries, ∃ out, outs[delivery.index]? = some out ∧
      out.granted = true) :
    receiveAll prims receiver (deliveries.map fun delivery =>
        (arrives (sendAll prims sender outs) delivery, delivery.granted)) =
      verdicts key.keyrsc (deliveries.map fun delivery =>
        (sentCounter sent.keytsc delivery.index, delivery.granted)) := by
  induction deliveries generalizing receiver key with
  | nil => rfl
  | cons delivery deliveries ih =>
    obtain ⟨out, found, granted⟩ := wasSent delivery mem_cons_self
    have member := mem_of_getElem? found
    obtain ⟨mic, computed, air⟩ := arrives_eq prims sends isDefault long found granted
    rw [sameType] at computed air
    have sameAt : SameKey (sent.at delivery.index) key :=
      ⟨same.keylen, same.keyix, same.keyval⟩
    have verdict := wlanCryptoIsMmieValid_eq delivery.flags receives sameAt
      (long out member) (short out member) computed delivery.granted
    have micLength : (mic.bytes.take (micLen receiver.igtkKeyType)).length =
        micLen receiver.igtkKeyType := length_mic _ _
    have number : packetNumber receiver.igtkKeyType (onAir receiver.igtkKeyType
        (sent.at delivery.index) out.frame (mic.bytes.take (micLen receiver.igtkKeyType))
          delivery.flags) = (sentCounter sent.keytsc delivery.index).value := by
      unfold packetNumber
      rw [mmie_onAir (long out member) micLength, read_mmieHead]
      rfl
    have others := fun delivery member => wasSent delivery (mem_cons_of_mem _ member)
    simp only [map_cons, receiveAll, verdicts, air, verdict, number]
    have counter : (sent.at delivery.index).keytsc = sentCounter sent.keytsc delivery.index := rfl
    rw [counter]
    by_cases accepted : qdfMemCmp (sentCounter sent.keytsc delivery.index).bytes
      key.keyrsc.bytes = .gt ∧ delivery.granted.1 = true ∧ delivery.granted.2 = true
    · simp only [accepted, and_self, decide_true, if_true]
      congr 1
      have stillInstalled : Installed (receiver.setKey keyid { key with
          keyrsc := sentCounter sent.keytsc delivery.index }) keyid { key with
            keyrsc := sentCounter sent.keytsc delivery.index } :=
        receives.replaced ⟨rfl, rfl, rfl⟩
      exact ih stillInstalled ⟨same.keylen, same.keyix, same.keyval⟩ sameType short others
    · simp only [accepted, decide_false, Bool.false_eq_true, if_false]
      congr 1
      exact ih receives same sameType short others

/-- For every history of frames under a key, the receiver accepts exactly what is newer
than all it has accepted if and only if the order of the counters in memory agrees with
the order of the packet numbers wherever it is asked for. -/
theorem mmie_ordered_iff (sends : Installed sender keyid sent)
    (isDefault : sender.defIgtkTxKeyid = keyid) (receives : Installed receiver keyid key)
    (same : SameKey sent key) (sameType : sender.igtkKeyType = receiver.igtkKeyType)
    (sameStart : sent.keytsc = key.keyrsc)
    (long : ∀ out ∈ outs, frameHdrLen ≤ out.frame.length)
    (short : ∀ out ∈ outs, out.frame.length + (10 + micLen receiver.igtkKeyType) < 2 ^ 16)
    (wasSent : ∀ delivery ∈ deliveries, ∃ out, outs[delivery.index]? = some out ∧
      out.granted = true) :
    Ordered (receiveAll prims receiver (deliveries.map fun delivery =>
        (arrives (sendAll prims sender outs) delivery, delivery.granted))) ↔
      Agree sent.keytsc none (deliveries.map fun delivery =>
        (sentCounter sent.keytsc delivery.index, delivery.granted)) := by
  rw [ordered_iff, receiveAll_eq sends isDefault receives same sameType long short wasSent,
    ← sameStart]
  exact orderedFrom_verdicts_iff sent.keytsc none _

end History

/-! ## A carry -/

/-- Primitives whose MIC is always the same. -/
def constantMac : MacPrimitives where
  omac1Aes128 := fun _ _ => ⟨List.replicate 16 0, List.length_replicate⟩
  omac1Aes256 := fun _ _ => ⟨List.replicate 16 0, List.length_replicate⟩
  aesGmac := fun _ _ _ _ => ⟨List.replicate 16 0, List.length_replicate⟩

/-- A key that was used for so many frames, less than 256. -/
def sampleKey (count : Byte) : IgtkKey where
  keylen := 16
  keyix := 4
  keyval := List.replicate 16 0
  keytsc := ⟨[count, 0, 0, 0, 0, 0], rfl⟩
  keyrsc := ⟨[count, 0, 0, 0, 0, 0], rfl⟩

/-- The key is installed on both sides. -/
def sampleKeys (count : Byte) : CryptoKeys where
  igtkKey := fun keyid => if keyid = 0 then some (sampleKey count) else none
  igtkKeyType := .aesCmac
  defIgtkTxKeyid := 0

theorem installed_sampleKeys (count : Byte) : Installed (sampleKeys count) 0 (sampleKey count) :=
  ⟨by decide, fun other => (by cases other), rfl, rfl⟩

/-- Two frames with an empty body. -/
def sampleFrames : List Outgoing := List.replicate 2 ⟨List.replicate 24 0, true⟩

/-- Both are delivered in order, the second with its retry flag set. -/
def sampleDeliveries : List Delivery := [⟨0, 0, (true, true)⟩, ⟨1, 8, (true, true)⟩]

/-- What becomes of them. -/
def sampleLog (count : Byte) : List (Nat × Bool) :=
  receiveAll constantMac (sampleKeys count) (sampleDeliveries.map fun delivery =>
    (arrives (sendAll constantMac (sampleKeys count) sampleFrames) delivery, delivery.granted))

theorem mmie_ordered_sampleLog : Ordered (sampleLog 0) := by
  refine (mmie_ordered_iff (installed_sampleKeys 0) rfl (installed_sampleKeys 0)
    ⟨rfl, rfl, rfl⟩ rfl rfl ?_ ?_ ?_).mpr ?_
  · intro out member
    rw [eq_of_mem_replicate member]
    decide
  · intro out member
    rw [eq_of_mem_replicate member]
    decide
  · decide +kernel
  · refine ⟨iff_of_true (by decide) fun _ none => (by cases none), ?_, trivial⟩
    refine iff_of_true (by decide) fun last same => ?_
    cases same
    decide

/-- The packet numbers are 255 and 256, and the second is not accepted. -/
theorem not_mmie_ordered_sampleLog : ¬ Ordered (sampleLog 254) := by
  have log : sampleLog 254 = [(255, true), (256, false)] := by decide +kernel
  intro ordered
  have accepted := ordered.fresh [(255, true)] 256 false [] log (by decide)
  cases accepted

end Sm8650.Crypto
