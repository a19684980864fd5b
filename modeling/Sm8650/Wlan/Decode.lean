import Sm8650.Wlan.Defrag

/-!
# Which buffers hold a fragment sequence

A buffer of untrusted bytes is reported to start with a fragment sequence exactly if a unit
of maximum size is followed by a chain of fragments, all but the last of maximum size and the
last not empty, and the content behind it starts with no further fragment.
-/

namespace Sm8650.Wlan

open Sm8650.Ring List

variable {isSubelem : Bool} {subelemfragid : UInt8} {buff : Buffer} {maxsize : Nat}

/-! ## Chains of fragments -/

/-- A fragment with its header. -/
def fragUnit (fragid : UInt8) (frag : List UInt8) : List UInt8 :=
  fragid :: UInt8.ofNat frag.length :: frag

/-- The payloads of fragments that continue a unit: all but the last of maximum size, and the
last not empty. -/
inductive Chain : List (List UInt8) → Prop
  | last {frag : List UInt8} : frag ≠ [] → frag.length ≤ 255 → Chain [frag]
  | more {frag : List UInt8} {frags : List (List UInt8)} :
      frag.length = 255 → Chain frags → Chain (frag :: frags)

/-- The bytes of a buffer, taken apart into a unit of maximum size, the fragments that follow
it, and the content behind them. -/
structure FragSequence (fragid : UInt8) (bytes : List UInt8) (id : UInt8) (lead : List UInt8)
    (frags : List (List UInt8)) (trailing : List UInt8) : Prop where
  bytes_eq : bytes = id :: 255 :: (lead ++ (frags.flatMap (fragUnit fragid) ++ trailing))
  lead_length : lead.length = 255
  chain : Chain frags
  unfragmented : Unfragmented fragid trailing

/-- The payload of a fragment sequence: the ID extension is not part of it. -/
def sequencePayload (isSubelem : Bool) (id : UInt8) (lead : List UInt8)
    (frags : List (List UInt8)) : List UInt8 :=
  (if hasIdext isSubelem id then lead.drop 1 else lead) ++ frags.flatten

variable {frags : List (List UInt8)}

theorem Chain.flatten_ne_nil (chain : Chain frags) : frags.flatten ≠ [] := by
  cases chain with
  | last nonempty _ => simpa using nonempty
  | more full _ =>
    intro nil
    have none := (append_eq_nil_iff.mp nil).1
    rw [none] at full
    cases full

/-- The fragments of a chain are those of its payload. -/
theorem Chain.flatMap_eq (fragid : UInt8) (chain : Chain frags) :
    frags.flatMap (fragUnit fragid) = fragments fragid frags.flatten := by
  induction chain with
  | last nonempty short =>
    rw [flatMap_singleton, flatten_singleton, fragments_of_le fragid nonempty short]
    rfl
  | more full _ ih =>
    rw [flatMap_cons, flatten_cons, fragments_of_append fragid full, ih]
    unfold fragUnit
    rw [full]
    rfl

/-- A fragment sequence in a buffer is the one made of its payload. -/
theorem FragSequence.fragseq_eq {bytes : List UInt8} {id : UInt8} {lead : List UInt8}
    {trailing : List UInt8}
    (sequence : FragSequence (elemunitInfo isSubelem subelemfragid).fragid bytes id lead frags trailing)
    :
    leadSize isSubelem id < (sequencePayload isSubelem id lead frags).length ∧
      bytes = fragseq isSubelem id (lead.headD 0) subelemfragid
        (sequencePayload isSubelem id lead frags) ++ trailing := by
  have size := sequence.lead_length
  obtain ⟨first, rest, rfl⟩ : ∃ first rest, lead = first :: rest := by
    cases lead with
    | nil => cases size
    | cons first rest => exact ⟨first, rest, rfl⟩
  have some := length_pos_iff.mpr sequence.chain.flatten_ne_nil
  rw [length_cons] at size
  rw [sequence.bytes_eq, sequence.chain.flatMap_eq]
  unfold fragseq sequencePayload leadSize leadBytes
  by_cases extn : hasIdext isSubelem id = true
  · have short : rest.length = 254 := by omega
    simp only [extn, if_true, drop_succ_cons, drop_zero]
    rw [take_left' short, drop_left' short, length_append]
    exact ⟨by omega, by simp⟩
  · have full : (first :: rest).length = 255 := size
    simp only [extn, if_false, Bool.false_eq_true]
    rw [take_left' full, drop_left' full, length_append]
    exact ⟨by omega, by simp⟩

/-! ## What the successor says -/

/-- The content from `pos` to the end of a buffer. -/
def contentFrom (buff : Buffer) (maxsize pos : Nat) : List UInt8 :=
  slice buff pos (maxsize - pos)

theorem reads_contentFrom (buff : Buffer) (maxsize pos : Nat) :
    Reads buff pos (contentFrom buff maxsize pos) := by
  unfold Reads contentFrom
  rw [length_slice]

/-- A complete unit at `pos`, taken apart. -/
theorem contentFrom_unit {buff : Buffer} {maxsize pos : Nat}
    (complete : pos + (2 + (buff (pos + 1)).toNat) ≤ maxsize) :
    contentFrom buff maxsize pos =
      buff pos :: buff (pos + 1) :: (slice buff (pos + 2) (buff (pos + 1)).toNat ++
        contentFrom buff maxsize (pos + (2 + (buff (pos + 1)).toNat))) := by
  have whole : maxsize - pos = 2 + ((buff (pos + 1)).toNat +
      (maxsize - (pos + (2 + (buff (pos + 1)).toNat)))) := by
    omega
  unfold contentFrom
  rw [whole, slice_add, slice_add, Nat.add_assoc pos 2]
  rfl

/-- What a call of `wlan_get_elemsubelem_successorfrag` says about a complete unit. -/
theorem successorfrag_cases {curr : Nat} {found : Option Successor}
    (result : successorfrag isSubelem subelemfragid curr buff maxsize = .ok found) :
    (found = none ∧ Unfragmented (elemunitInfo isSubelem subelemfragid).fragid
      (contentFrom buff maxsize (curr + (2 + (buff (curr + 1)).toNat)))) ∨
    ∃ pos, pos = curr + (2 + (buff (curr + 1)).toNat) ∧
      found = some ⟨pos, 2 + (buff (pos + 1)).toNat, (buff (pos + 1)).toNat⟩ ∧
      buff (curr + 1) = 255 ∧ buff pos = (elemunitInfo isSubelem subelemfragid).fragid ∧
      buff (pos + 1) ≠ 0 ∧ pos + (2 + (buff (pos + 1)).toNat) ≤ maxsize := by
  unfold successorfrag at result
  simp only [elemunitInfo_hdrlen, elemunitInfo_lenPos, elemunitInfo_idPos,
    elemunitInfo_maxpayloadlen] at result
  generalize pos_eq : curr + (2 + (buff (curr + 1)).toNat) = pos at result ⊢
  by_cases empty : maxsize = 0
  · rw [if_pos empty] at result
    cases result
  by_cases header : maxsize < curr + 2
  · rw [if_neg empty, if_pos header] at result
    cases result
  by_cases cut : maxsize < pos
  · rw [if_neg empty, if_neg header, if_pos cut] at result
    cases result
  rw [if_neg empty, if_neg header, if_neg cut] at result
  by_cases stop : maxsize = pos
  · rw [if_pos stop] at result
    cases result
    refine .inl ⟨rfl, .inl ?_⟩
    unfold contentFrom
    rw [stop, Nat.sub_self]
    rfl
  by_cases nextHeader : maxsize < pos + 2
  · rw [if_neg stop, if_pos nextHeader] at result
    cases result
  by_cases nextCut : maxsize < pos + (2 + (buff (pos + 1)).toNat)
  · rw [if_neg stop, if_neg nextHeader, if_pos nextCut] at result
    cases result
  rw [if_neg stop, if_neg nextHeader, if_neg nextCut] at result
  by_cases other : buff pos ≠ (elemunitInfo isSubelem subelemfragid).fragid
  · rw [if_pos other] at result
    cases result
    refine .inl ⟨rfl, .inr ⟨_, _, _, _, contentFrom_unit (by omega), length_slice .., other⟩⟩
  rw [if_neg other] at result
  by_cases short : (buff (curr + 1)).toNat ≠ 255
  · rw [if_pos short] at result
    cases result
  by_cases none : buff (pos + 1) = 0
  · rw [if_neg short, if_pos none] at result
    cases result
  rw [if_neg short, if_neg none] at result
  cases result
  refine .inr ⟨pos, rfl, rfl, ?_, by simpa using other, none, by omega⟩
  exact UInt8.toNat_inj.mp (by simpa using short)

/-! ## What the walk accepts -/

theorem fragseqLoop_of_error {successor : Successor} {status : Status} (totallen payloadlen : Nat)
    (failed : successorfrag isSubelem subelemfragid successor.pos buff maxsize = .error status) :
    fragseqLoop isSubelem subelemfragid buff maxsize successor totallen payloadlen =
      .error status := by
  rw [fragseqLoop]
  split
  · rename_i found
    rw [failed] at found
    cases found
    rfl
  · rename_i found
    rw [failed] at found
    cases found
  · rename_i found
    rw [failed] at found
    cases found

/-- A walk that ends has gone over a chain of fragments. -/
theorem exists_chain_of_fragseqLoop {pos : Nat} {totallen payloadlen : Nat} {lengths : Nat × Nat}
    (result : fragseqLoop isSubelem subelemfragid buff maxsize
      ⟨pos, 2 + (buff (pos + 1)).toNat, (buff (pos + 1)).toNat⟩ totallen payloadlen = .ok lengths)
    (fragment : buff pos = (elemunitInfo isSubelem subelemfragid).fragid)
    (some : buff (pos + 1) ≠ 0) (complete : pos + (2 + (buff (pos + 1)).toNat) ≤ maxsize) :
    ∃ frags trailing, Chain frags ∧
      Unfragmented (elemunitInfo isSubelem subelemfragid).fragid trailing ∧
      contentFrom buff maxsize pos =
        frags.flatMap (fragUnit (elemunitInfo isSubelem subelemfragid).fragid) ++ trailing := by
  induction measure : maxsize - pos using Nat.strong_induction_on
    generalizing pos totallen payloadlen with
  | _ bound ih =>
    have content := contentFrom_unit complete
    have length : (slice buff (pos + 2) (buff (pos + 1)).toNat).length =
        (buff (pos + 1)).toNat := length_slice ..
    generalize slice buff (pos + 2) (buff (pos + 1)).toNat = frag at content length
    have unit : fragUnit (elemunitInfo isSubelem subelemfragid).fragid frag =
        buff pos :: buff (pos + 1) :: frag := by
      unfold fragUnit
      rw [fragment, length, UInt8.ofNat_toNat]
    have bound := (buff (pos + 1)).toNat_lt
    rcases walk : successorfrag isSubelem subelemfragid pos buff maxsize with status | found
    · rw [fragseqLoop_of_error _ _ walk] at result
      cases result
    · rcases successorfrag_cases walk with
        ⟨rfl, unfragmented⟩ | ⟨next, next_eq, rfl, full, nextFragment, nextSome, nextComplete⟩
      · refine ⟨[frag], _, .last ?_ (by omega), unfragmented, ?_⟩
        · rintro rfl
          exact some (UInt8.toNat_inj.mp length.symm)
        · rw [content, flatMap_singleton, unit]
          rfl
      · rw [fragseqLoop_of_some _ _ walk] at result
        obtain ⟨frags, trailing, chain, unfragmented, rest⟩ :=
          ih (maxsize - next) (by omega) result nextFragment nextSome nextComplete rfl
        refine ⟨frag :: frags, trailing, .more ?_ chain, unfragmented, ?_⟩
        · rw [length, full]
          rfl
        · rw [content, ← next_eq, rest, flatMap_cons, unit, append_assoc]
          rfl

/-- A buffer that is reported to start with a fragment sequence does. -/
theorem exists_fragSequence {totallen payloadlen : Nat}
    (info : fragseqInfo isSubelem subelemfragid (some buff) maxsize =
      .ok ⟨true, totallen, payloadlen⟩) :
    ∃ id lead frags trailing, FragSequence (elemunitInfo isSubelem subelemfragid).fragid
      (contentFrom buff maxsize 0) id lead frags trailing := by
  unfold fragseqInfo at info
  simp only [elemunitInfo_hdrlen, elemunitInfo_lenPos] at info
  by_cases empty : maxsize = 0
  · rw [if_pos empty] at info
    cases info
  by_cases header : maxsize < 2
  · rw [if_neg empty, if_pos header] at info
    cases info
  by_cases cut : maxsize < 2 + (buff 1).toNat
  · rw [if_neg empty, if_neg header, if_pos cut] at info
    cases info
  rw [if_neg empty, if_neg header, if_neg cut] at info
  rcases walk : successorfrag isSubelem subelemfragid 0 buff maxsize with status | found
  · rw [walk] at info
    cases info
  · rw [walk] at info
    rcases successorfrag_cases walk with
      ⟨rfl, -⟩ | ⟨next, next_eq, rfl, full, fragment, nonempty, complete⟩
    · cases info
    · simp only at info
      rcases loop : fragseqLoop isSubelem subelemfragid buff maxsize
        ⟨next, 2 + (buff (next + 1)).toNat, (buff (next + 1)).toNat⟩ (2 + (buff 1).toNat)
        (leadPayloadlen isSubelem buff (elemunitInfo isSubelem 0)) with status | lengths
      · rw [loop] at info
        cases info
      · obtain ⟨frags, trailing, chain, unfragmented, rest⟩ :=
          exists_chain_of_fragseqLoop loop fragment nonempty complete
        have size : (slice buff (0 + 2) (buff 1).toNat).length = 255 := by
          rw [length_slice, full]
          rfl
        refine ⟨buff 0, slice buff (0 + 2) (buff 1).toNat, frags, trailing, ?_, size, chain,
          unfragmented⟩
        have content := @contentFrom_unit buff maxsize 0 (by
          omega)
        rw [content, ← next_eq, rest, full]

/-- The number of bytes of the units with these payloads. -/
def unitsLength (units : List (List UInt8)) : Nat :=
  (units.map fun unit => 2 + unit.length).sum

theorem length_flatMap_fragUnit (fragid : UInt8) (frags : List (List UInt8)) :
    (frags.flatMap (fragUnit fragid)).length = unitsLength frags := by
  induction frags with
  | nil => rfl
  | cons frag frags ih =>
    rw [flatMap_cons, length_append]
    congr 1
    exact Nat.add_comm _ 2

section Sequence

variable {id : UInt8} {lead : List UInt8} {frags : List (List UInt8)} {trailing : List UInt8}

section

variable (sequence : FragSequence (elemunitInfo isSubelem subelemfragid).fragid (contentFrom buff maxsize 0) id lead frags trailing)

include sequence

/-- A fragment sequence in a buffer, as the readers find it. -/
theorem FragSequence.reads :
    Reads buff 0 (fragseq isSubelem id (lead.headD 0) subelemfragid
        (sequencePayload isSubelem id lead frags) ++ trailing) ∧
      (fragseq isSubelem id (lead.headD 0) subelemfragid
        (sequencePayload isSubelem id lead frags)).length = unitsLength (lead :: frags) ∧
      unitsLength (lead :: frags) + trailing.length = maxsize := by
  have content := sequence.fragseq_eq.2
  have total : (contentFrom buff maxsize 0).length = maxsize := length_slice ..
  have units : (contentFrom buff maxsize 0).length =
      unitsLength (lead :: frags) + trailing.length := by
    rw [sequence.bytes_eq, length_cons, length_cons, length_append,
      length_append, length_flatMap_fragUnit]
    unfold unitsLength
    rw [map_cons, sum_cons]
    omega
  have reads := reads_contentFrom buff maxsize 0
  have whole := congrArg length content
  rw [length_append] at whole
  rw [content] at reads
  exact ⟨reads, by omega, by omega⟩

/-- A buffer that starts with a fragment sequence is measured exactly. -/
theorem FragSequence.fragseqInfo_eq :
    fragseqInfo isSubelem subelemfragid (some buff) maxsize =
      .ok ⟨true, unitsLength (lead :: frags),
        (sequencePayload isSubelem id lead frags).length⟩ := by
  obtain ⟨reads, length, total⟩ := sequence.reads
  have info := Sm8650.Wlan.fragseqInfo_eq sequence.unfragmented sequence.fragseq_eq.1 reads
  rw [length, total] at info
  exact info

/-- Defragmenting it inline leaves the payload behind the header of the lead unit, and the
content behind the sequence right after it. -/
theorem FragSequence.defrag_inline (otherbuff : Option Buffer) (otherbuffMaxsize : Nat) :
    ∃ back, defragFragseq true isSubelem subelemfragid (some buff) maxsize otherbuff
        otherbuffMaxsize = .ok (back, (sequencePayload isSubelem id lead frags).length) ∧
      Reads back (leadBytes isSubelem id (lead.headD 0)).length
        (sequencePayload isSubelem id lead frags ++ trailing) := by
  obtain ⟨reads, length, total⟩ := sequence.reads
  have defragged := defragFragseq_inline sequence.unfragmented sequence.fragseq_eq.1 reads
    otherbuff otherbuffMaxsize
  rw [length, total] at defragged
  exact defragged

/-- Defragmenting it into another buffer. -/
theorem FragSequence.defrag_other (defragbuff : Buffer) {defragbuffMaxsize : Nat}
    (room : (sequencePayload isSubelem id lead frags).length ≤ defragbuffMaxsize) :
    ∃ back, defragFragseq false isSubelem subelemfragid (some buff) maxsize (some defragbuff)
        defragbuffMaxsize = .ok (back, (sequencePayload isSubelem id lead frags).length) ∧
      Reads back 0 (sequencePayload isSubelem id lead frags) := by
  obtain ⟨reads, length, total⟩ := sequence.reads
  have defragged := defragFragseq_other sequence.unfragmented sequence.fragseq_eq.1 reads
    defragbuff room
  rw [length, total] at defragged
  exact defragged

end

end Sequence

/-- The buffers reported to start with a fragment sequence are those that do. -/
theorem fragseqInfo_iff :
    (∃ totallen payloadlen, fragseqInfo isSubelem subelemfragid (some buff) maxsize =
        .ok ⟨true, totallen, payloadlen⟩) ↔
      ∃ id lead frags trailing, FragSequence (elemunitInfo isSubelem subelemfragid).fragid
        (contentFrom buff maxsize 0) id lead frags trailing := by
  constructor
  · rintro ⟨totallen, payloadlen, info⟩
    exact exists_fragSequence info
  · rintro ⟨id, lead, frags, trailing, sequence⟩
    exact ⟨_, _, sequence.fragseqInfo_eq⟩

end Sm8650.Wlan
