import Sm8650.Data.Block
import Sm8650.Wlan.Elements

/-!
# The fragment sequence

The non-lead fragments of a payload, as bytes, and what inline fragmentation makes of a
buffer. The fragments are moved from the last one down, so each move leaves the payload
in front of it alone.
-/

namespace Sm8650.Wlan

open Sm8650.Ring List

/-- The non-lead fragments of `bytes`. -/
def fragments (fragid : UInt8) (bytes : List UInt8) : List UInt8 :=
  if bytes = [] then []
  else
    fragid :: UInt8.ofNat (bytes.take 255).length ::
      (bytes.take 255 ++ fragments fragid (bytes.drop 255))
termination_by bytes.length
decreasing_by
  rename_i nonempty
  have positive := List.length_pos_iff.mpr nonempty
  rw [List.length_drop]
  omega

variable (fragid : UInt8)

@[simp]
theorem fragments_nil : fragments fragid [] = [] := by
  rw [fragments]
  rfl

variable {bytes : List UInt8}

theorem fragments_of_ne_nil (nonempty : bytes ≠ []) :
    fragments fragid bytes =
      fragid :: UInt8.ofNat (bytes.take 255).length ::
        (bytes.take 255 ++ fragments fragid (bytes.drop 255)) := by
  rw [fragments, if_neg nonempty]

theorem length_fragments_pos (nonempty : bytes ≠ []) : 0 < (fragments fragid bytes).length := by
  rw [fragments_of_ne_nil fragid nonempty]
  exact Nat.succ_pos _

/-- The last fragment. -/
theorem fragments_of_le (nonempty : bytes ≠ []) (short : bytes.length ≤ 255) :
    fragments fragid bytes = fragid :: UInt8.ofNat bytes.length :: bytes := by
  rw [fragments_of_ne_nil fragid nonempty, take_of_length_le short,
    drop_eq_nil_of_le short, fragments_nil, append_nil]

/-- A fragment of maximum size. -/
theorem fragments_of_append {chunk bytes : List UInt8} (full : chunk.length = 255) :
    fragments fragid (chunk ++ bytes) =
      fragid :: UInt8.ofNat 255 :: (chunk ++ fragments fragid bytes) := by
  have nonempty : chunk ++ bytes ≠ [] := by
    intro nil
    have none := (append_eq_nil_iff.mp nil).1
    rw [none] at full
    cases full
  rw [fragments_of_ne_nil fragid nonempty, take_left' full, drop_left' full, full]

/-- Every fragment adds a header. -/
theorem length_fragments (full : Nat) (bytes : List UInt8) {smaller : Nat}
    (length : bytes.length = full * 255 + smaller) (small : smaller < 255) :
    (fragments fragid bytes).length =
      bytes.length + full * 2 + if smaller ≠ 0 then 2 else 0 := by
  induction full generalizing bytes with
  | zero =>
    by_cases none : smaller = 0
    · have nil : bytes = [] := length_eq_zero_iff.mp (by omega)
      rw [nil, none]
      simp
    · have nonempty : bytes ≠ [] := by
        rintro rfl
        rw [length_nil] at length
        omega
      rw [fragments_of_le fragid nonempty (by omega), if_pos none]
      simp
  | succ full ih =>
    have chunk : (bytes.take 255).length = 255 := by
      rw [length_take]
      omega
    have rest : (bytes.drop 255).length = full * 255 + smaller := by
      rw [length_drop]
      omega
    have joined := @fragments_of_append fragid _ (bytes.drop 255) chunk
    rw [take_append_drop] at joined
    rw [joined]
    simp only [length_cons, length_append]
    rw [ih _ rest]
    omega

/-! ## Moving one fragment -/

/-- The two bytes of a header. -/
theorem reads_setHeader (isSubelem : Bool) (subelemfragid : UInt8) (buff : Buffer) (pos : Nat)
    (id len : UInt8) (reads : Reads buff (pos + 2) bytes) :
    Reads (setHeader (elemunitInfo isSubelem subelemfragid) buff pos id len) pos
      (id :: len :: bytes) := by
  unfold setHeader
  rw [elemunitInfo_idPos, elemunitInfo_lenPos, Reads.cons_iff, Reads.cons_iff]
  refine ⟨?_, ?_, ?_⟩
  · simp
  · simp
  · refine reads.congr (AgreeOn.trans ?_ (agreeOn_update _ _ (.inr (by omega))))
    exact agreeOn_update _ _ (.inr (by omega))

theorem agreeOn_setHeader (isSubelem : Bool) (subelemfragid : UInt8) (buff : Buffer)
    {pos start stop : Nat} (id len : UInt8) (apart : stop ≤ pos ∨ pos + 2 ≤ start) :
    AgreeOn buff (setHeader (elemunitInfo isSubelem subelemfragid) buff pos id len) start stop := by
  unfold setHeader
  rw [elemunitInfo_idPos, elemunitInfo_lenPos]
  refine AgreeOn.trans (agreeOn_update _ _ ?_) (agreeOn_update _ _ ?_)
  · omega
  · omega

/-- An inline creation: `rest` are the bytes of the payload after the lead fragment, and
`trailing` is the content after the payload. -/
structure InlineCreation (creation : Creation) (isSubelem : Bool) (subelemfragid : UInt8)
    (rest trailing : List UInt8) : Prop where
  inlineFrag : creation.inlineFrag = true
  unit : creation.unit = elemunitInfo isSubelem subelemfragid
  extra : creation.params.extrahdrbytes = (creation.params.numMaxsizefrags - 1) * 2 +
    if creation.params.smallerfragSize ≠ 0 then 2 else 0
  size : creation.payloadbuffMaxsize = creation.params.prepayloadLeadbytes + creation.payloadlen +
    creation.params.extrahdrbytes + trailing.length
  length : rest.length = (creation.params.numMaxsizefrags - 1) * 255 +
    creation.params.smallerfragSize
  small : creation.params.smallerfragSize < 255
  nonempty : rest ≠ []
  lead : 1 ≤ creation.params.numMaxsizefrags
  counted : creation.params.numMaxsizefrags < 2 ^ 16

section Moves

variable {creation : Creation} {isSubelem : Bool} {subelemfragid : UInt8}
  {rest trailing : List UInt8}

/-- Moving a fragment of maximum size, or one that takes the trailing content along. -/
theorem InlineCreation.moveFragment_reads
    (inline : InlineCreation creation isSubelem subelemfragid rest trailing)
    {index size : Nat} (last : Bool) {out : Buffer} {chunk moved : List UInt8}
    (positive : 1 ≤ index) (length : chunk.length = size)
    (final : last = true → index * 2 = creation.params.extrahdrbytes ∧ moved = trailing)
    (inner : last = false → moved = []) (reads : Reads out (2 + index * 255) (chunk ++ moved)) :
    Reads (moveFragment creation index size last (index * 2) out) (index * 257)
        ((elemunitInfo isSubelem subelemfragid).fragid :: UInt8.ofNat size :: (chunk ++ moved)) ∧
      AgreeOn out (moveFragment creation index size last (index * 2) out) 0 (2 + index * 255) ∧
      ∀ stop, AgreeOn out (moveFragment creation index size last (index * 2) out)
        (2 + index * 257 + size + moved.length) stop := by
  unfold moveFragment
  simp only [inline.unit, inline.inlineFrag, elemunitInfo_hdrlen, elemunitInfo_maxpayloadlen,
    true_and]
  have shift : 2 + index * 255 + index * 2 = 2 + index * 257 := by omega
  have header : 2 + index * 255 + index * 2 - 2 = index * 257 := by omega
  have farther : 2 + index * 255 + index * 2 > 2 + index * 255 := by omega
  have amount : (if last = true ∧ creation.payloadbuffMaxsize >
        creation.params.prepayloadLeadbytes + creation.payloadlen then
      creation.payloadbuffMaxsize - creation.params.prepayloadLeadbytes - creation.payloadlen -
        (if 2 + index * 255 + index * 2 > 2 + index * 255 then
          2 + index * 255 + index * 2 - (2 + index * 255) else 0)
      else 0) = moved.length := by
    rw [if_pos farther]
    cases last with
    | false =>
      rw [inner rfl]
      simp
    | true =>
      obtain ⟨all, same⟩ := final rfl
      have size := inline.size
      rw [same, if_pos ⟨rfl, by omega⟩]
      omega
  rw [amount, header, shift]
  have transfer : (chunk ++ moved).length = size + moved.length := by rw [length_append, length]
  refine ⟨?_, ?_, ?_⟩
  · apply reads_setHeader
    rw [Nat.add_comm (index * 257) 2]
    exact reads.move transfer
  · have copied : AgreeOn out
        (memMove out (2 + index * 257) out (2 + index * 255) (size + moved.length)) 0
        (2 + index * 255) := agreeOn_blit _ (.inl (by omega))
    exact copied.trans (agreeOn_setHeader _ _ _ _ _ (.inl (by omega)))
  · intro stop
    have copied : AgreeOn out
        (memMove out (2 + index * 257) out (2 + index * 255) (size + moved.length))
        (2 + index * 257 + size + moved.length) stop :=
      agreeOn_blit _ (.inr (by rw [length_slice]; omega))
    exact copied.trans (agreeOn_setHeader _ _ _ _ _ (.inr (by omega)))

/-! ## All fragments -/

/-- The fragments from number `index` on, and the trailing content, are in their places; the
payload in front of them has not been moved. -/
structure Placed (isSubelem : Bool) (subelemfragid : UInt8) (rest trailing : List UInt8)
    (buff : Buffer) (index : Nat) (out : Buffer) : Prop where
  reads : Reads out (index * 257)
    (fragments (elemunitInfo isSubelem subelemfragid).fragid (rest.drop ((index - 1) * 255)) ++
      trailing)
  agree : AgreeOn buff out 0 (2 + index * 255)

variable {buff out : Buffer}

/-- Where the payload of a non-lead fragment is before it is moved. -/
theorem fragment_pos {index : Nat} (positive : 1 ≤ index) :
    257 + (index - 1) * 255 = 2 + index * 255 := by
  omega

/-- The payload of a non-lead fragment of maximum size. -/
theorem exists_chunk (rest : List UInt8) {index : Nat} (positive : 1 ≤ index)
    (within : index * 255 ≤ rest.length) :
    ∃ chunk later, rest.drop ((index - 1) * 255) = chunk ++ later ∧ chunk.length = 255 ∧
      rest.drop (index * 255) = later := by
  have before : index * 255 = (index - 1) * 255 + 255 := by omega
  refine ⟨_, _, (take_append_drop 255 _).symm, ?_, ?_⟩
  · rw [length_take, length_drop]
    exact Nat.min_eq_left (Nat.le_sub_of_add_le' (before ▸ within))
  · rw [before, drop_drop]

section

variable (inline : InlineCreation creation isSubelem subelemfragid rest trailing)

include inline

section

variable (reads : Reads buff 257 (rest ++ trailing))

include reads

/-- The last fragment takes the trailing content along. -/
theorem InlineCreation.place_last {index size : Nat} (positive : 1 ≤ index)
    (length : rest.length = (index - 1) * 255 + size) (some : size ≠ 0) (most : size ≤ 255)
    (all : index * 2 = creation.params.extrahdrbytes) :
    Placed isSubelem subelemfragid rest trailing buff index
      (moveFragment creation index size true (index * 2) buff) := by
  have chunk : (rest.drop ((index - 1) * 255)).length = size := by
    rw [length_drop]
    omega
  have nonempty : rest.drop ((index - 1) * 255) ≠ [] := by
    intro nil
    rw [nil, length_nil] at chunk
    omega
  have within : (index - 1) * 255 ≤ rest.length := by omega
  have source := reads.drop_left within
  rw [fragment_pos positive] at source
  obtain ⟨placed, agree, -⟩ := inline.moveFragment_reads true positive chunk
    (fun _ => ⟨all, rfl⟩) (fun inner => by cases inner) source
  refine ⟨?_, agree⟩
  rw [fragments_of_le _ nonempty (by omega), chunk]
  exact placed

/-- A fragment of maximum size goes in front of the ones already placed. -/
theorem InlineCreation.place {index : Nat} (positive : 1 ≤ index)
    (within : index * 255 ≤ rest.length)
    (placed : Placed isSubelem subelemfragid rest trailing buff (index + 1) out) :
    Placed isSubelem subelemfragid rest trailing buff index
      (moveFragment creation index 255 false (index * 2) out) := by
  have inside : (index - 1) * 255 ≤ rest.length :=
    Nat.le_trans (Nat.mul_le_mul_right 255 (Nat.sub_le index 1)) within
  obtain ⟨chunk, later, cut, full, rest_eq⟩ := exists_chunk rest positive within
  have source : Reads out (2 + index * 255) (chunk ++ []) := by
    have original := reads.drop_left inside
    rw [fragment_pos positive, cut, append_assoc] at original
    rw [append_nil]
    refine (Reads.append_iff.mp original).1.congr (placed.agree.mono (Nat.zero_le _) ?_)
    omega
  obtain ⟨moved, agree, above⟩ := inline.moveFragment_reads false positive full
    (fun final => by cases final) (fun _ => rfl) source
  refine ⟨?_, (placed.agree.mono (Nat.le_refl _) (by omega)).trans agree⟩
  have placedLater := placed.reads
  rw [Nat.add_sub_cancel, rest_eq] at placedLater
  rw [append_nil] at moved
  rw [cut, fragments_of_append _ full, cons_append, cons_append, append_assoc]
  have joined : Reads (moveFragment creation index 255 false (index * 2) out) (index * 257)
      (((elemunitInfo isSubelem subelemfragid).fragid :: UInt8.ofNat 255 :: chunk) ++
        (fragments (elemunitInfo isSubelem subelemfragid).fragid later ++ trailing)) := by
    refine Reads.append_iff.mpr ⟨moved, ?_⟩
    rw [length_cons, length_cons, full,
      show index * 257 + (255 + 1 + 1) = (index + 1) * 257 from (Nat.succ_mul index 257).symm]
    refine placedLater.congr ((above _).mono ?_ (Nat.le_refl _))
    rw [length_nil]
    omega
  exact joined

/-- The loop places all fragments of maximum size but the lead one. -/
theorem InlineCreation.moveMaxsizefrags_placed (index : Nat) (out : Buffer)
    (inner : index + 1 = creation.params.numMaxsizefrags → creation.params.smallerfragSize ≠ 0)
    (bound : index + 1 ≤ creation.params.numMaxsizefrags)
    (placed : Placed isSubelem subelemfragid rest trailing buff (index + 1) out) :
    Placed isSubelem subelemfragid rest trailing buff 1
      (moveMaxsizefrags creation (index + 1) (index * 2) out) := by
  induction index generalizing out with
  | zero => exact placed
  | succ index ih =>
    have length := inline.length
    have inside : (index + 1) * 255 ≤ rest.length := by omega
    have notLast : decide (index + 2 = creation.params.numMaxsizefrags ∧
        creation.params.smallerfragSize = 0) = false := by
      rw [decide_eq_false_iff_not]
      exact fun both => inner both.1 both.2
    rw [moveMaxsizefrags, notLast, inline.unit, elemunitInfo_hdrlen, elemunitInfo_maxpayloadlen,
      show (index + 1) * 2 - 2 = index * 2 by omega]
    exact ih _ (fun equal => absurd equal (by omega)) (by omega)
      (inline.place reads (by omega) inside placed)

/-- Inline fragmentation places all non-lead fragments and the trailing content behind the
lead fragment. -/
theorem InlineCreation.moveFragments_placed :
    Placed isSubelem subelemfragid rest trailing buff 1 (moveFragments creation buff) := by
  have length := inline.length
  have lead := inline.lead
  have extra := inline.extra
  have small := inline.small
  unfold moveFragments
  simp only
  rw [Nat.mod_eq_of_lt inline.counted]
  obtain ⟨index, number⟩ := Nat.exists_eq_add_of_le' lead
  by_cases smaller : creation.params.smallerfragSize = 0
  · rw [if_neg (by simpa using smaller)]
    rw [smaller, if_neg (by simp)] at extra
    rw [smaller] at length
    have more : index ≠ 0 := by
      rintro rfl
      exact inline.nonempty (length_eq_zero_iff.mp (by omega))
    obtain ⟨index, rfl⟩ := Nat.exists_eq_succ_of_ne_zero more
    have isLast : decide (index + 2 = creation.params.numMaxsizefrags ∧
        creation.params.smallerfragSize = 0) = true := by
      rw [decide_eq_true_iff]
      exact ⟨by omega, smaller⟩
    have total : creation.params.extrahdrbytes = (index + 1) * 2 := by omega
    have remaining : (index + 1) * 2 - 2 = index * 2 := by omega
    have last : rest.length = (index + 1 - 1) * 255 + 255 := by
      rw [length, number, Nat.add_sub_cancel, Nat.add_sub_cancel, Nat.succ_mul]
    rw [number, moveMaxsizefrags, isLast, inline.unit, elemunitInfo_hdrlen,
      elemunitInfo_maxpayloadlen, total, remaining]
    refine inline.moveMaxsizefrags_placed reads index _ (by omega) (by omega) ?_
    exact inline.place_last reads (Nat.succ_pos _) last (by decide) (Nat.le_refl _) total.symm
  · rw [if_pos smaller]
    rw [if_pos smaller] at extra
    have total : creation.params.extrahdrbytes = (index + 1) * 2 := by omega
    have remaining : (index + 1) * 2 - 2 = index * 2 := by omega
    have last : rest.length = (index + 1 - 1) * 255 + creation.params.smallerfragSize := by
      rw [length, number]
    rw [inline.unit, elemunitInfo_hdrlen, total, remaining, number]
    refine inline.moveMaxsizefrags_placed reads index _ (fun _ => smaller) (by omega) ?_
    exact inline.place_last reads (Nat.succ_pos _) last smaller (Nat.le_of_lt small) total.symm

end

end

end Moves

/-! ## The whole sequence -/

/-- The number of payload bytes in the lead fragment. -/
def leadSize (isSubelem : Bool) (id : UInt8) : Nat :=
  if hasIdext isSubelem id then 254 else 255

/-- The bytes of the lead fragment before its payload. -/
def leadBytes (isSubelem : Bool) (id idext : UInt8) : List UInt8 :=
  if hasIdext isSubelem id then [id, 255, idext] else [id, 255]

/-- The fragment sequence of a payload. -/
def fragseq (isSubelem : Bool) (id idext subelemfragid : UInt8) (payload : List UInt8) :
    List UInt8 :=
  leadBytes isSubelem id idext ++ payload.take (leadSize isSubelem id) ++
    fragments (elemunitInfo isSubelem subelemfragid).fragid (payload.drop (leadSize isSubelem id))

variable {isSubelem : Bool} {id idext subelemfragid : UInt8} {payload trailing : List UInt8}

theorem length_leadBytes (isSubelem : Bool) (id idext : UInt8) :
    (leadBytes isSubelem id idext).length + leadSize isSubelem id = 257 := by
  unfold leadBytes leadSize
  by_cases extn : hasIdext isSubelem id <;> simp [extn]

theorem leadSize_le (isSubelem : Bool) (id : UInt8) : leadSize isSubelem id ≤ 255 := by
  unfold leadSize
  split <;> omega

/-- The parameters of a fragmentation; the number of maximum-size fragments and the one of
the others among them have 32 bits. -/
theorem creationParams_spec {payloadlen : Nat} (needed : leadSize isSubelem id < payloadlen) :
    ∃ params, creationParams isSubelem id payloadlen = some params ∧
      params.expectedFragseqlen = params.prepayloadLeadbytes + payloadlen + params.extrahdrbytes ∧
      params.prepayloadLeadbytes + leadSize isSubelem id = 257 ∧
      params.numMaxsizefrags = (payloadlen + (255 - leadSize isSubelem id)) / 255 % 2 ^ 32 ∧
      params.smallerfragSize = (payloadlen + (255 - leadSize isSubelem id)) % 255 ∧
      params.extrahdrbytes = (params.numMaxsizefrags + (2 ^ 32 - 1)) % 2 ^ 32 * 2 +
        (if params.smallerfragSize ≠ 0 then 2 else 0) := by
  unfold creationParams
  simp only [elemunitInfo_hdrlen, elemunitInfo_maxpayloadlen]
  unfold leadSize at needed ⊢
  by_cases extn : hasIdext isSubelem id
  · simp only [extn, if_true] at needed ⊢
    have same : (payloadlen - (255 - 1)) % 255 = (payloadlen + (255 - 254)) % 255 := by omega
    rw [if_neg (by omega), same]
    exact ⟨_, rfl, rfl, rfl, rfl, rfl, rfl⟩
  · simp only [extn, Bool.false_eq_true, if_false] at needed ⊢
    rw [if_neg (by omega)]
    exact ⟨_, rfl, rfl, rfl, rfl, rfl, rfl⟩

/-- The parameters of a fragmentation, in the terms of the sequence. -/
theorem creationParams_eq (needed : leadSize isSubelem id < payload.length)
    (counted : (payload.length + (255 - leadSize isSubelem id)) / 255 < 2 ^ 16) :
    ∃ params, creationParams isSubelem id payload.length = some params ∧
      params.expectedFragseqlen = (fragseq isSubelem id idext subelemfragid payload).length ∧
      params.expectedFragseqlen =
        params.prepayloadLeadbytes + payload.length + params.extrahdrbytes ∧
      params.prepayloadLeadbytes + leadSize isSubelem id = 257 ∧
      params.extrahdrbytes = (params.numMaxsizefrags - 1) * 2 +
        (if params.smallerfragSize ≠ 0 then 2 else 0) ∧
      (payload.drop (leadSize isSubelem id)).length =
        (params.numMaxsizefrags - 1) * 255 + params.smallerfragSize ∧
      params.smallerfragSize < 255 ∧ 1 ≤ params.numMaxsizefrags ∧
      params.numMaxsizefrags < 2 ^ 16 := by
  have lead := length_leadBytes isSubelem id idext
  have most := leadSize_le isSubelem id
  obtain ⟨params, created, expected, leading, number, smaller, extra⟩ :=
    @creationParams_spec isSubelem id payload.length needed
  have narrow : params.numMaxsizefrags =
      (payload.length + (255 - leadSize isSubelem id)) / 255 := by
    rw [number]
    exact Nat.mod_eq_of_lt (Nat.lt_trans counted (by decide))
  have positive : 1 ≤ params.numMaxsizefrags := by omega
  have others : (params.numMaxsizefrags + (2 ^ 32 - 1)) % 2 ^ 32 = params.numMaxsizefrags - 1 := by
    omega
  have small : params.smallerfragSize < 255 := by
    rw [smaller]
    exact Nat.mod_lt _ (by decide)
  have rest : (payload.drop (leadSize isSubelem id)).length =
      (params.numMaxsizefrags - 1) * 255 + params.smallerfragSize := by
    rw [length_drop]
    omega
  rw [others] at extra
  refine ⟨params, created, ?_, expected, leading, extra, rest, small, positive, ?_⟩
  · unfold fragseq
    rw [length_append, length_append, length_fragments _ _ _ rest small, length_take]
    omega
  · rw [narrow]
    exact counted

/-- The header of the lead fragment, written in front of its payload. -/
theorem reads_setLead {creation : Creation} (inline : creation.inlineFrag = true)
    (unit : creation.unit = elemunitInfo isSubelem subelemfragid) {out : Buffer}
    (reads : Reads out (leadBytes isSubelem id idext).length bytes) :
    Reads (setLead creation isSubelem id idext out) 0 (leadBytes isSubelem id idext ++ bytes) := by
  unfold setLead
  unfold leadBytes at reads ⊢
  simp only [inline, unit, elemunitInfo_maxpayloadlen]
  by_cases extn : hasIdext isSubelem id = true
  · rw [if_pos extn] at reads ⊢
    rw [if_pos extn]
    have element : isSubelem = false := by
      cases isSubelem with
      | false => rfl
      | true => cases extn
    subst element
    change Reads out 3 bytes at reads
    refine Reads.cons_iff.mpr ⟨?_, Reads.cons_iff.mpr ⟨?_, Reads.cons_iff.mpr ⟨?_, ?_⟩⟩⟩
    · simp [elemunitInfo, setHeader]
    · simp [elemunitInfo, setHeader]
    · simp [elemunitInfo]
    · refine reads.congr (AgreeOn.trans ?_ (agreeOn_update _ _ (.inr ?_)))
      · exact agreeOn_setHeader _ _ _ _ _ (.inr (by omega))
      · exact Nat.lt_succ_self 2
  · rw [if_neg extn] at reads ⊢
    rw [if_neg extn]
    exact reads_setHeader _ _ _ _ _ _ reads

/-- Inline fragmentation leaves the fragment sequence of the payload with the trailing
content right after it. -/
theorem createFragseq_inline (needed : leadSize isSubelem id < payload.length)
    (counted : (payload.length + (255 - leadSize isSubelem id)) / 255 < 2 ^ 16) (buff : Buffer)
    (reads : Reads buff (leadBytes isSubelem id idext).length (payload ++ trailing))
    (fragbuff : Option Buffer) (fragbuffMaxsize : Nat) :
    ∃ out, createFragseq true isSubelem id idext subelemfragid (some buff)
        ((fragseq isSubelem id idext subelemfragid payload).length + trailing.length)
        payload.length fragbuff fragbuffMaxsize =
          .ok (out, (fragseq isSubelem id idext subelemfragid payload).length) ∧
      Reads out 0 (fragseq isSubelem id idext subelemfragid payload ++ trailing) := by
  obtain ⟨params, created, expected, sum, lead, extra, length, small, positive, narrow⟩ :=
    @creationParams_eq isSubelem id idext subelemfragid payload needed counted
  have leadLength := length_leadBytes isSubelem id idext
  rw [← expected]
  generalize rest_eq : payload.drop (leadSize isSubelem id) = rest at length
  generalize first_eq : payload.take (leadSize isSubelem id) = first
  have whole : payload = first ++ rest := by rw [← first_eq, ← rest_eq, take_append_drop]
  have firstLength : first.length = leadSize isSubelem id := by
    rw [← first_eq, length_take]
    omega
  have restNonempty : rest ≠ [] := by
    intro nil
    rw [whole, nil, append_nil] at needed
    omega
  unfold createFragseq
  simp only [created, if_true]
  rw [if_neg (by omega), if_neg (by omega), if_neg (by omega)]
  refine ⟨_, rfl, ?_⟩
  rw [whole, append_assoc] at reads
  obtain ⟨readsFirst, readsRest⟩ := Reads.append_iff.mp reads
  rw [firstLength, leadLength] at readsRest
  have inline : InlineCreation ⟨true, elemunitInfo isSubelem subelemfragid, params, buff,
      params.expectedFragseqlen + trailing.length, payload.length⟩ isSubelem subelemfragid rest
      trailing :=
    ⟨rfl, rfl, extra, by simp only; omega, length, small, restNonempty, positive, narrow⟩
  have placed := inline.moveFragments_placed readsRest
  unfold fragseq
  rw [first_eq, rest_eq, append_assoc, append_assoc]
  apply reads_setLead rfl rfl
  refine Reads.append_iff.mpr ⟨readsFirst.congr (placed.agree.mono (Nat.zero_le _) ?_), ?_⟩
  · omega
  · rw [firstLength, leadLength]
    have behind := placed.reads
    rwa [Nat.sub_self, Nat.zero_mul, drop_zero, Nat.one_mul] at behind

end Sm8650.Wlan
