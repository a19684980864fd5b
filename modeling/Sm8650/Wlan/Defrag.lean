import Sm8650.Wlan.FragSeq

/-!
# Reading fragment sequences back

The two readers of a buffer that starts with a fragment sequence: the one that measures
it, and the one that takes the fragments apart again.
-/

namespace Sm8650.Wlan

open Sm8650.Ring List Reads

variable {isSubelem : Bool} {id idext subelemfragid : UInt8} {payload trailing : List UInt8}

/-- The content after a sequence is empty or starts with a complete unit under another ID
than that of fragments. -/
def Unfragmented (fragid : UInt8) (trailing : List UInt8) : Prop :=
  trailing = [] ∨
    ∃ id len body rest, trailing = id :: len :: (body ++ rest) ∧ body.length = len.toNat ∧
      id ≠ fragid

/-- A complete unit of maximum size, or the last one of its sequence, at `pos`; it is
followed by the fragments of `rest`. -/
structure UnitAt (isSubelem : Bool) (subelemfragid : UInt8) (buff : Buffer) (maxsize pos : Nat)
    (size : Nat) (rest trailing : List UInt8) : Prop where
  len : (buff (pos + 1)).toNat = size
  full : rest ≠ [] → size = 255
  follows : Reads buff (pos + 2 + size)
    (fragments (elemunitInfo isSubelem subelemfragid).fragid rest ++ trailing)
  stop : maxsize = pos + 2 + size +
    (fragments (elemunitInfo isSubelem subelemfragid).fragid rest ++ trailing).length

section Successor

variable {buff : Buffer} {maxsize pos size : Nat} {rest : List UInt8}

theorem UnitAt.successorfrag_eq
    (unit : UnitAt isSubelem subelemfragid buff maxsize pos size rest trailing) :
    successorfrag isSubelem subelemfragid pos buff maxsize =
      if maxsize = pos + (2 + size) then .ok none
      else if maxsize < pos + (2 + size) + 2 then .error .proto
      else if maxsize < pos + (2 + size) + (2 + (buff (pos + (2 + size) + 1)).toNat) then
        .error .proto
      else if buff (pos + (2 + size)) ≠ (elemunitInfo isSubelem subelemfragid).fragid then .ok none
      else if size ≠ 255 then .error .proto
      else if buff (pos + (2 + size) + 1) = 0 then .error .proto
      else
        .ok (some ⟨pos + (2 + size), 2 + (buff (pos + (2 + size) + 1)).toNat,
          (buff (pos + (2 + size) + 1)).toNat⟩) := by
  have stop := unit.stop
  unfold successorfrag
  simp only [elemunitInfo_hdrlen, elemunitInfo_lenPos, elemunitInfo_idPos,
    elemunitInfo_maxpayloadlen, unit.len, Nat.add_zero]
  rw [if_neg (by omega), if_neg (by omega), if_neg (by omega)]

/-- After the last fragment there is no successor. -/
theorem UnitAt.successorfrag_none
    (unfragmented : Unfragmented (elemunitInfo isSubelem subelemfragid).fragid trailing)
    (unit : UnitAt isSubelem subelemfragid buff maxsize pos size [] trailing) :
    successorfrag isSubelem subelemfragid pos buff maxsize = .ok none := by
  have stop := unit.stop
  have follows := unit.follows
  rw [fragments_nil, nil_append] at stop follows
  rw [unit.successorfrag_eq]
  rcases unfragmented with rfl | ⟨id, len, body, rest, rfl, length, other⟩
  · rw [length_nil] at stop
    rw [if_pos (by omega)]
  · obtain ⟨readsId, follows⟩ := cons_iff.mp follows
    obtain ⟨readsLen, -⟩ := cons_iff.mp follows
    rw [length_cons, length_cons, length_append] at stop
    rw [Nat.add_assoc pos 2 size] at readsId readsLen
    rw [if_neg (by omega), if_neg (by omega), readsId, readsLen, if_neg (by omega), if_pos other]

/-- Before the last fragment the successor is the next one. -/
theorem UnitAt.successorfrag_some
    (unit : UnitAt isSubelem subelemfragid buff maxsize pos size rest trailing)
    (nonempty : rest ≠ []) :
    successorfrag isSubelem subelemfragid pos buff maxsize =
        .ok (some ⟨pos + (2 + size), 2 + (rest.take 255).length, (rest.take 255).length⟩) ∧
      UnitAt isSubelem subelemfragid buff maxsize (pos + (2 + size)) (rest.take 255).length
        (rest.drop 255) trailing := by
  have stop := unit.stop
  have follows := unit.follows
  have chunkLength : (rest.take 255).length ≤ 255 := by
    rw [length_take]
    exact Nat.min_le_left _ _
  have chunkPositive : 1 ≤ (rest.take 255).length := by
    have positive := length_pos_iff.mpr nonempty
    rw [length_take]
    omega
  have chunkFull : rest.drop 255 ≠ [] → (rest.take 255).length = 255 := by
    intro more
    have longer : 255 < rest.length := by
      by_contra short
      exact more (drop_eq_nil_of_le (by omega))
    rw [length_take]
    omega
  rw [fragments_of_ne_nil _ nonempty, cons_append, cons_append, append_assoc] at stop follows
  generalize rest.take 255 = chunk at *
  obtain ⟨readsId, follows⟩ := cons_iff.mp follows
  obtain ⟨readsLen, follows⟩ := cons_iff.mp follows
  obtain ⟨-, follows⟩ := append_iff.mp follows
  rw [length_cons, length_cons, length_append] at stop
  have value : (UInt8.ofNat chunk.length).toNat = chunk.length := by
    exact Nat.mod_eq_of_lt (by omega)
  have nonzero : UInt8.ofNat chunk.length ≠ 0 := by
    intro zero
    rw [zero] at value
    have none : chunk.length = 0 := value.symm
    omega
  rw [Nat.add_assoc pos 2 size] at readsId readsLen follows stop
  constructor
  · rw [unit.successorfrag_eq, if_neg (by omega), if_neg (by omega), readsLen, value,
      if_neg (by omega), if_neg (by rw [readsId]; simp), if_neg (by simp [unit.full nonempty]),
      if_neg nonzero]
  · refine ⟨by rw [readsLen, value], chunkFull, ?_, by omega⟩
    rwa [Nat.add_assoc (pos + (2 + size)) 1 1] at follows

/-! ## Measuring -/

theorem fragseqLoop_of_none {successor : Successor} (totallen payloadlen : Nat)
    (last : successorfrag isSubelem subelemfragid successor.pos buff maxsize = .ok none) :
    fragseqLoop isSubelem subelemfragid buff maxsize successor totallen payloadlen =
      .ok (totallen + successor.totallen, payloadlen + successor.payloadlen) := by
  rw [fragseqLoop]
  split
  · rename_i found
    rw [last] at found
    cases found
  · rfl
  · rename_i found
    rw [last] at found
    cases found

theorem fragseqLoop_of_some {successor next : Successor} (totallen payloadlen : Nat)
    (more : successorfrag isSubelem subelemfragid successor.pos buff maxsize = .ok (some next)) :
    fragseqLoop isSubelem subelemfragid buff maxsize successor totallen payloadlen =
      fragseqLoop isSubelem subelemfragid buff maxsize next (totallen + successor.totallen)
        (payloadlen + successor.payloadlen) := by
  rw [fragseqLoop]
  split
  · rename_i found
    rw [more] at found
    cases found
  · rename_i found
    rw [more] at found
    cases found
  · rename_i found
    rw [more] at found
    cases found
    rfl

/-- The loop counts the fragments that follow. -/
theorem UnitAt.fragseqLoop_eq
    (unfragmented : Unfragmented (elemunitInfo isSubelem subelemfragid).fragid trailing)
    (rest : List UInt8) {pos size : Nat} (totallen payloadlen : Nat)
    (unit : UnitAt isSubelem subelemfragid buff maxsize pos size rest trailing) :
    fragseqLoop isSubelem subelemfragid buff maxsize ⟨pos, 2 + size, size⟩ totallen payloadlen =
      .ok (totallen + (2 + size) +
          (fragments (elemunitInfo isSubelem subelemfragid).fragid rest).length,
        payloadlen + size + rest.length) := by
  induction measure : rest.length using Nat.strong_induction_on
    generalizing rest pos size totallen payloadlen with
  | _ bound ih =>
    subst measure
    by_cases nonempty : rest = []
    · subst nonempty
      rw [fragseqLoop_of_none _ _ (unit.successorfrag_none unfragmented), fragments_nil]
      rfl
    · obtain ⟨next, following⟩ := unit.successorfrag_some nonempty
      have split : rest.length = (rest.take 255).length + (rest.drop 255).length := by
        rw [← length_append, take_append_drop]
      have chunkPositive : 0 < (rest.take 255).length := by
        have positive := length_pos_iff.mpr nonempty
        rw [length_take]
        omega
      rw [fragseqLoop_of_some _ _ next]
      simp only
      rw [fragments_of_ne_nil _ nonempty, length_cons, length_cons, length_append]
      generalize rest.drop 255 = later at *
      rw [ih later.length (by omega) later _ _ following rfl]
      congr 2
      · omega
      · omega

/-- The lead fragment of a sequence at the start of a buffer. -/
theorem leadUnit (needed : leadSize isSubelem id < payload.length)
    (reads : Reads buff 0 (fragseq isSubelem id idext subelemfragid payload ++ trailing)) :
    buff 0 = id ∧ buff 1 = 255 ∧
      Reads buff (leadBytes isSubelem id idext).length (payload.take (leadSize isSubelem id)) ∧
      UnitAt isSubelem subelemfragid buff
        ((fragseq isSubelem id idext subelemfragid payload).length + trailing.length) 0 255
        (payload.drop (leadSize isSubelem id)) trailing := by
  have lead := length_leadBytes isSubelem id idext
  have firstLength : (payload.take (leadSize isSubelem id)).length = leadSize isSubelem id := by
    rw [length_take]
    omega
  have size : (fragseq isSubelem id idext subelemfragid payload).length =
      257 + (fragments (elemunitInfo isSubelem subelemfragid).fragid
        (payload.drop (leadSize isSubelem id))).length := by
    unfold fragseq
    rw [length_append, length_append, firstLength, lead]
  unfold fragseq at reads
  rw [append_assoc, append_assoc] at reads
  obtain ⟨readsLead, reads⟩ := append_iff.mp reads
  obtain ⟨readsFirst, readsRest⟩ := append_iff.mp reads
  rw [Nat.zero_add] at readsFirst
  rw [Nat.zero_add, firstLength, lead] at readsRest
  obtain ⟨readsId, readsLen⟩ : buff 0 = id ∧ buff 1 = 255 := by
    unfold leadBytes at readsLead
    split at readsLead
    · obtain ⟨readsId, readsLead⟩ := cons_iff.mp readsLead
      exact ⟨readsId, (cons_iff.mp readsLead).1⟩
    · obtain ⟨readsId, readsLead⟩ := cons_iff.mp readsLead
      exact ⟨readsId, (cons_iff.mp readsLead).1⟩
  refine ⟨readsId, readsLen, readsFirst, ⟨?_, fun _ => rfl, readsRest, ?_⟩⟩
  · rw [readsLen]
    rfl
  · rw [length_append]
    omega

/-- The payload of the lead fragment. -/
theorem leadPayloadlen_eq {fragid : UInt8} (readsId : buff 0 = id) (readsLen : buff 1 = 255) :
    leadPayloadlen isSubelem buff (elemunitInfo isSubelem fragid) = leadSize isSubelem id := by
  unfold leadPayloadlen
  rw [elemunitInfo_idPos, elemunitInfo_lenPos, readsId, readsLen]
  rfl

/-- A buffer that holds a fragment sequence and trailing content is measured exactly. -/
theorem fragseqInfo_eq
    (unfragmented : Unfragmented (elemunitInfo isSubelem subelemfragid).fragid trailing)
    (needed : leadSize isSubelem id < payload.length)
    (reads : Reads buff 0 (fragseq isSubelem id idext subelemfragid payload ++ trailing)) :
    fragseqInfo isSubelem subelemfragid (some buff)
        ((fragseq isSubelem id idext subelemfragid payload).length + trailing.length) =
      .ok ⟨true, (fragseq isSubelem id idext subelemfragid payload).length, payload.length⟩ := by
  obtain ⟨readsId, readsLen, -, unit⟩ := leadUnit needed reads
  have stop := unit.stop
  have restNonempty : payload.drop (leadSize isSubelem id) ≠ [] := by
    intro nil
    have short := drop_eq_nil_iff.mp nil
    omega
  obtain ⟨next, following⟩ := unit.successorfrag_some restNonempty
  have loop := following.fragseqLoop_eq unfragmented _ 257 (leadSize isSubelem id)
  unfold fragseqInfo
  simp only [elemunitInfo_hdrlen, elemunitInfo_lenPos, readsLen]
  rw [show 2 + (255 : UInt8).toNat = 257 from rfl, if_neg (by omega), if_neg (by omega),
    if_neg (by omega), next]
  simp only
  rw [leadPayloadlen_eq readsId readsLen]
  have total : (fragments (elemunitInfo isSubelem subelemfragid).fragid
      (payload.drop (leadSize isSubelem id))).length =
      2 + ((payload.drop (leadSize isSubelem id)).take 255).length +
        (fragments (elemunitInfo isSubelem subelemfragid).fragid
          ((payload.drop (leadSize isSubelem id)).drop 255)).length := by
    rw [fragments_of_ne_nil _ restNonempty, length_cons, length_cons, length_append]
    omega
  have sum : leadSize isSubelem id + ((payload.drop (leadSize isSubelem id)).take 255).length +
      ((payload.drop (leadSize isSubelem id)).drop 255).length = payload.length := by
    rw [Nat.add_assoc, ← length_append, take_append_drop, length_drop]
    omega
  rw [length_append] at stop
  have whole : 257 + (2 + ((payload.drop (leadSize isSubelem id)).take 255).length) +
      (fragments (elemunitInfo isSubelem subelemfragid).fragid
        ((payload.drop (leadSize isSubelem id)).drop 255)).length =
      (fragseq isSubelem id idext subelemfragid payload).length := by
    omega
  rw [loop, sum, whole]
  rfl

end Successor

/-! ## Taking the fragments apart -/

section Loop

variable {inlineDefrag : Bool} {fragbuff : Buffer} {vars : DefragVars}

/-- The buffer the fragments are read from. -/
def DefragVars.source (vars : DefragVars) (inlineDefrag : Bool) (fragbuff : Buffer) : Buffer :=
  if inlineDefrag then vars.out else fragbuff

/-- The variables after the fragment at `curr` has been moved. -/
def DefragVars.moved (vars : DefragVars) (inlineDefrag : Bool) (fragbuff : Buffer) (size : Nat) :
    DefragVars :=
  { vars with
    out := memMove vars.out vars.dst (vars.source inlineDefrag fragbuff) (vars.curr + 2) size
    payloadlen := vars.payloadlen + size
    remlen := vars.remlen - (2 + size) }

theorem defragLoop_of_fragment {size : Nat}
    (fragment : vars.source inlineDefrag fragbuff vars.curr =
      (elemunitInfo isSubelem subelemfragid).fragid)
    (length : (vars.source inlineDefrag fragbuff (vars.curr + 1)).toNat = size) :
    defragLoop inlineDefrag isSubelem subelemfragid fragbuff vars =
      if vars.remlen - (2 + size) = 0 then vars.moved inlineDefrag fragbuff size
      else
        defragLoop inlineDefrag isSubelem subelemfragid fragbuff
          { vars.moved inlineDefrag fragbuff size with
            dst := vars.dst + size, curr := vars.curr + (2 + size) } := by
  subst length
  rw [defragLoop]
  simp only [elemunitInfo_hdrlen, elemunitInfo_lenPos, elemunitInfo_idPos]
  refine (if_pos fragment).trans ?_
  exact dite_eq_ite

theorem defragLoop_of_other (other : vars.source inlineDefrag fragbuff vars.curr ≠
      (elemunitInfo isSubelem subelemfragid).fragid) :
    defragLoop inlineDefrag isSubelem subelemfragid fragbuff vars = vars := by
  rw [defragLoop]
  simp only [elemunitInfo_idPos]
  exact if_neg other

/-- The fragments of `rest` and the trailing content have still to be read. -/
structure Defragging (inlineDefrag isSubelem : Bool) (subelemfragid : UInt8) (fragbuff : Buffer)
    (rest trailing : List UInt8) (vars : DefragVars) : Prop where
  reads : Reads (vars.source inlineDefrag fragbuff) vars.curr
    (fragments (elemunitInfo isSubelem subelemfragid).fragid rest ++ trailing)
  remlen : vars.remlen =
    (fragments (elemunitInfo isSubelem subelemfragid).fragid rest ++ trailing).length
  behind : inlineDefrag = true → vars.dst ≤ vars.curr

/-- The payload has been read. -/
structure Defragged (inlineDefrag : Bool) (fragbuff : Buffer) (rest trailing : List UInt8)
    (before after : DefragVars) : Prop where
  payloadlen : after.payloadlen = before.payloadlen + rest.length
  reads : Reads after.out before.dst rest
  agree : AgreeOn before.out after.out 0 before.dst
  remlen : after.remlen = trailing.length
  residue : trailing ≠ [] → after.dst = before.dst + rest.length ∧
    Reads (after.source inlineDefrag fragbuff) after.curr trailing

/-- Moving one fragment. -/
theorem Defragging.move {rest : List UInt8} (nonempty : rest ≠ [])
    (defragging : Defragging inlineDefrag isSubelem subelemfragid fragbuff rest trailing vars) :
    ∃ chunk later, rest = chunk ++ later ∧ chunk ≠ [] ∧
      vars.source inlineDefrag fragbuff vars.curr = (elemunitInfo isSubelem subelemfragid).fragid ∧
      (vars.source inlineDefrag fragbuff (vars.curr + 1)).toNat = chunk.length ∧
      2 + chunk.length ≤ vars.remlen ∧
      Reads (vars.moved inlineDefrag fragbuff chunk.length).out vars.dst chunk ∧
      AgreeOn vars.out (vars.moved inlineDefrag fragbuff chunk.length).out 0 vars.dst ∧
      Defragging inlineDefrag isSubelem subelemfragid fragbuff later trailing
        { vars.moved inlineDefrag fragbuff chunk.length with
          dst := vars.dst + chunk.length, curr := vars.curr + (2 + chunk.length) } := by
  have reads := defragging.reads
  have remlen := defragging.remlen
  have chunkLength : (rest.take 255).length ≤ 255 := by
    rw [length_take]
    exact Nat.min_le_left _ _
  have chunkNonempty : rest.take 255 ≠ [] := by simpa using nonempty
  rw [fragments_of_ne_nil _ nonempty, cons_append, cons_append, append_assoc] at reads remlen
  refine ⟨rest.take 255, rest.drop 255, (take_append_drop _ _).symm, chunkNonempty, ?_⟩
  generalize rest.take 255 = chunk at *
  obtain ⟨readsId, reads⟩ := cons_iff.mp reads
  obtain ⟨readsLen, reads⟩ := cons_iff.mp reads
  obtain ⟨readsChunk, readsLater⟩ := append_iff.mp reads
  have value : (UInt8.ofNat chunk.length).toNat = chunk.length := by
    exact Nat.mod_eq_of_lt (by omega)
  refine ⟨readsId, by rw [readsLen, value], ?_, readsChunk.move rfl, ?_, ?_, ?_, ?_⟩
  · rw [length_cons, length_cons, length_append] at remlen
    omega
  · exact agreeOn_blit _ (Or.inl (Nat.le_refl _))
  · rw [← Nat.add_assoc vars.curr 2 chunk.length]
    refine readsLater.congr ?_
    cases inlineDefrag with
    | false => exact fun _ _ _ => rfl
    | true =>
      have behind := defragging.behind rfl
      apply agreeOn_blit
      rw [length_slice]
      omega
  · rw [length_cons, length_cons, length_append] at remlen
    simp only [DefragVars.moved]
    omega
  · intro inline
    have behind := defragging.behind inline
    simp only
    omega

/-- The loop reads the payload of all fragments and stops at the trailing content. -/
theorem Defragging.loop
    (unfragmented : Unfragmented (elemunitInfo isSubelem subelemfragid).fragid trailing)
    (rest : List UInt8) (vars : DefragVars) (some : vars.remlen ≠ 0)
    (defragging : Defragging inlineDefrag isSubelem subelemfragid fragbuff rest trailing vars) :
    Defragged inlineDefrag fragbuff rest trailing vars
      (defragLoop inlineDefrag isSubelem subelemfragid fragbuff vars) := by
  induction measure : rest.length using Nat.strong_induction_on generalizing rest vars with
  | _ bound ih =>
    subst measure
    by_cases nonempty : rest = []
    · subst nonempty
      have reads := defragging.reads
      have remlen := defragging.remlen
      rw [fragments_nil] at reads remlen
      rcases unfragmented with rfl | ⟨id, len, body, after, rfl, -, other⟩
      · exact absurd remlen some
      · have readsId := (cons_iff.mp reads).1
        rw [defragLoop_of_other (by rw [readsId]; exact other)]
        exact ⟨rfl, nil _ _, fun _ _ _ => rfl, remlen, fun _ => ⟨rfl, reads⟩⟩
    · obtain ⟨chunk, later, rfl, chunkNonempty, fragment, length, -, readsChunk, agree, next⟩ :=
        defragging.move nonempty
      have chunkPositive := length_pos_iff.mpr chunkNonempty
      rw [defragLoop_of_fragment fragment length]
      have remaining := next.remlen
      simp only [DefragVars.moved] at remaining
      by_cases finished : vars.remlen - (2 + chunk.length) = 0
      · rw [if_pos finished]
        rw [finished] at remaining
        have none := length_eq_zero_iff.mp remaining.symm
        obtain ⟨noFragments, rfl⟩ := append_eq_nil_iff.mp none
        have laterNil : later = [] := by
          by_contra more
          rw [fragments_of_ne_nil _ more] at noFragments
          cases noFragments
        subst laterNil
        rw [append_nil]
        exact ⟨rfl, readsChunk, agree, finished, fun some => absurd rfl some⟩
      · rw [if_neg finished]
        have shorter : later.length < (chunk ++ later).length := by
          rw [length_append]
          omega
        have result := ih later.length shorter later _ finished next rfl
        refine ⟨?_, ?_, ?_, result.remlen, ?_⟩
        · rw [result.payloadlen, length_append]
          simp only [DefragVars.moved]
          omega
        · refine append_iff.mpr ⟨readsChunk.congr ?_, result.reads⟩
          exact result.agree.mono (Nat.zero_le _) (Nat.le_refl _)
        · exact agree.trans (result.agree.mono (Nat.le_refl _) (Nat.le_add_right _ _))
        · intro trailingNonempty
          obtain ⟨dst, reads⟩ := result.residue trailingNonempty
          refine ⟨?_, reads⟩
          rw [dst, length_append]
          exact Nat.add_assoc _ _ _

end Loop

/-! ## Round trip -/

/-- Fragments are no shorter than what they carry. -/
theorem le_length_fragments (fragid : UInt8) (bytes : List UInt8) :
    bytes.length ≤ (fragments fragid bytes).length := by
  have division : bytes.length = bytes.length / 255 * 255 + bytes.length % 255 := by omega
  rw [length_fragments fragid _ _ division (Nat.mod_lt _ (by decide))]
  omega

/-- The lead fragment is not the whole sequence. -/
theorem lt_length_fragseq (idext subelemfragid : UInt8) (needed : leadSize isSubelem id < payload.length) :
    257 < (fragseq isSubelem id idext subelemfragid payload).length := by
  have lead := length_leadBytes isSubelem id idext
  have restNonempty : payload.drop (leadSize isSubelem id) ≠ [] := by
    intro nil
    have short := drop_eq_nil_iff.mp nil
    omega
  have positive := length_fragments_pos (elemunitInfo isSubelem subelemfragid).fragid restNonempty
  unfold fragseq
  rw [length_append, length_append, length_take]
  omega

variable {buff : Buffer}

/-- The loop starts behind the lead fragment. -/
theorem defragging_start {inlineDefrag : Bool} (first : Buffer) (base : Nat)
    (needed : leadSize isSubelem id < payload.length)
    (reads : Reads buff 0 (fragseq isSubelem id idext subelemfragid payload ++ trailing))
    (same : inlineDefrag = true → first = buff)
    (behind : inlineDefrag = true → base + leadSize isSubelem id ≤ 257) :
    Defragging inlineDefrag isSubelem subelemfragid buff (payload.drop (leadSize isSubelem id))
      trailing ⟨first, base + leadSize isSubelem id, 257,
        (fragseq isSubelem id idext subelemfragid payload).length + trailing.length - 257,
        leadSize isSubelem id⟩ := by
  obtain ⟨-, -, -, unit⟩ := leadUnit needed reads
  have stop := unit.stop
  have follows := unit.follows
  refine ⟨?_, ?_, behind⟩
  · cases inlineDefrag with
    | false => exact follows
    | true =>
      rw [same rfl]
      exact follows
  · simp only
    omega

/-- Taking apart a fragment sequence at the start of a buffer: the payload is in the buffer
that receives it, and behind it the trailing content for inline defragmentation. -/
theorem defrag_eq (inlineDefrag : Bool)
    (unfragmented : Unfragmented (elemunitInfo isSubelem subelemfragid).fragid trailing)
    (needed : leadSize isSubelem id < payload.length)
    (reads : Reads buff 0 (fragseq isSubelem id idext subelemfragid payload ++ trailing))
    (out : Buffer) (same : inlineDefrag = true → out = buff) :
    (defrag inlineDefrag isSubelem subelemfragid buff
        ((fragseq isSubelem id idext subelemfragid payload).length + trailing.length) out).2 =
        payload.length ∧
      Reads (defrag inlineDefrag isSubelem subelemfragid buff
          ((fragseq isSubelem id idext subelemfragid payload).length + trailing.length) out).1
        (if inlineDefrag then (leadBytes isSubelem id idext).length else 0)
        (payload ++ if inlineDefrag then trailing else []) := by
  obtain ⟨readsId, readsLen, readsFirst, -⟩ := leadUnit needed reads
  have lead := length_leadBytes isSubelem id idext
  have source : (if hasIdext isSubelem id then 2 + 1 else 2) =
      (leadBytes isSubelem id idext).length := by
    unfold leadBytes
    split <;> rfl
  have firstLength : (payload.take (leadSize isSubelem id)).length = leadSize isSubelem id := by
    rw [length_take]
    omega
  unfold defrag
  simp only [leadPayloadlen_eq readsId readsLen, elemunitInfo_hdrlen, elemunitInfo_lenPos,
    elemunitInfo_idPos, readsId, readsLen, source]
  rw [show 2 + (255 : UInt8).toNat = 257 from rfl]
  generalize base_eq : (if inlineDefrag = true then (leadBytes isSubelem id idext).length else 0) =
    base
  generalize first_eq : (if inlineDefrag = true then out
    else memMove out base buff (leadBytes isSubelem id idext).length (leadSize isSubelem id)) =
    first
  have readsLead : Reads first base (payload.take (leadSize isSubelem id)) := by
    cases inlineDefrag with
    | false =>
      rw [← first_eq]
      exact readsFirst.move firstLength
    | true =>
      rw [← first_eq, ← base_eq, same rfl]
      exact readsFirst
  have longer := lt_length_fragseq idext subelemfragid needed
  have some : DefragVars.remlen ⟨first, base + leadSize isSubelem id, 257,
      (fragseq isSubelem id idext subelemfragid payload).length + trailing.length - 257,
      leadSize isSubelem id⟩ ≠ 0 := by
    simp only
    omega
  have defragging : Defragging inlineDefrag isSubelem subelemfragid buff
      (payload.drop (leadSize isSubelem id)) trailing
      ⟨first, base + leadSize isSubelem id, 257,
        (fragseq isSubelem id idext subelemfragid payload).length + trailing.length - 257,
        leadSize isSubelem id⟩ := by
    refine defragging_start first base needed reads ?_ ?_
    · intro inline
      rw [← first_eq, inline, if_pos rfl, same inline]
    · intro inline
      rw [inline, if_pos rfl] at base_eq
      omega
  have defragged := defragging.loop unfragmented _ _ some
  generalize defragLoop inlineDefrag isSubelem subelemfragid buff _ = vars at defragged ⊢
  have restLength : leadSize isSubelem id + (payload.drop (leadSize isSubelem id)).length =
      payload.length := by
    rw [length_drop]
    omega
  have readsPayload : Reads vars.out base payload := by
    rw [← take_append_drop (leadSize isSubelem id) payload]
    refine append_iff.mpr ⟨readsLead.congr (defragged.agree.mono (Nat.zero_le _) ?_), ?_⟩
    · exact Nat.le_of_eq (congrArg (base + ·) firstLength)
    · rw [firstLength]
      exact defragged.reads
  have payloadlen : vars.payloadlen = payload.length := by rw [defragged.payloadlen, restLength]
  cases inlineDefrag with
  | false => simpa using ⟨payloadlen, readsPayload⟩
  | true =>
    by_cases nil : trailing = []
    · have done : vars.remlen = 0 := by
        rw [defragged.remlen, nil]
        rfl
      simpa [done, nil] using ⟨payloadlen, readsPayload⟩
    · obtain ⟨dst, residue⟩ := defragged.residue nil
      have left : vars.remlen ≠ 0 := by
        rw [defragged.remlen]
        exact fun zero => nil (length_eq_zero_iff.mp zero)
      rw [if_pos ⟨rfl, left⟩]
      refine ⟨payloadlen, append_iff.mpr ⟨readsPayload.congr ?_, ?_⟩⟩
      · apply agreeOn_blit
        simp only at dst
        omega
      · have place : base + payload.length = vars.dst := by
          simp only at dst
          omega
        rw [place]
        exact residue.move defragged.remlen.symm

section

variable (unfragmented : Unfragmented (elemunitInfo isSubelem subelemfragid).fragid trailing)

include unfragmented

/-- Defragmenting a buffer that holds a fragment sequence inline. -/
theorem defragFragseq_inline (needed : leadSize isSubelem id < payload.length)
    (reads : Reads buff 0 (fragseq isSubelem id idext subelemfragid payload ++ trailing))
    (otherbuff : Option Buffer) (otherbuffMaxsize : Nat) :
    ∃ back, defragFragseq true isSubelem subelemfragid (some buff)
        ((fragseq isSubelem id idext subelemfragid payload).length + trailing.length) otherbuff
        otherbuffMaxsize = .ok (back, payload.length) ∧
      Reads back (leadBytes isSubelem id idext).length (payload ++ trailing) := by
  have positive : (fragseq isSubelem id idext subelemfragid payload).length + trailing.length ≠
      0 := by
    have stop := (leadUnit needed reads).2.2.2.stop
    omega
  obtain ⟨length, readsBack⟩ := defrag_eq true unfragmented needed reads buff fun _ => rfl
  refine ⟨_, ?_, readsBack⟩
  unfold defragFragseq
  simp only [positive, if_false, if_true, fragseqInfo_eq unfragmented needed reads,
    Bool.true_eq_false]
  rw [← length]

/-- Defragmenting a buffer that holds a fragment sequence into another buffer. -/
theorem defragFragseq_other (needed : leadSize isSubelem id < payload.length)
    (reads : Reads buff 0 (fragseq isSubelem id idext subelemfragid payload ++ trailing))
    (defragbuff : Buffer) {defragbuffMaxsize : Nat} (room : payload.length ≤ defragbuffMaxsize) :
    ∃ back, defragFragseq false isSubelem subelemfragid (some buff)
        ((fragseq isSubelem id idext subelemfragid payload).length + trailing.length)
        (some defragbuff) defragbuffMaxsize = .ok (back, payload.length) ∧
      Reads back 0 payload := by
  have positive : (fragseq isSubelem id idext subelemfragid payload).length + trailing.length ≠
      0 := by
    have stop := (leadUnit needed reads).2.2.2.stop
    omega
  obtain ⟨length, readsBack⟩ := defrag_eq false unfragmented needed reads defragbuff
    (fun inline => by cases inline)
  refine ⟨_, ?_, (append_iff.mp readsBack).1⟩
  have space : defragbuffMaxsize ≠ 0 := by omega
  have enough : ¬ defragbuffMaxsize < payload.length := by omega
  unfold defragFragseq
  simp only [positive, space, enough, if_false, fragseqInfo_eq unfragmented needed reads,
    Bool.true_eq_false, Bool.false_eq_true]
  rw [← length]

end

/-- A payload that needs no fragmentation has no parameters. -/
theorem leadSize_lt_of_creationParams {params : CreationParams}
    (needed : creationParams isSubelem id payload.length = some params) :
    leadSize isSubelem id < payload.length := by
  unfold creationParams at needed
  simp only [elemunitInfo_maxpayloadlen] at needed
  unfold leadSize
  by_contra short
  rw [if_pos (by split <;> split at short <;> omega)] at needed
  cases needed

/-- Fragmenting a payload inline, measuring the sequence and defragmenting it, inline or
into another buffer, gives back the payload, and the trailing content stays right behind. -/
theorem fragmentation_roundTrip (isSubelem : Bool) (id idext subelemfragid : UInt8)
    (payload trailing : List UInt8) (buff : Buffer) (params : CreationParams)
    (needed : creationParams isSubelem id payload.length = some params)
    (counted : (payload.length + if hasIdext isSubelem id then 1 else 0) / 255 < 65536)
    (reads : Reads buff params.prepayloadLeadbytes (payload ++ trailing))
    (unfragmented : Unfragmented (elemunitInfo isSubelem subelemfragid).fragid trailing)
    (otherbuff : Option Buffer) (otherbuffMaxsize : Nat) :
    ∃ out fragseqlen,
      createFragseq true isSubelem id idext subelemfragid (some buff)
        (params.expectedFragseqlen + trailing.length) payload.length otherbuff otherbuffMaxsize =
          .ok (out, fragseqlen) ∧
      fragseqInfo isSubelem subelemfragid (some out)
        (params.expectedFragseqlen + trailing.length) = .ok ⟨true, fragseqlen, payload.length⟩ ∧
      Reads out fragseqlen trailing ∧
      (∃ back, defragFragseq true isSubelem subelemfragid (some out)
          (params.expectedFragseqlen + trailing.length) otherbuff otherbuffMaxsize =
            .ok (back, payload.length) ∧
        Reads back params.prepayloadLeadbytes payload ∧
        Reads back (params.prepayloadLeadbytes + payload.length) trailing) ∧
      ∀ defragbuff defragbuffMaxsize, payload.length ≤ defragbuffMaxsize →
        ∃ back, defragFragseq false isSubelem subelemfragid (some out)
            (params.expectedFragseqlen + trailing.length) (some defragbuff) defragbuffMaxsize =
              .ok (back, payload.length) ∧
          Reads back 0 payload := by
  have longer := leadSize_lt_of_creationParams needed
  have fits : (payload.length + (255 - leadSize isSubelem id)) / 255 < 2 ^ 16 := by
    unfold leadSize
    split at counted <;> rename_i extn <;> simpa [extn] using counted
  obtain ⟨params', created, expected, -, lead, -⟩ :=
    @creationParams_eq isSubelem id idext subelemfragid payload longer fits
  obtain rfl : params' = params := Option.some.inj (created.symm.trans needed)
  have leadLength : params'.prepayloadLeadbytes = (leadBytes isSubelem id idext).length := by
    have total := length_leadBytes isSubelem id idext
    omega
  rw [leadLength] at reads ⊢
  rw [expected]
  obtain ⟨out, create, readsOut⟩ := createFragseq_inline longer fits buff reads otherbuff
    otherbuffMaxsize
  refine ⟨out, _, create, fragseqInfo_eq unfragmented longer readsOut, ?_, ?_, ?_⟩
  · have behind := (append_iff.mp readsOut).2
    rwa [Nat.zero_add] at behind
  · obtain ⟨back, defragged, readsBack⟩ :=
      defragFragseq_inline unfragmented longer readsOut otherbuff otherbuffMaxsize
    exact ⟨back, defragged, append_iff.mp readsBack⟩
  · intro defragbuff defragbuffMaxsize room
    exact defragFragseq_other unfragmented longer readsOut defragbuff room

/-- A payload that needs two fragments. -/
def longPayload : List UInt8 := List.replicate 300 7

/-- An element with a long payload, followed by an empty element. -/
theorem fragmentation_roundTrip_sample :
    ∃ out fragseqlen,
      createFragseq true false 10 0 0 (some (blit (fun _ => 0) 2 (longPayload ++ [1, 0])))
        (304 + [1, 0].length) longPayload.length none 0 = .ok (out, fragseqlen) ∧
      fragseqInfo false 0 (some out) (304 + [1, 0].length) =
        .ok ⟨true, fragseqlen, longPayload.length⟩ ∧
      Reads out fragseqlen [1, 0] := by
  have length : longPayload.length = 300 := length_replicate
  obtain ⟨out, fragseqlen, create, info, trailing, -⟩ := fragmentation_roundTrip false 10 0 0
    longPayload [1, 0] (blit (fun _ => 0) 2 (longPayload ++ [1, 0])) ⟨304, 2, 1, 45, 2⟩
    (by rw [length]; decide) (by rw [length]; decide) (blit_self _ _ _)
    (.inr ⟨1, 0, [], [], rfl, rfl, by decide⟩) none 0
  exact ⟨out, fragseqlen, create, info, trailing⟩

end Sm8650.Wlan
