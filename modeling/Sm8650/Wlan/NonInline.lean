import Sm8650.Wlan.Defrag

/-!
# Fragmentation into another buffer

For inline fragmentation the payload has the header of the lead fragment reserved in front of
it; for fragmentation into another buffer it starts the payload buffer. The copies of both
modes start at the same offsets, so the second mode skips the first bytes of the payload and
reads as many behind its end.

Sources: `wlan_utility.c` and the comment on `wlan_create_elem_fragseq` in `wlan_utility.h`.
-/

namespace Sm8650.Wlan

open Sm8650.Ring Option

/-! ## Checked copies -/

/-- `moveFragment` into another buffer, for a payload buffer of which the first `limit` bytes
may be read. -/
def moveFragmentWithin (limit : Nat) (creation : Creation) (index size : Nat) (last : Bool)
    (remaining : Nat) (out : Buffer) : Option Buffer :=
  if creation.unit.hdrlen + index * creation.unit.maxpayloadlen + size ≤ limit then
    some (moveFragment creation index size last remaining out)
  else none

/-- `moveMaxsizefrags` into another buffer. -/
def moveMaxsizefragsWithin (limit : Nat) (creation : Creation) : Nat → Nat → Buffer → Option Buffer
  | i + 2, remaining, out => do
      let last := decide (i + 2 = creation.params.numMaxsizefrags ∧
        creation.params.smallerfragSize = 0)
      let out ← moveFragmentWithin limit creation (i + 1) creation.unit.maxpayloadlen last
        remaining out
      moveMaxsizefragsWithin limit creation (i + 1) (remaining - creation.unit.hdrlen) out
  | _, _, out => some out

/-- `moveFragments` into another buffer. -/
def moveFragmentsWithin (limit : Nat) (creation : Creation) (out : Buffer) : Option Buffer :=
  let params := creation.params
  let start := params.numMaxsizefrags % 2 ^ 16
  if params.smallerfragSize ≠ 0 then do
    let out ← moveFragmentWithin limit creation params.numMaxsizefrags params.smallerfragSize true
      params.extrahdrbytes out
    moveMaxsizefragsWithin limit creation start (params.extrahdrbytes - creation.unit.hdrlen) out
  else
    moveMaxsizefragsWithin limit creation start params.extrahdrbytes out

/-- `setLead` into another buffer. -/
def setLeadWithin (limit : Nat) (creation : Creation) (isSubelem : Bool) (id idext : UInt8)
    (out : Buffer) : Option Buffer :=
  if creation.unit.hdrlen + creation.unit.maxpayloadlen ≤ limit then
    some (setLead creation isSubelem id idext out)
  else none

/-- The steps of `wlan_create_elemsubelem_fragseq` into another buffer once its arguments have
been checked, reading the first `limit` bytes of the payload buffer only. -/
def createWithin (limit : Nat) (creation : Creation) (isSubelem : Bool) (id idext : UInt8)
    (fragbuff : Buffer) : Option Buffer := do
  let out ← moveFragmentsWithin limit creation fragbuff
  setLeadWithin limit creation isSubelem id idext out

section Creation

variable {creation : Creation} {limit : Nat}

theorem moveMaxsizefragsWithin_eq (index remaining : Nat) (out after : Buffer)
    (within : moveMaxsizefragsWithin limit creation index remaining out = some after) :
    moveMaxsizefrags creation index remaining out = after := by
  induction index generalizing remaining out with
  | zero => exact some.inj within
  | succ index ih =>
    cases index with
    | zero => exact some.inj within
    | succ index =>
      simp only [moveMaxsizefragsWithin, bind_eq_bind, bind_eq_some_iff,
        moveFragmentWithin, ite_none_right_eq_some, some.injEq] at within
      obtain ⟨moved, ⟨-, same⟩, rest⟩ := within
      rw [moveMaxsizefrags, same]
      exact ih _ _ rest

/-- A checked run that ends is the unchecked one. -/
theorem createWithin_eq {isSubelem : Bool} {id idext : UInt8} {fragbuff after : Buffer}
    (within : createWithin limit creation isSubelem id idext fragbuff = some after) :
    setLead creation isSubelem id idext (moveFragments creation fragbuff) = after := by
  simp only [createWithin, setLeadWithin, bind_eq_bind, bind_eq_some_iff,
    ite_none_right_eq_some, some.injEq] at within
  obtain ⟨moved, fragments, -, rfl⟩ := within
  unfold moveFragmentsWithin at fragments
  unfold moveFragments
  by_cases smaller : creation.params.smallerfragSize ≠ 0
  · simp only [if_pos smaller, bind_eq_bind, bind_eq_some_iff, moveFragmentWithin,
      ite_none_right_eq_some, some.injEq] at fragments
    obtain ⟨first, ⟨-, rfl⟩, rest⟩ := fragments
    rw [if_pos smaller, moveMaxsizefragsWithin_eq _ _ _ _ rest]
  · rw [if_neg smaller] at fragments ⊢
    rw [moveMaxsizefragsWithin_eq _ _ _ _ fragments]

/-- The fragment at the highest position is read from behind the payload. -/
theorem createWithin_none (isSubelem : Bool) (id idext : UInt8) (fragbuff : Buffer)
    (unit : creation.unit.hdrlen = 2 ∧ creation.unit.maxpayloadlen = 255)
    (counted : creation.params.numMaxsizefrags < 2 ^ 16)
    (some : 1 ≤ creation.params.numMaxsizefrags)
    (lone : creation.params.numMaxsizefrags = 1 → creation.params.smallerfragSize ≠ 0)
    (short : limit < 2 + creation.params.numMaxsizefrags * 255 + creation.params.smallerfragSize) :
    createWithin limit creation isSubelem id idext fragbuff = none := by
  unfold createWithin moveFragmentsWithin
  simp only [Nat.mod_eq_of_lt counted]
  by_cases smaller : creation.params.smallerfragSize ≠ 0
  · have outside : moveFragmentWithin limit creation creation.params.numMaxsizefrags
        creation.params.smallerfragSize true creation.params.extrahdrbytes fragbuff = none := by
      unfold moveFragmentWithin
      rw [unit.2, if_neg (by omega)]
    rw [if_pos smaller, outside]
    rfl
  · obtain ⟨index, number⟩ : ∃ index, creation.params.numMaxsizefrags = index + 2 :=
      Nat.exists_eq_add_of_le' (by
        by_contra few
        exact smaller (lone (by omega)))
    rw [if_neg smaller, number]
    have outside : ∀ last, moveFragmentWithin limit creation (index + 1)
        creation.unit.maxpayloadlen last creation.params.extrahdrbytes fragbuff = none := by
      intro last
      unfold moveFragmentWithin
      rw [unit.2, if_neg (by omega)]
    rw [moveMaxsizefragsWithin, outside]
    rfl

/-! ## Bytes that are not written -/

variable {isSubelem : Bool} {id subelemfragid : UInt8}

section

variable (apart : creation.inlineFrag = false)

include apart

section

variable (unit : creation.unit = elemunitInfo isSubelem subelemfragid)

include unit

/-- A fragment is written from its header to its end, and nowhere else. -/
theorem moveFragment_apply (index size : Nat) (last : Bool)
    (remaining : Nat) (out : Buffer) {pos : Nat}
    (outside : pos < index * 255 + remaining ∨ 2 + index * 255 + remaining + size ≤ pos) :
    moveFragment creation index size last remaining out pos = out pos := by
  unfold moveFragment
  simp only [unit, apart, elemunitInfo_hdrlen, elemunitInfo_maxpayloadlen]
  have copied : AgreeOn out
      (memMove out (2 + index * 255 + remaining) creation.payloadbuff (2 + index * 255) size)
      pos (pos + 1) := by
    apply agreeOn_blit
    rw [length_slice]
    omega
  have headed : AgreeOn
      (memMove out (2 + index * 255 + remaining) creation.payloadbuff (2 + index * 255) size)
      (setHeader (elemunitInfo isSubelem subelemfragid)
        (memMove out (2 + index * 255 + remaining) creation.payloadbuff (2 + index * 255) size)
        (2 + index * 255 + remaining - 2) (elemunitInfo isSubelem subelemfragid).fragid
        (UInt8.ofNat size)) pos (pos + 1) :=
    agreeOn_setHeader _ _ _ _ _ (by omega)
  exact (copied.trans headed) pos (Nat.le_refl _) (Nat.lt_succ_self _)

/-- The loop writes no byte in front of its lowest fragment. -/
theorem moveMaxsizefrags_below (count remaining : Nat)
    (out : Buffer) {pos : Nat} (low : pos ≤ 257) (far : 2 * count < remaining) :
    moveMaxsizefrags creation count remaining out pos = out pos := by
  induction count generalizing remaining out with
  | zero => rfl
  | succ count ih =>
    cases count with
    | zero => rfl
    | succ count =>
      have next : 2 * (count + 1) < remaining - 2 := by omega
      have behind : pos < (count + 1) * 255 + remaining := by omega
      rw [moveMaxsizefrags, unit, elemunitInfo_hdrlen, ih _ _ next, moveFragment_apply apart unit (count + 1) _ _ remaining _ (.inl behind)]

/-- The loop writes no byte behind its highest fragment. -/
theorem moveMaxsizefrags_above (count remaining : Nat)
    (out : Buffer) {pos : Nat} (far : 2 + count * 255 + remaining ≤ pos) :
    moveMaxsizefrags creation count remaining out pos = out pos := by
  induction count generalizing remaining out with
  | zero => rfl
  | succ count ih =>
    cases count with
    | zero => rfl
    | succ count =>
      have above : 2 + (count + 1) * 255 + remaining + 255 ≤ pos := by omega
      have next : 2 + (count + 1) * 255 + (remaining - 2) ≤ pos := by
        refine Nat.le_trans (Nat.add_le_add_left (Nat.sub_le remaining 2) _) ?_
        exact Nat.le_trans (Nat.le_add_right _ 255) above
      rw [moveMaxsizefrags, unit, elemunitInfo_hdrlen, elemunitInfo_maxpayloadlen, ih _ _ next,
        moveFragment_apply apart unit (count + 1) _ _ remaining _ (.inr above)]

/-- The lead fragment ends at byte 257. -/
theorem setLead_apply (id idext : UInt8) (out : Buffer) {pos : Nat} (behind : 257 ≤ pos) :
    setLead creation isSubelem id idext out pos = out pos := by
  have copied : AgreeOn out (memMove out 2 creation.payloadbuff 2 255) pos (pos + 1) := by
    apply agreeOn_blit
    rw [length_slice]
    omega
  have headed : AgreeOn (memMove out 2 creation.payloadbuff 2 255)
      (setHeader (elemunitInfo isSubelem subelemfragid) (memMove out 2 creation.payloadbuff 2 255)
        0 id (UInt8.ofNat 255)) pos (pos + 1) :=
    agreeOn_setHeader _ _ _ _ _ (by omega)
  have both := (copied.trans headed) pos (Nat.le_refl _) (Nat.lt_succ_self _)
  unfold setLead
  simp only [unit, apart, elemunitInfo_hdrlen, elemunitInfo_maxpayloadlen]
  by_cases extn : hasIdext isSubelem id = true
  · have place : (elemunitInfo isSubelem subelemfragid).idextPos.toNat ≤ 2 := by
      unfold elemunitInfo
      split
      · exact Nat.zero_le 2
      · exact Nat.le_refl 2
    rw [if_pos extn, Function.update_of_ne (by omega)]
    exact both
  · rw [if_neg extn]
    exact both

/-- Behind its header the lead fragment holds the bytes at the same place of the payload
buffer, so the first ones of the payload are not in it. -/
theorem setLead_payload {id : UInt8} (idext : UInt8)
    (plain : hasIdext isSubelem id = false) (out : Buffer) {pos : Nat} (low : 2 ≤ pos)
    (high : pos < 257) :
    setLead creation isSubelem id idext out pos = creation.payloadbuff pos := by
  have copied : memMove out 2 creation.payloadbuff 2 255 pos = creation.payloadbuff pos := by
    obtain ⟨offset, rfl⟩ := Nat.exists_eq_add_of_le low
    unfold memMove
    rw [blit_at (by rw [length_slice]; omega)]
    simp [slice]
  have headed : AgreeOn (memMove out 2 creation.payloadbuff 2 255)
      (setHeader (elemunitInfo isSubelem subelemfragid) (memMove out 2 creation.payloadbuff 2 255)
        0 id (UInt8.ofNat 255)) pos (pos + 1) :=
    agreeOn_setHeader _ _ _ _ _ (by omega)
  unfold setLead
  simp only [unit, apart, plain, elemunitInfo_hdrlen, elemunitInfo_maxpayloadlen]
  exact (headed pos (Nat.le_refl _) (Nat.lt_succ_self _)).trans copied

end

end

/-- Of a sequence of too many fragments for the counter of the loop some byte behind the lead
fragment is not written. -/
theorem exists_unwritten (creation : Creation) (id : UInt8) (apart : creation.inlineFrag = false)
    (unit : creation.unit = elemunitInfo isSubelem subelemfragid)
    (many : 2 ^ 16 ≤ (creation.payloadlen + (255 - leadSize isSubelem id)) / 255)
    (number : creation.params.numMaxsizefrags =
      (creation.payloadlen + (255 - leadSize isSubelem id)) / 255 % 2 ^ 32)
    (small : creation.params.smallerfragSize < 255) (extra : creation.params.extrahdrbytes =
      (creation.params.numMaxsizefrags + (2 ^ 32 - 1)) % 2 ^ 32 * 2 +
        (if creation.params.smallerfragSize ≠ 0 then 2 else 0))
    (leading : creation.params.prepayloadLeadbytes + leadSize isSubelem id = 257) :
    ∃ pos, 257 ≤ pos ∧ pos < creation.params.prepayloadLeadbytes + creation.payloadlen +
        creation.params.extrahdrbytes ∧
      ∀ fragbuff : Buffer, moveFragments creation fragbuff pos = fragbuff pos := by
  by_cases wide : 2 ^ 16 ≤ creation.params.numMaxsizefrags
  · refine ⟨257, Nat.le_refl _, by omega, fun fragbuff => ?_⟩
    unfold moveFragments
    by_cases smaller : creation.params.smallerfragSize ≠ 0
    · rw [if_pos smaller] at extra ⊢
      rw [unit, elemunitInfo_hdrlen, moveMaxsizefrags_below apart unit _ _ _ (Nat.le_refl _)
        (by omega), moveFragment_apply apart unit _ _ _ _ _ (.inl (by omega))]
    · rw [if_neg smaller] at extra ⊢
      exact moveMaxsizefrags_below apart unit _ _ _ (Nat.le_refl _) (by omega)
  · generalize moved_eq : creation.params.extrahdrbytes = moved at *
    refine ⟨creation.params.prepayloadLeadbytes + creation.payloadlen + moved - 1, by omega,
      by omega, fun fragbuff => ?_⟩
    unfold moveFragments
    by_cases smaller : creation.params.smallerfragSize ≠ 0
    · rw [if_pos smaller, moveMaxsizefrags_above apart unit _ _ _ (by omega),
        moveFragment_apply apart unit _ _ _ _ _ (.inr (by omega))]
    · rw [if_neg smaller]
      exact moveMaxsizefrags_above apart unit _ _ _ (by omega)

end Creation

/-! ## The promise of the second mode -/

/-- A call for fragmentation into another buffer, once its arguments have been checked. -/
def nonInline (isSubelem : Bool) (subelemfragid : UInt8) (params : CreationParams)
    (payloadbuff : Buffer) (payloadbuffMaxsize payloadlen : Nat) : Creation where
  inlineFrag := false
  unit := elemunitInfo isSubelem subelemfragid
  params
  payloadbuff
  payloadbuffMaxsize
  payloadlen

/-- What fragmentation into another buffer promises for a payload at the start of its buffer:
it reads the payload alone, and whatever the other buffer held it writes the sequence that
inline fragmentation makes of the payload behind its reserved bytes. -/
structure NonInlineContract (isSubelem : Bool) (id idext subelemfragid : UInt8)
    (payload : List UInt8) (params : CreationParams) (payloadbuff : Buffer)
    (payloadbuffMaxsize : Nat) : Prop where
  reads : ∀ fragbuff, (createWithin payload.length (nonInline isSubelem subelemfragid params
    payloadbuff payloadbuffMaxsize payload.length) isSubelem id idext fragbuff).isSome
  writes : ∀ fragbuff fragbuffMaxsize inlinebuff inlinebuffMaxsize,
    params.expectedFragseqlen ≤ fragbuffMaxsize →
    params.expectedFragseqlen ≤ inlinebuffMaxsize →
    Reads inlinebuff params.prepayloadLeadbytes payload →
    ∃ out inlineOut fragseqlen,
      createFragseq false isSubelem id idext subelemfragid (some payloadbuff) payloadbuffMaxsize
        payload.length (some fragbuff) fragbuffMaxsize = .ok (out, fragseqlen) ∧
      createFragseq true isSubelem id idext subelemfragid (some inlinebuff) inlinebuffMaxsize
        payload.length none 0 = .ok (inlineOut, fragseqlen) ∧
      AgreeOn inlineOut out 0 fragseqlen

/-- A successful call for fragmentation into another buffer. -/
theorem createFragseq_nonInline {isSubelem : Bool} {id idext subelemfragid : UInt8}
    {params : CreationParams} {payloadlen : Nat} {payloadbuff fragbuff out : Buffer}
    {payloadbuffMaxsize fragbuffMaxsize fragseqlen : Nat}
    (needed : creationParams isSubelem id payloadlen = some params)
    (created : createFragseq false isSubelem id idext subelemfragid (some payloadbuff)
      payloadbuffMaxsize payloadlen (some fragbuff) fragbuffMaxsize = .ok (out, fragseqlen)) :
    out = setLead (nonInline isSubelem subelemfragid params payloadbuff payloadbuffMaxsize
        payloadlen) isSubelem id idext
      (moveFragments (nonInline isSubelem subelemfragid params payloadbuff payloadbuffMaxsize
        payloadlen) fragbuff) ∧ fragseqlen = params.expectedFragseqlen := by
  unfold createFragseq at created
  simp only [needed] at created
  by_cases empty : payloadbuffMaxsize = 0
  · rw [if_pos empty] at created
    cases created
  by_cases short : payloadbuffMaxsize < payloadlen
  · rw [if_neg empty, if_pos short] at created
    cases created
  by_cases fragEmpty : fragbuffMaxsize = 0
  · rw [if_neg empty, if_neg short, if_pos fragEmpty] at created
    cases created
  by_cases fragShort : fragbuffMaxsize < params.expectedFragseqlen
  · rw [if_neg empty, if_neg short, if_neg fragEmpty, if_pos fragShort] at created
    cases created
  rw [if_neg empty, if_neg short, if_neg fragEmpty, if_neg fragShort] at created
  cases created
  exact ⟨rfl, rfl⟩

/-- No payload that needs fragmentation is fragmented into another buffer as promised. The
highest fragment is read from behind the payload; and where the counter of the loop is too
narrow for the fragments, some byte of the sequence is not written. -/
theorem not_nonInlineContract (isSubelem : Bool) (id idext subelemfragid : UInt8)
    (payload : List UInt8) (params : CreationParams) (payloadbuff : Buffer)
    (payloadbuffMaxsize : Nat)
    (needed : creationParams isSubelem id payload.length = some params) :
    ¬ NonInlineContract isSubelem id idext subelemfragid payload params payloadbuff
      payloadbuffMaxsize := by
  intro contract
  have longer := leadSize_lt_of_creationParams needed
  obtain ⟨params', created, expected, leading, number, smaller, extra⟩ :=
    @creationParams_spec isSubelem id payload.length longer
  obtain rfl : params' = params := some.inj (created.symm.trans needed)
  have small : params'.smallerfragSize < 255 := by
    rw [smaller]
    exact Nat.mod_lt _ (by decide)
  by_cases counted : (payload.length + (255 - leadSize isSubelem id)) / 255 < 2 ^ 16
  · have read := contract.reads fun _ => 0
    rw [createWithin_none] at read
    · cases read
    · exact ⟨elemunitInfo_hdrlen _ _, elemunitInfo_maxpayloadlen _ _⟩
    all_goals simp only [nonInline]; omega
  · obtain ⟨pos, behind, inside, kept⟩ := exists_unwritten (nonInline isSubelem subelemfragid
      params' payloadbuff payloadbuffMaxsize payload.length) id rfl rfl
      (Nat.le_of_not_lt counted) number small extra leading
    have written : ∀ fill : UInt8, ∃ inlineOut fragseqlen,
        createFragseq true isSubelem id idext subelemfragid
            (some (blit (fun _ => 0) params'.prepayloadLeadbytes payload))
            params'.expectedFragseqlen payload.length none 0 = .ok (inlineOut, fragseqlen) ∧
          inlineOut pos = fill := by
      intro fill
      obtain ⟨out, inlineOut, fragseqlen, created, inline, agree⟩ :=
        contract.writes (fun _ => fill) _ _ _ (Nat.le_refl _) (Nat.le_refl _)
          (Reads.blit_self (fun _ => 0) _ payload)
      obtain ⟨rfl, rfl⟩ := createFragseq_nonInline needed created
      refine ⟨_, _, inline, ?_⟩
      rw [← agree pos (Nat.zero_le _) (expected ▸ inside), setLead_apply rfl rfl _ _ _ behind, kept]
    obtain ⟨first, _, ranFirst, zero⟩ := written 0
    obtain ⟨second, _, ranSecond, one⟩ := written 1
    have same := Except.ok.inj (ranFirst.symm.trans ranSecond)
    injection same with same
    rw [same, one] at zero
    exact absurd zero (by decide)

/-- A payload with different bytes at its start. -/
def countingPayload : List UInt8 := 0 :: 1 :: 2 :: longPayload

theorem length_longPayload : longPayload.length = 300 := List.length_replicate

theorem length_countingPayload : countingPayload.length = 303 := by
  unfold countingPayload
  rw [List.length_cons, List.length_cons, List.length_cons, length_longPayload]

/-- The second fragment is read from behind the payload, and the sequence starts with the
third byte of the payload. -/
theorem not_nonInlineContract_countingPayload :
    Reads (blit (fun _ => 0) 0 countingPayload) 0 countingPayload ∧
      creationParams false 10 countingPayload.length = some ⟨307, 2, 1, 48, 2⟩ ∧
      (∀ fragbuff, createWithin countingPayload.length (nonInline false 0 ⟨307, 2, 1, 48, 2⟩
        (blit (fun _ => 0) 0 countingPayload) countingPayload.length countingPayload.length) false
        10 0 fragbuff = none) ∧
      (∀ fragbuff out fragseqlen, createFragseq false false 10 0 0
        (some (blit (fun _ => 0) 0 countingPayload)) countingPayload.length countingPayload.length
        (some fragbuff) 307 = .ok (out, fragseqlen) → out 2 = 2) ∧
      ¬ NonInlineContract false 10 0 0 countingPayload ⟨307, 2, 1, 48, 2⟩
        (blit (fun _ => 0) 0 countingPayload) countingPayload.length := by
  have outside : ∀ fragbuff, createWithin countingPayload.length (nonInline false 0
      ⟨307, 2, 1, 48, 2⟩ (blit (fun _ => 0) 0 countingPayload) countingPayload.length
      countingPayload.length) false 10 0 fragbuff = none := by
    intro fragbuff
    rw [length_countingPayload]
    rfl
  have needed : creationParams false 10 countingPayload.length = some ⟨307, 2, 1, 48, 2⟩ := by
    rw [length_countingPayload]
    decide
  refine ⟨Reads.blit_self _ _ _, needed, outside, ?_, fun contract => ?_⟩
  · intro fragbuff out fragseqlen created
    obtain ⟨rfl, -⟩ := createFragseq_nonInline needed created
    exact (@setLead_payload _ false 0 rfl rfl 10 0 rfl _ 2 (by omega) (by omega)).trans rfl
  · have read := contract.reads fun _ => 0
    rw [outside] at read
    cases read

/-- No buffer keeps the promise for this payload. -/
theorem not_nonInlineContract_longPayload :
    ¬ NonInlineContract false 10 0 0 longPayload ⟨304, 2, 1, 45, 2⟩
      (blit (fun _ => 0) 0 longPayload) longPayload.length :=
  not_nonInlineContract false 10 0 0 longPayload _ _ _ (by rw [length_longPayload]; decide)

end Sm8650.Wlan
