import Sm8650.Wlan.Decode

/-!
# The readers stay inside their buffers

The readers of fragment sequences once more, with every access checked against the size of
the buffer it is made to: a run that leaves a buffer has no result. On every buffer the
checked readers do what the unchecked ones do.

Source: `wlan_utility.c`.
-/

namespace Sm8650.Wlan

open Sm8650.Ring Option

/-! ## Checked accesses -/

/-- A byte of a buffer of `maxsize` bytes. -/
def byteWithin (buff : Buffer) (maxsize pos : Nat) : Option UInt8 :=
  if pos < maxsize then some (buff pos) else none

/-- `qdf_mem_move` and `qdf_mem_copy` between buffers of `dstMaxsize` and `srcMaxsize` bytes. -/
def memMoveWithin (dst : Buffer) (dstMaxsize dstPos : Nat) (src : Buffer)
    (srcMaxsize srcPos count : Nat) : Option Buffer :=
  if srcPos + count ≤ srcMaxsize ∧ dstPos + count ≤ dstMaxsize then
    some (memMove dst dstPos src srcPos count)
  else none

variable {buff : Buffer}

theorem byteWithin_eq {maxsize pos : Nat} (inside : pos < maxsize) :
    byteWithin buff maxsize pos = some (buff pos) :=
  if_pos inside

theorem memMoveWithin_eq {dst src : Buffer} {dstMaxsize dstPos srcMaxsize srcPos count : Nat}
    (reads : srcPos + count ≤ srcMaxsize) (writes : dstPos + count ≤ dstMaxsize) :
    memMoveWithin dst dstMaxsize dstPos src srcMaxsize srcPos count =
      some (memMove dst dstPos src srcPos count) :=
  if_pos ⟨reads, writes⟩

/-! ## Measuring -/

/-- `wlan_get_elemsubelem_successorfrag`. -/
def successorfragWithin (isSubelem : Bool) (subelemfragid : UInt8) (curr : Nat) (buff : Buffer)
    (buffMaxsize : Nat) : Option (Except Status (Option Successor)) :=
  let unit := elemunitInfo isSubelem subelemfragid
  if buffMaxsize = 0 then some (.error .inval)
  else if buffMaxsize < curr + unit.hdrlen then some (.error .proto)
  else do
    let currLen ← byteWithin buff buffMaxsize (curr + unit.lenPos)
    let currTotallen := unit.hdrlen + currLen.toNat
    if buffMaxsize < curr + currTotallen then some (.error .proto)
    else if buffMaxsize = curr + currTotallen then some (.ok none)
    else
      let next := curr + currTotallen
      if buffMaxsize < next + unit.hdrlen then some (.error .proto)
      else do
        let nextLen ← byteWithin buff buffMaxsize (next + unit.lenPos)
        let nextTotallen := unit.hdrlen + nextLen.toNat
        if buffMaxsize < next + nextTotallen then some (.error .proto)
        else do
          let nextId ← byteWithin buff buffMaxsize (next + unit.idPos)
          if nextId ≠ unit.fragid then some (.ok none)
          else if currLen.toNat ≠ unit.maxpayloadlen then some (.error .proto)
          else if nextLen = 0 then some (.error .proto)
          else some (.ok (some ⟨next, nextTotallen, nextLen.toNat⟩))

/-- The lengths are checked before anything behind them is read. -/
theorem successorfragWithin_eq (isSubelem : Bool) (subelemfragid : UInt8) (curr : Nat)
    (buff : Buffer) (buffMaxsize : Nat) :
    successorfragWithin isSubelem subelemfragid curr buff buffMaxsize =
      some (successorfrag isSubelem subelemfragid curr buff buffMaxsize) := by
  unfold successorfragWithin successorfrag
  simp only [elemunitInfo_hdrlen, elemunitInfo_lenPos, elemunitInfo_idPos,
    elemunitInfo_maxpayloadlen]
  by_cases empty : buffMaxsize = 0
  · rw [if_pos empty, if_pos empty]
  by_cases header : buffMaxsize < curr + 2
  · rw [if_neg empty, if_neg empty, if_pos header, if_pos header]
  rw [if_neg empty, if_neg empty, if_neg header, if_neg header, byteWithin_eq (by omega)]
  simp only [bind_eq_bind, bind_some]
  generalize curr + (2 + (buff (curr + 1)).toNat) = next
  by_cases cut : buffMaxsize < next
  · rw [if_pos cut, if_pos cut]
  by_cases stop : buffMaxsize = next
  · rw [if_neg cut, if_neg cut, if_pos stop, if_pos stop]
  by_cases nextHeader : buffMaxsize < next + 2
  · rw [if_neg cut, if_neg cut, if_neg stop, if_neg stop, if_pos nextHeader, if_pos nextHeader]
  rw [if_neg cut, if_neg cut, if_neg stop, if_neg stop, if_neg nextHeader, if_neg nextHeader,
    byteWithin_eq (by omega), byteWithin_eq (by omega)]
  simp only [bind_some]
  by_cases nextCut : buffMaxsize < next + (2 + (buff (next + 1)).toNat)
  · rw [if_pos nextCut, if_pos nextCut]
  rw [if_neg nextCut, if_neg nextCut]
  by_cases other : buff next ≠ (elemunitInfo isSubelem subelemfragid).fragid
  · rw [if_pos other, if_pos other]
  rw [if_neg other, if_neg other]
  by_cases short : (buff (curr + 1)).toNat ≠ 255
  · rw [if_pos short, if_pos short]
  rw [if_neg short, if_neg short]
  by_cases none : buff (next + 1) = 0
  · rw [if_pos none, if_pos none]
  · rw [if_neg none, if_neg none]

/-- The loop of `wlan_get_elemsubelem_fragseq_info`. -/
def fragseqLoopWithin (isSubelem : Bool) (subelemfragid : UInt8) (buff : Buffer)
    (buffMaxsize : Nat) (successor : Successor) (totallen payloadlen : Nat) :
    Option (Except Status (Nat × Nat)) :=
  match _ : successorfragWithin isSubelem subelemfragid successor.pos buff buffMaxsize with
  | none => none
  | some (.error status) => some (.error status)
  | some (.ok none) =>
    some (.ok (totallen + successor.totallen, payloadlen + successor.payloadlen))
  | some (.ok (some next)) =>
    fragseqLoopWithin isSubelem subelemfragid buff buffMaxsize next
      (totallen + successor.totallen) (payloadlen + successor.payloadlen)
termination_by buffMaxsize - successor.pos
decreasing_by
  rename_i found
  rw [successorfragWithin_eq] at found
  have inside := successorfrag_pos (Option.some.inj found)
  omega

theorem fragseqLoopWithin_eq (isSubelem : Bool) (subelemfragid : UInt8) (buff : Buffer)
    (buffMaxsize : Nat) (successor : Successor) (totallen payloadlen : Nat) :
    fragseqLoopWithin isSubelem subelemfragid buff buffMaxsize successor totallen payloadlen =
      some (fragseqLoop isSubelem subelemfragid buff buffMaxsize successor totallen
        payloadlen) := by
  induction successor, totallen, payloadlen using
    fragseqLoop.induct isSubelem subelemfragid buff buffMaxsize with
  | case1 successor totallen payloadlen status failed =>
    rw [fragseqLoop_of_error _ _ failed, fragseqLoopWithin]
    split <;> rename_i found <;> rw [successorfragWithin_eq, failed] at found
    · cases found
    · cases found
      rfl
    · cases found
    · cases found
  | case2 successor totallen payloadlen last =>
    rw [fragseqLoop_of_none _ _ last, fragseqLoopWithin]
    split <;> rename_i found <;> rw [successorfragWithin_eq, last] at found
    · cases found
    · cases found
    · cases found
  | case3 successor totallen payloadlen next more ih =>
    rw [fragseqLoop_of_some _ _ more, fragseqLoopWithin]
    split <;> rename_i found <;> rw [successorfragWithin_eq, more] at found
    · cases found
    · cases found
    · cases found
    · cases found
      exact ih

/-- The number of payload bytes of the unit at the start of a buffer. -/
def leadPayloadlenWithin (isSubelem : Bool) (buff : Buffer) (buffMaxsize : Nat)
    (unit : ElemUnit) : Option Nat := do
  let id ← byteWithin buff buffMaxsize unit.idPos
  let len ← byteWithin buff buffMaxsize unit.lenPos
  some (if hasIdext isSubelem id then len.toNat - 1 else len.toNat)

variable {isSubelem : Bool}

theorem leadPayloadlenWithin_eq {fragid : UInt8} {buffMaxsize : Nat} (header : 2 ≤ buffMaxsize) :
    leadPayloadlenWithin isSubelem buff buffMaxsize (elemunitInfo isSubelem fragid) =
      some (leadPayloadlen isSubelem buff (elemunitInfo isSubelem fragid)) := by
  unfold leadPayloadlenWithin leadPayloadlen
  rw [elemunitInfo_idPos, elemunitInfo_lenPos, byteWithin_eq (by omega), byteWithin_eq (by omega)]
  rfl

/-- `wlan_get_elemsubelem_fragseq_info`. -/
def fragseqInfoWithin (isSubelem : Bool) (subelemfragid : UInt8) (buff : Option Buffer)
    (buffMaxsize : Nat) : Option (Except Status FragseqInfo) :=
  let unit := elemunitInfo isSubelem 0
  match buff with
  | none => some (.error .nullValue)
  | some buff =>
    if buffMaxsize = 0 then some (.error .inval)
    else if buffMaxsize < unit.hdrlen then some (.error .proto)
    else do
      let len ← byteWithin buff buffMaxsize unit.lenPos
      let totallen := unit.hdrlen + len.toNat
      if buffMaxsize < totallen then some (.error .proto)
      else
        match ← successorfragWithin isSubelem subelemfragid 0 buff buffMaxsize with
        | .error status => some (.error status)
        | .ok none => some (.ok ⟨false, 0, 0⟩)
        | .ok (some successor) => do
            let payloadlen ← leadPayloadlenWithin isSubelem buff buffMaxsize unit
            let lengths ← fragseqLoopWithin isSubelem subelemfragid buff buffMaxsize successor
              totallen payloadlen
            some (lengths.map fun lengths => ⟨true, lengths.1, lengths.2⟩)

/-- Measuring reads inside the buffer only, whatever it holds. -/
theorem fragseqInfoWithin_eq (isSubelem : Bool) (subelemfragid : UInt8) (buff : Option Buffer)
    (buffMaxsize : Nat) :
    fragseqInfoWithin isSubelem subelemfragid buff buffMaxsize =
      some (fragseqInfo isSubelem subelemfragid buff buffMaxsize) := by
  cases buff with
  | none => rfl
  | some buff =>
    unfold fragseqInfoWithin fragseqInfo
    simp only [elemunitInfo_hdrlen, elemunitInfo_lenPos]
    by_cases empty : buffMaxsize = 0
    · rw [if_pos empty, if_pos empty]
    by_cases header : buffMaxsize < 2
    · rw [if_neg empty, if_neg empty, if_pos header, if_pos header]
    rw [if_neg empty, if_neg empty, if_neg header, if_neg header, byteWithin_eq (by omega),
      successorfragWithin_eq, leadPayloadlenWithin_eq (by omega)]
    simp only [bind_eq_bind, bind_some]
    by_cases cut : buffMaxsize < 2 + (buff 1).toNat
    · rw [if_pos cut, if_pos cut]
    rw [if_neg cut, if_neg cut]
    rcases successorfrag isSubelem subelemfragid 0 buff buffMaxsize with status | _ | successor
    · rfl
    · rfl
    · simp [fragseqLoopWithin_eq]

/-! ## Taking the fragments apart -/

/-- The loop of `wlan_defrag_elemsubelem_fragseq` over the non-lead fragments; `outMaxsize` is
the size of the buffer that receives the payload. -/
def defragLoopWithin (inlineDefrag isSubelem : Bool) (subelemfragid : UInt8) (fragbuff : Buffer)
    (fragbuffMaxsize outMaxsize : Nat) (vars : DefragVars) : Option DefragVars :=
  let unit := elemunitInfo isSubelem subelemfragid
  let source := if inlineDefrag then vars.out else fragbuff
  match byteWithin source fragbuffMaxsize (vars.curr + unit.idPos) with
  | none => none
  | some id =>
    if id = unit.fragid then
      match byteWithin source fragbuffMaxsize (vars.curr + unit.lenPos) with
      | none => none
      | some len =>
        let currTotallen := unit.hdrlen + len.toNat
        match memMoveWithin vars.out outMaxsize vars.dst source fragbuffMaxsize
          (vars.curr + unit.hdrlen) len.toNat with
        | none => none
        | some out =>
          let moved :=
            { vars with
              out
              payloadlen := vars.payloadlen + len.toNat
              remlen := vars.remlen - currTotallen }
          if _ : vars.remlen - currTotallen = 0 then some moved
          else
            defragLoopWithin inlineDefrag isSubelem subelemfragid fragbuff fragbuffMaxsize
              outMaxsize
              { moved with dst := vars.dst + len.toNat, curr := vars.curr + currTotallen }
    else some vars
termination_by vars.remlen
decreasing_by
  simp only [elemunitInfo_hdrlen] at *
  omega

/-- The steps of `wlan_defrag_elemsubelem_fragseq` once its arguments have been checked. -/
def defragWithin (inlineDefrag isSubelem : Bool) (subelemfragid : UInt8) (fragbuff : Buffer)
    (fragbuffMaxsize : Nat) (out : Buffer) (outMaxsize : Nat) : Option (Buffer × Nat) := do
  let unit := elemunitInfo isSubelem subelemfragid
  let payloadlen ← leadPayloadlenWithin isSubelem fragbuff fragbuffMaxsize unit
  let id ← byteWithin fragbuff fragbuffMaxsize unit.idPos
  let len ← byteWithin fragbuff fragbuffMaxsize unit.lenPos
  let src := if hasIdext isSubelem id then unit.hdrlen + 1 else unit.hdrlen
  let totallen := unit.hdrlen + len.toNat
  let dst := if inlineDefrag then src else 0
  let lead ← (if inlineDefrag then some out
    else memMoveWithin out outMaxsize dst fragbuff fragbuffMaxsize src payloadlen)
  let vars ← defragLoopWithin inlineDefrag isSubelem subelemfragid fragbuff fragbuffMaxsize
    outMaxsize
    { out := lead, dst := dst + payloadlen, curr := totallen
      remlen := fragbuffMaxsize - totallen, payloadlen }
  if inlineDefrag ∧ vars.remlen ≠ 0 then do
    let moved ← memMoveWithin vars.out outMaxsize vars.dst vars.out fragbuffMaxsize vars.curr
      vars.remlen
    some (moved, vars.payloadlen)
  else some (vars.out, vars.payloadlen)

/-- `wlan_defrag_elemsubelem_fragseq`. -/
def defragFragseqWithin (inlineDefrag isSubelem : Bool) (subelemfragid : UInt8)
    (fragbuff : Option Buffer) (fragbuffMaxsize : Nat) (defragbuff : Option Buffer)
    (defragbuffMaxsize : Nat) : Option (Except Status (Buffer × Nat)) :=
  match fragbuff with
  | none => some (.error .nullValue)
  | some fragbuff =>
    if fragbuffMaxsize = 0 then some (.error .inval)
    else if inlineDefrag then do
      match ← fragseqInfoWithin isSubelem subelemfragid (some fragbuff) fragbuffMaxsize with
      | .error status => some (.error status)
      | .ok info =>
        if info.isFragseq = false then some (.error .inval)
        else do
          let result ← defragWithin true isSubelem subelemfragid fragbuff fragbuffMaxsize
            fragbuff fragbuffMaxsize
          some (.ok result)
    else
      match defragbuff with
      | none => some (.error .nullValue)
      | some defragbuff =>
        if defragbuffMaxsize = 0 then some (.error .inval)
        else do
          match ← fragseqInfoWithin isSubelem subelemfragid (some fragbuff)
            fragbuffMaxsize with
          | .error status => some (.error status)
          | .ok info =>
            if info.isFragseq = false then some (.error .inval)
            else if defragbuffMaxsize < info.payloadlen then some (.error .inval)
            else do
              let result ← defragWithin false isSubelem subelemfragid fragbuff
                fragbuffMaxsize defragbuff defragbuffMaxsize
              some (.ok result)

section Loop

variable {inlineDefrag isSubelem : Bool} {subelemfragid : UInt8} {fragbuff : Buffer}
  {vars : DefragVars} {fragbuffMaxsize outMaxsize : Nat} {trailing : List UInt8}

theorem defragLoopWithin_of_fragment {size : Nat}
    (fragment : vars.source inlineDefrag fragbuff vars.curr =
      (elemunitInfo isSubelem subelemfragid).fragid)
    (length : (vars.source inlineDefrag fragbuff (vars.curr + 1)).toNat = size)
    (reads : vars.curr + (2 + size) ≤ fragbuffMaxsize) (writes : vars.dst + size ≤ outMaxsize) :
    defragLoopWithin inlineDefrag isSubelem subelemfragid fragbuff fragbuffMaxsize outMaxsize vars =
      if vars.remlen - (2 + size) = 0 then some (vars.moved inlineDefrag fragbuff size)
      else
        defragLoopWithin inlineDefrag isSubelem subelemfragid fragbuff fragbuffMaxsize outMaxsize
          { vars.moved inlineDefrag fragbuff size with
            dst := vars.dst + size, curr := vars.curr + (2 + size) } := by
  subst length
  unfold DefragVars.source at fragment reads writes
  rw [defragLoopWithin]
  simp only [elemunitInfo_hdrlen, elemunitInfo_lenPos, elemunitInfo_idPos]
  rw [byteWithin_eq (by omega), byteWithin_eq (by omega)]
  simp only
  rw [memMoveWithin_eq (by omega) writes]
  refine (if_pos fragment).trans ?_
  exact dite_eq_ite

theorem defragLoopWithin_of_other (other : vars.source inlineDefrag fragbuff vars.curr ≠
      (elemunitInfo isSubelem subelemfragid).fragid) (reads : vars.curr < fragbuffMaxsize) :
    defragLoopWithin inlineDefrag isSubelem subelemfragid fragbuff fragbuffMaxsize outMaxsize
      vars = some vars := by
  rw [defragLoopWithin]
  simp only [elemunitInfo_idPos, Nat.add_zero]
  rw [byteWithin_eq reads]
  exact if_neg other

/-- The loop reads the fragments that the validation has seen, and nothing behind them; the
content that is left ends where the buffer does. -/
theorem Defragging.loopWithin (fragbuffMaxsize outMaxsize : Nat)
    (unfragmented : Unfragmented (elemunitInfo isSubelem subelemfragid).fragid trailing)
    (rest : List UInt8) (vars : DefragVars) (some : vars.remlen ≠ 0)
    (stop : vars.curr + vars.remlen = fragbuffMaxsize) (room : vars.dst + rest.length ≤ outMaxsize)
    (defragging : Defragging inlineDefrag isSubelem subelemfragid fragbuff rest trailing vars) :
    ∃ after, defragLoopWithin inlineDefrag isSubelem subelemfragid fragbuff fragbuffMaxsize
        outMaxsize vars = Option.some after ∧
      defragLoop inlineDefrag isSubelem subelemfragid fragbuff vars = after ∧
      (after.remlen ≠ 0 → after.curr + after.remlen = fragbuffMaxsize ∧
        (inlineDefrag = true → after.dst ≤ after.curr)) := by
  induction measure : rest.length using Nat.strong_induction_on generalizing rest vars with
  | _ bound ih =>
    subst measure
    by_cases nonempty : rest = []
    · subst nonempty
      have reads := defragging.reads
      have remlen := defragging.remlen
      rw [fragments_nil] at reads remlen
      rcases unfragmented with rfl | ⟨id, len, body, after, rfl, -, other⟩
      · exact absurd remlen some
      · have readsId := (Reads.cons_iff.mp reads).1
        have notFragment : vars.source inlineDefrag fragbuff vars.curr ≠
            (elemunitInfo isSubelem subelemfragid).fragid := by
          rw [readsId]
          exact other
        exact ⟨vars, defragLoopWithin_of_other notFragment (by omega),
          defragLoop_of_other notFragment, fun _ => ⟨stop, defragging.behind⟩⟩
    · obtain ⟨chunk, later, rfl, chunkNonempty, fragment, length, inside, -, -, next⟩ :=
        defragging.move nonempty
      have chunkPositive := List.length_pos_iff.mpr chunkNonempty
      rw [List.length_append] at room
      rw [defragLoop_of_fragment fragment length,
        defragLoopWithin_of_fragment fragment length (by omega) (by omega)]
      by_cases finished : vars.remlen - (2 + chunk.length) = 0
      · rw [if_pos finished, if_pos finished]
        exact ⟨_, rfl, rfl, fun left => absurd finished left⟩
      · rw [if_neg finished, if_neg finished]
        have shorter : later.length < (chunk ++ later).length := by
          rw [List.length_append]
          omega
        refine ih later.length shorter later _ finished ?_ ?_ next rfl
        · simp only [DefragVars.moved]
          omega
        · simp only
          omega

end Loop

/-- Taking a fragment sequence apart stays inside both buffers. -/
theorem defragWithin_eq {id idext subelemfragid : UInt8} {payload trailing : List UInt8}
    (inlineDefrag : Bool)
    (unfragmented : Unfragmented (elemunitInfo isSubelem subelemfragid).fragid trailing)
    (needed : leadSize isSubelem id < payload.length)
    (reads : Reads buff 0 (fragseq isSubelem id idext subelemfragid payload ++ trailing))
    {maxsize : Nat}
    (stop : maxsize = (fragseq isSubelem id idext subelemfragid payload).length + trailing.length)
    (out : Buffer) (same : inlineDefrag = true → out = buff) {outMaxsize : Nat}
    (room : if inlineDefrag then outMaxsize = maxsize else payload.length ≤ outMaxsize) :
    defragWithin inlineDefrag isSubelem subelemfragid buff maxsize out outMaxsize =
      some (defrag inlineDefrag isSubelem subelemfragid buff maxsize out) := by
  obtain ⟨readsId, readsLen, -, -⟩ := leadUnit needed reads
  have longer := lt_length_fragseq idext subelemfragid needed
  have lead := length_leadBytes isSubelem id idext
  have source : (if hasIdext isSubelem id then 2 + 1 else 2) =
      (leadBytes isSubelem id idext).length := by
    unfold leadBytes
    split <;> rfl
  unfold defragWithin defrag
  simp only [elemunitInfo_hdrlen, elemunitInfo_lenPos, elemunitInfo_idPos, bind_eq_bind]
  rw [leadPayloadlenWithin_eq (by omega), byteWithin_eq (by omega), byteWithin_eq (by omega)]
  simp only [bind_some, leadPayloadlen_eq readsId readsLen, readsId, readsLen, source]
  rw [show 2 + (255 : UInt8).toNat = 257 from rfl]
  generalize base_eq : (if inlineDefrag = true then (leadBytes isSubelem id idext).length else 0) =
    base
  have leadMove : (if inlineDefrag = true then some out
      else memMoveWithin out outMaxsize base buff maxsize (leadBytes isSubelem id idext).length
        (leadSize isSubelem id)) =
      some (if inlineDefrag = true then out
        else memMove out base buff (leadBytes isSubelem id idext).length
          (leadSize isSubelem id)) := by
    cases inlineDefrag with
    | true => rfl
    | false =>
      rw [if_neg (by decide)] at room base_eq
      rw [if_neg (by decide), if_neg (by decide), memMoveWithin_eq (by omega) (by omega)]
  rw [leadMove]
  simp only [bind_some]
  generalize first_eq : (if inlineDefrag = true then out
    else memMove out base buff (leadBytes isSubelem id idext).length (leadSize isSubelem id)) =
    first
  have start : inlineDefrag = true → first = buff := by
    intro inline
    rw [← first_eq, inline, if_pos rfl, same inline]
  have behind : inlineDefrag = true → base + leadSize isSubelem id ≤ 257 := by
    intro inline
    rw [inline, if_pos rfl] at base_eq
    omega
  have defragging := defragging_start first base needed reads start behind
  rw [← stop] at defragging
  have restLength : (payload.drop (leadSize isSubelem id)).length =
      payload.length - leadSize isSubelem id := List.length_drop
  have space : base + leadSize isSubelem id +
      (payload.drop (leadSize isSubelem id)).length ≤ outMaxsize := by
    cases inlineDefrag with
    | true =>
      have unit := defragging.remlen
      have rest := le_length_fragments (elemunitInfo isSubelem subelemfragid).fragid
        (payload.drop (leadSize isSubelem id))
      have before := behind rfl
      rw [if_pos rfl] at room
      rw [List.length_append] at unit
      simp only at unit
      omega
    | false =>
      rw [if_neg (by decide)] at room base_eq
      omega
  obtain ⟨after, within, loop, residue⟩ := defragging.loopWithin maxsize outMaxsize unfragmented
    _ _ (by simp only; omega) (by simp only; omega) space
  rw [within, loop]
  simp only [bind_some]
  by_cases left : inlineDefrag = true ∧ after.remlen ≠ 0
  · rw [if_pos left, if_pos left]
    obtain ⟨total, behind⟩ := residue left.2
    have before := behind left.1
    rw [left.1, if_pos rfl] at room
    rw [memMoveWithin_eq (by omega) (by omega)]
    rfl
  · rw [if_neg left, if_neg left]

theorem FragSequence.defragWithin_eq {subelemfragid id : UInt8} {maxsize : Nat} {lead : List UInt8}
    {frags : List (List UInt8)} {trailing : List UInt8}
    (sequence : FragSequence (elemunitInfo isSubelem subelemfragid).fragid (contentFrom buff maxsize 0) id lead frags trailing)
    (inlineDefrag : Bool) (out : Buffer) (same : inlineDefrag = true → out = buff)
    {outMaxsize : Nat}
    (room : if inlineDefrag then outMaxsize = maxsize else (sequencePayload isSubelem id lead frags).length ≤ outMaxsize)
    :
    defragWithin inlineDefrag isSubelem subelemfragid buff maxsize out outMaxsize =
      some (defrag inlineDefrag isSubelem subelemfragid buff maxsize out) := by
  obtain ⟨reads, length, total⟩ := sequence.reads
  refine Sm8650.Wlan.defragWithin_eq inlineDefrag sequence.unfragmented sequence.fragseq_eq.1
    reads ?_ out same room
  rw [length, total]

/-- Defragmenting stays inside its buffers, whatever they hold. -/
theorem defragFragseqWithin_eq (inlineDefrag isSubelem : Bool) (subelemfragid : UInt8)
    (fragbuff : Option Buffer) (fragbuffMaxsize : Nat) (defragbuff : Option Buffer)
    (defragbuffMaxsize : Nat) :
    defragFragseqWithin inlineDefrag isSubelem subelemfragid fragbuff fragbuffMaxsize defragbuff
        defragbuffMaxsize =
      some (defragFragseq inlineDefrag isSubelem subelemfragid fragbuff fragbuffMaxsize defragbuff
        defragbuffMaxsize) := by
  cases fragbuff with
  | none => rfl
  | some fragbuff =>
    unfold defragFragseqWithin defragFragseq
    by_cases empty : fragbuffMaxsize = 0
    · simp [empty]
    simp only [empty, fragseqInfoWithin_eq, bind_eq_bind, bind_some]
    rcases found : fragseqInfo isSubelem subelemfragid (some fragbuff) fragbuffMaxsize with
      status | ⟨isFragseq, totallen, payloadlen⟩
    · cases inlineDefrag with
      | true => rfl
      | false =>
        cases defragbuff with
        | none => rfl
        | some defragbuff => by_cases space : defragbuffMaxsize = 0 <;> simp [space]
    · cases isFragseq with
      | false =>
        cases inlineDefrag with
        | true => rfl
        | false =>
          cases defragbuff with
          | none => rfl
          | some defragbuff => by_cases space : defragbuffMaxsize = 0 <;> simp [space]
      | true =>
        obtain ⟨id, lead, frags, trailing, sequence⟩ := exists_fragSequence found
        cases inlineDefrag with
        | true =>
          rw [sequence.defragWithin_eq true fragbuff (fun _ => rfl) (by simp)]
          rfl
        | false =>
          cases defragbuff with
          | none => rfl
          | some defragbuff =>
            have lengths := Except.ok.inj (found.symm.trans sequence.fragseqInfo_eq)
            injection lengths with _ _ payload
            by_cases space : defragbuffMaxsize = 0
            · simp [space]
            by_cases short : defragbuffMaxsize < payloadlen
            · simp [short]
            · simp only [space, short]
              rw [sequence.defragWithin_eq false defragbuff (fun inline => by cases inline)
                (by rw [if_neg (by decide)]; omega)]
              rfl

/-- Measuring and defragmenting untrusted bytes: both stay inside the buffers; the buffers
that are reported to start with a fragment sequence are those that do; and a sequence is
measured and taken apart exactly. -/
theorem fragseq_of_untrusted (isSubelem : Bool) (subelemfragid : UInt8) (buff : Buffer)
    (maxsize : Nat) :
    fragseqInfoWithin isSubelem subelemfragid (some buff) maxsize =
        some (fragseqInfo isSubelem subelemfragid (some buff) maxsize) ∧
      (∀ inlineDefrag defragbuff defragbuffMaxsize,
        defragFragseqWithin inlineDefrag isSubelem subelemfragid (some buff) maxsize defragbuff
            defragbuffMaxsize =
          some (defragFragseq inlineDefrag isSubelem subelemfragid (some buff) maxsize defragbuff
            defragbuffMaxsize)) ∧
      ((∃ totallen payloadlen, fragseqInfo isSubelem subelemfragid (some buff) maxsize =
          .ok ⟨true, totallen, payloadlen⟩) ↔
        ∃ id lead frags trailing, FragSequence (elemunitInfo isSubelem subelemfragid).fragid
          (contentFrom buff maxsize 0) id lead frags trailing) ∧
      ∀ id lead frags trailing, FragSequence (elemunitInfo isSubelem subelemfragid).fragid
          (contentFrom buff maxsize 0) id lead frags trailing →
        fragseqInfo isSubelem subelemfragid (some buff) maxsize =
            .ok ⟨true, unitsLength (lead :: frags),
              (sequencePayload isSubelem id lead frags).length⟩ ∧
          (∀ otherbuff otherbuffMaxsize, ∃ back,
            defragFragseq true isSubelem subelemfragid (some buff) maxsize otherbuff
                otherbuffMaxsize = .ok (back, (sequencePayload isSubelem id lead frags).length) ∧
              Reads back (leadBytes isSubelem id (lead.headD 0)).length
                (sequencePayload isSubelem id lead frags ++ trailing)) ∧
          ∀ defragbuff defragbuffMaxsize,
            (sequencePayload isSubelem id lead frags).length ≤ defragbuffMaxsize →
              ∃ back, defragFragseq false isSubelem subelemfragid (some buff) maxsize
                  (some defragbuff) defragbuffMaxsize =
                    .ok (back, (sequencePayload isSubelem id lead frags).length) ∧
                Reads back 0 (sequencePayload isSubelem id lead frags) := by
  refine ⟨fragseqInfoWithin_eq .., fun _ _ _ => defragFragseqWithin_eq .., fragseqInfo_iff, ?_⟩
  intro id lead frags trailing sequence
  refine ⟨sequence.fragseqInfo_eq, sequence.defrag_inline, ?_⟩
  intro defragbuff defragbuffMaxsize room
  exact sequence.defrag_other defragbuff room

/-- The payload of a lead unit. -/
def leadBody : List UInt8 := List.replicate 255 7

theorem length_leadBody : leadBody.length = 255 := List.length_replicate

/-- An element of maximum size with one fragment, followed by an empty element. -/
def fragmentedElement : List UInt8 :=
  10 :: 255 :: (leadBody ++ ([[9]].flatMap (fragUnit 242) ++ [1, 0]))

theorem contentFrom_blit (bytes : List UInt8) :
    contentFrom (blit (fun _ => 0) 0 bytes) bytes.length 0 = bytes :=
  slice_blit _ _ _

theorem fragSequence_fragmentedElement :
    FragSequence (elemunitInfo false 0).fragid
      (contentFrom (blit (fun _ => 0) 0 fragmentedElement) fragmentedElement.length 0) 10
      leadBody [[9]] [1, 0] where
  bytes_eq := by
    rw [contentFrom_blit]
    rfl
  lead_length := length_leadBody
  chain := .last (by decide) (by decide)
  unfragmented := .inr ⟨1, 0, [], [], rfl, rfl, by decide⟩

/-- Its payload is put together inline, with the empty element right behind. -/
theorem fragseq_of_untrusted_fragmentedElement :
    ∃ back, defragFragseq true false 0 (some (blit (fun _ => 0) 0 fragmentedElement))
        fragmentedElement.length none 0 = .ok (back, (leadBody ++ [9]).length) ∧
      Reads back 2 (leadBody ++ [9] ++ [1, 0]) := by
  obtain ⟨-, -, -, decoded⟩ := fragseq_of_untrusted false 0
    (blit (fun _ => 0) 0 fragmentedElement) fragmentedElement.length
  obtain ⟨-, inline, -⟩ := decoded _ _ _ _ fragSequence_fragmentedElement
  exact inline none 0

end Sm8650.Wlan
