import Sm8650.Data.Ring

/-!
# Fragmentation of elements

An element unit is an 802.11 element or subelement: an ID byte, a length byte, and a
payload of at most 255 bytes. A longer payload is cut into a sequence of units, the first
under its own ID and the others under the fragment ID.

A buffer maps offsets to bytes; its size is passed beside it, as in the source. Sizes are
natural numbers, except for the two counters that are narrower than a size. The output
pointers of the source are not null.

Source: `wlan_utility.c`.
-/

namespace Sm8650.Wlan

open Sm8650.Ring Function

/-- The bytes of a buffer. -/
abbrev Buffer := Nat → UInt8

/-- The error codes used here. -/
inductive Status
  | nullValue
  | inval
  | proto
  deriving DecidableEq, Repr

/-- `WLAN_ELEMID_FRAGMENT`. -/
def elemidFragment : UInt8 := 242

/-- `WLAN_ELEMID_EXTN_ELEM`. -/
def elemidExtnElem : UInt8 := 255

/-- `qdf_mem_move` and `qdf_mem_copy`. -/
def memMove (dst : Buffer) (dstPos : Nat) (src : Buffer) (srcPos count : Nat) : Buffer :=
  blit dst dstPos (slice src srcPos count)

/-- What `wlan_get_elemunit_info` says of an element unit. -/
structure ElemUnit where
  fragid : UInt8
  hdrlen : Nat
  maxpayloadlen : Nat
  idPos : Nat
  lenPos : Nat
  idextPos : Int
  deriving DecidableEq, Repr

/-- `wlan_get_elemunit_info`. -/
def elemunitInfo (isSubelem : Bool) (subelemfragid : UInt8) : ElemUnit :=
  if isSubelem then
    { fragid := subelemfragid, hdrlen := 2, maxpayloadlen := 255, idPos := 0, lenPos := 1,
      idextPos := -1 }
  else
    { fragid := elemidFragment, hdrlen := 2, maxpayloadlen := 255, idPos := 0, lenPos := 1,
      idextPos := 2 }

/-- The unit has an element ID extension. -/
def hasIdext (isSubelem : Bool) (id : UInt8) : Bool :=
  !isSubelem && id == elemidExtnElem

/-! ## Creating a fragment sequence -/

/-- The parameters of a fragmentation. -/
structure CreationParams where
  expectedFragseqlen : Nat
  prepayloadLeadbytes : Nat
  numMaxsizefrags : Nat
  smallerfragSize : Nat
  extrahdrbytes : Nat
  deriving DecidableEq, Repr

/-- `wlan_get_elemsubelem_fragseq_creationparams`: nothing if the payload needs no
fragmentation. -/
def creationParams (isSubelem : Bool) (id : UInt8) (payloadlen : Nat) : Option CreationParams :=
  let unit := elemunitInfo isSubelem 0
  let extn := hasIdext isSubelem id
  if payloadlen ≤ (if extn then unit.maxpayloadlen - 1 else unit.maxpayloadlen) then
    none
  else
    let numMaxsizefrags :=
      (if extn then (payloadlen + 1) / unit.maxpayloadlen
        else payloadlen / unit.maxpayloadlen) % 2 ^ 32
    let smallerfragSize :=
      if extn then (payloadlen - (unit.maxpayloadlen - 1)) % unit.maxpayloadlen
      else payloadlen % unit.maxpayloadlen
    let extrahdrbytes := (numMaxsizefrags + (2 ^ 32 - 1)) % 2 ^ 32 * unit.hdrlen +
      if smallerfragSize ≠ 0 then unit.hdrlen else 0
    let prepayloadLeadbytes := if extn then unit.hdrlen + 1 else unit.hdrlen
    some
      { expectedFragseqlen := prepayloadLeadbytes + payloadlen + extrahdrbytes
        prepayloadLeadbytes
        numMaxsizefrags
        smallerfragSize
        extrahdrbytes }

/-- The two header bytes of a unit at `pos`. -/
def setHeader (unit : ElemUnit) (buff : Buffer) (pos : Nat) (id len : UInt8) : Buffer :=
  update (update buff (pos + unit.idPos) id) (pos + unit.lenPos) len

/-- What a call of `wlan_create_elemsubelem_fragseq` is given, once it has been checked. -/
structure Creation where
  inlineFrag : Bool
  unit : ElemUnit
  params : CreationParams
  payloadbuff : Buffer
  payloadbuffMaxsize : Nat
  payloadlen : Nat

/-- Moving the non-lead fragment number `index` with a payload of `size` bytes, and the
content after the payload with the `last` fragment, by `remaining` bytes. `out` is the
buffer that receives the sequence; it is the payload buffer itself for inline
fragmentation. -/
def moveFragment (creation : Creation) (index size : Nat) (last : Bool) (remaining : Nat)
    (out : Buffer) : Buffer :=
  let src := creation.unit.hdrlen + index * creation.unit.maxpayloadlen
  let dst := src + remaining
  let shiftsize := if creation.inlineFrag ∧ dst > src then dst - src else 0
  let additional :=
    if creation.inlineFrag ∧ last ∧
        creation.payloadbuffMaxsize > creation.params.prepayloadLeadbytes + creation.payloadlen then
      creation.payloadbuffMaxsize - creation.params.prepayloadLeadbytes - creation.payloadlen -
        shiftsize
    else 0
  let source := if creation.inlineFrag then out else creation.payloadbuff
  setHeader creation.unit (memMove out dst source src (size + additional))
    (dst - creation.unit.hdrlen) creation.unit.fragid (UInt8.ofNat size)

/-- The loop over the non-lead fragments of maximum size, from the last one down; the
counter starts with the sixteen low bits of their number. -/
def moveMaxsizefrags (creation : Creation) : Nat → Nat → Buffer → Buffer
  | i + 2, remaining, out =>
    let last := decide (i + 2 = creation.params.numMaxsizefrags ∧
      creation.params.smallerfragSize = 0)
    moveMaxsizefrags creation (i + 1) (remaining - creation.unit.hdrlen)
      (moveFragment creation (i + 1) creation.unit.maxpayloadlen last remaining out)
  | _, _, out => out

/-- All non-lead fragments. -/
def moveFragments (creation : Creation) (out : Buffer) : Buffer :=
  let params := creation.params
  let start := params.numMaxsizefrags % 2 ^ 16
  if params.smallerfragSize ≠ 0 then
    moveMaxsizefrags creation start (params.extrahdrbytes - creation.unit.hdrlen)
      (moveFragment creation params.numMaxsizefrags params.smallerfragSize true
        params.extrahdrbytes out)
  else
    moveMaxsizefrags creation start params.extrahdrbytes out

/-- The lead fragment. -/
def setLead (creation : Creation) (isSubelem : Bool) (id idext : UInt8) (out : Buffer) : Buffer :=
  let unit := creation.unit
  let copied :=
    if creation.inlineFrag then out
    else memMove out unit.hdrlen creation.payloadbuff unit.hdrlen unit.maxpayloadlen
  let headed := setHeader unit copied 0 id (UInt8.ofNat unit.maxpayloadlen)
  if hasIdext isSubelem id then update headed unit.idextPos.toNat idext else headed

/-- `wlan_create_elemsubelem_fragseq`: the buffer with the fragment sequence, and the length
of the sequence. -/
def createFragseq (inlineFrag isSubelem : Bool) (id idext subelemfragid : UInt8)
    (payloadbuff : Option Buffer) (payloadbuffMaxsize payloadlen : Nat)
    (fragbuff : Option Buffer) (fragbuffMaxsize : Nat) : Except Status (Buffer × Nat) :=
  match creationParams isSubelem id payloadlen with
  | none => .error .inval
  | some params =>
    match payloadbuff with
    | none => .error .nullValue
    | some payloadbuff =>
      let creation : Creation :=
        { inlineFrag, unit := elemunitInfo isSubelem subelemfragid, params, payloadbuff,
          payloadbuffMaxsize, payloadlen }
      if payloadbuffMaxsize = 0 then .error .inval
      else if payloadbuffMaxsize < payloadlen then .error .inval
      else if inlineFrag then
        if payloadbuffMaxsize < params.expectedFragseqlen then .error .inval
        else
          .ok (setLead creation isSubelem id idext (moveFragments creation payloadbuff),
            params.expectedFragseqlen)
      else
        match fragbuff with
        | none => .error .nullValue
        | some fragbuff =>
          if fragbuffMaxsize = 0 then .error .inval
          else if fragbuffMaxsize < params.expectedFragseqlen then .error .inval
          else
            .ok (setLead creation isSubelem id idext (moveFragments creation fragbuff),
              params.expectedFragseqlen)

/-! ## Reading a fragment sequence -/

/-- A fragment that follows another unit. -/
structure Successor where
  pos : Nat
  totallen : Nat
  payloadlen : Nat
  deriving DecidableEq, Repr

/-- `wlan_get_elemsubelem_successorfrag` of the unit at `curr`, for pointers that are not
null. -/
def successorfrag (isSubelem : Bool) (subelemfragid : UInt8) (curr : Nat) (buff : Buffer)
    (buffMaxsize : Nat) : Except Status (Option Successor) :=
  let unit := elemunitInfo isSubelem subelemfragid
  if buffMaxsize = 0 then .error .inval
  else if buffMaxsize < curr + unit.hdrlen then .error .proto
  else
    let currTotallen := unit.hdrlen + (buff (curr + unit.lenPos)).toNat
    if buffMaxsize < curr + currTotallen then .error .proto
    else if buffMaxsize = curr + currTotallen then .ok none
    else
      let next := curr + currTotallen
      if buffMaxsize < next + unit.hdrlen then .error .proto
      else
        let nextTotallen := unit.hdrlen + (buff (next + unit.lenPos)).toNat
        if buffMaxsize < next + nextTotallen then .error .proto
        else if buff (next + unit.idPos) ≠ unit.fragid then .ok none
        else if (buff (curr + unit.lenPos)).toNat ≠ unit.maxpayloadlen then .error .proto
        else if buff (next + unit.lenPos) = 0 then .error .proto
        else .ok (some ⟨next, nextTotallen, (buff (next + unit.lenPos)).toNat⟩)

@[simp]
theorem elemunitInfo_hdrlen (isSubelem : Bool) (subelemfragid : UInt8) :
    (elemunitInfo isSubelem subelemfragid).hdrlen = 2 := by
  cases isSubelem <;> rfl

@[simp]
theorem elemunitInfo_maxpayloadlen (isSubelem : Bool) (subelemfragid : UInt8) :
    (elemunitInfo isSubelem subelemfragid).maxpayloadlen = 255 := by
  cases isSubelem <;> rfl

@[simp]
theorem elemunitInfo_idPos (isSubelem : Bool) (subelemfragid : UInt8) :
    (elemunitInfo isSubelem subelemfragid).idPos = 0 := by
  cases isSubelem <;> rfl

@[simp]
theorem elemunitInfo_lenPos (isSubelem : Bool) (subelemfragid : UInt8) :
    (elemunitInfo isSubelem subelemfragid).lenPos = 1 := by
  cases isSubelem <;> rfl

/-- A successor starts behind the unit it follows and inside the buffer. -/
theorem successorfrag_pos {isSubelem : Bool} {subelemfragid : UInt8} {curr : Nat} {buff : Buffer}
    {buffMaxsize : Nat} {next : Successor}
    (found : successorfrag isSubelem subelemfragid curr buff buffMaxsize = .ok (some next)) :
    curr < next.pos ∧ next.pos < buffMaxsize := by
  unfold successorfrag at found
  simp only [elemunitInfo_hdrlen] at found
  split at found
  · cases found
  · split at found
    · cases found
    · split at found
      · cases found
      · split at found
        · cases found
        · split at found
          · cases found
          · split at found
            · cases found
            · split at found
              · cases found
              · split at found
                · cases found
                · split at found
                  · cases found
                  · cases found
                    simp only
                    omega

/-- The loop of `wlan_get_elemsubelem_fragseq_info` over the fragments from `successor` on;
the lengths of the sequence so far are `totallen` and `payloadlen`. -/
def fragseqLoop (isSubelem : Bool) (subelemfragid : UInt8) (buff : Buffer) (buffMaxsize : Nat)
    (successor : Successor) (totallen payloadlen : Nat) : Except Status (Nat × Nat) :=
  match _ : successorfrag isSubelem subelemfragid successor.pos buff buffMaxsize with
  | .error status => .error status
  | .ok none => .ok (totallen + successor.totallen, payloadlen + successor.payloadlen)
  | .ok (some next) =>
    fragseqLoop isSubelem subelemfragid buff buffMaxsize next
      (totallen + successor.totallen) (payloadlen + successor.payloadlen)
termination_by buffMaxsize - successor.pos
decreasing_by
  rename_i found
  have inside := successorfrag_pos found
  omega

/-- The result of `wlan_get_elemsubelem_fragseq_info`. -/
structure FragseqInfo where
  isFragseq : Bool
  totallen : Nat
  payloadlen : Nat
  deriving DecidableEq, Repr

/-- The number of payload bytes of the unit at the start of a buffer. -/
def leadPayloadlen (isSubelem : Bool) (buff : Buffer) (unit : ElemUnit) : Nat :=
  if hasIdext isSubelem (buff unit.idPos) then (buff unit.lenPos).toNat - 1
  else (buff unit.lenPos).toNat

/-- `wlan_get_elemsubelem_fragseq_info`. -/
def fragseqInfo (isSubelem : Bool) (subelemfragid : UInt8) (buff : Option Buffer)
    (buffMaxsize : Nat) : Except Status FragseqInfo :=
  let unit := elemunitInfo isSubelem 0
  match buff with
  | none => .error .nullValue
  | some buff =>
    if buffMaxsize = 0 then .error .inval
    else if buffMaxsize < unit.hdrlen then .error .proto
    else
      let totallen := unit.hdrlen + (buff unit.lenPos).toNat
      if buffMaxsize < totallen then .error .proto
      else
        match successorfrag isSubelem subelemfragid 0 buff buffMaxsize with
        | .error status => .error status
        | .ok none => .ok ⟨false, 0, 0⟩
        | .ok (some successor) =>
          (fragseqLoop isSubelem subelemfragid buff buffMaxsize successor totallen
            (leadPayloadlen isSubelem buff unit)).map fun lengths =>
            ⟨true, lengths.1, lengths.2⟩

/-! ## Defragmentation -/

/-- The variables of the loop of `wlan_defrag_elemsubelem_fragseq`. -/
structure DefragVars where
  out : Buffer
  dst : Nat
  curr : Nat
  remlen : Nat
  payloadlen : Nat

/-- The loop of `wlan_defrag_elemsubelem_fragseq` over the non-lead fragments. For inline
defragmentation the fragments are read from the buffer that is written. -/
def defragLoop (inlineDefrag isSubelem : Bool) (subelemfragid : UInt8) (fragbuff : Buffer)
    (vars : DefragVars) : DefragVars :=
  let unit := elemunitInfo isSubelem subelemfragid
  let source := if inlineDefrag then vars.out else fragbuff
  if source (vars.curr + unit.idPos) = unit.fragid then
    let currPayloadlen := (source (vars.curr + unit.lenPos)).toNat
    let currTotallen := unit.hdrlen + currPayloadlen
    let moved :=
      { vars with
        out := memMove vars.out vars.dst source (vars.curr + unit.hdrlen) currPayloadlen
        payloadlen := vars.payloadlen + currPayloadlen
        remlen := vars.remlen - currTotallen }
    if _ : vars.remlen - currTotallen = 0 then moved
    else
      defragLoop inlineDefrag isSubelem subelemfragid fragbuff
        { moved with dst := vars.dst + currPayloadlen, curr := vars.curr + currTotallen }
  else vars
termination_by vars.remlen
decreasing_by
  simp only [elemunitInfo_hdrlen] at *
  omega

/-- The steps of `wlan_defrag_elemsubelem_fragseq` once its arguments have been checked. -/
def defrag (inlineDefrag isSubelem : Bool) (subelemfragid : UInt8) (fragbuff : Buffer)
    (fragbuffMaxsize : Nat) (out : Buffer) : Buffer × Nat :=
  let unit := elemunitInfo isSubelem subelemfragid
  let payloadlen := leadPayloadlen isSubelem fragbuff unit
  let src := if hasIdext isSubelem (fragbuff unit.idPos) then unit.hdrlen + 1 else unit.hdrlen
  let totallen := unit.hdrlen + (fragbuff unit.lenPos).toNat
  let dst := if inlineDefrag then src else 0
  let lead := if inlineDefrag then out else memMove out dst fragbuff src payloadlen
  let vars := defragLoop inlineDefrag isSubelem subelemfragid fragbuff
    { out := lead, dst := dst + payloadlen, curr := totallen
      remlen := fragbuffMaxsize - totallen, payloadlen }
  if inlineDefrag ∧ vars.remlen ≠ 0 then
    (memMove vars.out vars.dst vars.out vars.curr vars.remlen, vars.payloadlen)
  else (vars.out, vars.payloadlen)

/-- `wlan_defrag_elemsubelem_fragseq`: the buffer with the payload, and its length. -/
def defragFragseq (inlineDefrag isSubelem : Bool) (subelemfragid : UInt8)
    (fragbuff : Option Buffer) (fragbuffMaxsize : Nat) (defragbuff : Option Buffer)
    (defragbuffMaxsize : Nat) : Except Status (Buffer × Nat) :=
  match fragbuff with
  | none => .error .nullValue
  | some fragbuff =>
    if fragbuffMaxsize = 0 then .error .inval
    else if inlineDefrag then
      match fragseqInfo isSubelem subelemfragid (some fragbuff) fragbuffMaxsize with
      | .error status => .error status
      | .ok info =>
        if info.isFragseq = false then .error .inval
        else .ok (defrag true isSubelem subelemfragid fragbuff fragbuffMaxsize fragbuff)
    else
      match defragbuff with
      | none => .error .nullValue
      | some defragbuff =>
        if defragbuffMaxsize = 0 then .error .inval
        else
          match fragseqInfo isSubelem subelemfragid (some fragbuff) fragbuffMaxsize with
          | .error status => .error status
          | .ok info =>
            if info.isFragseq = false then .error .inval
            else if defragbuffMaxsize < info.payloadlen then .error .inval
            else .ok (defrag false isSubelem subelemfragid fragbuff fragbuffMaxsize defragbuff)

end Sm8650.Wlan
