import Sm8650.Rmnet.FragBytes
import Sm8650.Rmnet.Ingress

/-!
# Who recycles a descriptor

`rmnet_frag_pull` and `rmnet_frag_trim` put a descriptor back themselves if nothing
would be left of it. The handler puts every descriptor back or hands it over once,
in every interleaving, unless such a call is answered by a second recycle.
-/

namespace Sm8650.Rmnet

open Transition Function List FragDescriptor Handler
open Sm8650.Transition.Prog (wp Cells Held wp_bind' wp_mono wp_askFor wp_getCell
  wp_putCell wp_handCell wp_readCell wp_writeCell)

/-! ## The functions that cut -/

variable {post : Bool → Cells FragDescriptor → Prop}

section Cut

variable {desc size : Nat} {content : FragDescriptor} {owned : Cells FragDescriptor}

theorem rmnetFragPull_wp (own : owned desc = some content)
    (recycled : content.len ≤ size → post false (update owned desc none))
    (cut : size < content.len → post (!(content.pulled size).frags.isEmpty)
      (update owned desc (some (content.pulled size)))) :
    (rmnetFragPull desc size).wp .zero owned post := by
  unfold rmnetFragPull
  rw [wp_bind']
  refine wp_readCell own ?_
  by_cases short : content.len ≤ size
  · rw [if_pos short, wp_bind']
    exact wp_putCell own (recycled short)
  · rw [if_neg short, wp_bind']
    exact wp_writeCell own (cut (Nat.lt_of_not_le short))

/-- Where something is left there are fragments. -/
theorem FragDescriptor.Consistent.nonempty (consistent : content.Consistent)
    (positive : 0 < content.len) : content.frags.isEmpty = false := by
  rw [consistent] at positive
  cases frags : content.frags with
  | nil =>
    rw [frags] at positive
    exact absurd positive (Nat.lt_irrefl 0)
  | cons frag frags => rfl

theorem rmnetFragTrim_wp (own : owned desc = some content) (consistent : content.Consistent)
    (positive : 0 < content.len) (recycled : size = 0 → post false (update owned desc none))
    (kept : size ≠ 0 → ∀ rest, rest.hdrsValid = content.hdrsValid →
      post true (update owned desc (some rest))) :
    (rmnetFragTrim desc size).wp .zero owned post := by
  unfold rmnetFragTrim
  rw [wp_bind']
  refine wp_readCell own ?_
  by_cases nothing : size = 0
  · rw [if_pos nothing, wp_bind']
    exact wp_putCell own (recycled nothing)
  · rw [if_neg nothing]
    by_cases whole : content.len ≤ size
    · rw [if_pos whole, consistent.nonempty positive]
      have same := kept nothing content rfl
      rwa [← own, update_eq_self] at same
    · have within := Nat.le_of_not_le whole
      have left := (consistent.trimmed within).nonempty (by
        rw [len_trimmed consistent within]
        exact Nat.pos_of_ne_zero nothing)
      rw [if_neg whole, wp_bind', left]
      exact wp_writeCell own (kept nothing _ rfl)

end Cut

/-! ## Fragments of another descriptor -/

section Add

variable {dest source : Nat} {content : FragDescriptor} {owned : Cells FragDescriptor}

/-- The fragments are added at the end. -/
def FragDescriptor.withFrags (desc : FragDescriptor) (frags : List SkbFrag) : FragDescriptor :=
  { desc with frags := desc.frags ++ frags, len := desc.len + (frags.map SkbFrag.size).sum }

theorem FragDescriptor.withFrags_nil (desc : FragDescriptor) : desc.withFrags [] = desc := by
  unfold withFrags
  rw [append_nil]
  rfl

theorem FragDescriptor.withFrags_withFrags (desc : FragDescriptor) (first second : List SkbFrag) :
    (desc.withFrags first).withFrags second = desc.withFrags (first ++ second) := by
  simp [withFrags, Nat.add_assoc]

theorem addFrag_wp {frag : SkbFrag} (own : owned dest = some content) (failed : post false owned)
    (added : post true (update owned dest (some (content.withFrags [frag])))) :
    (rmnetFragDescriptorAddFrag dest frag).wp .zero owned post := by
  unfold rmnetFragDescriptorAddFrag
  rw [wp_bind', wp_askFor]
  intro granted
  cases granted with
  | false => exact failed
  | true =>
    rw [if_pos rfl, wp_bind']
    refine wp_readCell own ?_
    rw [wp_bind']
    exact wp_writeCell own added

/-- The loop adds some fragments; if it is not stopped they are as long as asked for. -/
theorem addFragsLoop_wp {frags : List SkbFrag} {off len : Nat} (own : owned dest = some content)
    (within : off + len ≤ (frags.map SkbFrag.size).sum)
    (after : ∀ complete added, (complete = true → (added.map SkbFrag.size).sum = len) →
      post complete (update owned dest (some (content.withFrags added)))) :
    (addFragsLoop dest frags off len).wp .zero owned post := by
  have unchanged : update owned dest (some (content.withFrags [])) = owned := by
    rw [content.withFrags_nil, ← own, update_eq_self]
  induction frags generalizing owned content off len with
  | nil =>
    rw [map_nil, sum_nil] at within
    have same := after true [] fun _ => (by simp; omega)
    rwa [unchanged] at same
  | cons frag frags ih =>
    rw [map_cons, sum_cons] at within
    unfold addFragsLoop
    by_cases done : len = 0
    · rw [if_pos done]
      have same := after true [] fun _ => (by simp [done])
      rwa [unchanged] at same
    rw [if_neg done]
    by_cases inside : off < frag.size
    · rw [if_pos inside, wp_bind']
      refine addFrag_wp own ?_ ?_
      · have same := after false [] (fun complete => absurd complete Bool.false_ne_true)
        rwa [unchanged] at same
      · refine ih (update_self _ _ _) (by omega) ?_ ?_
        · intro complete added length
          rw [update_idem, withFrags_withFrags]
          refine after complete _ fun isComplete => ?_
          have rest := length isComplete
          rw [map_append, sum_append]
          simp only [map_cons, map_nil, sum_cons, sum_nil]
          omega
        · rw [withFrags_nil, update_idem]
    · rw [if_neg inside]
      exact ih own (by omega) after unchanged

theorem addFragsFrom_wp {given : FragDescriptor}
    {off len : Nat} (own : owned dest = some content) (ownSource : owned source = some given)
    (consistent : given.Consistent)
    (after : ∀ complete added, (complete = true → (added.map SkbFrag.size).sum = len) →
      post complete (update owned dest (some (content.withFrags added)))) :
    (rmnetFragDescriptorAddFragsFrom dest source off len).wp .zero owned post := by
  unfold rmnetFragDescriptorAddFragsFrom
  rw [wp_bind']
  refine wp_readCell ownSource ?_
  rw [outside_eq]
  by_cases within : off + len ≤ given.len
  · rw [if_neg (by simpa using within)]
    rw [consistent] at within
    exact addFragsLoop_wp own within after
  · rw [if_pos (by simpa using within)]
    have same := after false [] (fun complete => absurd complete Bool.false_ne_true)
    rwa [content.withFrags_nil, ← own, update_eq_self] at same

end Add

/-! ## Segments -/

/-- `rmnet_frag_deliver` puts the descriptor back once: its headers are not longer
than it is. -/
def FragDescriptor.Deliverable (desc : FragDescriptor) : Prop :=
  desc.hdrsValid = true → (desc.ipLen + desc.transLen).toNat ≤ desc.len

/-- Two descriptors have the same headers and the same length. -/
structure SameHeaders (first second : FragDescriptor) : Prop where
  hdrsValid : first.hdrsValid = second.hdrsValid
  ipLen : first.ipLen = second.ipLen
  transLen : first.transLen = second.transLen
  len : first.len = second.len

variable {pages : Pages} {coal new result : FragDescriptor}

theorem segmentTrans_same {csumValid valid : Bool}
    (done : segmentTrans pages coal new csumValid = some (result, valid)) :
    SameHeaders result new := by
  unfold segmentTrans at done
  by_cases tcp : coal.transProto = ipprotoTcp
  · rw [if_pos tcp] at done
    rcases header : coal.rmnetFragHeaderPtr pages coal.ipLen.toNat 20 with _ | th
    all_goals simp only [header] at done
    · cases done
    · by_cases last : ((th.getD 13 0).getLsbD 0 || (th.getD 13 0).getLsbD 3) &&
        decide (coal.segmentOffset + coal.segmentLen < coal.len)
      · rw [if_pos last] at done
        cases done
        exact ⟨rfl, rfl, rfl, rfl⟩
      · rw [if_neg last] at done
        cases done
        exact ⟨rfl, rfl, rfl, rfl⟩
  · rw [if_neg tcp] at done
    by_cases udp : coal.transProto = ipprotoUdp
    · rw [if_pos udp] at done
      rcases header : coal.rmnetFragHeaderPtr pages coal.ipLen.toNat 8 with _ | uh
      all_goals
        simp only [header] at done
        cases done
      exact ⟨rfl, rfl, rfl, rfl⟩
    · rw [if_neg udp] at done
      cases done
      exact ⟨rfl, rfl, rfl, rfl⟩

theorem segmentIp_same
    (done : segmentIp pages coal new = some result) : SameHeaders result new := by
  unfold segmentIp at done
  by_cases ipv4 : coal.ipProto = 4
  · rw [if_pos ipv4] at done
    rcases header : coal.rmnetFragHeaderPtr pages 0 20 with _ | iph
    all_goals
      simp only [header] at done
      cases done
    exact ⟨rfl, rfl, rfl, rfl⟩
  · rw [if_neg ipv4] at done
    cases done
    exact ⟨rfl, rfl, rfl, rfl⟩

theorem segmentMeta_same {csumValid : Bool}
    (done : segmentMeta pages coal new csumValid = some result) : SameHeaders result new := by
  unfold segmentMeta at done
  rcases trans : segmentTrans pages coal new csumValid with _ | ⟨middle, valid⟩
  all_goals simp only [trans] at done
  · cases done
  · rcases ip : segmentIp pages coal middle with _ | last
    all_goals
      simp only [ip] at done
      cases done
    have first := segmentTrans_same trans
    have second := segmentIp_same ip
    exact ⟨second.hdrsValid.trans first.hdrsValid, second.ipLen.trans first.ipLen,
      second.transLen.trans first.transLen, second.len.trans first.len⟩

/-- The segments so far, and the coalesced descriptor beside them. -/
def Segmenting (base : Cells FragDescriptor) (coalDesc : Nat) (list : List Nat)
    (owned : Cells FragDescriptor) : Prop :=
  ∃ coal : FragDescriptor, coal.Consistent ∧
    Held Deliverable (update base coalDesc (some coal)) list owned

variable {coal : FragDescriptor}

namespace Segmenting

variable {base owned : Cells FragDescriptor} {coalDesc : Nat} {list : List Nat}

section

variable (segmenting : Segmenting base coalDesc list owned)

include segmenting

/-- The coalesced descriptor is written, its fragments stay. -/
theorem write (consistent : coal.Consistent) :
    Segmenting base coalDesc list (update owned coalDesc (some coal)) := by
  obtain ⟨_, _, held⟩ := segmenting
  exact ⟨coal, consistent, held.update (some coal)⟩

/-- The coalesced descriptor goes back to the pool. -/
theorem recycle (unowned : base coalDesc = none) :
    list.head? ≠ some coalDesc ∧
      Held Deliverable base list (update owned coalDesc none) := by
  obtain ⟨coal, _, held⟩ := segmenting
  have given := held.update none
  rw [(update_eq_self_iff.mpr unowned.symm : update base coalDesc none = base)] at given
  exact ⟨fun first => held.own.1 (mem_of_head? first), given⟩

/-- One segment more, or none. -/
theorem segmentData (pages : Pages) (pktId : Byte) (csumValid : Bool) :
    (rmnetFragSegmentData pages coalDesc list pktId csumValid).wp .zero owned
      (Segmenting base coalDesc) := by
  obtain ⟨coal, consistent, held⟩ := segmenting
  have own := held.own.2
  unfold rmnetFragSegmentData
  rw [wp_bind']
  refine wp_readCell own ?_
  rw [wp_bind', wp_getCell]
  refine ⟨⟨coal, consistent, held⟩, fun new unowned => ?_⟩
  have apart : coalDesc ≠ new := by
    rintro rfl
    rw [own] at unowned
    cases unowned
  have ownCoal : ∀ content : Option FragDescriptor,
      update owned new content coalDesc = some coal := by
    intro content
    rw [update_of_ne apart]
    exact own
  -- Without a segment the new descriptor goes back and nothing has changed.
  have givenUp : ∀ content : FragDescriptor, Segmenting base coalDesc list
      (update (update owned new (some content)) new none) := by
    intro content
    rw [update_idem, (update_eq_self_iff.mpr unowned.symm)]
    exact ⟨coal, consistent, held⟩
  rw [wp_bind']
  refine wp_writeCell (update_self _ _ _) ?_
  rw [update_idem, wp_bind']
  refine addFragsFrom_wp (update_self _ _ _) (ownCoal _) consistent ?_
  intro headers headerFrags headerLen
  rw [update_idem]
  cases headers with
  | false =>
    rw [if_neg Bool.false_ne_true, wp_bind']
    exact wp_putCell (update_self _ _ _) (givenUp _)
  | true =>
    rw [if_pos rfl, wp_bind']
    refine addFragsFrom_wp (update_self _ _ _) (ownCoal _) consistent ?_
    intro data dataFrags dataLen
    rw [update_idem]
    cases data with
    | false =>
      rw [if_neg Bool.false_ne_true, wp_bind']
      exact wp_putCell (update_self _ _ _) (givenUp _)
    | true =>
      rw [if_pos rfl, wp_bind']
      refine wp_readCell (update_self _ _ _) ?_
      rcases said : segmentMeta pages coal
        ((withFrags { coal with frags := [], len := 0 } headerFrags).withFrags
          dataFrags) csumValid with _ | result
      · rw [wp_bind']
        exact wp_putCell (update_self _ _ _) (givenUp _)
      · have same := segmentMeta_same said
        have deliverable : result.Deliverable := by
          intro _
          rw [same.ipLen, same.transLen, same.len, BitVec.toNat_add]
          have length := headerLen rfl
          unfold FragDescriptor.headerLen at length
          simp only [withFrags]
          omega
        rw [wp_bind']
        refine wp_writeCell (update_self _ _ _) ?_
        rw [update_idem, wp_bind']
        refine wp_writeCell (ownCoal _) ?_
        have added : Segmenting base coalDesc (list ++ [new]) (update owned new (some result)) :=
          ⟨coal, consistent, held.concat unowned deliverable⟩
        exact added.write consistent

/-- The coalesced descriptor can be read. -/
theorem own : ∃ coal : FragDescriptor, owned coalDesc = some coal ∧ coal.Consistent := by
  obtain ⟨coal, consistent, held⟩ := segmenting
  exact ⟨coal, held.own.2, consistent⟩

end

variable {loop : SegmentLoop}

theorem segmentPending (segmenting : Segmenting base coalDesc loop.list owned) (pages : Pages) :
    (Handler.segmentPending pages coalDesc loop).wp .zero owned (Segmenting base coalDesc) := by
  obtain ⟨coal, own, _⟩ := segmenting.own
  unfold Handler.segmentPending
  rw [wp_bind']
  refine wp_readCell own ?_
  by_cases pending : coal.gsoSegs ≠ 0
  · rw [if_pos pending]
    exact segmenting.segmentData _ _ _
  · rw [if_neg pending]
    exact segmenting

theorem segmentSingle (segmenting : Segmenting base coalDesc list owned) (pages : Pages)
    (pktId : Byte) (csumValid : Bool) :
    (Handler.segmentSingle pages coalDesc list pktId csumValid).wp .zero owned
      (Segmenting base coalDesc) := by
  obtain ⟨coal, own, consistent⟩ := segmenting.own
  unfold Handler.segmentSingle
  rw [wp_bind']
  refine wp_readCell own ?_
  rw [wp_bind']
  refine wp_writeCell own ?_
  have written : Segmenting base coalDesc list
      (update owned coalDesc (some { coal with gsoSegs := 1 })) :=
    segmenting.write consistent
  exact written.segmentData _ _ _

section

variable (segmenting : Segmenting base coalDesc loop.list owned)

include segmenting

theorem segmentPacket (pages : Pages) (gro : Bool) :
    (Handler.segmentPacket pages coalDesc gro loop).wp .zero owned
      fun after owned => Segmenting base coalDesc after.list owned := by
  unfold Handler.segmentPacket
  cases gro with
  | false =>
    simp only [Bool.not_false, if_true]
    rw [wp_bind']
    exact wp_mono (segmenting.segmentSingle pages _ _) fun _ _ segmenting => segmenting
  | true =>
    simp only [Bool.not_true, Bool.false_eq_true, if_false]
    by_cases csumErr : loop.nloErrMask.getLsbD 0 = true
    · rw [if_pos csumErr, wp_bind']
      refine wp_mono (segmenting.segmentPending pages) fun list owned segmenting => ?_
      rw [wp_bind']
      exact wp_mono (segmenting.segmentSingle pages _ _) fun _ _ segmenting => segmenting
    · obtain ⟨coal, own, consistent⟩ := segmenting.own
      rw [if_neg csumErr, wp_bind']
      refine wp_readCell own ?_
      rw [wp_bind']
      exact wp_writeCell own (segmenting.write consistent)

theorem segmentPackets {count : Nat} (pages : Pages) (gro : Bool) :
    (segmentPackets pages coalDesc gro count loop).wp .zero owned
      fun after owned => Segmenting base coalDesc after.list owned := by
  induction count generalizing loop owned with
  | zero => exact segmenting
  | succ count ih =>
    unfold segmentPackets
    rw [wp_bind']
    exact wp_mono (segmenting.segmentPacket pages gro)
      fun loop owned segmenting => ih segmenting

theorem segmentPairs {pairs : List NlPair} (pages : Pages) (gro : Bool) :
    (segmentPairs pages coalDesc gro pairs loop).wp .zero owned
      fun after owned => Segmenting base coalDesc after.list owned := by
  induction pairs generalizing loop owned with
  | nil => exact segmenting
  | cons pair pairs ih =>
    obtain ⟨coal, own, consistent⟩ := segmenting.own
    unfold segmentPairs
    rw [wp_bind']
    refine wp_readCell own ?_
    rw [wp_bind']
    refine wp_writeCell own ?_
    have written : Segmenting base coalDesc loop.list (update owned coalDesc
        (some { coal with gsoSize := pair.pktLen - (coal.ipLen + coal.transLen) })) :=
      segmenting.write consistent
    rw [wp_bind']
    refine wp_mono (written.segmentPackets pages gro) fun loop owned segmenting => ?_
    rw [wp_bind']
    exact wp_mono (segmenting.segmentPending pages)
      fun list owned segmenting => ih segmenting

end

end Segmenting

/-! ## When a descriptor is recycled twice -/

/-- A frame whose first bytes are a header for data behind a header of this type. -/
structure HasHeader (port : IngressPort) (frame : List Byte) (type : Nat) : Prop where
  isData : (mapHeader frame).cdBit = false
  mux : (mapHeader frame).muxId.toNat < rmnetMaxLogicalEp
  nextHdr : (mapHeader frame).nextHdr = true
  format : hasNextHeader port.dataFormat = true
  type : (frame.getD mapHeaderSize 0 >>> 1).toNat = type

/-- The descriptor of a coalesced frame that goes on as it is, its headers read. -/
def wholeFrame (port : IngressPort) (dev : Nat) (desc : FragDescriptor) : Option FragDescriptor :=
  let header := coalHeader (((desc.bytes port.pages).drop mapHeaderSize).take mapV5CoalHeaderSize)
  match coalHeaders port.pages
      ({ desc with dev := some dev }.pulled (mapHeaderSize + mapV5CoalHeaderSize))
      (port.groHw dev) with
  | (_, none) => none
  | (coal, some found) =>
    if (rmnetMapV5CsumBuggy header && !found.zeroCsum) ||
        (found.gro && decide (header.numNlos = 1) && header.csumValid) then
      some coal
    else
      none

/-- The handler recycles the descriptor of this frame twice. -/
inductive RecycledTwice (port : IngressPort) (desc : FragDescriptor) : Prop
  /-- All of the packet is padding. -/
  | padding {dev : Nat}
      (endpoint : port.rmnetGetEndpoint (mapHeader (desc.bytes port.pages)).muxId = some dev)
      (header : HasHeader port (desc.bytes port.pages) rmnetMapHeaderTypeCsumOffload)
      (all : (mapHeader (desc.bytes port.pages)).padLen =
        (mapHeader (desc.bytes port.pages)).pktLen)
  /-- There is nothing behind a coalescing header. -/
  | headersOnly {dev : Nat}
      (endpoint : port.rmnetGetEndpoint (mapHeader (desc.bytes port.pages)).muxId = some dev)
      (header : HasHeader port (desc.bytes port.pages) rmnetMapHeaderTypeCoalescing)
      (accepted : rmnetFragDataCheckCoalHeader port.pages desc ≠ none)
      (nothing : (desc.bytes port.pages).length = mapHeaderSize + mapV5CoalHeaderSize)
  /-- The headers of a coalesced frame claim more than there is. -/
  | longHeaders {dev : Nat} {coal : FragDescriptor}
      (endpoint : port.rmnetGetEndpoint (mapHeader (desc.bytes port.pages)).muxId = some dev)
      (header : HasHeader port (desc.bytes port.pages) rmnetMapHeaderTypeCoalescing)
      (accepted : rmnetFragDataCheckCoalHeader port.pages desc ≠ none)
      (goesOn : wholeFrame port dev desc = some coal)
      (long : coal.len < (coal.ipLen + coal.transLen).toNat)

/-- What deaggregation leaves in a descriptor. -/
structure FrameDescriptor (port : IngressPort) (desc : FragDescriptor) : Prop where
  consistent : desc.Consistent
  frame : IsFrame port.dataFormat (desc.bytes port.pages)
  unmarked : desc.hdrsValid = false

/-! ## One frame -/

section Frame

variable {port : IngressPort} {desc dev : Nat} {content : FragDescriptor}
  {base : Cells FragDescriptor}

theorem consistent_coalTransHeader {gro : Bool}
    (consistent : coal.Consistent) : (coalTransHeader pages coal gro).1.Consistent := by
  unfold coalTransHeader
  by_cases tcp : coal.transProto = ipprotoTcp
  · rw [if_pos tcp]
    cases coal.rmnetFragHeaderPtr pages coal.ipLen.toNat 20 with
    | none | some th => exact consistent
  · rw [if_neg tcp]
    by_cases udp : coal.transProto = ipprotoUdp
    · rw [if_pos udp]
      cases coal.rmnetFragHeaderPtr pages coal.ipLen.toNat 8 with
      | none | some uh => exact consistent
    · rw [if_neg udp]
      exact consistent

theorem consistent_coalIpHeader {gro : Bool}
    (consistent : coal.Consistent) : (coalIpHeader pages coal gro).1.Consistent := by
  unfold coalIpHeader
  cases coal.rmnetFragDataPtr pages with
  | none => exact consistent
  | some version =>
    simp only
    by_cases ipv4 : version &&& 0xF0 = 0x40
    · rw [if_pos ipv4]
      cases coal.rmnetFragHeaderPtr pages 0 20 with
      | none | some iph => exact consistent
    · rw [if_neg ipv4]
      by_cases ipv6 : version &&& 0xF0 = 0x60
      · rw [if_pos ipv6]
        cases coal.rmnetFragHeaderPtr pages 0 40 with
        | none => exact consistent
        | some ip6h =>
          simp only
          cases rmnetFragIpv6SkipExthdr pages coal (coal.len + 1) ⟨40, ip6h.getD 6 0, 0, false⟩ with
          | none => exact consistent
          | some headers =>
            simp only
            by_cases fragment : headers.fragOff ≠ 0
            · rw [if_pos fragment]
              exact consistent
            · rw [if_neg fragment]
              exact consistent
      · rw [if_neg ipv6]
        exact consistent

/-- Reading the headers leaves the fragments as they are. -/
theorem consistent_coalHeaders {gro : Bool}
    (consistent : coal.Consistent) : (coalHeaders pages coal gro).1.Consistent := by
  have ip := @consistent_coalIpHeader pages coal gro consistent
  unfold coalHeaders
  rcases read : coalIpHeader pages coal gro with ⟨after, _ | found⟩
  · rw [read] at ip
    exact ip
  · rw [read] at ip
    exact consistent_coalTransHeader ip

/-- What becomes of a coalesced frame. -/
def Coalesced (base : Cells FragDescriptor) (desc : Nat) (list : List Nat)
    (owned : Cells FragDescriptor) : Prop :=
  (list = [desc] ∧ Held Deliverable base list owned) ∨
    Segmenting base desc list owned

theorem Held.single (unowned : base desc = none) (deliverable : content.Deliverable) :
    Held Deliverable base [desc] (update base desc (some content)) :=
  (Held.nil Deliverable base).concat unowned deliverable

theorem rmnetFragSegmentCoalData_wp {nloErrMask : BitVec 64} (unowned : base desc = none)
    (consistent : content.Consistent) (isDev : content.dev = some dev)
    (more : mapHeaderSize + mapV5CoalHeaderSize < content.len)
    (fits : ∀ coal, wholeFrame port dev content = some coal →
      (coal.ipLen + coal.transLen).toNat ≤ coal.len) :
    (rmnetFragSegmentCoalData port desc nloErrMask).wp .zero
      (update base desc (some content)) (Coalesced base desc) := by
  have own : update base desc (some content) desc = some content :=
    update_self _ _ _
  have sameDev : { content with dev := some dev } = content := by rw [← isDev]
  have begun : ∀ coal : FragDescriptor, coal.Consistent →
      Segmenting base desc [] (update base desc (some coal)) :=
    fun coal consistent => ⟨coal, consistent, Held.nil _ _⟩
  unfold rmnetFragSegmentCoalData
  rw [wp_bind']
  refine wp_readCell own ?_
  rw [rmnetFragCopyData_eq, if_pos (Nat.le_of_lt more)]
  simp only [isDev, Option.map_some, Option.getD_some]
  unfold wholeFrame at fits
  rw [sameDev] at fits
  generalize coalHeader (((content.bytes port.pages).drop mapHeaderSize).take
    mapV5CoalHeaderSize) = header at fits ⊢
  rw [wp_bind']
  refine rmnetFragPull_wp own (fun short => absurd more (Nat.not_lt_of_le short)) fun _ => ?_
  rw [update_idem]
  have pulled := consistent.pulled (Nat.le_of_lt more)
  generalize content.pulled (mapHeaderSize + mapV5CoalHeaderSize) = rest at fits pulled ⊢
  by_cases empty : rest.frags.isEmpty = true
  · rw [empty]
    exact .inr (begun rest pulled)
  rw [(Bool.not_eq_true _).mp empty, Bool.not_false, if_pos rfl, wp_bind']
  refine wp_readCell (update_self _ _ _) ?_
  have read := @consistent_coalHeaders port.pages rest (port.groHw dev) pulled
  rcases headers : coalHeaders port.pages rest (port.groHw dev) with ⟨coal, _ | found⟩
  · rw [headers] at read
    rw [wp_bind']
    refine wp_writeCell (update_self _ _ _) ?_
    rw [update_idem]
    exact .inr (begun coal read)
  rw [headers] at read fits
  have goesOn : ∀ csumValid, (rmnetMapV5CsumBuggy header && !found.zeroCsum) = true ∨
      (found.gro && decide (header.numNlos = 1) && header.csumValid) = true →
      Coalesced base desc [desc] (update base desc
        (some ((coal.counted port).whole header csumValid))) := by
    intro csumValid whole
    have enough := fits coal (if_pos (by rw [Bool.or_eq_true]; exact whole))
    exact .inl ⟨rfl, Held.single unowned fun _ => enough⟩
  simp only
  by_cases buggy : (rmnetMapV5CsumBuggy header && !found.zeroCsum) = true
  · rw [if_pos buggy, wp_bind']
    refine wp_writeCell (update_self _ _ _) ?_
    rw [update_idem]
    exact goesOn _ (.inl buggy)
  rw [if_neg buggy]
  by_cases fast : (found.gro && decide (header.numNlos = 1) && header.csumValid) = true
  · rw [if_pos fast, wp_bind']
    refine wp_writeCell (update_self _ _ _) ?_
    rw [update_idem]
    exact goesOn _ (.inr fast)
  rw [if_neg fast, wp_bind']
  refine wp_writeCell (update_self _ _ _) ?_
  rw [update_idem, wp_bind']
  exact wp_mono (Segmenting.segmentPairs (begun (coal.counted port) read) port.pages found.gro)
    fun loop owned segmenting => .inr segmenting

/-- What `rmnet_frag_process_next_hdr_packet` leaves: on an error the caller still has
the descriptor, otherwise what is on the list. -/
def Processed (base : Cells FragDescriptor) (desc : Nat) :
    Option (List Nat) → Cells FragDescriptor → Prop
  | none, owned => ∃ content, owned = update base desc (some content)
  | some segs, owned => Held Deliverable base segs owned

/-- The frame is longer than a checksum header if it has one. -/
theorem FrameDescriptor.more (frame : FrameDescriptor port content)
    (header : HasHeader port (content.bytes port.pages) rmnetMapHeaderTypeCsumOffload) :
    mapHeaderSize + mapV5CsumHeaderSize < content.len := by
  have length := frame.frame.length
  have nonempty := frame.frame.nonempty
  rw [frame.consistent.length_bytes] at length
  rw [length]
  unfold announced
  by_cases trailer : hasTrailer port.dataFormat = true
  · rw [if_pos trailer]
    unfold mapDlCsumTrailerSize mapV5CsumHeaderSize
    omega
  · have type : ((content.bytes port.pages).getD mapHeaderSize 0 &&& 0xFE) >>> 1 =
        BitVec.ofNat 8 rmnetMapHeaderTypeCsumOffload := by
      have shifted : ∀ byte : Byte, (byte &&& 0xFE) >>> 1 = byte >>> 1 := by decide
      rw [shifted]
      exact BitVec.eq_of_toNat_eq (header.type.trans rfl)
    have size : nextHeaderSize ((content.bytes port.pages).getD mapHeaderSize 0) =
        mapV5CsumHeaderSize := by
      unfold nextHeaderSize
      rw [type]
      rfl
    rw [if_neg trailer, if_pos (by rw [header.format, header.isData]; rfl)]
    omega

/-- The packet length without its padding. -/
theorem packetLen_eq_zero_iff {bytes : List Byte} :
    (BitVec.ofNat 16 (mapHeader bytes).pktLen - BitVec.ofNat 16 (mapHeader bytes).padLen).toNat =
      0 ↔ (mapHeader bytes).padLen = (mapHeader bytes).pktLen := by
  have pktLen : (mapHeader bytes).pktLen < 2 ^ 16 := by
    simp only [mapHeader]
    omega
  have padLen : (mapHeader bytes).padLen < 2 ^ 6 := ((bytes.getD 0 0).extractLsb' 0 6).isLt
  rw [BitVec.toNat_sub, BitVec.toNat_ofNat, BitVec.toNat_ofNat]
  omega

theorem noteChecksum_wp (port : IngressPort) (csumValidRequired : Bool)
    (post : Unit → Cells FragDescriptor → Prop) (consistent : content.Consistent)
    (after : ∀ checked : FragDescriptor, checked.len = content.len → checked.Consistent →
      checked.hdrsValid = content.hdrsValid →
      post () (update base desc (some checked))) :
    (noteChecksum port desc csumValidRequired).wp .zero
      (update base desc (some content)) post := by
  have own : update base desc (some content) desc = some content :=
    update_self _ _ _
  unfold noteChecksum
  rw [wp_bind']
  refine wp_readCell own ?_
  by_cases software : (!(Option.map port.rxcsum content.dev).getD false) = true
  · rw [if_pos software]
    exact after _ rfl consistent rfl
  rw [if_neg software]
  by_cases required : csumValidRequired = true
  · rw [if_pos required]
    refine wp_writeCell own ?_
    rw [update_idem]
    exact after _ rfl consistent rfl
  · rw [if_neg required]
    refine wp_writeCell own ?_
    rw [update_idem]
    exact after _ rfl consistent rfl

theorem rmnetFragProcessNextHdrPacket_wp (unowned : base desc = none)
    (frame : FrameDescriptor port content) (once : ¬ RecycledTwice port content)
    (endpoint : port.rmnetGetEndpoint (mapHeader (content.bytes port.pages)).muxId = some dev)
    (header : ∀ type, ((content.bytes port.pages).getD mapHeaderSize 0 >>> 1).toNat = type →
      HasHeader port (content.bytes port.pages) type) :
    (rmnetFragProcessNextHdrPacket port desc
      (BitVec.ofNat 16 (mapHeader (content.bytes port.pages)).pktLen -
        BitVec.ofNat 16 (mapHeader (content.bytes port.pages)).padLen).toNat).wp .zero
      (update base desc (some { content with dev := some dev }))
      (Processed base desc) := by
  have own : update base desc (some { content with dev := some dev }) desc =
      some { content with dev := some dev } := update_self _ _ _
  unfold rmnetFragProcessNextHdrPacket
  rw [wp_bind']
  refine wp_readCell own ?_
  rcases read : rmnetFragHeaderPtr port.pages { content with dev := some dev }
    mapHeaderSize mapV5CsumHeaderSize with _ | csumHdr
  · exact ⟨_, rfl⟩
  have type : csumHdr.getD 0 0 = (content.bytes port.pages).getD mapHeaderSize 0 :=
    getD_of_headerPtr read (by decide)
  simp only
  rw [type]
  by_cases coalescing : ((content.bytes port.pages).getD mapHeaderSize 0 >>> 1).toNat =
    rmnetMapHeaderTypeCoalescing
  · rw [if_pos coalescing]
    have sameCheck : rmnetFragDataCheckCoalHeader port.pages { content with dev := some dev } =
        rmnetFragDataCheckCoalHeader port.pages content := rfl
    rw [sameCheck]
    rcases accepted : rmnetFragDataCheckCoalHeader port.pages content with _ | nloErrMask
    · exact ⟨_, rfl⟩
    have isAccepted : rmnetFragDataCheckCoalHeader port.pages content ≠ none := by
      rw [accepted]
      exact Option.some_ne_none _
    have enough : mapHeaderSize + mapV5CoalHeaderSize ≤ content.len := by
      unfold rmnetFragDataCheckCoalHeader at isAccepted
      rcases there : content.rmnetFragHeaderPtr port.pages mapHeaderSize mapV5CoalHeaderSize with
        _ | bytes
      · rw [there] at isAccepted
        exact absurd rfl isAccepted
      · exact le_of_headerPtr there
    have more : mapHeaderSize + mapV5CoalHeaderSize < content.len := by
      refine Nat.lt_of_le_of_ne enough fun nothing => once ?_
      refine .headersOnly endpoint (header _ coalescing) isAccepted ?_
      rw [frame.consistent.length_bytes, nothing]
    rw [wp_bind']
    refine wp_mono (rmnetFragSegmentCoalData_wp unowned frame.consistent rfl more ?_) ?_
    · intro coal goesOn
      by_contra long
      exact once (.longHeaders endpoint (header _ coalescing) isAccepted goesOn
        (Nat.lt_of_not_le long))
    · rintro list owned (⟨rfl, held⟩ | segmenting)
      · rw [if_neg (by simp)]
        exact held
      · obtain ⟨notFirst, held⟩ := segmenting.recycle unowned
        obtain ⟨coal, ownCoal, _⟩ := segmenting.own
        rw [if_pos notFirst, wp_bind']
        exact wp_putCell ownCoal held
  rw [if_neg coalescing]
  by_cases csumOffload : ((content.bytes port.pages).getD mapHeaderSize 0 >>> 1).toNat =
    rmnetMapHeaderTypeCsumOffload
  · have more := frame.more (header _ csumOffload)
    have notPadding := fun all => once (.padding endpoint (header _ csumOffload) all)
    rw [if_pos csumOffload, wp_bind']
    refine noteChecksum_wp port _ _ frame.consistent fun checked sameLen consistent sameValid => ?_
    have longer : mapHeaderSize + mapV5CsumHeaderSize < checked.len := sameLen ▸ more
    have within := Nat.le_of_lt longer
    have positive : 0 < (checked.pulled (mapHeaderSize + mapV5CsumHeaderSize)).len := by
      rw [len_pulled consistent within]
      omega
    rw [wp_bind']
    refine rmnetFragPull_wp (update_self _ _ _)
      (fun short => absurd longer (Nat.not_lt_of_le short)) fun _ => ?_
    rw [update_idem, (consistent.pulled within).nonempty positive, Bool.not_false,
      if_pos rfl, wp_bind']
    refine rmnetFragTrim_wp (update_self _ _ _) (consistent.pulled within) positive
      (fun nothing => absurd (packetLen_eq_zero_iff.mp nothing) notPadding) ?_
    intro _ trimmed stillValid
    rw [update_idem]
    refine Held.single unowned fun valid => ?_
    rw [stillValid] at valid
    have unmarked := sameValid.trans frame.unmarked
    exact absurd (valid.symm.trans unmarked) (by decide)
  · rw [if_neg csumOffload]
    exact ⟨_, rfl⟩

end Frame

/-! ## Delivery -/

section Delivery

variable {desc : Nat} {content : FragDescriptor} {owned : Cells FragDescriptor}

theorem rmnetFragDeliver_wp (own : owned desc = some content) (deliverable : content.Deliverable) :
    (rmnetFragDeliver desc).wp .zero owned
      fun _ after => after = update owned desc none := by
  unfold rmnetFragDeliver rmnetAllocSkb
  rw [wp_bind', wp_bind']
  refine wp_readCell own ?_
  intro granted
  cases granted with
  | false => exact wp_putCell own rfl
  | true =>
    by_cases valid : content.hdrsValid = true
    · rw [if_pos valid]
      by_cases headerOnly : (content.ipLen + content.transLen).toNat = content.len
      · rw [if_pos headerOnly]
        exact wp_putCell own rfl
      · rw [if_neg headerOnly]
        refine rmnetFragPull_wp own (fun short => ?_) fun _ => ?_
        · exact absurd (Nat.le_antisymm (deliverable valid) short) headerOnly
        · refine wp_putCell (update_self _ _ _) ?_
          rw [update_idem]
    · rw [if_neg valid]
      exact wp_putCell own rfl

/-- Whatever is on the list is given away. -/
theorem giveSegs_wp {base : Cells FragDescriptor} {segs : List Nat} (skipPerf : Bool)
    (held : Held Deliverable base segs owned) :
    (giveSegs skipPerf segs).wp .zero owned fun _ after => after = base := by
  intro entry
  refine held.wp_loop rfl (fun _ _ => rfl) fun desc content owned own deliverable => ?_
  cases !skipPerf && entry with
  | false => exact rmnetFragDeliver_wp own deliverable
  | true => exact wp_handCell own rfl

end Delivery

/-! ## The handler -/

section Handled

variable {port : IngressPort} {desc : Nat} {content : FragDescriptor}
  {owned : Cells FragDescriptor}

/-- The handler gives the descriptor away once and touches no other. -/
theorem rmnetFragIngressHandlerInner_wp (own : owned desc = some content)
    (frame : FrameDescriptor port content) (once : ¬ RecycledTwice port content) :
    (rmnetFragIngressHandlerInner port desc).wp .zero owned
      fun _ after => after = update owned desc none := by
  have unowned : update owned desc none desc = none := update_self _ _ _
  have held : ∀ content : FragDescriptor, update (update owned desc none) desc
      (some content) = update owned desc (some content) :=
    fun _ => update_idem _ _ _
  unfold rmnetFragIngressHandlerInner
  rw [wp_bind']
  refine wp_readCell own ?_
  rcases read : content.rmnetFragHeaderPtr port.pages 0 mapHeaderSize with _ | bytes
  · exact wp_putCell own rfl
  have sameHeader : mapHeader bytes = mapHeader (content.bytes port.pages) := by
    have at0 := getD_of_headerPtr read (by decide : 0 < mapHeaderSize)
    have at1 := getD_of_headerPtr read (by decide : 1 < mapHeaderSize)
    have at2 := getD_of_headerPtr read (by decide : 2 < mapHeaderSize)
    have at3 := getD_of_headerPtr read (by decide : 3 < mapHeaderSize)
    unfold mapHeader
    rw [at0, at1, at2, at3]
  simp only [sameHeader]
  by_cases command : (mapHeader (content.bytes port.pages)).cdBit = true
  · rw [if_pos command]
    exact wp_putCell own rfl
  rw [if_neg command]
  by_cases noMux : rmnetMaxLogicalEp ≤ (mapHeader (content.bytes port.pages)).muxId.toNat
  · rw [if_pos noMux]
    exact wp_putCell own rfl
  rw [if_neg noMux]
  rcases endpoint : port.rmnetGetEndpoint (mapHeader (content.bytes port.pages)).muxId with
    _ | dev
  · exact wp_putCell own rfl
  rw [wp_bind']
  refine wp_writeCell own ?_
  by_cases next : ((mapHeader (content.bytes port.pages)).nextHdr &&
    hasNextHeader port.dataFormat) = true
  · rw [if_pos next, wp_bind', ← held]
    rw [Bool.and_eq_true] at next
    refine wp_mono (rmnetFragProcessNextHdrPacket_wp unowned frame once endpoint fun type is => ?_)
      ?_
    · exact ⟨(Bool.not_eq_true _).mp command, Nat.lt_of_not_le noMux, next.1, next.2, is⟩
    · intro result owned processed
      cases result with
      | none =>
        obtain ⟨content, rfl⟩ := processed
        refine wp_putCell (update_self _ _ _) ?_
        rw [update_idem, update_idem]
      | some segs => exact giveSegs_wp _ processed
  · rw [if_neg next, wp_bind']
    refine rmnetFragPull_wp (update_self _ _ _) (fun _ => ?_) fun more => ?_
    · rw [update_idem]
      exact rfl
    have consistent : Consistent { content with dev := some dev } :=
      frame.consistent
    have within := Nat.le_of_lt more
    have positive : 0 < (pulled { content with dev := some dev }
        mapHeaderSize).len := by
      rw [len_pulled consistent within]
      omega
    rw [update_idem, (consistent.pulled within).nonempty positive, Bool.not_false,
      if_pos rfl, wp_bind']
    refine rmnetFragTrim_wp (update_self _ _ _) (consistent.pulled within) positive
      (fun _ => ?_) fun _ trimmed stillValid => ?_
    · rw [update_idem]
      exact rfl
    · rw [update_idem, ← held]
      refine giveSegs_wp _ (Held.single unowned fun valid => ?_)
      rw [stillValid] at valid
      exact absurd (valid.symm.trans frame.unmarked) (by decide)

/-- A frame that is handled once. -/
def HandledOnce (port : IngressPort) (desc : FragDescriptor) : Prop :=
  FrameDescriptor port desc ∧ ¬ RecycledTwice port desc

theorem takeFrames_wp {contents : List FragDescriptor} {base : Cells FragDescriptor}
    (good : ∀ content ∈ contents, HandledOnce port content) :
    (takeFrames contents).wp .zero base fun descs after =>
      Held (HandledOnce port) base descs after := by
  induction contents generalizing base with
  | nil => exact Held.nil _ _
  | cons content contents ih =>
    unfold takeFrames
    rw [wp_bind', wp_getCell]
    refine ⟨Held.nil _ _, fun desc unowned => ?_⟩
    rw [wp_bind']
    refine wp_writeCell (update_self _ _ _) ?_
    rw [update_idem, wp_bind']
    refine wp_mono (ih fun content member =>
      good content (mem_cons_of_mem _ member)) fun descs after held => ?_
    exact held.cons (good content mem_cons_self) unowned

/-- A CPU is safe by itself. -/
theorem safe_rmnetFragIngressHandler {contents : List FragDescriptor}
    (good : ∀ content ∈ contents, HandledOnce port content) :
    Safe .zero (rmnetFragIngressHandler port contents) := by
  unfold Safe rmnetFragIngressHandler
  rw [wp_bind']
  refine wp_mono (takeFrames_wp good) fun descs owned held => ?_
  refine wp_mono (held.wp_loop rfl (fun _ _ => rfl) fun desc content owned own handled => ?_)
    fun _ after same cell => ?_
  · exact rmnetFragIngressHandlerInner_wp own handled.1 handled.2
  · rw [same]

end Handled

end Sm8650.Rmnet
