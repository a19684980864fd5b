import Sm8650.Rmnet.FragData
import Sm8650.Transition.Owned

/-!
# The ingress handler

What a CPU does with the descriptor of a frame, as a program over the descriptors of
the port: `__rmnet_frag_ingress_handler` of `rmnet_descriptor.c` and the functions
it calls, down to the pool. A descriptor that goes to the perf hook is handed over;
all others go back to the pool.
-/

namespace Sm8650.Rmnet

open Transition
open Sm8650.Transition.Prog (askFor getCell putCell handCell readCell writeCell)

/-- What `rmnet_frag_checksum_pkt` writes into a descriptor and returns. -/
structure ChecksumPkt where
  ipLen : BitVec 16
  ipProto : BitVec 8
  transProto : BitVec 8
  valid : Option Bool

/-- What the handler reads besides descriptors: the pages, the port with its
endpoints and their devices, and the checksums of the kernel. -/
structure IngressPort where
  pages : Pages
  dataFormat : BitVec 32
  rmnetGetEndpoint : Byte → Option Nat
  groHw : Nat → Bool
  rxcsum : Nat → Bool
  pageSize : Nat → Nat
  checksumPkt : FragDescriptor → ChecksumPkt
  validateCsum : FragDescriptor → Bool

/-- `RMNET_MAX_LOGICAL_EP` -/
def rmnetMaxLogicalEp : Nat := 255

/-- A program over descriptors. -/
abbrev Handler (α : Type) := Prog FragDescriptor α

namespace Handler

/-- `rmnet_frag_pull`: whether a pointer to the data is returned. -/
def rmnetFragPull (desc : Nat) (size : Nat) : Handler Bool := do
  let content ← readCell desc
  if content.len ≤ size then
    putCell desc
    pure false
  else
    writeCell desc (content.pulled size)
    pure !(content.pulled size).frags.isEmpty

/-- `rmnet_frag_trim`: whether a pointer to the data is returned. -/
def rmnetFragTrim (desc : Nat) (size : Nat) : Handler Bool := do
  let content ← readCell desc
  if size = 0 then
    putCell desc
    pure false
  else if content.len ≤ size then
    pure !content.frags.isEmpty
  else
    writeCell desc (content.trimmed size)
    pure !(content.trimmed size).frags.isEmpty

/-- `rmnet_frag_descriptor_add_frag`. -/
def rmnetFragDescriptorAddFrag (desc : Nat) (frag : SkbFrag) : Handler Bool := do
  let granted ← askFor
  if granted then
    let content ← readCell desc
    writeCell desc
      { content with frags := content.frags ++ [frag], len := content.len + frag.size }
    pure true
  else
    pure false

/-- The loop of `rmnet_frag_descriptor_add_frags_from`. -/
def addFragsLoop (dest : Nat) : List SkbFrag → Nat → Nat → Handler Bool
  | [], _, _ => pure true
  | frag :: frags, off, len =>
    if len = 0 then
      pure true
    else if off < frag.size then do
      let copyLen := min len (frag.size - off)
      let added ← rmnetFragDescriptorAddFrag dest ⟨frag.page, frag.off + off, copyLen⟩
      if added then addFragsLoop dest frags 0 (len - copyLen) else pure false
    else
      addFragsLoop dest frags (off - frag.size) len

/-- `rmnet_frag_descriptor_add_frags_from`. -/
def rmnetFragDescriptorAddFragsFrom (dest source : Nat) (off len : Nat) : Handler Bool := do
  let content ← readCell source
  if content.outside off len then pure false else addFragsLoop dest content.frags off len

end Handler

/-! ## Segmentation -/

/-- The length of the data that the next segment gets. -/
def FragDescriptor.segmentLen (coal : FragDescriptor) : Nat :=
  coal.gsoSize.toNat * coal.gsoSegs.toNat

/-- The length of the headers. -/
def FragDescriptor.headerLen (coal : FragDescriptor) : Nat := coal.ipLen.toNat + coal.transLen.toNat

/-- Where the data of the next segment begins. -/
def FragDescriptor.segmentOffset (coal : FragDescriptor) : Nat :=
  coal.headerLen + coal.dataOffset.toNat

/-- The part of `__rmnet_frag_segment_data` about the transport header: the new
descriptor, and whether its checksum is valid. -/
def segmentTrans (pages : Pages) (coal new : FragDescriptor) (csumValid : Bool) :
    Option (FragDescriptor × Bool) :=
  if coal.transProto = ipprotoTcp then
    match coal.rmnetFragHeaderPtr pages coal.ipLen.toNat 20 with
    | none => none
    | some th =>
      let numbered := { new with
        tcpSeqSet := true
        tcpSeq := be32 th 4 + coal.dataOffset.setWidth 32 }
      let finOrPsh := (th.getD 13 0).getLsbD 0 || (th.getD 13 0).getLsbD 3
      if finOrPsh && decide (coal.segmentOffset + coal.segmentLen < coal.len) then
        -- `TCP_FLAG_FIN` and `TCP_FLAG_PSH` are cleared.
        some ({ numbered with tcpFlagsSet := true, tcpFlags := be16 th 12 &&& ~~~9 }, csumValid)
      else
        some (numbered, csumValid)
  else if coal.transProto = ipprotoUdp then
    match coal.rmnetFragHeaderPtr pages coal.ipLen.toNat 8 with
    | none => none
    | some uh =>
      some (new, csumValid || (decide (coal.ipProto = 4) && decide (be16 uh 6 = 0)))
  else
    some (new, csumValid)

/-- The part of `__rmnet_frag_segment_data` about the IP header. -/
def segmentIp (pages : Pages) (coal new : FragDescriptor) : Option FragDescriptor :=
  if coal.ipProto = 4 then
    match coal.rmnetFragHeaderPtr pages 0 20 with
    | none => none
    | some iph =>
      some { new with ipIdSet := true, ipId := be16 iph 4 + coal.pktId.setWidth 16 }
  else
    some new

/-- What a new segment says about itself once it has its fragments. -/
def segmentMeta (pages : Pages) (coal new : FragDescriptor) (csumValid : Bool) :
    Option FragDescriptor :=
  match segmentTrans pages coal new csumValid with
  | none => none
  | some (new, csumValid) =>
    match segmentIp pages coal new with
    | none => none
    | some new => some { new with csumValid := csumValid }

/-- The coalesced descriptor behind a segment. -/
def FragDescriptor.segmented (coal : FragDescriptor) (pktId : Byte) : FragDescriptor :=
  { coal with
    dataOffset := coal.dataOffset + BitVec.ofNat 16 coal.segmentLen
    pktId := pktId + 1
    gsoSegs := 0
    coalBytes := 0
    coalBufsize := 0 }

/-- The variables of the loops of `rmnet_frag_segment_coal_data`. -/
structure SegmentLoop where
  list : List Nat
  totalPkt : Byte
  nloErrMask : BitVec 64

namespace Handler

/-- `__rmnet_frag_segment_data`: the list with the new segment. -/
def rmnetFragSegmentData (pages : Pages) (coalDesc : Nat) (list : List Nat) (pktId : Byte)
    (csumValid : Bool) : Handler (List Nat) := do
  let coal ← readCell coalDesc
  match ← getCell with
  | none => pure list
  | some newDesc =>
    writeCell newDesc { coal with frags := [], len := 0 }
    let headers ← rmnetFragDescriptorAddFragsFrom newDesc coalDesc 0 coal.headerLen
    if headers then
      let data ← rmnetFragDescriptorAddFragsFrom newDesc coalDesc coal.segmentOffset
        coal.segmentLen
      if data then
        let new ← readCell newDesc
        match segmentMeta pages coal new csumValid with
        | none => do
            putCell newDesc
            pure list
        | some new => do
            writeCell newDesc new
            writeCell coalDesc (coal.segmented pktId)
            pure (list ++ [newDesc])
      else
        putCell newDesc
        pure list
    else
      putCell newDesc
      pure list

/-- The good packets that are pending, if any, become a segment. -/
def segmentPending (pages : Pages) (coalDesc : Nat) (loop : SegmentLoop) : Handler (List Nat) := do
  let coal ← readCell coalDesc
  if coal.gsoSegs ≠ 0 then
    rmnetFragSegmentData pages coalDesc loop.list loop.totalPkt true
  else
    pure loop.list

/-- The current packet becomes a segment on its own. -/
def segmentSingle (pages : Pages) (coalDesc : Nat) (list : List Nat) (pktId : Byte)
    (csumValid : Bool) : Handler (List Nat) := do
  let coal ← readCell coalDesc
  writeCell coalDesc { coal with gsoSegs := 1 }
  rmnetFragSegmentData pages coalDesc list pktId csumValid

/-- The loop variables after a packet. -/
def nextPacket (loop : SegmentLoop) (list : List Nat) : SegmentLoop :=
  ⟨list, loop.totalPkt + 1, loop.nloErrMask >>> 1⟩

/-- One packet of the inner loop of `rmnet_frag_segment_coal_data`. -/
def segmentPacket (pages : Pages) (coalDesc : Nat) (gro : Bool) (loop : SegmentLoop) :
    Handler SegmentLoop := do
  let csumErr := loop.nloErrMask.getLsbD 0
  if !gro then
    let list ← segmentSingle pages coalDesc loop.list loop.totalPkt !csumErr
    pure (nextPacket loop list)
  else if csumErr then
    let good ← segmentPending pages coalDesc loop
    let list ← segmentSingle pages coalDesc good loop.totalPkt false
    pure (nextPacket loop list)
  else
    let coal ← readCell coalDesc
    writeCell coalDesc { coal with gsoSegs := coal.gsoSegs + 1 }
    pure (nextPacket loop loop.list)

/-- The inner loop, for so many packets. -/
def segmentPackets (pages : Pages) (coalDesc : Nat) (gro : Bool) :
    Nat → SegmentLoop → Handler SegmentLoop
  | 0, loop => pure loop
  | count + 1, loop => do
      let loop ← segmentPacket pages coalDesc gro loop
      segmentPackets pages coalDesc gro count loop

/-- The outer loop of `rmnet_frag_segment_coal_data`, over the pairs. -/
def segmentPairs (pages : Pages) (coalDesc : Nat) (gro : Bool) :
    List NlPair → SegmentLoop → Handler SegmentLoop
  | [], loop => pure loop
  | pair :: pairs, loop => do
      let coal ← readCell coalDesc
      writeCell coalDesc { coal with gsoSize := pair.pktLen - (coal.ipLen + coal.transLen) }
      let loop ← segmentPackets pages coalDesc gro pair.numPackets.toNat loop
      let list ← segmentPending pages coalDesc loop
      segmentPairs pages coalDesc gro pairs { loop with list := list }

end Handler

/-- The coalesced descriptor with its headers, to be put on the list as it is. -/
def FragDescriptor.whole (coal : FragDescriptor) (header : CoalHeader) (csumValid : Bool) :
    FragDescriptor :=
  let pair := header.nlPairs.headD ⟨0, 0, 0⟩
  { coal with
    csumValid := csumValid
    gsoSize := pair.pktLen - (coal.ipLen + coal.transLen)
    gsoSegs := pair.numPackets.setWidth 16 }

/-- The coalesced descriptor whose headers were read. -/
def FragDescriptor.counted (coal : FragDescriptor) (port : IngressPort) : FragDescriptor :=
  { coal with
    hdrsValid := true
    coalBytes := coal.len
    coalBufsize :=
      coal.coalBufsize + (coal.frags.map fun frag => port.pageSize frag.page).sum }

namespace Handler

/-- `rmnet_frag_segment_coal_data`, with an empty list. -/
def rmnetFragSegmentCoalData (port : IngressPort) (coalDesc : Nat) (nloErrMask : BitVec 64) :
    Handler (List Nat) := do
  let coal ← readCell coalDesc
  let gro := (coal.dev.map port.groHw).getD false
  match coal.rmnetFragCopyData port.pages mapHeaderSize mapV5CoalHeaderSize with
  | none => pure []
  | some bytes =>
    let header := coalHeader bytes
    let left ← rmnetFragPull coalDesc (mapHeaderSize + mapV5CoalHeaderSize)
    if left then
      let coal ← readCell coalDesc
      match coalHeaders port.pages coal gro with
      | (coal, none) => do
          writeCell coalDesc coal
          pure []
      | (coal, some found) =>
        let coal := coal.counted port
        if rmnetMapV5CsumBuggy header && !found.zeroCsum then do
          writeCell coalDesc (coal.whole header (coal.csumValid || port.validateCsum coal))
          pure [coalDesc]
        else if found.gro && decide (header.numNlos = 1) && header.csumValid then do
          writeCell coalDesc (coal.whole header true)
          pure [coalDesc]
        else do
          writeCell coalDesc coal
          let loop ← segmentPairs port.pages coalDesc found.gro
            (header.nlPairs.take header.numNlos) ⟨[], 0, nloErrMask⟩
          pure loop.list
    else
      pure []

/-! ## Delivery -/

/-- `rmnet_alloc_skb`, as far as it touches the descriptor: whether there is an `skb`. -/
def rmnetAllocSkb (desc : Nat) : Handler Bool := do
  let content ← readCell desc
  let granted ← askFor
  if !granted then
    pure false
  else if content.hdrsValid then
    let hdrLen := (content.ipLen + content.transLen).toNat
    if hdrLen = content.len then pure true else rmnetFragPull desc hdrLen
  else
    pure true

/-- `rmnet_frag_deliver`. -/
def rmnetFragDeliver (desc : Nat) : Handler Unit := do
  let _ ← rmnetAllocSkb desc
  putCell desc

/-- A descriptor is given to the perf hook, or is delivered. -/
def giveOne (hook : Bool) (desc : Nat) : Handler Unit :=
  if hook then handCell desc else rmnetFragDeliver desc

/-- The last loops of `__rmnet_frag_ingress_handler`. -/
def giveAway (hook : Bool) : List Nat → Handler Unit
  | [] => pure ()
  | desc :: descs => do
      giveOne hook desc
      giveAway hook descs

/-! ## The handler -/

/-- The part of `rmnet_frag_process_next_hdr_packet` that notes whether the checksum of
a packet is valid. -/
def noteChecksum (port : IngressPort) (desc : Nat) (csumValidRequired : Bool) :
    Handler Unit := do
  let content ← readCell desc
  if !(content.dev.map port.rxcsum).getD false then
    pure ()
  else if csumValidRequired then
    writeCell desc { content with csumValid := true }
  else
    let checked := port.checksumPkt content
    writeCell desc { content with
      ipLen := checked.ipLen
      ipProto := checked.ipProto
      transProto := checked.transProto
      csumValid := content.csumValid || checked.valid = some true }

/-- `rmnet_frag_process_next_hdr_packet`, with an empty list: the list, or an error. -/
def rmnetFragProcessNextHdrPacket (port : IngressPort) (desc : Nat) (len : Nat) :
    Handler (Option (List Nat)) := do
  let content ← readCell desc
  match content.rmnetFragHeaderPtr port.pages mapHeaderSize mapV5CsumHeaderSize with
  | none => pure none
  | some csumHdr =>
    let headerType := (csumHdr.getD 0 0 >>> 1).toNat
    if headerType = rmnetMapHeaderTypeCoalescing then
      match rmnetFragDataCheckCoalHeader port.pages content with
      | none => pure none
      | some nloErrMask => do
          let list ← rmnetFragSegmentCoalData port desc nloErrMask
          if list.head? ≠ some desc then
            putCell desc
          pure (some list)
    else if headerType = rmnetMapHeaderTypeCsumOffload then do
      noteChecksum port desc ((csumHdr.getD 1 0).getLsbD 7)
      let left ← rmnetFragPull desc (mapHeaderSize + mapV5CsumHeaderSize)
      if left then
        let left ← rmnetFragTrim desc len
        if left then pure (some [desc]) else pure none
      else
        pure none
    else
      pure none

/-- What `__rmnet_frag_ingress_handler` does with the list. -/
def giveSegs (skipPerf : Bool) (segs : List Nat) : Handler Unit := do
  let entry ← askFor
  giveAway (!skipPerf && entry) segs

/-- `__rmnet_frag_ingress_handler`. A command is read, answered or noted, and its
descriptor goes back; whether there is a perf hook is up to the environment. -/
def rmnetFragIngressHandlerInner (port : IngressPort) (desc : Nat) : Handler Unit := do
  let content ← readCell desc
  let skipPerf : Bool := content.priority = 0xda1a
  match content.rmnetFragHeaderPtr port.pages 0 mapHeaderSize with
  | none => putCell desc
  | some header =>
    let qmap := mapHeader header
    let len := (BitVec.ofNat 16 qmap.pktLen - BitVec.ofNat 16 qmap.padLen).toNat
    if qmap.cdBit then
      putCell desc
    else if rmnetMaxLogicalEp ≤ qmap.muxId.toNat then
      putCell desc
    else
      match port.rmnetGetEndpoint qmap.muxId with
      | none => putCell desc
      | some dev => do
          writeCell desc { content with dev := some dev }
          if qmap.nextHdr && hasNextHeader port.dataFormat then
            match ← rmnetFragProcessNextHdrPacket port desc len with
            | none => putCell desc
            | some segs => giveSegs skipPerf segs
          else
            let left ← rmnetFragPull desc mapHeaderSize
            if left then
              let left ← rmnetFragTrim desc len
              if left then giveSegs skipPerf [desc] else pure ()
            else
              pure ()

/-- The loop of `rmnet_frag_ingress_handler` over the descriptors of a buffer. -/
def handleAll (port : IngressPort) : List Nat → Handler Unit
  | [] => pure ()
  | desc :: descs => do
      rmnetFragIngressHandlerInner port desc
      handleAll port descs

/-- Takes a descriptor for each frame, as deaggregation does, until there is none. -/
def takeFrames : List FragDescriptor → Handler (List Nat)
  | [] => pure []
  | content :: contents => do
      match ← getCell with
      | none => pure []
      | some desc => do
          writeCell desc content
          let descs ← takeFrames contents
          pure (desc :: descs)

/-- `rmnet_frag_ingress_handler`, for a buffer that is deaggregated into these
descriptors. -/
def rmnetFragIngressHandler (port : IngressPort) (contents : List FragDescriptor) :
    Handler Unit := do
  let descs ← takeFrames contents
  handleAll port descs

end Handler

end Sm8650.Rmnet
