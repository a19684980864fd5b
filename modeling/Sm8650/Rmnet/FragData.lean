import Sm8650.Rmnet.Deaggregate

/-!
# The data of a descriptor

How `rmnet_descriptor.c` reads bytes across fragments, cuts bytes off at either
end, and what it reads there: the coalescing header of a frame and the headers of
the packet behind it.
-/

namespace Sm8650.Rmnet

/-! ## Reading -/

/-- The loop of `rmnet_frag_copy_data`. -/
def copyFrags (pages : Pages) : List SkbFrag → Nat → Nat → List Byte
  | [], _, _ => []
  | frag :: frags, off, len =>
    if len = 0 then
      []
    else if off < frag.size then
      let copyLen := min len (frag.size - off)
      readPage pages frag.page (frag.off + off) copyLen ++ copyFrags pages frags 0 (len - copyLen)
    else
      copyFrags pages frags (off - frag.size) len

/-- The loop of `rmnet_frag_header_ptr`: the fragment that an offset is in. -/
def headerFrag : List SkbFrag → Nat → Option (SkbFrag × Nat)
  | [], _ => none
  | frag :: frags, off =>
    if off < frag.size then some (frag, off) else headerFrag frags (off - frag.size)

/-! ## Cutting -/

/-- The loop of `rmnet_frag_pull`. -/
def pullFrags : List SkbFrag → Nat → Nat → List SkbFrag × Nat
  | [], _, len => ([], len)
  | frag :: frags, size, len =>
    if size = 0 then
      (frag :: frags, len)
    else if frag.size ≤ size then
      pullFrags frags (size - frag.size) (len - frag.size)
    else
      (frag.advance size :: frags, len - size)

/-- The loop of `rmnet_frag_trim`, over the fragments from the last one on. -/
def trimFrags : List SkbFrag → Nat → Nat → List SkbFrag × Nat
  | [], _, len => ([], len)
  | frag :: frags, eat, len =>
    if eat = 0 then
      (frag :: frags, len)
    else if frag.size ≤ eat then
      trimFrags frags (eat - frag.size) (len - frag.size)
    else
      (frag.shorten (frag.size - eat) :: frags, len - eat)

namespace FragDescriptor

/-- The length of a descriptor is that of its fragments. -/
def Consistent (desc : FragDescriptor) : Prop := desc.len = (desc.frags.map SkbFrag.size).sum

/-- The bytes asked for are not all there. -/
def outside (desc : FragDescriptor) (off len : Nat) : Bool :=
  decide (desc.len < off) || decide (desc.len < len) || decide (desc.len < off + len)

/-- `rmnet_frag_copy_data`. -/
def rmnetFragCopyData (pages : Pages) (desc : FragDescriptor) (off len : Nat) :
    Option (List Byte) :=
  if desc.outside off len then none else some (copyFrags pages desc.frags off len)

/-- The bytes that `rmnet_frag_header_ptr` returns a pointer to. -/
def rmnetFragHeaderPtr (pages : Pages) (desc : FragDescriptor) (off len : Nat) :
    Option (List Byte) :=
  if desc.outside off len then
    none
  else
    match headerFrag desc.frags off with
    | none => desc.rmnetFragCopyData pages off len
    | some (frag, inner) =>
      if inner + len ≤ frag.size then
        some (readPage pages frag.page (frag.off + inner) len)
      else
        desc.rmnetFragCopyData pages off len

/-- The byte that `rmnet_frag_data_ptr` points to. -/
def rmnetFragDataPtr (pages : Pages) (desc : FragDescriptor) : Option Byte :=
  desc.frags.head?.map fun frag => pages frag.page frag.off

/-- What `rmnet_frag_pull` leaves of a descriptor that is longer. -/
def pulled (desc : FragDescriptor) (size : Nat) : FragDescriptor :=
  { desc with
    frags := (pullFrags desc.frags size desc.len).1
    len := (pullFrags desc.frags size desc.len).2 }

/-- What `rmnet_frag_trim` leaves of a descriptor that is longer. -/
def trimmed (desc : FragDescriptor) (size : Nat) : FragDescriptor :=
  let rest := trimFrags desc.frags.reverse (desc.len - size) desc.len
  { desc with frags := rest.1.reverse, len := rest.2 }

end FragDescriptor

/-! ## The coalescing header -/

/-- `RMNET_MAP_V5_MAX_NLOS` -/
def rmnetMapV5MaxNlos : Nat := 6

/-- `RMNET_MAP_V5_MAX_PACKETS` -/
def rmnetMapV5MaxPackets : Nat := 48

/-- `struct rmnet_map_v5_nl_pair`. -/
structure NlPair where
  pktLen : BitVec 16
  csumErrorBitmap : Byte
  numPackets : Byte
  deriving DecidableEq, Repr

/-- `struct rmnet_map_v5_coal_header`. -/
structure CoalHeader where
  numNlos : Nat
  csumValid : Bool
  closeType : Nat
  closeValue : Nat
  nlPairs : List NlPair
  deriving DecidableEq, Repr

/-- Two bytes in network order. -/
def be16 (bytes : List Byte) (off : Nat) : BitVec 16 := bytes.getD off 0 ++ bytes.getD (off + 1) 0

/-- Four bytes in network order. -/
def be32 (bytes : List Byte) (off : Nat) : BitVec 32 := be16 bytes off ++ be16 bytes (off + 2)

/-- The pair of a length and a number at an offset. -/
def nlPair (bytes : List Byte) (off : Nat) : NlPair where
  pktLen := be16 bytes off
  csumErrorBitmap := bytes.getD (off + 2) 0
  numPackets := bytes.getD (off + 3) 0

/-- The header in the given bytes. -/
def coalHeader (bytes : List Byte) : CoalHeader where
  numNlos := ((bytes.getD 1 0).extractLsb' 4 3).toNat
  csumValid := (bytes.getD 1 0).getLsbD 7
  closeType := ((bytes.getD 2 0).extractLsb' 0 4).toNat
  closeValue := ((bytes.getD 2 0).extractLsb' 4 4).toNat
  nlPairs := (List.range rmnetMapV5MaxNlos).map fun i => nlPair bytes (4 + 4 * i)

/-- The loop of `rmnet_frag_data_check_coal_header`; the packets are counted in a `u8`. -/
def checkNlPairs : Nat → Byte → BitVec 64 → List NlPair → Option (BitVec 64)
  | _, _, mask, [] => some mask
  | i, pkts, mask, pair :: pairs =>
    let mask := mask ||| pair.csumErrorBitmap.setWidth 64 <<< (8 * i)
    let pkts := pkts + pair.numPackets
    if rmnetMapV5MaxPackets < pkts.toNat then none else checkNlPairs (i + 1) pkts mask pairs

/-- The values of `close_type` and `close_value` that `rmnet_map_v5_csum_buggy` asks for. -/
def rmnetMapCoalCloseHw : Nat := 3

def rmnetMapCoalCloseCoal : Nat := 4

def rmnetMapCoalCloseHwPkt : Nat := 1

def rmnetMapCoalCloseHwByte : Nat := 2

def rmnetMapCoalCloseHwTime : Nat := 3

/-- `rmnet_map_v5_csum_buggy`. -/
def rmnetMapV5CsumBuggy (header : CoalHeader) : Bool :=
  if header.numNlos ≠ 1 || (header.nlPairs.head?.map NlPair.numPackets) ≠ some 1 then
    false
  else if header.closeType = rmnetMapCoalCloseCoal then
    true
  else
    header.closeType = rmnetMapCoalCloseHw &&
      (header.closeValue = rmnetMapCoalCloseHwPkt || header.closeValue = rmnetMapCoalCloseHwByte ||
        header.closeValue = rmnetMapCoalCloseHwTime)

/-- `rmnet_frag_data_check_coal_header`: the error mask of a header that is accepted. -/
def rmnetFragDataCheckCoalHeader (pages : Pages) (desc : FragDescriptor) : Option (BitVec 64) :=
  match desc.rmnetFragHeaderPtr pages mapHeaderSize mapV5CoalHeaderSize with
  | none => none
  | some bytes =>
    let header := coalHeader bytes
    if header.numNlos = 0 || rmnetMapV5MaxNlos < header.numNlos then none
    else checkNlPairs 0 0 0 header.nlPairs

/-! ## The headers of the packet -/

def ipprotoTcp : Byte := 6

def ipprotoUdp : Byte := 17

/-- The numbers of the IPv6 extension headers. -/
def nexthdrHop : Byte := 0

def nexthdrRouting : Byte := 43

def nexthdrFragment : Byte := 44

def nexthdrAuth : Byte := 51

def nexthdrNone : Byte := 59

def nexthdrDest : Byte := 60

/-- The kernel's `ipv6_ext_hdr`. -/
def ipv6ExtHdr (nexthdr : Byte) : Bool :=
  nexthdr = nexthdrHop || nexthdr = nexthdrRouting || nexthdr = nexthdrFragment ||
    nexthdr = nexthdrAuth || nexthdr = nexthdrNone || nexthdr = nexthdrDest

/-- Where the extension headers end, and which fragment header was among them. -/
structure ExtHdrs where
  start : Nat
  nexthdr : Byte
  fragOff : BitVec 16
  fragHdr : Bool
  deriving DecidableEq, Repr

/-- `rmnet_frag_ipv6_skip_exthdr`, for as many headers as there is fuel. -/
def rmnetFragIpv6SkipExthdr (pages : Pages) (desc : FragDescriptor) : Nat → ExtHdrs → Option ExtHdrs
  | 0, _ => none
  | fuel + 1, headers =>
    if !ipv6ExtHdr headers.nexthdr then
      some headers
    else if headers.nexthdr = nexthdrNone then
      none
    else
      match desc.rmnetFragHeaderPtr pages headers.start 2 with
      | none => none
      | some opt =>
        let hdrlen := (opt.getD 1 0).toNat
        if headers.nexthdr = nexthdrFragment then
          match desc.rmnetFragHeaderPtr pages (headers.start + 2) 2 with
          | none => none
          | some fp =>
            let found := { headers with fragOff := be16 fp 0, fragHdr := true }
            if be16 fp 0 &&& ~~~7 ≠ 0 then
              some found
            else
              rmnetFragIpv6SkipExthdr pages desc fuel
                { found with nexthdr := opt.getD 0 0, start := headers.start + 8 }
        else
          let size := if headers.nexthdr = nexthdrAuth then 4 * (hdrlen + 2)
            else 8 * (hdrlen + 1)
          rmnetFragIpv6SkipExthdr pages desc fuel
            { headers with nexthdr := opt.getD 0 0, start := headers.start + size }

/-- What `rmnet_frag_segment_coal_data` learns from the headers besides what it
writes into the descriptor. -/
structure CoalMeta where
  gro : Bool
  zeroCsum : Bool
  deriving DecidableEq, Repr

/-- The part of `rmnet_frag_segment_coal_data` about the IP header: the descriptor as
far as it was written, and whether packets may be coalesced. -/
def coalIpHeader (pages : Pages) (desc : FragDescriptor) (gro : Bool) :
    FragDescriptor × Option Bool :=
  match desc.rmnetFragDataPtr pages with
  | none => (desc, none)
  | some version =>
    if version &&& 0xF0 = 0x40 then
      match desc.rmnetFragHeaderPtr pages 0 20 with
      | none => (desc, none)
      | some iph =>
        let ihl := (iph.getD 0 0).extractLsb' 0 4
        ({ desc with
            ipProto := 4
            ipLen := ihl.setWidth 16 * 4
            transProto := iph.getD 9 0 }, some (gro && decide (ihl = 5)))
    else if version &&& 0xF0 = 0x60 then
      match desc.rmnetFragHeaderPtr pages 0 40 with
      | none => (desc, none)
      | some ip6h =>
        let first : ExtHdrs := ⟨40, ip6h.getD 6 0, 0, false⟩
        match rmnetFragIpv6SkipExthdr pages desc (desc.len + 1) first with
        | none => ({ desc with ipProto := 6, transProto := first.nexthdr }, none)
        | some headers =>
          if headers.fragOff ≠ 0 then
            ({ desc with ipProto := 6, transProto := headers.nexthdr }, none)
          else
            ({ desc with
                ipProto := 6
                ipLen := BitVec.ofNat 16 headers.start
                transProto := headers.nexthdr },
              some (gro && !headers.fragHdr && decide ((BitVec.ofNat 16 headers.start).toNat ≤ 40)))
    else
      (desc, none)

/-- The part of `rmnet_frag_segment_coal_data` about the transport header. -/
def coalTransHeader (pages : Pages) (desc : FragDescriptor) (gro : Bool) :
    FragDescriptor × Option CoalMeta :=
  if desc.transProto = ipprotoTcp then
    match desc.rmnetFragHeaderPtr pages desc.ipLen.toNat 20 with
    | none => (desc, none)
    | some th =>
      ({ desc with transLen := ((th.getD 12 0).extractLsb' 4 4).setWidth 16 * 4 },
        some ⟨gro, false⟩)
  else if desc.transProto = ipprotoUdp then
    match desc.rmnetFragHeaderPtr pages desc.ipLen.toNat 8 with
    | none => (desc, none)
    | some uh =>
      ({ desc with transLen := 8 }, some ⟨gro, decide (desc.ipProto = 4) && decide (be16 uh 6 = 0)⟩)
  else
    (desc, none)

/-- The descriptor with what its headers say, as far as they could be read. -/
def coalHeaders (pages : Pages) (desc : FragDescriptor) (gro : Bool) :
    FragDescriptor × Option CoalMeta :=
  match coalIpHeader pages desc gro with
  | (desc, none) => (desc, none)
  | (desc, some gro) => coalTransHeader pages desc gro

end Sm8650.Rmnet
