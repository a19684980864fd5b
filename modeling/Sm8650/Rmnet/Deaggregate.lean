import Sm8650.Rmnet.Descriptor

/-!
# Deaggregation

A received buffer is a sequence of QMAP frames, cut into fragments at arbitrary
places. `rmnet_frag_deaggregate` makes a descriptor of each frame, until what is
left of the buffer is not a complete frame.
-/

namespace Sm8650.Rmnet

/-! ## The source -/

/-- `RMNET_FLAGS_INGRESS_MAP_CKSUMV4` -/
def rmnetFlagsIngressMapCksumv4 : BitVec 32 := 1 <<< 2

/-- `RMNET_FLAGS_INGRESS_COALESCE` -/
def rmnetFlagsIngressCoalesce : BitVec 32 := 1 <<< 4

/-- `RMNET_PRIV_FLAGS_INGRESS_MAP_CKSUMV5` -/
def rmnetPrivFlagsIngressMapCksumv5 : BitVec 32 := 1 <<< 5

/-- `RMNET_MAP_HEADER_TYPE_COALESCING` -/
def rmnetMapHeaderTypeCoalescing : Nat := 1

/-- `RMNET_MAP_HEADER_TYPE_CSUM_OFFLOAD` -/
def rmnetMapHeaderTypeCsumOffload : Nat := 2

/-- `sizeof(struct rmnet_map_header)` -/
def mapHeaderSize : Nat := 4

/-- `sizeof(struct rmnet_map_dl_csum_trailer)` -/
def mapDlCsumTrailerSize : Nat := 8

/-- `sizeof(struct rmnet_map_v5_coal_header)` -/
def mapV5CoalHeaderSize : Nat := 28

/-- `sizeof(struct rmnet_map_v5_csum_header)` -/
def mapV5CsumHeaderSize : Nat := 4

/-- `struct rmnet_map_header`. -/
structure MapHeader where
  padLen : Nat
  nextHdr : Bool
  cdBit : Bool
  muxId : Byte
  pktLen : Nat
  deriving DecidableEq, Repr

/-- The header in the first bytes. -/
def mapHeader (bytes : List Byte) : MapHeader where
  padLen := ((bytes.getD 0 0).extractLsb' 0 6).toNat
  nextHdr := (bytes.getD 0 0).getLsbD 6
  cdBit := (bytes.getD 0 0).getLsbD 7
  muxId := bytes.getD 1 0
  pktLen := 256 * (bytes.getD 2 0).toNat + (bytes.getD 3 0).toNat

/-- A received `sk_buff` without linear data; its length is kept in an `int`. -/
structure Skb where
  frags : List SkbFrag
  fits : (frags.map SkbFrag.size).sum < 2 ^ 31

namespace Skb

def len (skb : Skb) : Nat := (skb.frags.map SkbFrag.size).sum

def bytes (pages : Pages) (skb : Skb) : List Byte := fragBytes pages skb.frags

end Skb

/-- The kernel's `skb_copy_bits`: the bytes at an offset, or an error if there are
not that many. -/
def skbCopyBits (pages : Pages) (skb : Skb) (offset len : Nat) : Option (List Byte) :=
  if offset + len ≤ skb.len then some (((skb.bytes pages).drop offset).take len) else none

/-- The first loop of `rmnet_frag_deaggregate_one`: the fragment that `start` is
in, its offset in the buffer, and the fragments behind it. -/
def startFrag (start : Nat) : List SkbFrag → Nat → Option (SkbFrag × Nat × List SkbFrag)
  | [], _ => none
  | frag :: frags, offset =>
    if start < frag.size + offset then some (frag, offset, frags)
    else startFrag start frags (offset + frag.size)

/-- The second loop of `rmnet_frag_deaggregate_one`: what is missing of the packet
at the end, or an error. -/
def addFrags (port : Port) (id : Nat) : List SkbFrag → Nat → Option Nat × Port
  | [], pktLen => (some pktLen, port)
  | frag :: frags, pktLen =>
    if pktLen = 0 then
      (some 0, port)
    else
      let copy := min frag.size pktLen
      match port.rmnetFragDescriptorAddFrag id (frag.shorten copy) with
      | (false, port) => (none, port)
      | (true, port) =>
        if frag.size - copy = 0 then addFrags port id frags (pktLen - copy)
        else
          -- The fragment is not exhausted, so it was the packet that ended.
          (some (pktLen - copy), port)

/-- The length of the v5 header of a type. -/
def nextHeaderSize (type : Byte) : Nat :=
  if (type &&& 0xFE) >>> 1 = BitVec.ofNat 8 rmnetMapHeaderTypeCoalescing then
    mapV5CoalHeaderSize
  else if (type &&& 0xFE) >>> 1 = BitVec.ofNat 8 rmnetMapHeaderTypeCsumOffload then
    mapV5CsumHeaderSize
  else
    0

/-- The frames of this format have a trailer. -/
def hasTrailer (dataFormat : BitVec 32) : Bool := dataFormat &&& rmnetFlagsIngressMapCksumv4 ≠ 0

/-- The frames of this format may have a next header. -/
def hasNextHeader (dataFormat : BitVec 32) : Bool :=
  dataFormat &&& (rmnetPrivFlagsIngressMapCksumv5 ||| rmnetFlagsIngressCoalesce) ≠ 0

/-- The descriptors of the port and those on the list. -/
structure Deaggregation where
  port : Port
  list : List Nat

namespace Deaggregation

/-- The length of the frame, with its trailer or next header; an error if the type
byte cannot be read. -/
def frameLen (pages : Pages) (skb : Skb) (dataFormat : BitVec 32) (start startFragSize : Nat)
    (direct : List Byte) (maph : MapHeader) : Option Nat :=
  if hasTrailer dataFormat then
    some (maph.pktLen + mapHeaderSize + mapDlCsumTrailerSize)
  else if hasNextHeader dataFormat && !maph.cdBit then
    if mapHeaderSize + 1 ≤ startFragSize then
      some (maph.pktLen + mapHeaderSize + nextHeaderSize (direct.getD mapHeaderSize 0))
    else
      match skbCopyBits pages skb (start + mapHeaderSize) 1 with
      | none => none
      | some type => some (maph.pktLen + mapHeaderSize + nextHeaderSize (type.getD 0 0))
  else
    some (maph.pktLen + mapHeaderSize)

/-- `rmnet_frag_deaggregate_one`: the length of the frame, or an error. -/
def rmnetFragDeaggregateOne (pages : Pages) (skb : Skb) (state : Deaggregation)
    (start : Nat) (priority : BitVec 32) : Option Nat × Deaggregation :=
  match startFrag start skb.frags 0 with
  | none => (none, state)
  | some (frag, offset, frags) =>
    let first := frag.advance (start - offset)
    let direct := first.bytes pages
    match (if mapHeaderSize ≤ first.size then some direct
      else skbCopyBits pages skb start mapHeaderSize) with
    | none => (none, state)
    | some header =>
      let maph := mapHeader header
      if maph.pktLen = 0 then
        (none, state)
      else
        match state.port.rmnetGetFragDescriptor with
        | (none, port) => (none, { state with port := port })
        | (some id, port) =>
          let marked := port.setDesc id { port.descs id with priority := priority }
          match frameLen pages skb port.dataFormat start first.size direct maph with
          | none => (none, { state with port := marked })
          | some pktLen =>
            match addFrags marked id (first :: frags) pktLen with
            | (some 0, port) =>
              (some (port.descs id).len, ⟨port, state.list ++ [id]⟩)
            | (_, port) =>
              (none, { state with port := port.rmnetRecycleFragDescriptor id })

/-- `rmnet_frag_deaggregate`, from an offset on; there is no result if the loop
goes through more rounds than `fuel`. -/
def rmnetFragDeaggregate (pages : Pages) (skb : Skb) (priority : BitVec 32) :
    Nat → Deaggregation → Nat → Option Deaggregation
  | 0, _, _ => none
  | fuel + 1, state, start =>
    if start < skb.len then
      match rmnetFragDeaggregateOne pages skb state start priority with
      | (none, state) => some state
      | (some rc, state) => rmnetFragDeaggregate pages skb priority fuel state (start + rc)
    else
      some state

end Deaggregation

end Sm8650.Rmnet
