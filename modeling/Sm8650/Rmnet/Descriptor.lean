import Mathlib.Data.BitVec

/-!
# Fragments, descriptors and the pool of `rmnet_descriptor.c`

A received buffer lies in fragments of pages. A descriptor collects the
fragments of one frame; it is taken from the pool of the port and put back there.
-/

namespace Sm8650.Rmnet

abbrev Byte := BitVec 8

/-- The contents of the pages. -/
abbrev Pages := Nat → Nat → Byte

/-- `len` bytes of a page from an offset on. -/
def readPage (pages : Pages) (page off len : Nat) : List Byte :=
  (List.range' off len).map (pages page)

variable (pages : Pages)

@[simp]
theorem length_readPage (page off len : Nat) : (readPage pages page off len).length = len := by
  simp [readPage]

theorem take_readPage (page off : Nat) {len count : Nat} (within : count ≤ len) :
    (readPage pages page off len).take count = readPage pages page off count := by
  unfold readPage
  rw [← List.map_take, List.take_range'_of_length_ge within]

theorem drop_readPage (page off len count : Nat) :
    (readPage pages page off len).drop count = readPage pages page (off + count) (len - count) := by
  unfold readPage
  rw [← List.map_drop, List.drop_range', Nat.mul_one]

/-- `skb_frag_t`: a part of a page. -/
structure SkbFrag where
  page : Nat
  off : Nat
  size : Nat
  deriving DecidableEq, Repr

namespace SkbFrag

/-- The bytes of a fragment. -/
def bytes (pages : Pages) (frag : SkbFrag) : List Byte :=
  readPage pages frag.page frag.off frag.size

/-- A fragment without its first bytes. -/
def advance (frag : SkbFrag) (count : Nat) : SkbFrag :=
  { frag with off := frag.off + count, size := frag.size - count }

/-- The first bytes of a fragment. -/
def shorten (frag : SkbFrag) (count : Nat) : SkbFrag :=
  { frag with size := count }

@[simp]
theorem length_bytes (frag : SkbFrag) : (frag.bytes pages).length = frag.size :=
  length_readPage _ _ _ _

theorem bytes_advance (frag : SkbFrag) (count : Nat) :
    (frag.advance count).bytes pages = (frag.bytes pages).drop count :=
  (drop_readPage _ _ _ _ _).symm

theorem bytes_shorten (frag : SkbFrag) {count : Nat} (within : count ≤ frag.size) :
    (frag.shorten count).bytes pages = (frag.bytes pages).take count :=
  (take_readPage _ _ _ within).symm

end SkbFrag

/-- The bytes of consecutive fragments. -/
def fragBytes (pages : Pages) (frags : List SkbFrag) : List Byte :=
  frags.flatMap (SkbFrag.bytes pages)

@[simp]
theorem fragBytes_nil : fragBytes pages [] = [] := rfl

@[simp]
theorem fragBytes_cons (frag : SkbFrag) (frags : List SkbFrag) :
    fragBytes pages (frag :: frags) = frag.bytes pages ++ fragBytes pages frags :=
  List.flatMap_cons

@[simp]
theorem fragBytes_append (first second : List SkbFrag) :
    fragBytes pages (first ++ second) = fragBytes pages first ++ fragBytes pages second :=
  List.flatMap_append

theorem length_fragBytes (frags : List SkbFrag) :
    (fragBytes pages frags).length = (frags.map SkbFrag.size).sum := by
  induction frags with
  | nil => rfl
  | cons frag frags ih =>
    rw [fragBytes_cons, List.length_append, SkbFrag.length_bytes, ih, List.map_cons, List.sum_cons]

/-- `struct rmnet_frag_descriptor`. -/
structure FragDescriptor where
  frags : List SkbFrag
  dev : Option Nat
  coalBufsize : Nat
  coalBytes : Nat
  len : Nat
  priority : BitVec 32
  tcpSeq : BitVec 32
  ipId : BitVec 16
  tcpFlags : BitVec 16
  dataOffset : BitVec 16
  gsoSize : BitVec 16
  gsoSegs : BitVec 16
  ipLen : BitVec 16
  transLen : BitVec 16
  ipProto : BitVec 8
  transProto : BitVec 8
  pktId : BitVec 8
  csumValid : Bool
  hdrsValid : Bool
  ipIdSet : Bool
  tcpSeqSet : Bool
  tcpFlagsSet : Bool
  deriving DecidableEq

namespace FragDescriptor

/-- A cleared descriptor. -/
def zero : FragDescriptor where
  frags := []
  dev := none
  coalBufsize := 0
  coalBytes := 0
  len := 0
  priority := 0
  tcpSeq := 0
  ipId := 0
  tcpFlags := 0
  dataOffset := 0
  gsoSize := 0
  gsoSegs := 0
  ipLen := 0
  transLen := 0
  ipProto := 0
  transProto := 0
  pktId := 0
  csumValid := false
  hdrsValid := false
  ipIdSet := false
  tcpSeqSet := false
  tcpFlagsSet := false

/-- The bytes of a descriptor. -/
def bytes (pages : Pages) (desc : FragDescriptor) : List Byte := fragBytes pages desc.frags

end FragDescriptor

/-- The parts of `struct rmnet_port` that descriptors are concerned with.
Descriptors are numbered in the order of their allocation and are not given back
to the system, so `pool_size` of them exist. `allocs` tells which requests for
memory are granted, in their order. -/
structure Port where
  dataFormat : BitVec 32
  freeList : List Nat
  poolSize : Nat
  descs : Nat → FragDescriptor
  allocs : Nat → Bool
  requests : Nat

namespace Port

/-- Writes a descriptor. -/
def setDesc (port : Port) (id : Nat) (desc : FragDescriptor) : Port :=
  { port with descs := Function.update port.descs id desc }

/-- `rmnet_get_frag_descriptor`. -/
def rmnetGetFragDescriptor (port : Port) : Option Nat × Port :=
  match port.freeList with
  | id :: freeList => (some id, { port with freeList := freeList })
  | [] =>
    if port.allocs port.requests then
      (some port.poolSize,
        { port.setDesc port.poolSize .zero with
          poolSize := port.poolSize + 1
          requests := port.requests + 1 })
    else
      (none, { port with requests := port.requests + 1 })

/-- `rmnet_recycle_frag_descriptor`, for a descriptor that is on no list. -/
def rmnetRecycleFragDescriptor (port : Port) (id : Nat) : Port :=
  { port.setDesc id .zero with freeList := port.freeList ++ [id] }

/-- `rmnet_frag_descriptor_add_frag`. -/
def rmnetFragDescriptorAddFrag (port : Port) (id : Nat) (frag : SkbFrag) : Bool × Port :=
  let asked := { port with requests := port.requests + 1 }
  if port.allocs port.requests then
    let desc := port.descs id
    (true, asked.setDesc id
      { desc with frags := desc.frags ++ [frag], len := desc.len + frag.size })
  else
    (false, asked)

end Port

end Sm8650.Rmnet
