import Sm8650.Transition.Reach
import Sm8650.Kgsl.HfiQueue

/-!
# The ring of commands of the graphics processor

The driver takes contiguous blocks out of a ring and the processor reads up to the end of the last
one. A block that does not fit before the end of the ring goes to its beginning; a packet that
does nothing fills up what is left.

The processor moves by whole blocks and by whole packets where it does not stand at a block.

Source: `adreno_ringbuffer.c`, `adreno_pm4types.h`.
-/

namespace Sm8650.Kgsl

open Sm8650.Ring Transition Function List
open BitVec hiding append_assoc

/-! ## The code -/

/-- `KGSL_RB_DWORDS` -/
def kgslRbDwords : U32 := 8192

/-- `CP_NOP` -/
def cpNop : U32 := 0x10

/-- `pm4_calc_odd_parity_bit` -/
def pm4CalcOddParityBit (val : U32) : U32 :=
  0x9669#32 >>> (0xF#32 &&& (val ^^^ val >>> 4 ^^^ val >>> 8 ^^^ val >>> 12 ^^^ val >>> 16 ^^^
    val >>> 20 ^^^ val >>> 24 ^^^ val >>> 28)).toNat &&& 1#32

/-- `cp_packet`: `cp_type3_packet` for the legacy format, else `cp_type7_packet`. -/
def cpPacket (legacyPm4 : Bool) (opcode cnt : U32) : U32 :=
  if legacyPm4 then 0xC0000000#32 ||| (cnt - 1) <<< 16 ||| (opcode &&& 0xFF#32) <<< 8
  else
    0x70000000#32 ||| cnt ||| pm4CalcOddParityBit cnt <<< 15 ||| (opcode &&& 0x7F#32) <<< 16 |||
      pm4CalcOddParityBit opcode <<< 23

/-- `type3_pkt_size` for the legacy format, else `type7_pkt_size`. -/
def pktSize (legacyPm4 : Bool) (pkt : U32) : U32 :=
  if legacyPm4 then (pkt >>> 16 &&& 0x3FFF#32) + 1 else pkt &&& 0x3FFF#32

/-- The header is one of `CP_NOP`: `pkt_is_type3` and `cp_type3_opcode` for the legacy format, else
`pkt_is_type7` and `cp_type7_opcode`. -/
def PktIsNop (legacyPm4 : Bool) (pkt : U32) : Prop :=
  if legacyPm4 then
    pkt &&& 0xC0000000#32 = 0xC0000000#32 ∧ pkt &&& 0x80FE#32 = 0 ∧ pkt >>> 8 &&& 0xFF#32 = cpNop
  else
    pkt &&& 0xF0000000#32 = 0x70000000#32 ∧ pkt &&& 0x0F000000#32 = 0 ∧
      pkt >>> 23 &&& 1#32 = pm4CalcOddParityBit (pkt >>> 16 &&& 0x7F#32) ∧
      pkt >>> 15 &&& 1#32 = pm4CalcOddParityBit (pktSize false pkt) ∧
      pkt >>> 16 &&& 0x7F#32 = cpNop

/-- `struct adreno_ringbuffer`: `_wptr` and the memory of the ring. -/
structure AdrenoRingbuffer where
  wptr : U32
  hostptr : Nat → U32

/-- `adreno_ringbuffer_allocspace` with the read pointer that it gets; the place of the block. -/
def allocspace (legacyPm4 : Bool) (rb : AdrenoRingbuffer) (rptr dwords : U32) :
    Option U32 × AdrenoRingbuffer :=
  if rptr ≤ rb.wptr ∧ rb.wptr + dwords ≤ kgslRbDwords - 2 then
    (some rb.wptr, { rb with wptr := (rb.wptr + dwords) % kgslRbDwords })
  else if rptr ≤ rb.wptr ∧ dwords < rptr then
    (some 0,
      { wptr := dwords
        hostptr := update rb.hostptr rb.wptr.toNat
          (cpPacket legacyPm4 cpNop (kgslRbDwords - rb.wptr - 1)) })
  else if rb.wptr + dwords < rptr then
    (some rb.wptr, { rb with wptr := (rb.wptr + dwords) % kgslRbDwords })
  else (none, rb)

/-! ## The ring and its reader -/

/-- A part of the ring: a block that was handed out or a filler. -/
structure Piece where
  filler : Bool
  start : Nat
  words : List U32

/-- The dword lies in the piece. -/
def Piece.Has (piece : Piece) (k : Nat) : Prop :=
  piece.start ≤ k ∧ k < piece.start + piece.words.length

/-- The ring, the processor's read pointer, the pieces in the order in which they were put, and
what the processor has read and has not. -/
structure RbSystem where
  rb : AdrenoRingbuffer
  rptr : U32
  written : List Piece
  fetched : List Piece
  unread : List Piece

/-- The empty ring with any memory. -/
def RbSystem.init (hostptr : Nat → U32) : RbSystem := ⟨⟨0, hostptr⟩, 0, [], [], []⟩

/-- The driver takes a block and puts commands in it, or the processor reads on. -/
inductive RbAction
  | alloc (words : List U32) (pos : 0 < words.length) (fewer : words.length < 8192)
  | fetch

/-- What was put when a block was handed out: a filler comes first if it does not stand at
`_wptr`. -/
def piecesOf (rb after : AdrenoRingbuffer) (start : U32) (words : List U32) : List Piece :=
  if start = rb.wptr then [⟨false, start.toNat, words⟩]
  else
    [⟨true, rb.wptr.toNat, slice after.hostptr rb.wptr.toNat (8192 - rb.wptr.toNat)⟩,
      ⟨false, start.toNat, words⟩]

/-- A step of the driver or of the processor. -/
def RbSystem.step (legacyPm4 : Bool) (system : RbSystem) : RbAction → RbSystem
  | .alloc words _ _ =>
    match allocspace legacyPm4 system.rb system.rptr (BitVec.ofNat 32 words.length) with
    | (none, rb) => { system with rb := rb }
    | (some start, rb) =>
      let pieces := piecesOf system.rb rb start words
      { system with
        rb := { rb with hostptr := blit rb.hostptr start.toNat words }
        written := system.written ++ pieces
        unread := system.unread ++ pieces }
  | .fetch =>
    match system.unread with
    | [] => system
    | piece :: unread =>
      let dwords :=
        if piece.filler then
          (pktSize legacyPm4 (system.rb.hostptr system.rptr.toNat)).toNat + 1
        else piece.words.length
      { system with
        rptr := BitVec.ofNat 32 ((system.rptr.toNat + dwords) % 8192)
        fetched := system.fetched ++
          [⟨piece.filler, system.rptr.toNat, slice system.rb.hostptr system.rptr.toNat dwords⟩]
        unread := unread }

/-- A filler is a packet that ends where the ring does. -/
def Piece.Fills (legacyPm4 : Bool) (piece : Piece) : Prop :=
  piece.start + piece.words.length = 8192 ∧ ∃ header payload, piece.words = header :: payload ∧
    PktIsNop legacyPm4 header ∧ (pktSize legacyPm4 header).toNat = payload.length

/-- What a successful call hands out is free. -/
def RbSystem.HandsOutFree (legacyPm4 : Bool) (system : RbSystem) : Prop :=
  ∀ dwords start : U32, 0 < dwords → dwords < kgslRbDwords →
    (allocspace legacyPm4 system.rb system.rptr dwords).1 = some start →
      start.toNat + dwords.toNat ≤ 8192 ∧ ∀ piece ∈ system.unread, ∀ k, piece.Has k →
        k < start.toNat ∨ start.toNat + dwords.toNat ≤ k

/-- The ring is used as it should be. -/
structure RbSystem.Safe (legacyPm4 : Bool) (system : RbSystem) : Prop where
  wptr_le : system.rb.wptr ≤ kgslRbDwords - 2
  allRead : system.rb.wptr = system.rptr ↔ system.unread = []
  free : system.HandsOutFree legacyPm4
  inOrder : system.fetched ++ system.unread = system.written
  inside : ∀ piece ∈ system.written, piece.start + piece.words.length ≤ 8192
  fillers : ∀ piece ∈ system.written, piece.filler = true → piece.Fills legacyPm4

/-! ## Headers -/

theorem pm4CalcOddParityBit_cases (val : U32) :
    pm4CalcOddParityBit val = 0 ∨ pm4CalcOddParityBit val = 1 := by
  unfold pm4CalcOddParityBit
  generalize 0x9669#32 >>> (_ : Nat) = word
  have bit : (word &&& 1#32).toNat = word.toNat % 2 := by exact Nat.and_one_is_mod _
  rcases Nat.mod_two_eq_zero_or_one word.toNat with even | odd
  · exact .inl (eq_of_toNat_eq (bit.trans even))
  · exact .inr (eq_of_toNat_eq (bit.trans odd))

theorem and_cnt {cnt : U32} (small : cnt.toNat < 2 ^ 14) : cnt &&& 0x3FFF#32 = cnt := by
  apply eq_of_toNat_eq
  exact (Nat.and_two_pow_sub_one_eq_mod cnt.toNat 14).trans (Nat.mod_eq_of_lt small)

theorem shiftLeft_ushiftRight_cnt {cnt : U32} (small : cnt.toNat < 2 ^ 14) :
    cnt <<< 16 >>> 16 = cnt := by
  apply eq_of_toNat_eq
  rw [toNat_ushiftRight, toNat_shiftLeft, Nat.shiftRight_eq_div_pow,
    Nat.shiftLeft_eq, Nat.mod_eq_of_lt (by omega), Nat.mul_div_cancel _ (by decide)]

/-- A field of a header that the count does not reach. -/
theorem field_or_cnt {cnt : U32} (small : cnt.toNat < 2 ^ 14) (header mask : U32) (up shift : Nat)
    (apart : 0x3FFF#32 <<< up >>> shift &&& mask = 0#32) :
    (header ||| cnt <<< up) >>> shift &&& mask = header >>> shift &&& mask := by
  rw [← and_cnt small, shiftLeft_and_distrib, ushiftRight_or_distrib,
    and_or_distrib_right, ushiftRight_and_distrib, BitVec.and_assoc, apart,
    and_zero, or_zero]

/-- The count of a packet that does nothing is read back from its header. -/
theorem cpPacket_nop (legacyPm4 : Bool) {cnt : U32} (pos : 0 < cnt.toNat)
    (small : cnt.toNat < 2 ^ 14) :
    pktSize legacyPm4 (cpPacket legacyPm4 cpNop cnt) = cnt ∧
      PktIsNop legacyPm4 (cpPacket legacyPm4 cpNop cnt) := by
  cases legacyPm4 with
  | false =>
    obtain ⟨parity, bit, isParity⟩ :
        ∃ parity, (parity = 0 ∨ parity = 1) ∧ pm4CalcOddParityBit cnt = parity :=
      ⟨_, pm4CalcOddParityBit_cases cnt, rfl⟩
    have isHeader : cpPacket false cpNop cnt =
        (0x70000000#32 ||| parity <<< 15 ||| 0x100000#32) ||| cnt <<< 0 := by
      rw [shiftLeft_zero, ← isParity, show 0x100000#32 =
        (cpNop &&& 0x7F#32) <<< 16 ||| pm4CalcOddParityBit cpNop <<< 23 by decide]
      unfold cpPacket
      rw [if_neg (by decide)]
      ac_rfl
    have size : pktSize false (cpPacket false cpNop cnt) = cnt := by
      rw [isHeader, pktSize, if_neg (by decide), and_or_distrib_right,
        shiftLeft_zero, and_cnt small]
      rcases bit with rfl | rfl <;> exact zero_or
    have field := field_or_cnt small (0x70000000#32 ||| parity <<< 15 ||| 0x100000#32)
    have type := field 0xF0000000#32 0 0 (by decide)
    have reserved := field 0x0F000000#32 0 0 (by decide)
    rw [ushiftRight_zero, ushiftRight_zero] at type reserved
    refine ⟨size, ?_⟩
    rw [PktIsNop, if_neg (by decide), size, isParity, isHeader, type, reserved,
      field _ 0 23 (by decide), field _ 0 16 (by decide), field _ 0 15 (by decide)]
    rcases bit with rfl | rfl <;> decide
  | true =>
    have less : (cnt - 1).toNat = cnt.toNat - 1 := toNat_sub_of_le pos
    have smaller : (cnt - 1).toNat < 2 ^ 14 := by omega
    have isHeader : cpPacket true cpNop cnt = 0xC0001000#32 ||| (cnt - 1) <<< 16 := by
      rw [cpPacket, if_pos rfl, BitVec.or_assoc, or_comm ((cnt - 1) <<< 16),
        ← BitVec.or_assoc, show 0xC0000000#32 ||| (cpNop &&& 0xFF#32) <<< 8 = 0xC0001000#32 by
          decide]
    have field := field_or_cnt smaller 0xC0001000#32
    have type := field 0xC0000000#32 16 0 (by decide)
    have reserved := field 0x80FE#32 16 0 (by decide)
    rw [ushiftRight_zero, ushiftRight_zero] at type reserved
    rw [PktIsNop, if_pos rfl, isHeader, type, reserved, field _ 16 8 (by decide)]
    refine ⟨?_, by decide⟩
    rw [pktSize, if_pos rfl, ushiftRight_or_distrib, shiftLeft_ushiftRight_cnt smaller,
      and_or_distrib_right, and_cnt smaller]
    exact (congrArg (· + 1) zero_or).trans (BitVec.sub_add_cancel cnt 1)

/-! ## Finding space -/

/-- What a call does with the ring. -/
inductive Allocated (legacyPm4 : Bool) (rb : AdrenoRingbuffer) (rptr dwords : U32) :
    Option U32 × AdrenoRingbuffer → Prop
  | full : Allocated legacyPm4 rb rptr dwords (none, rb)
  | behind (next : U32) (sum : next.toNat = rb.wptr.toNat + dwords.toNat)
      (inside : next.toNat ≤ 8190) (below : rb.wptr.toNat < rptr.toNat → next.toNat < rptr.toNat) :
      Allocated legacyPm4 rb rptr dwords (some rb.wptr, { rb with wptr := next })
  | wrapped (ordered : rptr.toNat ≤ rb.wptr.toNat) (below : dwords.toNat < rptr.toNat) :
      Allocated legacyPm4 rb rptr dwords
        (some 0, ⟨dwords, update rb.hostptr rb.wptr.toNat
          (cpPacket legacyPm4 cpNop (kgslRbDwords - rb.wptr - 1))⟩)

theorem allocated (legacyPm4 : Bool) {rb : AdrenoRingbuffer} {rptr dwords : U32}
    (wptrSmall : rb.wptr.toNat ≤ 8190) (rptrSmall : rptr.toNat < 8192)
    (small : dwords.toNat < 8192) :
    Allocated legacyPm4 rb rptr dwords (allocspace legacyPm4 rb rptr dwords) := by
  have sum : (rb.wptr + dwords).toNat = rb.wptr.toNat + dwords.toNat :=
    Nat.mod_eq_of_lt (by omega)
  have next : ∀ inside : (rb.wptr + dwords).toNat ≤ 8190,
      ((rb.wptr + dwords) % kgslRbDwords).toNat = rb.wptr.toNat + dwords.toNat := by
    intro inside
    rw [← sum]
    exact Nat.mod_eq_of_lt (Nat.lt_of_le_of_lt inside (by decide))
  unfold allocspace
  split_ifs with atEnd atStart apart
  · have inside : (rb.wptr + dwords).toNat ≤ 8190 := atEnd.2
    have ordered : rptr.toNat ≤ rb.wptr.toNat := atEnd.1
    exact .behind _ (next inside) (next inside ▸ sum ▸ inside) (by omega)
  · exact .wrapped atStart.1 atStart.2
  · have below : (rb.wptr + dwords).toNat < rptr.toNat := apart
    have sum' := next (by omega)
    exact .behind _ sum' (by omega) (by omega)
  · exact .full

/-! ## The pieces around the ring -/

/-- The pieces follow each other around the ring from a place on. -/
def Placed : Nat → List Piece → Prop
  | _, [] => True
  | pos, piece :: rest => piece.start = pos ∧ Placed ((pos + piece.words.length) % 8192) rest

theorem Placed.append {pos : Nat} {first second : List Piece} (before : Placed pos first)
    (after : Placed ((pos + (first.flatMap Piece.words).length) % 8192) second)
    (small : pos < 8192) : Placed pos (first ++ second) := by
  induction first generalizing pos with
  | nil =>
    rw [flatMap_nil, length_nil, Nat.add_zero, Nat.mod_eq_of_lt small] at after
    exact after
  | cons piece first ih =>
    refine ⟨before.1, ih before.2 ?_ (Nat.mod_lt _ (by decide))⟩
    rw [flatMap_cons, length_append, ← Nat.add_assoc] at after
    rwa [Nat.mod_add_mod]

/-- The dwords of a piece are among the ones that follow the place. -/
theorem Placed.offset {pos : Nat} {pieces : List Piece} (placed : Placed pos pieces)
    (small : pos < 8192) {piece : Piece} (among : piece ∈ pieces)
    (inside : piece.start + piece.words.length ≤ 8192) {k : Nat} (has : piece.Has k) :
    ∃ j < (pieces.flatMap Piece.words).length, k = (pos + j) % 8192 := by
  induction pieces generalizing pos with
  | nil => exact absurd among not_mem_nil
  | cons head rest ih =>
    rw [flatMap_cons, length_append]
    rcases mem_cons.mp among with rfl | later
    · obtain ⟨lower, upper⟩ := has
      have isStart := placed.1
      exact ⟨k - pos, by omega, by omega⟩
    · obtain ⟨j, below, rfl⟩ := ih placed.2 (Nat.mod_lt _ (by decide)) later
      exact ⟨head.words.length + j, by omega, by rw [Nat.mod_add_mod, Nat.add_assoc]⟩

/-- The pieces in the ring lie where the indices say. -/
structure RbSystem.Sound (legacyPm4 : Bool) (system : RbSystem) : Prop where
  holds : Holds system.rb.hostptr 8192 system.rptr.toNat system.rb.wptr.toNat
    (system.unread.flatMap Piece.words)
  placed : Placed system.rptr.toNat system.unread
  wptr_le : system.rb.wptr.toNat ≤ 8190
  inOrder : system.fetched ++ system.unread = system.written
  notEmpty : ∀ piece ∈ system.written, piece.words ≠ []
  inside : ∀ piece ∈ system.written, piece.start + piece.words.length ≤ 8192
  fillers : ∀ piece ∈ system.written, piece.filler = true → piece.Fills legacyPm4

namespace RbSystem.Sound

variable {legacyPm4 : Bool} {system : RbSystem}

theorem init (legacyPm4 : Bool) (hostptr : Nat → U32) :
    (RbSystem.init hostptr).Sound legacyPm4 where
  holds := .empty hostptr (show 0 < 8192 by decide)
  placed := trivial
  wptr_le := Nat.zero_le _
  inOrder := rfl
  notEmpty _ among := absurd among not_mem_nil
  inside _ among := absurd among not_mem_nil
  fillers _ among := absurd among not_mem_nil

section

variable (sound : system.Sound legacyPm4)

include sound

theorem mem_written {piece : Piece} (among : piece ∈ system.unread) : piece ∈ system.written :=
  sound.inOrder ▸ mem_append_right _ among

/-- What is unread lies between the two pointers. -/
theorem between {piece : Piece} (among : piece ∈ system.unread) {k : Nat} (has : piece.Has k) :
    if system.rptr.toNat ≤ system.rb.wptr.toNat then
      system.rptr.toNat ≤ k ∧ k < system.rb.wptr.toNat
    else system.rptr.toNat ≤ k ∨ k < system.rb.wptr.toNat := by
  have inRing := sound.holds.rd_lt
  have fewer := sound.holds.pending_lt
  obtain ⟨j, below, isPlace⟩ :=
    sound.placed.offset inRing among (sound.inside piece (sound.mem_written among)) has
  have ends := sound.holds.wr_cases
  split <;> omega

theorem handsOutFree : system.HandsOutFree legacyPm4 := by
  intro dwords start _ fewer found
  have small : dwords.toNat < 8192 := fewer
  generalize isResult : allocspace legacyPm4 system.rb system.rptr dwords = result at found
  cases isResult ▸ allocated legacyPm4 sound.wptr_le sound.holds.rd_lt small with
  | full => cases found
  | behind next sum inside below =>
    cases found
    refine ⟨by omega, fun piece among k has => ?_⟩
    have range := sound.between among has
    split at range <;> omega
  | wrapped ordered below =>
    cases found
    refine ⟨by simpa using Nat.le_of_lt small, fun piece among k has => ?_⟩
    have range := sound.between among has
    rw [if_pos ordered] at range
    exact .inr (by simp only [ofNat_eq_ofNat, toNat_ofNat]; omega)

theorem safe : system.Safe legacyPm4 where
  wptr_le := sound.wptr_le
  allRead := by
    rw [← toNat_inj, eq_comm, sound.holds.rd_eq_wr_iff, flatMap_eq_nil_iff]
    constructor
    · intro none
      refine eq_nil_iff_forall_not_mem.mpr fun piece among => ?_
      exact sound.notEmpty piece (sound.mem_written among) (none piece among)
    · intro none piece among
      rw [none] at among
      exact absurd among not_mem_nil
  free := sound.handsOutFree
  inOrder := sound.inOrder
  inside := sound.inside
  fillers := sound.fillers

end

/-! ## The steps -/

variable {next : U32} {words : List U32}

section

variable (sound : system.Sound legacyPm4)

include sound

/-- One more piece stands at `_wptr`. -/
theorem extend {piece : Piece} {hostptr : Nat → U32}
    (start : piece.start = system.rb.wptr.toNat) (notEmpty : piece.words ≠ [])
    (inside : piece.start + piece.words.length ≤ 8192)
    (fills : piece.filler = true → piece.Fills legacyPm4)
    (room : (system.unread.flatMap Piece.words).length + piece.words.length < 8192)
    (wrote : Wrote system.rb.hostptr hostptr 8192 system.rb.wptr.toNat piece.words)
    (isNext : next.toNat = (piece.start + piece.words.length) % 8192) (small : next.toNat ≤ 8190) :
    { system with
      rb := ⟨next, hostptr⟩
      written := system.written ++ [piece]
      unread := system.unread ++ [piece] }.Sound legacyPm4 where
  holds := by
    have holds := sound.holds.write wrote room
    rwa [← start, ← isNext, ← flatMap_singleton Piece.words piece, ← flatMap_append] at holds
  placed := sound.placed.append ⟨start.trans sound.holds.wr_eq, trivial⟩ sound.holds.rd_lt
  wptr_le := small
  inOrder := by rw [← append_assoc, sound.inOrder]
  notEmpty := forall_mem_append.mpr ⟨sound.notEmpty, forall_mem_singleton.mpr notEmpty⟩
  inside := forall_mem_append.mpr ⟨sound.inside, forall_mem_singleton.mpr inside⟩
  fillers := forall_mem_append.mpr ⟨sound.fillers, forall_mem_singleton.mpr fills⟩

/-- A block that is put behind the last piece. -/
theorem put {block : Piece}
    (isBlock : block = ⟨false, system.rb.wptr.toNat, words⟩) (pos : 0 < words.length)
    (sum : next.toNat = system.rb.wptr.toNat + words.length) (inside : next.toNat ≤ 8190)
    (below : system.rb.wptr.toNat < system.rptr.toNat → next.toNat < system.rptr.toNat) :
    { system with
      rb := ⟨next, blit system.rb.hostptr system.rb.wptr.toNat words⟩
      written := system.written ++ [block]
      unread := system.unread ++ [block] }.Sound legacyPm4 := by
  subst isBlock
  have fewer := sound.holds.pending_lt
  have ends := sound.holds.wr_cases
  have fits : system.rb.wptr.toNat + words.length ≤ 8192 := by omega
  exact sound.extend rfl (ne_nil_of_length_pos pos) fits (fun isFiller => nomatch isFiller)
    (by dsimp only; omega) (wrote_blit fits) (by dsimp only; omega) inside

/-- The filler that is put at the end of the ring. -/
theorem fill (ordered : system.rptr.toNat ≤ system.rb.wptr.toNat) (moved : 0 < system.rptr.toNat)
    {hostptr : Nat → U32} (isFilled : hostptr = update system.rb.hostptr system.rb.wptr.toNat
      (cpPacket legacyPm4 cpNop (kgslRbDwords - system.rb.wptr - 1))) {filler : Piece}
    (isFiller : filler = ⟨true, system.rb.wptr.toNat,
      slice hostptr system.rb.wptr.toNat (8192 - system.rb.wptr.toNat)⟩) :
    { system with
      rb := ⟨0, hostptr⟩
      written := system.written ++ [filler]
      unread := system.unread ++ [filler] }.Sound legacyPm4 := by
  have fewer := sound.holds.pending_lt
  have wptrSmall := sound.wptr_le
  have ends := sound.holds.wr_cases
  have length : filler.words.length = 8192 - system.rb.wptr.toNat := by rw [isFiller, length_slice]
  have start : filler.start = system.rb.wptr.toNat := by rw [isFiller]
  have fits : filler.start + filler.words.length = 8192 := by omega
  have wrote : Wrote system.rb.hostptr hostptr 8192 system.rb.wptr.toNat filler.words := by
    constructor
    · rw [window_eq_slice (by omega), length, isFiller]
    · intro k _ apart
      rw [isFilled, update_of_ne]
      have notFirst := apart 0 (by omega)
      rwa [Nat.add_zero, Nat.mod_eq_of_lt (by omega)] at notFirst
  have fills : filler.Fills legacyPm4 := by
    have cnt : (kgslRbDwords - system.rb.wptr - 1).toNat = 8191 - system.rb.wptr.toNat := by
      have less : (kgslRbDwords - system.rb.wptr).toNat = 8192 - system.rb.wptr.toNat :=
        toNat_sub_of_le (show system.rb.wptr.toNat ≤ 8192 by omega)
      have left : 1 ≤ (kgslRbDwords - system.rb.wptr).toNat := by omega
      rw [toNat_sub_of_le left, less]
      exact Nat.sub_right_comm ..
    obtain ⟨size, isNop⟩ := cpPacket_nop legacyPm4 (by omega) (cnt.trans_lt (by omega))
    refine ⟨fits, _, slice hostptr (system.rb.wptr.toNat + 1) (8191 - system.rb.wptr.toNat), ?_,
      isNop, ?_⟩
    · rw [isFiller, show 8192 - system.rb.wptr.toNat = 1 + (8191 - system.rb.wptr.toNat) by omega,
        slice_add, isFilled]
      simp [slice]
    · rw [size, cnt, length_slice]
  exact sound.extend start (ne_nil_of_length_pos (by omega)) fits.le (fun _ => fills) (by omega)
    wrote (by rw [fits]; rfl) (Nat.zero_le _)

theorem alloc (pos : 0 < words.length)
    (fewer : words.length < 8192) : (system.step legacyPm4 (.alloc words pos fewer)).Sound
      legacyPm4 := by
  have small : (BitVec.ofNat 32 words.length).toNat = words.length :=
    Nat.mod_eq_of_lt (by omega)
  rw [RbSystem.step]
  generalize isResult :
    allocspace legacyPm4 system.rb system.rptr (BitVec.ofNat 32 words.length) = result
  cases isResult ▸ allocated legacyPm4 sound.wptr_le sound.holds.rd_lt (small ▸ fewer) with
  | full => exact sound
  | behind next sum inside below =>
    dsimp only
    rw [piecesOf, if_pos rfl]
    exact sound.put rfl pos (small ▸ sum) inside below
  | wrapped ordered below =>
    have moved : 0 < system.rptr.toNat := Nat.zero_lt_of_lt below
    have elsewhere : (0 : U32) ≠ system.rb.wptr := by
      intro same
      rw [← same] at ordered
      exact absurd (moved.trans_le ordered) (lt_irrefl 0)
    have inRing := sound.holds.rd_lt
    have filled := sound.fill ordered moved rfl rfl
    have written := filled.put rfl pos (small.trans (Nat.zero_add _).symm) (by omega)
      fun _ => below
    rw [append_assoc, append_assoc] at written
    dsimp only
    rw [piecesOf, if_neg elsewhere]
    exact written

theorem fetch : (system.step legacyPm4 .fetch).Sound
    legacyPm4 := by
  rw [RbSystem.step]
  cases unread : system.unread with
  | nil => exact sound
  | cons piece rest =>
    have among : piece ∈ system.written := sound.mem_written (unread ▸ mem_cons_self)
    obtain ⟨start, placed⟩ := unread ▸ sound.placed
    have holds := unread ▸ sound.holds
    have inside := sound.inside piece among
    rw [start] at inside
    have words := holds.window_front
    rw [window_eq_slice inside] at words
    have dwords : (if piece.filler then
          (pktSize legacyPm4 (system.rb.hostptr system.rptr.toNat)).toNat + 1
        else piece.words.length) = piece.words.length := by
      split
      case isFalse => rfl
      case isTrue isFiller =>
        obtain ⟨_, header, payload, isPacket, _, size⟩ := sound.fillers piece among isFiller
        rw [isPacket] at words ⊢
        have first : system.rb.hostptr system.rptr.toNat = header := by
          rw [length_cons, Nat.add_comm, slice_add] at words
          exact (cons.injEq .. ▸ words).1
        rw [first, size]
        rfl
    have rptr : (BitVec.ofNat 32 ((system.rptr.toNat + piece.words.length) % 8192)).toNat =
        (system.rptr.toNat + piece.words.length) % 8192 := Nat.mod_eq_of_lt (by omega)
    have isPiece : (⟨piece.filler, system.rptr.toNat, piece.words⟩ : Piece) = piece := by
      rw [← start]
    dsimp only
    rw [dwords, words, isPiece]
    exact
      { sound with
        holds := by
          rw [rptr]
          exact holds.read
        placed := rptr.symm ▸ placed
        inOrder := by
          rw [append_assoc, singleton_append, ← unread]
          exact sound.inOrder }

end

end RbSystem.Sound

/-- The ring is used as it should be after any calls and reads. -/
theorem safe_of_reaches {legacyPm4 : Bool} {hostptr : Nat → U32} {system : RbSystem}
    (reached : Reaches (fun before action after => after = before.step legacyPm4 action)
      (.init hostptr) system) : system.Safe legacyPm4 := by
  refine (reached.invariant (.init legacyPm4 hostptr) ?_ : system.Sound legacyPm4).safe
  rintro before action after sound rfl
  cases action with
  | alloc words pos fewer => exact sound.alloc pos fewer
  | fetch => exact sound.fetch

theorem safe_oneBlock :
    (((RbSystem.init fun _ => 0).step false (.alloc [1, 2] (by decide) (by decide))).step false
      .fetch).Safe false :=
  safe_of_reaches (((Reaches.refl _ _).tail rfl).tail rfl)

end Sm8650.Kgsl
