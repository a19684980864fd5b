import Sm8650.Rmnet.Frames

/-!
# What deaggregation makes of a buffer

The descriptors on the list are the longest sequence of frames that the buffer
begins with, wherever it was cut into fragments. The descriptor that was taken for
what follows is put back into the pool, except where the type byte of a next header
cannot be read.
-/

namespace Sm8650.Rmnet

open Function List Deaggregation SkbFrag

/-! ## Fragments -/

theorem Skb.length_bytes (pages : Pages) (skb : Skb) : (skb.bytes pages).length = skb.len :=
  length_fragBytes pages skb.frags

/-- The fragment that was found, cut off at `start`, and those behind it hold the
bytes from `start` on. -/
theorem startFrag_spec (pages : Pages) {start : Nat} {frags : List SkbFrag} {offset : Nat}
    (behind : offset ≤ start) (within : start < offset + (fragBytes pages frags).length) :
    ∃ frag off rest, startFrag start frags offset = some (frag, off, rest) ∧
      fragBytes pages (frag.advance (start - off) :: rest) =
        (fragBytes pages frags).drop (start - offset) := by
  induction frags generalizing offset with
  | nil =>
    rw [fragBytes_nil, length_nil] at within
    omega
  | cons frag frags ih =>
    rw [fragBytes_cons, length_append, length_bytes] at within
    unfold startFrag
    by_cases inside : start < frag.size + offset
    · rw [if_pos inside]
      refine ⟨frag, offset, frags, rfl, ?_⟩
      have enough : start - offset ≤ (frag.bytes pages).length := by
        rw [length_bytes]
        omega
      rw [fragBytes_cons, fragBytes_cons, bytes_advance, drop_append_of_le_length enough]
    · rw [if_neg inside]
      obtain ⟨found, off, rest, result, bytes⟩ :=
        @ih (offset + frag.size) (by omega) (by omega)
      have skipped : (frag.bytes pages).drop (start - offset) = [] := by
        apply drop_eq_nil_of_le
        rw [length_bytes]
        omega
      refine ⟨found, off, rest, result, ?_⟩
      rw [bytes, fragBytes_cons, drop_append, length_bytes, skipped, nil_append, Nat.sub_sub]

/-! ## The descriptor -/

/-- Bytes were appended to a descriptor, and nothing else changed. -/
structure Appended (pages : Pages) (before : Port) (id : Nat) (added : List Byte)
    (after : Port) : Prop where
  dataFormat : after.dataFormat = before.dataFormat
  freeList : after.freeList = before.freeList
  poolSize : after.poolSize = before.poolSize
  allocs : after.allocs = before.allocs
  others : ∀ other, other ≠ id → after.descs other = before.descs other
  bytes : (after.descs id).bytes pages = (before.descs id).bytes pages ++ added
  len : (after.descs id).len = (before.descs id).len + added.length

namespace Appended

variable {pages : Pages} {before middle after : Port} {id : Nat} {first second : List Byte}

theorem refl (pages : Pages) (port : Port) (id : Nat) : Appended pages port id [] port :=
  ⟨rfl, rfl, rfl, rfl, fun _ _ => rfl, (append_nil _).symm, rfl⟩

theorem trans (left : Appended pages before id first middle)
    (right : Appended pages middle id second after) :
    Appended pages before id (first ++ second) after where
  dataFormat := right.dataFormat.trans left.dataFormat
  freeList := right.freeList.trans left.freeList
  poolSize := right.poolSize.trans left.poolSize
  allocs := right.allocs.trans left.allocs
  others other different := (right.others other different).trans (left.others other different)
  bytes := by rw [right.bytes, left.bytes, append_assoc]
  len := by rw [right.len, left.len, length_append, Nat.add_assoc]

end Appended

theorem addFrag_spec (pages : Pages) {port : Port} (allocs : ∀ n, port.allocs n = true)
    (id : Nat) (frag : SkbFrag) :
    ∃ after, port.rmnetFragDescriptorAddFrag id frag = (true, after) ∧
      Appended pages port id (frag.bytes pages) after := by
  unfold Port.rmnetFragDescriptorAddFrag
  rw [if_pos (allocs _)]
  refine ⟨_, rfl, rfl, rfl, rfl, rfl, ?_, ?_, ?_⟩
  · intro other different
    exact update_of_ne different _ _
  · simp [Port.setDesc, FragDescriptor.bytes]
  · simp [Port.setDesc]

/-- The loop over the fragments takes what is there of the packet. -/
theorem addFrags_spec (pages : Pages) {port : Port} (allocs : ∀ n, port.allocs n = true)
    (id : Nat) (frags : List SkbFrag) (pktLen : Nat) :
    ∃ after, addFrags port id frags pktLen =
        (some (pktLen - (fragBytes pages frags).length), after) ∧
      Appended pages port id ((fragBytes pages frags).take pktLen) after := by
  induction frags generalizing port pktLen with
  | nil =>
    refine ⟨port, rfl, ?_⟩
    rw [fragBytes_nil, take_nil]
    exact .refl pages port id
  | cons frag frags ih =>
    unfold addFrags
    by_cases done : pktLen = 0
    · rw [if_pos done]
      subst done
      refine ⟨port, by rw [Nat.zero_sub], ?_⟩
      exact .refl pages port id
    · rw [if_neg done]
      obtain ⟨middle, added, appended⟩ := addFrag_spec pages allocs id
        (frag.shorten (min frag.size pktLen))
      have copied : (frag.shorten (min frag.size pktLen)).bytes pages =
          (frag.bytes pages).take pktLen := by
        have upToEnd := @take_eq_take_min _ (frag.bytes pages) pktLen
        rw [length_bytes, Nat.min_comm] at upToEnd
        rw [bytes_shorten _ _ (Nat.min_le_left _ _), upToEnd]
      simp only [added, fragBytes_cons, take_append, length_append, length_bytes]
      by_cases exhausted : frag.size - min frag.size pktLen = 0
      · rw [if_pos exhausted]
        have allocsMiddle : ∀ n, middle.allocs n = true := by
          rw [appended.allocs]
          exact allocs
        obtain ⟨after, result, rest⟩ :=
          ih allocsMiddle (pktLen - min frag.size pktLen)
        have taken : min frag.size pktLen = frag.size := by omega
        rw [taken] at result rest
        refine ⟨after, ?_, ?_⟩
        · rw [taken, result]
          congr 2
          omega
        · rw [copied] at appended
          exact appended.trans rest
      · rw [if_neg exhausted]
        refine ⟨middle, ?_, ?_⟩
        · congr 2
          omega
        · have nothing : pktLen - frag.size = 0 := by omega
          rw [copied] at appended
          rw [nothing, take_zero, append_nil]
          exact appended

/-! ## The pool -/

/-- The pool of a port between two calls: its free descriptors are cleared, and no
descriptor is in it twice. -/
structure Port.WellFormed (port : Port) : Prop where
  nodup : port.freeList.Nodup
  inPool : ∀ id ∈ port.freeList, id < port.poolSize
  clear : ∀ id ∈ port.freeList, port.descs id = .zero

/-- A descriptor that was in the pool, or was not allocated yet. -/
def FromPool (before : Port) (id : Nat) : Prop := id ∈ before.freeList ∨ before.poolSize ≤ id

/-- What is kept about the descriptors on the list and in the pool; `held` are the
descriptors taken for the frame under way. -/
structure Kept (before : Port) (list held : List Nat) (port : Port) : Prop where
  dataFormat : port.dataFormat = before.dataFormat
  allocs : ∀ n, port.allocs n = true
  nodup : (list ++ held ++ port.freeList).Nodup
  inPool : ∀ id ∈ list ++ held ++ port.freeList, id < port.poolSize
  clear : ∀ id ∈ port.freeList, port.descs id = .zero
  grown : before.poolSize ≤ port.poolSize
  origin : ∀ id ∈ list ++ held ++ port.freeList, FromPool before id
  taken : ∀ id < port.poolSize, FromPool before id → id ∈ list ++ held ++ port.freeList

theorem Port.WellFormed.kept {port : Port} (wellFormed : port.WellFormed)
    (allocs : ∀ n, port.allocs n = true) : Kept port [] [] port where
  dataFormat := rfl
  allocs := allocs
  nodup := wellFormed.nodup
  inPool := wellFormed.inPool
  clear := wellFormed.clear
  grown := Nat.le_refl _
  origin _ member := .inl member
  taken _ inside fromPool := fromPool.resolve_right (Nat.not_le_of_lt inside)

section Pool

variable {before port : Port} {list : List Nat}

/-- A descriptor is taken. -/
theorem Kept.get (kept : Kept before list [] port) :
    ∃ id after, port.rmnetGetFragDescriptor = (some id, after) ∧ Kept before list [id] after ∧
      after.descs id = .zero ∧ ∀ other ∈ list, after.descs other = port.descs other := by
  have nodup := kept.nodup
  have inPool := kept.inPool
  have origin := kept.origin
  have taken := kept.taken
  rw [append_nil] at nodup inPool origin taken
  unfold Port.rmnetGetFragDescriptor
  rcases free : port.freeList with _ | ⟨id, freeList⟩
  · rw [free, append_nil] at nodup inPool origin taken
    have notListed : port.poolSize ∉ list := fun listed =>
      Nat.lt_irrefl _ (inPool _ listed)
    refine ⟨_, _, if_pos (kept.allocs _), ⟨kept.dataFormat, kept.allocs, ?_, ?_, ?_, ?_, ?_, ?_⟩,
      update_self _ _ _, ?_⟩
    · simp only [Port.setDesc, free, append_nil]
      exact nodup_append.mpr ⟨nodup, nodup_singleton _, fun other listed new isNew same =>
        notListed (mem_singleton.mp isNew ▸ same ▸ listed)⟩
    · intro other member
      simp only [Port.setDesc, free, append_nil, mem_append, mem_singleton] at member ⊢
      rcases member with listed | rfl
      · exact Nat.lt_succ_of_lt (inPool other listed)
      · exact Nat.lt_succ_self _
    · intro other member
      simp only [Port.setDesc, free] at member
      cases member
    · exact Nat.le_succ_of_le kept.grown
    · intro other member
      simp only [Port.setDesc, free, append_nil, mem_append, mem_singleton] at member
      rcases member with listed | rfl
      · exact origin other listed
      · exact .inr kept.grown
    · intro other inside fromPool
      simp only [Port.setDesc, free, append_nil, mem_append, mem_singleton]
      rcases Nat.lt_succ_iff_lt_or_eq.mp inside with old | new
      · exact .inl (taken other old fromPool)
      · exact .inr new
    · intro other listed
      refine update_of_ne ?_ _ _
      rintro rfl
      exact notListed listed
  · rw [free] at nodup inPool origin taken
    refine ⟨id, _, rfl, ⟨kept.dataFormat, kept.allocs, ?_, ?_, ?_, kept.grown, ?_, ?_⟩,
      kept.clear id (by rw [free]; exact mem_cons_self), fun _ _ => rfl⟩
    · rw [append_assoc]
      exact nodup
    · rw [append_assoc]
      exact inPool
    · intro other member
      exact kept.clear other (by rw [free]; exact mem_cons_of_mem _ member)
    · rw [append_assoc]
      exact origin
    · rw [append_assoc]
      exact taken

variable {id : Nat}

section

variable (kept : Kept before list [id] port)

include kept

/-- The descriptor that is held is not on the list, nor in the pool. -/
theorem Kept.held_apart : id ∉ list ∧ id ∉ port.freeList := by
  have nodup := kept.nodup
  rw [append_assoc] at nodup
  obtain ⟨_, heldNodup, apart⟩ := nodup_append.mp nodup
  constructor
  · intro listed
    exact apart id listed id mem_cons_self rfl
  · intro free
    exact (nodup_cons.mp heldNodup).1 free

/-- The descriptor that is held was written. -/
theorem Kept.written {after : Port}
    (dataFormat : after.dataFormat = port.dataFormat) (freeList : after.freeList = port.freeList)
    (poolSize : after.poolSize = port.poolSize) (allocs : after.allocs = port.allocs)
    (others : ∀ other, other ≠ id → after.descs other = port.descs other) :
    Kept before list [id] after where
  dataFormat := dataFormat.trans kept.dataFormat
  allocs := by
    rw [allocs]
    exact kept.allocs
  nodup := by
    rw [freeList]
    exact kept.nodup
  inPool := by
    rw [freeList, poolSize]
    exact kept.inPool
  clear other member := by
    rw [freeList] at member
    have different : other ≠ id := by
      rintro rfl
      exact kept.held_apart.2 member
    rw [others other different]
    exact kept.clear other member
  grown := by
    rw [poolSize]
    exact kept.grown
  origin := by
    rw [freeList]
    exact kept.origin
  taken := by
    rw [freeList, poolSize]
    exact kept.taken

/-- The descriptor that is held is put on the list. -/
theorem Kept.listed : Kept before (list ++ [id]) [] port :=
  { kept with
    nodup := by
      rw [append_nil]
      exact kept.nodup
    inPool := by
      rw [append_nil]
      exact kept.inPool
    origin := by
      rw [append_nil]
      exact kept.origin
    taken := by
      rw [append_nil]
      exact kept.taken }

/-- The descriptor that is held is put back. -/
theorem Kept.recycled : Kept before list [] (port.rmnetRecycleFragDescriptor id) := by
  have perm : (list ++ [] ++ (port.freeList ++ [id])).Perm (list ++ [id] ++ port.freeList) := by
    rw [append_nil, append_assoc]
    exact perm_append_comm.append_left list
  refine ⟨kept.dataFormat, kept.allocs, ?_, ?_, ?_, kept.grown, ?_, ?_⟩
  · exact perm.nodup_iff.mpr kept.nodup
  · intro other member
    exact kept.inPool other (perm.mem_iff.mp member)
  · intro other member
    rcases mem_append.mp member with free | new
    · have different : other ≠ id := by
        rintro rfl
        exact kept.held_apart.2 free
      exact (update_of_ne different _ _).trans (kept.clear other free)
    · rw [mem_singleton.mp new]
      exact update_self _ _ _
  · intro other member
    exact kept.origin other (perm.mem_iff.mp member)
  · intro other inside fromPool
    exact perm.mem_iff.mpr (kept.taken other inside fromPool)

end

end Pool

/-! ## One frame -/

section One

variable {pages : Pages} {skb : Skb} {start : Nat} {first : SkbFrag} {rest : List SkbFrag}

/-- The bytes from `start` on. -/
def remaining (pages : Pages) (skb : Skb) (start : Nat) : List Byte :=
  (skb.bytes pages).drop start

theorem length_remaining (pages : Pages) (skb : Skb) (start : Nat) :
    (remaining pages skb start).length = skb.len - start := by
  rw [remaining, length_drop, Skb.length_bytes]

theorem getD_first (bytes : fragBytes pages (first :: rest) = remaining pages skb start) {i : Nat}
    (within : i < first.size) :
    (first.bytes pages).getD i 0 = (remaining pages skb start).getD i 0 := by
  apply getD_of_prefix ⟨_, bytes⟩
  rw [length_bytes]
  exact within

theorem first_le (bytes : fragBytes pages (first :: rest) = remaining pages skb start) :
    first.size ≤ (remaining pages skb start).length := by
  rw [← bytes, fragBytes_cons, length_append, length_bytes]
  exact Nat.le_add_right _ _

theorem startFrag_remaining (pages : Pages) (within : start < skb.len) :
    ∃ frag off rest, startFrag start skb.frags 0 = some (frag, off, rest) ∧
      fragBytes pages (frag.advance (start - off) :: rest) = remaining pages skb start :=
  startFrag_spec pages (Nat.zero_le start) (by rw [Nat.zero_add, length_fragBytes]; exact within)

/-- The header is read where there are four bytes, in one fragment or more. -/
theorem header_spec (bytes : fragBytes pages (first :: rest) = remaining pages skb start)
    (long : mapHeaderSize ≤ (remaining pages skb start).length) :
    ∃ header, (if mapHeaderSize ≤ first.size then some (first.bytes pages)
        else skbCopyBits pages skb start mapHeaderSize) = some header ∧
      mapHeader header = mapHeader (remaining pages skb start) := by
  by_cases direct : mapHeaderSize ≤ first.size
  · rw [if_pos direct]
    refine ⟨_, rfl, ?_⟩
    apply mapHeader_of_isPrefix ⟨_, bytes⟩
    rw [length_bytes]
    exact direct
  · rw [length_remaining] at long
    have enough : start + mapHeaderSize ≤ skb.len := by omega
    rw [if_neg direct, skbCopyBits, if_pos enough]
    refine ⟨_, rfl, ?_⟩
    have available : mapHeaderSize ≤ ((skb.bytes pages).drop start).length := by
      rw [length_drop, Skb.length_bytes]
      omega
    apply mapHeader_of_isPrefix ( take_prefix _ _)
    exact Nat.le_of_eq (length_take_of_le available).symm

theorem header_none (bytes : fragBytes pages (first :: rest) = remaining pages skb start)
    (within : start < skb.len) (short : (remaining pages skb start).length < mapHeaderSize) :
    (if mapHeaderSize ≤ first.size then some (first.bytes pages)
      else skbCopyBits pages skb start mapHeaderSize) = none := by
  have atMost := first_le bytes
  rw [length_remaining] at short
  rw [length_remaining] at atMost
  rw [if_neg (by omega), skbCopyBits, if_neg (by omega)]

/-- The length of the frame is known, unless the type byte is behind the end. -/
theorem frameLen_spec {dataFormat : BitVec 32}
    (bytes : fragBytes pages (first :: rest) = remaining pages skb start)
    (long : mapHeaderSize ≤ (remaining pages skb start).length)
    (nonempty : (mapHeader (remaining pages skb start)).pktLen ≠ 0) :
    (BareHeader dataFormat (remaining pages skb start) ∧
        frameLen pages skb dataFormat start first.size (first.bytes pages)
          (mapHeader (remaining pages skb start)) = none) ∨
      (¬ BareHeader dataFormat (remaining pages skb start) ∧
        frameLen pages skb dataFormat start first.size (first.bytes pages)
          (mapHeader (remaining pages skb start)) =
            some (announced dataFormat (remaining pages skb start))) := by
  unfold frameLen announced
  by_cases trailer : hasTrailer dataFormat = true
  · right
    rw [if_pos trailer, if_pos trailer]
    refine ⟨fun bare => ?_, by rw [Nat.add_comm mapHeaderSize]⟩
    rw [bare.noTrailer] at trailer
    cases trailer
  rw [if_neg trailer, if_neg trailer]
  by_cases typed : (hasNextHeader dataFormat &&
      !(mapHeader (remaining pages skb start)).cdBit) = true
  swap
  · right
    rw [if_neg typed, if_neg typed]
    refine ⟨fun bare => ?_, by rw [Nat.add_comm mapHeaderSize, Nat.add_zero]⟩
    rw [bare.nextHeader, bare.isData] at typed
    exact typed rfl
  rw [if_pos typed, if_pos typed]
  by_cases direct : mapHeaderSize + 1 ≤ first.size
  · right
    have atMost := first_le bytes
    rw [if_pos direct, getD_first bytes direct, Nat.add_comm mapHeaderSize]
    refine ⟨fun bare => ?_, rfl⟩
    rw [bare.length] at atMost
    omega
  rw [if_neg direct, skbCopyBits]
  by_cases there : start + mapHeaderSize + 1 ≤ skb.len
  · right
    rw [if_pos there]
    have length := length_remaining pages skb start
    refine ⟨fun bare => ?_, ?_⟩
    · rw [bare.length] at length
      omega
    · simp only [Nat.add_comm mapHeaderSize]
      rw [remaining, getD_eq_getElem?_getD, getD_eq_getElem?_getD, getElem?_take,
        if_pos Nat.zero_lt_one, getElem?_drop, getElem?_drop, Nat.add_zero]
  · left
    rw [if_neg there]
    rw [Bool.and_eq_true, Bool.not_eq_true'] at typed
    have length := length_remaining pages skb start
    refine ⟨⟨?_, nonempty, (Bool.not_eq_true _).mp trailer, typed.1, typed.2⟩, rfl⟩
    omega

/-- How a round of the loop can go. -/
inductive Round (pages : Pages) (before : Port) (list : List Nat) (port : Port)
    (bytes : List Byte) : Option Nat × Deaggregation → Prop
  | frame {id : Nat} {after : Port} (starts : StartsWithFrame before.dataFormat bytes)
      (kept : Kept before (list ++ [id]) [] after)
      (own : (after.descs id).bytes pages = bytes.take (announced before.dataFormat bytes))
      (others : ∀ other ∈ list, after.descs other = port.descs other) :
      Round pages before list port bytes
        (some (announced before.dataFormat bytes), ⟨after, list ++ [id]⟩)
  | stuck {held : List Nat} {after : Port} (stuck : ¬ StartsWithFrame before.dataFormat bytes)
      (kept : Kept before list held after)
      (leaks : held ≠ [] ↔ BareHeader before.dataFormat bytes)
      (others : ∀ other ∈ list, after.descs other = port.descs other) :
      Round pages before list port bytes (none, ⟨after, list⟩)

/-- What a round does, at whatever fragment it starts. -/
theorem round_spec {before port : Port} {list : List Nat} (kept : Kept before list [] port)
    (within : start < skb.len) (priority : BitVec 32) :
    Round pages before list port (remaining pages skb start)
      (rmnetFragDeaggregateOne pages skb ⟨port, list⟩ start priority) := by
  obtain ⟨frag, off, rest, found, bytes⟩ := startFrag_remaining pages within
  unfold rmnetFragDeaggregateOne
  simp only [found]
  by_cases long : mapHeaderSize ≤ (remaining pages skb start).length
  swap
  · have short := Nat.lt_of_not_le long
    simp only [header_none bytes within short]
    refine .stuck (fun starts => ?_) kept ⟨fun none => absurd rfl none, fun bare => ?_⟩
      fun _ _ => rfl
    · have more := announced_gt before.dataFormat starts.1
      have fits := starts.2
      omega
    · rw [bare.length] at long
      exact absurd (Nat.le_refl _) long
  obtain ⟨header, read, sameHeader⟩ := header_spec bytes long
  simp only [read, sameHeader]
  by_cases empty : (mapHeader (remaining pages skb start)).pktLen = 0
  · rw [if_pos empty]
    exact .stuck (fun starts => starts.1 empty) kept
      ⟨fun none => absurd rfl none, fun bare => absurd empty bare.nonempty⟩ fun _ _ => rfl
  rw [if_neg empty]
  obtain ⟨id, taken, got, keptTaken, clear, sameTaken⟩ := kept.get
  simp only [got]
  have notListed := keptTaken.held_apart.1
  generalize marked : taken.setDesc id { taken.descs id with priority := priority } = port'
  have othersMarked : ∀ other, other ≠ id → port'.descs other = taken.descs other := by
    intro other different
    rw [← marked]
    exact update_of_ne different _ _
  have keptMarked : Kept before list [id] port' := by
    apply keptTaken.written _ _ _ _ othersMarked <;> rw [← marked] <;> rfl
  have emptyMarked : (port'.descs id).bytes pages = [] ∧ (port'.descs id).len = 0 := by
    rw [← marked]
    simp [Port.setDesc, clear, FragDescriptor.bytes, FragDescriptor.zero]
  have differs : ∀ other ∈ list, other ≠ id := by
    rintro other listed rfl
    exact notListed listed
  have sameFormat : taken.dataFormat = before.dataFormat := keptTaken.dataFormat
  rw [sameFormat]
  rcases @frameLen_spec pages skb start (frag.advance (start - off)) rest before.dataFormat
    bytes long empty with ⟨bare, unknown⟩ | ⟨notBare, known⟩
  · simp only [unknown]
    refine .stuck bare.stuck keptMarked ⟨fun _ => bare, fun _ => cons_ne_nil _ _⟩ ?_
    intro other listed
    rw [othersMarked other (differs other listed), sameTaken other listed]
  simp only [known]
  obtain ⟨after, added, appended⟩ := addFrags_spec pages keptMarked.allocs id
    (frag.advance (start - off) :: rest) (announced before.dataFormat (remaining pages skb start))
  rw [bytes] at added appended
  have keptAfter : Kept before list [id] after := keptMarked.written appended.dataFormat
    appended.freeList appended.poolSize appended.allocs appended.others
  have sameAfter : ∀ other ∈ list, after.descs other = port.descs other := by
    intro other listed
    rw [appended.others other (differs other listed),
      othersMarked other (differs other listed), sameTaken other listed]
  rw [added]
  by_cases fits : announced before.dataFormat (remaining pages skb start) ≤
      (remaining pages skb start).length
  · have none : announced before.dataFormat (remaining pages skb start) -
        (remaining pages skb start).length = 0 := Nat.sub_eq_zero_of_le fits
    rw [none]
    have len : (after.descs id).len = announced before.dataFormat (remaining pages skb start) := by
      rw [appended.len, emptyMarked.2, length_take_of_le fits, Nat.zero_add]
    simp only [len]
    refine .frame ⟨empty, fits⟩ keptAfter.listed ?_ sameAfter
    rw [appended.bytes, emptyMarked.1, nil_append]
  · obtain ⟨missing, more⟩ : ∃ missing, announced before.dataFormat (remaining pages skb start) -
        (remaining pages skb start).length = missing + 1 :=
      Nat.exists_eq_add_one_of_ne_zero (by omega)
    rw [more]
    refine .stuck (fun starts => fits starts.2) keptAfter.recycled
      ⟨fun none => absurd rfl none, fun bare => absurd bare notBare⟩ ?_
    intro other listed
    refine (update_of_ne (differs other listed) _ _).trans ?_
    exact sameAfter other listed

end One

/-! ## The whole buffer -/

/-- The bytes of the descriptors on the list. -/
def listBytes (pages : Pages) (state : Deaggregation) : List (List Byte) :=
  state.list.map fun id => (state.port.descs id).bytes pages

/-- The descriptors on the list are the longest sequence of frames, and what was
taken from the pool is on the list or back in the pool. -/
structure Deaggregated (pages : Pages) (bytes : List Byte) (before : Port)
    (state : Deaggregation) : Prop where
  frames : LongestFrames before.dataFormat bytes (listBytes pages state)
  accounted : ∀ id < state.port.poolSize, FromPool before id →
    id ∈ state.list ∨ id ∈ state.port.freeList

/-- Behind the last frame there is nothing but a header. -/
def EndsInBareHeader (dataFormat : BitVec 32) (bytes : List Byte) : Prop :=
  ∃ frames rest, LongestFrames dataFormat bytes frames ∧ bytes = frames.flatten ++ rest ∧
    BareHeader dataFormat rest

/-- The state when the loop ends. -/
structure Ended (pages : Pages) (bytes : List Byte) (before : Port) (rest : List Byte)
    (held : List Nat) (state : Deaggregation) : Prop where
  kept : Kept before state.list held state.port
  split : bytes = (listBytes pages state).flatten ++ rest
  complete : ∀ frame ∈ listBytes pages state, IsFrame before.dataFormat frame
  stuck : ¬ StartsWithFrame before.dataFormat rest
  leaks : held ≠ [] ↔ BareHeader before.dataFormat rest

section Whole

variable {pages : Pages} {skb : Skb} {before : Port}

theorem remaining_end {start : Nat} (ended : skb.len ≤ start) : remaining pages skb start = [] := by
  apply eq_nil_of_length_eq_zero
  rw [length_remaining]
  omega

/-- The loop ends after at most one round for each byte. -/
theorem loop_spec (priority : BitVec 32) {fuel start : Nat} {state : Deaggregation}
    (enough : skb.len < fuel + start) (kept : Kept before state.list [] state.port)
    (split : skb.bytes pages = (listBytes pages state).flatten ++ remaining pages skb start)
    (complete : ∀ frame ∈ listBytes pages state, IsFrame before.dataFormat frame)
    (positive : 0 < fuel) :
    ∃ final held rest,
      rmnetFragDeaggregate pages skb priority fuel state start = some final ∧
        Ended pages (skb.bytes pages) before rest held final := by
  induction fuel generalizing state start with
  | zero => exact absurd positive (Nat.lt_irrefl 0)
  | succ fuel ih =>
    unfold rmnetFragDeaggregate
    by_cases within : start < skb.len
    swap
    · have nothing := @remaining_end pages skb start (Nat.le_of_not_lt within)
      rw [nothing] at split
      rw [if_neg within]
      refine ⟨state, [], [], rfl, kept, split, complete, fun starts => starts.1 rfl, ?_⟩
      exact ⟨fun none => absurd rfl none, fun bare => absurd bare.length (by decide)⟩
    rw [if_pos within]
    have round := @round_spec pages skb start before state.port state.list kept within priority
    generalize rmnetFragDeaggregateOne pages skb ⟨state.port, state.list⟩ start
      priority = outcome at round ⊢
    cases round with
    | @stuck held after stuck keptAfter leaks others =>
      have sameBytes : listBytes pages ⟨after, state.list⟩ = listBytes pages state := by
        apply map_congr_left
        intro id listed
        rw [others id listed]
      rw [← sameBytes] at split complete
      exact ⟨_, held, _, rfl, keptAfter, split, complete, stuck, leaks⟩
    | @frame id after starts keptAfter own others =>
      have long := announced_gt before.dataFormat starts.1
      have moreBytes : listBytes pages ⟨after, state.list ++ [id]⟩ =
          listBytes pages state ++ [(remaining pages skb start).take
            (announced before.dataFormat (remaining pages skb start))] := by
        rw [← own]
        unfold listBytes
        rw [map_append]
        congr 1
        apply map_congr_left
        intro other listed
        rw [others other listed]
      apply @ih _ ⟨after, state.list ++ [id]⟩
      · omega
      · exact keptAfter
      · rw [moreBytes, flatten_append, split, append_assoc]
        rw [flatten_singleton, remaining, remaining, ← drop_drop, take_append_drop]
      · intro frame member
        rw [moreBytes, mem_append, mem_singleton] at member
        rcases member with old | rfl
        · exact complete frame old
        · exact starts.isFrame
      · omega

variable {state : Deaggregation} {rest : List Byte} {bytes : List Byte}

theorem Ended.longestFrames {held : List Nat} (ended : Ended pages bytes before rest held state) :
    LongestFrames before.dataFormat bytes (listBytes pages state) := by
  rw [ended.split]
  exact longestFrames_of_stuck ended.complete ended.stuck

/-- The descriptor that was not put back is missing. -/
theorem Ended.accounted_iff {held : List Nat} (ended : Ended pages bytes before rest held state) :
    (∀ id < state.port.poolSize, FromPool before id →
        id ∈ state.list ∨ id ∈ state.port.freeList) ↔ held = [] := by
  have nodup := ended.kept.nodup
  constructor
  · intro accounted
    rcases held with _ | ⟨id, others⟩
    · rfl
    · exfalso
      have member : id ∈ state.list ++ (id :: others) ++ state.port.freeList := by simp
      rw [append_assoc] at nodup
      obtain ⟨_, heldNodup, apart⟩ := nodup_append.mp nodup
      rcases accounted id (ended.kept.inPool id member) (ended.kept.origin id member) with
        listed | free
      · exact apart id listed id (by simp) rfl
      · rw [cons_append, nodup_cons] at heldNodup
        exact heldNodup.1 (mem_append_right _ free)
  · rintro rfl id inside fromPool
    have member := ended.kept.taken id inside fromPool
    rw [append_nil] at member
    exact mem_append.mp member

theorem Ended.endsInBareHeader_iff {held : List Nat}
    (ended : Ended pages bytes before rest held state) :
    EndsInBareHeader before.dataFormat bytes ↔ held ≠ [] := by
  rw [ended.leaks]
  constructor
  · rintro ⟨frames, other, longest, split, bare⟩
    have sameFrames := longest.unique ended.longestFrames
    rw [ended.split, sameFrames] at split
    rw [append_cancel_left split]
    exact bare
  · intro bare
    exact ⟨_, rest, ended.longestFrames, ended.split, bare⟩

/-- For every cut of a buffer into fragments, deaggregation ends with the longest
sequence of frames on the list, and loses no descriptor exactly if what follows the
frames is not a bare header of a format with next headers. -/
theorem deaggregated_iff (priority : BitVec 32) (wellFormed : before.WellFormed)
    (allocs : ∀ n, before.allocs n = true) {fuel : Nat} (enough : skb.len < fuel) :
    (∃ state, rmnetFragDeaggregate pages skb priority fuel ⟨before, []⟩ 0 =
        some state ∧ Deaggregated pages (skb.bytes pages) before state) ↔
      ¬ EndsInBareHeader before.dataFormat (skb.bytes pages) := by
  obtain ⟨final, held, rest, result, ended⟩ := @loop_spec pages skb before priority fuel 0 ⟨before, []⟩ enough
    (wellFormed.kept allocs) rfl (fun _ member => absurd member not_mem_nil) (by omega)
  rw [ended.endsInBareHeader_iff, not_not, ← ended.accounted_iff]
  constructor
  · rintro ⟨state, returned, deaggregated⟩
    rw [result] at returned
    cases returned
    exact deaggregated.accounted
  · intro accounted
    exact ⟨final, result, ended.longestFrames, accounted⟩

end Whole

/-! ## Two buffers -/

/-- A page with a data packet of two bytes behind a header and a checksum header. -/
def samplePages : Pages := fun _ off =>
  [0x40, 1, 0, 2, 4, 0x80, 0, 0, 0xAA, 0xBB].getD off 0

/-- A port that receives checksum headers, with one descriptor in its pool. -/
def samplePort : Port where
  dataFormat := rmnetPrivFlagsIngressMapCksumv5
  freeList := [0]
  poolSize := 1
  descs := fun _ => .zero
  allocs := fun _ => true
  requests := 0

theorem wellFormed_samplePort : samplePort.WellFormed :=
  ⟨nodup_singleton _, by decide, fun _ _ => rfl⟩

/-- The frame, cut inside its header and behind it, with an empty fragment. -/
def cutSkb : Skb where
  frags := [⟨0, 0, 3⟩, ⟨0, 3, 0⟩, ⟨0, 3, 1⟩, ⟨0, 4, 6⟩]
  fits := by decide

/-- Only the header of the frame. -/
def headerSkb : Skb where
  frags := [⟨0, 0, 4⟩]
  fits := by decide

theorem deaggregated_cutSkb :
    ∃ state, rmnetFragDeaggregate samplePages cutSkb 0 11 ⟨samplePort, []⟩ 0 =
      some state ∧ Deaggregated samplePages (cutSkb.bytes samplePages) samplePort state := by
  refine (deaggregated_iff 0 wellFormed_samplePort (fun _ => rfl) (by decide)).mpr ?_
  have oneFrame : LongestFrames samplePort.dataFormat (cutSkb.bytes samplePages)
      [cutSkb.bytes samplePages] := by
    have isFrame : ∀ frame ∈ [cutSkb.bytes samplePages], IsFrame samplePort.dataFormat frame := by
      intro frame member
      rw [mem_singleton.mp member]
      exact ⟨by decide, by decide⟩
    have stuck : ¬ StartsWithFrame samplePort.dataFormat [] := by decide
    simpa using longestFrames_of_stuck isFrame stuck
  rintro ⟨frames, rest, longest, split, bare⟩
  rw [longest.unique oneFrame] at split
  have length := congrArg length split
  rw [length_append, bare.length] at length
  exact absurd length (by decide)

/-- The descriptor taken for the lone header is lost. -/
theorem not_deaggregated_headerSkb :
    ¬ ∃ state, rmnetFragDeaggregate samplePages headerSkb 0 5
        ⟨samplePort, []⟩ 0 = some state ∧
      Deaggregated samplePages (headerSkb.bytes samplePages) samplePort state := by
  rintro ⟨state, returned, deaggregated⟩
  have ends : (rmnetFragDeaggregate samplePages headerSkb 0 5
      ⟨samplePort, []⟩ 0).map
        (fun state => (state.list, state.port.freeList, state.port.poolSize)) =
          some ([], [], 1) := by decide +kernel
  rw [returned] at ends
  obtain ⟨list, ends⟩ := Prod.mk.inj (Option.some.inj ends)
  obtain ⟨freeList, poolSize⟩ := Prod.mk.inj ends
  have accounted := deaggregated.accounted 0 (by rw [poolSize]; exact Nat.one_pos)
    (.inl mem_cons_self)
  rw [list, freeList] at accounted
  simp at accounted

end Sm8650.Rmnet
