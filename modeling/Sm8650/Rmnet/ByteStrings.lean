import Sm8650.Rmnet.FragBytes

/-!
# Descriptors as byte strings

The walks over the fragments of a descriptor with their 32-bit arguments, as operations on the
port that the descriptors belong to. The end of a range is a sum that could wrap around; below
2^31 bytes it does not.

Source: `rmnet_descriptor.c`.
-/

namespace Sm8650.Rmnet

open List FragDescriptor

/-- The check of a range, in 32 bits. -/
def FragDescriptor.outsideU32 (desc : FragDescriptor) (off len : BitVec 32) : Bool :=
  decide (desc.len < off.toNat) || decide (desc.len < len.toNat) ||
    decide (desc.len < (off + len).toNat)

namespace Port

/-- `rmnet_frag_pull`; says whether the descriptor is still there. -/
def rmnetFragPull (port : Port) (id : Nat) (size : BitVec 32) : Bool × Port :=
  if (port.descs id).len ≤ size.toNat then (false, port.rmnetRecycleFragDescriptor id)
  else (true, port.setDesc id ((port.descs id).pulled size.toNat))

/-- `rmnet_frag_trim`; says whether the descriptor is still there. -/
def rmnetFragTrim (port : Port) (id : Nat) (size : BitVec 32) : Bool × Port :=
  if size = 0 then (false, port.rmnetRecycleFragDescriptor id)
  else if (port.descs id).len ≤ size.toNat then (true, port)
  else (true, port.setDesc id ((port.descs id).trimmed size.toNat))

/-- `rmnet_frag_copy_data` -/
def rmnetFragCopyData (pages : Pages) (port : Port) (id : Nat) (off len : BitVec 32) :
    Option (List Byte) :=
  if (port.descs id).outsideU32 off len then none
  else some (copyFrags pages (port.descs id).frags off.toNat len.toNat)

/-- The bytes that `rmnet_frag_header_ptr` returns a pointer to. -/
def rmnetFragHeaderPtr (pages : Pages) (port : Port) (id : Nat) (off len : BitVec 32) :
    Option (List Byte) :=
  if (port.descs id).outsideU32 off len then none
  else
    match headerFrag (port.descs id).frags off.toNat with
    | none => port.rmnetFragCopyData pages id off len
    | some (frag, inner) =>
      if (BitVec.ofNat 32 inner + len).toNat ≤ frag.size then
        some (readPage pages frag.page (frag.off + inner) len.toNat)
      else port.rmnetFragCopyData pages id off len

/-- The loop of `rmnet_frag_descriptor_add_frags_from`. -/
def addFragsLoop (port : Port) (dest : Nat) : List SkbFrag → Nat → Nat → Bool × Port
  | [], _, _ => (true, port)
  | frag :: frags, off, len =>
    if len = 0 then (true, port)
    else if off < frag.size then
      let copyLen := min len (frag.size - off)
      let added := port.rmnetFragDescriptorAddFrag dest ⟨frag.page, frag.off + off, copyLen⟩
      if added.1 then added.2.addFragsLoop dest frags 0 (len - copyLen) else added
    else port.addFragsLoop dest frags (off - frag.size) len

/-- `rmnet_frag_descriptor_add_frags_from` -/
def rmnetFragDescriptorAddFragsFrom (port : Port) (dest source : Nat) (off len : BitVec 32) :
    Bool × Port :=
  if (port.descs source).outsideU32 off len then (false, port)
  else port.addFragsLoop dest (port.descs source).frags off.toNat len.toNat

/-- The descriptor has the bytes, and its length is that of its fragments. -/
def HasBytes (port : Port) (pages : Pages) (id : Nat) (bytes : List Byte) : Prop :=
  (port.descs id).bytes pages = bytes ∧ (port.descs id).Consistent

end Port

/-- The length is that of the fragments, and is below 2^31. -/
structure FragDescriptor.Sized (desc : FragDescriptor) : Prop where
  consistent : desc.Consistent
  small : desc.len < 2 ^ 31

section

variable {port : Port} {pages : Pages} {desc : FragDescriptor} {id dest : Nat}
  {size off len : BitVec 32}

/-! ## Ranges -/

theorem FragDescriptor.outsideU32_eq (small : desc.len < 2 ^ 31) :
    desc.outsideU32 off len = desc.outside off.toNat len.toNat := by
  unfold outsideU32 outside
  rw [Bool.eq_iff_iff]
  simp only [Bool.or_eq_true, decide_eq_true_eq, BitVec.toNat_add]
  omega

theorem headerFrag_inner {frags : List SkbFrag} {off inner : Nat} {frag : SkbFrag}
    (found : headerFrag frags off = some (frag, inner)) : inner ≤ off := by
  induction frags generalizing off with
  | nil => cases found
  | cons first frags ih =>
    unfold headerFrag at found
    split at found
    · cases found
      exact Nat.le_refl _
    · exact Nat.le_trans (ih found) (Nat.sub_le _ _)

theorem Port.rmnetFragCopyData_eq (small : (port.descs id).len < 2 ^ 31) :
    port.rmnetFragCopyData pages id off len =
      (port.descs id).rmnetFragCopyData pages off.toNat len.toNat := by
  rw [rmnetFragCopyData, outsideU32_eq small]
  rfl

theorem Port.rmnetFragHeaderPtr_eq (small : (port.descs id).len < 2 ^ 31) :
    port.rmnetFragHeaderPtr pages id off len =
      (port.descs id).rmnetFragHeaderPtr pages off.toNat len.toNat := by
  unfold rmnetFragHeaderPtr FragDescriptor.rmnetFragHeaderPtr
  rw [outsideU32_eq small, rmnetFragCopyData_eq small]
  cases outside : (port.descs id).outside off.toNat len.toNat with
  | true => rfl
  | false =>
    rw [outside_eq, decide_eq_false_iff_not] at outside
    rcases found : headerFrag (port.descs id).frags off.toNat with _ | ⟨frag, inner⟩
    · rfl
    · have within := headerFrag_inner found
      have sum : (BitVec.ofNat 32 inner + len).toNat = inner + len.toNat := by
        rw [BitVec.toNat_add, BitVec.toNat_ofNat]
        omega
      simp only [sum]

/-! ## Appending -/

/-- The fragments that are added have the bytes that would be copied. -/
theorem Port.addFragsLoop_spec (granted : ∀ n, port.allocs n = true) (frags : List SkbFrag)
    (off len : Nat) : (port.addFragsLoop dest frags off len).1 = true ∧ ∃ added,
      (port.addFragsLoop dest frags off len).2.descs dest =
        { port.descs dest with
          frags := (port.descs dest).frags ++ added
          len := (port.descs dest).len + (added.map SkbFrag.size).sum } ∧
      ∀ pages, fragBytes pages added = copyFrags pages frags off len := by
  induction frags generalizing port off len with
  | nil => exact ⟨rfl, [], by simp [addFragsLoop], fun _ => rfl⟩
  | cons frag frags ih =>
    unfold addFragsLoop copyFrags
    by_cases done : len = 0
    · rw [if_pos done]
      exact ⟨rfl, [], by simp, fun _ => by rw [if_pos done]; rfl⟩
    · rw [if_neg done]
      by_cases inside : off < frag.size
      · let new : SkbFrag := ⟨frag.page, frag.off + off, min len (frag.size - off)⟩
        have isAdded : port.rmnetFragDescriptorAddFrag dest new =
            (true, Port.setDesc { port with requests := port.requests + 1 } dest
              { port.descs dest with
                frags := (port.descs dest).frags ++ [new]
                len := (port.descs dest).len + new.size }) := by
          rw [rmnetFragDescriptorAddFrag, if_pos (granted _)]
        obtain ⟨rc, added, desc, bytes⟩ := @ih
          (port.rmnetFragDescriptorAddFrag dest new).2 (by rw [isAdded]; exact granted) 0
          (len - new.size)
        rw [if_pos inside]
        rw [if_pos (congrArg Prod.fst isAdded)]
        refine ⟨rc, new :: added, desc.trans ?_, fun pages => ?_⟩
        · rw [isAdded]
          simp [setDesc, Nat.add_assoc]
        · rw [if_neg done, if_pos inside, fragBytes_cons, bytes]
          rfl
      · obtain ⟨rc, added, desc, bytes⟩ := @ih port granted (off - frag.size) len
        rw [if_neg inside]
        refine ⟨rc, added, desc, fun pages => ?_⟩
        rw [if_neg done, if_neg inside, bytes]

end

/-! ## The walks -/

/-- Pulling drops the first bytes of a longer descriptor and gives back any other one. -/
def Pulls (port : Port) (pages : Pages) (id : Nat) (size : BitVec 32) : Prop :=
  if size.toNat < (port.descs id).len then
    (port.rmnetFragPull id size).1 = true ∧ (port.rmnetFragPull id size).2.HasBytes pages id
      (((port.descs id).bytes pages).drop size.toNat)
  else port.rmnetFragPull id size = (false, port.rmnetRecycleFragDescriptor id)

/-- Trimming keeps the first bytes, unless there are none to keep. -/
def Trims (port : Port) (pages : Pages) (id : Nat) (size : BitVec 32) : Prop :=
  if size ≠ 0 then
    (port.rmnetFragTrim id size).1 = true ∧ (port.rmnetFragTrim id size).2.HasBytes pages id
      (((port.descs id).bytes pages).take (min size.toNat (port.descs id).len))
  else port.rmnetFragTrim id size = (false, port.rmnetRecycleFragDescriptor id)

/-- The bytes of a range. -/
def slice (bytes : List Byte) (off len : BitVec 32) : List Byte :=
  (bytes.drop off.toNat).take len.toNat

/-- A range is read if it is inside, and not at all otherwise. -/
def Reads (port : Port) (pages : Pages) (id : Nat) (off len : BitVec 32) : Prop :=
  let read := if off.toNat + len.toNat ≤ (port.descs id).len then
    some (slice ((port.descs id).bytes pages) off len) else none
  port.rmnetFragCopyData pages id off len = read ∧ port.rmnetFragHeaderPtr pages id off len = read

/-- A range is appended if it is inside, and nothing happens otherwise. -/
def Appends (port : Port) (pages : Pages) (dest source : Nat) (off len : BitVec 32) : Prop :=
  let added := port.rmnetFragDescriptorAddFragsFrom dest source off len
  if off.toNat + len.toNat ≤ (port.descs source).len then
    added.1 = true ∧ (added.2.descs dest).len < 2 ^ 32 ∧ added.2.HasBytes pages dest
      ((port.descs dest).bytes pages ++ slice ((port.descs source).bytes pages) off len)
  else added = (false, port)

section

variable {port : Port} {pages : Pages} {id dest source : Nat} {size off len : BitVec 32}

theorem Port.hasBytes_setDesc {desc : FragDescriptor} {bytes : List Byte}
    (isBytes : desc.bytes pages = bytes) (consistent : desc.Consistent) :
    (port.setDesc id desc).HasBytes pages id bytes := by
  have isDesc : (port.setDesc id desc).descs id = desc := by simp [setDesc]
  rw [HasBytes, isDesc]
  exact ⟨isBytes, consistent⟩

theorem pulls_of_sized (sized : (port.descs id).Sized) : Pulls port pages id size := by
  unfold Pulls Port.rmnetFragPull
  split
  case isTrue more =>
    have within := Nat.le_of_lt more
    rw [if_neg (Nat.not_le.mpr more)]
    exact ⟨rfl, Port.hasBytes_setDesc (bytes_pulled sized.consistent within)
      (sized.consistent.pulled within)⟩
  case isFalse less => rw [if_pos (Nat.not_lt.mp less)]

theorem trims_of_sized (sized : (port.descs id).Sized) : Trims port pages id size := by
  unfold Trims Port.rmnetFragTrim
  split
  case isTrue some =>
    by_cases more : (port.descs id).len ≤ size.toNat
    · rw [if_pos more, Nat.min_eq_right more, ← sized.consistent.length_bytes pages, take_length]
      exact ⟨rfl, rfl, sized.consistent⟩
    · have within := Nat.le_of_not_le more
      rw [if_neg more, Nat.min_eq_left within]
      exact ⟨rfl, Port.hasBytes_setDesc (bytes_trimmed sized.consistent within)
        (sized.consistent.trimmed within)⟩
  case isFalse none => rw [if_pos (not_not.mp none)]

theorem reads_of_sized (sized : (port.descs id).Sized) : Reads port pages id off len :=
  ⟨(Port.rmnetFragCopyData_eq sized.small).trans rmnetFragCopyData_eq,
    (Port.rmnetFragHeaderPtr_eq sized.small).trans rmnetFragHeaderPtr_eq⟩

theorem appends_of_sized (granted : ∀ n, port.allocs n = true) (sized : (port.descs dest).Sized)
    (sourceSized : (port.descs source).Sized) : Appends port pages dest source off len := by
  obtain ⟨rc, added, desc, bytes⟩ := @Port.addFragsLoop_spec port dest granted
    (port.descs source).frags off.toNat len.toNat
  have total (pages : Pages) : fragBytes pages added =
      slice ((port.descs source).bytes pages) off len :=
    (bytes pages).trans (copyFrags_eq pages _ _ _)
  have few : (added.map SkbFrag.size).sum ≤ (port.descs source).len := by
    rw [← length_fragBytes pages, total, ← sourceSized.consistent.length_bytes pages]
    exact Nat.le_trans (length_take_le' _ _) (length_drop ▸ Nat.sub_le _ _)
  have small := sized.small
  have sourceSmall := sourceSized.small
  unfold Appends Port.rmnetFragDescriptorAddFragsFrom
  rw [outsideU32_eq sourceSmall, outside_eq]
  by_cases within : off.toNat + len.toNat ≤ (port.descs source).len
  · rw [decide_eq_false (Nat.not_lt.mpr within)]
    rw [if_pos within, if_neg Bool.false_ne_true, Port.HasBytes, desc]
    refine ⟨rc, ?_, ?_, ?_⟩
    · dsimp only
      omega
    · rw [← total pages]
      exact fragBytes_append pages _ _
    · unfold Consistent
      rw [map_append, sum_append]
      exact congrArg (· + _) sized.consistent
  · rw [decide_eq_true (Nat.not_le.mp within)]
    rw [if_neg within, if_pos rfl]

/-- The walks over the fragments do to a descriptor what their names say about its bytes. -/
theorem walks_of_sized (granted : ∀ n, port.allocs n = true) (sized : (port.descs id).Sized)
    (destSized : (port.descs dest).Sized) : Pulls port pages id size ∧ Trims port pages id size ∧
      Reads port pages id off len ∧ Appends port pages dest id off len :=
  ⟨pulls_of_sized sized, trims_of_sized sized, reads_of_sized sized,
    appends_of_sized granted destSized sized⟩

/-- A port with descriptors of two fragments of three bytes. -/
def twoFragments : Port :=
  ⟨0, [], 1, fun _ => { zero with frags := [⟨0, 0, 3⟩, ⟨1, 5, 3⟩], len := 6 },
    fun _ => true, 0⟩

theorem sized_twoFragments (id : Nat) : (twoFragments.descs id).Sized :=
  ⟨rfl, show 6 < 2 ^ 31 by decide⟩

theorem walks_twoFragments : Pulls twoFragments (fun _ i => i) 0 4 ∧
    Trims twoFragments (fun _ i => i) 0 4 ∧ Reads twoFragments (fun _ i => i) 0 2 3 ∧
      Appends twoFragments (fun _ i => i) 1 0 2 3 :=
  walks_of_sized (fun _ => rfl) (sized_twoFragments 0) (sized_twoFragments 1)

end

end Sm8650.Rmnet
