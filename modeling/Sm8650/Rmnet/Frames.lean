import Sm8650.Rmnet.Deaggregate

/-!
# Frames

What a complete frame is, and what the longest sequence of frames at the beginning
of some bytes is. A frame tells its own length, so there is only one such
sequence.
-/

namespace Sm8650.Rmnet

open List

/-- The length that the first bytes announce. -/
def announced (dataFormat : BitVec 32) (bytes : List Byte) : Nat :=
  mapHeaderSize + (mapHeader bytes).pktLen +
    if hasTrailer dataFormat then mapDlCsumTrailerSize
    else if hasNextHeader dataFormat && !(mapHeader bytes).cdBit then
      nextHeaderSize (bytes.getD mapHeaderSize 0)
    else 0

/-- A complete frame. -/
structure IsFrame (dataFormat : BitVec 32) (frame : List Byte) : Prop where
  nonempty : (mapHeader frame).pktLen ≠ 0
  length : frame.length = announced dataFormat frame

/-- The longest sequence of frames that some bytes begin with. -/
structure LongestFrames (dataFormat : BitVec 32) (bytes : List Byte)
    (frames : List (List Byte)) : Prop where
  complete : ∀ frame ∈ frames, IsFrame dataFormat frame
  isPrefix : frames.flatten <+: bytes
  longest : ∀ other : List (List Byte), (∀ frame ∈ other, IsFrame dataFormat frame) →
    other.flatten <+: bytes → other <+: frames

variable {dataFormat : BitVec 32}

theorem LongestFrames.unique {bytes : List Byte} {frames other : List (List Byte)}
    (first : LongestFrames dataFormat bytes frames) (second : LongestFrames dataFormat bytes other)
    : frames = other :=
  (second.longest frames first.complete first.isPrefix).eq_of_length_le
    (first.longest other second.complete second.isPrefix).length_le

/-! ## A frame at the front -/

theorem announced_gt (dataFormat : BitVec 32) {bytes : List Byte}
    (nonempty : (mapHeader bytes).pktLen ≠ 0) : mapHeaderSize < announced dataFormat bytes := by
  unfold announced
  omega

variable {frame bytes : List Byte}

theorem getD_of_prefix (isPrefix : frame <+: bytes) {i : Nat} (within : i < frame.length)
    : frame.getD i 0 = bytes.getD i 0 := by
  obtain ⟨rest, rfl⟩ := isPrefix
  rw [getD_eq_getElem?_getD, getD_eq_getElem?_getD, getElem?_append_left within]

/-- The header is in the first four bytes. -/
theorem mapHeader_of_isPrefix (isPrefix : frame <+: bytes) (long : mapHeaderSize ≤ frame.length)
    : mapHeader frame = mapHeader bytes := by
  have at0 := getD_of_prefix isPrefix (Nat.lt_of_lt_of_le (by decide : 0 < mapHeaderSize) long)
  have at1 := getD_of_prefix isPrefix (Nat.lt_of_lt_of_le (by decide : 1 < mapHeaderSize) long)
  have at2 := getD_of_prefix isPrefix (Nat.lt_of_lt_of_le (by decide : 2 < mapHeaderSize) long)
  have at3 := getD_of_prefix isPrefix (Nat.lt_of_lt_of_le (by decide : 3 < mapHeaderSize) long)
  unfold mapHeader
  rw [at0, at1, at2, at3]

theorem announced_of_isPrefix (dataFormat : BitVec 32) (isPrefix : frame <+: bytes)
    (long : mapHeaderSize < frame.length) :
    announced dataFormat frame = announced dataFormat bytes := by
  unfold announced
  rw [mapHeader_of_isPrefix isPrefix (Nat.le_of_lt long), getD_of_prefix isPrefix long]

/-- The bytes begin with a complete frame. -/
def StartsWithFrame (dataFormat : BitVec 32) (bytes : List Byte) : Prop :=
  (mapHeader bytes).pktLen ≠ 0 ∧ announced dataFormat bytes ≤ bytes.length

instance (dataFormat : BitVec 32) (bytes : List Byte) :
    Decidable (StartsWithFrame dataFormat bytes) :=
  inferInstanceAs (Decidable (_ ∧ _))

/-- That frame. -/
theorem StartsWithFrame.isFrame {bytes : List Byte} (starts : StartsWithFrame dataFormat bytes) :
    IsFrame dataFormat (bytes.take (announced dataFormat bytes)) := by
  have long := announced_gt dataFormat starts.1
  have length : (bytes.take (announced dataFormat bytes)).length = announced dataFormat bytes :=
    length_take_of_le starts.2
  have isPrefix := take_prefix (announced dataFormat bytes) bytes
  constructor
  · rw [mapHeader_of_isPrefix isPrefix (by omega)]
    exact starts.1
  · rw [announced_of_isPrefix dataFormat isPrefix (by omega)]
    exact length

/-- There is no other frame at the front. -/
theorem IsFrame.eq_take (isFrame : IsFrame dataFormat frame) (isPrefix : frame <+: bytes) :
    StartsWithFrame dataFormat bytes ∧ frame = bytes.take (announced dataFormat bytes) := by
  have long := announced_gt dataFormat isFrame.nonempty
  rw [← isFrame.length] at long
  have sameHeader := mapHeader_of_isPrefix isPrefix (Nat.le_of_lt long)
  have sameLength := announced_of_isPrefix dataFormat isPrefix long
  have length := isFrame.length.trans sameLength
  refine ⟨⟨?_, ?_⟩, ?_⟩
  · rw [← sameHeader]
    exact isFrame.nonempty
  · rw [← length]
    exact isPrefix.length_le
  · rw [← length]
    exact prefix_iff_eq_take.mp isPrefix

/-- Frames in front of bytes that do not start with a frame are the longest
sequence. -/
theorem longestFrames_of_stuck {frames : List (List Byte)} {rest : List Byte}
    (complete : ∀ frame ∈ frames, IsFrame dataFormat frame)
    (stuck : ¬ StartsWithFrame dataFormat rest) :
    LongestFrames dataFormat (frames.flatten ++ rest) frames := by
  refine ⟨complete, prefix_append _ _, ?_⟩
  induction frames with
  | nil =>
    intro other areFrames isPrefix
    rcases other with _ | ⟨frame, others⟩
    · exact nil_prefix
    · have front : frame <+: rest := by
        exact (prefix_append _ _).trans isPrefix
      exact absurd ((areFrames frame mem_cons_self).eq_take front).1 stuck
  | cons first frames ih =>
    intro other areFrames isPrefix
    rcases other with _ | ⟨frame, others⟩
    · exact nil_prefix
    · rw [flatten_cons, flatten_cons, append_assoc] at isPrefix
      have firstFront : first <+: first ++ (frames.flatten ++ rest) := prefix_append _ _
      have front := (prefix_append frame others.flatten).trans isPrefix
      have same : frame = first :=
        ((areFrames frame mem_cons_self).eq_take front).2.trans
          ((complete first mem_cons_self).eq_take firstFront).2.symm
      subst same
      rw [prefix_append_right_inj] at isPrefix
      rw [prefix_cons_inj]
      exact ih
        (fun frame member => complete frame (mem_cons_of_mem _ member)) others
        (fun frame member => areFrames frame (mem_cons_of_mem _ member)) isPrefix

/-- All that is left is a header that announces a packet, in a format that has the
type of a next header behind it. -/
structure BareHeader (dataFormat : BitVec 32) (rest : List Byte) : Prop where
  length : rest.length = mapHeaderSize
  nonempty : (mapHeader rest).pktLen ≠ 0
  noTrailer : hasTrailer dataFormat = false
  nextHeader : hasNextHeader dataFormat = true
  isData : (mapHeader rest).cdBit = false

theorem BareHeader.stuck {rest : List Byte} (bare : BareHeader dataFormat rest)
    : ¬ StartsWithFrame dataFormat rest := by
  rintro ⟨nonempty, fits⟩
  have long := announced_gt dataFormat nonempty
  rw [bare.length] at fits
  omega

end Sm8650.Rmnet
