import Mathlib.Data.List.Basic
import Mathlib.Data.Nat.ModEq

/-!
# Ring buffers of words

A ring is a memory whose first `size` words are used cyclically. A reader index
and a writer index run around it; equal indices mean that it is empty, so at most
`size - 1` words are pending. Messages are copied in and out by linear block
copies, one when the message ends before the end of the memory and two when it
wraps around.
-/

namespace Sm8650.Ring

open List Function

universe u

variable {α : Type u}

/-- A block copy of `words` to the addresses from `start` on. -/
def blit (cells : Nat → α) (start : Nat) (words : List α) : Nat → α :=
  fun k => if start ≤ k then (words[k - start]?).getD (cells k) else cells k

/-- A block copy of the `count` words from `start` on. -/
def slice (cells : Nat → α) (start count : Nat) : List α :=
  (List.range count).map fun i => cells (start + i)

/-- The `count` words from `start` on around the ring. -/
def window (cells : Nat → α) (size start count : Nat) : List α :=
  (List.range count).map fun i => cells ((start + i) % size)

/-- The words between the reader and the writer index are `pending`. -/
structure Holds (cells : Nat → α) (size rd wr : Nat) (pending : List α) : Prop where
  rd_lt : rd < size
  pending_lt : pending.length < size
  wr_eq : wr = (rd + pending.length) % size
  window_eq : window cells size rd pending.length = pending

/-- `after` is `before` with `words` around the ring from `start` on. -/
structure Wrote (before after : Nat → α) (size start : Nat) (words : List α) : Prop where
  window_eq : window after size start words.length = words
  unchanged : ∀ k < size, (∀ i < words.length, k ≠ (start + i) % size) → after k = before k

@[simp]
theorem length_window (cells : Nat → α) (size start count : Nat) :
    (window cells size start count).length = count := by
  simp [window]

theorem window_add (cells : Nat → α) (size start first second : Nat) :
    window cells size start (first + second)
      = window cells size start first ++ window cells size ((start + first) % size) second := by
  simp [window, range_add, Nat.add_assoc]

variable {cells : Nat → α} {size start : Nat}

theorem window_one (inRing : start < size) : window cells size start 1 = [cells start] := by
  simp [window, Nat.mod_eq_of_lt inRing]

variable {size start count : Nat}

theorem window_congr {before after : Nat → α}
    (same : ∀ i < count, after ((start + i) % size) = before ((start + i) % size)) :
    window after size start count = window before size start count := by
  refine map_congr_left fun i inRange => ?_
  exact same i (mem_range.mp inRange)

/-- A window that ends inside the memory is one block. -/
theorem window_eq_slice (inside : start + count ≤ size) :
    window cells size start count = slice cells start count := by
  refine map_congr_left fun i inRange => ?_
  have below := mem_range.mp inRange
  rw [Nat.mod_eq_of_lt (by omega)]

/-- A window that reaches the end of the memory is a block there and a block at
its beginning. -/
theorem window_eq_slice_append (inRing : start < size)
    (short : count ≤ size) (wraps : size ≤ start + count) :
    window cells size start count
      = slice cells start (size - start) ++ slice cells 0 (start + count - size) := by
  have split : count = (size - start) + (start + count - size) := by omega
  have atStart : (start + (size - start)) % size = 0 := by
    rw [Nat.add_sub_cancel' (by omega), Nat.mod_self]
  calc
    window cells size start count
        = window cells size start ((size - start) + (start + count - size)) := by
          rw [← split]
    _ = window cells size start (size - start)
          ++ window cells size 0 (start + count - size) := by
          rw [window_add, atStart]
    _ = slice cells start (size - start) ++ slice cells 0 (start + count - size) := by
          rw [window_eq_slice (by omega), window_eq_slice (by omega)]

variable {words : List α}

theorem blit_at {start i : Nat} (inRange : i < words.length)
    : blit cells start words (start + i) = words[i] := by
  simp [blit, inRange]

theorem blit_outside {start k : Nat} (outside : k < start ∨ start + words.length ≤ k)
    : blit cells start words k = cells k := by
  unfold blit
  split
  · have beyond : words.length ≤ k - start := by omega
    simp [getElem?_eq_none beyond]
  · rfl

/-- Two adjacent block copies are one. -/
theorem blit_blit {start next : Nat} {first second : List α}
    (adjacent : next = start + first.length) :
    blit (blit cells start first) next second = blit cells start (first ++ second) := by
  subst adjacent
  funext k
  by_cases before : k < start
  · rw [blit_outside (.inl (by omega)), blit_outside (.inl before), blit_outside (.inl before)]
  · by_cases inFirst : k < start + first.length
    · have offset : k - start < first.length := by omega
      rw [blit_outside (.inl inFirst)]
      simp [blit, getElem?_append_left offset]
    · have offset : first.length ≤ k - start := by omega
      have shifted : k - start - first.length = k - (start + first.length) := by omega
      simp [blit, Nat.le_of_not_lt before, Nat.le_of_not_lt inFirst,
        getElem?_append_right offset, shifted, getElem?_eq_none offset]

/-- A copy over the last word of a block replaces that word. -/
theorem blit_overwrite (cells : Nat → α) (start : Nat) (words : List α) (old new : α) :
    blit (blit cells start (words ++ [old])) (start + words.length) [new]
      = blit cells start (words ++ [new]) := by
  rw [← blit_blit rfl, ← blit_blit rfl]
  funext k
  by_cases atWord : k = start + words.length
  · simp [blit, atWord]
  · have outside : k < start + words.length ∨ start + words.length + [new].length ≤ k := by
      simp only [length_singleton]
      omega
    rw [blit_outside outside, blit_outside outside, blit_outside]
    simpa using outside

@[simp]
theorem blit_nil (cells : Nat → α) (start : Nat) : blit cells start [] = cells := by
  funext k
  simp [blit]

theorem blit_singleton (cells : Nat → α) (start : Nat) (word : α) :
    blit cells start [word] = update cells start word := by
  funext k
  by_cases atWord : k = start
  · subst atWord
    simp [blit]
  · rw [update_of_ne atWord, blit_outside]
    simp only [length_singleton]
    omega

/-- Copying a word onto itself changes nothing. -/
theorem blit_self (cells : Nat → α) (start : Nat) : blit cells start [cells start] = cells := by
  funext k
  by_cases atWord : k = start
  · simp [blit, atWord]
  · rw [blit_outside]
    simp only [length_singleton]
    omega

theorem slice_blit (cells : Nat → α) (start : Nat) (words : List α) :
    slice (blit cells start words) start words.length = words := by
  refine ext_getElem (by simp [slice]) fun i _ inRange => ?_
  simp [slice, blit_at inRange]

theorem slice_congr {before after : Nat → α} {start count : Nat}
    (same : ∀ i < count, after (start + i) = before (start + i)) :
    slice after start count = slice before start count := by
  refine map_congr_left fun i inRange => ?_
  exact same i (mem_range.mp inRange)

@[simp]
theorem length_slice (cells : Nat → α) (start count : Nat) :
    (slice cells start count).length = count := by
  simp [slice]

theorem slice_add (cells : Nat → α) (start first second : Nat) :
    slice cells start (first + second)
      = slice cells start first ++ slice cells (start + first) second := by
  simp [slice, range_add, Nat.add_assoc]

theorem take_slice {start count first : Nat} (within : first ≤ count) :
    (slice cells start count).take first = slice cells start first := by
  obtain ⟨second, rfl⟩ := Nat.exists_eq_add_of_le within
  rw [slice_add, take_left' (length_slice cells start first)]

theorem drop_slice {start count first : Nat} (within : first ≤ count) :
    (slice cells start count).drop first = slice cells (start + first) (count - first) := by
  obtain ⟨second, rfl⟩ := Nat.exists_eq_add_of_le within
  rw [slice_add, drop_left' (length_slice cells start first), Nat.add_sub_cancel_left]

theorem Wrote.nil : Wrote cells cells size start [] where
  window_eq := rfl
  unchanged _ _ _ := rfl

/-- A message is written by writing its first word and, behind it, the other ones. -/
theorem Wrote.cons {cells after : Nat → α} {word : α}
    (wrote : Wrote (update cells start word) after size ((start + 1) % size) words)
    (inRing : start < size) (short : words.length + 1 ≤ size) :
    Wrote cells after size start (word :: words) := by
  have first : after start = word := by
    rw [wrote.unchanged start inRing, update_self]
    intro i below same
    rw [Nat.mod_add_mod] at same
    rcases Nat.lt_or_ge (start + 1 + i) size with inside | beyond
    · rw [Nat.mod_eq_of_lt inside] at same
      omega
    · rw [Nat.mod_eq_sub_mod beyond, Nat.mod_eq_of_lt (by omega)] at same
      omega
  constructor
  · rw [length_cons, Nat.add_comm, window_add, window_one inRing, first, wrote.window_eq]
    rfl
  · intro k inMemory apart
    rw [length_cons] at apart
    rw [wrote.unchanged k inMemory, update_of_ne]
    · intro same
      apply apart 0 (by omega)
      rw [same, Nat.add_zero, Nat.mod_eq_of_lt inRing]
    · intro i below same
      apply apart (i + 1) (by omega)
      rw [same, Nat.mod_add_mod]
      congr 1
      omega

/-- A message that ends inside the memory is written by one block copy. -/
theorem wrote_blit (inside : start + words.length ≤ size) :
    Wrote cells (blit cells start words) size start words := by
  refine ⟨?_, fun k _ apart => ?_⟩
  · rw [window_eq_slice inside, slice_blit]
  · refine blit_outside ?_
    by_contra inBlock
    refine apart (k - start) (by omega) ?_
    rw [Nat.mod_eq_of_lt (by omega)]
    omega

/-- A message that reaches the end of the memory is written by two block copies. -/
theorem wrote_blit_blit (inRing : start < size) (short : words.length ≤ size)
    (wraps : size ≤ start + words.length) :
    Wrote cells
      (blit (blit cells start (words.take (size - start))) 0 (words.drop (size - start)))
      size start words := by
  have takeLength : (words.take (size - start)).length = size - start := by
    rw [length_take, Nat.min_eq_left (by omega)]
  have dropLength : (words.drop (size - start)).length = start + words.length - size := by
    rw [length_drop]
    omega
  refine ⟨?_, fun k inMemory apart => ?_⟩
  · have tailBlock : slice (blit (blit cells start (words.take (size - start))) 0
        (words.drop (size - start))) start (size - start) = words.take (size - start) := by
      calc
        _ = slice (blit cells start (words.take (size - start))) start (size - start) :=
            slice_congr fun i below => blit_outside (.inr (by omega))
        _ = words.take (size - start) := by
            have block := slice_blit cells start (words.take (size - start))
            rwa [takeLength] at block
    have headBlock : slice (blit (blit cells start (words.take (size - start))) 0
        (words.drop (size - start))) 0 (start + words.length - size)
          = words.drop (size - start) := by
      rw [← dropLength, slice_blit]
    rw [window_eq_slice_append inRing short wraps, tailBlock, headBlock, take_append_drop]
  · rw [blit_outside, blit_outside]
    · by_contra inBlock
      refine apart (k - start) (by omega) ?_
      rw [Nat.mod_eq_of_lt (by omega)]
      omega
    · by_contra inBlock
      refine apart (size - start + k) (by omega) ?_
      have around : start + (size - start + k) = size + k := by omega
      rw [around, Nat.add_mod_left, Nat.mod_eq_of_lt inMemory]

namespace Holds

variable {cells after : Nat → α} {size rd wr : Nat} {pending words rest : List α}

theorem empty (cells : Nat → α) {size start : Nat} (inRing : start < size) :
    Holds cells size start start [] where
  rd_lt := inRing
  pending_lt := by simpa using Nat.zero_lt_of_lt inRing
  wr_eq := by simp [Nat.mod_eq_of_lt inRing]
  window_eq := rfl

section

variable (holds : Holds cells size rd wr pending)

include holds

theorem wr_lt : wr < size := by
  rw [holds.wr_eq]
  exact Nat.mod_lt _ (Nat.zero_lt_of_lt holds.rd_lt)

/-- The writer index comes after the pending words, once around at most. -/
theorem wr_cases :
    (rd + pending.length < size ∧ wr = rd + pending.length)
      ∨ (size ≤ rd + pending.length ∧ wr + size = rd + pending.length) := by
  have inRing := holds.rd_lt
  have short := holds.pending_lt
  have writer := holds.wr_eq
  by_cases inside : rd + pending.length < size
  · rw [Nat.mod_eq_of_lt inside] at writer
    exact .inl ⟨inside, writer⟩
  · rw [Nat.mod_eq_sub_mod (by omega), Nat.mod_eq_of_lt (by omega)] at writer
    omega

/-- Equal indices mean that nothing is pending. -/
theorem rd_eq_wr_iff : rd = wr ↔ pending = [] := by
  have short := holds.pending_lt
  have inRing := holds.rd_lt
  rw [← length_eq_zero_iff]
  rcases holds.wr_cases with ⟨_, writer⟩ | ⟨_, writer⟩ <;> omega

end

/-- The free space, computed from indices that are machine words. -/
theorem free_toNat {w : Nat} {rd wr size : BitVec w}
    (holds : Holds cells size.toNat rd.toNat wr.toNat pending) :
    (if rd ≤ wr then size - (wr - rd) else rd - wr).toNat = size.toNat - pending.length := by
  have short := holds.pending_lt
  have wrLt := holds.wr_lt
  by_cases ordered : rd ≤ wr
  · have used : (wr - rd).toNat = wr.toNat - rd.toNat := BitVec.toNat_sub_of_le ordered
    have within : wr - rd ≤ size := by
      rw [BitVec.le_def]
      omega
    rw [if_pos ordered, BitVec.toNat_sub_of_le within]
    rw [BitVec.le_def] at ordered
    rcases holds.wr_cases with ⟨_, writer⟩ | ⟨_, writer⟩ <;> omega
  · rw [if_neg ordered]
    rw [BitVec.le_def] at ordered
    rw [BitVec.toNat_sub_of_le (BitVec.le_def.mpr (by omega))]
    rcases holds.wr_cases with ⟨_, writer⟩ | ⟨_, writer⟩ <;> omega

/-- The words behind the writer index do not meet the pending ones. -/
theorem apart (holds : Holds cells size rd wr pending)
    (room : pending.length + words.length < size) {i j : Nat} (pendingWord : i < pending.length)
    (newWord : j < words.length) : (rd + i) % size ≠ (wr + j) % size := by
  intro same
  rw [holds.wr_eq, Nat.mod_add_mod] at same
  rw [Nat.add_assoc] at same
  have offsets : Nat.ModEq size i (pending.length + j) := Nat.ModEq.add_left_cancel' rd same
  have eqs := Nat.ModEq.eq_of_lt_of_lt offsets (by omega) (by omega)
  omega

/-- Words written behind the pending ones are pending after them. -/
theorem write (holds : Holds cells size rd wr pending) (wrote : Wrote cells after size wr words)
    (room : pending.length + words.length < size) :
    Holds after size rd ((wr + words.length) % size) (pending ++ words) where
  rd_lt := holds.rd_lt
  pending_lt := by simpa using room
  wr_eq := by
    rw [holds.wr_eq, Nat.mod_add_mod, length_append, Nat.add_assoc]
  window_eq := by
    have kept : window after size rd pending.length = pending := by
      refine Eq.trans (window_congr fun i below => ?_) holds.window_eq
      refine wrote.unchanged _ (Nat.mod_lt _ (Nat.zero_lt_of_lt holds.rd_lt)) fun j newWord => ?_
      exact holds.apart room below newWord
    rw [length_append, window_add, kept, ← holds.wr_eq, wrote.window_eq]

/-- The first pending words are the window at the reader index. -/
theorem window_front (holds : Holds cells size rd wr (words ++ rest)) :
    window cells size rd words.length = words := by
  have both := holds.window_eq
  rw [length_append, window_add] at both
  exact (append_inj both (by simp)).1

/-- Reading past the first pending words leaves the other ones. -/
theorem read (holds : Holds cells size rd wr (words ++ rest)) :
    Holds cells size ((rd + words.length) % size) wr rest where
  rd_lt := Nat.mod_lt _ (Nat.zero_lt_of_lt holds.rd_lt)
  pending_lt := by
    have short := holds.pending_lt
    rw [length_append] at short
    omega
  wr_eq := by
    rw [holds.wr_eq, Nat.mod_add_mod, length_append, Nat.add_assoc]
  window_eq := by
    have both := holds.window_eq
    rw [length_append, window_add] at both
    exact (append_inj both (by simp)).2

end Holds

end Sm8650.Ring
