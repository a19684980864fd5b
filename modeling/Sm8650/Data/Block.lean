import Sm8650.Data.Ring

/-!
# Blocks of memory

What a memory holds from an address on, as a list, and what block copies within one
memory make of it. The source and the target of a copy may overlap, as they may for
`memmove`.
-/

namespace Sm8650.Ring

open Function

universe u

variable {α : Type u}

/-- The memory holds `words` from `start` on. -/
def Reads (cells : Nat → α) (start : Nat) (words : List α) : Prop :=
  slice cells start words.length = words

/-- Two memories agree from `start` up to `stop`. -/
def AgreeOn (before after : Nat → α) (start stop : Nat) : Prop :=
  ∀ k, start ≤ k → k < stop → after k = before k

theorem AgreeOn.trans {first second third : Nat → α} {start stop : Nat}
    (before : AgreeOn first second start stop) (after : AgreeOn second third start stop) :
    AgreeOn first third start stop := by
  intro k low high
  rw [after k low high, before k low high]

theorem AgreeOn.mono {before after : Nat → α} {start stop start' stop' : Nat}
    (agree : AgreeOn before after start stop) (low : start ≤ start') (high : stop' ≤ stop) :
    AgreeOn before after start' stop' := by
  intro k above under
  exact agree k (Nat.le_trans low above) (Nat.lt_of_lt_of_le under high)

theorem agreeOn_blit (cells : Nat → α) {start stop at' : Nat} {words : List α}
    (apart : stop ≤ at' ∨ at' + words.length ≤ start) :
    AgreeOn cells (blit cells at' words) start stop := by
  intro k above under
  apply blit_outside
  omega

theorem agreeOn_update (cells : Nat → α) {start stop at' : Nat} (word : α)
    (apart : stop ≤ at' ∨ at' < start) : AgreeOn cells (update cells at' word) start stop := by
  intro k above under
  rw [update_of_ne]
  omega

namespace Reads

variable {cells after : Nat → α} {start : Nat} {words rest : List α}

theorem nil (cells : Nat → α) (start : Nat) : Reads cells start [] := rfl

theorem congr (reads : Reads cells start words)
    (agree : AgreeOn cells after start (start + words.length)) : Reads after start words := by
  unfold Reads at reads ⊢
  rw [← reads, length_slice]
  apply slice_congr
  intro i bound
  exact agree (start + i) (Nat.le_add_right _ _) (by omega)

theorem append_iff :
    Reads cells start (words ++ rest) ↔
      Reads cells start words ∧ Reads cells (start + words.length) rest := by
  unfold Reads
  rw [List.length_append, slice_add]
  constructor
  · intro equal
    exact List.append_inj equal (length_slice ..)
  · rintro ⟨first, second⟩
    rw [first, second]

theorem cons_iff {word : α} :
    Reads cells start (word :: words) ↔ cells start = word ∧ Reads cells (start + 1) words := by
  rw [show word :: words = [word] ++ words from rfl, append_iff]
  have single : Reads cells start [word] ↔ cells start = word := by
    unfold Reads
    simp [slice]
  rw [single, List.length_singleton]

theorem drop (reads : Reads cells start words) {count : Nat} (within : count ≤ words.length) :
    Reads cells (start + count) (words.drop count) := by
  have split : Reads cells start (words.take count ++ words.drop count) := by
    rwa [List.take_append_drop]
  have second := (append_iff.mp split).2
  rwa [List.length_take_of_le within] at second

theorem drop_left (reads : Reads cells start (words ++ rest)) {count : Nat}
    (within : count ≤ words.length) : Reads cells (start + count) (words.drop count ++ rest) := by
  have inside : count ≤ (words ++ rest).length := by
    rw [List.length_append]
    omega
  have dropped := reads.drop inside
  rwa [List.drop_append_of_le_length within] at dropped

theorem blit_self (cells : Nat → α) (start : Nat) (words : List α) :
    Reads (blit cells start words) start words :=
  slice_blit cells start words

/-- A block copy from another place of the same memory, or of another one. -/
theorem move {target : Nat → α} {dst count : Nat} (reads : Reads cells start words)
    (length : words.length = count) :
    Reads (Ring.blit target dst (slice cells start count)) dst words := by
  rw [← length, reads]
  exact blit_self target dst words

end Reads

end Sm8650.Ring
