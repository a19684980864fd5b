import Mathlib.Order.Interval.Finset.Nat

/-!
# Chains in a table

A table of `total` slots keeps doubly linked lists in its own slots. Slot 0
is never used and stands for the end of a list. The slots below `base` are
the heads; every other used slot hangs behind exactly one predecessor.

`Linked` states the invariant locally, with two ghost functions: a rank that
grows along the links and the head of each slot's chain. Being local, it is
preserved by each of the four ways in which a table changes, and the global
picture (finite chains without repetition, one for each head) follows from it.
-/

namespace Sm8650.Chains

open Function List

/-- The links of a table. -/
structure Links where
  used : Nat → Bool
  next : Nat → Nat
  prev : Nat → Nat

/-- The local invariant, with a rank and the head of each used slot. -/
structure Linked (base total : Nat) (links : Links) (rank head : Nat → Nat) : Prop where
  inside : ∀ i, links.used i = true → 0 < i ∧ i < total
  idleNext : ∀ i, links.used i = false → links.next i = 0
  idlePrev : ∀ i, links.used i = false → i < base → links.prev i = 0
  nextUsed : ∀ i, links.used i = true → links.next i ≠ 0 →
    links.used (links.next i) = true ∧ base ≤ links.next i ∧ links.prev (links.next i) = i
  atHead : ∀ i, links.used i = true → i < base → links.prev i = 0 ∧ head i = i
  behind : ∀ i, links.used i = true → base ≤ i →
    links.used (links.prev i) = true ∧ links.next (links.prev i) = i ∧
      rank (links.prev i) < rank i ∧ head i = head (links.prev i)

/-- The slots met by following `next` from a slot, up to the end of the list. -/
inductive Follows (next : Nat → Nat) : Nat → List Nat → Prop
  | last {i : Nat} (ends : next i = 0) : Follows next i [i]
  | step {i : Nat} {rest : List Nat} (continues : next i ≠ 0)
      (follows : Follows next (next i) rest) : Follows next i (i :: rest)

/-- The chain invariant as a statement about whole lists. -/
structure WellChained (base total : Nat) (links : Links) : Prop where
  zeroUnused : links.used 0 = false
  chain : ∀ i < base, links.used i = true →
    ∃ rest, Follows links.next i (i :: rest) ∧ (i :: rest).Nodup ∧
      ∀ j ∈ rest, base ≤ j ∧ j < total ∧ links.used j = true
  headPrev : ∀ i < base, links.used i = true → links.prev i = 0
  backLink : ∀ i, links.used i = true → links.next i ≠ 0 → links.prev (links.next i) = i
  onOneChain : ∀ j, base ≤ j → links.used j = true →
    ∃! i, i < base ∧ links.used i = true ∧ ∃ slots, Follows links.next i slots ∧ j ∈ slots

variable {base total : Nat} {links : Links} {rank head : Nat → Nat}

/-! ## From the local to the global invariant -/

namespace Linked

section

variable (linked : Linked base total links rank head)

include linked

theorem used_zero : links.used 0 = false := by
  cases used : links.used 0 with
  | false => rfl
  | true => exact absurd (linked.inside 0 used).1 (Nat.lt_irrefl 0)

theorem rank_lt_next {i : Nat} (used : links.used i = true) (continues : links.next i ≠ 0) :
    rank i < rank (links.next i) ∧ head (links.next i) = head i := by
  obtain ⟨nextUsed, expansion, back⟩ := linked.nextUsed i used continues
  obtain ⟨_, _, grows, sameHead⟩ := linked.behind _ nextUsed expansion
  rw [back] at grows sameHead
  exact ⟨grows, sameHead⟩

/-- Every used slot starts a finite list of used slots of growing rank, with
one head. -/
theorem exists_follows {i : Nat} (used : links.used i = true) :
    ∃ rest, Follows links.next i (i :: rest) ∧
      ∀ j ∈ rest, links.used j = true ∧ base ≤ j ∧ rank i < rank j ∧ head j = head i := by
  have bounded : ∀ j, links.used j = true → rank j ≤ (Finset.range total).sup rank := by
    intro j usedJ
    exact Finset.le_sup (Finset.mem_range.mpr (linked.inside j usedJ).2)
  generalize limit : (Finset.range total).sup rank = bound at bounded
  induction distance : bound - rank i using Nat.strong_induction_on generalizing i with
  | h distance ih =>
    by_cases ends : links.next i = 0
    · exact ⟨[], Follows.last ends, by simp⟩
    · obtain ⟨nextUsed, expansion, _⟩ := linked.nextUsed i used ends
      obtain ⟨grows, sameHead⟩ := linked.rank_lt_next used ends
      have nextBound := bounded _ nextUsed
      obtain ⟨rest, follows, members⟩ :=
        ih (bound - rank (links.next i)) (by omega) nextUsed rfl
      refine ⟨links.next i :: rest, Follows.step ends follows, ?_⟩
      intro j member
      rcases mem_cons.mp member with rfl | inRest
      · exact ⟨nextUsed, expansion, grows, sameHead⟩
      · obtain ⟨usedJ, expansionJ, growsJ, headJ⟩ := members j inRest
        exact ⟨usedJ, expansionJ, Nat.lt_trans grows growsJ, headJ.trans sameHead⟩

end

end Linked

namespace Follows

variable {next : Nat → Nat}

theorem unique {i : Nat} {first second : List Nat} (left : Follows next i first)
    (right : Follows next i second) : first = second := by
  induction left generalizing second with
  | last ends =>
    cases right with
    | last _ => rfl
    | step continues _ => exact absurd ends continues
  | step continues _ ih =>
    cases right with
    | last ends => exact absurd ends continues
    | step _ follows => rw [ih follows]

theorem mem_self {i : Nat} {slots : List Nat} (follows : Follows next i slots) : i ∈ slots := by
  cases follows with
  | last _ => exact mem_singleton_self _
  | step _ _ => exact mem_cons_self

/-- The list contains the successor of each of its members. -/
theorem mem_next {i j : Nat} {slots : List Nat} (follows : Follows next i slots)
    (member : j ∈ slots) (continues : next j ≠ 0) : next j ∈ slots := by
  induction follows with
  | last ends =>
    rw [mem_singleton] at member
    subst member
    exact absurd ends continues
  | step _ rest ih =>
    rcases mem_cons.mp member with rfl | inRest
    · exact mem_cons_of_mem _ rest.mem_self
    · exact mem_cons_of_mem _ (ih inRest)

end Follows

namespace Linked

section

variable (linked : Linked base total links rank head)

include linked

theorem nodup_of_follows {i : Nat} {slots : List Nat} (used : links.used i = true)
    (follows : Follows links.next i slots) : slots.Nodup := by
  induction follows with
  | last _ => exact nodup_singleton _
  | @step i rest continues follows ih =>
    have nextUsed := (linked.nextUsed i used continues).1
    refine nodup_cons.mpr ⟨?_, ih nextUsed⟩
    intro member
    obtain ⟨others, own, members⟩ := linked.exists_follows used
    have same := own.unique (Follows.step continues follows)
    rw [(cons.inj same).2] at members
    exact Nat.lt_irrefl _ (members i member).2.2.1

/-- A used slot behind a head lies on the chain of its head. -/
theorem exists_head {j : Nat} (used : links.used j = true) :
    head j < base ∧ links.used (head j) = true ∧
      ∃ slots, Follows links.next (head j) slots ∧ j ∈ slots := by
  induction grade : rank j using Nat.strong_induction_on generalizing j with
  | h grade ih =>
    by_cases atBase : j < base
    · obtain ⟨_, own⟩ := linked.atHead j used atBase
      obtain ⟨rest, follows, _⟩ := linked.exists_follows used
      rw [own]
      exact ⟨atBase, used, _, follows, mem_cons_self⟩
    · obtain ⟨prevUsed, forward, grows, sameHead⟩ :=
        linked.behind j used (Nat.le_of_not_lt atBase)
      obtain ⟨headBase, headUsed, slots, follows, member⟩ :=
        ih _ (grade ▸ grows) prevUsed rfl
      have notZero : links.next (links.prev j) ≠ 0 := by
        rw [forward]
        exact Nat.pos_iff_ne_zero.mp (linked.inside j used).1
      rw [sameHead]
      refine ⟨headBase, headUsed, slots, follows, ?_⟩
      have onward := follows.mem_next member notZero
      rwa [forward] at onward

/-- The local invariant gives the statement about whole chains. -/
theorem wellChained : WellChained base total links where
  zeroUnused := linked.used_zero
  chain := by
    intro i _ used
    obtain ⟨rest, follows, members⟩ := linked.exists_follows used
    refine ⟨rest, follows, linked.nodup_of_follows used follows, ?_⟩
    intro j member
    obtain ⟨usedJ, expansion, _, _⟩ := members j member
    exact ⟨expansion, (linked.inside j usedJ).2, usedJ⟩
  headPrev := fun i atBase used => (linked.atHead i used atBase).1
  backLink := fun i used continues => (linked.nextUsed i used continues).2.2
  onOneChain := by
    intro j _ used
    obtain ⟨headBase, headUsed, slots, follows, member⟩ := linked.exists_head used
    refine ⟨head j, ⟨headBase, headUsed, slots, follows, member⟩, ?_⟩
    rintro i ⟨atBase, usedI, others, othersFollow, othersMember⟩
    obtain ⟨_, own⟩ := linked.atHead i usedI atBase
    obtain ⟨rest, restFollows, members⟩ := linked.exists_follows usedI
    rw [othersFollow.unique restFollows] at othersMember
    rcases mem_cons.mp othersMember with rfl | inRest
    · exact own.symm
    · rw [(members j inRest).2.2.2, own]

end

end Linked

/-! ## The four changes of a table -/

namespace Linked

variable {changed : Links}

section

variable (linked : Linked base total links rank head)

include linked

/-- A free base slot becomes a head of its own. -/
theorem insertHead {slot : Nat}
    (positive : 0 < slot) (atBase : slot < base) (inTable : slot < total)
    (free : links.used slot = false)
    (usedEq : ∀ i, changed.used i = (links.used i || decide (i = slot)))
    (nextEq : ∀ i, changed.next i = links.next i) (prevEq : ∀ i, changed.prev i = links.prev i) :
    Linked base total changed rank (update head slot slot) := by
  have wasUsed : ∀ i, i ≠ slot → changed.used i = links.used i := by
    intro i different
    simp [usedEq, different]
  refine ⟨?_, ?_, ?_, ?_, ?_, ?_⟩
  · intro i used
    by_cases same : i = slot
    · subst same
      exact ⟨positive, inTable⟩
    · exact linked.inside i (wasUsed i same ▸ used)
  · intro i idle
    by_cases same : i = slot
    · simp [usedEq, same] at idle
    · rw [nextEq]
      exact linked.idleNext i (wasUsed i same ▸ idle)
  · intro i idle below
    by_cases same : i = slot
    · simp [usedEq, same] at idle
    · rw [prevEq]
      exact linked.idlePrev i (wasUsed i same ▸ idle) below
  · intro i used continues
    rw [nextEq] at continues
    have different : i ≠ slot := by
      rintro rfl
      exact continues (linked.idleNext i free)
    obtain ⟨nextUsed, expansion, back⟩ :=
      linked.nextUsed i (wasUsed i different ▸ used) continues
    rw [nextEq, prevEq]
    exact ⟨by simp [usedEq, nextUsed], expansion, back⟩
  · intro i used below
    rw [prevEq]
    by_cases same : i = slot
    · subst same
      exact ⟨linked.idlePrev i free below, update_self ..⟩
    · rw [update_of_ne same]
      exact linked.atHead i (wasUsed i same ▸ used) below
  · intro i used expansion
    have different : i ≠ slot := by omega
    obtain ⟨prevUsed, forward, grows, sameHead⟩ :=
      linked.behind i (wasUsed i different ▸ used) expansion
    have prevDifferent : links.prev i ≠ slot := by
      intro same
      rw [same, free] at prevUsed
      cases prevUsed
    rw [prevEq, nextEq, update_of_ne different, update_of_ne prevDifferent]
    exact ⟨by simp [usedEq, prevUsed], forward, grows, sameHead⟩

/-- A free expansion slot is appended behind the last slot of a chain. -/
theorem appendTail {last slot : Nat}
    (lastUsed : links.used last = true) (lastEnds : links.next last = 0)
    (expansion : base ≤ slot) (inTable : slot < total) (positive : 0 < slot)
    (free : links.used slot = false)
    (usedEq : ∀ i, changed.used i = (links.used i || decide (i = slot)))
    (nextEq : ∀ i, changed.next i = if i = last then slot else links.next i)
    (prevEq : ∀ i, changed.prev i = if i = slot then last else links.prev i) :
    Linked base total changed (update rank slot (rank last + 1))
      (update head slot (head last)) := by
  have wasUsed : ∀ i, i ≠ slot → changed.used i = links.used i := by
    intro i different
    simp [usedEq, different]
  have lastDifferent : last ≠ slot := by
    rintro rfl
    rw [free] at lastUsed
    cases lastUsed
  have notPointed : ∀ i, links.used i = true → links.next i ≠ slot := by
    intro i used points
    have continues : links.next i ≠ 0 := by omega
    have nextUsed := (linked.nextUsed i used continues).1
    rw [points, free] at nextUsed
    cases nextUsed
  refine ⟨?_, ?_, ?_, ?_, ?_, ?_⟩
  · intro i used
    by_cases same : i = slot
    · subst same
      exact ⟨positive, inTable⟩
    · exact linked.inside i (wasUsed i same ▸ used)
  · intro i idle
    by_cases same : i = slot
    · simp [usedEq, same] at idle
    · have wasIdle := wasUsed i same ▸ idle
      have different : i ≠ last := by
        rintro rfl
        rw [lastUsed] at wasIdle
        cases wasIdle
      rw [nextEq, if_neg different]
      exact linked.idleNext i wasIdle
  · intro i idle below
    have different : i ≠ slot := by omega
    rw [prevEq, if_neg different]
    exact linked.idlePrev i (wasUsed i different ▸ idle) below
  · intro i used continues
    rw [nextEq] at continues ⊢
    by_cases same : i = last
    · subst same
      rw [if_pos rfl, prevEq, if_pos rfl]
      exact ⟨by simp [usedEq], expansion, rfl⟩
    · rw [if_neg same] at continues ⊢
      have different : i ≠ slot := by
        rintro rfl
        exact continues (linked.idleNext i free)
      have wasI := wasUsed i different ▸ used
      obtain ⟨nextUsed, nextExpansion, back⟩ := linked.nextUsed i wasI continues
      rw [prevEq, if_neg (notPointed i wasI)]
      exact ⟨by simp [usedEq, nextUsed], nextExpansion, back⟩
  · intro i used below
    have different : i ≠ slot := by omega
    rw [prevEq, if_neg different, update_of_ne different]
    exact linked.atHead i (wasUsed i different ▸ used) below
  · intro i used expansionI
    by_cases same : i = slot
    · subst same
      rw [prevEq, if_pos rfl, nextEq, if_pos rfl, update_of_ne lastDifferent,
        update_self, update_self, update_of_ne lastDifferent]
      exact ⟨by simp [usedEq, lastUsed], rfl, Nat.lt_succ_self _, rfl⟩
    · obtain ⟨prevUsed, forward, grows, sameHead⟩ :=
        linked.behind i (wasUsed i same ▸ used) expansionI
      have prevDifferent : links.prev i ≠ slot := by
        intro points
        rw [points, free] at prevUsed
        cases prevUsed
      have notLast : links.prev i ≠ last := by
        intro points
        have continues := (linked.inside i (wasUsed i same ▸ used)).1
        rw [points] at forward
        omega
      rw [prevEq, if_neg same, nextEq, if_neg notLast,
        update_of_ne prevDifferent, update_of_ne same,
        update_of_ne same, update_of_ne prevDifferent]
      exact ⟨by simp [usedEq, prevUsed], forward, grows, sameHead⟩

/-- A head without successor becomes free. -/
theorem removeHead {slot : Nat} (used : links.used slot = true) (atBase : slot < base)
    (ends : links.next slot = 0)
    (usedEq : ∀ i, changed.used i = (links.used i && decide (i ≠ slot)))
    (nextEq : ∀ i, changed.next i = links.next i) (prevEq : ∀ i, changed.prev i = links.prev i) :
    Linked base total changed rank head := by
  have stillUsed : ∀ i, changed.used i = true → links.used i = true ∧ i ≠ slot := by simp [usedEq]
  have keeps : ∀ i, links.used i = true → i ≠ slot → changed.used i = true := by
    intro i isUsed different
    simp [usedEq, isUsed, different]
  have headPrev := (linked.atHead slot used atBase).1
  refine ⟨?_, ?_, ?_, ?_, ?_, ?_⟩
  · intro i isUsed
    exact linked.inside i (stillUsed i isUsed).1
  · intro i idle
    rw [nextEq]
    by_cases same : i = slot
    · rw [same, ends]
    · refine linked.idleNext i ?_
      simpa [usedEq, same] using idle
  · intro i idle below
    rw [prevEq]
    by_cases same : i = slot
    · rw [same, headPrev]
    · refine linked.idlePrev i ?_ below
      simpa [usedEq, same] using idle
  · intro i isUsed continues
    rw [nextEq] at continues ⊢
    rw [prevEq]
    obtain ⟨nextUsed, expansion, back⟩ :=
      linked.nextUsed i (stillUsed i isUsed).1 continues
    exact ⟨keeps _ nextUsed (by omega), expansion, back⟩
  · intro i isUsed below
    rw [prevEq]
    exact linked.atHead i (stillUsed i isUsed).1 below
  · intro i isUsed expansion
    obtain ⟨prevUsed, forward, grows, sameHead⟩ :=
      linked.behind i (stillUsed i isUsed).1 expansion
    have prevDifferent : links.prev i ≠ slot := by
      intro points
      rw [points] at forward
      omega
    rw [prevEq, nextEq]
    exact ⟨keeps _ prevUsed prevDifferent, forward, grows, sameHead⟩

/-- A slot behind a head is taken out of its chain. -/
theorem splice {slot : Nat} (used : links.used slot = true) (expansion : base ≤ slot)
    (usedEq : ∀ i, changed.used i = (links.used i && decide (i ≠ slot)))
    (nextEq : ∀ i, changed.next i =
      if i = slot then 0 else if i = links.prev slot then links.next slot else links.next i)
    (prevEq : ∀ i, i ≠ slot → changed.prev i =
      if i = links.next slot ∧ links.next slot ≠ 0 then links.prev slot
      else links.prev i) : Linked base total changed rank head := by
  have stillUsed : ∀ i, changed.used i = true → links.used i = true ∧ i ≠ slot := by simp [usedEq]
  have keeps : ∀ i, links.used i = true → i ≠ slot → changed.used i = true := by
    intro i isUsed different
    simp [usedEq, isUsed, different]
  obtain ⟨prevUsed, prevForward, prevGrows, prevHead⟩ := linked.behind slot used expansion
  have slotPositive := (linked.inside slot used).1
  have prevDifferent : links.prev slot ≠ slot := by
    intro same
    rw [same] at prevGrows
    exact Nat.lt_irrefl _ prevGrows
  have nextDifferent : links.next slot ≠ 0 → links.next slot ≠ slot := by
    intro continues same
    have grows := (linked.rank_lt_next used continues).1
    rw [same] at grows
    exact Nat.lt_irrefl _ grows
  have onlyPrev : ∀ i, links.used i = true → links.next i = slot → i = links.prev slot := by
    intro i isUsed points
    have back := (linked.nextUsed i isUsed (by omega)).2.2
    rw [points] at back
    exact back.symm
  refine ⟨?_, ?_, ?_, ?_, ?_, ?_⟩
  · intro i isUsed
    exact linked.inside i (stillUsed i isUsed).1
  · intro i idle
    rw [nextEq]
    by_cases same : i = slot
    · rw [if_pos same]
    · have wasIdle : links.used i = false := by simpa [usedEq, same] using idle
      have notPrev : i ≠ links.prev slot := by
        rintro rfl
        rw [prevUsed] at wasIdle
        cases wasIdle
      rw [if_neg same, if_neg notPrev]
      exact linked.idleNext i wasIdle
  · intro i idle below
    have different : i ≠ slot := by omega
    have wasIdle : links.used i = false := by simpa [usedEq, different] using idle
    have notNext : ¬ (i = links.next slot ∧ links.next slot ≠ 0) := by
      rintro ⟨same, continues⟩
      have nextUsed := (linked.nextUsed slot used continues).1
      rw [← same, wasIdle] at nextUsed
      cases nextUsed
    rw [prevEq i different, if_neg notNext]
    exact linked.idlePrev i wasIdle below
  · intro i isUsed continues
    obtain ⟨wasUsed, different⟩ := stillUsed i isUsed
    rw [nextEq, if_neg different] at continues ⊢
    by_cases isPrev : i = links.prev slot
    · rw [if_pos isPrev] at continues ⊢
      obtain ⟨nextUsed, nextExpansion, _⟩ := linked.nextUsed slot used continues
      have nextNe := nextDifferent continues
      rw [prevEq _ nextNe, if_pos ⟨rfl, continues⟩]
      exact ⟨keeps _ nextUsed nextNe, nextExpansion, isPrev.symm⟩
    · rw [if_neg isPrev] at continues ⊢
      obtain ⟨nextUsed, nextExpansion, back⟩ := linked.nextUsed i wasUsed continues
      have nextNe : links.next i ≠ slot := fun points => isPrev (onlyPrev i wasUsed points)
      have notBehind : ¬ (links.next i = links.next slot ∧ links.next slot ≠ 0) := by
        rintro ⟨same, _⟩
        have slotBack := (linked.nextUsed slot used (same ▸ continues)).2.2
        rw [← same, back] at slotBack
        exact different slotBack
      rw [prevEq _ nextNe, if_neg notBehind]
      exact ⟨keeps _ nextUsed nextNe, nextExpansion, back⟩
  · intro i isUsed below
    obtain ⟨wasUsed, different⟩ := stillUsed i isUsed
    have notNext : ¬ (i = links.next slot ∧ links.next slot ≠ 0) := by
      rintro ⟨same, continues⟩
      have nextExpansion := (linked.nextUsed slot used continues).2.1
      omega
    rw [prevEq i different, if_neg notNext]
    exact linked.atHead i wasUsed below
  · intro i isUsed expansionI
    obtain ⟨wasUsed, different⟩ := stillUsed i isUsed
    obtain ⟨iPrevUsed, forward, grows, sameHead⟩ := linked.behind i wasUsed expansionI
    by_cases isNext : i = links.next slot ∧ links.next slot ≠ 0
    · obtain ⟨slotGrows, slotHead⟩ := linked.rank_lt_next used isNext.2
      rw [prevEq i different, if_pos isNext, nextEq, if_neg prevDifferent, if_pos rfl]
      rw [← isNext.1] at slotGrows slotHead
      exact ⟨keeps _ prevUsed prevDifferent, isNext.1.symm, Nat.lt_trans prevGrows slotGrows,
        slotHead.trans prevHead⟩
    · rw [prevEq i different, if_neg isNext]
      have prevNe : links.prev i ≠ slot := by
        intro points
        rw [points] at forward
        exact isNext ⟨forward.symm, by have := (linked.inside i wasUsed).1; omega⟩
      have notPrev : links.prev i ≠ links.prev slot := by
        intro same
        rw [same, prevForward] at forward
        exact different forward.symm
      rw [nextEq, if_neg prevNe, if_neg notPrev]
      exact ⟨keeps _ iPrevUsed prevNe, forward, grows, sameHead⟩

/-- Free slots may be rewritten as long as they stay free and unlinked. -/
theorem congr_used (usedEq : ∀ i, changed.used i = links.used i)
    (nextEq : ∀ i, changed.next i = links.next i)
    (prevEq : ∀ i, (links.used i = true ∨ i < base) → changed.prev i = links.prev i) :
    Linked base total changed rank head := by
  refine ⟨?_, ?_, ?_, ?_, ?_, ?_⟩
  · intro i used
    exact linked.inside i (usedEq i ▸ used)
  · intro i idle
    rw [nextEq]
    exact linked.idleNext i (usedEq i ▸ idle)
  · intro i idle below
    rw [prevEq i (.inr below)]
    exact linked.idlePrev i (usedEq i ▸ idle) below
  · intro i used continues
    rw [nextEq] at continues ⊢
    obtain ⟨nextUsed, expansion, back⟩ := linked.nextUsed i (usedEq i ▸ used) continues
    rw [usedEq, prevEq _ (.inl nextUsed)]
    exact ⟨nextUsed, expansion, back⟩
  · intro i used below
    rw [prevEq i (.inr below)]
    exact linked.atHead i (usedEq i ▸ used) below
  · intro i used expansion
    have wasUsed : links.used i = true := usedEq i ▸ used
    rw [prevEq i (.inl wasUsed), usedEq, nextEq]
    exact linked.behind i wasUsed expansion

end

end Linked

/-! ## Counting used slots -/

/-- The number of used slots from `lo` up to `hi`. -/
def countUsed (used : Nat → Bool) (lo hi : Nat) : Nat :=
  ((Finset.Ico lo hi).filter fun i => used i = true).card

variable {used changed : Nat → Bool} {lo hi slot : Nat}

theorem countUsed_congr (same : ∀ i, lo ≤ i → i < hi → changed i = used i) :
    countUsed changed lo hi = countUsed used lo hi := by
  unfold countUsed
  congr 1
  refine Finset.filter_congr ?_
  intro i member
  rw [Finset.mem_Ico] at member
  rw [same i member.1 member.2]

/-- One more used slot. -/
theorem countUsed_insert (free : used slot = false) (inRange : lo ≤ slot ∧ slot < hi)
    (changedEq : ∀ i, changed i = (used i || decide (i = slot))) :
    countUsed changed lo hi = countUsed used lo hi + 1 := by
  unfold countUsed
  have inserted : ((Finset.Ico lo hi).filter fun i => changed i = true) =
      insert slot ((Finset.Ico lo hi).filter fun i => used i = true) := by
    ext i
    simp only [Finset.mem_filter, Finset.mem_insert, Finset.mem_Ico, changedEq,
      Bool.or_eq_true, decide_eq_true_eq]
    constructor
    · rintro ⟨bounds, isUsed | same⟩
      · exact .inr ⟨bounds, isUsed⟩
      · exact .inl same
    · rintro (rfl | ⟨bounds, isUsed⟩)
      · exact ⟨inRange, .inr rfl⟩
      · exact ⟨bounds, .inl isUsed⟩
  rw [inserted]
  simp [free]

/-- One used slot less. -/
theorem countUsed_erase (isUsed : used slot = true) (inRange : lo ≤ slot ∧ slot < hi)
    (changedEq : ∀ i, changed i = (used i && decide (i ≠ slot))) :
    countUsed changed lo hi + 1 = countUsed used lo hi := by
  have restored : ∀ i, used i = (changed i || decide (i = slot)) := by
    intro i
    by_cases same : i = slot
    · simp [same, isUsed]
    · simp [changedEq, same]
  have free : changed slot = false := by simp [changedEq]
  exact (countUsed_insert free inRange restored).symm

/-- A slot outside the range does not count. -/
theorem countUsed_of_outside (outside : ¬ (lo ≤ slot ∧ slot < hi))
    (elsewhere : ∀ i, i ≠ slot → changed i = used i) :
    countUsed changed lo hi = countUsed used lo hi := by
  refine countUsed_congr ?_
  intro i atLeast below
  refine elsewhere i ?_
  rintro rfl
  exact outside ⟨atLeast, below⟩

end Sm8650.Chains
