import Sm8650.Data.Chains
import Sm8650.IpaNat.Driver

/-!
# Edits of a table

Adding and deleting rules changes a table in five ways: a head appears, a record
is appended behind a list, a head disappears, a record is taken out of its list,
and a record is rewritten in place. Each is an edit here, generic in the
record, and each keeps the table sound: its records form chains and its
counters count them.
-/

namespace Sm8650.IpaNat

open Chains Function EntryInterface

variable {ρ υ : Type} [EntryInterface ρ υ]

/-- What a DMA command for the next index does to a record. -/
def setNext (entry : ρ) (nextIndex : Nat) : ρ :=
  dmaWrite entry (helpOffset ρ .updateEntry) nextIndex

/-- The laws that the two kinds of records have in common. -/
class LawfulEntryInterface (ρ : Type) {υ : Type} [EntryInterface ρ υ] : Prop where
  helpOffset_lt : ∀ help, helpOffset ρ help < entrySize ρ
  types_ne : tableType ρ ≠ expnTableType ρ
  zeroed_invalid : entryIsValid (zeroed : ρ) = false
  zeroed_next : entryGetNextIndex (zeroed : ρ) = 0
  zeroed_prev : ∀ index expnMeta base, index < base →
    entryGetPrevIndex (zeroed : ρ) index expnMeta base = 0
  valid_setNext : ∀ (entry : ρ) nextIndex, entryIsValid (setNext entry nextIndex) =
    entryIsValid entry
  next_setNext : ∀ (entry : ρ) nextIndex, entryGetNextIndex (setNext entry nextIndex) = nextIndex
  prev_setNext : ∀ (entry : ρ) nextIndex index expnMeta base,
    entryGetPrevIndex (setNext entry nextIndex) index expnMeta base =
      entryGetPrevIndex entry index expnMeta base
  valid_setPrev : ∀ (entry : ρ) index prevIndex expnMeta base,
    entryIsValid (entrySetPrevIndex entry index prevIndex expnMeta base).1 =
      entryIsValid entry
  next_setPrev : ∀ (entry : ρ) index prevIndex expnMeta base,
    entryGetNextIndex (entrySetPrevIndex entry index prevIndex expnMeta base).1 =
      entryGetNextIndex entry
  prev_setPrev : ∀ (entry : ρ) index prevIndex expnMeta base, base ≤ index →
    entryGetPrevIndex
        (entrySetPrevIndex entry index prevIndex expnMeta base).1 index
        (entrySetPrevIndex entry index prevIndex expnMeta base).2 base =
      prevIndex
  prev_setPrev_other : ∀ (entry other : ρ) index prevIndex expnMeta base otherIndex,
    otherIndex ≠ index → base ≤ index →
      entryGetPrevIndex other otherIndex
          (entrySetPrevIndex entry index prevIndex expnMeta base).2 base =
        entryGetPrevIndex other otherIndex expnMeta base

instance : LawfulEntryInterface IpaNatRule where
  helpOffset_lt := by intro help; cases help <;> decide
  types_ne := by decide
  zeroed_invalid := rfl
  zeroed_next := rfl
  zeroed_prev := by intros; rfl
  valid_setNext := by intros; rfl
  next_setNext := by intros; rfl
  prev_setNext := by intros; rfl
  valid_setPrev := by intros; rfl
  next_setPrev := by intros; rfl
  prev_setPrev := by intros; rfl
  prev_setPrev_other := by intros; rfl

instance : LawfulEntryInterface IpaNatIndxTblRule where
  helpOffset_lt := by intro help; cases help <;> decide
  types_ne := by decide
  zeroed_invalid := rfl
  zeroed_next := rfl
  zeroed_prev := by
    intro index expnMeta base below
    exact if_neg (Nat.not_le_of_lt below)
  valid_setNext := by intros; rfl
  next_setNext := by intros; rfl
  prev_setNext := by intros; rfl
  valid_setPrev := by
    intro entry index prevIndex expnMeta base
    simp only [entrySetPrevIndex]
    split <;> rfl
  next_setPrev := by
    intro entry index prevIndex expnMeta base
    simp only [entrySetPrevIndex]
    split <;> rfl
  prev_setPrev := by
    intro entry index prevIndex expnMeta base inExpansion
    simp [entrySetPrevIndex, entryGetPrevIndex, inExpansion]
  prev_setPrev_other := by
    intro entry other index prevIndex expnMeta base otherIndex different inExpansion
    simp only [entrySetPrevIndex, entryGetPrevIndex, if_pos inExpansion]
    by_cases otherExpansion : base ≤ otherIndex
    · rw [if_pos otherExpansion, if_pos otherExpansion, update_of_ne]
      omega
    · rw [if_neg otherExpansion, if_neg otherExpansion]

namespace IpaTable

omit [EntryInterface ρ υ] in
@[simp]
theorem store_size (table : IpaTable ρ) (index : Nat) (entry : ρ) :
    (table.store index entry).size = table.size := rfl

omit [EntryInterface ρ υ] in
@[simp]
theorem store_records (table : IpaTable ρ) (index : Nat) (entry : ρ) :
    (table.store index entry).records = update table.records index entry := rfl

omit [EntryInterface ρ υ] in
@[simp]
theorem store_expnMeta (table : IpaTable ρ) (index : Nat) (entry : ρ) :
    (table.store index entry).expnMeta = table.expnMeta := rfl

/-- The links of a table, as the interface reads them. -/
def links (table : IpaTable ρ) : Links where
  used := fun i => entryIsValid (table.records i)
  next := fun i => entryGetNextIndex (table.records i)
  prev := fun i =>
    entryGetPrevIndex (table.records i) i table.expnMeta table.size.tableEntries

/-- The records form chains and the counters count them. -/
structure Sound (table : IpaTable ρ) (rank head : Nat → Nat) : Prop where
  linked : Linked table.size.tableEntries table.size.totTblEnts table.links rank head
  baseCount : table.curTblCnt = countUsed table.links.used 0 table.size.tableEntries
  expnCount : table.curExpnTblCnt =
    countUsed table.links.used table.size.tableEntries table.size.totTblEnts

/-! ## The edits -/

/-- A record starts a list of its own. -/
def insertAtHead (table : IpaTable ρ) (slot : Nat) (entry : ρ) : IpaTable ρ :=
  { table.store slot entry with curTblCnt := table.curTblCnt + 1 }

/-- A record is stored in a free slot behind the last record of a list. -/
def appendAtTail (table : IpaTable ρ) (last slot : Nat) (entry : ρ) : IpaTable ρ :=
  let linked := entrySetPrevIndex entry slot last table.expnMeta
    table.size.tableEntries
  { (table.store slot linked.1).store last (setNext (table.records last) slot) with
    expnMeta := linked.2
    curExpnTblCnt := table.curExpnTblCnt + 1 }

/-- A record is taken out from between its neighbours. -/
def spliceOut (table : IpaTable ρ) (slot : Nat) : IpaTable ρ :=
  let prevIndex := table.links.prev slot
  let nextIndex := table.links.next slot
  ipaTableDeleteEntry (table.store prevIndex (setNext (table.records prevIndex) nextIndex))
    ⟨prevIndex, slot, nextIndex⟩ false

section

variable (table : IpaTable ρ)

include table

variable (slot : Nat)

@[simp]
theorem insertAtHead_size (entry : ρ) : (table.insertAtHead slot entry).size = table.size := rfl

@[simp]
theorem appendAtTail_size (last slot : Nat) (entry : ρ) :
    (table.appendAtTail last slot entry).size = table.size := rfl

@[simp]
theorem eraseEntry_size : (ipaTableEraseEntry table slot).size = table.size := by
  unfold ipaTableEraseEntry
  split <;> rfl

@[simp]
theorem eraseEntry_nmi : (ipaTableEraseEntry table slot).nmi = table.nmi := by
  unfold ipaTableEraseEntry
  split <;> rfl

@[simp]
theorem eraseEntry_expnMeta : (ipaTableEraseEntry table slot).expnMeta = table.expnMeta := by
  unfold ipaTableEraseEntry
  split <;> rfl

@[simp]
theorem eraseEntry_records :
    (ipaTableEraseEntry table slot).records = update table.records slot zeroed := by
  unfold ipaTableEraseEntry
  split <;> rfl

theorem eraseEntry_base {slot : Nat} (atBase : slot < table.size.tableEntries) :
    (ipaTableEraseEntry table slot).curTblCnt = table.curTblCnt - 1 ∧
      (ipaTableEraseEntry table slot).curExpnTblCnt = table.curExpnTblCnt := by
  unfold ipaTableEraseEntry
  rw [if_pos atBase]
  exact ⟨rfl, rfl⟩

@[simp]
theorem spliceOut_size : (table.spliceOut slot).size = table.size := by
  unfold spliceOut ipaTableDeleteEntry
  rw [eraseEntry_size]
  split
  · rfl
  · split <;> rfl

@[simp]
theorem spliceOut_nmi : (table.spliceOut slot).nmi = table.nmi := by
  unfold spliceOut ipaTableDeleteEntry
  rw [eraseEntry_nmi]
  split
  · rfl
  · split <;> rfl

end

/-- The slots that a record is taken out from between are three different ones. -/
structure Apart (table : IpaTable ρ) (slot : Nat) : Prop where
  prevSlot : table.links.prev slot ≠ slot
  nextSlot : table.links.next slot ≠ 0 → table.links.next slot ≠ slot
  nextPrev : table.links.next slot ≠ 0 → table.links.next slot ≠ table.links.prev slot

theorem links_used (table : IpaTable ρ) (i : Nat) :
    table.links.used i = entryIsValid (table.records i) := rfl

theorem links_next (table : IpaTable ρ) (i : Nat) :
    table.links.next i = entryGetNextIndex (table.records i) := rfl

theorem links_prev (table : IpaTable ρ) (i : Nat) : table.links.prev i =
    entryGetPrevIndex (table.records i) i table.expnMeta table.size.tableEntries := rfl

section SpliceOut

variable {table : IpaTable ρ} {slot i : Nat}

theorem spliceOut_slot : (table.spliceOut slot).records slot = zeroed := by
  simp [spliceOut, ipaTableDeleteEntry]

theorem spliceOut_prev (apart : table.Apart slot) :
    (table.spliceOut slot).records (table.links.prev slot) =
      setNext (table.records (table.links.prev slot)) (table.links.next slot) := by
  by_cases continues : table.links.next slot ≠ 0
  · simp [spliceOut, ipaTableDeleteEntry, continues, apart.prevSlot,
      Ne.symm (apart.nextPrev continues)]
  · simp [spliceOut, ipaTableDeleteEntry, continues, apart.prevSlot]

theorem spliceOut_next (apart : table.Apart slot) (continues : table.links.next slot ≠ 0) :
    (table.spliceOut slot).records (table.links.next slot) =
      (entrySetPrevIndex (table.records (table.links.next slot))
        (table.links.next slot) (table.links.prev slot) table.expnMeta
        table.size.tableEntries).1 := by
  simp [spliceOut, ipaTableDeleteEntry, continues, apart.nextSlot continues,
    apart.nextPrev continues]

theorem spliceOut_other (notSlot : i ≠ slot) (notPrev : i ≠ table.links.prev slot)
    (notNext : ¬ (i = table.links.next slot ∧ table.links.next slot ≠ 0)) :
    (table.spliceOut slot).records i = table.records i := by
  by_cases continues : table.links.next slot ≠ 0
  · have different : i ≠ table.links.next slot := fun same => notNext ⟨same, continues⟩
    simp [spliceOut, ipaTableDeleteEntry, continues, notSlot, notPrev, different]
  · simp [spliceOut, ipaTableDeleteEntry, continues, notSlot, notPrev]

theorem spliceOut_expnMeta_next (apart : table.Apart slot) (continues : table.links.next slot ≠ 0) :
    (table.spliceOut slot).expnMeta =
      (entrySetPrevIndex (table.records (table.links.next slot))
        (table.links.next slot) (table.links.prev slot) table.expnMeta
        table.size.tableEntries).2 := by
  simp [spliceOut, ipaTableDeleteEntry, continues, apart.nextPrev continues]

theorem spliceOut_expnMeta_last (ends : table.links.next slot = 0) :
    (table.spliceOut slot).expnMeta = table.expnMeta := by
  simp [spliceOut, ipaTableDeleteEntry, ends]

theorem spliceOut_counters (inExpansion : table.size.tableEntries ≤ slot) :
    (table.spliceOut slot).curTblCnt = table.curTblCnt ∧
      (table.spliceOut slot).curExpnTblCnt = table.curExpnTblCnt - 1 := by
  by_cases continues : table.links.next slot ≠ 0
  · simp [spliceOut, ipaTableDeleteEntry, ipaTableEraseEntry, continues,
      Nat.not_lt_of_le inExpansion, IpaTable.store]
  · simp [spliceOut, ipaTableDeleteEntry, ipaTableEraseEntry, continues,
      Nat.not_lt_of_le inExpansion, IpaTable.store]

end SpliceOut

namespace Sound

variable [LawfulEntryInterface ρ] {table : IpaTable ρ} {rank head : Nat → Nat}

open LawfulEntryInterface

/-- A cleared table is sound, whatever its meta array holds. -/
theorem of_zeroed (zeroed : ∀ i, table.records i = zeroed)
    (baseCount : table.curTblCnt = 0) (expnCount : table.curExpnTblCnt = 0) :
    table.Sound (fun _ => 0) (fun _ => 0) := by
  have unused : ∀ i, table.links.used i = false := by
    intro i
    rw [links_used, zeroed, zeroed_invalid]
  have empty : ∀ lo hi, countUsed table.links.used lo hi = 0 := by simp [countUsed, unused]
  refine ⟨⟨?_, ?_, ?_, ?_, ?_, ?_⟩, ?_, ?_⟩
  · intro i used
    simp [unused] at used
  · intro i _
    rw [links_next, zeroed, zeroed_next]
  · intro i _ below
    rw [links_prev, zeroed]
    exact zeroed_prev i _ _ below
  · intro i used
    simp [unused] at used
  · intro i used
    simp [unused] at used
  · intro i used
    simp [unused] at used
  · rw [empty, baseCount]
    rfl
  · rw [empty, expnCount]
    rfl

theorem init (nmi : NatMemIn) (size : TableSize) :
    (IpaTable.init nmi size : IpaTable ρ).Sound (fun _ => 0) (fun _ => 0) :=
  of_zeroed (fun _ => rfl) rfl rfl

variable {slot : Nat}

omit [LawfulEntryInterface ρ] in
/-- A new head. -/
theorem insertAtHead (sound : table.Sound rank head) {entry : ρ} (positive : 0 < slot)
    (atBase : slot < table.size.tableEntries) (free : entryIsValid (table.records slot) = false)
    (valid : entryIsValid entry = true)
    (sameNext : entryGetNextIndex entry = entryGetNextIndex (table.records slot))
    (samePrev : entryGetPrevIndex entry slot table.expnMeta table.size.tableEntries = entryGetPrevIndex (table.records slot) slot table.expnMeta table.size.tableEntries)
    : (table.insertAtHead slot entry).Sound rank (update head slot slot) := by
  have usedEq : ∀ i, (table.insertAtHead slot entry).links.used i =
      (table.links.used i || decide (i = slot)) := by
    intro i
    by_cases same : i = slot
    · simp [IpaTable.insertAtHead, links, same, valid]
    · simp [IpaTable.insertAtHead, links, same]
  refine ⟨?_, ?_, ?_⟩
  · refine sound.linked.insertHead positive atBase ?_ free usedEq ?_ ?_
    · exact Nat.lt_trans atBase table.size.base_lt_tot
    · intro i
      by_cases same : i = slot
      · simp [IpaTable.insertAtHead, links, same, sameNext]
      · simp [IpaTable.insertAtHead, links, same]
    · intro i
      by_cases same : i = slot
      · simp [IpaTable.insertAtHead, links, same, samePrev]
      · simp [IpaTable.insertAtHead, links, same]
  · have counted := countUsed_insert free ⟨Nat.zero_le slot, atBase⟩ usedEq
    have counter : (table.insertAtHead slot entry).curTblCnt = table.curTblCnt + 1 := rfl
    have before := sound.baseCount
    rw [insertAtHead_size]
    omega
  · refine sound.expnCount.trans ?_
    have unchanged : countUsed (table.insertAtHead slot entry).links.used
        table.size.tableEntries table.size.totTblEnts =
          countUsed table.links.used table.size.tableEntries table.size.totTblEnts := by
      have elsewhere : ∀ i, i ≠ slot →
          (table.insertAtHead slot entry).links.used i = table.links.used i := by
        intro i different
        simp [usedEq, different]
      exact countUsed_of_outside (by omega) elsewhere
    rw [insertAtHead_size, unchanged]

/-- A new last record. -/
theorem appendAtTail (sound : table.Sound rank head) {last slot : Nat} {entry : ρ}
    (lastUsed : entryIsValid (table.records last) = true)
    (lastEnds : entryGetNextIndex (table.records last) = 0)
    (inExpansion : table.size.tableEntries ≤ slot) (inTable : slot < table.size.totTblEnts)
    (free : entryIsValid (table.records slot) = false) (valid : entryIsValid entry = true)
    (sameNext : entryGetNextIndex entry = entryGetNextIndex (table.records slot)) :
    (table.appendAtTail last slot entry).Sound
      (update rank slot (rank last + 1))
      (update head slot (head last)) := by
  have atLeastTwo := table.size.twoLeBase
  have different : slot ≠ last := by
    rintro rfl
    rw [free] at lastUsed
    cases lastUsed
  have usedEq : ∀ i, (table.appendAtTail last slot entry).links.used i =
      (table.links.used i || decide (i = slot)) := by
    intro i
    by_cases isLast : i = last
    · simp [IpaTable.appendAtTail, links, isLast, valid_setNext, lastUsed]
    · by_cases isSlot : i = slot
      · simp [IpaTable.appendAtTail, links, isSlot, different, valid_setPrev, valid]
      · simp [IpaTable.appendAtTail, links, isLast, isSlot]
  refine ⟨?_, ?_, ?_⟩
  · refine sound.linked.appendTail lastUsed lastEnds inExpansion inTable (by omega) free
      usedEq ?_ ?_
    · intro i
      by_cases isLast : i = last
      · simp [IpaTable.appendAtTail, links, isLast, next_setNext]
      · by_cases isSlot : i = slot
        · simp [IpaTable.appendAtTail, links, isSlot, different, next_setPrev, sameNext]
        · simp [IpaTable.appendAtTail, links, isLast, isSlot]
    · intro i
      by_cases isLast : i = last
      · subst isLast
        simp [IpaTable.appendAtTail, links, Ne.symm different, prev_setNext,
          prev_setPrev_other _ _ _ _ _ _ _ (Ne.symm different) inExpansion]
      · by_cases isSlot : i = slot
        · subst isSlot
          simp [IpaTable.appendAtTail, links, different, prev_setPrev _ _ _ _ _ inExpansion]
        · simp [IpaTable.appendAtTail, links, isLast, isSlot,
            prev_setPrev_other _ _ _ _ _ _ _ isSlot inExpansion]
  · refine sound.baseCount.trans ?_
    have unchanged : countUsed (table.appendAtTail last slot entry).links.used 0
        table.size.tableEntries = countUsed table.links.used 0 table.size.tableEntries := by
      have elsewhere : ∀ i, i ≠ slot →
          (table.appendAtTail last slot entry).links.used i = table.links.used i := by
        intro i other
        simp [usedEq, other]
      exact countUsed_of_outside (by omega) elsewhere
    rw [appendAtTail_size, unchanged]
  · have counted := countUsed_insert free ⟨inExpansion, inTable⟩ usedEq
    have counter : (table.appendAtTail last slot entry).curExpnTblCnt =
        table.curExpnTblCnt + 1 := rfl
    have before := sound.expnCount
    rw [appendAtTail_size]
    omega

/-- A head without successor goes. -/
theorem eraseHead (sound : table.Sound rank head) (used : entryIsValid (table.records slot) = true)
    (atBase : slot < table.size.tableEntries) (ends : entryGetNextIndex (table.records slot) = 0) :
    (ipaTableEraseEntry table slot).Sound rank head := by
  have usedEq : ∀ i, (ipaTableEraseEntry table slot).links.used i =
      (table.links.used i && decide (i ≠ slot)) := by
    intro i
    by_cases same : i = slot
    · simp [links, same, zeroed_invalid]
    · simp [links, same]
  obtain ⟨baseCnt, expnCnt⟩ := eraseEntry_base table atBase
  refine ⟨?_, ?_, ?_⟩
  · rw [eraseEntry_size]
    refine sound.linked.removeHead used atBase ends usedEq ?_ ?_
    · intro i
      by_cases same : i = slot
      · simp [links, same, zeroed_next, ends]
      · simp [links, same]
    · intro i
      by_cases same : i = slot
      · have wasZero := (sound.linked.atHead slot used atBase).1
        simp only [links] at wasZero
        simp [links, same, zeroed_prev _ _ _ atBase, wasZero]
      · simp [links, same]
  · have counted := countUsed_erase used ⟨Nat.zero_le slot, atBase⟩ usedEq
    rw [baseCnt, sound.baseCount, ← counted]
    simp
  · rw [expnCnt, sound.expnCount, eraseEntry_size]
    have elsewhere : ∀ i, i ≠ slot →
        (ipaTableEraseEntry table slot).links.used i = table.links.used i := by
      intro i different
      simp [usedEq, different]
    rw [countUsed_of_outside (by omega) elsewhere]

omit [LawfulEntryInterface ρ] in
theorem neighbours_apart (sound : table.Sound rank head)
    (used : entryIsValid (table.records slot) = true) (inExpansion : table.size.tableEntries ≤ slot)
    : table.Apart slot := by
  obtain ⟨_, _, prevRank, _⟩ := sound.linked.behind slot used inExpansion
  have nextRank : table.links.next slot ≠ 0 → rank slot < rank (table.links.next slot) :=
    fun continues => (sound.linked.rank_lt_next used continues).1
  refine ⟨?_, ?_, ?_⟩
  · intro same
    rw [same] at prevRank
    exact Nat.lt_irrefl _ prevRank
  · intro continues same
    have grows := nextRank continues
    rw [same] at grows
    exact Nat.lt_irrefl _ grows
  · intro continues same
    have grows := nextRank continues
    rw [same] at grows
    exact Nat.lt_asymm prevRank grows

/-- A record behind a head goes. -/
theorem spliceOut (sound : table.Sound rank head) (used : entryIsValid (table.records slot) = true)
    (inExpansion : table.size.tableEntries ≤ slot) : (table.spliceOut slot).Sound rank head := by
  have apart := sound.neighbours_apart used inExpansion
  have usedEq : ∀ i, (table.spliceOut slot).links.used i =
      (table.links.used i && decide (i ≠ slot)) := by
    intro i
    by_cases isSlot : i = slot
    · simp [links, isSlot, spliceOut_slot, zeroed_invalid]
    · have sameUsed : (table.spliceOut slot).links.used i = table.links.used i := by
        by_cases isPrev : i = table.links.prev slot
        · rw [isPrev, links_used, spliceOut_prev apart, valid_setNext, links_used]
        · by_cases isNext : i = table.links.next slot ∧ table.links.next slot ≠ 0
          · rw [isNext.1, links_used, spliceOut_next apart isNext.2, valid_setPrev, links_used]
          · rw [links_used, spliceOut_other isSlot isPrev isNext, links_used]
      simp [sameUsed, isSlot]
  obtain ⟨baseCnt, expnCnt⟩ := spliceOut_counters inExpansion
  refine ⟨?_, ?_, ?_⟩
  · rw [spliceOut_size]
    refine sound.linked.splice used inExpansion usedEq ?_ ?_
    · intro i
      by_cases isSlot : i = slot
      · simp [links, isSlot, spliceOut_slot, zeroed_next]
      · rw [if_neg isSlot]
        by_cases isPrev : i = table.links.prev slot
        · rw [if_pos isPrev, isPrev, links_next, spliceOut_prev apart, next_setNext]
        · rw [if_neg isPrev]
          by_cases isNext : i = table.links.next slot ∧ table.links.next slot ≠ 0
          · rw [isNext.1, links_next, spliceOut_next apart isNext.2, next_setPrev]
            exact (links_next _ _).symm
          · rw [links_next, spliceOut_other isSlot isPrev isNext]
            exact (links_next _ _).symm
    · intro i isSlot
      by_cases isNext : i = table.links.next slot ∧ table.links.next slot ≠ 0
      · have nextExpansion := (sound.linked.nextUsed slot used isNext.2).2.1
        rw [if_pos isNext]
        obtain ⟨rfl, continues⟩ := isNext
        rw [links_prev, spliceOut_next apart continues, spliceOut_expnMeta_next apart continues,
          spliceOut_size, prev_setPrev _ _ _ _ _ nextExpansion]
      · rw [if_neg isNext]
        have sameMeta : ∀ entry : ρ, entryGetPrevIndex entry i (table.spliceOut slot).expnMeta
            table.size.tableEntries =
              entryGetPrevIndex entry i table.expnMeta table.size.tableEntries := by
          intro entry
          by_cases continues : table.links.next slot ≠ 0
          · have nextExpansion := (sound.linked.nextUsed slot used continues).2.1
            rw [spliceOut_expnMeta_next apart continues]
            exact prev_setPrev_other _ _ _ _ _ _ _ (fun same => isNext ⟨same, continues⟩)
              nextExpansion
          · rw [spliceOut_expnMeta_last (not_not.mp continues)]
        rw [links_prev, spliceOut_size, sameMeta]
        by_cases isPrev : i = table.links.prev slot
        · subst isPrev
          rw [spliceOut_prev apart, prev_setNext]
          rfl
        · rw [spliceOut_other isSlot isPrev isNext]
          rfl
  · have elsewhere : ∀ i, i ≠ slot → (table.spliceOut slot).links.used i = table.links.used i := by
      intro i different
      simp [usedEq, different]
    rw [baseCnt, sound.baseCount, spliceOut_size, countUsed_of_outside (by omega) elsewhere]
  · have inTable := (sound.linked.inside slot used).2
    have counted := countUsed_erase used ⟨inExpansion, inTable⟩ usedEq
    have before := sound.expnCount
    rw [spliceOut_size]
    omega

omit [LawfulEntryInterface ρ] in
/-- A record is rewritten without touching its links. -/
theorem store (sound : table.Sound rank head) {entry : ρ}
    (sameValid : entryIsValid entry = entryIsValid (table.records slot))
    (sameNext : entryGetNextIndex entry = entryGetNextIndex (table.records slot))
    (samePrev : entryGetPrevIndex entry slot table.expnMeta table.size.tableEntries = entryGetPrevIndex (table.records slot) slot table.expnMeta table.size.tableEntries)
    : (table.store slot entry).Sound rank head := by
  have sameLinks : (table.store slot entry).links = table.links := by
    simp only [links]
    congr 1 <;> funext i <;> by_cases same : i = slot
    all_goals simp [same, sameValid, sameNext, samePrev]
  exact ⟨sameLinks ▸ sound.linked, sameLinks ▸ sound.baseCount, sameLinks ▸ sound.expnCount⟩

end Sound

end IpaTable

end Sm8650.IpaNat
