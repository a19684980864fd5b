import Sm8650.IpaNat.Insertion

/-!
# What deleting a rule does

`ipa_NATI_del_ipv4_rule` in terms of edits. A NAT record that stands alone or
behind a head goes; a head with records behind it stays as a dead head, and
goes with the last of them. An index record that heads a list takes over the
contents of the second record, which goes in its place, and the rule that the
second record belongs to is told its new slot.
-/

namespace Sm8650.IpaNat

open Chains List Function IpaTable IpaTableIterator

/-- The head of a list after its deletion. -/
def deadRule (entry : IpaNatRule) : IpaNatRule :=
  entry.dmaWrite ipaNatRuleProtoFieldOffset ipaNatInvalidProtoFieldValue

/-- Whether a record is a dead head. -/
def IsDead (entry : IpaNatRule) : Prop := entry.protocol = ipahalNatInvalidProtocol

instance (entry : IpaNatRule) : Decidable (IsDead entry) :=
  inferInstanceAs (Decidable (entry.protocol = ipahalNatInvalidProtocol))

/-- The NAT table after the deletion of the record in `slot`. -/
inductive NatDeletion (table : IpaTable IpaNatRule) (slot : Nat) :
    IpaTable IpaNatRule → Prop
  | alone (atBase : slot < table.size.tableEntries) (ends : table.links.next slot = 0) :
      NatDeletion table slot (ipaTableEraseEntry table slot)
  | deadHead (atBase : slot < table.size.tableEntries)
      (continues : table.links.next slot ≠ 0) :
      NatDeletion table slot (table.store slot (deadRule (table.records slot)))
  | behind (inExpansion : table.size.tableEntries ≤ slot)
      (prevStays : table.links.next slot ≠ 0 ∨ ¬ IsDead (table.records (table.links.prev slot))) :
      NatDeletion table slot (table.spliceOut slot)
  | behindDead (inExpansion : table.size.tableEntries ≤ slot)
      (ends : table.links.next slot = 0)
      (dead : IsDead (table.records (table.links.prev slot))) :
      NatDeletion table slot (ipaTableEraseEntry (table.spliceOut slot) (table.links.prev slot))

/-- The back link of an erased expansion record is cleared. -/
def clearMeta (indexTable : IpaTable IpaNatIndxTblRule) (slot : Nat) :
    IpaTable IpaNatIndxTblRule :=
  { indexTable with
    expnMeta := update indexTable.expnMeta (slot - indexTable.size.tableEntries) 0 }

/-- The index table with the contents of the second record copied to the head. -/
def copySecond (indexTable : IpaTable IpaNatIndxTblRule) (slot : Nat) :
    IpaTable IpaNatIndxTblRule :=
  indexTable.store slot
    { indexTable.records slot with
      tblEntry := (indexTable.records (indexTable.links.next slot)).tblEntry }

/-- The index table after the deletion of the record in `slot`. -/
inductive IndexDeletion (indexTable : IpaTable IpaNatIndxTblRule) (slot : Nat) :
    IpaTable IpaNatIndxTblRule → Prop
  | alone (atBase : slot < indexTable.size.tableEntries)
      (ends : indexTable.links.next slot = 0) :
      IndexDeletion indexTable slot (ipaTableEraseEntry indexTable slot)
  | second (atBase : slot < indexTable.size.tableEntries)
      (continues : indexTable.links.next slot ≠ 0) :
      IndexDeletion indexTable slot
        (clearMeta ((copySecond indexTable slot).spliceOut (indexTable.links.next slot))
          (indexTable.links.next slot))
  | behind (inExpansion : indexTable.size.tableEntries ≤ slot) :
      IndexDeletion indexTable slot (clearMeta (indexTable.spliceOut slot) slot)

/-- The NAT table after the store that precedes the commands: where the index
record heads a list, the rule of the second record is given the head's slot. -/
def redirectSecond (natTable : IpaNatIp4TableCache) (indexSlot : Nat) :
    IpaTable IpaNatRule :=
  if indexSlot < natTable.indexTable.size.tableEntries ∧
      natTable.indexTable.links.next indexSlot ≠ 0 then
    let second := natTable.indexTable.records (natTable.indexTable.links.next indexSlot)
    natTable.table.store second.tblEntry
      { natTable.table.records second.tblEntry with indxTblEntry := indexSlot }
  else
    natTable.table

section Generic

variable {ρ υ : Type} [EntryInterface ρ υ] {table : IpaTable ρ} {rank head : Nat → Nat}

/-- Heads are the used records without a back link. -/
theorem prev_eq_zero_iff (sound : table.Sound rank head) {i : Nat}
    (used : table.links.used i = true) : table.links.prev i = 0 ↔ i < table.size.tableEntries := by
  constructor
  · intro noPrev
    by_contra behind
    have prevUsed := (sound.linked.behind i used (Nat.le_of_not_lt behind)).1
    rw [noPrev, sound.linked.used_zero] at prevUsed
    cases prevUsed
  · intro atBase
    exact (sound.linked.atHead i used atBase).1

theorem deleteEntry_alone (table : IpaTable ρ) (slot : Nat) (isPrevEmpty : Bool) :
    ipaTableDeleteEntry table ⟨0, slot, 0⟩ isPrevEmpty = ipaTableEraseEntry table slot := by
  simp [ipaTableDeleteEntry]

/-- Deleting the last record behind a dead head deletes the head as well. -/
theorem deleteEntry_prevEmpty (table : IpaTable ρ) {prevIndex slot : Nat}
    (notZero : prevIndex ≠ 0) (different : prevIndex ≠ slot)
    (prevAtBase : prevIndex < table.size.tableEntries)
    (inExpansion : table.size.tableEntries ≤ slot) :
    ipaTableDeleteEntry table ⟨prevIndex, slot, 0⟩ true =
      ipaTableEraseEntry (ipaTableDeleteEntry table ⟨prevIndex, slot, 0⟩ false) prevIndex := by
  have notBase : ¬ slot < table.size.tableEntries := Nat.not_lt_of_le inExpansion
  simp [ipaTableDeleteEntry, ipaTableEraseEntry, store, notZero, notBase, prevAtBase,
    update_comm different]

end Generic

/-! ## The NAT record -/

/-- The NAT table at the end of a deletion. -/
def finishNat (posted : IpaTable IpaNatRule) (iterator : IpaTableIterator) :
    IpaTable IpaNatRule :=
  if iterator.isHeadWithTail then posted
  else
    ipaTableDeleteEntry posted iterator (iterator.prevIndex ≠ 0 &&
      (posted.records iterator.prevIndex).protocol = ipahalNatInvalidProtocol)

/-- The record before the deleted one is looked at after its next index was
written, which does not touch the protocol. -/
theorem finishNat_behind (table : IpaTable IpaNatRule) {prevIndex : Nat} (slot nextIndex : Nat)
    (somePrev : prevIndex ≠ 0) :
    finishNat (table.store prevIndex (setNext (table.records prevIndex) nextIndex))
        ⟨prevIndex, slot, nextIndex⟩ =
      ipaTableDeleteEntry
        (table.store prevIndex (setNext (table.records prevIndex) nextIndex))
        ⟨prevIndex, slot, nextIndex⟩ (decide (IsDead (table.records prevIndex))) := by
  unfold finishNat
  rw [if_neg (by simp [isHeadWithTail, somePrev])]
  simp only [store_records, update_self, ne_eq, somePrev]
  rfl

variable {rank head : Nat → Nat}

theorem natDeletion_behind {table : IpaTable IpaNatRule} (sound : table.Sound rank head)
    (deadAtBase : ∀ i, table.links.used i = true → IsDead (table.records i) → i < table.size.tableEntries)
    {slot : Nat} (used : table.links.used slot = true)
    (inExpansion : table.size.tableEntries ≤ slot) :
    NatDeletion table slot (finishNat (table.store (table.links.prev slot)
      (setNext (table.records (table.links.prev slot)) (table.links.next slot)))
      ⟨table.links.prev slot, slot, table.links.next slot⟩) := by
  have somePrev : table.links.prev slot ≠ 0 := fun noPrev =>
    Nat.not_lt_of_le inExpansion ((prev_eq_zero_iff sound used).mp noPrev)
  rw [finishNat_behind _ _ _ somePrev]
  by_cases dead : IsDead (table.records (table.links.prev slot))
  · rw [decide_eq_true dead]
    by_cases continues : table.links.next slot ≠ 0
    · have spliced := NatDeletion.behind inExpansion (.inl continues)
      simp only [spliceOut, ipaTableDeleteEntry, if_pos continues] at spliced ⊢
      exact spliced
    · have ends : table.links.next slot = 0 := not_not.mp continues
      have prevUsed := (sound.linked.behind slot used inExpansion).1
      have apart := sound.neighbours_apart used inExpansion
      have deleted := NatDeletion.behindDead inExpansion ends dead
      simp only [spliceOut, ends] at deleted ⊢
      rw [deleteEntry_prevEmpty _ somePrev apart.prevSlot]
      · exact deleted
      · exact deadAtBase _ prevUsed dead
      · exact inExpansion
  · rw [decide_eq_false dead]
    exact NatDeletion.behind inExpansion (.inr dead)

theorem natDeletion_of_finish {table : IpaTable IpaNatRule} (sound : table.Sound rank head)
    (deadAtBase : ∀ i, table.links.used i = true → IsDead (table.records i) → i < table.size.tableEntries)
    {slot : Nat} (used : table.links.used slot = true) (cmd : List DmaOne) :
    ∃ own, ipaTableCreateDeleteCommand table
        ⟨table.links.prev slot, slot, table.links.next slot⟩ cmd = cmd ++ own ∧
      (∀ indexTable : IpaTable IpaNatIndxTblRule,
        own.foldl applyDma indexTable = indexTable) ∧
      NatDeletion table slot (finishNat (own.foldl applyDma table)
        ⟨table.links.prev slot, slot, table.links.next slot⟩) := by
  have inTable := (sound.linked.inside slot used).2
  by_cases atBase : slot < table.size.tableEntries
  · have noPrev := (prev_eq_zero_iff sound used).mpr atBase
    by_cases continues : table.links.next slot ≠ 0
    · refine ⟨[dmaCommand IpaNatRule table.size .deleteHead slot ipaNatInvalidProtoFieldValue],
        ?_, ?_, ?_⟩
      · simp only [ipaTableCreateDeleteCommand, noPrev, if_pos continues]
        exact ipaTableAddDmaCmd_eq inTable
      · intro indexTable
        rw [foldl_cons, foldl_nil, applyDma_nat_command]
      · have deleted := NatDeletion.deadHead atBase continues
        simp only [foldl_cons, applyDma_dmaCommand _ rfl, finishNat]
        rw [if_pos (by simp [isHeadWithTail, noPrev, continues])]
        exact deleted
    · have ends : table.links.next slot = 0 := not_not.mp continues
      refine ⟨[dmaCommand IpaNatRule table.size .updateHead slot 0], ?_, ?_, ?_⟩
      · simp only [ipaTableCreateDeleteCommand, noPrev, if_neg continues]
        exact ipaTableAddDmaCmd_eq inTable
      · intro indexTable
        rw [foldl_cons, foldl_nil, applyDma_nat_command]
      · have deleted := NatDeletion.alone atBase ends
        simp only [foldl_cons, applyDma_dmaCommand _ rfl]
        simpa [finishNat, isHeadWithTail, noPrev, ends, deleteEntry_alone,
          eraseEntry_store] using deleted
  · have inExpansion := Nat.le_of_not_lt atBase
    have somePrev : table.links.prev slot ≠ 0 := fun noPrev =>
      atBase ((prev_eq_zero_iff sound used).mp noPrev)
    obtain ⟨prevUsed, _, _, _⟩ := sound.linked.behind slot used inExpansion
    have prevInTable := (sound.linked.inside _ prevUsed).2
    refine ⟨[dmaCommand IpaNatRule table.size .updateEntry (table.links.prev slot)
      (table.links.next slot)], ?_, ?_, ?_⟩
    · simp only [ipaTableCreateDeleteCommand, if_neg somePrev]
      exact ipaTableAddDmaCmd_eq prevInTable
    · intro indexTable
      rw [foldl_cons, foldl_nil, applyDma_nat_command]
    · simp only [foldl_cons, applyDma_dmaCommand _ rfl]
      exact natDeletion_behind sound deadAtBase used inExpansion

/-! ## The index record -/

/-- The index table at the end of a deletion. -/
def finishIndex (posted : IpaTable IpaNatIndxTblRule) (iterator : IpaTableIterator) :
    IpaTable IpaNatIndxTblRule :=
  let deleted := ipaTableDeleteEntry posted iterator false
  if deleted.size.tableEntries ≤ iterator.currIndex then
    clearMeta deleted iterator.currIndex
  else
    deleted

/-- What the rest of `ipa_NATI_del_ipv4_rule` relies on once the index record is
dealt with. -/
structure IndexPlanned (natTable : IpaNatIp4TableCache) (indexSlot : Nat)
    (plan : DeletePlan) : Prop where
  stored : plan.natTable = { natTable with table := redirectSecond natTable indexSlot }
  foreign : ∀ table : IpaTable IpaNatRule, plan.cmd.foldl applyDma table = table
  removed : ∃ iterator, plan.indexTableIterator = .ok iterator ∧
    IndexDeletion natTable.indexTable indexSlot
      (finishIndex (plan.cmd.foldl applyDma natTable.indexTable) iterator)

section Plan

variable {natTable : IpaNatIp4TableCache} {rank head : Nat → Nat} {slot : Nat}

section

variable (sound : natTable.indexTable.Sound rank head)

include sound

section

variable (used : natTable.indexTable.links.used slot = true)

include used

theorem indexPlanned_alone (atBase : slot < natTable.indexTable.size.tableEntries)
    (ends : natTable.indexTable.links.next slot = 0) :
    IndexPlanned natTable slot (planDelete natTable
      ⟨natTable.indexTable.links.prev slot, slot, natTable.indexTable.links.next slot⟩) := by
  have inTable := (sound.linked.inside slot used).2
  have noPrev := (prev_eq_zero_iff sound used).mpr atBase
  have planned : planDelete natTable
      ⟨natTable.indexTable.links.prev slot, slot, natTable.indexTable.links.next slot⟩ =
        ⟨natTable, .ok ⟨0, slot, 0⟩,
          [dmaCommand IpaNatIndxTblRule natTable.indexTable.size .updateHead slot 0]⟩ := by
    simp [planDelete, isHeadWithTail, noPrev, ends,
      ipaTableCreateDeleteCommand, ipaTableAddDmaCmd_eq inTable]
  rw [planned]
  refine ⟨?_, ?_, ⟨0, slot, 0⟩, rfl, ?_⟩
  · unfold redirectSecond
    rw [if_neg (by rintro ⟨_, continues⟩; exact continues ends)]
  · intro table
    rw [foldl_cons, foldl_nil, applyDma_index_command]
  · have deleted := IndexDeletion.alone atBase ends
    rw [foldl_cons, foldl_nil, applyDma_dmaCommand _ rfl]
    unfold finishIndex
    rw [deleteEntry_alone, eraseEntry_store]
    simp only [eraseEntry_size, if_neg (Nat.not_le_of_lt atBase)]
    exact deleted

theorem indexPlanned_behind (inExpansion : natTable.indexTable.size.tableEntries ≤ slot) :
    IndexPlanned natTable slot (planDelete natTable
      ⟨natTable.indexTable.links.prev slot, slot, natTable.indexTable.links.next slot⟩) := by
  have notBase := Nat.not_lt_of_le inExpansion
  have somePrev : natTable.indexTable.links.prev slot ≠ 0 := fun noPrev =>
    notBase ((prev_eq_zero_iff sound used).mp noPrev)
  have prevUsed := (sound.linked.behind slot used inExpansion).1
  have prevInTable := (sound.linked.inside _ prevUsed).2
  have planned : planDelete natTable
      ⟨natTable.indexTable.links.prev slot, slot, natTable.indexTable.links.next slot⟩ =
        ⟨natTable, .ok ⟨natTable.indexTable.links.prev slot, slot,
            natTable.indexTable.links.next slot⟩,
          [dmaCommand IpaNatIndxTblRule natTable.indexTable.size .updateEntry
            (natTable.indexTable.links.prev slot) (natTable.indexTable.links.next slot)]⟩ := by
    simp [planDelete, isHeadWithTail, somePrev,
      ipaTableCreateDeleteCommand, ipaTableAddDmaCmd_eq prevInTable]
  rw [planned]
  refine ⟨?_, ?_, _, rfl, ?_⟩
  · unfold redirectSecond
    rw [if_neg (fun both => notBase both.1)]
  · intro table
    rw [foldl_cons, foldl_nil, applyDma_index_command]
  · have deleted := IndexDeletion.behind inExpansion
    rw [foldl_cons, foldl_nil, applyDma_dmaCommand _ rfl]
    have spliced : ipaTableDeleteEntry (natTable.indexTable.store
        (natTable.indexTable.links.prev slot)
        (EntryInterface.dmaWrite
          (natTable.indexTable.records (natTable.indexTable.links.prev slot))
          (EntryInterface.helpOffset IpaNatIndxTblRule .updateEntry)
          (natTable.indexTable.links.next slot)))
        ⟨natTable.indexTable.links.prev slot, slot, natTable.indexTable.links.next slot⟩
        false = natTable.indexTable.spliceOut slot := rfl
    unfold finishIndex
    rw [spliced]
    simp only [spliceOut_size, if_pos inExpansion]
    exact deleted

theorem indexPlanned_second (atBase : slot < natTable.indexTable.size.tableEntries)
    (continues : natTable.indexTable.links.next slot ≠ 0) :
    IndexPlanned natTable slot (planDelete natTable
      ⟨natTable.indexTable.links.prev slot, slot, natTable.indexTable.links.next slot⟩) := by
  have inTable := (sound.linked.inside slot used).2
  have noPrev := (prev_eq_zero_iff sound used).mpr atBase
  obtain ⟨nextUsed, nextExpansion, nextPrev⟩ := sound.linked.nextUsed slot used continues
  have different : natTable.indexTable.links.next slot ≠ slot := by omega
  generalize second : natTable.indexTable.links.next slot = next at *
  have iterated : ipaTableIteratorNext natTable.indexTable ⟨0, slot, next⟩ =
      .ok ⟨slot, next, natTable.indexTable.links.next next⟩ :=
    iteratorNext_of_sound sound nextUsed
  have planned : planDelete natTable ⟨natTable.indexTable.links.prev slot, slot, next⟩ =
      ⟨{ natTable with table := redirectSecond natTable slot },
        .ok ⟨slot, next, natTable.indexTable.links.next next⟩,
        [dmaCommand IpaNatIndxTblRule natTable.indexTable.size .deleteHead slot
            (natTable.indexTable.records next).tblEntry,
          dmaCommand IpaNatIndxTblRule natTable.indexTable.size .updateEntry slot
            (natTable.indexTable.links.next next)]⟩ := by
    unfold redirectSecond
    rw [if_pos ⟨atBase, second ▸ continues⟩]
    simp only [planDelete, isHeadWithTail, noPrev, continues,
      ipaTableCreateDeleteCommand, ipaTableAddDmaCmd_eq inTable, ipaNatiCopySecondIndexEntryToHead,
      iterated, second, ne_eq, if_true]
    rfl
  rw [planned]
  refine ⟨rfl, ?_, _, rfl, ?_⟩
  · intro table
    rw [foldl_cons, foldl_cons, foldl_nil, applyDma_index_command, applyDma_index_command]
  · have deleted := IndexDeletion.second atBase (second.symm ▸ continues)
    have copied : (natTable.indexTable.applyDma (dmaCommand IpaNatIndxTblRule
        natTable.indexTable.size .deleteHead slot (natTable.indexTable.records next).tblEntry)) =
          copySecond natTable.indexTable slot := by
      rw [applyDma_dmaCommand _ rfl]
      simp only [copySecond, second]
      rfl
    have copiedPrev : (copySecond natTable.indexTable slot).links.prev next = slot := nextPrev
    have copiedNext : (copySecond natTable.indexTable slot).links.next next =
        natTable.indexTable.links.next next := by
      simp [copySecond, links_next, update_of_ne different]
    have sameSize : (copySecond natTable.indexTable slot).size = natTable.indexTable.size := rfl
    have spliced : ipaTableDeleteEntry ((copySecond natTable.indexTable slot).store slot
        (EntryInterface.dmaWrite ((copySecond natTable.indexTable slot).records slot)
          (EntryInterface.helpOffset IpaNatIndxTblRule .updateEntry)
          (natTable.indexTable.links.next next)))
        ⟨slot, next, natTable.indexTable.links.next next⟩ false =
          (copySecond natTable.indexTable slot).spliceOut next := by
      simp only [spliceOut, copiedPrev, copiedNext]
      rfl
    rw [foldl_cons, foldl_cons, foldl_nil, copied, applyDma_dmaCommand _ sameSize]
    unfold finishIndex
    rw [spliced]
    simp only [spliceOut_size, sameSize, if_pos nextExpansion]
    rw [second] at deleted
    exact deleted

end

end

end Plan

variable {natTable : IpaNatIp4TableCache}

/-- Every used index record has a plan. -/
theorem indexPlanned_of_sound (sound : natTable.indexTable.Sound rank head) {slot : Nat}
    (used : natTable.indexTable.links.used slot = true) :
    IndexPlanned natTable slot (planDelete natTable
      ⟨natTable.indexTable.links.prev slot, slot, natTable.indexTable.links.next slot⟩) := by
  by_cases atBase : slot < natTable.indexTable.size.tableEntries
  · by_cases ends : natTable.indexTable.links.next slot = 0
    · exact indexPlanned_alone sound used atBase ends
    · exact indexPlanned_second sound used atBase ends
  · exact indexPlanned_behind sound used (Nat.le_of_not_lt atBase)

/-! ## The whole deletion -/

/-- What a handle needs in order to be deleted: it leads to a used NAT record
whose index record is used as well. -/
structure Deletable (natTable : IpaNatIp4TableCache) (ruleHdl : Nat) : Prop where
  mapped : natTable.memDescValid = true
  inTable : breakRuleHdl natTable.table ruleHdl < natTable.table.size.totTblEnts
  used : natTable.table.links.used (breakRuleHdl natTable.table ruleHdl) = true
  indexUsed : natTable.indexTable.links.used
    (natTable.table.records (breakRuleHdl natTable.table ruleHdl)).indxTblEntry = true

/-- The effect of a successful deletion. -/
structure Deleted (natTable : IpaNatIp4TableCache) (slot : Nat)
    (changed : IpaNatIp4TableCache) : Prop where
  mapped : changed.memDescValid = true
  table : NatDeletion
    (redirectSecond natTable (natTable.table.records slot).indxTblEntry) slot changed.table
  indexTable : IndexDeletion natTable.indexTable (natTable.table.records slot).indxTblEntry
    changed.indexTable

theorem size_redirectSecond (natTable : IpaNatIp4TableCache) (indexSlot : Nat) :
    (redirectSecond natTable indexSlot).size = natTable.table.size := by
  unfold redirectSecond
  split <;> rfl

theorem nmi_redirectSecond (natTable : IpaNatIp4TableCache) (indexSlot : Nat) :
    (redirectSecond natTable indexSlot).nmi = natTable.table.nmi := by
  unfold redirectSecond
  split <;> rfl

/-- `redirectSecond` changes nothing but back pointers. -/
theorem records_redirectSecond (natTable : IpaNatIp4TableCache) (indexSlot i : Nat) :
    ∃ indxTblEntry, (redirectSecond natTable indexSlot).records i =
      { natTable.table.records i with indxTblEntry := indxTblEntry } := by
  unfold redirectSecond
  split
  · by_cases same : i = (natTable.indexTable.records
        (natTable.indexTable.links.next indexSlot)).tblEntry
    · rw [same]
      simp
    · refine ⟨(natTable.table.records i).indxTblEntry, ?_⟩
      simp [same]
  · exact ⟨_, rfl⟩

theorem links_redirectSecond (natTable : IpaNatIp4TableCache) (indexSlot : Nat) :
    (redirectSecond natTable indexSlot).links = natTable.table.links := by
  unfold links
  congr 1
  all_goals
    funext i
    obtain ⟨indxTblEntry, redirected⟩ := records_redirectSecond natTable indexSlot i
    rw [redirected]
    rfl

theorem sound_redirectSecond (sound : natTable.table.Sound rank head) (indexSlot : Nat) :
    (redirectSecond natTable indexSlot).Sound rank head := by
  have sameLinks := links_redirectSecond natTable indexSlot
  have sameSize := size_redirectSecond natTable indexSlot
  have counters : (redirectSecond natTable indexSlot).curTblCnt = natTable.table.curTblCnt ∧
      (redirectSecond natTable indexSlot).curExpnTblCnt = natTable.table.curExpnTblCnt := by
    unfold redirectSecond
    split <;> exact ⟨rfl, rfl⟩
  refine ⟨?_, ?_, ?_⟩
  · rw [sameLinks, sameSize]
    exact sound.linked
  · rw [counters.1, sameLinks, sameSize]
    exact sound.baseCount
  · rw [counters.2, sameLinks, sameSize]
    exact sound.expnCount

theorem dead_redirectSecond (chained : Chained natTable) (indexSlot i : Nat)
    (used : (redirectSecond natTable indexSlot).links.used i = true)
    (dead : IsDead ((redirectSecond natTable indexSlot).records i)) :
    i < (redirectSecond natTable indexSlot).size.tableEntries := by
  obtain ⟨indxTblEntry, redirected⟩ := records_redirectSecond natTable indexSlot i
  rw [links_redirectSecond] at used
  rw [redirected] at dead
  rw [size_redirectSecond]
  exact chained.deadAtBase i used dead

/-- `ipa_NATI_del_ipv4_rule` deletes the rule if the handle is good and the ioctl
succeeds. A failed ioctl leaves the store that preceded it behind. -/
theorem delIpv4Rule_cases (dmaOk : Bool) (chained : Chained natTable) (ruleHdl : Nat) :
    let outcome := ipaNATIDelIpv4Rule dmaOk natTable ruleHdl
    let slot := breakRuleHdl natTable.table ruleHdl
    (Deletable natTable ruleHdl ∧ dmaOk = true ∧ outcome.1 = .ok () ∧
        Deleted natTable slot outcome.2) ∨
      (Deletable natTable ruleHdl ∧ dmaOk = false ∧ outcome.1 = .error .eio ∧
        outcome.2 = { natTable with
          table := redirectSecond natTable (natTable.table.records slot).indxTblEntry }) ∨
      (¬ Deletable natTable ruleHdl ∧ (∃ errno, outcome.1 = .error errno) ∧
        outcome.2 = natTable) := by
  obtain ⟨rank, head, tableSound⟩ := chained.tableSound
  obtain ⟨indexRank, indexHead, indexSound⟩ := chained.indexSound
  simp only [ipaNATIDelIpv4Rule]
  by_cases unmapped : natTable.memDescValid = false
  · right; right
    rw [if_pos unmapped]
    refine ⟨fun deletable => ?_, ⟨_, rfl⟩, rfl⟩
    rw [deletable.mapped] at unmapped
    cases unmapped
  · rw [if_neg unmapped]
    have mapped : natTable.memDescValid = true := Bool.eq_true_of_not_eq_false unmapped
    by_cases inTable : breakRuleHdl natTable.table ruleHdl < natTable.table.size.totTblEnts
    swap
    · right; right
      simp only [ipaTableGetEntry, if_neg inTable]
      exact ⟨fun deletable => inTable deletable.inTable, ⟨_, rfl⟩, trivial⟩
    simp only [ipaTableGetEntry, if_pos inTable]
    cases used : natTable.table.links.used (breakRuleHdl natTable.table ruleHdl) with
    | false =>
      right; right
      rw [iteratorInit_invalid used]
      refine ⟨fun deletable => ?_, ⟨_, rfl⟩, rfl⟩
      rw [deletable.used] at used
      cases used
    | true =>
      rw [iteratorInit_of_sound tableSound used]
      cases indexUsed : natTable.indexTable.links.used (natTable.table.records
          (breakRuleHdl natTable.table ruleHdl)).indxTblEntry with
      | false =>
        right; right
        have notDeletable : ¬ Deletable natTable ruleHdl := by
          intro deletable
          rw [deletable.indexUsed] at indexUsed
          cases indexUsed
        cases there : ipaTableGetEntryByIndex natTable.indexTable
            (natTable.table.records (breakRuleHdl natTable.table ruleHdl)).indxTblEntry with
        | none => exact ⟨notDeletable, ⟨_, rfl⟩, rfl⟩
        | some found =>
          obtain ⟨rfl, _⟩ := ipaTableGetEntryByIndex_some there
          simp only [iteratorInit_invalid indexUsed]
          exact ⟨notDeletable, ⟨_, rfl⟩, trivial⟩
      | true =>
        obtain ⟨indexPositive, indexInTable⟩ := indexSound.linked.inside _ indexUsed
        have planned := indexPlanned_of_sound indexSound indexUsed
        obtain ⟨iterator, removed, indexDeleted⟩ := planned.removed
        have deletable : Deletable natTable ruleHdl := ⟨mapped, inTable, used, indexUsed⟩
        simp only [ipaTableGetEntryByIndex_eq indexPositive indexInTable,
          iteratorInit_of_sound indexSound indexUsed, removed]
        generalize planDelete natTable _ = plan at planned removed indexDeleted ⊢
        rw [planned.stored]
        cases dmaOk with
        | false => exact .inr (.inl ⟨deletable, rfl, rfl, rfl⟩)
        | true =>
          left
          have stillUsed := used
          rw [← links_redirectSecond natTable (natTable.table.records
            (breakRuleHdl natTable.table ruleHdl)).indxTblEntry] at stillUsed
          obtain ⟨own, queued, foreign, deleted⟩ := natDeletion_of_finish
            (sound_redirectSecond tableSound _) (dead_redirectSecond chained _)
            stillUsed plan.cmd
          rw [links_redirectSecond] at queued deleted
          refine ⟨deletable, rfl, ?_, ?_⟩
          · simp [ipaNatiPostIpv4DmaCmd]
          · simp only [ipaNatiPostIpv4DmaCmd, queued, foldl_append, foldl_applyDma,
              planned.foreign, foreign]
            exact ⟨mapped, deleted, indexDeleted⟩

end Sm8650.IpaNat
