import Sm8650.IpaNat.Walk

/-!
# What adding a rule does

`ipa_NATI_add_ipv4_rule` in terms of edits. When it succeeds, each table has
gained one record, at the head of a list or behind its last record. When it
fails, each table is as before, up to the contents of a slot that was and stays
free.
-/

namespace Sm8650.IpaNat

open Chains Function List IpaTable EntryInterface LawfulEntryInterface

variable {rank head : Nat → Nat}

section Generic

variable {ρ υ : Type} [EntryInterface ρ υ]

/-- A table with one record more, made from the old contents of its slot: at the
hashed slot `start` if that is free, otherwise behind the list that starts there. -/
inductive Insertion (table : IpaTable ρ) (start : Nat) (entry : ρ → ρ) :
    Nat → IpaTable ρ → Prop
  | head (free : table.links.used start = false) :
      Insertion table start entry start (table.insertAtHead start (entry (table.records start)))
  | tail {last slot : Nat} (occupied : table.links.used start = true)
      (ends : ipaTableIteratorEnd table start = .ok last)
      (found : findExpnTblFreeEntry table = .ok slot) :
      Insertion table start entry slot (table.appendAtTail last slot (entry (table.records slot)))

/-- A table in which one free slot may have been cleared. -/
inductive Discarded (table : IpaTable ρ) : IpaTable ρ → Prop
  | same : Discarded table table
  | cleared {slot : Nat} {expnMeta : Nat → Nat} (free : table.links.used slot = false)
      (metaElsewhere : ∀ (entry : ρ) i, i ≠ slot ∨ i < table.size.tableEntries →
        entryGetPrevIndex entry i expnMeta table.size.tableEntries =
          entryGetPrevIndex entry i table.expnMeta table.size.tableEntries) :
      Discarded table
        { table with
          records := Function.update table.records slot zeroed
          expnMeta := expnMeta }

/-- There is a slot for a record that hashes to `start`. -/
def HasRoom (table : IpaTable ρ) (start : Nat) : Prop :=
  table.links.used start = false ∨
    ∃ i, table.size.tableEntries ≤ i ∧ i < table.size.totTblEnts ∧ table.links.used i = false

variable {table : IpaTable ρ}

/-- The three ways in which `ipa_table_add_entry` can go. -/
theorem addEntry_cases (sound : table.Sound rank head) (userData : υ)
    (start : Nat) (cmd : List DmaOne) :
    (table.links.used start = false ∧ ipaTableAddEntry table userData start cmd =
        .ok (insertHead table start userData cmd)) ∨
      (∃ last slot, table.links.used start = true ∧
        ipaTableIteratorEnd table start = .ok last ∧
        findExpnTblFreeEntry table = .ok slot ∧
        ipaTableAddEntry table userData start cmd = .ok (linkTail table last slot userData cmd)) ∨
      (¬ HasRoom table start ∧
        ∃ errno, ipaTableAddEntry table userData start cmd = .error errno) := by
  unfold ipaTableAddEntry
  cases used : entryIsValid (table.records start) with
  | false => exact .inl ⟨used, rfl⟩
  | true =>
    right
    obtain ⟨last, ends, _, _, _⟩ := iteratorEnd_of_sound sound used
    simp only [Bool.true_eq_false, if_false, insertTail, ends]
    rcases findExpnTblFreeEntry_cases table with ⟨slot, found, _⟩ | ⟨⟨errno, full⟩, allUsed⟩
    · left
      refine ⟨last, slot, used, rfl, found, ?_⟩
      rw [found]
    · right
      refine ⟨?_, errno, ?_⟩
      · rintro (free | ⟨i, atLeast, below, free⟩)
        · rw [links_used, used] at free
          cases free
        · rw [allUsed i atLeast below] at free
          cases free
      · rw [full]

theorem hasRoom_of_found {start slot : Nat} (found : findExpnTblFreeEntry table = .ok slot)
    : HasRoom table start := by
  obtain ⟨atLeast, below, free⟩ := findExpnTblFreeEntry_ok found
  exact .inr ⟨slot, atLeast, below, free⟩

namespace Insertion

variable {table changed : IpaTable ρ} {start slot : Nat} {entry : ρ → ρ}

section

variable (insertion : Insertion table start entry slot changed)

include insertion

theorem size_eq : changed.size = table.size := by
  cases insertion with
  | head free => rfl
  | tail occupied ends found => rfl

theorem nmi_eq : changed.nmi = table.nmi := by
  cases insertion with
  | head free => rfl
  | tail occupied ends found => rfl

theorem slot_bounds (positive : 0 < start) (atBase : start < table.size.tableEntries) :
    0 < slot ∧ slot < table.size.totTblEnts ∧ table.links.used slot = false := by
  cases insertion with
  | head free => exact ⟨positive, Nat.lt_trans atBase table.size.base_lt_tot, free⟩
  | tail occupied ends found =>
    obtain ⟨atLeast, below, free⟩ := findExpnTblFreeEntry_ok found
    exact ⟨by omega, below, free⟩

end

theorem ne_last_of_found [LawfulEntryInterface ρ]
    (sound : table.Sound rank head) {last slot : Nat} (occupied : table.links.used start = true)
    (ends : ipaTableIteratorEnd table start = .ok last)
    (found : findExpnTblFreeEntry table = .ok slot) : slot ≠ last := by
  rintro rfl
  obtain ⟨_, _, free⟩ := findExpnTblFreeEntry_ok found
  rw [(used_of_iteratorEnd sound occupied ends).1] at free
  cases free

/-- An insertion keeps a table sound, and the new record is on the chain of
`start`. -/
theorem sound_of [LawfulEntryInterface ρ]
    (insertion : Insertion table start entry slot changed) (sound : table.Sound rank head)
    (positive : 0 < start) (atBase : start < table.size.tableEntries)
    (valid : ∀ old, entryIsValid (entry old) = true)
    (sameNext : ∀ old, entryGetNextIndex (entry old) = entryGetNextIndex old)
    (samePrev : ∀ old i expnMeta base, entryGetPrevIndex (entry old) i expnMeta base =
      entryGetPrevIndex old i expnMeta base) :
    ∃ newRank, changed.Sound newRank (update head slot start) := by
  cases insertion with
  | head free =>
    exact ⟨rank, sound.insertAtHead positive atBase free (valid _) (sameNext _) (samePrev _ _ _ _)⟩
  | @tail last slot occupied ends found =>
    obtain ⟨atLeast, below, free⟩ := findExpnTblFreeEntry_ok found
    obtain ⟨lastUsed, lastNext, lastHead⟩ := used_of_iteratorEnd sound occupied ends
    have ownHead := (sound.linked.atHead start occupied atBase).2
    rw [ownHead] at lastHead
    have appended := sound.appendAtTail lastUsed lastNext atLeast below free
      (valid (table.records slot)) (sameNext (table.records slot))
    rw [lastHead] at appended
    exact ⟨_, appended⟩

end Insertion

namespace Discarded

variable {table changed : IpaTable ρ}

section

variable (discarded : Discarded table changed)

include discarded

theorem size_eq : changed.size = table.size := by
  cases discarded with
  | same => rfl
  | cleared free metaElsewhere => rfl

theorem nmi_eq : changed.nmi = table.nmi := by
  cases discarded with
  | same => rfl
  | cleared free metaElsewhere => rfl

theorem used_eq [LawfulEntryInterface ρ] (i : Nat) : changed.links.used i = table.links.used i := by
  cases discarded with
  | same => rfl
  | @cleared slot expnMeta free metaElsewhere =>
    by_cases isSlot : i = slot
    · rw [isSlot, free]
      simp [links, zeroed_invalid]
    · simp [links, isSlot]

theorem records_eq {i : Nat}
    (used : table.links.used i = true) : changed.records i = table.records i := by
  cases discarded with
  | same => rfl
  | @cleared slot expnMeta free metaElsewhere =>
    have different : i ≠ slot := by
      rintro rfl
      rw [free] at used
      cases used
    simp [different]

theorem sound_of [LawfulEntryInterface ρ]
    (sound : table.Sound rank head) : changed.Sound rank head := by
  have sameUsed : changed.links.used = table.links.used := funext discarded.used_eq
  cases discarded with
  | same => exact sound
  | @cleared slot expnMeta free metaElsewhere =>
    have notSlot : ∀ i, table.links.used i = true → i ≠ slot := by
      rintro i used rfl
      rw [free] at used
      cases used
    refine ⟨?_, ?_, ?_⟩
    · refine sound.linked.congr_used (fun i => congrFun sameUsed i) ?_ ?_
      · intro i
        by_cases isSlot : i = slot
        · have wasZero := sound.linked.idleNext slot free
          rw [isSlot, wasZero]
          simp [links, zeroed_next]
        · simp [links, isSlot]
      · intro i usedOrBase
        rw [links_prev, links_prev]
        by_cases isSlot : i = slot
        · subst isSlot
          have atBase : i < table.size.tableEntries := by
            rcases usedOrBase with used | atBase
            · exact absurd rfl (notSlot i used)
            · exact atBase
          have wasZero := sound.linked.idlePrev i free atBase
          rw [links_prev] at wasZero
          rw [wasZero]
          simp [zeroed_prev _ _ _ atBase]
        · simp only [ne_eq, isSlot, not_false_eq_true, update_of_ne]
          exact metaElsewhere _ i (.inl isSlot)
    · rw [sameUsed]
      exact sound.baseCount
    · rw [sameUsed]
      exact sound.expnCount

end

end Discarded

theorem eraseEntry_store (table : IpaTable ρ) (slot : Nat) (entry : ρ) :
    ipaTableEraseEntry (table.store slot entry) slot = ipaTableEraseEntry table slot := by
  simp [ipaTableEraseEntry, store]

/-! ## Records that wait for their commands -/

/-- A table whose new expansion record is stored but not linked to yet. -/
def stageTail (table : IpaTable ρ) (slot : Nat) (entry : ρ) (expnMeta : Nat → Nat) :
    IpaTable ρ :=
  { table.store slot entry with
    expnMeta := expnMeta
    curExpnTblCnt := table.curExpnTblCnt + 1 }

theorem appendAtTail_eq (table : IpaTable ρ) (last slot : Nat) (entry : ρ) :
    table.appendAtTail last slot entry =
      (stageTail table slot
        (entrySetPrevIndex entry slot last table.expnMeta table.size.tableEntries).1
        (entrySetPrevIndex entry slot last table.expnMeta
          table.size.tableEntries).2).store last (setNext (table.records last) slot) := rfl

omit [EntryInterface ρ υ] in
theorem insertAtHead_store (table : IpaTable ρ) (slot : Nat) (first second : ρ) :
    (table.insertAtHead slot first).store slot second = table.insertAtHead slot second := by
  simp [insertAtHead, store]

omit [EntryInterface ρ υ] in
theorem stageTail_store (table : IpaTable ρ) (slot : Nat) (first second : ρ)
    (expnMeta : Nat → Nat) :
    (stageTail table slot first expnMeta).store slot second =
      stageTail table slot second expnMeta := by
  simp [stageTail, store]

theorem insertAtHead_erase {slot : Nat} (atBase : slot < table.size.tableEntries)
    (free : table.links.used slot = false) (entry : ρ) :
    Discarded table (ipaTableEraseEntry (table.insertAtHead slot entry) slot) := by
  have result : ipaTableEraseEntry (table.insertAtHead slot entry) slot =
      { table with
        records := update table.records slot zeroed } := by
    simp [ipaTableEraseEntry, insertAtHead, store, atBase]
  rw [result]
  exact Discarded.cleared free (fun _ _ _ => rfl)

theorem stageTail_erase {slot : Nat} {expnMeta : Nat → Nat}
    (inExpansion : table.size.tableEntries ≤ slot) (free : table.links.used slot = false)
    (metaElsewhere : ∀ (entry : ρ) i, i ≠ slot → entryGetPrevIndex entry i expnMeta table.size.tableEntries = entryGetPrevIndex entry i table.expnMeta table.size.tableEntries)
    (entry : ρ) :
    Discarded table (ipaTableEraseEntry (stageTail table slot entry expnMeta) slot) := by
  have notBase : ¬ slot < table.size.tableEntries := Nat.not_lt_of_le inExpansion
  have result : ipaTableEraseEntry (stageTail table slot entry expnMeta) slot =
      { table with
        records := update table.records slot zeroed
        expnMeta := expnMeta } := by
    simp [ipaTableEraseEntry, stageTail, store, notBase]
  rw [result]
  refine Discarded.cleared free ?_
  rintro entry i (different | atBase)
  · exact metaElsewhere entry i different
  · exact metaElsewhere entry i (by omega)

section Commands

variable [LawfulEntryInterface ρ]

theorem insertAtHead_posted (table : IpaTable ρ) (slot data : Nat) (entry : ρ) :
    [dmaCommand ρ table.size .updateHead slot data].foldl applyDma
        (table.insertAtHead slot entry) =
      table.insertAtHead slot
        (dmaWrite entry (helpOffset ρ .updateHead) data) := by
  have own : (table.insertAtHead slot entry).records slot = entry := update_self ..
  rw [foldl_cons, foldl_nil, applyDma_dmaCommand _ (insertAtHead_size ..), insertAtHead_store, own]

theorem stageTail_linked (table : IpaTable ρ) {last slot : Nat} (different : last ≠ slot)
    (entry : ρ) (expnMeta : Nat → Nat) :
    (stageTail table slot entry expnMeta).applyDma
        (dmaCommand ρ table.size .updateEntry last slot) =
      (stageTail table slot entry expnMeta).store last (setNext (table.records last) slot) := by
  have unchanged : (stageTail table slot entry expnMeta).records last = table.records last :=
    update_of_ne different ..
  have sameSize : (stageTail table slot entry expnMeta).size = table.size := rfl
  rw [applyDma_dmaCommand _ sameSize, unchanged]
  rfl

theorem stageTail_enabled (table : IpaTable ρ) (slot data : Nat) (entry : ρ)
    (expnMeta : Nat → Nat) :
    (stageTail table slot entry expnMeta).applyDma (dmaCommand ρ table.size .updateHead slot data) =
      stageTail table slot
        (dmaWrite entry (helpOffset ρ .updateHead) data)
        expnMeta := by
  have own : (stageTail table slot entry expnMeta).records slot = entry :=
    update_self ..
  have sameSize : (stageTail table slot entry expnMeta).size = table.size := rfl
  rw [applyDma_dmaCommand _ sameSize, own, stageTail_store]

end Commands

end Generic

/-! ## The NAT record -/

/-- The rule record after a successful addition: the client's rule, enabled, with
`redirect` cleared by the flags command. -/
def installedRule (platform : Platform) (clntRule : IpaNatIpv4Rule) (indxTblEntry : Nat)
    (old : IpaNatRule) : IpaNatRule :=
  { tableEntryCopyFromUser (platform.pdns clntRule.pdnIndex) old clntRule with
    indxTblEntry := indxTblEntry
    redirect := false
    enable := true
    timeStamp := clntRule.timeStamp.setWidth 24 }

/-- The index record after a successful addition. -/
def installedIndex (tblEntry : Nat) (old : IpaNatIndxTblRule) : IpaNatIndxTblRule :=
  { old with tblEntry := tblEntry }

variable (platform : Platform) (clntRule : IpaNatIpv4Rule)

/-- The flags command turns the written record into the installed one. -/
theorem dmaWrite_completeRule (indxTblEntry : Nat) (old : IpaNatRule) :
    (completeRule (tableEntryCopyFromUser (platform.pdns clntRule.pdnIndex) old clntRule)
        clntRule indxTblEntry).dmaWrite ipaNatRuleFlagFieldOffset
        (headInsertDmaData
          (tableEntryCopyFromUser (platform.pdns clntRule.pdnIndex) old clntRule)) =
      installedRule platform clntRule indxTblEntry old :=
  dmaWrite_headInsertDmaData
    (completeRule (tableEntryCopyFromUser (platform.pdns clntRule.pdnIndex) old clntRule)
      clntRule indxTblEntry)

/-- What the rest of `ipa_NATI_add_ipv4_rule` relies on once the NAT record has a
slot. -/
structure NatStaged (platform : Platform) (clntRule : IpaNatIpv4Rule)
    (table : IpaTable IpaNatRule) (start : Nat) (newEntry : Inserted IpaNatRule) : Prop where
  room : HasRoom table start
  positive : 0 < newEntry.recIndex
  inTable : newEntry.recIndex < newEntry.table.size.totTblEnts
  posted : ∀ indxTblEntry,
    Insertion table start (installedRule platform clntRule indxTblEntry) newEntry.recIndex
      (newEntry.cmd.foldl applyDma (newEntry.table.store newEntry.recIndex
        (completeRule (newEntry.table.records newEntry.recIndex) clntRule indxTblEntry)))
  foreign : ∀ indexTable : IpaTable IpaNatIndxTblRule,
    newEntry.cmd.foldl applyDma indexTable = indexTable
  erased : Discarded table (ipaTableEraseEntry newEntry.table newEntry.recIndex)

/-- What it relies on once the index record has a slot, too. -/
structure IndexStaged (tblEntry : Nat) (indexTable : IpaTable IpaNatIndxTblRule)
    (start : Nat) (cmd : List DmaOne) (newIndex : Inserted IpaNatIndxTblRule) : Prop where
  room : HasRoom indexTable start
  posted : ∃ own, newIndex.cmd = cmd ++ own ∧
    Insertion indexTable start (installedIndex tblEntry) newIndex.recIndex
      (own.foldl applyDma newIndex.table) ∧
    ∀ table : IpaTable IpaNatRule, own.foldl applyDma table = table
  erased : Discarded indexTable (ipaTableEraseEntry newIndex.table newIndex.recIndex)

variable {table : IpaTable IpaNatRule} {start : Nat}

theorem natStaged_head (positive : 0 < start)
    (atBase : start < table.size.tableEntries) (free : table.links.used start = false) :
    NatStaged platform clntRule table start
      (insertHead table start (ClientData.mk (platform.pdns clntRule.pdnIndex) clntRule) []) := by
  have inTable := Nat.lt_trans atBase table.size.base_lt_tot
  have queued : (insertHead table start
      (ClientData.mk (platform.pdns clntRule.pdnIndex) clntRule) []).cmd =
        [dmaCommand IpaNatRule table.size .updateHead start (headInsertDmaData
          (tableEntryCopyFromUser (platform.pdns clntRule.pdnIndex) (table.records start)
            clntRule))] := ipaTableAddDmaCmd_eq inTable
  have stored : ∀ entry, (insertHead table start
      (ClientData.mk (platform.pdns clntRule.pdnIndex) clntRule) []).table.store start entry =
        table.insertAtHead start entry := fun _ => insertAtHead_store ..
  have own : (insertHead table start
      (ClientData.mk (platform.pdns clntRule.pdnIndex) clntRule) []).table.records start =
        tableEntryCopyFromUser (platform.pdns clntRule.pdnIndex) (table.records start)
          clntRule := update_self ..
  refine ⟨.inl free, positive, inTable, ?_, ?_, insertAtHead_erase atBase free _⟩
  · intro indxTblEntry
    show Insertion table start _ start (foldl _ (store _ start
      (completeRule (records _ start) _ _)) _)
    rw [queued, stored, own, insertAtHead_posted]
    have inserted : Insertion table start (installedRule platform clntRule indxTblEntry) start
        _ := Insertion.head free
    rw [← dmaWrite_completeRule] at inserted
    exact inserted
  · intro indexTable
    rw [queued, foldl_cons, foldl_nil, applyDma_nat_command]

theorem natStaged_tail {start last slot : Nat}
    (occupied : table.links.used start = true) (ends : ipaTableIteratorEnd table start = .ok last)
    (found : findExpnTblFreeEntry table = .ok slot) (lastUsed : table.links.used last = true)
    (lastInTable : last < table.size.totTblEnts) :
    NatStaged platform clntRule table start
      (linkTail table last slot (ClientData.mk (platform.pdns clntRule.pdnIndex) clntRule) []) := by
  have atLeastTwo := table.size.twoLeBase
  obtain ⟨inExpansion, inTable, free⟩ := findExpnTblFreeEntry_ok found
  have different : last ≠ slot := by
    rintro rfl
    rw [free] at lastUsed
    cases lastUsed
  generalize copied : tableEntryCopyFromUser (platform.pdns clntRule.pdnIndex)
    (table.records slot) clntRule = copy
  have linked : linkTail table last slot
      (ClientData.mk (platform.pdns clntRule.pdnIndex) clntRule) [] =
        { table := stageTail table slot { copy with prevIndex := last } table.expnMeta
          recIndex := slot
          cmd :=
            [dmaCommand IpaNatRule table.size .updateHead slot (headInsertDmaData copy),
              dmaCommand IpaNatRule table.size .updateEntry last slot] } := by
    subst copied
    simp only [linkTail, ipaTableAddDmaCmd_eq inTable, ipaTableAddDmaCmd_eq lastInTable]
    rfl
  rw [linked]
  refine ⟨hasRoom_of_found found, Nat.lt_of_lt_of_le (by omega) inExpansion, inTable,
    ?_, ?_, stageTail_erase inExpansion free (fun _ _ _ => rfl) _⟩
  · intro indxTblEntry
    have own : (stageTail table slot { copy with prevIndex := last } table.expnMeta).records
        slot = { copy with prevIndex := last } := update_self ..
    have inserted : Insertion table start (installedRule platform clntRule indxTblEntry) slot
        _ := Insertion.tail occupied ends found
    simp only [foldl_cons]
    rw [stageTail_store, own, stageTail_enabled, stageTail_linked _ different]
    rw [← dmaWrite_completeRule, copied] at inserted
    exact inserted
  · intro indexTable
    simp [applyDma_nat_command]

/-! ## The index record -/

variable {indexTable : IpaTable IpaNatIndxTblRule}

theorem indexStaged_head {tblEntry : Nat} {cmd : List DmaOne}
    (atBase : start < indexTable.size.tableEntries) (free : indexTable.links.used start = false) :
    IndexStaged tblEntry indexTable start cmd (insertHead indexTable start tblEntry cmd) := by
  have inTable := Nat.lt_trans atBase indexTable.size.base_lt_tot
  refine ⟨.inl free, ⟨[dmaCommand IpaNatIndxTblRule indexTable.size .updateHead start
    tblEntry], ipaTableAddDmaCmd_eq inTable, ?_, ?_⟩, insertAtHead_erase atBase free _⟩
  · show Insertion indexTable start _ start (foldl _ (indexTable.insertAtHead start _) _)
    rw [insertAtHead_posted]
    exact Insertion.head free
  · intro table
    rw [foldl_cons, foldl_nil, applyDma_index_command]

theorem indexStaged_tail {tblEntry : Nat} {start last slot : Nat} {cmd : List DmaOne}
    (occupied : indexTable.links.used start = true)
    (ends : ipaTableIteratorEnd indexTable start = .ok last)
    (found : findExpnTblFreeEntry indexTable = .ok slot)
    (lastUsed : indexTable.links.used last = true) (lastInTable : last < indexTable.size.totTblEnts)
    : IndexStaged tblEntry indexTable start cmd (linkTail indexTable last slot tblEntry cmd) := by
  obtain ⟨inExpansion, inTable, free⟩ := findExpnTblFreeEntry_ok found
  have different : last ≠ slot := by
    rintro rfl
    rw [free] at lastUsed
    cases lastUsed
  have metaElsewhere : ∀ (entry : IpaNatIndxTblRule) i, i ≠ slot →
      entryGetPrevIndex entry i
          (entrySetPrevIndex
            (installedIndex tblEntry (indexTable.records slot)) slot last
            indexTable.expnMeta indexTable.size.tableEntries).2 indexTable.size.tableEntries =
        entryGetPrevIndex entry i indexTable.expnMeta indexTable.size.tableEntries := by
    intro entry i other
    exact prev_setPrev_other _ _ _ _ _ _ _ other inExpansion
  refine ⟨hasRoom_of_found found, ⟨[dmaCommand IpaNatIndxTblRule indexTable.size
    .updateEntry last slot], ipaTableAddDmaCmd_eq lastInTable, ?_, ?_⟩,
    stageTail_erase inExpansion free metaElsewhere _⟩
  · have inserted : Insertion indexTable start (installedIndex tblEntry) slot _ :=
      Insertion.tail occupied ends found
    rw [appendAtTail_eq, ← stageTail_linked _ different] at inserted
    exact inserted
  · intro table
    rw [foldl_cons, foldl_nil, applyDma_index_command]

/-! ## The whole addition -/

/-- The records of both tables form chains, and a record with the invalid
protocol is a head. -/
structure Chained (natTable : IpaNatIp4TableCache) : Prop where
  sameSize : natTable.indexTable.size = natTable.table.size
  tableSound : ∃ rank head, natTable.table.Sound rank head
  indexSound : ∃ rank head, natTable.indexTable.Sound rank head
  deadAtBase : ∀ i, (natTable.table.records i).enable = true →
    (natTable.table.records i).protocol = ipahalNatInvalidProtocol →
    i < natTable.table.size.tableEntries

theorem newEntryIndex_bounds (size : TableSize) (hashToken : Nat) (clntRule : IpaNatIpv4Rule) :
    0 < (newEntryIndex platform size hashToken clntRule).1 ∧
      (newEntryIndex platform size hashToken clntRule).1 < size.tableEntries := by
  have positive := size.pred_pos
  have bounds : 0 < (newEntryIndex platform size hashToken clntRule).1 ∧
      (newEntryIndex platform size hashToken clntRule).1 ≤ size.tableEntries - 1 := by
    unfold newEntryIndex
    split
    · exact limitHash_bounds _ positive
    · exact dstHash_bounds _ _ _ _ _ _ positive
  omega

theorem newIndexTblEntryIndex_bounds (size : TableSize) (hashToken : Nat)
    (clntRule : IpaNatIpv4Rule) :
    0 < (newIndexTblEntryIndex size hashToken clntRule).1 ∧
      (newIndexTblEntryIndex size hashToken clntRule).1 < size.tableEntries := by
  have positive := size.pred_pos
  have bounds : 0 < (newIndexTblEntryIndex size hashToken clntRule).1 ∧
      (newIndexTblEntryIndex size hashToken clntRule).1 ≤ size.tableEntries - 1 := by
    unfold newIndexTblEntryIndex
    split
    · exact limitHash_bounds _ positive
    · exact srcHash_bounds _ _ _ _ _ positive
  omega

/-- The slots at which the two records of a rule are looked for first. -/
def natStart (platform : Platform) (hashToken : Nat) (natTable : IpaNatIp4TableCache)
    (clntRule : IpaNatIpv4Rule) : Nat :=
  (newEntryIndex platform natTable.table.size hashToken clntRule).1

/-- The slot at which the index record of a rule is looked for first. -/
def indexStart (platform : Platform) (hashToken : Nat) (natTable : IpaNatIp4TableCache)
    (clntRule : IpaNatIpv4Rule) : Nat :=
  (newIndexTblEntryIndex natTable.table.size
    (newEntryIndex platform natTable.table.size hashToken clntRule).2 clntRule).1

/-- What a rule needs in order to be added. -/
structure Addable (platform : Platform) (dmaOk : Bool) (hashToken : Nat)
    (natTable : IpaNatIp4TableCache) (clntRule : IpaNatIpv4Rule) : Prop where
  accepted : ruleAccepted platform clntRule = true
  mapped : natTable.memDescValid = true
  natRoom : HasRoom natTable.table (natStart platform hashToken natTable clntRule)
  indexRoom : HasRoom natTable.indexTable (indexStart platform hashToken natTable clntRule)
  posted : dmaOk = true

/-- The effect of a successful addition. -/
structure Added (platform : Platform) (hashToken : Nat) (natTable : IpaNatIp4TableCache)
    (clntRule : IpaNatIpv4Rule) (slot indexSlot : Nat) (changed : IpaNatIp4TableCache) :
    Prop where
  mapped : changed.memDescValid = true
  table : Insertion natTable.table (natStart platform hashToken natTable clntRule)
    (installedRule platform clntRule indexSlot) slot changed.table
  indexTable : Insertion natTable.indexTable (indexStart platform hashToken natTable clntRule)
    (installedIndex slot) indexSlot changed.indexTable

/-- The effect of a failed addition. -/
structure Refused (natTable changed : IpaNatIp4TableCache) : Prop where
  mapped : changed.memDescValid = natTable.memDescValid
  table : Discarded natTable.table changed.table
  indexTable : Discarded natTable.indexTable changed.indexTable

theorem natStaged_cases (sound : table.Sound rank head) (positive : 0 < start)
    (atBase : start < table.size.tableEntries) :
    (∃ newEntry, ipaTableAddEntry table
        (ClientData.mk (platform.pdns clntRule.pdnIndex) clntRule) start [] = .ok newEntry ∧
        NatStaged platform clntRule table start newEntry) ∨
      (¬ HasRoom table start ∧ ∃ errno, ipaTableAddEntry table
        (ClientData.mk (platform.pdns clntRule.pdnIndex) clntRule) start [] = .error errno) := by
  rcases addEntry_cases sound (ClientData.mk (platform.pdns clntRule.pdnIndex) clntRule)
      start [] with ⟨free, added⟩ | ⟨last, slot, occupied, ends, found, added⟩ | full
  · exact .inl ⟨_, added, natStaged_head platform clntRule positive atBase free⟩
  · have lastUsed := (used_of_iteratorEnd sound occupied ends).1
    exact .inl ⟨_, added, natStaged_tail platform clntRule occupied ends found lastUsed
      (sound.linked.inside _ lastUsed).2⟩
  · exact .inr full

theorem indexStaged_cases (tblEntry : Nat)
    (sound : indexTable.Sound rank head) (atBase : start < indexTable.size.tableEntries)
    (cmd : List DmaOne) :
    (∃ newIndex, ipaTableAddEntry indexTable tblEntry start cmd = .ok newIndex ∧
        IndexStaged tblEntry indexTable start cmd newIndex) ∨
      (¬ HasRoom indexTable start ∧
        ∃ errno, ipaTableAddEntry indexTable tblEntry start cmd = .error errno) := by
  rcases addEntry_cases sound tblEntry start cmd with
    ⟨free, added⟩ | ⟨last, slot, occupied, ends, found, added⟩ | full
  · exact .inl ⟨_, added, indexStaged_head atBase free⟩
  · have lastUsed := (used_of_iteratorEnd sound occupied ends).1
    exact .inl ⟨_, added, indexStaged_tail occupied ends found lastUsed
      (sound.linked.inside _ lastUsed).2⟩
  · exact .inr full

/-- `ipa_NATI_add_ipv4_rule` adds the rule exactly when it can, and leaves both
tables alone otherwise. -/
theorem addIpv4Rule_cases (platform : Platform) (dmaOk : Bool) (hashToken : Nat)
    {natTable : IpaNatIp4TableCache} (chained : Chained natTable) (clntRule : IpaNatIpv4Rule) :
    let outcome := ipaNATIAddIpv4Rule platform dmaOk hashToken natTable clntRule
    (Addable platform dmaOk hashToken natTable clntRule ∧
        ∃ slot indexSlot, outcome.ret = .ok (makeEntryHdl natTable.table slot) ∧
          Added platform hashToken natTable clntRule slot indexSlot outcome.natTable) ∨
      (¬ Addable platform dmaOk hashToken natTable clntRule ∧
        (∃ errno, outcome.ret = .error errno) ∧ Refused natTable outcome.natTable) := by
  obtain ⟨rank, head, tableSound⟩ := chained.tableSound
  obtain ⟨indexRank, indexHead, indexSound⟩ := chained.indexSound
  obtain ⟨positive, atBase⟩ :=
    newEntryIndex_bounds platform natTable.table.size hashToken clntRule
  have indexAtBase : (newIndexTblEntryIndex natTable.table.size
      (newEntryIndex platform natTable.table.size hashToken clntRule).2 clntRule).1 <
        natTable.indexTable.size.tableEntries := by
    rw [chained.sameSize]
    exact (newIndexTblEntryIndex_bounds _ _ _).2
  have unchanged : Refused natTable natTable := ⟨rfl, .same, .same⟩
  simp only [ipaNATIAddIpv4Rule]
  cases accepted : ruleAccepted platform clntRule with
  | false =>
    right
    refine ⟨fun addable => ?_, ⟨_, rfl⟩, unchanged⟩
    rw [addable.accepted] at accepted
    cases accepted
  | true =>
    cases mapped : natTable.memDescValid with
    | false =>
      right
      refine ⟨fun addable => ?_, ⟨_, rfl⟩, unchanged⟩
      rw [addable.mapped] at mapped
      cases mapped
    | true =>
      rcases natStaged_cases platform clntRule tableSound positive atBase with
        ⟨newEntry, added, staged⟩ | ⟨full, errno, failed⟩
      · rw [added]
        rcases indexStaged_cases newEntry.recIndex indexSound indexAtBase newEntry.cmd with
          ⟨newIndex, indexAdded, indexStaged⟩ | ⟨indexFull, errno, indexFailed⟩
        · have there := ipaTableGetEntryByIndex_eq staged.positive staged.inTable
          simp only [indexAdded, there]
          cases dmaOk with
          | true =>
            left
            obtain ⟨own, queued, inserted, foreign⟩ := indexStaged.posted
            refine ⟨⟨accepted, mapped, staged.room, indexStaged.room, rfl⟩,
              newEntry.recIndex, newIndex.recIndex, rfl, ?_⟩
            simp only [ipaNatiPostIpv4DmaCmd, queued, foldl_append, foldl_applyDma,
              staged.foreign, foreign]
            exact ⟨rfl, staged.posted _, inserted⟩
          | false =>
            right
            refine ⟨fun addable => Bool.false_ne_true addable.posted, ⟨_, rfl⟩, mapped.symm,
              ?_, indexStaged.erased⟩
            simp only [eraseEntry_store]
            exact staged.erased
        · right
          simp only [indexFailed]
          exact ⟨fun addable => indexFull addable.indexRoom, ⟨_, rfl⟩, mapped.symm,
            staged.erased, .same⟩
      · right
        rw [failed]
        exact ⟨fun addable => full addable.natRoom, ⟨_, rfl⟩, unchanged⟩

end Sm8650.IpaNat
