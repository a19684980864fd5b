import Sm8650.IpaNat.Chain

/-!
# Cross references between the two tables

As long as no ioctl fails, live NAT records and used index records point at each
other, and both records of a rule are on the chain that the hardware searches
for it.
-/

namespace Sm8650.IpaNat

open Chains Transition Function IpaTable

/-- `dst_hash` of the tuple in a rule record. -/
def recordDstHash (platform : Platform) (size : TableSize) (entry : IpaNatRule) : Nat :=
  dstHash platform.hwV4 (platform.pdns (entry.pdnIndex.setWidth 8)) entry.targetIp
    entry.targetPort entry.publicPort entry.protocol (size.tableEntries - 1)

/-- `src_hash` of the tuple in a rule record. -/
def recordSrcHash (size : TableSize) (entry : IpaNatRule) : Nat :=
  srcHash entry.privateIp entry.privatePort entry.targetIp entry.targetPort entry.protocol
    (size.tableEntries - 1)

/-- Live NAT records and used index records point at each other, and each is on
the chain of its hash, where `head` and `indexHead` give the chain of a slot. -/
structure CrossReferenced (platform : Platform) (natTable : IpaNatIp4TableCache)
    (head indexHead : Nat → Nat) : Prop where
  forward : ∀ i, Live natTable.table i →
    natTable.indexTable.links.used (natTable.table.records i).indxTblEntry = true ∧
      (natTable.indexTable.records (natTable.table.records i).indxTblEntry).tblEntry = i
  backward : ∀ j, natTable.indexTable.links.used j = true →
    Live natTable.table (natTable.indexTable.records j).tblEntry ∧
      (natTable.table.records (natTable.indexTable.records j).tblEntry).indxTblEntry = j
  natChain : ∀ i, Live natTable.table i → (natTable.table.records i).srcOnly = false →
    head i = recordDstHash platform natTable.table.size (natTable.table.records i)
  indexChain : ∀ i, Live natTable.table i → (natTable.table.records i).dstOnly = false →
    indexHead (natTable.table.records i).indxTblEntry =
      recordSrcHash natTable.table.size (natTable.table.records i)

/-- The invariant of runs without failing ioctls. -/
def CrossInvariant (platform : Platform) (natTable : IpaNatIp4TableCache) : Prop :=
  Chained natTable ∧ ∃ rank head indexRank indexHead,
    natTable.table.Sound rank head ∧ natTable.indexTable.Sound indexRank indexHead ∧
      CrossReferenced platform natTable head indexHead

/-! ## What of a record the cross references depend on -/

variable {first second : IpaNatRule}

theorem recordDstHash_of_content (platform : Platform) (size : TableSize)
    (same : first.content = second.content) :
    recordDstHash platform size first = recordDstHash platform size second := by
  have projected : recordDstHash platform size first.content =
      recordDstHash platform size second.content := by rw [same]
  exact projected

theorem recordSrcHash_of_content (size : TableSize) (same : first.content = second.content) :
    recordSrcHash size first = recordSrcHash size second := by
  have projected : recordSrcHash size first.content = recordSrcHash size second.content := by
    rw [same]
  exact projected

theorem srcOnly_of_content (same : first.content = second.content) :
    first.srcOnly = second.srcOnly := by
  have projected : first.content.srcOnly = second.content.srcOnly := by rw [same]
  exact projected

theorem dstOnly_of_content (same : first.content = second.content) :
    first.dstOnly = second.dstOnly := by
  have projected : first.content.dstOnly = second.content.dstOnly := by rw [same]
  exact projected

namespace CrossReferenced

variable {platform : Platform} {natTable : IpaNatIp4TableCache} {head indexHead : Nat → Nat}

end CrossReferenced

/-! ## Additions -/

section Added

variable {platform : Platform} {hashToken : Nat} {natTable changed : IpaNatIp4TableCache}
  {clntRule : IpaNatIpv4Rule} {slot indexSlot : Nat}

theorem Insertion.tblEntry_other {indexTable changed : IpaTable IpaNatIndxTblRule}
    {start slot tblEntry : Nat}
    (insertion : Insertion indexTable start (installedIndex tblEntry) slot changed)
    {j : Nat} (different : j ≠ slot) :
    (changed.records j).tblEntry = (indexTable.records j).tblEntry := by
  cases insertion with
  | head free => simp [insertAtHead, different]
  | @tail last slot occupied ends found =>
    by_cases isLast : j = last
    · subst isLast
      simp only [appendAtTail, store_records, update_self]
      rfl
    · simp [appendAtTail, isLast, different]

theorem Insertion.tblEntry_slot {indexTable changed : IpaTable IpaNatIndxTblRule}
    {start slot tblEntry : Nat}
    (insertion : Insertion indexTable start (installedIndex tblEntry) slot changed)
    {rank head : Nat → Nat} (sound : indexTable.Sound rank head) :
    (changed.records slot).tblEntry = tblEntry := by
  cases insertion with
  | head free => simp [insertAtHead, installedIndex]
  | @tail last slot occupied ends found =>
    obtain ⟨inExpansion, _, _⟩ := findExpnTblFreeEntry_ok found
    have different := ne_last_of_found sound occupied ends found
    simp [appendAtTail, different, EntryInterface.entrySetPrevIndex, inExpansion, installedIndex]

/-- A client's PDN index fits the four bits of the record. -/
theorem pdns_installed (platform : Platform) {clntRule : IpaNatIpv4Rule}
    (accepted : ruleAccepted platform clntRule = true) :
    (clntRule.pdnIndex.setWidth 4).setWidth 8 = clntRule.pdnIndex := by
  have small : clntRule.pdnIndex.toNat < ipaMaxPdnNum := by
    simp only [ruleAccepted, Bool.and_eq_true, decide_eq_true_eq] at accepted
    exact accepted.1.2
  unfold ipaMaxPdnNum at small
  apply BitVec.eq_of_toNat_eq
  simp only [BitVec.toNat_setWidth]
  omega

theorem index_used_iff (indexTable : IpaTable IpaNatIndxTblRule) (j : Nat) :
    indexTable.links.used j = true ↔ (indexTable.records j).tblEntry ≠ 0 := bne_iff_ne

/-- The start slot of a rule that is not hashed with the token. -/
theorem natStart_of_installed (accepted : ruleAccepted platform clntRule = true)
    (indxTblEntry : Nat) (old : IpaNatRule)
    (notSrcOnly : (installedRule platform clntRule indxTblEntry old).srcOnly = false) :
    natStart platform hashToken natTable clntRule = recordDstHash platform natTable.table.size
      (installedRule platform clntRule indxTblEntry old) := by
  have plain : clntRule.srcOnly = false := notSrcOnly
  have samePdn := pdns_installed platform accepted
  unfold natStart newEntryIndex
  rw [plain]
  show dstHash _ (platform.pdns clntRule.pdnIndex) _ _ _ _ _ =
    dstHash _ (platform.pdns ((clntRule.pdnIndex.setWidth 4).setWidth 8)) _ _ _ _ _
  rw [samePdn]
  rfl

theorem indexStart_of_installed (indxTblEntry : Nat) (old : IpaNatRule)
    (notDstOnly : (installedRule platform clntRule indxTblEntry old).dstOnly = false) :
    indexStart platform hashToken natTable clntRule = recordSrcHash natTable.table.size
      (installedRule platform clntRule indxTblEntry old) := by
  have plain : clntRule.dstOnly = false := notDstOnly
  unfold indexStart newIndexTblEntryIndex
  rw [plain]
  rfl

/-- The live records after an addition. -/
theorem Added.live_iff (added : Added platform hashToken natTable clntRule slot indexSlot changed)
    (accepted : ruleAccepted platform clntRule = true) {rank head : Nat → Nat}
    (sound : natTable.table.Sound rank head) (i : Nat) :
    Live changed.table i ↔ i = slot ∨ Live natTable.table i := by
  by_cases isSlot : i = slot
  · subst isSlot
    obtain ⟨prevIndex, record⟩ := added.table.record_slot sound
    refine iff_of_true ?_ (.inl rfl)
    unfold Live
    rw [links_used, record]
    exact ⟨rfl, not_isDead_installedRule accepted indexSlot (natTable.table.records i)⟩
  · rw [live_of_content (content_of_unlinked (added.table.unlinked_other isSlot))]
    simp [isSlot]

theorem Added.crossInvariant
    (added : Added platform hashToken natTable clntRule slot indexSlot changed)
    (accepted : ruleAccepted platform clntRule = true)
    (invariant : CrossInvariant platform natTable) : CrossInvariant platform changed := by
  obtain ⟨chained, rank, head, indexRank, indexHead, tableSound, indexSound, crossed⟩ :=
    invariant
  obtain ⟨newRank, newSound⟩ := added.table_sound tableSound
  obtain ⟨newIndexRank, newIndexSound⟩ := added.index_sound chained.sameSize indexSound
  obtain ⟨positive, _, unused⟩ := added.slot_bounds
  obtain ⟨prevIndex, record⟩ := added.table.record_slot tableSound
  have ownIndx : (changed.table.records slot).indxTblEntry = indexSlot := by
    rw [record]
    rfl
  have ownTbl := added.indexTable.tblEntry_slot indexSound
  have indexUnused : natTable.indexTable.links.used indexSlot = false := by
    obtain ⟨startPositive, startAtBase⟩ := newIndexTblEntryIndex_bounds natTable.table.size
      (newEntryIndex platform natTable.table.size hashToken clntRule).2 clntRule
    rw [← chained.sameSize] at startAtBase
    have bounds := added.indexTable.slot_bounds startPositive
    rw [chained.sameSize] at bounds startAtBase
    exact (bounds startAtBase).2.2
  have notOld : ∀ i, Live natTable.table i → i ≠ slot := by
    rintro i live rfl
    rw [live.1] at unused
    cases unused
  have indexNotOld : ∀ j, natTable.indexTable.links.used j = true → j ≠ indexSlot := by
    rintro j used rfl
    rw [used] at indexUnused
    cases indexUnused
  have sameSize := added.table.size_eq
  refine ⟨added.chained accepted chained, newRank, _, newIndexRank, _, newSound,
    newIndexSound, ?_, ?_, ?_, ?_⟩
  · intro i live
    rcases (added.live_iff accepted tableSound i).mp live with rfl | wasLive
    · rw [ownIndx, index_used_iff, ownTbl]
      exact ⟨Nat.pos_iff_ne_zero.mp positive, rfl⟩
    · obtain ⟨used, back⟩ := crossed.forward i wasLive
      have sameIndx := indxTblEntry_of_unlinked (added.table.unlinked_other (notOld i wasLive))
      rw [sameIndx, index_used_iff, added.indexTable.tblEntry_other (indexNotOld _ used)]
      exact ⟨(index_used_iff _ _).mp used, back⟩
  · intro j used
    by_cases isSlot : j = indexSlot
    · rw [isSlot, ownTbl, ownIndx]
      exact ⟨(added.live_iff accepted tableSound slot).mpr (.inl rfl), rfl⟩
    · have sameTbl := added.indexTable.tblEntry_other isSlot
      rw [index_used_iff, sameTbl, ← index_used_iff] at used
      obtain ⟨wasLive, back⟩ := crossed.backward j used
      rw [sameTbl]
      refine ⟨(added.live_iff accepted tableSound _).mpr (.inr wasLive), ?_⟩
      rw [indxTblEntry_of_unlinked (added.table.unlinked_other (notOld _ wasLive)), back]
  · intro i live notSrcOnly
    rw [sameSize]
    rcases (added.live_iff accepted tableSound i).mp live with rfl | wasLive
    · rw [update_self]
      rw [record] at notSrcOnly ⊢
      exact natStart_of_installed accepted indexSlot (natTable.table.records i) notSrcOnly
    · have same := content_of_unlinked (added.table.unlinked_other (notOld i wasLive))
      rw [update_of_ne (notOld i wasLive), recordDstHash_of_content _ _ same]
      rw [srcOnly_of_content same] at notSrcOnly
      exact crossed.natChain i wasLive notSrcOnly
  · intro i live notDstOnly
    rw [sameSize]
    rcases (added.live_iff accepted tableSound i).mp live with rfl | wasLive
    · rw [ownIndx, update_self]
      rw [record] at notDstOnly ⊢
      exact indexStart_of_installed indexSlot (natTable.table.records i) notDstOnly
    · have sameLinked := added.table.unlinked_other (notOld i wasLive)
      have same := content_of_unlinked sameLinked
      rw [indxTblEntry_of_unlinked sameLinked,
        update_of_ne (indexNotOld _ (crossed.forward i wasLive).1),
        recordSrcHash_of_content _ same]
      rw [dstOnly_of_content same] at notDstOnly
      exact crossed.indexChain i wasLive notDstOnly

/-- The live records after a failed addition. -/
theorem Refused.live_iff (refused : Refused natTable changed) (i : Nat) :
    Live changed.table i ↔ Live natTable.table i := by
  unfold Live
  rw [refused.table.used_eq]
  constructor
  · rintro ⟨used, notDead⟩
    exact ⟨used, refused.table.records_eq used ▸ notDead⟩
  · rintro ⟨used, notDead⟩
    exact ⟨used, (refused.table.records_eq used).symm ▸ notDead⟩

theorem Refused.crossInvariant (refused : Refused natTable changed)
    (invariant : CrossInvariant platform natTable) : CrossInvariant platform changed := by
  obtain ⟨chained, rank, head, indexRank, indexHead, tableSound, indexSound, crossed⟩ :=
    invariant
  have sameRecord : ∀ i, Live changed.table i →
      Live natTable.table i ∧ changed.table.records i = natTable.table.records i := by
    intro i live
    have wasLive := (refused.live_iff i).mp live
    exact ⟨wasLive, refused.table.records_eq wasLive.1⟩
  refine ⟨refused.chained chained, rank, head, indexRank, indexHead,
    refused.table.sound_of tableSound, refused.indexTable.sound_of indexSound, ?_, ?_, ?_, ?_⟩
  · intro i live
    obtain ⟨wasLive, same⟩ := sameRecord i live
    obtain ⟨used, back⟩ := crossed.forward i wasLive
    rw [same, refused.indexTable.used_eq, refused.indexTable.records_eq used]
    exact ⟨used, back⟩
  · intro j used
    rw [refused.indexTable.used_eq] at used
    obtain ⟨live, back⟩ := crossed.backward j used
    rw [refused.indexTable.records_eq used, refused.table.records_eq live.1]
    exact ⟨(refused.live_iff _).mpr live, back⟩
  · intro i live notSrcOnly
    obtain ⟨wasLive, same⟩ := sameRecord i live
    rw [same] at notSrcOnly ⊢
    rw [refused.table.size_eq]
    exact crossed.natChain i wasLive notSrcOnly
  · intro i live notDstOnly
    obtain ⟨wasLive, same⟩ := sameRecord i live
    rw [same] at notDstOnly ⊢
    rw [refused.table.size_eq]
    exact crossed.indexChain i wasLive notDstOnly

end Added

/-! ## Deletions -/

section IndexDeletion

variable {indexTable : IpaTable IpaNatIndxTblRule} {rank head : Nat → Nat} {slot : Nat}

theorem tblEntry_setPrev (entry : IpaNatIndxTblRule) (index prevIndex : Nat)
    (expnMeta : Nat → Nat) (base : Nat) :
    (EntryInterface.entrySetPrevIndex entry index prevIndex expnMeta base).1.tblEntry =
      entry.tblEntry := by
  simp only [EntryInterface.entrySetPrevIndex]
  split <;> rfl

/-- Taking an index record out leaves the owners of the others alone. -/
theorem tblEntry_spliceOut (apart : indexTable.Apart slot) {j : Nat} (different : j ≠ slot) :
    ((indexTable.spliceOut slot).records j).tblEntry = (indexTable.records j).tblEntry := by
  by_cases isPrev : j = indexTable.links.prev slot
  · rw [isPrev, spliceOut_prev apart]
    rfl
  · by_cases isNext : j = indexTable.links.next slot ∧ indexTable.links.next slot ≠ 0
    · rw [isNext.1, spliceOut_next apart isNext.2, tblEntry_setPrev]
    · rw [spliceOut_other different isPrev isNext]

theorem tblEntry_spliceOut_slot : ((indexTable.spliceOut slot).records slot).tblEntry = 0 := by
  rw [spliceOut_slot]
  rfl

/-- Where an index record is after a deletion: the second record of the chain
moves to the head if the head is deleted. -/
def movedIndex (indexTable : IpaTable IpaNatIndxTblRule) (slot j : Nat) : Nat :=
  if slot < indexTable.size.tableEntries ∧ indexTable.links.next slot ≠ 0 ∧
      j = indexTable.links.next slot then slot else j

theorem movedIndex_behind (indexTable : IpaTable IpaNatIndxTblRule) (slot : Nat)
    (notSecond : ¬ (slot < indexTable.size.tableEntries ∧ indexTable.links.next slot ≠ 0))
    (j : Nat) : movedIndex indexTable slot j = j := by
  unfold movedIndex
  rw [if_neg]
  rintro ⟨atBase, continues, _⟩
  exact notSecond ⟨atBase, continues⟩

variable {changed : IpaTable IpaNatIndxTblRule}

/-- After a deletion the owners are those of the other records, each at the slot
it moved to. -/
theorem IndexDeletion.owners (deletion : IndexDeletion indexTable slot changed)
    (sound : indexTable.Sound rank head) (used : indexTable.links.used slot = true) :
    (∀ j, indexTable.links.used j = true → j ≠ slot →
        (changed.records (movedIndex indexTable slot j)).tblEntry =
          (indexTable.records j).tblEntry) ∧
      ∀ k, changed.links.used k = true →
        ∃ j, indexTable.links.used j = true ∧ j ≠ slot ∧ k = movedIndex indexTable slot j := by
  cases deletion with
  | alone atBase ends =>
    have moved := movedIndex_behind indexTable slot (fun both => both.2 ends)
    refine ⟨?_, ?_⟩
    · intro j _ different
      rw [moved, eraseEntry_records, update_of_ne different]
    · intro k stillUsed
      have different : k ≠ slot := by
        rintro rfl
        simp [links_used, LawfulEntryInterface.zeroed_invalid] at stillUsed
      rw [links_used, eraseEntry_records, update_of_ne different] at stillUsed
      exact ⟨k, stillUsed, different, (moved k).symm⟩
  | behind inExpansion =>
    have apart := sound.neighbours_apart used inExpansion
    have moved := movedIndex_behind indexTable slot (fun both => by omega)
    refine ⟨?_, ?_⟩
    · intro j _ different
      rw [moved]
      exact tblEntry_spliceOut apart different
    · intro k stillUsed
      rw [index_used_iff] at stillUsed
      have different : k ≠ slot := by
        rintro rfl
        exact stillUsed tblEntry_spliceOut_slot
      refine ⟨k, ?_, different, (moved k).symm⟩
      rw [index_used_iff, ← tblEntry_spliceOut apart different]
      exact stillUsed
  | second atBase continues =>
    obtain ⟨nextUsed, nextExpansion⟩ := copySecond_next_used sound used continues atBase
    have apart := (copySecond_sound sound used continues).neighbours_apart nextUsed nextExpansion
    have headOther : slot ≠ indexTable.links.next slot := by omega
    have copiedHead : ((copySecond indexTable slot).records slot).tblEntry =
        (indexTable.records (indexTable.links.next slot)).tblEntry := by
      simp [copySecond]
    have copiedOther : ∀ j, j ≠ slot →
        ((copySecond indexTable slot).records j).tblEntry = (indexTable.records j).tblEntry := by
      intro j different
      simp [copySecond, different]
    refine ⟨?_, ?_⟩
    · intro j _ different
      show (((copySecond indexTable slot).spliceOut _).records _).tblEntry = _
      unfold movedIndex
      by_cases isNext : j = indexTable.links.next slot
      · rw [if_pos ⟨atBase, continues, isNext⟩, tblEntry_spliceOut apart headOther,
          copiedHead, isNext]
      · rw [if_neg (fun all => isNext all.2.2), tblEntry_spliceOut apart isNext,
          copiedOther j different]
    · intro k stillUsed
      rw [index_used_iff] at stillUsed
      have notNext : k ≠ indexTable.links.next slot := by
        rintro rfl
        exact stillUsed tblEntry_spliceOut_slot
      have owner : (((copySecond indexTable slot).spliceOut
          (indexTable.links.next slot)).records k).tblEntry ≠ 0 := stillUsed
      rw [tblEntry_spliceOut apart notNext] at owner
      unfold movedIndex
      by_cases isHead : k = slot
      · refine ⟨indexTable.links.next slot, ?_, Ne.symm headOther, ?_⟩
        · exact (sound.linked.nextUsed slot used continues).1
        · rw [if_pos ⟨atBase, continues, rfl⟩, isHead]
      · refine ⟨k, ?_, isHead, ?_⟩
        · rw [index_used_iff, ← copiedOther k isHead]
          exact owner
        · rw [if_neg (fun all => notNext all.2.2)]

/-- A record stays on its chain when it moves. -/
theorem head_movedIndex (sound : indexTable.Sound rank head)
    (used : indexTable.links.used slot = true) (j : Nat) :
    head (movedIndex indexTable slot j) = head j := by
  unfold movedIndex
  split
  · rename_i all
    obtain ⟨atBase, continues, rfl⟩ := all
    exact (sound.linked.rank_lt_next used continues).2.symm
  · rfl

end IndexDeletion

section Deleted

variable {platform : Platform} {natTable changed : IpaNatIp4TableCache} {slot : Nat}
  {head indexHead : Nat → Nat}

/-- The store that precedes the commands gives every live rule the slot that its
index record moves to. -/
theorem indxTblEntry_redirectSecond
    (crossed : CrossReferenced platform natTable head indexHead) {indexSlot : Nat}
    (nextUsed : natTable.indexTable.links.next indexSlot ≠ 0 →
      natTable.indexTable.links.used (natTable.indexTable.links.next indexSlot) = true)
    {i : Nat} (live : Live natTable.table i) :
    ((redirectSecond natTable indexSlot).records i).indxTblEntry =
      movedIndex natTable.indexTable indexSlot (natTable.table.records i).indxTblEntry := by
  unfold redirectSecond movedIndex
  by_cases second : indexSlot < natTable.indexTable.size.tableEntries ∧
      natTable.indexTable.links.next indexSlot ≠ 0
  · obtain ⟨atBase, continues⟩ := second
    rw [if_pos ⟨atBase, continues⟩, store_records]
    by_cases isOwner : i = (natTable.indexTable.records
        (natTable.indexTable.links.next indexSlot)).tblEntry
    · subst isOwner
      rw [update_self, if_pos ⟨atBase, continues, (crossed.backward _ (nextUsed continues)).2⟩]
    · rw [update_of_ne isOwner, if_neg]
      rintro ⟨_, _, isNext⟩
      have back := (crossed.forward i live).2
      rw [isNext] at back
      exact isOwner back.symm
  · rw [if_neg second, if_neg (fun all => second ⟨all.1, all.2.1⟩)]

theorem content_redirectSecond (natTable : IpaNatIp4TableCache) (indexSlot i : Nat) :
    ((redirectSecond natTable indexSlot).records i).content =
      (natTable.table.records i).content := by
  obtain ⟨indxTblEntry, redirected⟩ := records_redirectSecond natTable indexSlot i
  rw [redirected]
  rfl

theorem live_redirectSecond (natTable : IpaNatIp4TableCache) (indexSlot i : Nat) :
    Live (redirectSecond natTable indexSlot) i ↔ Live natTable.table i :=
  live_of_content (content_redirectSecond natTable indexSlot i)

/-- The live records after a deletion. -/
theorem NatDeletion.live_iff {table changed : IpaTable IpaNatRule} {rank : Nat → Nat}
    (deletion : NatDeletion table slot changed) (sound : table.Sound rank head)
    (used : table.links.used slot = true) (i : Nat) : Live changed i ↔ Live table i ∧ i ≠ slot := by
  constructor
  · intro live
    rcases deletion.unlinked_used sound used live.1 with ⟨different, same⟩ | ⟨_, _, dead⟩
    · exact ⟨(live_of_content (content_of_unlinked same)).mp live, different⟩
    · exact absurd dead live.2
  · rintro ⟨live, different⟩
    have same := deletion.unlinked_other sound used different live.2
    exact (live_of_content (content_of_unlinked same)).mpr live

theorem Deleted.crossInvariant (deleted : Deleted natTable slot changed)
    (live : Live natTable.table slot) (invariant : CrossInvariant platform natTable) :
    CrossInvariant platform changed := by
  obtain ⟨chained, rank, head, indexRank, indexHead, tableSound, indexSound, crossed⟩ :=
    invariant
  obtain ⟨indexUsed, indexOwner⟩ := crossed.forward slot live
  generalize ownIndex : (natTable.table.records slot).indxTblEntry = indexSlot at *
  have natDeleted := deleted.table
  have indexDeleted := deleted.indexTable
  rw [ownIndex] at natDeleted indexDeleted
  have redirectedSound := sound_redirectSecond tableSound indexSlot
  have stillUsed := live.1
  rw [← links_redirectSecond natTable indexSlot] at stillUsed
  obtain ⟨owners, everyOwner⟩ := indexDeleted.owners indexSound indexUsed
  have nextUsed := fun continues =>
    (indexSound.linked.nextUsed indexSlot indexUsed continues).1
  have liveIff : ∀ i, Live changed.table i ↔ Live natTable.table i ∧ i ≠ slot := by
    intro i
    rw [natDeleted.live_iff redirectedSound stillUsed, live_redirectSecond]
  have sameContent : ∀ i, Live natTable.table i → i ≠ slot →
      (changed.table.records i).content = (natTable.table.records i).content := by
    intro i wasLive different
    have notDead := ((live_redirectSecond natTable indexSlot i).mpr wasLive).2
    have same := natDeleted.unlinked_other redirectedSound stillUsed different notDead
    exact (content_of_unlinked same).trans (content_redirectSecond natTable indexSlot i)
  have moved : ∀ i, Live natTable.table i → i ≠ slot →
      (changed.table.records i).indxTblEntry =
        movedIndex natTable.indexTable indexSlot (natTable.table.records i).indxTblEntry := by
    intro i wasLive different
    have notDead := ((live_redirectSecond natTable indexSlot i).mpr wasLive).2
    have same := natDeleted.unlinked_other redirectedSound stillUsed different notDead
    rw [indxTblEntry_of_unlinked same, indxTblEntry_redirectSecond crossed nextUsed wasLive]
  have otherIndex : ∀ i, Live natTable.table i → i ≠ slot →
      (natTable.table.records i).indxTblEntry ≠ indexSlot := by
    intro i wasLive different same
    have back := (crossed.forward i wasLive).2
    rw [same, indexOwner] at back
    exact different back.symm
  have sameSize : changed.table.size = natTable.table.size :=
    natDeleted.size_eq.trans (size_redirectSecond natTable indexSlot)
  refine ⟨deleted.chained chained live.1 (ownIndex.symm ▸ indexUsed), rank, head, indexRank,
    indexHead, natDeleted.sound_of redirectedSound stillUsed
      (dead_redirectSecond chained indexSlot), indexDeleted.sound_of indexSound indexUsed,
    ?_, ?_, ?_, ?_⟩
  · intro i nowLive
    obtain ⟨wasLive, different⟩ := (liveIff i).mp nowLive
    obtain ⟨used, back⟩ := crossed.forward i wasLive
    have owner := owners _ used (otherIndex i wasLive different)
    rw [moved i wasLive different, index_used_iff, owner, back]
    refine ⟨?_, rfl⟩
    exact Nat.pos_iff_ne_zero.mp (tableSound.linked.inside i wasLive.1).1
  · intro k used
    obtain ⟨j, wasUsed, different, rfl⟩ := everyOwner k used
    obtain ⟨wasLive, back⟩ := crossed.backward j wasUsed
    have notSlot : (natTable.indexTable.records j).tblEntry ≠ slot := by
      intro same
      rw [same, ownIndex] at back
      exact different back.symm
    rw [owners j wasUsed different, moved _ wasLive notSlot, back]
    exact ⟨(liveIff _).mpr ⟨wasLive, notSlot⟩, rfl⟩
  · intro i nowLive notSrcOnly
    obtain ⟨wasLive, different⟩ := (liveIff i).mp nowLive
    have same := sameContent i wasLive different
    rw [sameSize, recordDstHash_of_content _ _ same]
    rw [srcOnly_of_content same] at notSrcOnly
    exact crossed.natChain i wasLive notSrcOnly
  · intro i nowLive notDstOnly
    obtain ⟨wasLive, different⟩ := (liveIff i).mp nowLive
    have same := sameContent i wasLive different
    rw [moved i wasLive different, head_movedIndex indexSound indexUsed, sameSize,
      recordSrcHash_of_content _ same]
    rw [dstOnly_of_content same] at notDstOnly
    exact crossed.indexChain i wasLive notDstOnly

end Deleted

/-! ## Runs without failing ioctls -/

/-- Additions of any rule and deletions of live rules, with ioctls that succeed. -/
def CleanCall (state : NatState) : NatCall → Prop
  | .add _ dmaOk => dmaOk = true
  | .del ruleHdl dmaOk =>
    dmaOk = true ∧ Live state.natTable.table (breakRuleHdl state.natTable.table ruleHdl)

/-- Steps that are clean calls. -/
def cleanStep (platform : Platform) : LabelledStep NatState NatCall :=
  guarded CleanCall (natCall platform)

theorem crossInvariant_create (platform : Platform) (nmi : NatMemIn) (size : TableSize) :
    CrossInvariant platform (IpaNatIp4TableCache.create nmi size) := by
  have noneLive : ∀ i, ¬ Live (IpaNatIp4TableCache.create nmi size).table i := by
    rintro i ⟨enabled, _⟩
    cases enabled
  refine ⟨chained_create nmi size, _, _, _, _, Sound.init nmi size,
    Sound.init nmi size, ?_, ?_, ?_, ?_⟩
  · exact fun i live => absurd live (noneLive i)
  · intro j used
    cases used
  · exact fun i live => absurd live (noneLive i)
  · exact fun i live => absurd live (noneLive i)

theorem crossInvariant_natCall {platform : Platform} {state : NatState}
    (invariant : CrossInvariant platform state.natTable) {call : NatCall}
    (clean : CleanCall state call) :
    CrossInvariant platform (natCall platform state call).natTable := by
  have chained := invariant.1
  cases call with
  | add clntRule dmaOk =>
    rcases addIpv4Rule_cases platform dmaOk state.hashToken chained clntRule with
      ⟨addable, slot, indexSlot, _, added⟩ | ⟨_, _, refused⟩
    · exact added.crossInvariant addable.accepted invariant
    · exact refused.crossInvariant invariant
  | del ruleHdl dmaOk =>
    obtain ⟨posted, live⟩ := clean
    rcases delIpv4Rule_cases dmaOk chained ruleHdl with
      ⟨_, _, _, deleted⟩ | ⟨_, failed, _, _⟩ | ⟨_, _, unchanged⟩
    · exact deleted.crossInvariant live invariant
    · rw [posted] at failed
      cases failed
    · simp only [natCall, unchanged]
      exact invariant

theorem crossInvariant_of_reaches {platform : Platform} {nmi : NatMemIn} {size : TableSize}
    {hashToken : Nat} {state : NatState}
    (reached : Reaches (cleanStep platform) (NatState.create nmi size hashToken) state) :
    CrossInvariant platform state.natTable := by
  refine @Reaches.invariant _ _ _ _ _ (fun state => CrossInvariant platform state.natTable)
    reached (crossInvariant_create platform nmi size) ?_
  rintro state call next invariant ⟨clean, rfl⟩
  exact crossInvariant_natCall invariant clean

/-- A slot is on the chain that starts at a given base slot. -/
def OnChain {ρ υ : Type} [EntryInterface ρ υ] (table : IpaTable ρ) (start slot : Nat) : Prop :=
  start < table.size.tableEntries ∧ table.links.used start = true ∧
    ∃ slots, Follows table.links.next start slots ∧ slot ∈ slots

/-- The index pointers of live rules are a bijection onto the index records in
use, with the owner of an index record as inverse, and both records of a rule
are on the chains that the hardware searches. -/
structure CrossReference (platform : Platform) (natTable : IpaNatIp4TableCache) : Prop where
  bijection : Set.BijOn (fun i => (natTable.table.records i).indxTblEntry)
    {i | Live natTable.table i} {j | natTable.indexTable.links.used j = true}
  owner : ∀ i, Live natTable.table i →
    (natTable.indexTable.records (natTable.table.records i).indxTblEntry).tblEntry = i
  onNatChain : ∀ i, Live natTable.table i → (natTable.table.records i).srcOnly = false →
    OnChain natTable.table (recordDstHash platform natTable.table.size (natTable.table.records i)) i
  onIndexChain : ∀ i, Live natTable.table i → (natTable.table.records i).dstOnly = false →
    OnChain natTable.indexTable
      (recordSrcHash natTable.table.size (natTable.table.records i))
      (natTable.table.records i).indxTblEntry

/-- In every state that additions and deletions of live rules reach from cleared
tables without a failing ioctl, the two tables refer to each other. -/
theorem crossReference_of_reaches {platform : Platform} {nmi : NatMemIn} {size : TableSize}
    {hashToken : Nat} {state : NatState}
    (reached : Reaches (cleanStep platform) (NatState.create nmi size hashToken) state) :
    CrossReference platform state.natTable := by
  obtain ⟨_, rank, head, indexRank, indexHead, tableSound, indexSound, crossed⟩ :=
    crossInvariant_of_reaches reached
  refine ⟨?_, fun i live => (crossed.forward i live).2, ?_, ?_⟩
  · have inverse : Set.InvOn (fun j => (state.natTable.indexTable.records j).tblEntry)
        (fun i => (state.natTable.table.records i).indxTblEntry)
        {i | Live state.natTable.table i}
        {j | state.natTable.indexTable.links.used j = true} :=
      ⟨fun i live => (crossed.forward i live).2, fun j used => (crossed.backward j used).2⟩
    refine inverse.bijOn ?_ ?_
    · exact fun i live => (crossed.forward i live).1
    · exact fun j used => (crossed.backward j used).1
  · intro i live notSrcOnly
    rw [← crossed.natChain i live notSrcOnly]
    exact tableSound.linked.exists_head live.1
  · intro i live notDstOnly
    rw [← crossed.indexChain i live notDstOnly]
    exact indexSound.linked.exists_head (crossed.forward i live).1

/-- Deleting the rule at the head of the index chain moves the second rule's index
record to the head. -/
theorem crossReference_of_reaches_secondMoved :
    let state := deadHeadCalls.foldl (natCall samplePlatform) (NatState.create .ddr smallSize 69)
    (state.natTable.table.records 2).indxTblEntry = 1 ∧
      CrossReference samplePlatform state.natTable := by
  refine ⟨by decide +kernel, ?_⟩
  have run : Reaches (cleanStep samplePlatform) (NatState.create .ddr smallSize 69)
      (deadHeadCalls.foldl (natCall samplePlatform) (NatState.create .ddr smallSize 69)) := by
    simp only [deadHeadCalls, List.foldl_cons]
    refine ((((Reaches.refl _ _).tail ⟨?_, rfl⟩).tail ⟨?_, rfl⟩).tail ⟨?_, rfl⟩).tail ⟨?_, rfl⟩
    · exact ⟨rfl, by decide +kernel⟩
    · exact rfl
    · exact rfl
    · exact rfl
  exact crossReference_of_reaches run

end Sm8650.IpaNat
