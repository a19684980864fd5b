import Sm8650.IpaNat.Deletion
import Sm8650.Transition.Reach

/-!
# The chain invariant

Every sequence of additions and deletions, whether the ioctls succeed or not,
keeps both tables sound. The proof has one lemma for each outcome of the two
operations.
-/

namespace Sm8650.IpaNat

open Chains Transition Function IpaTable

/-! ## Contents of a rule record -/

/-- A rule record without its place in the chain. -/
def IpaNatRule.unlinked (entry : IpaNatRule) : IpaNatRule :=
  { entry with nextIndex := 0, prevIndex := 0 }

/-- A rule record without its place in either table. -/
def IpaNatRule.content (entry : IpaNatRule) : IpaNatRule :=
  { entry.unlinked with indxTblEntry := 0 }

/-- A rule record with another back link. -/
def IpaNatRule.setPrev (entry : IpaNatRule) (prevIndex : Nat) : IpaNatRule :=
  { entry with prevIndex := prevIndex }

theorem unlinked_setNext (entry : IpaNatRule) (nextIndex : Nat) :
    (setNext entry nextIndex).unlinked = entry.unlinked := rfl

variable {first second : IpaNatRule}

theorem content_of_unlinked (same : first.unlinked = second.unlinked)
    : first.content = second.content := by
  unfold IpaNatRule.content
  rw [same]

theorem indxTblEntry_of_unlinked (same : first.unlinked = second.unlinked)
    : first.indxTblEntry = second.indxTblEntry := by
  have projected := congrArg IpaNatRule.indxTblEntry same
  exact projected

theorem enable_of_content (same : first.content = second.content) :
    first.enable = second.enable := by
  have projected := congrArg IpaNatRule.enable same
  exact projected

theorem isDead_of_content (same : first.content = second.content) :
    IsDead first ↔ IsDead second := by
  have projected : first.content.protocol = second.content.protocol := by rw [same]
  have sameProtocol : first.protocol = second.protocol := projected
  unfold IsDead
  rw [sameProtocol]

/-- A live record: enabled, and not a dead head. -/
def Live (table : IpaTable IpaNatRule) (i : Nat) : Prop :=
  table.links.used i = true ∧ ¬ IsDead (table.records i)

instance (table : IpaTable IpaNatRule) (i : Nat) : Decidable (Live table i) :=
  inferInstanceAs (Decidable (table.links.used i = true ∧ ¬ IsDead (table.records i)))

theorem live_of_content {table changed : IpaTable IpaNatRule} {i : Nat}
    (same : (changed.records i).content = (table.records i).content) :
    Live changed i ↔ Live table i := by
  unfold Live
  rw [links_used, links_used, isDead_of_content same]
  rw [show entryIsValid (changed.records i) = entryIsValid (table.records i) from
    enable_of_content same]

section Insertion

variable {table changed : IpaTable IpaNatRule} {start slot : Nat} {entry : IpaNatRule → IpaNatRule}

/-- An insertion leaves the contents of the other records alone. -/
theorem Insertion.unlinked_other (insertion : Insertion table start entry slot changed)
    {i : Nat} (different : i ≠ slot) :
    (changed.records i).unlinked = (table.records i).unlinked := by
  cases insertion with
  | head free => simp [insertAtHead, different]
  | @tail last slot occupied ends found =>
    by_cases isLast : i = last
    · subst isLast
      simp [appendAtTail, unlinked_setNext]
    · simp [appendAtTail, isLast, different]

/-- The new record holds what was inserted, up to its back link. -/
theorem Insertion.record_slot (insertion : Insertion table start entry slot changed)
    {rank head : Nat → Nat} (sound : table.Sound rank head) :
    ∃ prevIndex, changed.records slot = (entry (table.records slot)).setPrev prevIndex := by
  cases insertion with
  | head free =>
    refine ⟨(entry (table.records start)).prevIndex, ?_⟩
    simp [insertAtHead, IpaNatRule.setPrev]
  | @tail last slot occupied ends found =>
    have different := ne_last_of_found sound occupied ends found
    simp [appendAtTail, different, EntryInterface.entrySetPrevIndex, IpaNatRule.setPrev]

end Insertion

/-! ## Additions -/

theorem installedRule_valid (platform : Platform) (clntRule : IpaNatIpv4Rule)
    (indxTblEntry : Nat) (old : IpaNatRule) :
    entryIsValid (installedRule platform clntRule indxTblEntry old) = true := rfl

theorem not_isDead_installedRule {platform : Platform} {clntRule : IpaNatIpv4Rule}
    (accepted : ruleAccepted platform clntRule = true) (indxTblEntry : Nat)
    (old : IpaNatRule) : ¬ IsDead (installedRule platform clntRule indxTblEntry old) := by
  intro dead
  have invalid : clntRule.protocol = ipahalNatInvalidProtocol := dead
  simp [ruleAccepted, invalid] at accepted

section Added

variable {platform : Platform} {hashToken : Nat} {natTable changed : IpaNatIp4TableCache}
  {clntRule : IpaNatIpv4Rule} {slot indexSlot : Nat} {rank head : Nat → Nat}

section

variable (added : Added platform hashToken natTable clntRule slot indexSlot changed)

include added

theorem Added.slot_bounds :
    0 < slot ∧ slot < natTable.table.size.totTblEnts ∧ natTable.table.links.used slot = false := by
  obtain ⟨positive, atBase⟩ :=
    newEntryIndex_bounds platform natTable.table.size hashToken clntRule
  exact added.table.slot_bounds positive atBase

/-- The NAT table stays sound, with the new record on the chain of its hash. -/
theorem Added.table_sound (sound : natTable.table.Sound rank head) :
    ∃ newRank, changed.table.Sound newRank
      (update head slot (natStart platform hashToken natTable clntRule)) := by
  obtain ⟨positive, atBase⟩ :=
    newEntryIndex_bounds platform natTable.table.size hashToken clntRule
  exact added.table.sound_of sound positive atBase (installedRule_valid platform clntRule _)
    (fun _ => rfl) (fun _ _ _ _ => rfl)

/-- The index table stays sound, with the new record on the chain of its hash. -/
theorem Added.index_sound (sameSize : natTable.indexTable.size = natTable.table.size)
    (sound : natTable.indexTable.Sound rank head) :
    ∃ newRank, changed.indexTable.Sound newRank
      (update head indexSlot (indexStart platform hashToken natTable clntRule)) := by
  obtain ⟨positive, atBase⟩ := newIndexTblEntryIndex_bounds natTable.table.size
    (newEntryIndex platform natTable.table.size hashToken clntRule).2 clntRule
  have notZero : slot ≠ 0 := Nat.pos_iff_ne_zero.mp added.slot_bounds.1
  refine added.indexTable.sound_of sound positive ?_ ?_ (fun _ => rfl) (fun _ _ _ _ => rfl)
  · rw [sameSize]
    exact atBase
  · intro old
    exact bne_iff_ne.mpr notZero

/-- An addition keeps the invariant. -/
theorem Added.chained
    (accepted : ruleAccepted platform clntRule = true) (chained : Chained natTable) :
    Chained changed := by
  obtain ⟨rank, head, tableSound⟩ := chained.tableSound
  obtain ⟨indexRank, indexHead, indexSound⟩ := chained.indexSound
  obtain ⟨newRank, newSound⟩ := added.table_sound tableSound
  obtain ⟨newIndexRank, newIndexSound⟩ := added.index_sound chained.sameSize indexSound
  have sameSize := added.table.size_eq
  refine ⟨?_, ⟨_, _, newSound⟩, ⟨_, _, newIndexSound⟩, ?_⟩
  · rw [added.indexTable.size_eq, sameSize, chained.sameSize]
  · intro i enabled dead
    rw [sameSize]
    by_cases isSlot : i = slot
    · obtain ⟨prevIndex, record⟩ := added.table.record_slot tableSound
      rw [isSlot, record] at dead
      exact absurd dead (not_isDead_installedRule accepted indexSlot (natTable.table.records slot))
    · have same := content_of_unlinked (added.table.unlinked_other isSlot)
      rw [enable_of_content same] at enabled
      exact chained.deadAtBase i enabled ((isDead_of_content same).mp dead)

end

/-- A refused addition keeps the invariant. -/
theorem Refused.chained (refused : Refused natTable changed) (chained : Chained natTable) :
    Chained changed := by
  obtain ⟨rank, head, tableSound⟩ := chained.tableSound
  obtain ⟨indexRank, indexHead, indexSound⟩ := chained.indexSound
  refine ⟨?_, ⟨_, _, refused.table.sound_of tableSound⟩,
    ⟨_, _, refused.indexTable.sound_of indexSound⟩, ?_⟩
  · rw [refused.indexTable.size_eq, refused.table.size_eq, chained.sameSize]
  · intro i enabled dead
    have used : natTable.table.links.used i = true := by
      rw [← refused.table.used_eq i]
      exact enabled
    rw [refused.table.size_eq]
    rw [refused.table.records_eq used] at dead
    exact chained.deadAtBase i used dead

end Added

/-! ## Deletions -/

section NatDeletion

variable {table changed : IpaTable IpaNatRule} {rank head : Nat → Nat} {slot : Nat}

theorem NatDeletion.size_eq (deletion : NatDeletion table slot changed) :
    changed.size = table.size := by
  cases deletion with
  | alone atBase ends | behind inExpansion prevStays | behindDead inExpansion ends dead => simp
  | deadHead atBase continues => rfl

theorem NatDeletion.nmi_eq (deletion : NatDeletion table slot changed) :
    changed.nmi = table.nmi := by
  cases deletion with
  | alone atBase ends | behind inExpansion prevStays | behindDead inExpansion ends dead => simp
  | deadHead atBase continues => rfl

/-- The last record behind a dead head leaves the head alone. -/
theorem spliceOut_prev_last (sound : table.Sound rank head)
    (used : table.links.used slot = true) (inExpansion : table.size.tableEntries ≤ slot)
    (ends : table.links.next slot = 0) :
    (table.spliceOut slot).links.used (table.links.prev slot) = true ∧
      (table.spliceOut slot).links.next (table.links.prev slot) = 0 := by
  have apart := sound.neighbours_apart used inExpansion
  have prevUsed := (sound.linked.behind slot used inExpansion).1
  rw [links_used, links_next, spliceOut_prev apart, ends]
  exact ⟨prevUsed, rfl⟩

theorem NatDeletion.sound_of (deletion : NatDeletion table slot changed)
    (sound : table.Sound rank head) (used : table.links.used slot = true)
    (deadAtBase : ∀ i, table.links.used i = true → IsDead (table.records i) →
      i < table.size.tableEntries) : changed.Sound rank head := by
  cases deletion with
  | alone atBase ends => exact sound.eraseHead used atBase ends
  | deadHead atBase continues => exact sound.store rfl rfl rfl
  | behind inExpansion prevStays => exact sound.spliceOut used inExpansion
  | behindDead inExpansion ends dead =>
    obtain ⟨headUsed, headEnds⟩ := spliceOut_prev_last sound used inExpansion ends
    have prevUsed := (sound.linked.behind slot used inExpansion).1
    have spliced := sound.spliceOut used inExpansion
    have atBase : table.links.prev slot < (table.spliceOut slot).size.tableEntries := by
      rw [spliceOut_size]
      exact deadAtBase _ prevUsed dead
    exact spliced.eraseHead headUsed atBase headEnds

/-- Taking a record out leaves the contents of the others alone. -/
theorem unlinked_spliceOut (apart : table.Apart slot) {i : Nat} (different : i ≠ slot) :
    ((table.spliceOut slot).records i).unlinked = (table.records i).unlinked := by
  by_cases isPrev : i = table.links.prev slot
  · rw [isPrev, spliceOut_prev apart, unlinked_setNext]
  · by_cases isNext : i = table.links.next slot ∧ table.links.next slot ≠ 0
    · rw [isNext.1, spliceOut_next apart isNext.2]
      rfl
    · rw [spliceOut_other different isPrev isNext]

/-- A deletion leaves the contents of the other records alone, dead heads apart. -/
theorem NatDeletion.unlinked_other (deletion : NatDeletion table slot changed)
    (sound : table.Sound rank head) (used : table.links.used slot = true) {i : Nat}
    (different : i ≠ slot) (notDead : ¬ IsDead (table.records i)) :
    (changed.records i).unlinked = (table.records i).unlinked := by
  cases deletion with
  | alone atBase ends | deadHead atBase continues => simp [different]
  | behind inExpansion prevStays =>
    exact unlinked_spliceOut (sound.neighbours_apart used inExpansion) different
  | behindDead inExpansion ends dead =>
    have notPrev : i ≠ table.links.prev slot := by
      rintro rfl
      exact notDead dead
    rw [eraseEntry_records, update_of_ne notPrev]
    exact unlinked_spliceOut (sound.neighbours_apart used inExpansion) different

/-- Every record in use after a deletion either was in use with the same contents
or is the deleted head. -/
theorem NatDeletion.unlinked_used (deletion : NatDeletion table slot changed)
    (sound : table.Sound rank head) (used : table.links.used slot = true) {i : Nat}
    (stillUsed : changed.links.used i = true) :
    (i ≠ slot ∧ (changed.records i).unlinked = (table.records i).unlinked) ∨
      (i = slot ∧ slot < table.size.tableEntries ∧ IsDead (changed.records i)) := by
  cases deletion with
  | alone atBase ends =>
    by_cases isSlot : i = slot
    · subst isSlot
      simp [links, LawfulEntryInterface.zeroed_invalid] at stillUsed
    · exact .inl ⟨isSlot, by simp [isSlot]⟩
  | deadHead atBase continues =>
    by_cases isSlot : i = slot
    · subst isSlot
      refine .inr ⟨rfl, atBase, ?_⟩
      rw [store_records, update_self]
      rfl
    · exact .inl ⟨isSlot, by simp [isSlot]⟩
  | behind inExpansion prevStays =>
    have apart := sound.neighbours_apart used inExpansion
    by_cases isSlot : i = slot
    · subst isSlot
      rw [links_used, spliceOut_slot] at stillUsed
      cases stillUsed
    · exact .inl ⟨isSlot, unlinked_spliceOut apart isSlot⟩
  | behindDead inExpansion ends dead =>
    have apart := sound.neighbours_apart used inExpansion
    by_cases isPrev : i = table.links.prev slot
    · subst isPrev
      simp [links_used, LawfulEntryInterface.zeroed_invalid] at stillUsed
    · rw [links_used, eraseEntry_records, update_of_ne isPrev] at stillUsed
      rw [eraseEntry_records, update_of_ne isPrev]
      by_cases isSlot : i = slot
      · subst isSlot
        rw [spliceOut_slot] at stillUsed
        cases stillUsed
      · exact .inl ⟨isSlot, unlinked_spliceOut apart isSlot⟩

end NatDeletion

section IndexDeletion

variable {indexTable changed : IpaTable IpaNatIndxTblRule} {rank head : Nat → Nat} {slot : Nat}

theorem IndexDeletion.size_eq (deletion : IndexDeletion indexTable slot changed) :
    changed.size = indexTable.size := by
  cases deletion with
  | alone atBase ends => simp
  | second atBase continues =>
    show (spliceOut _ _).size = _
    rw [spliceOut_size]
    rfl
  | behind inExpansion =>
    show (spliceOut _ _).size = _
    rw [spliceOut_size]

theorem clearMeta_sound (sound : indexTable.Sound rank head)
    (inExpansion : indexTable.size.tableEntries ≤ slot)
    (free : indexTable.links.used slot = false) : (clearMeta indexTable slot).Sound rank head := by
  refine ⟨?_, sound.baseCount, sound.expnCount⟩
  refine sound.linked.congr_used (fun _ => rfl) (fun _ => rfl) ?_
  intro i usedOrBase
  have different : i ≠ slot := by
    rintro rfl
    rcases usedOrBase with used | atBase
    · rw [free] at used
      cases used
    · omega
  show (if indexTable.size.tableEntries ≤ i then _ else _) = if _ then _ else _
  by_cases behind : indexTable.size.tableEntries ≤ i
  · simp only [clearMeta]
    rw [update_of_ne]
    omega
  · simp only [if_neg behind]

theorem copySecond_sound (sound : indexTable.Sound rank head)
    (used : indexTable.links.used slot = true) (continues : indexTable.links.next slot ≠ 0) :
    (copySecond indexTable slot).Sound rank head := by
  have nextUsed := (sound.linked.nextUsed slot used continues).1
  refine sound.store ?_ rfl rfl
  exact nextUsed.trans used.symm

theorem spliceOut_unused (indexTable : IpaTable IpaNatIndxTblRule) (slot : Nat) :
    (indexTable.spliceOut slot).links.used slot = false := by
  rw [links_used, spliceOut_slot]
  rfl

theorem copySecond_next_used (sound : indexTable.Sound rank head)
    (used : indexTable.links.used slot = true) (continues : indexTable.links.next slot ≠ 0)
    (atBase : slot < indexTable.size.tableEntries) :
    (copySecond indexTable slot).links.used (indexTable.links.next slot) = true ∧
      indexTable.size.tableEntries ≤ indexTable.links.next slot := by
  obtain ⟨nextUsed, nextExpansion, _⟩ := sound.linked.nextUsed slot used continues
  have different : indexTable.links.next slot ≠ slot := by omega
  refine ⟨?_, nextExpansion⟩
  rw [links_used, copySecond, store_records, update_of_ne different]
  exact nextUsed

theorem IndexDeletion.sound_of (deletion : IndexDeletion indexTable slot changed)
    (sound : indexTable.Sound rank head) (used : indexTable.links.used slot = true) :
    changed.Sound rank head := by
  cases deletion with
  | alone atBase ends => exact sound.eraseHead used atBase ends
  | second atBase continues =>
    obtain ⟨nextUsed, nextExpansion⟩ := copySecond_next_used sound used continues atBase
    have spliced := (copySecond_sound sound used continues).spliceOut nextUsed nextExpansion
    refine clearMeta_sound spliced ?_ (spliceOut_unused _ _)
    rw [spliceOut_size]
    exact nextExpansion
  | behind inExpansion =>
    have spliced := sound.spliceOut used inExpansion
    refine clearMeta_sound spliced ?_ (spliceOut_unused _ _)
    rw [spliceOut_size]
    exact inExpansion

end IndexDeletion

section Deleted

variable {natTable changed : IpaNatIp4TableCache}

/-- The store that precedes the commands of a deletion keeps the invariant. -/
theorem chained_redirectSecond (chained : Chained natTable) (indexSlot : Nat) :
    Chained { natTable with table := redirectSecond natTable indexSlot } := by
  obtain ⟨rank, head, tableSound⟩ := chained.tableSound
  refine ⟨?_, ⟨_, _, sound_redirectSecond tableSound indexSlot⟩, chained.indexSound,
    dead_redirectSecond chained indexSlot⟩
  rw [size_redirectSecond]
  exact chained.sameSize

/-- A deletion keeps the invariant. -/
theorem Deleted.chained {slot : Nat} (deleted : Deleted natTable slot changed)
    (chained : Chained natTable) (used : natTable.table.links.used slot = true)
    (indexUsed : natTable.indexTable.links.used (natTable.table.records slot).indxTblEntry = true) :
    Chained changed := by
  obtain ⟨indexRank, indexHead, indexSound⟩ := chained.indexSound
  have redirected := chained_redirectSecond chained (natTable.table.records slot).indxTblEntry
  obtain ⟨rank, head, tableSound⟩ := redirected.tableSound
  have stillUsed := used
  rw [← links_redirectSecond natTable (natTable.table.records slot).indxTblEntry] at stillUsed
  have sameSize := deleted.table.size_eq
  refine ⟨?_, ⟨_, _, deleted.table.sound_of tableSound stillUsed redirected.deadAtBase⟩,
    ⟨_, _, deleted.indexTable.sound_of indexSound indexUsed⟩, ?_⟩
  · rw [deleted.indexTable.size_eq, sameSize]
    exact redirected.sameSize
  · intro i enabled dead
    rw [sameSize]
    rcases deleted.table.unlinked_used tableSound stillUsed enabled with
      ⟨_, sameLinked⟩ | ⟨rfl, atBase, _⟩
    · have same := content_of_unlinked sameLinked
      rw [enable_of_content same] at enabled
      exact redirected.deadAtBase i enabled ((isDead_of_content same).mp dead)
    · exact atBase

end Deleted

/-! ## Runs -/

/-- One pair of tables, with the hash token that additions advance. -/
structure NatState where
  hashToken : Nat
  natTable : IpaNatIp4TableCache

/-- Cleared tables. -/
def NatState.create (nmi : NatMemIn) (size : TableSize) (hashToken : Nat) : NatState where
  hashToken := hashToken
  natTable := IpaNatIp4TableCache.create nmi size

/-- A call of one of the two operations, with the outcome of its ioctl. -/
inductive NatCall
  | add (clntRule : IpaNatIpv4Rule) (dmaOk : Bool)
  | del (ruleHdl : Nat) (dmaOk : Bool)

/-- The state after a call. -/
def natCall (platform : Platform) (state : NatState) : NatCall → NatState
  | .add clntRule dmaOk =>
    let outcome := ipaNATIAddIpv4Rule platform dmaOk state.hashToken state.natTable clntRule
    ⟨outcome.hashToken, outcome.natTable⟩
  | .del ruleHdl dmaOk =>
    ⟨state.hashToken, (ipaNATIDelIpv4Rule dmaOk state.natTable ruleHdl).2⟩

/-- Calls with any rule, any handle and any outcome of the ioctl. -/
def natStep (platform : Platform) : LabelledStep NatState NatCall :=
  guarded (fun _ _ => True) (natCall platform)

theorem reaches_calls (platform : Platform) (calls : List NatCall) (state : NatState) :
    Reaches (natStep platform) state (calls.foldl (natCall platform) state) :=
  Reaches.foldl (Allowed.always _ state calls)

theorem chained_create (nmi : NatMemIn) (size : TableSize) :
    Chained (IpaNatIp4TableCache.create nmi size) := by
  refine ⟨rfl, ⟨_, _, Sound.init nmi size⟩, ⟨_, _, Sound.init nmi size⟩, ?_⟩
  intro i enabled
  cases enabled

/-- A call keeps the invariant. -/
theorem chained_natCall (platform : Platform) {state : NatState}
    (chained : Chained state.natTable) (call : NatCall) :
    Chained (natCall platform state call).natTable := by
  cases call with
  | add clntRule dmaOk =>
    rcases addIpv4Rule_cases platform dmaOk state.hashToken chained clntRule with
      ⟨addable, slot, indexSlot, _, added⟩ | ⟨_, _, refused⟩
    · exact added.chained addable.accepted chained
    · exact refused.chained chained
  | del ruleHdl dmaOk =>
    rcases delIpv4Rule_cases dmaOk chained ruleHdl with
      ⟨deletable, _, _, deleted⟩ | ⟨_, _, _, failed⟩ | ⟨_, _, unchanged⟩
    · exact deleted.chained chained deletable.used deletable.indexUsed
    · simp only [natCall, failed]
      exact chained_redirectSecond chained _
    · simp only [natCall, unchanged]
      exact chained

theorem chained_of_reaches {platform : Platform} {source state : NatState}
    (reached : Reaches (natStep platform) source state) (initial : Chained source.natTable) :
    Chained state.natTable := by
  refine @Reaches.invariant _ _ _ _ _ (fun state => Chained state.natTable) reached initial ?_
  rintro state call next chained ⟨_, rfl⟩
  exact chained_natCall platform chained call

section ChainInvariant

variable {ρ υ : Type} [EntryInterface ρ υ]

/-- The records of a table form chains from its base slots, and its counters are
the numbers of records in use. -/
structure ChainInvariant (table : IpaTable ρ) : Prop where
  chains : WellChained table.size.tableEntries table.size.totTblEnts table.links
  baseCount : table.curTblCnt = countUsed table.links.used 0 table.size.tableEntries
  expnCount : table.curExpnTblCnt =
    countUsed table.links.used table.size.tableEntries table.size.totTblEnts

theorem IpaTable.Sound.chainInvariant {table : IpaTable ρ} {rank head : Nat → Nat}
    (sound : table.Sound rank head) : ChainInvariant table :=
  ⟨sound.linked.wellChained, sound.baseCount, sound.expnCount⟩

end ChainInvariant

/-- In every state that additions and deletions reach from cleared tables, both
tables satisfy the chain invariant. -/
theorem chainInvariant_of_reaches {platform : Platform} {nmi : NatMemIn} {size : TableSize}
    {hashToken : Nat} {state : NatState}
    (reached : Reaches (natStep platform) (NatState.create nmi size hashToken) state) :
    ChainInvariant state.natTable.table ∧ ChainInvariant state.natTable.indexTable := by
  have chained := chained_of_reaches reached (chained_create nmi size)
  obtain ⟨_, _, tableSound⟩ := chained.tableSound
  obtain ⟨_, _, indexSound⟩ := chained.indexSound
  exact ⟨tableSound.chainInvariant, indexSound.chainInvariant⟩

/-- The smallest table: two base and two expansion records. -/
def smallSize : TableSize where
  tableEntries := 2
  expnTableEntries := 2
  twoLeBase := by decide
  baseLe := by decide
  expnPos := by decide
  expnLe := by decide

/-- A platform whose PDNs all have the public address 1. -/
def samplePlatform : Platform where
  hwV4 := true
  pdns := fun _ => 1

/-- A TCP rule that is told from others by its public port. -/
def sampleRule (publicPort : BitVec 16) : IpaNatIpv4Rule where
  targetIp := 2
  privateIp := 3
  targetPort := 80
  privatePort := 1024
  publicPort := publicPort
  protocol := ipprotoTcp
  pdnIndex := 0
  redirect := 0
  enable := 0
  timeStamp := 0
  ucActivationIndex := 0
  s := false
  ucp := false
  dstOnly := false
  srcOnly := false

/-- Three rules on one chain; the first is deleted and stays as a dead head. -/
def deadHeadCalls : List NatCall :=
  [.add (sampleRule 1) true, .add (sampleRule 2) true, .add (sampleRule 3) true, .del 2 true]

theorem chainInvariant_of_reaches_deadHead :
    let state := deadHeadCalls.foldl (natCall samplePlatform) (NatState.create .ddr smallSize 69)
    IsDead (state.natTable.table.records 1) ∧ state.natTable.table.curExpnTblCnt = 2 ∧
      ChainInvariant state.natTable.table ∧ ChainInvariant state.natTable.indexTable :=
  ⟨by decide +kernel, by decide +kernel,
    chainInvariant_of_reaches (reaches_calls samplePlatform deadHeadCalls _)⟩

end Sm8650.IpaNat
