import Sm8650.IpaNat.Edit

/-!
# Searches and commands on a sound table

In a sound table the search for the end of a list always succeeds, the search
for a free expansion slot succeeds exactly when there is one, and a handle leads
back to the slot it was made for. A DMA command reaches the record it was
queued for and no other.
-/

namespace Sm8650.IpaNat

open Chains EntryInterface IpaTable

variable {ρ υ : Type} [EntryInterface ρ υ]

/-! ## The end of a list -/

variable {table : IpaTable ρ} {rank head : Nat → Nat} {i : Nat}

section

variable (sound : table.Sound rank head)

include sound

theorem iteratorEndLoop_of_follows {slots : List Nat}
    (follows : Follows table.links.next i slots) (used : table.links.used i = true) {rounds : Nat}
    (enough : slots.length ≤ rounds) :
    ∃ last, ipaTableIteratorEndLoop table rounds i = .ok last ∧
      table.links.used last = true ∧ table.links.next last = 0 ∧ head last = head i := by
  induction follows generalizing rounds with
  | @last i ends =>
    cases rounds with
    | zero => simp at enough
    | succ rounds =>
      refine ⟨i, ?_, used, ends, rfl⟩
      rw [links_next] at ends
      simp [ipaTableIteratorEndLoop, ends]
  | @step i rest continues follows ih =>
    cases rounds with
    | zero => simp at enough
    | succ rounds =>
      have nextUsed := (sound.linked.nextUsed i used continues).1
      obtain ⟨grows, sameHead⟩ := sound.linked.rank_lt_next used continues
      have different : table.links.next i ≠ i := by
        intro same
        rw [same] at grows
        exact Nat.lt_irrefl _ grows
      obtain ⟨last, found, lastUsed, lastEnds, lastHead⟩ :=
        ih nextUsed (Nat.le_of_succ_le_succ enough)
      refine ⟨last, ?_, lastUsed, lastEnds, lastHead.trans sameHead⟩
      rw [links_next] at continues different found
      simp [ipaTableIteratorEndLoop, continues, different, found]

/-- The list of a used record fits in the table. -/
theorem length_le_of_follows (used : table.links.used i = true)
    {slots : List Nat} (follows : Follows table.links.next i slots) :
    slots.length ≤ table.size.totTblEnts := by
  have distinct := sound.linked.nodup_of_follows used follows
  obtain ⟨rest, own, members⟩ := sound.linked.exists_follows used
  have inside : slots.toFinset ⊆ Finset.range table.size.totTblEnts := by
    intro j member
    rw [List.mem_toFinset, follows.unique own] at member
    rw [Finset.mem_range]
    rcases List.mem_cons.mp member with rfl | inRest
    · exact (sound.linked.inside j used).2
    · exact (sound.linked.inside j (members j inRest).1).2
  have counted := Finset.card_le_card inside
  rwa [List.toFinset_card_of_nodup distinct, Finset.card_range] at counted

/-- `ipa_table_iterator_end` finds the last record of the list. -/
theorem iteratorEnd_of_sound (used : table.links.used i = true) :
    ∃ last, ipaTableIteratorEnd table i = .ok last ∧
      table.links.used last = true ∧ table.links.next last = 0 ∧ head last = head i := by
  obtain ⟨rest, follows, _⟩ := sound.linked.exists_follows used
  exact iteratorEndLoop_of_follows sound follows used (length_le_of_follows sound used follows)

theorem used_of_iteratorEnd {i last : Nat}
    (used : table.links.used i = true) (ends : ipaTableIteratorEnd table i = .ok last) :
    table.links.used last = true ∧ table.links.next last = 0 ∧ head last = head i := by
  obtain ⟨other, otherEnds, facts⟩ := iteratorEnd_of_sound sound used
  rw [ends] at otherEnds
  cases otherEnds
  exact facts

end

/-! ## The rule of walks -/

section WalkRule

variable {σ : Type} {table : IpaTable ρ} {when2cb : When2Callback} {walkCb : WalkCallback ρ σ}

/-- A property of the records passed and of the data holds to the end of a walk,
or up to the record at which the callback stopped it. -/
theorem walkLoop_cases (inv : Nat → σ → Prop)
    (called : ∀ i reached next, inv i reached → callBackAt when2cb (table.records i) = true →
      walkCb reached (makeEntryHdl table i) (table.records i) i = (.zero, next) →
      inv (i + 1) next)
    (passed : ∀ i reached, inv i reached → callBackAt when2cb (table.records i) = false →
      inv (i + 1) reached) (remaining start : Nat) (arbData : σ) (initial : inv start arbData) :
    let walked := ipaTableWalkLoop table when2cb walkCb remaining start arbData
    (walked.1 = .zero ∧ inv (start + remaining) walked.2) ∨
      ∃ i reached, i < start + remaining ∧ inv i reached ∧
        callBackAt when2cb (table.records i) = true ∧ walked.1 ≠ .zero ∧
        walkCb reached (makeEntryHdl table i) (table.records i) i = walked := by
  induction remaining generalizing start arbData with
  | zero => exact .inl ⟨rfl, initial⟩
  | succ remaining ih =>
    have shifted : start + (remaining + 1) = start + 1 + remaining := by omega
    rw [shifted]
    cases calls : callBackAt when2cb (table.records start) with
    | false =>
      simp only [ipaTableWalkLoop, calls]
      exact ih (start + 1) arbData (passed start arbData initial calls)
    | true =>
      simp only [ipaTableWalkLoop, calls]
      rcases outcome : walkCb arbData (makeEntryHdl table start) (table.records start)
        start with ⟨result, next⟩
      cases result with
      | zero =>
        exact ih (start + 1) next (called start arbData next initial calls outcome)
      | positive index =>
        exact .inr ⟨start, arbData, by omega, initial, calls, by simp, outcome⟩
      | negative errno =>
        exact .inr ⟨start, arbData, by omega, initial, calls, by simp, outcome⟩

/-- A walk that got past some records goes on from there. -/
theorem walkLoop_add {remaining start : Nat} {arbData reached : σ}
    (walked : ipaTableWalkLoop table when2cb walkCb remaining start arbData = (.zero, reached))
    (more : Nat) :
    ipaTableWalkLoop table when2cb walkCb (remaining + more) start arbData =
      ipaTableWalkLoop table when2cb walkCb more (start + remaining) reached := by
  induction remaining generalizing start arbData with
  | zero =>
    cases walked
    simp
  | succ remaining ih =>
    have count : remaining + 1 + more = remaining + more + 1 := by omega
    have shifted : start + (remaining + 1) = start + 1 + remaining := by omega
    rw [count, shifted]
    simp only [ipaTableWalkLoop] at walked ⊢
    split at walked
    · rename_i calls
      rw [if_pos calls]
      split at walked
      · exact ih walked
      · rename_i notZero
        exact absurd walked (notZero reached)
    · rename_i passes
      rw [if_neg passes]
      exact ih walked

/-- A walk ends where its callback stops it. -/
theorem walkLoop_stop {remaining start : Nat} {arbData reached : σ} {stopped : WalkResult × σ}
    (walked : ipaTableWalkLoop table when2cb walkCb remaining start arbData = (.zero, reached))
    (calls : callBackAt when2cb (table.records (start + remaining)) = true)
    (outcome : walkCb reached (makeEntryHdl table (start + remaining))
      (table.records (start + remaining)) (start + remaining) = stopped)
    (stops : stopped.1 ≠ .zero) (more : Nat) :
    ipaTableWalkLoop table when2cb walkCb (remaining + (more + 1)) start arbData = stopped := by
  rw [walkLoop_add walked]
  simp only [ipaTableWalkLoop, if_pos calls, outcome]
  split
  · exact absurd rfl stops
  · rfl

end WalkRule

/-! ## A free expansion slot -/

theorem walkLoop_mtSlot (table : IpaTable ρ) (remaining start : Nat) :
    (∃ i, (ipaTableWalkLoop table .slotEmpty mtSlot remaining start ()).1 = .positive i ∧
        start ≤ i ∧ i < start + remaining ∧ table.links.used i = false ∧
        ∀ j, start ≤ j → j < i → table.links.used j = true) ∨
      ((ipaTableWalkLoop table .slotEmpty mtSlot remaining start ()).1 = .zero ∧
        ∀ i, start ≤ i → i < start + remaining → table.links.used i = true) := by
  induction remaining generalizing start with
  | zero =>
    right
    exact ⟨rfl, by intro i atLeast below; omega⟩
  | succ remaining ih =>
    cases valid : entryIsValid (table.records start) with
    | false =>
      left
      refine ⟨start, ?_, Nat.le_refl _, by omega, valid, fun j atLeast below => ?_⟩
      · simp [ipaTableWalkLoop, callBackAt, valid, mtSlot]
      · omega
    | true =>
      have skips : ipaTableWalkLoop table .slotEmpty mtSlot (remaining + 1) start () =
          ipaTableWalkLoop table .slotEmpty mtSlot remaining (start + 1) () := by
        simp [ipaTableWalkLoop, callBackAt, valid]
      rw [skips]
      rcases ih (start + 1) with
        ⟨i, found, atLeast, below, free, earlier⟩ | full
      · left
        refine ⟨i, found, by omega, by omega, free, fun j atLeastJ belowJ => ?_⟩
        by_cases same : j = start
        · rw [same]
          exact valid
        · exact earlier j (by omega) belowJ
      · right
        refine ⟨full.1, ?_⟩
        intro i atLeast below
        by_cases same : i = start
        · rw [same]
          exact valid
        · exact full.2 i (by omega) (by omega)

/-- `FindExpnTblFreeEntry` returns the first free expansion slot, or there is none. -/
theorem findExpnTblFreeEntry_cases (table : IpaTable ρ) :
    (∃ slot, findExpnTblFreeEntry table = .ok slot ∧ table.size.tableEntries ≤ slot ∧
        slot < table.size.totTblEnts ∧ table.links.used slot = false ∧
        ∀ j, table.size.tableEntries ≤ j → j < slot → table.links.used j = true) ∨
      ((∃ errno, findExpnTblFreeEntry table = .error errno) ∧
        ∀ i, table.size.tableEntries ≤ i → i < table.size.totTblEnts →
          table.links.used i = true) := by
  have inTable := table.size.base_lt_tot
  unfold findExpnTblFreeEntry ipaTableWalk
  rw [if_pos inTable]
  rcases walkLoop_mtSlot table (table.size.totTblEnts - table.size.tableEntries)
      table.size.tableEntries with ⟨i, found, atLeast, below, free, earlier⟩ | ⟨found, full⟩
  · left
    refine ⟨i, ?_, atLeast, by omega, free, earlier⟩
    rw [found]
  · right
    refine ⟨⟨.unspecified, ?_⟩, ?_⟩
    · rw [found]
    · intro i atLeast below
      exact full i atLeast (by omega)

theorem findExpnTblFreeEntry_ok {slot : Nat} (found : findExpnTblFreeEntry table = .ok slot) :
    table.size.tableEntries ≤ slot ∧ slot < table.size.totTblEnts ∧
      table.links.used slot = false := by
  rcases findExpnTblFreeEntry_cases table with
    ⟨other, same, atLeast, below, free, _⟩ | ⟨⟨errno, same⟩, _⟩
  · rw [found] at same
    cases same
    exact ⟨atLeast, below, free⟩
  · rw [found] at same
    cases same

/-! ## Handles -/

/-- A handle leads back to its slot, whatever the memory type of the table. -/
theorem breakRuleHdl_makeEntryHdl (table other : IpaTable ρ) (sameSize : other.size = table.size)
    {slot : Nat} (inTable : slot < table.size.totTblEnts) :
    breakRuleHdl other (makeEntryHdl table slot) = slot := by
  have baseLe := table.size.baseLe
  have expnLe := table.size.expnLe
  unfold TableSize.totTblEnts at inTable
  unfold breakRuleHdl makeEntryHdl
  rw [sameSize]
  cases table.nmi <;> simp only [NatMemIn.toNat] <;> split <;> split <;> omega

theorem makeEntryHdl_injective (table : IpaTable ρ) {slot other : Nat}
    (inTable : slot < table.size.totTblEnts) (otherInTable : other < table.size.totTblEnts)
    (same : makeEntryHdl table slot = makeEntryHdl table other) : slot = other := by
  rw [← breakRuleHdl_makeEntryHdl table table rfl inTable, same,
    breakRuleHdl_makeEntryHdl table table rfl otherInTable]

theorem ipaTableGetEntryByIndex_eq {index : Nat} (positive : 0 < index)
    (inTable : index < table.size.totTblEnts) :
    ipaTableGetEntryByIndex table index = some index := by
  unfold ipaTableGetEntryByIndex
  rw [if_neg]
  omega

theorem ipaTableGetEntryByIndex_some {index found : Nat}
    (present : ipaTableGetEntryByIndex table index = some found) :
    found = index ∧ index < table.size.totTblEnts := by
  unfold ipaTableGetEntryByIndex at present
  split at present
  · cases present
  · cases present
    exact ⟨rfl, by omega⟩

/-! ## Iterators -/

/-- In a sound table every valid record has an iterator, which holds its links. -/
theorem iteratorInit_of_sound (sound : table.Sound rank head) (used : table.links.used i = true) :
    ipaTableIteratorInit table i = .ok ⟨table.links.prev i, i, table.links.next i⟩ := by
  have nextThere : ¬ (table.links.next i ≠ 0 ∧
      ipaTableGetEntryByIndex table (table.links.next i) = none) := by
    rintro ⟨continues, absent⟩
    have nextUsed := (sound.linked.nextUsed i used continues).1
    obtain ⟨positive, inTable⟩ := sound.linked.inside _ nextUsed
    rw [ipaTableGetEntryByIndex_eq positive inTable] at absent
    cases absent
  have prevThere : ¬ (table.links.prev i ≠ 0 ∧
      ipaTableGetEntryByIndex table (table.links.prev i) = none) := by
    rintro ⟨linkedBack, absent⟩
    have behind : table.size.tableEntries ≤ i := by
      by_contra atBase
      exact linkedBack (sound.linked.atHead i used (Nat.lt_of_not_le atBase)).1
    have prevUsed := (sound.linked.behind i used behind).1
    obtain ⟨positive, inTable⟩ := sound.linked.inside _ prevUsed
    rw [ipaTableGetEntryByIndex_eq positive inTable] at absent
    cases absent
  rw [links_used] at used
  rw [links_prev, links_next] at *
  simp only [ipaTableIteratorInit, used, Bool.true_eq_false, if_false, if_neg prevThere,
    if_neg nextThere]

theorem iteratorInit_invalid (unused : table.links.used i = false) :
    ipaTableIteratorInit table i = .error .einval := by
  rw [links_used] at unused
  simp [ipaTableIteratorInit, unused]

theorem iteratorNext_of_sound (sound : table.Sound rank head) {iterator : IpaTableIterator}
    (used : table.links.used iterator.nextIndex = true) :
    ipaTableIteratorNext table iterator =
      .ok ⟨iterator.currIndex, iterator.nextIndex, table.links.next iterator.nextIndex⟩ := by
  have nextThere : ¬ (table.links.next iterator.nextIndex ≠ 0 ∧
      ipaTableGetEntryByIndex table (table.links.next iterator.nextIndex) = none) := by
    rintro ⟨continues, absent⟩
    have nextUsed := (sound.linked.nextUsed _ used continues).1
    obtain ⟨positive, inTable⟩ := sound.linked.inside _ nextUsed
    rw [ipaTableGetEntryByIndex_eq positive inTable] at absent
    cases absent
  rw [links_next] at *
  simp only [ipaTableIteratorNext, if_neg nextThere]

/-! ## DMA commands -/

/-- The command queued for a record. -/
def dmaCommand (ρ : Type) {υ : Type} [EntryInterface ρ υ] (size : TableSize)
    (helpType : DmaHelpType) (recIndex data : Nat) : DmaOne :=
  if recIndex < size.tableEntries then
    { baseAddr := tableType ρ
      offset := helpOffset ρ helpType + entrySize ρ * recIndex
      data := data }
  else
    { baseAddr := expnTableType ρ
      offset := helpOffset ρ helpType +
        entrySize ρ * (recIndex - size.tableEntries)
      data := data }

theorem ipaTableAddDmaCmd_eq {helpType : DmaHelpType} {recIndex data : Nat} {cmd : List DmaOne}
    (inTable : recIndex < table.size.totTblEnts) :
    ipaTableAddDmaCmd table helpType recIndex data cmd =
      cmd ++ [dmaCommand ρ table.size helpType recIndex data] := by
  unfold ipaTableAddDmaCmd dmaCommand
  rw [if_pos inTable]
  split <;> rfl

/-- A command of a table writes the record it was queued for. -/
theorem applyDma_dmaCommand [LawfulEntryInterface ρ] (table : IpaTable ρ) {size : TableSize}
    (sameSize : table.size = size) (helpType : DmaHelpType) (recIndex data : Nat) :
    table.applyDma (dmaCommand ρ size helpType recIndex data) =
      table.store recIndex (dmaWrite (table.records recIndex)
        (helpOffset ρ helpType) data) := by
  subst sameSize
  have small : helpOffset ρ helpType < entrySize ρ :=
    LawfulEntryInterface.helpOffset_lt helpType
  have positive : 0 < entrySize ρ := Nat.lt_of_le_of_lt (Nat.zero_le _) small
  have field : ∀ k, (helpOffset ρ helpType + entrySize ρ * k) %
      entrySize ρ = helpOffset ρ helpType := by
    intro k
    rw [Nat.add_mul_mod_self_left, Nat.mod_eq_of_lt small]
  have record : ∀ k, (helpOffset ρ helpType + entrySize ρ * k) /
      entrySize ρ = k := by
    intro k
    rw [Nat.add_mul_div_left _ _ positive, Nat.div_eq_of_lt small, Nat.zero_add]
  unfold dmaCommand applyDma
  by_cases atBase : recIndex < table.size.tableEntries
  · rw [if_pos atBase]
    simp [field, record]
  · have back : table.size.tableEntries + (recIndex - table.size.tableEntries) = recIndex := by
      omega
    rw [if_neg atBase]
    simp only [if_neg (Ne.symm LawfulEntryInterface.types_ne), if_true, field, record, back]

/-- A command of the index table leaves the NAT table alone. -/
theorem applyDma_index_command (table : IpaTable IpaNatRule) (size : TableSize)
    (helpType : DmaHelpType) (recIndex data : Nat) :
    table.applyDma (dmaCommand IpaNatIndxTblRule size helpType recIndex data) = table := by
  unfold dmaCommand
  split <;> rfl

/-- A command of the NAT table leaves the index table alone. -/
theorem applyDma_nat_command (table : IpaTable IpaNatIndxTblRule) (size : TableSize)
    (helpType : DmaHelpType) (recIndex data : Nat) :
    table.applyDma (dmaCommand IpaNatRule size helpType recIndex data) = table := by
  unfold dmaCommand
  split <;> rfl

theorem foldl_applyDma (cmd : List DmaOne) (natTable : IpaNatIp4TableCache) :
    cmd.foldl IpaNatIp4TableCache.applyDma natTable =
      { natTable with
        table := cmd.foldl applyDma natTable.table
        indexTable := cmd.foldl applyDma natTable.indexTable } := by
  induction cmd generalizing natTable with
  | nil => rfl
  | cons dma rest ih =>
    simp only [List.foldl_cons, ih]
    rfl

end Sm8650.IpaNat
