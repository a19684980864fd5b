import Sm8650.IpaNat.Record

/-!
# The table of `ipa_table.c`

A table has a base part, addressed by hash, and an expansion part for the
records that collide. The operations are generic in the record, as the source
is through `ipa_table_entry_interface`. Some fields of a record are stored at
once; the fields that the hardware reads concurrently are left to DMA commands,
which an operation only queues.
-/

namespace Sm8650.IpaNat

/-! ## Sizes -/

/-- `IPA_TABLE_MAX_ENTRIES`. -/
def ipaTableMaxEntries : Nat := 5120

/-- The loop of `Get2PowerTightUpperBound`; a `uint16_t` reaches 1 in at most
sixteen rounds. -/
def get2PowerLoop : Nat → Nat → Nat → Nat → Nat × Nat
  | 0, _, prev, curr => (prev, curr)
  | rounds + 1, tmp, prev, curr =>
    if tmp = 1 then (prev, curr) else get2PowerLoop rounds (tmp / 2) curr (2 * curr)

/-- `Get2PowerTightUpperBound`. -/
def get2PowerTightUpperBound (num : Nat) : Nat :=
  if num = 0 then 2
  else
    let bounds := get2PowerLoop 16 num 0 2
    if num = bounds.1 then bounds.1 else bounds.2

/-- `GetEvenTightUpperBound`. -/
def getEvenTightUpperBound (num : Nat) : Nat :=
  if num = 0 then 2 else if num % 2 = 1 then num + 1 else num

/-- The number of base and expansion records of a table. -/
structure TableSize where
  tableEntries : Nat
  expnTableEntries : Nat
  twoLeBase : 2 ≤ tableEntries
  baseLe : tableEntries ≤ 4096
  expnPos : 0 < expnTableEntries
  expnLe : expnTableEntries ≤ 4096

namespace TableSize

/-- `tot_tbl_ents`. -/
def totTblEnts (size : TableSize) : Nat := size.tableEntries + size.expnTableEntries

theorem base_lt_tot (size : TableSize) : size.tableEntries < size.totTblEnts := by
  have positive := size.expnPos
  unfold totTblEnts
  omega

theorem pred_pos (size : TableSize) : 0 < size.tableEntries - 1 := by
  have atLeastTwo := size.twoLeBase
  omega

end TableSize

/-- Both bounds that the loop tracks are powers of two above 1, up to the
initial 0. -/
theorem get2PowerLoop_powers (rounds tmp prev curr : Nat)
    (prevPower : prev = 0 ∨ ∃ k, prev = 2 ^ (k + 1)) (currPower : ∃ k, curr = 2 ^ (k + 1)) :
    ((get2PowerLoop rounds tmp prev curr).1 = 0 ∨
        ∃ k, (get2PowerLoop rounds tmp prev curr).1 = 2 ^ (k + 1)) ∧
      ∃ k, (get2PowerLoop rounds tmp prev curr).2 = 2 ^ (k + 1) := by
  induction rounds generalizing tmp prev curr with
  | zero => exact ⟨prevPower, currPower⟩
  | succ rounds ih =>
    unfold get2PowerLoop
    split
    · exact ⟨prevPower, currPower⟩
    · apply ih
      · exact Or.inr currPower
      · obtain ⟨k, rfl⟩ := currPower
        exact ⟨k + 1, by rw [Nat.pow_succ 2 (k + 1)]; omega⟩

theorem get2PowerTightUpperBound_power (num : Nat) :
    ∃ k, get2PowerTightUpperBound num = 2 ^ (k + 1) := by
  unfold get2PowerTightUpperBound
  split
  · exact ⟨0, rfl⟩
  · rename_i nonzero
    obtain ⟨prevPower, currPower⟩ := get2PowerLoop_powers 16 num 0 2 (Or.inl rfl) ⟨0, rfl⟩
    by_cases tight : num = (get2PowerLoop 16 num 0 2).1
    · simp only [if_pos tight]
      rcases prevPower with zero | power
      · exact absurd (tight.trans zero) nonzero
      · exact power
    · simp only [if_neg tight]
      exact currPower

theorem two_le_get2PowerTightUpperBound (num : Nat) : 2 ≤ get2PowerTightUpperBound num := by
  obtain ⟨k, power⟩ := get2PowerTightUpperBound_power num
  have positive : 0 < 2 ^ k := Nat.two_pow_pos k
  omega

/-- A power of two within the limit of 5120 is at most 4096. -/
theorem get2PowerTightUpperBound_le {num : Nat}
    (within : get2PowerTightUpperBound num ≤ ipaTableMaxEntries) :
    get2PowerTightUpperBound num ≤ 4096 := by
  obtain ⟨k, power⟩ := get2PowerTightUpperBound_power num
  rw [power] at within ⊢
  by_cases small : k + 1 ≤ 12
  · exact Nat.pow_le_pow_right (by decide) small
  · have large : 2 ^ 13 ≤ 2 ^ (k + 1) := Nat.pow_le_pow_right (by decide) (by omega)
    unfold ipaTableMaxEntries at within
    omega

theorem getEvenTightUpperBound_bounds (num : Nat) :
    0 < getEvenTightUpperBound num ∧ getEvenTightUpperBound num ≤ num + 2 := by
  unfold getEvenTightUpperBound
  split
  · omega
  · split <;> omega

/-- The two numbers of entries that `ipa_table_calculate_entries_num` derives:
80% and 20% in DDR, 100% and 43% in SRAM. -/
def calculatedEntries (numberOfEntries : Nat) : NatMemIn → Nat × Nat
  | .ddr => (get2PowerTightUpperBound (numberOfEntries * 80 / 100),
      getEvenTightUpperBound (numberOfEntries * 20 / 100))
  | .sram => (get2PowerTightUpperBound numberOfEntries,
      getEvenTightUpperBound (numberOfEntries * 43 / 100))

theorem calculatedEntries_bounds (numberOfEntries : Nat) (nmi : NatMemIn) :
    2 ≤ (calculatedEntries numberOfEntries nmi).1 ∧
      ((calculatedEntries numberOfEntries nmi).1 ≤ ipaTableMaxEntries →
        (calculatedEntries numberOfEntries nmi).1 ≤ 4096) ∧
      0 < (calculatedEntries numberOfEntries nmi).2 ∧
      (numberOfEntries ≤ ipaTableMaxEntries →
        (calculatedEntries numberOfEntries nmi).2 ≤ 4096) := by
  cases nmi with
  | ddr =>
    have even := getEvenTightUpperBound_bounds (numberOfEntries * 20 / 100)
    refine ⟨two_le_get2PowerTightUpperBound _, get2PowerTightUpperBound_le, even.1, ?_⟩
    intro within
    unfold ipaTableMaxEntries at within
    simp only [calculatedEntries]
    omega
  | sram =>
    have even := getEvenTightUpperBound_bounds (numberOfEntries * 43 / 100)
    refine ⟨two_le_get2PowerTightUpperBound _, get2PowerTightUpperBound_le, even.1, ?_⟩
    intro within
    unfold ipaTableMaxEntries at within
    simp only [calculatedEntries]
    omega

/-- `ipa_table_calculate_entries_num`. -/
def ipaTableCalculateEntriesNum (numberOfEntries : Nat) (nmi : NatMemIn) :
    Except Errno TableSize :=
  if inRange : numberOfEntries ≤ ipaTableMaxEntries then
    if fits : (calculatedEntries numberOfEntries nmi).1 +
        (calculatedEntries numberOfEntries nmi).2 ≤ ipaTableMaxEntries then
      have bounds := calculatedEntries_bounds numberOfEntries nmi
      .ok
        { tableEntries := (calculatedEntries numberOfEntries nmi).1
          expnTableEntries := (calculatedEntries numberOfEntries nmi).2
          twoLeBase := bounds.1
          baseLe := bounds.2.1 (Nat.le_trans (Nat.le_add_right _ _) fits)
          expnPos := bounds.2.2.1
          expnLe := bounds.2.2.2 inRange }
    else
      .error .einval
  else
    .error .einval

/-! ## Records and commands -/

/-- `dma_help_type`. -/
inductive DmaHelpType
  | updateHead
  | updateEntry
  | deleteHead
  deriving DecidableEq, Repr

/-- `ipa_table_dma_type`, the part of a table that a command addresses. -/
inductive IpaTableDmaType
  | natBaseTbl
  | natExpnTbl
  | natIndxTbl
  | natIndexExpnTbl
  deriving DecidableEq, Repr

/-- `struct ipa_ioc_nat_dma_one`: 16 bits of data for a byte offset of one part
of the tables. -/
structure DmaOne where
  baseAddr : IpaTableDmaType
  offset : Nat
  data : Nat
  deriving DecidableEq, Repr

/-- `ipa_table_entry_interface`, with the parameters that `ipa_table_init` and
the DMA helpers fix for each kind of record. `υ` is the data of an insertion.
The meta array holds the back links of expansion records that have no field for
them; `hasMeta` tells whether a table has one. -/
class EntryInterface (ρ : Type) (υ : outParam Type) where
  entrySize : Nat
  tableType : IpaTableDmaType
  expnTableType : IpaTableDmaType
  helpOffset : DmaHelpType → Nat
  dmaWrite : ρ → Nat → Nat → ρ
  hasMeta : Bool
  zeroed : ρ
  entryIsValid : ρ → Bool
  entryGetNextIndex : ρ → Nat
  entryGetPrevIndex : ρ → Nat → (Nat → Nat) → Nat → Nat
  entrySetPrevIndex : ρ → Nat → Nat → (Nat → Nat) → Nat → ρ × (Nat → Nat)
  entryHeadInsert : ρ → υ → ρ × Nat
  entryTailInsert : ρ → υ → ρ
  entryGetDeleteHeadDmaCommandData : ρ → ρ → Nat

export EntryInterface (entryIsValid entryGetNextIndex entryGetPrevIndex)

/-- `ipa_table`. `records` is the contiguous array of both parts. -/
structure IpaTable (ρ : Type) where
  nmi : NatMemIn
  size : TableSize
  records : Nat → ρ
  curTblCnt : Int
  curExpnTblCnt : Int
  expnMeta : Nat → Nat

/-- `ipa_table_iterator`. The entry pointers are those of the indices, null
where the index is 0. -/
structure IpaTableIterator where
  prevIndex : Nat
  currIndex : Nat
  nextIndex : Nat
  deriving DecidableEq, Repr

variable {ρ υ : Type} [EntryInterface ρ υ]

namespace IpaTable

/-- A table after `ipa_table_init`, with its memory allocated, cleared by
`ipa_table_reset` and its meta array by `calloc`. -/
def init (nmi : NatMemIn) (size : TableSize) : IpaTable ρ where
  nmi := nmi
  size := size
  records := fun _ => EntryInterface.zeroed
  curTblCnt := 0
  curExpnTblCnt := 0
  expnMeta := fun _ => 0

/-- Stores a record. -/
def store (table : IpaTable ρ) (index : Nat) (entry : ρ) : IpaTable ρ :=
  { table with records := Function.update table.records index entry }

/-- The 16 bits of a DMA command reach the record that its offset lies in. -/
def applyDma (table : IpaTable ρ) (dma : DmaOne) : IpaTable ρ :=
  let entrySize := EntryInterface.entrySize ρ
  let write (index : Nat) : IpaTable ρ :=
    table.store index
      (EntryInterface.dmaWrite (table.records index) (dma.offset % entrySize) dma.data)
  if dma.baseAddr = EntryInterface.tableType ρ then
    write (dma.offset / entrySize)
  else if dma.baseAddr = EntryInterface.expnTableType ρ then
    write (table.size.tableEntries + dma.offset / entrySize)
  else
    table

end IpaTable

/-- `ipa_table_add_dma_cmd` and `ipa_table_dma_cmd_generate`. The address offset
of the table's memory is common to all commands of a table and left out. -/
def ipaTableAddDmaCmd (table : IpaTable ρ) (helpType : DmaHelpType) (recIndex data : Nat)
    (cmd : List DmaOne) : List DmaOne :=
  if recIndex < table.size.totTblEnts then
    if recIndex < table.size.tableEntries then
      cmd ++ [{ baseAddr := EntryInterface.tableType ρ
                offset := EntryInterface.helpOffset ρ helpType +
                  EntryInterface.entrySize ρ * recIndex
                data := data }]
    else
      cmd ++ [{ baseAddr := EntryInterface.expnTableType ρ
                offset := EntryInterface.helpOffset ρ helpType +
                  EntryInterface.entrySize ρ * (recIndex - table.size.tableEntries)
                data := data }]
  else
    cmd

/-! ## Handles -/

/-- `MakeEntryHdl`: slot number and part, with the memory type in bit 15. -/
def makeEntryHdl (table : IpaTable ρ) (tblEntry : Nat) : Nat :=
  if table.size.tableEntries ≤ tblEntry then
    2 * (tblEntry - table.size.tableEntries) + 1 + 2 ^ 15 * table.nmi.toNat
  else
    2 * tblEntry + 2 ^ 15 * table.nmi.toNat

/-- `BREAK_RULE_HDL`, the record index. -/
def breakRuleHdl (table : IpaTable ρ) (hdl : Nat) : Nat :=
  hdl / 2 % 2 ^ 12 + if hdl % 2 = 1 then table.size.tableEntries else 0

/-- `ipa_table_get_entry`, with the record given by its index. -/
def ipaTableGetEntry (table : IpaTable ρ) (entryHandle : Nat) : Except Errno Nat :=
  if breakRuleHdl table entryHandle < table.size.totTblEnts then
    .ok (breakRuleHdl table entryHandle)
  else
    .error .einval

/-- `ipa_table_get_entry_by_index`. -/
def ipaTableGetEntryByIndex (table : IpaTable ρ) (recIndex : Nat) : Option Nat :=
  if recIndex = 0 ∨ table.size.totTblEnts ≤ recIndex then none else some recIndex

/-! ## Walking -/

/-- The return value of a walk callback and of a walk: zero to go on, a positive
index to stop, a negative code to fail. -/
inductive WalkResult
  | zero
  | positive (index : Nat)
  | negative (errno : Errno)
  deriving DecidableEq, Repr

/-- `When2Callback`. -/
inductive When2Callback
  | slotEmpty
  | slotFilled
  deriving DecidableEq, Repr

/-- `ipa_table_walk_cb`, with the data that a callback works on passed along. -/
abbrev WalkCallback (ρ σ : Type) := σ → Nat → ρ → Nat → WalkResult × σ

/-- Whether a walk calls back at a record. -/
def callBackAt (when2cb : When2Callback) (entry : ρ) : Bool :=
  match when2cb with
  | .slotEmpty => !entryIsValid entry
  | .slotFilled => entryIsValid entry

/-- The loop of `ipa_table_walk` over the next `remaining` records. -/
def ipaTableWalkLoop {σ : Type} (table : IpaTable ρ) (when2cb : When2Callback)
    (walkCb : WalkCallback ρ σ) : Nat → Nat → σ → WalkResult × σ
  | 0, _, arbData => (.zero, arbData)
  | remaining + 1, i, arbData =>
    if callBackAt when2cb (table.records i) then
      match walkCb arbData (makeEntryHdl table i) (table.records i) i with
      | (.zero, next) => ipaTableWalkLoop table when2cb walkCb remaining (i + 1) next
      | stopped => stopped
    else
      ipaTableWalkLoop table when2cb walkCb remaining (i + 1) arbData

/-- `ipa_table_walk`. -/
def ipaTableWalk {σ : Type} (table : IpaTable ρ) (startIndex : Nat)
    (when2cb : When2Callback) (walkCb : WalkCallback ρ σ) (arbData : σ) :
    WalkResult × σ :=
  if startIndex < table.size.totTblEnts then
    ipaTableWalkLoop table when2cb walkCb (table.size.totTblEnts - startIndex) startIndex arbData
  else
    (.negative .einval, arbData)

/-- `mt_slot`, which stops at the first record it is called for. -/
def mtSlot : WalkCallback ρ Unit := fun _ _ _ recordIndex => (.positive recordIndex, ())

/-- `FindExpnTblFreeEntry`. -/
def findExpnTblFreeEntry (table : IpaTable ρ) : Except Errno Nat :=
  match (ipaTableWalk table table.size.tableEntries .slotEmpty mtSlot ()).1 with
  | .positive index => .ok index
  | _ => .error .unspecified

/-! ## Iterators -/

/-- `ipa_table_iterator_init`. -/
def ipaTableIteratorInit (table : IpaTable ρ) (currIndex : Nat) :
    Except Errno IpaTableIterator :=
  let entry := table.records currIndex
  let prevIndex := entryGetPrevIndex entry currIndex table.expnMeta table.size.tableEntries
  let nextIndex := entryGetNextIndex entry
  if entryIsValid entry = false then
    .error .einval
  else if prevIndex ≠ 0 ∧ ipaTableGetEntryByIndex table prevIndex = none then
    .error .eperm
  else if nextIndex ≠ 0 ∧ ipaTableGetEntryByIndex table nextIndex = none then
    .error .eperm
  else
    .ok ⟨prevIndex, currIndex, nextIndex⟩

/-- `ipa_table_iterator_next`. -/
def ipaTableIteratorNext (table : IpaTable ρ) (iterator : IpaTableIterator) :
    Except Errno IpaTableIterator :=
  let nextIndex := entryGetNextIndex (table.records iterator.nextIndex)
  if nextIndex ≠ 0 ∧ ipaTableGetEntryByIndex table nextIndex = none then
    .error .eperm
  else
    .ok ⟨iterator.currIndex, iterator.nextIndex, nextIndex⟩

/-- The loop of `ipa_table_iterator_end`, for at most `rounds` records. -/
def ipaTableIteratorEndLoop (table : IpaTable ρ) : Nat → Nat → Except Errno Nat
  | 0, _ => .error .unspecified
  | rounds + 1, prevIndex =>
    let nextIndex := entryGetNextIndex (table.records prevIndex)
    if nextIndex = 0 then .ok prevIndex
    else if nextIndex = prevIndex then .error .unspecified
    else ipaTableIteratorEndLoop table rounds nextIndex

/-- `ipa_table_iterator_end`: the last record behind a given one. No list is
longer than the table. -/
def ipaTableIteratorEnd (table : IpaTable ρ) (recIndex : Nat) : Except Errno Nat :=
  ipaTableIteratorEndLoop table table.size.totTblEnts recIndex

/-- `ipa_table_iterator_is_head_with_tail`. -/
def IpaTableIterator.isHeadWithTail (iterator : IpaTableIterator) : Bool :=
  iterator.nextIndex ≠ 0 && iterator.prevIndex = 0

/-! ## Adding a record -/

/-- What an insertion hands back: the table, the slot taken, and the commands
queued so far. -/
structure Inserted (ρ : Type) where
  table : IpaTable ρ
  recIndex : Nat
  cmd : List DmaOne

/-- `InsertHead`. -/
def insertHead (table : IpaTable ρ) (recIndex : Nat) (userData : υ) (cmd : List DmaOne) :
    Inserted ρ :=
  let inserted := EntryInterface.entryHeadInsert (table.records recIndex) userData
  { table := { table.store recIndex inserted.1 with curTblCnt := table.curTblCnt + 1 }
    recIndex := recIndex
    cmd := ipaTableAddDmaCmd table .updateHead recIndex inserted.2 cmd }

/-- The stores of `InsertTail` once the last record of the list and the free
slot are known. -/
def linkTail (table : IpaTable ρ) (prevIndex currIndex : Nat) (userData : υ)
    (cmd : List DmaOne) : Inserted ρ :=
  let inserted : ρ × Nat :=
    if EntryInterface.hasMeta ρ then
      (EntryInterface.entryTailInsert (table.records currIndex) userData, 0)
    else
      EntryInterface.entryHeadInsert (table.records currIndex) userData
  let linked := EntryInterface.entrySetPrevIndex inserted.1 currIndex prevIndex
    table.expnMeta table.size.tableEntries
  let enabling :=
    if EntryInterface.hasMeta ρ then cmd
    else ipaTableAddDmaCmd table .updateHead currIndex inserted.2 cmd
  { table :=
      { table.store currIndex linked.1 with
        expnMeta := linked.2
        curExpnTblCnt := table.curExpnTblCnt + 1 }
    recIndex := currIndex
    cmd := ipaTableAddDmaCmd table .updateEntry prevIndex currIndex enabling }

/-- `InsertTail`. -/
def insertTail (table : IpaTable ρ) (recIndex : Nat) (userData : υ) (cmd : List DmaOne) :
    Except Errno (Inserted ρ) :=
  match ipaTableIteratorEnd table recIndex with
  | .error errno => .error errno
  | .ok prevIndex =>
    match findExpnTblFreeEntry table with
    | .error errno => .error errno
    | .ok currIndex => .ok (linkTail table prevIndex currIndex userData cmd)

/-- `ipa_table_add_entry`; the handle is `makeEntryHdl` of the slot. -/
def ipaTableAddEntry (table : IpaTable ρ) (userData : υ) (recIndex : Nat)
    (cmd : List DmaOne) : Except Errno (Inserted ρ) :=
  if entryIsValid (table.records recIndex) = false then
    .ok (insertHead table recIndex userData cmd)
  else
    insertTail table recIndex userData cmd

/-! ## Deleting a record -/

/-- `ipa_table_create_delete_command`. -/
def ipaTableCreateDeleteCommand (table : IpaTable ρ) (iterator : IpaTableIterator)
    (cmd : List DmaOne) : List DmaOne :=
  if iterator.prevIndex = 0 then
    if iterator.nextIndex ≠ 0 then
      ipaTableAddDmaCmd table .deleteHead iterator.currIndex
        (EntryInterface.entryGetDeleteHeadDmaCommandData
          (table.records iterator.currIndex) (table.records iterator.nextIndex)) cmd
    else
      ipaTableAddDmaCmd table .updateHead iterator.currIndex 0 cmd
  else
    ipaTableAddDmaCmd table .updateEntry iterator.prevIndex iterator.nextIndex cmd

/-- `ipa_table_erase_entry`. -/
def ipaTableEraseEntry (table : IpaTable ρ) (index : Nat) : IpaTable ρ :=
  let erased := table.store index EntryInterface.zeroed
  if index < table.size.tableEntries then
    { erased with curTblCnt := table.curTblCnt - 1 }
  else
    { erased with curExpnTblCnt := table.curExpnTblCnt - 1 }

/-- `ipa_table_delete_entry`. -/
def ipaTableDeleteEntry (table : IpaTable ρ) (iterator : IpaTableIterator)
    (isPrevEmpty : Bool) : IpaTable ρ :=
  let relinked :=
    if iterator.nextIndex ≠ 0 then
      let linked := EntryInterface.entrySetPrevIndex (table.records iterator.nextIndex)
        iterator.nextIndex iterator.prevIndex table.expnMeta table.size.tableEntries
      { table.store iterator.nextIndex linked.1 with expnMeta := linked.2 }
    else if isPrevEmpty ∧ iterator.prevIndex ≠ 0 then
      { table.store iterator.prevIndex EntryInterface.zeroed with
        curTblCnt := table.curTblCnt - 1 }
    else
      table
  ipaTableEraseEntry relinked iterator.currIndex

end Sm8650.IpaNat
