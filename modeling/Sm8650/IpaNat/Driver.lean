import Sm8650.IpaNat.Table

/-!
# Adding and deleting rules

The lower half of `ipa_nat_drvi.c`: `ipa_NATI_add_ipv4_rule` and
`ipa_NATI_del_ipv4_rule` on one pair of a NAT table and its index table. A rule
occupies one record of each. The NAT record names its index record and the
index record names the NAT record.
-/

namespace Sm8650.IpaNat

open Function

/-! ## The two kinds of records -/

/-- The data of a NAT insertion: the client's rule and the public address of its
PDN. -/
structure ClientData where
  pubIpAddr : BitVec 32
  rule : IpaNatIpv4Rule

/-- `entry_interface`, with the DMA helpers of the NAT table. -/
instance entryInterface : EntryInterface IpaNatRule ClientData where
  entrySize := 32
  tableType := .natBaseTbl
  expnTableType := .natExpnTbl
  helpOffset
    | .updateHead => ipaNatRuleFlagFieldOffset
    | .updateEntry => ipaNatRuleNextFieldOffset
    | .deleteHead => ipaNatRuleProtoFieldOffset
  dmaWrite := IpaNatRule.dmaWrite
  hasMeta := false
  zeroed := IpaNatRule.zero
  entryIsValid := IpaNatRule.enable
  entryGetNextIndex := IpaNatRule.nextIndex
  entryGetPrevIndex := fun entry _ _ _ => entry.prevIndex
  entrySetPrevIndex := fun entry _ prevIndex expnMeta _ =>
    ({ entry with prevIndex := prevIndex }, expnMeta)
  entryHeadInsert := fun entry userData =>
    (tableEntryCopyFromUser userData.pubIpAddr entry userData.rule,
      headInsertDmaData (tableEntryCopyFromUser userData.pubIpAddr entry userData.rule))
  entryTailInsert := fun entry userData =>
    { tableEntryCopyFromUser userData.pubIpAddr entry userData.rule with enable := true }
  entryGetDeleteHeadDmaCommandData := fun _ _ => ipaNatInvalidProtoFieldValue

/-- `index_entry_interface`, with the DMA helpers of the index table. The data
of an insertion is the slot of the NAT record. -/
instance indexEntryInterface : EntryInterface IpaNatIndxTblRule Nat where
  entrySize := 4
  tableType := .natIndxTbl
  expnTableType := .natIndexExpnTbl
  helpOffset
    | .updateHead => ipaNatIndexRuleNatIndexFieldOffset
    | .updateEntry => ipaNatIndexRuleNextFieldOffset
    | .deleteHead => ipaNatIndexRuleNatIndexFieldOffset
  dmaWrite := IpaNatIndxTblRule.dmaWrite
  hasMeta := true
  zeroed := IpaNatIndxTblRule.zero
  entryIsValid := fun entry => entry.tblEntry != 0
  entryGetNextIndex := IpaNatIndxTblRule.nextIndex
  entryGetPrevIndex := fun _ entryIndex expnMeta baseTableSize =>
    if baseTableSize ≤ entryIndex then expnMeta (entryIndex - baseTableSize) else 0
  entrySetPrevIndex := fun entry entryIndex prevIndex expnMeta baseTableSize =>
    if baseTableSize ≤ entryIndex then
      (entry, update expnMeta (entryIndex - baseTableSize) prevIndex)
    else
      (entry, expnMeta)
  entryHeadInsert := fun entry userData => (entry, userData)
  entryTailInsert := fun entry userData => { entry with tblEntry := userData }
  entryGetDeleteHeadDmaCommandData := fun _ nextEntry => nextEntry.tblEntry

/-! ## The pair of tables -/

/-- `struct ipa_nat_ip4_table_cache`. -/
structure IpaNatIp4TableCache where
  memDescValid : Bool
  table : IpaTable IpaNatRule
  indexTable : IpaTable IpaNatIndxTblRule

/-- What the driver reads and no rule operation writes: whether the hardware is
`IPA_HW_v4_0` or later, and the public address of each PDN. -/
structure Platform where
  hwV4 : Bool
  pdns : BitVec 8 → BitVec 32

namespace IpaNatIp4TableCache

/-- The tables as `ipa_nati_create_table` leaves them. -/
def create (nmi : NatMemIn) (size : TableSize) : IpaNatIp4TableCache where
  memDescValid := true
  table := IpaTable.init nmi size
  indexTable := IpaTable.init nmi size

/-- One command reaches the table whose part it addresses. -/
def applyDma (natTable : IpaNatIp4TableCache) (dma : DmaOne) : IpaNatIp4TableCache :=
  { natTable with
    table := natTable.table.applyDma dma
    indexTable := natTable.indexTable.applyDma dma }

end IpaNatIp4TableCache

/-- `ipa_nati_post_ipv4_dma_cmd`: the ioctl succeeds and performs the commands in
their order, or fails and performs none. -/
def ipaNatiPostIpv4DmaCmd (dmaOk : Bool) (natTable : IpaNatIp4TableCache)
    (cmd : List DmaOne) : Except Errno IpaNatIp4TableCache :=
  if dmaOk then .ok (cmd.foldl IpaNatIp4TableCache.applyDma natTable) else .error .eio

/-! ## Adding a rule -/

/-- A hash displaced by `Hash_token`. -/
def tokenHash (hash hashToken size : Nat) : Nat :=
  limitHash ((hash + hashToken) % 2 ^ 16) size

/-- The NAT slot that `ipa_NATI_add_ipv4_rule` tries first, and the new token. -/
def newEntryIndex (platform : Platform) (size : TableSize) (hashToken : Nat)
    (clntRule : IpaNatIpv4Rule) : Nat × Nat :=
  let hash := dstHash platform.hwV4 (platform.pdns clntRule.pdnIndex) clntRule.targetIp
    clntRule.targetPort clntRule.publicPort clntRule.protocol (size.tableEntries - 1)
  if clntRule.srcOnly then
    (tokenHash hash hashToken (size.tableEntries - 1), hashToken + 1)
  else
    (hash, hashToken)

/-- The index slot that `ipa_NATI_add_ipv4_rule` tries first, and the new token. -/
def newIndexTblEntryIndex (size : TableSize) (hashToken : Nat)
    (clntRule : IpaNatIpv4Rule) : Nat × Nat :=
  let hash := srcHash clntRule.privateIp clntRule.privatePort clntRule.targetIp
    clntRule.targetPort clntRule.protocol (size.tableEntries - 1)
  if clntRule.dstOnly then
    (tokenHash hash hashToken (size.tableEntries - 1), hashToken + 1)
  else
    (hash, hashToken)

/-- The checks that `ipa_NATI_add_ipv4_rule` makes on the rule itself. -/
def ruleAccepted (platform : Platform) (clntRule : IpaNatIpv4Rule) : Bool :=
  clntRule.protocol ≠ ipahalNatInvalidProtocol && clntRule.pdnIndex.toNat < ipaMaxPdnNum &&
    platform.pdns clntRule.pdnIndex ≠ 0

/-- The stores made once both records have a slot. -/
def completeRule (entry : IpaNatRule) (clntRule : IpaNatIpv4Rule) (indxTblEntry : Nat) :
    IpaNatRule :=
  { entry with
    indxTblEntry := indxTblEntry
    redirect := clntRule.redirect.getLsbD 0
    enable := clntRule.enable.getLsbD 0
    timeStamp := clntRule.timeStamp.setWidth 24 }

/-- The result of adding a rule: the handle or an error, the token, the tables. -/
structure AddOutcome where
  ret : Except Errno Nat
  hashToken : Nat
  natTable : IpaNatIp4TableCache

/-- `ipa_NATI_add_ipv4_rule`, from the point where the tables are known. -/
def ipaNATIAddIpv4Rule (platform : Platform) (dmaOk : Bool) (hashToken : Nat)
    (natTable : IpaNatIp4TableCache) (clntRule : IpaNatIpv4Rule) : AddOutcome :=
  if ruleAccepted platform clntRule = false then
    ⟨.error .einval, hashToken, natTable⟩
  else if natTable.memDescValid = false then
    ⟨.error .einval, hashToken, natTable⟩
  else
    let entry := newEntryIndex platform natTable.table.size hashToken clntRule
    match ipaTableAddEntry natTable.table
        (ClientData.mk (platform.pdns clntRule.pdnIndex) clntRule) entry.1 [] with
    | .error errno => ⟨.error errno, entry.2, natTable⟩
    | .ok newEntry =>
      let indexEntry := newIndexTblEntryIndex natTable.table.size entry.2 clntRule
      let eraseNewEntry := ipaTableEraseEntry newEntry.table newEntry.recIndex
      match ipaTableAddEntry natTable.indexTable newEntry.recIndex indexEntry.1
          newEntry.cmd with
      | .error errno =>
        ⟨.error errno, indexEntry.2, { natTable with table := eraseNewEntry }⟩
      | .ok newIndex =>
        match ipaTableGetEntryByIndex newEntry.table newEntry.recIndex with
        | none =>
          ⟨.error .eperm, indexEntry.2,
            { natTable with
              table := eraseNewEntry
              indexTable := ipaTableEraseEntry newIndex.table newIndex.recIndex }⟩
        | some recIndex =>
          let written : IpaNatIp4TableCache :=
            { natTable with
              table := newEntry.table.store recIndex
                (completeRule (newEntry.table.records recIndex) clntRule newIndex.recIndex)
              indexTable := newIndex.table }
          match ipaNatiPostIpv4DmaCmd dmaOk written newIndex.cmd with
          | .error errno =>
            ⟨.error errno, indexEntry.2,
              { written with
                table := ipaTableEraseEntry written.table newEntry.recIndex
                indexTable :=
                  ipaTableEraseEntry written.indexTable newIndex.recIndex }⟩
          | .ok posted =>
            ⟨.ok (makeEntryHdl natTable.table newEntry.recIndex), indexEntry.2, posted⟩

/-! ## Deleting a rule -/

/-- `ipa_nati_copy_second_index_entry_to_head`: the store into the rule of the
second index record, and the command for the head's next index. -/
def ipaNatiCopySecondIndexEntryToHead (natTable : IpaNatIp4TableCache)
    (indexTableIterator : IpaTableIterator) (cmd : List DmaOne) :
    IpaNatIp4TableCache × List DmaOne :=
  let second := natTable.indexTable.records indexTableIterator.nextIndex
  ({ natTable with
      table := natTable.table.store second.tblEntry
        { natTable.table.records second.tblEntry with
          indxTblEntry := indexTableIterator.currIndex } },
    ipaTableAddDmaCmd natTable.indexTable .updateEntry indexTableIterator.currIndex
      second.nextIndex cmd)

/-- The stores made after the commands of a deletion went through. -/
def finishDelete (natTable : IpaNatIp4TableCache)
    (tableIterator indexTableIterator : IpaTableIterator) : IpaNatIp4TableCache :=
  let isPrevEmpty := tableIterator.prevIndex ≠ 0 &&
    (natTable.table.records tableIterator.prevIndex).protocol = ipahalNatInvalidProtocol
  let indexTable := ipaTableDeleteEntry natTable.indexTable indexTableIterator false
  { natTable with
    table :=
      if tableIterator.isHeadWithTail then natTable.table
      else ipaTableDeleteEntry natTable.table tableIterator isPrevEmpty
    indexTable :=
      if indexTable.size.tableEntries ≤ indexTableIterator.currIndex then
        { indexTable with
          expnMeta := update indexTable.expnMeta
            (indexTableIterator.currIndex - indexTable.size.tableEntries) 0 }
      else
        indexTable }

/-- The commands of a deletion, with the tables after the stores that precede
them and the iterator of the index record that is to go. -/
structure DeletePlan where
  natTable : IpaNatIp4TableCache
  indexTableIterator : Except Errno IpaTableIterator
  cmd : List DmaOne

/-- The part of `ipa_NATI_del_ipv4_rule` that deals with the index record. -/
def planDelete (natTable : IpaNatIp4TableCache) (indexTableIterator : IpaTableIterator) :
    DeletePlan :=
  let cmd := ipaTableCreateDeleteCommand natTable.indexTable indexTableIterator []
  if indexTableIterator.isHeadWithTail then
    let copied := ipaNatiCopySecondIndexEntryToHead natTable indexTableIterator cmd
    ⟨copied.1, ipaTableIteratorNext copied.1.indexTable indexTableIterator, copied.2⟩
  else
    ⟨natTable, .ok indexTableIterator, cmd⟩

/-- `ipa_NATI_del_ipv4_rule`, from the point where the tables are known. -/
def ipaNATIDelIpv4Rule (dmaOk : Bool) (natTable : IpaNatIp4TableCache) (ruleHdl : Nat) :
    Except Errno Unit × IpaNatIp4TableCache :=
  if natTable.memDescValid = false then
    (.error .einval, natTable)
  else
    match ipaTableGetEntry natTable.table ruleHdl with
    | .error errno => (.error errno, natTable)
    | .ok index =>
      match ipaTableIteratorInit natTable.table index with
      | .error errno => (.error errno, natTable)
      | .ok tableIterator =>
        match ipaTableGetEntryByIndex natTable.indexTable
            (natTable.table.records index).indxTblEntry with
        | none => (.error .eperm, natTable)
        | some indexIndex =>
          match ipaTableIteratorInit natTable.indexTable indexIndex with
          | .error errno => (.error errno, natTable)
          | .ok indexTableIterator =>
            let plan := planDelete natTable indexTableIterator
            match plan.indexTableIterator with
            | .error errno => (.error errno, plan.natTable)
            | .ok removed =>
              match ipaNatiPostIpv4DmaCmd dmaOk plan.natTable
                  (ipaTableCreateDeleteCommand plan.natTable.table tableIterator plan.cmd) with
              | .error errno => (.error errno, plan.natTable)
              | .ok posted => (.ok (), finishDelete posted tableIterator removed)

/-! ## Reading a rule -/

/-- `ipa_NATI_query_timestamp`, from the point where the tables are known. -/
def ipaNATIQueryTimestamp (natTable : IpaNatIp4TableCache) (ruleHdl : Nat) :
    Except Errno (BitVec 24) :=
  if natTable.memDescValid = false then
    .error .einval
  else
    match ipaTableGetEntry natTable.table ruleHdl with
    | .error errno => .error errno
    | .ok index => .ok (natTable.table.records index).timeStamp

end Sm8650.IpaNat
