import Sm8650.IpaNat.Driver

/-!
# Tables by handle

The upper half of `ipa_nat_drvi.c`: the two caches, one for each memory type,
the handles that name their tables, and the calls to the kernel. Opening the
driver, allocating a table and every ioctl may fail; how the next call ends is
read from a fixed sequence of outcomes.
-/

namespace Sm8650.IpaNat

open Function

/-- `tbl_hdl`. A handle is 0, or 1 with the memory type in bit 31; every value
that `VALID_TBL_HDL` rejects is `none`. -/
abbrev TblHdl := Option NatMemIn

/-- What the kernel answers. -/
structure Kernel where
  hwV4 : Bool
  sramMemAvailableForNat : Nat
  callOk : Nat → Bool

/-- `struct ipa_nat_cache`. A table whose memory was given back is `none`. -/
structure IpaNatCache where
  ipaDesc : Bool
  tableCnt : Nat
  ip4Tbl : Option IpaNatIp4TableCache

/-- The static data of `ipa_nat_drvi.c`, with the number of calls made to the
kernel so far. -/
structure Drvi where
  ipv4NatCache : NatMemIn → IpaNatCache
  pdns : BitVec 8 → BitVec 32
  hashToken : Nat
  calls : Nat

namespace Drvi

/-- Before the first table is created. -/
def init (pdns : BitVec 8 → BitVec 32) : Drvi where
  ipv4NatCache := fun _ => ⟨false, 0, none⟩
  pdns := pdns
  hashToken := 69
  calls := 0

/-- The table of a memory type, if it is there. -/
def natTable? (drvi : Drvi) (nmi : NatMemIn) : Option IpaNatIp4TableCache :=
  (drvi.ipv4NatCache nmi).ip4Tbl

/-- A call to the kernel. -/
def call (kernel : Kernel) (drvi : Drvi) : Bool × Drvi :=
  (kernel.callOk drvi.calls, { drvi with calls := drvi.calls + 1 })

/-- What the rule operations read. -/
def platform (kernel : Kernel) (drvi : Drvi) : Platform where
  hwV4 := kernel.hwV4
  pdns := drvi.pdns

/-- Changes the cache of a memory type. -/
def setCache (drvi : Drvi) (nmi : NatMemIn) (cache : IpaNatCache) : Drvi :=
  { drvi with ipv4NatCache := update drvi.ipv4NatCache nmi cache }

/-- Changes the table of a memory type. -/
def setTable (drvi : Drvi) (nmi : NatMemIn) (natTable : IpaNatIp4TableCache) : Drvi :=
  drvi.setCache nmi { drvi.ipv4NatCache nmi with ip4Tbl := some natTable }

/-- Opens the driver for a memory type unless that is done. -/
def openDescriptor (kernel : Kernel) (drvi : Drvi) (nmi : NatMemIn) : Bool × Drvi :=
  if (drvi.ipv4NatCache nmi).ipaDesc then
    (true, drvi)
  else
    let opened := drvi.call kernel
    (opened.1, opened.2.setCache nmi { opened.2.ipv4NatCache nmi with ipaDesc := opened.1 })

/-- `ipa_nati_vote_clock`, for a vote or its withdrawal. -/
def ipaNatiVoteClock (kernel : Kernel) (drvi : Drvi) : Except Errno Unit × Drvi :=
  let opened := drvi.openDescriptor kernel .sram
  if opened.1 then
    let voted := opened.2.call kernel
    (if voted.1 then .ok () else .error .unspecified, voted.2)
  else
    (.error .eio, opened.2)

/-- `ipa_nati_get_sram_size`. -/
def ipaNatiGetSramSize (kernel : Kernel) (drvi : Drvi) : Except Errno Nat × Drvi :=
  let opened := drvi.openDescriptor kernel .sram
  if opened.1 then
    let asked := opened.2.call kernel
    (if asked.1 = false then .error .unspecified
      else if kernel.sramMemAvailableForNat = 0 then .error .einval
      else .ok kernel.sramMemAvailableForNat, asked.2)
  else
    (.error .eio, opened.2)

/-! ## Creating and deleting tables -/

/-- The driver is closed and the table is gone, as after a creation that failed. -/
def abandonTable (drvi : Drvi) (nmi : NatMemIn) : Drvi :=
  drvi.setCache nmi { drvi.ipv4NatCache nmi with ipaDesc := false, ip4Tbl := none }

/-- `ipa_NATI_add_ipv4_tbl`. One outcome stands for the memory of the table,
from the meta array to the mapping. -/
def ipaNATIAddIpv4Tbl (kernel : Kernel) (drvi : Drvi) (nmi : NatMemIn)
    (publicIpAddr : BitVec 32) (numberOfEntries : Nat) : Except Errno NatMemIn × Drvi :=
  if 0 < (drvi.ipv4NatCache nmi).tableCnt then
    (.error .einval, drvi)
  else
    let opened := drvi.openDescriptor kernel nmi
    if opened.1 then
      match ipaTableCalculateEntriesNum numberOfEntries nmi with
      | .error errno => (.error errno, opened.2.abandonTable nmi)
      | .ok size =>
        let allocated := opened.2.call kernel
        if allocated.1 then
          let posted := allocated.2.call kernel
          if posted.1 then
            (.ok nmi,
              { posted.2.setCache nmi
                  { posted.2.ipv4NatCache nmi with
                    tableCnt := 1
                    ip4Tbl := some (IpaNatIp4TableCache.create nmi size) } with
                pdns := update posted.2.pdns 0 publicIpAddr })
          else
            (.error .unspecified, (posted.2.call kernel).2.abandonTable nmi)
        else
          (.error .enomem, allocated.2.abandonTable nmi)
    else
      (.error .eio, opened.2)

/-- `ipa_NATI_del_ipv4_table`. The table is cleared even if the kernel refuses
to free it; only then the count stays. -/
def ipaNATIDelIpv4Table (kernel : Kernel) (drvi : Drvi) (tblHdl : TblHdl) :
    Except Errno Unit × Drvi :=
  match tblHdl with
  | none => (.error .einval, drvi)
  | some nmi =>
    match drvi.natTable? nmi with
    | none => (.error .einval, drvi)
    | some _ =>
      let freed := drvi.call kernel
      let cache := freed.2.ipv4NatCache nmi
      if freed.1 then
        (.ok (), freed.2.setCache nmi
          { ipaDesc := if cache.tableCnt - 1 = 0 then false else cache.ipaDesc
            tableCnt := cache.tableCnt - 1
            ip4Tbl := none })
      else
        (.error .unspecified, freed.2.setCache nmi { cache with ip4Tbl := none })

/-- The cache of a handle that has a table, as the operations on whole tables
check it. -/
def startedCache (drvi : Drvi) (tblHdl : TblHdl) : Except Errno NatMemIn :=
  match tblHdl with
  | none => .error .einval
  | some nmi => if (drvi.ipv4NatCache nmi).tableCnt = 0 then .error .einval else .ok nmi

/-- `ipa_NATI_post_ipv4_init_cmd`. -/
def ipaNATIPostIpv4InitCmd (kernel : Kernel) (drvi : Drvi) (tblHdl : TblHdl) :
    Except Errno Unit × Drvi :=
  match drvi.startedCache tblHdl with
  | .error errno => (.error errno, drvi)
  | .ok _ =>
    let posted := drvi.call kernel
    (if posted.1 then .ok () else .error .unspecified, posted.2)

end Drvi

/-- Both tables after `ipa_table_reset`, with their counters at zero. The meta
array of the index table keeps its contents. -/
def IpaNatIp4TableCache.reset (natTable : IpaNatIp4TableCache) : IpaNatIp4TableCache :=
  { natTable with
    table := { natTable.table with
      records := fun _ => EntryInterface.zeroed
      curTblCnt := 0
      curExpnTblCnt := 0 }
    indexTable := { natTable.indexTable with
      records := fun _ => EntryInterface.zeroed
      curTblCnt := 0
      curExpnTblCnt := 0 } }

/-- `ipa_NATI_clear_ipv4_tbl`. -/
def Drvi.ipaNATIClearIpv4Tbl (drvi : Drvi) (tblHdl : TblHdl) : Except Errno Unit × Drvi :=
  match drvi.startedCache tblHdl with
  | .error errno => (.error errno, drvi)
  | .ok nmi =>
    match drvi.natTable? nmi with
    | none => (.ok (), drvi)
    | some natTable => (.ok (), drvi.setTable nmi natTable.reset)

/-! ## Rules -/

/-- `ipa_NATI_add_ipv4_rule`. -/
def Drvi.addIpv4Rule (kernel : Kernel) (drvi : Drvi) (tblHdl : TblHdl)
    (clntRule : IpaNatIpv4Rule) : Except Errno Nat × Drvi :=
  match tblHdl with
  | none => (.error .einval, drvi)
  | some nmi =>
    match drvi.natTable? nmi with
    | none => (.error .einval, drvi)
    | some natTable =>
      let posted := drvi.call kernel
      let outcome := ipaNATIAddIpv4Rule (drvi.platform kernel) posted.1 drvi.hashToken
        natTable clntRule
      (outcome.ret,
        { posted.2.setTable nmi outcome.natTable with hashToken := outcome.hashToken })

/-- `ipa_NATI_del_ipv4_rule`. -/
def Drvi.delIpv4Rule (kernel : Kernel) (drvi : Drvi) (tblHdl : TblHdl) (ruleHdl : Nat) :
    Except Errno Unit × Drvi :=
  match tblHdl with
  | none => (.error .einval, drvi)
  | some nmi =>
    match drvi.natTable? nmi with
    | none => (.error .einval, drvi)
    | some natTable =>
      let posted := drvi.call kernel
      let outcome := ipaNATIDelIpv4Rule posted.1 natTable ruleHdl
      (outcome.1, posted.2.setTable nmi outcome.2)

/-- `ipa_NATI_query_timestamp`. -/
def Drvi.queryTimestamp (drvi : Drvi) (tblHdl : TblHdl) (ruleHdl : Nat) :
    Except Errno (BitVec 24) :=
  match tblHdl with
  | none => .error .einval
  | some nmi =>
    match drvi.natTable? nmi with
    | none => .error .einval
    | some natTable => ipaNATIQueryTimestamp natTable ruleHdl

end Sm8650.IpaNat
