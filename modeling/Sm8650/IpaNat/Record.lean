import Mathlib.Data.BitVec

/-!
# Records of the NAT tables

The rule record of the NAT table, the record of the index table, the rule a
client hands in, and what a DMA command of 16 bits writes into a record. Links
between records are slot numbers and are kept as natural numbers; every other
field has the width of the source's bit field.
-/

namespace Sm8650.IpaNat

/-- `IPA_MAX_PDN_NUM`. -/
abbrev ipaMaxPdnNum : Nat := 16

/-- The negative return codes of the library; `unspecified` is a bare `-1`. -/
inductive Errno
  | einval
  | eperm
  | eio
  | enomem
  | unspecified
  deriving DecidableEq, Repr

/-- `enum ipa3_nat_mem_in`. -/
inductive NatMemIn
  | ddr
  | sram
  deriving DecidableEq, Repr

/-- The bit that a memory type contributes to a rule handle. -/
def NatMemIn.toNat : NatMemIn → Nat
  | .ddr => 0
  | .sram => 1

/-- `struct ipa_nat_rule`. -/
structure IpaNatRule where
  privateIp : BitVec 32
  targetIp : BitVec 32
  nextIndex : Nat
  publicPort : BitVec 16
  privatePort : BitVec 16
  targetPort : BitVec 16
  ipChksum : BitVec 16
  ucActivationIndex : BitVec 13
  s : Bool
  redirect : Bool
  enable : Bool
  timeStamp : BitVec 24
  protocol : BitVec 8
  prevIndex : Nat
  indxTblEntry : Nat
  rsvd2 : BitVec 8
  rsvd3 : Bool
  dstOnly : Bool
  srcOnly : Bool
  ucp : Bool
  pdnIndex : BitVec 4
  tcpUdpChksum : BitVec 16
  deriving DecidableEq, Repr

/-- A cleared rule record. -/
def IpaNatRule.zero : IpaNatRule where
  privateIp := 0
  targetIp := 0
  nextIndex := 0
  publicPort := 0
  privatePort := 0
  targetPort := 0
  ipChksum := 0
  ucActivationIndex := 0
  s := false
  redirect := false
  enable := false
  timeStamp := 0
  protocol := 0
  prevIndex := 0
  indxTblEntry := 0
  rsvd2 := 0
  rsvd3 := false
  dstOnly := false
  srcOnly := false
  ucp := false
  pdnIndex := 0
  tcpUdpChksum := 0

/-- `struct ipa_nat_indx_tbl_rule`. -/
structure IpaNatIndxTblRule where
  tblEntry : Nat
  nextIndex : Nat
  deriving DecidableEq, Repr

/-- A cleared index record. -/
def IpaNatIndxTblRule.zero : IpaNatIndxTblRule where
  tblEntry := 0
  nextIndex := 0

/-- `ipa_nat_ipv4_rule`, the rule as a client describes it. -/
structure IpaNatIpv4Rule where
  targetIp : BitVec 32
  privateIp : BitVec 32
  targetPort : BitVec 16
  privatePort : BitVec 16
  publicPort : BitVec 16
  protocol : BitVec 8
  pdnIndex : BitVec 8
  redirect : BitVec 8
  enable : BitVec 8
  timeStamp : BitVec 32
  ucActivationIndex : BitVec 16
  s : Bool
  ucp : Bool
  dstOnly : Bool
  srcOnly : Bool
  deriving DecidableEq, Repr

/-- `IPAHAL_NAT_INVALID_PROTOCOL`, which marks a head that is kept only for the
records behind it. -/
def ipahalNatInvalidProtocol : BitVec 8 := 0xFF

/-! ## Checksums -/

/-- Adds the carry out of the low 16 bits back in. -/
def foldCarry (cksum : BitVec 32) : BitVec 32 :=
  if cksum >>> 16 ≠ 0 then (cksum &&& 0xFFFF) + 1 else cksum

/-- `ipa_nati_calc_ip_cksum`. -/
def ipaNatiCalcIpCksum (pubIpAddr privIpAddr : BitVec 32) : BitVec 16 :=
  let pub := foldCarry ((pubIpAddr &&& 0xFFFF) + (pubIpAddr >>> 16))
  let private_ := ~~~privIpAddr
  let low := foldCarry (pub + (private_ &&& 0xFFFF))
  (foldCarry (low + (private_ >>> 16))).setWidth 16

/-- `ipa_nati_calc_tcp_udp_cksum`. -/
def ipaNatiCalcTcpUdpCksum (pubIpAddr : BitVec 32) (pubPort : BitVec 16)
    (privIpAddr : BitVec 32) (privPort : BitVec 16) : BitVec 16 :=
  let pub := foldCarry ((pubIpAddr &&& 0xFFFF) + (pubIpAddr >>> 16))
  let withPort := foldCarry (pub + pubPort.setWidth 32)
  let private_ := ~~~privIpAddr
  let low := foldCarry (withPort + (private_ &&& 0xFFFF))
  let high := foldCarry (low + (private_ >>> 16))
  (foldCarry (high + (~~~privPort).setWidth 32)).setWidth 16

/-! ## Writing a record -/

def ipprotoTcp : BitVec 8 := 6

def ipprotoUdp : BitVec 8 := 17

/-- `table_entry_copy_from_user`; links, flags and time stamp are left alone. -/
def tableEntryCopyFromUser (pubIpAddr : BitVec 32) (entry : IpaNatRule)
    (rule : IpaNatIpv4Rule) : IpaNatRule :=
  { entry with
    privateIp := rule.privateIp
    privatePort := rule.privatePort
    protocol := rule.protocol
    publicPort := rule.publicPort
    targetIp := rule.targetIp
    targetPort := rule.targetPort
    pdnIndex := rule.pdnIndex.setWidth 4
    ucActivationIndex := rule.ucActivationIndex.setWidth 13
    s := rule.s
    ucp := rule.ucp
    dstOnly := rule.dstOnly
    srcOnly := rule.srcOnly
    ipChksum := ipaNatiCalcIpCksum pubIpAddr rule.privateIp
    tcpUdpChksum :=
      if rule.protocol = ipprotoTcp ∨ rule.protocol = ipprotoUdp then
        ipaNatiCalcTcpUdpCksum pubIpAddr rule.publicPort rule.privateIp rule.privatePort
      else
        entry.tcpUdpChksum }

/-- The value of `ipa_nat_flags` as 16 bits. -/
def ipaNatFlags (ucActivationIndex : BitVec 13) (s redirect enable : Bool) : Nat :=
  ucActivationIndex.toNat + s.toNat * 2 ^ 13 + redirect.toNat * 2 ^ 14 + enable.toNat * 2 ^ 15

/-- The flags word built by `table_entry_head_insert`: `enable`, the activation
index and `s`, with every other bit zero. -/
def headInsertDmaData (entry : IpaNatRule) : Nat :=
  ipaNatFlags entry.ucActivationIndex entry.s false true

/-- `IPA_NAT_RULE_NEXT_FIELD_OFFSET`. -/
def ipaNatRuleNextFieldOffset : Nat := 8

/-- `IPA_NAT_RULE_FLAG_FIELD_OFFSET`. -/
def ipaNatRuleFlagFieldOffset : Nat := 18

/-- `IPA_NAT_RULE_PROTO_FIELD_OFFSET`, the last byte of the time stamp and the
protocol. -/
def ipaNatRuleProtoFieldOffset : Nat := 22

/-- `IPA_NAT_INVALID_PROTO_FIELD_VALUE`. -/
def ipaNatInvalidProtoFieldValue : Nat := 0xFF00

/-- Writes 16 bits at a byte offset of a rule record. The library addresses
three of them: next index, flags, and the two bytes that end in the protocol. -/
def IpaNatRule.dmaWrite (entry : IpaNatRule) (field data : Nat) : IpaNatRule :=
  if field = ipaNatRuleNextFieldOffset then
    { entry with nextIndex := data }
  else if field = ipaNatRuleFlagFieldOffset then
    { entry with
      ucActivationIndex := BitVec.ofNat 13 data
      s := data.testBit 13
      redirect := data.testBit 14
      enable := data.testBit 15 }
  else if field = ipaNatRuleProtoFieldOffset then
    { entry with
      timeStamp := BitVec.ofNat 8 data ++ entry.timeStamp.setWidth 16
      protocol := BitVec.ofNat 8 (data / 2 ^ 8) }
  else
    entry

/-- `IPA_NAT_INDEX_RULE_NAT_INDEX_FIELD_OFFSET`. -/
def ipaNatIndexRuleNatIndexFieldOffset : Nat := 0

/-- `IPA_NAT_INDEX_RULE_NEXT_FIELD_OFFSET`. -/
def ipaNatIndexRuleNextFieldOffset : Nat := 2

/-- Writes 16 bits at a byte offset of an index record. -/
def IpaNatIndxTblRule.dmaWrite (entry : IpaNatIndxTblRule) (field data : Nat) :
    IpaNatIndxTblRule :=
  if field = ipaNatIndexRuleNatIndexFieldOffset then
    { entry with tblEntry := data }
  else if field = ipaNatIndexRuleNextFieldOffset then
    { entry with nextIndex := data }
  else
    entry

/-! ## Hashes -/

/-- The hash is limited to the base table, whose slot 0 is unused. -/
def limitHash (hash size : Nat) : Nat :=
  if hash &&& size = 0 then size else hash &&& size

/-- `dst_hash`; `hwV4` tells whether the hardware is `IPA_HW_v4_0` or later. -/
def dstHash (hwV4 : Bool) (publicIp trgtIp : BitVec 32) (trgtPort publicPort : BitVec 16)
    (proto : BitVec 8) (size : Nat) : Nat :=
  let hash : BitVec 16 := trgtIp.setWidth 16 ^^^ (trgtIp >>> 16).setWidth 16 ^^^ trgtPort
    ^^^ publicPort ^^^ proto.setWidth 16
  let hash :=
    if hwV4 then hash ^^^ publicIp.setWidth 16 ^^^ (publicIp >>> 16).setWidth 16 else hash
  limitHash hash.toNat size

/-- `src_hash`. -/
def srcHash (privIp : BitVec 32) (privPort : BitVec 16) (trgtIp : BitVec 32)
    (trgtPort : BitVec 16) (proto : BitVec 8) (size : Nat) : Nat :=
  let hash : BitVec 16 := privIp.setWidth 16 ^^^ (privIp >>> 16).setWidth 16 ^^^ privPort
    ^^^ trgtIp.setWidth 16 ^^^ (trgtIp >>> 16).setWidth 16 ^^^ trgtPort ^^^ proto.setWidth 16
  limitHash hash.toNat size

theorem limitHash_bounds (hash : Nat) {size : Nat} (positive : 0 < size) :
    0 < limitHash hash size ∧ limitHash hash size ≤ size := by
  unfold limitHash
  split
  · exact ⟨positive, Nat.le_refl _⟩
  · rename_i nonzero
    exact ⟨Nat.pos_of_ne_zero nonzero, Nat.and_le_right⟩

theorem dstHash_bounds (hwV4 : Bool) (publicIp trgtIp : BitVec 32)
    (trgtPort publicPort : BitVec 16) (proto : BitVec 8) {size : Nat} (positive : 0 < size) :
    0 < dstHash hwV4 publicIp trgtIp trgtPort publicPort proto size ∧
      dstHash hwV4 publicIp trgtIp trgtPort publicPort proto size ≤ size :=
  limitHash_bounds _ positive

theorem srcHash_bounds (privIp : BitVec 32) (privPort : BitVec 16) (trgtIp : BitVec 32)
    (trgtPort : BitVec 16) (proto : BitVec 8) {size : Nat} (positive : 0 < size) :
    0 < srcHash privIp privPort trgtIp trgtPort proto size ∧
      srcHash privIp privPort trgtIp trgtPort proto size ≤ size :=
  limitHash_bounds _ positive

/-! ## The fields that the DMA commands change -/

theorem dmaWrite_flags (entry : IpaNatRule) (data : Nat) :
    entry.dmaWrite ipaNatRuleFlagFieldOffset data =
      { entry with
        ucActivationIndex := BitVec.ofNat 13 data
        s := data.testBit 13
        redirect := data.testBit 14
        enable := data.testBit 15 } := rfl

/-- The flags word of an inserted rule, once written, restores the activation
index and `s`, sets `enable` and clears `redirect`. -/
theorem dmaWrite_headInsertDmaData (entry : IpaNatRule) :
    entry.dmaWrite ipaNatRuleFlagFieldOffset (headInsertDmaData entry) =
      { entry with redirect := false, enable := true } := by
  have bound := entry.ucActivationIndex.isLt
  have bits : ∀ k, 13 ≤ k → (headInsertDmaData entry).testBit k =
      (entry.s.toNat + 4).testBit (k - 13) := by
    intro k above
    have split : headInsertDmaData entry =
        2 ^ 13 * (entry.s.toNat + 4) + entry.ucActivationIndex.toNat := by
      unfold headInsertDmaData ipaNatFlags
      simp only [Bool.toNat_false, Bool.toNat_true]
      omega
    rw [split, Nat.testBit_two_pow_mul_add _ bound, if_neg (by omega)]
  have low : BitVec.ofNat 13 (headInsertDmaData entry) = entry.ucActivationIndex := by
    apply BitVec.eq_of_toNat_eq
    rw [BitVec.toNat_ofNat]
    unfold headInsertDmaData ipaNatFlags
    omega
  rw [dmaWrite_flags, low, bits 13 (by omega), bits 14 (by omega), bits 15 (by omega)]
  cases entry.s <;> rfl

end Sm8650.IpaNat
