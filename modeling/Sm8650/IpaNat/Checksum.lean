import Sm8650.Data.OnesComplement
import Sm8650.IpaNat.Record

/-!
# Checksum differences

What `ipa_nati_calc_ip_cksum` and `ipa_nati_calc_tcp_udp_cksum` are for: added to the
checksum of a packet with the private address and port, they give the one of the packet with
the public address and port.
-/

namespace Sm8650.IpaNat

open Data Data.OnesComplement List OnesComplement

/-! ## The additions of the code -/

/-- The additions of either function, each with its fold. -/
def cksumFrom (cksum : BitVec 32) (addends : List (BitVec 32)) : BitVec 32 :=
  addends.foldl (fun cksum addend => foldCarry (cksum + addend)) cksum

/-- What `ipa_nati_calc_ip_cksum` adds to the low half of the public address. -/
def ipCksumAddends (pubIpAddr privIpAddr : BitVec 32) : List (BitVec 32) :=
  [pubIpAddr >>> 16, ~~~privIpAddr &&& 0xFFFF, ~~~privIpAddr >>> 16]

/-- What `ipa_nati_calc_tcp_udp_cksum` adds to the low half of the public address. -/
def tcpUdpCksumAddends (pubIpAddr : BitVec 32) (pubPort : BitVec 16) (privIpAddr : BitVec 32)
    (privPort : BitVec 16) : List (BitVec 32) :=
  [pubIpAddr >>> 16, pubPort.setWidth 32, ~~~privIpAddr &&& 0xFFFF, ~~~privIpAddr >>> 16,
    (~~~privPort).setWidth 32]

variable (pubIpAddr privIpAddr : BitVec 32)

theorem ipaNatiCalcIpCksum_eq :
    ipaNatiCalcIpCksum pubIpAddr privIpAddr =
      (cksumFrom (pubIpAddr &&& 0xFFFF) (ipCksumAddends pubIpAddr privIpAddr)).setWidth 16 :=
  rfl

theorem ipaNatiCalcTcpUdpCksum_eq (pubIpAddr : BitVec 32) (pubPort : BitVec 16)
    (privIpAddr : BitVec 32) (privPort : BitVec 16) :
    ipaNatiCalcTcpUdpCksum pubIpAddr pubPort privIpAddr privPort =
      (cksumFrom (pubIpAddr &&& 0xFFFF)
        (tcpUdpCksumAddends pubIpAddr pubPort privIpAddr privPort)).setWidth 16 :=
  rfl

/-- Every addition stays within 17 bits, and the one fold behind it leaves 16. -/
def FoldsOnce (cksum : BitVec 32) (addends : List (BitVec 32)) : Prop :=
  ∀ done addend rest, addends = done ++ addend :: rest →
    (cksumFrom cksum done).toNat + addend.toNat < 2 ^ 17 ∧
      (foldCarry (cksumFrom cksum done + addend)).toNat ≤ 0xFFFF

/-- On two words the code's fold is the one of the sums. -/
theorem foldCarry_add {a b : BitVec 32} (left : a.toNat < 2 ^ 16) (right : b.toNat < 2 ^ 16) :
    (foldCarry (a + b)).toNat = add 16 a.toNat b.toNat := by
  have sum : (a + b).toNat = a.toNat + b.toNat := by
    rw [BitVec.toNat_add, Nat.mod_eq_of_lt (by omega)]
  have high : (a + b) >>> 16 = 0 ↔ (a + b).toNat < 2 ^ 16 := by
    rw [← BitVec.toNat_inj, BitVec.toNat_ushiftRight, Nat.shiftRight_eq_div_pow]
    exact Nat.div_eq_zero_iff_lt (by decide)
  unfold foldCarry add fold
  rw [← sum]
  by_cases carry : 2 ^ 16 ≤ (a + b).toNat
  · have low : ((a + b) &&& 0xFFFF).toNat = (a + b).toNat - 2 ^ 16 := by
      refine (Nat.and_two_pow_sub_one_eq_mod _ 16).trans ?_
      omega
    rw [if_pos (mt high.mp (Nat.not_lt.mpr carry)), if_pos carry, BitVec.toNat_add, low]
    exact Nat.mod_eq_of_lt (by simp; omega)
  · rw [if_neg (not_not_intro (high.mpr (Nat.lt_of_not_le carry))), if_neg carry]

variable {cksum : BitVec 32} {addends : List (BitVec 32)}

/-- The additions of the code are one's-complement sums. -/
theorem cksumFrom_toNat (start : cksum.toNat < 2 ^ 16)
    (small : ∀ addend ∈ addends, addend.toNat < 2 ^ 16) :
    (cksumFrom cksum addends).toNat = sumFrom 16 cksum.toNat (addends.map BitVec.toNat) := by
  induction addends generalizing cksum with
  | nil => rfl
  | cons addend addends ih =>
    obtain ⟨head, rest⟩ := forall_mem_cons.mp small
    have step := foldCarry_add start head
    have next : (foldCarry (cksum + addend)).toNat < 2 ^ 16 := step ▸ add_lt start head
    unfold cksumFrom sumFrom at ih ⊢
    rw [foldl_cons, ih next rest, map_cons, foldl_cons, step]

theorem foldsOnce (start : cksum.toNat < 2 ^ 16) (small : ∀ addend ∈ addends, addend.toNat < 2 ^ 16)
    : FoldsOnce cksum addends := by
  rintro done addend rest rfl
  have before : ∀ word ∈ done, word.toNat < 2 ^ 16 := fun word listed =>
    small word (mem_append_left _ listed)
  have here : addend.toNat < 2 ^ 16 :=
    small addend (mem_append_right _ (mem_cons_self ..))
  have partialSum : (cksumFrom cksum done).toNat < 2 ^ 16 := by
    rw [cksumFrom_toNat start before]
    refine sumFrom_lt start fun word listed => ?_
    obtain ⟨addend, inside, rfl⟩ := mem_map.mp listed
    exact before addend inside
  refine ⟨by omega, ?_⟩
  rw [foldCarry_add partialSum here]
  exact Nat.le_of_lt_succ (add_lt partialSum here)

/-! ## Headers -/

/-- The halves of an address as header words. -/
def addressWords (address : BitVec 32) : List Nat :=
  [(address &&& 0xFFFF).toNat, (address >>> 16).toNat]

/-- The one's-complement sum of header words. -/
def headerSum (words : List Nat) : Nat := sumFrom 16 0 words

section

variable (address : BitVec 32)

include address

theorem low_toNat : (address &&& 0xFFFF).toNat = address.toNat % 2 ^ 16 := by
  exact Nat.and_two_pow_sub_one_eq_mod _ 16

theorem high_toNat : (address >>> 16).toNat = address.toNat / 2 ^ 16 := by
  rw [BitVec.toNat_ushiftRight, Nat.shiftRight_eq_div_pow]

theorem low_lt : (address &&& 0xFFFF).toNat < 2 ^ 16 := by
  rw [low_toNat]
  exact Nat.mod_lt _ (by decide)

theorem high_lt : (address >>> 16).toNat < 2 ^ 16 := by
  rw [high_toNat]
  exact Nat.div_lt_of_lt_mul address.isLt

theorem low_not : (~~~address &&& 0xFFFF).toNat = 2 ^ 16 - 1 - (address &&& 0xFFFF).toNat := by
  rw [low_toNat, low_toNat, BitVec.toNat_not]
  omega

theorem high_not : (~~~address >>> 16).toNat = 2 ^ 16 - 1 - (address >>> 16).toNat := by
  rw [high_toNat, high_toNat, BitVec.toNat_not]
  omega

end

theorem port_toNat (port : BitVec 16) : (port.setWidth 32).toNat = port.toNat :=
  BitVec.toNat_setWidth_of_le (by decide)

theorem ipCksumAddends_lt :
    ∀ addend ∈ ipCksumAddends pubIpAddr privIpAddr, addend.toNat < 2 ^ 16 := by
  unfold ipCksumAddends
  simp only [forall_mem_cons, not_mem_nil, false_imp_iff, implies_true, and_true]
  exact ⟨high_lt _, low_lt _, high_lt _⟩

theorem tcpUdpCksumAddends_lt (pubIpAddr : BitVec 32) (pubPort : BitVec 16)
    (privIpAddr : BitVec 32) (privPort : BitVec 16) :
    ∀ addend ∈ tcpUdpCksumAddends pubIpAddr pubPort privIpAddr privPort, addend.toNat < 2 ^ 16 := by
  have port : ∀ port : BitVec 16, (port.setWidth 32).toNat < 2 ^ 16 := fun port =>
    (port_toNat port).symm ▸ port.isLt
  unfold tcpUdpCksumAddends
  simp only [forall_mem_cons, not_mem_nil, false_imp_iff, implies_true, and_true]
  exact ⟨high_lt _, port _, low_lt _, high_lt _, port _⟩

/-- What the functions return, as a one's-complement sum. -/
theorem cksum_toNat (start : cksum.toNat < 2 ^ 16)
    (small : ∀ addend ∈ addends, addend.toNat < 2 ^ 16) :
    ((cksumFrom cksum addends).setWidth 16).toNat ≡
      cksum.toNat + (addends.map BitVec.toNat).sum [MOD 2 ^ 16 - 1] := by
  have bound : (cksumFrom cksum addends).toNat < 2 ^ 16 := by
    rw [cksumFrom_toNat start small]
    refine sumFrom_lt start fun word listed => ?_
    obtain ⟨addend, inside, rfl⟩ := mem_map.mp listed
    exact small addend inside
  rw [BitVec.toNat_setWidth, Nat.mod_eq_of_lt bound, cksumFrom_toNat start small]
  exact sumFrom_modEq 16 _ _

/-! ## The differences -/

/-- Adding a difference to the sum of some words gives the sum with other words in their
place, when the difference is the other words plus the complements of the ones. -/
theorem headerSum_replace {others old new : List Nat} {diff : Nat} (complements : Nat)
    (complement : complements + old.sum ≡ 0 [MOD 2 ^ 16 - 1])
    (difference : diff ≡ new.sum + complements [MOD 2 ^ 16 - 1]) :
    add 16 (headerSum (others ++ old)) diff ≡
      headerSum (others ++ new) [MOD 2 ^ 16 - 1] := by
  have before : headerSum (others ++ old) ≡ others.sum + old.sum [MOD 2 ^ 16 - 1] := by
    have sum := sumFrom_modEq 16 0 (others ++ old)
    rwa [Nat.zero_add, sum_append] at sum
  have after : headerSum (others ++ new) ≡ others.sum + new.sum [MOD 2 ^ 16 - 1] := by
    have sum := sumFrom_modEq 16 0 (others ++ new)
    rwa [Nat.zero_add, sum_append] at sum
  calc add 16 (headerSum (others ++ old)) diff
      ≡ headerSum (others ++ old) + diff [MOD 2 ^ 16 - 1] := add_modEq 16 _ _
    _ ≡ others.sum + old.sum + (new.sum + complements) [MOD 2 ^ 16 - 1] :=
        before.add difference
    _ = others.sum + new.sum + (complements + old.sum) := by omega
    _ ≡ others.sum + new.sum + 0 [MOD 2 ^ 16 - 1] := complement.add_left _
    _ ≡ headerSum (others ++ new) [MOD 2 ^ 16 - 1] := after.symm

/-- The differences of both functions turn the sum of a header with the private address and
port into the one with the public address and port, whatever its other words are; and no
addition on the way needs a second fold. -/
theorem cksum_differences (pubPort privPort : BitVec 16) :
    (∀ others : List Nat,
      add 16 (headerSum (others ++ (addressWords privIpAddr ++ [privPort.toNat])))
          (ipaNatiCalcTcpUdpCksum pubIpAddr pubPort privIpAddr privPort).toNat ≡
        headerSum (others ++ (addressWords pubIpAddr ++ [pubPort.toNat])) [MOD 65535]) ∧
    (∀ others : List Nat,
      add 16 (headerSum (others ++ addressWords privIpAddr))
          (ipaNatiCalcIpCksum pubIpAddr privIpAddr).toNat ≡
        headerSum (others ++ addressWords pubIpAddr) [MOD 65535]) ∧
    (ipaNatiCalcTcpUdpCksum pubIpAddr pubPort privIpAddr privPort =
        (cksumFrom (pubIpAddr &&& 0xFFFF)
          (tcpUdpCksumAddends pubIpAddr pubPort privIpAddr privPort)).setWidth 16 ∧
      FoldsOnce (pubIpAddr &&& 0xFFFF) (tcpUdpCksumAddends pubIpAddr pubPort privIpAddr privPort)) ∧
    (ipaNatiCalcIpCksum pubIpAddr privIpAddr =
        (cksumFrom (pubIpAddr &&& 0xFFFF) (ipCksumAddends pubIpAddr privIpAddr)).setWidth 16 ∧
      FoldsOnce (pubIpAddr &&& 0xFFFF) (ipCksumAddends pubIpAddr privIpAddr)) := by
  have lowPriv := low_lt privIpAddr
  have highPriv := high_lt privIpAddr
  have notLow := low_not privIpAddr
  have notHigh := high_not privIpAddr
  have notPort : (~~~privPort).toNat = 2 ^ 16 - 1 - privPort.toNat := BitVec.toNat_not
  refine ⟨fun others => ?_, fun others => ?_,
    ⟨ipaNatiCalcTcpUdpCksum_eq _ _ _ _,
      foldsOnce (low_lt _) (tcpUdpCksumAddends_lt pubIpAddr pubPort privIpAddr privPort)⟩,
    ⟨ipaNatiCalcIpCksum_eq _ _, foldsOnce (low_lt _) (ipCksumAddends_lt pubIpAddr privIpAddr)⟩⟩
  · have difference := cksum_toNat (low_lt pubIpAddr)
      (tcpUdpCksumAddends_lt pubIpAddr pubPort privIpAddr privPort)
    refine headerSum_replace ((~~~privIpAddr &&& 0xFFFF).toNat +
      (~~~privIpAddr >>> 16).toNat + (~~~privPort).toNat) ?_ (difference.trans ?_)
    · refine Nat.modEq_zero_iff_dvd.mpr ⟨3, ?_⟩
      unfold addressWords
      simp only [cons_append, nil_append, sum_cons, sum_nil]
      omega
    · unfold tcpUdpCksumAddends addressWords
      simp only [cons_append, nil_append, map_cons, map_nil, sum_cons, port_toNat]
      refine congrArg (· % (2 ^ 16 - 1)) ?_
      omega
  · have difference := cksum_toNat (low_lt pubIpAddr) (ipCksumAddends_lt pubIpAddr privIpAddr)
    refine headerSum_replace ((~~~privIpAddr &&& 0xFFFF).toNat + (~~~privIpAddr >>> 16).toNat)
      ?_ (difference.trans ?_)
    · refine Nat.modEq_zero_iff_dvd.mpr ⟨2, ?_⟩
      unfold addressWords
      simp only [sum_cons, sum_nil]
      omega
    · unfold ipCksumAddends addressWords
      simp only [map_cons, map_nil, sum_cons]
      refine congrArg (· % (2 ^ 16 - 1)) ?_
      omega

end Sm8650.IpaNat
