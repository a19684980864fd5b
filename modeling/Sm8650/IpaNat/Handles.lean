import Sm8650.IpaNat.Table

/-!
# The handles of the records

A handle has 12 bits for an index, counted from the start of the base or of the expansion part.
The functions work on the numbers of entries as they stand in the table, whatever set them.

Source: `ipa_table.c`, `ipa_table.h`.
-/

namespace Sm8650.IpaNat

/-- `MakeEntryHdl` -/
def entryHdl (tableEntries : Nat) (nmi : NatMemIn) (tblEntry : Nat) : Nat :=
  (if tableEntries ≤ tblEntry then (tblEntry - tableEntries) <<< 1 % 2 ^ 16 ||| 1
    else tblEntry <<< 1 % 2 ^ 16) ||| nmi.toNat <<< 15

/-- The index that `BREAK_RULE_HDL` finds. -/
def hdlIndex (tableEntries hdl : Nat) : Nat :=
  (hdl >>> 1 % 2 ^ 12 + if hdl % 2 = 1 then tableEntries else 0) % 2 ^ 16

/-- The memory type that `BREAK_RULE_HDL` finds. -/
def hdlMemType (hdl : Nat) : NatMemIn := if hdl >>> 15 % 2 = 1 then .sram else .ddr

/-- `ipa_table_get_entry`: the memory type and the index of the record. -/
def getEntry (tableEntries totTblEnts hdl : Nat) : Except Errno (NatMemIn × Nat) :=
  if hdlIndex tableEntries hdl < totTblEnts then .ok (hdlMemType hdl, hdlIndex tableEntries hdl)
  else .error .einval

/-- Every record other than the first has a handle of 16 bits that leads back to it, and no two
records or memory types share one. -/
def HdlsRoundTrip (tableEntries expnTableEntries : Nat) : Prop :=
  ∀ (nmi : NatMemIn) (i : Nat), 1 ≤ i → i < tableEntries + expnTableEntries →
    getEntry tableEntries (tableEntries + expnTableEntries) (entryHdl tableEntries nmi i) =
        .ok (nmi, i) ∧
      entryHdl tableEntries nmi i ≠ 0 ∧ entryHdl tableEntries nmi i < 2 ^ 16 ∧
      ∀ other j, 1 ≤ j → j < tableEntries + expnTableEntries → nmi ≠ other ∨ i ≠ j →
        entryHdl tableEntries nmi i ≠ entryHdl tableEntries other j

variable {tableEntries expnTableEntries : Nat}

/-- The three parts of a handle do not meet. -/
theorem entryHdl_eq {i : Nat} (nmi : NatMemIn) (base : tableEntries ≤ 4096)
    (expn : expnTableEntries ≤ 4096) (inTable : i < tableEntries + expnTableEntries) :
    entryHdl tableEntries nmi i = 2 ^ 15 * nmi.toNat +
      if tableEntries ≤ i then 2 * (i - tableEntries) + 1 else 2 * i := by
  unfold entryHdl
  rw [Nat.or_comm, Nat.shiftLeft_eq, Nat.mul_comm]
  split
  case isTrue =>
    have odd := Nat.two_pow_add_eq_or_of_lt (show 1 < 2 ^ 1 by decide) (i - tableEntries)
    rw [Nat.shiftLeft_eq, Nat.mod_eq_of_lt (by omega), Nat.mul_comm (i - tableEntries), ← odd,
      ← Nat.two_pow_add_eq_or_of_lt (by omega)]
  case isFalse =>
    rw [Nat.shiftLeft_eq, Nat.mod_eq_of_lt (by omega), ← Nat.two_pow_add_eq_or_of_lt (by omega),
      Nat.mul_comm i]

theorem getEntry_entryHdl {i : Nat} (nmi : NatMemIn) (base : tableEntries ≤ 4096)
    (expn : expnTableEntries ≤ 4096) (inTable : i < tableEntries + expnTableEntries) :
    getEntry tableEntries (tableEntries + expnTableEntries) (entryHdl tableEntries nmi i) =
      .ok (nmi, i) := by
  have index : hdlIndex tableEntries (entryHdl tableEntries nmi i) = i := by
    rw [entryHdl_eq nmi base expn inTable]
    unfold hdlIndex
    cases nmi <;> simp only [NatMemIn.toNat] <;> split <;> split <;> omega
  have memType : hdlMemType (entryHdl tableEntries nmi i) = nmi := by
    rw [entryHdl_eq nmi base expn inTable]
    unfold hdlMemType
    cases nmi <;> simp only [NatMemIn.toNat] <;> split <;> split <;> first | rfl | omega
  rw [getEntry, index, memType, if_pos inTable]

/-- Parts of at most 4096 entries each, as `ipa_table_calculate_entries_num` makes them, leave
room for the index. -/
theorem hdlsRoundTrip_of_le (base : tableEntries ≤ 4096) (expn : expnTableEntries ≤ 4096) :
    HdlsRoundTrip tableEntries expnTableEntries := by
  intro nmi i positive inTable
  have found := getEntry_entryHdl nmi base expn inTable
  refine ⟨found, ?_, ?_, fun other j _ alsoInTable different same => ?_⟩
  · rw [entryHdl_eq nmi base expn inTable]
    split <;> omega
  · rw [entryHdl_eq nmi base expn inTable]
    cases nmi <;> simp only [NatMemIn.toNat] <;> split <;> omega
  · rw [same, getEntry_entryHdl other base expn alsoInTable] at found
    cases found
    exact different.elim (· rfl) (· rfl)

/-- The handles of a table's records are these. -/
theorem makeEntryHdl_eq {ρ : Type} (table : IpaTable ρ) {i : Nat}
    (inTable : i < table.size.totTblEnts) :
    makeEntryHdl table i = entryHdl table.size.tableEntries table.nmi i := by
  rw [entryHdl_eq table.nmi table.size.baseLe table.size.expnLe inTable]
  unfold makeEntryHdl
  split <;> omega

theorem hdlsRoundTrip_sixteen : HdlsRoundTrip 16 8 := hdlsRoundTrip_of_le (by decide) (by decide)

theorem not_hdlsRoundTrip : ¬∀ k expnTableEntries : Nat, 1 ≤ k → k ≤ 12 →
    2 ^ k + expnTableEntries ≤ ipaTableMaxEntries → HdlsRoundTrip (2 ^ k) expnTableEntries := by
  intro roundTrip
  have last := (roundTrip 1 5118 (by decide) (by decide) (by decide) .ddr 5119 (by decide)
    (by decide)).1
  cases last

end Sm8650.IpaNat
