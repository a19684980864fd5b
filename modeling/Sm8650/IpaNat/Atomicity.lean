import Sm8650.IpaNat.Chain

/-!
# What a failing call leaves behind

A call that returns an error should leave both tables as they were. An addition
undoes what it stored. A deletion gives the rule of the second index record its
new slot before the ioctl, and does not take that back when the ioctl fails.
-/

namespace Sm8650.IpaNat

open Chains Transition Function

section Generic

variable {ρ υ : Type} [EntryInterface ρ υ]

/-- The records in use, their contents, their links and both counters are the
same. -/
structure IpaTable.Kept (before after : IpaTable ρ) : Prop where
  used : ∀ i, after.links.used i = before.links.used i
  records : ∀ i, before.links.used i = true → after.records i = before.records i
  prev : ∀ i, before.links.used i = true → after.links.prev i = before.links.prev i
  baseCount : after.curTblCnt = before.curTblCnt
  expnCount : after.curExpnTblCnt = before.curExpnTblCnt

theorem IpaTable.Kept.refl (table : IpaTable ρ) : table.Kept table :=
  ⟨fun _ => rfl, fun _ _ => rfl, fun _ _ => rfl, rfl, rfl⟩

/-- Clearing a free slot is not noticed. -/
theorem Discarded.kept [LawfulEntryInterface ρ] {table changed : IpaTable ρ}
    (discarded : Discarded table changed) : table.Kept changed := by
  constructor
  · exact discarded.used_eq
  · intro i used
    exact discarded.records_eq used
  · intro i used
    have sameRecord := discarded.records_eq used
    cases discarded with
    | same => rfl
    | @cleared slot expnMeta free metaElsewhere =>
      have different : i ≠ slot := by
        rintro rfl
        rw [free] at used
        cases used
      simp only [IpaTable.links] at sameRecord ⊢
      rw [sameRecord]
      exact metaElsewhere _ i (Or.inl different)
  · cases discarded <;> rfl
  · cases discarded <;> rfl

end Generic

/-- Both tables are as they were. -/
structure Unchanged (before after : IpaNatIp4TableCache) : Prop where
  table : before.table.Kept after.table
  indexTable : before.indexTable.Kept after.indexTable

theorem Unchanged.refl (natTable : IpaNatIp4TableCache) : Unchanged natTable natTable :=
  ⟨.refl _, .refl _⟩

theorem Refused.unchanged {natTable changed : IpaNatIp4TableCache}
    (refused : Refused natTable changed) : Unchanged natTable changed :=
  ⟨refused.table.kept, refused.indexTable.kept⟩

/-- The slot of the rule that the second record of an index list belongs to. -/
def secondOwner (natTable : IpaNatIp4TableCache) (indexSlot : Nat) : Nat :=
  (natTable.indexTable.records (natTable.indexTable.links.next indexSlot)).tblEntry

/-- The index record heads a list, and the rule of the second record is in use and
not yet known under the slot of the head. -/
structure Redirects (natTable : IpaNatIp4TableCache) (indexSlot : Nat) : Prop where
  atBase : indexSlot < natTable.indexTable.size.tableEntries
  continues : natTable.indexTable.links.next indexSlot ≠ 0
  used : natTable.table.links.used (secondOwner natTable indexSlot) = true
  elsewhere : (natTable.table.records (secondOwner natTable indexSlot)).indxTblEntry ≠ indexSlot

theorem storeIndex_self {entry : IpaNatRule} {indexSlot : Nat}
    (known : entry.indxTblEntry = indexSlot) :
    { entry with indxTblEntry := indexSlot } = entry := by
  rw [← known]

/-- The store ahead of the commands changes nothing but the back pointer of that
one rule. -/
theorem kept_redirectSecond_iff (natTable : IpaNatIp4TableCache) (indexSlot : Nat) :
    natTable.table.Kept (redirectSecond natTable indexSlot) ↔ ¬ Redirects natTable indexSlot := by
  have sameLinks := links_redirectSecond natTable indexSlot
  constructor
  · intro kept redirects
    have sameRecord := kept.records _ redirects.used
    unfold redirectSecond at sameRecord
    rw [if_pos ⟨redirects.atBase, redirects.continues⟩] at sameRecord
    have redirected : (natTable.table.records (secondOwner natTable indexSlot)).indxTblEntry =
        indexSlot := by
      rw [← sameRecord]
      simp [secondOwner]
    exact redirects.elsewhere redirected
  · intro stays
    refine ⟨fun i => by rw [sameLinks], ?_, fun i _ => by rw [sameLinks], ?_, ?_⟩
    · intro i used
      unfold redirectSecond
      by_cases headed : indexSlot < natTable.indexTable.size.tableEntries ∧
          natTable.indexTable.links.next indexSlot ≠ 0
      · rw [if_pos headed]
        by_cases owner : i = secondOwner natTable indexSlot
        · subst owner
          have known : (natTable.table.records (secondOwner natTable indexSlot)).indxTblEntry =
              indexSlot := by
            by_contra elsewhere
            exact stays ⟨headed.1, headed.2, used, elsewhere⟩
          show update _ (secondOwner natTable indexSlot) _ _ = _
          rw [update_self]
          exact storeIndex_self known
        · exact update_of_ne owner _ _
      · rw [if_neg headed]
    · unfold redirectSecond
      split <;> rfl
    · unfold redirectSecond
      split <;> rfl

/-! ## Calls -/

/-- The call returns an error. -/
def Fails (platform : Platform) (state : NatState) : NatCall → Prop
  | .add clntRule dmaOk => ∃ errno,
      (ipaNATIAddIpv4Rule platform dmaOk state.hashToken state.natTable clntRule).ret = .error errno
  | .del ruleHdl dmaOk => ∃ errno,
      (ipaNATIDelIpv4Rule dmaOk state.natTable ruleHdl).1 = .error errno

/-- The ioctl of a deletion fails after a rule was given its new index slot. -/
def LeavesRedirect (natTable : IpaNatIp4TableCache) : NatCall → Prop
  | .add _ _ => False
  | .del ruleHdl dmaOk =>
    dmaOk = false ∧ Deletable natTable ruleHdl ∧
      Redirects natTable (natTable.table.records (breakRuleHdl natTable.table ruleHdl)).indxTblEntry

theorem kept_addIpv4Rule (platform : Platform) (state : NatState)
    (chained : Chained state.natTable) (clntRule : IpaNatIpv4Rule) (dmaOk : Bool)
    (fails : Fails platform state (.add clntRule dmaOk)) :
    Unchanged state.natTable (natCall platform state (.add clntRule dmaOk)).natTable := by
  obtain ⟨errno, failed⟩ := fails
  rcases addIpv4Rule_cases platform dmaOk state.hashToken chained clntRule with
    ⟨_, slot, indexSlot, succeeded, _⟩ | ⟨_, _, refused⟩
  · rw [succeeded] at failed
    cases failed
  · exact refused.unchanged

theorem kept_delIpv4Rule_iff (platform : Platform) (state : NatState)
    (chained : Chained state.natTable) (ruleHdl : Nat) (dmaOk : Bool) :
    (Fails platform state (.del ruleHdl dmaOk) →
        Unchanged state.natTable (natCall platform state (.del ruleHdl dmaOk)).natTable) ↔
      ¬ LeavesRedirect state.natTable (.del ruleHdl dmaOk) := by
  rcases delIpv4Rule_cases dmaOk chained ruleHdl with
    ⟨_, posted, succeeded, _⟩ | ⟨deletable, refusedByDma, failed, stored⟩ | ⟨notDeletable, _, same⟩
  · constructor
    · intro _ leaves
      rw [posted] at leaves
      cases leaves.1
    · rintro _ ⟨errno, failed⟩
      rw [succeeded] at failed
      cases failed
  · have changed : Unchanged state.natTable
        (natCall platform state (.del ruleHdl dmaOk)).natTable ↔
          ¬ Redirects state.natTable (state.natTable.table.records
            (breakRuleHdl state.natTable.table ruleHdl)).indxTblEntry := by
      simp only [natCall, stored]
      rw [← kept_redirectSecond_iff]
      constructor
      · exact fun unchanged => unchanged.table
      · exact fun kept => ⟨kept, .refl _⟩
    constructor
    · intro unchanged leaves
      exact changed.mp (unchanged ⟨_, failed⟩) leaves.2.2
    · intro stays _
      exact changed.mpr fun redirects => stays ⟨refusedByDma, deletable, redirects⟩
  · constructor
    · intro _ leaves
      exact notDeletable leaves.2.1
    · intro _ _
      simp only [natCall, same]
      exact .refl _

/-- In every state that calls reach from cleared tables, whatever their ioctls did,
a call that returns an error leaves both tables as they were, unless it is a
deletion whose ioctl fails after a rule was given its new index slot. -/
theorem unchanged_of_error_iff {platform : Platform} {nmi : NatMemIn} {size : TableSize}
    {hashToken : Nat} {state : NatState}
    (reached : Reaches (natStep platform) (NatState.create nmi size hashToken) state)
    (call : NatCall) :
    (Fails platform state call → Unchanged state.natTable (natCall platform state call).natTable) ↔
      ¬ LeavesRedirect state.natTable call := by
  have chained := chained_of_reaches reached (chained_create nmi size)
  cases call with
  | add clntRule dmaOk =>
    constructor
    · exact fun _ leaves => leaves
    · exact fun _ => kept_addIpv4Rule platform state chained clntRule dmaOk
  | del ruleHdl dmaOk => exact kept_delIpv4Rule_iff platform state chained ruleHdl dmaOk

/-- Two rules whose index records are on one list. -/
def sharedIndexCalls : List NatCall := [.add (sampleRule 1) true, .add (sampleRule 2) true]

/-- The tables that hold both rules. -/
def sharedIndex : NatState :=
  sharedIndexCalls.foldl (natCall samplePlatform) (NatState.create .ddr smallSize 69)

theorem reaches_sharedIndex :
    Reaches (natStep samplePlatform) (NatState.create .ddr smallSize 69) sharedIndex :=
  reaches_calls samplePlatform sharedIndexCalls _

/-- The rule behind the other one can fail to be deleted and leave no trace. -/
theorem unchanged_of_error_behind :
    Fails samplePlatform sharedIndex (.del 1 false) ∧
      Unchanged sharedIndex.natTable
        (natCall samplePlatform sharedIndex (.del 1 false)).natTable := by
  have fails : Fails samplePlatform sharedIndex (.del 1 false) := ⟨.eio, by decide +kernel⟩
  have stays : ¬ LeavesRedirect sharedIndex.natTable (.del 1 false) := by
    rintro ⟨_, _, redirects⟩
    exact absurd redirects.atBase (by decide +kernel)
  exact ⟨fails, (unchanged_of_error_iff reaches_sharedIndex _).mpr stays fails⟩

/-- The other rule's back pointer names the head of the index list although its
deletion failed. -/
theorem changed_despite_error :
    ∃ state : NatState, ∃ ruleHdl : Nat,
      Reaches (natStep samplePlatform) (NatState.create .ddr smallSize 69) state ∧
        (ipaNATIDelIpv4Rule false state.natTable ruleHdl).1 = .error .eio ∧
        (state.natTable.table.records 2).enable = true ∧
        (state.natTable.table.records 2).indxTblEntry = 2 ∧
        ((ipaNATIDelIpv4Rule false state.natTable ruleHdl).2.table.records 2).indxTblEntry = 1 ∧
        ¬ Unchanged state.natTable (ipaNATIDelIpv4Rule false state.natTable ruleHdl).2 := by
  refine ⟨sharedIndex, 2, reaches_sharedIndex, by decide +kernel, by decide +kernel,
    by decide +kernel, by decide +kernel, ?_⟩
  intro unchanged
  have sameRecord := unchanged.table.records 2 (by decide +kernel)
  have sameIndex := congrArg IpaNatRule.indxTblEntry sameRecord
  exact absurd sameIndex (by decide +kernel)

end Sm8650.IpaNat
