import Sm8650.IpaNat.Atomicity
import Sm8650.IpaNat.CrossRef

/-!
# Deleting with a dead handle

A handle is live from the addition that returns it to the deletion of its rule.
A deletion finds its record by decoding the handle, and tests no more than that
the record and the index record it names are in use. A dead head of a chain
passes the first test, and so does a live record under a handle that differs from
its own in the bits that the decoder drops.
-/

namespace Sm8650.IpaNat

open Chains Transition

/-! ## The live handles of a run -/

/-- The tables, with the handles of the rules that were added and not deleted. -/
structure HandleState where
  tables : NatState
  handles : List Nat

/-- Cleared tables, before any handle was returned. -/
def HandleState.create (nmi : NatMemIn) (size : TableSize) (hashToken : Nat) : HandleState where
  tables := NatState.create nmi size hashToken
  handles := []

/-- The live handles after a call. A deletion ends the rule that its handle leads
to, whichever handle that is. -/
def handlesAfter (platform : Platform) (state : HandleState) : NatCall → List Nat
  | .add clntRule dmaOk =>
    match (ipaNATIAddIpv4Rule platform dmaOk state.tables.hashToken state.tables.natTable
        clntRule).ret with
    | .ok ruleHdl => ruleHdl :: state.handles
    | .error _ => state.handles
  | .del ruleHdl dmaOk =>
    match (ipaNATIDelIpv4Rule dmaOk state.tables.natTable ruleHdl).1 with
    | .ok _ => state.handles.filter fun hdl =>
      breakRuleHdl state.tables.natTable.table hdl ≠
        breakRuleHdl state.tables.natTable.table ruleHdl
    | .error _ => state.handles

/-- A call, with the handles it returns and ends. -/
def handleCall (platform : Platform) (state : HandleState) (call : NatCall) : HandleState where
  tables := natCall platform state.tables call
  handles := handlesAfter platform state call

/-- Calls with any rule, any handle and any outcome of the ioctl. -/
def handleStep (platform : Platform) : LabelledStep HandleState NatCall :=
  guarded (fun _ _ => True) (handleCall platform)

theorem reaches_handleCalls (platform : Platform) (calls : List NatCall) (state : HandleState) :
    Reaches (handleStep platform) state (calls.foldl (handleCall platform) state) :=
  Reaches.foldl (Allowed.always _ state calls)

/-- The live handles are those of the live records. -/
structure HandlesLive (state : HandleState) : Prop where
  chained : Chained state.tables.natTable
  mapped : state.tables.natTable.memDescValid = true
  mem_iff : ∀ hdl, hdl ∈ state.handles ↔ ∃ slot, Live state.tables.natTable.table slot ∧
    hdl = makeEntryHdl state.tables.natTable.table slot

theorem handlesLive_create (nmi : NatMemIn) (size : TableSize) (hashToken : Nat) :
    HandlesLive (HandleState.create nmi size hashToken) := by
  refine ⟨chained_create nmi size, rfl, fun hdl => ?_⟩
  constructor
  · intro listed
    cases listed
  · rintro ⟨slot, ⟨enabled, _⟩, _⟩
    cases enabled

theorem makeEntryHdl_congr {table changed : IpaTable IpaNatRule}
    (sameSize : changed.size = table.size) (sameNmi : changed.nmi = table.nmi) (slot : Nat) :
    makeEntryHdl changed slot = makeEntryHdl table slot := by
  unfold makeEntryHdl
  rw [sameSize, sameNmi]

theorem Live.inTable {natTable : IpaNatIp4TableCache} (chained : Chained natTable) {slot : Nat}
    (live : Live natTable.table slot) : slot < natTable.table.size.totTblEnts := by
  obtain ⟨_, _, sound⟩ := chained.tableSound
  exact (sound.linked.inside slot live.1).2

/-- A change that keeps the live records and the shape of the handles keeps the
live handles. -/
theorem HandlesLive.of_live_iff {state after : HandleState} (handlesLive : HandlesLive state)
    (chained : Chained after.tables.natTable)
    (sameMapped : after.tables.natTable.memDescValid = state.tables.natTable.memDescValid)
    (sameSize : after.tables.natTable.table.size = state.tables.natTable.table.size)
    (sameNmi : after.tables.natTable.table.nmi = state.tables.natTable.table.nmi)
    (sameHandles : after.handles = state.handles)
    (sameLive : ∀ i, Live after.tables.natTable.table i ↔ Live state.tables.natTable.table i) :
    HandlesLive after := by
  refine ⟨chained, sameMapped.trans handlesLive.mapped, fun hdl => ?_⟩
  rw [sameHandles, handlesLive.mem_iff]
  simp only [sameLive, makeEntryHdl_congr sameSize sameNmi]

variable {platform : Platform} {state : HandleState}

theorem HandlesLive.add (handlesLive : HandlesLive state) (clntRule : IpaNatIpv4Rule) (dmaOk : Bool)
    : HandlesLive (handleCall platform state (.add clntRule dmaOk)) := by
  have chained := handlesLive.chained
  have chainedAfter := chained_natCall platform chained (.add clntRule dmaOk)
  obtain ⟨rank, head, sound⟩ := chained.tableSound
  rcases addIpv4Rule_cases platform dmaOk state.tables.hashToken chained clntRule with
    ⟨addable, slot, indexSlot, returned, added⟩ | ⟨_, ⟨errno, failed⟩, refused⟩
  · refine ⟨chainedAfter, added.mapped, fun hdl => ?_⟩
    simp only [handleCall, handlesAfter, returned, List.mem_cons, handlesLive.mem_iff, natCall,
      added.live_iff addable.accepted sound,
      makeEntryHdl_congr added.table.size_eq added.table.nmi_eq]
    constructor
    · rintro (rfl | ⟨i, live, rfl⟩)
      · exact ⟨slot, .inl rfl, rfl⟩
      · exact ⟨i, .inr live, rfl⟩
    · rintro ⟨i, rfl | live, rfl⟩
      · exact .inl rfl
      · exact .inr ⟨i, live, rfl⟩
  · refine handlesLive.of_live_iff chainedAfter refused.mapped refused.table.size_eq
      refused.table.nmi_eq ?_ ?_
    · simp only [handleCall, handlesAfter, failed]
    · exact refused.live_iff

theorem HandlesLive.del (handlesLive : HandlesLive state) (ruleHdl : Nat) (dmaOk : Bool) :
    HandlesLive (handleCall platform state (.del ruleHdl dmaOk)) := by
  have chained := handlesLive.chained
  have chainedAfter := chained_natCall platform chained (.del ruleHdl dmaOk)
  obtain ⟨rank, head, sound⟩ := chained.tableSound
  rcases delIpv4Rule_cases dmaOk chained ruleHdl with
    ⟨deletable, _, succeeded, deleted⟩ | ⟨_, _, failed, stored⟩ | ⟨_, ⟨errno, failed⟩, same⟩
  · have natDeleted := deleted.table
    generalize (state.tables.natTable.table.records
      (breakRuleHdl state.tables.natTable.table ruleHdl)).indxTblEntry = indexSlot at natDeleted
    have stillUsed := deletable.used
    rw [← links_redirectSecond state.tables.natTable indexSlot] at stillUsed
    have sameSize := natDeleted.size_eq.trans (size_redirectSecond _ _)
    have sameNmi := natDeleted.nmi_eq.trans (nmi_redirectSecond _ _)
    have liveAfter := natDeleted.live_iff (sound_redirectSecond sound indexSlot) stillUsed
    have decoded : ∀ i, Live state.tables.natTable.table i →
        breakRuleHdl state.tables.natTable.table (makeEntryHdl state.tables.natTable.table i) = i :=
      fun i live => breakRuleHdl_makeEntryHdl _ _ rfl (live.inTable chained)
    refine ⟨chainedAfter, deleted.mapped, fun hdl => ?_⟩
    simp only [handleCall, handlesAfter, succeeded, List.mem_filter, decide_eq_true_eq,
      handlesLive.mem_iff, natCall, liveAfter, live_redirectSecond,
      makeEntryHdl_congr sameSize sameNmi]
    constructor
    · rintro ⟨⟨i, live, rfl⟩, other⟩
      rw [decoded i live] at other
      exact ⟨i, ⟨live, other⟩, rfl⟩
    · rintro ⟨i, ⟨live, other⟩, rfl⟩
      refine ⟨⟨i, live, rfl⟩, ?_⟩
      rw [decoded i live]
      exact other
  · refine handlesLive.of_live_iff chainedAfter ?_ ?_ ?_ ?_ ?_
    all_goals simp only [handleCall, handlesAfter, natCall, failed, stored]
    · exact size_redirectSecond _ _
    · exact nmi_redirectSecond _ _
    · exact live_redirectSecond _ _
  · refine handlesLive.of_live_iff chainedAfter ?_ ?_ ?_ ?_ ?_
    all_goals simp only [handleCall, handlesAfter, natCall, failed, same, implies_true]

/-- In every state that calls reach, the live handles are those of the live
records. -/
theorem handlesLive_of_reaches {nmi : NatMemIn} {size : TableSize} {hashToken : Nat}
    (reached : Reaches (handleStep platform) (HandleState.create nmi size hashToken) state) :
    HandlesLive state := by
  refine reached.invariant (handlesLive_create nmi size hashToken) ?_
  rintro state call next handlesLive ⟨_, rfl⟩
  cases call with
  | add clntRule dmaOk => exact handlesLive.add clntRule dmaOk
  | del ruleHdl dmaOk => exact handlesLive.del ruleHdl dmaOk

/-- The handles in circulation and the live records correspond to each other one to one. -/
theorem bijOn_breakRuleHdl {nmi : NatMemIn} {size : TableSize} {hashToken : Nat}
    (reached : Reaches (handleStep platform) (HandleState.create nmi size hashToken) state) :
    Set.BijOn (breakRuleHdl state.tables.natTable.table) {hdl | hdl ∈ state.handles}
      {slot | Live state.tables.natTable.table slot} := by
  have handlesLive := handlesLive_of_reaches reached
  have decoded := fun slot live => @breakRuleHdl_makeEntryHdl _ _ _ rfl slot
    (@Live.inTable _ handlesLive.chained slot live)
  have listed := fun hdl => (handlesLive.mem_iff hdl).mp
  refine @Set.InvOn.bijOn _ _ _ _ _ (makeEntryHdl _) ⟨fun hdl among => ?_, decoded⟩
    (fun hdl among => ?_) fun slot live => (handlesLive.mem_iff _).mpr ⟨slot, live, rfl⟩
  all_goals obtain ⟨slot, live, rfl⟩ := listed hdl among
  · rw [decoded slot live]
  · exact (decoded slot live).symm ▸ live

/-! ## What a dead handle does -/

/-- The deletion returns an error and both tables are as they were. -/
def Rejected (dmaOk : Bool) (natTable : IpaNatIp4TableCache) (ruleHdl : Nat) : Prop :=
  (∃ errno, (ipaNATIDelIpv4Rule dmaOk natTable ruleHdl).1 = .error errno) ∧
    Unchanged natTable (ipaNATIDelIpv4Rule dmaOk natTable ruleHdl).2

/-- The handle leads to a record in use, live or dead, that names an index record
in use, and the ioctl succeeds or comes after a back pointer was stored. -/
structure Misleads (dmaOk : Bool) (natTable : IpaNatIp4TableCache) (ruleHdl : Nat) : Prop where
  used : natTable.table.links.used (breakRuleHdl natTable.table ruleHdl) = true
  indexUsed : natTable.indexTable.links.used
    (natTable.table.records (breakRuleHdl natTable.table ruleHdl)).indxTblEntry = true
  acts : dmaOk = true ∨ Redirects natTable
    (natTable.table.records (breakRuleHdl natTable.table ruleHdl)).indxTblEntry

theorem rejected_iff_not_misleads {natTable : IpaNatIp4TableCache} (chained : Chained natTable)
    (mapped : natTable.memDescValid = true) (dmaOk : Bool) (ruleHdl : Nat) :
    Rejected dmaOk natTable ruleHdl ↔ ¬ Misleads dmaOk natTable ruleHdl := by
  unfold Rejected
  rcases delIpv4Rule_cases dmaOk chained ruleHdl with
    ⟨deletable, posted, succeeded, _⟩ | ⟨deletable, refusedByDma, failed, stored⟩ |
      ⟨notDeletable, failed, same⟩
  · refine iff_of_false ?_ (not_not_intro ⟨deletable.used, deletable.indexUsed, .inl posted⟩)
    rintro ⟨⟨errno, failed⟩, _⟩
    rw [succeeded] at failed
    cases failed
  · rw [stored]
    constructor
    · rintro ⟨_, unchanged⟩ misleads
      rcases misleads.acts with posted | redirects
      · rw [refusedByDma] at posted
        cases posted
      · exact (kept_redirectSecond_iff _ _).mp unchanged.table redirects
    · intro leads
      have stays : natTable.table.Kept (redirectSecond natTable
          (natTable.table.records (breakRuleHdl natTable.table ruleHdl)).indxTblEntry) :=
        (kept_redirectSecond_iff _ _).mpr fun redirects =>
          leads ⟨deletable.used, deletable.indexUsed, .inr redirects⟩
      exact ⟨⟨_, failed⟩, stays, .refl _⟩
  · rw [same]
    refine iff_of_true ⟨failed, .refl natTable⟩ fun misleads => notDeletable ?_
    obtain ⟨_, _, sound⟩ := chained.tableSound
    exact ⟨mapped, (sound.linked.inside _ misleads.used).2, misleads.used, misleads.indexUsed⟩

/-- The handle leads to the record of a live rule with another handle, or to a dead head. -/
def LeadsAstray (state : HandleState) (ruleHdl : Nat) : Prop :=
  let slot := breakRuleHdl state.tables.natTable.table ruleHdl
  (∃ other ∈ state.handles, other ≠ ruleHdl ∧
      breakRuleHdl state.tables.natTable.table other = slot) ∨
    (IsDead (state.tables.natTable.table.records slot) ∧
      slot < state.tables.natTable.table.size.tableEntries)

/-- In every state that calls reach, only such a dead handle is accepted. -/
theorem leadsAstray_of_accepted {nmi : NatMemIn} {size : TableSize} {hashToken : Nat}
    (reached : Reaches (handleStep platform) (HandleState.create nmi size hashToken) state)
    {dmaOk : Bool} {ruleHdl : Nat} (dead : ruleHdl ∉ state.handles)
    (accepted : ¬Rejected dmaOk state.tables.natTable ruleHdl) : LeadsAstray state ruleHdl := by
  unfold LeadsAstray
  intro slot
  have handlesLive := handlesLive_of_reaches reached
  have misleads := not_not.mp
    (mt (rejected_iff_not_misleads handlesLive.chained handlesLive.mapped _ _).mpr accepted)
  by_cases isDead : IsDead (state.tables.natTable.table.records slot)
  · exact .inr ⟨isDead, handlesLive.chained.deadAtBase slot misleads.used isDead⟩
  · left
    have live : Live state.tables.natTable.table slot := ⟨misleads.used, isDead⟩
    have listed : makeEntryHdl state.tables.natTable.table slot ∈ state.handles :=
      (handlesLive.mem_iff _).mpr ⟨slot, live, rfl⟩
    refine ⟨_, listed, ?_, ?_⟩
    · rintro same
      rw [same] at listed
      exact dead listed
    · exact breakRuleHdl_makeEntryHdl _ _ rfl (live.inTable handlesLive.chained)

/-- In every state that calls reach from cleared tables, whatever their handles and
their ioctls, a deletion with a dead handle is rejected exactly when the handle
does not lead to a record in use whose index record is in use. -/
theorem rejected_of_dead_iff {platform : Platform} {nmi : NatMemIn} {size : TableSize}
    {hashToken : Nat} {state : HandleState}
    (reached : Reaches (handleStep platform) (HandleState.create nmi size hashToken) state)
    (dmaOk : Bool) (ruleHdl : Nat) :
    (ruleHdl ∉ state.handles → Rejected dmaOk state.tables.natTable ruleHdl) ↔
      ruleHdl ∈ state.handles ∨ ¬ Misleads dmaOk state.tables.natTable ruleHdl := by
  have handlesLive := handlesLive_of_reaches reached
  rw [rejected_iff_not_misleads handlesLive.chained handlesLive.mapped]
  constructor
  · intro rejected
    by_cases live : ruleHdl ∈ state.handles
    · exact .inl live
    · exact .inr (rejected live)
  · rintro (live | leads) dead
    · exact absurd live dead
    · exact leads

/-- The state after three rules on one chain were added and the first was deleted. -/
def deadHead : HandleState :=
  deadHeadCalls.foldl (handleCall samplePlatform) (HandleState.create .ddr smallSize 69)

theorem reaches_deadHead :
    Reaches (handleStep samplePlatform) (HandleState.create .ddr smallSize 69) deadHead :=
  reaches_handleCalls samplePlatform deadHeadCalls _

theorem bijOn_breakRuleHdl_deadHead : Set.BijOn (breakRuleHdl deadHead.tables.natTable.table)
    {hdl | hdl ∈ deadHead.handles} {slot | Live deadHead.tables.natTable.table slot} :=
  bijOn_breakRuleHdl reaches_deadHead

/-- Handles of empty records and of no record are rejected. -/
theorem rejected_of_dead_zero :
    deadHead.handles = [3, 1] ∧ Rejected true deadHead.tables.natTable 0 := by
  have dead : 0 ∉ deadHead.handles := by decide +kernel
  refine ⟨by decide +kernel, (rejected_of_dead_iff reaches_deadHead true 0).mpr (.inr ?_) dead⟩
  intro misleads
  exact absurd misleads.used (by decide +kernel)

theorem leadsAstray_deadHead : LeadsAstray deadHead 2 := by
  refine @leadsAstray_of_accepted _ _ _ _ _ reaches_deadHead true 2 (by decide +kernel) ?_
  rintro ⟨⟨errno, failed⟩, _⟩
  revert failed
  exact (by decide +kernel :
    (ipaNATIDelIpv4Rule true deadHead.tables.natTable 2).1 = .ok ()) ▸ nofun

/-- Deleting the first rule a second time succeeds. The index record that it frees
belonged to the second rule, whose record then names that of the third. -/
theorem accepted_deadHead :
    ∃ state : HandleState, ∃ ruleHdl : Nat,
      Reaches (handleStep samplePlatform) (HandleState.create .ddr smallSize 69) state ∧
        ruleHdl < 2 ^ 32 ∧ ruleHdl ∉ state.handles ∧
        (ipaNATIDelIpv4Rule true state.tables.natTable ruleHdl).1 = .ok () ∧
        ¬ Rejected true state.tables.natTable ruleHdl ∧
        Live state.tables.natTable.table 2 ∧
        (state.tables.natTable.table.records 2).indxTblEntry = 1 ∧
        (state.tables.natTable.indexTable.records 1).tblEntry = 2 ∧
        ((ipaNATIDelIpv4Rule true state.tables.natTable ruleHdl).2.indexTable.records
          1).tblEntry = 3 := by
  have succeeded : (ipaNATIDelIpv4Rule true deadHead.tables.natTable 2).1 = .ok () := by
    decide +kernel
  refine ⟨deadHead, 2, reaches_deadHead, by decide, by decide +kernel, succeeded, ?_,
    by decide +kernel, by decide +kernel, by decide +kernel, by decide +kernel⟩
  rintro ⟨⟨errno, failed⟩, _⟩
  rw [succeeded] at failed
  cases failed

end Sm8650.IpaNat
