import Sm8650.HwFence.JoinInvariant

/-!
# Join fences under interleaved registrations

Two things can break the bookkeeping of join fences. A registration that is taken
back blanks its entries where they are and shortens the list, so an entry that was
added behind them is lost. A join fence is created although another slot carries its
key when a slot in front of that one has become free, so that one registration
destroys the join fence of another. In every run without such steps the parents of
the children and the pending children of the join fences are right.
-/

namespace Sm8650.HwFence

open Transition Probe List Registration

/-- The next section of the registration does neither of the two things. -/
def JoinSystem.Proper (system : JoinSystem) (id : Nat) : Prop :=
  let registration := system.registrations id
  match registration.phase with
  | .create =>
    ProbeOrdered system.table (registration.array.createRequest registration.qtime)
  | .cleanupUpdate _ slot =>
    ∀ child, system.table[slot]? = some child → OwnLast registration.hashJoinFence child
  | _ => True

/-- The parents of every child that is not signaled are the join fences registered on
it, and a registration that succeeded without signaling waits for the children that
were not signaled. -/
structure Bookkeeping (system : JoinSystem) : Prop where
  parents : ∀ (slot : Nat) (child : MsmHwFence), system.table[slot]? = some child →
    child.flags &&& msmHwFenceFlagSignal = 0 →
    (child.parentList.take child.parentsCnt.toNat).Perm
      ((system.registered slot).map (BitVec.ofNat 64))
  pending : ∀ id, (system.registrations id).phase = .returned 0 →
    (system.registrations id).signalJoinFence = false →
    ∃ join : MsmHwFence, system.table[(system.registrations id).hashJoinFence]? = some join
      ∧ join.pendingChildCnt.toNat = (system.registrations id).unsignaled

/-- No registration has begun and no child has a parent. -/
structure JoinStart (system : JoinSystem) : Prop where
  bounded : system.table.length < 2 ^ 32
  wellFormed : WellFormed system.table
  parents : ∀ fence ∈ system.table,
    fence.parentsCnt = 0 ∧ fence.parentList.length = msmHwFenceMaxJoinParents
  create : ∀ id, (system.registrations id).phase = .create
  unsignaled : ∀ id, (system.registrations id).unsignaled = 0
  nothing : ∀ slot, system.registered slot = []
  apart : ChildrenApart fun id => (system.registrations id).array

theorem JoinStart.inv {system : JoinSystem} (start : JoinStart system) :
    JoinInv (fun id => (system.registrations id).array) system := by
  refine ⟨⟨start.bounded, start.wellFormed, ?_, ?_, ?_⟩, fun _ => rfl, fun id => ?_, ?_⟩
  · intro slot fence located
    obtain ⟨cnt, length⟩ := start.parents fence (mem_of_getElem? located)
    rw [start.nothing]
    exact ⟨length, by simp [cnt], by decide, by simp⟩
  · intro slot fence _ nonempty
    exact absurd (start.nothing slot) nonempty
  · intro slot hash among
    rw [start.nothing] at among
    simp at among
  · have create := start.create id
    refine ⟨fun _ => start.unsignaled id, ?_, ?_, ?_, ?_⟩ <;> simp [Registration.owns, create]
  · intro id other _ owns
    simp [Registration.owns, start.create id] at owns

theorem JoinInv.bookkeeping {arrays : Nat → FenceArray} {system : JoinSystem}
    (inv : JoinInv arrays system) : Bookkeeping system := by
  constructor
  · intro slot child located _
    have lists := inv.table.lists located
    rw [lists.cnt_eq, lists.take_eq]
  · intro id returned silent
    have owns : (system.registrations id).owns = true := by
      simp [Registration.owns, returned, silent]
    obtain ⟨join, located, _, counts⟩ := (inv.registrations id).owned owns
    have pending := (counts _ (by rw [visited, returned])).2
    exact ⟨join, located, by omega⟩

section Step

variable {arrays : Nat → FenceArray} {system : JoinSystem} {id : Nat}

section

variable (inv : JoinInv arrays system)

include inv

/-- A section that only moves the registration on. -/
theorem JoinInv.move {next : Registration} (array_eq : next.array = (system.registrations id).array)
    (hash_eq : next.hashJoinFence = (system.registrations id).hashJoinFence)
    (owns : next.owns = true → (system.registrations id).owns = true)
    (registration : RegistrationInv system.table next) : JoinInv arrays (system.enter id next) :=
  inv.advance inv.table rfl array_eq registration (fun _ _ slot _ => Keeps.refl _ slot)
    fun nextOwns other differ otherOwns =>
      hash_eq ▸ inv.apart id other (Ne.symm differ) (owns nextOwns) otherOwns

/-- The fence that a registration has found or created at its hash. -/
theorem JoinInv.join (owns : (system.registrations id).owns = true) :
    ∃ join, system.table[(system.registrations id).hashJoinFence]? = some join
      ∧ join.Holds (arrays id).key := by
  obtain ⟨join, located, holds, _⟩ := (inv.registrations id).owned owns
  exact ⟨join, located, inv.array_eq id ▸ holds⟩

/-- No other registration relies on a slot with the key of an array that has a join
fence. -/
theorem JoinInv.unused (childrenApart : ChildrenApart arrays)
    (owns : (system.registrations id).owns = true) {slot : Nat} {fence : MsmHwFence}
    (located : system.table[slot]? = some fence) (key : fence.key = (arrays id).key)
    {other : Nat} (differ : other ≠ id) (uses : (system.registrations other).Uses slot) :
    False := by
  rcases uses with ⟨otherOwns, rfl⟩ | ⟨i, phase⟩
  · obtain ⟨join, joinAt, joinHolds⟩ := inv.join owns
    obtain ⟨otherJoin, otherAt, otherHolds⟩ := inv.join otherOwns
    cases otherAt.symm.trans located
    have fenceHolds : fence.Holds (arrays id).key := ⟨otherHolds.1, key⟩
    have same := inv.table.wellFormed.unique joinAt located joinHolds fenceHolds
    exact inv.apart id other (Ne.symm differ) owns otherOwns same
  · obtain ⟨child, found, atArray, plain, foundAt, foundHolds⟩ :=
      (inv.registrations other).target i slot phase
    cases foundAt.symm.trans located
    have member : child ∈ (arrays other).fences :=
      inv.array_eq other ▸ mem_of_getElem? atArray
    exact (childrenApart other child member plain).2 id (foundHolds.2.symm.trans key)

/-- Destroying the join fence, or a free slot with its key. -/
theorem JoinInv.destroy (childrenApart : ChildrenApart arrays)
    (owns : (system.registrations id).owns = true) {next : Registration}
    (array_eq : next.array = (system.registrations id).array) (disowns : next.owns = false)
    (phase : ∃ ret, next.phase = .returned ret) :
    JoinInv arrays ({ system with
      table := (hwFenceLookupAndProcess system.table
        (system.registrations id).array.destroyRequest).table }.enter id next) := by
  obtain ⟨ret, returned⟩ := phase
  have registration (after : List MsmHwFence) : RegistrationInv after next := by
    refine ⟨?_, fun nextOwns => ?_, ?_, ?_, ?_⟩ <;> simp_all
  have apart : next.owns = true → ∀ other ≠ id, (system.registrations other).owns = true →
      next.hashJoinFence ≠ (system.registrations other).hashJoinFence := by
    intro nextOwns
    rw [disowns] at nextOwns
    cases nextOwns
  rcases matching_cases system.table (show
      (system.registrations id).array.destroyRequest.op.creates = false from rfl) with
    ⟨last, fence, _, located, key, result⟩ | ⟨_, _, unchanged⟩
  · rw [result]
    have keyArray : fence.key = (arrays id).key := key.trans (by rw [← inv.array_eq id]; rfl)
    obtain ⟨bound, _⟩ := List.getElem?_eq_some_iff.mp located
    have nothing : system.registered
        (probeSlot system.table (system.registrations id).array.destroyRequest last) = [] := by
      by_contra nonempty
      exact (inv.table.children located nonempty).2 id keyArray
    refine inv.advance (inv.table.set_empty ?_ nothing ?_) (by simp) array_eq (registration _)
      (fun other differ slot uses => Keeps.set_ne ?_) apart
    · exact inv.table.wellFormed.set_free bound rfl rfl
    · exact ⟨rfl, rfl, by decide, by simp⟩
    · rintro rfl
      exact inv.unused childrenApart owns located keyArray differ uses
  · rw [unchanged]
    exact inv.advance inv.table rfl array_eq (registration _)
      (fun _ _ slot _ => Keeps.refl _ slot) apart

/-- Creating the join fence. -/
theorem JoinInv.create (phase : (system.registrations id).phase = .create) {hash : Nat}
    (ordered : ProbeOrdered system.table
      ((system.registrations id).array.createRequest (system.registrations id).qtime))
    (created : (hwFenceLookupAndProcess system.table ((system.registrations id).array.createRequest
      (system.registrations id).qtime)).fence = some hash) :
    JoinInv arrays ({ system with
      table := (hwFenceLookupAndProcess system.table ((system.registrations id).array.createRequest
        (system.registrations id).qtime)).table }.enter id
      { system.registrations id with phase := .waitMask, hashJoinFence := hash }) := by
  have wellFormed := inv.table.wellFormed.afterCreation (show
    ((system.registrations id).array.createRequest (system.registrations id).qtime).op.creates
      = true from rfl) ordered
  rw [afterLookup] at wellFormed
  rcases creation_cases system.table (show
      ((system.registrations id).array.createRequest (system.registrations id).qtime).op.creates
        = true from rfl) with
    ⟨last, free, _, located, isFree, result⟩ | ⟨_, _, _, _, _, failed, _⟩ | ⟨_, failed, _⟩
  · rw [result] at created wellFormed ⊢
    obtain rfl := Option.some.inj created
    obtain ⟨bound, _⟩ := List.getElem?_eq_some_iff.mp located
    have nothing : system.registered (probeSlot system.table
        ((system.registrations id).array.createRequest (system.registrations id).qtime) last)
          = [] := by
      by_contra nonempty
      exact (inv.table.children located nonempty).1 isFree
    have usedValid {other slot : Nat} (uses : (system.registrations other).Uses slot) :
        ∃ fence, system.table[slot]? = some fence ∧ fence.valid ≠ 0 := by
      rcases uses with ⟨owns, rfl⟩ | ⟨i, atUpdate⟩
      · obtain ⟨join, joinAt, holds⟩ := inv.join owns
        exact ⟨join, joinAt, holds.1⟩
      · obtain ⟨_, fence, _, _, fenceAt, holds⟩ :=
          (inv.registrations other).target i slot atUpdate
        exact ⟨fence, fenceAt, holds.1⟩
    have unused {other slot : Nat} (uses : (system.registrations other).Uses slot) :
        slot ≠ probeSlot system.table
          ((system.registrations id).array.createRequest (system.registrations id).qtime) last := by
      rintro rfl
      obtain ⟨fence, fenceAt, valid⟩ := usedValid uses
      cases fenceAt.symm.trans located
      exact valid isFree
    refine inv.advance (inv.table.set_empty wellFormed nothing ?_) (by simp) rfl ?_
      (fun other _ slot uses => Keeps.set_ne (unused uses))
      fun _ other _ owns => Ne.symm (unused (.inl ⟨owns, rfl⟩))
    · exact ⟨rfl, rfl, by decide, by simp⟩
    · refine ⟨by simp, fun _ => ⟨_, List.getElem?_set_self bound, ?_, fun i visited => ?_⟩,
        by simp, by simp, by simp⟩
      · exact processFnc_holds rfl free
      · cases visited
        have small := (system.registrations id).array.numFences_lt
        refine ⟨Nat.zero_le _, ?_⟩
        rw [(inv.registrations id).fresh phase]
        exact Nat.mod_eq_of_lt small
  · rw [failed] at created
    cases created
  · rw [failed] at created
    cases created

/-- A change of the join fence that leaves its key, its parents and its pending
children alone. -/
theorem JoinInv.touch
    (owns : (system.registrations id).owns = true) {change : MsmHwFence → MsmHwFence}
    (valid : ∀ fence, (change fence).valid = fence.valid)
    (key : ∀ fence, (change fence).key = fence.key)
    (parentList : ∀ fence, (change fence).parentList = fence.parentList)
    (parentsCnt : ∀ fence, (change fence).parentsCnt = fence.parentsCnt)
    (pending : ∀ fence, (change fence).pendingChildCnt = fence.pendingChildCnt) :
    JoinInv arrays { system with
      table := system.table.modify (system.registrations id).hashJoinFence change } := by
  obtain ⟨join, located, _⟩ := inv.join owns
  have keeps := Keeps.set_frame located (valid join) (key join) (pending join)
  have table := inv.table.set_frame located (valid join) (key join) (parentList join)
    (parentsCnt join)
  rw [modify_eq_set located change]
  exact ⟨table, inv.array_eq, fun other =>
    (inv.registrations other).frame (by simp) fun slot _ => keeps slot, inv.apart⟩

/-- The update of a child. -/
theorem JoinInv.updateChild (childrenApart : ChildrenApart arrays)
    {i slot : Nat} (phase : (system.registrations id).phase = .update i slot) :
    JoinInv arrays (system.updateChild id i slot) := by
  have owns : (system.registrations id).owns = true := by simp [Registration.owns, phase]
  have registration := inv.registrations id
  obtain ⟨join, joinAt, joinHolds, counts⟩ := registration.owned owns
  obtain ⟨element, child, atArray, plain, childAt, childHolds⟩ := registration.target i slot phase
  obtain ⟨_, count⟩ := counts i (by rw [visited, phase])
  obtain ⟨inArray, _⟩ := List.getElem?_eq_some_iff.mp atArray
  have member : element ∈ (arrays id).fences := inv.array_eq id ▸ List.mem_of_getElem? atArray
  have apartKeys := (childrenApart id element member plain).2
  rw [JoinSystem.updateChild]
  simp only [childAt, joinAt]
  by_cases signaled : child.flags &&& msmHwFenceFlagSignal ≠ 0
  · simp only [if_pos signaled]
    have pendingPos : 0 < join.pendingChildCnt.toNat := by omega
    have pred : (join.pendingChildCnt - 1).toNat = join.pendingChildCnt.toNat - 1 := by
      rw [BitVec.toNat_sub_of_le]
      · rfl
      · exact pendingPos
    obtain ⟨bound, _⟩ := List.getElem?_eq_some_iff.mp joinAt
    refine inv.advance (inv.table.set_frame joinAt rfl rfl rfl rfl) (by simp) rfl ?_
      (fun other differ slot uses => Keeps.set_ne ?_)
      fun _ other differ otherOwns => inv.apart id other (Ne.symm differ) owns otherOwns
    · refine ⟨by simp, fun _ => ⟨_, List.getElem?_set_self bound, joinHolds, fun j visited => ?_⟩,
        by simp, by simp, by simp⟩
      cases visited
      simp only [dropPending]
      omega
    · rintro rfl
      exact inv.unused childrenApart owns joinAt (joinHolds.2.trans (by rw [inv.array_eq id]))
        differ uses
  · simp only [if_neg signaled]
    cases added : addParent (system.registrations id).hashJoinFence child with
    | none =>
      refine inv.move rfl rfl (fun _ => owns) ⟨by simp, fun _ => ?_, by simp, by simp, by simp⟩
      exact ⟨join, joinAt, joinHolds, by simp [visited]⟩
    | some withParent =>
      have lists := (inv.table.lists childAt).addParent added
      have same := sameButParents_addParent added
      have keeps := Keeps.set_frame childAt same.valid same.key same.pending
      obtain ⟨hashLt, _⟩ := List.getElem?_eq_some_iff.mp joinAt
      refine inv.advance (inv.table.set_same childAt same.valid same.key lists ?_ ?_) (by simp)
        rfl ?_ (fun _ _ slot _ => keeps slot)
        fun _ other differ otherOwns => inv.apart id other (Ne.symm differ) owns otherOwns
      · exact fun _ => ⟨childHolds.1, fun other => childHolds.2 ▸ apartKeys other⟩
      · intro hash among
        rcases List.mem_append.mp among with before | new
        · exact inv.table.hashes slot hash before
        · rw [List.mem_singleton.mp new]
          exact hashLt
      · obtain ⟨join', joinAt', valid, key, pending⟩ := keeps _ join joinAt joinHolds.1
        refine ⟨by simp, fun _ => ⟨join', joinAt', ⟨valid, key.trans joinHolds.2⟩,
          fun j visited => ?_⟩, by simp, by simp, by simp⟩
        cases visited
        rw [pending]
        simp only
        omega

/-- The cleanup of a child in which the own entries are the last ones. -/
theorem JoinInv.cleanupUpdate {idx slot : Nat}
    (phase : (system.registrations id).phase = .cleanupUpdate idx slot)
    (last : ∀ child, system.table[slot]? = some child →
      OwnLast (system.registrations id).hashJoinFence child) :
    JoinInv arrays (system.cleanupUpdate id idx slot) := by
  have owns : (system.registrations id).owns = true := by simp [Registration.owns, phase]
  obtain ⟨join, joinAt, joinHolds⟩ := inv.join owns
  obtain ⟨hashLt, _⟩ := List.getElem?_eq_some_iff.mp joinAt
  have slotLt := (inv.registrations id).cleanupTarget idx slot phase
  obtain ⟨child, childAt⟩ : ∃ child, system.table[slot]? = some child :=
    ⟨_, List.getElem?_eq_getElem slotLt⟩
  have bounded := inv.table.bounded
  have lists := (inv.table.lists childAt).cleanupChild
    (fun other among => (inv.table.hashes slot other among).trans bounded)
    (hashLt.trans bounded) (last child childAt)
  have same : SameButParents child (cleanupChild (system.registrations id).hashJoinFence child) :=
    sameButParents_cleanupLoop _ _ child
  have keeps := Keeps.set_frame childAt same.valid same.key same.pending
  rw [JoinSystem.cleanupUpdate]
  simp only [modify_eq_set childAt]
  refine inv.advance (inv.table.set_same childAt same.valid same.key lists ?_ ?_) (by simp) rfl ?_
    (fun _ _ slot _ => keeps slot)
    fun _ other differ otherOwns => inv.apart id other (Ne.symm differ) owns otherOwns
  · intro nonempty
    refine inv.table.children childAt fun nothing => nonempty ?_
    rw [nothing, List.filter_nil]
  · exact fun hash among => inv.table.hashes slot hash (List.mem_of_mem_filter among)
  · obtain ⟨join', joinAt', valid, key, _⟩ := keeps _ join joinAt joinHolds.1
    have holds : join'.Holds (system.registrations id).array.key := by
      rw [inv.array_eq id]
      exact ⟨valid, key.trans joinHolds.2⟩
    cases idx <;>
      exact ⟨by simp [Phase.afterCleanup],
        fun _ => ⟨join', joinAt', holds, by simp [visited, Phase.afterCleanup]⟩,
        by simp [Phase.afterCleanup], by simp [Phase.afterCleanup], by simp [Phase.afterCleanup]⟩

/-- A registration that goes back over its children keeps its join fence. -/
theorem JoinInv.goBack (owns : (system.registrations id).owns = true) {phase : Phase}
    (back : phase = .destroyJoin ∨ ∃ idx, phase = .cleanupFind idx) :
    JoinInv arrays (system.enter id { system.registrations id with phase }) := by
  obtain ⟨join, joinAt, joinHolds, _⟩ := (inv.registrations id).owned owns
  refine inv.move rfl rfl (fun _ => owns) ⟨?_, fun _ => ⟨join, joinAt, joinHolds, ?_⟩, ?_, ?_, ?_⟩
    <;> rcases back with rfl | ⟨idx, rfl⟩ <;> simp [visited]

end

theorem afterCleanup_cases (idx : Nat) :
    Phase.afterCleanup idx = .destroyJoin ∨ ∃ below, Phase.afterCleanup idx = .cleanupFind below := by
  cases idx with
  | zero => exact .inl rfl
  | succ idx => exact .inr ⟨idx, rfl⟩

/-- A slot that a lookup of a child finds is in the table and has the key. -/
theorem exists_of_find {table : List MsmHwFence} {child : ChildFence} {clientId slot : Nat}
    (found : (hwFenceLookupAndProcess table (child.findRequest clientId)).fence = some slot) :
    ∃ fence, table[slot]? = some fence ∧ fence.key = child.key := by
  rcases matching_cases table (show (child.findRequest clientId).op.creates = false from rfl) with
    ⟨last, fence, _, located, key, result⟩ | ⟨_, failed, _⟩
  · rw [result] at found
    obtain rfl := Option.some.inj found
    exact ⟨fence, located, key⟩
  · rw [failed] at found
    cases found

/-- Looking for a child. -/
theorem JoinInv.find (inv : JoinInv arrays system) (childrenApart : ChildrenApart arrays)
    {i : Nat} (phase : (system.registrations id).phase = .find i) :
    JoinInv arrays (system.step id) := by
  have owns : (system.registrations id).owns = true := by simp [Registration.owns, phase]
  obtain ⟨join, joinAt, joinHolds, counts⟩ := (inv.registrations id).owned owns
  have count := counts i (by rw [visited, phase])
  rw [JoinSystem.step]
  simp only [phase]
  cases atArray : (system.registrations id).array.fences[i]? with
  | none =>
    refine inv.move rfl rfl (fun _ => owns) ⟨by simp, fun _ => ⟨join, joinAt, joinHolds,
      fun j visited => ?_⟩, by simp, by simp, by simp⟩
    have atEnd : i = (system.registrations id).array.fences.length :=
      Nat.le_antisymm count.1 (getElem?_eq_none_iff.mp atArray)
    cases visited
    exact ⟨Nat.le_refl _, atEnd ▸ count.2⟩
  | some child =>
    dsimp only
    split
    · exact inv.goBack owns (.inr ⟨i, rfl⟩)
    · rename_i plain
      cases found : (hwFenceLookupAndProcess system.table
          (child.findRequest (system.registrations id).clientId)).fence with
      | none => exact inv.goBack owns (.inr ⟨i, rfl⟩)
      | some slot =>
        obtain ⟨fence, located, key⟩ := exists_of_find found
        have notArray : child.isFenceArray = false := by
          simp only [Bool.or_eq_true, not_or, Bool.not_eq_true] at plain
          exact plain.1
        have member : child ∈ (arrays id).fences :=
          inv.array_eq id ▸ mem_of_getElem? atArray
        have valid : fence.valid ≠ 0 := by
          intro free
          have zero := inv.table.wellFormed.cleared fence (mem_of_getElem? located) free
          exact (childrenApart id child member notArray).1 (key.symm.trans zero)
        refine inv.move rfl rfl (fun _ => owns) ⟨by simp, fun _ => ⟨join, joinAt, joinHolds,
          fun j visited => ?_⟩, fun j target atUpdate => ?_, by simp, by simp⟩
        · cases visited
          exact count
        · cases atUpdate
          exact ⟨child, fence, atArray, notArray, located, valid, key⟩

/-- The end of the loop over the array. -/
theorem JoinInv.finish (inv : JoinInv arrays system)
    (phase : (system.registrations id).phase = .finish) : JoinInv arrays (system.step id) := by
  have owns : (system.registrations id).owns = true := by simp [Registration.owns, phase]
  have stored : JoinInv arrays { system with table := system.storeClientData id } := by
    rw [JoinSystem.storeClientData]
    split
    · exact inv.touch owns (fun _ => rfl) (fun _ => rfl) (fun _ => rfl) (fun _ => rfl) fun _ => rfl
    · exact inv
  obtain ⟨join, joinAt, joinHolds, counts⟩ := (stored.registrations id).owned owns
  have count := counts _ (by rw [visited, phase])
  rw [JoinSystem.step]
  simp only [phase]
  split
  · rename_i signals
    refine stored.move rfl rfl (fun _ => owns) ⟨by simp, fun _ => ⟨join, joinAt, joinHolds,
      by simp [visited]⟩, by simp, by simp, fun _ => signals⟩
  · split
    · exact stored.goBack owns (.inr ⟨0, rfl⟩)
    · refine stored.move rfl rfl (fun _ => owns) ⟨by simp, fun _ => ⟨join, joinAt, joinHolds,
        fun j visited => ?_⟩, by simp, by simp, by simp⟩
      cases visited
      exact count

/-- Every section that is proper keeps the invariant. -/
theorem JoinInv.step (inv : JoinInv arrays system) (childrenApart : ChildrenApart arrays)
    (proper : system.Proper id) : JoinInv arrays (system.step id) := by
  have failed (system' : JoinSystem) (inv' : JoinInv arrays system') :
      JoinInv arrays (system'.enter id
        { system'.registrations id with phase := .returned einval }) := by
    refine inv'.move rfl rfl (fun owns => ?_) ⟨by simp, fun owns => ?_, by simp, by simp, by simp⟩
      <;> simp [Registration.owns, einval] at owns
  cases phase : (system.registrations id).phase with
  | create =>
    rw [JoinSystem.Proper] at proper
    simp only [phase] at proper
    rw [JoinSystem.step]
    simp only [phase]
    split
    · exact failed system inv
    · split
      · rename_i created
        have unchanged : (hwFenceLookupAndProcess system.table
            ((system.registrations id).array.createRequest
              (system.registrations id).qtime)).table = system.table := by
          rcases creation_cases system.table (show
              ((system.registrations id).array.createRequest
                (system.registrations id).qtime).op.creates = true from rfl) with
            ⟨_, _, _, _, _, result⟩ | ⟨_, _, _, _, _, _, same⟩ | ⟨_, _, same⟩
          · rw [result] at created
            cases created
          · exact same
          · exact same
        rw [unchanged]
        exact failed system inv
      · rename_i hash created
        exact inv.create phase proper created
  | waitMask =>
    have owns : (system.registrations id).owns = true := by simp [Registration.owns, phase]
    have masked : JoinInv arrays { system with
        table := system.table.modify (system.registrations id).hashJoinFence fun join =>
          { join with waitClientMask :=
              join.waitClientMask ||| (1 <<< (system.registrations id).clientId) } } :=
      inv.touch owns (fun _ => rfl) (fun _ => rfl) (fun _ => rfl) (fun _ => rfl) fun _ => rfl
    obtain ⟨join, joinAt, joinHolds, counts⟩ := (masked.registrations id).owned owns
    have count := counts 0 (by rw [visited, phase])
    rw [JoinSystem.step]
    simp only [phase]
    refine masked.move rfl rfl (fun _ => owns) ⟨by simp, fun _ => ⟨join, joinAt, joinHolds,
      fun j visited => ?_⟩, by simp, by simp, by simp⟩
    cases visited
    exact count
  | find i => exact inv.find childrenApart phase
  | update i slot =>
    rw [JoinSystem.step]
    simp only [phase]
    exact inv.updateChild childrenApart phase
  | finish => exact inv.finish phase
  | destroySignaled =>
    have owns : (system.registrations id).owns = true := by simp [Registration.owns, phase]
    have signals := (inv.registrations id).signaled phase
    rw [JoinSystem.step]
    simp only [phase]
    exact inv.destroy childrenApart owns rfl (by simp [Registration.owns, signals]) ⟨0, rfl⟩
  | cleanupFind idx =>
    have owns : (system.registrations id).owns = true := by simp [Registration.owns, phase]
    obtain ⟨join, joinAt, joinHolds, _⟩ := (inv.registrations id).owned owns
    rw [JoinSystem.step]
    simp only [phase]
    split
    · exact inv.goBack owns (afterCleanup_cases idx)
    · split
      · exact inv.goBack owns (afterCleanup_cases idx)
      · rename_i slot found
        obtain ⟨fence, located, _⟩ := exists_of_find found
        obtain ⟨bound, _⟩ := List.getElem?_eq_some_iff.mp located
        refine inv.move rfl rfl (fun _ => owns) ⟨by simp, fun _ => ⟨join, joinAt, joinHolds,
          by simp [visited]⟩, by simp, fun j target atUpdate => ?_, by simp⟩
        cases atUpdate
        exact bound
  | cleanupUpdate idx slot =>
    rw [JoinSystem.Proper] at proper
    simp only [phase] at proper
    rw [JoinSystem.step]
    simp only [phase]
    exact inv.cleanupUpdate phase proper
  | destroyJoin =>
    have owns : (system.registrations id).owns = true := by simp [Registration.owns, phase]
    rw [JoinSystem.step]
    simp only [phase]
    exact inv.destroy childrenApart owns rfl (by simp [Registration.owns, einval]) ⟨einval, rfl⟩
  | returned ret =>
    rw [JoinSystem.step]
    simp only [phase]
    exact inv

end Step

/-- In every run of registrations that start from a table of existing children and whose
sections are all proper, the bookkeeping is right in every state. -/
theorem bookkeeping_of_reaches {system reached : JoinSystem} (start : JoinStart system)
    (run : Reaches (guarded JoinSystem.Proper JoinSystem.step) system reached) :
    Bookkeeping reached := by
  have inv : JoinInv (fun id => (system.registrations id).array) reached := by
    refine run.invariant start.inv fun state id next inv taken => ?_
    obtain ⟨proper, rfl⟩ := taken
    exact inv.step start.apart proper
  exact inv.bookkeeping

/-- A fence of the table that is not signaled. -/
def sampleChild : MsmHwFence :=
  { cleanupHwFence zeroFence with valid := 1, ctxId := 1, seqId := 1 }

/-- The first array has the child and a nested array, the second one only the child. -/
def sampleArray : Nat → FenceArray
  | 0 => ⟨5, 1, [⟨1, 1, false, true⟩, ⟨9, 9, true, true⟩], by decide⟩
  | 1 => ⟨6, 1, [⟨1, 1, false, true⟩], by decide⟩
  | _ => ⟨7, 1, [], by decide⟩

/-- Registrations of the arrays over a table with one child. -/
def sampleSystem : JoinSystem where
  table := [sampleChild, zeroFence, zeroFence, zeroFence]
  registrations id := ⟨id, 0, 0, sampleArray id, 0, .create, 0, false, 0⟩
  registered _ := []

theorem sampleSystem_start : JoinStart sampleSystem := by
  have onlyFirst {slot : Nat} {fence : MsmHwFence}
      (located : sampleSystem.table[slot]? = some fence) (valid : fence.valid ≠ 0) : slot = 0 := by
    match slot with
    | 0 => rfl
    | 1 | 2 | 3 =>
      cases located
      exact absurd rfl valid
    | _ + 4 => cases located
  have cleared : ∀ fence ∈ sampleSystem.table, fence.valid = 0 → fence.key = 0 := by decide
  refine ⟨by decide, ⟨?_, cleared⟩, by decide, fun _ => rfl, fun _ => rfl, fun _ => rfl, ?_⟩
  · intro first second fence other key firstAt secondAt fenceHolds otherHolds
    rw [onlyFirst firstAt fenceHolds.1, onlyFirst secondAt otherHolds.1]
  · have keys (other : Nat) : ((1, 1) : Key) ≠ (sampleArray other).key := by
      match other with
      | 0 | 1 => decide
      | _ + 2 => exact (by decide : ((1, 1) : Key) ≠ (7, 1))
    intro id child member plain
    match id with
    | 0 =>
      simp only [sampleSystem, sampleArray, mem_cons, not_mem_nil, or_false] at member
      rcases member with rfl | rfl
      · exact ⟨by decide, keys⟩
      · cases plain
    | 1 =>
      simp only [sampleSystem, sampleArray, mem_singleton] at member
      subst member
      exact ⟨by decide, keys⟩
    | _ + 2 => cases member

theorem bookkeeping_sample :
    Bookkeeping ([1, 1, 1, 1, 1, 1].foldl JoinSystem.step sampleSystem) := by
  refine bookkeeping_of_reaches sampleSystem_start (Reaches.foldl ?_)
  refine ⟨?_, trivial, trivial, trivial, trivial, trivial, trivial⟩
  have absent : ∀ fence ∈ sampleSystem.table, ¬ fence.Holds (6, 1) := by decide
  intro later _ holder seen holds
  exact absurd holds (absent holder (mem_of_getElem? seen))

/-- The first registration is taken back after the second one has added its join fence
behind it, and the join fence of the second one is lost. -/
theorem not_bookkeeping_of_interleaving :
    ∃ system reached, JoinStart system
      ∧ Reaches (guarded (fun _ _ => True) JoinSystem.step) system reached
      ∧ ¬ Bookkeeping reached := by
  refine ⟨sampleSystem, [0, 0, 0, 0, 1, 1, 1, 1, 0, 0, 0, 0].foldl JoinSystem.step sampleSystem,
    sampleSystem_start, Reaches.foldl ?_, fun right => ?_⟩
  · simp [Allowed]
  · have parents := right.parents 0
    exact absurd parents (by decide +kernel)

end Sm8650.HwFence
