import Sm8650.HwFence.JoinFence
import Sm8650.HwFence.Refinement

/-!
# What registrations keep

The parents of a child are the join fences registered on it, in the order of their
registration, as long as a registration that is taken back finds its own entries at
the end. A join fence belongs to one registration, which is the only one to count
its pending children.
-/

namespace Sm8650.HwFence

open Transition Probe Function List Option

def ChildFence.key (child : ChildFence) : Key :=
  (child.context, child.seqno)

def FenceArray.key (array : FenceArray) : Key :=
  (array.context, array.seqno)

/-! ## The parents of one fence -/

/-- The parent list of a fence starts with the given hashes. -/
structure Lists (fence : MsmHwFence) (hashes : List Nat) : Prop where
  length_eq : fence.parentList.length = msmHwFenceMaxJoinParents
  cnt_eq : fence.parentsCnt.toNat = hashes.length
  short : hashes.length < msmHwFenceMaxJoinParents
  take_eq : fence.parentList.take hashes.length = hashes.map (BitVec.ofNat 64)

/-- In the parents of a child nothing else comes behind an entry `hash`. -/
def OwnLast (hash : Nat) (child : MsmHwFence) : Prop :=
  ∀ first second, first < second → second < child.parentsCnt.toNat →
    child.parentList[first]? = some (BitVec.ofNat 64 hash) →
    child.parentList[second]? = some (BitVec.ofNat 64 hash)

/-- A list in which nothing else comes behind an element is the rest of the list
followed by that element. -/
theorem eq_filter_append_replicate {hash : Nat} {hashes : List Nat}
    (last : ∀ first second, first < second → second < hashes.length →
      hashes[first]? = some hash → hashes[second]? = some hash) :
    hashes = hashes.filter (fun other => other ≠ hash) ++ replicate (hashes.count hash) hash := by
  induction hashes with
  | nil => rfl
  | cons head tail ih =>
    have lastTail : ∀ first second, first < second → second < tail.length →
        tail[first]? = some hash → tail[second]? = some hash := fun first second before inRange =>
      last (first + 1) (second + 1) (by omega) (by simpa using inRange)
    by_cases own : head = hash
    · have allOwn : ∀ other ∈ tail, other = hash := by
        intro other among
        obtain ⟨i, inRange, located⟩ := mem_iff_getElem.mp among
        have entry := last 0 (i + 1) (by omega) (by simpa using inRange) (by simp [own])
        rw [getElem?_cons_succ, getElem?_eq_getElem inRange, located] at entry
        exact some.inj entry
      subst own
      rw [eq_replicate_of_mem allOwn]
      simp [replicate_succ]
    · conv_lhs => rw [ih lastTail]
      simp [own]

/-- Below `k` nothing is to be taken out. -/
theorem cleanupLoop_of_apart {hash k : Nat} {child : MsmHwFence}
    (apart : ∀ i < k, child.parentList[i]? ≠ some (BitVec.ofNat 64 hash)) :
    cleanupLoop hash k child = child := by
  induction k with
  | zero => rfl
  | succ k ih =>
    rw [cleanupLoop, if_neg (apart k (Nat.lt_succ_self k))]
    exact ih fun i below => apart i (Nat.lt_succ_of_lt below)

/-- Entries at the end are blanked and taken off the count. -/
theorem cleanupLoop_of_own {hash k m : Nat} {child : MsmHwFence}
    (cnt : child.parentsCnt.toNat = k + m)
    (own : ∀ i, k ≤ i → i < k + m → child.parentList[i]? = some (BitVec.ofNat 64 hash)) :
    ∃ parentList, cleanupLoop hash (k + m) child
        = cleanupLoop hash k { child with parentList, parentsCnt := BitVec.ofNat 32 k }
      ∧ parentList.length = child.parentList.length
      ∧ parentList.take k = child.parentList.take k := by
  induction m generalizing child with
  | zero =>
    refine ⟨child.parentList, ?_, rfl, rfl⟩
    have same : child.parentsCnt = BitVec.ofNat 32 k := by
      rw [Nat.add_zero] at cnt
      rw [← cnt, BitVec.ofNat_toNat, BitVec.setWidth_eq]
    rw [← same]
    rfl
  | succ m ih =>
    have nonzero : child.parentsCnt ≠ 0 := by
      intro zero
      rw [zero] at cnt
      simp at cnt
    have onePred : (child.parentsCnt - 1).toNat = k + m := by
      rw [BitVec.toNat_sub_of_le, cnt]
      · rfl
      · rw [BitVec.le_def]
        simp
        omega
    have next := @ih { child with
      parentList := child.parentList.set (k + m) hwFenceInvalidParentFence
      parentsCnt := child.parentsCnt - 1 } onePred fun i lower upper => by
        rw [getElem?_set_ne (by omega)]
        exact own i lower (by omega)
    obtain ⟨parentList, loop, length_eq, take_eq⟩ := next
    refine ⟨parentList, ?_, ?_, ?_⟩
    · rw [← Nat.add_assoc, cleanupLoop, if_pos (own (k + m) (by omega) (by omega)), if_pos nonzero]
      exact loop
    · rw [length_eq, length_set]
    · rw [take_eq, take_set_of_le (by omega)]

/-- Registration and cleanup change nothing but the parents of a child. -/
structure SameButParents (before after : MsmHwFence) : Prop where
  valid : after.valid = before.valid
  key : after.key = before.key
  pending : after.pendingChildCnt = before.pendingChildCnt

theorem sameButParents_addParent {hash : Nat} {child withParent : MsmHwFence}
    (added : addParent hash child = some withParent) : SameButParents child withParent := by
  simp only [addParent, ite_none_left_eq_some, some.injEq] at added
  obtain ⟨_, rfl⟩ := added
  exact ⟨rfl, rfl, rfl⟩

theorem sameButParents_cleanupLoop (hash j : Nat) (child : MsmHwFence) :
    SameButParents child (cleanupLoop hash j child) := by
  induction j generalizing child with
  | zero => exact ⟨rfl, rfl, rfl⟩
  | succ j ih =>
    rw [cleanupLoop]
    split
    · obtain ⟨valid, key, pending⟩ := ih { child with
        parentList := child.parentList.set j hwFenceInvalidParentFence
        parentsCnt := if child.parentsCnt ≠ 0 then child.parentsCnt - 1 else child.parentsCnt }
      exact ⟨valid, key, pending⟩
    · exact ih child

theorem ofNat_eq_iff {first second : Nat} (firstLt : first < 2 ^ 32) (secondLt : second < 2 ^ 32) :
    BitVec.ofNat 64 first = BitVec.ofNat 64 second ↔ first = second := by
  rw [← BitVec.toNat_inj, BitVec.toNat_ofNat, BitVec.toNat_ofNat]
  omega

namespace Lists

variable {fence : MsmHwFence} {hashes : List Nat} {hash : Nat}

theorem getElem?_eq (lists : Lists fence hashes) {i : Nat} (inRange : i < hashes.length) :
    fence.parentList[i]? = (hashes[i]?).map (BitVec.ofNat 64) := by
  rw [← getElem?_take_of_lt inRange, lists.take_eq, getElem?_map]

/-- Registration adds the hash at the end, or fails at a fence with two parents. -/
theorem addParent (lists : Lists fence hashes) {child : MsmHwFence}
    (added : addParent hash fence = some child) : Lists child (hashes ++ [hash]) := by
  have cnt := lists.cnt_eq
  have short := lists.short
  have succ : (fence.parentsCnt + 1).toNat = hashes.length + 1 := by
    rw [BitVec.toNat_add, cnt]
    simp only [msmHwFenceMaxJoinParents] at short
    simp
    omega
  simp only [HwFence.addParent, succ, ite_none_left_eq_some, some.injEq] at added
  obtain ⟨room, rfl⟩ := added
  have below : hashes.length + 1 < msmHwFenceMaxJoinParents := by omega
  refine ⟨?_, ?_, ?_, ?_⟩
  · rw [length_set, lists.length_eq]
  · rw [succ, length_append, length_singleton]
  · rwa [length_append, length_singleton]
  · have inList : hashes.length < fence.parentList.length := by
      rw [lists.length_eq]
      omega
    rw [length_append, length_singleton, Nat.add_sub_cancel, take_add_one,
      take_set_of_le (Nat.le_refl _), lists.take_eq, getElem?_set_self inList]
    simp

/-- A registration whose entries are the last ones is taken out completely. -/
theorem cleanupChild (lists : Lists fence hashes) (bounded : ∀ other ∈ hashes, other < 2 ^ 32)
    (hashLt : hash < 2 ^ 32) (last : OwnLast hash fence) :
    Lists (cleanupChild hash fence) (hashes.filter fun other => other ≠ hash) := by
  have cnt := lists.cnt_eq
  have short := lists.short
  have entry_iff (i : Nat) (inRange : i < hashes.length) :
      fence.parentList[i]? = some (BitVec.ofNat 64 hash) ↔ hashes[i]? = some hash := by
    rw [lists.getElem?_eq inRange, getElem?_eq_getElem inRange, map_some, some.injEq, some.injEq,
      ofNat_eq_iff (bounded _ (getElem_mem inRange)) hashLt]
  have ownLast (first second : Nat) (before : first < second) (inRange : second < hashes.length)
      (own : hashes[first]? = some hash) : hashes[second]? = some hash := by
    rw [← entry_iff second inRange]
    exact last first second before (cnt ▸ inRange)
      ((entry_iff first (before.trans inRange)).mpr own)
  have split := eq_filter_append_replicate ownLast
  generalize keptEq : hashes.filter (fun other => other ≠ hash) = kept at split ⊢
  generalize hashes.count hash = m at split
  have apart : hash ∉ kept := by
    rw [← keptEq]
    simp
  have total : hashes.length = kept.length + m := by rw [split, length_append, length_replicate]
  have start : (if 2 ^ 31 ≤ fence.parentsCnt.toNat then 0
      else min fence.parentsCnt.toNat msmHwFenceMaxJoinParents) = kept.length + m := by
    have small : hashes.length < 3 := short
    rw [cnt, if_neg (by omega), Nat.min_eq_left (by omega), total]
  obtain ⟨parentList, loop, length_eq, take_eq⟩ := @cleanupLoop_of_own hash kept.length m fence
    (cnt.trans total) fun i lower upper => by
      rw [entry_iff i (by omega), split, getElem?_append_right lower,
        getElem?_replicate_of_lt (by omega)]
  have takeKept : parentList.take kept.length = kept.map (BitVec.ofNat 64) := by
    rw [take_eq, ← Nat.min_eq_left (show kept.length ≤ hashes.length by omega), ← take_take,
      lists.take_eq, ← map_take]
    conv_lhs => rw [split, take_left]
  have cleaned : HwFence.cleanupChild hash fence
      = { fence with parentList, parentsCnt := BitVec.ofNat 32 kept.length } := by
    rw [HwFence.cleanupChild, start, loop]
    refine cleanupLoop_of_apart fun i below own => apart ?_
    have entry : parentList[i]? = (kept[i]?).map (BitVec.ofNat 64) := by
      rw [← getElem?_take_of_lt below, takeKept, getElem?_map]
    have member : kept[i] ∈ hashes := by
      rw [split]
      exact mem_append_left _ (getElem_mem below)
    rw [entry, getElem?_eq_getElem below, map_some, some.injEq,
      ofNat_eq_iff (bounded _ member) hashLt] at own
    rw [← own]
    exact getElem_mem below
  rw [cleaned]
  refine ⟨length_eq.trans lists.length_eq, ?_, by omega, takeKept⟩
  rw [BitVec.toNat_ofNat]
  simp only [msmHwFenceMaxJoinParents] at short
  omega

end Lists

/-! ## The table -/

/-- The table under registrations of `arrays`: parents are the registered hashes, and
only fences that are not join fences have some. -/
structure TableInv (arrays : Nat → FenceArray) (table : List MsmHwFence)
    (registered : Nat → List Nat) : Prop where
  bounded : table.length < 2 ^ 32
  wellFormed : WellFormed table
  lists : ∀ ⦃slot fence⦄, table[slot]? = some fence → Lists fence (registered slot)
  children : ∀ ⦃slot fence⦄, table[slot]? = some fence → registered slot ≠ [] →
    fence.valid ≠ 0 ∧ ∀ id, fence.key ≠ (arrays id).key
  hashes : ∀ slot, ∀ hash ∈ registered slot, hash < table.length

/-- A valid fence at `slot` stays there with its key and its pending children. -/
def Keeps (table after : List MsmHwFence) (slot : Nat) : Prop :=
  ∀ fence, table[slot]? = some fence → fence.valid ≠ 0 →
    ∃ fence', after[slot]? = some fence' ∧ fence'.valid ≠ 0 ∧ fence'.key = fence.key
      ∧ fence'.pendingChildCnt = fence.pendingChildCnt

theorem Keeps.of_getElem?_eq {table after : List MsmHwFence} {slot : Nat}
    (same : after[slot]? = table[slot]?) : Keeps table after slot :=
  fun fence located valid => ⟨fence, same.trans located, valid, rfl, rfl⟩

theorem Keeps.refl (table : List MsmHwFence) (slot : Nat) : Keeps table table slot :=
  Keeps.of_getElem?_eq rfl

section Set

variable {arrays : Nat → FenceArray} {table : List MsmHwFence} {registered : Nat → List Nat}
  {slot : Nat} {fence written : MsmHwFence}

/-- Writing a fence with the old key and validity keeps the table well formed. -/
theorem WellFormed.set_same (wellFormed : WellFormed table) (located : table[slot]? = some fence)
    (valid : written.valid = fence.valid) (key : written.key = fence.key) :
    WellFormed (table.set slot written) := by
  obtain ⟨bound, _⟩ := List.getElem?_eq_some_iff.mp located
  refine ⟨wellFormed.unique.set fun other fence' key' apart otherAt holds writtenHolds => ?_, ?_⟩
  · have fenceHolds : fence.Holds key' :=
      ⟨valid ▸ writtenHolds.1, key.symm.trans writtenHolds.2⟩
    exact apart (wellFormed.unique otherAt located holds fenceHolds)
  · intro other member free
    rcases (mem_set_iff bound _ _).mp member with rfl | ⟨index, _, otherAt⟩
    · rw [key]
      exact wellFormed.cleared fence (List.mem_of_getElem? located) (valid ▸ free)
    · exact wellFormed.cleared other (List.mem_of_getElem? otherAt) free

/-- Writing a free slot keeps the table well formed. -/
theorem WellFormed.set_free (wellFormed : WellFormed table) (bound : slot < table.length)
    (free : written.valid = 0) (key : written.key = 0) : WellFormed (table.set slot written) := by
  refine ⟨wellFormed.unique.set fun other fence' key' _ _ _ writtenHolds => ?_, ?_⟩
  · exact writtenHolds.1 free
  · intro other member isFree
    rcases (mem_set_iff bound _ _).mp member with rfl | ⟨index, _, otherAt⟩
    · exact key
    · exact wellFormed.cleared other (mem_of_getElem? otherAt) isFree

section

variable (inv : TableInv arrays table registered)

include inv

/-- A fence is replaced by one with the same key and validity that lists the hashes
registered on it afterwards. -/
theorem TableInv.set_same
    (located : table[slot]? = some fence) (valid : written.valid = fence.valid)
    (key : written.key = fence.key) {hashes : List Nat} (lists : Lists written hashes)
    (children : hashes ≠ [] → fence.valid ≠ 0 ∧ ∀ id, fence.key ≠ (arrays id).key)
    (bounded : ∀ hash ∈ hashes, hash < table.length) :
    TableInv arrays (table.set slot written) (update registered slot hashes) := by
  obtain ⟨bound, _⟩ := List.getElem?_eq_some_iff.mp located
  refine ⟨by simpa using inv.bounded, inv.wellFormed.set_same located valid key, ?_, ?_, ?_⟩
  · intro other fence' otherAt
    by_cases same : other = slot
    · subst same
      rw [List.getElem?_set_self bound, some.injEq] at otherAt
      subst otherAt
      rwa [update_self]
    · rw [List.getElem?_set_ne (Ne.symm same)] at otherAt
      rw [update_of_ne same]
      exact inv.lists otherAt
  · intro other fence' otherAt nonempty
    by_cases same : other = slot
    · subst same
      rw [List.getElem?_set_self bound, some.injEq] at otherAt
      subst otherAt
      rw [update_self] at nonempty
      rw [valid, key]
      exact children nonempty
    · rw [List.getElem?_set_ne (Ne.symm same)] at otherAt
      rw [update_of_ne same] at nonempty
      exact inv.children otherAt nonempty
  · intro other hash among
    rw [List.length_set]
    by_cases same : other = slot
    · subst same
      rw [update_self] at among
      exact bounded hash among
    · rw [update_of_ne same] at among
      exact inv.hashes other hash among

/-- A slot on which nothing is registered is replaced by a fence without parents. -/
theorem TableInv.set_empty
    (wellFormed : WellFormed (table.set slot written)) (nothing : registered slot = [])
    (lists : Lists written []) : TableInv arrays (table.set slot written) registered := by
  refine ⟨by simpa using inv.bounded, wellFormed, ?_, ?_, fun other hash among => ?_⟩
  · intro other fence' otherAt
    rw [getElem?_set] at otherAt
    split at otherAt
    · rename_i same
      split at otherAt
      · cases otherAt
        rwa [← same, nothing]
      · cases otherAt
    · exact inv.lists otherAt
  · intro other fence' otherAt nonempty
    have apart : slot ≠ other := by
      rintro rfl
      exact nonempty nothing
    rw [getElem?_set_ne apart] at otherAt
    exact inv.children otherAt nonempty
  · rw [length_set]
    exact inv.hashes other hash among

/-- A change of a fence that leaves its key, validity and parents alone. -/
theorem TableInv.set_frame
    (located : table[slot]? = some fence) (valid : written.valid = fence.valid)
    (key : written.key = fence.key) (parentList : written.parentList = fence.parentList)
    (parentsCnt : written.parentsCnt = fence.parentsCnt) :
    TableInv arrays (table.set slot written) registered := by
  have lists := inv.lists located
  have written' : Lists written (registered slot) :=
    ⟨parentList ▸ lists.length_eq, parentsCnt ▸ lists.cnt_eq, lists.short,
      parentList ▸ lists.take_eq⟩
  have after := inv.set_same located valid key written' (inv.children located) (inv.hashes slot)
  rwa [update_eq_self] at after

end

theorem Keeps.set_ne {other : Nat} (apart : other ≠ slot) :
    Keeps table (table.set slot written) other :=
  Keeps.of_getElem?_eq (getElem?_set_ne (Ne.symm apart))

theorem Keeps.set_frame (located : table[slot]? = some fence)
    (valid : written.valid = fence.valid) (key : written.key = fence.key)
    (pending : written.pendingChildCnt = fence.pendingChildCnt) (other : Nat) :
    Keeps table (table.set slot written) other := by
  by_cases same : other = slot
  · subst same
    obtain ⟨bound, _⟩ := List.getElem?_eq_some_iff.mp located
    intro fence' otherAt isValid
    cases located.symm.trans otherAt
    exact ⟨written, List.getElem?_set_self bound, valid ▸ isValid, key, pending⟩
  · exact Keeps.set_ne same

theorem modify_eq_set (located : table[slot]? = some fence) (change : MsmHwFence → MsmHwFence) :
    table.modify slot change = table.set slot (change fence) := by
  rw [modify_eq_set_getElem? change slot table]
  simp [located]

end Set

/-! ## The registrations -/

/-- The registration has a join fence. -/
def Registration.owns (registration : Registration) : Bool :=
  match registration.phase with
  | .create => false
  | .returned ret => ret = 0 && !registration.signalJoinFence
  | _ => true

/-- The number of positions visited, while it matters. -/
def Registration.visited (registration : Registration) : Option Nat :=
  match registration.phase with
  | .waitMask => some 0
  | .find i | .update i _ => some i
  | .finish | .returned _ => some registration.array.fences.length
  | _ => none

/-- What a registration relies on in the table. -/
structure RegistrationInv (table : List MsmHwFence) (registration : Registration) : Prop where
  fresh : registration.phase = .create → registration.unsignaled = 0
  owned : registration.owns = true →
    ∃ join, table[registration.hashJoinFence]? = some join
      ∧ join.Holds registration.array.key
      ∧ ∀ i, registration.visited = some i → i ≤ registration.array.fences.length
        ∧ join.pendingChildCnt.toNat + i
            = registration.array.fences.length + registration.unsignaled
  target : ∀ i slot, registration.phase = .update i slot →
    ∃ child fence, registration.array.fences[i]? = some child ∧ child.isFenceArray = false
      ∧ table[slot]? = some fence ∧ fence.Holds child.key
  cleanupTarget : ∀ idx slot, registration.phase = .cleanupUpdate idx slot → slot < table.length
  signaled : registration.phase = .destroySignaled → registration.signalJoinFence = true

/-- The slots on whose fence a registration relies. -/
def Registration.Uses (registration : Registration) (slot : Nat) : Prop :=
  (registration.owns = true ∧ registration.hashJoinFence = slot)
    ∨ ∃ i, registration.phase = .update i slot

theorem RegistrationInv.frame {table after : List MsmHwFence} {registration : Registration}
    (inv : RegistrationInv table registration) (length : after.length = table.length)
    (keeps : ∀ slot, registration.Uses slot → Keeps table after slot) :
    RegistrationInv after registration := by
  refine ⟨inv.fresh, fun owns => ?_, fun i slot phase => ?_, fun idx slot phase => ?_, inv.signaled⟩
  · obtain ⟨join, located, holds, counts⟩ := inv.owned owns
    obtain ⟨join', located', valid, key, pending⟩ :=
      keeps _ (Or.inl ⟨owns, rfl⟩) join located holds.1
    exact ⟨join', located', ⟨valid, key.trans holds.2⟩, pending ▸ counts⟩
  · obtain ⟨child, fence, atArray, plain, located, holds⟩ := inv.target i slot phase
    obtain ⟨fence', located', valid, key, _⟩ := keeps _ (Or.inr ⟨i, phase⟩) fence located holds.1
    exact ⟨child, fence', atArray, plain, located', valid, key.trans holds.2⟩
  · rw [length]
    exact inv.cleanupTarget idx slot phase

/-- Children are not join fences: no fence of an array that is not itself an array has
the key of an array, or the zero key of a free slot. -/
def ChildrenApart (arrays : Nat → FenceArray) : Prop :=
  ∀ id, ∀ child ∈ (arrays id).fences, child.isFenceArray = false →
    child.key ≠ 0 ∧ ∀ other, child.key ≠ (arrays other).key

/-- The invariant of the system. -/
structure JoinInv (arrays : Nat → FenceArray) (system : JoinSystem) : Prop where
  table : TableInv arrays system.table system.registered
  array_eq : ∀ id, (system.registrations id).array = arrays id
  registrations : ∀ id, RegistrationInv system.table (system.registrations id)
  apart : ∀ id other, id ≠ other → (system.registrations id).owns = true →
    (system.registrations other).owns = true →
    (system.registrations id).hashJoinFence ≠ (system.registrations other).hashJoinFence

/-- One registration moves on and the table changes with it; the other registrations
keep what they rely on. -/
theorem JoinInv.advance {arrays : Nat → FenceArray} {system : JoinSystem}
    (inv : JoinInv arrays system) {id : Nat} {next : Registration} {after : List MsmHwFence}
    {registered : Nat → List Nat} (table : TableInv arrays after registered)
    (length : after.length = system.table.length)
    (array_eq : next.array = (system.registrations id).array)
    (registration : RegistrationInv after next)
    (keeps : ∀ other ≠ id, ∀ slot, (system.registrations other).Uses slot →
      Keeps system.table after slot)
    (apart : next.owns = true → ∀ other ≠ id, (system.registrations other).owns = true →
      next.hashJoinFence ≠ (system.registrations other).hashJoinFence) :
    JoinInv arrays ({ system with table := after, registered := registered }.enter id next) := by
  refine ⟨table, fun other => ?_, fun other => ?_, fun first second differ firstOwns secondOwns =>
    ?_⟩
  · by_cases same : other = id
    · subst same
      simpa [JoinSystem.enter] using array_eq.trans (inv.array_eq other)
    · simpa [JoinSystem.enter, same] using inv.array_eq other
  · by_cases same : other = id
    · subst same
      simpa [JoinSystem.enter] using registration
    · have framed := (inv.registrations other).frame length (keeps other same)
      simpa [JoinSystem.enter, same] using framed
  · simp only [JoinSystem.enter] at firstOwns secondOwns ⊢
    by_cases firstSame : first = id
    · subst firstSame
      rw [update_self] at firstOwns ⊢
      rw [update_of_ne (Ne.symm differ)] at secondOwns ⊢
      exact apart firstOwns second (Ne.symm differ) secondOwns
    · rw [update_of_ne firstSame] at firstOwns ⊢
      by_cases secondSame : second = id
      · subst secondSame
        rw [update_self] at secondOwns ⊢
        exact Ne.symm (apart secondOwns first firstSame firstOwns)
      · rw [update_of_ne secondSame] at secondOwns ⊢
        exact inv.apart first second differ firstOwns secondOwns

end Sm8650.HwFence
