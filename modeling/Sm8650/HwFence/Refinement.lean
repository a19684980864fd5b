import Sm8650.Data.Probe
import Sm8650.HwFence.Table
import Sm8650.Transition.Reach

/-!
# The fence table as a finite map

A table whose valid slots carry distinct keys and whose free slots carry the
zero key represents a partial map from `(context, seqno)` to fences. Each
lookup is described by the first step of its probe sequence that ends the
loop, and from there compared with the corresponding map operation.

The comparison fails in two ways, both visible in the probe order. Creation
stops at the first free slot and does not see the same key behind it, and
lookups by the zero key match cleared slots. `ProbeOrdered` excludes exactly
these situations.
-/

namespace Sm8650.HwFence

open Probe Transition Function List List Option

/-- The key under which a fence is filed. -/
abbrev Key := U64 × U64

def MsmHwFence.key (fence : MsmHwFence) : Key :=
  (fence.ctxId, fence.seqId)

def Request.key (request : Request) : Key :=
  (request.context, request.seqno)

/-- A valid slot carrying `key`. -/
def MsmHwFence.Holds (fence : MsmHwFence) (key : Key) : Prop :=
  fence.valid ≠ 0 ∧ fence.key = key

instance (fence : MsmHwFence) (key : Key) : Decidable (fence.Holds key) :=
  inferInstanceAs (Decidable (_ ∧ _))

/-- The partial map represented by a table. -/
def contents (table : List MsmHwFence) (key : Key) : Option MsmHwFence :=
  table.find? fun fence => decide (fence.Holds key)

/-- The key is in the represented map. -/
def Present (table : List MsmHwFence) (key : Key) : Prop :=
  ∃ fence ∈ table, fence.Holds key

/-- Some slot is free. -/
def HasFree (table : List MsmHwFence) : Prop :=
  ∃ fence ∈ table, fence.valid = 0

/-- No two valid slots carry the same key. -/
def UniqueKeys (table : List MsmHwFence) : Prop :=
  ∀ ⦃first second : Nat⦄ ⦃fence other : MsmHwFence⦄ ⦃key : Key⦄,
    table[first]? = some fence → table[second]? = some other →
    fence.Holds key → other.Holds key → first = second

/-- Free slots carry the zero key, as `_cleanup_hw_fence` leaves them. -/
def FreeCleared (table : List MsmHwFence) : Prop :=
  ∀ fence ∈ table, fence.valid = 0 → fence.key = 0

/-! ## Probe sequences -/

/-- The slot at which the probe for `request` starts. -/
def startSlot (table : List MsmHwFence) (request : Request) : Nat :=
  (hwFenceHashAMult * request.seqno * (request.context + (request.context - 1))
    + hwFenceHashCMult * request.context).toNat % table.length

/-- The slot visited at `step` of the probe for `request`. -/
def probeSlot (table : List MsmHwFence) (request : Request) (step : Nat) : Nat :=
  slot table.length (startSlot table request) step

/-- The fence seen at `step` of the probe for `request`. -/
def probed (table : List MsmHwFence) (request : Request) (step : Nat) :
    Option MsmHwFence :=
  table[probeSlot table request step]?

/-- The probe ends at this fence, by success or by the duplicate check of the
creating operations. -/
def Stops (request : Request) (fence : MsmHwFence) : Prop :=
  compareFnc request fence = true ∨
    (request.op.creates = true ∧ request.seqno = fence.seqId ∧ request.context = fence.ctxId)

/-- The probe for `request` ends at `step`. -/
def StopsAt (table : List MsmHwFence) (request : Request) (step : Nat) : Prop :=
  ∃ fence, probed table request step = some fence ∧ Stops request fence

variable {table : List MsmHwFence} {index : Nat} {fence : MsmHwFence}

theorem exists_probed (request : Request) (located : table[index]? = some fence) :
    ∃ step < table.length,
      probeSlot table request step = index ∧ probed table request step = some fence := by
  obtain ⟨bound, _⟩ := List.getElem?_eq_some_iff.mp located
  obtain ⟨step, stepLt, slotEq⟩ := exists_slot_eq (startSlot table request) bound
  exact ⟨step, stepLt, slotEq, by rw [probed, probeSlot, slotEq, located]⟩

theorem probed_isSome (request : Request) (positive : 0 < table.length) (step : Nat) :
    ∃ fence, probed table request step = some fence :=
  ⟨_, getElem?_eq_getElem (slot_lt positive _ _)⟩

/-- The hash that the loop carries into `step`. -/
def carriedHash (table : List MsmHwFence) (request : Request) (hash : Nat) : Nat → Prop
  | 0 => True
  | step + 1 => hash = probeSlot table request step

variable {request : Request}

theorem calculateHash_eq_slot {step hash : Nat} (bound : step < table.length)
    (carried : carriedHash table request hash step) :
    calculateHash table.length request.context request.seqno step hash =
      some (probeSlot table request step) := by
  cases step with
  | zero =>
    simp [calculateHash, probeSlot, slot, startSlot]
  | succ step =>
    have inside : ¬ table.length ≤ step + 1 := by omega
    change hash = probeSlot table request step at carried
    simp [calculateHash, inside, carried, probeSlot, slot_succ]

/-- One turn of the loop inside the table. -/
theorem lookupLoop_succ {remaining step hash : Nat} (bound : step < table.length)
    (carried : carriedHash table request hash step)
    (seen : probed table request step = some fence) :
    lookupLoop request table (remaining + 1) step hash =
      if compareFnc request fence then
        ⟨some (probeSlot table request step), probeSlot table request step,
          table.set (probeSlot table request step) (processFnc request fence)⟩
      else if request.op.creates
          ∧ request.seqno = fence.seqId ∧ request.context = fence.ctxId then
        ⟨none, probeSlot table request step, table⟩
      else
        lookupLoop request table remaining (step + 1) (probeSlot table request step) := by
  rw [lookupLoop, calculateHash_eq_slot bound carried]
  simp only [getHwFence]
  rw [probed] at seen
  simp only [seen]

/-- A turn of the loop that does not end the probe moves one slot further. -/
theorem lookupLoop_of_not_stops {remaining step hash : Nat} (bound : step < table.length)
    (carried : carriedHash table request hash step) (continues : ¬ StopsAt table request step) :
    lookupLoop request table (remaining + 1) step hash =
      lookupLoop request table remaining (step + 1) (probeSlot table request step) := by
  have positive : 0 < table.length := by omega
  obtain ⟨fence, seen⟩ := probed_isSome request positive step
  have notStops : ¬ Stops request fence := fun stops => continues ⟨fence, seen, stops⟩
  rw [Stops, not_or] at notStops
  rw [lookupLoop_succ bound carried seen]
  simp [notStops.1, notStops.2]

/-- The loop without a stopping step runs off the table. -/
theorem lookupLoop_of_none (never : ∀ step < table.length, ¬ StopsAt table request step)
    (remaining step hash : Nat) (total : remaining + step = table.length)
    (carried : carriedHash table request hash step) :
    (lookupLoop request table remaining step hash).fence = none ∧
      (lookupLoop request table remaining step hash).table = table := by
  induction remaining generalizing step hash with
  | zero => exact ⟨rfl, rfl⟩
  | succ remaining ih =>
    rw [lookupLoop_of_not_stops (by omega) carried (never step (by omega))]
    exact ih (step + 1) _ (by omega) rfl

/-- The loop skips to its first stopping step. -/
theorem lookupLoop_of_isFirst {last : Nat}
    (first : IsFirst (StopsAt table request) table.length last) (remaining step hash : Nat)
    (total : remaining + step = table.length) (before : step ≤ last)
    (carried : carriedHash table request hash step) :
    ∃ rest hash', carriedHash table request hash' last ∧
      lookupLoop request table remaining step hash =
        lookupLoop request table (rest + 1) last hash' := by
  induction remaining generalizing step hash with
  | zero =>
    have bound := first.1
    omega
  | succ remaining ih =>
    rcases Nat.eq_or_lt_of_le before with rfl | earlier
    · exact ⟨remaining, hash, carried, rfl⟩
    · rw [lookupLoop_of_not_stops (by omega) carried (first.2.2 step earlier)]
      exact ih (step + 1) _ (by omega) (by omega) rfl

/-- The lookup on a probe sequence that never stops. -/
theorem lookup_of_none (never : ∀ step < table.length, ¬ StopsAt table request step) :
    (hwFenceLookupAndProcess table request).fence = none ∧
      (hwFenceLookupAndProcess table request).table = table :=
  lookupLoop_of_none never table.length 0 _ (by omega) trivial

/-- The lookup on a probe sequence whose first stopping step is `last`. -/
theorem lookup_of_isFirst {last : Nat} (first : IsFirst (StopsAt table request) table.length last)
    (seen : probed table request last = some fence) :
    hwFenceLookupAndProcess table request =
      if compareFnc request fence then
        ⟨some (probeSlot table request last), probeSlot table request last,
          table.set (probeSlot table request last) (processFnc request fence)⟩
      else
        ⟨none, probeSlot table request last, table⟩ := by
  obtain ⟨rest, hash, carried, skipped⟩ :=
    lookupLoop_of_isFirst first table.length 0 (BitVec.allOnes 64 : U64).toNat
      (by omega) (by omega) trivial
  rw [hwFenceLookupAndProcess, skipped, lookupLoop_succ first.1 carried seen]
  by_cases compared : compareFnc request fence
  · simp [compared]
  · obtain ⟨stopped, seenStopped, stops⟩ := first.2.1
    have same : stopped = fence := some.inj (seenStopped.symm.trans seen)
    subst stopped
    have duplicate := stops.resolve_left compared
    simp [duplicate]

/-! ## Comparison with the partial map -/

/-- The lookup does what the map operation of the same name does: creation
adds an absent key while a slot is free, lookup returns the valid slot of a
present key, and destruction removes exactly its key. -/
def RefinesMap (table : List MsmHwFence) (request : Request) : Prop :=
  let result := hwFenceLookupAndProcess table request
  match request.op with
  | .create | .createJoin =>
    (result.fence.isSome ↔ ¬ Present table request.key ∧ HasFree table) ∧
      (result.fence = none → result.table = table) ∧
      ∀ index, result.fence = some index →
        ∃ fence, result.table[index]? = some fence ∧ fence.Holds request.key ∧
          contents result.table = update (contents table) request.key (some fence)
  | .findFence =>
    (result.fence.isSome ↔ Present table request.key) ∧
      result.table = table ∧
      ∀ index, result.fence = some index →
        ∃ fence, table[index]? = some fence ∧ fence.Holds request.key
  | .destroy =>
    (result.fence.isSome ↔ Present table request.key) ∧
      contents result.table = update (contents table) request.key none

/-- The probe order does not mislead the lookup. For creation, no free slot
precedes a slot holding the key; for lookup and destruction, the zero key is
sought only where every free slot comes after a slot holding it. -/
def ProbeOrdered (table : List MsmHwFence) (request : Request) : Prop :=
  match request.op with
  | .create | .createJoin =>
    ∀ later < table.length, ∀ holder ∈ probed table request later,
      holder.Holds request.key →
        ∀ step < later, ∀ fence ∈ probed table request step, fence.valid ≠ 0
  | .findFence | .destroy =>
    request.key = 0 →
      ∀ step < table.length, ∀ fence ∈ probed table request step,
        fence.valid = 0 →
          ∃ earlier < step, ∃ holder ∈ probed table request earlier, holder.Holds request.key

instance (table : List MsmHwFence) (request : Request) :
    Decidable (ProbeOrdered table request) := by
  unfold ProbeOrdered
  cases request.op <;> exact inferInstance

/-- The table after a lookup. -/
def afterLookup (table : List MsmHwFence) (request : Request) : List MsmHwFence :=
  (hwFenceLookupAndProcess table request).table

variable {key : Key}

theorem contents_eq_some_iff (unique : UniqueKeys table) :
    contents table key = some fence ↔ fence ∈ table ∧ fence.Holds key := by
  constructor
  · intro found
    exact ⟨mem_of_find?_eq_some found, by simpa using find?_some found⟩
  · rintro ⟨member, holds⟩
    cases found : contents table key with
    | none =>
      have absent := find?_eq_none.mp found fence member
      exact absurd (decide_eq_true holds) absent
    | some other =>
      have otherMem := mem_of_find?_eq_some found
      have otherHolds : other.Holds key := by simpa using find?_some found
      obtain ⟨first, firstAt⟩ := mem_iff_getElem?.mp member
      obtain ⟨second, secondAt⟩ := mem_iff_getElem?.mp otherMem
      have sameIndex := unique firstAt secondAt holds otherHolds
      subst sameIndex
      exact secondAt.symm.trans firstAt

theorem contents_eq_none_iff : contents table key = none ↔ ¬ Present table key := by
  simp [contents, Present]

/-- Writing a fence with a key that no other slot holds keeps keys unique. -/
theorem UniqueKeys.set (unique : UniqueKeys table) {written : MsmHwFence}
    (fresh : ∀ ⦃other fence key⦄, other ≠ index → table[other]? = some fence → fence.Holds key → ¬ written.Holds key)
    : UniqueKeys (table.set index written) := by
  intro first second fence other key firstAt secondAt fenceHolds otherHolds
  rw [getElem?_set] at firstAt secondAt
  by_cases firstEq : index = first
  · by_cases secondEq : index = second
    · exact firstEq.symm.trans secondEq
    · rw [if_neg secondEq] at secondAt
      rw [if_pos firstEq] at firstAt
      split at firstAt
      · cases firstAt
        exact absurd fenceHolds (fresh (Ne.symm secondEq) secondAt otherHolds)
      · cases firstAt
  · rw [if_neg firstEq] at firstAt
    by_cases secondEq : index = second
    · rw [if_pos secondEq] at secondAt
      split at secondAt
      · cases secondAt
        exact absurd otherHolds (fresh (Ne.symm firstEq) firstAt fenceHolds)
      · cases secondAt
    · rw [if_neg secondEq] at secondAt
      exact unique firstAt secondAt fenceHolds otherHolds

/-- The fences of an updated table are the written one and those of the other
slots. -/
theorem mem_set_iff (bound : index < table.length) (written fence : MsmHwFence) :
    fence ∈ table.set index written ↔
      fence = written ∨ ∃ other, other ≠ index ∧ table[other]? = some fence := by
  rw [mem_iff_getElem?]
  constructor
  · rintro ⟨other, located⟩
    rw [getElem?_set] at located
    by_cases same : index = other
    · subst same
      rw [if_pos rfl, if_pos bound] at located
      exact .inl (some.inj located).symm
    · rw [if_neg same] at located
      exact .inr ⟨other, Ne.symm same, located⟩
  · rintro (rfl | ⟨other, different, located⟩)
    · exact ⟨index, getElem?_set_self bound⟩
    · exact ⟨other, by rw [getElem?_set_ne different.symm, located]⟩

/-- Reserving a free slot for an absent key adds exactly that key. -/
theorem contents_set_of_free (unique : UniqueKeys table) {free written : MsmHwFence}
    (located : table[index]? = some free) (isFree : free.valid = 0) (absent : ¬ Present table key)
    (holds : written.Holds key) :
    UniqueKeys (table.set index written) ∧
      contents (table.set index written) = update (contents table) key (some written) := by
  obtain ⟨bound, _⟩ := List.getElem?_eq_some_iff.mp located
  have uniqueSet : UniqueKeys (table.set index written) := by
    refine unique.set ?_
    intro other fence otherKey _ otherAt fenceHolds writtenHolds
    have keyEq : otherKey = key := writtenHolds.2.symm.trans holds.2
    subst keyEq
    exact absent ⟨fence, mem_of_getElem? otherAt, fenceHolds⟩
  refine ⟨uniqueSet, ?_⟩
  funext sought
  ext fence
  rw [contents_eq_some_iff uniqueSet, mem_set_iff bound]
  by_cases same : sought = key
  · subst same
    rw [update_self, some.injEq]
    constructor
    · rintro ⟨rfl | ⟨other, _, otherAt⟩, fenceHolds⟩
      · rfl
      · exact absurd ⟨fence, mem_of_getElem? otherAt, fenceHolds⟩ absent
    · rintro rfl
      exact ⟨.inl rfl, holds⟩
  · rw [update_of_ne same, contents_eq_some_iff unique]
    constructor
    · rintro ⟨rfl | ⟨other, _, otherAt⟩, fenceHolds⟩
      · exact absurd (fenceHolds.2.symm.trans holds.2) same
      · exact ⟨mem_of_getElem? otherAt, fenceHolds⟩
    · rintro ⟨member, fenceHolds⟩
      obtain ⟨other, otherAt⟩ := mem_iff_getElem?.mp member
      refine ⟨.inr ⟨other, ?_, otherAt⟩, fenceHolds⟩
      rintro rfl
      rw [located, some.injEq] at otherAt
      exact fenceHolds.1 (otherAt ▸ isFree)

/-- Clearing the slot that holds a key removes exactly that key. -/
theorem contents_set_of_holds (unique : UniqueKeys table) {old written : MsmHwFence}
    (located : table[index]? = some old) (holds : old.Holds key) (isFree : written.valid = 0) :
    UniqueKeys (table.set index written) ∧
      contents (table.set index written) = update (contents table) key none := by
  obtain ⟨bound, _⟩ := List.getElem?_eq_some_iff.mp located
  have uniqueSet : UniqueKeys (table.set index written) :=
    unique.set fun _ _ _ _ _ _ writtenHolds => writtenHolds.1 isFree
  refine ⟨uniqueSet, ?_⟩
  funext sought
  ext fence
  rw [contents_eq_some_iff uniqueSet, mem_set_iff bound]
  by_cases same : sought = key
  · subst same
    rw [update_self]
    constructor
    · rintro ⟨rfl | ⟨other, different, otherAt⟩, fenceHolds⟩
      · exact absurd isFree fenceHolds.1
      · exact absurd (unique otherAt located fenceHolds holds) different
    · intro impossible
      cases impossible
  · rw [update_of_ne same, contents_eq_some_iff unique]
    constructor
    · rintro ⟨rfl | ⟨other, _, otherAt⟩, fenceHolds⟩
      · exact absurd isFree fenceHolds.1
      · exact ⟨mem_of_getElem? otherAt, fenceHolds⟩
    · rintro ⟨member, fenceHolds⟩
      obtain ⟨other, otherAt⟩ := mem_iff_getElem?.mp member
      refine ⟨.inr ⟨other, ?_, otherAt⟩, fenceHolds⟩
      rintro rfl
      rw [located, some.injEq] at otherAt
      exact same (fenceHolds.2.symm.trans (otherAt ▸ holds.2))

/-- The table invariant under which keys determine slots. -/
structure WellFormed (table : List MsmHwFence) : Prop where
  unique : UniqueKeys table
  cleared : FreeCleared table

theorem wellFormed_replicate (size : Nat) : WellFormed (replicate size zeroFence) where
  unique := by
    intro first second fence other key firstAt _ fenceHolds _
    have isZero := eq_of_mem_replicate (mem_of_getElem? firstAt)
    subst isZero
    exact absurd rfl fenceHolds.1
  cleared := by
    intro fence member _
    have isZero := eq_of_mem_replicate member
    subst isZero
    rfl

/-- Two steps at which the probe sees holders of one key coincide. -/
theorem WellFormed.step_eq_of_holds (wellFormed : WellFormed table) {first second : Nat}
    {fence other : MsmHwFence} (firstLt : first < table.length) (secondLt : second < table.length)
    (firstSeen : probed table request first = some fence)
    (secondSeen : probed table request second = some other) (fenceHolds : fence.Holds key)
    (otherHolds : other.Holds key) : first = second := by
  have slotEq := wellFormed.unique firstSeen secondSeen fenceHolds otherHolds
  rcases Nat.lt_trichotomy first second with before | same | after
  · exact absurd slotEq (slot_ne_of_lt before secondLt)
  · exact same
  · exact absurd slotEq.symm (slot_ne_of_lt after firstLt)

/-! ### Creation -/

section Creation

variable {table : List MsmHwFence} {request : Request}

section

variable (creates : request.op.creates = true)

include creates

theorem compareFnc_of_creates (fence : MsmHwFence) :
    compareFnc request fence = true ↔ fence.valid = 0 := by
  cases op : request.op <;> simp_all [LookupOp.creates, compareFnc, isHwFenceFree]

theorem stops_of_creates (fence : MsmHwFence) :
    Stops request fence ↔ fence.valid = 0 ∨ fence.key = request.key := by
  rw [Stops, compareFnc_of_creates creates]
  simp only [MsmHwFence.key, Request.key, Prod.mk.injEq]
  tauto

theorem processFnc_holds (fence : MsmHwFence) : (processFnc request fence).Holds request.key := by
  cases op : request.op <;>
    simp_all [LookupOp.creates, processFnc, reserveHwFence, reserveJoinFence,
      MsmHwFence.Holds, MsmHwFence.key, Request.key]

theorem refinesMap_of_creates :
    RefinesMap table request ↔
      let result := hwFenceLookupAndProcess table request
      (result.fence.isSome ↔ ¬ Present table request.key ∧ HasFree table) ∧
        (result.fence = none → result.table = table) ∧
        ∀ index, result.fence = some index →
          ∃ fence, result.table[index]? = some fence ∧ fence.Holds request.key ∧
            contents result.table = update (contents table) request.key (some fence) := by
  cases op : request.op <;> simp_all [LookupOp.creates, RefinesMap]

theorem probeOrdered_of_creates :
    ProbeOrdered table request ↔
      ∀ later < table.length, ∀ holder ∈ probed table request later,
        holder.Holds request.key →
          ∀ step < later, ∀ fence ∈ probed table request step, fence.valid ≠ 0 := by
  cases op : request.op <;> simp_all [LookupOp.creates, ProbeOrdered]

end

/-- Creation ends at a free slot, at its own key, or nowhere. -/
theorem creation_cases (table : List MsmHwFence) (creates : request.op.creates = true) :
    (∃ last fence, IsFirst (StopsAt table request) table.length last ∧
        probed table request last = some fence ∧ fence.valid = 0 ∧
        hwFenceLookupAndProcess table request =
          ⟨some (probeSlot table request last), probeSlot table request last,
            table.set (probeSlot table request last) (processFnc request fence)⟩) ∨
      (∃ last fence, IsFirst (StopsAt table request) table.length last ∧
        probed table request last = some fence ∧ fence.Holds request.key ∧
        (hwFenceLookupAndProcess table request).fence = none ∧
        (hwFenceLookupAndProcess table request).table = table) ∨
      (¬ HasFree table ∧
        (hwFenceLookupAndProcess table request).fence = none ∧
        (hwFenceLookupAndProcess table request).table = table) := by
  rcases exists_isFirst_or_none (StopsAt table request) table.length with
    ⟨last, first⟩ | never
  · obtain ⟨fence, seen, stops⟩ := first.2.1
    have result := lookup_of_isFirst first seen
    by_cases free : fence.valid = 0
    · left
      have compared := (compareFnc_of_creates creates fence).mpr free
      rw [if_pos compared] at result
      exact ⟨last, fence, first, seen, free, result⟩
    · right; left
      have compared : ¬ compareFnc request fence = true :=
        fun h => free ((compareFnc_of_creates creates fence).mp h)
      rw [if_neg compared] at result
      have keyEq := ((stops_of_creates creates fence).mp stops).resolve_left free
      exact ⟨last, fence, first, seen, ⟨free, keyEq⟩, by rw [result], by rw [result]⟩
  · right; right
    refine ⟨?_, lookup_of_none never⟩
    rintro ⟨fence, member, free⟩
    obtain ⟨index, located⟩ := mem_iff_getElem?.mp member
    obtain ⟨step, stepLt, _, seen⟩ := exists_probed request located
    exact never step stepLt ⟨fence, seen, (stops_of_creates creates fence).mpr (.inl free)⟩

theorem WellFormed.creation_refines_iff (wellFormed : WellFormed table)
    (creates : request.op.creates = true) :
    RefinesMap table request ↔ ProbeOrdered table request := by
  rw [refinesMap_of_creates creates, probeOrdered_of_creates creates]
  constructor
  · rintro ⟨succeeds, _, _⟩ later laterLt holder holderSeen holds step before fence seen free
    have present : Present table request.key :=
      ⟨holder, mem_of_getElem? holderSeen, holds⟩
    have stopsStep : StopsAt table request step :=
      ⟨fence, seen, (stops_of_creates creates fence).mpr (.inl free)⟩
    rcases creation_cases table creates with
      ⟨last, stopped, first, stoppedSeen, _, result⟩ |
      ⟨last, stopped, first, stoppedSeen, stoppedHolds, _, _⟩ | ⟨noFree, _, _⟩
    · have isSome : (hwFenceLookupAndProcess table request).fence.isSome := by
        rw [result]; rfl
      exact (succeeds.mp isSome).1 present
    · have lastLe := first.le_of_hit stopsStep
      have sameStep := wellFormed.step_eq_of_holds first.1 laterLt stoppedSeen holderSeen
        stoppedHolds holds
      omega
    · exact noFree ⟨fence, mem_of_getElem? seen, free⟩
  · intro ordered
    rcases creation_cases table creates with
      ⟨last, stopped, first, stoppedSeen, free, result⟩ |
      ⟨last, stopped, first, stoppedSeen, stoppedHolds, fenceNone, tableEq⟩ |
      ⟨noFree, fenceNone, tableEq⟩
    · have absent : ¬ Present table request.key := by
        rintro ⟨holder, member, holds⟩
        obtain ⟨index, located⟩ := mem_iff_getElem?.mp member
        obtain ⟨later, laterLt, _, holderSeen⟩ := exists_probed request located
        have lastLe := first.le_of_hit
          ⟨holder, holderSeen, (stops_of_creates creates holder).mpr (.inr holds.2)⟩
        rcases Nat.eq_or_lt_of_le lastLe with rfl | before
        · rw [stoppedSeen, some.injEq] at holderSeen
          exact holds.1 (holderSeen ▸ free)
        · exact ordered later laterLt holder holderSeen holds last before stopped stoppedSeen free
      have written := contents_set_of_free wellFormed.unique stoppedSeen free absent
        (processFnc_holds creates stopped)
      rw [result]
      refine ⟨?_, ?_, ?_⟩
      · simp only [isSome_some, true_iff]
        exact ⟨absent, stopped, mem_of_getElem? stoppedSeen, free⟩
      · intro impossible
        cases impossible
      · intro index indexEq
        cases indexEq
        obtain ⟨bound, _⟩ := List.getElem?_eq_some_iff.mp stoppedSeen
        exact ⟨processFnc request stopped, List.getElem?_set_self bound,
          processFnc_holds creates stopped, written.2⟩
    · have present : Present table request.key :=
        ⟨stopped, mem_of_getElem? stoppedSeen, stoppedHolds⟩
      simp [fenceNone, tableEq, present]
    · simp [fenceNone, tableEq, noFree]

/-- Creation in probe order keeps the table well formed. -/
theorem WellFormed.afterCreation (wellFormed : WellFormed table)
    (creates : request.op.creates = true) (ordered : ProbeOrdered table request) :
    WellFormed (afterLookup table request) := by
  have refines := (refinesMap_of_creates creates).mp
    ((wellFormed.creation_refines_iff creates).mpr ordered)
  rcases creation_cases table creates with
    ⟨last, stopped, first, stoppedSeen, free, result⟩ |
    ⟨_, _, _, _, _, _, tableEq⟩ | ⟨_, _, tableEq⟩
  · have isSome : (hwFenceLookupAndProcess table request).fence.isSome := by
      rw [result]; rfl
    have absent := (refines.1.mp isSome).1
    obtain ⟨bound, _⟩ := List.getElem?_eq_some_iff.mp stoppedSeen
    have holds := processFnc_holds creates stopped
    rw [afterLookup, result]
    refine ⟨(contents_set_of_free wellFormed.unique stoppedSeen free absent holds).1, ?_⟩
    intro fence member isFree
    rcases (mem_set_iff bound _ _).mp member with rfl | ⟨other, _, otherAt⟩
    · exact absurd isFree holds.1
    · exact wellFormed.cleared fence (mem_of_getElem? otherAt) isFree
  · rw [afterLookup, tableEq]
    exact wellFormed
  · rw [afterLookup, tableEq]
    exact wellFormed

end Creation

/-! ### Lookup and destruction -/

section Matching

variable {table : List MsmHwFence} {request : Request}

theorem compareFnc_of_matches (matching : request.op.creates = false) (fence : MsmHwFence) :
    compareFnc request fence = true ↔ fence.key = request.key := by
  cases op : request.op <;>
    simp_all [LookupOp.creates, compareFnc, hwFenceMatch, MsmHwFence.key, Request.key]

theorem stops_of_matches (matching : request.op.creates = false) (fence : MsmHwFence) :
    Stops request fence ↔ fence.key = request.key := by
  rw [Stops, compareFnc_of_matches matching]
  simp [matching]

theorem probeOrdered_of_matches (matching : request.op.creates = false) :
    ProbeOrdered table request ↔
      (request.key = 0 →
        ∀ step < table.length, ∀ fence ∈ probed table request step,
          fence.valid = 0 →
            ∃ earlier < step, ∃ holder ∈ probed table request earlier,
              holder.Holds request.key) := by
  cases op : request.op <;> simp_all [LookupOp.creates, ProbeOrdered]

/-- Lookup and destruction end at the first slot that carries the key, valid or
not. -/
theorem matching_cases (table : List MsmHwFence) (matching : request.op.creates = false) :
    (∃ last fence, IsFirst (StopsAt table request) table.length last ∧
        probed table request last = some fence ∧ fence.key = request.key ∧
        hwFenceLookupAndProcess table request =
          ⟨some (probeSlot table request last), probeSlot table request last,
            table.set (probeSlot table request last) (processFnc request fence)⟩) ∨
      ((∀ fence ∈ table, fence.key ≠ request.key) ∧
        (hwFenceLookupAndProcess table request).fence = none ∧
        (hwFenceLookupAndProcess table request).table = table) := by
  rcases exists_isFirst_or_none (StopsAt table request) table.length with
    ⟨last, first⟩ | never
  · left
    obtain ⟨fence, seen, stops⟩ := first.2.1
    have keyEq := (stops_of_matches matching fence).mp stops
    have result := lookup_of_isFirst first seen
    rw [if_pos ((compareFnc_of_matches matching fence).mpr keyEq)] at result
    exact ⟨last, fence, first, seen, keyEq, result⟩
  · right
    refine ⟨?_, lookup_of_none never⟩
    intro fence member keyEq
    obtain ⟨index, located⟩ := mem_iff_getElem?.mp member
    obtain ⟨step, stepLt, _, seen⟩ := exists_probed request located
    exact never step stepLt ⟨fence, seen, (stops_of_matches matching fence).mpr keyEq⟩

variable {fence : MsmHwFence}

/-- In probe order the first slot that carries the key is valid. -/
theorem WellFormed.valid_of_isFirst (wellFormed : WellFormed table)
    (matching : request.op.creates = false) (ordered : ProbeOrdered table request) {last : Nat}
    (first : IsFirst (StopsAt table request) table.length last)
    (seen : probed table request last = some fence) (keyEq : fence.key = request.key)
    : fence.Holds request.key := by
  refine ⟨fun free => ?_, keyEq⟩
  have keyZero : request.key = 0 :=
    keyEq.symm.trans (wellFormed.cleared fence (mem_of_getElem? seen) free)
  obtain ⟨earlier, before, holder, holderSeen, holds⟩ :=
    (probeOrdered_of_matches matching).mp ordered keyZero last first.1 fence seen free
  exact first.2.2 earlier before
    ⟨holder, holderSeen, (stops_of_matches matching holder).mpr holds.2⟩

/-- A free slot makes a lookup by the zero key succeed. -/
theorem WellFormed.exists_isFirst_of_free (wellFormed : WellFormed table)
    (matching : request.op.creates = false) (keyZero : request.key = 0) {step : Nat}
    (seen : probed table request step = some fence) (free : fence.valid = 0) :
    ∃ last stopped, last ≤ step ∧ last < table.length ∧
      probed table request last = some stopped ∧ stopped.key = request.key ∧
      hwFenceLookupAndProcess table request =
        ⟨some (probeSlot table request last), probeSlot table request last,
          table.set (probeSlot table request last) (processFnc request stopped)⟩ := by
  have fenceKey : fence.key = request.key :=
    (wellFormed.cleared fence (mem_of_getElem? seen) free).trans keyZero.symm
  rcases matching_cases table matching with
    ⟨last, stopped, first, stoppedSeen, keyEq, result⟩ | ⟨noKey, _, _⟩
  · have lastLe := first.le_of_hit ⟨fence, seen, (stops_of_matches matching fence).mpr fenceKey⟩
    exact ⟨last, stopped, lastLe, first.1, stoppedSeen, keyEq, result⟩
  · exact absurd fenceKey (noKey fence (mem_of_getElem? seen))

theorem not_present_of_no_key (noKey : ∀ fence ∈ table, fence.key ≠ request.key) :
    ¬ Present table request.key := by
  rintro ⟨fence, member, holds⟩
  exact noKey fence member holds.2

theorem set_probeSlot_self {step : Nat} (seen : probed table request step = some fence) :
    table.set (probeSlot table request step) fence = table := by
  obtain ⟨bound, located⟩ := List.getElem?_eq_some_iff.mp seen
  rw [← located]
  exact set_getElem_self bound

theorem WellFormed.find_refines_iff (wellFormed : WellFormed table) (op : request.op = .findFence) :
    RefinesMap table request ↔ ProbeOrdered table request := by
  have matching : request.op.creates = false := by rw [op]; rfl
  have process : ∀ fence, processFnc request fence = fence := by simp [processFnc, op, fenceFound]
  rw [probeOrdered_of_matches matching]
  simp only [RefinesMap, op]
  constructor
  · rintro ⟨_, _, returned⟩ keyZero step stepLt fence seen free
    obtain ⟨last, stopped, lastLe, _, stoppedSeen, _, result⟩ :=
      wellFormed.exists_isFirst_of_free matching keyZero seen free
    obtain ⟨found, foundAt, foundHolds⟩ := returned _ (by rw [result])
    have foundEq : found = stopped := some.inj (foundAt.symm.trans stoppedSeen)
    subst foundEq
    refine ⟨last, lt_of_le_of_ne lastLe ?_, found, stoppedSeen, foundHolds⟩
    rintro rfl
    have sameFence : fence = found := some.inj (seen.symm.trans stoppedSeen)
    exact foundHolds.1 (sameFence ▸ free)
  · intro ordered
    rcases matching_cases table matching with
      ⟨last, stopped, first, stoppedSeen, keyEq, result⟩ | ⟨noKey, fenceNone, tableEq⟩
    · have holds := wellFormed.valid_of_isFirst matching
        ((probeOrdered_of_matches matching).mpr ordered) first stoppedSeen keyEq
      rw [result, process, set_probeSlot_self stoppedSeen]
      refine ⟨?_, rfl, ?_⟩
      · simp only [isSome_some, true_iff]
        exact ⟨stopped, mem_of_getElem? stoppedSeen, holds⟩
      · intro index indexEq
        cases indexEq
        exact ⟨stopped, stoppedSeen, holds⟩
    · have absent := not_present_of_no_key noKey
      simp [fenceNone, tableEq, absent]

theorem unreserveHwFence_valid (fence : MsmHwFence) : (unreserveHwFence fence).valid = 0 := rfl

theorem unreserveHwFence_key (fence : MsmHwFence) : (unreserveHwFence fence).key = 0 := rfl

theorem WellFormed.destroy_refines_iff (wellFormed : WellFormed table)
    (op : request.op = .destroy) : RefinesMap table request ↔ ProbeOrdered table request := by
  have matching : request.op.creates = false := by rw [op]; rfl
  have process : ∀ fence, processFnc request fence = unreserveHwFence fence := by
    simp [processFnc, op]
  rw [probeOrdered_of_matches matching]
  simp only [RefinesMap, op]
  constructor
  · rintro ⟨succeeds, removed⟩ keyZero step stepLt fence seen free
    obtain ⟨last, stopped, lastLe, lastLt, stoppedSeen, keyEq, result⟩ :=
      wellFormed.exists_isFirst_of_free matching keyZero seen free
    rw [result] at succeeds removed
    obtain ⟨holder, member, holds⟩ := succeeds.mp rfl
    by_cases stoppedFree : stopped.valid = 0
    · have gone : ¬ Present (table.set (probeSlot table request last)
          (processFnc request stopped)) request.key := by
        rw [← contents_eq_none_iff, removed, update_self]
      obtain ⟨bound, _⟩ := List.getElem?_eq_some_iff.mp stoppedSeen
      obtain ⟨other, otherAt⟩ := mem_iff_getElem?.mp member
      refine absurd ⟨holder, (mem_set_iff bound _ _).mpr (.inr ⟨other, ?_, otherAt⟩), holds⟩ gone
      rintro rfl
      have sameFence : holder = stopped := some.inj (otherAt.symm.trans stoppedSeen)
      exact holds.1 (sameFence ▸ stoppedFree)
    · refine ⟨last, lt_of_le_of_ne lastLe ?_, stopped, stoppedSeen, stoppedFree, keyEq⟩
      rintro rfl
      have sameFence : fence = stopped := some.inj (seen.symm.trans stoppedSeen)
      exact stoppedFree (sameFence ▸ free)
  · intro ordered
    rcases matching_cases table matching with
      ⟨last, stopped, first, stoppedSeen, keyEq, result⟩ | ⟨noKey, fenceNone, tableEq⟩
    · have holds := wellFormed.valid_of_isFirst matching
        ((probeOrdered_of_matches matching).mpr ordered) first stoppedSeen keyEq
      rw [result, process]
      refine ⟨?_, ?_⟩
      · simp only [isSome_some, true_iff]
        exact ⟨stopped, mem_of_getElem? stoppedSeen, holds⟩
      · exact (contents_set_of_holds wellFormed.unique stoppedSeen holds
          (unreserveHwFence_valid stopped)).2
    · have absent := not_present_of_no_key noKey
      have noneEq := contents_eq_none_iff.mpr absent
      simp only [fenceNone, tableEq, absent, isSome_none, Bool.false_eq_true, true_and]
      rw [← noneEq, update_eq_self]

/-- Lookup and destruction in probe order keep the table well formed. -/
theorem WellFormed.afterMatching (wellFormed : WellFormed table)
    (matching : request.op.creates = false) (ordered : ProbeOrdered table request) :
    WellFormed (afterLookup table request) := by
  rcases matching_cases table matching with
    ⟨last, stopped, first, stoppedSeen, keyEq, result⟩ | ⟨_, _, tableEq⟩
  · have holds := wellFormed.valid_of_isFirst matching ordered first stoppedSeen keyEq
    rw [afterLookup, result]
    cases op : request.op with
    | create | createJoin => simp [LookupOp.creates, op] at matching
    | findFence =>
      have process : processFnc request stopped = stopped := by simp [processFnc, op, fenceFound]
      rw [process, set_probeSlot_self stoppedSeen]
      exact wellFormed
    | destroy =>
      have process : processFnc request stopped = unreserveHwFence stopped := by
        simp [processFnc, op]
      obtain ⟨bound, _⟩ := List.getElem?_eq_some_iff.mp stoppedSeen
      rw [process]
      refine ⟨(contents_set_of_holds wellFormed.unique stoppedSeen holds
        (unreserveHwFence_valid stopped)).1, ?_⟩
      intro fence member free
      rcases (mem_set_iff bound _ _).mp member with rfl | ⟨other, _, otherAt⟩
      · exact unreserveHwFence_key stopped
      · exact wellFormed.cleared fence (mem_of_getElem? otherAt) free
  · rw [afterLookup, tableEq]
    exact wellFormed

end Matching

/-! ## Whole runs -/

theorem WellFormed.refines_iff (wellFormed : WellFormed table) (request : Request) :
    RefinesMap table request ↔ ProbeOrdered table request := by
  cases op : request.op with
  | create | createJoin => exact wellFormed.creation_refines_iff (by rw [op]; rfl)
  | findFence => exact wellFormed.find_refines_iff op
  | destroy => exact wellFormed.destroy_refines_iff op

theorem WellFormed.afterLookup (wellFormed : WellFormed table)
    (ordered : ProbeOrdered table request) : WellFormed (afterLookup table request) := by
  cases creates : request.op.creates with
  | true => exact wellFormed.afterCreation creates ordered
  | false => exact wellFormed.afterMatching creates ordered

/-- In every run from the cleared table whose lookups all meet `ProbeOrdered`,
valid slots carry distinct keys, and a further lookup acts as the map
operation exactly when it meets `ProbeOrdered` as well. -/
theorem lookup_refines_map_iff_probeOrdered (size : Nat) {table : List MsmHwFence}
    (reached : Reaches (guarded ProbeOrdered afterLookup) (replicate size zeroFence) table) :
    UniqueKeys table ∧ ∀ request, RefinesMap table request ↔ ProbeOrdered table request := by
  have wellFormed : WellFormed table := by
    refine reached.invariant (wellFormed_replicate size) ?_
    rintro state request _ holds ⟨ordered, rfl⟩
    exact holds.afterLookup ordered
  exact ⟨wellFormed.unique, wellFormed.refines_iff⟩

/-- A table of two slots in which one fence was created. -/
theorem lookup_refines_map_iff_probeOrdered_after_create :
    UniqueKeys (afterLookup (replicate 2 zeroFence) ⟨.create, 1, 1, 0, 0, 0⟩) ∧
      ∀ request,
        RefinesMap (afterLookup (replicate 2 zeroFence) ⟨.create, 1, 1, 0, 0, 0⟩) request ↔
          ProbeOrdered (afterLookup (replicate 2 zeroFence) ⟨.create, 1, 1, 0, 0, 0⟩)
            request :=
  lookup_refines_map_iff_probeOrdered 2 (Reaches.tail (Reaches.refl _ _) ⟨by decide, rfl⟩)

/-- The lookups that leave two valid slots with one key behind: the keys
`(1, 1)` and `(1, 3)` start at the same slot of a table of two. -/
def duplicatingRun : List Request :=
  [⟨.create, 1, 1, 0, 0, 0⟩, ⟨.create, 1, 3, 0, 0, 0⟩,
    ⟨.destroy, 1, 1, 0, 0, 0⟩, ⟨.create, 1, 3, 0, 0, 0⟩]

theorem reaches_foldl_afterLookup (requests : List Request) (table : List MsmHwFence) :
    Reaches (guarded (fun _ _ => True) afterLookup) table (requests.foldl afterLookup table) := by
  induction requests generalizing table with
  | nil => exact Reaches.refl _ _
  | cons request requests inductionHypothesis =>
    exact (Reaches.tail (Reaches.refl _ _) ⟨trivial, rfl⟩).trans
      (inductionHypothesis (afterLookup table request))

/-- Creation past a hole duplicates a key that is present behind it. -/
theorem not_forall_reached_uniqueKeys_and_refinesMap :
    ¬ ∀ (size : Nat) (table : List MsmHwFence),
      Reaches (guarded (fun _ _ => True) afterLookup) (replicate size zeroFence) table →
        UniqueKeys table ∧ ∀ request, RefinesMap table request := by
  intro refines
  have unique :=
    (refines 2 _ (reaches_foldl_afterLookup duplicatingRun _)).1
  have duplicated : ∃ fence other : MsmHwFence,
      (duplicatingRun.foldl afterLookup (replicate 2 zeroFence))[0]? = some fence ∧
        (duplicatingRun.foldl afterLookup (replicate 2 zeroFence))[1]? = some other ∧
          fence.Holds (1, 3) ∧ other.Holds (1, 3) :=
    ⟨_, _, rfl, rfl, by decide, by decide⟩
  obtain ⟨fence, other, fenceAt, otherAt, fenceHolds, otherHolds⟩ := duplicated
  exact absurd (unique fenceAt otherAt fenceHolds otherHolds) (by decide)

end Sm8650.HwFence
