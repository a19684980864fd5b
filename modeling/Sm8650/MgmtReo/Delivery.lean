import Sm8650.MgmtReo.Order
import Mathlib.Data.List.Chain

/-!
# Management frame reordering: every run delivers in order

The order of the sequence of frames is kept by every section as long as each move finds
fewer ready entries than its 16-bit count can hold, or a multiple of that number.
-/

namespace Sm8650.MgmtReo

open Data Transition List ReoContext

/-- The descriptor has kept its frame and is in no list. -/
def SameFrame (desc next : FrameDescriptor) : Prop :=
  next.rxParams = desc.rxParams ∧ next.queuedList = desc.queuedList

theorem checkFrameSanity_spec (config : Config) (desc : FrameDescriptor) :
    (checkFrameSanity config desc).1.checkFailed = false ∧
      SameFrame desc (checkFrameSanity config desc).2 := by
  unfold checkFrameSanity
  split
  · split <;> exact ⟨rfl, rfl, rfl⟩
  · exact ⟨rfl, rfl, rfl⟩

theorem updateHostSnapshot_spec (config : Config) (hostSs : Snapshot) (desc : FrameDescriptor) :
    (updateHostSnapshot config hostSs desc).1.checkFailed = false ∧
      SameFrame desc (updateHostSnapshot config hostSs desc).2.2 := by
  have checkedFrame : SameFrame desc (checkPktCtr config hostSs desc).2 := by
    unfold checkPktCtr handleOutOfOrderPktCtr
    split
    · split <;> exact ⟨rfl, rfl⟩
    · exact ⟨rfl, rfl⟩
  unfold updateHostSnapshot
  dsimp only
  split
  case isFalse => exact ⟨rfl, rfl, rfl⟩
  split
  case isFalse => exact ⟨rfl, rfl, rfl⟩
  split
  case isFalse => exact ⟨rfl, checkedFrame⟩
  split <;> exact ⟨rfl, checkedFrame⟩

theorem calculateWaitCount_spec (result : WaitCountResult) (desc : FrameDescriptor) :
    (calculateWaitCount result desc).1.checkFailed = false ∧
      SameFrame desc (calculateWaitCount result desc).2 := by
  cases result <;> exact ⟨rfl, rfl, rfl⟩

variable {ctx : ReoContext}

/-- The section of an arrival fails no check and keeps the order. -/
theorem algoEntry_spec (config : Config) {arrival : Arrival} (ordered : Ordered ctx)
    (instant : arrival.rxParams.Instant) (window : InWindow (arrival.rxParams :: ctx.alive)) :
    (algoEntry config ctx arrival).status.checkFailed = false ∧
      Ordered (algoEntry config ctx arrival).ctx ∧
      (algoEntry config ctx arrival).ctx.lastReleasedFrame = ctx.lastReleasedFrame := by
  unfold algoEntry
  dsimp only
  split
  case isFalse => exact ⟨rfl, ordered, rfl⟩
  obtain ⟨saneStatus, saneFrame, saneQueue⟩ := checkFrameSanity_spec config arrival.descriptor
  generalize checkFrameSanity config arrival.descriptor = sane at *
  split
  case isFalse => exact ⟨saneStatus, ordered, rfl⟩
  obtain ⟨updatedStatus, updatedFrame, updatedQueue⟩ :=
    updateHostSnapshot_spec config (ctx.hostSnapshot arrival.rxParams.linkId) sane.2
  generalize updateHostSnapshot config (ctx.hostSnapshot arrival.rxParams.linkId) sane.2
    = updated at *
  -- The host snapshot is no part of the order.
  have snapshotOrdered : ∀ hostSnapshot, Ordered { ctx with hostSnapshot := hostSnapshot } :=
    fun _ => ordered.of_alive_eq rfl ordered.egressReady
  split
  case isFalse => exact ⟨updatedStatus, snapshotOrdered _, rfl⟩
  split
  · exact ⟨rfl, snapshotOrdered _, rfl⟩
  obtain ⟨waitingStatus, waitingFrame, waitingQueue⟩ :=
    calculateWaitCount_spec arrival.waitCountResult updated.2.2
  generalize calculateWaitCount arrival.waitCountResult updated.2.2 = waiting at *
  split
  case isFalse => exact ⟨waitingStatus, snapshotOrdered _, rfl⟩
  have sameFrame : waiting.2.rxParams = arrival.rxParams := by
    rw [waitingFrame, updatedFrame, saneFrame]
    rfl
  have unqueued : waiting.2.queuedList = .invalid := by
    rw [waitingQueue, updatedQueue, saneQueue]
    rfl
  apply updateLists_spec (snapshotOrdered _) _ unqueued
  · rw [sameFrame]
    exact window
  · rw [sameFrame]
    exact instant

/-- The 16-bit count of the ready entries is the size of the list split off, or zero. -/
def CountFits (config : Config) (ctx : ReoContext) : Prop :=
  numFramesReadyToDeliver config ctx = 0 ∨
    numFramesReadyToDeliver config ctx = listSize (readyEntries config ctx).1

instance (config : Config) (ctx : ReoContext) : Decidable (CountFits config ctx) :=
  inferInstanceAs (Decidable (_ ∨ _))

/-- A move whose count fits fails no check: it only shifts the border of the lists. -/
theorem moveEntries_spec {config : Config} (ordered : Ordered ctx) (fits : CountFits config ctx) :
    (moveEntriesIngressToEgressList config ctx).1.checkFailed = false ∧
      Ordered (moveEntriesIngressToEgressList config ctx).2 ∧
      (moveEntriesIngressToEgressList config ctx).2.lastReleasedFrame = ctx.lastReleasedFrame := by
  have frames := framesOf_collectReady
    (listSize ctx.ingressList - config.ingressMaxListSize) ctx.ingressList
  have ready := ready_collectReady
    (listSize ctx.ingressList - config.ingressMaxListSize) ctx.ingressList
  change framesOf (readyEntries config ctx).1 ++ framesOf (readyEntries config ctx).2 = _ at frames
  unfold moveEntriesIngressToEgressList
  dsimp only
  split
  · refine ⟨rfl, ordered.of_alive_eq ?_ ordered.egressReady, rfl⟩
    rw [alive, framesOf_append, frames]
    rfl
  · rename_i nonzero
    rw [if_neg (not_not.2 (fits.resolve_left nonzero))]
    have sameAlive : alive { ctx with
        ingressList := (readyEntries config ctx).2
        egressList := handleEgressOverflow config.egressMaxListSize
          (ctx.egressList ++ (readyEntries config ctx).1) } = ctx.alive := by
      rw [alive, framesOf_handleEgressOverflow, framesOf_append, append_assoc, frames]
      rfl
    have moved : Ordered { ctx with
        ingressList := (readyEntries config ctx).2
        egressList := handleEgressOverflow config.egressMaxListSize
          (ctx.egressList ++ (readyEntries config ctx).1) } := by
      apply ordered.of_alive_eq sameAlive
      apply ready_handleEgressOverflow
      intro entry member
      rcases mem_append.1 member with inEgress | isReady
      · exact ordered.egressReady entry inEgress
      · exact ready entry isReady
    refine ⟨?_, moved, rfl⟩
    rw [if_pos (checkSanityLists_of_sorted (moved.sorted.sublist (sublist_append_right _ _)))]
    rfl

theorem ageoutEntriesIngressList_spec (config : Config) (curTs : BitVec 64) (ordered : Ordered ctx)
    : Ordered (ageoutEntriesIngressList config curTs ctx) := by
  refine ordered.of_alive_eq ?_ ordered.egressReady
  rw [alive, ageoutEntriesIngressList, framesOf_ageoutEntries]
  rfl

/-- What a release section does: nothing, as the egress list is empty, or it takes the
first entry, which becomes the frame released last. -/
theorem releaseEgressListEntry_spec (ordered : Ordered ctx) :
    releaseEgressListEntry ctx = (.success, ctx, none) ∨
      ∃ entry rest, ctx.egressList = entry :: rest ∧ isEntryReadyToSendUp entry = true ∧
        (∀ last ∈ ctx.lastReleasedFrame, entry.rxParams.AtOrAfter last) ∧
        releaseEgressListEntry ctx
          = (.success,
              { ctx with egressList := rest, lastReleasedFrame := some entry.rxParams },
              some entry) := by
  rcases listOf : ctx.egressList with _ | ⟨entry, rest⟩
  · left
    rw [releaseEgressListEntry, listOf]
  · right
    have ready : isEntryReadyToSendUp entry = true :=
      ordered.egressReady entry (by rw [listOf]; exact mem_cons_self)
    have later : ∀ last ∈ ctx.lastReleasedFrame, entry.rxParams.AtOrAfter last := by
      intro last isLast
      have sorted := ordered.sorted
      rw [alive, listOf, show ctx.lastReleasedFrame = some last from isLast] at sorted
      exact rel_of_pairwise_cons sorted mem_cons_self
    refine ⟨entry, rest, rfl, ready, later, ?_⟩
    rw [releaseEgressListEntry, listOf]
    simp only [ready]
    rcases lastOf : ctx.lastReleasedFrame with _ | last
    · rfl
    · exact if_pos (later last lastOf)

namespace ReoSystem

/-- The frames handed up and the one about to be. -/
def released (sys : ReoSystem) : List ReoParams :=
  sys.handedUp ++ (sys.releasing.map (·.rxParams)).toList

/-- The invariant of the system: the sequence of frames is in order, the frames released
are in order and the last of them is the one the context records, and no check has
failed. -/
structure InOrder (sys : ReoSystem) : Prop where
  ordered : Ordered sys.ctx
  releasingReady : ∀ entry ∈ sys.releasing, isEntryReadyToSendUp entry = true
  lastReleased : sys.released.getLast? = sys.ctx.lastReleasedFrame
  releasedInOrder : sys.released.IsChain fun earlier later => later.AtOrAfter earlier
  sound : sys.checkFailed = false

theorem inOrder_initial : initial.InOrder where
  ordered :=
    { sorted := List.Pairwise.nil
      instant := fun _ member => nomatch member
      egressReady := fun _ member => nomatch member }
  releasingReady := fun _ member => nomatch member
  lastReleased := rfl
  releasedInOrder := List.IsChain.nil
  sound := rfl

/-- The traffic: the time stamps of a frame agree, and those of all frames alive with it
lie in a window shorter than half of the range. -/
def Windowed (sys : ReoSystem) : Event → Prop
  | .arrive arrival => arrival.rxParams.Instant ∧ InWindow (arrival.rxParams :: sys.ctx.alive)
  | _ => True

/-- No move finds more ready entries than its count can hold, or a multiple. -/
def MoveFits (config : Config) (sys : ReoSystem) : Event → Prop
  | .move => CountFits config sys.ctx
  | _ => True

variable {sys : ReoSystem} {ctx : ReoContext}

/-- A step that leaves the frames released alone keeps the invariant where it keeps the
order of the lists. -/
theorem InOrder.of_ctx (inOrder : sys.InOrder) {failed : Bool} (ordered : Ordered ctx)
    (sameLast : ctx.lastReleasedFrame = sys.ctx.lastReleasedFrame) (passed : failed = false) :
    InOrder { sys with ctx := ctx, checkFailed := sys.checkFailed || failed } where
  ordered := ordered
  releasingReady := inOrder.releasingReady
  lastReleased := inOrder.lastReleased.trans sameLast.symm
  releasedInOrder := inOrder.releasedInOrder
  sound := by
    rw [inOrder.sound, passed]
    rfl

variable {config : Config}

theorem InOrder.release (inOrder : sys.InOrder) : InOrder (sys.step config .release) := by
  rw [step]
  split
  case isFalse => exact inOrder
  rename_i free
  have noEntry : sys.releasing = none := Option.isNone_iff_eq_none.1 free
  rcases releaseEgressListEntry_spec inOrder.ordered with idle | ⟨entry, rest, listOf, ready,
    later, taken⟩
  · rw [idle]
    have kept := inOrder.of_ctx inOrder.ordered rfl (rfl : false = false)
    rw [← noEntry]
    exact kept
  · rw [taken]
    have sameReleased : sys.released = sys.handedUp := by
      rw [released, noEntry]
      exact append_nil _
    have lastOf := inOrder.lastReleased
    have chain := inOrder.releasedInOrder
    rw [sameReleased] at lastOf chain
    refine ⟨?_, ?_, ?_, ?_, ?_⟩
    · refine inOrder.ordered.of_sublist ?_ ?_
      · rw [alive, alive, listOf, framesOf_cons, cons_append]
        exact sublist_append_right _ _
      · intro other member
        exact inOrder.ordered.egressReady other (by rw [listOf]; exact mem_cons_of_mem _ member)
    · intro other isTaken
      rwa [← Option.mem_some.1 isTaken]
    · exact getLast?_concat
    · refine chain.append (List.IsChain.singleton _) ?_
      intro last isLast next isNext
      rw [lastOf] at isLast
      rw [← Option.mem_some.1 isNext]
      exact later last isLast
    · rw [inOrder.sound]
      rfl

theorem InOrder.sendUp (inOrder : sys.InOrder) : InOrder (sys.step config .sendUp) := by
  rw [step]
  rcases releasingOf : sys.releasing with _ | entry
  · exact inOrder
  have reason : listEntrySendUp entry = .success :=
    if_pos (hasReleaseReason_of_ready (inOrder.releasingReady entry releasingOf))
  have sameReleased : sys.released = sys.handedUp ++ [entry.rxParams] := by
    rw [released, releasingOf]
    rfl
  have lastOf := inOrder.lastReleased
  have chain := inOrder.releasedInOrder
  rw [sameReleased] at lastOf chain
  dsimp only
  rw [if_pos reason, reason]
  refine ⟨inOrder.ordered, (fun _ isNone => nomatch isNone), ?_, ?_, ?_⟩
  · rw [← lastOf]
    exact congrArg _ (append_nil _)
  · rw [released]
    exact (append_nil (sys.handedUp ++ [entry.rxParams])).symm ▸ chain
  · rw [inOrder.sound]
    rfl

/-- Every section keeps the invariant. -/
theorem InOrder.step {event : Event} (inOrder : sys.InOrder) (windowed : sys.Windowed event)
    (fits : sys.MoveFits config event) : InOrder (sys.step config event) := by
  cases event with
  | arrive arrival =>
    obtain ⟨passed, ordered, sameLast⟩ :=
      algoEntry_spec config inOrder.ordered windowed.1 windowed.2
    exact inOrder.of_ctx ordered sameLast passed
  | ageout curTs =>
    have kept := inOrder.of_ctx
      (ageoutEntriesIngressList_spec config curTs inOrder.ordered) rfl (rfl : false = false)
    rwa [Bool.or_false] at kept
  | move =>
    obtain ⟨passed, ordered, sameLast⟩ := moveEntries_spec inOrder.ordered fits
    exact inOrder.of_ctx ordered sameLast passed
  | release => exact inOrder.release
  | sendUp => exact inOrder.sendUp

/-- The lists are sorted, the egress list is not newer than the ingress list, no check
has failed and the frames were handed up in order. -/
structure DeliversInOrder (sys : ReoSystem) : Prop where
  ingressSorted : Sorted (framesOf sys.ctx.ingressList)
  egressSorted : Sorted (framesOf sys.ctx.egressList)
  egressFirst : ∀ egressEntry ∈ sys.ctx.egressList, ∀ ingressEntry ∈ sys.ctx.ingressList,
    ingressEntry.rxParams.AtOrAfter egressEntry.rxParams
  sound : sys.checkFailed = false
  handedUpInOrder : sys.handedUp.IsChain fun earlier later => later.AtOrAfter earlier

theorem InOrder.deliversInOrder (inOrder : sys.InOrder) : sys.DeliversInOrder where
  ingressSorted := inOrder.ordered.sorted.sublist
    ((sublist_append_right _ _).trans (sublist_append_right _ _))
  egressSorted := inOrder.ordered.sorted.sublist
    ((sublist_append_left _ _).trans (sublist_append_right _ _))
  egressFirst := by
    intro egressEntry inEgress ingressEntry inIngress
    have sorted := inOrder.ordered.sorted.sublist (sublist_append_right _ _)
    rw [Sorted, stampsOf_append, pairwise_append] at sorted
    exact sorted.2.2 _ (mem_stampsOf (mem_map_of_mem inEgress))
      _ (mem_stampsOf (mem_map_of_mem inIngress))
  sound := inOrder.sound
  handedUpInOrder := inOrder.releasedInOrder.left_of_append

/-- The runs whose traffic has agreeing time stamps in a window. -/
def Runs (config : Config) (sys : ReoSystem) : Prop :=
  Reaches (guarded Windowed (step config)) initial sys

/-- The runs in which, besides, the count of every move fits. -/
def FittingRuns (config : Config) (sys : ReoSystem) : Prop :=
  Reaches (guarded (fun sys event => sys.Windowed event ∧ sys.MoveFits config event)
    (step config)) initial sys

/-- A run in which the count of every move fits delivers in order. -/
theorem deliversInOrder_of_fittingRuns (config : Config) {sys : ReoSystem}
    (run : FittingRuns config sys) : sys.DeliversInOrder := by
  have inOrder : sys.InOrder := by
    refine run.invariant inOrder_initial ?_
    rintro before event after holds ⟨⟨windowed, fits⟩, rfl⟩
    exact holds.step windowed fits
  exact inOrder.deliversInOrder

/-- The settings of the driver. -/
def sampleConfig : Config :=
  { errorHandling := true
    pktCtrDeltaThresh := 0
    ingressMaxListSize := 512
    egressMaxListSize := 256
    listEntryTimeoutUs := 250000 }

/-- A frame of the first link that waits for no other frame. -/
def sampleArrival (ctr : BitVec 16) (ts : BitVec 32) : Arrival :=
  { type := .hostConsumedFrame
    frameTypeMgt := true
    rxParams :=
      { valid := true, linkId := 0, mgmtPktCtr := ctr, globalTimestamp := ts,
        durationUs := 1, startTimestamp := ts, endTimestamp := ts }
    mloVdev := true
    waitCountResult := .computed { perLinkCount := fun _ => 0, totalCount := 0 }
    entryAvailable := true
    insertionTs := 0
    releaseStatus := .success }

/-- One frame arrives, is moved, released and handed up. -/
def sampleEvents : List Event :=
  [.arrive (sampleArrival 1 10), .move, .release, .sendUp]

theorem deliversInOrder_sampleEvents :
    (sampleEvents.foldl (step sampleConfig) initial).handedUp = [(sampleArrival 1 10).rxParams] ∧
      (sampleEvents.foldl (step sampleConfig) initial).DeliversInOrder := by
  refine ⟨by decide +kernel, deliversInOrder_of_fittingRuns sampleConfig ?_⟩
  apply Reaches.foldl
  refine ⟨⟨⟨⟨rfl, rfl⟩, 10, ?_⟩, trivial⟩, ⟨trivial, ?_⟩, ⟨trivial, trivial⟩,
    ⟨trivial, trivial⟩, trivial⟩
  · intro frame member
    rw [mem_singleton.1 member]
    decide
  · show CountFits _ _
    decide +kernel

/-! ## A count that does not fit -/

/-- The ingress list holds `count` ready frames of time zero, and nothing was moved. -/
structure Piled (count : Nat) (ctx : ReoContext) : Prop where
  nothingMoved : ctx.egressList = []
  nothingReleased : ctx.lastReleasedFrame = none
  length : ctx.ingressList.length = count
  ready : ∀ entry ∈ ctx.ingressList, isEntryReadyToSendUp entry = true
  atZero : ∀ entry ∈ ctx.ingressList, entry.globalTs = 0

theorem ready_withWaitCount {entry : ListEntry} (waitCount : WaitCount)
    (ready : isEntryReadyToSendUp entry = true) :
    isEntryReadyToSendUp (entry.withWaitCount waitCount) = true := by
  simp only [isEntryReadyToSendUp, ListEntry.withWaitCount, Bool.or_eq_true,
    Bool.not_and, Bool.not_eq_true'] at ready ⊢
  tauto

/-- The descriptor of a piled frame when the lists are updated. -/
structure Piling (desc : FrameDescriptor) : Prop where
  forHost : desc.type = .hostConsumedFrame
  required : desc.reoRequired = true
  unqueued : desc.queuedList = .invalid
  noWait : desc.waitCount.totalCount = 0
  atZero : desc.rxParams.globalTimestamp = 0

theorem updateEgressList_nil (config : Config) (desc : FrameDescriptor) (new : Option ListEntry) :
    updateEgressList config [] none desc new
      = ⟨.success, [], { desc with isStale := false, isParallelRx := false }, new, false⟩ := by
  cases new <;> rfl

theorem Piled.updateIngressList {count : Nat} (piled : Piled count ctx) (desc : FrameDescriptor)
    (entry : ListEntry) (insertionTs : BitVec 64) (fresh : desc.isStale = false)
    (unqueued : desc.queuedList = .invalid) (atZero : desc.rxParams.globalTimestamp = 0)
    (entryAtZero : entry.globalTs = 0) (entryReady : isEntryReadyToSendUp entry = true) :
    Piled (count + 1) { ctx with
      ingressList := (updateIngressList ctx.ingressList desc (some entry) insertionTs).list } := by
  have allEarlier : ctx.ingressList.takeWhile (notAfter 0) = ctx.ingressList := by
    rw [takeWhile_eq_self_iff]
    intro other member
    rw [notAfter, piled.atZero other member]
    exact Serial.gte_self 0
  have noneLater : ctx.ingressList.dropWhile (notAfter 0) = [] := by
    rw [dropWhile_eq_nil_iff]
    intro other member
    rw [notAfter, piled.atZero other member]
    exact Serial.gte_self 0
  have list : (MgmtReo.updateIngressList ctx.ingressList desc (some entry) insertionTs).list
      = (ctx.ingressList.map fun cur =>
          cur.withWaitCount (updateWaitCount cur.waitCount desc.waitCount))
        ++ [ingressEntry entry desc insertionTs []] := by
    have passes : (ctx.ingressList.all fun cur => !false || cur.isParallelRx) = true := by simp
    simp only [MgmtReo.updateIngressList, atZero, allEarlier, noneLater, fresh, unqueued, passes,
      if_true, map_nil]
    rfl
  refine ⟨piled.nothingMoved, piled.nothingReleased, ?_, ?_, ?_⟩
  · dsimp only
    rw [list, length_append, length_map, piled.length]
    rfl
  · dsimp only
    rw [list]
    intro other member
    rcases mem_append.1 member with old | isNew
    · obtain ⟨before, beforeMem, rfl⟩ := mem_map.1 old
      exact ready_withWaitCount _ (piled.ready before beforeMem)
    · rw [mem_singleton.1 isNew]
      exact entryReady
  · dsimp only
    rw [list]
    intro other member
    rcases mem_append.1 member with old | isNew
    · obtain ⟨before, beforeMem, rfl⟩ := mem_map.1 old
      exact piled.atZero before beforeMem
    · rw [mem_singleton.1 isNew]
      exact entryAtZero

theorem Piled.updateLists {count : Nat} (piled : Piled count ctx) {desc : FrameDescriptor}
    {arrival : Arrival} (piling : Piling desc) (available : arrival.entryAvailable = true) :
    Piled (count + 1) (updateLists config ctx desc arrival).ctx := by
  have prepared : isEntryReadyToSendUp (prepareListEntry desc) = true := by
    simp [isEntryReadyToSendUp, prepareListEntry, piling.noWait]
  have next := piled.updateIngressList { desc with isStale := false, isParallelRx := false }
    (prepareListEntry desc) arrival.insertionTs rfl piling.unqueued piling.atZero piling.atZero
    prepared
  unfold MgmtReo.updateLists
  rw [if_neg (by simp [available])]
  simp only [piling.forHost, piling.required, piled.nothingMoved, piled.nothingReleased,
    and_self, if_true, updateEgressList_nil, checkSanityList] at next ⊢
  split <;> exact next

/-- The packet counter behind the one of the host snapshot is newer than it. -/
theorem comparePktCtrsGte_next (ctr : BitVec 16) : comparePktCtrsGte ctr (ctr + 1) = false := by
  have difference : (ctr - (ctr + 1)).toNat = 65535 := by bv_omega
  rw [comparePktCtrsGte, Serial.gte, difference]
  rfl

/-- A frame with the next packet counter piles up. -/
theorem Piled.algoEntry {count : Nat} (piled : Piled count ctx) :
    Piled (count + 1) (algoEntry sampleConfig ctx
      (sampleArrival ((ctx.hostSnapshot 0).mgmtPktCtr + 1) 0)).ctx := by
  generalize nextOf : (ctx.hostSnapshot 0).mgmtPktCtr + 1 = next
  have inOrder : outOfOrder (ctx.hostSnapshot 0) (sampleArrival next 0).descriptor.rxParams
      = false := by
    have newer := comparePktCtrsGte_next (ctx.hostSnapshot 0).mgmtPktCtr
    rw [nextOf] at newer
    exact Bool.and_eq_false_imp.2 fun _ => newer
  obtain ⟨delta, reason, updated⟩ := updateHostSnapshot_eq sampleConfig (ctx.hostSnapshot 0)
    (sampleArrival next 0).descriptor rfl rfl rfl
  have sane : checkFrameSanity sampleConfig (sampleArrival next 0).descriptor
      = (.success, (sampleArrival next 0).descriptor) := rfl
  rw [inOrder] at updated
  have passed : MgmtReo.algoEntry sampleConfig ctx (sampleArrival next 0)
      = MgmtReo.updateLists sampleConfig
          { ctx with
            hostSnapshot := Function.update ctx.hostSnapshot 0
              (sampleArrival next 0).rxParams.snapshot }
          { (sampleArrival next 0).descriptor with pktCtrDelta := delta, dropReason := reason }
          (sampleArrival next 0) := by
    unfold MgmtReo.algoEntry
    dsimp only
    rw [sane]
    dsimp only
    rw [show (sampleArrival next 0).rxParams.linkId = 0 from rfl, updated]
    rfl
  rw [passed]
  apply Piled.updateLists
  · exact ⟨piled.nothingMoved, piled.nothingReleased, piled.length, piled.ready, piled.atZero⟩
  · exact ⟨rfl, rfl, rfl, rfl, rfl⟩
  · rfl

/-- Any number of frames can arrive before a move. -/
theorem exists_piled (count : Nat) : ∃ sys, Runs sampleConfig sys ∧ Piled count sys.ctx := by
  induction count with
  | zero =>
    refine ⟨initial, Reaches.refl _ _, rfl, rfl, rfl, ?_, ?_⟩
    · exact fun entry member => nomatch member
    · exact fun entry member => nomatch member
  | succ count ih =>
    obtain ⟨sys, run, piled⟩ := ih
    let next := sampleArrival ((sys.ctx.hostSnapshot 0).mgmtPktCtr + 1) 0
    have windowed : sys.Windowed (.arrive next) := by
      refine ⟨⟨rfl, rfl⟩, 0, ?_⟩
      intro frame member
      have atZero : frame.globalTimestamp = 0 := by
        rw [alive, piled.nothingReleased, piled.nothingMoved] at member
        rcases mem_cons.1 member with rfl | inIngress
        · rfl
        · obtain ⟨entry, entryMem, rfl⟩ := mem_map.1 inIngress
          exact piled.atZero entry entryMem
      rw [atZero]
      decide
    exact ⟨sys.step sampleConfig (.arrive next), run.tail ⟨windowed, rfl⟩, piled.algoEntry⟩

/-- Ready entries are all taken. -/
theorem length_collectReady {list : List ListEntry} (overflow : Nat)
    (ready : ∀ entry ∈ list, isEntryReadyToSendUp entry = true) :
    (collectReady overflow list).1.length = list.length := by
  induction list generalizing overflow with
  | nil => rfl
  | cons entry list ih =>
    have marked : isEntryReadyToSendUp (entry.markWhile overflow) = true := by
      unfold ListEntry.markWhile
      split
      · simp [isEntryReadyToSendUp, ListEntry.markIngressListOverflow]
      · exact ready entry mem_cons_self
    rw [collectReady, if_pos marked, length_cons, length_cons,
      ih _ fun other member => ready other (mem_cons_of_mem _ member)]

/-- The count of more than `2 ^ 16` ready entries is not the size of their list: the
sanity check of the move fails, and the entries are lost. -/
theorem not_deliversInOrder_of_runs : ¬ ∀ config sys, Runs config sys → DeliversInOrder sys := by
  intro always
  obtain ⟨sys, run, piled⟩ := exists_piled 65537
  have taken : (readyEntries sampleConfig sys.ctx).1.length = 65537 := by
    rw [readyEntries, length_collectReady _ piled.ready, piled.length]
  have mismatch : (moveEntriesIngressToEgressList sampleConfig sys.ctx).1 = .sanityFailed := by
    rw [moveEntriesIngressToEgressList]
    simp only [numFramesReadyToDeliver, listSize, taken]
    rfl
  have windowed : sys.Windowed .move := trivial
  have moved : Runs sampleConfig (sys.step sampleConfig .move) := run.tail ⟨windowed, rfl⟩
  have sound := (always sampleConfig _ moved).sound
  rw [step, mismatch] at sound
  simp [QdfStatus.checkFailed] at sound

end ReoSystem

end Sm8650.MgmtReo
