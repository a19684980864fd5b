import Sm8650.MgmtReo.System
import Mathlib.Data.List.TakeWhile

/-!
# Management frame reordering: delivery in order

The frame released last, the egress list and the ingress list form one sequence in the
order of the time stamps. A frame is inserted where the order puts it or not at all,
a move shifts the border between the two lists, and a release takes the first entry.
-/

namespace Sm8650.MgmtReo

open Data List ReoContext Option

/-- The start and the end of the frame are its global time stamp. -/
def ReoParams.Instant (frame : ReoParams) : Prop :=
  frame.startTimestamp = frame.globalTimestamp ∧ frame.endTimestamp = frame.globalTimestamp

/-- `frame` is at or after `other`. -/
def ReoParams.AtOrAfter (frame other : ReoParams) : Prop :=
  compareGlobalTimestampsGte frame.globalTimestamp other.globalTimestamp = true

/-- The time stamps of the frames lie in a window shorter than half of the range. -/
def InWindow (frames : List ReoParams) : Prop :=
  ∃ base, ∀ frame ∈ frames, Serial.Within base frame.globalTimestamp

variable {frame : ReoParams}

/-- A frame goes between the frames it is at or after and the ones it is not. -/
theorem Sorted.insert {before after : List ReoParams} (sorted : Sorted (before ++ after))
    (window : InWindow (frame :: (before ++ after)))
    (atOrAfter : ∀ other ∈ before, frame.AtOrAfter other)
    (stops : ∀ next ∈ after.head?, ¬ frame.AtOrAfter next) : Sorted (before ++ frame :: after) := by
  obtain ⟨base, within⟩ := window
  rw [Sorted, stampsOf_append] at sorted
  rw [Sorted, stampsOf_append]
  have stampsWithin : ∀ stamp ∈ frame.globalTimestamp :: (stampsOf before ++ stampsOf after),
      Serial.Within base stamp := by
    intro stamp member
    rw [← stampsOf_append, ← stampsOf_cons] at member
    obtain ⟨other, otherMem, rfl⟩ := mem_map.1 member
    exact within other otherMem
  apply Serial.pairwise_insert stampsWithin sorted
  · intro stamp member
    obtain ⟨other, otherMem, rfl⟩ := mem_map.1 member
    exact atOrAfter other otherMem
  · intro stamp isHead
    rw [stampsOf, head?_map] at isHead
    obtain ⟨next, nextHead, rfl⟩ := map_eq_some_iff.1 isHead
    exact stops next nextHead

/-- In a window, a frame at or after another is at or after everything that the other
comes behind. -/
theorem atOrAfter_of_sorted {frame last : ReoParams} {before : List ReoParams}
    (sorted : Sorted (before ++ [last])) (window : InWindow (frame :: (before ++ [last])))
    (later : frame.AtOrAfter last) : ∀ other ∈ before ++ [last], frame.AtOrAfter other := by
  obtain ⟨base, within⟩ := window
  intro other member
  rcases mem_append.1 member with earlier | isLast
  · have ordered : last.AtOrAfter other := by
      rw [Sorted, stampsOf_append, pairwise_append] at sorted
      exact sorted.2.2 _ (mem_stampsOf earlier) _ (mem_stampsOf (by simp))
    exact Serial.gte_trans (within frame (by simp)) (within last (by simp))
      (within other (by simp [earlier])) later ordered
  · rw [mem_singleton.1 isLast]
    exact later

variable {desc : FrameDescriptor}

/-- With time stamps in a point, a frame that needs reordering is stale where it is older
than the frame released last. -/
theorem isStale_isStaleFrame {lastReleased : Option ReoParams} (instant : desc.rxParams.Instant)
    (lastInstant : ∀ last ∈ lastReleased, last.Instant) :
    (isStaleFrame lastReleased desc).isStale
      = (desc.reoRequired && lastReleased.any fun last =>
          !compareGlobalTimestampsGte desc.rxParams.globalTimestamp last.globalTimestamp) := by
  cases lastReleased with
  | none => simp [isStaleFrame]
  | some last =>
    obtain ⟨lastStart, lastEnd⟩ := lastInstant last rfl
    obtain ⟨start, stop⟩ := instant
    simp only [isStaleFrame, lastStart, lastEnd, start, stop]
    cases desc.reoRequired with
    | false => rfl
    | true =>
      by_cases later : compareGlobalTimestampsGte desc.rxParams.globalTimestamp
          last.globalTimestamp = true
      · by_cases earlier : compareGlobalTimestampsGte last.globalTimestamp
            desc.rxParams.globalTimestamp = true
        · simp [later, earlier]
        · simp [earlier]
      · simp [later]

@[simp]
theorem rxParams_isStaleFrame (lastReleased : Option ReoParams) (desc : FrameDescriptor) :
    (isStaleFrame lastReleased desc).rxParams = desc.rxParams := by
  unfold isStaleFrame
  split
  · split
    · split <;> rfl
    · rfl
  · rfl

@[simp]
theorem queuedList_isStaleFrame (lastReleased : Option ReoParams) (desc : FrameDescriptor) :
    (isStaleFrame lastReleased desc).queuedList = desc.queuedList := by
  unfold isStaleFrame
  split
  · split
    · split <;> rfl
    · rfl
  · rfl

variable {list : List ListEntry}

theorem atOrAfter_of_mem_takeWhile {frame other : ReoParams}
    (member : other ∈ framesOf (list.takeWhile (notAfter frame.globalTimestamp))) :
    frame.AtOrAfter other := by
  obtain ⟨entry, entryMem, rfl⟩ := mem_map.1 member
  exact all_eq_true.1 all_takeWhile entry entryMem

theorem not_atOrAfter_of_head_dropWhile {frame next : ReoParams}
    (isHead : next ∈ (framesOf (list.dropWhile (notAfter frame.globalTimestamp))).head?) :
    ¬ frame.AtOrAfter next := by
  rw [framesOf, head?_map] at isHead
  obtain ⟨entry, entryHead, rfl⟩ := map_eq_some_iff.1 isHead
  have stopped := head?_dropWhile_not (notAfter frame.globalTimestamp) list
  rw [entryHead] at stopped
  rw [ReoParams.AtOrAfter]
  simpa [notAfter, ListEntry.globalTs] using stopped

theorem framesOf_takeWhile_dropWhile (keep : ListEntry → Bool) (list : List ListEntry) :
    framesOf (list.takeWhile keep) ++ framesOf (list.dropWhile keep) = framesOf list := by
  rw [← framesOf_append, takeWhile_append_dropWhile]

/-- What `updateEgressList` does to a frame: the frame is in the egress list now, or the
list is as it was and, unless the frame is stale, it belongs behind the egress list. -/
inductive EgressOutcome (before : List ReoParams) (frame : ReoParams)
    (egressList : List ListEntry) (new : Option ListEntry) (result : ListUpdate) : Prop
  | inserted (earlier later : List ReoParams) (split : framesOf egressList = earlier ++ later)
      (list : framesOf result.list = earlier ++ frame :: later) (nonempty : later ≠ [])
      (atOrAfter : ∀ other ∈ before ++ earlier, frame.AtOrAfter other)
      (stops : ∀ next ∈ later.head?, ¬ frame.AtOrAfter next)
      (ready : (∀ entry ∈ egressList, isEntryReadyToSendUp entry = true) →
        ∀ entry ∈ result.list, isEntryReadyToSendUp entry = true)
      (fresh : result.desc.isStale = false) (queued : result.desc.queuedList = .egress)
      (sameFrame : ∀ entry ∈ result.new, entry.rxParams = frame)
  | kept (list : result.list = egressList) (sameNew : result.new = new)
      (unqueued : result.desc.queuedList ≠ .egress)
      (stale : result.desc.isStale = true → ∃ last ∈ before, ¬ frame.AtOrAfter last)
      (behind : result.desc.isStale = false → result.new ≠ none →
        ∀ other ∈ before ++ framesOf egressList, frame.AtOrAfter other)

/-- A frame older than another is older than everything behind it. -/
theorem takeWhile_notAfter_eq_nil {frame last : ReoParams} (sorted : Sorted (last :: framesOf list))
    (window : InWindow (frame :: last :: framesOf list)) (older : ¬ frame.AtOrAfter last) :
    list.takeWhile (notAfter frame.globalTimestamp) = [] := by
  obtain ⟨base, within⟩ := window
  cases list with
  | nil => rfl
  | cons first list =>
    rw [takeWhile_cons_of_neg]
    intro atOrAfterFirst
    apply older
    exact Serial.gte_trans (within frame (by simp)) (within first.rxParams (by simp))
      (within last (by simp)) atOrAfterFirst
      (rel_of_pairwise_cons sorted mem_cons_self)

/-- The frame of an arriving descriptor that an entry is prepared for needs reordering. -/
def Prepared (desc : FrameDescriptor) (new : Option ListEntry) : Prop :=
  ∀ entry ∈ new, entry.rxParams = desc.rxParams ∧ desc.reoRequired = true

variable {new : Option ListEntry}

/-- A frame older than the last entry is inserted where the order puts it. -/
theorem insertIntoEgressList_spec {config : Config} {egressList : List ListEntry}
    {before : List ReoParams} {entry last : ListEntry} (sameFrame : entry.rxParams = desc.rxParams)
    (fresh : desc.isStale = false) (lastMem : last ∈ egressList)
    (older : ¬ desc.rxParams.AtOrAfter last.rxParams)
    (atOrAfter : ∀ other ∈ before, desc.rxParams.AtOrAfter other) :
    (insertIntoEgressList config egressList desc entry).status = .success ∧
      (insertIntoEgressList config egressList desc entry).desc.rxParams = desc.rxParams ∧
      EgressOutcome before desc.rxParams egressList new
        (insertIntoEgressList config egressList desc entry) := by
  rcases laterOf : egressList.dropWhile (notAfter desc.rxParams.globalTimestamp)
    with _ | ⟨leastGreater, rest⟩
  · rw [dropWhile_eq_nil_iff] at laterOf
    exact absurd (laterOf last lastMem) older
  have split := framesOf_takeWhile_dropWhile (notAfter desc.rxParams.globalTimestamp) egressList
  have stops : ∀ next ∈ (framesOf (leastGreater :: rest)).head?,
      ¬ desc.rxParams.AtOrAfter next := by
    intro next isHead
    rw [← laterOf] at isHead
    exact not_atOrAfter_of_head_dropWhile isHead
  rw [laterOf] at split
  simp only [insertIntoEgressList, laterOf]
  refine ⟨trivial, trivial, .inserted _ _ split.symm ?_ (cons_ne_nil _ _) ?_ stops ?_ fresh rfl ?_⟩
  · rw [framesOf_handleEgressOverflow, framesOf_append, framesOf_cons, rxParams_egressEntry,
      sameFrame]
  · intro other otherMem
    rcases mem_append.1 otherMem with released | inEgress
    · exact atOrAfter other released
    · exact atOrAfter_of_mem_takeWhile inEgress
  · intro ready
    apply ready_handleEgressOverflow
    intro other otherMem
    rcases mem_append.1 otherMem with earlier | later
    · exact ready other ((takeWhile_sublist _).mem earlier)
    rcases mem_cons.1 later with rfl | behind
    · simp [isEntryReadyToSendUp, egressEntry]
    · rw [← laterOf] at behind
      exact ready other ((dropWhile_sublist _).mem behind)
  · intro inserted isNew
    rw [← mem_some.1 isNew, rxParams_egressEntry, sameFrame]

theorem updateEgressList_spec (config : Config) {egressList : List ListEntry}
    {lastReleased : Option ReoParams} (instant : desc.rxParams.Instant)
    (lastInstant : ∀ last ∈ lastReleased, last.Instant) (prepared : Prepared desc new)
    (unqueued : desc.queuedList = .invalid)
    (sorted : Sorted (lastReleased.toList ++ framesOf egressList))
    (window : InWindow (desc.rxParams :: (lastReleased.toList ++ framesOf egressList))) :
    (updateEgressList config egressList lastReleased desc new).status = .success ∧
      (updateEgressList config egressList lastReleased desc new).desc.rxParams = desc.rxParams ∧
      EgressOutcome lastReleased.toList desc.rxParams egressList new
        (updateEgressList config egressList lastReleased desc new) := by
  have staleEq := isStale_isStaleFrame instant lastInstant
  have sameFrame := rxParams_isStaleFrame lastReleased desc
  have sameQueue := queuedList_isStaleFrame lastReleased desc
  unfold updateEgressList
  generalize isStaleFrame lastReleased desc = marked at *
  by_cases stale : marked.isStale = true
  · rw [stale, eq_comm, Bool.and_eq_true, Option.any_eq_true] at staleEq
    obtain ⟨-, last, isLast, older⟩ := staleEq
    have lastMem : last ∈ lastReleased.toList := mem_toList.2 isLast
    have olderThanLast : ¬ desc.rxParams.AtOrAfter last := by
      simpa [ReoParams.AtOrAfter] using older
    have noneEarlier : egressList.takeWhile (notAfter desc.rxParams.globalTimestamp) = [] := by
      obtain rfl : lastReleased = some last := isLast
      exact takeWhile_notAfter_eq_nil sorted window olderThanLast
    simp only [sameFrame, stale, if_true, noneEarlier, all_nil]
    refine ⟨trivial, trivial, .kept rfl rfl (by simp [sameQueue, unqueued]) ?_ ?_⟩
    · exact fun _ => ⟨last, lastMem, olderThanLast⟩
    · intro fresh
      exact absurd stale (by rw [fresh]; simp)
  · rw [if_neg stale]
    rw [Bool.not_eq_true] at stale
    have unqueuedMarked : marked.queuedList ≠ .egress := by simp [sameQueue, unqueued]
    rcases new with _ | entry
    · refine ⟨rfl, sameFrame, .kept rfl rfl unqueuedMarked ?_ ?_⟩
      · intro isStale
        rw [stale] at isStale
        cases isStale
      · exact fun _ absent => absurd rfl absent
    obtain ⟨entryFrame, required⟩ := prepared entry rfl
    -- The frame is not older than the frame released last.
    have afterReleased : ∀ last ∈ lastReleased.toList, desc.rxParams.AtOrAfter last := by
      intro last lastMem
      rw [stale, required, Bool.true_and, eq_comm, Option.any_eq_false] at staleEq
      have notOlder := staleEq last (mem_toList.1 lastMem)
      simpa [ReoParams.AtOrAfter] using notOlder
    rcases lastOf : egressList.getLast? with _ | last
    · have empty : egressList = [] := getLast?_eq_none_iff.1 lastOf
      refine ⟨rfl, sameFrame, .kept rfl rfl unqueuedMarked ?_ ?_⟩
      · intro isStale
        rw [stale] at isStale
        cases isStale
      · intro _ _
        rw [empty, framesOf_nil, append_nil]
        exact afterReleased
    have lastMem : last ∈ egressList := mem_of_getLast? lastOf
    rw [← sameFrame] at afterReleased instant window entryFrame ⊢
    dsimp only
    by_cases later : marked.rxParams.AtOrAfter last.rxParams
    · rw [show compareGlobalTimestampsGte marked.rxParams.globalTimestamp last.globalTs = true
        from later]
      refine ⟨rfl, rfl, .kept rfl rfl unqueuedMarked ?_ ?_⟩
      · intro isStale
        exact absurd stale (by rw [show marked.isStale = true from isStale]; simp)
      · intro _ _ other otherMem
        rcases mem_append.1 otherMem with released | inEgress
        · exact afterReleased other released
        · obtain ⟨init, rfl⟩ := getLast?_eq_some_iff.1 lastOf
          rw [framesOf_append] at inEgress sorted window
          refine atOrAfter_of_sorted (sorted.sublist (sublist_append_right _ _)) ?_ later
            other inEgress
          obtain ⟨base, within⟩ := window
          refine ⟨base, fun member isMem => within member ?_⟩
          rcases mem_cons.1 isMem with rfl | deeper
          · exact mem_cons_self
          · exact mem_cons_of_mem _ (mem_append_right _ deeper)
    · rw [show compareGlobalTimestampsGte marked.rxParams.globalTimestamp last.globalTs = false
        from Bool.eq_false_iff.2 later]
      exact insertIntoEgressList_spec entryFrame stale lastMem later afterReleased

/-- What `updateIngressList` does to a frame: the list keeps its frames, or the frame is
inserted where the order puts it. -/
inductive IngressOutcome (desc : FrameDescriptor) (ingressList : List ListEntry)
    (new : Option ListEntry) (list : List ListEntry) : Prop
  | inserted (earlier later : List ReoParams) (split : framesOf ingressList = earlier ++ later)
      (list : framesOf list = earlier ++ desc.rxParams :: later)
      (atOrAfter : ∀ other ∈ earlier, desc.rxParams.AtOrAfter other)
      (stops : ∀ next ∈ later.head?, ¬ desc.rxParams.AtOrAfter next)
      (fresh : desc.isStale = false) (unqueued : desc.queuedList ≠ .egress)
      (present : new ≠ none)
  | kept (list : framesOf list = framesOf ingressList)

theorem updateIngressList_spec {ingressList : List ListEntry} (insertionTs : BitVec 64)
    (sameFrame : ∀ entry ∈ new, entry.rxParams = desc.rxParams)
    (staleFirst : desc.isStale = true → ingressList.takeWhile (notAfter desc.rxParams.globalTimestamp) = [])
    :
    (updateIngressList ingressList desc new insertionTs).status = .success ∧
      IngressOutcome desc ingressList new
        (updateIngressList ingressList desc new insertionTs).list := by
  have split := framesOf_takeWhile_dropWhile (notAfter desc.rxParams.globalTimestamp) ingressList
  have passes : (ingressList.takeWhile (notAfter desc.rxParams.globalTimestamp)).all
      (fun cur => !desc.isStale || cur.isParallelRx) = true := by
    cases stale : desc.isStale with
    | false => simp
    | true =>
      rw [staleFirst stale]
      rfl
  have counted : framesOf ((ingressList.takeWhile (notAfter desc.rxParams.globalTimestamp)).map
      fun cur => cur.withWaitCount (updateWaitCount cur.waitCount desc.waitCount))
        = framesOf (ingressList.takeWhile (notAfter desc.rxParams.globalTimestamp)) :=
    framesOf_map _ _ fun _ => ListEntry.rxParams_withWaitCount _ _
  have reduced : framesOf ((ingressList.dropWhile (notAfter desc.rxParams.globalTimestamp)).map
      fun cur => cur.reduceWaitCount desc.rxParams.linkId (BitVec.ofInt 16 desc.pktCtrDelta))
        = framesOf (ingressList.dropWhile (notAfter desc.rxParams.globalTimestamp)) :=
    framesOf_map _ _ fun _ => ListEntry.rxParams_reduceWaitCount _ _ _
  simp only [updateIngressList, passes, if_true]
  cases new with
  | none =>
    refine ⟨rfl, .kept ?_⟩
    rw [framesOf_append, counted, reduced, split]
  | some entry =>
    dsimp only
    split
    · rename_i belongs
      rw [Bool.and_eq_true, Bool.not_eq_true', bne_iff_ne] at belongs
      refine ⟨rfl, .inserted _ _ split.symm ?_ ?_ ?_ belongs.1 belongs.2 (some_ne_none _)⟩
      · rw [framesOf_append, framesOf_cons, counted, reduced, rxParams_ingressEntry,
          sameFrame entry rfl]
      · exact fun other member => atOrAfter_of_mem_takeWhile member
      · exact fun next isHead => not_atOrAfter_of_head_dropWhile isHead
    · refine ⟨rfl, .kept ?_⟩
      rw [framesOf_append, counted, reduced, split]

/-- The sequence of the frame released last, the egress list and the ingress list is in
order, and every entry of the egress list is ready. -/
structure Ordered (ctx : ReoContext) : Prop where
  sorted : Sorted ctx.alive
  instant : ∀ frame ∈ ctx.alive, frame.Instant
  egressReady : ∀ entry ∈ ctx.egressList, isEntryReadyToSendUp entry = true

variable {ctx next : ReoContext}

theorem Ordered.of_sublist (ordered : Ordered ctx) (fewer : next.alive.Sublist ctx.alive)
    (egressReady : ∀ entry ∈ next.egressList, isEntryReadyToSendUp entry = true) :
    Ordered next where
  sorted := ordered.sorted.sublist fewer
  instant := fun frame member => ordered.instant frame (fewer.mem member)
  egressReady := egressReady

theorem Ordered.of_alive_eq (ordered : Ordered ctx) (sameAlive : next.alive = ctx.alive)
    (egressReady : ∀ entry ∈ next.egressList, isEntryReadyToSendUp entry = true) : Ordered next :=
  ordered.of_sublist (sameAlive ▸ List.Sublist.refl _) egressReady

/-- A frame that goes where the order puts it keeps the sequence in order. -/
theorem Ordered.insert (before after : List ReoParams) (ordered : Ordered ctx)
    (instant : frame.Instant) (window : InWindow (frame :: ctx.alive))
    (aliveBefore : ctx.alive = before ++ after) (aliveAfter : next.alive = before ++ frame :: after)
    (atOrAfter : ∀ other ∈ before, frame.AtOrAfter other)
    (stops : ∀ later ∈ after.head?, ¬ frame.AtOrAfter later)
    (egressReady : ∀ entry ∈ next.egressList, isEntryReadyToSendUp entry = true) :
    Ordered next := by
  have sorted := ordered.sorted
  have instants := ordered.instant
  rw [aliveBefore] at sorted window instants
  refine ⟨?_, ?_, egressReady⟩
  · rw [aliveAfter]
    exact sorted.insert window atOrAfter stops
  · intro other member
    rw [aliveAfter] at member
    rcases mem_append.1 member with early | late
    · exact instants other (mem_append_left _ early)
    rcases mem_cons.1 late with rfl | late
    · exact instant
    · exact instants other (mem_append_right _ late)

/-- The egress list as `updateEgressList` leaves it keeps the sequence in order. -/
theorem EgressOutcome.ordered {ctx : ReoContext} {result : ListUpdate}
    (outcome : EgressOutcome ctx.lastReleasedFrame.toList frame ctx.egressList new result)
    (ordered : Ordered ctx) (instant : frame.Instant) (window : InWindow (frame :: ctx.alive)) :
    Ordered { ctx with egressList := result.list } := by
  cases outcome with
  | kept list sameNew unqueued stale behind =>
    rw [list]
    exact ordered
  | inserted earlier later split list nonempty atOrAfter stops ready fresh queued sameFrame =>
    apply Ordered.insert (ctx.lastReleasedFrame.toList ++ earlier)
      (later ++ framesOf ctx.ingressList) ordered instant window
    · rw [alive, split, append_assoc, append_assoc]
    · rw [alive, list, append_assoc, append_assoc, cons_append]
    · exact atOrAfter
    · rwa [head?_append_of_ne_nil _ nonempty]
    · exact ready ordered.egressReady

theorem InWindow.mono {smaller larger : List ReoParams} (window : InWindow larger)
    (included : smaller ⊆ larger) : InWindow smaller := by
  obtain ⟨base, within⟩ := window
  exact ⟨base, fun frame member => within frame (included member)⟩

/-- The lists are updated without a failing check, and stay in order. -/
theorem updateLists_spec {config : Config} {ctx : ReoContext} {arrival : Arrival}
    (ordered : Ordered ctx) (instant : desc.rxParams.Instant)
    (unqueued : desc.queuedList = .invalid) (window : InWindow (desc.rxParams :: ctx.alive)) :
    (updateLists config ctx desc arrival).status.checkFailed = false ∧
      Ordered (updateLists config ctx desc arrival).ctx ∧
      (updateLists config ctx desc arrival).ctx.lastReleasedFrame = ctx.lastReleasedFrame := by
  unfold updateLists
  split
  · exact ⟨rfl, ordered, rfl⟩
  dsimp only
  generalize newOf : (if desc.type = .hostConsumedFrame ∧ desc.reoRequired = true then
    some (prepareListEntry desc) else none) = new
  have prepared : Prepared desc new := by
    intro entry isNew
    rw [← newOf] at isNew
    split at isNew
    · rename_i needed
      rw [← mem_some.1 isNew]
      exact ⟨rfl, needed.2⟩
    · cases isNew
  have lastInstant : ∀ last ∈ ctx.lastReleasedFrame, last.Instant := fun last isLast =>
    ordered.instant last (mem_append_left _ (mem_toList.2 isLast))
  have egressWindow : InWindow (desc.rxParams
      :: (ctx.lastReleasedFrame.toList ++ framesOf ctx.egressList)) := by
    apply window.mono
    rw [alive, ← append_assoc]
    exact cons_subset_cons _ (subset_append_left _ _)
  have egressSorted : Sorted (ctx.lastReleasedFrame.toList ++ framesOf ctx.egressList) := by
    apply ordered.sorted.sublist
    rw [alive, ← append_assoc]
    exact sublist_append_left _ _
  obtain ⟨egressStatus, egressFrame, egressOutcome⟩ := updateEgressList_spec config
    instant lastInstant prepared unqueued egressSorted egressWindow
  generalize updateEgressList config ctx.egressList ctx.lastReleasedFrame desc new = inEgress
    at egressStatus egressFrame egressOutcome ⊢
  have egressOrdered := egressOutcome.ordered ordered instant window
  have egressSane : checkSanityList inEgress.list = true := by
    apply checkSanityList_of_sorted
    apply egressOrdered.sorted.sublist
    exact (sublist_append_left _ _).trans (sublist_append_right _ _)
  rw [if_pos egressStatus, if_pos egressSane]
  have newFrame : ∀ entry ∈ inEgress.new, entry.rxParams = inEgress.desc.rxParams := by
    intro entry isNew
    rw [egressFrame]
    cases egressOutcome with
    | inserted => rename_i sameFrame; exact sameFrame entry isNew
    | kept _ sameNew => exact (prepared entry (sameNew ▸ isNew)).1
  have staleFirst : inEgress.desc.isStale = true →
      ctx.ingressList.takeWhile (notAfter inEgress.desc.rxParams.globalTimestamp) = [] := by
    intro isStale
    rw [egressFrame]
    cases egressOutcome with
    | inserted => rename_i fresh _ _; rw [isStale] at fresh; cases fresh
    | kept _ _ _ stale =>
      obtain ⟨last, isLast, older⟩ := stale isStale
      have behindLast : (last :: framesOf ctx.ingressList).Sublist ctx.alive :=
        (singleton_sublist.2 isLast).append (sublist_append_right _ _)
      exact takeWhile_notAfter_eq_nil (ordered.sorted.sublist behindLast)
        (window.mono (cons_subset_cons _ behindLast.subset)) older
  obtain ⟨ingressStatus, ingressOutcome⟩ :=
    updateIngressList_spec arrival.insertionTs newFrame staleFirst
  generalize updateIngressList ctx.ingressList inEgress.desc inEgress.new arrival.insertionTs
    = inIngress at ingressStatus ingressOutcome ⊢
  rw [if_pos ingressStatus]
  have ingressOrdered : Ordered
      { ctx with egressList := inEgress.list, ingressList := inIngress.list } := by
    cases ingressOutcome with
    | kept list =>
      refine egressOrdered.of_alive_eq ?_ egressOrdered.egressReady
      rw [alive, list]
      rfl
    | inserted earlier later split list atOrAfter stops fresh notEgress present =>
      cases egressOutcome with
      | inserted => rename_i queued _; exact absurd queued notEgress
      | kept sameList _ _ _ behind =>
        rw [egressFrame] at list atOrAfter stops
        rw [sameList] at egressOrdered ⊢
        apply Ordered.insert (ctx.lastReleasedFrame.toList ++ framesOf ctx.egressList ++ earlier)
          later ordered instant window
        · rw [alive, split, append_assoc, append_assoc]
        · rw [alive, list, append_assoc, append_assoc]
        · intro other member
          rcases mem_append.1 member with early | inIngress
          · exact behind fresh present other early
          · exact atOrAfter other inIngress
        · exact stops
        · exact ordered.egressReady
  have ingressSane : checkSanityList inIngress.list = true := by
    apply checkSanityList_of_sorted
    apply ingressOrdered.sorted.sublist
    exact (sublist_append_right _ _).trans (sublist_append_right _ _)
  rw [if_pos ingressSane]
  exact ⟨rfl, ingressOrdered, rfl⟩

end Sm8650.MgmtReo
