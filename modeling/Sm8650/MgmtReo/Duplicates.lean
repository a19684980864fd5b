import Sm8650.MgmtReo.Delivery

/-!
# Management frame reordering: late and repeated frames

A frame whose packet counter is not newer than the host snapshot of its link is marked
for dropping, and still overwrites the snapshot. So a frame is compared with the frame
just before it, marked or not, and not with the newest frame accepted.
-/

namespace Sm8650.MgmtReo

open Data List Function ReoSystem

namespace Arrival

/-- The frame or event reaches `wlan_mgmt_rx_reo_update_host_snapshot`. -/
def reachesSnapshot (arrival : Arrival) : Bool :=
  arrival.descriptor.frameTypeMgt && arrival.rxParams.valid

/-- The packet counter. -/
def ctr (arrival : Arrival) : BitVec 16 :=
  arrival.rxParams.mgmtPktCtr

/-- A frame for the host that needs no reordering. -/
def direct (arrival : Arrival) : Bool :=
  (arrival.type == .hostConsumedFrame) && !arrival.descriptor.reoRequired

/-- The frame is newer than an earlier one. -/
def Newer (arrival earlier : Arrival) : Prop :=
  comparePktCtrsGte earlier.ctr arrival.ctr = false

instance (arrival earlier : Arrival) : Decidable (arrival.Newer earlier) :=
  inferInstanceAs (Decidable (_ = _))

/-- `wlan_mgmt_rx_reo_update_host_snapshot` marks the frame for dropping. -/
def marked (config : Config) (ctx : ReoContext) (arrival : Arrival) : Bool :=
  (updateHostSnapshot config (ctx.hostSnapshot arrival.rxParams.linkId) arrival.descriptor).2.2.drop

end Arrival

/-- The frames of a link that reach the host snapshot. -/
def framesOn (link : Link) : List Event → List Arrival
  | [] => []
  | .arrive arrival :: events =>
    if arrival.rxParams.linkId = link ∧ arrival.reachesSnapshot = true then
      arrival :: framesOn link events
    else
      framesOn link events
  | _ :: events => framesOn link events

/-- The frames of a link that are not marked, in the order of a run. -/
def acceptedOn (config : Config) (link : Link) : ReoSystem → List Event → List Arrival
  | _, [] => []
  | sys, .arrive arrival :: events =>
    if arrival.rxParams.linkId = link ∧ arrival.reachesSnapshot = true
        ∧ arrival.marked config sys.ctx = false then
      arrival :: acceptedOn config link (sys.step config (.arrive arrival)) events
    else
      acceptedOn config link (sys.step config (.arrive arrival)) events
  | sys, event :: events => acceptedOn config link (sys.step config event) events

/-- No marked frame of a link is handed up by the handler or queued. -/
def MarkedHeld (config : Config) (link : Link) : ReoSystem → List Event → Prop
  | _, [] => True
  | sys, .arrive arrival :: events =>
    (arrival.rxParams.linkId = link → arrival.reachesSnapshot = true →
      arrival.marked config sys.ctx = true →
        handedUpByHandler arrival (algoEntry config sys.ctx arrival) = false ∧
          (algoEntry config sys.ctx arrival).isQueued = false) ∧
    MarkedHeld config link (sys.step config (.arrive arrival)) events
  | sys, event :: events => MarkedHeld config link (sys.step config event) events

/-- The accepted frames of a link have strictly increasing packet counters, and marked
frames stay away from the upper layer. -/
structure RejectsDuplicates (config : Config) (link : Link) (events : List Event) : Prop where
  increasing :
    (acceptedOn config link .initial events).Pairwise fun earlier later => later.Newer earlier
  held : MarkedHeld config link .initial events

/-- Every frame that is newer than the frame just before it is newer than all earlier
frames, and every other frame needs reordering or is not for the host. `earlier` holds
the frames seen, the latest first. -/
def NewestOrHeld : List Arrival → List Arrival → Prop
  | _, [] => True
  | [], frame :: frames => NewestOrHeld [frame] frames
  | previous :: older, frame :: frames =>
    (if frame.Newer previous then ∀ other ∈ older, frame.Newer other
    else frame.direct = false) ∧
      NewestOrHeld (frame :: previous :: older) frames

/-! ## The host snapshot of a link -/

/-- The host snapshot of a link is the last frame that reached it. -/
def SnapshotOf (hostSs : Snapshot) : List Arrival → Prop
  | [] => hostSs.valid = false
  | previous :: _ => hostSs.valid = true ∧ hostSs.mgmtPktCtr = previous.ctr

theorem hostSnapshot_updateLists (config : Config) (ctx : ReoContext) (desc : FrameDescriptor)
    (arrival : Arrival) :
    (updateLists config ctx desc arrival).ctx.hostSnapshot = ctx.hostSnapshot := by
  unfold updateLists
  split
  · rfl
  dsimp only
  generalize (if desc.type = .hostConsumedFrame ∧ desc.reoRequired = true then
    some (prepareListEntry desc) else none) = new
  split
  · split
    · split <;> rfl
    · rfl
  · rfl

variable {config : Config} (handling : config.errorHandling = true)
  (noThresh : config.pktCtrDeltaThresh = 0)

include handling in
theorem checkFrameSanity_eq {desc : FrameDescriptor} (valid : desc.rxParams.valid = true) :
    checkFrameSanity config desc = (.success, desc) := by
  simp [checkFrameSanity, valid, handling]

include handling noThresh in
/-- A frame that reaches the host snapshot leaves its own counter there; it is marked
when it is not newer than the counter before. -/
theorem algoEntry_of_reaches (ctx : ReoContext) {arrival : Arrival}
    (reaches : arrival.reachesSnapshot = true) :
    arrival.marked config ctx = outOfOrder (ctx.hostSnapshot arrival.rxParams.linkId)
        arrival.rxParams ∧
      (algoEntry config ctx arrival).ctx.hostSnapshot
        = update ctx.hostSnapshot arrival.rxParams.linkId arrival.rxParams.snapshot ∧
      (arrival.marked config ctx = true →
        (algoEntry config ctx arrival).status = .success ∧
        (algoEntry config ctx arrival).desc.drop = true ∧
        (algoEntry config ctx arrival).isQueued = false) := by
  obtain ⟨isMgt, valid⟩ := Bool.and_eq_true_iff.1 reaches
  have sane : checkFrameSanity config arrival.descriptor = (.success, arrival.descriptor) :=
    checkFrameSanity_eq handling valid
  obtain ⟨delta, reason, updated⟩ := updateHostSnapshot_eq config
    (ctx.hostSnapshot arrival.rxParams.linkId) arrival.descriptor handling noThresh valid
  have markedEq : arrival.marked config ctx
      = outOfOrder (ctx.hostSnapshot arrival.rxParams.linkId) arrival.rxParams := by
    rw [Arrival.marked, updated]
    rfl
  refine ⟨markedEq, ?_, ?_⟩
  · unfold algoEntry
    dsimp only
    rw [if_pos isMgt, sane, if_pos rfl, updated, if_pos rfl]
    split
    · rfl
    split
    · rw [hostSnapshot_updateLists]
      rfl
    · rfl
  · intro isMarked
    rw [markedEq] at isMarked
    unfold algoEntry
    dsimp only
    rw [if_pos isMgt, sane, if_pos rfl, updated, if_pos rfl]
    have dropped : (arrival.descriptor.drop || outOfOrder
        (ctx.hostSnapshot arrival.rxParams.linkId) arrival.descriptor.rxParams) = true :=
      isMarked
    rw [if_pos dropped]
    exact ⟨rfl, dropped, rfl⟩

variable {sys : ReoSystem}

include handling noThresh in
/-- Only a frame of the link that reaches the host snapshot changes it. -/
theorem hostSnapshot_step {event : Event} {link : Link}
    (other : ∀ arrival, event = .arrive arrival → ¬ (arrival.rxParams.linkId = link ∧ arrival.reachesSnapshot = true))
    : (sys.step config event).ctx.hostSnapshot link = sys.ctx.hostSnapshot link := by
  cases event with
  | arrive arrival =>
    have notBoth := other arrival rfl
    by_cases reaches : arrival.reachesSnapshot = true
    · have otherLink : link ≠ arrival.rxParams.linkId :=
        fun same => notBoth ⟨same.symm, reaches⟩
      rw [step, (algoEntry_of_reaches handling noThresh _ reaches).2.1, update_of_ne otherLink]
    · have sameCtx : (algoEntry config sys.ctx arrival).ctx = sys.ctx := by
        unfold algoEntry
        dsimp only
        split
        · rename_i isMgt
          have invalid : arrival.descriptor.rxParams.valid = false := by
            rw [Bool.eq_false_iff]
            exact fun valid => reaches (Bool.and_eq_true_iff.2 ⟨isMgt, valid⟩)
          simp [checkFrameSanity, invalid]
        · rfl
      rw [step, sameCtx]
  | ageout curTs => rfl
  | move =>
    rw [step]
    unfold moveEntriesIngressToEgressList
    dsimp only
    split
    · rfl
    · split <;> rfl
  | release =>
    rw [step]
    split
    · unfold releaseEgressListEntry
      split
      · rfl
      · split
        · split
          · rfl
          · split
            · rfl
            · split <;> rfl
        · rfl
    · rfl
  | sendUp =>
    rw [step]
    split <;> rfl

/-! ## The condition -/

/-- The frames accepted so far cover the frames seen so far: every frame seen is not
newer than an accepted one, and every accepted one was seen. -/
structure Covers (accepted earlier : List Arrival) : Prop where
  covered : ∀ frame ∈ earlier, ∃ top ∈ accepted, ¬ frame.Newer top
  seen : ∀ top ∈ accepted, top ∈ earlier

/-- The counters of the frames lie in a window shorter than half of the range. -/
def CtrsWithin (base : BitVec 16) (frames : List Arrival) : Prop :=
  ∀ frame ∈ frames, Serial.Within base frame.ctr

instance (base : BitVec 16) (frames : List Arrival) : Decidable (CtrsWithin base frames) :=
  inferInstanceAs (Decidable (∀ frame ∈ frames, _))

variable {base : BitVec 16}

theorem Arrival.newer_iff {frame earlier : Arrival} (frameWithin : Serial.Within base frame.ctr)
    (earlierWithin : Serial.Within base earlier.ctr) :
    frame.Newer earlier ↔ (earlier.ctr - base).toNat < (frame.ctr - base).toNat := by
  rw [Arrival.Newer, comparePktCtrsGte, Bool.eq_false_iff, ne_eq,
    Serial.gte_iff earlierWithin frameWithin, Nat.not_le]

/-- A frame newer than the one before it is newer than all accepted frames exactly where
it is newer than all earlier frames. -/
theorem Covers.newer_iff {accepted older : List Arrival} {frame previous : Arrival}
    (covers : Covers accepted (previous :: older))
    (within : CtrsWithin base (frame :: previous :: older)) (newer : frame.Newer previous) :
    (∀ top ∈ accepted, frame.Newer top) ↔ ∀ other ∈ older, frame.Newer other := by
  have frameWithin := within frame mem_cons_self
  constructor
  · intro newerThanAccepted other otherMem
    have otherWithin := within other (by simp [otherMem])
    obtain ⟨top, topMem, notNewer⟩ := covers.covered other (mem_cons_of_mem _ otherMem)
    have topWithin := within top (mem_cons_of_mem _ (covers.seen top topMem))
    have above := newerThanAccepted top topMem
    rw [Arrival.newer_iff otherWithin topWithin] at notNewer
    rw [Arrival.newer_iff frameWithin topWithin] at above
    rw [Arrival.newer_iff frameWithin otherWithin]
    omega
  · intro newerThanOlder top topMem
    rcases mem_cons.1 (covers.seen top topMem) with rfl | inOlder
    · exact newer
    · exact newerThanOlder top inOlder

/-- A marked frame is covered by what covers the frame before it. -/
theorem Covers.marked {accepted older : List Arrival} {frame previous : Arrival}
    (covers : Covers accepted (previous :: older))
    (within : CtrsWithin base (frame :: previous :: older)) (late : ¬ frame.Newer previous) :
    Covers accepted (frame :: previous :: older) where
  covered := by
    intro other otherMem
    rcases mem_cons.1 otherMem with rfl | seenBefore
    · obtain ⟨top, topMem, notNewer⟩ := covers.covered previous mem_cons_self
      refine ⟨top, topMem, ?_⟩
      have otherWithin := within other mem_cons_self
      have previousWithin := within previous (by simp)
      have topWithin := within top (mem_cons_of_mem _ (covers.seen top topMem))
      rw [Arrival.newer_iff otherWithin previousWithin] at late
      rw [Arrival.newer_iff previousWithin topWithin] at notNewer
      rw [Arrival.newer_iff otherWithin topWithin]
      omega
    · exact covers.covered other seenBefore
  seen := fun top topMem => mem_cons_of_mem _ (covers.seen top topMem)

/-- An accepted frame covers itself. -/
theorem Covers.accepted {accepted earlier : List Arrival} {frame : Arrival}
    (covers : Covers accepted earlier) : Covers (frame :: accepted) (frame :: earlier) where
  covered := by
    intro other otherMem
    rcases mem_cons.1 otherMem with rfl | seenBefore
    · refine ⟨other, mem_cons_self, ?_⟩
      rw [Arrival.Newer, comparePktCtrsGte, Serial.gte_self]
      exact Bool.true_eq_false.mp
    · obtain ⟨top, topMem, notNewer⟩ := covers.covered other seenBefore
      exact ⟨top, mem_cons_of_mem _ topMem, notNewer⟩
  seen := by
    intro top topMem
    rcases mem_cons.1 topMem with rfl | acceptedBefore
    · exact mem_cons_self
    · exact mem_cons_of_mem _ (covers.seen top acceptedBefore)

/-- What the rest of a run promises: increasing counters, all newer than the accepted
frames, and no marked frame handed up. -/
structure RejectsFrom (config : Config) (link : Link) (accepted : List Arrival)
    (sys : ReoSystem) (events : List Event) : Prop where
  increasing : (acceptedOn config link sys events).Pairwise fun earlier later => later.Newer earlier
  newer : ∀ top ∈ accepted, ∀ frame ∈ acceptedOn config link sys events, frame.Newer top
  held : MarkedHeld config link sys events

variable {accepted : List Arrival} {events : List Event}

/-- An event that is no frame of the link changes nothing for the link. -/
theorem rejectsFrom_cons_other {link : Link} {event : Event}
    (other : ∀ arrival, event = .arrive arrival → ¬ (arrival.rxParams.linkId = link ∧ arrival.reachesSnapshot = true))
    :
    (RejectsFrom config link accepted sys (event :: events) ↔
        RejectsFrom config link accepted (sys.step config event) events) ∧
      framesOn link (event :: events) = framesOn link events := by
  have sameAccepted : acceptedOn config link sys (event :: events)
      = acceptedOn config link (sys.step config event) events := by
    cases event with
    | arrive arrival =>
      rw [acceptedOn, if_neg]
      exact fun all => other arrival rfl ⟨all.1, all.2.1⟩
    | _ => rfl
  have sameHeld : MarkedHeld config link sys (event :: events) ↔
      MarkedHeld config link (sys.step config event) events := by
    cases event with
    | arrive arrival =>
      rw [MarkedHeld, and_iff_right_iff_imp]
      exact fun _ onLink reaches => absurd ⟨onLink, reaches⟩ (other arrival rfl)
    | _ => rfl
  constructor
  · constructor
    · rintro ⟨increasing, newer, held⟩
      rw [sameAccepted] at increasing newer
      exact ⟨increasing, newer, sameHeld.1 held⟩
    · rintro ⟨increasing, newer, held⟩
      rw [← sameAccepted] at increasing newer
      exact ⟨increasing, newer, sameHeld.2 held⟩
  · cases event with
    | arrive arrival => rw [framesOn, if_neg (other arrival rfl)]
    | _ => rfl

include handling noThresh in
/-- The handler hands a marked frame up exactly when the frame is direct. -/
theorem handedUpByHandler_of_marked {ctx : ReoContext} {arrival : Arrival}
    (reaches : arrival.reachesSnapshot = true) (marked : arrival.marked config ctx = true) :
    handedUpByHandler arrival (algoEntry config ctx arrival) = arrival.direct := by
  obtain ⟨status, drop, notQueued⟩ :=
    (algoEntry_of_reaches handling noThresh _ reaches).2.2 marked
  simp [handedUpByHandler, algoEntryStatus, status, drop, notQueued, Arrival.direct]

include handling noThresh in
/-- A marked frame adds nothing to the accepted frames. -/
theorem rejectsFrom_cons_marked {frame : Arrival} (reaches : frame.reachesSnapshot = true)
    (marked : frame.marked config sys.ctx = true) :
    RejectsFrom config frame.rxParams.linkId accepted sys (.arrive frame :: events) ↔
      frame.direct = false ∧
        RejectsFrom config frame.rxParams.linkId accepted (sys.step config (.arrive frame))
          events := by
  have sameAccepted : acceptedOn config frame.rxParams.linkId sys (.arrive frame :: events)
      = acceptedOn config frame.rxParams.linkId (sys.step config (.arrive frame)) events := by
    rw [acceptedOn, if_neg]
    rintro ⟨-, -, unmarked⟩
    rw [marked] at unmarked
    cases unmarked
  have notQueued := ((algoEntry_of_reaches handling noThresh _ reaches).2.2 marked).2.2
  have handed := handedUpByHandler_of_marked handling noThresh reaches marked
  constructor
  · rintro ⟨increasing, newer, heldHere, held⟩
    rw [sameAccepted] at increasing newer
    exact ⟨handed ▸ (heldHere rfl reaches marked).1, increasing, newer, held⟩
  · rintro ⟨notDirect, increasing, newer, held⟩
    rw [← sameAccepted] at increasing newer
    exact ⟨increasing, newer, fun _ _ _ => ⟨handed.trans notDirect, notQueued⟩, held⟩

/-- An accepted frame is newer than the accepted ones before and older than the ones
behind. -/
theorem rejectsFrom_cons_accepted {frame : Arrival} (reaches : frame.reachesSnapshot = true)
    (unmarked : frame.marked config sys.ctx = false) :
    RejectsFrom config frame.rxParams.linkId accepted sys (.arrive frame :: events) ↔
      (∀ top ∈ accepted, frame.Newer top) ∧
        RejectsFrom config frame.rxParams.linkId (frame :: accepted)
          (sys.step config (.arrive frame)) events := by
  have grown : acceptedOn config frame.rxParams.linkId sys (.arrive frame :: events)
      = frame :: acceptedOn config frame.rxParams.linkId (sys.step config (.arrive frame))
          events := by
    rw [acceptedOn, if_pos ⟨rfl, reaches, unmarked⟩]
  constructor
  · rintro ⟨increasing, newer, -, held⟩
    rw [grown, pairwise_cons] at increasing
    rw [grown] at newer
    refine ⟨fun top topMem => newer top topMem frame mem_cons_self, increasing.2, ?_, held⟩
    intro top topMem later laterMem
    rcases mem_cons.1 topMem with rfl | acceptedBefore
    · exact increasing.1 later laterMem
    · exact newer top acceptedBefore later (mem_cons_of_mem _ laterMem)
  · rintro ⟨newerThanAccepted, increasing, newer, held⟩
    refine ⟨?_, ?_, ?_, held⟩
    · rw [grown, pairwise_cons]
      exact ⟨newer frame mem_cons_self, increasing⟩
    · rw [grown]
      intro top topMem later laterMem
      rcases mem_cons.1 laterMem with rfl | behind
      · exact newerThanAccepted top topMem
      · exact newer top (mem_cons_of_mem _ topMem) later behind
    · intro _ _ marked
      rw [unmarked] at marked
      cases marked

include handling noThresh in
/-- The rest of a run rejects duplicates exactly when the rest of the frames meets the
condition, by induction on the events. -/
theorem rejectsFrom_iff {link : Link} {accepted earlier : List Arrival} (events : List Event)
    (snapshot : SnapshotOf (sys.ctx.hostSnapshot link) earlier) (covers : Covers accepted earlier)
    (within : CtrsWithin base (framesOn link events ++ earlier)) :
    RejectsFrom config link accepted sys events ↔ NewestOrHeld earlier (framesOn link events) := by
  induction events generalizing sys accepted earlier with
  | nil =>
    constructor
    · intro _
      cases earlier <;> trivial
    · intro _
      exact ⟨List.Pairwise.nil, fun _ _ _ absent => (not_mem_nil absent).elim, trivial⟩
  | cons event events ih =>
    by_cases isFrame : ∃ frame, event = .arrive frame ∧
        frame.rxParams.linkId = link ∧ frame.reachesSnapshot = true
    case neg =>
      have other : ∀ arrival, event = .arrive arrival →
          ¬ (arrival.rxParams.linkId = link ∧ arrival.reachesSnapshot = true) :=
        fun arrival isArrival both => isFrame ⟨arrival, isArrival, both⟩
      obtain ⟨sameRun, sameFrames⟩ :
          (RejectsFrom config link accepted sys (event :: events) ↔ _) ∧ _ :=
        rejectsFrom_cons_other other
      rw [sameFrames] at within ⊢
      rw [sameRun]
      apply ih _ covers within
      rw [hostSnapshot_step handling noThresh other]
      exact snapshot
    case pos =>
      obtain ⟨frame, rfl, rfl, reaches⟩ := isFrame
      obtain ⟨markedEq, nextSnapshot, -⟩ :=
        algoEntry_of_reaches handling noThresh sys.ctx reaches
      have frames : framesOn frame.rxParams.linkId (.arrive frame :: events)
          = frame :: framesOn frame.rxParams.linkId events := by
        rw [framesOn, if_pos ⟨rfl, reaches⟩]
      rw [frames] at within ⊢
      have snapshotAfter : SnapshotOf
          ((sys.step config (.arrive frame)).ctx.hostSnapshot frame.rxParams.linkId)
          (frame :: earlier) := by
        rw [step, nextSnapshot, update_self]
        exact ⟨rfl, rfl⟩
      have withinAfter : CtrsWithin base
          (framesOn frame.rxParams.linkId events ++ frame :: earlier) := by
        intro other otherMem
        apply within
        rcases mem_append.1 otherMem with behind | here
        · exact mem_cons_of_mem _ (mem_append_left _ behind)
        · rcases mem_cons.1 here with rfl | before
          · exact mem_cons_self
          · exact mem_cons_of_mem _ (mem_append_right _ before)
      cases earlier with
      | nil =>
        -- The first frame of the link.
        have unmarked : frame.marked config sys.ctx = false := by
          rw [markedEq, outOfOrder, show Snapshot.valid _ = false from snapshot]
          rfl
        rw [rejectsFrom_cons_accepted reaches unmarked,
          ih snapshotAfter covers.accepted withinAfter, NewestOrHeld, and_iff_right_iff_imp]
        exact fun _ top topMem => (not_mem_nil (covers.seen top topMem)).elim
      | cons previous older =>
        have older_eq : frame.marked config sys.ctx = comparePktCtrsGte previous.ctr frame.ctr := by
          rw [markedEq, outOfOrder, snapshot.1, snapshot.2]
          rfl
        have frameWithin : CtrsWithin base (frame :: previous :: older) := by
          intro other otherMem
          exact withinAfter other (mem_append_right _ otherMem)
        by_cases newer : frame.Newer previous
        · have unmarked : frame.marked config sys.ctx = false := older_eq.trans newer
          rw [rejectsFrom_cons_accepted reaches unmarked,
            ih snapshotAfter covers.accepted withinAfter, NewestOrHeld, if_pos newer,
            covers.newer_iff frameWithin newer]
        · have marked : frame.marked config sys.ctx = true := by
            rw [older_eq]
            exact Bool.of_not_eq_false newer
          rw [rejectsFrom_cons_marked handling noThresh reaches marked,
            ih snapshotAfter (covers.marked frameWithin newer) withinAfter, NewestOrHeld,
            if_neg newer]

include handling noThresh in
/-- The frames of a link are accepted with strictly increasing packet counters, and no
marked frame is handed up, exactly when every frame is newer than all earlier ones or
not newer than the one just before it and held back. -/
theorem rejectsDuplicates_iff {base : BitVec 16} (link : Link) (events : List Event)
    (within : CtrsWithin base (framesOn link events)) :
    RejectsDuplicates config link events ↔ NewestOrHeld [] (framesOn link events) := by
  have nothingSeen : Covers [] [] :=
    ⟨fun _ absent => (not_mem_nil absent).elim,
      fun _ absent => (not_mem_nil absent).elim⟩
  have fromStart : RejectsFrom config link [] .initial events ↔
      NewestOrHeld [] (framesOn link events) :=
    rejectsFrom_iff handling noThresh events rfl nothingSeen (by rwa [append_nil])
  rw [← fromStart]
  constructor
  · exact fun ⟨increasing, held⟩ =>
      ⟨increasing, fun _ absent => (not_mem_nil absent).elim, held⟩
  · exact fun ⟨increasing, _, held⟩ => ⟨increasing, held⟩

/-- A new frame, the next one and a repetition of it. -/
def repeatedFrames : List Event :=
  [.arrive (sampleArrival 1 10), .arrive (sampleArrival 2 20), .arrive (sampleArrival 2 20)]

theorem rejectsDuplicates_repeatedFrames :
    RejectsDuplicates sampleConfig 0 repeatedFrames := by
  have within : CtrsWithin 1 (framesOn 0 repeatedFrames) := by decide +kernel
  apply (rejectsDuplicates_iff rfl rfl 0 repeatedFrames within).2
  exact ⟨fun _ absent => (not_mem_nil absent).elim, rfl, trivial⟩

/-- A late frame, the one behind it and a repetition of the first: the counters are 5, 3,
4 and 5. -/
def lateFrames : List Event :=
  [.arrive (sampleArrival 5 10), .arrive (sampleArrival 3 20),
    .arrive (sampleArrival 4 30), .arrive (sampleArrival 5 40)]

/-- The late frame 3 is marked, and frames 4 and 5 are accepted behind frame 5. -/
theorem not_rejectsDuplicates :
    ¬ ∀ (config : Config) (base : BitVec 16) (link : Link) (events : List Event),
      config.errorHandling = true → config.pktCtrDeltaThresh = 0 →
        CtrsWithin base (framesOn link events) → RejectsDuplicates config link events := by
  intro always
  have within : CtrsWithin 3 (framesOn 0 lateFrames) := by decide +kernel
  have increasing := (always sampleConfig 3 0 lateFrames rfl rfl within).increasing
  exact absurd increasing (by decide +kernel)

end Sm8650.MgmtReo
