import Sm8650.Kgsl.Timeline
import Sm8650.Transition.Reach

/-!
# Queries of software timelines

A draw object announces to each of its timelines by which timestamp it is going to advance
it, and advances them when the timestamp has retired and that has been noticed. A query
looks ahead: it answers with the last announced advance whose timestamp has retired. The
answers never go down, whatever is announced and retired in between.

Sources: `kgsl_timeline.c`, `kgsl_drawobj.c`.
-/

namespace Sm8650.Kgsl

open Transition Function List Timeline

/-! ## The list of events -/

namespace Timeline

/-- The events are sorted, and the timeline has still to reach every one of them. -/
structure Upcoming (timeline : Timeline) : Prop where
  sorted : timeline.events.Pairwise fun first second => first.seqno ≤ second.seqno
  above : ∀ event ∈ timeline.events, timeline.value < event.seqno

variable {timeline : Timeline} {memory : FenceMemory} {checkTimestamp : Nat → BitVec 32 → Bool}

theorem mem_addSignal {signal event : TimelineEvent}
    (among : event ∈ (timeline.addSignal signal).events) :
    event ∈ timeline.events ∨ event = signal ∧ timeline.value < signal.seqno := by
  unfold addSignal at among
  split at among
  case isTrue => exact .inl among
  case isFalse notReached =>
    rw [mem_reverse, mem_orderedInsert, mem_reverse] at among
    rcases among with isSignal | before
    · exact .inr ⟨isSignal, BitVec.not_le.mp notReached⟩
    · exact .inl before

theorem subset_addSignal (signal : TimelineEvent) :
    timeline.events ⊆ (timeline.addSignal signal).events := by
  intro event among
  unfold addSignal
  split
  case isTrue => exact among
  case isFalse =>
    rw [mem_reverse, mem_orderedInsert, mem_reverse]
    exact .inr among

/-- The new event is put after the last one that is not above it. -/
theorem Upcoming.addSignal (upcoming : timeline.Upcoming) (signal : TimelineEvent) :
    (timeline.addSignal signal).Upcoming := by
  constructor
  case sorted =>
    unfold Timeline.addSignal
    split
    case isTrue => exact upcoming.sorted
    case isFalse =>
      rw [pairwise_reverse]
      exact (pairwise_reverse.mpr upcoming.sorted).orderedInsert _ _
  case above =>
    intro event among
    rw [addSignal_value]
    rcases mem_addSignal among with before | ⟨rfl, above⟩
    · exact upcoming.above event before
    · exact above

/-- A signal takes the events that are reached off the list, and no others. -/
theorem Upcoming.mem_signal (upcoming : timeline.Upcoming) {seqno : U64} {event : TimelineEvent} :
    event ∈ (timeline.signal memory seqno).1.events
      ↔ event ∈ timeline.events ∧ seqno < event.seqno := by
  unfold signal
  split
  case isTrue below =>
    constructor
    · exact fun among => ⟨among, Nat.lt_trans below (upcoming.above event among)⟩
    · exact And.left
  case isFalse =>
    have sorted := upcoming.sorted
    dsimp only
    generalize timeline.events = events at sorted ⊢
    induction events with
    | nil => simp
    | cons first rest ih =>
      have tail := ih sorted.of_cons
      rw [dropWhile_cons]
      split
      case isTrue reached =>
        have reached := of_decide_eq_true reached
        refine tail.trans ?_
        rw [mem_cons]
        constructor
        · exact fun ⟨among, above⟩ => ⟨.inr among, above⟩
        · rintro ⟨rfl | among, above⟩
          · exact absurd reached (BitVec.not_le.mpr above)
          · exact ⟨among, above⟩
      case isFalse notReached =>
        have above : seqno < first.seqno :=
          BitVec.not_le.mp fun reached => notReached (decide_eq_true reached)
        constructor
        · intro among
          refine ⟨among, ?_⟩
          rcases mem_cons.mp among with rfl | later
          · exact above
          · exact Nat.lt_of_lt_of_le above (rel_of_pairwise_cons sorted later)
        · exact And.left

theorem Upcoming.signal (upcoming : timeline.Upcoming) (seqno : U64) :
    (timeline.signal memory seqno).1.Upcoming := by
  constructor
  case sorted =>
    unfold Timeline.signal
    split
    case isTrue => exact upcoming.sorted
    case isFalse => exact upcoming.sorted.sublist (dropWhile_sublist _)
  case above =>
    intro event among
    have kept := upcoming.mem_signal.mp among
    unfold Timeline.signal
    split
    case isTrue => exact upcoming.above event kept.1
    case isFalse => exact kept.2

/-- The answer of a query is the value or a retired event. -/
theorem query_eq (timeline : Timeline) (checkTimestamp : Nat → BitVec 32 → Bool) :
    timeline.query checkTimestamp = timeline.value
      ∨ ∃ event ∈ timeline.events, checkTimestamp event.context event.timestamp = true
        ∧ timeline.query checkTimestamp = event.seqno := by
  unfold query
  split
  case h_1 event found =>
    right
    have retired := find?_some found
    exact ⟨event, mem_reverse.mp (mem_of_find?_eq_some found), retired, rfl⟩
  case h_2 => exact .inl rfl

theorem Upcoming.value_le_query (upcoming : timeline.Upcoming) :
    timeline.value ≤ timeline.query checkTimestamp := by
  rcases timeline.query_eq checkTimestamp with isValue | ⟨event, among, _, isSeqno⟩
  · rw [isValue]
    exact BitVec.le_refl _
  · rw [isSeqno]
    exact BitVec.le_of_lt (upcoming.above event among)

/-- No retired event is above the answer: the search starts at the end of a sorted list. -/
theorem Upcoming.le_query (upcoming : timeline.Upcoming) {event : TimelineEvent}
    (among : event ∈ timeline.events)
    (retired : checkTimestamp event.context event.timestamp = true) :
    event.seqno ≤ timeline.query checkTimestamp := by
  have sorted := pairwise_reverse.mpr upcoming.sorted
  have among := mem_reverse.mpr among
  unfold query
  generalize timeline.events.reverse = events at sorted among ⊢
  induction events with
  | nil => exact absurd among not_mem_nil
  | cons last front ih =>
    by_cases lastRetired : checkTimestamp last.context last.timestamp = true
    · simp only [find?_cons, lastRetired]
      rcases mem_cons.mp among with rfl | earlier
      · exact BitVec.le_refl _
      · exact rel_of_pairwise_cons sorted earlier
    · simp only [find?_cons, lastRetired]
      rcases mem_cons.mp among with rfl | earlier
      · exact absurd retired lastRetired
      · exact ih sorted.of_cons earlier

/-- The answer does not go down where the value does not, retired timestamps stay retired, and
an event leaves the list only when it is reached. -/
theorem Upcoming.query_le_query {next : Timeline} {nextCheck : Nat → BitVec 32 → Bool}
    (upcoming : next.Upcoming) (grows : timeline.value ≤ next.value)
    (stays : ∀ event ∈ timeline.events, checkTimestamp event.context event.timestamp = true →
      event ∈ next.events ∧ nextCheck event.context event.timestamp = true
        ∨ event.seqno ≤ next.value) : timeline.query checkTimestamp ≤ next.query nextCheck := by
  rcases timeline.query_eq checkTimestamp with isValue | ⟨event, among, retired, isSeqno⟩
  · rw [isValue]
    exact BitVec.le_trans grows upcoming.value_le_query
  · rw [isSeqno]
    rcases stays event among retired with ⟨still, stillRetired⟩ | reached
    · exact upcoming.le_query still stillRetired
    · exact BitVec.le_trans reached upcoming.value_le_query

end Timeline

/-! ## Draw objects -/

/-- How far `timelineobj_destroy` has come, when the object is popped. -/
inductive PopPhase
  | waiting
  | adding (next : Nat)
  | popped
  deriving DecidableEq, Repr

/-- How far `_drawobj_timelineobj_retire` has come. -/
inductive RetirePhase
  | waiting
  | signalling (next : Nat)
  | freed
  deriving DecidableEq, Repr

/-- `struct kgsl_drawobj_timeline`, the two calls on it, and whether its event has still to
expire. -/
structure TimelineObject where
  timelines : List TimelineEvent
  sigRefcount : Nat
  registered : Bool
  pop : PopPhase
  retire : RetirePhase
  deriving DecidableEq, Repr

namespace TimelineObject

/-- `kgsl_timelineobj_signal`: who puts the last reference retires the object. -/
def signal (object : TimelineObject) : TimelineObject :=
  { object with
    sigRefcount := object.sigRefcount - 1
    retire := if object.sigRefcount - 1 = 0 then .signalling 0 else object.retire }

/-- `kgsl_drawobj_timeline_create` and `kgsl_drawobj_add_timeline`: an array of entries with
the context and its last queued timestamp, the reference of the scheduler and the one of the
event. -/
def submit (object context : Nat) (queued : BitVec 32) (vals : List (Nat × U64)) :
    TimelineObject where
  timelines := vals.mapIdx fun index val => ⟨object, index, val.1, val.2, context, queued⟩
  sigRefcount := 2
  registered := true
  pop := .waiting
  retire := .waiting

theorem signal_waits {object : TimelineObject} (waits : object.retire = .waiting)
    (referenced : object.signal.sigRefcount ≠ 0) : object.signal.retire = .waiting := by
  unfold signal at referenced ⊢
  rw [if_neg referenced]
  exact waits

theorem signal_retire (object : TimelineObject) :
    object.signal.retire = object.retire ∨ object.signal.retire = .signalling 0 := by
  unfold signal
  split
  · exact .inr rfl
  · exact .inl rfl

/-- Memory that is no draw object. -/
def unallocated : TimelineObject :=
  ⟨[], 0, false, .popped, .freed⟩

end TimelineObject

/-- An answer of `kgsl_ioctl_timeline_query`, and the value of the timeline at that time. -/
structure Answer where
  value : U64
  seqno : U64
  deriving DecidableEq, Repr

/-- The timelines, the fences, the draw objects with the number of those that have been
submitted, which timestamps of which contexts have retired, and what has been answered for each
timeline, the last answer first. -/
structure QuerySystem where
  timelines : Nat → Timeline
  memory : FenceMemory
  objects : Nat → TimelineObject
  objectCount : Nat
  retired : Nat → BitVec 32 → Bool
  answers : Nat → List Answer

/-- A draw object is submitted, popped and retired in several sections; its event expires;
timestamps retire; and users signal and query timelines. -/
inductive QueryAction
  | submit (context : Nat) (queued : BitVec 32) (vals : List (Nat × U64))
  | pop (object : Nat)
  | addSignal (object : Nat)
  | timelineSignaled (object : Nat)
  | retire (object : Nat)
  | retireTimestamps (more : Nat → BitVec 32 → Bool)
  | signal (timeline : Nat) (seqno : U64)
  | query (timeline : Nat)

namespace QuerySystem

/-- Timelines without events, and no draw objects. -/
def start (timelines : Nat → Timeline) (memory : FenceMemory)
    (retired : Nat → BitVec 32 → Bool) : QuerySystem where
  timelines timeline := { timelines timeline with events := [] }
  memory := memory
  objects _ := .unallocated
  objectCount := 0
  retired := retired
  answers _ := []

/-- The system with another draw object. -/
def withObject (system : QuerySystem) (object : Nat) (changed : TimelineObject) : QuerySystem :=
  { system with objects := update system.objects object changed }

/-- `kgsl_timeline_signal` -/
def signal (system : QuerySystem) (timeline : Nat) (seqno : U64) : QuerySystem :=
  let result := (system.timelines timeline).signal system.memory seqno
  { system with
    timelines := update system.timelines timeline result.1
    memory := result.2 }

/-- The next step of `timelineobj_destroy`: each entry is announced, then the reference of the
scheduler is put. -/
def addSignal (system : QuerySystem) (object : Nat) : QuerySystem :=
  let old := system.objects object
  match old.pop with
  | .adding next =>
    match old.timelines[next]? with
    | some event =>
      { system.withObject object { old with pop := .adding (next + 1) } with
        timelines := update system.timelines event.timeline
          ((system.timelines event.timeline).addSignal event) }
    | none => system.withObject object { old.signal with pop := .popped }
  | _ => system

/-- The next step of `_drawobj_timelineobj_retire`: each timeline is signalled, then the array
is freed. -/
def retire (system : QuerySystem) (object : Nat) : QuerySystem :=
  let old := system.objects object
  match old.retire with
  | .signalling next =>
    match old.timelines[next]? with
    | some event =>
      (system.signal event.timeline event.seqno).withObject object
        { old with retire := .signalling (next + 1) }
    | none => system.withObject object { old with timelines := [], retire := .freed }
  | _ => system

/-- One step. -/
def step (system : QuerySystem) : QueryAction → QuerySystem
  | .submit context queued vals =>
    { system.withObject system.objectCount (.submit system.objectCount context queued vals) with
      objectCount := system.objectCount + 1 }
  | .pop object =>
    let old := system.objects object
    if old.pop = .waiting then system.withObject object { old with pop := .adding 0 }
    else system
  | .addSignal object => system.addSignal object
  | .timelineSignaled object =>
    let old := system.objects object
    if old.registered then
      system.withObject object { old.signal with registered := false }
    else system
  | .retire object => system.retire object
  | .retireTimestamps more =>
    { system with
      retired := fun context timestamp =>
        system.retired context timestamp || more context timestamp }
  | .signal timeline seqno => system.signal timeline seqno
  | .query timeline =>
    let answer := ⟨(system.timelines timeline).value,
      (system.timelines timeline).query system.retired⟩
    { system with
      answers := update system.answers timeline (answer :: system.answers timeline) }

/-- The lists of events are sorted and above the values. -/
def Sorted (system : QuerySystem) : Prop :=
  ∀ timeline, (system.timelines timeline).Upcoming

/-- No list has an entry of an array that has been freed. -/
def NoneFreed (system : QuerySystem) : Prop :=
  ∀ timeline, ∀ event ∈ (system.timelines timeline).events,
    event ∈ (system.objects event.object).timelines ∧ (system.objects event.object).retire ≠ .freed

/-- The answers for a timeline have never gone down, and none was below the value. -/
def AnswersGrow (system : QuerySystem) : Prop :=
  ∀ timeline, (system.answers timeline).Pairwise (fun later earlier => earlier.seqno ≤ later.seqno)
    ∧ ∀ answer ∈ system.answers timeline, answer.value ≤ answer.seqno

/-! ## The invariant -/

/-- The retirement has not come past the entry at the index. -/
def NotPassed (index : Nat) : RetirePhase → Prop
  | .waiting => True
  | .signalling next => next ≤ index
  | .freed => False

/-- The array is filled with entries of this object, and the references that are left are those
of the scheduler and of the event; the retirement waits for both. -/
structure ObjectSound (object : Nat) (state : TimelineObject) : Prop where
  indexed : ∀ index (event : TimelineEvent), state.timelines[index]? = some event →
    event.index = index ∧ event.object = object
  refs : state.sigRefcount
    = (if state.pop = .popped then 0 else 1) + (if state.registered then 1 else 0)
  waits : state.sigRefcount ≠ 0 → state.retire = .waiting

/-- What holds between any two sections. -/
structure Sound (system : QuerySystem) : Prop where
  upcoming : system.Sorted
  entries : ∀ timeline, ∀ event ∈ (system.timelines timeline).events,
    event.timeline = timeline
      ∧ (system.objects event.object).timelines[event.index]? = some event
      ∧ NotPassed event.index (system.objects event.object).retire
  objects : ∀ object, ObjectSound object (system.objects object)
  fresh : ∀ object, system.objectCount ≤ object → system.objects object = .unallocated
  answered : ∀ timeline, ∀ answer ∈ system.answers timeline,
    answer.seqno ≤ (system.timelines timeline).query system.retired
  grown : system.AnswersGrow

variable {system : QuerySystem}

theorem objectSound_unallocated (object : Nat) : ObjectSound object TimelineObject.unallocated where
  indexed _ _ found := absurd found nofun
  refs := rfl
  waits referenced := absurd rfl referenced

theorem sound_start (timelines : Nat → Timeline) (memory : FenceMemory)
    (retired : Nat → BitVec 32 → Bool) : (start timelines memory retired).Sound where
  upcoming _ := ⟨.nil, fun _ among => absurd among not_mem_nil⟩
  entries _ _ among := absurd among not_mem_nil
  objects object := objectSound_unallocated object
  fresh _ _ := rfl
  answered _ _ among := absurd among not_mem_nil
  grown _ := ⟨.nil, fun _ among => absurd among not_mem_nil⟩

theorem Sound.noneFreed (sound : system.Sound) : system.NoneFreed := by
  intro timeline event among
  have entry := sound.entries timeline event among
  constructor
  · exact mem_of_getElem? entry.2.1
  · intro isFreed
    have notPassed := entry.2.2
    rw [isFreed] at notPassed
    exact notPassed

theorem withObject_objects (object : Nat) (changed : TimelineObject) (other : Nat) :
    (system.withObject object changed).objects other
      = if other = object then changed else system.objects other := by
  simp [withObject, update_apply]

variable {object : Nat}

/-- An object changes, and the array keeps the entries of it that are on lists. -/
theorem Sound.withObject (sound : system.Sound) {changed : TimelineObject} {objectCount : Nat}
    (grows : system.objectCount ≤ objectCount) (allocated : object < objectCount)
    (objectSound : ObjectSound object changed)
    (keeps : ∀ timeline, ∀ event ∈ (system.timelines timeline).events, event.object = object → changed.timelines[event.index]? = some event ∧ NotPassed event.index changed.retire)
    : Sound { system.withObject object changed with objectCount :=objectCount } where
  upcoming := sound.upcoming
  entries timeline event among := by
    have entry := sound.entries timeline event among
    refine ⟨entry.1, ?_⟩
    rw [withObject_objects]
    split
    case isTrue isObject => exact keeps timeline event among isObject
    case isFalse => exact entry.2
  objects other := by
    rw [withObject_objects]
    split
    case isTrue isObject => exact isObject ▸ objectSound
    case isFalse => exact sound.objects other
  fresh other above := by
    have isOther : other ≠ object := Nat.ne_of_gt (Nat.lt_of_lt_of_le allocated above)
    rw [withObject_objects, if_neg isOther]
    exact sound.fresh other (Nat.le_trans grows above)
  answered := sound.answered
  grown := sound.grown

/-- An object that is not memory of its own has been submitted. -/
theorem Sound.allocated (sound : system.Sound) (isObject : system.objects object ≠ .unallocated)
    : object < system.objectCount := by
  by_contra above
  exact isObject (sound.fresh object (Nat.not_lt.mp above))

/-- The same, for the steps that leave the array as it is and put no reference. -/
theorem Sound.withPhase (sound : system.Sound) {changed : TimelineObject}
    (isObject : system.objects object ≠ .unallocated) (objectSound : ObjectSound object changed)
    (timelines : changed.timelines = (system.objects object).timelines)
    (retire : changed.retire = (system.objects object).retire ∨ changed.retire = .signalling 0) :
    (system.withObject object changed).Sound := by
  apply sound.withObject (Nat.le_refl _) (sound.allocated isObject) objectSound
  rintro timeline event among rfl
  have entry := sound.entries timeline event among
  rw [timelines]
  refine ⟨entry.2.1, ?_⟩
  rcases retire with same | starts
  · exact same ▸ entry.2.2
  · exact starts ▸ Nat.zero_le _

/-- A timeline changes: new events are entries that have still to be signalled, and an event
leaves the list only when it is reached. -/
theorem Sound.withTimeline (sound : system.Sound) {timeline : Nat} {next : Timeline}
    (memory : FenceMemory) (upcoming : next.Upcoming)
    (grows : (system.timelines timeline).value ≤ next.value)
    (entries : ∀ event ∈ next.events, event ∈ (system.timelines timeline).events
      ∨ event.timeline = timeline
        ∧ (system.objects event.object).timelines[event.index]? = some event
        ∧ NotPassed event.index (system.objects event.object).retire)
    (stays : ∀ event ∈ (system.timelines timeline).events,
      event ∈ next.events ∨ event.seqno ≤ next.value) :
    Sound { system with
      timelines := update system.timelines timeline next
      memory := memory } where
  upcoming other := by
    dsimp only
    by_cases isTimeline : other = timeline
    · rw [isTimeline, update_self]
      exact upcoming
    · rw [update_of_ne isTimeline]
      exact sound.upcoming other
  entries other event among := by
    dsimp only at among
    by_cases isTimeline : other = timeline
    · rw [isTimeline, update_self] at among
      rw [isTimeline]
      rcases entries event among with before | isNew
      · exact sound.entries timeline event before
      · exact isNew
    · rw [update_of_ne isTimeline] at among
      exact sound.entries other event among
  objects := sound.objects
  fresh := sound.fresh
  answered other answer among := by
    dsimp only
    by_cases isTimeline : other = timeline
    · rw [isTimeline, update_self]
      rw [isTimeline] at among
      apply BitVec.le_trans (sound.answered timeline answer among)
      apply upcoming.query_le_query grows
      intro event isEvent retired
      rcases stays event isEvent with still | reached
      · exact .inl ⟨still, retired⟩
      · exact .inr reached
    · rw [update_of_ne isTimeline]
      exact sound.answered other answer among
  grown := sound.grown

theorem signal_timelines_self (timeline : Nat) (seqno : U64) :
    (system.signal timeline seqno).timelines timeline
      = ((system.timelines timeline).signal system.memory seqno).1 := by
  simp [QuerySystem.signal]

section

variable (sound : system.Sound)

include sound

theorem Sound.signal (timeline : Nat) (seqno : U64) : (system.signal timeline seqno).Sound := by
  have upcoming := sound.upcoming timeline
  apply sound.withTimeline _ (upcoming.signal seqno) (value_le_signal seqno)
  · intro event among
    exact .inl (upcoming.mem_signal.mp among).1
  · intro event among
    by_cases above : seqno < event.seqno
    · exact .inl (upcoming.mem_signal.mpr ⟨among, above⟩)
    · right
      exact BitVec.le_trans (BitVec.not_lt.mp above) seqno_le_signal

/-- What is put on a list is an entry of an object that has still to be retired. -/
theorem Sound.addSignal (object : Nat) : (system.addSignal object).Sound := by
  unfold QuerySystem.addSignal
  dsimp only
  have objectSound := sound.objects object
  split
  case h_2 => exact sound
  case h_1 next isAdding =>
    have isObject : system.objects object ≠ .unallocated := by
      intro isUnallocated
      rw [isUnallocated] at isAdding
      cases isAdding
    have referenced : (system.objects object).sigRefcount ≠ 0 := by
      rw [objectSound.refs, isAdding]
      exact Nat.ne_of_gt (Nat.add_pos_left Nat.one_pos _)
    have waits := objectSound.waits referenced
    split
    case h_2 =>
      apply sound.withPhase isObject
      · constructor
        case indexed => exact objectSound.indexed
        case refs => simp [TimelineObject.signal, objectSound.refs, isAdding]
        case waits => exact TimelineObject.signal_waits waits
      · rfl
      · exact TimelineObject.signal_retire _
    case h_1 event found =>
      have entry := objectSound.indexed next event found
      have announced := sound.withTimeline system.memory
        ((sound.upcoming event.timeline).addSignal event)
        (addSignal_value event ▸ BitVec.le_refl _)
        (by
          intro other among
          rcases mem_addSignal among with before | ⟨rfl, _⟩
          · exact .inl before
          · right
            rw [entry.1, entry.2, waits]
            exact ⟨rfl, found, trivial⟩)
        (fun other among => .inl (subset_addSignal event among))
      apply announced.withPhase isObject
      · constructor
        case indexed => exact objectSound.indexed
        case refs =>
          rw [objectSound.refs, isAdding]
          rfl
        case waits => exact objectSound.waits
      · rfl
      · exact .inl rfl

/-- The expiry of the event puts the other reference. -/
theorem Sound.timelineSignaled (registered : (system.objects object).registered = true) :
    (system.withObject object
      { (system.objects object).signal with registered := false }).Sound := by
  have objectSound := sound.objects object
  have isObject : system.objects object ≠ .unallocated := by
    intro isUnallocated
    rw [isUnallocated] at registered
    cases registered
  have referenced : (system.objects object).sigRefcount ≠ 0 := by
    rw [objectSound.refs, registered]
    exact Nat.succ_ne_zero _
  apply sound.withPhase isObject
  · constructor
    case indexed => exact objectSound.indexed
    case refs => simp [TimelineObject.signal, objectSound.refs, registered]
    case waits => exact TimelineObject.signal_waits (objectSound.waits referenced)
  · rfl
  · exact TimelineObject.signal_retire _

/-- An entry that has been signalled is on no list, and when all have been the array has none
there. -/
theorem Sound.retire (object : Nat) : (system.retire object).Sound := by
  unfold QuerySystem.retire
  dsimp only
  have objectSound := sound.objects object
  split
  case h_2 => exact sound
  case h_1 next isSignalling =>
    have allocated : object < system.objectCount := by
      apply sound.allocated
      intro isUnallocated
      rw [isUnallocated] at isSignalling
      cases isSignalling
    have unreferenced : (system.objects object).sigRefcount = 0 := by
      by_contra referenced
      have waits := objectSound.waits referenced
      rw [isSignalling] at waits
      cases waits
    split
    case h_1 event found =>
      have signalled := sound.signal event.timeline event.seqno
      apply signalled.withObject (Nat.le_refl _) allocated
      · exact ⟨objectSound.indexed, objectSound.refs, fun referenced =>
          absurd unreferenced referenced⟩
      · rintro timeline other among rfl
        have isEntry := signalled.entries timeline other among
        refine ⟨isEntry.2.1, ?_⟩
        have notPassed : next ≤ other.index := by
          have before := isEntry.2.2
          change NotPassed other.index (system.objects other.object).retire at before
          rw [isSignalling] at before
          exact before
        apply Nat.lt_of_le_of_ne notPassed
        rintro rfl
        have isSame : event = other := Option.some.inj (found.symm.trans isEntry.2.1)
        subst isSame
        rw [← isEntry.1] at among
        have above := (signalled.upcoming event.timeline).above event among
        have reached : event.seqno
            ≤ ((system.signal event.timeline event.seqno).timelines event.timeline).value := by
          rw [signal_timelines_self]
          exact seqno_le_signal
        exact absurd above (BitVec.not_lt.mpr reached)
    case h_2 finished =>
      apply sound.withObject (Nat.le_refl _) allocated
      · exact ⟨fun _ _ found => absurd found nofun, objectSound.refs, fun referenced =>
          absurd unreferenced referenced⟩
      · rintro timeline event among rfl
        have entry := sound.entries timeline event among
        rw [isSignalling] at entry
        have inside : next < (system.objects event.object).timelines.length :=
          Nat.lt_of_le_of_lt entry.2.2 (List.getElem?_eq_some_iff.mp entry.2.1).1
        rw [List.getElem?_eq_none_iff] at finished
        exact absurd inside (Nat.not_lt.mpr finished)

/-- The array of a new object is on no list. -/
theorem Sound.submit (context : Nat) (queued : BitVec 32)
    (vals : List (Nat × U64)) : (system.step (.submit context queued vals)).Sound := by
  apply sound.withObject (Nat.le_succ _) (Nat.lt_succ_self _)
  · constructor
    case indexed =>
      intro index event found
      rw [TimelineObject.submit, getElem?_mapIdx] at found
      obtain ⟨val, _, rfl⟩ := Option.map_eq_some_iff.mp found
      exact ⟨rfl, rfl⟩
    case refs => rfl
    case waits => exact fun _ => rfl
  · intro timeline event among isObject
    have entry := sound.entries timeline event among
    rw [isObject, sound.fresh _ (Nat.le_refl _)] at entry
    exact absurd entry.2.1 nofun

theorem Sound.retireTimestamps (more : Nat → BitVec 32 → Bool) :
    (system.step (.retireTimestamps more)).Sound :=
  { sound with
    answered timeline answer among := by
      apply BitVec.le_trans (sound.answered timeline answer among)
      apply (sound.upcoming timeline).query_le_query (BitVec.le_refl _)
      intro event isEvent retired
      left
      refine ⟨isEvent, ?_⟩
      show (_ || _) = true
      rw [retired, Bool.true_or] }

/-- A new answer is not below the earlier ones. -/
theorem Sound.query (timeline : Nat) : (system.step (.query timeline)).Sound :=
  { sound with
    answered other answer among := by
      change answer ∈ update system.answers timeline _ other at among
      by_cases isTimeline : other = timeline
      · rw [isTimeline, update_self] at among
        rw [isTimeline]
        rcases mem_cons.mp among with rfl | before
        · exact BitVec.le_refl _
        · exact sound.answered timeline answer before
      · rw [update_of_ne isTimeline] at among
        exact sound.answered other answer among
    grown other := by
      show List.Pairwise _ (update system.answers timeline _ other)
        ∧ ∀ answer ∈ update system.answers timeline _ other, _
      by_cases isTimeline : other = timeline
      · rw [isTimeline, update_self]
        have before := sound.grown timeline
        constructor
        · exact pairwise_cons.mpr ⟨sound.answered timeline, before.1⟩
        · intro answer among
          rcases mem_cons.mp among with rfl | earlier
          · exact (sound.upcoming timeline).value_le_query
          · exact before.2 answer earlier
      · rw [update_of_ne isTimeline]
        exact sound.grown other }

/-- Every step keeps the invariant. -/
theorem Sound.step (action : QueryAction) : (system.step action).Sound := by
  cases action with
  | submit context queued vals => exact sound.submit context queued vals
  | pop object =>
    unfold QuerySystem.step
    dsimp only
    split
    case isFalse => exact sound
    case isTrue waiting =>
      have objectSound := sound.objects object
      apply sound.withPhase
      · intro isUnallocated
        rw [isUnallocated] at waiting
        cases waiting
      · constructor
        case indexed => exact objectSound.indexed
        case refs =>
          rw [objectSound.refs, waiting]
          rfl
        case waits => exact objectSound.waits
      · rfl
      · exact .inl rfl
  | addSignal object => exact sound.addSignal object
  | timelineSignaled object =>
    unfold QuerySystem.step
    dsimp only
    split
    case isTrue registered => exact sound.timelineSignaled registered
    case isFalse => exact sound
  | retire object => exact sound.retire object
  | retireTimestamps more => exact sound.retireTimestamps more
  | signal timeline seqno => exact sound.signal timeline seqno
  | query timeline => exact sound.query timeline

end

/-- However draw objects are popped and retired, timelines signalled and queried and timestamps
retired, the lists of events are sorted above the values and have no entry of an array that is
gone, and the answers for each timeline grow and are never below its value. -/
theorem answersGrow (timelines : Nat → Timeline) (memory : FenceMemory)
    (retired : Nat → BitVec 32 → Bool) (actions : List QueryAction) :
    (actions.foldl step (start timelines memory retired)).Sorted
      ∧ (actions.foldl step (start timelines memory retired)).NoneFreed
      ∧ (actions.foldl step (start timelines memory retired)).AnswersGrow := by
  have sound : (actions.foldl step (start timelines memory retired)).Sound := by
    have run := Reaches.foldl (Allowed.always step (start timelines memory retired) actions)
    apply run.invariant (sound_start timelines memory retired)
    rintro system action next sound ⟨_, rfl⟩
    exact sound.step action
  exact ⟨sound.upcoming, sound.noneFreed, sound.grown⟩

end QuerySystem

end Sm8650.Kgsl
