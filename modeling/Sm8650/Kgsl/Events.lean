import Sm8650.Kgsl.Timestamp
import Sm8650.Transition.Reach

/-!
# Event groups

An event waits for a timestamp of its group to retire and is then handed to the events
worker. Whether it has to wait is asked once when it is registered, and again whenever
the group is processed; a group that has not advanced since is skipped. The retired
timestamp is the one of a counter that never goes back. Trace points are left out.

Source: `kgsl_events.c`.
-/

namespace Sm8650.Kgsl

open Transition List

/-- The results that an event can have: `KGSL_EVENT_RETIRED`, `KGSL_EVENT_CANCELLED`. -/
inductive EventResult
  | retired
  | cancelled
  deriving DecidableEq, Repr

/-- `struct kgsl_event`. `id` is its number in the order of registration, `due` the
counter behind its timestamp. -/
structure Event where
  timestamp : BitVec 32
  func : Nat
  priv : Nat
  id : Nat
  due : Int
  deriving DecidableEq, Repr

/-- `struct kgsl_event_group` with the events that the worker has been given, and those
among them that it has handled. `context` is the reference count of the context, if the
group has one. `retired` and `processedAt` are the counters behind the retired timestamp
and behind `processed`, `accepted` counts the registrations that returned 0, and `others`
the references to the context that are held for other reasons than an event. -/
structure EventGroup where
  context : Option Nat
  userGeneratedTs : Bool
  processed : BitVec 32
  events : List Event
  work : List (Event × EventResult)
  handled : List (Event × EventResult)
  retired : Int
  processedAt : Int
  accepted : Nat
  others : Nat
  deriving DecidableEq, Repr

namespace EventGroup

/-- `group->readtimestamp` for `KGSL_TIMESTAMP_RETIRED`. -/
def readRetired (group : EventGroup) : BitVec 32 :=
  ofCounter group.retired

/-- `signal_event` for each event of the list on which there is a verdict. -/
def signalEvents (group : EventGroup) (verdict : Event → Option EventResult) : EventGroup :=
  { group with
    events := group.events.filter fun event => (verdict event).isNone
    work := group.work ++ group.events.filterMap fun event => (verdict event).map (Prod.mk event) }

/-- `_do_process_group` -/
def doProcessGroup (processed cur : BitVec 32) : Bool :=
  if processed = cur then false
  else !(decide (cur < processed) && decide (processed - cur < kgslTimestampWindow))

/-- What `_process_event_group` decides on an event. -/
def processVerdict (timestamp : BitVec 32) (flush : Bool) (event : Event) :
    Option EventResult :=
  if timestampCmp event.timestamp timestamp ≤ 0 then some .retired
  else if flush then some .cancelled
  else none

/-- `_process_event_group`: a group whose context is going away is left alone. -/
def processEventGroup (group : EventGroup) (flush : Bool) : EventGroup :=
  if group.context = some 0 then group
  else if !flush && !doProcessGroup group.processed group.readRetired then group
  else
    { group.signalEvents (processVerdict group.readRetired flush) with
      processed := group.readRetired, processedAt := group.retired }

/-- `kgsl_cancel_events_timestamp` -/
def cancelEventsTimestamp (group : EventGroup) (timestamp : BitVec 32) : EventGroup :=
  group.signalEvents fun event =>
    if timestampCmp timestamp event.timestamp = 0 then some .cancelled else none

/-- `kgsl_cancel_events` -/
def cancelEvents (group : EventGroup) : EventGroup :=
  group.signalEvents fun _ => some .cancelled

/-- `kgsl_cancel_event` -/
def cancelEvent (group : EventGroup) (timestamp : BitVec 32) (func priv : Nat) : EventGroup :=
  group.signalEvents fun event =>
    if timestamp = event.timestamp ∧ func = event.func ∧ event.priv = priv then
      some .cancelled
    else none

/-- `_kgsl_context_get` -/
def getContext (group : EventGroup) : EventGroup :=
  { group with context := group.context.map (· + 1) }

/-- `kgsl_context_put` -/
def putContext (group : EventGroup) : EventGroup :=
  { group with context := group.context.map (· - 1) }

/-- The section of `kgsl_add_event` under the lock. -/
def registerEvent (group : EventGroup) (event : Event) : EventGroup :=
  if timestampCmp group.readRetired event.timestamp ≥ 0 then
    { group with work := group.work ++ [(event, .retired)] }
  else
    { group with events := group.events ++ [event] }

/-- `kgsl_add_event`: the return value and the group. `queued` is the timestamp that is
read for `KGSL_TIMESTAMP_QUEUED`, and `allocated` says whether there was memory. -/
def addEvent (group : EventGroup) (queued : BitVec 32) (allocated : Bool)
    (timestamp : BitVec 32) (func priv : Nat) : Int × EventGroup :=
  if func = 0 then (-22, group)
  else if (group.context = none ∨ group.userGeneratedTs = false)
      ∧ timestampCmp timestamp queued > 0 then (-22, group)
  else if allocated = false then (-12, group)
  else if group.context = some 0 then (-2, group)
  else
    (0, group.getContext.registerEvent
      ⟨timestamp, func, priv, group.accepted, nearest group.retired timestamp⟩)

/-- `_kgsl_event_worker` on the first event that it has been given. -/
def eventWorker (group : EventGroup) : EventGroup :=
  match group.work with
  | [] => group
  | signal :: work => { group with work, handled := group.handled ++ [signal] }.putContext

/-- The steps of a group and of the GPU. Others take references to the context, and put
back those that they hold. -/
inductive Call
  | addEvent (queued : BitVec 32) (allocated : Bool) (timestamp : BitVec 32) (func priv : Nat)
  | processEventGroup
  | flushEventGroup
  | cancelEventsTimestamp (timestamp : BitVec 32)
  | cancelEvents
  | cancelEvent (timestamp : BitVec 32) (func priv : Nat)
  | eventWorker
  | retire (count : Nat)
  | getContext
  | putContext
  deriving DecidableEq, Repr

/-- One step. -/
def step (group : EventGroup) : Call → EventGroup
  | .addEvent queued allocated timestamp func priv =>
    let result := group.addEvent queued allocated timestamp func priv
    if result.1 = 0 then { result.2 with accepted := group.accepted + 1 } else result.2
  | .processEventGroup => group.processEventGroup false
  | .flushEventGroup => group.processEventGroup true
  | .cancelEventsTimestamp timestamp => group.cancelEventsTimestamp timestamp
  | .cancelEvents => group.cancelEvents
  | .cancelEvent timestamp func priv => group.cancelEvent timestamp func priv
  | .eventWorker => group.eventWorker
  | .retire count => { group with retired := group.retired + count }
  | .getContext =>
    if group.context = some 0 then group
    else { group.getContext with others := group.others + 1 }
  | .putContext =>
    if group.others = 0 then group
    else { group.putContext with others := group.others - 1 }

/-- A new group, of a context to which there are `references` references, or of none. -/
def start (context : Option Nat) (userGeneratedTs : Bool) : EventGroup where
  context := context
  userGeneratedTs := userGeneratedTs
  processed := 0
  events := []
  work := []
  handled := []
  retired := 0
  processedAt := 0
  accepted := 0
  others := context.getD 0

/-! ## What is to be shown -/

/-- The events that the worker has been given, with their results. -/
def signalled (group : EventGroup) : List (Event × EventResult) :=
  group.handled ++ group.work

/-- The live timestamps, which are those of the waiting events and the one that was
processed last, are less than half of the range away from the retired one. -/
def InWindow (group : EventGroup) : Prop :=
  (∀ event ∈ group.events, Near event.due group.retired) ∧ Near group.processedAt group.retired

instance (group : EventGroup) : Decidable group.InWindow :=
  inferInstanceAs (Decidable (_ ∧ _))

/-- Every accepted event waits or has been given to the worker, once. -/
def SignalsOnce (group : EventGroup) : Prop :=
  (group.events.map Event.id ++ group.signalled.map (·.1.id)).Perm (List.range group.accepted)

/-- No event has the result that its timestamp has retired unless it has. -/
def NeverEarly (group : EventGroup) : Prop :=
  ∀ signal ∈ group.signalled, signal.2 = .retired → signal.1.due ≤ group.retired

/-! ## The invariant -/

/-- Events are in the list because their timestamp had not retired when the group was last
processed, and each of them has a reference to the context. -/
structure Sound (group : EventGroup) : Prop where
  once : group.SignalsOnce
  early : group.NeverEarly
  processed_eq : group.processed = ofCounter group.processedAt
  processed_le : group.processedAt ≤ group.retired
  timestamp_eq : ∀ event ∈ group.events, event.timestamp = ofCounter event.due
  waiting : ∀ event ∈ group.events, group.processedAt < event.due
  context_eq : ∀ count ∈ group.context,
    count = group.others + group.events.length + group.work.length

variable {group : EventGroup}

theorem map_fst_filterMap (events : List Event) (verdict : Event → Option EventResult) :
    (events.filterMap fun event => (verdict event).map (Prod.mk event)).map Prod.fst
      = events.filter fun event => !(verdict event).isNone := by
  induction events with
  | nil => rfl
  | cons event events ih =>
    cases decided : verdict event with
    | none | some result => simp [decided, ih]

/-- The events that stay and those that go are the events that were there. -/
theorem signalEvents_perm (events : List Event) (verdict : Event → Option EventResult) :
    (events.filter (fun event => (verdict event).isNone)
        ++ (events.filterMap fun event => (verdict event).map (Prod.mk event)).map
          Prod.fst).Perm events := by
  rw [map_fst_filterMap]
  exact filter_append_perm _ events

section

variable (sound : group.Sound)

include sound

/-- Events may be signalled if those that are said to have retired have. -/
theorem Sound.signalEvents {verdict : Event → Option EventResult}
    (early : ∀ event ∈ group.events, verdict event = some .retired → event.due ≤ group.retired) :
    (group.signalEvents verdict).Sound where
  once := by
    have parts := (signalEvents_perm group.events verdict).map Event.id
    rw [map_append, map_map] at parts
    have before := sound.once
    simp only [SignalsOnce, signalled, map_append] at before
    simp only [SignalsOnce, signalled, EventGroup.signalEvents, map_append]
    refine List.Perm.trans ?_ before
    rw [perm_iff_count] at parts ⊢
    intro id
    have counted := parts id
    simp only [count_append, Function.comp_def] at counted ⊢
    omega
  early := by
    intro signal among isRetired
    simp only [signalled, EventGroup.signalEvents, mem_append, mem_filterMap,
      Option.map_eq_some_iff] at among
    rcases among with handled | work | ⟨event, waiting, result, decided, rfl⟩
    · exact sound.early signal (mem_append_left _ handled) isRetired
    · exact sound.early signal (mem_append_right _ work) isRetired
    · exact early event waiting (isRetired ▸ decided)
  processed_eq := sound.processed_eq
  processed_le := sound.processed_le
  timestamp_eq event among := sound.timestamp_eq event (mem_of_mem_filter among)
  waiting event among := sound.waiting event (mem_of_mem_filter among)
  context_eq := by
    intro count isCount
    have parts := (signalEvents_perm group.events verdict).length_eq
    have counted := sound.context_eq count isCount
    simp only [length_append, length_map] at parts
    simp only [EventGroup.signalEvents, length_append]
    omega

/-- A group is skipped only if it has been processed at this very counter. -/
theorem Sound.processedAt_eq_of_skipped (near : Near group.processedAt group.retired)
    (skipped : doProcessGroup group.processed group.readRetired = false) :
    group.processedAt = group.retired := by
  obtain ⟨low, high⟩ := near
  have behind := sound.processed_le
  have processedWord := ofCounter_toNat group.processedAt
  have retiredWord := ofCounter_toNat group.retired
  rw [sound.processed_eq, readRetired] at skipped
  unfold doProcessGroup kgslTimestampWindow at skipped
  split_ifs at skipped with same
  · rw [same] at processedWord
    omega
  · simp only [Bool.not_eq_false', Bool.and_eq_true, decide_eq_true_eq] at skipped
    bv_omega

/-- What has retired when a group is read is signalled, skipped group or not. -/
theorem Sound.waiting_processEventGroup (inWindow : group.InWindow)
    (flush : Bool) : ∀ event ∈ (group.processEventGroup flush).events,
      group.retired < event.due := by
  unfold processEventGroup
  split_ifs with gone skipped
  · intro event among
    have counted := sound.context_eq 0 gone
    have positive := length_pos_of_mem among
    omega
  · intro event among
    simp only [Bool.and_eq_true, Bool.not_eq_true'] at skipped
    have same := sound.processedAt_eq_of_skipped inWindow.2 skipped.2
    exact same ▸ sound.waiting event among
  · intro event among
    obtain ⟨before, undecided⟩ := mem_filter.mp among
    by_contra reached
    have compared := (timestampCmp_le_zero_iff (inWindow.1 event before)).mpr
      (Int.not_lt.mp reached)
    rw [← sound.timestamp_eq event before] at compared
    simp [processVerdict, readRetired, compared] at undecided

theorem Sound.processEventGroup (inWindow : group.InWindow)
    (flush : Bool) : (group.processEventGroup flush).Sound := by
  have left := sound.waiting_processEventGroup inWindow flush
  unfold EventGroup.processEventGroup at left ⊢
  split_ifs at left ⊢ with gone skipped
  · exact sound
  · exact sound
  · have signalled : (group.signalEvents (processVerdict group.readRetired flush)).Sound := by
      apply sound.signalEvents
      intro event among decided
      apply (timestampCmp_le_zero_iff (inWindow.1 event among)).mp
      rw [← sound.timestamp_eq event among]
      by_contra later
      cases flush <;> simp [processVerdict, readRetired, later] at decided
    exact { signalled with
      processed_eq := rfl
      processed_le := Int.le_refl _
      waiting := left }

/-- Cancelling reports no event as retired. -/
theorem Sound.cancelWhere (chosen : Event → Prop) [DecidablePred chosen] :
    (group.signalEvents fun event =>
      if chosen event then some .cancelled else none).Sound := by
  apply sound.signalEvents
  intro event _ decided
  by_cases isChosen : chosen event
  · rw [if_pos isChosen] at decided
    cases decided
  · rw [if_neg isChosen] at decided
    cases decided

theorem Sound.getContext : { group.getContext with others := group.others + 1 }.Sound :=
  { sound with
    context_eq := by
      intro count isCount
      obtain ⟨before, isBefore, rfl⟩ := Option.map_eq_some_iff.mp isCount
      have counted := sound.context_eq before isBefore
      show before + 1 = group.others + 1 + group.events.length + group.work.length
      omega }

theorem Sound.putContext (held : group.others ≠ 0) :
    { group.putContext with others := group.others - 1 }.Sound :=
  { sound with
    context_eq := by
      intro count isCount
      obtain ⟨before, isBefore, rfl⟩ := Option.map_eq_some_iff.mp isCount
      have counted := sound.context_eq before isBefore
      show before - 1 = group.others - 1 + group.events.length + group.work.length
      omega }

theorem Sound.eventWorker : group.eventWorker.Sound := by
  unfold EventGroup.eventWorker
  split
  · exact sound
  · next signal work given =>
      have same : group.handled ++ [signal] ++ work = group.handled ++ group.work := by
        rw [given, append_assoc, singleton_append]
      refine { sound with once := ?_, early := ?_, context_eq := ?_ }
      · have before := sound.once
        unfold SignalsOnce signalled at before ⊢
        rwa [← same] at before
      · have before := sound.early
        unfold NeverEarly signalled at before ⊢
        rwa [← same] at before
      · intro count isCount
        obtain ⟨before, isBefore, rfl⟩ := Option.map_eq_some_iff.mp isCount
        have counted := sound.context_eq before isBefore
        rw [given, length_cons] at counted
        show before - 1 = group.others + group.events.length + work.length
        omega

theorem Sound.retire (count : Nat) : { group with retired := group.retired + count }.Sound :=
  { sound with
    early signal among isRetired :=
      Int.le_trans (sound.early signal among isRetired) (by simp)
    processed_le := Int.le_trans sound.processed_le (by simp) }

end

/-- The list of an event that has just been accepted has one more entry, wherever the
event went. -/
theorem once_snoc {waiting given : List Nat} {accepted : Nat}
    (once : (waiting ++ given).Perm (range accepted)) :
    (waiting ++ [accepted] ++ given).Perm (range (accepted + 1))
      ∧ (waiting ++ (given ++ [accepted])).Perm (range (accepted + 1)) := by
  rw [range_succ, ← append_assoc]
  refine ⟨?_, once.append_right [accepted]⟩
  refine List.Perm.trans ?_ (once.append_right [accepted])
  rw [append_assoc, append_assoc]
  exact perm_append_comm.append_left waiting

/-- One more event is registered: it waits, or its timestamp has retired already. -/
theorem Sound.registerEvent (sound : group.Sound) {event : Event}
    (isNext : event.id = group.accepted)
    (isNearest : event.due = nearest group.retired event.timestamp)
    (inWindow : (group.getContext.registerEvent event).InWindow) :
    { group.getContext.registerEvent event with accepted := group.accepted + 1 }.Sound := by
  have timestamp : event.timestamp = ofCounter event.due := by rw [isNearest, ofCounter_nearest]
  have below : event.due - group.retired < 2 ^ 31 := by
    have distance := @BitVec.toInt_lt 32 (event.timestamp - ofCounter group.retired)
    rw [isNearest, nearest]
    omega
  have once := once_snoc sound.once
  unfold EventGroup.registerEvent at inWindow ⊢
  split_ifs at inWindow ⊢ with retired
  · refine { sound with once := ?_, early := ?_, context_eq := ?_ }
    · have after := once.2
      simpa [SignalsOnce, signalled, EventGroup.getContext, isNext] using after
    · intro signal among isRetired
      simp only [signalled, mem_append, mem_singleton] at among
      rcases among with handled | work | rfl
      · exact sound.early signal (mem_append_left _ handled) isRetired
      · exact sound.early signal (mem_append_right _ work) isRetired
      · show event.due ≤ group.retired
        by_contra later
        have near : Near group.retired event.due := by
          constructor <;> omega
        rw [timestamp] at retired
        have compared := timestampCmp_ofCounter near
        rw [Int.sign_eq_neg_one_of_neg (by omega)] at compared
        have negative := compared ▸ retired
        contradiction
    · intro count isCount
      obtain ⟨before, isBefore, rfl⟩ := Option.map_eq_some_iff.mp isCount
      have counted := sound.context_eq before isBefore
      simp only [EventGroup.getContext, length_append, length_singleton]
      omega
  · have near : Near event.due group.retired :=
      inWindow.1 event (mem_append_right _ (mem_singleton_self event))
    refine { sound with once := ?_, timestamp_eq := ?_, waiting := ?_, context_eq := ?_ }
    · have after := once.1
      simpa [SignalsOnce, signalled, EventGroup.getContext, isNext] using after
    · intro other among
      rcases mem_append.mp among with before | isEvent
      · exact sound.timestamp_eq other before
      · rw [mem_singleton.mp isEvent]
        exact timestamp
    · intro other among
      rcases mem_append.mp among with before | isEvent
      · exact sound.waiting other before
      · rw [mem_singleton.mp isEvent]
        show group.processedAt < event.due
        by_contra reached
        have behind := sound.processed_le
        have sign := Int.sign_nonneg_iff.mpr (show 0 ≤ group.retired - event.due by omega)
        rw [← timestampCmp_ofCounter near.symm, ← timestamp] at sign
        exact retired sign
    · intro count isCount
      obtain ⟨before, isBefore, rfl⟩ := Option.map_eq_some_iff.mp isCount
      have counted := sound.context_eq before isBefore
      simp only [EventGroup.getContext, length_append, length_singleton]
      omega

/-- A registration changes nothing or registers the event. -/
theorem addEvent_cases (group : EventGroup) (queued : BitVec 32) (allocated : Bool)
    (timestamp : BitVec 32) (func priv : Nat) :
    (∃ rc, rc ≠ 0 ∧ group.addEvent queued allocated timestamp func priv = (rc, group))
      ∨ group.addEvent queued allocated timestamp func priv
        = (0, group.getContext.registerEvent
          ⟨timestamp, func, priv, group.accepted, nearest group.retired timestamp⟩) := by
  unfold addEvent
  split_ifs
  · exact .inl ⟨-22, by decide, rfl⟩
  · exact .inl ⟨-22, by decide, rfl⟩
  · exact .inl ⟨-12, by decide, rfl⟩
  · exact .inl ⟨-2, by decide, rfl⟩
  · exact .inr rfl

/-! ## Runs -/

/-- The live timestamps stay in the window. -/
def StaysInWindow (group : EventGroup) (call : Call) : Prop :=
  (group.step call).InWindow

instance (group : EventGroup) (call : Call) : Decidable (StaysInWindow group call) :=
  inferInstanceAs (Decidable (InWindow _))

theorem Sound.step (sound : group.Sound) (inWindow : group.InWindow) {call : Call}
    (stays : StaysInWindow group call) : (group.step call).Sound := by
  cases call with
  | addEvent queued allocated timestamp func priv =>
    unfold StaysInWindow at stays
    unfold EventGroup.step at stays ⊢
    rcases group.addEvent_cases queued allocated timestamp func priv with
      ⟨rc, failed, refused⟩ | accepted
    · simp only [refused, if_neg failed]
      exact sound
    · simp only [accepted] at stays ⊢
      exact sound.registerEvent rfl rfl stays
  | processEventGroup => exact sound.processEventGroup inWindow false
  | flushEventGroup => exact sound.processEventGroup inWindow true
  | cancelEventsTimestamp timestamp => exact sound.cancelWhere _
  | cancelEvents =>
    apply sound.signalEvents
    intro event _ decided
    cases decided
  | cancelEvent timestamp func priv => exact sound.cancelWhere _
  | eventWorker => exact sound.eventWorker
  | retire count => exact sound.retire count
  | getContext =>
    unfold EventGroup.step
    dsimp only
    split_ifs
    · exact sound
    · exact sound.getContext
  | putContext =>
    unfold EventGroup.step
    dsimp only
    split_ifs with none
    · exact sound
    · exact sound.putContext none

theorem sound_start (context : Option Nat) (userGeneratedTs : Bool) :
    (start context userGeneratedTs).Sound where
  once := List.Perm.nil
  early _ among := by simp [signalled, start] at among
  processed_eq := rfl
  processed_le := Int.le_refl _
  timestamp_eq _ among := by simp [start] at among
  waiting _ among := by simp [start] at among
  context_eq := by
    intro count isCount
    obtain rfl : context = some count := isCount
    rfl

theorem inWindow_start (context : Option Nat) (userGeneratedTs : Bool) :
    (start context userGeneratedTs).InWindow :=
  ⟨fun _ among => by simp [start] at among, near_self 0⟩

/-- In every run whose live timestamps stay in the window, each accepted event waits or has
been given to the worker once, with the result that it retired only if it has, and
processing leaves no event that has retired. -/
theorem signalsOnce_of_staysInWindow {context : Option Nat} {userGeneratedTs : Bool}
    {final : EventGroup}
    (run : Reaches (guarded StaysInWindow step) (start context userGeneratedTs) final) :
    final.SignalsOnce ∧ final.NeverEarly
      ∧ ∀ flush, ∀ event ∈ (final.processEventGroup flush).events, final.retired < event.due := by
  have kept : final.Sound ∧ final.InWindow := by
    apply run.invariant ⟨sound_start context userGeneratedTs,
      inWindow_start context userGeneratedTs⟩
    rintro state call next ⟨sound, inWindow⟩ ⟨stays, rfl⟩
    exact ⟨sound.step inWindow stays, stays⟩
  exact ⟨kept.1.once, kept.1.early, kept.1.waiting_processEventGroup kept.2⟩

/-- Events around the end of the range: the first one retires before it is registered, the
second one behind the wrap-around, and the third one is cancelled. -/
def sampleCalls : List Call :=
  [.retire (2 ^ 31 - 1), .processEventGroup, .retire (2 ^ 31 - 1), .flushEventGroup,
    .addEvent 0xfffffffe true 0xfffffffd 1 1, .addEvent 5 true 3 1 2, .addEvent 5 true 4 1 3,
    .processEventGroup, .cancelEvent 4 1 3, .retire 5, .processEventGroup, .eventWorker,
    .putContext]

theorem signalsOnce_sample :
    (sampleCalls.foldl step (start (some 1) false)).SignalsOnce
      ∧ (sampleCalls.foldl step (start (some 1) false)).signalled.map
          (fun signal => (signal.1.id, signal.2))
        = [(0, .retired), (2, .cancelled), (1, .retired)] := by
  have allowed : Allowed StaysInWindow step (start (some 1) false) sampleCalls := by
    repeat' first
      | exact trivial
      | refine ⟨by decide +kernel, ?_⟩
  exact ⟨(signalsOnce_of_staysInWindow (Reaches.foldl allowed)).1, by decide +kernel⟩

end EventGroup

end Sm8650.Kgsl
