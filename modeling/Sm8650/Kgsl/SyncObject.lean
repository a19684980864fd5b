import Mathlib.Algebra.Order.BigOperators.Group.Finset
import Mathlib.Data.Fintype.Option
import Mathlib.Data.Fintype.Prod
import Sm8650.Transition.Reach

/-!
# Sync objects

A sync object waits for timestamps, fences and timelines. For each of its sync points a
callback is registered, which holds references to the draw object and to a context or a
fence. When the object is destroyed before the callbacks have run, one bit for each sync
point decides who drops them, the callback or the destroyer.

Sources: `kgsl_drawobj.c`, `kgsl_sync.c`, `kgsl_events.c`.
-/

namespace Sm8650.Kgsl

open Transition Function Finset

/-- `KGSL_CMD_SYNCPOINT_TYPE_*` -/
inductive SyncpointType
  | timestamp
  | fence
  | timeline
  deriving DecidableEq, Repr

/-- How often a reference has been taken and dropped. -/
structure References where
  taken : Nat
  dropped : Nat
  deriving DecidableEq, Repr

/-- Where the callback of a sync point is: not registered, on the list of its fence or group,
given to the worker of the group, before, in and after `drawobj_sync_expire`, in the work of a
timeline, and not to be called any more. -/
inductive CallbackPhase
  | unregistered
  | registered
  | queued
  | called
  | cleared
  | scheduling
  | putting (expired : Bool)
  | working
  | finished
  deriving DecidableEq, Repr

instance : Fintype CallbackPhase where
  elems := {.unregistered, .registered, .queued, .called, .cleared, .scheduling, .putting true,
    .putting false, .working, .finished}
  complete phase := by rcases phase with _ | _ | _ | _ | _ | _ | (_ | _) | _ | _ <;> decide

/-- `struct kgsl_drawobj_sync_event`, with its callback and the references that were taken for
it on the draw object, on the context and on the fence of the timeline. -/
structure SyncEvent where
  type : SyncpointType
  phase : CallbackPhase
  draw : References
  context : References
  fence : References
  deriving DecidableEq, Repr

/-- What is being done to one sync point, as it is added or destroyed. -/
inductive SyncStage
  | registering
  | clearing
  | putting
  | canceling
  | cancelPutting
  deriving DecidableEq, Repr

instance : Fintype SyncStage where
  elems := {.registering, .clearing, .putting, .canceling, .cancelPutting}
  complete stage := by cases stage <;> decide

/-- The thread that adds the sync points, or the one that destroys the object. -/
inductive OwnerPhase
  | ready
  | event (stage : SyncStage) (id : Nat)
  | live
  | destroying (next : Nat)
  | ending
  | destroyed
  deriving DecidableEq, Repr

/-- `struct kgsl_drawobj_sync` with the reference count of its draw object; how often the
context has been scheduled; whether all sync points have been added; and whether a callback that
has cleared the last bit since then still owes a scheduling. -/
structure SyncObject where
  refcount : Nat
  numsyncs : Nat
  events : Nat → SyncEvent
  pending : Finset Nat
  owner : OwnerPhase
  added : Bool
  scheduled : Nat
  owed : Bool

namespace SyncEvent

/-- The event as its references are taken. -/
def take (type : SyncpointType) : SyncEvent where
  type := type
  phase := .unregistered
  draw := ⟨1, 0⟩
  context := if type = .timestamp then ⟨1, 0⟩ else ⟨0, 0⟩
  fence := if type = .timeline then ⟨1, 0⟩ else ⟨0, 0⟩

/-- `kgsl_context_put` or `dma_fence_put`, whichever the type has. -/
def putOther (event : SyncEvent) : SyncEvent :=
  match event.type with
  | .timestamp => { event with context.dropped := event.context.dropped + 1 }
  | .timeline => { event with fence.dropped := event.fence.dropped + 1 }
  | .fence => event

/-- `kgsl_drawobj_put`, for the reference of the event. -/
def putDraw (event : SyncEvent) : SyncEvent :=
  { event with draw.dropped := event.draw.dropped + 1 }

/-- The callback goes on. -/
def goTo (event : SyncEvent) (phase : CallbackPhase) : SyncEvent :=
  { event with phase := phase }

end SyncEvent

namespace SyncObject

/-- `kgsl_drawobj_sync_create` -/
def new : SyncObject where
  refcount := 1
  numsyncs := 0
  events _ := ⟨.fence, .unregistered, ⟨0, 0⟩, ⟨0, 0⟩, ⟨0, 0⟩⟩
  pending := ∅
  owner := .ready
  added := false
  scheduled := 0
  owed := false

/-- The object with another event. -/
def withEvent (object : SyncObject) (id : Nat) (event : SyncEvent) : SyncObject :=
  { object with events := Function.update object.events id event }

/-- The object with another phase of the callback. -/
def withPhase (object : SyncObject) (id : Nat) (phase : CallbackPhase) : SyncObject :=
  object.withEvent id ((object.events id).goTo phase)

/-- `kgsl_drawobj_put`, for the reference of an event. -/
def drawobjPut (object : SyncObject) (id : Nat) : SyncObject :=
  { object.withEvent id (object.events id).putDraw with refcount := object.refcount - 1 }

/-- `kgsl_context_put` or `dma_fence_put`, for the reference of an event. -/
def otherPut (object : SyncObject) (id : Nat) : SyncObject :=
  object.withEvent id (object.events id).putOther

/-- `drawctxt_sched` -/
def sched (object : SyncObject) : SyncObject :=
  { object with scheduled := object.scheduled + 1, owed := false }

/-- The first half of `drawobj_add_sync_timestamp`, `drawobj_add_sync_fence` and
`drawobj_add_sync_timeline`: references are taken and the bit is set. What is refused before
leaves the object as it is. -/
def addSync (object : SyncObject) (type : SyncpointType) : SyncObject :=
  if object.owner = .ready then
    { object.withEvent object.numsyncs (.take type) with
      refcount := object.refcount + 1
      numsyncs := object.numsyncs + 1
      pending := insert object.numsyncs object.pending
      owner := .event .registering object.numsyncs }
  else object

/-- `kgsl_add_event`, `kgsl_sync_fence_async_wait` or `dma_fence_add_callback`, which fail too
where the fence has already been signalled. -/
def register (object : SyncObject) (success : Bool) : SyncObject :=
  match object.owner with
  | .event .registering id =>
    if success then { object.withPhase id .registered with owner := .ready }
    else { object with owner := .event .clearing id }
  | _ => object

/-- `kgsl_cancel_event`, `kgsl_sync_fence_async_cancel` or `dma_fence_remove_callback`, which
waits for a callback that is running under the lock of the fence. -/
def cancel (object : SyncObject) (id : Nat) : SyncObject :=
  let event := object.events id
  let next := { object with owner := .event .cancelPutting id }
  match event.type, event.phase with
  | .timestamp, .registered => next.withPhase id .queued
  | .timestamp, _ => next
  | _, .registered => next.withPhase id .finished
  | _, .finished => next
  | _, _ => object

/-- The next step of who adds the sync points or destroys the object. -/
def advance (object : SyncObject) : SyncObject :=
  match object.owner with
  | .event .clearing id =>
    { object with pending := object.pending.erase id, owner := .event .putting id }
  | .event .putting id =>
    { (object.otherPut id).drawobjPut id with owner := .ready }
  | .destroying id =>
    if id < object.numsyncs then
      if id ∈ object.pending then
        { object with pending := object.pending.erase id, owner := .event .canceling id }
      else { object with owner := .destroying (id + 1) }
    else { object with owner := .ending }
  | .event .canceling id => object.cancel id
  | .event .cancelPutting id =>
    if (object.events id).type = .timestamp then
      { object.otherPut id with owner := .destroying (id + 1) }
    else { (object.otherPut id).drawobjPut id with owner := .destroying (id + 1) }
  | .ending =>
    let last := if object.pending ≠ ∅ then object.sched else object
    { last with refcount := object.refcount - 1, owner := .destroyed }
  | _ => object

/-- The next step of a callback: `drawobj_sync_expire`, and what `drawobj_sync_func`,
`drawobj_sync_fence_func` or `drawobj_sync_timeline_fence_callback` does after it. -/
def callback (object : SyncObject) (id : Nat) : SyncObject :=
  let event := object.events id
  match event.phase with
  | .registered =>
    object.withPhase id (if event.type = .timestamp then .queued else .called)
  | .queued => object.withPhase id .called
  | .called =>
    if id ∈ object.pending then
      let pending := object.pending.erase id
      { object.withPhase id .cleared with
        pending := pending
        owed := object.owed || (object.added && decide (pending = ∅)) }
    else object.withPhase id (.putting false)
  | .cleared =>
    object.withPhase id (if object.pending = ∅ then .scheduling else .putting true)
  | .scheduling => object.sched.withPhase id (.putting true)
  | .putting expired =>
    match event.type with
    | .timestamp =>
      let dropped := if expired then object.otherPut id else object
      (dropped.drawobjPut id).withPhase id .finished
    | .fence =>
      (if expired then object.drawobjPut id else object).withPhase id .finished
    | .timeline => object.withPhase id (if expired then .working else .finished)
  | .working => ((object.otherPut id).drawobjPut id).withPhase id .finished
  | _ => object

/-- A sync point is added and registered, or the object is submitted or destroyed, or its owner
or a callback goes on. -/
inductive Action
  | add (type : SyncpointType)
  | register (success : Bool)
  | submit
  | destroy
  | advance
  | callback (id : Nat)
  deriving DecidableEq, Repr

/-- One step. -/
def step (object : SyncObject) : Action → SyncObject
  | .add type => object.addSync type
  | .register success => object.register success
  | .submit =>
    if object.owner = .ready then { object with owner := .live, added := true } else object
  | .destroy =>
    if object.owner = .ready ∨ object.owner = .live then
      { object with owner := .destroying 0, added := true }
    else object
  | .advance => object.advance
  | .callback id => object.callback id

/-- The callback may still come or is running. -/
def MayRun (event : SyncEvent) : Prop :=
  event.phase ≠ .unregistered ∧ event.phase ≠ .finished

/-- The draw object is there as long as a callback may use it. -/
def KeptForCallbacks (object : SyncObject) : Prop :=
  ∀ id, MayRun (object.events id) → object.refcount ≠ 0

/-- When the object has been destroyed and all callbacks have finished, what was taken for each
event has been dropped, each exactly once, and the draw object is gone. -/
def Balanced (object : SyncObject) : Prop :=
  object.owner = .destroyed → (∀ id, ¬MayRun (object.events id)) →
    object.refcount = 0 ∧ ∀ id < object.numsyncs,
      let event := object.events id
      event.draw = ⟨1, 1⟩
        ∧ event.context = (if event.type = .timestamp then ⟨1, 1⟩ else ⟨0, 0⟩)
        ∧ event.fence = (if event.type = .timeline then ⟨1, 1⟩ else ⟨0, 0⟩)

/-- When no callback is on its way from the bit to the scheduler, nothing is owed: whoever
cleared the last bit has been followed by a scheduling of the context. -/
def Schedules (object : SyncObject) : Prop :=
  (∀ id, (object.events id).phase ≠ .cleared ∧ (object.events id).phase ≠ .scheduling) →
    object.owed = false

/-! ## One event -/

/-- What the owner is doing to an event. -/
def stageAt (owner : OwnerPhase) (id : Nat) : Option SyncStage :=
  match owner with
  | .event stage other => if other = id then some stage else none
  | _ => none

/-- A reference that is used, and whether it is still held. -/
def reference (used held : Bool) : References :=
  if used then ⟨1, if held then 0 else 1⟩ else ⟨0, 0⟩

/-- Whether the draw object, and whether the context or the fence, are still held for an event;
nothing where the phases do not go together. -/
def holds (isTimestamp : Bool) (phase : CallbackPhase) (pending : Bool)
    (stage : Option SyncStage) : Option (Bool × Bool) :=
  match phase, pending, stage with
  | .unregistered, true, some .registering => some (true, true)
  | .unregistered, true, some .clearing => some (true, true)
  | .unregistered, false, some .putting => some (true, true)
  | .unregistered, false, none => some (false, false)
  | .queued, true, none => if isTimestamp then some (true, true) else none
  | .queued, false, some .canceling => if isTimestamp then some (true, true) else none
  | .queued, false, some .cancelPutting => if isTimestamp then some (true, true) else none
  | .queued, false, none => if isTimestamp then some (true, false) else none
  | .registered, true, none => some (true, true)
  | .registered, false, some .canceling => some (true, true)
  | .called, true, none => some (true, true)
  | .called, false, some .canceling => some (true, true)
  | .called, false, some .cancelPutting => if isTimestamp then some (true, true) else none
  | .called, false, none => if isTimestamp then some (true, false) else none
  | .cleared, false, none => some (true, true)
  | .scheduling, false, none => some (true, true)
  | .putting true, false, none => some (true, true)
  | .putting false, false, some .canceling => some (true, true)
  | .putting false, false, some .cancelPutting => if isTimestamp then some (true, true) else none
  | .putting false, false, none => if isTimestamp then some (true, false) else none
  | .working, false, none => some (true, true)
  | .finished, false, some .canceling => some (!isTimestamp, true)
  | .finished, false, some .cancelPutting => some (!isTimestamp, true)
  | .finished, false, none => some (false, false)
  | _, _, _ => none

/-- The references of an event are the ones that its phases call for. -/
def EventSound (event : SyncEvent) (pending : Bool) (stage : Option SyncStage) : Prop :=
  ∃ draw other, holds (event.type = .timestamp) event.phase pending stage = some (draw, other)
    ∧ event.draw = reference true draw
    ∧ event.context = reference (event.type = .timestamp) other
    ∧ event.fence = reference (event.type = .timeline) other

theorem eventSound_take (type : SyncpointType) :
    EventSound (.take type) true (some .registering) := by
  refine ⟨true, true, rfl, rfl, ?_, ?_⟩ <;> cases type <;> rfl

variable {event : SyncEvent} {stage next : Option SyncStage} {pending now : Bool}

section

variable (sound : EventSound event pending stage)

include sound

/-- Only the phase changes, and the same is held. -/
theorem EventSound.withPhase {phase : CallbackPhase}
    (same : ∀ held, holds (event.type = .timestamp) event.phase pending stage = some held →
      holds (event.type = .timestamp) phase now next = some held) :
    EventSound (event.goTo phase) now next := by
  obtain ⟨draw, other, together, isDraw, isContext, isFence⟩ := sound
  exact ⟨draw, other, same _ together, isDraw, isContext, isFence⟩

/-- The reference to the draw object is put. -/
theorem EventSound.drawobjPut {phase : CallbackPhase} (drops : ∀ draw other,
      holds (event.type = .timestamp) event.phase pending stage = some (draw, other) →
        draw = true ∧ holds (event.type = .timestamp) phase now next = some (false, other)) :
    EventSound (event.putDraw.goTo phase) now next := by
  obtain ⟨draw, other, together, isDraw, isContext, isFence⟩ := sound
  obtain ⟨rfl, dropped⟩ := drops draw other together
  refine ⟨false, other, dropped, ?_, isContext, isFence⟩
  show (⟨event.draw.taken, event.draw.dropped + 1⟩ : References) = _
  rw [isDraw]
  rfl

/-- The reference to the context or the fence is put. -/
theorem EventSound.otherPut {phase : CallbackPhase} (drops : ∀ draw other,
      holds (event.type = .timestamp) event.phase pending stage = some (draw, other) →
        other = true ∧ holds (event.type = .timestamp) phase now next = some (draw, false)) :
    EventSound (event.putOther.goTo phase) now next := by
  obtain ⟨draw, other, together, isDraw, isContext, isFence⟩ := sound
  obtain ⟨rfl, dropped⟩ := drops draw other together
  cases type : event.type with
  | timestamp | fence | timeline =>
    rw [type] at isContext isFence dropped
    refine ⟨draw, false, ?_⟩
    simp only [SyncEvent.putOther, SyncEvent.goTo, type]
    refine ⟨dropped, isDraw, ?_, ?_⟩
    · simp_all [reference]
    · simp_all [reference]

/-- Both references are put. -/
theorem EventSound.bothPut {phase : CallbackPhase}
    (drops : ∀ held, holds (event.type = .timestamp) event.phase pending stage = some held →
      held = (true, true) ∧ holds (event.type = .timestamp) phase now next = some (false, false)) :
    EventSound (event.putOther.putDraw.goTo phase) now next := by
  obtain ⟨draw, other, together, isDraw, isContext, isFence⟩ := sound
  cases type : event.type with
  | timestamp | fence | timeline =>
    refine ⟨false, false, ?_⟩
    simp only [SyncEvent.putOther, SyncEvent.putDraw, SyncEvent.goTo]
    all_goals simp_all [reference]

end

/-! ## The object -/

/-- The draw object is held for the event. -/
def drawHeld (event : SyncEvent) : Nat :=
  event.draw.taken - event.draw.dropped

/-- The reference of whoever created the object. -/
def ownHeld (owner : OwnerPhase) : Nat :=
  if owner = .destroyed then 0 else 1

/-- What holds between any two steps. -/
structure Sound (object : SyncObject) : Prop where
  events : ∀ id < object.numsyncs,
    EventSound (object.events id) (id ∈ object.pending) (stageAt object.owner id)
  fresh : ∀ id, object.numsyncs ≤ id → (object.events id).phase = .unregistered
    ∧ id ∉ object.pending ∧ stageAt object.owner id = none
  count : object.refcount
    = ownHeld object.owner + ∑ id ∈ range object.numsyncs, drawHeld (object.events id)

variable {object : SyncObject}

theorem sound_new : new.Sound where
  events _ below := absurd below (Nat.not_lt_zero _)
  fresh _ _ := ⟨rfl, notMem_empty _, rfl⟩
  count := rfl

variable {next : SyncObject} {id : Nat}

/-- One event of the sum changes. -/
theorem sum_drawHeld_change (allocated : id < object.numsyncs)
    (others : ∀ other, other ≠ id → next.events other = object.events other) :
    (∑ other ∈ range object.numsyncs, drawHeld (next.events other))
        + drawHeld (object.events id)
      = (∑ other ∈ range object.numsyncs, drawHeld (object.events other))
        + drawHeld (next.events id) := by
  have among := mem_range.mpr allocated
  have rest : (∑ other ∈ (range object.numsyncs).erase id, drawHeld (next.events other))
      = ∑ other ∈ (range object.numsyncs).erase id, drawHeld (object.events other) := by
    apply sum_congr rfl
    intro other isOther
    rw [others other (ne_of_mem_erase isOther)]
  rw [← add_sum_erase _ _ among, ← add_sum_erase _ (fun other => drawHeld
    (object.events other)) among]
  omega

section

variable (sound : object.Sound)

include sound

/-- One event changes, with the reference count. -/
theorem Sound.change (allocated : id < object.numsyncs) (numsyncs : next.numsyncs = object.numsyncs)
    (others : ∀ other, other ≠ id → next.events other = object.events other
      ∧ (other ∈ next.pending ↔ other ∈ object.pending)
      ∧ stageAt next.owner other = stageAt object.owner other)
    (event : EventSound (next.events id) (id ∈ next.pending) (stageAt next.owner id))
    (own : ownHeld next.owner = ownHeld object.owner)
    (count : next.refcount + drawHeld (object.events id)
      = object.refcount + drawHeld (next.events id)) : next.Sound where
  events other below := by
    by_cases isSame : other = id
    · rw [isSame]
      exact event
    · have unchanged := others other isSame
      rw [unchanged.1, unchanged.2.2, decide_eq_decide.mpr unchanged.2.1]
      exact sound.events other (numsyncs ▸ below)
  fresh other above := by
    rw [numsyncs] at above
    have unchanged := others other (Nat.ne_of_gt (Nat.lt_of_lt_of_le allocated above))
    rw [unchanged.1, unchanged.2.1, unchanged.2.2]
    exact sound.fresh other above
  count := by
    have sum := sum_drawHeld_change allocated fun other isOther => (others other isOther).1
    have before := sound.count
    rw [numsyncs]
    omega

/-- An event that anything is done with has been added. -/
theorem Sound.allocated_of_phase
    (isEvent : (object.events id).phase ≠ .unregistered) : id < object.numsyncs := by
  by_contra above
  exact isEvent (sound.fresh id (Nat.not_lt.mp above)).1

theorem Sound.allocated_of_stage {stage : SyncStage}
    (atStage : object.owner = .event stage id) : id < object.numsyncs := by
  by_contra above
  have noStage := (sound.fresh id (Nat.not_lt.mp above)).2.2
  rw [atStage, stageAt, if_pos rfl] at noStage
  cases noStage

section

variable (allocated : id < object.numsyncs)

include allocated

/-- An event that is held holds the object. -/
theorem Sound.refcount_pos (held : drawHeld (object.events id) = 1) : 0 < object.refcount := by
  have atMost := single_le_sum (fun other _ => Nat.zero_le (drawHeld (object.events other)))
    (mem_range.mpr allocated)
  have count := sound.count
  omega

/-- A step that changes only the phase of one event, and no reference. -/
theorem Sound.phase {phase : CallbackPhase} (numsyncs : next.numsyncs = object.numsyncs)
    (events : next.events = update object.events id ((object.events id).goTo phase))
    (refcount : next.refcount = object.refcount)
    (pending : ∀ other, other ≠ id → (other ∈ next.pending ↔ other ∈ object.pending))
    (stage : ∀ other, other ≠ id → stageAt next.owner other = stageAt object.owner other)
    (own : ownHeld next.owner = ownHeld object.owner)
    (same : ∀ held, holds ((object.events id).type = .timestamp) (object.events id).phase
        (id ∈ object.pending) (stageAt object.owner id) = some held →
      holds ((object.events id).type = .timestamp) phase (id ∈ next.pending)
        (stageAt next.owner id) = some held) : next.Sound := by
  have event : next.events id = (object.events id).goTo phase := by rw [events, update_self]
  apply sound.change allocated numsyncs
  · intro other isOther
    refine ⟨?_, pending other isOther, stage other isOther⟩
    rw [events, update_of_ne isOther]
  · rw [event]
    exact (sound.events id allocated).withPhase same
  · exact own
  · rw [event, refcount]
    rfl

/-- A step that changes only what is done to one event. -/
theorem Sound.samePhase (numsyncs : next.numsyncs = object.numsyncs)
    (events : next.events = object.events) (refcount : next.refcount = object.refcount)
    (pending : ∀ other, other ≠ id → (other ∈ next.pending ↔ other ∈ object.pending))
    (stage : ∀ other, other ≠ id → stageAt next.owner other = stageAt object.owner other)
    (own : ownHeld next.owner = ownHeld object.owner)
    (same : ∀ held, holds ((object.events id).type = .timestamp) (object.events id).phase
        (id ∈ object.pending) (stageAt object.owner id) = some held →
      holds ((object.events id).type = .timestamp) (object.events id).phase (id ∈ next.pending)
        (stageAt next.owner id) = some held) : next.Sound := by
  have unchanged : next.events
      = update object.events id ((object.events id).goTo (object.events id).phase) := by
    rw [events]
    exact (update_eq_self id object.events).symm
  exact sound.phase allocated numsyncs unchanged refcount pending stage own same

/-- The callback goes on by itself. -/
theorem Sound.withPhase {phase : CallbackPhase}
    (same : ∀ stage held, holds ((object.events id).type = .timestamp) (object.events id).phase
        (id ∈ object.pending) stage = some held →
      holds ((object.events id).type = .timestamp) phase (id ∈ object.pending) stage
        = some held) : (object.withPhase id phase).Sound :=
  sound.phase allocated rfl rfl rfl (fun _ _ => Iff.rfl) (fun _ _ => rfl) rfl
    (same (stageAt object.owner id))

/-- A step that puts references of one event, the one to the draw object among them. -/
theorem Sound.put (numsyncs : next.numsyncs = object.numsyncs)
    (events : next.events = update object.events id event)
    (refcount : next.refcount = object.refcount - 1) (pending : next.pending = object.pending)
    (stage : ∀ other, other ≠ id → stageAt next.owner other = stageAt object.owner other)
    (own : ownHeld next.owner = ownHeld object.owner)
    (eventSound : EventSound event (id ∈ object.pending) (stageAt next.owner id))
    (held : drawHeld (object.events id) = 1) (dropped : drawHeld event = 0) : next.Sound := by
  have isEvent : next.events id = event := by rw [events, update_self]
  apply sound.change allocated numsyncs
  · intro other isOther
    refine ⟨?_, by rw [pending], stage other isOther⟩
    rw [events, update_of_ne isOther]
  · rw [isEvent, pending]
    exact eventSound
  · exact own
  · rw [isEvent, refcount, held, dropped]
    exact Nat.sub_add_cancel (sound.refcount_pos allocated held)

end

/-- Only the owner changes, and it is at no event. -/
theorem Sound.withOwner {owner : OwnerPhase} {added : Bool}
    (before : ∀ id, stageAt object.owner id = none) (now : ∀ id, stageAt owner id = none)
    (own : ownHeld owner = ownHeld object.owner) :
    Sound { object with owner := owner, added := added } where
  events id below := by
    rw [now, ← before id]
    exact sound.events id below
  fresh id above := ⟨(sound.fresh id above).1, (sound.fresh id above).2.1, now id⟩
  count := by
    rw [own]
    exact sound.count

end

theorem drawHeld_reference {held : Bool}
    (isDraw : event.draw = reference true held) : drawHeld event = if held then 1 else 0 := by
  rw [drawHeld, isDraw]
  cases held <;> rfl

/-- What is held where the callback has not looked at its bit yet, and after it has. -/
theorem holds_called : ∀ isTimestamp pending stage held,
    (holds isTimestamp .queued pending stage = some held →
      holds isTimestamp .called pending stage = some held)
    ∧ (holds isTimestamp .registered pending stage = some held →
      holds isTimestamp (if isTimestamp then .queued else .called) pending stage = some held)
    ∧ (holds isTimestamp .called true stage = some held →
      holds isTimestamp .cleared false stage = some held)
    ∧ (holds isTimestamp .called false stage = some held →
      holds isTimestamp (.putting false) false stage = some held) := by
  decide

/-- What is held on the way from the bit to the puts. -/
theorem holds_cleared : ∀ isTimestamp pending stage held,
    (holds isTimestamp .cleared pending stage = some held →
      holds isTimestamp .scheduling pending stage = some held
        ∧ holds isTimestamp (.putting true) pending stage = some held)
    ∧ (holds isTimestamp .scheduling pending stage = some held →
      holds isTimestamp (.putting true) pending stage = some held)
    ∧ (holds isTimestamp (.putting true) pending stage = some held →
      holds isTimestamp .working pending stage = some held) := by
  decide

/-- A callback that has cleared the bit holds both references until it puts them. -/
theorem holds_expired : ∀ isTimestamp pending stage held,
    (holds isTimestamp (.putting true) pending stage = some held →
      held = (true, true) ∧ holds isTimestamp .finished pending stage = some (false, false))
    ∧ (holds isTimestamp .working pending stage = some held →
      held = (true, true) ∧ holds isTimestamp .finished pending stage = some (false, false)) := by
  decide

/-- One that has not leaves the reference to the context to the destroyer; for a fence it
leaves both. -/
theorem holds_notExpired : ∀ pending stage draw other,
    (holds true (.putting false) pending stage = some (draw, other) →
      draw = true ∧ holds true .finished pending stage = some (false, other))
    ∧ (holds false (.putting false) pending stage = some (draw, other) →
      holds false .finished pending stage = some (draw, other)) := by
  decide

theorem putOther_goTo (event : SyncEvent) : event.putOther.goTo event.phase = event.putOther := by
  unfold SyncEvent.putOther
  split <;> rfl

theorem bothPut_events (id : Nat) :
    ((object.otherPut id).drawobjPut id).events = update object.events id
      ((object.events id).putOther.putDraw.goTo (object.events id).phase) := by
  have sameEvent : (object.events id).putOther.putDraw.goTo (object.events id).phase
      = (object.events id).putOther.putDraw :=
    congrArg SyncEvent.putDraw (putOther_goTo (object.events id))
  rw [sameEvent]
  simp [SyncObject.drawobjPut, otherPut, withEvent]

/-- Both references of an event are put. -/
theorem Sound.bothPut (sound : object.Sound)
    {phase : CallbackPhase} (allocated : id < object.numsyncs)
    (numsyncs : next.numsyncs = object.numsyncs) (events : next.events
      = update object.events id ((object.events id).putOther.putDraw.goTo phase))
    (refcount : next.refcount = object.refcount - 1) (pending : next.pending = object.pending)
    (stage : ∀ other, other ≠ id → stageAt next.owner other = stageAt object.owner other)
    (own : ownHeld next.owner = ownHeld object.owner)
    (drops : ∀ held, holds ((object.events id).type = .timestamp) (object.events id).phase
        (id ∈ object.pending) (stageAt object.owner id) = some held →
      held = (true, true) ∧ holds ((object.events id).type = .timestamp) phase
        (id ∈ object.pending) (stageAt next.owner id) = some (false, false)) : next.Sound := by
  have eventSound := sound.events id allocated
  have after := eventSound.bothPut drops
  obtain ⟨draw, other, together, isDraw, _⟩ := eventSound
  have isHeld := (drops _ together).1
  cases isHeld
  have sameDraw : (object.events id).putOther.draw = (object.events id).draw := by
    unfold SyncEvent.putOther
    split <;> rfl
  apply sound.put allocated numsyncs events refcount pending stage own after
  · exact drawHeld_reference isDraw
  · show (object.events id).putOther.draw.taken - ((object.events id).putOther.draw.dropped + 1) = 0
    rw [sameDraw, isDraw]
    rfl

/-- The callback of a timestamp that has found its bit cleared puts the draw object only. -/
theorem Sound.putDraw (sound : object.Sound) (allocated : id < object.numsyncs)
    (isTimestamp : (object.events id).type = .timestamp)
    (isPhase : (object.events id).phase = .putting false) :
    ((object.drawobjPut id).withPhase id .finished).Sound := by
  have eventSound := sound.events id allocated
  have drops : ∀ draw other, holds ((object.events id).type = .timestamp)
      (object.events id).phase (id ∈ object.pending) (stageAt object.owner id)
        = some (draw, other) →
      draw = true ∧ holds ((object.events id).type = .timestamp) .finished (id ∈ object.pending)
        (stageAt object.owner id) = some (false, other) := by
    intro draw other before
    rw [isPhase, decide_eq_true isTimestamp] at before
    rw [decide_eq_true isTimestamp]
    exact (holds_notExpired _ _ draw other).1 before
  have after := eventSound.drawobjPut drops
  obtain ⟨draw, other, together, isDraw, _⟩ := eventSound
  have isHeld := (drops draw other together).1
  subst isHeld
  have events : ((object.drawobjPut id).withPhase id .finished).events
      = update object.events id ((object.events id).putDraw.goTo .finished) := by
    simp [SyncObject.withPhase, withEvent, SyncObject.drawobjPut]
  apply sound.put allocated _ events _ _ _ _ after
  · exact drawHeld_reference isDraw
  · show (object.events id).draw.taken - ((object.events id).draw.dropped + 1) = 0
    rw [isDraw]
    rfl
  · rfl
  · rfl
  · rfl
  · exact fun _ _ => rfl
  · rfl

theorem Sound.callback (sound : object.Sound) (id : Nat) : (object.callback id).Sound := by
  unfold SyncObject.callback
  dsimp only
  by_cases isEvent : (object.events id).phase = .unregistered
  · rw [isEvent]
    exact sound
  have allocated := sound.allocated_of_phase isEvent
  cases isPhase : (object.events id).phase with
  | unregistered | finished => exact sound
  | registered =>
    apply sound.withPhase allocated
    intro stage held before
    rw [isPhase] at before
    have moved := (holds_called _ _ stage held).2.1 before
    simpa using moved
  | queued =>
    apply sound.withPhase allocated
    intro stage held before
    rw [isPhase] at before
    exact (holds_called _ _ stage held).1 before
  | called =>
    dsimp only
    split
    case isTrue isPending =>
      apply sound.phase allocated
      · rfl
      · rfl
      · rfl
      · intro other isOther
        exact mem_erase.trans ⟨And.right, fun among => ⟨isOther, among⟩⟩
      · exact fun _ _ => rfl
      · rfl
      · intro held before
        rw [isPhase, decide_eq_true isPending] at before
        rw [decide_eq_false (notMem_erase id _)]
        exact (holds_called _ true _ held).2.2.1 before
    case isFalse notPending =>
      apply sound.withPhase allocated
      intro stage held before
      rw [isPhase, decide_eq_false notPending] at before
      rw [decide_eq_false notPending]
      exact (holds_called _ true stage held).2.2.2 before
  | cleared =>
    apply sound.withPhase allocated
    intro stage held before
    rw [isPhase] at before
    have moved := (holds_cleared _ _ stage held).1 before
    split
    · exact moved.1
    · exact moved.2
  | scheduling =>
    apply sound.phase allocated
    · rfl
    · rfl
    · rfl
    · exact fun _ _ => Iff.rfl
    · exact fun _ _ => rfl
    · rfl
    · intro held before
      rw [isPhase] at before
      exact (holds_cleared _ _ _ held).2.1 before
  | putting expired =>
    cases expired with
    | true =>
      have bothPut : ∀ next : SyncObject, next.numsyncs = object.numsyncs →
          next.events = update object.events id
            ((object.events id).putOther.putDraw.goTo .finished) →
          next.refcount = object.refcount - 1 → next.pending = object.pending →
          next.owner = object.owner → next.Sound := by
        intro next numsyncs events refcount pending owner
        apply sound.bothPut allocated numsyncs events refcount pending
        · exact fun _ _ => by rw [owner]
        · rw [owner]
        · intro held before
          rw [isPhase] at before
          rw [owner]
          exact (holds_expired _ _ _ held).1 before
      cases type : (object.events id).type with
      | timestamp =>
        apply bothPut <;> try rfl
        simp [SyncObject.withPhase, withEvent, SyncObject.drawobjPut, otherPut]
      | fence =>
        apply bothPut <;> try rfl
        have noOther : (object.events id).putOther = object.events id := by
          simp [SyncEvent.putOther, type]
        simp [SyncObject.withPhase, withEvent, SyncObject.drawobjPut, noOther]
      | timeline =>
        apply sound.withPhase allocated
        intro stage held before
        rw [isPhase] at before
        exact (holds_cleared _ _ stage held).2.2 before
    | false =>
      have stays : (object.events id).type ≠ .timestamp →
          (object.withPhase id .finished).Sound := by
        intro notTimestamp
        apply sound.withPhase allocated
        rintro stage ⟨draw, other⟩ before
        rw [isPhase, decide_eq_false notTimestamp] at before
        rw [decide_eq_false notTimestamp]
        exact (holds_notExpired _ stage draw other).2 before
      cases type : (object.events id).type with
      | timestamp => exact sound.putDraw allocated type isPhase
      | fence | timeline =>
        apply stays
        rw [type]
        exact nofun
  | working =>
    have events : (((object.otherPut id).drawobjPut id).withPhase id .finished).events
        = update object.events id ((object.events id).putOther.putDraw.goTo .finished) := by
      simp [SyncObject.withPhase, withEvent, SyncObject.drawobjPut, otherPut]
    apply sound.bothPut allocated
    · rfl
    · exact events
    · rfl
    · rfl
    · exact fun _ _ => rfl
    · rfl
    · intro held before
      rw [isPhase] at before
      exact (holds_expired _ _ _ held).2 before

/-! ## The owner -/

theorem stageAt_event (stage : SyncStage) (id : Nat) : stageAt (.event stage id) id = some stage :=
  if_pos rfl

theorem stageAt_other {id other : Nat} (isOther : other ≠ id) (stage : SyncStage) :
    stageAt (.event stage id) other = none :=
  if_neg isOther.symm

/-- What is held as a sync point is added. -/
theorem holds_adding : ∀ isTimestamp phase pending held,
    (holds isTimestamp phase pending (some .registering) = some held →
      holds isTimestamp .registered pending none = some held
        ∧ holds isTimestamp phase pending (some .clearing) = some held)
    ∧ (holds isTimestamp phase pending (some .clearing) = some held →
      holds isTimestamp phase false (some .putting) = some held)
    ∧ (holds isTimestamp phase pending (some .putting) = some held →
      held = (true, true) ∧ holds isTimestamp phase pending none = some (false, false)) := by
  decide

/-- What is held as the callback of a timestamp is cancelled. -/
theorem holds_canceling : ∀ isTimestamp phase pending held,
    (holds isTimestamp phase true none = some held →
      holds isTimestamp phase false (some .canceling) = some held)
    ∧ (holds true .registered pending (some .canceling) = some held →
      holds true .queued pending (some .cancelPutting) = some held) := by
  decide

theorem holds_notRegistered : ∀ phase pending held,
    holds true phase pending (some .canceling) = some held →
      phase = .registered ∨ holds true phase pending (some .cancelPutting) = some held := by
  decide

/-- What is held as the callback of a fence is removed, and has been. -/
theorem holds_removing : ∀ phase pending held,
    (holds false .registered pending (some .canceling) = some held →
      holds false .finished pending (some .cancelPutting) = some held)
    ∧ (holds false .finished pending (some .canceling) = some held →
      holds false .finished pending (some .cancelPutting) = some held)
    ∧ (holds false phase pending (some .cancelPutting) = some held →
      held = (true, true) ∧ holds false phase pending none = some (false, false)) := by
  decide

/-- What is held as the destroyer puts the context of a timestamp. -/
theorem holds_cancelPutting : ∀ phase pending draw other,
    holds true phase pending (some .cancelPutting) = some (draw, other) →
      other = true ∧ holds true phase pending none = some (draw, false) := by
  decide

section

variable (sound : object.Sound)

include sound

theorem Sound.addSync (type : SyncpointType) : (object.addSync type).Sound := by
  unfold SyncObject.addSync
  split
  case isFalse => exact sound
  case isTrue isReady =>
    have old : ∀ id < object.numsyncs,
        (update object.events object.numsyncs (.take type) : Nat → SyncEvent) id
          = object.events id :=
      fun id below => update_of_ne (Nat.ne_of_lt below) _ _
    constructor
    case events =>
      intro id below
      show EventSound ((update object.events object.numsyncs _ : Nat → SyncEvent) id)
        (id ∈ insert object.numsyncs object.pending) _
      rcases Nat.lt_succ_iff_lt_or_eq.mp below with isOld | isNew
      · have isOther := Nat.ne_of_lt isOld
        rw [old id isOld, stageAt_other isOther,
          decide_eq_decide.mpr (mem_insert.trans (or_iff_right isOther))]
        have before := sound.events id isOld
        rw [isReady] at before
        exact before
      · rw [isNew, update_self, stageAt_event, decide_eq_true (mem_insert_self _ _)]
        exact eventSound_take type
    case fresh =>
      intro id above
      have isOther : id ≠ object.numsyncs := Nat.ne_of_gt above
      have before := sound.fresh id (Nat.le_of_succ_le above)
      refine ⟨?_, ?_, stageAt_other isOther _⟩
      · show ((update object.events object.numsyncs _ : Nat → SyncEvent) id).phase = _
        rw [update_of_ne isOther]
        exact before.1
      · exact fun among => (mem_insert.mp among).elim isOther before.2.1
    case count =>
      have rest : ∀ id ∈ range object.numsyncs,
          drawHeld ((update object.events object.numsyncs (.take type)
            : Nat → SyncEvent) id) = drawHeld (object.events id) := by
        intro id among
        rw [old id (mem_range.mp among)]
      show object.refcount + 1 = 1 + ∑ id ∈ range (object.numsyncs + 1),
        drawHeld ((update object.events object.numsyncs _ : Nat → SyncEvent) id)
      rw [sum_range_succ, sum_congr rfl rest, update_self, sound.count, isReady]
      rfl

theorem Sound.register (success : Bool) : (object.register success).Sound := by
  unfold SyncObject.register
  split
  case h_2 => exact sound
  case h_1 id atStage =>
    have allocated := sound.allocated_of_stage atStage
    split
    case isTrue =>
      apply sound.phase allocated
      · rfl
      · rfl
      · rfl
      · exact fun _ _ => Iff.rfl
      · intro other isOther
        rw [atStage, stageAt_other isOther]
        rfl
      · rw [atStage]
        rfl
      · intro held before
        rw [atStage, stageAt_event] at before
        exact ((holds_adding _ _ _ held).1 before).1
    case isFalse =>
      apply sound.samePhase allocated
      · rfl
      · rfl
      · rfl
      · exact fun _ _ => Iff.rfl
      · intro other isOther
        rw [atStage, stageAt_other isOther, stageAt_other isOther]
      · rw [atStage]
        rfl
      · intro held before
        rw [atStage, stageAt_event] at before
        rw [stageAt_event]
        exact ((holds_adding _ _ _ held).1 before).2

/-- The callback of the event is cancelled, or cannot be any more. -/
theorem Sound.cancel
    (atStage : object.owner = .event .canceling id) : (object.cancel id).Sound := by
  have allocated := sound.allocated_of_stage atStage
  have moves : ∀ phase, (∀ held, holds ((object.events id).type = .timestamp)
      (object.events id).phase (id ∈ object.pending) (some .canceling) = some held →
        holds ((object.events id).type = .timestamp) phase (id ∈ object.pending)
          (some .cancelPutting) = some held) →
      Sound ({ object with owner := .event .cancelPutting id }.withPhase id phase) := by
    intro phase same
    apply sound.phase allocated
    · rfl
    · rfl
    · rfl
    · exact fun _ _ => Iff.rfl
    · intro other isOther
      rw [atStage, stageAt_other isOther]
      exact stageAt_other isOther _
    · rw [atStage]
      rfl
    · intro held before
      rw [atStage, stageAt_event] at before
      show holds _ _ _ (stageAt (.event .cancelPutting id) id) = _
      rw [stageAt_event]
      exact same held before
  have stays : (∀ held, holds ((object.events id).type = .timestamp)
      (object.events id).phase (id ∈ object.pending) (some .canceling) = some held →
        holds ((object.events id).type = .timestamp) (object.events id).phase
          (id ∈ object.pending) (some .cancelPutting) = some held) →
      Sound { object with owner := .event .cancelPutting id } := by
    intro same
    have moved := moves (object.events id).phase same
    have unchanged : { object with owner := .event .cancelPutting id }.withPhase id
        (object.events id).phase = { object with owner := .event .cancelPutting id } := by
      simp [SyncObject.withPhase, withEvent, SyncEvent.goTo]
    rw [unchanged] at moved
    exact moved
  unfold SyncObject.cancel
  dsimp only
  split
  case h_1 isTimestamp isRegistered =>
    apply moves
    intro held before
    rw [isTimestamp, isRegistered] at before
    rw [isTimestamp]
    exact (holds_canceling true .registered _ held).2 before
  case h_2 isTimestamp notRegistered =>
    apply stays
    intro held before
    rw [decide_eq_true isTimestamp] at before ⊢
    exact (holds_notRegistered _ _ held before).resolve_left notRegistered
  case h_3 isRegistered notTimestamp =>
    apply moves
    intro held before
    rw [decide_eq_false notTimestamp, isRegistered] at before
    rw [decide_eq_false notTimestamp]
    exact (holds_removing .registered _ held).1 before
  case h_4 isFinished notTimestamp =>
    apply stays
    intro held before
    rw [decide_eq_false notTimestamp, isFinished] at before ⊢
    exact (holds_removing .finished _ held).2.1 before
  case h_5 => exact sound

theorem Sound.cancelPut
    (atStage : object.owner = .event .cancelPutting id) (isTimestamp : (object.events id).type
    = .timestamp) : Sound { object.otherPut id with owner := .destroying (id + 1) } := by
  have allocated := sound.allocated_of_stage atStage
  have eventSound := sound.events id allocated
  rw [atStage, stageAt_event] at eventSound
  have drops : ∀ draw other, holds ((object.events id).type = .timestamp)
      (object.events id).phase (id ∈ object.pending) (some .cancelPutting) = some (draw, other) →
      other = true ∧ holds ((object.events id).type = .timestamp) (object.events id).phase
        (id ∈ object.pending) none = some (draw, false) := by
    rw [decide_eq_true isTimestamp]
    exact holds_cancelPutting _ _
  have event : ((object.otherPut id).events id) = (object.events id).putOther := by
    simp [otherPut, withEvent]
  apply sound.change allocated
  · rfl
  · intro other isOther
    refine ⟨update_of_ne isOther _ _, Iff.rfl, ?_⟩
    rw [atStage, stageAt_other isOther]
    rfl
  · rw [event, ← putOther_goTo]
    exact eventSound.otherPut drops
  · rw [atStage]
    rfl
  · rw [event]
    unfold SyncEvent.putOther
    split <;> rfl

theorem Sound.advance : object.advance.Sound := by
  unfold SyncObject.advance
  cases atStage : object.owner with
  | ready | live | destroyed => exact sound
  | event stage id =>
    have allocated := sound.allocated_of_stage atStage
    cases stage with
    | registering => exact sound
    | clearing =>
      apply sound.samePhase allocated
      · rfl
      · rfl
      · rfl
      · intro other isOther
        exact mem_erase.trans ⟨And.right, fun among => ⟨isOther, among⟩⟩
      · intro other isOther
        rw [atStage, stageAt_other isOther, stageAt_other isOther]
      · rw [atStage]
        rfl
      · intro held before
        rw [atStage, stageAt_event] at before
        rw [stageAt_event, decide_eq_false (notMem_erase id _)]
        exact (holds_adding _ _ _ held).2.1 before
    | putting =>
      apply sound.bothPut allocated
      · rfl
      · exact bothPut_events id
      · rfl
      · rfl
      · intro other isOther
        rw [atStage, stageAt_other isOther]
        rfl
      · rw [atStage]
        rfl
      · intro held before
        rw [atStage, stageAt_event] at before
        exact (holds_adding _ _ _ held).2.2 before
    | canceling => exact sound.cancel atStage
    | cancelPutting =>
      dsimp only
      split
      case isTrue isTimestamp => exact sound.cancelPut atStage isTimestamp
      case isFalse notTimestamp =>
        apply sound.bothPut allocated
        · rfl
        · exact bothPut_events id
        · rfl
        · rfl
        · intro other isOther
          rw [atStage, stageAt_other isOther]
          rfl
        · rw [atStage]
          rfl
        · intro held before
          rw [atStage, stageAt_event, decide_eq_false notTimestamp] at before
          rw [decide_eq_false notTimestamp]
          exact (holds_removing _ _ held).2.2 before
  | destroying id =>
    have atNone : ∀ other, stageAt object.owner other = none := by
      intro other
      rw [atStage]
      rfl
    dsimp only
    split
    case isFalse =>
      exact sound.withOwner atNone (fun _ => rfl) (by rw [atStage]; rfl)
    case isTrue allocated =>
      split
      case isFalse =>
        exact sound.withOwner atNone (fun _ => rfl) (by rw [atStage]; rfl)
      case isTrue isPending =>
        apply sound.samePhase allocated
        · rfl
        · rfl
        · rfl
        · intro other isOther
          exact mem_erase.trans ⟨And.right, fun among => ⟨isOther, among⟩⟩
        · intro other isOther
          rw [atNone]
          exact stageAt_other isOther _
        · rw [atStage]
          rfl
        · intro held before
          rw [atNone, decide_eq_true isPending] at before
          rw [stageAt_event, decide_eq_false (notMem_erase id _)]
          exact (holds_canceling _ _ true held).1 before
  | ending =>
    have atNone : ∀ other, stageAt object.owner other = none := by
      intro other
      rw [atStage]
      rfl
    have count := sound.count
    rw [atStage] at count
    have ended : ∀ last : SyncObject, last.numsyncs = object.numsyncs →
        last.events = object.events → last.pending = object.pending →
        Sound { last with refcount := object.refcount - 1, owner := .destroyed } := by
      intro last numsyncs events pending
      constructor
      · rw [numsyncs, events, pending]
        intro id below
        have before := sound.events id below
        rw [atNone] at before
        exact before
      · rw [numsyncs, events, pending]
        exact fun id above => ⟨(sound.fresh id above).1, (sound.fresh id above).2.1, rfl⟩
      · rw [numsyncs, events, count, ownHeld, ownHeld, if_pos rfl, if_neg nofun,
          Nat.add_sub_cancel_left, Nat.zero_add]
    dsimp only
    split
    · exact ended _ rfl rfl rfl
    · exact ended _ rfl rfl rfl

/-- Every step keeps the invariant. -/
theorem Sound.step (action : Action) : (object.step action).Sound := by
  cases action with
  | add type => exact sound.addSync type
  | register success => exact sound.register success
  | submit =>
    unfold SyncObject.step
    dsimp only
    split
    case isTrue isReady =>
      exact sound.withOwner (fun _ => by rw [isReady]; rfl) (fun _ => rfl) (by rw [isReady]; rfl)
    case isFalse => exact sound
  | destroy =>
    unfold SyncObject.step
    dsimp only
    split
    case isTrue starts =>
      rcases starts with isReady | isLive
      · exact sound.withOwner (fun _ => by rw [isReady]; rfl) (fun _ => rfl) (by rw [isReady]; rfl)
      · exact sound.withOwner (fun _ => by rw [isLive]; rfl) (fun _ => rfl) (by rw [isLive]; rfl)
    case isFalse => exact sound
  | advance => exact sound.advance
  | callback id => exact sound.callback id

end

/-- A callback that may run holds the draw object. -/
theorem holds_mayRun : ∀ isTimestamp phase pending stage draw other,
    holds isTimestamp phase pending stage = some (draw, other) →
      phase = .unregistered ∨ phase = .finished ∨ draw = true := by
  decide

/-- Where nothing is being done, nothing is held for an event whose callback cannot run. -/
theorem holds_finished : ∀ isTimestamp pending held,
    (holds isTimestamp .unregistered pending none = some held → held = (false, false))
    ∧ (holds isTimestamp .finished pending none = some held → held = (false, false)) := by
  decide

theorem Sound.keptForCallbacks (sound : object.Sound) : object.KeptForCallbacks := by
  rintro id ⟨isRegistered, notFinished⟩
  have allocated := sound.allocated_of_phase isRegistered
  obtain ⟨draw, other, together, isDraw, _⟩ := sound.events id allocated
  have held := ((holds_mayRun _ _ _ _ draw other together).resolve_left isRegistered).resolve_left
    notFinished
  subst held
  exact Nat.ne_of_gt (sound.refcount_pos allocated (drawHeld_reference isDraw))

theorem Sound.balanced (sound : object.Sound) : object.Balanced := by
  intro isDestroyed idle
  have dropped : ∀ id < object.numsyncs, (object.events id).draw = reference true false
      ∧ (object.events id).context = reference ((object.events id).type = .timestamp) false
      ∧ (object.events id).fence = reference ((object.events id).type = .timeline) false := by
    intro id below
    obtain ⟨draw, other, together, references⟩ := sound.events id below
    rw [isDestroyed] at together
    have phase : (object.events id).phase = .unregistered
        ∨ (object.events id).phase = .finished := by
      by_contra neither
      exact idle id (not_or.mp neither)
    have none : (draw, other) = (false, false) := by
      rcases phase with isUnregistered | isFinished
      · rw [isUnregistered] at together
        exact (holds_finished _ _ _).1 together
      · rw [isFinished] at together
        exact (holds_finished _ _ _).2 together
    cases none
    exact references
  constructor
  · rw [sound.count, isDestroyed, ownHeld, if_pos rfl, Nat.zero_add]
    apply sum_eq_zero
    intro id among
    exact drawHeld_reference (dropped id (mem_range.mp among)).1
  · intro id below
    have references := dropped id below
    refine ⟨references.1, ?_, ?_⟩
    · rw [references.2.1]
      cases (object.events id).type <;> rfl
    · rw [references.2.2]
      cases (object.events id).type <;> rfl

/-! ## Scheduling -/

/-- Sync points are still being added. -/
def adds : OwnerPhase → Bool
  | .ready => true
  | .event .registering _ => true
  | .event .clearing _ => true
  | .event .putting _ => true
  | _ => false

/-- A callback is between clearing its bit and scheduling the context. -/
def OnItsWay (event : SyncEvent) : Prop :=
  event.phase = .cleared ∨ event.phase = .scheduling

/-- Whoever owes a scheduling of the context is on its way, and no bit will be set any more. -/
structure Owing (object : SyncObject) : Prop where
  added : object.added = true → adds object.owner = false
  owed : object.owed = true → object.added = true ∧ object.pending = ∅
    ∧ ∃ id, OnItsWay (object.events id)

theorem owing_new : new.Owing where
  added isAdded := absurd isAdded nofun
  owed isOwed := absurd isOwed nofun

section

variable (owing : object.Owing)

include owing

theorem Owing.schedules : object.Schedules := by
  intro none
  by_contra isOwed
  obtain ⟨_, _, id, isCleared | isScheduling⟩ := owing.owed (Bool.eq_true_of_not_eq_false isOwed)
  · exact (none id).1 isCleared
  · exact (none id).2 isScheduling

/-- While sync points are being added nothing is owed. -/
theorem Owing.not_owed (adding : adds object.owner = true) :
    object.added = false ∧ object.owed = false := by
  have notAdded : object.added = false := by
    by_contra isAdded
    have noMore := owing.added (Bool.eq_true_of_not_eq_false isAdded)
    rw [adding] at noMore
    cases noMore
  refine ⟨notAdded, ?_⟩
  by_contra isOwed
  have isAdded := (owing.owed (Bool.eq_true_of_not_eq_false isOwed)).1
  rw [notAdded] at isAdded
  cases isAdded

/-- A step while sync points are being added. -/
theorem Owing.whileAdding (adding : adds object.owner = true) (added : next.added = object.added)
    (owed : next.owed = object.owed) : next.Owing := by
  have before := owing.not_owed adding
  constructor
  · intro isAdded
    rw [added, before.1] at isAdded
    cases isAdded
  · intro isOwed
    rw [owed, before.2] at isOwed
    cases isOwed

/-- A step that sets no bit and stops no callback on its way. -/
theorem Owing.keep (owner : object.added = true → adds next.owner = false)
    (added : next.added = object.added) (owed : next.owed = object.owed)
    (pending : next.pending ⊆ object.pending)
    (onItsWay : ∀ id, OnItsWay (object.events id) → OnItsWay (next.events id)) : next.Owing := by
  constructor
  · rw [added]
    exact owner
  · rw [added, owed]
    intro isOwed
    obtain ⟨isAdded, empty, id, goes⟩ := owing.owed isOwed
    refine ⟨isAdded, ?_, id, onItsWay id goes⟩
    rw [empty] at pending
    exact subset_empty.mp pending

/-- An event whose callback is not on its way changes. -/
theorem Owing.change (elsewhere : ¬OnItsWay (object.events id))
    (owner : object.added = true → adds next.owner = false)
    (added : next.added = object.added) (owed : next.owed = object.owed)
    (pending : next.pending ⊆ object.pending)
    (others : ∀ other, other ≠ id → next.events other = object.events other) : next.Owing := by
  apply owing.keep owner added owed pending
  intro other goes
  have isOther : other ≠ id := by
    rintro rfl
    exact elsewhere goes
  rw [others other isOther]
  exact goes

theorem Owing.withPhase {phase : CallbackPhase}
    (elsewhere : ¬OnItsWay (object.events id)) : (object.withPhase id phase).Owing :=
  owing.change elsewhere owing.added rfl rfl (Subset.refl _)
    fun _ isOther => update_of_ne isOther _ _

theorem Owing.callback (id : Nat) : (object.callback id).Owing := by
  unfold SyncObject.callback
  dsimp only
  have notGoing : ∀ phase, (object.events id).phase = phase → phase ≠ .cleared →
      phase ≠ .scheduling → ¬OnItsWay (object.events id) := by
    rintro phase isPhase notCleared notScheduling (isCleared | isScheduling)
    · exact notCleared (isPhase.symm.trans isCleared)
    · exact notScheduling (isPhase.symm.trans isScheduling)
  cases isPhase : (object.events id).phase with
  | unregistered | finished => exact owing
  | registered | queued => exact owing.withPhase (notGoing _ isPhase nofun nofun)
  | called =>
    dsimp only
    split
    case isTrue isPending =>
      constructor
      · exact owing.added
      · intro isOwed
        have notBefore : object.owed = false := by
          by_contra before
          have empty := (owing.owed (Bool.eq_true_of_not_eq_false before)).2.1
          rw [empty] at isPending
          exact notMem_empty id isPending
        rw [notBefore, Bool.false_or, Bool.and_eq_true, decide_eq_true_eq] at isOwed
        refine ⟨isOwed.1, isOwed.2, id, .inl ?_⟩
        simp [SyncObject.withPhase, withEvent, SyncEvent.goTo]
    case isFalse => exact owing.withPhase (notGoing _ isPhase nofun nofun)
  | cleared =>
    constructor
    · exact owing.added
    · intro isOwed
      obtain ⟨isAdded, empty, _⟩ := owing.owed isOwed
      refine ⟨isAdded, empty, id, .inr ?_⟩
      simp [SyncObject.withPhase, withEvent, SyncEvent.goTo, empty]
  | scheduling => exact ⟨owing.added, fun isOwed => absurd isOwed nofun⟩
  | putting expired =>
    have elsewhere := notGoing _ isPhase nofun nofun
    have puts : ∀ next : SyncObject, next.added = object.added → next.owed = object.owed →
        next.pending = object.pending → next.owner = object.owner →
        (∀ other, other ≠ id → next.events other = object.events other) → next.Owing := by
      intro next added owed pending owner others
      apply owing.change elsewhere _ added owed _ others
      · rw [owner]
        exact owing.added
      · exact pending.le
    cases (object.events id).type with
    | timestamp =>
      cases expired
      all_goals apply puts <;> try rfl
      all_goals simp +contextual [SyncObject.withPhase, withEvent, drawobjPut, otherPut]
    | fence =>
      cases expired
      all_goals apply puts <;> try rfl
      all_goals simp +contextual [SyncObject.withPhase, withEvent, drawobjPut]
    | timeline => exact owing.withPhase elsewhere
  | working =>
    apply owing.change (notGoing _ isPhase nofun nofun)
    · exact owing.added
    · rfl
    · rfl
    · exact Subset.refl _
    · simp +contextual [SyncObject.withPhase, withEvent, drawobjPut, otherPut]

/-- The destroyer leaves the callbacks on their way alone. -/
theorem Owing.cancel (id : Nat) : (object.cancel id).Owing := by
  have next : Owing { object with owner := .event .cancelPutting id } :=
    owing.keep (fun _ => rfl) rfl rfl (Subset.refl _) fun _ goes => goes
  have registered : (object.events id).phase = .registered → ¬OnItsWay (object.events id) := by
    rintro isRegistered (isCleared | isScheduling)
    · rw [isRegistered] at isCleared
      cases isCleared
    · rw [isRegistered] at isScheduling
      cases isScheduling
  unfold SyncObject.cancel
  dsimp only
  split
  case h_1 _ isRegistered => exact next.withPhase (registered isRegistered)
  case h_2 => exact next
  case h_3 isRegistered _ => exact next.withPhase (registered isRegistered)
  case h_4 => exact next
  case h_5 => exact owing

theorem Owing.advance : object.advance.Owing := by
  unfold SyncObject.advance
  have samePhases : ∀ events : Nat → SyncEvent,
      (∀ id, (events id).phase = (object.events id).phase) →
      ∀ id, OnItsWay (object.events id) → OnItsWay (events id) := by
    intro events same id goes
    rw [OnItsWay, same]
    exact goes
  have putOther : ∀ event : SyncEvent, event.putOther.phase = event.phase := by
    intro event
    unfold SyncEvent.putOther
    split <;> rfl
  cases atStage : object.owner with
  | ready | live | destroyed => exact owing
  | event stage id =>
    cases stage with
    | registering => exact owing
    | clearing | putting =>
      exact owing.whileAdding (by rw [atStage]; rfl) rfl rfl
    | canceling => exact owing.cancel id
    | cancelPutting =>
      dsimp only
      split
      · apply owing.keep
        · exact fun _ => rfl
        · rfl
        · rfl
        · exact Subset.refl _
        · apply samePhases
          intro other
          by_cases isSame : other = id
          · simp [isSame, otherPut, withEvent, putOther]
          · simp [isSame, otherPut, withEvent]
      · apply owing.keep
        · exact fun _ => rfl
        · rfl
        · rfl
        · exact Subset.refl _
        · apply samePhases
          intro other
          by_cases isSame : other = id
          · simp [isSame, otherPut, drawobjPut, withEvent, SyncEvent.putDraw, putOther]
          · simp [isSame, otherPut, drawobjPut, withEvent]
  | destroying id =>
    dsimp only
    split
    · split
      · exact owing.keep (fun _ => rfl) rfl rfl (erase_subset _ _) fun _ goes => goes
      · exact owing.keep (fun _ => rfl) rfl rfl (Subset.refl _) fun _ goes => goes
    · exact owing.keep (fun _ => rfl) rfl rfl (Subset.refl _) fun _ goes => goes
  | ending =>
    dsimp only
    split
    · exact ⟨fun _ => rfl, fun isOwed => absurd isOwed nofun⟩
    · exact owing.keep (fun _ => rfl) rfl rfl (Subset.refl _) fun _ goes => goes

theorem Owing.step (action : Action) : (object.step action).Owing := by
  cases action with
  | add type =>
    unfold SyncObject.step addSync
    dsimp only
    split
    case isTrue isReady => exact owing.whileAdding (by rw [isReady]; rfl) rfl rfl
    case isFalse => exact owing
  | register success =>
    unfold SyncObject.step register
    dsimp only
    split
    case h_1 id atStage =>
      have adding : adds object.owner = true := by
        rw [atStage]
        rfl
      split
      · exact owing.whileAdding adding rfl rfl
      · exact owing.whileAdding adding rfl rfl
    case h_2 => exact owing
  | submit =>
    unfold SyncObject.step
    dsimp only
    split
    case isTrue isReady =>
      have before := owing.not_owed (by rw [isReady]; rfl)
      exact ⟨fun _ => rfl, fun isOwed => by rw [before.2] at isOwed; cases isOwed⟩
    case isFalse => exact owing
  | destroy =>
    unfold SyncObject.step
    dsimp only
    split
    case isTrue =>
      constructor
      · exact fun _ => rfl
      · intro isOwed
        exact ⟨rfl, (owing.owed isOwed).2⟩
    case isFalse => exact owing
  | advance => exact owing.advance
  | callback id => exact owing.callback id

end

/-- However sync points are added and fail to register, callbacks run and the object is
destroyed: the draw object stays as long as a callback may use it, in the end each reference has
been dropped exactly once, and when a callback has cleared the last bit the context is
scheduled. -/
theorem syncObject_balanced (actions : List Action) :
    (actions.foldl step new).KeptForCallbacks ∧ (actions.foldl step new).Balanced
      ∧ (actions.foldl step new).Schedules := by
  have run := Reaches.foldl (Allowed.always step new actions)
  have invariant : (actions.foldl step new).Sound ∧ (actions.foldl step new).Owing := by
    apply @Reaches.invariant _ _ _ _ _ (fun object => object.Sound ∧ object.Owing) run
    · exact ⟨sound_new, owing_new⟩
    · rintro object action next ⟨sound, owing⟩ ⟨_, rfl⟩
      exact ⟨sound.step action, owing.step action⟩
  exact ⟨invariant.1.keptForCallbacks, invariant.1.balanced, invariant.2.schedules⟩

/-- The context is scheduled between two states of a run, if the second one is its end. -/
def ScheduledUntil (object final : SyncObject) : Prop :=
  final.owner = .destroyed → (∀ id, ¬MayRun (final.events id)) → object.scheduled < final.scheduled

/-- A fence that has been signalled before is added: its bit is set and cleared, and the context
is not scheduled, because the object is not on its queue yet. -/
theorem not_scheduledUntil :
    ¬∀ (before after : List Action) (action : Action), (before.foldl step new).pending ≠ ∅ →
      (step (before.foldl step new) action).pending = ∅ →
      ScheduledUntil (step (before.foldl step new) action)
        (after.foldl step (step (before.foldl step new) action)) := by
  intro scheduled
  have wrong := scheduled [.add .fence, .register false]
    [.advance, .submit, .destroy, .advance, .advance, .advance] .advance
    (by decide +kernel) (by decide +kernel) (by decide +kernel)
  have before := wrong (by
    intro id mayRun
    apply mayRun.1
    cases id with
    | zero => rfl
    | succ id => rfl)
  revert before
  decide +kernel

end SyncObject

end Sm8650.Kgsl
