import Mathlib.Data.BitVec

/-!
# Software timelines

A timeline is a value that only grows. Fences wait for it to reach their sequence number,
and draw objects announce in its list of events by which hardware timestamp they are going
to advance it. What each section under the lock of a timeline does is a function here.

Source: `kgsl_timeline.c`.
-/

namespace Sm8650.Kgsl

abbrev U64 := BitVec 64

/-- `struct kgsl_timeline_fence`, and what its `dma_fence` has. The references are counted by
who holds them: users outside the calls, and those who destroy the timeline. -/
structure TimelineFence where
  timeline : Nat
  seqno : U64
  signalled : Bool
  error : Bool
  users : Nat
  destroyers : Nat
  deriving DecidableEq, Repr

/-- `struct kgsl_timeline_event`, with the draw object and the index in its array. -/
structure TimelineEvent where
  object : Nat
  index : Nat
  timeline : Nat
  seqno : U64
  context : Nat
  timestamp : BitVec 32
  deriving DecidableEq, Repr

/-- `struct kgsl_timeline`; fences are known by their addresses. -/
structure Timeline where
  id : Nat
  devPriv : Nat
  value : U64
  fences : List Nat
  events : List TimelineEvent
  deriving DecidableEq, Repr

/-- The memory of the fences. -/
abbrev FenceMemory := Nat → TimelineFence

namespace TimelineFence

/-- The reference count of the fence. -/
def refs (fence : TimelineFence) : Nat :=
  fence.users + fence.destroyers

/-- `timeline_fence_signaled` -/
def timelineFenceSignaled (fence : TimelineFence) (value : U64) : Bool :=
  !decide (value < fence.seqno)

/-- `dma_fence_signal_locked` -/
def signalLocked (fence : TimelineFence) : TimelineFence :=
  { fence with signalled := true }

/-- `dma_fence_set_error` -/
def setError (fence : TimelineFence) : TimelineFence :=
  { fence with error := true }

/-- `dma_fence_is_signaled_locked`: the answer, and the fence that it signals if the value
has been reached. -/
def isSignaledLocked (fence : TimelineFence) (value : U64) : Bool × TimelineFence :=
  if fence.signalled then (true, fence)
  else if fence.timelineFenceSignaled value then (true, fence.signalLocked)
  else (false, fence)

theorem timelineFenceSignaled_iff {fence : TimelineFence} {value : U64} :
    fence.timelineFenceSignaled value = true ↔ fence.seqno ≤ value := by
  simp [timelineFenceSignaled]

end TimelineFence

namespace Timeline

/-- `kgsl_timeline_alloc` -/
def alloc (id devPriv : Nat) (initial : U64) : Timeline :=
  ⟨id, devPriv, initial, [], []⟩

/-- `kgsl_timeline_add_fence`: before the first fence with a larger sequence number. -/
def addFence (timeline : Timeline) (memory : FenceMemory) (fence : Nat) : Timeline :=
  { timeline with
    fences := timeline.fences.orderedInsert
      (fun new entry => (memory new).seqno < (memory entry).seqno) fence }

/-- `kgsl_timeline_add_signal`: after the last event without a larger sequence number, which
is looked for from the end. -/
def addSignal (timeline : Timeline) (signal : TimelineEvent) : Timeline :=
  if signal.seqno ≤ timeline.value then timeline
  else
    { timeline with
      events := (timeline.events.reverse.orderedInsert
        (fun new event => event.seqno ≤ new.seqno) signal).reverse }

/-- The fences that `kgsl_timeline_signal` moves to its own list. -/
def expired (timeline : Timeline) (memory : FenceMemory) (value : U64) : List Nat :=
  timeline.fences.filter fun fence =>
    (memory fence).timelineFenceSignaled value && decide ((memory fence).refs ≠ 0)

/-- `kgsl_timeline_signal` -/
def signal (timeline : Timeline) (memory : FenceMemory) (seqno : U64) : Timeline × FenceMemory :=
  if seqno < timeline.value then (timeline, memory)
  else
    let temp := timeline.expired memory seqno
    ({ timeline with
        value := seqno
        events := timeline.events.dropWhile fun event => decide (event.seqno ≤ seqno)
        fences := timeline.fences.filter fun fence => decide (fence ∉ temp) },
      fun fence => if fence ∈ temp then (memory fence).signalLocked else memory fence)

/-- The locked section of `kgsl_timeline_fence_alloc`, for the fence at a new address. -/
def fenceAlloc (timeline : Timeline) (memory : FenceMemory) (fence : Nat) :
    Timeline × FenceMemory :=
  let (signaled, checked) := (memory fence).isSignaledLocked timeline.value
  let memory := Function.update memory fence checked
  (if signaled then timeline else timeline.addFence memory fence, memory)

/-- The fences that the sweep of `kgsl_ioctl_timeline_destroy` keeps. -/
def referenced (timeline : Timeline) (memory : FenceMemory) : List Nat :=
  timeline.fences.filter fun fence => decide ((memory fence).refs ≠ 0)

/-- The `fence_lock` section of `kgsl_ioctl_timeline_destroy`: a reference to every fence is
taken, and the list is left empty. -/
def sweep (timeline : Timeline) (memory : FenceMemory) : Timeline × FenceMemory :=
  ({ timeline with fences := [] },
    fun fence =>
      if fence ∈ timeline.referenced memory then
        { memory fence with destroyers := (memory fence).destroyers + 1 }
      else memory fence)

/-- The `lock` section of `kgsl_ioctl_timeline_destroy`: each fence that has been swept is
signalled with an error, and put; where that is the last reference, the fence is released. -/
def signalSwept (timeline : Timeline) (temp : List Nat) (memory : FenceMemory) :
    Timeline × FenceMemory :=
  ({ timeline with
      fences := timeline.fences.filter fun fence =>
        decide (¬(fence ∈ temp ∧ (memory fence).refs ≤ 1)) },
    fun fence =>
      if fence ∈ temp then
        let signalled := (memory fence).setError.signalLocked
        { signalled with destroyers := signalled.destroyers - 1 }
      else memory fence)

/-- `timeline_fence_release`: the fence is taken off the list if it is still there. -/
def release (timeline : Timeline) (fence : Nat) : Timeline :=
  { timeline with fences := timeline.fences.erase fence }

/-- `kgsl_ioctl_timeline_query`: the last event whose timestamp has retired, from the end,
or else the value. -/
def query (timeline : Timeline) (checkTimestamp : Nat → BitVec 32 → Bool) : U64 :=
  match timeline.events.reverse.find? fun event =>
      checkTimestamp event.context event.timestamp with
  | some event => event.seqno
  | none => timeline.value

/-! ## What the sections do to the value -/

variable {timeline : Timeline} {memory : FenceMemory}

@[simp] theorem addSignal_value (event : TimelineEvent) :
    (timeline.addSignal event).value = timeline.value := by
  unfold addSignal
  split <;> rfl

theorem mem_expired {value : U64} {fence : Nat} :
    fence ∈ timeline.expired memory value ↔ fence ∈ timeline.fences
      ∧ (memory fence).seqno ≤ value ∧ (memory fence).refs ≠ 0 := by
  rw [expired, List.mem_filter, Bool.and_eq_true, decide_eq_true_eq,
    TimelineFence.timelineFenceSignaled_iff]

theorem mem_referenced {fence : Nat} :
    fence ∈ timeline.referenced memory ↔ fence ∈ timeline.fences ∧ (memory fence).refs ≠ 0 := by
  rw [referenced, List.mem_filter, decide_eq_true_eq]

/-- A signal never takes the value down. -/
theorem value_le_signal (seqno : U64) :
    timeline.value ≤ (timeline.signal memory seqno).1.value := by
  unfold signal
  split
  case isTrue => exact BitVec.le_refl _
  case isFalse notBelow => exact BitVec.not_lt.mp notBelow

/-- After a signal the value is not below the signalled one. -/
theorem seqno_le_signal {seqno : U64} : seqno ≤ (timeline.signal memory seqno).1.value := by
  unfold signal
  split
  case isTrue below => exact BitVec.le_of_lt below
  case isFalse => exact BitVec.le_refl _

end Timeline

end Sm8650.Kgsl
