import Sm8650.Kgsl.Timeline
import Sm8650.Transition.Reach

/-!
# Fences of software timelines

Any number of threads create timelines, look them up to put a fence on them or to signal
them, release fences and destroy timelines. A thread that has looked a timeline up goes on
after the timeline is gone from the table; the fence that it adds is then one that the
destroyer has not swept.
-/

namespace Sm8650.Kgsl

open Transition Function List TimelineFence

/-- What a thread has still to do in its call: the section that comes next. -/
inductive TimelineCall
  | idle
  | fenceAlloc (timeline : Nat) (seqno : U64)
  | signal (timeline : Nat) (seqno : U64)
  | sweep (timeline : Nat)
  | signalSwept (timeline : Nat) (temp : List Nat)
  | release (fence : Nat)
  deriving DecidableEq, Repr

/-- The timelines of a device: the table by identifier, the timelines and the fences by
their addresses with the numbers of those that have been allocated, and the threads. -/
structure TimelineSystem (τ : Type) where
  idr : Nat → Option Nat
  timelines : Nat → Timeline
  timelineCount : Nat
  memory : FenceMemory
  fenceCount : Nat
  calls : τ → TimelineCall

/-- A thread calls into the driver, takes the next step of its call or fails to allocate its
fence; and who holds a reference to a fence may take another one, poll the fence or put the
reference. -/
inductive TimelineAction (τ : Type)
  | create (devPriv : Nat) (initial : U64) (id : Nat)
  | fenceGet (i : τ) (id : Nat) (seqno : U64)
  | signal (i : τ) (id : Nat) (seqno : U64)
  | destroy (i : τ) (devPriv : Nat) (id : Nat)
  | advance (i : τ)
  | fail (i : τ)
  | get (fence : Nat)
  | poll (fence : Nat)
  | put (i : τ) (fence : Nat)
  deriving DecidableEq, Repr

variable {τ : Type} [DecidableEq τ]

namespace TimelineSystem

/-- A device without timelines. -/
def new : TimelineSystem τ where
  idr _ := none
  timelines _ := .alloc 0 0 0
  timelineCount := 0
  memory _ := ⟨0, 0, false, false, 0, 0⟩
  fenceCount := 0
  calls _ := .idle

/-- `kgsl_ioctl_timeline_create`, with the identifier that is chosen: from its reservation
until the timeline is there nobody finds it. -/
def create (system : TimelineSystem τ) (devPriv : Nat) (initial : U64) (id : Nat) :
    TimelineSystem τ :=
  if id ≠ 0 ∧ system.idr id = none then
    { system with
      idr := update system.idr id (some system.timelineCount)
      timelines := update system.timelines system.timelineCount (.alloc id devPriv initial)
      timelineCount := system.timelineCount + 1 }
  else system

/-- The thread goes on to a section. -/
def goTo (system : TimelineSystem τ) (i : τ) (call : TimelineCall) : TimelineSystem τ :=
  { system with calls := update system.calls i call }

/-- A section that changes a timeline and fences. -/
def store (system : TimelineSystem τ) (timeline : Nat) (result : Timeline × FenceMemory) :
    TimelineSystem τ :=
  { system with
    timelines := update system.timelines timeline result.1
    memory := result.2 }

/-- `kgsl_timeline_by_id` by an idle thread, and what it goes on to. The table holds a
reference to each of its timelines. -/
def withTimeline (system : TimelineSystem τ) (i : τ) (id : Nat) (call : Nat → TimelineCall) :
    TimelineSystem τ :=
  match system.calls i, system.idr id with
  | .idle, some timeline => system.goTo i (call timeline)
  | _, _ => system

/-- `kgsl_ioctl_timeline_destroy`, until the timeline is out of the table. -/
def destroy (system : TimelineSystem τ) (i : τ) (devPriv id : Nat) : TimelineSystem τ :=
  match system.calls i, system.idr id with
  | .idle, some timeline =>
    if (system.timelines timeline).devPriv ≠ devPriv then system
    else
      { system.goTo i (.sweep timeline) with
        idr := update system.idr (system.timelines timeline).id none }
  | _, _ => system

/-- A new fence with the reference of its creator. -/
def newFence (timeline : Nat) (seqno : U64) : TimelineFence :=
  ⟨timeline, seqno, false, false, 1, 0⟩

/-- `kgsl_timeline_fence_alloc` -/
def fenceAlloc (system : TimelineSystem τ) (timeline : Nat) (seqno : U64) : TimelineSystem τ :=
  { system.store timeline
      ((system.timelines timeline).fenceAlloc
        (update system.memory system.fenceCount (newFence timeline seqno))
        system.fenceCount) with
    fenceCount := system.fenceCount + 1 }

/-- The next section of a thread. -/
def advance (system : TimelineSystem τ) (i : τ) : TimelineSystem τ :=
  match system.calls i with
  | .idle => system
  | .fenceAlloc timeline seqno => (system.fenceAlloc timeline seqno).goTo i .idle
  | .signal timeline seqno =>
    (system.store timeline ((system.timelines timeline).signal system.memory seqno)).goTo i .idle
  | .sweep timeline =>
    (system.store timeline ((system.timelines timeline).sweep system.memory)).goTo i
      (.signalSwept timeline ((system.timelines timeline).referenced system.memory))
  | .signalSwept timeline temp =>
    (system.store timeline
      ((system.timelines timeline).signalSwept temp system.memory)).goTo i .idle
  | .release fence =>
    let timeline := (system.memory fence).timeline
    (system.store timeline ((system.timelines timeline).release fence, system.memory)).goTo i .idle

/-- The memory with another fence at an address. -/
def withFence (system : TimelineSystem τ) (fence : Nat) (changed : TimelineFence) :
    TimelineSystem τ :=
  { system with memory := update system.memory fence changed }

/-- `dma_fence_put` by an idle thread: at zero the fence is going to be released. -/
def put (system : TimelineSystem τ) (i : τ) (fence : Nat) : TimelineSystem τ :=
  let old := system.memory fence
  if system.calls i = .idle ∧ old.users ≠ 0 then
    let changed := { old with users := old.users - 1 }
    if changed.refs = 0 then (system.withFence fence changed).goTo i (.release fence)
    else system.withFence fence changed
  else system

/-- `dma_fence_is_signaled`, or the test as signalling is enabled. -/
def poll (system : TimelineSystem τ) (fence : Nat) : TimelineSystem τ :=
  let old := system.memory fence
  if old.users ≠ 0 then
    system.withFence fence (old.isSignaledLocked (system.timelines old.timeline).value).2
  else system

/-- `dma_fence_get` -/
def get (system : TimelineSystem τ) (fence : Nat) : TimelineSystem τ :=
  let old := system.memory fence
  if old.users ≠ 0 then
    system.withFence fence { old with users := old.users + 1 }
  else system

/-- One step. -/
def step (system : TimelineSystem τ) : TimelineAction τ → TimelineSystem τ
  | .create devPriv initial id => system.create devPriv initial id
  | .fenceGet i id seqno => system.withTimeline i id fun timeline => .fenceAlloc timeline seqno
  | .signal i id seqno => system.withTimeline i id fun timeline => .signal timeline seqno
  | .destroy i devPriv id => system.destroy i devPriv id
  | .advance i => system.advance i
  | .fail i =>
    match system.calls i with
    | .fenceAlloc _ _ => system.goTo i .idle
    | _ => system
  | .get fence => system.get fence
  | .poll fence => system.poll fence
  | .put i fence => system.put i fence

/-- The timeline is in the table. -/
def Registered (system : TimelineSystem τ) (timeline : Nat) : Prop :=
  system.idr (system.timelines timeline).id = some timeline

/-- A thread is going to sweep the timeline. -/
def AwaitsSweep (system : TimelineSystem τ) (timeline : Nat) : Prop :=
  ∃ i, system.calls i = .sweep timeline

/-- A fence that has to wait is put on a timeline only before the timeline is swept. -/
def AddsBeforeSweep (system : TimelineSystem τ) : TimelineAction τ → Prop
  | .advance i => ∀ timeline seqno, system.calls i = .fenceAlloc timeline seqno →
      seqno ≤ (system.timelines timeline).value
        ∨ system.Registered timeline ∨ system.AwaitsSweep timeline
  | _ => True

/-- The fence has been signalled without an error only if the value has reached it. -/
def SignalsReached (system : TimelineSystem τ) : Prop :=
  ∀ fence < system.fenceCount, (system.memory fence).signalled = true →
    (system.memory fence).error = false →
      (system.memory fence).seqno ≤ (system.timelines (system.memory fence).timeline).value

/-- Every fence that has not been released and whose timeline has been destroyed, or has
reached it, has been signalled. -/
def WaitersSignalled (system : TimelineSystem τ) : Prop :=
  ∀ fence < system.fenceCount, (system.memory fence).refs ≠ 0 →
    ¬system.Registered (system.memory fence).timeline
        ∨ (system.memory fence).seqno ≤ (system.timelines (system.memory fence).timeline).value →
      (system.memory fence).signalled = true

/-! ## The invariant -/

/-- A fence on a list, or swept and not signalled yet. -/
def Pending (system : TimelineSystem τ) (fence : Nat) : Prop :=
  fence ∈ (system.timelines (system.memory fence).timeline).fences
    ∨ ∃ i timeline temp, system.calls i = .signalSwept timeline temp ∧ fence ∈ temp

/-- The timeline of a call has been allocated, and a fence that is being released has no
references. -/
def CallSound (system : TimelineSystem τ) : TimelineCall → Prop
  | .idle => True
  | .fenceAlloc timeline _ => timeline < system.timelineCount
  | .signal timeline _ => timeline < system.timelineCount
  | .sweep timeline => timeline < system.timelineCount
  | .signalSwept timeline _ => timeline < system.timelineCount
  | .release fence => fence < system.fenceCount ∧ (system.memory fence).refs = 0

/-- What holds between any two sections. -/
structure Sound (system : TimelineSystem τ) : Prop where
  table : ∀ id timeline, system.idr id = some timeline →
    timeline < system.timelineCount ∧ (system.timelines timeline).id = id
  calls : ∀ i, system.CallSound (system.calls i)
  allocated : ∀ fence < system.fenceCount, (system.memory fence).timeline < system.timelineCount
  used : ∀ fence, (system.memory fence).users ≠ 0 → fence < system.fenceCount
  listed : ∀ timeline, ∀ fence ∈ (system.timelines timeline).fences,
    fence < system.fenceCount ∧ (system.memory fence).timeline = timeline
  waiting : ∀ timeline, ∀ fence ∈ (system.timelines timeline).fences,
    (system.memory fence).refs ≠ 0 → (system.memory fence).signalled = false →
      (system.timelines timeline).value < (system.memory fence).seqno
  reached : system.SignalsReached
  pending : ∀ fence < system.fenceCount, (system.memory fence).refs ≠ 0 →
    (system.memory fence).signalled = false → system.Pending fence
  gone : ∀ timeline, (system.timelines timeline).fences ≠ [] →
    system.Registered timeline ∨ system.AwaitsSweep timeline

variable {system : TimelineSystem τ}

variable {next : TimelineSystem τ} {call : TimelineCall}

section

omit [DecidableEq τ]

/-- Timelines stay allocated, and fences without references stay so. -/
theorem CallSound.keep (callSound : system.CallSound call)
    (timelineCount : system.timelineCount ≤ next.timelineCount)
    (fenceCount : system.fenceCount ≤ next.fenceCount)
    (refs : ∀ fence < system.fenceCount, (system.memory fence).refs = 0 → (next.memory fence).refs = 0)
    : next.CallSound call := by
  cases call with
  | idle => trivial
  | fenceAlloc timeline seqno | signal timeline seqno | sweep timeline
  | signalSwept timeline temp => exact Nat.lt_of_lt_of_le callSound timelineCount
  | release fence =>
    exact ⟨Nat.lt_of_lt_of_le callSound.1 fenceCount, refs fence callSound.1 callSound.2⟩

theorem sound_new : (new : TimelineSystem τ).Sound where
  table _ _ found := absurd found nofun
  calls _ := trivial
  allocated _ below := absurd below (Nat.not_lt_zero _)
  used _ isUsed := absurd rfl isUsed
  listed _ _ among := absurd among not_mem_nil
  waiting _ _ among := absurd among not_mem_nil
  reached _ below := absurd below (Nat.not_lt_zero _)
  pending _ below := absurd below (Nat.not_lt_zero _)
  gone _ nonempty := absurd rfl nonempty

/-- Nobody is in a call: what is pending is on a list, and every list but those of the
timelines in the table is empty. -/
theorem Sound.waitersSignalled (sound : system.Sound) (quiet : ∀ i, system.calls i = .idle) :
    system.WaitersSignalled := by
  intro fence allocated referenced goneOrReached
  by_contra unsignalled
  have unsignalled := Bool.eq_false_iff.mpr unsignalled
  have among : fence ∈ (system.timelines (system.memory fence).timeline).fences := by
    rcases sound.pending fence allocated referenced unsignalled with among | ⟨i, _, _, busy, _⟩
    · exact among
    · rw [quiet i] at busy
      cases busy
  rcases goneOrReached with gone | reached
  · rcases sound.gone _ (ne_nil_of_mem among) with registered | ⟨i, busy⟩
    · exact gone registered
    · rw [quiet i] at busy
      cases busy
  · have waits := sound.waiting _ fence among referenced unsignalled
    exact absurd reached (BitVec.not_le.mpr waits)

end

/-- A thread that is not going to sweep a timeline or to signal what it has swept. -/
def Plain : TimelineCall → Prop
  | .sweep _ | .signalSwept _ _ => False
  | _ => True

@[simp] theorem goTo_self (i : τ) (call : TimelineCall) : (system.goTo i call).calls i = call := by
  simp [goTo]

theorem goTo_other {i j : τ} (isOther : j ≠ i) (call : TimelineCall) :
    (system.goTo i call).calls j = system.calls j := by
  simp [goTo, isOther]

variable {timeline : Nat}

theorem AwaitsSweep.goTo {i : τ} (awaits : system.AwaitsSweep timeline)
    (plain : Plain (system.calls i)) : (system.goTo i call).AwaitsSweep timeline := by
  rcases awaits with ⟨j, busy⟩
  have isOther : j ≠ i := by
    rintro rfl
    rw [busy] at plain
    exact plain
  exact ⟨j, (goTo_other isOther call).trans busy⟩

theorem Pending.goTo {fence : Nat} {i : τ} (pending : system.Pending fence)
    (plain : Plain (system.calls i)) : (system.goTo i call).Pending fence := by
  rcases pending with among | ⟨j, timeline, temp, busy, among⟩
  · exact .inl among
  · have isOther : j ≠ i := by
      rintro rfl
      rw [busy] at plain
      exact plain
    exact .inr ⟨j, timeline, temp, (goTo_other isOther call).trans busy, among⟩

/-- A thread that leaves no sweep and nothing swept behind goes on to a sound call. -/
theorem Sound.goTo (sound : system.Sound) {i : τ} (plain : Plain (system.calls i))
    (callSound : system.CallSound call) : (system.goTo i call).Sound :=
  { sound with
    calls j := by
      by_cases isSelf : j = i
      · rw [isSelf, goTo_self]
        exact callSound
      · rw [goTo_other isSelf]
        exact sound.calls j
    pending fence allocated referenced unsignalled :=
      (sound.pending fence allocated referenced unsignalled).goTo plain
    gone timeline nonempty := by
      rcases sound.gone timeline nonempty with registered | awaits
      · exact .inl registered
      · exact .inr (awaits.goTo plain) }

/-- What a section does that adds nothing to a list and starts no call: values grow, fences
are signalled when they are reached, and what is taken off a list does not wait. -/
structure Follows (system next : TimelineSystem τ) : Prop where
  idr : next.idr = system.idr
  calls : next.calls = system.calls
  timelineCount : next.timelineCount = system.timelineCount
  fenceCount : next.fenceCount = system.fenceCount
  id : ∀ timeline, (next.timelines timeline).id = (system.timelines timeline).id
  value : ∀ timeline, (system.timelines timeline).value ≤ (next.timelines timeline).value
  lists : ∀ timeline, (next.timelines timeline).fences ⊆ (system.timelines timeline).fences
  timeline : ∀ fence, (next.memory fence).timeline = (system.memory fence).timeline
  seqno : ∀ fence, (next.memory fence).seqno = (system.memory fence).seqno
  error : ∀ fence, (next.memory fence).error = (system.memory fence).error
  users : ∀ fence, (system.memory fence).users = 0 → (next.memory fence).users = 0
  destroyers : ∀ fence, (system.memory fence).destroyers = 0 → (next.memory fence).destroyers = 0
  unsignalled : ∀ fence, (next.memory fence).signalled = false →
    (system.memory fence).signalled = false
  signalled : ∀ fence, (next.memory fence).signalled = true →
    (system.memory fence).signalled = true ∨ (system.memory fence).seqno
      ≤ (next.timelines (system.memory fence).timeline).value
  kept : ∀ timeline, ∀ fence ∈ (system.timelines timeline).fences,
    (next.memory fence).refs ≠ 0 → (next.memory fence).signalled = false →
      fence ∈ (next.timelines timeline).fences
        ∧ (next.timelines timeline).value < (system.memory fence).seqno

section

omit [DecidableEq τ]

theorem Follows.refs (follows : Follows system next) (fence : Nat)
    (zero : (system.memory fence).refs = 0) : (next.memory fence).refs = 0 := by
  rw [TimelineFence.refs, follows.users fence (Nat.eq_zero_of_add_eq_zero_right zero),
    follows.destroyers fence (Nat.eq_zero_of_add_eq_zero_left zero)]

theorem Sound.follows (sound : system.Sound) (follows : Follows system next) : next.Sound where
  table id timeline found := by
    rw [follows.idr] at found
    rw [follows.timelineCount, follows.id]
    exact sound.table id timeline found
  calls i := by
    rw [follows.calls]
    exact (sound.calls i).keep follows.timelineCount.ge follows.fenceCount.ge
      fun fence _ => follows.refs fence
  allocated fence below := by
    rw [follows.timeline, follows.timelineCount]
    exact sound.allocated fence (follows.fenceCount ▸ below)
  used fence isUsed := by
    rw [follows.fenceCount]
    exact sound.used fence fun zero => isUsed (follows.users fence zero)
  listed timeline fence among := by
    rw [follows.timeline, follows.fenceCount]
    exact sound.listed timeline fence (follows.lists timeline among)
  waiting timeline fence among referenced unsignalled := by
    rw [follows.seqno]
    exact (follows.kept timeline fence (follows.lists timeline among) referenced unsignalled).2
  reached fence below signalled noError := by
    rw [follows.error] at noError
    rw [follows.seqno, follows.timeline]
    rcases follows.signalled fence signalled with before | reached
    · exact BitVec.le_trans
        (sound.reached fence (follows.fenceCount ▸ below) before noError) (follows.value _)
    · exact reached
  pending fence below referenced unsignalled := by
    have before := sound.pending fence (follows.fenceCount ▸ below)
      (fun zero => referenced (follows.refs fence zero)) (follows.unsignalled fence unsignalled)
    rcases before with among | ⟨i, timeline, temp, busy, among⟩
    · left
      rw [follows.timeline]
      exact (follows.kept _ fence among referenced unsignalled).1
    · right
      exact ⟨i, timeline, temp, (congrFun follows.calls i).trans busy, among⟩
  gone timeline nonempty := by
    have before := sound.gone timeline fun empty =>
      nonempty (subset_nil.mp (empty ▸ follows.lists timeline))
    rcases before with registered | ⟨i, busy⟩
    · left
      rw [Registered, follows.idr, follows.id]
      exact registered
    · exact .inr ⟨i, (congrFun follows.calls i).trans busy⟩

theorem store_timelines (timeline : Nat) (result : Timeline × FenceMemory) (other : Nat) :
    (system.store timeline result).timelines other
      = if other = timeline then result.1 else system.timelines other := by
  simp [store, update_apply]

theorem store_self (timeline : Nat) :
    system.store timeline (system.timelines timeline, system.memory) = system := by
  simp [store]

theorem withFence_memory (fence : Nat) (changed : TimelineFence) (other : Nat) :
    (system.withFence fence changed).memory other
      = if other = fence then changed else system.memory other := by
  simp [withFence, update_apply]

/-- One fence changes: it gets no first reference, and it is signalled only if its value has
been reached. -/
theorem Sound.withFence (sound : system.Sound) (fence : Nat) {changed : TimelineFence}
    (timeline : changed.timeline = (system.memory fence).timeline)
    (seqno : changed.seqno = (system.memory fence).seqno)
    (error : changed.error = (system.memory fence).error)
    (users : (system.memory fence).users = 0 → changed.users = 0)
    (destroyers : changed.destroyers = (system.memory fence).destroyers)
    (unsignalled : changed.signalled = false → (system.memory fence).signalled = false)
    (signalled : changed.signalled = true → (system.memory fence).signalled = true
      ∨ (system.memory fence).seqno ≤ (system.timelines (system.memory fence).timeline).value) :
    (system.withFence fence changed).Sound := by
  have same : ∀ {α : Type} (field : TimelineFence → α),
      field changed = field (system.memory fence) → ∀ other,
        field ((system.withFence fence changed).memory other) = field (system.memory other) := by
    intro α field isSame other
    rw [withFence_memory]
    split
    case isTrue isFence => rw [isSame, isFence]
    case isFalse => rfl
  have noFirst : ∀ other, (system.memory other).users = 0 →
      ((system.withFence fence changed).memory other).users = 0 := by
    intro other zero
    rw [withFence_memory]
    split
    case isTrue isFence => exact users (isFence ▸ zero)
    case isFalse => exact zero
  have before : ∀ other,
      ((system.withFence fence changed).memory other).signalled = false →
        (system.memory other).signalled = false := by
    intro other isUnsignalled
    rw [withFence_memory] at isUnsignalled
    split at isUnsignalled
    case isTrue isFence => exact isFence ▸ unsignalled isUnsignalled
    case isFalse => exact isUnsignalled
  have sameDestroyers := same TimelineFence.destroyers destroyers
  apply sound.follows
  exact {
    idr := rfl
    calls := rfl
    timelineCount := rfl
    fenceCount := rfl
    id := fun _ => rfl
    value := fun _ => BitVec.le_refl _
    lists := fun _ => List.Subset.refl _
    timeline := same TimelineFence.timeline timeline
    seqno := same TimelineFence.seqno seqno
    error := same TimelineFence.error error
    users := noFirst
    destroyers := fun other zero => (sameDestroyers other).trans zero
    unsignalled := before
    signalled := by
      intro other isSignalled
      rw [withFence_memory] at isSignalled
      split at isSignalled
      case isTrue isFence => exact isFence ▸ signalled isSignalled
      case isFalse => exact .inl isSignalled
    kept := by
      intro timeline other among referenced isUnsignalled
      have referenced : (system.memory other).refs ≠ 0 := by
        intro zero
        apply referenced
        rw [TimelineFence.refs, noFirst other (Nat.eq_zero_of_add_eq_zero_right zero),
          sameDestroyers other, Nat.eq_zero_of_add_eq_zero_left zero]
      exact ⟨among, sound.waiting timeline other among referenced (before other isUnsignalled)⟩ }

end

/-! ## The sections -/

omit [DecidableEq τ] in
theorem Sound.get (sound : system.Sound) (fence : Nat) : (system.get fence).Sound := by
  unfold TimelineSystem.get
  dsimp only
  split
  case isFalse => exact sound
  case isTrue used =>
    exact sound.withFence fence rfl rfl rfl (fun zero => absurd zero used) rfl id .inl

theorem Sound.put (sound : system.Sound) (i : τ) (fence : Nat) : (system.put i fence).Sound := by
  unfold TimelineSystem.put
  dsimp only
  split
  case isFalse => exact sound
  case isTrue used =>
    have changed : (system.withFence fence
        { system.memory fence with users := (system.memory fence).users - 1 }).Sound :=
      sound.withFence fence rfl rfl rfl (fun zero => absurd zero used.2) rfl id .inl
    split
    case isFalse => exact changed
    case isTrue last =>
      apply changed.goTo
      · show Plain (system.calls i)
        rw [used.1]
        trivial
      · refine ⟨sound.used fence used.2, ?_⟩
        rw [withFence_memory, if_pos rfl]
        exact last

section

omit [DecidableEq τ]

theorem Sound.poll (sound : system.Sound) (fence : Nat) : (system.poll fence).Sound := by
  unfold TimelineSystem.poll
  dsimp only
  split
  case isFalse => exact sound
  case isTrue used =>
    apply sound.withFence
    all_goals unfold isSignaledLocked
    · split_ifs <;> rfl
    · split_ifs <;> rfl
    · split_ifs <;> rfl
    · split_ifs <;> exact id
    · split_ifs <;> rfl
    · split_ifs with already reached
      · exact id
      · exact fun unsignalled => absurd unsignalled nofun
      · exact id
    · split_ifs with already reached
      · exact .inl
      · exact fun _ => .inr (timelineFenceSignaled_iff.mp reached)
      · exact .inl

theorem Sound.create (sound : system.Sound) (devPriv : Nat) (initial : U64) (id : Nat) :
    (system.create devPriv initial id).Sound := by
  unfold TimelineSystem.create
  split
  case isFalse => exact sound
  case isTrue free =>
    have old : ∀ timeline < system.timelineCount,
        update system.timelines system.timelineCount (.alloc id devPriv initial) timeline
          = system.timelines timeline :=
      fun timeline below => update_of_ne (Nat.ne_of_lt below) _ _
    have unlisted : ∀ timeline fence,
        fence ∈ (update system.timelines system.timelineCount
          (.alloc id devPriv initial) timeline).fences →
            timeline ≠ system.timelineCount ∧ fence ∈ (system.timelines timeline).fences := by
      intro timeline fence among
      by_cases isNew : timeline = system.timelineCount
      · rw [isNew, update_self] at among
        exact absurd among not_mem_nil
      · rw [update_of_ne isNew] at among
        exact ⟨isNew, among⟩
    constructor
    case table =>
      intro other timeline found
      dsimp only at found ⊢
      by_cases isNew : other = id
      · rw [isNew, update_self] at found
        cases found
        rw [update_self]
        exact ⟨Nat.lt_succ_self _, isNew.symm⟩
      · rw [update_of_ne isNew] at found
        have known := sound.table other timeline found
        rw [old timeline known.1]
        exact ⟨Nat.lt_succ_of_lt known.1, known.2⟩
    case calls =>
      exact fun i => (sound.calls i).keep (Nat.le_succ _) (Nat.le_refl _) fun _ _ zero => zero
    case allocated => exact fun fence below => Nat.lt_succ_of_lt (sound.allocated fence below)
    case used => exact sound.used
    case listed =>
      intro timeline fence among
      exact sound.listed timeline fence (unlisted timeline fence among).2
    case waiting =>
      intro timeline fence among referenced unsignalled
      have before := unlisted timeline fence among
      dsimp only
      rw [update_of_ne before.1]
      exact sound.waiting timeline fence before.2 referenced unsignalled
    case reached =>
      intro fence below signalled noError
      dsimp only at below ⊢
      rw [old _ (sound.allocated fence below)]
      exact sound.reached fence below signalled noError
    case pending =>
      intro fence below referenced unsignalled
      rcases sound.pending fence below referenced unsignalled with among | swept
      · left
        dsimp only at below ⊢
        rw [old _ (sound.allocated fence below)]
        exact among
      · exact .inr swept
    case gone =>
      intro timeline nonempty
      obtain ⟨fence, among⟩ := exists_mem_of_ne_nil _ nonempty
      have before := unlisted timeline fence among
      rcases sound.gone timeline (ne_nil_of_mem before.2) with registered | awaits
      · left
        unfold Registered at registered ⊢
        dsimp only
        rw [update_of_ne before.1, update_of_ne]
        · exact registered
        · intro isSame
          rw [isSame, free.2] at registered
          cases registered
      · exact .inr awaits

end

/-- An idle thread starts a call on a timeline that it has looked up. -/
theorem Sound.withTimeline (sound : system.Sound) (i : τ) (id : Nat) {call : Nat → TimelineCall}
    (callSound : ∀ timeline < system.timelineCount, system.CallSound (call timeline)) :
    (system.withTimeline i id call).Sound := by
  unfold TimelineSystem.withTimeline
  split
  case h_1 timeline isIdle found =>
    apply sound.goTo
    · rw [isIdle]
      trivial
    · exact callSound timeline (sound.table id timeline found).1
  case h_2 => exact sound

theorem Sound.destroy (sound : system.Sound) (i : τ) (devPriv id : Nat) :
    (system.destroy i devPriv id).Sound := by
  unfold TimelineSystem.destroy
  split
  case h_2 => exact sound
  case h_1 destroyed isIdle found =>
    split
    case isTrue => exact sound
    case isFalse =>
      have known := sound.table id destroyed found
      have going : (system.goTo i (.sweep destroyed)).Sound := by
        apply sound.goTo
        · rw [isIdle]
          trivial
        · exact known.1
      refine
        { going with
          table := fun other timeline found => going.table other timeline (of_update_none found).2
          gone := ?_ }
      · intro timeline nonempty
        by_cases isDestroyed : timeline = destroyed
        · right
          rw [isDestroyed]
          exact ⟨i, goTo_self i (.sweep destroyed)⟩
        · rcases going.gone timeline nonempty with registered | awaits
          · left
            show update system.idr _ none (system.timelines timeline).id = some timeline
            rw [update_of_ne]
            · exact registered
            · intro isSame
              have sameEntry : system.idr (system.timelines timeline).id = some timeline :=
                registered
              rw [isSame, known.2, found] at sameEntry
              exact isDestroyed (Option.some.inj sameEntry).symm
          · exact .inr awaits

section FenceAlloc

variable {timeline : Nat} {seqno : U64}

omit [DecidableEq τ]

theorem fenceAlloc_memory (fence : Nat) :
    (system.fenceAlloc timeline seqno).memory fence
      = if fence = system.fenceCount then
          { newFence timeline seqno with
            signalled := decide (seqno ≤ (system.timelines timeline).value) }
        else system.memory fence := by
  unfold TimelineSystem.fenceAlloc Timeline.fenceAlloc
  by_cases isNew : fence = system.fenceCount
  · subst isNew
    by_cases reached : seqno ≤ (system.timelines timeline).value
    · simp [store, isSignaledLocked, timelineFenceSignaled, newFence, reached, signalLocked]
    · simp [store, isSignaledLocked, timelineFenceSignaled, newFence, reached]
  · simp [store, isNew]

theorem fenceAlloc_memory_new :
    (system.fenceAlloc timeline seqno).memory system.fenceCount
      = { newFence timeline seqno with
          signalled := decide (seqno ≤ (system.timelines timeline).value) } := by
  rw [fenceAlloc_memory, if_pos rfl]

theorem fenceAlloc_memory_of_ne {fence : Nat} (isOther : fence ≠ system.fenceCount) :
    (system.fenceAlloc timeline seqno).memory fence = system.memory fence := by
  rw [fenceAlloc_memory, if_neg isOther]

theorem fenceAlloc_timelines (other : Nat) :
    (system.fenceAlloc timeline seqno).timelines other
      = if other = timeline ∧ ¬seqno ≤ (system.timelines timeline).value then
          (system.timelines timeline).addFence
            (update system.memory system.fenceCount (newFence timeline seqno))
            system.fenceCount
        else system.timelines other := by
  show (system.store timeline _).timelines other = _
  rw [store_timelines]
  by_cases isTimeline : other = timeline
  · by_cases reached : seqno ≤ (system.timelines timeline).value
    · simp [Timeline.fenceAlloc, isTimeline, reached, newFence, isSignaledLocked,
        timelineFenceSignaled]
    · simp [Timeline.fenceAlloc, reached, newFence, isSignaledLocked, timelineFenceSignaled]
  · simp [isTimeline]

theorem fenceAlloc_value (other : Nat) :
    ((system.fenceAlloc timeline seqno).timelines other).value
      = (system.timelines other).value := by
  rw [fenceAlloc_timelines]
  split
  case isTrue adds => rw [adds.1]; rfl
  case isFalse => rfl

theorem fenceAlloc_id (other : Nat) :
    ((system.fenceAlloc timeline seqno).timelines other).id = (system.timelines other).id := by
  rw [fenceAlloc_timelines]
  split
  case isTrue adds => rw [adds.1]; rfl
  case isFalse => rfl

theorem mem_fenceAlloc_fences {other fence : Nat} :
    fence ∈ ((system.fenceAlloc timeline seqno).timelines other).fences
      ↔ fence ∈ (system.timelines other).fences
        ∨ (other = timeline ∧ fence = system.fenceCount
          ∧ ¬seqno ≤ (system.timelines timeline).value) := by
  rw [fenceAlloc_timelines]
  split
  case isTrue adds =>
    rw [Timeline.addFence, mem_orderedInsert, adds.1]
    tauto
  case isFalse noAdd => tauto

end FenceAlloc

section

omit [DecidableEq τ]

/-- What a thread adds waits on a list that has not been swept yet, or does not wait. -/
theorem Sound.fenceAlloc (sound : system.Sound) (seqno : U64)
    (allocated : timeline < system.timelineCount)
    (beforeSweep : seqno ≤ (system.timelines timeline).value ∨ system.Registered timeline ∨ system.AwaitsSweep timeline)
    : (system.fenceAlloc timeline seqno).Sound := by
  have oldFence : ∀ fence < system.fenceCount,
      (system.fenceAlloc timeline seqno).memory fence = system.memory fence :=
    fun fence below => fenceAlloc_memory_of_ne (Nat.ne_of_lt below)
  have kept : ∀ other, (system.timelines other).fences ⊆
      ((system.fenceAlloc timeline seqno).timelines other).fences := by
    intro other fence among
    rw [mem_fenceAlloc_fences]
    exact .inl among
  constructor
  case table =>
    intro id other found
    rw [fenceAlloc_id]
    exact sound.table id other found
  case calls =>
    refine fun i => (sound.calls i).keep (Nat.le_refl _) (Nat.le_succ _) ?_
    intro fence below zero
    rw [oldFence fence below]
    exact zero
  case allocated =>
    intro fence below
    rcases Nat.lt_succ_iff_lt_or_eq.mp below with isOld | isNew
    · rw [oldFence fence isOld]
      exact sound.allocated fence isOld
    · rw [isNew, fenceAlloc_memory_new]
      exact allocated
  case used =>
    intro fence isUsed
    by_contra above
    have above := Nat.not_lt.mp above
    have isNotNew : fence ≠ system.fenceCount := Nat.ne_of_gt above
    rw [fenceAlloc_memory_of_ne isNotNew] at isUsed
    exact absurd (sound.used fence isUsed) (Nat.not_lt.mpr (Nat.le_of_succ_le above))
  case listed =>
    intro other fence among
    rw [mem_fenceAlloc_fences] at among
    rcases among with among | ⟨rfl, rfl, _⟩
    · have before := sound.listed other fence among
      rw [oldFence fence before.1]
      exact ⟨Nat.lt_succ_of_lt before.1, before.2⟩
    · rw [fenceAlloc_memory_new]
      exact ⟨Nat.lt_succ_self _, rfl⟩
  case waiting =>
    intro other fence among referenced unsignalled
    rw [fenceAlloc_value]
    rw [mem_fenceAlloc_fences] at among
    rcases among with among | ⟨rfl, rfl, waits⟩
    · have before := sound.listed other fence among
      rw [oldFence fence before.1] at referenced unsignalled ⊢
      exact sound.waiting other fence among referenced unsignalled
    · rw [fenceAlloc_memory_new]
      exact BitVec.not_le.mp waits
  case reached =>
    intro fence below signalled noError
    rw [fenceAlloc_value]
    rcases Nat.lt_succ_iff_lt_or_eq.mp below with isOld | isNew
    · rw [oldFence fence isOld] at signalled noError ⊢
      exact sound.reached fence isOld signalled noError
    · rw [isNew, fenceAlloc_memory_new] at signalled ⊢
      exact of_decide_eq_true signalled
  case pending =>
    intro fence below referenced unsignalled
    rcases Nat.lt_succ_iff_lt_or_eq.mp below with isOld | isNew
    · rw [oldFence fence isOld] at referenced unsignalled
      rcases sound.pending fence isOld referenced unsignalled with among | swept
      · left
        rw [oldFence fence isOld]
        exact kept _ among
      · exact .inr swept
    · left
      rw [isNew, fenceAlloc_memory_new] at unsignalled ⊢
      rw [mem_fenceAlloc_fences]
      exact .inr ⟨rfl, rfl, of_decide_eq_false unsignalled⟩
  case gone =>
    intro other nonempty
    have notSwept : system.Registered other ∨ system.AwaitsSweep other := by
      obtain ⟨fence, among⟩ := exists_mem_of_ne_nil _ nonempty
      rw [mem_fenceAlloc_fences] at among
      rcases among with among | ⟨rfl, _, waits⟩
      · exact sound.gone other (ne_nil_of_mem among)
      · rcases beforeSweep with reached | isOpen
        · exact absurd reached waits
        · exact isOpen
    rcases notSwept with registered | awaits
    · left
      unfold Registered at registered ⊢
      rw [fenceAlloc_id]
      exact registered
    · exact .inr awaits

theorem Sound.signal (sound : system.Sound) (timeline : Nat) (seqno : U64) :
    (system.store timeline ((system.timelines timeline).signal system.memory seqno)).Sound := by
  unfold Timeline.signal
  split
  case isTrue below => rw [store_self]; exact sound
  case isFalse notBelow =>
    have grows := BitVec.not_lt.mp notBelow
    have inTemp : ∀ fence ∈ (system.timelines timeline).expired system.memory seqno,
        fence ∈ (system.timelines timeline).fences ∧ (system.memory fence).seqno ≤ seqno :=
      fun fence among => ⟨(Timeline.mem_expired.mp among).1, (Timeline.mem_expired.mp among).2.1⟩
    have sameFence : ∀ {α : Type} (field : TimelineFence → α),
        (∀ fence, field fence.signalLocked = field fence) → ∀ fence,
          field (if fence ∈ (system.timelines timeline).expired system.memory seqno then
            (system.memory fence).signalLocked else system.memory fence)
              = field (system.memory fence) := by
      intro α field isSame fence
      split
      · exact isSame _
      · rfl
    apply sound.follows
    constructor
    case idr | calls | timelineCount | fenceCount => rfl
    case timeline => exact sameFence TimelineFence.timeline fun _ => rfl
    case seqno => exact sameFence TimelineFence.seqno fun _ => rfl
    case error => exact sameFence TimelineFence.error fun _ => rfl
    case users =>
      exact fun fence zero => (sameFence users (fun _ => rfl) fence).trans zero
    case destroyers =>
      exact fun fence zero => (sameFence TimelineFence.destroyers (fun _ => rfl) fence).trans zero
    case id =>
      intro other
      rw [store_timelines]
      split
      case isTrue isTimeline => rw [isTimeline]
      case isFalse => rfl
    case value =>
      intro other
      rw [store_timelines]
      split
      case isTrue isTimeline => rw [isTimeline]; exact grows
      case isFalse => exact BitVec.le_refl _
    case lists =>
      intro other
      rw [store_timelines]
      split
      case isTrue isTimeline => rw [isTimeline]; exact filter_subset_self _
      case isFalse => exact List.Subset.refl _
    case unsignalled =>
      intro fence unsignalled
      change (if _ then _ else _ : TimelineFence).signalled = false at unsignalled
      split at unsignalled
      · cases unsignalled
      · exact unsignalled
    case signalled =>
      intro fence signalled
      change (if _ then _ else _ : TimelineFence).signalled = true at signalled
      split at signalled
      case isTrue among =>
        right
        rw [store_timelines, if_pos (sound.listed timeline fence (inTemp fence among).1).2]
        exact (inTemp fence among).2
      case isFalse => exact .inl signalled
    case kept =>
      intro other fence among referenced unsignalled
      change (if _ then _ else _ : TimelineFence).refs ≠ 0 at referenced
      change (if _ then _ else _ : TimelineFence).signalled = false at unsignalled
      split at unsignalled
      · cases unsignalled
      case isFalse notInTemp =>
        rw [if_neg notInTemp] at referenced
        rw [store_timelines]
        split
        case isTrue isTimeline =>
          rw [isTimeline] at among
          refine ⟨mem_filter.mpr ⟨among, decide_eq_true notInTemp⟩, ?_⟩
          by_contra notAbove
          exact notInTemp (Timeline.mem_expired.mpr ⟨among, BitVec.not_lt.mp notAbove, referenced⟩)
        case isFalse => exact ⟨among, sound.waiting other fence among referenced unsignalled⟩

theorem Sound.release (sound : system.Sound) {fence : Nat}
    (unreferenced : (system.memory fence).refs = 0) :
    (system.store (system.memory fence).timeline
      ((system.timelines (system.memory fence).timeline).release fence, system.memory)).Sound := by
  apply sound.follows
  constructor
  case idr | calls | timelineCount | fenceCount => rfl
  case timeline | seqno | error => exact fun _ => rfl
  case users | destroyers => exact fun _ zero => zero
  case unsignalled => exact fun _ unsignalled => unsignalled
  case signalled => exact fun _ => .inl
  case id =>
    intro other
    rw [store_timelines]
    split
    case isTrue isTimeline => rw [isTimeline]; rfl
    case isFalse => rfl
  case value =>
    intro other
    rw [store_timelines]
    split
    case isTrue isTimeline => rw [isTimeline]; exact BitVec.le_refl _
    case isFalse => exact BitVec.le_refl _
  case lists =>
    intro other
    rw [store_timelines]
    split
    case isTrue isTimeline => rw [isTimeline]; exact erase_subset
    case isFalse => exact List.Subset.refl _
  case kept =>
    intro other waiter among referenced unsignalled
    have waits := sound.waiting other waiter among referenced unsignalled
    rw [store_timelines]
    split
    case isTrue isTimeline =>
      have isOther : waiter ≠ fence := fun same => referenced (same ▸ unreferenced)
      rw [isTimeline] at among waits
      exact ⟨(mem_erase_of_ne isOther).mpr among, waits⟩
    case isFalse => exact ⟨among, waits⟩

end

/-- A thread that takes fences off the list of a timeline, and leaves alone what it does not
signal with an error, may go on to its next call: somebody has to await what it takes. -/
theorem Sound.takes (sound : system.Sound) {i : τ} {result : Timeline × FenceMemory}
    (id : result.1.id = (system.timelines timeline).id)
    (value : result.1.value = (system.timelines timeline).value)
    (shrinks : result.1.fences ⊆ (system.timelines timeline).fences)
    (sameTimeline : ∀ fence, (result.2 fence).timeline = (system.memory fence).timeline)
    (users : ∀ fence, (result.2 fence).users = (system.memory fence).users)
    (noRefs : ∀ fence, (system.memory fence).refs = 0 → (result.2 fence).refs = 0)
    (unmarked : ∀ fence, (result.2 fence).signalled = false ∨ (result.2 fence).error = false →
      (result.2 fence).seqno = (system.memory fence).seqno ∧
        (result.2 fence).signalled = (system.memory fence).signalled ∧
        (result.2 fence).error = (system.memory fence).error) (callSound : system.CallSound call)
    (keeps : ∀ fence ∈ (system.timelines timeline).fences, (system.memory fence).refs ≠ 0 →
      (result.2 fence).signalled = false → fence ∈ result.1.fences
        ∨ ∃ temp, call = .signalSwept timeline temp ∧ fence ∈ temp)
    (signals : ∀ other temp, system.calls i = .signalSwept other temp → ∀ fence ∈ temp,
      (result.2 fence).signalled = true)
    (swept : system.calls i = .sweep timeline → result.1.fences = [])
    (noOther : ∀ other ≠ timeline, system.calls i ≠ .sweep other) :
    ((system.store timeline result).goTo i call).Sound := by
  set next := (system.store timeline result).goTo i call with isNext
  have timelines : ∀ other, next.timelines other
      = if other = timeline then result.1 else system.timelines other :=
    store_timelines timeline result
  have sameId : ∀ other, (next.timelines other).id = (system.timelines other).id := by
    intro other
    rw [timelines]
    split
    case isTrue isTimeline => rw [isTimeline, id]
    case isFalse => rfl
  have sameValue : ∀ other, (next.timelines other).value = (system.timelines other).value := by
    intro other
    rw [timelines]
    split
    case isTrue isTimeline => rw [isTimeline, value]
    case isFalse => rfl
  have shrinks : ∀ other, (next.timelines other).fences ⊆ (system.timelines other).fences := by
    intro other
    rw [timelines]
    split
    case isTrue isTimeline => rw [isTimeline]; exact shrinks
    case isFalse => exact List.Subset.refl _
  constructor
  case table =>
    intro id other found
    rw [sameId]
    exact sound.table id other found
  case calls =>
    intro j
    have keeps : ∀ {call}, system.CallSound call → next.CallSound call := fun callSound =>
      callSound.keep (Nat.le_refl _) (Nat.le_refl _) fun fence _ => noRefs fence
    by_cases isSelf : j = i
    · rw [isSelf, goTo_self]
      exact keeps callSound
    · rw [goTo_other isSelf]
      exact keeps (sound.calls j)
  case allocated =>
    intro fence below
    exact (sameTimeline fence).symm ▸ sound.allocated fence below
  case used =>
    intro fence isUsed
    exact sound.used fence (users fence ▸ isUsed)
  case listed =>
    intro other fence among
    exact (sameTimeline fence).symm ▸ sound.listed other fence (shrinks other among)
  case waiting =>
    intro other fence among referenced unsignalled
    have same := unmarked fence (.inl unsignalled)
    rw [sameValue, show (next.memory fence).seqno = _ from same.1]
    exact sound.waiting other fence (shrinks other among)
      (fun zero => referenced (noRefs fence zero)) (same.2.1.symm.trans unsignalled)
  case reached =>
    intro fence below signalled noError
    have same := unmarked fence (.inr noError)
    rw [sameValue, show (next.memory fence).timeline = _ from sameTimeline fence,
      show (next.memory fence).seqno = _ from same.1]
    exact sound.reached fence below (same.2.1.symm.trans signalled) (same.2.2.symm.trans noError)
  case pending =>
    intro fence below referenced unsignalled
    have referenced := fun zero => referenced (noRefs fence zero)
    have same : (next.memory fence).timeline = (system.memory fence).timeline := sameTimeline fence
    rcases sound.pending fence below referenced
      ((unmarked fence (.inl unsignalled)).2.1.symm.trans unsignalled) with
      among | ⟨j, other, temp, busy, among⟩
    · rw [Pending, same, timelines]
      split
      case isTrue isTimeline =>
        rw [isTimeline] at among
        rcases keeps fence among referenced unsignalled with stays | ⟨temp, isCall, inTemp⟩
        · exact .inl stays
        · exact .inr ⟨i, timeline, temp, (goTo_self i call).trans isCall, inTemp⟩
      case isFalse => exact .inl among
    · have isOther : j ≠ i := by
        rintro rfl
        rw [show (next.memory fence).signalled = true from signals other temp busy fence among]
          at unsignalled
        cases unsignalled
      exact .inr ⟨j, other, temp, (goTo_other isOther _).trans busy, among⟩
  case gone =>
    intro other nonempty
    rcases sound.gone other fun empty => nonempty (subset_nil.mp (empty ▸ shrinks other)) with
      registered | ⟨j, sweeps⟩
    · left
      rw [Registered, sameId]
      exact registered
    · right
      have isOther : j ≠ i := by
        rintro rfl
        by_cases isTimeline : other = timeline
        · rw [timelines, if_pos isTimeline] at nonempty
          exact nonempty (swept (isTimeline ▸ sweeps))
        · exact noOther other isTimeline sweeps
      exact ⟨j, (goTo_other isOther _).trans sweeps⟩

/-- What is swept is no longer listed and will be signalled. -/
theorem Sound.sweep (sound : system.Sound) {i : τ} (busy : system.calls i = .sweep timeline)
    (allocated : timeline < system.timelineCount) :
    ((system.store timeline ((system.timelines timeline).sweep system.memory)).goTo i
      (.signalSwept timeline ((system.timelines timeline).referenced system.memory))).Sound := by
  have sameFence : ∀ {α : Type} (field : TimelineFence → α),
      (∀ fence count, field { fence with destroyers := count } = field fence) → ∀ fence,
        field (((system.timelines timeline).sweep system.memory).2 fence)
          = field (system.memory fence) := by
    intro α field isSame fence
    dsimp only [Timeline.sweep]
    split
    · exact isSame _ _
    · rfl
  apply sound.takes rfl rfl (nil_subset _) (sameFence _ fun _ _ => rfl) (sameFence _ fun _ _ => rfl)
  case noRefs =>
    intro fence zero
    dsimp only [Timeline.sweep]
    rw [if_neg fun among => (Timeline.mem_referenced.mp among).2 zero]
    exact zero
  case unmarked =>
    exact fun fence _ => ⟨sameFence _ (fun _ _ => rfl) fence, sameFence _ (fun _ _ => rfl) fence,
      sameFence _ (fun _ _ => rfl) fence⟩
  case callSound => exact allocated
  case keeps =>
    exact fun fence among referenced _ =>
      .inr ⟨_, rfl, Timeline.mem_referenced.mpr ⟨among, referenced⟩⟩
  case signals =>
    intro other temp signals
    rw [busy] at signals
    cases signals
  case swept => exact fun _ => rfl
  case noOther =>
    rintro other isOther sweeps
    rw [busy] at sweeps
    exact isOther (TimelineCall.sweep.inj sweeps).symm

/-- Every fence that has been swept is signalled. -/
theorem Sound.signalSwept (sound : system.Sound) {i : τ} {temp : List Nat}
    (busy : system.calls i = .signalSwept timeline temp) :
    ((system.store timeline
      ((system.timelines timeline).signalSwept temp system.memory)).goTo i .idle).Sound := by
  have untouched : ∀ fence,
      (((system.timelines timeline).signalSwept temp system.memory).2 fence).signalled = false ∨
        (((system.timelines timeline).signalSwept temp system.memory).2 fence).error = false →
      fence ∉ temp ∧ ((system.timelines timeline).signalSwept temp system.memory).2 fence
        = system.memory fence := by
    intro fence unmarked
    dsimp only [Timeline.signalSwept] at unmarked ⊢
    split at unmarked
    case isTrue => simp [signalLocked, setError] at unmarked
    case isFalse notSwept => exact ⟨notSwept, if_neg notSwept⟩
  have sameTimeline : ∀ fence,
      (((system.timelines timeline).signalSwept temp system.memory).2 fence).timeline
        = (system.memory fence).timeline := by
    intro fence
    dsimp only [Timeline.signalSwept]
    split <;> rfl
  apply sound.takes rfl rfl (filter_subset_self _) sameTimeline
  case users =>
    intro fence
    dsimp only [Timeline.signalSwept]
    split <;> rfl
  case noRefs =>
    intro fence zero
    dsimp only [Timeline.signalSwept]
    split
    · exact Nat.le_zero.mp ((Nat.add_le_add_left (Nat.sub_le _ 1) _).trans (Nat.le_of_eq zero))
    · exact zero
  case unmarked =>
    intro fence unmarked
    rw [(untouched fence unmarked).2]
    exact ⟨rfl, rfl, rfl⟩
  case callSound => trivial
  case keeps =>
    exact fun fence among _ unsignalled => .inl (mem_filter.mpr
      ⟨among, decide_eq_true fun both => (untouched fence (.inl unsignalled)).1 both.1⟩)
  case signals =>
    intro other others signals fence among
    rw [busy] at signals
    cases signals
    by_contra unsignalled
    exact (untouched fence (.inl (Bool.eq_false_iff.mpr unsignalled))).1 among
  case swept =>
    intro sweeps
    rw [busy] at sweeps
    cases sweeps
  case noOther =>
    intro other _ sweeps
    rw [busy] at sweeps
    cases sweeps

theorem Sound.advance (sound : system.Sound) (i : τ)
    (beforeSweep : system.AddsBeforeSweep (.advance i)) : (system.advance i).Sound := by
  unfold TimelineSystem.advance
  have callSound := sound.calls i
  have plain : ∀ {next : TimelineSystem τ} {call : TimelineCall}, next.calls = system.calls →
      system.calls i = call → Plain call → Plain (next.calls i) := by
    intro next call same busy isPlain
    rw [same, busy]
    exact isPlain
  cases busy : system.calls i with
  | idle => exact sound
  | fenceAlloc timeline seqno =>
    rw [busy] at callSound
    have added := sound.fenceAlloc seqno callSound (beforeSweep timeline seqno busy)
    exact added.goTo (plain rfl busy trivial) trivial
  | signal timeline seqno =>
    exact (sound.signal timeline seqno).goTo (plain rfl busy trivial) trivial
  | sweep timeline =>
    rw [busy] at callSound
    exact sound.sweep busy callSound
  | signalSwept timeline temp => exact sound.signalSwept busy
  | release fence =>
    rw [busy] at callSound
    exact (sound.release callSound.2).goTo (plain rfl busy trivial) trivial

/-- Every step keeps the invariant. -/
theorem Sound.step (sound : system.Sound) {action : TimelineAction τ}
    (beforeSweep : system.AddsBeforeSweep action) : (system.step action).Sound := by
  cases action with
  | create devPriv initial id => exact sound.create devPriv initial id
  | fenceGet i id seqno => exact sound.withTimeline i id fun _ allocated => allocated
  | signal i id seqno => exact sound.withTimeline i id fun _ allocated => allocated
  | destroy i devPriv id => exact sound.destroy i devPriv id
  | advance i => exact sound.advance i beforeSweep
  | fail i =>
    unfold TimelineSystem.step
    dsimp only
    split
    case h_1 busy =>
      apply sound.goTo
      · rw [busy]
        trivial
      · trivial
    case h_2 => exact sound
  | get fence => exact sound.get fence
  | poll fence => exact sound.poll fence
  | put i fence => exact sound.put i fence

/-! ## Runs -/

omit [DecidableEq τ] in
theorem value_le_store {result : Timeline × FenceMemory}
    (grows : (system.timelines timeline).value ≤ result.1.value) (other : Nat) :
    (system.timelines other).value ≤ ((system.store timeline result).timelines other).value := by
  rw [store_timelines]
  split
  case isTrue isTimeline => rw [isTimeline]; exact grows
  case isFalse => exact BitVec.le_refl _

/-- The timelines stay, and their values do not go down. -/
def Grows (system next : TimelineSystem τ) : Prop :=
  ∀ timeline < system.timelineCount, timeline < next.timelineCount
    ∧ (system.timelines timeline).value ≤ (next.timelines timeline).value

omit [DecidableEq τ] in
theorem Grows.of_same (timelineCount : next.timelineCount = system.timelineCount)
    (timelines : next.timelines = system.timelines) : Grows system next := by
  intro timeline allocated
  rw [timelineCount, timelines]
  exact ⟨allocated, BitVec.le_refl _⟩

theorem grows_advance (i : τ) : Grows system (system.advance i) := by
  intro other allocated
  unfold TimelineSystem.advance
  cases system.calls i with
  | idle => exact ⟨allocated, BitVec.le_refl _⟩
  | fenceAlloc timeline seqno =>
    refine ⟨allocated, ?_⟩
    show _ ≤ ((system.fenceAlloc timeline seqno).timelines other).value
    rw [fenceAlloc_value]
    exact BitVec.le_refl _
  | signal timeline seqno =>
    exact ⟨allocated, value_le_store (Timeline.value_le_signal seqno) other⟩
  | sweep timeline | release fence => exact ⟨allocated, value_le_store (BitVec.le_refl _) other⟩
  | signalSwept timeline temp => exact ⟨allocated, value_le_store (BitVec.le_refl _) other⟩

/-- No step takes a value down. -/
theorem grows_step (action : TimelineAction τ) : Grows system (system.step action) := by
  cases action with
  | create devPriv initial id =>
    intro timeline allocated
    unfold TimelineSystem.step TimelineSystem.create
    dsimp only
    split
    · refine ⟨Nat.lt_succ_of_lt allocated, ?_⟩
      dsimp only
      rw [update_of_ne (Nat.ne_of_lt allocated)]
      exact BitVec.le_refl _
    · exact ⟨allocated, BitVec.le_refl _⟩
  | fenceGet i id seqno | signal i id seqno =>
    unfold TimelineSystem.step withTimeline
    dsimp only
    split <;> exact Grows.of_same rfl rfl
  | destroy i devPriv id =>
    unfold TimelineSystem.step TimelineSystem.destroy
    dsimp only
    split
    · split <;> exact Grows.of_same rfl rfl
    · exact Grows.of_same rfl rfl
  | advance i => exact grows_advance i
  | fail i =>
    unfold TimelineSystem.step
    dsimp only
    split <;> exact Grows.of_same rfl rfl
  | get fence =>
    unfold TimelineSystem.step TimelineSystem.get
    dsimp only
    split <;> exact Grows.of_same rfl rfl
  | poll fence =>
    unfold TimelineSystem.step TimelineSystem.poll
    dsimp only
    split <;> exact Grows.of_same rfl rfl
  | put i fence =>
    unfold TimelineSystem.step TimelineSystem.put
    dsimp only
    split
    · split <;> exact Grows.of_same rfl rfl
    · exact Grows.of_same rfl rfl

theorem grows_of_reaches {guard : TimelineSystem τ → TimelineAction τ → Prop}
    {final : TimelineSystem τ} (run : Reaches (guarded guard step) system final) :
    Grows system final := by
  apply run.invariant
  · exact fun _ allocated => ⟨allocated, BitVec.le_refl _⟩
  · rintro middle action next grows ⟨_, rfl⟩ timeline allocated
    have before := grows timeline allocated
    have after := grows_step action timeline before.1
    exact ⟨after.1, BitVec.le_trans before.2 after.2⟩

/-- Between any two states of a run in which fences that wait are added before the sweep, the
values grow; a fence is signalled without an error only if it has been reached; and when no
thread is in a call, whatever is gone or reached has been signalled. -/
theorem waitersSignalled_of_addsBeforeSweep {first final : TimelineSystem τ}
    (begins : Reaches (guarded AddsBeforeSweep step) new first)
    (goesOn : Reaches (guarded AddsBeforeSweep step) first final) :
    Grows first final ∧ final.SignalsReached
      ∧ ((∀ i, final.calls i = .idle) → final.WaitersSignalled) := by
  have sound : final.Sound := by
    apply (begins.trans goesOn).invariant sound_new
    rintro system action next sound ⟨beforeSweep, rfl⟩
    exact sound.step beforeSweep
  exact ⟨grows_of_reaches goesOn, sound.reached, sound.waitersSignalled⟩

/-- A fence is put on a timeline between the removal of its identifier and its sweep; a
second timeline is signalled. -/
def sampleActions : List (TimelineAction (Fin 2)) :=
  [.create 7 5 1, .create 7 0 2, .fenceGet 0 1 9, .destroy 1 7 1, .advance 0, .fenceGet 0 2 3,
    .advance 1, .advance 0, .signal 0 2 4, .advance 1, .advance 0, .put 1 0, .advance 1]

theorem waitersSignalled_sampleActions :
    (sampleActions.foldl step new).WaitersSignalled
      ∧ ((sampleActions.foldl step new).memory 1).signalled = true := by
  have allowed : Allowed AddsBeforeSweep step new sampleActions := by
    refine ⟨trivial, trivial, trivial, trivial, ?_, trivial, ?_, ?_, trivial, ?_, ?_, trivial, ?_,
      trivial⟩
    · rintro timeline seqno ⟨⟩
      exact .inr (.inr ⟨1, by decide +kernel⟩)
    · exact fun timeline seqno busy => absurd busy nofun
    · rintro timeline seqno ⟨⟩
      exact .inr (.inl (by unfold Registered; decide +kernel))
    · exact fun timeline seqno busy => absurd busy nofun
    · exact fun timeline seqno busy => absurd busy nofun
    · exact fun timeline seqno busy => absurd busy nofun
  have all := waitersSignalled_of_addsBeforeSweep (Reaches.refl _ new) (Reaches.foldl allowed)
  exact ⟨all.2.2 (by decide +kernel), by decide +kernel⟩

/-- The same timeline is gone and swept when the fence is put on it: nobody signals it. -/
def lateActions : List (TimelineAction (Fin 2)) :=
  [.create 7 5 1, .fenceGet 0 1 9, .destroy 1 7 1, .advance 1, .advance 1, .advance 0]

theorem not_waitersSignalled :
    ¬∀ final : TimelineSystem (Fin 2), Reaches (guarded (fun _ _ => True) step) new final →
      (∀ i, final.calls i = .idle) → final.WaitersSignalled := by
  intro signalled
  have wrong := signalled (lateActions.foldl step new)
    (Reaches.foldl (Allowed.always step new lateActions)) (by decide +kernel) 0
    (by decide +kernel) (by decide +kernel) (.inl (by unfold Registered; decide +kernel))
  revert wrong
  decide +kernel

end TimelineSystem

end Sm8650.Kgsl
