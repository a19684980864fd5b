import Sm8650.Transition.Reach
import Sm8650.Wlan.SerSections

/-!
# Exclusion of non-scan commands

Threads request, remove and cancel commands of one pdev; a timeout is a removal. Each
section under `pdev_queue_lock` is a step, and so is each test of an activation or a
cancelation that is made without the lock. An activation may fail, and a callback that
calls back into the module is another thread.
-/

namespace Sm8650.Wlan

open Transition PdevQueue Function

/-! ## Exclusion -/

/-- At most one command of each vdev is active, and a blocking command only alone. -/
structure Exclusive (queue : PdevQueue) : Prop where
  oneForEachVdev : (queue.activeList.nodes.map fun node => (queue.cmd node).vdev).Nodup
  blockingAlone : ∀ node ∈ queue.activeList.nodes, (queue.cmd node).isBlocking = true →
    queue.activeList.nodes = [node]

/-- A sound ledger has at most one active command for each vdev, and a blocking one only
alone. -/
theorem exclusive_of_sound {τ : Type} {leaving : τ → Option (Option Nat × Bool)}
    {queue : PdevQueue} (sound : queue.ledger.Sound leaving) : Exclusive queue := by
  have held : ∀ node ∈ queue.activeList.nodes, (queue.ledger.room leaving).held (.inl node)
      = some ((queue.cmd node).vdev, (queue.cmd node).isBlocking) :=
    fun node member => Ledger.room_held member
  have nodup : queue.activeList.nodes.Nodup := sound.nodup_active
  constructor
  · apply nodup.map_on
    intro first memberFirst second memberSecond sameVdev
    have heldSecond := held second memberSecond
    rw [← sameVdev] at heldSecond
    exact Sum.inl.inj (sound.valid.distinct (held first memberFirst) heldSecond)
  · intro node member isBlocking
    have heldNode := held node member
    rw [isBlocking] at heldNode
    have onlyNode : ∀ other ∈ queue.activeList.nodes, other = node :=
      fun other isActive => Sum.inl.inj (sound.valid.only heldNode (held other isActive))
    have replicated := List.eq_replicate_of_mem onlyNode
    rw [replicated, List.nodup_replicate] at nodup
    have present := List.length_pos_of_mem member
    rw [replicated, Nat.le_antisymm nodup present, List.replicate_one]

/-! ## Threads -/

/-- A command that is passed by value, or by a pointer into the pool. -/
inductive CmdRef
  | value (cmd : Command)
  | entry (node : Nat)
  deriving DecidableEq, Repr

/-- The command that is passed. -/
def CmdRef.read (queue : PdevQueue) : CmdRef → Command
  | .value cmd => cmd
  | .entry node => queue.cmd node

/-- The next section of a thread. -/
inductive Frame
  | idle
  | enqueue (cmd : Command)
  | activate (node : Nat)
  | activated (node : Nat) (failed : Bool)
  | dequeue (cmd : CmdRef) (active : Bool)
  | move (vdev : Option Nat) (blockingCmdRemoved : Bool)
  | moveResume (lookup : Option Nat)
  | cancel (request : CancelRequest)
  | cancelMarked (node : Nat)
  | cancelled (request : CancelRequest) (cmd : Command) (pnode : Option Nat) (qsize : Nat)
  | cancelEnd (isActiveQueue : Bool)
  deriving DecidableEq, Repr

/-- The next section, and the promotions that go on when it has returned; each is named by
where it looks for commands. -/
structure Thread where
  top : Frame
  promotions : List (Option Nat)
  deriving DecidableEq, Repr

/-- A function returns. -/
def Thread.returned : List (Option Nat) → Thread
  | [] => ⟨.idle, []⟩
  | lookup :: promotions => ⟨.moveResume lookup, promotions⟩

/-- The cancelation of a command that was marked for it before it was active. -/
def CancelRequest.ofMarked (cmd : Command) : CancelRequest where
  pdev := false
  vdev := none
  cmd := some cmd
  cmdType := cmd.cmdType
  isActiveQueue := true
  nonblock := false

/-- The thread after the loop of a cancelation has stopped. -/
def Frame.afterCancel (request : CancelRequest) : CancelStop → Frame
  | .finished => .cancelEnd request.isActiveQueue
  | .removed cmd pnode qsize => .cancelled request cmd pnode qsize

/-- The section of a promotion in a thread. -/
def promoteStep (queue : PdevQueue) (lookup : Option Nat) (promotions : List (Option Nat)) :
    PdevQueue × Thread :=
  match queue.moveSection lookup with
  | (queue, some node) => (queue, ⟨.activate node, lookup :: promotions⟩)
  | (queue, none) => (queue, .returned promotions)

/-- The first section of a cancelation in a thread. -/
def cancelStep (queue : PdevQueue) (request : CancelRequest) (timerFound : Bool)
    (promotions : List (Option Nat)) : PdevQueue × Thread :=
  if request.cmdType < serCmdNonscan then (queue, .returned promotions)
  else
    let result := queue.cancelSection request timerFound
    (result.1, ⟨.afterCancel request result.2, promotions⟩)

/-- The next section of a thread. `succeeds` says whether an activation succeeds and whether
the timer of a canceled command is found. A cancelation that goes on behind a node that is
not in its list any more may do anything, which is `stray`. -/
def Thread.step (stray : PdevQueue → PdevQueue) (queue : PdevQueue) (succeeds : Bool)
    (thread : Thread) : PdevQueue × Thread :=
  match thread.top with
  | .idle => (queue, thread)
  | .enqueue cmd =>
    if cmd.cmdType < serCmdNonscan then (queue, .returned thread.promotions)
    else
      match queue.enqueueSection cmd with
      | (queue, some node) => (queue, ⟨.activate node, thread.promotions⟩)
      | (queue, none) => (queue, .returned thread.promotions)
  | .activate node =>
    (queue.activateSection node, ⟨.activated node !succeeds, thread.promotions⟩)
  | .activated node failed =>
    let bits := (queue.commands node).cmdInUse
    if failed || bits.activeMarkedForRemoval then
      (queue, ⟨.dequeue (.entry node) true, thread.promotions⟩)
    else if bits.activeMarkedForCancel then
      (queue, ⟨.cancelMarked node, thread.promotions⟩)
    else (queue, .returned thread.promotions)
  | .dequeue ref active =>
    if (ref.read queue).cmdType < serCmdNonscan then (queue, .returned thread.promotions)
    else
      match queue.dequeueSection (ref.read queue) active with
      | (queue, some cmd) =>
        if active then (queue, ⟨.move cmd.vdev cmd.isBlocking, thread.promotions⟩)
        else (queue, .returned thread.promotions)
      | (queue, none) => (queue, .returned thread.promotions)
  | .move vdev blockingCmdRemoved =>
    promoteStep queue (queue.vdevQueueLookup vdev blockingCmdRemoved) thread.promotions
  | .moveResume lookup =>
    if lookup.isSome || queue.blockingCmdActive then (queue, .returned thread.promotions)
    else promoteStep queue none thread.promotions
  | .cancel request => cancelStep queue request succeeds thread.promotions
  | .cancelMarked node =>
    cancelStep queue (.ofMarked (queue.cmd node)) succeeds thread.promotions
  | .cancelled request cmd pnode qsize =>
    if queue.cancelStrays request pnode qsize then
      (stray queue, ⟨.cancelEnd request.isActiveQueue, thread.promotions⟩)
    else
      let result := queue.cancelResume request succeeds cmd pnode qsize
      (result.1, ⟨.afterCancel request result.2, thread.promotions⟩)
  | .cancelEnd isActiveQueue =>
    if isActiveQueue && queue.activeList.nodes.isEmpty && !queue.anyVdevCmdActive then
      (queue, ⟨.move none false, thread.promotions⟩)
    else (queue, .returned thread.promotions)

/-! ## The system -/

/-- A call of the module. -/
inductive Call
  | request (cmd : Command)
  | remove (cmd : Command) (active : Bool)
  | cancel (request : CancelRequest)
  deriving DecidableEq, Repr

/-- The first section of a call. -/
def Call.frame : Call → Frame
  | .request cmd => .enqueue cmd
  | .remove cmd active => .dequeue (.value cmd) active
  | .cancel asked => .cancel asked

/-- The queues of a pdev and the threads that use them. -/
structure SerSystem (τ : Type) where
  queue : PdevQueue
  threads : τ → Thread

/-- A step of the system. -/
inductive SerEvent (τ : Type)
  | call (i : τ) (call : Call)
  | step (i : τ) (succeeds : Bool)
  deriving DecidableEq, Repr

variable {τ : Type} [DecidableEq τ]

/-- A step of the system; a thread that is busy takes no call. -/
def SerSystem.step (stray : PdevQueue → PdevQueue) (state : SerSystem τ) : SerEvent τ → SerSystem τ
  | .call i call =>
    if (state.threads i).top = .idle then
      { state with threads := update state.threads i ⟨call.frame, []⟩ }
    else state
  | .step i succeeds =>
    let result := (state.threads i).step stray state.queue succeeds
    ⟨result.1, update state.threads i result.2⟩

/-- A new pdev, which no thread uses. -/
def SerSystem.start (maxActive maxPending vdevMaxActive : Nat) (vdevMaxPending : Nat → Nat) :
    SerSystem τ where
  queue := .create maxActive maxPending vdevMaxActive vdevMaxPending
  threads := fun _ => ⟨.idle, []⟩

/-- Where a thread is about to look for a command to promote. -/
def Thread.promotes (queue : PdevQueue) (thread : Thread) : Option (Option Nat) :=
  match thread.top with
  | .move vdev blockingCmdRemoved => some (queue.vdevQueueLookup vdev blockingCmdRemoved)
  | .moveResume lookup =>
    if lookup.isSome || queue.blockingCmdActive then none else some none
  | _ => none

/-- The cancelation of a thread goes on behind a node that has left its list. -/
def Thread.strays (queue : PdevQueue) (thread : Thread) : Bool :=
  match thread.top with
  | .cancelled request _ pnode qsize => queue.cancelStrays request pnode qsize
  | _ => false

/-- Steps that promote only what a request would be allowed, and that follow no node out of
its list. -/
def Orderly (state : SerSystem τ) : SerEvent τ → Prop
  | .call _ _ => True
  | .step i _ =>
    (∀ lookup ∈ (state.threads i).promotes state.queue, state.queue.PromotionAllowed lookup)
      ∧ (state.threads i).strays state.queue = false

instance (state : SerSystem τ) (event : SerEvent τ) : Decidable (Orderly state event) :=
  match event with
  | .call _ _ => .isTrue trivial
  | .step i _ => inferInstanceAs (Decidable
      ((∀ lookup ∈ (state.threads i).promotes state.queue, state.queue.PromotionAllowed lookup)
        ∧ (state.threads i).strays state.queue = false))

/-! ## The invariant -/

/-- What a thread still has to take back. -/
def Frame.owed : Frame → Option (Option Nat × Bool)
  | .cancelled request cmd _ _ =>
    if request.isActiveQueue then some (Ledger.entry cmd) else none
  | _ => none

theorem Frame.owed_afterCancel (request : CancelRequest) (stop : CancelStop) :
    (Frame.afterCancel request stop).owed = stop.owed request.isActiveQueue := by
  cases stop <;> rfl

@[simp]
theorem Thread.owed_returned (promotions : List (Option Nat)) :
    (Thread.returned promotions).top.owed = none := by
  cases promotions <;> rfl

variable {leaving : τ → Option (Option Nat × Bool)} {queue : PdevQueue} {i : τ}

/-- A section keeps the ledger sound, with what its thread has to take back afterwards. -/
abbrev KeepsSound (leaving : τ → Option (Option Nat × Bool)) (i : τ)
    (result : PdevQueue × Thread) : Prop :=
  result.1.ledger.Sound (update leaving i result.2.top.owed)

/-- Nothing is owed before or after. -/
theorem keepsSound_of_none {result : PdevQueue × Thread} (nothing : leaving i = none)
    (sound : result.1.ledger.Sound leaving) (nothingAfter : result.2.top.owed = none) :
    KeepsSound leaving i result := by
  unfold KeepsSound
  rw [nothingAfter, ← nothing, update_eq_self]
  exact sound

theorem promoteStep_sound (sound : queue.ledger.Sound leaving) (nothing : leaving i = none)
    {lookup : Option Nat} (allowed : queue.PromotionAllowed lookup)
    (promotions : List (Option Nat)) :
    KeepsSound leaving i (promoteStep queue lookup promotions) := by
  have moved := moveSection_sound sound allowed
  unfold promoteStep
  split
  next next node isNext =>
    rw [isNext] at moved
    exact keepsSound_of_none nothing moved rfl
  next next isNext =>
    rw [isNext] at moved
    exact keepsSound_of_none nothing moved (Thread.owed_returned promotions)

theorem cancelStep_sound (sound : queue.ledger.Sound leaving) (nothing : leaving i = none)
    (request : CancelRequest) (timerFound : Bool) (promotions : List (Option Nat)) :
    KeepsSound leaving i (cancelStep queue request timerFound promotions) := by
  unfold cancelStep
  split
  next => exact keepsSound_of_none nothing sound (Thread.owed_returned promotions)
  next =>
    unfold KeepsSound
    rw [Frame.owed_afterCancel]
    exact cancelLoop_sound request timerFound _ none none sound nothing

/-- Every orderly step of a thread keeps the ledger sound. -/
theorem Thread.step_sound (stray : PdevQueue → PdevQueue) (succeeds : Bool) {thread : Thread}
    (sound : queue.ledger.Sound leaving) (owes : leaving i = thread.top.owed)
    (allowed : ∀ lookup ∈ thread.promotes queue, queue.PromotionAllowed lookup)
    (follows : thread.strays queue = false) :
    KeepsSound leaving i (thread.step stray queue succeeds) := by
  obtain ⟨top, promotions⟩ := thread
  have returns : leaving i = none → KeepsSound leaving i (queue, .returned promotions) :=
    fun nothing => keepsSound_of_none nothing sound (owed_returned promotions)
  unfold step
  cases top with
  | idle => exact keepsSound_of_none owes sound rfl
  | enqueue cmd =>
    dsimp only
    have enqueued := @enqueueSection_sound _ leaving queue cmd _ sound
    split
    next => exact returns owes
    next =>
      split
      next next node isNext =>
        rw [isNext] at enqueued
        exact keepsSound_of_none owes enqueued rfl
      next next isNext =>
        rw [isNext] at enqueued
        exact keepsSound_of_none owes enqueued (owed_returned promotions)
  | activate node =>
    apply keepsSound_of_none owes _ rfl
    rw [activateSection_ledger]
    exact sound
  | activated node failed =>
    dsimp only
    split
    next => exact keepsSound_of_none owes sound rfl
    next =>
      split
      next => exact keepsSound_of_none owes sound rfl
      next => exact returns owes
  | dequeue ref active =>
    dsimp only
    have dequeued := @dequeueSection_sound _ leaving queue (ref.read queue) _ sound active
    split
    next => exact returns owes
    next =>
      split
      next next cmd isNext =>
        rw [isNext] at dequeued
        split
        next => exact keepsSound_of_none owes dequeued rfl
        next => exact keepsSound_of_none owes dequeued (owed_returned promotions)
      next next isNext =>
        rw [isNext] at dequeued
        exact keepsSound_of_none owes dequeued (owed_returned promotions)
  | move vdev blockingCmdRemoved =>
    exact promoteStep_sound sound owes (allowed _ rfl) promotions
  | moveResume lookup =>
    dsimp only
    split
    next => exact returns owes
    next goesOn =>
      apply promoteStep_sound sound owes _ promotions
      apply allowed
      exact if_neg goesOn
  | cancel request => exact cancelStep_sound sound owes request succeeds promotions
  | cancelMarked node => exact cancelStep_sound sound owes _ succeeds promotions
  | cancelled request cmd pnode qsize =>
    have stays : queue.cancelStrays request pnode qsize = false := follows
    dsimp only
    rw [stays, if_neg Bool.false_ne_true]
    unfold KeepsSound
    rw [Frame.owed_afterCancel]
    exact cancelResume_sound sound owes
  | cancelEnd isActiveQueue =>
    dsimp only
    split
    next => exact keepsSound_of_none owes sound rfl
    next => exact returns owes

/-- What the threads have still to take back. -/
def SerSystem.owed (state : SerSystem τ) (i : τ) : Option (Option Nat × Bool) :=
  (state.threads i).top.owed

/-- The ledger of the queue is sound, with what the threads have to take back. -/
def SerSystem.Sound (state : SerSystem τ) : Prop :=
  state.queue.ledger.Sound state.owed

theorem SerSystem.owed_update (queue : PdevQueue) (threads : τ → Thread) (i : τ) (thread : Thread) :
    (SerSystem.mk queue (update threads i thread)).owed
      = update (SerSystem.mk queue threads).owed i thread.top.owed := by
  funext other
  simp only [SerSystem.owed, update_apply]
  by_cases same : other = i
  · rw [if_pos same, if_pos same]
  · rw [if_neg same, if_neg same]

theorem SerSystem.Sound.step {state : SerSystem τ} (sound : state.Sound)
    (stray : PdevQueue → PdevQueue) {event : SerEvent τ} (orderly : Orderly state event) :
    (state.step stray event).Sound := by
  cases event with
  | call i call =>
    unfold SerSystem.step
    dsimp only
    split
    next idle =>
      have nothing : state.owed i = none := by
        unfold SerSystem.owed
        rw [idle]
        rfl
      have owesNothing : call.frame.owed = none := by
        cases call <;> rfl
      unfold SerSystem.Sound
      rw [owed_update, owesNothing, ← nothing, update_eq_self]
      exact sound
    next => exact sound
  | step i succeeds =>
    unfold SerSystem.Sound SerSystem.step
    rw [owed_update]
    exact Thread.step_sound stray succeeds sound rfl orderly.1 orderly.2

/-- While every step is orderly, at most one non-scan command of each vdev is active, and a
blocking command is active only alone. -/
theorem exclusive_of_orderly (stray : PdevQueue → PdevQueue)
    {maxActive maxPending vdevMaxActive : Nat} {vdevMaxPending : Nat → Nat} {state : SerSystem τ}
    (reaches : Reaches (guarded Orderly (SerSystem.step stray))
      (SerSystem.start maxActive maxPending vdevMaxActive vdevMaxPending) state) :
    Exclusive state.queue := by
  have sound : state.Sound := by
    apply reaches.invariant
    · exact create_sound
    · rintro source event next holds ⟨orderly, rfl⟩
      exact holds.step stray orderly
  exact exclusive_of_sound sound

/-- A non-scan command of a vdev. -/
def sampleCommand (cmdId vdev : Nat) (isBlocking : Bool) : Command where
  cmdType := serCmdNonscan
  cmdId := cmdId
  vdev := some vdev
  cmdCb := true
  isHighPriority := false
  isBlocking := isBlocking
  queueDisable := false

/-- Two threads and a new pdev. -/
def samplePdev : SerSystem (Fin 2) :=
  .start 4 8 1 fun _ => 4

/-- A thread requests two commands of a vdev, of which the second one has to wait, and the
section that removes the first one is over. -/
def removalEvents : List (SerEvent (Fin 2)) :=
  [.call 0 (.request (sampleCommand 1 1 false)), .step 0 true, .step 0 true, .step 0 true,
    .call 0 (.request (sampleCommand 2 1 false)), .step 0 true,
    .call 0 (.remove (sampleCommand 1 1 false) true), .step 0 true]

/-- The waiting command is promoted, and a blocking command of another vdev is requested. -/
def promotedFirst : List (SerEvent (Fin 2)) :=
  removalEvents ++ [.step 0 true, .call 1 (.request (sampleCommand 3 2 true)), .step 1 true]

/-- The blocking command is requested between the removal and the promotion. -/
def requestedFirst : List (SerEvent (Fin 2)) :=
  removalEvents ++ [.call 1 (.request (sampleCommand 3 2 true)), .step 1 true, .step 0 true]

theorem exclusive_sample :
    Exclusive (promotedFirst.foldl (SerSystem.step id) samplePdev).queue := by
  refine exclusive_of_orderly id (Reaches.foldl ?_)
  refine ⟨?_, ?_, ?_, ?_, ?_, ?_, ?_, ?_, ?_, ?_, ?_, trivial⟩
  all_goals decide +kernel

theorem not_exclusive_of_early_request :
    ¬ ∀ state, Reaches (guarded (fun _ _ => True) (SerSystem.step id)) samplePdev state →
      Exclusive state.queue := by
  intro claim
  have exclusive := claim (requestedFirst.foldl (SerSystem.step id) samplePdev)
    (Reaches.foldl ⟨trivial, trivial, trivial, trivial, trivial, trivial, trivial, trivial,
      trivial, trivial, trivial, trivial⟩)
  -- Node 2 holds the blocking command, node 1 the promoted one.
  have alone := exclusive.blockingAlone 2 (by decide +kernel) (by decide +kernel)
  exact absurd alone (by decide +kernel)

end Sm8650.Wlan
