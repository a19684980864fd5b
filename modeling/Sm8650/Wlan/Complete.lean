import Sm8650.Wlan.BookedMoves
import Sm8650.Wlan.Blocking

/-!
# Complete operations

One thread at a time uses the module, and every operation runs to its end before the next
one begins. The books then agree after every operation, as long as every blocking request
is counted exactly if it waits.
-/

namespace Sm8650.Wlan

open Transition PdevQueue List Function

/-! ## Operations -/

/-- The thread of a call takes its next step; the outcome says whether an activation succeeds
and whether the timer of a canceled command is found. -/
def threadStep (stray : PdevQueue → PdevQueue) (outcomes : Bool → Prop) :
    LabelledStep (PdevQueue × Thread) Bool :=
  guarded (fun _ => outcomes) fun state succeeds => state.2.step stray state.1 succeeds

/-- A call runs to its end, with outcomes of this kind. -/
def Completes (stray : PdevQueue → PdevQueue) (outcomes : Bool → Prop) (queue : PdevQueue)
    (call : Call) (next : PdevQueue) : Prop :=
  Reaches (threadStep stray outcomes) (queue, ⟨call.frame, []⟩) (next, ⟨.idle, []⟩)

/-- An operation on non-scan commands. A cancelation can be asked for the active queue, for
the pending queue or for both. -/
inductive SerOperation where
  | request (cmd : Command)
  | remove (cmd : Command)
  | timeout (cmd : Command)
  | cancel (asked : CancelRequest) (activeQueue pendingQueue : Bool)
deriving DecidableEq, Repr

/-- The calls an operation is made of. A timeout removes the command if it is still active,
which is what a removal does; `wlan_serialization_cmd_cancel_handler` turns to the active
queue first. -/
def SerOperation.calls : SerOperation → List Call
  | .request cmd => [.request cmd]
  | .remove cmd => [.remove cmd true]
  | .timeout cmd => [.remove cmd true]
  | .cancel asked activeQueue pendingQueue =>
    (if activeQueue then [.cancel { asked with isActiveQueue := true }] else [])
      ++ if pendingQueue then [.cancel { asked with isActiveQueue := false }] else []

/-- Calls run to their ends one after the other. -/
inductive Performs (stray : PdevQueue → PdevQueue) (outcomes : Bool → Prop) :
    PdevQueue → List Call → PdevQueue → Prop
  | done (queue : PdevQueue) : Performs stray outcomes queue [] queue
  | call {queue middle next : PdevQueue} {call : Call} {calls : List Call}
      (first : Completes stray outcomes queue call middle)
      (rest : Performs stray outcomes middle calls next) :
      Performs stray outcomes queue (call :: calls) next

variable {stray : PdevQueue → PdevQueue} {outcomes : Bool → Prop} {queue next : PdevQueue}

theorem Performs.append {first second : List Call}
    (performs : Performs stray outcomes queue (first ++ second) next) :
    ∃ middle, Performs stray outcomes queue first middle
      ∧ Performs stray outcomes middle second next := by
  induction first generalizing queue with
  | nil => exact ⟨queue, .done queue, performs⟩
  | cons call calls ih =>
    cases performs with
    | call head rest =>
      obtain ⟨middle, toMiddle, toNext⟩ := ih rest
      exact ⟨middle, .call head toMiddle, toNext⟩

/-- A request names a vdev of the pdev, and is counted exactly if it waits. -/
def CountsOperation (config : SerConfig) (queue : PdevQueue) : SerOperation → Prop
  | .request cmd => cmd.cmdType < serCmdNonscan
      ∨ ((∀ vdev ∈ cmd.vdev, vdev < config.maxVdevs) ∧ queue.CountsRequest cmd)
  | _ => True

instance (config : SerConfig) (queue : PdevQueue) (operation : SerOperation) :
    Decidable (CountsOperation config queue operation) :=
  match operation with
  | .request cmd => inferInstanceAs (Decidable (cmd.cmdType < serCmdNonscan
      ∨ ((∀ vdev ∈ cmd.vdev, vdev < config.maxVdevs) ∧ queue.CountsRequest cmd)))
  | .remove _ => .isTrue trivial
  | .timeout _ => .isTrue trivial
  | .cancel _ _ _ => .isTrue trivial

/-- Complete operations that `allowed` permits. -/
def operations (stray : PdevQueue → PdevQueue) (outcomes : Bool → Prop)
    (allowed : PdevQueue → SerOperation → Prop) : LabelledStep PdevQueue SerOperation :=
  fun queue operation next =>
    allowed queue operation ∧ Performs stray outcomes queue operation.calls next

/-- Activations succeed or fail, timers are found or not. -/
abbrev anyOutcome : Bool → Prop := fun _ => True

/-! ## The invariant of a thread -/

/-- The record that a thread has still to take back. -/
def Frame.leaving : Frame → Leaving
  | .cancelled request cmd _ _ => some (cmd, request.isActiveQueue)
  | _ => none

/-- What the next section of a thread relies on. -/
def Frame.Ready (config : SerConfig) (queue : PdevQueue) : Frame → Prop
  | .enqueue cmd => CountsOperation config queue (.request cmd)
  | .dequeue _ active => active = true
  | .move _ _ => queue.blockingCmdActive = false
  | .cancelled request _ pnode _ => queue.Behind request pnode
  | _ => True

/-- The books agree up to what the thread has to take back, and only the command that it is
about to activate is marked so. -/
structure Thread.Booked (config : SerConfig) (queue : PdevQueue) (thread : Thread) : Prop where
  exact : queue.books.Exact config none thread.top.leaving
  ready : thread.top.Ready config queue
  marks : ∀ node, queue.books.marked node = true → thread.top = .activate node

namespace Thread

variable {config : SerConfig} {queue : PdevQueue}

/-- Between two activations nothing is marked. -/
theorem Booked.unmarked {thread : Thread} (booked : Booked config queue thread)
    (other : ∀ node, thread.top ≠ .activate node) (node : Nat) :
    queue.books.marked node = false := by
  rw [← Bool.not_eq_true]
  exact fun isMarked => other node (booked.marks node isMarked)

theorem marks_of_unmarked {top : Frame} (unmarked : ∀ node, queue.books.marked node = false)
    (node : Nat) (isMarked : queue.books.marked node = true) : top = .activate node :=
  absurd ((unmarked node).symm.trans isMarked) Bool.false_ne_true

/-- A single command that was marked is to be activated. -/
theorem activate_of_mark {marked : Nat → Bool} {node other : Nat}
    (unmarked : ∀ node, marked node = false) (isMarked : update marked node true other = true) :
    Frame.activate node = .activate other := by
  rw [update_apply] at isMarked
  split at isMarked
  next same => rw [same]
  next => exact absurd ((unmarked other).symm.trans isMarked) Bool.false_ne_true

theorem booked_returned (exact : queue.books.Exact config none none)
    (unmarked : ∀ node, queue.books.marked node = false) (promotions : List (Option Nat)) :
    Booked config queue (.returned promotions) := by
  cases promotions <;> exact ⟨exact, trivial, marks_of_unmarked unmarked⟩

variable {request : CancelRequest}

theorem booked_afterCancel {stop : CancelStop}
    (exact : queue.books.Exact config none (stop.leaving request.isActiveQueue))
    (resumes : Resumes request (queue, stop)) (unmarked : ∀ node, queue.books.marked node = false)
    (promotions : List (Option Nat)) :
    Booked config queue ⟨.afterCancel request stop, promotions⟩ := by
  cases stop with
  | finished => exact ⟨exact, trivial, marks_of_unmarked unmarked⟩
  | removed cmd pnode qsize => exact ⟨exact, resumes cmd pnode qsize rfl, marks_of_unmarked unmarked⟩

theorem booked_promoteStep (exact : queue.books.Exact config none none)
    (unmarked : ∀ node, queue.books.marked node = false) {lookup : Option Nat} (looks : queue.Looks lookup) (promotions : List (Option Nat)) :
    Booked config (promoteStep queue lookup promotions).1
      (promoteStep queue lookup promotions).2 := by
  obtain ⟨moves, moved⟩ := moveSection_moved exact looks
  unfold promoteStep
  generalize queue.moveSection lookup = result at moves moved
  cases moves with
  | nothing next isNone books =>
    refine booked_returned moved (fun node => ?_) promotions
    rw [books]
    exact unmarked node
  | moved next node vdev found member ofVdev free books =>
    refine ⟨moved, trivial, fun other isMarked => ?_⟩
    rw [books] at isMarked
    exact activate_of_mark unmarked isMarked

theorem booked_cancelStep (exact : queue.books.Exact config none none)
    (unmarked : ∀ node, queue.books.marked node = false) (request : CancelRequest)
    (timerFound : Bool) (promotions : List (Option Nat)) :
    Booked config (cancelStep queue request timerFound promotions).1
      (cancelStep queue request timerFound promotions).2 := by
  unfold cancelStep
  split
  · exact booked_returned exact unmarked promotions
  · obtain ⟨canceled, resumes, unmarkedAfter⟩ := cancelLoop_exact exact unmarked request timerFound
      (queue.pdevList request.isActiveQueue).nodes.length none
      (fun _ isNode => nomatch isNode : queue.Behind request none)
    exact booked_afterCancel canceled resumes unmarkedAfter promotions

/-- Where a blocking command was active there was nothing else to remove. -/
theorem blocking_dequeued {books : Books} {node vdev : Nat}
    (exact : books.Exact config none none) (member : node ∈ books.ledger.active) :
    (dequeued books node vdev).ledger.blocking = false := by
  change (if (books.ledger.cmd node).isBlocking then false else books.ledger.blocking) = false
  cases isBlocking : (books.ledger.cmd node).isBlocking with
  | true => rfl
  | false =>
    rw [if_neg Bool.false_ne_true, ← Bool.not_eq_true, exact.blocking]
    rintro (⟨other, memberOther, blocks⟩ | ⟨_, nothing, -⟩)
    · have heldOther : (books.ledger.room (Leaving.key none)).held (.inl other) = _ :=
        Ledger.room_held memberOther
      have held : (books.ledger.room (Leaving.key none)).held (.inl node) = _ :=
        Ledger.room_held member
      rw [Ledger.entry, blocks] at heldOther
      obtain rfl := Sum.inl.inj (exact.valid.only heldOther held)
      exact Bool.false_ne_true (isBlocking.symm.trans blocks)
    · cases nothing

/-- A command to go on behind is still in the list. -/
theorem not_strays {pnode : Option Nat} (behind : queue.Behind request pnode) (qsize : Nat) :
    queue.cancelStrays request pnode qsize = false := by
  unfold cancelStrays
  cases pnode with
  | none => simp
  | some node =>
    have member := (behind node rfl).1
    rw [← pdevList_nodes] at member
    simp [member]

theorem behind_cancelFinish {pnode : Option Nat} (behind : queue.Behind request pnode)
    (cmd : Command) : (queue.cancelFinish request cmd).Behind request pnode := by
  intro node isNode
  have before := behind node isNode
  unfold cancelFinish
  cases isActive : request.isActiveQueue with
  | false =>
    rw [isActive] at before
    exact before
  | true =>
    rw [isActive] at before
    exact before

/-- Every step of the thread keeps the books. -/
theorem Booked.step {thread : Thread} (booked : Booked config queue thread)
    (stray : PdevQueue → PdevQueue) (succeeds : Bool) :
    Booked config (thread.step stray queue succeeds).1 (thread.step stray queue succeeds).2 := by
  have noMarks := booked.unmarked
  obtain ⟨top, promotions⟩ := thread
  obtain ⟨exact, ready, marks⟩ := booked
  unfold Thread.step
  cases top with
  | idle => exact ⟨exact, trivial, marks⟩
  | enqueue cmd =>
    have unmarked := noMarks fun _ => nofun
    dsimp only
    split
    next => exact booked_returned exact unmarked promotions
    next isNonscan =>
      obtain ⟨known, counts⟩ := Or.resolve_left ready isNonscan
      obtain ⟨requested, exactNext⟩ := enqueueSection_requested exact known counts
      generalize queue.enqueueSection cmd = result at requested exactNext
      cases requested with
      | rejected next same =>
        refine booked_returned exactNext (fun node => ?_) promotions
        rw [← Bool.not_eq_true]
        intro isMarked
        exact Bool.false_ne_true ((unmarked node).symm.trans (same.marked node isMarked))
      | activated next node vdev pool ofVdev isPool books =>
        refine ⟨exactNext, trivial, fun other isMarked => ?_⟩
        rw [books] at isMarked
        exact activate_of_mark unmarked isMarked
      | waits next node vdev pool ofVdev isPool reason books =>
        refine booked_returned exactNext (fun other => ?_) promotions
        change next.books.marked other = false
        rw [books]
        exact unmarked other
  | activate node =>
    have books : (queue.activateSection node).books = queue.books.mark node false := by
      apply books_mark
      · exact fun _ => rfl
      · exact fun _ => rfl
    refine ⟨?_, trivial, fun other isMarked => ?_⟩
    · rw [books]
      exact Books.Exact.mark exact fun isTrue => absurd isTrue Bool.false_ne_true
    · rw [books] at isMarked
      change update queue.books.marked node false other = true at isMarked
      rw [update_apply] at isMarked
      split at isMarked
      next => cases isMarked
      next differs =>
        have isOther := marks other isMarked
        exact absurd (Frame.activate.inj isOther).symm differs
  | activated node failed =>
    have unmarked := noMarks fun _ => nofun
    dsimp only
    split
    next => exact ⟨exact, rfl, marks_of_unmarked unmarked⟩
    next =>
      split
      next => exact ⟨exact, trivial, marks_of_unmarked unmarked⟩
      next => exact booked_returned exact unmarked promotions
  | dequeue ref active =>
    have unmarked := noMarks fun _ => nofun
    have isActive : active = true := ready
    subst isActive
    dsimp only
    split
    next => exact booked_returned exact unmarked promotions
    next =>
      rcases dequeueSection_cases exact unmarked (ref.read queue) with
        ⟨next, node, vdev, isNext, ofVdev, found, books, -⟩ | isNext
      · have member := mem_of_find found
        have nodeVdev := (vdev_of_find found).trans ofVdev
        rw [isNext]
        dsimp only
        rw [if_pos rfl]
        refine ⟨?_, ?_, fun other isMarked => ?_⟩
        · change next.books.Exact config none none
          rw [books]
          exact dequeued_exact exact member nodeVdev (unmarked node)
        · change next.books.ledger.blocking = false
          rw [books]
          exact blocking_dequeued exact member
        · rw [books] at isMarked
          change update queue.books.marked node false other = true at isMarked
          rw [update_apply] at isMarked
          split at isMarked
          next => cases isMarked
          next => exact absurd ((unmarked other).symm.trans isMarked) Bool.false_ne_true
      · rw [isNext]
        exact booked_returned exact unmarked promotions
  | move vdev blockingCmdRemoved =>
    have unmarked := noMarks fun _ => nofun
    refine booked_promoteStep exact unmarked ⟨ready, fun looksForVdev => ?_⟩ promotions
    unfold vdevQueueLookup at looksForVdev
    split at looksForVdev
    next noneWaits => exact noneWaits.2
    next => cases looksForVdev
  | moveResume lookup =>
    have unmarked := noMarks fun _ => nofun
    dsimp only
    split
    next => exact booked_returned exact unmarked promotions
    next goesOn =>
      rw [Bool.or_eq_true, not_or, Bool.not_eq_true, Bool.not_eq_true] at goesOn
      refine booked_promoteStep exact unmarked ⟨goesOn.2, fun looksForVdev => ?_⟩ promotions
      cases looksForVdev
  | cancel request =>
    exact booked_cancelStep exact (noMarks fun _ => nofun) request succeeds promotions
  | cancelMarked node =>
    exact booked_cancelStep exact (noMarks fun _ => nofun) _ succeeds promotions
  | cancelled request cmd pnode qsize =>
    have unmarked := noMarks fun _ => nofun
    dsimp only
    rw [not_strays ready, if_neg Bool.false_ne_true]
    have finished : (queue.cancelFinish request cmd).books.Exact config none none :=
      cancelFinish_exact exact
    have behind := behind_cancelFinish ready cmd
    have unmarkedFinish : ∀ node, (queue.cancelFinish request cmd).books.marked node = false := by
      intro node
      unfold cancelFinish
      split <;> exact unmarked node
    unfold cancelResume
    dsimp only
    split
    next => exact ⟨finished, trivial, marks_of_unmarked unmarkedFinish⟩
    next =>
      obtain ⟨canceled, resumes, unmarkedAfter⟩ :=
        cancelLoop_exact finished unmarkedFinish request succeeds qsize pnode behind
      exact booked_afterCancel canceled resumes unmarkedAfter promotions
  | cancelEnd isActiveQueue =>
    have unmarked := noMarks fun _ => nofun
    dsimp only
    split
    next noneActive =>
      refine ⟨exact, ?_, marks_of_unmarked unmarked⟩
      rw [Bool.and_eq_true, Bool.and_eq_true] at noneActive
      have isEmpty : queue.books.ledger.active = [] := by
        change queue.activeList.nodes = []
        simpa using noneActive.1.2
      change queue.books.ledger.blocking = false
      rw [← Bool.not_eq_true, exact.blocking, isEmpty]
      rintro (⟨other, member, -⟩ | ⟨_, nothing, -⟩)
      · exact absurd member not_mem_nil
      · cases nothing
    next => exact booked_returned exact unmarked promotions

end Thread

/-- The books agree in a state of a thread. -/
def Thread.Keeps (config : SerConfig) (state : PdevQueue × Thread) : Prop :=
  Thread.Booked config state.1 state.2

/-- Between two operations the books agree and no command is about to be activated. -/
structure Rested (config : SerConfig) (queue : PdevQueue) : Prop where
  exact : queue.books.Exact config none none
  unmarked : ∀ node, queue.books.marked node = false

variable {config : SerConfig} {call : Call} {queue : PdevQueue}

theorem Rested.keeps (rested : Rested config queue)
    (ready : call.frame.Ready config queue) : Thread.Keeps config (queue, ⟨call.frame, []⟩) := by
  refine ⟨?_, ready, Thread.marks_of_unmarked rested.unmarked⟩
  cases call <;> exact rested.exact

/-- A call that runs to its end keeps the books. -/
theorem Rested.completes (rested : Rested config queue) (ready : call.frame.Ready config queue)
    (completes : Completes stray outcomes queue call next) : Rested config next := by
  have booked : Thread.Keeps config (next, ⟨.idle, []⟩) := by
    apply completes.invariant (rested.keeps ready)
    rintro state succeeds after holds ⟨-, rfl⟩
    exact Thread.Booked.step holds stray succeeds
  exact ⟨booked.exact, booked.unmarked fun _ => nofun⟩

/-- Only a request relies on anything. -/
theorem ready_of_call {operation : SerOperation} (member : call ∈ operation.calls)
    (other : ∀ cmd, operation ≠ .request cmd) (queue : PdevQueue) :
    call.frame.Ready config queue := by
  cases operation with
  | request cmd => exact absurd rfl (other cmd)
  | remove cmd =>
    rw [mem_singleton.mp member]
    rfl
  | timeout cmd =>
    rw [mem_singleton.mp member]
    rfl
  | cancel asked activeQueue pendingQueue =>
    rcases mem_append.mp member with isActive | isPending
    · split at isActive
      · rw [mem_singleton.mp isActive]
        trivial
      · cases isActive
    · split at isPending
      · rw [mem_singleton.mp isPending]
        trivial
      · cases isPending

/-- Calls that run to their ends keep the books. -/
theorem Rested.calls {calls : List Call} (rested : Rested config queue)
    (ready : ∀ call ∈ calls, ∀ queue : PdevQueue, call.frame.Ready config queue)
    (performs : Performs stray outcomes queue calls next) : Rested config next := by
  induction performs with
  | done => exact rested
  | call first rest ih =>
    have restedMiddle := rested.completes (ready _ mem_cons_self _) first
    exact ih restedMiddle
      fun call member => ready call (mem_cons_of_mem _ member)

/-- A complete operation keeps the books. -/
theorem Rested.performs {operation : SerOperation} (rested : Rested config queue)
    (counts : CountsOperation config queue operation)
    (performs : Performs stray outcomes queue operation.calls next) : Rested config next := by
  cases operation with
  | request cmd =>
    cases performs with
    | call first rest =>
      cases rest
      have ready : (Call.request cmd).frame.Ready config queue := counts
      exact rested.completes ready first
  | remove cmd =>
    refine rested.calls (fun _ member queue => ready_of_call member ?_ queue) performs
    exact fun _ => SerOperation.noConfusion
  | timeout cmd =>
    refine rested.calls (fun _ member queue => ready_of_call member ?_ queue) performs
    exact fun _ => SerOperation.noConfusion
  | cancel asked activeQueue pendingQueue =>
    refine rested.calls (fun _ member queue => ready_of_call member ?_ queue) performs
    exact fun _ => SerOperation.noConfusion

theorem SerConfig.rested_create (config : SerConfig) : Rested config config.create :=
  ⟨config.exact_create, fun _ => rfl⟩

/-! ## The queues -/

/-- The queues of a pdev agree with each other. -/
structure Consistent (config : SerConfig) (queue : PdevQueue) : Prop where
  oneList : ∀ node < config.total, queue.activeList.nodes.count node
    + queue.pendingList.nodes.count node + queue.cmdPoolList.count node = 1
  vdevActive : ∀ vdev, (queue.vdevActiveList vdev).nodes
    = queue.activeList.nodes.filter fun node => decide ((queue.cmd node).vdev = some vdev)
  vdevPending : ∀ vdev, (queue.vdevPendingList vdev).nodes
    = queue.pendingList.nodes.filter fun node => decide ((queue.cmd node).vdev = some vdev)
  bit : ∀ vdev, vdev ∈ queue.vdevActiveCmdBitmap ↔
    ∃ node ∈ queue.activeList.nodes, (queue.cmd node).vdev = some vdev
  blockingActive : queue.blockingCmdActive = true ↔
    ∃ node ∈ queue.activeList.nodes, (queue.cmd node).isBlocking = true
  blockingWaiting : queue.blockingCmdWaiting.toNat
    = queue.pendingList.nodes.countP fun node => (queue.cmd node).isBlocking

theorem consistent_of_exact (exact : queue.books.Exact config none none)
    : Consistent config queue where
  oneList := fun node inside => (exact.uses node).trans (if_pos ⟨inside, nofun⟩)
  vdevActive := fun vdev => exact.vdevLists vdev true
  vdevPending := fun vdev => exact.vdevLists vdev false
  bit := fun vdev => (exact.bit vdev).trans (by simp [books, ledger])
  blockingActive := exact.blocking.trans (by simp [books, ledger])
  blockingWaiting := exact.waiting

/-- While every blocking request is counted exactly if it waits, the queues agree after
every complete operation. -/
theorem consistent_of_countedRequests {config : SerConfig} (stray : PdevQueue → PdevQueue)
    (run : Reaches (operations stray anyOutcome (CountsOperation config)) config.create queue) :
    Consistent config queue := by
  have rested : Rested config queue := by
    apply run.invariant config.rested_create
    rintro source operation next rested ⟨counts, performs⟩
    exact rested.performs counts performs
  exact consistent_of_exact rested.exact

/-- Four vdevs. -/
def sampleConfig : SerConfig where
  maxVdevs := 4
  maxActive := 4
  maxPending := 8
  vdevMaxActive := 1
  vdevMaxPending := fun _ => 2
  vdevs_fit := by decide
  active_fits := by decide
  pending_fits := by decide

/-- The steps of a call, as long as the outcomes last. -/
def runThread (stray : PdevQueue → PdevQueue) (succeeds : List Bool) (queue : PdevQueue)
    (call : Call) : PdevQueue × Thread :=
  succeeds.foldl (fun state succeeds => state.2.step stray state.1 succeeds)
    (queue, ⟨call.frame, []⟩)

theorem completes_of_runThread (succeeds : List Bool)
    (allowed : ∀ outcome ∈ succeeds, outcomes outcome)
    (isIdle : (runThread stray succeeds queue call).2 = ⟨.idle, []⟩) :
    Completes stray outcomes queue call (runThread stray succeeds queue call).1 := by
  have permitted : ∀ state : PdevQueue × Thread, Allowed (fun _ => outcomes)
      (fun state succeeds => state.2.step stray state.1 succeeds) state succeeds := by
    clear isIdle
    induction succeeds with
    | nil => exact fun _ => trivial
    | cons outcome succeeds ih =>
      exact fun state => ⟨allowed outcome mem_cons_self,
        ih (fun other member => allowed other (mem_cons_of_mem _ member)) _⟩
  have reached : Reaches (threadStep stray outcomes) (queue, ⟨call.frame, []⟩)
      (runThread stray succeeds queue call) :=
    Reaches.foldl (permitted _)
  rw [← Prod.eta (runThread stray succeeds queue call), isIdle] at reached
  exact reached

/-- The queue after a call, with steps enough for what the calls below do. -/
def afterCall (queue : PdevQueue) (call : Call) : PdevQueue :=
  (runThread id (List.replicate 8 true) queue call).1

theorem performs_afterCall (succeeds : outcomes true)
    (isIdle : (runThread id (replicate 8 true) queue call).2 = ⟨.idle, []⟩) :
    Performs id outcomes queue [call] (afterCall queue call) :=
  .call (completes_of_runThread _ (fun _ member => (eq_of_mem_replicate member) ▸ succeeds)
    isIdle) (.done _)

/-- A command of the first vdev is active. -/
def activeQueue : PdevQueue :=
  afterCall sampleConfig.create (.request (sampleCommand 1 1 false))

/-- A blocking command of the first vdev waits. -/
def waitingQueue : PdevQueue :=
  afterCall activeQueue (.request (sampleCommand 2 1 true))

/-- The blocking command was requested once more. -/
def repeatedQueue : PdevQueue :=
  afterCall waitingQueue (.request (sampleCommand 2 1 true))

theorem consistent_waitingQueue : Consistent sampleConfig waitingQueue := by
  apply consistent_of_countedRequests id
  have first : operations id anyOutcome (CountsOperation sampleConfig) sampleConfig.create
      (.request (sampleCommand 1 1 false)) activeQueue :=
    ⟨by decide +kernel, performs_afterCall trivial (by decide +kernel)⟩
  have second : operations id anyOutcome (CountsOperation sampleConfig) activeQueue
      (.request (sampleCommand 2 1 true)) waitingQueue :=
    ⟨by decide +kernel, performs_afterCall trivial (by decide +kernel)⟩
  exact ((Reaches.refl _ _).tail first).tail second

/-- A blocking request that is turned away as a duplicate stays counted. -/
theorem not_consistent_of_duplicate :
    ¬∀ queue, Reaches (operations id anyOutcome fun _ _ => True) sampleConfig.create queue →
      Consistent sampleConfig queue := by
  intro claim
  have first : operations id anyOutcome (fun _ _ => True) sampleConfig.create
      (.request (sampleCommand 1 1 false)) activeQueue :=
    ⟨trivial, performs_afterCall trivial (by decide +kernel)⟩
  have second : operations id anyOutcome (fun _ _ => True) activeQueue
      (.request (sampleCommand 2 1 true)) waitingQueue :=
    ⟨trivial, performs_afterCall trivial (by decide +kernel)⟩
  have third : operations id anyOutcome (fun _ _ => True) waitingQueue
      (.request (sampleCommand 2 1 true)) repeatedQueue :=
    ⟨trivial, performs_afterCall trivial (by decide +kernel)⟩
  have consistent := claim repeatedQueue ((((Reaches.refl _ _).tail first).tail second).tail third)
  exact absurd consistent.blockingWaiting (by decide +kernel)

end Sm8650.Wlan
