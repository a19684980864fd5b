import Sm8650.Wlan.Serving

/-!
# Promotions that end

A promotion in the pending list of the pdev goes on until it finds nothing or a blocking
command has become active; one in the pending list of a vdev moves one command at most.
What holds between two promotions and at the end of the last one are parameters here.
-/

namespace Sm8650.Wlan

open Transition PdevQueue

/-- `loops` holds from one promotion to the next, and `ends` after the last one. -/
structure Promotes (config : SerConfig) (loops ends : Ledger → Prop) : Prop where
  moved : ∀ {queue : PdevQueue} {node vdev : Nat}, queue.books.Exact config none none →
    loops queue.ledger → (queue.search none).2 = some node → node ∈ queue.ledger.pending →
    (queue.cmd node).vdev = some vdev → loops ((queue.ledger.unqueue node).enter node vdev)
  stuck : ∀ {queue : PdevQueue}, queue.books.Exact config none none → loops queue.ledger →
    (queue.search none).2 = none → ends queue.ledger
  blocked : ∀ {ledger : Ledger}, loops ledger → ledger.blocking = true → ends ledger

section

variable (loops ends : Ledger → Prop)

/-- What the next section of a promotion relies on. -/
def LookupReady (queue : PdevQueue) : Option Nat → Prop
  | none => loops queue.ledger
  | some vdev => ∀ result, Moved queue (some vdev) result → ends result.1.ledger

/-- What the promotions that a thread goes on with rely on. -/
def Heads (ledger : Ledger) : List (Option Nat) → Prop
  | [] => ends ledger
  | [some _] => ends ledger
  | [none] => loops ledger
  | _ => False

/-- What a thread relies on that only promotes commands. -/
def Frame.Promoting (queue : PdevQueue) (promotions : List (Option Nat)) : Frame → Prop
  | .idle => promotions = [] ∧ ends queue.ledger
  | .activate _ => Heads loops ends queue.ledger promotions
  | .activated _ failed => failed = false ∧ Heads loops ends queue.ledger promotions
  | .move vdev blockingCmdRemoved => promotions = []
      ∧ LookupReady loops ends queue (queue.vdevQueueLookup vdev blockingCmdRemoved)
  | .moveResume lookup => promotions = [] ∧ Heads loops ends queue.ledger [lookup]
  | .cancelEnd isActiveQueue => promotions = []
      ∧ if isActiveQueue && queue.activeList.nodes.isEmpty && !queue.anyVdevCmdActive
        then loops queue.ledger else ends queue.ledger
  | _ => False

/-- A thread only promotes commands. -/
structure Thread.Promoting (config : SerConfig) (queue : PdevQueue) (thread : Thread) :
    Prop where
  booked : thread.Booked config queue
  goesOn : thread.top.Promoting loops ends queue thread.promotions

end

namespace Thread

variable {config : SerConfig} {queue : PdevQueue} {loops ends : Ledger → Prop}

theorem goesOn_returned {promotions : List (Option Nat)}
    (heads : Heads loops ends queue.ledger promotions) :
    (Thread.returned promotions).top.Promoting loops ends queue
      (Thread.returned promotions).promotions := by
  match promotions, heads with
  | [], isEnd => exact ⟨rfl, isEnd⟩
  | [some _], isEnd => exact ⟨rfl, isEnd⟩
  | [none], isLoop => exact ⟨rfl, isLoop⟩

/-- A section of a promotion. -/
theorem goesOn_promoteStep (promotes : Promotes config loops ends)
    (exact : queue.books.Exact config none none) {lookup : Option Nat}
    (looks : queue.Looks lookup) (ready : LookupReady loops ends queue lookup) :
    (promoteStep queue lookup []).2.top.Promoting loops ends (promoteStep queue lookup []).1
      (promoteStep queue lookup []).2.promotions := by
  have moves := (moveSection_moved exact looks).1
  unfold promoteStep
  generalize queue.moveSection lookup = result at moves
  cases moves with
  | nothing next isNone books =>
    have same : next.ledger = queue.ledger := congrArg Books.ledger books
    refine ⟨rfl, ?_⟩
    cases lookup with
    | none =>
      rw [same]
      exact promotes.stuck exact ready isNone
    | some vdev => exact ready _ (.nothing next isNone books)
  | moved next node vdev found member ofVdev free books =>
    cases lookup with
    | none =>
      have isNext : next.ledger = (queue.ledger.unqueue node).enter node vdev :=
        congrArg Books.ledger books
      change loops next.ledger
      rw [isNext]
      exact promotes.moved exact ready found member ofVdev
    | some vdev => exact ready _ (.moved next node _ found member ofVdev free books)

/-- A thread that only promotes commands goes on to do so. -/
theorem Promoting.step (promotes : Promotes config loops ends) {thread : Thread}
    (promoting : thread.Promoting loops ends config queue) (stray : PdevQueue → PdevQueue) :
    (thread.step stray queue true).2.Promoting loops ends config
      (thread.step stray queue true).1 := by
  refine ⟨promoting.booked.step stray true, ?_⟩
  obtain ⟨top, promotions⟩ := thread
  obtain ⟨booked, goesOn⟩ := promoting
  have exact := booked.exact
  have ready := booked.ready
  unfold Thread.step
  cases top with
  | idle => exact goesOn
  | activate node =>
    have same := activateSection_ledger queue node
    refine ⟨rfl, ?_⟩
    rw [same]
    exact goesOn
  | activated node failed =>
    obtain ⟨rfl, heads⟩ := goesOn
    have calm := exact.calm node
    change ((queue.commands node).cmdInUse.activeMarkedForRemoval
      || (queue.commands node).cmdInUse.activeMarkedForCancel) = false at calm
    rw [Bool.or_eq_false_iff] at calm
    dsimp only
    rw [calm.1, calm.2]
    exact goesOn_returned heads
  | move vdev blockingCmdRemoved =>
    obtain ⟨rfl, lookupReady⟩ := goesOn
    refine goesOn_promoteStep promotes exact ⟨ready, fun looksForVdev => ?_⟩ lookupReady
    unfold vdevQueueLookup at looksForVdev
    split at looksForVdev
    next noneWaits => exact noneWaits.2
    next => cases looksForVdev
  | moveResume lookup =>
    obtain ⟨rfl, heads⟩ := goesOn
    dsimp only
    cases lookup with
    | some vdev => exact ⟨rfl, heads⟩
    | none =>
      split
      next isBlocking => exact ⟨rfl, promotes.blocked heads isBlocking⟩
      next notBlocking =>
        rw [Bool.not_eq_true] at notBlocking
        exact goesOn_promoteStep promotes exact
          ⟨notBlocking, fun looksForVdev => nomatch looksForVdev⟩ heads
  | cancelEnd isActiveQueue =>
    obtain ⟨rfl, ended⟩ := goesOn
    dsimp only
    split
    next noneActive =>
      rw [if_pos noneActive] at ended
      have lookup : queue.vdevQueueLookup none false = none := ite_self none
      refine ⟨rfl, ?_⟩
      rw [lookup]
      exact ended
    next someActive =>
      rw [if_neg someActive] at ended
      exact ⟨rfl, ended⟩
  | enqueue cmd | dequeue ref active | cancel request | cancelMarked node => cases goesOn
  | cancelled request cmd pnode qsize => cases goesOn

end Thread

/-- What holds after the first section of a call and is kept by the sections behind it holds
when the call has ended. -/
theorem Completes.invariant {stray : PdevQueue → PdevQueue} {queue next : PdevQueue}
    {call : Call} (completes : Completes stray (· = true) queue call next)
    {holds : PdevQueue × Thread → Prop}
    (first : holds (Thread.step stray queue true ⟨call.frame, []⟩))
    (preserved : ∀ state, holds state → holds (state.2.step stray state.1 true)) :
    holds (next, ⟨.idle, []⟩) := by
  have reached : (next, (⟨.idle, []⟩ : Thread)) = (queue, ⟨call.frame, []⟩)
      ∨ holds (next, ⟨.idle, []⟩) := by
    refine @Reaches.invariant _ _ _ _ _ (fun state => state = (queue, ⟨call.frame, []⟩) ∨ holds state)
      completes (.inl rfl) ?_
    rintro state succeeds after (rfl | holdsBefore) ⟨isTrue, rfl⟩
    · exact .inr (isTrue ▸ first)
    · exact .inr (isTrue ▸ preserved state holdsBefore)
  rcases reached with isStart | ended
  · cases call <;> cases isStart
  · exact ended

end Sm8650.Wlan
