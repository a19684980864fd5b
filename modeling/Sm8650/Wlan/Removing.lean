import Mathlib.Data.List.TakeWhile
import Sm8650.Wlan.Promoting

/-!
# Requests and removals leave nothing behind

After a request every pending command has something to wait for. A removal that looks at
the whole pending list serves every command; one that looks at the list of its vdev serves
the first command there, unless a mark of an earlier search is left on it.
-/

namespace Sm8650.Wlan

open Transition PdevQueue List Thread

/-- Every pending command has something to wait for. -/
abbrev Ledger.ServesAll (ledger : Ledger) : Prop :=
  ledger.Serves everyCmd

namespace PdevQueue

variable {queue : PdevQueue} {config : SerConfig} {cmd : Command} {node vdev : Nat}

theorem mem_unblocked_or {ledger : Ledger} {nodes : List Nat} (member : node ∈ nodes) :
    node ∈ unblocked ledger nodes ∨ ∃ other ∈ nodes, (ledger.cmd other).isBlocking = true := by
  by_cases noneBlocks : ∀ other ∈ nodes, (!(ledger.cmd other).isBlocking) = true
  · left
    rw [unblocked, takeWhile_eq_self_iff.mpr noneBlocks]
    exact member
  · right
    push Not at noneBlocks
    obtain ⟨other, inNodes, blocks⟩ := noneBlocks
    refine ⟨other, inNodes, ?_⟩
    rw [← Bool.not_eq_false]
    exact fun isFalse => blocks (by rw [isFalse]; rfl)

/-- Where the search of the whole pending list finds nothing, every command has something
to wait for. -/
theorem serves_of_stuck (stuck : (queue.search none).2 = none) : queue.ledger.ServesAll := by
  obtain ⟨someActive, served⟩ := searchPending_none queue queue.pendingList.nodes stuck
  intro node member kept
  rcases @mem_unblocked_or node queue.ledger queue.pendingList.nodes member with inFront | ⟨other, inPending, blocks⟩
  · exact .inl (served node inFront)
  · have nonempty := someActive (ne_nil_of_mem member)
    exact .inr (.inr ⟨nonempty, other, inPending, rfl, blocks⟩)

section

variable (exact : queue.books.Exact config none none)

include exact

/-- What a search in the list of a vdev finds is a command of that vdev. -/
theorem vdev_of_searchVdev (found : queue.searchVdev vdev = some node) :
    (queue.ledger.cmd node).vdev = some vdev := by
  have inList : node ∈ queue.books.vdevNodes vdev false := by
    unfold searchVdev at found
    split at found
    · cases found
    · next front rest isList =>
        split at found
        · cases found
        · obtain rfl := Option.some.inj found
          change front ∈ (queue.vdevPendingList vdev).nodes
          rw [isList]
          exact mem_cons_self
  rw [exact.vdevLists, mem_filter, decide_eq_true_eq] at inList
  exact inList.2

/-- Where only the commands of one vdev have nothing to wait for, a search in the list of
that vdev serves them all. -/
theorem serves_movedVdev (served : ∀ node ∈ queue.ledger.pending,
      (∃ other ∈ queue.ledger.bitmap, (queue.ledger.cmd node).vdev = some other)
        ∨ (queue.ledger.cmd node).vdev = some vdev)
    (unmarked : ∀ front ∈ (queue.vdevPendingList vdev).nodes.head?,
      (queue.commands front).cmdInUse.markedForMovement = false)
    {result : PdevQueue × Option Nat} (moved : Moved queue (some vdev) result) :
    result.1.ledger.ServesAll := by
  cases moved with
  | nothing next isNone books =>
    have same : next.ledger = queue.ledger := congrArg Books.ledger books
    intro node member kept
    rw [same] at member ⊢
    left
    rcases served node member with isServed | ofVdev
    · exact isServed
    · refine ⟨vdev, ?_, ofVdev⟩
      have inList : node ∈ queue.books.vdevNodes vdev false := by
        rw [exact.vdevLists, mem_filter, decide_eq_true_eq]
        exact ⟨member, ofVdev⟩
      change queue.searchVdev vdev = none at isNone
      change node ∈ (queue.vdevPendingList vdev).nodes at inList
      unfold searchVdev at isNone
      cases isList : (queue.vdevPendingList vdev).nodes with
      | nil =>
        rw [isList] at inList
        cases inList
      | cons front rest =>
        have isUnmarked := unmarked front (by rw [isList]; rfl)
        have frontVdev : (queue.ledger.cmd front).vdev = some vdev := by
          have inFront : front ∈ queue.books.vdevNodes vdev false := by
            change front ∈ (queue.vdevPendingList vdev).nodes
            rw [isList]
            exact mem_cons_self
          rw [exact.vdevLists, mem_filter, decide_eq_true_eq] at inFront
          exact inFront.2
        rw [isList] at isNone
        dsimp only at isNone
        rw [isUnmarked] at isNone
        cases isActive : queue.vdevCmdActive (queue.cmd front) with
        | false =>
          rw [isActive] at isNone
          cases isNone
        | true =>
          rw [vdevCmdActive_iff] at isActive
          obtain ⟨own, isSet, isOwn⟩ := isActive
          have sameVdev : some own = some vdev := isOwn.symm.trans frontVdev
          rw [Option.some.injEq] at sameVdev
          exact sameVdev ▸ isSet
  | moved next front own found member ofVdev free books =>
    have isVdev : some own = some vdev := ofVdev.symm.trans (vdev_of_searchVdev exact found)
    have isNext : next.ledger = (queue.ledger.unqueue front).enter front own :=
      congrArg Books.ledger books
    intro node inNext kept
    rw [isNext] at inNext ⊢
    left
    have inPending : node ∈ queue.ledger.pending := mem_of_mem_erase inNext
    rcases served node inPending with ⟨other, isSet, isOther⟩ | ofOwn
    · exact ⟨other, Finset.mem_insert_of_mem isSet, isOther⟩
    · exact ⟨own, Finset.mem_insert_self _ _, isVdev ▸ ofOwn⟩

/-- No blocking command waits if none is counted. -/
theorem not_blocking_of_waiting
    (noneWaits : queue.blockingCmdWaiting = 0) (member : node ∈ queue.ledger.pending) :
    (queue.ledger.cmd node).isBlocking = false := by
  rw [← Bool.not_eq_true]
  intro blocks
  have counted : queue.blockingCmdWaiting.toNat = queue.ledger.pending.countP
      (fun node => (queue.ledger.cmd node).isBlocking) + 0 := exact.waiting
  have positive : 0 < queue.ledger.pending.countP fun node => (queue.ledger.cmd node).isBlocking :=
    countP_pos_iff.mpr ⟨node, member, blocks⟩
  rw [noneWaits] at counted
  have isZero : (0 : BitVec 16).toNat = 0 := rfl
  omega

end

/-- A removal that only looks at the list of its vdev finds no mark of an earlier search on
the first command there. -/
def RemovalServes (queue : PdevQueue) (cmd : Command) : Prop :=
  ∀ node ∈ queue.findCmd queue.activeList.nodes cmd, (queue.cmd node).isBlocking = false →
    queue.blockingCmdWaiting = 0 → ∀ vdev ∈ cmd.vdev,
      ∀ front ∈ (queue.vdevPendingList vdev).nodes.head?,
        (queue.commands front).cmdInUse.markedForMovement = false

instance (queue : PdevQueue) (cmd : Command) : Decidable (queue.RemovalServes cmd) :=
  inferInstanceAs (Decidable (∀ node ∈ queue.findCmd queue.activeList.nodes cmd, _))

/-- What a removal of a command that is not blocking relies on. -/
theorem lookupReady_dequeued {next : PdevQueue} (exact : queue.books.Exact config none none)
    (serves : queue.ledger.ServesAll) (removalServes : queue.RemovalServes cmd)
    (ofVdev : cmd.vdev = some vdev)
    (found : queue.books.find queue.books.ledger.active cmd = some node)
    (exactNext : next.books.Exact config none none)
    (books : next.books = dequeued queue.books node vdev)
    (commands : ∀ other, other ≠ node → next.commands other = queue.commands other)
    (notBlocking : (queue.cmd node).isBlocking = false) (noneWaits : next.blockingCmdWaiting = 0)
    {result : PdevQueue × Option Nat} (moved : Moved next (some vdev) result) :
    result.1.ledger.ServesAll := by
  have member : node ∈ queue.books.ledger.active := mem_of_find found
  have sameWaiting : queue.blockingCmdWaiting = 0 :=
    (congrArg Books.waiting books).symm.trans noneWaits
  have isNext : next.ledger = (dequeued queue.books node vdev).ledger := congrArg Books.ledger books
  have samePending : next.ledger.pending = queue.ledger.pending := by
    rw [isNext]
    rfl
  have isBitmap : next.ledger.bitmap = queue.ledger.bitmap.erase vdev := by
    rw [isNext]
    rfl
  have apart : ∀ other ∈ queue.ledger.pending, other ≠ node := by
    rintro other inPending rfl
    have once := exact.sound.apart other
    have inActive := count_pos_iff.mpr member
    have count := count_pos_iff.mpr inPending
    change _ + queue.ledger.pending.count other + _ ≤ 1 at once
    omega
  have sameCmd : ∀ other ∈ queue.ledger.pending, next.ledger.cmd other = queue.ledger.cmd other :=
    fun other inPending => congrArg CommandList.cmd (commands other (apart other inPending))
  have noneBlocks : queue.ledger.blocking = false := by
    have isFalse := @blocking_dequeued config queue.books node vdev exact member
    change (if (queue.cmd node).isBlocking then false else queue.ledger.blocking) = false at isFalse
    rw [notBlocking] at isFalse
    exact isFalse
  refine serves_movedVdev exactNext (fun other inNext => ?_) (fun front isFront => ?_) moved
  · rw [samePending] at inNext
    rw [sameCmd other inNext, isBitmap]
    rcases serves other inNext rfl with ⟨own, isSet, isOwn⟩ | isBlocking | ⟨-, blocker, inPending, -,
      blocks⟩
    · by_cases isVdev : own = vdev
      · exact .inr (isVdev ▸ isOwn)
      · exact .inl ⟨own, Finset.mem_erase.mpr ⟨isVdev, isSet⟩, isOwn⟩
    · exact absurd (noneBlocks.symm.trans isBlocking) Bool.false_ne_true
    · have isFalse := not_blocking_of_waiting exact sameWaiting inPending
      exact absurd (isFalse.symm.trans blocks) Bool.false_ne_true
  · have sameList : (next.vdevPendingList vdev).nodes = (queue.vdevPendingList vdev).nodes := by
      change next.books.vdevNodes vdev false = queue.books.vdevNodes vdev false
      rw [books]
      exact if_neg fun both => nomatch both.2
    rw [sameList] at isFront
    have inList : front ∈ queue.books.vdevNodes vdev false := mem_of_head? isFront
    rw [exact.vdevLists, mem_filter] at inList
    rw [commands front (apart front inList.1)]
    exact removalServes node found notBlocking sameWaiting vdev ofVdev front isFront

end PdevQueue

/-! ## Calls -/

theorem promotes_nothing (config : SerConfig) (ends : Ledger → Prop) :
    Promotes config (fun _ => False) ends where
  moved := fun _ never => never.elim
  stuck := fun _ never => never.elim
  blocked := fun never => never.elim

/-- Promotions that go on until nothing is found. -/
theorem promotes_all (config : SerConfig) : Promotes config (fun _ => True) Ledger.ServesAll where
  moved := fun _ _ _ _ _ => trivial
  stuck := fun _ _ stuck => serves_of_stuck stuck
  blocked := fun _ isBlocking _ _ _ => .inr (.inl isBlocking)

variable {config : SerConfig} {stray : PdevQueue → PdevQueue} {queue next : PdevQueue}
  {cmd : Command}

/-- A request leaves no command behind. -/
theorem serves_request (rested : Rested config queue) (serves : queue.ledger.ServesAll)
    (counts : CountsOperation config queue (.request cmd))
    (completes : Completes stray (· = true) queue (.request cmd) next) : next.ledger.ServesAll := by
  have promoting : Promoting (fun _ => False) Ledger.ServesAll config next ⟨.idle, []⟩ := by
    refine @Completes.invariant _ _ _ _ completes (fun state =>
      state.2.Promoting (fun _ => False) Ledger.ServesAll config state.1) ?_ ?_
    · have keeps : Keeps config (queue, ⟨(Call.request cmd).frame, []⟩) := rested.keeps counts
      refine ⟨keeps.step stray true, ?_⟩
      unfold step
      dsimp only [Call.frame]
      split
      next => exact ⟨rfl, serves⟩
      next isNonscan =>
        obtain ⟨known, countsRequest⟩ := Or.resolve_left counts isNonscan
        obtain ⟨requested, -⟩ := enqueueSection_requested rested.exact known countsRequest
        have servesNext := serves_requested rested.exact serves requested
        generalize queue.enqueueSection cmd = result at requested servesNext
        cases requested with
        | rejected | waits => exact ⟨rfl, servesNext⟩
        | activated => exact servesNext
    · intro state promoting
      exact promoting.step (promotes_nothing config _) stray
  exact promoting.goesOn.2

/-- A removal leaves no command behind. -/
theorem serves_remove (rested : Rested config queue) (serves : queue.ledger.ServesAll)
    (removalServes : queue.RemovalServes cmd)
    (completes : Completes stray (· = true) queue (.remove cmd true) next) :
    next.ledger.ServesAll := by
  have promoting : Promoting (fun _ => True) Ledger.ServesAll config next ⟨.idle, []⟩ := by
    refine @Completes.invariant _ _ _ _ completes (fun state =>
      state.2.Promoting (fun _ => True) Ledger.ServesAll config state.1) ?_ ?_
    · have keeps : Keeps config (queue, ⟨(Call.remove cmd true).frame, []⟩) :=
        rested.keeps rfl
      have booked : Booked config
          (step stray queue true ⟨(Call.remove cmd true).frame, []⟩).1
          (step stray queue true ⟨(Call.remove cmd true).frame, []⟩).2 :=
        keeps.step stray true
      refine ⟨booked, ?_⟩
      have exactNext := booked.exact
      by_cases isScan : cmd.cmdType < serCmdNonscan
      · have isStep : step stray queue true ⟨(Call.remove cmd true).frame, []⟩
            = (queue, .returned []) := if_pos isScan
        rw [isStep]
        exact ⟨rfl, serves⟩
      · rcases dequeueSection_cases rested.exact rested.unmarked cmd with
          ⟨after, node, vdev, isAfter, ofVdev, found, books, commands⟩ | isAfter
        · have isStep : step stray queue true ⟨(Call.remove cmd true).frame, []⟩
              = (after, ⟨.move (queue.cmd node).vdev (queue.cmd node).isBlocking, []⟩) :=
            (if_neg isScan).trans (by rw [CmdRef.read, isAfter]; rfl)
          rw [isStep] at exactNext ⊢
          refine ⟨rfl, ?_⟩
          cases isLookup : after.vdevQueueLookup (queue.cmd node).vdev (queue.cmd node).isBlocking with
          | none => trivial
          | some own =>
            intro result moved
            unfold vdevQueueLookup at isLookup
            split at isLookup
            next looks =>
              have nodeVdev : (queue.cmd node).vdev = some vdev := (vdev_of_find found).trans ofVdev
              have isOwn : some vdev = some own := nodeVdev.symm.trans isLookup
              rw [Option.some.injEq] at isOwn
              subst isOwn
              exact lookupReady_dequeued rested.exact serves removalServes ofVdev found exactNext
                books commands looks.1 looks.2 moved
            next => cases isLookup
        · have isStep : step stray queue true ⟨(Call.remove cmd true).frame, []⟩
              = (queue, .returned []) := (if_neg isScan).trans (by rw [CmdRef.read, isAfter])
          rw [isStep]
          exact ⟨rfl, serves⟩
    · intro state promoting
      exact promoting.step (promotes_all config) stray
  exact promoting.goesOn.2

end Sm8650.Wlan
