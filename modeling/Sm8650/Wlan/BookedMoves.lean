import Mathlib.Data.List.Pairwise
import Sm8650.Wlan.BookedRequests

/-!
# Promotions and cancelations on the books

A promotion takes a command out of the pending lists and puts it into the active ones,
where its vdev has room. A cancelation takes commands out one at a time and goes on behind
the last one that it has left in place.
-/

namespace Sm8650.Wlan

open List Function

namespace PdevQueue

variable {queue : PdevQueue} {node vdev : Nat} {active : Bool} {cmd : Command}
  {config : SerConfig}

/-! ## Promotions -/

/-- The marks of a search are not in the books. -/
theorem books_markMovement (queue : PdevQueue) (node : Nat) (isMarked : Bool) :
    (queue.mark node fun bits => { bits with markedForMovement := isMarked }).books
      = queue.books := by
  apply books_mark_of_kept
  intro bits
  exact ⟨rfl, rfl⟩

theorem books_setWaiting (queue : PdevQueue) (waiting : BitVec 16) :
    ({ queue with blockingCmdWaiting := waiting } : PdevQueue).books
      = { queue.books with waiting := waiting } := rfl

theorem books_markNext (queue : PdevQueue) (rest : List Nat) :
    (queue.markNext rest).books = queue.books := by
  cases rest with
  | nil => rfl
  | cons next _ => exact books_markMovement queue next true

/-- The search of the pending list leaves the books alone, and what it finds is a pending
command of a vdev without an active one, and the only one to be active if it is blocking. -/
theorem searchPending_books (queue : PdevQueue) (nodes : List Nat) :
    (queue.searchPending nodes).1.books = queue.books
      ∧ ∀ node, (queue.searchPending nodes).2 = some node → node ∈ nodes
        ∧ ((queue.cmd node).isBlocking = true → queue.vdevActiveCmdBitmap = ∅) := by
  induction nodes generalizing queue with
  | nil => exact ⟨rfl, by rintro _ ⟨⟩⟩
  | cons node rest ih =>
    unfold searchPending
    split
    next => exact ⟨rfl, by rintro _ ⟨⟩⟩
    next allowed =>
      have same := books_markNext queue rest
      dsimp only
      split
      next =>
        obtain ⟨sameLater, found⟩ := ih
          ((queue.markNext rest).mark node fun bits => { bits with markedForMovement := false })
        have sameMarked : ((queue.markNext rest).mark node
            fun bits => { bits with markedForMovement := false }).books = queue.books :=
          (books_markMovement (queue.markNext rest) node false).trans same
        refine ⟨sameLater.trans sameMarked, fun other isOther => ?_⟩
        obtain ⟨member, alone⟩ := found other isOther
        refine ⟨mem_cons_of_mem node member, fun blocks => ?_⟩
        have sameLedger := congrArg Books.ledger sameMarked
        have sameCmd : ((queue.markNext rest).mark node
            fun bits => { bits with markedForMovement := false }).cmd = queue.cmd :=
          congrArg Ledger.cmd sameLedger
        rw [← sameCmd] at blocks
        exact (congrArg Ledger.bitmap sameLedger).symm.trans (alone blocks)
      next =>
        refine ⟨same, fun other isOther => ?_⟩
        obtain rfl := Option.some.inj isOther
        refine ⟨mem_cons_self, fun blocks => ?_⟩
        rw [blocks, Bool.not_eq_true] at allowed
        exact not_not.mp (of_decide_eq_false allowed)

/-- A search is for a vdev only while no blocking command waits. -/
def Looks (queue : PdevQueue) (lookup : Option Nat) : Prop :=
  queue.blockingCmdActive = false ∧ (lookup.isSome → queue.blockingCmdWaiting = 0)

/-- What a search finds may be promoted. -/
theorem search_books (exact : queue.books.Exact config none none) {lookup : Option Nat}
    (looks : queue.Looks lookup) :
    (queue.search lookup).1.books = queue.books
      ∧ ∀ node, (queue.search lookup).2 = some node → node ∈ queue.books.ledger.pending
        ∧ (if (queue.cmd node).isBlocking then queue.vdevActiveCmdBitmap = ∅
          else queue.blockingCmdActive = false) := by
  cases lookup with
  | none =>
    obtain ⟨same, found⟩ := searchPending_books queue queue.pendingList.nodes
    refine ⟨same, fun node isNode => ?_⟩
    obtain ⟨member, alone⟩ := found node isNode
    refine ⟨member, ?_⟩
    split
    next blocks => exact alone blocks
    next => exact looks.1
  | some vdev =>
    refine ⟨rfl, fun node isNode => ?_⟩
    have isFront : (queue.vdevPendingList vdev).nodes.head? = some node := by
      change queue.searchVdev vdev = some node at isNode
      unfold searchVdev at isNode
      split at isNode
      · cases isNode
      · next front rest isList =>
          split at isNode
          · cases isNode
          · rw [isList]
            exact isNode
    have inList : node ∈ queue.books.vdevNodes vdev false := mem_of_head? isFront
    rw [exact.vdevLists] at inList
    have member : node ∈ queue.books.ledger.pending := mem_of_mem_filter inList
    refine ⟨member, ?_⟩
    have notBlocking : (queue.cmd node).isBlocking = false := by
      by_contra blocks
      rw [Bool.not_eq_false] at blocks
      have counted : queue.blockingCmdWaiting.toNat = queue.books.ledger.pending.countP
          (fun node => (queue.books.ledger.cmd node).isBlocking) + 0 := exact.waiting
      have positive : 0 < queue.books.ledger.pending.countP
          (fun node => (queue.books.ledger.cmd node).isBlocking) :=
        countP_pos_iff.mpr ⟨node, member, blocks⟩
      rw [looks.2 rfl] at counted
      have isZero : (0 : BitVec 16).toNat = 0 := rfl
      omega
    rw [if_neg (Bool.eq_false_iff.mp notBlocking)]
    exact looks.1

variable {books : Books}

/-- A pending command is the first one that matches it. -/
theorem find_self {hand : Option Nat} {leaving : Leaving} (exact : books.Exact config hand leaving)
    (member : node ∈ books.ledger.pending) :
    books.find books.ledger.pending (books.ledger.cmd node) = some node := by
  cases found : books.find books.ledger.pending (books.ledger.cmd node) with
  | none => exact absurd (Command.matches_self _) (find?_eq_none.mp found node member)
  | some other =>
    have isMatch : (books.ledger.cmd other).matches (books.ledger.cmd node) = true :=
      find?_some (p := fun node' => (books.ledger.cmd node').matches (books.ledger.cmd node)) found
    have : Std.Symm fun first second =>
        (books.ledger.cmd first).matches (books.ledger.cmd second) = false :=
      ⟨fun first second differ => (Command.matches_comm _ _).trans differ⟩
    by_contra differs
    have apart : other ≠ node := fun same => differs (congrArg some same)
    exact Bool.false_ne_true
      ((exact.keys.forall (mem_of_find found) member apart).symm.trans isMatch)

/-- A pending command is not about to be activated. -/
theorem pending_unmarked {hand : Option Nat} {leaving : Leaving}
    (exact : books.Exact config hand leaving) (member : node ∈ books.ledger.pending) :
    books.marked node = false := by
  rw [← Bool.not_eq_true]
  intro isMarked
  have isActive := exact.marked node isMarked
  have once := exact.sound.apart node
  have inActive := count_pos_iff.mpr isActive
  have inPending := count_pos_iff.mpr member
  unfold Ledger.uses at once
  omega

/-- The books after a pending command was promoted. -/
def promoted (books : Books) (node vdev : Nat) : Books :=
  (((books.take node vdev false).add node vdev true).mark node true).recount
    (books.ledger.cmd node).isBlocking (-1)

theorem promote_books (exact : queue.books.Exact config none none)
    (member : node ∈ queue.books.ledger.pending)
    (ofVdev : (queue.cmd node).vdev = some vdev) (known : vdev < config.maxVdevs)
    (free : vdev ∉ queue.vdevActiveCmdBitmap)
    (allowed : if (queue.cmd node).isBlocking then queue.vdevActiveCmdBitmap = ∅
      else queue.blockingCmdActive = false) :
    ∃ next, queue.promote (queue.cmd node) = (next, some node)
      ∧ next.books = promoted queue.books node vdev
      ∧ next.books.Exact config none none := by
  have unmarked := pending_unmarked exact member
  obtain ⟨removed, isRemoved, takes, -⟩ :=
    removeNonScanCmd_books false exact ofVdev (find_self exact member) unmarked
  rw [if_neg Bool.false_ne_true] at takes
  have taken := exact.take false member ofVdev unmarked
  have ownList : removed.books.vdevNodes vdev true = [] := by
    rw [takes]
    exact (if_neg fun both => nomatch both.2).trans (exact.vdevNodes_active free)
  have room : removed.books.HasRoom vdev true := by
    have hasRoom := exact.has_room known free
    have hasVdevRoom := config.active_fits
    constructor
    · rw [ownList, takes]
      change 0 ≠ queue.books.vdevRoom vdev true
      rw [exact.vdevRoom]
      change 0 ≠ config.vdevMaxActive
      omega
    · rw [takes]
      change queue.books.ledger.active.length ≠ queue.books.room true
      rw [exact.room]
      change _ ≠ config.maxActive
      omega
  obtain ⟨added, isAdded, adds⟩ := @addNonScanCmd_books removed node vdev true
    (fun other inList => by
      rw [ownList] at inList
      exact absurd inList not_mem_nil)
    (by
      rw [takes]
      exact unmarked)
  rw [if_pos room, takes] at adds
  rw [decide_eq_true room] at isAdded
  have sameCmd : added.cmd node = queue.cmd node := by
    change added.books.ledger.cmd node = _
    rw [adds]
    rfl
  have marks : (added.mark node fun bits => { bits with markedForActivation := true }).books
      = ((queue.books.take node vdev false).add node vdev true).mark node true := by
    rw [← adds]
    exact books_mark (fun _ => rfl) fun _ => rfl
  unfold promote
  rw [isRemoved, ofVdev]
  dsimp only
  rw [isAdded]
  have isPromoted : ({ added.mark node fun bits => { bits with markedForActivation := true } with
        blockingCmdWaiting :=
          if (added.cmd node).isBlocking then added.blockingCmdWaiting - 1
          else added.blockingCmdWaiting } : PdevQueue).books
      = promoted queue.books node vdev := by
    have sameWaiting : added.blockingCmdWaiting = queue.books.waiting := by
      change added.books.waiting = _
      rw [adds]
      rfl
    rw [books_setWaiting, marks, sameWaiting, sameCmd, BitVec.sub_eq_add_neg]
    rfl
  refine ⟨_, rfl, isPromoted, ?_⟩
  rw [isPromoted]
  have ownCmd : (queue.books.take node vdev false).ledger.cmd node = queue.cmd node :=
    Books.take_cmd ..
  have ownVdev : ((queue.books.take node vdev false).ledger.cmd node).vdev = some vdev := by
    rw [ownCmd, ofVdev]
  have entered := taken.enter ownVdev known free (by
    exact allowed)
  exact (entered.mark fun _ => Ledger.mem_place.mpr (.inl rfl)).uncount

/-- What a section of a promotion does. -/
inductive Moved (queue : PdevQueue) (lookup : Option Nat) : PdevQueue × Option Nat → Prop
  | nothing (next : PdevQueue) (isNone : (queue.search lookup).2 = none)
      (books : next.books = queue.books) : Moved queue lookup (next, none)
  | moved (next : PdevQueue) (node vdev : Nat) (found : (queue.search lookup).2 = some node)
      (member : node ∈ queue.books.ledger.pending) (ofVdev : (queue.cmd node).vdev = some vdev)
      (free : vdev ∉ queue.vdevActiveCmdBitmap)
      (books : next.books = promoted queue.books node vdev) : Moved queue lookup (next, some node)

theorem moveSection_moved (exact : queue.books.Exact config none none) {lookup : Option Nat}
    (looks : queue.Looks lookup) :
    Moved queue lookup (queue.moveSection lookup)
      ∧ (queue.moveSection lookup).1.books.Exact config none none := by
  obtain ⟨same, found⟩ := search_books exact looks
  have inactive := (search_spec queue lookup).2
  unfold moveSection
  cases isFound : (queue.search lookup).2 with
  | none =>
    rw [show queue.search lookup = ((queue.search lookup).1, none) from
      Prod.ext rfl isFound]
    refine ⟨.nothing _ isFound same, ?_⟩
    rw [same]
    exact exact
  | some node =>
    rw [show queue.search lookup = ((queue.search lookup).1, some node) from
      Prod.ext rfl isFound]
    dsimp only
    obtain ⟨member, allowed⟩ := found node isFound
    have isInactive := inactive node isFound
    obtain ⟨vdev, known, isVdev⟩ := exact.ofVdev false node member
    have ofVdev : (queue.cmd node).vdev = some vdev := isVdev
    have free : vdev ∉ queue.vdevActiveCmdBitmap := by
      rw [vdevCmdActive, ofVdev] at isInactive
      exact of_decide_eq_false isInactive
    generalize (queue.search lookup).1 = searched at same
    have sameLedger : searched.ledger = queue.ledger := congrArg Books.ledger same
    have sameCmd : searched.cmd = queue.cmd := congrArg Ledger.cmd sameLedger
    have sameBitmap : searched.vdevActiveCmdBitmap = queue.vdevActiveCmdBitmap :=
      congrArg Ledger.bitmap sameLedger
    have sameBlocking : searched.blockingCmdActive = queue.blockingCmdActive :=
      congrArg Ledger.blocking sameLedger
    rw [← same] at exact member
    rw [← sameCmd] at allowed ofVdev
    obtain ⟨next, isNext, books, exactNext⟩ := promote_books exact member ofVdev known
      (sameBitmap ▸ free) (by
        rw [sameBitmap, sameBlocking]
        exact allowed)
    rw [isNext]
    rw [same] at books member
    rw [sameCmd] at ofVdev
    exact ⟨.moved next node vdev isFound member ofVdev free books, exactNext⟩

/-! ## Cancelations -/

/-- The books after a command was canceled and its node has gone back to the pool. -/
def canceled (books : Books) (node vdev : Nat) (active : Bool) : Books :=
  (((books.take node vdev active).rewrite node .zero).reset node).giveBack node

theorem canceled_exact (exact : books.Exact config none none)
    (member : node ∈ books.ledger.nodes active) (ofVdev : (books.ledger.cmd node).vdev = some vdev)
    (unmarked : books.marked node = false) :
    (canceled books node vdev active).Exact config none (some (books.ledger.cmd node, active)) :=
  ((exact.take active member ofVdev unmarked).rewrite .zero).reset.giveBack

/-- A cancelation marks nothing. -/
theorem canceled_unmarked (unmarked : ∀ node, books.marked node = false) (other : Nat)
    : (canceled books node vdev active).marked other = false := by
  change update books.marked node false other = false
  rw [update_apply]
  split
  · rfl
  · exact unmarked other

theorem cancelNode_books (exact : queue.books.Exact config none none)
    (member : node ∈ queue.books.ledger.nodes active)
    (ofVdev : (queue.cmd node).vdev = some vdev) (pnode : Option Nat) (qsize : Nat) :
    ∃ next, queue.cancelNode node active pnode qsize = (next, .removed (queue.cmd node) pnode qsize)
      ∧ next.books = canceled queue.books node vdev active := by
  have inVdev : node ∈ queue.books.vdevNodes vdev active := by
    rw [exact.vdevLists, mem_filter]
    exact ⟨member, decide_eq_true ofVdev⟩
  unfold cancelNode
  dsimp only
  generalize isTaken : queue.setPdevList active ((queue.pdevList active).nodes.erase node) = taken
  have takenBooks : taken.books = { queue.books with
      ledger := if active then queue.ledger.leave node else queue.ledger.unqueue node } := by
    rw [← isTaken, books_setPdevList]
    cases active <;> rfl
  have sameList : (taken.vdevList vdev active).nodes = queue.books.vdevNodes vdev active := by
    change taken.books.vdevNodes vdev active = _
    rw [takenBooks]
  rw [ofVdev]
  dsimp only
  rw [sameList, if_neg (ne_nil_of_mem inVdev)]
  refine ⟨_, rfl, ?_⟩
  rw [books_release, books_setVdevList, takenBooks]
  cases active <;> rfl

end PdevQueue

/-- What is recorded of the command that a cancelation has stopped at. -/
def CancelStop.leaving (active : Bool) : CancelStop → Leaving
  | .finished => none
  | .removed cmd _ _ => some (cmd, active)

namespace PdevQueue

variable {queue : PdevQueue} {node vdev : Nat} {active : Bool} {cmd : Command}
  {config : SerConfig}

/-- A cancelation goes on behind a command that it has left in the list. -/
def Behind (queue : PdevQueue) (request : CancelRequest) (pnode : Option Nat) : Prop :=
  ∀ node ∈ pnode, node ∈ queue.books.ledger.nodes request.isActiveQueue
    ∧ request.selects (queue.cmd node) = false

/-- Where a cancelation has stopped, it can go on. -/
def Resumes (request : CancelRequest) (result : PdevQueue × CancelStop) : Prop :=
  ∀ cmd pnode qsize, result.2 = .removed cmd pnode qsize → result.1.Behind request pnode

theorem pdevList_nodes (queue : PdevQueue) (active : Bool) :
    (queue.pdevList active).nodes = queue.books.ledger.nodes active := by
  cases active <;> rfl

/-- Another node is canceled than the one to go on behind. -/
theorem behind_canceled {request : CancelRequest} {pnode : Option Nat} {next : PdevQueue}
    (behind : queue.Behind request pnode) (selected : request.selects (queue.cmd node) = true)
    (books : next.books = canceled queue.books node vdev request.isActiveQueue) :
    next.Behind request pnode := by
  intro last isLast
  obtain ⟨member, unselected⟩ := behind last isLast
  have differs : last ≠ node := by
    rintro rfl
    exact Bool.false_ne_true (unselected.symm.trans selected)
  have sameCmd : next.cmd last = queue.cmd last := by
    change next.books.ledger.cmd last = _
    rw [books]
    exact (update_of_ne differs ..).trans (Books.take_cmd ..)
  constructor
  · rw [books]
    change last ∈ (queue.books.take node vdev request.isActiveQueue).ledger.nodes _
    rw [Books.take_nodes, if_pos rfl]
    exact (mem_erase_of_ne differs).mpr member
  · rw [sameCmd]
    exact unselected

theorem cancelLoop_exact (exact : queue.books.Exact config none none)
    (unmarked : ∀ node, queue.books.marked node = false) (request : CancelRequest)
    (timerFound : Bool) (qsize : Nat) (nnode : Option Nat) {pnode : Option Nat}
    (behind : queue.Behind request pnode) :
    let result := cancelLoop request timerFound qsize queue nnode pnode
    result.1.books.Exact config none (result.2.leaving request.isActiveQueue)
      ∧ Resumes request result ∧ ∀ node, result.1.books.marked node = false := by
  induction qsize generalizing queue nnode pnode with
  | zero => exact ⟨exact, (fun _ _ _ stopped => nomatch stopped), unmarked⟩
  | succ qsize ih =>
    have stops : queue.books.Exact config none (CancelStop.leaving request.isActiveQueue
        .finished) ∧ Resumes request (queue, .finished) ∧ ∀ node, queue.books.marked node = false :=
      ⟨exact, (fun _ _ _ stopped => nomatch stopped), unmarked⟩
    unfold cancelLoop
    split
    next => exact stops
    next node isNext =>
      have member := mem_of_nextNode isNext
      rw [pdevList_nodes] at member
      split
      next unselected => exact ih exact unmarked (some node) (by
        intro last isLast
        obtain rfl := Option.some.inj isLast
        exact ⟨member, unselected⟩)
      next selected =>
        rw [Bool.not_eq_false] at selected
        obtain ⟨vdev, -, ofVdev⟩ := exact.ofVdev request.isActiveQueue node member
        have cancels :
            (queue.cancelNode node request.isActiveQueue pnode qsize).1.books.Exact config none
              ((queue.cancelNode node request.isActiveQueue pnode qsize).2.leaving
                request.isActiveQueue)
            ∧ Resumes request (queue.cancelNode node request.isActiveQueue pnode qsize)
            ∧ ∀ other, (queue.cancelNode node request.isActiveQueue pnode qsize).1.books.marked
              other = false := by
          obtain ⟨next, isCanceled, books⟩ := cancelNode_books exact member ofVdev pnode qsize
          rw [isCanceled]
          refine ⟨?_, ?_, fun other => ?_⟩
          · rw [books]
            exact canceled_exact exact member ofVdev (unmarked node)
          · rintro cmd last left stopped
            cases stopped
            exact behind_canceled behind selected books
          · rw [books]
            exact canceled_unmarked unmarked other
        split
        next isActive =>
          rw [isActive] at cancels
          split
          next => exact stops
          next =>
            split
            next isMarked =>
              have isUnmarked : (queue.commands node).cmdInUse.markedForActivation = false :=
                unmarked node
              exact absurd (isUnmarked.symm.trans isMarked) Bool.false_ne_true
            next =>
              split
              next =>
                rw [isActive]
                exact cancels
              next => exact stops
        next isPending =>
          rw [Bool.not_eq_true] at isPending
          rw [isPending] at cancels
          rw [isPending]
          exact cancels

/-- The record of a canceled command is taken back. -/
theorem cancelFinish_exact {request : CancelRequest}
    (exact : queue.books.Exact config none (some (cmd, request.isActiveQueue))) :
    (queue.cancelFinish request cmd).books.Exact config none none := by
  unfold cancelFinish
  cases isActive : request.isActiveQueue with
  | false =>
    rw [isActive] at exact
    rw [BitVec.sub_eq_add_neg]
    exact exact.uncount
  | true =>
    rw [isActive] at exact
    have held : (queue.books.ledger.room (Leaving.key (some (cmd, true)))).held (.inr ())
        = some (cmd.vdev, cmd.isBlocking) := rfl
    -- A command without a vdev would hold a key that is never taken.
    obtain ⟨vdev, -, ofVdev⟩ := exact.valid.covered held
    rw [← ofVdev]
    exact exact.clear ofVdev.symm

end PdevQueue

end Sm8650.Wlan
