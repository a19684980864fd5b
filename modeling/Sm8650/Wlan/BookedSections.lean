import Sm8650.Wlan.Books

/-!
# The sections on the books

Every section under `pdev_queue_lock` is one or a few entries in the books. Which ones is
decided by the books themselves, apart from the bits that a search for a promotion leaves
behind.
-/

namespace Sm8650.Wlan

open Function List

/-- The first node of a list whose command matches. -/
def Books.find (books : Books) (nodes : List Nat) (cmd : Command) : Option Nat :=
  nodes.find? fun node => (books.ledger.cmd node).matches cmd

/-- Both lists have room for another node. -/
def Books.HasRoom (books : Books) (vdev : Nat) (active : Bool) : Prop :=
  (books.vdevNodes vdev active).length ≠ books.vdevRoom vdev active
    ∧ (books.ledger.nodes active).length ≠ books.room active

instance (books : Books) (vdev : Nat) (active : Bool) : Decidable (books.HasRoom vdev active) :=
  inferInstanceAs (Decidable (_ ∧ _))

/-- Setting a list of a vdev back. -/
theorem Books.setVdevNodes_restore (books : Books) (vdev : Nat) (active : Bool) (nodes : List Nat) :
    (books.setVdevNodes vdev active nodes).setVdevNodes vdev active (books.vdevNodes vdev active)
      = books := by
  have restored : ∀ other list, (if other = vdev ∧ list = active then
      books.vdevNodes vdev active else if other = vdev ∧ list = active then nodes
        else books.vdevNodes other list) = books.vdevNodes other list := by
    intro other list
    by_cases same : other = vdev ∧ list = active
    · rw [if_pos same, same.1, same.2]
    · rw [if_neg same, if_neg same]
  unfold setVdevNodes
  simp only [restored]

namespace PdevQueue

variable {queue : PdevQueue} {node vdev : Nat} {active : Bool} {cmd : Command}
  {config : SerConfig} {hand : Option Nat} {leaving : Leaving}

/-! ## Bits and lists -/

theorem books_mark {change : CmdInUse → CmdInUse} {isMarked : Bool}
    (sets : ∀ bits, (change bits).markedForActivation = isMarked)
    (keeps : ∀ bits, (change bits).isDeferred = bits.isDeferred) :
    (queue.mark node change).books = queue.books.mark node isMarked := by
  unfold books
  rw [ledger_mark]
  congr 1
  · funext other
    simp only [mark, update_apply]
    split
    · rw [sets]
    · rfl
  · funext other
    simp only [mark, update_apply]
    split
    next same => rw [keeps, same]
    next => rfl

theorem books_mark_of_kept {change : CmdInUse → CmdInUse}
    (keeps : ∀ bits, (change bits).markedForActivation = bits.markedForActivation
      ∧ (change bits).isDeferred = bits.isDeferred) :
    (queue.mark node change).books = queue.books := by
  unfold books
  rw [ledger_mark]
  congr 1
  · funext other
    simp only [mark, update_apply]
    split
    next same => rw [(keeps _).1, same]
    next => rfl
  · funext other
    simp only [mark, update_apply]
    split
    next same => rw [(keeps _).2, same]
    next => rfl

/-- Writing a command and keeping the bits. -/
theorem books_write (queue : PdevQueue) (node : Nat) (cmd : Command) :
    (queue.write node { queue.commands node with cmd }).books = queue.books.rewrite node cmd := by
  unfold books
  rw [ledger_write]
  congr 1
  · funext other
    simp only [write, update_apply]
    split
    next same => rw [same]
    next => rfl
  · funext other
    simp only [write, update_apply]
    split
    next same => rw [same]
    next => rfl

/-- Writing a command and clearing the bits. -/
theorem books_clear (queue : PdevQueue) (node : Nat) (cmd : Command) :
    (queue.write node ⟨cmd, .none⟩).books = (queue.books.rewrite node cmd).reset node := by
  unfold books
  rw [ledger_write]
  congr 1
  · funext other
    simp only [write, update_apply]
    split <;> rfl
  · funext other
    simp only [write, update_apply]
    split <;> rfl

theorem books_setVdevList (queue : PdevQueue) (vdev : Nat) (active : Bool) (nodes : List Nat) :
    (queue.setVdevList vdev active nodes).books = queue.books.setVdevNodes vdev active nodes := by
  unfold books
  rw [ledger_setVdevList]
  congr 1
  · funext other list
    cases active <;> cases list <;> simp [setVdevList, vdevList, update_apply] <;> split <;> rfl
  · cases active <;> rfl
  · funext other list
    cases active <;> cases list <;>
      simp [setVdevList, vdevList, update_apply] <;> split <;> simp_all
  · cases active <;> rfl
  · cases active <;> rfl
  · cases active <;> rfl

theorem books_setPdevList (queue : PdevQueue) (active : Bool) (nodes : List Nat) :
    (queue.setPdevList active nodes).books
      = { queue.books with
          ledger := if active then { queue.ledger with active := nodes }
            else { queue.ledger with pending := nodes } } := by
  unfold books
  rw [ledger_setPdevList]
  congr 1
  · cases active <;> rfl
  · funext list
    cases active <;> cases list <;> rfl
  · cases active <;> rfl
  · cases active <;> rfl
  · cases active <;> rfl
  · cases active <;> rfl

theorem books_release (queue : PdevQueue) (node : Nat) :
    (queue.release node).books = ((queue.books.rewrite node .zero).reset node).giveBack node := by
  have written := books_clear queue node .zero
  exact congrArg (Books.giveBack · node) written

/-! ## Adding -/

theorem addToVdevQueue_books (queue : PdevQueue) (node vdev : Nat) (active : Bool) :
    ∃ next, queue.addToVdevQueue node vdev active
        = (next, !decide ((queue.books.vdevNodes vdev active).length
            = queue.books.vdevRoom vdev active))
      ∧ next.books
        = if (queue.books.vdevNodes vdev active).length = queue.books.vdevRoom vdev active then
            queue.books
          else
            queue.books.setVdevNodes vdev active
              (queue.books.ledger.place node (queue.books.vdevNodes vdev active)) := by
  refine ⟨(queue.addToVdevQueue node vdev active).1, Prod.ext rfl rfl, ?_⟩
  have same : ∀ (result : PdevQueue) (disabled : Nat → Bool),
      ({ result with queueDisable := disabled } : PdevQueue).books = result.books :=
    fun _ _ => rfl
  unfold addToVdevQueue
  by_cases full : (queue.books.vdevNodes vdev active).length = queue.books.vdevRoom vdev active
  · have isFull : (queue.vdevList vdev active).nodes.length = (queue.vdevList vdev active).maxSize :=
      full
    simp only [isFull]
    split
    · exact same _ _
    · rfl
  · have notFull : ¬(queue.vdevList vdev active).nodes.length
        = (queue.vdevList vdev active).maxSize := full
    simp only [notFull]
    split
    · exact (same _ _).trans (books_setVdevList ..)
    · exact books_setVdevList ..

/-- A command is taken out of the list of its vdev if it is found and not about to be
activated. -/
theorem removeFromVdevQueue_books
    (found : queue.books.find (queue.books.vdevNodes vdev active) cmd = some node)
    (unmarked : queue.books.marked node = false) :
    ∃ next, queue.removeFromVdevQueue cmd vdev active = (next, .removed node)
      ∧ next.books = queue.books.setVdevNodes vdev active
          ((queue.books.vdevNodes vdev active).erase node)
      ∧ next.commands = queue.commands := by
  have isFound : queue.findCmd (queue.vdevList vdev active).nodes cmd = some node := found
  have isUnmarked : (queue.commands node).cmdInUse.markedForActivation = false := unmarked
  unfold removeFromVdevQueue
  rw [isFound]
  dsimp only
  rw [isUnmarked]
  refine ⟨_, rfl, books_setVdevList .., ?_⟩
  cases active <;> rfl

theorem removeFromVdevQueue_none
    (absent : queue.books.find (queue.books.vdevNodes vdev active) cmd = none) :
    queue.removeFromVdevQueue cmd vdev active = (queue, .failure) := by
  have isAbsent : queue.findCmd (queue.vdevList vdev active).nodes cmd = none := absent
  unfold removeFromVdevQueue
  rw [isAbsent]

theorem removeFromPdevQueue_books
    (found : queue.books.find (queue.books.ledger.nodes active) cmd = some node)
    (unmarked : queue.books.marked node = false) :
    ∃ next, queue.removeFromPdevQueue cmd active = (next, .removed node)
      ∧ next.books = { queue.books with
          ledger := if active then queue.ledger.leave node else queue.ledger.unqueue node }
      ∧ next.commands = queue.commands := by
  have isFound : queue.findCmd (queue.pdevList active).nodes cmd = some node := by
    cases active <;> exact found
  have isUnmarked : (queue.commands node).cmdInUse.markedForActivation = false := unmarked
  unfold removeFromPdevQueue
  rw [isFound]
  dsimp only
  rw [isUnmarked]
  refine ⟨_, rfl, ?_, ?_⟩
  · rw [books_setPdevList]
    cases active <;> rfl
  · cases active <;> rfl

/-- `wlan_ser_add_non_scan_cmd` adds a node to both lists, or to none if one is full. -/
theorem addNonScanCmd_books (differs : ∀ other ∈ queue.books.vdevNodes vdev active,
      (queue.books.ledger.cmd other).matches (queue.books.ledger.cmd node) = false)
    (unmarked : queue.books.marked node = false) :
    ∃ next, queue.addNonScanCmd node vdev active = (next, decide (queue.books.HasRoom vdev active))
      ∧ next.books
        = if queue.books.HasRoom vdev active then queue.books.add node vdev active
          else queue.books := by
  obtain ⟨next, added, isNext⟩ := addToVdevQueue_books queue node vdev active
  unfold addNonScanCmd
  rw [added]
  by_cases full : (queue.books.vdevNodes vdev active).length = queue.books.vdevRoom vdev active
  · have noRoom : ¬queue.books.HasRoom vdev active := fun room => room.1 full
    rw [if_pos full] at isNext
    simp only [full, noRoom]
    exact ⟨next, rfl, isNext⟩
  · rw [if_neg full] at isNext
    simp only [full, decide_false, Bool.not_false]
    have samePdev : (next.pdevList active).nodes = queue.books.ledger.nodes active := by
      have sameLedger : next.ledger = queue.ledger := congrArg Books.ledger isNext
      cases active
      · exact congrArg Ledger.pending sameLedger
      · exact congrArg Ledger.active sameLedger
    have sameRoom : (next.pdevList active).maxSize = queue.books.room active :=
      congrArg (fun books => Books.room books active) isNext
    have sameLedger : next.ledger = queue.ledger := congrArg Books.ledger isNext
    unfold addToPdevQueue
    dsimp only
    by_cases fullPdev : (queue.books.ledger.nodes active).length = queue.books.room active
    · have noRoom : ¬queue.books.HasRoom vdev active := fun room => room.2 fullPdev
      rw [samePdev, sameRoom, if_pos fullPdev]
      simp only [noRoom, if_false]
      -- The node is the only match in the list of its vdev, so it is the one that goes.
      have sameCmd : next.cmd = queue.cmd := congrArg Ledger.cmd sameLedger
      have nodes : next.books.vdevNodes vdev active
          = queue.books.ledger.place node (queue.books.vdevNodes vdev active) := by
        rw [isNext]
        exact if_pos ⟨rfl, rfl⟩
      have outside : node ∉ queue.books.vdevNodes vdev active := fun member =>
        Bool.false_ne_true ((differs node member).symm.trans (Command.matches_self _))
      have found : next.books.find (next.books.vdevNodes vdev active) (next.cmd node)
          = some node := by
        have ownMatch : (queue.books.ledger.cmd node).matches (queue.books.ledger.cmd node) = true :=
          Command.matches_self _
        rw [nodes, Books.find, show next.books.ledger.cmd = queue.books.ledger.cmd from sameCmd,
          sameCmd]
        change find? (fun other => (queue.books.ledger.cmd other).matches
          (queue.books.ledger.cmd node)) _ = some node
        unfold Ledger.place
        split
        · simp [ownMatch]
        · have absent : find? (fun other => (queue.books.ledger.cmd other).matches
              (queue.books.ledger.cmd node)) (queue.books.vdevNodes vdev active) = none := by
            rw [find?_eq_none]
            intro other member isMatch
            exact Bool.false_ne_true ((differs other member).symm.trans isMatch)
          rw [find?_append, absent, Option.none_or]
          simp [ownMatch]
      have isUnmarked : next.books.marked node = false := by
        rw [isNext]
        exact unmarked
      obtain ⟨last, removed, isLast, -⟩ := removeFromVdevQueue_books found isUnmarked
      rw [removed]
      refine ⟨last, rfl, ?_⟩
      rw [isLast, nodes, isNext]
      have restored : (queue.books.ledger.place node (queue.books.vdevNodes vdev active)).erase node
          = queue.books.vdevNodes vdev active := by
        unfold Ledger.place
        split
        · rw [erase_cons_head]
        · rw [erase_append_right _ outside, erase_cons_head, append_nil]
      rw [restored, Books.setVdevNodes_restore]
    · have room : queue.books.HasRoom vdev active := ⟨full, fullPdev⟩
      rw [samePdev, sameRoom, if_neg fullPdev]
      simp only [room]
      refine ⟨_, rfl, ?_⟩
      have placed : (next.setPdevList active
          (next.insertNode node (queue.books.ledger.nodes active))).books
          = { next.books with
              ledger := if active then
                  { next.ledger with active := next.insertNode node queue.ledger.active }
                else { next.ledger with pending := next.insertNode node queue.ledger.pending } } := by
        rw [books_setPdevList]
        cases active <;> rfl
      have sameInsert : ∀ nodes, next.insertNode node nodes = queue.ledger.place node nodes := by
        intro nodes
        have sameCmd : next.cmd = queue.cmd := congrArg Ledger.cmd sameLedger
        unfold insertNode
        rw [sameCmd]
        rfl
      cases active with
      | false =>
        rw [if_neg Bool.false_ne_true, placed, isNext, sameLedger]
        simp only [sameInsert]
        rfl
      | true =>
        rw [if_pos rfl]
        have active : ∀ result : PdevQueue, (result.setActive node vdev).books
            = { result.books with
                ledger := { result.ledger with
                  bitmap := insert vdev result.ledger.bitmap
                  blocking := result.ledger.blocking || (result.ledger.cmd node).isBlocking } } :=
          fun _ => rfl
        rw [active]
        have ledgerPlaced := congrArg Books.ledger placed
        rw [placed, isNext]
        rw [show (next.setPdevList true (next.insertNode node (queue.books.ledger.nodes true))).ledger
          = _ from ledgerPlaced, sameLedger]
        simp only [sameInsert]
        rfl

/-! ## Removing -/

variable {books : Books}

/-- A command is looked up in the list of its vdev as in the list of the pdev. -/
theorem find_vdevNodes (exact : books.Exact config hand leaving) (ofVdev : cmd.vdev = some vdev)
    (active : Bool) :
    books.find (books.vdevNodes vdev active) cmd = books.find (books.ledger.nodes active) cmd := by
  rw [exact.vdevLists, Books.find, find?_filter]
  congr 1
  funext node
  cases isMatch : (books.ledger.cmd node).matches cmd with
  | false => simp
  | true => simp [(Command.vdev_of_matches isMatch).trans ofVdev]

theorem mem_of_find {nodes : List Nat} (found : books.find nodes cmd = some node) : node ∈ nodes :=
  mem_of_find?_eq_some found

theorem vdev_of_find {nodes : List Nat} (found : books.find nodes cmd = some node)
    : (books.ledger.cmd node).vdev = cmd.vdev :=
  Command.vdev_of_matches (find?_some (p := fun node => (books.ledger.cmd node).matches cmd) found)

theorem removeNonScanCmd_books (active : Bool) (exact : queue.books.Exact config hand leaving)
    (ofVdev : cmd.vdev = some vdev)
    (found : queue.books.find (queue.books.ledger.nodes active) cmd = some node)
    (unmarked : queue.books.marked node = false) :
    ∃ next, queue.removeNonScanCmd cmd active = (next, .removed node)
      ∧ next.books
        = (if active then
            (queue.books.take node vdev active).clear vdev (queue.books.ledger.cmd node).isBlocking
          else queue.books.take node vdev active)
      ∧ next.commands = queue.commands := by
  rw [← find_vdevNodes exact ofVdev active] at found
  obtain ⟨first, removed, isFirst, sameFirst⟩ := removeFromVdevQueue_books found unmarked
  rw [find_vdevNodes exact ofVdev active] at found
  have sameFind : first.books.find (first.books.ledger.nodes active) cmd = some node := by
    rw [isFirst]
    exact found
  have sameMark : first.books.marked node = false := by
    rw [isFirst]
    exact unmarked
  obtain ⟨second, removedPdev, isSecond, sameSecond⟩ :=
    removeFromPdevQueue_books sameFind sameMark
  have taken : second.books = queue.books.take node vdev active := by
    have sameLedger : first.ledger = queue.ledger := congrArg Books.ledger isFirst
    rw [isSecond, isFirst, sameLedger]
    cases active <;> rfl
  unfold removeNonScanCmd
  rw [ofVdev]
  dsimp only
  rw [removed]
  dsimp only
  rw [removedPdev]
  cases active with
  | false => exact ⟨second, rfl, taken, sameSecond.trans sameFirst⟩
  | true =>
    refine ⟨_, rfl, ?_, sameSecond.trans sameFirst⟩
    rw [← taken]
    have sameCmd : second.cmd node = queue.books.ledger.cmd node := by
      change second.books.ledger.cmd node = _
      rw [taken, Books.take_cmd]
    rw [← sameCmd]
    rfl

/-- Nothing is removed if nothing is found. -/
theorem removeNonScanCmd_none (exact : queue.books.Exact config hand leaving)
    (absent : queue.books.find (queue.books.ledger.nodes active) cmd = none) :
    queue.removeNonScanCmd cmd active = (queue, .failure) := by
  unfold removeNonScanCmd
  split
  · rfl
  · next vdev ofVdev =>
      rw [← find_vdevNodes exact ofVdev active] at absent
      rw [removeFromVdevQueue_none absent]

/-- The books after an active command was removed and its node has gone back to the
pool. -/
def dequeued (books : Books) (node vdev : Nat) : Books :=
  ((((books.take node vdev true).clear vdev (books.ledger.cmd node).isBlocking).rewrite node
    .zero).reset node).giveBack node

theorem dequeued_exact (exact : books.Exact config none none) (member : node ∈ books.ledger.active)
    (ofVdev : (books.ledger.cmd node).vdev = some vdev) (unmarked : books.marked node = false)
    : (dequeued books node vdev).Exact config none none := by
  have taken := exact.take true member ofVdev unmarked
  have cleared := taken.clear ofVdev
  exact (cleared.rewrite .zero).reset.giveBack

/-- What `wlan_serialization_dequeue_cmd` does with an active command while none is about to
be activated. -/
theorem dequeueSection_cases (exact : queue.books.Exact config none none)
    (unmarked : ∀ node, queue.books.marked node = false) (cmd : Command) :
    (∃ next node vdev, queue.dequeueSection cmd true = (next, some (queue.cmd node))
      ∧ cmd.vdev = some vdev ∧ queue.books.find queue.books.ledger.active cmd = some node
      ∧ next.books = dequeued queue.books node vdev
      ∧ ∀ other, other ≠ node → next.commands other = queue.commands other)
    ∨ queue.dequeueSection cmd true = (queue, none) := by
  cases found : queue.books.find (queue.books.ledger.nodes true) cmd with
  | none =>
    refine .inr ?_
    unfold dequeueSection
    rw [removeNonScanCmd_none exact found]
  | some node =>
    obtain ⟨vdev, -, isVdev⟩ := exact.ofVdev true node (mem_of_find found)
    have ofVdev : cmd.vdev = some vdev := (vdev_of_find found).symm.trans isVdev
    obtain ⟨next, removed, isNext, sameCommands⟩ :=
      removeNonScanCmd_books true exact ofVdev found (unmarked node)
    refine .inl ⟨next.release node, node, vdev, ?_, ofVdev, found, ?_, fun other differs => ?_⟩
    · unfold dequeueSection
      rw [removed]
      have sameCmd : next.cmd node = queue.cmd node := by
        change next.books.ledger.cmd node = _
        rw [isNext]
        rfl
      dsimp only
      rw [sameCmd]
    · rw [books_release, isNext]
      rfl
    · rw [← sameCommands]
      exact update_of_ne differs ..

end PdevQueue

end Sm8650.Wlan
