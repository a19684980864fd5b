import Sm8650.Wlan.BookedSections

/-!
# Requests on the books

A blocking request is counted as waiting before it is known whether it will wait: it can
still be turned away, and it can have to wait without having been counted. Both leave the
count wrong.
-/

namespace Sm8650.Wlan

open Function

/-- The active and the pending commands of two books are the same. -/
structure Books.SameLists (before after : Books) : Prop where
  nodes : ∀ active, after.ledger.nodes active = before.ledger.nodes active
  cmd : ∀ active, ∀ node ∈ before.ledger.nodes active,
    after.ledger.cmd node = before.ledger.cmd node
  bitmap : after.ledger.bitmap = before.ledger.bitmap
  blocking : after.ledger.blocking = before.ledger.blocking
  marked : ∀ node, after.marked node = true → before.marked node = true

theorem Books.SameLists.refl (books : Books) : books.SameLists books :=
  ⟨fun _ => rfl, fun _ _ _ => rfl, rfl, rfl, fun _ isMarked => isMarked⟩

namespace PdevQueue

variable {queue : PdevQueue} {node vdev : Nat} {active : Bool} {cmd : Command}
  {config : SerConfig}

/-- A command of `vdev` can be kept waiting: it is not pending already, a buffer is left for
it, and both pending lists have room. -/
def CanWait (queue : PdevQueue) (cmd : Command) (vdev : Nat) : Prop :=
  queue.findCmd (queue.vdevPendingList vdev).nodes cmd = none ∧ queue.cmdPoolList ≠ []
    ∧ (queue.vdevPendingList vdev).nodes.length ≠ (queue.vdevPendingList vdev).maxSize
    ∧ queue.pendingList.nodes.length ≠ queue.pendingList.maxSize

instance (queue : PdevQueue) (cmd : Command) (vdev : Nat) : Decidable (queue.CanWait cmd vdev) :=
  inferInstanceAs (Decidable (_ ∧ _ ∧ _ ∧ _))

/-- A blocking request is counted as waiting exactly if it has to wait and can: while some
command is active it can wait, and while none is it does not find commands of its vdev
pending that it would have to wait for. -/
def CountsRequest (queue : PdevQueue) (cmd : Command) : Prop :=
  ∀ vdev ∈ cmd.vdev, cmd.cmdCb = true → queue.queueDisable vdev = false →
    cmd.isBlocking = true →
      if queue.anyVdevCmdActive then queue.CanWait cmd vdev
      else (queue.vdevPendingList vdev).nodes = [] ∨ ¬queue.CanWait cmd vdev

instance (queue : PdevQueue) (cmd : Command) : Decidable (queue.CountsRequest cmd) :=
  inferInstanceAs (Decidable (∀ vdev ∈ cmd.vdev, _))

/-- The test of admission counts a blocking command while some command is active. -/
theorem isActiveNonScanCmdAllowed_books (queue : PdevQueue) (cmd : Command) :
    (queue.isActiveNonScanCmdAllowed cmd).1
      = if cmd.isBlocking && queue.anyVdevCmdActive then
          { queue with blockingCmdWaiting := queue.blockingCmdWaiting + 1 }
        else queue := by
  unfold isActiveNonScanCmdAllowed
  cases cmd.isBlocking with
  | false =>
    rw [if_neg Bool.false_ne_true]
    split <;> rfl
  | true =>
    rw [if_pos rfl, Bool.true_and]
    split <;> rfl

/-- A blocking command is allowed while no command is active. -/
theorem isActiveNonScanCmdAllowed_blocking (isBlocking : cmd.isBlocking = true) :
    (queue.isActiveNonScanCmdAllowed cmd).2 = !queue.anyVdevCmdActive := by
  unfold isActiveNonScanCmdAllowed
  rw [if_pos isBlocking]
  cases queue.anyVdevCmdActive <;> rfl

/-- A node drawn for a command. -/
def drawn (books : Books) (node : Nat) (pool : List Nat) (cmd : Command) : Books :=
  (books.draw pool).rewrite node cmd

variable {pool : List Nat}

theorem drawn_exact {books : Books} (exact : books.Exact config none none)
    (isPool : books.ledger.pool = node :: pool) (cmd : Command) :
    (drawn books node pool cmd).Exact config (some node) none :=
  (exact.draw isPool).rewrite cmd

/-- A drawn node is in no list. -/
theorem drawn_sameLists {books : Books} (exact : books.Exact config none none)
    (isPool : books.ledger.pool = node :: pool) (cmd : Command) :
    books.SameLists (drawn books node pool cmd) where
  nodes := fun active => by cases active <;> rfl
  cmd := fun active other member => by
    apply update_of_ne
    rintro rfl
    exact Ledger.not_mem_nodes (exact.draw isPool).unused active member
  bitmap := rfl
  blocking := rfl
  marked := fun _ isMarked => isMarked

/-- What has become of a request: it is turned away, it becomes active, or it waits. -/
inductive Requested (queue : PdevQueue) (cmd : Command) : PdevQueue × Option Nat → Prop
  | rejected (next : PdevQueue) (same : queue.books.SameLists next.books) :
      Requested queue cmd (next, none)
  | activated (next : PdevQueue) (node vdev : Nat) (pool : List Nat)
      (ofVdev : cmd.vdev = some vdev) (isPool : queue.books.ledger.pool = node :: pool)
      (books : next.books = ((drawn queue.books node pool cmd).add node vdev true).mark node true) :
      Requested queue cmd (next, some node)
  | waits (next : PdevQueue) (node vdev : Nat) (pool : List Nat)
      (ofVdev : cmd.vdev = some vdev) (isPool : queue.books.ledger.pool = node :: pool)
      (reason : (queue.isActiveNonScanCmdAllowed cmd).2 = false
        ∨ queue.books.vdevNodes vdev false ≠ [])
      (books : next.books
        = ((drawn queue.books node pool cmd).add node vdev false).recount cmd.isBlocking 1) :
      Requested queue cmd (next, none)

/-- The part of the section behind the test of admission. -/
def enqueueRest (queue : PdevQueue) (cmd : Command) (vdev : Nat) (active : Bool) :
    PdevQueue × Option Nat :=
  if (queue.findCmd (queue.vdevList vdev active).nodes cmd).isSome then (queue, none)
  else
    match queue.cmdPoolList with
    | [] => (queue, none)
    | node :: pool =>
      let taken := ({ queue with cmdPoolList := pool }).write node
        { queue.commands node with cmd }
      match taken.addNonScanCmd node vdev active with
      | (queue, true) =>
        if active then
          (queue.mark node fun bits => { bits with markedForActivation := true }, some node)
        else (queue, none)
      | (queue, false) =>
        let released := queue.write node ⟨.zero, .none⟩
        ({ released with cmdPoolList := released.cmdPoolList ++ [node] }, none)

theorem enqueueSection_rest (ofVdev : cmd.vdev = some vdev)
    (admitted : ¬(cmd.cmdCb = false ∨ queue.queueDisable vdev = true)) :
    queue.enqueueSection cmd
      = enqueueRest (queue.isActiveNonScanCmdAllowed cmd).1 cmd vdev
          ((queue.isActiveNonScanCmdAllowed cmd).2
            && ((queue.isActiveNonScanCmdAllowed cmd).1.vdevPendingList vdev).nodes.isEmpty) := by
  unfold enqueueSection
  rw [ofVdev]
  exact if_neg admitted

/-- What the rest of the section does. -/
inductive Rest (queue : PdevQueue) (cmd : Command) (vdev : Nat) (active : Bool) :
    PdevQueue × Option Nat → Prop
  | refused (refusal : queue.books.find (queue.books.vdevNodes vdev active) cmd ≠ none
        ∨ queue.books.ledger.pool = []) :
      Rest queue cmd vdev active (queue, none)
  | full (next : PdevQueue) (node : Nat) (pool : List Nat)
      (isPool : queue.books.ledger.pool = node :: pool)
      (noRoom : ¬queue.books.HasRoom vdev active)
      (books : next.books
        = (((drawn queue.books node pool cmd).rewrite node .zero).reset node).giveBack node) :
      Rest queue cmd vdev active (next, none)
  | placed (next : PdevQueue) (node : Nat) (pool : List Nat)
      (isNew : queue.books.find (queue.books.vdevNodes vdev active) cmd = none)
      (isPool : queue.books.ledger.pool = node :: pool) (room : queue.books.HasRoom vdev active)
      (books : next.books
        = if active then ((drawn queue.books node pool cmd).add node vdev true).mark node true
          else (drawn queue.books node pool cmd).add node vdev false) :
      Rest queue cmd vdev active (next, if active then some node else none)

theorem enqueueRest_spec (apart : ∀ node pool, queue.books.ledger.pool = node :: pool →
      queue.books.marked node = false ∧ node ∉ queue.books.vdevNodes vdev active) :
    Rest queue cmd vdev active (queue.enqueueRest cmd vdev active) := by
  unfold enqueueRest
  split
  next isQueued =>
    refine .refused (.inl fun isNone => ?_)
    change queue.findCmd (queue.vdevList vdev active).nodes cmd = none at isNone
    rw [isNone] at isQueued
    cases isQueued
  next notQueued =>
  have isNew : queue.books.find (queue.books.vdevNodes vdev active) cmd = none :=
    Option.not_isSome_iff_eq_none.mp notQueued
  split
  next isEmpty => exact .refused (.inr isEmpty)
  next node pool isPool =>
  obtain ⟨unmarked, outside⟩ := apart node pool isPool
  dsimp only
  generalize isTaken : ({ queue with cmdPoolList := pool } : PdevQueue).write node
    { queue.commands node with cmd } = taken
  have books : taken.books = drawn queue.books node pool cmd := by
    rw [← isTaken]
    exact books_write { queue with cmdPoolList := pool } node cmd
  have ownCmd : taken.books.ledger.cmd node = cmd := by
    rw [books]
    exact update_self ..
  have otherCmd : ∀ other, other ≠ node →
      taken.books.ledger.cmd other = queue.books.ledger.cmd other := by
    intro other differs
    rw [books]
    exact update_of_ne differs ..
  have differs : ∀ other ∈ taken.books.vdevNodes vdev active,
      (taken.books.ledger.cmd other).matches (taken.books.ledger.cmd node) = false := by
    intro other member
    rw [books] at member
    have isOther : other ≠ node := by
      rintro rfl
      exact outside member
    rw [ownCmd, otherCmd other isOther]
    exact Bool.eq_false_iff.mpr (List.find?_eq_none.mp isNew other member)
  have isUnmarked : taken.books.marked node = false := by
    rw [books]
    exact unmarked
  obtain ⟨next, added, isNext⟩ := addNonScanCmd_books differs isUnmarked
  rw [added]
  by_cases room : queue.books.HasRoom vdev active
  · have hasRoom : taken.books.HasRoom vdev active := by
      rw [books]
      cases active <;> exact room
    rw [if_pos hasRoom, books] at isNext
    rw [decide_eq_true hasRoom]
    cases active with
    | false => exact .placed next node pool isNew isPool room isNext
    | true =>
      refine .placed _ node pool isNew isPool room ?_
      rw [← isNext]
      exact books_mark (fun _ => rfl) fun _ => rfl
  · have noRoom : ¬taken.books.HasRoom vdev active := by
      rw [books]
      cases active <;> exact room
    rw [if_neg noRoom, books] at isNext
    rw [decide_eq_false noRoom]
    refine .full _ node pool isPool room ?_
    rw [← isNext]
    exact books_release next node

section

variable (exact : queue.books.Exact config none none)

include exact

/-- A node of the pool is in no list, so it is neither marked nor found. -/
theorem pool_apart (isPool : queue.books.ledger.pool = node :: pool) (vdev : Nat) (active : Bool) :
    queue.books.marked node = false ∧ node ∉ queue.books.vdevNodes vdev active := by
  have unused := (exact.draw isPool).unused
  constructor
  · rw [← Bool.not_eq_true]
    intro isMarked
    exact Ledger.not_mem_active unused (exact.marked node isMarked)
  · intro member
    rw [exact.vdevLists] at member
    exact Ledger.not_mem_nodes unused active (List.mem_of_mem_filter member)

/-- A new command that is put into the pending lists and counted. -/
theorem waits_exact (ofVdev : cmd.vdev = some vdev)
    (known : vdev < config.maxVdevs) (isPool : queue.books.ledger.pool = node :: pool)
    (isNew : queue.books.find (queue.books.vdevNodes vdev false) cmd = none)
    (room : queue.books.HasRoom vdev false) :
    (((drawn queue.books node pool cmd).add node vdev false).recount cmd.isBlocking 1).Exact
      config none none := by
  have ownCmd : (drawn queue.books node pool cmd).ledger.cmd node = cmd :=
    update_self ..
  have same := drawn_sameLists exact isPool cmd
  have ownVdev : ((drawn queue.books node pool cmd).ledger.cmd node).vdev = some vdev := by
    rw [ownCmd, ofVdev]
  have placed := (drawn_exact exact isPool cmd).await ownVdev known ?_ ?_
  · rw [ownCmd] at placed
    exact placed
  · intro other member
    have absent : queue.books.find (queue.books.ledger.nodes false) cmd = none := by
      rw [← find_vdevNodes exact ofVdev false]
      exact isNew
    rw [ownCmd, same.cmd false other member]
    exact Bool.eq_false_iff.mpr (List.find?_eq_none.mp absent other member)
  · have bound : queue.books.ledger.pending.length + 0 ≤ config.maxPending := exact.fits
    have notFull : queue.books.ledger.pending.length ≠ config.maxPending := by
      have free := room.2
      rw [exact.room] at free
      exact free
    change queue.books.ledger.pending.length < config.maxPending
    omega

/-- A command that was counted and can wait does. -/
theorem requested_of_counted (ofVdev : cmd.vdev = some vdev) (known : vdev < config.maxVdevs)
    (isBlocking : cmd.isBlocking = true) (someActive : queue.anyVdevCmdActive = true)
    (canWait : queue.CanWait cmd vdev) {waiting : PdevQueue}
    (books : waiting.books = queue.books.recount true 1) :
    Requested queue cmd (waiting.enqueueRest cmd vdev false)
      ∧ (waiting.enqueueRest cmd vdev false).1.books.Exact config none none := by
  have denied : (queue.isActiveNonScanCmdAllowed cmd).2 = false := by
    rw [isActiveNonScanCmdAllowed_blocking isBlocking, someActive]
    rfl
  have spec := @enqueueRest_spec waiting vdev false cmd fun node pool isPool => by
    rw [books] at isPool ⊢
    exact pool_apart exact isPool vdev false
  generalize waiting.enqueueRest cmd vdev false = result at spec
  cases spec with
  | refused refusal =>
    rw [books] at refusal
    rcases refusal with isQueued | isEmpty
    · exact absurd canWait.1 isQueued
    · exact absurd isEmpty canWait.2.1
  | full next node pool isPool noRoom isNext =>
    rw [books] at noRoom
    exact absurd canWait.2.2 noRoom
  | placed next node pool isNew isPool room isNext =>
    rw [books] at isNext
    rw [books] at isNew isPool room
    have isWaiting : next.books
        = ((drawn queue.books node pool cmd).add node vdev false).recount cmd.isBlocking 1 := by
      rw [isBlocking]
      exact isNext
    refine ⟨.waits next node vdev pool ofVdev isPool (.inl denied) isWaiting, ?_⟩
    rw [isWaiting]
    exact waits_exact exact ofVdev known isPool isNew room

/-- A request that found no room has changed no list. -/
theorem requested_of_full (isPool : queue.books.ledger.pool = node :: pool) {next : PdevQueue}
    (books : next.books = (((drawn queue.books node pool cmd).rewrite node .zero).reset node).giveBack node)
    : Requested queue cmd (next, none) ∧ next.books.Exact config none none := by
  have same := drawn_sameLists exact isPool .zero
  have restored : next.books = ((drawn queue.books node pool .zero).reset node).giveBack node := by
    rw [books]
    unfold drawn Books.rewrite Ledger.rewrite
    simp
  constructor
  · refine .rejected next ⟨fun list => ?_, fun list other member => ?_, ?_, ?_,
      fun other isMarked => ?_⟩
    · rw [restored]
      cases list <;> rfl
    · rw [restored]
      exact same.cmd list other member
    · rw [restored]
      rfl
    · rw [restored]
      rfl
    · rw [restored] at isMarked
      change update queue.books.marked node false other = true at isMarked
      rw [update_apply] at isMarked
      split at isMarked
      · cases isMarked
      · exact isMarked
  · rw [restored]
    exact (drawn_exact exact isPool .zero).reset.giveBack

/-- A command that was not counted becomes active if it may, and otherwise waits only if it
is not blocking. -/
theorem requested_of_uncounted (ofVdev : cmd.vdev = some vdev) (known : vdev < config.maxVdevs)
    (notCounted : cmd.isBlocking = true → queue.anyVdevCmdActive = false
      ∧ ((queue.vdevPendingList vdev).nodes = [] ∨ ¬queue.CanWait cmd vdev)) {active : Bool}
    (isActive : ((queue.isActiveNonScanCmdAllowed cmd).2
      && (queue.vdevPendingList vdev).nodes.isEmpty) = active) :
    Requested queue cmd (queue.enqueueRest cmd vdev active)
      ∧ (queue.enqueueRest cmd vdev active).1.books.Exact config none none := by
  have spec := @enqueueRest_spec queue vdev active cmd fun node pool isPool =>
    pool_apart exact isPool vdev active
  generalize queue.enqueueRest cmd vdev active = result at spec
  cases spec with
  | refused refusal => exact ⟨.rejected queue (.refl _), exact⟩
  | full next node pool isPool noRoom isNext => exact requested_of_full exact isPool isNext
  | placed next node pool isNew isPool room isNext =>
    cases active with
    | true =>
      rw [Bool.and_eq_true] at isActive
      have permitted := isActiveNonScanCmdAllowed_true ofVdev isActive.1
      have ownCmd : (drawn queue.books node pool cmd).ledger.cmd node = cmd :=
        update_self ..
      refine ⟨.activated next node vdev pool ofVdev isPool isNext, ?_⟩
      rw [isNext]
      have ownVdev : ((drawn queue.books node pool cmd).ledger.cmd node).vdev = some vdev := by
        rw [ownCmd, ofVdev]
      have entered := (drawn_exact exact isPool cmd).enter ownVdev known permitted.1 (by
        rw [ownCmd]
        exact permitted.2)
      exact entered.mark fun _ => Ledger.mem_place.mpr (.inl rfl)
    | false =>
      have notBlocking : cmd.isBlocking = false := by
        by_contra blocks
        rw [Bool.not_eq_false] at blocks
        obtain ⟨noneActive, isEmpty | cannot⟩ := notCounted blocks
        · rw [isActiveNonScanCmdAllowed_blocking blocks, noneActive, isEmpty] at isActive
          cases isActive
        · have hasPool : queue.books.ledger.pool ≠ [] := by
            rw [isPool]
            exact List.cons_ne_nil _ _
          exact cannot ⟨isNew, hasPool, room.1, room.2⟩
      have isWaiting : next.books
          = ((drawn queue.books node pool cmd).add node vdev false).recount cmd.isBlocking 1 := by
        rw [isNext, notBlocking]
        rfl
      refine ⟨.waits next node vdev pool ofVdev isPool ?_ isWaiting, ?_⟩
      · rw [Bool.and_eq_false_iff] at isActive
        refine isActive.imp id fun notEmpty isEmpty => ?_
        change (queue.vdevPendingList vdev).nodes = [] at isEmpty
        rw [isEmpty] at notEmpty
        cases notEmpty
      · rw [isWaiting]
        exact waits_exact exact ofVdev known isPool isNew room

/-- The section of a request keeps the books exact, if the request is counted rightly. -/
theorem enqueueSection_requested
    (known : ∀ vdev ∈ cmd.vdev, vdev < config.maxVdevs) (counts : queue.CountsRequest cmd) :
    Requested queue cmd (queue.enqueueSection cmd)
      ∧ (queue.enqueueSection cmd).1.books.Exact config none none := by
  cases ofVdev : cmd.vdev with
  | none =>
    unfold enqueueSection
    rw [ofVdev]
    exact ⟨.rejected queue (.refl _), exact⟩
  | some vdev =>
    by_cases turnedAway : cmd.cmdCb = false ∨ queue.queueDisable vdev = true
    · unfold enqueueSection
      rw [ofVdev]
      dsimp only
      rw [if_pos turnedAway]
      exact ⟨.rejected queue (.refl _), exact⟩
    · rw [enqueueSection_rest ofVdev turnedAway]
      rw [not_or, Bool.not_eq_false, Bool.not_eq_true] at turnedAway
      have countsHere := counts vdev ofVdev turnedAway.1 turnedAway.2
      have isKnown : vdev < config.maxVdevs := known vdev ofVdev
      by_cases counted : (cmd.isBlocking && queue.anyVdevCmdActive) = true
      · rw [Bool.and_eq_true] at counted
        have mustWait := countsHere counted.1
        rw [if_pos counted.2] at mustWait
        have denied : (queue.isActiveNonScanCmdAllowed cmd).2 = false := by
          rw [isActiveNonScanCmdAllowed_blocking counted.1, counted.2]
          rfl
        rw [denied, isActiveNonScanCmdAllowed_books, counted.1, counted.2]
        exact requested_of_counted exact ofVdev isKnown counted.1 counted.2 mustWait rfl
      · rw [isActiveNonScanCmdAllowed_books, if_neg counted]
        refine requested_of_uncounted exact ofVdev isKnown (fun blocks => ?_) rfl
        rw [blocks, Bool.true_and, Bool.not_eq_true] at counted
        have must := countsHere blocks
        rw [counted] at must
        exact ⟨counted, must⟩

end

end PdevQueue

end Sm8650.Wlan
