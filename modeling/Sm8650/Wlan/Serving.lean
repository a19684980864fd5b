import Sm8650.Wlan.Complete

/-!
# What pending commands wait for

A pending command has something to wait for if a command of its vdev is active, or a
blocking command is, or a blocking command is pending while some command is active. A
promotion that goes on until it finds nothing leaves no command without; one that looks
at a single vdev serves that vdev only.
-/

namespace Sm8650.Wlan

open Transition PdevQueue

/-- Every pending command that `keep` selects has something to wait for, other pending
commands being counted only if they are selected. -/
def Ledger.Serves (ledger : Ledger) (keep : Command → Bool) : Prop :=
  ∀ node ∈ ledger.pending, keep (ledger.cmd node) = true →
    (∃ vdev ∈ ledger.bitmap, (ledger.cmd node).vdev = some vdev)
      ∨ ledger.blocking = true
      ∨ (ledger.bitmap ≠ ∅ ∧ ∃ other ∈ ledger.pending, keep (ledger.cmd other) = true
          ∧ (ledger.cmd other).isBlocking = true)

/-- All commands. -/
def everyCmd : Command → Bool := fun _ => true

namespace Ledger

variable {ledger after : Ledger} {keep : Command → Bool}

/-- Commands that become active and pending ones that come in leave the others served. -/
theorem Serves.mono (serves : ledger.Serves keep)
    (pending : ∀ node ∈ ledger.pending, node ∈ after.pending)
    (cmd : ∀ node ∈ ledger.pending, after.cmd node = ledger.cmd node)
    (bitmap : ledger.bitmap ⊆ after.bitmap)
    (blocking : ledger.blocking = true → after.blocking = true) {node : Nat}
    (member : node ∈ ledger.pending) (kept : keep (after.cmd node) = true) :
    (∃ vdev ∈ after.bitmap, (after.cmd node).vdev = some vdev)
      ∨ after.blocking = true
      ∨ (after.bitmap ≠ ∅ ∧ ∃ other ∈ after.pending, keep (after.cmd other) = true
          ∧ (after.cmd other).isBlocking = true) := by
  have sameCmd := cmd node member
  rw [sameCmd] at kept ⊢
  rcases serves node member kept with ⟨vdev, isActive, isVdev⟩ | isBlocking | ⟨someActive, other,
    memberOther, keptOther, blocks⟩
  · exact .inl ⟨vdev, bitmap isActive, isVdev⟩
  · exact .inr (.inl (blocking isBlocking))
  · refine .inr (.inr ⟨?_, other, pending other memberOther, ?_⟩)
    · obtain ⟨vdev, isActive⟩ := Finset.nonempty_iff_ne_empty.mpr someActive
      exact Finset.ne_empty_of_mem (bitmap isActive)
    · rw [cmd other memberOther]
      exact ⟨keptOther, blocks⟩

/-- Nothing is active only while nothing is pending. -/
theorem Serves.active_of_blocking (serves : ledger.Serves everyCmd) {node : Nat}
    (member : node ∈ ledger.pending) : ledger.bitmap ≠ ∅ ∨ ledger.blocking = true := by
  rcases serves node member rfl with ⟨vdev, isActive, -⟩ | isBlocking | ⟨someActive, -⟩
  · exact .inl (Finset.ne_empty_of_mem isActive)
  · exact .inr isBlocking
  · exact .inl someActive

end Ledger

namespace PdevQueue

variable {queue : PdevQueue} {config : SerConfig} {cmd : Command} {node vdev : Nat}

/-! ## Searches -/

/-- The nodes in front of the first blocking command. -/
def unblocked (ledger : Ledger) (nodes : List Nat) : List Nat :=
  nodes.takeWhile fun node => !(ledger.cmd node).isBlocking

theorem vdevCmdActive_iff (queue : PdevQueue) (cmd : Command) :
    queue.vdevCmdActive cmd = true ↔ ∃ vdev ∈ queue.ledger.bitmap, cmd.vdev = some vdev := by
  unfold vdevCmdActive
  cases cmd.vdev with
  | none => simp
  | some own => simp [ledger]

/-- A search that finds nothing has found an active command for every vdev with a command
in front of the first blocking one. -/
theorem searchPending_none (queue : PdevQueue) (nodes : List Nat)
    (stuck : (queue.searchPending nodes).2 = none) :
    (nodes ≠ [] → queue.ledger.bitmap ≠ ∅)
      ∧ ∀ node ∈ unblocked queue.ledger nodes,
        ∃ vdev ∈ queue.ledger.bitmap, (queue.ledger.cmd node).vdev = some vdev := by
  induction nodes generalizing queue with
  | nil => exact ⟨fun nonempty => absurd rfl nonempty, fun node member => nomatch member⟩
  | cons node rest ih =>
    unfold searchPending at stuck
    split at stuck
    next waits =>
      rw [Bool.and_eq_true] at waits
      refine ⟨fun _ => of_decide_eq_true waits.2, fun other member => ?_⟩
      have blocks : (queue.ledger.cmd node).isBlocking = true := waits.1
      rw [unblocked, List.takeWhile_cons, blocks] at member
      cases member
    next =>
      have same : ((queue.markNext rest).mark node
          fun bits => { bits with markedForMovement := false }).ledger = queue.ledger :=
        (ledger_mark _ _ _).trans (ledger_markNext queue rest)
      dsimp only at stuck
      split at stuck
      next isActive =>
        have later := ih _ stuck
        rw [same] at later
        rw [vdevCmdActive_congr (ledger_markNext queue rest),
          cmd_congr (ledger_markNext queue rest), vdevCmdActive_iff] at isActive
        refine ⟨fun _ => ?_, fun other member => ?_⟩
        · obtain ⟨vdev, isSet, -⟩ := isActive
          exact Finset.ne_empty_of_mem isSet
        · rw [unblocked, List.takeWhile_cons] at member
          split at member
          · rcases List.mem_cons.mp member with rfl | inRest
            · exact isActive
            · exact later.2 other inRest
          · cases member
      next => cases stuck

/-- While nothing is active, a search finds the first command. -/
theorem searchPending_head {rest : List Nat} (noneActive : queue.ledger.bitmap = ∅) :
    (queue.searchPending (node :: rest)).2 = some node := by
  have notAny : queue.anyVdevCmdActive = false := decide_eq_false (not_not.mpr noneActive)
  have sameMarked := ledger_markNext queue rest
  unfold searchPending
  rw [notAny, Bool.and_false, if_neg Bool.false_ne_true]
  dsimp only
  rw [vdevCmdActive_congr sameMarked, if_neg]
  rw [vdevCmdActive_iff, noneActive]
  rintro ⟨vdev, isSet, -⟩
  exact absurd isSet (Finset.notMem_empty vdev)

/-! ## Requests -/

theorem waits_reason (exact : queue.books.Exact config none none)
    (serves : queue.ledger.Serves everyCmd) (ofVdev : cmd.vdev = some vdev)
    (reason : (queue.isActiveNonScanCmdAllowed cmd).2 = false
      ∨ queue.books.vdevNodes vdev false ≠ []) :
    vdev ∈ queue.ledger.bitmap ∨ queue.ledger.blocking = true
      ∨ (queue.ledger.bitmap ≠ ∅ ∧ (cmd.isBlocking = true
        ∨ ∃ other ∈ queue.ledger.pending, (queue.ledger.cmd other).isBlocking = true)) := by
  rcases reason with denied | hasPending
  · unfold isActiveNonScanCmdAllowed at denied
    split at denied
    next blocks =>
      split at denied
      next someActive => exact .inr (.inr ⟨of_decide_eq_true someActive, .inl blocks⟩)
      next => cases denied
    next =>
      split at denied
      next mustWait =>
        rw [Bool.or_eq_true] at mustWait
        rcases mustWait with isBlocking | waits
        · exact .inr (.inl isBlocking)
        · have nonzero : queue.blockingCmdWaiting ≠ 0 := by
            intro isZero
            rw [isZero] at waits
            cases waits
          have counted : queue.blockingCmdWaiting.toNat = queue.ledger.pending.countP
              (fun node => (queue.ledger.cmd node).isBlocking) + 0 := exact.waiting
          have positive : 0 < queue.ledger.pending.countP
              (fun node => (queue.ledger.cmd node).isBlocking) := by
            rw [Nat.pos_iff_ne_zero]
            intro isZero
            rw [isZero] at counted
            exact nonzero (BitVec.eq_of_toNat_eq counted)
          obtain ⟨other, member, blocks⟩ := List.countP_pos_iff.mp positive
          rcases serves.active_of_blocking member with someActive | isBlocking
          · exact .inr (.inr ⟨someActive, .inr ⟨other, member, blocks⟩⟩)
          · exact .inr (.inl isBlocking)
      next =>
        rw [Bool.not_eq_false', vdevCmdActive_iff] at denied
        obtain ⟨own, isActive, isVdev⟩ := denied
        rw [ofVdev, Option.some.injEq] at isVdev
        exact .inl (isVdev ▸ isActive)
  · obtain ⟨other, inVdev⟩ := List.exists_mem_of_ne_nil _ hasPending
    rw [exact.vdevLists, List.mem_filter, decide_eq_true_eq] at inVdev
    rcases serves other inVdev.1 rfl with ⟨own, isActive, isVdev⟩ | isBlocking | ⟨someActive,
      blocker, member, -, blocks⟩
    · have sameVdev : some own = some vdev := isVdev.symm.trans inVdev.2
      rw [Option.some.injEq] at sameVdev
      exact .inl (sameVdev ▸ isActive)
    · exact .inr (.inl isBlocking)
    · exact .inr (.inr ⟨someActive, .inr ⟨blocker, member, blocks⟩⟩)

/-- A request leaves every pending command something to wait for. -/
theorem serves_requested (exact : queue.books.Exact config none none)
    (serves : queue.ledger.Serves everyCmd) {result : PdevQueue × Option Nat}
    (requested : Requested queue cmd result) : result.1.ledger.Serves everyCmd := by
  cases requested with
  | rejected next same =>
    intro node member kept
    have samePending : next.ledger.pending = queue.ledger.pending := same.nodes false
    rw [samePending] at member
    exact serves.mono (fun other inPending => samePending ▸ inPending)
      (fun other inPending => same.cmd false other inPending)
      (same.bitmap ▸ Finset.Subset.refl _) (fun isBlocking => same.blocking.trans isBlocking)
      member kept
  | activated next node vdev pool ofVdev isPool books =>
    have same := drawn_sameLists exact isPool cmd
    have ledger : next.ledger = (drawn queue.books node pool cmd).ledger.enter node vdev :=
      congrArg Books.ledger books
    have sameCmd : ∀ each ∈ queue.ledger.pending,
        ((drawn queue.books node pool cmd).ledger.enter node vdev).cmd each
          = queue.ledger.cmd each :=
      fun each inPending => same.cmd false each inPending
    have bitmap : queue.ledger.bitmap
        ⊆ ((drawn queue.books node pool cmd).ledger.enter node vdev).bitmap :=
      Finset.subset_insert _ _
    have blocking : queue.ledger.blocking = true →
        ((drawn queue.books node pool cmd).ledger.enter node vdev).blocking = true :=
      fun isBlocking => (Bool.or_eq_true _ _).mpr (.inl isBlocking)
    intro other member kept
    rw [ledger] at member kept ⊢
    have stays : ∀ each ∈ queue.ledger.pending,
        each ∈ ((drawn queue.books node pool cmd).ledger.enter node vdev).pending :=
      fun _ inPending => inPending
    exact serves.mono stays sameCmd bitmap blocking member kept
  | waits next node vdev pool ofVdev isPool reason books =>
    have same := drawn_sameLists exact isPool cmd
    have ownCmd : (drawn queue.books node pool cmd).ledger.cmd node = cmd :=
      Function.update_self ..
    have ledger : next.ledger = (drawn queue.books node pool cmd).ledger.await node :=
      congrArg Books.ledger books
    have stays : ∀ each ∈ queue.ledger.pending,
        each ∈ ((drawn queue.books node pool cmd).ledger.await node).pending :=
      fun each inPending => Ledger.mem_place.mpr (.inr inPending)
    have sameCmd : ∀ each ∈ queue.ledger.pending,
        ((drawn queue.books node pool cmd).ledger.await node).cmd each = queue.ledger.cmd each :=
      fun each inPending => same.cmd false each inPending
    intro other member kept
    rw [ledger] at member kept ⊢
    rcases Ledger.mem_place.mp member with isNew | before
    · subst isNew
      have ownNew : ((drawn queue.books other pool cmd).ledger.await other).cmd other = cmd :=
        ownCmd
      rw [ownNew]
      rcases waits_reason exact serves ofVdev reason with isActive | isBlocking | ⟨someActive,
        blocks | ⟨blocker, memberBlocker, blocks⟩⟩
      · exact .inl ⟨vdev, isActive, ofVdev⟩
      · exact .inr (.inl isBlocking)
      · refine .inr (.inr ⟨someActive, other, member, rfl, ?_⟩)
        rw [ownNew]
        exact blocks
      · refine .inr (.inr ⟨someActive, blocker, stays blocker memberBlocker, rfl, ?_⟩)
        rw [sameCmd blocker memberBlocker]
        exact blocks
    · exact serves.mono stays sameCmd (Finset.Subset.refl _) id before kept

end PdevQueue

end Sm8650.Wlan
