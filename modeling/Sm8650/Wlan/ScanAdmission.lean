import Sm8650.Wlan.ScanQueue

/-!
# Admission of scan commands

No operation makes more scan commands of a psoc active than are allowed. A pending command
waits only while that many are active, as long as each slot that is given up is taken by a
pending command of the same pdev, or no command waits at all.
-/

namespace Sm8650.Wlan

open Transition PdevQueue ScanQueues Function

variable {n : Nat} {config : ScanConfig n} {queues : ScanQueues n} {pdev : Fin n}
  {queue : PdevQueue} {node : Nat} {cmd : Command}

/-! ## Counting -/

/-- The count changes with one queue. -/
theorem activeScanCmdCount_set (queues : ScanQueues n) (pdev : Fin n) (queue : PdevQueue) :
    (queues.set pdev queue).activeScanCmdCount + (queues pdev).activeList.nodes.length
      = queues.activeScanCmdCount + queue.activeList.nodes.length := by
  have updated : ∀ other, (queues.set pdev queue other).activeList.nodes.length
      = update (fun other => (queues other).activeList.nodes.length) pdev
        queue.activeList.nodes.length other := by
    intro other
    unfold ScanQueues.set
    rw [update_apply, update_apply]
    split <;> rfl
  have parts := Finset.add_sum_erase Finset.univ
    (fun other => (queues other).activeList.nodes.length) (Finset.mem_univ pdev)
  unfold activeScanCmdCount
  rw [Finset.sum_congr rfl fun other _ => updated other, Finset.sum_update_of_mem (Finset.mem_univ
    pdev), Finset.sdiff_singleton_eq_erase]
  omega

theorem length_erase {nodes : List Nat} (member : node ∈ nodes) :
    (nodes.erase node).length + 1 = nodes.length := by
  rw [List.length_erase_of_mem member]
  exact Nat.sub_add_cancel (List.length_pos_of_mem member)

/-- A list that has room takes a node more, and the other list is as it was. -/
theorem lists_of_added {active : Bool} {next : PdevQueue}
    (added : queue.addToPdevQueue node active = some next) :
    next.activeList.nodes.length = queue.activeList.nodes.length + (if active then 1 else 0)
      ∧ (active = true → next.pendingList = queue.pendingList)
      ∧ (active = false → next.pendingList.nodes ≠ []) := by
  unfold addToPdevQueue at added
  dsimp only at added
  split at added
  next => cases added
  next =>
    obtain rfl := Option.some.inj added
    cases active with
    | true => exact ⟨Ledger.length_place queue.ledger node _, fun _ => rfl, Bool.noConfusion⟩
    | false =>
      refine ⟨rfl, Bool.noConfusion, fun _ => ?_⟩
      have inPlace : node ∈ queue.ledger.place node queue.pendingList.nodes :=
        Ledger.mem_place.mpr (.inl rfl)
      exact List.ne_nil_of_mem inPlace

/-- What a removal does with the active list of a queue. -/
theorem removeFromPdevQueue_cases (queue : PdevQueue) (cmd : Command) (active : Bool) :
    (∃ node, queue.findCmd (queue.pdevList active).nodes cmd = some node
      ∧ (queue.commands node).cmdInUse.markedForActivation = false
      ∧ queue.removeFromPdevQueue cmd active
        = (queue.setPdevList active ((queue.pdevList active).nodes.erase node), .removed node))
    ∨ (∃ node, (queue.commands node).cmdInUse.markedForActivation = true
      ∧ queue.removeFromPdevQueue cmd active
        = (queue.mark node fun bits => { bits with activeMarkedForRemoval := true }, .pending))
    ∨ (queue.findCmd (queue.pdevList active).nodes cmd = none
      ∧ queue.removeFromPdevQueue cmd active = (queue, .failure)) := by
  unfold removeFromPdevQueue
  cases found : queue.findCmd (queue.pdevList active).nodes cmd with
  | none => exact .inr (.inr ⟨rfl, rfl⟩)
  | some node =>
    dsimp only
    cases isMarked : (queue.commands node).cmdInUse.markedForActivation with
    | true => exact .inr (.inl ⟨node, isMarked, rfl⟩)
    | false => exact .inl ⟨node, rfl, isMarked, rfl⟩

/-! ## The limit -/

/-- No more scan commands are active than are allowed. -/
def ScanWithin (config : ScanConfig n) (queues : ScanQueues n) : Prop :=
  queues.activeScanCmdCount ≤ config.maxActiveScans

theorem within_of_length_le (within : ScanWithin config queues)
    (fewer : queue.activeList.nodes.length ≤ (queues pdev).activeList.nodes.length) :
    ScanWithin config (queues.set pdev queue) := by
  have counted := activeScanCmdCount_set queues pdev queue
  unfold ScanWithin at within ⊢
  omega

/-- A command that is allowed may become active. -/
theorem within_of_allowed (allowed : queues.isActiveScanCmdAllowed config cmd = true)
    (oneMore : queue.activeList.nodes.length ≤ (queues pdev).activeList.nodes.length + 1) :
    ScanWithin config (queues.set pdev queue) := by
  have counted := activeScanCmdCount_set queues pdev queue
  unfold isActiveScanCmdAllowed at allowed
  rw [Bool.and_eq_true, decide_eq_true_eq] at allowed
  unfold ScanWithin
  omega

theorem cancelScanLoop_active_length (selects : PdevQueue → Command → Bool) (active : Bool)
    (found : Command → Bool) (qsize : Nat) (queue : PdevQueue) (nnode pnode : Option Nat) :
    (cancelScanLoop selects active found qsize queue nnode pnode).activeList.nodes.length
      ≤ queue.activeList.nodes.length := by
  induction qsize generalizing queue nnode pnode with
  | zero => exact Nat.le_refl _
  | succ qsize ih =>
    unfold cancelScanLoop
    have shorter : ∀ node, ((queue.setPdevList active
        ((queue.pdevList active).nodes.erase node)).release node).activeList.nodes.length
          ≤ queue.activeList.nodes.length := by
      intro node
      cases active with
      | true => exact List.length_erase_le ..
      | false => exact Nat.le_refl _
    split
    next => exact Nat.le_refl _
    next node isNext =>
      split
      next => exact ih queue _ _
      next =>
        split
        next =>
          split
          next => exact ih (queue.mark node _) _ _
          next =>
            split
            next => exact (ih _ _ _).trans (shorter node)
            next => exact Nat.le_refl _
        next => exact (ih _ _ _).trans (shorter node)

section

variable (within : ScanWithin config queues)

include within

theorem enqueueScan_within : ScanWithin config (queues.enqueueScan config cmd).1 := by
  unfold enqueueScan
  split
  next => exact within
  next vdev ofVdev =>
    dsimp only
    split
    next => exact within
    next =>
      split
      next => exact within
      next =>
        split
        next => exact within
        next node pool isPool =>
          split
          next => exact within_of_length_le within (Nat.le_refl _)
          next added isAdded =>
            have lengths := (lists_of_added isAdded).1
            split
            next isActive =>
              rw [if_pos isActive] at lengths
              exact within_of_allowed (Bool.and_elim_left isActive) lengths.le
            next isPending =>
              rw [if_neg isPending] at lengths
              exact within_of_length_le within lengths.le

theorem dequeueScan_within : ScanWithin config (queues.dequeueScan config cmd).1 := by
  unfold dequeueScan
  split
  next => exact within
  next vdev ofVdev =>
    dsimp only
    rcases removeFromPdevQueue_cases (queues (config.pdevOf vdev)) cmd true with
      ⟨node, -, -, removed⟩ | ⟨node, -, removed⟩ | ⟨-, removed⟩
    · rw [removed]
      exact within_of_length_le within (List.length_erase_le ..)
    · rw [removed]
      exact within_of_length_le within (Nat.le_refl _)
    · rw [removed]
      exact within_of_length_le within (Nat.le_refl _)

theorem moveScanPendingToActive_within :
    ScanWithin config (queues.moveScanPendingToActive config pdev).1 := by
  unfold moveScanPendingToActive
  dsimp only
  split
  next => exact within
  next front rest isList =>
    split
    next => exact within
    next allowed =>
      rw [Bool.not_eq_false] at allowed
      rcases removeFromPdevQueue_cases (queues pdev) ((queues pdev).cmd front) false with
        ⟨node, -, -, removed⟩ | ⟨node, -, removed⟩ | ⟨-, removed⟩
      · rw [removed]
        dsimp only
        split
        next added isAdded => exact within_of_allowed allowed (lists_of_added isAdded).1.le
        next => exact within_of_length_le within (Nat.le_refl _)
      · rw [removed]
        exact within_of_length_le within (Nat.le_refl _)
      · rw [removed]
        exact within_of_length_le within (Nat.le_refl _)

/-- Every section keeps the limit. -/
theorem ScanFrame.step_within (outcome : Command → Bool)
    (frame : ScanFrame n) : ScanWithin config (frame.step config queues outcome).1 := by
  unfold ScanFrame.step
  cases frame with
  | idle => exact within
  | enqueue cmd =>
    have keeps := @enqueueScan_within _ _ _ cmd within
    dsimp only
    generalize queues.enqueueScan config cmd = result at keeps
    obtain ⟨next, found⟩ := result
    cases found with
    | none | some _ => exact keeps
  | activate pdev node => exact within_of_length_le within (Nat.le_refl _)
  | activated pdev node failed =>
    dsimp only
    split
    next => exact within
    next =>
      split
      next => exact within
      next => exact within
  | dequeue ref =>
    have keeps := @dequeueScan_within _ _ _ (ref.read queues) within
    dsimp only
    generalize queues.dequeueScan config (ref.read queues) = result at keeps
    obtain ⟨next, found⟩ := result
    cases found with
    | none | some _ => exact keeps
  | move pdev =>
    have keeps := @moveScanPendingToActive_within _ _ _ pdev within
    dsimp only
    generalize queues.moveScanPendingToActive config pdev = result at keeps
    obtain ⟨next, found⟩ := result
    cases found with
    | none | some _ => exact keeps
  | cancel ref type active =>
    dsimp only
    split
    next => exact within
    next => exact within_of_length_le within (cancelScanLoop_active_length ..)

end

end Sm8650.Wlan
