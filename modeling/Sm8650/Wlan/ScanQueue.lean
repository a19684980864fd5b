import Mathlib.Data.List.TakeWhile
import Sm8650.Wlan.Scan
import Sm8650.Wlan.SerSections

/-!
# The scan queue of a pdev

Each section uses one queue. What is said here of a queue is that its nodes are in one list
each, that its pending commands name a vdev, and that only the command that is about to be
activated is marked so.
-/

namespace Sm8650.Wlan

open Transition PdevQueue Function Ledger

/-- A queue between two sections; `activating` is the node that is about to be activated. -/
structure ScanSound (queue : PdevQueue) (activating : Option Nat) : Prop where
  apart : ∀ node, queue.ledger.uses node ≤ 1
  ofVdev : ∀ node ∈ queue.pendingList.nodes, (queue.cmd node).vdev.isSome = true
  fits : queue.activeList.nodes.length ≤ queue.activeList.maxSize
  marked : ∀ node, (queue.commands node).cmdInUse.markedForActivation = true →
    activating = some node
  calm : ∀ node, (queue.commands node).cmdInUse.activeMarkedForRemoval = false
    ∧ (queue.commands node).cmdInUse.activeMarkedForCancel = false

namespace ScanSound

variable {queue : PdevQueue} {activating : Option Nat} {node : Nat} {active : Bool}
  {cmd : Command}

/-- Nothing is marked between two operations. -/
theorem unmarked (sound : ScanSound queue none) (node : Nat) :
    (queue.commands node).cmdInUse.markedForActivation = false := by
  rw [← Bool.not_eq_true]
  exact fun isMarked => nomatch sound.marked node isMarked

theorem not_mem_pending (unused : queue.ledger.uses node = 0) : node ∉ queue.pendingList.nodes := by
  rw [← List.count_eq_zero]
  change _ + queue.pendingList.nodes.count node + _ = 0 at unused
  omega

section

variable (sound : ScanSound queue activating)

include sound

/-- A node is drawn from the pool. -/
theorem draw {pool : List Nat} (drawn : queue.cmdPoolList = node :: pool) :
    ScanSound { queue with cmdPoolList := pool } activating
      ∧ ({ queue with cmdPoolList := pool } : PdevQueue).ledger.uses node = 0 := by
  have taken : ∀ other, ({ queue with cmdPoolList := pool } : PdevQueue).ledger.uses other
      + (if node = other then 1 else 0) = queue.ledger.uses other := by
    intro other
    change queue.activeList.nodes.count other + queue.pendingList.nodes.count other
      + pool.count other + _ = queue.activeList.nodes.count other
        + queue.pendingList.nodes.count other + queue.cmdPoolList.count other
    rw [drawn, List.count_cons]
    simp only [beq_iff_eq]
    omega
  obtain ⟨apart, unused⟩ := apart_taken sound.apart taken
  exact ⟨⟨apart, sound.ofVdev, sound.fits, sound.marked, sound.calm⟩, unused⟩

/-- The command of a node that no list uses is written, with bits that say nothing of an
activation. -/
theorem write (unused : queue.ledger.uses node = 0)
    {content : CommandList} (isUnmarked : content.cmdInUse.markedForActivation = false)
    (isCalm : content.cmdInUse.activeMarkedForRemoval = false
      ∧ content.cmdInUse.activeMarkedForCancel = false) :
    ScanSound (queue.write node content) activating := by
  have ledger := ledger_write queue node content
  constructor
  · intro other
    exact sound.apart other
  · intro other member
    have differs : other ≠ node := by
      rintro rfl
      exact not_mem_pending unused member
    have same : (queue.write node content).cmd other = queue.cmd other := by
      change (queue.write node content).ledger.cmd other = _
      rw [ledger]
      exact update_of_ne differs ..
    rw [same]
    exact sound.ofVdev other member
  · exact sound.fits
  · intro other isMarked
    change (update queue.commands node content other).cmdInUse.markedForActivation = true
      at isMarked
    rw [update_apply] at isMarked
    split at isMarked
    · exact absurd (isUnmarked.symm.trans isMarked) Bool.false_ne_true
    · exact sound.marked other isMarked
  · intro other
    change (update queue.commands node content other).cmdInUse.activeMarkedForRemoval = false
      ∧ (update queue.commands node content other).cmdInUse.activeMarkedForCancel = false
    rw [update_apply]
    split
    · exact isCalm
    · exact sound.calm other

/-- A node that no list uses goes back to the pool. -/
theorem giveBack (unused : queue.ledger.uses node = 0) :
    ScanSound { queue with cmdPoolList := queue.cmdPoolList ++ [node] } activating :=
  ⟨apart_added sound.apart unused (@uses_giveBack queue.ledger node), sound.ofVdev,
    sound.fits, sound.marked, sound.calm⟩

theorem release (unused : queue.ledger.uses node = 0) :
    ScanSound (queue.release node) activating := by
  have written : ScanSound (queue.write node ⟨.zero, .none⟩) activating :=
    sound.write unused rfl ⟨rfl, rfl⟩
  apply written.giveBack
  exact unused

/-- A node is taken out of a list. -/
theorem take (member : node ∈ (queue.pdevList active).nodes) :
    ScanSound (queue.setPdevList active ((queue.pdevList active).nodes.erase node)) activating
      ∧ (queue.setPdevList active ((queue.pdevList active).nodes.erase node)).ledger.uses node
        = 0 := by
  cases active with
  | true =>
    have taken := apart_taken sound.apart (@uses_leave queue.ledger node member)
    refine ⟨⟨taken.1, sound.ofVdev, ?_, sound.marked, sound.calm⟩, taken.2⟩
    exact (List.length_erase_le ..).trans sound.fits
  | false =>
    have taken := apart_taken sound.apart (@uses_unqueue queue.ledger node member)
    refine ⟨⟨taken.1, fun other inRest => ?_, sound.fits, sound.marked, sound.calm⟩, taken.2⟩
    exact sound.ofVdev other (List.mem_of_mem_erase inRest)

/-- A node that no list uses is added to a list that has room. -/
theorem add (unused : queue.ledger.uses node = 0)
    (ofVdev : (queue.cmd node).vdev.isSome = true) {next : PdevQueue}
    (added : queue.addToPdevQueue node active = some next) : ScanSound next activating := by
  unfold addToPdevQueue at added
  dsimp only at added
  split at added
  next => cases added
  next hasRoom =>
    obtain rfl := Option.some.inj added
    cases active with
    | true =>
      refine ⟨apart_added sound.apart unused (@uses_enter queue.ledger node 0),
        sound.ofVdev, ?_, sound.marked, sound.calm⟩
      change (queue.ledger.place node queue.activeList.nodes).length ≤ _
      rw [length_place]
      exact Nat.succ_le_of_lt (Nat.lt_of_le_of_ne sound.fits hasRoom)
    | false =>
      refine ⟨apart_added sound.apart unused (@uses_await queue.ledger node),
        fun other member => ?_, sound.fits, sound.marked, sound.calm⟩
      change other ∈ queue.ledger.place node queue.pendingList.nodes at member
      rcases mem_place.mp member with isNode | before
      · rw [isNode]
        exact ofVdev
      · exact sound.ofVdev other before

end

end ScanSound

end Sm8650.Wlan
