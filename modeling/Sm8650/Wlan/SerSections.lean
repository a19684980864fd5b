import Sm8650.Wlan.Ledger

/-!
# The sections keep the record

Every section under `pdev_queue_lock` keeps the ledger sound. A promotion does so only if
it would also have been allowed to a new request.
-/

namespace Sm8650.Wlan

open Function

namespace PdevQueue

open Ledger Transition

variable {τ : Type} {leaving : τ → Option (Option Nat × Bool)} {queue : PdevQueue}
  {cmd : Command} {node vdev : Nat}

theorem ledger_write (queue : PdevQueue) (node : Nat) (content : CommandList) :
    (queue.write node content).ledger = queue.ledger.rewrite node content.cmd := by
  have sameCmd : (queue.write node content).cmd = update queue.cmd node content.cmd := by
    funext other
    simp only [PdevQueue.cmd, write, update_apply]
    by_cases same : other = node
    · rw [if_pos same, if_pos same]
    · rw [if_neg same, if_neg same]
  unfold ledger
  rw [sameCmd]
  rfl

theorem write_cmd (queue : PdevQueue) (node : Nat) (content : CommandList) :
    (queue.write node content).cmd node = content.cmd := by
  simp [PdevQueue.cmd, write]

theorem ledger_release (queue : PdevQueue) (node : Nat) :
    (queue.release node).ledger = (queue.ledger.rewrite node .zero).giveBack node := by
  rw [← ledger_write queue node ⟨.zero, .none⟩]
  rfl

/-- A node that no list uses goes back to the pool. -/
theorem release_sound (sound : queue.ledger.Sound leaving) (unused : queue.ledger.uses node = 0) :
    (queue.release node).ledger.Sound leaving := by
  rw [ledger_release]
  exact (sound.rewrite unused .zero).giveBack unused

/-- Nothing is active in a new queue. -/
theorem create_sound {maxActive maxPending vdevMaxActive : Nat} {vdevMaxPending : Nat → Nat} :
    (create maxActive maxPending vdevMaxActive vdevMaxPending).ledger.Sound
      fun _ : τ => none where
  apart := by
    intro node
    have once := List.nodup_iff_count_le_one.mp
      (List.nodup_range : (List.range (maxActive + maxPending)).Nodup) node
    simpa only [uses, ledger, create, List.count_nil, Nat.zero_add] using once
  valid := by
    apply Exclusion.valid_of_unheld
    rintro (node | i)
    · apply room_unheld
      exact List.not_mem_nil
    · rfl

/-! ## Requests -/

theorem isActiveNonScanCmdAllowed_ledger (queue : PdevQueue) (cmd : Command) :
    (queue.isActiveNonScanCmdAllowed cmd).1.ledger = queue.ledger := by
  unfold isActiveNonScanCmdAllowed
  split
  · split <;> rfl
  · split <;> rfl

/-- A command that is allowed finds no command of its vdev active, and no blocking one or,
if it is blocking itself, none at all. -/
theorem isActiveNonScanCmdAllowed_true (ofVdev : cmd.vdev = some vdev)
    (allowed : (queue.isActiveNonScanCmdAllowed cmd).2 = true) :
    vdev ∉ queue.ledger.bitmap
      ∧ if cmd.isBlocking then queue.ledger.bitmap = ∅ else queue.ledger.blocking = false := by
  unfold isActiveNonScanCmdAllowed at allowed
  split at allowed
  next isBlocking =>
    split at allowed
    next => cases allowed
    next noneActive =>
      rw [anyVdevCmdActive, decide_eq_true_eq, not_not] at noneActive
      have empty : queue.ledger.bitmap = ∅ := noneActive
      rw [if_pos isBlocking, empty]
      exact ⟨Finset.notMem_empty vdev, rfl⟩
  next notBlocking =>
    split at allowed
    next => cases allowed
    next noneBlocking =>
      rw [Bool.or_eq_true, not_or, Bool.not_eq_true] at noneBlocking
      simp only [vdevCmdActive, ofVdev, Bool.not_eq_true', decide_eq_false_iff_not] at allowed
      rw [if_neg notBlocking]
      exact ⟨allowed, noneBlocking.1⟩

variable [DecidableEq τ]

/-- Adding a command that no list uses: it waits, or it becomes active if that is
allowed. -/
theorem addNonScanCmd_sound (active : Bool) (sound : queue.ledger.Sound leaving)
    (unused : queue.ledger.uses node = 0) (ofVdev : (queue.cmd node).vdev = some vdev)
    (allowed : active = true → vdev ∉ queue.ledger.bitmap
      ∧ if (queue.cmd node).isBlocking then queue.ledger.bitmap = ∅
        else queue.ledger.blocking = false) :
    (∃ next, queue.addNonScanCmd node vdev active = (next, true) ∧ next.ledger.Sound leaving)
      ∨ ∃ next, queue.addNonScanCmd node vdev active = (next, false)
        ∧ next.ledger.Sound leaving ∧ next.ledger.uses node = 0 := by
  obtain ⟨next, ⟨added, isNext⟩ | ⟨kept, same⟩⟩ := addNonScanCmd_cases queue node vdev active
  · refine .inl ⟨next, added, ?_⟩
    rw [isNext]
    cases active with
    | false => exact sound.await unused
    | true => exact sound.enter unused ofVdev (allowed rfl).1 (allowed rfl).2
  · refine .inr ⟨next, kept, ?_⟩
    rw [same]
    exact ⟨sound, unused⟩

/-- Adding a command to a node drawn from the pool. -/
theorem addDrawn_sound {active : Bool} {pool : List Nat} (content : CommandList)
    (sound : queue.ledger.Sound leaving) (drawn : queue.cmdPoolList = node :: pool)
    (ofVdev : content.cmd.vdev = some vdev) (allowed : active = true → vdev ∉ queue.ledger.bitmap
      ∧ if content.cmd.isBlocking then queue.ledger.bitmap = ∅
        else queue.ledger.blocking = false) :
    let taken := ({ queue with cmdPoolList := pool }).write node content
    (∃ next, taken.addNonScanCmd node vdev active = (next, true) ∧ next.ledger.Sound leaving)
      ∨ ∃ next, taken.addNonScanCmd node vdev active = (next, false)
        ∧ next.ledger.Sound leaving ∧ next.ledger.uses node = 0 := by
  intro taken
  have fewer : ∀ other, ({ queue with cmdPoolList := pool } : PdevQueue).ledger.uses other
      + (if node = other then 1 else 0) = queue.ledger.uses other := by
    simp only [uses, ledger, drawn, List.count_cons, beq_iff_eq]
    omega
  obtain ⟨apart, unused⟩ := sound.uses_of_taken fewer
  have isTaken : taken.ledger
      = ({ queue with cmdPoolList := pool } : PdevQueue).ledger.rewrite node content.cmd :=
    ledger_write _ node content
  have ofNode : taken.cmd node = content.cmd := write_cmd _ node content
  apply addNonScanCmd_sound
  · rw [isTaken]
    exact Sound.rewrite ⟨apart, sound.valid⟩ unused content.cmd
  · exact unused
  · rw [ofNode, ofVdev]
  · rw [ofNode]
    exact allowed

theorem enqueueSection_sound (sound : queue.ledger.Sound leaving) :
    (queue.enqueueSection cmd).1.ledger.Sound leaving := by
  unfold enqueueSection
  split
  next => exact sound
  next vdev ofVdev =>
    split
    next => exact sound
    next =>
      have same := isActiveNonScanCmdAllowed_ledger queue cmd
      have permitted := @isActiveNonScanCmdAllowed_true queue cmd vdev ofVdev
      generalize queue.isActiveNonScanCmdAllowed cmd = decision at same permitted ⊢
      obtain ⟨counted, allowed⟩ := decision
      dsimp only at same permitted ⊢
      rw [← same] at sound permitted
      split
      next => exact sound
      next =>
        split
        next => exact sound
        next node pool drawn =>
          have permittedHere : (allowed && (counted.vdevPendingList vdev).nodes.isEmpty) = true →
              _ := fun both => permitted (Bool.and_elim_left both)
          obtain ⟨next, added, soundNext⟩ | ⟨next, kept, soundNext, unused⟩ :=
            addDrawn_sound { counted.commands node with cmd := cmd } sound drawn ofVdev
              permittedHere
          · rw [added]
            dsimp only
            split
            · rw [ledger_mark]
              exact soundNext
            · exact soundNext
          · rw [kept]
            exact release_sound soundNext unused

/-! ## Removals -/

/-- A command that is removed from the pdev is in no list, and its record is taken back. -/
theorem removeNonScanCmd_sound (sound : queue.ledger.Sound leaving) (cmd : Command)
    (active : Bool) :
    (queue.removeNonScanCmd cmd active).1.ledger.Sound leaving
      ∧ ∀ node, (queue.removeNonScanCmd cmd active).2 = .removed node →
        (queue.removeNonScanCmd cmd active).1.ledger.uses node = 0 := by
  obtain ⟨next, ⟨node, vdev, removed, -, ofVdev, found, isNext⟩ | ⟨removal, kept, other, same⟩⟩ :=
    removeNonScanCmd_cases queue cmd active
  · rw [removed]
    have member := (findCmd_some found).1
    have onlyNode : ∀ other, Removal.removed node = .removed other → other = node :=
      fun other same => (Removal.removed.inj same).symm
    cases active with
    | false =>
      rw [isNext]
      refine ⟨sound.unqueue member, fun other same => ?_⟩
      rw [onlyNode other same]
      exact (sound.uses_of_taken (uses_unqueue member)).2
    | true =>
      rw [isNext]
      refine ⟨sound.depart member ofVdev, fun other same => ?_⟩
      rw [onlyNode other same]
      exact (sound.uses_of_taken (uses_leave member)).2
  · rw [kept]
    rw [same]
    exact ⟨sound, fun node isRemoved => (other node isRemoved).elim⟩

theorem dequeueSection_sound (sound : queue.ledger.Sound leaving) (active : Bool) :
    (queue.dequeueSection cmd active).1.ledger.Sound leaving := by
  obtain ⟨soundNext, unused⟩ := removeNonScanCmd_sound sound cmd active
  unfold dequeueSection
  split
  next next node removed =>
    rw [removed] at soundNext unused
    exact release_sound soundNext (unused node rfl)
  next next removal _ removed =>
    rw [removed] at soundNext
    exact soundNext

/-! ## Promotion -/

/-- The node that a section of `wlan_ser_move_non_scan_pending_to_active` takes from the
pending list: the first one that matches the command it has found. -/
def candidate (queue : PdevQueue) (lookup : Option Nat) : Option Nat :=
  (queue.search lookup).2.bind fun node =>
    queue.findCmd queue.pendingList.nodes (queue.cmd node)

/-- The promotion would also be allowed to a new request: a blocking command finds no bit
set, another one finds no blocking command active. -/
def PromotionAllowed (queue : PdevQueue) (lookup : Option Nat) : Prop :=
  ∀ node ∈ queue.candidate lookup,
    if (queue.cmd node).isBlocking then queue.vdevActiveCmdBitmap = ∅
    else queue.blockingCmdActive = false

instance (queue : PdevQueue) (lookup : Option Nat) : Decidable (queue.PromotionAllowed lookup) :=
  inferInstanceAs (Decidable (∀ node ∈ queue.candidate lookup, _))

theorem cmd_congr {next : PdevQueue} (same : next.ledger = queue.ledger) : next.cmd = queue.cmd :=
  congrArg Ledger.cmd same

theorem vdevCmdActive_congr {next : PdevQueue} (same : next.ledger = queue.ledger)
    (cmd : Command) : next.vdevCmdActive cmd = queue.vdevCmdActive cmd := by
  have sameBitmap : next.vdevActiveCmdBitmap = queue.vdevActiveCmdBitmap :=
    congrArg Ledger.bitmap same
  unfold vdevCmdActive
  rw [sameBitmap]

theorem ledger_markNext (queue : PdevQueue) (rest : List Nat) :
    (queue.markNext rest).ledger = queue.ledger := by
  cases rest with
  | nil => rfl
  | cons next _ => simp only [markNext, ledger_mark]

/-- The search changes no list, and what it finds is of a vdev without an active
command. -/
theorem searchPending_spec (queue : PdevQueue) (nodes : List Nat) :
    (queue.searchPending nodes).1.ledger = queue.ledger
      ∧ ∀ node, (queue.searchPending nodes).2 = some node →
        queue.vdevCmdActive (queue.cmd node) = false := by
  induction nodes generalizing queue with
  | nil => exact ⟨rfl, fun _ found => nomatch found⟩
  | cons node rest ih =>
    unfold searchPending
    split
    next => exact ⟨rfl, fun _ found => nomatch found⟩
    next =>
      have same := ledger_markNext queue rest
      dsimp only
      split
      next =>
        have sameLater : ((queue.markNext rest).mark node
            fun bits => { bits with markedForMovement := false }).ledger = queue.ledger :=
          (ledger_mark (queue.markNext rest) node _).trans same
        obtain ⟨sameEnd, found⟩ := ih ((queue.markNext rest).mark node
          fun bits => { bits with markedForMovement := false })
        refine ⟨sameEnd.trans sameLater, fun other isOther => ?_⟩
        rw [← vdevCmdActive_congr sameLater, ← cmd_congr sameLater]
        exact found other isOther
      next notActive =>
        refine ⟨same, fun other isOther => ?_⟩
        obtain rfl := Option.some.inj isOther
        rw [← vdevCmdActive_congr same, ← cmd_congr same]
        exact Bool.eq_false_iff.mpr notActive

theorem search_spec (queue : PdevQueue) (lookup : Option Nat) :
    (queue.search lookup).1.ledger = queue.ledger
      ∧ ∀ node, (queue.search lookup).2 = some node →
        queue.vdevCmdActive (queue.cmd node) = false := by
  cases lookup with
  | none => exact searchPending_spec queue queue.pendingList.nodes
  | some vdev =>
    refine ⟨rfl, fun node found => ?_⟩
    change queue.searchVdev vdev = some node at found
    unfold searchVdev at found
    split at found
    · cases found
    · split at found
      next => cases found
      next inactive =>
        cases found
        rw [Bool.or_eq_true, not_or, Bool.not_eq_true] at inactive
        exact inactive.1

/-- Promoting a command of a vdev without an active command, if the promotion would be
allowed to a request. -/
theorem promote_sound (sound : queue.ledger.Sound leaving)
    (inactive : queue.vdevCmdActive cmd = false)
    (allowed : ∀ node, queue.findCmd queue.pendingList.nodes cmd = some node →
      if (queue.cmd node).isBlocking then queue.ledger.bitmap = ∅
      else queue.ledger.blocking = false) : (queue.promote cmd).1.ledger.Sound leaving := by
  obtain ⟨soundNext, unused⟩ := removeNonScanCmd_sound sound cmd false
  unfold promote
  obtain ⟨next, ⟨node, vdev, removed, ofCmd, ofVdev, found, isNext⟩ |
    ⟨removal, kept, other, same⟩⟩ := removeNonScanCmd_cases queue cmd false
  · rw [removed] at soundNext unused
    rw [removed, ofCmd]
    dsimp only at soundNext unused ⊢
    have sameCmd : next.cmd = queue.cmd := congrArg Ledger.cmd isNext
    have free : vdev ∉ next.ledger.bitmap := by
      rw [vdevCmdActive, ofCmd] at inactive
      rw [isNext]
      exact of_decide_eq_false inactive
    have permitted : if (next.cmd node).isBlocking then next.ledger.bitmap = ∅
        else next.ledger.blocking = false := by
      rw [isNext, sameCmd]
      exact allowed node found
    obtain ⟨final, added, soundFinal⟩ | ⟨final, notAdded, soundFinal, unusedFinal⟩ :=
      addNonScanCmd_sound true soundNext (unused node rfl) (sameCmd ▸ ofVdev)
        fun _ => ⟨free, permitted⟩
    · rw [added]
      have marked : (final.mark node
          fun bits => { bits with markedForActivation := true }).ledger.Sound leaving := by
        rw [ledger_mark]
        exact soundFinal
      exact marked
    · rw [notAdded]
      exact soundFinal.giveBack unusedFinal
  · rw [kept] at soundNext ⊢
    cases removal with
    | removed node => exact (other node rfl).elim
    | failure | pending => exact soundNext

theorem moveSection_sound {lookup : Option Nat} (sound : queue.ledger.Sound leaving)
    (allowed : queue.PromotionAllowed lookup) :
    (queue.moveSection lookup).1.ledger.Sound leaving := by
  obtain ⟨same, inactive⟩ := search_spec queue lookup
  unfold PromotionAllowed candidate at allowed
  unfold moveSection
  generalize queue.search lookup = searched at same inactive allowed
  obtain ⟨next, found⟩ := searched
  rw [← same] at sound
  cases found with
  | none => exact sound
  | some node =>
    apply promote_sound sound
    · rw [vdevCmdActive_congr same, cmd_congr same]
      exact inactive node rfl
    · intro promoted isPromoted
      rw [cmd_congr same, same]
      rw [cmd_congr same] at isPromoted
      have isCandidate : queue.findCmd queue.pendingList.nodes (queue.cmd node) = some promoted :=
        (findCmd_congr same false).symm.trans isPromoted
      exact allowed promoted isCandidate

theorem activateSection_ledger (queue : PdevQueue) (node : Nat) :
    (queue.activateSection node).ledger = queue.ledger :=
  ledger_mark queue node _

end PdevQueue

/-! ## Cancelation -/

/-- What a thread still has to take back when a cancelation has stopped. -/
def CancelStop.owed (active : Bool) : CancelStop → Option (Option Nat × Bool)
  | .finished => none
  | .removed cmd _ _ => if active then some (Ledger.entry cmd) else none

theorem mem_of_nextNode {nodes : List Nat} {last : Option Nat} {node : Nat}
    (isNext : nextNode nodes last = some node) : node ∈ nodes := by
  cases last with
  | none => exact List.mem_of_head? isNext
  | some previous =>
    apply (List.dropWhile_sublist _).mem
    exact List.mem_of_mem_tail (List.mem_of_head? isNext)

namespace PdevQueue

open Ledger

variable {τ : Type} [DecidableEq τ] {leaving : τ → Option (Option Nat × Bool)} {queue : PdevQueue}
  {cmd : Command} {node : Nat} {i : τ} {active : Bool} {pnode : Option Nat} {qsize : Nat}

/-- A node taken out of a list of the pdev is in none, whether the record of its command is
left behind or kept by a thread. -/
theorem taken_sound (sound : queue.ledger.Sound leaving) (nothing : leaving i = none)
    (member : node ∈ (queue.pdevList active).nodes) :
    let taken := queue.setPdevList active ((queue.pdevList active).nodes.erase node)
    taken.ledger.uses node = 0 ∧ taken.ledger.Sound leaving
      ∧ taken.ledger.Sound (update leaving i
        (if active then some (entry (queue.cmd node)) else none)) := by
  cases active with
  | false =>
    have unchanged : update leaving i none = leaving := by rw [← nothing, update_eq_self]
    exact ⟨(sound.uses_of_taken (uses_unqueue member)).2, sound.unqueue member,
      unchanged.symm ▸ sound.unqueue member⟩
  | true =>
    exact ⟨(sound.uses_of_taken (uses_leave member)).2, sound.leave member, sound.cancel member i⟩

theorem cancelNode_sound (sound : queue.ledger.Sound leaving) (nothing : leaving i = none)
    (member : node ∈ (queue.pdevList active).nodes) :
    (queue.cancelNode node active pnode qsize).1.ledger.Sound
      (update leaving i ((queue.cancelNode node active pnode qsize).2.owed active)) := by
  have unchanged : update leaving i none = leaving := by rw [← nothing, update_eq_self]
  obtain ⟨unused, soundTaken, soundOwed⟩ := taken_sound sound nothing member
  unfold cancelNode
  dsimp only
  split
  next => exact unchanged.symm ▸ soundTaken
  next vdev ofVdev =>
    split
    next => exact unchanged.symm ▸ soundTaken
    next =>
      rw [← ledger_setVdevList _ vdev active] at unused soundOwed
      exact release_sound soundOwed unused

theorem cancelLoop_sound (request : CancelRequest) (timerFound : Bool) (qsize : Nat)
    (nnode pnode : Option Nat) (sound : queue.ledger.Sound leaving) (nothing : leaving i = none) :
    (cancelLoop request timerFound qsize queue nnode pnode).1.ledger.Sound
      (update leaving i
        ((cancelLoop request timerFound qsize queue nnode pnode).2.owed
          request.isActiveQueue)) := by
  have unchanged : update leaving i none = leaving := by rw [← nothing, update_eq_self]
  induction qsize generalizing queue nnode pnode with
  | zero => exact unchanged.symm ▸ sound
  | succ qsize ih =>
    unfold cancelLoop
    split
    next => exact unchanged.symm ▸ sound
    next node isNext =>
      have member := mem_of_nextNode isNext
      split
      next => exact ih (some node) (some node) sound
      next =>
        split
        next active =>
          rw [active] at member
          split
          next => exact unchanged.symm ▸ sound
          next =>
            split
            next =>
              rw [← ledger_mark queue node fun bits => { bits with activeMarkedForCancel := true }]
                at sound
              exact ih (some node) pnode sound
            next =>
              split
              next =>
                rw [active]
                exact cancelNode_sound sound nothing member
              next => exact unchanged.symm ▸ sound
        next pending =>
          rw [Bool.not_eq_true] at pending
          rw [pending] at member ⊢
          exact cancelNode_sound sound nothing member

/-- The record that a cancelation has kept is taken back. -/
theorem cancelFinish_sound {request : CancelRequest} (sound : queue.ledger.Sound leaving)
    (kept : leaving i = if request.isActiveQueue then some (entry cmd) else none) :
    (queue.cancelFinish request cmd).ledger.Sound (update leaving i none) := by
  unfold cancelFinish
  cases active : request.isActiveQueue with
  | false =>
    rw [active, if_neg Bool.false_ne_true] at kept
    rw [← kept, update_eq_self]
    exact sound
  | true =>
    rw [active] at kept
    -- A command without a vdev would hold a key that is never taken.
    have held : (queue.ledger.room leaving).held (.inr i) = some (cmd.vdev, cmd.isBlocking) :=
      kept
    obtain ⟨vdev, -, ofVdev⟩ := sound.valid.covered held
    rw [entry, ← ofVdev] at kept
    rw [← ofVdev]
    exact sound.finish kept

theorem cancelResume_sound {request : CancelRequest} {timerFound : Bool}
    (sound : queue.ledger.Sound leaving)
    (kept : leaving i = if request.isActiveQueue then some (entry cmd) else none) :
    (queue.cancelResume request timerFound cmd pnode qsize).1.ledger.Sound
      (update leaving i
        ((queue.cancelResume request timerFound cmd pnode qsize).2.owed
          request.isActiveQueue)) := by
  have finished := cancelFinish_sound sound kept
  unfold cancelResume
  split
  next => exact finished
  next =>
    have looped := cancelLoop_sound request timerFound qsize pnode pnode finished
      (update_self i none leaving)
    rw [update_idem] at looped
    exact looped

end PdevQueue

end Sm8650.Wlan
