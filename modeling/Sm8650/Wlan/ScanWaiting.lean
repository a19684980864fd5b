import Sm8650.Wlan.ScanAdmission

/-!
# What pending scan commands wait for

Between two operations a scan command is pending only while as many are active as are
allowed. A removal promotes one command of its own pdev, and a cancelation none, so this
needs that a pending command of that pdev takes the slot, or that none is pending.
-/

namespace Sm8650.Wlan

open Transition PdevQueue ScanQueues Function List

variable {n : Nat} {config : ScanConfig n} {queues next : ScanQueues n} {pdev : Fin n}
  {queue : PdevQueue} {node : Nat} {cmd : Command} {activating : Fin n → Option Nat}

/-! ## Sections -/

/-- Pending commands wait only while as many are active as are allowed. -/
def ScanFull (config : ScanConfig n) (queues : ScanQueues n) : Prop :=
  ∀ pdev, (queues pdev).pendingList.nodes ≠ [] → queues.activeScanCmdCount = config.maxActiveScans

/-- The queues between two sections. -/
structure ScanState (config : ScanConfig n) (queues : ScanQueues n)
    (activating : Fin n → Option Nat) : Prop where
  sound : ∀ pdev, ScanSound (queues pdev) (activating pdev)
  within : ScanWithin config queues
  full : ScanFull config queues

/-- No command is about to be activated. -/
abbrev noActivation : Fin n → Option Nat := fun _ => none

theorem sound_set (sound : ∀ pdev, ScanSound (queues pdev) (activating pdev))
    {own : Option Nat} (soundQueue : ScanSound queue own) (other : Fin n) :
    ScanSound (queues.set pdev queue other) (update activating pdev own other) := by
  unfold ScanQueues.set
  rw [update_apply, update_apply]
  split
  next => exact soundQueue
  next => exact sound other

/-- A queue is set while nothing is about to be activated. -/
theorem sound_set_none (sound : ∀ pdev, ScanSound (queues pdev) none)
    (soundQueue : ScanSound queue none) (other : Fin n) :
    ScanSound (queues.set pdev queue other) none := by
  unfold ScanQueues.set
  rw [update_apply]
  split
  next => exact soundQueue
  next => exact sound other

theorem full_set_of_same (full : ScanFull config queues)
    (pending : queue.pendingList.nodes ≠ [] → (queues pdev).pendingList.nodes ≠ [])
    (active : queue.activeList.nodes.length = (queues pdev).activeList.nodes.length) :
    ScanFull config (queues.set pdev queue) := by
  have counted := activeScanCmdCount_set queues pdev queue
  rw [active, Nat.add_right_cancel_iff] at counted
  intro other hasPending
  rw [counted]
  unfold ScanQueues.set at hasPending
  rw [update_apply] at hasPending
  split at hasPending
  next => exact full pdev (pending hasPending)
  next => exact full other hasPending

namespace ScanSound

variable {own : Option Nat}

theorem mark (sound : ScanSound queue none) (node : Nat) :
    ScanSound (queue.mark node fun bits => { bits with markedForActivation := true })
      (some node) := by
  have same := ledger_mark queue node fun bits => { bits with markedForActivation := true }
  refine ⟨?_, ?_, sound.fits, fun other isMarked => ?_, fun other => ?_⟩
  · exact sound.apart
  · rw [cmd_congr same]
    exact sound.ofVdev
  · change (update queue.commands node _ other).cmdInUse.markedForActivation = true at isMarked
    rw [update_apply] at isMarked
    split at isMarked
    next isNode => rw [isNode]
    next => cases sound.marked other isMarked
  · change (update queue.commands node _ other).cmdInUse.activeMarkedForRemoval = false
      ∧ (update queue.commands node _ other).cmdInUse.activeMarkedForCancel = false
    rw [update_apply]
    split
    next => exact sound.calm node
    next => exact sound.calm other

theorem activate (sound : ScanSound queue (some node)) :
    ScanSound (queue.activateSection node) none := by
  have same := activateSection_ledger queue node
  refine ⟨?_, ?_, sound.fits, fun other isMarked => ?_, fun other => ?_⟩
  · exact sound.apart
  · rw [cmd_congr same]
    exact sound.ofVdev
  · change (update queue.commands node _ other).cmdInUse.markedForActivation = true at isMarked
    rw [update_apply] at isMarked
    split at isMarked
    next => cases isMarked
    next differs => exact absurd (Option.some.inj (sound.marked other isMarked)).symm differs
  · change (update queue.commands node _ other).cmdInUse.activeMarkedForRemoval = false
      ∧ (update queue.commands node _ other).cmdInUse.activeMarkedForCancel = false
    rw [update_apply]
    split
    next => exact sound.calm node
    next => exact sound.calm other

end ScanSound

/-- What follows a section: nothing, or the activation of a command. -/
def ScanFollows (config : ScanConfig n) (queues : ScanQueues n) : Option (Fin n × Nat) → Prop
  | none => ScanState config queues noActivation
  | some (pdev, node) =>
    ScanState config queues (update noActivation pdev (some node))

/-- A command that is allowed finds no command pending in another queue. -/
theorem full_set_of_empty (state : ScanState config queues activating)
    (allowed : queues.isActiveScanCmdAllowed config cmd = true)
    (isEmpty : queue.pendingList.nodes = []) : ScanFull config (queues.set pdev queue) := by
  intro other hasPending
  unfold isActiveScanCmdAllowed at allowed
  rw [Bool.and_eq_true, decide_eq_true_eq] at allowed
  unfold ScanQueues.set at hasPending
  rw [update_apply] at hasPending
  split at hasPending
  next => exact absurd isEmpty hasPending
  next => exact absurd (state.full other hasPending) allowed.2.ne

variable {vdev : Nat}

/-- A command has to wait only while as many are active as are allowed. -/
theorem full_of_denied (state : ScanState config queues activating) (ofVdev : cmd.vdev = some vdev)
    (denied : (queues.isActiveScanCmdAllowed config cmd && (queues pdev).pendingList.nodes.isEmpty) = false)
    : queues.activeScanCmdCount = config.maxActiveScans := by
  rcases (Bool.and_eq_false_iff).mp denied with notAllowed | hasPending
  · unfold isActiveScanCmdAllowed at notAllowed
    rw [ofVdev, Option.isSome_some, Bool.true_and, decide_eq_false_iff_not, Nat.not_lt]
      at notAllowed
    exact Nat.le_antisymm state.within notAllowed
  · rw [isEmpty_eq_false_iff] at hasPending
    exact state.full pdev hasPending

/-- A request keeps the limit and the queues. -/
theorem enqueueScan_follows (state : ScanState config queues noActivation) (cmd : Command) :
    ScanFollows config (queues.enqueueScan config cmd).1 (queues.enqueueScan config cmd).2 := by
  have within := @enqueueScan_within _ _ _ cmd state.within
  unfold enqueueScan at within ⊢
  split
  next => exact state
  next vdev ofVdev =>
    rw [ofVdev] at within
    dsimp only at within ⊢
    split
    next => exact state
    next hasCb =>
      rw [if_neg hasCb] at within
      split
      next => exact state
      next notFound =>
        rw [if_neg notFound] at within
        split
        next => exact state
        next node pool isPool =>
          rw [isPool] at within
          dsimp only at within
          generalize isTaken : ({ queues (config.pdevOf vdev) with cmdPoolList := pool } : PdevQueue).write
            node { (queues (config.pdevOf vdev)).commands node with cmd } = taken at within ⊢
          have drawn := (state.sound (config.pdevOf vdev)).draw isPool
          have isUnmarked := (state.sound (config.pdevOf vdev)).unmarked node
          have isCalm := (state.sound (config.pdevOf vdev)).calm node
          have soundTaken : ScanSound taken none := by
            rw [← isTaken]
            exact drawn.1.write drawn.2 isUnmarked isCalm
          have unused : taken.ledger.uses node = 0 := by
            rw [← isTaken]
            exact drawn.2
          have takenVdev : (taken.cmd node).vdev.isSome = true := by
            rw [← isTaken, write_cmd]
            exact ofVdev ▸ rfl
          have sameActive : taken.activeList = (queues (config.pdevOf vdev)).activeList := by
            rw [← isTaken]
            rfl
          have samePending : taken.pendingList = (queues (config.pdevOf vdev)).pendingList := by
            rw [← isTaken]
            rfl
          split
          next isFull =>
            rw [isFull] at within
            refine ⟨sound_set_none state.sound (soundTaken.release unused), within, ?_⟩
            refine full_set_of_same state.full (fun hasPending => ?_) ?_
            · rw [← samePending]
              exact hasPending
            · rw [← sameActive]
              rfl
          next added isAdded =>
            rw [isAdded] at within
            dsimp only at within
            have soundAdded := soundTaken.add unused takenVdev isAdded
            obtain ⟨lengths, activeKeeps, pendingFills⟩ := lists_of_added isAdded
            split
            next isActive =>
              rw [if_pos isActive] at within
              rw [Bool.and_eq_true, List.isEmpty_iff] at isActive
              refine ⟨sound_set state.sound (soundAdded.mark node), within, ?_⟩
              apply full_set_of_empty state isActive.1
              change added.pendingList.nodes = []
              rw [activeKeeps ((Bool.and_eq_true _ _).mpr ⟨isActive.1, List.isEmpty_iff.mpr isActive.2⟩),
                samePending]
              exact isActive.2
            next isPending =>
              rw [if_neg isPending] at within lengths
              refine ⟨sound_set_none state.sound soundAdded, within, fun other _ => ?_⟩
              have counted := activeScanCmdCount_set queues (config.pdevOf vdev) added
              rw [lengths, sameActive, Nat.add_zero, Nat.add_right_cancel_iff] at counted
              exact counted.trans (full_of_denied state ofVdev (Bool.eq_false_iff.mpr isPending))

/-- What a promotion relies on: the list of the pdev has room, and a command is pending
somewhere only if one is pending there, with one slot free. -/
structure ScanMoves (config : ScanConfig n) (queues : ScanQueues n) (pdev : Fin n) : Prop where
  sound : ∀ other, ScanSound (queues other) none
  within : ScanWithin config queues
  room : (queues pdev).activeList.nodes.length < (queues pdev).activeList.maxSize
  slot : ∀ other, (queues other).pendingList.nodes ≠ [] → (queues pdev).pendingList.nodes ≠ []
    ∧ queues.activeScanCmdCount + 1 = config.maxActiveScans

/-- A slot that a removal gives up is taken by a pending command of the same pdev, or no
command is pending at all. -/
def ScanRemovalFills (config : ScanConfig n) (queues : ScanQueues n) (cmd : Command) : Prop :=
  ∀ vdev ∈ cmd.vdev,
    ((queues (config.pdevOf vdev)).findCmd (queues (config.pdevOf vdev)).activeList.nodes cmd).isSome
      → (queues (config.pdevOf vdev)).pendingList.nodes ≠ []
        ∨ ∀ other, (queues other).pendingList.nodes = []

instance (config : ScanConfig n) (queues : ScanQueues n) (cmd : Command) :
    Decidable (ScanRemovalFills config queues cmd) :=
  inferInstanceAs (Decidable (∀ vdev ∈ cmd.vdev, _))

/-- A removal keeps the queues, or leads to a promotion. -/
theorem dequeueScan_moves (state : ScanState config queues noActivation)
    (fills : ScanRemovalFills config queues cmd) :
    match (queues.dequeueScan config cmd).2 with
    | none => ScanState config (queues.dequeueScan config cmd).1 noActivation
    | some pdev => ScanMoves config (queues.dequeueScan config cmd).1 pdev := by
  have within := @dequeueScan_within _ _ _ cmd state.within
  unfold dequeueScan at within ⊢
  cases ofVdev : cmd.vdev with
  | none => exact state
  | some vdev =>
    rw [ofVdev] at within
    dsimp only at within ⊢
    have sound := state.sound (config.pdevOf vdev)
    rcases removeFromPdevQueue_cases (queues (config.pdevOf vdev)) cmd true with
      ⟨node, found, -, removed⟩ | ⟨node, isMarked, removed⟩ | ⟨-, removed⟩
    · rw [removed] at within ⊢
      dsimp only at within ⊢
      have member : node ∈ (queues (config.pdevOf vdev)).activeList.nodes := (findCmd_some found).1
      obtain ⟨soundTaken, unused⟩ := @ScanSound.take _ _ _ true sound member
      have soundNext := soundTaken.release unused
      generalize isNext : ((queues (config.pdevOf vdev)).setPdevList true
        (((queues (config.pdevOf vdev)).pdevList true).nodes.erase node)).release node = next
        at within soundNext ⊢
      have oneLess : next.activeList.nodes.length + 1
          = (queues (config.pdevOf vdev)).activeList.nodes.length := by
        rw [← isNext]
        exact length_erase member
      have sameSize : next.activeList.maxSize = (queues (config.pdevOf vdev)).activeList.maxSize := by
        rw [← isNext]
        rfl
      have samePending : next.pendingList = (queues (config.pdevOf vdev)).pendingList := by
        rw [← isNext]
        rfl
      have counted := activeScanCmdCount_set queues (config.pdevOf vdev) next
      have own : queues.set (config.pdevOf vdev) next (config.pdevOf vdev) = next :=
        update_self ..
      refine ⟨sound_set_none state.sound soundNext, within, ?_, fun other hasPending => ?_⟩
      · rw [own, sameSize, Nat.lt_iff_add_one_le, oneLess]
        exact sound.fits
      · have before : (queues other).pendingList.nodes ≠ [] := by
          unfold ScanQueues.set at hasPending
          rw [update_apply] at hasPending
          split at hasPending
          next same =>
            rw [same, ← samePending]
            exact hasPending
          next => exact hasPending
        have isMax := state.full other before
        rw [own, samePending]
        refine ⟨?_, by omega⟩
        have isFound : ((queues (config.pdevOf vdev)).findCmd
            (queues (config.pdevOf vdev)).activeList.nodes cmd).isSome = true :=
          Option.isSome_iff_exists.mpr ⟨node, found⟩
        rcases fills vdev ofVdev isFound with isFilled | none
        · exact isFilled
        · exact absurd (none other) before
    · exact absurd ((sound.unmarked node).symm.trans isMarked) Bool.false_ne_true
    · rw [removed] at within ⊢
      have unchanged : queues.set (config.pdevOf vdev) (queues (config.pdevOf vdev)) = queues :=
        update_eq_self ..
      dsimp only
      rw [unchanged]
      exact state

/-- The first pending command is found by its own data. -/
theorem findCmd_front {front : Nat} {rest : List Nat} :
    queue.findCmd (front :: rest) (queue.cmd front) = some front :=
  find?_cons_of_pos (decide_eq_true ⟨rfl, rfl, rfl⟩)

/-- A promotion takes the free slot. -/
theorem moveScanPendingToActive_follows (moves : ScanMoves config queues pdev) :
    ScanFollows config (queues.moveScanPendingToActive config pdev).1
      ((queues.moveScanPendingToActive config pdev).2.map fun node => (pdev, node)) := by
  have within := @moveScanPendingToActive_within _ _ _ pdev moves.within
  unfold moveScanPendingToActive at within ⊢
  dsimp only at within ⊢
  cases isList : (queues pdev).pendingList.nodes with
  | nil =>
    refine ⟨moves.sound, moves.within, fun other hasPending => ?_⟩
    exact absurd isList (moves.slot other hasPending).1
  | cons front rest =>
    have slot := (moves.slot pdev (by rw [isList]; exact cons_ne_nil _ _)).2
    have isPending : front ∈ (queues pdev).pendingList.nodes := by
      rw [isList]
      exact mem_cons_self
    have sound := moves.sound pdev
    have ofVdev := sound.ofVdev front isPending
    have allowed : queues.isActiveScanCmdAllowed config ((queues pdev).cmd front) = true := by
      unfold isActiveScanCmdAllowed
      rw [ofVdev]
      exact decide_eq_true (by omega)
    rw [isList] at within
    dsimp only at within ⊢
    rw [allowed] at within ⊢
    rcases removeFromPdevQueue_cases (queues pdev) ((queues pdev).cmd front) false with
      ⟨node, found, -, removed⟩ | ⟨node, isMarked, removed⟩ | ⟨absent, -⟩
    · have isFront : node = front := by
        change (queues pdev).findCmd (queues pdev).pendingList.nodes _ = some node at found
        rw [isList, findCmd_front] at found
        exact (Option.some.inj found).symm
      subst isFront
      rw [removed] at within ⊢
      dsimp only at within ⊢
      obtain ⟨soundTaken, unused⟩ := @ScanSound.take _ _ _ false sound isPending
      generalize isTaken : (queues pdev).setPdevList false
        (((queues pdev).pdevList false).nodes.erase node) = taken at within soundTaken unused ⊢
      have sameActive : taken.activeList = (queues pdev).activeList := by
        rw [← isTaken]
        rfl
      have takenVdev : (taken.cmd node).vdev.isSome = true := by
        rw [← isTaken]
        exact ofVdev
      cases isAdded : taken.addToPdevQueue node true with
      | none =>
        unfold addToPdevQueue at isAdded
        dsimp only at isAdded
        split at isAdded
        next isFull =>
          change taken.activeList.nodes.length = taken.activeList.maxSize at isFull
          rw [sameActive] at isFull
          exact absurd isFull moves.room.ne
        next => cases isAdded
      | some added =>
        rw [isAdded] at within
        have soundAdded := (soundTaken.add unused takenVdev isAdded).mark node
        refine ⟨sound_set moves.sound soundAdded, within, fun other _ => ?_⟩
        have counted := activeScanCmdCount_set queues pdev
          (added.mark node fun bits => { bits with markedForActivation := true })
        have lengths := (lists_of_added isAdded).1
        rw [if_pos rfl, sameActive] at lengths
        change _ = _ + added.activeList.nodes.length at counted
        change ScanQueues.activeScanCmdCount (queues.set pdev _) = _
        omega
    · exact absurd ((sound.unmarked node).symm.trans isMarked) Bool.false_ne_true
    · change (queues pdev).findCmd (queues pdev).pendingList.nodes _ = none at absent
      rw [isList, findCmd_front] at absent
      cases absent

/-! ## Cancelations -/

/-- A queue without a command that was canceled. -/
def canceledScan (queue : PdevQueue) (active : Bool) (node : Nat) : PdevQueue :=
  (queue.setPdevList active ((queue.pdevList active).nodes.erase node)).release node

/-- A canceled command goes back to the pool, and the other list keeps its commands. -/
theorem canceledScan_sound (sound : ScanSound queue none) {active : Bool}
    (member : node ∈ (queue.pdevList active).nodes) :
    ScanSound (canceledScan queue active node) none
      ∧ ∀ other ∈ (canceledScan queue active node).pendingList.nodes,
        (canceledScan queue active node).cmd other = queue.cmd other := by
  obtain ⟨soundTaken, unused⟩ := sound.take member
  refine ⟨soundTaken.release unused, fun other inPending => ?_⟩
  have differs : other ≠ node := by
    rintro rfl
    exact ScanSound.not_mem_pending unused inPending
  change (canceledScan queue active node).ledger.cmd other = _
  unfold canceledScan
  rw [ledger_release]
  refine (update_of_ne differs ..).trans ?_
  cases active <;> rfl

/-- What a cancelation leaves alone: all commands if it is asked for active ones, and the
active list if it is asked for pending ones. -/
structure ScanCanceled (active : Bool) (queue next : PdevQueue) : Prop where
  sound : ScanSound next none
  pending : next.pendingList.nodes ≠ [] → queue.pendingList.nodes ≠ []
  kept : active = true → next.pendingList = queue.pendingList
    ∧ ∀ node ∈ queue.pendingList.nodes, next.cmd node = queue.cmd node
  active : active = false → next.activeList = queue.activeList

theorem cancelScanLoop_canceled (sound : ScanSound queue none)
    (selects : PdevQueue → Command → Bool) (active : Bool) (found : Command → Bool) (qsize : Nat)
    (nnode pnode : Option Nat) :
    ScanCanceled active queue (cancelScanLoop selects active found qsize queue nnode pnode) := by
  induction qsize generalizing queue nnode pnode with
  | zero => exact ⟨sound, id, fun _ => ⟨rfl, fun _ _ => rfl⟩, fun _ => rfl⟩
  | succ qsize ih =>
    have same : ScanCanceled active queue queue :=
      ⟨sound, id, fun _ => ⟨rfl, fun _ _ => rfl⟩, fun _ => rfl⟩
    unfold cancelScanLoop
    split
    next => exact same
    next node isNext =>
      have goesOn : node ∈ (queue.pdevList active).nodes →
          ScanCanceled active queue (cancelScanLoop selects active found qsize
            (canceledScan queue active node) pnode pnode) := by
        intro member
        obtain ⟨soundNext, sameCmd⟩ := canceledScan_sound sound member
        have later := ih soundNext pnode pnode
        cases active with
        | true =>
          refine ⟨later.sound, later.pending, fun _ => ⟨(later.kept rfl).1, fun other inPending => ?_⟩,
            Bool.noConfusion⟩
          exact ((later.kept rfl).2 other inPending).trans (sameCmd other inPending)
        | false =>
          refine ⟨later.sound, fun hasPending => ?_, Bool.noConfusion, fun _ => later.active rfl⟩
          exact ne_nil_of_mem member
      have member := mem_of_nextNode isNext
      split
      next => exact ih sound (some node) (some node)
      next =>
        split
        next isActive =>
          rw [sound.unmarked node, if_neg Bool.false_ne_true]
          split
          next => exact goesOn member
          next => exact same
        next => exact goesOn member

/-- A cancelation that finds nothing it is asked for changes nothing. -/
theorem cancelScanLoop_unselected {selects : PdevQueue → Command → Bool} {active : Bool}
    (unselected : ∀ node ∈ (queue.pdevList active).nodes, selects queue (queue.cmd node) = false)
    (found : Command → Bool) (qsize : Nat) (nnode pnode : Option Nat) :
    cancelScanLoop selects active found qsize queue nnode pnode = queue := by
  induction qsize generalizing nnode pnode with
  | zero => rfl
  | succ qsize ih =>
    unfold cancelScanLoop
    split
    next => rfl
    next node isNext =>
      rw [if_pos (unselected node (mem_of_nextNode isNext))]
      exact ih (some node) (some node)

/-- A cancelation that is asked for all pending commands leaves none. -/
theorem cancelScanLoop_selected (sound : ScanSound queue none) {selects : Command → Bool}
    (selected : ∀ node ∈ queue.pendingList.nodes, selects (queue.cmd node) = true)
    (found : Command → Bool) {qsize : Nat} (enough : queue.pendingList.nodes.length ≤ qsize) :
    (cancelScanLoop (fun _ => selects) false found qsize queue none none).pendingList.nodes
      = [] := by
  induction qsize generalizing queue with
  | zero => exact length_eq_zero_iff.mp (Nat.le_zero.mp enough)
  | succ qsize ih =>
    unfold cancelScanLoop
    cases isList : queue.pendingList.nodes with
    | nil =>
      have isNone : nextNode (queue.pdevList false).nodes none = none := by
        change queue.pendingList.nodes.head? = none
        rw [isList]
        rfl
      rw [isNone]
      exact isList
    | cons node rest =>
      have isNext : nextNode (queue.pdevList false).nodes none = some node := by
        change queue.pendingList.nodes.head? = some node
        rw [isList]
        rfl
      have member : node ∈ queue.pendingList.nodes := by
        rw [isList]
        exact mem_cons_self
      have isRest : (canceledScan queue false node).pendingList.nodes = rest := by
        change queue.pendingList.nodes.erase node = rest
        rw [isList, erase_cons_head]
      obtain ⟨soundNext, sameCmd⟩ := @canceledScan_sound _ _ sound false member
      rw [isNext]
      dsimp only
      rw [selected node member]
      apply ih soundNext
      · intro other inRest
        rw [sameCmd other inRest]
        rw [isRest] at inRest
        apply selected other
        rw [isList]
        exact mem_cons_of_mem node inRest
      · rw [isRest]
        rw [isList] at enough
        exact Nat.le_of_succ_le_succ enough

section

variable {selects : Command → Bool}

theorem cancelScanCmd_canceled (sound : ScanSound queue none) (selects : Command → Bool)
    (active : Bool) (found : Command → Bool) :
    ScanCanceled active queue (queue.cancelScanCmd (fun _ => selects) active found) :=
  cancelScanLoop_canceled sound _ active found _ none none

theorem cancelScanCmd_active_length (queue : PdevQueue) (selects : Command → Bool)
    (active : Bool) (found : Command → Bool) :
    (queue.cancelScanCmd (fun _ => selects) active found).activeList.nodes.length
      ≤ queue.activeList.nodes.length :=
  cancelScanLoop_active_length ..

theorem cancelScanCmd_unselected
    (unselected : ∀ node ∈ queue.activeList.nodes, selects (queue.cmd node) = false)
    (found : Command → Bool) : queue.cancelScanCmd (fun _ => selects) true found = queue :=
  @cancelScanLoop_unselected queue (fun _ => selects) true unselected found _ none none

theorem cancelScanCmd_selected (sound : ScanSound queue none)
    (selected : ∀ node ∈ queue.pendingList.nodes, selects (queue.cmd node) = true)
    (found : Command → Bool) :
    (queue.cancelScanCmd (fun _ => selects) false found).pendingList.nodes = [] :=
  cancelScanLoop_selected sound selected found (Nat.le_refl _)

end

/-! ## Calls -/

/-- Every activation succeeds; the timers of canceled commands are found or not. -/
def activationsSucceed : ScanFrame n → (Command → Bool) → Prop
  | .activate _ _, outcome => ∀ cmd, outcome cmd = true
  | _, _ => True

/-- What holds in front of a section that follows another one. -/
def ScanFrame.Keeps (config : ScanConfig n) (queues : ScanQueues n) : ScanFrame n → Prop
  | .idle => ScanState config queues noActivation
  | .activate pdev node =>
    ScanState config queues (update noActivation pdev (some node))
  | .activated _ _ failed => failed = false ∧ ScanState config queues noActivation
  | .move pdev => ScanMoves config queues pdev
  | _ => False

theorem ScanFrame.Keeps.step {frame : ScanFrame n} (keeps : frame.Keeps config queues)
    {outcome : Command → Bool} (succeeds : activationsSucceed frame outcome) :
    (frame.step config queues outcome).2.Keeps config (frame.step config queues outcome).1 := by
  unfold ScanFrame.step
  cases frame with
  | idle => exact keeps
  | activate pdev node =>
    have state : ScanState config queues (update noActivation pdev (some node)) := keeps
    have soundOwn : ScanSound (queues pdev) (some node) := by
      have sound := state.sound pdev
      rw [update_self] at sound
      exact sound
    refine ⟨by rw [succeeds]; rfl, ⟨fun other => ?_, ?_, ?_⟩⟩
    · have sound := @sound_set _ _ pdev _ _ state.sound _ soundOwn.activate other
      rw [update_idem, update_eq_self] at sound
      exact sound
    · exact within_of_length_le state.within (Nat.le_refl _)
    · exact full_set_of_same state.full id rfl
  | activated pdev node failed =>
    obtain ⟨rfl, state⟩ := keeps
    obtain ⟨noRemoval, noCancel⟩ := (state.sound pdev).calm node
    dsimp only
    rw [noRemoval, noCancel]
    exact state
  | move pdev =>
    have follows := @moveScanPendingToActive_follows _ config queues pdev keeps
    dsimp only
    generalize queues.moveScanPendingToActive config pdev = result at follows
    obtain ⟨next, found⟩ := result
    cases found <;> exact follows
  | enqueue cmd | dequeue ref | cancel ref type active => cases keeps

variable {allowed : ScanFrame n → (Command → Bool) → Prop}

/-- What holds after the first section of a call and is kept behind it holds at its end. -/
theorem scanCall_ends {call : ScanFrame n}
    (ends : Reaches (scanStep config allowed) (queues, call) (next, .idle)) (other : call ≠ .idle)
    {holds : ScanQueues n × ScanFrame n → Prop}
    (first : ∀ outcome, allowed call outcome → holds (call.step config queues outcome))
    (preserved : ∀ state outcome, holds state → allowed state.2 outcome → holds (state.2.step config state.1 outcome))
    : holds (next, .idle) := by
  have reached : (next, ScanFrame.idle) = (queues, call) ∨ holds (next, .idle) := by
    refine @Reaches.invariant _ _ _ _ _ (fun state => state = (queues, call) ∨ holds state) ends
      (.inl rfl) ?_
    rintro state outcome after (rfl | holdsBefore) ⟨isAllowed, rfl⟩
    · exact .inr (first outcome isAllowed)
    · exact .inr (preserved state outcome holdsBefore isAllowed)
  rcases reached with isStart | ended
  · exact absurd (congrArg Prod.snd isStart).symm other
  · exact ended

/-- A call ends in a state between two operations. -/
theorem scanCall_state {call : ScanFrame n}
    (ends : Reaches (scanStep config activationsSucceed) (queues, call) (next, .idle))
    (other : call ≠ .idle) (first : ∀ outcome, (call.step config queues outcome).2.Keeps config
      (call.step config queues outcome).1) : ScanState config next noActivation := by
  have keeps : ScanFrame.idle.Keeps config next :=
    @scanCall_ends _ _ _ _ _ _ ends other (fun state => state.2.Keeps config state.1)
      (fun outcome _ => first outcome) fun state outcome keeps succeeds => keeps.step succeeds
  exact keeps

theorem scanRequest_state (state : ScanState config queues noActivation)
    (ends : Reaches (scanStep config activationsSucceed) (queues, .enqueue cmd) (next, .idle)) :
    ScanState config next noActivation := by
  apply scanCall_state ends nofun
  intro outcome
  have follows := enqueueScan_follows state cmd
  unfold ScanFrame.step
  dsimp only
  generalize queues.enqueueScan config cmd = result at follows
  obtain ⟨after, found⟩ := result
  cases found <;> exact follows

theorem scanRemove_state (state : ScanState config queues noActivation)
    (fills : ScanRemovalFills config queues cmd)
    (ends : Reaches (scanStep config activationsSucceed) (queues, .dequeue (.value cmd))
      (next, .idle)) : ScanState config next noActivation := by
  apply scanCall_state ends nofun
  intro outcome
  have moves := dequeueScan_moves state fills
  unfold ScanFrame.step
  dsimp only [ScanRef.read]
  generalize queues.dequeueScan config cmd = result at moves
  obtain ⟨after, found⟩ := result
  cases found <;> exact moves

variable {type : ScanCancelType}

/-- What a call of a cancelation does. -/
theorem scanCancel_cases {active : Bool}
    (ends : Reaches (scanStep config allowed) (queues, .cancel (.value cmd) type active) (next, .idle))
    :
    (cmd.vdev = none ∧ next = queues) ∨ ∃ vdev found, cmd.vdev = some vdev
      ∧ next = queues.set (config.pdevOf vdev) ((queues (config.pdevOf vdev)).cancelScanCmd
        (fun _ => type.selects config cmd vdev) active found) := by
  have canceled : (ScanFrame.idle : ScanFrame n) = .idle ∧ ((cmd.vdev = none ∧ next = queues)
      ∨ ∃ vdev found, cmd.vdev = some vdev
        ∧ next = queues.set (config.pdevOf vdev) ((queues (config.pdevOf vdev)).cancelScanCmd
          (fun _ => type.selects config cmd vdev) active found)) := by
    refine @scanCall_ends _ _ _ _ _ _ ends nofun (fun state => state.2 = .idle
      ∧ ((cmd.vdev = none ∧ state.1 = queues) ∨ ∃ vdev found, cmd.vdev = some vdev
        ∧ state.1 = queues.set (config.pdevOf vdev) ((queues (config.pdevOf vdev)).cancelScanCmd
          (fun _ => type.selects config cmd vdev) active found))) ?_ ?_
    · intro outcome _
      unfold ScanFrame.step
      dsimp only [ScanRef.read]
      cases ofVdev : cmd.vdev with
      | none => exact ⟨rfl, .inl ⟨rfl, rfl⟩⟩
      | some vdev => exact ⟨rfl, .inr ⟨vdev, outcome, rfl, rfl⟩⟩
    · rintro ⟨after, frame⟩ outcome ⟨rfl, canceled⟩ _
      exact ⟨rfl, canceled⟩
  exact canceled.2

/-! ## Operations -/

/-- A cancelation finds no active command it is asked for, or takes all pending commands of
its pdev while none is pending in another one. -/
def ScanCancelFills (config : ScanConfig n) (queues : ScanQueues n) (cmd : Command)
    (type : ScanCancelType) (activeQueue pendingQueue : Bool) : Prop :=
  ∀ vdev ∈ cmd.vdev,
    (activeQueue = true → ∀ node ∈ (queues (config.pdevOf vdev)).activeList.nodes,
      type.selects config cmd vdev ((queues (config.pdevOf vdev)).cmd node) = false)
    ∨ (∀ other, other ≠ config.pdevOf vdev → (queues other).pendingList.nodes = [])
      ∧ ∀ node ∈ (queues (config.pdevOf vdev)).pendingList.nodes, pendingQueue = true
        ∧ type.selects config cmd vdev ((queues (config.pdevOf vdev)).cmd node) = true

instance (config : ScanConfig n) (queues : ScanQueues n) (cmd : Command) (type : ScanCancelType)
    (activeQueue pendingQueue : Bool) :
    Decidable (ScanCancelFills config queues cmd type activeQueue pendingQueue) :=
  inferInstanceAs (Decidable (∀ vdev ∈ cmd.vdev, _ ∨ _ ∧ _))

/-- What is known between the two calls of a cancelation: the state of the queues, or that no
command will be pending behind it. -/
def ScanCancels (config : ScanConfig n) (queues : ScanQueues n) (cmd : Command) (vdev : Nat)
    (type : ScanCancelType) (pendingQueue : Bool) : Prop :=
  (∀ other, ScanSound (queues other) none) ∧ ScanWithin config queues
    ∧ (ScanFull config queues
      ∨ (∀ other, other ≠ config.pdevOf vdev → (queues other).pendingList.nodes = [])
        ∧ ∀ node ∈ (queues (config.pdevOf vdev)).pendingList.nodes, pendingQueue = true
          ∧ type.selects config cmd vdev ((queues (config.pdevOf vdev)).cmd node) = true)

theorem cancelActive_cancels {pendingQueue : Bool} {found : Command → Bool}
    (state : ScanState config queues noActivation)
    (fills : ScanCancelFills config queues cmd type true pendingQueue)
    (ofVdev : cmd.vdev = some vdev) :
    ScanCancels config (queues.set (config.pdevOf vdev) ((queues (config.pdevOf vdev)).cancelScanCmd
      (fun _ => type.selects config cmd vdev) true found)) cmd vdev type pendingQueue := by
  have sound := state.sound (config.pdevOf vdev)
  have canceled := cancelScanCmd_canceled sound (type.selects config cmd vdev) true found
  have fewer := cancelScanCmd_active_length (queues (config.pdevOf vdev))
    (type.selects config cmd vdev) true found
  refine ⟨sound_set_none state.sound canceled.sound, within_of_length_le state.within fewer, ?_⟩
  rcases fills vdev ofVdev with unselected | ⟨noneOther, allSelected⟩
  · left
    have unchanged : queues.set (config.pdevOf vdev) (queues (config.pdevOf vdev)) = queues :=
      update_eq_self ..
    rw [cancelScanCmd_unselected (unselected rfl), unchanged]
    exact state.full
  · right
    obtain ⟨samePending, sameCmd⟩ := canceled.kept rfl
    generalize (queues (config.pdevOf vdev)).cancelScanCmd _ true found = after
      at samePending sameCmd
    have isOwn : queues.set (config.pdevOf vdev) after (config.pdevOf vdev) = after :=
      update_self ..
    rw [isOwn, samePending]
    refine ⟨fun other differs => ?_, fun node member => ?_⟩
    · have isOther : queues.set (config.pdevOf vdev) after other = queues other :=
        update_of_ne differs ..
      rw [isOther]
      exact noneOther other differs
    · rw [sameCmd node member]
      exact allSelected node member

theorem cancelPending_state {found : Command → Bool}
    (cancels : ScanCancels config queues cmd vdev type true) :
    ScanState config (queues.set (config.pdevOf vdev) ((queues (config.pdevOf vdev)).cancelScanCmd
      (fun _ => type.selects config cmd vdev) false found)) noActivation := by
  obtain ⟨sound, within, isFull⟩ := cancels
  have canceled := cancelScanCmd_canceled (sound (config.pdevOf vdev))
    (type.selects config cmd vdev) false found
  have fewer := cancelScanCmd_active_length (queues (config.pdevOf vdev))
    (type.selects config cmd vdev) false found
  refine ⟨sound_set_none sound canceled.sound, within_of_length_le within fewer, ?_⟩
  rcases isFull with full | ⟨noneOther, allSelected⟩
  · exact full_set_of_same full canceled.pending (congrArg (·.nodes.length) (canceled.active rfl))
  · have noneOwn := cancelScanCmd_selected (sound (config.pdevOf vdev))
      (fun node member => (allSelected node member).2) found
    intro other hasPending
    unfold ScanQueues.set at hasPending
    rw [update_apply] at hasPending
    split at hasPending
    next => exact absurd noneOwn hasPending
    next differs => exact absurd (noneOther other differs) hasPending

theorem ScanState.of_cancels (cancels : ScanCancels config queues cmd vdev type false) :
    ScanState config queues noActivation := by
  obtain ⟨sound, within, isFull⟩ := cancels
  refine ⟨sound, within, ?_⟩
  rcases isFull with full | ⟨noneOther, allSelected⟩
  · exact full
  · intro other hasPending
    by_cases isOwn : other = config.pdevOf vdev
    · subst isOwn
      obtain ⟨node, member⟩ := exists_mem_of_ne_nil _ hasPending
      exact absurd (allSelected node member).1 Bool.false_ne_true
    · exact absurd (noneOther other isOwn) hasPending

/-- The slots that an operation gives up are taken, or no command is pending behind it. -/
def ScanFills (config : ScanConfig n) (queues : ScanQueues n) : ScanOperation → Prop
  | .request _ => True
  | .remove cmd => ScanRemovalFills config queues cmd
  | .timeout cmd => ScanRemovalFills config queues cmd
  | .cancel cmd type activeQueue pendingQueue =>
    ScanCancelFills config queues cmd type activeQueue pendingQueue

instance (config : ScanConfig n) (queues : ScanQueues n) (operation : ScanOperation) :
    Decidable (ScanFills config queues operation) :=
  match operation with
  | .request _ => .isTrue trivial
  | .remove cmd => inferInstanceAs (Decidable (ScanRemovalFills config queues cmd))
  | .timeout cmd => inferInstanceAs (Decidable (ScanRemovalFills config queues cmd))
  | .cancel cmd type activeQueue pendingQueue =>
    inferInstanceAs (Decidable (ScanCancelFills config queues cmd type activeQueue pendingQueue))

theorem scanCancel_state {activeQueue pendingQueue : Bool}
    (state : ScanState config queues noActivation)
    (fills : ScanCancelFills config queues cmd type activeQueue pendingQueue)
    (performs : ScanPerforms config activationsSucceed queues (ScanOperation.cancel cmd type activeQueue pendingQueue).calls next)
    : ScanState config next noActivation := by
  obtain ⟨middle, toMiddle, toNext⟩ := performs.append
  cases ofVdev : cmd.vdev with
  | none =>
    have same : middle = queues := by
      cases activeQueue with
      | true =>
        cases toMiddle with
        | call first rest =>
          cases rest
          rcases scanCancel_cases first with ⟨-, same⟩ | ⟨vdev, _, isVdev, -⟩
          · exact same
          · cases ofVdev.symm.trans isVdev
      | false =>
        cases toMiddle
        rfl
    subst same
    cases pendingQueue with
    | true =>
      cases toNext with
      | call first rest =>
        cases rest
        rcases scanCancel_cases first with ⟨-, same⟩ | ⟨vdev, _, isVdev, -⟩
        · exact same ▸ state
        · cases ofVdev.symm.trans isVdev
    | false =>
      cases toNext
      exact state
  | some vdev =>
    have cancels : ScanCancels config middle cmd vdev type pendingQueue := by
      cases activeQueue with
      | true =>
        cases toMiddle with
        | call first rest =>
          cases rest
          rcases scanCancel_cases first with ⟨isNone, -⟩ | ⟨own, found, isOwn, isMiddle⟩
          · cases ofVdev.symm.trans isNone
          · obtain rfl := Option.some.inj (ofVdev.symm.trans isOwn)
            rw [isMiddle]
            exact cancelActive_cancels state fills ofVdev
      | false =>
        cases toMiddle
        exact ⟨state.sound, state.within, .inl state.full⟩
    cases pendingQueue with
    | true =>
      cases toNext with
      | call first rest =>
        cases rest
        rcases scanCancel_cases first with ⟨isNone, -⟩ | ⟨own, found, isOwn, isNext⟩
        · cases ofVdev.symm.trans isNone
        · obtain rfl := Option.some.inj (ofVdev.symm.trans isOwn)
          rw [isNext]
          exact cancelPending_state cancels
    | false =>
      cases toNext
      exact .of_cancels cancels

/-- A complete operation keeps the limit, and leaves commands pending only at the limit. -/
theorem scanPerforms_state {operation : ScanOperation}
    (state : ScanState config queues noActivation) (fills : ScanFills config queues operation)
    (performs : ScanPerforms config activationsSucceed queues operation.calls next) :
    ScanState config next noActivation := by
  cases operation with
  | request cmd =>
    cases performs with
    | call first rest =>
      cases rest
      exact scanRequest_state state first
  | remove cmd =>
    cases performs with
    | call first rest =>
      cases rest
      exact scanRemove_state state fills first
  | timeout cmd =>
    cases performs with
    | call first rest =>
      cases rest
      exact scanRemove_state state fills first
  | cancel cmd type activeQueue pendingQueue => exact scanCancel_state state fills performs

theorem activeScanCmdCount_create (config : ScanConfig n) : config.create.activeScanCmdCount = 0 :=
  Finset.sum_const_zero

theorem scanState_create (config : ScanConfig n) : ScanState config config.create noActivation where
  sound := fun _ => ⟨(@create_sound Unit config.maxActive config.maxPending 0 fun _ => 0).apart,
    (fun _ nothing => nomatch nothing), Nat.zero_le _, (fun _ isMarked => nomatch isMarked),
    fun _ => ⟨rfl, rfl⟩⟩
  within := by
    unfold ScanWithin
    rw [activeScanCmdCount_create]
    exact Nat.zero_le _
  full := fun _ hasPending => absurd rfl hasPending

theorem scanPerforms_within {calls : List (ScanFrame n)} (within : ScanWithin config queues)
    (performs : ScanPerforms config allowed queues calls next) : ScanWithin config next := by
  induction performs with
  | done => exact within
  | call first rest ih =>
    apply ih
    refine @Reaches.invariant _ _ _ _ _ (fun state => ScanWithin config state.1) first within ?_
    rintro state outcome after holds ⟨-, rfl⟩
    exact ScanFrame.step_within holds outcome state.2

/-- Whatever operations were completed, and whatever came of them, no more scan commands are
active than are allowed. -/
theorem scanWithin_of_run {permits : ScanQueues n → ScanOperation → Prop}
    (run : Reaches (scanOperations config allowed permits) config.create queues) :
    ScanWithin config queues := by
  refine run.invariant (scanState_create config).within ?_
  rintro source operation target within ⟨-, performs⟩
  exact scanPerforms_within within performs

/-- While every slot that is given up is taken or no command is pending behind it, the limit
is kept, and commands are pending only at the limit. -/
theorem scanAdmission_of_filledSlots
    (run : Reaches (scanOperations config activationsSucceed (ScanFills config)) config.create
      queues) :
    queues.activeScanCmdCount ≤ config.maxActiveScans
      ∧ ∀ pdev, (queues pdev).pendingList.nodes ≠ [] →
        queues.activeScanCmdCount = config.maxActiveScans := by
  have state : ScanState config queues noActivation := by
    refine @Reaches.invariant _ _ _ _ _ (fun queues => ScanState config queues noActivation) run
      (scanState_create config) ?_
    rintro source operation target state ⟨fills, performs⟩
    exact scanPerforms_state state fills performs
  exact ⟨state.within, state.full⟩

/-- Two pdevs with one vdev each, and one active scan command for both. -/
def sampleScanConfig : ScanConfig 2 where
  pdevOf := fun vdev => if vdev = 0 then 0 else 1
  maxActiveScans := 1
  maxActive := 2
  maxPending := 4

/-- A scan command. -/
def sampleScan (cmdId vdev : Nat) : Command where
  cmdType := 0
  cmdId := cmdId
  vdev := some vdev
  cmdCb := true
  isHighPriority := false
  isBlocking := false
  queueDisable := false

/-- The queues after a call that takes four sections at most. -/
def afterScanCall (queues : ScanQueues 2) (call : ScanFrame 2) : ScanQueues 2 × ScanFrame 2 :=
  (List.replicate 4 fun _ : Command => true).foldl
    (fun state outcome => state.2.step sampleScanConfig state.1 outcome) (queues, call)

theorem performs_afterScanCall {queues : ScanQueues 2} {call : ScanFrame 2}
    (isIdle : (afterScanCall queues call).2 = .idle) :
    ScanPerforms sampleScanConfig activationsSucceed queues [call]
      (afterScanCall queues call).1 := by
  have succeeds : ∀ frame : ScanFrame 2, activationsSucceed frame fun _ => true := by
    intro frame
    cases frame with
    | activate pdev node => exact fun _ => rfl
    | _ => trivial
  have permitted : ∀ state : ScanQueues 2 × ScanFrame 2, ∀ count,
      Allowed (fun state => activationsSucceed state.2)
        (fun state outcome => state.2.step sampleScanConfig state.1 outcome) state
        (replicate count fun _ : Command => true) := by
    intro state count
    induction count generalizing state with
    | zero => trivial
    | succ count ih => exact ⟨succeeds state.2, ih _⟩
  have reached : Reaches (scanStep sampleScanConfig activationsSucceed) (queues, call)
      (afterScanCall queues call) :=
    Reaches.foldl (permitted _ 4)
  rw [← Prod.eta (afterScanCall queues call), isIdle] at reached
  exact .call reached (.done _)

/-- A scan command of the first pdev is active. -/
def scanActive : ScanQueues 2 :=
  (afterScanCall sampleScanConfig.create (.enqueue (sampleScan 1 0))).1

/-- Another scan command of the first pdev waits. -/
def scanWaiting : ScanQueues 2 :=
  (afterScanCall scanActive (.enqueue (sampleScan 2 0))).1

/-- A third scan command of the first pdev waits. -/
def scanTwoWaiting : ScanQueues 2 :=
  (afterScanCall scanWaiting (.enqueue (sampleScan 3 0))).1

/-- The first command was removed, so the second one is active. -/
def scanPromoted : ScanQueues 2 :=
  (afterScanCall scanTwoWaiting (.dequeue (.value (sampleScan 1 0)))).1

/-- A scan command of the second pdev waits. -/
def scanWaitingElsewhere : ScanQueues 2 :=
  (afterScanCall scanActive (.enqueue (sampleScan 2 1))).1

/-- The active command was removed, and nothing is active. -/
def scanSlotLost : ScanQueues 2 :=
  (afterScanCall scanWaitingElsewhere (.dequeue (.value (sampleScan 1 0)))).1

theorem scanAdmission_promoted :
    scanPromoted.activeScanCmdCount ≤ 1
      ∧ ∀ pdev, (scanPromoted pdev).pendingList.nodes ≠ [] → scanPromoted.activeScanCmdCount = 1 := by
  refine @scanAdmission_of_filledSlots 2 sampleScanConfig scanPromoted ?_
  have first : scanOperations sampleScanConfig activationsSucceed (ScanFills sampleScanConfig)
      sampleScanConfig.create (.request (sampleScan 1 0)) scanActive :=
    ⟨by decide +kernel, performs_afterScanCall (by decide +kernel)⟩
  have second : scanOperations sampleScanConfig activationsSucceed (ScanFills sampleScanConfig)
      scanActive (.request (sampleScan 2 0)) scanWaiting :=
    ⟨by decide +kernel, performs_afterScanCall (by decide +kernel)⟩
  have third : scanOperations sampleScanConfig activationsSucceed (ScanFills sampleScanConfig)
      scanWaiting (.request (sampleScan 3 0)) scanTwoWaiting :=
    ⟨by decide +kernel, performs_afterScanCall (by decide +kernel)⟩
  have fourth : scanOperations sampleScanConfig activationsSucceed (ScanFills sampleScanConfig)
      scanTwoWaiting (.remove (sampleScan 1 0)) scanPromoted :=
    ⟨by decide +kernel, performs_afterScanCall (by decide +kernel)⟩
  exact ((((Reaches.refl _ _).tail first).tail second).tail third).tail fourth

theorem scanWithin_active : ScanWithin sampleScanConfig scanActive := by
  refine @scanWithin_of_run 2 sampleScanConfig _ activationsSucceed (fun _ _ => True) ?_
  have requested : scanOperations sampleScanConfig activationsSucceed (fun _ _ => True)
      sampleScanConfig.create (.request (sampleScan 1 0)) scanActive :=
    ⟨trivial, performs_afterScanCall (by decide +kernel)⟩
  exact .tail (.refl _ _) requested

/-- A removal promotes no command of another pdev. -/
theorem not_scanAdmission_of_otherPdev :
    ¬∀ queues, Reaches (scanOperations sampleScanConfig activationsSucceed fun _ _ => True)
        sampleScanConfig.create queues →
      queues.activeScanCmdCount ≤ sampleScanConfig.maxActiveScans
        ∧ ∀ pdev, (queues pdev).pendingList.nodes ≠ [] →
          queues.activeScanCmdCount = sampleScanConfig.maxActiveScans := by
  intro claim
  have first : scanOperations sampleScanConfig activationsSucceed (fun _ _ => True)
      sampleScanConfig.create (.request (sampleScan 1 0)) scanActive :=
    ⟨trivial, performs_afterScanCall (by decide +kernel)⟩
  have second : scanOperations sampleScanConfig activationsSucceed (fun _ _ => True)
      scanActive (.request (sampleScan 2 1)) scanWaitingElsewhere :=
    ⟨trivial, performs_afterScanCall (by decide +kernel)⟩
  have third : scanOperations sampleScanConfig activationsSucceed (fun _ _ => True)
      scanWaitingElsewhere (.remove (sampleScan 1 0)) scanSlotLost :=
    ⟨trivial, performs_afterScanCall (by decide +kernel)⟩
  have run := (((Reaches.refl _ _).tail first).tail second).tail third
  have hasPending : (scanSlotLost 1).pendingList.nodes ≠ [] := by decide +kernel
  exact absurd ((claim scanSlotLost run).2 1 hasPending) (by decide +kernel)

end Sm8650.Wlan
