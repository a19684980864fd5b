import Mathlib.Data.Fintype.BigOperators
import Sm8650.Transition.Reach
import Sm8650.Wlan.Serialization

/-!
# Serialization of scan commands

Each pdev of a psoc has its own lists of scan commands, but the number of active ones is
limited for the whole psoc. The operations here do not overlap and the callbacks of a
command make no calls, so the loop of a cancelation is one step.

Sources: `wlan_serialization_scan.c`, `wlan_serialization_internal.c`,
`wlan_serialization_utils.c`.
-/

namespace Sm8650.Wlan

open Transition

/-- The pdevs of the vdevs, `ucfg_scan_get_max_active_scans`, and the sizes of the lists. -/
structure ScanConfig (n : Nat) where
  pdevOf : Nat → Fin n
  maxActiveScans : Nat
  maxActive : Nat
  maxPending : Nat

/-- The scan queues of the pdevs of a psoc. -/
abbrev ScanQueues (n : Nat) := Fin n → PdevQueue

variable {n : Nat}

/-- New queues. -/
def ScanConfig.create (config : ScanConfig n) : ScanQueues n :=
  fun _ => .create config.maxActive config.maxPending 0 fun _ => 0

namespace ScanQueues

/-- What `wlan_serialization_active_scan_cmd_count_handler` adds up over the pdevs. -/
def activeScanCmdCount (queues : ScanQueues n) : Nat :=
  ∑ pdev, (queues pdev).activeList.nodes.length

/-- `wlan_serialization_is_active_scan_cmd_allowed`. -/
def isActiveScanCmdAllowed (config : ScanConfig n) (queues : ScanQueues n) (cmd : Command) :
    Bool :=
  cmd.vdev.isSome && decide (queues.activeScanCmdCount < config.maxActiveScans)

/-- The queue of a pdev is another one. -/
def set (queues : ScanQueues n) (pdev : Fin n) (queue : PdevQueue) : ScanQueues n :=
  Function.update queues pdev queue

/-! ## Requests -/

/-- The section of `wlan_serialization_enqueue_cmd` for a scan request, with the node to
activate. -/
def enqueueScan (config : ScanConfig n) (queues : ScanQueues n) (cmd : Command) :
    ScanQueues n × Option (Fin n × Nat) :=
  match cmd.vdev with
  | none => (queues, none)
  | some vdev =>
    let pdev := config.pdevOf vdev
    let queue := queues pdev
    if cmd.cmdCb = false then (queues, none)
    else
      let active := queues.isActiveScanCmdAllowed config cmd && queue.pendingList.nodes.isEmpty
      if (queue.findCmd (queue.pdevList active).nodes cmd).isSome then (queues, none)
      else
        match queue.cmdPoolList with
        | [] => (queues, none)
        | node :: pool =>
          let taken := ({ queue with cmdPoolList := pool }).write node
            { queue.commands node with cmd }
          match taken.addToPdevQueue node active with
          | none => (queues.set pdev (taken.release node), none)
          | some added =>
            if active then
              (queues.set pdev
                (added.mark node fun bits => { bits with markedForActivation := true }),
                some (pdev, node))
            else (queues.set pdev added, none)

/-! ## Removals -/

/-- The section of `wlan_serialization_dequeue_cmd` for an active scan command, with the pdev
of the command that was removed. -/
def dequeueScan (config : ScanConfig n) (queues : ScanQueues n) (cmd : Command) :
    ScanQueues n × Option (Fin n) :=
  match cmd.vdev with
  | none => (queues, none)
  | some vdev =>
    let pdev := config.pdevOf vdev
    match (queues pdev).removeFromPdevQueue cmd true with
    | (queue, .removed node) => (queues.set pdev (queue.release node), some pdev)
    | (queue, _) => (queues.set pdev queue, none)

/-! ## Promotion -/

/-- The section of `wlan_ser_move_scan_pending_to_active`, with the node to activate. -/
def moveScanPendingToActive (config : ScanConfig n) (queues : ScanQueues n) (pdev : Fin n) :
    ScanQueues n × Option Nat :=
  let queue := queues pdev
  match queue.pendingList.nodes with
  | [] => (queues, none)
  | front :: _ =>
    let cmd := queue.cmd front
    if queues.isActiveScanCmdAllowed config cmd = false then (queues, none)
    else
      match queue.removeFromPdevQueue cmd false with
      | (queue, .removed node) =>
        match queue.addToPdevQueue node true with
        | some added =>
          (queues.set pdev
            (added.mark node fun bits => { bits with markedForActivation := true }),
            some node)
        | none =>
          (queues.set pdev { queue with cmdPoolList := queue.cmdPoolList ++ [node] }, none)
      | (queue, _) => (queues.set pdev queue, none)

end ScanQueues

/-! ## Cancelation -/

/-- What a cancelation of scan commands is asked for: `WLAN_SER_CANCEL_SINGLE_SCAN`,
`WLAN_SER_CANCEL_PDEV_SCANS` or `WLAN_SER_CANCEL_VDEV_SCANS`. -/
inductive ScanCancelType
  | single
  | pdevScans
  | vdevScans
  deriving DecidableEq, Repr

/-- The commands that `wlan_ser_cancel_scan_cmd` asks for, as
`wlan_serialization_find_and_cancel_cmd` calls it for a command of `vdev`. -/
def ScanCancelType.selects (type : ScanCancelType) (config : ScanConfig n) (cmd : Command)
    (vdev : Nat) (queued : Command) : Bool :=
  match type with
  | .single => queued.matches cmd
  | .pdevScans => decide (queued.vdev.map config.pdevOf = some (config.pdevOf vdev))
  | .vdevScans => decide (queued.vdev = some vdev)

/-- The loop of `wlan_ser_cancel_scan_cmd`; `found` says whether the timer of a command is
found. The command that is asked for may itself be in the queue. -/
def PdevQueue.cancelScanLoop (selects : PdevQueue → Command → Bool) (active : Bool)
    (found : Command → Bool) :
    Nat → PdevQueue → Option Nat → Option Nat → PdevQueue
  | 0, queue, _, _ => queue
  | qsize + 1, queue, nnode, pnode =>
    match nextNode (queue.pdevList active).nodes nnode with
    | none => queue
    | some node =>
      if selects queue (queue.cmd node) = false then
        cancelScanLoop selects active found qsize queue (some node) (some node)
      else
        let taken := (queue.setPdevList active
          ((queue.pdevList active).nodes.erase node)).release node
        if active then
          if (queue.commands node).cmdInUse.markedForActivation then
            cancelScanLoop selects active found qsize
              (queue.mark node fun bits => { bits with activeMarkedForCancel := true })
              (some node) pnode
          else if found (queue.cmd node) then
            cancelScanLoop selects active found qsize taken pnode pnode
          else queue
        else cancelScanLoop selects active found qsize taken pnode pnode

/-- `wlan_ser_cancel_scan_cmd`. -/
def PdevQueue.cancelScanCmd (queue : PdevQueue) (selects : PdevQueue → Command → Bool)
    (active : Bool) (found : Command → Bool) : PdevQueue :=
  cancelScanLoop selects active found (queue.pdevList active).nodes.length queue none none

/-! ## Operations -/

/-- A scan command that is passed by value, or by a pointer into the pool of a pdev. -/
inductive ScanRef (n : Nat)
  | value (cmd : Command)
  | entry (pdev : Fin n) (node : Nat)
  deriving DecidableEq

/-- The command that is passed. -/
def ScanRef.read (queues : ScanQueues n) : ScanRef n → Command
  | .value cmd => cmd
  | .entry pdev node => (queues pdev).cmd node

/-- The next section of an operation. -/
inductive ScanFrame (n : Nat)
  | idle
  | enqueue (cmd : Command)
  | activate (pdev : Fin n) (node : Nat)
  | activated (pdev : Fin n) (node : Nat) (failed : Bool)
  | dequeue (ref : ScanRef n)
  | move (pdev : Fin n)
  | cancel (ref : ScanRef n) (type : ScanCancelType) (active : Bool)
  deriving DecidableEq

/-- The next section of an operation; the outcome says of each command whether its activation
succeeds and whether its timer is found. -/
def ScanFrame.step (config : ScanConfig n) (queues : ScanQueues n) (outcome : Command → Bool) :
    ScanFrame n → ScanQueues n × ScanFrame n
  | .idle => (queues, .idle)
  | .enqueue cmd =>
    match queues.enqueueScan config cmd with
    | (queues, some (pdev, node)) => (queues, .activate pdev node)
    | (queues, none) => (queues, .idle)
  | .activate pdev node =>
    (queues.set pdev ((queues pdev).activateSection node),
      .activated pdev node !outcome ((queues pdev).cmd node))
  | .activated pdev node failed =>
    let bits := ((queues pdev).commands node).cmdInUse
    if failed || bits.activeMarkedForRemoval then (queues, .dequeue (.entry pdev node))
    else if bits.activeMarkedForCancel then (queues, .cancel (.entry pdev node) .single true)
    else (queues, .idle)
  | .dequeue ref =>
    match queues.dequeueScan config (ref.read queues) with
    | (queues, some pdev) => (queues, .move pdev)
    | (queues, none) => (queues, .idle)
  | .move pdev =>
    match queues.moveScanPendingToActive config pdev with
    | (queues, some node) => (queues, .activate pdev node)
    | (queues, none) => (queues, .idle)
  | .cancel ref type active =>
    match (ref.read queues).vdev with
    | none => (queues, .idle)
    | some vdev =>
      let pdev := config.pdevOf vdev
      let selects := fun queue queued =>
        type.selects config (ref.read (queues.set pdev queue)) vdev queued
      (queues.set pdev ((queues pdev).cancelScanCmd selects active outcome), .idle)

/-- An operation on scan commands. A cancelation can be asked for the active list, for the
pending list or for both. -/
inductive ScanOperation
  | request (cmd : Command)
  | remove (cmd : Command)
  | timeout (cmd : Command)
  | cancel (cmd : Command) (type : ScanCancelType) (activeQueue pendingQueue : Bool)

/-- The first sections of the calls that an operation is made of. -/
def ScanOperation.calls : ScanOperation → List (ScanFrame n)
  | .request cmd => [.enqueue cmd]
  | .remove cmd => [.dequeue (.value cmd)]
  | .timeout cmd => [.dequeue (.value cmd)]
  | .cancel cmd type activeQueue pendingQueue =>
    (if activeQueue then [.cancel (.value cmd) type true] else [])
      ++ if pendingQueue then [.cancel (.value cmd) type false] else []

/-- The sections of an operation, with the outcomes that are `allowed`. -/
def scanStep (config : ScanConfig n) (allowed : ScanFrame n → (Command → Bool) → Prop) :
    LabelledStep (ScanQueues n × ScanFrame n) (Command → Bool) :=
  guarded (fun state => allowed state.2) fun state outcome => state.2.step config state.1 outcome

/-- Calls run to their ends one after the other. -/
inductive ScanPerforms (config : ScanConfig n) (allowed : ScanFrame n → (Command → Bool) → Prop) :
    ScanQueues n → List (ScanFrame n) → ScanQueues n → Prop
  | done (queues : ScanQueues n) : ScanPerforms config allowed queues [] queues
  | call {queues middle next : ScanQueues n} {call : ScanFrame n} {calls : List (ScanFrame n)}
      (first : Reaches (scanStep config allowed) (queues, call) (middle, .idle))
      (rest : ScanPerforms config allowed middle calls next) :
      ScanPerforms config allowed queues (call :: calls) next

theorem ScanPerforms.append {config : ScanConfig n}
    {allowed : ScanFrame n → (Command → Bool) → Prop} {queues next : ScanQueues n}
    {first second : List (ScanFrame n)}
    (performs : ScanPerforms config allowed queues (first ++ second) next) :
    ∃ middle, ScanPerforms config allowed queues first middle
      ∧ ScanPerforms config allowed middle second next := by
  induction first generalizing queues with
  | nil => exact ⟨queues, .done queues, performs⟩
  | cons call calls ih =>
    cases performs with
    | call head rest =>
      obtain ⟨middle, toMiddle, toNext⟩ := ih rest
      exact ⟨middle, .call head toMiddle, toNext⟩

/-- Complete operations that `permits` permits. -/
def scanOperations (config : ScanConfig n) (allowed : ScanFrame n → (Command → Bool) → Prop)
    (permits : ScanQueues n → ScanOperation → Prop) : LabelledStep (ScanQueues n) ScanOperation :=
  fun queues operation next =>
    permits queues operation ∧ ScanPerforms config allowed queues operation.calls next

end Sm8650.Wlan
