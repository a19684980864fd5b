import Mathlib.Data.Finset.Basic

/-!
# Serialization of non-scan commands

The commands of one pdev wait in a pending list until they may become active: one command
for each vdev at a time, and a blocking command alone. The functions here are the sections
under `pdev_queue_lock`; what a thread does after a section is in its result. Return codes
are left out, and the timers of `wlan_serialization_find_and_stop_timer` are outside of the
lock, so whether one is found is an argument.

Sources: `wlan_serialization_non_scan.c`, `wlan_serialization_internal.c`,
`wlan_serialization_queue.c`, `wlan_serialization_utils.c`.
-/

namespace Sm8650.Wlan

open Function

/-- `WLAN_SER_CMD_NONSCAN`, the first type of non-scan commands. -/
def serCmdNonscan : Nat := 1

/-- The fields of `struct wlan_serialization_command` that are read here. -/
structure Command where
  cmdType : Nat
  cmdId : Nat
  vdev : Option Nat
  cmdCb : Bool
  isHighPriority : Bool
  isBlocking : Bool
  queueDisable : Bool
  deriving DecidableEq, Repr

/-- A zeroed command. -/
def Command.zero : Command where
  cmdType := 0
  cmdId := 0
  vdev := none
  cmdCb := false
  isHighPriority := false
  isBlocking := false
  queueDisable := false

/-- The comparison by `WLAN_SER_MATCH_CMD_ID_VDEV`. -/
def Command.matches (queued cmd : Command) : Bool :=
  decide (queued.cmdId = cmd.cmdId ∧ queued.cmdType = cmd.cmdType ∧ queued.vdev = cmd.vdev)

/-- The bits of `cmd_in_use`. -/
structure CmdInUse where
  markedForActivation : Bool
  isActive : Bool
  activeMarkedForCancel : Bool
  activeMarkedForRemoval : Bool
  markedForMovement : Bool
  deriving DecidableEq, Repr

/-- No bit is set. -/
def CmdInUse.none : CmdInUse := ⟨false, false, false, false, false⟩

/-- `struct wlan_serialization_command_list`. -/
structure CommandList where
  cmd : Command
  cmdInUse : CmdInUse
  deriving DecidableEq, Repr

/-- A `qdf_list_t` of commands, each named by its place in the pool. -/
structure CmdQueue where
  nodes : List Nat
  maxSize : Nat
  deriving DecidableEq, Repr

/-- `struct wlan_serialization_pdev_queue` with the commands of the pool and the queues of
the vdevs. -/
structure PdevQueue where
  commands : Nat → CommandList
  activeList : CmdQueue
  pendingList : CmdQueue
  cmdPoolList : List Nat
  vdevActiveList : Nat → CmdQueue
  vdevPendingList : Nat → CmdQueue
  queueDisable : Nat → Bool
  vdevActiveCmdBitmap : Finset Nat
  blockingCmdActive : Bool
  blockingCmdWaiting : BitVec 16

namespace PdevQueue

/-- A queue as `wlan_serialization_pdev_create_handler` and the handlers of the vdevs create
it. -/
def create (maxActive maxPending vdevMaxActive : Nat) (vdevMaxPending : Nat → Nat) : PdevQueue where
  commands := fun _ => ⟨.zero, .none⟩
  activeList := ⟨[], maxActive⟩
  pendingList := ⟨[], maxPending⟩
  cmdPoolList := List.range (maxActive + maxPending)
  vdevActiveList := fun _ => ⟨[], vdevMaxActive⟩
  vdevPendingList := fun vdev => ⟨[], vdevMaxPending vdev⟩
  queueDisable := fun _ => false
  vdevActiveCmdBitmap := ∅
  blockingCmdActive := false
  blockingCmdWaiting := 0

/-- The command at a node. -/
def cmd (queue : PdevQueue) (node : Nat) : Command :=
  (queue.commands node).cmd

/-- Changing the bits of a node. -/
def mark (queue : PdevQueue) (node : Nat) (change : CmdInUse → CmdInUse) : PdevQueue :=
  { queue with
    commands := update queue.commands node
      { queue.commands node with cmdInUse := change (queue.commands node).cmdInUse } }

/-- Writing the command of a node, with its bits. -/
def write (queue : PdevQueue) (node : Nat) (content : CommandList) : PdevQueue :=
  { queue with commands := update queue.commands node content }

/-- `wlan_serialization_any_vdev_cmd_active`. -/
def anyVdevCmdActive (queue : PdevQueue) : Bool :=
  decide (queue.vdevActiveCmdBitmap ≠ ∅)

/-- The bit of the vdev of a command. -/
def vdevCmdActive (queue : PdevQueue) (cmd : Command) : Bool :=
  match cmd.vdev with
  | some vdev => decide (vdev ∈ queue.vdevActiveCmdBitmap)
  | none => false

/-- `wlan_serialization_get_list_from_pdev_queue`. -/
def pdevList (queue : PdevQueue) (active : Bool) : CmdQueue :=
  if active then queue.activeList else queue.pendingList

/-- `wlan_serialization_get_list_from_vdev_queue`. -/
def vdevList (queue : PdevQueue) (vdev : Nat) (active : Bool) : CmdQueue :=
  if active then queue.vdevActiveList vdev else queue.vdevPendingList vdev

/-- A list of the pdev with other nodes. -/
def setPdevList (queue : PdevQueue) (active : Bool) (nodes : List Nat) : PdevQueue :=
  if active then { queue with activeList := { queue.activeList with nodes } }
  else { queue with pendingList := { queue.pendingList with nodes } }

/-- A list of a vdev with other nodes. -/
def setVdevList (queue : PdevQueue) (vdev : Nat) (active : Bool) (nodes : List Nat) : PdevQueue :=
  if active then
    { queue with
      vdevActiveList := update queue.vdevActiveList vdev
        { queue.vdevActiveList vdev with nodes } }
  else
    { queue with
      vdevPendingList := update queue.vdevPendingList vdev
        { queue.vdevPendingList vdev with nodes } }

/-- `wlan_serialization_find_cmd` by id, type and vdev. -/
def findCmd (queue : PdevQueue) (nodes : List Nat) (cmd : Command) : Option Nat :=
  nodes.find? fun node => (queue.cmd node).matches cmd

/-! ## Adding a command -/

/-- `wlan_serialization_add_cmd_to_queue` on a list that has room. -/
def insertNode (queue : PdevQueue) (node : Nat) (nodes : List Nat) : List Nat :=
  if (queue.cmd node).isHighPriority then node :: nodes else nodes ++ [node]

/-- `wlan_serialization_add_cmd_to_vdev_queue`; the last component says whether the list
had room. -/
def addToVdevQueue (queue : PdevQueue) (node vdev : Nat) (active : Bool) : PdevQueue × Bool :=
  let list := queue.vdevList vdev active
  let full := decide (list.nodes.length = list.maxSize)
  let added :=
    if full then queue else queue.setVdevList vdev active (queue.insertNode node list.nodes)
  (if (queue.cmd node).queueDisable then
      { added with queueDisable := update added.queueDisable vdev true }
    else added,
    !full)

/-- `wlan_serialization_add_cmd_to_pdev_queue` on a list that has room. -/
def addToPdevQueue (queue : PdevQueue) (node : Nat) (active : Bool) : Option PdevQueue :=
  let list := queue.pdevList active
  if list.nodes.length = list.maxSize then none
  else some (queue.setPdevList active (queue.insertNode node list.nodes))

/-- What `wlan_serialization_remove_cmd_from_queue` finds. -/
inductive Removal
  | failure
  | pending
  | removed (node : Nat)
  deriving DecidableEq, Repr

/-- `wlan_serialization_remove_cmd_from_queue` on a list: a command that is about to be
activated is marked for removal only. -/
def removeFromVdevQueue (queue : PdevQueue) (cmd : Command) (vdev : Nat) (active : Bool) :
    PdevQueue × Removal :=
  match queue.findCmd (queue.vdevList vdev active).nodes cmd with
  | none => (queue, .failure)
  | some node =>
    if (queue.commands node).cmdInUse.markedForActivation then
      (queue.mark node fun bits => { bits with activeMarkedForRemoval := true }, .pending)
    else
      (queue.setVdevList vdev active ((queue.vdevList vdev active).nodes.erase node), .removed node)

/-- `wlan_serialization_remove_cmd_from_pdev_queue`. -/
def removeFromPdevQueue (queue : PdevQueue) (cmd : Command) (active : Bool) : PdevQueue × Removal :=
  match queue.findCmd (queue.pdevList active).nodes cmd with
  | none => (queue, .failure)
  | some node =>
    if (queue.commands node).cmdInUse.markedForActivation then
      (queue.mark node fun bits => { bits with activeMarkedForRemoval := true }, .pending)
    else
      (queue.setPdevList active ((queue.pdevList active).nodes.erase node), .removed node)

/-- The command at `node` has become active. -/
def setActive (queue : PdevQueue) (node vdev : Nat) : PdevQueue :=
  { queue with
    vdevActiveCmdBitmap := insert vdev queue.vdevActiveCmdBitmap
    blockingCmdActive := queue.blockingCmdActive || (queue.cmd node).isBlocking }

/-- `wlan_ser_add_non_scan_cmd` of a command of `vdev`; the last component says whether it
was added. -/
def addNonScanCmd (queue : PdevQueue) (node vdev : Nat) (active : Bool) : PdevQueue × Bool :=
  match queue.addToVdevQueue node vdev active with
  | (queue, false) => (queue, false)
  | (queue, true) =>
    match queue.addToPdevQueue node active with
    | none => ((queue.removeFromVdevQueue (queue.cmd node) vdev active).1, false)
    | some queue => (if active then queue.setActive node vdev else queue, true)

/-! ## Requests -/

/-- `wlan_serialization_is_active_non_scan_cmd_allowed`, which counts a blocking command
that has to wait. The number of waiting commands is read into eight bits. -/
def isActiveNonScanCmdAllowed (queue : PdevQueue) (cmd : Command) : PdevQueue × Bool :=
  if cmd.isBlocking then
    if queue.anyVdevCmdActive then
      ({ queue with blockingCmdWaiting := queue.blockingCmdWaiting + 1 }, false)
    else (queue, true)
  else if queue.blockingCmdActive || decide (queue.blockingCmdWaiting.setWidth 8 ≠ 0) then
    (queue, false)
  else (queue, !queue.vdevCmdActive cmd)

/-- The section of `wlan_serialization_enqueue_cmd` for a request, with the node to
activate. -/
def enqueueSection (queue : PdevQueue) (cmd : Command) : PdevQueue × Option Nat :=
  match cmd.vdev with
  | none => (queue, none)
  | some vdev =>
    if cmd.cmdCb = false ∨ queue.queueDisable vdev = true then (queue, none)
    else
      let allowed := queue.isActiveNonScanCmdAllowed cmd
      let queue := allowed.1
      let active := allowed.2 && (queue.vdevPendingList vdev).nodes.isEmpty
      if (queue.findCmd (queue.vdevList vdev active).nodes cmd).isSome then (queue, none)
      else
        match queue.cmdPoolList with
        | [] => (queue, none)
        | node :: pool =>
          let taken := ({ queue with cmdPoolList := pool }).write node
            { queue.commands node with cmd }
          match taken.addNonScanCmd node vdev active with
          | (queue, true) =>
            if active then
              (queue.mark node fun bits => { bits with markedForActivation := true }, some node)
            else (queue, none)
          | (queue, false) =>
            let released := queue.write node ⟨.zero, .none⟩
            ({ released with cmdPoolList := released.cmdPoolList ++ [node] }, none)

/-! ## Removals -/

/-- `wlan_ser_remove_non_scan_cmd`. -/
def removeNonScanCmd (queue : PdevQueue) (cmd : Command) (active : Bool) : PdevQueue × Removal :=
  match cmd.vdev with
  | none => (queue, .failure)
  | some vdev =>
    match queue.removeFromVdevQueue cmd vdev active with
    | (queue, .failure) => (queue, .failure)
    | (queue, .pending) => (queue, .pending)
    | (queue, .removed _) =>
      match queue.removeFromPdevQueue cmd active with
      | (queue, .removed node) =>
        if active then
          ({ queue with
              blockingCmdActive :=
                if (queue.cmd node).isBlocking then false else queue.blockingCmdActive
              vdevActiveCmdBitmap := queue.vdevActiveCmdBitmap.erase vdev },
            .removed node)
        else (queue, .removed node)
      | (queue, _) => (queue, .failure)

/-- The command of a removed node goes back to the pool. -/
def release (queue : PdevQueue) (node : Nat) : PdevQueue :=
  { queue.write node ⟨.zero, .none⟩ with cmdPoolList := queue.cmdPoolList ++ [node] }

/-- The section of `wlan_serialization_dequeue_cmd`, with the command that was removed. -/
def dequeueSection (queue : PdevQueue) (cmd : Command) (active : Bool) :
    PdevQueue × Option Command :=
  match queue.removeNonScanCmd cmd active with
  | (queue, .removed node) => (queue.release node, some (queue.cmd node))
  | (queue, _) => (queue, none)

/-! ## Promotion -/

/-- Where `wlan_ser_move_non_scan_pending_to_active` looks for a command: the pending list
of a vdev, or nothing for the pending list of the pdev. -/
def vdevQueueLookup (queue : PdevQueue) (vdev : Option Nat) (blockingCmdRemoved : Bool) :
    Option Nat :=
  if blockingCmdRemoved = false ∧ queue.blockingCmdWaiting = 0 then vdev else none

/-- The next node to look at is marked for movement. -/
def markNext (queue : PdevQueue) : List Nat → PdevQueue
  | [] => queue
  | next :: _ => queue.mark next fun bits => { bits with markedForMovement := true }

/-- The search of the pending list of the pdev: a node to promote, and the queue with the
nodes marked that were looked at. -/
def searchPending (queue : PdevQueue) : List Nat → PdevQueue × Option Nat
  | [] => (queue, none)
  | node :: rest =>
    if (queue.cmd node).isBlocking && queue.anyVdevCmdActive then (queue, none)
    else
      let marked := queue.markNext rest
      if marked.vdevCmdActive (marked.cmd node) then
        (marked.mark node fun bits => { bits with markedForMovement := false }).searchPending rest
      else (marked, some node)

/-- The search of the pending list of a vdev, of which only the first command is looked
at. -/
def searchVdev (queue : PdevQueue) (vdev : Nat) : Option Nat :=
  match (queue.vdevPendingList vdev).nodes with
  | [] => none
  | node :: _ =>
    if queue.vdevCmdActive (queue.cmd node) ||
        (queue.commands node).cmdInUse.markedForMovement then none
    else some node

/-- The search of `wlan_ser_move_non_scan_pending_to_active`. -/
def search (queue : PdevQueue) (lookup : Option Nat) : PdevQueue × Option Nat :=
  match lookup with
  | some vdev => (queue, queue.searchVdev vdev)
  | none => queue.searchPending queue.pendingList.nodes

/-- Moving a pending command to the active lists; the result is the node to activate. -/
def promote (queue : PdevQueue) (cmd : Command) : PdevQueue × Option Nat :=
  match queue.removeNonScanCmd cmd false, cmd.vdev with
  | (queue, .removed node), some vdev =>
    match queue.addNonScanCmd node vdev true with
    | (queue, true) =>
      let marked := queue.mark node fun bits => { bits with markedForActivation := true }
      ({ marked with
          blockingCmdWaiting :=
            if (queue.cmd node).isBlocking then queue.blockingCmdWaiting - 1
            else queue.blockingCmdWaiting },
        some node)
    | (queue, false) => ({ queue with cmdPoolList := queue.cmdPoolList ++ [node] }, none)
  | (queue, _), _ => (queue, none)

/-- A section of `wlan_ser_move_non_scan_pending_to_active`, up to the activation of a
command or to the end. -/
def moveSection (queue : PdevQueue) (lookup : Option Nat) : PdevQueue × Option Nat :=
  match queue.search lookup with
  | (queue, none) => (queue, none)
  | (queue, some node) => queue.promote (queue.cmd node)

/-! ## Activation -/

/-- The section of `wlan_serialization_activate_cmd`. -/
def activateSection (queue : PdevQueue) (node : Nat) : PdevQueue :=
  queue.mark node fun bits => { bits with markedForActivation := false, isActive := true }

end PdevQueue

/-! ## Cancelation -/

/-- What `wlan_ser_cancel_non_scan_cmd` is asked for. -/
structure CancelRequest where
  pdev : Bool
  vdev : Option Nat
  cmd : Option Command
  cmdType : Nat
  isActiveQueue : Bool
  nonblock : Bool
  deriving DecidableEq, Repr

/-- The requested commands. -/
def CancelRequest.selects (request : CancelRequest) (queued : Command) : Bool :=
  (match request.cmd with
    | some cmd => queued.matches cmd
    | none => true) &&
  (match request.vdev with
    | some vdev => decide (queued.vdev = some vdev)
    | none => true) &&
  !(decide (request.cmdType > serCmdNonscan) && request.vdev.isSome &&
    decide (queued.cmdType ≠ request.cmdType)) &&
  !(request.nonblock && queued.isBlocking)

/-- The psoc is found from the pdev, the vdev or the command. -/
def CancelRequest.hasPsoc (request : CancelRequest) : Bool :=
  request.pdev || request.vdev.isSome ||
    match request.cmd with
    | some cmd => cmd.vdev.isSome
    | none => false

/-- `wlan_serialization_get_cmd_from_queue`: the first node, or the one after a node of the
list. -/
def nextNode (nodes : List Nat) : Option Nat → Option Nat
  | none => nodes.head?
  | some node => (nodes.dropWhile fun other => decide (other ≠ node)).tail.head?

/-- Where the loop of a cancelation stops: at its end, or after it has removed a command, to
go on behind `pnode` with `qsize` rounds left. -/
inductive CancelStop
  | finished
  | removed (cmd : Command) (pnode : Option Nat) (qsize : Nat)
  deriving DecidableEq, Repr

namespace PdevQueue

/-- Taking a canceled command out of the lists; if the list of its vdev is empty, it is in
no list afterwards. -/
def cancelNode (queue : PdevQueue) (node : Nat) (active : Bool) (pnode : Option Nat)
    (qsize : Nat) : PdevQueue × CancelStop :=
  let cmd := queue.cmd node
  let taken := queue.setPdevList active ((queue.pdevList active).nodes.erase node)
  match cmd.vdev with
  | none => (taken, .finished)
  | some vdev =>
    if (taken.vdevList vdev active).nodes = [] then (taken, .finished)
    else
      ((taken.setVdevList vdev active ((taken.vdevList vdev active).nodes.erase node)).release
        node, .removed cmd pnode qsize)

/-- The loop of `wlan_ser_cancel_non_scan_cmd` as far as it keeps the lock. -/
def cancelLoop (request : CancelRequest) (timerFound : Bool) :
    Nat → PdevQueue → Option Nat → Option Nat → PdevQueue × CancelStop
  | 0, queue, _, _ => (queue, .finished)
  | qsize + 1, queue, nnode, pnode =>
    match nextNode (queue.pdevList request.isActiveQueue).nodes nnode with
    | none => (queue, .finished)
    | some node =>
      if request.selects (queue.cmd node) = false then
        cancelLoop request timerFound qsize queue (some node) (some node)
      else if request.isActiveQueue then
        if request.hasPsoc = false then (queue, .finished)
        else if (queue.commands node).cmdInUse.markedForActivation then
          cancelLoop request timerFound qsize
            (queue.mark node fun bits => { bits with activeMarkedForCancel := true })
            (some node) pnode
        else if timerFound then queue.cancelNode node true pnode qsize
        else (queue, .finished)
      else queue.cancelNode node false pnode qsize

/-- The first section of `wlan_ser_cancel_non_scan_cmd`. -/
def cancelSection (queue : PdevQueue) (request : CancelRequest) (timerFound : Bool) :
    PdevQueue × CancelStop :=
  cancelLoop request timerFound (queue.pdevList request.isActiveQueue).nodes.length queue none none

/-- The bookkeeping for a canceled command, after its callbacks. -/
def cancelFinish (queue : PdevQueue) (request : CancelRequest) (cmd : Command) : PdevQueue :=
  if request.isActiveQueue then
    { queue with
      blockingCmdActive := if cmd.isBlocking then false else queue.blockingCmdActive
      vdevActiveCmdBitmap :=
        match cmd.vdev with
        | some vdev => queue.vdevActiveCmdBitmap.erase vdev
        | none => queue.vdevActiveCmdBitmap }
  else
    { queue with
      blockingCmdWaiting :=
        if cmd.isBlocking then queue.blockingCmdWaiting - 1 else queue.blockingCmdWaiting }

/-- The loop of a cancelation goes on behind a node that has left the list meanwhile. -/
def cancelStrays (queue : PdevQueue) (request : CancelRequest) (pnode : Option Nat)
    (qsize : Nat) : Bool :=
  let nodes := (queue.pdevList request.isActiveQueue).nodes
  (request.vdev.isSome || request.pdev) && decide (0 < qsize) && !nodes.isEmpty &&
    match pnode with
    | some node => decide (node ∉ nodes)
    | none => false

/-- The section of `wlan_ser_cancel_non_scan_cmd` after the callbacks of a canceled command:
the loop goes on unless a single command was asked for. The node it goes on behind is still
in the list. -/
def cancelResume (queue : PdevQueue) (request : CancelRequest) (timerFound : Bool)
    (cmd : Command) (pnode : Option Nat) (qsize : Nat) : PdevQueue × CancelStop :=
  let queue := queue.cancelFinish request cmd
  if request.vdev = none ∧ request.pdev = false then (queue, .finished)
  else cancelLoop request timerFound qsize queue pnode pnode

end PdevQueue

end Sm8650.Wlan
