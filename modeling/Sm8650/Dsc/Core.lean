import Mathlib.Data.BitVec

/-!
# Driver synchronization core

The `dsc` component orders long-running transitions and short operations on a
tree of one driver, its psocs and their vdevs. Every call runs under the
driver lock and is modelled as one function on the state; a call that blocks
leaves its thread waiting, and the wake-up is a step of its own.

The state carries a little more than the source: the owner of each transition,
a ticket that tells two transitions of one thread apart, and a log of what
happened to queued transitions. None of these is read by the modelled calls.
-/

namespace Sm8650.Dsc

open Function

/-- The contexts of the tree, named by their position. -/
inductive Node
  | driver
  | psoc (psoc : Nat)
  | vdev (psoc vdev : Nat)
  deriving DecidableEq, Repr

/-- The members of `QDF_STATUS` that the component returns. -/
inductive QdfStatus
  | success
  | eInval
  | eAgain
  | eBusy
  | eAborted
  | eNoMem
  deriving DecidableEq, Repr

/-- `struct dsc_tran`, with its owner and its ticket. -/
structure DscTran where
  ticket : Nat
  thread : Nat
  desc : String
  deriving DecidableEq, Repr

/-- `struct dsc_trans`: the active transition and the queue of pending ones. -/
structure DscTrans where
  active : Option DscTran
  queue : List DscTran
  deriving DecidableEq, Repr

/-- The container as `__dsc_trans_init` leaves it. -/
def DscTrans.idle : DscTrans where
  active := none
  queue := []

/-- What a blocked thread waits for: its transition, the node it is queued on,
and its event with the `abort` flag once it is set. -/
structure Wait where
  node : Node
  tran : DscTran
  event : Option Bool
  deriving DecidableEq, Repr

/-- The fate of queued transitions. -/
inductive Event
  | queued (node : Node) (tran : DscTran)
  | started (node : Node) (tran : DscTran)
  | aborted (node : Node) (tran : DscTran)
  deriving DecidableEq, Repr

/-- The `dsc_assert` conditions of the modelled calls. -/
inductive Assertion
  | transNotActive
  | transActive
  | opsCount
  | noOpsInFlight
  | noChildren
  deriving DecidableEq, Repr

structure State where
  driver : Bool
  psocs : List Nat
  vdevs : Nat → List Nat
  trans : Node → DscTrans
  opsCount : Node → Nat
  waits : Nat → Option Wait
  nextTicket : Nat
  log : List Event
  failed : List Assertion

/-- Before `dsc_driver_create`. -/
def State.initial : State where
  driver := false
  psocs := []
  vdevs := fun _ => []
  trans := fun _ => .idle
  opsCount := fun _ => 0
  waits := fun _ => none
  nextTicket := 0
  log := []
  failed := []

/-- The node is attached to the tree. -/
def State.Attached (state : State) : Node → Prop
  | .driver => state.driver = true
  | .psoc p => p ∈ state.psocs
  | .vdev p v => v ∈ state.vdevs p

instance (state : State) : (node : Node) → Decidable (state.Attached node)
  | .driver => inferInstanceAs (Decidable (_ = _))
  | .psoc _ => inferInstanceAs (Decidable (_ ∈ _))
  | .vdev _ _ => inferInstanceAs (Decidable (_ ∈ _))

/-- The node has no children. -/
def State.Childless (state : State) : Node → Prop
  | .driver => state.psocs = []
  | .psoc p => state.vdevs p = []
  | .vdev _ _ => True

instance (state : State) : (node : Node) → Decidable (state.Childless node)
  | .driver => inferInstanceAs (Decidable (_ = _))
  | .psoc _ => inferInstanceAs (Decidable (_ = _))
  | .vdev _ _ => inferInstanceAs (Decidable True)

/-- A failed `dsc_assert` is recorded and execution goes on. -/
def dscAssert (condition : Bool) (assertion : Assertion) (state : State) : State :=
  if condition then state else { state with failed := assertion :: state.failed }

def State.setTrans (state : State) (node : Node) (trans : DscTrans) : State :=
  { state with trans := update state.trans node trans }

def State.setOps (state : State) (node : Node) (count : Nat) : State :=
  { state with opsCount := update state.opsCount node count }

def State.record (state : State) (event : Event) : State :=
  { state with log := state.log ++ [event] }

/-- Sets the event of a waiting thread. -/
def State.setEvent (state : State) (thread : Nat) (abort : Bool) : State :=
  { state with
    waits := update state.waits thread
      ((state.waits thread).map fun wait => { wait with event := some abort }) }

/-! ## Transitions and operations of one node -/

/-- `__dsc_trans_active`. -/
def transActive (state : State) (node : Node) : Bool :=
  (state.trans node).active.isSome

/-- `__dsc_trans_queued`. -/
def transQueued (state : State) (node : Node) : Bool :=
  !(state.trans node).queue.isEmpty

/-- `__dsc_trans_active_or_queued`. -/
def transActiveOrQueued (state : State) (node : Node) : Bool :=
  transActive state node || transQueued state node

/-- `__dsc_trans_start`. -/
def transStart (state : State) (node : Node) (tran : DscTran) : State :=
  (dscAssert (!transActive state node) .transNotActive state).setTrans node
    { state.trans node with active := some tran }

/-- `__dsc_trans_stop`. -/
def transStop (state : State) (node : Node) : State :=
  (dscAssert (transActive state node) .transActive state).setTrans node
    { state.trans node with active := none }

/-- `__dsc_trans_queue`, followed by the wait on the transition's event. -/
def transQueue (state : State) (node : Node) (tran : DscTran) : State :=
  { (state.setTrans node
      { state.trans node with queue := (state.trans node).queue ++ [tran] }).record
        (.queued node tran) with
    waits := update state.waits tran.thread (some ⟨node, tran, none⟩) }

/-- `__dsc_trans_dequeue`. -/
def transDequeue (state : State) (node : Node) : Option (DscTran × State) :=
  match (state.trans node).queue with
  | [] => none
  | tran :: rest =>
    some (tran, state.setTrans node { state.trans node with queue := rest })

/-- `__dsc_trans_abort`. -/
def transAbort (state : State) (node : Node) : State × Bool :=
  match transDequeue state node with
  | none => (state, false)
  | some (tran, state) =>
    ((state.setEvent tran.thread true).record (.aborted node tran), true)

/-- `__dsc_trans_trigger`. -/
def transTrigger (state : State) (node : Node) : State × Bool :=
  match transDequeue state node with
  | none => (state, false)
  | some (tran, state) =>
    (((transStart state node tran).setEvent tran.thread false).record (.started node tran), true)

/-- `while (__dsc_trans_abort(trans)) ;`, with the number of turns bounded by
`fuel`. -/
def transFlush (node : Node) : Nat → State → State
  | 0, state => state
  | fuel + 1, state =>
    match transAbort state node with
    | (state, true) => transFlush node fuel state
    | (state, false) => state

/-- `__dsc_ops_insert`; the counter is a `uint32_t`. -/
def opsInsert (state : State) (node : Node) : State :=
  state.setOps node ((state.opsCount node + 1) % 2 ^ 32)

/-- `__dsc_ops_remove`. -/
def opsRemove (state : State) (node : Node) : State :=
  (dscAssert (decide (state.opsCount node ≠ 0)) .opsCount state).setOps node
    ((state.opsCount node + (2 ^ 32 - 1)) % 2 ^ 32)

/-! ## Admission -/

/-- What the vdev checks ask the platform. -/
structure Platform where
  isRecovering : Bool
  isDriverUnloading : Bool
  deriving DecidableEq, Repr

/-- `__dsc_psoc_trans_active_down_tree`. -/
def psocTransActiveDownTree (state : State) (p : Nat) : Bool :=
  (state.vdevs p).any fun v => transActive state (.vdev p v)

/-- `__dsc_driver_trans_active_down_tree`. -/
def driverTransActiveDownTree (state : State) : Bool :=
  state.psocs.any fun p =>
    transActive state (.psoc p) || psocTransActiveDownTree state p

/-- `__dsc_driver_can_trans`. -/
def driverCanTrans (state : State) : Bool :=
  !transActiveOrQueued state .driver && !driverTransActiveDownTree state

/-- `__dsc_driver_can_trigger`. -/
def driverCanTrigger (state : State) : Bool :=
  !transActive state .driver && !driverTransActiveDownTree state

/-- `__dsc_psoc_can_trans`. -/
def psocCanTrans (state : State) (p : Nat) : QdfStatus :=
  if transActiveOrQueued state .driver then
    .eInval
  else if transActiveOrQueued state (.psoc p) || psocTransActiveDownTree state p then
    .eAgain
  else
    .success

/-- `__dsc_psoc_can_trigger`. -/
def psocCanTrigger (state : State) (p : Nat) : Bool :=
  !transActiveOrQueued state .driver && !transActive state (.psoc p) &&
    !psocTransActiveDownTree state p

/-- `__dsc_vdev_can_trans`. -/
def vdevCanTrans (state : State) (platform : Platform) (p v : Nat) : QdfStatus :=
  if transActiveOrQueued state .driver then
    .eInval
  else if platform.isRecovering then
    .eInval
  else if transActiveOrQueued state (.psoc p) then
    if platform.isDriverUnloading then .eInval else .eBusy
  else if transActiveOrQueued state (.vdev p v) then
    .eBusy
  else
    .success

/-- The check of the node's own kind, which also admits operations; the driver
answers `QDF_STATUS_E_AGAIN` for a refusal. -/
def canTrans (state : State) (platform : Platform) : Node → QdfStatus
  | .driver => if driverCanTrans state then .success else .eAgain
  | .psoc p => psocCanTrans state p
  | .vdev p v => vdevCanTrans state platform p v

/-- Whether `start_wait` queues after this refusal: psocs and vdevs reject on
`QDF_STATUS_E_INVAL`, the driver queues on every error. -/
def Node.waitsOn : Node → QdfStatus → Bool
  | .driver, _ => true
  | .psoc _, status | .vdev _ _, status => decide (status ≠ .eInval)

/-! ## Triggers after a stop -/

/-- `__dsc_driver_trans_trigger_checked`. -/
def driverTransTriggerChecked (state : State) : State × Bool :=
  if !transQueued state .driver then
    (state, false)
  else if !driverCanTrigger state then
    (state, true)
  else
    transTrigger state .driver

/-- `__dsc_psoc_trans_trigger_checked`. -/
def psocTransTriggerChecked (state : State) (p : Nat) : State × Bool :=
  if (state.trans (.psoc p)).queue.isEmpty then
    (state, false)
  else if !psocCanTrigger state p then
    (state, true)
  else
    transTrigger state (.psoc p)

/-- `dsc_for_each_psoc_vdev(psoc, vdev) __dsc_trans_trigger(&vdev->trans)`. -/
def triggerVdevs (state : State) (p : Nat) : State :=
  (state.vdevs p).foldl (fun state v => (transTrigger state (.vdev p v)).1) state

/-- One turn of the psoc loop of `__dsc_driver_trigger_trans`. -/
def triggerPsocOrVdevs (state : State) (p : Nat) : State :=
  match transTrigger state (.psoc p) with
  | (state, true) => state
  | (state, false) => triggerVdevs state p

/-- `__dsc_driver_trigger_trans`. -/
def driverTriggerTrans (state : State) : State :=
  match transTrigger state .driver with
  | (state, true) => state
  | (state, false) => state.psocs.foldl triggerPsocOrVdevs state

/-- `__dsc_psoc_trigger_trans`. -/
def psocTriggerTrans (state : State) (p : Nat) : State :=
  match driverTransTriggerChecked state with
  | (state, true) => state
  | (state, false) => triggerPsocOrVdevs state p

/-- `__dsc_vdev_trigger_trans`. -/
def vdevTriggerTrans (state : State) (p v : Nat) : State :=
  match driverTransTriggerChecked state with
  | (state, true) => state
  | (state, false) =>
    match psocTransTriggerChecked state p with
    | (state, true) => state
    | (state, false) => (transTrigger state (.vdev p v)).1

def triggerTrans (state : State) : Node → State
  | .driver => driverTriggerTrans state
  | .psoc p => psocTriggerTrans state p
  | .vdev p v => vdevTriggerTrans state p v

/-! ## The calls -/

/-- What a call answers: a status, or nothing yet. -/
inductive Outcome
  | returned (status : QdfStatus)
  | blocked
  deriving DecidableEq, Repr

/-- The transition that the next call of `thread` would create. -/
def State.newTran (state : State) (thread : Nat) (desc : String) : DscTran where
  ticket := state.nextTicket
  thread := thread
  desc := desc

def State.issueTicket (state : State) : State :=
  { state with nextTicket := state.nextTicket + 1 }

/-- `dsc_{driver,psoc,vdev}_trans_start`. -/
def dscTransStart (state : State) (platform : Platform) (thread : Nat) (node : Node)
    (desc : String) : State × Outcome :=
  match canTrans state platform node with
  | .success =>
    (transStart state.issueTicket node (state.newTran thread desc), .returned .success)
  | status => (state, .returned status)

/-- `dsc_{driver,psoc,vdev}_trans_start_wait`. -/
def dscTransStartWait (state : State) (platform : Platform) (thread : Nat)
    (node : Node) (desc : String) : State × Outcome :=
  match canTrans state platform node with
  | .success =>
    (transStart state.issueTicket node (state.newTran thread desc), .returned .success)
  | status =>
    if node.waitsOn status then
      (transQueue state.issueTicket node (state.newTran thread desc), .blocked)
    else
      (state, .returned status)

/-- `dsc_{driver,psoc,vdev}_trans_stop`. -/
def dscTransStop (state : State) (node : Node) : State :=
  triggerTrans (transStop state node) node

/-- `dsc_{driver,psoc,vdev}_op_start`. -/
def dscOpStart (state : State) (platform : Platform) (node : Node) : State × Outcome :=
  match canTrans state platform node with
  | .success => (opsInsert state node, .returned .success)
  | status => (state, .returned status)

/-- Adds the node to its parent's list. -/
def State.attach (state : State) : Node → State
  | .driver => { state with driver := true }
  | .psoc p => { state with psocs := state.psocs ++ [p] }
  | .vdev p v =>
    { state with vdevs := update state.vdevs p (state.vdevs p ++ [v]) }

/-- Removes the node from its parent's list. -/
def State.detach (state : State) : Node → State
  | .driver => { state with driver := false }
  | .psoc p => { state with psocs := state.psocs.erase p }
  | .vdev p v =>
    { state with vdevs := update state.vdevs p ((state.vdevs p).erase v) }

/-- `dsc_{driver,psoc,vdev}_create`; `allocated` tells whether memory was
available. -/
def dscCreate (state : State) (node : Node) (allocated : Bool) : State × Outcome :=
  if allocated then
    (((state.attach node).setTrans node .idle).setOps node 0, .returned .success)
  else
    (state, .returned .eNoMem)

/-- `dsc_{driver,psoc,vdev}_destroy`. -/
def dscDestroy (state : State) (node : Node) : State :=
  let asserted := dscAssert (decide (state.Childless node)) .noChildren state
  let flushed := transFlush node ((state.trans node).queue.length + 1) asserted
  let drained := dscAssert (decide (state.opsCount node = 0)) .noOpsInFlight
    (flushed.detach node)
  (drained.setTrans node .idle).setOps node 0

/-- The return of `__dsc_tran_wait` in a thread whose event was set. -/
def dscTranWait (state : State) (thread : Nat) : State × Outcome :=
  match state.waits thread with
  | some ⟨_, _, some abort⟩ =>
    ({ state with waits := update state.waits thread none },
      .returned (if abort then .eAborted else .success))
  | _ => (state, .blocked)

/-- One atomic step of the system. -/
inductive Call
  | create (node : Node) (allocated : Bool)
  | destroy (node : Node)
  | transStart (platform : Platform) (thread : Nat) (node : Node) (desc : String)
  | transStartWait (platform : Platform) (thread : Nat) (node : Node) (desc : String)
  | transStop (thread : Nat) (node : Node)
  | opStart (platform : Platform) (thread : Nat) (node : Node)
  | opStop (thread : Nat) (node : Node)
  | wakeUp (thread : Nat)
  deriving DecidableEq, Repr

def Call.run (state : State) : Call → State × Outcome
  | .create node allocated => dscCreate state node allocated
  | .destroy node => (dscDestroy state node, .returned .success)
  | .transStart platform thread node desc =>
    dscTransStart state platform thread node desc
  | .transStartWait platform thread node desc =>
    dscTransStartWait state platform thread node desc
  | .transStop _ node => (dscTransStop state node, .returned .success)
  | .opStart platform _ node => dscOpStart state platform node
  | .opStop _ node => (opsRemove state node, .returned .success)
  | .wakeUp thread => dscTranWait state thread

/-- The parent a node is attached to. -/
def Node.parent : Node → Option Node
  | .driver => none
  | .psoc _ => some .driver
  | .vdev p _ => some (.psoc p)

/-- When a call may be made. A blocked thread makes none; nodes are attached
below attached parents and destroyed without children, active transition or
operations; a transition is stopped by its holder, an operation only where one
is in flight; and a thread wakes up once its event is set. -/
def Call.Permitted (state : State) : Call → Prop
  | .create node _ =>
    ¬ state.Attached node ∧ ∀ parent ∈ node.parent, state.Attached parent
  | .destroy node =>
    state.Attached node ∧ state.Childless node ∧
      (state.trans node).active = none ∧ state.opsCount node = 0
  | .transStart _ thread node _ | .transStartWait _ thread node _
  | .opStart _ thread node =>
    state.waits thread = none ∧ state.Attached node
  | .transStop thread node =>
    state.waits thread = none ∧ state.Attached node ∧
      ∃ tran ∈ (state.trans node).active, tran.thread = thread
  | .opStop thread node =>
    state.waits thread = none ∧ state.Attached node ∧ state.opsCount node ≠ 0
  | .wakeUp thread => ∃ wait ∈ state.waits thread, wait.event ≠ none

end Sm8650.Dsc
