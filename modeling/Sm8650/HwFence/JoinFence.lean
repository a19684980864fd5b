import Sm8650.HwFence.Table

/-!
# Registration of fence arrays

A client that waits for a fence array gets a join fence, which every child of the
array that is not signaled yet is told to signal. The children and the join fence
are updated one lock section at a time, so registrations of several clients
interleave; a registration that fails goes back over the children it visited.

Source: `hw_fence_drv_priv.c`.
-/

namespace Sm8650.HwFence

open Function

/-- `MSM_HW_FENCE_FLAG_SIGNAL`. -/
def msmHwFenceFlagSignal : U64 := 1

/-- `HW_FENCE_JOIN_FENCE_CLIENT_ID`. -/
def hwFenceJoinFenceClientId : BitVec 32 := BitVec.allOnes 32

/-- What the driver looks at in an element of a fence array: its key, whether it is a
fence array itself, and `MSM_HW_FENCE_FLAG_ENABLED_BIT`. -/
structure ChildFence where
  context : U64
  seqno : U64
  isFenceArray : Bool
  enabled : Bool
  deriving DecidableEq, Repr

/-- `struct dma_fence_array`; `num_fences` is an `unsigned int`. -/
structure FenceArray where
  context : U64
  seqno : U64
  fences : List ChildFence
  numFences_lt : fences.length < 2 ^ 32

/-- The next section of a registration. -/
inductive Phase
  | create
  | waitMask
  | find (i : Nat)
  | update (i slot : Nat)
  | finish
  | destroySignaled
  | cleanupFind (idx : Nat)
  | cleanupUpdate (idx slot : Nat)
  | destroyJoin
  | returned (ret : Int)
  deriving DecidableEq, Repr

/-- A call of `hw_fence_process_fence_array` with its variables. `dataId` is the value
of `hw_fence_get_client_data_id` for the client, `qtime` the time at which the join
fence is created; `unsignaled` counts the positions of the array whose child was not
signaled when it was visited. -/
structure Registration where
  clientId : Nat
  dataId : Nat
  clientData : U64
  array : FenceArray
  qtime : U64
  phase : Phase
  hashJoinFence : Nat
  signalJoinFence : Bool
  unsignaled : Nat

/-- The lookup made by `_hw_fence_process_join_fence` to create the join fence. -/
def FenceArray.createRequest (array : FenceArray) (qtime : U64) : Request where
  op := .createJoin
  context := array.context
  seqno := array.seqno
  clientId := hwFenceJoinFenceClientId
  pendingChildCnt := BitVec.ofNat 32 array.fences.length
  qtime

/-- The lookup made by `_hw_fence_process_join_fence` to destroy the join fence. -/
def FenceArray.destroyRequest (array : FenceArray) : Request where
  op := .destroy
  context := array.context
  seqno := array.seqno
  clientId := hwFenceJoinFenceClientId
  pendingChildCnt := 0
  qtime := 0

/-- The lookup made by `msm_hw_fence_find`. -/
def ChildFence.findRequest (child : ChildFence) (clientId : Nat) : Request where
  op := .findFence
  context := child.context
  seqno := child.seqno
  clientId := BitVec.ofNat 32 clientId
  pendingChildCnt := 0
  qtime := 0

/-- The fence table, the registrations under way, and for each slot the hashes of the
join fences that are registered on it: a hash is entered when a registration adds it
to a child and taken out when the registration cleans that child up. -/
structure JoinSystem where
  table : List MsmHwFence
  registrations : Nat → Registration
  registered : Nat → List Nat

/-- `child fence is not signaled`: one more parent, or `none` when there are too many. -/
def addParent (hash : Nat) (child : MsmHwFence) : Option MsmHwFence :=
  let parentsCnt := child.parentsCnt + 1
  if msmHwFenceMaxJoinParents ≤ parentsCnt.toNat ∨ parentsCnt.toNat < 1 then
    none
  else
    some { child with
      parentsCnt
      parentList := child.parentList.set (parentsCnt.toNat - 1) (BitVec.ofNat 64 hash) }

/-- `child fence is already signaled`: what becomes of the join fence. -/
def dropPending (child join : MsmHwFence) : MsmHwFence :=
  { join with
    error := join.error ||| child.error
    pendingChildCnt := join.pendingChildCnt - 1 }

/-- The loop over the parents of a child in `_cleanup_join_and_child_fences`, from
position `j` down. -/
def cleanupLoop (hash : Nat) : Nat → MsmHwFence → MsmHwFence
  | 0, child => child
  | j + 1, child =>
    if child.parentList[j]? = some (BitVec.ofNat 64 hash) then
      cleanupLoop hash j
        { child with
          parentList := child.parentList.set j hwFenceInvalidParentFence
          parentsCnt :=
            if child.parentsCnt ≠ 0 then child.parentsCnt - 1 else child.parentsCnt }
    else
      cleanupLoop hash j child

/-- The cleanup of one child. The counter `j` is an `int` and is reset when it is
beyond the end of the list. -/
def cleanupChild (hash : Nat) (child : MsmHwFence) : MsmHwFence :=
  cleanupLoop hash
    (if 2 ^ 31 ≤ child.parentsCnt.toNat then 0
      else min child.parentsCnt.toNat msmHwFenceMaxJoinParents) child

/-- The phase behind the cleanup of position `idx`. -/
def Phase.afterCleanup : Nat → Phase
  | 0 => .destroyJoin
  | idx + 1 => .cleanupFind idx

namespace JoinSystem

/-- The system with a registration in its next phase. -/
def enter (system : JoinSystem) (id : Nat) (registration : Registration) : JoinSystem :=
  { system with registrations := update system.registrations id registration }

/-- The lock section in which a registration updates the child at `slot`. -/
def updateChild (system : JoinSystem) (id i slot : Nat) : JoinSystem :=
  let registration := system.registrations id
  let hash := registration.hashJoinFence
  match system.table[slot]?, system.table[hash]? with
  | some child, some join =>
    if child.flags &&& msmHwFenceFlagSignal ≠ 0 then
      { system with table := system.table.set hash (dropPending child join) }.enter id
        { registration with
          phase := .find (i + 1)
          signalJoinFence := registration.signalJoinFence
            || (dropPending child join).pendingChildCnt = 0 }
    else
      match addParent hash child with
      | none => system.enter id { registration with phase := .cleanupFind i }
      | some child =>
        { system with
          table := system.table.set slot child
          registered := update system.registered slot (system.registered slot ++ [hash]) }.enter id
          { registration with
            phase := .find (i + 1)
            unsignaled := registration.unsignaled + 1 }
  | _, _ => system

/-- The lock section in which a registration is taken out of the child at `slot`. -/
def cleanupUpdate (system : JoinSystem) (id idx slot : Nat) : JoinSystem :=
  let registration := system.registrations id
  let hash := registration.hashJoinFence
  { system with
    table := system.table.modify slot (cleanupChild hash)
    registered := update system.registered slot
      ((system.registered slot).filter fun other => other ≠ hash) }.enter id
    { registration with phase := Phase.afterCleanup idx }

/-- The table with the client data of the registration in its join fence. -/
def storeClientData (system : JoinSystem) (id : Nat) : List MsmHwFence :=
  let registration := system.registrations id
  if registration.clientData ≠ 0 then
    system.table.modify registration.hashJoinFence fun join =>
      { join with clientData := join.clientData.set registration.dataId registration.clientData }
  else
    system.table

/-- One section of the registration `id`. The signal to the waiting client of a join
fence whose children are all signaled goes to the queues and not to the table. -/
def step (system : JoinSystem) (id : Nat) : JoinSystem :=
  let registration := system.registrations id
  match registration.phase with
  | .create =>
    if registration.clientData ≠ 0 ∧ hwFenceMaxClientsWithData ≤ registration.dataId then
      system.enter id { registration with phase := .returned einval }
    else
      let created := hwFenceLookupAndProcess system.table
        (registration.array.createRequest registration.qtime)
      match created.fence with
      | none =>
        { system with table := created.table }.enter id
          { registration with phase := .returned einval }
      | some hash =>
        { system with table := created.table }.enter id
          { registration with phase := .waitMask, hashJoinFence := hash }
  | .waitMask =>
    { system with
      table := system.table.modify registration.hashJoinFence fun join =>
        { join with
          waitClientMask := join.waitClientMask ||| (1 <<< registration.clientId) } }.enter id
      { registration with phase := .find 0 }
  | .find i =>
    match registration.array.fences[i]? with
    | none => system.enter id { registration with phase := .finish }
    | some child =>
      if child.isFenceArray || !child.enabled then
        system.enter id { registration with phase := .cleanupFind i }
      else
        match (hwFenceLookupAndProcess system.table
            (child.findRequest registration.clientId)).fence with
        | none => system.enter id { registration with phase := .cleanupFind i }
        | some slot => system.enter id { registration with phase := .update i slot }
  | .update i slot => system.updateChild id i slot
  | .finish =>
    let system := { system with table := system.storeClientData id }
    if registration.signalJoinFence then
      system.enter id { registration with phase := .destroySignaled }
    else if registration.array.fences.length = 0 then
      system.enter id { registration with phase := .cleanupFind 0 }
    else
      system.enter id { registration with phase := .returned 0 }
  | .destroySignaled =>
    { system with
      table := (hwFenceLookupAndProcess system.table
        registration.array.destroyRequest).table }.enter id
      { registration with phase := .returned 0 }
  | .cleanupFind idx =>
    -- an array without elements has no element at `idx` either
    match registration.array.fences[idx]? with
    | none => system.enter id { registration with phase := Phase.afterCleanup idx }
    | some child =>
      match (hwFenceLookupAndProcess system.table
          (child.findRequest registration.clientId)).fence with
      | none => system.enter id { registration with phase := Phase.afterCleanup idx }
      | some slot => system.enter id { registration with phase := .cleanupUpdate idx slot }
  | .cleanupUpdate idx slot => system.cleanupUpdate id idx slot
  | .destroyJoin =>
    { system with
      table := (hwFenceLookupAndProcess system.table
        registration.array.destroyRequest).table }.enter id
      { registration with phase := .returned einval }
  | .returned _ => system

end JoinSystem

end Sm8650.HwFence
