import Mathlib.Data.BitVec

/-!
# The hardware fence table

`hw_fence_drv_priv.c` keeps all fences in one array of shared memory and
locates them by linear probing from a hash of the `(context, seqno)` pair.
One routine, `_hw_fence_lookup_and_process`, serves creation, destruction and
lookup: the operation selects the comparison that ends the probe and the
update made to the slot found.
-/

namespace Sm8650.HwFence

/-- A 64-bit word of the shared fence table. -/
abbrev U64 := BitVec 64

/-- `-EINVAL`. -/
def einval : Int := -22

/-- `MSM_HW_FENCE_MAX_JOIN_PARENTS`. -/
def msmHwFenceMaxJoinParents : Nat := 3

/-- `HW_FENCE_MAX_CLIENTS_WITH_DATA`. -/
def hwFenceMaxClientsWithData : Nat := 5

/-- `HW_FENCE_INVALID_PARENT_FENCE`, all ones. -/
def hwFenceInvalidParentFence : U64 := BitVec.allOnes 64

/-- `struct msm_hw_fence`, without the inter-processor `lock` word, which is
taken and released around each slot and carries no fence data. -/
structure MsmHwFence where
  valid : BitVec 32
  error : BitVec 32
  ctxId : U64
  seqId : U64
  waitClientMask : U64
  fenceAllocator : BitVec 32
  fenceSignalClient : BitVec 32
  flags : U64
  parentList : List U64
  parentsCnt : BitVec 32
  pendingChildCnt : BitVec 32
  fenceCreateTime : U64
  fenceTriggerTime : U64
  fenceWaitTime : U64
  debugRefcount : U64
  clientData : List U64
  deriving DecidableEq, Repr

/-- A slot of the table as `memset_io` leaves it when the carved-out memory is
mapped. -/
def zeroFence : MsmHwFence where
  valid := 0
  error := 0
  ctxId := 0
  seqId := 0
  waitClientMask := 0
  fenceAllocator := 0
  fenceSignalClient := 0
  flags := 0
  parentList := List.replicate msmHwFenceMaxJoinParents 0
  parentsCnt := 0
  pendingChildCnt := 0
  fenceCreateTime := 0
  fenceTriggerTime := 0
  fenceWaitTime := 0
  debugRefcount := 0
  clientData := List.replicate hwFenceMaxClientsWithData 0

/-- `enum hw_fence_lookup_ops`. -/
inductive LookupOp
  | create
  | destroy
  | createJoin
  | findFence
  deriving DecidableEq, Repr

/-- The arguments of one lookup, with the value that `hw_fence_get_qtime`
returns while it runs. -/
structure Request where
  op : LookupOp
  context : U64
  seqno : U64
  clientId : BitVec 32
  pendingChildCnt : BitVec 32
  qtime : U64
  deriving DecidableEq, Repr

/-- `HW_FENCE_HASH_A_MULT`. -/
def hwFenceHashAMult : U64 := 4969

/-- `HW_FENCE_HASH_C_MULT`. -/
def hwFenceHashCMult : U64 := 907

/-- `_calculate_hash`: the hash of the key at step 0, the next slot at every
later step, and failure once the whole table was traversed. -/
def calculateHash (tableTotalEntries : Nat) (context seqno : U64) (step hash : Nat) :
    Option Nat :=
  if step = 0 then
    let bMultiplier : U64 := context + (context - 1)
    some ((hwFenceHashAMult * seqno * bMultiplier
      + hwFenceHashCMult * context).toNat % tableTotalEntries)
  else if tableTotalEntries ≤ step then
    none
  else
    some ((hash + 1) % tableTotalEntries)

/-- `_get_hw_fence`: the slot at `hash`, rejected outside the table. -/
def getHwFence (table : List MsmHwFence) (hash : Nat) : Option MsmHwFence :=
  table[hash]?

/-- `_is_hw_fence_free`. -/
def isHwFenceFree (fence : MsmHwFence) : Bool :=
  decide (fence.valid = 0)

/-- `_hw_fence_match`, which does not look at `valid`. -/
def hwFenceMatch (fence : MsmHwFence) (context seqno : U64) : Bool :=
  decide (fence.ctxId = context ∧ fence.seqId = seqno)

/-- `_cleanup_hw_fence` clears everything but the `valid` field. -/
def cleanupHwFence (fence : MsmHwFence) : MsmHwFence where
  valid := fence.valid
  error := 0
  ctxId := 0
  seqId := 0
  waitClientMask := 0
  fenceAllocator := 0
  fenceSignalClient := 0
  flags := 0
  parentList := List.replicate msmHwFenceMaxJoinParents hwFenceInvalidParentFence
  parentsCnt := 0
  pendingChildCnt := 0
  fenceCreateTime := 0
  fenceTriggerTime := 0
  fenceWaitTime := 0
  debugRefcount := 0
  clientData := List.replicate hwFenceMaxClientsWithData 0

/-- `_reserve_hw_fence`. -/
def reserveHwFence (request : Request) (fence : MsmHwFence) : MsmHwFence :=
  let cleaned := cleanupHwFence fence
  { cleaned with
    valid := 1
    ctxId := request.context
    seqId := request.seqno
    flags := 0
    fenceAllocator := request.clientId
    fenceCreateTime := request.qtime
    debugRefcount := cleaned.debugRefcount + 1 }

/-- `_unreserve_hw_fence`. -/
def unreserveHwFence (fence : MsmHwFence) : MsmHwFence :=
  { cleanupHwFence fence with valid := 0 }

/-- `_reserve_join_fence`. -/
def reserveJoinFence (request : Request) (fence : MsmHwFence) : MsmHwFence :=
  let cleaned := cleanupHwFence fence
  { cleaned with
    valid := 1
    ctxId := request.context
    seqId := request.seqno
    fenceAllocator := request.clientId
    fenceCreateTime := request.qtime
    debugRefcount := cleaned.debugRefcount + 1
    pendingChildCnt := request.pendingChildCnt }

/-- `_fence_found` leaves the slot as it is. -/
def fenceFound (fence : MsmHwFence) : MsmHwFence :=
  fence

/-- The comparison selected by the operation code. -/
def compareFnc (request : Request) (fence : MsmHwFence) : Bool :=
  match request.op with
  | .create | .createJoin => isHwFenceFree fence
  | .destroy | .findFence => hwFenceMatch fence request.context request.seqno

/-- The slot update selected by the operation code. -/
def processFnc (request : Request) (fence : MsmHwFence) : MsmHwFence :=
  match request.op with
  | .create => reserveHwFence request fence
  | .destroy => unreserveHwFence fence
  | .createJoin => reserveJoinFence request fence
  | .findFence => fenceFound fence

/-- The operations that reserve a slot. -/
def LookupOp.creates : LookupOp → Bool
  | .create | .createJoin => true
  | .destroy | .findFence => false

/-- What a lookup leaves behind: the slot it returns (`none` for `NULL`), the
hash it stored, and the table. -/
structure LookupResult where
  fence : Option Nat
  hash : Nat
  table : List MsmHwFence

/-- The `while` loop of `_hw_fence_lookup_and_process`; `remaining` counts the
steps left before `step` reaches the number of entries. -/
def lookupLoop (request : Request) (table : List MsmHwFence) :
    (remaining step hash : Nat) → LookupResult
  | 0, _, hash => ⟨none, hash, table⟩
  | remaining + 1, step, hash =>
    match calculateHash table.length request.context request.seqno step hash with
    | none => ⟨none, hash, table⟩
    | some hash =>
      match getHwFence table hash with
      | none => ⟨none, hash, table⟩
      | some fence =>
        if compareFnc request fence then
          ⟨some hash, hash, table.set hash (processFnc request fence)⟩
        else if request.op.creates
            ∧ request.seqno = fence.seqId ∧ request.context = fence.ctxId then
          ⟨none, hash, table⟩
        else
          lookupLoop request table remaining (step + 1) hash

/-- `_hw_fence_lookup_and_process`. -/
def hwFenceLookupAndProcess (table : List MsmHwFence) (request : Request) :
    LookupResult :=
  lookupLoop request table table.length 0 (BitVec.allOnes 64 : U64).toNat

end Sm8650.HwFence
