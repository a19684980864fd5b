import Mathlib.Algebra.BigOperators.Fin

/-!
# Global synx objects

The cores share a table of synchronization objects. An object is signaled once; a
composite object made by a merge is told by each of its children, and is signaled when
the last one has told it. Every access to the table happens in a section under the
hardware lock, which is one function here; taking the lock is assumed to succeed.

Sources: `synx_global.c`, `synx_global.h` and the states of `synx_api.h`.
-/

namespace Sm8650.Synx

open Function

/-- `SYNX_GLOBAL_MAX_OBJS`. -/
def maxObjs : Nat := 4096

/-- `SYNX_STATE_ACTIVE`. -/
def active : Nat := 1

/-- `SYNX_STATE_SIGNALED_SUCCESS`. -/
def signaledSuccess : Nat := 2

/-- `SYNX_STATE_SIGNALED_SSR`. -/
def signaledSsr : Nat := 6

/-- `SYNX_STATE_SIGNALED_MAX`. -/
def signaledMax : Nat := 64

/-- `-SYNX_INVALID`. -/
def invalid : Int := -22

/-- `-SYNX_ALREADY`. -/
def already : Int := -114

/-- `-SYNX_NOMEM`. -/
def nomem : Int := -12

/-- The statuses that report an error. -/
def IsError (status : Nat) : Prop :=
  signaledSuccess < status ∧ status ≤ signaledMax

instance (status : Nat) : Decidable (IsError status) :=
  inferInstanceAs (Decidable (_ ∧ _))

/-- `enum synx_core_id`. -/
inductive CoreId
  | apss
  | nsp
  | eva
  | iris
  | icp
  deriving DecidableEq, Repr

/-- The cores in the order of their ids. -/
def CoreId.all : List CoreId := [.apss, .nsp, .eva, .iris, .icp]

instance : Fintype CoreId where
  elems := ⟨CoreId.all, by decide⟩
  complete core := by cases core <;> decide

/-- `struct synx_global_coredata`, without the subscribers, which none of the functions
here reads. The counters are natural numbers: the slots of all objects together hold a
parent fewer than `2 ^ 16` times. -/
structure Coredata where
  status : Nat
  handle : Nat
  refcount : Nat
  numChild : Nat
  waiters : CoreId → Bool
  parents : Fin 4 → Nat

/-- A zeroed entry. -/
def Coredata.cleared : Coredata where
  status := 0
  handle := 0
  refcount := 0
  numChild := 0
  waiters := fun _ => false
  parents := fun _ => 0

/-- The table of objects by index. -/
abbrev Table := Nat → Coredata

/-- The table with one entry replaced. -/
def Table.set (table : Table) (idx : Nat) (obj : Coredata) : Table :=
  update table idx obj

@[simp]
theorem Table.set_self (table : Table) (idx : Nat) (obj : Coredata) :
    table.set idx obj idx = obj := by
  simp [set]

theorem Table.set_of_ne (table : Table) {idx other : Nat} (obj : Coredata)
    (different : other ≠ idx) : table.set idx obj other = table other := by
  simp [set, different]

/-- `synx_is_valid_idx`. -/
def validIdx (idx : Nat) : Bool :=
  decide (idx < maxObjs)

/-- `synx_global_init_coredata` once the entry has been found cleared. -/
def initCoredata (table : Table) (idx handle : Nat) : Table :=
  table.set idx { Coredata.cleared with status := active, refcount := 1, handle }

/-! ## Reading the status -/

/-- An object is reported as unsignaled. -/
def Coredata.pending (obj : Coredata) : Bool :=
  decide (obj.status = active ∨ obj.numChild ≠ 0)

/-- `synx_global_get_status` of a valid index. -/
def getStatus (table : Table) (idx : Nat) : Nat :=
  if (table idx).status ≠ active ∧ (table idx).numChild = 0 then (table idx).status else active

/-- `synx_global_test_status_set_wait` of a valid index. -/
def testStatusSetWait (table : Table) (idx : Nat) (id : CoreId) : Nat × Table :=
  let obj := table idx
  if obj.status = active ∨ obj.numChild ≠ 0 then
    (active, table.set idx { obj with waiters := update obj.waiters id true })
  else
    (obj.status, table)

/-! ## Signaling -/

/-- A message sent to a core by `ipclite_msg_send`. -/
structure Message where
  core : CoreId
  data : Nat
  deriving DecidableEq, Repr

/-- The notification loop of `synx_global_update_status_core`: the core that runs it is
left out unless the status reports a restart. -/
def notify (waiting : CoreId → Bool) (data status : Nat) : List Message :=
  if data = 0 then []
  else
    (CoreId.all.filter fun core =>
      waiting core && (decide (status = signaledSsr) || decide (core ≠ .apss))).map fun core =>
      ⟨core, data⟩

/-- The parents of an object, in the order of their slots. -/
def Coredata.parentList (obj : Coredata) : List Nat :=
  (List.ofFn obj.parents).filter fun parent => decide (parent ≠ 0)

/-- The message about an object. -/
def Coredata.data (obj : Coredata) : Nat :=
  (obj.handle <<< 32) ||| obj.status

/-- What a section leaves: the table, the messages to send, and the parents to tell. -/
structure Section where
  table : Table
  messages : List Message
  parents : List Nat

/-- The composite with one child less to wait for. -/
def Coredata.childSignaled (obj : Coredata) (status : Nat) : Coredata :=
  { obj with
    numChild := obj.numChild - 1
    status := if obj.status = active ∨ IsError status then status else obj.status }

/-- The composite once its last child has signaled: the waiters are taken and the
reference of the children is dropped. -/
def Coredata.completed (obj : Coredata) : Coredata :=
  let obj := { obj with waiters := fun _ => false, refcount := obj.refcount - 1 }
  if obj.refcount = 0 then Coredata.cleared else obj

/-- The section of `synx_global_update_status_core`. -/
def updateSection (table : Table) (idx status : Nat) : Section :=
  let obj := table idx
  if obj.numChild ≠ 0 then
    let told := obj.childSignaled status
    if told.numChild = 0 then
      ⟨table.set idx told.completed, notify told.waiters told.data status, told.parentList⟩
    else
      ⟨table.set idx told, [], []⟩
  else
    let signaled := { obj with status }
    ⟨table.set idx { signaled with waiters := fun _ => false },
      notify signaled.waiters signaled.data status, signaled.parentList⟩

/-- The sections of a call of `synx_global_update_status_core`, which runs through the
parents of an object one after the other, each with its own parents first. `work` lists
the objects still to update. -/
def updateStatusCore (status : Nat) : Nat → Table → List Nat → Option (Table × List Message)
  | _, table, [] => some (table, [])
  | 0, _, _ :: _ => none
  | fuel + 1, table, idx :: work =>
    let sec := updateSection table idx status
    (updateStatusCore status fuel sec.table (sec.parents ++ work)).map fun result =>
      (result.1, sec.messages ++ result.2)

/-- The first section of `synx_global_update_status`: the value to return, or nothing if
the call goes on. A composite is not signaled, but `rc` is that of the lock. -/
def updateStatusCheck (table : Table) (idx : Nat) : Option Int :=
  if (table idx).numChild ≠ 0 then some 0
  else if (table idx).status ≠ active then some already
  else none

/-- `synx_global_update_status`, as far as `fuel` sections of the second part go. -/
def updateStatus (fuel : Nat) (table : Table) (idx status : Nat) :
    Option (Int × Table × List Message) :=
  if validIdx idx = false ∨ status ≤ active then
    some (invalid, table, [])
  else
    match updateStatusCheck table idx with
    | some rc => some (rc, table, [])
    | none => (updateStatusCore status fuel table [idx]).map fun result => (0, result)

/-! ## Merging -/

/-- The variables `num_child` and `parent_status` of a merge. -/
structure MergeVars where
  numChild : Nat
  parentStatus : Nat
  deriving DecidableEq, Repr

/-- The variables at the start of a merge. -/
def MergeVars.start : MergeVars := ⟨0, active⟩

/-- What a merge makes of the status of a child. -/
def MergeVars.visit (vars : MergeVars) (child : Coredata) : MergeVars where
  numChild := vars.numChild + (if child.status = active then 1 else 0) +
    (if child.status ≠ active ∧ child.numChild ≠ 0 then 1 else 0)
  parentStatus :=
    if child.status = active then vars.parentStatus
    else if IsError child.status then child.status
    else if vars.parentStatus = active then child.status
    else vars.parentStatus

/-- The first slot of an object that holds `parent`. -/
def Coredata.findSlot (obj : Coredata) (parent : Nat) : Option (Fin 4) :=
  (List.finRange 4).find? fun slot => decide (obj.parents slot = parent)

/-- An object with a slot overwritten. -/
def Coredata.setSlot (obj : Coredata) (slot : Fin 4) (parent : Nat) : Coredata :=
  { obj with parents := update obj.parents slot parent }

/-- The section of `synx_global_merge` on a child; the last component says whether it had
a free slot. -/
def mergeSection (table : Table) (idx parent : Nat) (vars : MergeVars) : Table × MergeVars × Bool :=
  let obj := table idx
  match obj.findSlot 0 with
  | some slot => (table.set idx (obj.setSlot slot parent), vars.visit obj, true)
  | none => (table, vars.visit obj, false)

/-- The last section of `synx_global_merge`. -/
def mergeFinish (table : Table) (parent : Nat) (vars : MergeVars) : Table :=
  let obj := table parent
  let numChild := obj.numChild + vars.numChild
  table.set parent
    { obj with
      numChild
      refcount := if numChild ≠ 0 then obj.refcount + 1 else obj.refcount
      status := vars.parentStatus }

/-- A section of the failure path of `synx_global_merge`. -/
def mergeUndo (table : Table) (idx parent : Nat) : Table :=
  match (table idx).findSlot parent with
  | some slot => table.set idx ((table idx).setSlot slot 0)
  | none => table

/-- The failure path, which goes back over as many entries of the list as there are
pending children. -/
def mergeFail (table : Table) (idxList : List Nat) (parent : Nat) : Nat → Table
  | 0 => table
  | numChild + 1 => mergeFail (mergeUndo table (idxList.getD numChild 0) parent) idxList parent numChild

/-- The loop of `synx_global_merge` over the rest of the list; `rc` is the value of the
last lock taken. -/
def mergeLoop (idxList : List Nat) (parent : Nat) : List Nat → Int → Table → MergeVars → Int × Table
  | [], _, table, vars => (0, mergeFinish table parent vars)
  | idx :: rest, rc, table, vars =>
    if validIdx idx then
      match mergeSection table idx parent vars with
      | (table, vars, true) => mergeLoop idxList parent rest 0 table vars
      | (table, vars, false) => (nomem, mergeFail table idxList parent vars.numChild)
    else
      (rc, mergeFail table idxList parent vars.numChild)

/-- `synx_global_merge`. -/
def merge (table : Table) (idxList : List Nat) (parent : Nat) : Int × Table :=
  if validIdx parent = false then (invalid, table)
  else if idxList = [] then (0, table)
  else mergeLoop idxList parent idxList invalid table .start

end Sm8650.Synx
