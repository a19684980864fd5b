import Mathlib.Logic.Function.Basic

/-!
# Merging camera sync objects

A merge reserves a free row, locks it and links it with the rows of its children; where a child
is refused it takes the links out again. The lock of the new row is released behind a merge
that succeeds only.

A thread holds row locks and waits for no lock that it holds itself. Between two sections the
other threads do anything to the table.

Sources: `cam_sync.c` and `cam_sync_util.c`.
-/

namespace Sm8650.CamSync

open Function

/-! ## The table -/

/-- `enum sync_type`. -/
inductive SyncType
  | indv
  | group
deriving DecidableEq

/-- The values of `state`. -/
inductive SyncState
  | invalid
  | active
  | signaledSuccess
  | signaledError
  | signaledCancel
deriving DecidableEq

/-- `struct sync_table_row`. -/
structure Row where
  type : SyncType
  parentsList : List Nat
  childrenList : List Nat
  state : SyncState
  remaining : Nat
deriving DecidableEq

/-- The rows and the allocation bitmap. -/
structure Table where
  rows : Nat → Row
  bitmap : Nat → Bool

/-- The table, and the row locks that the thread holds. -/
structure Kernel where
  table : Table
  held : List Nat

/-- `CAM_SYNC_MAX_OBJS`. -/
def maxObjs : Nat := 2048

def einval : Int := -22

def enomem : Int := -12

/-! ## Sections of a thread -/

/-- A part of the code; `none` is a thread that waits for its own lock. -/
abbrev Thread := StateT Kernel Option

/-- Where other threads run. -/
inductive Moment
  | check (i : Nat)
  | reserve
  | lock
  | child (i : Nat)
  | clean (i : Nat)

/-- What other threads do to the table. -/
abbrev Others := Moment → Table → Table

/-- The other threads run. -/
def interfere (others : Others) (moment : Moment) : Thread Unit := fun kernel =>
  some ((), { kernel with table := others moment kernel.table })

def spinLock (row : Nat) : Thread Unit := fun kernel =>
  if row ∈ kernel.held then none else some ((), { kernel with held := row :: kernel.held })

def spinUnlock (row : Nat) : Thread Unit := fun kernel =>
  some ((), { kernel with held := kernel.held.erase row })

def readTable : Thread Table := fun kernel => some (kernel.table, kernel)

/-- Write a row. -/
def writeRow (row : Nat) (write : Row → Row) : Thread Unit := fun kernel =>
  some ((), { kernel with
    table := { kernel.table with
      rows := update kernel.table.rows row (write (kernel.table.rows row)) } })

/-- Set or clear a bit of the allocation bitmap. -/
def writeBit (row : Nat) (bit : Bool) : Thread Unit := fun kernel =>
  some ((), { kernel with
    table := { kernel.table with bitmap := update kernel.table.bitmap row bit } })

/-! ## The code -/

/-- An object that is not kept yet is kept. -/
def keepNew (kept : List Int) (obj : Int) : List Int :=
  if obj ∈ kept then kept else kept ++ [obj]

/-- `cam_common_util_remove_duplicate_arr`: what it leaves in the array. -/
def removeDuplicateArr (arr : List Int) : List Int := arr.foldl keepNew []

/-- `cam_sync_check_valid`. -/
def checkValid (syncObj : Int) : Thread Int := do
  if syncObj ≥ maxObjs ∨ syncObj ≤ 0 then return einval
  spinLock syncObj.toNat
  let table ← readTable
  if table.bitmap syncObj.toNat = false then
    spinUnlock syncObj.toNat
    return einval
  if (table.rows syncObj.toNat).state = .invalid then
    spinUnlock syncObj.toNat
    return einval
  spinUnlock syncObj.toNat
  return 0

/-- The loop of `cam_sync_merge` over `cam_sync_check_valid`. -/
def checkAll (others : Others) : Nat → List Int → Thread Int
  | _, [] => return 0
  | i, syncObj :: rest => do
      interfere others (.check i)
      let rc ← checkValid syncObj
      if rc ≠ 0 then return rc
      checkAll others (i + 1) rest

/-- `find_first_zero_bit`, with the bits that are left. -/
def findFirstZeroBit (bitmap : Nat → Bool) : Nat → Nat → Nat
  | 0, idx => idx
  | left + 1, idx => if bitmap idx = false then idx else findFirstZeroBit bitmap left (idx + 1)

/-- The row that `cam_sync_init_row` makes. -/
def newRow (type : SyncType) : Row :=
  { type := type, parentsList := [], childrenList := [], state := .active, remaining := 0 }

/-- `cam_sync_init_row`. -/
def initRow (idx : Nat) (type : SyncType) : Thread Int := do
  if idx = 0 ∨ idx ≥ maxObjs then return einval
  writeRow idx fun _ => newRow type
  return 0

/-- Whether the two allocations for a child succeed. -/
structure Alloc where
  childInfo : Bool
  parentInfo : Bool

/-- The section of `cam_sync_init_group_object` on a child. -/
def addChild (alloc : Alloc) (idx child : Nat) : Thread Int := do
  spinLock child
  let childRow := (← readTable).rows child
  if childRow.type = .group ∨ childRow.state = .invalid then
    spinUnlock child
    return einval
  if childRow.state = .signaledError ∨ childRow.state = .signaledCancel then
    writeRow idx fun row => { row with state := childRow.state }
    spinUnlock child
    return 0
  if childRow.state ≠ .active then
    spinUnlock child
    return 0
  writeRow idx fun row => { row with remaining := row.remaining + 1 }
  if alloc.childInfo = false then
    spinUnlock child
    return enomem
  writeRow idx fun row => { row with childrenList := row.childrenList ++ [child] }
  if alloc.parentInfo = false then
    spinUnlock child
    return enomem
  writeRow child fun row => { row with parentsList := row.parentsList ++ [idx] }
  spinUnlock child
  return 0

/-- The loop of `cam_sync_init_group_object`, with the children behind it when it ends. -/
def addChildren (others : Others) (allocs : Nat → Alloc) (idx : Nat) :
    List Nat → List Nat → Thread (Int × List Nat)
  | visited, [] => return (0, visited)
  | visited, child :: rest => do
      interfere others (.child visited.length)
      let rc ← addChild (allocs visited.length) idx child
      if rc ≠ 0 then return (rc, visited)
      addChildren others allocs idx (visited ++ [child]) rest

/-- The undo loop of `cam_sync_init_group_object`. -/
def cleanParents (others : Others) (idx : Nat) : List Nat → Thread Unit
  | [] => return
  | child :: rest => do
      interfere others (.clean rest.length)
      spinLock child
      writeRow child fun row => { row with parentsList := row.parentsList.erase idx }
      spinUnlock child
      cleanParents others idx rest

/-- `cam_sync_init_group_object`. -/
def initGroupObject (others : Others) (allocs : Nat → Alloc) (idx : Nat) (syncObjs : List Nat) :
    Thread Int := do
  let _ ← initRow idx .group
  let (rc, visited) ← addChildren others allocs idx [] syncObjs
  if rc ≠ 0 then
    writeRow idx fun row => { row with state := .invalid }
    cleanParents others idx visited.reverse
    writeRow idx fun row => { row with childrenList := [] }
    return rc
  writeRow idx fun row =>
    if row.remaining = 0 ∧ row.state ≠ .signaledError ∧ row.state ≠ .signaledCancel then
      { row with state := .signaledSuccess }
    else row
  return 0

/-- `cam_sync_merge` up to the lock of the new row. -/
def reserveRow (others : Others) (syncObj : List Int) : Thread (Except Int Nat) := do
  if syncObj.length ≤ 1 then return .error einval
  if (removeDuplicateArr syncObj).length ≠ syncObj.length then return .error einval
  let rc ← checkAll others 0 syncObj
  if rc ≠ 0 then return .error rc
  interfere others .reserve
  let idx := findFirstZeroBit (← readTable).bitmap maxObjs 0
  if idx ≥ maxObjs then return .error enomem
  writeBit idx true
  interfere others .lock
  spinLock idx
  return .ok idx

/-- `cam_sync_merge`. -/
def merge (others : Others) (allocs : Nat → Alloc) (syncObj : List Int) :
    Thread (Except Int Nat) := do
  match ← reserveRow others syncObj with
  | .error rc => return .error rc
  | .ok idx =>
    let rc ← initGroupObject others allocs idx (syncObj.map Int.toNat)
    if rc < 0 then
      writeBit idx false
      return .error einval
    spinUnlock idx
    return .ok idx

/-! ## The locks of a thread -/

theorem bind_eq_some {α β : Type} {first : Thread α} {next : α → Thread β} {kernel : Kernel}
    {final : β × Kernel} (ran : (first >>= next) kernel = some final) :
    ∃ result between, first kernel = some (result, between) ∧ next result between = some final := by
  obtain ⟨⟨result, between⟩, ran, rest⟩ := Option.bind_eq_some_iff.mp ran
  exact ⟨result, between, ran, rest⟩

theorem bind_of_some {α β : Type} {first : Thread α} {next : α → Thread β}
    {kernel between : Kernel} {result : α} {final : Option (β × Kernel)}
    (ran : first kernel = some (result, between)) (rest : next result between = final) :
    (first >>= next) kernel = final := by
  rw [← rest]
  exact congrArg (Option.bind · _) ran

/-- What a part of the code does to the locks that its thread holds. -/
structure Leaves {α : Type} (locks : List Nat → List Nat) (code : Thread α) : Prop where
  held : ∀ {kernel result kernel'}, code kernel = some (result, kernel') →
    kernel'.held = locks kernel.held

namespace Leaves

variable {α β : Type} {locks : List Nat → List Nat} {first : Thread α} {next : α → Thread β}

theorem pure (result : α) : Leaves id (Pure.pure result : Thread α) where
  held ran := by
    cases ran
    rfl

theorem interfere (others : Others) (moment : Moment) : Leaves id (interfere others moment) where
  held ran := by
    cases ran
    rfl

theorem readTable : Leaves id readTable where
  held ran := by
    cases ran
    rfl

theorem writeRow (row : Nat) (write : Row → Row) : Leaves id (writeRow row write) where
  held ran := by
    cases ran
    rfl

theorem spinUnlock (row : Nat) : Leaves (List.erase · row) (spinUnlock row) where
  held ran := by
    cases ran
    rfl

theorem spinLock (row : Nat) : Leaves (row :: ·) (spinLock row) where
  held ran := by
    unfold CamSync.spinLock at ran
    split at ran
    · cases ran
    · cases ran
      rfl

theorem bind {before : List Nat → List Nat} (start : Leaves before first)
    (rest : ∀ result, Leaves locks (next result)) :
    Leaves (fun held => locks (before held)) (first >>= next) where
  held ran := by
    obtain ⟨result, between, begun, ended⟩ := bind_eq_some ran
    rw [(rest result).held ended, start.held begun]

/-- Code that keeps the locks comes first. -/
theorem behind (start : Leaves id first) (rest : ∀ result, Leaves locks (next result)) :
    Leaves locks (first >>= next) :=
  start.bind rest

/-- A release, and then code that keeps the locks. -/
theorem unlock {row : Nat} {rest : Unit → Thread α} (kept : ∀ start, Leaves id (rest start)) :
    Leaves (List.erase · row) (CamSync.spinUnlock row >>= rest) :=
  (spinUnlock row).bind kept

/-- A section that releases its lock on each way out. -/
theorem «section» {row : Nat} {body : Unit → Thread α}
    (released : ∀ start, Leaves (List.erase · row) (body start)) :
    Leaves id (CamSync.spinLock row >>= body) where
  held ran := by
    rw [((spinLock row).bind released).held ran]
    exact @List.erase_cons_head Nat _ _ row _

theorem ite {condition : Prop} [Decidable condition] {code other : Thread α}
    (yes : Leaves locks code) (no : Leaves locks other) :
    Leaves locks (if condition then code else other) := by
  split
  · exact yes
  · exact no

end Leaves

theorem leaves_initRow (idx : Nat) (type : SyncType) : Leaves id (initRow idx type) :=
  .ite (.pure _) (.behind (.writeRow _ _) fun _ => .pure _)

theorem leaves_addChild (alloc : Alloc) (idx child : Nat) : Leaves id (addChild alloc idx child) := by
  have ends : ∀ rc : Int, Leaves (List.erase · child) (do spinUnlock child; return rc) :=
    fun rc => .unlock fun _ => .pure rc
  refine .section fun _ => .behind .readTable fun table => ?_
  refine .ite (ends _) (.ite (.behind (.writeRow _ _) fun _ => ends _) (.ite (ends _) ?_))
  refine .behind (.writeRow _ _) fun _ => .ite (ends _) ?_
  refine .behind (.writeRow _ _) fun _ => .ite (ends _) ?_
  exact .behind (.writeRow _ _) fun _ => ends _

theorem leaves_addChildren (others : Others) (allocs : Nat → Alloc) (idx : Nat)
    (visited todo : List Nat) : Leaves id (addChildren others allocs idx visited todo) := by
  induction todo generalizing visited with
  | nil => exact .pure _
  | cons child rest ih =>
    refine .behind (.interfere _ _) fun _ => .behind (leaves_addChild _ _ _) fun rc => ?_
    exact .ite (.pure _) (ih _)

theorem leaves_cleanParents (others : Others) (idx : Nat) (visited : List Nat) :
    Leaves id (cleanParents others idx visited) := by
  induction visited with
  | nil => exact .pure ()
  | cons child rest ih =>
    refine .behind (.interfere _ _) fun _ => .section fun _ => ?_
    exact .behind (.writeRow _ _) fun _ => .unlock fun _ => ih

/-- The initialisation releases each lock that it takes. -/
theorem leaves_initGroupObject (others : Others) (allocs : Nat → Alloc) (idx : Nat)
    (syncObjs : List Nat) : Leaves id (initGroupObject others allocs idx syncObjs) := by
  refine .behind (leaves_initRow _ _) fun _ => .behind (leaves_addChildren _ _ _ _ _) fun added => ?_
  refine .ite ?_ (.behind (.writeRow _ _) fun _ => .pure _)
  refine .behind (.writeRow _ _) fun _ => .behind (leaves_cleanParents _ _ _) fun _ => ?_
  exact .behind (.writeRow _ _) fun _ => .pure _

/-! ## A merge that fails on a child -/

/-- The parts of a row that a failed merge has to leave as they were. -/
def SameRow (row row' : Row) : Prop :=
  row'.parentsList = row.parentsList ∧ row'.childrenList = row.childrenList ∧
    row'.state = row.state ∧ row'.remaining = row.remaining

section Failure

variable (others : Others) (allocs : Nat → Alloc) (syncObj : List Int) (kernel : Kernel)

/-- The objects pass the checks, a row is reserved, and its initialisation fails. -/
def FailsInGroup : Prop :=
  ∃ idx reserved rc failed, reserveRow others syncObj kernel = some (.ok idx, reserved) ∧
    initGroupObject others allocs idx (syncObj.map Int.toNat) reserved = some (rc, failed) ∧ rc < 0

/-- The merge returns an error, with the table as it was and no row lock held. -/
def FailsClean : Prop :=
  ∃ rc after, merge others allocs syncObj kernel = some (.error rc, after) ∧
    (∀ row, SameRow (kernel.table.rows row) (after.table.rows row)) ∧
    after.table.bitmap = kernel.table.bitmap ∧ ∀ row, row ∉ after.held

variable {others allocs syncObj kernel}

theorem reserveRow_held {idx : Nat} {reserved : Kernel}
    (ran : reserveRow others syncObj kernel = some (.ok idx, reserved)) : idx ∈ reserved.held := by
  unfold reserveRow at ran
  split at ran
  · cases ran
  · split at ran
    · cases ran
    · obtain ⟨rc, checked, _, ran⟩ := bind_eq_some ran
      split at ran
      · cases ran
      · obtain ⟨_, before, _, ran⟩ := bind_eq_some ran
        obtain ⟨table, read, _, ran⟩ := bind_eq_some ran
        dsimp only at ran
        split at ran
        · cases ran
        · obtain ⟨_, marked, _, ran⟩ := bind_eq_some ran
          obtain ⟨_, between, _, ran⟩ := bind_eq_some ran
          obtain ⟨_, locked, taken, ran⟩ := bind_eq_some ran
          cases ran
          rw [(Leaves.spinLock _).held taken]
          exact List.mem_cons_self

/-- The failure path clears the bit of the row and keeps its lock. -/
theorem merge_of_failed {idx : Nat} {reserved failed : Kernel} {rc : Int}
    (ran : reserveRow others syncObj kernel = some (.ok idx, reserved))
    (init : initGroupObject others allocs idx (syncObj.map Int.toNat) reserved = some (rc, failed))
    (error : rc < 0) :
    merge others allocs syncObj kernel =
      some (.error einval, { failed with
        table := { failed.table with
          bitmap := update failed.table.bitmap idx false } }) := by
  refine bind_of_some ran (bind_of_some init ?_)
  rw [if_pos error]
  rfl

/-- Behind a failure on a child the lock of the reserved row is held. -/
theorem merge_failure_not_clean (fails : FailsInGroup others allocs syncObj kernel) :
    ¬FailsClean others allocs syncObj kernel := by
  obtain ⟨idx, reserved, rc, failed, ran, init, error⟩ := fails
  rintro ⟨rc', after, merged, _, _, released⟩
  rw [merge_of_failed ran init error] at merged
  obtain ⟨_, rfl⟩ := Prod.mk.inj (Option.some.inj merged)
  have kept : failed.held = reserved.held := (leaves_initGroupObject _ _ _ _).held init
  refine released idx ?_
  rw [kept]
  exact reserveRow_held ran

end Failure

/-! An example: two active objects, and no memory for the link of the second one. -/

/-- The other threads do nothing. -/
def quiet : Others := fun _ table => table

/-- A row of an individual object. -/
def single (state : SyncState) : Row :=
  { type := .indv, parentsList := [], childrenList := [], state := state, remaining := 0 }

/-- Two active objects behind the reserved row. -/
def twoObjects : Kernel :=
  { table :=
      { rows := fun row => if row = 1 ∨ row = 2 then single .active else single .invalid
        bitmap := fun row => decide (row ≤ 2) }
    held := [] }

/-- The link of the second child is not allocated. -/
def noSecondLink (i : Nat) : Alloc := { childInfo := true, parentInfo := i != 1 }

theorem twoObjects_runs :
    (reserveRow quiet [1, 2] twoObjects).bind (fun ran =>
      (initGroupObject quiet noSecondLink 3 [1, 2] ran.2).map fun inGroup =>
        (ran.1.toOption, inGroup.1)) = some (some 3, enomem) := by
  decide +kernel

theorem twoObjects_fails : FailsInGroup quiet noSecondLink [1, 2] twoObjects := by
  obtain ⟨⟨status, reserved⟩, ran, rest⟩ := Option.bind_eq_some_iff.mp twoObjects_runs
  obtain ⟨⟨rc, failed⟩, init, results⟩ := Option.map_eq_some_iff.mp rest
  obtain ⟨isRow, rfl⟩ := Prod.mk.inj results
  cases status with
  | error rc => cases isRow
  | ok idx =>
    obtain rfl := Option.some.inj isRow
    exact ⟨3, reserved, enomem, failed, ran, init, by decide⟩

theorem twoObjects_held :
    (merge quiet noSecondLink [1, 2] twoObjects).map (fun ran => ran.2.held) = some [3] := by
  decide +kernel

theorem not_failsClean_noSecondLink :
    ¬∀ (others : Others) (allocs : Nat → Alloc) (syncObj : List Int) (kernel : Kernel),
      FailsInGroup others allocs syncObj kernel → FailsClean others allocs syncObj kernel := by
  intro clean
  obtain ⟨rc, after, merged, _, _, released⟩ :=
    clean quiet noSecondLink [1, 2] twoObjects twoObjects_fails
  have held := twoObjects_held
  rw [merged] at held
  have kept : after.held = [3] := Option.some.inj held
  exact released 3 (kept ▸ List.mem_singleton_self 3)

theorem merge_failure_not_clean_twoObjects :
    FailsInGroup quiet noSecondLink [1, 2] twoObjects ∧
      ¬FailsClean quiet noSecondLink [1, 2] twoObjects :=
  ⟨twoObjects_fails, merge_failure_not_clean twoObjects_fails⟩

end Sm8650.CamSync
