import Sm8650.Transition.Exclusion
import Sm8650.Wlan.Serialization

/-!
# What the sections do to the lists of the pdev

Which commands are active is decided by the lists of the pdev, the commands in them, the
bits of the vdevs and the flag for a blocking command. The lemmas here say what each
function does to these, and the invariants never look into the functions.
-/

namespace Sm8650.Wlan

open Transition Function List

/-- The parts of a queue that decide which commands are active. -/
structure Ledger where
  cmd : Nat → Command
  active : List Nat
  pending : List Nat
  pool : List Nat
  bitmap : Finset Nat
  blocking : Bool

namespace Ledger

/-- How often a node stands in the lists. -/
def uses (ledger : Ledger) (node : Nat) : Nat :=
  ledger.active.count node + ledger.pending.count node + ledger.pool.count node

/-- The key that an active command holds: its vdev, alone if it is blocking. -/
def entry (cmd : Command) : Option Nat × Bool :=
  (cmd.vdev, cmd.isBlocking)

/-- The keys that the active commands hold. -/
def occupies (ledger : Ledger) (node : Nat) : Option (Option Nat × Bool) :=
  if node ∈ ledger.active then some (entry (ledger.cmd node)) else none

/-- The active commands and the commands that are `leaving`, with what is recorded of
them. -/
def room {τ : Type} (ledger : Ledger) (leaving : τ → Option (Option Nat × Bool)) :
    Exclusion (Nat ⊕ τ) (Option Nat) where
  held := Sum.elim ledger.occupies leaving
  taken := some '' ledger.bitmap
  exclusive := ledger.blocking

/-- A list with a node more, in front if its command has a high priority. -/
def place (ledger : Ledger) (node : Nat) (nodes : List Nat) : List Nat :=
  if (ledger.cmd node).isHighPriority then node :: nodes else nodes ++ [node]

/-- A node is pending. -/
def await (ledger : Ledger) (node : Nat) : Ledger :=
  { ledger with pending := ledger.place node ledger.pending }

/-- A node is not pending any more. -/
def unqueue (ledger : Ledger) (node : Nat) : Ledger :=
  { ledger with pending := ledger.pending.erase node }

/-- A node has gone back to the pool. -/
def giveBack (ledger : Ledger) (node : Nat) : Ledger :=
  { ledger with pool := ledger.pool ++ [node] }

/-- The command of a node is another one. -/
def rewrite (ledger : Ledger) (node : Nat) (cmd : Command) : Ledger :=
  { ledger with cmd := Function.update ledger.cmd node cmd }

/-- A node of `vdev` has become active. -/
def enter (ledger : Ledger) (node vdev : Nat) : Ledger :=
  { ledger with
    active := ledger.place node ledger.active
    bitmap := insert vdev ledger.bitmap
    blocking := ledger.blocking || (ledger.cmd node).isBlocking }

/-- The record of an active command of `vdev` is taken back. -/
def clear (ledger : Ledger) (vdev : Nat) (isBlocking : Bool) : Ledger :=
  { ledger with
    bitmap := ledger.bitmap.erase vdev
    blocking := if isBlocking then false else ledger.blocking }

/-- An active node has left the active list. -/
def leave (ledger : Ledger) (node : Nat) : Ledger :=
  { ledger with active := ledger.active.erase node }

variable {τ : Type} {ledger : Ledger} {leaving : τ → Option (Option Nat × Bool)} {node vdev : Nat}

theorem mem_place {nodes : List Nat} {other : Nat} :
    other ∈ ledger.place node nodes ↔ other = node ∨ other ∈ nodes := by
  unfold place
  split
  · exact mem_cons
  · rw [mem_append, mem_singleton, or_comm]

theorem count_place (ledger : Ledger) (node : Nat) (nodes : List Nat) (other : Nat) :
    (ledger.place node nodes).count other = nodes.count other + if node = other then 1 else 0 := by
  unfold place
  split
  · simp [count_cons]
  · simp [count_singleton]

theorem length_place (ledger : Ledger) (node : Nat) (nodes : List Nat) :
    (ledger.place node nodes).length = nodes.length + 1 := by
  unfold place
  split
  · rfl
  · rw [length_append, length_singleton]

theorem room_unheld (outside : node ∉ ledger.active) :
    (ledger.room leaving).held (.inl node) = none :=
  if_neg outside

theorem room_held (member : node ∈ ledger.active) :
    (ledger.room leaving).held (.inl node) = some (entry (ledger.cmd node)) :=
  if_pos member

theorem room_enter [DecidableEq τ] (ofVdev : (ledger.cmd node).vdev = some vdev) :
    (ledger.enter node vdev).room leaving
      = (ledger.room leaving).enroll (.inl node) (some vdev) (ledger.cmd node).isBlocking := by
  unfold room Exclusion.enroll
  simp only [Sum.update_elim_inl]
  congr 1
  · congr 1
    funext other
    rw [update_apply]
    simp only [occupies, enter, mem_place]
    by_cases same : other = node
    · rw [if_pos (.inl same), if_pos same, same, entry, ofVdev]
    · rw [if_neg same]
      simp [same]
  · simp [enter, Set.image_insert_eq]

theorem occupies_leave (nodup : ledger.active.Nodup) :
    (ledger.leave node).occupies = update ledger.occupies node none := by
  funext other
  rw [update_apply]
  unfold occupies leave
  simp only [nodup.mem_erase_iff]
  by_cases same : other = node
  · rw [if_pos same, if_neg fun both => both.1 same]
  · simp [same]

theorem room_leave [DecidableEq τ] (nodup : ledger.active.Nodup) :
    (ledger.leave node).room leaving = (ledger.room leaving).forget (.inl node) := by
  unfold room Exclusion.forget
  simp only [Sum.update_elim_inl, occupies_leave nodup]
  rfl

theorem room_clear {isBlocking : Bool} :
    (ledger.clear vdev isBlocking).room leaving
      = (ledger.room leaving).settle (some vdev) isBlocking := by
  unfold room
  congr 1
  simp [clear, Set.image_sdiff (Option.some_injective Nat)]

/-- A command outside of the active list holds nothing. -/
theorem room_rewrite (outside : node ∉ ledger.active) (cmd : Command) :
    (ledger.rewrite node cmd).room leaving = ledger.room leaving := by
  have occupies : (ledger.rewrite node cmd).occupies = ledger.occupies := by
    funext other
    change (if other ∈ ledger.active then some (entry (update ledger.cmd node cmd other))
      else none) = ledger.occupies other
    unfold Ledger.occupies
    by_cases member : other ∈ ledger.active
    · have apart : other ≠ node := fun same => outside (same ▸ member)
      rw [if_pos member, if_pos member, update_of_ne apart]
    · rw [if_neg member, if_neg member]
  unfold room
  rw [occupies]
  rfl

/-! ## The invariant -/

/-- Every node stands in one list at most, and the record covers the active commands and
those that are leaving. -/
structure Sound (ledger : Ledger) (leaving : τ → Option (Option Nat × Bool)) : Prop where
  apart : ∀ node, ledger.uses node ≤ 1
  valid : (ledger.room leaving).Valid

theorem uses_enter (other : Nat) :
    (ledger.enter node vdev).uses other = ledger.uses other + if node = other then 1 else 0 := by
  unfold uses enter
  dsimp only
  rw [count_place]
  omega

theorem uses_await (other : Nat) :
    (ledger.await node).uses other = ledger.uses other + if node = other then 1 else 0 := by
  unfold uses await
  dsimp only
  rw [count_place]
  omega

theorem uses_giveBack (other : Nat) :
    (ledger.giveBack node).uses other = ledger.uses other + if node = other then 1 else 0 := by
  unfold uses giveBack
  simp only [count_append, count_singleton, beq_iff_eq]
  omega

theorem count_erase_add {nodes : List Nat} (member : node ∈ nodes) (other : Nat) :
    (nodes.erase node).count other + (if node = other then 1 else 0) = nodes.count other := by
  have present := count_pos_iff.mpr member
  rw [count_erase]
  by_cases same : node = other
  · subst same
    simp only [beq_self_eq_true, if_true]
    omega
  · simp only [same, beq_iff_eq, if_false]
    omega

theorem uses_leave (member : node ∈ ledger.active) (other : Nat) :
    (ledger.leave node).uses other + (if node = other then 1 else 0) = ledger.uses other := by
  have counted := count_erase_add member other
  unfold uses leave
  dsimp only
  omega

theorem uses_unqueue (member : node ∈ ledger.pending) (other : Nat) :
    (ledger.unqueue node).uses other + (if node = other then 1 else 0) = ledger.uses other := by
  have counted := count_erase_add member other
  unfold uses unqueue
  dsimp only
  omega

theorem not_mem_active (unused : ledger.uses node = 0) : node ∉ ledger.active := by
  rw [← count_eq_zero]
  unfold uses at unused
  omega

/-- Using a node that no list used keeps the nodes apart. -/
theorem apart_added {before after : Ledger} (apart : ∀ other, before.uses other ≤ 1)
    (unused : before.uses node = 0)
    (added : ∀ other, after.uses other = before.uses other + if node = other then 1 else 0)
    (other : Nat) : after.uses other ≤ 1 := by
  rw [added other]
  by_cases same : node = other
  · rw [if_pos same, ← same, unused]
  · rw [if_neg same]
    exact apart other

/-- A node that is taken out of a list is in none. -/
theorem apart_taken {before after : Ledger} (apart : ∀ other, before.uses other ≤ 1)
    (taken : ∀ other, after.uses other + (if node = other then 1 else 0) = before.uses other) :
    (∀ other, after.uses other ≤ 1) ∧ after.uses node = 0 := by
  constructor
  · intro other
    have once := apart other
    have counted := taken other
    omega
  · have once := apart node
    have counted := taken node
    rw [if_pos rfl] at counted
    omega

namespace Sound

section

variable (sound : ledger.Sound leaving)

include sound

theorem nodup_active : ledger.active.Nodup := by
  rw [nodup_iff_count_le_one]
  intro node
  have once := sound.apart node
  unfold uses at once
  omega

theorem apart_of_added {after : Ledger} (unused : ledger.uses node = 0)
    (added : ∀ other, after.uses other = ledger.uses other + if node = other then 1 else 0)
    (other : Nat) : after.uses other ≤ 1 :=
  apart_added sound.apart unused added other

theorem uses_of_taken {after : Ledger}
    (taken : ∀ other, after.uses other + (if node = other then 1 else 0) = ledger.uses other) :
    (∀ other, after.uses other ≤ 1) ∧ after.uses node = 0 :=
  apart_taken sound.apart taken

theorem await (unused : ledger.uses node = 0) : (ledger.await node).Sound leaving where
  apart := sound.apart_of_added unused uses_await
  valid := sound.valid

theorem giveBack (unused : ledger.uses node = 0) : (ledger.giveBack node).Sound leaving where
  apart := sound.apart_of_added unused uses_giveBack
  valid := sound.valid

theorem unqueue (member : node ∈ ledger.pending) : (ledger.unqueue node).Sound leaving where
  apart := (sound.uses_of_taken (uses_unqueue member)).1
  valid := sound.valid

theorem rewrite (unused : ledger.uses node = 0) (cmd : Command) :
    (ledger.rewrite node cmd).Sound leaving where
  apart := sound.apart
  valid := by
    rw [room_rewrite (not_mem_active unused)]
    exact sound.valid

end

variable [DecidableEq τ]

section

variable (sound : ledger.Sound leaving)

include sound

/-- A command may become active if no command of its vdev and no blocking one is, and a
blocking command only if no command is active at all. -/
theorem enter (unused : ledger.uses node = 0)
    (ofVdev : (ledger.cmd node).vdev = some vdev) (free : vdev ∉ ledger.bitmap)
    (allowed : if (ledger.cmd node).isBlocking then ledger.bitmap = ∅
      else ledger.blocking = false) : (ledger.enter node vdev).Sound leaving where
  apart := sound.apart_of_added unused uses_enter
  valid := by
    rw [room_enter ofVdev]
    apply sound.valid.enroll
    · rintro ⟨other, member, same⟩
      exact free (Option.some.inj same ▸ member)
    · cases isBlocking : (ledger.cmd node).isBlocking with
      | false =>
        rw [isBlocking] at allowed
        exact allowed
      | true =>
        rw [isBlocking] at allowed
        unfold room
        rw [if_pos rfl, allowed, Finset.coe_empty, Set.image_empty]

theorem leave (member : node ∈ ledger.active) : (ledger.leave node).Sound leaving where
  apart := (sound.uses_of_taken (uses_leave member)).1
  valid := by
    rw [room_leave sound.nodup_active]
    exact sound.valid.forget

/-- An active command leaves the list, and its record with it. -/
theorem depart (member : node ∈ ledger.active) (ofVdev : (ledger.cmd node).vdev = some vdev) :
    ((ledger.leave node).clear vdev (ledger.cmd node).isBlocking).Sound leaving where
  apart := (sound.leave member).apart
  valid := by
    rw [room_clear, room_leave sound.nodup_active]
    apply sound.valid.settle
    rw [room_held member, entry, ofVdev]

/-- An active command leaves the list, and its record is left to a thread. -/
theorem cancel (member : node ∈ ledger.active) (i : τ) :
    (ledger.leave node).Sound (update leaving i (some (entry (ledger.cmd node)))) where
  apart := (sound.leave member).apart
  valid := by
    have handed : (ledger.leave node).room (update leaving i (some (entry (ledger.cmd node))))
        = (ledger.room leaving).handOver (.inl node) (.inr i) := by
      unfold room Exclusion.handOver
      simp only [Sum.update_elim_inl, Sum.update_elim_inr, occupies_leave sound.nodup_active,
        Sum.elim_inl, occupies, if_pos member]
      rfl
    rw [handed]
    exact sound.valid.handOver

/-- The record that was left to a thread is taken back. -/
theorem finish {i : τ} {isBlocking : Bool} (isLeaving : leaving i = some (some vdev, isBlocking)) :
    (ledger.clear vdev isBlocking).Sound (update leaving i none) where
  apart := sound.apart
  valid := by
    have forgotten : ledger.room (update leaving i none)
        = (ledger.room leaving).forget (.inr i) := by
      unfold room Exclusion.forget
      simp only [Sum.update_elim_inr]
    rw [room_clear, forgotten]
    apply sound.valid.settle
    exact isLeaving

end

end Sound

end Ledger

namespace PdevQueue

/-- The ledger of a queue. -/
def ledger (queue : PdevQueue) : Ledger where
  cmd := queue.cmd
  active := queue.activeList.nodes
  pending := queue.pendingList.nodes
  pool := queue.cmdPoolList
  bitmap := queue.vdevActiveCmdBitmap
  blocking := queue.blockingCmdActive

variable {queue : PdevQueue} {node vdev : Nat} {active : Bool} {cmd : Command}

/-! ## Lists and bits -/

@[simp]
theorem mark_cmd (queue : PdevQueue) (node : Nat) (change : CmdInUse → CmdInUse) :
    (queue.mark node change).cmd = queue.cmd := by
  funext other
  simp only [cmd, mark, update_apply]
  by_cases same : other = node
  · rw [if_pos same, same]
  · rw [if_neg same]

@[simp]
theorem ledger_mark (queue : PdevQueue) (node : Nat) (change : CmdInUse → CmdInUse) :
    (queue.mark node change).ledger = queue.ledger := by
  unfold ledger
  rw [mark_cmd]
  rfl

@[simp]
theorem ledger_setVdevList (queue : PdevQueue) (vdev : Nat) (active : Bool) (nodes : List Nat) :
    (queue.setVdevList vdev active nodes).ledger = queue.ledger := by
  cases active <;> rfl

@[simp]
theorem ledger_addToVdevQueue (queue : PdevQueue) (node vdev : Nat) (active : Bool) :
    (queue.addToVdevQueue node vdev active).1.ledger = queue.ledger := by
  unfold addToVdevQueue
  dsimp only
  split <;> split <;> first | rfl | exact ledger_setVdevList ..

@[simp]
theorem ledger_removeFromVdevQueue (queue : PdevQueue) (cmd : Command) (vdev : Nat)
    (active : Bool) : (queue.removeFromVdevQueue cmd vdev active).1.ledger = queue.ledger := by
  unfold removeFromVdevQueue
  split
  · rfl
  · split
    · simp
    · simp

/-! ## Adding and removing -/

theorem ledger_setPdevList (queue : PdevQueue) (active : Bool) (nodes : List Nat) :
    (queue.setPdevList active nodes).ledger
      = if active then { queue.ledger with active := nodes }
        else { queue.ledger with pending := nodes } := by
  cases active <;> rfl

theorem addToPdevQueue_ledger {next : PdevQueue}
    (added : queue.addToPdevQueue node active = some next) :
    (if active then next.setActive node vdev else next).ledger
      = if active then queue.ledger.enter node vdev else queue.ledger.await node := by
  unfold addToPdevQueue at added
  dsimp only at added
  split at added
  · cases added
  · cases added
    cases active <;> rfl

/-- `wlan_ser_add_non_scan_cmd` adds a command to both lists or to none. -/
theorem addNonScanCmd_cases (queue : PdevQueue) (node vdev : Nat) (active : Bool) :
    ∃ next : PdevQueue,
      (queue.addNonScanCmd node vdev active = (next, true)
        ∧ next.ledger = if active then queue.ledger.enter node vdev else queue.ledger.await node)
      ∨ (queue.addNonScanCmd node vdev active = (next, false) ∧ next.ledger = queue.ledger) := by
  have same := ledger_addToVdevQueue queue node vdev active
  unfold addNonScanCmd
  split
  next next isAdded =>
    rw [isAdded] at same
    exact ⟨_, .inr ⟨rfl, same⟩⟩
  next next isAdded =>
    rw [isAdded] at same
    split
    next =>
      exact ⟨_, .inr ⟨rfl, (ledger_removeFromVdevQueue next _ vdev active).trans same⟩⟩
    next final placed =>
      refine ⟨_, .inl ⟨rfl, ?_⟩⟩
      rw [addToPdevQueue_ledger placed, same]

/-- `wlan_serialization_remove_cmd_from_pdev_queue` takes the first match out of the list,
or leaves the lists as they are. -/
theorem removeFromPdevQueue_cases (queue : PdevQueue) (cmd : Command) (active : Bool) :
    ∃ next : PdevQueue,
      (∃ node, queue.removeFromPdevQueue cmd active = (next, .removed node)
        ∧ queue.findCmd (queue.pdevList active).nodes cmd = some node
        ∧ next = queue.setPdevList active ((queue.pdevList active).nodes.erase node))
      ∨ (∃ removal, queue.removeFromPdevQueue cmd active = (next, removal)
        ∧ (∀ node, removal ≠ .removed node) ∧ next.ledger = queue.ledger) := by
  unfold removeFromPdevQueue
  split
  next => exact ⟨_, .inr ⟨_, rfl, fun _ => nofun, rfl⟩⟩
  next node found =>
    split
    next => exact ⟨_, .inr ⟨_, rfl, fun _ => nofun, ledger_mark queue node _⟩⟩
    next => exact ⟨_, .inl ⟨node, rfl, found, rfl⟩⟩

theorem findCmd_some {nodes : List Nat} (found : queue.findCmd nodes cmd = some node) :
    node ∈ nodes ∧ (queue.cmd node).vdev = cmd.vdev := by
  refine ⟨mem_of_find?_eq_some found, ?_⟩
  have isMatch := find?_some found
  exact (of_decide_eq_true isMatch).2.2

/-- Where a command is found is decided by the ledger. -/
theorem findCmd_congr {next : PdevQueue} (same : next.ledger = queue.ledger) (active : Bool) :
    next.findCmd (next.pdevList active).nodes cmd
      = queue.findCmd (queue.pdevList active).nodes cmd := by
  have sameCmd : next.cmd = queue.cmd := congrArg Ledger.cmd same
  have sameNodes : (next.pdevList active).nodes = (queue.pdevList active).nodes := by
    cases active with
    | false => exact congrArg Ledger.pending same
    | true => exact congrArg Ledger.active same
  unfold findCmd
  rw [sameCmd, sameNodes]

/-- What `wlan_ser_remove_non_scan_cmd` does to the lists of the pdev. -/
theorem removeNonScanCmd_cases (queue : PdevQueue) (cmd : Command) (active : Bool) :
    ∃ next : PdevQueue,
      (∃ node vdev, queue.removeNonScanCmd cmd active = (next, .removed node)
        ∧ cmd.vdev = some vdev ∧ (queue.cmd node).vdev = some vdev
        ∧ queue.findCmd (queue.pdevList active).nodes cmd = some node
        ∧ next.ledger
          = if active then
              (queue.ledger.leave node).clear vdev (queue.cmd node).isBlocking
            else queue.ledger.unqueue node)
      ∨ (∃ removal, queue.removeNonScanCmd cmd active = (next, removal)
        ∧ (∀ node, removal ≠ .removed node) ∧ next.ledger = queue.ledger) := by
  unfold removeNonScanCmd
  split
  next => exact ⟨_, .inr ⟨_, rfl, fun _ => nofun, rfl⟩⟩
  next vdev ofVdev =>
    have same := ledger_removeFromVdevQueue queue cmd vdev active
    split
    next next taken =>
      rw [taken] at same
      exact ⟨_, .inr ⟨_, rfl, fun _ => nofun, same⟩⟩
    next next taken =>
      rw [taken] at same
      exact ⟨_, .inr ⟨_, rfl, fun _ => nofun, same⟩⟩
    next next _ taken =>
      rw [taken] at same
      obtain ⟨final, ⟨node, removed, found, isFinal⟩ | ⟨removal, kept, other, sameFinal⟩⟩ :=
        removeFromPdevQueue_cases next cmd active
      · rw [removed]
        have sameNode : next.cmd node = queue.cmd node :=
          congrArg (fun ledger => ledger.cmd node) same
        have here := (findCmd_some found).2
        rw [findCmd_congr same active] at found
        rw [sameNode, ofVdev] at here
        subst isFinal
        cases active with
        | false =>
          refine ⟨_, .inl ⟨node, vdev, rfl, ofVdev, here, found, ?_⟩⟩
          rw [← same]
          rfl
        | true =>
          refine ⟨_, .inl ⟨node, vdev, rfl, ofVdev, here, found, ?_⟩⟩
          rw [← same, ← sameNode]
          rfl
      · rw [kept]
        cases removal with
        | removed node => exact (other node rfl).elim
        | failure | pending => exact ⟨_, .inr ⟨_, rfl, fun _ => nofun, sameFinal.trans same⟩⟩

end PdevQueue

end Sm8650.Wlan
