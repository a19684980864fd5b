import Mathlib.Data.BitVec
import Sm8650.Wlan.SerSections

/-!
# The books of a pdev

Beside the lists of the pdev, its queues keep a list for every vdev, a bit for every vdev
with an active command, a flag for a blocking command and a count of the blocking commands
that wait. They agree when all of these can be read off the lists of the pdev, up to one
command in the hands of the running thread and one whose record it has still to take back.
-/

namespace Sm8650.Wlan

open Transition List Function Ledger

/-- The sizes of the queues of a pdev: every vdev can have a command active, and the
pending commands can be counted in sixteen bits. -/
structure SerConfig where
  maxVdevs : Nat
  maxActive : Nat
  maxPending : Nat
  vdevMaxActive : Nat
  vdevMaxPending : Nat → Nat
  vdevs_fit : maxVdevs ≤ maxActive
  active_fits : 0 < vdevMaxActive
  pending_fits : maxPending < 2 ^ 16

namespace SerConfig

/-- The number of command buffers. -/
def total (config : SerConfig) : Nat :=
  config.maxActive + config.maxPending

/-- The size of a list of the pdev. -/
def room (config : SerConfig) (active : Bool) : Nat :=
  if active then config.maxActive else config.maxPending

/-- The size of a list of a vdev. -/
def vdevRoom (config : SerConfig) (vdev : Nat) (active : Bool) : Nat :=
  if active then config.vdevMaxActive else config.vdevMaxPending vdev

/-- A new queue of this configuration. -/
def create (config : SerConfig) : PdevQueue :=
  .create config.maxActive config.maxPending config.vdevMaxActive config.vdevMaxPending

end SerConfig

/-- A list of the pdev. -/
def Ledger.nodes (ledger : Ledger) (active : Bool) : List Nat :=
  if active then ledger.active else ledger.pending

/-- What the queues of a pdev record of its commands; `deferred` are those that are to be
removed or canceled once they have been activated. -/
structure Books where
  ledger : Ledger
  vdevNodes : Nat → Bool → List Nat
  room : Bool → Nat
  vdevRoom : Nat → Bool → Nat
  waiting : BitVec 16
  marked : Nat → Bool
  deferred : Nat → Bool

namespace Books

/-- A list of a vdev is another one. -/
def setVdevNodes (books : Books) (vdev : Nat) (active : Bool) (nodes : List Nat) : Books :=
  { books with
    vdevNodes := fun other list =>
      if other = vdev ∧ list = active then nodes else books.vdevNodes other list }

/-- A node enters the lists. -/
def add (books : Books) (node vdev : Nat) (active : Bool) : Books :=
  { books.setVdevNodes vdev active (books.ledger.place node (books.vdevNodes vdev active)) with
    ledger := if active then books.ledger.enter node vdev else books.ledger.await node }

/-- A node leaves the lists. -/
def take (books : Books) (node vdev : Nat) (active : Bool) : Books :=
  { books.setVdevNodes vdev active ((books.vdevNodes vdev active).erase node) with
    ledger := if active then books.ledger.leave node else books.ledger.unqueue node }

/-- The record of an active command is taken back. -/
def clear (books : Books) (vdev : Nat) (isBlocking : Bool) : Books :=
  { books with ledger := books.ledger.clear vdev isBlocking }

/-- One blocking command more or less waits. -/
def recount (books : Books) (isBlocking : Bool) (change : BitVec 16) : Books :=
  { books with waiting := if isBlocking then books.waiting + change else books.waiting }

/-- The command of a node is another one. -/
def rewrite (books : Books) (node : Nat) (cmd : Command) : Books :=
  { books with ledger := books.ledger.rewrite node cmd }

/-- A node goes back to the pool. -/
def giveBack (books : Books) (node : Nat) : Books :=
  { books with ledger := books.ledger.giveBack node }

/-- A node is drawn from the pool. -/
def draw (books : Books) (pool : List Nat) : Books :=
  { books with ledger := { books.ledger with pool := pool } }

/-- A node is marked for activation, or is so no more. -/
def mark (books : Books) (node : Nat) (isMarked : Bool) : Books :=
  { books with marked := update books.marked node isMarked }

/-- A node has no marks. -/
def reset (books : Books) (node : Nat) : Books :=
  { books with
    marked := update books.marked node false
    deferred := update books.deferred node false }

end Books

@[simp]
theorem Books.add_cmd (books : Books) (node vdev : Nat) (active : Bool) (other : Nat) :
    (books.add node vdev active).ledger.cmd other = books.ledger.cmd other := by
  cases active <;> rfl

@[simp]
theorem Books.take_cmd (books : Books) (node vdev : Nat) (active : Bool) (other : Nat) :
    (books.take node vdev active).ledger.cmd other = books.ledger.cmd other := by
  cases active <;> rfl

theorem Books.add_nodes (books : Books) (node vdev : Nat) (active list : Bool) :
    (books.add node vdev active).ledger.nodes list
      = if list = active then books.ledger.place node (books.ledger.nodes list)
        else books.ledger.nodes list := by
  cases active <;> cases list <;> rfl

theorem Books.take_nodes (books : Books) (node vdev : Nat) (active list : Bool) :
    (books.take node vdev active).ledger.nodes list
      = if list = active then (books.ledger.nodes list).erase node
        else books.ledger.nodes list := by
  cases active <;> cases list <;> rfl

/-! ## The invariant -/

/-- What is recorded of a command that has left a list: the command, and whether the list
was the active one. -/
abbrev Leaving := Option (Command × Bool)

namespace Leaving

/-- The key that the record keeps taken. -/
def key (leaving : Leaving) : Unit → Option (Option Nat × Bool) := fun _ =>
  match leaving with
  | some (cmd, true) => some (entry cmd)
  | _ => none

/-- How often the record is counted as waiting. -/
def waits : Leaving → Nat
  | some (cmd, false) => if cmd.isBlocking then 1 else 0
  | _ => 0

/-- The place that the command had in the pending list. -/
def place : Leaving → Nat
  | some (_, false) => 1
  | _ => 0

end Leaving

/-- The books agree, with `hand` in the hands of the thread and the record of `leaving` not
taken back. -/
structure Books.Exact (config : SerConfig) (books : Books) (hand : Option Nat)
    (leaving : Leaving) : Prop where
  uses : ∀ node, books.ledger.uses node = if node < config.total ∧ hand ≠ some node then 1 else 0
  inHand : ∀ node ∈ hand, node < config.total
  valid : (books.ledger.room leaving.key).Valid
  vdevLists : ∀ vdev active, books.vdevNodes vdev active
    = (books.ledger.nodes active).filter fun node =>
        decide ((books.ledger.cmd node).vdev = some vdev)
  ofVdev : ∀ active, ∀ node ∈ books.ledger.nodes active,
    ∃ vdev < config.maxVdevs, (books.ledger.cmd node).vdev = some vdev
  bit : ∀ vdev, vdev ∈ books.ledger.bitmap ↔
    (∃ node ∈ books.ledger.active, (books.ledger.cmd node).vdev = some vdev)
      ∨ ∃ cmd, leaving = some (cmd, true) ∧ cmd.vdev = some vdev
  blocking : books.ledger.blocking = true ↔
    (∃ node ∈ books.ledger.active, (books.ledger.cmd node).isBlocking = true)
      ∨ ∃ cmd, leaving = some (cmd, true) ∧ cmd.isBlocking = true
  waiting : books.waiting.toNat
    = books.ledger.pending.countP (fun node => (books.ledger.cmd node).isBlocking) + leaving.waits
  keys : books.ledger.pending.Pairwise fun first second =>
    (books.ledger.cmd first).matches (books.ledger.cmd second) = false
  fits : books.ledger.pending.length + leaving.place ≤ config.maxPending
  room : books.room = config.room
  vdevRoom : books.vdevRoom = config.vdevRoom
  marked : ∀ node, books.marked node = true → node ∈ books.ledger.active
  calm : ∀ node, books.deferred node = false

theorem Command.matches_comm (first second : Command) :
    first.matches second = second.matches first := by
  unfold Command.matches
  rw [decide_eq_decide]
  constructor <;> rintro ⟨sameId, sameType, sameVdev⟩ <;>
    exact ⟨sameId.symm, sameType.symm, sameVdev.symm⟩

theorem Command.matches_self (cmd : Command) : cmd.matches cmd = true :=
  decide_eq_true ⟨rfl, rfl, rfl⟩

theorem Command.vdev_of_matches {first second : Command}
    (isMatch : first.matches second = true) : first.vdev = second.vdev :=
  (of_decide_eq_true isMatch).2.2

namespace Ledger

variable {ledger : Ledger} {node : Nat}

@[simp]
theorem nodes_true (ledger : Ledger) : ledger.nodes true = ledger.active := rfl

@[simp]
theorem nodes_false (ledger : Ledger) : ledger.nodes false = ledger.pending := rfl

theorem not_mem_nodes (unused : ledger.uses node = 0) (active : Bool) :
    node ∉ ledger.nodes active := by
  rw [← count_eq_zero]
  unfold uses at unused
  cases active with
  | false =>
    rw [nodes_false]
    omega
  | true =>
    rw [nodes_true]
    omega

theorem filter_place (ledger : Ledger) (node : Nat) (nodes : List Nat) (keep : Nat → Bool) :
    (ledger.place node nodes).filter keep
      = if keep node then ledger.place node (nodes.filter keep) else nodes.filter keep := by
  unfold place
  cases kept : keep node with
  | false | true => split <;> simp [kept]

theorem countP_place (ledger : Ledger) (node : Nat) (nodes : List Nat) (keep : Nat → Bool) :
    (ledger.place node nodes).countP keep = nodes.countP keep + if keep node then 1 else 0 := by
  unfold place
  split
  · rw [countP_cons]
  · rw [countP_append, countP_singleton]

theorem filter_erase {nodes : List Nat} (nodup : nodes.Nodup) (node : Nat) (keep : Nat → Bool) :
    (nodes.erase node).filter keep = (nodes.filter keep).erase node := by
  rw [nodup.erase_eq_filter, (nodup.filter keep).erase_eq_filter, filter_filter, filter_filter]
  simp only [Bool.and_comm]

theorem pairwise_place {ledger : Ledger} {nodes : List Nat} {relation : Nat → Nat → Prop}
    (pairwise : nodes.Pairwise relation)
    (related : ∀ other ∈ nodes, relation node other ∧ relation other node) :
    (ledger.place node nodes).Pairwise relation := by
  unfold place
  split
  · exact pairwise_cons.mpr ⟨fun other member => (related other member).1, pairwise⟩
  · rw [pairwise_append]
    refine ⟨pairwise, pairwise_singleton _ _, ?_⟩
    intro other member last isLast
    rw [mem_singleton.mp isLast]
    exact (related other member).2

end Ledger

namespace Books.Exact

variable {config : SerConfig} {books : Books} {hand : Option Nat} {leaving : Leaving}
  {node vdev : Nat}

theorem sound (exact : books.Exact config hand leaving) : books.ledger.Sound leaving.key where
  apart := fun other => by
    rw [exact.uses other]
    split <;> omega
  valid := exact.valid

/-- A node in hand is in no list. -/
theorem unused (exact : books.Exact config (some node) leaving) : books.ledger.uses node = 0 := by
  rw [exact.uses node, if_neg fun both => both.2 rfl]

section

variable (exact : books.Exact config hand leaving)

include exact

theorem nodup_active : books.ledger.active.Nodup :=
  exact.sound.nodup_active

/-- A bit is set for the vdev of every active command. -/
theorem bit_of_active {other : Nat} (member : other ∈ books.ledger.active)
    (isVdev : (books.ledger.cmd other).vdev = some vdev) : vdev ∈ books.ledger.bitmap :=
  (exact.bit vdev).mpr (.inl ⟨other, member, isVdev⟩)

/-- Two active commands of one vdev are the same. -/
theorem active_inj {first second : Nat}
    (memberFirst : first ∈ books.ledger.active) (memberSecond : second ∈ books.ledger.active)
    (same : (books.ledger.cmd first).vdev = (books.ledger.cmd second).vdev) : first = second := by
  have heldFirst : (books.ledger.room leaving.key).held (.inl first) = _ :=
    room_held memberFirst
  have heldSecond : (books.ledger.room leaving.key).held (.inl second) = _ :=
    room_held memberSecond
  rw [entry] at heldFirst heldSecond
  rw [same] at heldFirst
  exact Sum.inl.inj (exact.valid.distinct heldFirst heldSecond)

end

/-! ## The pool -/

/-- A node is drawn from the pool. -/
theorem draw (exact : books.Exact config none leaving) {pool : List Nat}
    (drawn : books.ledger.pool = node :: pool) :
    (books.draw pool).Exact config (some node) leaving :=
  { exact with
    uses := fun other => by
      have before := exact.uses other
      have counted : (books.draw pool).ledger.uses other + (if node = other then 1 else 0)
          = books.ledger.uses other := by
        simp only [Books.draw, Ledger.uses, drawn, count_cons, beq_iff_eq]
        omega
      rw [before] at counted
      split at counted <;> split at counted <;> simp_all
    inHand := fun other isNode => by
      obtain rfl := Option.some.inj isNode
      have before := exact.uses node
      have present : 0 < books.ledger.uses node := by
        simp only [Ledger.uses, drawn, count_cons_self]
        omega
      by_contra outside
      rw [if_neg fun both => outside both.1] at before
      omega }

/-- A node in hand goes back to the pool. -/
theorem giveBack (exact : books.Exact config (some node) leaving) :
    (books.giveBack node).Exact config none leaving :=
  { exact with
    uses := fun other => by
      have before := exact.uses other
      have inside := exact.inHand node rfl
      have counted := @uses_giveBack books.ledger node other
      change (books.ledger.giveBack node).uses other = _
      rw [counted, before]
      by_cases same : node = other
      · subst same
        simp [inside]
      · simp [same]
    inHand := fun _ none => nomatch none }

/-- The command of a node in hand can be any. -/
theorem rewrite (exact : books.Exact config (some node) leaving) (cmd : Command) :
    (books.rewrite node cmd).Exact config (some node) leaving := by
  have apart : ∀ active, ∀ other ∈ books.ledger.nodes active,
      (books.rewrite node cmd).ledger.cmd other = books.ledger.cmd other := by
    intro active other member
    apply update_of_ne
    rintro rfl
    exact not_mem_nodes exact.unused active member
  have active : ∀ other ∈ books.ledger.active, _ := apart true
  have pending : ∀ other ∈ books.ledger.pending, _ := apart false
  refine
    { exact with
      valid := ?_, vdevLists := fun vdev list => ?_, ofVdev := fun list other member => ?_
      bit := fun vdev => (exact.bit vdev).trans ?_, blocking := exact.blocking.trans ?_
      waiting := exact.waiting.trans ?_, keys := ?_ }
  · change ((books.ledger.rewrite node cmd).room leaving.key).Valid
    rw [room_rewrite (not_mem_active exact.unused)]
    exact exact.valid
  · refine (exact.vdevLists vdev list).trans (filter_congr fun other member => ?_)
    rw [apart list other member]
  · rw [apart list other member]
    exact exact.ofVdev list other member
  · refine or_congr_left (exists_congr fun other => and_congr_right fun member => ?_)
    rw [active other member]
  · refine or_congr_left (exists_congr fun other => and_congr_right fun member => ?_)
    rw [active other member]
  · congr 1
    refine countP_congr fun other member => ?_
    rw [pending other member]
  · apply exact.keys.imp_of_mem
    intro first second memberFirst memberSecond differ
    rw [pending first memberFirst, pending second memberSecond]
    exact differ

/-! ## The lists -/

section

variable (exact : books.Exact config hand leaving)

include exact

/-- The lists of the vdevs follow those of the pdev when a node is added. -/
theorem vdevLists_add {active : Bool}
    (ofVdev : (books.ledger.cmd node).vdev = some vdev) (other : Nat) (list : Bool) :
    (books.add node vdev active).vdevNodes other list
      = ((books.add node vdev active).ledger.nodes list).filter fun each =>
          decide (((books.add node vdev active).ledger.cmd each).vdev = some other) := by
  have before := exact.vdevLists
  simp only [Books.add_cmd, Books.add_nodes]
  change (if other = vdev ∧ list = active then _ else _) = _
  by_cases sameList : list = active
  · subst sameList
    simp only [and_true, if_true]
    rw [filter_place, ← before other list]
    by_cases sameVdev : other = vdev
    · subst sameVdev
      rw [if_pos rfl, if_pos (decide_eq_true ofVdev)]
    · have differ : (books.ledger.cmd node).vdev ≠ some other := by
        rw [ofVdev]
        exact fun same => sameVdev (Option.some.inj same).symm
      rw [if_neg sameVdev, if_neg fun both => differ (of_decide_eq_true both)]
  · rw [if_neg fun both => sameList both.2, if_neg sameList]
    exact before other list

/-- The lists of the vdevs follow those of the pdev when a node is taken. -/
theorem vdevLists_take {active : Bool} (ofVdev : (books.ledger.cmd node).vdev = some vdev)
    (nodup : (books.ledger.nodes active).Nodup) (other : Nat) (list : Bool) :
    (books.take node vdev active).vdevNodes other list
      = ((books.take node vdev active).ledger.nodes list).filter fun each =>
          decide (((books.take node vdev active).ledger.cmd each).vdev = some other) := by
  have before := exact.vdevLists
  simp only [Books.take_cmd, Books.take_nodes]
  change (if other = vdev ∧ list = active then _ else _) = _
  by_cases sameList : list = active
  · subst sameList
    simp only [and_true, if_true]
    rw [filter_erase nodup, ← before other list]
    by_cases sameVdev : other = vdev
    · subst sameVdev
      rw [if_pos rfl]
    · rw [if_neg sameVdev, erase_of_not_mem]
      rw [before other list, mem_filter]
      rintro ⟨-, isOther⟩
      rw [decide_eq_true_eq, ofVdev] at isOther
      exact sameVdev (Option.some.inj isOther).symm
  · rw [if_neg fun both => sameList both.2, if_neg sameList]
    exact before other list

theorem nodup_nodes (active : Bool) : (books.ledger.nodes active).Nodup := by
  rw [nodup_iff_count_le_one]
  intro other
  have once := exact.sound.apart other
  unfold Ledger.uses at once
  cases active with
  | false =>
    rw [Ledger.nodes_false]
    omega
  | true =>
    rw [Ledger.nodes_true]
    omega

end

/-- The use of a node in hand, when it is put down. -/
theorem uses_put (exact : books.Exact config (some node) leaving) {after : Ledger}
    (added : ∀ other, after.uses other
      = books.ledger.uses other + if node = other then 1 else 0) (other : Nat) :
    after.uses other = if other < config.total ∧ none ≠ some other then 1 else 0 := by
  have inside := exact.inHand node rfl
  rw [added other, exact.uses other]
  by_cases same : node = other
  · subst same
    simp [inside]
  · simp [same]

/-- A node in hand enters the active lists, if that is allowed. -/
theorem enter (exact : books.Exact config (some node) leaving)
    (ofVdev : (books.ledger.cmd node).vdev = some vdev) (known : vdev < config.maxVdevs)
    (free : vdev ∉ books.ledger.bitmap)
    (allowed : if (books.ledger.cmd node).isBlocking then books.ledger.bitmap = ∅
      else books.ledger.blocking = false) : (books.add node vdev true).Exact config none leaving :=
  { exact with
    uses := exact.uses_put uses_enter
    inHand := fun _ none => nomatch none
    valid := (exact.sound.enter exact.unused ofVdev free allowed).valid
    vdevLists := exact.vdevLists_add ofVdev
    ofVdev := fun active other member => by
      cases active with
      | false => exact exact.ofVdev false other member
      | true =>
        rcases mem_place.mp member with rfl | before
        · exact ⟨vdev, known, ofVdev⟩
        · exact exact.ofVdev true other before
    bit := fun other => by
      change other ∈ insert vdev books.ledger.bitmap ↔
        (∃ next ∈ books.ledger.place node books.ledger.active,
          (books.ledger.cmd next).vdev = some other) ∨ _
      rw [Finset.mem_insert, exact.bit other]
      simp only [mem_place, or_and_right, exists_or, exists_eq_left, ofVdev, Option.some.injEq]
      rw [or_assoc, eq_comm]
    blocking := by
      change (books.ledger.blocking || (books.ledger.cmd node).isBlocking) = true ↔
        (∃ next ∈ books.ledger.place node books.ledger.active,
          (books.ledger.cmd next).isBlocking = true) ∨ _
      rw [Bool.or_eq_true, exact.blocking]
      simp only [mem_place, or_and_right, exists_or, exists_eq_left]
      constructor
      · rintro ((before | left) | own)
        · exact .inl (.inr before)
        · exact .inr left
        · exact .inl (.inl own)
      · rintro ((own | before) | left)
        · exact .inr own
        · exact .inl (.inl before)
        · exact .inl (.inr left)
    marked := fun other isMarked => mem_place.mpr (.inr (exact.marked other isMarked)) }

/-- A node in hand enters the pending lists, and is counted if it is blocking. -/
theorem await (exact : books.Exact config (some node) none)
    (ofVdev : (books.ledger.cmd node).vdev = some vdev) (known : vdev < config.maxVdevs)
    (differs : ∀ other ∈ books.ledger.pending,
      (books.ledger.cmd other).matches (books.ledger.cmd node) = false)
    (hasRoom : books.ledger.pending.length < config.maxPending) :
    ((books.add node vdev false).recount (books.ledger.cmd node).isBlocking 1).Exact
      config none none :=
  { exact with
    uses := exact.uses_put uses_await
    inHand := fun _ none => nomatch none
    vdevLists := exact.vdevLists_add ofVdev
    ofVdev := fun active other member => by
      cases active with
      | false =>
        rcases mem_place.mp member with rfl | before
        · exact ⟨vdev, known, ofVdev⟩
        · exact exact.ofVdev false other before
      | true => exact exact.ofVdev true other member
    waiting := by
      have counted : books.waiting.toNat
          = books.ledger.pending.countP (fun node => (books.ledger.cmd node).isBlocking) + 0 :=
        exact.waiting
      have bound := countP_le_length
        (p := fun node => (books.ledger.cmd node).isBlocking) (l := books.ledger.pending)
      have small := config.pending_fits
      change (if (books.ledger.cmd node).isBlocking then books.waiting + 1 else books.waiting).toNat
        = (books.ledger.place node books.ledger.pending).countP
            (fun node => (books.ledger.cmd node).isBlocking) + 0
      rw [countP_place]
      cases isBlocking : (books.ledger.cmd node).isBlocking with
      | false =>
        rw [if_neg Bool.false_ne_true, if_neg Bool.false_ne_true]
        omega
      | true =>
        rw [if_pos rfl, if_pos rfl, BitVec.toNat_add, show (1 : BitVec 16).toNat = 1 from rfl]
        omega
    keys := pairwise_place exact.keys fun other member =>
      ⟨(Command.matches_comm _ _).trans (differs other member), differs other member⟩
    fits := by
      change (books.ledger.place node books.ledger.pending).length + 0 ≤ config.maxPending
      rw [length_place]
      omega }

/-- The use of a node that is taken in hand. -/
theorem uses_taken (exact : books.Exact config none leaving) {after : Ledger}
    (taken : ∀ other, after.uses other + (if node = other then 1 else 0)
      = books.ledger.uses other) (other : Nat) :
    after.uses other = if other < config.total ∧ some node ≠ some other then 1 else 0 := by
  have counted := taken other
  rw [exact.uses other] at counted
  by_cases same : node = other
  · subst same
    simp only [ne_eq, if_true, not_true_eq_false, and_false, if_false] at counted ⊢
    split at counted <;> omega
  · simpa [same] using counted

/-- What holds of the active commands and of the one that leaves does so when one of them
becomes the one that leaves. -/
theorem left_of_erase {list : List Nat} {cmd : Nat → Command} (member : node ∈ list)
    (holds : Command → Prop) :
    ((∃ next ∈ list, holds (cmd next)) ∨
        ∃ left, (none : Leaving) = some (left, true) ∧ holds left) ↔
      (∃ next ∈ list.erase node, holds (cmd next)) ∨
        ∃ left, some (cmd node, true) = some (left, true) ∧ holds left := by
  constructor
  · rintro (⟨next, memberNext, isHeld⟩ | ⟨_, nothing, -⟩)
    · by_cases same : next = node
      · exact .inr ⟨_, rfl, same ▸ isHeld⟩
      · exact .inl ⟨next, (mem_erase_of_ne same).mpr memberNext, isHeld⟩
    · cases nothing
  · rintro (⟨next, memberNext, isHeld⟩ | ⟨_, isLeft, isHeld⟩)
    · exact .inl ⟨next, mem_of_mem_erase memberNext, isHeld⟩
    · cases isLeft
      exact .inl ⟨node, member, isHeld⟩

/-- A node of a list is taken in hand, and its record stays behind. -/
theorem take (exact : books.Exact config none none) (active : Bool)
    (member : node ∈ books.ledger.nodes active)
    (ofVdev : (books.ledger.cmd node).vdev = some vdev) (unmarked : books.marked node = false) :
    (books.take node vdev active).Exact config (some node)
      (some (books.ledger.cmd node, active)) where
  uses := by
    apply exact.uses_taken
    cases active with
    | false => exact uses_unqueue member
    | true => exact uses_leave member
  inHand := fun other isNode => by
    obtain rfl := Option.some.inj isNode
    have before := exact.uses node
    have absent : books.ledger.uses node ≠ 0 := fun unused =>
      not_mem_nodes unused active member
    by_contra outside
    exact absent (before.trans (if_neg fun both => outside both.1))
  valid := by
    cases active with
    | false => exact exact.valid
    | true =>
      have cancelled := (exact.sound.cancel member ()).valid
      exact cancelled
  vdevLists := exact.vdevLists_take ofVdev (exact.nodup_nodes active)
  ofVdev := fun list other memberOther => by
    rw [Books.take_nodes] at memberOther
    rw [Books.take_cmd]
    apply exact.ofVdev list other
    split at memberOther
    · exact mem_of_mem_erase memberOther
    · exact memberOther
  bit := fun other => by
    cases active with
    | false =>
      rw [show (books.take node vdev false).ledger.bitmap = books.ledger.bitmap from rfl,
        exact.bit other]
      simp [Books.take, unqueue]
    | true =>
      rw [show (books.take node vdev true).ledger.bitmap = books.ledger.bitmap from rfl,
        exact.bit other]
      exact left_of_erase member fun cmd => cmd.vdev = some other
  blocking := by
    cases active with
    | false =>
      rw [show (books.take node vdev false).ledger.blocking = books.ledger.blocking from rfl,
        exact.blocking]
      simp [Books.take, unqueue]
    | true =>
      rw [show (books.take node vdev true).ledger.blocking = books.ledger.blocking from rfl,
        exact.blocking]
      exact left_of_erase member fun cmd => cmd.isBlocking = true
  waiting := by
    have counted : books.waiting.toNat
        = books.ledger.pending.countP (fun node => (books.ledger.cmd node).isBlocking) + 0 :=
      exact.waiting
    cases active with
    | true => exact counted
    | false =>
      change books.waiting.toNat = (books.ledger.pending.erase node).countP
        (fun node => (books.ledger.cmd node).isBlocking)
          + if (books.ledger.cmd node).isBlocking then 1 else 0
      rw [counted, countP_erase]
      cases isBlocking : (books.ledger.cmd node).isBlocking with
      | false =>
        rw [if_neg fun both => Bool.false_ne_true both.2]
        rfl
      | true =>
        have positive : 0 < books.ledger.pending.countP
            (fun node => (books.ledger.cmd node).isBlocking) :=
          countP_pos_iff.mpr ⟨node, member, isBlocking⟩
        rw [if_pos ⟨member, rfl⟩, if_pos rfl]
        omega
  keys := by
    cases active with
    | true => exact exact.keys
    | false => exact exact.keys.sublist erase_sublist
  fits := by
    have inside : books.ledger.pending.length + 0 ≤ config.maxPending := exact.fits
    cases active with
    | true => exact inside
    | false =>
      change (books.ledger.pending.erase node).length + 1 ≤ config.maxPending
      have isPending : node ∈ books.ledger.pending := member
      have positive := length_pos_of_mem isPending
      rw [length_erase_of_mem isPending]
      omega
  room := exact.room
  vdevRoom := exact.vdevRoom
  marked := fun other isMarked => by
    have before := exact.marked other isMarked
    cases active with
    | false => exact before
    | true =>
      have differs : other ≠ node := by
        rintro rfl
        exact Bool.false_ne_true (unmarked.symm.trans isMarked)
      exact (mem_erase_of_ne differs).mpr before
  calm := exact.calm

/-! ## Records -/

/-- The record of an active command is taken back: no other command has its vdev, and no
other one is active if it is blocking. -/
theorem clear {cmd : Command} (exact : books.Exact config hand (some (cmd, true)))
    (ofVdev : cmd.vdev = some vdev) : (books.clear vdev cmd.isBlocking).Exact config hand none := by
  have left : Leaving.key (some (cmd, true)) () = some (some vdev, cmd.isBlocking) := by
    rw [← ofVdev]
    rfl
  have held : (books.ledger.room (Leaving.key (some (cmd, true)))).held (.inr ())
      = some (some vdev, cmd.isBlocking) := left
  have others : ∀ other ∈ books.ledger.active, (books.ledger.cmd other).vdev ≠ some vdev := by
    intro other member same
    have heldOther : (books.ledger.room (Leaving.key (some (cmd, true)))).held (.inl other) = _ :=
      room_held member
    rw [entry, same] at heldOther
    cases exact.valid.distinct heldOther held
  have alone : cmd.isBlocking = true → books.ledger.active = [] := by
    intro isBlocking
    rw [eq_nil_iff_forall_not_mem]
    intro other member
    rw [isBlocking] at held
    have heldOther : (books.ledger.room (Leaving.key (some (cmd, true)))).held (.inl other) = _ :=
      room_held member
    cases exact.valid.only held heldOther
  refine { exact with valid := ?_, bit := fun other => ?_, blocking := ?_ }
  · have finished := (exact.sound.finish left).valid
    exact finished
  · change other ∈ books.ledger.bitmap.erase vdev ↔ _
    rw [Finset.mem_erase, exact.bit other]
    constructor
    · rintro ⟨differs, active | ⟨left, isLeft, isOther⟩⟩
      · exact .inl active
      · cases isLeft
        exact absurd (Option.some.inj (isOther.symm.trans ofVdev)) differs
    · rintro (⟨next, member, isOther⟩ | ⟨_, nothing, -⟩)
      · refine ⟨?_, .inl ⟨next, member, isOther⟩⟩
        rintro rfl
        exact others next member isOther
      · cases nothing
  · change (if cmd.isBlocking then false else books.ledger.blocking) = true ↔ _
    cases isBlocking : cmd.isBlocking with
    | true =>
      have empty := alone isBlocking
      simp [Books.clear, Ledger.clear, empty]
    | false =>
      rw [if_neg Bool.false_ne_true, exact.blocking]
      constructor
      · rintro (active | ⟨left, isLeft, leftBlocks⟩)
        · exact .inl active
        · cases isLeft
          exact absurd (isBlocking.symm.trans leftBlocks) Bool.false_ne_true
      · rintro (active | ⟨_, nothing, -⟩)
        · exact .inl active
        · cases nothing

/-- A command that has left the pending lists waits no more. -/
theorem uncount {cmd : Command} (exact : books.Exact config hand (some (cmd, false))) :
    (books.recount cmd.isBlocking (-1)).Exact config hand none :=
  { exact with
    bit := fun vdev => by
      rw [show (books.recount cmd.isBlocking (-1)).ledger = books.ledger from rfl, exact.bit vdev]
      simp
    blocking := by
      rw [show (books.recount cmd.isBlocking (-1)).ledger = books.ledger from rfl, exact.blocking]
      simp
    waiting := by
      have counted : books.waiting.toNat
          = books.ledger.pending.countP (fun node => (books.ledger.cmd node).isBlocking)
            + if cmd.isBlocking then 1 else 0 := exact.waiting
      change (if cmd.isBlocking then books.waiting + -1 else books.waiting).toNat = _ + 0
      cases isBlocking : cmd.isBlocking with
      | false =>
        rw [isBlocking] at counted
        exact counted
      | true =>
        rw [isBlocking, if_pos rfl] at counted
        rw [if_pos rfl, BitVec.toNat_add, show (-1 : BitVec 16).toNat = 2 ^ 16 - 1 from rfl]
        simp only [Books.recount]
        omega
    fits := by
      have inside : books.ledger.pending.length + 1 ≤ config.maxPending := exact.fits
      change books.ledger.pending.length + 0 ≤ config.maxPending
      omega }

/-! ## Marks -/

section

variable (exact : books.Exact config hand leaving)

include exact

/-- An active node may be marked for activation, and a mark may always go. -/
theorem mark {isMarked : Bool} (allowed : isMarked = true → node ∈ books.ledger.active) :
    (books.mark node isMarked).Exact config hand leaving :=
  { exact with
    marked := fun other isOther => by
      change update books.marked node isMarked other = true at isOther
      by_cases same : other = node
      · subst same
        rw [update_self] at isOther
        exact allowed isOther
      · rw [update_of_ne same] at isOther
        exact exact.marked other isOther }

/-- A node may lose its marks. -/
theorem reset : (books.reset node).Exact config hand leaving := by
  have unmarked : (books.mark node false).Exact config hand leaving :=
    exact.mark fun isTrue => absurd isTrue Bool.false_ne_true
  refine { unmarked with calm := fun other => ?_ }
  change update books.deferred node false other = false
  rw [update_apply]
  split
  · rfl
  · exact exact.calm other

/-- There is room for a command of a vdev without an active one. -/
theorem has_room (known : vdev < config.maxVdevs) (free : vdev ∉ books.ledger.bitmap) :
    books.ledger.active.length < config.maxActive := by
  let vdevs := books.ledger.active.map fun node => (books.ledger.cmd node).vdev
  have nodup : vdevs.Nodup :=
    exact.nodup_active.map_on fun _ memberFirst _ memberSecond same =>
      exact.active_inj memberFirst memberSecond same
  have inside : vdevs.toFinset ⊆ ((Finset.range config.maxVdevs).erase vdev).image some := by
    intro other isOther
    obtain ⟨node, member, rfl⟩ := mem_map.mp (mem_toFinset.mp isOther)
    obtain ⟨own, ownKnown, isOwn⟩ := exact.ofVdev true node member
    rw [isOwn, Finset.mem_image]
    refine ⟨own, Finset.mem_erase.mpr ⟨?_, Finset.mem_range.mpr ownKnown⟩, rfl⟩
    rintro rfl
    exact free (exact.bit_of_active member isOwn)
  have bound := Finset.card_le_card inside
  rw [toFinset_card_of_nodup nodup, length_map,
    Finset.card_image_of_injective _ (Option.some_injective Nat),
    Finset.card_erase_of_mem (Finset.mem_range.mpr known), Finset.card_range] at bound
  have fit := config.vdevs_fit
  omega

/-- A vdev without an active command has an empty active list. -/
theorem vdevNodes_active (free : vdev ∉ books.ledger.bitmap) : books.vdevNodes vdev true = [] := by
  rw [exact.vdevLists, filter_eq_nil_iff]
  intro node member isVdev
  exact free (exact.bit_of_active member (of_decide_eq_true isVdev))

end

end Books.Exact

/-- A command is to be removed or canceled once it has been activated. -/
def CmdInUse.isDeferred (bits : CmdInUse) : Bool :=
  bits.activeMarkedForRemoval || bits.activeMarkedForCancel

/-- The books of a queue. -/
def PdevQueue.books (queue : PdevQueue) : Books where
  ledger := queue.ledger
  vdevNodes := fun vdev active => (queue.vdevList vdev active).nodes
  room := fun active => (queue.pdevList active).maxSize
  vdevRoom := fun vdev active => (queue.vdevList vdev active).maxSize
  waiting := queue.blockingCmdWaiting
  marked := fun node => (queue.commands node).cmdInUse.markedForActivation
  deferred := fun node => (queue.commands node).cmdInUse.isDeferred

/-- The books of a new queue agree. -/
theorem SerConfig.exact_create (config : SerConfig) :
    config.create.books.Exact config none none where
  uses := fun node => by
    change ([] : List Nat).count node + ([] : List Nat).count node
      + (range (config.maxActive + config.maxPending)).count node = _
    rw [count_nil, nodup_range.count]
    simp [SerConfig.total]
  inHand := fun _ none => nomatch none
  valid := by
    have sound : config.create.ledger.Sound fun _ : Unit => none := PdevQueue.create_sound
    exact sound.valid
  vdevLists := fun vdev active => by cases active <;> rfl
  ofVdev := fun active node member => by
    cases active <;> exact absurd member not_mem_nil
  bit := fun vdev => by
    simp [SerConfig.create, PdevQueue.create, PdevQueue.books, PdevQueue.ledger]
  blocking := by
    simp [SerConfig.create, PdevQueue.create, PdevQueue.books, PdevQueue.ledger]
  waiting := rfl
  keys := List.Pairwise.nil
  fits := Nat.zero_le _
  room := by
    funext active
    cases active <;> rfl
  vdevRoom := by
    funext vdev active
    cases active <;> rfl
  marked := fun _ isMarked => nomatch isMarked
  calm := fun _ => rfl

end Sm8650.Wlan
