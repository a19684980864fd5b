import Sm8650.Wlan.Canceling

/-!
# No command is stranded

After every complete operation each pending command has something to wait for, as long as
requests are counted exactly if they wait, removals are not misled by the mark of an earlier
search, and cancelations leave the commands that stay something to wait for.
-/

namespace Sm8650.Wlan

open Transition PdevQueue List Bool

/-! ## Promotions after a cancelation -/

/-- The promotions that start while nothing is active give every command something to wait
for: a blocking command in front becomes active, one behind stays, and the commands in front
of it have their turn. -/
def Ledger.PromotionServes (base : Ledger) (keep : Command → Bool) : Prop :=
  (∃ front ∈ base.pending.head?, (base.cmd front).isBlocking = true)
    ∨ (∃ other ∈ base.pending, keep (base.cmd other) = true ∧ (base.cmd other).isBlocking = true)
    ∨ ∀ node ∈ base.pending, keep (base.cmd node) = true →
      ∃ other ∈ unblocked base base.pending, (base.cmd other).vdev = (base.cmd node).vdev

/-- The state of promotions that have started with nothing active. -/
structure Ledger.Promoted (base ledger : Ledger) : Prop where
  cmd : ledger.cmd = base.cmd
  waiting : ∀ node ∈ base.pending, node ∈ ledger.pending
    ∨ ((base.cmd node).isBlocking = true → ledger.blocking = true)
  front : ∀ node ∈ unblocked base base.pending, node ∈ unblocked ledger ledger.pending
    ∨ ∃ vdev ∈ ledger.bitmap, (base.cmd node).vdev = some vdev
  within : ∀ node ∈ ledger.pending, node ∈ base.pending
  head : ∀ node ∈ base.pending.head?, (base.cmd node).isBlocking = true →
    ledger.pending = base.pending ∧ ledger.bitmap = ∅ ∨ ledger.blocking = true

theorem mem_unblocked_erase {ledger : Ledger} {nodes : List Nat} {node other : Nat}
    (member : node ∈ unblocked ledger nodes) (differs : node ≠ other) :
    node ∈ unblocked ledger (nodes.erase other) := by
  induction nodes with
  | nil => cases member
  | cons first rest ih =>
    rw [unblocked, takeWhile_cons] at member
    split at member
    next passes =>
      rw [erase_cons]
      split
      next same =>
        rcases mem_cons.mp member with rfl | inRest
        · exact absurd (eq_of_beq same) differs
        · exact inRest
      next =>
        rw [unblocked, takeWhile_cons, if_pos passes]
        rcases mem_cons.mp member with rfl | inRest
        · exact mem_cons_self
        · exact mem_cons_of_mem _ (ih inRest)
    next => cases member

variable {config : SerConfig}

theorem Ledger.promoted_start (base : Ledger) (noneActive : base.bitmap = ∅) :
    base.Promoted base where
  cmd := rfl
  waiting := fun _ member => .inl member
  front := fun _ member => .inl member
  within := fun _ member => member
  head := fun _ _ _ => .inl ⟨rfl, noneActive⟩

/-- Promotions after a cancelation leave the commands that stay something to wait for. -/
theorem promotes_after (config : SerConfig) (keep : Command → Bool) :
    Promotes config (fun ledger => ∃ base : Ledger, base.PromotionServes keep ∧ base.Promoted ledger)
      fun ledger => ledger.Serves keep where
  moved := by
    rintro queue node vdev exact ⟨base, serves, promoted⟩ found member ofVdev
    have baseVdev : (base.cmd node).vdev = some vdev := promoted.cmd ▸ ofVdev
    refine ⟨base, serves, promoted.cmd, fun other inBase => ?_, fun other inFront => ?_,
      fun other inNext => promoted.within other (mem_of_mem_erase inNext),
      fun front isFront blocks => ?_⟩
    · rcases promoted.waiting other inBase with inPending | blockingActive
      · by_cases same : other = node
        · subst same
          refine .inr fun blocks => (or_eq_true _ _).mpr (.inr ?_)
          change (queue.ledger.cmd other).isBlocking = true
          rw [promoted.cmd]
          exact blocks
        · exact .inl ((mem_erase_of_ne same).mpr inPending)
      · exact .inr fun blocks => (or_eq_true _ _).mpr (.inl (blockingActive blocks))
    · rcases promoted.front other inFront with inPending | ⟨own, isSet, isOwn⟩
      · by_cases same : other = node
        · subst same
          exact .inr ⟨vdev, Finset.mem_insert_self _ _, baseVdev⟩
        · exact .inl (mem_unblocked_erase inPending same)
      · exact .inr ⟨own, Finset.mem_insert_of_mem isSet, isOwn⟩
    · right
      rcases promoted.head front isFront blocks with ⟨same, noneActive⟩ | isBlocking
      · cases isList : queue.ledger.pending with
        | nil =>
          rw [isList] at member
          cases member
        | cons first rest =>
          have isFirst : front = first := by
            rw [← same, isList] at isFront
            exact (Option.some.inj isFront).symm
          change (queue.searchPending queue.ledger.pending).2 = some node at found
          rw [isList, searchPending_head noneActive] at found
          have isNode : front = node := isFirst.trans (Option.some.inj found)
          refine (or_eq_true _ _).mpr (.inr ?_)
          change (queue.ledger.cmd node).isBlocking = true
          rw [promoted.cmd, ← isNode]
          exact blocks
      · exact (or_eq_true _ _).mpr (.inl isBlocking)
  stuck := by
    rintro queue exact ⟨base, serves, promoted⟩ isNone node member kept
    obtain ⟨someActive, served⟩ := searchPending_none queue queue.pendingList.nodes isNone
    have inBase := promoted.within node member
    have nonempty := someActive (ne_nil_of_mem member)
    rcases serves with ⟨front, isFront, blocks⟩ | ⟨other, inOther, keptOther, blocks⟩ | inFront
    · rcases promoted.head front isFront blocks with ⟨-, noneActive⟩ | isBlocking
      · exact absurd noneActive nonempty
      · exact .inr (.inl isBlocking)
    · rcases promoted.waiting other inOther with inPending | blockingActive
      · refine .inr (.inr ⟨nonempty, other, inPending, ?_⟩)
        rw [promoted.cmd]
        exact ⟨keptOther, blocks⟩
      · exact .inr (.inl (blockingActive blocks))
    · rw [promoted.cmd] at kept ⊢
      obtain ⟨other, inUnblocked, sameVdev⟩ := inFront node inBase kept
      left
      rw [← sameVdev]
      rcases promoted.front other inUnblocked with stillFront | isSet
      · rw [← promoted.cmd]
        exact served other stillFront
      · exact isSet
  blocked := fun _ isBlocking _ _ _ => .inr (.inl isBlocking)

/-! ## Cancelations -/

/-- The commands that a cancelation leaves: those of the active list and of the pending list
that it is not asked for. -/
def PdevQueue.leaves (queue : PdevQueue) (asked : CancelRequest) (applies active : Bool) :
    List Nat :=
  (queue.pdevList active).nodes.filter fun node => !(applies && asked.selects (queue.cmd node))

/-- A pending command has something to wait for among the commands that are left. -/
def PdevQueue.WaitsFor (queue : PdevQueue) (left kept : List Nat) (node : Nat) : Prop :=
  (∃ other ∈ left, (queue.cmd other).vdev = (queue.cmd node).vdev)
    ∨ (∃ other ∈ left, (queue.cmd other).isBlocking = true)
    ∨ (left ≠ [] ∧ ∃ other ∈ kept, (queue.cmd other).isBlocking = true)

/-- A cancelation names what it asks for. It leaves an active command, and each pending
command that stays has something to wait for among the commands that are left; or it leaves
none, and the promotions give each pending command something to wait for. -/
def PdevQueue.CancelServes (queue : PdevQueue) (asked : CancelRequest)
    (activeQueue pendingQueue : Bool) : Prop :=
  asked.cmdType < serCmdNonscan ∨ asked.Named ∧
    (if activeQueue = true ∧ queue.leaves asked activeQueue true = [] then
      (∃ front ∈ queue.pendingList.nodes.head?, (queue.cmd front).isBlocking = true)
        ∨ (∃ other ∈ queue.leaves asked pendingQueue false, (queue.cmd other).isBlocking = true)
        ∨ ∀ node ∈ queue.leaves asked pendingQueue false,
          ∃ other ∈ queue.pendingList.nodes.takeWhile fun other => !(queue.cmd other).isBlocking,
            (queue.cmd other).vdev = (queue.cmd node).vdev
    else ∀ node ∈ queue.leaves asked pendingQueue false,
      queue.WaitsFor (queue.leaves asked activeQueue true) (queue.leaves asked pendingQueue false)
        node)

namespace PdevQueue

variable {queue start : PdevQueue} {asked : CancelRequest} {left kept : List Nat} {node : Nat}
  {applies active : Bool}

instance : Decidable (queue.WaitsFor left kept node) :=
  inferInstanceAs (Decidable (_ ∨ _ ∨ _))

instance (activeQueue pendingQueue : Bool) :
    Decidable (queue.CancelServes asked activeQueue pendingQueue) :=
  inferInstanceAs (Decidable (_ ∨ _ ∧ ite ..))

theorem mem_leaves : node ∈ queue.leaves asked applies active
    ↔ node ∈ queue.ledger.nodes active ∧ (applies && asked.selects (queue.cmd node)) = false := by
  unfold leaves
  rw [mem_filter, pdevList_nodes, not_eq_true']
  rfl

/-- The commands that stay in the pending list. -/
def stays (asked : CancelRequest) (pendingQueue : Bool) (cmd : Command) : Bool :=
  !(pendingQueue && asked.selects cmd)

/-- What is left active and pending, with the records of the active commands. -/
theorem serves_of_waitsFor {pendingQueue : Bool} (exact : queue.books.Exact config none none)
    (isLeft : ∀ node ∈ left, node ∈ queue.ledger.active ∧ queue.cmd node = start.cmd node)
    (isKept : ∀ node ∈ kept, node ∈ queue.ledger.pending)
    (pending : ∀ node ∈ queue.ledger.pending, queue.cmd node = start.cmd node
      ∧ (stays asked pendingQueue (start.cmd node) = true ↔ node ∈ kept))
    (waits : ∀ node ∈ kept, start.WaitsFor left kept node) :
    queue.ledger.Serves (stays asked pendingQueue) := by
  intro node member keeps
  obtain ⟨sameCmd, keptIff⟩ := pending node member
  change stays asked pendingQueue (queue.cmd node) = true at keeps
  rw [sameCmd] at keeps
  rcases waits node (keptIff.mp keeps) with ⟨other, inLeft, sameVdev⟩ | ⟨other, inLeft, blocks⟩ |
    ⟨nonempty, other, inKept, blocks⟩
  · obtain ⟨inActive, sameOther⟩ := isLeft other inLeft
    obtain ⟨vdev, -, ofVdev⟩ := exact.ofVdev true other inActive
    refine .inl ⟨vdev, exact.bit_of_active inActive ofVdev, ?_⟩
    change (queue.cmd node).vdev = _
    rw [sameCmd, ← sameVdev, ← sameOther]
    exact ofVdev
  · obtain ⟨inActive, sameOther⟩ := isLeft other inLeft
    refine .inr (.inl (exact.blocking.mpr (.inl ⟨other, inActive, ?_⟩)))
    change (queue.cmd other).isBlocking = true
    rw [sameOther]
    exact blocks
  · obtain ⟨first, inLeft⟩ := exists_mem_of_ne_nil _ nonempty
    obtain ⟨inActive, -⟩ := isLeft first inLeft
    obtain ⟨vdev, -, ofVdev⟩ := exact.ofVdev true first inActive
    have isSet := exact.bit_of_active inActive ofVdev
    obtain ⟨sameOther, keptOther⟩ := pending other (isKept other inKept)
    refine .inr (.inr ⟨Finset.ne_empty_of_mem isSet, other, isKept other inKept, ?_⟩)
    change stays asked pendingQueue (queue.cmd other) = true ∧ (queue.cmd other).isBlocking = true
    rw [sameOther]
    exact ⟨keptOther.mpr inKept, blocks⟩

theorem takeWhile_congr {nodes : List Nat} {first second : Nat → Bool}
    (same : ∀ node ∈ nodes, first node = second node) :
    nodes.takeWhile first = nodes.takeWhile second := by
  induction nodes with
  | nil => rfl
  | cons node rest ih =>
    rw [takeWhile_cons, takeWhile_cons, same node mem_cons_self,
      ih fun other member => same other (mem_cons_of_mem _ member)]

/-- What is left of the active list after a cancelation in it. -/
theorem mem_active_of_swept {queue : PdevQueue}
    (swept : Swept start { asked with isActiveQueue := true } queue) :
    node ∈ queue.ledger.active ↔ node ∈ start.leaves asked true true := by
  rw [mem_leaves]
  exact swept.member node

/-- The end of a cancelation in the active list. -/
theorem sweptEnds_active {config : SerConfig} {pendingQueue : Bool}
    (serves : if start.leaves asked true true = [] then
        (∃ front ∈ start.pendingList.nodes.head?, (start.cmd front).isBlocking = true)
          ∨ (∃ other ∈ start.leaves asked pendingQueue false, (start.cmd other).isBlocking = true)
          ∨ ∀ node ∈ start.leaves asked pendingQueue false,
            ∃ other ∈ start.pendingList.nodes.takeWhile fun other => !(start.cmd other).isBlocking,
              (start.cmd other).vdev = (start.cmd node).vdev
      else ∀ node ∈ start.leaves asked pendingQueue false,
        start.WaitsFor (start.leaves asked true true) (start.leaves asked pendingQueue false) node) :
    SweptEnds config
      (fun ledger => ∃ base : Ledger, base.PromotionServes (stays asked pendingQueue)
        ∧ base.Promoted ledger)
      (fun ledger => ledger.Serves (stays asked pendingQueue)) start
      { asked with isActiveQueue := true } := by
  intro queue exact swept
  have samePending : queue.ledger.pending = start.ledger.pending := swept.others
  have sameCmd : ∀ node ∈ start.ledger.pending, queue.cmd node = start.cmd node := by
    intro node member
    refine swept.cmd false node ?_
    rw [Ledger.nodes_false, samePending]
    exact member
  have keptIff : ∀ node ∈ start.ledger.pending, stays asked pendingQueue (start.cmd node) = true
      ↔ node ∈ start.leaves asked pendingQueue false := by
    intro node member
    rw [mem_leaves, stays, not_eq_true']
    exact (and_iff_right member).symm
  refine ⟨rfl, ?_⟩
  split
  next noneActive =>
    rw [Bool.true_and, and_eq_true, List.isEmpty_iff, not_eq_true'] at noneActive
    have noneLeft : start.leaves asked true true = [] := by
      rw [List.eq_nil_iff_forall_not_mem]
      intro node member
      have inActive : node ∈ queue.activeList.nodes := (mem_active_of_swept swept).mpr member
      rw [noneActive.1] at inActive
      cases inActive
    rw [if_pos noneLeft] at serves
    refine ⟨queue.ledger, ?_, queue.ledger.promoted_start (not_not.mp (of_decide_eq_false noneActive.2))⟩
    unfold Ledger.PromotionServes
    rw [samePending]
    rcases serves with ⟨front, isFront, blocks⟩ | ⟨other, isKept, blocks⟩ | inFront
    · refine .inl ⟨front, isFront, ?_⟩
      change (queue.cmd front).isBlocking = true
      rw [sameCmd front (List.mem_of_head? isFront)]
      exact blocks
    · have member := (mem_leaves.mp isKept).1
      refine .inr (.inl ⟨other, member, ?_⟩)
      change stays asked pendingQueue (queue.cmd other) = true ∧ (queue.cmd other).isBlocking = true
      rw [sameCmd other member]
      exact ⟨(keptIff other member).mpr isKept, blocks⟩
    · refine .inr (.inr fun node member keeps => ?_)
      have sameFront : start.ledger.pending.takeWhile (fun node => !(queue.cmd node).isBlocking)
          = start.ledger.pending.takeWhile fun node => !(start.cmd node).isBlocking := by
        apply takeWhile_congr
        intro node member
        rw [sameCmd node member]
      change stays asked pendingQueue (queue.cmd node) = true at keeps
      change ∃ other ∈ start.ledger.pending.takeWhile (fun node => !(queue.cmd node).isBlocking),
        (queue.cmd other).vdev = (queue.cmd node).vdev
      rw [sameFront]
      rw [sameCmd node member] at keeps ⊢
      obtain ⟨other, inUnblocked, sameVdev⟩ := inFront node ((keptIff node member).mp keeps)
      refine ⟨other, inUnblocked, ?_⟩
      rw [sameCmd other (List.takeWhile_subset _ inUnblocked)]
      exact sameVdev
  next someActive =>
    have someLeft : start.leaves asked true true ≠ [] := by
      intro noneLeft
      have noneActive : queue.ledger.active = [] := by
        rw [List.eq_nil_iff_forall_not_mem]
        intro node member
        rw [mem_active_of_swept swept, noneLeft] at member
        cases member
      refine someActive ?_
      rw [Bool.true_and, and_eq_true, List.isEmpty_iff, not_eq_true']
      refine ⟨noneActive, decide_eq_false (not_not.mpr ?_)⟩
      rw [Finset.eq_empty_iff_forall_notMem]
      intro vdev isSet
      rcases (exact.bit vdev).mp isSet with ⟨node, member, -⟩ | ⟨_, nothing, -⟩
      · have inActive : node ∈ queue.ledger.active := member
        rw [noneActive] at inActive
        cases inActive
      · cases nothing
    rw [if_neg someLeft] at serves
    refine serves_of_waitsFor exact (fun node isLeft => ?_) (fun node isKept => ?_)
      (fun node member => ?_) serves
    · have member := (mem_active_of_swept swept).mpr isLeft
      exact ⟨member, swept.cmd true node member⟩
    · rw [samePending]
      exact (mem_leaves.mp isKept).1
    · rw [samePending] at member
      exact ⟨sameCmd node member, keptIff node member⟩

/-- The end of a cancelation in the pending list. -/
theorem sweptEnds_pending {config : SerConfig} (exactStart : start.books.Exact config none none)
    (serves : start.ledger.Serves (stays asked true)) :
    SweptEnds config (fun _ => False) Ledger.ServesAll start
      { asked with isActiveQueue := false } := by
  intro queue exact swept
  have sameActive : queue.ledger.active = start.ledger.active := swept.others
  have sameActiveCmd : ∀ node ∈ start.ledger.active, queue.cmd node = start.cmd node := by
    intro node member
    refine swept.cmd true node ?_
    rw [Ledger.nodes_true, sameActive]
    exact member
  have bitmap : start.ledger.bitmap ⊆ queue.ledger.bitmap := by
    intro vdev isSet
    rcases (exactStart.bit vdev).mp isSet with ⟨node, member, ofVdev⟩ | ⟨_, nothing, -⟩
    · refine (exact.bit vdev).mpr (.inl ⟨node, sameActive ▸ member, ?_⟩)
      change (queue.cmd node).vdev = some vdev
      rw [sameActiveCmd node member]
      exact ofVdev
    · cases nothing
  have blocking : start.ledger.blocking = true → queue.ledger.blocking = true := by
    intro isBlocking
    rcases exactStart.blocking.mp isBlocking with ⟨node, member, blocks⟩ | ⟨_, nothing, -⟩
    · refine exact.blocking.mpr (.inl ⟨node, sameActive ▸ member, ?_⟩)
      change (queue.cmd node).isBlocking = true
      rw [sameActiveCmd node member]
      exact blocks
    · cases nothing
  refine ⟨rfl, ?_⟩
  intro node member kept
  obtain ⟨inStart, unselected⟩ := (swept.member node).mp member
  have sameCmd : queue.ledger.cmd node = start.ledger.cmd node := swept.cmd false node member
  have isKept : stays asked true (start.ledger.cmd node) = true := by
    rw [stays, not_eq_true']
    exact unselected
  rw [sameCmd]
  rcases serves node inStart isKept with ⟨vdev, isSet, ofVdev⟩ | isBlocking | ⟨someActive, other,
    inPending, keptOther, blocks⟩
  · exact .inl ⟨vdev, bitmap isSet, ofVdev⟩
  · exact .inr (.inl (blocking isBlocking))
  · obtain ⟨vdev, isSet⟩ := Finset.nonempty_iff_ne_empty.mpr someActive
    rw [stays, not_eq_true'] at keptOther
    have inQueue : other ∈ queue.ledger.pending := (swept.member other).mpr ⟨inPending, keptOther⟩
    have sameOther : queue.ledger.cmd other = start.ledger.cmd other := swept.cmd false other inQueue
    refine .inr (.inr ⟨Finset.ne_empty_of_mem (bitmap isSet), other, inQueue, rfl, ?_⟩)
    rw [sameOther]
    exact blocks

end PdevQueue

/-! ## Runs -/

/-- No pending command is stranded: its vdev has an active command, or a blocking command is
active, or one is pending while some command is active. -/
def NoneStranded (queue : PdevQueue) : Prop :=
  ∀ vdev, (queue.vdevPendingList vdev).nodes ≠ [] →
    (queue.vdevActiveList vdev).nodes ≠ []
      ∨ (∃ node ∈ queue.activeList.nodes, (queue.cmd node).isBlocking = true)
      ∨ ((∃ node ∈ queue.pendingList.nodes, (queue.cmd node).isBlocking = true)
        ∧ queue.activeList.nodes ≠ [])

theorem noneStranded_of_serves {queue : PdevQueue} (exact : queue.books.Exact config none none)
    (serves : queue.ledger.ServesAll) : NoneStranded queue := by
  intro vdev hasPending
  obtain ⟨node, inVdev⟩ := exists_mem_of_ne_nil _ hasPending
  change node ∈ queue.books.vdevNodes vdev false at inVdev
  rw [exact.vdevLists, mem_filter, decide_eq_true_eq] at inVdev
  rcases serves node inVdev.1 rfl with ⟨own, isSet, ofOwn⟩ | isBlocking | ⟨someActive, other,
    inPending, -, blocks⟩
  · left
    have sameVdev : some own = some vdev := ofOwn.symm.trans inVdev.2
    rcases (exact.bit own).mp isSet with ⟨active, inActive, ofActive⟩ | ⟨_, nothing, -⟩
    · have inList : active ∈ queue.books.vdevNodes vdev true := by
        rw [exact.vdevLists, mem_filter, decide_eq_true_eq]
        exact ⟨inActive, sameVdev ▸ ofActive⟩
      exact ne_nil_of_mem inList
    · cases nothing
  · right; left
    rcases exact.blocking.mp isBlocking with isActive | ⟨_, nothing, -⟩
    · exact isActive
    · cases nothing
  · right; right
    refine ⟨⟨other, inPending, blocks⟩, ?_⟩
    obtain ⟨own, isSet⟩ := Finset.nonempty_iff_ne_empty.mpr someActive
    rcases (exact.bit own).mp isSet with ⟨active, inActive, -⟩ | ⟨_, nothing, -⟩
    · exact ne_nil_of_mem (show active ∈ queue.activeList.nodes from inActive)
    · cases nothing

/-- A request is counted exactly if it waits, a removal finds no mark of an earlier search,
and a cancelation leaves the commands that stay something to wait for. -/
def ServesOperation (config : SerConfig) (queue : PdevQueue) : SerOperation → Prop
  | .request cmd => CountsOperation config queue (.request cmd)
  | .remove cmd => queue.RemovalServes cmd
  | .timeout cmd => queue.RemovalServes cmd
  | .cancel asked activeQueue pendingQueue => queue.CancelServes asked activeQueue pendingQueue

instance (config : SerConfig) (queue : PdevQueue) (operation : SerOperation) :
    Decidable (ServesOperation config queue operation) :=
  match operation with
  | .request cmd => inferInstanceAs (Decidable (CountsOperation config queue (.request cmd)))
  | .remove cmd => inferInstanceAs (Decidable (queue.RemovalServes cmd))
  | .timeout cmd => inferInstanceAs (Decidable (queue.RemovalServes cmd))
  | .cancel asked activeQueue pendingQueue =>
    inferInstanceAs (Decidable (queue.CancelServes asked activeQueue pendingQueue))

variable {stray : PdevQueue → PdevQueue} {queue next : PdevQueue}

/-- Cancelations of scan commands leave the queue alone. -/
theorem performs_scan {calls : List Call}
    (scans : ∀ call ∈ calls, ∃ request : CancelRequest, call = .cancel request
      ∧ request.cmdType < serCmdNonscan)
    (performs : Performs stray (· = true) queue calls next) : next = queue := by
  induction performs with
  | done => rfl
  | call first rest ih =>
    obtain ⟨request, rfl, isScan⟩ := scans _ mem_cons_self
    have same := ih fun call member => scans call (mem_cons_of_mem _ member)
    exact same.trans (first.canceled_scan isScan)

theorem scans_of_cancel {asked : CancelRequest} {activeQueue pendingQueue : Bool}
    (isScan : asked.cmdType < serCmdNonscan) {call : Call}
    (member : call ∈ (SerOperation.cancel asked activeQueue pendingQueue).calls) :
    ∃ request : CancelRequest, call = .cancel request ∧ request.cmdType < serCmdNonscan := by
  rcases mem_append.mp member with inActive | inPending
  · split at inActive
    · exact ⟨_, mem_singleton.mp inActive, isScan⟩
    · cases inActive
  · split at inPending
    · exact ⟨_, mem_singleton.mp inPending, isScan⟩
    · cases inPending

/-- Before it turns to the pending list, a cancelation has left the commands that stay
there something to wait for. -/
theorem serves_cancelActive {asked : CancelRequest} {activeQueue pendingQueue : Bool}
    (rested : Rested config queue) (isNonscan : ¬asked.cmdType < serCmdNonscan)
    (cancelServes : queue.CancelServes asked activeQueue pendingQueue)
    (performs : Performs stray (· = true) queue
      (if activeQueue then [.cancel { asked with isActiveQueue := true }] else []) next) :
    Rested config next ∧ next.ledger.Serves (stays asked pendingQueue) := by
  obtain ⟨named, serves⟩ := Or.resolve_left cancelServes isNonscan
  cases activeQueue with
  | true =>
    cases performs with
    | call first rest =>
      cases rest
      have ready : (Call.cancel { asked with isActiveQueue := true }).frame.Ready config queue :=
        trivial
      refine ⟨rested.completes ready first, ?_⟩
      have ends := @sweptEnds_active queue asked config pendingQueue (by
          split
          next noneLeft =>
            rw [if_pos ⟨rfl, noneLeft⟩] at serves
            exact serves
          next someLeft =>
            rw [if_neg fun both => someLeft both.2] at serves
            exact serves)
      exact first.canceled (promotes_after config _) rested isNonscan named ends
  | false =>
    cases performs with
    | done =>
      refine ⟨rested, ?_⟩
      refine serves_of_waitsFor rested.exact (fun node isLeft => ?_) (fun node isKept => ?_)
        (fun node member => ?_) serves
      · exact ⟨(mem_leaves.mp isLeft).1, rfl⟩
      · exact (mem_leaves.mp isKept).1
      · refine ⟨rfl, ?_⟩
        rw [mem_leaves, stays, not_eq_true']
        exact (and_iff_right member).symm

/-- A cancelation leaves no command behind. -/
theorem serves_cancel {asked : CancelRequest} {activeQueue pendingQueue : Bool}
    (rested : Rested config queue) (serves : queue.ledger.ServesAll)
    (cancelServes : queue.CancelServes asked activeQueue pendingQueue)
    (performs : Performs stray (· = true) queue
      (SerOperation.cancel asked activeQueue pendingQueue).calls next) : next.ledger.ServesAll := by
  by_cases isScan : asked.cmdType < serCmdNonscan
  · rw [performs_scan (fun _ member => scans_of_cancel isScan member) performs]
    exact serves
  · obtain ⟨middle, toMiddle, toNext⟩ := performs.append
    obtain ⟨restedMiddle, servesMiddle⟩ := serves_cancelActive rested isScan cancelServes toMiddle
    cases pendingQueue with
    | false =>
      cases toNext
      exact servesMiddle
    | true =>
      cases toNext with
      | call last rest =>
        cases rest
        have named := (Or.resolve_left cancelServes isScan).1
        exact last.canceled (promotes_nothing config _) restedMiddle isScan named
          (sweptEnds_pending restedMiddle.exact servesMiddle)

/-- A complete operation leaves no command behind. -/
theorem serves_performs {operation : SerOperation} (rested : Rested config queue)
    (serves : queue.ledger.ServesAll) (servesOperation : ServesOperation config queue operation)
    (performs : Performs stray (· = true) queue operation.calls next) : next.ledger.ServesAll := by
  cases operation with
  | request cmd =>
    cases performs with
    | call first rest =>
      cases rest
      exact serves_request rested serves servesOperation first
  | remove cmd =>
    cases performs with
    | call first rest =>
      cases rest
      exact serves_remove rested serves servesOperation first
  | timeout cmd =>
    cases performs with
    | call first rest =>
      cases rest
      exact serves_remove rested serves servesOperation first
  | cancel asked activeQueue pendingQueue =>
    exact serves_cancel rested serves servesOperation performs

theorem counts_of_serves {operation : SerOperation}
    (serves : ServesOperation config queue operation) : CountsOperation config queue operation := by
  cases operation with
  | request cmd => exact serves
  | remove cmd | timeout cmd | cancel asked activeQueue pendingQueue => trivial

/-- Whatever operations were completed, no command is stranded. -/
theorem noneStranded_of_servingOperations (stray : PdevQueue → PdevQueue)
    (run : Reaches (operations stray (· = true) (ServesOperation config)) config.create queue) :
    NoneStranded queue := by
  have served : Rested config queue ∧ queue.ledger.ServesAll := by
    refine @Reaches.invariant _ _ _ _ _ (fun queue => Rested config queue ∧ queue.ledger.ServesAll)
      run ⟨config.rested_create, fun _ nothing => nomatch nothing⟩ ?_
    rintro source operation next ⟨rested, serves⟩ ⟨servesOperation, performs⟩
    exact ⟨rested.performs (counts_of_serves servesOperation) performs,
      serves_performs rested serves servesOperation performs⟩
  exact noneStranded_of_serves served.1.exact served.2

/-- Commands of the first and the second vdev are active. -/
def bothActive : PdevQueue :=
  afterCall activeQueue (.request (sampleCommand 2 2 false))

/-- A command of the first vdev waits behind its active command. -/
def waitingBehind : PdevQueue :=
  afterCall bothActive (.request (sampleCommand 3 1 false))

/-- The command of the second vdev was removed. -/
def oneRemoved : PdevQueue :=
  afterCall waitingBehind (.remove (sampleCommand 2 2 false) true)

/-- The cancelation of the active command of the first vdev. -/
def cancelFirst : CancelRequest where
  pdev := false
  vdev := none
  cmd := some (sampleCommand 1 1 false)
  cmdType := serCmdNonscan
  isActiveQueue := true
  nonblock := false

/-- The active command of the first vdev was canceled. -/
def frontCanceled : PdevQueue :=
  afterCall waitingBehind (.cancel cancelFirst)

theorem noneStranded_oneRemoved : NoneStranded oneRemoved := by
  refine @noneStranded_of_servingOperations sampleConfig oneRemoved id ?_
  have first : operations id (· = true) (ServesOperation sampleConfig) sampleConfig.create
      (.request (sampleCommand 1 1 false)) activeQueue :=
    ⟨by decide +kernel, performs_afterCall rfl (by decide +kernel)⟩
  have second : operations id (· = true) (ServesOperation sampleConfig) activeQueue
      (.request (sampleCommand 2 2 false)) bothActive :=
    ⟨by decide +kernel, performs_afterCall rfl (by decide +kernel)⟩
  have third : operations id (· = true) (ServesOperation sampleConfig) bothActive
      (.request (sampleCommand 3 1 false)) waitingBehind :=
    ⟨by decide +kernel, performs_afterCall rfl (by decide +kernel)⟩
  have fourth : operations id (· = true) (ServesOperation sampleConfig) waitingBehind
      (.remove (sampleCommand 2 2 false)) oneRemoved :=
    ⟨by decide +kernel, performs_afterCall rfl (by decide +kernel)⟩
  exact ((((Reaches.refl _ _).tail first).tail second).tail third).tail fourth

/-- A cancelation of the active command of one vdev promotes nothing while a command of
another vdev is active. -/
theorem not_noneStranded_of_cancelFirst :
    ¬∀ queue, Reaches (operations id (· = true) fun _ _ => True) sampleConfig.create queue →
      NoneStranded queue := by
  intro claim
  have first : operations id (· = true) (fun _ _ => True) sampleConfig.create
      (.request (sampleCommand 1 1 false)) activeQueue :=
    ⟨trivial, performs_afterCall rfl (by decide +kernel)⟩
  have second : operations id (· = true) (fun _ _ => True) activeQueue
      (.request (sampleCommand 2 2 false)) bothActive :=
    ⟨trivial, performs_afterCall rfl (by decide +kernel)⟩
  have third : operations id (· = true) (fun _ _ => True) bothActive
      (.request (sampleCommand 3 1 false)) waitingBehind :=
    ⟨trivial, performs_afterCall rfl (by decide +kernel)⟩
  have fourth : operations id (· = true) (fun _ _ => True) waitingBehind
      (.cancel cancelFirst true false) frontCanceled :=
    ⟨trivial, performs_afterCall rfl (by decide +kernel)⟩
  have run := ((((Reaches.refl _ _).tail first).tail second).tail third).tail fourth
  have hasPending : (frontCanceled.vdevPendingList 1).nodes ≠ [] := by decide +kernel
  have noneActive : (frontCanceled.vdevActiveList 1).nodes = [] := by decide +kernel
  have noneBlocks : ∀ active, ∀ node ∈ (frontCanceled.pdevList active).nodes,
      (frontCanceled.cmd node).isBlocking = false := by decide +kernel
  rcases claim frontCanceled run 1 hasPending with isActive | ⟨node, member, blocks⟩ |
    ⟨⟨node, member, blocks⟩, -⟩
  · exact isActive noneActive
  · exact Bool.false_ne_true ((noneBlocks true node member).symm.trans blocks)
  · exact Bool.false_ne_true ((noneBlocks false node member).symm.trans blocks)

end Sm8650.Wlan
