import Sm8650.Dsc.Core

/-!
# Invariants of the synchronization core

Five facts hold between calls: the tree is well formed, blocked threads and
queues agree, the log agrees with the queues, active transitions exclude each
other along the tree, and every non-empty queue is supported by an active
transition or by a queue further up. The first three are preserved by each
change of a single node, which this file proves; the last two depend on what
the calls check before they make the change.
-/

namespace Sm8650.Dsc

open Function State

/-- The first node is a strict ancestor of the second. -/
def Node.Above : Node → Node → Prop
  | .driver, .psoc _ => True
  | .driver, .vdev _ _ => True
  | .psoc p, .vdev q _ => p = q
  | _, _ => False

/-- One of the nodes is an ancestor of the other, or they are equal. -/
def Node.Related (first second : Node) : Prop :=
  first = second ∨ first.Above second ∨ second.Above first

theorem Node.related_driver (node : Node) : Node.Related .driver node := by
  cases node <;> simp [Node.Related, Node.Above]

theorem Node.Related.symm {first second : Node} (related : first.Related second) :
    second.Related first := by
  rcases related with rfl | above | below
  · exact .inl rfl
  · exact .inr (.inr above)
  · exact .inr (.inl below)

variable {state : State} {node : Node}

/-- A transition is active on the node. -/
def State.Active (state : State) (node : Node) : Prop :=
  (state.trans node).active ≠ none

/-- A transition is queued on the node. -/
def State.Queued (state : State) (node : Node) : Prop :=
  (state.trans node).queue ≠ []

theorem transActive_iff : transActive state node = true ↔ state.Active node := by
  simp [transActive, Active, Option.isSome_iff_ne_none]

theorem transQueued_iff : transQueued state node = true ↔ state.Queued node := by
  simp [transQueued, Queued]

theorem transActiveOrQueued_iff :
    transActiveOrQueued state node = true ↔ state.Active node ∨ state.Queued node := by
  simp [transActiveOrQueued, transActive_iff, transQueued_iff]

/-- The lists of children and the containers describe one tree. -/
structure Tree (state : State) : Prop where
  psocsNodup : state.psocs.Nodup
  vdevsNodup : ∀ p, (state.vdevs p).Nodup
  driverAttached : ∀ p ∈ state.psocs, state.driver = true
  psocAttached : ∀ p, ∀ v ∈ state.vdevs p, p ∈ state.psocs
  idle : ∀ node, ¬ state.Attached node → state.trans node = .idle ∧ state.opsCount node = 0

/-- Blocked threads are exactly the owners of queued transitions and of those
whose event was set but not yet seen. -/
structure Waiting (state : State) : Prop where
  queued : ∀ node, ∀ tran ∈ (state.trans node).queue,
    state.waits tran.thread = some ⟨node, tran, none⟩
  nodup : ∀ node, (state.trans node).queue.Nodup
  waited : ∀ thread wait, state.waits thread = some wait →
    wait.tran.thread = thread ∧
      (wait.event = none → wait.tran ∈ (state.trans wait.node).queue) ∧
      (wait.event = some false → (state.trans wait.node).active = some wait.tran)

/-- The transition that the event queues on the node. -/
def Event.queuedAt (node : Node) : Event → Option DscTran
  | .queued at_ tran => if at_ = node then some tran else none
  | _ => none

/-- The transition that the event takes from the node's queue. -/
def Event.releasedAt (node : Node) : Event → Option DscTran
  | .started at_ tran | .aborted at_ tran => if at_ = node then some tran else none
  | .queued _ _ => none

/-- The ticket that the event queues. -/
def Event.queuedTicket : Event → Option Nat
  | .queued _ tran => some tran.ticket
  | _ => none

/-- The transitions queued on the node so far, in order. -/
def queuedOn (node : Node) (log : List Event) : List DscTran :=
  log.filterMap (Event.queuedAt node)

/-- The transitions taken from the node's queue so far, in order. -/
def releasedOn (node : Node) (log : List Event) : List DscTran :=
  log.filterMap (Event.releasedAt node)

/-- The tickets of all transitions queued so far. -/
def queuedTickets (log : List Event) : List Nat :=
  log.filterMap Event.queuedTicket

/-- What was queued on a node is what left its queue, then what is in it. -/
structure Logged (state : State) : Prop where
  order : ∀ node, queuedOn node state.log = releasedOn node state.log ++ (state.trans node).queue
  fresh : ∀ ticket ∈ queuedTickets state.log, ticket < state.nextTicket
  nodup : (queuedTickets state.log).Nodup

/-- No two related nodes are active. -/
def Exclusive (state : State) : Prop :=
  ∀ first second : Node, first.Above second → state.Active first → ¬ state.Active second

/-- Something that will look at the node's queue again: an active transition on
a related node, or a transition queued further up. -/
def Support (state : State) (node : Node) : Prop :=
  (∃ other : Node, other.Related node ∧ state.Active other) ∨
    ∃ upper : Node, upper.Above node ∧ state.Queued upper

def Supported (state : State) : Prop :=
  ∀ node, state.Queued node → Support state node

/-- Everything that holds between two calls. -/
structure Invariant (state : State) : Prop where
  tree : Tree state
  waiting : Waiting state
  logged : Logged state
  exclusive : Exclusive state
  supported : Supported state
  unfailed : state.failed = []

theorem invariant_initial : Invariant initial where
  tree := by
    refine ⟨by simp [initial], by simp [initial], by simp [initial],
      by simp [initial], ?_⟩
    intro node _
    exact ⟨rfl, rfl⟩
  waiting := by
    refine ⟨?_, ?_, ?_⟩
    · intro node tran member
      simp [initial, DscTrans.idle] at member
    · simp [initial, DscTrans.idle]
    · intro thread wait waits
      simp [initial] at waits
  logged := by
    refine ⟨?_, ?_, ?_⟩
    · simp [initial, DscTrans.idle, queuedOn, releasedOn]
    · simp [initial, queuedTickets]
    · simp [initial, queuedTickets]
  exclusive := by
    intro first second _ active
    simp [Active, initial, DscTrans.idle] at active
  supported := by
    intro node queued
    simp [Queued, initial, DscTrans.idle] at queued
  unfailed := rfl

theorem Tree.attached_of_active (tree : Tree state) (active : state.Active node) :
    state.Attached node := by
  by_contra detached
  exact active (by rw [(tree.idle node detached).1]; rfl)

theorem Tree.attached_of_queued (tree : Tree state) (queued : state.Queued node) :
    state.Attached node := by
  by_contra detached
  exact queued (by rw [(tree.idle node detached).1]; rfl)

theorem Tree.attached_of_above (tree : Tree state) {upper : Node}
    (above : upper.Above node) (attached : state.Attached node) : state.Attached upper := by
  cases upper with
  | driver =>
    cases node with
    | driver => exact attached
    | psoc p => exact tree.driverAttached p attached
    | vdev p v => exact tree.driverAttached p (tree.psocAttached p v attached)
  | psoc p =>
    cases node with
    | driver | psoc q => exact above.elim
    | vdev q v =>
      cases above
      exact tree.psocAttached p v attached
  | vdev p v => cases node <;> exact above.elim

/-! ## Changing the active transition -/

/-- The state with another active transition on the node. -/
def State.setActive (state : State) (node : Node) (active : Option DscTran) : State :=
  state.setTrans node { state.trans node with active := active }

section SetActive

variable {active : Option DscTran}

theorem setActive_queue (other : Node) :
    ((state.setActive node active).trans other).queue = (state.trans other).queue := by
  by_cases same : other = node
  · subst same
    simp [setActive, setTrans]
  · simp [setActive, setTrans, update_of_ne same]

theorem setActive_active_self : ((state.setActive node active).trans node).active = active := by
  simp [setActive, setTrans]

theorem setActive_trans_of_ne {other : Node} (different : other ≠ node) :
    (state.setActive node active).trans other = state.trans other := by
  simp [setActive, setTrans, update_of_ne different]

theorem setActive_queued_iff {other : Node} :
    (state.setActive node active).Queued other ↔ state.Queued other := by
  rw [Queued, setActive_queue, Queued]

theorem Tree.setActive (tree : Tree state) (attached : state.Attached node) :
    Tree (state.setActive node active) := by
  refine ⟨tree.psocsNodup, tree.vdevsNodup, tree.driverAttached, tree.psocAttached, ?_⟩
  intro other detached
  have wasDetached : ¬ state.Attached other := by
    intro was
    apply detached
    cases other <;> exact was
  have different : other ≠ node := by
    rintro rfl
    exact wasDetached attached
  rw [setActive_trans_of_ne different]
  exact tree.idle other wasDetached

/-- Threads that were woken but did not run yet keep their transition. -/
theorem Waiting.setActive (waiting : Waiting state)
    (kept : ∀ thread wait, state.waits thread = some wait → wait.node = node →
      wait.event = some false → active = some wait.tran) :
    Waiting (state.setActive node active) := by
  refine ⟨?_, ?_, ?_⟩
  · intro other tran member
    rw [setActive_queue] at member
    exact waiting.queued other tran member
  · intro other
    rw [setActive_queue]
    exact waiting.nodup other
  · intro thread wait waits
    obtain ⟨owner, pending, woken⟩ := waiting.waited thread wait waits
    refine ⟨owner, ?_, ?_⟩
    · intro eventEq
      rw [setActive_queue]
      exact pending eventEq
    · intro eventEq
      by_cases same : wait.node = node
      · rw [same, setActive_active_self]
        exact kept thread wait waits same eventEq
      · rw [setActive_trans_of_ne same]
        exact woken eventEq

theorem Logged.setActive (logged : Logged state) : Logged (state.setActive node active) := by
  refine ⟨?_, logged.fresh, logged.nodup⟩
  intro other
  rw [setActive_queue]
  exact logged.order other

end SetActive

/-! ## Leaving the queue -/

/-- The state after `tran` left the queue of `node`, started or aborted. -/
def State.release (state : State) (node : Node) (tran : DscTran) (trans : DscTrans)
    (abort : Bool) : State :=
  { state with
    trans := update state.trans node trans
    waits := update state.waits tran.thread
      ((state.waits tran.thread).map fun wait => { wait with event := some abort })
    log := state.log ++ [if abort then .aborted node tran else .started node tran] }

theorem queuedOn_append (node : Node) (log : List Event) (event : Event) :
    queuedOn node (log ++ [event]) = queuedOn node log ++ queuedOn node [event] :=
  List.filterMap_append

theorem releasedOn_append (node : Node) (log : List Event) (event : Event) :
    releasedOn node (log ++ [event]) = releasedOn node log ++ releasedOn node [event] :=
  List.filterMap_append

theorem queuedTickets_append (log : List Event) (event : Event) :
    queuedTickets (log ++ [event]) = queuedTickets log ++ queuedTickets [event] :=
  List.filterMap_append

section Release

variable {tran : DscTran} {rest : List DscTran} {active : Option DscTran} {abort : Bool}

theorem Waiting.release (waiting : Waiting state) (queue : (state.trans node).queue = tran :: rest)
    (kept : ∀ old ∈ (state.trans node).active, active = some old)
    (started : abort = false → active = some tran) :
    Waiting (state.release node tran ⟨active, rest⟩ abort) := by
  have headWaits := waiting.queued node tran (by rw [queue]; exact List.mem_cons_self)
  have headNotMem : tran ∉ rest := by
    have nodup := waiting.nodup node
    rw [queue] at nodup
    exact (List.nodup_cons.mp nodup).1
  refine ⟨?_, ?_, ?_⟩
  · intro other candidate member
    have old : candidate ∈ (state.trans other).queue ∧ candidate ≠ tran := by
      by_cases same : other = node
      · subst same
        simp only [State.release, update_self] at member
        refine ⟨by rw [queue]; exact List.mem_cons_of_mem _ member, ?_⟩
        rintro rfl
        exact headNotMem member
      · simp only [State.release, update_of_ne same] at member
        refine ⟨member, ?_⟩
        rintro rfl
        have otherWaits := waiting.queued other candidate member
        rw [headWaits] at otherWaits
        exact same (Wait.mk.inj (Option.some.inj otherWaits)).1.symm
    have otherWaits := waiting.queued other candidate old.1
    have threads : candidate.thread ≠ tran.thread := by
      intro sameThread
      rw [sameThread, headWaits] at otherWaits
      exact old.2 (Wait.mk.inj (Option.some.inj otherWaits)).2.1.symm
    simp only [State.release, update_of_ne threads]
    exact otherWaits
  · intro other
    by_cases same : other = node
    · subst same
      have nodup := waiting.nodup other
      rw [queue] at nodup
      simpa [State.release] using (List.nodup_cons.mp nodup).2
    · simpa [State.release, update_of_ne same] using waiting.nodup other
  · intro thread wait waits
    by_cases same : thread = tran.thread
    · subst same
      simp only [State.release, update_self, headWaits, Option.map_some, Option.some.injEq] at waits
      subst waits
      refine ⟨rfl, by simp, ?_⟩
      intro eventEq
      have notAborted : abort = false := by simpa using eventEq
      simpa [State.release] using started notAborted
    · simp only [State.release, update_of_ne same] at waits
      obtain ⟨owner, pending, woken⟩ := waiting.waited thread wait waits
      refine ⟨owner, ?_, ?_⟩
      · intro eventEq
        have member := pending eventEq
        by_cases sameNode : wait.node = node
        · rw [sameNode, queue] at member
          rw [sameNode]
          simp only [State.release, update_self]
          rcases List.mem_cons.mp member with isHead | inRest
          · exact absurd (by rw [← owner, isHead]) same
          · exact inRest
        · simpa [State.release, update_of_ne sameNode] using member
      · intro eventEq
        have activeEq := woken eventEq
        by_cases sameNode : wait.node = node
        · rw [sameNode] at activeEq
          rw [sameNode]
          simpa [State.release] using kept _ activeEq
        · simpa [State.release, update_of_ne sameNode] using activeEq

theorem Logged.release (logged : Logged state) (queue : (state.trans node).queue = tran :: rest) :
    Logged (state.release node tran ⟨active, rest⟩ abort) := by
  have noTicket : queuedTickets [if abort then Event.aborted node tran
      else Event.started node tran] = [] := by
    cases abort <;> rfl
  refine ⟨?_, ?_, ?_⟩
  · intro other
    have order := logged.order other
    have noneQueued : queuedOn other [if abort then Event.aborted node tran
        else Event.started node tran] = [] := by
      cases abort <;> rfl
    have oneReleased : releasedOn other [if abort then Event.aborted node tran
        else Event.started node tran] = if node = other then [tran] else [] := by
      cases abort <;> by_cases same : node = other <;> simp [releasedOn, Event.releasedAt, same]
    simp only [State.release, queuedOn_append, releasedOn_append, noneQueued, oneReleased]
    by_cases same : node = other
    · subst same
      rw [queue] at order
      simpa using order
    · rw [update_of_ne (Ne.symm same)]
      simpa [same] using order
  · simpa [State.release, queuedTickets_append, noTicket] using logged.fresh
  · simpa [State.release, queuedTickets_append, noTicket] using logged.nodup

theorem Tree.release (tree : Tree state) (attached : state.Attached node) :
    Tree (state.release node tran ⟨active, rest⟩ abort) := by
  refine ⟨tree.psocsNodup, tree.vdevsNodup, tree.driverAttached, tree.psocAttached, ?_⟩
  intro other detached
  have different : other ≠ node := by
    rintro rfl
    apply detached
    cases other <;> exact attached
  have wasDetached : ¬ state.Attached other := by
    intro was
    apply detached
    cases other <;> exact was
  simpa [State.release, update_of_ne different] using tree.idle other wasDetached

end Release

end Sm8650.Dsc
