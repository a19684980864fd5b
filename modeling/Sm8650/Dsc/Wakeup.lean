import Sm8650.Dsc.Safety

/-!
# No lost wake-up

A queue that has become non-empty is never forgotten. The topmost queued node
above it has an active transition on its path or below it, and the stop of the
last such transition starts the head of that queue. The log shows that
transitions leave each queue in the order they entered it, once.
-/

namespace Sm8650.Dsc

open Transition List Event

variable {state : State} {node : Node}

/-- A queued node without a queued ancestor. -/
def State.TopQueued (state : State) (node : Node) : Prop :=
  state.Queued node ∧ ∀ upper : Node, upper.Above node → ¬ state.Queued upper

theorem exists_topQueued (queued : state.Queued node) :
    ∃ top : Node, (top = node ∨ top.Above node) ∧ state.TopQueued top := by
  by_cases driverQueued : state.Queued .driver
  · refine ⟨.driver, ?_, driverQueued, ?_⟩
    · cases node with
      | driver => exact .inl rfl
      | psoc p | vdev p v => exact .inr trivial
    · intro upper above
      cases upper <;> exact above.elim
  · cases node with
    | driver => exact absurd queued driverQueued
    | psoc p =>
      refine ⟨.psoc p, .inl rfl, queued, ?_⟩
      intro upper above
      cases upper with
      | driver => exact driverQueued
      | psoc q | vdev q w => exact above.elim
    | vdev p v =>
      by_cases psocQueued : state.Queued (.psoc p)
      · refine ⟨.psoc p, .inr rfl, psocQueued, ?_⟩
        intro upper above
        cases upper with
        | driver => exact driverQueued
        | psoc q | vdev q w => exact above.elim
      · refine ⟨.vdev p v, .inl rfl, queued, ?_⟩
        intro upper above
        cases upper with
        | driver => exact driverQueued
        | psoc q =>
          cases above
          exact psocQueued
        | vdev q w => exact above.elim

/-- Without a queue further up, the support is an active transition. -/
theorem Supported.active_of_topQueued (supported : Supported state) (top : state.TopQueued node) :
    ∃ other : Node, other.Related node ∧ state.Active other := by
  rcases supported node top.1 with active | ⟨upper, above, queued⟩
  · exact active
  · exact absurd queued (top.2 upper above)

/-- Once nothing related is active, the stop wakes a topmost queued node. -/
theorem mem_wakeList_of_topQueued (tree : Tree state) {top : Node}
    (related : node.Related top) (queued : state.TopQueued top)
    (clear : ∀ other : Node, other.Related top → ¬ state.Active other) :
    top ∈ wakeList state node := by
  have attached := tree.attached_of_queued queued.1
  have topQueued := transQueued_iff.mpr queued.1
  have notQueued : ∀ upper : Node, upper.Above top → transQueued state upper = false := by
    intro upper above
    rw [← Bool.not_eq_true, transQueued_iff]
    exact queued.2 upper above
  have inPsoc : ∀ p, (top = .psoc p ∨ ∃ v, top = .vdev p v) → top ∈ wakePsocOrVdevs state p := by
    rintro p (rfl | ⟨v, rfl⟩)
    · simp [wakePsocOrVdevs, topQueued]
    · rw [wakePsocOrVdevs, notQueued (.psoc p) rfl]
      exact mem_map_of_mem attached
  cases top with
  | driver =>
    have can : driverCanTrigger state = true :=
      (driverCanTrigger_iff tree).mpr fun other =>
        clear other (Node.related_driver other).symm
    cases node <;> simp [wakeList, wakeDriverChecked, topQueued, can]
  | psoc p =>
    have driverNot := notQueued .driver trivial
    rcases Node.related_psoc_iff.mp related with rfl | rfl | ⟨v, rfl⟩
    · simp only [wakeList, driverNot, Bool.false_eq_true, if_false, mem_flatMap]
      exact ⟨p, attached, inPsoc p (.inl rfl)⟩
    · simpa only [wakeList, driverNot, Bool.false_eq_true, if_false] using inPsoc p (.inl rfl)
    · have can : psocCanTrigger state p = true :=
        (psocCanTrigger_iff tree p).mpr ⟨queued.2 .driver trivial, clear⟩
      simp [wakeList, wakePsocChecked, driverNot, topQueued, can]
  | vdev p v =>
    have driverNot := notQueued .driver trivial
    have psocNot := notQueued (.psoc p) rfl
    rcases Node.related_vdev_iff.mp related with rfl | rfl | rfl
    · simp only [wakeList, driverNot, Bool.false_eq_true, if_false, mem_flatMap]
      exact ⟨p, tree.psocAttached p v attached, inPsoc p (.inr ⟨v, rfl⟩)⟩
    · simpa only [wakeList, driverNot, Bool.false_eq_true, if_false] using inPsoc p (.inr ⟨v, rfl⟩)
    · simp [wakeList, driverNot, psocNot]

/-- Stopping the only active transition that keeps a topmost queue waiting
starts the head of that queue. -/
theorem Invariant.stop_starts_head (invariant : Invariant state) {thread : Nat}
    {top : Node} (related : node.Related top) (queued : state.TopQueued top)
    (permitted : (Call.transStop thread node).Permitted state)
    (alone : ∀ other : Node, other.Related top → state.Active other → other = node)
    {head : DscTran} {rest : List DscTran} (queue : (state.trans top).queue = head :: rest) :
    (((Call.transStop thread node).run state).1).trans top = ⟨some head, rest⟩ := by
  obtain ⟨running, _, tran, active, rfl⟩ := permitted
  obtain ⟨stopped, -, -, -, -⟩ := invariant.stopped_transStop active running
  have stopEq := transStop_of_active active
  have stillTop : (state.setActive node none).TopQueued top :=
    ⟨setActive_queued_iff.mpr queued.1,
      fun upper above => mt setActive_queued_iff.mp (queued.2 upper above)⟩
  have clear : ∀ other : Node, other.Related top → ¬ (state.setActive node none).Active other := by
    intro other otherRelated otherActive
    by_cases same : other = node
    · subst same
      exact otherActive setActive_active_self
    · rw [State.Active, setActive_trans_of_ne same] at otherActive
      exact same (alone other otherRelated otherActive)
  rw [stopEq] at stopped
  have woken := mem_wakeList_of_topQueued stopped.tree related stillTop clear
  have popped : ((state.setActive node none).trans top).pop = ⟨some head, rest⟩ := by
    have sameQueue : ((state.setActive node none).trans top).queue = head :: rest :=
      (setActive_queue top).trans queue
    cases trans : (state.setActive node none).trans top
    rw [trans] at sameQueue
    cases sameQueue
    rfl
  rw [Call.run, dscTransStop, stopEq, triggerTrans_eq stopped.tree,
    triggerEach_trans_of_mem stopped.wakeList.1.nodup woken, popped]

/-! ## Order and uniqueness -/

/-- The transition that the event starts from the node's queue. -/
def Event.startedAt (node : Node) : Event → Option DscTran
  | .started at_ tran => if at_ = node then some tran else none
  | _ => none

/-- The ticket that the event takes from a queue. -/
def Event.releasedTicket : Event → Option Nat
  | .started _ tran | .aborted _ tran => some tran.ticket
  | .queued _ _ => none

/-- The transitions started from the node's queue so far, in order. -/
def startedOn (node : Node) (log : List Event) : List DscTran :=
  log.filterMap (startedAt node)

/-- The tickets of all transitions that left a queue so far. -/
def releasedTickets (log : List Event) : List Nat :=
  log.filterMap releasedTicket

theorem startedOn_sublist_releasedOn (node : Node) (log : List Event) :
    (startedOn node log).Sublist (releasedOn node log) := by
  unfold startedOn releasedOn
  induction log with
  | nil => exact List.Sublist.refl _
  | cons event log ih =>
    cases event with
    | queued other tran =>
      simpa [filterMap_cons, startedAt, releasedAt] using ih
    | started other tran =>
      by_cases same : other = node <;> simpa [startedAt, releasedAt, same] using ih
    | aborted other tran =>
      by_cases same : other = node
      · simpa [filterMap_cons, startedAt, releasedAt, same] using ih.cons tran
      · simpa [filterMap_cons, startedAt, releasedAt, same] using ih

theorem Event.queuedAt_eq_some {event : Event} {tran : DscTran} :
    event.queuedAt node = some tran ↔ event = .queued node tran := by
  cases event <;> simp [queuedAt]

/-- An event that takes a ticket from a queue releases its transition there. -/
theorem Event.exists_releasedAt {event : Event} {ticket : Nat}
    (released : event.releasedTicket = some ticket) :
    ∃ node tran, event.releasedAt node = some tran ∧ tran.ticket = ticket := by
  cases event with
  | queued node tran => cases released
  | started node tran =>
    exact ⟨node, tran, by simp [releasedAt], Option.some.inj released⟩
  | aborted node tran =>
    exact ⟨node, tran, by simp [releasedAt], Option.some.inj released⟩

/-- The selected values of a list are distinct when each comes from one
position. -/
theorem nodup_filterMap_iff {α β : Type} {select : α → Option β} {list : List α} :
    (list.filterMap select).Nodup ↔
      ∀ (first second : Nat) (a b : α) (value : β), list[first]? = some a →
        list[second]? = some b → select a = some value → select b = some value →
          first = second := by
  rw [List.Nodup, List.pairwise_filterMap, List.pairwise_iff_getElem]
  constructor
  · intro distinct first second a b value firstAt secondAt firstValue secondValue
    obtain ⟨firstLt, rfl⟩ := List.getElem?_eq_some_iff.mp firstAt
    obtain ⟨secondLt, rfl⟩ := List.getElem?_eq_some_iff.mp secondAt
    rcases Nat.lt_trichotomy first second with before | same | after
    · exact absurd rfl (distinct first second firstLt secondLt before _ firstValue _ secondValue)
    · exact same
    · exact absurd rfl (distinct second first secondLt firstLt after _ secondValue _ firstValue)
  · intro unique first second firstLt secondLt before value firstValue other otherValue same
    subst same
    have sameIndex := unique first second _ _ value (List.getElem?_eq_getElem firstLt)
      (List.getElem?_eq_getElem secondLt) firstValue otherValue
    omega

/-- A ticket is queued once, on one node. -/
theorem queued_unique {log : List Event} (nodup : (queuedTickets log).Nodup)
    {first second : Node} {tran other : DscTran}
    (firstMem : tran ∈ queuedOn first log) (secondMem : other ∈ queuedOn second log)
    (sameTicket : tran.ticket = other.ticket) : first = second ∧ tran = other := by
  obtain ⟨firstEvent, firstMem, firstQueued⟩ := mem_filterMap.mp firstMem
  obtain ⟨secondEvent, secondMem, secondQueued⟩ := mem_filterMap.mp secondMem
  cases queuedAt_eq_some.mp firstQueued
  cases queuedAt_eq_some.mp secondQueued
  obtain ⟨index, firstAt⟩ := mem_iff_getElem?.mp firstMem
  obtain ⟨otherIndex, secondAt⟩ := mem_iff_getElem?.mp secondMem
  have sameIndex := nodup_filterMap_iff.mp nodup index otherIndex _ _ tran.ticket firstAt
    secondAt rfl (congrArg some sameTicket.symm)
  subst sameIndex
  rw [firstAt] at secondAt
  exact queued.inj (Option.some.inj secondAt)

theorem Logged.releasedOn_nodup (logged : Logged state) (node : Node) :
    (releasedOn node state.log).Nodup := by
  have queuedNodup : (queuedOn node state.log).Nodup := by
    refine nodup_filterMap_iff.mpr ?_
    intro first second a b tran firstAt secondAt firstQueued secondQueued
    cases queuedAt_eq_some.mp firstQueued
    cases queuedAt_eq_some.mp secondQueued
    exact nodup_filterMap_iff.mp logged.nodup first second _ _ tran.ticket firstAt secondAt rfl rfl
  rw [logged.order node] at queuedNodup
  exact (nodup_append.mp queuedNodup).1

/-- No transition leaves a queue twice. -/
theorem Logged.releasedTickets_nodup (logged : Logged state) :
    (releasedTickets state.log).Nodup := by
  have wasQueued : ∀ event ∈ state.log, ∀ node tran,
      event.releasedAt node = some tran → tran ∈ queuedOn node state.log := by
    intro event member node tran released
    rw [logged.order node]
    exact mem_append_left _ (mem_filterMap.mpr ⟨event, member, released⟩)
  refine nodup_filterMap_iff.mpr ?_
  intro first second a b ticket firstAt secondAt firstTicket secondTicket
  obtain ⟨firstNode, firstTran, firstReleased, rfl⟩ := exists_releasedAt firstTicket
  obtain ⟨secondNode, secondTran, secondReleased, sameTicket⟩ :=
    exists_releasedAt secondTicket
  obtain ⟨rfl, rfl⟩ := queued_unique logged.nodup
    (wasQueued a (mem_of_getElem? firstAt) _ _ firstReleased)
    (wasQueued b (mem_of_getElem? secondAt) _ _ secondReleased) sameTicket.symm
  exact nodup_filterMap_iff.mp (logged.releasedOn_nodup firstNode) first second a b
    firstTran firstAt secondAt firstReleased secondReleased

/-! ## Whole runs -/

/-- In every interleaving each non-empty queue has support; the topmost queued
node at or above it has an active transition on a related node, and the stop of
the last of these starts its head; and transitions leave each queue in the
order they entered it, each of them once. -/
theorem no_lost_wakeup (reachable : Reachable state) :
    (∀ node, state.Queued node → Support state node) ∧
    (∀ node, state.Queued node →
      ∃ top : Node, (top = node ∨ top.Above node) ∧ state.TopQueued top ∧
        (∃ other : Node, other.Related top ∧ state.Active other) ∧
        ∀ (other : Node) (thread : Nat), other.Related top →
          (Call.transStop thread other).Permitted state →
          (∀ third : Node, third.Related top → state.Active third → third = other) →
          ∀ head rest, (state.trans top).queue = head :: rest →
            (((Call.transStop thread other).run state).1).trans top = ⟨some head, rest⟩) ∧
    (∀ node, releasedOn node state.log <+: queuedOn node state.log ∧
      (startedOn node state.log).Sublist (queuedOn node state.log)) ∧
    (releasedTickets state.log).Nodup := by
  have invariant := reachable.invariant
  refine ⟨invariant.supported, ?_, ?_, invariant.logged.releasedTickets_nodup⟩
  · intro node queued
    obtain ⟨top, atOrAbove, topQueued⟩ := exists_topQueued queued
    refine ⟨top, atOrAbove, topQueued, invariant.supported.active_of_topQueued topQueued, ?_⟩
    intro other thread related permitted alone head rest queue
    exact invariant.stop_starts_head related topQueued permitted alone queue
  · intro node
    have order := invariant.logged.order node
    have isPrefix : releasedOn node state.log <+: queuedOn node state.log :=
      ⟨_, order.symm⟩
    exact ⟨isPrefix, (startedOn_sublist_releasedOn node state.log).trans isPrefix.sublist⟩

theorem no_lost_wakeup_contended :
    (∀ node, (runCalls .initial contendedCalls).Queued node →
      Support (runCalls .initial contendedCalls) node) ∧
    (∀ node, (runCalls .initial contendedCalls).Queued node →
      ∃ top : Node, (top = node ∨ top.Above node) ∧
        (runCalls .initial contendedCalls).TopQueued top ∧
        (∃ other : Node, other.Related top ∧ (runCalls .initial contendedCalls).Active other) ∧
        ∀ (other : Node) (thread : Nat), other.Related top →
          (Call.transStop thread other).Permitted (runCalls .initial contendedCalls) →
          (∀ third : Node, third.Related top →
            (runCalls .initial contendedCalls).Active third → third = other) →
          ∀ head rest,
            ((runCalls .initial contendedCalls).trans top).queue = head :: rest →
              (((Call.transStop thread other).run
                (runCalls .initial contendedCalls)).1).trans top = ⟨some head, rest⟩) ∧
    (∀ node, releasedOn node (runCalls .initial contendedCalls).log <+:
        queuedOn node (runCalls .initial contendedCalls).log ∧
      (startedOn node (runCalls .initial contendedCalls).log).Sublist
        (queuedOn node (runCalls .initial contendedCalls).log)) ∧
    (releasedTickets (runCalls .initial contendedCalls).log).Nodup :=
  no_lost_wakeup (Reachable.runCalls (Reaches.refl step State.initial) (by decide))

end Sm8650.Dsc
