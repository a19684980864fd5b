import Sm8650.Dsc.Step
import Sm8650.Transition.Reach

/-!
# Mutual exclusion of transitions

Each permitted call keeps the invariants, so they hold along every
interleaving. Exclusion, the success of every started transition and the
assertions follow.
-/

namespace Sm8650.Dsc

open Transition Function List State

variable {state : State} {node : Node}

/-! ## Preservation by each call -/

variable {tran : DscTran}

theorem transStop_of_active (active : (state.trans node).active = some tran) :
    transStop state node = state.setActive node none := by
  simp [transStop, setActive, dscAssert, transActive, active]

section

variable (invariant : Invariant state)

include invariant

/-- Stopping the transition of a running holder. -/
theorem Invariant.stopped_transStop
    (active : (state.trans node).active = some tran) (running : state.waits tran.thread = none) :
    Stopped (transStop state node) node ∧ Waiting (transStop state node) ∧
      Logged (transStop state node) ∧ Exclusive (transStop state node) ∧
        (transStop state node).failed = [] := by
  have isActive : state.Active node := by simp [Active, active]
  have activeOf : ∀ other, (state.setActive node none).Active other →
      state.Active other ∧ other ≠ node := by
    intro other otherActive
    have different : other ≠ node := by
      rintro rfl
      exact otherActive setActive_active_self
    rw [Active, setActive_trans_of_ne different] at otherActive
    exact ⟨otherActive, different⟩
  rw [transStop_of_active active]
  refine ⟨⟨?_, ?_, ?_⟩, ?_, ?_, ?_, ?_⟩
  · exact invariant.tree.setActive (invariant.tree.attached_of_active isActive)
  · intro other related otherActive
    obtain ⟨wasActive, different⟩ := activeOf other otherActive
    rcases related with same | above | below
    · exact different same
    · exact invariant.exclusive _ _ above wasActive isActive
    · exact invariant.exclusive _ _ below isActive wasActive
  · intro other queued unrelated
    rcases invariant.supported other (setActive_queued_iff.mp queued) with
      ⟨support, related, wasActive⟩ | ⟨upper, above, upperQueued⟩
    · have different : support ≠ node := by
        rintro rfl
        exact unrelated related
      refine .inl ⟨support, related, ?_⟩
      rwa [Active, setActive_trans_of_ne different]
    · exact .inr ⟨upper, above, setActive_queued_iff.mpr upperQueued⟩
  · refine invariant.waiting.setActive ?_
    intro thread wait waits sameNode eventEq
    obtain ⟨owner, _, woken⟩ := invariant.waiting.waited thread wait waits
    have ownActive := woken eventEq
    rw [sameNode, active] at ownActive
    rw [Option.some.inj ownActive, owner, waits] at running
    cases running
  · exact invariant.logged.setActive
  · intro upper lower above upperActive lowerActive
    exact invariant.exclusive upper lower above (activeOf upper upperActive).1
      (activeOf lower lowerActive).1
  · exact invariant.unfailed

theorem Invariant.after_transStop
    (active : (state.trans node).active = some tran) (running : state.waits tran.thread = none) :
    Invariant (dscTransStop state node) := by
  obtain ⟨stopped, waiting, logged, exclusive, unfailed⟩ :=
    invariant.stopped_transStop active running
  obtain ⟨wakeable, covered⟩ := stopped.wakeList
  rw [dscTransStop, triggerTrans_eq stopped.tree]
  obtain ⟨tree, waiting, logged, unfailed⟩ := triggerEach_bookkeeping stopped.tree waiting
    logged unfailed wakeable.nodup
    (fun woken member queued => wakeable.clear woken member queued woken (.inl rfl))
  exact ⟨tree, waiting, logged, wakeable.exclusive exclusive,
    covered.supported wakeable.nodup, unfailed⟩

theorem Invariant.after_issueTicket : Invariant state.issueTicket := by
  refine ⟨⟨invariant.tree.psocsNodup, invariant.tree.vdevsNodup,
      invariant.tree.driverAttached, invariant.tree.psocAttached, ?_⟩,
    ⟨invariant.waiting.queued, invariant.waiting.nodup, invariant.waiting.waited⟩,
    ⟨invariant.logged.order, ?_, invariant.logged.nodup⟩, invariant.exclusive,
    invariant.supported, invariant.unfailed⟩
  · intro other detached
    refine invariant.tree.idle other ?_
    intro was
    apply detached
    cases other <;> exact was
  · intro ticket member
    exact Nat.lt_succ_of_lt (invariant.logged.fresh ticket member)

/-- Starting a transition on an attached node without related activity. -/
theorem Invariant.after_transStart (attached : state.Attached node)
    (clear : ∀ other : Node, other.Related node → ¬ state.Active other)
    (tran : DscTran) : Invariant (transStart state node tran) := by
  have inactive : (state.trans node).active = none :=
    not_not.mp (clear node (.inl rfl))
  have startEq : transStart state node tran = state.setActive node (some tran) := by
    simp [transStart, setActive, dscAssert, transActive, inactive]
  have activeOf : ∀ other, (state.setActive node (some tran)).Active other →
      state.Active other ∨ other = node := by
    intro other active
    by_cases same : other = node
    · exact .inr same
    · rw [Active, setActive_trans_of_ne same] at active
      exact .inl active
  have stillActive : ∀ other, state.Active other →
      (state.setActive node (some tran)).Active other := by
    intro other active
    by_cases same : other = node
    · subst same
      exact absurd active (clear other (.inl rfl))
    · rwa [Active, setActive_trans_of_ne same]
  rw [startEq]
  refine ⟨invariant.tree.setActive attached, ?_, invariant.logged.setActive, ?_, ?_,
    invariant.unfailed⟩
  · refine invariant.waiting.setActive ?_
    intro thread wait waits sameNode eventEq
    have ownActive := (invariant.waiting.waited thread wait waits).2.2 eventEq
    rw [sameNode, inactive] at ownActive
    cases ownActive
  · intro upper lower above upperActive lowerActive
    rcases activeOf upper upperActive with wasUpper | isUpper
    · rcases activeOf lower lowerActive with wasLower | isLower
      · exact invariant.exclusive upper lower above wasUpper wasLower
      · exact clear upper (.inr (.inl (isLower ▸ above))) wasUpper
    · rcases activeOf lower lowerActive with wasLower | isLower
      · exact clear lower (.inr (.inr (isUpper ▸ above))) wasLower
      · rw [isUpper, isLower] at above
        exact Node.not_above_self node above
  · intro other queued
    rcases invariant.supported other (setActive_queued_iff.mp queued) with
      ⟨support, related, active⟩ | ⟨upper, above, upperQueued⟩
    · exact .inl ⟨support, related, stillActive support active⟩
    · exact .inr ⟨upper, above, setActive_queued_iff.mpr upperQueued⟩

/-- Queueing a transition of a running thread on a supported node. -/
theorem Invariant.after_transQueue (attached : state.Attached node) {thread : Nat} (desc : String)
    (running : state.waits thread = none) (support : state.Queued node ∨ Support state node) :
    Invariant (transQueue state.issueTicket node (state.newTran thread desc)) := by
  have waitsEq : (transQueue state.issueTicket node (state.newTran thread desc)).waits =
      update state.waits thread (some ⟨node, state.newTran thread desc, none⟩) := rfl
  have activeEq : ∀ other,
      ((transQueue state.issueTicket node (state.newTran thread desc)).trans other).active
        = (state.trans other).active := by
    intro other
    by_cases same : other = node
    · subst same
      simp [transQueue, setTrans, record, issueTicket]
    · simp [transQueue, setTrans, record, issueTicket, update_of_ne same]
  have queueEq : ∀ other,
      ((transQueue state.issueTicket node (state.newTran thread desc)).trans other).queue
        = (state.trans other).queue ++
            if node = other then [state.newTran thread desc] else [] := by
    intro other
    by_cases same : node = other
    · subst same
      simp [transQueue, setTrans, record, issueTicket]
    · simp [transQueue, setTrans, record, issueTicket, update_of_ne (Ne.symm same), same]
  have otherThread : ∀ other, ∀ tran ∈ (state.trans other).queue, tran.thread ≠ thread := by
    intro other tran member same
    have waits := invariant.waiting.queued other tran member
    rw [same, running] at waits
    cases waits
  refine ⟨⟨invariant.tree.psocsNodup, invariant.tree.vdevsNodup,
      invariant.tree.driverAttached, invariant.tree.psocAttached, ?_⟩, ⟨?_, ?_, ?_⟩,
    ⟨?_, ?_, ?_⟩, ?_, ?_, invariant.unfailed⟩
  · intro other detached
    have wasDetached : ¬ state.Attached other := by
      intro was
      apply detached
      cases other <;> exact was
    have different : other ≠ node := by
      rintro rfl
      exact wasDetached attached
    simpa [transQueue, setTrans, record, issueTicket,
      update_of_ne different] using invariant.tree.idle other wasDetached
  · intro other tran member
    rw [queueEq, mem_append] at member
    rw [waitsEq]
    rcases member with old | new
    · rw [update_of_ne (otherThread other tran old)]
      exact invariant.waiting.queued other tran old
    · split at new
      · rename_i same
        rw [mem_singleton] at new
        subst same new
        exact update_self ..
      · cases new
  · intro other
    rw [queueEq]
    split
    · rw [nodup_append]
      refine ⟨invariant.waiting.nodup other, nodup_singleton _, ?_⟩
      intro tran old new isNew
      rw [mem_singleton] at isNew
      rintro rfl
      exact otherThread other tran old (isNew ▸ rfl)
    · simpa using invariant.waiting.nodup other
  · intro other wait waits
    rw [waitsEq] at waits
    by_cases same : other = thread
    · subst same
      rw [update_self] at waits
      cases waits
      refine ⟨rfl, ?_, by simp⟩
      rw [queueEq]
      simp
    · rw [update_of_ne same] at waits
      obtain ⟨owner, pending, woken⟩ := invariant.waiting.waited other wait waits
      refine ⟨owner, ?_, ?_⟩
      · intro eventEq
        rw [queueEq]
        exact mem_append_left _ (pending eventEq)
      · intro eventEq
        rw [activeEq]
        exact woken eventEq
  · intro other
    have order := invariant.logged.order other
    have logEq : (transQueue state.issueTicket node (state.newTran thread desc)).log =
        state.log ++ [.queued node (state.newTran thread desc)] := rfl
    rw [logEq, queuedOn_append, queueEq, order]
    by_cases same : node = other <;>
      simp [queuedOn, releasedOn, Event.queuedAt, Event.releasedAt, same]
  · intro ticket member
    change ticket ∈ queuedTickets (state.log ++ [.queued node (state.newTran thread desc)])
      at member
    change ticket < state.nextTicket + 1
    rw [queuedTickets_append, mem_append] at member
    rcases member with old | new
    · exact Nat.lt_succ_of_lt (invariant.logged.fresh ticket old)
    · have isNew : ticket = state.nextTicket := by
        simpa [queuedTickets, Event.queuedTicket, newTran] using new
      omega
  · change (queuedTickets (state.log ++ [.queued node (state.newTran thread desc)])).Nodup
    rw [queuedTickets_append, nodup_append]
    refine ⟨invariant.logged.nodup, by simp [queuedTickets, Event.queuedTicket], ?_⟩
    intro ticket old new isNew same
    have bound := invariant.logged.fresh ticket old
    have newEq : new = state.nextTicket := by
      simpa [queuedTickets, Event.queuedTicket, newTran] using isNew
    omega
  · intro upper lower above upperActive lowerActive
    rw [Active, activeEq] at upperActive lowerActive
    exact invariant.exclusive upper lower above upperActive lowerActive
  · have stillQueued : ∀ other, state.Queued other →
        (transQueue state.issueTicket node (state.newTran thread desc)).Queued other := by
      intro other queued empty
      rw [queueEq] at empty
      exact queued (append_eq_nil_iff.mp empty).1
    have lift : ∀ other, Support state other →
        Support (transQueue state.issueTicket node (state.newTran thread desc)) other := by
      rintro other (⟨active, related, isActive⟩ | ⟨upper, above, upperQueued⟩)
      · exact .inl ⟨active, related, by rwa [Active, activeEq]⟩
      · exact .inr ⟨upper, above, stillQueued upper upperQueued⟩
    intro other queued
    refine lift other ?_
    by_cases same : node = other
    · subst same
      rcases support with already | supported
      · exact invariant.supported node already
      · exact supported
    · rw [Queued, queueEq, if_neg same, append_nil] at queued
      exact invariant.supported other queued

end

/-! ## Creation and destruction -/

theorem transAbort_of_nil (queue : (state.trans node).queue = []) :
    transAbort state node = (state, false) := by
  simp [transAbort, transDequeue, queue]

theorem transAbort_of_cons {rest : List DscTran} (queue : (state.trans node).queue = tran :: rest) :
    transAbort state node =
      (state.release node tran ⟨(state.trans node).active, rest⟩ true, true) := by
  simp [transAbort, transDequeue, queue, release, setTrans, setEvent, record]

/-- Flushing a queue aborts every transition in it. -/
theorem transFlush_bookkeeping (tree : Tree state) (waiting : Waiting state)
    (logged : Logged state) (attached : state.Attached node) (fuel : Nat)
    (enough : (state.trans node).queue.length < fuel) :
    (Tree (transFlush node fuel state) ∧ Waiting (transFlush node fuel state) ∧
      Logged (transFlush node fuel state)) ∧
    (SameFrame state (transFlush node fuel state) ∧
      (transFlush node fuel state).failed = state.failed ∧
      (transFlush node fuel state).trans =
        update state.trans node ⟨(state.trans node).active, []⟩) := by
  induction fuel generalizing state with
  | zero => omega
  | succ fuel ih =>
    cases queue : (state.trans node).queue with
    | nil =>
      have unchanged : transFlush node (fuel + 1) state = state := by
        simp [transFlush, transAbort_of_nil queue]
      have sameTrans : (⟨(state.trans node).active, []⟩ : DscTrans) = state.trans node := by
        rw [← queue]
      rw [unchanged, sameTrans, update_eq_self]
      exact ⟨⟨tree, waiting, logged⟩, SameFrame.refl state, rfl, rfl⟩
    | cons tran rest =>
      have turn : transFlush node (fuel + 1) state = transFlush node fuel
          (state.release node tran ⟨(state.trans node).active, rest⟩ true) := by
        simp [transFlush, transAbort_of_cons queue]
      have shorter : ((state.release node tran ⟨(state.trans node).active, rest⟩
          true).trans node).queue.length < fuel := by
        rw [queue] at enough
        simpa [release] using enough
      have stillAttached : (state.release node tran ⟨(state.trans node).active, rest⟩
          true).Attached node := by
        cases node <;> exact attached
      obtain ⟨kept, frame, failed, transEq⟩ := ih
        (tree.release attached)
        (waiting.release queue (fun _ isOld => isOld) (fun absurd => by cases absurd))
        (logged.release queue) stillAttached shorter
      rw [turn]
      refine ⟨kept, ⟨frame.driver, frame.psocs, frame.vdevs, frame.opsCount,
        frame.nextTicket⟩, failed, ?_⟩
      rw [transEq]
      simp [release]

/-- A childless node is above no attached node. -/
theorem Tree.not_attached_of_childless (tree : Tree state)
    (childless : state.Childless node) {other : Node} (above : node.Above other) :
    ¬ state.Attached other := by
  intro attached
  cases node with
  | driver =>
    cases other with
    | driver => exact above
    | psoc p =>
      rw [State.Attached, childless] at attached
      cases attached
    | vdev p v =>
      have psocAttached := tree.psocAttached p v attached
      rw [childless] at psocAttached
      cases psocAttached
  | psoc p =>
    cases other with
    | driver | psoc q => exact above
    | vdev q v =>
      cases above
      rw [State.Attached, childless] at attached
      cases attached
  | vdev p v => cases other <;> exact above

theorem detach_attached_iff (tree : Tree state) {other : Node} :
    (state.detach node).Attached other ↔ state.Attached other ∧ other ≠ node := by
  cases node with
  | driver => cases other <;> simp [detach, State.Attached]
  | psoc p =>
    cases other with
    | driver => simp [detach, State.Attached]
    | psoc q =>
      simp [detach, State.Attached, tree.psocsNodup.mem_erase_iff, and_comm]
    | vdev q v => simp [detach, State.Attached]
  | vdev p v =>
    cases other with
    | driver | psoc q => simp [detach, State.Attached]
    | vdev q w =>
      by_cases same : q = p
      · subst same
        simp [detach, State.Attached, (tree.vdevsNodup q).mem_erase_iff, and_comm]
      · simp [detach, State.Attached, same]

/-- The state after a destruction, apart from the changed queue. -/
theorem Tree.detach (tree : Tree state) (childless : state.Childless node) :
    (state.detach node).psocs.Nodup ∧ (∀ p, ((state.detach node).vdevs p).Nodup) ∧
      (∀ p ∈ (state.detach node).psocs, (state.detach node).driver = true) ∧
      ∀ p, ∀ v ∈ (state.detach node).vdevs p, p ∈ (state.detach node).psocs := by
  have attachedOf : ∀ other, (state.detach node).Attached other ↔
      state.Attached other ∧ other ≠ node := fun _ => detach_attached_iff tree
  have upward : ∀ upper other : Node, upper.Above other →
      (state.detach node).Attached other → (state.detach node).Attached upper := by
    intro upper other above attached
    obtain ⟨wasAttached, different⟩ := (attachedOf other).mp attached
    refine (attachedOf upper).mpr ⟨tree.attached_of_above above wasAttached, ?_⟩
    rintro rfl
    exact tree.not_attached_of_childless childless above wasAttached
  refine ⟨?_, ?_, ?_, ?_⟩
  · cases node with
    | driver | vdev p v => exact tree.psocsNodup
    | psoc p => exact tree.psocsNodup.erase p
  · intro q
    cases node with
    | driver | psoc p => exact tree.vdevsNodup q
    | vdev p v =>
      by_cases same : q = p
      · subst same
        simpa [detach] using (tree.vdevsNodup q).erase v
      · simpa [detach, update_of_ne same] using tree.vdevsNodup q
  · intro p member
    exact upward .driver (.psoc p) trivial member
  · intro p v member
    exact upward (.psoc p) (.vdev p v) rfl member

/-- Detaching an idle, childless node. -/
theorem Invariant.after_detach (invariant : Invariant state) (childless : state.Childless node)
    (idle : state.trans node = .idle) (drained : state.opsCount node = 0) :
    Invariant (state.detach node) := by
  have transEq : (state.detach node).trans = state.trans := by cases node <;> rfl
  have opsEq : (state.detach node).opsCount = state.opsCount := by cases node <;> rfl
  have activeOf : ∀ other, (state.detach node).Active other ↔ state.Active other := by
    intro other
    rw [Active, transEq, Active]
  have queuedOf : ∀ other, (state.detach node).Queued other ↔ state.Queued other := by
    intro other
    rw [Queued, transEq, Queued]
  obtain ⟨psocsNodup, vdevsNodup, driverAttached, psocAttached⟩ :=
    invariant.tree.detach childless
  refine ⟨⟨psocsNodup, vdevsNodup, driverAttached, psocAttached, ?_⟩, ?_, ?_, ?_, ?_, ?_⟩
  · intro other detached
    rw [transEq, opsEq]
    by_cases same : other = node
    · subst same
      exact ⟨idle, drained⟩
    · refine invariant.tree.idle other ?_
      intro was
      exact detached ((detach_attached_iff invariant.tree).mpr ⟨was, same⟩)
  · cases node <;>
      exact ⟨invariant.waiting.queued, invariant.waiting.nodup, invariant.waiting.waited⟩
  · cases node <;> exact ⟨invariant.logged.order, invariant.logged.fresh, invariant.logged.nodup⟩
  · intro upper lower above upperActive lowerActive
    exact invariant.exclusive upper lower above ((activeOf upper).mp upperActive)
      ((activeOf lower).mp lowerActive)
  · intro other queued
    rcases invariant.supported other ((queuedOf other).mp queued) with
      ⟨support, related, active⟩ | ⟨upper, above, upperQueued⟩
    · exact .inl ⟨support, related, (activeOf support).mpr active⟩
    · exact .inr ⟨upper, above, (queuedOf upper).mpr upperQueued⟩
  · cases node <;> exact invariant.unfailed

/-- Flushing the queue of a childless, inactive node. -/
theorem Invariant.after_transFlush (invariant : Invariant state)
    (attached : state.Attached node) (childless : state.Childless node)
    (inactive : (state.trans node).active = none) :
    Invariant (transFlush node ((state.trans node).queue.length + 1) state) ∧
      SameFrame state (transFlush node ((state.trans node).queue.length + 1) state) ∧
      (transFlush node ((state.trans node).queue.length + 1) state).trans =
        update state.trans node .idle := by
  obtain ⟨⟨tree, waiting, logged⟩, frame, failed, transEq⟩ :=
    transFlush_bookkeeping invariant.tree invariant.waiting invariant.logged attached
      ((state.trans node).queue.length + 1) (Nat.lt_succ_self _)
  rw [inactive] at transEq
  have activeOf : ∀ other,
      (transFlush node ((state.trans node).queue.length + 1) state).Active other ↔
        state.Active other := by
    intro other
    rw [Active, transEq, Active]
    by_cases same : other = node
    · subst same
      simp [inactive]
    · rw [update_of_ne same]
  have queuedOf : ∀ other,
      (transFlush node ((state.trans node).queue.length + 1) state).Queued other ↔
        state.Queued other ∧ other ≠ node := by
    intro other
    rw [Queued, transEq, Queued]
    by_cases same : other = node
    · subst same
      simp
    · simp [same]
  refine ⟨⟨tree, waiting, logged, ?_, ?_, failed.trans invariant.unfailed⟩, frame, transEq⟩
  · intro upper lower above upperActive lowerActive
    exact invariant.exclusive upper lower above ((activeOf upper).mp upperActive)
      ((activeOf lower).mp lowerActive)
  · intro other queued
    obtain ⟨wasQueued, _⟩ := (queuedOf other).mp queued
    rcases invariant.supported other wasQueued with
      ⟨support, related, active⟩ | ⟨upper, above, upperQueued⟩
    · exact .inl ⟨support, related, (activeOf support).mpr active⟩
    · refine .inr ⟨upper, above, (queuedOf upper).mpr ⟨upperQueued, ?_⟩⟩
      rintro rfl
      exact invariant.tree.not_attached_of_childless childless above
        (invariant.tree.attached_of_queued wasQueued)

theorem Invariant.after_destroy (invariant : Invariant state)
    (attached : state.Attached node) (childless : state.Childless node)
    (inactive : (state.trans node).active = none) (drained : state.opsCount node = 0) :
    Invariant (dscDestroy state node) := by
  obtain ⟨flushed, frame, transEq⟩ := invariant.after_transFlush attached childless inactive
  have opsZero :
      (transFlush node ((state.trans node).queue.length + 1) state).opsCount node = 0 := by
    rw [frame.opsCount]
    exact drained
  have stillChildless :
      (transFlush node ((state.trans node).queue.length + 1) state).Childless node := by
    cases node with
    | driver => exact frame.psocs.trans childless
    | psoc p => exact (congrFun frame.vdevs p).trans childless
    | vdev p v => trivial
  have idle : (transFlush node ((state.trans node).queue.length + 1) state).trans node = .idle := by
    rw [transEq, update_self]
  have destroyEq : dscDestroy state node =
      (transFlush node ((state.trans node).queue.length + 1) state).detach node := by
    simp only [dscDestroy, dscAssert, childless, drained, decide_true, if_true]
    generalize transFlush node ((state.trans node).queue.length + 1) state = flushed at idle opsZero
    have sameTrans : update flushed.trans node .idle = flushed.trans := by
      rw [← idle, update_eq_self]
    have sameOps : update flushed.opsCount node 0 = flushed.opsCount := by
      rw [← opsZero, update_eq_self]
    cases node <;> simp [setTrans, setOps, detach, sameTrans, sameOps]
  rw [destroyEq]
  exact flushed.after_detach stillChildless idle opsZero

theorem attach_attached_iff {other : Node} :
    (state.attach node).Attached other ↔ state.Attached other ∨ other = node := by
  cases node with
  | driver | psoc p => cases other <;> simp [State.attach, State.Attached]
  | vdev p v =>
    cases other with
    | driver | psoc q => simp [State.attach, State.Attached]
    | vdev q w =>
      by_cases same : q = p
      · subst same
        simp [State.attach, State.Attached]
      · simp [State.attach, State.Attached, same]

/-- Below an attached parent, all ancestors are attached. -/
theorem Tree.attached_of_above_parent (tree : Tree state) {upper : Node} (above : upper.Above node)
    (parentAttached : ∀ parent ∈ node.parent, state.Attached parent) : state.Attached upper := by
  cases node with
  | driver => cases upper <;> exact above.elim
  | psoc p =>
    cases upper with
    | driver => exact parentAttached .driver rfl
    | psoc q | vdev q w => exact above.elim
  | vdev p v =>
    have psocAttached := parentAttached (.psoc p) rfl
    cases upper with
    | driver => exact tree.driverAttached p psocAttached
    | psoc q =>
      cases above
      exact psocAttached
    | vdev q w => exact above.elim

theorem Invariant.after_create (invariant : Invariant state) (fresh : ¬ state.Attached node)
    (parentAttached : ∀ parent ∈ node.parent, state.Attached parent) (allocated : Bool) :
    Invariant (dscCreate state node allocated).1 := by
  cases allocated with
  | false => exact invariant
  | true =>
    obtain ⟨idle, drained⟩ := invariant.tree.idle node fresh
    have createEq : (dscCreate state node true).1 = state.attach node := by
      have sameTrans : update state.trans node .idle = state.trans := by rw [← idle, update_eq_self]
      have sameOps : update state.opsCount node 0 = state.opsCount := by
        rw [← drained, update_eq_self]
      cases node <;>
        simp [dscCreate, State.attach, setTrans, setOps, sameTrans, sameOps]
    rw [createEq]
    have transEq : (state.attach node).trans = state.trans := by cases node <;> rfl
    have opsEq : (state.attach node).opsCount = state.opsCount := by cases node <;> rfl
    have upward : ∀ upper other : Node, upper.Above other →
        (state.attach node).Attached other → (state.attach node).Attached upper := by
      intro upper other above attached
      refine attach_attached_iff.mpr (.inl ?_)
      rcases attach_attached_iff.mp attached with was | rfl
      · exact invariant.tree.attached_of_above above was
      · exact invariant.tree.attached_of_above_parent above parentAttached
    refine ⟨⟨?_, ?_, ?_, ?_, ?_⟩, ?_, ?_, ?_, ?_, ?_⟩
    · cases node with
      | driver => exact invariant.tree.psocsNodup
      | psoc p =>
        simp only [State.attach, nodup_append, mem_singleton]
        refine ⟨invariant.tree.psocsNodup, nodup_singleton p, ?_⟩
        rintro q member _ rfl rfl
        exact fresh member
      | vdev p v => exact invariant.tree.psocsNodup
    · intro q
      cases node with
      | driver | psoc p => exact invariant.tree.vdevsNodup q
      | vdev p v =>
        by_cases same : q = p
        · subst same
          simp only [State.attach, update_self, nodup_append, mem_singleton]
          refine ⟨invariant.tree.vdevsNodup q, nodup_singleton v, ?_⟩
          rintro w member _ rfl rfl
          exact fresh member
        · simpa [State.attach, update_of_ne same] using invariant.tree.vdevsNodup q
    · intro p member
      exact upward .driver (.psoc p) trivial member
    · intro p v member
      exact upward (.psoc p) (.vdev p v) rfl member
    · intro other detached
      rw [transEq, opsEq]
      refine invariant.tree.idle other ?_
      intro was
      exact detached (attach_attached_iff.mpr (.inl was))
    · cases node <;>
        exact ⟨invariant.waiting.queued, invariant.waiting.nodup, invariant.waiting.waited⟩
    · cases node <;> exact ⟨invariant.logged.order, invariant.logged.fresh, invariant.logged.nodup⟩
    · cases node <;> exact invariant.exclusive
    · cases node <;> exact invariant.supported
    · cases node <;> exact invariant.unfailed

/-! ## Operations and wake-ups -/

theorem Invariant.after_setOps (invariant : Invariant state) (attached : state.Attached node)
    (count : Nat) : Invariant (state.setOps node count) := by
  refine ⟨⟨invariant.tree.psocsNodup, invariant.tree.vdevsNodup,
      invariant.tree.driverAttached, invariant.tree.psocAttached, ?_⟩,
    ⟨invariant.waiting.queued, invariant.waiting.nodup, invariant.waiting.waited⟩,
    ⟨invariant.logged.order, invariant.logged.fresh, invariant.logged.nodup⟩,
    invariant.exclusive, invariant.supported, invariant.unfailed⟩
  intro other detached
  have wasDetached : ¬ state.Attached other := by
    intro was
    apply detached
    cases other <;> exact was
  have different : other ≠ node := by
    rintro rfl
    exact wasDetached attached
  simpa [setOps, update_of_ne different] using invariant.tree.idle other wasDetached

/-- A woken thread returns from its wait. -/
theorem Invariant.after_wakeUp (invariant : Invariant state) {thread : Nat} {wait : Wait}
    {abort : Bool} (waits : state.waits thread = some wait)
    (event : wait.event = some abort) : Invariant (dscTranWait state thread).1 := by
  obtain ⟨node, tran, _⟩ := wait
  cases event
  have waitEq : (dscTranWait state thread).1 =
      { state with waits := update state.waits thread none } := by
    simp [dscTranWait, waits]
  rw [waitEq]
  refine ⟨⟨invariant.tree.psocsNodup, invariant.tree.vdevsNodup,
      invariant.tree.driverAttached, invariant.tree.psocAttached, ?_⟩,
    ⟨?_, invariant.waiting.nodup, ?_⟩,
    ⟨invariant.logged.order, invariant.logged.fresh, invariant.logged.nodup⟩,
    invariant.exclusive, invariant.supported, invariant.unfailed⟩
  · intro other detached
    refine invariant.tree.idle other ?_
    intro was
    apply detached
    cases other <;> exact was
  · intro other candidate member
    have pending := invariant.waiting.queued other candidate member
    have different : candidate.thread ≠ thread := by
      intro same
      rw [same, waits] at pending
      cases pending
    simpa [update_of_ne different] using pending
  · intro other wait otherWaits
    have different : other ≠ thread := by
      rintro rfl
      simp at otherWaits
    simp only [update_of_ne different] at otherWaits
    exact invariant.waiting.waited other wait otherWaits

/-! ## Whole runs -/

/-- One permitted call. -/
def step : LabelledStep State Call :=
  guarded Call.Permitted fun state call => (call.run state).1

/-- The states of all interleavings. -/
def Reachable (state : State) : Prop :=
  Reaches step initial state

theorem Invariant.after_run (invariant : Invariant state) {call : Call}
    (permitted : call.Permitted state) : Invariant (call.run state).1 := by
  cases call with
  | create node allocated =>
    exact invariant.after_create permitted.1 permitted.2 allocated
  | destroy node =>
    obtain ⟨attached, childless, inactive, drained⟩ := permitted
    exact invariant.after_destroy attached childless inactive drained
  | transStart platform thread node desc =>
    obtain ⟨_, attached⟩ := permitted
    simp only [Call.run, dscTransStart]
    split
    · rename_i admitted
      have clear := clear_of_canTrans invariant.tree admitted
      exact invariant.after_issueTicket.after_transStart (by cases node <;> exact attached) clear _
    · exact invariant
  | transStartWait platform thread node desc =>
    obtain ⟨running, attached⟩ := permitted
    simp only [Call.run, dscTransStartWait]
    split
    · rename_i admitted
      have clear := clear_of_canTrans invariant.tree admitted
      exact invariant.after_issueTicket.after_transStart (by cases node <;> exact attached) clear _
    · rename_i refused
      split
      · rename_i waits
        exact invariant.after_transQueue attached desc running
          (support_of_waitsOn invariant.tree refused waits)
      · exact invariant
  | transStop thread node =>
    obtain ⟨running, _, tran, active, rfl⟩ := permitted
    exact invariant.after_transStop active running
  | opStart platform thread node =>
    simp only [Call.run, dscOpStart]
    split
    · exact invariant.after_setOps permitted.2 _
    · exact invariant
  | opStop thread node =>
    obtain ⟨_, attached, inFlight⟩ := permitted
    have asserted : dscAssert (decide (state.opsCount node ≠ 0)) .opsCount state = state := by
      simp [dscAssert, inFlight]
    simp only [Call.run, opsRemove, asserted]
    exact invariant.after_setOps attached _
  | wakeUp thread =>
    obtain ⟨wait, waits, woken⟩ := permitted
    obtain ⟨abort, event⟩ := Option.ne_none_iff_exists'.mp woken
    exact invariant.after_wakeUp waits event

theorem Reachable.invariant (reachable : Reachable state) : Invariant state := by
  refine Reaches.invariant reachable invariant_initial ?_
  rintro source call target holds ⟨permitted, rfl⟩
  exact holds.after_run permitted

/-- The state after a list of calls. -/
def runCalls (state : State) (calls : List Call) : State :=
  calls.foldl (fun state call => (call.run state).1) state

/-- Every call of the list is permitted when its turn comes. -/
def PermittedCalls : State → List Call → Prop
  | _, [] => True
  | state, call :: calls => call.Permitted state ∧ PermittedCalls (call.run state).1 calls

instance (state : State) : (call : Call) → Decidable (call.Permitted state)
  | .create _ _ => inferInstanceAs (Decidable (_ ∧ _))
  | .destroy _ => inferInstanceAs (Decidable (_ ∧ _))
  | .transStart _ _ _ _ => inferInstanceAs (Decidable (_ ∧ _))
  | .transStartWait _ _ _ _ => inferInstanceAs (Decidable (_ ∧ _))
  | .transStop _ _ => inferInstanceAs (Decidable (_ ∧ _))
  | .opStart _ _ _ => inferInstanceAs (Decidable (_ ∧ _))
  | .opStop _ _ => inferInstanceAs (Decidable (_ ∧ _))
  | .wakeUp _ => inferInstanceAs (Decidable (∃ _ ∈ _, _))

instance decidablePermittedCalls :
    (state : State) → (calls : List Call) → Decidable (PermittedCalls state calls)
  | _, [] => inferInstanceAs (Decidable True)
  | state, call :: calls =>
    letI := decidablePermittedCalls (call.run state).1 calls
    inferInstanceAs (Decidable (_ ∧ _))

theorem Reachable.runCalls (reachable : Reachable state) {calls : List Call}
    (permitted : PermittedCalls state calls) : Reachable (runCalls state calls) := by
  induction calls generalizing state with
  | nil => exact reachable
  | cons call calls ih =>
    exact ih (Reaches.tail reachable ⟨permitted.1, rfl⟩) permitted.2

/-- Whoever is told that its transition started finds it active: at once when
the call succeeds, and at the wake-up otherwise. -/
def Call.StartsOwn (state : State) : Call → Prop
  | .transStart platform thread node desc =>
    (dscTransStart state platform thread node desc).2 = .returned .success →
      ((dscTransStart state platform thread node desc).1.trans node).active =
        some (state.newTran thread desc)
  | .transStartWait platform thread node desc =>
    (dscTransStartWait state platform thread node desc).2 = .returned .success →
      ((dscTransStartWait state platform thread node desc).1.trans node).active =
        some (state.newTran thread desc)
  | .wakeUp thread =>
    (dscTranWait state thread).2 = .returned .success →
      ∃ wait, state.waits thread = some wait ∧ wait.tran.thread = thread ∧
        ((dscTranWait state thread).1.trans wait.node).active = some wait.tran
  | _ => True

theorem transStart_active (state : State) (node : Node) (tran : DscTran) :
    ((transStart state node tran).trans node).active = some tran := by
  simp [transStart, setTrans]

theorem Invariant.startsOwn (invariant : Invariant state) (call : Call) : call.StartsOwn state := by
  cases call with
  | transStart platform thread node desc =>
    intro succeeded
    unfold dscTransStart at succeeded ⊢
    split at succeeded
    · exact transStart_active _ _ _
    · rename_i refused
      simp at succeeded
      exact absurd succeeded refused
  | transStartWait platform thread node desc =>
    intro succeeded
    unfold dscTransStartWait at succeeded ⊢
    split at succeeded
    · exact transStart_active _ _ _
    · rename_i refused
      split at succeeded
      · simp at succeeded
      · simp at succeeded
        exact absurd succeeded refused
  | wakeUp thread =>
    intro succeeded
    unfold dscTranWait at succeeded ⊢
    split at succeeded
    · rename_i node tran abort waits
      have notAborted : abort = false := by
        cases abort
        · rfl
        · simp at succeeded
      subst notAborted
      obtain ⟨owner, _, woken⟩ := invariant.waiting.waited thread _ waits
      exact ⟨_, waits, owner, woken rfl⟩
    · simp at succeeded
  | create node allocated | destroy node | transStop thread node | opStop thread node => trivial
  | opStart platform thread node => trivial

/-- In every interleaving no two transitions on related nodes are active, every
transition reported as started is active, and no assertion fails. -/
theorem transitions_exclusive (reachable : Reachable state) :
    (∀ upper lower : Node, upper.Above lower → ¬ (state.Active upper ∧ state.Active lower)) ∧
      (∀ call : Call, call.Permitted state → call.StartsOwn state) ∧
      state.failed = [] := by
  have invariant := reachable.invariant
  refine ⟨?_, fun call _ => invariant.startsOwn call, invariant.unfailed⟩
  rintro upper lower above ⟨upperActive, lowerActive⟩
  exact invariant.exclusive upper lower above upperActive lowerActive

/-- A driver waits for the transition of its psoc, while an operation runs on a
vdev. -/
def contendedCalls : List Call :=
  [.create .driver true, .create (.psoc 0) true, .create (.vdev 0 0) true,
    .opStart ⟨false, false⟩ 0 (.vdev 0 0), .transStart ⟨false, false⟩ 1 (.psoc 0) "probe",
    .transStartWait ⟨false, false⟩ 2 .driver "unload"]

theorem transitions_exclusive_contended :
    (∀ upper lower : Node, upper.Above lower →
        ¬ ((runCalls .initial contendedCalls).Active upper ∧
          (runCalls .initial contendedCalls).Active lower)) ∧
      (∀ call : Call, call.Permitted (runCalls .initial contendedCalls) →
        call.StartsOwn (runCalls .initial contendedCalls)) ∧
      (runCalls .initial contendedCalls).failed = [] :=
  transitions_exclusive (Reachable.runCalls (Reaches.refl step initial) (by decide))

end Sm8650.Dsc
