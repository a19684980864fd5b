import Sm8650.Dsc.Safety

/-!
# Draining operations

While a transition is active, no operation is admitted on a related node, so
the counters of the path and of the subtree only fall. A holder that has seen
each counter of its subtree at zero, at whatever moments, may rely on all of
them being zero until it stops the transition.
-/

namespace Sm8650.Dsc

open Transition Function State

variable {state : State} {node : Node}

/-- The node and everything below it. -/
def Node.Subtree (root node : Node) : Prop :=
  root = node ∨ root.Above node

theorem transStop_opsCount (state : State) (node : Node) :
    (transStop state node).opsCount = state.opsCount := by
  unfold transStop dscAssert
  split <;> rfl

theorem transStart_opsCount (state : State) (node : Node) (tran : DscTran) :
    (transStart state node tran).opsCount = state.opsCount := by
  unfold transStart dscAssert
  split <;> rfl

theorem Invariant.dscTransStop_opsCount (invariant : Invariant state) {thread : Nat}
    (permitted : (Call.transStop thread node).Permitted state) :
    (dscTransStop state node).opsCount = state.opsCount := by
  obtain ⟨running, _, tran, active, rfl⟩ := permitted
  obtain ⟨stopped, -, -, -, -⟩ := invariant.stopped_transStop active running
  rw [dscTransStop, triggerTrans_eq stopped.tree, (triggerEach_sameFrame _ _).opsCount,
    transStop_opsCount]

theorem Invariant.dscDestroy_opsCount (invariant : Invariant state)
    (permitted : (Call.destroy node).Permitted state) :
    (dscDestroy state node).opsCount = state.opsCount := by
  obtain ⟨attached, childless, inactive, drained⟩ := permitted
  obtain ⟨-, frame, -⟩ := invariant.after_transFlush attached childless inactive
  have sameOps : update state.opsCount node 0 = state.opsCount := by rw [← drained, update_eq_self]
  simp only [dscDestroy, dscAssert, childless, drained]
  cases node <;> simp [setOps, setTrans, detach, frame.opsCount, sameOps]

/-- While a transition is active, no permitted call raises the operation count
of a related node. -/
theorem Invariant.opsCount_le (invariant : Invariant state) {call : Call}
    (permitted : call.Permitted state) (active : state.Active node) {other : Node}
    (related : other.Related node) : (call.run state).1.opsCount other ≤ state.opsCount other := by
  cases call with
  | create created allocated =>
    cases allocated with
    | false => exact Nat.le_refl _
    | true =>
      have attachOps : (state.attach created).opsCount = state.opsCount := by
        cases created <;> rfl
      simp only [Call.run, dscCreate, setOps, setTrans, attachOps]
      by_cases same : other = created
      · subst same
        simp
      · exact Nat.le_of_eq (update_of_ne same _ _)
  | destroy destroyed =>
    exact Nat.le_of_eq (congrFun (invariant.dscDestroy_opsCount permitted) other)
  | transStart platform thread started desc =>
    simp only [Call.run, dscTransStart]
    split
    · exact Nat.le_of_eq (congrFun (transStart_opsCount _ _ _) other)
    · exact Nat.le_refl _
  | transStartWait platform thread started desc =>
    simp only [Call.run, dscTransStartWait]
    split
    · exact Nat.le_of_eq (congrFun (transStart_opsCount _ _ _) other)
    · split <;> exact Nat.le_refl _
  | transStop thread stopped =>
    exact Nat.le_of_eq (congrFun (invariant.dscTransStop_opsCount permitted) other)
  | opStart platform thread started =>
    simp only [Call.run, dscOpStart]
    split
    · rename_i admitted
      have different : other ≠ started := by
        rintro rfl
        exact clear_of_canTrans invariant.tree admitted node related.symm active
      simp [opsInsert, setOps, update_of_ne different]
    · exact Nat.le_refl _
  | opStop thread stopped =>
    obtain ⟨_, _, inFlight⟩ := permitted
    have asserted : dscAssert (decide (state.opsCount stopped ≠ 0)) .opsCount state = state := by
      simp [dscAssert, inFlight]
    simp only [Call.run, opsRemove, asserted, setOps]
    by_cases same : other = stopped
    · subst same
      rw [update_self]
      omega
    · simp [update_of_ne same]
  | wakeUp thread =>
    simp only [Call.run, dscTranWait]
    split <;> exact Nat.le_refl _

/-! ## Whole runs -/

/-- A permitted call before and after which `tran` is the active transition of
the node. -/
def holding (node : Node) (tran : DscTran) : LabelledStep State Call :=
  guarded
    (fun state call => call.Permitted state ∧ (state.trans node).active = some tran ∧
      ((call.run state).1.trans node).active = some tran)
    fun state call => (call.run state).1

theorem Node.Subtree.related {root other : Node} (below : root.Subtree other) :
    other.Related root := by
  rcases below with rfl | above
  · exact .inl rfl
  · exact .inr (.inr above)

/-- While the transition is held, counts of the subtree only fall. -/
theorem opsCount_le_of_holding {final : State} {tran : DscTran}
    (reachable : Reachable state) (held : Reaches (holding node tran) state final)
    {other : Node} (below : node.Subtree other) :
    Reachable final ∧ final.opsCount other ≤ state.opsCount other := by
  refine @Reaches.invariant State Call _ _ _
    (fun target => Reachable target ∧ target.opsCount other ≤ state.opsCount other)
    held ⟨reachable, Nat.le_refl _⟩ ?_
  rintro source call _ ⟨sourceReachable, bound⟩ ⟨⟨permitted, active, _⟩, rfl⟩
  refine ⟨Reaches.tail sourceReachable ⟨permitted, rfl⟩, ?_⟩
  have isActive : source.Active node := by simp [Active, active]
  exact Nat.le_trans (sourceReachable.invariant.opsCount_le permitted isActive below.related) bound

/-- While a transition is active, no call raises an operation count on its path
or in its subtree. Once every node of the subtree was seen without operations,
each at its own moment, the subtree has none as long as the transition is
held. -/
theorem subtree_drained_while_held {tran : DscTran} (reachable : Reachable state)
    (active : (state.trans node).active = some tran) :
    (∀ (call : Call) (other : Node), call.Permitted state → other.Related node →
      (call.run state).1.opsCount other ≤ state.opsCount other) ∧
    ∀ final, Reaches (holding node tran) state final →
      (∀ other, node.Subtree other → state.Attached other →
        ∃ seen, Reaches (holding node tran) state seen ∧
          Reaches (holding node tran) seen final ∧ seen.opsCount other = 0) →
      ∀ other, node.Subtree other → final.opsCount other = 0 := by
  refine ⟨?_, ?_⟩
  · intro call other permitted related
    have isActive : state.Active node := by simp [Active, active]
    exact reachable.invariant.opsCount_le permitted isActive related
  · intro final held observed other below
    by_cases attached : state.Attached other
    · obtain ⟨seen, before, after, zero⟩ := observed other below attached
      have seenReachable := (opsCount_le_of_holding reachable before below).1
      have bound := (opsCount_le_of_holding seenReachable after below).2
      omega
    · have zero := (reachable.invariant.tree.idle other attached).2
      have bound := (opsCount_le_of_holding reachable held below).2
      omega

/-- The holder of the psoc transition sees the vdev operation end. -/
theorem subtree_drained_while_held_contended :
    ((Call.opStop 0 (.vdev 0 0)).run (runCalls .initial contendedCalls)).1.opsCount (.psoc 0) = 0 ∧
      ((Call.opStop 0 (.vdev 0 0)).run
        (runCalls .initial contendedCalls)).1.opsCount (.vdev 0 0) = 0 := by
  have reachable : Reachable (runCalls .initial contendedCalls) :=
    Reachable.runCalls (Reaches.refl step initial) (by decide)
  have stopped : holding (.psoc 0) ⟨0, 1, "probe"⟩ (runCalls .initial contendedCalls)
      (.opStop 0 (.vdev 0 0))
      ((Call.opStop 0 (.vdev 0 0)).run (runCalls .initial contendedCalls)).1 :=
    ⟨⟨by decide, by decide, by decide⟩, rfl⟩
  have held := Reaches.tail (Reaches.refl _ _) stopped
  have observed : ∀ other, Node.Subtree (.psoc 0) other →
      (runCalls .initial contendedCalls).Attached other →
      ((Call.opStop 0 (.vdev 0 0)).run
        (runCalls .initial contendedCalls)).1.opsCount other = 0 := by
    intro other below attached
    rcases below with rfl | above
    · decide
    · cases other with
      | driver | psoc p => exact above.elim
      | vdev p v =>
        cases above
        have isFirst : v = 0 := by
          have members : (runCalls .initial contendedCalls).vdevs 0 = [0] := by decide
          rw [Attached, members] at attached
          simpa using attached
        subst isFirst
        decide
  have drained := (subtree_drained_while_held reachable
    (by decide : ((runCalls .initial contendedCalls).trans (.psoc 0)).active =
      some ⟨0, 1, "probe"⟩)).2 _ held
    fun other below attached =>
      ⟨_, held, Reaches.refl _ _, observed other below attached⟩
  exact ⟨drained (.psoc 0) (.inl rfl), drained (.vdev 0 0) (.inr rfl)⟩

end Sm8650.Dsc
