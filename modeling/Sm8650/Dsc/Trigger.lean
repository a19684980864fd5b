import Sm8650.Dsc.Invariant

/-!
# What a stop wakes up

The three trigger functions walk different parts of the tree and test
different conditions, but each of them triggers a list of nodes that can be
read off the state left by the stop. `wakeList` is that list; exclusion and
support after the stop are properties of the list.
-/

namespace Sm8650.Dsc

open List Function State

variable {state : State} {node : Node}

/-! ## One trigger -/

/-- The container after its queue, if non-empty, gave up its head. -/
def DscTrans.pop : DscTrans → DscTrans
  | ⟨active, []⟩ => ⟨active, []⟩
  | ⟨_, tran :: rest⟩ => ⟨some tran, rest⟩

theorem transTrigger_of_nil (queue : (state.trans node).queue = []) :
    transTrigger state node = (state, false) := by
  simp [transTrigger, transDequeue, queue]

theorem transTrigger_of_cons {tran : DscTran} {rest : List DscTran}
    (queue : (state.trans node).queue = tran :: rest) :
    transTrigger state node =
      ((dscAssert (!transActive state node) .transNotActive state).release node tran
        ⟨some tran, rest⟩ false, true) := by
  cases active : (state.trans node).active <;>
    simp [transTrigger, transDequeue, queue, transStart, transActive, active, dscAssert,
      release, setTrans, setEvent, record]

theorem transTrigger_snd (state : State) (node : Node) :
    (transTrigger state node).2 = transQueued state node := by
  cases queue : (state.trans node).queue with
  | nil => simp [transTrigger_of_nil queue, transQueued, queue]
  | cons tran rest => simp [transTrigger_of_cons queue, transQueued, queue]

theorem transTrigger_trans (state : State) (node : Node) :
    (transTrigger state node).1.trans = update state.trans node (state.trans node).pop := by
  cases queue : (state.trans node).queue with
  | nil =>
    have popped : (state.trans node).pop = state.trans node := by
      cases trans : state.trans node
      rw [trans] at queue
      cases queue
      rfl
    simp [transTrigger_of_nil queue, popped]
  | cons tran rest =>
    have popped : (state.trans node).pop = ⟨some tran, rest⟩ := by
      cases trans : state.trans node
      rw [trans] at queue
      cases queue
      rfl
    rw [transTrigger_of_cons queue, popped]
    unfold dscAssert
    split <;> rfl

/-- The parts of the state that triggers do not touch. -/
structure SameFrame (state next : State) : Prop where
  driver : next.driver = state.driver
  psocs : next.psocs = state.psocs
  vdevs : next.vdevs = state.vdevs
  opsCount : next.opsCount = state.opsCount
  nextTicket : next.nextTicket = state.nextTicket

theorem SameFrame.refl (state : State) : SameFrame state state :=
  ⟨rfl, rfl, rfl, rfl, rfl⟩

theorem SameFrame.trans {first second third : State} (left : SameFrame first second)
    (right : SameFrame second third) : SameFrame first third :=
  ⟨right.driver.trans left.driver, right.psocs.trans left.psocs,
    right.vdevs.trans left.vdevs, right.opsCount.trans left.opsCount,
    right.nextTicket.trans left.nextTicket⟩

theorem transTrigger_sameFrame (state : State) (node : Node) :
    SameFrame state (transTrigger state node).1 := by
  cases queue : (state.trans node).queue with
  | nil =>
    rw [transTrigger_of_nil queue]
    exact SameFrame.refl state
  | cons tran rest =>
    rw [transTrigger_of_cons queue]
    unfold dscAssert
    split <;> exact ⟨rfl, rfl, rfl, rfl, rfl⟩

/-! ## Triggering a list of nodes -/

def triggerEach (state : State) (nodes : List Node) : State :=
  nodes.foldl (fun state node => (transTrigger state node).1) state

theorem triggerEach_cons (state : State) (node : Node) (nodes : List Node) :
    triggerEach state (node :: nodes) = triggerEach (transTrigger state node).1 nodes := rfl

theorem triggerEach_append (state : State) (first second : List Node) :
    triggerEach state (first ++ second) = triggerEach (triggerEach state first) second :=
  foldl_append

theorem triggerEach_sameFrame (state : State) (nodes : List Node) :
    SameFrame state (triggerEach state nodes) := by
  induction nodes generalizing state with
  | nil => exact SameFrame.refl state
  | cons node nodes ih =>
    exact (transTrigger_sameFrame state node).trans (ih _)

theorem triggerEach_trans_of_not_mem {nodes : List Node} (notMem : node ∉ nodes) :
    (triggerEach state nodes).trans node = state.trans node := by
  induction nodes generalizing state with
  | nil => rfl
  | cons first nodes ih =>
    have different : node ≠ first := fun same => notMem (same ▸ mem_cons_self)
    have notRest : node ∉ nodes := fun member => notMem (mem_cons_of_mem _ member)
    rw [triggerEach_cons, ih notRest, transTrigger_trans, update_of_ne different]

theorem triggerEach_trans_of_mem {nodes : List Node} (nodup : nodes.Nodup) (member : node ∈ nodes) :
    (triggerEach state nodes).trans node = (state.trans node).pop := by
  induction nodes generalizing state with
  | nil => cases member
  | cons first nodes ih =>
    obtain ⟨firstNotMem, restNodup⟩ := nodup_cons.mp nodup
    rw [triggerEach_cons]
    rcases mem_cons.mp member with rfl | inRest
    · rw [triggerEach_trans_of_not_mem firstNotMem, transTrigger_trans, update_self]
    · have different : node ≠ first := by
        rintro rfl
        exact firstNotMem inRest
      rw [ih restNodup inRest, transTrigger_trans, update_of_ne different]

theorem DscTrans.pop_active {trans : DscTrans} :
    trans.pop.active ≠ none ↔ trans.active ≠ none ∨ trans.queue ≠ [] := by
  rcases trans with ⟨active, _ | ⟨tran, rest⟩⟩ <;> simp [DscTrans.pop]

theorem DscTrans.queue_of_pop {trans : DscTrans} (queued : trans.pop.queue ≠ []) :
    trans.queue ≠ [] := by
  rcases trans with ⟨active, _ | ⟨tran, rest⟩⟩
  · exact absurd rfl queued
  · simp

section Each

variable {nodes : List Node}

theorem triggerEach_active_iff (nodup : nodes.Nodup) :
    (triggerEach state nodes).Active node ↔
      state.Active node ∨ (node ∈ nodes ∧ state.Queued node) := by
  by_cases member : node ∈ nodes
  · simp [Active, Queued, triggerEach_trans_of_mem nodup member, member, DscTrans.pop_active]
  · simp [Active, triggerEach_trans_of_not_mem member, member]

theorem triggerEach_queued_of (nodup : nodes.Nodup)
    (queued : (triggerEach state nodes).Queued node) : state.Queued node := by
  by_cases member : node ∈ nodes
  · rw [Queued, triggerEach_trans_of_mem nodup member] at queued
    exact DscTrans.queue_of_pop queued
  · rwa [Queued, triggerEach_trans_of_not_mem member] at queued

/-- A list of attached nodes without active transition is triggered without
failing an assertion, and the bookkeeping follows. -/
theorem triggerEach_bookkeeping (tree : Tree state) (waiting : Waiting state)
    (logged : Logged state) (unfailed : state.failed = []) (nodup : nodes.Nodup)
    (inactive : ∀ node ∈ nodes, state.Queued node → ¬ state.Active node) :
    Tree (triggerEach state nodes) ∧ Waiting (triggerEach state nodes) ∧
      Logged (triggerEach state nodes) ∧ (triggerEach state nodes).failed = [] := by
  induction nodes generalizing state with
  | nil => exact ⟨tree, waiting, logged, unfailed⟩
  | cons first nodes ih =>
    obtain ⟨firstNotMem, restNodup⟩ := nodup_cons.mp nodup
    rw [triggerEach_cons]
    have transEq := transTrigger_trans state first
    have restInactive : ∀ node ∈ nodes, (transTrigger state first).1.Queued node →
        ¬ (transTrigger state first).1.Active node := by
      intro other member
      have different : other ≠ first := by
        rintro rfl
        exact firstNotMem member
      simp only [Queued, Active, transEq, update_of_ne different]
      exact inactive other (mem_cons_of_mem _ member)
    cases queue : (state.trans first).queue with
    | nil =>
      rw [transTrigger_of_nil queue] at restInactive ⊢
      exact ih tree waiting logged unfailed restNodup restInactive
    | cons tran rest =>
      have queued : state.Queued first := by simp [Queued, queue]
      have firstInactive := inactive first mem_cons_self queued
      have noActive : (state.trans first).active = none := not_not.mp firstInactive
      have asserted : dscAssert (!transActive state first) .transNotActive state = state := by
        simp [dscAssert, transActive, noActive]
      rw [transTrigger_of_cons queue, asserted] at restInactive ⊢
      refine ih (tree.release (tree.attached_of_queued queued))
        (waiting.release queue ?_ (fun _ => rfl)) (logged.release queue) unfailed
        restNodup restInactive
      intro old isOld
      rw [noActive] at isOld
      cases isOld

/-- The list is woken without conflict: a woken node is related neither to an
active one nor to another woken one. -/
structure Wakeable (state : State) (nodes : List Node) : Prop where
  nodup : nodes.Nodup
  clear : ∀ node ∈ nodes, state.Queued node →
    ∀ other : Node, other.Related node → ¬ state.Active other
  apart : ∀ upper ∈ nodes, ∀ lower ∈ nodes, state.Queued upper → state.Queued lower →
    ¬ upper.Above lower

/-- Every non-empty queue keeps its support or is woken. -/
def Covered (state : State) (nodes : List Node) : Prop :=
  ∀ node, state.Queued node →
    (∃ other : Node, other.Related node ∧
      (state.Active other ∨ (other ∈ nodes ∧ state.Queued other))) ∨
    ∃ upper : Node, upper.Above node ∧ state.Queued upper

theorem Wakeable.exclusive (wakeable : Wakeable state nodes)
    (exclusive : Exclusive state) : Exclusive (triggerEach state nodes) := by
  intro upper lower above upperActive lowerActive
  rw [triggerEach_active_iff wakeable.nodup] at upperActive lowerActive
  rcases upperActive with upperActive | ⟨upperMem, upperQueued⟩
  · rcases lowerActive with lowerActive | ⟨lowerMem, lowerQueued⟩
    · exact exclusive upper lower above upperActive lowerActive
    · exact wakeable.clear lower lowerMem lowerQueued upper (.inr (.inl above)) upperActive
  · rcases lowerActive with lowerActive | ⟨lowerMem, lowerQueued⟩
    · exact wakeable.clear upper upperMem upperQueued lower (.inr (.inr above)) lowerActive
    · exact wakeable.apart upper upperMem lower lowerMem upperQueued lowerQueued above

theorem Covered.supported (covered : Covered state nodes) (nodup : nodes.Nodup) :
    Supported (triggerEach state nodes) := by
  intro node queued
  have covers := covered node (triggerEach_queued_of nodup queued)
  rcases covers with ⟨other, related, active⟩ | ⟨upper, above, upperQueued⟩
  · exact .inl ⟨other, related, (triggerEach_active_iff nodup).mpr active⟩
  · by_cases member : upper ∈ nodes
    · exact .inl ⟨upper, .inr (.inl above),
        (triggerEach_active_iff nodup).mpr (.inr ⟨member, upperQueued⟩)⟩
    · refine .inr ⟨upper, above, ?_⟩
      rwa [Queued, triggerEach_trans_of_not_mem member]

end Each

/-! ## The list woken by each trigger function -/

/-- The nodes of one psoc that are triggered together. -/
def wakePsocOrVdevs (state : State) (p : Nat) : List Node :=
  if transQueued state (.psoc p) then [.psoc p] else (state.vdevs p).map (.vdev p)

/-- The driver when its queue is non-empty and nothing is active. -/
def wakeDriverChecked (state : State) : List Node :=
  if driverCanTrigger state then [.driver] else []

def wakePsocChecked (state : State) (p : Nat) : List Node :=
  if psocCanTrigger state p then [.psoc p] else []

/-- The nodes triggered after the transition of the given node was stopped. -/
def wakeList (state : State) : Node → List Node
  | .driver =>
    if transQueued state .driver then [.driver]
    else state.psocs.flatMap (wakePsocOrVdevs state)
  | .psoc p =>
    if transQueued state .driver then wakeDriverChecked state
    else wakePsocOrVdevs state p
  | .vdev p v =>
    if transQueued state .driver then wakeDriverChecked state
    else if transQueued state (.psoc p) then wakePsocChecked state p
    else [.vdev p v]

theorem not_transQueued_iff : transQueued state node = false ↔ (state.trans node).queue = [] := by
  simp [transQueued]

theorem triggerVdevs_eq (state : State) (p : Nat) :
    triggerVdevs state p = triggerEach state ((state.vdevs p).map (.vdev p)) := by
  rw [triggerVdevs, triggerEach, foldl_map]

theorem triggerPsocOrVdevs_eq (state : State) (p : Nat) :
    triggerPsocOrVdevs state p = triggerEach state (wakePsocOrVdevs state p) := by
  unfold triggerPsocOrVdevs wakePsocOrVdevs
  have triggered := transTrigger_snd state (.psoc p)
  cases queued : transQueued state (.psoc p) with
  | true =>
    rw [queued] at triggered
    rcases result : transTrigger state (.psoc p) with ⟨next, handled⟩
    rw [result] at triggered
    cases triggered
    simp [triggerEach, result]
  | false =>
    rw [transTrigger_of_nil (not_transQueued_iff.mp queued)]
    simp [triggerVdevs_eq]

theorem mem_wakePsocOrVdevs {p : Nat} (member : node ∈ wakePsocOrVdevs state p) :
    node = .psoc p ∧ transQueued state (.psoc p) = true ∨
      transQueued state (.psoc p) = false ∧ ∃ v ∈ state.vdevs p, node = .vdev p v := by
  unfold wakePsocOrVdevs at member
  cases queued : transQueued state (.psoc p) with
  | true =>
    simp only [queued, if_true, mem_singleton] at member
    exact .inl ⟨member, rfl⟩
  | false =>
    simp only [queued, Bool.false_eq_true, if_false, mem_map] at member
    obtain ⟨v, attached, rfl⟩ := member
    exact .inr ⟨rfl, v, attached, rfl⟩

theorem foldl_triggerPsocOrVdevs {psocs : List Nat} (nodup : psocs.Nodup) :
    psocs.foldl triggerPsocOrVdevs state =
      triggerEach state (psocs.flatMap (wakePsocOrVdevs state)) := by
  induction psocs generalizing state with
  | nil => rfl
  | cons p psocs ih =>
    obtain ⟨notMem, restNodup⟩ := nodup_cons.mp nodup
    rw [foldl_cons, ih restNodup, triggerPsocOrVdevs_eq, flatMap_cons, triggerEach_append]
    congr 1
    refine flatMap_congr ?_
    intro q member
    have different : q ≠ p := by
      rintro rfl
      exact notMem member
    have untouched : Node.psoc q ∉ wakePsocOrVdevs state p := by
      intro woken
      rcases mem_wakePsocOrVdevs woken with ⟨isPsoc, _⟩ | ⟨_, v, _, isVdev⟩
      · exact different (Node.psoc.inj isPsoc)
      · cases isVdev
    rw [wakePsocOrVdevs, transQueued, triggerEach_trans_of_not_mem untouched,
      (triggerEach_sameFrame state (wakePsocOrVdevs state p)).vdevs]
    rfl

theorem driverTransTriggerChecked_eq (state : State) :
    driverTransTriggerChecked state =
      if transQueued state .driver then (triggerEach state (wakeDriverChecked state), true)
      else (state, false) := by
  unfold driverTransTriggerChecked wakeDriverChecked
  have triggered := transTrigger_snd state .driver
  cases queued : transQueued state .driver with
  | false => simp
  | true =>
    rw [queued] at triggered
    cases can : driverCanTrigger state with
    | false => simp [triggerEach]
    | true => simp [triggerEach, ← triggered]

theorem psocTransTriggerChecked_eq (state : State) (p : Nat) :
    psocTransTriggerChecked state p =
      if transQueued state (.psoc p) then
        (triggerEach state (wakePsocChecked state p), true)
      else (state, false) := by
  unfold psocTransTriggerChecked wakePsocChecked
  have triggered := transTrigger_snd state (.psoc p)
  cases queued : transQueued state (.psoc p) with
  | false =>
    have empty := not_transQueued_iff.mp queued
    simp [empty]
  | true =>
    rw [queued] at triggered
    have nonempty : (state.trans (.psoc p)).queue.isEmpty = false := by
      simpa [transQueued] using queued
    cases can : psocCanTrigger state p with
    | false => simp [triggerEach, nonempty]
    | true =>
      simp only [nonempty, Bool.not_true, Bool.false_eq_true, if_false, if_true,
        triggerEach, foldl_cons, foldl_nil]
      rw [← triggered]

/-- Every trigger function triggers its `wakeList`. -/
theorem triggerTrans_eq (tree : Tree state) (node : Node) :
    triggerTrans state node = triggerEach state (wakeList state node) := by
  cases node with
  | driver =>
    have triggered := transTrigger_snd state .driver
    unfold triggerTrans driverTriggerTrans wakeList
    cases queued : transQueued state .driver with
    | true =>
      rw [queued] at triggered
      rcases result : transTrigger state .driver with ⟨next, handled⟩
      rw [result] at triggered
      cases triggered
      simp [triggerEach, result]
    | false =>
      rw [transTrigger_of_nil (not_transQueued_iff.mp queued)]
      simpa using foldl_triggerPsocOrVdevs tree.psocsNodup
  | psoc p =>
    unfold triggerTrans psocTriggerTrans wakeList
    rw [driverTransTriggerChecked_eq]
    cases queued : transQueued state .driver with
    | true => simp
    | false => simp [triggerPsocOrVdevs_eq]
  | vdev p v =>
    unfold triggerTrans vdevTriggerTrans wakeList
    rw [driverTransTriggerChecked_eq]
    cases queued : transQueued state .driver with
    | true => simp
    | false =>
      simp only [Bool.false_eq_true, if_false]
      rw [psocTransTriggerChecked_eq]
      cases psocQueued : transQueued state (.psoc p) with
      | true => simp
      | false => simp [triggerEach]

end Sm8650.Dsc
