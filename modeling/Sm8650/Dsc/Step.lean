import Sm8650.Dsc.Trigger

/-!
# Every call keeps the invariants

The admission checks are read as statements about related nodes, the wake-up
lists are shown to be free of conflicts and to leave no queue behind, and each
permitted call is then one short argument.
-/

namespace Sm8650.Dsc

open List Node Bool

variable {state : State} {node : Node}

/-! ## The admission checks -/

theorem psocTransActiveDownTree_iff (tree : Tree state) (p : Nat) :
    psocTransActiveDownTree state p = true ↔ ∃ v, state.Active (.vdev p v) := by
  simp only [psocTransActiveDownTree, any_eq_true, transActive_iff]
  constructor
  · rintro ⟨v, _, active⟩
    exact ⟨v, active⟩
  · rintro ⟨v, active⟩
    exact ⟨v, tree.attached_of_active active, active⟩

theorem driverTransActiveDownTree_iff (tree : Tree state) :
    driverTransActiveDownTree state = true ↔
      ∃ other : Node, Above .driver other ∧ state.Active other := by
  simp only [driverTransActiveDownTree, any_eq_true, or_eq_true,
    transActive_iff, psocTransActiveDownTree_iff tree]
  constructor
  · rintro ⟨p, _, active | ⟨v, active⟩⟩
    · exact ⟨.psoc p, trivial, active⟩
    · exact ⟨.vdev p v, trivial, active⟩
  · rintro ⟨other, above, active⟩
    have attached := tree.attached_of_active active
    cases other with
    | driver => exact above.elim
    | psoc p => exact ⟨p, attached, .inl active⟩
    | vdev p v => exact ⟨p, tree.psocAttached p v attached, .inr ⟨v, active⟩⟩

theorem driverCanTrigger_iff (tree : Tree state) :
    driverCanTrigger state = true ↔ ∀ other, ¬ state.Active other := by
  rw [driverCanTrigger, and_eq_true, not_eq_true', not_eq_true',
    ← not_eq_true, ← not_eq_true, transActive_iff,
    driverTransActiveDownTree_iff tree]
  constructor
  · rintro ⟨driverIdle, restIdle⟩ other active
    rcases related_driver other with rfl | above | below
    · exact driverIdle active
    · exact restIdle ⟨other, above, active⟩
    · cases other <;> exact below.elim
  · intro allIdle
    exact ⟨allIdle .driver, fun ⟨other, _, active⟩ => allIdle other active⟩

variable {other : Node}

/-- The nodes related to a psoc. -/
theorem Node.related_psoc_iff {p : Nat} :
    other.Related (.psoc p) ↔ other = .driver ∨ other = .psoc p ∨ ∃ v, other = .vdev p v := by
  cases other <;> simp [Related, Above, eq_comm]

/-- The nodes related to a vdev. -/
theorem Node.related_vdev_iff {p v : Nat} :
    other.Related (.vdev p v) ↔ other = .driver ∨ other = .psoc p ∨ other = .vdev p v := by
  cases other <;> simp [Related, Above]

theorem psocCanTrigger_iff (tree : Tree state) (p : Nat) :
    psocCanTrigger state p = true ↔
      ¬ state.Queued .driver ∧ ∀ other : Node, other.Related (.psoc p) → ¬ state.Active other := by
  rw [psocCanTrigger, and_eq_true, and_eq_true, not_eq_true',
    not_eq_true', not_eq_true', ← not_eq_true, ← not_eq_true,
    ← not_eq_true, transActiveOrQueued_iff, transActive_iff,
    psocTransActiveDownTree_iff tree]
  constructor
  · rintro ⟨⟨driverIdle, psocIdle⟩, vdevsIdle⟩
    refine ⟨fun queued => driverIdle (.inr queued), ?_⟩
    intro other related active
    rcases related_psoc_iff.mp related with rfl | rfl | ⟨v, rfl⟩
    · exact driverIdle (.inl active)
    · exact psocIdle active
    · exact vdevsIdle ⟨v, active⟩
  · rintro ⟨notQueued, clear⟩
    refine ⟨⟨?_, ?_⟩, ?_⟩
    · rintro (active | queued)
      · exact clear .driver (related_driver _) active
      · exact notQueued queued
    · exact clear (.psoc p) (.inl rfl)
    · rintro ⟨v, active⟩
      exact clear (.vdev p v) (.inr (.inr rfl)) active

/-- An admitted transition finds no related transition active. -/
theorem clear_of_canTrans (tree : Tree state) {platform : Platform}
    (admitted : canTrans state platform node = .success) (other : Node)
    (related : other.Related node) : ¬ state.Active other := by
  cases node with
  | driver =>
    have can : driverCanTrans state = true := by
      by_contra refused
      simp [canTrans, refused] at admitted
    rw [driverCanTrans, and_eq_true, not_eq_true', not_eq_true',
      ← not_eq_true, ← not_eq_true, transActiveOrQueued_iff,
      driverTransActiveDownTree_iff tree] at can
    intro active
    rcases related_driver other with rfl | above | below
    · exact can.1 (.inl active)
    · exact can.2 ⟨other, above, active⟩
    · cases other <;> exact below.elim
  | psoc p =>
    simp only [canTrans, psocCanTrans] at admitted
    split at admitted
    · cases admitted
    · split at admitted
      · cases admitted
      · rename_i driverIdle psocIdle
        rw [transActiveOrQueued_iff] at driverIdle
        rw [or_eq_true, transActiveOrQueued_iff, psocTransActiveDownTree_iff tree] at psocIdle
        intro active
        rcases related_psoc_iff.mp related with rfl | rfl | ⟨v, rfl⟩
        · exact driverIdle (.inl active)
        · exact psocIdle (.inl (.inl active))
        · exact psocIdle (.inr ⟨v, active⟩)
  | vdev p v =>
    simp only [canTrans, vdevCanTrans] at admitted
    split at admitted
    · cases admitted
    · split at admitted
      · cases admitted
      · split at admitted
        · split at admitted <;> cases admitted
        · split at admitted
          · cases admitted
          · rename_i driverIdle _ psocIdle vdevIdle
            rw [transActiveOrQueued_iff] at driverIdle psocIdle vdevIdle
            intro active
            rcases related_vdev_iff.mp related with rfl | rfl | rfl
            · exact driverIdle (.inl active)
            · exact psocIdle (.inl active)
            · exact vdevIdle (.inl active)

/-- A transition that is queued finds support, or others queued before it. -/
theorem support_of_waitsOn (tree : Tree state) {platform : Platform}
    (refused : canTrans state platform node ≠ .success)
    (waits : node.waitsOn (canTrans state platform node) = true) :
    state.Queued node ∨ Support state node := by
  cases node with
  | driver =>
    have cannot : driverCanTrans state = false := by
      by_contra can
      simp [canTrans, can] at refused
    rw [driverCanTrans, and_eq_false_iff, not_eq_false', not_eq_false',
      transActiveOrQueued_iff, driverTransActiveDownTree_iff tree] at cannot
    rcases cannot with (active | queued) | ⟨other, above, active⟩
    · exact .inr (.inl ⟨.driver, .inl rfl, active⟩)
    · exact .inl queued
    · exact .inr (.inl ⟨other, .inr (.inr above), active⟩)
  | psoc p =>
    simp only [canTrans, psocCanTrans] at refused waits
    split at waits
    · simp [waitsOn] at waits
    · split at waits
      · rename_i busy
        rw [or_eq_true, transActiveOrQueued_iff, psocTransActiveDownTree_iff tree] at busy
        rcases busy with (active | queued) | ⟨v, active⟩
        · exact .inr (.inl ⟨.psoc p, .inl rfl, active⟩)
        · exact .inl queued
        · exact .inr (.inl ⟨.vdev p v, .inr (.inr rfl), active⟩)
      · rename_i driverIdle psocIdle
        simp [driverIdle, psocIdle] at refused
  | vdev p v =>
    simp only [canTrans, vdevCanTrans] at refused waits
    split at waits
    · simp [waitsOn] at waits
    · split at waits
      · simp [waitsOn] at waits
      · split at waits
        · rename_i busy
          rw [transActiveOrQueued_iff] at busy
          rcases busy with active | queued
          · exact .inr (.inl ⟨.psoc p, .inr (.inl rfl), active⟩)
          · exact .inr (.inr ⟨.psoc p, rfl, queued⟩)
        · split at waits
          · rename_i busy
            rw [transActiveOrQueued_iff] at busy
            rcases busy with active | queued
            · exact .inr (.inl ⟨.vdev p v, .inl rfl, active⟩)
            · exact .inl queued
          · rename_i driverIdle recovering psocIdle vdevIdle
            simp [driverIdle, recovering, psocIdle, vdevIdle] at refused

/-! ## Stopping -/

/-- The state between the stop of a transition and the triggers. -/
structure Stopped (state : State) (node : Node) : Prop where
  tree : Tree state
  clear : ∀ other : Node, other.Related node → ¬ state.Active other
  supported : ∀ other, state.Queued other → ¬ node.Related other → Support state other

theorem wakeable_nil : Wakeable state [] :=
  ⟨nodup_nil, by simp, by simp⟩

theorem Node.not_above_self (node : Node) : ¬ node.Above node := by
  cases node <;> exact id

theorem wakeable_singleton (clear : ∀ other : Node, other.Related node → ¬ state.Active other) :
    Wakeable state [node] := by
  refine ⟨nodup_singleton _, ?_, ?_⟩
  · intro woken member _ other related
    rw [mem_singleton] at member
    subst member
    exact clear other related
  · intro upper upperMem lower lowerMem _ _
    rw [mem_singleton] at upperMem lowerMem
    subst upperMem lowerMem
    exact not_above_self _

/-- A non-empty driver queue supports itself or is triggered. -/
theorem covered_wakeDriverChecked (tree : Tree state) (queued : state.Queued .driver) :
    Covered state (wakeDriverChecked state) := by
  intro other _
  by_cases isDriver : other = .driver
  · subst isDriver
    refine .inl ?_
    unfold wakeDriverChecked
    split
    · exact ⟨.driver, .inl rfl, .inr ⟨mem_singleton_self _, queued⟩⟩
    · rename_i cannot
      rw [driverCanTrigger_iff tree] at cannot
      push Not at cannot
      obtain ⟨active, isActive⟩ := cannot
      exact ⟨active, (related_driver active).symm, .inl isActive⟩
  · refine .inr ⟨.driver, ?_, queued⟩
    cases other with
    | driver => exact absurd rfl isDriver
    | psoc p => trivial
    | vdev p v => trivial

theorem wakeable_wakeDriverChecked (tree : Tree state) :
    Wakeable state (wakeDriverChecked state) := by
  unfold wakeDriverChecked
  split
  · rename_i can
    exact wakeable_singleton fun other _ => (driverCanTrigger_iff tree).mp can other
  · exact wakeable_nil

theorem nodup_wakePsocOrVdevs (tree : Tree state) (p : Nat) : (wakePsocOrVdevs state p).Nodup := by
  unfold wakePsocOrVdevs
  split
  · exact nodup_singleton _
  · exact (tree.vdevsNodup p).map fun _ _ same => (vdev.inj same).2

/-- Nodes woken below one psoc are pairwise unrelated. -/
theorem apart_wakePsocOrVdevs {p q : Nat} {upper lower : Node}
    (upperMem : upper ∈ wakePsocOrVdevs state p)
    (lowerMem : lower ∈ wakePsocOrVdevs state q) : ¬ upper.Above lower := by
  intro above
  rcases mem_wakePsocOrVdevs upperMem with ⟨rfl, upperQueued⟩ | ⟨_, v, _, rfl⟩
  · rcases mem_wakePsocOrVdevs lowerMem with ⟨rfl, _⟩ | ⟨notQueued, w, _, rfl⟩
    · exact above.elim
    · cases above
      rw [upperQueued] at notQueued
      cases notQueued
  · cases lower <;> exact above.elim

theorem nodup_flatMap_wake (tree : Tree state) {psocs : List Nat} (nodup : psocs.Nodup) :
    (psocs.flatMap (wakePsocOrVdevs state)).Nodup := by
  rw [nodup_flatMap]
  refine ⟨fun p _ => nodup_wakePsocOrVdevs tree p, ?_⟩
  refine nodup.imp ?_
  intro p q different other inFirst inSecond
  rcases mem_wakePsocOrVdevs inFirst with ⟨rfl, _⟩ | ⟨_, v, _, rfl⟩
  · rcases mem_wakePsocOrVdevs inSecond with ⟨same, _⟩ | ⟨_, w, _, same⟩
    · exact different (psoc.inj same)
    · cases same
  · rcases mem_wakePsocOrVdevs inSecond with ⟨same, _⟩ | ⟨_, w, _, same⟩
    · cases same
    · exact different (vdev.inj same).1

/-- Queues at and below a psoc are woken, or stand below the psoc's own. -/
theorem covered_below_psoc {nodes : List Node} {p : Nat} (tree : Tree state)
    (woken : ∀ other ∈ wakePsocOrVdevs state p, other ∈ nodes)
    (below : other = .psoc p ∨ ∃ v, other = .vdev p v) (queued : state.Queued other) :
    (∃ active : Node, active.Related other ∧
      (state.Active active ∨ (active ∈ nodes ∧ state.Queued active))) ∨
    ∃ upper : Node, upper.Above other ∧ state.Queued upper := by
  rcases below with rfl | ⟨v, rfl⟩
  · refine .inl ⟨.psoc p, .inl rfl, .inr ⟨woken _ ?_, queued⟩⟩
    simp [wakePsocOrVdevs, transQueued_iff.mpr queued]
  · by_cases psocQueued : state.Queued (.psoc p)
    · exact .inr ⟨.psoc p, rfl, psocQueued⟩
    · refine .inl ⟨.vdev p v, .inl rfl, .inr ⟨woken _ ?_, queued⟩⟩
      have notQueued : ¬ transQueued state (.psoc p) = true := by rwa [transQueued_iff]
      rw [wakePsocOrVdevs, if_neg notQueued]
      exact mem_map_of_mem (tree.attached_of_queued queued)

/-- Support that does not depend on the stopped node remains. -/
theorem Stopped.covers (stopped : Stopped state node) {nodes : List Node}
    (queued : state.Queued other) (unrelated : ¬ node.Related other) :
    (∃ active : Node, active.Related other ∧
      (state.Active active ∨ (active ∈ nodes ∧ state.Queued active))) ∨
    ∃ upper : Node, upper.Above other ∧ state.Queued upper := by
  rcases stopped.supported other queued unrelated with ⟨active, related, isActive⟩ | above
  · exact .inl ⟨active, related, .inl isActive⟩
  · exact .inr above

theorem Stopped.wakeList_driver (stopped : Stopped state .driver) :
    Wakeable state (wakeList state .driver) ∧ Covered state (wakeList state .driver) := by
  have allClear : ∀ other, ¬ state.Active other := fun other =>
    stopped.clear other (related_driver other).symm
  simp only [wakeList]
  split
  · rename_i queued
    have can : driverCanTrigger state = true :=
      (driverCanTrigger_iff stopped.tree).mpr allClear
    have covered := covered_wakeDriverChecked stopped.tree (transQueued_iff.mp queued)
    rw [wakeDriverChecked, if_pos can] at covered
    exact ⟨wakeable_singleton fun other _ => allClear other, covered⟩
  · rename_i notQueued
    rw [transQueued_iff] at notQueued
    refine ⟨⟨nodup_flatMap_wake stopped.tree stopped.tree.psocsNodup,
      fun _ _ _ other _ => allClear other, ?_⟩, ?_⟩
    · intro upper upperMem lower lowerMem _ _
      obtain ⟨p, _, inUpper⟩ := mem_flatMap.mp upperMem
      obtain ⟨q, _, inLower⟩ := mem_flatMap.mp lowerMem
      exact apart_wakePsocOrVdevs inUpper inLower
    · intro other queued
      have attached := stopped.tree.attached_of_queued queued
      have below : ∀ p ∈ state.psocs, (other = .psoc p ∨ ∃ v, other = .vdev p v) → _ :=
        fun p member isBelow => covered_below_psoc stopped.tree
          (fun _ woken => mem_flatMap.mpr ⟨p, member, woken⟩) isBelow queued
      cases other with
      | driver => exact absurd queued notQueued
      | psoc p => exact below p attached (.inl rfl)
      | vdev p v =>
        exact below p (stopped.tree.psocAttached p v attached) (.inr ⟨v, rfl⟩)

theorem Stopped.wakeList_psoc {p : Nat} (stopped : Stopped state (.psoc p)) :
    Wakeable state (wakeList state (.psoc p)) ∧ Covered state (wakeList state (.psoc p)) := by
  simp only [wakeList]
  split
  · rename_i queued
    exact ⟨wakeable_wakeDriverChecked stopped.tree,
      covered_wakeDriverChecked stopped.tree (transQueued_iff.mp queued)⟩
  · rename_i notQueued
    rw [transQueued_iff] at notQueued
    refine ⟨⟨nodup_wakePsocOrVdevs stopped.tree p, ?_, ?_⟩, ?_⟩
    · intro woken member _ other related
      refine stopped.clear other ?_
      rcases mem_wakePsocOrVdevs member with ⟨rfl, _⟩ | ⟨_, v, _, rfl⟩
      · exact related
      · rcases related_vdev_iff.mp related with rfl | rfl | rfl
        · exact related_driver _
        · exact .inl rfl
        · exact .inr (.inr rfl)
    · intro upper upperMem lower lowerMem _ _
      exact apart_wakePsocOrVdevs upperMem lowerMem
    · intro other queued
      by_cases related : Related (.psoc p) other
      · rcases related_psoc_iff.mp related.symm with rfl | below
        · exact absurd queued notQueued
        · exact covered_below_psoc stopped.tree (fun _ woken => woken) below queued
      · exact stopped.covers queued related

theorem Stopped.wakeList_vdev {p v : Nat} (stopped : Stopped state (.vdev p v)) :
    Wakeable state (wakeList state (.vdev p v)) ∧ Covered state (wakeList state (.vdev p v)) := by
  simp only [wakeList]
  split
  · rename_i queued
    exact ⟨wakeable_wakeDriverChecked stopped.tree,
      covered_wakeDriverChecked stopped.tree (transQueued_iff.mp queued)⟩
  · rename_i driverNotQueued
    rw [transQueued_iff] at driverNotQueued
    split
    · rename_i psocQueued
      rw [transQueued_iff] at psocQueued
      refine ⟨?_, ?_⟩
      · unfold wakePsocChecked
        split
        · rename_i can
          rw [psocCanTrigger_iff stopped.tree] at can
          exact wakeable_singleton can.2
        · exact wakeable_nil
      · intro other queued
        by_cases related : Related (.psoc p) other
        · rcases related_psoc_iff.mp related.symm with rfl | rfl | ⟨w, rfl⟩
          · exact absurd queued driverNotQueued
          · refine .inl ?_
            unfold wakePsocChecked
            split
            · exact ⟨.psoc p, .inl rfl, .inr ⟨mem_singleton_self _, queued⟩⟩
            · rename_i cannot
              rw [psocCanTrigger_iff stopped.tree] at cannot
              push Not at cannot
              obtain ⟨active, activeRelated, isActive⟩ := cannot driverNotQueued
              exact ⟨active, activeRelated, .inl isActive⟩
          · exact .inr ⟨.psoc p, rfl, psocQueued⟩
        · refine stopped.covers queued ?_
          intro vdevRelated
          apply related
          rcases related_vdev_iff.mp vdevRelated.symm with rfl | rfl | rfl
          · exact (related_driver _).symm
          · exact .inl rfl
          · exact .inr (.inl rfl)
    · rename_i psocNotQueued
      rw [transQueued_iff] at psocNotQueued
      refine ⟨wakeable_singleton stopped.clear, ?_⟩
      intro other queued
      by_cases related : Related (.vdev p v) other
      · rcases related_vdev_iff.mp related.symm with rfl | rfl | rfl
        · exact absurd queued driverNotQueued
        · exact absurd queued psocNotQueued
        · exact .inl ⟨.vdev p v, .inl rfl, .inr ⟨mem_singleton_self _, queued⟩⟩
      · exact stopped.covers queued related

/-- After every stop the triggered nodes are free of conflicts and no queue is
left without support. -/
theorem Stopped.wakeList (stopped : Stopped state node) :
    Wakeable state (wakeList state node) ∧ Covered state (wakeList state node) := by
  cases node with
  | driver => exact stopped.wakeList_driver
  | psoc p => exact stopped.wakeList_psoc
  | vdev p v => exact stopped.wakeList_vdev

end Sm8650.Dsc
