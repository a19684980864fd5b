import Sm8650.Synx.Calls
import Sm8650.Synx.Graph

/-!
# Several calls on one leaf

Calls of `synx_global_update_status` on one leaf interleave by sections. As long as no
call enters its second section after another call has signaled the leaf, exactly one of
them succeeds and the parents are told once.
-/

namespace Sm8650.Synx

open Transition List Shared

variable {n : Nat}

/-- The calls, and what they share. -/
structure SignalSystem (n : Nat) where
  shared : Shared
  calls : Fin n → SignalCall

/-- Call `i` runs its next section. -/
def SignalSystem.step (state : SignalSystem n) (i : Fin n) : SignalSystem n :=
  let result := (state.calls i).step state.shared
  ⟨result.2, Function.update state.calls i result.1⟩

/-- Calls on `leaf` with the given statuses, before their first section. -/
def SignalSystem.start (table : Table) (leaf : Nat) (statuses : Fin n → Nat) : SignalSystem n where
  shared := ⟨table, [], []⟩
  calls i := ⟨leaf, statuses i, .check⟩

/-- A call that has passed the check finds the leaf still unsignaled. -/
def Undisturbed (leaf : Nat) (state : SignalSystem n) (i : Fin n) : Prop :=
  (state.calls i).phase = .object → (state.shared.table leaf).status = active

/-- How often `parent` has been told about `child`. -/
def Shared.toldFor (shared : Shared) (child parent : Nat) : Nat :=
  shared.told.countP fun told => decide (told.child = child ∧ told.parent = parent)

/-- All calls have returned. -/
def SignalSystem.Returned (state : SignalSystem n) : Prop :=
  ∀ i, ∃ rc, (state.calls i).phase = .returned rc

/-- One call succeeds and the others find the leaf signaled, its status does not change
once it is signaled, and every parent named by the leaf is told once for every slot that
names it, each time with one child less to wait for. -/
structure ExactlyOnce (table : Table) (leaf : Nat) (guard : SignalSystem n → Fin n → Prop)
    (state : SignalSystem n) : Prop where
  unique : ∀ i j, (state.calls i).phase = .returned 0 → (state.calls j).phase = .returned 0 → i = j
  results : ∀ i rc, (state.calls i).phase = .returned rc → rc = 0 ∨ rc = already
  succeeds : 0 < n → state.Returned → ∃ i, (state.calls i).phase = .returned 0
  stable : ∀ later, Reaches (guarded guard SignalSystem.step) state later →
    (state.shared.table leaf).status ≠ active →
      (later.shared.table leaf).status = (state.shared.table leaf).status
  counted : ∀ told ∈ state.shared.told, told.counted = true
  atMost : ∀ parent, state.shared.toldFor leaf parent ≤ (table leaf).slotCount parent
  told : 0 < n → state.Returned →
    ∀ parent, state.shared.toldFor leaf parent = (table leaf).slotCount parent

/-! ## Before and after the signal -/

section Invariant

variable (world : World) (leaf : Nat) (statuses : Fin n → Nat)

/-- What does not change during the calls. -/
def Fixed (state : SignalSystem n) : Prop :=
  ∀ i, (state.calls i).idx = leaf ∧ (state.calls i).status = statuses i

/-- No call has run its second section. -/
structure Before (state : SignalSystem n) : Prop where
  fixed : Fixed leaf statuses state
  table : state.shared.table = world.table
  told : state.shared.told = []
  phases : ∀ i, (state.calls i).phase = .check ∨ (state.calls i).phase = .object

/-- Call `winner` has signaled the leaf and has still to tell `work`. -/
structure After (winner : Fin n) (work : List (Nat × Nat)) (state : SignalSystem n) : Prop where
  fixed : Fixed leaf statuses state
  phase : (state.calls winner).phase = .parents work ∨
    (work = [] ∧ (state.calls winner).phase = .returned 0)
  others : ∀ i, i ≠ winner → (state.calls i).phase = .check ∨ (state.calls i).phase = .object ∨
    (state.calls i).phase = .returned already
  linked : Linked ⟨state.shared.table, world.children⟩ (work.map Prod.snd)
  status : (state.shared.table leaf).status = statuses winner
  noChild : (state.shared.table leaf).numChild = 0
  counted : ∀ told ∈ state.shared.told, told.counted = true
  tells : ∀ parent, state.shared.toldFor leaf parent + work.count (leaf, parent) =
    (world.table leaf).slotCount parent

end Invariant

variable {world : World} {leaf : Nat} {statuses : Fin n → Nat} {state : SignalSystem n}

/-- The calls are on an unsignaled leaf of a graph, with statuses that signal. -/
structure Callable (world : World) (leaf : Nat) (statuses : Fin n → Nat) : Prop where
  linked : Linked world []
  isLeaf : world.children leaf = []
  unsignaled : (world.table leaf).status = active
  signals : ∀ i, active < statuses i

namespace Callable

variable (callable : Callable world leaf statuses)

include callable

theorem noChild : (world.table leaf).numChild = 0 :=
  callable.linked.wired.leaf leaf callable.isLeaf

theorem validIdx : validIdx leaf = true := by
  have existing : (world.table leaf).status ≠ 0 := by
    rw [callable.unsignaled]
    decide
  simpa [Synx.validIdx] using (callable.linked.wired.bounded leaf existing).2

theorem passes : updateStatusCheck world.table leaf = none := by
  simp [updateStatusCheck, callable.noChild, callable.unsignaled]

end Callable

theorem Fixed.step (fixed : Fixed leaf statuses state) (i : Fin n) :
    Fixed leaf statuses (state.step i) := by
  have kept : ((state.calls i).step state.shared).1.idx = (state.calls i).idx ∧
      ((state.calls i).step state.shared).1.status = (state.calls i).status := by
    unfold SignalCall.step
    split
    · split
      · exact ⟨rfl, rfl⟩
      · split <;> exact ⟨rfl, rfl⟩
    all_goals exact ⟨rfl, rfl⟩
  intro j
  unfold SignalSystem.step
  by_cases equal : j = i
  · subst equal
    simpa [kept.1, kept.2] using fixed j
  · simpa [equal] using fixed j

theorem Fixed.call_eq (fixed : Fixed leaf statuses state) {i : Fin n} {phase : SignalPhase}
    (reached : (state.calls i).phase = phase) : state.calls i = ⟨leaf, statuses i, phase⟩ := by
  obtain ⟨idx, status⟩ := fixed i
  cases call : state.calls i
  rw [call] at idx status reached
  subst idx status reached
  rfl

theorem SignalSystem.step_calls_self (state : SignalSystem n) (i : Fin n) :
    (state.step i).calls i = ((state.calls i).step state.shared).1 := by
  simp [step]

theorem SignalSystem.step_calls_of_ne (state : SignalSystem n) {i j : Fin n} (different : j ≠ i) :
    (state.step i).calls j = state.calls j := by
  simp [step, different]

theorem SignalSystem.step_shared (state : SignalSystem n) (i : Fin n) :
    (state.step i).shared = ((state.calls i).step state.shared).2 := rfl

/-- The section that signals the leaf. -/
theorem Before.signal (callable : Callable world leaf statuses)
    (before : Before world leaf statuses state) {i : Fin n}
    (enters : (state.calls i).phase = .object) :
    After world leaf statuses i
      ((world.table leaf).parentList.map fun parent => (leaf, parent)) (state.step i) := by
  have next : (state.calls i).step state.shared =
      (⟨leaf, statuses i, .parents (state.shared.toTell leaf (statuses i))⟩,
        state.shared.update leaf (statuses i)) := by
    rw [before.fixed.call_eq enters]
    rfl
  obtain ⟨table, parents⟩ := updateSection_leaf (statuses i) callable.noChild
  have toTell : state.shared.toTell leaf (statuses i) =
      (world.table leaf).parentList.map fun parent => (leaf, parent) := by
    unfold toTell
    rw [before.table, parents]
  have tableAfter : (state.step i).shared.table = (world.signaled leaf (statuses i)).table := by
    rw [SignalSystem.step_shared, next]
    simp only [update, before.table, table]
    rfl
  refine ⟨before.fixed.step i, ?_, ?_, ?_, ?_, ?_, ?_, ?_⟩
  · left
    rw [SignalSystem.step_calls_self, next, toTell]
  · intro j different
    rw [SignalSystem.step_calls_of_ne _ different]
    rcases before.phases j with check | object
    · exact .inl check
    · exact .inr (.inl object)
  · rw [tableAfter, map_map]
    have identity : (world.table leaf).parentList.map (Prod.snd ∘ fun parent => (leaf, parent)) =
        (world.table leaf).parentList := by
      simp [Function.comp_def]
    rw [identity]
    exact callable.linked.signaled callable.passes (callable.signals i)
  · rw [tableAfter]
    simp [World.signaled]
  · rw [tableAfter]
    simpa [World.signaled] using callable.noChild
  · rw [SignalSystem.step_shared, next]
    simp [update, before.told]
  · intro parent
    rw [SignalSystem.step_shared, next]
    simp only [toldFor, update, before.told, countP_nil, Nat.zero_add]
    unfold Coredata.slotCount
    rw [count_map_of_injective _ _ (fun _ _ equal => (Prod.mk.inj equal).2)]

/-- A call before the leaf is signaled. -/
theorem Before.step (callable : Callable world leaf statuses)
    (before : Before world leaf statuses state) (i : Fin n) :
    Before world leaf statuses (state.step i) ∨
      ∃ work, After world leaf statuses i work (state.step i) := by
  rcases before.phases i with check | object
  · have next : (state.calls i).step state.shared =
        (⟨leaf, statuses i, .object⟩, state.shared) := by
      rw [before.fixed.call_eq check,
        SignalCall.step_check rfl callable.validIdx (callable.signals i), before.table,
        callable.passes]
    refine .inl ⟨before.fixed.step i, ?_, ?_, ?_⟩
    · rw [SignalSystem.step_shared, next, before.table]
    · rw [SignalSystem.step_shared, next, before.told]
    · intro j
      by_cases equal : j = i
      · subst equal
        rw [SignalSystem.step_calls_self, next]
        exact .inr rfl
      · rw [SignalSystem.step_calls_of_ne _ equal]
        exact before.phases j
  · exact .inr ⟨_, before.signal callable object⟩

variable {winner : Fin n} {work : List (Nat × Nat)}

/-- Telling the next parent. -/
theorem After.tell (callable : Callable world leaf statuses) {child parent : Nat}
    (after : After world leaf statuses winner ((child, parent) :: work) state) :
    ∃ rest, After world leaf statuses winner rest (state.step winner) := by
  have phase : (state.calls winner).phase = .parents ((child, parent) :: work) := by
    rcases after.phase with phase | ⟨nil, -⟩
    · exact phase
    · cases nil
  have next : (state.calls winner).step state.shared =
      (⟨leaf, statuses winner, .parents (state.shared.toTell parent (statuses winner) ++ work)⟩,
        { state.shared.update parent (statuses winner) with
          told := state.shared.told ++
            [⟨child, parent, decide ((state.shared.table parent).numChild ≠ 0)⟩] }) := by
    rw [after.fixed.call_eq phase]
    rfl
  have linked := after.linked
  have waits : (state.shared.table parent).numChild ≠ 0 := linked.counted.numChild_ne_zero
  have composite : world.children parent ≠ [] :=
    linked.counted.composite parent (mem_cons_self ..)
  have different : leaf ≠ parent := by
    rintro rfl
    exact composite callable.isLeaf
  obtain ⟨obj, table, told, parents, -⟩ := updateSection_composite (statuses winner) waits
    (linked.wired.heldTwice parent waits)
  have unchanged : (updateSection state.shared.table parent (statuses winner)).table leaf =
      state.shared.table leaf := by
    rw [table, Table.set_of_ne _ _ different]
  refine ⟨state.shared.toTell parent (statuses winner) ++ work, after.fixed.step winner,
    ?_, ?_, ?_, ?_, ?_, ?_, ?_⟩
  · left
    rw [SignalSystem.step_calls_self, next]
  · intro i other
    rw [SignalSystem.step_calls_of_ne _ other]
    exact after.others i other
  · rw [SignalSystem.step_shared, next, map_append]
    have names : (state.shared.toTell parent (statuses winner)).map Prod.snd =
        (updateSection state.shared.table parent (statuses winner)).parents := by
      simp [toTell]
    rw [names]
    exact linked.update (callable.signals winner)
  · rw [SignalSystem.step_shared, next]
    simpa only [update, unchanged] using after.status
  · rw [SignalSystem.step_shared, next]
    simpa only [update, unchanged] using after.noChild
  · rw [SignalSystem.step_shared, next]
    intro entry member
    rcases mem_append.mp member with old | new
    · exact after.counted entry old
    · rw [mem_singleton.mp new]
      simpa using waits
  · intro other
    rw [SignalSystem.step_shared, next]
    have tells := after.tells other
    have fresh : (state.shared.toTell parent (statuses winner)).count (leaf, other) = 0 := by
      rw [count_eq_zero]
      intro member
      simp only [toTell, mem_map, Prod.mk.injEq] at member
      obtain ⟨_, -, equal, -⟩ := member
      exact different equal.symm
    unfold toldFor at tells ⊢
    rw [countP_append, count_append, countP_singleton]
    rw [count_cons] at tells
    have same : ((child, parent) == (leaf, other)) = decide (child = leaf ∧ parent = other) := by
      rw [Bool.eq_iff_iff]
      simp
    rw [same] at tells
    simp only
    omega

/-- Once the leaf is signaled, it stays so and the same call tells its parents. -/
theorem After.step (callable : Callable world leaf statuses)
    (after : After world leaf statuses winner work state) {i : Fin n}
    (undisturbed : Undisturbed leaf state i) :
    ∃ rest, After world leaf statuses winner rest (state.step i) := by
  have signaled : (state.shared.table leaf).status ≠ active := by
    have signals := callable.signals winner
    rw [after.status]
    omega
  by_cases equal : i = winner
  · subst equal
    cases work with
    | cons item work => exact after.tell callable
    | nil =>
      have next : (state.calls i).step state.shared =
          (⟨leaf, statuses i, .returned 0⟩, state.shared) := by
        rcases after.phase with phase | ⟨-, phase⟩
        · rw [after.fixed.call_eq phase]
          rfl
        · rw [after.fixed.call_eq phase]
          rfl
      refine ⟨[], after.fixed.step i, .inr ⟨rfl, ?_⟩, ?_, ?_, ?_, ?_, ?_, ?_⟩
      · rw [SignalSystem.step_calls_self, next]
      · intro j different
        rw [SignalSystem.step_calls_of_ne _ different]
        exact after.others j different
      all_goals rw [SignalSystem.step_shared, next]
      · exact after.linked
      · exact after.status
      · exact after.noChild
      · exact after.counted
      · exact after.tells
  · have next : (state.calls i).step state.shared =
        (⟨leaf, statuses i, .returned already⟩, state.shared) := by
      rcases after.others i equal with check | object | returned
      · have refused : updateStatusCheck state.shared.table leaf = some already := by
          simp [updateStatusCheck, after.noChild, signaled]
        rw [after.fixed.call_eq check,
          SignalCall.step_check rfl callable.validIdx (callable.signals i), refused]
      · exact absurd (undisturbed object) signaled
      · rw [after.fixed.call_eq returned]
        rfl
    refine ⟨work, after.fixed.step i, ?_, ?_, ?_, ?_, ?_, ?_, ?_⟩
    · rw [SignalSystem.step_calls_of_ne _ (Ne.symm equal)]
      exact after.phase
    · intro j different
      by_cases same : j = i
      · subst same
        rw [SignalSystem.step_calls_self, next]
        exact .inr (.inr rfl)
      · rw [SignalSystem.step_calls_of_ne _ same]
        exact after.others j different
    all_goals rw [SignalSystem.step_shared, next]
    · exact after.linked
    · exact after.status
    · exact after.noChild
    · exact after.counted
    · exact after.tells

/-! ## Runs -/

theorem before_start (world : World) (leaf : Nat) (statuses : Fin n → Nat) :
    Before world leaf statuses (.start world.table leaf statuses) :=
  ⟨fun _ => ⟨rfl, rfl⟩, rfl, rfl, fun _ => .inl rfl⟩

section

variable (callable : Callable world leaf statuses)

include callable

/-- In every run the leaf is unsignaled, or one call has signaled it. -/
theorem before_or_after (reaches : Reaches (guarded (Undisturbed leaf) SignalSystem.step)
      (.start world.table leaf statuses) state) :
    Before world leaf statuses state ∨
      ∃ winner work, After world leaf statuses winner work state := by
  refine @Reaches.invariant _ _ _ _ _ (fun state => Before world leaf statuses state ∨
    ∃ winner work, After world leaf statuses winner work state) reaches
    (.inl (before_start world leaf statuses)) ?_
  rintro source i target (before | ⟨winner, work, after⟩) ⟨undisturbed, rfl⟩
  · rcases before.step callable i with before | ⟨work, after⟩
    · exact .inl before
    · exact .inr ⟨i, work, after⟩
  · obtain ⟨rest, after⟩ := after.step callable undisturbed
    exact .inr ⟨winner, rest, after⟩

/-- The call that signaled the leaf is the same in all later states. -/
theorem After.later (after : After world leaf statuses winner work state) {later : SignalSystem n}
    (reaches : Reaches (guarded (Undisturbed leaf) SignalSystem.step) state later) :
    ∃ rest, After world leaf statuses winner rest later := by
  refine @Reaches.invariant _ _ _ _ _ (fun state => ∃ rest, After world leaf statuses winner rest state)
    reaches ⟨work, after⟩ ?_
  rintro source i target ⟨rest, after⟩ ⟨undisturbed, rfl⟩
  exact after.step callable undisturbed

theorem Before.exactlyOnce (before : Before world leaf statuses state) :
    ExactlyOnce world.table leaf (Undisturbed leaf) state := by
  have running : ∀ i rc, (state.calls i).phase ≠ .returned rc := by
    intro i rc returned
    rcases before.phases i with phase | phase
    · rw [phase] at returned
      cases returned
    · rw [phase] at returned
      cases returned
  refine ⟨?_, ?_, ?_, ?_, ?_, ?_, ?_⟩
  · intro i j returned
    exact absurd returned (running i 0)
  · intro i rc returned
    exact absurd returned (running i rc)
  · intro some returned
    obtain ⟨rc, phase⟩ := returned ⟨0, some⟩
    exact absurd phase (running _ rc)
  · intro later _ signaled
    rw [before.table, callable.unsignaled] at signaled
    exact absurd rfl signaled
  · simp [before.told]
  · simp [toldFor, before.told]
  · intro some returned
    obtain ⟨rc, phase⟩ := returned ⟨0, some⟩
    exact absurd phase (running _ rc)

theorem After.exactlyOnce (after : After world leaf statuses winner work state) :
    ExactlyOnce world.table leaf (Undisturbed leaf) state := by
  have only : ∀ i, (state.calls i).phase = .returned 0 → i = winner := by
    intro i returned
    by_contra different
    rcases after.others i different with phase | phase | phase
    · rw [phase] at returned
      cases returned
    · rw [phase] at returned
      cases returned
    · rw [phase] at returned
      cases returned
  have finished : state.Returned → work = [] ∧ (state.calls winner).phase = .returned 0 := by
    intro returned
    rcases after.phase with phase | finished
    · obtain ⟨rc, ended⟩ := returned winner
      rw [phase] at ended
      cases ended
    · exact finished
  refine ⟨?_, ?_, ?_, ?_, after.counted, ?_, ?_⟩
  · intro i j first second
    rw [only i first, only j second]
  · intro i rc returned
    by_cases equal : i = winner
    · subst equal
      rcases after.phase with phase | ⟨-, phase⟩
      · rw [phase] at returned
        cases returned
      · rw [phase] at returned
        cases returned
        exact .inl rfl
    · rcases after.others i equal with phase | phase | phase
      · rw [phase] at returned
        cases returned
      · rw [phase] at returned
        cases returned
      · rw [phase] at returned
        cases returned
        exact .inr rfl
  · intro _ returned
    exact ⟨winner, (finished returned).2⟩
  · intro later reaches _
    obtain ⟨rest, later⟩ := after.later callable reaches
    rw [later.status, after.status]
  · intro parent
    have tells := after.tells parent
    omega
  · intro _ returned parent
    have tells := after.tells parent
    rw [(finished returned).1] at tells
    exact tells

end

/-- Calls on one unsignaled leaf of a graph, each entering its second section only while
the leaf is unsignaled: exactly one succeeds, and the parents are told once. -/
theorem exactlyOnce_of_undisturbed (world : World)
    (built : Reaches (fun world event world' => Legal world event ∧ Runs world event world')
      .start world)
    (leaf : Nat) (isLeaf : world.children leaf = [])
    (unsignaled : (world.table leaf).status = active)
    (statuses : Fin n → Nat) (signals : ∀ i, active < statuses i) (state : SignalSystem n)
    (reaches : Reaches (guarded (Undisturbed leaf) SignalSystem.step)
      (.start world.table leaf statuses) state) :
    ExactlyOnce world.table leaf (Undisturbed leaf) state := by
  have callable : Callable world leaf statuses :=
    ⟨linked_of_reaches built, isLeaf, unsignaled, signals⟩
  rcases before_or_after callable reaches with before | ⟨winner, work, after⟩
  · exact before.exactlyOnce callable
  · exact after.exactlyOnce callable

/-- Two calls on a leaf of a composite, before their first section. -/
def twoSignals : SignalSystem 2 :=
  .start (World.after nestedCalls).table 1 fun i => if i = 0 then 2 else 3

/-- The second call starts when the first one has returned. -/
theorem exactlyOnce_sample :
    ExactlyOnce (World.after nestedCalls).table 1 (Undisturbed 1)
      ([0, 0, 0, 0, 1].foldl SignalSystem.step twoSignals) := by
  refine exactlyOnce_of_undisturbed (World.after nestedCalls) nestedCalls_reaches 1 rfl
    (by decide +kernel) _ (by decide) _ (Reaches.foldl ?_)
  refine ⟨?_, ?_, ?_, ?_, ?_, trivial⟩
  all_goals
    unfold Undisturbed
    decide +kernel

/-- Both calls pass the check before one of them signals the leaf: both succeed. -/
theorem not_exactlyOnce_of_interleaving :
    ¬ ∀ state, Reaches (guarded (fun _ _ => True) SignalSystem.step) twoSignals state →
      ExactlyOnce (World.after nestedCalls).table 1 (fun _ _ => True) state := by
  intro claim
  have once := claim ([0, 1, 0, 1, 0, 0, 1, 1, 1].foldl SignalSystem.step twoSignals)
    (Reaches.foldl ⟨trivial, trivial, trivial, trivial, trivial, trivial, trivial, trivial,
      trivial, trivial⟩)
  have same := once.unique 0 1 (by decide +kernel) (by decide +kernel)
  exact absurd same (by decide)

end Sm8650.Synx
