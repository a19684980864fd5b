import Sm8650.Synx.Calls
import Sm8650.Synx.Composite
import Sm8650.Synx.Merging

/-!
# A merge among signals

The sections of one `synx_global_merge` interleave with the sections of any number of
signals and with cores that start to wait for the composite. The merge names the
composite in each child before it has written how many children the composite waits for,
so the composite is complete only if no update reaches it earlier.
-/

namespace Sm8650.Synx

open Transition Function List Coredata SignalCall Table

variable {n : Nat}

/-- The next section of a merge: the child at a position of the list (or the composite at
its end), the failure path, or none. -/
inductive MergePhase
  | visit (visited : Nat) (vars : MergeVars)
  | undo (numChild : Nat) (rc : Int)
  | returned (rc : Int)
  deriving DecidableEq, Repr

/-- The checks before the first section of `synx_global_merge`. -/
def MergePhase.start (idxList : List Nat) (parent : Nat) : MergePhase :=
  if validIdx parent = false then .returned invalid
  else if idxList = [] then .returned 0
  else .visit 0 .start

/-- The next section of `synx_global_merge`. An index that is not valid goes to the
failure path with the result of the last lock. -/
def MergePhase.step (idxList : List Nat) (parent : Nat) (phase : MergePhase) (table : Table) :
    MergePhase × Table :=
  match phase with
  | .visit visited vars =>
    match idxList[visited]? with
    | none => (.returned 0, mergeFinish table parent vars)
    | some idx =>
      if validIdx idx then
        match mergeSection table idx parent vars with
        | (table, vars, true) => (.visit (visited + 1) vars, table)
        | (table, vars, false) => (.undo vars.numChild nomem, table)
      else
        (.undo vars.numChild (if visited = 0 then invalid else 0), table)
  | .undo 0 rc => (.returned rc, table)
  | .undo (numChild + 1) rc =>
    (.undo numChild rc, mergeUndo table (idxList.getD numChild 0) parent)
  | .returned rc => (.returned rc, table)

/-- The merge, the signals and what they share; `registered` are the cores that were told
to wait for the composite, and `ownNotices` counts the times the core that runs the
sections found itself waiting for it. -/
structure MergeSystem (n : Nat) where
  shared : Shared
  calls : Fin n → SignalCall
  merge : MergePhase
  registered : CoreId → Bool
  ownNotices : Nat

/-- A step of the system. -/
inductive MergeEvent (n : Nat)
  | signal (i : Fin n)
  | merge
  | wait (core : CoreId)
  deriving DecidableEq, Repr

/-- The section on `idx` signals it while the core that runs the section waits for it.
Unless the status reports a restart it sends itself no message: `synx_signal` takes care of
the waiters on the same core. -/
def ownNotice (table : Table) (idx status : Nat) : Bool :=
  decide ((table idx).numChild ≤ 1 ∧ status ≠ signaledSsr) && (table idx).waiters .apss

/-- A step of the system. -/
def MergeSystem.step (idxList : List Nat) (parent : Nat) (state : MergeSystem n) :
    MergeEvent n → MergeSystem n
  | .signal i =>
    let call := state.calls i
    let result := call.step state.shared
    { state with
      shared := result.2
      calls := update state.calls i result.1
      ownNotices := state.ownNotices +
        if call.target = some parent ∧ ownNotice state.shared.table parent call.status then 1
        else 0 }
  | .merge =>
    let result := state.merge.step idxList parent state.shared.table
    { state with merge := result.1, shared := { state.shared with table := result.2 } }
  | .wait core =>
    let result := testStatusSetWait state.shared.table parent core
    { state with
      shared := { state.shared with table := result.2 }
      registered :=
        if result.1 = active then update state.registered core true
        else state.registered }

/-- The merge and the signals before their first sections. -/
def MergeSystem.start (table : Table) (idxList : List Nat) (parent : Nat)
    (signals : Fin n → Nat × Nat) : MergeSystem n where
  shared := ⟨table, [], []⟩
  calls i := ⟨(signals i).1, (signals i).2, .check⟩
  merge := .start idxList parent
  registered := fun _ => false
  ownNotices := 0

/-- How often a core has been notified that `idx` is signaled. -/
def MergeSystem.notices (state : MergeSystem n) (idx : Nat) (core : CoreId) : Nat :=
  (state.shared.sent.countP fun entry => decide (entry.1 = idx ∧ entry.2.core = core)) +
    if core = .apss then state.ownNotices else 0

/-- What a merge promises in every state it reaches: the composite is not reported
signaled before its children, and once the merge has succeeded, all children are signaled
and no call has still to tell the composite, it waits for no child, holds no reference for
them, and every core that was told to wait has been notified once. -/
structure MergeSafe (idxList : List Nat) (parent refcount : Nat) (state : MergeSystem n) :
    Prop where
  notEarly : getStatus state.shared.table parent ≠ active →
    ∀ child ∈ idxList, getStatus state.shared.table child ≠ active
  complete : state.merge = .returned 0 →
    (∀ child ∈ idxList, getStatus state.shared.table child ≠ active) →
    (∀ i, (state.calls i).owes parent = 0) →
    (state.shared.table parent).numChild = 0 ∧
      getStatus state.shared.table parent ≠ active ∧
      (state.shared.table parent).refcount = refcount ∧
      ∀ core, state.notices parent core = if state.registered core then 1 else 0

/-- The variables of a merge whose next section is its last. -/
def MergePhase.finishing (idxList : List Nat) : MergePhase → Option MergeVars
  | .visit visited vars => if idxList.length ≤ visited then some vars else none
  | _ => none

/-- Steps that do not run into the gap of the merge: the composite is updated only after
the last section of the merge, an object that names the composite is updated only while it
is reported unsignaled, and no core waits for a composite that the merge finds complete. -/
def Orderly (idxList : List Nat) (parent : Nat) (state : MergeSystem n) : MergeEvent n → Prop
  | .signal i => ∀ idx ∈ (state.calls i).target,
      if idx = parent then state.merge = .returned 0
      else (state.shared.table idx).pending = true ∨
        parent ∉ (state.shared.table idx).parentList
  | .merge => ∀ vars ∈ state.merge.finishing idxList, vars.numChild = 0 →
      ∀ core, (state.shared.table parent).waiters core = false
  | .wait _ => True

instance (idxList : List Nat) (parent : Nat) (state : MergeSystem n) :
    ∀ event, Decidable (Orderly idxList parent state event)
  | .signal _ => inferInstanceAs (Decidable (∀ _ ∈ _, _))
  | .merge => inferInstanceAs (Decidable (∀ _ ∈ _, _))
  | .wait _ => inferInstanceAs (Decidable True)

/-- A composite made for the merge, and children that exist. -/
structure MergeReady (table : Table) (idxList : List Nat) (parent : Nat) : Prop where
  nonempty : idxList ≠ []
  valid : ∀ child ∈ idxList, validIdx child = true
  notMem : parent ∉ idxList
  nonzero : parent ≠ 0
  status : (table parent).status = active
  numChild : (table parent).numChild = 0
  held : 1 ≤ (table parent).refcount
  handle : (table parent).handle ≠ 0
  waiters : ∀ core, (table parent).waiters core = false
  unnamed : ∀ idx, (table idx).slotCount parent = 0

/-! ## Sections and the composite -/

/-- A notification loop sends one message to every waiting core but the own one. -/
theorem countP_notify (waiting : CoreId → Bool) {data : Nat} (nonzero : data ≠ 0) (status : Nat)
    (core : CoreId) :
    (notify waiting data status).countP (fun message => decide (message.core = core)) =
      if waiting core && (decide (status = signaledSsr) || decide (core ≠ .apss)) then 1 else 0 := by
  unfold notify
  rw [if_neg nonzero, countP_map, countP_filter]
  cases core <;> simp [CoreId.all, countP_cons]

variable {list : List Nat}

theorem pendingCount_set_of_not_mem (table : Table) {idx : Nat} (obj : Coredata)
    (absent : idx ∉ list) : pendingCount (table.set idx obj) list = pendingCount table list := by
  apply countP_congr
  intro child member
  rw [set_of_ne]
  rintro rfl
  exact absent member

variable {table : Table}

/-- The section on an object other than the composite moves a pending child from the table
to the updates on their way. -/
theorem updateSection_balance {idx status parent : Nat} (signal : active < status)
    (fresh : (table idx).pending = true ∨ parent ∉ (table idx).parentList)
    (slots : (table idx).pending = true → (table idx).slotCount parent = list.count idx) :
    ∃ obj', (updateSection table idx status).table = table.set idx obj' ∧
      (obj'.pending = true → obj'.slotCount parent = list.count idx) ∧
      pendingCount (table.set idx obj') list +
          (updateSection table idx status).parents.count parent =
        pendingCount table list := by
  obtain ⟨obj', updated, ⟨pending, still, same, parents⟩ | ⟨done, parents⟩⟩ :=
    updateSection_cases table idx signal
  · refine ⟨obj', updated, ?_, ?_⟩
    · intro _
      rw [← slots pending]
      unfold slotCount parentList
      rw [same]
    · rw [parents]
      exact pendingCount_set_of_eq (still.trans pending.symm) list
  · refine ⟨obj', updated, ?_, ?_⟩
    · intro pending
      rw [done] at pending
      cases pending
    · rw [parents]
      by_cases pending : (table idx).pending = true
      · have count := slots pending
        unfold slotCount at count
        rw [count]
        exact pendingCount_set_of_done pending done list
      · have absent := fresh.resolve_left pending
        rw [count_eq_zero.mpr absent]
        apply pendingCount_set_of_eq
        rw [done]
        simpa using pending

/-! ## The invariant -/

/-- The updates of `parent` that all calls together have still to make. -/
def MergeSystem.owed (state : MergeSystem n) (parent : Nat) : Nat :=
  ∑ i, (state.calls i).owes parent

/-- The calls, and the cores that wait for the composite. -/
structure Attended (parent : Nat) (state : MergeSystem n) : Prop where
  others : ∀ i, (state.calls i).idx ≠ parent
  signals : ∀ i, (state.calls i).Signals
  handle : (state.shared.table parent).handle ≠ 0
  waiting : (state.shared.table parent).pending = true →
    ∀ core, state.notices parent core = 0 ∧
      (state.shared.table parent).waiters core = state.registered core
  notified : (state.shared.table parent).pending = false →
    ∀ core, state.notices parent core = if state.registered core then 1 else 0

/-- The children in `list` name the composite, and `amount` of them are pending or their
updates are on their way. -/
structure Balanced (list : List Nat) (parent amount : Nat) (state : MergeSystem n) : Prop where
  slots : ∀ idx, (state.shared.table idx).pending = true ∨ idx = parent →
    (state.shared.table idx).slotCount parent = list.count idx
  count : amount = pendingCount state.shared.table list + state.owed parent

/-- The composite is as it was created. -/
structure Unlinked (parent refcount : Nat) (state : MergeSystem n) : Prop where
  status : (state.shared.table parent).status = active
  numChild : (state.shared.table parent).numChild = 0
  refcount : (state.shared.table parent).refcount = refcount

/-- The merge has visited some of its children. -/
structure Linking (idxList : List Nat) (parent refcount visited : Nat) (vars : MergeVars)
    (state : MergeSystem n) : Prop where
  unlinked : Unlinked parent refcount state
  bound : visited ≤ idxList.length
  balanced : Balanced (idxList.take visited) parent vars.numChild state
  unsignaled : vars.parentStatus = active → vars.numChild = visited

/-- The merge has written the composite. -/
structure Completing (idxList : List Nat) (parent refcount : Nat) (state : MergeSystem n) : Prop where
  balanced : Balanced idxList parent (state.shared.table parent).numChild state
  references : (state.shared.table parent).refcount =
    refcount + if (state.shared.table parent).numChild ≠ 0 then 1 else 0
  done : (state.shared.table parent).numChild = 0 → (state.shared.table parent).status ≠ active

/-- How far the merge has come. -/
def Progress (idxList : List Nat) (parent refcount : Nat) (state : MergeSystem n) : Prop :=
  match state.merge with
  | .visit visited vars => Linking idxList parent refcount visited vars state
  | .undo _ rc => rc ≠ 0 ∧ Unlinked parent refcount state
  | .returned rc =>
    if rc = 0 then Completing idxList parent refcount state else Unlinked parent refcount state

variable {idxList : List Nat} {parent refcount : Nat} {state : MergeSystem n}

/-! ## Signals -/

theorem MergeSystem.owed_update (state : MergeSystem n) (i : Fin n) (call : SignalCall) :
    (∑ j, (update state.calls i call j).owes parent) + (state.calls i).owes parent =
      state.owed parent + call.owes parent := by
  unfold owed
  have member := Finset.mem_univ i
  rw [← Finset.add_sum_erase _ _ member,
    ← Finset.add_sum_erase _ (fun j => (state.calls j).owes parent) member]
  have others : ∑ j ∈ Finset.univ.erase i, (update state.calls i call j).owes parent =
      ∑ j ∈ Finset.univ.erase i, (state.calls j).owes parent := by
    apply Finset.sum_congr rfl
    intro j inside
    rw [update_of_ne (Finset.mem_erase.mp inside).1]
  rw [update_self]
  omega

section

variable (attended : Attended parent state)

include attended

/-- The calls after a signal step. -/
theorem Attended.calls_step (i j : Fin n) :
    ((state.step idxList parent (.signal i)).calls j).idx ≠ parent ∧
      ((state.step idxList parent (.signal i)).calls j).Signals := by
  simp only [MergeSystem.step]
  by_cases equal : j = i
  · subst equal
    rw [update_self]
    cases target : (state.calls j).target with
    | none =>
      obtain ⟨-, idx, signals, -⟩ :=
        @step_of_target_none _ state.shared target (attended.signals j)
      rw [idx]
      exact ⟨attended.others j, signals⟩
    | some idx =>
      obtain ⟨signal, rest, shared', step, -⟩ :=
        @step_of_target _ state.shared _ target (attended.signals j)
      rw [step]
      exact ⟨attended.others j, signal⟩
  · rw [update_of_ne equal]
    exact ⟨attended.others j, attended.signals j⟩

/-- A signal step that does not update the composite leaves it and its waiters alone. -/
theorem Attended.signal_other {i : Fin n} (other : (state.calls i).target ≠ some parent) :
    (state.step idxList parent (.signal i)).shared.table parent = state.shared.table parent ∧
      ∀ core, (state.step idxList parent (.signal i)).notices parent core =
        state.notices parent core := by
  unfold MergeSystem.notices
  simp only [MergeSystem.step, other, false_and, if_false]
  cases target : (state.calls i).target with
  | none =>
    obtain ⟨same, -⟩ := @step_of_target_none _ state.shared target (attended.signals i)
    rw [same]
    exact ⟨rfl, fun _ => rfl⟩
  | some idx =>
    obtain ⟨signal, rest, shared', step, table, sent, -⟩ :=
      @step_of_target _ state.shared _ target (attended.signals i)
    have different : parent ≠ idx := by
      rintro rfl
      exact other target
    obtain ⟨obj', updated, -⟩ := updateSection_cases state.shared.table idx signal
    rw [step]
    refine ⟨?_, ?_⟩
    · rw [table, updated, set_of_ne _ _ different]
    · intro core
      rw [sent]
      simp only [Shared.update, countP_append, countP_map, comp_def,
        different.symm, false_and, decide_false, countP_false, const_apply,
        Nat.add_zero]

theorem Attended.of_signal_other {i : Fin n} (other : (state.calls i).target ≠ some parent) :
    Attended parent (state.step idxList parent (.signal i)) := by
  obtain ⟨obj, notices⟩ := @Attended.signal_other _ idxList _ _ attended i other
  constructor
  · exact fun j => (attended.calls_step i j).1
  · exact fun j => (attended.calls_step i j).2
  · rw [obj]
    exact attended.handle
  · intro pending core
    rw [obj] at pending ⊢
    rw [notices]
    exact attended.waiting pending core
  · intro done core
    rw [obj] at done
    rw [notices]
    exact attended.notified done core

/-- A signal step that does not update the composite keeps the balance. -/
theorem Balanced.of_signal_other {amount : Nat}
    (balanced : Balanced list parent amount state) {i : Fin n}
    (other : (state.calls i).target ≠ some parent)
    (orderly : Orderly idxList parent state (.signal i)) :
    Balanced list parent amount (state.step idxList parent (.signal i)) := by
  have owed := @MergeSystem.owed_update _ parent state i
  cases target : (state.calls i).target with
  | none =>
    obtain ⟨same, -, -, owes⟩ :=
      @step_of_target_none _ state.shared target (attended.signals i)
    constructor
    · simp only [MergeSystem.step, same]
      exact balanced.slots
    · have total := owed ((state.calls i).step state.shared).1
      rw [owes parent] at total
      rw [balanced.count]
      simp only [MergeSystem.step, MergeSystem.owed, same]
      unfold MergeSystem.owed at total
      omega
  | some idx =>
    obtain ⟨signal, rest, shared', step, table, -, owes⟩ :=
      @step_of_target _ state.shared _ target (attended.signals i)
    have different : idx ≠ parent := by
      rintro rfl
      exact other target
    have fresh := orderly idx target
    rw [if_neg different] at fresh
    obtain ⟨obj', updated, slots, total⟩ := updateSection_balance signal fresh
      fun pending => balanced.slots idx (.inl pending)
    have owesBefore := owes parent (attended.others i).symm
    rw [if_neg different] at owesBefore
    constructor
    · intro child cause
      simp only [MergeSystem.step, step, table, updated] at cause ⊢
      by_cases equal : child = idx
      · subst equal
        rw [set_self] at cause ⊢
        exact slots (cause.resolve_right different)
      · rw [set_of_ne _ _ equal] at cause ⊢
        exact balanced.slots child cause
    · have after := owed ((state.calls i).step state.shared).1
      simp only [step, owes_toTell] at after
      rw [balanced.count]
      simp only [MergeSystem.step, MergeSystem.owed, step, table, updated]
      unfold MergeSystem.owed at after
      omega

end

/-- The section on a composite notifies the cores that wait for it, by a message or on the
core that runs it, if it is the last one. -/
theorem notices_of_section {idx status : Nat} {obj' : Coredata}
    (told : ChildSignaled (table idx) status obj') (handle : (table idx).handle ≠ 0)
    (messages : (updateSection table idx status).messages =
      if obj'.numChild = 0 then
        notify (table idx).waiters ((table idx).handle <<< 32 ||| obj'.status) status
      else [])
    (core : CoreId) :
    (updateSection table idx status).messages.countP (fun message => decide (message.core = core)) +
        (if core = .apss then (if ownNotice table idx status then 1 else 0) else 0) =
      if obj'.numChild = 0 ∧ (table idx).waiters core = true then 1 else 0 := by
  have numChild := told.numChild
  unfold ownNotice
  by_cases last : obj'.numChild = 0
  · have data : (table idx).handle <<< 32 ||| obj'.status ≠ 0 := by
      intro zero
      have shifted := (Nat.or_eq_zero_iff.mp zero).1
      omega
    have bound : (table idx).numChild ≤ 1 := by omega
    rw [messages, if_pos last, countP_notify _ data]
    by_cases own : core = .apss
    · subst own
      by_cases restart : status = signaledSsr
      · simp [restart, last]
      · simp [restart, last, bound]
    · simp [own, last]
  · have more : ¬ (table idx).numChild ≤ 1 := by omega
    rw [messages]
    simp [last, more]

/-- The section on the composite: one child less to wait for, and at the last one the
waiting cores are notified. -/
theorem Completing.signal_self (attended : Attended parent state) (held : 1 ≤ refcount)
    (absent : parent ∉ idxList) (completing : Completing idxList parent refcount state) {i : Fin n}
    (target : (state.calls i).target = some parent) :
    Attended parent (state.step idxList parent (.signal i)) ∧
      Completing idxList parent refcount (state.step idxList parent (.signal i)) := by
  obtain ⟨signal, rest, shared', step, table, sent, owes⟩ :=
    @step_of_target _ state.shared _ target (attended.signals i)
  have owesBefore := owes parent (attended.others i).symm
  rw [if_pos rfl] at owesBefore
  have after := @MergeSystem.owed_update _ parent state i ((state.calls i).step state.shared).1
  simp only [step, owes_toTell] at after
  have unnamed : (state.shared.table parent).parentList.count parent = 0 := by
    have slots := completing.balanced.slots parent (.inr rfl)
    rwa [count_eq_zero.mpr absent] at slots
  have tellsOthers :
      (updateSection state.shared.table parent (state.calls i).status).parents.count parent = 0 := by
    obtain ⟨-, -, ⟨-, -, -, parents⟩ | ⟨-, parents⟩⟩ :=
      updateSection_cases state.shared.table parent signal
    · rw [parents, count_nil]
    · rw [parents, unnamed]
  have count := completing.balanced.count
  have waits : (state.shared.table parent).numChild ≠ 0 := by omega
  have twice : 2 ≤ (state.shared.table parent).refcount := by
    rw [completing.references, if_pos waits]
    omega
  obtain ⟨obj', updated, told, parents, messages⟩ :=
    updateSection_composite (state.calls i).status waits twice
  have numChild := told.numChild
  have signaled := told.status_ne_active signal
  have tableAfter : (state.step idxList parent (.signal i)).shared.table =
      state.shared.table.set parent obj' := by
    simp only [MergeSystem.step, step, table, updated]
  have objAfter : (state.step idxList parent (.signal i)).shared.table parent = obj' := by
    rw [tableAfter, set_self]
  have pendingBefore : (state.shared.table parent).pending = true :=
    (pending_iff _).mpr (.inr waits)
  have pendingAfter : obj'.pending = true ↔ obj'.numChild ≠ 0 := by
    rw [pending_iff]
    exact or_iff_right signaled
  have notices : ∀ core, (state.step idxList parent (.signal i)).notices parent core =
      if obj'.numChild = 0 ∧ (state.shared.table parent).waiters core = true then 1 else 0 := by
    intro core
    have before := (attended.waiting pendingBefore core).1
    rw [← notices_of_section told attended.handle messages core]
    unfold MergeSystem.notices at before ⊢
    simp only [MergeSystem.step, step, sent, Shared.update, countP_append, countP_map,
      comp_def, target, true_and]
    by_cases own : core = .apss
    · rw [if_pos own] at before
      rw [if_pos own, if_pos own]
      omega
    · rw [if_neg own, if_neg own]
      omega
  refine ⟨⟨?_, ?_, ?_, ?_, ?_⟩, ⟨⟨?_, ?_⟩, ?_, ?_⟩⟩
  · exact fun j => (attended.calls_step i j).1
  · exact fun j => (attended.calls_step i j).2
  · rw [objAfter, told.handle]
    exact attended.handle
  · intro pending core
    rw [objAfter] at pending ⊢
    have more := pendingAfter.mp pending
    rw [notices, told.waiters, if_neg more, if_neg (fun both => more both.1)]
    exact ⟨rfl, (attended.waiting pendingBefore core).2⟩
  · intro done core
    rw [objAfter] at done
    have last : obj'.numChild = 0 := by
      by_contra more
      rw [pendingAfter.mpr more] at done
      cases done
    rw [notices, (attended.waiting pendingBefore core).2]
    simp only [last, true_and]
    rfl
  · intro idx cause
    rw [tableAfter] at cause ⊢
    by_cases equal : idx = parent
    · subst equal
      rw [set_self, count_eq_zero.mpr absent]
      unfold slotCount parentList
      rw [told.parents]
      exact unnamed
    · rw [set_of_ne _ _ equal] at cause ⊢
      exact completing.balanced.slots idx cause
  · rw [objAfter, tableAfter, pendingCount_set_of_not_mem _ _ absent]
    simp only [MergeSystem.step, MergeSystem.owed, step]
    omega
  · rw [objAfter, told.refcount, completing.references]
    by_cases last : obj'.numChild = 0
    · rw [if_pos last, if_pos waits, if_neg (by simpa using last)]
      omega
    · rw [if_neg last, if_pos waits, if_pos last]
  · intro _
    rw [objAfter]
    exact signaled

variable {state' : MergeSystem n}

theorem Unlinked.of_eq (unlinked : Unlinked parent refcount state)
    (same : state'.shared.table parent = state.shared.table parent) :
    Unlinked parent refcount state' := by
  constructor
  · rw [same, unlinked.status]
  · rw [same, unlinked.numChild]
  · rw [same, unlinked.refcount]

theorem Unlinked.pending (unlinked : Unlinked parent refcount state) :
    (state.shared.table parent).pending = true :=
  pending_of_status unlinked.status

/-- A signal keeps the invariant. -/
theorem Progress.signal (attended : Attended parent state) (held : 1 ≤ refcount)
    (absent : parent ∉ idxList) (progress : Progress idxList parent refcount state) {i : Fin n}
    (orderly : Orderly idxList parent state (.signal i)) :
    Attended parent (state.step idxList parent (.signal i)) ∧
      Progress idxList parent refcount (state.step idxList parent (.signal i)) := by
  have same : (state.step idxList parent (.signal i)).merge = state.merge := rfl
  unfold Progress at progress ⊢
  rw [same]
  by_cases target : (state.calls i).target = some parent
  · have finished := orderly parent target
    rw [if_pos rfl] at finished
    rw [finished] at progress ⊢
    exact Completing.signal_self attended held absent progress target
  · refine ⟨attended.of_signal_other target, ?_⟩
    obtain ⟨obj, -⟩ := @Attended.signal_other _ idxList _ _ attended i target
    split at progress
    · exact ⟨progress.unlinked.of_eq obj, progress.bound,
        progress.balanced.of_signal_other attended target orderly, progress.unsignaled⟩
    · exact ⟨progress.1, progress.2.of_eq obj⟩
    · split at progress
      · rename_i zero
        rw [if_pos zero]
        constructor
        · rw [obj]
          exact progress.balanced.of_signal_other attended target orderly
        · rw [obj]
          exact progress.references
        · rw [obj]
          exact progress.done
      · rename_i nonzero
        rw [if_neg nonzero]
        exact progress.of_eq obj

/-! ## Waiting cores -/

/-- A write to the composite that keeps its parents keeps the balance. -/
theorem Balanced.set_parent {amount : Nat} {obj : Coredata}
    (balanced : Balanced list parent amount state)
    (absent : parent ∉ list) (parents : obj.parents = (state.shared.table parent).parents)
    (table : state'.shared.table = state.shared.table.set parent obj)
    (calls : state'.calls = state.calls) : Balanced list parent amount state' := by
  constructor
  · intro idx cause
    rw [table] at cause ⊢
    by_cases equal : idx = parent
    · subst equal
      rw [set_self, ← balanced.slots idx (.inr rfl)]
      unfold slotCount parentList
      rw [parents]
    · rw [set_of_ne _ _ equal] at cause ⊢
      exact balanced.slots idx cause
  · rw [table, pendingCount_set_of_not_mem _ _ absent, balanced.count]
    unfold MergeSystem.owed
    rw [calls]

/-- A core that starts to wait keeps the invariant. -/
theorem Progress.wait (attended : Attended parent state) (absent : parent ∉ idxList)
    (progress : Progress idxList parent refcount state) (core : CoreId) :
    Attended parent (state.step idxList parent (.wait core)) ∧
      Progress idxList parent refcount (state.step idxList parent (.wait core)) := by
  by_cases pending : (state.shared.table parent).pending = true
  · have result : testStatusSetWait state.shared.table parent core =
        (active, state.shared.table.set parent
          { state.shared.table parent with
            waiters := update (state.shared.table parent).waiters core true }) := by
      unfold testStatusSetWait
      rw [if_pos ((pending_iff _).mp pending)]
    obtain ⟨obj, table, parents, status, numChild, references, handle, waiters⟩ :
        ∃ obj : Coredata, (state.step idxList parent (.wait core)).shared.table =
            state.shared.table.set parent obj ∧
          obj.parents = (state.shared.table parent).parents ∧
          obj.status = (state.shared.table parent).status ∧
          obj.numChild = (state.shared.table parent).numChild ∧
          obj.refcount = (state.shared.table parent).refcount ∧
          obj.handle = (state.shared.table parent).handle ∧
          obj.waiters = update (state.shared.table parent).waiters core true := by
      refine ⟨{ state.shared.table parent with
        waiters := update (state.shared.table parent).waiters core true },
        ?_, rfl, rfl, rfl, rfl, rfl, rfl⟩
      simp only [MergeSystem.step, result]
    have registered : (state.step idxList parent (.wait core)).registered =
        update state.registered core true := by
      simp [MergeSystem.step, result]
    have self : (state.step idxList parent (.wait core)).shared.table parent = obj := by
      rw [table, set_self]
    have still : obj.pending = true := by
      rw [pending_iff, status, numChild]
      exact (pending_iff _).mp pending
    constructor
    · refine ⟨attended.others, attended.signals, ?_, ?_, ?_⟩
      · rw [self, handle]
        exact attended.handle
      · intro _ other
        obtain ⟨notices, same⟩ := attended.waiting pending other
        refine ⟨notices, ?_⟩
        rw [self, waiters, registered]
        by_cases equal : other = core
        · subst equal
          simp
        · simpa [equal] using same
      · intro done
        rw [self, still] at done
        cases done
    · have unlink : Unlinked parent refcount state →
          Unlinked parent refcount (state.step idxList parent (.wait core)) := by
        intro unlinked
        constructor
        · rw [self, status, unlinked.status]
        · rw [self, numChild, unlinked.numChild]
        · rw [self, references, unlinked.refcount]
      unfold Progress at progress ⊢
      have merge : (state.step idxList parent (.wait core)).merge = state.merge := rfl
      rw [merge]
      split at progress
      · refine ⟨unlink progress.unlinked, progress.bound, ?_, progress.unsignaled⟩
        exact progress.balanced.set_parent (fun member => absent (mem_of_mem_take member))
          parents table rfl
      · exact ⟨progress.1, unlink progress.2⟩
      · split at progress
        · rename_i zero
          rw [if_pos zero]
          constructor
          · rw [self, numChild]
            exact progress.balanced.set_parent absent parents table rfl
          · rw [self, numChild, references]
            exact progress.references
          · rw [self, numChild, status]
            exact progress.done
        · rename_i nonzero
          rw [if_neg nonzero]
          exact unlink progress
  · have neither : ¬ ((state.shared.table parent).status = active ∨
        (state.shared.table parent).numChild ≠ 0) := by
      rwa [← pending_iff]
    have result : testStatusSetWait state.shared.table parent core =
        ((state.shared.table parent).status, state.shared.table) := by
      unfold testStatusSetWait
      rw [if_neg neither]
    have same : state.step idxList parent (.wait core) = state := by
      simp only [MergeSystem.step, result]
      rw [if_neg fun unsignaled => neither (.inl unsignaled)]
    rw [same]
    exact ⟨attended, progress⟩

/-! ## The merge -/

/-- A step of the merge that leaves the composite alone. -/
theorem Attended.of_eq (attended : Attended parent state)
    (same : state'.shared.table parent = state.shared.table parent)
    (calls : state'.calls = state.calls) (registered : state'.registered = state.registered)
    (notices : ∀ core, state'.notices parent core = state.notices parent core) :
    Attended parent state' := by
  constructor
  · rw [calls]
    exact attended.others
  · rw [calls]
    exact attended.signals
  · rw [same]
    exact attended.handle
  · intro pending core
    rw [same] at pending ⊢
    rw [notices, registered]
    exact attended.waiting pending core
  · intro done core
    rw [same] at done
    rw [notices, registered]
    exact attended.notified done core

theorem mergeSection_full {idx : Nat} (vars : MergeVars) (full : (table idx).freeSlots = 0) :
    mergeSection table idx parent vars = (table, vars.visit (table idx), false) := by
  unfold mergeSection
  cases found : (table idx).findSlot 0 with
  | none => simp only [found]
  | some slot =>
    have zero := findSlot_zero found
    have absent := count_eq_zero.mp full
    exact absurd (mem_ofFn.mpr ⟨slot, zero⟩) absent

theorem mergeUndo_of_ne (table : Table) {idx : Nat} (different : parent ≠ idx) :
    mergeUndo table idx parent parent = table parent := by
  unfold mergeUndo
  cases (table idx).findSlot parent with
  | none => rfl
  | some slot => exact set_of_ne _ _ different

/-- The section on a child with a free slot. -/
theorem Linking.visit {visited idx : Nat} {vars : MergeVars} (nonzero : parent ≠ 0)
    (absent : parent ∉ idxList) (linking : Linking idxList parent refcount visited vars state)
    (next : idxList[visited]? = some idx) {obj : Coredata}
    (same : SameButSlots (state.shared.table idx) obj)
    (slots : ∀ other, other ≠ 0 → obj.slotCount other =
      (state.shared.table idx).slotCount other + (if other = parent then 1 else 0))
    (table : state'.shared.table = state.shared.table.set idx obj)
    (calls : state'.calls = state.calls) :
    Linking idxList parent refcount (visited + 1) (vars.visit (state.shared.table idx)) state' := by
  have inside : visited < idxList.length := (List.getElem?_eq_some_iff.mp next).1
  have different : idx ≠ parent := by
    rintro rfl
    exact absent (List.mem_of_getElem? next)
  have taken : idxList.take (visited + 1) = idxList.take visited ++ [idx] := by
    rw [List.take_add_one, next]
    rfl
  have count := linking.balanced.count
  refine ⟨linking.unlinked.of_eq ?_, inside, ⟨?_, ?_⟩, ?_⟩
  · rw [table, set_of_ne _ _ different.symm]
  · intro child cause
    rw [table] at cause ⊢
    rw [taken, List.count_append, List.count_singleton]
    by_cases equal : child = idx
    · subst equal
      rw [set_self, same.pending] at cause
      rw [set_self, slots parent nonzero, linking.balanced.slots child cause]
      simp
    · rw [set_of_ne _ _ equal] at cause ⊢
      have apart : (idx == child) = false := by simpa using Ne.symm equal
      rw [linking.balanced.slots child cause, apart]
      simp
  · have owed : state'.owed parent = state.owed parent := by
      unfold MergeSystem.owed
      rw [calls]
    rw [MergeVars.visit_numChild, table, pendingCount_set_of_eq same.pending, taken, count]
    unfold pendingCount
    rw [List.countP_append, List.countP_singleton]
    omega
  · intro unsignaled
    obtain ⟨before, child⟩ := (MergeVars.visit_eq_active _ _).mp unsignaled
    rw [MergeVars.visit_numChild, pending_of_status child, linking.unsignaled before]
    rfl

/-- The last section of the merge. -/
theorem Linking.finish {visited : Nat} {vars : MergeVars} (attended : Attended parent state)
    (nonempty : idxList ≠ []) (absent : parent ∉ idxList)
    (linking : Linking idxList parent refcount visited vars state) (last : idxList.length ≤ visited)
    (unwatched : vars.numChild = 0 → ∀ core, (state.shared.table parent).waiters core = false)
    (table : state'.shared.table = mergeFinish state.shared.table parent vars)
    (calls : state'.calls = state.calls) (registered : state'.registered = state.registered)
    (notices : ∀ core, state'.notices parent core = state.notices parent core) :
    Attended parent state' ∧ Completing idxList parent refcount state' := by
  have all : idxList.take visited = idxList := take_of_length_le last
  have some : 0 < idxList.length := length_pos_iff.mpr nonempty
  have balanced := linking.balanced
  rw [all] at balanced
  have waiting := attended.waiting linking.unlinked.pending
  have self := mergeFinish_self state.shared.table parent vars
  rw [linking.unlinked.numChild, linking.unlinked.refcount, Nat.zero_add] at self
  have done : vars.numChild = 0 → vars.parentStatus ≠ active := by
    intro zero unsignaled
    have count := linking.unsignaled unsignaled
    omega
  refine ⟨⟨?_, ?_, ?_, ?_, ?_⟩, ⟨?_, ?_, ?_⟩⟩
  · rw [calls]
    exact attended.others
  · rw [calls]
    exact attended.signals
  · rw [table, self]
    exact attended.handle
  · intro _ core
    rw [table, self, notices, registered]
    exact waiting core
  · intro signaled core
    have zero : vars.numChild = 0 := by
      by_contra more
      rw [table, self] at signaled
      rw [(pending_iff _).mpr (.inr more)] at signaled
      cases signaled
    obtain ⟨none, same⟩ := waiting core
    rw [unwatched zero core] at same
    rw [notices, registered, none, ← same]
    rfl
  · have count : (state'.shared.table parent).numChild = vars.numChild := by
      rw [table, self]
    rw [count]
    refine balanced.set_parent absent ?_ (table.trans rfl) calls
    rfl
  · rw [table, self]
    by_cases zero : vars.numChild = 0
    · simp [zero]
    · simp [zero]
  · rw [table, self]
    exact done

/-- A section of the merge keeps the invariant. -/
theorem Progress.merge (attended : Attended parent state) (ready : idxList ≠ [])
    (valid : ∀ child ∈ idxList, validIdx child = true) (absent : parent ∉ idxList)
    (nonzero : parent ≠ 0) (progress : Progress idxList parent refcount state)
    (orderly : Orderly idxList parent state .merge) :
    Attended parent (state.step idxList parent .merge) ∧
      Progress idxList parent refcount (state.step idxList parent .merge) := by
  have merge : (state.step idxList parent .merge).merge =
      (state.merge.step idxList parent state.shared.table).1 := rfl
  have table : (state.step idxList parent .merge).shared.table =
      (state.merge.step idxList parent state.shared.table).2 := rfl
  unfold Progress at progress
  cases phase : state.merge with
  | visit visited vars =>
    rw [phase] at progress
    cases next : idxList[visited]? with
    | none =>
      have result : state.merge.step idxList parent state.shared.table =
          (.returned 0, mergeFinish state.shared.table parent vars) := by
        rw [phase]
        simp only [MergePhase.step, next]
      rw [result] at merge table
      have last := getElem?_eq_none_iff.mp next
      have finishing : state.merge.finishing idxList = some vars := by
        rw [phase]
        exact if_pos last
      obtain ⟨attended', completing⟩ := progress.finish attended ready absent last
        (orderly vars finishing) table rfl rfl fun _ => rfl
      refine ⟨attended', ?_⟩
      unfold Progress
      rw [merge]
      exact completing
    | some idx =>
      have member := mem_of_getElem? next
      have different : parent ≠ idx := by
        rintro rfl
        exact absent member
      by_cases full : (state.shared.table idx).freeSlots = 0
      · have result : state.merge.step idxList parent state.shared.table =
            (.undo (vars.visit (state.shared.table idx)).numChild nomem, state.shared.table) := by
          rw [phase]
          simp only [MergePhase.step, next, valid idx member, if_true, mergeSection_full vars full]
        rw [result] at merge table
        have same : (state.step idxList parent .merge).shared.table parent =
            state.shared.table parent := by rw [table]
        refine ⟨attended.of_eq same rfl rfl fun _ => rfl, ?_⟩
        unfold Progress
        rw [merge]
        exact ⟨by decide, progress.unlinked.of_eq same⟩
      · obtain ⟨obj, sec, slotsOnly, -, slots⟩ :=
          mergeSection_eq vars nonzero (Nat.pos_of_ne_zero full)
        have result : state.merge.step idxList parent state.shared.table =
            (.visit (visited + 1) (vars.visit (state.shared.table idx)),
              state.shared.table.set idx obj) := by
          rw [phase]
          simp only [MergePhase.step, next, valid idx member, if_true, sec]
        rw [result] at merge table
        have same : (state.step idxList parent .merge).shared.table parent =
            state.shared.table parent := by
          rw [table]
          exact set_of_ne _ _ different
        refine ⟨attended.of_eq same rfl rfl fun _ => rfl, ?_⟩
        unfold Progress
        rw [merge]
        exact progress.visit nonzero absent next slotsOnly slots table rfl
  | undo numChild rc =>
    rw [phase] at progress
    have same : (state.step idxList parent .merge).shared.table parent =
        state.shared.table parent := by
      rw [table, phase]
      cases numChild with
      | zero => rfl
      | succ numChild =>
        apply mergeUndo_of_ne
        intro equal
        rw [getD_eq_getElem?_getD] at equal
        cases next : idxList[numChild]? with
        | none =>
          rw [next] at equal
          exact nonzero equal
        | some idx =>
          rw [next] at equal
          apply absent
          rw [equal]
          exact mem_of_getElem? next
    refine ⟨attended.of_eq same rfl rfl fun _ => rfl, ?_⟩
    unfold Progress
    rw [merge, phase]
    cases numChild with
    | zero =>
      change if rc = 0 then _ else _
      rw [if_neg progress.1]
      exact progress.2.of_eq same
    | succ numChild => exact ⟨progress.1, progress.2.of_eq same⟩
  | returned rc =>
    have same : state.step idxList parent .merge = state := by
      cases state
      cases phase
      rfl
    rw [same]
    exact ⟨attended, progress⟩

/-! ## Runs -/

/-- What holds in every state of an orderly run. -/
theorem progress_of_reaches (ready : MergeReady table idxList parent)
    (signals : Fin n → Nat × Nat) (others : ∀ i, (signals i).1 ≠ parent)
    (reaches : Reaches (guarded (Orderly idxList parent) (MergeSystem.step idxList parent))
      (.start table idxList parent signals) state) :
    Attended parent state ∧ Progress idxList parent (table parent).refcount state := by
  have pending : (table parent).pending = true := pending_of_status ready.status
  have unlinked : Unlinked parent (table parent).refcount
      (MergeSystem.start table idxList parent signals) :=
    ⟨ready.status, ready.numChild, rfl⟩
  refine @Reaches.invariant _ _ _ _ _ (fun state => Attended parent state ∧
    Progress idxList parent (table parent).refcount state) reaches ?_ ?_
  · constructor
    · refine ⟨others, fun _ => trivial, ready.handle, ?_, ?_⟩
      · intro _ core
        refine ⟨?_, ready.waiters core⟩
        simp [MergeSystem.notices, MergeSystem.start]
      · intro done
        rw [show (MergeSystem.start table idxList parent signals).shared.table = table from rfl,
          pending] at done
        cases done
    · have phase : (MergeSystem.start table idxList parent signals).merge =
          if validIdx parent = false then .returned invalid else .visit 0 .start := by
        unfold MergeSystem.start MergePhase.start
        simp [ready.nonempty]
      unfold Progress
      rw [phase]
      by_cases valid : validIdx parent = false
      · rw [if_pos valid]
        exact unlinked
      · rw [if_neg valid]
        refine ⟨unlinked, Nat.zero_le _, ⟨?_, ?_⟩, fun _ => rfl⟩
        · intro idx _
          exact ready.unnamed idx
        · simp [MergeVars.start, MergeSystem.start, pendingCount, MergeSystem.owed, owes]
  · rintro source event target ⟨attended, progress⟩ ⟨orderly, rfl⟩
    cases event with
    | signal i => exact progress.signal attended ready.held ready.notMem orderly
    | merge =>
      exact progress.merge attended ready.nonempty ready.valid ready.notMem ready.nonzero orderly
    | wait core => exact progress.wait attended ready.notMem core

/-- A merge into a fresh composite among signals of other objects: as long as the steps are
orderly, the composite is not signaled early, and it is complete in the end. -/
theorem mergeSafe_of_orderly (ready : MergeReady table idxList parent)
    (signals : Fin n → Nat × Nat) (others : ∀ i, (signals i).1 ≠ parent)
    (reaches : Reaches (guarded (Orderly idxList parent) (MergeSystem.step idxList parent))
      (.start table idxList parent signals) state) :
    MergeSafe idxList parent (table parent).refcount state := by
  obtain ⟨attended, progress⟩ := progress_of_reaches ready signals others reaches
  have early : Unlinked parent (table parent).refcount state →
      getStatus state.shared.table parent = active := fun unlinked =>
    (getStatus_eq_active_iff _ _).mpr unlinked.pending
  have notActive : ∀ idx, getStatus state.shared.table idx ≠ active ↔
      (state.shared.table idx).pending = false := by
    intro idx
    rw [ne_eq, getStatus_eq_active_iff]
    simp
  unfold Progress at progress
  constructor
  · intro signaled child member
    split at progress
    · exact absurd (early progress.unlinked) signaled
    · exact absurd (early progress.2) signaled
    · split at progress
      · have done := (notActive parent).mp signaled
        have count := progress.balanced.count
        have zero : (state.shared.table parent).numChild = 0 := by
          by_contra more
          rw [(pending_iff _).mpr (.inr more)] at done
          cases done
        rw [notActive]
        exact pendingCount_eq_zero.mp (by omega) child member
      · exact absurd (early progress) signaled
  · intro returned children told
    rw [returned] at progress
    have count := progress.balanced.count
    have none : pendingCount state.shared.table idxList = 0 :=
      pendingCount_eq_zero.mpr fun child member => (notActive child).mp (children child member)
    have owed : state.owed parent = 0 := Finset.sum_eq_zero fun i _ => told i
    have zero : (state.shared.table parent).numChild = 0 := by omega
    have done : (state.shared.table parent).pending = false := by
      simp [pending, zero, progress.done zero]
    refine ⟨zero, (notActive parent).mpr done, ?_, attended.notified done⟩
    rw [progress.references, if_neg (by simpa using zero)]
    rfl

/-- Two leaves and a composite, all freshly created. -/
def freshObjects : Table :=
  [1, 2, 3].foldl (fun table idx => initCoredata table idx idx) fun _ => .cleared

theorem mergeReady_freshObjects : MergeReady freshObjects [1, 2] 3 where
  nonempty := by decide
  valid := by decide
  notMem := by decide
  nonzero := by decide
  status := by decide
  numChild := by decide
  held := by decide
  handle := by decide
  waiters := by decide
  unnamed := by
    intro idx
    have parents : (freshObjects idx).parents = fun _ => 0 := by
      simp only [freshObjects, initCoredata, foldl_cons, foldl_nil, Table.set, update_apply]
      split
      · rfl
      · split
        · rfl
        · split <;> rfl
    unfold slotCount parentList
    rw [parents]
    rfl

/-- A merge of two leaves, and a signal of each. -/
def mergeOfTwo : MergeSystem 2 :=
  .start freshObjects [1, 2] 3 fun i => if i = 0 then (1, 2) else (2, 3)

/-- The signals come after the merge, and a core waits in between. -/
def orderlyEvents : List (MergeEvent 2) :=
  [.merge, .signal 0, .merge, .wait .nsp, .merge, .signal 0, .signal 0, .signal 0, .signal 1,
    .signal 1, .signal 1, .signal 1]

theorem mergeSafe_sample :
    MergeSafe [1, 2] 3 1 (orderlyEvents.foldl (MergeSystem.step [1, 2] 3) mergeOfTwo) := by
  refine mergeSafe_of_orderly mergeReady_freshObjects (fun i => if i = 0 then (1, 2) else (2, 3))
    (by decide) (Reaches.foldl ?_)
  refine ⟨?_, ?_, ?_, ?_, ?_, ?_, ?_, ?_, ?_, ?_, ?_, ?_, trivial⟩
  all_goals decide +kernel

/-- The first leaf is signaled after the merge has named the composite in it: the composite
is signaled while the second leaf is not. -/
theorem not_mergeSafe_of_early_signal :
    ¬ ∀ state, Reaches (guarded (fun _ _ => True) (MergeSystem.step [1, 2] 3)) mergeOfTwo state →
      MergeSafe [1, 2] 3 1 state := by
  intro claim
  have safe := claim ([.merge, .signal 0, .signal 0, .signal 0].foldl
    (MergeSystem.step [1, 2] 3) mergeOfTwo)
    (Reaches.foldl ⟨trivial, trivial, trivial, trivial, trivial⟩)
  have early := safe.notEarly (by decide +kernel) 2 (by decide)
  exact absurd early (by decide +kernel)

end Sm8650.Synx
