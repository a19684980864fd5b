import Sm8650.Synx.Sections

/-!
# Calls in sections

A call of `synx_global_update_status` checks the object in one section and signals it in
the next; between its sections other calls run. What a call tells the parents is kept in
a log together with the child it does so for.
-/

namespace Sm8650.Synx

/-- An update of `parent` on behalf of `child`; `counted` says whether it took one from
the children the parent waits for. -/
structure Told where
  child : Nat
  parent : Nat
  counted : Bool
  deriving DecidableEq, Repr

/-- The table, the messages sent about each object, and the updates of parents. -/
structure Shared where
  table : Table
  sent : List (Nat × Message)
  told : List Told

/-- The next section of a call: the check, the section on the object itself, or the
sections on the parents, each listed with the child it is told about. -/
inductive SignalPhase
  | check
  | object
  | parents (work : List (Nat × Nat))
  | returned (rc : Int)
  deriving DecidableEq, Repr

/-- A call of `synx_global_update_status`. -/
structure SignalCall where
  idx : Nat
  status : Nat
  phase : SignalPhase
  deriving DecidableEq, Repr

/-- The state after the section on `idx`. -/
def Shared.update (shared : Shared) (idx status : Nat) : Shared :=
  { shared with
    table := (updateSection shared.table idx status).table
    sent := shared.sent ++
      (updateSection shared.table idx status).messages.map fun message => (idx, message) }

/-- The parents still to tell after the section on `idx`. -/
def Shared.toTell (shared : Shared) (idx status : Nat) : List (Nat × Nat) :=
  (updateSection shared.table idx status).parents.map fun parent => (idx, parent)

/-- The next section of a call. -/
def SignalCall.step (call : SignalCall) (shared : Shared) : SignalCall × Shared :=
  match call.phase with
  | .check =>
    if validIdx call.idx = false ∨ call.status ≤ active then
      ({ call with phase := .returned invalid }, shared)
    else
      match updateStatusCheck shared.table call.idx with
      | some rc => ({ call with phase := .returned rc }, shared)
      | none => ({ call with phase := .object }, shared)
  | .object =>
    ({ call with phase := .parents (shared.toTell call.idx call.status) },
      shared.update call.idx call.status)
  | .parents [] => ({ call with phase := .returned 0 }, shared)
  | .parents ((child, parent) :: work) =>
    ({ call with phase := .parents (shared.toTell parent call.status ++ work) },
      { shared.update parent call.status with
        told := shared.told ++ [⟨child, parent, decide ((shared.table parent).numChild ≠ 0)⟩] })
  | .returned _ => (call, shared)

section Step

variable {call : SignalCall} {shared : Shared}

theorem SignalCall.step_check (check : call.phase = .check) (valid : validIdx call.idx = true)
    (signal : active < call.status) :
    call.step shared =
      match updateStatusCheck shared.table call.idx with
      | some rc => ({ call with phase := .returned rc }, shared)
      | none => ({ call with phase := .object }, shared) := by
  unfold step
  rw [check]
  simp only
  rw [if_neg]
  simp only [valid, Bool.true_eq_false, false_or]
  omega

end Step

/-! ## The object of the next section -/

/-- The object that the next section of a call updates. -/
def SignalCall.target (call : SignalCall) : Option Nat :=
  match call.phase with
  | .object => some call.idx
  | .parents ((_, parent) :: _) => some parent
  | _ => none

/-- The updates of `parent` that a call has still to make. -/
def SignalCall.owes (call : SignalCall) (parent : Nat) : Nat :=
  match call.phase with
  | .parents work => (work.map Prod.snd).count parent
  | _ => 0

/-- A call gets past its check with a status that signals only. -/
def SignalCall.Signals (call : SignalCall) : Prop :=
  match call.phase with
  | .object => active < call.status
  | .parents _ => active < call.status
  | _ => True

/-- A step that updates no object. -/
theorem SignalCall.step_of_target_none {call : SignalCall} {shared : Shared}
    (none : call.target = none) (signals : call.Signals) :
    (call.step shared).2 = shared ∧ (call.step shared).1.idx = call.idx ∧
      (call.step shared).1.Signals ∧
      ∀ parent, (call.step shared).1.owes parent = call.owes parent := by
  obtain ⟨idx, status, phase⟩ := call
  cases phase with
  | check =>
    unfold step
    simp only
    split
    · exact ⟨rfl, rfl, trivial, fun _ => rfl⟩
    · split
      · exact ⟨rfl, rfl, trivial, fun _ => rfl⟩
      · refine ⟨rfl, rfl, ?_, fun _ => rfl⟩
        change active < status
        omega
  | object => cases none
  | parents work =>
    cases work with
    | nil => exact ⟨rfl, rfl, trivial, fun _ => rfl⟩
    | cons item work => cases none
  | returned rc => exact ⟨rfl, rfl, trivial, fun _ => rfl⟩

/-- A step that updates `idx`: its parents are told next. -/
theorem SignalCall.step_of_target {call : SignalCall} {shared : Shared} {idx : Nat}
    (target : call.target = some idx) (signals : call.Signals) :
    active < call.status ∧
      ∃ rest shared', call.step shared =
          (⟨call.idx, call.status, .parents (shared.toTell idx call.status ++ rest)⟩, shared') ∧
        shared'.table = (updateSection shared.table idx call.status).table ∧
        shared'.sent = (shared.update idx call.status).sent ∧
        ∀ parent, parent ≠ call.idx →
          call.owes parent = (if idx = parent then 1 else 0) + (rest.map Prod.snd).count parent := by
  obtain ⟨self, status, phase⟩ := call
  cases phase with
  | check => cases target
  | object =>
    obtain rfl : self = idx := Option.some.inj target
    refine ⟨signals, [], shared.update self status, ?_, rfl, rfl, ?_⟩
    · simp [step]
    · intro parent different
      rw [if_neg (Ne.symm different)]
      rfl
  | parents work =>
    cases work with
    | nil => cases target
    | cons item work =>
      obtain ⟨child, named⟩ := item
      obtain rfl : named = idx := Option.some.inj target
      refine ⟨signals, work, _, rfl, rfl, rfl, ?_⟩
      simp only [owes, List.map_cons, List.count_cons, beq_iff_eq]
      omega
  | returned rc => cases target

theorem SignalCall.owes_toTell (idx status self : Nat) (signal : Nat) (shared : Shared)
    (rest : List (Nat × Nat)) (parent : Nat) :
    (SignalCall.mk self signal (.parents (shared.toTell idx status ++ rest))).owes parent =
      (updateSection shared.table idx status).parents.count parent +
        (rest.map Prod.snd).count parent := by
  simp [owes, Shared.toTell]

end Sm8650.Synx
