import Mathlib.Logic.Function.Basic
import Mathlib.Logic.Relation

/-!
# Reachability for labelled transitions

A system is a relation between a state, the label of the step taken, and the
next state. Reachability forgets the labels but not the steps, so a guard on
the label or on the source state is expressed by restricting the relation, and
every safety result is one application of the invariant rule.
-/

namespace Sm8650.Transition

open Function

universe u v

variable {σ : Type u} {ι : Type v}

instance neZeroTwo : @NeZero Nat Zero.ofOfNat0 2 := ⟨by decide⟩

/-- A labelled transition relation. -/
abbrev LabelledStep (σ : Type u) (ι : Type v) := σ → ι → σ → Prop

/-- The relation of a deterministic step function whose steps are taken only
where `guard` allows the label. -/
def guarded (guard : σ → ι → Prop) (next : σ → ι → σ) : LabelledStep σ ι :=
  fun source label target => guard source label ∧ target = next source label

/-- Every step of a list is allowed when its turn comes. -/
def Allowed (guard : σ → ι → Prop) (next : σ → ι → σ) : σ → List ι → Prop
  | _, [] => True
  | state, label :: labels => guard state label ∧ Allowed guard next (next state label) labels

variable {next : σ → ι → σ}

theorem Allowed.append {guard : σ → ι → Prop} {state : σ}
    {first second : List ι} (before : Allowed guard next state first)
    (after : Allowed guard next (first.foldl next state) second) :
    Allowed guard next state (first ++ second) := by
  induction first generalizing state with
  | nil => exact after
  | cons label first ih => exact ⟨before.1, ih before.2 after⟩

theorem Allowed.mono {guard wider : σ → ι → Prop} {state : σ}
    {labels : List ι} (allowed : Allowed guard next state labels)
    (included : ∀ state label, guard state label → wider state label) :
    Allowed wider next state labels := by
  induction labels generalizing state with
  | nil => trivial
  | cons label labels ih => exact ⟨included _ _ allowed.1, ih allowed.2⟩

theorem Allowed.always (next : σ → ι → σ) (state : σ) (labels : List ι) :
    Allowed (fun _ _ => True) next state labels := by
  induction labels generalizing state with
  | nil => trivial
  | cons label labels ih => exact ⟨trivial, ih (next state label)⟩

/-- Reflexive finite reachability. -/
def Reaches (step : LabelledStep σ ι) : σ → σ → Prop :=
  Relation.ReflTransGen fun source target => ∃ label, step source label target

namespace Reaches

variable {step : LabelledStep σ ι} {source middle target : σ} {label : ι}

theorem refl (step : LabelledStep σ ι) (state : σ) : Reaches step state state :=
  Relation.ReflTransGen.refl

theorem tail (first : Reaches step source middle)
    (last : step middle label target) : Reaches step source target :=
  Relation.ReflTransGen.tail first ⟨label, last⟩

theorem trans (first : Reaches step source middle)
    (second : Reaches step middle target) : Reaches step source target :=
  Relation.ReflTransGen.trans first second

/-- A list of allowed steps is a run. -/
theorem foldl {guard : σ → ι → Prop} {labels : List ι}
    (allowed : Allowed guard next source labels) :
    Reaches (guarded guard next) source (labels.foldl next source) := by
  induction labels generalizing source with
  | nil => exact refl _ source
  | cons label labels ih =>
    exact trans (tail (refl _ source) ⟨allowed.1, rfl⟩) (ih allowed.2)

/-- A list of steps that a partial step function can take is a run. -/
theorem foldlM {next : σ → ι → Option σ} {labels : List ι}
    (taken : labels.foldlM next source = some target) :
    Reaches (fun state label after => next state label = some after) source target := by
  induction labels generalizing source with
  | nil =>
    cases taken
    exact refl _ _
  | cons label labels ih =>
    obtain ⟨middle, first, rest⟩ := Option.bind_eq_some_iff.mp taken
    exact trans (tail (refl _ source) first) (ih rest)

/-- A run of a system is a run of every system with more steps. -/
theorem mono {wider : LabelledStep σ ι} (reaches : Reaches step source target)
    (included : ∀ ⦃state label next⦄, step state label next → wider state label next) :
    Reaches wider source target := by
  induction reaches with
  | refl => exact refl _ source
  | tail _ last ih =>
    obtain ⟨label, taken⟩ := last
    exact tail ih (included taken)

/-- A predicate that holds initially and is preserved by every step holds in
every reachable state. -/
theorem invariant {inv : σ → Prop} (reaches : Reaches step source target) (initial : inv source)
    (preserved : ∀ ⦃state label next⦄, inv state → step state label next → inv next) :
    inv target := by
  induction reaches with
  | refl => exact initial
  | tail _ last holds =>
    obtain ⟨label, taken⟩ := last
    exact preserved holds taken

end Reaches

section Tables

variable {α β : Type} [DecidableEq ι] {table : ι → α} {i : ι} {entry : α}

theorem field_update (field : α → β) (same : field entry = field (table i)) (j : ι) :
    field (update table i entry j) = field (table j) := by
  rw [update_apply]
  split
  case isTrue isUpdated => rw [same, isUpdated]
  case isFalse => rfl

theorem of_update_none {table : ι → Option α} {j : ι}
    (found : update table i none j = some entry) : j ≠ i ∧ table j = some entry := by
  rw [update_apply] at found
  split at found
  case isTrue => cases found
  case isFalse different => exact ⟨different, found⟩

end Tables

end Sm8650.Transition
