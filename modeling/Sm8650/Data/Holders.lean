import Mathlib.Data.BitVec

/-!
# References held by a list of holders

Every holder refers to the objects of a list, with repetitions. What is counted is
how often one object is referred to by all holders together; replacing what one
holder refers to changes the count by that holder's own part alone.
-/

namespace Sm8650.Data

universe u

variable {ι : Type u} [BEq ι]

/-- How many references to `object` the holders have between them. -/
def held (holders : List (List ι)) (object : ι) : Nat :=
  (holders.map (List.count object)).sum

@[simp]
theorem held_nil (object : ι) : held [] object = 0 := rfl

@[simp]
theorem held_cons (first : List ι) (holders : List (List ι)) (object : ι) :
    held (first :: holders) object = first.count object + held holders object := by
  simp [held]

@[simp]
theorem held_append (holders more : List (List ι)) (object : ι) :
    held (holders ++ more) object = held holders object + held more object := by
  simp [held]

/-- One holder's part can be taken out of the count: the rest does not depend on
what that holder refers to. -/
theorem exists_rest_of_getElem? {holders : List (List ι)} {i : Nat} {own : List ι}
    (found : holders[i]? = some own) :
    ∃ rest : ι → Nat, (held holders = fun object => rest object + own.count object)
      ∧ ∀ now : List ι,
        held (holders.set i now) = fun object => rest object + now.count object := by
  induction holders generalizing i with
  | nil => simp at found
  | cons first holders ih =>
    cases i with
    | zero =>
      have same : first = own := by simpa using found
      subst same
      refine ⟨held holders, ?_, fun now => ?_⟩
      · funext object
        rw [held_cons, Nat.add_comm]
      · funext object
        rw [List.set_cons_zero, held_cons, Nat.add_comm]
    | succ i =>
      obtain ⟨rest, before, after⟩ := ih (by simpa using found)
      refine ⟨fun object => first.count object + rest object, ?_, fun now => ?_⟩
      · funext object
        rw [held_cons, before, Nat.add_assoc]
      · funext object
        rw [List.set_cons_succ, held_cons, after, Nat.add_assoc]

end Sm8650.Data
