import Mathlib.Logic.Relation

/-!
# Sequences of calls

A component that is driven by calls is a function from its state and a call to a
reply and the next state. One component refines another when every reply of the
first and the reply of the second have the same view; the rule below needs this of
single calls only.
-/

namespace Sm8650.Transition

universe u v w

variable {σ τ : Type u} {ι : Type v} {ο ω : Type w}

/-- The replies to a sequence of calls and the state behind them. -/
def runCalls (step : σ → ι → ο × σ) : σ → List ι → List ο × σ
  | state, [] => ([], state)
  | state, call :: calls =>
    ((step state call).1 :: (runCalls step (step state call).2 calls).1,
      (runCalls step (step state call).2 calls).2)

theorem runCalls_append (step : σ → ι → ο × σ) (state : σ) (first second : List ι) :
    runCalls step state (first ++ second)
      = ((runCalls step state first).1 ++ (runCalls step (runCalls step state first).2 second).1,
        (runCalls step (runCalls step state first).2 second).2) := by
  induction first generalizing state with
  | nil => rfl
  | cons call calls ih => rw [List.cons_append, runCalls, ih, runCalls, List.cons_append]

/-- A relation kept by every single call, with equal views of the replies, is kept by
every sequence of calls, with equal views of the replies. -/
theorem runCalls_simulates {impl : σ → ι → ο × σ} {spec : τ → ι → ω × τ}
    {rel : σ → τ → Prop} {κ : Type w} {view : ο → κ} {viewSpec : ω → κ}
    (simulates : ∀ state abs call, rel state abs →
      view (impl state call).1 = viewSpec (spec abs call).1
        ∧ rel (impl state call).2 (spec abs call).2)
    {state : σ} {abs : τ} (related : rel state abs) (calls : List ι) :
    (runCalls impl state calls).1.map view = (runCalls spec abs calls).1.map viewSpec
      ∧ rel (runCalls impl state calls).2 (runCalls spec abs calls).2 := by
  induction calls generalizing state abs with
  | nil => exact ⟨rfl, related⟩
  | cons call calls ih =>
    obtain ⟨sameReply, relatedNext⟩ := simulates state abs call related
    obtain ⟨sameReplies, relatedEnd⟩ := ih relatedNext
    refine ⟨?_, relatedEnd⟩
    rw [runCalls, runCalls, List.map_cons, List.map_cons, sameReply, sameReplies]

end Sm8650.Transition
