import Mathlib.Logic.Relation

/-- Every execution comes to a goal: it never gets stuck in front of one and never runs forever. -/
inductive Inevitable {α : Type} (step : α → α → Prop) (goal : α → Prop) : α → Prop where
  | now {state : α} (reached : goal state) : Inevitable step goal state
  | later {state : α} (moves : ∃ next, step state next)
      (all : ∀ next, step state next → Inevitable step goal next) : Inevitable step goal state

namespace Inevitable

variable {α : Type} {step : α → α → Prop} {goal : α → Prop} {state next : α}

/-- A state in front of a goal with one way on comes to a goal as the next state does. -/
theorem iff_next (ahead : ¬ goal state) (move : step state next)
    (only : ∀ other, step state other → other = next) :
    Inevitable step goal state ↔ Inevitable step goal next := by
  constructor
  · intro inevitable
    cases inevitable with
    | now reached => exact absurd reached ahead
    | later moves all => exact all next move
  · intro inevitable
    refine .later ⟨next, move⟩ ?_
    intro other taken
    rw [only other taken]
    exact inevitable

/-- A state in front of a goal without a way on never comes to a goal. -/
theorem not_of_stuck (ahead : ¬ goal state) (stuck : ∀ next, ¬ step state next) :
    ¬ Inevitable step goal state := by
  intro inevitable
  cases inevitable with
  | now reached => exact ahead reached
  | later moves all =>
      obtain ⟨next, move⟩ := moves
      exact stuck next move

end Inevitable
