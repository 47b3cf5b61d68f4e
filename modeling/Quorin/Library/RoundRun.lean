import Mathlib.Data.List.Basic

/-- The states of a loop behind the given rounds; other steps happen between its rounds. -/
inductive RoundRun {Answer State : Type} (round : Answer → State → State)
    (other : State → State → Prop) (start : State) : List Answer → State → Prop where
  | start : RoundRun round other start [] start
  | round {answers : List Answer} {state : State} (run : RoundRun round other start answers state)
      (answer : Answer) : RoundRun round other start (answers ++ [answer]) (round answer state)
  | other {answers : List Answer} {state next : State}
      (run : RoundRun round other start answers state) (step : other state next) :
      RoundRun round other start answers next

namespace RoundRun

variable {Answer State : Type} {round : Answer → State → State} {other : State → State → Prop}
  {start state : State} {answers : List Answer}

/-- A progress that each counted round advances, and that nothing lowers, counts the rounds. -/
theorem counted (run : RoundRun round other start answers state) (counts : Answer → Bool)
    (progress : Nat → State → Prop) (begun : progress 0 start)
    (rounds : ∀ answer ∈ answers, ∀ count state, progress count state →
      progress (if counts answer then count + 1 else count) (round answer state))
    (others : ∀ count state next, other state next → progress count state → progress count next) :
    progress (answers.countP counts) state := by
  induction run with
  | start => exact begun
  | @round answers state run answer ih =>
      have before := ih fun given member => rounds given (List.mem_append_left _ member)
      have last := rounds answer (List.mem_append_right _ List.mem_cons_self) _ _ before
      rw [List.countP_append, List.countP_singleton]
      by_cases counted : counts answer
      · simpa [counted] using last
      · simpa [counted] using last
  | @other answers state next run step ih => exact others _ _ _ step (ih rounds)

/-- What every round and every other step keeps holds behind every run. -/
theorem kept (run : RoundRun round other start answers state) (holds : State → Prop)
    (begun : holds start)
    (rounds : ∀ answer ∈ answers, ∀ state, holds state → holds (round answer state))
    (others : ∀ state next, other state next → holds state → holds next) : holds state :=
  run.counted (fun _ => false) (fun _ => holds) begun
    (fun answer member _ => rounds answer member) (fun _ => others)

end RoundRun
