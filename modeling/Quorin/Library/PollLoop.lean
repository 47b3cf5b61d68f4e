import Mathlib.Algebra.Order.Group.Defs
import Mathlib.Order.Defs.LinearOrder
import Mathlib.Logic.Function.Iterate

/-- Where a loop is that polls, gives up behind a deadline and sleeps between two polls. -/
inductive PollPoint (Time : Type) where
  | polling
  | missed
  | sleeping (wakeAt : Time)
  | found
  | gaveUp

/-- A loop with the time at which it began, its deadline, its next pause and the polls it has made. -/
structure PollLoop (Time : Type) where
  point : PollPoint Time
  begunAt : Time
  deadline : Time
  backoff : Time
  polls : Nat

namespace PollLoop

variable {Time : Type} [AddCommGroup Time] [LinearOrder Time]

/-- A loop that begins at a time. -/
def begin (now timeout first : Time) : PollLoop Time :=
  ⟨.polling, now, now + timeout, first, 0⟩

/-- The steps of a loop at a time; a pause ends no earlier than asked. -/
inductive Step (next : Time → Time) (possible : Bool → Prop) (now : Time) :
    PollLoop Time → PollLoop Time → Prop
  | hit {loop : PollLoop Time} (here : loop.point = .polling) (answered : possible true) :
      Step next possible now loop { loop with point := .found, polls := loop.polls + 1 }
  | miss {loop : PollLoop Time} (here : loop.point = .polling) (answered : possible false) :
      Step next possible now loop { loop with point := .missed, polls := loop.polls + 1 }
  | giveUp {loop : PollLoop Time} (here : loop.point = .missed) (late : loop.deadline ≤ now) :
      Step next possible now loop { loop with point := .gaveUp }
  | sleep {loop : PollLoop Time} (here : loop.point = .missed) (early : now < loop.deadline) :
      Step next possible now loop
        { loop with point := .sleeping (now + loop.backoff), backoff := next loop.backoff }
  | wake {loop : PollLoop Time} {wakeAt : Time} (here : loop.point = .sleeping wakeAt)
      (elapsed : wakeAt ≤ now) :
      Step next possible now loop { loop with point := .polling }

/-- The time that a number of pauses takes. -/
def slept (next : Time → Time) (first : Time) : Nat → Time
  | 0 => 0
  | count + 1 => slept next first count + next^[count] first

/-- The pauses that a loop has begun. -/
def pauses (loop : PollLoop Time) : Nat :=
  match loop.point with
  | .polling => loop.polls
  | .sleeping _ => loop.polls
  | _ => loop.polls - 1

/-- The time that is reached at the end of the pauses of a loop. -/
def reached (loop : PollLoop Time) (now : Time) : Time :=
  match loop.point with
  | .sleeping wakeAt => wakeAt
  | _ => now

/-- A loop has slept its pauses, and each of them began before its deadline. -/
structure Timed (next : Time → Time) (first timeout now : Time) (loop : PollLoop Time) : Prop where
  deadline : loop.deadline = loop.begunAt + timeout
  backoff : loop.backoff = next^[loop.pauses] first
  polled : loop.point = .missed → 0 < loop.polls
  waited : loop.begunAt + slept next first loop.pauses ≤ loop.reached now
  early : ∀ count, loop.pauses = count + 1 → slept next first count < timeout
  late : loop.point = .gaveUp → loop.deadline ≤ now

section Timing

variable {next : Time → Time} {first timeout now : Time} {possible : Bool → Prop}
  {loop after : PollLoop Time}

/-- A new loop is timed. -/
theorem begin_timed : (begin now timeout first).Timed next first timeout now where
  deadline := rfl
  backoff := rfl
  polled here := by cases here
  waited := by simp [begin, pauses, reached, slept]
  early count same := by cases same
  late here := by cases here

/-- A timed loop stays timed while time passes. -/
theorem Timed.later (timed : loop.Timed next first timeout now) {later : Time} (passed : now ≤ later) :
    loop.Timed next first timeout later where
  deadline := timed.deadline
  backoff := timed.backoff
  polled := timed.polled
  waited := by
    have waited := timed.waited
    unfold reached at waited ⊢
    cases here : loop.point <;> simp only [here] at waited ⊢
    all_goals first | exact waited | exact waited.trans passed
  early := timed.early
  late here := (timed.late here).trans passed

variable [IsOrderedAddMonoid Time]

/-- A step keeps a loop timed. -/
theorem Timed.step (timed : loop.Timed next first timeout now) (step : Step next possible now loop after) :
    after.Timed next first timeout now := by
  obtain ⟨deadline, backoff, polled, waited, early, late⟩ := timed
  cases step with
  | hit here answered =>
      simp only [pauses, reached, here] at backoff waited early
      exact ⟨deadline, backoff, (fun same => by cases same), waited, early, (fun same => by cases same)⟩
  | miss here answered =>
      simp only [pauses, reached, here] at backoff waited early
      exact ⟨deadline, backoff, fun _ => Nat.succ_pos _, waited, early, (fun same => by cases same)⟩
  | giveUp here passed =>
      simp only [pauses, reached, here] at backoff waited early
      exact ⟨deadline, backoff, (fun same => by cases same), waited, early, fun _ => passed⟩
  | sleep here inTime =>
      have positive := polled here
      simp only [pauses, reached, here] at backoff waited early
      have count : loop.polls = loop.polls - 1 + 1 := by omega
      have begun : slept next first (loop.polls - 1) < timeout := by
        have before := waited.trans_lt inTime
        rw [deadline] at before
        exact lt_of_add_lt_add_left before
      refine ⟨deadline, ?_, (fun same => by cases same), ?_, ?_, (fun same => by cases same)⟩
      · dsimp only [pauses]
        rw [count, Function.iterate_succ_apply', backoff]
      · dsimp only [pauses, reached]
        rw [count, slept, ← add_assoc, backoff]
        exact add_le_add_left waited _
      · intro index same
        dsimp only [pauses] at same
        obtain rfl : index = loop.polls - 1 := by omega
        exact begun
  | wake here elapsed =>
      simp only [pauses, reached, here] at backoff waited early
      exact ⟨deadline, backoff, (fun same => by cases same), waited.trans elapsed, early,
        (fun same => by cases same)⟩

/-- Behind its second poll a loop has slept less than its timeout, the last pause aside. -/
theorem Timed.bounded (timed : loop.Timed next first timeout now)
    (forward : ∀ count, 0 ≤ next^[count] first) {count : Nat} (polls : loop.polls = count + 2) :
    slept next first count < timeout := by
  have shorter : slept next first count ≤ slept next first (count + 1) :=
    le_add_of_nonneg_right (forward count)
  have early := timed.early
  unfold pauses at early
  cases here : loop.point <;> simp only [here, polls] at early
  case polling => exact shorter.trans_lt (early (count + 1) rfl)
  case sleeping => exact shorter.trans_lt (early (count + 1) rfl)
  all_goals exact early count rfl

end Timing

end PollLoop
