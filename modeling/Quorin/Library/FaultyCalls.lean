import Mathlib.Logic.Basic

namespace FaultyCalls

/-- A call returns, or it raises before or after its effect took place. -/
inductive CallOutcome where
  | returned
  | raisedBefore
  | raisedAfter
  deriving DecidableEq

/-- A program of atomic effects on a shared state that may raise. -/
inductive Attempt (σ ε α : Type) where
  | done (value : α)
  | raised (error : ε)
  | step (effect : σ → σ) (next : σ → Attempt σ ε α)

namespace Attempt

variable {σ ε α β : Type}

def bind : Attempt σ ε α → (α → Attempt σ ε β) → Attempt σ ε β
  | done value, next => next value
  | raised error, _ => raised error
  | step effect rest, next => step effect fun state => (rest state).bind next

instance : Monad (Attempt σ ε) where
  pure := done
  bind := bind

/-- The result of a program as a value. -/
def attempt : Attempt σ ε α → Attempt σ ε (Except ε α)
  | done value => done (.ok value)
  | raised error => done (.error error)
  | step effect next => step effect fun state => (next state).attempt

/-- The result of an attempt as the end of a program. -/
def ofExcept : Except ε α → Attempt σ ε α
  | .ok value => done value
  | .error error => raised error

/-- An `except` block that runs a handler and raises again. -/
def onError (program : Attempt σ ε α) (handler : Attempt σ ε Unit) : Attempt σ ε α :=
  program.attempt.bind fun result =>
    match result with
    | .ok value => done value
    | .error error => handler.bind fun _ => raised error

/-- A `with suppress` block. -/
def suppress (program : Attempt σ ε α) : Attempt σ ε Unit :=
  program.attempt.bind fun _ => done ()

/-- A `finally` block. -/
def ensure (program : Attempt σ ε α) (cleanup : Attempt σ ε Unit) : Attempt σ ε α :=
  program.attempt.bind fun result => cleanup.bind fun _ => ofExcept result

/-- A call with an effect on the state and a result that is read before it. -/
def call (outcome : CallOutcome) (error : ε) (effect : σ → σ) (result : σ → α) : Attempt σ ε α :=
  match outcome with
  | .returned => step effect fun state => done (result state)
  | .raisedBefore => raised error
  | .raisedAfter => step effect fun _ => raised error

/-- A local step that decides from the state how to go on. -/
def inspect (next : σ → Attempt σ ε α) : Attempt σ ε α := step id next

/-- No run of the program returns, whatever happens between its steps. -/
def Fails : Attempt σ ε α → Prop
  | done _ => False
  | raised _ => True
  | step _ next => ∀ state, (next state).Fails

/-- An uninterrupted run. -/
def run : Attempt σ ε α → σ → Except ε α × σ
  | done value, state => (.ok value, state)
  | raised error, state => (.error error, state)
  | step effect next, state => (next state).run (effect state)

theorem fails_bind (program : Attempt σ ε α) {next : α → Attempt σ ε β}
    (fails : ∀ value, (next value).Fails) : (program.bind next).Fails := by
  induction program with
  | done value => exact fails value
  | raised error => trivial
  | step effect rest ih => exact fun state => ih state

theorem bind_assoc {γ : Type} (program : Attempt σ ε α) (next : α → Attempt σ ε β)
    (last : β → Attempt σ ε γ) :
    (program.bind next).bind last = program.bind fun value => (next value).bind last := by
  induction program with
  | done value => rfl
  | raised error => rfl
  | step effect rest ih => exact congrArg (step effect) (funext ih)

theorem bind_done (program : Attempt σ ε α) : (program.bind fun value => done value) = program := by
  induction program with
  | done value => rfl
  | raised error => rfl
  | step effect rest ih => exact congrArg (step effect) (funext ih)

/-- The result of a sequence is the result of its second part, or the error of its first one. -/
theorem attempt_bind (program : Attempt σ ε α) (next : α → Attempt σ ε β) :
    (program.bind next).attempt = program.attempt.bind fun result =>
      match result with
      | .ok value => (next value).attempt
      | .error error => done (.error error) := by
  induction program with
  | done value => rfl
  | raised error => rfl
  | step effect rest ih => exact congrArg (step effect) (funext ih)

/-- Behind a result that is a value only the rest can raise. -/
theorem attempt_attempt_bind (program : Attempt σ ε α) (next : Except ε α → Attempt σ ε β) :
    (program.attempt.bind next).attempt = program.attempt.bind fun result => (next result).attempt := by
  induction program with
  | done value => rfl
  | raised error => rfl
  | step effect rest ih => exact congrArg (step effect) (funext ih)

/-- A handler around a sequence is a handler around its second part, with one way for each result of
the first part. -/
theorem onError_bind (program : Attempt σ ε α) (next : α → Attempt σ ε β) (handler : Attempt σ ε Unit) :
    (program.bind next).onError handler = program.attempt.bind fun result =>
      match result with
      | .ok value => (next value).onError handler
      | .error error => handler.bind fun _ => raised error := by
  rw [onError, attempt_bind, bind_assoc]
  congr 1
  funext result
  cases result <;> rfl

theorem ensure_bind (program : Attempt σ ε α) (next : α → Attempt σ ε β) (cleanup : Attempt σ ε Unit) :
    (program.bind next).ensure cleanup = program.attempt.bind fun result =>
      match result with
      | .ok value => (next value).ensure cleanup
      | .error error => cleanup.bind fun _ => raised error := by
  rw [ensure, attempt_bind, bind_assoc]
  congr 1
  funext result
  cases result <;> rfl

/-- A last step that only changes the result moves into the block. -/
theorem onError_map (program : Attempt σ ε α) (handler : Attempt σ ε Unit) (convert : α → β) :
    ((program.onError handler).bind fun value => .done (convert value)) =
      (program.bind fun value => .done (convert value)).onError handler := by
  rw [onError_bind, onError, bind_assoc]
  congr 1
  funext result
  cases result with
  | ok value => rfl
  | error error => exact bind_assoc _ _ _

theorem ensure_map (program : Attempt σ ε α) (cleanup : Attempt σ ε Unit) (convert : α → β) :
    ((program.ensure cleanup).bind fun value => .done (convert value)) =
      (program.bind fun value => .done (convert value)).ensure cleanup := by
  rw [ensure_bind, ensure, bind_assoc]
  congr 1
  funext result
  cases result with
  | ok value => exact bind_assoc _ _ _
  | error error => exact bind_assoc _ _ _

theorem ensure_attempt_bind (program : Attempt σ ε α) (next : Except ε α → Attempt σ ε β)
    (cleanup : Attempt σ ε Unit) :
    (program.attempt.bind next).ensure cleanup =
      program.attempt.bind fun result => (next result).ensure cleanup := by
  rw [ensure, attempt_attempt_bind, bind_assoc]
  rfl

section Run

variable (program : Attempt σ ε α) (state : σ)

@[simp] theorem run_done (value : α) : (done value : Attempt σ ε α).run state = (.ok value, state) :=
  rfl

@[simp] theorem run_raised (error : ε) :
    (raised error : Attempt σ ε α).run state = (.error error, state) := rfl

@[simp] theorem run_step (effect : σ → σ) (next : σ → Attempt σ ε α) :
    (step effect next).run state = (next state).run (effect state) := rfl

@[simp] theorem run_inspect (next : σ → Attempt σ ε α) :
    (inspect next).run state = (next state).run state := rfl

theorem run_bind_ok {value : α} {after : σ} {next : α → Attempt σ ε β}
    (ok : program.run state = (.ok value, after)) :
    (program.bind next).run state = (next value).run after := by
  induction program generalizing state with
  | done value =>
      cases ok
      rfl
  | raised error => cases ok
  | step effect rest ih => exact ih state _ ok

theorem run_bind_error {error : ε} {after : σ} {next : α → Attempt σ ε β}
    (failed : program.run state = (.error error, after)) :
    (program.bind next).run state = (.error error, after) := by
  induction program generalizing state with
  | done value => cases failed
  | raised error =>
      cases failed
      rfl
  | step effect rest ih => exact ih state _ failed

/-- A sequence depends on its first part only through the run of that part. -/
theorem run_bind_congr {other : Attempt σ ε α} {start : σ} {next : α → Attempt σ ε β}
    (same : program.run state = other.run start) :
    (program.bind next).run state = (other.bind next).run start := by
  cases ran : other.run start with
  | mk result after =>
      cases result with
      | ok value => rw [run_bind_ok _ _ (same.trans ran), run_bind_ok _ _ ran]
      | error error => rw [run_bind_error _ _ (same.trans ran), run_bind_error _ _ ran]

/-- A sequence succeeds only when its first part does. -/
theorem run_bind_inv {next : α → Attempt σ ε β} {result : β} {after : σ}
    (ok : (program.bind next).run state = (.ok result, after)) :
    ∃ value middle, program.run state = (.ok value, middle) ∧
      (next value).run middle = (.ok result, after) := by
  induction program generalizing state with
  | done value => exact ⟨value, state, rfl, ok⟩
  | raised error => cases ok
  | step effect rest ih => exact ih state _ ok

theorem run_attempt : program.attempt.run state =
    (.ok (program.run state).1, (program.run state).2) := by
  induction program generalizing state with
  | done value => rfl
  | raised error => rfl
  | step effect rest ih => exact ih state _

/-- A call that reads keeps the state. -/
@[simp] theorem run_call_id (outcome : CallOutcome) (error : ε) (result : σ → α) :
    ((call outcome error id result).run state).2 = state := by
  cases outcome <;> rfl

theorem run_call_ok {outcome : CallOutcome} {error : ε} {effect : σ → σ} {result : σ → α}
    {value : α} {after : σ} (ok : (call outcome error effect result).run state = (.ok value, after)) :
    outcome = .returned ∧ value = result state ∧ after = effect state := by
  cases outcome with
  | returned =>
      cases ok
      exact ⟨rfl, rfl, rfl⟩
  | raisedBefore => cases ok
  | raisedAfter => cases ok

/-- A program that starts with a call succeeds only when the call returned. -/
theorem run_call_bind_ok {outcome : CallOutcome} {error : ε} {effect : σ → σ} {result : σ → α}
    {next : α → Attempt σ ε β} {value : β} {after : σ}
    (ok : ((call outcome error effect result).bind next).run state = (.ok value, after)) :
    outcome = .returned ∧ (next (result state)).run (effect state) = (.ok value, after) := by
  cases outcome with
  | returned => exact ⟨rfl, ok⟩
  | raisedBefore => cases ok
  | raisedAfter => cases ok

@[simp] theorem run_ofExcept (result : Except ε α) :
    (ofExcept result : Attempt σ ε α).run state = (result, state) := by
  cases result <;> rfl

theorem run_onError_ok {value : α} {after : σ} {handler : Attempt σ ε Unit}
    (ok : program.run state = (.ok value, after)) :
    (program.onError handler).run state = (.ok value, after) := by
  rw [onError, run_bind_ok _ _ (run_attempt program state), ok]
  rfl

theorem run_onError_error {error : ε} {after : σ} {handler : Attempt σ ε Unit}
    (failed : program.run state = (.error error, after)) :
    (program.onError handler).run state = (handler.bind fun _ => raised error).run after := by
  rw [onError, run_bind_ok _ _ (run_attempt program state), failed]

theorem run_onError_congr {other : Attempt σ ε α} {start : σ} {handler : Attempt σ ε Unit}
    (same : program.run state = other.run start) :
    (program.onError handler).run state = (other.onError handler).run start := by
  apply run_bind_congr
  rw [run_attempt, run_attempt, same]

theorem run_suppress : program.suppress.run state = (.ok (), (program.run state).2) := by
  rw [suppress, run_bind_ok _ _ (run_attempt program state)]
  rfl

theorem run_ensure (cleanup : Attempt σ ε Unit) :
    (program.ensure cleanup).run state =
      (cleanup.bind fun _ => ofExcept (program.run state).1).run (program.run state).2 := by
  rw [ensure, run_bind_ok _ _ (run_attempt program state)]

/-- A block with a handler that raises again succeeds only when the block does. -/
theorem run_onError_inv {handler : Attempt σ ε Unit} {value : α} {after : σ}
    (ok : (program.onError handler).run state = (.ok value, after)) :
    program.run state = (.ok value, after) := by
  cases ran : program.run state with
  | mk result middle =>
      cases result with
      | ok other =>
          rw [run_onError_ok _ _ ran] at ok
          exact ok
      | error error =>
          rw [run_onError_error _ _ ran] at ok
          obtain ⟨_, _, _, failed⟩ := run_bind_inv _ _ ok
          cases failed

/-- A block with a `finally` succeeds only when the block does. -/
theorem run_ensure_inv (cleanup : Attempt σ ε Unit) {value : α} {after : σ}
    (ok : (program.ensure cleanup).run state = (.ok value, after)) :
    ∃ middle, program.run state = (.ok value, middle) := by
  rw [run_ensure] at ok
  obtain ⟨_, middle, _, finished⟩ := run_bind_inv _ _ ok
  rw [run_ofExcept] at finished
  exact ⟨(program.run state).2, Prod.ext (Prod.mk.inj finished).1 rfl⟩

end Run

/-- Every effect of a program keeps an invariant, whatever its calls return. -/
def Keeps (invariant : σ → Prop) : Attempt σ ε α → Prop
  | done _ => True
  | raised _ => True
  | step effect next => ∀ state, invariant state →
      invariant (effect state) ∧ (next state).Keeps invariant

section Keeps

variable {invariant : σ → Prop} {program : Attempt σ ε α}

theorem Keeps.bind {next : α → Attempt σ ε β} (first : program.Keeps invariant)
    (later : ∀ value, (next value).Keeps invariant) : (program.bind next).Keeps invariant := by
  induction program with
  | done value => exact later value
  | raised error => trivial
  | step effect rest ih =>
      intro state holds
      exact ⟨(first state holds).1, ih state (first state holds).2⟩

theorem Keeps.attempt (keeps : program.Keeps invariant) : program.attempt.Keeps invariant := by
  induction program with
  | done value => trivial
  | raised error => trivial
  | step effect rest ih =>
      intro state holds
      exact ⟨(keeps state holds).1, ih state (keeps state holds).2⟩

theorem keeps_ofExcept (result : Except ε α) :
    (ofExcept result : Attempt σ ε α).Keeps invariant := by
  cases result <;> trivial

theorem Keeps.onError {handler : Attempt σ ε Unit} (keeps : program.Keeps invariant)
    (handles : handler.Keeps invariant) : (program.onError handler).Keeps invariant := by
  apply keeps.attempt.bind
  intro result
  cases result with
  | ok value => trivial
  | error error => exact handles.bind fun _ => trivial

theorem Keeps.suppress (keeps : program.Keeps invariant) : program.suppress.Keeps invariant :=
  keeps.attempt.bind fun _ => trivial

theorem Keeps.ensure {cleanup : Attempt σ ε Unit} (keeps : program.Keeps invariant)
    (cleans : cleanup.Keeps invariant) : (program.ensure cleanup).Keeps invariant :=
  keeps.attempt.bind fun _ => cleans.bind fun _ => keeps_ofExcept _

theorem keeps_call {outcome : CallOutcome} {error : ε} {effect : σ → σ} {result : σ → α}
    (keeps : ∀ state, invariant state → invariant (effect state)) :
    (call outcome error effect result).Keeps invariant := by
  cases outcome with
  | returned => exact fun state holds => ⟨keeps state holds, trivial⟩
  | raisedBefore => trivial
  | raisedAfter => exact fun state holds => ⟨keeps state holds, trivial⟩

theorem keeps_inspect {next : σ → Attempt σ ε α}
    (keeps : ∀ state, invariant state → (next state).Keeps invariant) :
    (inspect next).Keeps invariant :=
  fun state holds => ⟨holds, keeps state holds⟩

/-- A run of a program that keeps an invariant ends in it, with a result or with an error. -/
theorem Keeps.run (keeps : program.Keeps invariant) {state : σ} (holds : invariant state) :
    invariant (program.run state).2 := by
  induction program generalizing state with
  | done value => exact holds
  | raised error => exact holds
  | step effect rest ih => exact ih state (keeps state holds).2 (keeps state holds).1

end Keeps

/-- Every effect of a program is a step of a relation, from every state. -/
def Within (relation : σ → σ → Prop) : Attempt σ ε α → Prop
  | done _ => True
  | raised _ => True
  | step effect next => ∀ state, relation state (effect state) ∧ (next state).Within relation

section Within

variable {relation : σ → σ → Prop} {program : Attempt σ ε α}

theorem Within.mono {wider : σ → σ → Prop} (within : program.Within relation)
    (implies : ∀ before after, relation before after → wider before after) :
    program.Within wider := by
  induction program with
  | done value => trivial
  | raised error => trivial
  | step effect next ih =>
      exact fun state => ⟨implies _ _ (within state).1, ih state (within state).2⟩

/-- Steps of a relation that keeps an invariant keep it in every program. -/
theorem Within.keeps {invariant : σ → Prop} (within : program.Within relation)
    (kept : ∀ before after, relation before after → invariant before → invariant after) :
    program.Keeps invariant := by
  induction program with
  | done value => trivial
  | raised error => trivial
  | step effect next ih =>
      exact fun state holds => ⟨kept _ _ (within state).1 holds, ih state (within state).2⟩

theorem Within.bind {next : α → Attempt σ ε β} (first : program.Within relation)
    (later : ∀ value, (next value).Within relation) : (program.bind next).Within relation := by
  induction program with
  | done value => exact later value
  | raised error => trivial
  | step effect rest ih => exact fun state => ⟨(first state).1, ih state (first state).2⟩

theorem Within.attempt (within : program.Within relation) : program.attempt.Within relation := by
  induction program with
  | done value => trivial
  | raised error => trivial
  | step effect rest ih => exact fun state => ⟨(within state).1, ih state (within state).2⟩

theorem within_ofExcept (result : Except ε α) :
    (ofExcept result : Attempt σ ε α).Within relation := by
  cases result <;> trivial

theorem Within.onError {handler : Attempt σ ε Unit} (within : program.Within relation)
    (handles : handler.Within relation) : (program.onError handler).Within relation := by
  apply within.attempt.bind
  intro result
  cases result with
  | ok value => trivial
  | error error => exact handles.bind fun _ => trivial

theorem Within.suppress (within : program.Within relation) : program.suppress.Within relation :=
  within.attempt.bind fun _ => trivial

theorem Within.ensure {cleanup : Attempt σ ε Unit} (within : program.Within relation)
    (cleans : cleanup.Within relation) : (program.ensure cleanup).Within relation :=
  within.attempt.bind fun _ => cleans.bind fun _ => within_ofExcept _

theorem within_call {outcome : CallOutcome} {error : ε} {effect : σ → σ} {result : σ → α}
    (within : ∀ state, relation state (effect state)) :
    (call outcome error effect result).Within relation := by
  cases outcome with
  | returned => exact fun state => ⟨within state, trivial⟩
  | raisedBefore => trivial
  | raisedAfter => exact fun state => ⟨within state, trivial⟩

theorem within_inspect {next : σ → Attempt σ ε α} (stays : ∀ state, relation state state)
    (within : ∀ state, (next state).Within relation) : (inspect next).Within relation :=
  fun state => ⟨stays state, within state⟩

end Within

end Attempt

end FaultyCalls
