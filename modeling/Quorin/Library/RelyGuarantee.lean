import Quorin.Library.FaultyCalls
import Mathlib.Logic.Relation
import Mathlib.Data.List.Chain

namespace FaultyCalls

/-- A rely and a guarantee of one program among others, over a state that extends the shared one. -/
structure Protocol (τ σ : Type) where
  view : τ → σ
  rely : τ → τ → Prop
  guarantee : τ → τ → Prop

namespace Attempt

variable {σ τ ε α β : Type}

/-- Each effect of a program is a guaranteed step, and its end meets a postcondition. -/
def Guarded (protocol : Protocol τ σ) (ends : Except ε α → τ → Prop) : Attempt σ ε α → τ → Prop
  | done value, state => ends (.ok value) state
  | raised error, state => ends (.error error) state
  | step effect next, state => ∀ start, protocol.rely state start →
      ∃ after, protocol.view after = effect (protocol.view start) ∧
        protocol.guarantee start after ∧
        (next (protocol.view start)).Guarded protocol ends after

/-- A postcondition for a result and one for an error. -/
def Either (returns : α → τ → Prop) (raises : τ → Prop) : Except ε α → τ → Prop
  | .ok value => returns value
  | .error _ => raises

section Rules

variable {protocol : Protocol τ σ} {program : Attempt σ ε α} {state : τ}

theorem Guarded.mono {ends weaker : Except ε α → τ → Prop}
    (guarded : program.Guarded protocol ends state)
    (implies : ∀ result state, ends result state → weaker result state) :
    program.Guarded protocol weaker state := by
  induction program generalizing state with
  | done value => exact implies _ _ guarded
  | raised error => exact implies _ _ guarded
  | step effect next ih =>
      intro start relied
      obtain ⟨after, viewed, guaranteed, rest⟩ := guarded start relied
      exact ⟨after, viewed, guaranteed, ih _ rest⟩

theorem Guarded.bind {next : α → Attempt σ ε β} {ends : Except ε β → τ → Prop}
    (guarded : program.Guarded protocol (fun result state =>
      match result with
      | .ok value => (next value).Guarded protocol ends state
      | .error error => ends (.error error) state) state) :
    (program.bind next).Guarded protocol ends state := by
  induction program generalizing state with
  | done value => exact guarded
  | raised error => exact guarded
  | step effect rest ih =>
      intro start relied
      obtain ⟨after, viewed, guaranteed, later⟩ := guarded start relied
      exact ⟨after, viewed, guaranteed, ih _ later⟩

theorem Guarded.attempt {ends : Except ε (Except ε α) → τ → Prop}
    (guarded : program.Guarded protocol (fun result state => ends (.ok result) state) state) :
    program.attempt.Guarded protocol ends state := by
  induction program generalizing state with
  | done value => exact guarded
  | raised error => exact guarded
  | step effect rest ih =>
      intro start relied
      obtain ⟨after, viewed, guaranteed, later⟩ := guarded start relied
      exact ⟨after, viewed, guaranteed, ih _ later⟩

theorem Guarded.onError {handler : Attempt σ ε Unit} {ends : Except ε α → τ → Prop}
    (guarded : program.Guarded protocol (fun result state =>
      match result with
      | .ok value => ends (.ok value) state
      | .error error => handler.Guarded protocol (fun handled state =>
          match handled with
          | .ok _ => ends (.error error) state
          | .error other => ends (.error other) state) state) state) :
    (program.onError handler).Guarded protocol ends state := by
  refine Guarded.bind (Guarded.attempt (guarded.mono fun result after met => ?_))
  cases result with
  | ok value => exact met
  | error error => exact Guarded.bind (met.mono fun handled after met => by cases handled <;> exact met)

theorem Guarded.suppress {ends : Except ε Unit → τ → Prop}
    (guarded : program.Guarded protocol (fun _ state => ends (.ok ()) state) state) :
    program.suppress.Guarded protocol ends state :=
  Guarded.bind (Guarded.attempt guarded)

theorem guarded_ofExcept {ends : Except ε α → τ → Prop} {result : Except ε α}
    (met : ends result state) : (ofExcept result : Attempt σ ε α).Guarded protocol ends state := by
  cases result <;> exact met

theorem Guarded.ensure {cleanup : Attempt σ ε Unit} {ends : Except ε α → τ → Prop}
    (guarded : program.Guarded protocol (fun result state =>
      cleanup.Guarded protocol (fun cleaned state =>
        match cleaned with
        | .ok _ => ends result state
        | .error error => ends (.error error) state) state) state) :
    (program.ensure cleanup).Guarded protocol ends state := by
  refine Guarded.bind (Guarded.attempt (guarded.mono fun result after met => ?_))
  refine Guarded.bind (met.mono fun cleaned after met => ?_)
  cases cleaned with
  | ok value => exact guarded_ofExcept met
  | error error => exact met

section Sequences

variable {returns : α → τ → Prop} {finals : β → τ → Prop} {raises failed : τ → Prop}

theorem Guarded.seq {next : α → Attempt σ ε β}
    (first : program.Guarded protocol (Either returns raises) state)
    (later : ∀ value after, returns value after →
      (next value).Guarded protocol (Either finals raises) after) :
    (program.bind next).Guarded protocol (Either finals raises) state := by
  refine Guarded.bind (first.mono fun result after met => ?_)
  cases result with
  | ok value => exact later value after met
  | error error => exact met

theorem Guarded.rescue {handler : Attempt σ ε Unit}
    (first : program.Guarded protocol (Either returns failed) state)
    (handles : ∀ after, failed after → handler.Guarded protocol (fun _ => raises) after) :
    (program.onError handler).Guarded protocol (Either returns raises) state := by
  refine Guarded.onError (first.mono fun result after met => ?_)
  cases result with
  | ok value => exact met
  | error error =>
      exact (handles after met).mono fun handled last met => by cases handled <;> exact met

end Sequences

/-- A call whose reply is not lost. -/
theorem guarded_call {outcome : CallOutcome} {error : ε} {effect : σ → σ} {result : σ → α}
    {ends : Except ε α → τ → Prop} (answered : outcome ≠ .raisedAfter)
    (fails : ends (.error error) state)
    (returns : ∀ start, protocol.rely state start →
      ∃ after, protocol.view after = effect (protocol.view start) ∧
        protocol.guarantee start after ∧ ends (.ok (result (protocol.view start))) after) :
    (call outcome error effect result).Guarded protocol ends state := by
  cases outcome with
  | returned => exact returns
  | raisedBefore => exact fails
  | raisedAfter => exact absurd rfl answered

/-- A call whose reply may be lost. -/
theorem guarded_lossyCall {outcome : CallOutcome} {error : ε} {effect : σ → σ} {result : σ → α}
    {ends : Except ε α → τ → Prop} (fails : ends (.error error) state)
    (returns : ∀ start, protocol.rely state start →
      ∃ after, protocol.view after = effect (protocol.view start) ∧
        protocol.guarantee start after ∧ ends (.ok (result (protocol.view start))) after ∧
        ends (.error error) after) :
    (call outcome error effect result).Guarded protocol ends state := by
  cases outcome with
  | returned =>
      intro start relied
      obtain ⟨after, viewed, guaranteed, met, _⟩ := returns start relied
      exact ⟨after, viewed, guaranteed, met⟩
  | raisedBefore => exact fails
  | raisedAfter =>
      intro start relied
      obtain ⟨after, viewed, guaranteed, _, met⟩ := returns start relied
      exact ⟨after, viewed, guaranteed, met⟩

/-- What is guarded with a stable end stays so under the steps of the others. -/
theorem Guarded.stable {ends : Except ε α → τ → Prop} {after : τ}
    (guarded : program.Guarded protocol ends state) (step : protocol.rely state after)
    (trans : ∀ {first second third}, protocol.rely first second → protocol.rely second third →
      protocol.rely first third)
    (kept : ∀ result, ends result state → ends result after) :
    program.Guarded protocol ends after := by
  cases program with
  | done value => exact kept _ guarded
  | raised error => exact kept _ guarded
  | step effect next => exact fun start relied => guarded start (trans step relied)

/-- What is guarded stays so under the steps of the others. -/
theorem Guarded.relied {ends : Except ε α → τ → Prop} {after : τ}
    (guarded : program.Guarded protocol ends state) (step : protocol.rely state after)
    (trans : ∀ {first second third}, protocol.rely first second → protocol.rely second third →
      protocol.rely first third) :
    program.Guarded protocol (fun _ _ => True) after :=
  (guarded.mono fun _ _ _ => trivial).stable step trans fun _ met => met

end Rules

end Attempt

/-- A step of one of several programs or of their environment. -/
structure Turn (ι σ : Type) where
  actor : Option ι
  before : σ
  after : σ

/-- Programs that take turns on a shared state, with the turns so far. -/
structure Interleaving (ι σ ε : Type) where
  state : σ
  rest : ι → Attempt σ ε Unit
  past : List (Turn ι σ)

/-- Any program may take the next turn, or the environment. -/
inductive TurnStep {ι σ ε : Type} [DecidableEq ι] (environment : σ → σ → Prop) :
    Interleaving ι σ ε → Interleaving ι σ ε → Prop where
  | program {system : Interleaving ι σ ε} (index : ι) {effect : σ → σ}
      {next : σ → Attempt σ ε Unit} (ready : system.rest index = .step effect next) :
      TurnStep environment system
        { state := effect system.state
          rest := Function.update system.rest index (next system.state)
          past := system.past ++ [⟨some index, system.state, effect system.state⟩] }
  | environment {system : Interleaving ι σ ε} {after : σ}
      (changed : environment system.state after) :
      TurnStep environment system
        { system with
          state := after
          past := system.past ++ [⟨none, system.state, after⟩] }

/-- Each step of a protocol or of the environment is one that the others rely on. -/
structure Compatible {ι σ τ : Type} (protocol : ι → Protocol τ σ) (view : τ → σ)
    (record : τ → List (Turn ι σ)) (environment : σ → σ → Prop) (invariant : τ → Prop) : Prop where
  viewed : ∀ index, (protocol index).view = view
  refl : ∀ {index state}, invariant state → (protocol index).rely state state
  trans : ∀ {index first second third}, (protocol index).rely first second →
    (protocol index).rely second third → (protocol index).rely first third
  kept : ∀ {index before after}, (protocol index).guarantee before after → invariant after
  recorded : ∀ {index before after}, (protocol index).guarantee before after →
    record after = record before ++ [⟨some index, view before, view after⟩]
  covered : ∀ {index other before after}, other ≠ index →
    (protocol index).guarantee before after → (protocol other).rely before after
  outside : ∀ {before after}, invariant before → environment (view before) after →
    ∃ state, view state = after ∧ invariant state ∧
      record state = record before ++ [⟨none, view before, after⟩] ∧
      ∀ index, (protocol index).rely before state

section Parallel

variable {ι σ τ ε : Type} [DecidableEq ι] {protocol : ι → Protocol τ σ} {view : τ → σ}
  {record : τ → List (Turn ι σ)} {environment : σ → σ → Prop} {invariant : τ → Prop}

/-- An extended state that agrees with the system, and from which every program goes on guarded. -/
structure Covers (protocol : ι → Protocol τ σ) (view : τ → σ) (record : τ → List (Turn ι σ))
    (invariant : τ → Prop) (system : Interleaving ι σ ε) (state : τ) : Prop where
  viewed : view state = system.state
  recorded : record state = system.past
  invariant : invariant state
  guarded : ∀ index, (system.rest index).Guarded (protocol index) (fun _ _ => True) state

/-- One turn of a covered system leaves it covered. -/
theorem Covers.turn {system after : Interleaving ι σ ε} {state : τ}
    (compatible : Compatible protocol view record environment invariant)
    (covers : Covers protocol view record invariant system state)
    (step : TurnStep environment system after) :
    ∃ later, Covers protocol view record invariant after later := by
  cases step with
  | @program index effect next ready =>
      have guarded := covers.guarded index
      rw [ready] at guarded
      obtain ⟨later, viewed, guaranteed, rest⟩ := guarded state (compatible.refl covers.invariant)
      rw [compatible.viewed index] at viewed rest
      rw [covers.viewed] at viewed rest
      refine ⟨later, viewed, ?_, compatible.kept guaranteed, fun other => ?_⟩
      · rw [compatible.recorded guaranteed, covers.recorded, covers.viewed, viewed]
      · by_cases same : other = index
        · subst same
          simpa using rest
        · simp only [Function.update_of_ne same]
          exact (covers.guarded other).relied (compatible.covered same guaranteed) compatible.trans
  | @environment final changed =>
      rw [← covers.viewed] at changed
      obtain ⟨later, viewed, kept, recorded, relied⟩ := compatible.outside covers.invariant changed
      refine ⟨later, viewed, ?_, kept, fun other => ?_⟩
      · rw [recorded, covers.recorded, covers.viewed]
      · exact (covers.guarded other).relied (relied other) compatible.trans

/-- Every reached system is covered when the first one is. -/
theorem Covers.reached {system after : Interleaving ι σ ε} {state : τ}
    (compatible : Compatible protocol view record environment invariant)
    (covers : Covers protocol view record invariant system state)
    (reached : Relation.ReflTransGen (TurnStep environment) system after) :
    ∃ later, Covers protocol view record invariant after later := by
  induction reached with
  | refl => exact ⟨state, covers⟩
  | tail _ step ih =>
      obtain ⟨later, covered⟩ := ih
      exact covered.turn compatible step

end Parallel

/-- A program may run to its end while the others wait. -/
theorem reached_alone {ι σ ε : Type} [DecidableEq ι] {environment : σ → σ → Prop} (index : ι)
    (program : Attempt σ ε Unit) {system : Interleaving ι σ ε} (ready : system.rest index = program) :
    ∃ after, Relation.ReflTransGen (TurnStep environment) system after ∧
      after.state = (program.run system.state).2 := by
  induction program generalizing system with
  | done value => exact ⟨system, .refl, rfl⟩
  | raised error => exact ⟨system, .refl, rfl⟩
  | step effect next ih =>
      obtain ⟨after, reached, final⟩ := @ih system.state
        ⟨effect system.state, Function.update system.rest index (next system.state),
          system.past ++ [⟨some index, system.state, effect system.state⟩]⟩
        (Function.update_self _ _ _)
      exact ⟨after, .head (.program index ready) reached, final⟩

/-- The states that a list of turns passes through. -/
def trail {ι σ : Type} (start : σ) (past : List (Turn ι σ)) : List σ :=
  start :: past.map Turn.after

/-- The turns of a run follow on each other. -/
theorem trail_chain {ι σ ε : Type} [DecidableEq ι] {environment : σ → σ → Prop}
    {system after : Interleaving ι σ ε} (fresh : system.past = [])
    (reached : Relation.ReflTransGen (TurnStep environment) system after) :
    (trail system.state after.past).getLast? = some after.state ∧
    (trail system.state after.past).IsChain
      fun before next => ∃ turn ∈ after.past, turn.before = before ∧ turn.after = next := by
  induction reached with
  | refl => simp [trail, fresh]
  | @tail middle final _ step ih =>
      obtain ⟨last, chain⟩ := ih
      have longer : ∃ turn, turn.before = middle.state ∧ turn.after = final.state ∧
          final.past = middle.past ++ [turn] := by
        cases step with
        | program index ready => exact ⟨_, rfl, rfl, rfl⟩
        | environment changed => exact ⟨_, rfl, rfl, rfl⟩
      obtain ⟨turn, before, after, longer⟩ := longer
      have grown : trail system.state final.past =
          trail system.state middle.past ++ [final.state] := by
        simp [trail, longer, after]
      rw [grown]
      refine ⟨by simp, ?_⟩
      rw [List.isChain_append]
      have kept : ∀ other ∈ middle.past, other ∈ final.past := by
        intro other member
        rw [longer]
        exact List.mem_append_left _ member
      refine ⟨chain.imp fun _ _ ⟨other, member, both⟩ => ⟨other, kept other member, both⟩,
        by simp, ?_⟩
      · intro first isLast second isHead
        rw [last, Option.mem_def, Option.some.injEq] at isLast
        simp only [List.head?_cons, Option.mem_def, Option.some.injEq] at isHead
        exact ⟨turn, by simp [longer], before.trans isLast, after.trans isHead⟩

end FaultyCalls
