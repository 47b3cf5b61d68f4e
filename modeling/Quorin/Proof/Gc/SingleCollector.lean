import Mathlib.Logic.Relation
import Quorin.Construction.GcManager

namespace Quorin

open Relation

/-- The thread that a call of `stop_collector` still works on. -/
def StopPoint.thread : StopPoint → Option Nat
  | .idle => none
  | .detached _ thread => thread
  | .signalled thread => thread
  | .outlived thread => some thread
  | .finishing => none

section Collectors

variable {Caller : Type} [DecidableEq Caller] {manager after : GcManager Caller}

/-- There is at most one live collector thread. -/
def GcManager.Single (manager : GcManager Caller) : Prop :=
  ∀ thread other, manager.status thread = .live → manager.status other = .live → thread = other

/-- A thread is recorded, among the zombies, or in the hands of a stopping call. -/
def GcManager.Accounted (manager : GcManager Caller) (thread : Nat) : Prop :=
  manager.thread = some thread ∨ thread ∈ manager.zombies ∨
    ∃ caller, (manager.stops caller).thread = some thread

/-- No thread that the module still knows is alive. -/
def GcManager.Quiet (manager : GcManager Caller) : Prop :=
  ∀ thread, manager.Accounted thread → manager.status thread ≠ .live

/-- A step that creates a thread only when no known thread is alive. -/
def GuardedGcStep (manager after : GcManager Caller) : Prop :=
  GcStep manager after ∧ (manager.threads < after.threads → manager.Quiet)

/-- Only created threads are alive. -/
def GcManager.Fresh (manager : GcManager Caller) : Prop :=
  ∀ thread, manager.status thread = .live → thread < manager.threads

/-- Every live thread is accounted for, and there is at most one. -/
structure GcManager.Tracked (manager : GcManager Caller) : Prop where
  single : manager.Single
  accounted : ∀ thread, manager.status thread = .live → manager.Accounted thread

omit [DecidableEq Caller] in
/-- A change of the module that keeps the accounts of every thread that stays alive. -/
theorem GcManager.Tracked.keep (tracked : manager.Tracked)
    (lives : ∀ thread, after.status thread = .live → manager.status thread = .live)
    (accounts : ∀ thread, after.status thread = .live → manager.Accounted thread →
      after.Accounted thread) : after.Tracked where
  single := fun thread other one two => tracked.single thread other (lives thread one) (lives other two)
  accounted := fun thread live => accounts thread live (tracked.accounted thread (lives thread live))

omit [DecidableEq Caller] in
theorem GcManager.Tracked.registerCallback (tracked : manager.Tracked) :
    manager.registerCallback.Tracked :=
  tracked.keep (fun _ live => live) fun _ _ known => known

omit [DecidableEq Caller] in
/-- A thread that starts while no known thread is alive is the only live one. -/
theorem GcManager.Tracked.spawn (tracked : manager.Tracked) (quiet : manager.Quiet) (starts : Bool) :
    (manager.spawn starts).Tracked := by
  have only (thread : Nat) (live : (manager.spawn starts).status thread = .live) :
      thread = manager.threads := by
    by_contra different
    simp only [GcManager.spawn, Function.update_of_ne different] at live
    exact quiet thread (tracked.accounted thread live) live
  constructor
  · intro thread other one two
    rw [only thread one, only other two]
  · intro thread live
    exact Or.inl (by rw [only thread live]; rfl)

omit [DecidableEq Caller] in
theorem GcManager.Tracked.startCollector (tracked : manager.Tracked) (installCallback : Bool)
    (gen2IntervalSeconds : Option Rat) (starts : Bool)
    (quiet : manager.threads < (manager.startCollector installCallback gen2IntervalSeconds
      starts).threads → manager.Quiet) :
    (manager.startCollector installCallback gen2IntervalSeconds starts).Tracked := by
  unfold GcManager.startCollector at quiet ⊢
  split
  · exact tracked
  · rename_i undone
    rw [if_neg undone] at quiet
    dsimp only at quiet ⊢
    cases gen2IntervalSeconds with
    | none =>
        cases installCallback with
        | false => exact tracked
        | true => exact tracked.registerCallback
    | some interval =>
        cases installCallback with
        | false => exact tracked.spawn (quiet (Nat.lt_succ_self _)) starts
        | true => exact tracked.registerCallback.spawn (quiet (Nat.lt_succ_self _)) starts

/-- The recorded thread goes to the call that detaches it. -/
theorem GcManager.Tracked.stopCollector (tracked : manager.Tracked) (caller : Caller)
    (idle : manager.stops caller = .idle) : (manager.stopCollector caller).Tracked := by
  unfold GcManager.stopCollector
  split
  · exact tracked
  · refine tracked.keep (fun _ live => live) ?_
    intro thread _ known
    rcases known with recorded | zombie | ⟨other, working⟩
    · refine Or.inr (Or.inr ⟨caller, ?_⟩)
      dsimp only
      rw [Function.update_self]
      exact recorded
    · exact Or.inr (Or.inl zombie)
    · refine Or.inr (Or.inr ⟨other, ?_⟩)
      have different : other ≠ caller := by
        rintro rfl
        rw [idle] at working
        cases working
      dsimp only
      rwa [Function.update_of_ne different]

/-- A stopping call hands its live thread on to its next point or to the zombies. -/
theorem GcManager.Tracked.point (tracked : manager.Tracked) (caller : Caller)
    {point : StopPoint} (status : after.status = manager.status) (thread : after.thread = manager.thread)
    (zombies : ∀ zombie ∈ manager.zombies, zombie ∈ after.zombies)
    (stops : after.stops = Function.update manager.stops caller point)
    (moves : ∀ thread, manager.status thread = .live →
      (manager.stops caller).thread = some thread →
        point.thread = some thread ∨ thread ∈ after.zombies) : after.Tracked := by
  apply tracked.keep (fun thread live => by rwa [← status])
  intro alive live known
  rcases known with recorded | zombie | ⟨other, working⟩
  · exact Or.inl (thread.trans recorded)
  · exact Or.inr (Or.inl (zombies alive zombie))
  · by_cases here : other = caller
    · subst here
      rw [status] at live
      rcases moves alive live working with kept | zombie
      · exact Or.inr (Or.inr ⟨other, by rw [stops, Function.update_self]; exact kept⟩)
      · exact Or.inr (Or.inl zombie)
    · exact Or.inr (Or.inr ⟨other, by rw [stops, Function.update_of_ne here]; exact working⟩)

theorem GcManager.Tracked.advanceStop (tracked : manager.Tracked) (caller : Caller) :
    (manager.advanceStop caller).Tracked := by
  unfold GcManager.advanceStop
  split
  · exact tracked
  · rename_i stopEvent thread point
    refine tracked.point caller rfl rfl (fun _ zombie => zombie) rfl ?_
    intro alive _ working
    rw [point] at working
    exact Or.inl working
  · rename_i point
    refine tracked.point caller rfl rfl (fun _ zombie => zombie) rfl ?_
    intro alive _ working
    rw [point] at working
    cases working
  · rename_i thread point
    refine tracked.point caller rfl rfl (fun _ zombie => zombie) rfl ?_
    intro alive live working
    rw [point] at working
    obtain rfl := Option.some.inj working
    rw [if_pos live]
    exact Or.inl rfl
  · rename_i thread point
    refine tracked.point caller rfl rfl (fun _ zombie => List.mem_append_left _ zombie) rfl ?_
    intro alive _ working
    rw [point] at working
    obtain rfl := Option.some.inj working
    exact Or.inr (List.mem_append_right _ (List.mem_singleton_self _))
  · rename_i point
    refine tracked.point caller rfl rfl (fun _ zombie => zombie) rfl ?_
    intro alive _ working
    rw [point] at working
    cases working

omit [DecidableEq Caller] in
theorem GcManager.endLoop_live {thread other : Nat}
    (live : (manager.endLoop thread).status other = .live) : manager.status other = .live := by
  unfold GcManager.endLoop at live
  by_cases here : other = thread
  · subst here
    simp only [Function.update_self] at live
    cases live
  · simpa only [Function.update_of_ne here] using live

theorem GuardedGcStep.tracked (step : GuardedGcStep manager after) (tracked : manager.Tracked) :
    after.Tracked := by
  obtain ⟨step, quiet⟩ := step
  cases step with
  | start installCallback gen2IntervalSeconds starts =>
      exact tracked.startCollector installCallback gen2IntervalSeconds starts quiet
  | stop caller idle => exact tracked.stopCollector caller idle
  | advance caller => exact tracked.advanceStop caller
  | ends thread live event =>
      exact tracked.keep (fun _ live => GcManager.endLoop_live live) fun _ _ known => known

theorem GcStep.fresh (step : GcStep manager after) (fresh : manager.Fresh) : after.Fresh := by
  have spawned {manager : GcManager Caller} (fresh : manager.Fresh) (starts : Bool) :
      (manager.spawn starts).Fresh := by
    intro thread live
    by_cases here : thread = manager.threads
    · rw [here]
      exact Nat.lt_succ_self _
    · simp only [GcManager.spawn, Function.update_of_ne here] at live
      exact Nat.lt_succ_of_lt (fresh thread live)
  cases step with
  | start installCallback gen2IntervalSeconds starts =>
      unfold GcManager.startCollector
      split
      · exact fresh
      · dsimp only
        cases gen2IntervalSeconds with
        | none => cases installCallback <;> exact fresh
        | some interval =>
            cases installCallback with
            | false => exact spawned fresh starts
            | true => exact @spawned manager.registerCallback fresh starts
  | stop caller idle =>
      unfold GcManager.stopCollector
      split <;> exact fresh
  | advance caller =>
      unfold GcManager.advanceStop
      split <;> exact fresh
  | ends thread live event => exact fun other live => fresh other (GcManager.endLoop_live live)

end Collectors

end Quorin
