import Quorin.Proof.Registry.Pointer

namespace Quorin

/-- A run whose opens are all counted keeps removed segments without holds. -/
theorem RegistryRun.quiet {state : Registry} (run : RegistryRun opensCounted state) :
    ∃ holds, Accounted state holds ∧ Quiet state holds := by
  induction run with
  | refl => exact ⟨_, .initial, fun _ _ => rfl⟩
  | tail _ step ih =>
      obtain ⟨holds, accounted, quiet⟩ := ih
      obtain ⟨action, counted, performed⟩ := step
      obtain ⟨lower, after, keeps⟩ := accounted.perform performed
      exact ⟨lower, after, keeps counted quiet⟩

/-- A process creates a segment, and another one opens it. -/
def sampleSharing : List RegistryAction :=
  [.start ⟨1, 10⟩, .create ⟨1, 10⟩ "Sample" "first" true, .start ⟨2, 11⟩,
    .readCurrent ⟨2, 11⟩ "Sample", .map ⟨2, 11⟩ ⟨"first", "Sample", false⟩,
    .register ⟨2, 11⟩ ⟨"first", "Sample", true⟩]

/-- A clean exit finds the segment set of its process id empty. -/
def exitsEmpty (state : Registry) : RegistryAction → Bool
  | .exit process => (state.keys.pidSegments process.pid).isEmpty
  | _ => true

/-- Every process id with segments has a heartbeat. -/
def Beating (state : Registry) : Prop :=
  ∀ pid, state.keys.pidSegments pid ≠ [] → state.keys.heartbeats pid ≠ none

section Beating

variable {state : Registry} {holds : String → List Nat}

/-- A live process may add a segment, because its heartbeat is present. -/
theorem Beating.insert (accounted : Accounted state holds) (beating : Beating state)
    {process : Process} (alive : process ∈ state.live) (name : String) (pid : Nat)
    (held : Function.update state.keys.pidSegments process.pid
      ((state.keys.pidSegments process.pid).insert name) pid ≠ []) :
    state.keys.heartbeats pid ≠ none := by
  by_cases here : pid = process.pid
  · rw [here, accounted.beating process alive]
    exact Option.some_ne_none _
  · rw [Function.update_of_ne here] at held
    exact beating pid held

/-- The cleanup removes the segments of a process id together with its heartbeat. -/
theorem Beating.cleaned (accounted : Accounted state holds) (beating : Beating state)
    (pid expected : Nat) : Beating (state.cleaned pid expected) := by
  unfold Beating Registry.cleaned RegistryKeys.cleanupDeadPid
  split
  · exact beating
  · obtain ⟨_, lowered⟩ := accounted.keys.decrementAll (state.keys.pidSegments pid)
      (accounted.distinct pid) (accounted.entered pid) 0
    simp only [RegistryKeys.reclaim, lowered.pidSegments, lowered.heartbeats]
    intro other held
    by_cases here : other = pid
    · rw [here, Function.update_self] at held
      exact absurd rfl held
    · rw [Function.update_of_ne here] at held ⊢
      exact beating other held

/-- An action keeps the heartbeats of holders when a clean exit leaves no segments behind. -/
theorem Beating.perform {after : Registry} {action : RegistryAction}
    (accounted : Accounted state holds) (beating : Beating state) (empty : exitsEmpty state action = true)
    (step : state.perform action = some after) : Beating after := by
  cases action with
  | start process =>
      obtain ⟨_, rfl⟩ := performed step
      intro pid held
      dsimp only
      by_cases here : pid = process.pid
      · rw [here, Function.update_self]
        exact Option.some_ne_none _
      · rw [Function.update_of_ne here]
        exact beating pid held
  | create process schema name setCurrent =>
      obtain ⟨⟨alive, _⟩, rfl⟩ := performed step
      exact fun pid held => beating.insert accounted alive name pid held
  | readCurrent process schema =>
      obtain ⟨_, _, _, rfl⟩ := readCurrent_performed step
      exact beating
  | map process pending =>
      obtain ⟨_, rfl⟩ := performed step
      exact beating
  | refuse process pending =>
      obtain ⟨_, rfl⟩ := performed step
      exact beating
  | register process pending =>
      obtain ⟨⟨alive, _⟩, rfl⟩ := performed step
      exact fun pid held => beating.insert accounted alive pending.segment pid held
  | close process handle =>
      obtain ⟨⟨alive, member⟩, rfl⟩ := performed step
      have lowered := accounted.keys.decrement_lowered (accounted.holder alive member)
      intro pid held
      simp only [RegistryKeys.closeScript, lowered.pidSegments, lowered.heartbeats] at held ⊢
      by_cases here : pid = process.pid
      · rw [here, accounted.beating process alive]
        exact Option.some_ne_none _
      · rw [Function.update_of_ne here] at held
        exact beating pid held
  | crash process =>
      obtain ⟨_, rfl⟩ := performed step
      exact beating
  | exit process =>
      obtain ⟨_, rfl⟩ := performed step
      intro pid held
      dsimp only at held ⊢
      rw [Function.update_of_ne]
      · exact beating pid held
      · rintro rfl
        exact held (List.isEmpty_iff.mp empty)
  | cleanup pid expected =>
      obtain ⟨_, rfl⟩ := performed step
      exact beating.cleaned accounted pid expected
  | pop name =>
      obtain ⟨_, rfl⟩ := performed step
      exact beating
  | unlink name =>
      obtain ⟨_, rfl⟩ := performed step
      exact beating
  | flip process schema expectedOld newName =>
      obtain ⟨_, rfl⟩ := performed step
      obtain ⟨current, flipped⟩ := flipSchemaCurrent_frame state.keys schema expectedOld newName
      unfold Beating
      rw [flipped]
      exact beating

end Beating

theorem RegistryRun.beating {state : Registry} (run : RegistryRun exitsEmpty state) :
    Beating state := by
  induction run with
  | refl => exact fun _ held => absurd rfl held
  | tail earlier step ih =>
      obtain ⟨action, empty, performed⟩ := step
      obtain ⟨holds, accounted⟩ := RegistryRun.accounted earlier
      exact ih.perform accounted empty performed

/-- When clean exits leave no segments behind, every holder is live or has a heartbeat. -/
theorem holder_reclaimable {state : Registry} (run : RegistryRun exitsEmpty state) {pid : Nat}
    (held : state.keys.pidSegments pid ≠ []) :
    (∃ process ∈ state.live, process.pid = pid) ∨ ∃ createNs, state.keys.heartbeats pid = some createNs :=
  Or.inr (Option.ne_none_iff_exists'.mp (run.beating pid held))

/-- The second holder closes the segment and exits, and the creator crashes. -/
def sampleEnds : List RegistryAction :=
  sampleSharing ++ [.close ⟨2, 11⟩ ⟨"first", "Sample", .opened⟩, .exit ⟨2, 11⟩, .crash ⟨1, 10⟩]

/-- A crashed creator keeps its heartbeat for the watchdog behind the clean exit of another process. -/
theorem holder_reclaimable_sample : ∃ state : Registry,
    Registry.initial.performAll exitsEmpty sampleEnds = some state ∧ state.keys.pidSegments 1 ≠ [] ∧
      ((∃ process ∈ state.live, process.pid = 1) ∨
        ∃ createNs, state.keys.heartbeats 1 = some createNs) := by
  have reached : (Registry.initial.performAll exitsEmpty sampleEnds).any (fun state =>
        state.keys.pidSegments 1 ≠ []) = true := by decide
  obtain ⟨state, all, held⟩ := (Option.any_eq_true _ _).mp reached
  have run : RegistryRun exitsEmpty state :=
    RegistryRun.performAll .refl all
  exact ⟨state, all, of_decide_eq_true held, holder_reclaimable run (of_decide_eq_true held)⟩

/-- A creator that exits without a close leaves its segment without a way to be reclaimed. -/
theorem holder_unreclaimable : ∃ state : Registry, RegistryRun (fun _ _ => true) state ∧
    state.keys.pidSegments 1 ≠ [] ∧ (∀ process ∈ state.live, process.pid ≠ 1) ∧
      state.keys.heartbeats 1 = none := by
  have reached : (Registry.initial.performAll (fun _ _ => true) [.start ⟨1, 10⟩,
      .create ⟨1, 10⟩ "Sample" "first" true, .exit ⟨1, 10⟩]).any (fun state =>
        decide (state.keys.pidSegments 1 ≠ []) &&
        decide (∀ process ∈ state.live, process.pid ≠ 1) &&
        decide (state.keys.heartbeats 1 = none)) = true := by decide
  obtain ⟨state, all, checks⟩ := (Option.any_eq_true _ _).mp reached
  simp only [Bool.and_eq_true, decide_eq_true_eq] at checks
  exact ⟨state, RegistryRun.performAll .refl all, checks.1.1, checks.1.2,
    checks.2⟩

end Quorin
