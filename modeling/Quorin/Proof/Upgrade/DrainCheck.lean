import Quorin.Construction.DrainCheck
import Quorin.Proof.Consumer.StreamOrder
import Quorin.Proof.Consumer.Delivery
import Quorin.Proof.Upgrade.PointerSafety

namespace Quorin

open FaultyCalls

section Check

variable (call : UpgradeCall)

/-- The refusal behind a failed check. -/
def refuseUpgrade : HostProgram Unit :=
  (releaseLock call call.refusal).suppress.bind fun _ => .raised .upgradeConflict

/-- The check of the liveness key. -/
def livenessCheck : HostProgram Unit :=
  (Attempt.call call.liveness .redisError id fun host : Host => host.liveness).bind fun alive =>
    if alive then refuseUpgrade call else .done ()

/-- The check of the pending entries, and the checks behind it. -/
def pendingCheck : HostProgram Unit :=
  (Attempt.call call.xpending .redisError id fun host : Host => host.pending.getD 0).attempt.bind
    fun pending => if pending.toOption.getD 0 > 0 then refuseUpgrade call else livenessCheck call

theorem upgradePrecondition_eq :
    upgradePrecondition call =
      (Attempt.call call.lock .redisError
        (fun host =>
          if (host.lock call.old.safeName).isNone then
            { host with lock := Function.update host.lock call.old.safeName (some call.token) }
          else host)
        fun host => (host.lock call.old.safeName).isNone).bind fun acquired =>
      if acquired = false then
        (Attempt.call call.holder .redisError id fun _ => ()).bind fun _ => .raised .upgradeConflict
      else pendingCheck call := rfl

theorem refuseUpgrade_fails : (refuseUpgrade call).Fails := Attempt.fails_bind _ fun _ => trivial

/-- The steps of a run in which the answer of XPENDING tells whether the stream is drained. -/
inductive DrainedCheckStep (deployment : Deployment) : CheckState → CheckState → Prop where
  | world {state : CheckState} {after : World} (step : WorldStep deployment state.world after)
      (quiet : state.program = livenessCheck call →
        ∀ entry ∈ after.entries, entry ∈ state.world.entries) :
      DrainedCheckStep deployment state { state with world := after }
  | others {state : CheckState} (host : Host) :
      DrainedCheckStep deployment state { state with host := host }
  | advance {state : CheckState} {effect : Host → Host} {next : Host → HostProgram Unit}
      (left : state.program = .step effect next)
      (counted : next state.seen = livenessCheck call → state.world.CaughtUp ∧
        (call.xpending = .returned ∨
          ∀ group, state.world.group = some group → group.pending = [])) :
      DrainedCheckStep deployment state
        { state with host := effect state.seen, program := next state.seen }

theorem DrainedCheckStep.checkStep {deployment : Deployment} {state after : CheckState}
    (step : DrainedCheckStep call deployment state after) : CheckStep deployment state after := by
  cases step with
  | world step quiet => exact .world step
  | others host => exact .others host
  | advance left counted => exact .advance left

/-- Where the call stands. -/
inductive CheckStage (state : CheckState) : Prop where
  | locking (left : state.program = upgradePrecondition call)
  | counting (left : state.program = pendingCheck call) (asked : call.xpending ≠ .raisedBefore)
  | looking (left : state.program = livenessCheck call) (drained : state.world.WalDrained)
  | passed (left : state.program = .done ())
  | failing (fails : state.program.Fails)

end Check

section Drained

variable {deployment : Deployment} {world after : World}

/-- A group that delivered everything and has nothing pending has acknowledged everything. -/
theorem StreamOrdered.walDrained (ordered : StreamOrdered world) (caughtUp : world.CaughtUp)
    (settled : ∀ group, world.group = some group → group.pending = []) : world.WalDrained := by
  refine ⟨caughtUp, ?_⟩
  intro entry stored
  obtain ⟨group, present, within⟩ := caughtUp entry stored
  rcases (ordered.group group present).tracked entry stored within with pending | acked
  · rw [settled group present] at pending
    cases pending
  · exact acked

/-- A drained stream stays drained until an entry is added. -/
theorem StreamEffect.walDrained (effect : StreamEffect deployment world after)
    (ordered : StreamOrdered world) (drained : world.WalDrained)
    (quiet : ∀ entry ∈ after.entries, entry ∈ world.entries) : after.WalDrained := by
  obtain ⟨caughtUp, acknowledged⟩ := drained
  have delivered : ∀ entry ∈ after.entries, ∃ group, world.group = some group ∧
      entry.id ≤ group.lastDelivered := fun entry stored => caughtUp entry (quiet entry stored)
  have acked : ∀ entry ∈ after.entries, entry.id ∈ world.acked :=
    fun entry stored => acknowledged entry (quiet entry stored)
  cases effect with
  | kept _ _ group kept =>
      rw [← group] at delivered
      rw [← kept] at acked
      exact ⟨delivered, acked⟩
  | added entry _ newer _ entries _ _ =>
      have stored := quiet entry (entries ▸ List.mem_append_right _ List.mem_cons_self)
      exact absurd (newer entry (ordered.recent.subset stored)) (lt_irrefl _)
  | trimmed _ _ _ group kept =>
      rw [← group] at delivered
      rw [← kept] at acked
      exact ⟨delivered, acked⟩
  | created _ _ group kept =>
      rw [← kept] at acked
      refine ⟨?_, acked⟩
      intro entry stored
      obtain ⟨old, present, within⟩ := delivered entry stored
      rw [present] at group
      exact ⟨old, group, within⟩
  | @delivered _ _ group present moved kept =>
      rw [← kept] at acked
      refine ⟨?_, acked⟩
      intro entry stored
      obtain ⟨old, same, within⟩ := delivered entry stored
      obtain rfl := Option.some.inj (present.symm.trans same)
      exact ⟨_, moved, within.trans (deliver_forward ordered group)⟩
  | acknowledged snapshot _ _ group kept =>
      refine ⟨?_, fun entry stored => kept ▸ List.mem_append_left _ (acked entry stored)⟩
      intro entry stored
      obtain ⟨old, same, within⟩ := delivered entry stored
      rw [same] at group
      exact ⟨_, group, within⟩

end Drained

section Run

variable {deployment : Deployment} {call : UpgradeCall} {start state after : CheckState}

/-- A lost answer of XPENDING counts as no pending entries. -/
theorem pendingCheck_failed (failed : call.xpending = .raisedBefore) :
    pendingCheck call = livenessCheck call := by
  simp [pendingCheck, failed, Attempt.call, Attempt.attempt, Attempt.bind, Except.toOption]

/-- The step of the lock leads to the count, or to a failure. -/
theorem lock_next {effect : Host → Host} {next : Host → HostProgram Unit}
    (left : upgradePrecondition call = .step effect next) (host : Host) :
    next host = pendingCheck call ∨ (next host).Fails := by
  rw [upgradePrecondition_eq] at left
  cases outcome : call.lock with
  | returned =>
      simp only [outcome, Attempt.call, Attempt.bind, Attempt.step.injEq] at left
      rw [← left.2]
      dsimp only
      split
      · exact Or.inr (Attempt.fails_bind _ fun _ => trivial)
      · exact Or.inl rfl
  | raisedBefore => simp [outcome, Attempt.call, Attempt.bind] at left
  | raisedAfter =>
      simp only [outcome, Attempt.call, Attempt.bind, Attempt.step.injEq] at left
      rw [← left.2]
      exact Or.inr trivial

/-- The step of XPENDING leads to the liveness check with nothing pending, or to a failure. -/
theorem pending_next {effect : Host → Host} {next : Host → HostProgram Unit}
    (left : pendingCheck call = .step effect next) (asked : call.xpending ≠ .raisedBefore)
    (host : Host) :
    (next host = livenessCheck call ∧ (call.xpending = .returned → host.pending.getD 0 = 0)) ∨
      (next host).Fails := by
  unfold pendingCheck at left
  cases outcome : call.xpending with
  | returned =>
      simp only [outcome, Attempt.call, Attempt.attempt, Attempt.bind, Attempt.step.injEq,
        Except.toOption, Option.getD_some] at left
      have shape : next host =
          if host.pending.getD 0 > 0 then refuseUpgrade call else livenessCheck call :=
        (congrFun left.2 host).symm
      rw [shape]
      split
      · exact Or.inr (refuseUpgrade_fails call)
      · exact Or.inl ⟨rfl, fun _ => by omega⟩
  | raisedBefore => exact absurd outcome asked
  | raisedAfter =>
      simp only [outcome, Attempt.call, Attempt.attempt, Attempt.bind, Attempt.step.injEq,
        Except.toOption, Option.getD_none, Nat.lt_irrefl, if_false, gt_iff_lt] at left
      rw [← left.2]
      exact Or.inl ⟨rfl, fun impossible => by cases impossible⟩

/-- The step of the liveness check passes or fails. -/
theorem liveness_next {effect : Host → Host} {next : Host → HostProgram Unit}
    (left : livenessCheck call = .step effect next) (host : Host) :
    next host = .done () ∨ (next host).Fails := by
  unfold livenessCheck at left
  cases outcome : call.liveness with
  | returned =>
      simp only [outcome, Attempt.call, Attempt.bind, Attempt.step.injEq] at left
      rw [← left.2]
      dsimp only
      split
      · exact Or.inr (refuseUpgrade_fails call)
      · exact Or.inl rfl
  | raisedBefore => simp [outcome, Attempt.call, Attempt.bind] at left
  | raisedAfter =>
      simp only [outcome, Attempt.call, Attempt.bind, Attempt.step.injEq] at left
      rw [← left.2]
      exact Or.inr trivial

theorem livenessCheck_ne_done : livenessCheck call ≠ .done () := by
  unfold livenessCheck
  cases call.liveness <;> simp [Attempt.call, Attempt.bind]

theorem pendingCheck_ne_done : pendingCheck call ≠ .done () := by
  cases outcome : call.xpending with
  | raisedBefore =>
      rw [pendingCheck_failed outcome]
      exact livenessCheck_ne_done
  | returned => simp [pendingCheck, outcome, Attempt.call, Attempt.attempt, Attempt.bind]
  | raisedAfter => simp [pendingCheck, outcome, Attempt.call, Attempt.attempt, Attempt.bind]

/-- Nothing is pending when the count of the group is zero. -/
theorem settled_of_count (none : state.seen.pending.getD 0 = 0) :
    ∀ group, state.world.group = some group → group.pending = [] := by
  intro group present
  simpa [CheckState.seen, present] using none

/-- A step of the call leads to its next stage. -/
theorem advance_stage {effect : Host → Host} {next : Host → HostProgram Unit}
    (left : state.program = .step effect next)
    (counted : next state.seen = livenessCheck call → state.world.CaughtUp ∧
      (call.xpending = .returned ∨ ∀ group, state.world.group = some group → group.pending = []))
    (ordered : StreamOrdered state.world) (stage : CheckStage call state) :
    CheckStage call { state with host := effect state.seen, program := next state.seen } := by
  cases stage with
  | locking precondition =>
      rcases lock_next (precondition.symm.trans left) state.seen with count | fails
      · by_cases asked : call.xpending = .raisedBefore
        · have look := count.trans (pendingCheck_failed asked)
          obtain ⟨caughtUp, answered⟩ := counted look
          have settled := answered.resolve_left (by rw [asked]; decide)
          exact .looking look (ordered.walDrained caughtUp settled)
        · exact .counting count asked
      · exact .failing fails
  | counting checking asked =>
      rcases pending_next (checking.symm.trans left) asked state.seen with ⟨look, none⟩ | fails
      · obtain ⟨caughtUp, answered⟩ := counted look
        rcases answered with returned | settled
        · exact .looking look (ordered.walDrained caughtUp (settled_of_count (none returned)))
        · exact .looking look (ordered.walDrained caughtUp settled)
      · exact .failing fails
  | looking checking drained =>
      rcases liveness_next (checking.symm.trans left) state.seen with passed | fails
      · exact .passed passed
      · exact .failing fails
  | passed finished =>
      rw [finished] at left
      cases left
  | failing fails =>
      rw [left] at fails
      exact .failing (fails state.seen)

/-- Every step moves the call to its next stage. -/
theorem DrainedCheckStep.stage (step : DrainedCheckStep call deployment state after)
    (ordered : StreamOrdered state.world) (stage : CheckStage call state) :
    CheckStage call after := by
  cases step with
  | world step quiet =>
      cases stage with
      | locking left => exact .locking left
      | counting left asked => exact .counting left asked
      | looking left drained =>
          exact .looking left (step.streamEffect.walDrained ordered drained (quiet left))
      | passed left => exact .passed left
      | failing fails => exact .failing fails
  | others host =>
      cases stage with
      | locking left => exact .locking left
      | counting left asked => exact .counting left asked
      | looking left drained => exact .looking left drained
      | passed left => exact .passed left
      | failing fails => exact .failing fails
  | advance left counted => exact advance_stage left counted ordered stage

theorem CheckStep.ordered (step : CheckStep deployment state after)
    (ordered : StreamOrdered state.world) : StreamOrdered after.world := by
  cases step with
  | world step => exact step.streamEffect.ordered ordered
  | others host => exact ordered
  | advance left => exact ordered

theorem checkStage_of_steps (initial : start.world.Initial deployment)
    (called : start.program = upgradePrecondition call)
    (steps : Relation.ReflTransGen (DrainedCheckStep call deployment) start state) :
    StreamOrdered state.world ∧ CheckStage call state := by
  induction steps with
  | refl => exact ⟨initial.streamOrdered, .locking called⟩
  | tail _ step ih => exact ⟨step.checkStep.ordered ih.1, step.stage ih.1 ih.2⟩

/-- A call passes its precondition with a drained stream when XPENDING saw the last entry delivered,
and none came before the liveness check. -/
theorem precondition_drained (initial : start.world.Initial deployment)
    (called : start.program = upgradePrecondition call)
    (steps : Relation.ReflTransGen (DrainedCheckStep call deployment) start state)
    (passes : state.Passes) : state.world.WalDrained := by
  obtain ⟨ordered, stage⟩ := checkStage_of_steps initial called steps
  obtain ⟨effect, next, left, done⟩ := passes
  cases stage with
  | locking precondition =>
      rcases lock_next (precondition.symm.trans left) state.seen with count | fails
      · exact absurd (count.symm.trans done) pendingCheck_ne_done
      · rw [done] at fails
        exact fails.elim
  | counting checking asked =>
      rcases pending_next (checking.symm.trans left) asked state.seen with ⟨look, _⟩ | fails
      · exact absurd (look.symm.trans done) livenessCheck_ne_done
      · rw [done] at fails
        exact fails.elim
  | looking checking drained => exact drained
  | passed finished =>
      rw [finished] at left
      cases left
  | failing fails =>
      rw [left] at fails
      have impossible := fails state.seen
      rw [done] at impossible
      exact impossible.elim

end Run

/-- The world in which one message was added before the consumer group exists. -/
def sampleUngrouped : World :=
  { sampleWorld with produced := [sampleFirst], entries := [sampleFirst] }

/-- A call whose precondition is about to be checked. -/
def sampleCheck (world : World) : CheckState :=
  ⟨world, sampleHost, upgradePrecondition (sampleUpgradeCall .returned)⟩

/-- The first two steps of the sample call, when nothing is pending. -/
theorem sampleCheck_advances (world : World)
    (settled : ∀ group, world.group = some group → group.pending = []) :
    ∃ lockEffect lockNext pendingEffect pendingNext,
      (sampleCheck world).program = .step lockEffect lockNext ∧
      lockNext (sampleCheck world).seen = .step pendingEffect pendingNext ∧
      pendingNext (CheckState.seen
        { sampleCheck world with
          host := lockEffect (sampleCheck world).seen
          program := lockNext (sampleCheck world).seen }) =
        livenessCheck (sampleUpgradeCall .returned) := by
  have none : (world.group.map fun group => group.pending.length).getD 0 = 0 := by
    cases present : world.group with
    | none => rfl
    | some group => simp [settled group present]
  refine ⟨_, _, _, _, rfl, rfl, ?_⟩
  exact if_neg (show ¬ (world.group.map fun group => group.pending.length).getD 0 > 0 by omega)

theorem sampleLooking_passes {state : CheckState} (silent : state.world.liveness = false)
    (looking : state.program = livenessCheck (sampleUpgradeCall .returned)) : state.Passes :=
  ⟨_, _, looking, if_neg (show ¬ state.world.liveness = true by simp [silent])⟩

theorem precondition_ne_liveness :
    upgradePrecondition (sampleUpgradeCall .returned) ≠
      livenessCheck (sampleUpgradeCall .returned) := by
  intro same
  simp only [upgradePrecondition_eq, livenessCheck, sampleUpgradeCall, Attempt.call, Attempt.bind,
    Attempt.step.injEq] at same
  have locks := congrArg (fun host => host.lock sampleSchema.safeName) (congrFun same.1 sampleHost)
  simp [sampleHost] at locks

/-- The steps of the world in front of the sample call. -/
theorem sampleCheck_world {world : World}
    (steps : Relation.ReflTransGen (WorldStep sampleDeployment) sampleWorld world) :
    Relation.ReflTransGen (DrainedCheckStep (sampleUpgradeCall .returned) sampleDeployment)
      (sampleCheck sampleWorld) (sampleCheck world) := by
  induction steps with
  | refl => exact .refl
  | tail _ step ih =>
      exact ih.tail (.world step fun looking => absurd looking precondition_ne_liveness)

/-- The sample call passes behind a run of the world that drained the stream. -/
theorem sampleCheck_passes {world : World}
    (steps : Relation.ReflTransGen (WorldStep sampleDeployment) sampleWorld world)
    (caughtUp : world.CaughtUp)
    (settled : ∀ group, world.group = some group → group.pending = [])
    (silent : world.liveness = false) :
    ∃ state : CheckState, Relation.ReflTransGen
        (DrainedCheckStep (sampleUpgradeCall .returned) sampleDeployment)
        (sampleCheck sampleWorld) state ∧ state.world = world ∧ state.Passes := by
  obtain ⟨lockEffect, lockNext, pendingEffect, pendingNext, lock, count, look⟩ :=
    sampleCheck_advances world settled
  refine ⟨_, ((sampleCheck_world steps).tail (.advance lock fun _ => ⟨caughtUp, Or.inl rfl⟩)).tail
    (.advance count fun _ => ⟨caughtUp, Or.inl rfl⟩), rfl, ?_⟩
  exact sampleLooking_passes silent look

/-- The sample message is delivered and acknowledged, and the consumer is gone. -/
theorem precondition_drained_sample :
    ∃ state : CheckState, state.Passes ∧ state.world.entries = [sampleFirst] ∧
      state.world.WalDrained := by
  obtain ⟨after, written, rowData, applied, _, convertible, steps⟩ := sampleFirst_consumed
  have flushed := @flush_steps sampleDeployment (sampleConsumed sampleFirst after written rowData) _
    rfl rfl applied.stopEvent rfl (by simp) (fun _ => .renamed) (flush_succeeds_iff.mpr convertible)
  have lived := Relation.ReflTransGen.mono (fun _ _ step => step.1) _ _ (steps.trans flushed)
  have gone := lived.tail (.consumer (.lifecycle .crash))
  obtain ⟨state, checked, same, passes⟩ := sampleCheck_passes gone
    (by
      intro entry stored
      obtain rfl := List.mem_singleton.mp stored
      exact ⟨_, rfl, le_refl _⟩)
    (by
      intro group present
      obtain rfl := Option.some.inj present
      rfl)
    rfl
  refine ⟨state, passes, by rw [same]; rfl, ?_⟩
  exact precondition_drained sampleWorld_initial rfl checked passes

/-- A message that was added before the group exists does not hold up the upgrade. -/
theorem precondition_passes_undrained :
    ∃ start state : CheckState, start.world.Initial sampleDeployment ∧
      start.program = upgradePrecondition (sampleUpgradeCall .returned) ∧
      Relation.ReflTransGen (CheckStep sampleDeployment) start state ∧ state.Passes ∧
      ¬ state.world.WalDrained := by
  obtain ⟨lockEffect, lockNext, pendingEffect, pendingNext, lock, count, look⟩ :=
    sampleCheck_advances sampleUngrouped (fun group present => by cases present)
  have added : WorldStep sampleDeployment sampleWorld sampleUngrouped :=
    .environment (.xadd sampleFirst (by decide) (by simp [sampleWorld]))
  refine ⟨sampleCheck sampleWorld, _, sampleWorld_initial, rfl,
    .head (.world added) (.head (.advance lock) (.head (.advance count) .refl)),
    sampleLooking_passes rfl look, ?_⟩
  intro drained
  obtain ⟨group, present, _⟩ := drained.1 sampleFirst List.mem_cons_self
  cases present

end Quorin
