import Quorin.Construction.Upgrade

namespace Quorin

open FaultyCalls

/-- A step that leaves keys, names and segments as they are and removes only its own lock. -/
structure QuietEffect (call : UpgradeCall) (before after : Host) : Prop where
  keys : after.keys = before.keys
  linked : after.linked = before.linked
  objects : after.objects = before.objects
  lock : ∀ name token, before.lock name = some token → after.lock name ≠ some token →
    token = call.token
  pending : after.pending = before.pending
  liveness : after.liveness = before.liveness

section Quiet

variable {call : UpgradeCall}

theorem QuietEffect.refl (host : Host) : QuietEffect call host host :=
  ⟨rfl, rfl, rfl, fun _ _ same gone => absurd same gone, rfl, rfl⟩

/-- A change of the pause keys. -/
theorem QuietEffect.withPause (host : Host) (pause : String → Option String) :
    QuietEffect call host { host with pause := pause } :=
  ⟨rfl, rfl, rfl, fun _ _ same gone => absurd same gone, rfl, rfl⟩

theorem QuietEffect.acquire (host : Host) :
    QuietEffect call host
      (if (host.lock call.old.safeName).isNone then
        { host with lock := Function.update host.lock call.old.safeName (some call.token) }
      else host) := by
  split
  · rename_i free
    refine ⟨rfl, rfl, rfl, fun name token held gone => ?_, rfl, rfl⟩
    by_cases same : name = call.old.safeName
    · rw [same] at held
      rw [held] at free
      cases free
    · exact absurd ((Function.update_of_ne same _ _).trans held) gone
  · exact .refl host

theorem releaseLock_quiet (outcome : CallOutcome) :
    (releaseLock call outcome).Within (QuietEffect call) := by
  apply Attempt.within_call
  intro host
  split
  · rename_i own
    refine ⟨rfl, rfl, rfl, fun name token held gone => ?_, rfl, rfl⟩
    by_cases same : name = call.old.safeName
    · rw [same, own, Option.some.injEq] at held
      exact held.symm
    · exact absurd ((Function.update_of_ne same _ _).trans held) gone
  · exact .refl host

theorem deletePause_quiet (outcome : CallOutcome) :
    (deletePause call outcome).Within (QuietEffect call) :=
  Attempt.within_call fun _ => .withPause _ _

theorem waitAttached_quiet (outcomes : List CallOutcome) :
    (waitAttached call outcomes).Within (QuietEffect call) := by
  induction outcomes with
  | nil => trivial
  | cons outcome rest ih =>
      apply (Attempt.within_call QuietEffect.refl).bind
      intro count
      split
      · trivial
      · exact ih

theorem upgradePrecondition_quiet : (upgradePrecondition call).Within (QuietEffect call) := by
  have refused : ((releaseLock call call.refusal).suppress.bind
      fun _ => (Attempt.raised HostFailure.upgradeConflict : HostProgram Unit)).Within
        (QuietEffect call) :=
    (releaseLock_quiet _).suppress.bind fun _ => trivial
  unfold upgradePrecondition
  apply (Attempt.within_call QuietEffect.acquire).bind
  intro acquired
  split
  · exact (Attempt.within_call QuietEffect.refl).bind fun _ => trivial
  · apply (Attempt.within_call QuietEffect.refl).attempt.bind
    intro pending
    split
    · exact refused
    · apply (Attempt.within_call QuietEffect.refl).bind
      intro alive
      split
      · exact refused
      · trivial

end Quiet

end Quorin
