import Quorin.Construction.ConcurrentUpgrade
import Quorin.Proof.Upgrade.QuietCalls

namespace Quorin

open ByteMemory FaultyCalls

section Programs

variable (externals : Externals) (call : UpgradeCall)

/-- The `finally` block of `upgrade_schema`. -/
def upgradeCleanup : HostProgram Unit :=
  (releaseLock call call.release).suppress.bind fun _ => (deletePause call call.finalPause).suppress

/-- What is left to run around the copy of the rows. -/
def aroundCopy (oldName : String) (copy : HostProgram Unit) : HostProgram Unit :=
  ((((copy.bind fun _ => flipCurrent call oldName).onError (cleanupOrphanNewSegment call)).bind
    fun _ => finishUpgrade call oldName).onError
      (closeSegment call.pid oldName call.finalClose).suppress).ensure (upgradeCleanup call)

/-- The bulk insert of a translated table into an open new segment. -/
def loadInto (occupied : Nat) (table : ArrowTable) (segment : Segment) : HostProgram Unit :=
  let load := insertMany externals.hashId externals.castBits call.new segment.layout table
  .step (fun host => host.withMemory call.newName fun memory => (load.run memory).2) fun _ =>
    match load.result segment.memory with
    | .error error => .raised (.insertMany error)
    | .ok inserted =>
        if inserted ≠ occupied then .raised (.upgradeCount inserted occupied) else .done ()

/-- The rest of the copy behind the translation of the old rows. -/
def loadTable (occupied : Nat) (table : ArrowTable) : HostProgram Unit :=
  .inspect fun host =>
    match host.objects call.newName with
    | none => .raised .fileNotFound
    | some segment => loadInto externals call occupied table segment

/-- The copy has read the old rows, and the flip is still to come. -/
inductive CopyWindow : HostProgram Unit → Prop where
  | translated (oldName : String) (occupied : Nat) (table : ArrowTable) :
      CopyWindow (aroundCopy call oldName (loadTable externals call occupied table))
  | found (oldName : String) (occupied : Nat) (table : ArrowTable) (segment : Segment) :
      CopyWindow (aroundCopy call oldName (loadInto externals call occupied table segment))
  | loaded (oldName : String) : CopyWindow (aroundCopy call oldName (.done ()))

/-- How the part in front of the copy ends. -/
inductive Opening where
  | failed (error : HostFailure)
  | unprepared (oldName : String) (error : HostFailure)
  | prepared (oldName : String) (old : Segment) (occupied : Nat)

/-- The part of the call in front of the copy. -/
def openingSteps : HostProgram Opening :=
  (upgradePrecondition call).bind fun _ =>
  (openOld externals call).attempt.bind fun opened =>
  match opened with
  | .error error => .done (.failed error)
  | .ok opened =>
      (prepareNew externals call opened.1 opened.2).attempt.bind fun prepared =>
      match prepared with
      | .error error => .done (.unprepared opened.1 error)
      | .ok occupied => .done (.prepared opened.1 opened.2 occupied)

/-- What is left to run behind the part in front of the copy. -/
def afterOpening : Opening → HostProgram Unit
  | .failed error => (upgradeCleanup call).bind fun _ => .raised error
  | .unprepared oldName error =>
      ((closeSegment call.pid oldName call.finalClose).suppress.bind fun _ =>
        (.raised error : HostProgram Unit)).ensure (upgradeCleanup call)
  | .prepared oldName old occupied =>
      aroundCopy call oldName (copyRows externals call oldName old occupied)

theorem migrate_ensured (oldName : String) (old : Segment) :
    (migrate externals call oldName old).ensure (upgradeCleanup call) =
      (prepareNew externals call oldName old).attempt.bind fun prepared =>
        afterOpening externals call
          (match prepared with
          | .error error => .unprepared oldName error
          | .ok occupied => .prepared oldName old occupied) := by
  rw [migrate, Attempt.onError_bind, Attempt.ensure_attempt_bind]
  congr 1
  funext prepared
  cases prepared <;> rfl

/-- The call is its part in front of the copy and the rest. -/
theorem upgradeBody_split :
    (upgradePrecondition call).bind (fun _ =>
      ((openOld externals call).bind fun opened =>
        migrate externals call opened.1 opened.2).ensure (upgradeCleanup call)) =
      (openingSteps externals call).bind (afterOpening externals call) := by
  rw [openingSteps, Attempt.bind_assoc]
  congr 1
  funext _
  rw [Attempt.bind_assoc, Attempt.ensure_bind]
  congr 1
  funext opened
  cases opened with
  | error error => rfl
  | ok opened =>
      refine (migrate_ensured externals call opened.1 opened.2).trans ?_
      rw [Attempt.bind_assoc]
      congr 1
      funext prepared
      cases prepared <;> rfl

/-- A call that passes its first checks runs the part in front of the copy and the rest. -/
theorem upgradeSchema_split :
    (∃ error, upgradeSchema externals call = .raised error) ∨
      (call.old.className = call.new.className ∧ (canUpgrade call.old call.new).1 = true ∧
        upgradeSchema externals call = (openingSteps externals call).bind (afterOpening externals call)) := by
  unfold upgradeSchema
  split
  · exact Or.inl ⟨_, rfl⟩
  · rename_i same
    split
    · exact Or.inl ⟨_, rfl⟩
    · split
      · exact Or.inl ⟨_, rfl⟩
      · rename_i accepted
        exact Or.inr ⟨not_not.mp same, Bool.eq_true_of_not_eq_false accepted,
          upgradeBody_split externals call⟩

end Programs

end Quorin
