import Quorin.Construction.Upgrade

namespace Quorin

open ByteMemory FaultyCalls

/-- What an upgrade reports, up to its times. -/
structure UpgradeResult where
  oldSegmentName : String
  newSegmentName : Option String
  entityCount : Nat
  rowSizeBytesOld : Nat
  rowSizeBytesNew : Nat
  deriving DecidableEq

/-- The counts of a report that a dry run and a real run share. -/
def UpgradeResult.counts (result : UpgradeResult) : Nat × Nat × Nat :=
  (result.entityCount, result.rowSizeBytesOld, result.rowSizeBytesNew)

section Result

variable (externals : Externals) (call : UpgradeCall)

/-- The check of the pointer and the new segment, with its layout. -/
def prepareNewSegment (oldName : String) (old : Segment) : HostProgram (Nat × SegmentLayout) :=
  (prepareNew externals call oldName old).bind fun occupied =>
    match computeLayout externals.hashName call.new (createNewCall call old occupied).capacity
        (createNewCall call old occupied).maxIdBytes with
    | .error error => .raised (.layout error)
    | .ok layout => .done (occupied, layout)

/-- The `try` block of `upgrade_schema` with its result, from the open old segment on. -/
def migrateResult (oldName : String) (old : Segment) : HostProgram UpgradeResult :=
  ((prepareNewSegment externals call oldName old).bind fun prepared =>
    (((copyRows externals call oldName old prepared.1).bind fun _ =>
      flipCurrent call oldName).onError (cleanupOrphanNewSegment call)).bind fun _ =>
    (finishUpgrade call oldName).bind fun _ =>
    .done
      { oldSegmentName := oldName
        newSegmentName := some call.newName
        entityCount := prepared.1
        rowSizeBytesOld := old.layout.rowSize
        rowSizeBytesNew := prepared.2.rowSize }).onError
      (closeSegment call.pid oldName call.finalClose).suppress

/-- The function `_dry_run_result`, whose new row size is the sum of the field sizes. -/
def dryRunResult : HostProgram UpgradeResult :=
  (openCurrentSegment externals call.pid call.old call.openGet call.openExec).bind fun opened =>
    (Attempt.inspect fun host =>
      .done
        { oldSegmentName := opened.1
          newSegmentName := none
          entityCount := ((host.objects opened.1).getD opened.2).memory.readNat metadataOffset 8
          rowSizeBytesOld := opened.2.layout.rowSize
          rowSizeBytesNew := (call.new.fields.map FeatureField.byteCount).sum }).ensure
      (closeSegment call.pid opened.1 call.finalClose)

/-- The function `upgrade_schema` with its argument `dry_run` and its result. -/
def upgradeSchemaResult (dryRun : Bool) : HostProgram UpgradeResult :=
  if call.old.className ≠ call.new.className then .raised .upgradeIncompatible
  else if call.factorValid = false then .raised .capacityFactor
  else if (canUpgrade call.old call.new).1 = false then .raised .upgradeIncompatible
  else if dryRun then dryRunResult externals call
  else
    (upgradePrecondition call).bind fun _ =>
    ((openOld externals call).bind fun opened =>
        migrateResult externals call opened.1 opened.2).ensure
      ((releaseLock call call.release).suppress.bind fun _ =>
        (deletePause call call.finalPause).suppress)

end Result

end Quorin
