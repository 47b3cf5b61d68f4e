import Quorin.Construction.Upgrade
import Quorin.Library.RelyGuarantee

namespace Quorin

open ByteMemory FaultyCalls

/-- No reply of a call of `upgrade_schema` is lost. -/
structure UpgradeCall.Answered (call : UpgradeCall) : Prop where
  lock : call.lock ≠ .raisedAfter
  holder : call.holder ≠ .raisedAfter
  xpending : call.xpending ≠ .raisedAfter
  liveness : call.liveness ≠ .raisedAfter
  refusal : call.refusal ≠ .raisedAfter
  pause : call.pause ≠ .raisedAfter
  openGet : call.openGet ≠ .raisedAfter
  openExec : call.openExec ≠ .raisedAfter
  currentGet : call.currentGet ≠ .raisedAfter
  createExec : call.createExec ≠ .raisedAfter
  flip : call.flip ≠ .raisedAfter
  clearPause : call.clearPause ≠ .raisedAfter
  attach : ∀ outcome ∈ call.attach, outcome ≠ .raisedAfter
  close : call.close ≠ .raisedAfter
  orphan : call.orphan ≠ .raisedAfter
  finalClose : call.finalClose ≠ .raisedAfter
  release : call.release ≠ .raisedAfter
  finalPause : call.finalPause ≠ .raisedAfter

/-- Locks expire at any time, and so do pause keys; the consumer group and the liveness key change
as they like. -/
structure UpkeepStep (before after : Host) : Prop where
  keys : after.keys = before.keys
  linked : after.linked = before.linked
  objects : after.objects = before.objects
  lock : ∀ name, after.lock name = before.lock name ∨ after.lock name = none

/-- Runs of `upgrade_schema` on one host before their first steps. -/
def overlappingUpgrades {ι : Type} (externals : Externals) (calls : ι → UpgradeCall) (host : Host) :
    Interleaving ι Host HostFailure where
  state := host
  rest := fun index => upgradeSchema externals (calls index)
  past := []

end Quorin
