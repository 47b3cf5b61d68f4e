import Quorin.Construction.ConsumerSteps
import Quorin.Construction.Upgrade

namespace Quorin

open FaultyCalls

/-- A call of `upgrade_schema` in front of its `try` block, next to the stream and the consumer. -/
structure CheckState where
  world : World
  /-- The keys that only the calls of `upgrade_schema` use. -/
  host : Host
  /-- The part of the call that is still to run. -/
  program : HostProgram Unit

/-- Redis as the call sees it: XPENDING counts the pending entries, GET reads the liveness key. -/
def CheckState.seen (state : CheckState) : Host :=
  { state.host with
    pending := state.world.group.map fun group => group.pending.length
    liveness := state.world.liveness }

/-- The steps of the call interleave with the steps of the world and of other upgrades. -/
inductive CheckStep (deployment : Deployment) : CheckState → CheckState → Prop where
  | world {state : CheckState} {after : World} (step : WorldStep deployment state.world after) :
      CheckStep deployment state { state with world := after }
  | others {state : CheckState} (host : Host) : CheckStep deployment state { state with host := host }
  | advance {state : CheckState} {effect : Host → Host} {next : Host → HostProgram Unit}
      (left : state.program = .step effect next) :
      CheckStep deployment state
        { state with host := effect state.seen, program := next state.seen }

/-- The next step of the call passes the precondition. -/
def CheckState.Passes (state : CheckState) : Prop :=
  ∃ effect next, state.program = .step effect next ∧ next state.seen = .done ()

/-- Every entry of the stream was delivered to the group. -/
def World.CaughtUp (world : World) : Prop :=
  ∀ entry ∈ world.entries, ∃ group, world.group = some group ∧ entry.id ≤ group.lastDelivered

/-- Every entry of the stream was delivered to the group and acknowledged. -/
def World.WalDrained (world : World) : Prop :=
  world.CaughtUp ∧ ∀ entry ∈ world.entries, entry.id ∈ world.acked

end Quorin
