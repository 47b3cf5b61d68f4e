import Quorin.Construction.ConsumerSteps
import Quorin.Construction.Upgrade

namespace Quorin

open ByteMemory FaultyCalls

/-- The name of a schema in the keys of Redis, from its name in the messages. -/
def safeKey (name : List UInt8) : String := safeClassName ((decodeUtf8 name).getD "")

/-- The name of the upgraded schema in the messages. -/
def UpgradeCall.name (call : UpgradeCall) : List UInt8 := encodeUtf8 call.old.className

/-- The process with its stream, next to Redis and the links of the host. -/
structure HostedWorld where
  world : World
  /-- The keys and the links; the segments stand in the world. -/
  host : Host

/-- Redis and the shared memory as a call of `upgrade_schema` sees them. -/
def HostedWorld.seen (place : HostedWorld) : Host :=
  { place.host with
    objects := place.world.shared
    pending := place.world.group.map fun group => group.pending.length
    liveness := place.world.liveness }

/-- Redis and the shared memory as the process sees them. -/
def World.under (world : World) (host : Host) : World :=
  { world with
    current := fun name => host.keys.current (safeKey name)
    pauseKeys := fun name => (host.pause (safeKey name)).isSome
    shared := host.objects }

/-- The place behind a change of Redis and of the shared memory. -/
def HostedWorld.put (place : HostedWorld) (host : Host) : HostedWorld where
  world := place.world.under host
  host := host

/-- A call of `upgrade_schema` next to the process that serves its schema. -/
structure UpgradeState extends HostedWorld where
  /-- The part of the call that is still to run. -/
  program : HostProgram Unit

/-- The call, one `run`, the producers and Redis interleave; locks and pause keys expire, and other
processes count themselves in and out. -/
inductive UpgradeStep (deployment : Deployment) : UpgradeState → UpgradeState → Prop where
  | consumer {state : UpgradeState} {after : World}
      (step : ConsumerStep deployment state.world after)
      (once : ∀ run, state.world.run = some run → run.reader = .ended →
        ∀ next, after.run = some next → next.reader = .ended) :
      UpgradeStep deployment state { state with world := after }
  | stream {state : UpgradeState} {after : World}
      (step : EnvironmentStep deployment state.world after)
      (current : after.current = state.world.current) (shared : after.shared = state.world.shared)
      (pauseKeys : after.pauseKeys = state.world.pauseKeys) :
      UpgradeStep deployment state { state with world := after }
  | upkeep {state : UpgradeState} (keys : RegistryKeys) (lock pause : String → Option String)
      (current : keys.current = state.host.keys.current) :
      UpgradeStep deployment state
        { state with
          toHostedWorld := state.put { state.seen with keys := keys, lock := lock, pause := pause } }
  | upgrade {state : UpgradeState} {effect : Host → Host} {next : Host → HostProgram Unit}
      (left : state.program = .step effect next) :
      UpgradeStep deployment state
        { toHostedWorld := state.put (effect state.seen), program := next state.seen }

/-- The start: the call has not begun, and no segment has the new name. -/
structure UpgradeState.Initial (deployment : Deployment) (call : UpgradeCall)
    (state : UpgradeState) : Prop where
  world : state.world.Initial deployment
  program : state.program = upgradeSchema deployment.externals call
  mirrored : state.world.under state.seen = state.world
  served : (call.name, call.old) ∈ deployment.schemas
  unused : state.world.shared call.newName = none
  unnamed : ∀ key, state.host.keys.current key ≠ some call.newName

end Quorin
