import Mathlib.Algebra.Order.Ring.Unbundled.Rat
import Mathlib.Data.Rat.Cast.Order
import Quorin.Library.PollLoop
import Quorin.Construction.ConsumerSteps
import Quorin.Construction.Producer

namespace Quorin

/-- The lifetime of a processed key in seconds. -/
def processedKeyTtlSeconds : ℚ := 86400

/-- The first pause of `write_sync`. -/
def firstBackoff : ℚ := 1 / 1000

/-- The pause behind a pause: it doubles, at most to ten milliseconds. -/
def nextBackoff (backoff : ℚ) : ℚ := min (backoff * 2) (1 / 100)

/-- The arguments of a `write_sync` call. -/
structure SyncRequest (Object : Type) where
  schema : FeatureSchema
  entityId : String
  values : List (String × Object)
  eventTimeNs : Option Int
  timeoutMs : Int

/-- Where a `write_sync` call is: a wait ends when its loop found the key or gave up. -/
inductive SyncPhase where
  | outside
  | added (msgId : MsgId) (addedAt : ℚ)
  | waiting (msgId : MsgId) (addedAt : ℚ) (loop : PollLoop ℚ)
  | raised

/-- The consumer's world, a clock, and the calls that are made beside it. -/
structure SyncWorld (Caller : Type) where
  world : World
  clock : ℚ
  phase : Caller → SyncPhase

section Steps

variable {Caller Object : Type} [DecidableEq Caller]

/-- A call moves to another phase. -/
def SyncWorld.enter (state : SyncWorld Caller) (caller : Caller) (phase : SyncPhase) :
    SyncWorld Caller :=
  { state with phase := Function.update state.phase caller phase }

@[simp] theorem SyncWorld.enter_same (state : SyncWorld Caller) (caller : Caller)
    (phase : SyncPhase) : (state.enter caller phase).phase caller = phase := by
  unfold SyncWorld.enter
  exact Function.update_self caller phase state.phase

theorem SyncWorld.enter_other (state : SyncWorld Caller) {caller other : Caller}
    (different : other ≠ caller) (phase : SyncPhase) :
    (state.enter caller phase).phase other = state.phase other := by
  unfold SyncWorld.enter
  exact Function.update_of_ne different phase state.phase

/-- The `XADD` of an entry. -/
def World.xadd (world : World) (entry : StreamEntry) : World :=
  { world with produced := world.produced ++ [entry], entries := world.entries ++ [entry] }

/-- The answers that `EXISTS` of a processed key can give: a key that was set is gone only behind its
lifetime. -/
def SyncWorld.exists (state : SyncWorld Caller) (msgId : MsgId) (addedAt : ℚ) : Bool → Prop
  | true => msgId ∈ state.world.processed
  | false => msgId ∈ state.world.processed → addedAt + processedKeyTtlSeconds ≤ state.clock

/-- The steps of the calls of `write_sync`, of the consumer and of time. -/
inductive SyncStep (deployment : Deployment) (pydantic : Pydantic Object)
    (requests : Caller → SyncRequest Object) : SyncWorld Caller → SyncWorld Caller → Prop
  | consumer {state : SyncWorld Caller} {after : World}
      (step : WorldStep deployment state.world after) :
      SyncStep deployment pydantic requests state { state with world := after }
  | pass {state : SyncWorld Caller} (seconds : ℚ) (forward : 0 < seconds) :
      SyncStep deployment pydantic requests state { state with clock := state.clock + seconds }
  /-- `_do_write` raises in front of its `XADD`. -/
  | refused {state : SyncWorld Caller} (caller : Caller) (outside : state.phase caller = .outside)
      (stamp : Int) (error : WriteError)
      (refused : doWrite deployment.externals pydantic (requests caller).schema
        (requests caller).entityId (requests caller).values
        ((requests caller).eventTimeNs.getD stamp) = .error error) :
      SyncStep deployment pydantic requests state (state.enter caller .raised)
  /-- The `XADD` takes place, and its answer arrives or is lost. -/
  | xadd {state : SyncWorld Caller} (caller : Caller) (outside : state.phase caller = .outside)
      (stamp : Int) (entry : StreamEntry)
      (accepted : doWrite deployment.externals pydantic (requests caller).schema
        (requests caller).entityId (requests caller).values
        ((requests caller).eventTimeNs.getD stamp) = .ok entry.fields)
      (positive : MsgId.of 0 0 < entry.id) (newer : ∀ other ∈ state.world.produced, other.id < entry.id)
      (answered : Bool) :
      SyncStep deployment pydantic requests state
        ({ state with world := state.world.xadd entry }.enter caller
          (if answered then .added entry.id state.clock else .raised))
  /-- The `XADD` fails without effect. -/
  | xaddFails {state : SyncWorld Caller} (caller : Caller)
      (outside : state.phase caller = .outside) :
      SyncStep deployment pydantic requests state (state.enter caller .raised)
  | begin {state : SyncWorld Caller} {msgId : MsgId} {addedAt : ℚ} (caller : Caller)
      (added : state.phase caller = .added msgId addedAt) :
      SyncStep deployment pydantic requests state
        (state.enter caller (.waiting msgId addedAt
          (.begin state.clock ((requests caller).timeoutMs / 1000) firstBackoff)))
  | wait {state : SyncWorld Caller} {msgId : MsgId} {addedAt : ℚ} {loop later : PollLoop ℚ}
      (caller : Caller) (waiting : state.phase caller = .waiting msgId addedAt loop)
      (turn : PollLoop.Step nextBackoff (state.exists msgId addedAt) state.clock loop later) :
      SyncStep deployment pydantic requests state
        (state.enter caller (.waiting msgId addedAt later))
  /-- The `EXISTS` raises. -/
  | existsFails {state : SyncWorld Caller} {msgId : MsgId} {addedAt : ℚ} {loop : PollLoop ℚ}
      (caller : Caller) (waiting : state.phase caller = .waiting msgId addedAt loop)
      (polling : loop.point = .polling) :
      SyncStep deployment pydantic requests state (state.enter caller .raised)

/-- The start: the consumer's own start, with every call outside. -/
structure SyncWorld.Initial (deployment : Deployment) (state : SyncWorld Caller) : Prop where
  world : state.world.Initial deployment
  phase : ∀ caller, state.phase caller = .outside

end Steps

end Quorin
