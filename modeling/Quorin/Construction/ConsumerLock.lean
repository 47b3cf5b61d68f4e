import Mathlib.Algebra.Order.Ring.Unbundled.Rat
import Mathlib.Data.Rat.Cast.Order
import Mathlib.Logic.Relation

namespace Quorin

/-- This is `CONSUMER_LOCK_TTL_SECONDS`. -/
def consumerLockTtlSeconds : ℚ := 60

/-- This is `DEFAULT_FLUSH_INTERVAL_SECONDS`. -/
def defaultFlushIntervalSeconds : ℚ := 60

/-- The key `quorin:consumer:lock:{group}:{name}` with the process id that was set. -/
structure ConsumerLockKey where
  pid : Nat
  expiresAt : ℚ
  deriving DecidableEq

/-- Where a consumer is between its acquire and its release. -/
inductive LockPhase where
  /-- The consumer is outside. -/
  | outside
  /-- The group is ensured and the PEL is drained. -/
  | draining
  /-- The flush loop waits for a signal, at most until the given time. -/
  | waiting (wakeBy : ℚ)
  /-- The flush loop is in `_flush_and_ack`. -/
  | flushing
  /-- The flush task is cancelled; the final flush and the liveness cleanup run. -/
  | leaving
  deriving DecidableEq

/-- What a consumer object of the group and name brings along. -/
structure LockConsumer where
  pid : Nat
  flushIntervalSeconds : ℚ
  positive : 0 < flushIntervalSeconds

/-- The clock, the lock key in Redis, which stays stored behind its expiry, and the consumers. -/
structure LockWorld (Name : Type) where
  clock : ℚ
  stored : Option ConsumerLockKey
  phase : Name → LockPhase

section Steps

variable {Name : Type} [DecidableEq Name]

/-- The key as Redis answers for it. -/
def LockWorld.key (world : LockWorld Name) : Option ConsumerLockKey :=
  world.stored.filter fun key => decide (world.clock < key.expiresAt)

/-- The lock is free to `SET ... NX`. -/
def LockWorld.free (world : LockWorld Name) : Bool := world.key.isNone

/-- The `SET ... EX 60 NX` of a free lock. -/
def LockWorld.acquired (world : LockWorld Name) (pid : Nat) : LockWorld Name :=
  { world with stored := some ⟨pid, world.clock + consumerLockTtlSeconds⟩ }

/-- The `EXPIRE` of the lock key, whoever set it; a missing key stays missing. -/
def LockWorld.expire (world : LockWorld Name) : LockWorld Name :=
  { world with
    stored := world.key.map fun key =>
      { key with expiresAt := world.clock + consumerLockTtlSeconds } }

/-- The `DEL` of the lock key, whoever set it. -/
def LockWorld.deleted (world : LockWorld Name) : LockWorld Name := { world with stored := none }

/-- A consumer moves to another phase. -/
def LockWorld.enter (world : LockWorld Name) (name : Name) (phase : LockPhase) : LockWorld Name :=
  { world with phase := Function.update world.phase name phase }

/-- The steps of the consumers of one group and name; a suppressed error leaves a call without effect. -/
inductive LockStep (consumers : Name → LockConsumer) : LockWorld Name → LockWorld Name → Prop
  /-- Time passes; no flush loop waits beyond its timeout. -/
  | pass {world : LockWorld Name} (seconds : ℚ) (forward : 0 < seconds)
      (timers : ∀ name wakeBy, world.phase name = .waiting wakeBy → world.clock + seconds ≤ wakeBy) :
      LockStep consumers world { world with clock := world.clock + seconds }
  | acquireConsumerLock {world : LockWorld Name} (name : Name) (outside : world.phase name = .outside)
      (free : world.free = true) :
      LockStep consumers world ((world.acquired (consumers name).pid).enter name .draining)
  /-- The lock is held, and `ConsumerNameInUseError` is raised in front of the `try`. -/
  | nameInUse {world : LockWorld Name} (name : Name) (outside : world.phase name = .outside)
      (taken : world.free = false) : LockStep consumers world world
  | beginFlushLoop {world : LockWorld Name} (name : Name) (drained : world.phase name = .draining) :
      LockStep consumers world
        (world.enter name (.waiting (world.clock + (consumers name).flushIntervalSeconds)))
  | wake {world : LockWorld Name} {wakeBy : ℚ} (name : Name) (answered : Bool)
      (waiting : world.phase name = .waiting wakeBy) :
      LockStep consumers world ((if answered then world.expire else world).enter name .flushing)
  | wait {world : LockWorld Name} (name : Name) (flushed : world.phase name = .flushing) :
      LockStep consumers world
        (world.enter name (.waiting (world.clock + (consumers name).flushIntervalSeconds)))
  | leave {world : LockWorld Name} (name : Name) (inside : world.phase name ≠ .outside) :
      LockStep consumers world (world.enter name .leaving)
  | releaseConsumerLock {world : LockWorld Name} (name : Name) (answered : Bool)
      (leaving : world.phase name = .leaving) :
      LockStep consumers world ((if answered then world.deleted else world).enter name .outside)
  /-- A crashed process runs nothing any more; the key stays until it expires. -/
  | crash {world : LockWorld Name} (name : Name) : LockStep consumers world (world.enter name .outside)

end Steps

end Quorin
