import Quorin.Construction.Registry
import Quorin.Construction.Wire

namespace Quorin

/-- The keys of the registry as Redis stores them; the scripts only compare names. -/
@[ext] structure RedisKeys (Name : Type) where
  current : Name → Option Name
  refcount : Name → Option Int
  pidSegments : Nat → Finset Name
  cleanupQueue : Finset Name
  segmentToSchema : Name → Option Name
  /-- The heartbeat texts under the process ids. -/
  heartbeats : Nat → Option (List UInt8)

/-- A Lua script runs as one atomic step on the keys. -/
abbrev LuaScript (Name : Type) := StateM (RedisKeys Name)

section Commands

variable {Name : Type} [DecidableEq Name]

def decrRefcount (name : Name) : LuaScript Name Int := fun keys =>
  ((keys.refcount name).getD 0 - 1,
    { keys with
      refcount := Function.update keys.refcount name (some ((keys.refcount name).getD 0 - 1)) })

def delRefcount (name : Name) : LuaScript Name Unit := fun keys =>
  ((), { keys with refcount := Function.update keys.refcount name none })

def saddCleanupQueue (name : Name) : LuaScript Name Unit := fun keys =>
  ((), { keys with cleanupQueue := Insert.insert name keys.cleanupQueue })

/-- An SPOP that takes the given member. -/
def spopCleanupQueue (name : Name) : LuaScript Name Unit := fun keys =>
  ((), { keys with cleanupQueue := keys.cleanupQueue.erase name })

def hgetSegmentToSchema (name : Name) : LuaScript Name (Option Name) := fun keys =>
  (keys.segmentToSchema name, keys)

def hdelSegmentToSchema (name : Name) : LuaScript Name Unit := fun keys =>
  ((), { keys with segmentToSchema := Function.update keys.segmentToSchema name none })

def getCurrent (schema : Name) : LuaScript Name (Option Name) := fun keys =>
  (keys.current schema, keys)

def delCurrent (schema : Name) : LuaScript Name Unit := fun keys =>
  ((), { keys with current := Function.update keys.current schema none })

def sremPidSegments (pid : Nat) (name : Name) : LuaScript Name Unit := fun keys =>
  ((), { keys with
    pidSegments := Function.update keys.pidSegments pid ((keys.pidSegments pid).erase name) })

def delPidSegments (pid : Nat) : LuaScript Name Unit := fun keys =>
  ((), { keys with pidSegments := Function.update keys.pidSegments pid ∅ })

def hgetHeartbeats (pid : Nat) : LuaScript Name (Option (List UInt8)) := fun keys =>
  (keys.heartbeats pid, keys)

def hdelHeartbeats (pid : Nat) : LuaScript Name Unit := fun keys =>
  ((), { keys with heartbeats := Function.update keys.heartbeats pid none })

end Commands

section Scripts

variable {Name : Type} [DecidableEq Name]

/-- The script `_CLOSE_LUA`. -/
def closeLua (pid : Nat) (name : Name) : LuaScript Name Int := do
  let count ← decrRefcount name
  if count ≤ 0 then
    saddCleanupQueue name
    match ← hgetSegmentToSchema name with
    | none => pure ()
    | some schema =>
        if (← getCurrent schema) = some name then
          delCurrent schema
        hdelSegmentToSchema name
    delRefcount name
  sremPidSegments pid name
  return count

/-- The closes of the given names, one after the other. -/
def closeAll (pid : Nat) : List Name → LuaScript Name Unit
  | [] => pure ()
  | name :: rest => do
      let _ ← closeLua pid name
      closeAll pid rest

/-- The creation time in front of the colon differs from the expected one. -/
def heartbeatDiffers (heartbeat : Option (List UInt8)) (expected : List UInt8) : Bool :=
  match heartbeat with
  | none => false
  | some text => text.contains 58 && text.takeWhile (· ≠ 58) != expected

/-- The loop of `CLEANUP_DEAD_PID_LUA` over the members of the set. -/
def cleanupLoop : List Name → Int → LuaScript Name Int
  | [], zeroed => pure zeroed
  | name :: rest, zeroed => do
      let count ← decrRefcount name
      if count ≤ 0 then
        saddCleanupQueue name
        delRefcount name
        match ← hgetSegmentToSchema name with
        | none => pure ()
        | some schema =>
            if (← getCurrent schema) = some name then
              delCurrent schema
            hdelSegmentToSchema name
        cleanupLoop rest (zeroed + 1)
      else
        cleanupLoop rest zeroed

/-- The script `CLEANUP_DEAD_PID_LUA`; the members are the answer of its SMEMBERS. -/
def cleanupDeadPidLua (members : List Name) (pid : Nat) (expected : List UInt8) :
    LuaScript Name Int := do
  if heartbeatDiffers (← hgetHeartbeats pid) expected then
    return -1
  else
    let zeroed ← cleanupLoop members 0
    delPidSegments pid
    hdelHeartbeats pid
    return zeroed

/-- The loop of `DRAIN_CLEANUP_QUEUE_LUA`; the members stand in the order in which SPOP takes them. -/
def drainLoop : Nat → List Name → LuaScript Name (List Name)
  | 0, _ => pure []
  | _ + 1, [] => pure []
  | count + 1, name :: rest => do
      spopCleanupQueue name
      let others ← drainLoop count rest
      return name :: others

/-- The script `DRAIN_CLEANUP_QUEUE_LUA`. -/
def drainCleanupQueueLua (members : List Name) (maxDrain : Int) : LuaScript Name (List Name) :=
  drainLoop maxDrain.toNat members

end Scripts

/-- A listing of a set, in any order. -/
structure Listing {Name : Type} [DecidableEq Name] (names : Finset Name) (listing : List Name) :
    Prop where
  distinct : listing.Nodup
  members : listing.toFinset = names

end Quorin
