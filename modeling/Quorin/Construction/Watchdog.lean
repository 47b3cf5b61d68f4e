import Quorin.Construction.Segment
import Quorin.Construction.WatchdogScripts

namespace Quorin

/-- The heartbeat text that `_write_heartbeat` stores. -/
def heartbeatValue (createNs wallNs : Nat) : List UInt8 := decimal createNs ++ 58 :: decimal wallNs

/-- The two numbers of a heartbeat value; the absent value stands for a malformed one. -/
def parseHeartbeatValue (value : List UInt8) : Option (Int × Int) :=
  if value.all (· < 128) && value.contains 58 then
    match parseInt (value.takeWhile (· ≠ 58)), parseInt ((value.dropWhile (· ≠ 58)).tail) with
    | some createNs, some wallNs => some (createNs, wallNs)
    | _, _ => none
  else none

/-- What the watchdog remembers of a process id. -/
structure PidEntry where
  lastWallTimeNs : Int
  createTimeNs : Int
  missCount : Nat
  deriving DecidableEq

/-- The dictionary of the tracked process ids, in the order of their insertion. -/
abbrev Tracked := List (Nat × PidEntry)

def Tracked.set (tracked : Tracked) (pid : Nat) (entry : PidEntry) : Tracked :=
  if pid ∈ tracked.map Prod.fst then
    tracked.map fun item => if item.1 = pid then (pid, entry) else item
  else tracked ++ [(pid, entry)]

def Tracked.pop (tracked : Tracked) (pid : Nat) : Tracked := tracked.filter fun item => item.1 ≠ pid

/-- The summary of a tick. -/
structure TickResult where
  deadPids : List Nat
  segmentsUnlinkedDead : Int
  segmentsUnlinkedDrain : Nat
  malformedCount : Nat
  unverifiableCount : Nat
  pidReuseAborts : Nat

def TickResult.empty : TickResult := ⟨[], 0, 0, 0, 0, 0⟩

/-- The new entry of a process id whose heartbeat was read. -/
def PidEntry.observe (known : Option PidEntry) (createNs wallNs : Int) : PidEntry :=
  match known with
  | none => ⟨wallNs, createNs, 0⟩
  | some entry =>
      if entry.lastWallTimeNs = wallNs then { entry with missCount := entry.missCount + 1 }
      else ⟨wallNs, createNs, 0⟩

/-- The tracked process ids and the ones that were seen, behind one heartbeat. -/
def trackHeartbeat (selfPid : Nat) (tracked : Tracked) (seen : List Nat) (pid : Nat)
    (value : List UInt8) : Tracked × List Nat :=
  match parseHeartbeatValue value with
  | none => (tracked, seen)
  | some (createNs, wallNs) =>
      if pid = selfPid then (tracked, seen ++ [pid])
      else (tracked.set pid (.observe (tracked.lookup pid) createNs wallNs), seen ++ [pid])

/-- The tracked process ids that missed enough heartbeats. -/
def readyForCheck (missThreshold : Nat) (tracked : Tracked) : List Nat :=
  (tracked.filter fun item => missThreshold ≤ item.2.missCount).map Prod.fst

/-- The prune at the end of a tick. -/
def Tracked.prune (tracked : Tracked) (seen : List Nat) : Tracked :=
  tracked.filter fun item => item.1 ∈ seen

/-- The answer of `psutil.Process(pid).create_time()`, in nanoseconds. -/
inductive PsutilAnswer where
  | createTime (createNs : Int)
  | zombieProcess
  | noSuchProcess
  | accessDenied
  deriving DecidableEq

/-- The reasons for which a process cannot be verified. -/
inductive Unverifiable where
  | zombieProcess
  | accessDenied
  deriving DecidableEq

/-- Whether the process is declared dead, and why it could not be verified. -/
def crossCheck (answer : PsutilAnswer) (expectedCreateTimeNs : Int) : Bool × Option Unverifiable :=
  match answer with
  | .zombieProcess => (false, some .zombieProcess)
  | .noSuchProcess => (true, none)
  | .accessDenied => (false, some .accessDenied)
  | .createTime createNs => (createNs ≠ expectedCreateTimeNs, none)

/-- The errors of `posix_ipc.unlink_shared_memory` on a segment that exists. -/
inductive UnlinkFault where
  | permissionsError
  | osError
  deriving DecidableEq

inductive PosixError where
  | existentialError
  | fault (fault : UnlinkFault)
  deriving DecidableEq

/-- The function `posix_ipc.unlink_shared_memory`. -/
def unlinkSharedMemory (fault : List UInt8 → Option UnlinkFault) (linked : Finset (List UInt8))
    (name : List UInt8) : Except PosixError Unit × Finset (List UInt8) :=
  match fault name with
  | some error => (.error (.fault error), linked)
  | none =>
      if name ∈ linked then (.ok (), linked.erase name) else (.error .existentialError, linked)

/-- The function `posix_shm.unlink`, which suppresses one of the errors. -/
def posixShmUnlink (fault : List UInt8 → Option UnlinkFault) (linked : Finset (List UInt8))
    (name : List UInt8) : Except UnlinkFault Unit × Finset (List UInt8) :=
  match unlinkSharedMemory fault linked name with
  | (.ok _, after) => (.ok (), after)
  | (.error .existentialError, after) => (.ok (), after)
  | (.error (.fault error), after) => (.error error, after)

/-- The exceptions that leave a tick. -/
inductive TickException where
  | redisError
  | unicodeDecodeError
  | unlink (fault : UnlinkFault)
  deriving DecidableEq

/-- The loop of the drain; it counts the unlinked names until one of them raises. -/
def unlinkDrained (fault : List UInt8 → Option UnlinkFault) :
    List (List UInt8) → Finset (List UInt8) → Nat →
      Except TickException Nat × Finset (List UInt8)
  | [], linked, count => (.ok count, linked)
  | rawName :: rest, linked, count =>
      match decodeUtf8 rawName with
      | none => (.error .unicodeDecodeError, linked)
      | some _ =>
          match posixShmUnlink fault linked rawName with
          | (.ok _, after) => unlinkDrained fault rest after (count + 1)
          | (.error error, after) => (.error (.unlink error), after)

/-- The order in which Redis answers the members of a set. -/
structure SetOrder where
  order : Finset (List UInt8) → List (List UInt8)
  listed : ∀ names, Listing names (order names)

/-- What becomes of a call: it fails before its effect, or its reply is lost, or it arrives. -/
inductive CallFate where
  | refused
  | lost
  | replied
  deriving DecidableEq

/-- The configuration of a watchdog. -/
structure WatchdogConfig where
  selfPid : Nat
  missThreshold : Nat
  batchDrainSize : Int

/-- What Redis, the kernel and the file system answer during a tick. -/
structure TickAnswers where
  hgetall : CallFate
  /-- The order of the fields that HGETALL returns. -/
  fields : (Nat → Option (List UInt8)) → List Nat
  psutil : Nat → PsutilAnswer
  cleanup : Nat → CallFate
  members : SetOrder
  drain : CallFate
  popped : SetOrder
  fault : List UInt8 → Option UnlinkFault

/-- The state of a tick. -/
structure TickState where
  tracked : Tracked
  keys : RedisKeys (List UInt8)
  linked : Finset (List UInt8)
  result : TickResult
  /-- The names that the drain took from the queue. -/
  drained : List (List UInt8)

section Tick

variable (config : WatchdogConfig) (answers : TickAnswers)

/-- The loop over the heartbeats. -/
def trackAll : List (Nat × List UInt8) → Tracked → List Nat → Nat → Tracked × List Nat × Nat
  | [], tracked, seen, malformed => (tracked, seen, malformed)
  | (pid, value) :: rest, tracked, seen, malformed =>
      let (after, seenAfter) := trackHeartbeat config.selfPid tracked seen pid value
      trackAll rest after seenAfter
        (if (parseHeartbeatValue value).isNone then malformed + 1 else malformed)

/-- The cleanup of a process id that was declared dead. -/
def TickState.cleanup (state : TickState) (pid : Nat) (expected : List UInt8) :
    Except TickException Unit × TickState :=
  let members := answers.members.order (state.keys.pidSegments pid)
  let (returned, keys) := (cleanupDeadPidLua members pid expected).run state.keys
  match answers.cleanup pid with
  | .refused => (.error .redisError, state)
  | .lost => (.error .redisError, { state with keys })
  | .replied =>
      if returned < 0 then
        (.ok (), { state with
          keys
          tracked := state.tracked.pop pid
          result := { state.result with pidReuseAborts := state.result.pidReuseAborts + 1 } })
      else
        (.ok (), { state with
          keys
          tracked := state.tracked.pop pid
          result := { state.result with
            deadPids := state.result.deadPids ++ [pid]
            segmentsUnlinkedDead := state.result.segmentsUnlinkedDead + returned } })

/-- The loop over the process ids that missed enough heartbeats. -/
def checkAll : List Nat → TickState → Except TickException Unit × TickState
  | [], state => (.ok (), state)
  | pid :: rest, state =>
      match state.tracked.lookup pid with
      | none => checkAll rest state
      | some entry =>
          match crossCheck (answers.psutil pid) entry.createTimeNs with
          | (_, some _) =>
              checkAll rest { state with
                result := { state.result with
                  unverifiableCount := state.result.unverifiableCount + 1 } }
          | (false, none) => checkAll rest state
          | (true, none) =>
              match state.cleanup answers pid ((strInt entry.createTimeNs).getD []) with
              | (.error exception, after) => (.error exception, after)
              | (.ok _, after) => checkAll rest after

/-- The steps of a tick in front of its drain, with the process ids that were seen. -/
def beforeDrain (state : TickState) : Except TickException (List Nat) × TickState :=
  match answers.hgetall with
  | .refused => (.error .redisError, state)
  | .lost => (.error .redisError, state)
  | .replied =>
      let raw := (answers.fields state.keys.heartbeats).filterMap fun pid =>
        (state.keys.heartbeats pid).map fun value => (pid, value)
      let (tracked, seen, malformed) := trackAll config raw state.tracked [] 0
      match checkAll answers (readyForCheck config.missThreshold tracked)
          { state with tracked, result := { state.result with malformedCount := malformed } } with
      | (.error exception, after) => (.error exception, after)
      | (.ok _, after) => (.ok seen, after)

/-- The drain of the cleanup queue. -/
def drainCleanupQueue (state : TickState) : Except TickException Unit × TickState :=
  let (drained, keys) := (drainCleanupQueueLua (answers.popped.order state.keys.cleanupQueue)
    config.batchDrainSize).run state.keys
  match answers.drain with
  | .refused => (.error .redisError, state)
  | .lost => (.error .redisError, { state with keys, drained })
  | .replied =>
      match unlinkDrained answers.fault drained state.linked 0 with
      | (.error exception, linked) => (.error exception, { state with keys, drained, linked })
      | (.ok count, linked) =>
          (.ok (), { state with
            keys, drained, linked
            result := { state.result with segmentsUnlinkedDrain := count } })

/-- One tick of the watchdog. -/
def runOneTick (tracked : Tracked) (keys : RedisKeys (List UInt8)) (linked : Finset (List UInt8)) :
    Except TickException TickResult × TickState :=
  match beforeDrain config answers ⟨tracked, keys, linked, .empty, []⟩ with
  | (.error exception, state) => (.error exception, state)
  | (.ok seen, state) =>
      match drainCleanupQueue config answers state with
      | (.error exception, after) => (.error exception, after)
      | (.ok _, after) =>
          let pruned := { after with tracked := after.tracked.prune seen }
          (.ok pruned.result, pruned)

end Tick

end Quorin
