import Mathlib.Data.Finset.Insert
import Mathlib.Data.Finset.Erase
import Mathlib.Logic.Function.Basic
import Mathlib.Logic.Relation

namespace Quorin

/-- A process is a process id with the time of its creation. -/
structure Process where
  pid : Nat
  createNs : Nat
  deriving DecidableEq

/-- The keys of the registry in Redis; schemas stand under their safe class names. -/
structure RegistryKeys where
  current : String → Option String
  refcount : String → Option Int
  pidSegments : Nat → List String
  cleanupQueue : Finset String
  segmentToSchema : String → Option String
  /-- The creation time in front of the colon of each heartbeat. -/
  heartbeats : Nat → Option Nat

section Scripts

variable (keys : RegistryKeys)

/-- The removal of a segment whose count reached zero, as both scripts do it. -/
def RegistryKeys.drop (name : String) : RegistryKeys :=
  { keys with
    cleanupQueue := Insert.insert name keys.cleanupQueue
    current :=
      match keys.segmentToSchema name with
      | none => keys.current
      | some schema =>
          if keys.current schema = some name then Function.update keys.current schema none
          else keys.current
    segmentToSchema := Function.update keys.segmentToSchema name none
    refcount := Function.update keys.refcount name none }

/-- The decrement of `_CLOSE_LUA` and `CLEANUP_DEAD_PID_LUA`. -/
def RegistryKeys.decrement (name : String) : Int × RegistryKeys :=
  let count := (keys.refcount name).getD 0 - 1
  if count ≤ 0 then (count, keys.drop name)
  else (count, { keys with refcount := Function.update keys.refcount name (some count) })

/-- The script `_CLOSE_LUA`. -/
def RegistryKeys.closeScript (pid : Nat) (name : String) : Int × RegistryKeys :=
  let (count, after) := keys.decrement name
  (count, { after with
    pidSegments := Function.update after.pidSegments pid ((after.pidSegments pid).erase name) })

/-- The transaction of `create`. -/
def RegistryKeys.createPipeline (pid : Nat) (schema name : String) (setCurrent : Bool) :
    RegistryKeys :=
  { keys with
    current := if setCurrent then Function.update keys.current schema (some name) else keys.current
    refcount := Function.update keys.refcount name (some 1)
    pidSegments := Function.update keys.pidSegments pid ((keys.pidSegments pid).insert name)
    segmentToSchema := Function.update keys.segmentToSchema name (some schema) }

/-- The transaction of `open_current`. -/
def RegistryKeys.openPipeline (pid : Nat) (name : String) : RegistryKeys :=
  { keys with
    refcount := Function.update keys.refcount name (some ((keys.refcount name).getD 0 + 1))
    pidSegments := Function.update keys.pidSegments pid ((keys.pidSegments pid).insert name) }

/-- The loop of `CLEANUP_DEAD_PID_LUA` over the segments of the process id. -/
def RegistryKeys.decrementAll (keys : RegistryKeys) : List String → Int → Int × RegistryKeys
  | [], zeroed => (zeroed, keys)
  | name :: rest, zeroed =>
      let (count, after) := keys.decrement name
      after.decrementAll rest (if count ≤ 0 then zeroed + 1 else zeroed)

/-- The part of `CLEANUP_DEAD_PID_LUA` behind its guard. -/
def RegistryKeys.reclaim (pid : Nat) : Int × RegistryKeys :=
  let (zeroed, after) := keys.decrementAll (keys.pidSegments pid) 0
  (zeroed, { after with
    pidSegments := Function.update after.pidSegments pid []
    heartbeats := Function.update after.heartbeats pid none })

/-- The guard of `CLEANUP_DEAD_PID_LUA`: another creation time stands in the heartbeat. -/
def RegistryKeys.pidReused (pid expected : Nat) : Bool :=
  match keys.heartbeats pid with
  | none => false
  | some created => created ≠ expected

/-- The script `CLEANUP_DEAD_PID_LUA`. -/
def RegistryKeys.cleanupDeadPid (pid expected : Nat) : Int × RegistryKeys :=
  if keys.pidReused pid expected then (-1, keys) else keys.reclaim pid

/-- The script `FLIP_SCHEMA_CURRENT_LUA`. -/
def RegistryKeys.flipSchemaCurrent (schema expectedOld newName : String) : Int × RegistryKeys :=
  match keys.current schema with
  | none => (-1, keys)
  | some name =>
      if name ≠ expectedOld then (0, keys)
      else (1, { keys with current := Function.update keys.current schema (some newName) })

end Scripts

/-- How a process got a handle. -/
inductive HandleOrigin where
  | created
  | opened
  deriving DecidableEq

/-- A mapped segment of a process. -/
structure Handle where
  segment : String
  schema : String
  origin : HandleOrigin
  deriving DecidableEq

/-- A call of `open_current` between the read of the pointer and its transaction. -/
structure PendingOpen where
  segment : String
  schema : String
  mapped : Bool
  deriving DecidableEq

/-- Redis, the shared memory directory and the processes that use the registry. -/
structure Registry where
  keys : RegistryKeys
  linked : Finset String
  /-- The names that a drain has taken and not unlinked yet. -/
  popped : Finset String
  /-- The names of all segments that were ever created. -/
  used : Finset String
  /-- All processes that ever started. -/
  started : Finset Process
  live : Finset Process
  /-- The handles that a process has not closed; those of a dead process until its cleanup. -/
  handles : Process → List Handle
  opening : Process → List PendingOpen

/-- An empty Redis without segments and processes. -/
def Registry.initial : Registry where
  keys := ⟨fun _ => none, fun _ => none, fun _ => [], ∅, fun _ => none, fun _ => none⟩
  linked := ∅
  popped := ∅
  used := ∅
  started := ∅
  live := ∅
  handles := fun _ => []
  opening := fun _ => []

/-- The atomic actions of the processes and of the watchdog. -/
inductive RegistryAction where
  /-- The first call of the registry writes the heartbeat. -/
  | start (process : Process)
  | create (process : Process) (schema name : String) (setCurrent : Bool)
  /-- The GET of `open_current`. -/
  | readCurrent (process : Process) (schema : String)
  /-- The shm open and the header check of `open_current`. -/
  | map (process : Process) (pending : PendingOpen)
  /-- An `open_current` that raises before its transaction. -/
  | refuse (process : Process) (pending : PendingOpen)
  /-- The INCR and SADD of `open_current`. -/
  | register (process : Process) (pending : PendingOpen)
  | close (process : Process) (handle : Handle)
  | crash (process : Process)
  /-- A clean exit runs the atexit handler. -/
  | exit (process : Process)
  | cleanup (pid expected : Nat)
  /-- The SPOP of the drain. -/
  | pop (name : String)
  | unlink (name : String)
  | flip (process : Process) (schema expectedOld newName : String)

section Actions

variable (state : Registry)

/-- The process ends, and the operating system drops its mappings. -/
def Registry.ended (process : Process) : Registry :=
  { state with
    live := state.live.erase process
    opening := Function.update state.opening process [] }

/-- The cleanup of a dead process; a run behind the guard reclaims the handles of the process id. -/
def Registry.cleaned (pid expected : Nat) : Registry :=
  { state with
    keys := (state.keys.cleanupDeadPid pid expected).2
    handles := fun process =>
      if process.pid = pid ∧ process ∉ state.live ∧ state.keys.pidReused pid expected = false then []
      else state.handles process }

/-- An action leads to a state when it is possible. -/
def Registry.perform : RegistryAction → Option Registry
  | .start process =>
      if process ∉ state.started ∧ ∀ other ∈ state.live, other.pid ≠ process.pid then
        some { state with
          keys := { state.keys with
            heartbeats :=
              Function.update state.keys.heartbeats process.pid (some process.createNs) }
          started := Insert.insert process state.started
          live := Insert.insert process state.live }
      else none
  | .create process schema name setCurrent =>
      if process ∈ state.live ∧ name ∉ state.used then
        some { state with
          keys := state.keys.createPipeline process.pid schema name setCurrent
          linked := Insert.insert name state.linked
          used := Insert.insert name state.used
          handles := Function.update state.handles process
            (⟨name, schema, .created⟩ :: state.handles process) }
      else none
  | .readCurrent process schema =>
      match state.keys.current schema with
      | none => none
      | some name =>
          if process ∈ state.live then
            some { state with
              opening := Function.update state.opening process
                (⟨name, schema, false⟩ :: state.opening process) }
          else none
  | .map process pending =>
      if process ∈ state.live ∧ pending ∈ state.opening process ∧ pending.mapped = false ∧
          pending.segment ∈ state.linked then
        some { state with
          opening := Function.update state.opening process
            ({ pending with mapped := true } :: (state.opening process).erase pending) }
      else none
  | .refuse process pending =>
      if process ∈ state.live ∧ pending ∈ state.opening process then
        some { state with
          opening := Function.update state.opening process ((state.opening process).erase pending) }
      else none
  | .register process pending =>
      if process ∈ state.live ∧ pending ∈ state.opening process ∧ pending.mapped = true then
        some { state with
          keys := state.keys.openPipeline process.pid pending.segment
          handles := Function.update state.handles process
            (⟨pending.segment, pending.schema, .opened⟩ :: state.handles process)
          opening := Function.update state.opening process ((state.opening process).erase pending) }
      else none
  | .close process handle =>
      if process ∈ state.live ∧ handle ∈ state.handles process then
        some { state with
          keys := (state.keys.closeScript process.pid handle.segment).2
          handles := Function.update state.handles process ((state.handles process).erase handle) }
      else none
  | .crash process => if process ∈ state.live then some (state.ended process) else none
  | .exit process =>
      if process ∈ state.live then
        some { state.ended process with
          keys := { state.keys with
            heartbeats := Function.update state.keys.heartbeats process.pid none } }
      else none
  | .cleanup pid expected =>
      if ⟨pid, expected⟩ ∉ state.live then some (state.cleaned pid expected) else none
  | .pop name =>
      if name ∈ state.keys.cleanupQueue then
        some { state with
          keys := { state.keys with cleanupQueue := state.keys.cleanupQueue.erase name }
          popped := Insert.insert name state.popped }
      else none
  | .unlink name =>
      if name ∈ state.popped then
        some { state with
          linked := state.linked.erase name
          popped := state.popped.erase name }
      else none
  | .flip process schema expectedOld newName =>
      if process ∈ state.live ∧ ⟨newName, schema, .created⟩ ∈ state.handles process then
        some { state with keys := (state.keys.flipSchemaCurrent schema expectedOld newName).2 }
      else none

end Actions

/-- A run whose actions all meet the guard. -/
def RegistryRun (guard : Registry → RegistryAction → Bool) (state : Registry) : Prop :=
  Relation.ReflTransGen
    (fun before after => ∃ action, guard before action = true ∧ before.perform action = some after)
    .initial state

/-- The state behind a list of actions, when all of them are possible and meet the guard. -/
def Registry.performAll (guard : Registry → RegistryAction → Bool) (state : Registry) :
    List RegistryAction → Option Registry
  | [] => some state
  | action :: rest =>
      if guard state action then
        (state.perform action).bind fun after => after.performAll guard rest
      else none

/-- A process holds a segment while it is live and has an open handle on it. -/
def Registry.Holds (state : Registry) (process : Process) (name : String) : Prop :=
  process ∈ state.live ∧ ∃ handle ∈ state.handles process, handle.segment = name

end Quorin
