import Quorin.Construction.WatchdogSystem

namespace Quorin

/-- A thread that runs `_loop` with its arguments; it waits, or it writes a heartbeat of a wall time. -/
structure HeartbeatThread where
  pid : Nat
  createTimeNs : Nat
  writing : Option Nat
  /-- The thread object came with a fork, and no thread runs behind it. -/
  phantom : Bool

/-- The fields of `_state`. -/
structure HeartbeatModule where
  thread : Option Nat
  stopEvent : Option Nat
  pid : Option Nat
  createTimeNs : Option Nat
  redisClient : Bool

/-- Every field of `_state` is `None`. -/
def HeartbeatModule.cleared : HeartbeatModule := ⟨none, none, none, none, false⟩

/-- The points of a call that holds `_state_lock`. -/
inductive LockPoint where
  /-- The first heartbeat of `ensure_started` is about to be written. -/
  | firstWrite
  | install
  | join
  | delete
  | clear
  /-- The lock came with a fork, and no thread holds it. -/
  | orphaned
  deriving DecidableEq

/-- The module in one process, with its threads and its atexit handlers. -/
structure HeartbeatProcess where
  status : ProcessStatus
  module : HeartbeatModule
  lock : Option LockPoint
  threads : Nat → Option HeartbeatThread
  eventSet : Nat → Bool
  /-- The number of thread objects; each comes with a stop event of the same number. -/
  created : Nat
  /-- How often `_atexit_handler` is registered. -/
  registered : Nat
  /-- The handlers that an exit has still to run. -/
  handlers : Nat

/-- A process before its start. -/
def HeartbeatProcess.unborn : HeartbeatProcess where
  status := .unborn
  module := .cleared
  lock := none
  threads := fun _ => none
  eventSet := fun _ => false
  created := 0
  registered := 0
  handlers := 0

section Process

variable (state : HeartbeatProcess)

/-- The recorded thread is alive, as `ensure_started` and `is_running` see it. -/
def HeartbeatProcess.isRunning : Bool := (state.module.thread.bind state.threads).isSome

/-- A forked child; the fork hook `_reset_after_fork` runs unless the fork bypasses it. -/
def HeartbeatProcess.forked (hooked : Bool) : HeartbeatProcess where
  status := .live
  module := if hooked then .cleared else state.module
  lock := if hooked then none else state.lock.map fun _ => .orphaned
  threads := fun index =>
    if hooked then none else (state.threads index).map fun thread => { thread with phantom := true }
  eventSet := state.eventSet
  created := state.created
  registered := state.registered
  handlers := 0

/-- The part of `ensure_started` behind the first write; the system may refuse the thread. -/
def HeartbeatProcess.install (process : Process) (starts : Bool) : HeartbeatProcess :=
  { state with
    module := ⟨some state.created, some state.created, some process.pid, some process.createNs, true⟩
    threads :=
      if starts then
        Function.update state.threads state.created
          (some ⟨process.pid, process.createNs, none, false⟩)
      else state.threads
    eventSet := Function.update state.eventSet state.created false
    created := state.created + 1
    registered := state.registered + 1
    lock := none }

/-- The part of `stop` up to its join. -/
def HeartbeatProcess.stop : HeartbeatProcess :=
  { state with
    eventSet :=
      match state.module.stopEvent with
      | none => state.eventSet
      | some event => Function.update state.eventSet event true
    lock := some .join }

/-- The end of `stop`. -/
def HeartbeatProcess.clear : HeartbeatProcess :=
  { state with module := .cleared, registered := 0, lock := none }

/-- The process id gate of `_atexit_handler` lets the call through. -/
def HeartbeatProcess.deletes (process : Process) : Bool :=
  state.module.pid = some process.pid && state.module.redisClient

def HeartbeatProcess.withThread (index : Nat) (thread : Option HeartbeatThread) : HeartbeatProcess :=
  { state with threads := Function.update state.threads index thread }

/-- A process that ended, with its threads. -/
def HeartbeatProcess.died : HeartbeatProcess :=
  { state with status := .zombie, threads := fun _ => none, lock := none, handlers := 0 }

end Process

/-- Redis and the processes. -/
structure HeartbeatWorld where
  keys : RedisKeys (List UInt8)
  processes : Process → HeartbeatProcess
  /-- The process stored its heartbeat, and neither its own calls nor a cleanup took it away since. -/
  stored : Process → Bool

def HeartbeatWorld.initial : HeartbeatWorld where
  keys := ⟨fun _ => none, fun _ => none, fun _ => ∅, ∅, fun _ => none, fun _ => none⟩
  processes := fun _ => .unborn
  stored := fun _ => false

section Calls

variable (world : HeartbeatWorld) (process : Process)

def HeartbeatWorld.withProcess (state : HeartbeatProcess) : HeartbeatWorld :=
  { world with processes := Function.update world.processes process state }

/-- The function `_write_heartbeat`, whose call may fail before its effect or behind it. -/
def HeartbeatWorld.writeHeartbeat (fate : CallFate) (pid createTimeNs wallNs : Nat) :
    HeartbeatWorld :=
  if fate = .refused then world
  else
    { world with
      keys := { world.keys with
        heartbeats := Function.update world.keys.heartbeats pid
          (some (heartbeatValue createTimeNs wallNs)) }
      stored := Function.update world.stored process true }

/-- The function `_atexit_handler`. -/
def HeartbeatWorld.atexitHandler (fate : CallFate) : HeartbeatWorld :=
  if (world.processes process).deletes process = false ∨ fate = .refused then world
  else
    { world with
      keys := { world.keys with
        heartbeats := Function.update world.keys.heartbeats process.pid none }
      stored := Function.update world.stored process false }

end Calls

/-- One step of a process, of one of its heartbeat threads, or of a watchdog. -/
inductive HeartbeatStep (world : HeartbeatWorld) : HeartbeatWorld → Prop where
  | start (process : Process) (new : (world.processes process).status = .unborn)
      (free : ∀ other, other.pid = process.pid → (world.processes other).status.exists = false) :
      HeartbeatStep world (world.withProcess process { HeartbeatProcess.unborn with status := .live })
  | fork (parent child : Process) (live : (world.processes parent).status = .live)
      (new : (world.processes child).status = .unborn)
      (free : ∀ other, other.pid = child.pid → (world.processes other).status.exists = false)
      (hooked : Bool) :
      HeartbeatStep world
        (world.withProcess child ((world.processes parent).forked hooked))
  | ensureStarted (process : Process) (runs : (world.processes process).status.runs = true)
      (free : (world.processes process).lock = none)
      (idle : (world.processes process).isRunning = false) :
      HeartbeatStep world
        (world.withProcess process { world.processes process with lock := some .firstWrite })
  | firstWrite (process : Process) (held : (world.processes process).lock = some .firstWrite)
      (fate : CallFate) (wallNs : Nat) :
      HeartbeatStep world
        ((world.writeHeartbeat process fate process.pid process.createNs wallNs).withProcess process
          { world.processes process with lock := some .install })
  | install (process : Process) (held : (world.processes process).lock = some .install)
      (starts : Bool) :
      HeartbeatStep world
        (world.withProcess process ((world.processes process).install process starts))
  | stop (process : Process) (runs : (world.processes process).status.runs = true)
      (free : (world.processes process).lock = none) :
      HeartbeatStep world (world.withProcess process (world.processes process).stop)
  | joined (process : Process) (held : (world.processes process).lock = some .join) :
      HeartbeatStep world
        (world.withProcess process { world.processes process with lock := some .delete })
  | delete (process : Process) (held : (world.processes process).lock = some .delete)
      (fate : CallFate) :
      HeartbeatStep world
        ((world.atexitHandler process fate).withProcess process
          { world.processes process with lock := some .clear })
  | clear (process : Process) (held : (world.processes process).lock = some .clear) :
      HeartbeatStep world (world.withProcess process (world.processes process).clear)
  | wakes (process : Process) (index : Nat) {thread : HeartbeatThread}
      (alive : (world.processes process).threads index = some thread)
      (own : thread.phantom = false) (waits : thread.writing = none)
      (unset : (world.processes process).eventSet index = false) (wallNs : Nat) :
      HeartbeatStep world
        (world.withProcess process
          ((world.processes process).withThread index (some { thread with writing := some wallNs })))
  | writes (process : Process) (index : Nat) {thread : HeartbeatThread} {wallNs : Nat}
      (alive : (world.processes process).threads index = some thread)
      (own : thread.phantom = false) (writing : thread.writing = some wallNs) (fate : CallFate) :
      HeartbeatStep world
        ((world.writeHeartbeat process fate thread.pid thread.createTimeNs wallNs).withProcess process
          ((world.processes process).withThread index (some { thread with writing := none })))
  | ends (process : Process) (index : Nat) {thread : HeartbeatThread}
      (alive : (world.processes process).threads index = some thread)
      (own : thread.phantom = false) (waits : thread.writing = none)
      (event : (world.processes process).eventSet index = true) :
      HeartbeatStep world
        (world.withProcess process ((world.processes process).withThread index none))
  | exits (process : Process) (live : (world.processes process).status = .live) :
      HeartbeatStep world
        (world.withProcess process
          { world.processes process with
            status := .exiting
            handlers := (world.processes process).registered })
  | handler (process : Process) {count : Nat}
      (left : (world.processes process).handlers = count + 1) (fate : CallFate) :
      HeartbeatStep world
        ((world.atexitHandler process fate).withProcess process
          { world.processes process with handlers := count })
  | dies (process : Process) (runs : (world.processes process).status.runs = true) :
      HeartbeatStep world (world.withProcess process (world.processes process).died)
  | reaped (process : Process) (zombie : (world.processes process).status = .zombie) :
      HeartbeatStep world
        (world.withProcess process { world.processes process with status := .gone })
  | cleanup (pid : Nat) (expected : List UInt8) (members : List (List UInt8))
      (listed : Listing (world.keys.pidSegments pid) members) :
      HeartbeatStep world
        { world with
          keys := ((cleanupDeadPidLua members pid expected).run world.keys).2
          stored := fun process => world.stored process &&
            (process.pid ≠ pid || heartbeatDiffers (world.keys.heartbeats pid) expected) }

end Quorin
