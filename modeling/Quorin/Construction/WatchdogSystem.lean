import Quorin.Construction.Watchdog

namespace Quorin

/-- The life of a process; behind its atexit handler a process still runs for a while. -/
inductive ProcessStatus where
  | unborn
  | live
  | exiting
  | zombie
  | gone
  deriving DecidableEq

/-- The process still executes steps. -/
def ProcessStatus.runs : ProcessStatus → Bool
  | .live => true
  | .exiting => true
  | _ => false

/-- The kernel still knows the process. -/
def ProcessStatus.exists : ProcessStatus → Bool
  | .unborn => false
  | .gone => false
  | _ => true

/-- The points of a tick between two calls. -/
inductive WatchdogPhase where
  | idle
  | tracking (raw : List (Nat × List UInt8)) (seen : List Nat)
  | checking (ready : List Nat) (seen : List Nat)
  | cleaning (pid : Nat) (expected : List UInt8) (ready : List Nat) (seen : List Nat)

/-- A watchdog process between two of its calls. -/
structure Watchdog where
  config : WatchdogConfig
  tracked : Tracked
  phase : WatchdogPhase

/-- Redis, the process table and the watchdogs. -/
structure Cluster where
  keys : RedisKeys (List UInt8)
  status : Process → ProcessStatus
  /-- The processes whose first heartbeat was written. -/
  beating : Process → Bool
  /-- The segments that a process opened and did not close. -/
  holdings : Process → List (List UInt8)
  watchdogs : Nat → Option Watchdog

def Cluster.initial : Cluster where
  keys := ⟨fun _ => none, fun _ => none, fun _ => ∅, ∅, fun _ => none, fun _ => none⟩
  status := fun _ => .unborn
  beating := fun _ => false
  holdings := fun _ => []
  watchdogs := fun _ => none

section Pieces

/-- The transaction of `open_current`. -/
def RedisKeys.openPipeline {Name : Type} [DecidableEq Name] (keys : RedisKeys Name) (pid : Nat)
    (name : Name) : RedisKeys Name :=
  { keys with
    refcount := Function.update keys.refcount name (some ((keys.refcount name).getD 0 + 1))
    pidSegments :=
      Function.update keys.pidSegments pid (Insert.insert name (keys.pidSegments pid)) }

/-- The transaction of `create`. -/
def RedisKeys.createPipeline {Name : Type} [DecidableEq Name] (keys : RedisKeys Name) (pid : Nat)
    (schema name : Name) (setCurrent : Bool) : RedisKeys Name :=
  { keys with
    current := if setCurrent then Function.update keys.current schema (some name) else keys.current
    refcount := Function.update keys.refcount name (some 1)
    pidSegments :=
      Function.update keys.pidSegments pid (Insert.insert name (keys.pidSegments pid))
    segmentToSchema := Function.update keys.segmentToSchema name (some schema) }

/-- An answer of psutil is true of the process table. -/
def PsutilAnswer.Truthful (status : Process → ProcessStatus) (pid : Nat) : PsutilAnswer → Prop
  | .createTime createNs =>
      ∃ process, process.pid = pid ∧ (status process).exists = true ∧ process.createNs = createNs
  | .zombieProcess => ∃ process, process.pid = pid ∧ status process = .zombie
  | .noSuchProcess => ∀ process, process.pid = pid → (status process).exists = false
  | .accessDenied => ∃ process, process.pid = pid ∧ (status process).exists = true

/-- The watchdog behind the cross-check of a process id. -/
def Watchdog.checked (watchdog : Watchdog) (pid : Nat) (rest seen : List Nat)
    (answer : PsutilAnswer) : Watchdog :=
  { watchdog with
    phase :=
      match watchdog.tracked.lookup pid with
      | none => .checking rest seen
      | some entry =>
          match crossCheck answer entry.createTimeNs with
          | (true, none) =>
              .cleaning pid ((strInt entry.createTimeNs).getD []) rest seen
          | _ => .checking rest seen }

variable (cluster : Cluster)

def Cluster.withStatus (process : Process) (status : ProcessStatus) : Cluster :=
  { cluster with status := Function.update cluster.status process status }

def Cluster.withWatchdog (index : Nat) (watchdog : Watchdog) : Cluster :=
  { cluster with watchdogs := Function.update cluster.watchdogs index (some watchdog) }

def Cluster.withKeys (keys : RedisKeys (List UInt8)) : Cluster := { cluster with keys }

end Pieces

/-- The steps of the processes that use the registry. -/
inductive ProcessStep : Cluster → Cluster → Prop where
  | start {cluster : Cluster} (process : Process) (new : cluster.status process = .unborn)
      (free : ∀ other, other.pid = process.pid → (cluster.status other).exists = false) :
      ProcessStep cluster (cluster.withStatus process .live)
  | heartbeat {cluster : Cluster} (process : Process) (wallNs : Nat)
      (runs : (cluster.status process).runs = true) :
      ProcessStep cluster
        { cluster with
          keys := { cluster.keys with
            heartbeats := Function.update cluster.keys.heartbeats process.pid
              (some (heartbeatValue process.createNs wallNs)) }
          beating := Function.update cluster.beating process true }
  | opens {cluster : Cluster} (process : Process) (name : List UInt8)
      (runs : (cluster.status process).runs = true) (beating : cluster.beating process = true) :
      ProcessStep cluster
        { cluster with
          keys := cluster.keys.openPipeline process.pid name
          holdings := Function.update cluster.holdings process (name :: cluster.holdings process) }
  | creates {cluster : Cluster} (process : Process) (schema name : List UInt8) (setCurrent : Bool)
      (runs : (cluster.status process).runs = true) (beating : cluster.beating process = true) :
      ProcessStep cluster
        { cluster with
          keys := cluster.keys.createPipeline process.pid schema name setCurrent
          holdings := Function.update cluster.holdings process (name :: cluster.holdings process) }
  | closes {cluster : Cluster} (process : Process) (name : List UInt8)
      (runs : (cluster.status process).runs = true) (held : name ∈ cluster.holdings process) :
      ProcessStep cluster
        { cluster with
          keys := ((closeLua process.pid name).run cluster.keys).2
          holdings := Function.update cluster.holdings process
            ((cluster.holdings process).erase name) }
  | exits {cluster : Cluster} (process : Process) (live : cluster.status process = .live) :
      ProcessStep cluster
        { cluster.withStatus process .exiting with
          keys := { cluster.keys with
            heartbeats := Function.update cluster.keys.heartbeats process.pid none } }
  | crashes {cluster : Cluster} (process : Process) (runs : (cluster.status process).runs = true) :
      ProcessStep cluster (cluster.withStatus process .zombie)
  | reaped {cluster : Cluster} (process : Process) (zombie : cluster.status process = .zombie) :
      ProcessStep cluster (cluster.withStatus process .gone)

/-- The steps of the watchdogs, each with at most one call. -/
inductive WatchdogStep : Cluster → Cluster → Prop where
  | starts {cluster : Cluster} (index : Nat) (config : WatchdogConfig)
      (none : cluster.watchdogs index = none) :
      WatchdogStep cluster (cluster.withWatchdog index ⟨config, [], .idle⟩)
  | stops {cluster : Cluster} (index : Nat) :
      WatchdogStep cluster
        { cluster with watchdogs := Function.update cluster.watchdogs index none }
  | raises {cluster : Cluster} {index : Nat} {watchdog : Watchdog}
      (live : cluster.watchdogs index = some watchdog) :
      WatchdogStep cluster (cluster.withWatchdog index { watchdog with phase := .idle })
  | hgetall {cluster : Cluster} {index : Nat} {watchdog : Watchdog}
      (live : cluster.watchdogs index = some watchdog) (idle : watchdog.phase = .idle)
      (raw : List (Nat × List UInt8))
      (listed : ∀ pid value, (pid, value) ∈ raw ↔ cluster.keys.heartbeats pid = some value) :
      WatchdogStep cluster
        (cluster.withWatchdog index { watchdog with phase := .tracking raw [] })
  | track {cluster : Cluster} {index : Nat} {watchdog : Watchdog} {pid : Nat} {value : List UInt8}
      {rest : List (Nat × List UInt8)} {seen : List Nat}
      (live : cluster.watchdogs index = some watchdog)
      (phase : watchdog.phase = .tracking ((pid, value) :: rest) seen) :
      WatchdogStep cluster
        (cluster.withWatchdog index { watchdog with
          tracked := (trackHeartbeat watchdog.config.selfPid watchdog.tracked seen pid value).1
          phase := .tracking rest
            (trackHeartbeat watchdog.config.selfPid watchdog.tracked seen pid value).2 })
  | ready {cluster : Cluster} {index : Nat} {watchdog : Watchdog} {seen : List Nat}
      (live : cluster.watchdogs index = some watchdog) (phase : watchdog.phase = .tracking [] seen) :
      WatchdogStep cluster
        (cluster.withWatchdog index { watchdog with
          phase := .checking (readyForCheck watchdog.config.missThreshold watchdog.tracked) seen })
  | check {cluster : Cluster} {index : Nat} {watchdog : Watchdog} {pid : Nat}
      {rest seen : List Nat} (live : cluster.watchdogs index = some watchdog)
      (phase : watchdog.phase = .checking (pid :: rest) seen) (answer : PsutilAnswer)
      (truthful : answer.Truthful cluster.status pid) :
      WatchdogStep cluster (cluster.withWatchdog index (watchdog.checked pid rest seen answer))
  | cleanup {cluster : Cluster} {index : Nat} {watchdog : Watchdog} {pid : Nat}
      {expected : List UInt8} {rest seen : List Nat}
      (live : cluster.watchdogs index = some watchdog)
      (phase : watchdog.phase = .cleaning pid expected rest seen) (members : List (List UInt8))
      (listed : Listing (cluster.keys.pidSegments pid) members) :
      WatchdogStep cluster
        ((cluster.withKeys ((cleanupDeadPidLua members pid expected).run cluster.keys).2).withWatchdog
          index { watchdog with
            tracked := watchdog.tracked.pop pid
            phase := .checking rest seen })
  | cleanupLost {cluster : Cluster} {index : Nat} {watchdog : Watchdog} {pid : Nat}
      {expected : List UInt8} {rest seen : List Nat}
      (live : cluster.watchdogs index = some watchdog)
      (phase : watchdog.phase = .cleaning pid expected rest seen) (members : List (List UInt8))
      (listed : Listing (cluster.keys.pidSegments pid) members) :
      WatchdogStep cluster
        ((cluster.withKeys ((cleanupDeadPidLua members pid expected).run cluster.keys).2).withWatchdog
          index { watchdog with phase := .idle })
  | drain {cluster : Cluster} {index : Nat} {watchdog : Watchdog} {seen : List Nat}
      (live : cluster.watchdogs index = some watchdog) (phase : watchdog.phase = .checking [] seen)
      (members : List (List UInt8)) (listed : Listing cluster.keys.cleanupQueue members) :
      WatchdogStep cluster
        ((cluster.withKeys ((drainCleanupQueueLua members
            watchdog.config.batchDrainSize).run cluster.keys).2).withWatchdog
          index { watchdog with tracked := watchdog.tracked.prune seen, phase := .idle })

/-- The steps of the processes and of the watchdogs. -/
inductive ClusterStep (before after : Cluster) : Prop where
  | process (step : ProcessStep before after)
  | watchdog (step : WatchdogStep before after)

/-- The clusters of all runs. -/
def ClusterReachable (cluster : Cluster) : Prop :=
  Relation.ReflTransGen ClusterStep .initial cluster

end Quorin
