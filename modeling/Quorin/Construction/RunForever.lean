import Mathlib.Data.Finset.SDiff
import Quorin.Construction.WatchdogSystem
import Quorin.Library.RoundRun

namespace Quorin

/-- A watchdog between two of its ticks, with the keys and the linked segments. -/
structure WatchdogState where
  tracked : Tracked
  keys : RedisKeys (List UInt8)
  linked : Finset (List UInt8)

/-- One turn of the loop of `run_forever`, which goes on behind an exception of its tick. -/
def WatchdogState.turn (config : WatchdogConfig) (answers : TickAnswers) (state : WatchdogState) :
    WatchdogState :=
  let after := (runOneTick config answers state.tracked state.keys state.linked).2
  ⟨after.tracked, after.keys, after.linked⟩

/-- The wall time of a process id that a tick reads. -/
def TickAnswers.wallRead (answers : TickAnswers) (heartbeats : Nat → Option (List UInt8))
    (pid : Nat) : Option Int :=
  if answers.hgetall = .replied ∧ pid ∈ answers.fields heartbeats then
    ((heartbeats pid).bind parseHeartbeatValue).map Prod.snd
  else none

/-- A watchdog with the wall times of a process id that its ticks read, the last one first. -/
structure WatchedPid where
  reads : List Int
  state : WatchdogState

/-- One turn of the loop of `run_forever` with what it reads of a process id. -/
def WatchedPid.turn (config : WatchdogConfig) (pid : Nat) (answers : TickAnswers)
    (watched : WatchedPid) : WatchedPid :=
  ⟨(answers.wallRead watched.state.keys.heartbeats pid).toList ++ watched.reads,
    watched.state.turn config answers⟩

/-- Whatever the other processes do, the table of a watchdog is its own. -/
structure Elsewhere (before after : WatchedPid) : Prop where
  reads : after.reads = before.reads
  tracked : after.state.tracked = before.state.tracked

/-- A process that died and left a heartbeat that parses. -/
structure DeadProcess where
  pid : Nat
  createNs : Nat
  wallNs : Nat
  parses : parseHeartbeatValue (heartbeatValue createNs wallNs) = some ((createNs : Int), (wallNs : Int))

/-- The last heartbeat of the process. -/
def DeadProcess.heartbeat (process : DeadProcess) : List UInt8 :=
  heartbeatValue process.createNs process.wallNs

section Others

variable (dead : List DeadProcess) (allowed : List UInt8 → Prop)

/-- A process id that no dead process had. -/
def OtherPid (pid : Nat) : Prop := ∀ process ∈ dead, process.pid ≠ pid

/-- The steps of the other processes, which only use allowed names; the drain of another watchdog is
a pop and then its unlinks. -/
inductive OtherStep (state : WatchdogState) : WatchdogState → Prop where
  | heartbeat (pid : Nat) (other : OtherPid dead pid) (text : Option (List UInt8)) :
      OtherStep state { state with
        keys := { state.keys with
          heartbeats := Function.update state.keys.heartbeats pid text } }
  | opens (pid : Nat) (other : OtherPid dead pid) (name : List UInt8) (free : allowed name) :
      OtherStep state { state with keys := state.keys.openPipeline pid name }
  | creates (pid : Nat) (other : OtherPid dead pid) (schema name : List UInt8) (setCurrent : Bool)
      (free : allowed name) :
      OtherStep state { state with
        keys := state.keys.createPipeline pid schema name setCurrent
        linked := Insert.insert name state.linked }
  | closes (pid : Nat) (other : OtherPid dead pid) (name : List UInt8) (free : allowed name) :
      OtherStep state { state with keys := ((closeLua pid name).run state.keys).2 }
  | repoints (schema : List UInt8) (name : Option (List UInt8)) :
      OtherStep state { state with
        keys := { state.keys with current := Function.update state.keys.current schema name } }
  | unlinks (name : List UInt8) :
      OtherStep state { state with linked := state.linked.erase name }
  | cleanup (pid : Nat) (expected : List UInt8) (members : List (List UInt8))
      (listed : Listing (state.keys.pidSegments pid) members) :
      OtherStep state { state with
        keys := ((cleanupDeadPidLua members pid expected).run state.keys).2 }
  | pops (maxDrain : Int) (members : List (List UInt8))
      (listed : Listing state.keys.cleanupQueue members)
      (free : ∀ name ∈ ((drainCleanupQueueLua members maxDrain).run state.keys).1, allowed name) :
      OtherStep state { state with
        keys := ((drainCleanupQueueLua members maxDrain).run state.keys).2 }

/-- The states of `run_forever` behind the given ticks, next to the other processes. -/
abbrev ForeverRun (config : WatchdogConfig) (start : WatchdogState) :
    List TickAnswers → WatchdogState → Prop :=
  RoundRun (WatchdogState.turn config) (OtherStep dead allowed) start

end Others

/-- The HGETALL of the tick arrived. -/
def TickAnswers.hears (answers : TickAnswers) : Bool := answers.hgetall = .replied

/-- HGETALL returns the fields of the dead processes, and psutil finds none of them. -/
structure TickAnswers.Attests (dead : List DeadProcess) (answers : TickAnswers) : Prop where
  fields : ∀ heartbeats : Nat → Option (List UInt8), ∀ process ∈ dead,
    (heartbeats process.pid).isSome → process.pid ∈ answers.fields heartbeats
  psutil : ∀ process ∈ dead, crossCheck (answers.psutil process.pid) process.createNs = (true, none)

/-- HGETALL and every cleanup of the tick arrive. -/
structure TickAnswers.Reaches (answers : TickAnswers) : Prop where
  hgetall : answers.hgetall = .replied
  cleanup : ∀ pid, answers.cleanup pid = .replied

end Quorin
