import Mathlib.Data.Rat.Defs
import Mathlib.Logic.Function.Basic

namespace Quorin

/-- The life of a thread object; a thread that the system cannot start stays created. -/
inductive ThreadStatus where
  | created
  | live
  | ended
  deriving DecidableEq

/-- The points of a call of `stop_collector` outside the lock. -/
inductive StopPoint where
  | idle
  | detached (stopEvent thread : Option Nat)
  | signalled (thread : Option Nat)
  /-- The thread was alive behind its join. -/
  | outlived (thread : Nat)
  | finishing
  deriving DecidableEq

/-- The state of the module, of its collector threads, and of the calls that stop them. -/
structure GcManager (Caller : Type) where
  /-- The callback `_gc_callback` stands in `gc.callbacks`. -/
  callbackInstalled : Bool
  /-- The generations of the pre-warmed observers. -/
  observers : List Nat
  thread : Option Nat
  stopEvent : Option Nat
  zombies : List Nat
  /-- The number of thread objects; each comes with a stop event of the same number. -/
  threads : Nat
  status : Nat → ThreadStatus
  eventSet : Nat → Bool
  stops : Caller → StopPoint

/-- The module behind its import. -/
def GcManager.initial {Caller : Type} : GcManager Caller where
  callbackInstalled := false
  observers := []
  thread := none
  stopEvent := none
  zombies := []
  threads := 0
  status := fun _ => .created
  eventSet := fun _ => false
  stops := fun _ => .idle

section Calls

variable {Caller : Type} [DecidableEq Caller] (manager : GcManager Caller)

/-- The recorded thread is alive. -/
def GcManager.threadAlreadyRunning : Bool :=
  match manager.thread with
  | none => false
  | some thread => manager.status thread = .live

/-- The part of `start_collector` that registers the callback. -/
def GcManager.registerCallback : GcManager Caller :=
  { manager with
    observers := if manager.observers = [] then [0, 1, 2] else manager.observers
    callbackInstalled := true }

/-- The part of `start_collector` that records and starts a new thread. -/
def GcManager.spawn (starts : Bool) : GcManager Caller :=
  { manager with
    stopEvent := some manager.threads
    thread := some manager.threads
    threads := manager.threads + 1
    status := Function.update manager.status manager.threads (if starts then .live else .created) }

/-- A call of `start_collector` has nothing left to do. -/
def GcManager.alreadyDone (installCallback : Bool) (gen2IntervalSeconds : Option Rat) : Bool :=
  (!installCallback || manager.callbackInstalled) &&
    (gen2IntervalSeconds.isNone || manager.threadAlreadyRunning)

/-- The function `start_collector`, which runs under the lock. -/
def GcManager.startCollector (installCallback : Bool) (gen2IntervalSeconds : Option Rat)
    (starts : Bool) : GcManager Caller :=
  if manager.alreadyDone installCallback gen2IntervalSeconds then manager
  else
    let manager := if installCallback then manager.registerCallback else manager
    match gen2IntervalSeconds with
    | none => manager
    | some _ => manager.spawn starts

/-- The part of `stop_collector` under the lock. -/
def GcManager.stopCollector (caller : Caller) : GcManager Caller :=
  if manager.callbackInstalled = false ∧ manager.thread = none then manager
  else
    { manager with
      callbackInstalled := false
      thread := none
      stopEvent := none
      stops := Function.update manager.stops caller (.detached manager.stopEvent manager.thread) }

/-- The next step of a call of `stop_collector` behind the lock; a join ends with the thread or with
its timeout. -/
def GcManager.advanceStop (caller : Caller) : GcManager Caller :=
  match manager.stops caller with
  | .idle => manager
  | .detached stopEvent thread =>
      { manager with
        eventSet :=
          match stopEvent with
          | none => manager.eventSet
          | some event => Function.update manager.eventSet event true
        stops := Function.update manager.stops caller (.signalled thread) }
  | .signalled none => { manager with stops := Function.update manager.stops caller .finishing }
  | .signalled (some thread) =>
      { manager with
        stops := Function.update manager.stops caller
          (if manager.status thread = .live then .outlived thread else .finishing) }
  | .outlived thread =>
      { manager with
        zombies := manager.zombies ++ [thread]
        stops := Function.update manager.stops caller .finishing }
  | .finishing =>
      { manager with
        observers := []
        stops := Function.update manager.stops caller .idle }

/-- The loop of a collector thread ends. -/
def GcManager.endLoop (thread : Nat) : GcManager Caller :=
  { manager with status := Function.update manager.status thread .ended }

end Calls

/-- One step of a caller or of a collector thread, whose loop ends only behind its stop event. -/
inductive GcStep {Caller : Type} [DecidableEq Caller] (manager : GcManager Caller) :
    GcManager Caller → Prop where
  | start (installCallback : Bool) (gen2IntervalSeconds : Option Rat) (starts : Bool) :
      GcStep manager (manager.startCollector installCallback gen2IntervalSeconds starts)
  | stop (caller : Caller) (idle : manager.stops caller = .idle) :
      GcStep manager (manager.stopCollector caller)
  | advance (caller : Caller) : GcStep manager (manager.advanceStop caller)
  | ends (thread : Nat) (live : manager.status thread = .live)
      (event : manager.eventSet thread = true) : GcStep manager (manager.endLoop thread)

end Quorin
