import Mathlib.Logic.Relation
import Quorin.Construction.Heartbeat
import Quorin.Proof.Watchdog.PidReuse

namespace Quorin

/-- The threads of a process that are not told to stop are the recorded one, and a call behind the lock
finds none. -/
structure HeartbeatProcess.Sound (process : Process) (state : HeartbeatProcess) : Prop where
  bounded : ∀ index thread, state.threads index = some thread → index < state.created
  own : ∀ index thread, state.threads index = some thread → thread.phantom = false →
    thread.pid = process.pid ∧ thread.createTimeNs = process.createNs
  unstopped : ∀ index thread, state.threads index = some thread → state.eventSet index = false →
    state.module.thread = some index ∧ state.module.stopEvent = some index
  quiet : ∀ point, state.lock = some point → point ≠ .orphaned → ∀ index thread,
    state.threads index = some thread → state.eventSet index = true
  ended : state.status.runs = false →
    state.lock = none ∧ (∀ index, state.threads index = none) ∧ state.handlers = 0

theorem ProcessStatus.running_ended {status : ProcessStatus} {fact : Prop}
    (runs : status.runs = true) (ended : status.runs = false) : fact :=
  absurd (ended.symm.trans runs) Bool.false_ne_true

section Process

variable {process : Process} {state : HeartbeatProcess}

theorem HeartbeatProcess.unborn_sound (process : Process) (status : ProcessStatus) :
    ({ HeartbeatProcess.unborn with status } : HeartbeatProcess).Sound process where
  bounded := fun _ _ impossible => by cases impossible
  own := fun _ _ impossible => by cases impossible
  unstopped := fun _ _ impossible => by cases impossible
  quiet := fun _ impossible => by cases impossible
  ended := fun _ => ⟨rfl, fun _ => rfl, rfl⟩

/-- A process that holds the lock runs. -/
theorem HeartbeatProcess.Sound.runs (sound : state.Sound process) {point : LockPoint}
    (held : state.lock = some point) : state.status.runs = true := by
  by_contra stopped
  rw [(sound.ended (Bool.eq_false_iff.mpr stopped)).1] at held
  cases held

theorem HeartbeatProcess.Sound.threadRuns (sound : state.Sound process) {index : Nat}
    {thread : HeartbeatThread} (alive : state.threads index = some thread) :
    state.status.runs = true := by
  by_contra stopped
  rw [(sound.ended (Bool.eq_false_iff.mpr stopped)).2.1] at alive
  cases alive

/-- The next point of a call behind the lock. -/
theorem HeartbeatProcess.Sound.point (sound : state.Sound process) {before after : LockPoint}
    (held : state.lock = some before) (active : before ≠ .orphaned) :
    ({ state with lock := some after } : HeartbeatProcess).Sound process where
  bounded := sound.bounded
  own := sound.own
  unstopped := sound.unstopped
  quiet := fun _ _ _ => sound.quiet before held active
  ended := ProcessStatus.running_ended (sound.runs held)

/-- A call of `ensure_started` goes on only when every thread is told to stop. -/
theorem HeartbeatProcess.Sound.ensureStarted (sound : state.Sound process)
    (runs : state.status.runs = true) (idle : state.isRunning = false) :
    ({ state with lock := some .firstWrite } : HeartbeatProcess).Sound process where
  bounded := sound.bounded
  own := sound.own
  unstopped := sound.unstopped
  quiet := by
    intro _ _ _ index thread alive
    by_contra unset
    have recorded := (sound.unstopped index thread alive (Bool.eq_false_iff.mpr unset)).1
    rw [HeartbeatProcess.isRunning, recorded, Option.bind_some, alive] at idle
    cases idle
  ended := ProcessStatus.running_ended runs

theorem HeartbeatProcess.Sound.install (sound : state.Sound process)
    (held : state.lock = some .install) (starts : Bool) :
    (state.install process starts).Sound process := by
  have stopped := sound.quiet _ held (by decide)
  have origin : ∀ index thread, (state.install process starts).threads index = some thread →
      index = state.created ∧ thread = ⟨process.pid, process.createNs, none, false⟩ ∨
        index < state.created ∧ state.threads index = some thread := by
    intro index thread alive
    by_cases new : index = state.created
    · subst new
      cases starts with
      | false => exact absurd (sound.bounded _ _ alive) (Nat.lt_irrefl _)
      | true =>
          left
          simp only [HeartbeatProcess.install, if_true, Function.update_self] at alive
          exact ⟨rfl, (Option.some.inj alive).symm⟩
    · right
      have old : state.threads index = some thread := by
        cases starts with
        | false => exact alive
        | true => simpa [HeartbeatProcess.install, Function.update_of_ne new] using alive
      exact ⟨sound.bounded _ _ old, old⟩
  constructor
  · intro index thread alive
    rcases origin index thread alive with ⟨rfl, _⟩ | ⟨less, _⟩
    · exact Nat.lt_succ_self _
    · exact Nat.lt_succ_of_lt less
  · intro index thread alive own
    rcases origin index thread alive with ⟨_, rfl⟩ | ⟨_, old⟩
    · exact ⟨rfl, rfl⟩
    · exact sound.own index thread old own
  · intro index thread alive unset
    rcases origin index thread alive with ⟨rfl, _⟩ | ⟨less, old⟩
    · exact ⟨rfl, rfl⟩
    · have kept : state.eventSet index = false := by
        simpa [HeartbeatProcess.install, Function.update_of_ne (Nat.ne_of_lt less)] using unset
      rw [stopped index thread old] at kept
      cases kept
  · intro _ impossible
    cases impossible
  · exact ProcessStatus.running_ended (sound.runs held)

/-- Behind the stop event of `stop` every thread is told to stop. -/
theorem HeartbeatProcess.Sound.stop (sound : state.Sound process) (runs : state.status.runs = true) :
    state.stop.Sound process := by
  have stopped : ∀ index thread, state.threads index = some thread →
      state.stop.eventSet index = true := by
    intro index thread alive
    unfold HeartbeatProcess.stop
    dsimp only
    by_cases set : state.eventSet index = true
    · cases state.module.stopEvent with
      | none => exact set
      | some event =>
          dsimp only
          by_cases same : index = event
          · rw [same, Function.update_self]
          · rw [Function.update_of_ne same, set]
    · rw [(sound.unstopped index thread alive (Bool.eq_false_iff.mpr set)).2]
      exact Function.update_self _ _ _
  constructor
  · exact sound.bounded
  · exact sound.own
  · intro index thread alive unset
    rw [stopped index thread alive] at unset
    cases unset
  · exact fun _ _ _ index thread alive => stopped index thread alive
  · exact ProcessStatus.running_ended runs

theorem HeartbeatProcess.Sound.clear (sound : state.Sound process) (held : state.lock = some .clear) :
    state.clear.Sound process where
  bounded := sound.bounded
  own := sound.own
  unstopped := by
    intro index thread alive unset
    have set := sound.quiet _ held (by decide) index thread alive
    rw [show state.eventSet index = false from unset] at set
    cases set
  quiet := fun _ impossible => by cases impossible
  ended := ProcessStatus.running_ended (sound.runs held)

/-- A thread goes on with its own arguments. -/
theorem HeartbeatProcess.Sound.thread (sound : state.Sound process) {index : Nat}
    {thread : HeartbeatThread} (alive : state.threads index = some thread) (writing : Option Nat) :
    (state.withThread index (some { thread with writing })).Sound process := by
  have origin : ∀ other held, (state.withThread index (some { thread with writing })).threads other =
      some held → ∃ before, state.threads other = some before ∧ before.pid = held.pid ∧
        before.createTimeNs = held.createTimeNs ∧ before.phantom = held.phantom := by
    intro other held known
    by_cases same : other = index
    · subst same
      simp only [HeartbeatProcess.withThread, Function.update_self] at known
      obtain rfl := Option.some.inj known
      exact ⟨thread, alive, rfl, rfl, rfl⟩
    · simp only [HeartbeatProcess.withThread, Function.update_of_ne same] at known
      exact ⟨held, known, rfl, rfl, rfl⟩
  constructor
  · intro other held known
    obtain ⟨before, old, _⟩ := origin other held known
    exact sound.bounded other before old
  · intro other held known own
    obtain ⟨before, old, pid, createNs, phantom⟩ := origin other held known
    rw [← pid, ← createNs]
    exact sound.own other before old (phantom.trans own)
  · intro other held known unset
    obtain ⟨before, old, _⟩ := origin other held known
    exact sound.unstopped other before old unset
  · intro point taken active other held known
    obtain ⟨before, old, _⟩ := origin other held known
    exact sound.quiet point taken active other before old
  · exact ProcessStatus.running_ended (sound.threadRuns alive)

theorem HeartbeatProcess.Sound.threadEnds (sound : state.Sound process) (index : Nat) :
    (state.withThread index none).Sound process := by
  have origin : ∀ other held, (state.withThread index none).threads other = some held →
      state.threads other = some held := by
    intro other held known
    by_cases same : other = index
    · subst same
      simp [HeartbeatProcess.withThread] at known
    · simpa [HeartbeatProcess.withThread, Function.update_of_ne same] using known
  constructor
  · exact fun other held known => sound.bounded other held (origin other held known)
  · exact fun other held known => sound.own other held (origin other held known)
  · exact fun other held known => sound.unstopped other held (origin other held known)
  · exact fun point taken active other held known =>
      sound.quiet point taken active other held (origin other held known)
  · intro ended
    obtain ⟨lock, threads, handlers⟩ := sound.ended ended
    refine ⟨lock, fun other => ?_, handlers⟩
    cases known : (state.withThread index none).threads other with
    | none => rfl
    | some held => exact (origin other held known).symm.trans (threads other)

/-- A forked child has no thread of its own, whether its fork hook ran or not. -/
theorem HeartbeatProcess.Sound.forked {parent : Process} (sound : state.Sound parent)
    (child : Process) (hooked : Bool) : (state.forked hooked).Sound child := by
  cases hooked with
  | true =>
      constructor
      · exact fun _ _ impossible => by cases impossible
      · exact fun _ _ impossible => by cases impossible
      · exact fun _ _ impossible => by cases impossible
      · exact fun _ impossible => by cases impossible
      · exact fun impossible => by cases impossible
  | false =>
      have origin : ∀ index thread, (state.forked false).threads index = some thread →
          thread.phantom = true ∧ ∃ before, state.threads index = some before := by
        intro index thread known
        obtain ⟨before, alive, rfl⟩ := Option.map_eq_some_iff.mp
          (show (state.threads index).map _ = some thread from known)
        exact ⟨rfl, before, alive⟩
      constructor
      · intro index thread known
        obtain ⟨_, before, alive⟩ := origin index thread known
        exact sound.bounded index before alive
      · intro index thread known own
        rw [(origin index thread known).1] at own
        cases own
      · intro index thread known unset
        obtain ⟨_, before, alive⟩ := origin index thread known
        exact sound.unstopped index before alive unset
      · intro point taken active
        obtain ⟨_, _, rfl⟩ := Option.map_eq_some_iff.mp
          (show state.lock.map _ = some point from taken)
        exact absurd rfl active
      · exact fun impossible => by cases impossible

theorem HeartbeatProcess.died_sound (process : Process) (state : HeartbeatProcess) :
    state.died.Sound process where
  bounded := fun _ _ impossible => by cases impossible
  own := fun _ _ impossible => by cases impossible
  unstopped := fun _ _ impossible => by cases impossible
  quiet := fun _ impossible => by cases impossible
  ended := fun _ => ⟨rfl, fun _ => rfl, rfl⟩

end Process

/-- Every process is sound, a process id belongs to one process, and the stored heartbeat of a process
that runs is its own. -/
structure HeartbeatWorld.Sound (world : HeartbeatWorld) : Prop where
  processes : ∀ process, (world.processes process).Sound process
  unique : ∀ first second, first.pid = second.pid →
    (world.processes first).status.exists = true → (world.processes second).status.exists = true →
      first = second
  stored : ∀ process, (world.processes process).status.runs = true → world.stored process = true →
    ∃ wallNs, world.keys.heartbeats process.pid = some (heartbeatValue process.createNs wallNs)
  unborn : ∀ process, (world.processes process).status = .unborn → world.stored process = false

theorem ProcessStatus.exists_of_runs {status : ProcessStatus} (runs : status.runs = true) :
    status.exists = true := by
  cases status with
  | unborn => cases runs
  | live => rfl
  | exiting => rfl
  | zombie => rfl
  | gone => cases runs

section World

variable {world : HeartbeatWorld} {process : Process}

theorem HeartbeatWorld.initial_sound : HeartbeatWorld.initial.Sound where
  processes := fun process => HeartbeatProcess.unborn_sound process .unborn
  unique := fun _ _ _ impossible => by cases impossible
  stored := fun _ impossible => by cases impossible
  unborn := fun _ _ => rfl

/-- Another state of a process that exists, which does not begin to run. -/
theorem HeartbeatWorld.Sound.keep (sound : world.Sound) {state : HeartbeatProcess}
    (next : state.Sound process) (born : (world.processes process).status.exists = true)
    (runs : state.status.runs = true → (world.processes process).status.runs = true)
    (after : state.status ≠ .unborn) : (world.withProcess process state).Sound := by
  have exist : ∀ other, ((world.withProcess process state).processes other).status.exists = true →
      (world.processes other).status.exists = true := by
    intro other
    by_cases same : other = process
    · exact fun _ => same ▸ born
    · simp only [HeartbeatWorld.withProcess, Function.update_of_ne same]
      exact id
  constructor
  · intro other
    by_cases same : other = process
    · subst same
      simpa [HeartbeatWorld.withProcess] using next
    · simpa [HeartbeatWorld.withProcess, Function.update_of_ne same] using sound.processes other
  · exact fun first second pids one two => sound.unique first second pids (exist first one) (exist second two)
  · intro other running
    refine sound.stored other ?_
    by_cases same : other = process
    · subst same
      exact runs (by simpa [HeartbeatWorld.withProcess] using running)
    · simpa [HeartbeatWorld.withProcess, Function.update_of_ne same] using running
  · intro other fresh
    by_cases same : other = process
    · subst same
      exact absurd (by simpa [HeartbeatWorld.withProcess] using fresh) after
    · exact sound.unborn other
        (by simpa [HeartbeatWorld.withProcess, Function.update_of_ne same] using fresh)

/-- A state of a process with the same status. -/
theorem HeartbeatWorld.Sound.move (sound : world.Sound) {state : HeartbeatProcess}
    (next : state.Sound process) (runs : (world.processes process).status.runs = true)
    (same : state.status = (world.processes process).status) :
    (world.withProcess process state).Sound := by
  refine sound.keep next (ProcessStatus.exists_of_runs runs) (fun _ => runs) ?_
  rw [same]
  intro unborn
  rw [unborn] at runs
  cases runs

/-- A process starts under a process id that no other process has. -/
theorem HeartbeatWorld.Sound.begin (sound : world.Sound) {state : HeartbeatProcess}
    (next : state.Sound process) (live : state.status = .live)
    (new : (world.processes process).status = .unborn)
    (free : ∀ other, other.pid = process.pid → (world.processes other).status.exists = false) :
    (world.withProcess process state).Sound := by
  have alone : ∀ other, other.pid = process.pid →
      ((world.withProcess process state).processes other).status.exists = true → other = process := by
    intro other pids exist
    by_contra different
    simp only [HeartbeatWorld.withProcess, Function.update_of_ne different] at exist
    rw [free other pids] at exist
    cases exist
  constructor
  · intro other
    by_cases same : other = process
    · subst same
      simpa [HeartbeatWorld.withProcess] using next
    · simpa [HeartbeatWorld.withProcess, Function.update_of_ne same] using sound.processes other
  · intro first second pids one two
    by_cases firstNew : first = process
    · subst firstNew
      exact (alone second pids.symm two).symm
    · by_cases secondNew : second = process
      · subst secondNew
        exact alone first pids one
      · simp only [HeartbeatWorld.withProcess, Function.update_of_ne firstNew] at one
        simp only [HeartbeatWorld.withProcess, Function.update_of_ne secondNew] at two
        exact sound.unique first second pids one two
  · intro other running stored
    by_cases same : other = process
    · subst same
      exact absurd ((sound.unborn other new).symm.trans stored) Bool.false_ne_true
    · refine sound.stored other ?_ stored
      simpa [HeartbeatWorld.withProcess, Function.update_of_ne same] using running
  · intro other fresh
    by_cases same : other = process
    · subst same
      simp only [HeartbeatWorld.withProcess, Function.update_self, live] at fresh
      cases fresh
    · exact sound.unborn other
        (by simpa [HeartbeatWorld.withProcess, Function.update_of_ne same] using fresh)

/-- A process that runs stores its own heartbeat. -/
theorem HeartbeatWorld.Sound.writeHeartbeat (sound : world.Sound)
    (runs : (world.processes process).status.runs = true) (fate : CallFate) (wallNs : Nat) :
    (world.writeHeartbeat process fate process.pid process.createNs wallNs).Sound := by
  unfold HeartbeatWorld.writeHeartbeat
  split
  · exact sound
  · refine ⟨sound.processes, sound.unique, ?_, ?_⟩
    · intro other running stored
      by_cases same : other = process
      · subst same
        exact ⟨wallNs, Function.update_self _ _ _⟩
      · have pids : other.pid ≠ process.pid := fun pids => same (sound.unique other process pids
          (ProcessStatus.exists_of_runs running) (ProcessStatus.exists_of_runs runs))
        obtain ⟨wall, own⟩ := sound.stored other running
          (by simpa [Function.update_of_ne same] using stored)
        exact ⟨wall, (Function.update_of_ne pids _ _).trans own⟩
    · intro other fresh
      have different : other ≠ process := by
        rintro rfl
        rw [show (world.processes other).status = .unborn from fresh] at runs
        cases runs
      exact (Function.update_of_ne different _ _).trans (sound.unborn other fresh)

/-- The atexit handler takes no heartbeat of another process that runs. -/
theorem HeartbeatWorld.Sound.atexitHandler (sound : world.Sound)
    (runs : (world.processes process).status.runs = true) (fate : CallFate) :
    (world.atexitHandler process fate).Sound := by
  unfold HeartbeatWorld.atexitHandler
  split
  · exact sound
  · refine ⟨sound.processes, sound.unique, ?_, ?_⟩
    · intro other running stored
      by_cases same : other = process
      · subst same
        simp at stored
      · have pids : other.pid ≠ process.pid := fun pids => same (sound.unique other process pids
          (ProcessStatus.exists_of_runs running) (ProcessStatus.exists_of_runs runs))
        obtain ⟨wall, own⟩ := sound.stored other running
          (by simpa [Function.update_of_ne same] using stored)
        exact ⟨wall, (Function.update_of_ne pids _ _).trans own⟩
    · intro other fresh
      by_cases same : other = process
      · subst same
        exact Function.update_self _ _ _
      · exact (Function.update_of_ne same _ _).trans (sound.unborn other fresh)

theorem writeHeartbeat_processes (fate : CallFate) (pid createTimeNs wallNs : Nat) :
    (world.writeHeartbeat process fate pid createTimeNs wallNs).processes = world.processes := by
  unfold HeartbeatWorld.writeHeartbeat
  split
  · rfl
  · rfl

theorem atexitHandler_processes (fate : CallFate) :
    (world.atexitHandler process fate).processes = world.processes := by
  unfold HeartbeatWorld.atexitHandler
  split
  · rfl
  · rfl

/-- A cleanup takes the heartbeat of its process id only, and only behind its guard. -/
theorem HeartbeatWorld.Sound.cleanup (sound : world.Sound) (pid : Nat) (expected : List UInt8)
    {members : List (List UInt8)} (listed : Listing (world.keys.pidSegments pid) members) :
    ({ world with
      keys := ((cleanupDeadPidLua members pid expected).run world.keys).2
      stored := fun process => world.stored process &&
        (process.pid ≠ pid || heartbeatDiffers (world.keys.heartbeats pid) expected) } :
      HeartbeatWorld).Sound := by
  refine ⟨sound.processes, sound.unique, ?_, ?_⟩
  · intro other running stored
    obtain ⟨before, spared⟩ := (Bool.and_eq_true _ _).mp stored
    obtain ⟨wallNs, own⟩ := sound.stored other running before
    refine ⟨wallNs, ?_⟩
    cases differs : heartbeatDiffers (world.keys.heartbeats pid) expected with
    | true =>
        rw [cleanupDeadPidLua_abort world.keys differs]
        exact own
    | false =>
        rw [differs, Bool.or_false] at spared
        obtain ⟨dropped, cleaned⟩ := cleanupDeadPidLua_run world.keys differs listed.distinct
        rw [cleaned]
        exact (Function.update_of_ne (of_decide_eq_true spared) _ _).trans own
  · intro other fresh
    simp only [sound.unborn other fresh, Bool.false_and]

/-- Every step of a process, of a heartbeat thread or of a watchdog keeps the invariant. -/
theorem HeartbeatStep.sound {after : HeartbeatWorld} (step : HeartbeatStep world after)
    (sound : world.Sound) : after.Sound := by
  cases step with
  | start process new free =>
      exact sound.begin (HeartbeatProcess.unborn_sound process .live) rfl new free
  | fork parent child live new free hooked =>
      exact sound.begin ((sound.processes parent).forked child hooked) rfl new free
  | ensureStarted process runs free idle =>
      exact sound.move ((sound.processes process).ensureStarted runs idle) runs rfl
  | firstWrite process held fate wallNs =>
      have runs := (sound.processes process).runs held
      have wrote := sound.writeHeartbeat runs fate wallNs
      have same := @writeHeartbeat_processes world process fate process.pid process.createNs wallNs
      exact wrote.move ((sound.processes process).point held (by decide)) (by rw [same]; exact runs)
        (by rw [same])
  | install process held starts =>
      exact sound.move ((sound.processes process).install held starts)
        ((sound.processes process).runs held) rfl
  | stop process runs free => exact sound.move ((sound.processes process).stop runs) runs rfl
  | joined process held =>
      exact sound.move ((sound.processes process).point held (by decide))
        ((sound.processes process).runs held) rfl
  | delete process held fate =>
      have runs := (sound.processes process).runs held
      have deleted := sound.atexitHandler runs fate
      have same := @atexitHandler_processes world process fate
      exact deleted.move ((sound.processes process).point held (by decide)) (by rw [same]; exact runs)
        (by rw [same])
  | clear process held =>
      exact sound.move ((sound.processes process).clear held) ((sound.processes process).runs held) rfl
  | wakes process index alive own waits unset wallNs =>
      exact sound.move ((sound.processes process).thread alive _)
        ((sound.processes process).threadRuns alive) rfl
  | @writes process index thread wallNs alive own writing fate =>
      have runs := (sound.processes process).threadRuns alive
      obtain ⟨pid, createNs⟩ := (sound.processes process).own index thread alive own
      have wrote := sound.writeHeartbeat runs fate wallNs
      rw [← pid, ← createNs] at wrote
      have same := @writeHeartbeat_processes world process fate thread.pid thread.createTimeNs wallNs
      exact wrote.move ((sound.processes process).thread alive none) (by rw [same]; exact runs)
        (by rw [same]; rfl)
  | ends process index alive own waits event =>
      exact sound.move ((sound.processes process).threadEnds index)
        ((sound.processes process).threadRuns alive) rfl
  | exits process live =>
      have held := sound.processes process
      have runs : (world.processes process).status.runs = true := by rw [live]; rfl
      exact sound.keep
        ⟨held.bounded, held.own, held.unstopped, held.quiet, ProcessStatus.running_ended rfl⟩
        (ProcessStatus.exists_of_runs runs) (fun _ => runs) (by simp)
  | handler process left fate =>
      have held := sound.processes process
      have runs : (world.processes process).status.runs = true := by
        by_contra stopped
        rw [(held.ended (Bool.eq_false_iff.mpr stopped)).2.2] at left
        cases left
      have deleted := sound.atexitHandler runs fate
      have same := @atexitHandler_processes world process fate
      exact deleted.move
        ⟨held.bounded, held.own, held.unstopped, held.quiet, ProcessStatus.running_ended runs⟩
        (by rw [same]; exact runs) (by rw [same])
  | dies process runs =>
      exact sound.keep (HeartbeatProcess.died_sound process _) (ProcessStatus.exists_of_runs runs)
        (fun impossible => by cases impossible) (by simp [HeartbeatProcess.died])
  | reaped process zombie =>
      have held := sound.processes process
      have ended := held.ended (by rw [zombie]; rfl)
      exact sound.keep ⟨held.bounded, held.own, held.unstopped, held.quiet, fun _ => ended⟩
        (by rw [zombie]; rfl) (fun impossible => by cases impossible) (by simp)
  | cleanup pid expected members listed => exact sound.cleanup pid expected listed

theorem heartbeat_sound (run : Relation.ReflTransGen HeartbeatStep .initial world) : world.Sound := by
  induction run with
  | refl => exact HeartbeatWorld.initial_sound
  | tail _ step ih => exact step.sound ih

end World

/-- A thread of the process runs and was not told to stop. -/
def HeartbeatProcess.Beats (state : HeartbeatProcess) (index : Nat) : Prop :=
  ∃ thread, state.threads index = some thread ∧ thread.phantom = false ∧
    state.eventSet index = false

/-- A process has at most one heartbeat thread at work, and what it stored stays its own heartbeat. -/
theorem heartbeat_protocol {world : HeartbeatWorld}
    (run : Relation.ReflTransGen HeartbeatStep .initial world) (process : Process)
    (runs : (world.processes process).status.runs = true) :
    (∀ first second, (world.processes process).Beats first → (world.processes process).Beats second →
      first = second ∧ (world.processes process).module.thread = some first ∧
        (world.processes process).module.stopEvent = some first) ∧
    (world.stored process = true →
      (∃ wallNs, world.keys.heartbeats process.pid =
        some (heartbeatValue process.createNs wallNs)) ∧
      ∀ members expected, expected ≠ decimal process.createNs →
        (cleanupDeadPidLua members process.pid expected).run world.keys = (-1, world.keys)) := by
  have sound := heartbeat_sound run
  constructor
  · rintro first second ⟨one, firstAlive, _, firstUnset⟩ ⟨two, secondAlive, _, secondUnset⟩
    obtain ⟨thread, event⟩ := (sound.processes process).unstopped first one firstAlive firstUnset
    obtain ⟨other, _⟩ := (sound.processes process).unstopped second two secondAlive secondUnset
    exact ⟨Option.some.inj (thread.symm.trans other), thread, event⟩
  · intro stored
    obtain ⟨wallNs, own⟩ := sound.stored process runs stored
    refine ⟨⟨wallNs, own⟩, ?_⟩
    intro members expected different
    refine cleanupDeadPidLua_abort world.keys ?_
    rw [own]
    exact (heartbeatDiffers_iff process.createNs wallNs expected).mpr different.symm

/-- A process that forks a child past the fork hook. -/
def sampleParent : Process := ⟨7, 5⟩

def sampleChild : Process := ⟨8, 6⟩

/-- The parent behind the first write of `ensure_started`. -/
def sampleWriting : HeartbeatWorld :=
  let started := HeartbeatWorld.initial.withProcess sampleParent
    { HeartbeatProcess.unborn with status := .live }
  let called := started.withProcess sampleParent
    { started.processes sampleParent with lock := some .firstWrite }
  (called.writeHeartbeat sampleParent .replied 7 5 9).withProcess sampleParent
    { called.processes sampleParent with lock := some .install }

/-- The parent with its heartbeat thread. -/
def sampleBeating : HeartbeatWorld :=
  sampleWriting.withProcess sampleParent ((sampleWriting.processes sampleParent).install sampleParent true)

/-- The child exits, and its handler has run. -/
def sampleForked : HeartbeatWorld :=
  let born := sampleBeating.withProcess sampleChild
    ((sampleBeating.processes sampleParent).forked false)
  let exiting := born.withProcess sampleChild
    { born.processes sampleChild with
      status := .exiting
      handlers := (born.processes sampleChild).registered }
  (exiting.atexitHandler sampleChild .replied).withProcess sampleChild
    { exiting.processes sampleChild with handlers := 0 }

theorem sampleForked_run : Relation.ReflTransGen HeartbeatStep .initial sampleForked := by
  have free : ∀ other : Process, other.pid = sampleChild.pid →
      (sampleBeating.processes other).status.exists = false := by
    intro other same
    have different : other ≠ sampleParent := by
      rintro rfl
      exact absurd same (by decide)
    simp [sampleBeating, sampleWriting, HeartbeatWorld.withProcess, HeartbeatWorld.writeHeartbeat,
      HeartbeatWorld.initial, HeartbeatProcess.unborn, Function.update_of_ne different,
      ProcessStatus.exists]
  refine .tail (.tail (.tail (.tail (.tail (.tail (.tail .refl
    (.start sampleParent rfl fun _ _ => rfl))
    (.ensureStarted sampleParent (by decide) (by decide) (by decide)))
    (.firstWrite sampleParent (by decide) .replied 9))
    (.install sampleParent (by decide) true))
    (.fork sampleParent sampleChild (by decide) (by decide) free false))
    (.exits sampleChild (by decide)))
    (@HeartbeatStep.handler _ sampleChild 0 (by decide) .replied)

/-- The exit of the child leaves the heartbeat of its parent where it is. -/
theorem heartbeat_protocol_sample :
    (∃ wallNs, sampleForked.keys.heartbeats 7 = some (heartbeatValue 5 wallNs)) ∧
      ∀ members expected, expected ≠ decimal 5 →
        (cleanupDeadPidLua members 7 expected).run sampleForked.keys = (-1, sampleForked.keys) :=
  (heartbeat_protocol sampleForked_run sampleParent (by decide)).2 (by decide)

end Quorin
