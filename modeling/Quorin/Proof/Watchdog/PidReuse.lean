import Quorin.Construction.WatchdogSystem
import Quorin.Proof.Consumer.WireText
import Quorin.Proof.Watchdog.DrainQueue

namespace Quorin

section Heartbeats

theorem readDigits_decimal (number : Nat) : readDigits (decimal number) 0 = some number := by
  obtain ⟨digits, _, small, text, value⟩ := decimal_digits number
  rw [text, readDigits_map small, value]

/-- Two numbers with one text are equal. -/
theorem decimal_injective {first second : Nat} (same : decimal first = decimal second) :
    first = second := by
  have read := readDigits_decimal first
  rw [same, readDigits_decimal] at read
  exact (Option.some.inj read).symm

theorem decimal_noColon (number : Nat) : ∀ byte ∈ decimal number, byte ≠ 58 := by
  intro byte member same
  have digit := decimal_isDigit number byte member
  rw [same] at digit
  exact absurd digit (by decide)

theorem heartbeatValue_create (createNs wallNs : Nat) :
    (heartbeatValue createNs wallNs).takeWhile (· ≠ 58) = decimal createNs := by
  have before : ∀ byte ∈ decimal createNs, (byte ≠ 58 : Bool) = true := by
    simpa using decimal_noColon createNs
  rw [heartbeatValue, List.takeWhile_append_of_pos (by simpa using decimal_noColon createNs)]
  simp

/-- The guard of the cleanup compares the creation times. -/
theorem heartbeatDiffers_iff (createNs wallNs : Nat) (expected : List UInt8) :
    heartbeatDiffers (some (heartbeatValue createNs wallNs)) expected = true ↔
      decimal createNs ≠ expected := by
  have colon : (heartbeatValue createNs wallNs).contains 58 = true := by
    simp [heartbeatValue]
  simp only [heartbeatDiffers, colon, heartbeatValue_create, Bool.true_and, bne_iff_ne]

/-- A heartbeat that parses gives the creation time of its process. -/
theorem parseHeartbeatValue_create {createNs wallNs : Nat} {create wall : Int}
    (parsed : parseHeartbeatValue (heartbeatValue createNs wallNs) = some (create, wall)) :
    create = createNs ∧ (decimal createNs).length ≤ intMaxStrDigits := by
  unfold parseHeartbeatValue at parsed
  split at parsed
  · rw [heartbeatValue_create, parseInt_decimal] at parsed
    by_cases long : intMaxStrDigits < (decimal createNs).length
    · simp [long] at parsed
    · rw [if_neg long] at parsed
      refine ⟨?_, Nat.not_lt.mp long⟩
      cases second : parseInt ((heartbeatValue createNs wallNs).dropWhile (· ≠ 58)).tail with
      | none =>
          rw [second] at parsed
          cases parsed
      | some number =>
          rw [second] at parsed
          exact (Prod.mk.inj (Option.some.inj parsed)).1.symm
  · cases parsed

end Heartbeats

section Invariant

/-- A heartbeat text was written by a process that was started. -/
def Written (status : Process → ProcessStatus) (pid : Nat) (value : List UInt8) : Prop :=
  ∃ process wallNs, process.pid = pid ∧ status process ≠ .unborn ∧
    value = heartbeatValue process.createNs wallNs

/-- A remembered creation time belongs to a process that was started. -/
def Remembered (status : Process → ProcessStatus) (pid : Nat) (createNs : Int) : Prop :=
  ∃ process, process.pid = pid ∧ status process ≠ .unborn ∧ createNs = process.createNs ∧
    (decimal process.createNs).length ≤ intMaxStrDigits

/-- A process that is declared dead is gone. -/
def DeclaredDead (status : Process → ProcessStatus) (pid : Nat) (expected : List UInt8) : Prop :=
  ∃ process, process.pid = pid ∧ status process = .gone ∧ expected = decimal process.createNs

/-- What a watchdog knows is true of processes that were started. -/
structure WatchdogSound (status : Process → ProcessStatus) (watchdog : Watchdog) : Prop where
  tracked : ∀ item ∈ watchdog.tracked, Remembered status item.1 item.2.createTimeNs
  raw : ∀ raw seen, watchdog.phase = .tracking raw seen →
    ∀ item ∈ raw, Written status item.1 item.2
  dead : ∀ pid expected ready seen, watchdog.phase = .cleaning pid expected ready seen →
    DeclaredDead status pid expected

/-- The heartbeat of a live process that holds segments is its own. -/
structure ClusterInvariant (cluster : Cluster) : Prop where
  single : ∀ first second, first.pid = second.pid → (cluster.status first).exists = true →
    (cluster.status second).exists = true → first = second
  beats : ∀ process, cluster.status process = .live → cluster.beating process = true →
    ∃ wallNs, cluster.keys.heartbeats process.pid = some (heartbeatValue process.createNs wallNs)
  written : ∀ pid value, cluster.keys.heartbeats pid = some value → Written cluster.status pid value
  registered : ∀ process, cluster.holdings process ≠ [] → cluster.beating process = true
  begun : ∀ process, cluster.beating process = true → cluster.status process ≠ .unborn
  watchdogs : ∀ index watchdog, cluster.watchdogs index = some watchdog →
    WatchdogSound cluster.status watchdog

/-- No process is born twice, and a process that is gone stays gone. -/
structure StatusLater (before after : Process → ProcessStatus) : Prop where
  born : ∀ process, before process ≠ .unborn → after process ≠ .unborn
  gone : ∀ process, before process = .gone → after process = .gone

theorem StatusLater.refl (status : Process → ProcessStatus) : StatusLater status status :=
  ⟨fun _ => id, fun _ => id⟩

theorem StatusLater.update {status : Process → ProcessStatus} {process : Process}
    {next : ProcessStatus} (turn : next ≠ .unborn) (stays : status process ≠ .gone ∨ next = .gone) :
    StatusLater status (Function.update status process next) := by
  constructor
  · intro other born
    by_cases same : other = process
    · rw [same, Function.update_self]
      exact turn
    · rwa [Function.update_of_ne same]
  · intro other gone
    by_cases same : other = process
    · rw [same] at gone
      rw [same, Function.update_self]
      exact stays.resolve_left (fun still => still gone)
    · rwa [Function.update_of_ne same]

variable {before after : Process → ProcessStatus} (ahead : StatusLater before after)
include ahead

theorem Written.later {pid : Nat} {value : List UInt8} (written : Written before pid value) :
    Written after pid value := by
  obtain ⟨process, wallNs, same, born, text⟩ := written
  exact ⟨process, wallNs, same, ahead.born process born, text⟩

theorem Remembered.later {pid : Nat} {createNs : Int} (remembered : Remembered before pid createNs) :
    Remembered after pid createNs := by
  obtain ⟨process, same, born, created, short⟩ := remembered
  exact ⟨process, same, ahead.born process born, created, short⟩

theorem DeclaredDead.later {pid : Nat} {expected : List UInt8}
    (dead : DeclaredDead before pid expected) : DeclaredDead after pid expected := by
  obtain ⟨process, same, gone, text⟩ := dead
  exact ⟨process, same, ahead.gone process gone, text⟩

theorem WatchdogSound.later {watchdog : Watchdog} (sound : WatchdogSound before watchdog) :
    WatchdogSound after watchdog where
  tracked := fun item member => (sound.tracked item member).later ahead
  raw := fun raw seen phase item member => (sound.raw raw seen phase item member).later ahead
  dead := fun pid expected ready seen phase => (sound.dead pid expected ready seen phase).later ahead

end Invariant

section Watchdogs

variable {status : Process → ProcessStatus}

theorem mem_set {tracked : Tracked} {pid : Nat} {entry : PidEntry} {item : Nat × PidEntry}
    (member : item ∈ tracked.set pid entry) : item ∈ tracked ∨ item = (pid, entry) := by
  unfold Tracked.set at member
  split at member
  · obtain ⟨other, inside, shape⟩ := List.mem_map.mp member
    split at shape
    · exact Or.inr shape.symm
    · exact Or.inl (shape ▸ inside)
  · rcases List.mem_append.mp member with old | new
    · exact Or.inl old
    · exact Or.inr (List.mem_singleton.mp new)

/-- An observed heartbeat keeps the remembered creation times true. -/
theorem trackHeartbeat_remembered {selfPid : Nat} {tracked : Tracked} {seen : List Nat} {pid : Nat}
    {value : List UInt8} (written : Written status pid value)
    (sound : ∀ item ∈ tracked, Remembered status item.1 item.2.createTimeNs) :
    ∀ item ∈ (trackHeartbeat selfPid tracked seen pid value).1,
      Remembered status item.1 item.2.createTimeNs := by
  obtain ⟨process, wallNs, same, born, rfl⟩ := written
  unfold trackHeartbeat
  cases parsed : parseHeartbeatValue (heartbeatValue process.createNs wallNs) with
  | none => exact sound
  | some numbers =>
      obtain ⟨create, wall⟩ := numbers
      obtain ⟨created, short⟩ := parseHeartbeatValue_create parsed
      have fresh : Remembered status pid create := ⟨process, same, born, created, short⟩
      dsimp only
      split
      · exact sound
      · intro item member
        rcases mem_set member with old | new
        · exact sound item old
        · rw [new]
          unfold PidEntry.observe
          cases known : tracked.lookup pid with
          | none => exact fresh
          | some entry =>
              dsimp only
              split
              · obtain ⟨before, after, rfl, _⟩ := List.lookup_eq_some_iff.mp known
                exact sound (pid, entry) (List.mem_append_right _ List.mem_cons_self)
              · exact fresh

/-- A process that the cross-check declares dead does not exist. -/
theorem crossCheck_dead {pid : Nat} {answer : PsutilAnswer} {expected : Int}
    (single : ∀ first second : Process, first.pid = second.pid → (status first).exists = true →
      (status second).exists = true → first = second)
    (truthful : answer.Truthful status pid) (dead : crossCheck answer expected = (true, none))
    {process : Process} (same : process.pid = pid) (created : expected = process.createNs) :
    (status process).exists = false := by
  cases answer with
  | zombieProcess => cases dead
  | accessDenied => cases dead
  | noSuchProcess => exact truthful process same
  | createTime createNs =>
      obtain ⟨other, otherPid, known, time⟩ := truthful
      have different : createNs ≠ expected := by simpa [crossCheck] using dead
      cases here : (status process).exists with
      | false => rfl
      | true =>
          obtain rfl := single other process (otherPid.trans same.symm) known here
          exact absurd (time.symm.trans created.symm) different

/-- A remembered creation time that is declared dead belongs to a process that is gone. -/
theorem Remembered.declaredDead {pid : Nat} {createNs : Int}
    (remembered : Remembered status pid createNs)
    (nowhere : ∀ process : Process, process.pid = pid → createNs = process.createNs →
      (status process).exists = false) :
    DeclaredDead status pid ((strInt createNs).getD []) := by
  obtain ⟨process, same, born, created, short⟩ := remembered
  have absent := nowhere process same created
  refine ⟨process, same, ?_, ?_⟩
  · cases state : status process with
    | unborn => exact absurd state born
    | gone => rfl
    | _ =>
        rw [state] at absent
        cases absent
  · rw [created, strInt, Int.natAbs_natCast, if_neg (Nat.not_lt.mpr short),
      if_neg (by omega), Option.getD_some]

end Watchdogs

section Steps

variable {before after : Cluster}

/-- The guard of a cleanup of a process that is gone sees the heartbeat of a live one. -/
theorem ClusterInvariant.guarded {cluster : Cluster} (invariant : ClusterInvariant cluster) {pid : Nat}
    {expected : List UInt8} (dead : DeclaredDead cluster.status pid expected) {process : Process}
    (live : cluster.status process = .live) (beating : cluster.beating process = true)
    (same : process.pid = pid) :
    heartbeatDiffers (cluster.keys.heartbeats pid) expected = true := by
  obtain ⟨wallNs, heartbeat⟩ := invariant.beats process live beating
  obtain ⟨other, otherPid, gone, rfl⟩ := dead
  rw [← same, heartbeat, heartbeatDiffers_iff]
  intro texts
  have created := decimal_injective texts.symm
  have equal : other = process := by
    cases other
    cases process
    simp_all
  rw [equal, live] at gone
  cases gone

/-- The script of a cleanup of a process that is gone spares the heartbeats of live processes. -/
theorem ClusterInvariant.cleanup_beats {cluster : Cluster} (invariant : ClusterInvariant cluster)
    {pid : Nat} {expected : List UInt8} (dead : DeclaredDead cluster.status pid expected)
    {members : List (List UInt8)} (listed : Listing (cluster.keys.pidSegments pid) members)
    {process : Process} (live : cluster.status process = .live)
    (beating : cluster.beating process = true) :
    ((cleanupDeadPidLua members pid expected).run cluster.keys).2.heartbeats process.pid =
      cluster.keys.heartbeats process.pid := by
  cases differs : heartbeatDiffers (cluster.keys.heartbeats pid) expected with
  | true => rw [cleanupDeadPidLua_abort _ differs]
  | false =>
      obtain ⟨dropped, cleaned⟩ := cleanupDeadPidLua_run cluster.keys differs listed.distinct
      have other : process.pid ≠ pid := by
        intro same
        rw [invariant.guarded dead live beating same] at differs
        cases differs
      rw [cleaned]
      exact Function.update_of_ne other _ _

/-- A heartbeat behind the script was there before it. -/
theorem cleanup_heartbeats {Name : Type} [DecidableEq Name] (keys : RedisKeys Name) {pid : Nat}
    {expected : List UInt8} {members : List Name} (distinct : members.Nodup) {other : Nat}
    {value : List UInt8}
    (present : ((cleanupDeadPidLua members pid expected).run keys).2.heartbeats other = some value) :
    keys.heartbeats other = some value := by
  cases differs : heartbeatDiffers (keys.heartbeats pid) expected with
  | true =>
      rw [cleanupDeadPidLua_abort _ differs] at present
      exact present
  | false =>
      obtain ⟨dropped, cleaned⟩ := cleanupDeadPidLua_run keys differs distinct
      rw [cleaned] at present
      by_cases same : other = pid
      · rw [same] at present
        cases (Function.update_self pid none keys.heartbeats).symm.trans present
      · exact (Function.update_of_ne same _ _).symm.trans present

/-- The watchdogs behind a step of one of them. -/
theorem watchdogs_update {status : Process → ProcessStatus} {watchdogs : Nat → Option Watchdog}
    (sound : ∀ index watchdog, watchdogs index = some watchdog → WatchdogSound status watchdog)
    {index : Nat} {next : Watchdog} (nextSound : WatchdogSound status next) :
    ∀ other watchdog, Function.update watchdogs index (some next) other = some watchdog →
      WatchdogSound status watchdog := by
  intro other watchdog present
  by_cases same : other = index
  · rw [same, Function.update_self] at present
    obtain rfl := Option.some.inj present
    exact nextSound
  · rw [Function.update_of_ne same] at present
    exact sound other watchdog present

theorem ClusterInvariant.initial : ClusterInvariant .initial where
  single := fun first second _ known => by cases known
  beats := fun process live => by cases live
  written := fun pid value present => by cases present
  registered := fun process held => absurd rfl held
  begun := fun process beating => by cases beating
  watchdogs := fun index watchdog present => by cases present

theorem exists_of_runs {status : ProcessStatus} (runs : status.runs = true) :
    status.exists = true := by
  cases status <;> first | rfl | cases runs

/-- A process that ends, or starts to end, is not live any more. -/
theorem ClusterInvariant.turn {cluster : Cluster} (invariant : ClusterInvariant cluster)
    {process : Process} {next : ProcessStatus} (known : (cluster.status process).exists = true)
    (born : next ≠ .unborn) (ended : next ≠ .live) :
    ClusterInvariant (cluster.withStatus process next) := by
  have later : StatusLater cluster.status (Function.update cluster.status process next) :=
    .update born (Or.inl fun gone => by rw [gone] at known; cases known)
  have before : ∀ other, (Function.update cluster.status process next other).exists = true →
      (cluster.status other).exists = true := by
    intro other here
    by_cases same : other = process
    · rw [same]
      exact known
    · rwa [Function.update_of_ne same] at here
  have live : ∀ other, Function.update cluster.status process next other = .live →
      cluster.status other = .live := by
    intro other here
    by_cases same : other = process
    · rw [same, Function.update_self] at here
      exact absurd here ended
    · rwa [Function.update_of_ne same] at here
  exact
    { single := fun first second pids firstKnown secondKnown =>
        invariant.single first second pids (before first firstKnown) (before second secondKnown)
      beats := fun other here beating => invariant.beats other (live other here) beating
      written := fun pid value present => (invariant.written pid value present).later later
      registered := invariant.registered
      begun := fun other beating => later.born other (invariant.begun other beating)
      watchdogs := fun index watchdog present =>
        (invariant.watchdogs index watchdog present).later later }

/-- A step that leaves the heartbeats, the processes and the watchdogs as they are. -/
theorem ClusterInvariant.rekeyed {cluster : Cluster} (invariant : ClusterInvariant cluster)
    {keys : RedisKeys (List UInt8)} (heartbeats : keys.heartbeats = cluster.keys.heartbeats)
    {holdings : Process → List (List UInt8)}
    (registered : ∀ process, holdings process ≠ [] → cluster.beating process = true) :
    ClusterInvariant { cluster with keys, holdings } where
  single := invariant.single
  beats := by
    rw [heartbeats]
    exact invariant.beats
  written := by
    rw [heartbeats]
    exact invariant.written
  registered := registered
  begun := invariant.begun
  watchdogs := invariant.watchdogs

/-- The holdings of a process that beats may change. -/
theorem registered_update {cluster : Cluster} (invariant : ClusterInvariant cluster)
    {process : Process} (beating : cluster.beating process = true) (names : List (List UInt8)) :
    ∀ other, Function.update cluster.holdings process names other ≠ [] →
      cluster.beating other = true := by
  intro other held
  by_cases same : other = process
  · rw [same]
    exact beating
  · rw [Function.update_of_ne same] at held
    exact invariant.registered other held

theorem ProcessStep.invariant (step : ProcessStep before after)
    (invariant : ClusterInvariant before) : ClusterInvariant after := by
  cases step with
  | start process new free =>
      have later : StatusLater before.status (Function.update before.status process .live) :=
        .update (by simp) (Or.inl (by simp [new]))
      have silent : before.beating process = true → False := fun beating =>
        invariant.begun process beating new
      refine ⟨?_, ?_, ?_, invariant.registered, ?_, ?_⟩
      · intro first second pids firstKnown secondKnown
        by_cases firstSame : first = process
        · by_cases secondSame : second = process
          · rw [firstSame, secondSame]
          · have here : (before.status second).exists = true := by
              simpa [Cluster.withStatus, secondSame] using secondKnown
            rw [free second (pids.symm.trans (congrArg Process.pid firstSame))] at here
            cases here
        · have firstHere : (before.status first).exists = true := by
            simpa [Cluster.withStatus, firstSame] using firstKnown
          by_cases secondSame : second = process
          · rw [free first (pids.trans (congrArg Process.pid secondSame))] at firstHere
            cases firstHere
          · have secondHere : (before.status second).exists = true := by
              simpa [Cluster.withStatus, secondSame] using secondKnown
            exact invariant.single first second pids firstHere secondHere
      · intro other live beating
        by_cases same : other = process
        · rw [same] at beating
          exact (silent beating).elim
        · refine invariant.beats other ?_ beating
          simpa [Cluster.withStatus, same] using live
      · exact fun pid value present => (invariant.written pid value present).later later
      · exact fun other beating => later.born other (invariant.begun other beating)
      · exact fun index watchdog present => (invariant.watchdogs index watchdog present).later later
  | heartbeat process wallNs runs =>
      have known := exists_of_runs runs
      have born : before.status process ≠ .unborn := fun unborn => by rw [unborn] at known; cases known
      refine ⟨invariant.single, ?_, ?_, ?_, ?_, invariant.watchdogs⟩
      · intro other live beating
        by_cases pids : other.pid = process.pid
        · have same : other = process :=
            invariant.single other process pids (by rw [show before.status other = .live from live]; rfl)
              known
          rw [same]
          exact ⟨wallNs, Function.update_self _ _ _⟩
        · have different : other ≠ process := fun same => pids (congrArg Process.pid same)
          dsimp only at live beating ⊢
          rw [Function.update_of_ne different] at beating
          rw [Function.update_of_ne pids]
          exact invariant.beats other live beating
      · intro pid value present
        dsimp only at present
        by_cases same : pid = process.pid
        · rw [same, Function.update_self] at present
          exact ⟨process, wallNs, same.symm, born, (Option.some.inj present).symm⟩
        · rw [Function.update_of_ne same] at present
          exact invariant.written pid value present
      · intro other held
        dsimp only at held ⊢
        by_cases same : other = process
        · rw [same]
          exact Function.update_self process true before.beating
        · rw [Function.update_of_ne same]
          exact invariant.registered other held
      · intro other beating
        dsimp only at beating ⊢
        by_cases same : other = process
        · rw [same]
          exact born
        · rw [Function.update_of_ne same] at beating
          exact invariant.begun other beating
  | opens process name runs beating =>
      refine invariant.rekeyed ?_ (registered_update invariant beating _)
      rfl
  | creates process schema name setCurrent runs beating =>
      refine invariant.rekeyed ?_ (registered_update invariant beating _)
      rfl
  | closes process name runs held =>
      have beating := invariant.registered process (List.ne_nil_of_mem held)
      refine invariant.rekeyed ?_ (registered_update invariant beating _)
      rw [closeLua_run]
      rfl
  | exits process live =>
      have known : (before.status process).exists = true := by rw [live]; rfl
      have turned := @ClusterInvariant.turn before invariant process .exiting known (by simp) (by simp)
      refine ⟨turned.single, ?_, ?_, turned.registered, turned.begun, turned.watchdogs⟩
      · intro other here beating
        by_cases pids : other.pid = process.pid
        · have different : other ≠ process := by
            rintro rfl
            simp [Cluster.withStatus] at here
          have otherLive : before.status other = .live := by
            simpa [Cluster.withStatus, different] using here
          exact absurd (invariant.single other process pids (by rw [otherLive]; rfl) known) different
        · obtain ⟨wallNs, present⟩ := turned.beats other here beating
          exact ⟨wallNs, (Function.update_of_ne pids _ _).trans present⟩
      · intro pid value present
        dsimp only at present
        by_cases same : pid = process.pid
        · rw [same, Function.update_self] at present
          cases present
        · rw [Function.update_of_ne same] at present
          exact turned.written pid value present
  | crashes process runs => exact invariant.turn (exists_of_runs runs) (by simp) (by simp)
  | reaped process zombie =>
      exact invariant.turn (by rw [zombie]; rfl) (by simp) (by simp)

/-- A step of one watchdog that leaves the keys as they are. -/
theorem ClusterInvariant.observed {cluster : Cluster} (invariant : ClusterInvariant cluster)
    {index : Nat} {next : Watchdog} (sound : WatchdogSound cluster.status next) :
    ClusterInvariant (cluster.withWatchdog index next) where
  single := invariant.single
  beats := invariant.beats
  written := invariant.written
  registered := invariant.registered
  begun := invariant.begun
  watchdogs := watchdogs_update invariant.watchdogs sound

/-- The script of a cleanup keeps the heartbeats of the live processes. -/
theorem ClusterInvariant.cleaned {cluster : Cluster} (invariant : ClusterInvariant cluster) {pid : Nat}
    {expected : List UInt8} (dead : DeclaredDead cluster.status pid expected)
    {members : List (List UInt8)} (listed : Listing (cluster.keys.pidSegments pid) members) :
    ClusterInvariant
      (cluster.withKeys ((cleanupDeadPidLua members pid expected).run cluster.keys).2) where
  single := invariant.single
  beats := by
    intro process live beating
    have kept := invariant.cleanup_beats dead listed live beating
    obtain ⟨wallNs, present⟩ := invariant.beats process live beating
    exact ⟨wallNs, kept.trans present⟩
  written := fun other value present =>
    invariant.written other value (cleanup_heartbeats cluster.keys listed.distinct present)
  registered := invariant.registered
  begun := invariant.begun
  watchdogs := invariant.watchdogs

theorem WatchdogSound.between {status : Process → ProcessStatus} {watchdog : Watchdog}
    {tracked : Tracked} {phase : WatchdogPhase}
    (remembered : ∀ item ∈ tracked, Remembered status item.1 item.2.createTimeNs)
    (plain : phase = .idle ∨ ∃ ready seen, phase = .checking ready seen) :
    WatchdogSound status { watchdog with tracked, phase } := by
  refine ⟨remembered, ?_, ?_⟩
  · rintro raw seen same
    rcases plain with idle | ⟨ready, others, checking⟩
    · cases idle.symm.trans same
    · cases checking.symm.trans same
  · rintro pid expected ready seen same
    rcases plain with idle | ⟨left, others, checking⟩
    · cases idle.symm.trans same
    · cases checking.symm.trans same

/-- The cross-check declares only processes dead that are gone. -/
theorem WatchdogSound.checked {cluster : Cluster} (invariant : ClusterInvariant cluster)
    {watchdog : Watchdog} (sound : WatchdogSound cluster.status watchdog) {pid : Nat}
    {rest seen : List Nat} {answer : PsutilAnswer} (truthful : answer.Truthful cluster.status pid) :
    WatchdogSound cluster.status (watchdog.checked pid rest seen answer) := by
  refine ⟨sound.tracked, ?_, ?_⟩
  · intro raw others same
    simp only [Watchdog.checked] at same
    split at same
    · cases same
    · split at same <;> cases same
  · intro other expected ready others same
    simp only [Watchdog.checked] at same
    cases known : watchdog.tracked.lookup pid with
    | none =>
        rw [known] at same
        cases same
    | some entry =>
        rw [known] at same
        dsimp only at same
        split at same
        · rename_i dead
          obtain ⟨rfl, rfl, _, _⟩ := WatchdogPhase.cleaning.inj same
          obtain ⟨front, back, split, _⟩ := List.lookup_eq_some_iff.mp known
          have remembered := sound.tracked (pid, entry)
            (by rw [split]; exact List.mem_append_right _ List.mem_cons_self)
          exact remembered.declaredDead fun process here created =>
            crossCheck_dead invariant.single truthful dead here created
        · cases same

theorem WatchdogStep.invariant (step : WatchdogStep before after)
    (invariant : ClusterInvariant before) : ClusterInvariant after := by
  cases step with
  | starts index config none =>
      refine invariant.observed ⟨?_, ?_, ?_⟩
      · exact fun item member => absurd member List.not_mem_nil
      · exact fun raw seen phase => by cases phase
      · exact fun pid expected ready seen phase => by cases phase
  | stops index =>
      refine ⟨invariant.single, invariant.beats, invariant.written, invariant.registered,
        invariant.begun, ?_⟩
      intro other watchdog present
      dsimp only at present
      by_cases same : other = index
      · rw [same, Function.update_self] at present
        cases present
      · rw [Function.update_of_ne same] at present
        exact invariant.watchdogs other watchdog present
  | raises live =>
      exact invariant.observed
        (.between (invariant.watchdogs _ _ live).tracked (Or.inl rfl))
  | hgetall live idle raw listed =>
      refine invariant.observed ⟨(invariant.watchdogs _ _ live).tracked, ?_, ?_⟩
      · intro others seen phase item member
        obtain ⟨rfl, _⟩ := WatchdogPhase.tracking.inj phase
        exact invariant.written item.1 item.2 ((listed item.1 item.2).mp member)
      · exact fun pid expected ready seen phase => by cases phase
  | track live phase =>
      have sound := invariant.watchdogs _ _ live
      have written := sound.raw _ _ phase
      refine invariant.observed ⟨?_, ?_, ?_⟩
      · exact trackHeartbeat_remembered (written _ List.mem_cons_self) sound.tracked
      · intro others seen same item member
        obtain ⟨rfl, _⟩ := WatchdogPhase.tracking.inj same
        exact written item (List.mem_cons_of_mem _ member)
      · exact fun pid expected ready seen same => by cases same
  | ready live phase =>
      exact invariant.observed
        (.between (invariant.watchdogs _ _ live).tracked (Or.inr ⟨_, _, rfl⟩))
  | check live phase answer truthful =>
      exact invariant.observed ((invariant.watchdogs _ _ live).checked invariant truthful)
  | cleanup live phase members listed =>
      have sound := invariant.watchdogs _ _ live
      have cleaned := invariant.cleaned (sound.dead _ _ _ _ phase) listed
      refine cleaned.observed (.between ?_ (Or.inr ⟨_, _, rfl⟩))
      exact fun item member => sound.tracked item (List.mem_filter.mp member).1
  | cleanupLost live phase members listed =>
      have sound := invariant.watchdogs _ _ live
      have cleaned := invariant.cleaned (sound.dead _ _ _ _ phase) listed
      exact cleaned.observed (.between sound.tracked (Or.inl rfl))
  | @drain index watchdog seen live phase members listed =>
      have sound := invariant.watchdogs _ _ live
      have drained : ClusterInvariant (before.withKeys ((drainCleanupQueueLua members
          watchdog.config.batchDrainSize).run before.keys).2) := by
        refine invariant.rekeyed ?_ invariant.registered
        rw [drainCleanupQueueLua, drainLoop_run]
      refine drained.observed (.between ?_ (Or.inl rfl))
      exact fun item member => sound.tracked item (List.mem_filter.mp member).1

theorem ClusterStep.invariant (step : ClusterStep before after)
    (invariant : ClusterInvariant before) : ClusterInvariant after := by
  cases step with
  | process step => exact step.invariant invariant
  | watchdog step => exact step.invariant invariant

theorem ClusterReachable.invariant {cluster : Cluster} (reachable : ClusterReachable cluster) :
    ClusterInvariant cluster := by
  induction reachable with
  | refl => exact .initial
  | tail _ step ih => exact step.invariant ih

end Steps

/-- No cleanup that is about to run decrements a count while a live process of its id holds a segment. -/
def SparesLive (cluster : Cluster) : Prop :=
  ∀ index watchdog pid expected ready seen, cluster.watchdogs index = some watchdog →
    watchdog.phase = .cleaning pid expected ready seen →
    ∀ process, cluster.status process = .live → process.pid = pid → cluster.holdings process ≠ [] →
      ∀ members, (cleanupDeadPidLua members pid expected).run cluster.keys = (-1, cluster.keys)

/-- The cleanup aborts in every reachable cluster in which a live process holds a segment. -/
theorem cleanup_spares_live {cluster : Cluster} (reachable : ClusterReachable cluster) :
    SparesLive cluster := by
  have invariant := reachable.invariant
  intro index watchdog pid expected ready seen here phase process live same holding members
  have dead := (invariant.watchdogs index watchdog here).dead pid expected ready seen phase
  exact cleanupDeadPidLua_abort cluster.keys
    (invariant.guarded dead live (invariant.registered process holding) same)

/-- A process of the sample runs; all of them have the same process id. -/
def sampleProcess (createNs : Nat) : Process := ⟨7, createNs⟩

/-- A watchdog that declares a process dead at its first missed heartbeat. -/
def sampleWatchdogConfig : WatchdogConfig := ⟨1, 0, 64⟩

/-- A process holds a segment when a watchdog has tracked its heartbeat. -/
theorem sampleTracked_steps : ∃ cluster, ClusterReachable cluster ∧
    cluster.watchdogs 0 = some ⟨sampleWatchdogConfig, [(7, ⟨5, 1, 0⟩)], .checking [7] [7]⟩ ∧
    cluster.status = Function.update (fun _ => .unborn) (sampleProcess 1) .live := by
  have started : ClusterReachable _ := .single (.process (.start (sampleProcess 1) rfl fun _ _ => rfl))
  have beating := started.tail (.process (.heartbeat (sampleProcess 1) 5 rfl))
  have opened := beating.tail (.process (.opens (sampleProcess 1) [97] rfl rfl))
  have watching := opened.tail (.watchdog (.starts 0 sampleWatchdogConfig rfl))
  have listed : ∀ pid value, (pid, value) ∈ [(7, heartbeatValue 1 5)] ↔
      Function.update (fun _ => none) 7 (some (heartbeatValue 1 5)) pid = some value := by
    intro pid value
    by_cases same : pid = 7
    · subst same
      simp [eq_comm]
    · simp [same]
  have read := watching.tail (.watchdog (@WatchdogStep.hgetall _ 0 ⟨sampleWatchdogConfig, [], .idle⟩ rfl
    rfl [(7, heartbeatValue 1 5)] listed))
  have tracked := read.tail (.watchdog (@WatchdogStep.track _ 0
    ⟨sampleWatchdogConfig, [], .tracking [(7, heartbeatValue 1 5)] []⟩ 7 (heartbeatValue 1 5) [] [] rfl
    rfl))
  have ready := tracked.tail (.watchdog (@WatchdogStep.ready _ 0
    ⟨sampleWatchdogConfig, [(7, ⟨5, 1, 0⟩)], .tracking [] [7]⟩ [7] rfl rfl))
  exact ⟨_, ready, rfl, rfl⟩

/-- A second process with the id of the dead one holds a segment when the cleanup is about to run. -/
theorem sampleReused_steps : ∃ cluster watchdog, ClusterReachable cluster ∧
    cluster.watchdogs 0 = some watchdog ∧ watchdog.phase = .cleaning 7 [49] [] [7] ∧
    cluster.status (sampleProcess 2) = .live ∧ cluster.holdings (sampleProcess 2) ≠ [] := by
  obtain ⟨cluster, reachable, watching, status⟩ := sampleTracked_steps
  have different : sampleProcess 2 ≠ sampleProcess 1 := by decide
  have crashed := reachable.tail (.process (.crashes (sampleProcess 1) (by rw [status]; rfl)))
  have reaped := crashed.tail (.process (.reaped (sampleProcess 1) (by simp [Cluster.withStatus])))
  have gone : ∀ other : Process, (Function.update (Function.update cluster.status (sampleProcess 1)
      .zombie) (sampleProcess 1) .gone other).exists = false := by
    intro other
    rw [status]
    by_cases same : other = sampleProcess 1
    · rw [same, Function.update_self]
      rfl
    · rw [Function.update_of_ne same, Function.update_of_ne same, Function.update_of_ne same]
      rfl
  have checked := reaped.tail (.watchdog (@WatchdogStep.check
    ((cluster.withStatus (sampleProcess 1) .zombie).withStatus (sampleProcess 1) .gone) 0
    ⟨sampleWatchdogConfig, [(7, ⟨5, 1, 0⟩)], .checking [7] [7]⟩ 7 [] [7] watching rfl .noSuchProcess
    (fun other _ => gone other)))
  have started := checked.tail (.process (.start (sampleProcess 2) (by
    change Function.update (Function.update cluster.status (sampleProcess 1) .zombie)
      (sampleProcess 1) .gone (sampleProcess 2) = .unborn
    rw [status, Function.update_of_ne different, Function.update_of_ne different,
      Function.update_of_ne different]) (fun other _ => gone other)))
  have runs : (Function.update (Function.update (Function.update cluster.status (sampleProcess 1)
      .zombie) (sampleProcess 1) .gone) (sampleProcess 2) .live (sampleProcess 2)).runs = true := by
    rw [Function.update_self]
    rfl
  have beating := started.tail (.process (.heartbeat (sampleProcess 2) 9 runs))
  have opened := beating.tail (.process (.opens (sampleProcess 2) [98] runs (by simp)))
  refine ⟨_, _, opened, Function.update_self 0 _ cluster.watchdogs, rfl, ?_, ?_⟩
  · simp [Cluster.withStatus]
  · simp

/-- The cleanup of the dead process aborts although its process id is in use again. -/
theorem cleanup_spares_live_sample : ∃ cluster, ClusterReachable cluster ∧
    cluster.holdings (sampleProcess 2) ≠ [] ∧
    (cleanupDeadPidLua [[97], [98]] 7 [49]).run cluster.keys = (-1, cluster.keys) := by
  obtain ⟨cluster, watchdog, reachable, watching, phase, live, holding⟩ := sampleReused_steps
  exact ⟨cluster, reachable, holding, cleanup_spares_live reachable 0 watchdog 7 [49] [] [7] watching
    phase (sampleProcess 2) live rfl holding [[97], [98]]⟩

end Quorin
