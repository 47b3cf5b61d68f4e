import Quorin.Construction.RunForever
import Quorin.Proof.Watchdog.PidReuse

namespace Quorin

section Dictionary

theorem lookup_filter (keep : Nat → Bool) (tracked : Tracked) (pid : Nat) :
    List.lookup pid (tracked.filter fun item => keep item.1) =
      if keep pid then tracked.lookup pid else none := by
  induction tracked with
  | nil => simp
  | cons item rest ih =>
      obtain ⟨key, entry⟩ := item
      by_cases same : pid = key
      · subst same
        by_cases kept : keep pid
        · simp [kept]
        · simpa [kept] using ih
      · have apart : (pid == key) = false := beq_false_of_ne same
        by_cases kept : keep key
        · simpa [kept, List.lookup_cons, apart] using ih
        · simpa [kept, List.lookup_cons, apart] using ih

theorem lookup_prune (tracked : Tracked) (seen : List Nat) (pid : Nat) :
    (tracked.prune seen).lookup pid = if pid ∈ seen then tracked.lookup pid else none := by
  simpa [Tracked.prune] using lookup_filter (fun key => decide (key ∈ seen)) tracked pid

theorem lookup_pop (tracked : Tracked) {pid other : Nat} (different : other ≠ pid) :
    (tracked.pop pid).lookup other = tracked.lookup other := by
  simpa [Tracked.pop, different] using lookup_filter (fun key => decide (key ≠ pid)) tracked other

theorem lookup_replace (tracked : Tracked) (pid other : Nat) (entry : PidEntry) :
    List.lookup other (tracked.map fun item => if item.1 = pid then (pid, entry) else item) =
      if other = pid ∧ pid ∈ tracked.map Prod.fst then some entry else tracked.lookup other := by
  induction tracked with
  | nil => simp
  | cons item rest ih =>
      obtain ⟨key, known⟩ := item
      by_cases same : key = pid
      · subst same
        by_cases asked : other = key
        · simp [asked]
        · simpa [asked, List.lookup_cons, beq_false_of_ne asked] using ih
      · by_cases asked : other = key
        · simp [asked, same]
        · have apart : (other == key) = false := beq_false_of_ne asked
          have listed : pid ∈ key :: rest.map Prod.fst ↔ pid ∈ rest.map Prod.fst := by
            simp [Ne.symm same]
          simpa only [List.map_cons, same, if_false, List.lookup_cons, apart, listed] using ih

theorem lookup_set (tracked : Tracked) (pid other : Nat) (entry : PidEntry) :
    (tracked.set pid entry).lookup other =
      if other = pid then some entry else tracked.lookup other := by
  unfold Tracked.set
  by_cases present : pid ∈ tracked.map Prod.fst
  · simp only [present, if_true, lookup_replace, and_true]
  · rw [if_neg present, List.lookup_append]
    by_cases asked : other = pid
    · have absent : tracked.lookup pid = none := by
        rw [List.lookup_eq_none_iff]
        intro item member
        simp only [bne_iff_ne, ne_eq]
        rintro rfl
        exact present (List.mem_map_of_mem member)
      simp [asked, absent]
    · have apart : (other == pid) = false := beq_false_of_ne asked
      simp [asked, List.lookup_cons, apart]

end Dictionary

section Following

variable {process : DeadProcess}

/-- The heartbeat of the dead process was seen in so many ticks. -/
def DeadProcess.Followed (process : DeadProcess) (tracked : Tracked) : Nat → Prop
  | 0 => ∀ entry, tracked.lookup process.pid = some entry →
      entry.lastWallTimeNs = process.wallNs → entry.createTimeNs = process.createNs
  | count + 1 => ∃ misses, count ≤ misses ∧
      tracked.lookup process.pid = some ⟨process.wallNs, process.createNs, misses⟩

theorem DeadProcess.Followed.less {tracked : Tracked} {count : Nat}
    (followed : process.Followed tracked (count + 1)) : process.Followed tracked count := by
  obtain ⟨misses, enough, known⟩ := followed
  cases count with
  | zero =>
      intro entry present _
      obtain rfl := Option.some.inj (known.symm.trans present)
      rfl
  | succ count => exact ⟨misses, Nat.le_of_succ_le enough, known⟩

theorem DeadProcess.Followed.congr {before after : Tracked} {count : Nat}
    (followed : process.Followed before count)
    (same : after.lookup process.pid = before.lookup process.pid) :
    process.Followed after count := by
  cases count with
  | zero => exact fun entry present => followed entry (same ▸ present)
  | succ count =>
      obtain ⟨misses, enough, known⟩ := followed
      exact ⟨misses, enough, same.trans known⟩

/-- One more tick sees the heartbeat of the dead process. -/
theorem DeadProcess.Followed.observed {tracked : Tracked} {count : Nat}
    (followed : process.Followed tracked count) :
    process.Followed
      (tracked.set process.pid
        (.observe (tracked.lookup process.pid) process.createNs process.wallNs)) (count + 1) := by
  have entered : ∀ entry, (tracked.set process.pid entry).lookup process.pid = some entry := by
    intro entry
    rw [lookup_set, if_pos rfl]
  cases known : tracked.lookup process.pid with
  | none =>
      have fresh : count = 0 := by
        cases count with
        | zero => rfl
        | succ count =>
            obtain ⟨misses, _, present⟩ := followed
            cases known.symm.trans present
      exact ⟨0, fresh.le, entered _⟩
  | some entry =>
      cases count with
      | zero =>
          by_cases silent : entry.lastWallTimeNs = process.wallNs
          · refine ⟨entry.missCount + 1, Nat.zero_le _, ?_⟩
            rw [entered, PidEntry.observe, if_pos silent, ← silent, ← followed entry known silent]
          · refine ⟨0, le_rfl, ?_⟩
            rw [entered, PidEntry.observe, if_neg silent]
      | succ count =>
          obtain ⟨misses, enough, present⟩ := followed
          obtain rfl := Option.some.inj (known.symm.trans present)
          refine ⟨misses + 1, Nat.succ_le_succ enough, ?_⟩
          rw [entered, PidEntry.observe, if_pos rfl]

end Following

section Tracking

variable {process : DeadProcess} {config : WatchdogConfig}

theorem trackHeartbeat_followed (notSelf : process.pid ≠ config.selfPid) {tracked : Tracked}
    {count : Nat} (followed : process.Followed tracked count) (seen : List Nat) :
    process.Followed
      (trackHeartbeat config.selfPid tracked seen process.pid process.heartbeat).1 (count + 1) ∧
    process.pid ∈ (trackHeartbeat config.selfPid tracked seen process.pid process.heartbeat).2 := by
  unfold trackHeartbeat
  rw [DeadProcess.heartbeat, process.parses]
  simp only [notSelf, if_false]
  exact ⟨followed.observed, by simp⟩

theorem trackHeartbeat_other {tracked : Tracked} {seen : List Nat} {pid other : Nat}
    (different : other ≠ pid) (value : List UInt8) :
    (trackHeartbeat config.selfPid tracked seen pid value).1.lookup other = tracked.lookup other := by
  unfold trackHeartbeat
  cases parseHeartbeatValue value with
  | none => rfl
  | some numbers =>
      dsimp only
      split
      · rfl
      · rw [lookup_set, if_neg different]

theorem trackHeartbeat_seen {tracked : Tracked} {seen : List Nat} {pid other : Nat}
    {value : List UInt8} (member : other ∈ seen) :
    other ∈ (trackHeartbeat config.selfPid tracked seen pid value).2 := by
  unfold trackHeartbeat
  cases parseHeartbeatValue value with
  | none => exact member
  | some numbers =>
      dsimp only
      split
      · exact List.mem_append_left _ member
      · exact List.mem_append_left _ member

theorem trackAll_seen {raw : List (Nat × List UInt8)} {tracked : Tracked} {seen : List Nat}
    {malformed other : Nat} (member : other ∈ seen) :
    other ∈ (trackAll config raw tracked seen malformed).2.1 := by
  induction raw generalizing tracked seen malformed with
  | nil => exact member
  | cons item rest ih => exact ih (trackHeartbeat_seen member)

theorem trackAll_keeps (notSelf : process.pid ≠ config.selfPid) {raw : List (Nat × List UInt8)}
    (own : ∀ item ∈ raw, item.1 = process.pid → item.2 = process.heartbeat) {tracked : Tracked}
    {count : Nat} (followed : process.Followed tracked count) (seen : List Nat) (malformed : Nat) :
    process.Followed (trackAll config raw tracked seen malformed).1 count := by
  induction raw generalizing tracked seen malformed with
  | nil => exact followed
  | cons item rest ih =>
      obtain ⟨pid, value⟩ := item
      refine ih (fun other member => own other (List.mem_cons_of_mem _ member)) ?_ _ _
      by_cases same : process.pid = pid
      · obtain rfl : value = process.heartbeat := own (pid, value) List.mem_cons_self same.symm
        exact same ▸ (trackHeartbeat_followed notSelf followed seen).1.less
      · exact followed.congr (trackHeartbeat_other same value)

/-- A tick that reads the heartbeat of the dead process counts it. -/
theorem trackAll_counts (notSelf : process.pid ≠ config.selfPid) {raw : List (Nat × List UInt8)}
    (own : ∀ item ∈ raw, item.1 = process.pid → item.2 = process.heartbeat)
    (read : process.pid ∈ raw.map Prod.fst) {tracked : Tracked} {count : Nat}
    (followed : process.Followed tracked count) (seen : List Nat) (malformed : Nat) :
    process.Followed (trackAll config raw tracked seen malformed).1 (count + 1) ∧
      process.pid ∈ (trackAll config raw tracked seen malformed).2.1 := by
  induction raw generalizing tracked seen malformed with
  | nil => cases read
  | cons item rest ih =>
      obtain ⟨pid, value⟩ := item
      have later : ∀ other ∈ rest, other.1 = process.pid → other.2 = process.heartbeat :=
        fun other member => own other (List.mem_cons_of_mem _ member)
      by_cases same : process.pid = pid
      · obtain rfl : value = process.heartbeat := own (pid, value) List.mem_cons_self same.symm
        obtain ⟨counted, inside⟩ := trackHeartbeat_followed notSelf followed seen
        subst same
        exact ⟨trackAll_keeps notSelf later counted _ _, @trackAll_seen config rest _ _ _ _ inside⟩
      · refine ih later ?_ (followed.congr (trackHeartbeat_other same value)) _ _
        exact (List.mem_cons.mp read).resolve_left same

end Tracking

section Checking

variable {process : DeadProcess} {answers : TickAnswers}

/-- The records of the process id are gone. -/
def DeadProcess.Reclaimed (process : DeadProcess) (keys : RedisKeys (List UInt8)) : Prop :=
  keys.heartbeats process.pid = none ∧ keys.pidSegments process.pid = ∅

/-- The records of the process are gone, or so many ticks saw its last heartbeat. -/
def DeadProcess.Progress (process : DeadProcess) (count : Nat) (tracked : Tracked)
    (keys : RedisKeys (List UInt8)) : Prop :=
  process.Reclaimed keys ∨
    keys.heartbeats process.pid = some process.heartbeat ∧ process.Followed tracked count

/-- The cleanup of another process id leaves the records of the process alone. -/
theorem cleanup_frame (keys : RedisKeys (List UInt8)) {pid other : Nat} (different : other ≠ pid)
    {members : List (List UInt8)} (distinct : members.Nodup) (expected : List UInt8) :
    ((cleanupDeadPidLua members pid expected).run keys).2.heartbeats other = keys.heartbeats other ∧
      ((cleanupDeadPidLua members pid expected).run keys).2.pidSegments other =
        keys.pidSegments other := by
  cases differs : heartbeatDiffers (keys.heartbeats pid) expected with
  | true =>
      rw [cleanupDeadPidLua_abort keys differs]
      exact ⟨rfl, rfl⟩
  | false =>
      obtain ⟨dropped, cleaned⟩ := cleanupDeadPidLua_run keys differs distinct
      rw [cleaned]
      exact ⟨Function.update_of_ne different _ _, Function.update_of_ne different _ _⟩

/-- A cleanup behind its guard leaves no records of its process id. -/
theorem DeadProcess.reclaimed_cleanup {keys : RedisKeys (List UInt8)} {expected : List UInt8}
    {members : List (List UInt8)} (distinct : members.Nodup)
    (same : heartbeatDiffers (keys.heartbeats process.pid) expected = false) :
    process.Reclaimed ((cleanupDeadPidLua members process.pid expected).run keys).2 := by
  obtain ⟨dropped, cleaned⟩ := cleanupDeadPidLua_run keys same distinct
  rw [cleaned]
  exact ⟨Function.update_self _ _ _, Function.update_self _ _ _⟩

/-- The records of a process stay gone behind every cleanup. -/
theorem DeadProcess.Reclaimed.cleanup {keys : RedisKeys (List UInt8)}
    (reclaimed : process.Reclaimed keys) (pid : Nat) (expected : List UInt8)
    {members : List (List UInt8)} (distinct : members.Nodup) :
    process.Reclaimed ((cleanupDeadPidLua members pid expected).run keys).2 := by
  by_cases same : process.pid = pid
  · subst same
    refine DeadProcess.reclaimed_cleanup distinct ?_
    rw [reclaimed.1]
    rfl
  · obtain ⟨heartbeats, segments⟩ := cleanup_frame keys same distinct expected
    exact ⟨heartbeats.trans reclaimed.1, segments.trans reclaimed.2⟩

/-- The cleanup expects the creation time of the last heartbeat. -/
theorem DeadProcess.expected_same (process : DeadProcess) :
    heartbeatDiffers (some process.heartbeat)
      ((strInt (process.createNs : Int)).getD []) = false := by
  have short := (parseHeartbeatValue_create process.parses).2
  have text : strInt (process.createNs : Int) = some (decimal process.createNs) := by
    rw [strInt, Int.natAbs_natCast, if_neg (Nat.not_lt.mpr short), if_neg (by omega)]
  rw [text, Option.getD_some, Bool.eq_false_iff]
  intro differs
  exact (heartbeatDiffers_iff process.createNs process.wallNs _).mp differs rfl

/-- What each cleanup of a tracked process id keeps holds behind the loop of the checks. -/
theorem checkAll_kept {holds : TickState → Prop}
    (counted : ∀ state result, holds state → holds { state with result })
    (pids : List Nat)
    (cleaned : ∀ state, ∀ pid ∈ pids, ∀ entry, state.tracked.lookup pid = some entry → holds state →
      holds (state.cleanup answers pid ((strInt entry.createTimeNs).getD [])).2)
    (state : TickState) (begun : holds state) :
    holds (checkAll answers pids state).2 := by
  induction pids generalizing state with
  | nil => exact begun
  | cons pid rest ih =>
      have ih := ih fun state other member => cleaned state other (List.mem_cons_of_mem _ member)
      rw [checkAll]
      cases known : state.tracked.lookup pid with
      | none => exact ih state begun
      | some entry =>
          dsimp only
          rcases crossCheck (answers.psutil pid) entry.createTimeNs with ⟨dead, unverifiable⟩
          cases unverifiable with
          | some kind => exact ih _ (counted state _ begun)
          | none =>
              cases dead with
              | false => exact ih state begun
              | true =>
                  have behind := cleaned state pid List.mem_cons_self entry known begun
                  dsimp only
                  generalize state.cleanup answers pid ((strInt entry.createTimeNs).getD []) = outcome
                    at behind
                  obtain ⟨returned, after⟩ := outcome
                  cases returned with
                  | error exception => exact behind
                  | ok value => exact ih after behind

/-- A cleanup whose call arrives returns behind its script, and forgets only its process id. -/
theorem TickState.cleanup_replied {pid : Nat} (replied : answers.cleanup pid = .replied)
    (state : TickState) (expected : List UInt8) :
    (state.cleanup answers pid expected).1 = .ok () ∧
      (state.cleanup answers pid expected).2.keys =
        ((cleanupDeadPidLua (answers.members.order (state.keys.pidSegments pid)) pid
          expected).run state.keys).2 ∧
      (state.cleanup answers pid expected).2.linked = state.linked ∧
      ∀ other, other ≠ pid → (state.cleanup answers pid expected).2.tracked.lookup other =
        state.tracked.lookup other := by
  unfold TickState.cleanup
  dsimp only
  generalize (cleanupDeadPidLua (answers.members.order (state.keys.pidSegments pid)) pid expected).run
    state.keys = outcome
  obtain ⟨returned, keys⟩ := outcome
  rw [replied]
  dsimp only
  by_cases negative : returned < 0
  · rw [if_pos negative]
    exact ⟨rfl, rfl, rfl, fun other different => lookup_pop _ different⟩
  · rw [if_neg negative]
    exact ⟨rfl, rfl, rfl, fun other different => lookup_pop _ different⟩

/-- A cleanup in a tick runs its script or leaves the state, and it forgets at most its process id. -/
theorem TickState.cleanup_cases (state : TickState) (pid : Nat) (expected : List UInt8) :
    (state.cleanup answers pid expected).2 = state ∨
      (state.cleanup answers pid expected).2.keys =
        ((cleanupDeadPidLua (answers.members.order (state.keys.pidSegments pid)) pid
          expected).run state.keys).2 ∧
      (state.cleanup answers pid expected).2.linked = state.linked ∧
      ∀ other, other ≠ pid → (state.cleanup answers pid expected).2.tracked.lookup other =
        state.tracked.lookup other := by
  cases fate : answers.cleanup pid with
  | refused =>
      left
      unfold TickState.cleanup
      rw [fate]
      rfl
  | lost =>
      right
      unfold TickState.cleanup
      rw [fate]
      exact ⟨rfl, rfl, fun _ _ => rfl⟩
  | replied => exact .inr (TickState.cleanup_replied fate state expected).2

/-- A cleanup in a tick takes nothing from the progress towards a dead process. -/
theorem DeadProcess.Progress.cleanup {state : TickState} {count : Nat}
    (progress : process.Progress (count + 1) state.tracked state.keys) {pid : Nat} {entry : PidEntry}
    (known : state.tracked.lookup pid = some entry) :
    process.Progress (count + 1)
      (state.cleanup answers pid ((strInt entry.createTimeNs).getD [])).2.tracked
      (state.cleanup answers pid ((strInt entry.createTimeNs).getD [])).2.keys := by
  have distinct := (answers.members.listed (state.keys.pidSegments pid)).distinct
  rcases @TickState.cleanup_cases answers state pid ((strInt entry.createTimeNs).getD []) with
    same | ⟨keys, _, tracked⟩
  · rw [same]
    exact progress
  · rcases progress with reclaimed | ⟨beats, followed⟩
    · left
      rw [keys]
      exact reclaimed.cleanup pid _ distinct
    · by_cases own : process.pid = pid
      · left
        subst own
        obtain ⟨misses, _, present⟩ := followed
        obtain rfl := Option.some.inj (present.symm.trans known)
        rw [keys]
        refine DeadProcess.reclaimed_cleanup distinct ?_
        rw [beats]
        exact process.expected_same
      · right
        refine ⟨?_, followed.congr (tracked process.pid own)⟩
        rw [keys, (cleanup_frame state.keys own distinct _).1, beats]

theorem DeadProcess.Progress.checkAll {count : Nat} (pids : List Nat) (state : TickState)
    (progress : process.Progress (count + 1) state.tracked state.keys) :
    process.Progress (count + 1) (checkAll answers pids state).2.tracked
      (checkAll answers pids state).2.keys :=
  @checkAll_kept answers (fun state => process.Progress (count + 1) state.tracked state.keys)
    (fun _ _ progress => progress) pids (fun _ _ _ _ known progress => progress.cleanup known) state
    progress

theorem DeadProcess.Reclaimed.checkAll (pids : List Nat) (state : TickState)
    (reclaimed : process.Reclaimed state.keys) :
    process.Reclaimed (checkAll answers pids state).2.keys := by
  refine @checkAll_kept answers (fun state => process.Reclaimed state.keys)
    (fun _ _ reclaimed => reclaimed) pids ?_ state reclaimed
  intro state pid _ entry _ reclaimed
  rcases @TickState.cleanup_cases answers state pid ((strInt entry.createTimeNs).getD []) with
    same | ⟨keys, _⟩
  · rw [same]
    exact reclaimed
  · rw [keys]
    exact reclaimed.cleanup pid _ (answers.members.listed (state.keys.pidSegments pid)).distinct

/-- The loop of the checks returns when every cleanup arrives. -/
theorem checkAll_returns (replied : ∀ pid, answers.cleanup pid = .replied) (pids : List Nat)
    (state : TickState) : (checkAll answers pids state).1 = .ok () := by
  induction pids generalizing state with
  | nil => rfl
  | cons pid rest ih =>
      rw [checkAll]
      cases state.tracked.lookup pid with
      | none => exact ih state
      | some entry =>
          dsimp only
          rcases crossCheck (answers.psutil pid) entry.createTimeNs with ⟨dead, unverifiable⟩
          cases unverifiable with
          | some kind => exact ih _
          | none =>
              cases dead with
              | false => exact ih state
              | true =>
                  have returned := (TickState.cleanup_replied (replied pid) state
                    ((strInt entry.createTimeNs).getD [])).1
                  dsimp only
                  generalize state.cleanup answers pid ((strInt entry.createTimeNs).getD []) = outcome
                    at returned
                  obtain ⟨value, after⟩ := outcome
                  subst returned
                  exact ih after

/-- The loop of the checks reclaims a dead process that is ready for it. -/
theorem checkAll_reclaims (replied : ∀ pid, answers.cleanup pid = .replied)
    (gone : crossCheck (answers.psutil process.pid) process.createNs = (true, none)) {count : Nat}
    {pids : List Nat} (ready : process.pid ∈ pids) {state : TickState}
    (progress : process.Progress (count + 1) state.tracked state.keys) :
    process.Reclaimed (checkAll answers pids state).2.keys := by
  induction pids generalizing state with
  | nil => cases ready
  | cons pid rest ih =>
      rcases progress with reclaimed | ⟨beats, followed⟩
      · exact reclaimed.checkAll (pid :: rest) state
      · rw [checkAll]
        by_cases own : process.pid = pid
        · subst own
          obtain ⟨misses, _, known⟩ := followed
          have returned := (TickState.cleanup_replied (replied process.pid) state
            ((strInt (process.createNs : Int)).getD [])).1
          have cleaned : process.Reclaimed (state.cleanup answers process.pid
              ((strInt (process.createNs : Int)).getD [])).2.keys := by
            rw [(TickState.cleanup_replied (replied process.pid) _ _).2.1]
            refine DeadProcess.reclaimed_cleanup
              (answers.members.listed (state.keys.pidSegments process.pid)).distinct ?_
            rw [beats]
            exact process.expected_same
          rw [known]
          dsimp only
          rw [gone]
          dsimp only
          generalize state.cleanup answers process.pid ((strInt (process.createNs : Int)).getD []) =
            outcome at returned cleaned
          obtain ⟨value, after⟩ := outcome
          subst returned
          exact cleaned.checkAll rest after
        · have inside := (List.mem_cons.mp ready).resolve_left own
          have waits : process.Progress (count + 1) state.tracked state.keys :=
            .inr ⟨beats, followed⟩
          cases known : state.tracked.lookup pid with
          | none => exact ih inside waits
          | some entry =>
              dsimp only
              rcases crossCheck (answers.psutil pid) entry.createTimeNs with ⟨dead, unverifiable⟩
              cases unverifiable with
              | some kind => exact ih inside waits
              | none =>
                  cases dead with
                  | false => exact ih inside waits
                  | true =>
                      have returned := (TickState.cleanup_replied (replied pid) state
                        ((strInt entry.createTimeNs).getD [])).1
                      have behind := @DeadProcess.Progress.cleanup process answers state count waits
                        pid entry known
                      dsimp only
                      generalize state.cleanup answers pid ((strInt entry.createTimeNs).getD []) =
                        outcome at returned behind
                      obtain ⟨value, after⟩ := outcome
                      subst returned
                      exact ih inside behind

end Checking

section Ticking

variable {dead : List DeadProcess} {process : DeadProcess} {config : WatchdogConfig}
  {answers : TickAnswers}

/-- The drain leaves the records of the processes and the counts alone. -/
theorem drainCleanupQueue_frame (state : TickState) :
    (drainCleanupQueue config answers state).2.tracked = state.tracked ∧
      (drainCleanupQueue config answers state).2.keys.heartbeats = state.keys.heartbeats ∧
      (drainCleanupQueue config answers state).2.keys.pidSegments = state.keys.pidSegments ∧
      (drainCleanupQueue config answers state).2.keys.refcount = state.keys.refcount := by
  unfold drainCleanupQueue drainCleanupQueueLua
  rw [drainLoop_run]
  cases answers.drain with
  | refused => exact ⟨rfl, rfl, rfl, rfl⟩
  | lost => exact ⟨rfl, rfl, rfl, rfl⟩
  | replied =>
      dsimp only
      generalize unlinkDrained answers.fault _ state.linked 0 = outcome
      obtain ⟨returned, after⟩ := outcome
      cases returned with
      | error exception => exact ⟨rfl, rfl, rfl, rfl⟩
      | ok count => exact ⟨rfl, rfl, rfl, rfl⟩

/-- The pairs that HGETALL returns. -/
def heardHeartbeats (answers : TickAnswers) (keys : RedisKeys (List UInt8)) :
    List (Nat × List UInt8) :=
  (answers.fields keys.heartbeats).filterMap fun pid =>
    (keys.heartbeats pid).map fun value => (pid, value)

theorem heardHeartbeats_value {keys : RedisKeys (List UInt8)} {item : Nat × List UInt8}
    (heard : item ∈ heardHeartbeats answers keys) : keys.heartbeats item.1 = some item.2 := by
  obtain ⟨pid, _, shape⟩ := List.mem_filterMap.mp heard
  obtain ⟨value, present, rfl⟩ := Option.map_eq_some_iff.mp shape
  exact present

theorem heardHeartbeats_present (attests : answers.Attests dead) (member : process ∈ dead)
    {keys : RedisKeys (List UInt8)} {value : List UInt8}
    (present : keys.heartbeats process.pid = some value) :
    process.pid ∈ (heardHeartbeats answers keys).map Prod.fst := by
  refine List.mem_map.mpr ⟨(process.pid, value), List.mem_filterMap.mpr ⟨process.pid, ?_, ?_⟩, rfl⟩
  · exact attests.fields _ process member (by rw [present]; rfl)
  · rw [present]
    rfl

/-- The steps in front of the drain keep the progress, and a heard heartbeat adds to it. -/
theorem beforeDrain_progress (attests : answers.Attests dead) (member : process ∈ dead)
    (notSelf : process.pid ≠ config.selfPid) {count : Nat} {state : TickState}
    (progress : process.Progress count state.tracked state.keys) :
    process.Progress (if answers.hears then count + 1 else count)
        (beforeDrain config answers state).2.tracked (beforeDrain config answers state).2.keys ∧
      ∀ seen, (beforeDrain config answers state).1 = .ok seen →
        process.Reclaimed (beforeDrain config answers state).2.keys ∨ process.pid ∈ seen := by
  unfold beforeDrain
  cases fate : answers.hgetall with
  | refused => exact ⟨by simpa [TickAnswers.hears, fate] using progress, fun _ impossible => by cases impossible⟩
  | lost => exact ⟨by simpa [TickAnswers.hears, fate] using progress, fun _ impossible => by cases impossible⟩
  | replied =>
      have heard : answers.hears = true := by simp [TickAnswers.hears, fate]
      rw [heard, if_pos rfl]
      have tracks : process.Reclaimed state.keys ∨ process.pid ∈
            (trackAll config (heardHeartbeats answers state.keys) state.tracked [] 0).2.1 ∧
          process.Progress (count + 1)
            (trackAll config (heardHeartbeats answers state.keys) state.tracked [] 0).1
            state.keys := by
        rcases progress with reclaimed | ⟨beats, followed⟩
        · exact .inl reclaimed
        · right
          have own : ∀ item ∈ heardHeartbeats answers state.keys, item.1 = process.pid →
              item.2 = process.heartbeat := by
            intro item heard same
            have value := heardHeartbeats_value heard
            rw [same, beats] at value
            exact (Option.some.inj value).symm
          obtain ⟨counted, seen⟩ := trackAll_counts notSelf own (heardHeartbeats_present attests member beats)
            followed [] 0
          exact ⟨seen, .inr ⟨beats, counted⟩⟩
      dsimp only
      rw [← heardHeartbeats]
      generalize trackAll config (heardHeartbeats answers state.keys) state.tracked [] 0 = heartbeats
        at tracks
      obtain ⟨tracked, seen, malformed⟩ := heartbeats
      have behind : process.Progress (count + 1) tracked state.keys :=
        tracks.elim .inl And.right
      have checked := @DeadProcess.Progress.checkAll process answers count
        (readyForCheck config.missThreshold tracked)
        { state with tracked, result := { state.result with malformedCount := malformed } } behind
      have kept := @DeadProcess.Reclaimed.checkAll process answers
        (readyForCheck config.missThreshold tracked)
        { state with tracked, result := { state.result with malformedCount := malformed } }
      dsimp only at kept ⊢
      generalize checkAll answers (readyForCheck config.missThreshold tracked)
        { state with tracked, result := { state.result with malformedCount := malformed } } = outcome
        at checked kept
      obtain ⟨returned, after⟩ := outcome
      cases returned with
      | error exception => exact ⟨checked, fun _ impossible => by cases impossible⟩
      | ok value =>
          refine ⟨checked, ?_⟩
          rintro given ⟨⟩
          exact tracks.imp kept And.left

/-- A tick keeps the progress towards a dead process, and one that hears its heartbeat adds to it. -/
theorem turn_progress (attests : answers.Attests dead) (member : process ∈ dead)
    (notSelf : process.pid ≠ config.selfPid) {count : Nat} {state : WatchdogState}
    (progress : process.Progress count state.tracked state.keys) :
    process.Progress (if answers.hears then count + 1 else count)
      (state.turn config answers).tracked (state.turn config answers).keys := by
  obtain ⟨before, seen⟩ := @beforeDrain_progress dead process config answers attests member notSelf count
    ⟨state.tracked, state.keys, state.linked, .empty, []⟩ progress
  unfold WatchdogState.turn runOneTick
  generalize beforeDrain config answers ⟨state.tracked, state.keys, state.linked, .empty, []⟩ = reached
    at before seen
  obtain ⟨returned, middle⟩ := reached
  cases returned with
  | error exception => exact before
  | ok heard =>
      obtain ⟨tracked, heartbeats, segments, _⟩ :=
        @drainCleanupQueue_frame config answers middle
      dsimp only
      generalize drainCleanupQueue config answers middle = outcome at tracked heartbeats segments
      obtain ⟨value, after⟩ := outcome
      have kept : process.Reclaimed middle.keys → process.Reclaimed after.keys := by
        unfold DeadProcess.Reclaimed
        rw [heartbeats, segments]
        exact id
      cases value with
      | error exception =>
          rcases before with reclaimed | ⟨beats, followed⟩
          · exact .inl (kept reclaimed)
          · exact .inr ⟨(congrFun heartbeats _).trans beats, tracked ▸ followed⟩
      | ok drained =>
          rcases before with reclaimed | ⟨beats, followed⟩
          · exact .inl (kept reclaimed)
          · rcases seen heard rfl with reclaimed | inside
            · exact .inl (kept reclaimed)
            · refine .inr ⟨(congrFun heartbeats _).trans beats, followed.congr ?_⟩
              rw [lookup_prune, if_pos inside, tracked]

/-- The steps in front of the drain leave the records of a reclaimed process gone. -/
theorem beforeDrain_reclaimed {state : TickState} (reclaimed : process.Reclaimed state.keys) :
    process.Reclaimed (beforeDrain config answers state).2.keys := by
  unfold beforeDrain
  cases answers.hgetall with
  | refused => exact reclaimed
  | lost => exact reclaimed
  | replied =>
      dsimp only
      generalize trackAll config _ state.tracked [] 0 = heartbeats
      obtain ⟨tracked, seen, malformed⟩ := heartbeats
      have checked := @DeadProcess.Reclaimed.checkAll process answers
        (readyForCheck config.missThreshold tracked)
        { state with tracked, result := { state.result with malformedCount := malformed } } reclaimed
      dsimp only
      generalize checkAll answers (readyForCheck config.missThreshold tracked)
        { state with tracked, result := { state.result with malformedCount := malformed } } = outcome
        at checked
      obtain ⟨returned, after⟩ := outcome
      cases returned with
      | error exception => exact checked
      | ok value => exact checked

/-- A tick leaves the records gone that are gone in front of its drain. -/
theorem turn_reclaimed {state : WatchdogState}
    (before : process.Reclaimed
      (beforeDrain config answers ⟨state.tracked, state.keys, state.linked, .empty, []⟩).2.keys) :
    process.Reclaimed (state.turn config answers).keys := by
  unfold WatchdogState.turn runOneTick
  generalize beforeDrain config answers ⟨state.tracked, state.keys, state.linked, .empty, []⟩ = reached
    at before
  obtain ⟨returned, middle⟩ := reached
  cases returned with
  | error exception => exact before
  | ok heard =>
      obtain ⟨_, heartbeats, segments, _⟩ := @drainCleanupQueue_frame config answers middle
      have behind : process.Reclaimed (drainCleanupQueue config answers middle).2.keys := by
        unfold DeadProcess.Reclaimed
        rw [heartbeats, segments]
        exact before
      dsimp only
      generalize drainCleanupQueue config answers middle = outcome at behind
      obtain ⟨value, after⟩ := outcome
      cases value with
      | error exception => exact behind
      | ok drained => exact behind

/-- The steps of a tick that arrive reclaim a dead process that enough ticks saw. -/
theorem beforeDrain_reclaims (attests : answers.Attests dead) (reaches : answers.Reaches)
    (member : process ∈ dead) (notSelf : process.pid ≠ config.selfPid) {count : Nat}
    (enough : config.missThreshold ≤ count) {state : TickState}
    (progress : process.Progress count state.tracked state.keys) :
    process.Reclaimed (beforeDrain config answers state).2.keys := by
  rcases progress with reclaimed | ⟨beats, followed⟩
  · exact beforeDrain_reclaimed reclaimed
  · unfold beforeDrain
    rw [reaches.hgetall]
    have own : ∀ item ∈ heardHeartbeats answers state.keys, item.1 = process.pid →
        item.2 = process.heartbeat := by
      intro item heard same
      have value := heardHeartbeats_value heard
      rw [same, beats] at value
      exact (Option.some.inj value).symm
    have counted := (trackAll_counts notSelf own (heardHeartbeats_present attests member beats) followed [] 0).1
    dsimp only
    rw [← heardHeartbeats]
    generalize trackAll config (heardHeartbeats answers state.keys) state.tracked [] 0 = heartbeats
      at counted
    obtain ⟨tracked, seen, malformed⟩ := heartbeats
    have ready : process.pid ∈ readyForCheck config.missThreshold tracked := by
      obtain ⟨misses, missed, known⟩ := counted
      obtain ⟨first, last, split, _⟩ := List.lookup_eq_some_iff.mp known
      refine List.mem_map.mpr ⟨(process.pid, ⟨process.wallNs, process.createNs, misses⟩), ?_, rfl⟩
      refine List.mem_filter.mpr ⟨?_, decide_eq_true (enough.trans missed)⟩
      rw [show tracked = _ from split]
      exact List.mem_append_right _ List.mem_cons_self
    have checked := @checkAll_reclaims process answers reaches.cleanup (attests.psutil process member)
      count _ ready
      { state with tracked, result := { state.result with malformedCount := malformed } }
      (.inr ⟨beats, counted⟩)
    dsimp only
    generalize checkAll answers (readyForCheck config.missThreshold tracked)
      { state with tracked, result := { state.result with malformedCount := malformed } } = outcome
      at checked
    obtain ⟨returned, after⟩ := outcome
    cases returned with
    | error exception => exact checked
    | ok value => exact checked

end Ticking

section Runs

variable {dead : List DeadProcess} {allowed : List UInt8 → Prop} {process : DeadProcess}
  {config : WatchdogConfig} {start before state : WatchdogState} {ticks later : List TickAnswers}
  {good : TickAnswers}

/-- The steps of others leave the records of a dead process alone, or reclaim it. -/
theorem OtherStep.records {before after : WatchdogState} (step : OtherStep dead allowed before after)
    (member : process ∈ dead) :
    after.tracked = before.tracked ∧
      (process.Reclaimed before.keys → process.Reclaimed after.keys) ∧
      (after.keys.heartbeats process.pid = before.keys.heartbeats process.pid ∨
        process.Reclaimed after.keys) := by
  cases step with
  | heartbeat pid other text =>
      have same := Function.update_of_ne (other process member) text before.keys.heartbeats
      exact ⟨rfl, fun reclaimed => ⟨same.trans reclaimed.1, reclaimed.2⟩, .inl same⟩
  | opens pid other name free =>
      have same := Function.update_of_ne (other process member)
        (Insert.insert name (before.keys.pidSegments pid)) before.keys.pidSegments
      exact ⟨rfl, fun reclaimed => ⟨reclaimed.1, same.trans reclaimed.2⟩, .inl rfl⟩
  | creates pid other schema name setCurrent free =>
      have same := Function.update_of_ne (other process member)
        (Insert.insert name (before.keys.pidSegments pid)) before.keys.pidSegments
      exact ⟨rfl, fun reclaimed => ⟨reclaimed.1, same.trans reclaimed.2⟩, .inl rfl⟩
  | closes pid other name free =>
      rw [closeLua_run]
      have same := Function.update_of_ne (other process member)
        ((before.keys.pidSegments pid).erase name) before.keys.pidSegments
      exact ⟨rfl, fun reclaimed => ⟨reclaimed.1, same.trans reclaimed.2⟩, .inl rfl⟩
  | repoints schema name => exact ⟨rfl, id, .inl rfl⟩
  | unlinks name => exact ⟨rfl, id, .inl rfl⟩
  | cleanup pid expected members listed =>
      refine ⟨rfl, fun reclaimed => reclaimed.cleanup pid expected listed.distinct, ?_⟩
      by_cases own : process.pid = pid
      · subst own
        cases differs : heartbeatDiffers (before.keys.heartbeats process.pid) expected with
        | true =>
            left
            rw [cleanupDeadPidLua_abort before.keys differs]
        | false => exact .inr (DeadProcess.reclaimed_cleanup listed.distinct differs)
      · exact .inl (cleanup_frame before.keys own listed.distinct expected).1
  | pops maxDrain members listed free =>
      rw [drainCleanupQueueLua, drainLoop_run]
      exact ⟨rfl, id, .inl rfl⟩

/-- Behind every run the heard ticks count towards each dead process. -/
theorem ForeverRun.progress (run : ForeverRun dead allowed config start ticks state)
    (attests : ∀ answers ∈ ticks, answers.Attests dead) (member : process ∈ dead)
    (notSelf : process.pid ≠ config.selfPid) (begun : process.Progress 0 start.tracked start.keys) :
    process.Progress (ticks.countP TickAnswers.hears) state.tracked state.keys := by
  refine run.counted TickAnswers.hears
    (fun count state => process.Progress count state.tracked state.keys) begun ?_ ?_
  · intro answers inside count state progress
    exact turn_progress (attests answers inside) member notSelf progress
  · intro count state next step progress
    obtain ⟨tracked, kept, heartbeats⟩ := step.records member
    rcases progress with reclaimed | ⟨beats, followed⟩
    · exact .inl (kept reclaimed)
    · rcases heartbeats with same | reclaimed
      · exact .inr ⟨same.trans beats, tracked ▸ followed⟩
      · exact .inl reclaimed

/-- Behind every run a reclaimed process stays so. -/
theorem ForeverRun.reclaimed (run : ForeverRun dead allowed config start ticks state)
    (member : process ∈ dead) (begun : process.Reclaimed start.keys) :
    process.Reclaimed state.keys :=
  run.kept (fun state => process.Reclaimed state.keys) begun
    (fun _ _ _ reclaimed => turn_reclaimed (beforeDrain_reclaimed reclaimed))
    (fun _ _ step => (step.records member).2.1)

/-- A dead process is reclaimed by the first tick behind enough heard ones, and it stays so. -/
theorem dead_reclaimed (run : ForeverRun dead allowed config start ticks before)
    (attests : ∀ answers ∈ ticks, answers.Attests dead) (notSelf : OtherPid dead config.selfPid)
    (begun : ∀ process ∈ dead, start.keys.heartbeats process.pid = some process.heartbeat ∧
      process.Followed start.tracked 0)
    (enough : config.missThreshold ≤ ticks.countP TickAnswers.hears)
    (confirms : good.Attests dead) (reaches : good.Reaches)
    (rest : ForeverRun dead allowed config (before.turn config good) later state) :
    ∀ process ∈ dead, state.keys.heartbeats process.pid = none ∧
      state.keys.pidSegments process.pid = ∅ := by
  intro process member
  have progress := run.progress attests member (notSelf process member) (.inr (begun process member))
  have reclaimed := @beforeDrain_reclaims dead process config good confirms reaches member
    (notSelf process member) _ enough ⟨before.tracked, before.keys, before.linked, .empty, []⟩ progress
  exact rest.reclaimed member (turn_reclaimed reclaimed)

end Runs

/-- The name of a segment whose only holder died. -/
def sampleLeak : List UInt8 := encodeUtf8 "quorin"

/-- The order in which the sample registry answers the members of its sets. -/
noncomputable def sampleSetOrder : SetOrder where
  order := fun names =>
    if names = ∅ then [] else if names = {sampleLeak} then [sampleLeak] else names.toList
  listed := by
    intro names
    split
    next empty => exact ⟨List.nodup_nil, empty.symm⟩
    next =>
      split
      next single => exact ⟨List.nodup_singleton _, single.symm⟩
      next => exact ⟨names.nodup_toList, names.toList_toFinset⟩

/-- A tick in which every call arrives and psutil does not find the process id 7. -/
noncomputable def sampleArriving : TickAnswers where
  hgetall := .replied
  fields := fun _ => [7]
  psutil := fun _ => .noSuchProcess
  cleanup := fun _ => .replied
  members := sampleSetOrder
  drain := .replied
  popped := sampleSetOrder
  fault := fun _ => none

/-- A tick whose drain fails. -/
noncomputable def sampleInterrupted : TickAnswers := { sampleArriving with drain := .refused }

/-- The process id 7 died behind the heartbeat of the time 9. -/
def sampleDead : DeadProcess := ⟨7, 5, 9, by decide⟩

/-- The dead process holds a segment alone. -/
def sampleLeft : WatchdogState where
  tracked := []
  keys :=
    { current := fun _ => none
      refcount := fun name => if name = sampleLeak then some 1 else none
      pidSegments := fun pid => if pid = 7 then {sampleLeak} else ∅
      cleanupQueue := ∅
      segmentToSchema := fun _ => none
      heartbeats := fun pid => if pid = 7 then some sampleDead.heartbeat else none }
  linked := {sampleLeak}

theorem sampleLeft_followed : ∀ process ∈ [sampleDead],
    sampleLeft.keys.heartbeats process.pid = some process.heartbeat ∧
      process.Followed sampleLeft.tracked 0 := by
  intro process member
  obtain rfl := List.mem_singleton.mp member
  refine ⟨rfl, ?_⟩
  intro entry impossible
  cases impossible

theorem sampleArriving_attests : sampleArriving.Attests [sampleDead] where
  fields := by
    intro heartbeats process member _
    obtain rfl := List.mem_singleton.mp member
    exact List.mem_cons_self
  psutil := fun _ _ => rfl

/-- The second tick of the sample watchdog reclaims the dead process although the first one failed. -/
theorem dead_reclaimed_sample :
    ((sampleLeft.turn ⟨1, 1, 64⟩ sampleInterrupted).turn ⟨1, 1, 64⟩ sampleArriving).keys.heartbeats
        sampleDead.pid = none ∧
      ((sampleLeft.turn ⟨1, 1, 64⟩ sampleInterrupted).turn ⟨1, 1, 64⟩ sampleArriving).keys.pidSegments
        sampleDead.pid = ∅ := by
  have attests : ∀ answers ∈ [sampleInterrupted], answers.Attests [sampleDead] := by
    intro answers member
    obtain rfl := List.mem_singleton.mp member
    exact ⟨sampleArriving_attests.fields, sampleArriving_attests.psutil⟩
  have apart : OtherPid [sampleDead] 1 := by
    intro process member
    obtain rfl := List.mem_singleton.mp member
    decide
  have run : ForeverRun [sampleDead] (fun _ => True) ⟨1, 1, 64⟩ sampleLeft [sampleInterrupted]
      (sampleLeft.turn ⟨1, 1, 64⟩ sampleInterrupted) := RoundRun.round .start sampleInterrupted
  exact dead_reclaimed run attests apart sampleLeft_followed (by decide) sampleArriving_attests
    ⟨rfl, fun _ => rfl⟩ .start sampleDead List.mem_cons_self

end Quorin
