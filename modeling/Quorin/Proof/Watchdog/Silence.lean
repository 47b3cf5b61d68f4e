import Quorin.Proof.Watchdog.Reclaim

namespace Quorin

/-- The last reads are all one wall time. -/
def Repeats (reads : List Int) (count : Nat) (wallNs : Int) : Prop :=
  reads.take count = List.replicate count wallNs

theorem Repeats.again {reads : List Int} {count : Nat} {wallNs : Int}
    (repeats : Repeats reads count wallNs) : Repeats (wallNs :: reads) (count + 1) wallNs := by
  rw [Repeats, List.take_succ_cons, List.replicate_succ, show reads.take count = _ from repeats]

theorem Repeats.less {reads : List Int} {count fewer : Nat} {wallNs : Int}
    (repeats : Repeats reads count wallNs) (small : fewer ≤ count) : Repeats reads fewer wallNs := by
  have taken := congrArg (List.take fewer) (show reads.take count = _ from repeats)
  rw [List.take_take, List.take_replicate, Nat.min_eq_left small] at taken
  exact taken

/-- Every entry of a process id counts reads of one wall time, and a watchdog has none for itself. -/
def TracksReads (config : WatchdogConfig) (pid : Nat) (tracked : Tracked) (reads : List Int) : Prop :=
  ∀ entry, (pid, entry) ∈ tracked →
    pid ≠ config.selfPid ∧ Repeats reads (entry.missCount + 1) entry.lastWallTimeNs

/-- A tick leaves the records of a process id where they are. -/
structure Spares (pid : Nat) (before after : RedisKeys (List UInt8)) : Prop where
  heartbeat : after.heartbeats pid = before.heartbeats pid
  segments : after.pidSegments pid = before.pidSegments pid

section Tracking

variable {config : WatchdogConfig} {pid : Nat} {tracked : Tracked} {reads : List Int}

theorem set_mem {other : Nat} {new entry : PidEntry} (member : (pid, entry) ∈ tracked.set other new) :
    pid = other ∧ entry = new ∨ pid ≠ other ∧ (pid, entry) ∈ tracked := by
  unfold Tracked.set at member
  split at member
  · obtain ⟨item, inside, same⟩ := List.mem_map.mp member
    by_cases own : item.1 = other
    · rw [if_pos own] at same
      obtain ⟨rfl, rfl⟩ := Prod.mk.inj same
      exact .inl ⟨rfl, rfl⟩
    · rw [if_neg own] at same
      subst same
      exact .inr ⟨own, inside⟩
  · rename_i absent
    rcases List.mem_append.mp member with old | new
    · refine .inr ⟨?_, old⟩
      rintro rfl
      exact absent (List.mem_map_of_mem old)
    · obtain ⟨rfl, rfl⟩ := Prod.mk.inj (List.mem_singleton.mp new)
      exact .inl ⟨rfl, rfl⟩

theorem trackHeartbeat_mem {other : Nat} (different : pid ≠ other) {seen : List Nat}
    {value : List UInt8} {entry : PidEntry}
    (member : (pid, entry) ∈ (trackHeartbeat config.selfPid tracked seen other value).1) :
    (pid, entry) ∈ tracked := by
  unfold trackHeartbeat at member
  cases parsed : parseHeartbeatValue value with
  | none =>
      rw [parsed] at member
      exact member
  | some numbers =>
      rw [parsed] at member
      dsimp only at member
      split at member
      · exact member
      · exact ((set_mem member).resolve_left fun same => different same.1).2

theorem trackAll_mem {raw : List (Nat × List UInt8)} (absent : pid ∉ raw.map Prod.fst)
    {seen : List Nat} {malformed : Nat} {entry : PidEntry}
    (member : (pid, entry) ∈ (trackAll config raw tracked seen malformed).1) :
    (pid, entry) ∈ tracked := by
  induction raw generalizing tracked seen malformed with
  | nil => exact member
  | cons item rest ih =>
      exact trackHeartbeat_mem (List.ne_of_not_mem_cons absent)
        (ih (List.not_mem_of_not_mem_cons absent) member)

theorem TracksReads.shrink {after : Tracked} (held : TracksReads config pid tracked reads)
    (kept : ∀ entry, (pid, entry) ∈ after → (pid, entry) ∈ tracked) :
    TracksReads config pid after reads :=
  fun entry member => held entry (kept entry member)

/-- A heartbeat that is read is counted when it repeats the last one. -/
theorem TracksReads.trackHeartbeat (held : TracksReads config pid tracked reads) (seen : List Nat)
    (value : List UInt8) :
    TracksReads config pid (trackHeartbeat config.selfPid tracked seen pid value).1
      (((parseHeartbeatValue value).map Prod.snd).toList ++ reads) := by
  unfold Quorin.trackHeartbeat
  cases parseHeartbeatValue value with
  | none => exact held
  | some numbers =>
      dsimp only
      split
      · rename_i own
        exact fun entry member => absurd own (held entry member).1
      · rename_i other
        intro entry member
        refine ⟨other, ?_⟩
        rcases set_mem member with ⟨_, rfl⟩ | ⟨different, _⟩
        · change Repeats (numbers.2 :: reads) _ _
          cases known : tracked.lookup pid with
          | none => rfl
          | some older =>
              unfold PidEntry.observe
              dsimp only
              split
              · rename_i silent
                obtain ⟨first, last, split, _⟩ := List.lookup_eq_some_iff.mp known
                have listed : (pid, older) ∈ tracked := by
                  rw [show tracked = _ from split]
                  exact List.mem_append_right _ List.mem_cons_self
                exact silent ▸ (held older listed).2.again
              · rfl
        · exact absurd rfl different

/-- The loop over the heartbeats counts what it reads of a process id. -/
theorem TracksReads.trackAll (held : TracksReads config pid tracked reads)
    {raw : List (Nat × List UInt8)} (distinct : (raw.map Prod.fst).Nodup) (seen : List Nat)
    (malformed : Nat) :
    TracksReads config pid (trackAll config raw tracked seen malformed).1
      ((((raw.lookup pid).bind parseHeartbeatValue).map Prod.snd).toList ++ reads) := by
  induction raw generalizing tracked seen malformed with
  | nil => exact held
  | cons item rest ih =>
      obtain ⟨other, value⟩ := item
      obtain ⟨absent, later⟩ := List.nodup_cons.mp distinct
      by_cases same : pid = other
      · subst same
        rw [List.lookup_cons, beq_self_eq_true]
        exact (held.trackHeartbeat seen value).shrink fun entry member => trackAll_mem absent member
      · have apart : (pid == other) = false := beq_false_of_ne same
        rw [List.lookup_cons, apart]
        exact ih (held.shrink fun entry member => trackHeartbeat_mem same member) later _ _

end Tracking

section Ticking

variable {config : WatchdogConfig} {answers : TickAnswers} {pid : Nat} {reads : List Int}

theorem Spares.refl (keys : RedisKeys (List UInt8)) : Spares pid keys keys := ⟨rfl, rfl⟩

theorem Spares.trans {first second third : RedisKeys (List UInt8)} (before : Spares pid first second)
    (after : Spares pid second third) : Spares pid first third :=
  ⟨after.heartbeat.trans before.heartbeat, after.segments.trans before.segments⟩

/-- A cleanup in a tick spares every other process id. -/
theorem TickState.cleanup_spares (state : TickState) {other : Nat} (different : pid ≠ other)
    (expected : List UInt8) :
    Spares pid state.keys (state.cleanup answers other expected).2.keys := by
  rcases @TickState.cleanup_cases answers state other expected with same | ⟨keys, _⟩
  · rw [same]
    exact .refl _
  · obtain ⟨heartbeats, segments⟩ := cleanup_frame state.keys different
      (answers.members.listed (state.keys.pidSegments other)).distinct expected
    rw [keys]
    exact ⟨heartbeats, segments⟩

/-- A cleanup in a tick adds no entry. -/
theorem TickState.cleanup_tracked (state : TickState) (other : Nat) (expected : List UInt8) :
    (state.cleanup answers other expected).2.tracked ⊆ state.tracked := by
  have popped : state.tracked.pop other ⊆ state.tracked := List.filter_sublist.subset
  unfold TickState.cleanup
  dsimp only
  generalize (cleanupDeadPidLua (answers.members.order (state.keys.pidSegments other)) other
    expected).run state.keys = outcome
  obtain ⟨returned, keys⟩ := outcome
  cases answers.cleanup other with
  | refused => exact List.Subset.refl _
  | lost => exact List.Subset.refl _
  | replied =>
      dsimp only
      split
      · exact popped
      · exact popped

theorem checkAll_spares {pids : List Nat} (absent : pid ∉ pids) (state : TickState) :
    Spares pid state.keys (checkAll answers pids state).2.keys := by
  refine @checkAll_kept answers (fun after => Spares pid state.keys after.keys)
    (fun _ _ spares => spares) pids ?_ state (.refl _)
  intro before other member entry _ spares
  refine spares.trans (TickState.cleanup_spares before ?_ _)
  rintro rfl
  exact absent member

theorem checkAll_tracked (pids : List Nat) (state : TickState) :
    (checkAll answers pids state).2.tracked ⊆ state.tracked :=
  @checkAll_kept answers (fun after => after.tracked ⊆ state.tracked) (fun _ _ kept => kept) pids
    (fun before other _ _ _ kept =>
      List.Subset.trans (TickState.cleanup_tracked before other _) kept)
    state (List.Subset.refl _)

/-- A process id that is ready for the cross-check was read often enough with one wall time. -/
theorem TracksReads.ready {tracked : Tracked} (held : TracksReads config pid tracked reads)
    (ready : pid ∈ readyForCheck config.missThreshold tracked) :
    ∃ wallNs, Repeats reads (config.missThreshold + 1) wallNs := by
  obtain ⟨⟨own, entry⟩, listed, rfl⟩ := List.mem_map.mp ready
  obtain ⟨member, missed⟩ := List.mem_filter.mp listed
  have enough : config.missThreshold ≤ entry.missCount := of_decide_eq_true missed
  exact ⟨entry.lastWallTimeNs, (held entry member).2.less (Nat.succ_le_succ enough)⟩

/-- HGETALL names a process id at most once. -/
def TickAnswers.Distinct (answers : TickAnswers) : Prop :=
  ∀ heartbeats, (answers.fields heartbeats).Nodup

theorem heardHeartbeats_lookup (keys : RedisKeys (List UInt8)) :
    (heardHeartbeats answers keys).lookup pid =
      if pid ∈ answers.fields keys.heartbeats then keys.heartbeats pid else none := by
  unfold heardHeartbeats
  generalize answers.fields keys.heartbeats = pids
  induction pids with
  | nil => rfl
  | cons other rest ih =>
      by_cases same : pid = other
      · subst same
        cases value : keys.heartbeats pid with
        | none =>
            rw [List.filterMap_cons_none (by rw [value]; rfl), ih, value]
            simp
        | some text =>
            rw [List.filterMap_cons_some (by rw [value]; rfl)]
            simp
      · have apart : (pid == other) = false := beq_false_of_ne same
        cases value : keys.heartbeats other with
        | none =>
            rw [List.filterMap_cons_none (by rw [value]; rfl), ih]
            simp [same]
        | some text =>
            rw [List.filterMap_cons_some (by rw [value]; rfl), List.lookup_cons, apart, ih]
            simp [same]

theorem heardHeartbeats_distinct (distinct : answers.Distinct) (keys : RedisKeys (List UInt8)) :
    ((heardHeartbeats answers keys).map Prod.fst).Nodup := by
  refine (distinct keys.heartbeats).sublist ?_
  unfold heardHeartbeats
  generalize answers.fields keys.heartbeats = pids
  induction pids with
  | nil => exact List.Sublist.refl _
  | cons other rest ih =>
      cases value : keys.heartbeats other with
      | none =>
          rw [List.filterMap_cons_none (by rw [value]; rfl)]
          exact ih.cons _
      | some text =>
          rw [List.filterMap_cons_some (by rw [value]; rfl)]
          exact ih.cons_cons _

/-- The steps in front of the drain count what they read, and reclaim only a process id whose reads
repeat. -/
theorem beforeDrain_reads (distinct : answers.Distinct) {state : TickState}
    (held : TracksReads config pid state.tracked reads) :
    let after := (answers.wallRead state.keys.heartbeats pid).toList ++ reads
    TracksReads config pid (beforeDrain config answers state).2.tracked after ∧
      (Spares pid state.keys (beforeDrain config answers state).2.keys ∨
        pid ≠ config.selfPid ∧ ∃ wallNs, Repeats after (config.missThreshold + 1) wallNs) := by
  intro after
  unfold beforeDrain
  cases heard : answers.hgetall with
  | refused =>
      have silent : after = reads := by
        simp [after, TickAnswers.wallRead, heard]
      exact ⟨silent ▸ held, .inl (.refl _)⟩
  | lost =>
      have silent : after = reads := by
        simp [after, TickAnswers.wallRead, heard]
      exact ⟨silent ▸ held, .inl (.refl _)⟩
  | replied =>
      have read : after = (((((heardHeartbeats answers state.keys).lookup pid).bind
          parseHeartbeatValue).map Prod.snd).toList ++ reads) := by
        simp only [after, TickAnswers.wallRead, heard, true_and, heardHeartbeats_lookup]
        split
        · rfl
        · rfl
      have counted := held.trackAll (heardHeartbeats_distinct distinct state.keys) [] 0
      rw [← read] at counted
      dsimp only
      rw [← heardHeartbeats]
      generalize trackAll config (heardHeartbeats answers state.keys) state.tracked [] 0 = heartbeats
        at counted
      obtain ⟨tracked, seen, malformed⟩ := heartbeats
      have checked := @checkAll_tracked answers (readyForCheck config.missThreshold tracked)
        { state with tracked, result := { state.result with malformedCount := malformed } }
      have spared : pid ∉ readyForCheck config.missThreshold tracked →
          Spares pid state.keys (checkAll answers (readyForCheck config.missThreshold tracked)
            { state with tracked, result := { state.result with malformedCount := malformed } }).2.keys :=
        fun absent => @checkAll_spares answers pid _ absent { state with
          tracked, result := { state.result with malformedCount := malformed } }
      dsimp only
      generalize checkAll answers (readyForCheck config.missThreshold tracked)
        { state with tracked, result := { state.result with malformedCount := malformed } } = outcome
        at checked spared
      obtain ⟨returned, middle⟩ := outcome
      have tracks : TracksReads config pid middle.tracked after :=
        counted.shrink fun entry member => checked member
      have spares : Spares pid state.keys middle.keys ∨
          pid ≠ config.selfPid ∧ ∃ wallNs, Repeats after (config.missThreshold + 1) wallNs := by
        by_cases ready : pid ∈ readyForCheck config.missThreshold tracked
        · obtain ⟨item, listed, rfl⟩ := List.mem_map.mp ready
          exact .inr ⟨(counted item.2 (List.mem_of_mem_filter listed)).1, counted.ready ready⟩
        · exact .inl (spared ready)
      cases returned with
      | error exception => exact ⟨tracks, spares⟩
      | ok value => exact ⟨tracks, spares⟩

/-- A tick counts what it reads, and reclaims only a process id whose reads repeat. -/
theorem turn_reads (distinct : answers.Distinct) {state : WatchdogState}
    (held : TracksReads config pid state.tracked reads) :
    let after := (answers.wallRead state.keys.heartbeats pid).toList ++ reads
    TracksReads config pid (state.turn config answers).tracked after ∧
      (Spares pid state.keys (state.turn config answers).keys ∨
        pid ≠ config.selfPid ∧ ∃ wallNs, Repeats after (config.missThreshold + 1) wallNs) := by
  intro after
  obtain ⟨tracks, spares⟩ := @beforeDrain_reads config answers pid reads distinct
    ⟨state.tracked, state.keys, state.linked, .empty, []⟩ held
  unfold WatchdogState.turn runOneTick
  generalize beforeDrain config answers ⟨state.tracked, state.keys, state.linked, .empty, []⟩ = reached
    at tracks spares
  obtain ⟨returned, middle⟩ := reached
  cases returned with
  | error exception => exact ⟨tracks, spares⟩
  | ok seen =>
      obtain ⟨same, heartbeats, segments, _⟩ := @drainCleanupQueue_frame config answers middle
      dsimp only
      generalize drainCleanupQueue config answers middle = outcome at same heartbeats segments
      obtain ⟨value, final⟩ := outcome
      have frame : Spares pid middle.keys final.keys :=
        ⟨congrFun heartbeats pid, congrFun segments pid⟩
      have kept := spares.imp_left fun before => before.trans frame
      cases value with
      | error exception => exact ⟨same ▸ tracks, kept⟩
      | ok drained =>
          refine ⟨tracks.shrink ?_, kept⟩
          intro entry member
          exact same ▸ (List.mem_filter.mp member).1

end Ticking

section Runs

variable {config : WatchdogConfig} {pid : Nat} {start : WatchdogState} {ticks : List TickAnswers}
  {watched : WatchedPid}

/-- A tick leaves the records of a process alone unless its last reads were all one wall time. -/
theorem reclaim_needs_silence (fresh : start.tracked = [])
    (run : RoundRun (WatchedPid.turn config pid) Elsewhere ⟨[], start⟩ ticks watched)
    (distinct : ∀ answers ∈ ticks, answers.Distinct) {next : TickAnswers} (last : next.Distinct) :
    Spares pid watched.state.keys (watched.turn config pid next).state.keys ∨
      pid ≠ config.selfPid ∧ ∃ wallNs,
        Repeats (watched.turn config pid next).reads (config.missThreshold + 1) wallNs := by
  have tracks : TracksReads config pid watched.state.tracked watched.reads := by
    refine run.kept (fun watched => TracksReads config pid watched.state.tracked watched.reads)
      ?_ ?_ ?_
    · intro entry member
      rw [fresh] at member
      cases member
    · exact fun answers member watched held => (turn_reads (distinct answers member) held).1
    · intro before after elsewhere held
      rw [elsewhere.reads, elsewhere.tracked]
      exact held
  exact (turn_reads last tracks).2

end Runs

/-- The first tick that reads a heartbeat spares the process, though psutil does not find it. -/
theorem reclaim_needs_silence_sample :
    Spares 7 sampleLeft.keys (sampleLeft.turn ⟨1, 1, 64⟩ sampleArriving).keys := by
  have distinct : sampleArriving.Distinct := fun _ => List.nodup_singleton 7
  rcases @reclaim_needs_silence ⟨1, 1, 64⟩ 7 sampleLeft [] ⟨[], sampleLeft⟩ rfl .start
    (by simp) sampleArriving distinct with spares | ⟨_, wallNs, repeats⟩
  · exact spares
  · have reads : (WatchedPid.turn ⟨1, 1, 64⟩ 7 sampleArriving ⟨[], sampleLeft⟩).reads = [9] := by
      decide +kernel
    rw [Repeats, reads] at repeats
    have lengths := congrArg List.length repeats
    rw [List.length_replicate] at lengths
    exact absurd lengths (by decide)

end Quorin
