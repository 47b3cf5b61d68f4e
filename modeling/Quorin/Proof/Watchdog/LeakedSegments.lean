import Mathlib.Data.List.TakeWhile
import Quorin.Proof.Watchdog.Reclaim

namespace Quorin

section Ledger

variable (dead : List DeadProcess) (leak : List UInt8)

/-- The dead processes that hold the segment. -/
def deadHolders (keys : RedisKeys (List UInt8)) : List DeadProcess :=
  dead.filter fun process => leak ∈ keys.pidSegments process.pid

/-- Only dead processes hold the segment, and its count is at most the number of them. -/
structure Leaked (keys : RedisKeys (List UInt8)) : Prop where
  held : deadHolders dead leak keys ≠ []
  alone : ∀ pid, leak ∈ keys.pidSegments pid → ∃ process ∈ dead, process.pid = pid
  counted : (keys.refcount leak).getD 0 ≤ (deadHolders dead leak keys).length

/-- The segment is in the cleanup queue or already unlinked. -/
def Collected (keys : RedisKeys (List UInt8)) (linked : Finset (List UInt8)) : Prop :=
  leak ∈ keys.cleanupQueue ∨ leak ∉ linked

/-- The names that the drain can read. -/
structure RedisKeys.Readable (keys : RedisKeys (List UInt8)) : Prop where
  queue : ∀ name ∈ keys.cleanupQueue, (decodeUtf8 name).isSome
  segments : ∀ pid, ∀ name ∈ keys.pidSegments pid, (decodeUtf8 name).isSome

end Ledger

section Steps

variable {dead : List DeadProcess} {leak : List UInt8} {keys after : RedisKeys (List UInt8)}

theorem deadHolders_congr
    (same : ∀ pid, leak ∈ after.pidSegments pid ↔ leak ∈ keys.pidSegments pid) :
    deadHolders dead leak after = deadHolders dead leak keys :=
  List.filter_congr fun process _ => decide_eq_decide.mpr (same process.pid)

/-- A leaked segment has a holder that is not reclaimed. -/
theorem Leaked.holder (leaked : Leaked dead leak keys) :
    ∃ process ∈ dead, ¬ process.Reclaimed keys := by
  obtain ⟨process, holds⟩ := List.exists_mem_of_ne_nil _ leaked.held
  obtain ⟨member, inside⟩ := List.mem_filter.mp holds
  refine ⟨process, member, ?_⟩
  intro reclaimed
  simp [reclaimed.2] at inside

/-- A step that leaves the holders and the count alone keeps the leak. -/
theorem Leaked.congr (leaked : Leaked dead leak keys)
    (same : ∀ pid, leak ∈ after.pidSegments pid ↔ leak ∈ keys.pidSegments pid)
    (counts : after.refcount leak = keys.refcount leak) : Leaked dead leak after where
  held := deadHolders_congr same ▸ leaked.held
  alone := fun pid member => leaked.alone pid ((same pid).mp member)
  counted := by
    rw [deadHolders_congr same, counts]
    exact leaked.counted

/-- A cleanup takes one process id from the holders. -/
theorem deadHolders_cleanup (distinct : (dead.map DeadProcess.pid).Nodup) {process : DeadProcess}
    (member : process ∈ dead) (holds : leak ∈ keys.pidSegments process.pid) :
    (deadHolders dead leak { after with
        pidSegments := Function.update keys.pidSegments process.pid ∅ }).length + 1 =
      (deadHolders dead leak keys).length := by
  obtain ⟨front, back, rfl⟩ := List.append_of_mem member
  have others : ∀ other ∈ front ++ back, other.pid ≠ process.pid := by
    rw [List.map_append, List.map_cons, List.nodup_middle] at distinct
    intro other inside same
    refine (List.nodup_cons.mp distinct).1 ?_
    rw [← List.map_append]
    exact List.mem_map.mpr ⟨other, inside, same⟩
  have kept : ∀ part : List DeadProcess, (∀ other ∈ part, other.pid ≠ process.pid) →
      (part.filter fun other =>
        decide (leak ∈ Function.update keys.pidSegments process.pid ∅ other.pid)) =
      part.filter fun other => decide (leak ∈ keys.pidSegments other.pid) := by
    intro part apart
    refine List.filter_congr ?_
    intro other inside
    rw [Function.update_of_ne (apart other inside)]
  unfold deadHolders
  rw [List.filter_append, List.filter_append, List.filter_cons, List.filter_cons,
    kept front fun other inside => others other (List.mem_append_left _ inside),
    kept back fun other inside => others other (List.mem_append_right _ inside)]
  simp [holds]
  omega

/-- A cleanup lowers the leak by a holder, and the last one puts the segment into the queue. -/
theorem Leaked.cleanup (leaked : Leaked dead leak keys) (distinct : (dead.map DeadProcess.pid).Nodup)
    (pid : Nat) (expected : List UInt8) {members : List (List UInt8)}
    (listed : Listing (keys.pidSegments pid) members) :
    Leaked dead leak ((cleanupDeadPidLua members pid expected).run keys).2 ∨
      leak ∈ ((cleanupDeadPidLua members pid expected).run keys).2.cleanupQueue := by
  cases differs : heartbeatDiffers (keys.heartbeats pid) expected with
  | true =>
      rw [cleanupDeadPidLua_abort keys differs]
      exact .inl leaked
  | false =>
      obtain ⟨dropped, cleaned⟩ := cleanupDeadPidLua_run keys differs listed.distinct
      rw [cleaned, listed.members]
      by_cases holds : leak ∈ keys.pidSegments pid
      · by_cases last : keys.lastHolder leak
        · right
          exact Finset.mem_union_right _ (Finset.mem_filter.mpr ⟨holds, last⟩)
        · left
          obtain ⟨process, member, rfl⟩ := leaked.alone pid holds
          have fewer := @deadHolders_cleanup dead leak keys { keys.lowered (keys.pidSegments process.pid)
            with heartbeats := Function.update keys.heartbeats process.pid none } distinct process member
            holds
          have more : ¬ (keys.refcount leak).getD 0 - 1 ≤ 0 := last
          have counted := leaked.counted
          refine ⟨?_, ?_, ?_⟩
          · intro none
            rw [none] at fewer
            rw [← fewer] at counted
            simp only [List.length_nil] at counted
            omega
          · intro other inside
            by_cases same : other = process.pid
            · exact ⟨process, member, same.symm⟩
            · refine leaked.alone other ?_
              simpa [Function.update_of_ne same] using inside
          · simp only [RedisKeys.lowered, holds, last, if_true, if_false, Option.getD_some]
            simp only [RedisKeys.lowered] at fewer
            omega
      · left
        refine leaked.congr ?_ ?_
        · intro other
          by_cases same : other = pid
          · subst same
            simp [holds]
          · simp [Function.update_of_ne same]
        · simp [RedisKeys.lowered, holds]

theorem RedisKeys.Readable.cleanup (readable : keys.Readable) (pid : Nat) (expected : List UInt8)
    {members : List (List UInt8)} (listed : Listing (keys.pidSegments pid) members) :
    ((cleanupDeadPidLua members pid expected).run keys).2.Readable := by
  cases differs : heartbeatDiffers (keys.heartbeats pid) expected with
  | true =>
      rw [cleanupDeadPidLua_abort keys differs]
      exact readable
  | false =>
      obtain ⟨dropped, cleaned⟩ := cleanupDeadPidLua_run keys differs listed.distinct
      rw [cleaned, listed.members]
      refine ⟨?_, ?_⟩
      · intro name queued
        rcases Finset.mem_union.mp queued with old | new
        · exact readable.queue name old
        · exact readable.segments pid name (Finset.mem_filter.mp new).1
      · intro other name member
        by_cases same : other = pid
        · subst same
          simp at member
        · exact readable.segments other name (by simpa [Function.update_of_ne same] using member)

/-- Names other than the segment that the drain can read. -/
def OtherName (leak name : List UInt8) : Prop := name ≠ leak ∧ (decodeUtf8 name).isSome

/-- The holders of the segment behind the opening of another one. -/
theorem held_insert (segments : Nat → Finset (List UInt8)) {name : List UInt8} (different : leak ≠ name)
    (pid holder : Nat) :
    leak ∈ Function.update segments pid (Insert.insert name (segments pid)) holder ↔
      leak ∈ segments holder := by
  by_cases same : holder = pid
  · subst same
    simp [different]
  · rw [Function.update_of_ne same]

/-- The holders of the segment behind the close of another one. -/
theorem held_erase (segments : Nat → Finset (List UInt8)) {name : List UInt8} (different : leak ≠ name)
    (pid holder : Nat) :
    leak ∈ Function.update segments pid ((segments pid).erase name) holder ↔
      leak ∈ segments holder := by
  by_cases same : holder = pid
  · subst same
    simp [different]
  · rw [Function.update_of_ne same]

/-- The steps of others keep the account of the segment. -/
theorem OtherStep.ledger {before after : WatchdogState}
    (step : OtherStep dead (OtherName leak) before after)
    (distinct : (dead.map DeadProcess.pid).Nodup)
    (ledger : Leaked dead leak before.keys ∨ Collected leak before.keys before.linked) :
    Leaked dead leak after.keys ∨ Collected leak after.keys after.linked := by
  cases step with
  | heartbeat pid other text => exact ledger.imp (fun leaked => leaked.congr (fun _ => Iff.rfl) rfl) id
  | opens pid other name free =>
      have different := free.1.symm
      exact ledger.imp (fun leaked => leaked.congr (held_insert _ different pid)
        (Function.update_of_ne different _ _)) id
  | creates pid other schema name setCurrent free =>
      have different := free.1.symm
      rcases ledger with leaked | queued | gone
      · exact .inl (leaked.congr (held_insert _ different pid) (Function.update_of_ne different _ _))
      · exact .inr (.inl queued)
      · exact .inr (.inr fun inside => gone (Finset.mem_of_mem_insert_of_ne inside different))
  | closes pid other name free =>
      rw [closeLua_run]
      have different := free.1.symm
      rcases ledger with leaked | queued | gone
      · exact .inl (leaked.congr (held_erase _ different pid)
          (lowered_refcount before.keys different))
      · exact .inr (.inl (Finset.mem_union_left _ queued))
      · exact .inr (.inr gone)
  | repoints schema name => exact ledger.imp (fun leaked => leaked.congr (fun _ => Iff.rfl) rfl) id
  | unlinks name =>
      rcases ledger with leaked | queued | gone
      · exact .inl leaked
      · exact .inr (.inl queued)
      · exact .inr (.inr fun inside => gone (Finset.mem_of_mem_erase inside))
  | cleanup pid expected members listed =>
      rcases ledger with leaked | queued | gone
      · exact (leaked.cleanup distinct pid expected listed).imp id .inl
      · exact .inr (.inl (cleanup_queue before.keys listed.distinct pid expected queued))
      · exact .inr (.inr gone)
  | pops maxDrain members listed free =>
      rw [drainCleanupQueueLua, drainLoop_run] at free ⊢
      rcases ledger with leaked | queued | gone
      · exact .inl (leaked.congr (fun _ => Iff.rfl) rfl)
      · have left : leak ∉ (members.take maxDrain.toNat).toFinset :=
          fun taken => (free leak (List.mem_toFinset.mp taken)).1 rfl
        exact .inr (.inl (Finset.mem_sdiff.mpr ⟨queued, left⟩))
      · exact .inr (.inr gone)

/-- The steps of others only write names that the drain can read. -/
theorem OtherStep.readable {before after : WatchdogState}
    (step : OtherStep dead (OtherName leak) before after) (readable : before.keys.Readable) :
    after.keys.Readable := by
  have added : ∀ pid name, (decodeUtf8 name).isSome → ∀ holder,
      ∀ held ∈ Function.update before.keys.pidSegments pid
        (Insert.insert name (before.keys.pidSegments pid)) holder, (decodeUtf8 held).isSome := by
    intro pid name text holder held member
    by_cases same : holder = pid
    · subst same
      rw [Function.update_self] at member
      rcases Finset.mem_insert.mp member with rfl | old
      · exact text
      · exact readable.segments holder held old
    · rw [Function.update_of_ne same] at member
      exact readable.segments holder held member
  cases step with
  | heartbeat pid other text => exact ⟨readable.queue, readable.segments⟩
  | opens pid other name free => exact ⟨readable.queue, added pid name free.2⟩
  | creates pid other schema name setCurrent free => exact ⟨readable.queue, added pid name free.2⟩
  | closes pid other name free =>
      rw [closeLua_run]
      refine ⟨?_, ?_⟩
      · intro queued member
        rcases Finset.mem_union.mp member with old | new
        · exact readable.queue queued old
        · rw [Finset.mem_singleton.mp (Finset.mem_filter.mp new).1]
          exact free.2
      · intro holder held member
        by_cases same : holder = pid
        · subst same
          simp only [Function.update_self] at member
          exact readable.segments holder held (Finset.mem_of_mem_erase member)
        · simp only [Function.update_of_ne same] at member
          exact readable.segments holder held member
  | repoints schema name => exact ⟨readable.queue, readable.segments⟩
  | unlinks name => exact readable
  | cleanup pid expected members listed => exact readable.cleanup pid expected listed
  | pops maxDrain members listed free =>
      rw [drainCleanupQueueLua, drainLoop_run]
      exact ⟨fun name member => readable.queue name (Finset.mem_sdiff.mp member).1,
        readable.segments⟩

end Steps

section Ticks

variable {dead : List DeadProcess} {leak : List UInt8} {config : WatchdogConfig}
  {answers : TickAnswers}

/-- The account of the segment in a tick. -/
structure TickLedger (dead : List DeadProcess) (leak : List UInt8) (state : TickState) : Prop where
  ledger : Leaked dead leak state.keys ∨ Collected leak state.keys state.linked
  readable : state.keys.Readable

theorem TickLedger.cleanup (distinct : (dead.map DeadProcess.pid).Nodup) {state : TickState}
    (held : TickLedger dead leak state) (pid : Nat) (expected : List UInt8) :
    TickLedger dead leak (state.cleanup answers pid expected).2 := by
  have listed := answers.members.listed (state.keys.pidSegments pid)
  rcases @TickState.cleanup_cases answers state pid expected with same | ⟨keys, linked, _⟩
  · rw [same]
    exact held
  · constructor
    · rw [keys, linked]
      rcases held.ledger with leaked | queued | gone
      · exact (leaked.cleanup distinct pid expected listed).imp id .inl
      · exact .inr (.inl (cleanup_queue state.keys listed.distinct pid expected queued))
      · exact .inr (.inr gone)
    · rw [keys]
      exact held.readable.cleanup pid expected listed

/-- The steps in front of the drain keep the account of the segment. -/
theorem beforeDrain_ledger (distinct : (dead.map DeadProcess.pid).Nodup) {state : TickState}
    (held : TickLedger dead leak state) :
    TickLedger dead leak (beforeDrain config answers state).2 := by
  unfold beforeDrain
  cases answers.hgetall with
  | refused => exact held
  | lost => exact held
  | replied =>
      dsimp only
      generalize trackAll config _ state.tracked [] 0 = heartbeats
      obtain ⟨tracked, seen, malformed⟩ := heartbeats
      have checked := @checkAll_kept answers (TickLedger dead leak)
        (fun _ _ held => ⟨held.ledger, held.readable⟩)
        (readyForCheck config.missThreshold tracked)
        (fun _ pid _ _ _ held => held.cleanup distinct pid _)
        { state with tracked, result := { state.result with malformedCount := malformed } }
        ⟨held.ledger, held.readable⟩
      dsimp only
      generalize checkAll answers (readyForCheck config.missThreshold tracked)
        { state with tracked, result := { state.result with malformedCount := malformed } } = outcome
        at checked
      obtain ⟨returned, after⟩ := outcome
      cases returned with
      | error exception => exact ⟨checked.ledger, checked.readable⟩
      | ok value => exact ⟨checked.ledger, checked.readable⟩

/-- The drain of the tick loses no name: its reply is not lost, and no unlink raises. -/
structure TickAnswers.Unlinks (answers : TickAnswers) : Prop where
  drain : answers.drain ≠ .lost
  fault : ∀ name, answers.fault name = none

/-- The drain links no segment. -/
theorem drainCleanupQueue_linked (state : TickState) :
    (drainCleanupQueue config answers state).2.linked ⊆ state.linked := by
  unfold drainCleanupQueue drainCleanupQueueLua
  rw [drainLoop_run]
  cases answers.drain with
  | refused => exact Finset.Subset.refl _
  | lost => exact Finset.Subset.refl _
  | replied =>
      have linked := @unlinkDrained_linked answers.fault
        ((answers.popped.order state.keys.cleanupQueue).take config.batchDrainSize.toNat) state.linked 0
      dsimp only
      generalize unlinkDrained answers.fault _ state.linked 0 = outcome at linked
      obtain ⟨returned, after⟩ := outcome
      obtain rfl := linked
      cases returned with
      | error exception => exact Finset.sdiff_subset
      | ok count => exact Finset.sdiff_subset

/-- A drain that loses no name leaves the queued segment in the queue or unlinked. -/
theorem drainCleanupQueue_collected (unlinks : answers.Unlinks) {state : TickState}
    (fresh : state.drained = []) (readable : state.keys.Readable)
    (collected : Collected leak state.keys state.linked) :
    Collected leak (drainCleanupQueue config answers state).2.keys
      (drainCleanupQueue config answers state).2.linked := by
  rcases collected with queued | gone
  · have passes : unreachedNames answers (poppedNames config answers state.keys.cleanupQueue) = [] := by
      unfold unreachedNames
      cases fate : answers.drain with
      | refused => rfl
      | lost => exact absurd fate unlinks.drain
      | replied =>
          refine List.dropWhile_eq_nil_iff.mpr ?_
          intro name popped
          have queued : name ∈ state.keys.cleanupQueue := by
            rw [← (answers.popped.listed state.keys.cleanupQueue).members, List.mem_toFinset]
            exact List.mem_of_mem_take popped
          have text := readable.queue name queued
          simp [stopsDrain, unlinks.fault name, Option.isNone_eq_false_iff.mpr text]
    have kept := (@drainCleanupQueue_kept_iff config answers state fresh).mpr (by simp [passes])
    rcases @drainCleanupQueue_takes config answers state leak queued with stays | drained
    · exact .inl stays
    · exact (kept leak drained).symm
  · exact .inr fun inside => gone (drainCleanupQueue_linked state inside)

/-- A drain whose batch the queue fits in leaves no name in it. -/
theorem drainCleanupQueue_empties (replied : answers.drain = .replied) {state : TickState}
    (fits : state.keys.cleanupQueue.card ≤ config.batchDrainSize.toNat) :
    (drainCleanupQueue config answers state).2.keys.cleanupQueue = ∅ := by
  have listed := answers.popped.listed state.keys.cleanupQueue
  have size : (answers.popped.order state.keys.cleanupQueue).length =
      state.keys.cleanupQueue.card := by
    rw [← List.toFinset_card_of_nodup listed.distinct, listed.members]
  have none : state.keys.cleanupQueue \
      ((answers.popped.order state.keys.cleanupQueue).take config.batchDrainSize.toNat).toFinset = ∅ := by
    rw [List.take_of_length_le (size.trans_le fits), listed.members, Finset.sdiff_self]
  unfold drainCleanupQueue drainCleanupQueueLua
  rw [drainLoop_run, replied]
  dsimp only
  generalize unlinkDrained answers.fault _ state.linked 0 = outcome
  obtain ⟨returned, after⟩ := outcome
  cases returned with
  | error exception => exact none
  | ok count => exact none

theorem drainCleanupQueue_readable {state : TickState} (readable : state.keys.Readable) :
    (drainCleanupQueue config answers state).2.keys.Readable := by
  have fewer : ∀ names : Finset (List UInt8), ∀ name ∈ state.keys.cleanupQueue \ names,
      (decodeUtf8 name).isSome :=
    fun names name member => readable.queue name (Finset.mem_sdiff.mp member).1
  unfold drainCleanupQueue drainCleanupQueueLua
  rw [drainLoop_run]
  cases answers.drain with
  | refused => exact readable
  | lost => exact ⟨fewer _, readable.segments⟩
  | replied =>
      dsimp only
      generalize unlinkDrained answers.fault _ state.linked 0 = outcome
      obtain ⟨returned, after⟩ := outcome
      cases returned with
      | error exception => exact ⟨fewer _, readable.segments⟩
      | ok count => exact ⟨fewer _, readable.segments⟩

/-- The state of a tick in front of its drain. -/
def WatchdogState.checked (config : WatchdogConfig) (answers : TickAnswers) (state : WatchdogState) :
    TickState :=
  (beforeDrain config answers ⟨state.tracked, state.keys, state.linked, .empty, []⟩).2

/-- A tick ends in front of its drain or behind it. -/
theorem turn_cases (config : WatchdogConfig) (answers : TickAnswers) (state : WatchdogState) :
    (state.turn config answers).keys = (state.checked config answers).keys ∧
        (state.turn config answers).linked = (state.checked config answers).linked ∧
        (beforeDrain config answers
          ⟨state.tracked, state.keys, state.linked, .empty, []⟩).1.toOption = none ∨
      (state.turn config answers).keys =
          (drainCleanupQueue config answers (state.checked config answers)).2.keys ∧
        (state.turn config answers).linked =
          (drainCleanupQueue config answers (state.checked config answers)).2.linked := by
  unfold WatchdogState.turn WatchdogState.checked runOneTick
  generalize beforeDrain config answers ⟨state.tracked, state.keys, state.linked, .empty, []⟩ = reached
  obtain ⟨returned, middle⟩ := reached
  cases returned with
  | error exception => exact .inl ⟨rfl, rfl, rfl⟩
  | ok seen =>
      right
      dsimp only
      generalize drainCleanupQueue config answers middle = outcome
      obtain ⟨value, after⟩ := outcome
      cases value with
      | error exception => exact ⟨rfl, rfl⟩
      | ok drained => exact ⟨rfl, rfl⟩

/-- The steps in front of the drain return when every call of them arrives. -/
theorem beforeDrain_returns (reaches : answers.Reaches) (state : TickState) :
    ∃ seen, (beforeDrain config answers state).1 = .ok seen := by
  unfold beforeDrain
  rw [reaches.hgetall]
  dsimp only
  generalize trackAll config _ state.tracked [] 0 = heartbeats
  obtain ⟨tracked, seen, malformed⟩ := heartbeats
  have returned := @checkAll_returns answers reaches.cleanup (readyForCheck config.missThreshold tracked)
    { state with tracked, result := { state.result with malformedCount := malformed } }
  dsimp only
  generalize checkAll answers (readyForCheck config.missThreshold tracked)
    { state with tracked, result := { state.result with malformedCount := malformed } } = outcome
    at returned
  obtain ⟨value, after⟩ := outcome
  obtain rfl : value = .ok () := returned
  exact ⟨seen, rfl⟩

/-- What the keys and the linked segments say about the leaked segment between two ticks. -/
structure LeakLedger (dead : List DeadProcess) (leak : List UInt8) (state : WatchdogState) : Prop where
  ledger : Leaked dead leak state.keys ∨ Collected leak state.keys state.linked
  readable : state.keys.Readable

/-- A tick that loses no name keeps the account of the segment. -/
theorem LeakLedger.turn (distinct : (dead.map DeadProcess.pid).Nodup) (unlinks : answers.Unlinks)
    {state : WatchdogState} (held : LeakLedger dead leak state) :
    LeakLedger dead leak (state.turn config answers) := by
  have before : TickLedger dead leak (state.checked config answers) :=
    beforeDrain_ledger distinct ⟨held.ledger, held.readable⟩
  have fresh : (state.checked config answers).drained = [] :=
    (@beforeDrain_queues config answers ⟨state.tracked, state.keys, state.linked, .empty, []⟩).drained
  rcases turn_cases config answers state with ⟨keys, linked, _⟩ | ⟨keys, linked⟩
  · constructor
    · rw [keys, linked]
      exact before.ledger
    · rw [keys]
      exact before.readable
  · constructor
    · rw [keys, linked]
      obtain ⟨_, _, segments, counts⟩ :=
        @drainCleanupQueue_frame config answers (state.checked config answers)
      rcases before.ledger with leaked | collected
      · left
        refine leaked.congr ?_ (congrFun counts leak)
        intro holder
        rw [segments]
      · exact .inr (drainCleanupQueue_collected unlinks fresh before.readable collected)
    · rw [keys]
      exact drainCleanupQueue_readable before.readable

/-- A tick links no segment. -/
theorem turn_linked (state : WatchdogState) :
    (state.turn config answers).linked ⊆ state.linked := by
  have before : (state.checked config answers).linked = state.linked :=
    (@beforeDrain_queues config answers ⟨state.tracked, state.keys, state.linked, .empty, []⟩).linked
  rcases turn_cases config answers state with ⟨_, linked, _⟩ | ⟨_, linked⟩
  · rw [linked, before]
  · rw [linked, ← before]
    exact drainCleanupQueue_linked _

end Ticks

section Runs

variable {dead : List DeadProcess} {leak : List UInt8} {config : WatchdogConfig}
  {start before state : WatchdogState} {ticks later : List TickAnswers} {good : TickAnswers}

/-- Behind every run the leak is accounted for. -/
theorem ForeverRun.ledger (run : ForeverRun dead (OtherName leak) config start ticks state)
    (distinct : (dead.map DeadProcess.pid).Nodup)
    (unlinks : ∀ answers ∈ ticks, answers.Unlinks) (begun : LeakLedger dead leak start) :
    LeakLedger dead leak state :=
  run.kept (LeakLedger dead leak) begun
    (fun answers member _ held => held.turn distinct (unlinks answers member))
    (fun _ _ step held => ⟨step.ledger distinct held.ledger, step.readable held.readable⟩)

/-- Behind every run a segment that was unlinked stays so. -/
theorem ForeverRun.unlinked (run : ForeverRun dead (OtherName leak) config start ticks state)
    (gone : leak ∉ start.linked) : leak ∉ state.linked := by
  refine run.kept (fun state => leak ∉ state.linked) gone ?_ ?_
  · exact fun _ _ state gone inside => gone (turn_linked state inside)
  · intro state next step gone
    cases step with
    | creates pid other schema name setCurrent free =>
        exact fun inside => gone (Finset.mem_of_mem_insert_of_ne inside free.1.symm)
    | unlinks name => exact fun inside => gone (Finset.mem_of_mem_erase inside)
    | _ => exact gone

/-- A segment that only dead processes hold is queued behind enough heard ticks and unlinked by the
first covering drain. -/
theorem leak_unlinked (run : ForeverRun dead (OtherName leak) config start ticks before)
    (attests : ∀ answers ∈ ticks, answers.Attests dead) (notSelf : OtherPid dead config.selfPid)
    (begun : ∀ process ∈ dead, start.keys.heartbeats process.pid = some process.heartbeat ∧
      process.Followed start.tracked 0)
    (distinct : (dead.map DeadProcess.pid).Nodup) (leaked : Leaked dead leak start.keys)
    (readable : start.keys.Readable)
    (enough : config.missThreshold ≤ ticks.countP TickAnswers.hears)
    (confirms : good.Attests dead) (reaches : good.Reaches)
    (rest : ForeverRun dead (OtherName leak) config (before.turn config good) later state)
    (unlinks : ∀ answers ∈ ticks ++ good :: later, answers.Unlinks) :
    Collected leak state.keys state.linked ∧
      (good.drain = .replied →
        (before.checked config good).keys.cleanupQueue.card ≤ config.batchDrainSize.toNat →
          leak ∉ state.linked) := by
  have held := run.ledger distinct
    (fun answers member => unlinks answers (List.mem_append_left _ member)) ⟨.inl leaked, readable⟩
  have own := unlinks good (List.mem_append_right _ List.mem_cons_self)
  have reclaimed : ∀ process ∈ dead, process.Reclaimed (before.checked config good).keys := by
    intro process member
    have progress := run.progress attests member (notSelf process member) (.inr (begun process member))
    exact @beforeDrain_reclaims dead process config good confirms reaches member
      (notSelf process member) _ enough ⟨before.tracked, before.keys, before.linked, .empty, []⟩ progress
  have behind : TickLedger dead leak (before.checked config good) :=
    beforeDrain_ledger distinct ⟨held.ledger, held.readable⟩
  constructor
  · have ledger := (rest.ledger distinct
      (fun answers member => unlinks answers (List.mem_append_right _ (List.mem_cons_of_mem _ member)))
      (held.turn distinct own)).ledger
    refine ledger.resolve_left ?_
    intro stays
    obtain ⟨process, member, unreclaimed⟩ := stays.holder
    exact unreclaimed (rest.reclaimed member (turn_reclaimed (reclaimed process member)))
  · intro replied fits
    have collected : Collected leak (before.checked config good).keys
        (before.checked config good).linked := by
      refine behind.ledger.resolve_left ?_
      intro stays
      obtain ⟨process, member, unreclaimed⟩ := stays.holder
      exact unreclaimed (reclaimed process member)
    have fresh : (before.checked config good).drained = [] :=
      (@beforeDrain_queues config good ⟨before.tracked, before.keys, before.linked, .empty, []⟩).drained
    have swept := @drainCleanupQueue_collected leak config good own _ fresh behind.readable collected
    rw [Collected, drainCleanupQueue_empties replied fits] at swept
    refine rest.unlinked ?_
    rcases turn_cases config good before with ⟨_, _, raised⟩ | ⟨_, linked⟩
    · obtain ⟨seen, returned⟩ := @beforeDrain_returns config good reaches
        ⟨before.tracked, before.keys, before.linked, .empty, []⟩
      rw [returned] at raised
      cases raised
    · rw [linked]
      exact swept.resolve_left (Finset.notMem_empty leak)

end Runs

theorem sampleLeft_leaked : Leaked [sampleDead] sampleLeak sampleLeft.keys where
  held := by decide
  alone := by
    intro pid member
    refine ⟨sampleDead, List.mem_cons_self, ?_⟩
    by_contra different
    have empty : sampleLeft.keys.pidSegments pid = ∅ := if_neg (Ne.symm different)
    exact absurd (empty ▸ member) (Finset.notMem_empty _)
  counted := by decide

theorem sampleLeft_readable : sampleLeft.keys.Readable where
  queue := fun name impossible => absurd impossible (Finset.notMem_empty name)
  segments := by
    intro pid name member
    by_cases same : pid = 7
    · have single : sampleLeft.keys.pidSegments pid = {sampleLeak} := if_pos same
      obtain rfl := Finset.mem_singleton.mp (single ▸ member)
      rw [sampleLeak, decodeUtf8_encodeUtf8]
      rfl
    · have empty : sampleLeft.keys.pidSegments pid = ∅ := if_neg same
      exact absurd (empty ▸ member) (Finset.notMem_empty _)

/-- The second tick of the sample watchdog unlinks the segment although the first drain failed. -/
theorem leak_unlinked_sample :
    sampleLeak ∉ ((sampleLeft.turn ⟨1, 1, 64⟩ sampleInterrupted).turn ⟨1, 1, 64⟩
      sampleArriving).linked := by
  have attests : ∀ answers ∈ [sampleInterrupted], answers.Attests [sampleDead] := by
    intro answers member
    obtain rfl := List.mem_singleton.mp member
    exact ⟨sampleArriving_attests.fields, sampleArriving_attests.psutil⟩
  have apart : OtherPid [sampleDead] 1 := by
    intro process member
    obtain rfl := List.mem_singleton.mp member
    decide
  have unlinks : ∀ answers ∈ [sampleInterrupted] ++ [sampleArriving], answers.Unlinks := by
    intro answers member
    rcases List.mem_append.mp member with first | last
    · obtain rfl := List.mem_singleton.mp first
      exact ⟨by decide, fun _ => rfl⟩
    · obtain rfl := List.mem_singleton.mp last
      exact ⟨by decide, fun _ => rfl⟩
  have run : ForeverRun [sampleDead] (OtherName sampleLeak) ⟨1, 1, 64⟩ sampleLeft [sampleInterrupted]
      (sampleLeft.turn ⟨1, 1, 64⟩ sampleInterrupted) := RoundRun.round .start sampleInterrupted
  exact (leak_unlinked run attests apart sampleLeft_followed (by decide) sampleLeft_leaked
    sampleLeft_readable (by decide) sampleArriving_attests ⟨rfl, fun _ => rfl⟩ .start unlinks).2 rfl
    (by decide)

end Quorin
