import Quorin.Construction.Watchdog
import Quorin.Proof.Segment.Operations
import Quorin.Proof.Watchdog.Scripts

namespace Quorin

section Drain

/-- The SPOPs take the first members of the order. -/
theorem drainLoop_run {Name : Type} [DecidableEq Name] (keys : RedisKeys Name) (count : Nat)
    (members : List Name) :
    (drainLoop count members).run keys = (members.take count,
      { keys with cleanupQueue := keys.cleanupQueue \ (members.take count).toFinset }) := by
  induction members generalizing keys count with
  | nil =>
      cases count with
      | zero => simp only [drainLoop, run_pure, List.take_nil, List.toFinset_nil, Finset.sdiff_empty]
      | succ count =>
          simp only [drainLoop, run_pure, List.take_nil, List.toFinset_nil, Finset.sdiff_empty]
  | cons name rest ih =>
      cases count with
      | zero => simp only [drainLoop, run_pure, List.take_zero, List.toFinset_nil, Finset.sdiff_empty]
      | succ count =>
          have members : keys.cleanupQueue.erase name \ (rest.take count).toFinset =
              keys.cleanupQueue \ ((name :: rest).take (count + 1)).toFinset := by
            ext other
            simp only [List.take_succ_cons, List.toFinset_cons, Finset.mem_sdiff, Finset.mem_erase,
              Finset.mem_insert]
            tauto
          rw [drainLoop, run_bind, run_spopCleanupQueue, run_bind, ih, run_pure, members,
            List.take_succ_cons]

/-- A name that the loop of the drain does not get past. -/
def stopsDrain (fault : List UInt8 → Option UnlinkFault) (name : List UInt8) : Bool :=
  (decodeUtf8 name).isNone || (fault name).isSome

variable {fault : List UInt8 → Option UnlinkFault}

/-- An unlink that does not raise leaves no segment of its name. -/
theorem posixShmUnlink_returns {linked : Finset (List UInt8)} {name : List UInt8}
    (free : fault name = none) : posixShmUnlink fault linked name = (.ok (), linked.erase name) := by
  unfold posixShmUnlink unlinkSharedMemory
  rw [free]
  by_cases member : name ∈ linked
  · simp [member]
  · simp [member]

/-- The loop unlinks the names in front of the first one that stops it. -/
theorem unlinkDrained_linked (names : List (List UInt8)) (linked : Finset (List UInt8)) (count : Nat) :
    (unlinkDrained fault names linked count).2 =
      linked \ (names.takeWhile fun name => !stopsDrain fault name).toFinset := by
  induction names generalizing linked count with
  | nil => simp [unlinkDrained]
  | cons name rest ih =>
      cases text : decodeUtf8 name with
      | none => simp [unlinkDrained, text, stopsDrain]
      | some decoded =>
          cases free : fault name with
          | some error =>
              simp [unlinkDrained, text, posixShmUnlink, unlinkSharedMemory, free, stopsDrain]
          | none =>
              have passes : stopsDrain fault name = false := by simp [stopsDrain, text, free]
              rw [unlinkDrained, text]
              simp only [posixShmUnlink_returns free, ih]
              rw [List.takeWhile_cons_of_pos (by simp [passes]), List.toFinset_cons]
              ext other
              simp only [Finset.mem_sdiff, Finset.mem_erase, Finset.mem_insert]
              tauto

end Drain

section Tick

variable {config : WatchdogConfig} {answers : TickAnswers}

/-- The steps in front of the drain unlink nothing and take nothing from the queue. -/
structure Queues (before after : TickState) : Prop where
  linked : after.linked = before.linked
  drained : after.drained = before.drained
  queue : before.keys.cleanupQueue ⊆ after.keys.cleanupQueue

theorem Queues.refl (state : TickState) : Queues state state :=
  ⟨rfl, rfl, Finset.Subset.refl _⟩

theorem Queues.trans {first second third : TickState} (before : Queues first second)
    (after : Queues second third) : Queues first third :=
  ⟨after.linked.trans before.linked, after.drained.trans before.drained,
    before.queue.trans after.queue⟩

/-- The cleanup script only adds to the queue. -/
theorem cleanup_queue {Name : Type} [DecidableEq Name] (keys : RedisKeys Name) {members : List Name}
    (distinct : members.Nodup) (pid : Nat) (expected : List UInt8) :
    keys.cleanupQueue ⊆ ((cleanupDeadPidLua members pid expected).run keys).2.cleanupQueue := by
  cases differs : heartbeatDiffers (keys.heartbeats pid) expected with
  | true =>
      rw [cleanupDeadPidLua_abort keys differs]
  | false =>
      obtain ⟨dropped, cleaned⟩ := cleanupDeadPidLua_run keys differs distinct
      rw [cleaned]
      exact Finset.subset_union_left

theorem TickState.cleanup_queues (state : TickState) (pid : Nat) (expected : List UInt8) :
    Queues state (state.cleanup answers pid expected).2 := by
  have grows := cleanup_queue state.keys (answers.members.listed (state.keys.pidSegments pid)).distinct
    pid expected
  unfold TickState.cleanup
  dsimp only
  generalize (cleanupDeadPidLua (answers.members.order (state.keys.pidSegments pid)) pid expected).run
    state.keys = outcome at grows ⊢
  obtain ⟨returned, keys⟩ := outcome
  cases answers.cleanup pid with
  | refused => exact .refl state
  | lost => exact ⟨rfl, rfl, grows⟩
  | replied =>
      by_cases negative : returned < 0
      · simp only [negative, if_true]
        exact ⟨rfl, rfl, grows⟩
      · simp only [negative, if_false]
        exact ⟨rfl, rfl, grows⟩

theorem checkAll_queues (pids : List Nat) (state : TickState) :
    Queues state (checkAll answers pids state).2 := by
  induction pids generalizing state with
  | nil => exact .refl state
  | cons pid rest ih =>
      rw [checkAll]
      cases state.tracked.lookup pid with
      | none => exact ih state
      | some entry =>
          dsimp only
          rcases crossCheck (answers.psutil pid) entry.createTimeNs with ⟨dead, unverifiable⟩
          cases unverifiable with
          | some kind =>
              refine .trans ?_ (ih _)
              exact ⟨rfl, rfl, Finset.Subset.refl _⟩
          | none =>
              cases dead with
              | false => exact ih state
              | true =>
                  have cleaned := @TickState.cleanup_queues answers state pid
                    ((strInt entry.createTimeNs).getD [])
                  dsimp only
                  generalize state.cleanup answers pid ((strInt entry.createTimeNs).getD []) = outcome
                    at cleaned
                  obtain ⟨returned, after⟩ := outcome
                  cases returned with
                  | error exception => exact cleaned
                  | ok value => exact cleaned.trans (ih after)

theorem beforeDrain_queues (state : TickState) :
    Queues state (beforeDrain config answers state).2 := by
  unfold beforeDrain
  cases answers.hgetall with
  | refused => exact .refl state
  | lost => exact .refl state
  | replied =>
      dsimp only
      generalize trackAll config _ state.tracked [] 0 = heartbeats
      obtain ⟨tracked, seen, malformed⟩ := heartbeats
      have checked := @checkAll_queues answers (readyForCheck config.missThreshold tracked)
        { state with tracked, result := { state.result with malformedCount := malformed } }
      dsimp only
      generalize checkAll answers (readyForCheck config.missThreshold tracked)
        { state with tracked, result := { state.result with malformedCount := malformed } } = outcome
        at checked
      obtain ⟨returned, after⟩ := outcome
      cases returned with
      | error exception => exact ⟨checked.linked, checked.drained, checked.queue⟩
      | ok value => exact ⟨checked.linked, checked.drained, checked.queue⟩

/-- The names that a drain takes from a queue. -/
def poppedNames (config : WatchdogConfig) (answers : TickAnswers) (queue : Finset (List UInt8)) :
    List (List UInt8) :=
  (answers.popped.order queue).take config.batchDrainSize.toNat

/-- The popped names that the loop of the drain does not reach, or not get past. -/
def unreachedNames (answers : TickAnswers) (names : List (List UInt8)) : List (List UInt8) :=
  match answers.drain with
  | .refused => []
  | .lost => names
  | .replied => names.dropWhile fun name => !stopsDrain answers.fault name

/-- Every name that the drain took is without a segment, or in the queue again. -/
def DrainKept (state : TickState) : Prop :=
  ∀ name ∈ state.drained, name ∉ state.linked ∨ name ∈ state.keys.cleanupQueue

/-- A drain that took different names and unlinked the first ones of them. -/
theorem kept_iff {names first last : List (List UInt8)} (distinct : names.Nodup)
    (split : names = first ++ last) (linked queue : Finset (List UInt8)) :
    (∀ name ∈ names, name ∉ linked \ first.toFinset ∨ name ∈ queue \ names.toFinset) ↔
      ∀ name ∈ last, name ∉ linked := by
  rw [split] at distinct
  have apart := (List.nodup_append.mp distinct).2.2
  constructor
  · intro kept name member linkedName
    have inside : name ∈ names := split ▸ List.mem_append_right _ member
    have behind : name ∉ first := fun early => apart name early name member rfl
    rcases kept name inside with gone | queued
    · exact gone (Finset.mem_sdiff.mpr ⟨linkedName, by simpa using behind⟩)
    · exact (Finset.mem_sdiff.mp queued).2 (List.mem_toFinset.mpr inside)
  · intro gone name member
    left
    rw [Finset.mem_sdiff, List.mem_toFinset]
    rintro ⟨linkedName, behind⟩
    rw [split] at member
    exact gone name ((List.mem_append.mp member).resolve_left behind) linkedName

/-- A drain keeps its names exactly when the ones it does not get past have no segment. -/
theorem drainCleanupQueue_kept_iff {state : TickState} (fresh : state.drained = []) :
    DrainKept (drainCleanupQueue config answers state).2 ↔
      ∀ name ∈ unreachedNames answers (poppedNames config answers state.keys.cleanupQueue),
        name ∉ state.linked := by
  have distinct : (poppedNames config answers state.keys.cleanupQueue).Nodup :=
    (answers.popped.listed state.keys.cleanupQueue).distinct.sublist (List.take_sublist _ _)
  have drained := drainLoop_run state.keys config.batchDrainSize.toNat
    (answers.popped.order state.keys.cleanupQueue)
  unfold DrainKept drainCleanupQueue unreachedNames drainCleanupQueueLua
  rw [drained]
  cases answers.drain with
  | refused => simp [fresh]
  | lost =>
      have kept := @kept_iff _ [] _ distinct rfl state.linked state.keys.cleanupQueue
      simpa [poppedNames] using kept
  | replied =>
      have linked := @unlinkDrained_linked answers.fault
        (poppedNames config answers state.keys.cleanupQueue) state.linked 0
      have kept := kept_iff distinct (@List.takeWhile_append_dropWhile _
        (fun name => !stopsDrain answers.fault name) _).symm state.linked state.keys.cleanupQueue
      rw [← linked] at kept
      dsimp only
      rw [← kept, poppedNames]
      generalize unlinkDrained answers.fault _ state.linked 0 = outcome
      obtain ⟨returned, after⟩ := outcome
      cases returned with
      | error exception => rfl
      | ok count => rfl

/-- A tick loses no name of the queue exactly when the ones it does not get past have no segment. -/
theorem tick_kept_iff (tracked : Tracked) (keys : RedisKeys (List UInt8))
    (linked : Finset (List UInt8)) :
    DrainKept (runOneTick config answers tracked keys linked).2 ↔
      ∀ seen before, beforeDrain config answers ⟨tracked, keys, linked, .empty, []⟩ = (.ok seen, before) →
        ∀ name ∈ unreachedNames answers (poppedNames config answers before.keys.cleanupQueue),
          name ∉ linked := by
  have queues := @beforeDrain_queues config answers ⟨tracked, keys, linked, .empty, []⟩
  unfold runOneTick
  cases reached : beforeDrain config answers ⟨tracked, keys, linked, .empty, []⟩ with
  | mk returned before =>
      rw [reached] at queues
      have fresh : before.drained = [] := queues.drained
      cases returned with
      | error exception => simp [DrainKept, fresh]
      | ok seen =>
          have kept := @drainCleanupQueue_kept_iff config answers before fresh
          rw [show before.linked = linked from queues.linked] at kept
          have only : (∀ other state,
              (Except.ok seen : Except TickException (List Nat)) = .ok other ∧ before = state →
              ∀ name ∈ unreachedNames answers (poppedNames config answers state.keys.cleanupQueue),
                name ∉ linked) ↔
              ∀ name ∈ unreachedNames answers (poppedNames config answers before.keys.cleanupQueue),
                name ∉ linked := by
            constructor
            · exact fun gone => gone seen before ⟨rfl, rfl⟩
            · rintro gone other state ⟨_, rfl⟩
              exact gone
          simp only [Prod.mk.injEq]
          rw [only, ← kept]
          generalize drainCleanupQueue config answers before = outcome
          obtain ⟨returned, after⟩ := outcome
          cases returned with
          | error exception => rfl
          | ok value => rfl

/-- A drain hands over the names that it takes from the queue. -/
theorem drainCleanupQueue_takes {state : TickState} {name : List UInt8}
    (queued : name ∈ state.keys.cleanupQueue) :
    name ∈ (drainCleanupQueue config answers state).2.keys.cleanupQueue ∨
      name ∈ (drainCleanupQueue config answers state).2.drained := by
  have drained := drainLoop_run state.keys config.batchDrainSize.toNat
    (answers.popped.order state.keys.cleanupQueue)
  have taken : ∀ names : List (List UInt8),
      name ∈ state.keys.cleanupQueue \ names.toFinset ∨ name ∈ names := by
    intro names
    by_cases member : name ∈ names
    · exact Or.inr member
    · exact Or.inl (Finset.mem_sdiff.mpr ⟨queued, by simpa using member⟩)
  unfold drainCleanupQueue drainCleanupQueueLua
  rw [drained]
  cases answers.drain with
  | refused => exact Or.inl queued
  | lost => exact taken _
  | replied =>
      dsimp only
      generalize unlinkDrained answers.fault _ state.linked 0 = outcome
      obtain ⟨returned, after⟩ := outcome
      cases returned with
      | error exception => exact taken _
      | ok count => exact taken _

/-- A name leaves the queue only through the drain. -/
theorem tick_removes_drained (tracked : Tracked) (keys : RedisKeys (List UInt8))
    (linked : Finset (List UInt8)) {name : List UInt8} (queued : name ∈ keys.cleanupQueue) :
    name ∈ (runOneTick config answers tracked keys linked).2.keys.cleanupQueue ∨
      name ∈ (runOneTick config answers tracked keys linked).2.drained := by
  have queues := @beforeDrain_queues config answers ⟨tracked, keys, linked, .empty, []⟩
  have stays := queues.queue queued
  unfold runOneTick
  generalize beforeDrain config answers ⟨tracked, keys, linked, .empty, []⟩ = reached at stays
  obtain ⟨returned, before⟩ := reached
  cases returned with
  | error exception => exact Or.inl stays
  | ok seen =>
      have popped : name ∈ (drainCleanupQueue config answers before).2.keys.cleanupQueue ∨
          name ∈ (drainCleanupQueue config answers before).2.drained :=
        drainCleanupQueue_takes stays
      dsimp only
      generalize drainCleanupQueue config answers before = outcome at popped
      obtain ⟨returned, after⟩ := outcome
      cases returned with
      | error exception => exact popped
      | ok value => exact popped

end Tick

/-- A watchdog that may not unlink the segments of its one queued name. -/
noncomputable def sampleForbidden : TickAnswers where
  hgetall := .replied
  fields := fun _ => []
  psutil := fun _ => .noSuchProcess
  cleanup := fun _ => .replied
  members := ⟨Finset.toList, fun names => ⟨names.nodup_toList, names.toList_toFinset⟩⟩
  drain := .replied
  popped := ⟨Finset.toList, fun names => ⟨names.nodup_toList, names.toList_toFinset⟩⟩
  fault := fun _ => some .permissionsError

/-- A registry whose only record is one name in the queue. -/
def sampleQueued : RedisKeys (List UInt8) where
  current := fun _ => none
  refcount := fun _ => none
  pidSegments := fun _ => ∅
  cleanupQueue := {encodeUtf8 "quorin"}
  segmentToSchema := fun _ => none
  heartbeats := fun _ => none

theorem sampleForbidden_drain (state : TickState) (queue : state.keys.cleanupQueue = {encodeUtf8 "quorin"}) :
    drainCleanupQueue ⟨1, 5, 64⟩ sampleForbidden state = (.error (.unlink .permissionsError),
      { state with
        keys := { state.keys with cleanupQueue := ∅ }
        drained := [encodeUtf8 "quorin"] }) := by
  have popped : sampleForbidden.popped.order state.keys.cleanupQueue = [encodeUtf8 "quorin"] := by
    simp [sampleForbidden, queue]
  have stops : unlinkDrained sampleForbidden.fault [encodeUtf8 "quorin"] state.linked 0 =
      (.error (.unlink .permissionsError), state.linked) := by
    rw [unlinkDrained, decodeUtf8_encodeUtf8]
    rfl
  unfold drainCleanupQueue drainCleanupQueueLua
  rw [popped, drainLoop_run]
  have all : [encodeUtf8 "quorin"].take (64 : Int).toNat = [encodeUtf8 "quorin"] := rfl
  rw [all, queue]
  simp only [sampleForbidden] at stops ⊢
  simp [stops]

/-- A tick that raises in its drain loses the name that it took from the queue. -/
theorem tick_loses :
    (runOneTick ⟨1, 5, 64⟩ sampleForbidden [] sampleQueued {encodeUtf8 "quorin"}).1 =
      .error (.unlink .permissionsError) ∧
    ¬ DrainKept (runOneTick ⟨1, 5, 64⟩ sampleForbidden [] sampleQueued {encodeUtf8 "quorin"}).2 := by
  have before : beforeDrain ⟨1, 5, 64⟩ sampleForbidden
      ⟨[], sampleQueued, {encodeUtf8 "quorin"}, .empty, []⟩ =
      (.ok [], ⟨[], sampleQueued, {encodeUtf8 "quorin"}, .empty, []⟩) := rfl
  have drained := sampleForbidden_drain ⟨[], sampleQueued, {encodeUtf8 "quorin"}, .empty, []⟩ rfl
  unfold runOneTick
  rw [before]
  dsimp only
  rw [drained]
  refine ⟨rfl, ?_⟩
  intro kept
  rcases kept (encodeUtf8 "quorin") List.mem_cons_self with gone | queued
  · exact gone (Finset.mem_singleton_self _)
  · exact absurd queued (Finset.notMem_empty _)

end Quorin
