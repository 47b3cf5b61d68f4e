import Quorin.Proof.Watchdog.PidReuse

namespace Quorin

/-- The stored keys show the abstract keys of the registry. -/
structure RedisKeys.Represents (redis : RedisKeys String) (keys : RegistryKeys) : Prop where
  current : redis.current = keys.current
  refcount : redis.refcount = keys.refcount
  pidSegments : ∀ pid, Listing (redis.pidSegments pid) (keys.pidSegments pid)
  cleanupQueue : redis.cleanupQueue = keys.cleanupQueue
  segmentToSchema : redis.segmentToSchema = keys.segmentToSchema
  heartbeats : ∀ pid, redis.heartbeats pid = none ∧ keys.heartbeats pid = none ∨
    ∃ createNs wallNs, keys.heartbeats pid = some createNs ∧
      redis.heartbeats pid = some (heartbeatValue createNs wallNs)

section Scripts

variable {redis : RedisKeys String} {keys : RegistryKeys}

/-- A decrement of the abstract keys is a decrement of the stored ones. -/
theorem RedisKeys.Represents.decrement (represents : redis.Represents keys) (name : String) :
    (keys.decrement name).1 = (redis.refcount name).getD 0 - 1 ∧
      (redis.lowered {name}).Represents (keys.decrement name).2 := by
  have count : (redis.refcount name).getD 0 - 1 = (keys.refcount name).getD 0 - 1 := by
    rw [represents.refcount]
  by_cases last : redis.lastHolder name
  · have zero : (keys.refcount name).getD 0 - 1 ≤ 0 := count ▸ last
    rw [RegistryKeys.decrement, if_pos zero, lowered_last redis last]
    refine ⟨count.symm, ?_, ?_, represents.pidSegments, ?_, ?_, represents.heartbeats⟩
    · funext schema
      simp only [RegistryKeys.drop, represents.segmentToSchema, represents.current]
      cases keys.segmentToSchema name with
      | none => simp
      | some recorded =>
          by_cases pointed : keys.current recorded = some name
          · simp only [pointed, if_true, current_forgotten keys.current pointed]
          · have kept := congrFun (current_kept keys.current pointed) schema
            simp only [pointed, if_false]
            exact kept
    · exact congrArg (Function.update · name none) represents.refcount
    · exact congrArg (Insert.insert name) represents.cleanupQueue
    · exact congrArg (Function.update · name none) represents.segmentToSchema
  · have positive : ¬ (keys.refcount name).getD 0 - 1 ≤ 0 := count ▸ last
    rw [RegistryKeys.decrement, if_neg positive, lowered_held redis last]
    refine ⟨count.symm, represents.current, ?_, represents.pidSegments, represents.cleanupQueue,
      represents.segmentToSchema, represents.heartbeats⟩
    rw [represents.refcount]

theorem Listing.erase {names : Finset String} {listing : List String} (listed : Listing names listing)
    (name : String) : Listing (names.erase name) (listing.erase name) := by
  refine ⟨listed.distinct.erase name, ?_⟩
  ext other
  rw [List.mem_toFinset, listed.distinct.mem_erase_iff, Finset.mem_erase, ← listed.members,
    List.mem_toFinset]

/-- The sets of the process ids stay listed when one of them changes. -/
theorem listed_update {redisSets : Nat → Finset String} {sets : Nat → List String}
    (listed : ∀ pid, Listing (redisSets pid) (sets pid)) {pid : Nat} {names : Finset String}
    {listing : List String} (changed : Listing names listing) :
    ∀ other, Listing (Function.update redisSets pid names other) (Function.update sets pid listing other) := by
  intro other
  by_cases same : other = pid
  · rw [same, Function.update_self, Function.update_self]
    exact changed
  · rw [Function.update_of_ne same, Function.update_of_ne same]
    exact listed other

/-- The script `_CLOSE_LUA` does what the abstract close does. -/
theorem closeLua_represents (represents : redis.Represents keys) (pid : Nat) (name : String) :
    ((closeLua pid name).run redis).1 = (keys.closeScript pid name).1 ∧
      ((closeLua pid name).run redis).2.Represents (keys.closeScript pid name).2 := by
  obtain ⟨count, lowered⟩ := represents.decrement name
  rw [closeLua_run]
  refine ⟨count.symm, lowered.current, lowered.refcount, ?_, lowered.cleanupQueue,
    lowered.segmentToSchema, lowered.heartbeats⟩
  exact listed_update lowered.pidSegments ((lowered.pidSegments pid).erase name)

/-- The loop of the cleanup does what the abstract loop does, in any order of the members. -/
theorem decrementAll_represents (names : List String) (distinct : names.Nodup) (zeroed : Int)
    (represents : redis.Represents keys) :
    ((cleanupLoop names zeroed).run redis).1 = (keys.decrementAll names zeroed).1 ∧
      ((cleanupLoop names zeroed).run redis).2.Represents (keys.decrementAll names zeroed).2 := by
  induction names generalizing redis keys zeroed with
  | nil => exact ⟨rfl, represents⟩
  | cons name rest ih =>
      obtain ⟨count, lowered⟩ := represents.decrement name
      have same : (if redis.lastHolder name then zeroed + 1 else zeroed) =
          if (keys.decrement name).1 ≤ 0 then zeroed + 1 else zeroed := by
        rw [count]
        rfl
      rw [cleanupLoop_cons, same]
      exact ih (List.nodup_cons.mp distinct).2 _ lowered

theorem heartbeatDiffers_represents (represents : redis.Represents keys) (pid expected : Nat) :
    heartbeatDiffers (redis.heartbeats pid) (decimal expected) = keys.pidReused pid expected := by
  rcases represents.heartbeats pid with ⟨stored, none⟩ | ⟨createNs, wallNs, some, stored⟩
  · rw [stored, RegistryKeys.pidReused, none]
    rfl
  · rw [stored, RegistryKeys.pidReused, some, Bool.eq_iff_iff, heartbeatDiffers_iff]
    simp only [ne_eq, decide_not, Bool.not_eq_eq_eq_not, Bool.not_true, decide_eq_false_iff_not]
    exact not_congr ⟨decimal_injective, congrArg decimal⟩

/-- The script `CLEANUP_DEAD_PID_LUA` does what the abstract cleanup does. -/
theorem cleanupDeadPidLua_represents (represents : redis.Represents keys) (pid expected : Nat) :
    ((cleanupDeadPidLua (keys.pidSegments pid) pid (decimal expected)).run redis).1 =
        (keys.cleanupDeadPid pid expected).1 ∧
      ((cleanupDeadPidLua (keys.pidSegments pid) pid (decimal expected)).run redis).2.Represents
        (keys.cleanupDeadPid pid expected).2 := by
  have guard := heartbeatDiffers_represents represents pid expected
  have looped := decrementAll_represents (keys.pidSegments pid) (represents.pidSegments pid).distinct 0
    represents
  unfold RegistryKeys.cleanupDeadPid
  cases reused : keys.pidReused pid expected with
  | true =>
      rw [cleanupDeadPidLua_abort redis (guard.trans reused)]
      exact ⟨rfl, represents⟩
  | false =>
      rw [reused] at guard
      simp only [cleanupDeadPidLua, run_bind, run_hgetHeartbeats, guard, Bool.false_eq_true, if_false,
        run_delPidSegments, run_hdelHeartbeats, run_pure]
      obtain ⟨count, lowered⟩ := looped
      refine ⟨count, lowered.current, lowered.refcount, ?_, lowered.cleanupQueue,
        lowered.segmentToSchema, ?_⟩
      · exact listed_update lowered.pidSegments ⟨List.nodup_nil, rfl⟩
      · intro other
        by_cases same : other = pid
        · rw [same]
          exact Or.inl ⟨Function.update_self _ _ _, Function.update_self _ _ _⟩
        · have kept : (keys.reclaim pid).2.heartbeats other =
              (keys.decrementAll (keys.pidSegments pid) 0).2.heartbeats other :=
            Function.update_of_ne same _ _
          simp only [Function.update_of_ne same]
          rw [kept]
          exact lowered.heartbeats other

end Scripts

end Quorin
