import Mathlib.Data.Finset.Basic
import Mathlib.Data.Finset.Filter
import Quorin.Construction.WatchdogScripts

namespace Quorin

section Decrement

variable {Name : Type} [DecidableEq Name] (keys : RedisKeys Name)

/-- A decrement of the count of a name reaches zero. -/
def RedisKeys.lastHolder (name : Name) : Prop := (keys.refcount name).getD 0 - 1 ≤ 0

instance (name : Name) : Decidable (keys.lastHolder name) := Int.decLe _ _

/-- The keys behind one decrement of each name of a set. -/
def RedisKeys.lowered (names : Finset Name) : RedisKeys Name :=
  { keys with
    refcount := fun name =>
      if name ∈ names then
        if keys.lastHolder name then none else some ((keys.refcount name).getD 0 - 1)
      else keys.refcount name
    cleanupQueue := keys.cleanupQueue ∪ names.filter keys.lastHolder
    segmentToSchema := fun name =>
      if name ∈ names ∧ keys.lastHolder name then none else keys.segmentToSchema name
    current := fun schema => (keys.current schema).filter fun name =>
      ¬ (name ∈ names ∧ keys.lastHolder name ∧ keys.segmentToSchema name = some schema) }

theorem lowered_current (names : Finset Name) (schema : Name) :
    (keys.lowered names).current schema = (keys.current schema).filter fun name =>
      ¬ (name ∈ names ∧ keys.lastHolder name ∧ keys.segmentToSchema name = some schema) := rfl

theorem lowered_empty : keys.lowered ∅ = keys := by
  refine RedisKeys.ext ?_ ?_ rfl ?_ ?_ rfl
  · funext schema
    cases present : keys.current schema with
    | none => simp [RedisKeys.lowered, present]
    | some name => simp [RedisKeys.lowered, present]
  · funext name
    simp [RedisKeys.lowered]
  · simp [RedisKeys.lowered]
  · funext name
    simp [RedisKeys.lowered]

section Different

variable {name other : Name} (different : other ≠ name)
include different

theorem lowered_refcount : (keys.lowered {name}).refcount other = keys.refcount other := by
  simp [RedisKeys.lowered, different]

theorem lowered_lastHolder : (keys.lowered {name}).lastHolder other ↔ keys.lastHolder other := by
  rw [RedisKeys.lastHolder, lowered_refcount keys different, RedisKeys.lastHolder]

theorem lowered_schema :
    (keys.lowered {name}).segmentToSchema other = keys.segmentToSchema other := by
  simp [RedisKeys.lowered, different]

end Different

/-- The decrements of different names do not see each other. -/
theorem lowered_lowered {name : Name} {names : Finset Name} (fresh : name ∉ names) :
    (keys.lowered {name}).lowered names = keys.lowered (Insert.insert name names) := by
  have apart : ∀ {other}, other ∈ names → other ≠ name := by
    rintro other member rfl
    exact fresh member
  refine RedisKeys.ext ?_ ?_ rfl ?_ ?_ rfl
  · funext schema
    rw [lowered_current, lowered_current, lowered_current, Option.filter_filter]
    congr 1
    funext other
    by_cases same : other = name
    · subst same
      simp [fresh]
    · simp [same, lowered_lastHolder keys same, lowered_schema keys same]
  · funext other
    by_cases same : other = name
    · subst same
      simp [RedisKeys.lowered, fresh]
    · have last := lowered_lastHolder keys same
      have count := lowered_refcount keys same
      rw [RedisKeys.lowered]
      simp only [last, count]
      simp [RedisKeys.lowered, same]
  · ext other
    have last : other ∈ names → ((keys.lowered {name}).lastHolder other ↔ keys.lastHolder other) :=
      fun member => lowered_lastHolder keys (apart member)
    simp only [RedisKeys.lowered, Finset.mem_union, Finset.mem_filter, Finset.mem_singleton,
      Finset.mem_insert] at last ⊢
    grind
  · funext other
    by_cases same : other = name
    · subst same
      simp [RedisKeys.lowered, fresh]
    · have last := lowered_lastHolder keys same
      have sidetable := lowered_schema keys same
      rw [RedisKeys.lowered]
      simp only [last, sidetable]
      simp [RedisKeys.lowered, same]

/-- A decrement of one name that leaves other holders. -/
theorem lowered_held {name : Name} (held : ¬ keys.lastHolder name) :
    keys.lowered {name} = { keys with
      refcount := Function.update keys.refcount name (some ((keys.refcount name).getD 0 - 1)) } := by
  refine RedisKeys.ext ?_ ?_ rfl ?_ ?_ rfl
  · funext schema
    rw [lowered_current]
    cases present : keys.current schema with
    | none => rfl
    | some other =>
        refine Option.filter_eq_some_iff.mpr ⟨rfl, ?_⟩
        simp only [Finset.mem_singleton, decide_eq_true_eq]
        rintro ⟨rfl, last, _⟩
        exact held last
  · funext other
    by_cases same : other = name
    · subst same
      simp [RedisKeys.lowered, held]
    · simp [RedisKeys.lowered, same]
  · simp [RedisKeys.lowered, Finset.filter_singleton, held]
  · funext other
    by_cases same : other = name
    · subst same
      simp [RedisKeys.lowered, held]
    · simp [RedisKeys.lowered, same]

/-- The last decrement of one name removes its records. -/
theorem lowered_last {name : Name} (last : keys.lastHolder name) :
    keys.lowered {name} = { keys with
      refcount := Function.update keys.refcount name none
      cleanupQueue := Insert.insert name keys.cleanupQueue
      segmentToSchema := Function.update keys.segmentToSchema name none
      current := fun schema =>
        if keys.segmentToSchema name = some schema ∧ keys.current schema = some name then none
        else keys.current schema } := by
  refine RedisKeys.ext ?_ ?_ rfl ?_ ?_ rfl
  · funext schema
    rw [lowered_current]
    cases present : keys.current schema with
    | none => simp [present]
    | some other =>
        by_cases same : other = name
        · subst same
          by_cases recorded : keys.segmentToSchema other = some schema
          · simp [Option.filter_some, present, last, recorded]
          · simp [Option.filter_some, present, recorded]
        · simp [Option.filter_some, present, same]
  · funext other
    by_cases same : other = name
    · subst same
      simp [RedisKeys.lowered, last]
    · simp [RedisKeys.lowered, same]
  · ext other
    simp only [RedisKeys.lowered, Finset.filter_singleton, last, if_true, Finset.mem_union,
      Finset.mem_singleton, Finset.mem_insert]
    exact or_comm
  · funext other
    by_cases same : other = name
    · subst same
      simp [RedisKeys.lowered, last]
    · simp [RedisKeys.lowered, same]

end Decrement

section Commands

variable {Name : Type} (keys : RedisKeys Name)

@[simp] theorem run_hgetSegmentToSchema (name : Name) : (hgetSegmentToSchema name).run keys =
    (keys.segmentToSchema name, keys) := rfl

@[simp] theorem run_getCurrent (schema : Name) : (getCurrent schema).run keys =
    (keys.current schema, keys) := rfl

@[simp] theorem run_delPidSegments (pid : Nat) : (delPidSegments pid).run keys =
    ((), { keys with pidSegments := Function.update keys.pidSegments pid ∅ }) := rfl

@[simp] theorem run_hgetHeartbeats (pid : Nat) : (hgetHeartbeats pid).run keys =
    (keys.heartbeats pid, keys) := rfl

@[simp] theorem run_hdelHeartbeats (pid : Nat) : (hdelHeartbeats pid).run keys =
    ((), { keys with heartbeats := Function.update keys.heartbeats pid none }) := rfl

@[simp] theorem run_pure {α : Type} (value : α) :
    (pure value : LuaScript Name α).run keys = (value, keys) := rfl

@[simp] theorem run_bind {α β : Type} (script : LuaScript Name α) (next : α → LuaScript Name β) :
    (script >>= next).run keys = (next (script.run keys).1).run (script.run keys).2 := rfl

variable [DecidableEq Name]

@[simp] theorem run_decrRefcount (name : Name) : (decrRefcount name).run keys =
    ((keys.refcount name).getD 0 - 1, { keys with
      refcount := Function.update keys.refcount name (some ((keys.refcount name).getD 0 - 1)) }) := rfl

@[simp] theorem run_delRefcount (name : Name) : (delRefcount name).run keys =
    ((), { keys with refcount := Function.update keys.refcount name none }) := rfl

@[simp] theorem run_saddCleanupQueue (name : Name) : (saddCleanupQueue name).run keys =
    ((), { keys with cleanupQueue := Insert.insert name keys.cleanupQueue }) := rfl

@[simp] theorem run_spopCleanupQueue (name : Name) : (spopCleanupQueue name).run keys =
    ((), { keys with cleanupQueue := keys.cleanupQueue.erase name }) := rfl

@[simp] theorem run_hdelSegmentToSchema (name : Name) : (hdelSegmentToSchema name).run keys =
    ((), { keys with segmentToSchema := Function.update keys.segmentToSchema name none }) := rfl

@[simp] theorem run_delCurrent (schema : Name) : (delCurrent schema).run keys =
    ((), { keys with current := Function.update keys.current schema none }) := rfl

@[simp] theorem run_sremPidSegments (pid : Nat) (name : Name) : (sremPidSegments pid name).run keys =
    ((), { keys with
      pidSegments := Function.update keys.pidSegments pid ((keys.pidSegments pid).erase name) }) := rfl

end Commands

section Runs

variable {Name : Type} [DecidableEq Name] (keys : RedisKeys Name)

/-- The pointer is deleted exactly when the sidetable and the pointer name each other. -/
theorem current_forgotten (current : Name → Option Name) {schema name : Name}
    (pointed : current schema = some name) :
    Function.update current schema none = fun other =>
      if some schema = some other ∧ current other = some name then none else current other := by
  funext other
  by_cases same : other = schema
  · subst same
    simp [pointed]
  · simp [same, Ne.symm same]

/-- A pointer that names another segment stays. -/
theorem current_kept (current : Name → Option Name) {schema name : Name}
    (pointed : ¬ current schema = some name) :
    (fun other => if some schema = some other ∧ current other = some name then none
      else current other) = current := by
  funext other
  refine if_neg ?_
  rintro ⟨same, here⟩
  obtain rfl := Option.some.inj same
  exact pointed here

/-- A close lowers the count of its name and takes the name from the set of the process id. -/
theorem closeLua_run (pid : Nat) (name : Name) :
    (closeLua pid name).run keys = ((keys.refcount name).getD 0 - 1,
      { keys.lowered {name} with
        pidSegments :=
          Function.update keys.pidSegments pid ((keys.pidSegments pid).erase name) }) := by
  by_cases last : keys.lastHolder name
  · have zero : (keys.refcount name).getD 0 - 1 ≤ 0 := last
    rw [lowered_last keys last]
    cases recorded : keys.segmentToSchema name with
    | none =>
        have untouched : Function.update keys.segmentToSchema name none = keys.segmentToSchema :=
          recorded ▸ Function.update_eq_self name keys.segmentToSchema
        simp only [closeLua, run_bind, run_decrRefcount, zero, if_true, run_saddCleanupQueue,
          run_hgetSegmentToSchema, recorded, run_delRefcount, run_sremPidSegments, run_pure,
          Function.update_idem, untouched]
        simp
    | some schema =>
        by_cases pointed : keys.current schema = some name
        · simp only [closeLua, run_bind, run_decrRefcount, zero, if_true, run_saddCleanupQueue,
            run_hgetSegmentToSchema, recorded, run_getCurrent, pointed, run_delCurrent,
            run_hdelSegmentToSchema, run_delRefcount, run_sremPidSegments, run_pure,
            Function.update_idem, current_forgotten keys.current pointed]
        · simp only [closeLua, run_bind, run_decrRefcount, zero, if_true, run_saddCleanupQueue,
            run_hgetSegmentToSchema, recorded, run_getCurrent, pointed, if_false,
            run_hdelSegmentToSchema, run_delRefcount, run_sremPidSegments, run_pure,
            Function.update_idem, current_kept keys.current pointed]
  · have positive : ¬ (keys.refcount name).getD 0 - 1 ≤ 0 := last
    rw [lowered_held keys last]
    simp only [closeLua, run_bind, run_decrRefcount, positive, if_false, run_sremPidSegments, run_pure]

/-- The loop of the cleanup lowers the count of its next name. -/
theorem cleanupLoop_cons (name : Name) (rest : List Name) (zeroed : Int) :
    (cleanupLoop (name :: rest) zeroed).run keys =
      (cleanupLoop rest (if keys.lastHolder name then zeroed + 1 else zeroed)).run
        (keys.lowered {name}) := by
  by_cases last : keys.lastHolder name
  · have zero : (keys.refcount name).getD 0 - 1 ≤ 0 := last
    rw [if_pos last, lowered_last keys last]
    cases recorded : keys.segmentToSchema name with
    | none =>
        have untouched : Function.update keys.segmentToSchema name none = keys.segmentToSchema :=
          recorded ▸ Function.update_eq_self name keys.segmentToSchema
        simp only [cleanupLoop, run_bind, run_decrRefcount, zero, if_true, run_saddCleanupQueue,
          run_hgetSegmentToSchema, recorded, run_delRefcount, Function.update_idem, untouched]
        simp
    | some schema =>
        by_cases pointed : keys.current schema = some name
        · simp only [cleanupLoop, run_bind, run_decrRefcount, zero, if_true, run_saddCleanupQueue,
            run_hgetSegmentToSchema, recorded, run_getCurrent, pointed, run_delCurrent,
            run_hdelSegmentToSchema, run_delRefcount, Function.update_idem,
            current_forgotten keys.current pointed]
        · simp only [cleanupLoop, run_bind, run_decrRefcount, zero, if_true, run_saddCleanupQueue,
            run_hgetSegmentToSchema, recorded, run_getCurrent, pointed, if_false,
            run_hdelSegmentToSchema, run_delRefcount, Function.update_idem,
            current_kept keys.current pointed]
  · have positive : ¬ (keys.refcount name).getD 0 - 1 ≤ 0 := last
    rw [if_neg last, lowered_held keys last]
    simp only [cleanupLoop, run_bind, run_decrRefcount, positive, if_false]

/-- The loop of the cleanup lowers the count of every name once, in any order. -/
theorem cleanupLoop_run {names : List Name} (distinct : names.Nodup) (zeroed : Int) :
    ∃ dropped : Nat, (cleanupLoop names zeroed).run keys =
      (zeroed + dropped, keys.lowered names.toFinset) := by
  induction names generalizing keys zeroed with
  | nil =>
      refine ⟨0, ?_⟩
      rw [cleanupLoop, run_pure, List.toFinset_nil, lowered_empty, Int.natCast_zero, Int.add_zero]
  | cons name rest ih =>
      obtain ⟨fresh, distinctRest⟩ := List.nodup_cons.mp distinct
      obtain ⟨dropped, later⟩ := ih (keys.lowered {name}) distinctRest
        (if keys.lastHolder name then zeroed + 1 else zeroed)
      rw [cleanupLoop_cons, later, lowered_lowered keys (by simpa using fresh), List.toFinset_cons]
      split
      · exact ⟨dropped + 1, by push_cast; rw [Int.add_assoc, Int.add_comm 1]⟩
      · exact ⟨dropped, rfl⟩

/-- The closes lower the count of every name once and empty the set, in any order. -/
theorem closeAll_run (pid : Nat) {names : List Name} (distinct : names.Nodup) :
    (closeAll pid names).run keys = ((), { keys.lowered names.toFinset with
      pidSegments := Function.update keys.pidSegments pid
        (keys.pidSegments pid \ names.toFinset) }) := by
  induction names generalizing keys with
  | nil =>
      rw [closeAll, run_pure, List.toFinset_nil, lowered_empty, Finset.sdiff_empty,
        Function.update_eq_self]
  | cons name rest ih =>
      obtain ⟨fresh, distinctRest⟩ := List.nodup_cons.mp distinct
      have apart := lowered_lowered keys (show name ∉ rest.toFinset by simpa using fresh)
      have members : ((keys.pidSegments pid).erase name) \ rest.toFinset =
          keys.pidSegments pid \ Insert.insert name rest.toFinset := by
        ext other
        simp only [Finset.mem_sdiff, Finset.mem_erase, Finset.mem_insert, List.mem_toFinset]
        tauto
      rw [closeAll, run_bind, closeLua_run, ih _ distinctRest, List.toFinset_cons, ← apart]
      simp only [Function.update_self, Function.update_idem, members]
      rfl

/-- The guard of the cleanup aborts on a heartbeat of another process. -/
theorem cleanupDeadPidLua_abort {members : List Name} {pid : Nat} {expected : List UInt8}
    (differs : heartbeatDiffers (keys.heartbeats pid) expected = true) :
    (cleanupDeadPidLua members pid expected).run keys = (-1, keys) := by
  simp only [cleanupDeadPidLua, run_bind, run_hgetHeartbeats, differs, if_true, run_pure]

/-- Behind its guard the cleanup lowers the counts and forgets the process id. -/
theorem cleanupDeadPidLua_run {members : List Name} {pid : Nat} {expected : List UInt8}
    (same : heartbeatDiffers (keys.heartbeats pid) expected = false) (distinct : members.Nodup) :
    ∃ dropped : Nat, (cleanupDeadPidLua members pid expected).run keys =
      ((dropped : Int), { keys.lowered members.toFinset with
        pidSegments := Function.update keys.pidSegments pid ∅
        heartbeats := Function.update keys.heartbeats pid none }) := by
  obtain ⟨dropped, looped⟩ := cleanupLoop_run keys distinct 0
  refine ⟨dropped, ?_⟩
  simp only [cleanupDeadPidLua, run_bind, run_hgetHeartbeats, same, Bool.false_eq_true, if_false,
    looped, run_delPidSegments, run_hdelHeartbeats, run_pure, Int.zero_add]
  rfl

/-- A cleanup that does not abort ran behind its guard. -/
theorem cleanup_completed {members : List Name} {pid : Nat} {expected : List UInt8}
    (completed : ((cleanupDeadPidLua members pid expected).run keys).1 ≠ -1) :
    heartbeatDiffers (keys.heartbeats pid) expected = false := by
  cases differs : heartbeatDiffers (keys.heartbeats pid) expected with
  | false => rfl
  | true =>
      rw [cleanupDeadPidLua_abort keys differs] at completed
      exact absurd rfl completed

/-- A cleanup of a process id without records changes nothing. -/
theorem cleanup_idle {pid : Nat} (empty : keys.pidSegments pid = ∅)
    (silent : keys.heartbeats pid = none) {members : List Name}
    (listed : Listing (keys.pidSegments pid) members) (expected : List UInt8) :
    (cleanupDeadPidLua members pid expected).run keys = (0, keys) := by
  obtain rfl : members = [] := List.toFinset_eq_empty_iff _ |>.mp (listed.members.trans empty)
  have segments : Function.update keys.pidSegments pid ∅ = keys.pidSegments :=
    empty ▸ Function.update_eq_self pid keys.pidSegments
  have heartbeats : Function.update keys.heartbeats pid none = keys.heartbeats :=
    silent ▸ Function.update_eq_self pid keys.heartbeats
  have same : heartbeatDiffers (keys.heartbeats pid) expected = false := by
    rw [silent]
    rfl
  simp only [cleanupDeadPidLua, run_bind, run_hgetHeartbeats, same, Bool.false_eq_true, if_false,
    cleanupLoop, run_pure, run_delPidSegments, run_hdelHeartbeats, segments, heartbeats]

/-- A cleanup that does not abort leaves the keys that the closes and the HDEL leave. -/
theorem cleanup_eq_closes (pid : Nat) (expected : List UInt8) {members closing : List Name}
    (listed : Listing (keys.pidSegments pid) members)
    (closed : Listing (keys.pidSegments pid) closing)
    (completed : ((cleanupDeadPidLua members pid expected).run keys).1 ≠ -1) :
    ((cleanupDeadPidLua members pid expected).run keys).2 =
      ((closeAll pid closing >>= fun _ => hdelHeartbeats pid).run keys).2 ∧
    ∀ again, Listing (((cleanupDeadPidLua members pid expected).run keys).2.pidSegments pid) again →
      ∀ other, ((cleanupDeadPidLua again pid other).run
        ((cleanupDeadPidLua members pid expected).run keys).2).2 =
          ((cleanupDeadPidLua members pid expected).run keys).2 := by
  obtain ⟨dropped, cleaned⟩ := cleanupDeadPidLua_run keys (cleanup_completed keys completed)
    listed.distinct
  rw [cleaned]
  refine ⟨?_, ?_⟩
  · rw [run_bind, closeAll_run keys pid closed.distinct, listed.members, closed.members,
      Finset.sdiff_self]
    rfl
  · intro again relisted other
    rw [cleanup_idle _ (Function.update_self _ _ _) (Function.update_self _ _ _) relisted other]

end Runs

/-- Two segments of one schema: the process id 7 is the last holder of the one behind the pointer. -/
def sampleKeys : RedisKeys String where
  current := fun schema => if schema = "Sample" then some "old" else none
  refcount := fun name => if name = "old" then some 1 else if name = "new" then some 2 else none
  pidSegments := fun pid => if pid = 7 then {"old", "new"} else ∅
  cleanupQueue := ∅
  segmentToSchema := fun name => if name = "old" ∨ name = "new" then some "Sample" else none
  heartbeats := fun pid => if pid = 7 then some [53, 58, 57] else none

/-- The cleanup of the process id 7 lists its segments in one order and the closes in the other. -/
theorem cleanup_eq_closes_sample :
    ((cleanupDeadPidLua ["old", "new"] 7 [53]).run sampleKeys).2 =
      ((closeAll 7 ["new", "old"] >>= fun _ => hdelHeartbeats 7).run sampleKeys).2 :=
  (cleanup_eq_closes sampleKeys 7 [53] ⟨by decide, by decide⟩ ⟨by decide, by decide⟩ (by decide)).1

end Quorin
