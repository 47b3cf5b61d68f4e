import Quorin.Construction.Registry
import Mathlib.Data.List.Basic

namespace Quorin

/-- A possible action meets its condition and leads to its state. -/
theorem performed {condition : Prop} [Decidable condition] {result after : Registry}
    (step : (if condition then some result else none) = some after) :
    condition ∧ result = after := by
  obtain ⟨holds, same⟩ := Option.ite_none_right_eq_some.mp step
  exact ⟨holds, Option.some.inj same⟩

/-- The read of a pointer notes the segment that it names. -/
theorem readCurrent_performed {state after : Registry} {process : Process} {schema : String}
    (step : state.perform (.readCurrent process schema) = some after) :
    ∃ name, state.keys.current schema = some name ∧ process ∈ state.live ∧
      { state with
        opening := Function.update state.opening process
          (⟨name, schema, false⟩ :: state.opening process) } = after := by
  unfold Registry.perform at step
  dsimp only at step
  cases found : state.keys.current schema with
  | none =>
      rw [found] at step
      cases step
  | some name =>
      rw [found] at step
      exact ⟨name, rfl, performed step⟩

/-- The keys agree with the process ids that hold each segment, one entry for each counted open. -/
structure KeysAccounted (keys : RegistryKeys) (holds : String → List Nat) : Prop where
  counted : ∀ name, keys.refcount name =
    if holds name = [] then none else some ((holds name).length : Int)
  registered : ∀ name schema, keys.segmentToSchema name = some schema →
    holds name ≠ [] ∧ name ∉ keys.cleanupQueue
  pointed : ∀ schema name, keys.current schema = some name →
    keys.segmentToSchema name = some schema

section Keys

variable {keys : RegistryKeys} {holds : String → List Nat} {pid : Nat} {name : String}

theorem KeysAccounted.count (accounted : KeysAccounted keys holds) (name : String) :
    (keys.refcount name).getD 0 = ((holds name).length : Int) := by
  rw [accounted.counted]
  split
  · rename_i empty
    rw [empty]
    rfl
  · rfl

/-- A decrement for a holder drops the segment exactly when this was its last hold. -/
theorem KeysAccounted.decrement_eq (accounted : KeysAccounted keys holds)
    (held : pid ∈ holds name) :
    (keys.decrement name).2 =
      if (holds name).erase pid = [] then keys.drop name
      else { keys with
        refcount := Function.update keys.refcount name
          (some (((holds name).erase pid).length : Int)) } := by
  have length := List.length_erase_of_mem held
  have positive := List.length_pos_of_mem held
  have count : (keys.refcount name).getD 0 - 1 = (((holds name).erase pid).length : Int) := by
    rw [accounted.count]
    omega
  unfold RegistryKeys.decrement
  dsimp only
  rw [count]
  by_cases last : (holds name).erase pid = []
  · rw [if_pos (by simp [last]), if_pos last]
  · have more := List.length_pos_of_ne_nil last
    rw [if_neg (by omega), if_neg last]

theorem drop_segmentToSchema (keys : RegistryKeys) (name : String) :
    (keys.drop name).segmentToSchema = Function.update keys.segmentToSchema name none := rfl

/-- A dropped segment is no pointer any more, and every other pointer stays. -/
theorem KeysAccounted.drop_current (accounted : KeysAccounted keys holds) (schema : String) :
    (keys.drop name).current schema =
      if keys.current schema = some name then none else keys.current schema := by
  simp only [RegistryKeys.drop]
  cases found : keys.segmentToSchema name with
  | none =>
      rw [if_neg]
      intro current
      rw [accounted.pointed schema name current] at found
      cases found
  | some owner =>
      dsimp only
      by_cases here : keys.current schema = some name
      · have same : schema = owner := by
          rw [accounted.pointed schema name here] at found
          exact Option.some.inj found
        rw [if_pos here, ← same, if_pos here, Function.update_self]
      · rw [if_neg here]
        split
        · rename_i pointed
          rw [Function.update_of_ne]
          rintro rfl
          exact here pointed
        · rfl

theorem KeysAccounted.drop (accounted : KeysAccounted keys holds) :
    KeysAccounted (keys.drop name) (Function.update holds name []) := by
  constructor
  · intro other
    by_cases same : other = name
    · subst same
      simp [RegistryKeys.drop]
    · simp [RegistryKeys.drop, same, accounted.counted]
  · intro other schema registered
    rw [drop_segmentToSchema] at registered
    by_cases same : other = name
    · rw [same, Function.update_self] at registered
      cases registered
    · rw [Function.update_of_ne same] at registered
      have before := accounted.registered other schema registered
      simpa [RegistryKeys.drop, same] using before
  · intro schema other current
    rw [accounted.drop_current] at current
    split at current
    · cases current
    · rename_i elsewhere
      rw [drop_segmentToSchema, Function.update_of_ne]
      · exact accounted.pointed schema other current
      · rintro rfl
        exact elsewhere current

/-- A change of one count from a nonempty list of holders to another keeps the keys accounted. -/
theorem KeysAccounted.recount (accounted : KeysAccounted keys holds) {owners : List Nat}
    (some_owner : owners ≠ []) :
    KeysAccounted
      { keys with refcount := Function.update keys.refcount name (some (owners.length : Int)) }
      (Function.update holds name owners) := by
  constructor
  · intro other
    by_cases same : other = name
    · subst same
      simp [some_owner]
    · simp [same, accounted.counted]
  · intro other schema registered
    have before := accounted.registered other schema registered
    by_cases same : other = name
    · subst same
      exact ⟨by simpa using some_owner, before.2⟩
    · simpa [same] using before
  · exact accounted.pointed

theorem KeysAccounted.decrement (accounted : KeysAccounted keys holds) (held : pid ∈ holds name) :
    KeysAccounted (keys.decrement name).2
      (Function.update holds name ((holds name).erase pid)) := by
  rw [accounted.decrement_eq held]
  split
  · rename_i last
    rw [last]
    exact accounted.drop
  · rename_i more
    exact accounted.recount more

theorem KeysAccounted.openPipeline (accounted : KeysAccounted keys holds) :
    KeysAccounted (keys.openPipeline pid name)
      (Function.update holds name (pid :: holds name)) := by
  have counted := @KeysAccounted.recount keys holds name accounted (pid :: holds name) (by simp)
  have same : (keys.refcount name).getD 0 + 1 = (((pid :: holds name).length : Nat) : Int) := by
    rw [accounted.count]
    simp
  unfold RegistryKeys.openPipeline
  rw [same]
  exact ⟨counted.counted, counted.registered, counted.pointed⟩

theorem KeysAccounted.createPipeline (accounted : KeysAccounted keys holds) (schema : String)
    (setCurrent : Bool) (unused : name ∉ keys.cleanupQueue)
    (unregistered : keys.segmentToSchema name = none) :
    KeysAccounted (keys.createPipeline pid schema name setCurrent)
      (Function.update holds name [pid]) := by
  constructor
  · intro other
    by_cases same : other = name
    · subst same
      simp [RegistryKeys.createPipeline]
    · simp [RegistryKeys.createPipeline, same, accounted.counted]
  · intro other owner registered
    by_cases same : other = name
    · subst same
      simpa [RegistryKeys.createPipeline] using unused
    · simp only [RegistryKeys.createPipeline, Function.update_of_ne same] at registered
      have before := accounted.registered other owner registered
      simpa [RegistryKeys.createPipeline, same] using before
  · intro owner other current
    have old : ∀ other, keys.current owner = some other →
        Function.update keys.segmentToSchema name (some schema) other = some owner := by
      intro other current
      have before := accounted.pointed owner other current
      rw [Function.update_of_ne, before]
      rintro rfl
      rw [unregistered] at before
      cases before
    unfold RegistryKeys.createPipeline at current ⊢
    dsimp only at current ⊢
    split at current
    · by_cases here : owner = schema
      · rw [here, Function.update_self] at current
        rw [← Option.some.inj current, Function.update_self, here]
      · rw [Function.update_of_ne here] at current
        exact old other current
    · exact old other current

theorem KeysAccounted.flip (accounted : KeysAccounted keys holds) {schema : String}
    (expectedOld : String) (registered : keys.segmentToSchema name = some schema) :
    KeysAccounted (keys.flipSchemaCurrent schema expectedOld name).2 holds := by
  unfold RegistryKeys.flipSchemaCurrent
  split
  · exact accounted
  · split
    · exact accounted
    · refine ⟨accounted.counted, accounted.registered, ?_⟩
      intro owner other current
      by_cases here : owner = schema
      · dsimp only at current
        rw [here, Function.update_self] at current
        rw [← Option.some.inj current, here]
        exact registered
      · dsimp only at current
        rw [Function.update_of_ne here] at current
        exact accounted.pointed owner other current

/-- What a removal of holds may change in the keys. -/
structure KeysLowered (before after : RegistryKeys) (holds lower : String → List Nat) : Prop where
  kept : ∀ name, lower name ≠ [] → after.segmentToSchema name = before.segmentToSchema name
  shrunk : ∀ name schema, after.segmentToSchema name = some schema →
    before.segmentToSchema name = some schema
  queued : ∀ name, name ∈ after.cleanupQueue →
    name ∈ before.cleanupQueue ∨ holds name ≠ [] ∧ lower name = []
  pidSegments : after.pidSegments = before.pidSegments
  heartbeats : after.heartbeats = before.heartbeats

theorem KeysAccounted.decrement_lowered (accounted : KeysAccounted keys holds)
    (held : pid ∈ holds name) :
    KeysLowered keys (keys.decrement name).2 holds
      (Function.update holds name ((holds name).erase pid)) := by
  rw [accounted.decrement_eq held]
  split
  · rename_i last
    constructor
    · intro other owned
      rw [drop_segmentToSchema, Function.update_of_ne]
      rintro rfl
      exact owned (by rw [Function.update_self, last])
    · intro other schema registered
      rw [drop_segmentToSchema] at registered
      by_cases same : other = name
      · rw [same, Function.update_self] at registered
        cases registered
      · rwa [Function.update_of_ne same] at registered
    · intro other queued
      rcases Finset.mem_insert.mp queued with rfl | earlier
      · exact Or.inr ⟨List.ne_nil_of_mem held, by rw [Function.update_self, last]⟩
      · exact Or.inl earlier
    · rfl
    · rfl
  · exact ⟨fun _ _ => rfl, fun _ _ registered => registered, fun _ queued => Or.inl queued, rfl, rfl⟩

/-- The holds that are left when a process id gives up one hold of each of the given names. -/
def releaseAll (pid : Nat) (names : List String) (holds : String → List Nat) :
    String → List Nat :=
  fun name => if name ∈ names then (holds name).erase pid else holds name

/-- The loop of the cleanup gives up one hold of each segment of the process id. -/
theorem KeysAccounted.decrementAll (names : List String) {holds : String → List Nat}
    {keys : RegistryKeys} (accounted : KeysAccounted keys holds) (distinct : names.Nodup)
    (held : ∀ name ∈ names, pid ∈ holds name) (zeroed : Int) :
    KeysAccounted (keys.decrementAll names zeroed).2 (releaseAll pid names holds) ∧
      KeysLowered keys (keys.decrementAll names zeroed).2 holds (releaseAll pid names holds) := by
  induction names generalizing keys holds zeroed with
  | nil =>
      have same : releaseAll pid [] holds = holds := by
        funext name
        simp [releaseAll]
      rw [same]
      exact ⟨accounted, fun _ _ => rfl, fun _ _ registered => registered,
        fun _ queued => Or.inl queued, rfl, rfl⟩
  | cons first rest ih =>
      obtain ⟨absent, restDistinct⟩ := List.nodup_cons.mp distinct
      have firstHeld := held first List.mem_cons_self
      have lowered := accounted.decrement_lowered firstHeld
      have untouched : ∀ name ∈ rest, name ≠ first := by
        rintro name member rfl
        exact absent member
      have restHeld : ∀ name ∈ rest,
          pid ∈ Function.update holds first ((holds first).erase pid) name := by
        intro name member
        rw [Function.update_of_ne (untouched name member)]
        exact held name (List.mem_cons_of_mem _ member)
      obtain ⟨restAccounted, restLowered⟩ := ih (accounted.decrement firstHeld) restDistinct restHeld
        (if (keys.decrement first).1 ≤ 0 then zeroed + 1 else zeroed)
      have same : releaseAll pid rest (Function.update holds first ((holds first).erase pid)) =
          releaseAll pid (first :: rest) holds := by
        funext name
        by_cases here : name = first
        · subst here
          simp [releaseAll, absent]
        · simp [releaseAll, here]
      rw [same] at restAccounted restLowered
      refine ⟨restAccounted, ?_⟩
      constructor
      · intro name owned
        have step : Function.update holds first ((holds first).erase pid) name ≠ [] := by
          intro empty
          apply owned
          rw [← same, releaseAll, empty]
          simp
        exact (restLowered.kept name owned).trans (lowered.kept name step)
      · intro name schema registered
        exact lowered.shrunk name schema (restLowered.shrunk name schema registered)
      · intro name queued
        rcases restLowered.queued name queued with earlier | ⟨owned, empty⟩
        · rcases lowered.queued name earlier with before | ⟨owned, empty⟩
          · exact Or.inl before
          · refine Or.inr ⟨owned, ?_⟩
            rw [← same, releaseAll, empty]
            simp
        · refine Or.inr ⟨?_, empty⟩
          intro none
          apply owned
          by_cases here : name = first
          · rw [here, Function.update_self, ← here, none]
            rfl
          · rw [Function.update_of_ne here, none]
      · exact restLowered.pidSegments.trans lowered.pidSegments
      · exact restLowered.heartbeats.trans lowered.heartbeats

end Keys

end Quorin
