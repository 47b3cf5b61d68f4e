import Quorin.Proof.Consumer.EncodedValues
import Quorin.Proof.Offline.BufferConservation
import Quorin.Proof.Offline.LatestFeatures

namespace Quorin

/-- The event time of a row of the dataset. -/
def recordTime (record : Record) : Option Int :=
  match record.lookup "event_time_ns" with
  | some (.int time) => some time
  | _ => none

/-- The event time of an append. -/
def DatasetCall.eventTime : DatasetCall → Option Int
  | .append _ _ eventTimeNs _ _ => some eventTimeNs
  | .flush _ => none

/-- The time for which an append asks the date cache, when its class has a plan and its time a date. -/
def DatasetCall.datedTime (externals : Externals) (includeMsgId : Bool) : DatasetCall → Option Int
  | .append schema _ eventTimeNs _ _ =>
      match columnPlanFor externals.hashName schema includeMsgId with
      | .error _ => none
      | .ok _ => (externals.dateString eventTimeNs).map fun _ => eventTimeNs
  | .flush _ => none

/-- The first such time of a UTC day in a sequence of calls. -/
def firstOfDay (externals : Externals) (includeMsgId : Bool) (calls : List DatasetCall) (day : Int) :
    Option Int :=
  (calls.filterMap (DatasetCall.datedTime externals includeMsgId)).find? fun time =>
    time / dayNs = day

/-- A partition is in the dates of every window that its row is in. -/
def InEveryWindow (eventDate : String) (time : Int) : Prop :=
  ∀ winStart winEnd startDate stopDate, nsToDateStr winStart = some startDate →
    nsToDateStr winEnd = some stopDate → winStart ≤ time → time ≤ winEnd →
      startDate ≤ eventDate ∧ eventDate ≤ stopDate

/-- The partition is that of the row's own date. -/
theorem inEveryWindow_iff {eventDate own : String} {time : Int} (dated : nsToDateStr time = some own) :
    InEveryWindow eventDate time ↔ eventDate = own := by
  constructor
  · intro every
    obtain ⟨lower, upper⟩ := every time time own own dated dated le_rfl le_rfl
    exact le_antisymm upper lower
  · rintro rfl winStart winEnd startDate stopDate startDated stopDated after before
    exact ⟨nsToDateStr_le startDated dated after, nsToDateStr_le dated stopDated before⟩

section Cache

variable {externals : Externals} {includeMsgId : Bool}

/-- An append adds to the cache what its question for the date adds. -/
theorem append_dateCache (store : ColumnStore) (schema : FeatureSchema) (entityId : String)
    (eventTimeNs : Int) (values : List WireValue) (msgId : List UInt8) :
    (store.append externals schema entityId eventTimeNs values msgId).2.dateCache =
      match columnPlanFor externals.hashName schema store.includeMsgId with
      | .error _ => store.dateCache
      | .ok _ => ((store.getDateStr externals eventTimeNs).map Prod.snd).getD store.dateCache := by
  unfold ColumnStore.append
  cases columnPlanFor externals.hashName schema store.includeMsgId with
  | error error => rfl
  | ok plan =>
      cases store.getDateStr externals eventTimeNs with
      | none => rfl
      | some found =>
          dsimp only
          unfold ColumnStore.openBucket
          cases store.buffers.lookup (schema, found.1) with
          | some bucket =>
              dsimp only
              split
              · rfl
              · cases bucket.parseMsgId msgId <;> rfl
          | none =>
              dsimp only
              cases makeColumns plan store.includeMsgId store.heap with
              | none => rfl
              | some made =>
                  dsimp only [Option.map_some]
                  split
                  · rfl
                  · cases made.1.parseMsgId msgId <;> rfl

/-- The cache knows the date of the first time of each day. -/
def CachesFirst (externals : Externals) (includeMsgId : Bool) (calls : List DatasetCall)
    (store : ColumnStore) : Prop :=
  ∀ day, store.dateCache.lookup day =
    (firstOfDay externals includeMsgId calls day).bind externals.dateString

theorem runDataset_snoc (calls : List DatasetCall) (call : DatasetCall) :
    runDataset externals includeMsgId (calls ++ [call]) =
      (runDataset externals includeMsgId calls).perform externals call := by
  unfold runDataset
  rw [List.foldl_append, List.foldl_cons, List.foldl_nil]

theorem firstOfDay_snoc (calls : List DatasetCall) (call : DatasetCall) (day : Int) :
    firstOfDay externals includeMsgId (calls ++ [call]) day =
      (firstOfDay externals includeMsgId calls day).or
        ((call.datedTime externals includeMsgId).filter fun time => time / dayNs = day) := by
  unfold firstOfDay
  rw [List.filterMap_append, List.find?_append]
  congr 1
  cases asked : call.datedTime externals includeMsgId with
  | none =>
      rw [List.filterMap_cons_none asked]
      rfl
  | some time =>
      rw [List.filterMap_cons_some asked, List.filterMap_nil, List.find?_cons, Option.filter_some]
      cases decide (time / dayNs = day) <;> rfl

/-- The first time of a day is a time of the day, and it has a date. -/
theorem firstOfDay_dated {calls : List DatasetCall} {day first : Int}
    (found : firstOfDay externals includeMsgId calls day = some first) :
    first / dayNs = day ∧ ∃ text, externals.dateString first = some text := by
  have place := List.find?_some found
  have member := List.mem_of_find?_eq_some found
  refine ⟨by simpa using place, ?_⟩
  obtain ⟨call, _, asked⟩ := List.mem_filterMap.mp member
  unfold DatasetCall.datedTime at asked
  split at asked
  · split at asked
    · cases asked
    · obtain ⟨text, dated, rfl⟩ := Option.map_eq_some_iff.mp asked
      exact ⟨text, dated⟩
  · cases asked

/-- The cache of every run knows the date of the first time of each day. -/
theorem runDataset_cachesFirst (calls : List DatasetCall) :
    CachesFirst externals includeMsgId calls (runDataset externals includeMsgId calls).store := by
  induction calls using List.reverseRecOn with
  | nil =>
      intro day
      rfl
  | append_singleton before call ih =>
      intro day
      rw [runDataset_snoc, firstOfDay_snoc]
      have included := runDataset_included externals includeMsgId before
      generalize runDataset externals includeMsgId before = state at ih included ⊢
      cases call with
      | flush outcome =>
          change state.store.dateCache.lookup day = _
          rw [ih day]
          simp [DatasetCall.datedTime]
      | append schema entityId eventTimeNs values msgId =>
          change (state.store.append externals schema entityId eventTimeNs values
            msgId).2.dateCache.lookup day = _
          rw [append_dateCache, included]
          unfold DatasetCall.datedTime
          dsimp only
          cases columnPlanFor externals.hashName schema includeMsgId with
          | error error =>
              rw [ih day]
              simp
          | ok plan =>
              have known := ih (eventTimeNs / dayNs)
              unfold ColumnStore.getDateStr
              dsimp only
              cases cached : state.store.dateCache.lookup (eventTimeNs / dayNs) with
              | some text =>
                  rw [cached] at known
                  rw [Option.map_some, Option.getD_some, ih day]
                  by_cases same : eventTimeNs / dayNs = day
                  · rw [← same]
                    cases earlier : firstOfDay externals includeMsgId before (eventTimeNs / dayNs) with
                    | none =>
                        rw [earlier] at known
                        cases known
                    | some first => rfl
                  · cases externals.dateString eventTimeNs <;> simp [Option.filter_some, same]
              | none =>
                  rw [cached] at known
                  have fresh : firstOfDay externals includeMsgId before (eventTimeNs / dayNs) = none := by
                    cases earlier : firstOfDay externals includeMsgId before (eventTimeNs / dayNs) with
                    | none => rfl
                    | some first =>
                        obtain ⟨_, text, dated⟩ := firstOfDay_dated earlier
                        rw [earlier, Option.bind_some, dated] at known
                        cases known
                  cases dated : externals.dateString eventTimeNs with
                  | none =>
                      rw [Option.map_none, Option.map_none, Option.map_none, Option.getD_none, ih day]
                      simp
                  | some text =>
                      rw [Option.map_some, Option.map_some, Option.map_some, Option.getD_some,
                        List.lookup_cons]
                      by_cases same : eventTimeNs / dayNs = day
                      · subst same
                        rw [fresh, beq_self_eq_true]
                        simp [Option.filter_some, dated]
                      · have different : (day == eventTimeNs / dayNs) = false :=
                          beq_eq_false_iff_ne.mpr (Ne.symm same)
                        rw [different, ih day]
                        simp [Option.filter_some, same]

/-- A cached date stays. -/
theorem perform_cached (state : DatasetState) (call : DatasetCall) {day : Int} {text : String}
    (cached : state.store.dateCache.lookup day = some text) :
    (state.perform externals call).store.dateCache.lookup day = some text := by
  cases call with
  | flush outcome => exact cached
  | append schema entityId eventTimeNs values msgId =>
      change (state.store.append externals schema entityId eventTimeNs values
        msgId).2.dateCache.lookup day = _
      rw [append_dateCache]
      split
      · exact cached
      · unfold ColumnStore.getDateStr
        cases known : state.store.dateCache.lookup (eventTimeNs / dayNs) with
        | some other => exact cached
        | none =>
            cases externals.dateString eventTimeNs with
            | none => exact cached
            | some other =>
                have different : (day == eventTimeNs / dayNs) = false := by
                  rw [beq_eq_false_iff_ne]
                  rintro rfl
                  rw [known] at cached
                  cases cached
                rw [Option.map_some, Option.map_some, Option.getD_some, List.lookup_cons, different]
                exact cached

theorem run_cached (calls : List DatasetCall) {state : DatasetState} {day : Int} {text : String}
    (cached : state.store.dateCache.lookup day = some text) :
    (calls.foldl (DatasetState.perform externals) state).store.dateCache.lookup day = some text := by
  induction calls generalizing state with
  | nil => exact cached
  | cons call rest ih => exact ih (perform_cached state call cached)

/-- An append that returns has its date in the cache. -/
theorem append_caches {store : ColumnStore} {schema : FeatureSchema} {entityId : String}
    {eventTimeNs : Int} {values : List WireValue} {msgId : List UInt8}
    (returned : (store.append externals schema entityId eventTimeNs values msgId).1 = .ok ()) :
    (store.append externals schema entityId eventTimeNs values msgId).2.dateCache.lookup
        (eventTimeNs / dayNs) =
      some (((store.getDateStr externals eventTimeNs).map Prod.fst).getD "") := by
  rw [append_dateCache]
  unfold ColumnStore.append at returned
  cases planned : columnPlanFor externals.hashName schema store.includeMsgId with
  | error error =>
      rw [planned] at returned
      cases returned
  | ok plan =>
      rw [planned] at returned
      unfold ColumnStore.getDateStr at returned ⊢
      cases known : store.dateCache.lookup (eventTimeNs / dayNs) with
      | some text => exact known
      | none =>
          rw [known] at returned
          cases dated : externals.dateString eventTimeNs with
          | none =>
              rw [dated] at returned
              cases returned
          | some text => simp

theorem record_time (schema : FeatureSchema) (row : StoredRow) :
    recordTime (row.record externals.hashName schema) = some row.eventTimeNs := by
  simp [recordTime, StoredRow.record, List.lookup_cons]

/-- The partition of an appended row is the cached date of its day, at every later time. -/
theorem appendedRows_cached (calls : List DatasetCall) {state : DatasetState}
    {row : BucketKey × Record} (member : row ∈ appendedRows externals state calls) :
    ∃ time, recordTime row.2 = some time ∧ some time ∈ calls.map DatasetCall.eventTime ∧
      (calls.foldl (DatasetState.perform externals) state).store.dateCache.lookup (time / dayNs) =
        some row.1.2 := by
  induction calls generalizing state with
  | nil => exact absurd member List.not_mem_nil
  | cons call rest ih =>
      rcases List.mem_append.mp member with now | later
      · cases call with
        | flush outcome => exact absurd now List.not_mem_nil
        | append schema entityId eventTimeNs values msgId =>
            rw [DatasetState.appended] at now
            split at now
            · exact absurd now List.not_mem_nil
            · rename_i returned
              obtain rfl := List.mem_singleton.mp now
              exact ⟨eventTimeNs, record_time schema _, List.mem_cons_self,
                run_cached rest (append_caches returned)⟩
      · obtain ⟨time, recorded, listed, cached⟩ := ih later
        exact ⟨time, recorded, List.mem_cons_of_mem _ listed, cached⟩

end Cache

/-- A writer prunes soundly exactly when every stored row is late in its day as the first time is. -/
theorem pruning_sound_iff (externals : Externals) (dates : externals.dateString = nsToDateStr)
    (includeMsgId : Bool) (calls : List DatasetCall)
    (supported : ∀ call ∈ calls, ∀ time, call.eventTime = some time → nsToDateStr time ≠ none) :
    (∀ row ∈ sealedRows (runDataset externals includeMsgId calls).files, ∀ time,
        recordTime row.2 = some time → InEveryWindow row.1.2 time) ↔
      ∀ row ∈ sealedRows (runDataset externals includeMsgId calls).files, ∀ time,
        recordTime row.2 = some time → ∃ first,
          firstOfDay externals includeMsgId calls (time / dayNs) = some first ∧
            (LateInDay time ↔ LateInDay first) := by
  have each : ∀ row ∈ sealedRows (runDataset externals includeMsgId calls).files, ∀ time,
      recordTime row.2 = some time →
        (InEveryWindow row.1.2 time ↔ ∃ first,
          firstOfDay externals includeMsgId calls (time / dayNs) = some first ∧
            (LateInDay time ↔ LateInDay first)) := by
    intro row stored time recorded
    obtain ⟨other, same, listed, cached⟩ :=
      appendedRows_cached calls (runDataset_known (List.mem_append_left _ stored))
    rw [recorded] at same
    obtain rfl := Option.some.inj same
    change (runDataset externals includeMsgId calls).store.dateCache.lookup _ = _ at cached
    rw [runDataset_cachesFirst calls (time / dayNs), dates] at cached
    obtain ⟨first, found, firstDate⟩ := Option.bind_eq_some_iff.mp cached
    obtain ⟨call, member, asked⟩ := List.mem_map.mp listed
    obtain ⟨own, ownDate⟩ := Option.ne_none_iff_exists'.mp (supported call member time asked)
    obtain ⟨sameDay, _⟩ := firstOfDay_dated found
    rw [inEveryWindow_iff ownDate, nsToDateStr_eq firstDate ownDate, dayOrdinal_eq, dayOrdinal_eq,
      sameDay]
    constructor
    · intro equal
      refine ⟨first, found, ?_⟩
      by_cases late : LateInDay time <;> by_cases firstLate : LateInDay first <;>
        simp [late, firstLate] at equal ⊢
    · rintro ⟨other, there, agree⟩
      rw [found] at there
      obtain rfl := Option.some.inj there
      by_cases late : LateInDay time
      · rw [if_pos late, if_pos (agree.mp late)]
      · rw [if_neg late, if_neg fun firstLate => late (agree.mpr firstLate)]
  constructor
  · intro every row stored time recorded
    exact (each row stored time recorded).mp (every row stored time recorded)
  · intro every row stored time recorded
    exact (each row stored time recorded).mpr (every row stored time recorded)

/-- The sample conversions with the dates of the interpreter. -/
def sampleDated : Externals := { sampleArrays with dateString := nsToDateStr }

/-- The first event of a day comes a nanosecond before midnight, the second one at noon. -/
def sampleLateCalls : List DatasetCall :=
  [.append sampleSchema "a" (dayNs - 1) [.float 0] [49, 45, 48],
    .append sampleSchema "b" (dayNs / 2) [.float 0] [50, 45, 48], .flush fun _ => .renamed]

theorem sampleLateCalls_supported :
    ∀ call ∈ sampleLateCalls, ∀ time, call.eventTime = some time → nsToDateStr time ≠ none := by
  intro call member time asked
  simp only [sampleLateCalls, List.mem_cons, List.not_mem_nil, or_false] at member
  rcases member with rfl | rfl | rfl
  · obtain rfl := Option.some.inj asked
    decide
  · obtain rfl := Option.some.inj asked
    decide
  · cases asked

theorem pruning_sound_iff_sample :
    (∀ row ∈ sealedRows (runDataset sampleDated true sampleLateCalls).files, ∀ time,
        recordTime row.2 = some time → InEveryWindow row.1.2 time) ↔
      ∀ row ∈ sealedRows (runDataset sampleDated true sampleLateCalls).files, ∀ time,
        recordTime row.2 = some time → ∃ first,
          firstOfDay sampleDated true sampleLateCalls (time / dayNs) = some first ∧
            (LateInDay time ↔ LateInDay first) :=
  pruning_sound_iff sampleDated rfl true sampleLateCalls sampleLateCalls_supported

/-- The noon of a day lies in the partition of the next day, outside the window of its own time. -/
theorem pruning_drops_noon :
    (∀ call ∈ sampleLateCalls, ∀ time, call.eventTime = some time → nsToDateStr time ≠ none) ∧
      ¬ ∀ row ∈ sealedRows (runDataset sampleDated true sampleLateCalls).files, ∀ time,
        recordTime row.2 = some time → InEveryWindow row.1.2 time := by
  refine ⟨sampleLateCalls_supported, ?_⟩
  intro every
  have rows : (sealedRows (runDataset sampleDated true sampleLateCalls).files).map
      (fun row => (row.1.2, recordTime row.2)) =
      [("1970-01-02", some (dayNs - 1)), ("1970-01-02", some (dayNs / 2))] := by
    decide +kernel
  have listed : ("1970-01-02", some (dayNs / 2)) ∈
      (sealedRows (runDataset sampleDated true sampleLateCalls).files).map
        fun row => (row.1.2, recordTime row.2) := by
    rw [rows]
    decide
  obtain ⟨row, member, same⟩ := List.mem_map.mp listed
  obtain ⟨date, recorded⟩ := Prod.mk.inj same
  have noon : nsToDateStr (dayNs / 2) = some "1970-01-01" := by decide
  have inside := every row member (dayNs / 2) recorded
  rw [date, inEveryWindow_iff noon] at inside
  exact absurd inside (by decide)

end Quorin
