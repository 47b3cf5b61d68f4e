import Quorin.Proof.Consumer.DurableRuns
import Quorin.Proof.Consumer.StreamOrder
import Quorin.Proof.Offline.BufferConservation

namespace Quorin

/-- The text that the writer keeps for a day is the date text of a produced time of that day. -/
def DayText (externals : Externals) (produced : List StreamEntry) (day : Int) (text : String) : Prop :=
  ∃ entry ∈ produced, ∃ time, entry.fields.eventTime.bind parseInt = some time ∧
    time / dayNs = day ∧ externals.dateString time = some text

/-- The row is the row of a produced message, in a partition that is named after its day. -/
structure TracedRow (deployment : Deployment) (produced : List StreamEntry) (key : BucketKey)
    (row : StoredRow) : Prop where
  message : ∃ entry ∈ produced, RowOf deployment.externals deployment.schemas
    deployment.includeMsgId entry.id entry.fields key row
  dated : DayText deployment.externals produced (row.eventTimeNs / dayNs) key.2
  /-- The segment takes no empty id, and it takes a row before the writer does. -/
  named : row.entityId ≠ ""
  planned : ∃ plan, arrowPlanFor deployment.externals.hashName key.1 = .ok plan

/-- Every row and every cached text of a writer comes from a produced message. -/
structure OfflineStore.Traced (deployment : Deployment) (produced : List StreamEntry)
    (store : OfflineStore) : Prop where
  rows : ∀ key row, store.Buffered key row → TracedRow deployment produced key row
  texts : ∀ entry ∈ store.dateCache, DayText deployment.externals produced entry.1 entry.2

/-- Every sealed row and every row of the live writer comes from a produced message. -/
structure World.Traced (deployment : Deployment) (world : World) : Prop where
  files : ∀ key row, SealedIn world.files key row → TracedRow deployment world.produced key row
  run : ∀ run, world.run = some run → run.consumer.offline.Traced deployment world.produced

section Grown

variable {deployment : Deployment} {produced more : List StreamEntry}
  (grown : ∀ entry ∈ produced, entry ∈ more)

include grown

theorem DayText.mono {externals : Externals} {day : Int} {text : String}
    (dated : DayText externals produced day text) : DayText externals more day text := by
  obtain ⟨entry, member, time⟩ := dated
  exact ⟨entry, grown entry member, time⟩

theorem TracedRow.mono {key : BucketKey} {row : StoredRow}
    (traced : TracedRow deployment produced key row) : TracedRow deployment more key row := by
  obtain ⟨entry, member, rowOf⟩ := traced.message
  exact ⟨⟨entry, grown entry member, rowOf⟩, traced.dated.mono grown, traced.named, traced.planned⟩

theorem OfflineStore.Traced.mono {store : OfflineStore} (traced : store.Traced deployment produced) :
    store.Traced deployment more :=
  ⟨fun key row buffered => (traced.rows key row buffered).mono grown,
    fun entry member => (traced.texts entry member).mono grown⟩

end Grown

section Appends

variable {externals : Externals} {store : OfflineStore}

/-- The text of a date is cached under its day, or it is the date text of the time. -/
theorem getDateStr_text {eventTimeNs : Int} {date : String} {dateCache : List (Int × String)}
    (dated : store.getDateStr externals eventTimeNs = some (date, dateCache)) :
    ((eventTimeNs / dayNs, date) ∈ store.dateCache ∨ externals.dateString eventTimeNs = some date) ∧
      ∀ entry ∈ dateCache, entry ∈ store.dateCache ∨
        entry.1 = eventTimeNs / dayNs ∧ externals.dateString eventTimeNs = some entry.2 := by
  unfold OfflineStore.getDateStr at dated
  split at dated
  · rename_i found
    obtain ⟨rfl, rfl⟩ := Prod.mk.inj (Option.some.inj dated)
    exact ⟨Or.inl (lookup_mem found), fun entry member => Or.inl member⟩
  · obtain ⟨text, own, same⟩ := Option.map_eq_some_iff.mp dated
    obtain ⟨rfl, rfl⟩ := Prod.mk.inj same
    refine ⟨Or.inr own, ?_⟩
    intro entry member
    rcases List.mem_cons.mp member with rfl | older
    · exact Or.inr ⟨rfl, own⟩
    · exact Or.inl older

/-- A text behind an append was cached before, or it is the text of the appended time. -/
theorem append_texts (sound : store.Sound externals) (schema : FeatureSchema) (entityId : String)
    (eventTimeNs : Int) (values : List WireValue) (msgId : List UInt8) :
    ∀ entry ∈ (store.append externals schema entityId eventTimeNs values msgId).2.dateCache,
      entry ∈ store.dateCache ∨
        entry.1 = eventTimeNs / dayNs ∧ externals.dateString eventTimeNs = some entry.2 := by
  intro entry member
  rcases append_cases sound schema entityId eventTimeNs values msgId with
    ⟨error, same⟩ | ⟨date, dateCache, bucket, dated, _, ⟨error, same⟩ | ⟨parsed, _, _, same⟩⟩
  · rw [same] at member
    exact Or.inl member
  · rw [same] at member
    exact (getDateStr_text dated).2 entry member
  · rw [same] at member
    exact (getDateStr_text dated).2 entry member

/-- A row behind an append was buffered before, or it is the appended row under its date. -/
theorem append_rows (sound : store.Sound externals) {schema : FeatureSchema} {entityId : String}
    {eventTimeNs : Int} {values : List WireValue} {msgId : List UInt8} {key : BucketKey}
    {row : StoredRow}
    (buffered : (store.append externals schema entityId eventTimeNs values msgId).2.Buffered key row) :
    store.Buffered key row ∨ ∃ date dateCache bucket parsed,
      store.getDateStr externals eventTimeNs = some (date, dateCache) ∧ key = (schema, date) ∧
      (∃ plan, arrowPlanFor externals.hashName schema = .ok plan) ∧
      bucket.msgIdCols.isSome = store.includeMsgId ∧ parseMsgId bucket msgId = .ok parsed ∧
      row = ⟨entityId, eventTimeNs, values, if store.includeMsgId then some parsed else none⟩ := by
  have before : ∀ {date : String} {bucket : Bucket} {dateCache : List (Int × String)},
      OpenBucket externals store schema date bucket →
      ({ store with dateCache := dateCache }.withBucket (schema, date) bucket).Buffered key row →
      store.Buffered key row := by
    intro date bucket dateCache opened placed
    obtain ⟨held, member, inside⟩ := placed
    rcases setBucket_mem.mp member with ⟨rfl, rfl⟩ | ⟨_, earlier⟩
    · exact opened.origin row inside
    · exact ⟨held, earlier, inside⟩
  rcases append_cases sound schema entityId eventTimeNs values msgId with
    ⟨error, same⟩ | ⟨date, dateCache, bucket, dated, opened, ⟨error, same⟩ | ⟨parsed, count, text, same⟩⟩
  · rw [same] at buffered
    exact Or.inl buffered
  · rw [same] at buffered
    exact Or.inl (before opened buffered)
  · rw [same] at buffered
    obtain ⟨held, member, inside⟩ := buffered
    rcases setBucket_mem.mp member with ⟨rfl, rfl⟩ | ⟨_, earlier⟩
    · rw [push_rows bucket entityId eventTimeNs values parsed count] at inside
      rcases List.mem_append.mp inside with old | new
      · exact Or.inl (opened.origin row old)
      · refine Or.inr ⟨date, dateCache, bucket, parsed, dated, rfl,
          opened.planned.imp fun _ => And.left, opened.ids, text, ?_⟩
        rw [List.mem_singleton.mp new, ← opened.ids]
        cases bucket.msgIdCols <;> rfl
    · exact Or.inl (before opened ⟨held, earlier, inside⟩)

end Appends

section Applies

variable {externals : Externals} {consumer : Consumer} {shared : SharedMemory} {msgId : MsgId}

/-- One call of `_apply` leaves the writer alone or appends the decoded message to it. -/
theorem apply_offline (fields : Option MessageFields) :
    (apply externals consumer shared msgId fields).2.1.offline = consumer.offline ∨
      ∃ held message eventTimeNs values, fields = some held ∧
        decodeMessage externals consumer.schemas held = .ok (some message) ∧
        message.entityId ≠ "" ∧
        held.eventTime.bind parseInt = some eventTimeNs ∧ message.values.items = some values ∧
        (apply externals consumer shared msgId fields).2.1.offline =
          (consumer.offline.append externals message.schema message.entityId eventTimeNs values
            msgId.bytes).2 := by
  unfold apply
  split
  · exact Or.inl rfl
  · rename_i held
    split
    · exact Or.inl rfl
    · exact Or.inl rfl
    · rename_i prepared rowBuffers ready
      obtain ⟨decoded, _, requested⟩ := prepareInsert_some (congrArg Prod.fst ready)
      dsimp only
      unfold finishApply
      split
      · exact Or.inl rfl
      · dsimp only
        split
        · exact Or.inl rfl
        · rename_i inserted
          split
          · rename_i eventTimeNs values time items
            refine Or.inr ⟨held, prepared.message, eventTimeNs, values, rfl, decoded, ?_, time, items, ?_⟩
            · intro empty
              rw [requested, empty] at inserted
              cases inserted
            · split <;> rfl
          · exact Or.inl rfl

/-- One call of `_apply` on a produced message keeps the writer traced. -/
theorem apply_traced {deployment : Deployment} {produced : List StreamEntry}
    {fields : Option MessageFields} (sound : consumer.offline.Sound deployment.externals)
    (included : consumer.offline.includeMsgId = deployment.includeMsgId)
    (schemas : consumer.schemas = deployment.schemas)
    (known : ∀ held, fields = some held → ⟨msgId, held⟩ ∈ produced)
    (traced : consumer.offline.Traced deployment produced) :
    (apply deployment.externals consumer shared msgId fields).2.1.offline.Traced deployment
      produced := by
  rcases @apply_offline deployment.externals consumer shared msgId fields with
    same | ⟨held, message, eventTimeNs, values, present, decoded, nonempty, time, items, same⟩
  · rw [same]
    exact traced
  · have entry := known held present
    obtain ⟨named, served, entityId, unpacked⟩ := decodeMessage_some decoded
    rw [schemas] at served
    rw [same]
    constructor
    · intro key row buffered
      rcases append_rows sound buffered with
        before | ⟨date, dateCache, bucket, parsed, dated, rfl, planned, ids, text, rfl⟩
      · exact traced.rows key row before
      · have numbers := parseMsgId_bytes text
        rw [ids] at numbers
        refine ⟨⟨_, entry, ⟨message.name, named, served⟩, entityId, time, ?_, ?_⟩, ?_, nonempty,
          planned⟩
        · rw [unpacked]
          exact items
        · rw [numbers, included]
          cases deployment.includeMsgId <;> rfl
        · rcases (getDateStr_text dated).1 with cached | own
          · exact traced.texts _ cached
          · exact ⟨_, entry, eventTimeNs, time, rfl, own⟩
    · intro cached member
      rcases append_texts sound message.schema message.entityId eventTimeNs values msgId.bytes cached
        member with before | ⟨day, own⟩
      · exact traced.texts cached before
      · exact ⟨_, entry, eventTimeNs, time, day.symm, own⟩

end Applies

section Flushes

variable {deployment : Deployment} {produced : List StreamEntry} {consumer : Consumer}
  (traced : consumer.offline.Traced deployment produced) (outcome : BucketKey → WriteOutcome)

include traced

/-- The rows that a flush seals are traced. -/
theorem OfflineStore.Traced.sealed {key : BucketKey} {row : StoredRow}
    (stored : SealedIn (consumer.flush deployment outcome).2.2 key row) :
    TracedRow deployment produced key row := by
  obtain ⟨file, member, rfl, inside⟩ := stored
  have listed : (file.key, row) ∈ consumer.offline.rows := by
    apply (@flush_rows deployment.externals consumer.offline outcome).2
    exact List.mem_append_left _ (List.mem_flatMap.mpr ⟨file, member, List.mem_map_of_mem inside⟩)
  obtain ⟨⟨key, bucket⟩, held, named⟩ := List.mem_flatMap.mp listed
  obtain ⟨other, found, same⟩ := List.mem_map.mp named
  obtain ⟨rfl, rfl⟩ := Prod.mk.inj same
  exact traced.rows _ _ ⟨bucket, held, found⟩

/-- The writer behind a flush is traced. -/
theorem OfflineStore.Traced.flushed :
    (consumer.flush deployment outcome).2.1.offline.Traced deployment produced := by
  refine ⟨?_, traced.texts⟩
  intro key row buffered
  obtain ⟨bucket, member, inside⟩ := buffered
  have listed : (key, row) ∈ consumer.offline.rows := by
    apply (@flush_rows deployment.externals consumer.offline outcome).2
    exact List.mem_append_right _ (List.mem_flatMap.mpr ⟨_, member, List.mem_map_of_mem inside⟩)
  obtain ⟨⟨other, held⟩, there, named⟩ := List.mem_flatMap.mp listed
  obtain ⟨found, known, same⟩ := List.mem_map.mp named
  obtain ⟨rfl, rfl⟩ := Prod.mk.inj same
  exact traced.rows _ _ ⟨held, there, known⟩

end Flushes

/-- What one step does to the sealed files and to the writer of the live process. -/
inductive WriterEffect (deployment : Deployment) (world after : World) : Prop where
  | fresh (files : after.files = world.files) (empty : ∀ next, after.run = some next →
      next.consumer.offline = .empty deployment.includeMsgId)
  | kept {run next : Run} (live : world.run = some run) (now : after.run = some next)
      (files : after.files = world.files) (offline : next.consumer.offline = run.consumer.offline)
  | flushed {run : Run} (live : world.run = some run) (outcome : BucketKey → WriteOutcome)
      (part : List SealedFile) (written : part ⊆ (run.consumer.flush deployment outcome).2.2)
      (files : after.files = world.files ++ part) (offline : ∀ next, after.run = some next →
        next.consumer.offline = (run.consumer.flush deployment outcome).2.1.offline)
  | applied {run next : Run} {origin : BatchOrigin} {msgId : MsgId} {fields : Option MessageFields}
      {rest : Batch} {before : List MsgId} (live : world.run = some run)
      (now : after.run = some next) (files : after.files = world.files)
      (phase : run.reader = .applying origin ((msgId, fields) :: rest) before)
      (offline : next.consumer.offline =
        (apply deployment.externals run.consumer world.shared msgId fields).2.1.offline)

section Effects

variable {deployment : Deployment} {world after : World}

/-- The live process flushes and goes on. -/
theorem WriterEffect.flushing {run next : Run} (live : world.run = some run)
    (now : after.run = some next) (outcome : BucketKey → WriteOutcome)
    (files : after.files = world.files ++ (run.consumer.flush deployment outcome).2.2)
    (offline : next.consumer.offline = (run.consumer.flush deployment outcome).2.1.offline) :
    WriterEffect deployment world after := by
  refine .flushed live outcome _ (List.Subset.refl _) files ?_
  intro other same
  rw [now] at same
  obtain rfl := Option.some.inj same
  exact offline

theorem EnvironmentStep.writerEffect (step : EnvironmentStep deployment world after) :
    WriterEffect deployment world after := by
  have run : after.run = world.run := by cases step <;> rfl
  have files : after.files = world.files := by cases step <;> rfl
  cases live : world.run with
  | none => exact .fresh files fun next now => by rw [run, live] at now; cases now
  | some held => exact .kept live (run.trans live) files rfl

theorem LifecycleStep.writerEffect (step : LifecycleStep deployment world after) :
    WriterEffect deployment world after := by
  cases step with
  | start none opened =>
      refine .fresh rfl ?_
      intro next now
      obtain rfl := Option.some.inj now
      rfl
  | rerun live ended => exact .kept live rfl rfl rfl
  | exit live ended => exact .fresh rfl fun next now => by cases now
  | crash => exact .fresh rfl fun next now => by cases now
  | crashInInsert live applying count early => exact .fresh rfl fun next now => by cases now
  | crashInFlush live outcome count =>
      exact .flushed live outcome _ (List.take_subset _ _) rfl fun next now => by cases now
  | requestStop live => exact .kept live rfl rfl rfl

theorem ReaderStep.writerEffect (step : ReaderStep deployment world after) :
    WriterEffect deployment world after := by
  cases step with
  | checkFlushed live phase paused unsettled outcome flushed =>
      exact .flushing live rfl outcome rfl rfl
  | checkNotFlushed live phase paused unsettled outcome failed =>
      exact .flushing live rfl outcome rfl rfl
  | parkedRefresh live phase => exact .kept live live rfl rfl
  | resume live phase clear =>
      exact .kept live rfl rfl
        (reopenSegments_frame deployment.externals world.current world.shared _ _).1
  | applyReturns live phase returned =>
      exact .applied live rfl rfl phase (by rw [returned])
  | applyRaises live phase raised =>
      exact .applied live rfl rfl phase (by rw [raised]; rfl)
  | _ =>
      refine .kept (by assumption) rfl rfl ?_
      rfl

theorem CleanupStep.writerEffect (step : CleanupStep deployment world after) :
    WriterEffect deployment world after := by
  cases step with
  | flushed live phase alive unsettled outcome succeeded => exact .flushing live rfl outcome rfl rfl
  | notFlushed live phase alive unsettled outcome failed => exact .flushing live rfl outcome rfl rfl
  | closed live phase outcome deleted => exact .flushing live rfl outcome rfl rfl
  | _ =>
      refine .kept (by assumption) rfl rfl ?_
      rfl

theorem FlusherStep.writerEffect (step : FlusherStep deployment world after) :
    WriterEffect deployment world after := by
  cases step with
  | flushed live turn phase unsettled outcome succeeded => exact .flushing live rfl outcome rfl rfl
  | notFlushed live turn phase unsettled outcome failed => exact .flushing live rfl outcome rfl rfl
  | _ =>
      refine .kept (by assumption) rfl rfl ?_
      rfl

theorem WorldStep.writerEffect (step : WorldStep deployment world after) :
    WriterEffect deployment world after := by
  cases step with
  | environment step => exact step.writerEffect
  | consumer step =>
      cases step with
      | lifecycle step => exact step.writerEffect
      | reader step => exact step.writerEffect
      | cleanup step => exact step.writerEffect
      | flusher step => exact step.writerEffect

/-- A step keeps every row traced. -/
theorem WriterEffect.traced (effect : WriterEffect deployment world after)
    (grown : ∀ entry ∈ world.produced, entry ∈ after.produced)
    (durable : Durable deployment world) (traced : world.Traced deployment) :
    after.Traced deployment := by
  have sameFiles : after.files = world.files → ∀ key row, SealedIn after.files key row →
      TracedRow deployment after.produced key row := by
    intro same key row stored
    rw [same] at stored
    exact (traced.files key row stored).mono grown
  cases effect with
  | fresh files empty =>
      refine ⟨sameFiles files, ?_⟩
      intro next now
      rw [empty next now]
      constructor
      · intro key row buffered
        obtain ⟨bucket, member, _⟩ := buffered
        cases member
      · intro entry member
        cases member
  | kept live now files offline =>
      refine ⟨sameFiles files, ?_⟩
      intro other same
      rw [now] at same
      obtain rfl := Option.some.inj same
      rw [offline]
      exact (traced.run _ live).mono grown
  | flushed live outcome part written files offline =>
      have before := traced.run _ live
      constructor
      · intro key row stored
        rw [files] at stored
        obtain ⟨file, member, named, inside⟩ := stored
        rcases List.mem_append.mp member with old | new
        · exact (traced.files key row ⟨file, old, named, inside⟩).mono grown
        · exact (before.sealed outcome ⟨file, written new, named, inside⟩).mono grown
      · intro next now
        rw [offline next now]
        exact (before.flushed outcome).mono grown
  | @applied run next origin msgId fields rest others live now files phase offline =>
      refine ⟨sameFiles files, ?_⟩
      intro other same
      rw [now] at same
      obtain rfl := Option.some.inj same
      have held := durable.run _ live
      rw [offline]
      refine (apply_traced held.sound held.included held.schemas ?_ (traced.run _ live)).mono grown
      intro message present
      subst present
      exact held.batch msgId message (by rw [phase]; exact List.mem_cons_self)

/-- In a run that starts with an empty dataset every row is the row of a produced message. -/
theorem traced_of_steps {start : World} (initial : start.Initial deployment)
    (fresh : start.files = [])
    (steps : Relation.ReflTransGen (WorldStep deployment) start world) : world.Traced deployment := by
  induction steps with
  | refl =>
      constructor
      · intro key row stored
        obtain ⟨file, member, _⟩ := stored
        rw [fresh] at member
        cases member
      · intro run live
        rw [initial.run] at live
        cases live
  | tail before step ih =>
      exact step.writerEffect.traced step.streamEffect.grown
        (durable_of_steps initial.durable before) ih

end Effects

end Quorin
