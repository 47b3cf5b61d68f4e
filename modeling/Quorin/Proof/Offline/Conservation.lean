import Quorin.Proof.Offline.StoredRows

namespace Quorin

/-- A row waits in the bucket of its key. -/
def OfflineStore.Buffered (store : OfflineStore) (key : BucketKey) (row : StoredRow) : Prop :=
  ∃ bucket, (key, bucket) ∈ store.buffers ∧ row ∈ bucket.rows

/-- The rows that wait in the buffers of the writer, with their keys. -/
def OfflineStore.rows (store : OfflineStore) : List (BucketKey × StoredRow) :=
  store.buffers.flatMap fun entry => entry.2.rows.map fun row => (entry.1, row)

/-- A row is in a sealed file of its key. -/
def SealedIn (files : List SealedFile) (key : BucketKey) (row : StoredRow) : Prop :=
  ∃ file ∈ files, file.key = key ∧ row ∈ file.bucket.rows

theorem SealedIn.append_left {files : List SealedFile} {key : BucketKey} {row : StoredRow}
    (held : SealedIn files key row) (more : List SealedFile) : SealedIn (files ++ more) key row := by
  obtain ⟨file, member, same, inside⟩ := held
  exact ⟨file, List.mem_append_left _ member, same, inside⟩

theorem SealedIn.append_right {more : List SealedFile} {key : BucketKey} {row : StoredRow}
    (held : SealedIn more key row) (files : List SealedFile) : SealedIn (files ++ more) key row := by
  obtain ⟨file, member, same, inside⟩ := held
  exact ⟨file, List.mem_append_right _ member, same, inside⟩

/-- Every bucket has the columns of its plan, and id columns when they are configured. -/
def OfflineStore.Sound (externals : Externals) (store : OfflineStore) : Prop :=
  ∀ entry ∈ store.buffers, entry.2.msgIdCols.isSome = store.includeMsgId ∧
    ∃ plan, arrowPlanFor externals.hashName entry.1.1 = .ok plan ∧
      entry.2.wireLists.length = plan.wireTypes.length

theorem OfflineStore.empty_sound (externals : Externals) (includeMsgId : Bool) :
    (OfflineStore.empty includeMsgId).Sound externals := by
  intro entry member
  cases member

section Lookup

variable {α β : Type} [BEq α] [LawfulBEq α] {entries : List (α × β)} {buffers : List (BucketKey × Bucket)}

theorem lookup_mem {key : α} {value : β} (found : entries.lookup key = some value) :
    (key, value) ∈ entries := by
  obtain ⟨before, after, split, _⟩ := List.lookup_eq_some_iff.mp found
  rw [split]
  exact List.mem_append_right _ List.mem_cons_self

theorem mem_lookup (distinct : (entries.map Prod.fst).Nodup) {key : α} {value : β}
    (member : (key, value) ∈ entries) : entries.lookup key = some value := by
  induction entries with
  | nil => cases member
  | cons entry rest ih =>
      rw [List.map_cons, List.nodup_cons] at distinct
      rcases List.mem_cons.mp member with rfl | later
      · simp
      · have different : ¬ key == entry.1 := by
          intro same
          have keyMember : key ∈ rest.map Prod.fst := List.mem_map.mpr ⟨_, later, rfl⟩
          rw [eq_of_beq same] at keyMember
          exact distinct.1 keyMember
        rw [List.lookup_cons]
        simp only [different]
        exact ih distinct.2 later

theorem setBucket_mem {key other : BucketKey} {bucket held : Bucket} :
    (other, held) ∈ setBucket buffers key bucket ↔
      (other = key ∧ held = bucket) ∨ (other ≠ key ∧ (other, held) ∈ buffers) := by
  unfold setBucket
  split
  · rename_i present
    rw [List.mem_map]
    constructor
    · rintro ⟨entry, member, same⟩
      by_cases here : entry.1 = key
      · rw [if_pos here] at same
        obtain ⟨rfl, rfl⟩ := Prod.mk.inj same
        exact Or.inl ⟨rfl, rfl⟩
      · rw [if_neg here] at same
        subst same
        exact Or.inr ⟨here, member⟩
    · rintro (⟨rfl, rfl⟩ | ⟨different, member⟩)
      · obtain ⟨entry, member, same⟩ := List.mem_map.mp present
        exact ⟨entry, member, by rw [if_pos same]⟩
      · exact ⟨(other, held), member, by rw [if_neg different]⟩
  · rename_i absent
    rw [List.mem_append, List.mem_singleton]
    constructor
    · rintro (member | same)
      · refine Or.inr ⟨?_, member⟩
        rintro rfl
        exact absent (List.mem_map.mpr ⟨_, member, rfl⟩)
      · obtain ⟨rfl, rfl⟩ := Prod.mk.inj same
        exact Or.inl ⟨rfl, rfl⟩
    · rintro (⟨rfl, rfl⟩ | ⟨_, member⟩)
      · exact Or.inr rfl
      · exact Or.inl member

end Lookup

section WithBucket

variable {externals : Externals} {store : OfflineStore}

/-- A bucket with more rows in the place of its key keeps every buffered row. -/
theorem withBucket_buffered {key : BucketKey} {bucket : Bucket}
    (grown : ∀ held, (key, held) ∈ store.buffers → ∀ row ∈ held.rows, row ∈ bucket.rows)
    {other : BucketKey} {row : StoredRow} (buffered : store.Buffered other row) :
    (store.withBucket key bucket).Buffered other row := by
  obtain ⟨held, member, inside⟩ := buffered
  by_cases same : other = key
  · subst same
    exact ⟨bucket, setBucket_mem.mpr (Or.inl ⟨rfl, rfl⟩), grown held member row inside⟩
  · exact ⟨held, setBucket_mem.mpr (Or.inr ⟨same, member⟩), inside⟩

theorem withBucket_sound {key : BucketKey} {bucket : Bucket} (sound : store.Sound externals)
    (ids : bucket.msgIdCols.isSome = store.includeMsgId) {plan : ArrowPlan}
    (planned : arrowPlanFor externals.hashName key.1 = .ok plan)
    (width : bucket.wireLists.length = plan.wireTypes.length) :
    (store.withBucket key bucket).Sound externals := by
  intro entry member
  rcases setBucket_mem.mp member with ⟨same, held⟩ | ⟨_, before⟩
  · rw [same, held]
    exact ⟨ids, plan, planned, width⟩
  · exact sound entry before

/-- A bucket in its own place, or an empty one behind the others, adds no row. -/
theorem withBucket_rows {key : BucketKey} {bucket : Bucket}
    (same : ∀ held, (key, held) ∈ store.buffers → held = bucket)
    (fresh : key ∉ store.buffers.map Prod.fst → bucket.rows = []) :
    (store.withBucket key bucket).rows = store.rows := by
  unfold OfflineStore.rows OfflineStore.withBucket setBucket
  dsimp only
  split
  · congr 1
    refine (List.map_congr_left ?_).trans (List.map_id _)
    rintro ⟨other, held⟩ member
    by_cases here : other = key
    · subst here
      rw [if_pos rfl, same held member]
      rfl
    · rw [if_neg here]
      rfl
  · rename_i absent
    rw [List.flatMap_append, List.flatMap_singleton, fresh absent]
    simp

end WithBucket

section Append

variable {externals : Externals} {store : OfflineStore}

/-- The bucket that an append works on. -/
structure OpenBucket (externals : Externals) (store : OfflineStore) (schema : FeatureSchema)
    (date : String) (bucket : Bucket) : Prop where
  planned : ∃ plan, arrowPlanFor externals.hashName schema = .ok plan ∧
    bucket.wireLists.length = plan.wireTypes.length
  ids : bucket.msgIdCols.isSome = store.includeMsgId
  stored : ∀ held, ((schema, date), held) ∈ store.buffers → held = bucket
  origin : ∀ row ∈ bucket.rows, store.Buffered (schema, date) row

theorem openBucket_lookup (sound : store.Sound externals) {schema : FeatureSchema} {plan : ArrowPlan}
    (planned : arrowPlanFor externals.hashName schema = .ok plan) (date : String) :
    OpenBucket externals store schema date
      ((store.buffers.lookup (schema, date)).getD (makeBucket plan store.includeMsgId)) := by
  cases found : store.buffers.lookup (schema, date) with
  | none =>
      constructor
      · exact ⟨plan, planned, by simp [makeBucket]⟩
      · cases included : store.includeMsgId <;> simp [makeBucket]
      · intro held member
        rw [mem_lookup store.keysDistinct member] at found
        cases found
      · intro row member
        cases member
  | some bucket =>
      obtain ⟨ids, wide⟩ := sound _ (lookup_mem found)
      constructor
      · exact wide
      · exact ids
      · intro held member
        rw [mem_lookup store.keysDistinct member] at found
        exact Option.some.inj found
      · intro row inside
        exact ⟨bucket, lookup_mem found, inside⟩

/-- The store behind an append, which fails at once, fails with an open bucket, or adds a row. -/
theorem append_cases (sound : store.Sound externals) (schema : FeatureSchema) (entityId : String)
    (eventTimeNs : Int) (values : List WireValue) (msgId : List UInt8) :
    (∃ error, store.append externals schema entityId eventTimeNs values msgId = (.error error, store)) ∨
    ∃ date dateCache bucket, store.getDateStr externals eventTimeNs = some (date, dateCache) ∧
      OpenBucket externals store schema date bucket ∧
      ((∃ error, store.append externals schema entityId eventTimeNs values msgId =
          (.error error, { store with dateCache := dateCache }.withBucket (schema, date) bucket)) ∨
        ∃ parsed, values.length = bucket.wireLists.length ∧ parseMsgId bucket msgId = .ok parsed ∧
          store.append externals schema entityId eventTimeNs values msgId =
            (.ok (), ({ store with dateCache := dateCache }.withBucket (schema, date)
              bucket).withBucket (schema, date)
                (bucket.push entityId eventTimeNs values parsed))) := by
  unfold OfflineStore.append
  cases planned : arrowPlanFor externals.hashName schema with
  | error error => exact Or.inl ⟨error, rfl⟩
  | ok plan =>
      cases dated : store.getDateStr externals eventTimeNs with
      | none => exact Or.inl ⟨_, rfl⟩
      | some found =>
          obtain ⟨date, dateCache⟩ := found
          have opened := openBucket_lookup sound planned date
          refine Or.inr ⟨date, dateCache, _, rfl, opened, ?_⟩
          dsimp only
          split
          · exact Or.inl ⟨_, rfl⟩
          · rename_i count
            cases parsed : parseMsgId ((store.buffers.lookup (schema, date)).getD
                (makeBucket plan store.includeMsgId)) msgId with
            | error error => exact Or.inl ⟨error, rfl⟩
            | ok value => exact Or.inr ⟨value, not_not.mp count, rfl, rfl⟩

/-- An open bucket in its place keeps the buffered rows and the soundness of the store. -/
theorem OpenBucket.placed {schema : FeatureSchema} {date : String} {bucket : Bucket}
    (opened : OpenBucket externals store schema date bucket) (sound : store.Sound externals)
    (dateCache : List (Int × String)) :
    ({ store with dateCache := dateCache }.withBucket (schema, date) bucket).Sound externals ∧
      ∀ key row, store.Buffered key row →
        ({ store with dateCache := dateCache }.withBucket (schema, date) bucket).Buffered key row := by
  obtain ⟨plan, planned, width⟩ := opened.planned
  constructor
  · exact withBucket_sound sound opened.ids planned width
  · intro key row buffered
    apply withBucket_buffered _ buffered
    intro held member row inside
    rw [← opened.stored held member]
    exact inside

/-- An open bucket in its place adds no row. -/
theorem OpenBucket.placed_rows {schema : FeatureSchema} {date : String} {bucket : Bucket}
    (opened : OpenBucket externals store schema date bucket) (dateCache : List (Int × String)) :
    ({ store with dateCache := dateCache }.withBucket (schema, date) bucket).rows = store.rows := by
  refine (@withBucket_rows { store with dateCache := dateCache } _ _ opened.stored ?_).trans rfl
  intro absent
  apply List.eq_nil_iff_forall_not_mem.mpr
  intro row inside
  obtain ⟨held, member, _⟩ := opened.origin row inside
  exact absent (List.mem_map_of_mem member)

/-- The push of one row keeps the buffered rows and the soundness, and buffers the new row. -/
theorem OpenBucket.pushed {schema : FeatureSchema} {date : String} {bucket : Bucket}
    (opened : OpenBucket externals store schema date bucket) (sound : store.Sound externals)
    (dateCache : List (Int × String)) {values : List WireValue}
    (count : values.length = bucket.wireLists.length)
    (entityId : String) (eventTimeNs : Int) (parsed : Int × Int) :
    let after := ({ store with dateCache := dateCache }.withBucket (schema, date)
      bucket).withBucket (schema, date) (bucket.push entityId eventTimeNs values parsed)
    after.Sound externals ∧ (∀ key row, store.Buffered key row → after.Buffered key row) ∧
      after.Buffered (schema, date)
        ⟨entityId, eventTimeNs, values, if store.includeMsgId then some parsed else none⟩ := by
  intro after
  obtain ⟨placedSound, placedRows⟩ := opened.placed sound dateCache
  obtain ⟨plan, planned, width⟩ := opened.planned
  have rows := push_rows bucket entityId eventTimeNs values parsed count
  have ids : (bucket.msgIdCols.map fun _ => parsed) =
      if store.includeMsgId then some parsed else none := by
    rw [← opened.ids]
    cases bucket.msgIdCols <;> rfl
  refine ⟨?_, ?_, ?_⟩
  · apply withBucket_sound placedSound _ planned
    · simpa [Bucket.push, ← count] using width
    · simpa [Bucket.push, OfflineStore.withBucket] using opened.ids
  · intro key row buffered
    apply withBucket_buffered _ (placedRows key row buffered)
    intro held member row inside
    rcases setBucket_mem.mp member with ⟨_, same⟩ | ⟨different, _⟩
    · rw [rows, ← same]
      exact List.mem_append_left _ inside
    · exact absurd rfl different
  · refine ⟨_, setBucket_mem.mpr (Or.inl ⟨rfl, rfl⟩), ?_⟩
    rw [rows, ids]
    exact List.mem_append_right _ (List.mem_singleton.mpr rfl)

/-- No append removes a buffered row or breaks the soundness of the store. -/
theorem append_keeps (sound : store.Sound externals) (schema : FeatureSchema) (entityId : String)
    (eventTimeNs : Int) (values : List WireValue) (msgId : List UInt8) :
    let after := (store.append externals schema entityId eventTimeNs values msgId).2
    after.Sound externals ∧ after.includeMsgId = store.includeMsgId ∧
      ∀ key row, store.Buffered key row → after.Buffered key row := by
  intro after
  rcases append_cases sound schema entityId eventTimeNs values msgId with
    ⟨error, same⟩ | ⟨date, dateCache, bucket, _, opened, ⟨error, same⟩ | ⟨parsed, count, _, same⟩⟩
  · rw [show after = store from congrArg Prod.snd same]
    exact ⟨sound, rfl, fun _ _ buffered => buffered⟩
  · rw [show after = _ from congrArg Prod.snd same]
    obtain ⟨placedSound, placedRows⟩ := opened.placed sound dateCache
    exact ⟨placedSound, rfl, placedRows⟩
  · rw [show after = _ from congrArg Prod.snd same]
    obtain ⟨pushedSound, pushedRows, _⟩ := opened.pushed sound dateCache count entityId eventTimeNs
      parsed
    exact ⟨pushedSound, rfl, pushedRows⟩

/-- An append that returns has buffered its row. -/
theorem append_buffers (sound : store.Sound externals) {schema : FeatureSchema}
    {entityId : String} {eventTimeNs : Int} {values : List WireValue} {msgId : List UInt8}
    (returned : (store.append externals schema entityId eventTimeNs values msgId).1 = .ok ()) :
    ∃ date bucket parsed, parseMsgId bucket msgId = .ok parsed ∧
      bucket.msgIdCols.isSome = store.includeMsgId ∧
      (store.append externals schema entityId eventTimeNs values msgId).2.Buffered (schema, date)
        ⟨entityId, eventTimeNs, values, if store.includeMsgId then some parsed else none⟩ := by
  rcases append_cases sound schema entityId eventTimeNs values msgId with
    ⟨error, same⟩ | ⟨date, dateCache, bucket, _, opened, ⟨error, same⟩ | ⟨parsed, count, text, same⟩⟩
  · rw [same] at returned
    cases returned
  · rw [same] at returned
    cases returned
  · obtain ⟨_, _, buffered⟩ := opened.pushed sound dateCache count entityId eventTimeNs parsed
    rw [same]
    exact ⟨date, bucket, parsed, text, opened.ids, buffered⟩

/-- An append buffers no row but its own. -/
theorem append_origin (sound : store.Sound externals) {schema : FeatureSchema} {entityId : String}
    {eventTimeNs : Int} {values : List WireValue} {msgId : List UInt8} {key : BucketKey}
    {row : StoredRow}
    (buffered : (store.append externals schema entityId eventTimeNs values msgId).2.Buffered key row) :
    store.Buffered key row ∨ (key.1 = schema ∧ row.eventTimeNs = eventTimeNs ∧ row.values = values ∧
      ∀ ids, row.msgId = some ids → ∃ bucket : Bucket, bucket.msgIdCols.isSome = true ∧
        parseMsgId bucket msgId = .ok ids) := by
  have before : ∀ {date : String} {bucket : Bucket} {dateCache : List (Int × String)},
      OpenBucket externals store schema date bucket →
      ({ store with dateCache := dateCache }.withBucket (schema, date) bucket).Buffered key row →
      store.Buffered key row := by
    rintro date bucket dateCache opened ⟨held, member, inside⟩
    rcases setBucket_mem.mp member with ⟨rfl, rfl⟩ | ⟨_, earlier⟩
    · exact opened.origin row inside
    · exact ⟨held, earlier, inside⟩
  rcases append_cases sound schema entityId eventTimeNs values msgId with
    ⟨error, same⟩ | ⟨date, dateCache, bucket, _, opened, ⟨error, same⟩ | ⟨parsed, count, text, same⟩⟩
  · rw [same] at buffered
    exact Or.inl buffered
  · rw [same] at buffered
    exact Or.inl (before opened buffered)
  · rw [same] at buffered
    obtain ⟨held, member, inside⟩ := buffered
    rcases setBucket_mem.mp member with ⟨rfl, rfl⟩ | ⟨_, earlier⟩
    · rw [push_rows bucket entityId eventTimeNs values parsed count] at inside
      rcases List.mem_append.mp inside with old | new
      · exact Or.inl (opened.origin row old)
      · obtain rfl := List.mem_singleton.mp new
        refine Or.inr ⟨rfl, rfl, rfl, ?_⟩
        intro ids stored
        obtain ⟨columns, present, rfl⟩ := Option.map_eq_some_iff.mp stored
        exact ⟨bucket, by rw [present]; rfl, text⟩
    · exact Or.inl (before opened ⟨held, earlier, inside⟩)

/-- An append with a date, a value for each column and a readable id returns. -/
theorem append_succeeds (sound : store.Sound externals) {schema : FeatureSchema} {plan : ArrowPlan}
    (planned : arrowPlanFor externals.hashName schema = .ok plan) {eventTimeNs : Int}
    (dated : store.getDateStr externals eventTimeNs ≠ none) {values : List WireValue}
    (count : values.length = plan.wireTypes.length) {msgId : List UInt8}
    (parsed : ∀ bucket, ∃ ids, parseMsgId bucket msgId = .ok ids) (entityId : String) :
    (store.append externals schema entityId eventTimeNs values msgId).1 = .ok () := by
  unfold OfflineStore.append
  rw [planned]
  cases found : store.getDateStr externals eventTimeNs with
  | none => exact absurd found dated
  | some text =>
      obtain ⟨other, same, width⟩ := (openBucket_lookup sound planned text.1).planned
      rw [planned] at same
      obtain rfl := Except.ok.inj same
      obtain ⟨ids, numbers⟩ := parsed ((store.buffers.lookup (schema, text.1)).getD
        (makeBucket plan store.includeMsgId))
      dsimp only
      rw [if_neg (by rw [width]; exact not_not.mpr count), numbers]

/-- Only the presence of the id columns decides whether an id is parsed. -/
theorem parseMsgId_congr {first second : Bucket}
    (same : first.msgIdCols.isSome = second.msgIdCols.isSome) (msgId : List UInt8) :
    parseMsgId first msgId = parseMsgId second msgId := by
  unfold parseMsgId
  cases firstCols : first.msgIdCols <;> cases secondCols : second.msgIdCols <;>
    simp_all

/-- An append returns when the class has a plan, the time a date, and each column its value. -/
theorem append_returns_iff (sound : store.Sound externals) {schema : FeatureSchema}
    {entityId : String} {eventTimeNs : Int} {values : List WireValue} {msgId : List UInt8} :
    (store.append externals schema entityId eventTimeNs values msgId).1 = .ok () ↔
      ∃ plan, arrowPlanFor externals.hashName schema = .ok plan ∧
        store.getDateStr externals eventTimeNs ≠ none ∧ values.length = plan.wireTypes.length ∧
        ∃ ids, parseMsgId (makeBucket plan store.includeMsgId) msgId = .ok ids := by
  unfold OfflineStore.append
  cases planned : arrowPlanFor externals.hashName schema with
  | error error => simp
  | ok plan =>
      cases dated : store.getDateStr externals eventTimeNs with
      | none => simp
      | some found =>
          obtain ⟨date, dateCache⟩ := found
          have opened := openBucket_lookup sound planned date
          obtain ⟨other, samePlan, width⟩ := opened.planned
          rw [planned] at samePlan
          obtain rfl := Except.ok.inj samePlan
          have fresh : (makeBucket plan store.includeMsgId).msgIdCols.isSome = store.includeMsgId := by
            cases store.includeMsgId <;> rfl
          have parsed : parseMsgId ((store.buffers.lookup (schema, date)).getD
              (makeBucket plan store.includeMsgId)) msgId =
              parseMsgId (makeBucket plan store.includeMsgId) msgId :=
            parseMsgId_congr (opened.ids.trans fresh.symm) msgId
          dsimp only
          rw [width, parsed]
          by_cases count : values.length = plan.wireTypes.length
          · rw [if_neg (not_not.mpr count)]
            cases text : parseMsgId (makeBucket plan store.includeMsgId) msgId with
            | error error => simp [text]
            | ok ids => exact ⟨fun _ => ⟨plan, rfl, by simp, count, ids, text⟩, fun _ => rfl⟩
          · rw [if_pos count]
            simp [count]

/-- An append that raises adds no row. -/
theorem append_raised_rows (sound : store.Sound externals) {schema : FeatureSchema}
    {entityId : String} {eventTimeNs : Int} {values : List WireValue} {msgId : List UInt8}
    (raised : (store.append externals schema entityId eventTimeNs values msgId).1 ≠ .ok ()) :
    (store.append externals schema entityId eventTimeNs values msgId).2.rows = store.rows := by
  rcases append_cases sound schema entityId eventTimeNs values msgId with
    ⟨error, same⟩ | ⟨date, dateCache, bucket, _, opened, ⟨error, same⟩ | ⟨parsed, count, _, same⟩⟩
  · rw [same]
  · rw [same]
    exact opened.placed_rows dateCache
  · rw [same] at raised
    exact absurd rfl raised

end Append

section Flush

variable (externals : Externals) (outcome : BucketKey → WriteOutcome)

/-- Every written bucket is in a sealed file, and a loop that ends has written every bucket. -/
theorem flushLoop_sealed (snapshot : List (BucketKey × Bucket))
    (distinct : (snapshot.map Prod.fst).Nodup) :
    (∀ key ∈ (flushLoop externals outcome snapshot).2.1, key ∈ snapshot.map Prod.fst) ∧
      ∀ entry ∈ snapshot,
        (flushLoop externals outcome snapshot).2.2 = true ∨
            entry.1 ∈ (flushLoop externals outcome snapshot).2.1 →
          ⟨entry.1, entry.2⟩ ∈ (flushLoop externals outcome snapshot).1 := by
  induction snapshot with
  | nil =>
      constructor
      · intro key member
        cases member
      · intro entry member
        cases member
  | cons first rest ih =>
      obtain ⟨key, bucket⟩ := first
      rw [List.map_cons, List.nodup_cons] at distinct
      obtain ⟨known, files⟩ := ih distinct.2
      have stopped : ∀ sealed : List SealedFile,
          (∀ other ∈ ([] : List BucketKey), other ∈ ((key, bucket) :: rest).map Prod.fst) ∧
          ∀ entry ∈ (key, bucket) :: rest, false = true ∨ entry.1 ∈ ([] : List BucketKey) →
            SealedFile.mk entry.1 entry.2 ∈ sealed := by
        intro sealed
        constructor
        · intro other member
          cases member
        · rintro entry _ (impossible | member)
          · cases impossible
          · cases member
      unfold flushLoop
      cases arrowPlanFor externals.hashName key.1 with
      | error error => exact stopped []
      | ok plan =>
          by_cases converted : bucket.fromPydict externals plan = true
          · simp only [converted, if_true]
            cases outcome key with
            | raisedBefore => exact stopped []
            | raisedAfter => exact stopped [⟨key, bucket⟩]
            | renamed =>
                constructor
                · intro other member
                  rcases List.mem_cons.mp member with rfl | later
                  · exact List.mem_cons_self
                  · exact List.mem_cons_of_mem _ (known other later)
                · intro entry member reached
                  rcases List.mem_cons.mp member with rfl | later
                  · exact List.mem_cons_self
                  · apply List.mem_cons_of_mem _ (files entry later _)
                    rcases reached with finished | written
                    · exact Or.inl finished
                    · rcases List.mem_cons.mp written with same | behind
                      · have inRest : entry.1 ∈ rest.map Prod.fst :=
                          List.mem_map.mpr ⟨entry, later, rfl⟩
                        rw [same] at inRest
                        exact absurd inRest distinct.1
                      · exact Or.inr behind
          · simp only [converted]
            exact stopped []

variable {externals} {store : OfflineStore}

/-- A flush moves every buffered row into a sealed file or keeps it buffered. -/
theorem flush_conserves {key : BucketKey} {row : StoredRow} (buffered : store.Buffered key row) :
    SealedIn (store.flush externals outcome).2.2 key row ∨
      ((store.flush externals outcome).1 = false ∧
        (store.flush externals outcome).2.1.Buffered key row) := by
  obtain ⟨bucket, member, inside⟩ := buffered
  have nonempty : bucket.entityIdCol ≠ [] := by
    intro empty
    rw [rows_of_empty empty] at inside
    cases inside
  have inSnapshot : (key, bucket) ∈ store.buffers.filter fun entry => entry.2.entityIdCol ≠ [] :=
    List.mem_filter.mpr ⟨member, by simpa using nonempty⟩
  have distinct : ((store.buffers.filter fun entry =>
      entry.2.entityIdCol ≠ []).map Prod.fst).Nodup :=
    (List.filter_sublist.map Prod.fst).nodup store.keysDistinct
  obtain ⟨_, files⟩ := flushLoop_sealed externals outcome _ distinct
  have sealed := files (key, bucket) inSnapshot
  unfold OfflineStore.flush
  dsimp only
  generalize flushLoop externals outcome
    (store.buffers.filter fun entry => entry.2.entityIdCol ≠ []) = result at sealed ⊢
  obtain ⟨sealedFiles, written, finished⟩ := result
  dsimp only at sealed ⊢
  by_cases reached : finished = true ∨ key ∈ written
  · exact Or.inl ⟨_, sealed reached, rfl, inside⟩
  · have unfinished : finished = false := by
      cases finished
      · rfl
      · exact absurd (Or.inl rfl) reached
    refine Or.inr ⟨unfinished, bucket, ?_, inside⟩
    rw [unfinished]
    refine List.mem_filter.mpr ⟨inSnapshot, ?_⟩
    simpa using fun absent => reached (Or.inr absent)

theorem flush_sound (sound : store.Sound externals) :
    (store.flush externals outcome).2.1.Sound externals := by
  intro entry member
  unfold OfflineStore.flush at member
  dsimp only at member
  split at member
  · cases member
  · have before := List.mem_of_mem_filter (List.mem_of_mem_filter member)
    exact sound entry before

end Flush

end Quorin
