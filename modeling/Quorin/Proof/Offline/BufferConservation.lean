import Mathlib.Data.List.Perm.Subperm
import Quorin.Proof.Offline.ColumnStores

namespace Quorin

/-- The rows of the sealed files, with their keys. -/
def sealedFileRows (files : List SealedFile) : List (BucketKey × StoredRow) :=
  files.flatMap fun file => file.bucket.rows.map fun row => (file.key, row)

section Buckets

variable {externals : Externals} {store : OfflineStore}

/-- One more row in the bucket of a key is one more row in the store. -/
theorem withBucket_rows_pushed {key : BucketKey} {bucket more : Bucket} {row : StoredRow}
    (stored : (key, bucket) ∈ store.buffers) (pushed : more.rows = bucket.rows ++ [row]) :
    (store.withBucket key more).rows.Perm (store.rows ++ [(key, row)]) := by
  obtain ⟨before, after, split⟩ := List.append_of_mem stored
  have distinct := store.keysDistinct
  rw [split, List.map_append, List.map_cons] at distinct
  have outside : ∀ entry ∈ before ++ after, entry.1 ≠ key := by
    intro entry member same
    have moved := List.perm_middle.nodup_iff.mp distinct
    rw [List.nodup_cons, ← List.map_append] at moved
    exact moved.1 (List.mem_map.mpr ⟨entry, member, same⟩)
  have kept : ∀ entries : List (BucketKey × Bucket), (∀ entry ∈ entries, entry.1 ≠ key) →
      entries.map (fun entry => if entry.1 = key then (key, more) else entry) = entries := by
    intro entries others
    refine (List.map_congr_left ?_).trans (List.map_id _)
    intro entry member
    exact if_neg (others entry member)
  have buffers : (store.withBucket key more).buffers = before ++ (key, more) :: after := by
    unfold OfflineStore.withBucket setBucket
    dsimp only
    rw [if_pos (List.mem_map_of_mem stored), split, List.map_append, List.map_cons, if_pos rfl,
      kept before fun entry member => outside entry (List.mem_append_left _ member),
      kept after fun entry member => outside entry (List.mem_append_right _ member)]
  unfold OfflineStore.rows
  rw [buffers, split, List.flatMap_append, List.flatMap_append, List.flatMap_cons, List.flatMap_cons,
    pushed, List.map_append, List.map_singleton]
  simp only [List.append_assoc]
  apply List.Perm.append_left
  apply List.Perm.append_left
  exact List.perm_append_comm

/-- An append that returns has added exactly its row, under the date of its time. -/
theorem append_returned_rows (sound : store.Sound externals) {schema : FeatureSchema}
    {entityId : String} {eventTimeNs : Int} {values : List WireValue} {msgId : List UInt8}
    (returned : (store.append externals schema entityId eventTimeNs values msgId).1 = .ok ()) :
    ∃ date dateCache bucket parsed, store.getDateStr externals eventTimeNs = some (date, dateCache) ∧
      bucket.msgIdCols.isSome = store.includeMsgId ∧ parseMsgId bucket msgId = .ok parsed ∧
      (store.append externals schema entityId eventTimeNs values msgId).2.rows.Perm
        (store.rows ++ [((schema, date), ⟨entityId, eventTimeNs, values,
          if store.includeMsgId then some parsed else none⟩)]) := by
  rcases append_cases sound schema entityId eventTimeNs values msgId with
    ⟨error, same⟩ | ⟨date, dateCache, bucket, dated, opened, ⟨error, same⟩ | ⟨parsed, count, text, same⟩⟩
  · rw [same] at returned
    cases returned
  · rw [same] at returned
    cases returned
  · refine ⟨date, dateCache, bucket, parsed, dated, opened.ids, text, ?_⟩
    have ids : (bucket.msgIdCols.map fun _ => parsed) =
        if store.includeMsgId then some parsed else none := by
      rw [← opened.ids]
      cases bucket.msgIdCols <;> rfl
    have rows := push_rows bucket entityId eventTimeNs values parsed count
    rw [ids] at rows
    have placed : ((schema, date), bucket) ∈
        ({ store with dateCache := dateCache }.withBucket (schema, date) bucket).buffers :=
      setBucket_mem.mpr (Or.inl ⟨rfl, rfl⟩)
    rw [same]
    refine (withBucket_rows_pushed placed rows).trans ?_
    rw [opened.placed_rows dateCache]

/-- The loop of the flush seals a first part of its snapshot, and at most the next bucket too. -/
theorem flushLoop_split (outcome : BucketKey → WriteOutcome) (snapshot : List (BucketKey × Bucket)) :
    ∃ done rest, snapshot = done ++ rest ∧
      (flushLoop externals outcome snapshot).2.1 = done.map Prod.fst ∧
      ((flushLoop externals outcome snapshot).2.2 = true → rest = []) ∧
      ∃ torn, torn.Sublist rest ∧ (flushLoop externals outcome snapshot).1 =
        (done ++ torn).map fun entry => ⟨entry.1, entry.2⟩ := by
  induction snapshot with
  | nil => exact ⟨[], [], rfl, rfl, fun _ => rfl, [], .slnil, rfl⟩
  | cons first others ih =>
      obtain ⟨key, bucket⟩ := first
      unfold flushLoop
      cases arrowPlanFor externals.hashName key.1 with
      | error error =>
          exact ⟨[], _, rfl, rfl, Bool.noConfusion, [], List.nil_sublist _, rfl⟩
      | ok plan =>
          by_cases converted : bucket.fromPydict externals plan = true
          · simp only [converted, if_true]
            cases outcome key with
            | raisedBefore =>
                exact ⟨[], _, rfl, rfl, Bool.noConfusion, [], List.nil_sublist _, rfl⟩
            | raisedAfter =>
                exact ⟨[], _, rfl, rfl, Bool.noConfusion, [(key, bucket)],
                  List.singleton_sublist.mpr List.mem_cons_self, rfl⟩
            | renamed =>
                obtain ⟨done, rest, split, written, finished, torn, part, files⟩ := ih
                refine ⟨(key, bucket) :: done, rest, by rw [split, List.cons_append], ?_, finished, torn,
                  part, ?_⟩
                · dsimp only
                  rw [written, List.map_cons]
                · dsimp only
                  rw [files, List.cons_append, List.map_cons]
          · simp only [converted]
            exact ⟨[], _, rfl, rfl, Bool.noConfusion, [], List.nil_sublist _, rfl⟩

/-- The buckets behind the written ones are those that the flush restores. -/
theorem filter_unwritten {done rest : List (BucketKey × Bucket)}
    (distinct : ((done ++ rest).map Prod.fst).Nodup) :
    (done ++ rest).filter (fun entry => entry.1 ∉ done.map Prod.fst) = rest := by
  rw [List.map_append] at distinct
  rw [List.filter_append, List.filter_eq_nil_iff.mpr, List.nil_append, List.filter_eq_self.mpr]
  · intro entry member
    rw [decide_eq_true_eq]
    exact fun written => List.disjoint_of_nodup_append distinct written (List.mem_map_of_mem member)
  · intro entry member
    rw [decide_eq_true_eq, not_not]
    exact List.mem_map_of_mem member

/-- Empty buckets hold no rows. -/
theorem filter_rows (entries : List (BucketKey × Bucket)) :
    (entries.filter fun entry => entry.2.entityIdCol ≠ []).flatMap
        (fun entry => entry.2.rows.map fun row => (entry.1, row)) =
      entries.flatMap fun entry => entry.2.rows.map fun row => (entry.1, row) := by
  induction entries with
  | nil => rfl
  | cons entry others ih =>
      rw [List.filter_cons]
      by_cases empty : entry.2.entityIdCol = []
      · rw [if_neg (by simpa using empty), List.flatMap_cons, rows_of_empty empty, ih]
        rfl
      · rw [if_pos (by simpa using empty), List.flatMap_cons, List.flatMap_cons, ih]

/-- The rows behind a flush: none is lost, none is new, and only a torn bucket is in both places. -/
theorem flush_rows (outcome : BucketKey → WriteOutcome) :
    store.rows.Subperm (sealedFileRows (store.flush externals outcome).2.2 ++
        (store.flush externals outcome).2.1.rows) ∧
      ∀ row ∈ sealedFileRows (store.flush externals outcome).2.2 ++
        (store.flush externals outcome).2.1.rows, row ∈ store.rows := by
  obtain ⟨done, rest, split, written, finished, torn, part, files⟩ :=
    @flushLoop_split externals outcome (store.buffers.filter fun entry => entry.2.entityIdCol ≠ [])
  have distinct : ((store.buffers.filter fun entry =>
      entry.2.entityIdCol ≠ []).map Prod.fst).Nodup :=
    (List.filter_sublist.map Prod.fst).nodup store.keysDistinct
  have restored : (store.flush externals outcome).2.1.buffers = rest := by
    unfold OfflineStore.flush
    dsimp only
    rw [written]
    split
    · rename_i ended
      exact (finished ended).symm
    · rw [split] at distinct ⊢
      exact filter_unwritten distinct
  have sealed : sealedFileRows (store.flush externals outcome).2.2 =
      (done ++ torn).flatMap fun entry => entry.2.rows.map fun row => (entry.1, row) := by
    unfold sealedFileRows OfflineStore.flush
    dsimp only
    rw [files, List.flatMap_map]
  rw [sealed, OfflineStore.rows, OfflineStore.rows, restored, ← filter_rows, split,
    List.flatMap_append, List.flatMap_append]
  constructor
  · rw [List.append_assoc]
    exact ((List.sublist_append_right _ _).append_left _).subperm
  · intro row member
    rcases List.mem_append.mp member with inside | behind
    · rcases List.mem_append.mp inside with first | second
      · exact List.mem_append_left _ first
      · exact List.mem_append_right _ ((part.flatMap _).subset second)
    · exact List.mem_append_right _ behind

end Buckets

/-- The rows of a bucket's own lists, with their keys. -/
def ColumnStore.rows (store : ColumnStore) : List (BucketKey × Record) :=
  store.buffers.flatMap fun entry => (tableRows (entry.2.table store.heap)).map fun row => (entry.1, row)

/-- The rows of the sealed tables, with their keys. -/
def sealedRows (files : List SealedTable) : List (BucketKey × Record) :=
  files.flatMap fun file => (tableRows file.table).map fun row => (file.key, row)

/-- The numbers of a message id, when the writer keeps them. -/
def messageNumbers (includeMsgId : Bool) (msgId : List UInt8) : Option (Int × Int) :=
  if includeMsgId then
    some ((parseInt (partitionHyphen msgId).1).getD 0, (parseInt (partitionHyphen msgId).2).getD 0)
  else none

/-- The rows that one call appends: its own row when an append returns, and none otherwise. -/
def DatasetState.appended (externals : Externals) (state : DatasetState) :
    DatasetCall → List (BucketKey × Record)
  | .append schema entityId eventTimeNs values msgId =>
      match (state.store.append externals schema entityId eventTimeNs values msgId).1 with
      | .error _ => []
      | .ok () =>
          [((schema, ((state.store.getDateStr externals eventTimeNs).map Prod.fst).getD ""),
            StoredRow.record externals.hashName schema
              ⟨entityId, eventTimeNs, values, messageNumbers state.store.includeMsgId msgId⟩)]
  | .flush _ => []

/-- The rows that the successful appends of a sequence of calls append, in their order. -/
def appendedRows (externals : Externals) (state : DatasetState) : List DatasetCall →
    List (BucketKey × Record)
  | [] => []
  | call :: rest => state.appended externals call ++
      appendedRows externals (state.perform externals call) rest

/-- A row of the abstract writer as a record. -/
def keyedRecord (externals : Externals) (row : BucketKey × StoredRow) : BucketKey × Record :=
  (row.1, row.2.record externals.hashName row.1.1)

section Records

variable {externals : Externals} {store : ColumnStore} {held : OfflineStore}

theorem flatMap_keyedRecord {entries : List (BucketKey × Bucket)} :
    (entries.flatMap fun entry => entry.2.rows.map fun row => (entry.1, row)).map
        (keyedRecord externals) =
      entries.flatMap fun entry =>
        (tableRows (entry.2.table externals.hashName entry.1.1)).map fun row => (entry.1, row) := by
  rw [List.map_flatMap]
  congr 1
  funext entry
  rw [tableRows_table, List.map_map, List.map_map]
  rfl

/-- The lists of the buffers show the rows of the buckets. -/
theorem ColumnStore.Simulates.rows (simulates : store.Simulates externals held) :
    store.rows = held.rows.map (keyedRecord externals) := by
  rw [OfflineStore.rows, flatMap_keyedRecord, ColumnStore.rows]
  have pairs := simulates.pairs
  generalize store.buffers = buffers at pairs
  generalize held.buffers = buckets at pairs
  induction pairs with
  | nil => rfl
  | @cons entry other rest others same _ ih =>
      rw [List.flatMap_cons, List.flatMap_cons, ih, same.2.table, same.1]

theorem sealedRows_map {tables : List SealedTable} {files : List SealedFile}
    (same : List.Forall₂ (SameFile externals) tables files) :
    sealedRows tables = (sealedFileRows files).map (keyedRecord externals) := by
  induction same with
  | nil => rfl
  | @cons table file rest others same _ ih =>
      have first : (tableRows table.table).map (fun row => (table.key, row)) =
          (file.bucket.rows.map fun row => (file.key, row)).map (keyedRecord externals) := by
        rw [same.2, same.1, tableRows_table, List.map_map, List.map_map]
        rfl
      unfold sealedRows sealedFileRows at ih ⊢
      rw [List.flatMap_cons, List.flatMap_cons, List.map_append, ih, first]

end Records

/-- The rows of the files and the buffers are the appended rows, some of them twice. -/
structure ConservedRows (externals : Externals) (state : DatasetState) (held : OfflineStore)
    (files : List SealedFile) (appended : List (BucketKey × StoredRow)) : Prop where
  simulates : state.store.Simulates externals held
  sound : held.Sound externals
  sealed : List.Forall₂ (SameFile externals) state.files files
  kept : appended.Subperm (sealedFileRows files ++ held.rows)
  known : ∀ row ∈ sealedFileRows files ++ held.rows, row ∈ appended

theorem messageNumbers_parsed {bucket : Bucket} {includeMsgId : Bool} {msgId : List UInt8}
    {parsed : Int × Int} (ids : bucket.msgIdCols.isSome = includeMsgId)
    (text : parseMsgId bucket msgId = .ok parsed) :
    messageNumbers includeMsgId msgId = if includeMsgId then some parsed else none := by
  unfold messageNumbers
  subst ids
  cases present : bucket.msgIdCols with
  | none => rfl
  | some columns =>
      simp only [parseMsgId, present] at text
      split at text
      · rename_i ms seq first second
        rw [first, second]
        exact congrArg some (Except.ok.inj text)
      · cases text

section Steps

variable {externals : Externals} {state : DatasetState} {held : OfflineStore} {files : List SealedFile}
  {appended : List (BucketKey × StoredRow)}
  (conserved : ConservedRows externals state held files appended)

include conserved in
/-- An append that raises changes no row and no file. -/
theorem ConservedRows.raised {schema : FeatureSchema} {entityId : String} {eventTimeNs : Int}
    {values : List WireValue} {msgId : List UInt8} {error : ColumnError}
    (refused : (state.store.append externals schema entityId eventTimeNs values msgId).1 =
      .error error) :
    (state.store.append externals schema entityId eventTimeNs values msgId).2.rows =
      state.store.rows := by
  obtain ⟨outcome, after⟩ := append_simulates conserved.simulates schema entityId eventTimeNs values msgId
  have raised : (held.append externals schema entityId eventTimeNs values msgId).1 ≠ .ok () := by
    rcases outcome with ⟨returned, _⟩ | ⟨_, _, same⟩
    · rw [refused] at returned
      cases returned
    · rw [same]
      exact nofun
  rw [after.rows, conserved.simulates.rows, append_raised_rows conserved.sound raised]

include conserved in
/-- An append keeps the account of the rows. -/
theorem ConservedRows.append (schema : FeatureSchema) (entityId : String) (eventTimeNs : Int)
    (values : List WireValue) (msgId : List UInt8) :
    ∃ rows, state.appended externals (.append schema entityId eventTimeNs values msgId) =
        rows.map (keyedRecord externals) ∧
      ConservedRows externals
        (state.perform externals (.append schema entityId eventTimeNs values msgId))
        (held.append externals schema entityId eventTimeNs values msgId).2 files (appended ++ rows) := by
  obtain ⟨outcome, after⟩ := append_simulates conserved.simulates schema entityId eventTimeNs values msgId
  obtain ⟨sound, included, _⟩ := append_keeps conserved.sound schema entityId eventTimeNs values msgId
  rcases outcome with ⟨columnReturned, returned⟩ | ⟨error, columnRefused, refused⟩
  · obtain ⟨date, dateCache, bucket, parsed, dated, ids, text, rows⟩ :=
      append_returned_rows conserved.sound returned
    refine ⟨[((schema, date), ⟨entityId, eventTimeNs, values,
      if held.includeMsgId then some parsed else none⟩)], ?_, after, sound, conserved.sealed, ?_, ?_⟩
    · rw [DatasetState.appended, columnReturned, conserved.simulates.getDateStr, dated, conserved.simulates.included,
        messageNumbers_parsed ids text]
      rfl
    · refine ((List.subperm_append_right _).mpr conserved.kept).trans ?_
      rw [List.append_assoc]
      exact ((List.perm_append_left_iff _).mpr rows.symm).subperm
    · intro row member
      rw [List.mem_append, rows.mem_iff, ← List.mem_append, ← List.append_assoc] at member
      rcases List.mem_append.mp member with before | new
      · exact List.mem_append_left _ (conserved.known row before)
      · exact List.mem_append_right _ new
  · have raised : (held.append externals schema entityId eventTimeNs values msgId).1 ≠ .ok () := by
      rw [refused]
      exact nofun
    have same := append_raised_rows conserved.sound raised
    refine ⟨[], ?_, after, sound, conserved.sealed, ?_, ?_⟩
    · rw [DatasetState.appended, columnRefused]
      rfl
    · rw [same, List.append_nil]
      exact conserved.kept
    · rw [same, List.append_nil]
      exact conserved.known

include conserved in
/-- A flush keeps the account of the rows, wherever it fails. -/
theorem ConservedRows.flush (outcome : BucketKey → WriteOutcome) :
    ConservedRows externals (state.perform externals (.flush outcome))
      (held.flush externals outcome).2.1 (files ++ (held.flush externals outcome).2.2) appended := by
  obtain ⟨_, after, sealed⟩ := flush_simulates conserved.simulates outcome
  obtain ⟨moved, known⟩ := @flush_rows externals held outcome
  have joined : sealedFileRows (files ++ (held.flush externals outcome).2.2) =
      sealedFileRows files ++ sealedFileRows (held.flush externals outcome).2.2 :=
    List.flatMap_append
  refine ⟨after, flush_sound outcome conserved.sound, List.rel_append conserved.sealed sealed, ?_, ?_⟩
  · rw [joined, List.append_assoc]
    exact conserved.kept.trans ((List.subperm_append_left _).mpr moved)
  · intro row member
    rw [joined, List.append_assoc] at member
    apply conserved.known row
    rcases List.mem_append.mp member with earlier | now
    · exact List.mem_append_left _ earlier
    · exact List.mem_append_right _ (known row now)

include conserved in
/-- Every call keeps the account of the rows. -/
theorem ConservedRows.perform (call : DatasetCall) :
    ∃ next more rows, state.appended externals call = rows.map (keyedRecord externals) ∧
      ConservedRows externals (state.perform externals call) next more (appended ++ rows) := by
  cases call with
  | append schema entityId eventTimeNs values msgId =>
      obtain ⟨rows, same, after⟩ := conserved.append schema entityId eventTimeNs values msgId
      exact ⟨_, files, rows, same, after⟩
  | flush outcome =>
      have after := conserved.flush outcome
      rw [← List.append_nil appended] at after
      exact ⟨_, _, [], rfl, after⟩

end Steps

/-- A run keeps the account of the rows. -/
theorem ConservedRows.run {externals : Externals} (calls : List DatasetCall) {state : DatasetState}
    {held : OfflineStore} {files : List SealedFile} {appended : List (BucketKey × StoredRow)}
    (conserved : ConservedRows externals state held files appended) :
    ∃ next more rows, appendedRows externals state calls = rows.map (keyedRecord externals) ∧
      ConservedRows externals (calls.foldl (DatasetState.perform externals) state) next more
        (appended ++ rows) := by
  induction calls generalizing state held files appended with
  | nil =>
      refine ⟨held, files, [], rfl, ?_⟩
      rw [List.append_nil]
      exact conserved
  | cons call rest ih =>
      obtain ⟨next, more, rows, same, after⟩ := conserved.perform call
      obtain ⟨last, sealed, others, sameToo, final⟩ := ih after
      refine ⟨last, sealed, rows ++ others, ?_, ?_⟩
      · rw [appendedRows, same, sameToo, List.map_append]
      · rw [← List.append_assoc]
        exact final

/-- A new writer has nothing to account for. -/
theorem ConservedRows.initial (externals : Externals) (includeMsgId : Bool) :
    ConservedRows externals ⟨.empty includeMsgId, []⟩ (.empty includeMsgId) [] [] where
  simulates := ColumnStore.empty_simulates externals includeMsgId
  sound := OfflineStore.empty_sound externals includeMsgId
  sealed := .nil
  kept := List.nil_subperm
  known := fun _ member => absurd member List.not_mem_nil

/-- No call changes whether ids are kept. -/
theorem DatasetState.perform_included (externals : Externals) (state : DatasetState)
    (call : DatasetCall) :
    (state.perform externals call).store.includeMsgId = state.store.includeMsgId := by
  cases call with
  | flush outcome => rfl
  | append schema entityId eventTimeNs values msgId =>
      unfold DatasetState.perform ColumnStore.append
      dsimp only
      cases columnPlanFor externals.hashName schema state.store.includeMsgId with
      | error error => rfl
      | ok plan =>
          cases state.store.getDateStr externals eventTimeNs with
          | none => rfl
          | some found =>
              dsimp only
              unfold ColumnStore.openBucket
              cases state.store.buffers.lookup (schema, found.1) with
              | some bucket =>
                  dsimp only
                  split
                  · rfl
                  · cases bucket.parseMsgId msgId <;> rfl
              | none =>
                  dsimp only
                  cases makeColumns plan state.store.includeMsgId state.store.heap with
                  | none => rfl
                  | some made =>
                      dsimp only [Option.map_some]
                      split
                      · rfl
                      · cases made.1.parseMsgId msgId <;> rfl

theorem runDataset_included (externals : Externals) (includeMsgId : Bool) (calls : List DatasetCall) :
    (runDataset externals includeMsgId calls).store.includeMsgId = includeMsgId := by
  unfold runDataset
  induction calls using List.reverseRecOn with
  | nil => rfl
  | append_singleton before call ih =>
      rw [List.foldl_append, List.foldl_cons, List.foldl_nil, DatasetState.perform_included, ih]

/-- The lists of a bucket's uses are the lists of its dictionary. -/
theorem Represents.refs_listed {hashName : String → UInt64} {schema : FeatureSchema}
    {includeMsgId : Bool} {heap : ListHeap} {columns : ColumnBucket} {bucket : Bucket}
    (represents : Represents hashName schema includeMsgId heap columns bucket) {ref : Nat} :
    ref ∈ columns.refs ↔ ref ∈ columns.columns.map Prod.snd := by
  rw [represents.placed, mem_columnBucketAt, columnBucketAt, List.zipIdx_map_snd, List.mem_range'_1]

/-- Every list of a buffered bucket is as long as its list of entity ids. -/
theorem ColumnStore.Simulates.aligned {externals : Externals} {store : ColumnStore}
    {held : OfflineStore} (simulates : store.Simulates externals held)
    {entry : BucketKey × ColumnBucket} (buffered : entry ∈ store.buffers) {ref : Nat}
    (member : ref ∈ entry.2.refs ∨ ref ∈ entry.2.columns.map Prod.snd) :
    (store.heap.contents ref).length = (store.heap.contents entry.2.entityIdCol).length := by
  obtain ⟨bucket, there⟩ := simulates.partner.mp ⟨entry.2, buffered⟩
  have represents := simulates.represents entry.1 entry.2 bucket buffered there
  have listed : ref ∈ entry.2.columns.map Prod.snd := by
    rcases member with used | listed
    · exact represents.refs_listed.mp used
    · exact listed
  obtain ⟨column, inside, rfl⟩ := List.mem_map.mp listed
  have own := represents.aligned _ (List.mem_map_of_mem inside)
  rw [represents.entityIds, List.length_map]
  exact own

/-- The rows of the files and the buffers, as records. -/
theorem ConservedRows.everywhere {externals : Externals} {state : DatasetState} {held : OfflineStore}
    {files : List SealedFile} {appended : List (BucketKey × StoredRow)}
    (conserved : ConservedRows externals state held files appended) :
    sealedRows state.files ++ state.store.rows =
      (sealedFileRows files ++ held.rows).map (keyedRecord externals) := by
  rw [sealedRows_map conserved.sealed, conserved.simulates.rows, List.map_append]

/-- Every stored row was appended. -/
theorem runDataset_known {externals : Externals} {includeMsgId : Bool} {calls : List DatasetCall}
    {row : BucketKey × Record}
    (stored : row ∈ sealedRows (runDataset externals includeMsgId calls).files ++
      (runDataset externals includeMsgId calls).store.rows) :
    row ∈ appendedRows externals ⟨.empty includeMsgId, []⟩ calls := by
  obtain ⟨held, files, rows, same, conserved⟩ :=
    (ConservedRows.initial externals includeMsgId).run calls
  rw [List.nil_append] at conserved
  change ConservedRows externals (runDataset externals includeMsgId calls) held files rows at conserved
  rw [conserved.everywhere] at stored
  obtain ⟨inner, inside, rfl⟩ := List.mem_map.mp stored
  rw [same]
  exact List.mem_map_of_mem (conserved.known inner inside)

/-- The writer loses no row, invents none, and keeps the lists of every bucket at one length. -/
theorem buffers_conserved (externals : Externals) (includeMsgId : Bool) (calls : List DatasetCall) :
    let state := runDataset externals includeMsgId calls
    (∀ entry ∈ state.store.buffers, ∀ ref,
        ref ∈ entry.2.refs ∨ ref ∈ entry.2.columns.map Prod.snd →
          (state.store.heap.contents ref).length =
            (state.store.heap.contents entry.2.entityIdCol).length) ∧
      (∀ schema entityId eventTimeNs values msgId error,
        (state.store.append externals schema entityId eventTimeNs values msgId).1 = .error error →
          let after := state.perform externals (.append schema entityId eventTimeNs values msgId)
          after.store.rows = state.store.rows ∧ after.files = state.files) ∧
      (appendedRows externals ⟨.empty includeMsgId, []⟩ calls).Subperm
        (sealedRows state.files ++ state.store.rows) ∧
      ∀ row ∈ sealedRows state.files ++ state.store.rows,
        row ∈ appendedRows externals ⟨.empty includeMsgId, []⟩ calls := by
  intro state
  obtain ⟨held, files, rows, same, conserved⟩ :=
    (ConservedRows.initial externals includeMsgId).run calls
  rw [List.nil_append] at conserved
  change ConservedRows externals state held files rows at conserved
  refine ⟨?_, ?_, ?_, fun row stored => runDataset_known stored⟩
  · intro entry buffered ref member
    exact conserved.simulates.aligned buffered member
  · intro schema entityId eventTimeNs values msgId error refused
    exact ⟨conserved.raised refused, rfl⟩
  · rw [same, conserved.everywhere]
    obtain ⟨some, reordered, part⟩ := conserved.kept
    exact ⟨some.map _, reordered.map _, part.map _⟩

end Quorin
