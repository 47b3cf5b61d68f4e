import Quorin.Construction.SealedDisk
import Quorin.Proof.Consumer.ReplayRuns
import Quorin.Proof.Consumer.TracedRows

namespace Quorin

section Flush

variable {externals : Externals} {writes : BucketKey → TableWrite}

/-- The outcome of a table when a raised call does not count. -/
def reportedOutcome (writes : BucketKey → TableWrite) (key : BucketKey) : WriteOutcome :=
  if (writes key).outcome = .renamed then .renamed else .raisedBefore

/-- The flush loop ends as the writes on the disk do, and the returned writes are its files. -/
theorem flushLoop_attempts (snapshot : List (BucketKey × Bucket)) :
    (flushLoop externals (reportedOutcome writes) snapshot).1 =
        returnedFiles (flushAttempts externals writes snapshot) ∧
      (flushLoop externals (reportedOutcome writes) snapshot).2 =
        (flushLoop externals (fun key => (writes key).outcome) snapshot).2 := by
  induction snapshot with
  | nil => exact ⟨rfl, rfl⟩
  | cons entry rest ih =>
      obtain ⟨key, bucket⟩ := entry
      unfold flushLoop flushAttempts
      cases arrowPlanFor externals.hashName key.1 with
      | error error => exact ⟨rfl, rfl⟩
      | ok plan =>
          by_cases converted : bucket.fromPydict externals plan = true
          · simp only [converted, if_true, reportedOutcome]
            cases fate : (writes key).outcome with
            | renamed =>
                have written := congrArg Prod.fst ih.2
                have finished := congrArg Prod.snd ih.2
                simp only [if_true]
                rw [ih.1, written, finished]
                simp [returnedFiles, fate]
            | raisedBefore => simp [returnedFiles, fate]
            | raisedAfter => simp [returnedFiles, fate]
          · simp only [converted]
            exact ⟨rfl, rfl⟩

/-- A flush only seals buckets of the writer. -/
theorem flush_owned {store : OfflineStore} (outcome : BucketKey → WriteOutcome) {file : SealedFile}
    (sealedNow : file ∈ (store.flush externals outcome).2.2) :
    (file.key, file.bucket) ∈ store.buffers := by
  obtain ⟨done, rest, split, _, _, torn, part, files⟩ := @flushLoop_split externals outcome
    (store.buffers.filter fun entry => entry.2.entityIdCol ≠ [])
  have inside : file ∈ (done ++ torn).map fun entry => (⟨entry.1, entry.2⟩ : SealedFile) :=
    files ▸ sealedNow
  obtain ⟨entry, member, rfl⟩ := List.mem_map.mp inside
  have snapshot : entry ∈ store.buffers.filter fun entry => entry.2.entityIdCol ≠ [] := by
    rw [split]
    exact ((List.Sublist.refl done).append part).subset member
  exact List.mem_of_mem_filter snapshot

/-- For the writer a table that raises behind its rename is one that raises before it. -/
theorem flush_attempts (store : OfflineStore) :
    (store.flush externals (reportedOutcome writes)).2.2 =
        returnedFiles (flushAttempts externals writes
          (store.buffers.filter fun entry => entry.2.entityIdCol ≠ [])) ∧
      (store.flush externals (reportedOutcome writes)).1 =
        (store.flush externals fun key => (writes key).outcome).1 ∧
      (store.flush externals (reportedOutcome writes)).2.1.buffers =
        (store.flush externals fun key => (writes key).outcome).2.1.buffers := by
  obtain ⟨files, rest⟩ := @flushLoop_attempts externals writes
    (store.buffers.filter fun entry => entry.2.entityIdCol ≠ [])
  have written := congrArg Prod.fst rest
  have finished := congrArg Prod.snd rest
  unfold OfflineStore.flush
  dsimp only
  rw [files, written, finished]
  exact ⟨rfl, rfl, rfl⟩

end Flush

section Write

variable {good : DatasetPath → List UInt8 → Prop} {disk : DatasetDisk} {key : BucketKey}
  {write : TableWrite}

/-- The readers only open the files of the partitions. -/
def DatasetPath.Shown : DatasetPath → Prop
  | .partition _ _ => True
  | _ => False

theorem temporary_hidden (uuid : Nat) : ¬ (DatasetPath.temporary uuid).Shown := id

/-- Wherever the two `mkdir` calls end, every visible file is whole. -/
theorem mkdirCalls_whole (held : Disk.Whole DatasetPath.Shown good disk) (key : BucketKey)
    (count : Nat) :
    Disk.Whole DatasetPath.Shown good (disk.calls ((mkdirCalls key).take count)) := by
  have first : Disk.Whole DatasetPath.Shown good
      (disk.call (.makeDirectory (.classDirectory key.1))) := held.makeDirectory id
  have second : Disk.Whole DatasetPath.Shown good ((disk.call (.makeDirectory
      (.classDirectory key.1))).call (.makeDirectory (.dateDirectory key))) := first.makeDirectory id
  rcases count with _ | _ | count
  · exact held
  · exact first
  · simpa [mkdirCalls, Disk.calls] using second

/-- The disk behind the `mkdir` and the first calls of a write. -/
theorem writeTableCalls_split (count : Nat) :
    disk.calls ((writeTableCalls key write disk).take (count + 2)) =
      (disk.calls (mkdirCalls key)).calls
        ((.create (.temporary write.uuid) :: Disk.publishing (disk.calls (mkdirCalls key)).created
          (.temporary write.uuid) (.partition key write.uuid) write.chunks
          (DatasetPath.inside key)).take count) := by
  simp [writeTableCalls, mkdirCalls, Disk.calls]

/-- Wherever a call of `_write_table` ends, every visible file is whole. -/
theorem writeTable_whole (held : Disk.Whole DatasetPath.Shown good disk)
    (fine : good (.partition key write.uuid) write.chunks.flatten) :
    Disk.Whole DatasetPath.Shown good (writeTable key write disk) := by
  have wrote : Disk.Whole DatasetPath.Shown good
      (disk.calls ((writeTableCalls key write disk).take write.succeeded)) := by
    have made : Disk.Whole DatasetPath.Shown good (disk.calls (mkdirCalls key)) :=
      mkdirCalls_whole held key 2
    rcases write.succeeded with _ | _ | _ | count
    · exact mkdirCalls_whole held key 0
    · exact mkdirCalls_whole held key 1
    · exact made
    · rw [writeTableCalls_split]
      have draft := Disk.Draft.create made (temporary_hidden write.uuid)
      exact draft.publishing_whole (made.create (temporary_hidden write.uuid)) (by simpa using fine)
        _ count
  unfold writeTable
  dsimp only
  split
  · exact wrote.unlink _
  · exact wrote

/-- A call of `_write_table` that returns stores its table for good. -/
theorem writeTable_stores (held : Disk.Whole DatasetPath.Shown good disk)
    (returned : write.outcome = .renamed) :
    (writeTable key write disk).Stores (.partition key write.uuid) write.chunks.flatten := by
  have done : (writeTableCalls key write disk).length ≤ write.succeeded := by
    unfold TableWrite.outcome at returned
    split at returned
    · cases returned
    · split at returned
      · cases returned
      · simp only [TableWrite.all] at *
        simp [writeTableCalls, mkdirCalls, Disk.publishing]
        omega
  have made : Disk.Whole DatasetPath.Shown good (disk.calls (mkdirCalls key)) :=
    mkdirCalls_whole held key 2
  have draft := Disk.Draft.create made (temporary_hidden write.uuid)
  have apart : DatasetPath.temporary write.uuid ≠ .partition key write.uuid := by
    intro same
    cases same
  have covered : DatasetPath.inside key (.partition key write.uuid) = true := by
    simp [DatasetPath.inside]
  have stored := draft.publishing_stores apart write.chunks covered
  unfold writeTable
  dsimp only
  rw [returned, List.take_of_length_le done]
  simp only [ne_eq, not_true_eq_false, decide_false, Bool.false_and, Bool.false_eq_true, if_false]
  rw [writeTableCalls, Disk.calls, List.foldl_append]
  exact stored

theorem temporary_apart {path : DatasetPath} (shown : path.Shown) (uuid : Nat) :
    path ≠ .temporary uuid := by
  rintro rfl
  exact shown

/-- The names that the write of a table uses. -/
def TableWrite.Names (write : TableWrite) (key : BucketKey) (path : DatasetPath) : Prop :=
  path = .temporary write.uuid ∨ path = .partition key write.uuid ∨
    path = .classDirectory key.1 ∨ path = .dateDirectory key

theorem writeTable_confined (count : Nat) :
    ∀ call ∈ (writeTableCalls key write disk).take count,
      Disk.Confined (write.Names key) (disk.calls (mkdirCalls key)).created call := by
  intro call member
  rcases List.mem_append.mp (List.mem_of_mem_take member) with made | wrote
  · simp only [mkdirCalls, List.mem_cons, List.not_mem_nil, or_false] at made
    rcases made with rfl | rfl
    · exact .inr (.inr (.inl rfl))
    · exact .inr (.inr (.inr rfl))
  · rcases List.mem_cons.mp wrote with rfl | later
    · exact .inl rfl
    · exact Disk.publishing_confined (.inl rfl) (.inr (.inl rfl)) _ _ _ call later

/-- A call of `_write_table` leaves the stored files under other names where they are. -/
theorem writeTable_apart (held : Disk.Whole DatasetPath.Shown good disk) {path : DatasetPath}
    {content : List UInt8} (stores : disk.Stores path content) (shown : path.Shown)
    (different : path ≠ .partition key write.uuid) :
    (writeTable key write disk).Stores path content := by
  have outside : ¬ write.Names key path := by
    rintro (rfl | same | rfl | rfl)
    · exact shown
    · exact different same
    · exact shown
    · exact shown
  have wrote := Disk.StoresApart.calls outside (writeTable_confined write.succeeded)
    (stores.apart held (Disk.calls_created (mkdirCalls key)))
  unfold writeTable
  dsimp only
  split
  · exact (wrote.unlinked (temporary_apart shown write.uuid)).stores
  · exact wrote.stores

theorem temporary_leaf (uuid : Nat) : Disk.Leaf DatasetPath.parent (.temporary uuid) := by
  intro other inside
  cases other <;> cases inside

theorem partition_leaf (key : BucketKey) (uuid : Nat) :
    Disk.Leaf DatasetPath.parent (.partition key uuid) := by
  intro other inside
  cases other <;> cases inside

/-- Wherever a call of `_write_table` ends, every path lies in a directory that exists. -/
theorem writeTable_rooted (rooted : disk.Rooted DatasetPath.parent) :
    (writeTable key write disk).Rooted DatasetPath.parent := by
  have classMade : (disk.call (.makeDirectory (.classDirectory key.1))).Rooted DatasetPath.parent := by
    refine rooted.call ?_
    intro directory impossible
    cases impossible
  have made : ((disk.call (.makeDirectory (.classDirectory key.1))).call
      (.makeDirectory (.dateDirectory key))).Rooted DatasetPath.parent := by
    refine classMade.call ?_
    intro directory above
    obtain rfl := Option.some.inj above
    exact Disk.makeDirectory_present
  have wrote : (disk.calls ((writeTableCalls key write disk).take write.succeeded)).Rooted
      DatasetPath.parent := by
    rcases write.succeeded with _ | _ | count
    · exact rooted
    · exact classMade
    · rw [writeTableCalls_split]
      refine @Disk.Rooted.calls _ _ _ _ _ (fun directory => directory = .dateDirectory key) _ made
        ?_ ?_ ?_
      · intro call member
        rcases List.mem_cons.mp (List.mem_of_mem_take member) with rfl | later
        · intro directory impossible
          cases impossible
        · refine Disk.publishing_placed ?_ (temporary_leaf _) (partition_leaf key _) _ _ _ call later
          intro directory above
          exact (Option.some.inj above).symm
      · rintro directory rfl
        exact ⟨.partition key 0, rfl⟩
      · rintro directory rfl
        exact Disk.makeDirectory_present
  unfold writeTable
  dsimp only
  split
  · exact wrote.unlink (temporary_leaf write.uuid)
  · exact wrote

/-- Tables that are written one after the other leave every path in a directory that exists. -/
theorem Wrote.rooted {attempts : List (SealedFile × TableWrite)} {before after : DatasetDisk}
    (wrote : Wrote attempts before after) (rooted : before.Rooted DatasetPath.parent) :
    after.Rooted DatasetPath.parent := by
  induction attempts generalizing before with
  | nil => exact (show after = before from wrote) ▸ rooted
  | cons attempt rest ih => exact ih wrote.2 (writeTable_rooted rooted)

end Write

section Runs

variable {deployment : Deployment} {encode : SealedFile → List UInt8}

/-- The content of a visible file is a table whose rows are all rows of produced messages. -/
def TracedTable (deployment : Deployment) (encode : SealedFile → List UInt8)
    (produced : List StreamEntry) : DatasetPath → List UInt8 → Prop
  | .partition key _, content => ∃ bucket, content = encode ⟨key, bucket⟩ ∧
      ∀ row ∈ bucket.rows, TracedRow deployment produced key row
  | _, _ => True

/-- The table of a returned write is stored for good, or a power loss took it with its directory. -/
def DatasetWorld.Keeps (encode : SealedFile → List UInt8) (state : DatasetWorld) (file : SealedFile)
    (uuid : Nat) : Prop :=
  state.disk.Stores (.partition file.key uuid) (encode file) ∨ .partition file.key uuid ∈ state.lost

/-- Every visible file is whole, and the file of every write that returned is kept. -/
structure DatasetWorld.Sealed (deployment : Deployment) (encode : SealedFile → List UInt8)
    (state : DatasetWorld) : Prop where
  durable : Durable deployment state.world
  traced : state.world.Traced deployment
  whole : Disk.Whole DatasetPath.Shown (TracedTable deployment encode state.world.produced) state.disk
  rooted : state.disk.Rooted DatasetPath.parent
  kept : ∀ file ∈ state.world.files, ∃ uuid, state.Keeps encode file uuid

theorem TracedTable.mono {produced more : List StreamEntry}
    (grown : ∀ entry ∈ produced, entry ∈ more) {path : DatasetPath} {content : List UInt8}
    (traced : TracedTable deployment encode produced path content) :
    TracedTable deployment encode more path content := by
  cases path with
  | partition key uuid =>
      obtain ⟨bucket, same, rows⟩ := traced
      exact ⟨bucket, same, fun row member => (rows row member).mono grown⟩
  | _ => exact trivial

/-- Tables that are written one after the other keep the files of the disk. -/
theorem Wrote.sealed {produced : List StreamEntry} {attempts : List (SealedFile × TableWrite)}
    (traced : ∀ attempt ∈ attempts, ∀ row ∈ attempt.1.bucket.rows,
      TracedRow deployment produced attempt.1.key row)
    (encoded : ∀ attempt ∈ attempts, attempt.2.chunks.flatten = encode attempt.1)
    {before after : DatasetDisk} (wrote : Wrote attempts before after) {files : List SealedFile}
    {lost : Set DatasetPath} {world : World}
    (held : Disk.Whole DatasetPath.Shown (TracedTable deployment encode produced) before)
    (kept : ∀ file ∈ files, ∃ uuid, DatasetWorld.Keeps encode ⟨world, before, lost⟩ file uuid) :
    Disk.Whole DatasetPath.Shown (TracedTable deployment encode produced) after ∧
      ∀ file ∈ files ++ returnedFiles attempts, ∃ uuid,
        DatasetWorld.Keeps encode ⟨world, after, lost⟩ file uuid := by
  induction attempts generalizing before files with
  | nil =>
      obtain rfl : after = before := wrote
      refine ⟨held, ?_⟩
      simpa [returnedFiles] using kept
  | cons attempt rest ih =>
      obtain ⟨file, write⟩ := attempt
      obtain ⟨fresh, wrote⟩ := wrote
      have text := encoded (file, write) List.mem_cons_self
      have whole : Disk.Whole DatasetPath.Shown (TracedTable deployment encode produced)
          (writeTable file.key write before) :=
        writeTable_whole held ⟨file.bucket, text, traced (file, write) List.mem_cons_self⟩
      have older : ∀ other ∈ files, ∃ uuid,
          DatasetWorld.Keeps encode ⟨world, writeTable file.key write before, lost⟩ other uuid := by
        intro other member
        obtain ⟨uuid, stores | gone⟩ := kept other member
        · refine ⟨uuid, .inl (writeTable_apart held stores trivial ?_)⟩
          intro same
          obtain ⟨number, named, _⟩ := stores
          exact fresh number (.inl (same ▸ named))
        · exact ⟨uuid, .inr gone⟩
      have later := @ih
        (fun other member => traced other (List.mem_cons_of_mem _ member))
        (fun other member => encoded other (List.mem_cons_of_mem _ member)) _ wrote
        (files ++ returnedFiles [(file, write)]) whole
      have joined : files ++ returnedFiles ((file, write) :: rest) =
          files ++ returnedFiles [(file, write)] ++ returnedFiles rest := by
        simp [returnedFiles, List.filter_cons]
        split <;> simp
      rw [joined]
      apply later
      intro other member
      rcases List.mem_append.mp member with earlier | now
      · exact older other earlier
      · unfold returnedFiles at now
        obtain ⟨⟨own, call⟩, inside, rfl⟩ := List.mem_map.mp now
        obtain ⟨single, returned⟩ := List.mem_filter.mp inside
        obtain ⟨rfl, rfl⟩ := Prod.mk.inj (List.mem_singleton.mp single)
        exact ⟨_, .inl (text ▸ writeTable_stores held (of_decide_eq_true returned))⟩

/-- Every step keeps the visible files whole and the returned ones kept. -/
theorem DatasetStep.sealed {state after : DatasetWorld} (step : DatasetStep deployment encode state after)
    (held : state.Sealed deployment encode) : after.Sealed deployment encode := by
  cases step with
  | @world next step attempts owned encoded files disk wrote =>
      have grown := step.streamEffect.grown
      have rows : ∀ attempt ∈ attempts, ∀ row ∈ attempt.1.bucket.rows,
          TracedRow deployment next.produced attempt.1.key row := by
        intro attempt member row inside
        obtain ⟨run, live, buffered⟩ := owned attempt member
        exact ((held.traced.run run live).rows _ _ ⟨_, buffered, inside⟩).mono grown
      have whole : Disk.Whole DatasetPath.Shown (TracedTable deployment encode next.produced) state.disk :=
        ⟨fun path shown file named =>
          (held.whole.whole path shown file named).imp id (TracedTable.mono grown), held.whole.old⟩
      obtain ⟨after, kept⟩ := wrote.sealed rows encoded whole held.kept
      exact ⟨step.durable held.durable, step.writerEffect.traced grown held.durable held.traced, after,
        wrote.rooted held.rooted, files ▸ kept⟩
  | cleanup uuid =>
      refine ⟨held.durable, held.traced, held.whole.unlink _,
        held.rooted.unlink (temporary_leaf uuid), ?_⟩
      intro file member
      obtain ⟨own, stores | gone⟩ := held.kept file member
      · have apart := @temporary_apart (.partition file.key own) trivial uuid
        exact ⟨own, .inl ((stores.apart held.whole le_rfl).unlinked apart).stores⟩
      · exact ⟨own, .inr gone⟩
  | @powerLoss disk lost shared =>
      refine ⟨?_, ⟨held.traced.files, ?_⟩, held.whole.powerLoss lost, lost.rooted, ?_⟩
      · exact held.durable.stopped ⟨rfl, rfl, rfl⟩ ⟨[], (List.append_nil _).symm⟩ rfl
      · intro run impossible
        cases impossible
      · intro file member
        obtain ⟨own, stores | gone⟩ := held.kept file member
        · by_cases missing : disk.entry (.dateDirectory file.key) = none
          · obtain ⟨number, named, _⟩ := stores
            have here : state.disk.entry (.partition file.key own) ≠ none := by
              rw [named]
              exact Option.some_ne_none number
            exact ⟨own, .inr (.inr ⟨here, _, rfl, missing⟩)⟩
          · refine ⟨own, .inl (stores.powerLoss lost ?_)⟩
            intro directory above
            obtain rfl := Option.some.inj above
            exact missing
        · exact ⟨own, .inr (.inl gone)⟩

/-- At the start the dataset is empty. -/
theorem DatasetWorld.sealed_initial {start : DatasetWorld} (initial : start.world.Initial deployment)
    (fresh : start.world.files = []) (formatted : start.disk = Disk.empty) :
    start.Sealed deployment encode where
  durable := initial.durable
  traced := traced_of_steps initial fresh .refl
  whole := formatted ▸ Disk.empty_whole
  rooted := formatted ▸ Disk.empty_rooted
  kept := by
    intro file member
    rw [fresh] at member
    cases member

theorem sealed_of_steps {start state : DatasetWorld} (initial : start.world.Initial deployment)
    (fresh : start.world.files = []) (formatted : start.disk = Disk.empty)
    (steps : Relation.ReflTransGen (DatasetStep deployment encode) start state) :
    state.Sealed deployment encode := by
  induction steps with
  | refl => exact DatasetWorld.sealed_initial initial fresh formatted
  | tail _ step ih => exact step.sealed ih

/-- Behind any crash and power loss the visible files are whole, and acknowledged rows are kept. -/
theorem dataset_crashSafe {start state : DatasetWorld} (initial : start.world.Initial deployment)
    (fresh : start.world.files = []) (formatted : start.disk = Disk.empty)
    (steps : Relation.ReflTransGen (DatasetStep deployment encode) start state) :
    (∀ key uuid file, state.disk.entry (.partition key uuid) = some file →
      ∃ bucket, state.disk.bytes file = encode ⟨key, bucket⟩ ∧
        ∀ row ∈ bucket.rows, TracedRow deployment state.world.produced key row) ∧
    ∀ msgId ∈ state.world.acked, ∃ entry ∈ state.world.produced, entry.id = msgId ∧ ∃ key row,
      RowOf deployment.externals deployment.schemas deployment.includeMsgId msgId entry.fields key row ∧
      ∃ uuid bucket, row ∈ bucket.rows ∧
        (state.disk.Stores (.partition key uuid) (encode ⟨key, bucket⟩) ∨
          .partition key uuid ∈ state.lost) := by
  have held := sealed_of_steps initial fresh formatted steps
  constructor
  · intro key uuid file named
    exact (held.whole.whole (.partition key uuid) trivial file (.inl named)).2
  · intro msgId acked
    obtain ⟨entry, member, same, key, row, rowOf, file, inFiles, rfl, inside⟩ :=
      held.durable.acked msgId acked
    obtain ⟨uuid, kept⟩ := held.kept file inFiles
    exact ⟨entry, member, same, file.key, row, rowOf, uuid, file.bucket, inside, kept⟩

/-- No file has one of the later names. -/
def FreshFrom (bound : Nat) (disk : DatasetDisk) : Prop :=
  ∀ key uuid, bound ≤ uuid → ∀ number, ¬ disk.MayName (.partition key uuid) number

theorem empty_freshFrom : FreshFrom 0 (Disk.empty : DatasetDisk) := by
  rintro key uuid _ number (named | named)
  · cases named
  · cases named

/-- A write of a whole table under the first fresh name. -/
def wholeWrite (encode : SealedFile → List UInt8) (bound : Nat) (file : SealedFile) : TableWrite :=
  ⟨bound, [encode file], 7, true⟩

theorem wholeWrite_fresh {disk : DatasetDisk} {bound : Nat} (fresh : FreshFrom bound disk)
    (file : SealedFile) :
    FreshFrom (bound + 1) (writeTable file.key (wholeWrite encode bound file) disk) := by
  intro key uuid later number named
  have outside : ¬ (wholeWrite encode bound file).Names file.key (.partition key uuid) := by
    rintro (same | same | same | same)
    · cases same
    · injection same with _ same
      exact absurd later (by rw [same]; exact Nat.not_succ_le_self bound)
    · cases same
    · cases same
  refine fresh key uuid (Nat.le_of_succ_le later) number ?_
  exact Disk.calls_mayName outside (writeTable_confined 7) named

/-- Files can be written one after the other under fresh names. -/
theorem wrote_files (files : List SealedFile) {disk : DatasetDisk} {bound : Nat}
    (fresh : FreshFrom bound disk) :
    ∃ attempts after last, Wrote attempts disk after ∧ FreshFrom last after ∧
      returnedFiles attempts = files ∧
      (∀ attempt ∈ attempts, attempt.1 ∈ files ∧ attempt.2.chunks.flatten = encode attempt.1) := by
  induction files generalizing disk bound with
  | nil =>
      refine ⟨[], disk, bound, rfl, fresh, rfl, ?_⟩
      intro attempt impossible
      cases impossible
  | cons file rest ih =>
      obtain ⟨attempts, after, last, wrote, later, returned, encoded⟩ :=
        ih (@wholeWrite_fresh encode disk bound fresh file)
      refine ⟨(file, wholeWrite encode bound file) :: attempts, after, last,
        ⟨fun number => fresh file.key bound le_rfl number, wrote⟩, later, ?_, ?_⟩
      · rw [← returned]
        rfl
      · intro attempt member
        rcases List.mem_cons.mp member with rfl | inside
        · exact ⟨List.mem_cons_self, List.append_nil _⟩
        · exact ⟨List.mem_cons_of_mem _ (encoded attempt inside).1, (encoded attempt inside).2⟩

/-- Every run of the consumer system is a run on a disk. -/
theorem dataset_steps {start world : World} {disk : DatasetDisk} {bound : Nat}
    (lost : Set DatasetPath) (fresh : FreshFrom bound disk)
    (steps : Relation.ReflTransGen (WorldStep deployment) start world) :
    ∃ after last, FreshFrom last after ∧
      Relation.ReflTransGen (DatasetStep deployment encode) ⟨start, disk, lost⟩
        ⟨world, after, lost⟩ := by
  induction steps with
  | refl => exact ⟨disk, bound, fresh, .refl⟩
  | @tail before after _ step ih =>
      obtain ⟨middle, next, freshNext, run⟩ := ih
      have quiet : after.files = before.files → ∃ last, FreshFrom last middle ∧
          Relation.ReflTransGen (DatasetStep deployment encode) ⟨start, disk, lost⟩
            ⟨after, middle, lost⟩ := by
        intro same
        refine ⟨next, freshNext, run.tail (.world step [] ?_ ?_ ?_ rfl)⟩
        · intro attempt impossible
          cases impossible
        · intro attempt impossible
          cases impossible
        · rw [same]
          exact (List.append_nil _).symm
      cases step.writerEffect with
      | fresh files empty => exact ⟨middle, quiet files⟩
      | kept live now files offline => exact ⟨middle, quiet files⟩
      | applied live now files phase offline => exact ⟨middle, quiet files⟩
      | @flushed own live outcome part written files offline =>
          obtain ⟨attempts, final, last, wrote, later, returned, encoded⟩ :=
            @wrote_files encode part middle next freshNext
          refine ⟨final, last, later, run.tail (.world step attempts ?_ ?_ ?_ wrote)⟩
          · intro attempt member
            exact ⟨own, live, flush_owned outcome (written (encoded attempt member).1)⟩
          · exact fun attempt member => (encoded attempt member).2
          · rw [returned, files]

end Runs

/-- A sample format that keeps the entity ids. -/
def sampleEncode (file : SealedFile) : List UInt8 := file.bucket.entityIdCol.flatMap encodeUtf8

/-- A power loss that brings nothing back takes no directory. -/
theorem settled_lost {state : DatasetWorld} {deployment : Deployment} {encode : SealedFile → List UInt8}
    (held : state.Sealed deployment encode) : takenAlong state.disk state.disk.settled = ∅ := by
  refine Set.eq_empty_of_forall_notMem ?_
  rintro path ⟨here, directory, above, gone⟩
  exact here (held.rooted path directory above gone)

/-- The acknowledged row is stored behind a crash of the sample process and a power loss. -/
theorem dataset_crashSafe_sample : ∃ before after : DatasetWorld,
    Relation.ReflTransGen (DatasetStep sampleDeployment sampleEncode) ⟨sampleWorld, Disk.empty, ∅⟩
      before ∧ before.world.run = none ∧ Disk.PowerLoss DatasetPath.parent before.disk after.disk ∧
    DatasetStep sampleDeployment sampleEncode before after ∧ after.world.acked = [MsgId.of 2 0] ∧
    ∃ key row uuid bucket, RowOf sampleDeployment.externals sampleDeployment.schemas true (MsgId.of 2 0)
      sampleSecond.fields key row ∧ row ∈ bucket.rows ∧
      after.disk.Stores (.partition key uuid) (sampleEncode ⟨key, bucket⟩) := by
  obtain ⟨_, written, rowData, files, _, _, run⟩ := sampleCrashed_steps
  obtain ⟨disk, _, _, onDisk⟩ :=
    @dataset_steps sampleDeployment sampleEncode _ _ _ _ ∅ empty_freshFrom run
  have held := sealed_of_steps sampleWorld_initial rfl rfl onDisk
  have lost := Disk.settled_powerLoss held.rooted
  have step : DatasetStep sampleDeployment sampleEncode _ _ := .powerLoss lost fun _ => none
  obtain ⟨entry, member, same, key, row, rowOf, uuid, bucket, inside, stores | gone⟩ :=
    (dataset_crashSafe sampleWorld_initial rfl rfl (onDisk.tail step)).2 (MsgId.of 2 0)
      List.mem_cons_self
  · have second : entry = sampleSecond := by
      rcases List.mem_pair.mp member with rfl | rfl
      · exact absurd same (by decide)
      · rfl
    exact ⟨_, _, onDisk, rfl, lost, step, rfl, key, row, uuid, bucket, second ▸ rowOf, inside, stores⟩
  · rw [settled_lost held] at gone
    exact absurd gone (by simp)

end Quorin
