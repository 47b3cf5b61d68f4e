import Quorin.Proof.Offline.ColumnTables

namespace Quorin

/-- The writer with list objects behaves as the writer with buckets. -/
structure ColumnStore.Simulates (externals : Externals) (store : ColumnStore) (held : OfflineStore) :
    Prop where
  included : store.includeMsgId = held.includeMsgId
  cached : store.dateCache = held.dateCache
  keys : store.buffers.map Prod.fst = held.buffers.map Prod.fst
  represents : ∀ key columns bucket, (key, columns) ∈ store.buffers → (key, bucket) ∈ held.buffers →
    Represents externals.hashName key.1 store.includeMsgId store.heap columns bucket
  apart : ∀ key columns other others, (key, columns) ∈ store.buffers → (other, others) ∈ store.buffers →
    key ≠ other → ∀ ref ∈ columns.refs, ref ∉ others.refs
  bounded : ∀ key columns, (key, columns) ∈ store.buffers → ∀ ref ∈ columns.refs, ref < store.heap.next

section Simulation

variable {externals : Externals} {store : ColumnStore} {held : OfflineStore}

theorem ColumnStore.empty_simulates (externals : Externals) (includeMsgId : Bool) :
    (ColumnStore.empty includeMsgId).Simulates externals (.empty includeMsgId) :=
  ⟨rfl, rfl, rfl, fun _ _ _ member => absurd member List.not_mem_nil,
    fun _ _ _ _ member => absurd member List.not_mem_nil, fun _ _ member => absurd member List.not_mem_nil⟩

variable (simulates : store.Simulates externals held)

include simulates in
theorem ColumnStore.Simulates.keysDistinct : (store.buffers.map Prod.fst).Nodup := by
  rw [simulates.keys]
  exact held.keysDistinct

include simulates in
theorem ColumnStore.Simulates.getDateStr (eventTimeNs : Int) :
    store.getDateStr externals eventTimeNs = held.getDateStr externals eventTimeNs := by
  unfold ColumnStore.getDateStr OfflineStore.getDateStr
  cases found : held.dateCache.lookup (eventTimeNs / dayNs) <;>
    simp only [simulates.cached, found]

include simulates in
/-- A bucket of the one writer comes with a bucket of the other. -/
theorem ColumnStore.Simulates.partner {key : BucketKey} :
    (∃ columns, (key, columns) ∈ store.buffers) ↔ ∃ bucket, (key, bucket) ∈ held.buffers := by
  have same : key ∈ store.buffers.map Prod.fst ↔ key ∈ held.buffers.map Prod.fst := by
    rw [simulates.keys]
  simpa using same

/-- The bucket that an append works on, in both writers. -/
structure OpenedColumns (externals : Externals) (opened : ColumnStore) (held : OfflineStore)
    (key : BucketKey) (columns : ColumnBucket) (bucket : Bucket) : Prop where
  simulates : opened.Simulates externals held
  stored : (key, columns) ∈ opened.buffers
  bucketStored : (key, bucket) ∈ held.buffers
  represents : Represents externals.hashName key.1 opened.includeMsgId opened.heap columns bucket

include simulates in
/-- Both writers open a bucket for a key. -/
theorem ColumnStore.Simulates.opened {plan : ColumnPlan} {types : List ArrowType} {key : BucketKey}
    (planned : PlannedColumns externals.hashName key.1 store.includeMsgId plan types)
    {arrow : ArrowPlan} (arrowPlanned : arrowPlanFor externals.hashName key.1 = .ok arrow) :
    ∃ columns opened, store.openBucket plan key = some (columns, opened) ∧
      OpenedColumns externals opened (held.withBucket key
        ((held.buffers.lookup key).getD (makeBucket arrow held.includeMsgId))) key columns
        ((held.buffers.lookup key).getD (makeBucket arrow held.includeMsgId)) := by
  have distinct := simulates.keysDistinct
  unfold ColumnStore.openBucket
  cases found : store.buffers.lookup key with
  | some columns =>
      have stored := lookup_mem found
      obtain ⟨bucket, member⟩ := simulates.partner.mp ⟨columns, stored⟩
      rw [mem_lookup held.keysDistinct member, Option.getD_some]
      have represents := simulates.represents key columns bucket stored member
      have same : ∀ entry : BucketKey × Bucket,
          entry ∈ (held.withBucket key bucket).buffers ↔ entry ∈ held.buffers := by
        rintro ⟨other, there⟩
        rw [show (held.withBucket key bucket).buffers = setBucket held.buffers key bucket from rfl,
          setBucket_mem]
        constructor
        · rintro (⟨rfl, rfl⟩ | ⟨_, inside⟩)
          · exact member
          · exact inside
        · intro inside
          by_cases here : other = key
          · subst here
            have unique := mem_lookup held.keysDistinct inside
            rw [mem_lookup held.keysDistinct member] at unique
            exact Or.inl ⟨rfl, (Option.some.inj unique).symm⟩
          · exact Or.inr ⟨here, inside⟩
      refine ⟨columns, store, rfl, ⟨⟨simulates.included, simulates.cached, ?_, ?_, simulates.apart,
        simulates.bounded⟩, stored, (same _).mpr member, represents⟩⟩
      · rw [show (held.withBucket key bucket).buffers = setBucket held.buffers key bucket from rfl,
          setBucket_keys, if_pos (List.mem_map_of_mem member)]
        exact simulates.keys
      · intro other others there inside held'
        exact simulates.represents other others there inside ((same _).mp held')
  | none =>
      have absent : key ∉ store.buffers.map Prod.fst := by
        intro member
        obtain ⟨⟨other, columns⟩, inside, rfl⟩ := List.mem_map.mp member
        rw [mem_lookup distinct inside] at found
        cases found
      have missing : key ∉ held.buffers.map Prod.fst := by
        rw [← simulates.keys]
        exact absent
      have lookup : held.buffers.lookup key = none := by
        cases stored : held.buffers.lookup key with
        | none => rfl
        | some bucket => exact absurd (List.mem_map_of_mem (lookup_mem stored)) missing
      obtain ⟨_, next, _, kept⟩ := @allocColumns_spec (bucketColumns key.1 store.includeMsgId)
        planned.distinct store.heap [] (fun _ _ => List.not_mem_nil)
      have represents := @Represents.fresh externals.hashName key.1 store.includeMsgId planned.distinct
        store.heap arrow arrowPlanned
      rw [lookup, Option.getD_none, planned.made, Option.map_some, ← simulates.included]
      generalize (allocColumns (bucketColumns key.1 store.includeMsgId) store.heap []).2 = after
        at next kept represents
      have refs := @mem_columnBucketAt externals.hashName key.1 store.includeMsgId store.heap.next
      generalize columnBucketAt externals.hashName key.1 store.includeMsgId store.heap.next = columns
        at represents refs
      have entries : ∀ entry : BucketKey × ColumnBucket, entry ∈ store.buffers ++ [(key, columns)] ↔
          entry ∈ store.buffers ∨ entry = (key, columns) := by
        intro entry
        rw [List.mem_append, List.mem_singleton]
      refine ⟨columns, _, rfl, ⟨⟨simulates.included, simulates.cached, ?_, ?_, ?_, ?_⟩, ?_, ?_, ?_⟩⟩
      · rw [show (held.withBucket key (makeBucket arrow store.includeMsgId)).buffers =
          setBucket held.buffers key (makeBucket arrow store.includeMsgId) from rfl, setBucket_keys,
          if_neg missing, List.map_append, simulates.keys]
        rfl
      · intro other others there inside stored
        rcases setBucket_mem.mp stored with ⟨rfl, rfl⟩ | ⟨different, before⟩
        · rcases (entries _).mp inside with old | new
          · exact absurd (List.mem_map_of_mem old) absent
          · obtain ⟨_, rfl⟩ := Prod.mk.inj new
            exact represents
        · rcases (entries _).mp inside with old | new
          · exact (simulates.represents other others there old before).frame fun ref member =>
              kept ref (simulates.bounded other others old ref member)
          · exact absurd (Prod.mk.inj new).1 different
      · intro first former second latter inside there different ref member
        rcases (entries _).mp inside with old | new
        · rcases (entries _).mp there with oldToo | newToo
          · exact simulates.apart first former second latter old oldToo different ref member
          · obtain ⟨rfl, rfl⟩ := Prod.mk.inj newToo
            have small := simulates.bounded first former old ref member
            rw [refs]
            omega
        · obtain ⟨rfl, rfl⟩ := Prod.mk.inj new
          rcases (entries _).mp there with oldToo | newToo
          · intro shared
            have small := simulates.bounded second latter oldToo ref shared
            have large := (refs.mp member).1
            omega
          · exact absurd (Prod.mk.inj newToo).1.symm different
      · intro other others inside ref member
        rcases (entries _).mp inside with old | new
        · have small := simulates.bounded other others old ref member
          change ref < after.next
          omega
        · obtain ⟨rfl, rfl⟩ := Prod.mk.inj new
          have range := refs.mp member
          change ref < after.next
          omega
      · exact (entries _).mpr (Or.inr rfl)
      · exact setBucket_mem.mpr (Or.inl ⟨rfl, rfl⟩)
      · exact represents

/-- The appends of one row to an opened bucket push the row in both writers. -/
theorem OpenedColumns.pushed {opened : ColumnStore} {writer : OfflineStore} {key : BucketKey}
    {columns : ColumnBucket} {bucket : Bucket}
    (both : OpenedColumns externals opened writer key columns bucket) {values : List WireValue}
    (count : values.length = columns.wireLists.length) (entityId : String) (eventTimeNs : Int)
    (parsed : Int × Int) :
    ColumnStore.Simulates externals
      { opened with heap := columns.pushRow opened.heap entityId eventTimeNs values parsed }
      (writer.withBucket key (bucket.push entityId eventTimeNs values parsed)) := by
  obtain ⟨simulates, stored, bucketStored, represents⟩ := both
  have refs := cells_refs count entityId eventTimeNs parsed
  have frame : ∀ ref, ref ∉ columns.refs →
      (columns.pushRow opened.heap entityId eventTimeNs values parsed).contents ref =
        opened.heap.contents ref := by
    intro ref outside
    rw [pushRow_cells]
    exact pushes_other (by rw [refs]; exact outside)
  have next : (columns.pushRow opened.heap entityId eventTimeNs values parsed).next =
      opened.heap.next := by
    rw [pushRow_cells]
    exact pushes_next _
  refine ⟨simulates.included, simulates.cached, ?_, ?_, simulates.apart, ?_⟩
  · rw [show (writer.withBucket key (bucket.push entityId eventTimeNs values parsed)).buffers =
      setBucket writer.buffers key (bucket.push entityId eventTimeNs values parsed) from rfl,
      setBucket_keys, if_pos (List.mem_map_of_mem bucketStored)]
    exact simulates.keys
  · intro other former latter inside there
    rcases setBucket_mem.mp there with ⟨rfl, rfl⟩ | ⟨different, before⟩
    · have same := mem_lookup simulates.keysDistinct inside
      rw [mem_lookup simulates.keysDistinct stored] at same
      obtain rfl := Option.some.inj same
      exact represents.push count entityId eventTimeNs parsed
    · apply (simulates.represents other former latter inside before).frame
      intro ref member
      exact frame ref (simulates.apart other former key columns inside stored different ref member)
  · intro other others inside ref member
    change ref < (columns.pushRow opened.heap entityId eventTimeNs values parsed).next
    rw [next]
    exact simulates.bounded other others inside ref member

/-- Both writers return, or both raise the error of the same check. -/
def SameOutcome (columns : Except ColumnError Unit) (buckets : Except AppendError Unit) : Prop :=
  (columns = .ok () ∧ buckets = .ok ()) ∨
    ∃ error, columns = .error (.append error) ∧ buckets = .error error

include simulates in
/-- An append on list objects is an append on buckets. -/
theorem append_simulates (schema : FeatureSchema) (entityId : String) (eventTimeNs : Int)
    (values : List WireValue) (msgId : List UInt8) :
    SameOutcome (store.append externals schema entityId eventTimeNs values msgId).1
        (held.append externals schema entityId eventTimeNs values msgId).1 ∧
      (store.append externals schema entityId eventTimeNs values msgId).2.Simulates externals
        (held.append externals schema entityId eventTimeNs values msgId).2 := by
  unfold ColumnStore.append OfflineStore.append
  rcases columnPlanFor_cases externals.hashName schema store.includeMsgId with
    ⟨error, columnFailed, failed⟩ | ⟨plan, arrow, columnPlanned, arrowPlanned⟩
  · rw [columnFailed, failed]
    exact ⟨Or.inr ⟨error, rfl, rfl⟩, simulates⟩
  · rw [columnPlanned, arrowPlanned, simulates.getDateStr]
    cases dated : held.getDateStr externals eventTimeNs with
    | none => exact ⟨Or.inr ⟨_, rfl, rfl⟩, simulates⟩
    | some found =>
        obtain ⟨date, dateCache⟩ := found
        obtain ⟨types, planned⟩ := columnPlanFor_planned columnPlanned
        have cached : ColumnStore.Simulates externals { store with dateCache := dateCache }
            { held with dateCache := dateCache } :=
          ⟨simulates.included, rfl, simulates.keys, simulates.represents, simulates.apart,
            simulates.bounded⟩
        obtain ⟨columns, opened, made, both⟩ := @ColumnStore.Simulates.opened externals _ _ cached plan
          types (schema, date) planned arrow arrowPlanned
        dsimp only at both ⊢
        rw [made]
        dsimp only
        have width : columns.wireLists.length = ((held.buffers.lookup (schema, date)).getD
            (makeBucket arrow held.includeMsgId)).wireLists.length := by
          rw [← both.represents.wireLists, List.length_map]
        generalize (held.buffers.lookup (schema, date)).getD
          (makeBucket arrow held.includeMsgId) = bucket at both width
        rw [width]
        split
        · exact ⟨Or.inr ⟨_, rfl, rfl⟩, both.simulates⟩
        · rename_i count
          have parses : columns.parseMsgId msgId = parseMsgId bucket msgId := by
            have stored := both.represents.msgIds
            unfold ColumnBucket.parseMsgId parseMsgId
            cases first : columns.msgIdCols <;> cases second : bucket.msgIdCols
            · rfl
            · simp [first, second] at stored
            · simp [first, second] at stored
            · rfl
          rw [parses]
          cases parsed : parseMsgId bucket msgId with
          | error error => exact ⟨Or.inr ⟨error, rfl, rfl⟩, both.simulates⟩
          | ok ids =>
              exact ⟨Or.inl ⟨rfl, rfl⟩, both.pushed (by rw [width]; exact not_not.mp count) entityId
                eventTimeNs ids⟩

/-- Two entries of the buffers belong to one key. -/
def SamePlace (externals : Externals) (includeMsgId : Bool) (heap : ListHeap)
    (entry : BucketKey × ColumnBucket) (other : BucketKey × Bucket) : Prop :=
  entry.1 = other.1 ∧ Represents externals.hashName entry.1.1 includeMsgId heap entry.2 other.2

/-- A sealed table holds the columns of a sealed bucket. -/
def SameFile (externals : Externals) (table : SealedTable) (file : SealedFile) : Prop :=
  table.key = file.key ∧ table.table = file.bucket.table externals.hashName file.key.1

include simulates in
theorem ColumnStore.Simulates.pairs :
    List.Forall₂ (SamePlace externals store.includeMsgId store.heap) store.buffers held.buffers := by
  have count : store.buffers.length = held.buffers.length := by
    have lengths := congrArg List.length simulates.keys
    simpa using lengths
  refine List.forall₂_iff_get.mpr ⟨count, ?_⟩
  intro index inside there
  have key : store.buffers[index].1 = held.buffers[index].1 := by
    have same := List.getElem_of_eq simulates.keys (i := index) (by simpa using inside)
    simpa using same
  refine ⟨key, simulates.represents _ _ _ (List.getElem_mem inside) ?_⟩
  rw [List.get_eq_getElem, List.get_eq_getElem, key]
  exact List.getElem_mem there

/-- The loop of the flush seals the same columns in both writers. -/
theorem flushTables_simulates (outcome : BucketKey → WriteOutcome) {includeMsgId : Bool}
    {heap : ListHeap} {snapshot : List (BucketKey × ColumnBucket)} {buckets : List (BucketKey × Bucket)}
    (pairs : List.Forall₂ (SamePlace externals includeMsgId heap) snapshot buckets) :
    List.Forall₂ (SameFile externals)
        (flushTables externals includeMsgId heap outcome snapshot).1
        (flushLoop externals outcome buckets).1 ∧
      (flushTables externals includeMsgId heap outcome snapshot).2 =
        (flushLoop externals outcome buckets).2 := by
  induction pairs with
  | nil => exact ⟨.nil, rfl⟩
  | @cons entry other rest others same _ ih =>
      obtain ⟨key, columns⟩ := entry
      obtain ⟨otherKey, bucket⟩ := other
      obtain ⟨rfl, represents⟩ : key = otherKey ∧ _ := same
      unfold flushTables flushLoop
      rcases columnPlanFor_cases externals.hashName key.1 includeMsgId with
        ⟨error, columnFailed, failed⟩ | ⟨plan, arrow, columnPlanned, arrowPlanned⟩
      · rw [columnFailed, failed]
        exact ⟨.nil, rfl⟩
      · obtain ⟨types, planned⟩ := columnPlanFor_planned columnPlanned
        rw [columnPlanned, arrowPlanned]
        dsimp only
        rw [represents.fromPydict planned arrowPlanned]
        cases bucket.fromPydict externals arrow with
        | false => exact ⟨.nil, rfl⟩
        | true =>
            simp only [if_true]
            cases outcome key with
            | raisedBefore => exact ⟨.nil, rfl⟩
            | raisedAfter => exact ⟨.cons ⟨rfl, rfl⟩ .nil, rfl⟩
            | renamed =>
                obtain ⟨files, written⟩ := ih
                refine ⟨.cons ⟨rfl, rfl⟩ files, ?_⟩
                rw [Prod.ext_iff] at written
                exact Prod.ext (congrArg (key :: ·) written.1) written.2

/-- The entries of the buffers that a test on their keys keeps belong to one key again. -/
theorem samePlace_filter {includeMsgId : Bool} {heap : ListHeap}
    {snapshot : List (BucketKey × ColumnBucket)} {buckets : List (BucketKey × Bucket)}
    (pairs : List.Forall₂ (SamePlace externals includeMsgId heap) snapshot buckets)
    {first : BucketKey × ColumnBucket → Bool} {second : BucketKey × Bucket → Bool}
    (agree : ∀ entry other, SamePlace externals includeMsgId heap entry other →
      first entry = second other) :
    List.Forall₂ (SamePlace externals includeMsgId heap) (snapshot.filter first)
      (buckets.filter second) := by
  induction pairs with
  | nil => exact .nil
  | @cons entry other rest others same _ ih =>
      rw [List.filter_cons, List.filter_cons, agree entry other same]
      split
      · exact .cons same ih
      · exact ih

/-- Buffers with fewer buckets are simulated by buffers with the same fewer buckets. -/
theorem ColumnStore.Simulates.kept (simulates : store.Simulates externals held)
    {fewer : List (BucketKey × ColumnBucket)} {buckets : List (BucketKey × Bucket)}
    (some : fewer.Sublist store.buffers) (someToo : buckets.Sublist held.buffers)
    (distinct : (buckets.map Prod.fst).Nodup)
    (keys : fewer.map Prod.fst = buckets.map Prod.fst) :
    ColumnStore.Simulates externals { store with buffers := fewer }
      { held with buffers := buckets, keysDistinct := distinct } :=
  ⟨simulates.included, simulates.cached, keys,
    fun key columns bucket inside there =>
      simulates.represents key columns bucket (some.subset inside) (someToo.subset there),
    fun key columns other others inside there =>
      simulates.apart key columns other others (some.subset inside) (some.subset there),
    fun key columns inside => simulates.bounded key columns (some.subset inside)⟩

include simulates in
/-- A flush of list objects is a flush of buckets. -/
theorem flush_simulates (outcome : BucketKey → WriteOutcome) :
    (store.flush externals outcome).1 = (held.flush externals outcome).1 ∧
      (store.flush externals outcome).2.1.Simulates externals (held.flush externals outcome).2.1 ∧
      List.Forall₂ (SameFile externals) (store.flush externals outcome).2.2
        (held.flush externals outcome).2.2 := by
  have snapshots : List.Forall₂ (SamePlace externals store.includeMsgId store.heap)
      (store.buffers.filter fun entry => !(store.heap.contents entry.2.entityIdCol).isEmpty)
      (held.buffers.filter fun entry => entry.2.entityIdCol ≠ []) := by
    apply samePlace_filter simulates.pairs
    intro entry other same
    rw [same.2.entityIds]
    cases other.2.entityIdCol <;> rfl
  have some : (store.buffers.filter fun entry =>
      !(store.heap.contents entry.2.entityIdCol).isEmpty).Sublist store.buffers := List.filter_sublist
  have someToo : (held.buffers.filter fun entry => entry.2.entityIdCol ≠ []).Sublist held.buffers :=
    List.filter_sublist
  have keys : ∀ {fewer : List (BucketKey × ColumnBucket)} {buckets : List (BucketKey × Bucket)},
      List.Forall₂ (SamePlace externals store.includeMsgId store.heap) fewer buckets →
        fewer.map Prod.fst = buckets.map Prod.fst := by
    intro fewer buckets pairs
    induction pairs with
    | nil => rfl
    | cons same _ ih => rw [List.map_cons, List.map_cons, same.1, ih]
  obtain ⟨files, rest⟩ := flushTables_simulates outcome snapshots
  unfold ColumnStore.flush OfflineStore.flush
  dsimp only
  rw [Prod.ext_iff] at rest
  obtain ⟨written, finished⟩ := rest
  refine ⟨finished, ?_, files⟩
  apply simulates.kept
  · split
    · exact List.nil_sublist _
    · exact List.filter_sublist.trans some
  · split
    · exact List.nil_sublist _
    · exact List.filter_sublist.trans someToo
  · rw [finished]
    split
    · rfl
    · apply keys
      apply samePlace_filter snapshots
      intro entry other same
      rw [same.1, written]

end Simulation

end Quorin
