import Quorin.Construction.LatestFeatures
import Quorin.Proof.Offline.DateText
import Quorin.Proof.Offline.PointInTime

namespace Quorin

section Groups

variable {V : Type}

/-- The largest index of an id is the last of its places. -/
theorem lastIdx_spec {eids : List String} {entityId : String} (member : entityId ∈ eids) :
    eids[lastIdx eids entityId]? = some entityId ∧
      ∀ index, eids[index]? = some entityId → index ≤ lastIdx eids entityId := by
  have reversed : entityId ∈ eids.reverse := List.mem_reverse.mpr member
  have bound := List.idxOf_lt_length_of_mem reversed
  have found := List.getElem_idxOf bound
  rw [List.length_reverse] at bound
  unfold lastIdx
  constructor
  · rw [List.getElem_reverse] at found
    rw [List.getElem?_eq_getElem (by omega), found]
  · intro index place
    obtain ⟨inside, same⟩ := List.getElem?_eq_some_iff.mp place
    have fits : eids.length - 1 - index < eids.reverse.length := by
      rw [List.length_reverse]
      omega
    have mirrored : eids.reverse[eids.length - 1 - index] = entityId := by
      rw [List.getElem_reverse]
      simp only [show eids.length - 1 - (eids.length - 1 - index) = index by omega, same]
    have first : eids.reverse.idxOf entityId ≤ eids.length - 1 - index := by
      by_contra later
      have differs := List.not_of_lt_findIdx (Nat.lt_of_not_le later)
      simp [mirrored] at differs
    omega

/-- The last rows of the ids in an order of the grouping. -/
def latestRows (order : List String → List String) (features : List (FeatureRow V)) :
    List (FeatureRow V) :=
  ((order ((sortFeatures true features).map FeatureRow.entityId).dedup).map
    (lastIdx ((sortFeatures true features).map FeatureRow.entityId))).filterMap
      ((sortFeatures true features)[·]?)

/-- The last row of an id is the most recent of its rows. -/
theorem lastIdx_latest {features : List (FeatureRow V)} {entityId : String}
    (member : entityId ∈ (sortFeatures true features).map FeatureRow.entityId) :
    ∃ row, (sortFeatures true features)[lastIdx ((sortFeatures true features).map
        FeatureRow.entityId) entityId]? = some row ∧ row ∈ features ∧ row.entityId = entityId ∧
      ∀ other ∈ features, other.entityId = entityId → other.recency ≤ row.recency := by
  obtain ⟨place, last⟩ := lastIdx_spec member
  rw [List.getElem?_map] at place
  obtain ⟨row, found, same⟩ := Option.map_eq_some_iff.mp place
  refine ⟨row, found, List.mem_mergeSort.mp (List.mem_of_getElem? found), same, ?_⟩
  intro other inside otherSame
  have there : other ∈ sortFeatures true features := List.mem_mergeSort.mpr inside
  obtain ⟨index, otherFound⟩ := List.mem_iff_getElem?.mp there
  have before := last index (by rw [List.getElem?_map, otherFound, Option.map_some, otherSame])
  exact recency_of_position (sortFeatures_sorted features) otherFound found before
    (otherSame.trans same.symm)

variable {order : List String → List String} (reorders : ∀ ids, (order ids).Perm ids)

include reorders in
/-- The result has one row for each id, in the order of the grouping. -/
theorem latestRows_ids (features : List (FeatureRow V)) :
    (latestRows order features).map FeatureRow.entityId =
      order ((sortFeatures true features).map FeatureRow.entityId).dedup := by
  have known : ∀ ids : List String,
      (∀ entityId ∈ ids, entityId ∈ (sortFeatures true features).map FeatureRow.entityId) →
      ((ids.map (lastIdx ((sortFeatures true features).map FeatureRow.entityId))).filterMap
        ((sortFeatures true features)[·]?)).map FeatureRow.entityId = ids := by
    intro ids
    induction ids with
    | nil =>
        intro _
        rfl
    | cons entityId rest ih =>
        intro inside
        obtain ⟨row, found, _, same, _⟩ := lastIdx_latest (inside entityId List.mem_cons_self)
        rw [List.map_cons, List.filterMap_cons_some found, List.map_cons, same,
          ih fun other later => inside other (List.mem_cons_of_mem _ later)]
  apply known
  intro entityId member
  exact List.mem_dedup.mp ((reorders _).mem_iff.mp member)

include reorders in
theorem latestRows_distinct (features : List (FeatureRow V)) :
    ((latestRows order features).map FeatureRow.entityId).Nodup := by
  rw [latestRows_ids reorders]
  exact (reorders _).nodup_iff.mpr (List.nodup_dedup _)

include reorders in
theorem mem_latestRows_ids {features : List (FeatureRow V)} {entityId : String} :
    entityId ∈ (latestRows order features).map FeatureRow.entityId ↔
      ∃ row ∈ features, row.entityId = entityId := by
  rw [latestRows_ids reorders, (reorders _).mem_iff, List.mem_dedup, List.mem_map]
  constructor
  · rintro ⟨row, member, same⟩
    exact ⟨row, List.mem_mergeSort.mp member, same⟩
  · rintro ⟨row, member, same⟩
    exact ⟨row, List.mem_mergeSort.mpr member, same⟩

include reorders in
/-- Every row of the result is the most recent of its id. -/
theorem latestRows_latest {features : List (FeatureRow V)} {row : FeatureRow V}
    (member : row ∈ latestRows order features) :
    row ∈ features ∧ ∀ other ∈ features, other.entityId = row.entityId →
      other.recency ≤ row.recency := by
  obtain ⟨index, place, found⟩ := List.mem_filterMap.mp member
  obtain ⟨entityId, grouped, rfl⟩ := List.mem_map.mp place
  have known := List.mem_dedup.mp ((reorders _).mem_iff.mp grouped)
  obtain ⟨latest, here, inside, same, greatest⟩ := lastIdx_latest known
  obtain rfl := Option.some.inj (here.symm.trans found)
  exact ⟨inside, fun other there equal => greatest other there (equal.trans same)⟩

end Groups

/-- The row of an entity in a table. -/
def rowOf {V : Type} (table : List (FeatureRow V)) (entityId : String) : Option (FeatureRow V) :=
  table.find? fun row => row.entityId = entityId

section Windows

variable {V Q : Type}

/-- A window of int64 times with date texts is read from the kept files. -/
theorem windowRows_dated {dateString : Int → Option String} (files : List (PartitionFile V))
    {start stop : Int} {startDate stopDate : String} (startDated : dateString start = some startDate)
    (stopDated : dateString stop = some stopDate) (startFits : -2 ^ 63 ≤ start ∧ start < 2 ^ 63)
    (stopFits : -2 ^ 63 ≤ stop ∧ stop < 2 ^ 63) :
    ∃ features, windowRows dateString files start stop = .ok features ∧
      ∀ row, row ∈ features ↔ row ∈ (keptFiles startDate stopDate files).flatten ∧
        start ≤ row.eventTimeNs ∧ row.eventTimeNs ≤ stop := by
  obtain ⟨features, loaded⟩ :=
    eventTimeWindow_ok (keptFiles startDate stopDate files) startFits stopFits
  refine ⟨features, ?_, mem_eventTimeWindow loaded⟩
  unfold windowRows
  rw [startDated, stopDated]
  dsimp only
  rw [loaded]
  rfl

/-- A window of int64 times is read from the kept files. -/
theorem windowRows_ok (files : List (PartitionFile V)) {start stop : Int}
    (startFits : -2 ^ 63 ≤ start ∧ start < 2 ^ 63) (stopFits : -2 ^ 63 ≤ stop ∧ stop < 2 ^ 63) :
    ∃ startDate stopDate features, nsToDateStr start = some startDate ∧
      nsToDateStr stop = some stopDate ∧ windowRows nsToDateStr files start stop = .ok features ∧
      ∀ row, row ∈ features ↔ row ∈ (keptFiles startDate stopDate files).flatten ∧
        start ≤ row.eventTimeNs ∧ row.eventTimeNs ≤ stop := by
  obtain ⟨startDate, startDated⟩ := nsToDateStr_int64 startFits.1 startFits.2
  obtain ⟨stopDate, stopDated⟩ := nsToDateStr_int64 stopFits.1 stopFits.2
  obtain ⟨features, loaded, window⟩ :=
    windowRows_dated files startDated stopDated startFits stopFits
  exact ⟨startDate, stopDate, features, startDated, stopDated, loaded, window⟩

/-- The result is the last rows of the window. -/
theorem latestFeatures_rows {dateString : Int → Option String} (order : List String → List String)
    {files : List (PartitionFile V)} {snapshotNs lookbackDays : Int} (positive : 0 < lookbackDays)
    {features : List (FeatureRow V)}
    (loaded : windowRows dateString files (snapshotNs - lookbackDays * dayNs) snapshotNs = .ok features) :
    latestFeatures dateString order true files snapshotNs lookbackDays =
      .ok (latestRows order features) := by
  unfold latestFeatures
  rw [if_neg (by omega), loaded]
  cases features with
  | nil =>
      simp [latestRows, sortFeatures, bind, Except.bind, pure, Except.pure]
  | cons row rest => rfl

/-- The row of an entity in the result answers the query of the entity at the snapshot. -/
theorem latestRows_answers {order : List String → List String}
    (reorders : ∀ ids, (order ids).Perm ids) {features rows : List (FeatureRow V)}
    {lookbackNs : Int} {query : QueryRow Q}
    (window : ∀ row, row ∈ features ↔ row ∈ rows ∧
      query.asOfTime.toInt - lookbackNs ≤ row.eventTimeNs ∧ row.eventTimeNs ≤ query.asOfTime.toInt) :
    Answers rows lookbackNs query (rowOf (latestRows order features) query.entityId) := by
  cases found : rowOf (latestRows order features) query.entityId with
  | none =>
      intro row member inWindow
      have inside : row ∈ features := (window row).mpr ⟨member, inWindow.2⟩
      obtain ⟨latest, listed, same⟩ := List.mem_map.mp
        ((mem_latestRows_ids reorders).mpr ⟨row, inside, inWindow.1⟩)
      have missing := List.find?_eq_none.mp found latest listed
      exact missing (by simpa using same)
  | some row =>
      have listed := List.mem_of_find?_eq_some found
      have same : row.entityId = query.entityId := by simpa using List.find?_some found
      obtain ⟨inside, greatest⟩ := latestRows_latest reorders listed
      obtain ⟨stored, recent⟩ := (window row).mp inside
      refine ⟨stored, ⟨same, recent⟩, ?_⟩
      intro other member otherWindow
      exact greatest other ((window other).mpr ⟨member, otherWindow.2⟩)
        (otherWindow.1.trans same.symm)

/-- A read of queries at one time is a join of the rows of one window. -/
theorem readPartitions_rows {dateString : Int → Option String}
    (order : List GroupKey → List GroupKey) {files : List (PartitionFile V)}
    {queries : List (QueryRow Q)} (asked : queries ≠ []) {snapshot : Int64}
    (together : ∀ query ∈ queries, query.asOfTime = snapshot) {lookbackDays : Int}
    (positive : 0 < lookbackDays) {features : List (FeatureRow V)}
    (loaded : windowRows dateString files (snapshot.toInt - lookbackDays * dayNs) snapshot.toInt =
      .ok features) :
    readPartitions dateString order true files queries lookbackDays =
      .ok (asofJoin true (lookbackDays * dayNs) queries (dedupFeatures order true features)) := by
  have times : queries.map (fun query => query.asOfTime.toInt) =
      List.replicate queries.length snapshot.toInt := by
    apply List.eq_replicate_iff.mpr
    refine ⟨List.length_map _, ?_⟩
    intro time member
    obtain ⟨query, inside, rfl⟩ := List.mem_map.mp member
    rw [together query inside]
  have some : queries.length ≠ 0 := by simpa using asked
  unfold readPartitions
  rw [if_neg (by omega)]
  simp only [times, List.min?_replicate, List.max?_replicate, some, loaded, if_false]
  rfl

/-- The two readers agree on the entities of a snapshot. -/
theorem latestFeatures_agrees (files : List (PartitionFile V))
    (same : SameMessageSameRow (files.flatMap PartitionFile.rows)) (snapshot : Int64)
    (lookbackDays : Int) (positive : 0 < lookbackDays)
    (fits : -2 ^ 63 ≤ snapshot.toInt - lookbackDays * dayNs)
    (entityOrder : List String → List String) (entityReorders : ∀ ids, (entityOrder ids).Perm ids)
    (keyOrder : List GroupKey → List GroupKey) (keyReorders : ∀ keys, (keyOrder keys).Perm keys) :
    ∃ startDate stopDate latest,
      nsToDateStr (snapshot.toInt - lookbackDays * dayNs) = some startDate ∧
      nsToDateStr snapshot.toInt = some stopDate ∧
      latestFeatures nsToDateStr entityOrder true files snapshot.toInt lookbackDays = .ok latest ∧
      (latest.map FeatureRow.entityId).Nodup ∧
      (∀ entityId, entityId ∈ latest.map FeatureRow.entityId ↔
        ∃ row ∈ (keptFiles startDate stopDate files).flatten, row.entityId = entityId ∧
          snapshot.toInt - lookbackDays * dayNs ≤ row.eventTimeNs ∧
          row.eventTimeNs ≤ snapshot.toInt) ∧
      ∀ queries : List (QueryRow Q), queries ≠ [] →
        (∀ query ∈ queries, query.asOfTime = snapshot) →
        readPartitions nsToDateStr keyOrder true files queries lookbackDays =
          .ok (queries.map fun query =>
            (query, (rowOf latest query.entityId).map (FeatureRow.part true))) := by
  have forward : 0 < lookbackDays * dayNs := Int.mul_pos positive (by decide)
  have stopFits : -2 ^ 63 ≤ snapshot.toInt ∧ snapshot.toInt < 2 ^ 63 :=
    ⟨snapshot.le_toInt, snapshot.toInt_lt⟩
  obtain ⟨startDate, stopDate, features, startDated, stopDated, loaded, window⟩ :=
    windowRows_ok files ⟨fits, by omega⟩ stopFits
  refine ⟨startDate, stopDate, latestRows entityOrder features, startDated, stopDated,
    latestFeatures_rows entityOrder positive loaded, latestRows_distinct entityReorders features,
    ?_, ?_⟩
  · intro entityId
    rw [mem_latestRows_ids entityReorders]
    constructor
    · rintro ⟨row, member, named⟩
      obtain ⟨stored, recent⟩ := (window row).mp member
      exact ⟨row, stored, named, recent⟩
    · rintro ⟨row, stored, named, recent⟩
      exact ⟨row, (window row).mpr ⟨stored, recent⟩, named⟩
  · intro queries asked together
    rw [readPartitions_rows keyOrder asked together positive loaded, asofJoin]
    have within : ∀ row ∈ (keptFiles startDate stopDate files).flatten,
        row ∈ files.flatMap PartitionFile.rows := by
      intro row member
      obtain ⟨rows, kept, inside⟩ := List.mem_flatten.mp member
      obtain ⟨file, listed, rfl⟩ := List.mem_map.mp kept
      exact List.mem_flatMap.mpr ⟨file, List.mem_of_mem_filter listed, inside⟩
    have keptSame := same.mono within
    have featuresSame := keptSame.mono fun row member => ((window row).mp member).1
    refine congrArg Except.ok (List.map_congr_left ?_)
    intro query member
    have snapshotTime := together query member
    have queryWindow : ∀ row, row ∈ features ↔
        row ∈ (keptFiles startDate stopDate files).flatten ∧
        query.asOfTime.toInt - lookbackDays * dayNs ≤ row.eventTimeNs ∧
          row.eventTimeNs ≤ query.asOfTime.toInt := by
      rw [snapshotTime]
      exact window
    have seen : ∀ row, InWindow (lookbackDays * dayNs) query row →
        (row ∈ dedupFeatures keyOrder true features ↔
          row ∈ (keptFiles startDate stopDate files).flatten) := by
      intro row inWindow
      rw [mem_dedupFeatures keyReorders featuresSame, queryWindow]
      exact ⟨And.left, fun stored => ⟨stored, inWindow.2⟩⟩
    have joined := asofJoin_answers (dedupFeatures keyOrder true features)
      (lookbackDays * dayNs) query
    rw [answers_unique keptSame (answers_congr seen joined)
      (latestRows_answers entityReorders queryWindow)]

end Windows

/-- The sample rows in the partition of the first day. -/
def samplePartitions : List (PartitionFile Nat) :=
  sampleFeatureFiles.map fun rows => ⟨"1970-01-01", rows⟩

theorem latestFeatures_agrees_sample :
    ∃ startDate stopDate latest,
      nsToDateStr ((6 : Int64).toInt - 1 * dayNs) = some startDate ∧
      nsToDateStr (6 : Int64).toInt = some stopDate ∧
      latestFeatures nsToDateStr id true samplePartitions (6 : Int64).toInt 1 = .ok latest ∧
      (latest.map FeatureRow.entityId).Nodup ∧
      (∀ entityId, entityId ∈ latest.map FeatureRow.entityId ↔
        ∃ row ∈ (keptFiles startDate stopDate samplePartitions).flatten, row.entityId = entityId ∧
          (6 : Int64).toInt - 1 * dayNs ≤ row.eventTimeNs ∧ row.eventTimeNs ≤ (6 : Int64).toInt) ∧
      ∀ queries : List (QueryRow Unit), queries ≠ [] →
        (∀ query ∈ queries, query.asOfTime = 6) →
        readPartitions nsToDateStr id true samplePartitions queries 1 =
          .ok (queries.map fun query =>
            (query, (rowOf latest query.entityId).map (FeatureRow.part true))) :=
  latestFeatures_agrees samplePartitions (by unfold SameMessageSameRow; decide) 6 1 (by decide)
    (by decide) id (fun _ => List.Perm.refl _) id fun _ => List.Perm.refl _

/-- A lookback that starts before the first int64 instant raises. -/
theorem latestFeatures_overflows :
    SameMessageSameRow (samplePartitions.flatMap PartitionFile.rows) ∧ (0 : Int) < 200000 ∧
      ∀ latest, latestFeatures nsToDateStr id true samplePartitions 6 200000 ≠ .ok latest := by
  refine ⟨by unfold SameMessageSameRow; decide, by decide, ?_⟩
  have raises : latestFeatures nsToDateStr id true samplePartitions 6 200000 =
      .error (.window (.literal (6 - 200000 * dayNs))) := rfl
  intro latest succeeds
  rw [raises] at succeeds
  cases succeeds

end Quorin
