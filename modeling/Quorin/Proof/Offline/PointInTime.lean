import Quorin.Construction.PointInTime
import Quorin.Library.Utf8Order
import Mathlib.Data.Prod.Lex
import Mathlib.Data.List.Dedup

namespace Quorin

section Specification

variable {V Q : Type}

/-- The order of the answers of one entity. -/
def FeatureRow.recency (row : FeatureRow V) : Int ×ₗ Int ×ₗ Int :=
  toLex (row.eventTimeNs, toLex (row.msgIdMs, row.msgIdSeq))

/-- The rows that one query may see. -/
def InWindow (lookbackNs : Int) (query : QueryRow Q) (row : FeatureRow V) : Prop :=
  row.entityId = query.entityId ∧ query.asOfTime.toInt - lookbackNs ≤ row.eventTimeNs ∧
    row.eventTimeNs ≤ query.asOfTime.toInt

/-- The answer is the latest row of the window, or nothing when the window is empty. -/
def Answers (rows : List (FeatureRow V)) (lookbackNs : Int) (query : QueryRow Q) :
    Option (FeatureRow V) → Prop
  | some row => row ∈ rows ∧ InWindow lookbackNs query row ∧
      ∀ other ∈ rows, InWindow lookbackNs query other → other.recency ≤ row.recency
  | none => ∀ row ∈ rows, ¬ InWindow lookbackNs query row

/-- The rows of one message are identical. -/
def SameMessageSameRow (rows : List (FeatureRow V)) : Prop :=
  ∀ first ∈ rows, ∀ second ∈ rows, first.msgIdMs = second.msgIdMs →
    first.msgIdSeq = second.msgIdSeq → first = second

theorem SameMessageSameRow.mono {rows others : List (FeatureRow V)}
    (same : SameMessageSameRow rows) (within : ∀ row ∈ others, row ∈ rows) :
    SameMessageSameRow others :=
  fun first firstIn second secondIn =>
    same first (within first firstIn) second (within second secondIn)

theorem recency_injective {rows : List (FeatureRow V)} (same : SameMessageSameRow rows)
    {first second : FeatureRow V} (firstIn : first ∈ rows) (secondIn : second ∈ rows)
    (equal : first.recency = second.recency) : first = second := by
  simp only [FeatureRow.recency, EmbeddingLike.apply_eq_iff_eq, Prod.mk.injEq] at equal
  exact same first firstIn second secondIn equal.2.1 equal.2.2

/-- A query has one answer. -/
theorem answers_unique {rows : List (FeatureRow V)} (same : SameMessageSameRow rows)
    {lookbackNs : Int} {query : QueryRow Q} {first second : Option (FeatureRow V)}
    (firstAnswers : Answers rows lookbackNs query first)
    (secondAnswers : Answers rows lookbackNs query second) : first = second := by
  cases first with
  | none =>
      cases second with
      | none => rfl
      | some row => exact absurd secondAnswers.2.1 (firstAnswers row secondAnswers.1)
  | some row =>
      cases second with
      | none => exact absurd firstAnswers.2.1 (secondAnswers row firstAnswers.1)
      | some other =>
          have below := firstAnswers.2.2 other secondAnswers.1 secondAnswers.2.1
          have above := secondAnswers.2.2 row firstAnswers.1 firstAnswers.2.1
          rw [recency_injective same firstAnswers.1 secondAnswers.1 (le_antisymm above below)]

/-- The answer depends on the rows that the query may see and on nothing else. -/
theorem answers_congr {rows others : List (FeatureRow V)} {lookbackNs : Int} {query : QueryRow Q}
    {answer : Option (FeatureRow V)}
    (visible : ∀ row, InWindow lookbackNs query row → (row ∈ rows ↔ row ∈ others))
    (answers : Answers rows lookbackNs query answer) : Answers others lookbackNs query answer := by
  cases answer with
  | none =>
      intro row member inWindow
      exact answers row ((visible row inWindow).mpr member) inWindow
  | some row =>
      obtain ⟨member, inWindow, latest⟩ := answers
      refine ⟨(visible row inWindow).mp member, inWindow, ?_⟩
      intro other otherIn otherWindow
      exact latest other ((visible other otherWindow).mpr otherIn) otherWindow

end Specification

section Sorting

variable {V Q : Type}

/-- The order of the sorted table. -/
def FeatureRow.sortKey (row : FeatureRow V) : String ×ₗ Int ×ₗ Int ×ₗ Int :=
  toLex (row.entityId, row.recency)

theorem compareBytes_lt (first second : String) :
    compareOfLessAndEq (encodeUtf8 first) (encodeUtf8 second) = .lt ↔ first < second := by
  rw [compareOfLessAndEq_eq_lt]
  exact Utf8Order.bytes_lt_iff first second

theorem encodeUtf8_inj {first second : String} (equal : encodeUtf8 first = encodeUtf8 second) :
    first = second := by
  rw [← String.toByteArray_inj]
  exact ByteArray.ext (Array.toList_inj.mp equal)

theorem compareBytes_eq (first second : String) :
    compareOfLessAndEq (encodeUtf8 first) (encodeUtf8 second) = .eq ↔ first = second := by
  unfold compareOfLessAndEq
  constructor
  · intro equal
    split_ifs at equal with less same
    exact encodeUtf8_inj same
  · rintro rfl
    rw [if_neg (List.lt_irrefl _), if_pos rfl]

/-- The sort by bytes is a sort by the key of the row. -/
theorem sortOrder_isLE (first second : FeatureRow V) :
    (sortOrder true first second).isLE = true ↔ first.sortKey ≤ second.sortKey := by
  simp only [sortOrder, if_true, Ordering.isLE_then_iff_or, compareBytes_lt, compareBytes_eq,
    compare_lt_iff_lt, compare_eq_iff_eq, FeatureRow.sortKey, FeatureRow.recency,
    Prod.Lex.toLex_le_toLex, Std.isLE_compare]

theorem sortFeatures_sorted (features : List (FeatureRow V)) :
    (sortFeatures true features).Pairwise fun first second => first.sortKey ≤ second.sortKey := by
  have transitive : ∀ first second third : FeatureRow V,
      (sortOrder true first second).isLE = true → (sortOrder true second third).isLE = true →
        (sortOrder true first third).isLE = true := by
    intro first second third
    simp only [sortOrder_isLE]
    exact le_trans
  have total : ∀ first second : FeatureRow V,
      ((sortOrder true first second).isLE || (sortOrder true second first).isLE) = true := by
    intro first second
    simp only [Bool.or_eq_true, sortOrder_isLE]
    exact le_total _ _
  apply (List.pairwise_mergeSort transitive total features).imp
  intro first second ordered
  exact (sortOrder_isLE first second).mp ordered

theorem sortKey_entityId {first second : FeatureRow V} (ordered : first.sortKey ≤ second.sortKey) :
    first.entityId ≤ second.entityId := by
  obtain below | ⟨same, _⟩ := Prod.Lex.toLex_le_toLex.mp ordered
  · exact below.le
  · exact same.le

theorem sortKey_recency {first second : FeatureRow V} (ordered : first.sortKey ≤ second.sortKey)
    (same : first.entityId = second.entityId) : first.recency ≤ second.recency :=
  (Prod.Lex.toLex_le_toLex'.mp ordered).2 same

theorem recency_eventTimeNs {first second : FeatureRow V}
    (ordered : first.recency ≤ second.recency) : first.eventTimeNs ≤ second.eventTimeNs :=
  (Prod.Lex.toLex_le_toLex'.mp ordered).1

/-- The rows of one entity are the rows between the two positions of its id. -/
theorem entity_range {sorted : List (FeatureRow V)}
    (ordered : sorted.Pairwise fun first second => first.sortKey ≤ second.sortKey)
    (entityId : String) {index : Nat} {row : FeatureRow V} (found : sorted[index]? = some row) :
    BinarySearch.searchsorted .left (sorted.map FeatureRow.entityId) entityId ≤ index ∧
        index < BinarySearch.searchsorted .right (sorted.map FeatureRow.entityId) entityId ↔
      row.entityId = entityId := by
  have ids : (sorted.map FeatureRow.entityId).Pairwise (· ≤ ·) :=
    List.pairwise_map.mpr (ordered.imp sortKey_entityId)
  have key : (sorted.map FeatureRow.entityId)[index]? = some row.entityId := by simp [found]
  have left := (BinarySearch.searchsorted_splits .left ids entityId).2 index row.entityId key
  have right := (BinarySearch.searchsorted_splits .right ids entityId).2 index row.entityId key
  rw [BinarySearch.passes_left] at left
  rw [BinarySearch.passes_right] at right
  rw [right, ← not_lt, left, not_lt, le_antisymm_iff, and_comm]

/-- A later row of one entity is more recent. -/
theorem recency_of_position {sorted : List (FeatureRow V)}
    (ordered : sorted.Pairwise fun first second => first.sortKey ≤ second.sortKey)
    {early late : Nat} {first second : FeatureRow V} (firstFound : sorted[early]? = some first)
    (secondFound : sorted[late]? = some second) (before : early ≤ late)
    (same : first.entityId = second.entityId) : first.recency ≤ second.recency := by
  obtain rfl | strict := Nat.eq_or_lt_of_le before
  · rw [Option.some.inj (firstFound.symm.trans secondFound)]
  · obtain ⟨firstBound, rfl⟩ := List.getElem?_eq_some_iff.mp firstFound
    obtain ⟨secondBound, rfl⟩ := List.getElem?_eq_some_iff.mp secondFound
    exact sortKey_recency
      (List.pairwise_iff_getElem.mp ordered early late firstBound secondBound strict) same

/-- The event times of one entity are sorted. -/
theorem slice_sorted {sorted : List (FeatureRow V)}
    (ordered : sorted.Pairwise fun first second => first.sortKey ≤ second.sortKey)
    {low high : Nat} {entityId : String}
    (range : ∀ {index : Nat} {row : FeatureRow V}, sorted[index]? = some row →
      (low ≤ index ∧ index < high ↔ row.entityId = entityId)) :
    (((sorted.map FeatureRow.eventTimeNs).take high).drop low).Pairwise (· ≤ ·) := by
  rw [← List.map_take, ← List.map_drop, List.pairwise_map]
  have shared : ∀ row ∈ (sorted.take high).drop low, row.entityId = entityId := by
    intro row member
    obtain ⟨offset, found⟩ := List.mem_iff_getElem?.mp member
    rw [List.getElem?_drop, List.getElem?_take] at found
    split_ifs at found with bound
    exact (range found).mp ⟨Nat.le_add_right _ _, bound⟩
  have part := ordered.sublist ((List.drop_sublist low _).trans (List.take_sublist high sorted))
  apply part.imp_of_mem
  intro first second firstIn secondIn below
  exact recency_eventTimeNs
    (sortKey_recency below ((shared first firstIn).trans (shared second secondIn).symm))

/-- The third search counts the rows of the entity that are not after the query. -/
theorem slice_position {sorted : List (FeatureRow V)}
    (ordered : sorted.Pairwise fun first second => first.sortKey ≤ second.sortKey)
    {low high : Nat} {entityId : String}
    (range : ∀ {index : Nat} {row : FeatureRow V}, sorted[index]? = some row →
      (low ≤ index ∧ index < high ↔ row.entityId = entityId)) (time : Int) :
    BinarySearch.searchsorted .right (((sorted.map FeatureRow.eventTimeNs).take high).drop low)
        time ≤ min high sorted.length - low ∧
      ∀ index row, sorted[index]? = some row → row.entityId = entityId →
        (index - low < BinarySearch.searchsorted .right
            (((sorted.map FeatureRow.eventTimeNs).take high).drop low) time ↔
          row.eventTimeNs ≤ time) := by
  obtain ⟨bound, splits⟩ :=
    BinarySearch.searchsorted_splits .right (slice_sorted ordered range) time
  constructor
  · simpa using bound
  · intro index row found same
    obtain ⟨after, before⟩ := (range found).mpr same
    rw [splits (index - low) row.eventTimeNs, BinarySearch.passes_right]
    rw [List.getElem?_drop, List.getElem?_take, show low + (index - low) = index by omega,
      if_pos before]
    simp [found]

/-- The searches find the latest row of the window in the sorted table. -/
theorem asofIndex_answers {sorted : List (FeatureRow V)}
    (ordered : sorted.Pairwise fun first second => first.sortKey ≤ second.sortKey)
    (lookbackNs : Int) (query : QueryRow Q) :
    Answers sorted lookbackNs query ((asofIndex sorted lookbackNs query).bind (sorted[·]?)) := by
  have range := @entity_range V sorted ordered query.entityId
  unfold asofIndex
  dsimp only
  generalize BinarySearch.searchsorted .left (sorted.map FeatureRow.entityId) query.entityId = lo
    at *
  generalize BinarySearch.searchsorted .right (sorted.map FeatureRow.entityId) query.entityId = hi
    at *
  obtain ⟨bound, position⟩ := slice_position ordered range query.asOfTime.toInt
  generalize BinarySearch.searchsorted .right
    (((sorted.map FeatureRow.eventTimeNs).take hi).drop lo) query.asOfTime.toInt = pos at *
  by_cases absent : lo = hi
  · rw [if_pos absent]
    intro row member inWindow
    obtain ⟨index, found⟩ := List.mem_iff_getElem?.mp member
    have placed := (range found).mpr inWindow.1
    omega
  by_cases early : pos = 0
  · rw [if_neg absent, if_pos early]
    intro row member inWindow
    obtain ⟨index, found⟩ := List.mem_iff_getElem?.mp member
    have counted := (position index row found inWindow.1).mpr inWindow.2.2
    omega
  have inside : lo + pos - 1 < sorted.length := by omega
  have found : sorted[lo + pos - 1]? = some sorted[lo + pos - 1] :=
    List.getElem?_eq_getElem inside
  generalize sorted[lo + pos - 1] = candidate at found
  have same : candidate.entityId = query.entityId :=
    (range found).mp ⟨by omega, by omega⟩
  have past : candidate.eventTimeNs ≤ query.asOfTime.toInt :=
    (position _ candidate found same).mp (by omega)
  have latest : ∀ other ∈ sorted, other.entityId = query.entityId →
      other.eventTimeNs ≤ query.asOfTime.toInt → other.recency ≤ candidate.recency := by
    intro other member otherSame otherPast
    obtain ⟨index, otherFound⟩ := List.mem_iff_getElem?.mp member
    have counted := (position index other otherFound otherSame).mpr otherPast
    have placed := (range otherFound).mpr otherSame
    exact recency_of_position ordered otherFound found (by omega) (otherSame.trans same.symm)
  have time : (sorted.map FeatureRow.eventTimeNs).getD (lo + pos - 1) 0 = candidate.eventTimeNs := by
    simp [List.getD_eq_getElem?_getD, found]
  rw [if_neg absent, if_neg early, time]
  by_cases old : candidate.eventTimeNs < query.asOfTime.toInt - lookbackNs
  · rw [if_pos old]
    intro row member inWindow
    have below := recency_eventTimeNs (latest row member inWindow.1 inWindow.2.2)
    have recent := inWindow.2.1
    omega
  · rw [if_neg old, Option.bind_some, found]
    refine ⟨List.mem_of_getElem? found, ⟨same, by omega, past⟩, ?_⟩
    intro other member inWindow
    exact latest other member inWindow.1 inWindow.2.2

/-- The join answers every query from the features it is given. -/
theorem asofJoin_answers (features : List (FeatureRow V)) (lookbackNs : Int)
    (query : QueryRow Q) :
    Answers features lookbackNs query
      ((asofIndex (sortFeatures true features) lookbackNs query).bind
        ((sortFeatures true features)[·]?)) := by
  apply answers_congr _ (asofIndex_answers (sortFeatures_sorted features) lookbackNs query)
  intro row _
  exact List.mem_mergeSort

end Sorting

section Reading

variable {V Q : Type}

/-- The removal of duplicates keeps one row for each message. -/
theorem mem_dedupFeatures {order : List GroupKey → List GroupKey}
    (reorders : ∀ keys, (order keys).Perm keys) {table : List (FeatureRow V)}
    (same : SameMessageSameRow table) (row : FeatureRow V) :
    row ∈ dedupFeatures order true table ↔ row ∈ table := by
  cases table with
  | nil => rfl
  | cons head rest =>
      generalize whole : head :: rest = table at same
      have unfolded : dedupFeatures order true table =
          ((order (table.map (FeatureRow.groupKey true)).dedup).map
            (aggregateIdx true (table.map (FeatureRow.groupKey true)))).filterMap
              fun index => table[index]? := by
        subst whole
        rfl
      rw [unfolded, List.mem_filterMap]
      constructor
      · rintro ⟨index, _, found⟩
        exact List.mem_of_getElem? found
      · intro member
        have keyIn : row.groupKey true ∈ table.map (FeatureRow.groupKey true) :=
          List.mem_map_of_mem member
        have grouped : row.groupKey true ∈ order (table.map (FeatureRow.groupKey true)).dedup :=
          (reorders _).mem_iff.mpr (List.mem_dedup.mpr keyIn)
        refine ⟨_, List.mem_map_of_mem grouped, ?_⟩
        have bound := List.idxOf_lt_length_of_mem keyIn
        have key := List.getElem_idxOf bound
        rw [List.getElem_map] at key
        have inside : (table.map (FeatureRow.groupKey true)).idxOf (row.groupKey true) <
            table.length := by simpa using bound
        simp only [FeatureRow.groupKey, if_true, GroupKey.message.injEq] at key
        have found := same _ (List.getElem_mem inside) row member key.1 key.2
        rw [aggregateIdx, if_pos rfl, List.getElem?_eq_getElem inside]
        exact congrArg some found

/-- The window filter keeps the rows between its two literals. -/
theorem mem_eventTimeWindow {files : List (List (FeatureRow V))} {start stop : Int}
    {features : List (FeatureRow V)} (loaded : eventTimeWindow files start stop = .ok features)
    (row : FeatureRow V) :
    row ∈ features ↔ row ∈ files.flatten ∧ start ≤ row.eventTimeNs ∧ row.eventTimeNs ≤ stop := by
  unfold eventTimeWindow int64Literal at loaded
  split_ifs at loaded
  · obtain rfl := Except.ok.inj loaded
    simp only [List.mem_flatMap, List.mem_filter, List.mem_flatten, decide_eq_true_iff]
    tauto
  all_goals cases loaded

theorem eventTimeWindow_ok (files : List (List (FeatureRow V))) {start stop : Int}
    (startFits : -2 ^ 63 ≤ start ∧ start < 2 ^ 63) (stopFits : -2 ^ 63 ≤ stop ∧ stop < 2 ^ 63) :
    ∃ features, eventTimeWindow files start stop = .ok features := by
  unfold eventTimeWindow int64Literal
  rw [if_pos startFits, if_pos stopFits]
  exact ⟨_, rfl⟩

/-- A read joins features that hold every row that one of its queries may see. -/
theorem readPointInTime_loads (order : List GroupKey → List GroupKey)
    (files : List (List (FeatureRow V))) {queries : List (QueryRow Q)} {lookbackDays : Int}
    (asked : queries ≠ []) (positive : 0 < lookbackDays)
    (fits : ∀ query ∈ queries, -2 ^ 63 ≤ query.asOfTime.toInt - lookbackDays * dayNs) :
    ∃ features, (∀ row ∈ features, row ∈ files.flatten) ∧
      (∀ query ∈ queries, ∀ row, InWindow (lookbackDays * dayNs) query row →
        row ∈ files.flatten → row ∈ features) ∧
      readPointInTime order true files queries lookbackDays =
        .ok (asofJoin true (lookbackDays * dayNs) queries (dedupFeatures order true features)) := by
  generalize aotsDef : queries.map (fun query => query.asOfTime.toInt) = aots
  have nonempty : aots ≠ [] := by simpa [← aotsDef] using asked
  obtain ⟨minAot, least⟩ := Option.isSome_iff_exists.mp (List.isSome_min?_of_ne_nil nonempty)
  obtain ⟨maxAot, greatest⟩ := Option.isSome_iff_exists.mp (List.isSome_max?_of_ne_nil nonempty)
  obtain ⟨minIn, below⟩ := List.min?_eq_some_iff.mp least
  obtain ⟨maxIn, above⟩ := List.max?_eq_some_iff.mp greatest
  have forward : 0 < lookbackDays * dayNs := Int.mul_pos positive (by decide)
  have startFits : -2 ^ 63 ≤ minAot - lookbackDays * dayNs ∧
      minAot - lookbackDays * dayNs < 2 ^ 63 := by
    rw [← aotsDef] at minIn
    obtain ⟨query, member, rfl⟩ := List.mem_map.mp minIn
    have bound := query.asOfTime.toInt_lt
    exact ⟨fits query member, by omega⟩
  have stopFits : -2 ^ 63 ≤ maxAot ∧ maxAot < 2 ^ 63 := by
    rw [← aotsDef] at maxIn
    obtain ⟨query, _, rfl⟩ := List.mem_map.mp maxIn
    exact ⟨query.asOfTime.le_toInt, query.asOfTime.toInt_lt⟩
  obtain ⟨features, loaded⟩ := eventTimeWindow_ok files startFits stopFits
  refine ⟨features, ?_, ?_, ?_⟩
  · intro row member
    exact ((mem_eventTimeWindow loaded row).mp member).1
  · intro query member row inWindow stored
    have asOf : query.asOfTime.toInt ∈ aots := aotsDef ▸ List.mem_map_of_mem member
    have early := below _ asOf
    have late := above _ asOf
    obtain ⟨_, recent, past⟩ := inWindow
    exact (mem_eventTimeWindow loaded row).mpr ⟨stored, by omega, by omega⟩
  · unfold readPointInTime
    rw [if_neg (by omega)]
    simp only [aotsDef, least, greatest, loaded]
    rfl

/-- A read answers every query with the latest row of its window, however the rows are arranged. -/
theorem readPointInTime_latest (files : List (List (FeatureRow V)))
    (same : SameMessageSameRow files.flatten) (queries : List (QueryRow Q)) (asked : queries ≠ [])
    (lookbackDays : Int) (positive : 0 < lookbackDays)
    (fits : ∀ query ∈ queries, -2 ^ 63 ≤ query.asOfTime.toInt - lookbackDays * dayNs) :
    ∃ answer : QueryRow Q → Option (FeatureRow V),
      (∀ query ∈ queries, Answers files.flatten (lookbackDays * dayNs) query (answer query)) ∧
      ∀ (order : List GroupKey → List GroupKey) (arranged : List (List (FeatureRow V))),
        (∀ keys, (order keys).Perm keys) →
        (∀ row, row ∈ arranged.flatten ↔ row ∈ files.flatten) →
        readPointInTime order true arranged queries lookbackDays =
          .ok (queries.map fun query => (query, (answer query).map (FeatureRow.part true))) := by
  refine ⟨fun query => (asofIndex (sortFeatures true files.flatten) (lookbackDays * dayNs) query).bind
    ((sortFeatures true files.flatten)[·]?), fun query _ => asofJoin_answers _ _ query, ?_⟩
  intro order arranged reorders members
  obtain ⟨features, within, visible, loaded⟩ :=
    readPointInTime_loads order arranged asked positive fits
  have arrangedSame : SameMessageSameRow features :=
    same.mono fun row member => (members row).mp (within row member)
  rw [loaded, asofJoin]
  refine congrArg Except.ok (List.map_congr_left ?_)
  intro query member
  have seen : ∀ row, InWindow (lookbackDays * dayNs) query row →
      (row ∈ dedupFeatures order true features ↔ row ∈ files.flatten) := by
    intro row inWindow
    rw [mem_dedupFeatures reorders arrangedSame]
    constructor
    · intro inside
      exact (members row).mp (within row inside)
    · intro stored
      exact visible query member row inWindow ((members row).mpr stored)
  have joined := asofJoin_answers (dedupFeatures order true features) (lookbackDays * dayNs) query
  rw [answers_unique same (answers_congr seen joined)
    (asofJoin_answers files.flatten (lookbackDays * dayNs) query)]

end Reading

/-- Two replays of one message in two files, a tie of the event time and another entity. -/
def sampleFeatureFiles : List (List (FeatureRow Nat)) :=
  [[⟨"u1", 5, 1, 0, 10⟩, ⟨"u2", 6, 2, 0, 20⟩], [⟨"u1", 5, 1, 1, 11⟩, ⟨"u1", 5, 1, 0, 10⟩]]

def sampleQueries : List (QueryRow Unit) := [⟨"u1", 6, ()⟩, ⟨"u3", 6, ()⟩]

theorem readPointInTime_latest_sample :
    ∃ answer : QueryRow Unit → Option (FeatureRow Nat),
      (∀ query ∈ sampleQueries,
        Answers sampleFeatureFiles.flatten (1 * dayNs) query (answer query)) ∧
      ∀ (order : List GroupKey → List GroupKey) (arranged : List (List (FeatureRow Nat))),
        (∀ keys, (order keys).Perm keys) →
        (∀ row, row ∈ arranged.flatten ↔ row ∈ sampleFeatureFiles.flatten) →
        readPointInTime order true arranged sampleQueries 1 =
          .ok (sampleQueries.map fun query =>
            (query, (answer query).map (FeatureRow.part true))) :=
  readPointInTime_latest sampleFeatureFiles (by unfold SameMessageSameRow; decide) sampleQueries
    (by decide) 1 (by decide) (by decide)

/-- A lookback that starts before the first int64 instant raises. -/
theorem readPointInTime_overflows :
    SameMessageSameRow sampleFeatureFiles.flatten ∧ sampleQueries ≠ [] ∧ (0 : Int) < 200000 ∧
      ∀ result, readPointInTime id true sampleFeatureFiles sampleQueries 200000 ≠ .ok result := by
  have raises : readPointInTime id true sampleFeatureFiles sampleQueries 200000 =
      .error (.literal (6 - 200000 * dayNs)) := rfl
  refine ⟨by unfold SameMessageSameRow; decide, by decide, by decide, ?_⟩
  intro result succeeds
  rw [raises] at succeeds
  cases succeeds

end Quorin
