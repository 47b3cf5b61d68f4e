import Quorin.Construction.Lifetime
import Quorin.Proof.Evolution.StoredFeatures
import Quorin.Proof.Upgrade.UpgradeOutcome

namespace Quorin

open ByteMemory FaultyCalls

/-- The stored rows of a schema as the features that they held when they were written. -/
def Lifetime.log (externals : Externals) (life : Lifetime) :
    List (VersionedLog.Entry FeatureSchema String Features) :=
  life.writes.map fun write =>
    ⟨write.1, write.2.entityId, rowDataFeatures externals.hashName write.1 write.2.rowData⟩

/-- The features of an entity: its newest row, migrated at once to the class that is deployed. -/
def Lifetime.features (externals : Externals) (life : Lifetime) (entityId : String) :
    Option Features :=
  VersionedLog.view (migrateFeatures externals.castBits) (life.log externals) life.schema entityId

/-- A segment of the deployed class that holds the features of every entity. -/
structure Lifetime.Holds (externals : Externals) (life : Lifetime) (segment : Segment) : Prop where
  sound : LayoutSound segment.layout
  table : computeRowOffsetTable externals.hashName life.schema = .ok segment.layout.rowOffsetTable
  sized : rowSize externals.hashName life.schema = .ok segment.layout.rowSize
  history : ∃ base lost,
    (SegmentHistory.mk segment.memory base lost).Refined externals.hashId segment.layout
  shows : ∀ entityId, segmentFeatures externals.hashName externals.hashId life.schema segment.layout
    segment.memory entityId = life.features externals entityId

/-- The current segment is linked and holds the features of every entity. -/
def Lifetime.Current (externals : Externals) (life : Lifetime) : Prop :=
  ∀ name, life.host.keys.current life.schema.safeName = some name →
    name ∈ life.host.linked ∧
      ∃ segment, life.host.objects name = some segment ∧ life.Holds externals segment

/-- What every step in the life of a schema keeps. -/
structure Lifetime.Invariant (externals : Externals) (life : Lifetime) : Prop where
  readable : VersionedLog.Readable Accepted (fun schema features => Features.Of features schema)
    life.schema (life.log externals)
  current : life.Current externals

section Writes

variable {externals : Externals} {life : Lifetime}

/-- A call adds at most its own request to the log, and then the row has its full size. -/
theorem SegmentHistory.perform_log (hashId : List UInt8 → UInt64) (layout : SegmentLayout)
    (memory : Memory) (base : List InsertRequest) (lost : Nat) (call : InsertRequest × Option Nat) :
    ((SegmentHistory.mk memory base lost).perform hashId layout call).memory =
        ((SegmentHistory.mk memory [] 0).perform hashId layout call).memory ∧
      ((SegmentHistory.mk memory base lost).perform hashId layout call).log =
        ((SegmentHistory.mk memory [] 0).perform hashId layout call).log ++ base ∧
      (((SegmentHistory.mk memory [] 0).perform hashId layout call).log = [] ∨
        ((SegmentHistory.mk memory [] 0).perform hashId layout call).log = [call.1] ∧
          call.1.rowData.length = layout.rowSize) := by
  obtain ⟨request, cut⟩ := call
  have malformed : request.rowData.length ≠ layout.rowSize →
      ∃ error, (insert hashId layout request.entityId request.rowData).trace memory =
        (.error error, []) := by
    intro other
    obtain ⟨error, trace, _⟩ := insert_malformed hashId memory
      (fun fits => other fits.2.1) BoundedMap.empty
    exact ⟨error, trace⟩
  cases cut with
  | none =>
      unfold perform completeInsert
      dsimp only
      cases outcome : ((insert hashId layout request.entityId request.rowData).run memory).1 with
      | error error => exact ⟨rfl, rfl, Or.inl rfl⟩
      | ok created =>
          refine ⟨rfl, rfl, Or.inr ⟨rfl, ?_⟩⟩
          by_contra other
          obtain ⟨error, trace⟩ := malformed other
          have failed : ((insert hashId layout request.entityId request.rowData).run memory).1 =
              .error error := congrArg Prod.fst trace
          rw [failed] at outcome
          cases outcome
  | some count =>
      unfold perform cutOffInsert
      dsimp only
      split
      · rename_i whole
        refine ⟨rfl, rfl, Or.inr ⟨rfl, ?_⟩⟩
        by_contra other
        obtain ⟨error, trace⟩ := malformed other
        rw [Program.writes, trace] at whole
        exact absurd whole.1 (Nat.lt_irrefl 0)
      · exact ⟨rfl, rfl, Or.inl rfl⟩

/-- The features behind one more row of the deployed class. -/
theorem features_cons (life : Lifetime) {writes : List (FeatureSchema × InsertRequest)}
    {request : InsertRequest}
    (zero : externals.castBits .float32 .float64 0 = 0)
    (fits : (rowDataFeatures externals.hashName life.schema request.rowData).Of life.schema)
    (same : life.writes = (life.schema, request) :: writes) (entityId : String) :
    life.features externals entityId =
      if request.entityId = entityId then
        some (rowDataFeatures externals.hashName life.schema request.rowData)
      else { life with writes := writes }.features externals entityId := by
  unfold Lifetime.features Lifetime.log
  rw [same]
  exact VersionedLog.view_cons (migrateFeatures_lawful zero) fits entityId

/-- A write keeps the invariant. -/
theorem Lifetime.Invariant.write (zero : externals.castBits .float32 .float64 0 = 0)
    (invariant : life.Invariant externals) (call : InsertRequest × Option Nat) :
    (life.write externals call).Invariant externals := by
  unfold Lifetime.write
  cases current : life.host.keys.current life.schema.safeName with
  | none => exact invariant
  | some name =>
      obtain ⟨linked, segment, stored, holds⟩ := invariant.current name current
      dsimp only
      rw [stored]
      dsimp only
      obtain ⟨base, lost, refined⟩ := holds.history
      have performed := refined.perform holds.sound call
      obtain ⟨memory, log, entries⟩ := SegmentHistory.perform_log externals.hashId segment.layout
        segment.memory base lost call
      have shown := segmentFeatures_refined holds.table holds.sized holds.sound performed
      have before := segmentFeatures_refined holds.table holds.sized holds.sound refined
      generalize (SegmentHistory.mk segment.memory base lost).perform externals.hashId segment.layout
        call = after at performed memory log shown
      generalize (SegmentHistory.mk segment.memory [] 0).perform externals.hashId segment.layout
        call = step at memory log entries
      have readable : VersionedLog.Readable Accepted
          (fun schema features => Features.Of features schema) life.schema
          (Lifetime.log externals { life with
            writes := step.log.map (fun request => (life.schema, request)) ++ life.writes }) := by
        rcases entries with none | ⟨one, length⟩
        · rw [none]
          exact invariant.readable
        · rw [one]
          exact invariant.readable.cons rfl (rowDataFeatures_of holds.table holds.sized length)
      refine ⟨readable, fun other points => ?_⟩
      obtain rfl := Option.some.inj (current.symm.trans points)
      refine ⟨linked, { segment with memory := step.memory }, ?_, ?_⟩
      · simp [Host.withMemory, stored]
      · refine ⟨holds.sound, holds.table, holds.sized, ⟨after.log, after.lost, memory ▸ performed⟩, ?_⟩
        intro entityId
        rw [show segmentFeatures externals.hashName externals.hashId life.schema segment.layout
          step.memory entityId = _ from memory ▸ shown entityId, log]
        have was := holds.shows entityId
        rw [before] at was
        rcases entries with none | ⟨one, length⟩
        · rw [none]
          exact was
        · have fits := rowDataFeatures_of holds.table holds.sized length
          rw [one, features_cons { life with
            host := life.host.withMemory name fun _ => step.memory
            writes := [call.1].map (fun request => (life.schema, request)) ++ life.writes }
              zero fits rfl entityId, List.singleton_append, lastRow_cons]
          by_cases same : call.1.entityId = entityId
          · rw [if_pos same, same, Function.update_self, Option.map_some]
          · rw [if_neg same, Function.update_of_ne (Ne.symm same)]
            exact was

end Writes

section Upgrades

variable {externals : Externals} {life : Lifetime} {host : Host}

/-- A host that leaves the current segment alone keeps the invariant. -/
theorem Lifetime.Invariant.spared (invariant : life.Invariant externals)
    (spared : Spared life.schema.safeName life.host host) :
    { life with host := host }.Invariant externals := by
  refine ⟨invariant.readable, fun name points => ?_⟩
  have before : life.host.keys.current life.schema.safeName = some name := by
    rcases spared.current with none | same
    · rw [none] at points
      cases points
    · exact same.symm.trans points
  obtain ⟨linked, segment, stored, holds⟩ := invariant.current name before
  obtain ⟨kept, object⟩ := spared.segment name points
  exact ⟨kept linked, segment, object.trans stored, { holds with }⟩

theorem OldKept.spared {key : String} (pointed : Pointed life.host key)
    (kept : OldKept key life.host host) : Spared key life.host host := by
  refine ⟨kept.current, fun name points => ?_⟩
  rcases kept.current with none | same
  · rw [none] at points
    cases points
  · obtain ⟨linked, object⟩ := kept.linked name (pointed name (same.symm.trans points))
    exact ⟨fun _ => linked, object⟩

/-- The copy of a segment that holds the features holds them for the new class. -/
theorem Lifetime.Holds.copied (zero : externals.castBits .float32 .float64 0 = 0)
    (strings : ∀ ids array, externals.stringArray ids = some array → array = .ofList ids)
    {oldName : String} {old : Segment} (holds : life.Holds externals old)
    (readable : VersionedLog.Readable Accepted (fun schema features => Features.Of features schema)
      life.schema (life.log externals)) {call : UpgradeCall} (deployed : call.old = life.schema)
    {layout : SegmentLayout} {header : List UInt8} {table : ArrowTable} {memory : Memory}
    (reaches : ReachesFlip externals call life.host oldName old layout header table memory) :
    { life with host := host, schema := call.new }.Holds externals ⟨call.new, layout, memory⟩ := by
  obtain ⟨base, lost, refined⟩ := holds.history
  have computed := reaches.creatable.computed
  have parts := computeLayout_parts computed
  have sameIdBytes : old.layout.maxIdBytes = layout.maxIdBytes := by
    have kept : (layout.maxIdBytes : Int) = old.layout.maxIdBytes := parts.2.2.2.2.2
    omega
  have oldTable : computeRowOffsetTable externals.hashName call.old = .ok old.layout.rowOffsetTable := by
    rw [deployed]
    exact holds.table
  have newSound := computeLayout_sound computed
  obtain ⟨copied, rows⟩ := copied_of_loaded refined holds.sound reaches.accepted oldTable computed
    sameIdBytes strings reaches.translated (packHeader_length reaches.creatable.packed) reaches.loaded
  obtain ⟨log, copiedRefined⟩ := copied.refined refined.consistent rows
  refine ⟨newSound, parts.1, parts.2.1, ⟨log, 0, copiedRefined⟩, fun entityId => ?_⟩
  have accepted := canUpgrade_accepted reaches.accepted
  have features := copied.features holds.sound newSound refined.consistent entityId
  rw [deployed] at accepted features
  rw [features, holds.shows entityId]
  exact VersionedLog.view_migrate (migrateFeatures_lawful zero) readable accepted entityId

/-- A whole upgrade keeps the invariant. -/
theorem Lifetime.Invariant.upgrade (zero : externals.castBits .float32 .float64 0 = 0)
    (strings : ∀ ids array, externals.stringArray ids = some array → array = .ofList ids)
    (invariant : life.Invariant externals) {call : UpgradeCall} (deployed : call.old = life.schema)
    (answered : call.flip ≠ .raisedAfter) : (life.upgrade externals call).Invariant externals := by
  have pointed : Pointed life.host life.schema.safeName :=
    fun name points => (invariant.current name points).1
  unfold Lifetime.upgrade
  dsimp only
  rw [deployed]
  cases upgradeSchema_outcome externals life.host answered with
  | kept kept =>
      rw [deployed] at kept
      rw [if_neg]
      · exact invariant.spared (kept.spared pointed)
      · rintro ⟨different, points⟩
        rcases kept.current with none | same
        · rw [none] at points
          cases points
        · exact different (same.symm.trans points)
  | moved oldName old layout header table memory reaches moved =>
      obtain ⟨points, newLinked, object⟩ := moved
      rw [deployed] at points
      have before := reaches.openable.current
      rw [deployed] at before
      obtain ⟨linked, segment, stored, holds⟩ := invariant.current oldName before
      obtain rfl := Option.some.inj (reaches.openable.object.symm.trans stored)
      have different : oldName ≠ call.newName := by
        rintro rfl
        exact reaches.creatable.fresh reaches.openable.linked
      rw [if_pos ⟨by rw [before]; exact fun same => different (Option.some.inj same), points⟩]
      have accepted := canUpgrade_accepted reaches.accepted
      rw [deployed] at accepted
      refine ⟨invariant.readable.moved (migrateFeatures_lawful zero) accepted, fun name current => ?_⟩
      have sameKey : call.new.safeName = life.schema.safeName := by
        rw [← deployed]
        exact congrArg safeClassName reaches.sameName.symm
      change ((upgradeSchema externals call).run life.host).2.keys.current call.new.safeName = _
        at current
      rw [sameKey, points] at current
      obtain rfl := Option.some.inj current
      exact ⟨newLinked, _, object, holds.copied zero strings invariant.readable deployed reaches⟩

/-- A created segment starts with the invariant. -/
theorem Lifetime.Initial.invariant (initial : life.Initial externals) : life.Invariant externals := by
  obtain ⟨first, capacity, maxIdBytes, layout, header, computed, length, points, linked, stored⟩ :=
    initial.created
  have sound := computeLayout_sound computed
  have parts := computeLayout_parts computed
  have refined := SegmentHistory.Refined.fresh externals.hashId sound length
  have empty : life.log externals = [] := by
    rw [Lifetime.log, initial.writes]
    rfl
  refine ⟨fun entry member => ?_, fun name current => ?_⟩
  · rw [empty] at member
    exact absurd member List.not_mem_nil
  · obtain rfl := Option.some.inj (points.symm.trans current)
    refine ⟨linked, _, stored, sound, parts.1, parts.2.1, ⟨[], 0, refined⟩, fun entityId => ?_⟩
    rw [Lifetime.features, empty]
    exact segmentFeatures_refined parts.1 parts.2.1 sound refined entityId

theorem LifetimeStep.invariant {after : Lifetime} (zero : externals.castBits .float32 .float64 0 = 0)
    (strings : ∀ ids array, externals.stringArray ids = some array → array = .ofList ids)
    (step : LifetimeStep externals life after) (invariant : life.Invariant externals) :
    after.Invariant externals := by
  cases step with
  | write call => exact invariant.write zero call
  | upgrade call deployed answered => exact invariant.upgrade zero strings deployed answered
  | others spared => exact invariant.spared spared

end Upgrades

/-- Every step in the life of a schema keeps the invariant. -/
theorem lifetime_invariant {externals : Externals} {start life : Lifetime}
    (zero : externals.castBits .float32 .float64 0 = 0)
    (strings : ∀ ids array, externals.stringArray ids = some array → array = .ofList ids)
    (initial : start.Initial externals)
    (steps : Relation.ReflTransGen (LifetimeStep externals) start life) : life.Invariant externals := by
  induction steps with
  | refl => exact initial.invariant
  | tail _ step ih => exact step.invariant zero strings ih

/-- Behind inserts, crashes and upgrades the current segment shows of each entity the newest row,
migrated at once. -/
theorem lifetime_shows {externals : Externals} {start life : Lifetime}
    (zero : externals.castBits .float32 .float64 0 = 0)
    (strings : ∀ ids array, externals.stringArray ids = some array → array = .ofList ids)
    (initial : start.Initial externals)
    (steps : Relation.ReflTransGen (LifetimeStep externals) start life) {name : String}
    (current : life.host.keys.current life.schema.safeName = some name) :
    name ∈ life.host.linked ∧ ∃ segment, life.host.objects name = some segment ∧
      ∀ entityId, segmentFeatures externals.hashName externals.hashId life.schema segment.layout
        segment.memory entityId = life.features externals entityId := by
  obtain ⟨linked, segment, stored, holds⟩ :=
    (lifetime_invariant zero strings initial steps).current name current
  exact ⟨linked, segment, stored, holds.shows⟩

/-- The sample schema behind the creation of its first segment. -/
def sampleLifetime : Lifetime := ⟨sampleHost, sampleSchema, []⟩

theorem sampleLifetime_initial : sampleLifetime.Initial sampleExternals :=
  ⟨⟨"old", 2, 8, sampleLayout, List.replicate 16 0, computeLayout_sample_of_hash rfl, rfl,
    sampleHost_current, Finset.mem_singleton_self _, rfl⟩, rfl⟩

/-- A row that was written before the sample upgrade is shown with its widened field behind it. -/
theorem lifetime_shows_sample : ∃ life segment,
    Relation.ReflTransGen (LifetimeStep sampleExternals) sampleLifetime life ∧
    life.schema = sampleUpgrade ∧ life.host.objects "new" = some segment ∧
    segmentFeatures sampleExternals.hashName sampleExternals.hashId sampleUpgrade segment.layout
      segment.memory "a" =
        some (migrateFeatures sampleExternals.castBits sampleSchema sampleUpgrade
          (rowDataFeatures sampleExternals.hashName sampleSchema (List.replicate 64 1))) := by
  have logged : (runInserts sampleExternals.hashId sampleLayout (List.replicate 16 0)
      [⟨"a", List.replicate 64 1⟩]).log = [⟨"a", List.replicate 64 1⟩] :=
    runInserts_logged sampleExternals.hashId sampleLayout_sound rfl
      (List.forall_mem_singleton.mpr ⟨by decide, rfl, by decide⟩) (by decide)
  have refined : (runInserts sampleExternals.hashId sampleLayout (List.replicate 16 0)
      [⟨"a", List.replicate 64 1⟩]).Refined sampleExternals.hashId sampleLayout := by
    rw [runInserts_eq]
    exact runCalls_refined _ sampleLayout_sound rfl _
  have lost := @runInserts_lost sampleExternals.hashId sampleLayout (List.replicate 16 0)
    [⟨"a", List.replicate 64 1⟩]
  have written : sampleLifetime.write sampleExternals (⟨"a", List.replicate 64 1⟩, none) =
      ⟨sampleHost.withMemory "old" fun _ => (runInserts sampleExternals.hashId sampleLayout
        (List.replicate 16 0) [⟨"a", List.replicate 64 1⟩]).memory, sampleSchema,
        [(sampleSchema, ⟨"a", List.replicate 64 1⟩)]⟩ := by
    unfold Lifetime.write
    rw [show sampleLifetime.host.keys.current sampleLifetime.schema.safeName = some "old" from
      sampleHost_current]
    change Lifetime.mk _ _ ((runInserts sampleExternals.hashId sampleLayout (List.replicate 16 0)
      [⟨"a", List.replicate 64 1⟩]).log.map _ ++ _) = _
    rw [logged]
    rfl
  generalize runInserts sampleExternals.hashId sampleLayout (List.replicate 16 0)
    [⟨"a", List.replicate 64 1⟩] = history at logged refined lost written
  obtain ⟨memory, log, none⟩ := history
  obtain rfl : log = _ := logged
  obtain rfl : none = 0 := lost
  obtain ⟨header, copy, table, _, occupied, openable, creatable, rfl, translated, loaded⟩ :=
    @sampleUpgradeCall_copies (sampleHost.withMemory "old" fun _ => memory) "old" memory _ .returned
      sampleHost_current rfl (by simp [Host.withMemory, sampleHost, sampleOldSegment]) (by decide)
      refined (by decide)
  have reaches : ReachesFlip sampleExternals (sampleUpgradeCall .returned)
      (sampleHost.withMemory "old" fun _ => memory) "old" ⟨sampleSchema, sampleLayout, memory⟩
      sampleUpgradeLayout header _ copy :=
    { sameName := rfl
      factor := rfl
      accepted := show (canUpgrade sampleSchema sampleUpgrade).1 = true by decide
      unobstructed := ⟨rfl, rfl, fun _ => rfl, rfl, rfl⟩
      openable := openable
      get := rfl
      creatable := creatable
      exec := rfl
      translated := translated
      loaded := loaded }
  obtain ⟨points, _, object⟩ := reaches.moves rfl
  have before : (sampleHost.withMemory "old" fun _ => memory).keys.current sampleSchema.safeName ≠
      some "new" := by
    rw [show (sampleHost.withMemory "old" fun _ => memory).keys.current sampleSchema.safeName = _ from
      sampleHost_current]
    decide
  have first : LifetimeStep sampleExternals sampleLifetime _ :=
    .write (⟨"a", List.replicate 64 1⟩, Option.none)
  rw [written] at first
  have steps := Relation.ReflTransGen.tail (.single first)
    (.upgrade (sampleUpgradeCall .returned) rfl (by decide))
  have schema : (Lifetime.upgrade sampleExternals ⟨sampleHost.withMemory "old" fun _ => memory,
      sampleSchema, [(sampleSchema, ⟨"a", List.replicate 64 1⟩)]⟩
        (sampleUpgradeCall .returned)).schema = sampleUpgrade := if_pos ⟨before, points⟩
  obtain ⟨_, segment, stored, shows⟩ := lifetime_shows rfl sampleExternals_strings
    sampleLifetime_initial steps
    (show _ = some "new" by rw [schema]; exact points)
  refine ⟨_, segment, steps, schema, stored, ?_⟩
  have shown := shows "a"
  rw [schema] at shown
  rw [shown, Lifetime.features, schema]
  rfl

end Quorin
