import Quorin.Proof.Evolution.CopySoundness

namespace Quorin

open ByteMemory

section Predicate

variable {old middle new : FeatureSchema}

theorem widensTo_trans {first second third : DType} (before : first.widensTo second = true)
    (after : second.widensTo third = true) : first.widensTo third = true := by
  cases first <;> cases second <;> cases third <;>
    first | rfl | exact absurd before (by decide) | exact absurd after (by decide)

/-- An upgrade is accepted when the version grows and the fields are accepted. -/
theorem canUpgrade_iff : (canUpgrade old new).1 = true ↔
    old.version < new.version ∧ Accepted old new := by
  constructor
  · intro accepted
    refine ⟨?_, canUpgrade_accepted accepted⟩
    by_contra late
    simp [canUpgrade, Int.not_lt.mp late] at accepted
  · rintro ⟨later, accepted⟩
    simp only [canUpgrade, List.isEmpty_iff, List.append_eq_nil_iff, List.map_eq_nil_iff]
    refine ⟨⟨⟨⟨if_neg (Int.not_le.mpr later), if_neg (not_not.mpr ?_)⟩, ?_⟩, ?_⟩, ?_⟩
    · rw [List.filter_eq_nil_iff]
      intro name member
      obtain ⟨oldField, oldMember, rfl⟩ := List.mem_map.mp member
      obtain ⟨field, found, _⟩ := accepted.kept oldField oldMember
      simp [found]
    · rw [List.flatMap_eq_nil_iff]
      intro oldField oldMember
      obtain ⟨field, found, shape, widens, _⟩ := accepted.kept oldField oldMember
      simp [keptFieldReasons, found, shape, widens]
    · rw [List.filter_eq_nil_iff]
      intro oldField oldMember
      obtain ⟨field, found, shape, _, flat⟩ := accepted.kept oldField oldMember
      have oldFlat : oldField.shape.length ≤ 1 := by rw [← shape]; exact flat
      rw [found]
      simp only [decide_eq_true_eq]
      omega
    · rw [List.filter_eq_nil_iff]
      intro field member refused
      simp only [Bool.and_eq_true, Option.isNone_iff_eq_none, decide_eq_true_eq] at refused
      have flat := accepted.added field member refused.1
      omega

theorem Accepted.trans (first : Accepted old middle) (second : Accepted middle new) :
    Accepted old new where
  kept := by
    intro oldField oldMember
    obtain ⟨between, found, shape, widens, _⟩ := first.kept oldField oldMember
    obtain ⟨member, name⟩ := byName_some found
    obtain ⟨field, foundNew, newShape, newWidens, flat⟩ := second.kept between member
    refine ⟨field, by rw [← name]; exact foundNew, newShape.trans shape,
      widensTo_trans widens newWidens, flat⟩
  added := by
    intro field member _
    cases found : middle.byName field.name with
    | none => exact second.added field member found
    | some between =>
        obtain ⟨betweenMember, name⟩ := byName_some found
        obtain ⟨other, foundOther, _, _, flat⟩ := second.kept between betweenMember
        rw [name, byName_of_mem member, Option.some.injEq] at foundOther
        rw [foundOther]
        exact flat

end Predicate

/-- The elements of the fields of one entity, by field name. -/
abbrev Features := String → Option (List (List UInt8))

/-- What an upgrade makes of the fields of one entity. -/
def migrateFeatures (castBits : DType → DType → Nat → Nat) (old new : FeatureSchema)
    (features : Features) : Features := fun name =>
  (new.byName name).bind fun field =>
    match old.byName name with
    | none => some (List.replicate field.elementCount (List.replicate field.dtype.byteSize 0))
    | some oldField => (features name).map (List.map (astype castBits oldField.dtype field.dtype))

/-- The features hold elements of the declared sizes for every field of the schema. -/
def Features.Declared (features : Features) (schema : FeatureSchema) : Prop :=
  ∀ field ∈ schema.fields, ∃ elements, features field.name = some elements ∧
    elements.length = field.elementCount ∧ ∀ element ∈ elements, element.length = field.dtype.byteSize

section Algebra

variable {castBits : DType → DType → Nat → Nat} {old middle new : FeatureSchema}

/-- A widening of a widening is one widening. -/
theorem astype_trans {first second third : DType} (before : first.widensTo second = true)
    (after : second.widensTo third = true) {element : List UInt8}
    (size : element.length = first.byteSize) :
    astype castBits second third (astype castBits first second element) =
      astype castBits first third element := by
  by_cases same : first = second
  · rw [same, astype_self]
  · by_cases later : second = third
    · rw [later, astype_self]
    · have small := leNat_lt element
      rw [size] at small
      cases first <;> cases second <;> cases third <;>
        first
          | exact absurd rfl same
          | exact absurd rfl later
          | exact absurd before (by decide)
          | exact absurd after (by decide)
          | skip
      have byte : leNat element < 256 := small
      have back := leNat_leBytes 4 (leNat element) (byte.trans (by decide))
      have positive : leNat element < 2 ^ 31 := byte.trans (by decide)
      simp only [astype, back, if_pos positive]

/-- Zero widens to zero. -/
theorem astype_zero (zero : castBits .float32 .float64 0 = 0) {source target : DType}
    (widens : source.widensTo target = true) :
    astype castBits source target (List.replicate source.byteSize 0) =
      List.replicate target.byteSize 0 := by
  cases source <;> cases target <;> first | exact absurd widens (by decide) | rfl | skip
  change leBytes 8 (castBits .float32 .float64 0) = _
  rw [zero]
  rfl

/-- Two upgrades in a row make of an entity what the direct upgrade makes of it. -/
theorem migrateFeatures_trans (zero : castBits .float32 .float64 0 = 0)
    (first : Accepted old middle) (second : Accepted middle new) {features : Features}
    (declared : features.Declared old) :
    migrateFeatures castBits middle new (migrateFeatures castBits old middle features) =
      migrateFeatures castBits old new features := by
  funext name
  unfold migrateFeatures
  cases found : new.byName name with
  | none => rfl
  | some field =>
      obtain ⟨member, named⟩ := byName_some found
      cases between : middle.byName name with
      | none =>
          cases before : old.byName name with
          | none => rfl
          | some oldField =>
              obtain ⟨oldMember, oldNamed⟩ := byName_some before
              obtain ⟨kept, keptFound, _⟩ := first.kept oldField oldMember
              rw [oldNamed, between] at keptFound
              cases keptFound
      | some middleField =>
          obtain ⟨middleMember, middleNamed⟩ := byName_some between
          obtain ⟨kept, keptFound, shape, widens, _⟩ := second.kept middleField middleMember
          rw [middleNamed, found, Option.some.injEq] at keptFound
          subst keptFound
          cases before : old.byName name with
          | none =>
              simp only [Option.bind_some, Option.map_some, List.map_replicate,
                astype_zero zero widens]
              rw [FeatureField.elementCount, FeatureField.elementCount, shape]
          | some oldField =>
              obtain ⟨oldMember, oldNamed⟩ := byName_some before
              obtain ⟨other, otherFound, _, otherWidens, _⟩ := first.kept oldField oldMember
              rw [oldNamed, between, Option.some.injEq] at otherFound
              subst otherFound
              obtain ⟨elements, stored, _, sizes⟩ := declared oldField oldMember
              rw [oldNamed] at stored
              simp only [Option.bind_some, stored, Option.map_some, List.map_map,
                Option.some.injEq]
              apply List.map_congr_left
              intro element inside
              exact astype_trans otherWidens widens (sizes element inside)

end Algebra

section Segments

variable {hashName : String → UInt64} {castBits : DType → DType → Nat → Nat}
  {hashId : List UInt8 → UInt64} {old new : FeatureSchema} {oldLayout newLayout : SegmentLayout}
  {before after : Memory}

/-- The features in the row at an address. -/
def rowFeatures (hashName : String → UInt64) (schema : FeatureSchema) (layout : SegmentLayout)
    (memory : Memory) (address : Nat) : Features := fun name =>
  (schema.byName name).bind fun field =>
    (rowByteOffset hashName layout.rowOffsetTable name).map fun offset =>
      (List.range field.elementCount).map fun element =>
        memory.read (address + offset + element * field.dtype.byteSize) field.dtype.byteSize

/-- The map of a segment from entity ids to features. -/
def segmentFeatures (hashName : String → UInt64) (hashId : List UInt8 → UInt64)
    (schema : FeatureSchema) (layout : SegmentLayout) (memory : Memory) (entityId : String) :
    Option Features :=
  match (lookup hashId layout entityId).result memory with
  | .ok (some address) => some (rowFeatures hashName schema layout memory address)
  | _ => none

theorem signedValue_injective {width first second : Nat} (firstBound : first < 2 ^ width)
    (secondBound : second < 2 ^ width) (same : signedValue width first = signedValue width second) :
    first = second := by
  unfold signedValue at same
  have power : ((2 ^ width : Nat) : Int) = 2 ^ width := by norm_cast
  split at same <;> split at same <;> omega

/-- A widened element is the cast of the element before. -/
theorem Widened.astype {source target : DType} {first second : List UInt8}
    (widened : Widened castBits source target first second) (size : first.length = source.byteSize)
    (newSize : second.length = target.byteSize) :
    second = Quorin.astype castBits source target first := by
  have again := astype_widened castBits widened.permitted size
  have length := astype_length castBits widened.permitted size
  by_cases same : source = target
  · rw [widened.same same, again.same same]
  · have bytes : leNat second = leNat (Quorin.astype castBits source target first) →
        second = Quorin.astype castBits source target first := by
      intro equal
      rw [← leBytes_leNat second, ← leBytes_leNat (Quorin.astype castBits source target first),
        equal, newSize, length]
    have bound := leNat_lt second
    have otherBound := leNat_lt (Quorin.astype castBits source target first)
    rw [newSize] at bound
    rw [length] at otherBound
    have permitted := widened.permitted
    cases source with
    | float64 => cases target <;> first | exact absurd rfl same | exact absurd permitted (by decide)
    | int64 => cases target <;> first | exact absurd rfl same | exact absurd permitted (by decide)
    | float32 =>
        cases target with
        | float64 => rw [widened.float rfl rfl, again.float rfl rfl]
        | _ => first | exact absurd rfl same | exact absurd permitted (by decide)
    | int32 =>
        cases target with
        | int64 =>
            have values := (widened.integer _ rfl).trans (again.integer _ rfl).symm
            exact bytes (signedValue_injective bound otherBound (Option.some.inj values))
        | _ => first | exact absurd rfl same | exact absurd permitted (by decide)
    | uint8 =>
        have values := (widened.integer _ rfl).trans (again.integer _ rfl).symm
        cases target with
        | int32 => exact bytes (signedValue_injective bound otherBound (Option.some.inj values))
        | int64 => exact bytes (signedValue_injective bound otherBound (Option.some.inj values))
        | _ => first | exact absurd rfl same | exact absurd permitted (by decide)

theorem rowFeatures_declared (table : computeRowOffsetTable hashName old = .ok oldLayout.rowOffsetTable)
    (memory : Memory) (address : Nat) :
    (rowFeatures hashName old oldLayout memory address).Declared old := by
  intro field member
  obtain ⟨offset, place⟩ := placed_of_mem member
  refine ⟨_, by simp only [rowFeatures, byName_of_mem member, rowByteOffset_placed table place,
    Option.bind_some, Option.map_some]; rfl, by simp, ?_⟩
  intro element inside
  obtain ⟨index, _, rfl⟩ := List.mem_map.mp inside
  exact Memory.read_length _ _ _

/-- A part of a zero area is zero. -/
theorem read_zeros {memory : Memory} {address size offset count : Nat}
    (zeros : memory.read address size = List.replicate size 0) (inside : offset + count ≤ size) :
    memory.read (address + offset) count = List.replicate count 0 := by
  have part := congrArg (fun bytes => (bytes.drop offset).take count) zeros
  rw [List.drop_replicate, List.take_replicate, Nat.min_eq_left (by omega)] at part
  rw [← part]
  have split : size = offset + (count + (size - offset - count)) := by omega
  rw [split, Memory.read_drop, Memory.read_take]

/-- A migrated row holds the migrated features. -/
theorem MigratedRow.features {oldAddress newAddress : Nat}
    (migrated : MigratedRow hashName castBits old new oldLayout newLayout before after oldAddress
      newAddress) :
    rowFeatures hashName new newLayout after newAddress =
      migrateFeatures castBits old new (rowFeatures hashName old oldLayout before oldAddress) := by
  funext name
  unfold rowFeatures migrateFeatures
  cases found : new.byName name with
  | none => rfl
  | some field =>
      obtain ⟨member, rfl⟩ := byName_some found
      cases earlier : old.byName field.name with
      | none =>
          have absent : ∀ oldField ∈ old.fields, oldField.name ≠ field.name := by
            intro oldField oldMember same
            rw [← same, byName_of_mem oldMember] at earlier
            cases earlier
          obtain ⟨offset, placed, zeros⟩ := migrated.added field member absent
          simp only [Option.bind_some, placed, Option.map_some, Option.some.injEq]
          rw [List.eq_replicate_iff]
          refine ⟨by simp, ?_⟩
          intro element inside
          obtain ⟨index, bound, rfl⟩ := List.mem_map.mp inside
          have last : (index + 1) * field.dtype.byteSize ≤ field.byteCount :=
            Nat.mul_le_mul_right _ (List.mem_range.mp bound)
          rw [Nat.add_mul, Nat.one_mul] at last
          exact read_zeros zeros last
      | some oldField =>
          obtain ⟨oldMember, oldNamed⟩ := byName_some earlier
          obtain ⟨other, otherMember, otherName, shape, oldOffset, offset, oldPlaced, placed, widened⟩ :=
            migrated.kept oldField oldMember
          have same : other = field := by
            have again := byName_of_mem otherMember
            rw [otherName, oldNamed, found, Option.some.injEq] at again
            exact again.symm
          subst same
          rw [oldNamed] at oldPlaced
          have count : oldField.elementCount = other.elementCount := by
            rw [FeatureField.elementCount, FeatureField.elementCount, shape]
          simp only [earlier, Option.bind_some, placed, oldPlaced, Option.map_some, List.map_map, count,
            Option.some.injEq]
          apply List.map_congr_left
          intro element inside
          exact (widened element (List.mem_range.mp inside)).astype (Memory.read_length _ _ _)
            (Memory.read_length _ _ _)

/-- The features of a copy are the migrated features. -/
theorem Copied.features
    (copied : Copied hashName castBits hashId old new oldLayout newLayout before after)
    (oldSound : LayoutSound oldLayout) (newSound : LayoutSound newLayout)
    (consistent : Consistent hashId oldLayout before) (entityId : String) :
    segmentFeatures hashName hashId new newLayout after entityId =
      (segmentFeatures hashName hashId old oldLayout before entityId).map
        (migrateFeatures castBits old new) := by
  unfold segmentFeatures
  by_cases present : contents oldLayout before entityId = none
  · have absent : ∀ {layout : SegmentLayout} {memory : Memory}, LayoutSound layout →
        Consistent hashId layout memory → contents layout memory entityId = none →
        ∀ address, (lookup hashId layout entityId).result memory ≠ .ok (some address) := by
      intro layout memory sound wellFormed missing address found
      obtain ⟨index, inside, stored, _⟩ := (lookup_located sound wellFormed).mp found
      exact contents_ne_none.mpr ⟨index, inside, stored⟩ missing
    have gone : contents newLayout after entityId = none :=
      not_not.mp fun held => (copied.same entityId).mp held present
    split
    · rename_i address found
      exact absurd found (absent newSound copied.consistent gone address)
    · split
      · rename_i address found
        exact absurd found (absent oldSound consistent present address)
      · rfl
  · obtain ⟨index, inside, stored⟩ := contents_ne_none.mp present
    have found := (lookup_located oldSound consistent).mpr ⟨index, inside, stored, rfl⟩
    obtain ⟨newAddress, newFound, migrated⟩ := copied.migrated entityId _ found
    rw [found, newFound]
    exact congrArg some migrated.features

end Segments

/-- A segment without lost rows holds the given ids. -/
structure FullSegment (hashId : List UInt8 → UInt64) (layout : SegmentLayout) (memory : Memory)
    (present : Finset String) : Prop where
  consistent : Consistent hashId layout memory
  ids : ∀ entityId, entityId ∈ present ↔ contents layout memory entityId ≠ none
  rows : nextFreeRow memory = present.card

/-- A fresh segment of a schema has room for one entity more than it is made for. -/
structure FreshTarget (hashName : String → UInt64) (schema : FeatureSchema) (maxIdBytes : Int)
    (occupied : Nat) where
  capacity : Int
  layout : SegmentLayout
  header : List UInt8
  computed : computeLayout hashName schema capacity maxIdBytes = .ok layout
  headerLength : header.length = headerSize
  room : (occupied : Int) + 1 ≤ capacity

/-- The copy of a segment into a fresh target returns the number of entities. -/
def CopiesInto {hashName : String → UInt64} {maxIdBytes : Int} {occupied : Nat}
    (castBits : DType → DType → Nat → Nat) (stringArray : List String → Option StringArray)
    (hashId : List UInt8 → UInt64) (old new : FeatureSchema) (oldLayout : SegmentLayout)
    (before : Memory) (target : FreshTarget hashName new maxIdBytes occupied) (after : Memory) : Prop :=
  ∃ table, buildTranslationTable hashName castBits stringArray old new oldLayout before = .ok table ∧
    (insertMany hashId castBits new target.layout table).run
      (freshSegment target.layout target.header) = (.ok occupied, after)

section Copies

variable {hashName : String → UInt64} {castBits : DType → DType → Nat → Nat}
  {stringArray : List String → Option StringArray} {hashId : List UInt8 → UInt64}
  {old new : FeatureSchema} {oldLayout : SegmentLayout} {before : Memory} {present : Finset String}

theorem FullSegment.rowIds (full : FullSegment hashId oldLayout before present) :
    (Quorin.rowIds oldLayout before).Nodup ∧
      (Quorin.rowIds oldLayout before).toFinset = present ∧
      (Quorin.rowIds oldLayout before).length = present.card ∧
      (occupiedSlots oldLayout before).length = nextFreeRow before := by
  obtain ⟨distinct, members⟩ := rowIds_spec full.consistent
  have same : (Quorin.rowIds oldLayout before).toFinset = present := by
    ext entityId
    rw [List.mem_toFinset, members, full.ids]
  refine ⟨distinct, same, by rw [← same, List.toFinset_card_of_nodup distinct], ?_⟩
  rw [occupiedSlots_length full.consistent full.ids, full.rows]

/-- A segment without lost rows is copied into a segment without lost rows. -/
theorem FullSegment.copies (full : FullSegment hashId oldLayout before present)
    (oldSound : LayoutSound oldLayout) (accepted : Accepted old new)
    (noIdField : ∀ field ∈ new.fields, field.name ≠ "entity_id")
    (oldTable : computeRowOffsetTable hashName old = .ok oldLayout.rowOffsetTable) {maxIdBytes : Int}
    (target : FreshTarget hashName new maxIdBytes present.card)
    (sameIdBytes : oldLayout.maxIdBytes = target.layout.maxIdBytes)
    (strings : ∀ ids : List String, ids.Nodup → ids.toFinset = present →
      stringArray ids = some (StringArray.ofList ids)) :
    ∃ after, CopiesInto castBits stringArray hashId old new oldLayout before target after ∧
      FullSegment hashId target.layout after present ∧
      ∀ entityId, segmentFeatures hashName hashId new target.layout after entityId =
        (segmentFeatures hashName hashId old oldLayout before entityId).map
          (migrateFeatures castBits old new) := by
  obtain ⟨distinct, same, count, occupied⟩ := full.rowIds
  obtain ⟨_, _, _, _, newRoom, _⟩ := computeLayout_parts target.computed
  have room := target.room
  obtain ⟨after, run, rowsRead, copied⟩ := @translatedTable_copied hashName castBits hashId old new
    oldLayout target.layout before target.header target.capacity maxIdBytes oldSound full.consistent
    accepted noIdField oldTable target.computed sameIdBytes occupied (by omega) target.headerLength
  rw [count] at run rowsRead
  exact ⟨after, ⟨_, buildTranslationTable_eq full.consistent oldTable occupied
    (strings _ distinct same), run⟩,
    ⟨copied.consistent, fun entityId => (full.ids entityId).trans (copied.same entityId).symm, rowsRead⟩,
    copied.features oldSound (computeLayout_sound target.computed) full.consistent⟩

end Copies

/-- The features in a segment are declared by its schema. -/
theorem segmentFeatures_declared {hashName : String → UInt64} {hashId : List UInt8 → UInt64}
    {schema : FeatureSchema} {layout : SegmentLayout}
    (table : computeRowOffsetTable hashName schema = .ok layout.rowOffsetTable) {memory : Memory}
    {entityId : String} {features : Features}
    (found : segmentFeatures hashName hashId schema layout memory entityId = some features) :
    features.Declared schema := by
  unfold segmentFeatures at found
  split at found
  · rw [← Option.some.inj found]
    exact rowFeatures_declared table _ _
  · cases found

/-- Two accepted upgrades in a row are an accepted upgrade with the same result. -/
theorem upgrades_compose {old middle new : FeatureSchema}
    (first : (canUpgrade old middle).1 = true) (second : (canUpgrade middle new).1 = true) :
    (canUpgrade old new).1 = true ∧
    ∀ (hashName : String → UInt64) (castBits : DType → DType → Nat → Nat)
      (hashId : List UInt8 → UInt64) (stringArray : List String → Option StringArray)
      (capacity maxIdBytes : Int) (oldLayout : SegmentLayout) (header : List UInt8)
      (requests : List InsertRequest),
      castBits .float32 .float64 0 = 0 →
      (∀ field ∈ new.fields, field.name ≠ "entity_id") →
      computeLayout hashName old capacity maxIdBytes = .ok oldLayout →
      header.length = headerSize →
      let history := runInserts hashId oldLayout header requests
      let present := presentIds history.log
      (∀ ids : List String, ids.Nodup → ids.toFinset = present →
        stringArray ids = some (StringArray.ofList ids)) →
      ∀ (between : FreshTarget hashName middle maxIdBytes present.card)
        (last direct : FreshTarget hashName new maxIdBytes present.card),
      ∃ middleMemory newMemory directMemory,
        CopiesInto castBits stringArray hashId old middle oldLayout history.memory between
          middleMemory ∧
        CopiesInto castBits stringArray hashId middle new between.layout middleMemory last newMemory ∧
        CopiesInto castBits stringArray hashId old new oldLayout history.memory direct directMemory ∧
        segmentFeatures hashName hashId new last.layout newMemory =
          segmentFeatures hashName hashId new direct.layout directMemory := by
  obtain ⟨firstLater, firstAccepted⟩ := canUpgrade_iff.mp first
  obtain ⟨secondLater, secondAccepted⟩ := canUpgrade_iff.mp second
  have accepted := firstAccepted.trans secondAccepted
  refine ⟨canUpgrade_iff.mpr ⟨firstLater.trans secondLater, accepted⟩, ?_⟩
  intro hashName castBits hashId stringArray capacity maxIdBytes oldLayout header requests zero
    noIdField computed headerLength history present strings between last direct
  have oldSound := computeLayout_sound computed
  obtain ⟨oldTable, _, _, _, _, oldMaxIdBytes⟩ := computeLayout_parts computed
  obtain ⟨middleTable, _, _, _, _, middleMaxIdBytes⟩ := computeLayout_parts between.computed
  obtain ⟨_, _, _, _, _, newMaxIdBytes⟩ := computeLayout_parts last.computed
  obtain ⟨_, _, _, _, _, directMaxIdBytes⟩ := computeLayout_parts direct.computed
  have refined : history.Refined hashId oldLayout := by
    rw [show history = _ from runInserts_eq hashId header requests]
    exact runCalls_refined hashId oldSound headerLength _
  have noLost : history.lost = 0 := runInserts_lost hashId header requests
  have full : FullSegment hashId oldLayout history.memory present := by
    refine ⟨refined.consistent, refined.accounted.1, ?_⟩
    have total : nextFreeRow history.memory = present.card + history.lost := refined.accounted.2
    omega
  have middleNoIdField : ∀ field ∈ middle.fields, field.name ≠ "entity_id" := by
    intro field member same
    obtain ⟨kept, found, _⟩ := secondAccepted.kept field member
    obtain ⟨keptMember, keptName⟩ := byName_some found
    exact noIdField kept keptMember (keptName.trans same)
  obtain ⟨middleMemory, firstCopy, middleFull, middleFeatures⟩ := full.copies oldSound firstAccepted
    middleNoIdField oldTable between (by omega) strings
  obtain ⟨newMemory, secondCopy, _, newFeatures⟩ := middleFull.copies
    (computeLayout_sound between.computed) secondAccepted noIdField middleTable last (by omega) strings
  obtain ⟨directMemory, directCopy, _, directFeatures⟩ := full.copies oldSound accepted noIdField
    oldTable direct (by omega) strings
  refine ⟨middleMemory, newMemory, directMemory, firstCopy, secondCopy, directCopy, ?_⟩
  funext entityId
  rw [newFeatures, middleFeatures, directFeatures]
  cases found : segmentFeatures hashName hashId old oldLayout history.memory entityId with
  | none => rfl
  | some features =>
      simp only [Option.map_some, migrateFeatures_trans zero firstAccepted secondAccepted
        (segmentFeatures_declared oldTable found)]

/-- The upgraded sample schema with a wider field, in another order. -/
def sampleFinal : FeatureSchema where
  className := "Sample"
  version := 3
  fields := [⟨"score", .float64, [], score_named, scalar_dimensions, scalar_elements, scalar_bytes .float64⟩,
    ⟨"rank", .int64, [], rank_named, scalar_dimensions, scalar_elements, scalar_bytes .int64⟩]
  fieldsNonempty := by decide
  namesDistinct := by decide

theorem computeLayout_sampleFinal : computeLayout sampleHash sampleFinal 3 8 =
    .ok (layoutOf 3 8 128 [⟨0, 0, .float64, 1, 8⟩, ⟨1, 64, .int64, 1, 8⟩]
      [⟨0, 0, .float64, 1, 8⟩, ⟨1, 64, .int64, 1, 8⟩] 2) := by
  have table : compileSchema sampleHash sampleFinal =
      .ok [⟨0, 64, .float64, 1, 8⟩, ⟨1, 128, .int64, 1, 8⟩] := by
    simp [compileSchema, sampleFinal, offsetRows, fieldByteOffsets, alignUp, headerSize,
      sampleHash, cacheLineSize, FeatureField.byteCount, FeatureField.elementCount, elementProduct,
      List.mergeSort, List.MergeSort.Internal.splitInTwo, DType.byteSize]
  have relative : computeRowOffsetTable sampleHash sampleFinal =
      .ok [⟨0, 0, .float64, 1, 8⟩, ⟨1, 64, .int64, 1, 8⟩] := by
    rw [computeRowOffsetTable, table]
    rfl
  have rows : rowSize sampleHash sampleFinal = .ok 128 := by
    rw [rowSize, relative]
    rfl
  rw [computeLayout, rows, relative]
  rfl

/-- Two rows of the sample schema go through two upgrades and through the direct one. -/
theorem upgrades_compose_sample :
    let history := runInserts (fun _ => 0) sampleLayout (List.replicate 16 0) sampleRows
    let present := presentIds history.log
    present = {"a", "b"} ∧ (canUpgrade sampleSchema sampleFinal).1 = true ∧
      ∃ (between : FreshTarget sampleHash sampleUpgrade 8 present.card)
        (last direct : FreshTarget sampleHash sampleFinal 8 present.card)
        (middleMemory newMemory directMemory : Memory),
        CopiesInto sampleCast (fun ids => some (.ofList ids)) (fun _ => 0) sampleSchema
          sampleUpgrade sampleLayout history.memory between middleMemory ∧
        CopiesInto sampleCast (fun ids => some (.ofList ids)) (fun _ => 0) sampleUpgrade
          sampleFinal between.layout middleMemory last newMemory ∧
        CopiesInto sampleCast (fun ids => some (.ofList ids)) (fun _ => 0) sampleSchema
          sampleFinal sampleLayout history.memory direct directMemory ∧
        segmentFeatures sampleHash (fun _ => 0) sampleFinal last.layout newMemory =
          segmentFeatures sampleHash (fun _ => 0) sampleFinal direct.layout directMemory := by
  intro history present
  have both : present = {"a", "b"} := by
    rw [show present = _ from sampleRows_present]
    decide
  have room : (present.card : Int) + 1 ≤ 3 := by
    rw [both]
    decide
  have composed := upgrades_compose (show (canUpgrade sampleSchema sampleUpgrade).1 = true by decide)
    (show (canUpgrade sampleUpgrade sampleFinal).1 = true by decide)
  exact ⟨both, composed.1, ⟨3, _, List.replicate 16 0, computeLayout_sampleRoomy, rfl, room⟩,
    ⟨3, _, List.replicate 16 0, computeLayout_sampleFinal, rfl, room⟩,
    ⟨3, _, List.replicate 16 0, computeLayout_sampleFinal, rfl, room⟩,
    composed.2 sampleHash sampleCast (fun _ => 0) (fun ids => some (.ofList ids)) 2 8
      sampleLayout (List.replicate 16 0) sampleRows rfl (by decide)
      (computeLayout_sample_of_hash rfl) rfl (fun _ _ _ => rfl) _ _ _⟩

end Quorin
