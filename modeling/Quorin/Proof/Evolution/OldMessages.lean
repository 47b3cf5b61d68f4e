import Quorin.Proof.Consumer.EncodedValues
import Quorin.Proof.Evolution.TranslationColumns

namespace Quorin

open ByteMemory

/-- The failures of the pack that are a `ValueError` of its own checks. -/
def PackError.IsValueError : PackError → Prop
  | .valueCount _ _ => True
  | .outLength _ _ => True
  | .elementCount _ _ _ => True
  | .noLength => False
  | .scalar _ => False
  | .array _ => False

/-- The bytes of a field are the value that the list carries for the old field of its name. -/
def CarriesOwn (externals : Externals) (order : List FeatureField) (items : List WireValue)
    (row : List UInt8) (entry : FeatureField × Nat) : Prop :=
  ∃ oldField value, (oldField, value) ∈ order.zip items ∧ oldField.name = entry.1.name ∧
    slice row entry.2 entry.1.byteCount =
      (valueElements externals.castBits entry.1.dtype entry.1.shape value).flatten

/-- The pack refuses the list with a `ValueError`, or every new field holds its own old value. -/
def KeepsFields (externals : Externals) (order : List FeatureField) (items : List WireValue)
    (new : FeatureSchema) (buffer : List UInt8) : Prop :=
  (∃ error, buildPlan externals.hashName new = .error error) ∨
    ∃ plan, buildPlan externals.hashName new = .ok plan ∧
      ((∃ error out, packRowFromList externals plan (.list items) buffer = (.error error, out) ∧
          error.IsValueError) ∨
        ∃ row, packRowFromList externals plan (.list items) buffer = (.ok (), row) ∧
          ∀ entry ∈ new.placed, CarriesOwn externals order items row entry)

section Names

variable {hashName : String → UInt64} {old new : FeatureSchema}

/-- The names of a schema in the order of the wire are sorted by their hashes. -/
theorem wireOrder_sorted (schema : FeatureSchema) :
    ((wireOrder hashName schema).map FeatureField.name).Pairwise fun first second =>
      hashName first ≤ hashName second := by
  rw [List.pairwise_map]
  have sorted : (wireOrder hashName schema).Pairwise fun first second =>
      decide (hashName first.name ≤ hashName second.name) = true := by
    apply List.pairwise_mergeSort
    · intro first second third before after
      exact decide_eq_true
        (UInt64.le_trans (of_decide_eq_true before) (of_decide_eq_true after))
    · intro first second
      simp [UInt64.le_total]
  exact sorted.imp of_decide_eq_true

/-- An accepted upgrade that adds no field keeps the names. -/
theorem Accepted.names_perm (accepted : Accepted old new)
    (count : old.fields.length = new.fields.length) :
    (old.fields.map FeatureField.name).Perm (new.fields.map FeatureField.name) := by
  have kept : old.fields.map FeatureField.name ⊆ new.fields.map FeatureField.name := by
    intro name member
    obtain ⟨oldField, inside, rfl⟩ := List.mem_map.mp member
    obtain ⟨field, found, _⟩ := accepted.kept oldField inside
    obtain ⟨there, same⟩ := byName_some found
    rw [← same]
    exact List.mem_map_of_mem there
  apply (old.namesDistinct.subperm kept).perm_of_length_le
  simp [count]

/-- Equal numbers of fields force equal names in the order of the wire. -/
theorem Accepted.wireNames (accepted : Accepted old new)
    (count : old.fields.length = new.fields.length)
    (distinct : (new.fields.map fun field => hashName field.name).Nodup) :
    (wireOrder hashName old).map FeatureField.name =
      (wireOrder hashName new).map FeatureField.name := by
  have oldPerm := (@wireOrder_perm hashName old).map FeatureField.name
  have newPerm := (@wireOrder_perm hashName new).map FeatureField.name
  have perm := (oldPerm.trans (accepted.names_perm count)).trans newPerm.symm
  apply perm.eq_of_pairwise _ (wireOrder_sorted old) (wireOrder_sorted new)
  intro first second left right before after
  have leftNew := newPerm.mem_iff.mp (perm.mem_iff.mp left)
  have rightNew := newPerm.mem_iff.mp right
  have hashes : ((new.fields.map FeatureField.name).map hashName).Nodup := by
    rw [List.map_map]
    exact distinct
  exact List.inj_on_of_nodup_map hashes leftNew rightNew (UInt64.le_antisymm before after)

end Names

section Messages

variable {Object : Type} {externals : Externals} {pydantic : Pydantic Object}
  {old new : FeatureSchema}

/-- A value of an old field is encoded in the type of the new field of its name. -/
theorem Accepted.encodes (accepted : Accepted old new) (converts : externals.ConvertsLists)
    {oldField : FeatureField} (member : oldField ∈ old.fields) {value : WireValue}
    (suits : value.Matches oldField.dtype oldField.shape)
    (representable : ∀ leaf ∈ value.leaves oldField.shape.length,
      ¬ leaf.Overflows externals.castBits oldField.dtype)
    {field : FeatureField} (inside : field ∈ new.fields) (name : field.name = oldField.name) :
    encodeField externals field value =
      some (valueElements externals.castBits field.dtype field.shape value) := by
  obtain ⟨other, found, shape, widens, flat⟩ := accepted.kept oldField member
  rw [← name, byName_of_mem inside] at found
  obtain rfl := Option.some.inj found
  have wide : value.Matches field.dtype field.shape := by
    rw [shape]
    exact suits.widened widens
  rcases encodeField_cases converts (by omega) wide with ⟨⟨scalar, overflow⟩, _⟩ | ⟨_, encoded⟩
  · obtain ⟨bits, float, narrow, infinite⟩ := overflow
    have same : oldField.dtype = .float32 := by
      rw [narrow] at widens
      cases dtype : oldField.dtype with
      | float32 => rfl
      | float64 => simp [dtype, DType.widensTo] at widens
      | int32 => simp [dtype, DType.widensTo] at widens
      | int64 => simp [dtype, DType.widensTo] at widens
      | uint8 => simp [dtype, DType.widensTo] at widens
    have leaf : value ∈ value.leaves oldField.shape.length := by
      rw [← shape, scalar]
      exact List.mem_singleton_self value
    exact absurd ⟨bits, float, same, infinite⟩ (representable value leaf)
  · exact encoded

section Carried

variable {items : List WireValue}
  (names : (wireOrder externals.hashName old).map FeatureField.name =
    (wireOrder externals.hashName new).map FeatureField.name)
  (encoded : List.Forall₂ (fun oldField value => ∀ field ∈ new.fields, field.name = oldField.name →
    encodeField externals field value =
      some (valueElements externals.castBits field.dtype field.shape value))
    (wireOrder externals.hashName old) items)

include names encoded in
/-- With equal names every new field finds the value of its own name at its position. -/
theorem new_encodes :
    List.Forall₂ (fun entry value =>
        encodeField externals entry.1 value =
          some (valueElements externals.castBits entry.1.dtype entry.1.shape value) ∧
        ∃ oldField, (oldField, value) ∈ (wireOrder externals.hashName old).zip items ∧
          oldField.name = entry.1.name)
      (wirePlaced externals.hashName new) items := by
  have sizes : (wirePlaced externals.hashName new).length =
      (wireOrder externals.hashName old).length := by
    have lengths := congrArg List.length names
    simp only [List.length_map, ← wirePlaced_fields] at lengths
    rw [← wirePlaced_fields, List.length_map]
    exact lengths.symm
  refine List.forall₂_iff_get.mpr ⟨sizes.trans encoded.length_eq, ?_⟩
  intro index inside there
  have bound : index < (wireOrder externals.hashName old).length := sizes ▸ inside
  have name : (wireOrder externals.hashName old)[index].name =
      (wirePlaced externals.hashName new)[index].1.name := by
    have position := List.getElem_of_eq names (by simpa using bound)
    simp only [List.getElem_map, ← @wirePlaced_fields externals.hashName new] at position
    exact position
  have placed := (@wirePlaced_perm externals.hashName new).mem_iff.mp (List.getElem_mem inside)
  refine ⟨encoded.get bound there _ (List.of_mem_zip placed).1 name.symm,
    (wireOrder externals.hashName old)[index], ?_, name⟩
  exact List.mem_iff_getElem.mpr ⟨index, by simp; omega, List.getElem_zip⟩

include names encoded in
/-- A packed old message holds the value of every field in its own place. -/
theorem HoldsValues.own {row : List UInt8} (held : HoldsValues externals new items row) :
    ∀ entry ∈ new.placed, CarriesOwn externals (wireOrder externals.hashName old) items row entry := by
  intro entry member
  obtain ⟨index, inside, rfl⟩ := List.mem_iff_getElem.mp
    ((@wirePlaced_perm externals.hashName new).mem_iff.mpr member)
  have there : index < items.length := held.length_eq ▸ inside
  obtain ⟨bytes, oldField, paired, name⟩ := (new_encodes names encoded).get inside there
  have stored := held.get inside there
  rw [bytes] at stored
  exact ⟨oldField, _, paired, name, (Option.some.inj stored).symm⟩

end Carried

/-- An old message is refused by a check of the pack or every value keeps its field. -/
theorem oldMessages_keepFields (lossless : externals.RoundTrips) (converts : externals.ConvertsLists)
    (accepted : (canUpgrade old new).1 = true) {entityId : String} {values : List (String × Object)}
    {eventTimeNs : Int} {fields : MessageFields}
    (written : doWrite externals pydantic old entityId values eventTimeNs = .ok fields)
    (representable : RepresentableValues externals pydantic old values) (buffer : List UInt8) :
    ∃ order items, fieldOrderFor externals.hashName old = .ok order ∧
      fields.blob.bind externals.unpackb = some (.list items) ∧
      List.Forall₂ (fun oldField value => ∃ object, values.lookup oldField.name = some object ∧
        validateField pydantic oldField object = some value) order items ∧
      KeepsFields externals order items new buffer := by
  obtain ⟨items, message⟩ := doWrite_message written
  obtain ⟨table, compiled⟩ := message.compiled
  have ordered : ∃ order, fieldOrderFor externals.hashName old = .ok order := by
    unfold fieldOrderFor
    rw [compiled]
    exact ⟨_, rfl⟩
  obtain ⟨order, found⟩ := ordered
  have wired := fieldOrderFor_eq found
  refine ⟨order, items, found, message.carried lossless, wired ▸ message.validated, ?_⟩
  cases built : buildPlan externals.hashName new with
  | error error => exact Or.inl ⟨error, built⟩
  | ok plan =>
      refine Or.inr ⟨plan, built, ?_⟩
      by_cases count : items.length = plan.expectedLen
      · by_cases size : buffer.length = plan.rowSize
        · right
          have upgrade := canUpgrade_accepted accepted
          have lengths : old.fields.length = new.fields.length := by
            rw [← (buildPlan_slots built).1, ← count, ← message.validated.length_eq,
              (@wireOrder_perm externals.hashName old).length_eq]
          have names := upgrade.wireNames lengths (buildPlan_hashes built)
          have encoded : List.Forall₂ (fun oldField value => ∀ field ∈ new.fields,
              field.name = oldField.name → encodeField externals field value =
                some (valueElements externals.castBits field.dtype field.shape value))
              (wireOrder externals.hashName old) items := by
            refine List.forall₂_iff_get.mpr ⟨message.validated.length_eq, ?_⟩
            intro index inside there field member name
            obtain ⟨object, looked, valid⟩ := message.validated.get inside there
            have known := mem_wireOrder.mp (List.get_mem _ ⟨index, inside⟩)
            exact upgrade.encodes converts known (validateField_matches valid)
              (representable _ known object _ looked valid) member name
          have succeeded := (packRowFromList_succeeds built (.list items) buffer).mpr
            ⟨size, items, rfl, by
              rw [← wirePlaced_fields, List.forall₂_map_left_iff]
              refine (new_encodes names encoded).imp ?_
              rintro entry value ⟨bytes, _⟩
              rw [bytes]
              rfl⟩
          obtain ⟨_, _, others, same, held⟩ := packRowFromList_holds built
            (Prod.ext succeeded rfl :
              packRowFromList externals plan (.list items) buffer = (.ok (), _))
          obtain rfl := Option.some.inj same
          refine ⟨_, Prod.ext succeeded rfl, ?_⟩
          rw [wired]
          exact HoldsValues.own names encoded held
        · refine Or.inl ⟨.outLength buffer.length plan.rowSize, buffer, ?_, trivial⟩
          simp [packRowFromList, WireValue.items, count, size]
      · refine Or.inl ⟨.valueCount plan.expectedLen items.length, buffer, ?_, trivial⟩
        simp [packRowFromList, WireValue.items, count]

end Messages

/-- The pair with wider fields, declared in the other order. -/
def samplePairWidened : FeatureSchema where
  className := "Pair"
  version := 2
  fields := [⟨"tags", .int64, [2], tags_named, pair_dimensions, pair_elements, pair_bytes .int64⟩,
    ⟨"score", .float64, [], score_named, scalar_dimensions, scalar_elements, scalar_bytes .float64⟩]
  fieldsNonempty := by decide
  namesDistinct := by decide

/-- The old values of the pair keep their fields under the wider schema. -/
theorem oldMessages_keepFields_sample :
    ∃ order items, fieldOrderFor samplePairs.hashName samplePair = .ok order ∧
      samplePairFields.blob.bind samplePairs.unpackb = some (.list items) ∧
      List.Forall₂ (fun oldField value => ∃ object, samplePairValues.lookup oldField.name = some object ∧
        validateField samplePairPydantic oldField object = some value) order items ∧
      KeepsFields samplePairs order items samplePairWidened (List.replicate 128 0) :=
  oldMessages_keepFields samplePairs_roundTrips samplePairs_converts
    (show (canUpgrade samplePair samplePairWidened).1 = true by decide) samplePairs_doWrite
    samplePairs_representable (List.replicate 128 0)

end Quorin
