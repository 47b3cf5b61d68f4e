import Quorin.Construction.Producer
import Quorin.Proof.Offline.Convertible
import Quorin.Proof.Evolution.FieldOffsets

namespace Quorin

/-- The integers, the floats and the nested lists of these, which are what a producer packs. -/
inductive WireValue.Numeric : WireValue → Prop where
  | int (value : Int) : Numeric (.int value)
  | float (bits : UInt64) : Numeric (.float bits)
  | list (items : List WireValue) (all : ∀ item ∈ items, item.Numeric) : Numeric (.list items)

/-- A numeric payload is unpacked as it was packed. -/
def Externals.RoundTrips (externals : Externals) : Prop :=
  ∀ value blob, value.Numeric → externals.packb value = some blob →
    externals.unpackb blob = some value

section Order

variable {hashName : String → UInt64} {schema : FeatureSchema}

/-- The compiled table is the placed fields in the order of their hashes. -/
theorem compileSchema_sorted {table : List OffsetRow}
    (compiled : compileSchema hashName schema = .ok table) :
    table = ((schema.fields.zip (fieldByteOffsets schema.fields headerSize)).mergeSort
      fun first second => decide (hashName first.1.name ≤ hashName second.1.name)).map fun entry =>
        ⟨hashName entry.1.name, entry.2, entry.1.dtype, entry.1.elementCount, entry.1.byteCount⟩ := by
  unfold compileSchema at compiled
  dsimp only at compiled
  split at compiled
  · rw [← Except.ok.inj compiled, offsetRows]
    symm
    apply List.map_mergeSort
    intro first _ second _
    rfl
  · cases compiled

theorem compileSchema_hashes {table : List OffsetRow}
    (compiled : compileSchema hashName schema = .ok table) :
    (schema.fields.map fun field => hashName field.name).Nodup := by
  have rows := (compileSchema_perm compiled).map OffsetRow.nameHash
  have names : (offsetRows hashName schema.fields headerSize).map OffsetRow.nameHash =
      schema.fields.map fun field => hashName field.name := by
    conv_rhs => rw [← List.map_fst_zip
      (Nat.le_of_eq (fieldByteOffsets_length schema.fields headerSize).symm)]
    rw [offsetRows, List.map_map, List.map_map]
    rfl
  rw [names] at rows
  apply rows.nodup_iff.mp
  unfold compileSchema at compiled
  dsimp only at compiled
  split at compiled
  · rename_i distinct
    rwa [Except.ok.inj compiled] at distinct
  · cases compiled

/-- A field is found again by the hash of its name. -/
theorem find_by_hash {fields : List FeatureField}
    (distinct : (fields.map fun field => hashName field.name).Nodup) {field : FeatureField}
    (member : field ∈ fields) :
    fields.reverse.find? (fun other => hashName other.name = hashName field.name) = some field := by
  cases found : fields.reverse.find? fun other => hashName other.name = hashName field.name with
  | none =>
      have absent := List.find?_eq_none.mp found field (List.mem_reverse.mpr member)
      simp at absent
  | some other =>
      have same := List.find?_some found
      have inside := List.mem_reverse.mp (List.mem_of_find?_eq_some found)
      rw [List.inj_on_of_nodup_map distinct inside member (of_decide_eq_true same)]

/-- The producer encodes the fields in the order in which the writer keeps its columns. -/
theorem fieldOrderFor_eq {order : List FeatureField}
    (ordered : fieldOrderFor hashName schema = .ok order) : order = wireOrder hashName schema := by
  unfold fieldOrderFor at ordered
  cases compiled : compileSchema hashName schema with
  | error error =>
      rw [compiled] at ordered
      cases ordered
  | ok table =>
      rw [compiled] at ordered
      have distinct := compileSchema_hashes compiled
      rw [← Except.ok.inj ordered, compileSchema_sorted compiled, List.filterMap_map]
      have first : wireOrder hashName schema =
          ((schema.fields.zip (fieldByteOffsets schema.fields headerSize)).mergeSort
            fun first second => decide (hashName first.1.name ≤ hashName second.1.name)).map
              Prod.fst := by
        conv_lhs => rw [wireOrder, ← List.map_fst_zip
          (Nat.le_of_eq (fieldByteOffsets_length schema.fields headerSize).symm)]
        symm
        apply List.map_mergeSort
        intro first _ second _
        rfl
      rw [first, ← List.filterMap_eq_map]
      apply List.filterMap_congr
      intro entry member
      have inside := (List.of_mem_zip (List.mem_mergeSort.mp member)).1
      exact find_by_hash distinct inside

end Order

section Validated

variable {Object : Type} {externals : Externals} {pydantic : Pydantic Object}

theorem mapM_option_forall {α β : Type} {f : α → Option β} {xs : List α} {ys : List β}
    (mapped : xs.mapM f = some ys) : List.Forall₂ (fun x y => f x = some y) xs ys := by
  induction xs generalizing ys with
  | nil =>
      rw [List.mapM_nil] at mapped
      obtain rfl := Option.some.inj mapped
      exact .nil
  | cons x rest ih =>
      rw [List.mapM_cons] at mapped
      obtain ⟨first, here, mapped⟩ := Option.bind_eq_some_iff.mp mapped
      obtain ⟨others, later, mapped⟩ := Option.bind_eq_some_iff.mp mapped
      obtain rfl := Option.some.inj mapped
      exact .cons here (ih later)

theorem mapM_except_forall {ε α β : Type} {f : α → Except ε β} {xs : List α} {ys : List β}
    (mapped : xs.mapM f = .ok ys) : List.Forall₂ (fun x y => f x = .ok y) xs ys := by
  induction xs generalizing ys with
  | nil =>
      rw [List.mapM_nil] at mapped
      obtain rfl := Except.ok.inj mapped
      exact .nil
  | cons x rest ih =>
      rw [List.mapM_cons] at mapped
      cases here : f x with
      | error error => simp [here, bind, Except.bind] at mapped
      | ok first =>
          cases later : rest.mapM f with
          | error error => simp [here, later, bind, Except.bind] at mapped
          | ok others =>
              simp only [here, later, bind, Except.bind, pure, Except.pure, Except.ok.injEq] at mapped
              rw [← mapped]
              exact .cons here (ih later)

/-- Two relations over one list relate the other two lists position by position. -/
theorem forall_join {α β γ : Type} {left : α → β → Prop} {right : α → γ → Prop}
    {joined : β → γ → Prop} (join : ∀ x y z, left x y → right x z → joined y z)
    {xs : List α} {ys : List β} {zs : List γ} (first : List.Forall₂ left xs ys)
    (second : List.Forall₂ right xs zs) : List.Forall₂ joined ys zs := by
  induction first generalizing zs with
  | nil =>
      cases second
      exact .nil
  | cons here later ih =>
      cases second with
      | cons head tail => exact .cons (join _ _ _ here head) (ih tail)

/-- A validated value is numeric and converts to an Arrow type. -/
def Fits (externals : Externals) (type : ArrowType) (value : WireValue) : Prop :=
  value.Numeric ∧ type.converts externals value = true

theorem validateScalar_fits {dtype : DType} {object : Object} {value : WireValue}
    (validated : validateScalar pydantic dtype object = some value) :
    Fits externals (.leaf dtype) value := by
  unfold validateScalar at validated
  cases range : dtype.intRange with
  | none =>
      rw [range] at validated
      obtain ⟨bits, _, rfl⟩ := Option.map_eq_some_iff.mp validated
      refine ⟨.float bits, ?_⟩
      cases dtype with
      | float32 => rfl
      | float64 => rfl
      | int32 => cases range
      | int64 => cases range
      | uint8 => cases range
  | some bounds =>
      obtain ⟨low, high⟩ := bounds
      rw [range] at validated
      obtain ⟨number, _, checked⟩ := Option.bind_eq_some_iff.mp validated
      split at checked
      · rename_i inRange
        obtain rfl := Option.some.inj checked
        refine ⟨.int number, ?_⟩
        simp [ArrowType.converts, range, inRange]
      · cases checked

theorem validateList_fits {validate : Object → Option WireValue} {item : ArrowType}
    (items : ∀ object value, validate object = some value → Fits externals item value)
    {length : Nat} {object : Object} {value : WireValue}
    (validated : validateList pydantic validate length object = some value) :
    Fits externals (.fixedList item length) value := by
  unfold validateList at validated
  obtain ⟨objects, _, checked⟩ := Option.bind_eq_some_iff.mp validated
  split at checked
  · rename_i size
    obtain ⟨values, mapped, rfl⟩ := Option.map_eq_some_iff.mp checked
    have pairs := mapM_option_forall mapped
    have each : ∀ value ∈ values, Fits externals item value := by
      intro value member
      obtain ⟨index, inside, rfl⟩ := List.mem_iff_getElem.mp member
      have bound : index < objects.length := by
        rw [pairs.length_eq]
        exact inside
      exact items _ _ (pairs.get bound inside)
    refine ⟨.list values fun value member => (each value member).1, ?_⟩
    simp only [ArrowType.converts, Bool.and_eq_true, decide_eq_true_eq, List.all_eq_true]
    exact ⟨pairs.length_eq.symm.trans size, fun value member => (each value member).2⟩
  · cases checked

/-- A validated value fits the column type of its field. -/
theorem validateField_fits {field : FeatureField} {object : Object} {value : WireValue}
    (validated : validateField pydantic field object = some value) :
    ∃ type, arrowTypeFor field = .ok type ∧ Fits externals type value := by
  unfold validateField at validated
  split at validated
  · rename_i shape
    rw [arrowTypeFor, shape]
    exact ⟨_, rfl, validateScalar_fits validated⟩
  · rename_i length shape
    rw [arrowTypeFor, shape]
    exact ⟨_, rfl, validateList_fits (fun _ _ => validateScalar_fits) validated⟩
  · rename_i rows columns shape
    rw [arrowTypeFor, shape]
    refine ⟨_, rfl, validateList_fits ?_ validated⟩
    exact fun _ _ => validateList_fits fun _ _ => validateScalar_fits
  · cases validated

/-- The values of the fields are looked up and validated one by one. -/
theorem validateFields_forall {values : List (String × Object)} {fields : List FeatureField}
    {validated : List WireValue} (accepted : validateFields pydantic values fields = .ok validated) :
    List.Forall₂ (fun field value => ∃ object, values.lookup field.name = some object ∧
      validateField pydantic field object = some value) fields validated := by
  induction fields generalizing validated with
  | nil =>
      obtain rfl := Except.ok.inj accepted
      exact .nil
  | cons field rest ih =>
      unfold validateFields at accepted
      split at accepted
      · cases accepted
      · rename_i object present
        split at accepted
        · cases accepted
        · rename_i value valid
          cases later : validateFields pydantic values rest with
          | error error => simp [later, bind, Except.bind] at accepted
          | ok others =>
              simp only [later, bind, Except.bind, pure, Except.pure, Except.ok.injEq] at accepted
              rw [← accepted]
              exact .cons ⟨object, present, valid⟩ (ih later)

/-- The parts of an accepted write. -/
structure WrittenMessage (externals : Externals) (pydantic : Pydantic Object) (schema : FeatureSchema)
    (entityId : String) (values : List (String × Object)) (eventTimeNs : Int)
    (fields : MessageFields) (valuesList : List WireValue) : Prop where
  named : fields.schema = some (encodeUtf8 schema.className)
  keyed : fields.entityId = some (encodeUtf8 entityId)
  eventTime : fields.eventTime = strInt eventTimeNs
  timed : fields.eventTime ≠ none
  packed : fields.blob = externals.packb (.list valuesList)
  present : fields.blob ≠ none
  short : (encodeUtf8 entityId).length ≤ maxEntityIdBytes
  compiled : ∃ table, compileSchema externals.hashName schema = .ok table
  flat : ∀ field ∈ schema.fields, field.shape.length ≤ 2
  validated : List.Forall₂ (fun field value => ∃ object, values.lookup field.name = some object ∧
    validateField pydantic field object = some value) (wireOrder externals.hashName schema) valuesList

theorem doWrite_message {schema : FeatureSchema} {entityId : String}
    {values : List (String × Object)} {eventTimeNs : Int} {fields : MessageFields}
    (accepted : doWrite externals pydantic schema entityId values eventTimeNs = .ok fields) :
    ∃ valuesList,
      WrittenMessage externals pydantic schema entityId values eventTimeNs fields valuesList := by
  unfold doWrite at accepted
  cases ordered : fieldOrderFor externals.hashName schema with
  | error error => simp [ordered, bind, Except.bind] at accepted
  | ok order =>
      simp only [ordered, bind, Except.bind] at accepted
      have wired := fieldOrderFor_eq ordered
      split at accepted
      · cases accepted
      · rename_i flat
        split at accepted
        · cases accepted
        · cases valid : validateFields pydantic values order with
          | error error => simp [valid] at accepted
          | ok valuesList =>
              simp only [valid] at accepted
              split at accepted
              · cases accepted
              · rename_i blob packed
                split at accepted
                · cases accepted
                · rename_i short
                  split at accepted
                  · cases accepted
                  · rename_i text printed
                    obtain rfl := Except.ok.inj accepted
                    have pairs := validateFields_forall valid
                    rw [wired] at pairs flat
                    refine ⟨valuesList, rfl, rfl, printed.symm, by simp, packed.symm, by simp,
                      Nat.le_of_not_lt short, ?_, ?_, pairs⟩
                    · unfold fieldOrderFor at ordered
                      cases compiled : compileSchema externals.hashName schema with
                      | error error =>
                          rw [compiled] at ordered
                          cases ordered
                      | ok table => exact ⟨table, rfl⟩
                    · intro field member
                      have inOrder : field ∈ wireOrder externals.hashName schema :=
                        List.mem_mergeSort.mpr member
                      simpa using List.find?_eq_none.mp flat field inOrder

/-- What an accepted write puts into the stream. -/
structure AcceptedWrite (externals : Externals) (pydantic : Pydantic Object) (schema : FeatureSchema)
    (eventTimeNs : Int) (fields : MessageFields) (valuesList : List WireValue) : Prop where
  eventTime : fields.eventTime = strInt eventTimeNs
  timed : fields.eventTime ≠ none
  packed : fields.blob = externals.packb (.list valuesList)
  present : fields.blob ≠ none
  validated : List.Forall₂
    (fun field value => ∃ object, validateField pydantic field object = some value)
    (wireOrder externals.hashName schema) valuesList

theorem WrittenMessage.accepted {schema : FeatureSchema} {entityId : String}
    {values : List (String × Object)} {eventTimeNs : Int} {fields : MessageFields}
    {valuesList : List WireValue}
    (written : WrittenMessage externals pydantic schema entityId values eventTimeNs fields valuesList) :
    AcceptedWrite externals pydantic schema eventTimeNs fields valuesList := by
  refine ⟨written.eventTime, written.timed, written.packed, written.present, ?_⟩
  refine written.validated.imp ?_
  rintro field value ⟨object, _, valid⟩
  exact ⟨object, valid⟩

theorem doWrite_accepted {schema : FeatureSchema} {entityId : String}
    {values : List (String × Object)} {eventTimeNs : Int} {fields : MessageFields}
    (accepted : doWrite externals pydantic schema entityId values eventTimeNs = .ok fields) :
    ∃ valuesList, AcceptedWrite externals pydantic schema eventTimeNs fields valuesList := by
  obtain ⟨valuesList, written⟩ := doWrite_message accepted
  exact ⟨valuesList, written.accepted⟩

theorem arrowPlanFor_wireTypes {hashName : String → UInt64} {schema : FeatureSchema}
    {plan : ArrowPlan} (planned : arrowPlanFor hashName schema = .ok plan) :
    (wireOrder hashName schema).mapM arrowTypeFor = .ok plan.wireTypes := by
  unfold arrowPlanFor at planned
  dsimp only [bind, Except.bind, pure, Except.pure] at planned
  split at planned
  · cases planned
  · split at planned
    · cases planned
    · cases mapped : (wireOrder hashName schema).mapM arrowTypeFor with
      | error error => simp [mapped] at planned
      | ok types =>
          simp only [mapped, Except.ok.injEq] at planned
          rw [← planned]

/-- The values of an accepted write fit the columns of its own class. -/
theorem AcceptedWrite.fits {schema : FeatureSchema} {eventTimeNs : Int} {fields : MessageFields}
    {valuesList : List WireValue}
    (written : AcceptedWrite externals pydantic schema eventTimeNs fields valuesList)
    {plan : ArrowPlan} (planned : arrowPlanFor externals.hashName schema = .ok plan) :
    List.Forall₂ (Fits externals) plan.wireTypes valuesList := by
  apply forall_join _ (mapM_except_forall (arrowPlanFor_wireTypes planned)) written.validated
  rintro field type value typed ⟨object, valid⟩
  obtain ⟨other, same, fits⟩ := validateField_fits valid
  rw [typed] at same
  obtain rfl := Except.ok.inj same
  exact fits

/-- The values of an accepted write are numeric. -/
theorem AcceptedWrite.numeric {schema : FeatureSchema} {eventTimeNs : Int} {fields : MessageFields}
    {valuesList : List WireValue}
    (written : AcceptedWrite externals pydantic schema eventTimeNs fields valuesList) :
    ∀ value ∈ valuesList, value.Numeric := by
  intro value member
  obtain ⟨index, inside, rfl⟩ := List.mem_iff_getElem.mp member
  have bound : index < (wireOrder externals.hashName schema).length := by
    rw [written.validated.length_eq]
    exact inside
  obtain ⟨object, valid⟩ := written.validated.get bound inside
  obtain ⟨_, _, fits⟩ := @validateField_fits _ externals _ _ _ _ valid
  exact fits.1

/-- The payload of an accepted write is unpacked as the list of its validated values. -/
theorem WrittenMessage.carried {schema : FeatureSchema} {entityId : String}
    {values : List (String × Object)} {eventTimeNs : Int} {fields : MessageFields}
    {valuesList : List WireValue} (lossless : externals.RoundTrips)
    (written : WrittenMessage externals pydantic schema entityId values eventTimeNs fields valuesList) :
    fields.blob.bind externals.unpackb = some (.list valuesList) := by
  cases present : fields.blob with
  | none => exact absurd present written.present
  | some blob =>
      have packed := written.packed
      rw [present] at packed
      exact lossless _ _ (.list valuesList written.accepted.numeric) packed.symm

end Validated

end Quorin
