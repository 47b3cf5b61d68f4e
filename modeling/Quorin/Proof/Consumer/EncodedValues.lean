import Quorin.Proof.Consumer.PackedRow
import Quorin.Proof.Consumer.Blocking

namespace Quorin

open ByteMemory

/-- The scalars of a nested list, row after row. -/
def WireValue.leaves : Nat → WireValue → List WireValue
  | 0, value => [value]
  | rank + 1, .list items => items.flatMap (WireValue.leaves rank)
  | _ + 1, _ => []

/-- A scalar of a type is a float pattern or an integer in the range of the type. -/
def WireValue.IsScalar (dtype : DType) (value : WireValue) : Prop :=
  match dtype.intRange with
  | none => ∃ bits, value = .float bits
  | some (low, high) => ∃ number, value = .int number ∧ low ≤ number ∧ number ≤ high

/-- A value is a nested list of the given shape with scalars of the type. -/
def WireValue.Matches (dtype : DType) : List Nat → WireValue → Prop
  | [], value => value.IsScalar dtype
  | length :: rest, value =>
      ∃ items, value = .list items ∧ items.length = length ∧ ∀ item ∈ items, Matches dtype rest item

/-- The bytes of a scalar: two's complement, or the pattern of the float in the type. -/
def elementBytes (castBits : DType → DType → Nat → Nat) (dtype : DType) : WireValue → List UInt8
  | .int number => leBytes dtype.byteSize (number % 2 ^ (8 * dtype.byteSize)).toNat
  | .float bits =>
      match dtype with
      | .float32 => leBytes 4 (castBits .float64 .float32 bits.toNat)
      | _ => leBytes 8 bits.toNat
  | _ => []

/-- A finite float becomes infinite in four bytes. -/
def WireValue.Overflows (castBits : DType → DType → Nat → Nat) (dtype : DType) (value : WireValue) :
    Prop :=
  ∃ bits, value = .float bits ∧ dtype = .float32 ∧
    isInfinite32 (castBits .float64 .float32 bits.toNat) = true ∧
    isInfinite64 bits.toNat = false

/-- The elements of the value of a field, in row-major order. -/
def valueElements (castBits : DType → DType → Nat → Nat) (dtype : DType) (shape : List Nat)
    (value : WireValue) : List (List UInt8) :=
  (value.leaves shape.length).map (elementBytes castBits dtype)

/-- The array conversion of a list or of a list of equal lists converts element by element. -/
def Externals.ConvertsLists (externals : Externals) : Prop :=
  ∀ dtype shape value, shape ≠ [] → shape.length ≤ 2 → value.Matches dtype shape →
    externals.asarray dtype value = some (valueElements externals.castBits dtype shape value)

section Scalars

variable {externals : Externals} {dtype : DType} {value : WireValue}

theorem packInteger_range {low high number : Int} (range : dtype.intRange = some (low, high))
    (inside : low ≤ number ∧ number ≤ high) :
    packInteger dtype number = some (elementBytes externals.castBits dtype (.int number)) := by
  unfold packInteger
  rw [range]
  exact if_pos inside

theorem overflows_float {bits : UInt64} :
    (WireValue.float bits).Overflows externals.castBits dtype ↔ dtype = .float32 ∧
      isInfinite32 (externals.castBits .float64 .float32 bits.toNat) = true ∧
      isInfinite64 bits.toNat = false := by
  constructor
  · rintro ⟨other, same, overflow⟩
    obtain rfl := WireValue.float.inj same
    exact overflow
  · exact fun overflow => ⟨bits, rfl, overflow⟩

/-- A float is packed unless it overflows. -/
theorem packFloat_cases (float : dtype.intRange = none) (bits : UInt64) :
    ((WireValue.float bits).Overflows externals.castBits dtype ∧ packFloat externals dtype bits = none) ∨
      ¬ (WireValue.float bits).Overflows externals.castBits dtype ∧
        packFloat externals dtype bits = some (elementBytes externals.castBits dtype (.float bits)) := by
  rw [overflows_float]
  cases dtype with
  | float32 =>
      unfold packFloat
      dsimp only
      split
      · rename_i overflow
        rw [Bool.and_eq_true, Bool.not_eq_true'] at overflow
        exact Or.inl ⟨⟨rfl, overflow⟩, rfl⟩
      · rename_i held
        rw [Bool.and_eq_true, Bool.not_eq_true'] at held
        exact Or.inr ⟨fun overflow => held overflow.2, rfl⟩
  | float64 => exact Or.inr ⟨fun overflow => absurd overflow.1 (by decide), rfl⟩
  | int32 => cases float
  | int64 => cases float
  | uint8 => cases float

/-- A scalar is packed unless it is a float that overflows. -/
theorem structPack_cases (scalar : value.IsScalar dtype) :
    (value.Overflows externals.castBits dtype ∧ structPack externals dtype value = none) ∨
      ¬ value.Overflows externals.castBits dtype ∧
        structPack externals dtype value = some (elementBytes externals.castBits dtype value) := by
  unfold WireValue.IsScalar at scalar
  cases range : dtype.intRange with
  | some bounds =>
      obtain ⟨low, high⟩ := bounds
      rw [range] at scalar
      obtain ⟨number, rfl, inside⟩ := scalar
      refine Or.inr ⟨?_, ?_⟩
      · rintro ⟨bits, different, _⟩
        cases different
      · simp only [structPack, range, Option.bind_some]
        exact packInteger_range range inside
  | none =>
      rw [range] at scalar
      obtain ⟨bits, rfl⟩ := scalar
      have packed : structPack externals dtype (.float bits) = packFloat externals dtype bits := by
        simp only [structPack, range]
      rw [packed]
      exact packFloat_cases range bits

/-- A scalar of a type is a scalar of every wider type. -/
theorem WireValue.IsScalar.widened {target : DType} (scalar : value.IsScalar dtype)
    (widens : dtype.widensTo target = true) : value.IsScalar target := by
  cases dtype <;> cases target <;> first | exact absurd widens (by decide) | skip
  all_goals simp only [WireValue.IsScalar, DType.intRange] at scalar ⊢
  all_goals first | exact scalar | skip
  all_goals
    obtain ⟨number, same, low, high⟩ := scalar
    exact ⟨number, same, by omega, by omega⟩

end Scalars

/-- A nested list of a type is a nested list of every wider type. -/
theorem WireValue.Matches.widened {dtype target : DType} (widens : dtype.widensTo target = true)
    {shape : List Nat} {value : WireValue} (suits : value.Matches dtype shape) :
    value.Matches target shape := by
  induction shape generalizing value with
  | nil => exact WireValue.IsScalar.widened suits widens
  | cons length rest ih =>
      obtain ⟨items, same, size, inner⟩ := suits
      exact ⟨items, same, size, fun item member => ih (inner item member)⟩

section Validation

variable {Object : Type} {pydantic : Pydantic Object}

theorem validateScalar_matches {dtype : DType} {object : Object} {value : WireValue}
    (validated : validateScalar pydantic dtype object = some value) : value.IsScalar dtype := by
  unfold validateScalar at validated
  unfold WireValue.IsScalar
  cases range : dtype.intRange with
  | none =>
      rw [range] at validated
      obtain ⟨bits, _, rfl⟩ := Option.map_eq_some_iff.mp validated
      exact ⟨bits, rfl⟩
  | some bounds =>
      obtain ⟨low, high⟩ := bounds
      rw [range] at validated
      obtain ⟨number, _, checked⟩ := Option.bind_eq_some_iff.mp validated
      split at checked
      · rename_i inside
        obtain rfl := Option.some.inj checked
        exact ⟨number, rfl, inside⟩
      · cases checked

theorem validateList_matches (shape : List Nat) {dtype : DType} {validate : Object → Option WireValue}
    (inner : ∀ object value, validate object = some value → value.Matches dtype shape)
    {length : Nat} {object : Object} {value : WireValue}
    (validated : validateList pydantic validate length object = some value) :
    value.Matches dtype (length :: shape) := by
  unfold validateList at validated
  obtain ⟨objects, _, checked⟩ := Option.bind_eq_some_iff.mp validated
  split at checked
  · rename_i size
    obtain ⟨items, mapped, rfl⟩ := Option.map_eq_some_iff.mp checked
    have pairs := mapM_option_forall mapped
    refine ⟨items, rfl, pairs.length_eq.symm.trans size, ?_⟩
    intro item member
    obtain ⟨index, inside, rfl⟩ := List.mem_iff_getElem.mp member
    have bound : index < objects.length := by
      rw [pairs.length_eq]
      exact inside
    exact inner _ _ (pairs.get bound inside)
  · cases checked

/-- A validated value matches the shape and the type of its field. -/
theorem validateField_matches {field : FeatureField} {object : Object} {value : WireValue}
    (validated : validateField pydantic field object = some value) :
    value.Matches field.dtype field.shape := by
  unfold validateField at validated
  split at validated
  · rename_i shape
    rw [shape]
    exact validateScalar_matches validated
  · rename_i length shape
    rw [shape]
    exact validateList_matches [] (fun _ _ => validateScalar_matches) validated
  · rename_i rows columns shape
    rw [shape]
    refine validateList_matches [columns] ?_ validated
    exact fun _ _ => validateList_matches [] fun _ _ => validateScalar_matches
  · cases validated

end Validation

section Fields

variable {externals : Externals} {value : WireValue}

/-- A nested list has as many scalars as its shape says. -/
theorem WireValue.Matches.count {dtype : DType} {shape : List Nat} (suits : value.Matches dtype shape) :
    (value.leaves shape.length).length = shape.prod := by
  induction shape generalizing value with
  | nil => rfl
  | cons length rest ih =>
      obtain ⟨items, rfl, size, inner⟩ := suits
      rw [List.length_cons, WireValue.leaves, List.length_flatMap, List.prod_cons, ← size,
        List.map_congr_left fun item member => ih (inner item member)]
      simp

/-- A value is encoded unless it is the value of a scalar field and overflows. -/
theorem encodeField_cases (converts : externals.ConvertsLists) {field : FeatureField}
    (flat : field.shape.length ≤ 2) (suits : value.Matches field.dtype field.shape) :
    ((field.shape = [] ∧ value.Overflows externals.castBits field.dtype) ∧
        encodeField externals field value = none) ∨
      ¬ (field.shape = [] ∧ value.Overflows externals.castBits field.dtype) ∧
        encodeField externals field value =
          some (valueElements externals.castBits field.dtype field.shape value) := by
  by_cases scalar : field.shape = []
  · rw [scalar] at suits
    have packed : encodeField externals field value =
        (structPack externals field.dtype value).map fun bytes => [bytes] := if_pos scalar
    rw [packed, scalar]
    rcases structPack_cases suits with ⟨overflow, refused⟩ | ⟨held, bytes⟩
    · exact Or.inl ⟨⟨rfl, overflow⟩, by rw [refused]; rfl⟩
    · exact Or.inr ⟨fun overflow => held overflow.2, by rw [bytes]; rfl⟩
  · have converted := converts _ _ _ scalar flat suits
    have count : (valueElements externals.castBits field.dtype field.shape value).length =
        field.elementCount := by
      rw [valueElements, List.length_map, suits.count, FeatureField.elementCount, elementProduct,
        List.prod_eq_foldl]
    refine Or.inr ⟨fun overflow => scalar overflow.1, ?_⟩
    simp [encodeField, scalar, converted, count]

end Fields

/-- No accepted value of a schema overflows the type of its field. -/
def RepresentableValues {Object : Type} (externals : Externals) (pydantic : Pydantic Object)
    (schema : FeatureSchema) (values : List (String × Object)) : Prop :=
  ∀ field ∈ schema.fields, ∀ object value, values.lookup field.name = some object →
    validateField pydantic field object = some value →
      ∀ leaf ∈ value.leaves field.shape.length, ¬ leaf.Overflows externals.castBits field.dtype

/-- The items of a list, with the items of inner lists in their places. -/
def WireValue.unnest : WireValue → List WireValue
  | .list inner => inner
  | value => [value]

/-- A sample array conversion of lists and of lists of lists. -/
def sampleArray (castBits : DType → DType → Nat → Nat) (dtype : DType) (value : WireValue) :
    Option (List (List UInt8)) :=
  match value with
  | .list items =>
      let elements := (items.flatMap WireValue.unnest).map (elementBytes castBits dtype)
      if elements.all fun element => element.length = dtype.byteSize then some elements else none
  | _ => none

theorem sampleArray_size {castBits : DType → DType → Nat → Nat} (dtype : DType) (value : WireValue)
    (elements : List (List UInt8)) (converted : sampleArray castBits dtype value = some elements) :
    ∀ element ∈ elements, element.length = dtype.byteSize := by
  unfold sampleArray at converted
  split at converted
  · dsimp only at converted
    split at converted
    · rename_i sizes
      obtain rfl := Option.some.inj converted
      intro element member
      exact of_decide_eq_true (List.all_eq_true.mp sizes element member)
    · cases converted
  · cases converted

theorem elementBytes_length {castBits : DType → DType → Nat → Nat} {dtype : DType} {value : WireValue}
    (scalar : value.IsScalar dtype) : (elementBytes castBits dtype value).length = dtype.byteSize := by
  unfold WireValue.IsScalar at scalar
  cases dtype with
  | float32 =>
      obtain ⟨bits, rfl⟩ := scalar
      exact leBytes_length _ _
  | float64 =>
      obtain ⟨bits, rfl⟩ := scalar
      exact leBytes_length _ _
  | int32 =>
      obtain ⟨number, rfl, _⟩ := scalar
      exact leBytes_length _ _
  | int64 =>
      obtain ⟨number, rfl, _⟩ := scalar
      exact leBytes_length _ _
  | uint8 =>
      obtain ⟨number, rfl, _⟩ := scalar
      exact leBytes_length _ _

theorem WireValue.IsScalar.unnest {dtype : DType} {value : WireValue} (scalar : value.IsScalar dtype) :
    value.unnest = [value] := by
  unfold WireValue.IsScalar at scalar
  cases range : dtype.intRange with
  | none =>
      rw [range] at scalar
      obtain ⟨bits, rfl⟩ := scalar
      rfl
  | some bounds =>
      rw [range] at scalar
      obtain ⟨number, rfl, _⟩ := scalar
      rfl

/-- The scalars of a nested list of a type are scalars of the type. -/
theorem WireValue.Matches.scalars {dtype : DType} {shape : List Nat} {value : WireValue}
    (suits : value.Matches dtype shape) :
    ∀ leaf ∈ value.leaves shape.length, leaf.IsScalar dtype := by
  induction shape generalizing value with
  | nil =>
      intro leaf member
      rw [List.mem_singleton.mp member]
      exact suits
  | cons length rest ih =>
      obtain ⟨items, rfl, _, inner⟩ := suits
      intro leaf member
      obtain ⟨item, inside, deep⟩ := List.mem_flatMap.mp member
      exact ih (inner item inside) leaf deep

/-- The sample conversion takes the scalars row after row. -/
theorem sampleArray_matches {castBits : DType → DType → Nat → Nat} {dtype : DType} {shape : List Nat}
    {value : WireValue} (listed : shape ≠ []) (flat : shape.length ≤ 2)
    (suits : value.Matches dtype shape) :
    sampleArray castBits dtype value = some (valueElements castBits dtype shape value) := by
  have scalars := suits.scalars
  cases shape with
  | nil => exact absurd rfl listed
  | cons length rest =>
      obtain ⟨items, rfl, size, inner⟩ := suits
      have leaves : items.flatMap WireValue.unnest =
          (WireValue.list items).leaves (rest.length + 1) := by
        apply List.flatMap_congr
        intro item member
        cases rest with
        | nil => exact WireValue.IsScalar.unnest (inner item member)
        | cons columns deeper =>
            cases deeper with
            | nil =>
                obtain ⟨cells, rfl, _, _⟩ := inner item member
                exact (List.flatMap_singleton' cells).symm
            | cons depth more => simp at flat
      have sizes : (((WireValue.list items).leaves (rest.length + 1)).map
          (elementBytes castBits dtype)).all (fun element => element.length = dtype.byteSize) = true := by
        rw [List.all_map, List.all_eq_true]
        intro leaf member
        exact decide_eq_true (elementBytes_length (scalars leaf member))
      simp only [sampleArray, leaves, sizes, if_true, valueElements, List.length_cons]

/-- A sample conversion under which the float of 10 to the 40th is infinite in four bytes. -/
def sampleNarrow (source target : DType) (bits : Nat) : Nat :=
  if bits = 0x483d6329f1c35ca5 then 0x7f800000 else sampleCast source target bits

/-- The sample libraries with an array conversion. -/
def sampleArrays : Externals :=
  { sampleExternals with
    castBits := sampleNarrow
    asarray := sampleArray sampleNarrow
    asarraySize := sampleArray_size }

theorem sampleArrays_converts : sampleArrays.ConvertsLists :=
  fun _ _ _ listed flat suits => sampleArray_matches listed flat suits

theorem sampleArrays_roundTrips : sampleArrays.RoundTrips := sampleExternals_roundTrips

/-- The producer accepts a score of one for the entity `a` at the start of the epoch. -/
theorem sampleArrays_doWrite :
    doWrite sampleArrays samplePydantic sampleSchema "a" [("score", 0x3ff0000000000000)] 0 =
      .ok (sampleEntry 1 0x3ff0000000000000 0).fields :=
  sample_doWrite 1 0x3ff0000000000000 (show strInt 0 = some [48] by decide)

/-- The producer accepts every pattern of a score for every id that is not too long. -/
theorem sampleArrays_accepts {entityId : String} (size : (encodeUtf8 entityId).length ≤ maxEntityIdBytes)
    (bits : UInt64) :
    ∃ fields, doWrite sampleArrays samplePydantic sampleSchema entityId [("score", bits)] 0 =
      .ok fields :=
  ⟨_, sample_doWrite_for size 1 bits (show strInt 0 = some [48] by decide)⟩

theorem fieldOrderFor_pair : fieldOrderFor samplePairHash samplePair = .ok samplePair.fields.reverse := by
  rw [fieldOrderFor, compileSchema_pair]
  exact congrArg Except.ok (by decide)

/-- The values of the pair, in wire order. -/
def samplePairItems : List WireValue := [.list [.int 3, .int 5], .float 0x3ff0000000000000]

/-- The MessagePack bytes of a list of two small numbers and a float. -/
def samplePairPackb : WireValue → Option (List UInt8)
  | .list [.list [.int first, .int second], .float bits] =>
      if (0 ≤ first ∧ first < 128) ∧ 0 ≤ second ∧ second < 128 then
        some (0x92 :: 0x92 :: UInt8.ofNat first.toNat :: UInt8.ofNat second.toNat :: 0xcb ::
          (ByteMemory.leBytes 8 bits.toNat).reverse)
      else none
  | _ => none

def samplePairUnpackb (blob : List UInt8) : Option WireValue :=
  match blob with
  | 0x92 :: 0x92 :: first :: second :: 0xcb :: digits =>
      if digits.length = 8 then
        some (.list [.list [.int first.toNat, .int second.toNat],
          .float (UInt64.ofNat (ByteMemory.leNat digits.reverse))])
      else none
  | _ => none

/-- The sample libraries on the messages of the pair. -/
def samplePairs : Externals :=
  { sampleArrays with
    hashName := samplePairHash
    packb := samplePairPackb
    unpackb := samplePairUnpackb }

theorem samplePairs_converts : samplePairs.ConvertsLists := sampleArrays_converts

theorem samplePairs_roundTrips : samplePairs.RoundTrips := by
  intro value blob _ packed
  change samplePairPackb value = some blob at packed
  unfold samplePairPackb at packed
  split at packed
  · rename_i first second bits _
    split at packed
    · rename_i small
      obtain ⟨⟨firstLow, firstHigh⟩, secondLow, secondHigh⟩ := small
      obtain rfl := Option.some.inj packed
      have back : ByteMemory.leNat (ByteMemory.leBytes 8 bits.toNat) = bits.toNat :=
        ByteMemory.leNat_leBytes 8 bits.toNat bits.toNat_lt
      have firstBack : (first.toNat % 256 : Nat) = first.toNat := Nat.mod_eq_of_lt (by omega)
      have secondBack : (second.toNat % 256 : Nat) = second.toNat := Nat.mod_eq_of_lt (by omega)
      rw [show samplePairs.unpackb = samplePairUnpackb from rfl]
      simp [samplePairUnpackb, back, firstBack, secondBack, Int.toNat_of_nonneg firstLow,
        Int.toNat_of_nonneg secondLow]
    · cases packed
  · cases packed

/-- The coercions on objects that have their types already. -/
def samplePairPydantic : Pydantic WireValue where
  toFloat
    | .float bits => some bits
    | _ => none
  toInt
    | .int number => some number
    | _ => none
  toList
    | .list items => some items
    | _ => none

def samplePairValues : List (String × WireValue) :=
  [("score", .float 0x3ff0000000000000), ("tags", .list [.int 3, .int 5])]

def samplePairFields : MessageFields where
  schema := some (encodeUtf8 "Pair")
  entityId := some (encodeUtf8 "a")
  eventTime := some [48]
  blob := samplePairPackb (.list samplePairItems)

/-- The producer accepts the values of the pair. -/
theorem samplePairs_doWrite :
    doWrite samplePairs samplePairPydantic samplePair "a" samplePairValues 0 = .ok samplePairFields := by
  have printed : strInt 0 = some [48] := by decide
  have validated : validateFields samplePairPydantic samplePairValues samplePair.fields.reverse =
      .ok samplePairItems := by rfl
  have order : fieldOrderFor samplePairs.hashName samplePair = .ok samplePair.fields.reverse :=
    fieldOrderFor_pair
  simp only [doWrite, order, bind, Except.bind, validated]
  rfl

/-- The values of the pair keep their width. -/
theorem samplePairs_representable :
    RepresentableValues samplePairs samplePairPydantic samplePair samplePairValues := by
  intro field member object value looked valid leaf inside overflow
  rcases List.mem_pair.mp member with rfl | rfl
  · obtain rfl := Option.some.inj looked
    obtain rfl := Option.some.inj valid
    rw [List.mem_singleton.mp inside, overflows_float] at overflow
    exact absurd overflow.2.1 (by decide)
  · obtain ⟨_, _, integer, _⟩ := overflow
    cases integer

end Quorin
