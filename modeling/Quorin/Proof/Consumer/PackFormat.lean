import Quorin.Construction.PackFormat
import Quorin.Proof.Consumer.EncodedValues

namespace Quorin

section Walk

/-- The slots follow one another from a position on, and a scalar slot has the size of its type. -/
structure SlotsFollow (slots : List PackSlot) (cursor : Nat) : Prop where
  start : ∀ slot ∈ slots, cursor ≤ slot.byteOffset
  ordered : slots.Pairwise fun first second =>
    first.byteOffset + first.byteCount ≤ second.byteOffset
  scalarSize : ∀ slot ∈ slots, slot.isTrueScalar = true → slot.byteCount = slot.dtype.byteSize

theorem SlotsFollow.rest {slot : PackSlot} {slots : List PackSlot} {cursor : Nat}
    (follow : SlotsFollow (slot :: slots) cursor) :
    SlotsFollow slots (slot.byteOffset + slot.byteCount) := by
  obtain ⟨first, others⟩ := List.pairwise_cons.mp follow.ordered
  constructor
  · exact first
  · exact others
  · intro other member
    exact follow.scalarSize other (List.mem_cons_of_mem _ member)

/-- The position behind the gap is the offset of the slot. -/
theorem SlotsFollow.gap {slot : PackSlot} {slots : List PackSlot} {cursor : Nat}
    (follow : SlotsFollow (slot :: slots) cursor) :
    (if slot.byteOffset > cursor then slot.byteOffset else cursor) = slot.byteOffset := by
  have start := follow.start slot List.mem_cons_self
  split <;> omega

/-- The codes of the walk for a slot and the slots behind it. -/
theorem emitFormat_cons {slot : PackSlot} {slots : List PackSlot} {cursor : Nat}
    (follow : SlotsFollow (slot :: slots) cursor) :
    (emitFormat (slot :: slots) cursor).codes =
      (if slot.byteOffset > cursor then [FormatCode.pad (slot.byteOffset - cursor)] else []) ++
        (if slot.isTrueScalar then FormatCode.scalar slot.dtype
          else FormatCode.pad slot.byteCount) ::
          (emitFormat slots (slot.byteOffset + slot.byteCount)).codes := by
  have size := follow.scalarSize slot List.mem_cons_self
  rw [emitFormat]
  dsimp only
  rw [follow.gap]
  by_cases scalar : slot.isTrueScalar = true
  · rw [if_pos scalar, if_pos scalar, ← size scalar]
  · rw [if_neg scalar, if_neg scalar]

theorem emitFormat_indices (slots : List PackSlot) (cursor : Nat) :
    (emitFormat slots cursor).scalarIndices =
      (slots.filter PackSlot.isTrueScalar).map PackSlot.valueIndex := by
  induction slots generalizing cursor with
  | nil => rfl
  | cons slot rest ih =>
      unfold emitFormat
      by_cases scalar : slot.isTrueScalar = true
      · simp [scalar, ih]
      · simp [scalar, ih]

theorem emitFormat_shaped (slots : List PackSlot) (cursor : Nat) :
    (emitFormat slots cursor).shapedSlots = slots.filter fun slot => !slot.isTrueScalar := by
  induction slots generalizing cursor with
  | nil => rfl
  | cons slot rest ih =>
      unfold emitFormat
      by_cases scalar : slot.isTrueScalar = true
      · simp [scalar, ih]
      · simp [scalar, ih]

theorem argumentCount_append (first second : List FormatCode) :
    argumentCount (first ++ second) = argumentCount first + argumentCount second := by
  simp [argumentCount]

/-- The format takes one argument for each scalar. -/
theorem emitFormat_arguments (slots : List PackSlot) (cursor : Nat) :
    argumentCount (emitFormat slots cursor).codes = (emitFormat slots cursor).scalarIndices.length := by
  induction slots generalizing cursor with
  | nil => rfl
  | cons slot rest ih =>
      have pads : argumentCount (if slot.byteOffset > cursor
          then [FormatCode.pad (slot.byteOffset - cursor)] else []) = 0 := by
        split <;> rfl
      unfold emitFormat
      dsimp only
      generalize (if slot.byteOffset > cursor then slot.byteOffset else cursor) = position
      by_cases scalar : slot.isTrueScalar = true
      · rw [if_pos scalar, argumentCount_append, pads, Nat.zero_add, List.length_cons, ← ih]
        rfl
      · rw [if_neg scalar, argumentCount_append, pads, Nat.zero_add, ← ih]
        rfl

/-- The size of the codes of a slot leads from the cursor to the end of the slot. -/
theorem emitFormat_size {slot : PackSlot} {slots : List PackSlot} {cursor : Nat}
    (follow : SlotsFollow (slot :: slots) cursor) :
    cursor + ((emitFormat (slot :: slots) cursor).codes.map FormatCode.size).sum =
      slot.byteOffset + slot.byteCount +
        ((emitFormat slots (slot.byteOffset + slot.byteCount)).codes.map FormatCode.size).sum := by
  have start := follow.start slot List.mem_cons_self
  have own : FormatCode.size (if slot.isTrueScalar then FormatCode.scalar slot.dtype
      else FormatCode.pad slot.byteCount) = slot.byteCount := by
    split
    · next scalar => exact (follow.scalarSize slot List.mem_cons_self scalar).symm
    · rfl
  have pads : ((if slot.byteOffset > cursor then [FormatCode.pad (slot.byteOffset - cursor)]
      else []).map FormatCode.size).sum = slot.byteOffset - cursor := by
    split
    · rfl
    · simp only [List.map_nil, List.sum_nil]
      omega
  rw [emitFormat_cons follow, List.map_append, List.sum_append, List.map_cons, List.sum_cons, own,
    pads]
  omega

/-- The format ends where its last slot ends. -/
theorem emitFormat_end {slots : List PackSlot} {cursor : Nat} (follow : SlotsFollow slots cursor) :
    (∀ slot ∈ slots, slot.byteOffset + slot.byteCount ≤
        cursor + ((emitFormat slots cursor).codes.map FormatCode.size).sum) ∧
      (slots ≠ [] → ∃ slot ∈ slots, slot.byteOffset + slot.byteCount =
        cursor + ((emitFormat slots cursor).codes.map FormatCode.size).sum) := by
  induction slots generalizing cursor with
  | nil => exact ⟨fun slot member => absurd member List.not_mem_nil, fun filled => absurd rfl filled⟩
  | cons slot rest ih =>
      obtain ⟨below, reached⟩ := ih follow.rest
      rw [emitFormat_size follow]
      constructor
      · intro other member
        rcases List.mem_cons.mp member with rfl | later
        · omega
        · exact below other later
      · intro _
        by_cases last : rest = []
        · subst last
          exact ⟨slot, List.mem_cons_self, rfl⟩
        · obtain ⟨other, member, equal⟩ := reached last
          exact ⟨other, List.mem_cons_of_mem _ member, equal⟩

/-- The size of the format is the largest end of a slot. -/
theorem emitFormat_structSize {slots : List PackSlot} (follow : SlotsFollow slots 0) :
    ((emitFormat slots 0).codes.map FormatCode.size).sum =
      (slots.map fun slot => slot.byteOffset + slot.byteCount).max?.getD 0 := by
  obtain ⟨below, reached⟩ := emitFormat_end follow
  by_cases empty : slots = []
  · subst empty
    rfl
  · obtain ⟨slot, member, equal⟩ := reached empty
    rw [Nat.zero_add] at equal
    have largest : (slots.map fun slot => slot.byteOffset + slot.byteCount).max? =
        some ((emitFormat slots 0).codes.map FormatCode.size).sum := by
      rw [List.max?_eq_some_iff]
      constructor
      · rw [← equal]
        exact List.mem_map_of_mem member
      · intro other there
        obtain ⟨owner, inside, rfl⟩ := List.mem_map.mp there
        have bound := below owner inside
        omega
    rw [largest, Option.getD_some]

end Walk

section Pack

variable {externals : Externals} {values : List WireValue}

/-- The arguments of the scalars among some slots. -/
def scalarArguments (values : List WireValue) (slots : List PackSlot) : List (Nat × WireValue) :=
  (slots.filter PackSlot.isTrueScalar).map fun slot =>
    (slot.valueIndex, values.getD slot.valueIndex .nil)

theorem packCodes_gap {slot : PackSlot} {slots : List PackSlot} {cursor : Nat}
    (follow : SlotsFollow (slot :: slots) cursor) (codes : List FormatCode)
    (args : List (Nat × WireValue)) (buffer : List UInt8) :
    packCodes externals ((if slot.byteOffset > cursor
        then [FormatCode.pad (slot.byteOffset - cursor)] else []) ++ codes) cursor args buffer =
      packCodes externals codes slot.byteOffset args buffer := by
  have start := follow.start slot List.mem_cons_self
  split
  · rw [List.singleton_append, packCodes, Nat.add_sub_cancel' start]
  · have here : cursor = slot.byteOffset := by omega
    rw [List.nil_append, here]

/-- The codes of the walk pack every scalar at its offset. -/
theorem packCodes_emit {slots : List PackSlot} {cursor : Nat} (follow : SlotsFollow slots cursor)
    (given : ∀ slot ∈ slots, slot.valueIndex < values.length) (buffer : List UInt8) :
    packCodes externals (emitFormat slots cursor).codes cursor (scalarArguments values slots)
        buffer =
      packScalars externals values (slots.filter PackSlot.isTrueScalar) buffer := by
  induction slots generalizing cursor buffer with
  | nil => rfl
  | cons slot rest ih =>
      have later := fun next => ih follow.rest
        (fun other member => given other (List.mem_cons_of_mem _ member)) next
      rw [emitFormat_cons follow, packCodes_gap follow]
      by_cases scalar : slot.isTrueScalar = true
      · have size := follow.scalarSize slot List.mem_cons_self scalar
        have present := given slot List.mem_cons_self
        have argument : values[slot.valueIndex]? = some (values.getD slot.valueIndex .nil) := by
          rw [List.getElem?_eq_getElem present, List.getD_eq_getElem?_getD,
            List.getElem?_eq_getElem present, Option.getD_some]
        rw [if_pos scalar, scalarArguments, List.filter_cons_of_pos scalar, List.map_cons, packCodes,
          packScalars, argument, Option.bind_some]
        cases structPack externals slot.dtype (values.getD slot.valueIndex .nil) with
        | none => rfl
        | some bytes =>
            dsimp only
            rw [← size]
            exact later _
      · rw [if_neg scalar, scalarArguments, List.filter_cons_of_neg scalar, packCodes]
        exact later buffer

/-- One `pack_into` clears the format's bytes and packs every scalar at its offset. -/
theorem packInto_emit {slots : List PackSlot} (follow : SlotsFollow slots 0)
    (given : ∀ slot ∈ slots, slot.valueIndex < values.length) {out : List UInt8} {size : Nat}
    (struct : (slots.map fun slot => slot.byteOffset + slot.byteCount).max?.getD 0 = size)
    (room : size ≤ out.length) :
    packInto externals (emitFormat slots 0).codes
        ((emitFormat slots 0).scalarIndices.map fun index => (index, values.getD index .nil)) out =
      packScalars externals values (slots.filter PackSlot.isTrueScalar)
        (splice out 0 (List.replicate size 0)) := by
  have length : ((emitFormat slots 0).codes.map FormatCode.size).sum = size :=
    (emitFormat_structSize follow).trans struct
  have arguments : ((emitFormat slots 0).scalarIndices.map
      fun index => (index, values.getD index .nil)) = scalarArguments values slots := by
    rw [emitFormat_indices, List.map_map]
    rfl
  have counted := emitFormat_arguments slots 0
  rw [packInto, List.length_map, if_neg (not_not.mpr counted.symm), length, if_neg (by omega), arguments]
  exact packCodes_emit follow given _

end Pack

section Plans

variable {hashName : String → UInt64} {schema : FeatureSchema}

/-- The slots of a plan follow one another. -/
theorem planSlots_follow {table : List OffsetRow}
    (computed : computeRowOffsetTable hashName schema = .ok table) :
    SlotsFollow (planSlots hashName schema table) 0 := by
  have perm := planSlots_perm computed
  have apart : (planSlots hashName schema table).Pairwise PackSlot.Apart :=
    (perm.pairwise_iff fun apart => apart.symm).mpr fieldSlots_apart
  have sorted : (planSlots hashName schema table).Pairwise fun first second =>
      decide (first.byteOffset ≤ second.byteOffset) = true := by
    apply List.pairwise_mergeSort
    · intro first second third before after
      simp only [decide_eq_true_eq] at *
      exact before.trans after
    · intro first second
      simp only [Bool.or_eq_true, decide_eq_true_eq]
      exact Nat.le_total _ _
  constructor
  · exact fun slot _ => Nat.zero_le _
  · apply (apart.and sorted).imp_of_mem
    intro first second inFirst inSecond both
    obtain ⟨⟨entry, index⟩, _, rfl⟩ := List.mem_map.mp (perm.mem_iff.mp inSecond)
    have positive := entry.1.byteCount_pos
    have order := of_decide_eq_true both.2
    rcases both.1 with before | behind
    · exact before
    · simp only [fieldSlot] at *
      omega
  · intro slot member scalar
    obtain ⟨⟨entry, index⟩, _, rfl⟩ := List.mem_map.mp (perm.mem_iff.mp member)
    have shape : entry.1.shape = [] := of_decide_eq_true scalar
    simp [fieldSlot, FeatureField.byteCount, FeatureField.elementCount, shape, elementProduct]

theorem planSlots_index {table : List OffsetRow}
    (computed : computeRowOffsetTable hashName schema = .ok table) :
    ∀ slot ∈ planSlots hashName schema table, slot.valueIndex < table.length := by
  intro slot member
  obtain ⟨⟨entry, index⟩, place, rfl⟩ :=
    List.mem_map.mp ((planSlots_perm computed).mem_iff.mp member)
  rw [computeRowOffsetTable_sorted computed, List.length_map]
  exact (List.getElem?_eq_some_iff.mp (List.mem_zipIdx_iff_getElem?.mp place)).1

variable {externals : Externals}

/-- The pack by one format is the pack of each scalar at its offset. -/
theorem packRowFromFormat_eq {plan : FormatPlan}
    (built : buildFormatPlan externals.hashName schema = .ok plan) :
    ∃ packPlan, buildPlan externals.hashName schema = .ok packPlan ∧
      plan.rowSize = packPlan.rowSize ∧ ∀ value out, packRowFromFormat externals plan value out =
        packRowFromList externals packPlan value out := by
  unfold buildFormatPlan at built
  cases computed : computeRowOffsetTable externals.hashName schema with
  | error error => simp [computed, bind, Except.bind] at built
  | ok table =>
      cases sized : rowSize externals.hashName schema with
      | error error => simp [computed, sized, bind, Except.bind] at built
      | ok rows =>
          have made : ∃ packPlan, buildPlan externals.hashName schema = .ok packPlan := by
            unfold buildPlan
            rw [computed, sized]
            exact ⟨_, rfl⟩
          obtain ⟨packPlan, packBuilt⟩ := made
          obtain ⟨_, struct, _⟩ := buildPlan_fits packBuilt
          obtain ⟨table', rows', computed', sized', rfl⟩ := buildPlan_eq packBuilt
          obtain rfl := Except.ok.inj (computed.symm.trans computed')
          obtain rfl := Except.ok.inj (sized.symm.trans sized')
          simp only [computed, sized, bind, Except.bind, pure, Except.pure, Except.ok.injEq] at built
          rw [← built]
          have follow := planSlots_follow computed
          have indices := planSlots_index computed
          have size := emitFormat_structSize follow
          refine ⟨_, packBuilt, rfl, ?_⟩
          generalize planSlots externals.hashName schema table = slots at *
          intro value out
          unfold packRowFromFormat packRowFromList
          dsimp only
          cases value.items with
          | none => rfl
          | some items =>
              dsimp only
              by_cases count : items.length = table.length
              · by_cases length : out.length = rows
                · have packed := @packInto_emit externals items slots follow (by
                    intro slot member
                    rw [count]
                    exact indices slot member) out _ rfl (by rw [length]; exact struct)
                  have none_iff : (emitFormat slots 0).scalarIndices = [] ↔
                      slots.filter PackSlot.isTrueScalar = [] := by
                    rw [emitFormat_indices, List.map_eq_nil_iff]
                  rw [if_neg (not_not.mpr count), if_neg (not_not.mpr length),
                    if_neg (not_not.mpr count), if_neg (not_not.mpr length), emitFormat_shaped]
                  by_cases absent : slots.filter PackSlot.isTrueScalar = []
                  · rw [if_pos (none_iff.mpr absent), if_pos absent, absent]
                    rfl
                  · rw [if_neg (mt none_iff.mp absent), if_neg absent]
                    dsimp only
                    exact packed ▸ rfl
                · simp [count, length]
              · simp [count]

end Plans

section ByName

variable {externals : Externals} {fields : List (String × WireValue)}

/-- The array of a named value has the elements of the field. -/
structure NamedArray (externals : Externals) (fields : List (String × WireValue))
    (field : FeatureField) (src : List (List UInt8)) : Prop where
  converted : (fields.lookup field.name).bind (externals.asarray field.dtype) = some src
  count : src.length = field.elementCount
  bytes : src.flatten.length = field.byteCount

/-- The loop leaves in every field the bytes of its array, and it changes nothing else. -/
theorem packRowLoop_holds {arrays : FeatureField → List (List UInt8)}
    {entries : List (FeatureField × Nat)} {buffer : List UInt8}
    (named : ∀ entry ∈ entries, NamedArray externals fields entry.1 (arrays entry.1))
    (inside : ∀ entry ∈ entries, entry.2 + entry.1.byteCount ≤ buffer.length)
    (apart : entries.Pairwise fun first second => first.2 + first.1.byteCount ≤ second.2) :
    ∃ after, packRowLoop externals fields
        (entries.map fun entry => (entry.1, placedRow externals.hashName entry)) buffer =
          .ok after ∧
      (∀ entry ∈ entries, slice after entry.2 entry.1.byteCount = (arrays entry.1).flatten) ∧
      ∀ start count, (∀ entry ∈ entries, start + count ≤ entry.2) →
        slice after start count = slice buffer start count := by
  induction entries generalizing buffer with
  | nil => exact ⟨buffer, rfl, fun entry member => absurd member List.not_mem_nil, fun _ _ _ => rfl⟩
  | cons entry rest ih =>
      have own := named entry List.mem_cons_self
      have room := inside entry List.mem_cons_self
      rw [← own.bytes] at room
      obtain ⟨first, others⟩ := List.pairwise_cons.mp apart
      have length := splice_length room
      obtain ⟨after, looped, held, kept⟩ :=
        @ih (splice buffer entry.2 (arrays entry.1).flatten)
          (fun other member => named other (List.mem_cons_of_mem _ member))
          (fun other member => by rw [length]; exact inside other (List.mem_cons_of_mem _ member))
          others
      refine ⟨after, ?_, ?_, ?_⟩
      · have converted : (fields.lookup entry.1.name).bind
            (externals.asarray (placedRow externals.hashName entry).dtype) =
              some (arrays entry.1) := own.converted
        have count : ¬ (arrays entry.1).length ≠
            (placedRow externals.hashName entry).elementCount := not_not.mpr own.count
        rw [List.map_cons, packRowLoop, converted]
        exact (if_neg count).trans looped
      · intro other member
        rcases List.mem_cons.mp member with rfl | later
        · rw [kept _ _ first, ← own.bytes, slice_splice_self room]
        · exact held other later
      · intro start count before
        rw [kept start count fun other member => before other (List.mem_cons_of_mem _ member)]
        exact slice_splice_apart room (Or.inl (before entry List.mem_cons_self))

end ByName

section Agreement

variable {externals : Externals} {schema : FeatureSchema} {assign : String → WireValue}
  {named : List (String × WireValue)}

/-- The keyword arguments of `pack_row` give every declared field its value and nothing else. -/
structure NamedValues (schema : FeatureSchema) (assign : String → WireValue)
    (named : List (String × WireValue)) : Prop where
  given : ∀ field ∈ schema.fields, named.lookup field.name = some (assign field.name)
  declared : ∀ name ∈ named.map Prod.fst, name ∈ schema.fields.map FeatureField.name

theorem NamedValues.keys (values : NamedValues schema assign named) :
    ((schema.fields.map FeatureField.name).filter fun name =>
        !(named.map Prod.fst).contains name) = [] ∧
      ((named.map Prod.fst).filter fun name =>
        !(schema.fields.map FeatureField.name).contains name) = [] := by
  constructor
  · rw [List.filter_eq_nil_iff]
    intro name member
    obtain ⟨field, declared, rfl⟩ := List.mem_map.mp member
    have found : (named.lookup field.name).isSome = true := by
      rw [values.given field declared]
      rfl
    obtain ⟨entry, inside, equal⟩ := List.lookup_isSome_iff.mp found
    have present : field.name ∈ named.map Prod.fst := by
      rw [eq_of_beq equal]
      exact List.mem_map_of_mem inside
    simpa using present
  · rw [List.filter_eq_nil_iff]
    intro name member
    have present := values.declared name member
    simpa using present

/-- A representable value has an array with the bytes that `struct` would write. -/
theorem namedArray_of_encodes
    (same : ∀ dtype value bytes, structPack externals dtype value = some bytes →
      externals.asarray dtype value = some [bytes])
    (values : NamedValues schema assign named) {field : FeatureField} (member : field ∈ schema.fields)
    {elements : List (List UInt8)}
    (encoded : encodeField externals field (assign field.name) = some elements) :
    NamedArray externals named field elements := by
  constructor
  · rw [values.given field member, Option.bind_some]
    unfold encodeField at encoded
    split at encoded
    · obtain ⟨bytes, packed, rfl⟩ := Option.map_eq_some_iff.mp encoded
      exact same _ _ _ packed
    · obtain ⟨array, converted, counted⟩ := Option.bind_eq_some_iff.mp encoded
      split at counted
      · rw [converted, Option.some.inj counted]
      · cases counted
  · exact (encodeField_sized encoded).1
  · exact encodeField_bytes encoded

/-- The row of `pack_row` holds the encoding of every value. -/
theorem packRowValues_holds
    (same : ∀ dtype value bytes, structPack externals dtype value = some bytes →
      externals.asarray dtype value = some [bytes])
    (values : NamedValues schema assign named)
    (representable : ∀ field ∈ schema.fields,
      (encodeField externals field (assign field.name)).isSome = true)
    {rows : Nat} (sized : rowSize externals.hashName schema = .ok rows) :
    ∃ expected, packRowValues externals schema named = .ok expected ∧
      ∀ entry ∈ schema.placed,
        (encodeField externals entry.1 (assign entry.1.name)).map List.flatten =
          some (slice expected entry.2 entry.1.byteCount) := by
  have table : ∃ table, computeRowOffsetTable externals.hashName schema = .ok table := by
    unfold rowSize at sized
    cases computed : computeRowOffsetTable externals.hashName schema with
    | error error => simp [computed, bind, Except.bind] at sized
    | ok table => exact ⟨table, rfl⟩
  obtain ⟨table, computed⟩ := table
  have arrays : ∀ entry ∈ schema.placed, encodeField externals entry.1 (assign entry.1.name) =
      some ((encodeField externals entry.1 (assign entry.1.name)).getD []) := by
    intro entry member
    obtain ⟨elements, encoded⟩ :=
      Option.isSome_iff_exists.mp (representable entry.1 (List.of_mem_zip member).1)
    rw [encoded, Option.getD_some]
  obtain ⟨expected, looped, held, _⟩ := @packRowLoop_holds externals named
    (fun field => (encodeField externals field (assign field.name)).getD []) schema.placed
    (List.replicate rows 0)
    (fun entry member => namedArray_of_encodes same values (List.of_mem_zip member).1
      (arrays entry member))
    (fun entry member => by
      rw [List.length_replicate]
      exact placed_inside computed sized member)
    (placed_apart schema.fields 0)
  obtain ⟨none, extra⟩ := values.keys
  refine ⟨expected, ?_, ?_⟩
  · unfold packRowValues
    dsimp only
    rw [none, extra, if_neg (not_not.mpr rfl), if_neg (not_not.mpr rfl), sized, zip_assembly]
    exact looped
  · intro entry member
    rw [held entry member, arrays entry member]
    rfl

end Agreement

/-- Both packers leave the same bytes in every field, and a failed pack leaves a usable buffer. -/
theorem packers_agree {externals : Externals} {schema : FeatureSchema} {plan : FormatPlan}
    (same : ∀ dtype value bytes, structPack externals dtype value = some bytes →
      externals.asarray dtype value = some [bytes])
    (built : buildFormatPlan externals.hashName schema = .ok plan)
    {assign : String → WireValue} {named : List (String × WireValue)}
    (values : NamedValues schema assign named)
    (representable : ∀ field ∈ schema.fields,
      (encodeField externals field (assign field.name)).isSome = true)
    {out : List UInt8} (size : out.length = plan.rowSize) :
    (∃ row expected,
      packRowFromFormat externals plan (.list ((wireOrder externals.hashName schema).map
          fun field => assign field.name)) out = (.ok (), row) ∧
        packRowValues externals schema named = .ok expected ∧
        ∀ entry ∈ schema.placed,
          slice row entry.2 entry.1.byteCount = slice expected entry.2 entry.1.byteCount) ∧
      ∀ earlier, (packRowFromFormat externals plan earlier out).2.length = plan.rowSize := by
  obtain ⟨packPlan, packBuilt, rows, equal⟩ := packRowFromFormat_eq built
  have sized := (buildPlan_fits packBuilt).1
  rw [rows] at size ⊢
  constructor
  · have items : List.Forall₂ (fun field value =>
        (encodeField externals field value).isSome = true) (wireOrder externals.hashName schema)
        ((wireOrder externals.hashName schema).map fun field => assign field.name) := by
      rw [List.forall₂_map_right_iff, List.forall₂_same]
      exact fun field member => representable field (mem_wireOrder.mp member)
    have succeeds := (packRowFromList_succeeds packBuilt (.list ((wireOrder externals.hashName
      schema).map fun field => assign field.name)) out).mpr ⟨size, _, rfl, items⟩
    obtain ⟨row, packed⟩ : ∃ row, packRowFromList externals packPlan
        (.list ((wireOrder externals.hashName schema).map fun field => assign field.name)) out =
          (.ok (), row) := ⟨_, Prod.ext succeeds rfl⟩
    obtain ⟨_, _, _, listed, holds⟩ := packRowFromList_holds packBuilt packed
    obtain rfl := Option.some.inj listed
    obtain ⟨expected, looped, held⟩ := packRowValues_holds same values representable sized
    refine ⟨row, expected, (equal _ _).trans packed, looped, ?_⟩
    intro entry member
    rw [HoldsValues, ← wirePlaced_fields, List.map_map, List.forall₂_map_right_iff,
      List.forall₂_same] at holds
    have own := holds entry (wirePlaced_perm.mem_iff.mpr member)
    have other := held entry member
    rw [Function.comp_apply] at own
    rw [own] at other
    exact Option.some.inj other
  · intro earlier
    rw [equal, packRowFromList_length packBuilt, size]

/-- The sample libraries with an array of one element for every scalar. -/
def samplePackers : Externals :=
  { samplePairs with
    asarray := fun dtype value =>
      (structPack samplePairs dtype value).elim (sampleArray sampleNarrow dtype value)
        fun bytes => some [bytes]
    asarraySize := by
      intro dtype value elements converted element member
      cases packed : structPack samplePairs dtype value with
      | none =>
          rw [packed] at converted
          exact sampleArray_size dtype value elements converted element member
      | some bytes =>
          rw [packed] at converted
          obtain rfl := Option.some.inj converted
          rw [List.mem_singleton.mp member]
          exact structPack_length packed }

/-- The format has the float, the gap behind it and the place of the list. -/
def samplePairPlan : FormatPlan where
  scalarStruct := some [.scalar .float32, .pad 60, .pad 8]
  scalarIndices := [1]
  shapedSlots := [⟨64, 8, .int32, 2, false, 0⟩]
  expectedLen := 2
  rowSize := 128

theorem samplePackers_plan : buildFormatPlan samplePackers.hashName samplePair = .ok samplePairPlan := by
  have slots : planSlots samplePairHash samplePair [⟨0, 64, .int32, 2, 8⟩, ⟨1, 0, .float32, 1, 4⟩] =
      [⟨0, 4, .float32, 1, true, 1⟩, ⟨64, 8, .int32, 2, false, 0⟩] := by
    unfold planSlots
    dsimp only [List.zipIdx, List.map]
    rw [mergeSort_swapped (by decide)]
    decide
  change buildFormatPlan samplePairHash samplePair = _
  rw [buildFormatPlan, computeRowOffsetTable_pair, rowSize_pair]
  change Except.ok _ = _
  rw [slots]
  rfl

def samplePairAssign (name : String) : WireValue :=
  if name = "score" then .float 0x3ff0000000000000 else .list [.int 3, .int 5]

/-- Both packers write the pair into a row buffer that was full of other bytes. -/
theorem packers_agree_sample :
    ∃ row expected,
      packRowFromFormat samplePackers samplePairPlan
          (.list ((wireOrder samplePackers.hashName samplePair).map
            fun field => samplePairAssign field.name)) (List.replicate 128 0xAA) = (.ok (), row) ∧
        packRowValues samplePackers samplePair [("score", .float 0x3ff0000000000000),
            ("tags", .list [.int 3, .int 5])] = .ok expected ∧
        ∀ entry ∈ samplePair.placed,
          slice row entry.2 entry.1.byteCount = slice expected entry.2 entry.1.byteCount := by
  have named : NamedValues samplePair samplePairAssign
      [("score", .float 0x3ff0000000000000), ("tags", .list [.int 3, .int 5])] := by
    constructor
    · intro field member
      rcases List.mem_pair.mp member with rfl | rfl <;> rfl
    · intro name member
      exact member
  have same : ∀ dtype value bytes, structPack samplePackers dtype value = some bytes →
      samplePackers.asarray dtype value = some [bytes] := by
    intro dtype value bytes packed
    change (structPack samplePairs dtype value).elim _ _ = _
    rw [show structPack samplePairs dtype value = some bytes from packed]
    rfl
  have representable : ∀ field ∈ samplePair.fields,
      (encodeField samplePackers field (samplePairAssign field.name)).isSome = true := by
    intro field member
    rcases List.mem_pair.mp member with rfl | rfl <;> decide
  have size : (List.replicate 128 (0xAA : UInt8)).length = samplePairPlan.rowSize := List.length_replicate
  exact (packers_agree same samplePackers_plan named representable size).1

end Quorin
