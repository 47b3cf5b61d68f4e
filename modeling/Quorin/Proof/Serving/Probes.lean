import Quorin.Construction.Assembly
import Quorin.Proof.Segment.Histories

namespace Quorin

open ByteMemory LinearProbe

/-- The byte comparison decides whether the memory holds the given bytes. -/
theorem compareBytes_trace (memory : Memory) (address : Nat) (bytes : List UInt8) :
    (compareBytes address bytes).trace memory =
      (.ok (decide (memory.read address bytes.length = bytes)), []) := by
  induction bytes generalizing address with
  | nil => rfl
  | cons byte rest ih =>
      have split : memory.read address (rest.length + 1) =
          memory address :: memory.read (address + 1) rest.length := by
        simp [Memory.read, List.range_succ_eq_map, Nat.add_comm, Nat.add_left_comm]
      have first : memory.readNat address 1 = (memory address).toNat := by
        simp [Memory.readNat, Memory.read, leNat]
      rw [compareBytes, Program.trace_readNat, first, List.length_cons, split]
      by_cases same : (memory address).toNat = byte.toNat
      · rw [if_pos same, ih]
        have equal : memory address = byte := UInt8.toNat_inj.mp same
        simp [equal]
      · rw [if_neg same]
        have different : memory address ≠ byte := fun equal => same (by rw [equal])
        simp [different]

section Visits

variable {hashId : List UInt8 → UInt64} {layout : SegmentLayout} {memory : Memory}
  {rows cursor : Nat} (invariant : SegmentInvariant hashId layout memory rows cursor)
  {index : Nat} (inside : index < layout.slotCapacity)

include invariant inside in
/-- A slot with another hash holds another key. -/
theorem slotHash_differs {key : List UInt8} (occupied : slotFlags layout memory index = flagOccupied)
    (other : slotHash layout memory index ≠ (hashId key).toNat) :
    entryBytes layout memory (slotIdOffset layout memory index) ≠ key := by
  intro same
  apply other
  rw [(invariant.slot index inside occupied).hash, same]
  rfl

/-- The comparison of the kernels with a key of the same length classifies an occupied slot. -/
theorem compareEntry_trace {key : List UInt8}
    (occupied : slotFlags layout memory index = flagOccupied) :
    (if entryLength layout memory (slotIdOffset layout memory index) = key.length then do
        if ← compareBytes (layout.entryAddress (slotIdOffset layout memory index) + lenPrefixBytes)
            key then
          return SlotProbe.hit
        else return SlotProbe.miss
      else return SlotProbe.miss : SegmentProgram SlotProbe).trace memory =
      (.ok (classify (slotKey layout memory index) key), []) := by
  rw [slotKey_of_occupied occupied]
  by_cases sameLength : entryLength layout memory (slotIdOffset layout memory index) = key.length
  · rw [if_pos sameLength, Program.trace_bind_reads (compareBytes_trace memory _ key)]
    have bytes : memory.read (layout.entryAddress (slotIdOffset layout memory index) +
        lenPrefixBytes) key.length = entryBytes layout memory (slotIdOffset layout memory index) := by
      rw [entryBytes, sameLength]
    rw [bytes, classify]
    by_cases same : entryBytes layout memory (slotIdOffset layout memory index) = key
    · simp [same]
    · simp [same]
  · have different : entryBytes layout memory (slotIdOffset layout memory index) ≠ key := by
      intro same
      apply sameLength
      rw [← same, entryBytes, Memory.read_length]
    rw [if_neg sameLength, classify]
    simp [different]

include invariant inside in
/-- A visit of `_lookup_core` classifies the slot by its key. -/
theorem probeSlotCore_trace (key : List UInt8) :
    (probeSlotCore layout (hashId key) key index).trace memory =
      (.ok (classify (slotKey layout memory index) key), []) := by
  unfold probeSlotCore
  rw [Program.trace_readNat, show memory.readNat (layout.slotField index slotFlagsOffset) 4 =
    slotFlags layout memory index from rfl]
  rcases invariant.flags index inside with vacant | occupied
  · rw [if_pos vacant, (invariant.slotKey_eq_none inside).mpr vacant]
    rfl
  · have nonempty : ¬ slotFlags layout memory index = flagEmpty := by
      rw [occupied]
      decide
    rw [if_neg nonempty, Program.trace_readNat,
      show memory.readNat (layout.slotField index slotNameHashOffset) 8 =
        slotHash layout memory index from rfl]
    by_cases sameHash : slotHash layout memory index = (hashId key).toNat
    · have short : ¬ memory.readNat (layout.entryAddress (slotIdOffset layout memory index))
          lenPrefixBytes > layout.maxIdBytes :=
        Nat.not_lt.mpr (invariant.slot index inside occupied).length
      rw [if_pos ⟨occupied, sameHash⟩, Program.trace_readNat, Program.trace_readNat]
      rw [show memory.readNat (layout.slotField index slotIdOffsetOffset) 8 =
        slotIdOffset layout memory index from rfl, if_neg short]
      exact compareEntry_trace occupied
    · rw [if_neg fun both => sameHash both.2, slotKey_of_occupied occupied]
      simp [classify, slotHash_differs invariant inside occupied sameHash]

include invariant inside in
/-- A visit of the batch kernels classifies the slot by its key. -/
theorem probeSlotBatch_trace {key : List UInt8} {query : PaddedId}
    (length : query.length = key.length) (bytes : query.bytes.take query.length = key) :
    (probeSlotBatch layout (hashId key) query index).trace memory =
      (.ok (classify (slotKey layout memory index) key), []) := by
  unfold probeSlotBatch
  rw [Program.trace_readNat, show memory.readNat (layout.slotField index slotFlagsOffset) 4 =
    slotFlags layout memory index from rfl]
  rcases invariant.flags index inside with vacant | occupied
  · rw [if_pos vacant, (invariant.slotKey_eq_none inside).mpr vacant]
    rfl
  · have nonempty : ¬ slotFlags layout memory index = flagEmpty := by
      rw [occupied]
      decide
    rw [if_neg nonempty, Program.trace_readNat,
      show memory.readNat (layout.slotField index slotNameHashOffset) 8 =
        slotHash layout memory index from rfl]
    by_cases sameHash : slotHash layout memory index = (hashId key).toNat
    · rw [if_pos ⟨occupied, sameHash⟩, Program.trace_readNat, Program.trace_readNat, bytes, length]
      exact compareEntry_trace occupied
    · rw [if_neg fun both => sameHash both.2, slotKey_of_occupied occupied]
      simp [classify, slotHash_differs invariant inside occupied sameHash]

end Visits

/-- The ASCII bytes of a text are its UTF-8 bytes. -/
theorem encodeBatchId_eq (entityId : String) : encodeBatchId entityId = encodeUtf8 entityId := by
  unfold encodeBatchId encodeAscii
  split
  · rename_i ascii
    rw [List.all_eq_true] at ascii
    have characters : ∀ characters : List Char,
        (∀ character ∈ characters, character.toNat < 128) →
        characters.flatMap String.utf8EncodeChar =
          characters.map fun character => UInt8.ofNat character.toNat := by
      intro characters small
      induction characters with
      | nil => rfl
      | cons character rest ih =>
          have bound := small character List.mem_cons_self
          have single : String.utf8EncodeChar character = [UInt8.ofNat character.toNat] :=
            if_pos (Nat.le_of_lt_succ bound)
          rw [List.flatMap_cons, List.map_cons, single,
            ih fun other later => small other (List.mem_cons_of_mem _ later)]
          rfl
    rw [Option.getD_some, encodeUtf8, ← String.utf8Encode_toList, List.utf8Encode,
      List.data_toByteArray, List.toList_toArray]
    exact (characters _ fun character member => of_decide_eq_true (ascii character member)).symm
  · rfl

end Quorin
