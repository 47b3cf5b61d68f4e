import Quorin.Library.MemoryProgram

namespace ByteMemory.Program

variable {ε α β : Type} {allowed : Nat → Nat → Prop}

/-- Every write of the program, whatever its reads return, has an allowed address and length. -/
def WritesOnly (allowed : Nat → Nat → Prop) : Program ε α → Prop
  | .done _ => True
  | .fail _ => True
  | .read _ _ next => ∀ bytes, (next bytes).WritesOnly allowed
  | .write address bytes next => allowed address bytes.length ∧ next.WritesOnly allowed

theorem WritesOnly.bind {program : Program ε α} {continuation : α → Program ε β}
    (holds : program.WritesOnly allowed) (rest : ∀ value, (continuation value).WritesOnly allowed) :
    (program >>= continuation).WritesOnly allowed := by
  induction program with
  | done value => exact rest value
  | fail error => trivial
  | read address count next ih => exact fun bytes => ih bytes (holds bytes)
  | write address bytes next ih => exact ⟨holds.1, ih holds.2⟩

theorem WritesOnly.readNat {address width : Nat} {continuation : Nat → Program ε β}
    (rest : ∀ value, (continuation value).WritesOnly allowed) :
    (Program.readNat address width >>= continuation).WritesOnly allowed :=
  fun bytes => rest (leNat bytes)

theorem WritesOnly.writeBytes {address : Nat} {bytes : List UInt8}
    {continuation : Unit → Program ε β} (inside : allowed address bytes.length)
    (rest : (continuation ()).WritesOnly allowed) :
    (Program.writeBytes address bytes >>= continuation).WritesOnly allowed :=
  ⟨inside, rest⟩

/-- The writes of a run are allowed writes. -/
theorem WritesOnly.writes {program : Program ε α} (holds : program.WritesOnly allowed)
    (memory : Memory) : ∀ entry ∈ program.writes memory, allowed entry.address entry.bytes.length := by
  induction program generalizing memory with
  | done value => exact fun entry member => absurd member List.not_mem_nil
  | fail error => exact fun entry member => absurd member List.not_mem_nil
  | read address count next ih => exact ih _ (holds _) memory
  | write address bytes next ih =>
      intro entry member
      rcases List.mem_cons.mp member with rfl | later
      · exact holds.1
      · exact ih holds.2 _ entry later

/-- A range that no allowed write meets is the same after any of the writes of a run. -/
theorem WritesOnly.read_cut {program : Program ε α} (holds : program.WritesOnly allowed)
    {start count : Nat}
    (apart : ∀ address length, allowed address length →
      start + count ≤ address ∨ address + length ≤ start)
    (memory : Memory) (cut : Nat) :
    (memory.applyAll ((program.writes memory).take cut)).read start count =
      memory.read start count := by
  apply Memory.read_applyAll_disjoint
  intro entry member
  exact apart _ _ (holds.writes memory entry (List.mem_of_mem_take member))

end ByteMemory.Program
