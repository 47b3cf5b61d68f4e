import Quorin.Library.ByteMemory
import Mathlib.Logic.Relation

namespace ByteMemory

/-- A program is a finite tree of atomic reads and atomic writes. -/
inductive Program (ε α : Type) where
  | done (value : α)
  | fail (error : ε)
  | read (address count : Nat) (next : List UInt8 → Program ε α)
  | write (address : Nat) (bytes : List UInt8) (next : Program ε α)

namespace Program

variable {ε α β σ : Type}

protected def bind : Program ε α → (α → Program ε β) → Program ε β
  | .done value, continuation => continuation value
  | .fail error, _ => .fail error
  | .read address count next, continuation =>
      .read address count fun bytes => (next bytes).bind continuation
  | .write address bytes next, continuation => .write address bytes (next.bind continuation)

instance : Monad (Program ε) where
  pure := .done
  bind := Program.bind

@[simp] theorem pure_eq (value : α) : (pure value : Program ε α) = .done value := rfl

@[simp] theorem done_bind (value : α) (continuation : α → Program ε β) :
    ((.done value : Program ε α) >>= continuation) = continuation value := rfl

@[simp] theorem fail_bind (error : ε) (continuation : α → Program ε β) :
    ((.fail error : Program ε α) >>= continuation) = .fail error := rfl

@[simp] theorem read_bind (address count : Nat) (next : List UInt8 → Program ε α)
    (continuation : α → Program ε β) :
    ((.read address count next : Program ε α) >>= continuation) =
      .read address count fun bytes => next bytes >>= continuation := rfl

@[simp] theorem write_bind (address : Nat) (bytes : List UInt8) (next : Program ε α)
    (continuation : α → Program ε β) :
    ((.write address bytes next : Program ε α) >>= continuation) =
      .write address bytes (next >>= continuation) := rfl

/-- This program reads one byte range. -/
def readBytes (address count : Nat) : Program ε (List UInt8) :=
  .read address count .done

/-- This program reads one little-endian field. -/
def readNat (address width : Nat) : Program ε Nat :=
  .read address width fun bytes => .done (leNat bytes)

/-- This program performs one atomic write. -/
def writeBytes (address : Nat) (bytes : List UInt8) : Program ε Unit :=
  .write address bytes (.done ())

/-- The trace is the result of a program together with its writes in order. -/
def trace : Program ε α → Memory → Except ε α × List Write
  | .done value, _ => (.ok value, [])
  | .fail error, _ => (.error error, [])
  | .read address count next, memory => (next (memory.read address count)).trace memory
  | .write address bytes next, memory =>
      let rest := next.trace (memory.write address bytes)
      (rest.1, ⟨address, bytes⟩ :: rest.2)

def result (program : Program ε α) (memory : Memory) : Except ε α := (program.trace memory).1

def writes (program : Program ε α) (memory : Memory) : List Write := (program.trace memory).2

/-- A complete run returns the result and the memory after every write. -/
def run (program : Program ε α) (memory : Memory) : Except ε α × Memory :=
  (program.result memory, memory.applyAll (program.writes memory))

@[simp] theorem trace_done (value : α) (memory : Memory) :
    (.done value : Program ε α).trace memory = (.ok value, []) := rfl

@[simp] theorem trace_fail (error : ε) (memory : Memory) :
    (.fail error : Program ε α).trace memory = (.error error, []) := rfl

@[simp] theorem trace_read (address count : Nat) (next : List UInt8 → Program ε α)
    (memory : Memory) :
    (.read address count next : Program ε α).trace memory =
      (next (memory.read address count)).trace memory := rfl

@[simp] theorem trace_write (address : Nat) (bytes : List UInt8) (next : Program ε α)
    (memory : Memory) :
    (.write address bytes next : Program ε α).trace memory =
      ((next.trace (memory.write address bytes)).1,
        ⟨address, bytes⟩ :: (next.trace (memory.write address bytes)).2) := rfl

@[simp] theorem trace_readNat (address width : Nat) (continuation : Nat → Program ε β)
    (memory : Memory) :
    (readNat address width >>= continuation).trace memory =
      (continuation (memory.readNat address width)).trace memory := rfl

@[simp] theorem trace_readBytes (address count : Nat) (continuation : List UInt8 → Program ε β)
    (memory : Memory) :
    (readBytes address count >>= continuation).trace memory =
      (continuation (memory.read address count)).trace memory := rfl

@[simp] theorem trace_writeBytes (address : Nat) (bytes : List UInt8)
    (continuation : Unit → Program ε β) (memory : Memory) :
    (writeBytes address bytes >>= continuation).trace memory =
      (((continuation ()).trace (memory.write address bytes)).1,
        ⟨address, bytes⟩ :: ((continuation ()).trace (memory.write address bytes)).2) := rfl

/-- A first part that returns lets the second part continue on the changed memory. -/
theorem trace_bind_ok {program : Program ε α} {memory : Memory} {value : α} {first : List Write}
    (returned : program.trace memory = (.ok value, first)) (continuation : α → Program ε β) :
    (program >>= continuation).trace memory =
      (((continuation value).trace (memory.applyAll first)).1,
        first ++ ((continuation value).trace (memory.applyAll first)).2) := by
  induction program generalizing memory first with
  | done other =>
      obtain ⟨same, none⟩ := Prod.mk.inj returned
      obtain rfl := Except.ok.inj same
      obtain rfl := none
      rfl
  | fail error => cases (Prod.mk.inj returned).1
  | read address count next ih => exact ih _ returned
  | write address bytes next ih =>
      obtain ⟨same, rest⟩ := Prod.mk.inj returned
      have shape : next.trace (memory.write address bytes) =
          (.ok value, (next.trace (memory.write address bytes)).2) := Prod.ext same rfl
      rw [write_bind, trace_write, ih shape]
      obtain rfl := rest
      rfl

/-- A first part that only reads leaves the memory to the second part. -/
theorem trace_bind_reads {program : Program ε α} {memory : Memory} {value : α}
    (returned : program.trace memory = (.ok value, [])) (continuation : α → Program ε β) :
    (program >>= continuation).trace memory = (continuation value).trace memory := by
  rw [trace_bind_ok returned]
  rfl

/-- A first part that raises ends the program. -/
theorem trace_bind_error {program : Program ε α} {memory : Memory} {error : ε}
    {first : List Write} (raised : program.trace memory = (.error error, first))
    (continuation : α → Program ε β) :
    (program >>= continuation).trace memory = (.error error, first) := by
  induction program generalizing memory first with
  | done value => cases (Prod.mk.inj raised).1
  | fail other =>
      obtain ⟨same, none⟩ := Prod.mk.inj raised
      obtain rfl := Except.error.inj same
      obtain rfl := none
      rfl
  | read address count next ih => exact ih _ raised
  | write address bytes next ih =>
      obtain ⟨same, rest⟩ := Prod.mk.inj raised
      have shape : next.trace (memory.write address bytes) =
          (.error error, (next.trace (memory.write address bytes)).2) := Prod.ext same rfl
      rw [write_bind, trace_write, ih shape]
      obtain rfl := rest
      rfl

/-- The program ends after at most `bound` reads, whatever the reads return, and never writes. -/
def ReadsAtMost : Program ε α → Nat → Prop
  | .done _, _ => True
  | .fail _, _ => True
  | .read _ _ next, bound => ∃ rest, bound = rest + 1 ∧ ∀ bytes, (next bytes).ReadsAtMost rest
  | .write _ _ _, _ => False

theorem ReadsAtMost.mono {program : Program ε α} {bound larger : Nat}
    (holds : program.ReadsAtMost bound) (le : bound ≤ larger) : program.ReadsAtMost larger := by
  induction program generalizing bound larger with
  | done value => trivial
  | fail error => trivial
  | read address count next ih =>
      obtain ⟨rest, rfl, each⟩ := holds
      exact ⟨larger - 1, by omega, fun bytes => ih bytes (each bytes) (by omega)⟩
  | write address bytes next ih => exact holds

/-- The bounds of two parts add up. -/
theorem ReadsAtMost.bind {program : Program ε α} {continuation : α → Program ε β}
    {first second : Nat} (holds : program.ReadsAtMost first)
    (rest : ∀ value, (continuation value).ReadsAtMost second) :
    (program >>= continuation).ReadsAtMost (first + second) := by
  induction program generalizing first with
  | done value => exact (rest value).mono (Nat.le_add_left _ _)
  | fail error => trivial
  | read address count next ih =>
      obtain ⟨remaining, rfl, each⟩ := holds
      exact ⟨remaining + second, by omega, fun bytes => ih bytes (each bytes)⟩
  | write address bytes next ih => exact holds

theorem ReadsAtMost.bind_last {program : Program ε α} {continuation : α → Program ε β}
    {bound : Nat} (holds : program.ReadsAtMost bound)
    (rest : ∀ value, (continuation value).ReadsAtMost 0) :
    (program >>= continuation).ReadsAtMost bound :=
  holds.bind rest

theorem ReadsAtMost.readNat {address width bound : Nat} {continuation : Nat → Program ε β}
    (rest : ∀ value, (continuation value).ReadsAtMost bound) :
    (Program.readNat address width >>= continuation).ReadsAtMost (bound + 1) :=
  ⟨bound, rfl, fun bytes => rest (leNat bytes)⟩

section Interference

open Relation

variable (interfere : σ → σ → Prop) (view : σ → Memory)

/-- One step is a step of the environment or the next read of the reader. -/
inductive InterleavedStep : σ × Program ε α → σ × Program ε α → Prop
  | environment {state next : σ} {reader : Program ε α} (moved : interfere state next) :
      InterleavedStep (state, reader) (next, reader)
  | reader {state : σ} {address count : Nat} {next : List UInt8 → Program ε α} :
      InterleavedStep (state, .read address count next)
        (state, next ((view state).read address count))

/-- This condition states that every interleaved execution of a reader meets its postcondition. -/
def Guarantees (post : σ → Except ε α → Prop) : Program ε α → σ → Prop
  | .done value, state => ∀ later, ReflTransGen interfere state later → post later (.ok value)
  | .fail error, state => ∀ later, ReflTransGen interfere state later → post later (.error error)
  | .read address count next, state => ∀ later, ReflTransGen interfere state later →
      (next ((view later).read address count)).Guarantees post later
  | .write _ _ _, _ => False

variable {interfere view}

/-- The condition is stable under the environment. -/
theorem Guarantees.moved {post : σ → Except ε α → Prop} {reader : Program ε α} {state next : σ}
    (holds : reader.Guarantees interfere view post state)
    (path : ReflTransGen interfere state next) :
    reader.Guarantees interfere view post next := by
  cases reader with
  | done value => exact fun later rest => holds later (path.trans rest)
  | fail error => exact fun later rest => holds later (path.trans rest)
  | read address count continuation => exact fun later rest => holds later (path.trans rest)
  | write address bytes continuation => exact holds

/-- The condition is kept by every interleaved run. -/
theorem Guarantees.run {post : σ → Except ε α → Prop} {reader : Program ε α} {state : σ}
    {final : σ × Program ε α} (holds : reader.Guarantees interfere view post state)
    (path : ReflTransGen (InterleavedStep interfere view) (state, reader) final) :
    final.2.Guarantees interfere view post final.1 := by
  induction path with
  | refl => exact holds
  | tail _ last ih =>
      cases last with
      | environment moved => exact ih.moved (.single moved)
      | reader => exact ih _ .refl

/-- An interleaved run moves the environment along a run of its own. -/
theorem InterleavedStep.environment_path {first last : σ × Program ε α}
    (path : ReflTransGen (InterleavedStep interfere view) first last) :
    ReflTransGen interfere first.1 last.1 := by
  induction path with
  | refl => exact .refl
  | tail _ step ih =>
      cases step with
      | environment moved => exact ih.tail moved
      | reader => exact ih

/-- A reader has returned or raised as its postcondition states, or it is about to read. -/
theorem Guarantees.outcome {post : σ → Except ε α → Prop} {reader rest : Program ε α}
    {state final : σ} (holds : reader.Guarantees interfere view post state)
    (path : ReflTransGen (InterleavedStep interfere view) (state, reader) (final, rest)) :
    (∃ value, rest = .done value ∧ post final (.ok value)) ∨
      (∃ error, rest = .fail error ∧ post final (.error error)) ∨
      ∃ address count next, rest = .read address count next := by
  have reached := holds.run path
  cases rest with
  | done value => exact Or.inl ⟨value, rfl, reached final .refl⟩
  | fail error => exact Or.inr (Or.inl ⟨error, rfl, reached final .refl⟩)
  | read address count next => exact Or.inr (Or.inr ⟨address, count, next, rfl⟩)
  | write address bytes next => exact reached.elim

/-- The condition follows from a stronger postcondition. -/
theorem Guarantees.weaken {strong weak : σ → Except ε α → Prop} {reader : Program ε α} {state : σ}
    (holds : reader.Guarantees interfere view strong state)
    (implied : ∀ later outcome, strong later outcome → weak later outcome) :
    reader.Guarantees interfere view weak state := by
  induction reader generalizing state with
  | done value => exact fun later path => implied later _ (holds later path)
  | fail error => exact fun later path => implied later _ (holds later path)
  | read address count next ih => exact fun later path => ih _ (holds later path)
  | write address bytes next ih => exact holds

/-- The sequential rule composes two conditions through a middle one. -/
theorem Guarantees.bind {mid : σ → Except ε α → Prop} {post : σ → Except ε β → Prop}
    {reader : Program ε α} {continuation : α → Program ε β} {state : σ}
    (first : reader.Guarantees interfere view mid state)
    (second : ∀ later value, mid later (.ok value) →
      (continuation value).Guarantees interfere view post later)
    (raised : ∀ later error, mid later (.error error) → post later (.error error)) :
    (reader >>= continuation).Guarantees interfere view post state := by
  induction reader generalizing state with
  | done value => exact second state value (first state .refl)
  | fail error => exact fun later path => raised later error (first later path)
  | read address count next ih => exact fun later path => ih _ (first later path)
  | write address bytes next ih => exact first.elim

/-- The condition for one field read is the condition for its continuation. -/
theorem Guarantees.readNat {post : σ → Except ε β → Prop} {address width : Nat}
    {continuation : Nat → Program ε β} {state : σ}
    (next : ∀ later, ReflTransGen interfere state later →
      (continuation ((view later).readNat address width)).Guarantees interfere view post later) :
    (Program.readNat address width >>= continuation).Guarantees interfere view post state :=
  next

theorem Guarantees.pure {post : σ → Except ε α → Prop} {value : α} {state : σ}
    (holds : ∀ later, ReflTransGen interfere state later → post later (.ok value)) :
    (Pure.pure value : Program ε α).Guarantees interfere view post state :=
  holds

theorem Guarantees.readAll {post : σ → Except ε (List UInt8) → Prop} {address count : Nat} {state : σ}
    (holds : ∀ later, ReflTransGen interfere state later →
      ∀ final, ReflTransGen interfere later final →
        post final (.ok ((view later).read address count))) :
    (Program.readBytes address count : Program ε (List UInt8)).Guarantees interfere view post state :=
  holds

-- The rules above are the interface; an unfolding would evaluate the branches of the program.
attribute [irreducible] Guarantees

end Interference

end Program

end ByteMemory
