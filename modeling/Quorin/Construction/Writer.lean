import Quorin.Construction.History
import Mathlib.Logic.Relation

namespace Quorin

open ByteMemory Relation

/-- The single writer with its current call, the calls it has begun and the calls that returned. -/
structure WriterState where
  memory : Memory
  current : Option (InsertRequest × SegmentProgram Bool)
  begun : List InsertRequest
  returned : List InsertRequest

/-- The writer of a fresh segment has begun no call. -/
def WriterState.start (layout : SegmentLayout) (header : List UInt8) : WriterState :=
  ⟨freshSegment layout header, none, [], []⟩

/-- One step of the writer is a begin, one atomic access, an end, or a crash of its current call. -/
inductive WriterStep (hashId : List UInt8 → UInt64) (layout : SegmentLayout) :
    WriterState → WriterState → Prop
  | begin {state : WriterState} (request : InsertRequest) (idle : state.current = none) :
      WriterStep hashId layout state
        { state with
          current := some (request, insert hashId layout request.entityId request.rowData)
          begun := request :: state.begun }
  | read {state : WriterState} {request : InsertRequest} {address count : Nat}
      {next : List UInt8 → SegmentProgram Bool}
      (active : state.current = some (request, .read address count next)) :
      WriterStep hashId layout state
        { state with current := some (request, next (state.memory.read address count)) }
  | write {state : WriterState} {request : InsertRequest} {address : Nat} {bytes : List UInt8}
      {next : SegmentProgram Bool}
      (active : state.current = some (request, .write address bytes next)) :
      WriterStep hashId layout state
        { state with
          memory := state.memory.write address bytes
          current := some (request, next) }
  | finish {state : WriterState} {request : InsertRequest} {value : Bool}
      (active : state.current = some (request, .done value)) :
      WriterStep hashId layout state
        { state with
          current := none
          returned := request :: state.returned }
  | raise {state : WriterState} {request : InsertRequest} {error : SegmentError}
      (active : state.current = some (request, .fail error)) :
      WriterStep hashId layout state { state with current := none }
  | crash {state : WriterState} {call : InsertRequest × SegmentProgram Bool}
      (active : state.current = some call) :
      WriterStep hashId layout state { state with current := none }

/-- The writer states that a fresh segment can reach. -/
def WriterReachable (hashId : List UInt8 → UInt64) (layout : SegmentLayout) (header : List UInt8)
    (state : WriterState) : Prop :=
  ReflTransGen (WriterStep hashId layout) (.start layout header) state

end Quorin
