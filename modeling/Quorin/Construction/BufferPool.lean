import Mathlib.Logic.Function.Basic
import Quorin.Construction.Schema

namespace Quorin

/-- The identity of a buffer, which is a slice of one allocation. -/
structure BufferRef where
  allocation : Nat
  slice : Nat
  deriving DecidableEq

/-- The attributes of `BufferPool` and `BatchBufferPool` that never change. -/
structure BufferPool where
  /-- The number of float32 cells of one buffer. -/
  cells : Nat
  maxSize : Nat
  zeroOnReturn : Bool

/-- The failures of the constructors of the pools. -/
inductive PoolError where
  | batchSize (batchSize : Int)
  | maxSize (maxSize : Int)
  deriving DecidableEq

/-- The points of a thread in `__enter__` and `__exit__` of a checkout. -/
inductive CheckoutPoint where
  /-- The checkout was not entered. -/
  | created
  /-- The deque was empty. -/
  | missed
  /-- The buffer is known to `__enter__` only. -/
  | taken (buffer : BufferRef)
  /-- No method of the checkout runs. -/
  | outside
  /-- The buffer was read by `__exit__`. -/
  | found (buffer : BufferRef)
  /-- The attribute `_buf` was cleared. -/
  | cleared (buffer : BufferRef)
  | filling (buffer : BufferRef) (index : Nat)
  /-- The length of the deque is read next. -/
  | filled (buffer : BufferRef)
  /-- The length was below the maximum. -/
  | fits (buffer : BufferRef)
  deriving DecidableEq

/-- A checkout object with the point of the thread that uses it. -/
structure Checkout where
  point : CheckoutPoint
  buf : Option BufferRef
  deriving DecidableEq

/-- The deque of a pool, the cells of all buffers, and the checkouts of all threads. -/
structure PoolState (Id : Type) where
  buffers : List BufferRef
  contents : BufferRef → List UInt32
  allocations : Nat
  checkouts : Id → Checkout

section Init

variable {Id : Type}

/-- The cells of a fresh allocation. -/
def BufferPool.zeros (pool : BufferPool) : List UInt32 := List.replicate pool.cells 0

/-- A pool that holds these buffers of so many allocations, and no entered checkout. -/
def BufferPool.prefilled (pool : BufferPool) (buffers : List BufferRef) (allocations : Nat) :
    PoolState Id where
  buffers := buffers
  contents := fun ref => if ref ∈ buffers then pool.zeros else []
  allocations := allocations
  checkouts := fun _ => ⟨.created, none⟩

/-- The constructor of `BufferPool`, which allocates every buffer on its own. -/
def BufferPool.init (schema : FeatureSchema) (maxSize : Int) (zeroOnReturn : Bool) :
    Except PoolError (BufferPool × PoolState Id) :=
  if maxSize < 1 then .error (.maxSize maxSize)
  else
    let pool : BufferPool := ⟨totalElementCount schema, maxSize.toNat, zeroOnReturn⟩
    .ok (pool, pool.prefilled ((List.range pool.maxSize).map fun index => ⟨index, 0⟩) pool.maxSize)

/-- The constructor of `BatchBufferPool`, which slices one slab. -/
def BatchBufferPool.init (schema : FeatureSchema) (batchSize maxSize : Int) (zeroOnReturn : Bool) :
    Except PoolError (BufferPool × PoolState Id) :=
  if batchSize < 1 then .error (.batchSize batchSize)
  else if maxSize < 1 then .error (.maxSize maxSize)
  else
    let pool : BufferPool :=
      ⟨batchSize.toNat * totalElementCount schema, maxSize.toNat, zeroOnReturn⟩
    .ok (pool, pool.prefilled ((List.range pool.maxSize).map fun index => ⟨0, index⟩) 1)

end Init

section Methods

variable {Id : Type} [DecidableEq Id] (pool : BufferPool) (state : PoolState Id) (id : Id)

/-- The thread of a checkout goes on to another point. -/
def PoolState.goTo (point : CheckoutPoint) : PoolState Id :=
  { state with
    checkouts := Function.update state.checkouts id { state.checkouts id with point := point } }

/-- The call of `popleft` in `__enter__`. -/
def PoolState.enter : PoolState Id :=
  match state.buffers with
  | [] => state.goTo id .missed
  | buffer :: rest => { state with buffers := rest }.goTo id (.taken buffer)

/-- The allocation behind a miss. -/
def PoolState.allocate : PoolState Id :=
  { state with
    contents := Function.update state.contents ⟨state.allocations, 0⟩ pool.zeros
    allocations := state.allocations + 1 }.goTo id (.taken ⟨state.allocations, 0⟩)

/-- The read of `_buf` in `__exit__`. -/
def PoolState.exit : PoolState Id :=
  match (state.checkouts id).buf with
  | none => state
  | some buffer => state.goTo id (.found buffer)

/-- The next atomic step of the method that runs. -/
def PoolState.advance : PoolState Id :=
  match (state.checkouts id).point with
  | .created => state
  | .outside => state
  | .missed => state.allocate pool id
  | .taken buffer =>
      { state with checkouts := Function.update state.checkouts id ⟨.outside, some buffer⟩ }
  | .found buffer =>
      { state with checkouts := Function.update state.checkouts id ⟨.cleared buffer, none⟩ }
  | .cleared buffer =>
      state.goTo id (if pool.zeroOnReturn then .filling buffer 0 else .filled buffer)
  | .filling buffer index =>
      if index < (state.contents buffer).length then
        { state with
          contents := Function.update state.contents buffer
            ((state.contents buffer).set index 0) }.goTo id (.filling buffer (index + 1))
      else state.goTo id (.filled buffer)
  | .filled buffer =>
      state.goTo id (if state.buffers.length < pool.maxSize then .fits buffer else .outside)
  | .fits buffer => { state with buffers := state.buffers ++ [buffer] }.goTo id .outside

/-- The client of a checkout overwrites the cells of its buffer. -/
def PoolState.write (buffer : BufferRef) (data : List UInt32) : PoolState Id :=
  { state with contents := Function.update state.contents buffer data }

end Methods

/-- One atomic step of a thread; a method that an exception ends leaves its checkout as it is. -/
inductive PoolStep {Id : Type} [DecidableEq Id] (pool : BufferPool) (state : PoolState Id) :
    PoolState Id → Prop where
  | enter (id : Id) (point : (state.checkouts id).point = .created) :
      PoolStep pool state (state.enter id)
  | exit (id : Id) (point : (state.checkouts id).point = .outside) :
      PoolStep pool state (state.exit id)
  | advance (id : Id) : PoolStep pool state (state.advance pool id)
  | write (id : Id) (buffer : BufferRef) (data : List UInt32)
      (point : (state.checkouts id).point = .outside)
      (held : (state.checkouts id).buf = some buffer)
      (size : data.length = (state.contents buffer).length) :
      PoolStep pool state (state.write buffer data)
  | interrupt (id : Id) (point : (state.checkouts id).point ≠ .created) :
      PoolStep pool state (state.goTo id .outside)

end Quorin
