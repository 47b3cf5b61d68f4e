import Mathlib.Data.List.Basic
import Mathlib.Logic.Relation
import Quorin.Construction.BufferPool
import Quorin.Proof.Segment.LayoutSound

namespace Quorin

open Relation

/-- The buffer that the thread of a checkout works on. -/
def CheckoutPoint.buffer : CheckoutPoint → Option BufferRef
  | .created => none
  | .missed => none
  | .outside => none
  | .taken buffer => some buffer
  | .found buffer => some buffer
  | .cleared buffer => some buffer
  | .filling buffer _ => some buffer
  | .filled buffer => some buffer
  | .fits buffer => some buffer

/-- The thread is behind the assignment that clears `_buf`. -/
def CheckoutPoint.Returning : CheckoutPoint → Prop
  | .cleared _ => True
  | .filling _ _ => True
  | .filled _ => True
  | .fits _ => True
  | _ => False

/-- The cells that the fill of a buffer is through with are zero. -/
def CheckoutPoint.Clean (contents : BufferRef → List UInt32) : CheckoutPoint → Prop
  | .taken buffer => ∀ cell ∈ contents buffer, cell = 0
  | .filling buffer index => ∀ cell ∈ (contents buffer).take index, cell = 0
  | .filled buffer => ∀ cell ∈ contents buffer, cell = 0
  | .fits buffer => ∀ cell ∈ contents buffer, cell = 0
  | _ => True

/-- A checkout holds its buffer from the pop on, up to the append. -/
def Checkout.Holds (checkout : Checkout) (buffer : BufferRef) : Prop :=
  checkout.buf = some buffer ∨ checkout.point.buffer = some buffer

section Owned

variable {Id : Type} [DecidableEq Id] {pool : BufferPool} {state : PoolState Id}

section GoTo

variable (state : PoolState Id) (id : Id) (point : CheckoutPoint)

@[simp] theorem PoolState.goTo_buffers : (state.goTo id point).buffers = state.buffers := rfl

@[simp] theorem PoolState.goTo_contents : (state.goTo id point).contents = state.contents := rfl

@[simp] theorem PoolState.goTo_self : (state.goTo id point).checkouts id =
    { state.checkouts id with point := point } :=
  Function.update_self _ _ _

theorem PoolState.goTo_of_ne {other : Id} (different : other ≠ id) :
    (state.goTo id point).checkouts other = state.checkouts other :=
  Function.update_of_ne different _ _

end GoTo

/-- A buffer was allocated with the cells of the pool. -/
structure PoolState.Known (pool : BufferPool) (state : PoolState Id) (buffer : BufferRef) : Prop where
  allocated : buffer.allocation < state.allocations
  size : (state.contents buffer).length = pool.cells

/-- Every buffer has one place, in the deque or in one checkout, and the returned ones are clean. -/
structure PoolState.Owned (pool : BufferPool) (state : PoolState Id) : Prop where
  distinct : state.buffers.Nodup
  pooled : ∀ buffer ∈ state.buffers, state.Known pool buffer
  held : ∀ id buffer, (state.checkouts id).Holds buffer →
    state.Known pool buffer ∧ buffer ∉ state.buffers
  single : ∀ id other buffer, (state.checkouts id).Holds buffer →
    (state.checkouts other).Holds buffer → id = other
  returning : ∀ id, (state.checkouts id).point.Returning → (state.checkouts id).buf = none
  clean : pool.zeroOnReturn = true →
    (∀ buffer ∈ state.buffers, ∀ cell ∈ state.contents buffer, cell = 0) ∧
      ∀ id, (state.checkouts id).point.Clean state.contents

theorem CheckoutPoint.Clean.congr {point : CheckoutPoint} {contents other : BufferRef → List UInt32}
    (clean : point.Clean contents)
    (same : ∀ buffer, point.buffer = some buffer → other buffer = contents buffer) :
    point.Clean other := by
  cases point with
  | created => trivial
  | missed => trivial
  | outside => trivial
  | found buffer => trivial
  | cleared buffer => trivial
  | taken buffer => rwa [CheckoutPoint.Clean, same buffer rfl]
  | filling buffer index => rwa [CheckoutPoint.Clean, same buffer rfl]
  | filled buffer => rwa [CheckoutPoint.Clean, same buffer rfl]
  | fits buffer => rwa [CheckoutPoint.Clean, same buffer rfl]

/-- A step of one checkout on the buffers it holds keeps every buffer in its place. -/
theorem PoolState.Owned.move (owned : state.Owned pool) (id : Id) {checkout : Checkout}
    {contents : BufferRef → List UInt32}
    (holds : ∀ buffer, checkout.Holds buffer → (state.checkouts id).Holds buffer)
    (size : ∀ buffer, (contents buffer).length = (state.contents buffer).length)
    (same : ∀ buffer, ¬ (state.checkouts id).Holds buffer →
      contents buffer = state.contents buffer)
    (returning : checkout.point.Returning → checkout.buf = none)
    (clean : pool.zeroOnReturn = true → checkout.point.Clean contents) :
    PoolState.Owned pool { state with
      contents := contents
      checkouts := Function.update state.checkouts id checkout } := by
  have known {buffer : BufferRef} (known : state.Known pool buffer) :
      PoolState.Known pool { state with
        contents := contents
        checkouts := Function.update state.checkouts id checkout } buffer :=
    ⟨known.allocated, (size buffer).trans known.size⟩
  have before (other : Id) (buffer : BufferRef)
      (holding : (Function.update state.checkouts id checkout other).Holds buffer) :
      (state.checkouts other).Holds buffer := by
    by_cases here : other = id
    · subst here
      rw [Function.update_self] at holding
      exact holds buffer holding
    · rwa [Function.update_of_ne here] at holding
  refine
    { distinct := owned.distinct
      pooled := fun buffer member => known (owned.pooled buffer member)
      held := ?_
      single := ?_
      returning := ?_
      clean := ?_ }
  · intro other buffer holding
    obtain ⟨allocated, absent⟩ := owned.held other buffer (before other buffer holding)
    exact ⟨known allocated, absent⟩
  · intro first second buffer one two
    exact owned.single first second buffer (before first buffer one) (before second buffer two)
  · intro other
    dsimp only
    by_cases here : other = id
    · subst here
      rw [Function.update_self]
      exact returning
    · rw [Function.update_of_ne here]
      exact owned.returning other
  · intro zeroes
    obtain ⟨pooled, points⟩ := owned.clean zeroes
    constructor
    · intro buffer member
      dsimp only
      rw [same buffer fun holding => (owned.held id buffer holding).2 member]
      exact pooled buffer member
    · intro other
      dsimp only
      by_cases here : other = id
      · subst here
        rw [Function.update_self]
        exact clean zeroes
      · rw [Function.update_of_ne here]
        apply (points other).congr
        intro buffer holding
        apply same
        exact fun own => here (owned.single other id buffer (Or.inr holding) own)

/-- A move of the point alone. -/
theorem PoolState.Owned.goTo (owned : state.Owned pool) (id : Id) {point : CheckoutPoint}
    (holds : ∀ buffer, point.buffer = some buffer → (state.checkouts id).Holds buffer)
    (returning : point.Returning → (state.checkouts id).buf = none)
    (clean : pool.zeroOnReturn = true → point.Clean state.contents) :
    (state.goTo id point).Owned pool := by
  apply owned.move id _ (fun _ => rfl) (fun _ _ => rfl) returning clean
  intro buffer holding
  rcases holding with kept | working
  · exact Or.inl kept
  · exact holds buffer working

/-- A buffer that nobody holds goes from the deque or from the allocator to a checkout. -/
theorem PoolState.Owned.take (owned : state.Owned pool) (id : Id) {buffer : BufferRef}
    {buffers : List BufferRef} (sub : buffers.Sublist state.buffers) (absent : buffer ∉ buffers)
    (free : ∀ other, ¬ (state.checkouts other).Holds buffer) (known : state.Known pool buffer)
    (zero : pool.zeroOnReturn = true → ∀ cell ∈ state.contents buffer, cell = 0) :
    ({ state with buffers := buffers }.goTo id (.taken buffer)).Owned pool := by
  have before (other : Id) (ref : BufferRef)
      (holding : (Function.update state.checkouts id
        { state.checkouts id with point := .taken buffer } other).Holds ref) :
      (state.checkouts other).Holds ref ∨ (other = id ∧ ref = buffer) := by
    by_cases here : other = id
    · subst here
      rw [Function.update_self] at holding
      rcases holding with kept | working
      · exact Or.inl (Or.inl kept)
      · exact Or.inr ⟨rfl, (Option.some.inj working).symm⟩
    · rw [Function.update_of_ne here] at holding
      exact Or.inl holding
  refine
    { distinct := owned.distinct.sublist sub
      pooled := fun ref member => ⟨(owned.pooled ref (sub.subset member)).allocated,
        (owned.pooled ref (sub.subset member)).size⟩
      held := ?_
      single := ?_
      returning := ?_
      clean := ?_ }
  · intro other ref holding
    rcases before other ref holding with kept | ⟨_, rfl⟩
    · obtain ⟨known, outside⟩ := owned.held other ref kept
      exact ⟨⟨known.allocated, known.size⟩, fun member => outside (sub.subset member)⟩
    · exact ⟨⟨known.allocated, known.size⟩, absent⟩
  · intro first second ref one two
    rcases before first ref one with kept | ⟨rfl, rfl⟩
    · rcases before second ref two with also | ⟨rfl, rfl⟩
      · exact owned.single first second ref kept also
      · exact absurd kept (free first)
    · rcases before second ref two with also | ⟨rfl, _⟩
      · exact absurd also (free second)
      · rfl
  · intro other returning
    by_cases here : other = id
    · subst here
      rw [PoolState.goTo_self] at returning
      exact absurd returning id
    · rw [PoolState.goTo_of_ne _ _ _ here] at returning ⊢
      exact owned.returning other returning
  · intro zeroes
    obtain ⟨pooled, points⟩ := owned.clean zeroes
    constructor
    · exact fun ref member => pooled ref (sub.subset member)
    · intro other
      by_cases here : other = id
      · subst here
        rw [PoolState.goTo_self]
        exact zero zeroes
      · rw [PoolState.goTo_of_ne _ _ _ here]
        exact points other

theorem PoolState.Owned.enter (owned : state.Owned pool) (id : Id) :
    (state.enter id).Owned pool := by
  unfold PoolState.enter
  cases shape : state.buffers with
  | nil => exact owned.goTo id nofun nofun fun _ => trivial
  | cons buffer rest =>
      have member : buffer ∈ state.buffers := by simp [shape]
      have distinct := owned.distinct
      rw [shape, List.nodup_cons] at distinct
      apply owned.take id _ distinct.1 _ (owned.pooled buffer member)
      · exact fun zeroes => (owned.clean zeroes).1 buffer member
      · rw [shape]
        exact List.sublist_cons_self _ _
      · exact fun other holding => (owned.held other buffer holding).2 member

/-- A fresh allocation is a buffer that nobody has. -/
theorem PoolState.Owned.allocate (owned : state.Owned pool) (id : Id) :
    (state.allocate pool id).Owned pool := by
  let fresh : BufferRef := ⟨state.allocations, 0⟩
  let grown : PoolState Id := { state with
    contents := Function.update state.contents fresh pool.zeros
    allocations := state.allocations + 1 }
  have other {buffer : BufferRef} (known : state.Known pool buffer) : buffer ≠ fresh := by
    rintro rfl
    exact absurd known.allocated (Nat.lt_irrefl _)
  have known {buffer : BufferRef} (known : state.Known pool buffer) :
      grown.Known pool buffer ∧ grown.contents buffer = state.contents buffer := by
    have same : grown.contents buffer = state.contents buffer :=
      Function.update_of_ne (other known) _ _
    exact ⟨⟨Nat.lt_succ_of_lt known.allocated, by rw [same]; exact known.size⟩, same⟩
  have stays : grown.Owned pool :=
    { distinct := owned.distinct
      pooled := fun buffer member => (known (owned.pooled buffer member)).1
      held := fun id buffer holding =>
        ⟨(known (owned.held id buffer holding).1).1, (owned.held id buffer holding).2⟩
      single := owned.single
      returning := owned.returning
      clean := by
        intro zeroes
        obtain ⟨pooled, points⟩ := owned.clean zeroes
        constructor
        · intro buffer member
          rw [(known (owned.pooled buffer member)).2]
          exact pooled buffer member
        · intro id
          apply (points id).congr
          intro buffer holding
          exact (known (owned.held id buffer (Or.inr holding)).1).2 }
  have zero : grown.contents fresh = pool.zeros := Function.update_self _ _ _
  apply stays.take id (List.Sublist.refl _)
  · exact fun member => other (owned.pooled fresh member) rfl
  · exact fun id holding => other (owned.held id fresh holding).1 rfl
  · exact ⟨Nat.lt_succ_self _, by rw [zero]; exact List.length_replicate⟩
  · intro _ cell member
    rw [zero] at member
    exact List.eq_of_mem_replicate member

/-- The append moves a buffer from its checkout to the deque. -/
theorem PoolState.Owned.append (owned : state.Owned pool) (id : Id) {buffer : BufferRef}
    (point : (state.checkouts id).point = .fits buffer) :
    ({ state with buffers := state.buffers ++ [buffer] }.goTo id .outside).Owned pool := by
  have holding : (state.checkouts id).Holds buffer := Or.inr (by rw [point]; rfl)
  obtain ⟨known, absent⟩ := owned.held id buffer holding
  have gone := owned.returning id (by rw [point]; trivial)
  have before (other : Id) (ref : BufferRef)
      (holding : (Function.update state.checkouts id
        { state.checkouts id with point := .outside } other).Holds ref) :
      (state.checkouts other).Holds ref ∧ other ≠ id := by
    by_cases here : other = id
    · subst here
      rw [Function.update_self] at holding
      rcases holding with kept | working
      · rw [gone] at kept
        cases kept
      · cases working
    · rw [Function.update_of_ne here] at holding
      exact ⟨holding, here⟩
  refine
    { distinct := ?_
      pooled := ?_
      held := ?_
      single := ?_
      returning := ?_
      clean := ?_ }
  · exact List.nodup_append.mpr ⟨owned.distinct, List.nodup_singleton _, by
      rintro first member _ last rfl
      rw [List.mem_singleton] at last
      exact absent (last ▸ member)⟩
  · intro ref member
    rcases List.mem_append.mp member with old | new
    · exact ⟨(owned.pooled ref old).allocated, (owned.pooled ref old).size⟩
    · rw [List.mem_singleton.mp new]
      exact ⟨known.allocated, known.size⟩
  · intro other ref holds
    obtain ⟨kept, different⟩ := before other ref holds
    obtain ⟨known, outside⟩ := owned.held other ref kept
    refine ⟨⟨known.allocated, known.size⟩, ?_⟩
    intro member
    rcases List.mem_append.mp member with old | new
    · exact outside old
    · rw [List.mem_singleton.mp new] at kept
      exact different (owned.single other id buffer kept holding)
  · intro first second ref one two
    exact owned.single first second ref (before first ref one).1 (before second ref two).1
  · intro other returning
    by_cases here : other = id
    · subst here
      rw [PoolState.goTo_self] at returning
      exact absurd returning id
    · rw [PoolState.goTo_of_ne _ _ _ here] at returning ⊢
      exact owned.returning other returning
  · intro zeroes
    obtain ⟨pooled, points⟩ := owned.clean zeroes
    constructor
    · intro ref member
      rcases List.mem_append.mp member with old | new
      · exact pooled ref old
      · have zero := points id
        rw [point] at zero
        rw [List.mem_singleton.mp new]
        exact zero
    · intro other
      by_cases here : other = id
      · subst here
        rw [PoolState.goTo_self]
        trivial
      · rw [PoolState.goTo_of_ne _ _ _ here]
        exact points other

/-- The next cell of a fill. -/
theorem set_take_zero {cells : List UInt32} {index : Nat} (inside : index < cells.length)
    (zero : ∀ cell ∈ cells.take index, cell = 0) :
    ∀ cell ∈ (cells.set index 0).take (index + 1), cell = 0 := by
  intro cell member
  rw [List.take_succ_eq_append_getElem (by rw [List.length_set]; exact inside),
    List.take_set_of_le le_rfl, List.getElem_set_self] at member
  rcases List.mem_append.mp member with before | last
  · exact zero cell before
  · exact List.mem_singleton.mp last

theorem overwrite_length {contents : BufferRef → List UInt32} {buffer : BufferRef}
    {data : List UInt32} (size : data.length = (contents buffer).length) (ref : BufferRef) :
    (Function.update contents buffer data ref).length = (contents ref).length := by
  by_cases here : ref = buffer
  · subst here
    rw [Function.update_self, size]
  · rw [Function.update_of_ne here]

theorem PoolState.Owned.fill (owned : state.Owned pool) (id : Id) {buffer : BufferRef} {index : Nat}
    (point : (state.checkouts id).point = .filling buffer index)
    (inside : index < (state.contents buffer).length) :
    ({ state with
      contents := Function.update state.contents buffer
        ((state.contents buffer).set index 0) }.goTo id (.filling buffer (index + 1))).Owned pool := by
  have holding : (state.checkouts id).Holds buffer := Or.inr (by rw [point]; rfl)
  apply owned.move id
  · intro ref holds
    rcases holds with kept | working
    · exact Or.inl kept
    · obtain rfl := Option.some.inj working
      exact holding
  · exact overwrite_length List.length_set
  · intro ref free
    apply Function.update_of_ne
    rintro rfl
    exact free holding
  · exact fun _ => owned.returning id (by rw [point]; trivial)
  · intro zeroes
    have clean := (owned.clean zeroes).2 id
    rw [point] at clean
    dsimp only
    rw [CheckoutPoint.Clean, Function.update_self]
    exact set_take_zero inside clean

theorem PoolState.Owned.advance (owned : state.Owned pool) (id : Id) :
    (state.advance pool id).Owned pool := by
  have holding {buffer : BufferRef} (working : (state.checkouts id).point.buffer = some buffer)
      (ref : BufferRef) (same : some buffer = some ref) : (state.checkouts id).Holds ref :=
    Or.inr (working.trans same)
  unfold PoolState.advance
  cases point : (state.checkouts id).point with
  | created => exact owned
  | outside => exact owned
  | missed => exact owned.allocate id
  | taken buffer =>
      refine owned.move id ?_ (fun _ => rfl) (fun _ _ => rfl) nofun fun _ => trivial
      intro ref holds
      rcases holds with same | nothing
      · exact holding (by rw [point]; rfl) ref same
      · cases nothing
  | found buffer =>
      refine owned.move id ?_ (fun _ => rfl) (fun _ _ => rfl) (fun _ => rfl) fun _ => trivial
      intro ref holds
      rcases holds with nothing | same
      · cases nothing
      · exact holding (by rw [point]; rfl) ref same
  | cleared buffer =>
      have gone := owned.returning id (by rw [point]; trivial)
      cases zeroes : pool.zeroOnReturn with
      | true =>
          refine owned.goTo id (holding (by rw [point]; rfl)) (fun _ => gone) ?_
          intro _ cell member
          rw [List.take_zero] at member
          cases member
      | false =>
          refine owned.goTo id (holding (by rw [point]; rfl)) (fun _ => gone) ?_
          intro zero
          rw [zeroes] at zero
          cases zero
  | filling buffer index =>
      dsimp only
      split
      · rename_i inside
        exact owned.fill id point inside
      · rename_i done
        refine owned.goTo id (holding (by rw [point]; rfl))
          (fun _ => owned.returning id (by rw [point]; trivial)) ?_
        intro zeroes
        have clean := (owned.clean zeroes).2 id
        rwa [point, CheckoutPoint.Clean, List.take_of_length_le (Nat.le_of_not_lt done)] at clean
  | filled buffer =>
      dsimp only
      split
      · refine owned.goTo id (holding (by rw [point]; rfl))
          (fun _ => owned.returning id (by rw [point]; trivial)) ?_
        intro zeroes
        have clean := (owned.clean zeroes).2 id
        rwa [point] at clean
      · exact owned.goTo id nofun nofun fun _ => trivial
  | fits buffer => exact owned.append id point

/-- The client writes only cells that its own checkout holds. -/
theorem PoolState.Owned.write (owned : state.Owned pool) (id : Id) {buffer : BufferRef}
    {data : List UInt32} (point : (state.checkouts id).point = .outside)
    (held : (state.checkouts id).buf = some buffer)
    (size : data.length = (state.contents buffer).length) : (state.write buffer data).Owned pool := by
  have same : state.write buffer data = { state with
      contents := Function.update state.contents buffer data
      checkouts := Function.update state.checkouts id (state.checkouts id) } := by
    rw [Function.update_eq_self]
    rfl
  rw [same]
  apply owned.move id
  · exact fun _ holds => holds
  · exact overwrite_length size
  · intro ref free
    apply Function.update_of_ne
    rintro rfl
    exact free (Or.inl held)
  · exact owned.returning id
  · intro _
    rw [point]
    trivial

/-- Every step of every thread keeps each buffer in one place. -/
theorem PoolStep.owned {after : PoolState Id} (step : PoolStep pool state after)
    (owned : state.Owned pool) : after.Owned pool := by
  cases step with
  | enter id point => exact owned.enter id
  | exit id point =>
      unfold PoolState.exit
      cases attr : (state.checkouts id).buf with
      | none => exact owned
      | some buffer =>
          refine owned.goTo id ?_ nofun fun _ => trivial
          rintro ref same
          exact Or.inl (attr.trans same)
  | advance id => exact owned.advance id
  | write id buffer data point held size => exact owned.write id point held size
  | interrupt id point => exact owned.goTo id nofun nofun fun _ => trivial

/-- A pool that its constructor has just returned. -/
def Constructed (pool : BufferPool) (state : PoolState Id) : Prop :=
  (∃ schema maxSize zeroOnReturn,
    BufferPool.init schema maxSize zeroOnReturn = .ok (pool, state)) ∨
  ∃ schema batchSize maxSize zeroOnReturn,
    BatchBufferPool.init schema batchSize maxSize zeroOnReturn = .ok (pool, state)

omit [DecidableEq Id] in
theorem BufferPool.prefilled_owned {buffers : List BufferRef} {allocations : Nat}
    (distinct : buffers.Nodup) (allocated : ∀ buffer ∈ buffers, buffer.allocation < allocations) :
    (pool.prefilled buffers allocations : PoolState Id).Owned pool := by
  have zero (buffer : BufferRef) (member : buffer ∈ buffers) :
      (pool.prefilled buffers allocations : PoolState Id).contents buffer = pool.zeros :=
    if_pos member
  refine
    { distinct := distinct
      pooled := ?_
      held := ?_
      single := ?_
      returning := nofun
      clean := ?_ }
  · intro buffer member
    exact ⟨allocated buffer member, by rw [zero buffer member]; exact List.length_replicate⟩
  · rintro id buffer (none | none) <;> cases none
  · rintro id other buffer (none | none) <;> cases none
  · intro _
    constructor
    · intro buffer member cell inside
      rw [zero buffer member] at inside
      exact List.eq_of_mem_replicate inside
    · exact fun id => trivial

omit [DecidableEq Id] in
theorem Constructed.owned (constructed : Constructed pool state) : state.Owned pool := by
  rcases constructed with ⟨schema, maxSize, zeroes, init⟩ | ⟨schema, batch, maxSize, zeroes, init⟩
  · unfold BufferPool.init at init
    split at init
    · cases init
    · cases init
      apply BufferPool.prefilled_owned
      · apply List.Nodup.map _ List.nodup_range
        exact fun first second same => congrArg BufferRef.allocation same
      · intro buffer member
        obtain ⟨index, inside, rfl⟩ := List.mem_map.mp member
        exact List.mem_range.mp inside
  · unfold BatchBufferPool.init at init
    split at init
    · cases init
    split at init
    · cases init
    · cases init
      apply BufferPool.prefilled_owned
      · apply List.Nodup.map _ List.nodup_range
        exact fun first second same => congrArg BufferRef.slice same
      · intro buffer member
        obtain ⟨index, inside, rfl⟩ := List.mem_map.mp member
        exact Nat.one_pos

theorem reached_owned {start : PoolState Id} (constructed : Constructed pool start)
    (run : ReflTransGen (PoolStep pool) start state) : state.Owned pool := by
  induction run with
  | refl => exact constructed.owned
  | tail _ step ih => exact step.owned ih

/-- No buffer has two holders, none is pooled and held or pooled twice, and with `zero_on_return`
every buffer that is handed out is zero. -/
theorem pool_exclusive (pool : BufferPool) (start state : PoolState Id)
    (constructed : Constructed pool start) (run : ReflTransGen (PoolStep pool) start state) :
    (∀ id other buffer, (state.checkouts id).Holds buffer →
      (state.checkouts other).Holds buffer → id = other) ∧
    (∀ id buffer, (state.checkouts id).Holds buffer → buffer ∉ state.buffers) ∧
    state.buffers.Nodup ∧
    (pool.zeroOnReturn = true → ∀ id buffer, (state.checkouts id).point = .taken buffer →
      (state.advance pool id).contents buffer = pool.zeros) := by
  have owned := reached_owned constructed run
  refine ⟨owned.single, fun id buffer holding => (owned.held id buffer holding).2,
    owned.distinct, ?_⟩
  intro zeroes id buffer point
  have clean := (owned.clean zeroes).2 id
  have size := (owned.held id buffer (Or.inr (by rw [point]; rfl))).1.size
  rw [point] at clean
  unfold PoolState.advance
  rw [point]
  exact List.eq_replicate_iff.mpr ⟨size, clean⟩

/-- A sequence of steps inside methods. -/
def PoolState.advances (pool : BufferPool) (state : PoolState Id) (ids : List Id) : PoolState Id :=
  ids.foldl (fun state id => state.advance pool id) state

theorem advances_reached (ids : List Id) (state : PoolState Id) :
    ReflTransGen (PoolStep pool) state (state.advances pool ids) := by
  induction ids generalizing state with
  | nil => exact .refl
  | cons id rest ih => exact (ih (state.advance pool id)).head (.advance id)

end Owned

/-- A pool for the sample schema with room for one buffer. -/
def samplePool : BufferPool := ⟨1, 1, true⟩

/-- The threads that use the sample pool. -/
def firstThread : Fin 3 := 0

def secondThread : Fin 3 := 1

def thirdThread : Fin 3 := 2

/-- The sample pool behind its prefill. -/
def samplePoolStart : PoolState (Fin 3) := samplePool.prefilled [⟨0, 0⟩] 1

theorem samplePool_constructed : Constructed samplePool samplePoolStart :=
  Or.inl ⟨sampleSchema, 1, true, rfl⟩

/-- Two threads hold a buffer each: the pooled one, and a fresh one behind the miss. -/
def samplePoolHeld : PoolState (Fin 3) :=
  ((samplePoolStart.enter firstThread).enter secondThread).advances samplePool
    [secondThread, firstThread, secondThread]

theorem samplePoolHeld_reached : ReflTransGen (PoolStep samplePool) samplePoolStart samplePoolHeld :=
  (ReflTransGen.single (.enter firstThread rfl)).tail (.enter secondThread rfl) |>.trans (advances_reached _ _)

/-- The first thread writes to its buffer and returns it, and a third thread takes it. -/
def samplePoolPassed : PoolState (Fin 3) :=
  (((samplePoolHeld.write ⟨0, 0⟩ [7]).exit firstThread).advances samplePool
    (List.replicate 6 firstThread)).enter thirdThread

/-- The buffer that one thread used and returned is zero when another thread gets it. -/
theorem pool_exclusive_sample :
    ReflTransGen (PoolStep samplePool) samplePoolStart samplePoolPassed ∧
    (samplePoolPassed.checkouts secondThread).Holds ⟨1, 0⟩ ∧
    (samplePoolPassed.checkouts thirdThread).Holds ⟨0, 0⟩ ∧
    (⟨1, 0⟩ : BufferRef) ∉ samplePoolPassed.buffers ∧
    (samplePoolPassed.advance samplePool thirdThread).contents ⟨0, 0⟩ = samplePool.zeros := by
  have written := samplePoolHeld_reached.tail (.write firstThread ⟨0, 0⟩ [7] rfl rfl rfl)
  have passed : ReflTransGen (PoolStep samplePool) samplePoolStart samplePoolPassed :=
    ((written.tail (.exit firstThread rfl)).trans (advances_reached _ _)).tail (.enter thirdThread rfl)
  have holding : (samplePoolPassed.checkouts secondThread).Holds ⟨1, 0⟩ := Or.inl rfl
  obtain ⟨_, held, _, zeroes⟩ :=
    pool_exclusive samplePool samplePoolStart samplePoolPassed samplePool_constructed passed
  exact ⟨passed, holding, Or.inr rfl, held secondThread ⟨1, 0⟩ holding,
    zeroes rfl thirdThread ⟨0, 0⟩ rfl⟩

end Quorin
