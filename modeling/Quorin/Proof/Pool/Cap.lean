import Mathlib.Data.Finset.Card
import Mathlib.Data.Fintype.Basic
import Quorin.Proof.Pool.Ownership

namespace Quorin

open Relation

/-- A thread is between a passed length test and its append. -/
def CheckoutPoint.Appends : CheckoutPoint → Prop
  | .fits _ => True
  | _ => False

section Cap

variable {Id : Type} [DecidableEq Id] {pool : BufferPool} {state after : PoolState Id}

/-- These checkouts are about to append their buffers. -/
def PoolState.Pending (state : PoolState Id) (pending : Finset Id) : Prop :=
  ∀ id ∈ pending, (state.checkouts id).point.Appends

/-- The deque has room for one buffer more than all pending appends. -/
def PoolState.Roomy (pool : BufferPool) (state : PoolState Id) : Prop :=
  ∀ pending, state.Pending pending → state.buffers.length + pending.card < pool.maxSize

/-- A step that passes the length test only when the pending appends are counted in. -/
def RoomyStep (pool : BufferPool) (state after : PoolState Id) : Prop :=
  PoolStep pool state after ∧
    ∀ id buffer, (state.checkouts id).point = .filled buffer →
      (after.checkouts id).point = .fits buffer → state.Roomy pool

/-- The deque and the pending appends together stay below the cap. -/
def PoolState.Capped (pool : BufferPool) (state : PoolState Id) : Prop :=
  ∀ pending, state.Pending pending → state.buffers.length + pending.card ≤ pool.maxSize

/-- A checkout that goes on to a point without an append keeps the cap. -/
theorem PoolState.Capped.move (capped : state.Capped pool) (id : Id) {checkout : Checkout}
    (checkouts : after.checkouts = Function.update state.checkouts id checkout)
    (size : after.buffers.length ≤ state.buffers.length) (idle : ¬ checkout.point.Appends) : after.Capped pool := by
  intro pending appends
  have before : state.Pending pending := by
    intro other member
    have point := appends other member
    rw [checkouts] at point
    by_cases here : other = id
    · subst here
      rw [Function.update_self] at point
      exact absurd point idle
    · rwa [Function.update_of_ne here] at point
  have bound := capped pending before
  omega

theorem PoolState.Capped.enter (capped : state.Capped pool) (id : Id) :
    (state.enter id).Capped pool := by
  unfold PoolState.enter
  cases shape : state.buffers with
  | nil => exact capped.move id rfl le_rfl fun idle => idle
  | cons buffer rest =>
      refine capped.move id rfl ?_ fun idle => idle
      rw [PoolState.goTo_buffers, shape]
      exact Nat.le_succ _

/-- A passed length test adds one pending append. -/
theorem PoolState.Capped.pass (roomy : state.Roomy pool) (id : Id) (buffer : BufferRef) :
    (state.goTo id (.fits buffer)).Capped pool := by
  intro pending appends
  have others : state.Pending (pending.erase id) := by
    intro other member
    obtain ⟨here, inside⟩ := Finset.mem_erase.mp member
    have point := appends other inside
    rwa [PoolState.goTo_of_ne _ _ _ here] at point
  have room := roomy (pending.erase id) others
  have fewer := Finset.pred_card_le_card_erase (s := pending) (a := id)
  rw [PoolState.goTo_buffers]
  omega

/-- An append turns one pending append into one pooled buffer. -/
theorem PoolState.Capped.append (capped : state.Capped pool) (id : Id) {buffer : BufferRef}
    (point : (state.checkouts id).point = .fits buffer) :
    ({ state with buffers := state.buffers ++ [buffer] }.goTo id .outside).Capped pool := by
  intro pending appends
  have other (member : id ∈ pending) : False := by
    have point := appends id member
    rw [PoolState.goTo_self] at point
    exact point
  have before : state.Pending (Insert.insert id pending) := by
    intro one member
    rcases Finset.mem_insert.mp member with rfl | inside
    · rw [point]
      trivial
    · have point := appends one inside
      rwa [PoolState.goTo_of_ne _ _ _ (by rintro rfl; exact other inside)] at point
  have bound := capped _ before
  rw [Finset.card_insert_of_notMem other] at bound
  rw [PoolState.goTo_buffers, List.length_append, List.length_singleton]
  omega

theorem PoolState.Capped.advance (capped : state.Capped pool) (id : Id)
    (roomy : ∀ buffer, (state.checkouts id).point = .filled buffer →
      state.buffers.length < pool.maxSize → state.Roomy pool) :
    (state.advance pool id).Capped pool := by
  unfold PoolState.advance
  cases point : (state.checkouts id).point with
  | created => exact capped
  | outside => exact capped
  | missed => exact capped.move id rfl le_rfl fun idle => idle
  | taken buffer => exact capped.move id rfl le_rfl fun idle => idle
  | found buffer => exact capped.move id rfl le_rfl fun idle => idle
  | cleared buffer =>
      refine capped.move id rfl le_rfl ?_
      cases pool.zeroOnReturn <;> exact fun idle => idle
  | filling buffer index =>
      dsimp only
      split <;> exact capped.move id rfl le_rfl fun idle => idle
  | filled buffer =>
      dsimp only
      split
      · rename_i fits
        exact PoolState.Capped.pass (roomy buffer point fits) id buffer
      · exact capped.move id rfl le_rfl fun idle => idle
  | fits buffer => exact capped.append id point

theorem RoomyStep.capped (step : RoomyStep pool state after) (capped : state.Capped pool) :
    after.Capped pool := by
  obtain ⟨step, roomy⟩ := step
  cases step with
  | enter id point => exact capped.enter id
  | exit id point =>
      unfold PoolState.exit
      cases (state.checkouts id).buf with
      | none => exact capped
      | some buffer => exact capped.move id rfl le_rfl fun idle => idle
  | advance id =>
      apply capped.advance id
      intro buffer point fits
      apply roomy id buffer point
      rw [PoolState.advance, point]
      simp only [PoolState.goTo_self, if_pos fits]
  | write id buffer data point held size => exact capped
  | interrupt id point => exact capped.move id rfl le_rfl fun idle => idle

omit [DecidableEq Id] in
theorem BufferPool.prefilled_capped {buffers : List BufferRef} {allocations : Nat}
    (size : buffers.length ≤ pool.maxSize) :
    (pool.prefilled buffers allocations : PoolState Id).Capped pool := by
  intro pending appends
  have none : pending = ∅ := by
    rw [Finset.eq_empty_iff_forall_notMem]
    exact fun id member => appends id member
  rw [none, Finset.card_empty]
  exact size

omit [DecidableEq Id] in
theorem Constructed.capped (constructed : Constructed pool state) : state.Capped pool := by
  rcases constructed with ⟨schema, maxSize, zeroes, init⟩ | ⟨schema, batch, maxSize, zeroes, init⟩
  · unfold BufferPool.init at init
    split at init
    · cases init
    · cases init
      apply BufferPool.prefilled_capped
      rw [List.length_map, List.length_range]
  · unfold BatchBufferPool.init at init
    split at init
    · cases init
    split at init
    · cases init
    · cases init
      apply BufferPool.prefilled_capped
      rw [List.length_map, List.length_range]

/-- All pending appends can happen one after another. -/
theorem pending_append (pending : Finset Id) (state : PoolState Id) (appends : state.Pending pending) :
    ∃ later, ReflTransGen (PoolStep pool) state later ∧
      later.buffers.length = state.buffers.length + pending.card := by
  induction pending using Finset.induction_on generalizing state with
  | empty => exact ⟨state, .refl, rfl⟩
  | insert id rest absent ih =>
      have here := appends id (Finset.mem_insert_self id rest)
      cases point : (state.checkouts id).point with
      | fits buffer =>
          have step : state.advance pool id =
              { state with buffers := state.buffers ++ [buffer] }.goTo id .outside := by
            rw [PoolState.advance, point]
          have others : (state.advance pool id).Pending rest := by
            intro other member
            rw [step, PoolState.goTo_of_ne _ _ _ (by rintro rfl; exact absent member)]
            exact appends other (Finset.mem_insert_of_mem member)
          obtain ⟨later, run, size⟩ := ih _ others
          refine ⟨later, run.head (.advance id), ?_⟩
          rw [size, step, PoolState.goTo_buffers, List.length_append, List.length_singleton,
            Finset.card_insert_of_notMem absent]
          omega
      | _ =>
          rw [point] at here
          exact here.elim

/-- The cap holds exactly while every length test passes with room for all pending appends. -/
theorem pool_capped (pool : BufferPool) (start : PoolState Id) (constructed : Constructed pool start) :
    (∀ state, ReflTransGen (RoomyStep pool) start state → state.buffers.length ≤ pool.maxSize) ∧
    ∀ state id buffer, ReflTransGen (PoolStep pool) start state →
      (state.checkouts id).point = .filled buffer → state.buffers.length < pool.maxSize →
      ¬ state.Roomy pool →
        ∃ later, ReflTransGen (PoolStep pool) start later ∧ pool.maxSize < later.buffers.length := by
  constructor
  · intro state run
    have capped : state.Capped pool := by
      induction run with
      | refl => exact constructed.capped
      | tail _ step ih => exact step.capped ih
    exact capped ∅ fun id member => absurd member (Finset.notMem_empty id)
  · intro state id buffer reached point fits crowded
    unfold PoolState.Roomy at crowded
    push Not at crowded
    obtain ⟨pending, appends, full⟩ := crowded
    have other : id ∉ pending := by
      intro member
      have here := appends id member
      rw [point] at here
      exact here
    have step : state.advance pool id = state.goTo id (.fits buffer) := by
      rw [PoolState.advance, point]
      dsimp only
      rw [if_pos fits]
    have more : (state.advance pool id).Pending (Insert.insert id pending) := by
      intro one member
      rw [step]
      rcases Finset.mem_insert.mp member with rfl | inside
      · rw [PoolState.goTo_self]
        trivial
      · rw [PoolState.goTo_of_ne _ _ _ (by rintro rfl; exact other inside)]
        exact appends one inside
    obtain ⟨later, run, size⟩ := pending_append _ _ more
    refine ⟨later, (reached.tail (.advance id)).trans run, ?_⟩
    rw [size, Finset.card_insert_of_notMem other, step, PoolState.goTo_buffers]
    omega

/-- A thread is between its length test and its append. -/
def CheckoutPoint.returns : CheckoutPoint → Bool
  | .filled _ => true
  | .fits _ => true
  | _ => false

theorem CheckoutPoint.Appends.returns {point : CheckoutPoint} (appends : point.Appends) :
    point.returns = true := by
  cases point with
  | fits buffer => rfl
  | _ => exact appends.elim

/-- No other thread is about to return its buffer. -/
def PoolState.Alone (state : PoolState Id) (id : Id) : Prop :=
  ∀ other, other ≠ id → (state.checkouts other).point.returns = false

instance [Fintype Id] (state : PoolState Id) (id : Id) : Decidable (state.Alone id) :=
  inferInstanceAs (Decidable (∀ other, other ≠ id → (state.checkouts other).point.returns = false))

/-- A step beside which no thread returns a buffer keeps the guard of the cap. -/
theorem roomyStep_of_idle (step : PoolStep pool state after)
    (idle : ∀ id, (state.checkouts id).point.returns = false) : RoomyStep pool state after := by
  refine ⟨step, ?_⟩
  intro id buffer filled
  have still := idle id
  rw [filled] at still
  cases still

theorem advance_of_ne {id other : Id} (different : other ≠ id) :
    (state.advance pool id).checkouts other = state.checkouts other := by
  unfold PoolState.advance
  split
  · rfl
  · rfl
  · exact Function.update_of_ne different _ _
  · exact Function.update_of_ne different _ _
  · exact Function.update_of_ne different _ _
  · exact PoolState.goTo_of_ne _ _ _ different
  · split
    · exact Function.update_of_ne different _ _
    · exact PoolState.goTo_of_ne _ _ _ different
  · exact PoolState.goTo_of_ne _ _ _ different
  · exact Function.update_of_ne different _ _

/-- The length test of a thread that returns its buffer alone has room. -/
theorem PoolState.Alone.roomyStep {id : Id} (alone : state.Alone id) :
    RoomyStep pool state (state.advance pool id) := by
  refine ⟨.advance id, ?_⟩
  intro one buffer filled fits
  by_cases same : one = id
  · subst same
    intro pending appends
    have none : pending = ∅ := by
      refine Finset.eq_empty_of_forall_notMem fun other member => ?_
      have here := appends other member
      by_cases own : other = one
      · rw [own, filled] at here
        exact here
      · have still := alone other own
        rw [here.returns] at still
        cases still
    have room : state.buffers.length < pool.maxSize := by
      by_contra crowded
      rw [PoolState.advance, filled] at fits
      simp [crowded] at fits
    simpa [none] using room
  · have still := alone one same
    rw [filled] at still
    cases still

/-- A thread that goes on alone keeps the guard of the cap. -/
theorem PoolState.Alone.run {id : Id} (alone : state.Alone id) (count : Nat) :
    ReflTransGen (RoomyStep pool) state (state.advances pool (List.replicate count id)) := by
  induction count generalizing state with
  | zero => exact .refl
  | succ count ih =>
      refine .head alone.roomyStep (ih ?_)
      intro other different
      rw [advance_of_ne different]
      exact alone other different

end Cap

/-- The two threads return their buffers one after the other. -/
def samplePoolTurns : PoolState (Fin 3) :=
  (((samplePoolHeld.exit firstThread).advances samplePool
    (List.replicate 6 firstThread)).exit secondThread).advances samplePool
      (List.replicate 5 secondThread)

/-- The sample pool keeps one of the two buffers that come back in turn. -/
theorem pool_capped_sample : ReflTransGen (RoomyStep samplePool) samplePoolStart samplePoolTurns ∧
    samplePoolTurns.buffers = [⟨0, 0⟩] ∧ samplePoolTurns.buffers.length ≤ samplePool.maxSize := by
  have entered := (ReflTransGen.single (@roomyStep_of_idle _ _ samplePool samplePoolStart _
    (.enter firstThread rfl) (by decide))).tail (roomyStep_of_idle (.enter secondThread rfl) (by decide))
  have missed := entered.trans (@PoolState.Alone.run _ _ samplePool _ secondThread (by decide) 1)
  have taken := missed.trans (@PoolState.Alone.run _ _ samplePool _ firstThread (by decide) 1)
  have held := taken.trans (@PoolState.Alone.run _ _ samplePool _ secondThread (by decide) 1)
  have first := (held.tail (roomyStep_of_idle (.exit firstThread rfl) (by decide))).trans
    (@PoolState.Alone.run _ _ samplePool _ firstThread (by decide) 6)
  have second := (first.tail (roomyStep_of_idle (.exit secondThread rfl) (by decide))).trans
    (@PoolState.Alone.run _ _ samplePool _ secondThread (by decide) 5)
  exact ⟨second, by decide, (pool_capped samplePool samplePoolStart samplePool_constructed).1
    samplePoolTurns second⟩

/-- Both threads return their buffers in lockstep. -/
def samplePoolRace : PoolState (Fin 3) :=
  ((samplePoolHeld.exit firstThread).exit secondThread).advances samplePool
    (List.replicate 6 [firstThread, secondThread]).flatten

/-- Both length tests of the sample pool pass before either append. -/
theorem pool_overflows : Constructed samplePool samplePoolStart ∧
    ReflTransGen (PoolStep samplePool) samplePoolStart samplePoolRace ∧
    samplePool.maxSize < samplePoolRace.buffers.length := by
  refine ⟨samplePool_constructed, ?_, by decide⟩
  exact ((samplePoolHeld_reached.tail (.exit firstThread rfl)).tail (.exit secondThread rfl)).trans
    (advances_reached _ _)

end Quorin
