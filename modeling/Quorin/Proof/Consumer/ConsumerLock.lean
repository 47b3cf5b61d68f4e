import Quorin.Construction.ConsumerLock
import Mathlib.Tactic.Linarith

namespace Quorin

open Relation

section Exclusion

variable {Name : Type} [DecidableEq Name] {consumers : Name → LockConsumer}
  {before after : LockWorld Name}

/-- The consumer is between a successful acquire and its release. -/
def LockWorld.Inside (world : LockWorld Name) (name : Name) : Prop := world.phase name ≠ .outside

/-- A step does not take the clock to the expiry of the lock while a consumer is inside. -/
def RenewedStep (consumers : Name → LockConsumer) (before after : LockWorld Name) : Prop :=
  LockStep consumers before after ∧
    ∀ name key, before.Inside name → before.stored = some key → before.clock < after.clock →
      after.clock < key.expiresAt

/-- One consumer at most is inside, and the lock is held while it is. -/
structure LockGuards (world : LockWorld Name) : Prop where
  one : ∀ first second, world.Inside first → world.Inside second → first = second
  held : ∀ name, world.Inside name → ∃ key, world.stored = some key ∧ world.clock < key.expiresAt

theorem inside_enter {world : LockWorld Name} {name other : Name} {phase : LockPhase} :
    (world.enter name phase).Inside other ↔
      (other = name ∧ phase ≠ .outside) ∨ (other ≠ name ∧ world.Inside other) := by
  unfold LockWorld.Inside LockWorld.enter
  by_cases same : other = name
  · subst same
    simp
  · simp [same]

omit [DecidableEq Name] in
theorem key_eq_some {world : LockWorld Name} {key : ConsumerLockKey} :
    world.key = some key ↔ world.stored = some key ∧ world.clock < key.expiresAt := by
  simp [LockWorld.key, Option.filter_eq_some_iff]

/-- A consumer that is inside may move on inside. -/
theorem LockGuards.enter {world : LockWorld Name} (guards : LockGuards world) {name : Name}
    {phase : LockPhase} (inside : world.Inside name) : LockGuards (world.enter name phase) := by
  have before : ∀ other, (world.enter name phase).Inside other → world.Inside other := by
    intro other held
    rcases inside_enter.mp held with ⟨rfl, _⟩ | ⟨_, still⟩
    · exact inside
    · exact still
  exact ⟨fun first second firstIn secondIn =>
    guards.one first second (before first firstIn) (before second secondIn),
    fun other held => guards.held other (before other held)⟩

/-- When the last consumer is outside the lock does not matter. -/
theorem LockGuards.outside {world : LockWorld Name} (guards : LockGuards world) (name : Name)
    (stored : Option ConsumerLockKey) (same : world.Inside name ∨ stored = world.stored) :
    LockGuards ({ world with stored := stored }.enter name .outside) := by
  have before : ∀ other, ({ world with stored := stored }.enter name .outside).Inside other →
      other ≠ name ∧ world.Inside other := by
    intro other held
    rcases inside_enter.mp held with ⟨_, absurdity⟩ | still
    · exact absurd rfl absurdity
    · exact still
  refine ⟨fun first second firstIn secondIn =>
    guards.one first second (before first firstIn).2 (before second secondIn).2, ?_⟩
  intro other held
  obtain ⟨different, still⟩ := before other held
  rcases same with inside | rfl
  · exact absurd (guards.one other name still inside) different
  · exact guards.held other still

omit [DecidableEq Name] in
/-- An answered `EXPIRE` keeps the lock. -/
theorem LockGuards.expire {world : LockWorld Name} (guards : LockGuards world) :
    LockGuards world.expire := by
  refine ⟨guards.one, ?_⟩
  intro name inside
  obtain ⟨key, stored, later⟩ := guards.held name inside
  refine ⟨{ key with expiresAt := world.clock + consumerLockTtlSeconds }, ?_, ?_⟩
  · simp [LockWorld.expire, key_eq_some.mpr ⟨stored, later⟩]
  · change world.clock < world.clock + 60
    linarith

/-- What one step preserves. -/
theorem LockGuards.step (guards : LockGuards before) (step : RenewedStep consumers before after) :
    LockGuards after := by
  obtain ⟨step, renewed⟩ := step
  cases step with
  | pass seconds forward timers =>
      refine ⟨guards.one, ?_⟩
      intro name inside
      obtain ⟨key, stored, _⟩ := guards.held name inside
      exact ⟨key, stored, renewed name key inside stored (lt_add_of_pos_right _ forward)⟩
  | acquireConsumerLock name outside free =>
      have empty : ∀ other, ¬ before.Inside other := by
        intro other inside
        obtain ⟨key, stored, later⟩ := guards.held other inside
        rw [LockWorld.free, key_eq_some.mpr ⟨stored, later⟩] at free
        cases free
      have only : ∀ other, ((before.acquired (consumers name).pid).enter name .draining).Inside other →
          other = name := by
        intro other held
        rcases inside_enter.mp held with ⟨same, _⟩ | ⟨_, still⟩
        · exact same
        · exact absurd still (empty other)
      refine ⟨fun first second firstIn secondIn =>
        (only first firstIn).trans (only second secondIn).symm, fun other held => ⟨_, rfl, ?_⟩⟩
      change before.clock < before.clock + 60
      linarith
  | nameInUse name outside taken => exact guards
  | beginFlushLoop name drained =>
      exact guards.enter (by rw [LockWorld.Inside, drained]; exact LockPhase.noConfusion)
  | wake name answered waiting =>
      have inside : before.Inside name := by
        rw [LockWorld.Inside, waiting]
        exact LockPhase.noConfusion
      split
      · exact guards.expire.enter inside
      · exact guards.enter inside
  | wait name flushed =>
      exact guards.enter (by rw [LockWorld.Inside, flushed]; exact LockPhase.noConfusion)
  | leave name inside => exact guards.enter inside
  | releaseConsumerLock name answered leaving =>
      have inside : before.Inside name := by
        rw [LockWorld.Inside, leaving]
        exact LockPhase.noConfusion
      split
      · exact guards.outside name none (Or.inl inside)
      · exact guards.outside name before.stored (Or.inr rfl)
  | crash name => exact guards.outside name before.stored (Or.inr rfl)

/-- What a run preserves. -/
theorem LockGuards.run {start world : LockWorld Name} (guards : LockGuards start)
    (run : ReflTransGen (RenewedStep consumers) start world) : LockGuards world := by
  induction run with
  | refl => exact guards
  | tail _ step ih => exact ih.step step

/-- Two consumers are never inside together while the lock is renewed in time. -/
theorem consumerLock_excludes {start world : LockWorld Name}
    (initial : ∀ name, start.phase name = .outside)
    (run : ReflTransGen (RenewedStep consumers) start world) {first second : Name}
    (firstInside : world.Inside first) (secondInside : world.Inside second) : first = second := by
  have guards : LockGuards start :=
    ⟨fun first _ inside => absurd (initial first) inside,
      fun name inside => absurd (initial name) inside⟩
  exact (guards.run run).one first second firstInside secondInside

end Exclusion

/-- Two consumers of one name with the default flush interval. -/
def sampleLockConsumers (second : Bool) : LockConsumer where
  pid := if second then 2 else 1
  flushIntervalSeconds := defaultFlushIntervalSeconds
  positive := by
    unfold defaultFlushIntervalSeconds
    norm_num

/-- No consumer has started, and the lock was never set. -/
def sampleLockStart : LockWorld Bool := ⟨0, none, fun _ => .outside⟩

/-- The first consumer acquires the lock and drains the PEL. -/
def sampleLockDraining : LockWorld Bool := (sampleLockStart.acquired 1).enter false .draining

theorem sampleLock_acquire : LockStep sampleLockConsumers sampleLockStart sampleLockDraining :=
  .acquireConsumerLock false rfl rfl

/-- A step that takes no time is no late renewal. -/
theorem renewed_of_still {before after : LockWorld Bool} (step : LockStep sampleLockConsumers before after)
    (still : after.clock = before.clock) : RenewedStep sampleLockConsumers before after :=
  ⟨step, fun _ _ _ _ later => absurd later (by rw [still]; exact lt_irrefl _)⟩

/-- Time passes in front of the expiry of the lock. -/
theorem renewed_of_pass {before : LockWorld Bool} {seconds : ℚ} (forward : 0 < seconds)
    (timers : ∀ name wakeBy, before.phase name = .waiting wakeBy → before.clock + seconds ≤ wakeBy)
    {key : ConsumerLockKey} (stored : before.stored = some key)
    (early : before.clock + seconds < key.expiresAt) :
    RenewedStep sampleLockConsumers before { before with clock := before.clock + seconds } := by
  refine ⟨.pass seconds forward timers, ?_⟩
  intro name other _ same _
  obtain rfl := Option.some.inj (stored.symm.trans same)
  exact early

/-- The first consumer waits behind a drain of half a minute. -/
def sampleLockDrained : LockWorld Bool :=
  { sampleLockDraining with clock := sampleLockDraining.clock + 30 }.enter false
    (.waiting (sampleLockDraining.clock + 30 + defaultFlushIntervalSeconds))

/-- The first consumer has renewed the lock and waits again. -/
def sampleLockRenewed : LockWorld Bool :=
  (sampleLockDrained.expire.enter false .flushing).enter false
    (.waiting (sampleLockDrained.clock + defaultFlushIntervalSeconds))

/-- Behind the first expiry the first consumer leaves. -/
def sampleLockLeaving : LockWorld Bool :=
  { sampleLockRenewed with clock := sampleLockRenewed.clock + 40 }.enter false .leaving

/-- The first consumer has released the lock, and the second one drains the PEL. -/
def sampleLockNext : LockWorld Bool :=
  ((sampleLockLeaving.deleted.enter false .outside).acquired 2).enter true .draining

theorem sampleLock_passes : ReflTransGen (RenewedStep sampleLockConsumers) sampleLockStart sampleLockNext := by
  have drains : RenewedStep sampleLockConsumers sampleLockDraining
      { sampleLockDraining with clock := sampleLockDraining.clock + 30 } := by
    refine renewed_of_pass (by norm_num) ?_ rfl ?_
    · intro name wakeBy timer
      cases name <;> cases timer
    · change (0 : ℚ) + 30 < 0 + 60
      norm_num
  have drained : ReflTransGen (RenewedStep sampleLockConsumers) sampleLockStart sampleLockDrained :=
    ((ReflTransGen.single (renewed_of_still sampleLock_acquire rfl)).tail drains).tail
      (renewed_of_still (.beginFlushLoop false rfl) rfl)
  have renewed : ReflTransGen (RenewedStep sampleLockConsumers) sampleLockStart sampleLockRenewed :=
    (drained.tail (renewed_of_still (.wake false true rfl) rfl)).tail
      (renewed_of_still (.wait false rfl) rfl)
  have key : sampleLockDrained.key = some ⟨1, 0 + consumerLockTtlSeconds⟩ := by
    refine key_eq_some.mpr ⟨rfl, ?_⟩
    change (0 : ℚ) + 30 < 0 + 60
    norm_num
  have stored : sampleLockRenewed.stored = some ⟨1, 0 + 30 + consumerLockTtlSeconds⟩ := by
    change sampleLockDrained.key.map _ = _
    rw [key]
    rfl
  have passes : RenewedStep sampleLockConsumers sampleLockRenewed
      { sampleLockRenewed with clock := sampleLockRenewed.clock + 40 } := by
    refine renewed_of_pass (by norm_num) ?_ stored ?_
    · intro name wakeBy timer
      cases name with
      | true => cases timer
      | false =>
          obtain rfl := LockPhase.waiting.inj timer
          change (0 : ℚ) + 30 + 40 ≤ 0 + 30 + 60
          norm_num
    · change (0 : ℚ) + 30 + 40 < 0 + 30 + 60
      norm_num
  have left := (renewed.tail passes).tail (renewed_of_still (.leave false LockPhase.noConfusion) rfl)
  exact (left.tail (renewed_of_still (.releaseConsumerLock false true rfl) rfl)).tail
    (renewed_of_still (.acquireConsumerLock true rfl rfl) rfl)

/-- A second consumer starts behind the release of a renewed lock, and is alone inside. -/
theorem consumerLock_excludes_sample :
    ReflTransGen (RenewedStep sampleLockConsumers) sampleLockStart sampleLockNext ∧
      sampleLockNext.Inside true ∧ ∀ name, sampleLockNext.Inside name → name = true :=
  ⟨sampleLock_passes, LockPhase.noConfusion,
    fun _ held => consumerLock_excludes (fun _ => rfl) sampleLock_passes held LockPhase.noConfusion⟩

/-- A second after its start the first consumer waits in its flush loop. -/
def sampleLockWaiting : LockWorld Bool :=
  { sampleLockDraining with clock := sampleLockDraining.clock + 1 }.enter false
    (.waiting (sampleLockDraining.clock + 1 + defaultFlushIntervalSeconds))

/-- Half a second behind the expiry the first consumer still waits. -/
def sampleLockLapsed : LockWorld Bool :=
  { sampleLockWaiting with clock := sampleLockWaiting.clock + 119 / 2 }

/-- The second consumer acquires the lock of the first. -/
def sampleLockShared : LockWorld Bool := (sampleLockLapsed.acquired 2).enter true .draining

/-- With the default flush interval the lock expires under a waiting consumer. -/
theorem consumerLock_shared :
    ReflTransGen (LockStep sampleLockConsumers) sampleLockStart sampleLockShared ∧
      sampleLockShared.Inside false ∧ sampleLockShared.Inside true := by
  have drained : LockStep sampleLockConsumers sampleLockDraining
      { sampleLockDraining with clock := sampleLockDraining.clock + 1 } := by
    refine .pass 1 (by norm_num) ?_
    intro name wakeBy waiting
    cases name <;> cases waiting
  have waiting : LockStep sampleLockConsumers
      { sampleLockDraining with clock := sampleLockDraining.clock + 1 } sampleLockWaiting :=
    .beginFlushLoop false rfl
  have lapsed : LockStep sampleLockConsumers sampleLockWaiting sampleLockLapsed := by
    refine .pass (119 / 2) (by norm_num) ?_
    intro name wakeBy timer
    cases name with
    | true => cases timer
    | false =>
        obtain rfl := LockPhase.waiting.inj timer
        change (0 : ℚ) + 1 + 119 / 2 ≤ 0 + 1 + 60
        norm_num
  have free : sampleLockLapsed.free = true := by
    have late : ¬ sampleLockLapsed.clock < 0 + consumerLockTtlSeconds := by
      change ¬ (0 : ℚ) + 1 + 119 / 2 < 0 + 60
      norm_num
    have expired : sampleLockLapsed.key = none := by
      rw [Option.eq_none_iff_forall_ne_some]
      intro key held
      obtain ⟨stored, later⟩ := key_eq_some.mp held
      obtain rfl := Option.some.inj stored
      exact late later
    rw [LockWorld.free, expired]
    rfl
  have shared : LockStep sampleLockConsumers sampleLockLapsed sampleLockShared :=
    .acquireConsumerLock true rfl free
  exact ⟨((((ReflTransGen.single sampleLock_acquire).tail drained).tail waiting).tail lapsed).tail shared,
    LockPhase.noConfusion, LockPhase.noConfusion⟩

end Quorin
