import Mathlib.Tactic.Linarith
import Mathlib.Tactic.NormNum
import Quorin.Construction.WriteSync
import Quorin.Proof.Serving.ServedWrites

namespace Quorin

/-- The message id that a call has got. -/
def SyncPhase.msgId : SyncPhase → Option MsgId
  | .added msgId _ => some msgId
  | .waiting msgId _ _ => some msgId
  | _ => none

section Backoff

/-- Each pause lasts at least a millisecond and at most ten. -/
theorem backoff_range (count : ℕ) :
    1 / 1000 ≤ nextBackoff^[count] firstBackoff ∧ nextBackoff^[count] firstBackoff ≤ 1 / 100 := by
  induction count with
  | zero =>
      rw [Function.iterate_zero_apply, firstBackoff]
      norm_num
  | succ count ih =>
      rw [Function.iterate_succ_apply', nextBackoff]
      refine ⟨le_min ?_ ?_, min_le_right _ _⟩
      · linarith
      · norm_num

theorem backoff_nonneg (count : ℕ) : 0 ≤ nextBackoff^[count] firstBackoff :=
  le_trans (by norm_num) (backoff_range count).1

/-- From the fifth on, each pause lasts ten milliseconds. -/
theorem backoff_capped (count : ℕ) : nextBackoff^[count + 4] firstBackoff = 1 / 100 := by
  induction count with
  | zero =>
      simp only [Nat.zero_add, Function.iterate_succ_apply', Function.iterate_zero_apply, nextBackoff,
        firstBackoff]
      norm_num
  | succ count ih =>
      rw [Nat.add_right_comm, Function.iterate_succ_apply', ih, nextBackoff]
      norm_num

/-- The pauses behind the fourth take ten milliseconds each, behind fifteen for the first four. -/
theorem slept_capped (count : ℕ) :
    PollLoop.slept nextBackoff firstBackoff (count + 4) = 15 / 1000 + count / 100 := by
  induction count with
  | zero =>
      simp only [PollLoop.slept, Function.iterate_succ_apply',
        Function.iterate_zero_apply, nextBackoff, firstBackoff]
      norm_num
  | succ count ih =>
      rw [Nat.add_right_comm, PollLoop.slept, ih, backoff_capped]
      push_cast
      ring

/-- A number of pauses takes ten milliseconds for each, less at most twenty-five. -/
theorem slept_lower (count : ℕ) :
    (10 * count - 25) / 1000 ≤ PollLoop.slept nextBackoff firstBackoff count := by
  rcases Nat.lt_or_ge count 4 with few | many
  · have first := (backoff_range 0).1
    interval_cases count <;>
      simp only [PollLoop.slept, Function.iterate_succ_apply', Function.iterate_zero_apply, nextBackoff,
        firstBackoff] <;> norm_num
  · obtain ⟨more, rfl⟩ := Nat.exists_eq_add_of_le' many
    rw [slept_capped]
    push_cast
    linarith

end Backoff

/-- A step of the calls during which no drain goes back behind a set key. -/
def ForwardSyncStep {Caller Object : Type} [DecidableEq Caller] (deployment : Deployment)
    (pydantic : Pydantic Object) (requests : Caller → SyncRequest Object)
    (before after : SyncWorld Caller) : Prop :=
  SyncStep deployment pydantic requests before after ∧ ReplaysForward deployment before.world

/-- An entry is the write of a call. -/
def SyncRequest.Wrote {Object : Type} (deployment : Deployment) (pydantic : Pydantic Object)
    (request : SyncRequest Object) (entry : StreamEntry) : Prop :=
  WrittenEntry deployment pydantic entry request.schema request.entityId request.values

/-- A call that waits began behind its `XADD`, has slept its pauses, and has found only a key that was
set. -/
structure SyncWaiting {Caller Object : Type} (request : SyncRequest Object) (state : SyncWorld Caller)
    (msgId : MsgId) (addedAt : ℚ) (loop : PollLoop ℚ) : Prop where
  begun : addedAt ≤ loop.begunAt
  timed : loop.Timed nextBackoff firstBackoff (request.timeoutMs / 1000) state.clock
  found : loop.point = .found → msgId ∈ state.world.processed

/-- Every call that has a message id wrote the entry of that id, which no other call has. -/
structure SyncWorld.Sound {Caller Object : Type} (deployment : Deployment) (pydantic : Pydantic Object)
    (requests : Caller → SyncRequest Object) (state : SyncWorld Caller) : Prop where
  written : ∀ caller msgId, (state.phase caller).msgId = some msgId →
    ∃ entry ∈ state.world.produced, entry.id = msgId ∧
      (requests caller).Wrote deployment pydantic entry
  added : ∀ caller msgId addedAt, state.phase caller = .added msgId addedAt → addedAt ≤ state.clock
  waiting : ∀ caller msgId addedAt loop, state.phase caller = .waiting msgId addedAt loop →
    SyncWaiting (requests caller) state msgId addedAt loop
  distinct : ∀ first second msgId, (state.phase first).msgId = some msgId →
    (state.phase second).msgId = some msgId → first = second

section Calls

variable {Caller Object : Type} {deployment : Deployment} {pydantic : Pydantic Object}
  {requests : Caller → SyncRequest Object} {before after : SyncWorld Caller}

/-- The set keys stay set. -/
theorem SignalEffect.grown {world next : World} (effect : SignalEffect deployment world next)
    {msgId : MsgId} (member : msgId ∈ world.processed) : msgId ∈ next.processed := by
  cases effect with
  | idle inserted processed empty => exact processed ▸ member
  | kept live now inserted processed appliedIds batch => exact processed ▸ member
  | loaded now inserted processed appliedIds sorted => exact processed ▸ member
  | applied live now phase returned turned inserted processed => exact processed ▸ member
  | signalled live inserted among processed empty =>
      rw [processed]
      exact List.mem_append_left _ member

/-- The start is sound. -/
theorem SyncWorld.Initial.sound (initial : before.Initial deployment) :
    before.Sound deployment pydantic requests where
  written caller msgId named := by
    rw [initial.phase] at named
    cases named
  added caller msgId addedAt phase := by
    rw [initial.phase] at phase
    cases phase
  waiting caller msgId addedAt loop phase := by
    rw [initial.phase] at phase
    cases phase
  distinct first second msgId named := by
    rw [initial.phase] at named
    cases named

/-- Calls stay sound beside a world that keeps its entries and its keys, and a clock that goes on. -/
theorem SyncWorld.Sound.beside (sound : before.Sound deployment pydantic requests)
    (phase : after.phase = before.phase) (passed : before.clock ≤ after.clock)
    (produced : ∀ entry ∈ before.world.produced, entry ∈ after.world.produced)
    (processed : ∀ msgId ∈ before.world.processed, msgId ∈ after.world.processed) :
    after.Sound deployment pydantic requests where
  written caller msgId named := by
    rw [phase] at named
    obtain ⟨entry, stored, written⟩ := sound.written caller msgId named
    exact ⟨entry, produced entry stored, written⟩
  added caller msgId addedAt here := by
    rw [phase] at here
    exact (sound.added caller msgId addedAt here).trans passed
  waiting caller msgId addedAt loop here := by
    rw [phase] at here
    obtain ⟨begun, timed, found⟩ := sound.waiting caller msgId addedAt loop here
    exact ⟨begun, timed.later passed, fun hit => processed msgId (found hit)⟩
  distinct := by
    rw [phase]
    exact sound.distinct

/-- A turn of the loop of a call keeps what its waiting means. -/
theorem SyncWaiting.turn {request : SyncRequest Object} {msgId : MsgId} {addedAt : ℚ}
    {loop later : PollLoop ℚ} (waiting : SyncWaiting request before msgId addedAt loop)
    (turn : PollLoop.Step nextBackoff (before.exists msgId addedAt) before.clock loop later) :
    SyncWaiting request before msgId addedAt later := by
  have timed := waiting.timed.step turn
  cases turn with
  | hit here answered => exact ⟨waiting.begun, timed, fun _ => answered⟩
  | miss here answered => exact ⟨waiting.begun, timed, fun hit => by cases hit⟩
  | giveUp here late => exact ⟨waiting.begun, timed, fun hit => by cases hit⟩
  | sleep here inTime => exact ⟨waiting.begun, timed, fun hit => by cases hit⟩
  | wake here elapsed => exact ⟨waiting.begun, timed, fun hit => by cases hit⟩

variable [DecidableEq Caller]

/-- The consumer's world takes a step of its own, or keeps its place. -/
theorem SyncStep.world (step : SyncStep deployment pydantic requests before after) :
    WorldStep deployment before.world after.world ∨ after.world = before.world := by
  cases step with
  | consumer step => exact .inl step
  | xadd caller outside stamp entry accepted positive newer answered =>
      exact .inl (.environment (.xadd entry positive newer))
  | pass seconds forward => exact .inr rfl
  | refused caller outside stamp error refused => exact .inr rfl
  | xaddFails caller outside => exact .inr rfl
  | begin caller added => exact .inr rfl
  | wait caller waiting turn => exact .inr rfl
  | existsFails caller waiting polling => exact .inr rfl

/-- The consumer's world runs forward. -/
theorem forward_world (steps : Relation.ReflTransGen (ForwardSyncStep deployment pydantic requests)
    before after) : Relation.ReflTransGen (ForwardStep deployment) before.world after.world := by
  induction steps with
  | refl => exact .refl
  | tail _ step ih =>
      rcases step.1.world with moved | kept
      · exact ih.tail ⟨moved, step.2⟩
      · rwa [kept]

/-- Calls stay sound while one of them enters a phase with an id of its own, or without one. -/
theorem SyncWorld.Sound.enter (sound : before.Sound deployment pydantic requests) {caller : Caller}
    {phase : SyncPhase}
    (written : ∀ msgId, phase.msgId = some msgId → ∃ entry ∈ before.world.produced,
      entry.id = msgId ∧ (requests caller).Wrote deployment pydantic entry)
    (alone : ∀ other msgId, phase.msgId = some msgId → (before.phase other).msgId = some msgId →
      other = caller)
    (added : ∀ msgId addedAt, phase = .added msgId addedAt → addedAt ≤ before.clock)
    (waiting : ∀ msgId addedAt loop, phase = .waiting msgId addedAt loop →
      SyncWaiting (requests caller) before msgId addedAt loop) :
    (before.enter caller phase).Sound deployment pydantic requests where
  written other msgId here := by
    by_cases same : other = caller
    · subst other
      rw [SyncWorld.enter_same] at here
      exact written msgId here
    · rw [SyncWorld.enter_other _ same] at here
      exact sound.written other msgId here
  added other msgId addedAt here := by
    by_cases same : other = caller
    · subst other
      rw [SyncWorld.enter_same] at here
      exact added msgId addedAt here
    · rw [SyncWorld.enter_other _ same] at here
      exact sound.added other msgId addedAt here
  waiting other msgId addedAt loop here := by
    by_cases same : other = caller
    · subst other
      rw [SyncWorld.enter_same] at here
      obtain ⟨begun, timed, found⟩ := waiting msgId addedAt loop here
      exact ⟨begun, timed, found⟩
    · rw [SyncWorld.enter_other _ same] at here
      obtain ⟨begun, timed, found⟩ := sound.waiting other msgId addedAt loop here
      exact ⟨begun, timed, found⟩
  distinct first second msgId left right := by
    by_cases one : first = caller
    · subst first
      rw [SyncWorld.enter_same] at left
      by_cases two : second = caller
      · exact two.symm
      · rw [SyncWorld.enter_other _ two] at right
        exact (alone second msgId left right).symm
    · rw [SyncWorld.enter_other _ one] at left
      by_cases two : second = caller
      · subst second
        rw [SyncWorld.enter_same] at right
        exact alone first msgId right left
      · rw [SyncWorld.enter_other _ two] at right
        exact sound.distinct first second msgId left right

/-- A call that raises takes its id along. -/
theorem SyncWorld.Sound.raise (sound : before.Sound deployment pydantic requests) (caller : Caller) :
    (before.enter caller .raised).Sound deployment pydantic requests := by
  apply sound.enter
  · intro msgId named
    cases named
  · intro other msgId named
    cases named
  · intro msgId addedAt here
    cases here
  · intro msgId addedAt loop here
    cases here

/-- A call that goes on waiting keeps its id. -/
theorem SyncWorld.Sound.wait (sound : before.Sound deployment pydantic requests) {caller : Caller}
    {msgId : MsgId} {addedAt : ℚ} {loop : PollLoop ℚ}
    (named : (before.phase caller).msgId = some msgId)
    (waiting : SyncWaiting (requests caller) before msgId addedAt loop) :
    (before.enter caller (.waiting msgId addedAt loop)).Sound deployment pydantic requests := by
  apply sound.enter
  · intro other same
    obtain rfl := Option.some.inj same
    exact sound.written caller msgId named
  · intro other id same taken
    obtain rfl := Option.some.inj same
    exact sound.distinct other caller msgId taken named
  · intro id time here
    cases here
  · intro id time later here
    cases here
    exact waiting

/-- A step keeps the calls sound. -/
theorem SyncWorld.Sound.step (sound : before.Sound deployment pydantic requests)
    (ordered : StreamOrdered before.world)
    (served : ∀ caller, deployment.schemas.lookup (encodeUtf8 (requests caller).schema.className) =
      some (requests caller).schema)
    (step : SyncStep deployment pydantic requests before after) :
    after.Sound deployment pydantic requests := by
  cases step with
  | consumer step =>
      exact sound.beside rfl le_rfl step.streamEffect.grown
        (fun msgId => (step.signalEffect ordered).grown)
  | pass seconds forward =>
      exact sound.beside rfl (le_add_of_nonneg_right forward.le) (fun _ stored => stored)
        (fun _ set => set)
  | refused caller outside stamp error refused => exact sound.raise caller
  | xaddFails caller outside => exact sound.raise caller
  | existsFails caller waiting polling => exact sound.raise caller
  | xadd caller outside stamp entry accepted positive newer answered =>
      have grown : ({ before with world := before.world.xadd entry } : SyncWorld Caller).Sound deployment
          pydantic requests :=
        sound.beside rfl le_rfl (fun other stored => List.mem_append_left _ stored)
          (fun _ set => set)
      cases answered with
      | false => exact grown.raise caller
      | true =>
          apply grown.enter
          · intro msgId named
            obtain rfl := Option.some.inj named
            exact ⟨entry, List.mem_append_right _ List.mem_cons_self, rfl, served caller, _, accepted⟩
          · intro other msgId named taken
            obtain rfl := Option.some.inj named
            obtain ⟨former, stored, same, _⟩ := sound.written other entry.id taken
            exact absurd same (newer former stored).ne
          · intro msgId addedAt here
            cases here
            exact le_rfl
          · intro msgId addedAt loop here
            cases here
  | @begin msgId addedAt caller added =>
      have named : (before.phase caller).msgId = some msgId := by rw [added, SyncPhase.msgId]
      exact sound.wait named
        ⟨sound.added caller msgId addedAt added, PollLoop.begin_timed, fun hit => by cases hit⟩
  | @wait msgId addedAt loop later caller waiting turn =>
      have named : (before.phase caller).msgId = some msgId := by rw [waiting, SyncPhase.msgId]
      exact sound.wait named ((sound.waiting caller msgId addedAt loop waiting).turn turn)

/-- The calls of a forward run are sound. -/
theorem forward_sound (initial : before.Initial deployment)
    (served : ∀ caller, deployment.schemas.lookup (encodeUtf8 (requests caller).schema.className) =
      some (requests caller).schema)
    (steps : Relation.ReflTransGen (ForwardSyncStep deployment pydantic requests) before after) :
    after.Sound deployment pydantic requests := by
  induction steps with
  | refl => exact initial.sound
  | tail run step ih =>
      have facts := (forward_run initial.world (forward_world run)).1
      exact ih.step facts.ordered served step.1

/-- What a call gets from the loop that it waits in or that has ended. -/
structure SyncContract (deployment : Deployment) (pydantic : Pydantic Object)
    (request : SyncRequest Object) (before after : SyncWorld Caller) (entry : StreamEntry)
    (addedAt : ℚ) (loop : PollLoop ℚ) : Prop where
  wrote : request.Wrote deployment pydantic entry
  returned : loop.point = .found →
    ServesWrite deployment pydantic before.world after.world entry request.schema request.entityId
  timedOut : loop.point = .gaveUp → addedAt + request.timeoutMs / 1000 ≤ after.clock
  polls : 1 < loop.polls → 10 * (loop.polls : Int) < request.timeoutMs + 45

/-- A call of `write_sync` that returns is served, and one that raises waited for its timeout. -/
theorem writeSync_contract (initial : before.Initial deployment)
    (served : ∀ caller, deployment.schemas.lookup (encodeUtf8 (requests caller).schema.className) =
      some (requests caller).schema)
    (steps : Relation.ReflTransGen (ForwardSyncStep deployment pydantic requests) before after)
    (lossless : deployment.externals.RoundTrips)
    (converts : ∀ served ∈ deployment.schemas, ∀ field ∈ served.2.fields, field.shape ≠ [] →
      deployment.externals.ConvertsLists)
    (producers : ProducedBy deployment pydantic after.world.produced)
    (caller : Caller) (msgId : MsgId) (addedAt : ℚ) (loop : PollLoop ℚ)
    (waiting : after.phase caller = .waiting msgId addedAt loop) :
    (∃ entry ∈ after.world.produced, entry.id = msgId ∧
      SyncContract deployment pydantic (requests caller) before after entry addedAt loop) ∧
    ∀ other, (after.phase other).msgId = some msgId → other = caller := by
  have sound := forward_sound initial served steps
  have named : (after.phase caller).msgId = some msgId := by rw [waiting, SyncPhase.msgId]
  obtain ⟨entry, stored, same, wrote⟩ := sound.written caller msgId named
  obtain ⟨begun, timed, found⟩ := sound.waiting caller msgId addedAt loop waiting
  refine ⟨⟨entry, stored, same, wrote, ?_, ?_, ?_⟩,
    fun other taken => sound.distinct other caller msgId taken named⟩
  · intro hit
    have run := forward_world steps
    obtain ⟨facts, signalled⟩ := forward_run initial.world run
    have packed := packed_of_steps initial.world
      (Relation.ReflTransGen.mono (fun _ _ step => And.left step) _ _ run)
    exact signalled.serves facts packed lossless converts producers stored (same ▸ found hit) wrote
  · intro late
    have passed := timed.late late
    rw [timed.deadline] at passed
    linarith
  · intro many
    obtain ⟨count, polls⟩ := Nat.exists_eq_add_of_le' many
    have bounded := (slept_lower count).trans_lt (timed.bounded backoff_nonneg polls)
    have scaled : (10 * count - 25 : ℚ) < (requests caller).timeoutMs := by linarith
    have whole : 10 * (count : Int) - 25 < (requests caller).timeoutMs := by exact_mod_cast scaled
    omega

/-- The consumer's world runs forward beside calls that keep their places. -/
theorem forward_beside {world : World}
    (steps : Relation.ReflTransGen (ForwardStep deployment) before.world world) :
    Relation.ReflTransGen (ForwardSyncStep deployment pydantic requests) before
      { before with world := world } := by
  induction steps with
  | refl => exact .refl
  | tail _ step ih => exact ih.tail ⟨.consumer step.1, step.2⟩

end Calls

/-- A call writes the score one for the entity `a`. -/
def sampleRequest : SyncRequest UInt64 where
  schema := sampleSchema
  entityId := "a"
  values := [("score", 0x3ff0000000000000)]
  eventTimeNs := some 0
  timeoutMs := 100

/-- The sample process is started, and nothing is written yet. -/
def sampleStarted : World :=
  { sampleOffered sampleFirst with produced := [], entries := [] }

/-- A process that reads replays nothing. -/
theorem reading_forward {deployment : Deployment} {world : World} {run : Run}
    (live : world.run = some run) (phase : run.reader = .reading) : ReplaysForward deployment world := by
  intro other lastId msgId fields rest applied same applying
  rw [live] at same
  obtain rfl := Option.some.inj same
  rw [phase] at applying
  cases applying

/-- The call returns at its first poll behind the consumer. -/
theorem writeSync_contract_sample : ∃ (after : SyncWorld Unit) (loop : PollLoop ℚ),
    after.phase () = .waiting (MsgId.of 1 0) 0 loop ∧ loop.point = .found ∧
    ∃ entry ∈ after.world.produced, entry.id = MsgId.of 1 0 ∧
      ServesWrite sampleDeployment samplePydantic sampleWorld after.world entry sampleSchema "a" := by
  let start : SyncWorld Unit := ⟨sampleWorld, 0, fun _ => .outside⟩
  have initial : start.Initial sampleDeployment := ⟨sampleWorld_initial, fun _ => rfl⟩
  have startup : Relation.ReflTransGen (CalmStep sampleDeployment) sampleWorld sampleStarted := by
    refine startup_steps rfl (by decide) ?_ (by simp [sampleWorld]) rfl false
    intro entry member
    obtain rfl := List.mem_singleton.mp member
    exact ⟨"segment", openCurrent_self rfl rfl rfl sample_table⟩
  obtain ⟨consumer, written, rowData, applied, _⟩ :=
    sampleFirst_apply (sampleOffered_serving sampleFirst) (by simp [presentIds])
  have consumed := @consume_steps sampleDeployment (sampleOffered sampleFirst) _ ⟨MsgId.of 0 0, []⟩
    sampleFirst consumer written rfl rfl rfl rfl (by decide) (by decide) rfl (by decide)
    applied.returned false
  have forward {before after : World} (calm : Relation.ReflTransGen (CalmStep sampleDeployment) before
      after) : Relation.ReflTransGen (ForwardStep sampleDeployment) before after :=
    Relation.ReflTransGen.mono (fun _ _ step => CalmStep.forward step) _ _ calm
  have started := @forward_beside Unit UInt64 sampleDeployment samplePydantic (fun _ => sampleRequest)
    start _ sampleStarted (forward startup)
  have added := started.tail ⟨.xadd () rfl 0 sampleFirst
    (sample_doWrite 1 0x3ff0000000000000 (show strInt 0 = some [48] by decide)) (by decide)
    (fun other member => absurd member List.not_mem_nil) true, reading_forward rfl rfl⟩
  have begun := added.tail ⟨.begin () (SyncWorld.enter_same _ _ _), reading_forward rfl rfl⟩
  have behind := begun.trans (forward_beside (forward consumed))
  have steps := behind.tail ⟨@SyncStep.wait Unit UInt64 _ _ _ _ _ (MsgId.of 1 0) 0
    (.begin 0 (sampleRequest.timeoutMs / 1000) firstBackoff) _ () rfl (.hit rfl List.mem_cons_self),
    reading_forward rfl rfl⟩
  obtain ⟨⟨entry, stored, named, contract⟩, _⟩ := writeSync_contract initial (fun _ => rfl) steps
    sampleExternals_roundTrips sample_convertsLists (producedBy_of_written sampleFirst_producers) () _ _ _
    (SyncWorld.enter_same _ _ _)
  exact ⟨_, _, SyncWorld.enter_same _ _ _, rfl, entry, stored, named, contract.returned rfl⟩

end Quorin
