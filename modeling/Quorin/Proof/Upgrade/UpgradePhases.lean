import Quorin.Proof.Consumer.ReadYourWrites
import Quorin.Proof.Upgrade.CallStages
import Quorin.Proof.Upgrade.YieldedRuns

namespace Quorin

open ByteMemory FaultyCalls

/-- No message of the schema is applied in the copy window, and the process has yielded when the
pointer moves. -/
structure OrderlyStep (deployment : Deployment) (call : UpgradeCall) (before after : UpgradeState) :
    Prop where
  step : UpgradeStep deployment before after
  window : CopyWindow deployment.externals call before.program →
    ∀ run, before.world.run = some run → ¬ run.applies deployment call.name
  flip : before.world.current call.name ≠ some call.newName →
    after.world.current call.name = some call.newName →
    ∀ run, before.world.run = some run → run.yielded deployment call.name

/-- Every set key, and every key that is about to be set, belongs to an executed insert. -/
structure Recorded (world : World) : Prop where
  processed : ∀ msgId ∈ world.processed, ∃ record ∈ world.inserted, record.msgId = msgId
  applied : ∀ run, world.run = some run → ∀ msgId ∈ run.reader.applied,
    ∃ record ∈ world.inserted, record.msgId = msgId

/-- The names that only the upgraded schema leads to. -/
structure Apart (deployment : Deployment) (call : UpgradeCall) (oldName : String) (world : World) :
    Prop where
  current : ∀ name ∈ deployment.schemas.map Prod.fst, name ≠ call.name →
    world.current name ≠ some oldName ∧ world.current name ≠ some call.newName
  schemas : ∀ run, world.run = some run → run.consumer.schemas = deployment.schemas
  run : ∀ run, world.run = some run → ∀ name, name ≠ call.name →
    run.consumer.segments name ≠ some oldName ∧ run.consumer.segments name ≠ some call.newName

/-- The segment of the upgraded schema at the start. -/
structure OldSegment (deployment : Deployment) (call : UpgradeCall) (start : UpgradeState)
    (oldName : String) (first : Segment) : Prop where
  home : HomeOf deployment start.world call.name oldName
  stored : start.world.shared oldName = some first
  sound : LayoutSound first.layout
  table : computeRowOffsetTable deployment.externals.hashName call.old = .ok first.layout.rowOffsetTable
  different : oldName ≠ call.newName
  unnamed : ∀ name, start.world.current name ≠ some call.newName
  elsewhere : ∀ name ∈ deployment.schemas.map Prod.fst, name ≠ call.name →
    start.world.current name ≠ some oldName ∧ safeKey name ≠ call.old.safeName

/-- The pointers of the process are those of Redis. -/
def PointersMirrored (place : HostedWorld) : Prop :=
  ∀ name, place.world.current name = place.host.keys.current (safeKey name)

/-- The states in front of the flip. -/
structure BeforeFlip (deployment : Deployment) (call : UpgradeCall) (start : World) (oldName : String)
    (first : Segment) (state : UpgradeState) : Prop where
  durable : Durable deployment state.world
  ordered : StreamOrdered state.world
  homely : Homely deployment start state.world
  recorded : Recorded state.world
  apart : Apart deployment call oldName state.world
  mirrored : PointersMirrored state.toHostedWorld
  accepted : (∃ error, state.program = .raised error) ∨ (canUpgrade call.old call.new).1 = true
  unnamed : ∀ key, state.host.keys.current key ≠ some call.newName
  pointer : ∀ value, state.world.current call.name = some value → value = oldName
  stage : CallStage deployment call oldName first state.toHostedWorld state.program

/-- Behind a flip the process holds the new segment or has yielded, and the old segment is left
alone. -/
structure AfterFlip (deployment : Deployment) (call : UpgradeCall) (oldName : String) (flip : World)
    (copy : Segment) (base : List InsertRequest) (state : UpgradeState) : Prop where
  apart : Apart deployment call oldName state.world
  mirrored : PointersMirrored state.toHostedWorld
  current : state.host.keys.current call.old.safeName = some call.newName
  linked : call.newName ∈ state.host.linked
  program : state.program.Within (Finishing oldName)
  run : ∀ run, state.world.run = some run →
    run.consumer.segments call.name = some call.newName ∨ run.yielded deployment call.name
  old : state.world.shared oldName = flip.shared oldName
  records : ∃ added, state.world.inserted = added ++ flip.inserted ∧
    ∀ record ∈ added, record.segment ≠ oldName
  new : LoggedOver deployment copy base state.world call.newName

/-- The new segment at the flip is a copy of the old one, and its rows are its base. -/
structure CopyFacts (deployment : Deployment) (call : UpgradeCall) (oldName : String)
    (first : Segment) (flip : World) (copy : Segment) (base : List InsertRequest) : Prop where
  sound : LayoutSound copy.layout
  table : computeRowOffsetTable deployment.externals.hashName call.new = .ok copy.layout.rowOffsetTable
  sized : rowSize deployment.externals.hashName call.new = .ok copy.layout.rowSize
  refined : (SegmentHistory.mk copy.memory base 0).Refined deployment.externals.hashId copy.layout
  copied : ∃ memory, flip.shared oldName = some { first with memory := memory } ∧
    Copied deployment.externals.hashName deployment.externals.castBits deployment.externals.hashId
      call.old call.new first.layout copy.layout memory copy.memory

theorem safeKey_name (call : UpgradeCall) : safeKey call.name = call.old.safeName := by
  simp [safeKey, UpgradeCall.name, FeatureSchema.safeName, decodeUtf8_encodeUtf8]

section Starts

variable {deployment : Deployment} {call : UpgradeCall} {start : UpgradeState}

theorem UpgradeState.Initial.points (initial : start.Initial deployment call) :
    PointersMirrored start.toHostedWorld := by
  intro name
  exact congrFun (congrArg World.current initial.mirrored).symm name

/-- The upgraded schema has one segment of its own. -/
theorem UpgradeState.Initial.oldSegment (initial : start.Initial deployment call) :
    ∃ oldName first, OldSegment deployment call start oldName first := by
  obtain ⟨oldName, first, capacity, maxIdBytes, header, calls, current, stored, schema, computed, _⟩ :=
    initial.world.segments _ initial.served
  refine ⟨oldName, first, ⟨List.mem_map_of_mem initial.served, current⟩, stored,
    computeLayout_sound computed, (computeLayout_parts computed).1, ?_, ?_, ?_⟩
  · intro same
    rw [same, initial.unused] at stored
    cases stored
  · intro name
    rw [initial.points]
    exact initial.unnamed _
  · intro name served other
    obtain ⟨entry, member, rfl⟩ := List.mem_map.mp served
    have apart : start.world.current entry.1 ≠ start.world.current call.name :=
      fun same => other (initial.world.segmentsDistinct _ member _ initial.served same)
    refine ⟨fun same => apart (same.trans current.symm), fun same => apart ?_⟩
    rw [initial.points, initial.points, same, safeKey_name]

end Starts

section Worlds

variable {deployment : Deployment} {call : UpgradeCall} {start world after : World} {oldName : String}

/-- A step keeps the set keys behind the executed inserts. -/
theorem SignalEffect.recorded (effect : SignalEffect deployment world after)
    (before : Recorded world) : Recorded after := by
  have more : ∀ {added : List InsertRecord}, after.inserted = added ++ world.inserted →
      ∀ {msgId}, (∃ record ∈ world.inserted, record.msgId = msgId) →
        ∃ record ∈ after.inserted, record.msgId = msgId := by
    intro added grown msgId ⟨record, member, named⟩
    rw [grown]
    exact ⟨record, List.mem_append_right _ member, named⟩
  cases effect with
  | idle inserted processed empty =>
      refine ⟨?_, ?_⟩
      · rw [processed, inserted]
        exact before.processed
      · intro run live msgId member
        rw [(empty run live).1] at member
        cases member
  | @kept run next live now inserted processed appliedIds batch =>
      refine ⟨?_, World.forRun now ?_⟩
      · rw [processed, inserted]
        exact before.processed
      · rw [appliedIds, inserted]
        exact before.applied run live
  | loaded now inserted processed appliedIds sorted =>
      refine ⟨?_, World.forRun now ?_⟩
      · rw [processed, inserted]
        exact before.processed
      · rw [appliedIds]
        exact fun msgId member => absurd member List.not_mem_nil
  | @applied run next origin msgId fields rest early outcome consumer shared live now phase returned
      turned inserted processed =>
      have held := before.applied run live
      rw [phase] at held
      refine ⟨?_, World.forRun now ?_⟩
      · rw [processed]
        exact fun other member => more inserted (before.processed other member)
      · rw [turned]
        intro other member
        cases outcome with
        | false => exact more inserted (held other member)
        | true =>
            rcases List.mem_append.mp member with old | new
            · exact more inserted (held other old)
            · obtain rfl := List.mem_singleton.mp new
              obtain ⟨record, executed⟩ :=
                Option.ne_none_iff_exists'.mp (executedInsert_of_true returned)
              have here : record ∈ (executedInsert deployment run.consumer world.shared other
                  fields).toList := by
                rw [executed]
                exact List.mem_cons_self
              rw [inserted]
              exact ⟨record, List.mem_append_left _ here, executedInsert_msgId here⟩
  | @signalled run keys live inserted among processed empty =>
      refine ⟨?_, ?_⟩
      · rw [processed, inserted]
        intro msgId member
        rcases List.mem_append.mp member with old | new
        · exact before.processed msgId old
        · exact before.applied run live msgId (among new)
      · intro run live msgId member
        rw [(empty run live).1] at member
        cases member

theorem World.Initial.recorded (initial : start.Initial deployment) : Recorded start := by
  refine ⟨?_, ?_⟩
  · rw [initial.processed]
    exact fun msgId member => absurd member List.not_mem_nil
  · rw [initial.run]
    exact fun run live => by cases live

/-- A step of the process leaves the other names apart. -/
theorem ConsumerStep.apart (step : ConsumerStep deployment world after)
    (before : Apart deployment call oldName world) : Apart deployment call oldName after := by
  have current := step.current
  refine ⟨by rw [current]; exact before.current, ?_, ?_⟩
  · intro run live
    cases step.handleEffect with
    | absent none => rw [none] at live; cases live
    | kept was now schemas segments buffers =>
        obtain rfl := Option.some.inj (now.symm.trans live)
        exact schemas.trans (before.schemas _ was)
    | fresh now consumer opened =>
        obtain rfl := Option.some.inj (now.symm.trans live)
        rw [consumer]
        rfl
    | reopened was now consumer =>
        obtain rfl := Option.some.inj (now.symm.trans live)
        rw [consumer, (reopenSegments_frame _ _ _ _ _).2.1]
        exact before.schemas _ was
  · intro run live name other
    cases step.handleEffect with
    | absent none => rw [none] at live; cases live
    | kept was now schemas segments buffers =>
        obtain rfl := Option.some.inj (now.symm.trans live)
        rw [segments]
        exact before.run _ was name other
    | fresh now consumer opened =>
        obtain rfl := Option.some.inj (now.symm.trans live)
        rw [consumer]
        unfold freshConsumer
        dsimp only
        split
        · rename_i served
          exact before.current name served other
        · exact ⟨by simp, by simp⟩
    | reopened was now consumer =>
        obtain rfl := Option.some.inj (now.symm.trans live)
        rw [consumer]
        rcases reopenSegments_handle deployment.schemas _ name with same | ⟨served, moved⟩
        · rw [same]
          exact before.run _ was name other
        · rw [moved]
          exact before.current name served other

/-- A step of the stream leaves the process and its records alone. -/
structure StreamTurn (world after : World) : Prop where
  run : after.run = world.run
  inserted : after.inserted = world.inserted

theorem EnvironmentStep.turn (step : EnvironmentStep deployment world after) :
    StreamTurn world after := by
  cases step <;> exact ⟨rfl, rfl⟩

end Worlds

section Before

variable {deployment : Deployment} {call : UpgradeCall} {start state : UpgradeState}
  {oldName : String} {first : Segment} {after : World}

/-- In front of the flip every process holds the old segment. -/
theorem BeforeFlip.held (before : BeforeFlip deployment call start.world oldName first state)
    (old : OldSegment deployment call start oldName first) {run : Run}
    (live : state.world.run = some run) : run.consumer.segments call.name = some oldName :=
  (before.homely.run run live).segments _ _ old.home

/-- The process writes to the old segment only when it applies a message of the schema. -/
theorem BeforeFlip.writes (before : BeforeFlip deployment call start.world oldName first state)
    (old : OldSegment deployment call start oldName first)
    (step : ConsumerStep deployment state.world after) :
    after.shared call.newName = state.world.shared call.newName ∧
      ((∀ run, state.world.run = some run → ¬ run.applies deployment call.name) →
        after.shared oldName = state.world.shared oldName) := by
  cases step.writes with
  | none shared inserted => exact ⟨by rw [shared], fun _ => by rw [shared]⟩
  | @wrote run origin msgId fields rest applied prepared target segment live phase insertion others
      records =>
      have handle := insertion.present.1
      have message := insertion.messageOf (before.apart.schemas run live)
      by_cases here : prepared.message.name = call.name
      · rw [here, before.held old live] at handle
        obtain rfl := Option.some.inj handle
        rw [here] at message
        exact ⟨others _ (Ne.symm old.different), fun idle =>
          absurd ⟨origin, msgId, fields, rest, applied, phase, message⟩ (idle run live)⟩
      · obtain ⟨notOld, notNew⟩ := before.apart.run run live _ here
        rw [handle] at notOld notNew
        exact ⟨others _ fun same => notNew (by rw [same]), fun _ =>
          others _ fun same => notOld (by rw [same])⟩

/-- A step of the process in front of the flip, with no message of the schema in the copy window. -/
theorem BeforeFlip.consumer (before : BeforeFlip deployment call start.world oldName first state)
    (initial : start.world.Initial deployment)
    (old : OldSegment deployment call start oldName first)
    (step : ConsumerStep deployment state.world after)
    (window : CopyWindow deployment.externals call state.program →
      ∀ run, state.world.run = some run → ¬ run.applies deployment call.name) :
    BeforeFlip deployment call start.world oldName first { state with world := after } := by
  have homely := step.homely initial before.durable before.homely
  obtain ⟨new, frozen⟩ := before.writes old step
  have relied : Beside call oldName state.toHostedWorld { state.toHostedWorld with world := after } := by
    refine ⟨rfl, rfl, new, fun segment present => ?_⟩
    obtain ⟨origin, was, _, _, stored, _, here, _⟩ := before.homely.logged _ _ old.home
    obtain ⟨again, memory, _, _, restored, _, later, _⟩ := homely.logged _ _ old.home
    obtain rfl := Option.some.inj (stored.symm.trans restored)
    obtain rfl := Option.some.inj (here.symm.trans present)
    exact ⟨memory, later⟩
  have whole : WorldStep deployment state.world after := .consumer step
  exact
    { durable := whole.durable before.durable
      ordered := whole.streamEffect.ordered before.ordered
      homely := homely
      recorded := (whole.signalEffect before.ordered).recorded before.recorded
      apart := step.apart before.apart
      mirrored := fun name => (congrFun step.current name).trans (before.mirrored name)
      accepted := before.accepted
      unnamed := before.unnamed
      pointer := by
        rw [step.current]
        exact before.pointer
      stage := before.stage.beside relied fun inside => frozen (window inside) }

theorem BeforeFlip.stream (before : BeforeFlip deployment call start.world oldName first state)
    (step : EnvironmentStep deployment state.world after)
    (current : after.current = state.world.current) (shared : after.shared = state.world.shared) :
    BeforeFlip deployment call start.world oldName first { state with world := after } := by
  have turn := step.turn
  have whole : WorldStep deployment state.world after := .environment step
  have relied : Beside call oldName state.toHostedWorld { state.toHostedWorld with world := after } := by
    refine ⟨rfl, rfl, congrFun shared _, fun segment present => ⟨segment.memory, ?_⟩⟩
    change after.shared oldName = _
    rw [shared]
    exact present
  exact
    { durable := whole.durable before.durable
      ordered := whole.streamEffect.ordered before.ordered
      homely := step.homely before.homely
      recorded := (whole.signalEffect before.ordered).recorded before.recorded
      apart := by
        refine ⟨?_, ?_, ?_⟩
        · rw [current]
          exact before.apart.current
        · rw [turn.run]
          exact before.apart.schemas
        · rw [turn.run]
          exact before.apart.run
      mirrored := fun name => (congrFun current name).trans (before.mirrored name)
      accepted := before.accepted
      unnamed := before.unnamed
      pointer := by
        rw [current]
        exact before.pointer
      stage := before.stage.beside relied fun _ => congrFun shared _ }

/-- A change of Redis and of the new segment that sets no pointer. -/
theorem BeforeFlip.put (before : BeforeFlip deployment call start.world oldName first state)
    (old : OldSegment deployment call start oldName first) {host : Host}
    {program : HostProgram Unit}
    (pointers : ∀ key, host.keys.current key = state.host.keys.current key ∨
      host.keys.current key = none)
    (others : ∀ name, name ≠ call.newName → host.objects name = state.world.shared name)
    (accepted : (∃ error, program = .raised error) ∨ (canUpgrade call.old call.new).1 = true)
    (stage : CallStage deployment call oldName first (state.put host) program) :
    BeforeFlip deployment call start.world oldName first
      { toHostedWorld := state.put host, program := program } := by
  have names : ∀ name, (state.put host).world.current name = state.world.current name ∨
      (state.put host).world.current name = none := by
    intro name
    rw [before.mirrored name]
    exact pointers _
  have unset : ∀ {name : List UInt8} {value : String}, state.world.current name ≠ some value →
      (state.put host).world.current name ≠ some value := by
    intro name value different
    rcases names name with same | none
    · rw [same]
      exact different
    · rw [none]
      exact (Option.some_ne_none value).symm
  refine
    { durable := ⟨before.durable.entries, before.durable.acked, before.durable.run⟩
      ordered := ⟨before.ordered.sorted, before.ordered.positive, before.ordered.recent,
        fun group present =>
          let held := before.ordered.group group present
          ⟨held.cursor, held.sorted, held.known, held.bounded, held.tracked⟩⟩
      homely := ⟨?_, ?_, before.homely.run, before.homely.records⟩
      recorded := ⟨before.recorded.processed, before.recorded.applied⟩
      apart := ⟨?_, before.apart.schemas, before.apart.run⟩
      mirrored := fun name => rfl
      accepted := accepted
      unnamed := ?_
      pointer := ?_
      stage := stage }
  · intro name segmentName home
    refine (before.homely.logged name segmentName home).congr (others segmentName ?_) rfl
    intro same
    exact old.unnamed name (same ▸ home.2)
  · intro name schema served
    rcases names name with same | none
    · rw [same]
      rcases before.homely.current name schema served with
        absent | home | ⟨segmentName, segment, points, stored, failed⟩
      · exact Or.inl absent
      · exact Or.inr (Or.inl home)
      · refine Or.inr (Or.inr ⟨segmentName, segment, points, (others segmentName ?_).trans stored,
          failed⟩)
        intro new
        rw [before.mirrored name, new] at points
        exact before.unnamed _ points
    · exact Or.inl none
  · intro name served other
    obtain ⟨notOld, notNew⟩ := before.apart.current name served other
    exact ⟨unset notOld, unset notNew⟩
  · intro key
    rcases pointers key with same | none
    · rw [show (state.put host).host.keys.current key = _ from same]
      exact before.unnamed key
    · rw [show (state.put host).host.keys.current key = _ from none]
      exact (Option.some_ne_none _).symm
  · intro value points
    rcases names call.name with same | none
    · exact before.pointer value (same.symm.trans points)
    · rw [show (state.put host).world.current call.name = _ from none] at points
      cases points

/-- Behind the copy the new segment has the rows of the old one. -/
theorem RowsLoaded.facts (loaded : RowsLoaded deployment call oldName first state.toHostedWorld)
    (before : BeforeFlip deployment call start.world oldName first state)
    (old : OldSegment deployment call start oldName first)
    (accepted : (canUpgrade call.old call.new).1 = true)
    (strings : ∀ ids array, deployment.externals.stringArray ids = some array → array = .ofList ids) :
    ∃ copy base, CopyFacts deployment call oldName first state.world copy base ∧
      state.world.shared call.newName = some copy := by
  obtain ⟨memory, table, layout, header, count, after, present, built, ⟨capacity, computed⟩, length,
    ran, stored⟩ := loaded.loaded
  obtain ⟨origin, was, base, lost, start, sound, here, refined⟩ := before.homely.logged _ _ old.home
  obtain rfl := Option.some.inj (old.stored.symm.trans start)
  have same : memory = was := by
    have both := Option.some.inj (present.symm.trans here)
    exact congrArg Segment.memory both
  subst same
  have parts := computeLayout_parts computed
  have sameIdBytes : first.layout.maxIdBytes = layout.maxIdBytes := by
    have kept := parts.2.2.2.2.2
    omega
  obtain ⟨copied, rows⟩ := copied_of_loaded refined sound accepted old.table computed sameIdBytes
    strings built length ran
  obtain ⟨log, copiedRefined⟩ := copied.refined refined.consistent rows
  exact ⟨⟨call.new, layout, after⟩, log,
    ⟨computeLayout_sound computed, parts.1, parts.2.1, copiedRefined, memory, present, copied⟩, stored⟩

/-- No insert reached the new segment in front of the flip. -/
theorem BeforeFlip.unwritten (before : BeforeFlip deployment call start.world oldName first state)
    (old : OldSegment deployment call start oldName first) :
    segmentLog state.world.inserted call.newName = [] := by
  rw [segmentLog, List.map_eq_nil_iff, List.filter_eq_nil_iff]
  intro record member here
  obtain ⟨entry, _, message, recordOf⟩ := before.homely.records record member
  have points := recordOf.home.2
  rw [of_decide_eq_true here] at points
  exact old.unnamed _ points

/-- The flip of a yielded process starts the second phase. -/
theorem BeforeFlip.flipped (before : BeforeFlip deployment call start.world oldName first state)
    (old : OldSegment deployment call start oldName first)
    (loaded : RowsLoaded deployment call oldName first state.toHostedWorld)
    {copy : Segment} {base : List InsertRequest}
    (facts : CopyFacts deployment call oldName first state.world copy base)
    (stored : state.world.shared call.newName = some copy)
    (yielded : ∀ run, state.world.run = some run → run.yielded deployment call.name)
    {program : HostProgram Unit} (left : program.Within (Finishing oldName)) :
    AfterFlip deployment call oldName state.world copy base
      { toHostedWorld := state.put (state.seen.flipped call), program := program } where
  apart := by
    refine ⟨?_, before.apart.schemas, before.apart.run⟩
    intro name served other
    have same : (state.put (state.seen.flipped call)).world.current name =
        state.world.current name := by
      rw [before.mirrored name]
      exact Function.update_of_ne (old.elsewhere name served other).2 _ _
    change (state.put (state.seen.flipped call)).world.current name ≠ _ ∧
      (state.put (state.seen.flipped call)).world.current name ≠ _
    rw [same]
    exact before.apart.current name served other
  mirrored := fun name => rfl
  current := Function.update_self _ _ _
  linked := loaded.linked
  program := left
  run := fun run live => Or.inr (yielded run live)
  old := rfl
  records := ⟨[], rfl, fun record member => absurd member List.not_mem_nil⟩
  new := by
    refine ⟨copy.memory, 0, stored, ?_⟩
    have none : segmentLog state.world.inserted call.newName = [] := before.unwritten old
    change (SegmentHistory.mk copy.memory (segmentLog state.world.inserted call.newName ++ base)
      0).Refined _ _
    rw [none, List.nil_append]
    exact facts.refined

/-- An orderly step in front of the flip stays there, or flips to a copy of the old segment. -/
theorem BeforeFlip.step {after : UpgradeState}
    (before : BeforeFlip deployment call start.world oldName first state)
    (initial : start.world.Initial deployment)
    (old : OldSegment deployment call start oldName first) (answered : call.flip ≠ .raisedAfter)
    (strings : ∀ ids array, deployment.externals.stringArray ids = some array → array = .ofList ids)
    (step : OrderlyStep deployment call state after) :
    BeforeFlip deployment call start.world oldName first after ∨
      ∃ copy base, CopyFacts deployment call oldName first state.world copy base ∧
        AfterFlip deployment call oldName state.world copy base after := by
  obtain ⟨step, window, flip⟩ := step
  cases step with
  | consumer step once => exact Or.inl (before.consumer initial old step window)
  | stream step current shared pauseKeys => exact Or.inl (before.stream step current shared)
  | upkeep keys lock pause current =>
      refine Or.inl (before.put old (fun key => Or.inl (congrFun current key)) (fun _ _ => rfl)
        before.accepted (before.stage.beside ⟨current, rfl, rfl, fun segment present => ?_⟩
          fun _ => rfl))
      exact ⟨segment.memory, present⟩
  | @upgrade effect next left =>
      have accepted : (canUpgrade call.old call.new).1 = true := by
        rcases before.accepted with ⟨error, raised⟩ | accepted
        · rw [left] at raised
          cases raised
        · exact accepted
      have stage := before.stage
      rw [left] at stage
      cases stage.turn old.different answered with
      | onward stage current others =>
          exact Or.inl (before.put old (fun key => Or.inl (congrFun current key)) others
            (Or.inr accepted) stage)
      | retired left parting =>
          refine Or.inl (before.put old (fun key => ?_) (fun name _ => congrFun parting.objects name)
            (Or.inr accepted) (.retired left))
          exact (parting.current key).imp_right fun removed => removed.2
      | flipped loaded flipped left =>
          rw [flipped] at flip ⊢
          obtain ⟨copy, base, facts, stored⟩ := loaded.facts before old accepted strings
          refine Or.inr ⟨copy, base, facts, before.flipped old loaded facts stored (flip ?_ ?_) left⟩
          · rw [before.mirrored]
            exact before.unnamed _
          · change Function.update _ _ _ (safeKey call.name) = _
            rw [safeKey_name]
            exact Function.update_self _ _ _

end Before

section After

variable {deployment : Deployment} {call : UpgradeCall} {state : UpgradeState} {oldName : String}
  {flip : World} {copy : Segment} {base : List InsertRequest}

theorem AfterFlip.points (later : AfterFlip deployment call oldName flip copy base state) :
    state.world.current call.name = some call.newName := by
  rw [later.mirrored, safeKey_name]
  exact later.current

theorem AfterFlip.opened (later : AfterFlip deployment call oldName flip copy base state)
    (served : call.name ∈ deployment.schemas.map Prod.fst) :
    (freshConsumer deployment state.world.current).segments call.name = some call.newName := by
  unfold freshConsumer
  dsimp only
  rw [if_pos served]
  exact later.points

/-- Behind the flip the process writes to other segments than the old one. -/
theorem AfterFlip.spares {after : World}
    (later : AfterFlip deployment call oldName flip copy base state)
    (different : oldName ≠ call.newName) (step : ConsumerStep deployment state.world after) :
    after.shared oldName = state.world.shared oldName ∧
      ∃ added, after.inserted = added ++ state.world.inserted ∧
        ∀ record ∈ added, record.segment ≠ oldName := by
  cases step.writes with
  | none shared inserted =>
      exact ⟨by rw [shared], [], inserted, fun record member => absurd member List.not_mem_nil⟩
  | @wrote run origin msgId fields rest applied prepared target segment live phase insertion others
      records =>
      have handle := insertion.present.1
      have message := insertion.messageOf (later.apart.schemas run live)
      have elsewhere : target ≠ oldName := by
        intro same
        by_cases here : prepared.message.name = call.name
        · rcases later.run run live with held | detached | ⟨_, idle⟩
          · rw [here, held] at handle
            exact different (same.symm.trans (Option.some.inj handle.symm))
          · rw [phase] at detached
            cases detached
          · rw [here] at message
            refine idle (msgId, fields) ?_ message
            rw [phase]
            exact List.mem_cons_self
        · exact (later.apart.run run live _ here).1 (by rw [handle, same])
      obtain ⟨added, grown, targets⟩ := records
      exact ⟨others _ (Ne.symm elsewhere), added, grown, fun record member same =>
        elsewhere ((targets record member).symm.trans same)⟩

/-- A process that holds the new segment goes on holding it. -/
theorem AfterFlip.keeps {after : World}
    (later : AfterFlip deployment call oldName flip copy base state)
    (served : call.name ∈ deployment.schemas.map Prod.fst)
    (effect : HandleEffect deployment state.world after) {run next : Run}
    (live : state.world.run = some run) (now : after.run = some next)
    (held : run.consumer.segments call.name = some call.newName) :
    next.consumer.segments call.name = some call.newName := by
  cases effect with
  | absent none =>
      rw [none] at now
      cases now
  | kept was becomes schemas segments buffers =>
      obtain rfl := Option.some.inj (was.symm.trans live)
      obtain rfl := Option.some.inj (becomes.symm.trans now)
      rw [segments]
      exact held
  | fresh becomes consumer opened =>
      obtain rfl := Option.some.inj (becomes.symm.trans now)
      rw [consumer]
      exact later.opened served
  | reopened was becomes consumer =>
      obtain rfl := Option.some.inj (was.symm.trans live)
      obtain rfl := Option.some.inj (becomes.symm.trans now)
      rw [consumer]
      rcases reopenSegments_handle deployment.schemas _ call.name with same | ⟨_, moved⟩
      · exact same.trans held
      · exact moved.trans later.points

/-- Behind the flip the process stays yielded until it holds the new segment. -/
theorem AfterFlip.holds {after : World}
    (later : AfterFlip deployment call oldName flip copy base state)
    (served : call.name ∈ deployment.schemas.map Prod.fst)
    (step : ConsumerStep deployment state.world after)
    (once : ∀ run, state.world.run = some run → run.reader = .ended →
      ∀ next, after.run = some next → next.reader = .ended) :
    ∀ run, after.run = some run →
      run.consumer.segments call.name = some call.newName ∨ run.yielded deployment call.name := by
  intro next now
  cases @ConsumerStep.yieldEffect deployment _ _ call.name step once with
  | absent none =>
      rw [none] at now
      cases now
  | @kept run _ live becomes stays =>
      obtain rfl := Option.some.inj (becomes.symm.trans now)
      exact (later.run run live).imp (later.keeps served step.handleEffect live becomes) stays
  | fresh becomes consumer =>
      obtain rfl := Option.some.inj (becomes.symm.trans now)
      rw [consumer]
      exact Or.inl (later.opened served)
  | @reopened run _ live becomes consumer reader =>
      obtain rfl := Option.some.inj (becomes.symm.trans now)
      rcases @reopenSegments_follows deployment.externals state.world.current state.world.shared
        deployment.schemas run.consumer with stopped | follows
      · rw [← consumer] at stopped
        refine Or.inr (Or.inr ⟨stopped, ?_⟩)
        rw [reader]
        exact fun entry member => absurd member List.not_mem_nil
      · rw [consumer]
        exact Or.inl ((follows call.name (Or.inl served)).trans later.points)

/-- A step of Redis, or of the rest of the call, behind the flip. -/
theorem AfterFlip.put (later : AfterFlip deployment call oldName flip copy base state)
    (different : oldName ≠ call.newName) {host : Host} {program : HostProgram Unit}
    (finishing : Finishing oldName state.seen host) (left : program.Within (Finishing oldName)) :
    AfterFlip deployment call oldName flip copy base
      { toHostedWorld := state.put host, program := program } where
  apart := by
    refine ⟨?_, later.apart.schemas, later.apart.run⟩
    intro name served other
    have points : (state.put host).world.current name = state.world.current name ∨
        (state.put host).world.current name = none := by
      rw [later.mirrored name]
      exact (finishing.current (safeKey name)).imp_right fun removed => removed.2
    change (state.put host).world.current name ≠ _ ∧ (state.put host).world.current name ≠ _
    rcases points with same | none
    · rw [same]
      exact later.apart.current name served other
    · rw [none]
      exact ⟨by simp, by simp⟩
  mirrored := fun name => rfl
  current := by
    rcases finishing.current call.old.safeName with same | ⟨named, _⟩
    · exact same.trans later.current
    · exact absurd (Option.some.inj (named.symm.trans later.current)) different
  linked := by
    change call.newName ∈ host.linked
    rw [finishing.linked]
    exact later.linked
  program := left
  run := later.run
  old := (congrFun finishing.objects oldName).trans later.old
  records := later.records
  new := later.new.congr (congrFun finishing.objects _) rfl

/-- Every step behind the flip stays behind it. -/
theorem AfterFlip.step {after : UpgradeState}
    (later : AfterFlip deployment call oldName flip copy base state)
    (served : call.name ∈ deployment.schemas.map Prod.fst) (different : oldName ≠ call.newName)
    (sound : LayoutSound copy.layout) (step : UpgradeStep deployment state after) :
    AfterFlip deployment call oldName flip copy base after := by
  cases step with
  | consumer step once =>
      obtain ⟨spared, added, grown, others⟩ := later.spares different step
      obtain ⟨earlier, recorded, untouched⟩ := later.records
      exact
        { apart := step.apart later.apart
          mirrored := fun name => (congrFun step.current name).trans (later.mirrored name)
          current := later.current
          linked := later.linked
          program := later.program
          run := later.holds served step once
          old := spared.trans later.old
          records := by
            refine ⟨added ++ earlier, ?_, ?_⟩
            · rw [List.append_assoc, ← recorded]
              exact grown
            · intro record member
              exact (List.mem_append.mp member).elim (others record) (untouched record)
          new := step.segmentEffect.loggedOver sound later.new }
  | @stream after step current shared pauseKeys =>
      have turn := step.turn
      exact
        { apart := by
            refine ⟨?_, ?_, ?_⟩
            · rw [current]
              exact later.apart.current
            · rw [turn.run]
              exact later.apart.schemas
            · rw [turn.run]
              exact later.apart.run
          mirrored := fun name => (congrFun current name).trans (later.mirrored name)
          current := later.current
          linked := later.linked
          program := later.program
          run := by
            rw [turn.run]
            exact later.run
          old := (congrFun shared oldName).trans later.old
          records := by
            rw [turn.inserted]
            exact later.records
          new := later.new.congr (congrFun shared _) turn.inserted }
  | upkeep keys lock pause current =>
      exact later.put different ⟨⟨fun key => Or.inl (congrFun current key), rfl⟩, rfl⟩ later.program
  | upgrade left =>
      have program := later.program
      rw [left] at program
      exact later.put different (program state.seen).1 (program state.seen).2

end After

end Quorin
