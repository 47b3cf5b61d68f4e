import Quorin.Proof.Upgrade.UpgradeOutcome
import Quorin.Proof.Upgrade.UpgradePhases

namespace Quorin

open ByteMemory FaultyCalls

/-- The row at an address is migrated from the row of the newest insert into the old segment. -/
def ShowsMigrated (deployment : Deployment) (call : UpgradeCall) (oldName : String) (flip : World)
    (entityId : String) (segment : Segment) (address : Nat) : Prop :=
  ∃ old oldAddress newest, flip.shared oldName = some old ∧
    newestRecord flip.inserted (oldName, entityId) = some newest ∧
    (lookup deployment.externals.hashId old.layout entityId).result old.memory =
      .ok (some oldAddress) ∧
    old.memory.read oldAddress old.layout.rowSize = newest.request.rowData ∧
    MigratedRow deployment.externals.hashName deployment.externals.castBits call.old call.new old.layout
      segment.layout old.memory segment.memory oldAddress address

/-- The new segment has the newest row inserted there, or the migrated newest row of the old
segment. -/
def Reflected (deployment : Deployment) (call : UpgradeCall) (oldName : String) (flip now : World)
    (entityId : String) : Prop :=
  ∃ segment address, now.shared call.newName = some segment ∧
    (lookup deployment.externals.hashId segment.layout entityId).result segment.memory =
      .ok (some address) ∧
    ((∃ record, newestRecord now.inserted (call.newName, entityId) = some record ∧
        segment.memory.read address segment.layout.rowSize = record.request.rowData) ∨
      newestRecord now.inserted (call.newName, entityId) = none ∧
        ShowsMigrated deployment call oldName flip entityId segment address)

/-- Behind the flip the new segment is current and reflects every message with an earlier key. -/
structure KeepsUpdates (deployment : Deployment) (call : UpgradeCall) (oldName : String)
    (flip now : UpgradeState) : Prop where
  current : now.world.current call.name = some call.newName
  linked : call.newName ∈ now.host.linked
  reflected : ∀ entry ∈ flip.world.produced, entry.id ∈ flip.world.processed → ∀ message,
    decodeMessage deployment.externals deployment.schemas entry.fields = .ok (some message) →
      message.name = call.name →
        Reflected deployment call oldName flip.world now.world message.entityId
  shared : now.world.shared oldName = flip.world.shared oldName
  inserted : ∃ added, now.world.inserted = added ++ flip.world.inserted ∧
    ∀ record ∈ added, record.segment ≠ oldName

/-- No update is lost in the runs of a step relation that flip the pointer. -/
def LosesNoUpdate (step : UpgradeState → UpgradeState → Prop) (deployment : Deployment)
    (call : UpgradeCall) (start : UpgradeState) : Prop :=
  ∀ before after now oldName, Relation.ReflTransGen step start before → step before after →
    before.world.current call.name = some oldName → oldName ≠ call.newName →
    after.world.current call.name = some call.newName → Relation.ReflTransGen step after now →
      KeepsUpdates deployment call oldName before now

section Phases

variable {deployment : Deployment} {call : UpgradeCall} {start state : UpgradeState}
  {oldName : String} {first : Segment}

theorem UpgradeState.Initial.beforeFlip (initial : start.Initial deployment call)
    (old : OldSegment deployment call start oldName first) :
    BeforeFlip deployment call start.world oldName first start := by
  have pointing : Pointing call oldName first start.toHostedWorld := by
    refine ⟨?_, first.memory, old.stored⟩
    rw [← safeKey_name, ← initial.points]
    exact old.home.2
  have split := upgradeSchema_split deployment.externals call
  rw [← initial.program] at split
  refine
    { durable := initial.world.durable
      ordered := initial.world.streamOrdered
      homely := initial.world.homely
      recorded := initial.world.recorded
      apart := ⟨?_, ?_, ?_⟩
      mirrored := initial.points
      accepted := split.imp_right fun split => split.2.1
      unnamed := initial.unnamed
      pointer := fun value points => (Option.some.inj (old.home.2.symm.trans points)).symm
      stage := ?_ }
  · exact fun name served other => ⟨(old.elsewhere name served other).1, old.unnamed name⟩
  · rw [initial.world.run]
    exact fun run live => by cases live
  · rw [initial.world.run]
    exact fun run live => by cases live
  · rcases split with ⟨error, raised⟩ | ⟨_, _, left⟩
    · rw [raised]
      exact .retired trivial
    · exact .opening _ left (openingSteps_open old.different pointing)

/-- A state behind a flip. -/
def Flipped (deployment : Deployment) (call : UpgradeCall) (oldName : String) (first : Segment)
    (flip : World) (state : UpgradeState) : Prop :=
  ∃ copy base, CopyFacts deployment call oldName first flip copy base ∧
    AfterFlip deployment call oldName flip copy base state

theorem Flipped.step {flip : World} {after : UpgradeState}
    (flipped : Flipped deployment call oldName first flip state)
    (old : OldSegment deployment call start oldName first)
    (step : UpgradeStep deployment state after) :
    Flipped deployment call oldName first flip after := by
  obtain ⟨copy, base, facts, later⟩ := flipped
  exact ⟨copy, base, facts, later.step old.home.1 old.different facts.sound step⟩

/-- An orderly run is in front of the flip or behind it. -/
theorem orderly_run (initial : start.Initial deployment call)
    (old : OldSegment deployment call start oldName first) (answered : call.flip ≠ .raisedAfter)
    (strings : ∀ ids array, deployment.externals.stringArray ids = some array → array = .ofList ids)
    (steps : Relation.ReflTransGen (OrderlyStep deployment call) start state) :
    BeforeFlip deployment call start.world oldName first state ∨
      ∃ flip, Flipped deployment call oldName first flip state := by
  induction steps with
  | refl => exact Or.inl (initial.beforeFlip old)
  | tail _ step ih =>
      rcases ih with before | ⟨flip, flipped⟩
      · exact (before.step initial.world old answered strings step).imp_right fun flipped => ⟨_, flipped⟩
      · exact Or.inr ⟨flip, flipped.step old step.step⟩

/-- A run behind the flip stays behind it. -/
theorem flipped_run {flip : World} {now : UpgradeState}
    (flipped : Flipped deployment call oldName first flip state)
    (old : OldSegment deployment call start oldName first)
    (steps : Relation.ReflTransGen (OrderlyStep deployment call) state now) :
    Flipped deployment call oldName first flip now := by
  induction steps with
  | refl => exact flipped
  | tail _ step ih => exact ih.step old step.step

/-- A key that was set for a message of the schema belongs to an insert into the old segment. -/
theorem BeforeFlip.processed (before : BeforeFlip deployment call start.world oldName first state)
    (old : OldSegment deployment call start oldName first) {entry : StreamEntry}
    (member : entry ∈ state.world.produced) (processed : entry.id ∈ state.world.processed)
    {message : DecodedMessage}
    (decoded : decodeMessage deployment.externals deployment.schemas entry.fields = .ok (some message))
    (named : message.name = call.name) :
    ∃ newest, newestRecord state.world.inserted (oldName, message.entityId) = some newest := by
  obtain ⟨record, inserted, same⟩ := before.recorded.processed entry.id processed
  obtain ⟨other, stored, decodedAs, recordOf⟩ := before.homely.records record inserted
  obtain rfl := before.ordered.unique stored member (recordOf.named.trans same)
  obtain rfl : decodedAs = message :=
    Option.some.inj (Except.ok.inj (recordOf.decoded.symm.trans decoded))
  have here : record.segment = oldName := by
    have home := recordOf.home.2
    rw [named, old.home.2] at home
    exact (Option.some.inj home).symm
  have found : (newestRecord state.world.inserted (oldName, decodedAs.entityId)).isSome := by
    rw [newestRecord, List.find?_isSome]
    exact ⟨record, inserted, by simp [InsertRecord.target, here, recordOf.entity]⟩
  exact Option.isSome_iff_exists.mp found

/-- Without an insert of the entity the newest row is the one of the base. -/
theorem lastRow_base {inserted : List InsertRecord} {segmentName entityId : String}
    (none : newestRecord inserted (segmentName, entityId) = none) (base : List InsertRequest) :
    lastRow (segmentLog inserted segmentName ++ base) entityId = lastRow base entityId := by
  have missing : (segmentLog inserted segmentName).find? (fun request => request.entityId = entityId) =
      Option.none := by
    rw [List.find?_eq_none]
    intro request member same
    obtain ⟨record, stored, rfl⟩ := List.mem_map.mp member
    obtain ⟨inside, here⟩ := List.mem_filter.mp stored
    rw [newestRecord, List.find?_eq_none] at none
    refine none record inside ?_
    simp [InsertRecord.target, of_decide_eq_true here, of_decide_eq_true same]
  rw [lastRow, lastRow, List.find?_append, missing]
  rfl

/-- The migrated rows stay where no newer row was inserted. -/
theorem Flipped.shows {flip now : UpgradeState}
    (flipped : Flipped deployment call oldName first flip.world now)
    (before : BeforeFlip deployment call start.world oldName first flip)
    (old : OldSegment deployment call start oldName first) {entityId : String}
    {newest : InsertRecord}
    (search : newestRecord flip.world.inserted (oldName, entityId) = some newest) :
    Reflected deployment call oldName flip.world now.world entityId := by
  obtain ⟨copy, base, facts, later⟩ := flipped
  have logged := later.new
  cases written : newestRecord now.world.inserted (call.newName, entityId) with
  | some record =>
      obtain ⟨segment, address, present, found, row⟩ :=
        logged.newest facts.sound (show _ = some record by
          simpa [newestRecord, InsertRecord.target] using written)
      exact ⟨segment, address, present, found, Or.inl ⟨record, written, row⟩⟩
  | none =>
      obtain ⟨segment, oldAddress, stored, oldFound, oldRow⟩ :=
        (before.homely.logged _ _ old.home).newest (show _ = some newest by
          simpa [newestRecord, InsertRecord.target] using search)
      obtain ⟨memory, here, copied⟩ := facts.copied
      obtain rfl := Option.some.inj (stored.symm.trans here)
      obtain ⟨copyAddress, copyFound, migrated⟩ := copied.migrated entityId oldAddress oldFound
      obtain ⟨index, inside, placed, _⟩ :=
        (lookup_located facts.sound facts.refined.consistent).mp copyFound
      have base : ∃ row, lastRow base entityId = some row := by
        have row := contents_ne_none.mpr ⟨index, inside, placed⟩
        rw [show contents copy.layout copy.memory = _ from facts.refined.rows] at row
        exact Option.ne_none_iff_exists'.mp row
      obtain ⟨row, based⟩ := base
      obtain ⟨again, copyAgain, copyRow⟩ :=
        (facts.refined.behavesAsMap facts.sound).present entityId row based
      obtain rfl : again = copyAddress := by
        have both := (congrArg Prod.fst copyAgain).symm.trans copyFound
        exact Option.some.inj (Except.ok.inj both)
      obtain ⟨filled, lost, present, refined⟩ := logged
      obtain ⟨address, found, nowRow⟩ := (refined.behavesAsMap facts.sound).present entityId row
        ((lastRow_base written _).trans based)
      exact ⟨_, address, present, congrArg Prod.fst found, Or.inr ⟨written, _, oldAddress, newest, stored,
        search, oldFound, oldRow, migrated.moved facts.table facts.sized (nowRow.trans copyRow.symm)⟩⟩

end Phases

/-- No update is lost when the copy and the flip do not overtake the process. -/
theorem orderly_losesNoUpdate {deployment : Deployment} {call : UpgradeCall} {start : UpgradeState}
    (initial : start.Initial deployment call)
    (strings : ∀ ids array, deployment.externals.stringArray ids = some array → array = .ofList ids)
    (answered : call.flip ≠ .raisedAfter) :
    LosesNoUpdate (OrderlyStep deployment call) deployment call start := by
  intro before after now oldName steps step points different flips behind
  obtain ⟨name, first, old⟩ := initial.oldSegment
  have front : BeforeFlip deployment call start.world name first before := by
    rcases orderly_run initial old answered strings steps with front | ⟨flip, _, _, _, later⟩
    · exact front
    · rw [later.points] at points
      exact absurd (Option.some.inj points).symm different
  obtain rfl := front.pointer oldName points
  have flipped : Flipped deployment call oldName first before.world after := by
    rcases front.step initial.world old answered strings step with still | flipped
    · rw [still.mirrored] at flips
      exact absurd flips (still.unnamed _)
    · exact flipped
  have reached := flipped_run flipped old behind
  obtain ⟨copy, base, facts, later⟩ := id reached
  refine ⟨later.points, later.linked, ?_, later.old, later.records⟩
  intro entry member processed message decoded named
  obtain ⟨newest, search⟩ := front.processed old member processed decoded named
  exact reached.shows front old search

/-- The place of a world under the keys and the segments of a host. -/
def hosted (world : World) (host : Host) (program : HostProgram Unit) : UpgradeState where
  world := world.under host
  host := host
  program := program

/-- A step of the call, beside a process that stands still. -/
structure CallStep (deployment : Deployment) (run : Option Run) (before after : UpgradeState) : Prop where
  step : UpgradeStep deployment before after
  run : before.world.run = run

/-- A step of the call leaves the stream to the others. -/
structure SameStream (before after : Host) : Prop where
  pending : after.pending = before.pending
  liveness : after.liveness = before.liveness

section Alone

variable {deployment : Deployment} {call : UpgradeCall} {α : Type}

/-- Without a process every step of the call is orderly. -/
theorem CallStep.orderly {before after : UpgradeState} (step : CallStep deployment none before after) :
    OrderlyStep deployment call before after := by
  refine ⟨step.step, fun _ run live => ?_, fun _ _ run live => ?_⟩
  · rw [step.run] at live
    cases live
  · rw [step.run] at live
    cases live

theorem hosted_seen {world : World} {host : Host} {program : HostProgram Unit}
    (synced : SameStream (hosted world host program).seen host) :
    (hosted world host program).seen = host := by
  change { host with
    pending := (hosted world host program).seen.pending
    liveness := (hosted world host program).seen.liveness } = host
  rw [← synced.pending, ← synced.liveness]

/-- The call runs a part of it alone. -/
theorem call_alone (world : World) (part : HostProgram α) {rest : α → HostProgram Unit} {value : α}
    {host final : Host} (within : part.Within SameStream)
    (synced : SameStream (hosted world host (.done ())).seen host)
    (ran : part.run host = (.ok value, final)) :
    Relation.ReflTransGen (CallStep deployment world.run) (hosted world host (part.bind rest))
      (hosted world final (rest value)) ∧
    SameStream (hosted world final (.done ())).seen final := by
  induction part generalizing host with
  | done value =>
      cases ran
      exact ⟨.refl, synced⟩
  | raised error => cases ran
  | step effect next ih =>
      obtain ⟨same, later⟩ := within host
      obtain ⟨steps, last⟩ := @ih host (effect host) later
        ⟨same.pending.trans synced.pending, same.liveness.trans synced.liveness⟩ ran
      refine ⟨.head ⟨?_, rfl⟩ steps, last⟩
      have seen : (hosted world host (.done ())).seen = host := hosted_seen synced
      have step := @UpgradeStep.upgrade deployment
        (hosted world host ((Attempt.step effect next).bind rest)) effect
        (fun host => (next host).bind rest) rfl
      rw [show (hosted world host ((Attempt.step effect next).bind rest)).seen = host from seen]
        at step
      exact step

/-- The call begins a part of it beside a process that moved on. -/
theorem call_resumed {state : UpgradeState} {effect : Host → Host} {next : Host → HostProgram α}
    {rest : α → HostProgram Unit} {value : α} {final : Host}
    (left : state.program = (Attempt.step effect next).bind rest)
    (within : (Attempt.step effect next).Within SameStream)
    (ran : (Attempt.step effect next).run state.seen = (.ok value, final)) :
    Relation.ReflTransGen (CallStep deployment state.world.run) state
      (hosted state.world final (rest value)) ∧
    SameStream (hosted state.world final (.done ())).seen final := by
  obtain ⟨same, later⟩ := within state.seen
  obtain ⟨steps, last⟩ := @call_alone deployment _ state.world (next state.seen) rest value
    (effect state.seen) final later ⟨same.pending, same.liveness⟩ ran
  exact ⟨.head ⟨.upgrade left, rfl⟩ steps, last⟩

end Alone

section Copying

variable {deployment : Deployment} {call : UpgradeCall} {externals : Externals}

theorem SameStream.refl (host : Host) : SameStream host host := ⟨rfl, rfl⟩

theorem openOld_sameStream : (openOld externals call).Within SameStream := by
  apply (Attempt.within_call fun host => ⟨rfl, rfl⟩).bind
  intro _
  apply (Attempt.within_call SameStream.refl).bind
  intro current
  split
  · trivial
  · apply Attempt.within_inspect SameStream.refl
    intro host
    split
    · trivial
    · split
      · trivial
      · split
        · trivial
        · exact Attempt.within_call fun host => ⟨rfl, rfl⟩

theorem create_sameStream {create' : CreateCall} : (create externals create').Within SameStream := by
  unfold create
  split
  · trivial
  · split
    · trivial
    · intro host
      refine ⟨?_, ?_⟩
      · dsimp only [Host.link]
        split <;> exact ⟨rfl, rfl⟩
      · dsimp only
        split
        · trivial
        · apply Attempt.Within.onError
          · unfold registerSegment
            split
            · trivial
            · exact fun host => ⟨⟨rfl, rfl⟩, Attempt.within_call fun host => ⟨rfl, rfl⟩⟩
          · exact fun host => ⟨⟨rfl, rfl⟩, trivial⟩

theorem prepareNew_sameStream {oldName : String} {old : Segment} :
    (prepareNew externals call oldName old).Within SameStream := by
  apply (Attempt.within_call SameStream.refl).bind
  intro current
  split
  · trivial
  · apply Attempt.within_inspect SameStream.refl
    exact fun host => create_sameStream.bind fun _ => trivial

theorem copyRows_sameStream {oldName : String} {old : Segment} {occupied : Nat} :
    (copyRows externals call oldName old occupied).Within SameStream := by
  apply Attempt.within_inspect SameStream.refl
  intro host
  split
  · trivial
  · apply Attempt.within_inspect SameStream.refl
    intro host
    split
    · trivial
    · intro host
      refine ⟨⟨rfl, rfl⟩, ?_⟩
      dsimp only
      split
      · trivial
      · split <;> trivial

/-- What is left around the copy goes on from its result. -/
theorem aroundCopy_attempt {oldName : String} (copy : HostProgram Unit) :
    aroundCopy call oldName copy =
      copy.attempt.bind fun result => aroundCopy call oldName (Attempt.ofExcept result) := by
  induction copy with
  | done value => rfl
  | raised error => rfl
  | step effect next ih => exact congrArg (Attempt.step effect) (funext ih)

/-- What is left of a call behind the preparation of its new segment. -/
def behindPreparing (externals : Externals) (call : UpgradeCall) (oldName : String) (old : Segment)
    (prepared : Except HostFailure Nat) : HostProgram Unit :=
  afterOpening externals call
    (match prepared with
    | .error error => .unprepared oldName error
    | .ok occupied => .prepared oldName old occupied)

/-- A call behind its precondition copies the rows of the old segment while the others wait. -/
theorem call_copies {state : UpgradeState} {oldName : String} {old segment : Segment} {occupied : Nat}
    {layout : SegmentLayout} {header : List UInt8} {table : ArrowTable} {memory : Memory}
    (openable : Openable deployment.externals call state.seen oldName old)
    (preparable : Preparable deployment.externals call (state.seen.opened call oldName) oldName old
      occupied layout header)
    (copyable : Copyable deployment.externals call ((state.seen.opened call oldName).prepared call old
      occupied layout header) oldName old occupied segment table memory)
    (left : state.program = ((openOld deployment.externals call).bind fun opened =>
      migrate deployment.externals call opened.1 opened.2).ensure (upgradeCleanup call)) :
    let final := ((state.seen.opened call oldName).prepared call old occupied layout header).loaded
      call.newName segment memory
    Relation.ReflTransGen (CallStep deployment state.world.run) state
      (hosted state.world final (aroundCopy call oldName (.done ()))) ∧
    SameStream (hosted state.world final (.done ())).seen final := by
  intro final
  rw [Attempt.ensure_bind] at left
  have begins : ∃ effect next, (openOld deployment.externals call).attempt = .step effect next := by
    unfold openOld
    rw [openable.pause]
    exact ⟨_, _, rfl⟩
  obtain ⟨effect, next, begins⟩ := begins
  have opens := Attempt.run_attempt (openOld deployment.externals call) state.seen
  rw [openable.run, begins] at opens
  have within := (@openOld_sameStream call deployment.externals).attempt
  rw [begins] at left within
  obtain ⟨opening, openedSynced⟩ := @call_resumed deployment _ state _ _ _ _ _ left within opens
  dsimp only at opening
  rw [migrate_ensured] at opening
  have prepares := Attempt.run_attempt (prepareNew deployment.externals call oldName old)
    (state.seen.opened call oldName)
  rw [preparable.run] at prepares
  obtain ⟨preparing, preparedSynced⟩ := @call_alone deployment _ state.world
    (prepareNew deployment.externals call oldName old).attempt
    (behindPreparing deployment.externals call oldName old) _ _ _
    prepareNew_sameStream.attempt openedSynced prepares
  dsimp only [behindPreparing, afterOpening] at preparing
  rw [aroundCopy_attempt] at preparing
  have copies := Attempt.run_attempt (copyRows deployment.externals call oldName old occupied)
    ((state.seen.opened call oldName).prepared call old occupied layout header)
  rw [copyable.run] at copies
  obtain ⟨copying, copiedSynced⟩ := @call_alone deployment _ state.world
    (copyRows deployment.externals call oldName old occupied).attempt
    (fun result => aroundCopy call oldName (Attempt.ofExcept result)) _ _ _
    copyRows_sameStream.attempt preparedSynced copies
  exact ⟨opening.trans (preparing.trans copying), copiedSynced⟩

end Copying

/-- The keys and links of a host whose sample schema points to `segment`. -/
def sampleRegistry : Host where
  keys :=
    { current := Function.update (fun _ => none) sampleSchema.safeName (some "segment")
      refcount := Function.update (fun _ => none) "segment" (some 1)
      pidSegments := fun _ => []
      cleanupQueue := ∅
      segmentToSchema := Function.update (fun _ => none) "segment" (some sampleSchema.safeName)
      heartbeats := fun _ => none }
  linked := {"segment"}
  objects := sampleWorld.shared
  lock := fun _ => none
  pause := fun _ => none
  pending := none
  liveness := false

/-- The sample upgrade, whose calls all return. -/
def sampleMigration : UpgradeCall := sampleUpgradeCall .returned

/-- The start of the sample upgrade next to the sample process. -/
def sampleBeginning : UpgradeState :=
  hosted sampleWorld sampleRegistry (upgradeSchema sampleExternals sampleMigration)

/-- What is left of the sample upgrade behind its precondition. -/
def sampleRest : HostProgram Unit :=
  ((openOld sampleExternals sampleMigration).bind fun opened =>
    migrate sampleExternals sampleMigration opened.1 opened.2).ensure (upgradeCleanup sampleMigration)

theorem sampleRegistry_points : sampleRegistry.keys.current sampleSchema.safeName = some "segment" := by
  simp [sampleRegistry]

theorem sampleRegistry_current (host : Host)
    (keys : host.keys.current = sampleRegistry.keys.current) (world : World) :
    (world.under host).current (encodeUtf8 "Sample") = some "segment" := by
  change host.keys.current (safeKey sampleMigration.name) = _
  rw [safeKey_name, keys]
  exact sampleRegistry_points

theorem sampleBeginning_initial : sampleBeginning.Initial sampleDeployment sampleMigration where
  world := by
    have points := sampleRegistry_current sampleRegistry rfl sampleWorld
    constructor
    · decide
    · rfl
    · rfl
    · rfl
    · rfl
    · rfl
    · rfl
    · rfl
    · intro entry member
      obtain rfl := List.mem_singleton.mp member
      exact ⟨"segment", _, 2, 8, List.replicate 16 0, [], points, rfl, rfl,
        computeLayout_sample_of_hash rfl, rfl, rfl⟩
    · intro first firstMember second secondMember _
      obtain rfl := List.mem_singleton.mp firstMember
      obtain rfl := List.mem_singleton.mp secondMember
      rfl
  program := rfl
  mirrored := rfl
  served := List.mem_singleton_self _
  unused := rfl
  unnamed := by
    intro key
    change Function.update (fun _ => none) sampleSchema.safeName (some "segment") key ≠ some "new"
    by_cases here : key = sampleSchema.safeName
    · rw [here, Function.update_self]
      decide
    · rw [Function.update_of_ne here]
      decide

/-- The sample upgrade passes its precondition. -/
theorem sampleRest_steps :
    Relation.ReflTransGen (CallStep sampleDeployment none) sampleBeginning
      (hosted sampleWorld (sampleRegistry.locked sampleMigration) sampleRest) := by
  have unobstructed : Unobstructed sampleMigration sampleRegistry :=
    ⟨rfl, rfl, fun _ => rfl, rfl, rfl⟩
  have accepted : (canUpgrade sampleSchema sampleUpgrade).1 = true := by decide
  have program : upgradeSchema sampleExternals sampleMigration =
      (upgradePrecondition sampleMigration).bind fun _ => sampleRest := by
    unfold upgradeSchema
    rw [if_neg (show ¬ sampleMigration.old.className ≠ sampleMigration.new.className by decide),
      if_neg (show ¬ sampleMigration.factorValid = false by decide),
      if_neg (show ¬ (canUpgrade sampleMigration.old sampleMigration.new).1 = false by
        rw [show (canUpgrade sampleMigration.old sampleMigration.new).1 = true from accepted]
        decide)]
    rfl
  rw [sampleBeginning, program]
  exact (call_alone sampleWorld (upgradePrecondition sampleMigration)
    (upgradePrecondition_quiet.mono fun _ _ quiet => ⟨quiet.pending, quiet.liveness⟩) ⟨rfl, rfl⟩
    unobstructed.run).1

/-- The sample process in a phase of its read loop, with one message in the stream. -/
def sampleServed (entry : StreamEntry) (group : Group) (reader : ReaderPhase)
    (delivered : List MsgId) : World :=
  { sampleWorld.under (sampleRegistry.locked sampleMigration) with
    produced := [entry]
    entries := [entry]
    group := some group
    drained := true
    run := some ⟨freshConsumer sampleDeployment
        (sampleWorld.under (sampleRegistry.locked sampleMigration)).current,
      reader, .waiting, delivered, []⟩ }

/-- The sample process before it applies the message. -/
def sampleReading (entry : StreamEntry) : World :=
  sampleServed entry ⟨entry.id, [entry.id]⟩ (.applying .loop [(entry.id, some entry.fields)] [])
    [entry.id]

/-- The first step behind the precondition sets the pause key, so it is not in the copy window. -/
theorem sampleRest_opening : ¬ CopyWindow sampleExternals sampleMigration sampleRest := by
  have pauses : ∃ effect next, sampleRest = .step effect next ∧ ∀ host : Host,
      (effect host).pause = Function.update host.pause sampleSchema.safeName (some "token") :=
    ⟨_, _, rfl, fun host => rfl⟩
  obtain ⟨effect, next, begins, pauses⟩ := pauses
  rw [begins]
  intro window
  have kept : ∀ host : Host, (effect host).pause = host.pause := by
    generalize shape : Attempt.step effect next = program at window
    cases window with
    | translated oldName occupied table =>
        obtain ⟨rfl, _⟩ := Attempt.step.inj shape
        exact fun host => rfl
    | found oldName occupied table segment =>
        obtain ⟨rfl, _⟩ := Attempt.step.inj shape
        exact fun host => rfl
    | loaded oldName =>
        obtain ⟨rfl, _⟩ := Attempt.step.inj shape
        exact fun host => rfl
  have both := (kept sampleRegistry).symm.trans (pauses sampleRegistry)
  have here := congrFun both sampleSchema.safeName
  rw [Function.update_self] at here
  cases here

/-- A step of the process outside the copy window is orderly. -/
theorem consumer_orderly {deployment : Deployment} {call : UpgradeCall} {state : UpgradeState}
    {after : World} (opening : ¬ CopyWindow deployment.externals call state.program)
    (step : ConsumerStep deployment state.world after)
    (once : ∀ run, state.world.run = some run → run.reader ≠ .ended) :
    OrderlyStep deployment call state { state with world := after } := by
  refine ⟨.consumer step fun run live ended => absurd ended (once run live),
    fun inside => absurd inside opening, fun before flipped => ?_⟩
  exact absurd ((congrFun step.current call.name).symm.trans flipped) before

/-- The process starts and reads a message while the call waits behind its precondition. -/
theorem sampleReading_steps {entry : StreamEntry} (positive : MsgId.of 0 0 < entry.id) :
    Relation.ReflTransGen (OrderlyStep sampleDeployment sampleMigration)
      (hosted sampleWorld (sampleRegistry.locked sampleMigration) sampleRest)
      { toHostedWorld := ⟨sampleReading entry, sampleRegistry.locked sampleMigration⟩
        program := sampleRest } := by
  have moves : ∀ {world after : World}, ConsumerStep sampleDeployment world after →
      (∀ run, world.run = some run → run.reader ≠ .ended) →
      OrderlyStep sampleDeployment sampleMigration
        ⟨⟨world, sampleRegistry.locked sampleMigration⟩, sampleRest⟩
        ⟨⟨after, sampleRegistry.locked sampleMigration⟩, sampleRest⟩ :=
    fun step once => consumer_orderly sampleRest_opening step once
  have started : ∀ {world : World} {run : Run}, world.run = some run → run.reader ≠ .ended →
      ∀ other, world.run = some other → other.reader ≠ .ended := by
    intro world run live phase other same
    obtain rfl := Option.some.inj (live.symm.trans same)
    exact phase
  have offered : Relation.ReflTransGen (OrderlyStep sampleDeployment sampleMigration)
      (hosted sampleWorld (sampleRegistry.locked sampleMigration) sampleRest)
      ⟨⟨sampleServed entry ⟨MsgId.of 0 0, []⟩ .reading [], sampleRegistry.locked sampleMigration⟩,
        sampleRest⟩ := by
    refine .head (moves (.lifecycle (.start rfl ?_)) fun run live => by cases live) ?_
    · intro entry member
      obtain rfl := List.mem_singleton.mp member
      exact ⟨"segment", openCurrent_self (sampleRegistry_current _ rfl sampleWorld) rfl rfl sample_table⟩
    refine .head (moves (.reader (.ensureGroup rfl rfl)) (started rfl (by simp))) ?_
    refine .head (moves (.reader (.drainEnd rfl rfl rfl rfl (by decide) rfl)) (started rfl (by simp))) ?_
    refine .head (moves (.reader (.announce rfl rfl false)) (started rfl (by simp))) ?_
    refine .head ⟨.stream (.xadd entry positive ?_) rfl rfl rfl, ?_, ?_⟩ .refl
    · exact fun other member => absurd member List.not_mem_nil
    · exact fun inside => absurd inside sampleRest_opening
    · exact fun before flipped => absurd flipped before
  have next : (sampleServed entry ⟨MsgId.of 0 0, []⟩ .reading []).newBatch sampleDeployment
      ⟨MsgId.of 0 0, []⟩ = [entry] := by
    simp [World.newBatch, sampleServed, sampleDeployment, positive]
  refine offered.trans ?_
  refine .head (moves (.reader (.read rfl rfl rfl rfl (by decide))) (started rfl (by simp))) ?_
  rw [next]
  refine .head (moves (.reader (.checkClear rfl rfl rfl)) (started rfl (by simp))) ?_
  refine .head (moves (.reader (.refresh rfl rfl false)) (started rfl (by simp))) ?_
  exact .head (moves (.reader (.startBatch rfl rfl (Or.inl (show 0 < 20 by decide)))) (started rfl (by simp))) .refl

/-- The sample upgrade copies a segment with one row at most while the others wait. -/
theorem sampleRest_copies {state : UpgradeState} {memory : Memory} {log : List InsertRequest}
    (left : state.program = sampleRest)
    (current : state.host.keys.current = sampleRegistry.keys.current)
    (linked : state.host.linked = {"segment"})
    (stored : state.world.shared "segment" = some ⟨sampleSchema, sampleLayout, memory⟩)
    (refined : (SegmentHistory.mk memory log 0).Refined sampleExternals.hashId sampleLayout)
    (single : presentIds log ⊆ {"a"}) :
    ∃ header copy final, header.length = headerSize ∧
      (insertMany sampleExternals.hashId sampleExternals.castBits sampleUpgrade sampleUpgradeLayout
        (translatedTable sampleExternals.hashName sampleExternals.castBits sampleSchema sampleUpgrade
          sampleLayout memory (rowIds sampleLayout memory))).run
        (freshSegment sampleUpgradeLayout header) = (.ok (presentIds log).card, copy) ∧
      Relation.ReflTransGen (CallStep sampleDeployment state.world.run) state
        (hosted state.world final (aroundCopy sampleMigration "segment" (.done ()))) ∧
      final.keys.current = sampleRegistry.keys.current ∧
      final.objects = Function.update state.world.shared "new"
        (some ⟨sampleUpgrade, sampleUpgradeLayout, copy⟩) := by
  have points : state.seen.keys.current sampleSchema.safeName = some "segment" := by
    change state.host.keys.current sampleSchema.safeName = _
    rw [current, sampleRegistry_points]
  obtain ⟨header, copy, table, length, occupied, openable, creatable, rfl, translated, loaded⟩ :=
    @sampleUpgradeCall_copies state.seen "segment" memory log .returned points linked stored (by decide)
      refined single
  obtain ⟨preparable, copyable⟩ := openable.parts rfl rfl creatable translated loaded
  obtain ⟨steps, _⟩ := @call_copies sampleDeployment sampleMigration state _ _ _ _ _ _ _ _ openable
    preparable copyable left
  refine ⟨header, copy, _, length, ?_, steps, current, ?_⟩
  · rw [← occupied]
    exact loaded
  · exact Function.update_idem _ _ _

/-- What a flip of the sample upgrade leaves. -/
theorem sampleFlip_steps {state : UpgradeState}
    (left : state.program = aroundCopy sampleMigration "segment" (.done ()))
    (current : state.host.keys.current = sampleRegistry.keys.current) :
    ∃ after, UpgradeStep sampleDeployment state after ∧
      after.world.current sampleMigration.name = some "new" ∧
      after.world.shared = state.world.shared ∧ after.world.inserted = state.world.inserted := by
  have flips : state.seen.keys.flipSchemaCurrent sampleSchema.safeName "segment" "new" =
      (1, (state.seen.flipped sampleMigration).keys) := by
    have points : state.seen.keys.current sampleSchema.safeName = some "segment" := by
      change state.host.keys.current sampleSchema.safeName = _
      rw [current, sampleRegistry_points]
    simp [RegistryKeys.flipSchemaCurrent, points, Host.flipped, sampleMigration, sampleUpgradeCall]
  refine ⟨_, .upgrade left, ?_, rfl, rfl⟩
  change (state.seen.keys.flipSchemaCurrent sampleSchema.safeName "segment" "new").2.current
    (safeKey sampleMigration.name) = _
  rw [flips, safeKey_name]
  exact Function.update_self _ _ _

/-- A step of a process whose `run` has not ended. -/
def AliveStep (deployment : Deployment) (before after : World) : Prop :=
  ConsumerStep deployment before after ∧ ∀ run, before.run = some run → run.reader ≠ .ended

section Applying

variable {world : World} {consumer after : Consumer} {written : SharedMemory}
  {log : List InsertRequest} {rowData : List UInt8} {entry : StreamEntry} {group : Group}

/-- The sample process behind its message. -/
def sampleProcessed (world : World) (entry : StreamEntry) (after : Consumer) (written : SharedMemory)
    (rowData : List UInt8) : World :=
  { world with
    shared := written
    inserted := ⟨entry.id, "segment", ⟨"a", rowData⟩⟩ :: world.inserted
    processed := world.processed ++ [entry.id]
    run := some ⟨{ after with pendingAck := after.pendingAck ++ [entry.id] }, .reading, .waiting,
      [entry.id], [entry.id]⟩ }

/-- The process applies the message and sets its key. -/
theorem sampleProcessed_steps
    (live : world.run = some ⟨consumer, .applying .loop [(entry.id, some entry.fields)] [], .waiting,
      [entry.id], []⟩)
    (applied : SampleApplied consumer after world.shared written log entry rowData) :
    Relation.ReflTransGen (AliveStep sampleDeployment) world
      (sampleProcessed world entry after written rowData) := by
  have alive : ∀ {world : World} {run : Run}, world.run = some run → run.reader ≠ .ended →
      ∀ other, world.run = some other → other.reader ≠ .ended := by
    intro world run live phase other same
    obtain rfl := Option.some.inj (live.symm.trans same)
    exact phase
  refine .head ⟨.reader (.applyReturns live rfl applied.returned), alive live (by simp)⟩ ?_
  rw [show executedInsert sampleDeployment _ _ _ _ = _ from applied.executed]
  refine .head ⟨.reader (.batchApplied rfl rfl (by simp)), alive rfl (by simp)⟩ ?_
  exact .head ⟨.reader (.keysSet rfl rfl), alive rfl (by simp)⟩ .refl

/-- The message was written to the sample segment only. -/
theorem SampleApplied.spares {shared : SharedMemory}
    (applied : SampleApplied consumer after shared written log entry rowData)
    {other : String} (different : other ≠ "segment") : written other = shared other := by
  have executed := applied.executed
  rcases apply_effect sampleDeployment consumer shared entry.id (some entry.fields) with
    ⟨_, nothing⟩ | ⟨prepared, target, segment, _, stored, record⟩
  · rw [nothing] at executed
    cases executed
  · rw [record] at executed
    rw [show apply sampleDeployment.externals consumer shared entry.id (some entry.fields) = _ from
      applied.returned] at stored
    split at executed
    · cases executed
    · have same := congrArg InsertRecord.segment (Option.some.inj executed)
      change target = "segment" at same
      rw [show written = _ from stored, same, Function.update_of_ne different]

end Applying

/-- A process that starts next to the sample upgrade serves the old segment. -/
theorem sampleReading_serving {shared : SharedMemory}
    (stored : shared "segment" =
      some ⟨sampleSchema, sampleLayout, freshSegment sampleLayout (List.replicate 16 0)⟩) :
    SampleServing (freshConsumer sampleDeployment
      (sampleWorld.under (sampleRegistry.locked sampleMigration)).current) shared [] := by
  have parts := computeLayout_parts
    (computeLayout_sample_of_hash (show sampleHash "score" = 0 from rfl))
  constructor
  · rfl
  · exact sampleRegistry_current (sampleRegistry.locked sampleMigration) rfl sampleWorld
  · simp [freshConsumer, sampleDeployment, sampleExternals, parts.2.1, sampleLayout, layoutOf,
      Except.toOption]
  · exact OfflineStore.empty_sound _ _
  · exact ⟨_, stored, SegmentHistory.Refined.fresh _ sampleLayout_sound rfl⟩

/-- In an orderly run the new segment reflects the sample message. -/
theorem orderly_losesNoUpdate_sample : ∃ before after : UpgradeState,
    Relation.ReflTransGen (OrderlyStep sampleDeployment sampleMigration) sampleBeginning before ∧
    OrderlyStep sampleDeployment sampleMigration before after ∧
    before.world.processed = [MsgId.of 1 0] ∧
    KeepsUpdates sampleDeployment sampleMigration "segment" before after := by
  have serving := @sampleReading_serving sampleWorld.shared rfl
  obtain ⟨consumer, written, rowData, applied, _⟩ :=
    sampleFirst_apply serving (by simp [presentIds])
  have begun := (Relation.ReflTransGen.mono (fun _ _ => CallStep.orderly) _ _ sampleRest_steps).trans
    (@sampleReading_steps sampleFirst (by decide))
  have moves : ∀ before after, AliveStep sampleDeployment before after →
      OrderlyStep sampleDeployment sampleMigration
        ⟨⟨before, sampleRegistry.locked sampleMigration⟩, sampleRest⟩
        ⟨⟨after, sampleRegistry.locked sampleMigration⟩, sampleRest⟩ :=
    fun before after step => consumer_orderly sampleRest_opening step.1 step.2
  have processed := (@sampleProcessed_steps (sampleReading sampleFirst) _ _ _ _ _ _ rfl applied).lift
    (fun world => (⟨⟨world, sampleRegistry.locked sampleMigration⟩, sampleRest⟩ : UpgradeState)) moves
  have crashed := moves _ { sampleProcessed (sampleReading sampleFirst) sampleFirst consumer written rowData
    with run := none } ⟨.lifecycle .crash, fun run live => by
      obtain rfl := Option.some.inj live
      simp⟩
  obtain ⟨memory, stored, refined⟩ := applied.serving.memory
  obtain ⟨header, copy, final, _, _, copies, current, _⟩ := @sampleRest_copies
    ⟨⟨{ sampleProcessed (sampleReading sampleFirst) sampleFirst consumer written rowData
      with run := none }, sampleRegistry.locked sampleMigration⟩, sampleRest⟩ memory
    [⟨"a", rowData⟩] rfl rfl rfl stored refined (by simp [presentIds])
  obtain ⟨after, flip, points, _⟩ := @sampleFlip_steps
    (hosted { sampleProcessed (sampleReading sampleFirst) sampleFirst consumer written rowData
      with run := none } final (aroundCopy sampleMigration "segment" (.done ()))) rfl current
  have steps := ((begun.trans processed).tail crashed).trans
    (Relation.ReflTransGen.mono (fun _ _ => CallStep.orderly) _ _ copies)
  have orderly : OrderlyStep sampleDeployment sampleMigration _ after := CallStep.orderly ⟨flip, rfl⟩
  exact ⟨_, after, steps, orderly, rfl,
    orderly_losesNoUpdate sampleBeginning_initial sampleExternals_strings (by decide) _ after after
      "segment" steps orderly (sampleRegistry_current final current _) (by decide) points .refl⟩

/-- A message that is applied between the copy of its segment and the flip is lost. -/
theorem upgrade_losesUpdate :
    sampleBeginning.Initial sampleDeployment sampleMigration ∧
      ¬ LosesNoUpdate (UpgradeStep sampleDeployment) sampleDeployment sampleMigration sampleBeginning := by
  refine ⟨sampleBeginning_initial, fun losesNothing => ?_⟩
  have begun := Relation.ReflTransGen.mono (fun _ _ step => OrderlyStep.step step) _ _
    ((Relation.ReflTransGen.mono (fun _ _ => CallStep.orderly) _ _ sampleRest_steps).trans
      (@sampleReading_steps sampleFirst (by decide)))
  have fresh := SegmentHistory.Refined.fresh sampleExternals.hashId sampleLayout_sound
    (show (List.replicate 16 (0 : UInt8)).length = headerSize from rfl)
  obtain ⟨header, copy, final, length, loaded, copies, current, objects⟩ := @sampleRest_copies
    ⟨⟨sampleReading sampleFirst, sampleRegistry.locked sampleMigration⟩, sampleRest⟩ _ [] rfl rfl rfl rfl
    fresh (by simp [presentIds])
  have stored : final.objects "segment" =
      some ⟨sampleSchema, sampleLayout, freshSegment sampleLayout (List.replicate 16 0)⟩ := by
    rw [objects, Function.update_of_ne (by decide)]
    rfl
  have serving := sampleReading_serving stored
  obtain ⟨consumer, written, rowData, applied, _⟩ :=
    sampleFirst_apply serving (by simp [presentIds])
  have moves : ∀ before after, AliveStep sampleDeployment before after →
      UpgradeStep sampleDeployment ⟨⟨before, final⟩, aroundCopy sampleMigration "segment" (.done ())⟩
        ⟨⟨after, final⟩, aroundCopy sampleMigration "segment" (.done ())⟩ :=
    fun before after step => .consumer step.1 fun run live ended => absurd ended (step.2 run live)
  have processed := (@sampleProcessed_steps ((sampleReading sampleFirst).under final) _ _ _ _ _ _ rfl
    applied).lift (fun world =>
      (⟨⟨world, final⟩, aroundCopy sampleMigration "segment" (.done ())⟩ : UpgradeState)) moves
  obtain ⟨after, flip, points, shared, _⟩ := @sampleFlip_steps
    ⟨⟨sampleProcessed ((sampleReading sampleFirst).under final) sampleFirst consumer written rowData,
      final⟩, aroundCopy sampleMigration "segment" (.done ())⟩ rfl current
  have steps := (begun.trans (Relation.ReflTransGen.mono (fun _ _ step => CallStep.step step) _ _
    copies)).trans processed
  have kept := losesNothing _ after after "segment" steps flip
    (sampleRegistry_current final current (sampleReading sampleFirst)) (by decide) points .refl
  have decoded := (prepareInsert_some (congrArg Prod.fst (@sample_prepared _ _ _ serving 1
    0x3ff0000000000000 0 [0, 0, 0x80, 0x3f] (by decide)))).1
  rw [serving.schemas] at decoded
  obtain ⟨segment, address, present, found, _⟩ := kept.reflected sampleFirst
    (List.mem_singleton_self _) (List.mem_singleton_self _) _ decoded rfl
  have new : written "new" = some ⟨sampleUpgrade, sampleUpgradeLayout, copy⟩ := by
    rw [show written "new" = final.objects "new" from applied.spares (by decide), objects,
      Function.update_self]
  rw [shared] at present
  obtain rfl := Option.some.inj (new.symm.trans present)
  have rowless := rowIds_card fresh
  have empty := @insertMany_empty sampleExternals.hashId sampleExternals.castBits sampleUpgrade
    sampleUpgradeLayout (translatedTable sampleExternals.hashName sampleExternals.castBits
      sampleSchema sampleUpgrade sampleLayout (freshSegment sampleLayout (List.replicate 16 0))
      (rowIds sampleLayout (freshSegment sampleLayout (List.replicate 16 0)))) rowless
      (freshSegment sampleUpgradeLayout header)
  have same := (Prod.mk.inj (loaded.symm.trans empty)).2
  subst same
  have absent := ((SegmentHistory.Refined.fresh sampleExternals.hashId
    (computeLayout_sound computeLayout_sampleUpgrade) length).behavesAsMap
      (computeLayout_sound computeLayout_sampleUpgrade)).absent "a" (by decide) rfl
  have lost : (lookup sampleExternals.hashId sampleUpgradeLayout "a").result
      (freshSegment sampleUpgradeLayout header) = .ok none :=
    congrArg Prod.fst absent
  dsimp only at found
  rw [show sampleDeployment.externals.hashId = sampleExternals.hashId from rfl, lost] at found
  cases found

end Quorin
