import Quorin.Construction.Upgrade

namespace Quorin

open ByteMemory FaultyCalls

/-- The steps of `create` in front of its transaction succeed with this layout and this header. -/
structure Creatable (externals : Externals) (call : CreateCall) (host : Host)
    (layout : SegmentLayout) (header : List UInt8) : Prop where
  computed : computeLayout externals.hashName call.schema call.capacity call.maxIdBytes = .ok layout
  space : call.space = true
  fresh : call.name ∉ host.linked
  packed : packHeader externals call.schema layout.capacity = some header

/-- The host with a new segment that is linked and initialized. -/
def Host.withSegment (host : Host) (name : String) (schema : FeatureSchema)
    (layout : SegmentLayout) (header : List UInt8) : Host :=
  { host with
    linked := Insert.insert name host.linked
    objects := Function.update host.objects name (some ⟨schema, layout, freshSegment layout header⟩) }

/-- The host behind the transaction of `create`. -/
def Host.registered (host : Host) (call : CreateCall) : Host :=
  { host with
    keys := host.keys.createPipeline call.pid call.schema.safeName call.name call.setCurrent }

section Create

variable {externals : Externals} {call : CreateCall} {host : Host} {layout : SegmentLayout}
  {header : List UInt8}

theorem Host.link_initialized (fresh : call.name ∉ host.linked) :
    (host.link call.name call.schema layout).withMemory call.name
        (fun _ => freshSegment layout header) =
      host.withSegment call.name call.schema layout header := by
  simp [Host.link, fresh, Host.withMemory, Host.withSegment]

/-- A `create` that reaches its transaction returns, or unlinks the segment and raises. -/
theorem Creatable.run (creatable : Creatable externals call host layout header) :
    (create externals call).run host =
      match call.exec with
      | .returned =>
          (.ok (), (host.withSegment call.name call.schema layout header).registered call)
      | .raisedBefore =>
          (.error .redisError,
            (host.withSegment call.name call.schema layout header).unlink call.name)
      | .raisedAfter =>
          (.error .redisError,
            ((host.withSegment call.name call.schema layout header).registered call).unlink
              call.name) := by
  unfold create
  rw [creatable.computed]
  dsimp only
  rw [if_neg (by rw [creatable.space]; decide), Attempt.run_step]
  rw [if_neg creatable.fresh, registerSegment, creatable.packed]
  dsimp only
  cases exec : call.exec with
  | returned =>
      rw [Attempt.run_onError_ok _ _ (by
        rw [Attempt.run_step, Host.link_initialized creatable.fresh]
        rfl)]
      rfl
  | raisedBefore =>
      rw [Attempt.run_onError_error _ _ (by
        rw [Attempt.run_step, Host.link_initialized creatable.fresh]
        rfl)]
      rfl
  | raisedAfter =>
      rw [Attempt.run_onError_error _ _ (by
        rw [Attempt.run_step, Host.link_initialized creatable.fresh]
        rfl)]
      rfl

/-- A `create` that does not reach its transaction leaves the host as it was, up to bytes of
unlinked names. -/
theorem create_unreached
    (unreached : ∀ layout header, ¬ Creatable externals call host layout header) :
    ∃ error after, (create externals call).run host = (.error error, after) ∧
      after.keys = host.keys ∧ after.linked = host.linked := by
  unfold create
  cases computed : computeLayout externals.hashName call.schema call.capacity call.maxIdBytes with
  | error error => exact ⟨_, _, rfl, rfl, rfl⟩
  | ok layout =>
      dsimp only
      cases space : call.space with
      | false => exact ⟨_, _, rfl, rfl, rfl⟩
      | true =>
          rw [if_neg (by decide), Attempt.run_step]
          by_cases exists_ : call.name ∈ host.linked
          · rw [if_pos exists_]
            refine ⟨_, _, rfl, ?_, ?_⟩ <;> simp [Host.link, exists_]
          · rw [if_neg exists_]
            cases packed : packHeader externals call.schema layout.capacity with
            | some header => exact absurd ⟨computed, space, exists_, packed⟩ (unreached layout header)
            | none =>
                rw [registerSegment, packed, Attempt.run_onError_error _ _ (Attempt.run_raised _ _)]
                refine ⟨_, _, rfl, ?_, ?_⟩
                · simp [Host.unlink, Host.link, exists_]
                · simp [Host.unlink, Host.link, exists_]

/-- A `create` succeeds only when it reaches its transaction and the transaction returns. -/
theorem create_creatable {value : Unit} {after : Host}
    (ok : (create externals call).run host = (.ok value, after)) :
    call.exec = .returned ∧ ∃ layout header, Creatable externals call host layout header := by
  by_cases reached : ∃ layout header, Creatable externals call host layout header
  · obtain ⟨layout, header, creatable⟩ := reached
    refine ⟨?_, layout, header, creatable⟩
    rw [creatable.run] at ok
    split at ok
    · assumption
    · cases ok
    · cases ok
  · obtain ⟨error, failed, created, _⟩ := create_unreached fun layout header creatable =>
      reached ⟨layout, header, creatable⟩
    rw [created] at ok
    cases ok

end Create

section Upgrade

variable {externals : Externals} {call : UpgradeCall} {host : Host}

/-- The lock is free and taken, nothing is known to be pending, and no consumer is alive. -/
structure Unobstructed (call : UpgradeCall) (host : Host) : Prop where
  lock : call.lock = .returned
  free : host.lock call.old.safeName = none
  drained : call.xpending = .returned → host.pending.getD 0 = 0
  liveness : call.liveness = .returned
  dead : host.liveness = false

/-- The host with the upgrade lock taken. -/
def Host.locked (host : Host) (call : UpgradeCall) : Host :=
  { host with lock := Function.update host.lock call.old.safeName (some call.token) }

theorem Unobstructed.run (unobstructed : Unobstructed call host) :
    (upgradePrecondition call).run host = (.ok (), host.locked call) := by
  unfold upgradePrecondition
  rw [unobstructed.lock, Attempt.run_bind_ok _ _ rfl]
  simp only [unobstructed.free, Option.isNone_none, if_true, Bool.true_eq_false, if_false]
  rw [Attempt.run_bind_ok _ _ (Attempt.run_attempt _ _)]
  have none : (((Attempt.call call.xpending HostFailure.redisError id
      fun host : Host => host.pending.getD 0).run (host.locked call)).1).toOption.getD 0 = 0 := by
    cases outcome : call.xpending with
    | returned => exact unobstructed.drained outcome
    | raisedBefore => rfl
    | raisedAfter => rfl
  have same : ((Attempt.call call.xpending HostFailure.redisError id
      fun host : Host => host.pending.getD 0).run (host.locked call)).2 = host.locked call := by
    cases call.xpending <;> rfl
  rw [show ({ host with lock := Function.update host.lock call.old.safeName (some call.token) } :
    Host) = host.locked call from rfl, if_neg (by omega), same, unobstructed.liveness,
    Attempt.run_bind_ok _ _ rfl]
  simp [Host.locked, unobstructed.dead]

theorem upgradePrecondition_unobstructed {value : Unit} {after : Host}
    (passed : (upgradePrecondition call).run host = (.ok value, after)) :
    Unobstructed call host := by
  unfold upgradePrecondition at passed
  obtain ⟨lock, passed⟩ := Attempt.run_call_bind_ok _ passed
  have refused : ∀ host after : Host, ((releaseLock call call.refusal).suppress.bind
      fun _ => Attempt.raised HostFailure.upgradeConflict).run host ≠ (.ok value, after) := by
    intro host after same
    rw [Attempt.run_bind_ok _ _ (Attempt.run_suppress _ _)] at same
    cases same
  cases held : host.lock call.old.safeName with
  | some token =>
      simp only [held, Option.isNone_some, if_true] at passed
      obtain ⟨_, failed⟩ := Attempt.run_call_bind_ok _ passed
      cases failed
  | none =>
      simp only [held, Option.isNone_none, if_true, Bool.true_eq_false, if_false] at passed
      rw [Attempt.run_bind_ok _ _ (Attempt.run_attempt _ _), Attempt.run_call_id] at passed
      split at passed
      · exact absurd passed (refused _ _)
      · rename_i few
        obtain ⟨liveness, passed⟩ := Attempt.run_call_bind_ok _ passed
        split at passed
        · exact absurd passed (refused _ _)
        · rename_i dead
          refine ⟨lock, held, ?_, liveness, by simpa using dead⟩
          intro answered
          rw [answered] at few
          exact Nat.eq_zero_of_not_pos few

/-- The old segment can be opened under this name. -/
structure Openable (externals : Externals) (call : UpgradeCall) (host : Host) (oldName : String)
    (old : Segment) : Prop where
  pause : call.pause = .returned
  get : call.openGet = .returned
  current : host.keys.current call.old.safeName = some oldName
  object : host.objects oldName = some old
  linked : oldName ∈ host.linked
  verified : verifyHeader externals old call.old = true
  exec : call.openExec = .returned

/-- The host with the pause key set and the old segment counted once more. -/
def Host.opened (host : Host) (call : UpgradeCall) (oldName : String) : Host :=
  { host with
    pause := Function.update host.pause call.old.safeName (some call.token)
    keys := host.keys.openPipeline call.pid oldName }

theorem Openable.run {oldName : String} {old : Segment}
    (openable : Openable externals call host oldName old) :
    (openOld externals call).run host = (.ok (oldName, old), host.opened call oldName) := by
  unfold openOld openCurrentSegment
  rw [openable.pause, Attempt.run_bind_ok _ _ rfl, openable.get, Attempt.run_bind_ok _ _ rfl]
  simp only [id, openable.current, Attempt.run_inspect, openable.object, openable.linked,
    not_true_eq_false, if_false, openable.verified, Bool.true_eq_false, openable.exec]
  rfl

theorem openOld_openable {oldName : String} {old : Segment} {after : Host}
    (ok : (openOld externals call).run host = (.ok (oldName, old), after)) :
    Openable externals call host oldName old := by
  unfold openOld openCurrentSegment at ok
  obtain ⟨pause, ok⟩ := Attempt.run_call_bind_ok _ ok
  obtain ⟨get, ok⟩ := Attempt.run_call_bind_ok _ ok
  cases current : host.keys.current call.old.safeName with
  | none =>
      simp only [current] at ok
      cases ok
  | some name =>
      simp only [id, current, Attempt.run_inspect] at ok
      cases object : host.objects name with
      | none =>
          simp only [object] at ok
          cases ok
      | some segment =>
          simp only [object] at ok
          split at ok
          · cases ok
          · rename_i linked
            split at ok
            · cases ok
            · rename_i verified
              obtain ⟨exec, same, _⟩ := Attempt.run_call_ok _ ok
              cases same
              exact ⟨pause, get, current, object, not_not.mp linked, by simpa using verified, exec⟩

/-- The new segment can be created for the rows of the old one. -/
structure Preparable (externals : Externals) (call : UpgradeCall) (host : Host) (oldName : String)
    (old : Segment) (occupied : Nat) (layout : SegmentLayout) (header : List UInt8) : Prop where
  get : call.currentGet = .returned
  current : host.keys.current call.old.safeName = some oldName
  rows : ((host.objects oldName).getD old).memory.readNat metadataOffset 8 = occupied
  creatable : Creatable externals (createNewCall call old occupied) host layout header
  exec : call.createExec = .returned

/-- The host behind the creation of the new segment. -/
def Host.prepared (host : Host) (call : UpgradeCall) (old : Segment) (occupied : Nat)
    (layout : SegmentLayout) (header : List UInt8) : Host :=
  (host.withSegment call.newName call.new layout header).registered (createNewCall call old occupied)

theorem Preparable.run {oldName : String} {old : Segment} {occupied : Nat} {layout : SegmentLayout}
    {header : List UInt8}
    (preparable : Preparable externals call host oldName old occupied layout header) :
    (prepareNew externals call oldName old).run host =
      (.ok occupied, host.prepared call old occupied layout header) := by
  have created := preparable.creatable.run
  rw [show (createNewCall call old occupied).exec = .returned from preparable.exec] at created
  unfold prepareNew
  rw [preparable.get, Attempt.run_bind_ok _ _ rfl]
  simp only [id, preparable.current, ne_eq, not_true_eq_false, if_false, Attempt.run_inspect,
    preparable.rows]
  rw [Attempt.run_bind_ok _ _ created]
  rfl

theorem prepareNew_preparable {oldName : String} {old : Segment} {occupied : Nat} {after : Host}
    (ok : (prepareNew externals call oldName old).run host = (.ok occupied, after)) :
    ∃ layout header, Preparable externals call host oldName old occupied layout header := by
  unfold prepareNew at ok
  obtain ⟨get, ok⟩ := Attempt.run_call_bind_ok _ ok
  split at ok
  · cases ok
  · rename_i current
    simp only [id, Attempt.run_inspect] at ok
    obtain ⟨_, middle, created, ok⟩ := Attempt.run_bind_inv _ _ ok
    obtain ⟨exec, layout, header, creatable⟩ := create_creatable created
    have rows := Except.ok.inj (Prod.mk.inj ok).1
    rw [rows] at creatable
    exact ⟨layout, header, get, not_not.mp current, rows, creatable, exec⟩

/-- The rows of the old segment can be translated and loaded into the new one. -/
structure Copyable (externals : Externals) (call : UpgradeCall) (host : Host) (oldName : String)
    (old : Segment) (occupied : Nat) (segment : Segment) (table : ArrowTable) (memory : Memory) :
    Prop where
  translated : buildTranslationTable externals.hashName externals.castBits externals.stringArray
    call.old call.new old.layout ((host.objects oldName).getD old).memory = .ok table
  object : host.objects call.newName = some segment
  loaded : (insertMany externals.hashId externals.castBits call.new segment.layout table).run
    segment.memory = (.ok occupied, memory)

/-- The host with the bytes of a segment replaced. -/
def Host.loaded (host : Host) (name : String) (segment : Segment) (memory : Memory) : Host :=
  { host with objects := Function.update host.objects name (some { segment with memory := memory }) }

theorem Copyable.run {oldName : String} {old : Segment} {occupied : Nat} {segment : Segment}
    {table : ArrowTable} {memory : Memory}
    (copyable : Copyable externals call host oldName old occupied segment table memory) :
    (copyRows externals call oldName old occupied).run host =
      (.ok (), host.loaded call.newName segment memory) := by
  have result : (insertMany externals.hashId externals.castBits call.new segment.layout
      table).result segment.memory = .ok occupied := congrArg Prod.fst copyable.loaded
  have after : ((insertMany externals.hashId externals.castBits call.new segment.layout
      table).run segment.memory).2 = memory := congrArg Prod.snd copyable.loaded
  unfold copyRows
  simp only [Attempt.run_inspect, copyable.translated, copyable.object, Attempt.run_step, result,
    ne_eq, not_true_eq_false, if_false, Attempt.run_done]
  simp [Host.withMemory, Host.loaded, copyable.object, after]

/-- An open old segment whose rows can be loaded into a new one is prepared and copied. -/
theorem Openable.parts {oldName : String} {old : Segment} {layout : SegmentLayout}
    {header : List UInt8} {table : ArrowTable} {memory : Memory}
    (openable : Openable externals call host oldName old) (get : call.currentGet = .returned)
    (exec : call.createExec = .returned)
    (creatable : Creatable externals
      (createNewCall call old (old.memory.readNat metadataOffset 8)) host layout header)
    (translated : buildTranslationTable externals.hashName externals.castBits externals.stringArray
      call.old call.new old.layout old.memory = .ok table)
    (loaded : (insertMany externals.hashId externals.castBits call.new layout table).run
      (freshSegment layout header) = (.ok (old.memory.readNat metadataOffset 8), memory)) :
    Preparable externals call (host.opened call oldName) oldName old
        (old.memory.readNat metadataOffset 8) layout header ∧
      Copyable externals call ((host.opened call oldName).prepared call old
        (old.memory.readNat metadataOffset 8) layout header) oldName old
        (old.memory.readNat metadataOffset 8) ⟨call.new, layout, freshSegment layout header⟩ table
        memory := by
  have different : oldName ≠ call.newName := by
    rintro rfl
    exact creatable.fresh openable.linked
  have opened : (host.opened call oldName).objects oldName = some old := openable.object
  have object : ((host.opened call oldName).prepared call old (old.memory.readNat metadataOffset 8)
      layout header).objects oldName = some old := by
    simp only [Host.prepared, Host.registered, Host.withSegment]
    rw [Function.update_of_ne different]
    exact opened
  constructor
  · exact
      { get := get
        current := openable.current
        rows := by rw [opened, Option.getD_some]
        creatable := { creatable with }
        exec := exec }
  · exact
      { translated := by rw [object, Option.getD_some]; exact translated
        object := Function.update_self _ _ _
        loaded := loaded }

theorem copyRows_copyable {oldName : String} {old : Segment} {occupied : Nat} {value : Unit}
    {after : Host} (ok : (copyRows externals call oldName old occupied).run host = (.ok value, after)) :
    ∃ segment table memory,
      Copyable externals call host oldName old occupied segment table memory := by
  unfold copyRows at ok
  simp only [Attempt.run_inspect] at ok
  split at ok
  · cases ok
  · rename_i table translated
    simp only [Attempt.run_inspect] at ok
    split at ok
    · cases ok
    · rename_i segment object
      simp only [Attempt.run_step] at ok
      split at ok
      · cases ok
      · rename_i inserted result
        split at ok
        · cases ok
        · rename_i expected
          have same : inserted = occupied := not_not.mp expected
          exact ⟨segment, table,
            ((insertMany externals.hashId externals.castBits call.new segment.layout table).run
              segment.memory).2, translated, object, Prod.ext (result.trans (by rw [same])) rfl⟩

end Upgrade

end Quorin
