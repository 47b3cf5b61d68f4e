import Quorin.Proof.Upgrade.CallRuns
import Quorin.Proof.Upgrade.QuietCalls
import Quorin.Proof.Evolution.Migration
import Quorin.Proof.Consumer.Progress

namespace Quorin

open ByteMemory FaultyCalls

/-- A close changes a pointer only when it names the closed segment, and then removes it. -/
theorem closeScript_current (keys : RegistryKeys) (pid : Nat) (name schema : String) :
    (keys.closeScript pid name).2.current schema = keys.current schema ∨
      keys.current schema = some name ∧ (keys.closeScript pid name).2.current schema = none := by
  unfold RegistryKeys.closeScript RegistryKeys.decrement
  dsimp only
  split
  · simp only [RegistryKeys.drop]
    cases keys.segmentToSchema name with
    | none => exact Or.inl rfl
    | some owner =>
        dsimp only
        split
        · rename_i pointed
          by_cases here : schema = owner
          · subst here
            exact Or.inr ⟨pointed, Function.update_self _ _ _⟩
          · exact Or.inl (Function.update_of_ne here _ _)
        · exact Or.inl rfl
  · exact Or.inl rfl

/-- A pointer that names a linked segment, or none. -/
def Pointed (host : Host) (schema : String) : Prop :=
  ∀ name, host.keys.current schema = some name → name ∈ host.linked

/-- The segments of an earlier host are still linked with their bytes, and its pointer may be gone. -/
structure OldKept (schema : String) (before after : Host) : Prop where
  current : after.keys.current schema = none ∨
    after.keys.current schema = before.keys.current schema
  linked : ∀ name ∈ before.linked, name ∈ after.linked ∧ after.objects name = before.objects name

section Keeps

variable {externals : Externals} {schema : String} {before : Host} {host : Host}

theorem OldKept.refl (schema : String) (host : Host) : OldKept schema host host :=
  ⟨Or.inr rfl, fun _ member => ⟨member, rfl⟩⟩

/-- A change of the keys that leaves the pointer or removes it. -/
theorem OldKept.withKeys (kept : OldKept schema before host) {keys : RegistryKeys}
    (pointer : keys.current schema = host.keys.current schema ∨ keys.current schema = none) :
    OldKept schema before { host with keys := keys } := by
  refine ⟨?_, kept.linked⟩
  rcases pointer with same | none
  · rw [show ({ host with keys := keys } : Host).keys.current schema = _ from same]
    exact kept.current
  · exact Or.inl none

theorem OldKept.link (kept : OldKept schema before host) (name : String) (new : FeatureSchema)
    (layout : SegmentLayout) : OldKept schema before (host.link name new layout) := by
  unfold Host.link
  split
  · exact kept
  · rename_i absent
    refine ⟨kept.current, ?_⟩
    intro other member
    obtain ⟨linked, same⟩ := kept.linked other member
    refine ⟨Finset.mem_insert_of_mem linked, ?_⟩
    dsimp only
    rw [Function.update_of_ne]
    · exact same
    · rintro rfl
      exact absent linked

variable {name : String} (foreign : name ∉ before.linked)

include foreign in
theorem OldKept.unlink (kept : OldKept schema before host) :
    OldKept schema before (host.unlink name) := by
  refine ⟨kept.current, ?_⟩
  intro other member
  obtain ⟨linked, same⟩ := kept.linked other member
  refine ⟨Finset.mem_erase.mpr ⟨?_, linked⟩, same⟩
  rintro rfl
  exact foreign member

include foreign in
theorem OldKept.withMemory (kept : OldKept schema before host) (change : Memory → Memory) :
    OldKept schema before (host.withMemory name change) := by
  refine ⟨kept.current, ?_⟩
  intro other member
  obtain ⟨linked, same⟩ := kept.linked other member
  refine ⟨linked, ?_⟩
  unfold Host.withMemory
  dsimp only
  rw [Function.update_of_ne]
  · exact same
  · rintro rfl
    exact foreign member

end Keeps

section Programs

variable {externals : Externals} {call : UpgradeCall} {schema : String} {before : Host}

theorem create_keeps {create' : CreateCall} (silent : create'.setCurrent = false) :
    (create externals create').Keeps (OldKept schema before) := by
  unfold create
  split
  · trivial
  · rename_i layout _
    split
    · trivial
    · intro host kept
      refine ⟨kept.link _ _ _, ?_⟩
      dsimp only
      split
      · trivial
      · rename_i absent
        have foreign : create'.name ∉ before.linked := fun member => absent (kept.linked _ member).1
        apply Attempt.Keeps.onError
        · unfold registerSegment
          split
          · trivial
          · intro host kept
            refine ⟨kept.withMemory foreign _, ?_⟩
            apply Attempt.keeps_call
            intro host kept
            refine kept.withKeys (Or.inl ?_)
            simp [RegistryKeys.createPipeline, silent]
        · exact fun host kept => ⟨kept.unlink foreign, trivial⟩

theorem openCurrentSegment_keeps {pid : Nat} {old : FeatureSchema} {get exec : CallOutcome} :
    (openCurrentSegment externals pid old get exec).Keeps (OldKept schema before) := by
  apply (Attempt.keeps_call fun _ kept => kept).bind
  intro current
  split
  · trivial
  · apply Attempt.keeps_inspect
    intro host kept
    split
    · trivial
    · split
      · trivial
      · split
        · trivial
        · exact Attempt.keeps_call fun host kept => kept.withKeys (Or.inl rfl)

theorem OldKept.close {host : Host} (kept : OldKept schema before host) (pid : Nat) (name : String) :
    OldKept schema before { host with keys := (host.keys.closeScript pid name).2 } := by
  apply kept.withKeys
  rcases closeScript_current host.keys pid name schema with same | ⟨_, none⟩
  · exact Or.inl same
  · exact Or.inr none

theorem closeSegment_keeps {pid : Nat} {name : String} {script : CallOutcome} :
    (closeSegment pid name script).Keeps (OldKept schema before) :=
  Attempt.keeps_call fun _ kept => kept.close pid name

theorem releaseLock_keeps {invariant : Host → Prop}
    (local_ : ∀ host lock, invariant host → invariant { host with lock := lock })
    (outcome : CallOutcome) : (releaseLock call outcome).Keeps invariant := by
  apply Attempt.keeps_call
  intro host kept
  split
  · exact local_ host _ kept
  · exact kept

theorem deletePause_keeps {invariant : Host → Prop}
    (local_ : ∀ host pause, invariant host → invariant { host with pause := pause })
    (outcome : CallOutcome) : (deletePause call outcome).Keeps invariant :=
  Attempt.keeps_call fun host kept => local_ host _ kept

theorem OldKept.quiet {host after : Host} (quiet : QuietEffect call host after)
    (kept : OldKept schema before host) : OldKept schema before after :=
  ⟨by rw [quiet.keys]; exact kept.current, by rw [quiet.linked, quiet.objects]; exact kept.linked⟩

theorem upgradePrecondition_keeps :
    (upgradePrecondition call).Keeps (OldKept schema before) :=
  upgradePrecondition_quiet.keeps fun _ _ => OldKept.quiet

theorem openOld_keeps : (openOld externals call).Keeps (OldKept schema before) :=
  (Attempt.keeps_call fun _ kept => ⟨kept.current, kept.linked⟩).bind fun _ =>
    openCurrentSegment_keeps

theorem prepareNew_keeps {oldName : String} {old : Segment} :
    (prepareNew externals call oldName old).Keeps (OldKept schema before) := by
  apply (Attempt.keeps_call fun _ kept => kept).bind
  intro current
  split
  · trivial
  · apply Attempt.keeps_inspect
    intro host kept
    exact (create_keeps rfl).bind fun _ => trivial

theorem copyRows_keeps {oldName : String} {old : Segment} {occupied : Nat}
    (foreign : call.newName ∉ before.linked) :
    (copyRows externals call oldName old occupied).Keeps (OldKept schema before) := by
  apply Attempt.keeps_inspect
  intro host kept
  split
  · trivial
  · apply Attempt.keeps_inspect
    intro host kept
    split
    · trivial
    · intro host kept
      refine ⟨kept.withMemory foreign _, ?_⟩
      dsimp only
      split
      · trivial
      · split
        · trivial
        · trivial

theorem cleanupOrphanNewSegment_keeps (foreign : call.newName ∉ before.linked) :
    (cleanupOrphanNewSegment call).Keeps (OldKept schema before) :=
  (Attempt.keeps_call fun _ kept => kept.withKeys (Or.inl rfl)).suppress.bind fun _ _ kept =>
    ⟨kept.unlink foreign, trivial⟩

/-- Behind the flip only the old segment is closed, and the pointer stays or goes. -/
theorem finishUpgrade_keeps {invariant : Host → Prop} {oldName : String}
    (paused : ∀ host pause, invariant host → invariant { host with pause := pause })
    (closed : ∀ host : Host, invariant host →
      invariant { host with keys := (host.keys.closeScript call.pid oldName).2 }) :
    (finishUpgrade call oldName).Keeps invariant := by
  have waits : ∀ outcomes, (waitAttached call outcomes).Keeps invariant := by
    intro outcomes
    induction outcomes with
    | nil => trivial
    | cons outcome rest ih =>
        apply (Attempt.keeps_call fun _ kept => kept).bind
        intro count
        split
        · trivial
        · exact ih
  apply (deletePause_keeps paused _).suppress.bind
  intro _
  apply Attempt.Keeps.bind
  · split
    · exact waits _
    · trivial
  · exact fun _ => Attempt.keeps_call closed

end Programs

/-- Every step of the upgrade in front of the flip succeeds on this host. -/
structure ReachesFlip (externals : Externals) (call : UpgradeCall) (host : Host) (oldName : String)
    (old : Segment) (layout : SegmentLayout) (header : List UInt8) (table : ArrowTable)
    (memory : Memory) : Prop where
  sameName : call.old.className = call.new.className
  factor : call.factorValid = true
  accepted : (canUpgrade call.old call.new).1 = true
  unobstructed : Unobstructed call host
  openable : Openable externals call host oldName old
  get : call.currentGet = .returned
  creatable : Creatable externals
    (createNewCall call old (old.memory.readNat metadataOffset 8)) host layout header
  exec : call.createExec = .returned
  translated : buildTranslationTable externals.hashName externals.castBits externals.stringArray
    call.old call.new old.layout old.memory = .ok table
  loaded : (insertMany externals.hashId externals.castBits call.new layout table).run
    (freshSegment layout header) = (.ok (old.memory.readNat metadataOffset 8), memory)

/-- A segment holds the translation of every row of the segment that was current before. -/
def Populated (externals : Externals) (call : UpgradeCall) (before : Host) (segment : Segment) :
    Prop :=
  ∃ oldName old table header,
    before.keys.current call.old.safeName = some oldName ∧ before.objects oldName = some old ∧
    buildTranslationTable externals.hashName externals.castBits externals.stringArray
      call.old call.new old.layout old.memory = .ok table ∧
    (insertMany externals.hashId externals.castBits call.new segment.layout table).run
      (freshSegment segment.layout header) =
        (.ok (old.memory.readNat metadataOffset 8), segment.memory)

/-- The pointer is unset, or it names the untouched old segment or the populated new one. -/
def UpgradeSafe (externals : Externals) (call : UpgradeCall) (before after : Host) : Prop :=
  after.keys.current call.old.safeName = none ∨
  (∃ name ∈ after.linked, after.keys.current call.old.safeName = some name ∧
    before.keys.current call.old.safeName = some name ∧
    after.objects name = before.objects name) ∨
  (after.keys.current call.old.safeName = some call.newName ∧ call.newName ∈ after.linked ∧
    ∃ segment, after.objects call.newName = some segment ∧ Populated externals call before segment)

/-- The pointer names a new segment that is not linked. -/
def Dangling (call : UpgradeCall) (host : Host) : Prop :=
  host.keys.current call.old.safeName = some call.newName ∧ call.newName ∉ host.linked

section Safety

variable {externals : Externals} {call : UpgradeCall} {before after : Host}

theorem UpgradeSafe.not_dangling (safe : UpgradeSafe externals call before after) :
    ¬ Dangling call after := by
  rintro ⟨current, unlinked⟩
  rcases safe with none | ⟨name, linked, pointed, _⟩ | ⟨_, linked, _⟩
  · rw [none] at current
    cases current
  · rw [pointed, Option.some.injEq] at current
    exact unlinked (current ▸ linked)
  · exact unlinked linked

theorem OldKept.safe (kept : OldKept call.old.safeName before after)
    (pointed : Pointed before call.old.safeName) : UpgradeSafe externals call before after := by
  rcases kept.current with none | same
  · exact Or.inl none
  · cases current : before.keys.current call.old.safeName with
    | none => exact Or.inl (same.trans current)
    | some name =>
        obtain ⟨linked, objects⟩ := kept.linked name (pointed name current)
        exact Or.inr (Or.inl ⟨name, linked, same.trans current, current, objects⟩)

/-- The host behind a successful flip. -/
def Host.flipped (host : Host) (call : UpgradeCall) : Host :=
  { host with
    keys := { host.keys with
      current := Function.update host.keys.current call.old.safeName (some call.newName) } }

theorem flipCurrent_run {host : Host} {oldName : String}
    (current : host.keys.current call.old.safeName = some oldName) :
    (flipCurrent call oldName).run host =
      match call.flip with
      | .returned => (.ok (), host.flipped call)
      | .raisedBefore => (.error .redisError, host)
      | .raisedAfter => (.error .redisError, host.flipped call) := by
  have flipped : host.keys.flipSchemaCurrent call.old.safeName oldName call.newName =
      (1, (host.flipped call).keys) := by
    simp [RegistryKeys.flipSchemaCurrent, current, Host.flipped]
  unfold flipCurrent
  cases outcome : call.flip with
  | returned =>
      rw [Attempt.run_bind_ok _ _ rfl]
      simp only [flipped]
      rfl
  | raisedBefore => exact Attempt.run_bind_error _ _ rfl
  | raisedAfter =>
      rw [Attempt.run_bind_error _ _ rfl]
      dsimp only
      rw [flipped]
      rfl

/-- From copied rows on, the run goes on with the flip and its handlers. -/
theorem migrate_copied {oldName : String} {old : Segment} {occupied : Nat}
    {opened prepared copied : Host}
    (prepare : (prepareNew externals call oldName old).run opened = (.ok occupied, prepared))
    (copy : (copyRows externals call oldName old occupied).run prepared = (.ok (), copied)) :
    (migrate externals call oldName old).run opened =
      ((((flipCurrent call oldName).onError (cleanupOrphanNewSegment call)).bind
        fun _ => finishUpgrade call oldName).onError
          (closeSegment call.pid oldName call.finalClose).suppress).run copied := by
  apply Attempt.run_onError_congr
  rw [Attempt.run_bind_ok _ _ prepare]
  apply Attempt.run_bind_congr
  apply Attempt.run_onError_congr
  exact Attempt.run_bind_ok _ _ copy

/-- The handlers of a failure in front of the end of the flip. -/
def failedMigration (call : UpgradeCall) (oldName : String) (error : HostFailure) :
    HostProgram Unit :=
  ((((Attempt.raised error : HostProgram Unit).onError (cleanupOrphanNewSegment call))).bind
    fun _ => finishUpgrade call oldName).onError
      (closeSegment call.pid oldName call.finalClose).suppress

theorem failedMigration_keeps {schema oldName : String} (error : HostFailure)
    (foreign : call.newName ∉ before.linked) :
    (failedMigration call oldName error).Keeps (OldKept schema before) := by
  apply Attempt.Keeps.onError
  · apply Attempt.Keeps.bind
    · exact Attempt.Keeps.onError trivial (cleanupOrphanNewSegment_keeps foreign)
    · exact fun _ => finishUpgrade_keeps (fun _ _ kept => ⟨kept.current, kept.linked⟩)
        fun _ kept => kept.close call.pid oldName
  · exact closeSegment_keeps.suppress

/-- A migration that does not copy all rows leaves the old segments as they were. -/
theorem migrate_uncopied {oldName : String} {old : Segment} {opened : Host}
    (kept : OldKept call.old.safeName before opened)
    (uncopied : ∀ occupied prepared copied,
      (prepareNew externals call oldName old).run opened = (.ok occupied, prepared) →
      (copyRows externals call oldName old occupied).run prepared ≠ (.ok (), copied)) :
    OldKept call.old.safeName before ((migrate externals call oldName old).run opened).2 := by
  cases prepare : (prepareNew externals call oldName old).run opened with
  | mk result prepared =>
      have keptPrepared :=
        (@prepareNew_keeps externals call call.old.safeName before oldName old).run kept
      rw [prepare] at keptPrepared
      cases result with
      | error error =>
          rw [migrate, Attempt.run_onError_error _ _ (Attempt.run_bind_error _ _ prepare)]
          have handled : ((closeSegment call.pid oldName call.finalClose).suppress.bind
              fun _ => (Attempt.raised error : HostProgram Unit)).Keeps
                (OldKept call.old.safeName before) :=
            closeSegment_keeps.suppress.bind fun _ => trivial
          exact handled.run keptPrepared
      | ok occupied =>
          obtain ⟨layout, header, preparable⟩ := prepareNew_preparable prepare
          have foreign : call.newName ∉ before.linked := fun member =>
            preparable.creatable.fresh (kept.linked _ member).1
          cases copy : (copyRows externals call oldName old occupied).run prepared with
          | mk result copied =>
              have keptCopied := (@copyRows_keeps externals call call.old.safeName before oldName old
                occupied foreign).run keptPrepared
              rw [copy] at keptCopied
              cases result with
              | ok value => exact absurd copy (uncopied occupied prepared copied prepare)
              | error error =>
                  have same : (migrate externals call oldName old).run opened =
                      (failedMigration call oldName error).run copied := by
                    apply Attempt.run_onError_congr
                    rw [Attempt.run_bind_ok _ _ prepare]
                    apply Attempt.run_bind_congr
                    apply Attempt.run_onError_congr
                    exact Attempt.run_bind_error _ _ copy
                  rw [same]
                  exact (failedMigration_keeps error foreign).run keptCopied

/-- The orphan cleanup unlinks the new segment and leaves the pointers. -/
theorem cleanupOrphanNewSegment_run (host : Host) :
    ∃ after, (cleanupOrphanNewSegment call).run host = (.ok (), after) ∧
      after.keys.current = host.keys.current ∧ call.newName ∉ after.linked := by
  unfold cleanupOrphanNewSegment
  rw [Attempt.run_bind_ok _ _ (Attempt.run_suppress _ _)]
  refine ⟨_, rfl, ?_, ?_⟩
  · cases call.orphan <;> rfl
  · exact Finset.notMem_erase _ _

/-- A failure behind the effect of the flip ends with a pointer to the unlinked new segment. -/
theorem failedMigration_dangling {host : Host} {oldName : String} (error : HostFailure)
    (pointed : host.keys.current call.old.safeName = some call.newName)
    (different : oldName ≠ call.newName) :
    Dangling call ((failedMigration call oldName error).run host).2 := by
  obtain ⟨after, ran, current, unlinked⟩ := @cleanupOrphanNewSegment_run call host
  have dangling : Dangling call after := ⟨by rw [current]; exact pointed, unlinked⟩
  have orphaned : ((((Attempt.raised error : HostProgram Unit).onError
      (cleanupOrphanNewSegment call))).bind fun _ => finishUpgrade call oldName).run host =
        (.error error, after) := by
    apply Attempt.run_bind_error
    rw [Attempt.run_onError_error _ _ (Attempt.run_raised _ _), Attempt.run_bind_ok _ _ ran]
    rfl
  have closes : ((closeSegment call.pid oldName call.finalClose).suppress.bind
      fun _ => (Attempt.raised error : HostProgram Unit)).Keeps (Dangling call) := by
    have close : (closeSegment call.pid oldName call.finalClose).Keeps (Dangling call) := by
      apply Attempt.keeps_call
      rintro host ⟨pointed, unlinked⟩
      refine ⟨?_, unlinked⟩
      rcases closeScript_current host.keys call.pid oldName call.old.safeName with same | ⟨other, _⟩
      · exact same.trans pointed
      · rw [pointed, Option.some.injEq] at other
        exact absurd other.symm different
    exact close.suppress.bind fun _ => trivial
  rw [failedMigration, Attempt.run_onError_error _ _ orphaned]
  exact closes.run dangling

/-- The pointer is gone, or it names the linked new segment with these bytes. -/
def NewKept (call : UpgradeCall) (segment : Segment) (host : Host) : Prop :=
  host.keys.current call.old.safeName = none ∨
    host.keys.current call.old.safeName = some call.newName ∧ call.newName ∈ host.linked ∧
      host.objects call.newName = some segment

theorem NewKept.safe {segment : Segment} (kept : NewKept call segment after)
    (populated : Populated externals call before segment) :
    UpgradeSafe externals call before after := by
  rcases kept with none | ⟨current, linked, object⟩
  · exact Or.inl none
  · exact Or.inr (Or.inr ⟨current, linked, segment, object, populated⟩)

theorem NewKept.close {segment : Segment} {host : Host} (kept : NewKept call segment host)
    (oldName : String) :
    NewKept call segment { host with keys := (host.keys.closeScript call.pid oldName).2 } := by
  rcases closeScript_current host.keys call.pid oldName call.old.safeName with same | ⟨_, gone⟩
  · unfold NewKept at kept ⊢
    dsimp only
    rw [same]
    exact kept
  · exact Or.inl gone

/-- A migration that copied all rows goes on as its flip does. -/
theorem migrate_moved {oldName : String} {old : Segment} {occupied : Nat}
    {opened prepared copied : Host}
    (prepare : (prepareNew externals call oldName old).run opened = (.ok occupied, prepared))
    (copy : (copyRows externals call oldName old occupied).run prepared = (.ok (), copied))
    {program : HostProgram Unit} {host : Host}
    (same : (flipCurrent call oldName).run copied = program.run host) :
    (migrate externals call oldName old).run opened =
      (((program.onError (cleanupOrphanNewSegment call)).bind
        fun _ => finishUpgrade call oldName).onError
          (closeSegment call.pid oldName call.finalClose).suppress).run host := by
  rw [migrate_copied prepare copy]
  apply Attempt.run_onError_congr
  apply Attempt.run_bind_congr
  exact Attempt.run_onError_congr _ _ same

/-- A migration that copied all rows ends as the outcome of its flip says. -/
theorem migrate_flipped {oldName : String} {old segment : Segment} {occupied : Nat}
    {opened prepared copied : Host}
    (prepare : (prepareNew externals call oldName old).run opened = (.ok occupied, prepared))
    (copy : (copyRows externals call oldName old occupied).run prepared = (.ok (), copied))
    (kept : OldKept call.old.safeName before copied)
    (current : copied.keys.current call.old.safeName = some oldName)
    (foreign : call.newName ∉ before.linked) (different : oldName ≠ call.newName)
    (linked : call.newName ∈ copied.linked) (object : copied.objects call.newName = some segment) :
    (call.flip = .returned →
      NewKept call segment ((migrate externals call oldName old).run opened).2) ∧
    (call.flip = .raisedBefore →
      OldKept call.old.safeName before ((migrate externals call oldName old).run opened).2) ∧
    (call.flip = .raisedAfter →
      Dangling call ((migrate externals call oldName old).run opened).2) := by
  have flip := @flipCurrent_run call copied oldName current
  refine ⟨?_, ?_, ?_⟩
  · intro returned
    rw [returned] at flip
    rw [@migrate_moved externals call _ _ _ _ _ _ prepare copy (.done ()) _ flip]
    have keeps : ((((Attempt.done () : HostProgram Unit).onError
        (cleanupOrphanNewSegment call)).bind fun _ => finishUpgrade call oldName).onError
          (closeSegment call.pid oldName call.finalClose).suppress).Keeps
            (NewKept call segment) := by
      apply Attempt.Keeps.onError
      · exact finishUpgrade_keeps (fun _ _ kept => kept) fun _ kept => kept.close oldName
      · exact (Attempt.keeps_call fun _ kept => kept.close oldName).suppress
    exact keeps.run (Or.inr ⟨Function.update_self _ _ _, linked, object⟩)
  · intro before_
    rw [before_] at flip
    rw [@migrate_moved externals call _ _ _ _ _ _ prepare copy (.raised .redisError) _ flip]
    exact (failedMigration_keeps .redisError foreign).run kept
  · intro after_
    rw [after_] at flip
    rw [@migrate_moved externals call _ _ _ _ _ _ prepare copy (.raised .redisError) _ flip]
    exact failedMigration_dangling .redisError (Function.update_self _ _ _) different

/-- The steps of an upgrade that reaches its flip, with the host between them. -/
theorem ReachesFlip.runs {host : Host} {oldName : String} {old : Segment} {layout : SegmentLayout}
    {header : List UInt8} {table : ArrowTable} {memory : Memory}
    (reaches : ReachesFlip externals call host oldName old layout header table memory) :
    ∃ prepared copied,
      (openOld externals call).run (host.locked call) =
        (.ok (oldName, old), (host.locked call).opened call oldName) ∧
      (prepareNew externals call oldName old).run ((host.locked call).opened call oldName) =
        (.ok (old.memory.readNat metadataOffset 8), prepared) ∧
      (copyRows externals call oldName old (old.memory.readNat metadataOffset 8)).run prepared =
        (.ok (), copied) ∧
      copied.keys.current = host.keys.current ∧ call.newName ∈ copied.linked ∧
      copied.objects call.newName = some ⟨call.new, layout, memory⟩ := by
  have openable : Openable externals call (host.locked call) oldName old :=
    { reaches.openable with }
  obtain ⟨preparable, copyable⟩ := openable.parts reaches.get reaches.exec
    { reaches.creatable with } reaches.translated reaches.loaded
  exact ⟨_, _, openable.run, preparable.run, copyable.run, rfl, Finset.mem_insert_self _ _,
    Function.update_self _ _ _⟩

/-- An upgrade whose three first parts succeed reaches its flip. -/
theorem reachesFlip_of_runs {host opened prepared copied : Host} {oldName : String} {old : Segment}
    {occupied : Nat} (sameName : call.old.className = call.new.className)
    (factor : call.factorValid = true) (accepted : (canUpgrade call.old call.new).1 = true)
    (unobstructed : Unobstructed call host)
    (open_ : (openOld externals call).run (host.locked call) = (.ok (oldName, old), opened))
    (prepare : (prepareNew externals call oldName old).run opened = (.ok occupied, prepared))
    (copy : (copyRows externals call oldName old occupied).run prepared = (.ok (), copied)) :
    ∃ layout header table memory,
      ReachesFlip externals call host oldName old layout header table memory := by
  have openable := openOld_openable open_
  rw [openable.run] at open_
  obtain ⟨_, rfl⟩ := Prod.mk.inj open_
  obtain ⟨layout, header, preparable⟩ := prepareNew_preparable prepare
  have old' : ((host.locked call).opened call oldName).objects oldName = some old :=
    openable.object
  have rows := preparable.rows
  rw [old', Option.getD_some] at rows
  subst rows
  have different : oldName ≠ call.newName := by
    rintro rfl
    exact preparable.creatable.fresh openable.linked
  rw [preparable.run] at prepare
  obtain ⟨_, rfl⟩ := Prod.mk.inj prepare
  obtain ⟨segment, table, memory, copyable⟩ := copyRows_copyable copy
  have object : (((host.locked call).opened call oldName).prepared call old
      (old.memory.readNat metadataOffset 8) layout header).objects oldName = some old := by
    simp only [Host.prepared, Host.registered, Host.withSegment]
    rw [Function.update_of_ne different]
    exact old'
  have fresh : segment = ⟨call.new, layout, freshSegment layout header⟩ := by
    have found := copyable.object
    simp only [Host.prepared, Host.registered, Host.withSegment, Function.update_self,
      Option.some.injEq] at found
    exact found.symm
  subst fresh
  refine ⟨layout, header, table, memory, ?_⟩
  exact
    { sameName := sameName
      factor := factor
      accepted := accepted
      unobstructed := unobstructed
      openable := { openable with }
      get := preparable.get
      creatable := { preparable.creatable with }
      exec := preparable.exec
      translated := by
        have translated := copyable.translated
        rwa [object, Option.getD_some] at translated
      loaded := copyable.loaded }

/-- A run of the `try` block ends with a safe pointer unless the reply of its flip was lost. -/
theorem upgradeBody_cases {host : Host} (sameName : call.old.className = call.new.className)
    (factor : call.factorValid = true) (accepted : (canUpgrade call.old call.new).1 = true) (unobstructed : Unobstructed call host) :
    let body := (openOld externals call).bind fun opened =>
      migrate externals call opened.1 opened.2
    let lost := call.flip = .raisedAfter ∧ ∃ oldName old layout header table memory,
      ReachesFlip externals call host oldName old layout header table memory
    (lost → Dangling call (body.run (host.locked call)).2) ∧
    (¬ lost → OldKept call.old.safeName host (body.run (host.locked call)).2 ∨
      ∃ segment, Populated externals call host segment ∧
        NewKept call segment (body.run (host.locked call)).2) := by
  intro body lost
  have keptLocked : OldKept call.old.safeName host (host.locked call) :=
    ⟨Or.inr rfl, fun _ member => ⟨member, rfl⟩⟩
  cases open_ : (openOld externals call).run (host.locked call) with
  | mk result opened =>
      have keptOpened :=
        (@openOld_keeps externals call call.old.safeName host).run keptLocked
      rw [open_] at keptOpened
      cases result with
      | error error =>
          have ran : body.run (host.locked call) = (.error error, opened) :=
            Attempt.run_bind_error _ _ open_
          rw [ran]
          refine ⟨?_, fun _ => Or.inl keptOpened⟩
          rintro ⟨_, oldName, old, layout, header, table, memory, reaches⟩
          obtain ⟨_, _, ok, _⟩ := reaches.runs
          rw [open_] at ok
          cases ok
      | ok value =>
          obtain ⟨oldName, old⟩ := value
          have ran : body.run (host.locked call) =
              (migrate externals call oldName old).run opened := Attempt.run_bind_ok _ _ open_
          rw [ran]
          by_cases copied : ∃ occupied prepared copied,
              (prepareNew externals call oldName old).run opened = (.ok occupied, prepared) ∧
              (copyRows externals call oldName old occupied).run prepared = (.ok (), copied)
          · obtain ⟨occupied, prepared, copied, prepare, copy⟩ := copied
            obtain ⟨layout, header, table, memory, reaches⟩ := reachesFlip_of_runs sameName factor
              accepted unobstructed open_ prepare copy
            obtain ⟨prepared', copied', open', prepare', copy', current, linked, object⟩ :=
              reaches.runs
            rw [open'] at open_
            obtain ⟨_, rfl⟩ := Prod.mk.inj open_
            have foreign : call.newName ∉ host.linked := reaches.creatable.fresh
            have different : oldName ≠ call.newName := by
              rintro rfl
              exact foreign reaches.openable.linked
            have keptPrepared :=
              (@prepareNew_keeps externals call call.old.safeName host oldName old).run keptOpened
            rw [prepare'] at keptPrepared
            have keptCopied := (@copyRows_keeps externals call call.old.safeName host oldName old
              (old.memory.readNat metadataOffset 8) foreign).run keptPrepared
            rw [copy'] at keptCopied
            obtain ⟨returned, raisedBefore, raisedAfter⟩ := migrate_flipped prepare' copy' keptCopied
              (by rw [current]; exact reaches.openable.current) foreign different linked object
            refine ⟨fun lost => raisedAfter lost.1, ?_⟩
            intro answered
            cases flip : call.flip with
            | returned =>
                refine Or.inr ⟨_, ⟨oldName, old, table, header, reaches.openable.current,
                  reaches.openable.object, reaches.translated, reaches.loaded⟩, returned flip⟩
            | raisedBefore => exact Or.inl (raisedBefore flip)
            | raisedAfter =>
                exact absurd ⟨flip, oldName, old, layout, header, table, memory, reaches⟩ answered
          · refine ⟨?_, fun _ => Or.inl (migrate_uncopied keptOpened ?_)⟩
            · rintro ⟨_, oldName', old', layout, header, table, memory, reaches⟩
              obtain ⟨prepared', copied', open', prepare', copy', _⟩ := reaches.runs
              rw [open'] at open_
              obtain ⟨same, rfl⟩ := Prod.mk.inj open_
              obtain ⟨rfl, rfl⟩ := Prod.mk.inj (Except.ok.inj same)
              exact absurd ⟨_, _, _, prepare', copy'⟩ copied
            · exact fun occupied prepared after prepare copy =>
                copied ⟨occupied, prepared, after, prepare, copy⟩

/-- The release of the lock and of the pause keeps everything that ignores them. -/
theorem upgradeCleanup_keeps {invariant : Host → Prop} {α : Type} (result : Except HostFailure α)
    (locked : ∀ host lock, invariant host → invariant { host with lock := lock })
    (paused : ∀ host pause, invariant host → invariant { host with pause := pause }) :
    (((releaseLock call call.release).suppress.bind fun _ =>
      (deletePause call call.finalPause).suppress).bind
        fun _ => (Attempt.ofExcept result : HostProgram α)).Keeps invariant :=
  ((releaseLock_keeps locked _).suppress.bind fun _ =>
    (deletePause_keeps paused _).suppress).bind fun _ => Attempt.keeps_ofExcept result

/-- An upgrade ends with a safe pointer exactly when the reply of its flip was not lost. -/
theorem upgradeSchema_safe_iff {host : Host} (pointed : Pointed host call.old.safeName) :
    UpgradeSafe externals call host ((upgradeSchema externals call).run host).2 ↔
      ¬ (call.flip = .raisedAfter ∧ ∃ oldName old layout header table memory,
        ReachesFlip externals call host oldName old layout header table memory) := by
  have unreached : ∀ after, OldKept call.old.safeName host after →
      (∀ oldName old layout header table memory,
        ¬ ReachesFlip externals call host oldName old layout header table memory) →
      (UpgradeSafe externals call host after ↔
        ¬ (call.flip = .raisedAfter ∧ ∃ oldName old layout header table memory,
          ReachesFlip externals call host oldName old layout header table memory)) := by
    intro after kept never
    refine ⟨?_, fun _ => kept.safe pointed⟩
    rintro _ ⟨_, oldName, old, layout, header, table, memory, reaches⟩
    exact never oldName old layout header table memory reaches
  by_cases valid : call.old.className = call.new.className ∧ call.factorValid = true ∧
      (canUpgrade call.old call.new).1 = true
  · obtain ⟨sameName, factor, accepted⟩ := valid
    unfold upgradeSchema
    rw [if_neg (not_not.mpr sameName), if_neg (by rw [factor]; decide),
      if_neg (by rw [accepted]; decide)]
    cases passed : (upgradePrecondition call).run host with
    | mk result locked =>
        cases result with
        | error error =>
            rw [Attempt.run_bind_error _ _ passed]
            have kept := (@upgradePrecondition_keeps call call.old.safeName host).run
              (OldKept.refl call.old.safeName host)
            rw [passed] at kept
            apply unreached locked kept
            intro oldName old layout header table memory reaches
            rw [reaches.unobstructed.run] at passed
            cases passed
        | ok value =>
            have unobstructed := upgradePrecondition_unobstructed passed
            rw [Attempt.run_bind_ok _ _ unobstructed.run, Attempt.run_ensure]
            obtain ⟨lost, answered⟩ :=
              @upgradeBody_cases externals call host sameName factor accepted unobstructed
            constructor
            · intro safe isLost
              exact safe.not_dangling ((upgradeCleanup_keeps _ (fun _ _ dangling => dangling)
                fun _ _ dangling => dangling).run (lost isLost))
            · intro notLost
              rcases answered notLost with kept | ⟨segment, populated, kept⟩
              · exact ((upgradeCleanup_keeps _ (fun _ _ kept => ⟨kept.current, kept.linked⟩)
                  fun _ _ kept => ⟨kept.current, kept.linked⟩).run kept).safe pointed
              · exact ((upgradeCleanup_keeps _ (fun _ _ kept => kept)
                  fun _ _ kept => kept).run kept).safe populated
  · have refused : ∃ error, (upgradeSchema externals call).run host = (.error error, host) := by
      unfold upgradeSchema
      split
      · exact ⟨_, rfl⟩
      · rename_i sameName
        split
        · exact ⟨_, rfl⟩
        · rename_i factor
          split
          · exact ⟨_, rfl⟩
          · rename_i accepted
            exact absurd ⟨not_not.mp sameName, by simpa using factor, by simpa using accepted⟩ valid
    obtain ⟨error, ran⟩ := refused
    rw [ran]
    apply unreached host (OldKept.refl _ host)
    exact fun oldName old layout header table memory reaches =>
      valid ⟨reaches.sameName, reaches.factor, reaches.accepted⟩

end Safety

/-- A `create` with a pointer ends with a pointer to a linked segment exactly when the reply of its
transaction was not lost. -/
theorem create_pointed_iff {externals : Externals} {call : CreateCall} {host : Host}
    (published : call.setCurrent = true) (pointed : Pointed host call.schema.safeName) :
    Pointed ((create externals call).run host).2 call.schema.safeName ↔
      ¬ (call.exec = .raisedAfter ∧ ∃ layout header,
        Creatable externals call host layout header) := by
  have named : ∀ host : Host, (host.registered call).keys.current call.schema.safeName =
      some call.name := by
    intro host
    simp [Host.registered, RegistryKeys.createPipeline, published]
  by_cases reached : ∃ layout header, Creatable externals call host layout header
  · obtain ⟨layout, header, creatable⟩ := reached
    rw [creatable.run]
    cases exec : call.exec with
    | returned =>
        refine ⟨fun _ lost => CallOutcome.noConfusion lost.1, fun _ => ?_⟩
        intro name current
        dsimp only at current ⊢
        rw [named, Option.some.injEq] at current
        rw [← current]
        exact Finset.mem_insert_self _ _
    | raisedBefore =>
        refine ⟨fun _ lost => CallOutcome.noConfusion lost.1, fun _ => ?_⟩
        intro name current
        have linked := pointed name current
        refine Finset.mem_erase.mpr ⟨?_, Finset.mem_insert_of_mem linked⟩
        rintro rfl
        exact creatable.fresh linked
    | raisedAfter =>
        refine ⟨?_, fun kept => absurd ⟨rfl, layout, header, creatable⟩ kept⟩
        intro after _
        exact Finset.notMem_erase _ _ (after call.name (named _))
  · obtain ⟨error, after, ran, keys, linked⟩ := create_unreached fun layout header creatable =>
      reached ⟨layout, header, creatable⟩
    rw [ran]
    refine ⟨fun _ lost => reached lost.2, fun _ => ?_⟩
    intro name current
    dsimp only at current ⊢
    rw [keys] at current
    rw [linked]
    exact pointed name current

/-- A failure leaves a sound pointer exactly when the reply of the publishing call was not lost. -/
theorem pointer_survives_iff (externals : Externals) :
    (∀ (call : CreateCall) (host : Host), call.setCurrent = true →
      Pointed host call.schema.safeName →
      (Pointed ((create externals call).run host).2 call.schema.safeName ↔
        ¬ (call.exec = .raisedAfter ∧ ∃ layout header,
          Creatable externals call host layout header))) ∧
    ∀ (call : UpgradeCall) (host : Host), Pointed host call.old.safeName →
      (UpgradeSafe externals call host ((upgradeSchema externals call).run host).2 ↔
        ¬ (call.flip = .raisedAfter ∧ ∃ oldName old layout header table memory,
          ReachesFlip externals call host oldName old layout header table memory)) :=
  ⟨fun _ _ published pointed => create_pointed_iff published pointed,
    fun _ _ pointed => upgradeSchema_safe_iff pointed⟩

theorem packHeader_length {externals : Externals} {schema : FeatureSchema} {capacity : Nat}
    {header : List UInt8} (packed : packHeader externals schema capacity = some header) : header.length = headerSize := by
  unfold packHeader at packed
  split at packed
  · cases packed
  · split at packed
    · cases packed
      simp [headerSize]
    · cases packed

/-- A schema with a layout and a version of 32 bits has a header. -/
theorem packHeader_exists {externals : Externals} {schema : FeatureSchema} {layout : SegmentLayout}
    (table : computeRowOffsetTable externals.hashName schema = .ok layout.rowOffsetTable)
    (version : 0 ≤ schema.version ∧ schema.version < 2 ^ 32) (capacity : layout.capacity < 2 ^ 32) :
    ∃ header, packHeader externals schema layout.capacity = some header := by
  unfold packHeader
  cases compiled : compileSchema externals.hashName schema with
  | error error =>
      rw [computeRowOffsetTable, compiled] at table
      cases table
  | ok rows => exact ⟨_, if_pos ⟨version.1, version.2, capacity⟩⟩

/-- A call of `create` for the sample schema that publishes the segment `new`. -/
def sampleCreate (exec : CallOutcome) : CreateCall where
  pid := 1
  schema := sampleSchema
  name := "new"
  capacity := 2
  maxIdBytes := 8
  setCurrent := true
  space := true
  exec := exec

/-- A fresh segment of the sample schema. -/
def sampleOldSegment : Segment :=
  ⟨sampleSchema, sampleLayout, freshSegment sampleLayout (List.replicate 16 0)⟩

/-- A host whose current sample segment is fresh. -/
def sampleHost : Host where
  keys :=
    { current := Function.update (fun _ => none) sampleSchema.safeName (some "old")
      refcount := Function.update (fun _ => none) "old" (some 1)
      pidSegments := fun _ => []
      cleanupQueue := ∅
      segmentToSchema := Function.update (fun _ => none) "old" (some sampleSchema.safeName)
      heartbeats := fun _ => none }
  linked := {"old"}
  objects := Function.update (fun _ => none) "old" (some sampleOldSegment)
  lock := fun _ => none
  pause := fun _ => none
  pending := none
  liveness := false

/-- An upgrade of the sample schema whose calls all return, up to the flip. -/
def sampleUpgradeCall (flip : CallOutcome) : UpgradeCall where
  pid := 1
  old := sampleSchema
  new := sampleUpgrade
  token := "token"
  newName := "new"
  factorValid := true
  scaled := fun capacity => capacity
  space := true
  waitForConsumer := false
  lock := .returned
  holder := .returned
  xpending := .returned
  liveness := .returned
  refusal := .returned
  pause := .returned
  openGet := .returned
  openExec := .returned
  currentGet := .returned
  createExec := .returned
  flip := flip
  clearPause := .returned
  attach := []
  close := .returned
  orphan := .returned
  finalClose := .returned
  release := .returned
  finalPause := .returned

theorem sampleHost_current : sampleHost.keys.current sampleSchema.safeName = some "old" := by
  simp [sampleHost]

theorem sampleHost_pointed : Pointed sampleHost sampleSchema.safeName := by
  intro name current
  rw [sampleHost_current, Option.some.injEq] at current
  rw [← current]
  exact Finset.mem_singleton_self _

theorem sampleCreate_creatable (exec : CallOutcome) :
    ∃ layout header, Creatable sampleExternals (sampleCreate exec) sampleHost layout header := by
  obtain ⟨header, packed⟩ := @packHeader_exists sampleExternals sampleSchema sampleLayout
    sample_table (by decide) (by decide)
  have fresh : "new" ∉ sampleHost.linked := by decide
  exact ⟨sampleLayout, header, computeLayout_sample_of_hash rfl, rfl, fresh, packed⟩

theorem sampleUpgradeCall_reaches (flip : CallOutcome) :
    ∃ oldName old layout header table memory,
      ReachesFlip sampleExternals (sampleUpgradeCall flip) sampleHost oldName old layout header table
        memory := by
  have noRows : sampleOldSegment.memory.readNat metadataOffset 8 = 0 :=
    (freshSegment_cursors sampleLayout_sound _).1
  have fresh : "new" ∉ sampleHost.linked := by decide
  obtain ⟨table, _⟩ := computeLayout_parts computeLayout_sampleUpgrade
  obtain ⟨header, packed⟩ := @packHeader_exists sampleExternals sampleUpgrade sampleUpgradeLayout
    table (by decide) (by decide)
  have ids : translateIds sampleLayout sampleOldSegment.memory 0 = .ok [] := rfl
  have translated : buildTranslationTable sampleExternals.hashName sampleExternals.castBits
      sampleExternals.stringArray sampleSchema sampleUpgrade sampleLayout sampleOldSegment.memory =
        .ok (translatedTable sampleHash sampleCast sampleSchema sampleUpgrade sampleLayout
          sampleOldSegment.memory []) := by
    unfold buildTranslationTable
    dsimp only
    rw [noRows, translateFields_eq _ _ _ _ sample_table, ids]
    rfl
  refine ⟨"old", sampleOldSegment, sampleUpgradeLayout, header,
    translatedTable sampleHash sampleCast sampleSchema sampleUpgrade sampleLayout
      sampleOldSegment.memory [], freshSegment sampleUpgradeLayout header, ?_⟩
  exact
    { sameName := rfl
      factor := rfl
      accepted := show (canUpgrade sampleSchema sampleUpgrade).1 = true by decide
      unobstructed := ⟨rfl, rfl, fun _ => rfl, rfl, rfl⟩
      openable := ⟨rfl, rfl, sampleHost_current, rfl,
        Finset.mem_singleton_self _, verifyHeader_self sample_table, rfl⟩
      get := rfl
      creatable := by
        rw [noRows]
        exact ⟨computeLayout_sampleUpgrade, rfl, fresh, packed⟩
      exec := rfl
      translated := translated
      loaded := by
        rw [noRows]
        exact insertMany_empty _ _ _ _ rfl _ }

/-- The sample calls whose replies all arrive leave sound pointers. -/
theorem pointer_survives_iff_sample :
    Pointed ((create sampleExternals (sampleCreate .returned)).run sampleHost).2
      sampleSchema.safeName ∧
    UpgradeSafe sampleExternals (sampleUpgradeCall .returned) sampleHost
      ((upgradeSchema sampleExternals (sampleUpgradeCall .returned)).run sampleHost).2 := by
  obtain ⟨created, upgraded⟩ := pointer_survives_iff sampleExternals
  exact ⟨(created (sampleCreate .returned) sampleHost rfl sampleHost_pointed).mpr
      fun lost => CallOutcome.noConfusion lost.1,
    (upgraded (sampleUpgradeCall .returned) sampleHost sampleHost_pointed).mpr
      fun lost => CallOutcome.noConfusion lost.1⟩

/-- A lost reply of the publishing call leaves a pointer to an unlinked segment. -/
theorem pointer_dangles :
    Pointed sampleHost sampleSchema.safeName ∧
    ¬ Pointed ((create sampleExternals (sampleCreate .raisedAfter)).run sampleHost).2
      sampleSchema.safeName ∧
    ¬ UpgradeSafe sampleExternals (sampleUpgradeCall .raisedAfter) sampleHost
      ((upgradeSchema sampleExternals (sampleUpgradeCall .raisedAfter)).run sampleHost).2 := by
  refine ⟨sampleHost_pointed, ?_, ?_⟩
  · intro kept
    exact (create_pointed_iff (show (sampleCreate .raisedAfter).setCurrent = true from rfl)
      sampleHost_pointed).mp kept ⟨rfl, sampleCreate_creatable _⟩
  · intro safe
    exact (upgradeSchema_safe_iff sampleHost_pointed).mp safe ⟨rfl, sampleUpgradeCall_reaches _⟩

end Quorin
