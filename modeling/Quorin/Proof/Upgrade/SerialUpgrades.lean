import Quorin.Proof.Upgrade.Overlap
import Quorin.Proof.Registry.Pointer

namespace Quorin

open ByteMemory FaultyCalls Overlap

/-- A run has opened a segment and not closed it. -/
structure Holding {ι : Type} (calls : ι → UpgradeCall) (index : ι) (name : String) (old : Segment)
    (state : Overlap ι) : Prop where
  published : name ∈ state.published
  holds : index ∈ state.holders name
  object : state.host.objects name = some old
  opened : OpenedBy calls index name state.past

/-- A run has created its new segment and neither published nor unlinked it. -/
structure Building {ι : Type} (calls : ι → UpgradeCall) (index : ι) (state : Overlap ι) : Prop where
  building : index ∈ state.building
  created : CreatedBy index (calls index).newName state.past

/-- A run has registered its new segment. -/
structure Registered {ι : Type} (calls : ι → UpgradeCall) (index : ι) (segment : Segment)
    (state : Overlap ι) : Prop extends Building calls index state where
  counted : state.host.keys.refcount (calls index).newName = some 1
  object : state.host.objects (calls index).newName = some segment

/-- A segment holds the translation of every row of an old one. -/
def Translates (externals : Externals) (call : UpgradeCall) (old segment : Segment) : Prop :=
  ∃ table header,
    buildTranslationTable externals.hashName externals.castBits externals.stringArray
      call.old call.new old.layout old.memory = .ok table ∧
    (insertMany externals.hashId externals.castBits call.new segment.layout table).run
      (freshSegment segment.layout header) =
        (.ok (old.memory.readNat metadataOffset 8), segment.memory)

theorem Host.withMemory_object {host : Host} {name : String} {segment : Segment}
    (object : host.objects name = some segment) (change : Memory → Memory) :
    (host.withMemory name change).objects name =
      some { segment with memory := change segment.memory } := by
  simp [Host.withMemory, object]

section Stable

variable {ι : Type} {externals : Externals} {calls : ι → UpgradeCall} {index : ι}
  {before after : Overlap ι} {name : String} {old segment : Segment}

theorem Holding.relied (holding : Holding calls index name old before)
    (relied : Rely externals calls index before after) : Holding calls index name old after where
  published := relied.published holding.published
  holds := (relied.holders name).mpr holding.holds
  object := (relied.objects name holding.published).trans holding.object
  opened := holding.opened.mono relied.past

theorem Building.relied (building : Building calls index before)
    (relied : Rely externals calls index before after) : Building calls index after where
  building := relied.building.mpr building.building
  created := building.created.mono relied.past

theorem Registered.relied (registered : Registered calls index segment before)
    (relied : Rely externals calls index before after) : Registered calls index segment after where
  toBuilding := registered.toBuilding.relied relied
  counted := (relied.newCount registered.building).trans registered.counted
  object := (relied.newObject registered.building).trans registered.object

/-- What a run keeps when it takes a turn that changes none of its holds. -/
theorem Holding.kept (holding : Holding calls index name old before) {turn : Turn ι Host}
    (published : before.published ⊆ after.published) (holders : after.holders = before.holders)
    (object : after.host.objects name = before.host.objects name)
    (past : after.past = before.past ++ [turn]) : Holding calls index name old after :=
  ⟨published holding.published, holders ▸ holding.holds, object.trans holding.object,
    holding.opened.mono fun _ member => past ▸ List.mem_append_left _ member⟩

theorem Building.turned (building : Building calls index before) {host : Host} :
    Building calls index (before.turned (some index) host) :=
  ⟨building.building, building.created.mono fun _ member => List.mem_append_left _ member⟩

end Stable

section Programs

variable {ι : Type} {externals : Externals} {calls : ι → UpgradeCall} {index : ι}
  {state : Overlap ι} {α : Type}

/-- A quiet turn of a run is one that everybody relies on. -/
theorem quiet_turn {start : Overlap ι} {host : Host} (orderly : start.Orderly externals calls)
    (quiet : QuietEffect (calls index) start.host host) :
    Guarantee externals calls index start (start.turned (some index) host) ∧
      ∀ other, Rely externals calls other start (start.turned (some index) host) := by
  obtain ⟨kept, relied⟩ := @Orderly.aside _ _ _ _ (some index) host orderly quiet.keys quiet.linked
    quiet.objects (by
      intro actor acts
      cases acts
      exact quiet.lock)
  exact ⟨⟨rfl, kept, fun other _ => relied other⟩, relied⟩

/-- A program of quiet steps keeps what a run relies on. -/
theorem guarded_quiet {program : HostProgram α} {kept : Overlap ι → Prop}
    (quiet : program.Within (QuietEffect (calls index)))
    (stable : ∀ before after, kept before → Rely externals calls index before after → kept after)
    (holds : kept state) :
    program.Guarded (upgradeProtocol externals calls index) (fun _ after => kept after) state := by
  induction program generalizing state with
  | done value => exact holds
  | raised error => exact holds
  | step effect next ih =>
      intro start relied
      obtain ⟨guarantee, others⟩ := quiet_turn relied.orderly (quiet start.host).1
      exact ⟨_, rfl, guarantee,
        ih _ (quiet start.host).2 (stable _ _ (stable _ _ holds relied) (others index))⟩

/-- A call that reads. -/
theorem guarded_read {outcome : CallOutcome} {error : HostFailure} {result : Host → α}
    {returns : α → Overlap ι → Prop} {raises : Overlap ι → Prop}
    (answered : outcome ≠ .raisedAfter) (fails : raises state)
    (reads : ∀ start after, Rely externals calls index state start →
      Rely externals calls index start after → returns (result start.host) after) :
    (Attempt.call outcome error id result).Guarded (upgradeProtocol externals calls index)
      (Attempt.Either returns raises) state := by
  apply Attempt.guarded_call answered fails
  intro start relied
  obtain ⟨guarantee, others⟩ := @quiet_turn _ _ _ index _ _ relied.orderly (.refl start.host)
  exact ⟨start.turned (some index) start.host, rfl, guarantee,
    reads start _ relied (others index)⟩

/-- A local step that reads. -/
theorem guarded_inspect {next : Host → HostProgram α}
    {ends : Except HostFailure α → Overlap ι → Prop}
    (rest : ∀ start after, Rely externals calls index state start →
      Rely externals calls index start after →
      (next start.host).Guarded (upgradeProtocol externals calls index) ends after) :
    (Attempt.inspect next).Guarded (upgradeProtocol externals calls index) ends state := by
  intro start relied
  obtain ⟨guarantee, others⟩ := @quiet_turn _ _ _ index _ _ relied.orderly (.refl start.host)
  exact ⟨start.turned (some index) start.host, rfl, guarantee, rest start _ relied (others index)⟩

section Open

variable [DecidableEq ι]

/-- The open of the current segment counts the run in on a published segment. -/
theorem openCurrentSegment_guarded {schema : FeatureSchema} {get exec : CallOutcome}
    (getAnswered : get ≠ .raisedAfter) (execAnswered : exec ≠ .raisedAfter)
    (idle : ∀ name, index ∉ state.holders name) :
    (openCurrentSegment externals (calls index).pid schema get exec).Guarded
      (upgradeProtocol externals calls index)
      (Attempt.Either (fun found => Holding calls index found.1 found.2) fun _ => True) state := by
  have read : (Attempt.call get HostFailure.redisError id
      fun host : Host => host.keys.current schema.safeName).Guarded
        (upgradeProtocol externals calls index)
        (Attempt.Either (fun current after => (∀ name, current = some name → name ∈ after.published) ∧
          ∀ name, index ∉ after.holders name) fun _ => True) state :=
    guarded_read getAnswered trivial fun start after relied aside =>
      ⟨fun name pointed => aside.published (relied.orderly.pointed schema.safeName name pointed),
        fun name holds => idle name ((relied.holders name).mp ((aside.holders name).mp holds))⟩
  refine read.seq fun current reached found => ?_
  cases current with
  | none => trivial
  | some name =>
      obtain ⟨member, free⟩ := found
      replace member := member name rfl
      apply guarded_inspect
      intro start after relied aside
      cases object : start.host.objects name with
      | none => trivial
      | some segment =>
          dsimp only
          split
          · trivial
          · split
            · trivial
            · apply Attempt.guarded_call execAnswered trivial
              intro last later
              have behind := (relied.trans aside).trans later
              have published := behind.published member
              have fresh : index ∉ last.holders name :=
                fun holds => free name ((behind.holders name).mp holds)
              refine ⟨last.opened index (calls index).pid name, rfl,
                later.orderly.opens published fresh, published, ?_, ?_, ?_⟩
              · simp [opened]
              · exact ((aside.trans later).objects name (relied.published member)).trans object
              · exact ⟨_, List.mem_append_right _ (List.mem_singleton_self _), rfl, rfl⟩

end Open

section Create

variable {name : String} {old : Segment}

/-- A published segment is not the one that a run builds. -/
theorem Building.ne (building : Building calls index state) (orderly : state.Orderly externals calls)
    (holding : Holding calls index name old state) : name ≠ (calls index).newName := by
  rintro rfl
  exact orderly.unpublished index building.building holding.published

/-- A run that unlinks the segment that it builds still holds the old one. -/
theorem unlink_guarded (holding : Holding calls index name old state)
    (building : Building calls index state) :
    (Attempt.step (fun host : Host => host.unlink (calls index).newName)
      fun _ => (.done () : HostProgram Unit)).Guarded (upgradeProtocol externals calls index)
        (fun _ => Holding calls index name old) state := by
  intro start relied
  have built := building.relied relied
  exact ⟨start.finishedNew index (start.host.unlink (calls index).newName) start.published, rfl,
    relied.orderly.unlinks built.building built.created,
    (holding.relied relied).kept subset_rfl rfl rfl rfl⟩

/-- The transaction of `create` on the segment that a run builds. -/
theorem createPipeline_guarantee (orderly : state.Orderly externals calls)
    (building : Building calls index state) (pid : Nat) (schema : String) :
    Guarantee externals calls index state (state.turned (some index)
      { state.host with
        keys := state.host.keys.createPipeline pid schema (calls index).newName false }) := by
  apply orderly.works building.building
  · refine .kept (fun _ _ _ _ same gone => absurd same gone) rfl fun other removes => ?_
    rcases removes with ⟨before, after⟩ | ⟨before, after⟩ | ⟨before, after⟩ | ⟨before, after⟩
    · exact after before
    · simp only [RegistryKeys.createPipeline, Function.update_apply] at after
      split at after
      · cases after
      · exact before after
    · simp only [RegistryKeys.createPipeline, Function.update_apply] at after
      split at after
      · cases after
      · exact before after
    · exact before after
  · rfl
  · rfl
  · exact fun _ _ => rfl
  · exact fun other different => Function.update_of_ne different _ _

/-- A write of a run to the segment that it builds. -/
theorem withMemory_guarantee (orderly : state.Orderly externals calls)
    (building : Building calls index state) (change : Memory → Memory) :
    Guarantee externals calls index state
      (state.turned (some index) (state.host.withMemory (calls index).newName change)) := by
  apply orderly.works building.building
  · exact .kept (fun _ _ _ _ same gone => absurd same gone) rfl fun other removes => by
      rcases removes with ⟨before, after⟩ | ⟨before, after⟩ | ⟨before, after⟩ | ⟨before, after⟩
      · exact after before
      · exact before after
      · exact before after
      · exact before after
  · rfl
  · rfl
  · exact fun other different => Function.update_of_ne different _ _
  · exact fun _ _ => rfl

/-- The registration of a linked new segment. -/
theorem registerSegment_guarded {create' : CreateCall} {layout : SegmentLayout}
    {schema : FeatureSchema} {memory : Memory} (named : create'.name = (calls index).newName)
    (silent : create'.setCurrent = false) (answered : create'.exec ≠ .raisedAfter)
    (holding : Holding calls index name old state) (building : Building calls index state)
    (object : state.host.objects (calls index).newName = some ⟨schema, layout, memory⟩) :
    (registerSegment externals create' layout).Guarded (upgradeProtocol externals calls index)
      (Attempt.Either (fun _ after => Holding calls index name old after ∧
        ∃ segment header, Registered calls index segment after ∧
          segment.memory = freshSegment segment.layout header)
        fun after => Holding calls index name old after ∧ Building calls index after) state := by
  unfold registerSegment
  split
  · exact ⟨holding, building⟩
  · rename_i header packed
    intro start relied
    rw [named]
    have held := holding.relied relied
    have builds := building.relied relied
    have different := builds.ne relied.orderly held
    have written : (start.host.withMemory (calls index).newName
        fun _ => freshSegment layout header).objects (calls index).newName =
          some ⟨schema, layout, freshSegment layout header⟩ :=
      Host.withMemory_object ((relied.newObject building.building).trans object) _
    have heldAfter : Holding calls index name old (start.turned (some index)
        (start.host.withMemory (calls index).newName fun _ => freshSegment layout header)) :=
      held.kept subset_rfl rfl (Function.update_of_ne different _ _) rfl
    refine ⟨start.turned (some index)
      (start.host.withMemory (calls index).newName fun _ => freshSegment layout header), rfl,
      withMemory_guarantee relied.orderly builds _, ?_⟩
    apply Attempt.guarded_call answered ⟨heldAfter, builds.turned⟩
    intro last later
    have buildsLast := builds.turned.relied later
    refine ⟨last.turned (some index) { last.host with
        keys := last.host.keys.createPipeline create'.pid create'.schema.safeName
          (calls index).newName false }, by rw [silent]; rfl,
      createPipeline_guarantee later.orderly buildsLast _ _,
      (heldAfter.relied later).kept subset_rfl rfl rfl rfl,
      ⟨schema, layout, freshSegment layout header⟩, header, ?_, rfl⟩
    exact
      { toBuilding := buildsLast.turned
        counted := Function.update_self _ _ _
        object := (later.newObject builds.turned.building).trans written }

/-- A `create` of the new segment registers a fresh segment, or leaves nothing behind. -/
theorem create_guarded {create' : CreateCall} (named : create'.name = (calls index).newName)
    (silent : create'.setCurrent = false) (answered : create'.exec ≠ .raisedAfter)
    (holding : Holding calls index name old state) :
    (create externals create').Guarded (upgradeProtocol externals calls index)
      (Attempt.Either (fun _ after => Holding calls index name old after ∧
        ∃ segment header, Registered calls index segment after ∧
          segment.memory = freshSegment segment.layout header)
        (Holding calls index name old)) state := by
  unfold create
  split
  · exact holding
  · rename_i layout computed
    split
    · exact holding
    · intro start relied
      have held := holding.relied relied
      rw [named]
      by_cases present : (calls index).newName ∈ start.host.linked
      · have same : start.host.link (calls index).newName create'.schema layout = start.host :=
          if_pos present
        obtain ⟨guarantee, others⟩ := @quiet_turn _ externals calls index start start.host
          relied.orderly (.refl start.host)
        refine ⟨start.turned (some index) start.host, same.symm, guarantee, ?_⟩
        rw [upgradeProtocol_view]
        dsimp only
        rw [if_pos present]
        exact held.relied (others index)
      · have link : start.host.link (calls index).newName create'.schema layout =
            { start.host with
              linked := Insert.insert (calls index).newName start.host.linked
              objects := Function.update start.host.objects (calls index).newName
                (some ⟨create'.schema, layout, Memory.zero⟩) } := if_neg present
        have different : name ≠ (calls index).newName := by
          intro same
          exact present (same ▸ relied.orderly.linked name held.published)
        refine ⟨start.linkedNew index
          (start.host.link (calls index).newName create'.schema layout), rfl,
          relied.orderly.links present, ?_⟩
        rw [upgradeProtocol_view]
        dsimp only
        rw [if_neg present]
        have linked : (start.host.link (calls index).newName create'.schema layout).objects name =
            start.host.objects name := by
          rw [link]
          exact Function.update_of_ne different _ _
        have building : Building calls index (start.linkedNew index
            (start.host.link (calls index).newName create'.schema layout)) := by
          refine ⟨Set.mem_insert _ _, _, List.mem_append_right _ (List.mem_singleton_self _), rfl,
            present, ?_⟩
          rw [link]
          exact Finset.mem_insert_self _ _
        have heldLinked : Holding calls index name old (start.linkedNew index
            (start.host.link (calls index).newName create'.schema layout)) :=
          held.kept subset_rfl rfl linked rfl
        have object : (start.linkedNew index
            (start.host.link (calls index).newName create'.schema layout)).host.objects
              (calls index).newName = some ⟨create'.schema, layout, Memory.zero⟩ := by
          rw [linkedNew, turned, link]
          exact Function.update_self _ _ _
        exact (registerSegment_guarded named silent answered heldLinked building object).rescue
          fun after met => unlink_guarded met.1 met.2

/-- The new segment behind its preparation. -/
def PreparedNew (calls : ι → UpgradeCall) (index : ι) (name : String) (old : Segment) (occupied : Nat)
    (state : Overlap ι) : Prop :=
  Holding calls index name old state ∧ occupied = old.memory.readNat metadataOffset 8 ∧
    ∃ segment header, Registered calls index segment state ∧
      segment.memory = freshSegment segment.layout header

theorem prepareNew_guarded (answered : (calls index).Answered)
    (holding : Holding calls index name old state) :
    (prepareNew externals (calls index) name old).Guarded (upgradeProtocol externals calls index)
      (Attempt.Either (PreparedNew calls index name old) (Holding calls index name old)) state := by
  have read : (Attempt.call (calls index).currentGet HostFailure.redisError id
      fun host : Host => host.keys.current (calls index).old.safeName).Guarded
        (upgradeProtocol externals calls index)
        (Attempt.Either (fun _ => Holding calls index name old) (Holding calls index name old))
        state :=
    guarded_read answered.currentGet holding fun start after relied aside =>
      (holding.relied relied).relied aside
  refine read.seq fun current reached held => ?_
  split
  · exact held
  · apply guarded_inspect
    intro start after relied aside
    have object : (start.host.objects name).getD old = old := by
      rw [(held.relied relied).object]
      rfl
    rw [object]
    refine Attempt.Guarded.seq (create_guarded rfl rfl answered.createExec
      ((held.relied relied).relied aside)) fun _ last met => ?_
    exact ⟨met.1, rfl, met.2⟩

/-- The new segment behind the copy. -/
def LoadedNew (externals : Externals) (calls : ι → UpgradeCall) (index : ι) (name : String)
    (old : Segment) (state : Overlap ι) : Prop :=
  Holding calls index name old state ∧
    ∃ segment, Registered calls index segment state ∧
      Translates externals (calls index) old segment

theorem copyRows_guarded {occupied : Nat} (prepared : PreparedNew calls index name old occupied state) :
    (copyRows externals (calls index) name old occupied).Guarded
      (upgradeProtocol externals calls index)
      (Attempt.Either (fun _ => LoadedNew externals calls index name old)
        fun after => Holding calls index name old after ∧ Building calls index after) state := by
  obtain ⟨holding, rows, segment, header, registered, fresh⟩ := prepared
  apply guarded_inspect
  intro start after relied aside
  have object : (start.host.objects name).getD old = old := by
    rw [(holding.relied relied).object]
    rfl
  rw [object]
  replace holding := (holding.relied relied).relied aside
  replace registered := (registered.relied relied).relied aside
  split
  · exact ⟨holding, registered.toBuilding⟩
  · rename_i table translated
    apply guarded_inspect
    intro middle later reliedMiddle asideMiddle
    rw [(registered.relied reliedMiddle).object]
    replace holding := (holding.relied reliedMiddle).relied asideMiddle
    replace registered := (registered.relied reliedMiddle).relied asideMiddle
    intro last reliedLast
    replace holding := holding.relied reliedLast
    replace registered := registered.relied reliedLast
    have different := registered.ne reliedLast.orderly holding
    let load := insertMany externals.hashId externals.castBits (calls index).new segment.layout table
    have heldAfter : Holding calls index name old (last.turned (some index)
        (last.host.withMemory (calls index).newName fun memory => (load.run memory).2)) :=
      holding.kept subset_rfl rfl (Function.update_of_ne different _ _) rfl
    refine ⟨last.turned (some index)
      (last.host.withMemory (calls index).newName fun memory => (load.run memory).2), rfl,
      withMemory_guarantee reliedLast.orderly registered.toBuilding _, ?_⟩
    dsimp only
    split
    · exact ⟨heldAfter, registered.toBuilding.turned⟩
    · rename_i inserted loaded
      split
      · exact ⟨heldAfter, registered.toBuilding.turned⟩
      · rename_i complete
        refine ⟨heldAfter, { segment with memory := (load.run segment.memory).2 }, ?_, table, header,
          translated, ?_⟩
        · exact
            { toBuilding := registered.toBuilding.turned
              counted := registered.counted
              object := Host.withMemory_object registered.object fun memory => (load.run memory).2 }
        · rw [← fresh]
          exact Prod.ext (loaded.trans (by rw [not_not.mp complete, rows])) rfl

theorem flipCurrent_guarded (answered : (calls index).Answered)
    (loaded : LoadedNew externals calls index name old state) :
    (flipCurrent (calls index) name).Guarded (upgradeProtocol externals calls index)
      (Attempt.Either (fun _ => Holding calls index name old)
        fun after => Holding calls index name old after ∧ Building calls index after) state := by
  obtain ⟨holding, segment, registered, table, header, translated, load⟩ := loaded
  have flip : (Attempt.call (calls index).flip HostFailure.redisError
      (fun host : Host => { host with
        keys := (host.keys.flipSchemaCurrent (calls index).old.safeName name
          (calls index).newName).2 })
      fun host => (host.keys.flipSchemaCurrent (calls index).old.safeName name
        (calls index).newName).1).Guarded (upgradeProtocol externals calls index)
        (Attempt.Either (fun result after => Holding calls index name old after ∧
          (result ≠ 1 → Building calls index after))
          fun after => Holding calls index name old after ∧ Building calls index after) state := by
    apply Attempt.guarded_call answered.flip ⟨holding, registered.toBuilding⟩
    intro start relied
    have held := holding.relied relied
    have builds := registered.relied relied
    rw [upgradeProtocol_view]
    by_cases current : start.host.keys.current (calls index).old.safeName = some name
    · have flipped : start.host.keys.flipSchemaCurrent (calls index).old.safeName name
          (calls index).newName = (1, (start.host.flipped (calls index)).keys) := by
        simp [RegistryKeys.flipSchemaCurrent, current, Host.flipped]
      rw [flipped]
      exact ⟨start.finishedNew index (start.host.flipped (calls index))
          (Insert.insert (calls index).newName start.published), rfl,
        relied.orderly.flips builds.building current held.opened builds.object
          ⟨name, old, table, header, current, held.object, translated, load⟩ builds.counted le_rfl,
        held.kept (Set.subset_insert _ _) rfl rfl rfl, fun other => absurd rfl other⟩
    · have refused : (start.host.keys.flipSchemaCurrent (calls index).old.safeName name
          (calls index).newName).2 = start.host.keys ∧
          (start.host.keys.flipSchemaCurrent (calls index).old.safeName name
            (calls index).newName).1 ≠ 1 := by
        unfold RegistryKeys.flipSchemaCurrent
        split
        · exact ⟨rfl, (by decide : (-1 : Int) ≠ 1)⟩
        · rename_i found pointed
          have different : found ≠ name := fun same => current (same ▸ pointed)
          rw [if_pos different]
          exact ⟨rfl, (by decide : (0 : Int) ≠ 1)⟩
      rw [refused.1]
      obtain ⟨guarantee, others⟩ := @quiet_turn _ externals calls index start start.host
        relied.orderly (.refl start.host)
      exact ⟨start.turned (some index) start.host, rfl, guarantee, held.relied (others index),
        fun _ => (builds.relied (others index)).toBuilding⟩
  refine flip.seq fun result after met => ?_
  split
  · rename_i refused
    exact ⟨met.1, met.2 (by omega)⟩
  · split
    · rename_i gone
      exact ⟨met.1, met.2 (by omega)⟩
    · exact met.1

/-- A run that gives up its new segment removes that one only. -/
theorem cleanupOrphanNewSegment_guarded (answered : (calls index).Answered)
    (holding : Holding calls index name old state) (building : Building calls index state) :
    (cleanupOrphanNewSegment (calls index)).Guarded (upgradeProtocol externals calls index)
      (fun _ => Holding calls index name old) state := by
  apply Attempt.Guarded.bind
  apply Attempt.Guarded.suppress
  apply Attempt.guarded_call answered.orphan (unlink_guarded holding building)
  intro start relied
  have held := holding.relied relied
  have builds := building.relied relied
  refine ⟨start.turned (some index)
    { start.host with
      keys := { start.host.keys with
        refcount := Function.update start.host.keys.refcount (calls index).newName none
        pidSegments := Function.update start.host.keys.pidSegments (calls index).pid
          ((start.host.keys.pidSegments (calls index).pid).erase (calls index).newName)
        segmentToSchema :=
          Function.update start.host.keys.segmentToSchema (calls index).newName none } }, rfl, ?_,
    unlink_guarded (held.kept subset_rfl rfl rfl rfl) builds.turned⟩
  apply relied.orderly.works builds.building
  · refine relied.orderly.removal builds.building builds.created rfl rfl
      fun other different removes => ?_
    rcases removes with ⟨before, after⟩ | ⟨before, after⟩ | ⟨before, after⟩ | ⟨before, after⟩
    · exact after before
    · exact before ((Function.update_of_ne different _ _).symm.trans after)
    · exact before ((Function.update_of_ne different _ _).symm.trans after)
    · exact before after
  · rfl
  · rfl
  · exact fun _ _ => rfl
  · exact fun other different => Function.update_of_ne different _ _

end Create

section Finish

variable [DecidableEq ι] {name : String} {old : Segment}

theorem closeSegment_guarded {script : CallOutcome} (answered : script ≠ .raisedAfter)
    (holding : Holding calls index name old state) :
    (closeSegment (calls index).pid name script).Guarded (upgradeProtocol externals calls index)
      (Attempt.Either (fun _ _ => True) (Holding calls index name old)) state := by
  apply Attempt.guarded_call answered holding
  intro start relied
  exact ⟨start.closed index (calls index).pid name, rfl,
    relied.orderly.closes (holding.relied relied).holds, trivial⟩

/-- A run behind its flip closes the old segment, or still holds it. -/
theorem finishUpgrade_guarded (answered : (calls index).Answered)
    (holding : Holding calls index name old state) :
    (finishUpgrade (calls index) name).Guarded (upgradeProtocol externals calls index)
      (Attempt.Either (fun _ _ => True) (Holding calls index name old)) state := by
  have stable : ∀ before after, Holding calls index name old before →
      Rely externals calls index before after → Holding calls index name old after :=
    fun _ _ held relied => held.relied relied
  have waits : (if (calls index).waitForConsumer then
      waitAttached (calls index) (calls index).attach else .done ()).Within
        (QuietEffect (calls index)) := by
    split
    · exact waitAttached_quiet _
    · trivial
  refine Attempt.Guarded.bind ((guarded_quiet (deletePause_quiet _).suppress stable
    holding).mono fun result after held => ?_)
  cases result with
  | error error => exact held
  | ok value =>
      refine Attempt.Guarded.bind ((guarded_quiet waits stable held).mono
        fun result last held => ?_)
      cases result with
      | error error => exact held
      | ok value => exact closeSegment_guarded answered.close held

theorem migrate_guarded (answered : (calls index).Answered)
    (holding : Holding calls index name old state) :
    (migrate externals (calls index) name old).Guarded (upgradeProtocol externals calls index)
      (fun _ _ => True) state := by
  have body : ((prepareNew externals (calls index) name old).bind fun occupied =>
      (((copyRows externals (calls index) name old occupied).bind fun _ =>
        flipCurrent (calls index) name).onError (cleanupOrphanNewSegment (calls index))).bind
          fun _ => finishUpgrade (calls index) name).Guarded (upgradeProtocol externals calls index)
            (Attempt.Either (fun _ _ => True) (Holding calls index name old)) state := by
    refine (prepareNew_guarded answered holding).seq fun occupied after prepared => ?_
    refine Attempt.Guarded.seq ?_ fun _ last held => finishUpgrade_guarded answered held
    exact ((copyRows_guarded prepared).seq fun _ last loaded =>
      flipCurrent_guarded answered loaded).rescue fun last met =>
        cleanupOrphanNewSegment_guarded answered met.1 met.2
  have closes : (migrate externals (calls index) name old).Guarded
      (upgradeProtocol externals calls index) (Attempt.Either (fun _ _ => True) fun _ => True)
        state :=
    body.rescue fun after held => Attempt.Guarded.suppress
      ((closeSegment_guarded answered.finalClose held).mono fun _ _ _ => trivial)
  exact closes.mono fun _ _ _ => trivial

theorem openOld_guarded (answered : (calls index).Answered)
    (idle : ∀ name, index ∉ state.holders name) :
    (openOld externals (calls index)).Guarded (upgradeProtocol externals calls index)
      (Attempt.Either (fun found => Holding calls index found.1 found.2) fun _ => True) state := by
  have stable : ∀ before after : Overlap ι, (∀ name, index ∉ before.holders name) →
      Rely externals calls index before after → ∀ name, index ∉ after.holders name :=
    fun _ _ idle relied name holds => idle name ((relied.holders name).mp holds)
  have pauses : (Attempt.call (calls index).pause HostFailure.redisError
      (fun host : Host => { host with
        pause := Function.update host.pause (calls index).old.safeName (some (calls index).token) })
      fun _ => ()).Within (QuietEffect (calls index)) :=
    Attempt.within_call fun _ => .withPause _ _
  refine Attempt.Guarded.bind ((guarded_quiet pauses stable idle).mono fun result after idle => ?_)
  cases result with
  | error error => trivial
  | ok value => exact openCurrentSegment_guarded answered.openGet answered.openExec idle

/-- Every turn of an upgrade keeps to the protocol. -/
theorem upgradeSchema_guarded (answered : (calls index).Answered)
    (idle : ∀ name, index ∉ state.holders name) :
    (upgradeSchema externals (calls index)).Guarded (upgradeProtocol externals calls index)
      (fun _ _ => True) state := by
  have stable : ∀ before after : Overlap ι, (∀ name, index ∉ before.holders name) →
      Rely externals calls index before after → ∀ name, index ∉ after.holders name :=
    fun _ _ idle relied name holds => idle name ((relied.holders name).mp holds)
  have releases : ((releaseLock (calls index) (calls index).release).suppress.bind fun _ =>
      (deletePause (calls index) (calls index).finalPause).suppress).Within
        (QuietEffect (calls index)) :=
    (releaseLock_quiet _).suppress.bind fun _ => (deletePause_quiet _).suppress
  have body : ∀ start, (∀ name, index ∉ start.holders name) →
      ((openOld externals (calls index)).bind fun opened =>
        migrate externals (calls index) opened.1 opened.2).Guarded
          (upgradeProtocol externals calls index) (Attempt.Either (fun _ _ => True) fun _ => True)
            start :=
    fun start idle => (openOld_guarded answered idle).seq fun opened after holding =>
      (migrate_guarded answered holding).mono fun result _ _ => by cases result <;> trivial
  unfold upgradeSchema
  split
  · trivial
  · split
    · trivial
    · split
      · trivial
      · refine Attempt.Guarded.bind ((guarded_quiet upgradePrecondition_quiet stable
          idle).mono fun result after idle => ?_)
        cases result with
        | error error => trivial
        | ok value =>
            refine Attempt.Guarded.ensure ((body after idle).mono fun result last _ => ?_)
            have released := @guarded_quiet ι externals calls index last _ _ (fun _ => True)
              releases (fun _ _ _ _ => trivial) trivial
            exact released.mono fun cleaned _ _ => by cases cleaned <;> trivial

end Finish

section Runs

variable {host : Host} {system : Interleaving ι Host HostFailure}

/-- The protocols of any number of upgrades fit together. -/
theorem upgradeProtocol_compatible :
    Compatible (upgradeProtocol externals calls) Overlap.host Overlap.past UpkeepStep
      fun state => state.Orderly externals calls where
  viewed := fun _ => rfl
  refl := fun orderly => Rely.refl orderly
  trans := fun first second => Rely.trans first second
  kept := fun guarantee => guarantee.orderly
  recorded := fun guarantee => guarantee.past
  covered := fun different guarantee => guarantee.others _ different
  outside := by
    intro before after orderly upkeep
    obtain ⟨kept, relied⟩ := @Orderly.aside _ _ _ _ none after orderly upkeep.keys upkeep.linked
      upkeep.objects (by rintro actor ⟨⟩)
    exact ⟨before.turned none after, rfl, kept, rfl, relied⟩

/-- Runs of upgrades before their first steps hold nothing. -/
theorem overlappingUpgrades_covered [DecidableEq ι] (served : host.Served)
    (answered : ∀ index, (calls index).Answered) :
    Covers (upgradeProtocol externals calls) Overlap.host Overlap.past
      (fun state => state.Orderly externals calls) (overlappingUpgrades externals calls host)
      ⟨host, [], {name | ∃ schema, host.keys.current schema = some name}, ∅, fun _ => ∅⟩ where
  viewed := rfl
  recorded := rfl
  invariant :=
    { pointed := fun schema name current => ⟨schema, current⟩
      linked := fun name ⟨schema, current⟩ => (served schema name current).1
      counted := by
        rintro name ⟨schema, current⟩
        obtain ⟨count, counted, positive⟩ := (served schema name current).2
        exact ⟨count, counted, by simpa using positive⟩
      held := fun name holder holds => absurd holds (Finset.notMem_empty _)
      built := fun _ builds => builds.elim
      unpublished := fun _ builds => builds.elim
      apart := fun _ builds => builds.elim
      exposed := fun _ member => absurd member List.not_mem_nil
      serial := fun earlier turn later split => by simp at split }
  guarded := fun index => upgradeSchema_guarded (answered index) fun _ => Finset.notMem_empty _

/-- The pointer of a schema goes from one value to the next by replacements only. -/
theorem pointerValues_chain (serial : SerialTurns externals calls system.past)
    (chain : (trail host system.past).IsChain
      fun before next => ∃ turn ∈ system.past, turn.before = before ∧ turn.after = next)
    (schema : String) :
    (pointerValues schema host system.past).IsChain (PointerStep calls system.past) := by
  unfold pointerValues
  rw [List.isChain_map]
  refine chain.imp fun before after ⟨turn, member, first, second⟩ => ?_
  subst first second
  by_cases same : turn.after.keys.current schema = turn.before.keys.current schema
  · exact Or.inl same
  · obtain ⟨earlier, later, split⟩ := List.append_of_mem member
    obtain ⟨index, replaced, segment, _, _, current, new, opened, _⟩ :=
      (serial earlier turn later split).flip schema same
    exact Or.inr ⟨index, replaced, opened.mono fun other member =>
      split ▸ List.mem_append_left _ member, current, new⟩

/-- Overlapping upgrades release only their own locks, replace only the segments that they opened
and copied, and remove only the segments that they created. -/
theorem overlapping_serialised [DecidableEq ι] (externals : Externals) (calls : ι → UpgradeCall) (host : Host)
    (served : host.Served) (answered : ∀ index, (calls index).Answered)
    (reached : Relation.ReflTransGen (TurnStep UpkeepStep)
      (overlappingUpgrades externals calls host) system) :
    SerialTurns externals calls system.past ∧
    ∀ schema, (pointerValues schema host system.past).IsChain (PointerStep calls system.past) := by
  obtain ⟨state, covered⟩ := (overlappingUpgrades_covered served answered).reached
    upgradeProtocol_compatible reached
  have serial : SerialTurns externals calls system.past :=
    covered.recorded ▸ covered.invariant.serial
  exact ⟨serial, pointerValues_chain serial (trail_chain rfl reached).2⟩

end Runs

end Programs

section Samples

/-- An upgrade whose flip returns leaves its new segment current. -/
theorem ReachesFlip.publishes {externals : Externals} {call : UpgradeCall} {host : Host}
    {oldName : String} {old : Segment} {layout : SegmentLayout} {header : List UInt8}
    {table : ArrowTable} {memory : Memory}
    (reaches : ReachesFlip externals call host oldName old layout header table memory)
    (returned : call.flip = .returned) :
    ((upgradeSchema externals call).run host).2.keys.current call.old.safeName =
      some call.newName := by
  obtain ⟨prepared, copied, openRun, prepare, copy, current, linked, object⟩ := reaches.runs
  have different : call.newName ≠ oldName := by
    intro same
    have linked := reaches.openable.linked
    rw [← same] at linked
    exact reaches.creatable.fresh linked
  have flip := @flipCurrent_run call copied oldName (by rw [current]; exact reaches.openable.current)
  rw [returned] at flip
  have closes : ∀ host : Host, host.keys.current call.old.safeName = some call.newName →
      (host.keys.closeScript call.pid oldName).2.current call.old.safeName = some call.newName := by
    intro host pointed
    rcases closeScript_current host.keys call.pid oldName call.old.safeName with same | ⟨gone, _⟩
    · exact same.trans pointed
    · rw [pointed, Option.some.injEq] at gone
      exact absurd gone different
  have finishes : ((((Attempt.done () : HostProgram Unit).onError
      (cleanupOrphanNewSegment call)).bind fun _ => finishUpgrade call oldName).onError
        (closeSegment call.pid oldName call.finalClose).suppress).Keeps
          fun host => host.keys.current call.old.safeName = some call.newName := by
    apply Attempt.Keeps.onError
    · exact finishUpgrade_keeps (fun _ _ kept => kept) closes
    · exact (Attempt.keeps_call closes).suppress
  have migrated : ((migrate externals call oldName old).run
      ((host.locked call).opened call oldName)).2.keys.current call.old.safeName =
        some call.newName := by
    rw [@migrate_moved externals call _ _ _ _ _ _ prepare copy (.done ()) _ flip]
    exact finishes.run (Function.update_self _ _ _)
  unfold upgradeSchema
  rw [if_neg (not_not.mpr reaches.sameName), if_neg (by rw [reaches.factor]; decide),
    if_neg (by rw [reaches.accepted]; decide), Attempt.run_bind_ok _ _ reaches.unobstructed.run,
    Attempt.run_ensure, Attempt.run_bind_ok _ _ openRun]
  exact (@upgradeCleanup_keeps call
    (fun host => host.keys.current call.old.safeName = some call.newName) _ _
    (fun _ _ kept => kept) fun _ _ kept => kept).run migrated

/-- Two upgrades of the sample schema to different names under different tokens. -/
def sampleOverlap : Bool → UpgradeCall
  | true => sampleUpgradeCall .returned
  | false => { sampleUpgradeCall .returned with token := "other", newName := "newer" }

theorem sampleOverlap_answered (index : Bool) : (sampleOverlap index).Answered := by
  cases index <;> constructor <;> decide

theorem sampleHost_served : sampleHost.Served := by
  intro schema name current
  have old : name = "old" := by
    simp only [sampleHost, Function.update_apply] at current
    split at current
    · exact (Option.some.inj current).symm
    · cases current
  subst old
  exact ⟨Finset.mem_singleton_self _, 1, rfl, le_rfl⟩

/-- The lock of one sample upgrade expires, and the other one runs to its end. -/
theorem sampleOverlap_reached : ∃ system : Interleaving Bool Host HostFailure, Relation.ReflTransGen (TurnStep UpkeepStep)
    (overlappingUpgrades sampleExternals sampleOverlap sampleHost) system ∧
    system.state.keys.current sampleSchema.safeName = some "new" := by
  obtain ⟨oldName, old, layout, header, table, memory, reaches⟩ := sampleUpgradeCall_reaches .returned
  let acquire := fun host : Host =>
    if (host.lock sampleSchema.safeName).isNone then
      { host with lock := Function.update host.lock sampleSchema.safeName (some "other") }
    else host
  have sameName : (sampleOverlap false).old.className = (sampleOverlap false).new.className :=
    reaches.sameName
  have accepted : (canUpgrade (sampleOverlap false).old (sampleOverlap false).new).1 = true :=
    reaches.accepted
  have ready : ∃ next, upgradeSchema sampleExternals (sampleOverlap false) = .step acquire next := by
    unfold upgradeSchema
    rw [if_neg (not_not.mpr sameName), if_neg (by decide), if_neg (by rw [accepted]; decide)]
    exact ⟨_, rfl⟩
  obtain ⟨next, ready⟩ := ready
  have expired : UpkeepStep (acquire sampleHost) sampleHost := by
    refine ⟨?_, ?_, ?_, fun name => Or.inr rfl⟩ <;> simp [acquire, sampleHost]
  let first : Interleaving Bool Host HostFailure :=
    overlappingUpgrades sampleExternals sampleOverlap sampleHost
  let second : Interleaving Bool Host HostFailure :=
    ⟨sampleHost, Function.update first.rest false (next sampleHost),
      [⟨some false, sampleHost, acquire sampleHost⟩, ⟨none, acquire sampleHost, sampleHost⟩]⟩
  have start : Relation.ReflTransGen (TurnStep UpkeepStep) first second :=
    (Relation.ReflTransGen.single (.program false ready)).tail (.environment expired)
  obtain ⟨system, alone, final⟩ := @reached_alone _ _ _ _ UpkeepStep true
    (upgradeSchema sampleExternals (sampleOverlap true)) second rfl
  exact ⟨system, start.trans alone, by rw [final]; exact reaches.publishes rfl⟩

/-- Two overlapping sample upgrades. -/
theorem overlapping_serialised_sample : ∃ system : Interleaving Bool Host HostFailure,
    system.state.keys.current sampleSchema.safeName = some "new" ∧
    SerialTurns sampleExternals sampleOverlap system.past ∧
    ∀ schema, (pointerValues schema sampleHost system.past).IsChain
      (PointerStep sampleOverlap system.past) := by
  obtain ⟨system, reached, current⟩ := sampleOverlap_reached
  exact ⟨system, current, overlapping_serialised sampleExternals sampleOverlap sampleHost
    sampleHost_served sampleOverlap_answered reached⟩

end Samples

end Quorin
