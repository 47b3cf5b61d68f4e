import Quorin.Construction.DryRun
import Quorin.Proof.Segment.HeaderWords
import Quorin.Proof.Upgrade.PointerSafety

namespace Quorin

open ByteMemory FaultyCalls

/-- A field of an aligned start ends at the aligned size behind the start. -/
theorem alignUp_add {start : Nat} (aligned : cacheLineSize ∣ start) (size : Nat) :
    alignUp (start + size) cacheLineSize = start + alignUp size cacheLineSize := by
  have shifted := alignUp_eq (start + size) 6
  have plain := alignUp_eq size 6
  simp only [cacheLineSize] at *
  norm_num at shifted plain
  omega

theorem alignUp_eq_self_iff (size : Nat) :
    alignUp size cacheLineSize = size ↔ cacheLineSize ∣ size := by
  have plain := alignUp_eq size 6
  simp only [cacheLineSize] at *
  norm_num at plain
  omega

/-- The largest end of a walk over the fields, rounded up, is the sum of the rounded sizes. -/
theorem fieldEnds_largest {fields : List FeatureField} (nonempty : fields ≠ []) (cursor : Nat) :
    ∃ last,
      ((fields.zip (fieldByteOffsets fields cursor)).map fun entry =>
        entry.2 + entry.1.byteCount).max? = some last ∧
      alignUp last cacheLineSize = alignUp cursor cacheLineSize +
        (fields.map fun field => alignUp field.byteCount cacheLineSize).sum := by
  induction fields generalizing cursor with
  | nil => exact absurd rfl nonempty
  | cons field rest ih =>
      have aligned : cacheLineSize ∣ alignUp cursor cacheLineSize := dvd_alignUp cursor 6
      simp only [fieldByteOffsets, List.zip_cons_cons, List.map_cons, List.sum_cons,
        List.max?_cons]
      by_cases empty : rest = []
      · subst empty
        refine ⟨alignUp cursor cacheLineSize + field.byteCount, rfl, ?_⟩
        rw [alignUp_add aligned, List.map_nil, List.sum_nil, Nat.add_zero]
      · obtain ⟨last, largest, rounded⟩ := ih empty
          (alignUp cursor cacheLineSize + field.byteCount)
        have behind : alignUp cursor cacheLineSize + field.byteCount ≤ last := by
          obtain ⟨entry, member, ends⟩ := List.mem_map.mp (List.max?_mem largest)
          have starts := le_fieldByteOffsets rest _ _ (List.of_mem_zip member).2
          omega
        refine ⟨last, ?_, ?_⟩
        · rw [largest, Option.elim_some, Nat.max_eq_right behind]
        · rw [rounded, alignUp_add aligned, Nat.add_assoc]

section Rows

variable {hashName : String → UInt64} {schema : FeatureSchema} {rows : Nat}

/-- A row takes a whole number of cache lines for each of its fields. -/
theorem rowSize_sum (sized : rowSize hashName schema = .ok rows) :
    rows = (schema.fields.map fun field => alignUp field.byteCount cacheLineSize).sum := by
  unfold rowSize at sized
  cases computed : computeRowOffsetTable hashName schema with
  | error error => simp [computed, bind, Except.bind] at sized
  | ok table =>
      simp only [computed, bind, Except.bind, pure, Except.pure, Except.ok.injEq] at sized
      obtain ⟨last, largest, rounded⟩ := fieldEnds_largest schema.fieldsNonempty 0
      have ends : (table.map fun row => row.byteOffset + row.byteCount).Perm
          ((schema.fields.zip (fieldByteOffsets schema.fields 0)).map fun entry =>
            entry.2 + entry.1.byteCount) := by
        have rows := (computeRowOffsetTable_spec computed).1.map fun row =>
          row.byteOffset + row.byteCount
        rw [offsetRows, List.map_map] at rows
        exact rows
      have top : (table.map fun row => row.byteOffset + row.byteCount).max? = some last := by
        rw [List.max?_eq_some_iff] at largest ⊢
        constructor
        · exact ends.mem_iff.mpr largest.1
        · exact fun other member => largest.2 other (ends.mem_iff.mp member)
      rw [← sized, top, Option.getD_some, rounded]
      exact Nat.zero_add _

/-- The sizes of the fields add up to the row size exactly when no field is padded. -/
theorem rowSize_unpadded (sized : rowSize hashName schema = .ok rows) :
    (schema.fields.map FeatureField.byteCount).sum = rows ↔
      ∀ field ∈ schema.fields, cacheLineSize ∣ field.byteCount := by
  rw [rowSize_sum sized]
  generalize schema.fields = fields
  induction fields with
  | nil => simp
  | cons field rest ih =>
      have padded : field.byteCount ≤ alignUp field.byteCount cacheLineSize := le_alignUp _ 6
      have total : (rest.map FeatureField.byteCount).sum ≤
          (rest.map fun field => alignUp field.byteCount cacheLineSize).sum :=
        List.sum_le_sum fun field _ => le_alignUp _ 6
      rw [List.map_cons, List.map_cons, List.sum_cons, List.sum_cons, List.forall_mem_cons, ← ih,
        ← alignUp_eq_self_iff]
      omega

end Rows

section Result

variable (externals : Externals) (call : UpgradeCall)

/-- The layout of the new segment is known when it was created. -/
theorem prepareNewSegment_forget {α : Type} (oldName : String) (old : Segment)
    (next : Nat → HostProgram α) :
    ((prepareNewSegment externals call oldName old).bind fun prepared => next prepared.1) =
      (prepareNew externals call oldName old).bind next := by
  rw [prepareNewSegment, prepareNew, Attempt.bind_assoc, Attempt.bind_assoc, Attempt.bind_assoc]
  congr 1
  funext current
  split
  · rfl
  · apply congrArg (Attempt.step id)
    funext host
    dsimp only
    rw [Attempt.bind_assoc, Attempt.bind_assoc]
    generalize ((host.objects oldName).getD old).memory.readNat metadataOffset 8 = occupied
    cases computed : computeLayout externals.hashName call.new
        (createNewCall call old occupied).capacity (createNewCall call old occupied).maxIdBytes with
    | error error =>
        have refused : create externals (createNewCall call old occupied) =
            .raised (.layout error) := by
          unfold create
          rw [show (createNewCall call old occupied).schema = call.new from rfl, computed]
        rw [refused]
        rfl
    | ok layout =>
        simp only [Attempt.bind, computed]

theorem migrateResult_forget (oldName : String) (old : Segment) :
    ((migrateResult externals call oldName old).bind fun _ => .done ()) =
      migrate externals call oldName old := by
  let finish := fun occupied =>
    (((copyRows externals call oldName old occupied).bind fun _ =>
      flipCurrent call oldName).onError (cleanupOrphanNewSegment call)).bind fun _ =>
      finishUpgrade call oldName
  rw [migrateResult, Attempt.onError_map, Attempt.bind_assoc, migrate,
    ← prepareNewSegment_forget externals call oldName old finish]
  congr 2
  funext prepared
  rw [Attempt.bind_assoc]
  congr 1
  funext _
  rw [Attempt.bind_assoc]
  exact Attempt.bind_done _

/-- Without its result the real run is the upgrade of the host. -/
theorem upgradeSchemaResult_forget :
    ((upgradeSchemaResult externals call false).bind fun _ => .done ()) =
      upgradeSchema externals call := by
  unfold upgradeSchemaResult upgradeSchema
  split
  · rfl
  split
  · rfl
  split
  · rfl
  rw [if_neg (by decide), Attempt.bind_assoc]
  congr 1
  funext _
  rw [Attempt.ensure_map, Attempt.bind_assoc]
  simp only [migrateResult_forget]

end Result

/-- The real run found the old segment, computed the layout of the new one, and reports both. -/
structure Reported (externals : Externals) (call : UpgradeCall) (host : Host)
    (result : UpgradeResult) (oldName : String) (old : Segment) (layout : SegmentLayout) : Prop where
  openable : Openable externals call host oldName old
  sized : rowSize externals.hashName call.new = .ok layout.rowSize
  same : result = ⟨oldName, some call.newName, old.memory.readNat metadataOffset 8,
    old.layout.rowSize, layout.rowSize⟩

section Runs

variable {externals : Externals} {call : UpgradeCall} {host after : Host} {result : UpgradeResult}

theorem prepareNewSegment_inv {oldName : String} {old : Segment} {occupied : Nat}
    {layout : SegmentLayout}
    (ok : (prepareNewSegment externals call oldName old).run host = (.ok (occupied, layout), after)) :
    ((host.objects oldName).getD old).memory.readNat metadataOffset 8 = occupied ∧
      rowSize externals.hashName call.new = .ok layout.rowSize := by
  obtain ⟨rows, middle, prepared, ok⟩ := Attempt.run_bind_inv _ _ ok
  obtain ⟨_, _, preparable⟩ := prepareNew_preparable prepared
  split at ok
  · cases ok
  · rename_i _ computed
    cases ok
    exact ⟨preparable.rows, (computeLayout_parts computed).2.1⟩

/-- A block that ends with a result succeeded in each of its parts. -/
theorem migrateResult_inv {oldName : String} {old : Segment}
    (ok : (migrateResult externals call oldName old).run host = (.ok result, after)) :
    ∃ layout : SegmentLayout, rowSize externals.hashName call.new = .ok layout.rowSize ∧
      result = ⟨oldName, some call.newName,
        ((host.objects oldName).getD old).memory.readNat metadataOffset 8,
        old.layout.rowSize, layout.rowSize⟩ := by
  obtain ok := Attempt.run_onError_inv _ _ ok
  obtain ⟨⟨occupied, layout⟩, prepared, prepare, ok⟩ := Attempt.run_bind_inv _ _ ok
  obtain ⟨_, _, _, ok⟩ := Attempt.run_bind_inv _ _ ok
  obtain ⟨_, _, _, ok⟩ := Attempt.run_bind_inv _ _ ok
  obtain ⟨rows, sized⟩ := prepareNewSegment_inv prepare
  cases ok
  exact ⟨layout, sized, by rw [rows]⟩

theorem upgradeSchemaResult_inv
    (ok : (upgradeSchemaResult externals call false).run host = (.ok result, after)) :
    call.old.className = call.new.className ∧ (canUpgrade call.old call.new).1 = true ∧
      ∃ oldName old layout, Reported externals call host result oldName old layout := by
  unfold upgradeSchemaResult at ok
  split at ok
  · cases ok
  rename_i sameName
  split at ok
  · cases ok
  split at ok
  · cases ok
  rename_i accepted
  rw [if_neg (by decide)] at ok
  obtain ⟨_, locked, passed, ok⟩ := Attempt.run_bind_inv _ _ ok
  rw [(upgradePrecondition_unobstructed passed).run] at passed
  obtain ⟨_, rfl⟩ := Prod.mk.inj passed
  obtain ⟨finished, ok⟩ := Attempt.run_ensure_inv _ _ _ ok
  obtain ⟨⟨oldName, old⟩, opened, open_, ok⟩ := Attempt.run_bind_inv _ _ ok
  have openable := openOld_openable open_
  rw [openable.run] at open_
  obtain ⟨_, rfl⟩ := Prod.mk.inj open_
  obtain ⟨layout, sized, same⟩ := migrateResult_inv ok
  have object : ((host.locked call).opened call oldName).objects oldName = some old :=
    openable.object
  rw [object, Option.getD_some] at same
  exact ⟨not_not.mp sameName, by simpa using accepted, oldName, old, layout,
    { openable := { openable with }, sized := sized, same := same }⟩

end Runs

/-- A dry run asked for the same upgrade whose Redis calls return. -/
structure DryRunOf (dry call : UpgradeCall) : Prop where
  old : dry.old = call.old
  new : dry.new = call.new
  factor : dry.factorValid = true
  openGet : dry.openGet = .returned
  openExec : dry.openExec = .returned
  close : dry.finalClose = .returned

/-- Nothing was published for a schema and nothing written to its current segment. -/
structure Undisturbed (schema : FeatureSchema) (earlier later : Host) : Prop where
  current : earlier.keys.current schema.safeName = later.keys.current schema.safeName
  segment : ∀ name, later.keys.current schema.safeName = some name →
    earlier.objects name = later.objects name ∧ (name ∈ later.linked → name ∈ earlier.linked)

theorem Undisturbed.refl (schema : FeatureSchema) (host : Host) : Undisturbed schema host host :=
  ⟨rfl, fun _ _ => ⟨rfl, id⟩⟩

section DryRun

variable {externals : Externals} {dry call : UpgradeCall} {earlier later after : Host}
  {reported : UpgradeResult}

/-- The report of a dry run on a segment that can be opened. -/
theorem dryRun_run {oldName : String} {old : Segment} (asked : DryRunOf dry call)
    (sameName : call.old.className = call.new.className)
    (accepted : (canUpgrade call.old call.new).1 = true)
    (current : earlier.keys.current call.old.safeName = some oldName)
    (object : earlier.objects oldName = some old) (linked : oldName ∈ earlier.linked)
    (verified : verifyHeader externals old call.old = true) :
    ∃ left, (upgradeSchemaResult externals dry true).run earlier =
      (.ok ⟨oldName, none, old.memory.readNat metadataOffset 8, old.layout.rowSize,
        (call.new.fields.map FeatureField.byteCount).sum⟩, left) := by
  have opened : (openCurrentSegment externals dry.pid dry.old dry.openGet dry.openExec).run earlier =
      (.ok (oldName, old), { earlier with keys := earlier.keys.openPipeline dry.pid oldName }) := by
    rw [openCurrentSegment, asked.old, asked.openGet, Attempt.run_bind_ok _ _ rfl]
    simp only [id, current, Attempt.run_inspect, object, linked, not_true_eq_false, if_false,
      verified, Bool.true_eq_false, asked.openExec]
    rfl
  rw [upgradeSchemaResult, asked.old, asked.new, if_neg (not_not.mpr sameName),
    if_neg (by rw [asked.factor]; decide), if_neg (by rw [accepted]; decide), if_pos rfl,
    dryRunResult, Attempt.run_bind_ok _ _ opened, Attempt.run_ensure]
  simp only [Attempt.run_inspect, Attempt.run_done, object, Option.getD_some, asked.new]
  rw [closeSegment, asked.close, Attempt.run_bind_ok _ _ rfl]
  exact ⟨_, rfl⟩

/-- A dry run reports the counts of the real run exactly when no field of the new schema is
padded. -/
theorem dryRun_predicts_iff (externals : Externals) (dry call : UpgradeCall)
    (earlier later after : Host) (reported : UpgradeResult) (asked : DryRunOf dry call)
    (undisturbed : Undisturbed call.old earlier later)
    (upgraded : (upgradeSchemaResult externals call false).run later = (.ok reported, after)) :
    ∃ predicted left,
      (upgradeSchemaResult externals dry true).run earlier = (.ok predicted, left) ∧
      (predicted.counts = reported.counts ↔
        ∀ field ∈ call.new.fields, cacheLineSize ∣ field.byteCount) := by
  obtain ⟨sameName, accepted, oldName, old, layout, openable, sized, rfl⟩ :=
    upgradeSchemaResult_inv upgraded
  obtain ⟨object, linked⟩ := undisturbed.segment oldName openable.current
  obtain ⟨left, ran⟩ := dryRun_run asked sameName accepted
    (undisturbed.current.trans openable.current) (object.trans openable.object)
    (linked openable.linked) openable.verified
  refine ⟨_, left, ran, ?_⟩
  rw [← rowSize_unpadded sized]
  simp [UpgradeResult.counts]

end DryRun

/-- An upgrade that reaches its flip and waits for nobody reports its counts. -/
theorem ReachesFlip.reports {externals : Externals} {call : UpgradeCall} {host : Host}
    {oldName : String} {old : Segment} {layout : SegmentLayout} {header : List UInt8}
    {table : ArrowTable} {memory : Memory}
    (reaches : ReachesFlip externals call host oldName old layout header table memory)
    (flip : call.flip = .returned) (waits : call.waitForConsumer = false)
    (close : call.close = .returned) :
    ∃ reported after,
      (upgradeSchemaResult externals call false).run host = (.ok reported, after) := by
  obtain ⟨prepared, copied, open_, prepare, copy, current, _⟩ := reaches.runs
  have segment : (prepareNewSegment externals call oldName old).run
      ((host.locked call).opened call oldName) =
        (.ok (old.memory.readNat metadataOffset 8, layout), prepared) := by
    rw [prepareNewSegment, Attempt.run_bind_ok _ _ prepare]
    have computed : computeLayout externals.hashName call.new
        (createNewCall call old (old.memory.readNat metadataOffset 8)).capacity
        (createNewCall call old (old.memory.readNat metadataOffset 8)).maxIdBytes = .ok layout :=
      reaches.creatable.computed
    rw [computed]
    rfl
  have flipped := @flipCurrent_run call copied oldName (by rw [current]; exact reaches.openable.current)
  rw [flip] at flipped
  have moved : ((copyRows externals call oldName old (old.memory.readNat metadataOffset 8)).bind
      fun _ => flipCurrent call oldName).run prepared = (.ok (), copied.flipped call) := by
    rw [Attempt.run_bind_ok _ _ copy]
    exact flipped
  have finished (middle : Host) :
      ∃ final, (finishUpgrade call oldName).run middle = (.ok (), final) := by
    rw [finishUpgrade, Attempt.run_bind_ok _ _ (Attempt.run_suppress _ _), waits,
      Attempt.run_bind_ok _ _ rfl, closeSegment, close]
    exact ⟨_, rfl⟩
  obtain ⟨final, finish⟩ := finished (copied.flipped call)
  have body : ((openOld externals call).bind fun opened =>
      migrateResult externals call opened.1 opened.2).run (host.locked call) =
        (.ok ⟨oldName, some call.newName, old.memory.readNat metadataOffset 8, old.layout.rowSize,
          layout.rowSize⟩, final) := by
    rw [Attempt.run_bind_ok _ _ open_]
    apply Attempt.run_onError_ok
    rw [Attempt.run_bind_ok _ _ segment,
      Attempt.run_bind_ok _ _ (Attempt.run_onError_ok _ _ moved), Attempt.run_bind_ok _ _ finish]
    rfl
  rw [upgradeSchemaResult, if_neg (not_not.mpr reaches.sameName),
    if_neg (by rw [reaches.factor]; decide), if_neg (by rw [reaches.accepted]; decide),
    if_neg (by decide), Attempt.run_bind_ok _ _ reaches.unobstructed.run, Attempt.run_ensure, body,
    Attempt.bind_assoc, Attempt.run_bind_ok _ _ (Attempt.run_suppress _ _),
    Attempt.run_bind_ok _ _ (Attempt.run_suppress _ _)]
  exact ⟨_, _, rfl⟩

theorem sampleDryRun_asked :
    DryRunOf (sampleUpgradeCall .returned) (sampleUpgradeCall .returned) :=
  ⟨rfl, rfl, rfl, rfl, rfl, rfl⟩

theorem sampleUpgrade_reported : ∃ reported after,
    (upgradeSchemaResult sampleExternals (sampleUpgradeCall .returned) false).run sampleHost =
      (.ok reported, after) := by
  obtain ⟨_, _, _, _, _, _, reaches⟩ := sampleUpgradeCall_reaches .returned
  exact reaches.reports rfl rfl rfl

/-- The dry run and the real run of the sample upgrade. -/
theorem dryRun_predicts_iff_sample : ∃ reported after predicted left,
    (upgradeSchemaResult sampleExternals (sampleUpgradeCall .returned) false).run sampleHost =
      (.ok reported, after) ∧
    (upgradeSchemaResult sampleExternals (sampleUpgradeCall .returned) true).run sampleHost =
      (.ok predicted, left) ∧
    (predicted.counts = reported.counts ↔
      ∀ field ∈ sampleUpgrade.fields, cacheLineSize ∣ field.byteCount) := by
  obtain ⟨reported, after, upgraded⟩ := sampleUpgrade_reported
  obtain ⟨predicted, left, ran, agree⟩ := dryRun_predicts_iff sampleExternals
    (sampleUpgradeCall .returned) (sampleUpgradeCall .returned) sampleHost sampleHost after reported
    sampleDryRun_asked (Undisturbed.refl _ _) upgraded
  exact ⟨reported, after, predicted, left, upgraded, ran, agree⟩

/-- The dry run of the sample upgrade predicts rows of 12 bytes, and the real run makes rows of
128 bytes. -/
theorem dryRun_mispredicts : ∃ reported after predicted left,
    (upgradeSchemaResult sampleExternals (sampleUpgradeCall .returned) false).run sampleHost =
      (.ok reported, after) ∧
    (upgradeSchemaResult sampleExternals (sampleUpgradeCall .returned) true).run sampleHost =
      (.ok predicted, left) ∧
    predicted.rowSizeBytesNew = 12 ∧ reported.rowSizeBytesNew = 128 := by
  obtain ⟨reported, after, upgraded⟩ := sampleUpgrade_reported
  obtain ⟨sameName, accepted, oldName, old, layout, openable, sized, rfl⟩ :=
    upgradeSchemaResult_inv upgraded
  obtain ⟨left, ran⟩ := dryRun_run sampleDryRun_asked sameName accepted openable.current
    openable.object openable.linked openable.verified
  have real : rowSize sampleHash sampleUpgrade = .ok sampleUpgradeLayout.rowSize :=
    (computeLayout_parts computeLayout_sampleUpgrade).2.1
  have rows : layout.rowSize = 128 := Except.ok.inj (sized.symm.trans real)
  exact ⟨_, after, _, left, upgraded, ran, rfl, rows⟩

end Quorin
