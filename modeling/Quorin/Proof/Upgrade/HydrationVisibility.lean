import Quorin.Construction.Hydration
import Quorin.Proof.Upgrade.PointerSafety

namespace Quorin

open ByteMemory FaultyCalls

/-- A step of an upgrade keeps, removes or replaces set pointers and touches only its own new
segment. -/
structure UpgradeEffect (newName : String) (before after : Host) : Prop where
  current : ∀ schema, after.keys.current schema = before.keys.current schema ∨
    after.keys.current schema = none ∨ before.keys.current schema ≠ none
  objects : ∀ name, name ≠ newName → after.objects name = before.objects name

section Effects

variable {externals : Externals} {call : UpgradeCall}

theorem UpgradeEffect.keys {newName : String} {host : Host} {keys : RegistryKeys}
    (kept : ∀ schema, keys.current schema = host.keys.current schema ∨
      keys.current schema = none ∨ host.keys.current schema ≠ none) :
    UpgradeEffect newName host { host with keys := keys } :=
  ⟨kept, fun _ _ => rfl⟩

theorem UpgradeEffect.withMemory {newName : String} (host : Host) (change : Memory → Memory) :
    UpgradeEffect newName host (host.withMemory newName change) :=
  ⟨fun _ => Or.inl rfl, fun _ different => Function.update_of_ne different _ _⟩

theorem UpgradeEffect.close {newName : String} (host : Host) (pid : Nat) (name : String) :
    UpgradeEffect newName host { host with keys := (host.keys.closeScript pid name).2 } := by
  apply UpgradeEffect.keys
  intro schema
  rcases closeScript_current host.keys pid name schema with same | ⟨_, none⟩
  · exact Or.inl same
  · exact Or.inr (Or.inl none)

theorem UpgradeEffect.link {newName : String} (host : Host) (schema : FeatureSchema)
    (layout : SegmentLayout) : UpgradeEffect newName host (host.link newName schema layout) := by
  unfold Host.link
  split
  · exact ⟨fun _ => Or.inl rfl, fun _ _ => rfl⟩
  · exact ⟨fun _ => Or.inl rfl, fun _ different => Function.update_of_ne different _ _⟩

theorem UpgradeEffect.flip {newName : String} (host : Host) (schema oldName : String) :
    UpgradeEffect newName host { host with
      keys := (host.keys.flipSchemaCurrent schema oldName newName).2 } := by
  apply UpgradeEffect.keys
  intro other
  cases current : host.keys.current other with
  | some name => exact Or.inr (Or.inr (Option.some_ne_none _))
  | none =>
      refine Or.inr (Or.inl ?_)
      unfold RegistryKeys.flipSchemaCurrent
      split
      · exact current
      · rename_i name found
        split
        · exact current
        · dsimp only
          rw [Function.update_of_ne]
          · exact current
          · rintro rfl
            rw [found] at current
            cases current

/-- A change of other parts of the host. -/
theorem UpgradeEffect.aside {newName : String} {host after : Host} (keys : after.keys = host.keys)
    (objects : after.objects = host.objects) : UpgradeEffect newName host after :=
  ⟨fun _ => Or.inl (by rw [keys]), fun _ _ => by rw [objects]⟩

theorem UpgradeEffect.refl {newName : String} (host : Host) : UpgradeEffect newName host host :=
  .aside rfl rfl

theorem create_within {create' : CreateCall} (silent : create'.setCurrent = false) :
    (create externals create').Within (UpgradeEffect create'.name) := by
  unfold create
  split
  · trivial
  · split
    · trivial
    · intro host
      refine ⟨.link _ _ _, ?_⟩
      dsimp only
      split
      · trivial
      · apply Attempt.Within.onError
        · unfold registerSegment
          split
          · trivial
          · intro host
            refine ⟨.withMemory _ _, ?_⟩
            apply Attempt.within_call
            intro host
            refine .keys fun schema => Or.inl ?_
            simp [RegistryKeys.createPipeline, silent]
        · exact fun host => ⟨.aside rfl rfl, trivial⟩

theorem openCurrentSegment_within {newName : String} {pid : Nat} {old : FeatureSchema}
    {get exec : CallOutcome} :
    (openCurrentSegment externals pid old get exec).Within (UpgradeEffect newName) := by
  apply (Attempt.within_call UpgradeEffect.refl).bind
  intro current
  split
  · trivial
  · apply Attempt.within_inspect UpgradeEffect.refl
    intro host
    split
    · trivial
    · split
      · trivial
      · split
        · trivial
        · exact Attempt.within_call fun host => .keys fun _ => Or.inl rfl

theorem prepareNew_within {oldName : String} {old : Segment} :
    (prepareNew externals call oldName old).Within (UpgradeEffect call.newName) := by
  apply (Attempt.within_call UpgradeEffect.refl).bind
  intro current
  split
  · trivial
  · apply Attempt.within_inspect UpgradeEffect.refl
    intro host
    have creates : ∀ occupied, (create externals (createNewCall call old occupied)).Within
        (UpgradeEffect call.newName) :=
      fun occupied => @create_within externals (createNewCall call old occupied) rfl
    exact (creates _).bind fun _ => trivial

theorem copyRows_within {oldName : String} {old : Segment} {occupied : Nat} :
    (copyRows externals call oldName old occupied).Within (UpgradeEffect call.newName) := by
  apply Attempt.within_inspect UpgradeEffect.refl
  intro host
  split
  · trivial
  · apply Attempt.within_inspect UpgradeEffect.refl
    intro host
    split
    · trivial
    · intro host
      refine ⟨.withMemory _ _, ?_⟩
      dsimp only
      split
      · trivial
      · split
        · trivial
        · trivial

theorem flipCurrent_within {oldName : String} :
    (flipCurrent call oldName).Within (UpgradeEffect call.newName) := by
  apply (Attempt.within_call fun host => .flip _ _ _).bind
  intro result
  split
  · trivial
  · split
    · trivial
    · trivial

theorem cleanupOrphanNewSegment_within :
    (cleanupOrphanNewSegment call).Within (UpgradeEffect call.newName) := by
  unfold cleanupOrphanNewSegment
  apply Attempt.Within.bind
  · exact (Attempt.within_call fun _ => .keys fun _ => Or.inl rfl).suppress
  · exact fun _ _ => ⟨.aside rfl rfl, trivial⟩

theorem closeSegment_within {newName name : String} {pid : Nat} {script : CallOutcome} :
    (closeSegment pid name script).Within (UpgradeEffect newName) :=
  Attempt.within_call fun _ => .close _ _ _

theorem QuietEffect.upgradeEffect {before after : Host} (quiet : QuietEffect call before after) :
    UpgradeEffect call.newName before after :=
  .aside quiet.keys quiet.objects

theorem finishUpgrade_within {oldName : String} :
    (finishUpgrade call oldName).Within (UpgradeEffect call.newName) := by
  apply ((deletePause_quiet _).mono fun _ _ => QuietEffect.upgradeEffect).suppress.bind
  intro _
  apply Attempt.Within.bind
  · split
    · exact (waitAttached_quiet _).mono fun _ _ => QuietEffect.upgradeEffect
    · trivial
  · exact fun _ => closeSegment_within

theorem migrate_within {oldName : String} {old : Segment} :
    (migrate externals call oldName old).Within (UpgradeEffect call.newName) := by
  apply Attempt.Within.onError
  · apply prepareNew_within.bind
    intro occupied
    apply Attempt.Within.bind
    · exact (copyRows_within.bind fun _ => flipCurrent_within).onError
        cleanupOrphanNewSegment_within
    · exact fun _ => finishUpgrade_within
  · exact closeSegment_within.suppress

/-- Every atomic step of an upgrade has the effect of one. -/
theorem upgradeSchema_within :
    (upgradeSchema externals call).Within (UpgradeEffect call.newName) := by
  unfold upgradeSchema
  split
  · trivial
  · split
    · trivial
    · split
      · trivial
      · have quiet : ∀ before after, QuietEffect call before after →
            UpgradeEffect call.newName before after := fun _ _ => QuietEffect.upgradeEffect
        apply (upgradePrecondition_quiet.mono quiet).bind
        intro _
        apply Attempt.Within.ensure
        · apply Attempt.Within.bind
          · exact (Attempt.within_call fun _ => .aside rfl rfl).bind fun _ =>
              openCurrentSegment_within
          · exact fun _ => migrate_within
        · exact ((releaseLock_quiet _).mono quiet).suppress.bind fun _ =>
            ((deletePause_quiet _).mono quiet).suppress

end Effects

section Runs

variable {externals : Externals} {call : HydrateCall}

/-- What a phase of `hydrate` knows of its table and its segment. -/
def Hydration.Prepared (externals : Externals) (call : HydrateCall) (system : Hydration) : Prop :=
  match system.phase with
  | .listed table => system.latest = some table ∧ 0 < table.length
  | .linked table layout =>
      system.latest = some table ∧ 0 < table.length ∧
        computeLayout externals.hashName call.schema (hydrateCreate call table).capacity
          (hydrateCreate call table).maxIdBytes = .ok layout ∧
        ∃ memory, system.host.objects call.name = some ⟨call.schema, layout, memory⟩
  | .publishing table layout =>
      system.latest = some table ∧ 0 < table.length ∧
        computeLayout externals.hashName call.schema (hydrateCreate call table).capacity
          (hydrateCreate call table).maxIdBytes = .ok layout ∧
        ∃ header, packHeader externals call.schema layout.capacity = some header ∧
          system.host.objects call.name =
            some ⟨call.schema, layout, freshSegment layout header⟩
  | _ => True

/-- The invariant of a run in front of the transaction of `create`. -/
structure Hydration.Hidden (externals : Externals) (call : HydrateCall) (distinct : Prop)
    (system : Hydration) : Prop where
  programs : ∀ program ∈ system.others, ∃ newName,
    (distinct → newName ≠ call.name) ∧ program.Within (UpgradeEffect newName)
  pointer : (system.latest = none ∧ (system.phase = .start ∨ ∃ error, system.phase = .failed error)) ∨
    system.host.keys.current call.schema.safeName = none
  prepared : distinct → system.Prepared externals call

theorem OtherCall.program_within (externals : Externals) (name : String) (other : OtherCall) :
    ∃ newName, (other.Distinct name → newName ≠ name) ∧
      (other.program externals).Within (UpgradeEffect newName) := by
  cases other with
  | openCurrent pid schema get exec =>
      refine ⟨name ++ "a", fun _ same => ?_, openCurrentSegment_within.bind fun _ => trivial⟩
      have lengths := congrArg String.length same
      simp at lengths
  | upgradeSchema call => exact ⟨call.newName, fun distinct => distinct, upgradeSchema_within⟩

theorem Hydration.initial_hidden (externals : Externals) (call : HydrateCall) (host : Host)
    (others : List OtherCall) :
    (Hydration.initial externals host others).Hidden externals call
      (∀ other ∈ others, other.Distinct call.name) := by
  constructor
  · intro program listed
    obtain ⟨other, inside, rfl⟩ := List.mem_map.mp listed
    obtain ⟨newName, spared, within⟩ := other.program_within externals call.name
    exact ⟨newName, fun distinct => spared (distinct other inside), within⟩
  · exact Or.inl ⟨rfl, Or.inl rfl⟩
  · exact fun _ => trivial

/-- The facts of a phase depend on the table and on the segment of `hydrate` only. -/
theorem Hydration.Prepared.congr {system : Hydration} {host : Host} {others : List (HostProgram Unit)}
    (prepared : system.Prepared externals call)
    (same : host.objects call.name = system.host.objects call.name) :
    Hydration.Prepared externals call { system with host := host, others := others } := by
  obtain ⟨before, phase, latest, programs⟩ := system
  cases phase with
  | linked table layout =>
      obtain ⟨stored, rows, computed, memory, object⟩ := prepared
      exact ⟨stored, rows, computed, memory, same.trans object⟩
  | publishing table layout =>
      obtain ⟨stored, rows, computed, header, packed, object⟩ := prepared
      exact ⟨stored, rows, computed, header, packed, same.trans object⟩
  | _ => exact prepared

theorem Hydration.Hidden.otherStep {distinct : Prop} {system : Hydration}
    (hidden : system.Hidden externals call distinct) (index : Nat) :
    (system.otherStep index).Hidden externals call distinct := by
  unfold Hydration.otherStep
  split
  · rename_i effect next found
    obtain ⟨newName, spared, within⟩ := hidden.programs _ (List.mem_of_getElem? found)
    obtain ⟨moved, rest⟩ := within system.host
    constructor
    · intro program listed
      rcases List.mem_or_eq_of_mem_set listed with old | rfl
      · exact hidden.programs program old
      · exact ⟨newName, spared, rest⟩
    · rcases hidden.pointer with early | unset
      · exact Or.inl early
      · refine Or.inr ?_
        rcases moved.current call.schema.safeName with same | removed | replaced
        · exact same.trans unset
        · exact removed
        · exact absurd unset replaced
    · intro far
      exact (hidden.prepared far).congr (moved.objects _ (Ne.symm (spared far)))
  · exact hidden

theorem Hydration.Hidden.fail {distinct : Prop} {system : Hydration}
    (hidden : system.Hidden externals call distinct) (error : HostFailure) :
    Hydration.Hidden externals call distinct { system with phase := .failed error } := by
  refine ⟨hidden.programs, ?_, fun _ => trivial⟩
  rcases hidden.pointer with ⟨unlisted, _⟩ | unset
  · exact Or.inl ⟨unlisted, Or.inr ⟨error, rfl⟩⟩
  · exact Or.inr unset

/-- Between the check and the transaction of `create` the pointer is unset. -/
theorem Hydration.Hidden.unset {distinct : Prop} {system : Hydration}
    (hidden : system.Hidden externals call distinct) (begun : system.phase ≠ .start)
    (alive : ∀ error, system.phase ≠ .failed error) :
    system.host.keys.current call.schema.safeName = none := by
  rcases hidden.pointer with ⟨_, start | ⟨error, failed⟩⟩ | unset
  · exact absurd start begun
  · exact absurd failed (alive error)
  · exact unset

theorem Hydration.Hidden.advance {distinct : Prop} {system : Hydration}
    (hidden : system.Hidden externals call distinct) {outcome : CallOutcome}
    (silent : system.unpublished (.advance outcome) = true) :
    (system.advance externals call outcome).Hidden externals call distinct := by
  obtain ⟨host, phase, latest, others⟩ := system
  have programs := hidden.programs
  unfold Hydration.advance
  cases phase with
  | start =>
      dsimp only
      split
      · exact hidden.fail _
      · split
        · exact hidden.fail _
        · split
          · exact hidden.fail _
          · rename_i absent
            exact ⟨programs, Or.inr (Option.not_isSome_iff_eq_none.mp absent), fun _ => trivial⟩
  | currentChecked =>
      have unset := hidden.unset (by simp) (by simp)
      dsimp only
      split
      · exact hidden.fail _
      · split
        · exact hidden.fail _
        · exact ⟨programs, Or.inr unset, fun _ => trivial⟩
  | listing =>
      have unset := hidden.unset (by simp) (by simp)
      dsimp only
      split
      · exact hidden.fail _
      · split
        · exact ⟨programs, Or.inr unset, fun _ => trivial⟩
        · rename_i rows
          exact ⟨programs, Or.inr unset, fun _ => ⟨rfl, Nat.pos_of_ne_zero rows⟩⟩
  | listed table =>
      have unset := hidden.unset (by simp) (by simp)
      dsimp only
      split
      · exact hidden.fail _
      · rename_i layout computed
        split
        · exact hidden.fail _
        · split
          · exact hidden.fail _
          · rename_i unlinked
            refine ⟨programs, Or.inr ?_, fun far => ?_⟩
            · dsimp only
              rw [Host.link, if_neg unlinked]
              exact unset
            · obtain ⟨stored, rows⟩ := hidden.prepared far
              refine ⟨stored, rows, computed, Memory.zero, ?_⟩
              dsimp only
              rw [Host.link, if_neg unlinked]
              exact Function.update_self _ _ _
  | linked table layout =>
      have unset := hidden.unset (by simp) (by simp)
      dsimp only
      split
      · exact ⟨programs, Or.inr unset, fun _ => trivial⟩
      · rename_i header packed
        refine ⟨programs, Or.inr unset, fun far => ?_⟩
        obtain ⟨stored, rows, computed, memory, object⟩ := hidden.prepared far
        refine ⟨stored, rows, computed, header, packed, ?_⟩
        dsimp only at object
        dsimp only
        rw [Host.withMemory, object]
        exact Function.update_self _ _ _
  | publishing table layout =>
      have unset := hidden.unset (by simp) (by simp)
      obtain rfl : outcome = .raisedBefore := of_decide_eq_true silent
      exact ⟨programs, Or.inr unset, fun _ => trivial⟩
  | abandoning error =>
      exact ⟨programs, Or.inr (hidden.unset (by simp) (by simp)), fun _ => trivial⟩
  | loading program =>
      have unset := hidden.unset (by simp) (by simp)
      dsimp only
      split
      · exact ⟨programs, Or.inr unset, fun _ => trivial⟩
      · cases program <;> exact ⟨programs, Or.inr unset, fun _ => trivial⟩
  | dropping error =>
      refine ⟨programs, Or.inr ?_, fun _ => trivial⟩
      dsimp only
      split
      · exact hidden.unset (by simp) (by simp)
      · exact Function.update_self _ _ _
  | unlinking error =>
      exact ⟨programs, Or.inr (hidden.unset (by simp) (by simp)), fun _ => trivial⟩
  | finished rows => exact hidden
  | failed error => exact hidden

/-- A run in which the transaction of `create` takes no effect keeps the pointer hidden. -/
theorem Hydration.Hidden.performAll {distinct : Prop} {system : Hydration}
    (hidden : system.Hidden externals call distinct) {actions : List HydrationAction}
    (silent : system.unpublishedAll externals call actions = true) :
    (system.performAll externals call actions).Hidden externals call distinct := by
  induction actions generalizing system with
  | nil => exact hidden
  | cons action rest ih =>
      obtain ⟨now, later⟩ := Bool.and_eq_true_iff.mp silent
      refine ih ?_ later
      cases action with
      | advance outcome => exact hidden.advance now
      | other index => exact hidden.otherStep index

theorem Hydration.Hidden.visible {distinct : Prop} {system : Hydration}
    (hidden : system.Hidden externals call distinct) : system.Visible externals call.schema := by
  intro table stored
  rcases hidden.pointer with ⟨unlisted, _⟩ | unset
  · rw [stored] at unlisted
    cases unlisted
  · exact Or.inl unset

/-- A fresh segment holds no row of a table. -/
theorem freshSegment_not_holdsRows {schema : FeatureSchema} {capacity maxIdBytes : Int}
    {layout : SegmentLayout}
    (computed : computeLayout externals.hashName schema capacity maxIdBytes = .ok layout)
    {header : List UInt8} (headerLength : header.length = headerSize) {table : ArrowTable}
    (rows : 0 < table.length) :
    ¬ HoldsRows externals schema table ⟨schema, layout, freshSegment layout header⟩ := by
  rintro ⟨columns, _, held⟩
  obtain ⟨entityId, address, _, found, _⟩ := held 0 rows
  have sound := computeLayout_sound computed
  obtain ⟨consistent, _⟩ := freshSegment_consistent sound headerLength externals.hashId
  obtain ⟨index, inside, stored, _⟩ := (lookup_located sound consistent).mp found
  have vacant := freshSegment_flags sound headerLength inside
  rw [(slotKey_eq_some.mp stored).1] at vacant
  exact absurd vacant (by decide)

/-- The transaction of `create` publishes a segment without rows. -/
theorem Hydration.Hidden.exposed {distinct : Prop} {system : Hydration}
    (hidden : system.Hidden externals call distinct) (far : distinct) {action : HydrationAction}
    (published : system.unpublished action = false) :
    ¬ (system.perform externals call action).Visible externals call.schema := by
  obtain ⟨host, phase, latest, others⟩ := system
  cases action with
  | other index => cases published
  | advance outcome =>
      cases phase with
      | publishing table layout =>
          obtain ⟨stored, rows, computed, header, packed, object⟩ := hidden.prepared far
          have shown : ∀ state : Hydration, state.latest = some table →
              state.host = host.published call → ¬ state.Visible externals call.schema := by
            intro state returned same visible
            rcases visible table returned with unset | ⟨name, segment, named, held, holds⟩
            · rw [same] at unset
              simp [Host.published, RegistryKeys.createPipeline] at unset
            · rw [same] at named held
              obtain rfl : call.name = name := by
                simpa [Host.published, RegistryKeys.createPipeline] using named
              obtain rfl := Option.some.inj (object.symm.trans held)
              exact freshSegment_not_holdsRows computed (packHeader_length packed) rows holds
          cases outcome with
          | returned => exact shown _ stored rfl
          | raisedBefore => cases published
          | raisedAfter => exact shown _ stored rfl
      | _ => cases published

theorem Hydration.performAll_append (system : Hydration) (first second : List HydrationAction) :
    system.performAll externals call (first ++ second) =
      (system.performAll externals call first).performAll externals call second :=
  List.foldl_append

/-- A run takes effect in no step, or it reaches its first step that takes effect. -/
theorem Hydration.unpublishedAll_cases (system : Hydration) (actions : List HydrationAction) :
    system.unpublishedAll externals call actions = true ∨
      ∃ before action after, actions = before ++ action :: after ∧
        system.unpublishedAll externals call before = true ∧
        (system.performAll externals call before).unpublished action = false := by
  induction actions generalizing system with
  | nil => exact Or.inl rfl
  | cons action rest ih =>
      cases now : system.unpublished action with
      | false => exact Or.inr ⟨[], action, rest, rfl, rfl, now⟩
      | true =>
          rcases ih (system.perform externals call action) with
            silent | ⟨before, published, after, rfl, silent, effective⟩
          · refine Or.inl ?_
            rw [Hydration.unpublishedAll, now, silent]
            rfl
          · refine Or.inr ⟨action :: before, published, after, rfl, ?_, effective⟩
            rw [Hydration.unpublishedAll, now, silent]
            rfl

theorem Hydration.unpublishedAll_take {system : Hydration} {reached actions : List HydrationAction}
    (part : reached <+: actions) (silent : system.unpublishedAll externals call actions = true) :
    system.unpublishedAll externals call reached = true := by
  induction reached generalizing system actions with
  | nil => rfl
  | cons action rest ih =>
      obtain ⟨later, rfl⟩ := part
      obtain ⟨now, silent⟩ := Bool.and_eq_true_iff.mp silent
      exact Bool.and_eq_true_iff.mpr ⟨now, ih (List.prefix_append rest later) silent⟩

/-- Every state shows the whole table or no segment exactly while the transaction of `create` takes
no effect. -/
theorem hydrate_visible_iff (externals : Externals) (call : HydrateCall) (host : Host)
    (others : List OtherCall) (actions : List HydrationAction) :
    let system := Hydration.initial externals host others
    (system.unpublishedAll externals call actions = true →
      ∀ reached, reached <+: actions →
        (system.performAll externals call reached).Visible externals call.schema) ∧
    ((∀ other ∈ others, other.Distinct call.name) →
      (∀ reached, reached <+: actions →
        (system.performAll externals call reached).Visible externals call.schema) →
      system.unpublishedAll externals call actions = true) := by
  intro system
  have hidden := Hydration.initial_hidden externals call host others
  constructor
  · intro silent reached part
    exact (hidden.performAll (Hydration.unpublishedAll_take part silent)).visible
  · intro distinct visible
    rcases system.unpublishedAll_cases actions with
      silent | ⟨before, action, after, rfl, silent, effective⟩
    · exact silent
    · have shown := visible (before ++ [action]) ⟨after, by simp⟩
      rw [Hydration.performAll_append] at shown
      exact absurd shown ((hidden.performAll silent).exposed distinct effective)

end Runs

/-- One row of the sample schema as an Arrow table. -/
def sampleLatest : ArrowTable where
  length := 1
  columns := [("entity_id", .texts (.ofList ["a"])),
    ("score", .values 0 .float32 [[[0, 0, 128, 63]]])]

/-- A hydration of the sample schema from one row. -/
def sampleHydrateCall : HydrateCall where
  pid := 1
  schema := sampleSchema
  name := "hydrated"
  factorValid := true
  scaled := fun rows => 4 * rows
  latest := some sampleLatest
  space := true

/-- A host without a current sample segment. -/
def sampleVacantHost : Host :=
  { sampleHost with keys := { sampleHost.keys with current := fun _ => none } }

/-- A hydration of the sample schema beside a process that opens the current segment. -/
def sampleHydration : Hydration :=
  .initial sampleExternals sampleVacantHost [.openCurrent 2 sampleSchema .returned .returned]

theorem sampleHydrate_layout : ∃ layout, layout.capacity = 16 ∧
    computeLayout sampleHash sampleSchema 16 64 = .ok layout := by
  obtain ⟨table, rows, _⟩ := computeLayout_parts
    (@computeLayout_sample_of_hash sampleHash rfl)
  refine ⟨layoutOf 16 64 sampleLayout.rowSize sampleLayout.rowOffsetTable
    (computeAssemblyTable sampleHash sampleSchema) (totalElementCount sampleSchema), rfl, ?_⟩
  have small : ¬ (layoutOf 16 64 sampleLayout.rowSize sampleLayout.rowOffsetTable
      (computeAssemblyTable sampleHash sampleSchema) (totalElementCount sampleSchema)).totalSize >
        maxTotalSegmentBytes := by decide
  unfold computeLayout
  rw [table, rows, if_neg (by decide), if_neg (by decide), if_neg (by decide), if_neg (by decide)]
  exact if_neg small

/-- The sample hydration reaches its transaction in five steps. -/
theorem sampleHydration_publishing :
    let actions := List.replicate 5 (HydrationAction.advance .returned)
    sampleHydration.unpublishedAll sampleExternals sampleHydrateCall actions = true ∧
      ∃ layout, (sampleHydration.performAll sampleExternals sampleHydrateCall actions).phase =
        .publishing sampleLatest layout := by
  obtain ⟨layout, capacity, computed⟩ := sampleHydrate_layout
  obtain ⟨table, _⟩ := computeLayout_parts computed
  obtain ⟨header, packed⟩ := @packHeader_exists sampleExternals sampleSchema layout table
    (by decide) (by rw [capacity]; decide)
  have three : sampleHydration.performAll sampleExternals sampleHydrateCall
      (List.replicate 3 (HydrationAction.advance .returned)) =
        { sampleHydration with latest := some sampleLatest, phase := .listed sampleLatest } := rfl
  have linking : ∀ system : Hydration, system.phase = .listed sampleLatest →
      sampleHydrateCall.name ∉ system.host.linked →
      (system.advance sampleExternals sampleHydrateCall .returned).phase =
        .linked sampleLatest layout := by
    intro system listed fresh
    have computed' : computeLayout sampleExternals.hashName sampleHydrateCall.schema
        (hydrateCreate sampleHydrateCall sampleLatest).capacity
        (hydrateCreate sampleHydrateCall sampleLatest).maxIdBytes = .ok layout := computed
    unfold Hydration.advance
    rw [listed]
    dsimp only
    rw [computed']
    dsimp only
    rw [if_neg (by decide), if_neg fresh]
  have writing : ∀ system : Hydration, system.phase = .linked sampleLatest layout →
      (system.advance sampleExternals sampleHydrateCall .returned).phase =
        .publishing sampleLatest layout := by
    intro system linked
    have packed' : packHeader sampleExternals sampleHydrateCall.schema layout.capacity =
      some header := packed
    unfold Hydration.advance
    rw [linked]
    dsimp only
    rw [packed']
  have four := linking (sampleHydration.performAll sampleExternals sampleHydrateCall
    (List.replicate 3 (HydrationAction.advance .returned))) (by rw [three]) (by rw [three]; decide)
  refine ⟨?_, layout, writing _ four⟩
  have silent : ∀ system : Hydration, ∀ table layout, system.phase = .linked table layout →
      system.unpublished (.advance .returned) = true := by
    intro system table layout linked
    rw [Hydration.unpublished, linked]
  simp only [List.replicate, Hydration.unpublishedAll, Bool.and_true]
  exact silent _ _ _ four

/-- The sample hydration whose transaction is refused shows no segment. -/
theorem hydrate_visible_iff_sample :
    (sampleHydration.performAll sampleExternals sampleHydrateCall
      (List.replicate 5 (.advance .returned))).Visible sampleExternals sampleSchema := by
  obtain ⟨visible, _⟩ := hydrate_visible_iff sampleExternals sampleHydrateCall sampleVacantHost
    [.openCurrent 2 sampleSchema .returned .returned]
    (List.replicate 5 (.advance .returned))
  exact visible sampleHydration_publishing.1 _ (List.prefix_refl _)

/-- The sample hydration shows a segment without rows after its transaction. -/
theorem hydrate_exposes :
    ¬ (sampleHydration.performAll sampleExternals sampleHydrateCall
      (List.replicate 6 (.advance .returned))).Visible sampleExternals sampleSchema := by
  obtain ⟨silent, layout, publishing⟩ := sampleHydration_publishing
  have hidden := (Hydration.initial_hidden sampleExternals sampleHydrateCall sampleVacantHost
    [.openCurrent 2 sampleSchema .returned .returned]).performAll silent
  refine @Hydration.Hidden.exposed _ _ _ _ hidden (fun other listed => ?_) (.advance .returned) ?_
  · obtain rfl := List.mem_singleton.mp listed
    trivial
  · change (Hydration.performAll sampleExternals sampleHydrateCall sampleHydration
      (List.replicate 5 (.advance .returned))).unpublished (.advance .returned) = false
    rw [Hydration.unpublished, publishing]
    rfl

end Quorin
