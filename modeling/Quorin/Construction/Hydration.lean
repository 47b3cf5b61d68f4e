import Quorin.Construction.Upgrade

namespace Quorin

open ByteMemory FaultyCalls

/-- One call of `hydrate`, with the name that its segment draws. -/
structure HydrateCall where
  pid : Nat
  schema : FeatureSchema
  name : String
  /-- Whether the capacity factor is finite and at least two. -/
  factorValid : Bool
  /-- The number of rows times the factor, rounded towards zero. -/
  scaled : Nat → Int
  /-- The answer of `latest_features`, absent when it raises. -/
  latest : Option ArrowTable
  space : Bool

/-- The points between two atomic steps of `hydrate`. -/
inductive HydratePhase where
  | start
  | currentChecked
  | listing
  | listed (table : ArrowTable)
  | linked (table : ArrowTable) (layout : SegmentLayout)
  | publishing (table : ArrowTable) (layout : SegmentLayout)
  /-- The `except` block of `create`. -/
  | abandoning (error : HostFailure)
  | loading (program : Program InsertManyError Nat)
  /-- The two parts of `_force_drop_orphan`. -/
  | dropping (error : HostFailure)
  | unlinking (error : HostFailure)
  | finished (rows : Nat)
  | failed (error : HostFailure)

/-- A `hydrate` between its steps, beside programs of other processes. -/
structure Hydration where
  host : Host
  phase : HydratePhase
  /-- The table that `latest_features` returned. -/
  latest : Option ArrowTable
  others : List (HostProgram Unit)

section Steps

variable (externals : Externals) (call : HydrateCall)

/-- The call of `create` that `hydrate` makes for a table. -/
def hydrateCreate (table : ArrowTable) : CreateCall where
  pid := call.pid
  schema := call.schema
  name := call.name
  capacity := max (call.scaled table.length) 16
  maxIdBytes := defaultMaxIdBytes
  setCurrent := true
  space := call.space
  exec := .returned

/-- The keys behind the transaction of `create`. -/
def Host.published (host : Host) (call : HydrateCall) : Host :=
  { host with
    keys := host.keys.createPipeline call.pid call.schema.safeName call.name true }

/-- The keys behind the transaction of `_force_drop_orphan`. -/
def Host.dropped (host : Host) (call : HydrateCall) : Host :=
  { host with
    keys := { host.keys with
      current := Function.update host.keys.current call.schema.safeName none
      refcount := Function.update host.keys.refcount call.name none
      pidSegments := Function.update host.keys.pidSegments call.pid
        ((host.keys.pidSegments call.pid).erase call.name)
      segmentToSchema := Function.update host.keys.segmentToSchema call.name none } }

/-- The next step of `hydrate`, with the fate of its Redis call; in the bulk insert, a call that
raises stands for an interrupt. -/
def Hydration.advance (system : Hydration) (outcome : CallOutcome) : Hydration :=
  match system.phase with
  | .start =>
      if call.factorValid = false then { system with phase := .failed .capacityFactor }
      else if outcome ≠ .returned then { system with phase := .failed .redisError }
      else if (system.host.keys.current call.schema.safeName).isSome then
        { system with phase := .failed .hydrationConflict }
      else { system with phase := .currentChecked }
  | .currentChecked =>
      if outcome ≠ .returned then { system with phase := .failed .redisError }
      else if system.host.liveness then { system with phase := .failed .hydrationConflict }
      else { system with phase := .listing }
  | .listing =>
      match call.latest with
      | none => { system with phase := .failed .offlineStore }
      | some table =>
          if table.length = 0 then
            { system with latest := some table, phase := .failed .emptyDataset }
          else { system with latest := some table, phase := .listed table }
  | .listed table =>
      match computeLayout externals.hashName call.schema (hydrateCreate call table).capacity
          (hydrateCreate call table).maxIdBytes with
      | .error error => { system with phase := .failed (.layout error) }
      | .ok layout =>
          if call.space = false then { system with phase := .failed .noSpace }
          else if call.name ∈ system.host.linked then { system with phase := .failed .fileExists }
          else
            { system with
              host := system.host.link call.name call.schema layout
              phase := .linked table layout }
  | .linked table layout =>
      match packHeader externals call.schema layout.capacity with
      | none => { system with phase := .abandoning .headerRange }
      | some header =>
          { system with
            host := system.host.withMemory call.name fun _ => freshSegment layout header
            phase := .publishing table layout }
  | .publishing table layout =>
      match outcome with
      | .returned =>
          { system with
            host := system.host.published call
            phase := .loading
              (insertMany externals.hashId externals.castBits call.schema layout table) }
      | .raisedBefore => { system with phase := .abandoning .redisError }
      | .raisedAfter =>
          { system with host := system.host.published call, phase := .abandoning .redisError }
  | .abandoning error =>
      { system with host := system.host.unlink call.name, phase := .failed error }
  | .loading program =>
      if outcome ≠ .returned then { system with phase := .dropping .redisError }
      else
        match program with
        | .done rows => { system with phase := .finished rows }
        | .fail error => { system with phase := .dropping (.insertMany error) }
        | .read address count next =>
            { system with
              phase := .loading (next
                (((system.host.objects call.name).map Segment.memory).getD Memory.zero
                  |>.read address count)) }
        | .write address bytes next =>
            { system with
              host := system.host.withMemory call.name fun memory => memory.write address bytes
              phase := .loading next }
  | .dropping error =>
      { system with
        host := if outcome = .raisedBefore then system.host else system.host.dropped call
        phase := .unlinking error }
  | .unlinking error =>
      { system with host := system.host.unlink call.name, phase := .failed error }
  | .finished _ => system
  | .failed _ => system

/-- An atomic step of `hydrate` or of one of the other programs. -/
inductive HydrationAction where
  | advance (outcome : CallOutcome)
  | other (index : Nat)

/-- The step of another program. -/
def Hydration.otherStep (system : Hydration) (index : Nat) : Hydration :=
  match system.others[index]? with
  | some (.step effect next) =>
      { system with
        host := effect system.host
        others := system.others.set index (next system.host) }
  | _ => system

def Hydration.perform (system : Hydration) : HydrationAction → Hydration
  | .advance outcome => system.advance externals call outcome
  | .other index => system.otherStep index

/-- The transaction of `create` in `hydrate` does not take effect in this step. -/
def Hydration.unpublished (system : Hydration) : HydrationAction → Bool
  | .advance outcome =>
      match system.phase with
      | .publishing _ _ => outcome = .raisedBefore
      | _ => true
  | .other _ => true

/-- The state behind a list of steps. -/
def Hydration.performAll (system : Hydration) (actions : List HydrationAction) : Hydration :=
  actions.foldl (Hydration.perform externals call) system

/-- The transaction of `create` in `hydrate` takes effect in no step of the run. -/
def Hydration.unpublishedAll (system : Hydration) : List HydrationAction → Bool
  | [] => true
  | action :: rest =>
      system.unpublished action && (system.perform externals call action).unpublishedAll rest

end Steps

/-- A call of another process that may run beside `hydrate`. -/
inductive OtherCall where
  | openCurrent (pid : Nat) (schema : FeatureSchema) (get exec : CallOutcome)
  | upgradeSchema (call : UpgradeCall)

/-- The program of such a call. -/
def OtherCall.program (externals : Externals) : OtherCall → HostProgram Unit
  | .openCurrent pid schema get exec =>
      (openCurrentSegment externals pid schema get exec).bind fun _ => .done ()
  | .upgradeSchema call => Quorin.upgradeSchema externals call

/-- The random name of a segment that such a call creates differs from a given one. -/
def OtherCall.Distinct (name : String) : OtherCall → Prop
  | .openCurrent _ _ _ _ => True
  | .upgradeSchema call => call.newName ≠ name

/-- A `hydrate` before its first step. -/
def Hydration.initial (externals : Externals) (host : Host) (others : List OtherCall) : Hydration :=
  ⟨host, .start, none, others.map (OtherCall.program externals)⟩

/-- A segment holds every row of a table under the id of the row. -/
def HoldsRows (externals : Externals) (schema : FeatureSchema) (table : ArrowTable)
    (segment : Segment) : Prop :=
  ∃ columns, prepareInsertColumns externals.hashId externals.castBits table schema segment.layout =
    .ok columns ∧
  ∀ row, row < table.length → ∃ entityId address,
    encodeUtf8 entityId = slice columns.encodedIdsConcat (columns.idByteOffsets.getD row 0)
      (columns.idByteOffsets.getD (row + 1) 0 - columns.idByteOffsets.getD row 0) ∧
    (lookup externals.hashId segment.layout entityId).result segment.memory = .ok (some address) ∧
    ∀ field, field < columns.fieldByteOffsetsInRow.length →
      segment.memory.read (address + columns.fieldByteOffsetsInRow.getD field 0)
        (columns.fieldByteCounts.getD field 0) =
          slice columns.fieldData
            (columns.fieldDataStarts.getD field 0 + row * columns.fieldByteCounts.getD field 0)
            (columns.fieldByteCounts.getD field 0)

/-- The pointer is unset or names a segment that holds every row of the returned table. -/
def Hydration.Visible (externals : Externals) (schema : FeatureSchema) (system : Hydration) : Prop :=
  ∀ table, system.latest = some table →
    system.host.keys.current schema.safeName = none ∨
      ∃ name segment, system.host.keys.current schema.safeName = some name ∧
        system.host.objects name = some segment ∧ HoldsRows externals schema table segment

end Quorin
