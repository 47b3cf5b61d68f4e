import Quorin.Construction.Evolution
import Quorin.Construction.Consumer
import Quorin.Construction.Registry
import Quorin.Library.FaultyCalls

namespace Quorin

open ByteMemory FaultyCalls

/-- Redis and the shared memory of the host; a mapped segment outlives its name. -/
structure Host where
  keys : RegistryKeys
  linked : Finset String
  objects : SharedMemory
  /-- The upgrade locks and the pause keys, by safe class names. -/
  lock : String → Option String
  pause : String → Option String
  /-- The number of pending entries of the consumer group, absent without a group. -/
  pending : Option Nat
  liveness : Bool

/-- The exceptions of `create`, `open_current`, `upgrade_schema` and `hydrate`. -/
inductive HostFailure where
  | redisError
  | segmentNotFound
  | fileNotFound
  | schemaCRCMismatch
  | layout (error : LayoutError)
  | noSpace
  | fileExists
  | headerRange
  | capacityFactor
  | upgradeIncompatible
  | upgradeConflict
  | upgradeAborted
  | upgradeCount (inserted expected : Nat)
  | translation (error : TranslationError)
  | insertMany (error : InsertManyError)
  | hydrationConflict
  | emptyDataset
  | offlineStore

/-- A program on the host. -/
abbrev HostProgram (α : Type) := Attempt Host HostFailure α

/-- The class name with every other character replaced, as it stands in key names. -/
def safeClassName (name : String) : String :=
  name.map fun char => if char.isAlphanum || char = '_' then char else '_'

/-- The name of a schema in the keys of Redis. -/
def FeatureSchema.safeName (schema : FeatureSchema) : String := safeClassName schema.className

section Create

variable (externals : Externals)

/-- One call of `create`, with the name it draws and the fate of its steps. -/
structure CreateCall where
  pid : Nat
  schema : FeatureSchema
  name : String
  capacity : Int
  maxIdBytes : Int
  setCurrent : Bool
  /-- Whether the shared memory file system has room for the segment. -/
  space : Bool
  exec : CallOutcome

/-- The header of a segment, absent when a number does not fit into its field. -/
def packHeader (schema : FeatureSchema) (capacity : Nat) : Option (List UInt8) :=
  match compileSchema externals.hashName schema with
  | .error _ => none
  | .ok table =>
      if 0 ≤ schema.version ∧ schema.version < 2 ^ 32 ∧ capacity < 2 ^ 32 then
        some ([0x50, 0x59, 0x46, 0x47] ++ leBytes 4 schema.version.toNat ++
          leBytes 4 (externals.crc32 table).toNat ++ leBytes 4 capacity)
      else none

/-- The exclusive creation of a zeroed segment; an existing name stays as it is. -/
def Host.link (host : Host) (name : String) (schema : FeatureSchema) (layout : SegmentLayout) : Host :=
  if name ∈ host.linked then host
  else { host with
    linked := Insert.insert name host.linked
    objects := Function.update host.objects name (some ⟨schema, layout, Memory.zero⟩) }

def Host.unlink (host : Host) (name : String) : Host :=
  { host with linked := host.linked.erase name }

/-- The writes of a process to the bytes of a segment. -/
def Host.withMemory (host : Host) (name : String) (change : Memory → Memory) : Host :=
  { host with
    objects := Function.update host.objects name
      ((host.objects name).map fun segment => { segment with memory := change segment.memory }) }

/-- The part of `create` inside its `try` block. -/
def registerSegment (call : CreateCall) (layout : SegmentLayout) : HostProgram Unit :=
  match packHeader externals call.schema layout.capacity with
  | none => .raised .headerRange
  | some header =>
      .step (fun host => host.withMemory call.name fun _ => freshSegment layout header) fun _ =>
        .call call.exec .redisError
          (fun host => { host with
            keys := host.keys.createPipeline call.pid call.schema.safeName call.name call.setCurrent })
          fun _ => ()

/-- The method `SegmentRegistry.create`. -/
def create (call : CreateCall) : HostProgram Unit :=
  match computeLayout externals.hashName call.schema call.capacity call.maxIdBytes with
  | .error error => .raised (.layout error)
  | .ok layout =>
      if call.space = false then .raised .noSpace
      else
        .step (fun host => host.link call.name call.schema layout) fun host =>
          if call.name ∈ host.linked then .raised .fileExists
          else
            (registerSegment externals call layout).onError
              (.step (fun host => host.unlink call.name) fun _ => .done ())

end Create

/-- The method `SegmentRegistry.open_current`, which returns the name of the segment. -/
def openCurrentSegment (externals : Externals) (pid : Nat) (schema : FeatureSchema)
    (get exec : CallOutcome) : HostProgram (String × Segment) :=
  (Attempt.call get .redisError id fun host => host.keys.current schema.safeName).bind fun current =>
    match current with
    | none => .raised .segmentNotFound
    | some name =>
        .inspect fun host =>
          match host.objects name with
          | none => .raised .fileNotFound
          | some segment =>
              if name ∉ host.linked then .raised .fileNotFound
              else if verifyHeader externals segment schema = false then .raised .schemaCRCMismatch
              else
                .call exec .redisError
                  (fun host => { host with keys := host.keys.openPipeline pid name })
                  fun _ => (name, segment)

/-- The method `SegmentRegistry.close`. -/
def closeSegment (pid : Nat) (name : String) (script : CallOutcome) : HostProgram Unit :=
  .call script .redisError
    (fun host => { host with keys := (host.keys.closeScript pid name).2 }) fun _ => ()

/-- One call of `upgrade_schema`, with the fate of each of its Redis calls. -/
structure UpgradeCall where
  pid : Nat
  old : FeatureSchema
  new : FeatureSchema
  token : String
  newName : String
  /-- Whether the capacity factor is finite and positive. -/
  factorValid : Bool
  /-- The capacity times the factor, rounded towards zero. -/
  scaled : Nat → Int
  space : Bool
  waitForConsumer : Bool
  lock : CallOutcome
  holder : CallOutcome
  xpending : CallOutcome
  liveness : CallOutcome
  refusal : CallOutcome
  pause : CallOutcome
  openGet : CallOutcome
  openExec : CallOutcome
  currentGet : CallOutcome
  createExec : CallOutcome
  flip : CallOutcome
  clearPause : CallOutcome
  /-- The refcount reads of the wait loop until its deadline. -/
  attach : List CallOutcome
  close : CallOutcome
  orphan : CallOutcome
  finalClose : CallOutcome
  release : CallOutcome
  finalPause : CallOutcome

section Upgrade

variable (externals : Externals) (call : UpgradeCall)

/-- The script `RELEASE_LOCK_LUA`. -/
def releaseLock (outcome : CallOutcome) : HostProgram Unit :=
  .call outcome .redisError
    (fun host =>
      if host.lock call.old.safeName = some call.token then
        { host with lock := Function.update host.lock call.old.safeName none }
      else host)
    fun _ => ()

def deletePause (outcome : CallOutcome) : HostProgram Unit :=
  .call outcome .redisError
    (fun host => { host with pause := Function.update host.pause call.old.safeName none })
    fun _ => ()

/-- The lock and the drain precondition in front of the `try` block. -/
def upgradePrecondition : HostProgram Unit :=
  (Attempt.call call.lock .redisError
    (fun host =>
      if (host.lock call.old.safeName).isNone then
        { host with lock := Function.update host.lock call.old.safeName (some call.token) }
      else host)
    fun host => (host.lock call.old.safeName).isNone).bind fun acquired =>
  if acquired = false then
    (Attempt.call call.holder .redisError id fun _ => ()).bind fun _ => .raised .upgradeConflict
  else
    (Attempt.call call.xpending .redisError id fun host => host.pending.getD 0).attempt.bind
      fun pending =>
    if pending.toOption.getD 0 > 0 then
      (releaseLock call call.refusal).suppress.bind fun _ => .raised .upgradeConflict
    else
      (Attempt.call call.liveness .redisError id fun host => host.liveness).bind fun alive =>
      if alive then (releaseLock call call.refusal).suppress.bind fun _ => .raised .upgradeConflict
      else .done ()

/-- The pause key and the open of the old segment. -/
def openOld : HostProgram (String × Segment) :=
  (Attempt.call call.pause .redisError
    (fun host => { host with
      pause := Function.update host.pause call.old.safeName (some call.token) })
    fun _ => ()).bind fun _ =>
  openCurrentSegment externals call.pid call.old call.openGet call.openExec

/-- The call of `create` for a new segment with room for the rows of the old one. -/
def createNewCall (old : Segment) (occupied : Nat) : CreateCall where
  pid := call.pid
  schema := call.new
  name := call.newName
  capacity := max (call.scaled old.layout.capacity) (occupied + 1)
  maxIdBytes := old.layout.maxIdBytes
  setCurrent := false
  space := call.space
  exec := call.createExec

/-- The check of the pointer and the new segment, with the number of rows to copy. -/
def prepareNew (oldName : String) (old : Segment) : HostProgram Nat :=
  (Attempt.call call.currentGet .redisError id
    fun host => host.keys.current call.old.safeName).bind fun current =>
  if current ≠ some oldName then .raised .upgradeConflict
  else
    .inspect fun host =>
      let occupied := (((host.objects oldName).getD old).memory).readNat metadataOffset 8
      (create externals (createNewCall call old occupied)).bind fun _ => .done occupied

/-- The translation of the old rows and their bulk insert into the new segment. -/
def copyRows (oldName : String) (old : Segment) (occupied : Nat) : HostProgram Unit :=
  .inspect fun host =>
    match buildTranslationTable externals.hashName externals.castBits externals.stringArray
        call.old call.new old.layout ((host.objects oldName).getD old).memory with
    | .error error => .raised (.translation error)
    | .ok table =>
        .inspect fun host =>
          match host.objects call.newName with
          | none => .raised .fileNotFound
          | some segment =>
              let load := insertMany externals.hashId externals.castBits call.new segment.layout table
              .step (fun host => host.withMemory call.newName fun memory => (load.run memory).2)
                fun _ =>
                  match load.result segment.memory with
                  | .error error => .raised (.insertMany error)
                  | .ok inserted =>
                      if inserted ≠ occupied then .raised (.upgradeCount inserted occupied)
                      else .done ()

/-- The flip of the pointer and the reaction to its result. -/
def flipCurrent (oldName : String) : HostProgram Unit :=
  (Attempt.call call.flip .redisError
    (fun host => { host with
      keys := (host.keys.flipSchemaCurrent call.old.safeName oldName call.newName).2 })
    fun host => (host.keys.flipSchemaCurrent call.old.safeName oldName call.newName).1).bind
  fun result =>
    if result = 0 then .raised .upgradeAborted
    else if result = -1 then .raised .upgradeConflict
    else .done ()

/-- The function `_cleanup_orphan_new_segment`. -/
def cleanupOrphanNewSegment : HostProgram Unit :=
  (Attempt.call call.orphan HostFailure.redisError
    (fun host : Host => { host with
      keys := { host.keys with
        refcount := Function.update host.keys.refcount call.newName none
        pidSegments := Function.update host.keys.pidSegments call.pid
          ((host.keys.pidSegments call.pid).erase call.newName)
        segmentToSchema := Function.update host.keys.segmentToSchema call.newName none } })
    fun _ => ()).suppress.bind fun _ =>
  .step (fun host => host.unlink call.newName) fun _ => .done ()

/-- The wait for a consumer on the new segment. -/
def waitAttached : List CallOutcome → HostProgram Unit
  | [] => .done ()
  | outcome :: rest =>
      (Attempt.call outcome .redisError id
        fun host => (host.keys.refcount call.newName).getD 0).bind fun count =>
      if count > 1 then .done () else waitAttached rest

/-- The steps behind the flip. -/
def finishUpgrade (oldName : String) : HostProgram Unit :=
  (deletePause call call.clearPause).suppress.bind fun _ =>
  (if call.waitForConsumer then waitAttached call call.attach else .done ()).bind fun _ =>
  closeSegment call.pid oldName call.close

/-- The `try` block with its handlers, from the open old segment on. -/
def migrate (oldName : String) (old : Segment) : HostProgram Unit :=
  ((prepareNew externals call oldName old).bind fun occupied =>
    (((copyRows externals call oldName old occupied).bind fun _ =>
      flipCurrent call oldName).onError (cleanupOrphanNewSegment call)).bind fun _ =>
    finishUpgrade call oldName).onError
      (closeSegment call.pid oldName call.finalClose).suppress

/-- The function `upgrade_schema`. -/
def upgradeSchema : HostProgram Unit :=
  if call.old.className ≠ call.new.className then .raised .upgradeIncompatible
  else if call.factorValid = false then .raised .capacityFactor
  else if (canUpgrade call.old call.new).1 = false then .raised .upgradeIncompatible
  else
    (upgradePrecondition call).bind fun _ =>
    ((openOld externals call).bind fun opened => migrate externals call opened.1 opened.2).ensure
      ((releaseLock call call.release).suppress.bind fun _ =>
        (deletePause call call.finalPause).suppress)

end Upgrade

end Quorin
