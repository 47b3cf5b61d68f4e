import Quorin.Construction.ConsumerSteps
import Quorin.Library.DurableFiles

namespace Quorin

/-- The paths of a dataset: its directories, the files under `_tmp` and those of its partitions. -/
inductive DatasetPath where
  | classDirectory (schema : FeatureSchema)
  | dateDirectory (key : BucketKey)
  | temporary (uuid : Nat)
  | partition (key : BucketKey) (uuid : Nat)
  deriving DecidableEq

/-- The directory of a path, absent for the base and for `_tmp`, which exist for good. -/
def DatasetPath.parent : DatasetPath → Option DatasetPath
  | .classDirectory _ => none
  | .dateDirectory key => some (.classDirectory key.1)
  | .temporary _ => none
  | .partition key _ => some (.dateDirectory key)

/-- The path lies in the partition of the bucket. -/
def DatasetPath.inside (key : BucketKey) : DatasetPath → Bool
  | .partition other _ => other = key
  | _ => false

abbrev DatasetDisk := Disk DatasetPath UInt8

/-- What happens to one call of `_write_table`. -/
structure TableWrite where
  uuid : Nat
  /-- The pieces in which `pq.write_table` writes the encoded table. -/
  chunks : List (List UInt8)
  /-- The number of file system calls that succeed. -/
  succeeded : Nat
  /-- The process lives on, and the unlink of its exception handler succeeds. -/
  handled : Bool

section Write

variable (key : BucketKey) (write : TableWrite)

/-- The two calls of `partition_dir.mkdir(parents=True, exist_ok=True)`; no call syncs their entries. -/
def mkdirCalls : List (DiskCall DatasetPath UInt8) :=
  [.makeDirectory (.classDirectory key.1), .makeDirectory (.dateDirectory key)]

/-- The file system calls of `_write_table`. -/
def writeTableCalls (disk : DatasetDisk) : List (DiskCall DatasetPath UInt8) :=
  mkdirCalls key ++ .create (.temporary write.uuid) ::
    Disk.publishing (disk.calls (mkdirCalls key)).created (.temporary write.uuid)
      (.partition key write.uuid) write.chunks (DatasetPath.inside key)

/-- The number of the calls up to the rename. -/
def TableWrite.renames : Nat := write.chunks.length + 5

/-- The number of the calls up to the sync of the partition. -/
def TableWrite.all : Nat := write.chunks.length + 6

/-- The end of the call, as the caller and the partition see it. -/
def TableWrite.outcome : WriteOutcome :=
  if write.succeeded < write.renames then .raisedBefore
  else if write.succeeded < write.all then .raisedAfter
  else .renamed

/-- The disk behind a call of `_write_table`; behind the `mkdir` a handler unlinks the temporary file. -/
def writeTable (disk : DatasetDisk) : DatasetDisk :=
  let after := disk.calls ((writeTableCalls key write disk).take write.succeeded)
  if write.outcome ≠ .renamed && write.handled && 2 ≤ write.succeeded then
    after.call (.unlink (.temporary write.uuid))
  else after

end Write

/-- The tables that the loop of a flush writes, up to the first one that raises. -/
def flushAttempts (externals : Externals) (writes : BucketKey → TableWrite) :
    List (BucketKey × Bucket) → List (SealedFile × TableWrite)
  | [] => []
  | (key, bucket) :: rest =>
      match arrowPlanFor externals.hashName key.1 with
      | .error _ => []
      | .ok plan =>
          if bucket.fromPydict externals plan then
            if (writes key).outcome = .renamed then
              (⟨key, bucket⟩, writes key) :: flushAttempts externals writes rest
            else [(⟨key, bucket⟩, writes key)]
          else []

/-- The files whose call of `_write_table` returned. -/
def returnedFiles (attempts : List (SealedFile × TableWrite)) : List SealedFile :=
  (attempts.filter fun attempt => attempt.2.outcome = .renamed).map Prod.fst

/-- The disk behind tables that are written one after the other, each under a fresh name. -/
def Wrote : List (SealedFile × TableWrite) → DatasetDisk → DatasetDisk → Prop
  | [], before, after => after = before
  | (file, write) :: rest, before, after =>
      (∀ number, ¬ before.MayName (.partition file.key write.uuid) number) ∧
        Wrote rest (writeTable file.key write before) after

/-- The consumer system with the disk of its dataset; its files are those whose write returned. -/
structure DatasetWorld where
  world : World
  disk : DatasetDisk
  /-- What the power losses took with their directories. -/
  lost : Set DatasetPath

/-- What a power loss takes with its directory. -/
def takenAlong (before after : DatasetDisk) : Set DatasetPath :=
  {path | before.entry path ≠ none ∧
    ∃ directory, path.parent = some directory ∧ after.entry directory = none}

/-- The steps of the consumer system on a disk; a power loss takes the shared memory and entries of
directories too. -/
inductive DatasetStep (deployment : Deployment) (encode : SealedFile → List UInt8)
    (state : DatasetWorld) : DatasetWorld → Prop where
  | world {after : World} (step : WorldStep deployment state.world after)
      (attempts : List (SealedFile × TableWrite))
      (owned : ∀ attempt ∈ attempts, ∃ run, state.world.run = some run ∧
        (attempt.1.key, attempt.1.bucket) ∈ run.consumer.offline.buffers)
      (encoded : ∀ attempt ∈ attempts, attempt.2.chunks.flatten = encode attempt.1)
      (files : after.files = state.world.files ++ returnedFiles attempts) {disk : DatasetDisk}
      (wrote : Wrote attempts state.disk disk) :
      DatasetStep deployment encode state ⟨after, disk, state.lost⟩
  | cleanup (uuid : Nat) :
      DatasetStep deployment encode state
        ⟨state.world, state.disk.call (.unlink (.temporary uuid)), state.lost⟩
  | powerLoss {disk : DatasetDisk} (lost : Disk.PowerLoss DatasetPath.parent state.disk disk)
      (shared : SharedMemory) :
      DatasetStep deployment encode state
        ⟨{ state.world with run := none, shared }, disk, state.lost ∪ takenAlong state.disk disk⟩

end Quorin
