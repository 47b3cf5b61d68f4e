import Mathlib.Data.List.Basic
import Mathlib.Data.Set.Finite.Basic
import Mathlib.Logic.Function.Basic

/-- Directory entries and file contents, with what a power loss may bring back. -/
structure Disk (Path Byte : Type) where
  entry : Path → Option Nat
  /-- The older entries that a power loss may bring back. -/
  left : Path → List (Option Nat)
  bytes : Nat → List Byte
  /-- The content of the file is on the disk. -/
  synced : Nat → Bool
  /-- The number of files that were ever created. -/
  created : Nat

/-- The calls that change a disk. -/
inductive DiskCall (Path Byte : Type) where
  | makeDirectory (path : Path)
  | create (path : Path)
  | write (file : Nat) (chunk : List Byte)
  | syncFile (file : Nat)
  | rename (source target : Path)
  | unlink (path : Path)
  | syncDirectory (inside : Path → Bool)

namespace Disk

variable {Path Byte : Type} [DecidableEq Path]

def empty : Disk Path Byte := ⟨fun _ => none, fun _ => [], fun _ => [], fun _ => true, 0⟩

/-- A path gets another entry; a power loss may bring the older one back. -/
def point (disk : Disk Path Byte) (path : Path) (file : Option Nat) : Disk Path Byte :=
  { disk with
    entry := Function.update disk.entry path file
    left := Function.update disk.left path (disk.entry path :: disk.left path) }

/-- A path names a new empty file, or a new directory. -/
def create (disk : Disk Path Byte) (path : Path) : Disk Path Byte :=
  { disk with
    bytes := Function.update disk.bytes disk.created []
    synced := Function.update disk.synced disk.created false
    created := disk.created + 1 }.point path (some disk.created)

/-- The disk behind a call; a directory that exists is left alone. -/
def call (disk : Disk Path Byte) : DiskCall Path Byte → Disk Path Byte
  | .makeDirectory path => if (disk.entry path).isSome then disk else disk.create path
  | .create path => disk.create path
  | .write file chunk =>
      { disk with
        bytes := Function.update disk.bytes file (disk.bytes file ++ chunk)
        synced := Function.update disk.synced file false }
  | .syncFile file => { disk with synced := Function.update disk.synced file true }
  | .rename source target => (disk.point target (disk.entry source)).point source none
  | .unlink path => disk.point path none
  | .syncDirectory inside =>
      { disk with left := fun path => if inside path then [] else disk.left path }

/-- The disk behind calls, one after the other. -/
def calls (disk : Disk Path Byte) (done : List (DiskCall Path Byte)) : Disk Path Byte :=
  done.foldl call disk

/-- A power loss brings back any of the older entries, takes what was in a lost directory, and spoils
the contents that were not synced. -/
structure PowerLoss (parent : Path → Option Path) (before after : Disk Path Byte) : Prop where
  entry : ∀ path, after.entry path = before.entry path ∨ after.entry path ∈ before.left path ∨
    ∃ directory, parent path = some directory ∧ after.entry directory = none
  inside : ∀ path directory, parent path = some directory → after.entry directory = none →
    after.entry path = none
  left : ∀ path, after.left path = []
  bytes : ∀ file, before.synced file = true → after.bytes file = before.bytes file
  synced : ∀ file, after.synced file = true
  created : after.created = before.created

/-- The disk with everything on it for good. -/
def settled (disk : Disk Path Byte) : Disk Path Byte :=
  { disk with left := fun _ => [], synced := fun _ => true }

/-- What a path names lies in a directory that exists. -/
def Rooted (parent : Path → Option Path) (disk : Disk Path Byte) : Prop :=
  ∀ path directory, parent path = some directory → disk.entry directory = none →
    disk.entry path = none

omit [DecidableEq Path] in
/-- A power loss may bring nothing back and spoil nothing. -/
theorem settled_powerLoss {parent : Path → Option Path} {disk : Disk Path Byte}
    (rooted : disk.Rooted parent) : PowerLoss parent disk disk.settled :=
  ⟨fun _ => .inl rfl, rooted, fun _ => rfl, fun _ _ => rfl, fun _ => rfl, rfl⟩

/-- The path names the file, or a power loss may make it do so. -/
def MayName (disk : Disk Path Byte) (path : Path) (file : Nat) : Prop :=
  disk.entry path = some file ∨ some file ∈ disk.left path

/-- Every file that a published path may name is synced and good. -/
structure Whole (published : Path → Prop) (good : Path → List Byte → Prop) (disk : Disk Path Byte) :
    Prop where
  whole : ∀ path, published path → ∀ file, disk.MayName path file →
    disk.synced file = true ∧ good path (disk.bytes file)
  old : ∀ path file, disk.MayName path file → file < disk.created

/-- The path names a synced file with the given content, and a power loss does not change that. -/
def Stores (disk : Disk Path Byte) (path : Path) (content : List Byte) : Prop :=
  ∃ file, disk.entry path = some file ∧ disk.left path = [] ∧ disk.synced file = true ∧
    disk.bytes file = content

section Rules

variable {published : Path → Prop} {good : Path → List Byte → Prop} {disk after : Disk Path Byte}

theorem point_mayName {path other : Path} {file : Option Nat} {number : Nat}
    (named : (disk.point path file).MayName other number) :
    disk.MayName other number ∨ other = path ∧ file = some number := by
  by_cases same : other = path
  · subst same
    rcases named with now | before
    · exact .inr ⟨rfl, by simpa [point] using now⟩
    · simp only [point, Function.update_self, List.mem_cons] at before
      exact .inl (before.imp Eq.symm id)
  · left
    simpa [MayName, point, Function.update_of_ne same] using named

theorem syncDirectory_mayName {inside : Path → Bool} {path : Path} {file : Nat}
    (named : (disk.call (.syncDirectory inside)).MayName path file) : disk.MayName path file := by
  rcases named with now | earlier
  · exact .inl now
  · right
    simp only [call] at earlier
    split at earlier
    · cases earlier
    · exact earlier

omit [DecidableEq Path] in
/-- Behind a power loss a path names a file that it named before or might have named. -/
theorem PowerLoss.mayName {parent : Path → Option Path} (lost : PowerLoss parent disk after)
    {path : Path} {file : Nat} (named : after.MayName path file) : disk.MayName path file := by
  rcases named with now | earlier
  · rcases lost.entry path with same | back | ⟨directory, above, gone⟩
    · exact .inl (same.symm.trans now)
    · exact .inr (now ▸ back)
    · rw [lost.inside path directory above gone] at now
      cases now
  · rw [lost.left] at earlier
    cases earlier

omit [DecidableEq Path] in
theorem empty_whole : Whole published good (empty : Disk Path Byte) where
  whole := by
    rintro path _ file (named | named)
    · cases named
    · cases named
  old := by
    rintro path file (named | named)
    · cases named
    · cases named

/-- A new file under a path that is not published leaves the published ones whole. -/
theorem Whole.create (held : Whole published good disk) {path : Path} (unshown : ¬ published path) :
    Whole published good (disk.create path) := by
  constructor
  · intro other shown file named
    rcases point_mayName named with before | ⟨rfl, _⟩
    · have older : file ≠ disk.created := Nat.ne_of_lt (held.old other file before)
      obtain ⟨synced, fine⟩ := held.whole other shown file before
      simpa [Disk.create, point, Function.update_of_ne older] using ⟨synced, fine⟩
    · exact absurd shown unshown
  · intro other file named
    rcases point_mayName named with before | ⟨_, same⟩
    · exact Nat.lt_succ_of_lt (held.old other file before)
    · obtain rfl := Option.some.inj same
      exact Nat.lt_succ_self disk.created

/-- A directory that is not published itself leaves the published files whole. -/
theorem Whole.makeDirectory (held : Whole published good disk) {path : Path}
    (unshown : ¬ published path) : Whole published good (disk.call (.makeDirectory path)) := by
  simp only [call]
  split
  · exact held
  · exact held.create unshown

/-- A write to a file that no published path may name leaves the published ones whole. -/
theorem Whole.write (held : Whole published good disk) {file : Nat}
    (hidden : ∀ path, published path → ¬ disk.MayName path file) (chunk : List Byte) :
    Whole published good (disk.call (.write file chunk)) := by
  constructor
  · intro path shown other named
    have different : other ≠ file := by
      rintro rfl
      exact hidden path shown named
    obtain ⟨synced, fine⟩ := held.whole path shown other named
    simpa [call, Function.update_of_ne different] using ⟨synced, fine⟩
  · exact held.old

theorem Whole.syncFile (held : Whole published good disk) (file : Nat) :
    Whole published good (disk.call (.syncFile file)) := by
  constructor
  · intro path shown other named
    obtain ⟨synced, fine⟩ := held.whole path shown other named
    refine ⟨?_, fine⟩
    by_cases same : other = file
    · subst same
      exact Function.update_self _ _ _
    · exact (Function.update_of_ne same _ _).trans synced
  · exact held.old

/-- A rename publishes a file only when it is synced and good. -/
theorem Whole.rename (held : Whole published good disk) {source target : Path}
    (fine : published target → ∀ file, disk.entry source = some file →
      disk.synced file = true ∧ good target (disk.bytes file)) :
    Whole published good (disk.call (.rename source target)) := by
  have before : ∀ path file, (disk.call (.rename source target)).MayName path file →
      disk.MayName path file ∨ path = target ∧ disk.entry source = some file := by
    intro path file named
    rcases point_mayName named with once | ⟨_, impossible⟩
    · exact point_mayName once
    · cases impossible
  constructor
  · intro path shown file named
    rcases before path file named with earlier | ⟨rfl, moved⟩
    · exact held.whole path shown file earlier
    · exact fine shown file moved
  · intro path file named
    rcases before path file named with earlier | ⟨_, moved⟩
    · exact held.old path file earlier
    · exact held.old source file (.inl moved)

theorem Whole.unlink (held : Whole published good disk) (path : Path) :
    Whole published good (disk.call (.unlink path)) := by
  have before : ∀ other file, (disk.call (.unlink path)).MayName other file →
      disk.MayName other file := by
    intro other file named
    rcases point_mayName named with earlier | ⟨_, impossible⟩
    · exact earlier
    · cases impossible
  constructor
  · exact fun other shown file named => held.whole other shown file (before other file named)
  · exact fun other file named => held.old other file (before other file named)

theorem Whole.syncDirectory (held : Whole published good disk) (inside : Path → Bool) :
    Whole published good (disk.call (.syncDirectory inside)) := by
  constructor
  · exact fun path shown file named => held.whole path shown file (syncDirectory_mayName named)
  · exact fun path file named => held.old path file (syncDirectory_mayName named)

omit [DecidableEq Path] in
/-- Behind a power loss the published files are still whole. -/
theorem Whole.powerLoss {parent : Path → Option Path} (held : Whole published good disk)
    (lost : PowerLoss parent disk after) : Whole published good after := by
  constructor
  · intro path shown file named
    obtain ⟨synced, fine⟩ := held.whole path shown file (lost.mayName named)
    exact ⟨lost.synced file, (lost.bytes file synced).symm ▸ fine⟩
  · intro path file named
    rw [lost.created]
    exact held.old path file (lost.mayName named)

omit [DecidableEq Path] in
/-- A power loss that keeps the directory of a stored file leaves it where it is. -/
theorem Stores.powerLoss {parent : Path → Option Path} {path : Path} {content : List Byte}
    (stores : disk.Stores path content) (lost : PowerLoss parent disk after)
    (kept : ∀ directory, parent path = some directory → after.entry directory ≠ none) :
    after.Stores path content := by
  obtain ⟨file, named, alone, synced, same⟩ := stores
  refine ⟨file, ?_, lost.left path, lost.synced file, (lost.bytes file synced).trans same⟩
  rcases lost.entry path with here | back | ⟨directory, above, gone⟩
  · exact here.trans named
  · rw [alone] at back
    cases back
  · exact absurd gone (kept directory above)

end Rules

section Publishing

variable {published : Path → Prop} {good : Path → List Byte → Prop} {disk : Disk Path Byte}
  {source target path : Path} {file : Nat} {content : List Byte}

/-- The source names a file of the given content that no published path may name. -/
structure Draft (published : Path → Prop) (source : Path) (file : Nat) (content : List Byte)
    (disk : Disk Path Byte) : Prop where
  named : disk.entry source = some file
  bytes : disk.bytes file = content
  hidden : ∀ path, published path → ¬ disk.MayName path file

theorem Draft.create (held : Whole published good disk) (unshown : ¬ published source) :
    Draft published source disk.created [] (disk.create source) where
  named := Function.update_self _ _ _
  bytes := Function.update_self _ _ _
  hidden := by
    intro path shown named
    rcases point_mayName named with before | ⟨rfl, _⟩
    · exact absurd (held.old path disk.created before) (Nat.lt_irrefl _)
    · exact unshown shown

theorem Draft.write (draft : Draft published source file content disk) (chunk : List Byte) :
    Draft published source file (content ++ chunk) (disk.call (.write file chunk)) where
  named := draft.named
  bytes := (Function.update_self _ _ _).trans (congrArg (· ++ chunk) draft.bytes)
  hidden := draft.hidden

/-- The calls that write a draft, sync it, rename it and sync the directory of its new name. -/
def publishing (file : Nat) (source target : Path) (chunks : List (List Byte))
    (inside : Path → Bool) : List (DiskCall Path Byte) :=
  chunks.map (.write file) ++ [.syncFile file, .rename source target, .syncDirectory inside]

/-- Wherever the calls behind a draft end, the published files are whole. -/
theorem Draft.publishing_whole (draft : Draft published source file content disk)
    (held : Whole published good disk) {chunks : List (List Byte)}
    (fine : good target (content ++ chunks.flatten)) (inside : Path → Bool) (count : Nat) :
    Whole published good (disk.calls ((publishing file source target chunks inside).take count)) := by
  induction chunks generalizing disk content count with
  | nil =>
      rw [List.flatten_nil, List.append_nil] at fine
      have synced := held.syncFile file
      have renamed : Whole published good
          ((disk.call (.syncFile file)).call (.rename source target)) := by
        refine synced.rename ?_
        intro _ other named
        obtain rfl : file = other := Option.some.inj (draft.named.symm.trans named)
        refine ⟨Function.update_self _ _ _, ?_⟩
        rw [show (disk.call (.syncFile file)).bytes file = content from draft.bytes]
        exact fine
      rcases count with _ | _ | _ | count
      · exact held
      · exact synced
      · exact renamed
      · simpa [publishing, calls] using renamed.syncDirectory inside
  | cons chunk rest ih =>
      cases count with
      | zero => exact held
      | succ count =>
          refine ih (draft.write chunk) (held.write draft.hidden chunk) ?_ count
          rwa [List.flatten_cons, ← List.append_assoc] at fine

/-- Behind all of the calls the target stores the content. -/
theorem Draft.publishing_stores (draft : Draft published source file content disk)
    (apart : source ≠ target) (chunks : List (List Byte)) {inside : Path → Bool}
    (covered : inside target = true) :
    (disk.calls (publishing file source target chunks inside)).Stores target
      (content ++ chunks.flatten) := by
  induction chunks generalizing disk content with
  | nil =>
      refine ⟨file, ?_, ?_, ?_, ?_⟩
      · simp [publishing, calls, call, point, Function.update_of_ne apart.symm, draft.named]
      · simp [publishing, calls, call, covered]
      · simp [publishing, calls, call, point]
      · simpa [publishing, calls, call, point] using draft.bytes
  | cons chunk rest ih =>
      have later := ih (draft.write chunk)
      rwa [List.append_assoc, ← List.flatten_cons] at later

end Publishing

section Frame

variable {published : Path → Prop} {good : Path → List Byte → Prop} {disk : Disk Path Byte}
  {path : Path} {content : List Byte}

/-- The call changes the entries of the given paths only, and writes to the given file only. -/
def Confined (paths : Path → Prop) (file : Nat) : DiskCall Path Byte → Prop
  | .makeDirectory path => paths path
  | .create path => paths path
  | .write other _ => other = file
  | .syncFile _ => True
  | .rename source target => paths source ∧ paths target
  | .unlink path => paths path
  | .syncDirectory _ => True

/-- Confined calls bring no file to another path. -/
theorem calls_mayName {paths : Path → Prop} {file : Nat} (outside : ¬ paths path)
    {done : List (DiskCall Path Byte)} (confined : ∀ call ∈ done, Confined paths file call)
    {number : Nat} (named : (disk.calls done).MayName path number) : disk.MayName path number := by
  have different : ∀ other, paths other → path ≠ other := by
    rintro other inside rfl
    exact outside inside
  induction done generalizing disk with
  | nil => exact named
  | cons call rest ih =>
      have before := ih (fun other member => confined other (List.mem_cons_of_mem _ member)) named
      have own := confined call List.mem_cons_self
      have pointed : ∀ held : Disk Path Byte, ∀ other entry, paths other →
          (held.point other entry).MayName path number → held.MayName path number :=
        fun held other entry inside later =>
          (point_mayName later).resolve_right fun same => different other inside same.1
      cases call with
      | makeDirectory other =>
          simp only [Disk.call] at before
          split at before
          · exact before
          · exact pointed _ other _ own before
      | create other => exact pointed _ other _ own before
      | write other chunk => exact before
      | syncFile other => exact before
      | rename source target => exact pointed _ target _ own.2 (pointed _ source _ own.1 before)
      | unlink other => exact pointed _ other _ own before
      | syncDirectory inside => exact syncDirectory_mayName before

/-- The path stores the content in a file other than the given one. -/
def StoresApart (disk : Disk Path Byte) (path : Path) (content : List Byte) (file : Nat) : Prop :=
  ∃ own, disk.entry path = some own ∧ disk.left path = [] ∧ disk.synced own = true ∧
    disk.bytes own = content ∧ own ≠ file ∧ own < disk.created

theorem StoresApart.point {file : Nat} (stores : disk.StoresApart path content file) {other : Path}
    (different : path ≠ other) (entry : Option Nat) :
    (disk.point other entry).StoresApart path content file := by
  obtain ⟨own, named, alone, synced, same, apart, old⟩ := stores
  exact ⟨own, (Function.update_of_ne different _ _).trans named,
    (Function.update_of_ne different _ _).trans alone, synced, same, apart, old⟩

/-- A new file leaves the other stored files where they are. -/
theorem StoresApart.create {file : Nat} (stores : disk.StoresApart path content file) {other : Path}
    (different : path ≠ other) : (disk.create other).StoresApart path content file := by
  obtain ⟨own, named, alone, synced, same, apart, old⟩ := stores
  have fresh : StoresApart { disk with
      bytes := Function.update disk.bytes disk.created []
      synced := Function.update disk.synced disk.created false
      created := disk.created + 1 } path content file :=
    ⟨own, named, alone, (Function.update_of_ne (Nat.ne_of_lt old) _ _).trans synced,
      (Function.update_of_ne (Nat.ne_of_lt old) _ _).trans same, apart, Nat.lt_succ_of_lt old⟩
  exact fresh.point different _

/-- No call forgets a file that was created. -/
theorem calls_created (done : List (DiskCall Path Byte)) :
    disk.created ≤ (disk.calls done).created := by
  induction done generalizing disk with
  | nil => exact le_rfl
  | cons call rest ih =>
      refine le_trans ?_ ih
      cases call with
      | makeDirectory path =>
          simp only [Disk.call]
          split
          · exact le_rfl
          · exact Nat.le_succ _
      | create path => exact Nat.le_succ _
      | _ => exact le_rfl

/-- A confined call leaves the other stored files where they are. -/
theorem StoresApart.call {paths : Path → Prop} {file : Nat}
    (stores : disk.StoresApart path content file) (outside : ¬ paths path)
    {call : DiskCall Path Byte} (confined : Confined paths file call) :
    (disk.call call).StoresApart path content file := by
  have different : ∀ other, paths other → path ≠ other := by
    rintro other inside rfl
    exact outside inside
  cases call with
  | makeDirectory other =>
      simp only [Disk.call]
      split
      · exact stores
      · exact stores.create (different other confined)
  | create other => exact stores.create (different other confined)
  | write other chunk =>
      obtain rfl : other = file := confined
      obtain ⟨own, named, alone, synced, same, apart, old⟩ := stores
      exact ⟨own, named, alone, (Function.update_of_ne apart _ _).trans synced,
        (Function.update_of_ne apart _ _).trans same, apart, old⟩
  | syncFile other =>
      obtain ⟨own, named, alone, synced, same, apart, old⟩ := stores
      refine ⟨own, named, alone, ?_, same, apart, old⟩
      by_cases own_other : own = other
      · subst own_other
        exact Function.update_self _ _ _
      · exact (Function.update_of_ne own_other _ _).trans synced
  | rename source target =>
      exact (stores.point (different target confined.2) _).point (different source confined.1) _
  | unlink other => exact stores.point (different other confined) _
  | syncDirectory inside =>
      obtain ⟨own, named, alone, synced, same, apart, old⟩ := stores
      refine ⟨own, named, ?_, synced, same, apart, old⟩
      simp only [Disk.call, alone, ite_self]

theorem StoresApart.calls {paths : Path → Prop} {file : Nat} (outside : ¬ paths path)
    {done : List (DiskCall Path Byte)} (confined : ∀ call ∈ done, Confined paths file call)
    (stores : disk.StoresApart path content file) :
    (disk.calls done).StoresApart path content file := by
  induction done generalizing disk with
  | nil => exact stores
  | cons call rest ih =>
      exact ih (fun other member => confined other (List.mem_cons_of_mem _ member))
        (stores.call outside (confined call List.mem_cons_self))

theorem StoresApart.unlinked {file : Nat} (stores : disk.StoresApart path content file) {other : Path}
    (different : path ≠ other) : (disk.call (.unlink other)).StoresApart path content file :=
  stores.point different none

omit [DecidableEq Path] in
theorem StoresApart.stores {file : Nat} (stores : disk.StoresApart path content file) :
    disk.Stores path content := by
  obtain ⟨own, named, alone, synced, same, _⟩ := stores
  exact ⟨own, named, alone, synced, same⟩

omit [DecidableEq Path] in
/-- A stored file is older than the next ones that are created. -/
theorem Stores.apart (stores : disk.Stores path content) (held : Whole published good disk) {file : Nat}
    (later : disk.created ≤ file) : disk.StoresApart path content file := by
  obtain ⟨own, named, alone, synced, same⟩ := stores
  have old := held.old path own (.inl named)
  exact ⟨own, named, alone, synced, same, Nat.ne_of_lt (Nat.lt_of_lt_of_le old later), old⟩

omit [DecidableEq Path] in
/-- The calls that publish a file are confined to its two names. -/
theorem publishing_confined {source target : Path} {paths : Path → Prop} (first : paths source)
    (second : paths target) (file : Nat) (chunks : List (List Byte)) (inside : Path → Bool) :
    ∀ call ∈ publishing file source target chunks inside, Confined paths file call := by
  intro call member
  rcases List.mem_append.mp member with wrote | rest
  · obtain ⟨chunk, _, rfl⟩ := List.mem_map.mp wrote
    rfl
  · simp only [List.mem_cons, List.not_mem_nil, or_false] at rest
    rcases rest with rfl | rfl | rfl
    · exact trivial
    · exact ⟨first, second⟩
    · exact trivial

end Frame

section Bounds

variable {disk after : Disk Path Byte}

/-- Finitely many paths may name a file. -/
def Bounded (disk : Disk Path Byte) : Prop := {path | ∃ file, disk.MayName path file}.Finite

omit [DecidableEq Path] in
theorem empty_bounded : (empty : Disk Path Byte).Bounded := by
  refine Set.finite_empty.subset ?_
  rintro path ⟨file, named | named⟩
  · cases named
  · cases named

omit [DecidableEq Path] in
/-- A disk whose paths name no new files is bounded. -/
theorem Bounded.shrink (held : disk.Bounded)
    (named : ∀ path file, after.MayName path file → disk.MayName path file) : after.Bounded :=
  held.subset fun path inside => inside.imp (named path)

theorem Bounded.point (held : disk.Bounded) (path : Path) (file : Option Nat) :
    (disk.point path file).Bounded := by
  refine (held.union (Set.finite_singleton path)).subset ?_
  rintro other ⟨number, named⟩
  rcases point_mayName named with before | ⟨rfl, _⟩
  · exact .inl ⟨number, before⟩
  · exact .inr rfl

theorem Bounded.create (held : disk.Bounded) (path : Path) : (disk.create path).Bounded :=
  @Bounded.point _ _ _ { disk with created := _, bytes := _, synced := _ } held _ _

theorem Bounded.call (held : disk.Bounded) (call : DiskCall Path Byte) :
    (disk.call call).Bounded := by
  cases call with
  | makeDirectory path =>
      simp only [Disk.call]
      split
      · exact held
      · exact held.create path
  | create path => exact held.create path
  | write file chunk => exact held
  | syncFile file => exact held
  | rename source target => exact (held.point target _).point source none
  | unlink path => exact held.point path none
  | syncDirectory inside => exact held.shrink fun _ _ => syncDirectory_mayName

theorem Bounded.calls (held : disk.Bounded) (done : List (DiskCall Path Byte)) :
    (disk.calls done).Bounded := by
  induction done generalizing disk with
  | nil => exact held
  | cons call rest ih => exact ih (held.call call)

omit [DecidableEq Path] in
theorem Bounded.powerLoss {parent : Path → Option Path} (held : disk.Bounded)
    (lost : PowerLoss parent disk after) : after.Bounded :=
  held.shrink fun _ _ => lost.mayName

end Bounds

section Roots

variable {parent : Path → Option Path} {disk : Disk Path Byte} {path : Path}

/-- No path lies in the path. -/
def Leaf (parent : Path → Option Path) (path : Path) : Prop := ∀ other, parent other ≠ some path

/-- The call adds paths in the given directories only, and moves and takes away leaves only. -/
def Placed (parent : Path → Option Path) (present : Path → Prop) : DiskCall Path Byte → Prop
  | .makeDirectory path => ∀ directory, parent path = some directory → present directory
  | .create path => ∀ directory, parent path = some directory → present directory
  | .rename source target =>
      (∀ directory, parent target = some directory → present directory) ∧ Leaf parent source ∧
        Leaf parent target
  | .unlink path => Leaf parent path
  | _ => True

omit [DecidableEq Path] in
theorem empty_rooted : (empty : Disk Path Byte).Rooted parent := fun _ _ _ _ => rfl

theorem Rooted.point (rooted : disk.Rooted parent) {file : Option Nat}
    (above : ∀ directory, parent path = some directory → disk.entry directory ≠ none)
    (leaf : file = none → Leaf parent path) : (disk.point path file).Rooted parent := by
  intro other directory inside gone
  have different : directory ≠ path := by
    rintro rfl
    refine leaf ?_ other inside
    rw [← gone]
    exact (Function.update_self directory file disk.entry).symm
  have before : disk.entry directory = none := (Function.update_of_ne different _ _).symm.trans gone
  have apart : other ≠ path := by
    rintro rfl
    exact above directory inside before
  exact (Function.update_of_ne apart _ _).trans (rooted other directory inside before)

/-- A leaf can be taken away. -/
theorem Rooted.unlink (rooted : disk.Rooted parent) (leaf : Leaf parent path) :
    (disk.call (.unlink path)).Rooted parent := by
  intro other directory inside gone
  have different : directory ≠ path := by
    rintro rfl
    exact leaf other inside
  have before := rooted other directory inside ((Function.update_of_ne different _ _).symm.trans gone)
  by_cases same : other = path
  · subst same
    exact Function.update_self _ _ _
  · exact (Function.update_of_ne same _ _).trans before

theorem Rooted.create (rooted : disk.Rooted parent)
    (above : ∀ directory, parent path = some directory → disk.entry directory ≠ none) :
    (disk.create path).Rooted parent :=
  @Rooted.point _ _ _ _ { disk with created := _, bytes := _, synced := _ } _ rooted _ above
    fun impossible => by cases impossible

theorem makeDirectory_present : (disk.call (.makeDirectory path)).entry path ≠ none := by
  simp only [Disk.call]
  split
  · rename_i here
    exact Option.isSome_iff_ne_none.mp here
  · simp [Disk.create, Disk.point]

/-- A directory is still there behind a call that takes away leaves only. -/
theorem call_present {present : Path → Prop} {call : DiskCall Path Byte}
    (placed : Placed parent present call) {directory child : Path}
    (inside : parent child = some directory) (here : disk.entry directory ≠ none) :
    (disk.call call).entry directory ≠ none := by
  have pointed : ∀ held : Disk Path Byte, held.entry directory ≠ none → ∀ other number,
      (held.point other (some number)).entry directory ≠ none := by
    intro held there other number
    by_cases same : directory = other
    · subst same
      simp [point]
    · simpa [point, Function.update_of_ne same] using there
  cases call with
  | makeDirectory other =>
      simp only [Disk.call]
      split
      · exact here
      · exact pointed _ here _ _
  | create other => exact pointed _ here _ _
  | rename source target =>
      have first : directory ≠ source := by
        rintro rfl
        exact placed.2.1 child inside
      have second : directory ≠ target := by
        rintro rfl
        exact placed.2.2 child inside
      simpa [Disk.call, point, Function.update_of_ne first, Function.update_of_ne second] using here
  | unlink other =>
      have different : directory ≠ other := by
        rintro rfl
        exact placed child inside
      simpa [Disk.call, point, Function.update_of_ne different] using here
  | _ => exact here

/-- A call that adds paths in existing directories only keeps the paths rooted. -/
theorem Rooted.call (rooted : disk.Rooted parent) {call : DiskCall Path Byte}
    (placed : Placed parent (fun directory => disk.entry directory ≠ none) call) :
    (disk.call call).Rooted parent := by
  cases call with
  | makeDirectory other =>
      simp only [Disk.call]
      split
      · exact rooted
      · exact rooted.create placed
  | create other => exact rooted.create placed
  | rename source target =>
      exact (rooted.point placed.1 fun _ => placed.2.2).unlink placed.2.1
  | unlink other => exact rooted.unlink placed
  | _ => exact rooted

theorem Rooted.calls {present : Path → Prop} {done : List (DiskCall Path Byte)}
    (rooted : disk.Rooted parent) (placed : ∀ call ∈ done, Placed parent present call)
    (child : ∀ directory, present directory → ∃ path, parent path = some directory)
    (here : ∀ directory, present directory → disk.entry directory ≠ none) :
    (disk.calls done).Rooted parent := by
  induction done generalizing disk with
  | nil => exact rooted
  | cons call rest ih =>
      have own := placed call List.mem_cons_self
      refine ih (rooted.call ?_) (fun other member => placed other (List.mem_cons_of_mem _ member)) ?_
      · cases call with
        | makeDirectory other => exact fun directory above => here directory (own directory above)
        | create other => exact fun directory above => here directory (own directory above)
        | rename source target =>
            exact ⟨fun directory above => here directory (own.1 directory above), own.2⟩
        | unlink other => exact own
        | _ => exact trivial
      · intro directory needed
        obtain ⟨path, inside⟩ := child directory needed
        exact call_present own inside (here directory needed)

omit [DecidableEq Path] in
/-- The calls that publish a file add its target only. -/
theorem publishing_placed {present : Path → Prop} {source target : Path}
    (above : ∀ directory, parent target = some directory → present directory)
    (first : Leaf parent source) (second : Leaf parent target) (file : Nat)
    (chunks : List (List Byte)) (inside : Path → Bool) :
    ∀ call ∈ publishing file source target chunks inside, Placed parent present call := by
  intro call member
  rcases List.mem_append.mp member with wrote | rest
  · obtain ⟨chunk, _, rfl⟩ := List.mem_map.mp wrote
    exact trivial
  · simp only [List.mem_cons, List.not_mem_nil, or_false] at rest
    rcases rest with rfl | rfl | rfl
    · exact trivial
    · exact ⟨above, first, second⟩
    · exact trivial

omit [DecidableEq Path] in
/-- A power loss takes away whole directories. -/
theorem PowerLoss.rooted {after : Disk Path Byte} (lost : PowerLoss parent disk after) :
    after.Rooted parent := lost.inside

end Roots

end Disk
