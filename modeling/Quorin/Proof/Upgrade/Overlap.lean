import Quorin.Construction.OverlappingUpgrades
import Quorin.Proof.Upgrade.PointerSafety
import Mathlib.Data.Finset.Card

namespace Quorin

open ByteMemory FaultyCalls

/-- Every pointer names a linked segment with a positive count. -/
def Host.Served (host : Host) : Prop :=
  ∀ schema name, host.keys.current schema = some name →
    name ∈ host.linked ∧ ∃ count : Int, host.keys.refcount name = some count ∧ 1 ≤ count

/-- A segment loses its name, its count or its schema, or it is queued for its removal. -/
def Removes (before after : Host) (name : String) : Prop :=
  (name ∈ before.linked ∧ name ∉ after.linked) ∨
  (before.keys.refcount name ≠ none ∧ after.keys.refcount name = none) ∨
  (before.keys.segmentToSchema name ≠ none ∧ after.keys.segmentToSchema name = none) ∨
  (name ∉ before.keys.cleanupQueue ∧ name ∈ after.keys.cleanupQueue)

section Turns

variable {ι : Type} (externals : Externals) (calls : ι → UpgradeCall)

/-- A run counted itself in on a segment when it opened it. -/
def OpenedBy (index : ι) (name : String) (past : List (Turn ι Host)) : Prop :=
  ∃ turn ∈ past, turn.actor = some index ∧
    turn.after.keys = turn.before.keys.openPipeline (calls index).pid name

/-- A run linked a segment that was not linked before. -/
def CreatedBy (index : ι) (name : String) (past : List (Turn ι Host)) : Prop :=
  ∃ turn ∈ past, turn.actor = some index ∧ name ∉ turn.before.linked ∧ name ∈ turn.after.linked

/-- A pointer goes from the segment that a run opened to its own one with every row translated. -/
def Replaces (past : List (Turn ι Host)) (turn : Turn ι Host) (schema : String) : Prop :=
  ∃ index replaced segment,
    turn.actor = some index ∧ schema = (calls index).old.safeName ∧
    turn.before.keys.current schema = some replaced ∧
    turn.after.keys.current schema = some (calls index).newName ∧
    OpenedBy calls index replaced past ∧
    turn.before.objects (calls index).newName = some segment ∧
    Populated externals (calls index) turn.before segment

/-- What a turn may do to locks, pointers and segments after the turns before it. -/
structure SerialTurn (past : List (Turn ι Host)) (turn : Turn ι Host) : Prop where
  lock : ∀ index, turn.actor = some index → ∀ name token, turn.before.lock name = some token →
    turn.after.lock name ≠ some token → token = (calls index).token
  flip : ∀ schema, turn.after.keys.current schema ≠ turn.before.keys.current schema →
    Replaces externals calls past turn schema
  removal : ∀ index, turn.actor = some index → ∀ name, Removes turn.before turn.after name →
    name = (calls index).newName ∧ CreatedBy index name past ∧
      ∀ other ∈ past, ∀ schema, other.after.keys.current schema ≠ some name

/-- Each turn of a run of overlapping upgrades is a serial one. -/
def SerialTurns (past : List (Turn ι Host)) : Prop :=
  ∀ earlier turn later, past = earlier ++ turn :: later → SerialTurn externals calls earlier turn

/-- A pointer keeps its value, or a run replaces the segment that it opened by its own new one. -/
def PointerStep (past : List (Turn ι Host)) (before after : Option String) : Prop :=
  after = before ∨ ∃ index replaced, OpenedBy calls index replaced past ∧
    before = some replaced ∧ after = some (calls index).newName

/-- The values of the pointer of a schema along the turns of a run. -/
def pointerValues (schema : String) (host : Host) (past : List (Turn ι Host)) :
    List (Option String) :=
  (trail host past).map fun host => host.keys.current schema

/-- A moment of overlapping runs, with what the runs hold. -/
structure Overlap (ι : Type) where
  host : Host
  past : List (Turn ι Host)
  /-- The segments that a pointer has named. -/
  published : Set String
  /-- The runs with a new segment that is neither published nor unlinked. -/
  building : Set ι
  /-- The runs that counted themselves in on a segment and not out again. -/
  holders : String → Finset ι

/-- Published segments stay linked and count one more than their holders among the runs, and the
segment that a run builds is its own. -/
structure Overlap.Orderly (state : Overlap ι) : Prop where
  pointed : ∀ schema name, state.host.keys.current schema = some name → name ∈ state.published
  linked : ∀ name ∈ state.published, name ∈ state.host.linked
  counted : ∀ name ∈ state.published, ∃ count : Int,
    state.host.keys.refcount name = some count ∧ (state.holders name).card + 1 ≤ count
  held : ∀ name, ∀ index ∈ state.holders name, name ∈ state.published
  built : ∀ index ∈ state.building, (calls index).newName ∈ state.host.linked
  unpublished : ∀ index ∈ state.building, (calls index).newName ∉ state.published
  apart : ∀ index ∈ state.building, ∀ other ∈ state.building,
    (calls other).newName = (calls index).newName → other = index
  exposed : ∀ turn ∈ state.past, ∀ schema name, turn.after.keys.current schema = some name →
    name ∈ state.published
  serial : SerialTurns externals calls state.past

/-- What a run relies on while others take their turns. -/
structure Overlap.Rely (index : ι) (before after : Overlap ι) : Prop where
  orderly : after.Orderly externals calls
  published : before.published ⊆ after.published
  past : ∀ turn ∈ before.past, turn ∈ after.past
  building : index ∈ after.building ↔ index ∈ before.building
  holders : ∀ name, index ∈ after.holders name ↔ index ∈ before.holders name
  newObject : index ∈ before.building →
    after.host.objects (calls index).newName = before.host.objects (calls index).newName
  newCount : index ∈ before.building →
    after.host.keys.refcount (calls index).newName = before.host.keys.refcount (calls index).newName
  objects : ∀ name ∈ before.published, after.host.objects name = before.host.objects name

/-- What a turn of a run leaves to the others. -/
structure Overlap.Guarantee (index : ι) (before after : Overlap ι) : Prop where
  past : after.past = before.past ++ [⟨some index, before.host, after.host⟩]
  orderly : after.Orderly externals calls
  others : ∀ other, other ≠ index → Overlap.Rely externals calls other before after

/-- The protocol of a run of `upgrade_schema`. -/
def upgradeProtocol (index : ι) : Protocol (Overlap ι) Host where
  view := Overlap.host
  rely := Overlap.Rely externals calls index
  guarantee := Overlap.Guarantee externals calls index

@[simp] theorem upgradeProtocol_view (index : ι) (state : Overlap ι) :
    (upgradeProtocol externals calls index).view state = state.host := rfl

/-- A name that is neither published nor built by another run. -/
def Overlap.OwnName (index : ι) (state : Overlap ι) (name : String) : Prop :=
  name ∉ state.published ∧ ∀ other ∈ state.building, (calls other).newName = name → other = index

end Turns

section Serial

variable {ι : Type} {externals : Externals} {calls : ι → UpgradeCall}
  {past : List (Turn ι Host)} {turn : Turn ι Host}

theorem SerialTurns.append (serial : SerialTurns externals calls past)
    (last : SerialTurn externals calls past turn) :
    SerialTurns externals calls (past ++ [turn]) := by
  intro earlier other later split
  rcases List.eq_nil_or_concat later with rfl | ⟨front, final, rfl⟩
  · obtain ⟨rfl, single⟩ := List.append_inj' split rfl
    cases single
    exact last
  · rw [List.concat_eq_append, ← List.cons_append, ← List.append_assoc] at split
    obtain ⟨rfl, _⟩ := List.append_inj' split rfl
    exact serial earlier other front rfl

/-- A turn that changes no pointer, removes nothing and treats locks well. -/
theorem SerialTurn.kept
    (lock : ∀ index, turn.actor = some index → ∀ name token, turn.before.lock name = some token →
      turn.after.lock name ≠ some token → token = (calls index).token)
    (current : turn.after.keys.current = turn.before.keys.current)
    (present : ∀ name, ¬ Removes turn.before turn.after name) :
    SerialTurn externals calls past turn :=
  { lock := lock
    flip := fun schema changed => absurd (by rw [current]) changed
    removal := fun _ _ name removes => absurd removes (present name) }

theorem OpenedBy.mono {index : ι} {name : String} {later : List (Turn ι Host)}
    (opened : OpenedBy calls index name past) (longer : ∀ turn ∈ past, turn ∈ later) :
    OpenedBy calls index name later := by
  obtain ⟨turn, member, opens⟩ := opened
  exact ⟨turn, longer turn member, opens⟩

theorem CreatedBy.mono {index : ι} {name : String} {later : List (Turn ι Host)}
    (created : CreatedBy index name past) (longer : ∀ turn ∈ past, turn ∈ later) :
    CreatedBy index name later := by
  obtain ⟨turn, member, creates⟩ := created
  exact ⟨turn, longer turn member, creates⟩

end Serial

namespace Overlap

variable {ι : Type} {externals : Externals} {calls : ι → UpgradeCall} {before after : Overlap ι}
  {index : ι}

/-- A moment behind one more turn. -/
def turned (state : Overlap ι) (actor : Option ι) (host : Host) : Overlap ι :=
  { state with
    host := host
    past := state.past ++ [⟨actor, state.host, host⟩] }

theorem Rely.refl (orderly : before.Orderly externals calls) :
    Rely externals calls index before before :=
  ⟨orderly, subset_rfl, fun _ member => member, Iff.rfl, fun _ => Iff.rfl, fun _ => rfl,
    fun _ => rfl, fun _ _ => rfl⟩

theorem Rely.trans {middle : Overlap ι} (first : Rely externals calls index before middle)
    (second : Rely externals calls index middle after) : Rely externals calls index before after where
  orderly := second.orderly
  published := first.published.trans second.published
  past := fun turn member => second.past turn (first.past turn member)
  building := second.building.trans first.building
  holders := fun name => (second.holders name).trans (first.holders name)
  newObject := fun builds =>
    (second.newObject (first.building.mpr builds)).trans (first.newObject builds)
  newCount := fun builds =>
    (second.newCount (first.building.mpr builds)).trans (first.newCount builds)
  objects := fun name member =>
    (second.objects name (first.published member)).trans (first.objects name member)

theorem Orderly.ownName (orderly : before.Orderly externals calls) (builds : index ∈ before.building) :
    OwnName calls index before (calls index).newName :=
  ⟨orderly.unpublished index builds, fun other member same =>
    orderly.apart index builds other member same⟩

theorem Orderly.ownName_unlinked (orderly : before.Orderly externals calls) {name : String}
    (unlinked : name ∉ before.host.linked) : OwnName calls index before name :=
  ⟨fun member => unlinked (orderly.linked name member), fun other member same =>
    absurd (same ▸ orderly.built other member) unlinked⟩

/-- The others can rely on a turn that changes only their published counts and its own segment. -/
theorem Orderly.guarantee {host : Host} (orderly : after.Orderly externals calls)
    (host_eq : after.host = host)
    (past : after.past = before.past ++ [⟨some index, before.host, host⟩])
    (published : before.published ⊆ after.published)
    (building : ∀ other, other ≠ index → (other ∈ after.building ↔ other ∈ before.building))
    (holders : ∀ other, other ≠ index → ∀ name,
      other ∈ after.holders name ↔ other ∈ before.holders name)
    (objects : ∀ name, host.objects name ≠ before.host.objects name →
      OwnName calls index before name)
    (counts : ∀ name, host.keys.refcount name ≠ before.host.keys.refcount name →
      name ∈ before.published ∨ OwnName calls index before name)
    (disjoint : ∀ other ∈ before.building, (calls other).newName ∉ before.published) :
    Guarantee externals calls index before after := by
  subst host_eq
  refine ⟨past, orderly, fun other different => ?_⟩
  refine
    { orderly := orderly
      published := published
      past := fun turn member => past ▸ List.mem_append_left _ member
      building := building other different
      holders := holders other different
      newObject := fun builds => ?_
      newCount := fun builds => ?_
      objects := fun name member => ?_ }
  · by_contra changed
    exact different ((objects _ changed).2 other builds rfl)
  · by_contra changed
    rcases counts _ changed with member | own
    · exact disjoint other builds member
    · exact different (own.2 other builds rfl)
  · by_contra changed
    exact (objects name changed).1 member

/-- The invariant behind a turn, from what the turn does to the parts of the moment. -/
theorem Orderly.turn {actor : Option ι} (orderly : before.Orderly externals calls)
    (past : after.past = before.past ++ [⟨actor, before.host, after.host⟩])
    (serial : SerialTurn externals calls before.past ⟨actor, before.host, after.host⟩)
    (published : before.published ⊆ after.published)
    (pointed : ∀ schema name, after.host.keys.current schema = some name → name ∈ after.published)
    (linked : ∀ name ∈ after.published, name ∈ after.host.linked)
    (counted : ∀ name ∈ after.published, ∃ count : Int,
      after.host.keys.refcount name = some count ∧ (after.holders name).card + 1 ≤ count)
    (held : ∀ name, ∀ index ∈ after.holders name, name ∈ after.published)
    (built : ∀ index ∈ after.building, (calls index).newName ∈ after.host.linked)
    (unpublished : ∀ index ∈ after.building, (calls index).newName ∉ after.published)
    (apart : ∀ index ∈ after.building, ∀ other ∈ after.building,
      (calls other).newName = (calls index).newName → other = index) :
    after.Orderly externals calls where
  pointed := pointed
  linked := linked
  counted := counted
  held := held
  built := built
  unpublished := unpublished
  apart := apart
  exposed := by
    intro turn member schema name current
    rw [past] at member
    rcases List.mem_append.mp member with member | member
    · exact published (orderly.exposed turn member schema name current)
    · cases List.mem_singleton.mp member
      exact pointed schema name current
  serial := past ▸ orderly.serial.append serial

/-- A turn that leaves keys, names and segments as they are. -/
theorem Orderly.aside {actor : Option ι} {host : Host} (orderly : before.Orderly externals calls)
    (keys : host.keys = before.host.keys) (linked : host.linked = before.host.linked)
    (objects : host.objects = before.host.objects)
    (lock : ∀ index, actor = some index → ∀ name token, before.host.lock name = some token →
      host.lock name ≠ some token → token = (calls index).token) :
    (before.turned actor host).Orderly externals calls ∧
      ∀ index, Rely externals calls index before (before.turned actor host) := by
  have serial : SerialTurn externals calls before.past ⟨actor, before.host, host⟩ := by
    refine .kept lock (by rw [keys]) fun name removes => ?_
    unfold Removes at removes
    dsimp only at removes
    rw [keys, linked] at removes
    tauto
  have kept : (before.turned actor host).Orderly externals calls := by
    refine @Orderly.turn _ _ _ _ (before.turned actor host) actor orderly rfl serial subset_rfl
      ?_ ?_ ?_ orderly.held ?_ orderly.unpublished orderly.apart
    · intro schema name current
      exact orderly.pointed schema name (by rw [← keys]; exact current)
    · intro name member
      change name ∈ host.linked
      rw [linked]
      exact orderly.linked name member
    · intro name member
      change ∃ count : Int, host.keys.refcount name = some count ∧ _
      rw [keys]
      exact orderly.counted name member
    · intro index builds
      change _ ∈ host.linked
      rw [linked]
      exact orderly.built index builds
  refine ⟨kept, fun index => ⟨kept, subset_rfl, fun turn member => List.mem_append_left _ member,
    Iff.rfl, fun _ => Iff.rfl, fun _ => ?_, fun _ => ?_, fun name _ => ?_⟩⟩
  · change host.objects _ = _
    rw [objects]
  · change host.keys.refcount _ = _
    rw [keys]
  · change host.objects _ = _
    rw [objects]

theorem Orderly.unheld (orderly : before.Orderly externals calls) {name : String}
    (unpublished : name ∉ before.published) : before.holders name = ∅ := by
  rw [Finset.eq_empty_iff_forall_notMem]
  exact fun other holds => unpublished (orderly.held name other holds)

/-- A run never removes a segment that a pointer named before. -/
theorem Orderly.removal (orderly : before.Orderly externals calls) {host : Host}
    (builds : index ∈ before.building)
    (created : CreatedBy index (calls index).newName before.past)
    (lock : host.lock = before.host.lock)
    (current : host.keys.current = before.host.keys.current)
    (present : ∀ name, name ≠ (calls index).newName → ¬ Removes before.host host name) :
    SerialTurn externals calls before.past ⟨some index, before.host, host⟩ where
  lock := by
    intro actor _ name token held gone
    exact absurd (by rw [lock]; exact held) gone
  flip := fun schema changed => absurd (by rw [current]) changed
  removal := by
    intro actor acts name removes
    cases acts
    have own : name = (calls index).newName := by
      by_contra different
      exact present name different removes
    subst own
    exact ⟨rfl, created, fun turn member schema current =>
      orderly.unpublished index builds (orderly.exposed turn member schema _ current)⟩

section Turns

variable [DecidableEq ι]

/-- The moment behind the transaction of `open_current`. -/
def opened (state : Overlap ι) (index : ι) (pid : Nat) (name : String) : Overlap ι :=
  { state.turned (some index)
      { state.host with keys := state.host.keys.openPipeline pid name } with
    holders := Function.update state.holders name (Insert.insert index (state.holders name)) }

theorem Orderly.opens (orderly : before.Orderly externals calls) {pid : Nat} {name : String}
    (member : name ∈ before.published) (fresh : index ∉ before.holders name) :
    Guarantee externals calls index before (before.opened index pid name) := by
  have serial : SerialTurn externals calls before.past
      ⟨some index, before.host,
        { before.host with keys := before.host.keys.openPipeline pid name }⟩ := by
    refine .kept (fun _ _ _ _ same gone => absurd same gone) rfl fun other removes => ?_
    rcases removes with ⟨before, after⟩ | ⟨before, after⟩ | ⟨before, after⟩ | ⟨before, after⟩
    · exact after before
    · simp only [RegistryKeys.openPipeline, Function.update_apply] at after
      split at after
      · cases after
      · exact before after
    · exact before after
    · exact before after
  have kept : (before.opened index pid name).Orderly externals calls := by
    refine @Orderly.turn _ _ _ _ (before.opened index pid name) _ orderly rfl serial subset_rfl
      orderly.pointed orderly.linked ?_ ?_ orderly.built orderly.unpublished orderly.apart
    · intro other published
      simp only [opened, turned, RegistryKeys.openPipeline, Function.update_apply]
      obtain ⟨count, counts, enough⟩ := orderly.counted other published
      split
      · rename_i same
        subst same
        rw [counts, Finset.card_insert_of_notMem fresh]
        refine ⟨count + 1, rfl, ?_⟩
        push_cast
        omega
      · exact ⟨count, counts, enough⟩
    · intro other holder holds
      by_cases same : other = name
      · exact same ▸ member
      · simp only [opened, Function.update_of_ne same] at holds
        exact orderly.held other holder holds
  refine kept.guarantee rfl rfl subset_rfl (fun _ _ => Iff.rfl) ?_ ?_ ?_ orderly.unpublished
  · intro other different segment
    simp only [opened, Function.update_apply]
    split
    · rename_i same
      subst same
      simp [different]
    · rfl
  · exact fun other changed => absurd rfl changed
  · intro other changed
    by_cases same : other = name
    · exact Or.inl (same ▸ member)
    · exact absurd (Function.update_of_ne same _ _) changed

end Turns

/-- The moment behind the exclusive creation of the new segment. -/
def linkedNew (state : Overlap ι) (index : ι) (host : Host) : Overlap ι :=
  { state.turned (some index) host with building := Insert.insert index state.building }

theorem Orderly.links (orderly : before.Orderly externals calls) {schema : FeatureSchema}
    {layout : SegmentLayout} (unlinked : (calls index).newName ∉ before.host.linked) :
    Guarantee externals calls index before
      (before.linkedNew index (before.host.link (calls index).newName schema layout)) := by
  have own : OwnName calls index before (calls index).newName :=
    orderly.ownName_unlinked unlinked
  have linkedMore : (before.host.link (calls index).newName schema layout).linked =
      Insert.insert (calls index).newName before.host.linked := by
    rw [Host.link, if_neg unlinked]
  have objects : (before.host.link (calls index).newName schema layout).objects =
      Function.update before.host.objects (calls index).newName
        (some ⟨schema, layout, Memory.zero⟩) := by
    rw [Host.link, if_neg unlinked]
  have keys : (before.host.link (calls index).newName schema layout).keys = before.host.keys := by
    rw [Host.link, if_neg unlinked]
  have lock : (before.host.link (calls index).newName schema layout).lock = before.host.lock := by
    rw [Host.link, if_neg unlinked]
  generalize before.host.link (calls index).newName schema layout = host at *
  have serial : SerialTurn externals calls before.past ⟨some index, before.host, host⟩ := by
    refine .kept (fun _ _ _ _ same gone => absurd (by rw [lock]; exact same) gone)
      (by rw [keys]) fun other removes => ?_
    unfold Removes at removes
    dsimp only at removes
    rw [keys, linkedMore, Finset.mem_insert] at removes
    tauto
  have kept : (before.linkedNew index host).Orderly externals calls := by
    refine @Orderly.turn _ _ _ _ (before.linkedNew index host) _ orderly rfl serial subset_rfl
      ?_ ?_ ?_ orderly.held ?_ ?_ ?_
    · intro schema name current
      exact orderly.pointed schema name (by rw [← keys]; exact current)
    · intro name member
      change name ∈ host.linked
      rw [linkedMore]
      exact Finset.mem_insert_of_mem (orderly.linked name member)
    · intro name member
      change ∃ count : Int, host.keys.refcount name = some count ∧ _
      rw [keys]
      exact orderly.counted name member
    · rintro other (rfl | builds)
      · change _ ∈ host.linked
        rw [linkedMore]
        exact Finset.mem_insert_self _ _
      · change _ ∈ host.linked
        rw [linkedMore]
        exact Finset.mem_insert_of_mem (orderly.built other builds)
    · rintro other (rfl | builds)
      · exact own.1
      · exact orderly.unpublished other builds
    · rintro first (rfl | builds) second (rfl | others) same
      · rfl
      · exact own.2 second others same
      · exact (own.2 first builds same.symm).symm
      · exact orderly.apart first builds second others same
  refine kept.guarantee rfl rfl subset_rfl ?_ (fun _ _ _ => Iff.rfl) ?_ ?_ orderly.unpublished
  · exact fun other different => ⟨fun member => member.resolve_left different, Or.inr⟩
  · intro name changed
    change host.objects name ≠ _ at changed
    rw [objects] at changed
    by_cases same : name = (calls index).newName
    · exact same ▸ own
    · exact absurd (Function.update_of_ne same _ _) changed
  · intro name changed
    change host.keys.refcount name ≠ _ at changed
    exact absurd (by rw [keys]) changed

/-- A turn of a run on the segment that it builds. -/
theorem Orderly.works (orderly : before.Orderly externals calls) {host : Host}
    (builds : index ∈ before.building)
    (serial : SerialTurn externals calls before.past ⟨some index, before.host, host⟩)
    (current : host.keys.current = before.host.keys.current)
    (linked : host.linked = before.host.linked)
    (objects : ∀ name, name ≠ (calls index).newName →
      host.objects name = before.host.objects name)
    (counts : ∀ name, name ≠ (calls index).newName →
      host.keys.refcount name = before.host.keys.refcount name) :
    Guarantee externals calls index before (before.turned (some index) host) := by
  have own := orderly.ownName builds
  have kept : (before.turned (some index) host).Orderly externals calls := by
    refine @Orderly.turn _ _ _ _ (before.turned (some index) host) _ orderly rfl serial subset_rfl
      ?_ ?_ ?_ orderly.held ?_ orderly.unpublished orderly.apart
    · intro schema name current'
      exact orderly.pointed schema name (by rw [← current]; exact current')
    · intro name member
      change name ∈ host.linked
      rw [linked]
      exact orderly.linked name member
    · intro name member
      change ∃ count : Int, host.keys.refcount name = some count ∧ _
      rw [counts name (by rintro rfl; exact own.1 member)]
      exact orderly.counted name member
    · intro other builds'
      change _ ∈ host.linked
      rw [linked]
      exact orderly.built other builds'
  refine kept.guarantee rfl rfl subset_rfl (fun _ _ => Iff.rfl) (fun _ _ _ => Iff.rfl) ?_ ?_
    orderly.unpublished
  · intro name changed
    by_cases same : name = (calls index).newName
    · exact same ▸ own
    · exact absurd (objects name same) changed
  · intro name changed
    by_cases same : name = (calls index).newName
    · exact Or.inr (same ▸ own)
    · exact absurd (counts name same) changed

/-- The moment behind the unlink or the publication of the new segment. -/
def finishedNew (state : Overlap ι) (index : ι) (host : Host) (published : Set String) :
    Overlap ι :=
  { state.turned (some index) host with
    published := published
    building := state.building \ {index} }

theorem Orderly.unlinks (orderly : before.Orderly externals calls) (builds : index ∈ before.building)
    (created : CreatedBy index (calls index).newName before.past) :
    Guarantee externals calls index before
      (before.finishedNew index (before.host.unlink (calls index).newName) before.published) := by
  have own := orderly.ownName builds
  have serial : SerialTurn externals calls before.past
      ⟨some index, before.host, before.host.unlink (calls index).newName⟩ := by
    refine orderly.removal builds created rfl rfl fun name different removes => ?_
    rcases removes with ⟨member, gone⟩ | ⟨member, gone⟩ | ⟨member, gone⟩ | ⟨member, gone⟩
    · exact gone (Finset.mem_erase_of_ne_of_mem different member)
    · exact member gone
    · exact member gone
    · exact member gone
  have kept : (before.finishedNew index (before.host.unlink (calls index).newName)
      before.published).Orderly externals calls := by
    refine @Orderly.turn _ _ _ _ (before.finishedNew index _ before.published) _ orderly rfl serial
      subset_rfl orderly.pointed ?_ orderly.counted orderly.held ?_ ?_ ?_
    · intro name member
      exact Finset.mem_erase_of_ne_of_mem (by rintro rfl; exact own.1 member)
        (orderly.linked name member)
    · rintro other ⟨member, different⟩
      exact Finset.mem_erase_of_ne_of_mem (fun same => different (own.2 other member same))
        (orderly.built other member)
    · exact fun other member => orderly.unpublished other member.1
    · exact fun first member second others => orderly.apart first member.1 second others.1
  refine kept.guarantee rfl rfl subset_rfl ?_ (fun _ _ _ => Iff.rfl)
    (fun name changed => absurd rfl changed) (fun name changed => absurd rfl changed)
    orderly.unpublished
  exact fun other different => ⟨fun member => member.1, fun member => ⟨member, different⟩⟩

theorem Orderly.flips (orderly : before.Orderly externals calls) (builds : index ∈ before.building)
    {replaced : String} {segment : Segment} {count : Int}
    (current : before.host.keys.current (calls index).old.safeName = some replaced)
    (opened : OpenedBy calls index replaced before.past)
    (present : before.host.objects (calls index).newName = some segment)
    (populated : Populated externals (calls index) before.host segment)
    (counted : before.host.keys.refcount (calls index).newName = some count) (positive : 1 ≤ count) :
    Guarantee externals calls index before
      (before.finishedNew index (before.host.flipped (calls index))
        (Insert.insert (calls index).newName before.published)) := by
  have own := orderly.ownName builds
  have pointer : ∀ schema, schema ≠ (calls index).old.safeName →
      (before.host.flipped (calls index)).keys.current schema = before.host.keys.current schema :=
    fun schema different => Function.update_of_ne different _ _
  have serial : SerialTurn externals calls before.past
      ⟨some index, before.host, before.host.flipped (calls index)⟩ := by
    refine
      { lock := fun _ _ _ _ same gone => absurd same gone
        flip := fun schema changed => ?_
        removal := fun _ _ name removes => ?_ }
    · have own : schema = (calls index).old.safeName := by
        by_contra different
        exact changed (pointer schema different)
      exact ⟨index, replaced, segment, rfl, own, own ▸ current,
        own ▸ Function.update_self _ _ _, opened, present, populated⟩
    · rcases removes with ⟨member, gone⟩ | ⟨member, gone⟩ | ⟨member, gone⟩ | ⟨member, gone⟩
      · exact absurd member gone
      · exact absurd gone member
      · exact absurd gone member
      · exact absurd gone member
  have kept : (before.finishedNew index (before.host.flipped (calls index))
      (Insert.insert (calls index).newName before.published)).Orderly externals calls := by
    refine @Orderly.turn _ _ _ _ (before.finishedNew index _ _) _ orderly rfl serial
      (Set.subset_insert _ _) ?_ ?_ ?_ ?_ ?_ ?_ ?_
    · intro schema name pointed
      by_cases same : schema = (calls index).old.safeName
      · subst same
        simp only [finishedNew, turned, Host.flipped, Function.update_self,
          Option.some.injEq] at pointed
        exact pointed ▸ Set.mem_insert _ _
      · exact Set.mem_insert_of_mem _
          (orderly.pointed schema name ((pointer schema same).symm.trans pointed))
    · rintro name (rfl | member)
      · exact orderly.built index builds
      · exact orderly.linked name member
    · rintro name (rfl | member)
      · refine ⟨count, counted, ?_⟩
        change ((before.holders (calls index).newName).card : Int) + 1 ≤ count
        rw [orderly.unheld own.1]
        simpa using positive
      · exact orderly.counted name member
    · exact fun name holder holds => Set.mem_insert_of_mem _ (orderly.held name holder holds)
    · exact fun other member => orderly.built other member.1
    · rintro other ⟨member, different⟩ (same | published)
      · exact different (own.2 other member same)
      · exact orderly.unpublished other member published
    · exact fun first member second others => orderly.apart first member.1 second others.1
  refine kept.guarantee rfl rfl (Set.subset_insert _ _) ?_ (fun _ _ _ => Iff.rfl)
    (fun name changed => absurd rfl changed) (fun name changed => absurd rfl changed)
    orderly.unpublished
  exact fun other different => ⟨fun member => member.1, fun member => ⟨member, different⟩⟩

section Close

variable [DecidableEq ι]

/-- The moment behind the close of the old segment. -/
def closed (state : Overlap ι) (index : ι) (pid : Nat) (name : String) : Overlap ι :=
  { state.turned (some index)
      { state.host with keys := (state.host.keys.closeScript pid name).2 } with
    holders := Function.update state.holders name ((state.holders name).erase index) }

/-- A close that leaves a positive count only lowers it. -/
theorem closeScript_lowers {keys : RegistryKeys} {pid : Nat} {name : String} {count : Int}
    (counted : keys.refcount name = some count) (more : 2 ≤ count) :
    (keys.closeScript pid name).2 =
      { keys with
        refcount := Function.update keys.refcount name (some (count - 1))
        pidSegments :=
          Function.update keys.pidSegments pid ((keys.pidSegments pid).erase name) } := by
  have positive : ¬ count - 1 ≤ 0 := by omega
  simp [RegistryKeys.closeScript, RegistryKeys.decrement, counted, positive]

theorem Orderly.closes (orderly : before.Orderly externals calls) {pid : Nat} {name : String}
    (holds : index ∈ before.holders name) :
    Guarantee externals calls index before (before.closed index pid name) := by
  have member := orderly.held name index holds
  obtain ⟨count, counted, enough⟩ := orderly.counted name member
  have several := Finset.card_pos.mpr ⟨index, holds⟩
  have lowered := @closeScript_lowers before.host.keys pid name count counted (by omega)
  have serial : SerialTurn externals calls before.past
      ⟨some index, before.host,
        { before.host with keys := (before.host.keys.closeScript pid name).2 }⟩ := by
    rw [lowered]
    refine .kept (fun _ _ _ _ same gone => absurd same gone) rfl fun other removes => ?_
    rcases removes with ⟨before, after⟩ | ⟨before, after⟩ | ⟨before, after⟩ | ⟨before, after⟩
    · exact after before
    · simp only [Function.update_apply] at after
      split at after
      · cases after
      · exact before after
    · exact before after
    · exact before after
  have kept : (before.closed index pid name).Orderly externals calls := by
    refine @Orderly.turn _ _ _ _ (before.closed index pid name) _ orderly rfl serial subset_rfl
      ?_ orderly.linked ?_ ?_ orderly.built orderly.unpublished orderly.apart
    · intro schema other current
      simp only [closed, turned, lowered] at current
      exact orderly.pointed schema other current
    · intro other published
      simp only [closed, turned, lowered, Function.update_apply]
      obtain ⟨otherCount, counts, enoughOther⟩ := orderly.counted other published
      split
      · rename_i same
        subst same
        rw [Finset.card_erase_of_mem holds]
        refine ⟨count - 1, rfl, ?_⟩
        push_cast [several]
        omega
      · exact ⟨otherCount, counts, enoughOther⟩
    · intro other holder held
      by_cases same : other = name
      · exact same ▸ member
      · simp only [closed, Function.update_of_ne same] at held
        exact orderly.held other holder held
  refine kept.guarantee rfl rfl subset_rfl (fun _ _ => Iff.rfl) ?_ ?_ ?_ orderly.unpublished
  · intro other different segment
    simp only [closed, Function.update_apply]
    split
    · rename_i same
      subst same
      simp [different]
    · rfl
  · exact fun other changed => absurd rfl changed
  · intro other changed
    by_cases same : other = name
    · exact Or.inl (same ▸ member)
    · simp only [closed, turned, lowered] at changed
      exact absurd (Function.update_of_ne same _ _) changed

end Close

end Overlap

end Quorin
