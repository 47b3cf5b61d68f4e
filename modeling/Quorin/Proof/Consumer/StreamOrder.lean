import Quorin.Construction.ConsumerSteps

namespace Quorin

/-- What one step does to the stream and to the consumer group. -/
inductive StreamEffect (deployment : Deployment) (world after : World) : Prop where
  | kept (produced : after.produced = world.produced) (entries : after.entries = world.entries)
      (group : after.group = world.group) (acked : after.acked = world.acked)
  | added (entry : StreamEntry) (positive : MsgId.of 0 0 < entry.id)
      (newer : ∀ other ∈ world.produced, other.id < entry.id)
      (produced : after.produced = world.produced ++ [entry])
      (entries : after.entries = world.entries ++ [entry])
      (group : after.group = world.group) (acked : after.acked = world.acked)
  | trimmed (count : Nat) (produced : after.produced = world.produced)
      (entries : after.entries = world.entries.drop count)
      (group : after.group = world.group) (acked : after.acked = world.acked)
  | created (produced : after.produced = world.produced) (entries : after.entries = world.entries)
      (group : after.group = some (world.group.getD ⟨MsgId.of 0 0, []⟩))
      (acked : after.acked = world.acked)
  | delivered (produced : after.produced = world.produced) (entries : after.entries = world.entries)
      {group : Group} (present : world.group = some group)
      (moved : after.group = some (group.deliver (world.newBatch deployment group)))
      (acked : after.acked = world.acked)
  | acknowledged (snapshot : List MsgId) (produced : after.produced = world.produced)
      (entries : after.entries = world.entries)
      (group : after.group = world.group.map fun group => group.ack snapshot)
      (acked : after.acked = world.acked ++ snapshot)

section Effects

variable {deployment : Deployment} {world after : World}

theorem EnvironmentStep.streamEffect (step : EnvironmentStep deployment world after) :
    StreamEffect deployment world after := by
  cases step with
  | xadd entry positive newer => exact .added entry positive newer rfl rfl rfl rfl
  | trim count => exact .trimmed count rfl rfl rfl rfl
  | _ => exact .kept rfl rfl rfl rfl

theorem ReaderStep.streamEffect (step : ReaderStep deployment world after) :
    StreamEffect deployment world after := by
  cases step with
  | ensureGroup live phase => exact .created rfl rfl rfl rfl
  | read live phase running present counted => exact .delivered rfl rfl present rfl rfl
  | pauseAcked live phase => exact .acknowledged _ rfl rfl rfl rfl
  | pauseAckLost live phase => exact .acknowledged _ rfl rfl rfl rfl
  | _ => exact .kept rfl rfl rfl rfl

theorem CleanupStep.streamEffect (step : CleanupStep deployment world after) :
    StreamEffect deployment world after := by
  cases step with
  | flusherAckLost live phase acking => exact .acknowledged _ rfl rfl rfl rfl
  | acked live phase => exact .acknowledged _ rfl rfl rfl rfl
  | ackLost live phase => exact .acknowledged _ rfl rfl rfl rfl
  | _ => exact .kept rfl rfl rfl rfl

theorem FlusherStep.streamEffect (step : FlusherStep deployment world after) :
    StreamEffect deployment world after := by
  cases step with
  | acked live turn phase => exact .acknowledged _ rfl rfl rfl rfl
  | ackLost live turn phase => exact .acknowledged _ rfl rfl rfl rfl
  | _ => exact .kept rfl rfl rfl rfl

theorem WorldStep.streamEffect (step : WorldStep deployment world after) :
    StreamEffect deployment world after := by
  cases step with
  | environment step => exact step.streamEffect
  | consumer step =>
      cases step with
      | lifecycle step => cases step <;> exact .kept rfl rfl rfl rfl
      | reader step => exact step.streamEffect
      | cleanup step => exact step.streamEffect
      | flusher step => exact step.streamEffect

end Effects

/-- The group remembers every delivered entry until it is acknowledged. -/
structure GroupOrdered (world : World) (group : Group) : Prop where
  cursor : group.lastDelivered = MsgId.of 0 0 ∨
    ∃ entry ∈ world.produced, entry.id = group.lastDelivered
  sorted : group.pending.Pairwise (· < ·)
  known : ∀ msgId ∈ group.pending, ∃ entry ∈ world.produced, entry.id = msgId
  bounded : ∀ msgId ∈ group.pending, msgId ≤ group.lastDelivered
  tracked : ∀ entry ∈ world.entries, entry.id ≤ group.lastDelivered →
    entry.id ∈ group.pending ∨ entry.id ∈ world.acked

/-- The ids of the stream grow, and the group follows the stream. -/
structure StreamOrdered (world : World) : Prop where
  sorted : world.produced.Pairwise fun first second => first.id < second.id
  positive : ∀ entry ∈ world.produced, MsgId.of 0 0 < entry.id
  recent : world.entries <:+ world.produced
  group : ∀ group, world.group = some group → GroupOrdered world group

section Order

variable {deployment : Deployment} {world after : World}

theorem StreamOrdered.entries_sorted (ordered : StreamOrdered world) :
    world.entries.Pairwise fun first second => first.id < second.id :=
  ordered.sorted.sublist ordered.recent.sublist

/-- An id names one entry of the stream. -/
theorem StreamOrdered.unique (ordered : StreamOrdered world) {first second : StreamEntry}
    (firstIn : first ∈ world.produced) (secondIn : second ∈ world.produced)
    (same : first.id = second.id) : first = second := by
  have distinct : (world.produced.map StreamEntry.id).Nodup :=
    List.pairwise_map.mpr (ordered.sorted.imp ne_of_lt)
  exact List.inj_on_of_nodup_map distinct firstIn secondIn same

theorem deliver_nil (group : Group) : group.deliver [] = group := by
  simp [Group.deliver]

theorem deliver_concat (group : Group) (front : List StreamEntry) (last : StreamEntry) :
    (group.deliver (front ++ [last])).lastDelivered = last.id := by
  simp [Group.deliver]

/-- The entries behind the cursor, oldest first. -/
def World.undelivered (world : World) (group : Group) : List StreamEntry :=
  world.entries.filter fun entry => group.lastDelivered < entry.id

theorem StreamOrdered.undelivered_sorted (ordered : StreamOrdered world) (group : Group) :
    (world.undelivered group).Pairwise fun first second => first.id < second.id :=
  ordered.entries_sorted.sublist List.filter_sublist

/-- The cursor behind a batch separates the batch from the entries that are left. -/
theorem deliver_cursor (ordered : StreamOrdered world) (group : Group) {entry : StreamEntry}
    (member : entry ∈ world.undelivered group) :
    entry.id ≤ (group.deliver (world.newBatch deployment group)).lastDelivered ↔
      entry ∈ world.newBatch deployment group := by
  have sorted := ordered.undelivered_sorted group
  have behind : group.lastDelivered < entry.id := of_decide_eq_true (List.mem_filter.mp member).2
  change _ ↔ entry ∈ (world.undelivered group).take deployment.batchCount
  change entry.id ≤ (group.deliver ((world.undelivered group).take deployment.batchCount)).lastDelivered
    ↔ _
  rw [← List.take_append_drop deployment.batchCount (world.undelivered group)] at sorted member
  generalize (world.undelivered group).take deployment.batchCount = batch at *
  generalize (world.undelivered group).drop deployment.batchCount = rest at *
  obtain ⟨batchSorted, _, apart⟩ := List.pairwise_append.mp sorted
  rcases List.eq_nil_or_concat' batch with rfl | ⟨front, last, rfl⟩
  · rw [deliver_nil]
    simp [behind]
  · rw [deliver_concat]
    constructor
    · intro within
      rcases List.mem_append.mp member with here | later
      · exact here
      · have after := apart last (by simp) entry later
        exact absurd after (not_lt.mpr within)
    · intro here
      rcases List.mem_append.mp here with early | final
      · exact ((List.pairwise_append.mp batchSorted).2.2 entry early last (by simp)).le
      · rw [List.mem_singleton.mp final]

theorem newBatch_undelivered {group : Group} {entry : StreamEntry}
    (member : entry ∈ world.newBatch deployment group) : entry ∈ world.undelivered group :=
  List.mem_of_mem_take member

theorem deliver_forward (ordered : StreamOrdered world) (group : Group) :
    group.lastDelivered ≤ (group.deliver (world.newBatch deployment group)).lastDelivered := by
  rcases shape : world.newBatch deployment group with nil | ⟨entry, rest⟩
  · rw [deliver_nil]
  · have member : entry ∈ world.newBatch deployment group := by rw [shape]; exact List.mem_cons_self
    have undelivered := newBatch_undelivered member
    have behind : group.lastDelivered < entry.id :=
      of_decide_eq_true (List.mem_filter.mp undelivered).2
    rw [← shape]
    exact behind.le.trans ((deliver_cursor ordered group undelivered).mpr member)

/-- A delivery keeps the group in step with the stream. -/
theorem GroupOrdered.deliver (ordered : StreamOrdered world) {group : Group}
    (follows : GroupOrdered world group) :
    GroupOrdered world (group.deliver (world.newBatch deployment group)) where
  cursor := by
    rcases List.eq_nil_or_concat' (world.newBatch deployment group) with empty | ⟨front, last, shape⟩
    · rw [empty, deliver_nil]
      exact follows.cursor
    · have member : last ∈ world.newBatch deployment group := by rw [shape]; simp
      rw [shape, deliver_concat]
      exact Or.inr ⟨last, ordered.recent.subset
        (List.mem_filter.mp (newBatch_undelivered member)).1, rfl⟩
  sorted := by
    refine List.pairwise_append.mpr ⟨follows.sorted, ?_, ?_⟩
    · exact List.pairwise_map.mpr
        ((ordered.undelivered_sorted group).sublist (List.take_sublist _ _))
    · intro old oldIn new newIn
      obtain ⟨entry, member, rfl⟩ := List.mem_map.mp newIn
      have behind : group.lastDelivered < entry.id :=
        of_decide_eq_true (List.mem_filter.mp (newBatch_undelivered member)).2
      exact lt_of_le_of_lt (follows.bounded old oldIn) behind
  known := by
    intro msgId member
    rcases List.mem_append.mp member with old | new
    · exact follows.known msgId old
    · obtain ⟨entry, inBatch, rfl⟩ := List.mem_map.mp new
      exact ⟨entry, ordered.recent.subset (List.mem_filter.mp (newBatch_undelivered inBatch)).1, rfl⟩
  bounded := by
    intro msgId member
    rcases List.mem_append.mp member with old | new
    · exact (follows.bounded msgId old).trans (deliver_forward ordered group)
    · obtain ⟨entry, inBatch, rfl⟩ := List.mem_map.mp new
      exact (deliver_cursor ordered group (newBatch_undelivered inBatch)).mpr inBatch
  tracked := by
    intro entry stored within
    by_cases old : entry.id ≤ group.lastDelivered
    · exact (follows.tracked entry stored old).imp_left (List.mem_append_left _)
    · have undelivered : entry ∈ world.undelivered group :=
        List.mem_filter.mpr ⟨stored, decide_eq_true (not_le.mp old)⟩
      have inBatch := (deliver_cursor ordered group undelivered).mp within
      exact Or.inl (List.mem_append_right _ (List.mem_map_of_mem inBatch))

/-- An acknowledgement moves ids from the pending entries to the acknowledged ones. -/
theorem GroupOrdered.ack {group : Group} (follows : GroupOrdered world group)
    (snapshot : List MsgId) (entries : after.entries = world.entries)
    (produced : after.produced = world.produced) (acked : after.acked = world.acked ++ snapshot) :
    GroupOrdered after (group.ack snapshot) where
  cursor := by
    rw [produced]
    exact follows.cursor
  sorted := follows.sorted.sublist List.filter_sublist
  known := by
    rw [produced]
    exact fun msgId member => follows.known msgId (List.mem_filter.mp member).1
  bounded := fun msgId member => follows.bounded msgId (List.mem_filter.mp member).1
  tracked := by
    intro entry stored within
    rw [entries] at stored
    rw [acked, List.mem_append]
    by_cases named : entry.id ∈ snapshot
    · exact Or.inr (Or.inr named)
    · rcases follows.tracked entry stored within with pending | before
      · exact Or.inl (List.mem_filter.mpr ⟨pending, by simpa using named⟩)
      · exact Or.inr (Or.inl before)

/-- A stream that only lost entries keeps the group in step. -/
theorem GroupOrdered.shrink {group : Group} (follows : GroupOrdered world group)
    (entries : after.entries ⊆ world.entries) (produced : after.produced = world.produced)
    (acked : after.acked = world.acked) : GroupOrdered after group where
  cursor := by
    rw [produced]
    exact follows.cursor
  sorted := follows.sorted
  known := by
    rw [produced]
    exact follows.known
  bounded := follows.bounded
  tracked := by
    intro entry stored within
    rw [acked]
    exact follows.tracked entry (entries stored) within

/-- A new entry is behind the cursor. -/
theorem GroupOrdered.add {group : Group} (follows : GroupOrdered world group) {entry : StreamEntry}
    (positive : MsgId.of 0 0 < entry.id) (newer : ∀ other ∈ world.produced, other.id < entry.id)
    (produced : after.produced = world.produced ++ [entry])
    (entries : after.entries = world.entries ++ [entry]) (acked : after.acked = world.acked) :
    GroupOrdered after group where
  cursor := by
    rw [produced]
    exact follows.cursor.imp_right fun ⟨other, member, same⟩ =>
      ⟨other, List.mem_append_left _ member, same⟩
  sorted := follows.sorted
  known := by
    intro msgId pending
    obtain ⟨other, member, same⟩ := follows.known msgId pending
    exact ⟨other, produced ▸ List.mem_append_left _ member, same⟩
  bounded := follows.bounded
  tracked := by
    intro other stored within
    rw [entries] at stored
    rw [acked]
    rcases List.mem_append.mp stored with old | new
    · exact follows.tracked other old within
    · rw [List.mem_singleton.mp new] at within
      rcases follows.cursor with start | ⟨last, member, same⟩
      · rw [start] at within
        exact absurd positive (not_lt.mpr within)
      · rw [← same] at within
        exact absurd (newer last member) (not_lt.mpr within)

/-- A group without deliveries follows every stream. -/
theorem GroupOrdered.fresh (ordered : StreamOrdered world) :
    GroupOrdered world ⟨MsgId.of 0 0, []⟩ where
  cursor := Or.inl rfl
  sorted := List.Pairwise.nil
  known := fun _ member => absurd member List.not_mem_nil
  bounded := fun _ member => absurd member List.not_mem_nil
  tracked := fun entry stored within =>
    absurd (ordered.positive entry (ordered.recent.subset stored)) (not_lt.mpr within)

theorem StreamEffect.ordered (effect : StreamEffect deployment world after)
    (ordered : StreamOrdered world) : StreamOrdered after := by
  cases effect with
  | kept produced entries group acked =>
      refine ⟨produced ▸ ordered.sorted, produced ▸ ordered.positive, ?_, ?_⟩
      · rw [produced, entries]
        exact ordered.recent
      · rw [group]
        exact fun group present =>
          (ordered.group group present).shrink (entries ▸ List.Subset.refl _) produced acked
  | added entry positive newer produced entries group acked =>
      refine ⟨?_, ?_, ?_, ?_⟩
      · rw [produced]
        exact List.pairwise_append.mpr ⟨ordered.sorted, List.pairwise_singleton _ _,
          fun other member last final => List.mem_singleton.mp final ▸ newer other member⟩
      · rw [produced]
        intro other member
        rcases List.mem_append.mp member with old | new
        · exact ordered.positive other old
        · rw [List.mem_singleton.mp new]
          exact positive
      · rw [produced, entries]
        obtain ⟨front, shape⟩ := ordered.recent
        exact ⟨front, by rw [← List.append_assoc, shape]⟩
      · rw [group]
        exact fun group present =>
          (ordered.group group present).add positive newer produced entries acked
  | trimmed count produced entries group acked =>
      refine ⟨produced ▸ ordered.sorted, produced ▸ ordered.positive, ?_, ?_⟩
      · rw [produced, entries]
        exact (List.drop_suffix count _).trans ordered.recent
      · rw [group]
        exact fun group present => (ordered.group group present).shrink
          (entries ▸ List.drop_subset count _) produced acked
  | created produced entries group acked =>
      refine ⟨produced ▸ ordered.sorted, produced ▸ ordered.positive, ?_, ?_⟩
      · rw [produced, entries]
        exact ordered.recent
      · rw [group]
        intro now present
        obtain rfl := Option.some.inj present
        cases before : world.group with
        | none => exact (GroupOrdered.fresh ordered).shrink (entries ▸ List.Subset.refl _) produced acked
        | some old =>
            exact (ordered.group old before).shrink (entries ▸ List.Subset.refl _) produced acked
  | @delivered produced entries group present moved acked =>
      refine ⟨produced ▸ ordered.sorted, produced ▸ ordered.positive, ?_, ?_⟩
      · rw [produced, entries]
        exact ordered.recent
      · rw [moved]
        intro now same
        obtain rfl := Option.some.inj same
        exact ((ordered.group group present).deliver ordered).shrink
          (entries ▸ List.Subset.refl _) produced acked
  | acknowledged snapshot produced entries group acked =>
      refine ⟨produced ▸ ordered.sorted, produced ▸ ordered.positive, ?_, ?_⟩
      · rw [produced, entries]
        exact ordered.recent
      · rw [group]
        intro now same
        obtain ⟨before, present, rfl⟩ := Option.map_eq_some_iff.mp same
        exact (ordered.group before present).ack snapshot entries produced acked

theorem World.Initial.streamOrdered (initial : world.Initial deployment) : StreamOrdered world where
  sorted := by
    rw [initial.produced]
    exact List.Pairwise.nil
  positive := by
    rw [initial.produced]
    exact fun entry member => absurd member List.not_mem_nil
  recent := by
    rw [initial.produced, initial.entries]
  group := by
    rw [initial.group]
    exact fun group present => absurd present (by simp)

/-- No step forgets a produced message. -/
theorem StreamEffect.grown (effect : StreamEffect deployment world after) :
    ∀ entry ∈ world.produced, entry ∈ after.produced := by
  intro entry member
  cases effect with
  | added added positive newer produced entries group acked =>
      rw [produced]
      exact List.mem_append_left _ member
  | kept produced => exact produced ▸ member
  | trimmed count produced => exact produced ▸ member
  | created produced => exact produced ▸ member
  | delivered produced => exact produced ▸ member
  | acknowledged snapshot produced => exact produced ▸ member

/-- A pending entry that was trimmed is older than every entry of the stream. -/
theorem StreamOrdered.trimmed_lt (ordered : StreamOrdered world) {group : Group}
    (present : world.group = some group) {msgId : MsgId} (pending : msgId ∈ group.pending)
    (trimmed : world.fieldsOf msgId = none) {entry : StreamEntry} (stored : entry ∈ world.entries) :
    msgId < entry.id := by
  obtain ⟨old, member, rfl⟩ := (ordered.group group present).known msgId pending
  obtain ⟨front, shape⟩ := ordered.recent
  have sorted := ordered.sorted
  rw [← shape] at member sorted
  rcases List.mem_append.mp member with dropped | kept
  · exact (List.pairwise_append.mp sorted).2.2 old dropped entry stored
  · have absent : ∀ other ∈ world.entries, other.id ≠ old.id := by
      simpa [World.fieldsOf] using trimmed
    exact absurd rfl (absent old kept)

/-- The ids of the stream grow in every run. -/
theorem ordered_of_steps {start : World} (initial : start.Initial deployment)
    (steps : Relation.ReflTransGen (WorldStep deployment) start world) : StreamOrdered world := by
  induction steps with
  | refl => exact initial.streamOrdered
  | tail _ step ih => exact step.streamEffect.ordered ih

end Order

end Quorin
