import Quorin.Proof.Consumer.AckTrim
import Quorin.Proof.Serving.ServedWrites

namespace Quorin

/-- The steps without pauses and failed writes; a raising pipeline sets no key, and a process ends
with nothing pending. -/
structure GracefulStep (deployment : Deployment) (before after : World) : Prop where
  step : WorldStep deployment before after
  smooth : before.Smooth deployment
  whole : ∀ run next origin applied, before.run = some run → run.reader = .setting origin applied →
    after.run = some next → next.reader ≠ origin.next → after.processed = before.processed
  settled : ∀ run, before.run = some run → run.reader = .ended ∨ after.run = none →
    run.consumer.pendingAck = []

/-- The parts of a run by what they say of the messages that are still to be signalled. -/
inductive ReaderPlace where
  | draining (lastId : MsgId)
  | looping
  | between
  | settling (snapshot : List MsgId)
  | paused
  | over

def ReaderPhase.place : ReaderPhase → ReaderPlace
  | .starting => .draining (MsgId.of 0 0)
  | .draining lastId => .draining lastId
  | .announcing => .between
  | .reading => .between
  | .checking _ => .looping
  | .pauseAcking _ _ => .paused
  | .parked _ => .paused
  | .refreshing _ => .looping
  | .batching (.drain lastId) _ => .draining lastId
  | .batching .loop _ => .looping
  | .applying (.drain lastId) _ _ => .draining lastId
  | .applying .loop _ _ => .looping
  | .setting (.drain lastId) _ => .draining lastId
  | .setting .loop _ => .looping
  | .stopping => .over
  | .finalAcking snapshot => .settling snapshot
  | .closing => .over
  | .ended => .over

/-- The ids whose keys the read task is going to set. -/
def ReaderPhase.held (phase : ReaderPhase) : List MsgId := phase.applied ++ phase.batch.map Prod.fst

/-- The pending ids without a key are those that the read task holds, and in a drain also those behind
its last id. -/
def Run.Placed (run : Run) (processed pending : List MsgId) : Prop :=
  match run.reader.place with
  | .draining lastId => (∀ msgId ∈ run.reader.held, msgId ∈ pending ∧ msgId ≤ lastId) ∧
      ∀ msgId ∈ pending, msgId ∉ processed ↔ msgId ∈ run.reader.held ∨ lastId < msgId
  | .looping => ∀ msgId ∈ pending, msgId ∉ processed ↔ msgId ∈ run.reader.held
  | .between => run.consumer.stopEvent = true ∨ ∀ msgId ∈ pending, msgId ∈ processed
  | .settling snapshot => run.consumer.pendingAck = snapshot
  | .paused => False
  | .over => True

/-- The pending ids of the consumer group. -/
def World.pendingIds (world : World) : List MsgId := (world.group.map Group.pending).getD []

/-- The keys are set in stream order, and a signalled pending message waits in the live process. -/
structure Frontier (world : World) : Prop where
  positive : ∀ msgId ∈ world.pendingIds, MsgId.of 0 0 < msgId
  ahead : ∀ first ∈ world.processed, ∀ later ∈ world.pendingIds, later ∉ world.processed →
    first < later
  waiting : ∀ msgId ∈ world.processed, msgId ∈ world.pendingIds →
    ∃ run, world.run = some run ∧ msgId ∈ run.consumer.pendingAck
  placed : ∀ run, world.run = some run → run.Placed world.processed world.pendingIds

section Rules

variable {deployment : Deployment} {world after : World} {run next : Run}

theorem pendingIds_some {group : Group} (present : world.group = some group) :
    world.pendingIds = group.pending := by
  simp [World.pendingIds, present]

theorem pendingIds_ack (world : World) (msgIds : List MsgId) :
    (world.ack msgIds).pendingIds = world.pendingIds.filter fun msgId => msgId ∉ msgIds := by
  cases present : world.group <;> simp [World.pendingIds, World.ack, Group.ack, present]

theorem raised_place (run : Run) : run.raised.reader.place = .over := by
  unfold Run.raised
  cases run.flusher <;> rfl

/-- A run that is over holds nothing back. -/
theorem placed_over (ended : next.reader.place = .over) (processed pending : List MsgId) :
    next.Placed processed pending := by
  simp only [Run.Placed, ended]

/-- What a run in a drain says of the pending ids. -/
theorem placed_draining {processed pending held : List MsgId} {lastId : MsgId}
    (place : run.reader.place = .draining lastId) (same : run.reader.held = held) :
    run.Placed processed pending ↔ (∀ msgId ∈ held, msgId ∈ pending ∧ msgId ≤ lastId) ∧
      ∀ msgId ∈ pending, msgId ∉ processed ↔ msgId ∈ held ∨ lastId < msgId := by
  simp only [Run.Placed, place, same]

/-- What a run in its read loop says of the pending ids. -/
theorem placed_looping {processed pending held : List MsgId} (place : run.reader.place = .looping)
    (same : run.reader.held = held) :
    run.Placed processed pending ↔ ∀ msgId ∈ pending, msgId ∉ processed ↔ msgId ∈ held := by
  simp only [Run.Placed, place, same]

/-- A run that holds nothing in its read loop has signalled every pending id. -/
theorem Run.Placed.signalled {processed pending : List MsgId} (placed : run.Placed processed pending)
    (place : run.reader.place = .looping) (nothing : run.reader.held = []) :
    ∀ msgId ∈ pending, msgId ∈ processed := by
  intro msgId member
  by_contra unset
  exact List.not_mem_nil (((placed_looping place nothing).mp placed msgId member).mp unset)

/-- A run in a drain that holds nothing has signalled the pending ids up to its last id. -/
theorem Run.Placed.drained {processed pending : List MsgId} {lastId : MsgId}
    (placed : run.Placed processed pending) (place : run.reader.place = .draining lastId)
    (nothing : run.reader.held = []) :
    ∀ msgId ∈ pending, msgId ∉ processed ↔ lastId < msgId := by
  intro msgId member
  have left := ((placed_draining place nothing).mp placed).2 msgId member
  simpa using left

/-- A drain that holds nothing is placed by the ids that it has signalled. -/
theorem placed_drained {processed pending : List MsgId} {lastId : MsgId}
    (place : run.reader.place = .draining lastId) (nothing : run.reader.held = [])
    (left : ∀ msgId ∈ pending, msgId ∉ processed ↔ lastId < msgId) :
    run.Placed processed pending := by
  refine (placed_draining place nothing).mpr ⟨fun msgId member => absurd member List.not_mem_nil, ?_⟩
  simpa using left

/-- A run in the same place with the same ids stays placed. -/
theorem Run.Placed.congr {processed pending : List MsgId} (placed : run.Placed processed pending)
    (place : next.reader.place = run.reader.place) (held : next.reader.held = run.reader.held)
    (stop : run.consumer.stopEvent = true → next.consumer.stopEvent = true)
    (pendingAck : next.consumer.pendingAck = run.consumer.pendingAck) :
    next.Placed processed pending := by
  unfold Run.Placed at placed ⊢
  rw [place, held, pendingAck]
  cases shape : run.reader.place <;> simp only [shape] at placed ⊢
  case between => exact placed.imp_left stop
  all_goals exact placed

/-- Behind a drain a run stays placed when ids are acknowledged. -/
theorem Run.Placed.shrink {processed pending fewer : List MsgId} (placed : run.Placed processed pending)
    (looping : ∀ lastId, run.reader.place ≠ .draining lastId)
    (unsettled : ∀ snapshot, run.reader.place ≠ .settling snapshot) (subset : fewer ⊆ pending)
    (reader : next.reader = run.reader)
    (stop : next.consumer.stopEvent = run.consumer.stopEvent) : next.Placed processed fewer := by
  unfold Run.Placed at placed ⊢
  rw [reader, stop]
  cases shape : run.reader.place <;> simp only [shape] at placed ⊢
  case draining lastId => exact absurd shape (looping lastId)
  case settling snapshot => exact absurd shape (unsettled snapshot)
  case looping => exact fun msgId member => placed msgId (subset member)
  case between => exact placed.imp_right fun set msgId member => set msgId (subset member)

/-- A step that sets no key, delivers nothing and keeps every pending id that waits. -/
theorem Frontier.shrink (frontier : Frontier world) (subset : after.pendingIds ⊆ world.pendingIds)
    (processed : after.processed = world.processed) (live : world.run = some run)
    (now : after.run = some next)
    (waits : ∀ msgId ∈ after.pendingIds, msgId ∈ run.consumer.pendingAck →
      msgId ∈ next.consumer.pendingAck)
    (placed : next.Placed world.processed after.pendingIds) : Frontier after where
  positive msgId member := frontier.positive msgId (subset member)
  ahead := by
    rw [processed]
    exact fun first set later member => frontier.ahead first set later (subset member)
  waiting := by
    rw [processed]
    intro msgId set member
    obtain ⟨other, same, waiting⟩ := frontier.waiting msgId set (subset member)
    obtain rfl := Option.some.inj (live.symm.trans same)
    exact ⟨next, now, waits msgId member waiting⟩
  placed := by
    rw [processed]
    exact World.forRun now placed

/-- A step that acknowledges a snapshot and keeps every other id that waits. -/
theorem Frontier.acked (frontier : Frontier world) {snapshot : List MsgId}
    (pending : after.pendingIds = (world.ack snapshot).pendingIds)
    (processed : after.processed = world.processed) (live : world.run = some run)
    (now : after.run = some next)
    (waits : ∀ msgId ∈ run.consumer.pendingAck, msgId ∉ snapshot → msgId ∈ next.consumer.pendingAck)
    (placed : after.pendingIds ⊆ world.pendingIds → next.Placed world.processed after.pendingIds) :
    Frontier after := by
  rw [pendingIds_ack] at pending
  have fewer : after.pendingIds ⊆ world.pendingIds := by
    rw [pending]
    exact List.filter_subset_self _
  refine frontier.shrink fewer processed live now ?_ (placed fewer)
  intro msgId member waiting
  rw [pending, List.mem_filter, decide_eq_true_iff] at member
  exact waits msgId waiting member.2

/-- A step of the process that leaves the group and the keys as they are. -/
theorem Frontier.turn (frontier : Frontier world) (pending : after.pendingIds = world.pendingIds)
    (processed : after.processed = world.processed) (live : world.run = some run)
    (now : after.run = some next)
    (pendingAck : next.consumer.pendingAck = run.consumer.pendingAck)
    (placed : run.Placed world.processed world.pendingIds →
      next.Placed world.processed world.pendingIds) : Frontier after := by
  refine frontier.shrink (pending ▸ List.Subset.refl _) processed live now ?_
    (pending ▸ placed (frontier.placed run live))
  rw [pendingAck]
  exact fun _ _ waiting => waiting

/-- A step behind which no process runs, or one that starts, when nothing waits. -/
theorem Frontier.restart (frontier : Frontier world) (pending : after.pendingIds = world.pendingIds)
    (processed : after.processed = world.processed)
    (settled : ∀ run, world.run = some run → run.consumer.pendingAck = [])
    (fresh : ∀ run, after.run = some run → run.reader = .starting) : Frontier after := by
  have nothing : ∀ msgId ∈ world.processed, msgId ∉ world.pendingIds := by
    intro msgId set member
    obtain ⟨run, live, waiting⟩ := frontier.waiting msgId set member
    rw [settled run live] at waiting
    cases waiting
  refine ⟨pending ▸ frontier.positive, ?_, ?_, ?_⟩
  · rw [pending, processed]
    exact frontier.ahead
  · rw [pending, processed]
    exact fun msgId set member => absurd member (nothing msgId set)
  · rw [pending, processed]
    intro run live
    refine placed_drained (by rw [fresh run live]; rfl) (by rw [fresh run live]; rfl) ?_
    intro msgId member
    exact ⟨fun _ => frontier.positive msgId member, fun _ set => nothing msgId set member⟩

end Rules

section Steps

variable {deployment : Deployment} {start world after : World}

theorem EnvironmentStep.frontier (step : EnvironmentStep deployment world after)
    (frontier : Frontier world) : Frontier after := by
  have pending : after.pendingIds = world.pendingIds := by cases step <;> rfl
  have processed : after.processed = world.processed := by cases step <;> rfl
  have run : after.run = world.run := by cases step <;> rfl
  obtain ⟨positive, ahead, waiting, placed⟩ := frontier
  refine ⟨?_, ?_, ?_, ?_⟩
  all_goals simpa only [pending, processed, run]

theorem LifecycleStep.frontier (step : LifecycleStep deployment world after)
    (settled : ∀ run, world.run = some run → run.reader = .ended ∨ after.run = none →
      run.consumer.pendingAck = []) (frontier : Frontier world) : Frontier after := by
  cases step with
  | start none opened =>
      refine frontier.restart rfl rfl ?_ (World.forRun rfl rfl)
      rw [none]
      exact fun run live => by cases live
  | rerun live ended =>
      exact frontier.restart rfl rfl (World.forRun live (settled _ live (Or.inl ended)))
        (World.forRun rfl rfl)
  | requestStop live =>
      refine frontier.turn rfl rfl live rfl rfl ?_
      exact fun placed => placed.congr rfl rfl (fun _ => rfl) rfl
  | _ =>
      refine frontier.restart rfl rfl (fun run live => settled run live (Or.inr rfl)) ?_
      exact fun run live => by cases live

/-- The flush task runs only behind the drain. -/
theorem DrainFacts.place_drained (facts : DrainFacts deployment start world) {run : Run}
    (live : world.run = some run) (active : run.flusher ≠ .absent) (lastId : MsgId) :
    run.reader.place ≠ .draining lastId := by
  intro place
  refine active (facts.absent live rfl ?_)
  cases phase : run.reader with
  | starting => rfl
  | draining lastId => rfl
  | batching origin batch | applying origin batch applied | setting origin applied =>
      cases origin with
      | drain lastId => rfl
      | loop =>
          rw [phase] at place
          cases place
  | _ =>
      rw [phase] at place
      cases place

/-- A run whose read task is in its loop is not behind its final flush. -/
theorem place_running {phase : ReaderPhase} (running : phase.running = true)
    (snapshot : List MsgId) : phase.place ≠ .settling snapshot := by
  intro place
  cases phase with
  | finalAcking other => cases running
  | batching origin batch | applying origin batch applied | setting origin applied =>
      cases origin <;> cases place
  | _ => cases place

theorem FlusherStep.frontier (step : FlusherStep deployment world after)
    (facts : DrainFacts deployment start world)
    (snapshots : ∀ run, world.run = some run → Snapshots run) (frontier : Frontier world) :
    Frontier after := by
  have acking : ∀ (run : Run) (snapshot : List MsgId), world.run = some run →
      run.reader.running = true → run.flusher = .acking snapshot → ∀ next : Run,
      after.run = some next → after.processed = world.processed →
      after.pendingIds = (world.ack snapshot).pendingIds → next.reader = run.reader →
      next.consumer.stopEvent = run.consumer.stopEvent →
      (∀ msgId ∈ run.consumer.pendingAck, msgId ∉ snapshot → msgId ∈ next.consumer.pendingAck) →
      Frontier after := by
    intro run snapshot live turn phase next now processed pending reader stop waits
    have drained := facts.place_drained live (by rw [phase]; exact fun absent => by cases absent)
    exact frontier.acked pending processed live now waits fun fewer =>
      (frontier.placed run live).shrink drained (place_running turn) fewer reader stop
  have quiet : ∀ run : Run, world.run = some run → ∀ next : Run, after.run = some next →
      after.pendingIds = world.pendingIds → after.processed = world.processed →
      next.reader = run.reader → next.consumer.stopEvent = run.consumer.stopEvent →
      next.consumer.pendingAck = run.consumer.pendingAck → Frontier after := by
    intro run live next now pending processed reader stop pendingAck
    refine frontier.turn pending processed live now pendingAck ?_
    exact fun placed => placed.congr (by rw [reader]) (by rw [reader]) (fun stopped => stop ▸ stopped)
      pendingAck
  cases step with
  | @acked run snapshot live turn phase =>
      refine acking run snapshot live turn phase _ rfl rfl rfl rfl rfl ?_
      obtain ⟨rest, shape⟩ := (snapshots run live).flusher snapshot phase
      intro msgId member outside
      rw [← shape] at member
      simp only [Consumer.trim, ← shape, List.drop_left]
      exact (List.mem_append.mp member).resolve_left outside
  | @ackLost run snapshot live turn phase =>
      exact acking run snapshot live turn phase _ rfl rfl rfl rfl rfl fun _ member _ => member
  | wake live turn phase running => exact quiet _ live _ rfl rfl rfl rfl rfl rfl
  | stopped live turn phase stopped => exact quiet _ live _ rfl rfl rfl rfl rfl rfl
  | nothingPending live turn phase settled => exact quiet _ live _ rfl rfl rfl rfl rfl rfl
  | flushed live turn phase unsettled outcome succeeded =>
      exact quiet _ live _ rfl rfl rfl rfl rfl rfl
  | notFlushed live turn phase unsettled outcome failed =>
      exact quiet _ live _ rfl rfl rfl rfl rfl rfl
  | ackFailed live turn phase => exact quiet _ live _ rfl rfl rfl rfl rfl rfl

theorem CleanupStep.frontier (step : CleanupStep deployment world after)
    (frontier : Frontier world) : Frontier after := by
  cases step with
  | @acked run snapshot live phase =>
      have placed := frontier.placed run live
      simp only [Run.Placed, phase, ReaderPhase.place] at placed
      refine frontier.acked rfl rfl live rfl ?_ fun _ => placed_over rfl _ _
      exact fun msgId waiting outside => absurd (placed ▸ waiting) outside
  | ackLost live phase =>
      exact frontier.acked rfl rfl live rfl (fun _ waiting _ => waiting) fun _ => placed_over rfl _ _
  | flusherAckLost live phase acking =>
      exact frontier.acked rfl rfl live rfl (fun _ waiting _ => waiting) fun _ =>
        placed_over (by rw [phase]; rfl) _ _
  | flushed live phase alive unsettled outcome succeeded =>
      exact frontier.turn rfl rfl live rfl rfl fun _ => rfl
  | flusherFailed live phase failed =>
      exact frontier.turn rfl rfl live rfl rfl fun _ => placed_over rfl _ _
  | nothingPending live phase alive settled =>
      exact frontier.turn rfl rfl live rfl rfl fun _ => placed_over rfl _ _
  | notFlushed live phase alive unsettled outcome failed =>
      exact frontier.turn rfl rfl live rfl rfl fun _ => placed_over rfl _ _
  | ackFailed live phase => exact frontier.turn rfl rfl live rfl rfl fun _ => placed_over rfl _ _
  | closed live phase outcome deleted =>
      exact frontier.turn rfl rfl live rfl rfl fun _ => placed_over rfl _ _
  | cancelled live cleaning =>
      exact frontier.turn rfl rfl live rfl rfl fun _ => placed_over rfl _ _

/-- The last id of a sorted batch is its greatest. -/
theorem getLastD_greatest {ids : List MsgId} (sorted : ids.Pairwise (· < ·)) (nonempty : ids ≠ [])
    (default : MsgId) : ids.getLastD default ∈ ids ∧ ∀ msgId ∈ ids, msgId ≤ ids.getLastD default := by
  obtain ⟨front, last, rfl⟩ := (List.eq_nil_or_concat' ids).resolve_left nonempty
  rw [List.getLastD_concat]
  refine ⟨List.mem_append_right _ List.mem_cons_self, ?_⟩
  intro msgId member
  rcases List.mem_append.mp member with early | final
  · exact ((List.pairwise_append.mp sorted).2.2 msgId early last List.mem_cons_self).le
  · exact (List.mem_singleton.mp final).le

/-- A drain that reads on holds the next pending ids. -/
theorem Frontier.drainRead (frontier : Frontier world) (ordered : StreamOrdered world) {run next : Run}
    {lastId : MsgId} {group : Group} (live : world.run = some run)
    (phase : run.reader = .draining lastId) (present : world.group = some group)
    {first : MsgId × Option MessageFields} {others : Batch}
    (batch : world.pendingBatch deployment group lastId = first :: others)
    (reader : next.reader = .batching (.drain ((first :: others).getLastD first).1) (first :: others)) :
    next.Placed world.processed world.pendingIds := by
  have placed := (frontier.placed run live).drained (by rw [phase]; rfl) (by rw [phase]; rfl)
  rw [pendingIds_some present] at placed ⊢
  have ids : (group.pending.filter fun msgId => lastId < msgId).take deployment.batchCount =
      first.1 :: others.map Prod.fst := by
    have mapped := congrArg (List.map Prod.fst) batch
    simpa [World.pendingBatch, Function.comp_def] using mapped
  have last : ((first :: others).getLastD first).1 =
      (first.1 :: others.map Prod.fst).getLastD first.1 := by
    simp only [List.getLastD_eq_getLast?]
    rw [← List.map_cons, List.getLast?_map]
    simp
  have sorted : (group.pending.filter fun msgId => lastId < msgId).Pairwise (· < ·) :=
    (ordered.group group present).sorted.sublist List.filter_sublist
  have inside : ∀ msgId ∈ first.1 :: others.map Prod.fst,
      msgId ∈ group.pending ∧ lastId < msgId := by
    intro msgId member
    rw [← ids] at member
    simpa using List.mem_of_mem_take member
  obtain ⟨among, greatest⟩ := getLastD_greatest (ids ▸ sorted.sublist (List.take_sublist _ _))
    (List.cons_ne_nil _ _) first.1
  rw [← last] at among greatest
  refine (placed_draining (by rw [reader]; rfl) (by rw [reader]; rfl)).mpr
    ⟨fun msgId member => ⟨(inside msgId member).1, greatest msgId member⟩, ?_⟩
  intro msgId pending
  rw [placed msgId pending]
  constructor
  · intro behind
    rw [last]
    exact take_covers sorted ids (List.mem_filter.mpr ⟨pending, by simpa using behind⟩)
  · rintro (here | behind)
    · exact (inside msgId here).2
    · exact (inside _ among).2.trans behind

/-- A drain that finds nothing left has signalled every pending message. -/
theorem Frontier.drainEnd (frontier : Frontier world) {run : Run} {lastId : MsgId} {group : Group}
    (live : world.run = some run) (phase : run.reader = .draining lastId)
    (present : world.group = some group) (counted : 0 < deployment.batchCount)
    (empty : world.pendingBatch deployment group lastId = []) :
    ∀ msgId ∈ world.pendingIds, msgId ∈ world.processed := by
  have placed := (frontier.placed run live).drained (by rw [phase]; rfl) (by rw [phase]; rfl)
  intro msgId pending
  by_contra unset
  have behind := (placed msgId pending).mp unset
  rw [pendingIds_some present] at pending
  have left : msgId ∈ group.pending.filter fun msgId => lastId < msgId :=
    List.mem_filter.mpr ⟨pending, by simpa using behind⟩
  have nothing := List.map_eq_nil_iff.mp empty
  rcases List.take_eq_nil_iff.mp nothing with zero | none
  · omega
  · rw [none] at left
    cases left

/-- The read loop receives new messages when every pending message is signalled. -/
theorem Frontier.read (frontier : Frontier world) (ordered : StreamOrdered world)
    (arrivals : Arrivals world) (signalled : Signalled world) {run next : Run} {group : Group}
    (live : world.run = some run) (phase : run.reader = .reading)
    (running : run.consumer.stopEvent = false) (present : world.group = some group)
    (moved : after.group = some (group.deliver (world.newBatch deployment group)))
    (processed : after.processed = world.processed) (now : after.run = some next)
    (reader : next.reader = .checking ((world.newBatch deployment group).map fun entry =>
      (entry.id, some entry.fields)))
    (pendingAck : next.consumer.pendingAck = run.consumer.pendingAck) : Frontier after := by
  have placed := frontier.placed run live
  simp only [Run.Placed, phase, ReaderPhase.place, running, Bool.false_eq_true, false_or] at placed
  have pending : after.pendingIds =
      world.pendingIds ++ (world.newBatch deployment group).map StreamEntry.id := by
    simp [World.pendingIds, present, moved, Group.deliver]
  have delivered : ∀ msgId ∈ world.processed, msgId ≤ group.lastDelivered := by
    intro msgId set
    obtain ⟨own, inside, named, _⟩ := signalled.processed msgId set
    obtain ⟨other, same, within⟩ := arrivals.records own inside
    obtain rfl := Option.some.inj (present.symm.trans same)
    exact named ▸ within
  have behind : ∀ msgId ∈ (world.newBatch deployment group).map StreamEntry.id,
      group.lastDelivered < msgId := by
    intro msgId member
    obtain ⟨entry, fresh, rfl⟩ := List.mem_map.mp member
    exact of_decide_eq_true (List.mem_filter.mp (newBatch_undelivered fresh)).2
  refine ⟨?_, ?_, ?_, ?_⟩
  · rw [pending]
    intro msgId member
    rcases List.mem_append.mp member with old | new
    · exact frontier.positive msgId old
    · obtain ⟨entry, fresh, rfl⟩ := List.mem_map.mp new
      exact ordered.positive entry (ordered.recent.subset
        (List.mem_filter.mp (newBatch_undelivered fresh)).1)
  · rw [pending, processed]
    intro first set later member unset
    rcases List.mem_append.mp member with old | new
    · exact absurd (placed later old) unset
    · exact (delivered first set).trans_lt (behind later new)
  · rw [pending, processed]
    intro msgId set member
    rcases List.mem_append.mp member with old | new
    · obtain ⟨other, same, waits⟩ := frontier.waiting msgId set old
      obtain rfl := Option.some.inj (live.symm.trans same)
      exact ⟨next, now, pendingAck ▸ waits⟩
    · exact absurd (delivered msgId set) (not_le.mpr (behind msgId new))
  · rw [pending, processed]
    have held : next.reader.held = (world.newBatch deployment group).map StreamEntry.id := by
      rw [reader]
      simp [ReaderPhase.held, ReaderPhase.applied, ReaderPhase.batch, Function.comp_def]
    refine World.forRun now ((placed_looping (by rw [reader]; rfl) held).mpr ?_)
    intro msgId member
    constructor
    · intro unset
      exact (List.mem_append.mp member).resolve_left fun old => unset (placed msgId old)
    · intro new set
      exact absurd (delivered msgId set) (not_le.mpr (behind msgId new))

/-- The keys of a whole batch are set. -/
theorem Frontier.keysSet (frontier : Frontier world) {run next : Run} {origin : BatchOrigin}
    {applied : List MsgId} (live : world.run = some run)
    (phase : run.reader = .setting origin applied) (group : after.group = world.group)
    (processed : after.processed = world.processed ++ applied) (now : after.run = some next)
    (reader : next.reader = origin.next)
    (pendingAck : next.consumer.pendingAck = run.consumer.pendingAck ++ applied) :
    Frontier after := by
  have pending : after.pendingIds = world.pendingIds := by
    unfold World.pendingIds
    rw [group]
  have placed := frontier.placed run live
  have held : run.reader.held = applied := by
    rw [phase]
    exact List.append_nil applied
  refine ⟨pending ▸ frontier.positive, ?_, ?_, ?_⟩
  · rw [pending, processed]
    intro first set later member unset
    rw [List.mem_append, not_or] at unset
    rcases List.mem_append.mp set with old | new
    · exact frontier.ahead first old later member unset.1
    · cases origin with
      | drain lastId =>
          obtain ⟨inside, left⟩ := (placed_draining (by rw [phase]; rfl) held).mp placed
          have behind := ((left later member).mp unset.1).resolve_left unset.2
          exact (inside first new).2.trans_lt behind
      | loop =>
          have left := (placed_looping (by rw [phase]; rfl) held).mp placed
          exact absurd ((left later member).mp unset.1) unset.2
  · rw [pending, processed]
    intro msgId set member
    refine ⟨next, now, ?_⟩
    rw [pendingAck]
    rcases List.mem_append.mp set with old | new
    · obtain ⟨other, same, waits⟩ := frontier.waiting msgId old member
      obtain rfl := Option.some.inj (live.symm.trans same)
      exact List.mem_append_left _ waits
    · exact List.mem_append_right _ new
  · rw [pending, processed]
    refine World.forRun now ?_
    cases origin with
    | drain lastId =>
        obtain ⟨inside, left⟩ := (placed_draining (by rw [phase]; rfl) held).mp placed
        refine placed_drained (by rw [reader]; rfl) (by rw [reader]; rfl) ?_
        intro msgId member
        rw [List.mem_append, not_or]
        constructor
        · rintro ⟨unset, outside⟩
          exact ((left msgId member).mp unset).resolve_left outside
        · intro behind
          exact ⟨(left msgId member).mpr (Or.inr behind), fun among =>
            absurd behind (not_lt.mpr (inside msgId among).2)⟩
    | loop =>
        have left := (placed_looping (by rw [phase]; rfl) held).mp placed
        simp only [Run.Placed, reader, BatchOrigin.next, ReaderPhase.place, List.mem_append]
        refine Or.inr fun msgId member => ?_
        by_contra unset
        rw [not_or] at unset
        exact unset.2 ((left msgId member).mp unset.1)

/-- A step of the read task keeps the keys in the order of the stream. -/
theorem ReaderStep.frontier (step : ReaderStep deployment world after) (frontier : Frontier world)
    (ordered : StreamOrdered world) (arrivals : Arrivals world) (signalled : Signalled world)
    (smooth : world.Smooth deployment)
    (whole : ∀ run next origin applied, world.run = some run → run.reader = .setting origin applied →
      after.run = some next → next.reader ≠ origin.next → after.processed = world.processed) :
    Frontier after := by
  have same : ∀ run : Run, world.run = some run → ∀ next : Run, after.run = some next →
      after.pendingIds = world.pendingIds → after.processed = world.processed →
      next.consumer.pendingAck = run.consumer.pendingAck →
      next.consumer.stopEvent = run.consumer.stopEvent → next.reader.place = run.reader.place →
      next.reader.held = run.reader.held → Frontier after := by
    intro run live next now pending processed pendingAck stop place held
    refine frontier.turn pending processed live now pendingAck ?_
    exact fun placed => placed.congr place held (fun stopped => stop ▸ stopped) pendingAck
  have unpaused : ∀ run : Run, world.run = some run → run.reader.place ≠ .paused := by
    intro run live place
    have placed := frontier.placed run live
    simp only [Run.Placed, place] at placed
  have clear : world.paused deployment ≠ true := by
    rw [smooth.1]
    exact Bool.false_ne_true
  cases step with
  | @ensureGroup run live phase =>
      refine same run live _ rfl ?_ rfl rfl rfl (by rw [phase]; rfl) (by rw [phase]; rfl)
      cases present : world.group <;> simp [World.pendingIds, present]
  | drainStopped live phase stopped =>
      exact frontier.turn rfl rfl live rfl rfl fun _ => Or.inl stopped
  | drainRead live phase running present counted batch =>
      exact frontier.turn rfl rfl live rfl rfl fun _ =>
        frontier.drainRead ordered live phase present batch rfl
  | drainEnd live phase running present counted empty =>
      exact frontier.turn rfl rfl live rfl rfl fun _ =>
        Or.inr (frontier.drainEnd live phase present counted empty)
  | @announce run live phase refreshed =>
      exact same run live _ rfl rfl rfl rfl rfl (by rw [phase]; rfl) (by rw [phase]; rfl)
  | leave live phase stopped =>
      exact frontier.turn rfl rfl live rfl rfl fun _ => placed_over rfl _ _
  | read live phase running present counted =>
      exact frontier.read ordered arrivals signalled live phase running present rfl rfl rfl rfl rfl
  | @checkClear run batch live phase clear =>
      exact same run live _ rfl rfl rfl rfl rfl (by rw [phase]; rfl) (by rw [phase]; rfl)
  | checkPaused live phase paused settled => exact absurd paused clear
  | checkFlushed live phase paused unsettled outcome flushed => exact absurd paused clear
  | checkNotFlushed live phase paused unsettled outcome failed => exact absurd paused clear
  | pauseAcked live phase => exact absurd (by rw [phase]; rfl) (unpaused _ live)
  | pauseAckLost live phase => exact absurd (by rw [phase]; rfl) (unpaused _ live)
  | parkedRefresh live phase => exact absurd (by rw [phase]; rfl) (unpaused _ live)
  | parkedStopped live phase stopped => exact absurd (by rw [phase]; rfl) (unpaused _ live)
  | resume live phase clear => exact absurd (by rw [phase]; rfl) (unpaused _ live)
  | @refresh run batch live phase refreshed =>
      cases batch with
      | nil =>
          exact frontier.turn rfl rfl live rfl rfl fun placed =>
            Or.inr (placed.signalled (by rw [phase]; rfl) (by rw [phase]; rfl))
      | cons entry rest =>
          exact same run live _ rfl rfl rfl rfl rfl (by rw [phase]; rfl) (by rw [phase]; rfl)
  | @startBatch run origin batch live phase room =>
      refine same run live _ rfl rfl rfl rfl rfl ?_ (by rw [phase]; rfl)
      rw [phase]
      cases origin <;> rfl
  | @applyReturns run origin msgId fields rest applied outcome consumer shared live phase returned =>
      have frame := @apply_frame deployment.externals run.consumer world.shared msgId fields
      obtain ⟨other, memory, succeeded⟩ := smooth.2 run origin msgId fields rest applied live phase
      rw [returned] at frame succeeded
      obtain rfl : outcome = true := by
        injection congrArg Prod.fst succeeded
      refine same run live _ rfl rfl rfl frame.pendingAck frame.stopEvent ?_ ?_
      · rw [phase]
        cases origin <;> rfl
      · rw [phase]
        simp [ReaderPhase.held, ReaderPhase.applied, ReaderPhase.batch]
  | @applyRaises run origin msgId fields rest applied exception consumer shared live phase raised =>
      obtain ⟨other, memory, succeeded⟩ := smooth.2 run origin msgId fields rest applied live phase
      rw [raised] at succeeded
      cases congrArg Prod.fst succeeded
  | @batchRefused run origin live phase =>
      cases origin with
      | drain lastId =>
          exact same run live _ rfl rfl rfl rfl rfl (by rw [phase]; rfl) (by rw [phase]; rfl)
      | loop =>
          exact frontier.turn rfl rfl live rfl rfl fun placed =>
            Or.inr (placed.signalled (by rw [phase]; rfl) (by rw [phase]; rfl))
  | @batchApplied run origin applied live phase some =>
      refine same run live _ rfl rfl rfl rfl rfl ?_ (by rw [phase]; rfl)
      rw [phase]
      cases origin <;> rfl
  | keysSet live phase => exact frontier.keysSet live phase rfl rfl rfl rfl rfl
  | @keysFailed run origin applied live phase keys among =>
      refine frontier.turn rfl (whole run _ origin applied live phase rfl ?_) live rfl rfl fun _ =>
        placed_over (raised_place run) _ _
      intro same
      have ended := raised_place run
      rw [show run.raised.reader = origin.next from same] at ended
      cases origin <;> cases ended
  | @raises run live running =>
      exact frontier.turn rfl rfl live rfl rfl fun _ => placed_over (raised_place run) _ _

/-- The start has no pending id and no key. -/
theorem World.Initial.frontier (initial : start.Initial deployment) : Frontier start := by
  have nothing : start.pendingIds = [] := by simp [World.pendingIds, initial.group]
  refine ⟨?_, ?_, ?_, ?_⟩
  · rw [nothing]
    exact fun msgId member => absurd member List.not_mem_nil
  · rw [nothing]
    exact fun first set later member => absurd member List.not_mem_nil
  · rw [nothing]
    exact fun msgId set member => absurd member List.not_mem_nil
  · rw [initial.run]
    exact fun run live => by cases live

/-- A drain that meets the frontier replays only messages without a key. -/
theorem Frontier.replaysForward (frontier : Frontier world) : ReplaysForward deployment world := by
  intro run lastId msgId fields rest applied live phase record inside set same
  obtain ⟨inside, left⟩ :=
    (placed_draining (by rw [phase]; rfl) rfl).mp (frontier.placed run live)
  have held : msgId ∈ run.reader.held := by
    rw [phase]
    exact List.mem_append_right _ List.mem_cons_self
  have pending := (inside msgId held).1
  exact (frontier.ahead record.msgId set msgId pending ((left msgId pending).mpr (Or.inl held))).le

/-- A step of a graceful history keeps the keys in the order of the stream. -/
theorem GracefulStep.frontier (graceful : GracefulStep deployment world after)
    (facts : DrainFacts deployment start world) (signalled : Signalled world)
    (snapshots : ∀ run, world.run = some run → Snapshots run) (frontier : Frontier world) :
    Frontier after := by
  obtain ⟨step, smooth, whole, settled⟩ := graceful
  cases step with
  | environment step => exact step.frontier frontier
  | consumer step =>
      cases step with
      | lifecycle step => exact step.frontier settled frontier
      | reader step =>
          exact step.frontier frontier facts.ordered facts.arrivals signalled smooth whole
      | cleanup step => exact step.frontier frontier
      | flusher step => exact step.frontier facts snapshots frontier

/-- A graceful history is one in which no drain goes back behind a set key. -/
theorem graceful_run (initial : start.Initial deployment)
    (steps : Relation.ReflTransGen (GracefulStep deployment) start world) :
    Relation.ReflTransGen (ForwardStep deployment) start world ∧ Frontier world ∧
      ∀ run, world.run = some run → Snapshots run := by
  induction steps with
  | refl =>
      refine ⟨.refl, initial.frontier, ?_⟩
      rw [initial.run]
      exact fun run live => by cases live
  | @tail world after before graceful ih =>
      obtain ⟨forward, frontier, snapshots⟩ := ih
      obtain ⟨facts, signalled⟩ := forward_run initial forward
      refine ⟨forward.tail ⟨graceful.step, frontier.replaysForward⟩,
        graceful.frontier facts signalled snapshots frontier, ?_⟩
      refine graceful.step.trimEffect.snapshots ?_ snapshots
      rintro ⟨run, next, batch, snapshot, other, live, pausing, _⟩
      have placed := frontier.placed run live
      simp only [Run.Placed, pausing, ReaderPhase.place] at placed

end Steps

section Served

variable {Object : Type} {pydantic : Pydantic Object} {deployment : Deployment} {start world : World}

/-- Read-your-writes survives every restart with nothing pending, and a final flush whose XACK
returns leaves nothing pending. -/
theorem graceful_serves (initial : start.Initial deployment)
    (steps : Relation.ReflTransGen (GracefulStep deployment) start world)
    (lossless : deployment.externals.RoundTrips)
    (converts : ∀ served ∈ deployment.schemas, ∀ field ∈ served.2.fields, field.shape ≠ [] →
      deployment.externals.ConvertsLists)
    (producers : ProducedBy deployment pydantic world.produced) :
    (∀ entry ∈ world.produced, entry.id ∈ world.processed → ∀ schema entityId values,
      WrittenEntry deployment pydantic entry schema entityId values →
        ServesWrite deployment pydantic start world entry schema entityId) ∧
    (∀ group, world.group = some group → ∀ first ∈ world.processed, ∀ later ∈ group.pending,
      later ∉ world.processed → first < later) ∧
    ∀ run snapshot, world.run = some run → run.reader = .finalAcking snapshot →
      (run.consumer.trim snapshot).pendingAck = [] := by
  obtain ⟨forward, frontier, _⟩ := graceful_run initial steps
  obtain ⟨facts, signalled⟩ := forward_run initial forward
  have packed := packed_of_steps initial
    (Relation.ReflTransGen.mono (fun _ _ step => And.left step) _ _ forward)
  refine ⟨?_, ?_, ?_⟩
  · intro entry stored processed schema entityId values written
    exact signalled.serves facts packed lossless converts producers stored processed written
  · intro group present first set later member unset
    exact frontier.ahead first set later (pendingIds_some present ▸ member) unset
  · intro run snapshot live phase
    have placed := frontier.placed run live
    simp only [Run.Placed, phase, ReaderPhase.place] at placed
    rw [Consumer.trim, placed]
    exact List.drop_length

end Served

section Sample

/-- A step of a process that goes on and is not in the middle of a batch. -/
theorem graceful_of_run {deployment : Deployment} {world after : World} {run next : Run}
    (step : WorldStep deployment world after) (live : world.run = some run)
    (now : after.run = some next) (smooth : world.Smooth deployment)
    (unset : ∀ origin applied, run.reader = .setting origin applied → next.reader = origin.next)
    (running : run.reader.running = true ∨ ∃ origin batch applied,
      run.reader = .applying origin batch applied) : GracefulStep deployment world after where
  step := step
  smooth := smooth
  whole := by
    intro before later origin applied same setting turned moved
    obtain rfl := Option.some.inj (live.symm.trans same)
    obtain rfl := Option.some.inj (now.symm.trans turned)
    exact absurd (unset origin applied setting) moved
  settled := by
    intro other same stops
    obtain rfl := Option.some.inj (live.symm.trans same)
    rcases stops with ended | none
    · rw [ended] at running
      rcases running with active | ⟨origin, batch, applied, phase⟩
      · cases active
      · cases phase
    · rw [now] at none
      cases none

/-- A process may start where none runs. -/
theorem graceful_start {deployment : Deployment} {world : World} (absent : world.run = none)
    (clear : world.paused deployment = false)
    (opened : ∀ entry ∈ deployment.schemas, ∃ segmentName,
      openCurrent deployment.externals world.current world.shared entry.1 entry.2 =
        .reopened segmentName) :
    GracefulStep deployment world { world with
      drained := false
      run := some ⟨freshConsumer deployment world.current, .starting, .absent, [], []⟩ } where
  step := .consumer (.lifecycle (.start absent opened))
  smooth := by
    refine ⟨clear, ?_⟩
    intro run origin msgId fields rest applied live
    rw [absent] at live
    cases live
  whole := by
    intro run next origin applied live
    rw [absent] at live
    cases live
  settled := by
    intro run live
    rw [absent] at live
    cases live

/-- A process with no pending ids may crash between two reads. -/
theorem graceful_crash {deployment : Deployment} {world : World} {run : Run}
    (live : world.run = some run) (phase : run.reader = .reading)
    (settled : run.consumer.pendingAck = []) (clear : world.paused deployment = false) :
    GracefulStep deployment world { world with run := none } where
  step := .consumer (.lifecycle .crash)
  smooth := smooth_of_run live clear (by simp [phase])
  whole := by
    intro other next origin applied _ _ now
    cases now
  settled := by
    intro other same _
    obtain rfl := Option.some.inj (live.symm.trans same)
    exact settled

/-- A process applies the one message of its batch and sets its key. -/
theorem gracefulApply_steps {deployment : Deployment} {world : World} {run : Run} {entry : StreamEntry}
    {consumer : Consumer} {shared : SharedMemory} (live : world.run = some run)
    (phase : run.reader = .applying .loop [(entry.id, some entry.fields)] [])
    (clear : world.paused deployment = false)
    (returned : apply deployment.externals run.consumer world.shared entry.id (some entry.fields) =
      (.ok true, consumer, shared)) :
    Relation.ReflTransGen (GracefulStep deployment) world
      { world with
        shared := shared
        inserted := (executedInsert deployment run.consumer world.shared entry.id
          (some entry.fields)).toList ++ world.inserted
        processed := world.processed ++ [entry.id]
        run := some { run with
          consumer := { consumer with pendingAck := consumer.pendingAck ++ [entry.id] }
          reader := .reading
          passed := run.passed ++ [entry.id] } } := by
  refine .head (graceful_of_run (.consumer (.reader (.applyReturns live phase returned))) live rfl
    (smooth_of_apply live clear phase returned) (by simp [phase]) (Or.inr ⟨_, _, _, phase⟩)) ?_
  refine .head (graceful_of_run (.consumer (.reader (.batchApplied rfl rfl (by simp)))) rfl rfl
    (smooth_of_run rfl clear (by simp)) (by simp) (Or.inr ⟨_, _, _, rfl⟩)) ?_
  exact .head (graceful_of_run (.consumer (.reader (.keysSet rfl rfl))) rfl rfl
    (smooth_of_run rfl clear (by simp)) (by simp) (Or.inl rfl)) .refl

/-- The sample process starts, applies the first message and sets its key. -/
theorem sampleGraceful_steps : ∃ consumer written rowData,
    SampleServing consumer written [⟨"a", rowData⟩] ∧ consumer.stopEvent = false ∧
    consumer.offline.Convertible sampleExternals ∧
    Relation.ReflTransGen (GracefulStep sampleDeployment) sampleWorld
      (sampleConsumed sampleFirst consumer written rowData) := by
  obtain ⟨consumer, written, rowData, applied, _, offline⟩ :=
    sampleFirst_apply (sampleOffered_serving sampleFirst) (by simp [presentIds])
  have begun := Relation.ReflTransGen.single
    (@graceful_start sampleDeployment sampleWorld rfl rfl (sampleOffered_serving sampleFirst).opened)
  have grouped := begun.tail (graceful_of_run (.consumer (.reader (.ensureGroup rfl rfl))) rfl rfl
    (smooth_of_run rfl rfl (by simp)) (by simp) (Or.inl rfl))
  have drained := grouped.tail (graceful_of_run (.consumer (.reader (.drainEnd rfl rfl rfl rfl
    (by decide) rfl))) rfl rfl (smooth_of_run rfl rfl (by simp)) (by simp) (Or.inl rfl))
  have announced := drained.tail (graceful_of_run (.consumer (.reader (.announce rfl rfl false))) rfl
    rfl (smooth_of_run rfl rfl (by simp)) (by simp) (Or.inl rfl))
  have offered := announced.tail (graceful_of_run (.environment (.xadd sampleFirst (by decide)
    (fun other member => absurd member List.not_mem_nil))) rfl rfl (smooth_of_run rfl rfl (by simp))
    (by simp) (Or.inl rfl))
  have read := offered.tail (graceful_of_run (.consumer (.reader (.read rfl rfl rfl rfl
    (by decide)))) rfl rfl (smooth_of_run rfl rfl (by simp)) (by simp) (Or.inl rfl))
  have checked := read.tail (graceful_of_run (.consumer (.reader (.checkClear rfl rfl rfl))) rfl rfl
    (smooth_of_run rfl rfl (by simp)) (by simp) (Or.inl rfl))
  have refreshed := checked.tail (graceful_of_run (.consumer (.reader (.refresh rfl rfl false))) rfl rfl
    (smooth_of_run rfl rfl (by simp)) (by simp) (Or.inl rfl))
  have batched := refreshed.tail (graceful_of_run (.consumer (.reader (.startBatch rfl rfl
    (Or.inl (by decide))))) rfl rfl (smooth_of_run rfl rfl fun _ _ _ _ phase => by cases phase)
    (fun _ _ phase => by cases phase) (Or.inl rfl))
  have applying : Relation.ReflTransGen (GracefulStep sampleDeployment) sampleWorld
      { sampleOffered sampleFirst with
        group := some ⟨sampleFirst.id, [sampleFirst.id]⟩
        run := some ⟨freshConsumer sampleDeployment sampleWorld.current,
          .applying .loop [(sampleFirst.id, some sampleFirst.fields)] [], .waiting, [sampleFirst.id],
          []⟩ } := batched
  have processed := applying.trans (gracefulApply_steps rfl rfl rfl applied.returned)
  have executed : executedInsert sampleDeployment (freshConsumer sampleDeployment sampleWorld.current)
      (sampleOffered sampleFirst).shared sampleFirst.id (some sampleFirst.fields) =
      some ⟨sampleFirst.id, "segment", ⟨"a", rowData⟩⟩ := applied.executed
  simp only [executed, show consumer.pendingAck = [] from applied.pendingAck] at processed
  refine ⟨consumer, written, rowData, applied.serving, applied.stopEvent, ?_, processed⟩
  rw [offline]
  exact sample_convertible (OfflineStore.empty_sound sampleExternals true) sampleEmpty_convertible rfl
    rfl rfl

/-- The score of the sample message is served behind its acknowledgement, a crash and a restart. -/
theorem graceful_serves_sample : ∃ (world : World) (run : Run), world.run = some run ∧
    run.reader = .starting ∧ world.processed = [MsgId.of 1 0] ∧ world.acked = [MsgId.of 1 0] ∧
    ServesWrite sampleDeployment samplePydantic sampleWorld world sampleFirst sampleSchema "a" := by
  obtain ⟨consumer, written, rowData, serving, running, convertible, steps⟩ := sampleGraceful_steps
  have woken := steps.tail (graceful_of_run (.consumer (.flusher (.wake rfl rfl rfl running))) rfl rfl
    (smooth_of_run rfl rfl (by simp)) (by simp) (Or.inl rfl))
  have flushed := woken.tail (graceful_of_run (.consumer (.flusher (@FlusherStep.flushed
    sampleDeployment _ ⟨{ consumer with pendingAck := [MsgId.of 1 0] }, .reading, .renewing, _, _⟩ rfl
    rfl rfl (by simp) (fun _ => .renamed) (flush_succeeds_iff.mpr convertible)))) rfl rfl
    (smooth_of_run rfl rfl (by simp)) (by simp) (Or.inl rfl))
  have acked := flushed.tail (graceful_of_run (.consumer (.flusher (.acked rfl rfl rfl))) rfl rfl
    (smooth_of_run rfl rfl (by simp [Run.flushed])) (by simp [Run.flushed]) (Or.inl rfl))
  have crashed := acked.tail (graceful_crash rfl rfl rfl rfl)
  have restarted := crashed.tail (graceful_start rfl rfl serving.opened)
  exact ⟨_, _, rfl, rfl, rfl, rfl, (graceful_serves sampleWorld_initial restarted
    sampleExternals_roundTrips sample_convertsLists
    (producedBy_of_written sampleFirst_producers)).1 sampleFirst List.mem_cons_self List.mem_cons_self
    sampleSchema "a" _ sampleFirst_written⟩

end Sample

end Quorin
