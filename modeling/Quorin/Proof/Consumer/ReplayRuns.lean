import Mathlib.Data.List.MinMax
import Quorin.Proof.Consumer.LastWrite

namespace Quorin

open ByteMemory

section Records

variable {deployment : Deployment} {start world after : World}

/-- A new record overtakes the newer records of its entity and hides the older ones. -/
theorem Overtaken.cons {inserted : List InsertRecord} {record other : InsertRecord}
    (overtaken : Overtaken (record :: inserted) other) :
    (other.target = record.target ∧ LastRecord inserted other ∧ record.msgId < other.msgId) ∨
      (other.target ≠ record.target ∧ Overtaken inserted other) := by
  obtain ⟨⟨member, last⟩, newest, found, older⟩ := overtaken
  have before : other ∈ inserted → LastRecord inserted other :=
    fun old => ⟨old, fun third listed => last third (List.mem_cons_of_mem _ listed)⟩
  by_cases same : record.target = other.target
  · rw [newestRecord, List.find?_cons_of_pos (by simpa using same)] at found
    obtain rfl := Option.some.inj found
    rcases List.mem_cons.mp member with rfl | old
    · exact absurd older (lt_irrefl _)
    · exact Or.inl ⟨same.symm, before old, older⟩
  · rw [newestRecord, List.find?_cons_of_neg (by simpa using same)] at found
    rcases List.mem_cons.mp member with rfl | old
    · exact absurd rfl same
    · exact Or.inr ⟨Ne.symm same, before old, newest, found, older⟩

/-- An entity with an executed insert has a last one. -/
theorem exists_lastRecord {inserted : List InsertRecord} {record : InsertRecord}
    (member : record ∈ inserted) :
    ∃ last, LastRecord inserted last ∧ last.target = record.target := by
  have own : record ∈ inserted.filter fun other => other.target = record.target :=
    List.mem_filter.mpr ⟨member, by simp⟩
  cases found : (inserted.filter fun other => other.target = record.target).argmax
      InsertRecord.msgId with
  | none =>
      rw [List.argmax_eq_none.mp found] at own
      cases own
  | some last =>
      obtain ⟨listed, same⟩ := List.mem_filter.mp (List.argmax_mem found)
      have target : last.target = record.target := of_decide_eq_true same
      refine ⟨last, ⟨listed, ?_⟩, target⟩
      intro other inside sameOther
      refine List.le_of_mem_argmax (List.mem_filter.mpr ⟨inside, ?_⟩) found
      simpa [target] using sameOther

/-- The message of a record writes to the segment and the entity of the record. -/
theorem RecordOf.target {entry : StreamEntry} {record : InsertRecord} {message : DecodedMessage}
    (recordOf : RecordOf deployment start entry record message) {consumer : Consumer}
    (home : AtHome deployment start consumer) :
    consumer.target deployment.externals entry.fields = some record.target := by
  simp [Consumer.target, home.schemas, recordOf.decoded, home.segments _ _ recordOf.home,
    InsertRecord.target, recordOf.entity]

/-- A record of a message that is replayed belongs to the entity that the replay writes to. -/
theorem Homely.record_target (homely : Homely deployment start world) (ordered : StreamOrdered world)
    {run : Run} (live : world.run = some run) {entry : StreamEntry} (stored : entry ∈ world.produced)
    {record : InsertRecord} (member : record ∈ world.inserted) (same : record.msgId = entry.id) :
    run.consumer.target deployment.externals entry.fields = some record.target ∧
      ∃ message, RecordOf deployment start entry record message := by
  obtain ⟨origin, known, message, recordOf⟩ := homely.records record member
  obtain rfl := ordered.unique known stored (recordOf.named.trans same)
  exact ⟨recordOf.target (homely.run run live), message, recordOf⟩

end Records

section Drain

variable {deployment : Deployment} {start world after : World} {run next : Run} {group : Group}
  {lastId : MsgId}

/-- A drain that leaves the first message of its batch behind. -/
theorem Replaying.advance {msgId : MsgId} {fields : Option MessageFields} {rest : Batch}
    (replaying : Replaying deployment world run group (msgId :: rest.map Prod.fst) lastId)
    (batch : run.reader.batch = (msgId, fields) :: rest) (turned : next.reader.batch = rest)
    (present : after.group = world.group)
    (safe : ∀ entry ∈ rest, ReplaySafe deployment after.inserted next.consumer group entry)
    (ahead : ∀ record, Overtaken after.inserted record → record.msgId ≠ msgId ∧
      (record.msgId ∈ msgId :: rest.map Prod.fst ∨ lastId < record.msgId)) :
    Replaying deployment after next group (rest.map Prod.fst) lastId := by
  obtain ⟨first, sorted⟩ := List.pairwise_cons.mp replaying.sorted
  have later : ∀ {other}, other ∈ msgId :: rest.map Prod.fst ∨ lastId < other → other ≠ msgId →
      other ∈ rest.map Prod.fst ∨ lastId < other := by
    intro other place different
    exact place.imp_left fun member => (List.mem_cons.mp member).resolve_left different
  refine ⟨present.trans replaying.present, ?_, ?_, sorted, ?_, ?_, ?_⟩
  · rw [turned]
    exact safe
  · rw [turned]
    intro front back held gone kept
    refine replaying.trimmed front back held ?_ ?_ <;> rw [batch]
    · exact List.mem_cons_of_mem _ gone
    · exact List.mem_cons_of_mem _ kept
  · exact fun other member => replaying.held other (List.mem_cons_of_mem _ member)
  · intro front member other pending within
    have early := first front member
    exact later (replaying.covers front (List.mem_cons_of_mem _ member) other pending within)
      (early.trans_le within).ne'
  · intro record overtaken
    obtain ⟨different, place⟩ := ahead record overtaken
    exact later place different

/-- A drain that skips a trimmed entry leaves overtaken rows only ahead of itself. -/
theorem Replaying.skip {msgId : MsgId} {rest : Batch}
    (replaying : Replaying deployment world run group (msgId :: rest.map Prod.fst) lastId)
    (batch : run.reader.batch = (msgId, none) :: rest) (turned : next.reader.batch = rest)
    (schemas : next.consumer.schemas = run.consumer.schemas)
    (segments : next.consumer.segments = run.consumer.segments)
    (present : after.group = world.group) (inserted : after.inserted = world.inserted) :
    Replaying deployment after next group (rest.map Prod.fst) lastId := by
  refine replaying.advance batch turned present ?_ ?_
  · intro entry member
    rw [inserted]
    refine (replaying.safe entry ?_).congr schemas segments
    rw [batch]
    exact List.mem_cons_of_mem _ member
  · rw [inserted]
    intro record overtaken
    refine ⟨?_, replaying.ahead record overtaken⟩
    refine replaying.safe (msgId, none) ?_ record overtaken
    rw [batch]
    exact List.mem_cons_self

/-- A drain that applies its next message leaves overtaken rows only ahead of itself. -/
theorem Replaying.apply {msgId : MsgId} {fields : MessageFields} {rest : Batch}
    (initial : start.Initial deployment) (homely : Homely deployment start world)
    (durable : Durable deployment world) (ordered : StreamOrdered world)
    (live : world.run = some run)
    (replaying : Replaying deployment world run group (msgId :: rest.map Prod.fst) lastId)
    (batch : run.reader.batch = (msgId, some fields) :: rest)
    (turned : next.reader.batch = rest)
    (schemas : next.consumer.schemas = run.consumer.schemas)
    (segments : next.consumer.segments = run.consumer.segments)
    (present : after.group = world.group)
    (inserted : after.inserted =
      (executedInsert deployment run.consumer world.shared msgId (some fields)).toList ++
        world.inserted) :
    Replaying deployment after next group (rest.map Prod.fst) lastId := by
  obtain ⟨first, _⟩ := List.pairwise_cons.mp replaying.sorted
  have here : (msgId, some fields) ∈ run.reader.batch := by
    rw [batch]
    exact List.mem_cons_self
  have stored : StreamEntry.mk msgId fields ∈ world.produced :=
    (durable.run run live).batch msgId fields here
  refine replaying.advance batch turned present ?_ ?_
  · rintro ⟨other, held⟩ member
    have inside : (other, held) ∈ run.reader.batch := by
      rw [batch]
      exact List.mem_cons_of_mem _ member
    have behind : msgId < other := first other (List.mem_map_of_mem member)
    cases held with
    | none => exact absurd (replaying.trimmed other msgId fields inside here) behind.not_gt
    | some held =>
        intro record last same newer
        rw [inserted] at last
        rcases List.mem_append.mp last.1 with new | old
        · exact absurd (executedInsert_msgId new ▸ newer) behind.not_gt
        · refine replaying.safe (other, some held) inside record ⟨old, ?_⟩ ?_ newer
          · exact fun third listed => last.2 third (List.mem_append_right _ listed)
          · rw [← same]
            simp [Consumer.target, schemas, segments]
  · intro other overtaken
    rw [inserted] at overtaken
    cases executed : executedInsert deployment run.consumer world.shared msgId (some fields) with
    | none =>
        rw [executed] at overtaken
        have before : Overtaken world.inserted other := overtaken
        refine ⟨?_, replaying.ahead other before⟩
        intro same
        obtain ⟨_, message, recordOf⟩ :=
          homely.record_target ordered live stored before.1.1 same
        exact executedInsert_again initial homely live before.1.1 recordOf executed
    | some record =>
        rw [executed] at overtaken
        obtain ⟨message, recordOf⟩ :=
          executedInsert_recordOf (homely.run run live) initial.served executed
        have target := recordOf.target (homely.run run live)
        have named : msgId = record.msgId := recordOf.named
        rcases Overtaken.cons overtaken with ⟨same, last, newer⟩ | ⟨different, before⟩
        · rw [← named] at newer
          have pending := replaying.safe (msgId, some fields) here other last
            (target.trans (congrArg some same.symm)) newer
          exact ⟨newer.ne', replaying.covers msgId List.mem_cons_self _ pending newer.le⟩
        · refine ⟨?_, replaying.ahead other before⟩
          intro same
          have again := (homely.record_target ordered live stored before.1.1 same).1
          exact different (Option.some.inj (again.symm.trans target))

/-- A drain starts in front of every pending message. -/
theorem Replaying.begin (homely : Homely deployment start world) (ordered : StreamOrdered world)
    (present : after.group = some (world.group.getD ⟨MsgId.of 0 0, []⟩))
    (inserted : after.inserted = world.inserted) (batch : next.reader.batch = []) :
    Replaying deployment after next (world.group.getD ⟨MsgId.of 0 0, []⟩) [] (MsgId.of 0 0) where
  present := present
  safe := by
    rw [batch]
    exact fun _ member => absurd member List.not_mem_nil
  trimmed := by
    rw [batch]
    exact fun _ _ _ member => absurd member List.not_mem_nil
  sorted := List.Pairwise.nil
  held := fun _ member => absurd member List.not_mem_nil
  covers := fun _ member => absurd member List.not_mem_nil
  ahead := by
    rw [inserted]
    intro record overtaken
    obtain ⟨entry, stored, message, recordOf⟩ := homely.records record overtaken.1.1
    exact Or.inr (recordOf.named ▸ ordered.positive entry stored)

/-- The last id of a sorted batch separates the batch from the ids that are left. -/
theorem take_covers {ids : List MsgId} (sorted : ids.Pairwise (· < ·)) {count : Nat} {first : MsgId}
    {others : List MsgId} (taken : ids.take count = first :: others) {msgId : MsgId}
    (member : msgId ∈ ids) :
    msgId ∈ first :: others ∨ (first :: others).getLastD first < msgId := by
  rw [← List.take_append_drop count ids] at sorted member
  rcases List.mem_append.mp member with early | late
  · exact Or.inl (taken ▸ early)
  · right
    refine (List.pairwise_append.mp sorted).2.2 _ ?_ msgId late
    rw [taken, List.getLastD_eq_getLast?, List.getLast?_eq_some_getLast (List.cons_ne_nil _ _)]
    exact List.getLast_mem _

/-- A drain reads on behind its last id. -/
theorem Replaying.read {first : MsgId × Option MessageFields} {others : Batch}
    (ordered : StreamOrdered world) (before : Pursued deployment world)
    (replaying : Replaying deployment world run group [] lastId)
    (taken : world.pendingBatch deployment group lastId = first :: others)
    (safe : ∀ entry ∈ world.pendingBatch deployment group lastId,
      ReplaySafe deployment world.inserted run.consumer group entry)
    (present : after.group = world.group) (inserted : after.inserted = world.inserted)
    (batch : next.reader.batch = first :: others) (consumer : next.consumer = run.consumer) :
    Replaying deployment after next group ((first :: others).map Prod.fst)
      ((first :: others).getLastD first).1 := by
  have ids : ((group.pending.filter fun msgId => lastId < msgId).take deployment.batchCount) =
      first.1 :: others.map Prod.fst := by
    have mapped := congrArg (List.map Prod.fst) taken
    simpa [World.pendingBatch, Function.comp_def] using mapped
  have last : ((first :: others).getLastD first).1 =
      (first.1 :: others.map Prod.fst).getLastD first.1 := by
    simp only [List.getLastD_eq_getLast?]
    rw [← List.map_cons, List.getLast?_map]
    simp
  have sorted : (group.pending.filter fun msgId => lastId < msgId).Pairwise (· < ·) :=
    (ordered.group group replaying.present).sorted.sublist List.filter_sublist
  have inside : ∀ msgId ∈ first.1 :: others.map Prod.fst,
      msgId ∈ group.pending ∧ lastId < msgId := by
    intro msgId member
    rw [← ids] at member
    simpa using List.mem_of_mem_take member
  have covers : ∀ msgId ∈ group.pending, lastId < msgId →
      msgId ∈ first.1 :: others.map Prod.fst ∨
        ((first :: others).getLastD first).1 < msgId := by
    intro msgId pending behind
    rw [last]
    exact take_covers sorted ids (List.mem_filter.mpr ⟨pending, by simpa using behind⟩)
  refine ⟨present.trans replaying.present, ?_, ?_, ?_, ?_, ?_, ?_⟩
  · rw [batch, inserted, consumer, ← taken]
    exact safe
  · rw [batch, ← taken]
    intro front back fields gone kept
    obtain ⟨trimmed, pending, same⟩ := List.mem_map.mp gone
    obtain ⟨rfl, absent⟩ := Prod.mk.inj same
    obtain ⟨stored, _, shape⟩ := List.mem_map.mp kept
    obtain ⟨rfl, found⟩ := Prod.mk.inj shape
    obtain ⟨entry, search, _⟩ := Option.map_eq_some_iff.mp found
    have named : entry.id = stored := by simpa using List.find?_some search
    exact named ▸ ordered.trimmed_lt replaying.present
      (List.mem_filter.mp (List.mem_of_mem_take pending)).1 absent
      (List.mem_of_find?_eq_some search)
  · rw [List.map_cons, ← ids]
    exact sorted.sublist (List.take_sublist _ _)
  · exact fun msgId member => (inside msgId member).1
  · intro front member msgId pending within
    exact covers msgId pending ((inside front member).2.trans_le within)
  · rw [inserted]
    intro record overtaken
    have behind := (replaying.ahead record overtaken).resolve_left List.not_mem_nil
    obtain ⟨old, same, pending⟩ := before.pending record overtaken
    obtain rfl := Option.some.inj (same.symm.trans replaying.present)
    exact covers _ pending behind

/-- A drain that finds nothing left has replayed every overtaken row. -/
theorem Replaying.finish (before : Pursued deployment world)
    (replaying : Replaying deployment world run group [] lastId)
    (counted : 0 < deployment.batchCount)
    (empty : world.pendingBatch deployment group lastId = []) :
    ∀ record, ¬ Overtaken world.inserted record := by
  intro record overtaken
  have behind := (replaying.ahead record overtaken).resolve_left List.not_mem_nil
  obtain ⟨old, same, pending⟩ := before.pending record overtaken
  obtain rfl := Option.some.inj (same.symm.trans replaying.present)
  have left : record.msgId ∈ old.pending.filter fun msgId => lastId < msgId :=
    List.mem_filter.mpr ⟨pending, by simpa using behind⟩
  rw [World.pendingBatch, List.map_eq_nil_iff, List.take_eq_nil_iff] at empty
  rcases empty with zero | none
  · omega
  · rw [none] at left
    cases left

end Drain

section Steps

variable {deployment : Deployment} {start world after : World}

/-- In a drained world every new record is the newest of its entity. -/
theorem BatchEffect.unovertaken (effect : BatchEffect deployment world after)
    (arrivals : Arrivals world)
    (gated : ∀ run, world.run = some run → Gated world.drained run) (drained : world.drained = true)
    (before : ∀ record, ¬ Overtaken world.inserted record) :
    ∀ record, ¬ Overtaken after.inserted record := by
  cases effect with
  | idle inserted empty =>
      rw [inserted]
      exact before
  | kept live now inserted batch kept =>
      rw [inserted]
      exact before
  | received now inserted present turned batch received =>
      rw [inserted]
      exact before
  | replayed now inserted present batch none =>
      rw [inserted]
      exact before
  | @applied run next origin msgId fields rest early later live now phase turned inserted =>
      rw [inserted]
      intro other overtaken
      cases executed : executedInsert deployment run.consumer world.shared msgId fields with
      | none =>
          rw [executed] at overtaken
          exact before other overtaken
      | some record =>
          have named : record.msgId = msgId :=
            @executedInsert_msgId deployment run.consumer world.shared msgId fields record
              (by rw [executed]; exact List.mem_cons_self)
          rw [executed] at overtaken
          rcases Overtaken.cons overtaken with ⟨_, last, newer⟩ | ⟨_, old⟩
          · have newest := arrivals.newer run live
            have closed := gated run live
            rw [phase] at newest
            simp only [Gated, phase] at closed
            cases origin with
            | drain lastId => exact absurd (closed.2.symm.trans drained) (by simp)
            | loop =>
                have older := newest msgId List.mem_cons_self other last.1
                rw [named] at newer
                exact absurd (older.trans newer) (lt_irrefl _)
          · exact before other old

theorem ReaderStep.drained_kept (step : ReaderStep deployment world after)
    (drained : world.drained = true) : after.drained = true := by
  cases step with
  | drainEnd live phase running present counted empty => rfl
  | _ => exact drained

/-- A world that is drained stays without overtaken rows until the next drain. -/
theorem ReaderStep.pursued_drained (step : ReaderStep deployment world after)
    (arrivals : Arrivals world)
    (gated : ∀ run, world.run = some run → Gated world.drained run) (drained : world.drained = true)
    (before : Pursued deployment world) : Pursued deployment after :=
  pursued_of_none (step.batchEffect.unovertaken arrivals gated drained (before.settled drained))
    (still_of_gated (step.gated gated) (step.drained_kept drained))

/-- Behind the drain the read task serves until it enters its end. -/
theorem drainStage_serving {phase : ReaderPhase} (running : phase.running = true)
    (behind : phase.gate ≠ .draining) : phase.drainStage = .serving := by
  cases phase with
  | batching origin batch =>
      cases origin with
      | drain lastId => exact absurd rfl behind
      | loop => rfl
  | setting origin applied =>
      cases origin with
      | drain lastId => exact absurd rfl behind
      | loop => rfl
  | starting => exact absurd rfl behind
  | draining lastId => exact absurd rfl behind
  | applying origin batch applied => cases running
  | ended => cases running
  | _ => rfl

theorem raised_still (run : Run) (left : List MsgId) (lastId : MsgId) :
    run.raised.reader.drainStage ≠ .replaying left lastId := by
  unfold Run.raised
  cases run.flusher <;> exact fun stage => by cases stage

/-- An exception during the drain ends the run without an acknowledgement. -/
theorem Pursued.abandoned (before : Pursued deployment world) {run : Run}
    (absent : run.flusher = .absent) (now : after.run = some run.raised)
    (inserted : after.inserted = world.inserted) (drained : after.drained = world.drained)
    (group : after.group = world.group) : Pursued deployment after := by
  refine before.rest inserted (fun held => drained ▸ held) group (World.forRun now ?_)
  rw [raised_absent absent]
  rfl

/-- A step behind the drain that acknowledges nothing. -/
theorem Pursued.quiet (before : Pursued deployment world) {run next : Run}
    (live : world.run = some run) (now : after.run = some next)
    (inserted : after.inserted = world.inserted) (drained : after.drained = world.drained)
    (waiting : next.waiting ⊆ run.waiting) (group : after.group = world.group)
    (serving : run.reader.drainStage = .serving)
    (later : ∀ left lastId, next.reader.drainStage ≠ .replaying left lastId) :
    Pursued deployment after :=
  (Settling.quiet live now inserted drained waiting group).pursued before serving later

/-- A drain in progress, seen from its read task. -/
theorem Pursued.replaying (before : Pursued deployment world) {run : Run}
    (live : world.run = some run) {phase : ReaderPhase} (here : run.reader = phase)
    {left : List MsgId} {lastId : MsgId} (stage : phase.drainStage = .replaying left lastId) :
    ∃ group, Replaying deployment world run group left lastId := by
  have held := before.run run live
  rw [RunPursued, here, stage] at held
  exact held

/-- A drain that goes on keeps the overtaken rows ahead of it. -/
theorem pursued_draining {next : Run} {left : List MsgId} {lastId : MsgId} {group : Group}
    (now : after.run = some next)
    (stage : next.reader.drainStage = .replaying left lastId)
    (replaying : Replaying deployment after next group left lastId)
    (pending : ∀ record, Overtaken after.inserted record →
      ∃ group, after.group = some group ∧ record.msgId ∈ group.pending)
    (undrained : after.drained = false) : Pursued deployment after where
  pending := pending
  settled := fun drained => absurd (undrained.symm.trans drained) (by simp)
  run := by
    refine World.forRun now ?_
    rw [RunPursued, stage]
    exact ⟨group, replaying⟩

/-- The facts about a world that a drain rests on. -/
structure DrainFacts (deployment : Deployment) (start world : World) : Prop where
  initial : start.Initial deployment
  durable : Durable deployment world
  ordered : StreamOrdered world
  homely : Homely deployment start world
  arrivals : Arrivals world
  gated : ∀ run, world.run = some run → Gated world.drained run

theorem DrainFacts.step (facts : DrainFacts deployment start world)
    (step : WorldStep deployment world after) : DrainFacts deployment start after where
  initial := facts.initial
  durable := step.durable facts.durable
  ordered := step.streamEffect.ordered facts.ordered
  homely := step.homely facts.initial facts.durable facts.homely
  arrivals := step.batchEffect.arrivals step.streamEffect facts.ordered facts.arrivals
  gated := step.gated facts.gated

/-- The gate of a phase that belongs to the drain holds the flush task back. -/
theorem DrainFacts.absent (facts : DrainFacts deployment start world) {run : Run}
    (live : world.run = some run) {phase : ReaderPhase} (here : run.reader = phase)
    (gate : phase.gate = .draining) : run.flusher = .absent := by
  have closed := facts.gated run live
  rw [Gated, here, gate] at closed
  exact closed.1

/-- The read loop of an undrained world does not run. -/
theorem DrainFacts.not_looping (facts : DrainFacts deployment start world)
    (undrained : world.drained = false) {run : Run} (live : world.run = some run)
    {phase : ReaderPhase} (here : run.reader = phase) : phase.gate ≠ .looping := by
  intro gate
  have closed := facts.gated run live
  rw [Gated, here, gate] at closed
  exact absurd (undrained.symm.trans closed) (by simp)

/-- A step of the drain that leaves the inserts and the group as they are. -/
theorem Pursued.handOver (before : Pursued deployment world) (undrained : world.drained = false)
    {run next : Run} (live : world.run = some run) {phase : ReaderPhase} (here : run.reader = phase)
    {left : List MsgId} {lastId : MsgId} (stage : phase.drainStage = .replaying left lastId)
    (now : after.run = some next) (nextStage : next.reader.drainStage = .replaying left lastId)
    (batch : next.reader.batch ⊆ phase.batch)
    (schemas : next.consumer.schemas = run.consumer.schemas)
    (segments : next.consumer.segments = run.consumer.segments)
    (inserted : after.inserted = world.inserted) (group : after.group = world.group)
    (drained : after.drained = world.drained) : Pursued deployment after := by
  obtain ⟨held, replaying⟩ := before.replaying live here stage
  refine pursued_draining now nextStage (replaying.congr group inserted ?_ schemas segments) ?_
    (drained.trans undrained)
  · rw [here]
    exact batch
  · rw [inserted, group]
    exact before.pending

/-- The drain applies its next message. -/
theorem Pursued.drainApply (facts : DrainFacts deployment start world)
    (before : Pursued deployment world) (undrained : world.drained = false) {run next : Run}
    (live : world.run = some run) {lastId msgId : MsgId} {fields : MessageFields} {rest : Batch}
    {applied later : List MsgId}
    (phase : run.reader = .applying (.drain lastId) ((msgId, some fields) :: rest) applied)
    (now : after.run = some next) (turned : next.reader = .applying (.drain lastId) rest later)
    (schemas : next.consumer.schemas = run.consumer.schemas)
    (segments : next.consumer.segments = run.consumer.segments)
    (group : after.group = world.group) (drained : after.drained = world.drained)
    (inserted : after.inserted =
      (executedInsert deployment run.consumer world.shared msgId (some fields)).toList ++
        world.inserted) :
    Pursued deployment after := by
  obtain ⟨held, replaying⟩ := before.replaying live phase rfl
  have applied : Replaying deployment after next held (rest.map Prod.fst) lastId :=
    replaying.apply facts.initial facts.homely facts.durable facts.ordered live (by rw [phase]; rfl)
      (by rw [turned]; rfl) schemas segments group inserted
  refine pursued_draining now (by rw [turned]; rfl) applied ?_ (drained.trans undrained)
  intro other overtaken
  rw [group]
  rw [inserted] at overtaken
  cases executed : executedInsert deployment run.consumer world.shared msgId (some fields) with
  | none =>
      rw [executed] at overtaken
      exact before.pending other overtaken
  | some record =>
      rw [executed] at overtaken
      rcases Overtaken.cons overtaken with ⟨same, last, newer⟩ | ⟨_, old⟩
      · obtain ⟨message, recordOf⟩ :=
          executedInsert_recordOf (facts.homely.run run live) facts.initial.served executed
        have target := recordOf.target (facts.homely.run run live)
        rw [← recordOf.named] at newer
        refine ⟨held, replaying.present, ?_⟩
        refine replaying.safe (msgId, some fields) ?_ other last
          (target.trans (congrArg some same.symm)) newer
        rw [phase]
        exact List.mem_cons_self
      · exact before.pending other old

/-- The drain skips a trimmed entry. -/
theorem Pursued.drainSkip (before : Pursued deployment world) (undrained : world.drained = false)
    {run next : Run} (live : world.run = some run) {lastId msgId : MsgId} {rest : Batch}
    {applied later : List MsgId}
    (phase : run.reader = .applying (.drain lastId) ((msgId, none) :: rest) applied)
    (now : after.run = some next) (turned : next.reader = .applying (.drain lastId) rest later)
    (schemas : next.consumer.schemas = run.consumer.schemas)
    (segments : next.consumer.segments = run.consumer.segments)
    (group : after.group = world.group) (drained : after.drained = world.drained)
    (inserted : after.inserted = world.inserted) : Pursued deployment after := by
  obtain ⟨held, replaying⟩ := before.replaying live phase rfl
  have skipped : Replaying deployment after next held (rest.map Prod.fst) lastId :=
    replaying.skip (by rw [phase]; rfl) (by rw [turned]; rfl) schemas segments group inserted
  refine pursued_draining now (by rw [turned]; rfl) skipped ?_ (drained.trans undrained)
  rw [inserted, group]
  exact before.pending

/-- A drain that is stopped leaves no overtaken row among the ids that wait. -/
theorem Pursued.drainStopped (facts : DrainFacts deployment start world)
    (before : Pursued deployment world) (safe : StopSafe world) {run : Run} {lastId : MsgId}
    (live : world.run = some run) (phase : run.reader = .draining lastId)
    (stopped : run.consumer.stopEvent = true) :
    Pursued deployment (world.withRun { run with reader := .announcing }) := by
  have absent := facts.absent live phase rfl
  refine ⟨before.pending, before.settled, World.forRun rfl ?_⟩
  intro record overtaken waits
  refine safe run lastId live phase stopped record overtaken ?_
  simpa [Run.waiting, ReaderPhase.snapshot, absent, FlusherPhase.snapshot] using waits

/-- A step of the drain, or behind a drain that was stopped. -/
theorem ReaderStep.pursued_undrained (step : ReaderStep deployment world after)
    (facts : DrainFacts deployment start world) (drainSafe : DrainSafe deployment world)
    (stopSafe : StopSafe world) (undrained : world.drained = false)
    (before : Pursued deployment world) : Pursued deployment after := by
  have never : ∀ {run : Run}, world.run = some run → ∀ {phase : ReaderPhase},
      run.reader = phase → phase.gate = .looping → Pursued deployment after :=
    fun live _ here gate => absurd gate (facts.not_looping undrained live here)
  cases step with
  | ensureGroup live phase =>
      refine pursued_draining rfl rfl (Replaying.begin facts.homely facts.ordered rfl rfl rfl) ?_
        undrained
      intro record overtaken
      obtain ⟨group, present, pending⟩ := before.pending record overtaken
      refine ⟨group, ?_, pending⟩
      simp [present]
  | drainStopped live phase stopped => exact before.drainStopped facts stopSafe live phase stopped
  | @drainRead run lastId group live phase running present counted first others batch =>
      obtain ⟨held, replaying⟩ := before.replaying live phase rfl
      obtain rfl := Option.some.inj (present.symm.trans replaying.present)
      have safe := drainSafe run group lastId live phase running present
      exact pursued_draining rfl rfl (replaying.read facts.ordered before batch safe rfl rfl rfl rfl)
        before.pending undrained
  | drainEnd live phase running present counted empty =>
      obtain ⟨held, replaying⟩ := before.replaying live phase rfl
      obtain rfl := Option.some.inj (present.symm.trans replaying.present)
      have none := replaying.finish before counted empty
      exact pursued_of_none none (World.forRun rfl fun _ _ stage => by cases stage)
  | @announce run live phase refreshed =>
      refine before.quiet live rfl rfl rfl ?_ rfl (by rw [phase]; rfl) fun _ _ stage => by cases stage
      exact waiting_subset (List.Subset.refl _) (List.nil_subset _) (List.nil_subset _)
  | @leave run live phase stopped =>
      refine before.quiet live rfl rfl rfl ?_ rfl (by rw [phase]; rfl) fun _ _ stage => by cases stage
      exact waiting_subset (List.Subset.refl _) (List.nil_subset _) (flusherSnapshot_waiting run)
  | read live phase running present counted =>
      have closed := facts.gated _ live
      simp only [Gated, phase, ReaderPhase.gate, running, undrained, Bool.false_eq_true,
        or_self] at closed
  | checkClear live phase clear => exact never live phase rfl
  | checkPaused live phase paused settled => exact never live phase rfl
  | checkFlushed live phase paused unsettled outcome flushed => exact never live phase rfl
  | checkNotFlushed live phase paused unsettled outcome failed => exact never live phase rfl
  | pauseAcked live phase => exact never live phase rfl
  | pauseAckLost live phase => exact never live phase rfl
  | parkedRefresh live phase => exact never live phase rfl
  | parkedStopped live phase stopped => exact never live phase rfl
  | resume live phase clear => exact never live phase rfl
  | refresh live phase refreshed => exact never live phase rfl
  | @startBatch run origin batch live phase room =>
      cases origin with
      | drain lastId =>
          exact before.handOver undrained live phase rfl rfl rfl (List.Subset.refl _) rfl rfl rfl rfl
            rfl
      | loop => exact never live phase rfl
  | @applyReturns run origin msgId fields rest applied outcome consumer shared live phase returned =>
      cases origin with
      | drain lastId =>
          have frame := @apply_frame deployment.externals run.consumer world.shared msgId fields
          rw [returned] at frame
          cases fields with
          | none =>
              exact before.drainSkip undrained live phase rfl rfl frame.schemas frame.segments rfl rfl
                rfl
          | some fields =>
              exact before.drainApply facts undrained live phase rfl rfl frame.schemas frame.segments
                rfl rfl rfl
      | loop => exact never live phase rfl
  | @applyRaises run origin msgId fields rest applied exception consumer shared live phase raised =>
      cases origin with
      | drain lastId =>
          have absent := facts.absent live phase rfl
          refine before.abandoned ?_ rfl rfl rfl rfl
          exact absent
      | loop => exact never live phase rfl
  | @batchRefused run origin live phase =>
      cases origin with
      | drain lastId =>
          exact before.handOver undrained live phase rfl rfl rfl (List.nil_subset _) rfl rfl rfl rfl
            rfl
      | loop => exact never live phase rfl
  | @batchApplied run origin applied live phase some =>
      cases origin with
      | drain lastId =>
          exact before.handOver undrained live phase rfl rfl rfl (List.nil_subset _) rfl rfl rfl rfl
            rfl
      | loop => exact never live phase rfl
  | @keysSet run origin applied live phase =>
      cases origin with
      | drain lastId =>
          exact before.handOver undrained live phase rfl rfl rfl (List.nil_subset _) rfl rfl rfl rfl
            rfl
      | loop => exact never live phase rfl
  | @keysFailed run origin applied live phase keys among =>
      cases origin with
      | drain lastId =>
          exact before.abandoned (facts.absent live phase rfl) rfl rfl rfl rfl
      | loop => exact never live phase rfl
  | @raises run live running =>
      by_cases gate : run.reader.gate = .draining
      · exact before.abandoned (facts.absent live rfl gate) rfl rfl rfl rfl
      · exact before.quiet live rfl rfl rfl (raised_waiting run) rfl (drainStage_serving running gate)
          (raised_still run)

theorem FlusherStep.pursued (step : FlusherStep deployment world after)
    (facts : DrainFacts deployment start world) (before : Pursued deployment world) :
    Pursued deployment after := by
  obtain ⟨run, next, settling, active, reader, _, running⟩ := step.settling
  have serving : run.reader.drainStage = .serving := by
    refine drainStage_serving running ?_
    intro gate
    exact active (facts.absent settling.live rfl gate)
  refine settling.pursued before serving ?_
  rw [reader, serving]
  exact fun _ _ stage => by cases stage

theorem CleanupStep.pursued (step : CleanupStep deployment world after)
    (before : Pursued deployment world) : Pursued deployment after := by
  have still : ∀ run, after.run = some run → ∀ left lastId,
      run.reader.drainStage ≠ .replaying left lastId := by
    cases step with
    | flusherAckLost live phase acking =>
        refine World.forRun rfl ?_
        rw [phase]
        exact fun _ _ stage => by cases stage
    | _ => exact World.forRun rfl fun _ _ stage => by cases stage
  obtain ⟨run, next, settling, cleaning⟩ := step.settling
  refine settling.pursued before ?_ (still next settling.now)
  cases phase : run.reader <;> rw [phase] at cleaning <;> first | rfl | cases cleaning

/-- Every guarded step keeps the overtaken rows ahead of the next acknowledgement. -/
theorem ReplaySafeStep.pursued (step : ReplaySafeStep deployment world after)
    (facts : DrainFacts deployment start world) (before : Pursued deployment world) :
    Pursued deployment after := by
  obtain ⟨step, drainSafe, stopSafe⟩ := step
  cases step with
  | environment step => exact step.pursued before
  | consumer step =>
      cases step with
      | lifecycle step => exact step.pursued before
      | reader step =>
          cases drained : world.drained with
          | true => exact step.pursued_drained facts.arrivals facts.gated drained before
          | false => exact step.pursued_undrained facts drainSafe stopSafe drained before
      | cleanup step => exact step.pursued before
      | flusher step => exact step.pursued facts before

theorem World.Initial.drainFacts (initial : start.Initial deployment) :
    DrainFacts deployment start start where
  initial := initial
  durable := initial.durable
  ordered := initial.streamOrdered
  homely := initial.homely
  arrivals := initial.arrivals
  gated := by
    rw [initial.run]
    exact fun run live => by cases live

theorem World.Initial.pursued (initial : start.Initial deployment) : Pursued deployment start := by
  have none : ∀ record, ¬ Overtaken start.inserted record := by
    rw [initial.inserted]
    exact fun record overtaken => absurd overtaken.1.1 List.not_mem_nil
  refine pursued_of_none none ?_
  rw [initial.run]
  exact fun run live => by cases live

/-- The overtaken rows stay ahead of the drain over a whole run of guarded steps. -/
theorem replaySafe_run (initial : start.Initial deployment)
    (steps : Relation.ReflTransGen (ReplaySafeStep deployment) start world) :
    DrainFacts deployment start world ∧ Pursued deployment world := by
  induction steps with
  | refl => exact ⟨initial.drainFacts, initial.pursued⟩
  | tail _ step ih => exact ⟨ih.1.step step.1, step.pursued ih.1 ih.2⟩

end Steps

/-- A plain step reads no pending entry and stops no drain. -/
theorem PlainStep.replaySafe {deployment : Deployment} {before after : World}
    (step : PlainStep deployment before after) : ReplaySafeStep deployment before after := by
  obtain ⟨step, plain⟩ := step
  refine ⟨step, ?_, ?_⟩
  · intro run group lastId live phase _ present entry member
    rw [World.pendingBatch, (plain run live).2.2 lastId phase group present] at member
    simp at member
  · intro run lastId live _ stopped
    rw [(plain run live).1] at stopped
    cases stopped

/-- A step of a smooth history that is guarded when the given entry is safe to read, and forward when
its replay is. -/
structure ReplayStep (deployment : Deployment) (safe ahead : Prop) (before after : World) : Prop where
  smooth : SmoothStep deployment before after
  safe : safe → ReplaySafeStep deployment before after
  forward : ahead → ForwardStep deployment before after

theorem replayStep_of_absent {deployment : Deployment} {safe ahead : Prop} {before after : World}
    (step : WorldStep deployment before after) (absent : before.run = none)
    (clear : before.paused deployment = false) : ReplayStep deployment safe ahead before after := by
  refine ⟨⟨step, clear, ?_⟩, fun _ => ⟨step, ?_, ?_⟩, fun _ => ⟨step, ?_⟩⟩
  · intro run origin msgId fields rest applied live
    rw [absent] at live
    cases live
  · intro run group lastId live
    rw [absent] at live
    cases live
  · intro run lastId live
    rw [absent] at live
    cases live
  · intro run lastId msgId fields rest applied live
    rw [absent] at live
    cases live

/-- A drain that stands in front of no message replays nothing. -/
theorem forward_of_run {deployment : Deployment} {before after : World} {run : Run}
    (step : WorldStep deployment before after) (live : before.run = some run)
    (still : ∀ origin entry rest applied, run.reader ≠ .applying origin (entry :: rest) applied) :
    ForwardStep deployment before after := by
  refine ⟨step, ?_⟩
  intro other lastId msgId fields rest applied same phase
  obtain rfl := Option.some.inj (live.symm.trans same)
  exact absurd phase (still _ _ rest applied)

theorem replayStep_of_run {deployment : Deployment} {safe ahead : Prop} {before after : World}
    {run : Run} (step : WorldStep deployment before after) (clear : before.paused deployment = false)
    (live : before.run = some run) (reading : ∀ lastId, run.reader ≠ .draining lastId)
    (still : ∀ origin entry rest applied, run.reader ≠ .applying origin (entry :: rest) applied) :
    ReplayStep deployment safe ahead before after := by
  refine ⟨⟨step, smooth_of_run live clear still⟩, fun _ => ⟨step, ?_, ?_⟩,
    fun _ => forward_of_run step live still⟩
  · intro other group lastId same phase
    obtain rfl := Option.some.inj (live.symm.trans same)
    exact absurd phase (reading lastId)
  · intro other lastId same phase
    obtain rfl := Option.some.inj (live.symm.trans same)
    exact absurd phase (reading lastId)

section Replay

variable {deployment : Deployment} {world : World} {entry : StreamEntry} {consumer : Consumer}
  {shared : SharedMemory}

/-- A drain replays the one message that it reads. -/
theorem replayNext_steps {run : Run} {group : Group} {lastId : MsgId}
    (live : world.run = some run) (phase : run.reader = .draining lastId)
    (running : run.consumer.stopEvent = false) (present : world.group = some group)
    (counted : 0 < deployment.batchCount)
    (batch : world.pendingBatch deployment group lastId = [(entry.id, some entry.fields)])
    (room : run.consumer.pendingAck.length < 2 * deployment.maxPendingAck)
    (clear : world.paused deployment = false)
    (returned : apply deployment.externals run.consumer world.shared entry.id (some entry.fields) =
      (.ok true, consumer, shared)) :
    Relation.ReflTransGen (ReplayStep deployment
        (ReplaySafe deployment world.inserted run.consumer group (entry.id, some entry.fields))
        (∀ record ∈ world.inserted, record.msgId ∈ world.processed →
          run.consumer.target deployment.externals entry.fields = some record.target →
          record.msgId ≤ entry.id)) world
      { world with
        shared := shared
        inserted := (executedInsert deployment run.consumer world.shared entry.id
          (some entry.fields)).toList ++ world.inserted
        processed := world.processed ++ [entry.id]
        run := some { run with
          consumer := { consumer with pendingAck := consumer.pendingAck ++ [entry.id] }
          reader := .draining entry.id
          passed := run.passed ++ [entry.id] } } := by
  have read : WorldStep deployment world _ :=
    .consumer (.reader (.drainRead live phase running present counted batch))
  refine .head ⟨⟨read, smooth_of_run live clear (by simp [phase])⟩, fun safe => ⟨read, ?_, ?_⟩,
    fun _ => forward_of_run read live (by simp [phase])⟩ ?_
  · intro other held last same reading _ heldPresent item member
    obtain rfl := Option.some.inj (live.symm.trans same)
    obtain rfl := Option.some.inj (present.symm.trans heldPresent)
    obtain rfl := ReaderPhase.draining.inj (phase.symm.trans reading)
    rw [batch] at member
    obtain rfl := List.mem_singleton.mp member
    exact safe
  · intro other last same _ stopped
    obtain rfl := Option.some.inj (live.symm.trans same)
    rw [running] at stopped
    cases stopped
  refine .head (replayStep_of_run (.consumer (.reader (.startBatch rfl rfl (Or.inl room)))) clear rfl
    (by simp) (by simp)) ?_
  have applies : WorldStep deployment (world.withRun { run with
      reader := .applying (.drain entry.id) [(entry.id, some entry.fields)] [] }) _ :=
    .consumer (.reader (.applyReturns rfl rfl returned))
  refine .head ⟨⟨applies, smooth_of_apply rfl clear rfl returned⟩, fun _ => ⟨applies, ?_, ?_⟩,
    fun ahead => ⟨applies, ?_⟩⟩ ?_
  · intro other held last same reading
    obtain rfl := Option.some.inj same
    cases reading
  · intro other last same reading
    obtain rfl := Option.some.inj same
    cases reading
  · intro other last msgId fields rest applied same applying
    obtain rfl := Option.some.inj same
    cases applying
    exact ahead
  refine .head (replayStep_of_run (.consumer (.reader (.batchApplied rfl rfl (by simp)))) clear rfl
    (by simp) (by simp)) ?_
  exact .head (replayStep_of_run (.consumer (.reader (.keysSet rfl rfl))) clear rfl (by simp)
    (by simp)) .refl

/-- A drain with nothing left to read ends. -/
theorem drainEnd_replaySafe {run : Run} {group : Group} {lastId : MsgId}
    (live : world.run = some run) (phase : run.reader = .draining lastId)
    (running : run.consumer.stopEvent = false) (present : world.group = some group)
    (counted : 0 < deployment.batchCount)
    (empty : world.pendingBatch deployment group lastId = []) :
    ReplaySafeStep deployment world
      { world with drained := true, run := some { run with reader := .announcing } } := by
  refine ⟨.consumer (.reader (.drainEnd live phase running present counted empty)), ?_, ?_⟩
  · intro other held last same reading _ heldPresent item member
    obtain rfl := Option.some.inj (live.symm.trans same)
    obtain rfl := Option.some.inj (present.symm.trans heldPresent)
    obtain rfl := ReaderPhase.draining.inj (phase.symm.trans reading)
    rw [empty] at member
    cases member
  · intro other last same _ stopped
    obtain rfl := Option.some.inj (live.symm.trans same)
    rw [running] at stopped
    cases stopped

/-- A new process replays the oldest pending message. -/
theorem replay_steps {lastDelivered : MsgId} {others : List MsgId} (absent : world.run = none)
    (single : deployment.batchCount = 1) (room : 0 < deployment.maxPendingAck)
    (opened : ∀ entry ∈ deployment.schemas, ∃ segmentName,
      openCurrent deployment.externals world.current world.shared entry.1 entry.2 =
        .reopened segmentName)
    (present : world.group = some ⟨lastDelivered, entry.id :: others⟩)
    (positive : MsgId.of 0 0 < entry.id) (stored : world.fieldsOf entry.id = some entry.fields)
    (clear : world.paused deployment = false)
    (returned : apply deployment.externals (freshConsumer deployment world.current) world.shared
      entry.id (some entry.fields) = (.ok true, consumer, shared)) :
    Relation.ReflTransGen (ReplayStep deployment
        (ReplaySafe deployment world.inserted (freshConsumer deployment world.current)
          ⟨lastDelivered, entry.id :: others⟩ (entry.id, some entry.fields))
        (∀ record ∈ world.inserted, record.msgId ∈ world.processed →
          (freshConsumer deployment world.current).target deployment.externals entry.fields =
            some record.target →
          record.msgId ≤ entry.id)) world
      { world with
        shared := shared
        inserted := (executedInsert deployment (freshConsumer deployment world.current) world.shared
          entry.id (some entry.fields)).toList ++ world.inserted
        processed := world.processed ++ [entry.id]
        drained := false
        run := some ⟨{ consumer with pendingAck := consumer.pendingAck ++ [entry.id] },
          .draining entry.id, .absent, [], [entry.id]⟩ } := by
  refine .head (replayStep_of_absent (.consumer (.lifecycle (.start absent opened))) absent clear) ?_
  refine .head (replayStep_of_run (.consumer (.reader (.ensureGroup rfl rfl))) clear rfl (by simp)
    (by simp)) ?_
  have replay := @replayNext_steps deployment { world with
      group := some (world.group.getD ⟨MsgId.of 0 0, []⟩)
      drained := false
      run := some ⟨freshConsumer deployment world.current, .draining (MsgId.of 0 0), .absent, [], []⟩ }
    entry consumer shared _ ⟨lastDelivered, entry.id :: others⟩ (MsgId.of 0 0) rfl rfl rfl
    (by simp [present]) (by omega) (by
      rw [World.pendingBatch, single, List.filter_cons_of_pos (by simpa using positive)]
      simpa [World.fieldsOf] using stored) (by
      change 0 < 2 * deployment.maxPendingAck
      omega) clear returned
  simp only [present, Option.getD_some] at replay ⊢
  exact replay

end Replay

/-- A new process opens the sample segment with the log that it has. -/
theorem SampleServing.restart {consumer : Consumer} {shared : SharedMemory} {log : List InsertRequest}
    (serving : SampleServing consumer shared log) :
    SampleServing (freshConsumer sampleDeployment sampleWorld.current) shared log := by
  have fresh := sampleOffered_serving sampleFirst
  exact ⟨fresh.schemas, fresh.segments, fresh.rowBuffer, fresh.sound, serving.memory⟩

theorem SampleServing.opened {consumer : Consumer} {shared : SharedMemory} {log : List InsertRequest}
    (serving : SampleServing consumer shared log) :
    ∀ entry ∈ sampleDeployment.schemas, ∃ segmentName,
      openCurrent sampleDeployment.externals sampleWorld.current shared entry.1 entry.2 =
        .reopened segmentName := by
  intro entry member
  obtain rfl := List.mem_singleton.mp member
  obtain ⟨memory, stored, _⟩ := serving.memory
  exact ⟨"segment", openCurrent_self rfl stored rfl sample_table⟩

/-- The sample process behind two applied messages that are not acknowledged yet. -/
def sampleTwice (after : Consumer) (written : SharedMemory) (oldRow rowData : List UInt8) : World :=
  { sampleWorld with
    produced := [sampleFirst, sampleSecond]
    entries := [sampleFirst, sampleSecond]
    group := some ⟨MsgId.of 2 0, [MsgId.of 1 0, MsgId.of 2 0]⟩
    drained := true
    shared := written
    inserted := [⟨MsgId.of 2 0, "segment", ⟨"a", rowData⟩⟩, ⟨MsgId.of 1 0, "segment", ⟨"a", oldRow⟩⟩]
    processed := [MsgId.of 1 0, MsgId.of 2 0]
    run := some ⟨{ after with pendingAck := [MsgId.of 1 0, MsgId.of 2 0] }, .reading, .waiting,
      [MsgId.of 1 0, MsgId.of 2 0], [MsgId.of 1 0, MsgId.of 2 0]⟩ }

theorem sampleTwice_steps : ∃ after written oldRow rowData,
    SampleServing after written [⟨"a", rowData⟩, ⟨"a", oldRow⟩] ∧
    rowData.take 4 = [0, 0, 0, 0x40] ∧ after.stopEvent = false ∧
    Relation.ReflTransGen (CalmStep sampleDeployment) sampleWorld
      (sampleTwice after written oldRow rowData) := by
  obtain ⟨first, written, oldRow, applied, _, _, steps⟩ :=
    @sampleConsumed_steps 1 (by decide) (by decide) 0x3ff0000000000000 [0, 0, 0x80, 0x3f] (by decide)
      rfl 0 [48] (by decide) (by decide)
  have running : first.stopEvent = false := applied.stopEvent
  obtain ⟨second, rewritten, rowData, reapplied, score, _⟩ :=
    sampleSecond_apply (applied.serving.withPending [sampleFirst.id]) (by simp [presentIds])
  refine ⟨second, rewritten, oldRow, rowData, reapplied.serving, score,
    reapplied.stopEvent.trans running, ?_⟩
  have added : CalmStep sampleDeployment (sampleConsumed sampleFirst first written oldRow)
      { sampleConsumed sampleFirst first written oldRow with
        produced := [sampleFirst, sampleSecond], entries := [sampleFirst, sampleSecond] } :=
    calm_of_run (.environment (.xadd sampleSecond (by decide) (by
      intro other member
      obtain rfl := List.mem_singleton.mp member
      decide))) rfl running rfl (by simp) (by simp) (by simp) (by simp [sampleConsumed])
  have consumed := @consume_steps sampleDeployment
    { sampleConsumed sampleFirst first written oldRow with
      produced := [sampleFirst, sampleSecond], entries := [sampleFirst, sampleSecond] } _
    ⟨sampleFirst.id, [sampleFirst.id]⟩ sampleSecond second rewritten rfl rfl running rfl (by decide)
    rfl rfl (show 1 < 20 by decide) reapplied.returned false
  have executed : executedInsert sampleDeployment { first with pendingAck := [sampleFirst.id] } written
      sampleSecond.id (some sampleSecond.fields) =
      some ⟨MsgId.of 2 0, "segment", ⟨"a", rowData⟩⟩ := reapplied.executed
  rw [show second.pendingAck = [sampleFirst.id] from reapplied.pendingAck] at consumed
  refine (steps.tail added).trans (consumed.trans ?_)
  simp only [show (sampleConsumed sampleFirst first written oldRow).shared = written from rfl, executed]
  exact .refl

/-- The sample process in a drain that replayed the first of the two messages. -/
def sampleReplaying (consumer : Consumer) (written : SharedMemory) (oldRow rowData newRow : List UInt8) :
    World :=
  { sampleTwice consumer written oldRow rowData with
    inserted := ⟨MsgId.of 1 0, "segment", ⟨"a", newRow⟩⟩ ::
      (sampleTwice consumer written oldRow rowData).inserted
    processed := [MsgId.of 1 0, MsgId.of 2 0, MsgId.of 1 0]
    drained := false
    run := some ⟨{ consumer with pendingAck := [MsgId.of 1 0] }, .draining (MsgId.of 1 0), .absent, [],
      [MsgId.of 1 0]⟩ }

/-- In a world of two pending sample messages it is safe to replay any of them. -/
theorem sample_replaySafe {inserted : List InsertRecord} (consumer : Consumer) (entry : StreamEntry)
    (pending : ∀ record ∈ inserted, record.msgId ∈ [MsgId.of 1 0, MsgId.of 2 0]) :
    ReplaySafe sampleDeployment inserted consumer ⟨MsgId.of 2 0, [MsgId.of 1 0, MsgId.of 2 0]⟩
      (entry.id, some entry.fields) :=
  fun record listed _ _ => pending record listed.1

/-- Behind a crash the drain of the sample process replays the first of the two messages. -/
theorem sampleReplaying_steps : ∃ consumer written oldRow rowData newRow,
    SampleServing { consumer with pendingAck := [MsgId.of 1 0] } written
      [⟨"a", newRow⟩, ⟨"a", rowData⟩, ⟨"a", oldRow⟩] ∧ consumer.stopEvent = false ∧
    Relation.ReflTransGen (ReplaySafeStep sampleDeployment) sampleWorld
      (sampleReplaying consumer written oldRow rowData newRow) := by
  obtain ⟨after, written, oldRow, rowData, serving, _, running, steps⟩ := sampleTwice_steps
  obtain ⟨consumer, rewritten, newRow, applied, _, _⟩ :=
    sampleFirst_apply serving.restart (by simp [presentIds])
  refine ⟨consumer, rewritten, oldRow, rowData, newRow, applied.serving.withPending _,
    applied.stopEvent, ?_⟩
  have crash : PlainStep sampleDeployment (sampleTwice after written oldRow rowData)
      { sampleTwice after written oldRow rowData with run := none } :=
    ⟨.consumer (.lifecycle .crash), plain_of_run rfl running (by simp) (by simp)⟩
  have crashed := Relation.ReflTransGen.mono (fun _ _ step => PlainStep.replaySafe step) _ _
    ((plain_of_calm steps).tail crash)
  have replay := @replay_steps sampleDeployment
    { sampleTwice after written oldRow rowData with run := none } sampleFirst consumer rewritten
    (MsgId.of 2 0) [MsgId.of 2 0] rfl rfl (by decide) serving.opened rfl (by decide) rfl rfl
    applied.returned
  have executed : executedInsert sampleDeployment (freshConsumer sampleDeployment sampleWorld.current)
      written sampleFirst.id (some sampleFirst.fields) =
      some ⟨MsgId.of 1 0, "segment", ⟨"a", newRow⟩⟩ := applied.executed
  have safe : ReplaySafe sampleDeployment (sampleTwice after written oldRow rowData).inserted
      (freshConsumer sampleDeployment sampleWorld.current)
      ⟨MsgId.of 2 0, [MsgId.of 1 0, MsgId.of 2 0]⟩ (sampleFirst.id, some sampleFirst.fields) := by
    refine sample_replaySafe _ sampleFirst ?_
    intro record listed
    rcases List.mem_pair.mp listed with rfl | rfl <;> simp
  refine crashed.trans (.trans (Relation.ReflTransGen.mono (fun _ _ step => step.safe safe) _ _ replay) ?_)
  simp only [show (sampleTwice after written oldRow rowData).shared = written from rfl,
    show (sampleTwice after written oldRow rowData).current = sampleWorld.current from rfl, executed,
    show consumer.pendingAck = [] from applied.pendingAck]
  exact .refl

/-- The row that a segment serves for an entity is the row of the record. -/
def ServesRow (deployment : Deployment) (world : World) (record : InsertRecord) : Prop :=
  ∃ segment address, world.shared record.segment = some segment ∧
    (lookup deployment.externals.hashId segment.layout record.request.entityId).result segment.memory =
      .ok (some address) ∧
    segment.memory.read address segment.layout.rowSize = record.request.rowData

/-- The row of every entity is the row of its newest message whose insert was executed. -/
def LastWriteWins (deployment : Deployment) (world : World) : Prop :=
  ∀ record ∈ world.inserted, ∃ newest ∈ world.inserted, newest.target = record.target ∧
    (∀ other ∈ world.inserted, other.target = record.target → other.msgId ≤ newest.msgId) ∧
    ServesRow deployment world newest

/-- The newest record of an entity is served. -/
theorem DrainFacts.serves {deployment : Deployment} {start world : World}
    (facts : DrainFacts deployment start world) {target : String × String}
    {newest : InsertRecord} (search : newestRecord world.inserted target = some newest) :
    newest ∈ world.inserted ∧ newest.target = target ∧ ServesRow deployment world newest := by
  have same : newest.target = target := by simpa using List.find?_some search
  have inside := List.mem_of_find?_eq_some search
  refine ⟨inside, same, ?_⟩
  obtain ⟨entry, stored, message, recordOf⟩ := facts.homely.records newest inside
  refine (facts.homely.logged _ _ recordOf.home).newest ?_
  rw [newestRecord, ← same] at search
  simpa [InsertRecord.target, Prod.ext_iff] using search

/-- Behind a completed drain the last write wins. -/
theorem lastWriteWins_of_drained {deployment : Deployment} {start world : World}
    (initial : start.Initial deployment)
    (steps : Relation.ReflTransGen (ReplaySafeStep deployment) start world)
    (drained : world.drained = true) : LastWriteWins deployment world := by
  obtain ⟨facts, pursued⟩ := replaySafe_run initial steps
  intro record member
  have found : (newestRecord world.inserted record.target).isSome := by
    rw [newestRecord, List.find?_isSome]
    exact ⟨record, member, by simp⟩
  obtain ⟨newest, search⟩ := Option.isSome_iff_exists.mp found
  obtain ⟨inside, same, serves⟩ := facts.serves search
  refine ⟨newest, inside, same, ?_, serves⟩
  intro other listed sameOther
  by_contra older
  obtain ⟨last, isLast, sameLast⟩ := exists_lastRecord member
  have behind := isLast.2 other listed (sameOther.trans sameLast.symm)
  refine pursued.settled drained last ⟨isLast, newest, ?_, (not_le.mp older).trans_le behind⟩
  rw [sameLast]
  exact search

/-- The newest row is served behind a crash and a drain that replays both sample messages. -/
theorem lastWriteWins_of_drained_sample : ∃ world : World,
    world.inserted.map InsertRecord.msgId =
      [MsgId.of 2 0, MsgId.of 1 0, MsgId.of 2 0, MsgId.of 1 0] ∧
    world.drained = true ∧ LastWriteWins sampleDeployment world := by
  obtain ⟨consumer, written, oldRow, rowData, newRow, serving, running, steps⟩ := sampleReplaying_steps
  obtain ⟨after, rewritten, lastRow, applied, _, _⟩ :=
    sampleSecond_apply serving (by simp [presentIds])
  have replay := @replayNext_steps sampleDeployment
    (sampleReplaying consumer written oldRow rowData newRow) sampleSecond after rewritten _
    ⟨MsgId.of 2 0, [MsgId.of 1 0, MsgId.of 2 0]⟩ (MsgId.of 1 0) rfl rfl running rfl (by decide) rfl
    (show 1 < 20 by decide) rfl applied.returned
  have executed : executedInsert sampleDeployment { consumer with pendingAck := [MsgId.of 1 0] }
      written sampleSecond.id (some sampleSecond.fields) =
      some ⟨MsgId.of 2 0, "segment", ⟨"a", lastRow⟩⟩ := applied.executed
  have pending : ∀ record ∈ (sampleReplaying consumer written oldRow rowData newRow).inserted,
      record.msgId ∈ [MsgId.of 1 0, MsgId.of 2 0] := by
    intro record listed
    simp only [sampleReplaying, sampleTwice, List.mem_cons, List.not_mem_nil, or_false] at listed
    rcases listed with rfl | rfl | rfl <;> simp
  have replayed := steps.trans (Relation.ReflTransGen.mono
    (fun _ _ step => step.safe (sample_replaySafe _ sampleSecond pending)) _ _ replay)
  have stopEvent : after.stopEvent = false := applied.stopEvent.trans running
  have ended := replayed.tail (drainEnd_replaySafe rfl rfl stopEvent rfl (by decide) rfl)
  refine ⟨_, ?_, rfl, lastWriteWins_of_drained sampleWorld_initial ended rfl⟩
  simp only [show (sampleReplaying consumer written oldRow rowData newRow).shared = written from rfl,
    executed]
  rfl

/-- A sample segment serves the row of the newest record, and no other row. -/
theorem SampleServing.row {consumer : Consumer} {world : World} {log : List InsertRequest}
    {rowData : List UInt8} (serving : SampleServing consumer world.shared (⟨"a", rowData⟩ :: log))
    {msgId : MsgId} {other : List UInt8}
    (serves : ServesRow sampleDeployment world ⟨msgId, "segment", ⟨"a", other⟩⟩) : other = rowData := by
  obtain ⟨segment, address, present, found, row⟩ := serves
  obtain ⟨memory, stored, refined⟩ := serving.memory
  obtain rfl := Option.some.inj (stored.symm.trans present)
  have last : lastRow (⟨"a", rowData⟩ :: log) "a" = some rowData := by simp [lastRow]
  obtain ⟨place, lookedUp, stored⟩ := (refined.behavesAsMap sampleLayout_sound).present "a" _ last
  have result : (lookup sampleExternals.hashId sampleLayout "a").result memory = .ok (some place) :=
    congrArg Prod.fst lookedUp
  obtain rfl := Option.some.inj (Except.ok.inj (found.symm.trans result))
  exact row.symm.trans stored

/-- The sample process behind the second message, with the first one dropped by a pause. -/
def sampleSkipping (after : Consumer) (written : SharedMemory) (rowData : List UInt8) : World :=
  { sampleDropped with
    produced := [sampleFirst, sampleSecond]
    entries := [sampleFirst, sampleSecond]
    group := some ⟨MsgId.of 2 0, [MsgId.of 1 0, MsgId.of 2 0]⟩
    shared := written
    inserted := [⟨MsgId.of 2 0, "segment", ⟨"a", rowData⟩⟩]
    processed := [MsgId.of 2 0]
    run := some ⟨{ after with pendingAck := [MsgId.of 2 0] }, .reading, .waiting,
      [MsgId.of 1 0, MsgId.of 2 0], [MsgId.of 2 0]⟩ }

theorem sampleSkipping_steps : ∃ after written rowData,
    SampleServing after written [⟨"a", rowData⟩] ∧ rowData.take 4 = [0, 0, 0, 0x40] ∧
    after.stopEvent = false ∧ after.offline.Convertible sampleExternals ∧
    Relation.ReflTransGen (WorldStep sampleDeployment) sampleWorld
      (sampleSkipping after written rowData) := by
  obtain ⟨after, written, rowData, applied, score, offline⟩ :=
    sampleSecond_apply (sampleOffered_serving sampleFirst) (by simp [presentIds])
  refine ⟨after, written, rowData, applied.serving, score, applied.stopEvent, ?_, ?_⟩
  · rw [offline]
    exact sample_convertible (OfflineStore.empty_sound sampleExternals true) sampleEmpty_convertible
      rfl rfl rfl
  have added : WorldStep sampleDeployment sampleDropped
      { sampleDropped with
        produced := [sampleFirst, sampleSecond], entries := [sampleFirst, sampleSecond] } :=
    .environment (.xadd sampleSecond (by decide) (by
      intro other member
      obtain rfl := List.mem_singleton.mp member
      decide))
  have consumed := @consume_steps sampleDeployment
    { sampleDropped with
      produced := [sampleFirst, sampleSecond], entries := [sampleFirst, sampleSecond] } _
    ⟨MsgId.of 1 0, [MsgId.of 1 0]⟩ sampleSecond after written rfl rfl rfl rfl (by decide) (by decide) rfl
    (by decide) applied.returned false
  have executed : executedInsert sampleDeployment (freshConsumer sampleDeployment sampleWorld.current)
      sampleWorld.shared sampleSecond.id (some sampleSecond.fields) =
      some ⟨MsgId.of 2 0, "segment", ⟨"a", rowData⟩⟩ := applied.executed
  rw [show after.pendingAck = [] from applied.pendingAck] at consumed
  refine (sampleDropped_steps.tail added).trans ?_
  refine .trans (Relation.ReflTransGen.mono (fun _ _ step => step.plain.1) _ _ consumed) ?_
  simp only [show sampleDropped.shared = sampleWorld.shared from rfl, executed]
  exact .refl

/-- The sample world when the process died behind the acknowledgement of the second message. -/
def sampleCrashed (written : SharedMemory) (rowData : List UInt8) (files : List SealedFile) : World :=
  { sampleDropped with
    produced := [sampleFirst, sampleSecond]
    entries := [sampleFirst, sampleSecond]
    group := some ⟨MsgId.of 2 0, [MsgId.of 1 0]⟩
    acked := [MsgId.of 2 0]
    shared := written
    files := files
    inserted := [⟨MsgId.of 2 0, "segment", ⟨"a", rowData⟩⟩]
    processed := [MsgId.of 2 0]
    run := none }

theorem sampleCrashed_steps : ∃ after written rowData files,
    SampleServing after written [⟨"a", rowData⟩] ∧ rowData.take 4 = [0, 0, 0, 0x40] ∧
    Relation.ReflTransGen (WorldStep sampleDeployment) sampleWorld
      (sampleCrashed written rowData files) := by
  obtain ⟨after, written, rowData, serving, score, running, convertible, steps⟩ := sampleSkipping_steps
  have flushed := @flush_steps sampleDeployment (sampleSkipping after written rowData) _ rfl rfl running
    rfl (by simp) (fun _ => .renamed) (flush_succeeds_iff.mpr convertible)
  have acknowledged := steps.trans (Relation.ReflTransGen.mono (fun _ _ step => step.1) _ _ flushed)
  exact ⟨after, written, rowData, _, serving, score, acknowledged.tail (.consumer (.lifecycle .crash))⟩

/-- A restart replays the dropped message over the row of the acknowledged newer one. -/
theorem lastWriteWins_overtaken : ∃ (world : World) (run : Run), Reachable sampleDeployment world ∧
    world.drained = true ∧ world.run = some run ∧ run.reader = .announcing ∧
    ¬ LastWriteWins sampleDeployment world := by
  obtain ⟨after, written, rowData, files, serving, score, steps⟩ := sampleCrashed_steps
  obtain ⟨replayed, rewritten, oldRow, applied, oldScore, _⟩ :=
    sampleFirst_apply serving.restart (by simp [presentIds])
  have drained := @replay_steps sampleDeployment (sampleCrashed written rowData files) sampleFirst
    replayed rewritten (MsgId.of 2 0) [] rfl rfl (by decide) serving.opened rfl (by decide) rfl rfl
    applied.returned
  have replay := Relation.ReflTransGen.mono (fun _ _ step => step.smooth.1) _ _ drained
  have ended := (steps.trans replay).tail (.consumer (.reader (.drainEnd rfl rfl applied.stopEvent rfl
    (by decide) rfl)))
  refine ⟨_, _, ⟨sampleWorld, sampleWorld_initial, ended⟩, rfl, rfl, rfl, ?_⟩
  intro wins
  have executed : executedInsert sampleDeployment (freshConsumer sampleDeployment sampleWorld.current)
      written sampleFirst.id (some sampleFirst.fields) =
      some ⟨MsgId.of 1 0, "segment", ⟨"a", oldRow⟩⟩ := applied.executed
  obtain ⟨newest, member, _, newer, serves⟩ := wins ⟨MsgId.of 2 0, "segment", ⟨"a", rowData⟩⟩
    (List.mem_append_right _ List.mem_cons_self)
  have latest := newer ⟨MsgId.of 2 0, "segment", ⟨"a", rowData⟩⟩
    (List.mem_append_right _ List.mem_cons_self) rfl
  have second : newest = ⟨MsgId.of 2 0, "segment", ⟨"a", rowData⟩⟩ := by
    rcases List.mem_append.mp member with old | new
    · have same : newest = ⟨MsgId.of 1 0, "segment", ⟨"a", oldRow⟩⟩ :=
        Option.some.inj ((Option.mem_toList.mp old).symm.trans executed)
      rw [same] at latest
      exact absurd latest (show ¬ MsgId.of 2 0 ≤ MsgId.of 1 0 by decide)
    · exact List.mem_singleton.mp new
  rw [second] at serves
  have row : rowData = oldRow := applied.serving.row serves
  rw [row, oldScore] at score
  exact absurd score (by decide)

end Quorin
