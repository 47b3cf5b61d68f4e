import Quorin.Proof.Registry.Accounting

namespace Quorin

/-- The registry agrees with the holds of each segment, in Redis and in the processes. -/
structure Accounted (state : Registry) (holds : String → List Nat) : Prop where
  keys : KeysAccounted state.keys holds
  entered : ∀ pid, ∀ name ∈ state.keys.pidSegments pid, pid ∈ holds name
  distinct : ∀ pid, (state.keys.pidSegments pid).Nodup
  linked : ∀ name schema, state.keys.segmentToSchema name = some schema →
    name ∈ state.linked ∧ name ∉ state.popped
  unused : ∀ name, name ∉ state.used →
    holds name = [] ∧ name ∉ state.keys.cleanupQueue ∧ name ∉ state.popped
  opened : ∀ process ∈ state.live, ∀ name,
    (state.handles process).countP (fun handle => handle.segment = name) ≤
      (holds name).count process.pid
  creators : ∀ process ∈ state.live, ∀ handle ∈ state.handles process, handle.origin = .created →
    state.keys.segmentToSchema handle.segment = some handle.schema
  pending : ∀ process, ∀ pending ∈ state.opening process, pending.segment ∈ state.used
  beating : ∀ process ∈ state.live, state.keys.heartbeats process.pid = some process.createNs
  single : ∀ process ∈ state.live, ∀ other ∈ state.live, process.pid = other.pid → process = other
  begun : ∀ process ∈ state.live, process ∈ state.started
  known : ∀ process, process ∉ state.started → state.handles process = []

section Actions

variable {state : Registry} {holds : String → List Nat}

theorem Accounted.initial : Accounted .initial fun _ => [] := by
  constructor <;> simp [Registry.initial]
  constructor <;> simp

/-- A live process with an open handle on a segment is a holder of it. -/
theorem Accounted.holder (accounted : Accounted state holds) {process : Process}
    (alive : process ∈ state.live) {handle : Handle} (member : handle ∈ state.handles process) :
    process.pid ∈ holds handle.segment := by
  have positive : 0 < (state.handles process).countP fun other =>
      other.segment = handle.segment :=
    List.countP_pos_iff.mpr ⟨handle, member, by simp⟩
  exact List.count_pos_iff.mp (positive.trans_le (accounted.opened process alive handle.segment))

theorem Accounted.registered_used (accounted : Accounted state holds) {name schema : String}
    (registered : state.keys.segmentToSchema name = some schema) : name ∈ state.used := by
  by_contra unused
  exact (accounted.keys.registered name schema registered).1 (accounted.unused name unused).1

/-- A cleanup behind its guard finds no live process with its process id. -/
theorem Accounted.cleanup_dead (accounted : Accounted state holds) {pid expected : Nat}
    (dead : (⟨pid, expected⟩ : Process) ∉ state.live)
    (passed : state.keys.pidReused pid expected = false) :
    ∀ process ∈ state.live, process.pid ≠ pid := by
  rintro process alive rfl
  have beat := accounted.beating process alive
  simp only [RegistryKeys.pidReused, beat, decide_eq_false_iff_not, not_not] at passed
  apply dead
  rw [← passed]
  exact alive

theorem Accounted.start (accounted : Accounted state holds) {process : Process}
    (fresh : process ∉ state.started) (free : ∀ other ∈ state.live, other.pid ≠ process.pid) :
    Accounted { state with
      keys := { state.keys with
        heartbeats := Function.update state.keys.heartbeats process.pid (some process.createNs) }
      started := Insert.insert process state.started
      live := Insert.insert process state.live } holds := by
  have none : state.handles process = [] := accounted.known process fresh
  constructor
  · exact ⟨accounted.keys.counted, accounted.keys.registered, accounted.keys.pointed⟩
  · exact accounted.entered
  · exact accounted.distinct
  · exact accounted.linked
  · exact accounted.unused
  · intro other alive name
    rcases Finset.mem_insert.mp alive with rfl | earlier
    · simp [none]
    · exact accounted.opened other earlier name
  · intro other alive handle member
    rcases Finset.mem_insert.mp alive with rfl | earlier
    · simp [none] at member
    · exact accounted.creators other earlier handle member
  · exact accounted.pending
  · intro other alive
    rcases Finset.mem_insert.mp alive with rfl | earlier
    · exact Function.update_self _ _ _
    · dsimp only
      rw [Function.update_of_ne (free other earlier)]
      exact accounted.beating other earlier
  · intro first firstAlive second secondAlive same
    rcases Finset.mem_insert.mp firstAlive with rfl | firstEarlier <;>
      rcases Finset.mem_insert.mp secondAlive with rfl | secondEarlier
    · rfl
    · exact absurd same.symm (free second secondEarlier)
    · exact absurd same (free first firstEarlier)
    · exact accounted.single first firstEarlier second secondEarlier same
  · intro other alive
    rcases Finset.mem_insert.mp alive with rfl | earlier
    · exact Finset.mem_insert_self _ _
    · exact Finset.mem_insert_of_mem (accounted.begun other earlier)
  · exact fun other absent => accounted.known other fun member =>
      absent (Finset.mem_insert_of_mem member)

theorem Accounted.create (accounted : Accounted state holds) {process : Process}
    {schema name : String} (setCurrent : Bool) (alive : process ∈ state.live)
    (fresh : name ∉ state.used) :
    Accounted { state with
      keys := state.keys.createPipeline process.pid schema name setCurrent
      linked := Insert.insert name state.linked
      used := Insert.insert name state.used
      handles := Function.update state.handles process
        (⟨name, schema, .created⟩ :: state.handles process) }
      (Function.update holds name [process.pid]) := by
  obtain ⟨noHold, unqueued, unpopped⟩ := accounted.unused name fresh
  have unregistered : state.keys.segmentToSchema name = none := by
    cases found : state.keys.segmentToSchema name with
    | none => rfl
    | some owner => exact absurd noHold (accounted.keys.registered name owner found).1
  have noHandle : ∀ other ∈ state.live, ∀ handle ∈ state.handles other, handle.segment ≠ name := by
    rintro other otherAlive handle member rfl
    have held := accounted.holder otherAlive member
    rw [noHold] at held
    cases held
  constructor
  · exact accounted.keys.createPipeline schema setCurrent unqueued unregistered
  · intro pid other member
    by_cases here : pid = process.pid
    · subst here
      simp only [RegistryKeys.createPipeline, Function.update_self] at member
      rcases List.mem_insert_iff.mp member with rfl | earlier
      · simp
      · by_cases same : other = name
        · simp [same]
        · rw [Function.update_of_ne same]
          exact accounted.entered _ other earlier
    · simp only [RegistryKeys.createPipeline, Function.update_of_ne here] at member
      have held := accounted.entered pid other member
      rw [Function.update_of_ne]
      · exact held
      · rintro rfl
        rw [noHold] at held
        cases held
  · intro pid
    simp only [RegistryKeys.createPipeline]
    by_cases here : pid = process.pid
    · rw [here, Function.update_self]
      exact (accounted.distinct _).insert
    · rw [Function.update_of_ne here]
      exact accounted.distinct pid
  · intro other owner registered
    by_cases same : other = name
    · subst same
      exact ⟨Finset.mem_insert_self _ _, unpopped⟩
    · simp only [RegistryKeys.createPipeline, Function.update_of_ne same] at registered
      have before := accounted.linked other owner registered
      exact ⟨Finset.mem_insert_of_mem before.1, before.2⟩
  · intro other absent
    have different : other ≠ name := by
      rintro rfl
      exact absent (Finset.mem_insert_self _ _)
    rw [Function.update_of_ne different]
    exact accounted.unused other fun member => absent (Finset.mem_insert_of_mem member)
  · intro other otherAlive segment
    have before := accounted.opened other otherAlive segment
    dsimp only
    by_cases same : segment = name
    · subst same
      have zero : ∀ process ∈ state.live,
          (state.handles process).countP (fun handle => handle.segment = segment) = 0 := by
        intro process alive
        rw [List.countP_eq_zero]
        intro handle member
        simpa using noHandle process alive handle member
      by_cases here : other = process
      · subst here
        simp [zero other otherAlive]
      · rw [Function.update_of_ne here, zero other otherAlive]
        exact Nat.zero_le _
    · rw [Function.update_of_ne same]
      by_cases here : other = process
      · subst here
        simpa [Ne.symm same] using before
      · rwa [Function.update_of_ne here]
  · intro other otherAlive handle member origin
    have old : handle ∈ state.handles other →
        Function.update state.keys.segmentToSchema name (some schema) handle.segment =
          some handle.schema := by
      intro earlier
      rw [Function.update_of_ne (noHandle other otherAlive handle earlier)]
      exact accounted.creators other otherAlive handle earlier origin
    dsimp only at member
    by_cases here : other = process
    · subst here
      rw [Function.update_self] at member
      rcases List.mem_cons.mp member with rfl | earlier
      · exact Function.update_self _ _ _
      · exact old earlier
    · rw [Function.update_of_ne here] at member
      exact old member
  · exact fun other pending member =>
      Finset.mem_insert_of_mem (accounted.pending other pending member)
  · exact accounted.beating
  · exact accounted.single
  · exact accounted.begun
  · intro other absent
    dsimp only
    rw [Function.update_of_ne]
    · exact accounted.known other absent
    · rintro rfl
      exact absent (accounted.begun other alive)

theorem Accounted.withOpening (accounted : Accounted state holds)
    {opening : Process → List PendingOpen}
    (pending : ∀ process, ∀ pending ∈ opening process, pending.segment ∈ state.used) :
    Accounted { state with opening := opening } holds :=
  { accounted with pending := pending }

/-- An update of the pending opens of one process keeps the names of created segments. -/
theorem Accounted.withPending (accounted : Accounted state holds) {process : Process}
    {opens : List PendingOpen} (known : ∀ pending ∈ opens, pending.segment ∈ state.used) :
    Accounted { state with opening := Function.update state.opening process opens } holds := by
  apply accounted.withOpening
  intro other pending member
  by_cases here : other = process
  · rw [here, Function.update_self] at member
    exact known pending member
  · rw [Function.update_of_ne here] at member
    exact accounted.pending other pending member

theorem Accounted.register (accounted : Accounted state holds) {process : Process}
    {pending : PendingOpen} (alive : process ∈ state.live)
    (member : pending ∈ state.opening process) :
    Accounted { state with
      keys := state.keys.openPipeline process.pid pending.segment
      handles := Function.update state.handles process
        (⟨pending.segment, pending.schema, .opened⟩ :: state.handles process) }
      (Function.update holds pending.segment (process.pid :: holds pending.segment)) := by
  have known := accounted.pending process pending member
  have more : ∀ pid name, (holds name).count pid ≤ (Function.update holds pending.segment
      (process.pid :: holds pending.segment) name).count pid := by
    intro pid name
    by_cases same : name = pending.segment
    · rw [same, Function.update_self]
      exact List.count_le_count_cons
    · rw [Function.update_of_ne same]
  constructor
  · exact accounted.keys.openPipeline
  · intro pid name present
    have old : name ∈ state.keys.pidSegments pid → pid ∈ Function.update holds pending.segment
        (process.pid :: holds pending.segment) name := by
      intro earlier
      have held := List.count_pos_iff.mpr (accounted.entered pid name earlier)
      exact List.count_pos_iff.mp (held.trans_le (more pid name))
    by_cases here : pid = process.pid
    · subst here
      simp only [RegistryKeys.openPipeline, Function.update_self] at present
      rcases List.mem_insert_iff.mp present with rfl | earlier
      · simp
      · exact old earlier
    · simp only [RegistryKeys.openPipeline, Function.update_of_ne here] at present
      exact old present
  · intro pid
    simp only [RegistryKeys.openPipeline]
    by_cases here : pid = process.pid
    · rw [here, Function.update_self]
      exact (accounted.distinct _).insert
    · rw [Function.update_of_ne here]
      exact accounted.distinct pid
  · exact accounted.linked
  · intro name absent
    rw [Function.update_of_ne]
    · exact accounted.unused name absent
    · rintro rfl
      exact absent known
  · intro other otherAlive name
    have before := accounted.opened other otherAlive name
    dsimp only
    by_cases here : other = process
    · subst here
      rw [Function.update_self, List.countP_cons]
      by_cases same : name = pending.segment
      · subst same
        simpa using before
      · rw [Function.update_of_ne same]
        simpa [Ne.symm same] using before
    · rw [Function.update_of_ne here]
      exact before.trans (more _ _)
  · intro other otherAlive handle present origin
    dsimp only at present
    by_cases here : other = process
    · subst here
      rw [Function.update_self] at present
      rcases List.mem_cons.mp present with rfl | earlier
      · cases origin
      · exact accounted.creators other otherAlive handle earlier origin
    · rw [Function.update_of_ne here] at present
      exact accounted.creators other otherAlive handle present origin
  · exact accounted.pending
  · exact accounted.beating
  · exact accounted.single
  · exact accounted.begun
  · intro other absent
    dsimp only
    rw [Function.update_of_ne]
    · exact accounted.known other absent
    · rintro rfl
      exact absent (accounted.begun other alive)

/-- A removal of holds keeps the accounting when the live handles are still covered. -/
theorem Accounted.lower (accounted : Accounted state holds) {after : RegistryKeys}
    {lower : String → List Nat} {sets : Nat → List String} {beats : Nat → Option Nat}
    {handles : Process → List Handle} (keys : KeysAccounted after lower)
    (lowered : KeysLowered state.keys after holds lower)
    (gone : ∀ name, holds name = [] → lower name = [])
    (entered : ∀ pid, ∀ name ∈ sets pid, pid ∈ lower name)
    (distinct : ∀ pid, (sets pid).Nodup)
    (beating : ∀ process ∈ state.live, beats process.pid = some process.createNs)
    (fewer : ∀ process, (handles process).Sublist (state.handles process))
    (opened : ∀ process ∈ state.live, ∀ name,
      (handles process).countP (fun handle => handle.segment = name) ≤
        (lower name).count process.pid) :
    Accounted { state with
      keys := { after with pidSegments := sets, heartbeats := beats }
      handles := handles } lower := by
  constructor
  · exact ⟨keys.counted, keys.registered, keys.pointed⟩
  · exact entered
  · exact distinct
  · exact fun name schema registered =>
      accounted.linked name schema (lowered.shrunk name schema registered)
  · intro name absent
    obtain ⟨noHold, unqueued, unpopped⟩ := accounted.unused name absent
    refine ⟨gone name noHold, ?_, unpopped⟩
    intro queued
    rcases lowered.queued name queued with earlier | ⟨held, _⟩
    · exact unqueued earlier
    · exact held noHold
  · exact opened
  · intro process alive handle member origin
    have positive : 0 < (handles process).countP fun other => other.segment = handle.segment :=
      List.countP_pos_iff.mpr ⟨handle, member, by simp⟩
    have owned : lower handle.segment ≠ [] :=
      List.ne_nil_of_mem
        (List.count_pos_iff.mp (positive.trans_le (opened process alive handle.segment)))
    have before := accounted.creators process alive handle ((fewer process).subset member) origin
    exact (lowered.kept handle.segment owned).trans before
  · exact accounted.pending
  · exact beating
  · exact accounted.single
  · exact accounted.begun
  · intro process absent
    have none := fewer process
    rw [accounted.known process absent] at none
    exact List.sublist_nil.mp none

theorem Accounted.close (accounted : Accounted state holds) {process : Process} {handle : Handle}
    (alive : process ∈ state.live) (member : handle ∈ state.handles process) :
    Accounted { state with
      keys := (state.keys.closeScript process.pid handle.segment).2
      handles := Function.update state.handles process ((state.handles process).erase handle) }
      (Function.update holds handle.segment ((holds handle.segment).erase process.pid)) := by
  have held := accounted.holder alive member
  have lowered := accounted.keys.decrement_lowered held
  have others : ∀ pid name, pid ≠ process.pid ∨ name ≠ handle.segment →
      (Function.update holds handle.segment ((holds handle.segment).erase process.pid) name).count
        pid = (holds name).count pid := by
    intro pid name apart
    by_cases same : name = handle.segment
    · rw [same, Function.update_self]
      exact List.count_erase_of_ne (apart.resolve_right (not_not.mpr same))
    · rw [Function.update_of_ne same]
  have sets : ∀ pid, Function.update state.keys.pidSegments process.pid
      ((state.keys.pidSegments process.pid).erase handle.segment) pid ⊆
        state.keys.pidSegments pid := by
    intro pid
    by_cases here : pid = process.pid
    · rw [here, Function.update_self]
      exact List.erase_subset
    · rw [Function.update_of_ne here]
      exact fun _ present => present
  unfold RegistryKeys.closeScript
  dsimp only
  rw [lowered.pidSegments]
  refine accounted.lower (accounted.keys.decrement held) lowered ?_ ?_ ?_ ?_ ?_ ?_
  · intro name none
    by_cases same : name = handle.segment
    · rw [← same, none] at held
      cases held
    · rwa [Function.update_of_ne same]
  · intro pid name present
    have before := accounted.entered pid name (sets pid present)
    apply List.count_pos_iff.mp
    rw [others]
    · exact List.count_pos_iff.mpr before
    · by_contra both
      simp only [not_or, not_not] at both
      rw [both.1, Function.update_self, both.2] at present
      exact (accounted.distinct process.pid).not_mem_erase present
  · intro pid
    by_cases here : pid = process.pid
    · rw [here, Function.update_self]
      exact (accounted.distinct _).erase _
    · rw [Function.update_of_ne here]
      exact accounted.distinct pid
  · rw [lowered.heartbeats]
    exact accounted.beating
  · intro other
    by_cases here : other = process
    · rw [here, Function.update_self]
      exact List.erase_sublist
    · rw [Function.update_of_ne here]
  · intro other otherAlive name
    have before := accounted.opened other otherAlive name
    by_cases here : other = process
    · subst here
      rw [Function.update_self]
      by_cases same : name = handle.segment
      · subst same
        rw [Function.update_self, List.count_erase_self, List.countP_erase]
        simpa [member] using Nat.sub_le_sub_right before 1
      · rw [others _ _ (Or.inr same)]
        exact (List.erase_sublist.countP_le).trans before
    · rw [Function.update_of_ne here, others]
      · exact before
      · exact Or.inl fun same => here (accounted.single other otherAlive process alive same)

theorem Accounted.ended (accounted : Accounted state holds) (process : Process) :
    Accounted (state.ended process) holds := by
  have fewer : ∀ other ∈ (state.ended process).live, other ∈ state.live :=
    fun other alive => Finset.mem_of_mem_erase alive
  exact
    { accounted with
      opened := fun other alive => accounted.opened other (fewer other alive)
      creators := fun other alive => accounted.creators other (fewer other alive)
      beating := fun other alive => accounted.beating other (fewer other alive)
      single := fun first firstAlive second secondAlive =>
        accounted.single first (fewer first firstAlive) second (fewer second secondAlive)
      begun := fun other alive => accounted.begun other (fewer other alive)
      pending := (@Accounted.withPending state holds accounted process [] (by simp)).pending }

theorem Accounted.exit (accounted : Accounted state holds) {process : Process}
    (alive : process ∈ state.live) :
    Accounted { state.ended process with
      keys := { state.keys with
        heartbeats := Function.update state.keys.heartbeats process.pid none } } holds := by
  have ended := accounted.ended process
  have keys : KeysAccounted { state.keys with
      heartbeats := Function.update state.keys.heartbeats process.pid none } holds :=
    ⟨accounted.keys.counted, accounted.keys.registered, accounted.keys.pointed⟩
  refine { ended with keys := keys, beating := ?_ }
  intro other otherAlive
  have earlier := Finset.mem_of_mem_erase otherAlive
  dsimp only
  rw [Function.update_of_ne]
  · exact accounted.beating other earlier
  · intro same
    exact Finset.ne_of_mem_erase otherAlive (accounted.single other earlier process alive same)

theorem releaseAll_count {pid other : Nat} (different : other ≠ pid) (names : List String)
    (name : String) : (releaseAll pid names holds name).count other = (holds name).count other := by
  unfold releaseAll
  split
  · exact List.count_erase_of_ne different
  · rfl

theorem Accounted.cleaned (accounted : Accounted state holds) {pid expected : Nat}
    (dead : (⟨pid, expected⟩ : Process) ∉ state.live) :
    ∃ lower, Accounted (state.cleaned pid expected) lower ∧
      (∀ name, (lower name).Sublist (holds name)) ∧
      ∀ name, name ∈ (state.cleaned pid expected).keys.cleanupQueue →
        name ∈ state.keys.cleanupQueue ∨ lower name = [] := by
  unfold Registry.cleaned RegistryKeys.cleanupDeadPid
  cases reused : state.keys.pidReused pid expected with
  | true =>
      refine ⟨holds, ?_, fun _ => List.Sublist.refl _, fun _ queued => Or.inl queued⟩
      simpa using accounted
  | false =>
      have live := accounted.cleanup_dead dead reused
      obtain ⟨keys, lowered⟩ := accounted.keys.decrementAll (state.keys.pidSegments pid)
        (accounted.distinct pid) (accounted.entered pid) 0
      refine ⟨releaseAll pid (state.keys.pidSegments pid) holds, ?_, ?_, ?_⟩
      · simp only [Bool.false_eq_true, if_false, RegistryKeys.reclaim, and_true]
        rw [lowered.pidSegments, lowered.heartbeats]
        refine accounted.lower keys lowered ?_ ?_ ?_ ?_ ?_ ?_
        · intro name none
          simp [releaseAll, none]
        · intro other name present
          by_cases here : other = pid
          · rw [here, Function.update_self] at present
            cases present
          · rw [Function.update_of_ne here] at present
            apply List.count_pos_iff.mp
            rw [releaseAll_count here]
            exact List.count_pos_iff.mpr (accounted.entered other name present)
        · intro other
          by_cases here : other = pid
          · rw [here, Function.update_self]
            exact List.nodup_nil
          · rw [Function.update_of_ne here]
            exact accounted.distinct other
        · intro process alive
          rw [Function.update_of_ne (live process alive)]
          exact accounted.beating process alive
        · intro process
          split
          · exact List.nil_sublist _
          · exact List.Sublist.refl _
        · intro process alive name
          rw [if_neg fun both => both.2 alive, releaseAll_count (live process alive)]
          exact accounted.opened process alive name
      · intro name
        unfold releaseAll
        split
        · exact List.erase_sublist
        · exact List.Sublist.refl _
      · intro name queued
        rcases lowered.queued name queued with earlier | ⟨_, empty⟩
        · exact Or.inl earlier
        · exact Or.inr empty

theorem Accounted.pop (accounted : Accounted state holds) {name : String}
    (queued : name ∈ state.keys.cleanupQueue) :
    Accounted { state with
      keys := { state.keys with cleanupQueue := state.keys.cleanupQueue.erase name }
      popped := Insert.insert name state.popped } holds := by
  refine { accounted with keys := ⟨accounted.keys.counted, ?_, accounted.keys.pointed⟩, linked := ?_, unused := ?_ }
  · intro other schema registered
    have before := accounted.keys.registered other schema registered
    exact ⟨before.1, fun later => before.2 (Finset.mem_of_mem_erase later)⟩
  · intro other schema registered
    have before := accounted.linked other schema registered
    refine ⟨before.1, ?_⟩
    intro taken
    rcases Finset.mem_insert.mp taken with rfl | earlier
    · exact (accounted.keys.registered other schema registered).2 queued
    · exact before.2 earlier
  · intro other absent
    obtain ⟨noHold, unqueued, unpopped⟩ := accounted.unused other absent
    refine ⟨noHold, fun later => unqueued (Finset.mem_of_mem_erase later), ?_⟩
    intro taken
    rcases Finset.mem_insert.mp taken with rfl | earlier
    · exact unqueued queued
    · exact unpopped earlier

theorem Accounted.unlink (accounted : Accounted state holds) {name : String}
    (taken : name ∈ state.popped) :
    Accounted { state with
      linked := state.linked.erase name
      popped := state.popped.erase name } holds := by
  refine { accounted with linked := ?_, unused := ?_ }
  · intro other schema registered
    have before := accounted.linked other schema registered
    refine ⟨Finset.mem_erase.mpr ⟨?_, before.1⟩, fun later => before.2 (Finset.mem_of_mem_erase later)⟩
    rintro rfl
    exact before.2 taken
  · intro other absent
    obtain ⟨noHold, unqueued, unpopped⟩ := accounted.unused other absent
    exact ⟨noHold, unqueued, fun later => unpopped (Finset.mem_of_mem_erase later)⟩

theorem flipSchemaCurrent_frame (keys : RegistryKeys) (schema expectedOld newName : String) :
    ∃ current, (keys.flipSchemaCurrent schema expectedOld newName).2 =
      { keys with current := current } := by
  unfold RegistryKeys.flipSchemaCurrent
  split
  · exact ⟨keys.current, rfl⟩
  · split
    · exact ⟨keys.current, rfl⟩
    · exact ⟨_, rfl⟩

theorem Accounted.flip (accounted : Accounted state holds) {process : Process}
    {schema newName : String} (expectedOld : String) (alive : process ∈ state.live)
    (member : ⟨newName, schema, .created⟩ ∈ state.handles process) :
    Accounted { state with keys := (state.keys.flipSchemaCurrent schema expectedOld newName).2 }
      holds := by
  have keys := accounted.keys.flip expectedOld (accounted.creators process alive _ member rfl)
  obtain ⟨current, flipped⟩ := flipSchemaCurrent_frame state.keys schema expectedOld newName
  rw [flipped] at keys ⊢
  exact { accounted with keys := keys }

end Actions

/-- Every segment that is queued or taken for removal has no holds. -/
def Quiet (state : Registry) (holds : String → List Nat) : Prop :=
  ∀ name, name ∈ state.keys.cleanupQueue ∨ name ∈ state.popped → holds name = []

/-- The transaction of an open finds the count of its segment still present. -/
def opensCounted (state : Registry) : RegistryAction → Bool
  | .register _ pending => (state.keys.refcount pending.segment).isSome
  | _ => true

/-- An action keeps the accounting, and keeps removed segments without holds under the guard. -/
theorem Accounted.perform {before after : Registry} {holds : String → List Nat}
    {action : RegistryAction} (accounted : Accounted before holds)
    (step : before.perform action = some after) :
    ∃ lower, Accounted after lower ∧
      (opensCounted before action = true → Quiet before holds → Quiet after lower) := by
  cases action with
  | start process =>
      obtain ⟨⟨fresh, free⟩, rfl⟩ := performed step
      exact ⟨holds, accounted.start fresh free, fun _ quiet => quiet⟩
  | create process schema name setCurrent =>
      obtain ⟨⟨alive, fresh⟩, rfl⟩ := performed step
      refine ⟨_, accounted.create setCurrent alive fresh, ?_⟩
      intro _ quiet other removed
      obtain ⟨_, unqueued, unpopped⟩ := accounted.unused name fresh
      rw [Function.update_of_ne]
      · exact quiet other removed
      · rintro rfl
        exact removed.elim unqueued unpopped
  | readCurrent process schema =>
      obtain ⟨name, found, _, rfl⟩ := readCurrent_performed step
      refine ⟨holds, accounted.withPending ?_, fun _ quiet => quiet⟩
      intro pending member
      rcases List.mem_cons.mp member with rfl | earlier
      · exact accounted.registered_used (accounted.keys.pointed schema name found)
      · exact accounted.pending process pending earlier
  | map process pending =>
      obtain ⟨⟨_, member, _⟩, rfl⟩ := performed step
      refine ⟨holds, accounted.withPending ?_, fun _ quiet => quiet⟩
      intro other present
      rcases List.mem_cons.mp present with rfl | earlier
      · exact accounted.pending process pending member
      · exact accounted.pending process other (List.mem_of_mem_erase earlier)
  | refuse process pending =>
      obtain ⟨_, rfl⟩ := performed step
      refine ⟨holds, accounted.withPending ?_, fun _ quiet => quiet⟩
      exact fun other present => accounted.pending process other (List.mem_of_mem_erase present)
  | register process pending =>
      obtain ⟨⟨alive, member, _⟩, rfl⟩ := performed step
      refine ⟨_, (accounted.register alive member).withPending ?_, ?_⟩
      · exact fun other present => accounted.pending process other (List.mem_of_mem_erase present)
      · intro counted quiet other removed
        rw [Function.update_of_ne]
        · exact quiet other removed
        · rintro rfl
          rw [opensCounted, accounted.keys.counted, if_pos (quiet _ removed)] at counted
          cases counted
  | close process handle =>
      obtain ⟨⟨alive, member⟩, rfl⟩ := performed step
      refine ⟨_, accounted.close alive member, ?_⟩
      have held := accounted.holder alive member
      have lowered := accounted.keys.decrement_lowered held
      have quieter : ∀ name, holds name = [] → Function.update holds handle.segment
          ((holds handle.segment).erase process.pid) name = [] := by
        intro name none
        rw [Function.update_of_ne]
        · exact none
        · rintro rfl
          rw [none] at held
          cases held
      rintro _ quiet name (removed | taken)
      · rcases lowered.queued name removed with earlier | ⟨_, empty⟩
        · exact quieter name (quiet name (Or.inl earlier))
        · exact empty
      · exact quieter name (quiet name (Or.inr taken))
  | crash process =>
      obtain ⟨_, rfl⟩ := performed step
      exact ⟨holds, accounted.ended process, fun _ quiet => quiet⟩
  | exit process =>
      obtain ⟨alive, rfl⟩ := performed step
      exact ⟨holds, accounted.exit alive, fun _ quiet => quiet⟩
  | cleanup pid expected =>
      obtain ⟨dead, rfl⟩ := performed step
      obtain ⟨lower, cleaned, fewer, queued⟩ := accounted.cleaned dead
      refine ⟨lower, cleaned, ?_⟩
      rintro _ quiet name (removed | taken)
      · rcases queued name removed with earlier | empty
        · have none := fewer name
          rw [quiet name (Or.inl earlier)] at none
          exact List.sublist_nil.mp none
        · exact empty
      · have none := fewer name
        rw [quiet name (Or.inr taken)] at none
        exact List.sublist_nil.mp none
  | pop name =>
      obtain ⟨queued, rfl⟩ := performed step
      refine ⟨holds, accounted.pop queued, ?_⟩
      rintro _ quiet other (removed | taken)
      · exact quiet other (Or.inl (Finset.mem_of_mem_erase removed))
      · rcases Finset.mem_insert.mp taken with rfl | earlier
        · exact quiet other (Or.inl queued)
        · exact quiet other (Or.inr earlier)
  | unlink name =>
      obtain ⟨taken, rfl⟩ := performed step
      refine ⟨holds, accounted.unlink taken, ?_⟩
      rintro _ quiet other (removed | later)
      · exact quiet other (Or.inl removed)
      · exact quiet other (Or.inr (Finset.mem_of_mem_erase later))
  | flip process schema expectedOld newName =>
      obtain ⟨⟨alive, member⟩, rfl⟩ := performed step
      refine ⟨holds, accounted.flip expectedOld alive member, ?_⟩
      intro _ quiet
      obtain ⟨current, flipped⟩ :=
        flipSchemaCurrent_frame before.keys schema expectedOld newName
      unfold Quiet
      rw [flipped]
      exact quiet

/-- A step keeps the accounting, and a run keeps it from the empty registry on. -/
theorem RegistryRun.accounted {guard : Registry → RegistryAction → Bool} {state : Registry}
    (run : RegistryRun guard state) : ∃ holds, Accounted state holds := by
  induction run with
  | refl => exact ⟨_, .initial⟩
  | tail _ step ih =>
      obtain ⟨holds, accounted⟩ := ih
      obtain ⟨action, _, performed⟩ := step
      obtain ⟨lower, after, _⟩ := accounted.perform performed
      exact ⟨lower, after⟩

/-- The state behind a list of actions is reached by a run. -/
theorem RegistryRun.performAll {guard : Registry → RegistryAction → Bool} {state after : Registry}
    {actions : List RegistryAction} (run : RegistryRun guard state)
    (all : state.performAll guard actions = some after) : RegistryRun guard after := by
  induction actions generalizing state with
  | nil =>
      cases all
      exact run
  | cons action rest ih =>
      obtain ⟨met, others⟩ := Option.ite_none_right_eq_some.mp all
      obtain ⟨next, performed, others⟩ := Option.bind_eq_some_iff.mp others
      exact ih (run.tail ⟨action, met, performed⟩) others

theorem Accounted.current (accounted : Accounted state holds) {schema name : String}
    (current : state.keys.current schema = some name) :
    (∃ count : Int, state.keys.refcount name = some count ∧ 1 ≤ count) ∧
      name ∉ state.keys.cleanupQueue ∧ name ∈ state.linked := by
  have registered := accounted.keys.pointed schema name current
  obtain ⟨held, unqueued⟩ := accounted.keys.registered name schema registered
  have positive := List.length_pos_of_ne_nil held
  refine ⟨⟨(holds name).length, ?_, by omega⟩, unqueued, (accounted.linked name schema registered).1⟩
  rw [accounted.keys.counted, if_neg held]

/-- The current segment of a schema is counted, not queued for removal, and linked. -/
theorem current_counted_linked {guard : Registry → RegistryAction → Bool} {state : Registry}
    (run : RegistryRun guard state) {schema name : String}
    (current : state.keys.current schema = some name) :
    (∃ count : Int, state.keys.refcount name = some count ∧ 1 ≤ count) ∧
      name ∉ state.keys.cleanupQueue ∧ name ∈ state.linked := by
  obtain ⟨holds, accounted⟩ := run.accounted
  exact accounted.current current

/-- A first process with its segment, and a second one that takes over while the first one ends. -/
def sampleTakeover : List RegistryAction :=
  [.start ⟨1, 10⟩, .create ⟨1, 10⟩ "Sample" "first" true, .start ⟨2, 11⟩,
    .readCurrent ⟨2, 11⟩ "Sample", .map ⟨2, 11⟩ ⟨"first", "Sample", false⟩,
    .register ⟨2, 11⟩ ⟨"first", "Sample", true⟩, .create ⟨1, 10⟩ "Sample" "second" false,
    .flip ⟨1, 10⟩ "Sample" "first" "second", .close ⟨2, 11⟩ ⟨"first", "Sample", .opened⟩,
    .close ⟨1, 10⟩ ⟨"first", "Sample", .created⟩, .pop "first", .unlink "first"]

/-- The flipped pointer of the sample names a counted and linked segment. -/
theorem current_counted_linked_sample : ∃ state : Registry,
    Registry.initial.performAll (fun _ _ => true) sampleTakeover = some state ∧
      state.keys.current "Sample" = some "second" ∧
      (∃ count : Int, state.keys.refcount "second" = some count ∧ 1 ≤ count) ∧
      "second" ∉ state.keys.cleanupQueue ∧ "second" ∈ state.linked := by
  have reached : (Registry.initial.performAll (fun _ _ => true) sampleTakeover).any (fun state =>
      state.keys.current "Sample" = some "second") = true := by decide
  obtain ⟨state, all, named⟩ := (Option.any_eq_true _ _).mp reached
  have current : state.keys.current "Sample" = some "second" := of_decide_eq_true named
  have run : RegistryRun (fun _ _ => true) state :=
    RegistryRun.performAll .refl all
  exact ⟨state, all, current, current_counted_linked run current⟩

end Quorin
