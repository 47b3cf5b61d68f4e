import Quorin.Proof.Registry.Pointer
import Mathlib.Algebra.BigOperators.Group.Finset.Basic
import Mathlib.Algebra.BigOperators.Group.Finset.Piecewise

namespace Quorin

/-- The number of open handles on a segment in a list of handles. -/
def handleCount (name : String) (handles : List Handle) : Nat :=
  handles.countP fun handle => handle.segment = name

/-- The number of unclosed handles on a segment in the given processes. -/
def Registry.openHandles (state : Registry) (processes : Finset Process) (name : String) : Nat :=
  ∑ process ∈ processes, handleCount name (state.handles process)

/-- An open finds no handle of its process on the segment, and a start finds an empty set. -/
def opensOnce (state : Registry) : RegistryAction → Bool
  | .start process => (state.keys.pidSegments process.pid).isEmpty
  | .register process pending =>
      (state.handles process).all fun handle => handle.segment ≠ pending.segment
  | _ => true

/-- Sets and counts agree with the unclosed handles. -/
structure HandlesExact (state : Registry) : Prop where
  sets : ∀ pid name, name ∈ state.keys.pidSegments pid ↔
    ∃ process, process.pid = pid ∧ 0 < handleCount name (state.handles process)
  sole : ∀ first second, first.pid = second.pid → state.handles first ≠ [] →
    state.handles second ≠ [] → first = second
  alone : ∀ process ∈ state.live, ∀ other, other.pid = process.pid → other ≠ process →
    state.handles other = []
  once : ∀ process name, handleCount name (state.handles process) ≤ 1
  counted : ∀ name, (state.keys.refcount name).getD 0 = (state.openHandles state.started name : Int)

section Counts

variable {state : Registry} {holds : String → List Nat}

theorem handleCount_pos {name : String} {handles : List Handle} :
    0 < handleCount name handles ↔ ∃ handle ∈ handles, handle.segment = name := by
  simp [handleCount, List.countP_pos_iff]

theorem handleCount_cons (name : String) (handle : Handle) (handles : List Handle) :
    handleCount name (handle :: handles) =
      handleCount name handles + if handle.segment = name then 1 else 0 := by
  simp [handleCount, List.countP_cons]

theorem handleCount_erase {name : String} {handle : Handle} {handles : List Handle}
    (member : handle ∈ handles) :
    handleCount name (handles.erase handle) + (if handle.segment = name then 1 else 0) =
      handleCount name handles := by
  have positive : handle.segment = name → 0 < handleCount name handles :=
    fun same => handleCount_pos.mpr ⟨handle, member, same⟩
  unfold handleCount at *
  rw [List.countP_erase]
  by_cases same : handle.segment = name
  · have := positive same
    simp [member, same]
    omega
  · simp [same]

theorem handles_ne_nil {name : String} {handles : List Handle}
    (positive : 0 < handleCount name handles) : handles ≠ [] := by
  rintro rfl
  exact absurd positive (by simp [handleCount])

/-- An update of the handles of one process changes the sum by that process. -/
theorem sum_update_handles {processes : Finset Process} {process : Process}
    (member : process ∈ processes) (before : Process → List Handle) (after : List Handle)
    (name : String) :
    (∑ other ∈ processes, handleCount name (Function.update before process after other)) +
        handleCount name (before process) =
      (∑ other ∈ processes, handleCount name (before other)) + handleCount name after := by
  have composed : (fun other => handleCount name (Function.update before process after other)) =
      Function.update (fun other => handleCount name (before other)) process
        (handleCount name after) := by
    funext other
    by_cases here : other = process
    · subst here
      simp
    · simp [here]
  rw [composed, Finset.sum_update_of_mem member, ← Finset.erase_eq,
    ← Finset.add_sum_erase processes _ member]
  omega

end Counts

section Exact

variable {state : Registry} {holds : String → List Nat}

theorem HandlesExact.initial : HandlesExact .initial := by
  constructor <;> simp [Registry.initial, Registry.openHandles, handleCount]

/-- A change of the handles of one live process keeps the agreement when its set follows. -/
theorem HandlesExact.update (exact : HandlesExact state) (accounted : Accounted state holds)
    {process : Process} (alive : process ∈ state.live) {keys : RegistryKeys}
    {handles : List Handle} {segments : List String}
    (sets : keys.pidSegments = Function.update state.keys.pidSegments process.pid segments)
    (members : ∀ name, name ∈ segments ↔ 0 < handleCount name handles)
    (once : ∀ name, handleCount name handles ≤ 1)
    (counts : ∀ name, (keys.refcount name).getD 0 +
        (handleCount name (state.handles process) : Int) =
      (state.keys.refcount name).getD 0 + (handleCount name handles : Int))
    (linked used : Finset String) (opening : Process → List PendingOpen) :
    HandlesExact { state with
      keys := keys
      linked := linked
      used := used
      handles := Function.update state.handles process handles
      opening := opening } := by
  have others : ∀ other, other.pid = process.pid → other ≠ process → state.handles other = [] :=
    exact.alone process alive
  constructor
  · intro pid name
    dsimp only
    rw [sets]
    by_cases here : pid = process.pid
    · subst here
      rw [Function.update_self, members]
      constructor
      · intro positive
        exact ⟨process, rfl, by rwa [Function.update_self]⟩
      · rintro ⟨other, same, positive⟩
        by_cases itself : other = process
        · rwa [itself, Function.update_self] at positive
        · rw [Function.update_of_ne itself, others other same itself] at positive
          exact absurd rfl (handles_ne_nil positive)
    · rw [Function.update_of_ne here, exact.sets]
      have elsewhere : ∀ other : Process, other.pid = pid → other ≠ process := by
        rintro other same rfl
        exact here same.symm
      constructor
      · rintro ⟨other, same, positive⟩
        exact ⟨other, same, by rwa [Function.update_of_ne (elsewhere other same)]⟩
      · rintro ⟨other, same, positive⟩
        rw [Function.update_of_ne (elsewhere other same)] at positive
        exact ⟨other, same, positive⟩
  · intro first second same firstHas secondHas
    have itself : ∀ other, other.pid = process.pid →
        Function.update state.handles process handles other ≠ [] → other = process := by
      intro other samePid has
      by_contra different
      rw [Function.update_of_ne different] at has
      exact has (others other samePid different)
    by_cases here : first.pid = process.pid
    · rw [itself first here firstHas, itself second (same.symm.trans here) secondHas]
    · have firstElse : first ≠ process := fun equal => here (by rw [equal])
      have secondElse : second ≠ process := fun equal => here (by rw [same, equal])
      dsimp only at firstHas secondHas
      rw [Function.update_of_ne firstElse] at firstHas
      rw [Function.update_of_ne secondElse] at secondHas
      exact exact.sole first second same firstHas secondHas
  · intro holder holderAlive other same different
    dsimp only
    by_cases itself : other = process
    · subst itself
      exact absurd (accounted.single other alive holder holderAlive same) different
    · rw [Function.update_of_ne itself]
      exact exact.alone holder holderAlive other same different
  · intro other name
    dsimp only
    by_cases itself : other = process
    · rw [itself, Function.update_self]
      exact once name
    · rw [Function.update_of_ne itself]
      exact exact.once other name
  · intro name
    have moved := sum_update_handles (accounted.begun process alive) state.handles handles name
    have before := exact.counted name
    have after := counts name
    unfold Registry.openHandles at before ⊢
    dsimp only
    omega

/-- The set of a live process holds the segments on which the process has handles. -/
theorem HandlesExact.own (exact : HandlesExact state) {process : Process}
    (alive : process ∈ state.live) (name : String) :
    name ∈ state.keys.pidSegments process.pid ↔ 0 < handleCount name (state.handles process) := by
  rw [exact.sets]
  constructor
  · rintro ⟨other, same, positive⟩
    by_cases itself : other = process
    · rwa [← itself]
    · rw [exact.alone process alive other same itself] at positive
      exact absurd rfl (handles_ne_nil positive)
  · exact fun positive => ⟨process, rfl, positive⟩

/-- A process without a handle on a segment has one behind an added handle. -/
theorem HandlesExact.add (exact : HandlesExact state) {process : Process} {handle : Handle}
    (alive : process ∈ state.live)
    (absent : ∀ other ∈ state.handles process, other.segment ≠ handle.segment) :
    (∀ name, name ∈ (state.keys.pidSegments process.pid).insert handle.segment ↔
      0 < handleCount name (handle :: state.handles process)) ∧
    ∀ name, handleCount name (handle :: state.handles process) ≤ 1 := by
  have none : handleCount handle.segment (state.handles process) = 0 := by
    by_contra some
    obtain ⟨other, member, same⟩ := handleCount_pos.mp (Nat.pos_of_ne_zero some)
    exact absent other member same
  constructor
  · intro name
    rw [List.mem_insert_iff, exact.own alive, handleCount_cons]
    by_cases same : handle.segment = name
    · simp [same]
    · simp [same, Ne.symm same]
  · intro name
    have before := exact.once process name
    rw [handleCount_cons]
    by_cases same : handle.segment = name
    · rw [if_pos same, ← same, none]
    · rw [if_neg same]
      exact before

theorem HandlesExact.create (exact : HandlesExact state) (accounted : Accounted state holds)
    {process : Process} (alive : process ∈ state.live) {name : String} (fresh : name ∉ state.used)
    (schema : String) (setCurrent : Bool) (linked used : Finset String) :
    HandlesExact { state with
      keys := state.keys.createPipeline process.pid schema name setCurrent
      linked := linked
      used := used
      handles := Function.update state.handles process
        (⟨name, schema, .created⟩ :: state.handles process) } := by
  have noHold := (accounted.unused name fresh).1
  have absent : ∀ other ∈ state.handles process, other.segment ≠ name := by
    rintro other member rfl
    have held := accounted.holder alive member
    rw [noHold] at held
    cases held
  obtain ⟨members, once⟩ := @HandlesExact.add state exact process ⟨name, schema, .created⟩ alive absent
  refine exact.update accounted alive rfl members once ?_ linked used state.opening
  intro other
  rw [handleCount_cons]
  by_cases same : name = other
  · subst same
    rw [accounted.keys.count, noHold]
    simp [RegistryKeys.createPipeline]
    omega
  · simp [RegistryKeys.createPipeline, same, Ne.symm same]

theorem HandlesExact.register (exact : HandlesExact state) (accounted : Accounted state holds)
    {process : Process} {pending : PendingOpen} (alive : process ∈ state.live)
    (absent : ∀ handle ∈ state.handles process, handle.segment ≠ pending.segment)
    (opening : Process → List PendingOpen) :
    HandlesExact { state with
      keys := state.keys.openPipeline process.pid pending.segment
      handles := Function.update state.handles process
        (⟨pending.segment, pending.schema, .opened⟩ :: state.handles process)
      opening := opening } := by
  obtain ⟨members, once⟩ := @HandlesExact.add state exact process
    ⟨pending.segment, pending.schema, .opened⟩ alive absent
  refine exact.update accounted alive rfl members once ?_ state.linked state.used opening
  intro other
  rw [handleCount_cons]
  by_cases same : pending.segment = other
  · subst same
    simp [RegistryKeys.openPipeline]
    omega
  · simp [RegistryKeys.openPipeline, same, Ne.symm same]

theorem HandlesExact.close (exact : HandlesExact state) (accounted : Accounted state holds)
    {process : Process} {handle : Handle} (alive : process ∈ state.live)
    (member : handle ∈ state.handles process) :
    HandlesExact { state with
      keys := (state.keys.closeScript process.pid handle.segment).2
      handles := Function.update state.handles process ((state.handles process).erase handle) } := by
  have held := accounted.holder alive member
  have lowered := accounted.keys.decrement_lowered held
  have after := accounted.keys.decrement held
  have sets : (state.keys.closeScript process.pid handle.segment).2.pidSegments =
      Function.update state.keys.pidSegments process.pid
        ((state.keys.pidSegments process.pid).erase handle.segment) := by
    simp only [RegistryKeys.closeScript, lowered.pidSegments]
  refine exact.update accounted alive sets ?_ ?_ ?_ state.linked state.used state.opening
  · intro name
    have erased := @handleCount_erase name handle (state.handles process) member
    have before := exact.once process name
    rw [(accounted.distinct process.pid).mem_erase_iff, exact.own alive]
    by_cases same : handle.segment = name
    · rw [if_pos same] at erased
      have zero : handleCount name ((state.handles process).erase handle) = 0 := by omega
      simp [same, zero]
    · rw [if_neg same] at erased
      simp [Ne.symm same, ← erased]
  · intro name
    have erased := @handleCount_erase name handle (state.handles process) member
    have before := exact.once process name
    omega
  · intro name
    have erased := @handleCount_erase name handle (state.handles process) member
    have count : ((state.keys.closeScript process.pid handle.segment).2.refcount name).getD 0 =
        ((Function.update holds handle.segment ((holds handle.segment).erase process.pid)
          name).length : Int) := after.count name
    rw [count, accounted.keys.count]
    by_cases same : handle.segment = name
    · subst same
      rw [Function.update_self, List.length_erase_of_mem held]
      have positive := List.length_pos_of_mem held
      rw [if_pos rfl] at erased
      omega
    · rw [Function.update_of_ne (Ne.symm same)]
      rw [if_neg same] at erased
      omega

/-- The unclosed handles of one process id are counted once for each segment of its set. -/
theorem HandlesExact.openHandles_pid (exact : HandlesExact state) (accounted : Accounted state holds)
    (pid : Nat) (name : String) :
    state.openHandles (state.started.filter fun process => process.pid = pid) name =
      if name ∈ state.keys.pidSegments pid then 1 else 0 := by
  unfold Registry.openHandles
  split
  · rename_i present
    obtain ⟨process, same, positive⟩ := (exact.sets pid name).mp present
    have has := handles_ne_nil positive
    have begun : process ∈ state.started := by
      by_contra absent
      exact has (accounted.known process absent)
    rw [Finset.sum_eq_single process]
    · have once := exact.once process name
      omega
    · intro other member different
      obtain ⟨_, otherPid⟩ := Finset.mem_filter.mp member
      by_contra some
      exact different (exact.sole other process (otherPid.trans same.symm)
        (handles_ne_nil (Nat.pos_of_ne_zero some)) has)
    · intro absent
      exact absurd (Finset.mem_filter.mpr ⟨begun, same⟩) absent
  · rename_i absent
    apply Finset.sum_eq_zero
    intro process member
    obtain ⟨_, same⟩ := Finset.mem_filter.mp member
    by_contra some
    exact absent ((exact.sets pid name).mpr ⟨process, same, Nat.pos_of_ne_zero some⟩)

/-- A cleanup behind its guard leaves the handles of the other process ids counted. -/
theorem HandlesExact.reclaimed (exact : HandlesExact state) (accounted : Accounted state holds)
    {pid expected : Nat} (passed : state.keys.pidReused pid expected = false) (name : String) :
    ((state.cleaned pid expected).keys.refcount name).getD 0 =
      (state.openHandles (state.started.filter fun process => process.pid ≠ pid) name : Int) := by
  obtain ⟨keys, _⟩ := accounted.keys.decrementAll (state.keys.pidSegments pid)
    (accounted.distinct pid) (accounted.entered pid) 0
  have count : ((state.cleaned pid expected).keys.refcount name).getD 0 =
      ((releaseAll pid (state.keys.pidSegments pid) holds name).length : Int) := by
    have after := keys.count name
    simpa [Registry.cleaned, RegistryKeys.cleanupDeadPid, passed, RegistryKeys.reclaim] using after
  have length : (releaseAll pid (state.keys.pidSegments pid) holds name).length +
      (if name ∈ state.keys.pidSegments pid then 1 else 0) = (holds name).length := by
    unfold releaseAll
    split
    · rename_i present
      have held := accounted.entered pid name present
      have positive := List.length_pos_of_mem held
      rw [List.length_erase_of_mem held]
      omega
    · rfl
  have split : state.openHandles state.started name =
      state.openHandles (state.started.filter fun process => process.pid = pid) name +
        state.openHandles (state.started.filter fun process => process.pid ≠ pid) name :=
    (Finset.sum_filter_add_sum_filter_not _ _ _).symm
  have before := exact.counted name
  rw [accounted.keys.count, split, exact.openHandles_pid accounted] at before
  rw [count]
  omega

theorem HandlesExact.cleaned (exact : HandlesExact state) (accounted : Accounted state holds)
    {pid expected : Nat} (dead : (⟨pid, expected⟩ : Process) ∉ state.live) :
    HandlesExact (state.cleaned pid expected) := by
  cases reused : state.keys.pidReused pid expected with
  | true =>
      have same : state.cleaned pid expected = state := by
        simp [Registry.cleaned, RegistryKeys.cleanupDeadPid, reused]
      rw [same]
      exact exact
  | false =>
      have live := accounted.cleanup_dead dead reused
      obtain ⟨_, lowered⟩ := accounted.keys.decrementAll (state.keys.pidSegments pid)
        (accounted.distinct pid) (accounted.entered pid) 0
      have sets : (state.cleaned pid expected).keys.pidSegments =
          Function.update state.keys.pidSegments pid [] := by
        simp [Registry.cleaned, RegistryKeys.cleanupDeadPid, reused, RegistryKeys.reclaim,
          lowered.pidSegments]
      have handles : ∀ process, (state.cleaned pid expected).handles process =
          if process.pid = pid then [] else state.handles process := by
        intro process
        simp only [Registry.cleaned, reused, and_true]
        by_cases here : process.pid = pid
        · rw [if_pos ⟨here, fun alive => live process alive here⟩, if_pos here]
        · rw [if_neg fun both => here both.1, if_neg here]
      constructor
      · intro other name
        rw [sets]
        by_cases here : other = pid
        · subst here
          rw [Function.update_self]
          constructor
          · exact fun present => absurd present List.not_mem_nil
          · rintro ⟨process, same, positive⟩
            rw [handles, if_pos same] at positive
            exact absurd rfl (handles_ne_nil positive)
        · rw [Function.update_of_ne here, exact.sets]
          constructor
          · rintro ⟨process, same, positive⟩
            exact ⟨process, same, by rwa [handles, if_neg (by rw [same]; exact here)]⟩
          · rintro ⟨process, same, positive⟩
            rw [handles, if_neg (by rw [same]; exact here)] at positive
            exact ⟨process, same, positive⟩
      · intro first second same firstHas secondHas
        rw [handles] at firstHas secondHas
        split at firstHas
        · exact absurd rfl firstHas
        · split at secondHas
          · exact absurd rfl secondHas
          · exact exact.sole first second same firstHas secondHas
      · intro process alive other same different
        rw [handles]
        split
        · rfl
        · exact exact.alone process alive other same different
      · intro process name
        rw [handles]
        split
        · exact Nat.zero_le _
        · exact exact.once process name
      · intro name
        rw [exact.reclaimed accounted reused]
        unfold Registry.openHandles
        rw [Finset.sum_filter]
        congr 1
        apply Finset.sum_congr rfl
        intro process _
        rw [handles]
        by_cases here : process.pid = pid
        · rw [if_neg (not_not.mpr here), if_pos here]
          rfl
        · rw [if_pos here, if_neg here]

theorem HandlesExact.ended (exact : HandlesExact state) (process : Process) :
    HandlesExact (state.ended process) :=
  { exact with
    alone := fun holder alive => exact.alone holder (Finset.mem_of_mem_erase alive) }

theorem HandlesExact.start (exact : HandlesExact state) (accounted : Accounted state holds)
    {process : Process} (fresh : process ∉ state.started)
    (empty : state.keys.pidSegments process.pid = []) (beats : Nat → Option Nat) :
    HandlesExact { state with
      keys := { state.keys with heartbeats := beats }
      started := Insert.insert process state.started
      live := Insert.insert process state.live } := by
  have none := accounted.known process fresh
  refine { exact with alone := ?_, counted := ?_ }
  · intro holder alive other same different
    rcases Finset.mem_insert.mp alive with rfl | earlier
    · cases has : state.handles other with
      | nil => rfl
      | cons handle rest =>
          have present : handle.segment ∈ state.keys.pidSegments holder.pid := by
            refine (exact.sets _ _).mpr ⟨other, same, handleCount_pos.mpr ⟨handle, ?_, rfl⟩⟩
            rw [has]
            exact List.mem_cons_self
          rw [empty] at present
          cases present
    · exact exact.alone holder earlier other same different
  · intro name
    have before := exact.counted name
    unfold Registry.openHandles at before ⊢
    dsimp only
    rw [Finset.sum_insert fresh, none, before]
    simp [handleCount]

/-- An action keeps the agreement when no process opens a segment twice. -/
theorem HandlesExact.perform {after : Registry} {action : RegistryAction}
    (exact : HandlesExact state) (accounted : Accounted state holds) (once : opensOnce state action = true)
    (step : state.perform action = some after) : HandlesExact after := by
  cases action with
  | start process =>
      obtain ⟨⟨fresh, _⟩, rfl⟩ := performed step
      exact exact.start accounted fresh (List.isEmpty_iff.mp once) _
  | create process schema name setCurrent =>
      obtain ⟨⟨alive, fresh⟩, rfl⟩ := performed step
      exact exact.create accounted alive fresh schema setCurrent _ _
  | readCurrent process schema =>
      obtain ⟨_, _, _, rfl⟩ := readCurrent_performed step
      exact { exact with }
  | map process pending =>
      obtain ⟨_, rfl⟩ := performed step
      exact { exact with }
  | refuse process pending =>
      obtain ⟨_, rfl⟩ := performed step
      exact { exact with }
  | register process pending =>
      obtain ⟨⟨alive, _⟩, rfl⟩ := performed step
      have absent : ∀ handle ∈ state.handles process, handle.segment ≠ pending.segment := by
        simpa [opensOnce] using once
      exact exact.register accounted alive absent _
  | close process handle =>
      obtain ⟨⟨alive, member⟩, rfl⟩ := performed step
      exact exact.close accounted alive member
  | crash process =>
      obtain ⟨_, rfl⟩ := performed step
      exact exact.ended process
  | exit process =>
      obtain ⟨_, rfl⟩ := performed step
      exact { exact.ended process with }
  | cleanup pid expected =>
      obtain ⟨dead, rfl⟩ := performed step
      exact exact.cleaned accounted dead
  | pop name =>
      obtain ⟨_, rfl⟩ := performed step
      exact { exact with }
  | unlink name =>
      obtain ⟨_, rfl⟩ := performed step
      exact { exact with }
  | flip process schema expectedOld newName =>
      obtain ⟨_, rfl⟩ := performed step
      obtain ⟨current, flipped⟩ := flipSchemaCurrent_frame state.keys schema expectedOld newName
      rw [flipped]
      exact { exact with }

end Exact

end Quorin
