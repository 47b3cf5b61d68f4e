import Quorin.Proof.Segment.Writer

namespace Quorin

open ByteMemory LinearProbe Relation Program

section Visits

variable {hashId : List UInt8 → UInt64} {layout : SegmentLayout} (sound : LayoutSound layout)
  {state : WriterState} (invariant : WriterInvariant hashId layout state)

/-- The key of an occupied slot is classified by its hash and by its bytes. -/
theorem classify_occupied {memory : Memory} {rows cursor index : Nat}
    (slot : SlotSound hashId layout memory rows cursor index)
    (occupied : slotFlags layout memory index = flagOccupied) (key : List UInt8) :
    classify (slotKey layout memory index) key =
        (if entryBytes layout memory (slotIdOffset layout memory index) = key then .hit
          else .miss) ∧
      (slotHash layout memory index ≠ (hashId key).toNat →
        classify (slotKey layout memory index) key = .miss) := by
  rw [slotKey_of_occupied occupied]
  refine ⟨rfl, fun different => ?_⟩
  have other : entryBytes layout memory (slotIdOffset layout memory index) ≠ key := by
    intro same
    rw [slot.hash, same] at different
    exact different rfl
  simp [classify, other]

/-- A visit is linearizable when it classifies the slot as one state during the visit holds it. -/
def VisitSeen (hashId : List UInt8 → UInt64) (layout : SegmentLayout) (state : WriterState)
    (key : List UInt8) (index : Nat) (later : WriterState)
    (outcome : Except SegmentError SlotProbe) : Prop :=
  ∃ seen, ReflTransGen (WriterStep hashId layout) state seen ∧
    ReflTransGen (WriterStep hashId layout) seen later ∧
    outcome = .ok (classify (slotKey layout seen.memory index) key)

theorem entryBytes_length (layout : SegmentLayout) (memory : Memory) (idOffset : Nat) :
    (entryBytes layout memory idOffset).length = entryLength layout memory idOffset :=
  Memory.read_length _ _ _

/-- The stored bytes of a stable pool entry are read as they are. -/
theorem readStringBytes_guarantees {idOffset : Nat} {bytes : List UInt8}
    (short : bytes.length ≤ layout.maxIdBytes)
    (stable : ∀ later, ReflTransGen (WriterStep hashId layout) state later →
      entryLength layout later.memory idOffset = bytes.length ∧
        entryBytes layout later.memory idOffset = bytes) :
    (readStringBytes layout idOffset).Guarantees (WriterStep hashId layout) WriterState.memory
      (fun later outcome => ReflTransGen (WriterStep hashId layout) state later ∧
        outcome = .ok bytes) state := by
  unfold readStringBytes
  refine Guarantees.readNat ?_
  intro first path
  have length := (stable first path).1
  rw [show first.memory.readNat (layout.entryAddress idOffset) lenPrefixBytes = bytes.length from
    length, if_neg (Nat.not_lt.mpr short)]
  refine Guarantees.readAll fun second rest final last => ?_
  have content := (stable second (path.trans rest)).2
  rw [entryBytes, (stable second (path.trans rest)).1] at content
  exact ⟨(path.trans rest).trans last, congrArg Except.ok content⟩

include sound invariant in
/-- A visit of `lookup` is linearizable at its read of the flags. -/
theorem probeSlot_guarantees (key : List UInt8) {index : Nat}
    (inside : index < layout.slotCapacity) :
    (probeSlot layout (hashId key) key index).Guarantees (WriterStep hashId layout)
      WriterState.memory (VisitSeen hashId layout state key index) state := by
  unfold probeSlot
  refine Guarantees.readNat ?_
  intro seen path
  have consistent := (invariant.run sound path).1.consistent
  rw [show seen.memory.readNat (layout.slotField index slotFlagsOffset) 4 =
    slotFlags layout seen.memory index from rfl]
  rcases consistent.flags index inside with vacant | occupied
  · rw [if_pos vacant]
    refine Guarantees.pure fun later rest => ?_
    exact ⟨seen, path, rest, by rw [(consistent.slotKey_eq_none inside).mpr vacant]; rfl⟩
  · have slot := consistent.slot index inside occupied
    have same : ∀ later, ReflTransGen (WriterStep hashId layout) seen later →
        SameRecord layout seen.memory later.memory index :=
      fun later rest => ((invariant.run sound path).1.run sound rest).2 index inside occupied
    have nonempty : ¬ slotFlags layout seen.memory index = flagEmpty := by
      rw [occupied]; decide
    have classified := classify_occupied slot occupied key
    rw [if_neg nonempty, if_pos occupied]
    refine Guarantees.readNat ?_
    intro second secondPath
    rw [show second.memory.readNat (layout.slotField index slotNameHashOffset) 8 = _ from
      (same second secondPath).hash]
    by_cases sameHash : slotHash layout seen.memory index = (hashId key).toNat
    · rw [if_pos sameHash]
      refine Guarantees.readNat ?_
      intro third thirdPath
      have reached := secondPath.trans thirdPath
      rw [show third.memory.readNat (layout.slotField index slotIdOffsetOffset) 8 = _ from
        (same third reached).idOffset]
      have stable : ∀ later, ReflTransGen (WriterStep hashId layout) third later →
          entryLength layout later.memory (slotIdOffset layout seen.memory index) =
              (entryBytes layout seen.memory (slotIdOffset layout seen.memory index)).length ∧
            entryBytes layout later.memory (slotIdOffset layout seen.memory index) =
              entryBytes layout seen.memory (slotIdOffset layout seen.memory index) := by
        intro later rest
        have record := same later (reached.trans rest)
        rw [entryBytes_length]
        exact ⟨record.length, record.bytes⟩
      have short : (entryBytes layout seen.memory
          (slotIdOffset layout seen.memory index)).length ≤ layout.maxIdBytes := by
        rw [entryBytes_length]
        exact slot.length
      refine Guarantees.bind (readStringBytes_guarantees short stable) ?_ ?_
      · intro later stored found
        obtain ⟨rest, equal⟩ := found
        obtain rfl := Except.ok.inj equal
        have tail := reached.trans rest
        by_cases equalKey : entryBytes layout seen.memory (slotIdOffset layout seen.memory index) = key
        · rw [if_pos equalKey]
          rw [if_pos equalKey] at classified
          exact Guarantees.pure fun final last =>
            ⟨seen, path, tail.trans last, by rw [classified.1]⟩
        · rw [if_neg equalKey]
          rw [if_neg equalKey] at classified
          exact Guarantees.pure fun final last =>
            ⟨seen, path, tail.trans last, by rw [classified.1]⟩
      · intro later error found
        cases found.2
    · rw [if_neg sameHash]
      refine Guarantees.pure fun later rest => ?_
      exact ⟨seen, path, secondPath.trans rest, by rw [classified.2 sameHash]⟩

/-- The byte comparison of stable bytes decides their equality. -/
theorem compareBytes_guarantees {address : Nat} {bytes expected : List UInt8}
    (size : bytes.length = expected.length)
    (stable : ∀ later, ReflTransGen (WriterStep hashId layout) state later →
      later.memory.read address bytes.length = bytes) :
    (compareBytes address expected).Guarantees (WriterStep hashId layout) WriterState.memory
      (fun later outcome => ReflTransGen (WriterStep hashId layout) state later ∧
        outcome = .ok (decide (bytes = expected))) state := by
  induction expected generalizing address bytes state with
  | nil =>
      obtain rfl := List.length_eq_zero_iff.mp size
      exact Guarantees.pure fun later path => ⟨path, rfl⟩
  | cons byte rest ih =>
      obtain ⟨first, others, rfl⟩ := List.exists_cons_of_length_eq_add_one size
      rw [List.length_cons, Nat.add_comm] at stable
      have head : ∀ later, ReflTransGen (WriterStep hashId layout) state later →
          later.memory.readNat address 1 = first.toNat := by
        intro later path
        rw [Memory.readNat, ← Memory.read_take later.memory address 1 others.length,
          stable later path]
        simp [leNat]
      have tail : ∀ later, ReflTransGen (WriterStep hashId layout) state later →
          later.memory.read (address + 1) others.length = others := by
        intro later path
        rw [← Memory.read_drop later.memory address 1 others.length, stable later path]
        rfl
      rw [compareBytes]
      refine Guarantees.readNat ?_
      intro later path
      rw [head later path]
      by_cases same : first = byte
      · rw [if_pos (congrArg UInt8.toNat same)]
        have stableTail : ∀ final, ReflTransGen (WriterStep hashId layout) later final →
            final.memory.read (address + 1) others.length = others :=
          fun final rest => tail final (path.trans rest)
        refine Guarantees.weaken (ih (by simpa using size) stableTail) ?_
        intro final outcome found
        exact ⟨path.trans found.1, by simp [found.2, same]⟩
      · rw [if_neg fun equal => same (UInt8.toNat_inj.mp equal)]
        exact Guarantees.pure fun final rest => ⟨path.trans rest, by simp [same]⟩

include sound invariant in
/-- A visit of `_lookup_core` is linearizable at its read of the flags. -/
theorem probeSlotCore_guarantees (key : List UInt8) {index : Nat}
    (inside : index < layout.slotCapacity) :
    (probeSlotCore layout (hashId key) key index).Guarantees (WriterStep hashId layout)
      WriterState.memory (VisitSeen hashId layout state key index) state := by
  unfold probeSlotCore
  refine Guarantees.readNat ?_
  intro seen path
  have consistent := (invariant.run sound path).1.consistent
  rw [show seen.memory.readNat (layout.slotField index slotFlagsOffset) 4 =
    slotFlags layout seen.memory index from rfl]
  rcases consistent.flags index inside with vacant | occupied
  · rw [if_pos vacant]
    refine Guarantees.pure fun later rest => ?_
    exact ⟨seen, path, rest, by rw [(consistent.slotKey_eq_none inside).mpr vacant]; rfl⟩
  · have slot := consistent.slot index inside occupied
    have same : ∀ later, ReflTransGen (WriterStep hashId layout) seen later →
        SameRecord layout seen.memory later.memory index :=
      fun later rest => ((invariant.run sound path).1.run sound rest).2 index inside occupied
    have nonempty : ¬ slotFlags layout seen.memory index = flagEmpty := by
      rw [occupied]; decide
    have classified := classify_occupied slot occupied key
    have missed : entryBytes layout seen.memory (slotIdOffset layout seen.memory index) ≠ key →
        classify (slotKey layout seen.memory index) key = .miss := by
      intro different
      rw [classified.1, if_neg different]
    rw [if_neg nonempty]
    refine Guarantees.readNat ?_
    intro second secondPath
    rw [show second.memory.readNat (layout.slotField index slotNameHashOffset) 8 = _ from
      (same second secondPath).hash]
    by_cases sameHash : slotHash layout seen.memory index = (hashId key).toNat
    · rw [if_pos ⟨occupied, sameHash⟩]
      refine Guarantees.readNat ?_
      intro third thirdPath
      have reached := secondPath.trans thirdPath
      rw [show third.memory.readNat (layout.slotField index slotIdOffsetOffset) 8 = _ from
        (same third reached).idOffset]
      refine Guarantees.readNat ?_
      intro fourth fourthPath
      have arrived := reached.trans fourthPath
      rw [show fourth.memory.readNat (layout.entryAddress (slotIdOffset layout seen.memory index))
        lenPrefixBytes = _ from (same fourth arrived).length, if_neg (Nat.not_lt.mpr slot.length)]
      by_cases sameLength : entryLength layout seen.memory (slotIdOffset layout seen.memory index) =
          key.length
      · rw [if_pos sameLength]
        have stable : ∀ later, ReflTransGen (WriterStep hashId layout) fourth later →
            later.memory.read
                (layout.entryAddress (slotIdOffset layout seen.memory index) + lenPrefixBytes)
                (entryBytes layout seen.memory (slotIdOffset layout seen.memory index)).length =
              entryBytes layout seen.memory (slotIdOffset layout seen.memory index) := by
          intro later rest
          have record := same later (arrived.trans rest)
          rw [entryBytes_length, ← record.length]
          exact record.bytes
        refine Guarantees.bind (compareBytes_guarantees
          ((entryBytes_length _ _ _).trans sameLength) stable) ?_ ?_
        · intro later matched found
          obtain ⟨rest, equal⟩ := found
          obtain rfl := Except.ok.inj equal
          have tail := arrived.trans rest
          by_cases equalKey :
              entryBytes layout seen.memory (slotIdOffset layout seen.memory index) = key
          · rw [if_pos (decide_eq_true equalKey)]
            rw [if_pos equalKey] at classified
            exact Guarantees.pure fun final last =>
              ⟨seen, path, tail.trans last, by rw [classified.1]⟩
          · rw [if_neg (by simpa using equalKey)]
            exact Guarantees.pure fun final last =>
              ⟨seen, path, tail.trans last, by rw [missed equalKey]⟩
        · intro later error found
          cases found.2
      · rw [if_neg sameLength]
        have different :
            entryBytes layout seen.memory (slotIdOffset layout seen.memory index) ≠ key := by
          intro equal
          rw [← entryBytes_length, equal] at sameLength
          exact sameLength rfl
        exact Guarantees.pure fun final last =>
          ⟨seen, path, arrived.trans last, by rw [missed different]⟩
    · rw [if_neg fun both => sameHash both.2]
      exact Guarantees.pure fun later rest =>
        ⟨seen, path, secondPath.trans rest, by rw [classified.2 sameHash]⟩

end Visits

section Walk

variable {hashId : List UInt8 → UInt64} {layout : SegmentLayout} {memory : Memory}
  {key : List UInt8} {distance : Nat}

/-- The slot of the id, if there is one, lies at least `distance` steps behind its home slot. -/
def Ahead (hashId : List UInt8 → UInt64) (layout : SegmentLayout) (memory : Memory)
    (key : List UInt8) (distance : Nat) : Prop :=
  ∀ found, findSlot layout memory key = some found →
    ∃ steps, distance ≤ steps ∧ steps < layout.slotCapacity ∧
      found = (idHome hashId key + steps) % layout.slotCapacity ∧
      ∀ step, step < steps →
        slotKey layout memory ((idHome hashId key + step) % layout.slotCapacity) ≠ none

theorem ahead_zero (consistent : Consistent hashId layout memory) :
    Ahead hashId layout memory key 0 := by
  intro found located
  obtain ⟨inside, stored⟩ := findSlot_some located
  obtain ⟨steps, bound, place, run⟩ := consistent.chained.chain found key inside stored
  exact ⟨steps, Nat.zero_le _, bound, place, run⟩

/-- A slot without the id moves the walk one step on. -/
theorem Ahead.next (ahead : Ahead hashId layout memory key distance)
    (missed : slotKey layout memory ((idHome hashId key + distance) % layout.slotCapacity) ≠
      some key) : Ahead hashId layout memory key (distance + 1) := by
  intro found located
  obtain ⟨steps, late, bound, place, run⟩ := ahead found located
  refine ⟨steps, ?_, bound, place, run⟩
  have different : steps ≠ distance := by
    rintro rfl
    rw [← place, (findSlot_some located).2] at missed
    exact missed rfl
  omega

/-- A vacant slot ahead of the id shows that the id is absent. -/
theorem Ahead.vacant (ahead : Ahead hashId layout memory key distance)
    (vacant : slotKey layout memory ((idHome hashId key + distance) % layout.slotCapacity) =
      none) : findSlot layout memory key = none := by
  cases located : findSlot layout memory key with
  | none => rfl
  | some found =>
      have missed : slotKey layout memory
          ((idHome hashId key + distance) % layout.slotCapacity) ≠ some key := by
        rw [vacant]
        exact (Option.some_ne_none key).symm
      obtain ⟨steps, late, _, _, run⟩ := ahead.next missed found located
      exact absurd vacant (run distance late)

/-- A walk over the whole table shows that the id is absent. -/
theorem Ahead.exhausted (ahead : Ahead hashId layout memory key layout.slotCapacity) :
    findSlot layout memory key = none := by
  cases located : findSlot layout memory key with
  | none => rfl
  | some found =>
      obtain ⟨steps, late, bound, _⟩ := ahead found located
      omega

end Walk

section Loop

variable {hashId : List UInt8 → UInt64} {layout : SegmentLayout} (sound : LayoutSound layout)
  {start : WriterState} (invariant : WriterInvariant hashId layout start)

/-- A returned offset belongs to the id, and an id that was present at the start is found. -/
def LookupSeen (layout : SegmentLayout) (start : WriterState) (key : List UInt8)
    (later : WriterState) : Except SegmentError (Option Nat) → Prop
  | .error _ => False
  | .ok none => findSlot layout start.memory key = none
  | .ok (some address) => ∃ index, index < layout.slotCapacity ∧
      slotKey layout later.memory index = some key ∧
      address = layout.rowAddress (slotRow layout later.memory index)

include sound invariant in
/-- The walk of a lookup finds an id that was present at its start. -/
theorem lookupLoop_guarantees {visit : Nat → SegmentProgram SlotProbe} {key : List UInt8}
    (visited : ∀ state, WriterInvariant hashId layout state → ∀ index,
      index < layout.slotCapacity → (visit index).Guarantees (WriterStep hashId layout)
        WriterState.memory (VisitSeen hashId layout state key index) state)
    (fuel : Nat) {distance : Nat} (total : distance + fuel = layout.slotCapacity)
    {state : WriterState} (path : ReflTransGen (WriterStep hashId layout) start state)
    (ahead : Ahead hashId layout start.memory key distance) :
    (lookupLoop layout visit fuel
        ((idHome hashId key + distance) % layout.slotCapacity)).Guarantees
      (WriterStep hashId layout) WriterState.memory (LookupSeen layout start key) state := by
  induction fuel generalizing distance state with
  | zero =>
      obtain rfl : distance = layout.slotCapacity := total
      exact Guarantees.pure fun later _ => ahead.exhausted
  | succ fuel ih =>
      have inside : (idHome hashId key + distance) % layout.slotCapacity < layout.slotCapacity :=
        Nat.mod_lt _ sound.slotCapacity_pos
      rw [lookupLoop]
      refine Guarantees.bind (visited state (invariant.run sound path).1 _ inside) ?_ ?_
      · intro later probe found
        obtain ⟨seen, before, after, equal⟩ := found
        obtain rfl := Except.ok.inj equal
        have grows := (invariant.run sound (path.trans before)).2
        cases stored : slotKey layout seen.memory
            ((idHome hashId key + distance) % layout.slotCapacity) with
        | none =>
            refine Guarantees.pure fun final _ => ahead.vacant ?_
            cases early : slotKey layout start.memory
                ((idHome hashId key + distance) % layout.slotCapacity) with
            | none => rfl
            | some other =>
                rw [grows.slotKey inside early] at stored
                cases stored
        | some other =>
            by_cases same : other = key
            · rw [classify, if_pos same]
              refine Guarantees.readNat ?_
              intro read readPath
              refine Guarantees.pure fun final last => ?_
              have afterSeen := (invariant.run sound (path.trans before)).1.run sound
                (after.trans readPath)
              have kept := afterSeen.2.slotKey inside stored
              have lastGrows := (afterSeen.1.run sound last).2
              refine ⟨_, inside, same ▸ lastGrows.slotKey inside kept, ?_⟩
              rw [(lastGrows _ inside (slotKey_eq_some.mp kept).1).row]
              rfl
            · rw [classify, if_neg same]
              have missed : slotKey layout start.memory
                  ((idHome hashId key + distance) % layout.slotCapacity) ≠ some key := by
                intro early
                rw [grows.slotKey inside early] at stored
                exact same (Option.some.inj stored).symm
              have step : nextIndex layout ((idHome hashId key + distance) % layout.slotCapacity) =
                  (idHome hashId key + (distance + 1)) % layout.slotCapacity := by
                rw [nextIndex, sound.mask_eq, Nat.mod_add_mod, Nat.add_assoc]
              dsimp only
              rw [step]
              exact ih (by omega) (path.trans (before.trans after)) (ahead.next missed)
      · intro later error found
        obtain ⟨_, _, _, equal⟩ := found
        cases equal

end Loop

section Bounds

variable (layout : SegmentLayout) (hashValue : UInt64) (key : List UInt8)

theorem readStringBytes_reads (idOffset : Nat) : (readStringBytes layout idOffset).ReadsAtMost 2 := by
  refine ReadsAtMost.readNat fun length => ?_
  split
  · trivial
  · exact ⟨0, rfl, fun _ => trivial⟩

theorem probeSlot_reads (index : Nat) : (probeSlot layout hashValue key index).ReadsAtMost 5 := by
  refine ReadsAtMost.readNat fun flags => ?_
  split
  · trivial
  · split
    · refine ReadsAtMost.readNat fun nameHash => ?_
      split
      · refine ReadsAtMost.readNat fun idOffset => ?_
        refine ReadsAtMost.bind_last (readStringBytes_reads layout idOffset) fun stored => ?_
        split
        · trivial
        · trivial
      · trivial
    · trivial

theorem compareBytes_reads (address : Nat) : (compareBytes address key).ReadsAtMost key.length := by
  induction key generalizing address with
  | nil => trivial
  | cons byte rest ih =>
      refine ReadsAtMost.readNat fun stored => ?_
      split
      · exact ih _
      · trivial

theorem probeSlotCore_reads (index : Nat) :
    (probeSlotCore layout hashValue key index).ReadsAtMost (key.length + 4) := by
  refine ReadsAtMost.readNat fun flags => ?_
  split
  · trivial
  · refine ReadsAtMost.readNat fun nameHash => ?_
    split
    · refine ReadsAtMost.readNat fun idOffset => ?_
      refine ReadsAtMost.readNat fun length => ?_
      split
      · trivial
      · split
        · refine ReadsAtMost.bind_last (compareBytes_reads key _) fun matched => ?_
          split
          · trivial
          · trivial
        · trivial
    · trivial

/-- A walk makes one read of its own behind the reads of its visits. -/
theorem lookupLoop_reads {visit : Nat → SegmentProgram SlotProbe} {bound : Nat}
    (each : ∀ index, (visit index).ReadsAtMost bound) (fuel index : Nat) :
    (lookupLoop layout visit fuel index).ReadsAtMost (fuel * bound + 1) := by
  induction fuel generalizing index with
  | zero => trivial
  | succ fuel ih =>
      have total : (fuel + 1) * bound + 1 = bound + (fuel * bound + 1) := by ring
      rw [lookupLoop, total]
      refine ReadsAtMost.bind (each index) fun probe => ?_
      cases probe with
      | empty => trivial
      | hit => exact ⟨fuel * bound, rfl, fun _ => trivial⟩
      | miss => exact ih _

end Bounds

/-- The two implementations of a lookup. -/
def IsLookup (hashId : List UInt8 → UInt64) (layout : SegmentLayout) (entityId : String)
    (reader : SegmentProgram (Option Nat)) : Prop :=
  reader = lookup hashId layout entityId ∨
    reader = lookupCore hashId layout (encodeUtf8 entityId)

section Results

variable {hashId : List UInt8 → UInt64} {layout : SegmentLayout} (sound : LayoutSound layout)
  {entityId : String} {reader : SegmentProgram (Option Nat)}

include sound in
theorem lookup_guarantees {start : WriterState} (invariant : WriterInvariant hashId layout start)
    (nonempty : entityId ≠ "") (isLookup : IsLookup hashId layout entityId reader) :
    reader.Guarantees (WriterStep hashId layout) WriterState.memory
      (LookupSeen layout start (encodeUtf8 entityId)) start := by
  have ahead : Ahead hashId layout start.memory (encodeUtf8 entityId) 0 :=
    ahead_zero invariant.consistent
  have home : homeIndex layout (hashId (encodeUtf8 entityId)) =
      (idHome hashId (encodeUtf8 entityId) + 0) % layout.slotCapacity := homeIndex_eq sound _
  rcases isLookup with rfl | rfl
  · rw [lookup, if_neg nonempty]
    dsimp only
    rw [home]
    exact lookupLoop_guarantees sound invariant
      (fun state kept index inside => probeSlot_guarantees sound kept _ inside) _
      (Nat.zero_add _) .refl ahead
  · rw [lookupCore, home]
    exact lookupLoop_guarantees sound invariant
      (fun state kept index inside => probeSlotCore_guarantees sound kept _ inside) _
      (Nat.zero_add _) .refl ahead

/-- A lookup ends within a fixed number of its own reads, whatever the writer does. -/
theorem lookup_reads (isLookup : IsLookup hashId layout entityId reader) :
    reader.ReadsAtMost (layout.slotCapacity * ((encodeUtf8 entityId).length + 5) + 1) := by
  rcases isLookup with rfl | rfl
  · unfold lookup
    split
    · trivial
    · exact (lookupLoop_reads layout (probeSlot_reads layout _ _) _ _).mono (by gcongr; omega)
  · exact (lookupLoop_reads layout (probeSlotCore_reads layout _ _) _ _).mono (by gcongr; omega)

/-- Every interleaving of a lookup with the single writer ends with the row of the id itself. -/
theorem lookup_lockFree {hashName : String → UInt64} {schema : FeatureSchema}
    {capacity maxIdBytes : Int}
    (computed : computeLayout hashName schema capacity maxIdBytes = .ok layout)
    (header : List UInt8) (headerLength : header.length = headerSize) {start : WriterState}
    (reached : WriterReachable hashId layout header start) (nonempty : entityId ≠ "")
    (isLookup : IsLookup hashId layout entityId reader) :
    reader.ReadsAtMost (layout.slotCapacity * ((encodeUtf8 entityId).length + 5) + 1) ∧
      ∀ final rest, ReflTransGen (InterleavedStep (WriterStep hashId layout) WriterState.memory)
          (start, reader) (final, rest) →
        (∃ address count next, rest = .read address count next) ∨
        ∃ value, rest = .done value ∧
          (∀ address, value = some address →
            (lookup hashId layout entityId).result final.memory = .ok (some address)) ∧
          ((∃ request ∈ start.returned, request.entityId = entityId) → value ≠ none) ∧
          ((∀ request ∈ final.begun, request.entityId ≠ entityId) → value = none) := by
  have sound := computeLayout_sound computed
  have invariant := reached.invariant sound headerLength
  refine ⟨lookup_reads isLookup, ?_⟩
  intro final rest path
  have later := InterleavedStep.environment_path path
  have finalInvariant := (invariant.run sound later).1
  rcases (lookup_guarantees sound invariant nonempty isLookup).outcome path with
    ⟨value, done, seen⟩ | ⟨error, _, seen⟩ | reading
  · refine Or.inr ⟨value, done, ?_, ?_, ?_⟩
    · rintro address rfl
      exact (lookup_located sound finalInvariant.consistent).mpr seen
    · rintro ⟨request, returned, rfl⟩ rfl
      exact invariant.returned request returned (contents_eq_none.mpr seen)
    · intro never
      cases value with
      | none => rfl
      | some address =>
          obtain ⟨index, inside, stored, _⟩ := seen
          have present := contents_ne_none.mpr ⟨index, inside, stored⟩
          obtain ⟨request, begun, same⟩ := finalInvariant.begun entityId present
          exact absurd same (never request begun)
  · exact seen.elim
  · exact Or.inl reading

/-- A writer comes through the first writes of its call. -/
theorem writer_advances {request : InsertRequest} (program : SegmentProgram Bool) {state : WriterState}
    (active : state.current = some (request, program)) (count : Nat) :
    ∃ rest, ReflTransGen (WriterStep hashId layout) state
      { state with
        memory := state.memory.applyAll ((program.writes state.memory).take count)
        current := some (request, rest) } := by
  induction program generalizing state count with
  | done value =>
      refine ⟨.done value, ?_⟩
      rw [show ((Program.done value : SegmentProgram Bool).writes state.memory).take count = [] from
        List.take_nil, Memory.applyAll_nil, ← active]
  | fail error =>
      refine ⟨.fail error, ?_⟩
      rw [show ((Program.fail error : SegmentProgram Bool).writes state.memory).take count = [] from
        List.take_nil, Memory.applyAll_nil, ← active]
  | read address length next ih =>
      obtain ⟨rest, steps⟩ := @ih (state.memory.read address length)
        { state with current := some (request, next (state.memory.read address length)) } rfl count
      exact ⟨rest, .head (.read active) steps⟩
  | write address bytes next ih =>
      cases count with
      | zero =>
          refine ⟨.write address bytes next, ?_⟩
          rw [List.take_zero, Memory.applyAll_nil, ← active]
      | succ count =>
          obtain ⟨rest, steps⟩ := @ih
            { state with
              memory := state.memory.write address bytes
              current := some (request, next) } rfl count
          exact ⟨rest, .head (.write active) steps⟩

/-- A writer completes a call that does not raise. -/
theorem writer_completes {request : InsertRequest} {program : SegmentProgram Bool} {value : Bool}
    {state : WriterState} (active : state.current = some (request, program))
    (succeeds : program.result state.memory = .ok value) :
    ReflTransGen (WriterStep hashId layout) state
      { state with
        memory := (program.run state.memory).2
        current := none
        returned := request :: state.returned } := by
  induction program generalizing state with
  | done value => exact .single (.finish active)
  | fail error => cases succeeds
  | read address length next ih =>
      exact .head (.read active) (@ih (state.memory.read address length)
        { state with current := some (request, next (state.memory.read address length)) } rfl succeeds)
  | write address bytes next ih =>
      exact .head (.write active) (@ih
        { state with
          memory := state.memory.write address bytes
          current := some (request, next) } rfl succeeds)

/-- A call of the sample writer. -/
def sampleInsert (entityId : String) : InsertRequest := ⟨entityId, List.replicate 64 1⟩

/-- A lookup starts behind the insert of its id, in the middle of an insert of another one. -/
theorem lookup_lockFree_sample : ∃ (start : WriterState) (left : SegmentProgram Bool),
    WriterReachable (fun _ => 0) sampleLayout (List.replicate 16 0) start ∧
    start.returned = [sampleInsert "a"] ∧ start.current = some (sampleInsert "b", left) ∧
      ∀ final rest, ReflTransGen
          (InterleavedStep (WriterStep (fun _ => 0) sampleLayout) WriterState.memory)
          (start, lookup (fun _ => 0) sampleLayout "a") (final, rest) →
        (∃ address count next, rest = .read address count next) ∨
        ∃ address, rest = .done (some address) ∧
          (lookup (fun _ => 0) sampleLayout "a").result final.memory = .ok (some address) := by
  have sound := computeLayout_sound computeLayout_sample
  have fresh := SegmentHistory.Refined.fresh (fun _ => 0) sound
    (show (List.replicate 16 (0 : UInt8)).length = headerSize from rfl)
  have inserted := (fresh.behavesAsMap sound).inserted "a" (sampleInsert "a").rowData (by decide) rfl
  rw [if_neg (by decide), if_neg (by decide)] at inserted
  have begun := @WriterStep.begin (fun _ => 0) sampleLayout
    (.start sampleLayout (List.replicate 16 0)) (sampleInsert "a") rfl
  have completed := (ReflTransGen.single begun).trans (writer_completes rfl inserted)
  have again := completed.tail (.begin (sampleInsert "b") rfl)
  let behind := ((insert (fun _ => 0) sampleLayout "a" (sampleInsert "a").rowData).run
    (freshSegment sampleLayout (List.replicate 16 0))).2
  obtain ⟨left, advanced⟩ := @writer_advances (fun _ => 0) sampleLayout (sampleInsert "b")
    (insert (fun _ => 0) sampleLayout "b" (sampleInsert "b").rowData)
    ⟨behind, some (sampleInsert "b", _), [sampleInsert "b", sampleInsert "a"], [sampleInsert "a"]⟩ rfl 4
  have reached := again.trans advanced
  refine ⟨_, left, reached, rfl, rfl, ?_⟩
  intro final rest path
  rcases (lookup_lockFree computeLayout_sample _ rfl reached (by decide) (Or.inl rfl)).2 final rest
    path with reading | ⟨value, done, located, present, _⟩
  · exact Or.inl reading
  · obtain ⟨address, rfl⟩ :=
      Option.ne_none_iff_exists'.mp (present ⟨sampleInsert "a", List.mem_cons_self, rfl⟩)
    exact Or.inr ⟨address, done, located address rfl⟩

end Results

end Quorin
