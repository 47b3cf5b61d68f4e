import Quorin.Proof.Evolution.CopiedRows
import Quorin.Proof.Upgrade.OpeningSpecs

namespace Quorin

open ByteMemory FaultyCalls

/-- A step that leaves the segments, and that removes only pointers to one of them. -/
structure Parting (name : String) (before after : Host) : Prop where
  current : ∀ key, after.keys.current key = before.keys.current key ∨
    before.keys.current key = some name ∧ after.keys.current key = none
  objects : after.objects = before.objects

/-- A step behind the flip leaves the links, too. -/
structure Finishing (name : String) (before after : Host) : Prop extends Parting name before after where
  linked : after.linked = before.linked

section Rests

variable {call : UpgradeCall} {oldName : String} {before after : Host}

theorem Parting.refl (host : Host) : Parting oldName host host := ⟨fun _ => Or.inl rfl, rfl⟩

theorem QuietEffect.finishing (quiet : QuietEffect call before after) :
    Finishing oldName before after :=
  ⟨⟨fun key => Or.inl (by rw [quiet.keys]), quiet.objects⟩, quiet.linked⟩

theorem closeSegment_finishing {pid : Nat} {script : CallOutcome} :
    (closeSegment pid oldName script).Within (Finishing oldName) :=
  Attempt.within_call fun host =>
    ⟨⟨fun key => closeScript_current host.keys pid oldName key, rfl⟩, rfl⟩

theorem upgradeCleanup_finishing : (upgradeCleanup call).Within (Finishing oldName) := by
  have quiet : ∀ before after, QuietEffect call before after → Finishing oldName before after :=
    fun _ _ => QuietEffect.finishing
  exact ((releaseLock_quiet _).mono quiet).suppress.bind fun _ =>
    ((deletePause_quiet _).mono quiet).suppress

theorem finishUpgrade_finishing : (finishUpgrade call oldName).Within (Finishing oldName) := by
  have quiet : ∀ before after, QuietEffect call before after → Finishing oldName before after :=
    fun _ _ => QuietEffect.finishing
  apply ((deletePause_quiet _).mono quiet).suppress.bind
  intro _
  apply Attempt.Within.bind
  · split
    · exact (waitAttached_quiet _).mono quiet
    · trivial
  · exact fun _ => closeSegment_finishing

theorem cleanupOrphanNewSegment_parting :
    (cleanupOrphanNewSegment call).Within (Parting oldName) := by
  unfold cleanupOrphanNewSegment
  apply Attempt.Within.bind
  · exact (Attempt.within_call fun _ => ⟨fun _ => Or.inl rfl, rfl⟩).suppress
  · exact fun _ host => ⟨⟨fun _ => Or.inl rfl, rfl⟩, trivial⟩

theorem parting_of_finishing {α : Type} {program : HostProgram α}
    (finishing : program.Within (Finishing oldName)) : program.Within (Parting oldName) :=
  finishing.mono fun _ _ step => step.toParting

/-- What is left to run behind a copy or a flip that ended. -/
def behindFlip (call : UpgradeCall) (oldName : String) (flipped : HostProgram Unit) :
    HostProgram Unit :=
  (((flipped.onError (cleanupOrphanNewSegment call)).bind fun _ => finishUpgrade call oldName).onError
    (closeSegment call.pid oldName call.finalClose).suppress).ensure (upgradeCleanup call)

/-- A failure in front of the end of the flip gives the upgrade up. -/
theorem behindFlip_raised (error : HostFailure) :
    (behindFlip call oldName (.raised error)).Within (Parting oldName) := by
  apply Attempt.Within.ensure
  · apply Attempt.Within.onError
    · apply Attempt.Within.bind
      · exact Attempt.Within.onError trivial cleanupOrphanNewSegment_parting
      · exact fun _ => parting_of_finishing finishUpgrade_finishing
    · exact (parting_of_finishing closeSegment_finishing).suppress
  · exact parting_of_finishing upgradeCleanup_finishing

theorem behindFlip_done : (behindFlip call oldName (.done ())).Within (Finishing oldName) := by
  apply Attempt.Within.ensure
  · exact Attempt.Within.onError finishUpgrade_finishing closeSegment_finishing.suppress
  · exact upgradeCleanup_finishing

end Rests

/-- The old rows are translated, and the new segment is still fresh. -/
structure TableBuilt (deployment : Deployment) (call : UpgradeCall) (oldName : String)
    (first : Segment) (table : ArrowTable) (place : HostedWorld) : Prop
    extends FreshNew deployment.externals call oldName first place where
  built : ∃ memory, place.world.shared oldName = some { first with memory := memory } ∧
    buildTranslationTable deployment.externals.hashName deployment.externals.castBits
      deployment.externals.stringArray call.old call.new first.layout memory = .ok table

/-- The linked new segment holds the translated rows of the old one. -/
structure RowsLoaded (deployment : Deployment) (call : UpgradeCall) (oldName : String)
    (first : Segment) (place : HostedWorld) : Prop extends Pointing call oldName first place where
  linked : call.newName ∈ place.host.linked
  loaded : ∃ memory table layout header count after,
    place.world.shared oldName = some { first with memory := memory } ∧
    buildTranslationTable deployment.externals.hashName deployment.externals.castBits
      deployment.externals.stringArray call.old call.new first.layout memory = .ok table ∧
    (∃ capacity : Int, computeLayout deployment.externals.hashName call.new capacity
      first.layout.maxIdBytes = .ok layout) ∧ header.length = headerSize ∧
    (insertMany deployment.externals.hashId deployment.externals.castBits call.new layout table).run
      (freshSegment layout header) = (.ok count, after) ∧
    place.world.shared call.newName = some ⟨call.new, layout, after⟩

/-- How far the call has come in front of the flip, with what it knows there. -/
inductive CallStage (deployment : Deployment) (call : UpgradeCall) (oldName : String)
    (first : Segment) (place : HostedWorld) (program : HostProgram Unit) : Prop where
  | opening (front : HostProgram Opening)
      (left : program = front.bind (afterOpening deployment.externals call))
      (guarded : front.Guarded (openingProtocol call oldName)
        (OpeningEnds deployment.externals call oldName first) place)
  | translated (occupied : Nat) (table : ArrowTable)
      (left : program = aroundCopy call oldName (loadTable deployment.externals call occupied table))
      (built : TableBuilt deployment call oldName first table place)
  | found (occupied : Nat) (table : ArrowTable) (segment : Segment)
      (left : program =
        aroundCopy call oldName (loadInto deployment.externals call occupied table segment))
      (built : TableBuilt deployment call oldName first table place)
      (stored : place.world.shared call.newName = some segment)
  | loaded (left : program = aroundCopy call oldName (.done ()))
      (loaded : RowsLoaded deployment call oldName first place)
  | retired (left : program.Within (Parting oldName))

/-- What one step of the call does: it goes on, it goes on with giving up, or it flips. -/
inductive CallTurn (deployment : Deployment) (call : UpgradeCall) (oldName : String)
    (first : Segment) (place : HostedWorld) (host : Host) (next : HostProgram Unit) : Prop where
  | onward (stage : CallStage deployment call oldName first (place.put host) next)
      (current : host.keys.current = place.host.keys.current)
      (others : ∀ name, name ≠ call.newName → host.objects name = place.world.shared name)
  | retired (left : next.Within (Parting oldName)) (parting : Parting oldName place.seen host)
  | flipped (loaded : RowsLoaded deployment call oldName first place)
      (flipped : host = place.seen.flipped call) (left : next.Within (Finishing oldName))

section Stages

variable {deployment : Deployment} {call : UpgradeCall} {oldName : String} {first : Segment}
  {place after : HostedWorld} {program : HostProgram Unit}

theorem TableBuilt.beside {table : ArrowTable}
    (built : TableBuilt deployment call oldName first table place)
    (relied : Beside call oldName place after)
    (old : after.world.shared oldName = place.world.shared oldName) :
    TableBuilt deployment call oldName first table after := by
  refine ⟨built.toFreshNew.beside relied, ?_⟩
  rw [old]
  exact built.built

theorem RowsLoaded.beside (loaded : RowsLoaded deployment call oldName first place)
    (relied : Beside call oldName place after)
    (old : after.world.shared oldName = place.world.shared oldName) :
    RowsLoaded deployment call oldName first after := by
  refine ⟨loaded.toPointing.beside relied, ?_, ?_⟩
  · rw [relied.linked]
    exact loaded.linked
  · rw [old, relied.new]
    exact loaded.loaded

/-- The others leave the call at its stage when they keep the old segment in its copy window. -/
theorem CallStage.beside (stage : CallStage deployment call oldName first place program)
    (relied : Beside call oldName place after)
    (frozen : CopyWindow deployment.externals call program →
      after.world.shared oldName = place.world.shared oldName) :
    CallStage deployment call oldName first after program := by
  cases stage with
  | opening front left guarded =>
      exact .opening front left (guarded.stable relied (fun one other => one.trans other)
        fun result ends => ends.beside relied)
  | translated occupied table left built =>
      exact .translated occupied table left
        (built.beside relied (frozen (left ▸ .translated oldName occupied table)))
  | found occupied table segment left built stored =>
      refine .found occupied table segment left
        (built.beside relied (frozen (left ▸ .found oldName occupied table segment))) ?_
      rw [relied.new]
      exact stored
  | loaded left loaded =>
      exact .loaded left (loaded.beside relied (frozen (left ▸ .loaded oldName)))
  | retired left => exact .retired left

/-- A step of what is left to run after giving up. -/
theorem CallTurn.retire {effect : Host → Host} {next : Host → HostProgram Unit}
    (left : (Attempt.step effect next : HostProgram Unit).Within (Parting oldName)) :
    CallTurn deployment call oldName first place (effect place.seen) (next place.seen) :=
  .retired (left place.seen).2 (left place.seen).1

/-- A local step changes nothing. -/
theorem CallTurn.look {next : HostProgram Unit}
    (stage : CallStage deployment call oldName first (place.put place.seen) next) :
    CallTurn deployment call oldName first place place.seen next :=
  .onward stage rfl fun _ _ => rfl

theorem FreshNew.seen (fresh : FreshNew deployment.externals call oldName first place) :
    FreshNew deployment.externals call oldName first (place.put place.seen) :=
  ⟨⟨fresh.current, fresh.old⟩, fresh.new, fresh.linked⟩

theorem TableBuilt.seen {table : ArrowTable}
    (built : TableBuilt deployment call oldName first table place) :
    TableBuilt deployment call oldName first table (place.put place.seen) :=
  ⟨built.toFreshNew.seen, built.built⟩

/-- The copy translates the old rows. -/
theorem copyRows_turn {old : Segment} {occupied : Nat} (layout : old.layout = first.layout)
    (fresh : FreshNew deployment.externals call oldName first place)
    {effect : Host → Host} {next : Host → HostProgram Unit}
    (left : Attempt.step effect next =
      aroundCopy call oldName (copyRows deployment.externals call oldName old occupied)) :
    CallTurn deployment call oldName first place (effect place.seen) (next place.seen) := by
  obtain ⟨rfl, rfl⟩ := Attempt.step.inj left
  obtain ⟨memory, present⟩ := fresh.old
  have stored : place.seen.objects oldName = some { first with memory := memory } := present
  cases built : buildTranslationTable deployment.externals.hashName deployment.externals.castBits
      deployment.externals.stringArray call.old call.new first.layout memory with
  | error error =>
      refine .retired ?_ (.refl _)
      dsimp only
      rw [stored, Option.getD_some, layout, built]
      exact behindFlip_raised _
  | ok table =>
      refine .look (.translated occupied table ?_ ⟨fresh.seen, memory, present, built⟩)
      dsimp only
      rw [stored, Option.getD_some, layout, built]
      rfl

/-- The copy finds the new segment. -/
theorem loadTable_turn {occupied : Nat} {table : ArrowTable}
    (built : TableBuilt deployment call oldName first table place)
    {effect : Host → Host} {next : Host → HostProgram Unit}
    (left : Attempt.step effect next =
      aroundCopy call oldName (loadTable deployment.externals call occupied table)) :
    CallTurn deployment call oldName first place (effect place.seen) (next place.seen) := by
  obtain ⟨rfl, rfl⟩ := Attempt.step.inj left
  obtain ⟨layout, header, computed, length, present⟩ := built.new
  have stored : place.seen.objects call.newName =
      some ⟨call.new, layout, freshSegment layout header⟩ := present
  refine .look (.found occupied table _ ?_ built.seen present)
  dsimp only
  rw [stored]
  rfl

/-- The copy loads the table into the new segment. -/
theorem loadInto_turn {occupied : Nat} {table : ArrowTable} {segment : Segment}
    (different : oldName ≠ call.newName)
    (built : TableBuilt deployment call oldName first table place)
    (stored : place.world.shared call.newName = some segment)
    {effect : Host → Host} {next : Host → HostProgram Unit}
    (left : Attempt.step effect next =
      aroundCopy call oldName (loadInto deployment.externals call occupied table segment)) :
    CallTurn deployment call oldName first place (effect place.seen) (next place.seen) := by
  obtain ⟨rfl, rfl⟩ := Attempt.step.inj left
  obtain ⟨layout, header, computed, length, present⟩ := built.new
  obtain rfl := Option.some.inj (stored.symm.trans present)
  obtain ⟨memory, old, translated⟩ := built.built
  have others : ∀ (change : Memory → Memory) (name : String), name ≠ call.newName →
      (place.seen.withMemory call.newName change).objects name = place.world.shared name :=
    fun change name other => Function.update_of_ne other _ _
  have points : ∀ change : Memory → Memory, Pointing call oldName first
      (place.put (place.seen.withMemory call.newName change)) :=
    fun change => built.toPointing.turned different rfl (others change)
  have kept : ∀ change : Memory → Memory, (place.put (place.seen.withMemory call.newName
      change)).world.shared oldName = some { first with memory := memory } :=
    fun change => (others change oldName different).trans old
  refine .onward ?_ rfl (others _)
  dsimp only
  cases result : (insertMany deployment.externals.hashId deployment.externals.castBits call.new layout
      table).result (freshSegment layout header) with
  | error error => exact .retired (behindFlip_raised _)
  | ok inserted =>
      dsimp only
      by_cases whole : inserted = occupied
      · rw [if_neg (not_not.mpr whole)]
        refine .loaded rfl ⟨points _, built.linked, memory, table, layout, header, inserted, _,
          kept _, translated, computed, length, Prod.ext result rfl, ?_⟩
        have here : place.seen.objects call.newName =
            some ⟨call.new, layout, freshSegment layout header⟩ := present
        change Function.update _ _ _ _ = _
        rw [Function.update_self, here]
        rfl
      · rw [if_pos whole]
        exact .retired (behindFlip_raised _)

/-- The flip moves the pointer that still names the old segment. -/
theorem flip_turn (answered : call.flip ≠ .raisedAfter)
    (loaded : RowsLoaded deployment call oldName first place)
    {effect : Host → Host} {next : Host → HostProgram Unit}
    (left : Attempt.step effect next = aroundCopy call oldName (.done ())) :
    CallTurn deployment call oldName first place (effect place.seen) (next place.seen) := by
  have shape : aroundCopy call oldName (.done ()) =
      behindFlip call oldName (flipCurrent call oldName) := rfl
  have flips : place.seen.keys.flipSchemaCurrent call.old.safeName oldName call.newName =
      (1, (place.seen.flipped call).keys) := by
    have current : place.seen.keys.current call.old.safeName = some oldName := loaded.current
    simp [RegistryKeys.flipSchemaCurrent, current, Host.flipped]
  rw [shape, flipCurrent] at left
  cases outcome : call.flip with
  | returned =>
      rw [outcome] at left
      obtain ⟨rfl, rfl⟩ := Attempt.step.inj left
      refine .flipped loaded ?_ ?_
      · dsimp only
        rw [flips]
        rfl
      · dsimp only [Attempt.bind]
        rw [flips]
        exact behindFlip_done
  | raisedBefore =>
      rw [outcome] at left
      refine .retire ?_
      rw [left]
      exact behindFlip_raised _
  | raisedAfter => exact absurd outcome answered

/-- Every step in front of the flip has one of the three effects. -/
theorem CallStage.turn (different : oldName ≠ call.newName) (answered : call.flip ≠ .raisedAfter)
    {effect : Host → Host} {next : Host → HostProgram Unit}
    (stage : CallStage deployment call oldName first place (.step effect next)) :
    CallTurn deployment call oldName first place (effect place.seen) (next place.seen) := by
  cases stage with
  | opening front left guarded =>
      cases front with
      | done opening =>
          cases opening with
          | failed error =>
              refine .retire ?_
              rw [left]
              exact (parting_of_finishing upgradeCleanup_finishing).bind fun _ => trivial
          | unprepared name error =>
              obtain rfl := guarded
              refine .retire ?_
              rw [left]
              apply Attempt.Within.ensure
              · exact (parting_of_finishing closeSegment_finishing).suppress.bind fun _ => trivial
              · exact parting_of_finishing upgradeCleanup_finishing
          | prepared name old occupied =>
              obtain ⟨rfl, layout, fresh⟩ := guarded
              exact copyRows_turn layout fresh left
      | raised error => cases left
      | step front rest =>
          obtain ⟨rfl, rfl⟩ := Attempt.step.inj left
          obtain ⟨after, viewed, turn, later⟩ := guarded place (.refl place)
          have host : after.host = effect place.seen := turn.seen.symm.trans viewed
          have put := turn.put
          rw [host] at put
          rw [put] at later
          refine .onward (.opening _ rfl later) ?_ fun name other => ?_
          · rw [← host]
            exact turn.current
          · have kept := turn.others name other
            rw [put] at kept
            exact kept
  | translated occupied table left built => exact loadTable_turn built left
  | found occupied table segment left built stored => exact loadInto_turn different built stored left
  | loaded left loaded => exact flip_turn answered loaded left
  | retired left => exact .retire left

end Stages

end Quorin
