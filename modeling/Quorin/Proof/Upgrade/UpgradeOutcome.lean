import Quorin.Proof.Evolution.CopySoundness
import Quorin.Proof.Upgrade.PointerSafety

namespace Quorin

open ByteMemory FaultyCalls

variable {externals : Externals} {call : UpgradeCall} {host : Host}

/-- The pointer names the linked copy. -/
structure CopyCurrent (call : UpgradeCall) (segment : Segment) (host : Host) : Prop where
  current : host.keys.current call.old.safeName = some call.newName
  linked : call.newName ∈ host.linked
  object : host.objects call.newName = some segment

/-- How a whole run of an upgrade leaves the host: as it was, or with the pointer on the copy. -/
inductive UpgradeOutcome (externals : Externals) (call : UpgradeCall) (host after : Host) : Prop where
  | kept (kept : OldKept call.old.safeName host after)
  | moved (oldName : String) (old : Segment) (layout : SegmentLayout) (header : List UInt8)
      (table : ArrowTable) (memory : Memory)
      (reaches : ReachesFlip externals call host oldName old layout header table memory)
      (moved : CopyCurrent call ⟨call.new, layout, memory⟩ after)

/-- The close of the old segment leaves the pointer to the copy. -/
theorem CopyCurrent.close {segment : Segment} (moved : CopyCurrent call segment host)
    {oldName : String} (different : oldName ≠ call.newName) :
    CopyCurrent call segment
      { host with keys := (host.keys.closeScript call.pid oldName).2 } := by
  refine ⟨?_, moved.linked, moved.object⟩
  rcases closeScript_current host.keys call.pid oldName call.old.safeName with same | ⟨named, _⟩
  · exact same.trans moved.current
  · exact absurd (Option.some.inj (named.symm.trans moved.current)) different

/-- What runs behind an answered flip leaves the pointer to the copy. -/
theorem behindFlip_keeps {segment : Segment} {oldName : String} (different : oldName ≠ call.newName) :
    ((((Attempt.done () : HostProgram Unit).onError (cleanupOrphanNewSegment call)).bind
      fun _ => finishUpgrade call oldName).onError
        (closeSegment call.pid oldName call.finalClose).suppress).Keeps (CopyCurrent call segment) := by
  apply Attempt.Keeps.onError
  · exact finishUpgrade_keeps (fun _ _ moved => ⟨moved.current, moved.linked, moved.object⟩)
      fun _ moved => moved.close different
  · exact (Attempt.keeps_call fun _ moved => moved.close different).suppress

/-- The part behind the precondition that cannot copy leaves the old segment in place. -/
theorem upgradeBody_unreached (sameName : call.old.className = call.new.className)
    (factor : call.factorValid = true) (accepted : (canUpgrade call.old call.new).1 = true)
    (unobstructed : Unobstructed call host)
    (unreached : ∀ oldName old layout header table memory,
      ¬ ReachesFlip externals call host oldName old layout header table memory) :
    OldKept call.old.safeName host (((openOld externals call).bind fun opened =>
      migrate externals call opened.1 opened.2).run (host.locked call)).2 := by
  have keptLocked : OldKept call.old.safeName host (host.locked call) :=
    ⟨Or.inr rfl, fun _ member => ⟨member, rfl⟩⟩
  have keptOpened := (@openOld_keeps externals call call.old.safeName host).run keptLocked
  cases open_ : (openOld externals call).run (host.locked call) with
  | mk result opened =>
      rw [open_] at keptOpened
      cases result with
      | error error =>
          rw [Attempt.run_bind_error _ _ open_]
          exact keptOpened
      | ok value =>
          obtain ⟨oldName, old⟩ := value
          rw [Attempt.run_bind_ok _ _ open_]
          apply migrate_uncopied keptOpened
          intro occupied prepared copied prepare copy
          obtain ⟨layout, header, table, memory, reaches⟩ :=
            reachesFlip_of_runs sameName factor accepted unobstructed open_ prepare copy
          exact unreached _ _ _ _ _ _ reaches

/-- The part behind the precondition that copies all rows ends as its flip does. -/
theorem ReachesFlip.body {oldName : String} {old : Segment} {layout : SegmentLayout}
    {header : List UInt8} {table : ArrowTable} {memory : Memory}
    (reaches : ReachesFlip externals call host oldName old layout header table memory) :
    let after := (((openOld externals call).bind fun opened =>
      migrate externals call opened.1 opened.2).run (host.locked call)).2
    (call.flip = .returned → CopyCurrent call ⟨call.new, layout, memory⟩ after) ∧
      (call.flip = .raisedBefore → OldKept call.old.safeName host after) := by
  intro after
  obtain ⟨prepared, copied, open_, prepare, copy, current, linked, object⟩ := reaches.runs
  have foreign : call.newName ∉ host.linked := reaches.creatable.fresh
  have different : oldName ≠ call.newName := by
    rintro rfl
    exact foreign reaches.openable.linked
  have kept : OldKept call.old.safeName host copied := by
    have locked : OldKept call.old.safeName host (host.locked call) :=
      ⟨Or.inr rfl, fun _ member => ⟨member, rfl⟩⟩
    have opened := (@openOld_keeps externals call call.old.safeName host).run locked
    rw [open_] at opened
    have keptPrepared :=
      (@prepareNew_keeps externals call call.old.safeName host oldName old).run opened
    rw [prepare] at keptPrepared
    have keptCopied := (@copyRows_keeps externals call call.old.safeName host oldName old
      (old.memory.readNat metadataOffset 8) foreign).run keptPrepared
    rw [copy] at keptCopied
    exact keptCopied
  have ran : after = ((migrate externals call oldName old).run
      ((host.locked call).opened call oldName)).2 := by
    change (Attempt.run (Attempt.bind _ _) _).2 = _
    rw [Attempt.run_bind_ok _ _ open_]
  have pointed : copied.keys.current call.old.safeName = some oldName := by
    rw [current]
    exact reaches.openable.current
  obtain ⟨_, raisedBefore, _⟩ := migrate_flipped prepare copy kept pointed foreign different linked
    object
  rw [ran]
  refine ⟨fun flip => ?_, raisedBefore⟩
  have flipped := @flipCurrent_run call copied oldName pointed
  rw [flip] at flipped
  rw [@migrate_moved externals call _ _ _ _ _ _ prepare copy (.done ()) _ flipped]
  exact (behindFlip_keeps different).run ⟨Function.update_self _ _ _, linked, object⟩

/-- An upgrade that reaches its flip goes through its precondition to its `try` block. -/
theorem ReachesFlip.run {oldName : String} {old : Segment} {layout : SegmentLayout}
    {header : List UInt8} {table : ArrowTable} {memory : Memory}
    (reaches : ReachesFlip externals call host oldName old layout header table memory) :
    (upgradeSchema externals call).run host =
      ((((openOld externals call).bind fun opened => migrate externals call opened.1 opened.2).ensure
        ((releaseLock call call.release).suppress.bind fun _ =>
          (deletePause call call.finalPause).suppress))).run (host.locked call) := by
  unfold upgradeSchema
  rw [if_neg (not_not.mpr reaches.sameName), if_neg (by rw [reaches.factor]; decide),
    if_neg (by rw [reaches.accepted]; decide), Attempt.run_bind_ok _ _ reaches.unobstructed.run]

/-- An upgrade that reaches its flip and gets the answer leaves the pointer on the copy. -/
theorem ReachesFlip.moves {oldName : String} {old : Segment} {layout : SegmentLayout}
    {header : List UInt8} {table : ArrowTable} {memory : Memory}
    (reaches : ReachesFlip externals call host oldName old layout header table memory)
    (returned : call.flip = .returned) :
    CopyCurrent call ⟨call.new, layout, memory⟩ ((upgradeSchema externals call).run host).2 := by
  rw [reaches.run, Attempt.run_ensure]
  exact (upgradeCleanup_keeps _ (fun _ _ moved => ⟨moved.current, moved.linked, moved.object⟩)
    fun _ _ moved => ⟨moved.current, moved.linked, moved.object⟩).run (reaches.body.1 returned)

/-- Every run of an upgrade whose flip is answered has one of the two outcomes. -/
theorem upgradeSchema_outcome (externals : Externals) (host : Host)
    (answered : call.flip ≠ .raisedAfter) :
    UpgradeOutcome externals call host ((upgradeSchema externals call).run host).2 := by
  unfold upgradeSchema
  split
  · exact .kept (OldKept.refl _ host)
  · rename_i sameName
    split
    · exact .kept (OldKept.refl _ host)
    · rename_i factor
      split
      · exact .kept (OldKept.refl _ host)
      · rename_i accepted
        cases passed : (upgradePrecondition call).run host with
        | mk result locked =>
            cases result with
            | error error =>
                rw [Attempt.run_bind_error _ _ passed]
                have kept := (@upgradePrecondition_keeps call call.old.safeName host).run
                  (OldKept.refl call.old.safeName host)
                rw [passed] at kept
                exact .kept kept
            | ok value =>
                have unobstructed := upgradePrecondition_unobstructed passed
                rw [Attempt.run_bind_ok _ _ unobstructed.run, Attempt.run_ensure]
                by_cases reached : ∃ oldName old layout header table memory,
                    ReachesFlip externals call host oldName old layout header table memory
                · obtain ⟨oldName, old, layout, header, table, memory, reaches⟩ := reached
                  cases flip : call.flip with
                  | returned =>
                      have moved := reaches.moves flip
                      rw [reaches.run, Attempt.run_ensure] at moved
                      exact .moved _ _ _ _ _ _ reaches moved
                  | raisedBefore =>
                      exact .kept ((upgradeCleanup_keeps _ (fun _ _ kept => ⟨kept.current, kept.linked⟩)
                        fun _ _ kept => ⟨kept.current, kept.linked⟩).run (reaches.body.2 flip))
                  | raisedAfter => exact absurd flip answered
                · refine .kept ((upgradeCleanup_keeps _ (fun _ _ kept => ⟨kept.current, kept.linked⟩)
                    fun _ _ kept => ⟨kept.current, kept.linked⟩).run
                      (upgradeBody_unreached (not_not.mp sameName) (by simpa using factor)
                        (by simpa using accepted) unobstructed ?_))
                  exact fun oldName old layout header table memory reaches =>
                    reached ⟨oldName, old, layout, header, table, memory, reaches⟩

theorem sampleExternals_strings : ∀ ids array, sampleExternals.stringArray ids = some array →
    array = .ofList ids :=
  fun _ _ held => (Option.some.inj held).symm

/-- The sample upgrade copies a segment with one entity at most. -/
theorem sampleUpgradeCall_copies {host : Host} {name : String} {memory : Memory}
    {log : List InsertRequest} (flip : CallOutcome)
    (current : host.keys.current sampleSchema.safeName = some name) (linked : host.linked = {name})
    (stored : host.objects name = some ⟨sampleSchema, sampleLayout, memory⟩) (other : "new" ≠ name)
    (refined : (SegmentHistory.mk memory log 0).Refined sampleExternals.hashId sampleLayout)
    (single : presentIds log ⊆ {"a"}) :
    ∃ header copy table, header.length = headerSize ∧
      memory.readNat metadataOffset 8 = (presentIds log).card ∧
      Openable sampleExternals (sampleUpgradeCall flip) host name ⟨sampleSchema, sampleLayout, memory⟩ ∧
      Creatable sampleExternals (createNewCall (sampleUpgradeCall flip)
        ⟨sampleSchema, sampleLayout, memory⟩ (memory.readNat metadataOffset 8)) host
        sampleUpgradeLayout header ∧
      table = translatedTable sampleExternals.hashName sampleExternals.castBits sampleSchema
        sampleUpgrade sampleLayout memory (rowIds sampleLayout memory) ∧
      buildTranslationTable sampleExternals.hashName sampleExternals.castBits
        sampleExternals.stringArray sampleSchema sampleUpgrade sampleLayout memory = .ok table ∧
      (insertMany sampleExternals.hashId sampleExternals.castBits sampleUpgrade sampleUpgradeLayout
        table).run (freshSegment sampleUpgradeLayout header) =
          (.ok (memory.readNat metadataOffset 8), copy) := by
  have parts := computeLayout_parts computeLayout_sampleUpgrade
  obtain ⟨header, packed⟩ := @packHeader_exists sampleExternals sampleUpgrade sampleUpgradeLayout
    parts.1 (by decide) (by decide)
  have full := refined.occupied_lost
  dsimp only at full
  rw [Nat.add_zero] at full
  have count : (rowIds sampleLayout memory).length = nextFreeRow memory :=
    (rowIds_length sampleLayout memory).trans full
  have card := rowIds_card refined
  dsimp only at card
  have few : (presentIds log).card ≤ 1 := by
    simpa using Finset.card_le_card single
  have accepted : (canUpgrade sampleSchema sampleUpgrade).1 = true := by decide
  have noIdField : ∀ field ∈ sampleUpgrade.fields, field.name ≠ "entity_id" := by decide
  obtain ⟨copy, ran, _, _⟩ := @translatedTable_copied sampleExternals.hashName sampleExternals.castBits
    sampleExternals.hashId sampleSchema sampleUpgrade sampleLayout sampleUpgradeLayout memory header 2 8
    sampleLayout_sound refined.consistent (canUpgrade_accepted accepted) noIdField sample_table
    computeLayout_sampleUpgrade rfl full (by rw [card]; exact few.trans (by decide))
    (packHeader_length packed)
  have occupied : memory.readNat metadataOffset 8 = (presentIds log).card := count.symm.trans card
  refine ⟨header, copy, _, packHeader_length packed, occupied,
    ⟨rfl, rfl, current, stored, ?_, verifyHeader_self sample_table, rfl⟩, ⟨?_, rfl, ?_, packed⟩, rfl,
    buildTranslationTable_eq refined.consistent sample_table full rfl, ?_⟩
  · rw [linked]
    exact Finset.mem_singleton_self _
  · change computeLayout sampleHash sampleUpgrade
      (max ((2 : Nat) : Int) ((memory.readNat metadataOffset 8 : Int) + 1)) 8 = _
    rw [occupied, show max ((2 : Nat) : Int) (((presentIds log).card : Int) + 1) = 2 by omega]
    exact computeLayout_sampleUpgrade
  · rw [linked]
    exact fun member => other (Finset.mem_singleton.mp member)
  · rw [ran]
    exact congrArg (fun rows => (Except.ok rows, copy)) count

end Quorin
