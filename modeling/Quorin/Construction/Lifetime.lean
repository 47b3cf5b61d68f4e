import Quorin.Construction.History
import Quorin.Construction.Upgrade

namespace Quorin

open ByteMemory

/-- One schema of a host over its upgrades, with the rows that its writer stored. -/
structure Lifetime where
  host : Host
  /-- The class that the writer and the readers run. -/
  schema : FeatureSchema
  /-- The inserts that wrote their whole row, newest first, each with the class it was made for. -/
  writes : List (FeatureSchema × InsertRequest)

/-- An insert of the single writer into the current segment, which may be cut off by a crash. -/
def Lifetime.write (externals : Externals) (life : Lifetime) (call : InsertRequest × Option Nat) :
    Lifetime :=
  match life.host.keys.current life.schema.safeName with
  | none => life
  | some name =>
      match life.host.objects name with
      | none => life
      | some segment =>
          let history := (SegmentHistory.mk segment.memory [] 0).perform externals.hashId
            segment.layout call
          { life with
            host := life.host.withMemory name fun _ => history.memory
            writes := history.log.map (fun request => (life.schema, request)) ++ life.writes }

/-- A whole run of `upgrade_schema`; the new class is deployed when its segment became current. -/
def Lifetime.upgrade (externals : Externals) (life : Lifetime) (call : UpgradeCall) : Lifetime :=
  let after := ((upgradeSchema externals call).run life.host).2
  { life with
    host := after
    schema :=
      if life.host.keys.current call.old.safeName ≠ some call.newName ∧
          after.keys.current call.old.safeName = some call.newName then call.new
      else life.schema }

/-- A step of other processes: the pointer stays or goes, and while it stays its segment keeps its
name and its bytes. -/
structure Spared (key : String) (before after : Host) : Prop where
  current : after.keys.current key = none ∨ after.keys.current key = before.keys.current key
  segment : ∀ name, after.keys.current key = some name →
    (name ∈ before.linked → name ∈ after.linked) ∧ after.objects name = before.objects name

/-- The steps in the life of a schema. -/
inductive LifetimeStep (externals : Externals) : Lifetime → Lifetime → Prop where
  | write {life : Lifetime} (call : InsertRequest × Option Nat) :
      LifetimeStep externals life (life.write externals call)
  | upgrade {life : Lifetime} (call : UpgradeCall) (deployed : call.old = life.schema)
      (answered : call.flip ≠ .raisedAfter) :
      LifetimeStep externals life (life.upgrade externals call)
  | others {life : Lifetime} {host : Host} (spared : Spared life.schema.safeName life.host host) :
      LifetimeStep externals life { life with host := host }

/-- A schema whose first segment was just created. -/
structure Lifetime.Initial (externals : Externals) (life : Lifetime) : Prop where
  created : ∃ name capacity maxIdBytes layout header,
    computeLayout externals.hashName life.schema capacity maxIdBytes = .ok layout ∧
    header.length = headerSize ∧ life.host.keys.current life.schema.safeName = some name ∧
    name ∈ life.host.linked ∧
    life.host.objects name = some ⟨life.schema, layout, freshSegment layout header⟩
  writes : life.writes = []

end Quorin
