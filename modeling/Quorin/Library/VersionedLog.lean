import Mathlib.Data.List.Basic

/-! Logs whose entries were written under different versions of a format. -/

namespace VersionedLog

variable {V K P : Type}

/-- One write of a payload under a version. -/
structure Entry (V K P : Type) where
  version : V
  key : K
  payload : P

/-- The laws of a migration: it leaves valid payloads of one version alone, and two accepted
migrations in a row are one. -/
structure Lawful (migrate : V → V → P → P) (accepts : V → V → Prop) (valid : V → P → Prop) :
    Prop where
  self : ∀ version payload, valid version payload → migrate version version payload = payload
  trans : ∀ old middle new payload, accepts old middle → accepts middle new → valid old payload →
    migrate middle new (migrate old middle payload) = migrate old new payload
  accepts : ∀ old middle new, accepts old middle → accepts middle new → accepts old new

/-- Every entry of a log is valid and of the given version or accepted for it. -/
def Readable (accepts : V → V → Prop) (valid : V → P → Prop) (version : V)
    (log : List (Entry V K P)) : Prop :=
  ∀ entry ∈ log, valid entry.version entry.payload ∧
    (entry.version = version ∨ accepts entry.version version)

section Laws

variable {migrate : V → V → P → P} {accepts : V → V → Prop} {valid : V → P → Prop}
  {log : List (Entry V K P)} {version : V}

theorem Readable.cons {entry : Entry V K P} (readable : Readable accepts valid version log)
    (current : entry.version = version) (fits : valid entry.version entry.payload) :
    Readable accepts valid version (entry :: log) := by
  intro other member
  rcases List.mem_cons.mp member with rfl | member
  · exact ⟨fits, Or.inl current⟩
  · exact readable other member

theorem Readable.moved (lawful : Lawful migrate accepts valid)
    (readable : Readable accepts valid version log) {new : V} (accepted : accepts version new) :
    Readable accepts valid new log := by
  intro entry member
  obtain ⟨fits, same | before⟩ := readable entry member
  · exact ⟨fits, Or.inr (same ▸ accepted)⟩
  · exact ⟨fits, Or.inr (lawful.accepts _ _ _ before accepted)⟩

variable [DecidableEq K]

/-- The newest payload of a key, as a version shows it. -/
def view (migrate : V → V → P → P) (log : List (Entry V K P)) (version : V) (key : K) : Option P :=
  (log.find? fun entry => entry.key = key).map fun entry => migrate entry.version version entry.payload

/-- A write of the current version is shown as it was written. -/
theorem view_cons (lawful : Lawful migrate accepts valid) {key : K} {payload : P}
    (fits : valid version payload) (other : K) :
    view migrate (⟨version, key, payload⟩ :: log) version other =
      if key = other then some payload else view migrate log version other := by
  by_cases same : key = other
  · simp [view, same, lawful.self version payload fits]
  · simp [view, same]

/-- A migrated view is the view of the new version. -/
theorem view_migrate (lawful : Lawful migrate accepts valid)
    (readable : Readable accepts valid version log) {new : V} (accepted : accepts version new)
    (key : K) :
    (view migrate log version key).map (migrate version new) = view migrate log new key := by
  unfold view
  cases found : log.find? fun entry => entry.key = key with
  | none => rfl
  | some entry =>
      obtain ⟨fits, same | before⟩ := readable entry (List.mem_of_find?_eq_some found)
      · simp only [Option.map_some, same, lawful.self version entry.payload (same ▸ fits)]
      · simp only [Option.map_some, lawful.trans _ _ _ _ before accepted fits]

end Laws

end VersionedLog
