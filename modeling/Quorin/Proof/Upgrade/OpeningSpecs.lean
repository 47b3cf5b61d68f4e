import Quorin.Library.RelyGuarantee
import Quorin.Proof.Upgrade.CopyWindow
import Quorin.Proof.Upgrade.PointerSafety

namespace Quorin

open ByteMemory FaultyCalls

/-- A step of an upgrade that leaves pointers, links and segments as they are. -/
structure Steady (before after : Host) : Prop where
  current : after.keys.current = before.keys.current
  linked : after.linked = before.linked
  objects : after.objects = before.objects
  pending : after.pending = before.pending
  liveness : after.liveness = before.liveness

theorem Steady.refl (host : Host) : Steady host host := ⟨rfl, rfl, rfl, rfl, rfl⟩

/-- A change of the keys that leaves the pointers. -/
theorem Steady.withKeys (host : Host) {keys : RegistryKeys}
    (current : keys.current = host.keys.current) : Steady host { host with keys := keys } :=
  ⟨current, rfl, rfl, rfl, rfl⟩

theorem QuietEffect.steady {call : UpgradeCall} {before after : Host}
    (quiet : QuietEffect call before after) : Steady before after :=
  ⟨by rw [quiet.keys], quiet.linked, quiet.objects, quiet.pending, quiet.liveness⟩

/-- What the others do beside the part in front of the flip: they write to the old segment. -/
structure Beside (call : UpgradeCall) (oldName : String) (before after : HostedWorld) : Prop where
  current : after.host.keys.current = before.host.keys.current
  linked : after.host.linked = before.host.linked
  new : after.world.shared call.newName = before.world.shared call.newName
  old : ∀ segment, before.world.shared oldName = some segment →
    ∃ memory, after.world.shared oldName = some { segment with memory := memory }

/-- A step of the part in front of the flip: it writes to the new segment. -/
structure OpeningTurn (call : UpgradeCall) (before after : HostedWorld) : Prop where
  put : after = before.put after.host
  seen : after.seen = after.host
  current : after.host.keys.current = before.host.keys.current
  others : ∀ name, name ≠ call.newName → after.world.shared name = before.world.shared name

/-- The protocol of the part in front of the flip. -/
def openingProtocol (call : UpgradeCall) (oldName : String) : Protocol HostedWorld Host where
  view := HostedWorld.seen
  rely := Beside call oldName
  guarantee := OpeningTurn call

/-- The schema points to its old segment. -/
structure Pointing (call : UpgradeCall) (oldName : String) (first : Segment) (place : HostedWorld) :
    Prop where
  current : place.host.keys.current call.old.safeName = some oldName
  old : ∃ memory, place.world.shared oldName = some { first with memory := memory }

/-- The new segment is linked and fresh. -/
structure FreshNew (externals : Externals) (call : UpgradeCall) (oldName : String) (first : Segment)
    (place : HostedWorld) : Prop extends Pointing call oldName first place where
  new : ∃ layout header, (∃ capacity : Int, computeLayout externals.hashName call.new capacity
      first.layout.maxIdBytes = .ok layout) ∧ header.length = headerSize ∧
    place.world.shared call.newName = some ⟨call.new, layout, freshSegment layout header⟩
  linked : call.newName ∈ place.host.linked

/-- The part in front of the copy ends without a new segment, or with a fresh one. -/
def OpeningEnds (externals : Externals) (call : UpgradeCall) (oldName : String) (first : Segment) :
    Except HostFailure Opening → HostedWorld → Prop
  | .ok (.prepared name old _), place =>
      name = oldName ∧ old.layout = first.layout ∧ FreshNew externals call oldName first place
  | .ok (.unprepared name _), _ => name = oldName
  | _, _ => True

section Stable

variable {externals : Externals} {call : UpgradeCall} {oldName : String} {first : Segment}
  {before after : HostedWorld}

theorem Beside.refl (place : HostedWorld) : Beside call oldName place place :=
  ⟨rfl, rfl, rfl, fun segment present => ⟨segment.memory, present⟩⟩

theorem Beside.trans {middle : HostedWorld} (one : Beside call oldName before middle)
    (other : Beside call oldName middle after) : Beside call oldName before after where
  current := other.current.trans one.current
  linked := other.linked.trans one.linked
  new := other.new.trans one.new
  old := by
    intro segment present
    obtain ⟨memory, stored⟩ := one.old segment present
    exact other.old { segment with memory := memory } stored

theorem Pointing.beside (pointing : Pointing call oldName first before)
    (relied : Beside call oldName before after) : Pointing call oldName first after := by
  refine ⟨by rw [relied.current]; exact pointing.current, ?_⟩
  obtain ⟨memory, present⟩ := pointing.old
  exact relied.old { first with memory := memory } present

theorem FreshNew.beside (fresh : FreshNew externals call oldName first before)
    (relied : Beside call oldName before after) : FreshNew externals call oldName first after := by
  refine ⟨fresh.toPointing.beside relied, ?_, by rw [relied.linked]; exact fresh.linked⟩
  rw [relied.new]
  exact fresh.new

theorem OpeningEnds.beside {result : Except HostFailure Opening}
    (ends : OpeningEnds externals call oldName first result before)
    (relied : Beside call oldName before after) :
    OpeningEnds externals call oldName first result after := by
  rcases result with error | opening
  · trivial
  · cases opening with
    | failed error => trivial
    | unprepared name error => exact ends
    | prepared name old occupied => exact ⟨ends.1, ends.2.1, ends.2.2.beside relied⟩

/-- The call sees what it puts when it leaves the stream and the liveness key alone. -/
theorem put_seen {place : HostedWorld} {host : Host} (pending : host.pending = place.seen.pending)
    (liveness : host.liveness = place.seen.liveness) : (place.put host).seen = host := by
  rw [show (place.put host).seen =
    { host with pending := place.seen.pending, liveness := place.seen.liveness } from rfl,
    ← pending, ← liveness]

/-- A steady step is one that the others could do too. -/
theorem Steady.turn {place : HostedWorld} {host : Host} (steady : Steady place.seen host) :
    (place.put host).seen = host ∧ OpeningTurn call place (place.put host) ∧
      Beside call oldName place (place.put host) := by
  have seen := put_seen steady.pending steady.liveness
  have shared : (place.put host).world.shared = place.world.shared := steady.objects
  refine ⟨seen, ⟨rfl, seen, steady.current, fun name _ => congrFun shared name⟩, steady.current,
    steady.linked, congrFun shared call.newName, fun segment present => ⟨segment.memory, ?_⟩⟩
  rw [shared]
  exact present

end Stable

section Specs

variable {externals : Externals} {call : UpgradeCall} {oldName : String} {first : Segment}
  {α : Type} {place : HostedWorld}

/-- A program of steady steps keeps what is stable beside the others. -/
theorem guarded_steady {program : HostProgram α} {kept : HostedWorld → Prop}
    (steady : program.Within Steady)
    (stable : ∀ before after, kept before → Beside call oldName before after → kept after)
    (holds : kept place) :
    program.Guarded (openingProtocol call oldName) (fun _ after => kept after) place := by
  induction program generalizing place with
  | done value => exact holds
  | raised error => exact holds
  | step effect next ih =>
      intro start relied
      obtain ⟨viewed, turn, aside⟩ := @Steady.turn call oldName start _ (steady start.seen).1
      exact ⟨_, viewed, turn,
        ih _ (steady start.seen).2 (stable _ _ (stable _ _ holds relied) aside)⟩

/-- A call of steady effect that returns what it reads. -/
theorem guarded_steadyCall {outcome : CallOutcome} {effect : Host → Host} {result : Host → α}
    {returns : α → HostedWorld → Prop} (steady : ∀ host, Steady host (effect host))
    (reads : ∀ start after, Beside call oldName place start → Beside call oldName start after →
      returns (result start.seen) after) :
    (Attempt.call outcome HostFailure.redisError effect result).Guarded (openingProtocol call oldName)
      (Attempt.Either returns fun _ => True) place := by
  apply Attempt.guarded_lossyCall trivial
  intro start relied
  obtain ⟨viewed, turn, aside⟩ := @Steady.turn call oldName start _ (steady start.seen)
  exact ⟨_, viewed, turn, reads start _ relied aside, trivial⟩

/-- A local step that reads. -/
theorem guarded_reading {next : Host → HostProgram α} {ends : Except HostFailure α → HostedWorld → Prop}
    (rest : ∀ start after, Beside call oldName place start → Beside call oldName start after →
      (next start.seen).Guarded (openingProtocol call oldName) ends after) :
    (Attempt.inspect next).Guarded (openingProtocol call oldName) ends place := by
  intro start relied
  obtain ⟨viewed, turn, aside⟩ := @Steady.turn call oldName start _ (Steady.refl start.seen)
  exact ⟨_, viewed, turn, rest start _ relied aside⟩

/-- The open returns the old segment. -/
theorem openOld_opens (pointing : Pointing call oldName first place) :
    (openOld externals call).Guarded (openingProtocol call oldName)
      (Attempt.Either (fun opened after => opened.1 = oldName ∧ opened.2.layout = first.layout ∧
        Pointing call oldName first after) fun _ => True) place := by
  have paused : (Attempt.call call.pause HostFailure.redisError
      (fun host : Host => { host with
        pause := Function.update host.pause call.old.safeName (some call.token) })
      fun _ => ()).Guarded (openingProtocol call oldName)
        (Attempt.Either (fun _ => Pointing call oldName first) fun _ => True) place :=
    guarded_steadyCall (fun host => ⟨rfl, rfl, rfl, rfl, rfl⟩) fun start after relied aside =>
      (pointing.beside relied).beside aside
  refine paused.seq fun _ middle points => ?_
  have read : (Attempt.call call.openGet HostFailure.redisError id
      fun host : Host => host.keys.current call.old.safeName).Guarded (openingProtocol call oldName)
        (Attempt.Either (fun current after => current = some oldName ∧
          Pointing call oldName first after) fun _ => True) middle :=
    guarded_steadyCall Steady.refl fun start after relied aside =>
      ⟨(points.beside relied).current, (points.beside relied).beside aside⟩
  refine read.seq fun current later found => ?_
  obtain ⟨rfl, points⟩ := found
  apply guarded_reading
  intro start after relied aside
  obtain ⟨memory, present⟩ := (points.beside relied).old
  rw [show start.seen.objects oldName = _ from present]
  dsimp only
  split
  · trivial
  · split
    · trivial
    · exact guarded_steadyCall (fun host => Steady.withKeys host rfl) fun last final reached behind =>
        ⟨rfl, rfl, ((((points.beside relied).beside aside).beside reached).beside behind)⟩

/-- A change of the new segment and its link. -/
theorem newSegment_turn {host : Host} (current : host.keys.current = place.host.keys.current)
    (others : ∀ name, name ≠ call.newName → host.objects name = place.world.shared name)
    (pending : host.pending = place.seen.pending) (liveness : host.liveness = place.seen.liveness) :
    (place.put host).seen = host ∧ OpeningTurn call place (place.put host) := by
  have seen := put_seen pending liveness
  exact ⟨seen, rfl, seen, current, others⟩

/-- The old segment stays when only the new one changes. -/
theorem Pointing.turned (pointing : Pointing call oldName first place)
    (different : oldName ≠ call.newName) {host : Host}
    (current : host.keys.current = place.host.keys.current)
    (others : ∀ name, name ≠ call.newName → host.objects name = place.world.shared name) :
    Pointing call oldName first (place.put host) := by
  refine ⟨?_, ?_⟩
  · change host.keys.current _ = _
    rw [current]
    exact pointing.current
  · obtain ⟨memory, present⟩ := pointing.old
    exact ⟨memory, (others oldName different).trans present⟩

/-- The registration writes the header of the linked new segment. -/
theorem register_fresh {create' : CreateCall} (named : create'.name = call.newName)
    (schema : create'.schema = call.new) (silent : create'.setCurrent = false)
    (different : oldName ≠ call.newName) {layout : SegmentLayout} {capacity : Int} {memory : Memory}
    (computed : computeLayout externals.hashName call.new capacity first.layout.maxIdBytes = .ok layout)
    (pointing : Pointing call oldName first place)
    (present : place.world.shared call.newName = some ⟨call.new, layout, memory⟩)
    (linked : call.newName ∈ place.host.linked) :
    (registerSegment externals create' layout).Guarded (openingProtocol call oldName)
      (Attempt.Either (fun _ => FreshNew externals call oldName first) fun _ => True) place := by
  unfold registerSegment
  rw [named, schema]
  split
  · trivial
  · rename_i header packed
    intro start relied
    have points := pointing.beside relied
    have others : ∀ name, name ≠ call.newName → (start.seen.withMemory call.newName
        fun _ => freshSegment layout header).objects name = start.world.shared name :=
      fun name other => Function.update_of_ne other _ _
    obtain ⟨viewed, turn⟩ := @newSegment_turn call start (start.seen.withMemory call.newName
      fun _ => freshSegment layout header) rfl others rfl rfl
    have fresh : FreshNew externals call oldName first (start.put (start.seen.withMemory call.newName
        fun _ => freshSegment layout header)) := by
      refine ⟨points.turned different rfl others, ⟨layout, header, ⟨capacity, computed⟩,
        packHeader_length packed, ?_⟩, ?_⟩
      · have stored : start.seen.objects call.newName = some ⟨call.new, layout, memory⟩ :=
          relied.new.trans present
        change Function.update _ _ _ _ = _
        rw [Function.update_self, stored]
        rfl
      · change call.newName ∈ start.host.linked
        rw [relied.linked]
        exact linked
    refine ⟨_, viewed, turn, guarded_steadyCall (fun host => Steady.withKeys host ?_)
      fun last final reached behind => (fresh.beside reached).beside behind⟩
    simp [RegistryKeys.createPipeline, silent]

/-- A `create` of the new segment leaves a fresh one, or raises. -/
theorem create_prepares {create' : CreateCall} (named : create'.name = call.newName)
    (schema : create'.schema = call.new) (silent : create'.setCurrent = false)
    (idBytes : create'.maxIdBytes = first.layout.maxIdBytes) (different : oldName ≠ call.newName)
    (pointing : Pointing call oldName first place) :
    (create externals create').Guarded (openingProtocol call oldName)
      (Attempt.Either (fun _ => FreshNew externals call oldName first) fun _ => True) place := by
  unfold create
  split
  · trivial
  · rename_i layout computed
    rw [schema, idBytes] at computed
    split
    · trivial
    · intro start relied
      rw [named, schema]
      have points := pointing.beside relied
      have others : ∀ name, name ≠ call.newName →
          (start.seen.link call.newName call.new layout).objects name = start.world.shared name := by
        intro name other
        unfold Host.link
        split
        · rfl
        · exact Function.update_of_ne other _ _
      have kept : (start.seen.link call.newName call.new layout).keys = start.host.keys ∧
          (start.seen.link call.newName call.new layout).pending = start.seen.pending ∧
          (start.seen.link call.newName call.new layout).liveness = start.seen.liveness := by
        unfold Host.link
        split <;> exact ⟨rfl, rfl, rfl⟩
      obtain ⟨viewed, turn⟩ := @newSegment_turn call start _ (by rw [kept.1]) others kept.2.1 kept.2.2
      refine ⟨_, viewed, turn, ?_⟩
      dsimp only
      split
      · trivial
      · rename_i missing
        have absent : call.newName ∉ start.seen.linked := missing
        have linked : call.newName ∈ (start.seen.link call.newName call.new layout).linked := by
          rw [Host.link, if_neg absent]
          exact Finset.mem_insert_self _ _
        have present : (start.seen.link call.newName call.new layout).objects call.newName =
            some ⟨call.new, layout, Memory.zero⟩ := by
          rw [Host.link, if_neg absent]
          exact Function.update_self _ _ _
        have pointsLinked := points.turned different (by rw [kept.1]) others
        refine Attempt.Guarded.rescue (register_fresh named schema silent different computed
          pointsLinked present linked) fun after _ => ?_
        intro last _
        obtain ⟨viewed, turn⟩ := @newSegment_turn call last (last.seen.unlink call.newName) rfl
          (fun name _ => rfl) rfl rfl
        exact ⟨_, viewed, turn, trivial⟩

/-- The preparation leaves a fresh new segment, or raises. -/
theorem prepareNew_prepares {old : Segment} (layout : old.layout = first.layout)
    (different : oldName ≠ call.newName) (pointing : Pointing call oldName first place) :
    (prepareNew externals call oldName old).Guarded (openingProtocol call oldName)
      (Attempt.Either (fun _ => FreshNew externals call oldName first) fun _ => True) place := by
  have read : (Attempt.call call.currentGet HostFailure.redisError id
      fun host : Host => host.keys.current call.old.safeName).Guarded (openingProtocol call oldName)
        (Attempt.Either (fun _ => Pointing call oldName first) fun _ => True) place :=
    guarded_steadyCall Steady.refl fun start after relied aside =>
      (pointing.beside relied).beside aside
  refine read.seq fun current middle points => ?_
  split
  · trivial
  · apply guarded_reading
    intro start after relied aside
    refine Attempt.Guarded.seq (create_prepares rfl rfl rfl ?_ different
      ((points.beside relied).beside aside)) fun _ last fresh => fresh
    change (old.layout.maxIdBytes : Int) = first.layout.maxIdBytes
    rw [layout]

/-- The part in front of the copy. -/
theorem openingSteps_open (different : oldName ≠ call.newName)
    (pointing : Pointing call oldName first place) :
    (openingSteps externals call).Guarded (openingProtocol call oldName)
      (OpeningEnds externals call oldName first) place := by
  have checked := @guarded_steady call oldName _ place (upgradePrecondition call)
    (Pointing call oldName first) (upgradePrecondition_quiet.mono fun _ _ quiet => quiet.steady)
    (fun _ _ points relied => points.beside relied) pointing
  refine Attempt.Guarded.bind (checked.mono fun result middle points => ?_)
  cases result with
  | error error => trivial
  | ok passed =>
      refine Attempt.Guarded.bind (Attempt.Guarded.attempt ((openOld_opens points).mono
        fun result later opened => ?_))
      cases result with
      | error error => trivial
      | ok found =>
          obtain ⟨name, old⟩ := found
          obtain ⟨rfl, layout, points⟩ := opened
          refine Attempt.Guarded.bind (Attempt.Guarded.attempt ((prepareNew_prepares layout different
            points).mono fun result last fresh => ?_))
          cases result with
          | error error => exact rfl
          | ok occupied => exact ⟨rfl, layout, fresh⟩

end Specs

end Quorin
