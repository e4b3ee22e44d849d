import Libeam.Supervision.Spawn
/-!
# Spawns that fail

A spawn that is refused leaves the tables alone, and so does one whose constructor
throws.  When `init` throws, the instance has been entered in the tables and stays
there.
-/

namespace Libeam.Proofs.SpawnFailure

open Libeam.System (ActorId)
open Supervision

variable {N V : Type}

/-- The tables are as before; of the registry and of the lists of children, what
concerns the requested name and the parent. -/
structure Unchanged (name : Option String) (parent : Option ActorId) (s s' : SpawnNode N V) :
    Prop where
  actors : s'.actors = s.actors
  mailboxes : s'.mailboxes = s.mailboxes
  actorMetadata : s'.actorMetadata = s.actorMetadata
  remoteParents : s'.remoteParents = s.remoteParents
  binding : ∀ n, name = some n → s'.registry n = s.registry n
  lists : ∀ p, parent = some p → s'.context p = s.context p

theorem Unchanged.refl (name : Option String) (parent : Option ActorId) (s : SpawnNode N V) :
    Unchanged name parent s s := ⟨rfl, rfl, rfl, rfl, fun _ _ => rfl, fun _ _ => rfl⟩

/-- The constructor throws only when it has left the tables alone, and `init` does
not throw. -/
structure Harmless (name : Option String) (parent : Option ActorId) (s : SpawnNode N V)
    (actorClass : ActorClass N V) (id : ActorId) (args : Option (List V))
    (entered : SpawnNode N V → SpawnNode N V) : Prop where
  construct : (actorClass.construct s).2 ≠ none →
    Unchanged name parent s (actorClass.construct s).1
  init : (actorClass.construct s).2 = none →
    (actorClass.init (entered (actorClass.construct s).1) id (args.getD [])).2 = none

section
variable {name : Option String} {parent : Option ActorId} {s : SpawnNode N V}
  {actorClass : ActorClass N V} {id : ActorId} {args : Option (List V)}
  {entered : SpawnNode N V → SpawnNode N V}

/-- An instance that `init` has thrown for is in the tables. -/
theorem mem_bringUp (args : Option (List V)) (hentered : ∀ s', id ∈ (entered s').actors)
    (hconstruct : (actorClass.construct s).2 = none) :
    id ∈ (s.bringUp actorClass id args entered).1.actors := by
  unfold SpawnNode.bringUp
  rcases hc : actorClass.construct s with ⟨constructed, thrown⟩
  obtain rfl : thrown = none := by rw [hc] at hconstruct; exact hconstruct
  have hkept := actorClass.init_keeps (entered constructed) id (args.getD [])
    (hentered constructed)
  dsimp only
  split
  next started message hinit => rwa [hinit] at hkept
  next started hinit =>
    rw [hinit] at hkept
    unfold SpawnNode.scheduleProcessMailbox
    split_ifs <;> exact hkept

theorem bringUp_of_construct {message : String}
    (hthrown : (actorClass.construct s).2 = some message) :
    s.bringUp actorClass id args entered = ((actorClass.construct s).1, some message) := by
  unfold SpawnNode.bringUp
  rcases hc : actorClass.construct s with ⟨constructed, thrown⟩
  rw [hc] at hthrown
  dsimp only at hthrown ⊢
  rw [hthrown]

theorem bringUp_thrown (hconstruct : (actorClass.construct s).2 = none) :
    (s.bringUp actorClass id args entered).2 =
      (actorClass.init (entered (actorClass.construct s).1) id (args.getD [])).2 := by
  unfold SpawnNode.bringUp
  rcases hc : actorClass.construct s with ⟨constructed, thrown⟩
  obtain rfl : thrown = none := by rw [hc] at hconstruct; exact hconstruct
  dsimp only
  split
  next hinit => rw [hinit]
  next hinit => rw [hinit]

theorem bringUp_unchanged (hid : id ∉ s.actors) (hentered : ∀ s', id ∈ (entered s').actors) :
    ((s.bringUp actorClass id args entered).2 ≠ none →
        Unchanged name parent s (s.bringUp actorClass id args entered).1) ↔
      Harmless name parent s actorClass id args entered := by
  cases hconstruct : (actorClass.construct s).2 with
  | some message =>
      rw [bringUp_of_construct hconstruct]
      constructor
      · exact fun h => ⟨fun _ => h nofun, fun hnone => by simp [hconstruct] at hnone⟩
      · exact fun h _ => h.construct (by simp [hconstruct])
  | none =>
      constructor
      · intro h
        refine ⟨fun hsome => absurd hconstruct hsome, fun _ => ?_⟩
        rw [← bringUp_thrown hconstruct]
        by_contra hthrown
        have hmem := mem_bringUp args hentered hconstruct
        rw [(h hthrown).actors] at hmem
        exact hid hmem
      · intro h hthrown
        rw [bringUp_thrown hconstruct] at hthrown
        exact absurd (h.init hconstruct) hthrown

end

/-! ## What is entered -/

theorem register_actors (s : SpawnNode N V) (name : Option String) (id : ActorId) :
    (s.register name id).actors = s.actors := by
  unfold SpawnNode.register
  split
  · rfl
  · split_ifs <;> rfl

theorem mem_enterRoot (actorClass : ActorClass N V) (options : LocalSpawnOptions V)
    (id : ActorId) (s : SpawnNode N V) :
    id ∈ (SpawnNode.enterRoot actorClass options id s).actors := by
  unfold SpawnNode.enterRoot
  rw [register_actors]
  exact Finset.mem_insert_self ..

theorem mem_enterChild (parentRef : ActorRef N) (actorClass : ActorClass N V)
    (options : LocalSpawnOptions V) (id : ActorId) (s : SpawnNode N V) :
    id ∈ (SpawnNode.enterChild parentRef actorClass options id s).actors := by
  unfold SpawnNode.enterChild
  rw [register_actors]
  exact Finset.mem_insert_self ..

theorem mem_enterRemoteChild (actorClass : ActorClass N V) (request : ChildSpawnRequest N V)
    (s : SpawnNode N V) :
    request.childInstanceId ∈ (SpawnNode.enterRemoteChild actorClass request s).actors := by
  unfold SpawnNode.enterRemoteChild
  rw [register_actors]
  exact Finset.mem_insert_self ..

/-! ## The three ways to spawn -/

section
variable {s : SpawnNode N V} {id : ActorId}

theorem spawnResult_error (name : Option String) (thrown : Option String) :
    (∃ error, s.spawnResult id name thrown = .error error) ↔ thrown ≠ none := by
  cases thrown with
  | none | some => simp [SpawnNode.spawnResult]

theorem spawn_unchanged [DecidableEq N] (hid : id ∉ s.actors) (actorClass : ActorClass N V)
    (options : LocalSpawnOptions V) :
    ((∃ error, (s.spawn actorClass options id).2 = .error error) →
        Unchanged options.name none s (s.spawn actorClass options id).1) ↔
      (s.isShuttingDown ∨ s.isDraining) ∨ (∃ error, s.selectLocal options.role = .error error) ∨
        Harmless options.name none s actorClass id options.args
          (SpawnNode.enterRoot actorClass options id) := by
  unfold SpawnNode.spawn
  split_ifs with hclosing
  · exact iff_of_true (fun _ => .refl _ _ s) (.inl hclosing)
  · rw [or_iff_right hclosing]
    split
    next error hselect => exact iff_of_true (fun _ => .refl _ _ s) (.inl ⟨error, hselect⟩)
    next hselect =>
      rw [spawnResult_error, bringUp_unchanged hid (mem_enterRoot actorClass options id)]
      refine (or_iff_right ?_).symm
      rintro ⟨error, herror⟩
      rw [hselect] at herror
      cases herror

theorem spawnChild_unchanged (hid : id ∉ s.actors) (parentRef : ActorRef N)
    (actorClass : ActorClass N V) (options : LocalSpawnOptions V) :
    ((∃ error, (s.spawnChild parentRef actorClass options id).2 = .error error) →
        Unchanged options.name (some parentRef.id) s
          (s.spawnChild parentRef actorClass options id).1) ↔
      (s.isShuttingDown ∨ s.isDraining) ∨ parentRef.id ∉ s.actors ∨
        Harmless options.name (some parentRef.id) s actorClass id options.args
          (SpawnNode.enterChild parentRef actorClass options id) := by
  unfold SpawnNode.spawnChild
  split_ifs with hclosing hparent
  · exact iff_of_true (fun _ => .refl _ _ s) (.inl hclosing)
  · rw [or_iff_right hclosing, or_iff_right (not_not.2 hparent), spawnResult_error,
      bringUp_unchanged hid (mem_enterChild parentRef actorClass options id)]
  · rw [or_iff_right hclosing]
    exact iff_of_true (fun _ => .refl _ _ s) (.inl hparent)

theorem handleRemoteChildSpawn_unchanged (actorClasses : String → Option (ActorClass N V))
    {request : ChildSpawnRequest N V} (hid : request.childInstanceId ∉ s.actors) :
    ((s.handleRemoteChildSpawn actorClasses request).2.success = false →
        Unchanged request.options.name none s
          (s.handleRemoteChildSpawn actorClasses request).1) ↔
      ∀ actorClass, actorClasses request.actorClassName = some actorClass →
        Harmless request.options.name none s actorClass request.childInstanceId
          request.options.args (SpawnNode.enterRemoteChild actorClass request) := by
  unfold SpawnNode.handleRemoteChildSpawn
  split
  next hnone =>
    refine iff_of_true (fun _ => .refl _ _ s) fun actorClass hsome => ?_
    rw [hnone] at hsome
    cases hsome
  next actorClass hsome =>
    have hup : _ ↔ Harmless request.options.name none s actorClass request.childInstanceId
        request.options.args (SpawnNode.enterRemoteChild actorClass request) :=
      bringUp_unchanged hid (mem_enterRemoteChild actorClass request)
    have hclass : (∀ actorClass', actorClasses request.actorClassName = some actorClass' →
        Harmless request.options.name none s actorClass' request.childInstanceId
          request.options.args (SpawnNode.enterRemoteChild actorClass' request)) ↔
        Harmless request.options.name none s actorClass request.childInstanceId
          request.options.args (SpawnNode.enterRemoteChild actorClass request) := by
      rw [hsome]
      exact ⟨fun h => h _ rfl, fun h _ heq => Option.some.inj heq ▸ h⟩
    rw [hclass, ← hup]
    dsimp only
    cases hthrown : (s.bringUp actorClass request.childInstanceId request.options.args
        (SpawnNode.enterRemoteChild actorClass request)).2 with
    | none => simp
    | some message => simp

/-- A spawn that fails leaves the tables alone just when it was refused, or when the
constructor threw and had left them alone, and not when `init` threw. -/
theorem failed_spawn_unchanged [DecidableEq N] (hid : id ∉ s.actors) :
    (∀ (actorClass : ActorClass N V) (options : LocalSpawnOptions V),
      ((∃ error, (s.spawn actorClass options id).2 = .error error) →
          Unchanged options.name none s (s.spawn actorClass options id).1) ↔
        (s.isShuttingDown ∨ s.isDraining) ∨
          (∃ error, s.selectLocal options.role = .error error) ∨
          Harmless options.name none s actorClass id options.args
            (SpawnNode.enterRoot actorClass options id)) ∧
    (∀ (parentRef : ActorRef N) (actorClass : ActorClass N V) (options : LocalSpawnOptions V),
      ((∃ error, (s.spawnChild parentRef actorClass options id).2 = .error error) →
          Unchanged options.name (some parentRef.id) s
            (s.spawnChild parentRef actorClass options id).1) ↔
        (s.isShuttingDown ∨ s.isDraining) ∨ parentRef.id ∉ s.actors ∨
          Harmless options.name (some parentRef.id) s actorClass id options.args
            (SpawnNode.enterChild parentRef actorClass options id)) ∧
    ∀ (actorClasses : String → Option (ActorClass N V)) (request : ChildSpawnRequest N V),
      request.childInstanceId = id →
      (((s.handleRemoteChildSpawn actorClasses request).2.success = false →
          Unchanged request.options.name none s
            (s.handleRemoteChildSpawn actorClasses request).1) ↔
        ∀ actorClass, actorClasses request.actorClassName = some actorClass →
          Harmless request.options.name none s actorClass request.childInstanceId
            request.options.args (SpawnNode.enterRemoteChild actorClass request)) := by
  refine ⟨spawn_unchanged hid, spawnChild_unchanged hid, fun actorClasses request hreq => ?_⟩
  subst hreq
  exact handleRemoteChildSpawn_unchanged actorClasses hid

end

/-- A class whose `init` throws. -/
def failingInit : ActorClass Nat Nat where
  name := "Worker"
  construct := fun s => (s, none)
  init := fun s _ _ => (s, some "init failed")
  init_keeps := fun _ _ _ => Finset.Subset.refl _

/-- A node with one actor. -/
def oneActor : SpawnNode Nat Nat where
  id := 0
  isShuttingDown := false
  isDraining := false
  membersByRole := none
  defaultMailboxConfig := {}
  actors := {0}
  mailboxes := fun _ => none
  context := fun _ => ⟨[], []⟩
  actorMetadata := fun _ => none
  remoteParents := fun _ => none
  registry := fun _ => none
  pausedMailboxes := ∅
  mailboxScheduled := ∅

theorem failed_spawn_unchanged_oneActor :
    1 ∉ oneActor.actors ∧ ∀ error,
      (oneActor.spawnChild ⟨0, 5, none, 0⟩ failingInit {} 1).2 = .error error →
        Unchanged none (some 5) oneActor
          (oneActor.spawnChild ⟨0, 5, none, 0⟩ failingInit {} 1).1 := by
  have hid : 1 ∉ oneActor.actors := by decide
  refine ⟨hid, fun error herror => ?_⟩
  exact ((failed_spawn_unchanged hid).2.1 ⟨0, 5, none, 0⟩ failingInit {}).2
    (.inr (.inl (by decide))) ⟨error, herror⟩

/-- The child whose `init` has thrown is in the tables and on the lists of its parent. -/
theorem spawnChild_failingInit :
    (oneActor.spawnChild ⟨0, 0, none, 0⟩ failingInit {} 1).2 =
        .error (.thrown "init failed") ∧
      ¬ Unchanged none (some 0) oneActor
        (oneActor.spawnChild ⟨0, 0, none, 0⟩ failingInit {} 1).1 := by
  refine ⟨rfl, fun h => ?_⟩
  exact absurd h.actors (by decide)

end Libeam.Proofs.SpawnFailure
