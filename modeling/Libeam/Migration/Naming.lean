import Libeam.Migration.Source
import Libeam.Registry.ReservationCalls
import Libeam.System.Lifecycle
/-!
# Names of instances

The nodes of a cluster that share one `LocalRegistry`.  An instance is registered when it
is spawned, or when it has migrated in; a stop, and a migration that succeeded, unregister
the name of the instance, whatever it is bound to.  Which reservations are granted, and
which requests time out, is left open.
-/

namespace Libeam.System.Lifecycle

variable {V : Type}

/-- `actorMetadata.get(id)?.options.name` -/
def nameOf (l : Lifecycle V) (id : ActorId) : Option String :=
  (l.actorMetadata id).bind (·.options.name)

/-- A reference has the name that its instance was spawned with. -/
def Refers (l : Lifecycle V) : LifecycleAction V → Prop
  | .stop id name | .stopSingle id name | .restart id name =>
      id ∈ l.node.actors → name = l.nameOf id
  | _ => True

instance (l : Lifecycle V) (a : LifecycleAction V) : Decidable (l.Refers a) := by
  unfold Refers
  split <;> infer_instance

/-- The instance that a step spawned, with the name that is registered for it. -/
def registers (l l' : Lifecycle V) : Option (String × ActorId) :=
  if l.node.nextId < l'.node.nextId then
    (l'.nameOf l.node.nextId).bind fun name =>
      if name = "" then none else some (name, l.node.nextId)
  else none

/-- The innermost call has just invoked `registry.unregister`. -/
def unregistering : List StopFrame → Option (String × ActorId)
  | ⟨id, name, .unregistering⟩ :: _ => name.map (·, id)
  | _ => none

/-- The name that a step unregisters, with the instance that it stops. -/
def unregisters (l l' : Lifecycle V) : LifecycleAction V → Option (String × ActorId)
  | .stop _ _ | .stopSingle _ _ | .restart _ _ | .superviseCrash _ =>
      -- the call that is new
      l'.calls[l.calls.length]?.bind fun call => unregistering call.frames
  | .stopResumes index _ =>
      match l.calls[index]? with
      | some ⟨frame :: _, _⟩ => unregistering (l.resumeFrame frame).2
      | _ => none
  | _ => none

/-- The instance would unregister the name if it were stopped, or is being stopped and has
not come to it.  The empty name counts as none. -/
def Carries (l : Lifecycle V) (id : ActorId) (name : String) : Prop :=
  name ≠ "" ∧ ((id ∈ l.node.actors ∧ l.nameOf id = some name) ∨
    ∃ call ∈ l.calls, ∃ frame ∈ call.frames, frame.id = id ∧ frame.name = some name ∧
      ∃ rest, frame.phase = .children rest)

end Libeam.System.Lifecycle

namespace Libeam.Migration

open Libeam.System Registry

inductive MigratePhase where
  | preparing
  | executing
  /-- The target has the actor; the name was unregistered. -/
  | unregistering
  | returned
  deriving DecidableEq, Repr

/-- Where the `migrate:execute` of a migration is. -/
inductive ExecutePhase where
  | unsent
  | requested
  /-- The new instance is in the tables of the target. -/
  | initializing (instanceId : ActorId)
  | confirmed (instanceId : ActorId)
  | failed
  deriving DecidableEq, Repr

/-- A call of `migrate` that passed its checks, with the handler on the target. -/
structure MigrateCall (N : Type) where
  node : N
  id : ActorId
  actorName : String
  targetNodeId : N
  phase : MigratePhase
  execute : ExecutePhase
  deriving DecidableEq, Repr

/-- `migrate` will unregister the name if the target answers with success. -/
def MigrateCall.waits {N : Type} (m : MigrateCall N) : Bool :=
  m.phase = .preparing ∨ m.phase = .executing

structure Naming (N V : Type) where
  systems : N → Lifecycle V
  /-- `LocalRegistry.registry` -/
  registry : AList fun _ : String => ActorLocation N
  migrations : List (MigrateCall N)

/-- What happens next in a migration. -/
inductive MigrateAction where
  | executes
  /-- Any exit of `migrate` that reports a failure. -/
  | givesUp
  | executeArrives
  /-- `init` or `setState` fails: the instance stays in the tables. -/
  | executeThrows
  | confirms
  | refuses
  | executeReply
  | unregistered
  deriving DecidableEq, Repr

inductive NamingAction (N V : Type) where
  | system (n : N) (a : LifecycleAction V)
  | migrate (n : N) (actorName : String) (targetNodeId : N)
  | migration (i : Nat) (a : MigrateAction)

namespace Naming

variable {N V : Type}

def start (supervisor : N → Supervisor) : Naming N V :=
  ⟨fun n => .init (supervisor n), ∅, []⟩

variable [DecidableEq N]

def setSystem (c : Naming N V) (n : N) (l : Lifecycle V) : Naming N V :=
  { c with systems := Function.update c.systems n l }

def setCall (c : Naming N V) (i : Nat) (m : MigrateCall N) : Naming N V :=
  { c with migrations := c.migrations.set i m }

def register (c : Naming N V) (name : String) (location : ActorLocation N) : Naming N V :=
  { c with registry := c.registry.insert name location }

def unregister (c : Naming N V) (name : String) : Naming N V :=
  { c with registry := c.registry.erase name }

def free (c : Naming N V) : Option (String × ActorId) → Naming N V
  | some (name, _) => c.unregister name
  | none => c

def give (c : Naming N V) (n : N) : Option (String × ActorId) → Naming N V
  | some (name, id) => c.register name ⟨n, id⟩
  | none => c

/-- A step of one node, with the calls that it makes to the registry. -/
def systemStep (c : Naming N V) (n : N) (a : LifecycleAction V) (l : Lifecycle V) :
    Naming N V :=
  ((c.setSystem n l).free ((c.systems n).unregisters l a)).give n ((c.systems n).registers l)

/-- The checks of `migrate`, and its start. -/
def migrate (c : Naming N V) (n : N) (actorName : String) (targetNodeId : N) : Naming N V :=
  match c.registry.lookup actorName with
  | none => c
  | some location =>
      if targetNodeId = n ∨ location.nodeId ≠ n ∨
          location.actorId ∉ (c.systems n).node.actors ∨
          (c.systems n).childOrder location.actorId ≠ [] then c
      else
        { c with
          migrations := c.migrations ++
            [⟨n, location.actorId, actorName, targetNodeId, .preparing, .unsent⟩] }

/-- `_handleMigrateExecute` makes the instance. -/
def install (l : Lifecycle V) (actorName : String) : Lifecycle V :=
  { l with
    node := l.node.install {}
    actorMetadata := Function.update l.actorMetadata l.node.nextId
      (some ⟨{ name := some actorName }, none⟩) }

/-- `_cleanupActorForMigration` -/
def cleanup (l : Lifecycle V) (id : ActorId) : Lifecycle V :=
  { l with
    node := cleanupActor l.node id
    actorMetadata := Function.update l.actorMetadata id none }

def migrateStep (c : Naming N V) (i : Nat) (m : MigrateCall N) :
    MigrateAction → Option (Naming N V)
  | .executes =>
      if m.phase = .preparing then
        some (c.setCall i { m with phase := .executing, execute := .requested })
      else none
  | .givesUp =>
      if m.waits then some (c.setCall i { m with phase := .returned }) else none
  | .executeArrives =>
      if m.execute = .requested then
        let l := c.systems m.targetNodeId
        some ((c.setSystem m.targetNodeId (install l m.actorName)).setCall i
          { m with execute := .initializing l.node.nextId })
      else none
  | .executeThrows =>
      match m.execute with
      | .initializing _ => some (c.setCall i { m with execute := .failed })
      | _ => none
  | .confirms =>
      match m.execute with
      | .initializing id =>
          some ((c.register m.actorName ⟨m.targetNodeId, id⟩).setCall i
            { m with execute := .confirmed id })
      | _ => none
  | .refuses =>
      match m.execute with
      | .initializing id =>
          some ((c.setSystem m.targetNodeId ((c.systems m.targetNodeId).remove id)).setCall i
            { m with execute := .failed })
      | _ => none
  | .executeReply =>
      match m.phase, m.execute with
      | .executing, .confirmed _ =>
          some ((c.unregister m.actorName).setCall i { m with phase := .unregistering })
      | _, _ => none
  | .unregistered =>
      if m.phase = .unregistering then
        some ((c.setSystem m.node (cleanup (c.systems m.node) m.id)).setCall i
          { m with phase := .returned })
      else none

def step (c : Naming N V) : NamingAction N V → Option (Naming N V)
  | .system n a =>
      if (c.systems n).Refers a then ((c.systems n).step a).map (c.systemStep n a) else none
  | .migrate n actorName targetNodeId => some (c.migrate n actorName targetNodeId)
  | .migration i a => c.migrations[i]?.bind fun m => c.migrateStep i m a

/-! ## Whose name it is -/

/-- The instance that a step stops or has migrated away, when it unregisters the name. -/
def frees (c : Naming N V) : NamingAction N V → Option (ActorLocation N)
  | .system n a =>
      (((c.systems n).step a).bind fun l => (c.systems n).unregisters l a).map fun e => ⟨n, e.2⟩
  | .migration i .executeReply => c.migrations[i]?.map fun m => ⟨m.node, m.id⟩
  | _ => none

/-- The instance that a step gives a name, or binds a name to. -/
def names (c : Naming N V) : NamingAction N V → Option (String × ActorLocation N)
  | .system n a =>
      (((c.systems n).step a).bind (c.systems n).registers).map fun e => (e.1, ⟨n, e.2⟩)
  | .migration i a =>
      c.migrations[i]?.bind fun m =>
        match a, m.execute with
        | .executeArrives, .requested =>
            some (m.actorName, ⟨m.targetNodeId, (c.systems m.targetNodeId).node.nextId⟩)
        | .confirms, .initializing id => some (m.actorName, ⟨m.targetNodeId, id⟩)
        | _, _ => none
  | .migrate _ _ _ => none

/-- The instance has the name, or a migration of it is about to unregister the name. -/
def Carries (c : Naming N V) (location : ActorLocation N) (name : String) : Prop :=
  (c.systems location.nodeId).Carries location.actorId name ∨
    ∃ m ∈ c.migrations, m.waits ∧ m.node = location.nodeId ∧ m.id = location.actorId ∧
      m.actorName = name

/-- No other instance carries the name that an instance gets, or is bound to it. -/
def Apart (c : Naming N V) (a : NamingAction N V) : Prop :=
  ∀ name location, c.names a = some (name, location) → ∀ location',
    (c.Carries location' name ∨ c.registry.lookup name = some location') → location' = location

/-- A name that is no longer bound was bound to the instance that the step stops or has
migrated away. -/
def FreesOwn (c : Naming N V) (a : NamingAction N V) : Prop :=
  ∀ c', c.step a = some c' → ∀ name location, c.registry.lookup name = some location →
    c'.registry.lookup name = none → c.frees a = some location

end Naming

end Libeam.Migration
