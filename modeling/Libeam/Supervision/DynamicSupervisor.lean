import Libeam.Supervision.Supervise
/-!
# Dynamic supervisors

A `DynamicSupervisorActor` starts children on demand, up to a limit on the size of its
`context.children`.  `DynamicSupervisor` is a node with one such actor; nothing but its
`start_child` and the restarts of its children spawn under it.
-/

namespace Libeam.Supervision


structure DynamicSupervisorOptions where
  /-- `none` is `Infinity`. -/
  maxChildren : Option Nat := none
  maxRestarts : Nat := 3
  periodMs : Nat := 5000
  deriving DecidableEq, Repr

def DynamicSupervisorOptions.childSupervision (options : DynamicSupervisorOptions) :
    ChildSupervisionOptions :=
  ⟨.oneForOne, options.maxRestarts, options.periodMs⟩

structure DynamicSupervisor (N V : Type) where
  tree : Tree N V
  self : ActorRef N
  options : DynamicSupervisorOptions

inductive DynamicSupervisorAction (N V : Type) where
  | startChild (actorClass : String) (options : SpawnOptions V)
  | terminateChild (ref : ActorRef N)
  /-- Anything else that happens on the node. -/
  | tree (a : TreeAction N V)
  deriving DecidableEq, Repr

namespace DynamicSupervisor

variable {N V : Type} [DecidableEq N]

/-- The actor is spawned on a node. -/
def start (t : Tree N V) (options : DynamicSupervisorOptions) : DynamicSupervisor N V where
  tree := { t with
    toTables := t.toTables.spawn "DynamicSupervisorActor" {} none
    childSupervision := Function.update t.childSupervision t.nextId options.childSupervision }
  self := ⟨t.id, t.nextId, none, 0⟩
  options := options

def children (s : DynamicSupervisor N V) : List (ActorRef N) :=
  (s.tree.context s.self.id).children

/-- `this.context.children.size >= this.maxChildren` -/
def isFull (s : DynamicSupervisor N V) : Bool :=
  s.options.maxChildren.any fun maxChildren => maxChildren ≤ s.children.length

/-- The action spawns under the supervisor, or will. -/
def spawnsUnder (s : DynamicSupervisor N V) : TreeAction N V → Bool
  | .spawnChild parentRef _ _ | .spawnChildRemote parentRef _ _ _ => parentRef.id = s.self.id
  | _ => false

section
variable (stringify : List V → String)

def stepTree (s : DynamicSupervisor N V) (a : TreeAction N V) : Option (DynamicSupervisor N V) :=
  (s.tree.step stringify a).map fun tree => { s with tree }

/-- `handleStartChild`; the error leaves everything as it is. -/
def handleStartChild (s : DynamicSupervisor N V) (actorClass : String)
    (options : SpawnOptions V) : Option (DynamicSupervisor N V) :=
  if s.isFull then some s else s.stepTree stringify (.spawnChild s.self actorClass options)

/-- `handleTerminateChild` up to the call of `stop`. -/
def handleTerminateChild (s : DynamicSupervisor N V) (ref : ActorRef N) :
    Option (DynamicSupervisor N V) :=
  match s.children.find? fun c => c.id = ref.id with
  | none => some s
  | some found => s.stepTree stringify (.stop found)

def step (s : DynamicSupervisor N V) : DynamicSupervisorAction N V → Option (DynamicSupervisor N V)
  | .startChild actorClass options => s.handleStartChild stringify actorClass options
  | .terminateChild ref => s.handleTerminateChild stringify ref
  | .tree a => if s.spawnsUnder a then none else s.stepTree stringify a

end

end DynamicSupervisor

end Libeam.Supervision
