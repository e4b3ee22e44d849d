import Mathlib.Data.Finset.Basic
import Mathlib.Logic.Function.Basic
import Libeam.Supervision.ChildSupervisor
/-!
# Parents and children

What a node records about parents and children is spread over four tables: the
set `context.children` and the list `context.childOrder` of a parent, the `parent`
of a child's metadata, and `remoteChildren` for children on other nodes.  The
operations below are the pieces of the source that run without an `await` and
write these tables; everything about messages is left out.
-/

namespace Libeam.Supervision

open Libeam.System (ActorId)

/-- An `ActorRef` object.  Several objects may name one actor: number 0 is the one
made together with the actor. -/
structure ActorRef (N : Type) where
  systemId : N
  id : ActorId
  name : Option String
  object : Nat
  deriving DecidableEq, Repr

structure ActorContext (N : Type) where
  /-- A `Set` of objects, in the order they were added. -/
  children : List (ActorRef N)
  childOrder : List (ActorRef N)
  deriving DecidableEq, Repr

structure ActorMetadata (N V : Type) where
  actorClass : String
  options : SpawnOptions V
  parent : Option (ActorRef N)
  deriving DecidableEq, Repr

structure RemoteChildEntry (N V : Type) where
  childRef : ActorRef N
  childNodeId : N
  parentRef : ActorRef N
  actorClass : String
  options : SpawnOptions V
  deriving DecidableEq, Repr

/-- The tables of parents and children. -/
structure Tables (N V : Type) where
  id : N
  actors : Finset ActorId
  /-- `actor.self` and `actor.context`, also of actors that are gone. -/
  self : ActorId → ActorRef N
  context : ActorId → ActorContext N
  actorMetadata : ActorId → Option (ActorMetadata N V)
  remoteChildren : List (RemoteChildEntry N V)
  nextId : ActorId
  /-- History: the metadata an instance was spawned with. -/
  spawned : ActorId → Option (ActorMetadata N V)
  /-- History: the first instance of the lineage an instance belongs to. -/
  lineage : ActorId → ActorId
  /-- History: instances that a stop has taken off the lists of their parent. -/
  detached : Finset ActorId

namespace Tables

variable {N V : Type} [DecidableEq N]

def init (id : N) : Tables N V where
  id := id
  actors := ∅
  self := fun instanceId => ⟨id, instanceId, none, 0⟩
  context := fun _ => ⟨[], []⟩
  actorMetadata := fun _ => none
  remoteChildren := []
  nextId := 0
  spawned := fun _ => none
  lineage := fun instanceId => instanceId
  detached := ∅

/-! ## The lists of a parent -/

/-- The object of a new child joins the set and the list. -/
def listChild (t : Tables N V) (parentId : ActorId) (childRef : ActorRef N) : Tables N V :=
  { t with
    context := Function.update t.context parentId
      ⟨(t.context parentId).children ++ [childRef], (t.context parentId).childOrder ++ [childRef]⟩ }

/-- `children.delete(childRef)` goes by the object, `childOrder` by the id. -/
def unlistChild (t : Tables N V) (parentId : ActorId) (childRef : ActorRef N) : Tables N V :=
  { t with
    context := Function.update t.context parentId
      ⟨(t.context parentId).children.erase childRef,
        (t.context parentId).childOrder.eraseP fun ref => ref.id = childRef.id⟩ }

/-- `splice` out the first reference with the id and put the new one in its place. -/
def replaceInOrder (order : List (ActorRef N)) (oldId : ActorId) (newRef : ActorRef N) :
    List (ActorRef N) :=
  match order.findIdx? fun ref => ref.id = oldId with
  | some oldIndex => (order.eraseIdx oldIndex).insertIdx oldIndex newRef
  | none => order ++ [newRef]

/-! ## Actors -/

/-- The parent recorded in the metadata. -/
def parentOf (t : Tables N V) (id : ActorId) : Option (ActorRef N) :=
  (t.actorMetadata id).bind ActorMetadata.parent

/-- A new instance in the tables; `first` is the lineage it continues. -/
def register (t : Tables N V) (metadata : ActorMetadata N V) (first : Option ActorId) :
    Tables N V :=
  { t with
    actors := insert t.nextId t.actors
    self := Function.update t.self t.nextId ⟨t.id, t.nextId, metadata.options.name, 0⟩
    context := Function.update t.context t.nextId ⟨[], []⟩
    actorMetadata := Function.update t.actorMetadata t.nextId (some metadata)
    nextId := t.nextId + 1
    spawned := Function.update t.spawned t.nextId (some metadata)
    lineage := Function.update t.lineage t.nextId (first.getD t.nextId) }

def spawn (t : Tables N V) (actorClass : String) (options : SpawnOptions V)
    (first : Option ActorId) : Tables N V :=
  t.register ⟨actorClass, options, none⟩ first

/-- Throws without effect when the parent is gone. -/
def spawnChild (t : Tables N V) (parentRef : ActorRef N) (actorClass : String)
    (options : SpawnOptions V) (first : Option ActorId) : Tables N V :=
  if parentRef.id ∈ t.actors then
    (t.register ⟨actorClass, options, some parentRef⟩ first).listChild parentRef.id
      ⟨t.id, t.nextId, options.name, 0⟩
  else t

/-- Take the actor off the lists of its parent. -/
def detach (t : Tables N V) (actorRef : ActorRef N) : Tables N V :=
  let left := { t with detached := insert actorRef.id t.detached }
  match t.parentOf actorRef.id with
  | none => left
  | some parentRef =>
      if parentRef.id ∈ t.actors then left.unlistChild parentRef.id actorRef else left

/-- The deletions at the end of `stop`, `stopSingle` and `migrate`. -/
def remove (t : Tables N V) (id : ActorId) : Tables N V :=
  { t with
    actors := t.actors.erase id
    actorMetadata := Function.update t.actorMetadata id none }

/-! ## Children on other nodes -/

def getRemoteChild (t : Tables N V) (childInstanceId : ActorId) :
    Option (RemoteChildEntry N V) :=
  t.remoteChildren.find? fun e => e.childRef.id = childInstanceId

def forgetRemote (t : Tables N V) (childInstanceId : ActorId) : Tables N V :=
  { t with
    remoteChildren := t.remoteChildren.filter fun e => e.childRef.id ≠ childInstanceId }

/-- The end of a successful `spawnChildRemote`. -/
def addRemoteChild (t : Tables N V) (parentRef : ActorRef N) (actorClass : String)
    (targetNodeId : N) (options : SpawnOptions V) : Tables N V :=
  let childRef : ActorRef N := ⟨targetNodeId, t.nextId, options.name, 0⟩
  let remoteChild : RemoteChildEntry N V :=
    ⟨childRef, targetNodeId, parentRef, actorClass, options⟩
  let tracked := { t with
    nextId := t.nextId + 1
    remoteChildren := t.remoteChildren ++ [remoteChild] }
  tracked.listChild parentRef.id childRef

/-- The end of a successful `restartRemoteChild`. -/
def replaceRemoteChild (t : Tables N V) (remoteChild : RemoteChildEntry N V) : Tables N V :=
  let newChildRef : ActorRef N :=
    ⟨remoteChild.childNodeId, t.nextId, remoteChild.options.name, 0⟩
  let parentId := remoteChild.parentRef.id
  let tracked := { t.forgetRemote remoteChild.childRef.id with
    nextId := t.nextId + 1
    remoteChildren := (t.forgetRemote remoteChild.childRef.id).remoteChildren ++
      [{ remoteChild with childRef := newChildRef }] }
  if parentId ∈ t.actors then
    { tracked with
      context := Function.update t.context parentId
        ⟨(t.context parentId).children.erase remoteChild.childRef ++ [newChildRef],
          replaceInOrder (t.context parentId).childOrder remoteChild.childRef.id newChildRef⟩ }
  else tracked

/-- Forget a remote child and take it off the lists of a parent. -/
def dropRemoteChild (t : Tables N V) (childRef parentRef : ActorRef N) : Tables N V :=
  if parentRef.id ∈ t.actors then (t.forgetRemote childRef.id).unlistChild parentRef.id childRef
  else t.forgetRemote childRef.id

def removeRemoteChild (t : Tables N V) (childInstanceId : ActorId) (parentRef : ActorRef N) :
    Tables N V :=
  match t.getRemoteChild childInstanceId with
  | none => t
  | some remoteChild => t.dropRemoteChild remoteChild.childRef parentRef

end Tables

end Libeam.Supervision
