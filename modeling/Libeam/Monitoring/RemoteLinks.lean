import Libeam.Monitoring.Relations
/-!
# Links between actors of different nodes

The node of the linker has the link in `remoteLinks`, the node of the linked actor has it
in `remoteLinkers`.  Every message arrives exactly once, and those from one node to
another arrive in order, the answer to a `link:add` request among them.  Links between
two actors of one node are left out; that an actor ends because of one of them may happen
at any time, as for any other cause.
-/

namespace Libeam.Monitoring

open Libeam.System (ActorId)
open Supervision (ActorRef)

structure RemoteLinkerInfo (N : Type) where
  linkRefId : RefId
  linkerNodeId : N
  linkerActorId : ActorId
  trapExit : Bool
  deriving DecidableEq, Repr

inductive LinkMessage (N : Type) where
  /-- `link:add` -/
  | add (linkRefId : RefId) (linkerNodeId : N) (linkerActorId linkedActorId : ActorId)
      (trapExit : Bool)
  /-- The answer to it. -/
  | added (linkRefId : RefId) (linkedActorId : ActorId) (alreadyDead : Bool)
  /-- `link:remove` -/
  | remove (linkRefId : RefId) (linkedActorId : ActorId)
  /-- `link:exit` -/
  | exit (linkRefId : RefId) (exitedActorId : ActorId) (reason : TerminationReason)
  deriving DecidableEq, Repr

structure LinkNode (N : Type) extends Relations N where
  actors : Finset ActorId
  nextId : ActorId
  remoteLinkers : ActorId → List (RemoteLinkerInfo N)
  /-- History: whether an actor that has begun to end began abnormally. -/
  ended : ActorId → Option Bool
  /-- History: the remote links because of which an actor has crashed. -/
  crashes : List RefId

/-- What a node sends, and to whom. -/
abbrev Outgoing (N : Type) := List (N × LinkMessage N)

namespace LinkNode

variable {N : Type} [DecidableEq N]

def new : LinkNode N where
  toRelations := .init
  actors := ∅
  nextId := 0
  remoteLinkers := fun _ => []
  ended := fun _ => none
  crashes := []

def spawn (v : LinkNode N) : LinkNode N :=
  { v with
    toRelations := v.toRelations.newContext v.nextId
    actors := insert v.nextId v.actors
    nextId := v.nextId + 1 }

/-- The request goes to the node of the other actor. -/
def setupRemoteLink (v : LinkNode N) (localActorRef remoteActorRef : ActorRef N) :
    LinkNode N × Outgoing N :=
  ({ v with toRelations := v.toRelations.setupRemoteLink localActorRef remoteActorRef },
    [(remoteActorRef.systemId,
      .add v.nextRef localActorRef.systemId localActorRef.id remoteActorRef.id
        (v.trapExit localActorRef.id))])

def unlink (v : LinkNode N) (linkRef : LinkRef) : LinkNode N × Outgoing N :=
  ({ v with toRelations := v.toRelations.unlink v.actors linkRef },
    match v.getRemoteLink linkRef.id with
    | none => []
    | some remoteEntry =>
        [(remoteEntry.remoteNodeId, .remove linkRef.id remoteEntry.remoteActorId)])

/-! ## The end of an actor -/

/-- The first beginning counts. -/
def ends (v : LinkNode N) (id : ActorId) (abnormal : Bool) : LinkNode N :=
  { v with ended := Function.update v.ended id ((v.ended id).or (some abnormal)) }

section
variable (callbacks : Callbacks N)

/-- `_notifyLocalLinkedActors` for one link. -/
def tellLinked (actorRef : ActorRef N) (reason : TerminationReason)
    (told : LinkNode N × Outgoing N) (linkRefId : RefId) : LinkNode N × Outgoing N :=
  let v := told.1
  ({ v with
      toRelations :=
        (v.toRelations.tellLinked v.actors callbacks actorRef reason linkRefId).relations },
    told.2 ++ match v.links linkRefId, v.getRemoteLink linkRefId with
      | none, some remoteEntry =>
          [(remoteEntry.remoteNodeId, .exit remoteEntry.linkRef.id actorRef.id reason)]
      | _, _ => [])

/-- `_notifyRemoteLinkers` -/
def notifyRemoteLinkers (v : LinkNode N) (actorId : ActorId) (reason : TerminationReason) :
    LinkNode N × Outgoing N :=
  ({ v with remoteLinkers := Function.update v.remoteLinkers actorId [] },
    (v.remoteLinkers actorId).map fun info =>
      (info.linkerNodeId, .exit info.linkRefId actorId reason))

def notifyLinkedActors (v : LinkNode N) (actorRef : ActorRef N) (reason : TerminationReason) :
    LinkNode N × Outgoing N :=
  let here := (v.linkedWith.get actorRef.id).foldl (tellLinked callbacks actorRef reason) (v, [])
  let there := here.1.notifyRemoteLinkers actorRef.id reason
  (there.1.ends actorRef.id reason.abnormal, here.2 ++ there.2)

end

/-- `stopSingle` of an actor that has crashed and is restarted removes its links. -/
def stopSingle (v : LinkNode N) (id : ActorId) : LinkNode N × Outgoing N :=
  let unlinked := (v.contextLinks id).foldl (fun done linkRef =>
    let next := done.1.unlink linkRef
    (next.1, done.2 ++ next.2)) (v, [])
  (unlinked.1.ends id true, unlinked.2)

/-! ## Messages -/

section
variable (callbacks : Callbacks N)

/-- `_handleRemoteLinkExit` -/
def handleRemoteLinkExit (v : LinkNode N) (linkRefId : RefId) (exitedActorId : ActorId)
    (reason : TerminationReason) : LinkNode N :=
  let told := v.toRelations.handleRemoteLinkExit v.actors callbacks linkRefId exitedActorId reason
  { v with
    toRelations := told.relations
    crashes := v.crashes ++ told.crash.toList.map fun _ => linkRefId }

/-- The node after a message, and what goes back to the sender. -/
def receive (v : LinkNode N) : LinkMessage N → LinkNode N × List (LinkMessage N)
  | .add linkRefId linkerNodeId linkerActorId linkedActorId trapExit =>
      if linkedActorId ∈ v.actors then
        ({ v with
            remoteLinkers := Function.update v.remoteLinkers linkedActorId
              (v.remoteLinkers linkedActorId ++
                [⟨linkRefId, linkerNodeId, linkerActorId, trapExit⟩]) },
          [.added linkRefId linkedActorId false])
      else (v, [.added linkRefId linkedActorId true])
  | .added linkRefId linkedActorId alreadyDead =>
      (if alreadyDead then v.handleRemoteLinkExit callbacks linkRefId linkedActorId .normal else v,
        [])
  | .remove linkRefId linkedActorId =>
      ({ v with
          remoteLinkers := Function.update v.remoteLinkers linkedActorId
            ((v.remoteLinkers linkedActorId).eraseP fun info => info.linkRefId = linkRefId) },
        [])
  | .exit linkRefId exitedActorId reason =>
      (v.handleRemoteLinkExit callbacks linkRefId exitedActorId reason, [])

end

end LinkNode

/-! ## The nodes and what is between them -/

structure LinkNetwork (N : Type) where
  node : N → LinkNode N
  channel : N → N → List (LinkMessage N)
  /-- The ids of links are different on all nodes. -/
  nextRef : RefId
  /-- History: the links that have been made, and those that a caller has removed. -/
  made : List (RemoteLinkEntry N)
  unlinked : List RefId

inductive LinkAction (N : Type) where
  | spawn (n : N)
  | setTrapExit (n : N) (actorId : ActorId) (trap : Bool)
  | link (n : N) (localActorRef remoteActorRef : ActorRef N)
  | unlink (n : N) (linkRefId : RefId)
  | notifyLinkedActors (n : N) (actorRef : ActorRef N) (reason : TerminationReason)
  | stopSingle (n : N) (actorId : ActorId)
  | remove (n : N) (actorId : ActorId)
  /-- The next message from one node to another one arrives. -/
  | deliver (sender receiver : N)
  deriving DecidableEq, Repr

namespace LinkNetwork

variable {N : Type} [DecidableEq N]

def init : LinkNetwork N where
  node := fun _ => .new
  channel := fun _ _ => []
  nextRef := 0
  made := []
  unlinked := []

/-- A node comes to be in this state and sends these messages. -/
def put (net : LinkNetwork N) (n : N) (result : LinkNode N × Outgoing N) : LinkNetwork N :=
  { net with
    node := Function.update net.node n result.1
    channel := fun sender receiver =>
      if sender = n then
        net.channel sender receiver ++
          (result.2.filter fun message => message.1 = receiver).map Prod.snd
      else net.channel sender receiver }

/-- An actor is removed after it has begun to end; references name instances that have been
spawned. -/
def step (callbacks : Callbacks N) (net : LinkNetwork N) :
    LinkAction N → Option (LinkNetwork N)
  | .spawn n => some (net.put n ((net.node n).spawn, []))
  | .setTrapExit n actorId trap =>
      let v := net.node n
      some (net.put n ({ v with trapExit := Function.update v.trapExit actorId trap }, []))
  | .link n localActorRef remoteActorRef =>
      let v := { net.node n with nextRef := net.nextRef }
      let remoteNodeId := remoteActorRef.systemId
      if localActorRef.systemId = n ∧ localActorRef.id ∈ v.actors ∧ remoteNodeId ≠ n ∧
          remoteActorRef.id < (net.node remoteNodeId).nextId then
        some { net.put n (v.setupRemoteLink localActorRef remoteActorRef) with
          nextRef := net.nextRef + 1
          made := net.made ++
            [⟨⟨net.nextRef, localActorRef.id, remoteActorRef.id⟩, localActorRef, remoteNodeId,
              remoteActorRef.id⟩] }
      else none
  | .unlink n linkRefId =>
      ((net.node n).linkRefs linkRefId).map fun linkRef =>
        { net.put n ((net.node n).unlink linkRef) with
          unlinked := net.unlinked ++ [linkRefId] }
  | .notifyLinkedActors n actorRef reason =>
      if actorRef.id ∈ (net.node n).actors then
        some (net.put n ((net.node n).notifyLinkedActors callbacks actorRef reason))
      else none
  | .stopSingle n actorId =>
      if actorId ∈ (net.node n).actors then
        some (net.put n ((net.node n).stopSingle actorId))
      else none
  | .remove n actorId =>
      let v := net.node n
      if v.ended actorId ≠ none then
        some (net.put n ({ v with actors := v.actors.erase actorId }, []))
      else none
  | .deliver sender receiver =>
      match net.channel sender receiver with
      | [] => none
      | message :: rest =>
          let taken := { net with
            channel := Function.update net.channel sender
              (Function.update (net.channel sender) receiver rest) }
          let result := (net.node receiver).receive callbacks message
          some (taken.put receiver (result.1, result.2.map fun reply => (sender, reply)))

end LinkNetwork

end Libeam.Monitoring
