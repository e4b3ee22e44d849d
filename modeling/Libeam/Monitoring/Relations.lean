import Mathlib.Data.Finset.Basic
import Libeam.Lib.SetMap
import Libeam.Lib.Loop
import Libeam.Supervision.Tree
/-!
# Watches and links

What a node records about watches and links: one table of the entries, one index
from an actor to the entries that concern it, and the maps in the contexts of the
actors.  Watches of actors on other nodes have a table of their own; links to such
actors share the index with the local ones.

Each function below runs without an `await`.  It takes the instances that are in
the `actors` table and what `handleInfo` does.  What is sent to other nodes, and
the tables of the watchers and linkers there, which only say what to send, are
left out: notifications from other nodes may arrive at any time.
-/

namespace Libeam.Monitoring

open Libeam.System (ActorId)
open Supervision (ActorRef)
open Lib (SetMap)
open Lib.Loop (forEach)

/-- The id of a `WatchRef` or of a `LinkRef`. -/
abbrev RefId := Nat

structure WatchRef where
  id : RefId
  watcherId : ActorId
  watchedId : ActorId
  deriving DecidableEq, Repr

structure LinkRef where
  id : RefId
  actor1Id : ActorId
  actor2Id : ActorId
  deriving DecidableEq, Repr

inductive TerminationReason where
  | normal
  | error (message : String)
  | killed
  deriving DecidableEq, Repr

def TerminationReason.type : TerminationReason → String
  | normal => "normal"
  | error _ => "error"
  | killed => "killed"

/-- Only these reasons stop the actors linked to one that has terminated. -/
def TerminationReason.abnormal : TerminationReason → Bool
  | normal => false
  | _ => true

/-- What is delivered by `handleInfo` because of a watch, of a link or of `sendExit`. -/
inductive InfoMessage (N : Type) where
  | down (watchRef : WatchRef) (actorRef : ActorRef N) (reason : TerminationReason)
  | exit (linkRef : Option LinkRef) (actorRef : ActorRef N) (reason : TerminationReason)
  | moved (watchRef : Option WatchRef) (linkRef : Option LinkRef) (actorRef : ActorRef N)
      (oldNodeId newNodeId : N) (newActorId : ActorId)
  deriving DecidableEq, Repr

/-- The watch that a DOWN or MOVED message is about. -/
def InfoMessage.watch {N : Type} : InfoMessage N → Option RefId
  | down watchRef _ _ => some watchRef.id
  | exit _ _ _ => none
  | moved watchRef _ _ _ _ _ => watchRef.map WatchRef.id

structure WatchEntry (N : Type) where
  watchRef : WatchRef
  watcherRef : ActorRef N
  watchedRef : ActorRef N
  deriving DecidableEq, Repr

structure RemoteWatchEntry (N : Type) where
  watchRef : WatchRef
  watcherRef : ActorRef N
  watchedNodeId : N
  watchedActorId : ActorId
  deriving DecidableEq, Repr

structure LinkEntry (N : Type) where
  linkRef : LinkRef
  actor1Ref : ActorRef N
  actor2Ref : ActorRef N
  deriving DecidableEq, Repr

structure RemoteLinkEntry (N : Type) where
  linkRef : LinkRef
  localActorRef : ActorRef N
  remoteNodeId : N
  remoteActorId : ActorId
  deriving DecidableEq, Repr

/-- An actor that has moved to another node. -/
structure Move (N : Type) where
  actorRef : ActorRef N
  oldNodeId : N
  newNodeId : N
  newActorId : ActorId
  deriving DecidableEq, Repr

inductive Event (N : Type) where
  /-- `handleInfo` of an actor is called. -/
  | informed (actorId : ActorId) (message : InfoMessage N)
  /-- `unwatch` returns. -/
  | unwatched (watchRefId : RefId)
  deriving DecidableEq, Repr

/-- What `handleInfo` of an actor does with a message before it returns. -/
structure Callbacks (N : Type) where
  /-- The watches that it cancels. -/
  cancels : ActorId → InfoMessage N → List RefId
  throws : ActorId → InfoMessage N → Bool

structure Relations (N : Type) where
  watches : RefId → Option (WatchEntry N)
  watchedBy : SetMap ActorId RefId
  /-- In the order in which the watches were set up. -/
  remoteWatches : List (RemoteWatchEntry N)
  links : RefId → Option (LinkEntry N)
  linkedWith : SetMap ActorId RefId
  remoteLinks : List (RemoteLinkEntry N)
  /-- `context.watches`, `context.links` and `context.trapExit` of the actors. -/
  contextWatches : ActorId → List WatchRef
  contextLinks : ActorId → List LinkRef
  trapExit : ActorId → Bool
  nextRef : RefId
  /-- History: the references that `watch` and `link` have made. -/
  watchRefs : RefId → Option WatchRef
  linkRefs : RefId → Option LinkRef
  /-- History: the watches of actors on other nodes, and the links between two actors
  of this node. -/
  remoteRefs : List RefId
  localLinks : List RefId
  /-- History: the watches that a caller has cancelled. -/
  cancelled : List RefId
  /-- History. -/
  events : List (Event N)

namespace Relations

variable {N : Type} [DecidableEq N]

def init : Relations N where
  watches := fun _ => none
  watchedBy := .empty
  remoteWatches := []
  links := fun _ => none
  linkedWith := .empty
  remoteLinks := []
  contextWatches := fun _ => []
  contextLinks := fun _ => []
  trapExit := fun _ => false
  nextRef := 0
  watchRefs := fun _ => none
  linkRefs := fun _ => none
  remoteRefs := []
  localLinks := []
  cancelled := []
  events := []

def getRemoteWatch (r : Relations N) (watchRefId : RefId) : Option (RemoteWatchEntry N) :=
  r.remoteWatches.find? fun e => e.watchRef.id = watchRefId

def getRemoteLink (r : Relations N) (linkRefId : RefId) : Option (RemoteLinkEntry N) :=
  r.remoteLinks.find? fun e => e.linkRef.id = linkRefId

/-- The context of a new actor. -/
def newContext (r : Relations N) (id : ActorId) : Relations N :=
  { r with
    contextWatches := Function.update r.contextWatches id []
    contextLinks := Function.update r.contextLinks id []
    trapExit := Function.update r.trapExit id false }

section
variable (actors : Finset ActorId)

/-! ## The maps in the contexts -/

def putWatch (r : Relations N) (watchRef : WatchRef) : Relations N :=
  let id := watchRef.watcherId
  if id ∈ actors then
    { r with
      contextWatches := Function.update r.contextWatches id (r.contextWatches id ++ [watchRef]) }
  else r

def dropWatch (r : Relations N) (watcherId : ActorId) (watchRefId : RefId) : Relations N :=
  if watcherId ∈ actors then
    { r with
      contextWatches := Function.update r.contextWatches watcherId
        ((r.contextWatches watcherId).filter fun w => w.id ≠ watchRefId) }
  else r

/-- The actors of a new link have been checked. -/
def putLink (r : Relations N) (id : ActorId) (linkRef : LinkRef) : Relations N :=
  { r with
    contextLinks := Function.update r.contextLinks id
      (if linkRef ∈ r.contextLinks id then r.contextLinks id
        else r.contextLinks id ++ [linkRef]) }

def dropLink (r : Relations N) (id : ActorId) (linkRefId : RefId) : Relations N :=
  if id ∈ actors then
    { r with
      contextLinks := Function.update r.contextLinks id
        ((r.contextLinks id).filter fun l => l.id ≠ linkRefId) }
  else r

/-! ## `unwatch` -/

/-- `_unwatchRemote` -/
def unwatchRemote (r : Relations N) (watchRef : WatchRef) (remoteEntry : RemoteWatchEntry N) :
    Relations N :=
  { r with
    remoteWatches := r.remoteWatches.filter fun e => e.watchRef.id ≠ watchRef.id }.dropWatch
    actors remoteEntry.watcherRef.id watchRef.id

def unwatchLocal (r : Relations N) (watchRef : WatchRef) : Relations N :=
  match r.watches watchRef.id with
  | none => r
  | some _ =>
      { r with
        watches := Function.update r.watches watchRef.id none
        watchedBy := r.watchedBy.remove watchRef.watchedId watchRef.id }.dropWatch
        actors watchRef.watcherId watchRef.id

def unwatch (r : Relations N) (watchRef : WatchRef) : Relations N :=
  let done := match r.getRemoteWatch watchRef.id with
    | some remoteEntry => r.unwatchRemote actors watchRef remoteEntry
    | none => r.unwatchLocal actors watchRef
  { done with events := done.events ++ [.unwatched watchRef.id] }

/-- `unwatch` is called with a reference that `watch` has made. -/
def cancel (r : Relations N) (watchRefId : RefId) : Relations N :=
  match r.watchRefs watchRefId with
  | none => r
  | some watchRef =>
      { r with cancelled := r.cancelled ++ [watchRefId] }.unwatch actors watchRef

/-- `stop` and `stopSingle` cancel the watches of the actor itself. -/
def unwatchAll (r : Relations N) (id : ActorId) : Relations N :=
  (r.contextWatches id).foldl (fun r watchRef => r.unwatch actors watchRef) r

/-! ## Messages -/

variable (callbacks : Callbacks N)

/-- `handleInfo` is called; a promise that it returns may reject without effect. -/
def inform (r : Relations N) (id : ActorId) (message : InfoMessage N) : Relations N × Bool :=
  let told := { r with events := r.events ++ [.informed id message] }
  ((callbacks.cancels id message).foldl (fun r watchRefId => r.cancel actors watchRefId) told,
    callbacks.throws id message)

def sendDownMessage (r : Relations N) (watchRef : WatchRef) (watchedRef : ActorRef N)
    (reason : TerminationReason) : Relations N × Bool :=
  if watchRef.watcherId ∈ actors then
    r.inform actors callbacks watchRef.watcherId (.down watchRef watchedRef reason)
  else (r, false)

/-- `_sendMovedMessageToWatcher` -/
def sendMovedMessageToWatcher (r : Relations N) (watchRef : WatchRef) (move : Move N) :
    Relations N × Bool :=
  if watchRef.watcherId ∈ actors then
    r.inform actors callbacks watchRef.watcherId
      (.moved (some watchRef) none move.actorRef move.oldNodeId move.newNodeId move.newActorId)
  else (r, false)

/-! ## `watch` -/

/-- The entry, the index and the watcher's context. -/
def establishWatch (r : Relations N) (watcherRef watchedRef : ActorRef N) : Relations N :=
  let watchRef : WatchRef := ⟨r.nextRef, watcherRef.id, watchedRef.id⟩
  { r with
    watches := Function.update r.watches r.nextRef (some ⟨watchRef, watcherRef, watchedRef⟩)
    watchedBy := r.watchedBy.add watchedRef.id r.nextRef
    nextRef := r.nextRef + 1
    watchRefs := Function.update r.watchRefs r.nextRef (some watchRef) }.putWatch actors watchRef

/-- An actor that is dead already is reported at once. -/
def watchLocal (r : Relations N) (watcherRef watchedRef : ActorRef N) : Relations N × Bool :=
  let established := r.establishWatch actors watcherRef watchedRef
  if watchedRef.id ∈ actors then (established, false)
  else established.sendDownMessage actors callbacks ⟨r.nextRef, watcherRef.id, watchedRef.id⟩
    watchedRef .normal

/-- `_setupRemoteWatch` -/
def setupRemoteWatch (r : Relations N) (watcherRef watchedRef : ActorRef N) : Relations N :=
  let watchRef : WatchRef := ⟨r.nextRef, watcherRef.id, watchedRef.id⟩
  let remoteEntry : RemoteWatchEntry N :=
    ⟨watchRef, watcherRef, watchedRef.systemId, watchedRef.id⟩
  { r with
    remoteWatches := r.remoteWatches ++ [remoteEntry]
    nextRef := r.nextRef + 1
    watchRefs := Function.update r.watchRefs r.nextRef (some watchRef)
    remoteRefs := r.remoteRefs ++ [r.nextRef] }.putWatch actors watchRef

def watch (r : Relations N) (nodeId : N) (watcherRef watchedRef : ActorRef N) :
    Relations N × Bool :=
  if watchedRef.systemId ≠ nodeId then (r.setupRemoteWatch actors watcherRef watchedRef, false)
  else r.watchLocal actors callbacks watcherRef watchedRef

/-! ## Watchers of an actor that is gone or has moved -/

/-- The entry is read again before its watcher is told. -/
def tellWatcher (actorRef : ActorRef N) (reason : TerminationReason) (r : Relations N)
    (watchRefId : RefId) : Relations N × Bool :=
  match r.watches watchRefId with
  | none => (r, false)
  | some entry =>
      let told := r.sendDownMessage actors callbacks entry.watchRef actorRef reason
      if told.2 then told else (told.1.unwatch actors entry.watchRef, false)

def notifyWatchers (r : Relations N) (actorRef : ActorRef N) (reason : TerminationReason) :
    Relations N × Bool :=
  forEach (tellWatcher actors callbacks actorRef reason) r (r.watchedBy.get actorRef.id)

def tellWatcherOfMigration (move : Move N) (r : Relations N) (watchRefId : RefId) :
    Relations N × Bool :=
  match r.watches watchRefId with
  | none => (r, false)
  | some entry =>
      let told := r.sendMovedMessageToWatcher actors callbacks entry.watchRef move
      if told.2 then told else (told.1.unwatch actors entry.watchRef, false)

def notifyWatchersOfMigration (r : Relations N) (actorId : ActorId) (move : Move N) :
    Relations N × Bool :=
  forEach (tellWatcherOfMigration actors callbacks move) r (r.watchedBy.get actorId)

/-! ## Watches of actors on other nodes -/

/-- The entry is removed from the table and from the watcher's context, and a watcher
that is there is told. -/
def endRemoteWatch (r : Relations N) (remoteEntry : RemoteWatchEntry N)
    (message : InfoMessage N) : Relations N × Bool :=
  let watcherId := remoteEntry.watcherRef.id
  let removed := { r with
    remoteWatches := r.remoteWatches.filter fun e =>
      e.watchRef.id ≠ remoteEntry.watchRef.id }
  if watcherId ∈ actors then
    (removed.dropWatch actors watcherId remoteEntry.watchRef.id).inform actors callbacks
      watcherId message
  else (removed, false)

/-- `_handleRemoteDown` -/
def handleRemoteDown (r : Relations N) (watchRefId : RefId) (watchedActorId : ActorId)
    (reason : TerminationReason) : Relations N × Bool :=
  match r.getRemoteWatch watchRefId with
  | none => (r, false)
  | some remoteEntry =>
      r.endRemoteWatch actors callbacks remoteEntry
        (.down remoteEntry.watchRef ⟨remoteEntry.watchedNodeId, watchedActorId, none, 1⟩ reason)

/-- `_handleRemoteWatcherMoved` -/
def handleRemoteWatcherMoved (r : Relations N) (watchRefId : RefId) (move : Move N) :
    Relations N × Bool :=
  match r.getRemoteWatch watchRefId with
  | none => (r, false)
  | some remoteEntry =>
      r.endRemoteWatch actors callbacks remoteEntry
        (.moved (some remoteEntry.watchRef) none move.actorRef move.oldNodeId move.newNodeId
          move.newActorId)

/-- The message about a watched actor whose node has failed. -/
def nodeFailureDown (remoteEntry : RemoteWatchEntry N) : InfoMessage N :=
  .down remoteEntry.watchRef ⟨remoteEntry.watchedNodeId, remoteEntry.watchedActorId, none, 1⟩
    .killed

/-- `_handleNodeFailureForWatches`: the entries are collected first and not looked up
again. -/
def handleNodeFailureForWatches (r : Relations N) (deadNodeId : N) : Relations N × Bool :=
  forEach (fun r remoteEntry =>
      r.endRemoteWatch actors callbacks remoteEntry (nodeFailureDown remoteEntry))
    r (r.remoteWatches.filter fun e => e.watchedNodeId = deadNodeId)

/-! ## `link` and `unlink` -/

def linkLocal (r : Relations N) (actor1Ref actor2Ref : ActorRef N) : Relations N :=
  let linkRef : LinkRef := ⟨r.nextRef, actor1Ref.id, actor2Ref.id⟩
  ({ r with
    links := Function.update r.links r.nextRef (some ⟨linkRef, actor1Ref, actor2Ref⟩)
    linkedWith := (r.linkedWith.add actor1Ref.id r.nextRef).add actor2Ref.id r.nextRef
    nextRef := r.nextRef + 1
    linkRefs := Function.update r.linkRefs r.nextRef (some linkRef)
    localLinks := r.localLinks ++ [r.nextRef] }.putLink actor1Ref.id linkRef).putLink
      actor2Ref.id linkRef

/-- `_setupRemoteLink` -/
def setupRemoteLink (r : Relations N) (localActorRef remoteActorRef : ActorRef N) :
    Relations N :=
  let linkRef : LinkRef := ⟨r.nextRef, localActorRef.id, remoteActorRef.id⟩
  let remoteEntry : RemoteLinkEntry N :=
    ⟨linkRef, localActorRef, remoteActorRef.systemId, remoteActorRef.id⟩
  { r with
    remoteLinks := r.remoteLinks ++ [remoteEntry]
    linkedWith := r.linkedWith.add localActorRef.id r.nextRef
    nextRef := r.nextRef + 1
    linkRefs := Function.update r.linkRefs r.nextRef (some linkRef) }.putLink
      localActorRef.id linkRef

/-- Throws without effect when one of the actors is not there. -/
def link (r : Relations N) (nodeId : N) (actor1Ref actor2Ref : ActorRef N) : Relations N :=
  if actor1Ref.systemId = nodeId ∧ actor1Ref.id ∈ actors then
    if actor2Ref.systemId ≠ nodeId then r.setupRemoteLink actor1Ref actor2Ref
    else if actor2Ref.id ∈ actors then r.linkLocal actor1Ref actor2Ref
    else r
  else r

/-- The record of a remote link and its place in the index. -/
def forgetRemoteLink (r : Relations N) (linkRefId : RefId) (localActorId : ActorId) :
    Relations N :=
  { r with
    remoteLinks := r.remoteLinks.filter fun e => e.linkRef.id ≠ linkRefId
    linkedWith := r.linkedWith.remove localActorId linkRefId }

/-- `_unlinkRemote` -/
def unlinkRemote (r : Relations N) (linkRef : LinkRef) (remoteEntry : RemoteLinkEntry N) :
    Relations N :=
  (r.forgetRemoteLink linkRef.id remoteEntry.localActorRef.id).dropLink actors
    remoteEntry.localActorRef.id linkRef.id

def unlinkLocal (r : Relations N) (linkRef : LinkRef) : Relations N :=
  match r.links linkRef.id with
  | none => r
  | some _ =>
      ({ r with
        links := Function.update r.links linkRef.id none
        linkedWith := (r.linkedWith.remove linkRef.actor1Id linkRef.id).remove
          linkRef.actor2Id linkRef.id }.dropLink actors linkRef.actor1Id linkRef.id).dropLink
        actors linkRef.actor2Id linkRef.id

def unlink (r : Relations N) (linkRef : LinkRef) : Relations N :=
  match r.getRemoteLink linkRef.id with
  | some remoteEntry => r.unlinkRemote actors linkRef remoteEntry
  | none => r.unlinkLocal actors linkRef

/-- `stopSingle` removes the links of the actor. -/
def unlinkAll (r : Relations N) (id : ActorId) : Relations N :=
  (r.contextLinks id).foldl (fun r linkRef => r.unlink actors linkRef) r

/-! ## Linked actors -/

/-- What telling a linked actor leads to. -/
structure Told (N : Type) where
  relations : Relations N
  threw : Bool
  /-- The actor that crashes and its error. -/
  crash : Option (ActorRef N × String)

/-- The actor at the other end of a link. -/
def otherEnd (entry : LinkEntry N) (actorId : ActorId) : ActorRef N :=
  if entry.actor1Ref.id = actorId then entry.actor2Ref else entry.actor1Ref

/-- A linked actor that is there is sent the exit message or else crashes. -/
def exitLinked (r : Relations N) (linkRef : LinkRef) (targetRef exitedRef : ActorRef N)
    (reason : TerminationReason) (message : String) : Told N :=
  if targetRef.id ∈ actors then
    if r.trapExit targetRef.id then
      let told := r.inform actors callbacks targetRef.id (.exit (some linkRef) exitedRef reason)
      ⟨told.1, told.2, none⟩
    else ⟨r, false, if reason.abnormal then some (targetRef, message) else none⟩
  else ⟨r, false, none⟩

/-- The link is removed before the actor at its other end is told. -/
def tellLinked (r : Relations N) (actorRef : ActorRef N) (reason : TerminationReason)
    (linkRefId : RefId) : Told N :=
  match r.links linkRefId with
  | some entry =>
      (r.unlink actors entry.linkRef).exitLinked actors callbacks entry.linkRef
        (otherEnd entry actorRef.id) actorRef reason
        ("Linked actor " ++ toString actorRef.id ++ " terminated: " ++ reason.type)
  | none =>
      match r.getRemoteLink linkRefId with
      | some remoteEntry =>
          ⟨r.forgetRemoteLink remoteEntry.linkRef.id actorRef.id, false, none⟩
      | none => ⟨r, false, none⟩

/-- The link is removed after the actor at its other end is told. -/
def tellLinkedOfMigration (r : Relations N) (actorId : ActorId) (move : Move N)
    (linkRefId : RefId) : Relations N × Bool :=
  match r.links linkRefId with
  | some entry =>
      let otherId := (otherEnd entry actorId).id
      let told :=
        if otherId ∈ actors then
          r.inform actors callbacks otherId
            (.moved none (some entry.linkRef) move.actorRef move.oldNodeId move.newNodeId
              move.newActorId)
        else (r, false)
      if told.2 then told else (told.1.unlink actors entry.linkRef, false)
  | none =>
      match r.getRemoteLink linkRefId with
      | some remoteEntry => (r.forgetRemoteLink remoteEntry.linkRef.id actorId, false)
      | none => (r, false)

def notifyLinkedActorsOfMigration (r : Relations N) (actorId : ActorId) (move : Move N) :
    Relations N × Bool :=
  forEach (fun r linkRefId => r.tellLinkedOfMigration actors callbacks actorId move linkRefId)
    r (r.linkedWith.get actorId)

/-- `_handleRemoteLinkExit` -/
def handleRemoteLinkExit (r : Relations N) (linkRefId : RefId) (exitedActorId : ActorId)
    (reason : TerminationReason) : Told N :=
  match r.getRemoteLink linkRefId with
  | none => ⟨r, false, none⟩
  | some remoteEntry =>
      let localActorId := remoteEntry.localActorRef.id
      ((r.forgetRemoteLink linkRefId localActorId).dropLink actors localActorId
        linkRefId).exitLinked actors callbacks ⟨linkRefId, localActorId, exitedActorId⟩
        remoteEntry.localActorRef ⟨remoteEntry.remoteNodeId, exitedActorId, none, 1⟩ reason
        ("Linked remote actor " ++ toString exitedActorId ++ " terminated: " ++ reason.type)

/-- `_handleRemoteLinkMoved` -/
def handleRemoteLinkMoved (r : Relations N) (linkRefId : RefId) (move : Move N) :
    Relations N × Bool :=
  match r.getRemoteLink linkRefId with
  | none => (r, false)
  | some remoteEntry =>
      let localActorId := remoteEntry.localActorRef.id
      let removed := r.forgetRemoteLink linkRefId localActorId
      if localActorId ∈ actors then
        (removed.dropLink actors localActorId linkRefId).inform actors callbacks localActorId
          (.moved none (some ⟨linkRefId, localActorId, move.newActorId⟩) move.actorRef
            move.oldNodeId move.newNodeId move.newActorId)
      else (removed, false)

end

end Relations

end Libeam.Monitoring
