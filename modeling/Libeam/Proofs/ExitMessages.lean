import Libeam.Proofs.WatchDelivery
/-!
# Exit messages because of links

Only `tellLinked` and the notifications from other nodes deliver an exit message that
names a link; whatever else the node does with watches and links, nobody gets one.
-/

namespace Libeam.Proofs.ExitMessages

open Libeam.System (ActorId)
open Supervision (ActorRef)
open Monitoring Lib.Loop WatchTables LinkTables

variable {N : Type} {actors : Finset ActorId} {callbacks : Callbacks N} {r r' : Relations N}
  {l : RefId}

/-- Who is sent an exit message because of this link. -/
def exitFor (l : RefId) : Event N → Option ActorId
  | .informed id (.exit (some linkRef) _ _) => if linkRef.id = l then some id else none
  | _ => none

def exitsFor (l : RefId) (events : List (Event N)) : List ActorId := events.filterMap (exitFor l)

theorem exitsFor_append (events events' : List (Event N)) :
    exitsFor l (events ++ events') = exitsFor l events ++ exitsFor l events' :=
  List.filterMap_append

/-- Nobody is sent an exit message because of the link. -/
def Silent (l : RefId) (r r' : Relations N) : Prop := exitsFor l r'.events = exitsFor l r.events

namespace Silent

theorem refl (r : Relations N) : Silent l r r := rfl

theorem trans {r'' : Relations N} (h : Silent l r r') (h' : Silent l r' r'') : Silent l r r'' :=
  Eq.trans h' h

theorem of_events (h : r'.events = r.events) : Silent l r r' := congrArg (exitsFor l) h

theorem of_append {event : Event N} (h : r'.events = r.events ++ [event])
    (hnone : exitFor l event = none) : Silent l r r' := by
  unfold Silent
  rw [h, exitsFor_append]
  simp [exitsFor, hnone]

end Silent

theorem silent_foldl {α : Type} {step : Relations N → α → Relations N}
    (hstep : ∀ r x, Silent l r (step r x)) (r : Relations N) (xs : List α) :
    Silent l r (xs.foldl step r) := by
  induction xs generalizing r with
  | nil => exact .refl r
  | cons x xs ih => exact (hstep r x).trans (ih _)

theorem silent_forEach {α : Type} {body : Relations N → α → Relations N × Bool}
    (hbody : ∀ r x, Silent l r (body r x).1) (r : Relations N) (xs : List α) :
    Silent l r (forEach body r xs).1 :=
  forEach_rel .refl (fun _ _ _ => .trans) hbody r xs

/-! ## Watches -/

theorem silent_unwatch (r : Relations N) (ref : WatchRef) : Silent l r (r.unwatch actors ref) :=
  .of_append (events_unwatch actors r ref) rfl

theorem silent_cancel (r : Relations N) (w : RefId) : Silent l r (r.cancel actors w) := by
  unfold Relations.cancel
  split
  · exact .refl r
  next ref _ =>
    have hmarked : Silent l r { r with cancelled := r.cancelled ++ [w] } := .of_events rfl
    exact hmarked.trans (silent_unwatch _ ref)

theorem silent_unwatchAll (r : Relations N) (id : ActorId) :
    Silent l r (r.unwatchAll actors id) :=
  silent_foldl (fun r ref => silent_unwatch r ref) r _

theorem exitsFor_inform (r : Relations N) (id : ActorId) (message : InfoMessage N) :
    exitsFor l (r.inform actors callbacks id message).1.events =
      exitsFor l r.events ++ exitsFor l [.informed id message] := by
  have hcancels : Silent l { r with events := r.events ++ [.informed id message] }
      (r.inform actors callbacks id message).1 := silent_foldl (fun r w => silent_cancel r w) _ _
  exact Eq.trans hcancels (exitsFor_append _ _)

theorem silent_inform (r : Relations N) (id : ActorId) {message : InfoMessage N}
    (hother : exitFor l (.informed id message) = none) :
    Silent l r (r.inform actors callbacks id message).1 := by
  unfold Silent
  rw [exitsFor_inform]
  simp [exitsFor, hother]

theorem silent_sendDownMessage (r : Relations N) (ref : WatchRef) (watchedRef : ActorRef N)
    (reason : TerminationReason) :
    Silent l r (r.sendDownMessage actors callbacks ref watchedRef reason).1 := by
  unfold Relations.sendDownMessage
  split_ifs
  · exact silent_inform r _ rfl
  · exact .refl r

theorem silent_sendMovedMessageToWatcher (r : Relations N) (ref : WatchRef) (move : Move N) :
    Silent l r (r.sendMovedMessageToWatcher actors callbacks ref move).1 := by
  unfold Relations.sendMovedMessageToWatcher
  split_ifs
  · exact silent_inform r _ rfl
  · exact .refl r

theorem silent_putWatch (r : Relations N) (ref : WatchRef) :
    Silent l r (r.putWatch actors ref) := by
  unfold Relations.putWatch
  dsimp only
  split_ifs
  · exact .of_events rfl
  · exact .refl r

theorem silent_dropWatch (r : Relations N) (id : ActorId) (w : RefId) :
    Silent l r (r.dropWatch actors id w) := by
  unfold Relations.dropWatch
  split_ifs
  · exact .of_events rfl
  · exact .refl r

theorem silent_watch [DecidableEq N] (r : Relations N) (nodeId : N)
    (watcherRef watchedRef : ActorRef N) :
    Silent l r (r.watch actors callbacks nodeId watcherRef watchedRef).1 := by
  have hlocal : Silent l r (r.establishWatch actors watcherRef watchedRef) := silent_putWatch _ _
  have hremote : Silent l r (r.setupRemoteWatch actors watcherRef watchedRef) :=
    silent_putWatch _ _
  unfold Relations.watch
  split_ifs
  · exact hremote
  · unfold Relations.watchLocal
    dsimp only
    split_ifs
    · exact hlocal
    · exact hlocal.trans (silent_sendDownMessage _ _ _ _)

theorem silent_notifyWatchers (r : Relations N) (actorRef : ActorRef N)
    (reason : TerminationReason) :
    Silent l r (r.notifyWatchers actors callbacks actorRef reason).1 := by
  refine silent_forEach (fun r w => ?_) r _
  unfold Relations.tellWatcher
  split
  · exact .refl r
  next entry _ =>
    have htold : Silent l r
        (r.sendDownMessage actors callbacks entry.watchRef actorRef reason).1 :=
      silent_sendDownMessage r _ _ _
    dsimp only
    split_ifs
    · exact htold
    · exact htold.trans (silent_unwatch _ _)

theorem silent_notifyWatchersOfMigration (r : Relations N) (id : ActorId) (move : Move N) :
    Silent l r (r.notifyWatchersOfMigration actors callbacks id move).1 := by
  refine silent_forEach (fun r w => ?_) r _
  unfold Relations.tellWatcherOfMigration
  split
  · exact .refl r
  next entry _ =>
    have htold : Silent l r
        (r.sendMovedMessageToWatcher actors callbacks entry.watchRef move).1 :=
      silent_sendMovedMessageToWatcher r _ _
    dsimp only
    split_ifs
    · exact htold
    · exact htold.trans (silent_unwatch _ _)

theorem silent_endRemoteWatch (r : Relations N) (entry : RemoteWatchEntry N)
    {message : InfoMessage N} (hother : ∀ id, exitFor l (.informed id message) = none) :
    Silent l r (r.endRemoteWatch actors callbacks entry message).1 := by
  have hremoved : Silent l r { r with remoteWatches := r.remoteWatches.filter fun e =>
      e.watchRef.id ≠ entry.watchRef.id } := .of_events rfl
  unfold Relations.endRemoteWatch
  dsimp only
  split_ifs
  · exact hremoved.trans ((silent_dropWatch _ _ _).trans (silent_inform _ _ (hother _)))
  · exact hremoved

theorem silent_handleRemoteDown (r : Relations N) (w : RefId) (watchedActorId : ActorId)
    (reason : TerminationReason) :
    Silent l r (r.handleRemoteDown actors callbacks w watchedActorId reason).1 := by
  unfold Relations.handleRemoteDown
  split
  · exact .refl r
  · exact silent_endRemoteWatch r _ fun _ => rfl

theorem silent_handleRemoteWatcherMoved (r : Relations N) (w : RefId) (move : Move N) :
    Silent l r (r.handleRemoteWatcherMoved actors callbacks w move).1 := by
  unfold Relations.handleRemoteWatcherMoved
  split
  · exact .refl r
  · exact silent_endRemoteWatch r _ fun _ => rfl

theorem silent_handleNodeFailureForWatches [DecidableEq N] (r : Relations N) (deadNodeId : N) :
    Silent l r (r.handleNodeFailureForWatches actors callbacks deadNodeId).1 :=
  silent_forEach (fun r _ => silent_endRemoteWatch r _ fun _ => rfl) r _

/-! ## Links -/

/-- An exit notification from another node is about another link. -/
theorem silent_handleRemoteLinkExit (r : Relations N) {linkRefId : RefId} (hne : linkRefId ≠ l)
    (exitedActorId : ActorId) (reason : TerminationReason) :
    Silent l r (r.handleRemoteLinkExit actors callbacks linkRefId exitedActorId
      reason).relations := by
  unfold Relations.handleRemoteLinkExit
  split
  · exact .refl r
  next entry _ =>
    have hdropped : Silent l r ((r.forgetRemoteLink linkRefId entry.localActorRef.id).dropLink
        actors entry.localActorRef.id linkRefId) :=
      .of_events (dropLink_tables _ _ _ _).2.2.2.2.2.2.2
    unfold Relations.exitLinked
    dsimp only
    split_ifs
    · exact hdropped.trans (silent_inform _ _ (if_neg hne))
    · exact hdropped
    · exact hdropped
    · exact hdropped

/-- The other actor of a link is told: it is sent an exit message, or it crashes, or neither. -/
theorem told_tellLinked (actors : Finset ActorId) (callbacks : Callbacks N) (l : RefId)
    (r : Relations N) {entry : LinkEntry N} {linkRefId : RefId}
    (hentry : r.links linkRefId = some entry) (actorRef : ActorRef N)
    (reason : TerminationReason) :
    let other := Relations.otherEnd entry actorRef.id
    let told := r.tellLinked actors callbacks actorRef reason linkRefId
    exitsFor l told.relations.events = exitsFor l r.events ++
        (if entry.linkRef.id = l ∧ other.id ∈ actors ∧
          (r.unlink actors entry.linkRef).trapExit other.id = true then [other.id] else []) ∧
      told.crash.map (fun crash => crash.1.id) =
        (if other.id ∈ actors ∧ (r.unlink actors entry.linkRef).trapExit other.id = false ∧
          reason.abnormal = true then some other.id else none) ∧
      (told.threw = true → told.crash = none) := by
  have hcut : Silent l r (r.unlink actors entry.linkRef) := .of_events (LinksOnly.unlink _ _).events
  have hevents : exitsFor l (r.unlink actors entry.linkRef).events = exitsFor l r.events := hcut
  unfold Relations.tellLinked
  rw [hentry]
  unfold Relations.exitLinked
  dsimp only
  by_cases hthere : (Relations.otherEnd entry actorRef.id).id ∈ actors
  · cases htrap : (r.unlink actors entry.linkRef).trapExit
        (Relations.otherEnd entry actorRef.id).id with
    | true =>
        rw [if_pos hthere, if_pos rfl]
        dsimp only
        rw [exitsFor_inform, hcut]
        refine ⟨?_, by simp, fun _ => rfl⟩
        by_cases hl : entry.linkRef.id = l <;> simp [exitsFor, exitFor, hl, hthere]
    | false =>
        rw [if_pos hthere, if_neg nofun]
        refine ⟨by simpa using hevents, ?_, nofun⟩
        cases reason.abnormal <;> simp [hthere]
  · rw [if_neg hthere]
    exact ⟨by simpa [hthere] using hevents, by simp [hthere], fun _ => rfl⟩

end Libeam.Proofs.ExitMessages
