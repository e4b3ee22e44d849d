import Libeam.Proofs.HostSteps
/-!
# Which instances are there and paused

The effect of every action on the instances of a node and on the set of paused
mailboxes.
-/

namespace Libeam.Proofs.Census

open Libeam.System Mailbox Libeam.System.Node Migration Registry Proofs.Frame

variable {V : Type}

structure Presence where
  actors : Finset ActorId
  pausedMailboxes : Finset ActorId
  nextId : ActorId

def presence (s : Node V) : Presence :=
  ⟨s.actors, s.pausedMailboxes, s.nextId⟩

namespace Presence

def pause (P : Presence) (id : ActorId) : Presence :=
  if id ∈ P.actors then { P with pausedMailboxes := insert id P.pausedMailboxes } else P

def resume (P : Presence) (id : ActorId) : Presence :=
  if id ∈ P.actors then { P with pausedMailboxes := P.pausedMailboxes.erase id } else P

def add (P : Presence) : Presence :=
  { P with actors := insert P.nextId P.actors, nextId := P.nextId + 1 }

def drop (P : Presence) (id : ActorId) : Presence :=
  { P with actors := P.actors.erase id }

/-- The effect of an action. -/
def apply (P : Presence) : Action V → Presence
  | .pauseMailbox id => P.pause id
  | .resumeMailbox id => P.resume id
  | .spawn _ _ => P.add
  | .remove id => P.drop id
  | _ => P

end Presence

/-! ## The functions of the node -/

@[simp] theorem presence_scheduleProcessMailbox (s : Node V) (id : ActorId) :
    presence (s.scheduleProcessMailbox id) = presence s := by
  unfold scheduleProcessMailbox
  split_ifs <;> rfl

@[simp] theorem presence_rejectEvicted (s : Node V) (oldest : Option (StashedMessage V)) :
    presence (s.rejectEvicted oldest) = presence s := by
  unfold rejectEvicted
  split
  · split_ifs <;> rfl
  · rfl

@[simp] theorem presence_processEnd (s : Node V) (id : ActorId) :
    presence (s.processEnd id) = presence s := by
  unfold processEnd
  dsimp only
  split_ifs <;> rfl

@[simp] theorem presence_processLoop (s : Node V) (id : ActorId) (processed : Nat) :
    presence (s.processLoop id processed) = presence s := by
  unfold processLoop
  dsimp only
  split_ifs
  · split <;> rfl
  · exact presence_processEnd s id

@[simp] theorem presence_processMailbox (s : Node V) (id : ActorId) :
    presence (s.processMailbox id) = presence s := by
  unfold processMailbox
  split_ifs
  · rfl
  · rfl
  · exact presence_processLoop _ id 0

@[simp] theorem presence_syncLocalCallFinally (s : Node V) (id : ActorId)
    (prevMessage : Option (StashedMessage V)) :
    presence (s.syncLocalCallFinally id prevMessage) = presence s := by
  unfold syncLocalCallFinally
  dsimp only
  split_ifs <;> rfl

@[simp] theorem presence_injectMessages (s : Node V) (id : ActorId)
    (messages : List (Option (StashedMessage V))) :
    presence (s.injectMessages id messages) = presence s := by
  unfold injectMessages
  split_ifs
  · exact presence_scheduleProcessMailbox _ id
  · rfl

@[simp] theorem presence_systemUnstashAll (s : Node V) (id : ActorId)
    (messages : List (StashedMessage V)) :
    presence (s.systemUnstashAll id messages) = presence s := by
  unfold systemUnstashAll
  split_ifs
  · exact presence_scheduleProcessMailbox _ id
  · rfl

@[simp] theorem presence_clearStash (s : Node V) (id : ActorId) :
    presence (s.clearStash id) = presence s := by
  obtain ⟨more, heq⟩ := clearStash_eq s id
  rw [heq]
  rfl

@[simp] theorem presence_pauseMailbox (s : Node V) (id : ActorId) :
    presence (s.pauseMailbox id) = (presence s).pause id := by
  unfold pauseMailbox Presence.pause
  split_ifs <;> first | rfl | contradiction

@[simp] theorem presence_resumeMailbox (s : Node V) (id : ActorId) :
    presence (s.resumeMailbox id) = (presence s).resume id := by
  unfold resumeMailbox Presence.resume
  by_cases hid : id ∈ s.actors
  · rw [if_pos hid, if_pos (show id ∈ (presence s).actors from hid)]
    split_ifs with hpaused
    · exact presence_scheduleProcessMailbox _ id
    · rw [show (presence s).pausedMailboxes.erase id = (presence s).pausedMailboxes from
        Finset.erase_eq_of_notMem hpaused]
  · rw [if_neg hid, if_neg (show id ∉ (presence s).actors from hid)]

@[simp] theorem presence_spawn (s : Node V) (config : MailboxConfig) (initThrows : Bool) :
    presence (s.spawn config initThrows) = (presence s).add := by
  unfold Node.spawn
  split_ifs
  · rfl
  · exact presence_scheduleProcessMailbox _ _

theorem presence_queues {s t : Node V} {id : ActorId} {msg : StashedMessage V}
    {awaited : Finset Nat} (h : Queues s (queue s id msg awaited) id msg t) :
    presence t = presence s := by
  cases h with
  | unsent => rfl
  | accepted | refused => exact presence_scheduleProcessMailbox _ id
  | evicted =>
      exact (presence_scheduleProcessMailbox _ id).trans (presence_rejectEvicted _ _)
  | full => rfl
  | rejected => rfl

@[simp] theorem presence_dispatchCast (s : Node V) (id : ActorId) (message : V) :
    presence (s.dispatchCast id message) = presence s :=
  presence_queues (dispatchCast_queues s id message)

@[simp] theorem presence_dispatchCall (s : Node V) (id : ActorId) (message : V) :
    presence (s.dispatchCall id message) = presence s := by
  unfold dispatchCall
  split_ifs
  · rfl
  · exact presence_queues (enqueueCall_queues s id message)
  · rfl

@[simp] theorem presence_afterReturn (s : Node V) (id : ActorId) (msg : StashedMessage V)
    (value : V) (task : System.Task V) : presence
    (s.afterReturn id msg value task) = presence s := by
  cases task with
  | processMailbox processed =>
      unfold afterReturn
      dsimp only
      split_ifs <;> exact presence_processLoop _ id _
  | syncLocalCall prevMessage =>
      unfold afterReturn
      dsimp only
      split_ifs <;> exact presence_syncLocalCallFinally _ id prevMessage
  | syncLocalCast | abandoned | rpcCall | rpcCast => rfl

@[simp] theorem presence_afterThrow (s : Node V) (id : ActorId) (msg : StashedMessage V)
    (error : V) (task : System.Task V) : presence
    (s.afterThrow id msg error task) = presence s := by
  cases task with
  | processMailbox processed =>
      unfold afterThrow
      split_ifs
      · exact presence_processLoop _ id _
      · exact presence_processLoop _ id _
      · rfl
  | syncLocalCall prevMessage => exact presence_syncLocalCallFinally _ id prevMessage
  | syncLocalCast | abandoned | rpcCall | rpcCast => rfl

/-! ## One step -/

theorem presence_step {s t : Node V} {a : Action V} (hst : s.step a = some t) :
    presence t = (presence s).apply a := by
  cases a with
  | spawn config initThrows =>
      cases hst
      exact presence_spawn s config initThrows
  | dispatchCast id message =>
      cases hst
      exact presence_dispatchCast s id message
  | dispatchCall id message =>
      cases hst
      exact presence_dispatchCall s id message
  | rpcCall id message =>
      cases hst
      unfold handleRpcCall
      split_ifs <;> rfl
  | rpcCast id message =>
      cases hst
      unfold handleRpcCast
      split_ifs <;> rfl
  | syncLocalCast id message =>
      cases hst
      unfold syncLocalCast
      split_ifs <;> rfl
  | tick id =>
      obtain ⟨-, -, rfl⟩ := tick_some hst
      exact presence_processMailbox _ id
  | handlerAwaits =>
      obtain ⟨id, task, msg, rest, -, ⟨prev, -, rfl⟩ | ⟨-, rfl⟩⟩ := handlerAwaits_some hst <;>
        rfl
  | handlerResumes index =>
      obtain ⟨r, -, -, rfl⟩ := handlerResumes_some hst
      rfl
  | handlerReturns value =>
      obtain ⟨id, task, msg, rest, -, rfl⟩ := handlerReturns_some hst
      exact presence_afterReturn _ id msg value task
  | handlerThrows error =>
      obtain ⟨id, task, msg, rest, -, rfl⟩ := handlerThrows_some hst
      exact presence_afterThrow _ id msg error task
  | crashHandled =>
      obtain ⟨id, task, rest, -, ⟨n, -, rfl⟩ | ⟨prev, -, rfl⟩ | ⟨-, rfl⟩⟩ :=
        crashHandled_some hst
      · exact presence_processEnd _ id
      · rfl
      · rfl
  | stash id =>
      cases hst
      unfold Node.stash
      split <;> rfl
  | unstash id =>
      cases hst
      unfold Node.unstash
      split
      · rfl
      · exact presence_systemUnstashAll _ id _
  | unstashAll id =>
      cases hst
      unfold Node.unstashAll
      split_ifs
      · exact presence_systemUnstashAll _ id _
      · rfl
  | clearStash id =>
      cases hst
      exact presence_clearStash s id
  | pauseMailbox id =>
      cases hst
      exact presence_pauseMailbox s id
  | resumeMailbox id =>
      cases hst
      exact presence_resumeMailbox s id
  | injectMessages id messages =>
      cases hst
      exact presence_injectMessages s id messages
  | remove id =>
      cases hst
      rfl

/-! ## The functions of a migration -/

section

variable {N : Type}

@[simp] theorem presence_restore (src : Source N V)
    (pendingMessages : List (Option (StashedMessage V))) (error : String) :
    presence (src.restore pendingMessages error).host.system =
      (presence src.host.system).resume src.id := by
  unfold Source.restore
  exact (presence_resumeMailbox _ src.id).trans
    (congrArg (·.resume src.id) (presence_injectMessages _ src.id pendingMessages))

theorem presence_drainLoop (src : Source N V) (reservationId : ReservationId)
    (timedOut : Bool) :
    presence (src.drainLoop reservationId timedOut).host.system =
      presence src.host.system := by
  unfold Source.drainLoop
  split_ifs <;> rfl

theorem presence_drainMailbox (src : Source N V) (reservationId : ReservationId)
    (timedOut : Bool) :
    presence (src.drainMailbox reservationId timedOut).host.system =
        presence src.host.system ∨
      presence (src.drainMailbox reservationId timedOut).host.system =
        (presence src.host.system).pause src.id := by
  unfold Source.drainMailbox
  split_ifs
  · exact .inl rfl
  · refine .inr ((presence_drainLoop _ reservationId timedOut).trans ?_)
    exact presence_pauseMailbox src.host.system src.id

theorem presence_begin [ToString N] {h : Host N V} {actorName : String} {targetNodeId : N}
    {id : ActorId} {metadata : ActorMetadata V} {src : Source N V}
    (hbegin : Source.begin h actorName targetNodeId id metadata = some src) :
    presence src.host.system = (presence h.system).pause id := by
  obtain ⟨s, hs, rfl⟩ := Option.map_eq_some_iff.1 hbegin
  have hreject : presence s = presence (h.system.pauseMailbox id) := by
    unfold rejectPendingCalls at hs
    split_ifs at hs
    · obtain ⟨msgs, -, rfl⟩ := Option.map_eq_some_iff.1 hs
      rfl
    · cases hs
      rfl
  exact hreject.trans (presence_pauseMailbox h.system id)

theorem presence_inject (t : Target N V) :
    presence t.inject.host.system = presence t.host.system :=
  presence_injectMessages _ t.instanceId _

theorem system_confirm [LinearOrder N] (t : Target N V) (now : Nat) (publishError : Option String) :
    (t.confirm now publishError).host.system = t.host.system := by
  unfold Target.confirm
  dsimp only
  split <;> rfl

end

end Libeam.Proofs.Census
