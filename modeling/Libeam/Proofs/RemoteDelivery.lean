import Libeam.System.Remote
import Libeam.Proofs.Exclusion
import Libeam.Proofs.History
/-!
# Remote messages and the discipline of the mailbox

The RPC handlers invoke the message handler of the instance at once.  So remote messages
are started in the order in which they were received, each exactly once; and they are
kept from a paused mailbox and from a busy instance if and only if none arrives there.
-/

namespace Libeam.Proofs.RemoteDelivery

open Lib.Transition Libeam.System Libeam.System.Node Proofs.Frame HandlerStarts History
open Exclusion (openHandlers)

variable {S V : Type}

def remoteStarts (w : Remote S V) : List (HandlerStart V) :=
  w.starts.filter fun st => st.task.isRpc

/-- What the messages of one sender are, in the order received. -/
def receivedFrom [DecidableEq S] (w : Remote S V) (sender : S) :
    List (ActorId × StashedMessage V) :=
  (w.received.filter fun r => r.1 = sender).map fun r => r.2

/-- Remote messages are handled as local ones are. -/
structure Disciplined [DecidableEq S] (w : Remote S V) : Prop where
  /-- No handler is started while the mailbox is paused or another handler is open. -/
  calm : ∀ st ∈ remoteStarts w, st.paused = false ∧ st.busy = false
  /-- The messages of a sender are started in the order in which they were received. -/
  order : ∀ sender,
    (receivedFrom w sender).Sublist ((remoteStarts w).map fun st => (st.id, st.msg))
  once : ((remoteStarts w).map fun st => st.msg.uid).Nodup

/-- An RPC for a live instance finds it unpaused and without an open handler. -/
def ArrivesCalm (w : Remote S V) : RemoteAction S V → Prop
  | .rpcCall _ id _ | .rpcCast _ id _ => id ∈ w.node.actors →
      id ∉ w.node.pausedMailboxes ∧ openHandlers w.node id = []
  | .node _ => True

/-! ## What local steps start -/

/-- The step starts no handler, or one that is not for an RPC. -/
def StartsLocally (s t : Node V) : Prop :=
  t.started = s.started ∨ ∃ p r rest, t.started = s.started ++ [p] ∧ t.stack = r :: rest ∧
    r.task.isRpc = false

theorem StartsLocally.newStarts {s t : Node V} (h : StartsLocally s t) :
    ∀ st ∈ Remote.newStarts s t, st.task.isRpc = false := by
  intro st hst
  unfold Remote.newStarts at hst
  rcases h with heq | ⟨p, r, rest, heq, hstack, hr⟩
  · rw [heq, List.drop_length] at hst
    cases hst
  · rw [heq, List.drop_left, hstack] at hst
    rw [List.mem_singleton.1 hst]
    exact hr

theorem startsLocally_processLoop {s : Node V} (u : Node V) (id : ActorId) (processed : Nat)
    (h : u.started = s.started) : StartsLocally s (u.processLoop id processed) := by
  unfold Node.processLoop
  split_ifs
  · cases (u.mailbox id).dequeue.2 with
    | some msg => exact .inr ⟨(id, msg), _, _, congrArg (· ++ [(id, msg)]) h, rfl, rfl⟩
    | none => exact .inl h
  · refine .inl (Eq.trans ?_ h)
    unfold Node.processEnd
    dsimp only
    split_ifs <;> rfl

theorem startsLocally_afterReturn {s : Node V} (u : Node V) (id : ActorId)
    (msg : StashedMessage V) (value : V) (task : System.Task V) (h : u.started = s.started) :
    StartsLocally s (u.afterReturn id msg value task) := by
  cases task with
  | processMailbox n =>
      unfold Node.afterReturn
      dsimp only
      split_ifs
      · exact startsLocally_processLoop _ _ _ h
      · exact startsLocally_processLoop _ _ _ h
  | syncLocalCall prev =>
      unfold Node.afterReturn
      dsimp only
      refine .inl ((started_syncLocalCallFinally _ _ _).trans ?_)
      split_ifs
      · exact h
      · exact h
  | syncLocalCast prev | abandoned | rpcCall | rpcCast => exact .inl h

theorem startsLocally_afterThrow {s : Node V} (u : Node V) (id : ActorId)
    (msg : StashedMessage V) (error : V) (task : System.Task V) (h : u.started = s.started) :
    StartsLocally s (u.afterThrow id msg error task) := by
  cases task with
  | processMailbox n =>
      unfold Node.afterThrow
      dsimp only
      split_ifs
      · exact startsLocally_processLoop _ _ _ h
      · exact startsLocally_processLoop _ _ _ h
      · exact .inl h
  | syncLocalCall prev =>
      unfold Node.afterThrow
      exact .inl ((started_syncLocalCallFinally _ _ _).trans h)
  | syncLocalCast prev | abandoned | rpcCall | rpcCast => exact .inl h

theorem startsLocally_step {s t : Node V} {a : Action V} (hst : s.step a = some t)
    (hcall : ∀ id message, a ≠ .rpcCall id message)
    (hcast : ∀ id message, a ≠ .rpcCast id message) : StartsLocally s t := by
  by_cases hpassive : IsPassive a
  · exact .inl (passive_step hpassive hst).started
  cases a with
  | spawn | handlerAwaits | handlerResumes | crashHandled =>
      rcases starts_step hst with ⟨_, _, hstarts, -⟩ | ⟨-, heq⟩
      · exact hstarts.elim
      · exact .inl heq
  | remove id =>
      cases hst
      exact .inl rfl
  | dispatchCall id message =>
      cases hst
      unfold Node.dispatchCall
      split_ifs
      · exact .inr ⟨_, _, _, rfl, rfl, rfl⟩
      · exact .inl (passive_enqueueCall s id message).started
      · exact .inl rfl
  | rpcCall id message => exact absurd rfl (hcall id message)
  | rpcCast id message => exact absurd rfl (hcast id message)
  | syncLocalCast id message =>
      cases hst
      unfold Node.syncLocalCast
      split_ifs
      · exact .inl rfl
      · exact .inr ⟨_, _, _, rfl, rfl, rfl⟩
  | tick id =>
      obtain ⟨-, -, rfl⟩ := tick_some hst
      unfold Node.processMailbox
      split_ifs
      · exact .inl rfl
      · exact .inl rfl
      · exact startsLocally_processLoop _ _ _ rfl
  | handlerReturns value =>
      obtain ⟨id, task, msg, rest, -, rfl⟩ := handlerReturns_some hst
      exact startsLocally_afterReturn { s with stack := rest } id msg value task rfl
  | handlerThrows error =>
      obtain ⟨id, task, msg, rest, -, rfl⟩ := handlerThrows_some hst
      exact startsLocally_afterThrow { s with stack := rest } id msg error task rfl
  | dispatchCast | stash | unstash | unstashAll | clearStash | pauseMailbox
  | resumeMailbox | injectMessages => exact absurd trivial hpassive

/-! ## What a step receives -/

theorem newStarts_startHandler {s u : Node V} (id : ActorId) (task : System.Task V)
    (msg : StashedMessage V) (h : u.started = s.started) :
    Remote.newStarts s (u.startHandler id task msg) =
      [⟨id, msg, task, id ∈ s.pausedMailboxes,
        s.runners.any fun r => r.id = id ∧ r.isHandling⟩] := by
  unfold Remote.newStarts
  rw [startHandler_started, h, List.drop_left]
  rfl

theorem busy_eq_false {s : Node V} {id : ActorId} :
    (s.runners.any fun r => r.id = id ∧ r.isHandling) = false ↔ openHandlers s id = [] := by
  unfold Exclusion.openHandlers
  rw [List.any_eq_false, List.filter_eq_nil_iff]

/-- What a step adds to the records of remote messages. -/
inductive Receives (w : Remote S V) (a : RemoteAction S V) (w' : Remote S V) : Prop where
  | nothing (hreceived : w'.received = w.received) (hstarts : remoteStarts w' = remoteStarts w)
      (huid : w.node.nextUid ≤ w'.node.nextUid) (hcalm : ArrivesCalm w a)
  | message (sender : S) (st : HandlerStart V)
      (hreceived : w'.received = w.received ++ [(sender, st.id, st.msg)])
      (hstarts : remoteStarts w' = remoteStarts w ++ [st]) (hnew : st.msg.uid = w.node.nextUid)
      (huid : w.node.nextUid < w'.node.nextUid)
      (hcalm : ArrivesCalm w a ↔ st.paused = false ∧ st.busy = false)

theorem remoteStarts_observe (w : Remote S V) (t : Node V) :
    remoteStarts (w.observe t) =
      remoteStarts w ++ (Remote.newStarts w.node t).filter fun st => st.task.isRpc :=
  List.filter_append _ _

/-- An RPC starts the handler of a live instance, and does nothing without one. -/
theorem receives_rpc (w : Remote S V) {a : RemoteAction S V} (sender : S) (id : ActorId)
    {msg : StashedMessage V} {task : System.Task V} (htask : task.isRpc = true)
    (hmsg : msg.uid = w.node.nextUid)
    (hcalm : ArrivesCalm w a ↔ (id ∈ w.node.actors →
      id ∉ w.node.pausedMailboxes ∧ openHandlers w.node id = [])) :
    Receives w a ((w.receive sender id msg).observe
      (if id ∈ w.node.actors then
        { w.node with nextUid := w.node.nextUid + 1 }.startHandler id task msg
      else w.node)) := by
  by_cases hlive : id ∈ w.node.actors
  · rw [if_pos hlive]
    have hnew := newStarts_startHandler (s := w.node)
      (u := { w.node with nextUid := w.node.nextUid + 1 }) id task msg rfl
    refine .message sender ⟨id, msg, task, id ∈ w.node.pausedMailboxes,
      w.node.runners.any fun r => r.id = id ∧ r.isHandling⟩ (if_pos hlive) ?_ hmsg
      (Nat.lt_succ_self _) ?_
    · rw [remoteStarts_observe]
      change remoteStarts w ++ (Remote.newStarts w.node _).filter _ = _
      rw [hnew, List.filter_cons, if_pos htask]
      rfl
    · rw [hcalm]
      dsimp only
      rw [decide_eq_false_iff_not, busy_eq_false]
      exact ⟨fun h => h hlive, fun h _ => h⟩
  · rw [if_neg hlive]
    refine .nothing (if_neg hlive) ?_ (Nat.le_refl _) (hcalm.2 fun h => absurd h hlive)
    rw [remoteStarts_observe]
    change remoteStarts w ++ (Remote.newStarts w.node w.node).filter _ = _
    unfold Remote.newStarts
    rw [List.drop_length]
    exact List.append_nil _

theorem receives_node {w : Remote S V} {a : Action V} {t : Node V}
    (hst : w.node.step a = some t) (hcall : ∀ id message, a ≠ .rpcCall id message)
    (hcast : ∀ id message, a ≠ .rpcCast id message) :
    Receives w (.node a) (w.observe t) := by
  refine .nothing rfl ?_ (logged_step hst).nextUid_le trivial
  have hlocal := (startsLocally_step hst hcall hcast).newStarts
  rw [remoteStarts_observe, List.filter_eq_nil_iff.2 fun st hst => by simp [hlocal st hst]]
  exact List.append_nil _

theorem receives_step {w w' : Remote S V} {a : RemoteAction S V} (hst : w.step a = some w') :
    Receives w a w' := by
  cases a with
  | rpcCall sender id message =>
      cases hst
      exact receives_rpc w sender id rfl rfl Iff.rfl
  | rpcCast sender id message =>
      cases hst
      exact receives_rpc w sender id rfl rfl Iff.rfl
  | node a =>
      unfold Remote.step at hst
      split at hst
      · cases hst
      · cases hst
      · next a' hcall hcast heq =>
          cases heq
          obtain ⟨t, ht, rfl⟩ := Option.map_eq_some_iff.1 hst
          refine receives_node ht ?_ ?_
          · rintro id message rfl
            exact hcall id message rfl
          · rintro id message rfl
            exact hcast id message rfl
      · next heq => cases heq
      · next heq => cases heq

/-! ## Runs -/

/-- What is received is started, in this order; identities are new. -/
structure Recorded (w : Remote S V) : Prop where
  starts : (w.received.map fun r => r.2) = (remoteStarts w).map fun st => (st.id, st.msg)
  uids : ∀ st ∈ remoteStarts w, st.msg.uid < w.node.nextUid
  once : ((remoteStarts w).map fun st => st.msg.uid).Nodup

theorem recorded_step {w w' : Remote S V} {a : RemoteAction S V} (h : Recorded w)
    (hst : w.step a = some w') : Recorded w' := by
  cases receives_step hst with
  | nothing hreceived hstarts huid hcalm =>
      refine ⟨?_, ?_, ?_⟩
      · rw [hreceived, hstarts, h.starts]
      · rw [hstarts]
        exact fun st hst => Nat.lt_of_lt_of_le (h.uids st hst) huid
      · rw [hstarts]
        exact h.once
  | message sender st hreceived hstarts hnew huid hcalm =>
      refine ⟨?_, fun st' hst' => ?_, ?_⟩
      · rw [hreceived, hstarts, List.map_append, List.map_append, h.starts]
        rfl
      · rw [hstarts, List.mem_append, List.mem_singleton] at hst'
        rcases hst' with hst' | rfl
        · exact (h.uids st' hst').trans huid
        · exact hnew ▸ huid
      · rw [hstarts, List.map_append]
        refine h.once.append (List.nodup_singleton _) fun x hx hx' => ?_
        obtain ⟨st', hst', rfl⟩ := List.mem_map.1 hx
        have heq : st'.msg.uid = w.node.nextUid := (List.mem_singleton.1 hx').trans hnew
        exact absurd (h.uids st' hst') (heq ▸ Nat.lt_irrefl _)

variable [DecidableEq S]

theorem Recorded.disciplined {w : Remote S V} (h : Recorded w)
    (hcalm : ∀ st ∈ remoteStarts w, st.paused = false ∧ st.busy = false) : Disciplined w where
  calm := hcalm
  order := by
    intro sender
    rw [← h.starts]
    exact List.filter_sublist.map _
  once := h.once

/-- Remote messages are handled like local ones throughout a run if and only if none of
them arrives for an instance that is paused or busy. -/
theorem disciplined_iff {as : List (RemoteAction S V)} {u : Remote S V}
    (hrun : run Remote.step Remote.init as = some u) :
    Throughout Remote.step Disciplined (Remote.init : Remote S V) as ↔
      Along Remote.step ArrivesCalm (Remote.init : Remote S V) as := by
  refine throughout_iff_along (I := fun w => Recorded w ∧ Disciplined w) (A := fun _ _ => True)
    (fun w a w' hw _ hcalm hst => ?_) (fun _ hw => hw.2) (fun w a w' hw _ hnot hst hd => ?_)
    ?_ (along_of_forall_mem (P := fun _ => True) (fun _ _ => trivial) _) hrun
  · have hrecorded := recorded_step hw.1 hst
    refine ⟨hrecorded, hrecorded.disciplined ?_⟩
    cases receives_step hst with
    | nothing hreceived hstarts huid hcalm' =>
        rw [hstarts]
        exact hw.2.calm
    | message sender st hreceived hstarts hnew huid hcalm' =>
        rw [hstarts]
        intro st' hst'
        rcases List.mem_append.1 hst' with hst' | hst'
        · exact hw.2.calm st' hst'
        · exact List.mem_singleton.1 hst' ▸ hcalm'.1 hcalm
  · cases receives_step hst with
    | nothing hreceived hstarts huid hcalm => exact hnot hcalm
    | message sender st hreceived hstarts hnew huid hcalm =>
        refine hnot (hcalm.2 (hd.calm st ?_))
        rw [hstarts]
        exact List.mem_append_right _ List.mem_cons_self
  · have hinit : Recorded (Remote.init : Remote S V) :=
      ⟨rfl, fun _ h => (List.not_mem_nil h).elim, List.nodup_nil⟩
    exact ⟨hinit, hinit.disciplined fun _ h => (List.not_mem_nil h).elim⟩

/-! ## An RPC for a paused instance -/

/-- The mailbox of actor 0 is paused; node 1 calls it, and casts while the call waits. -/
def pausedRun : List (RemoteAction Nat Nat) :=
  [.node (.spawn {} false), .node (.pauseMailbox 0), .rpcCall 1 0 5, .node .handlerAwaits,
    .rpcCast 1 0 6]

/-- Both are started while the mailbox is paused, the second beside the first. -/
theorem pausedRun_starts :
    ∃ u, run Remote.step Remote.init pausedRun = some u ∧ 0 ∈ u.node.pausedMailboxes ∧
      u.starts = [⟨0, ⟨0, .call, 5⟩, .rpcCall, true, false⟩,
        ⟨0, ⟨1, .cast, 6⟩, .rpcCast, true, true⟩] :=
  ⟨_, rfl, by decide, by decide⟩

/-- A call that finds its instance idle, and a cast after it has been answered. -/
theorem disciplined_iff_idle :
    Throughout Remote.step Disciplined (Remote.init : Remote Nat Nat)
      [.node (.spawn {} false), .rpcCall 1 0 5, .node (.handlerReturns 7), .rpcCast 1 0 6] := by
  refine (disciplined_iff rfl).2 ⟨trivial, fun w hw => ?_⟩
  cases hw
  refine ⟨fun _ => ⟨by decide, rfl⟩, fun w hw => ?_⟩
  cases hw
  refine ⟨trivial, fun w hw => ?_⟩
  cases hw
  exact ⟨fun _ => ⟨by decide, rfl⟩, fun _ _ => trivial⟩

end Libeam.Proofs.RemoteDelivery
