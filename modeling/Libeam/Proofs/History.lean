import Libeam.Proofs.HandlerStarts
/-!
# What one step adds to the record of accepted messages

A step accepts at most one message, under a new identity.
-/

namespace Libeam.Proofs.History

open Mailbox Libeam.System Libeam.System.Node Proofs.Frame HandlerStarts

variable {V : Type}

/-- The tables, the counters and the record of accepted messages. -/
structure Log (V : Type) where
  actors : Finset ActorId
  mailboxes : Finset ActorId
  nextId : ActorId
  nextUid : Nat
  accepted : List (ActorId × StashedMessage V)

def log (s : Node V) : Log V :=
  ⟨s.actors, s.mailboxes, s.nextId, s.nextUid, s.accepted⟩

/-! ## Operations that accept nothing -/

@[simp] theorem log_scheduleProcessMailbox (s : Node V) (id : ActorId) :
    log (s.scheduleProcessMailbox id) = log s := by
  unfold scheduleProcessMailbox
  split_ifs <;> rfl

@[simp] theorem log_rejectEvicted (s : Node V) (oldest : Option (StashedMessage V)) :
    log (s.rejectEvicted oldest) = log s := by
  unfold rejectEvicted
  split
  · split_ifs <;> rfl
  · rfl

@[simp] theorem log_processEnd (s : Node V) (id : ActorId) :
    log (s.processEnd id) = log s := by
  unfold Node.processEnd
  dsimp only
  split_ifs <;> rfl

@[simp] theorem log_processLoop (s : Node V) (id : ActorId) (processed : Nat) :
    log (s.processLoop id processed) = log s := by
  unfold Node.processLoop
  split_ifs
  · dsimp only
    split <;> rfl
  · exact log_processEnd s id

@[simp] theorem log_processMailbox (s : Node V) (id : ActorId) :
    log (s.processMailbox id) = log s := by
  unfold Node.processMailbox
  split_ifs
  · rfl
  · rfl
  · exact log_processLoop _ id 0

@[simp] theorem log_syncLocalCallFinally (s : Node V) (id : ActorId)
    (prevMessage : Option (StashedMessage V)) :
    log (s.syncLocalCallFinally id prevMessage) = log s := by
  unfold Node.syncLocalCallFinally
  dsimp only
  split_ifs <;> rfl

@[simp] theorem log_systemUnstashAll (s : Node V) (id : ActorId)
    (messages : List (StashedMessage V)) :
    log (s.systemUnstashAll id messages) = log s := by
  unfold Node.systemUnstashAll
  split_ifs
  · exact log_scheduleProcessMailbox _ id
  · rfl

@[simp] theorem log_clearStash (s : Node V) (id : ActorId) :
    log (s.clearStash id) = log s := by
  obtain ⟨more, heq⟩ := clearStash_eq s id
  rw [heq]
  rfl

@[simp] theorem log_afterReturn (s : Node V) (id : ActorId) (msg : StashedMessage V)
    (value : V) (task : System.Task V) :
    log (s.afterReturn id msg value task) = log s := by
  cases task with
  | processMailbox n =>
      unfold Node.afterReturn
      rw [log_processLoop]
      split_ifs <;> rfl
  | syncLocalCall prev =>
      unfold Node.afterReturn
      rw [log_syncLocalCallFinally]
      split_ifs <;> rfl
  | syncLocalCast prev | abandoned | rpcCall | rpcCast => rfl

@[simp] theorem log_afterThrow (s : Node V) (id : ActorId) (msg : StashedMessage V)
    (error : V) (task : System.Task V) :
    log (s.afterThrow id msg error task) = log s := by
  cases task with
  | processMailbox n =>
      unfold Node.afterThrow
      split_ifs
      · exact log_processLoop _ id _
      · exact log_processLoop _ id _
      · rfl
  | syncLocalCall prev => exact log_syncLocalCallFinally _ id prev
  | syncLocalCast prev | abandoned | rpcCall | rpcCast => rfl

/-! ## One step -/

/-- How a step may change the tables, the counters and the accepted messages. -/
inductive Logged (s t : Node V) : Action V → Prop where
  /-- Nothing is accepted; identities may be used up. -/
  | idle (a : Action V) (actors : t.actors = s.actors) (mailboxes : t.mailboxes = s.mailboxes)
      (nextId : t.nextId = s.nextId) (nextUid : s.nextUid ≤ t.nextUid)
      (accepted : t.accepted = s.accepted) : Logged s t a
  | removed (id : ActorId) (actors : t.actors = s.actors.erase id)
      (mailboxes : t.mailboxes = s.mailboxes.erase id) (nextId : t.nextId = s.nextId)
      (nextUid : t.nextUid = s.nextUid) (accepted : t.accepted = s.accepted) :
      Logged s t (.remove id)
  | spawned (config : MailboxConfig) (initThrows : Bool)
      (actors : t.actors = insert s.nextId s.actors)
      (mailboxes : t.mailboxes = insert s.nextId s.mailboxes)
      (nextId : t.nextId = s.nextId + 1) (nextUid : t.nextUid = s.nextUid)
      (accepted : t.accepted = s.accepted) : Logged s t (.spawn config initThrows)
  | accepted (a : Action V) (id : ActorId) (msg : StashedMessage V) (live : id ∈ s.actors)
      (uid : msg.uid = s.nextUid) (actors : t.actors = s.actors)
      (mailboxes : t.mailboxes = s.mailboxes) (nextId : t.nextId = s.nextId)
      (nextUid : t.nextUid = s.nextUid + 1)
      (accepted : t.accepted = s.accepted ++ [(id, msg)])
      (sends : a = .dispatchCast id msg.message ∨ a = .dispatchCall id msg.message) :
      Logged s t a

theorem Logged.of_eq {s t : Node V} {a : Action V} (h : log t = log s) : Logged s t a :=
  .idle a (congrArg Log.actors h) (congrArg Log.mailboxes h) (congrArg Log.nextId h)
    (congrArg Log.nextUid h).ge (congrArg Log.accepted h)

theorem log_accept (s : Node V) (id : ActorId) (msg : StashedMessage V) :
    log (s.accept id msg) =
      { log s with accepted := (log s).accepted ++ [(id, msg)] } := rfl

theorem logged_of_accepted {s t : Node V} {a : Action V} {id : ActorId}
    (msg : StashedMessage V) (hlive : id ∈ s.actors) (huid : msg.uid = s.nextUid)
    (hsends : a = .dispatchCast id msg.message ∨ a = .dispatchCall id msg.message)
    (h : log t = { log s with
      nextUid := s.nextUid + 1
      accepted := s.accepted ++ [(id, msg)] }) : Logged s t a :=
  .accepted a id msg hlive huid (congrArg Log.actors h) (congrArg Log.mailboxes h)
    (congrArg Log.nextId h) (congrArg Log.nextUid h) (congrArg Log.accepted h) hsends

theorem logged_of_used {s t : Node V} {a : Action V}
    (h : log t = { log s with nextUid := s.nextUid + 1 }) : Logged s t a :=
  .idle a (congrArg Log.actors h) (congrArg Log.mailboxes h) (congrArg Log.nextId h)
    ((Nat.le_succ _).trans (congrArg Log.nextUid h).ge) (congrArg Log.accepted h)

theorem logged_dispatchCast (s : Node V) (id : ActorId) (message : V) :
    Logged s (s.dispatchCast id message) (.dispatchCast id message) := by
  unfold Node.dispatchCast
  split_ifs with hlocal
  · dsimp only
    split
    · apply logged_of_accepted ⟨s.nextUid, .cast, message⟩ hlocal.1 rfl (.inl rfl)
      rw [log_scheduleProcessMailbox]
      rfl
    · apply logged_of_accepted ⟨s.nextUid, .cast, message⟩ hlocal.1 rfl (.inl rfl)
      rw [log_scheduleProcessMailbox, log_accept, log_rejectEvicted]
      rfl
    · apply logged_of_used
      rw [log_scheduleProcessMailbox]
      rfl
    · exact logged_of_used rfl
  · exact .of_eq rfl

theorem logged_enqueueCall {s : Node V} {id : ActorId} (hlive : id ∈ s.actors)
    (message : V) : Logged s (s.enqueueCall id message) (.dispatchCall id message) := by
  unfold Node.enqueueCall
  dsimp only
  split
  · apply logged_of_accepted ⟨s.nextUid, .call, message⟩ hlive rfl (.inr rfl)
    rw [log_scheduleProcessMailbox]
    rfl
  · apply logged_of_accepted ⟨s.nextUid, .call, message⟩ hlive rfl (.inr rfl)
    rw [log_scheduleProcessMailbox, log_accept, log_rejectEvicted]
    rfl
  · exact logged_of_used rfl
  · exact logged_of_used rfl

theorem logged_step {s t : Node V} {a : Action V} (hst : s.step a = some t) :
    Logged s t a := by
  cases a with
  | spawn config initThrows =>
      cases hst
      have hspawn : log (s.spawn config initThrows) = log (s.install config) := by
        unfold Node.spawn
        split_ifs
        · rfl
        · exact log_scheduleProcessMailbox _ _
      exact .spawned config initThrows (congrArg Log.actors hspawn) (congrArg Log.mailboxes hspawn)
        (congrArg Log.nextId hspawn) (congrArg Log.nextUid hspawn)
        (congrArg Log.accepted hspawn)
  | remove id =>
      cases hst
      exact .removed id rfl rfl rfl rfl rfl
  | dispatchCast id message => cases hst; exact logged_dispatchCast s id message
  | dispatchCall id message =>
      cases hst
      unfold Node.dispatchCall
      split_ifs with hlocal
      · exact logged_of_accepted ⟨s.nextUid, .call, message⟩ hlocal.1 rfl (.inr rfl) rfl
      · exact logged_enqueueCall hlocal.1 message
      · exact .of_eq rfl
  | rpcCall id message =>
      cases hst
      unfold handleRpcCall
      split_ifs
      · exact logged_of_used rfl
      · exact .of_eq rfl
  | rpcCast id message =>
      cases hst
      unfold handleRpcCast
      split_ifs
      · exact logged_of_used rfl
      · exact .of_eq rfl
  | syncLocalCast id message =>
      cases hst
      unfold Node.syncLocalCast
      split_ifs
      · exact .of_eq rfl
      · exact logged_of_used rfl
  | tick id =>
      obtain ⟨-, -, rfl⟩ := tick_some hst
      exact .of_eq (log_processMailbox _ id)
  | handlerAwaits =>
      obtain ⟨id, task, msg, rest, -, ⟨prev, -, rfl⟩ | ⟨-, rfl⟩⟩ :=
        handlerAwaits_some hst
      · exact .of_eq rfl
      · exact .of_eq rfl
  | handlerResumes index =>
      obtain ⟨r, -, -, rfl⟩ := handlerResumes_some hst
      exact .of_eq rfl
  | handlerReturns value =>
      obtain ⟨id, task, msg, rest, -, rfl⟩ := handlerReturns_some hst
      exact .of_eq (log_afterReturn _ id msg value task)
  | handlerThrows error =>
      obtain ⟨id, task, msg, rest, -, rfl⟩ := handlerThrows_some hst
      exact .of_eq (log_afterThrow _ id msg error task)
  | crashHandled =>
      obtain ⟨id, task, rest, -, ⟨n, -, rfl⟩ | ⟨prev, -, rfl⟩ | ⟨-, rfl⟩⟩ :=
        crashHandled_some hst
      · exact .of_eq (log_processEnd _ id)
      · exact .of_eq rfl
      · exact .of_eq rfl
  | stash id =>
      cases hst
      unfold Node.stash
      split <;> exact .of_eq rfl
  | unstash id =>
      cases hst
      unfold Node.unstash
      split
      · exact .of_eq rfl
      · exact .of_eq (log_systemUnstashAll _ id _)
  | unstashAll id =>
      cases hst
      unfold Node.unstashAll
      split_ifs
      · exact .of_eq (log_systemUnstashAll s id _)
      · exact .of_eq rfl
  | clearStash id => cases hst; exact .of_eq (log_clearStash s id)
  | pauseMailbox id =>
      cases hst
      unfold Node.pauseMailbox
      split_ifs <;> exact .of_eq rfl
  | resumeMailbox id =>
      cases hst
      unfold Node.resumeMailbox
      split_ifs
      · exact .of_eq (log_scheduleProcessMailbox _ id)
      · exact .of_eq rfl
      · exact .of_eq rfl
  | injectMessages id messages =>
      cases hst
      unfold Node.injectMessages
      split_ifs
      · exact .of_eq (log_scheduleProcessMailbox _ id)
      · exact .of_eq rfl

/-! ## Identities are never reused -/

structure Fresh (s : Node V) : Prop where
  /-- The two tables have the same keys. -/
  mailboxes : s.mailboxes = s.actors
  actors : ∀ id ∈ s.actors, id < s.nextId
  started : ∀ p ∈ s.started, p.1 < s.nextId
  accepted : ∀ p ∈ s.accepted, p.1 < s.nextId
  uids : ∀ p ∈ s.accepted, p.2.uid < s.nextUid
  nodup : (s.accepted.map fun p => p.2.uid).Nodup

theorem fresh_init : Fresh (init : Node V) := by
  constructor <;> simp [init]

theorem Logged.nextId_le {s t : Node V} {a : Action V} (h : Logged s t a) :
    s.nextId ≤ t.nextId := by
  cases h with
  | idle _ _ _ nextId => exact nextId.ge
  | removed _ _ _ nextId => exact nextId.ge
  | spawned _ _ _ _ nextId => exact nextId ▸ Nat.le_succ _
  | accepted _ _ _ _ _ _ _ nextId => exact nextId.ge

theorem Logged.nextUid_le {s t : Node V} {a : Action V} (h : Logged s t a) :
    s.nextUid ≤ t.nextUid := by
  cases h with
  | idle _ _ _ _ nextUid => exact nextUid
  | removed _ _ _ _ nextUid => exact nextUid.ge
  | spawned _ _ _ _ _ nextUid => exact nextUid.ge
  | accepted _ _ _ _ _ _ _ _ nextUid => exact nextUid ▸ Nat.le_succ _

theorem fresh_step {s t : Node V} {a : Action V} (h : Fresh s)
    (hst : s.step a = some t) : Fresh t := by
  have hlogged := logged_step hst
  have hnextId := hlogged.nextId_le
  have hstarted : ∀ p ∈ t.started, p.1 < t.nextId := by
    intro p hp
    rcases starts_step hst with ⟨id, msg, hstarts, heq⟩ | ⟨-, heq⟩
    · rw [heq, List.mem_append, List.mem_singleton] at hp
      rcases hp with hp | rfl
      · exact (h.started p hp).trans_le hnextId
      · exact (h.actors id hstarts.mem_actors).trans_le hnextId
    · rw [heq] at hp
      exact (h.started p hp).trans_le hnextId
  cases hlogged with
  | idle _ actors mailboxes nextId nextUid accepted =>
      refine ⟨?_, ?_, hstarted, ?_, ?_, ?_⟩
      · rw [mailboxes, actors, h.mailboxes]
      · rw [nextId, actors]
        exact h.actors
      · rw [nextId, accepted]
        exact h.accepted
      · rw [accepted]
        exact fun p hp => (h.uids p hp).trans_le nextUid
      · rw [accepted]
        exact h.nodup
  | removed id actors mailboxes nextId nextUid accepted =>
      refine ⟨?_, ?_, hstarted, ?_, ?_, ?_⟩
      · rw [mailboxes, actors, h.mailboxes]
      · rw [nextId, actors]
        exact fun id' hmem => h.actors id' (Finset.mem_of_mem_erase hmem)
      · rw [nextId, accepted]
        exact h.accepted
      · rw [nextUid, accepted]
        exact h.uids
      · rw [accepted]
        exact h.nodup
  | spawned _ _ actors mailboxes nextId nextUid accepted =>
      refine ⟨?_, ?_, hstarted, ?_, ?_, ?_⟩
      · rw [mailboxes, actors, h.mailboxes]
      · intro id hmem
        rw [actors, Finset.mem_insert] at hmem
        rcases hmem with rfl | hmem
        · exact nextId ▸ Nat.lt_succ_self _
        · exact (h.actors id hmem).trans_le hnextId
      · rw [accepted]
        exact fun p hp => (h.accepted p hp).trans_le hnextId
      · rw [nextUid, accepted]
        exact h.uids
      · rw [accepted]
        exact h.nodup
  | accepted _ id msg live uid actors mailboxes nextId nextUid accepted =>
      refine ⟨?_, ?_, hstarted, ?_, ?_, ?_⟩
      · rw [mailboxes, actors, h.mailboxes]
      · rw [actors, nextId]
        exact h.actors
      · rw [accepted, nextId, List.forall_mem_append, List.forall_mem_singleton]
        exact ⟨h.accepted, h.actors id live⟩
      · rw [accepted, nextUid, List.forall_mem_append, List.forall_mem_singleton]
        exact ⟨fun p hp => (h.uids p hp).trans (Nat.lt_succ_self _), by simp [uid]⟩
      · rw [accepted, List.map_append, List.map_singleton, List.nodup_append]
        refine ⟨h.nodup, List.nodup_singleton _, ?_⟩
        intro uid₁ huid₁ uid₂ huid₂ heq
        obtain ⟨p, hp, rfl⟩ := List.mem_map.1 huid₁
        have hnew : uid₂ = s.nextUid := (List.mem_singleton.1 huid₂).trans uid
        have hlt := h.uids p hp
        omega

end Libeam.Proofs.History
