import Mathlib.Data.List.ReduceOption
import Libeam.Proofs.Ownership
import Libeam.Proofs.SerialHandlers
import Libeam.Proofs.Standing
import Libeam.System.Agent
/-!
# Agents are linearizable

The handlers of an agent run one at a time, in the order the operations were dispatched.  So the
operations whose handlers returned are a prefix of that order; the state is what they leave one
after another, and the calls among them are answered accordingly.
-/

namespace Libeam.Proofs.AgentOrder

open Lib.Sequential Lib.Transition Mailbox Libeam.System Libeam.System.Node Proofs.Frame
open MailboxQueue MailboxSound HandlerStarts History Delivery Settlements Ownership Wakeup
open SerialHandlers Standing

variable {T W : Type}

/-! ## The sequential agent -/

/-- What a dispatched operation answers to its caller, and the state it leaves. -/
def answer (state : T) (p : Nat × Operation T) : Option (Nat × T) × T :=
  ((p.2.apply state).1.map fun t => (p.1, t), (p.2.apply state).2)

/-- The answers of the operations, applied one after another. -/
def answers (initialState : T) (ops : List (Nat × Operation T)) : List (Nat × T) :=
  (replies answer initialState ops).reduceOption

/-- A promise resolved with a state. -/
def resolution (q : Nat × T) : Nat × Settlement (Value T W) := (q.1, .resolved (.state q.2))

/-- The message object of an operation. -/
def envelope (p : Nat × Operation T) : StashedMessage (Value T W) :=
  ⟨p.1, p.2.type, .message p.2.payload⟩

theorem envelope_injective : Function.Injective (envelope (T := T) (W := W)) := by
  rintro ⟨uid, op⟩ ⟨uid', op'⟩ heq
  cases op <;> cases op' <;> cases heq <;> rfl

/-- The handler does to the state what the method is documented to do. -/
theorem handle_envelope (state : T) (p : Nat × Operation T) :
    AgentActor.handle (W := W) state (envelope p) =
      (((p.2.apply state).1.elim .undefined .state), (p.2.apply state).2) := by
  obtain ⟨uid, op⟩ := p
  cases op <;> rfl

theorem action_cases (id : ActorId) (op : Operation T) :
    op.type = .cast ∧ op.action (W := W) id = .dispatchCast id (.message op.payload) ∨
      op.type = .call ∧ op.action (W := W) id = .dispatchCall id (.message op.payload) := by
  cases op with
  | cast fn => exact .inl ⟨rfl, rfl⟩
  | get | update fn | getAndUpdate fn => exact .inr ⟨rfl, rfl⟩

theorem answers_snoc (initialState : T) (ops : List (Nat × Operation T))
    (p : Nat × Operation T) :
    answers initialState (ops ++ [p]) =
      answers initialState ops ++ ((answer (final answer initialState ops) p).1).toList := by
  rw [answers, replies_snoc, List.reduceOption_append]
  cases (answer (final answer initialState ops) p).1 <;> rfl

theorem resolution_answer (state : T) (p : Nat × Operation T) :
    (answer state p).1.toList.map (resolution (W := W)) =
      if (envelope (W := W) p).type = .call then
        [(p.1, .resolved ((p.2.apply state).1.elim .undefined .state))]
      else [] := by
  obtain ⟨uid, op⟩ := p
  cases op <;> rfl

/-! ## The node below -/

/-- What holds of the node whatever the agent does: it lives, unpaused, with an unbounded
mailbox. -/
structure Hosts {V : Type} (s : Node V) (id : ActorId) : Prop where
  owned : Owned s
  sound : Sound s
  wakeful : Wakeful ∅ s
  delivers : Delivers (view s id)
  status : standing s id = ⟨true, false, none⟩

/-- The action injects nothing, and leaves the agent to its messages. -/
structure Harmless {V : Type} (s : Node V) (id : ActorId) (a : Action V) : Prop where
  injects : NoInjection a
  plain : PlainFor id a
  leaves : Leaves s id a

namespace Hosts

variable {V : Type} {s t : Node V} {id : ActorId} {a : Action V}

theorem mem_actors (h : Hosts s id) : id ∈ s.actors :=
  of_decide_eq_true (congrArg Status.live h.status)

theorem not_mem_paused (h : Hosts s id) : id ∉ s.pausedMailboxes :=
  of_decide_eq_false (congrArg Status.paused h.status)

theorem unbounded (h : Hosts s id) : (s.mailbox id).maxSize = none :=
  congrArg Status.maxSize h.status

/-- The messages that wait are the accepted ones that were not started. -/
theorem queue (h : Hosts s id) :
    ∃ q, Holds (s.mailbox id) q ∧ startedOf s id ++ q = acceptedOf s id :=
  h.delivers.queue (decide_eq_true h.mem_actors) h.unbounded

theorem step (h : Hosts s id) (ha : Harmless s id a) (hst : s.step a = some t) : Hosts t id := by
  have hinjected : InjectsMessages a := by
    cases a with
    | injectMessages => exact ha.injects.elim
    | _ => trivial
  exact ⟨owned_step h.owned ha.injects hst, sound_step h.sound hinjected hst,
    wakeful_step h.wakeful hst, delivers_step h.owned.fresh h.delivers ha.plain hst,
    (standing_step ha.leaves hst).trans h.status⟩

/-- Nothing that was accepted for the agent is settled, unless the action is its own. -/
theorem settled_step (h : Hosts s id) (hst : s.step a = some t) (ha : ¬ SettlesFor s id a)
    {uids : List Nat} (huids : (acceptedOf s id).map StashedMessage.uid = uids) :
    t.settled.filter (fun q => q.1 ∈ uids) = s.settled.filter fun q => q.1 ∈ uids := by
  obtain ⟨-, more, heq, hmore⟩ := h.owned.settlesOnly hst
  rw [heq, List.filter_append]
  suffices hnone : more.filter (fun q => q.1 ∈ uids) = [] by rw [hnone, List.append_nil]
  rw [List.filter_eq_nil_iff]
  intro q hq hmem
  rw [decide_eq_true_eq, ← huids, acceptedOf, messagesOf, List.map_map, List.mem_map] at hmem
  obtain ⟨p, hp, huid⟩ := hmem
  rw [List.mem_filter, decide_eq_true_eq] at hp
  exact ha (hp.2 ▸ hmore q hq p hp.1 huid)

/-- An unbounded mailbox turns nobody away. -/
theorem settled_dispatch (h : Hosts s id) {message : V}
    (ha : a = .dispatchCast id message ∨ a = .dispatchCall id message)
    (hst : s.step a = some t) : t.settled = s.settled := by
  obtain ⟨-, more, heq, hmore⟩ := settlesOnly_step h.owned.possessed hst
  suffices hnone : more = [] by rw [heq, hnone, List.append_nil]
  rw [List.eq_nil_iff_forall_not_mem]
  intro q hq
  rcases hmore q hq with ⟨id', msg, -, -, hfor⟩ | ⟨-, id', message', heq', hmax⟩
  · rcases ha with rfl | rfl
    · exact hfor.2 (hfor.1 ▸ h.unbounded)
    · exact hfor.2 (hfor.1 ▸ h.unbounded)
  · rcases ha with rfl | rfl
    · cases heq'
    · cases heq'
      exact hmax h.unbounded

theorem acceptedOf_dispatchCast (h : Hosts s id) (message : V) :
    acceptedOf (s.dispatchCast id message) id =
      acceptedOf s id ++ [⟨s.nextUid, .cast, message⟩] := by
  have hlocal : id ∈ s.actors ∧ id ∈ s.mailboxes :=
    ⟨h.mem_actors, h.owned.fresh.mailboxes ▸ h.mem_actors⟩
  unfold Node.dispatchCast
  rw [if_pos hlocal]
  simp only [enqueue_accepted_of_unbounded h.unbounded]
  exact (congrArg View.accepted (view_scheduleProcessMailbox _ id id)).trans
    (congrArg View.accepted (view_accept_self _ id _))

theorem acceptedOf_dispatchCall (h : Hosts s id) (message : V) :
    acceptedOf (s.dispatchCall id message) id =
      acceptedOf s id ++ [⟨s.nextUid, .call, message⟩] := by
  have hlocal : id ∈ s.actors ∧ id ∈ s.mailboxes :=
    ⟨h.mem_actors, h.owned.fresh.mailboxes ▸ h.mem_actors⟩
  unfold Node.dispatchCall
  rw [if_pos hlocal]
  split_ifs
  · exact messagesOf_append_self id _ s.accepted
  · unfold Node.enqueueCall
    simp only [enqueue_accepted_of_unbounded h.unbounded]
    exact (congrArg View.accepted (view_scheduleProcessMailbox _ id id)).trans
      (congrArg View.accepted (view_accept_self _ id _))

/-- A call is started at once or gets its callbacks. -/
theorem dispatchCall_cases (h : Hosts s id) (message : V) :
    startedOf (s.dispatchCall id message) id =
        startedOf s id ++ [⟨s.nextUid, .call, message⟩] ∨
      s.nextUid ∈ (s.dispatchCall id message).awaited := by
  have hlocal : id ∈ s.actors ∧ id ∈ s.mailboxes :=
    ⟨h.mem_actors, h.owned.fresh.mailboxes ▸ h.mem_actors⟩
  unfold Node.dispatchCall
  rw [if_pos hlocal]
  split_ifs
  · exact .inl (messagesOf_append_self id _ s.started)
  · refine .inr ?_
    unfold Node.enqueueCall
    simp only [enqueue_accepted_of_unbounded h.unbounded]
    unfold Node.scheduleProcessMailbox
    split_ifs <;> exact Finset.mem_insert_self _ _

end Hosts

/-! ## What a return settles -/

section

variable {V : Type} (s : Node V) (id : ActorId)

theorem settled_processLoop (processed : Nat) :
    (s.processLoop id processed).settled = s.settled := by
  unfold Node.processLoop Node.processEnd
  dsimp only
  split_ifs
  · split <;> rfl
  · rfl
  · rfl

theorem settled_syncLocalCallFinally (prev : Option (StashedMessage V)) :
    (s.syncLocalCallFinally id prev).settled = s.settled := by
  unfold Node.syncLocalCallFinally
  dsimp only
  split_ifs <;> rfl

/-- A call is resolved with the result, when it has callbacks or is on the fast path. -/
theorem settled_afterReturn {task : System.Task V} {msg : StashedMessage V}
    (hstash : (s.object id).stash = []) (hdrains : Drains ⟨id, task, .handling msg⟩)
    (hawaited : ∀ n, task = .processMailbox n → msg.type = .call → msg.uid ∈ s.awaited)
    (hcall : ∀ prev, task = .syncLocalCall prev → msg.type = .call) (value : V) :
    (s.afterReturn id msg value task).settled =
      s.settled ++ if msg.type = .call then [(msg.uid, .resolved value)] else [] := by
  have hnot : s.wasStashed id msg = false := by simp [wasStashed, hstash]
  rcases hdrains with ⟨n, htask⟩ | ⟨prev, htask⟩
  · obtain rfl : task = .processMailbox n := htask
    unfold Node.afterReturn
    rw [settled_processLoop, setCurrentMessage_settled]
    by_cases htype : msg.type = .call
    · rw [if_pos ⟨htype, hnot, hawaited n rfl htype⟩, if_pos htype, settle_settled]
    · rw [if_neg fun h => htype h.1, if_neg htype, List.append_nil]
  · obtain rfl : task = .syncLocalCall prev := htask
    unfold Node.afterReturn
    rw [settled_syncLocalCallFinally, if_neg (by simp [hnot]), if_pos (hcall prev rfl),
      settle_settled]

end

/-! ## The invariant -/

/-- The handlers of `done` returned; the one of `running`, if any, is on the stack and has read
the state. -/
inductive Serves (s : AgentSystem T W) (done : List (Nat × Operation T)) :
    List (Nat × Operation T) → Prop
  | idle (handlers : footprint s.node s.id = atRest (done.map envelope)) (read : s.read = []) :
      Serves s done []
  | busy (p : Nat × Operation T) (task : System.Task (Value T W))
      (handlers : footprint s.node s.id = serving s.id task (envelope p) (done.map envelope))
      (drains : Drains ⟨s.id, task, .handling (envelope p)⟩) (read : s.read = [s.state])
      (awaited : ∀ n, task = .processMailbox n → p.2.type = .call → p.1 ∈ s.node.awaited)
      (call : ∀ prev, task = .syncLocalCall prev → p.2.type = .call) : Serves s done [p]

/-- The operations are those done, the one running and those that wait. -/
structure Linear (initialState : T) (s : AgentSystem T W)
    (done running queue : List (Nat × Operation T)) : Prop where
  hosts : Hosts s.node s.id
  serves : Serves s done running
  dispatched : s.dispatched = done ++ running ++ queue
  accepted : acceptedOf s.node s.id = s.dispatched.map envelope
  awaited : ∀ p ∈ queue, p.2.type = .call → p.1 ∈ s.node.awaited
  state : s.state = final answer initialState done
  settled : s.node.settled.filter (fun q => q.1 ∈ s.dispatched.map Prod.fst) =
    (answers initialState done).map resolution

section

variable {initialState : T} {s : AgentSystem T W} {node : Node (Value T W)}
  {a : Action (Value T W)} {done running queue : List (Nat × Operation T)}

/-- The handlers invoked by a step read the state. -/
theorem read_proceed (hst : s.node.step a = some node) :
    (s.proceed node).read = ((startedOf node s.id).drop (startedOf s.node s.id).length).map
      (fun _ => s.state) ++ s.read := by
  have hgrows : ∃ more, node.started = s.node.started ++ more := by
    rcases starts_step hst with ⟨id, msg, -, heq⟩ | ⟨-, heq⟩
    · exact ⟨[(id, msg)], heq⟩
    · exact ⟨[], by rw [heq, List.append_nil]⟩
  obtain ⟨more, heq⟩ := hgrows
  simp [AgentSystem.proceed, startedOf, messagesOf, heq, Function.comp_def]

theorem read_proceed_same (hst : s.node.step a = some node)
    (hstarted : startedOf node s.id = startedOf s.node s.id) :
    (s.proceed node).read = s.read := by
  rw [read_proceed hst, hstarted, List.drop_length]
  rfl

theorem read_proceed_start (hst : s.node.step a = some node) {msg : StashedMessage (Value T W)}
    (hstarted : startedOf node s.id = startedOf s.node s.id ++ [msg]) :
    (s.proceed node).read = s.state :: s.read := by
  rw [read_proceed hst, hstarted, List.drop_left]
  rfl

theorem Serves.eq_nil {started : List (StashedMessage (Value T W))} (h : Serves s done running)
    (hrest : footprint s.node s.id = atRest started) :
    running = [] ∧ s.read = [] ∧ started = done.map envelope := by
  cases h with
  | idle handlers read =>
      exact ⟨rfl, read, congrArg Footprint.started (hrest.symm.trans handlers)⟩
  | busy p task handlers =>
      have hrunning := congrArg Footprint.running (hrest.symm.trans handlers)
      cases hrunning

/-- A step in which the agent's handlers are left alone. -/
theorem Serves.proceed (h : Serves s done running) (hst : s.node.step a = some node)
    (hsame : footprint node s.id = footprint s.node s.id)
    (hawaited : s.node.awaited ⊆ node.awaited) : Serves (s.proceed node) done running := by
  have hread := read_proceed_same hst (congrArg Footprint.started hsame)
  cases h with
  | idle handlers read => exact .idle (hsame.trans handlers) (hread.trans read)
  | busy p task handlers drains read awaited call =>
      exact .busy p task (hsame.trans handlers) drains (hread.trans read)
        (fun n htask htype => hawaited (awaited n htask htype)) call

theorem acceptedOf_step {V : Type} {u v : Node V} {id : ActorId} {b : Action V}
    (hcast : ∀ message, b ≠ .dispatchCast id message)
    (hcall : ∀ message, b ≠ .dispatchCall id message) (hst : u.step b = some v) :
    acceptedOf v id = acceptedOf u id := by
  cases logged_step hst with
  | idle _ _ _ _ _ accepted => exact congrArg (messagesOf id) accepted
  | removed _ _ _ _ _ accepted => exact congrArg (messagesOf id) accepted
  | spawned _ _ _ _ _ _ accepted => exact congrArg (messagesOf id) accepted
  | accepted _ id' msg _ _ _ _ _ _ accepted sends =>
      have hne : id' ≠ id := by
        rintro rfl
        exact sends.elim (hcast _) (hcall _)
      rw [acceptedOf, accepted, messagesOf_append_of_ne hne]
      rfl

/-- The message that is started is the first that waits. -/
theorem started_eq_head {waiting : List (Nat × Operation T)} {msg : StashedMessage (Value T W)}
    (hhosts : Hosts node s.id)
    (haccepted : acceptedOf node s.id = (done ++ waiting).map envelope)
    (hstarted : startedOf node s.id = done.map envelope ++ [msg]) :
    ∃ p rest, waiting = p :: rest ∧ msg = envelope p := by
  obtain ⟨q, -, horder⟩ := hhosts.queue
  rw [hstarted, haccepted, List.map_append, List.append_assoc, List.append_cancel_left_eq]
    at horder
  cases waiting with
  | nil => cases horder
  | cons p rest => exact ⟨p, rest, rfl, (List.cons.inj horder).1⟩

theorem Linear.serial (h : Linear initialState s done running queue) :
    Serial s.id (footprint s.node s.id) := by
  cases h.serves with
  | idle handlers => exact .inl ⟨_, handlers⟩
  | busy p task handlers drains => exact .inr ⟨task, _, _, handlers, drains⟩

theorem uids_eq (h : Linear initialState s done running queue) :
    (acceptedOf s.node s.id).map StashedMessage.uid = s.dispatched.map Prod.fst := by
  rw [h.accepted, List.map_map]
  rfl

theorem Linear.uid_lt (h : Linear initialState s done running queue) {p : Nat × Operation T}
    (hp : p ∈ queue) : p.1 < s.node.nextUid := by
  have hmem : envelope p ∈ acceptedOf s.node s.id := by
    rw [h.accepted, h.dispatched]
    exact List.mem_map_of_mem (List.mem_append_right _ hp)
  obtain ⟨q, hq, heq⟩ := List.mem_map.1 hmem
  have hlt := h.hosts.owned.fresh.uids q (List.mem_of_mem_filter hq)
  rw [heq] at hlt
  exact hlt

/-- Whatever else happens on the node: at most the agent's next message is started. -/
theorem Linear.other (h : Linear initialState s done running queue)
    (ha : Harmless s.node s.id a) (hundisturbed : Undisturbed s.node s.id a)
    (hsettles : ¬ SettlesFor s.node s.id a)
    (haccepted : acceptedOf node s.id = acceptedOf s.node s.id)
    (hcalls : ∀ message, a ≠ .dispatchCall s.id message) (hst : s.node.step a = some node) :
    ∃ running' queue', Linear initialState (s.proceed node) done running' queue' := by
  have hhosts := h.hosts.step ha hst
  have hawaited := (h.hosts.owned.settlesOnly hst).awaited
  have hsettled := (h.hosts.settled_step hst hsettles (uids_eq h)).trans h.settled
  rcases footprint_step h.hosts.sound h.serial hundisturbed hst with
    hsame | ⟨hrest, task, msg, hinvokes, hserving⟩
  · exact ⟨running, queue, hhosts, h.serves.proceed hst hsame hawaited, h.dispatched,
      haccepted.trans h.accepted, fun p hp htype => hawaited (h.awaited p hp htype), h.state,
      hsettled⟩
  · obtain ⟨rfl, hread, hdone⟩ := h.serves.eq_nil hrest
    obtain ⟨n, -, rfl⟩ := hinvokes.resolve_left fun ⟨message, _, heq, _⟩ => hcalls message heq
    have hstarted : startedOf node s.id = startedOf s.node s.id ++ [msg] :=
      congrArg Footprint.started hserving
    have hwaiting : acceptedOf node s.id = (done ++ queue).map envelope := by
      rw [haccepted, h.accepted, h.dispatched, List.append_nil]
    obtain ⟨p, rest, rfl, rfl⟩ :=
      started_eq_head hhosts hwaiting (hdone ▸ hstarted)
    refine ⟨[p], rest, hhosts, ?_, ?_, haccepted.trans h.accepted, ?_, h.state, hsettled⟩
    · refine .busy p (.processMailbox n) (hdone ▸ hserving) (.inl ⟨n, rfl⟩) ?_ ?_ (by simp)
      · rw [read_proceed_start hst hstarted, hread]
        rfl
      · exact fun _ _ htype => hawaited (h.awaited p List.mem_cons_self htype)
    · rw [AgentSystem.proceed, h.dispatched, List.append_nil, List.append_assoc]
      rfl
    · exact fun p' hp' htype => hawaited (h.awaited p' (List.mem_cons_of_mem p hp') htype)

/-- An operation is started at once on the fast path, or waits behind the others. -/
theorem Linear.operation (h : Linear initialState s done running queue) (op : Operation T)
    (hst : s.node.step (op.action s.id) = some node) :
    ∃ running' queue', Linear initialState
      { s.proceed node with dispatched := s.dispatched ++ [(s.node.nextUid, op)] }
      done running' queue' := by
  have hcases := action_cases (W := W) s.id op
  have hsends := hcases.imp And.right And.right
  have hharmless : Harmless s.node s.id (op.action s.id) := by
    rcases hsends with heq | heq <;> rw [heq] <;> exact ⟨trivial, trivial, trivial⟩
  have hundisturbed : Undisturbed s.node s.id (op.action s.id) := by
    rcases hsends with heq | heq <;> rw [heq] <;> trivial
  have hhosts := h.hosts.step hharmless hst
  have hawaited := (h.hosts.owned.settlesOnly hst).awaited
  have haccepted : acceptedOf node s.id =
      (s.dispatched ++ [(s.node.nextUid, op)]).map envelope := by
    rw [List.map_append, ← h.accepted]
    rcases hcases with ⟨htype, heq⟩ | ⟨htype, heq⟩
    · rw [heq] at hst
      cases hst
      rw [h.hosts.acceptedOf_dispatchCast, List.map_singleton, envelope, htype]
    · rw [heq] at hst
      cases hst
      rw [h.hosts.acceptedOf_dispatchCall, List.map_singleton, envelope, htype]
  have hsettled : node.settled.filter
      (fun q => q.1 ∈ (s.dispatched ++ [(s.node.nextUid, op)]).map Prod.fst) =
        (answers initialState done).map resolution := by
    rw [← h.settled, h.hosts.settled_dispatch hsends hst]
    apply List.filter_congr
    intro q hq
    have hne : q.1 ≠ s.node.nextUid := (h.hosts.owned.settled q hq).ne
    simp [hne]
  rcases footprint_step h.hosts.sound h.serial hundisturbed hst with
    hsame | ⟨hrest, task, msg, hinvokes, hserving⟩
  · have hserves := h.serves.proceed hst hsame hawaited
    refine ⟨running, queue ++ [(s.node.nextUid, op)], hhosts, ?_, ?_, haccepted, ?_, h.state,
      hsettled⟩
    · cases hserves with
      | idle handlers read => exact .idle handlers read
      | busy p task handlers drains read awaited call =>
          exact .busy p task handlers drains read awaited call
    · rw [h.dispatched, List.append_assoc]
    · rw [List.forall_mem_append, List.forall_mem_singleton]
      refine ⟨fun p hp htype => hawaited (h.awaited p hp htype), fun htype => ?_⟩
      -- a call that was not started at once has its callbacks
      have heq := (hcases.resolve_left fun hcast => by rw [hcast.1] at htype; cases htype).2
      rw [heq] at hst
      cases hst
      refine (h.hosts.dispatchCall_cases _).resolve_left fun hstarted => ?_
      have hlength := congrArg (fun f => f.started.length) hsame
      simp [footprint, hstarted] at hlength
  · obtain ⟨rfl, hread, hdone⟩ := h.serves.eq_nil hrest
    have hstarted : startedOf node s.id = startedOf s.node s.id ++ [msg] :=
      congrArg Footprint.started hserving
    have hwaiting : acceptedOf node s.id =
        (done ++ (queue ++ [(s.node.nextUid, op)])).map envelope := by
      rw [haccepted, h.dispatched, List.append_nil, List.append_assoc]
    obtain ⟨p, rest, hfirst, rfl⟩ := started_eq_head hhosts hwaiting (hdone ▸ hstarted)
    rcases hinvokes with ⟨message, prev, heq, hmsg, rfl⟩ | ⟨n, heq, -⟩
    · have huid : p.1 = s.node.nextUid := congrArg StashedMessage.uid hmsg
      have htype : p.2.type = .call := congrArg StashedMessage.type hmsg
      have hnew : p ∉ queue := fun hp => (h.uid_lt hp).ne huid
      cases queue with
      | cons p' queue =>
          obtain rfl : p' = p := (List.cons.inj hfirst).1
          exact absurd List.mem_cons_self hnew
      | nil =>
          obtain ⟨rfl, rfl⟩ := List.cons.inj hfirst
          refine ⟨[(s.node.nextUid, op)], [], hhosts, ?_, ?_, haccepted, by simp, h.state, hsettled⟩
          · refine .busy _ (.syncLocalCall prev) (hdone ▸ hserving) (.inr ⟨prev, rfl⟩) ?_
              (fun n heq => by cases heq) fun _ _ => htype
            exact (read_proceed_start hst hstarted).trans (congrArg (s.state :: ·) hread)
          · rw [h.dispatched, List.append_nil, List.append_nil, List.append_nil]
    · rcases hsends with hsends | hsends <;> rw [hsends] at heq <;> cases heq

/-- What the agent's handler is about to do. -/
theorem Linear.returning {id : ActorId} {task : System.Task (Value T W)}
    {msg : StashedMessage (Value T W)} {rest : List (Runner (Value T W))}
    (h : Linear initialState s done running queue)
    (hstack : s.node.stack = ⟨id, task, .handling msg⟩ :: rest) (hid : id = s.id) :
    ∃ p, running = [p] ∧ msg = envelope p ∧ s.read = [s.state] ∧
      footprint s.node s.id = serving s.id task (envelope p) (done.map envelope) ∧
      Drains ⟨s.id, task, .handling (envelope p)⟩ ∧
      (∀ n, task = .processMailbox n → p.2.type = .call → p.1 ∈ s.node.awaited) ∧
      (∀ prev, task = .syncLocalCall prev → p.2.type = .call) := by
  subst hid
  have htop : (footprint s.node s.id).running =
      ⟨s.id, task, .handling msg⟩ :: rest.filter fun r => r.id = s.id := by
    simp [footprint, hstack]
  cases h.serves with
  | idle handlers read =>
      rw [handlers] at htop
      cases htop
  | busy p task' handlers drains read awaited call =>
      rw [handlers] at htop
      obtain ⟨heq, -⟩ := List.cons.inj htop
      cases heq
      exact ⟨p, rfl, rfl, read, handlers, drains, awaited, call⟩

/-- The handler returns: its operation is done, and the batch may start the next. -/
theorem Linear.handlerReturns {t : AgentSystem T W}
    (h : Linear initialState s done running queue) (hst : s.handlerReturns = some t) :
    ∃ done' running' queue', Linear initialState t done' running' queue' := by
  unfold AgentSystem.handlerReturns at hst
  split at hst
  next id task msg rest state read hstack hread =>
    split_ifs at hst with hid
    obtain ⟨p, rfl, rfl, hread', handlers, drains, awaited, call⟩ := h.returning hstack hid
    subst hid
    obtain ⟨rfl, rfl⟩ := List.cons.inj (hread.symm.trans hread')
    simp only [handle_envelope, Option.map_eq_some_iff] at hst
    obtain ⟨node, hst, rfl⟩ := hst
    let value : Value T W := (p.2.apply s.state).1.elim .undefined .state
    have hstep : s.node.step (.handlerReturns value) = some node := hst
    have hharmless : Harmless s.node s.id (.handlerReturns value) := ⟨trivial, trivial, trivial⟩
    have hhosts := h.hosts.step hharmless hstep
    have hmono := (h.hosts.owned.settlesOnly hstep).awaited
    have haccepted : acceptedOf node s.id = s.dispatched.map envelope :=
      (acceptedOf_step (fun _ => by simp) (fun _ => by simp) hstep).trans h.accepted
    have hdispatched : s.dispatched = (done ++ [p]) ++ queue := h.dispatched
    have hstate : (p.2.apply s.state).2 = final answer initialState (done ++ [p]) := by
      rw [final_snoc, ← h.state]
      rfl
    have hsettled : node.settled.filter (fun q => q.1 ∈ s.dispatched.map Prod.fst) =
        (answers initialState (done ++ [p])).map resolution := by
      have hafter : node.settled = s.node.settled ++
          if (envelope (W := W) p).type = .call then [(p.1, .resolved value)] else [] := by
        obtain ⟨id', task', msg', rest', hstack', rfl⟩ := handlerReturns_some hst
        rw [hstack] at hstack'
        cases hstack'
        exact settled_afterReturn { s.node with stack := rest } s.id h.hosts.delivers.stash drains
          awaited call value
      rw [hafter, List.filter_append, h.settled, answers_snoc, List.map_append, ← h.state,
        resolution_answer, List.append_cancel_left_eq, List.filter_eq_self]
      intro q hq
      have huid : q.1 = p.1 := by
        split_ifs at hq
        · exact congrArg Prod.fst (List.mem_singleton.1 hq)
        · cases hq
      rw [decide_eq_true_eq, huid, hdispatched]
      exact List.mem_map_of_mem (by simp)
    have hstarted : startedOf s.node s.id = done.map envelope ++ [envelope p] :=
      congrArg Footprint.started handlers
    rcases footprint_handlerReturns h.hosts.sound hstack handlers drains value hst with
      hrest | ⟨n, msg', hserving⟩
    · refine ⟨done ++ [p], [], queue, hhosts, ?_, ?_, haccepted, ?_, hstate, hsettled⟩
      · refine .idle (by rw [List.map_append]; exact hrest) ?_
        exact read_proceed_same (s := { s with state := (p.2.apply s.state).2, read := [] }) hstep
          ((congrArg Footprint.started hrest).trans hstarted.symm)
      · rw [List.append_nil]
        exact hdispatched
      · exact fun p' hp' htype => hmono (h.awaited p' hp' htype)
    · have hstarted' : startedOf node s.id = (done ++ [p]).map envelope ++ [msg'] := by
        rw [List.map_append]
        exact congrArg Footprint.started hserving
      obtain ⟨p', rest', rfl, rfl⟩ :=
        started_eq_head hhosts (haccepted.trans (congrArg _ hdispatched)) hstarted'
      refine ⟨done ++ [p], [p'], rest', hhosts, ?_, ?_, haccepted, ?_, hstate, hsettled⟩
      · refine .busy p' (.processMailbox n) (by rw [List.map_append]; exact hserving)
          (.inl ⟨n, rfl⟩) ?_ ?_ (by simp)
        · have hnext : startedOf node s.id = startedOf s.node s.id ++ [envelope p'] := by
            rw [hstarted', hstarted, List.map_append]
            rfl
          exact read_proceed_start (s := { s with state := (p.2.apply s.state).2, read := [] })
            hstep hnext
        · exact fun _ _ htype => hmono (h.awaited p' List.mem_cons_self htype)
      · rw [List.append_assoc]
        exact hdispatched
      · exact fun p'' hp htype => hmono (h.awaited p'' (List.mem_cons_of_mem p' hp) htype)
  next => cases hst

theorem linear_timeout {t : AgentSystem T W} {uid : Nat}
    (h : Linear initialState s done running queue) (hst : s.timeout uid = some t) :
    Linear initialState t done running queue := by
  unfold AgentSystem.timeout at hst
  split_ifs at hst
  cases hst
  refine ⟨h.hosts, ?_, h.dispatched, h.accepted, h.awaited, h.state, h.settled⟩
  cases h.serves with
  | idle handlers read => exact .idle handlers read
  | busy p task handlers drains read awaited call =>
      exact .busy p task handlers drains read awaited call

/-! ### Actions the agent is not party to -/

theorem harmless_of_allows (hhosts : Hosts s.node s.id) (ha : s.Allows a = true) :
    Harmless s.node s.id a := by
  have hold : s.id ≠ s.node.nextId := (hhosts.owned.fresh.actors s.id hhosts.mem_actors).ne
  constructor
  · cases a <;> trivial
  · cases a <;> first | trivial | exact bne_iff_ne.1 ha
  · cases a <;> first | trivial | exact bne_iff_ne.1 ha

theorem ne_of_not_isRunning (h : (!s.isRunning) = true) (r : Runner (Value T W))
    (rest : List (Runner (Value T W))) (hstack : s.node.stack = r :: rest) : r.id ≠ s.id := by
  simpa [AgentSystem.isRunning, hstack] using h

theorem undisturbed_of_allows (ha : s.Allows a = true) : Undisturbed s.node s.id a := by
  cases a <;> first | trivial | exact bne_iff_ne.1 ha | exact ne_of_not_isRunning ha

theorem not_settlesFor_of_allows (ha : s.Allows a = true) : ¬ SettlesFor s.node s.id a := by
  have htop : (!s.isRunning) = true → ¬ ∃ r rest, s.node.stack = r :: rest ∧ r.id = s.id :=
    fun hrunning ⟨r, rest, hstack, hid⟩ => ne_of_not_isRunning hrunning r rest hstack hid
  cases a with
  | dispatchCast id | dispatchCall id => exact fun h => bne_iff_ne.1 ha h.1
  | clearStash id => exact fun h => bne_iff_ne.1 ha h
  | handlerReturns value | handlerThrows error => exact htop ha
  | _ => exact id

theorem sends_elsewhere_of_allows (ha : s.Allows a = true) (message : Value T W) :
    a ≠ .dispatchCast s.id message ∧ a ≠ .dispatchCall s.id message := by
  constructor
  · rintro rfl
    exact bne_iff_ne.1 ha rfl
  · rintro rfl
    exact bne_iff_ne.1 ha rfl

/-! ### Runs -/

theorem linear_step {t : AgentSystem T W} {b : AgentAction T W}
    (h : Linear initialState s done running queue) (hst : s.step b = some t) :
    ∃ done' running' queue', Linear initialState t done' running' queue' := by
  cases b with
  | operation op =>
      obtain ⟨node, hnode, rfl⟩ := Option.map_eq_some_iff.1 hst
      exact ⟨done, h.operation op hnode⟩
  | handlerReturns => exact h.handlerReturns hst
  | timeout uid => exact ⟨done, running, queue, linear_timeout h hst⟩
  | other a =>
      simp only [AgentSystem.step] at hst
      split_ifs at hst with hallows
      obtain ⟨node, hnode, rfl⟩ := Option.map_eq_some_iff.1 hst
      have haccepted := acceptedOf_step
        (fun message => (sends_elsewhere_of_allows hallows message).1)
        (fun message => (sends_elsewhere_of_allows hallows message).2) hnode
      exact ⟨done, h.other (harmless_of_allows h.hosts hallows) (undisturbed_of_allows hallows)
        (not_settlesFor_of_allows hallows) haccepted
        (fun message => (sends_elsewhere_of_allows hallows message).2) hnode⟩

end

/-- What holds of every node without injected messages. -/
structure Reached {V : Type} (s : Node V) : Prop where
  owned : Owned s
  sound : Sound s
  wakeful : Wakeful ∅ s
  paused : ∀ id ∈ s.pausedMailboxes, id < s.nextId
  /-- An instance that does not exist yet has no handlers. -/
  unborn : ∀ id, s.nextId ≤ id → footprint s id = atRest []

section

variable {V : Type} {s t : Node V} {a : Action V}

theorem reached_init : Reached (init : Node V) where
  owned := owned_init
  sound := sound_init
  wakeful := wakeful_init
  paused := by simp [init]
  unborn := by simp [footprint, atRest, startedOf, messagesOf, init]

theorem unborn_step (h : Reached s) (hst : s.step a = some t) {id : ActorId}
    (hid : s.nextId ≤ id) (hid' : t.nextId ≤ id) : footprint t id = atRest [] := by
  have hnone := h.unborn id hid
  have hdead : id ∉ s.actors := fun hmem => (h.owned.fresh.actors id hmem).not_ge hid
  have htop : ∀ r rest, s.stack = r :: rest → r.id ≠ id := by
    intro r rest hstack heq
    have hrunning := congrArg Footprint.running hnone
    simp [footprint, atRest, hstack, heq] at hrunning
  by_cases hundisturbed : Undisturbed s id a
  · rcases footprint_step h.sound (.inl ⟨[], hnone⟩) hundisturbed hst with
      hsame | ⟨-, task, msg, -, hserving⟩
    · exact hsame.trans hnone
    · have hstarted : startedOf t id = [] :=
        messagesOf_eq_nil fun p hp => ((fresh_step h.owned.fresh hst).started p hp).trans_le hid'
      rw [show startedOf t id = _ from congrArg Footprint.started hserving] at hstarted
      simp [serving] at hstarted
  · cases a with
    | rpcCall id' message =>
        obtain rfl : id' = id := not_not.1 hundisturbed
        cases hst
        rw [handleRpcCall, if_neg hdead]
        exact hnone
    | rpcCast id' message =>
        obtain rfl : id' = id := not_not.1 hundisturbed
        cases hst
        rw [handleRpcCast, if_neg hdead]
        exact hnone
    | syncLocalCast id' message =>
        obtain rfl : id' = id := not_not.1 hundisturbed
        cases hst
        rw [Node.syncLocalCast, if_pos (.inl hdead)]
        exact hnone
    | handlerAwaits | handlerReturns value | handlerThrows error | crashHandled =>
        exact absurd htop hundisturbed
    | _ => exact absurd trivial hundisturbed

theorem reached_step (h : Reached s) (ha : NoInjection a) (hst : s.step a = some t) :
    Reached t := by
  have hinjected : InjectsMessages a := by
    cases a with
    | injectMessages => exact ha.elim
    | _ => trivial
  have hnext := (logged_step hst).nextId_le
  exact ⟨owned_step h.owned ha hst, sound_step h.sound hinjected hst, wakeful_step h.wakeful hst,
    paused_step h.owned.fresh h.paused hst, fun id hid =>
      unborn_step h hst (hnext.trans hid) hid⟩

end

/-- An agent starts with nothing done. -/
theorem linear_start {node : Node (Value T W)} (h : Reached node) {config : MailboxConfig}
    (hunbounded : config.maxSize = none) (initialState : T) :
    Linear initialState (AgentSystem.start node config initialState) [] [] [] := by
  have hspawn : node.step (.spawn config false) = some (node.spawn config false) := rfl
  have hreached := reached_step (a := .spawn config false) h trivial hspawn
  have hspawned : node.spawn config false =
      (node.install config).scheduleProcessMailbox node.nextId := if_neg Bool.false_ne_true
  have hnew : node.nextId ∉ node.pausedMailboxes := fun hmem => (h.paused _ hmem).false
  have hfootprint : footprint (node.spawn config false) node.nextId = atRest [] := by
    rw [← h.unborn node.nextId le_rfl, hspawned]
    unfold Node.scheduleProcessMailbox
    split_ifs <;> rfl
  refine ⟨⟨hreached.owned, hreached.sound, hreached.wakeful, ?_, ?_⟩, .idle hfootprint rfl, rfl, ?_,
    by simp, rfl, ?_⟩
  · change Delivers (view (node.spawn config false) node.nextId)
    rw [hspawned, view_scheduleProcessMailbox]
    exact delivers_new h.owned.fresh config
  · change standing (node.spawn config false) node.nextId = _
    rw [hspawned, standing_scheduleProcessMailbox]
    simp [standing, mailbox, hnew, BoundedMailbox.new, hunbounded]
  · change acceptedOf (node.spawn config false) node.nextId = []
    rw [hspawned, show acceptedOf _ node.nextId = _ from
      congrArg View.accepted (view_scheduleProcessMailbox (node.install config) _ _)]
    exact messagesOf_eq_nil h.owned.fresh.accepted
  · simp [AgentSystem.start, answers, replies]

/-- The operations of a run, in the order they were dispatched. -/
def operations (actions : List (AgentAction T W)) : List (Operation T) :=
  actions.filterMap fun
    | .operation op => some op
    | _ => none

theorem dispatched_run {s t : AgentSystem T W} {actions : List (AgentAction T W)}
    (hrun : run AgentSystem.step s actions = some t) :
    t.dispatched.map Prod.snd = s.dispatched.map Prod.snd ++ operations actions := by
  induction actions generalizing s with
  | nil =>
      cases hrun
      exact (List.append_nil _).symm
  | cons a actions ih =>
      obtain ⟨u, hst, hrest⟩ := run_cons_eq_some.1 hrun
      rw [ih hrest]
      cases a with
      | operation op =>
          obtain ⟨node, -, rfl⟩ := Option.map_eq_some_iff.1 hst
          simp [operations]
      | handlerReturns =>
          simp only [AgentSystem.step, AgentSystem.handlerReturns] at hst
          split at hst
          next =>
            split_ifs at hst
            obtain ⟨node, -, rfl⟩ := Option.map_eq_some_iff.1 hst
            rfl
          next => cases hst
      | timeout uid =>
          simp only [AgentSystem.step, AgentSystem.timeout] at hst
          split_ifs at hst
          cases hst
          rfl
      | other a =>
          simp only [AgentSystem.step] at hst
          split_ifs at hst
          obtain ⟨node, -, rfl⟩ := Option.map_eq_some_iff.1 hst
          rfl

section

variable {initialState : T} {s : AgentSystem T W} {done running queue : List (Nat × Operation T)}

/-- When nothing is left to do for the agent, every operation is done. -/
theorem Linear.done_of_idle (h : Linear initialState s done running queue) (hidle : s.Idle) :
    done = s.dispatched := by
  have hrest : footprint s.node s.id = atRest (done.map envelope) := by
    cases h.serves with
    | idle handlers => exact handlers
    | busy p task handlers =>
        have hrunning : (s.node.stack.filter fun r => r.id = s.id) = [] := by
          rw [List.filter_eq_nil_iff]
          exact fun r hr hid => hidle.2 r hr (of_decide_eq_true hid)
        have htop := congrArg Footprint.running handlers
        rw [show (footprint s.node s.id).running = [] from hrunning] at htop
        cases htop
  have hawaiting : ∀ r ∈ s.node.suspended, r.id ≠ s.id := by
    have hnone := congrArg Footprint.awaiting hrest
    rw [show (footprint s.node s.id).awaiting = s.node.suspended.filter fun r => r.id = s.id
      from rfl] at hnone
    intro r hr hid
    exact List.filter_eq_nil_iff.1 hnone r hr (decide_eq_true hid)
  have hempty : (s.node.mailbox s.id).length = 0 := by
    by_contra hpos
    rcases h.hosts.wakeful.waiting s.id (by simp)
        ⟨h.hosts.mem_actors, Nat.pos_of_ne_zero hpos, h.hosts.not_mem_paused⟩ with
      htick | ⟨r, hr, hid, -⟩
    · exact hidle.1 htick
    · rcases List.mem_append.1 hr with hr | hr
      · exact hidle.2 r hr hid
      · exact hawaiting r hr hid
  obtain ⟨q, hq, horder⟩ := h.hosts.queue
  have hnil : q = [] := List.length_eq_zero_iff.1 (hq.size_eq.symm.trans hempty)
  rw [hnil, List.append_nil, h.accepted] at horder
  have hstarted : startedOf s.node s.id = done.map envelope := congrArg Footprint.started hrest
  exact List.map_injective_iff.2 envelope_injective (hstarted.symm.trans horder)

theorem Linear.nodup (h : Linear initialState s done running queue) :
    (s.dispatched.map Prod.fst).Nodup := by
  rw [← uids_eq h, acceptedOf, messagesOf, List.map_map]
  exact (List.filter_sublist.map _).nodup h.hosts.owned.fresh.nodup

/-- Every call that was answered got what the operations give one after another. -/
theorem Linear.delivered (h : Linear initialState s done running queue) :
    s.delivered = ((answers initialState done).map resolution).filter
      fun q => q.1 ∉ s.timedOut := by
  rw [AgentSystem.delivered, ← h.settled, List.filter_filter]
  simp [Bool.and_comm]

end

/-- Agents are linearizable: the operations whose handlers returned are the first ones in dispatch
order, the state and the replies are those of applying them one after another, and when nothing is
left to do they are all the operations. -/
theorem agents_linearizable {before : List (Action (Value T W))} {node : Node (Value T W)}
    (hbefore : ∀ a ∈ before, NoInjection a) (hnode : run Node.step init before = some node)
    {config : MailboxConfig} (hunbounded : config.maxSize = none) (initialState : T)
    {actions : List (AgentAction T W)} {s : AgentSystem T W}
    (hrun : run AgentSystem.step (AgentSystem.start node config initialState) actions = some s) :
    s.dispatched.map Prod.snd = operations actions ∧ (s.dispatched.map Prod.fst).Nodup ∧
      ∃ done, done <+: s.dispatched ∧ s.state = final answer initialState done ∧
        s.delivered = ((answers initialState done).map resolution).filter
          (fun q => q.1 ∉ s.timedOut) ∧
        (s.Idle → done = s.dispatched) := by
  have hreached : Reached node := run_invariant (fun _ _ _ h ha hst => reached_step h ha hst)
    reached_init (along_of_forall_mem hbefore init) hnode
  obtain ⟨done, running, queue, h⟩ :=
    run_invariant' (I := fun s => ∃ done running queue, Linear initialState s done running queue)
      (fun _ _ _ ⟨_, _, _, h⟩ hst => linear_step h hst)
      ⟨[], [], [], linear_start hreached hunbounded initialState⟩ hrun
  refine ⟨dispatched_run hrun, h.nodup, done, ?_, h.state, h.delivered, h.done_of_idle⟩
  rw [h.dispatched, List.append_assoc]
  exact List.prefix_append done _

/-- A call on the fast path, and a cast and two calls through the mailbox. -/
def counterRun : List (AgentAction Nat Unit) :=
  [.operation (.update (· + 1)), .operation (.cast (· * 2)), .operation .get, .handlerReturns,
    .operation (.getAndUpdate (· + 5)), .other (.tick 1), .handlerReturns, .handlerReturns,
    .handlerReturns]

theorem agents_linearizable_counter :
    ∃ node s, run Node.step init [.spawn {} false] = some node ∧
      run AgentSystem.step (AgentSystem.start node {} 0) counterRun = some s ∧
      s.delivered = [(0, .resolved (.state 1)), (2, .resolved (.state 2)),
        (3, .resolved (.state 2))] ∧ s.state = 7 ∧
      ∃ done, done <+: s.dispatched ∧ s.state = final answer 0 done := by
  have hnode : ∃ node, run Node.step (init : Node (Value Nat Unit)) [.spawn {} false] = some node ∧
      ∃ s, run AgentSystem.step (AgentSystem.start node {} 0) counterRun = some s ∧
        s.delivered = [(0, .resolved (.state 1)), (2, .resolved (.state 2)),
          (3, .resolved (.state 2))] ∧ s.state = 7 := ⟨_, rfl, _, rfl, rfl, rfl⟩
  obtain ⟨node, hnode, s, hrun, hdelivered, hstate⟩ := hnode
  obtain ⟨-, -, done, hprefix, hfinal, -⟩ :=
    agents_linearizable (by simp [NoInjection]) hnode
      (show ({} : MailboxConfig).maxSize = none from rfl) 0 hrun
  exact ⟨node, s, hnode, hrun, hdelivered, hstate, done, hprefix, hfinal⟩

end Libeam.Proofs.AgentOrder
