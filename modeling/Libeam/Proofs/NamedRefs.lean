import Libeam.Migration.Routing
import Libeam.Proofs.SingleInstance
/-!
# Where a named reference leads

A dispatch takes the node from the registry and the identifier from the reference.  The two
belong to one instance only if the reference was made for the instance the name now resolves
to.
-/

namespace Libeam.Proofs.NamedRefs

open Libeam.System Registry Migration Lib.Transition History HostSteps Migration.MigrateSteps
open ExecuteSteps
open Handover (host_setHost)
open SingleInstance (system_handleMigratePrepare)

variable {N V : Type}

/-! ## Every instance has a mailbox -/

def Housed (s : Node V) : Prop := s.mailboxes = s.actors

namespace Housed

variable {s t : Node V}

theorem init : Housed (.init : Node V) := rfl

theorem of_log (h : Housed s) (hlog : log t = log s) : Housed t :=
  (congrArg Log.mailboxes hlog).trans (h.trans (congrArg Log.actors hlog).symm)

theorem step {a : Action V} (h : Housed s) (hst : s.step a = some t) : Housed t := by
  unfold Housed at h ⊢
  cases logged_step hst with
  | idle _ actors mailboxes | accepted _ _ _ _ _ actors mailboxes => rw [mailboxes, actors, h]
  | removed id actors mailboxes | spawned _ _ actors mailboxes => rw [mailboxes, actors, h]

theorem setMailbox (h : Housed s) (id : ActorId)
    (mailbox : Libeam.Mailbox.BoundedMailbox (StashedMessage V)) :
    Housed (s.setMailbox id mailbox) := h

theorem injectMessages (h : Housed s) (id : ActorId)
    (messages : List (Option (StashedMessage V))) : Housed (s.injectMessages id messages) :=
  h.step (a := .injectMessages id messages) rfl

theorem resumeMailbox (h : Housed s) (id : ActorId) : Housed (s.resumeMailbox id) :=
  h.step (a := .resumeMailbox id) rfl

theorem pauseMailbox (h : Housed s) (id : ActorId) : Housed (s.pauseMailbox id) :=
  h.step (a := .pauseMailbox id) rfl

theorem remove (h : Housed s) (id : ActorId) : Housed (s.remove id) :=
  h.step (a := .remove id) rfl

theorem install (h : Housed s) (config : Libeam.Mailbox.MailboxConfig) :
    Housed (s.install config) := congrArg (insert s.nextId) h

theorem rejectPendingCalls (h : Housed s) {id : ActorId} {actorName targetNodeId : String}
    (heq : Libeam.Migration.rejectPendingCalls s id actorName targetNodeId = some t) :
    Housed t := by
  unfold Libeam.Migration.rejectPendingCalls at heq
  split_ifs at heq
  · obtain ⟨msgs, -, rfl⟩ := Option.map_eq_some_iff.1 heq
    exact h
  · cases heq
    exact h

variable [LinearOrder N]

theorem host {h h' : Host N V} {a : HostAction N V} (hh : Housed h.system)
    (hst : h.step a = some h') : Housed h'.system := by
  rcases system_step hst with ⟨b, -, hb⟩ | ⟨-, heq⟩
  · exact hh.step hb
  · rw [heq]
    exact hh

omit [LinearOrder N] in
theorem drainLoop {src : Source N V} (h : Housed src.host.system) (reservationId : ReservationId)
    (timedOut : Bool) : Housed (src.drainLoop reservationId timedOut).host.system := by
  unfold Source.drainLoop
  split_ifs
  · exact h
  · exact h.setMailbox src.id _

theorem source {src src' : Source N V} {a : SourceAction V} (h : Housed src.host.system)
    (hst : src.step a = some src') : Housed src'.host.system := by
  cases source_steps hst with
  | node b t _ step eq =>
      rw [eq]
      exact h.step step
  | drains _ reservationId timedOut _ eq =>
      rw [eq]
      unfold Source.drainMailbox
      split_ifs
      · exact h
      · exact (h.pauseMailbox src.id).drainLoop reservationId timedOut
  | givesUp _ _ _ eq =>
      rw [eq]
      exact h.resumeMailbox src.id
  | polls _ reservationId timedOut _ eq =>
      rw [eq]
      exact h.drainLoop reservationId timedOut
  | executes _ _ _ _ _ eq =>
      rw [eq]
      unfold Source.execute
      split <;> exact h
  | rollsBack _ _ _ eq | unregisters _ _ _ _ _ eq =>
      rw [eq]
      exact h
  | restores _ _ _ eq =>
      rw [eq]
      exact (h.injectMessages src.id _).resumeMailbox src.id
  | finishes _ _ eq =>
      rw [eq]
      exact h.remove src.id

theorem confirm {t : Target N V} (h : Housed t.host.system) (now : Nat)
    (publishError : Option String) : Housed (t.confirm now publishError).host.system := by
  unfold Target.confirm
  dsimp only
  split <;> exact h

omit [LinearOrder N] in
theorem inject {t : Target N V} (h : Housed t.host.system) : Housed t.inject.host.system := by
  have hnumbered (n : Nat) : Housed { t.host.system with nextUid := n } := h
  exact (hnumbered _).injectMessages t.instanceId _

theorem target {t u : Target N V} {a : TargetAction N V} (h : Housed t.host.system)
    (hst : t.step a = some u) : Housed u.host.system := by
  cases target_steps hst with
  | host b h' step eq =>
      rw [eq]
      exact h.host step
  | sets _ _ _ _ eq | initFails _ _ eq | stateFails _ _ eq | rejected _ _ eq | released _ _ eq =>
      rw [eq]
      exact h
  | skipsState now publishError _ _ eq | stateSet now publishError _ eq =>
      rw [eq]
      exact h.inject.confirm now publishError
  | confirmed _ eq =>
      rw [eq]
      exact h.of_log (log_scheduleProcessMailbox _ t.instanceId)
  | refused _ eq =>
      rw [eq]
      exact h.remove t.instanceId

omit [LinearOrder N] in
theorem start {h : Host N V} (hh : Housed h.system) (request : MigrateExecuteRequest N V)
    (constructorError : Option String) :
    Housed (Target.start h request constructorError).host.system := by
  unfold Target.start
  dsimp only
  split_ifs
  · cases constructorError with
    | some error => exact hh
    | none => exact hh.install h.defaultMailboxConfig
  · exact hh

end Housed

/-- Every instance of the cluster has a mailbox. -/
def AllHoused (s : Migrations N V) : Prop := ∀ n, Housed (s.host n).system

namespace AllHoused

variable [LinearOrder N] {s t : Migrations N V}

theorem setHost (h : AllHoused s) (n : N) {host : Host N V} (hhost : Housed host.system) :
    AllHoused (s.setHost n host) := by
  intro n'
  rw [host_setHost]
  split_ifs with hn
  · exact hhost
  · exact h n'

theorem advance (h : AllHoused s) {i : Nat} {m : Session N V} {a : SourceAction V}
    (hst : s.advance i m a = some t) : AllHoused t := by
  obtain ⟨src, hsrc, rfl⟩ := Option.map_eq_some_iff.1 hst
  exact h.setHost m.call.node (Housed.source (h m.call.node) hsrc)

theorem reply (h : AllHoused s) (i : Nat) (m : Session N V) (a : SourceAction V) :
    AllHoused (s.reply i m a) := by
  unfold Migrations.reply
  cases hadvance : s.advance i m a with
  | none => exact h
  | some t => exact h.advance hadvance

theorem handle (h : AllHoused s) {i : Nat} {m : Session N V} {a : TargetAction N V}
    (hst : s.handle i m a = some t) : AllHoused t := by
  obtain ⟨handler, -, hmap⟩ := Option.bind_eq_some_iff.1 hst
  obtain ⟨target, htarget, rfl⟩ := Option.map_eq_some_iff.1 hmap
  exact h.setHost m.call.targetNodeId (Housed.target (h m.call.targetNodeId) htarget)

theorem execute (h : AllHoused s) (i : Nat) (m : Session N V)
    (request : MigrateExecuteRequest N V) (constructorError : Option String) :
    AllHoused (s.execute i m request constructorError) := by
  have htarget : AllHoused (s.setHost m.call.targetNodeId
      (Target.start (s.host m.call.targetNodeId) request constructorError).host) :=
    h.setHost _ ((h m.call.targetNodeId).start request constructorError)
  unfold Migrations.execute
  dsimp only
  split_ifs <;> exact htarget

theorem migrate [ToString N] (h : AllHoused s) {n : N} {actorName : String} {targetNodeId : N}
    (hst : s.migrate n actorName targetNodeId = some t) : AllHoused t := by
  unfold Migrations.migrate at hst
  split at hst
  next id metadata _ =>
    obtain ⟨src, hsrc, rfl⟩ := Option.map_eq_some_iff.1 hst
    obtain ⟨system, hsystem, rfl⟩ := Option.map_eq_some_iff.1 hsrc
    exact h.setHost n (((h n).pauseMailbox id).rejectPendingCalls hsystem)
  next =>
    cases hst
    exact h

theorem step [ToString N] (h : AllHoused s) {a : MigrationsAction N V}
    (hst : s.step a = some t) : AllHoused t := by
  cases a with
  | host n a =>
      obtain ⟨host, hhost, rfl⟩ := Option.map_eq_some_iff.1 hst
      have hset : AllHoused (s.setHost n host) := h.setHost n ((h n).host hhost)
      cases a <;> exact hset
  | respawn n id newId config initThrows metadata =>
      dsimp only [Migrations.step] at hst
      split_ifs at hst
      obtain ⟨host, hhost, rfl⟩ := Option.map_eq_some_iff.1 hst
      exact h.setHost n ((h n).host hhost)
  | register n name id now | unregister n name =>
      cases hst
      exact h.setHost n (h n)
  | migrate n actorName targetNodeId => exact h.migrate hst
  | call i a =>
      dsimp only [Migrations.step] at hst
      split_ifs at hst
      obtain ⟨m, -, hadvance⟩ := Option.bind_eq_some_iff.1 hst
      exact h.advance hadvance
  | handler i a =>
      cases a with
      | host => cases hst
      | _ =>
          obtain ⟨m, -, hhandle⟩ := Option.bind_eq_some_iff.1 hst
          exact h.handle hhandle
  | prepareArrives i now =>
      obtain ⟨m, -, hmap⟩ := Option.bind_eq_some_iff.1 hst
      obtain ⟨request, -, rfl⟩ := Option.map_eq_some_iff.1 hmap
      refine h.setHost m.call.targetNodeId ?_
      rw [system_handleMigratePrepare]
      exact h m.call.targetNodeId
  | preparedArrives i timedOut =>
      obtain ⟨m, -, hmap⟩ := Option.bind_eq_some_iff.1 hst
      obtain ⟨response, -, rfl⟩ := Option.map_eq_some_iff.1 hmap
      exact h.reply i _ _
  | executeArrives i constructorError =>
      obtain ⟨m, -, hmap⟩ := Option.bind_eq_some_iff.1 hst
      obtain ⟨request, -, rfl⟩ := Option.map_eq_some_iff.1 hmap
      exact h.execute i m request constructorError
  | executedArrives i =>
      obtain ⟨m, -, hmap⟩ := Option.bind_eq_some_iff.1 hst
      obtain ⟨response, -, rfl⟩ := Option.map_eq_some_iff.1 hmap
      exact h.reply i _ _
  | rollbackArrives i =>
      obtain ⟨m, -, hmap⟩ := Option.bind_eq_some_iff.1 hst
      obtain ⟨reservationId, -, rfl⟩ := Option.map_eq_some_iff.1 hmap
      exact h.setHost m.call.targetNodeId (h m.call.targetNodeId)
  | rolledBackArrives i =>
      obtain ⟨m, -, hmap⟩ := Option.bind_eq_some_iff.1 hst
      split_ifs at hmap
      cases hmap
      exact h.reply i _ _
  | lost i kind =>
      obtain ⟨m, -, rfl⟩ := Option.map_eq_some_iff.1 hst
      exact h

end AllHoused

/-! ## Deliveries -/

/-- If the instance at the location is live, the message reaches it just when the reference has
its identifier. -/
def Routed (e : Delivery N V) : Prop :=
  ∀ location, e.dispatch.location = some location → e.live →
    (e.reached = some (location.nodeId, location.actorId) ↔
      e.dispatch.actorId.id = (location.nodeId, location.actorId))

structure Sound (c : Routing N V) : Prop where
  housed : AllHoused c.migrations
  routed : ∀ e ∈ c.deliveries, Routed e

namespace Sound

variable [LinearOrder N] {c : Routing N V}

omit [LinearOrder N] in
theorem start {migrations : Migrations N V}
    (hinit : ∀ n, (migrations.host n).system = .init) : Sound (.start migrations) where
  housed := fun n => (hinit n).symm ▸ Housed.init
  routed := nofun

theorem setSystem (h : Sound c) (n : N) {s : Node V} (hs : Housed s) :
    Sound (c.setSystem n s) where
  housed := h.housed.setHost n hs
  routed := h.routed

section
omit [LinearOrder N]

theorem record (h : Sound c) {d : Dispatch N V} {live : Bool} {reached : Option (N × ActorId)}
    (hrouted : Routed ⟨d, live, reached⟩) : Sound (c.record d live reached) where
  housed := h.housed
  routed := List.forall_mem_append.2 ⟨h.routed, List.forall_mem_singleton.2 hrouted⟩

theorem nodeId_eq {d : Dispatch N V} {location : ActorLocation N}
    (hlocation : d.location = some location) : d.nodeId = location.nodeId := by
  rw [Dispatch.nodeId, hlocation]
  rfl

theorem live_iff {location : ActorLocation N} :
    c.live (some location) ↔ location.actorId ∈ (c.system location.nodeId).actors := by
  simp [Routing.live]

end

theorem has_iff {n : N} {id : N × ActorId} :
    c.has n id ↔ id.1 = n ∧ id.2 ∈ (c.system n).actors := by
  simp [Routing.has]

/-- The branch for an instance of the node: the node is that of the location. -/
theorem deliverLocal (h : Sound c) {d : Dispatch N V} (hhere : d.nodeId = d.node)
    (hhas : c.has d.node d.actorId.id) : Sound (c.deliverLocal d) := by
  obtain ⟨hmade, hactor⟩ := has_iff.1 hhas
  have hmailbox : d.actorId.id.2 ∈ (c.system d.node).mailboxes := by
    rw [show (c.system d.node).mailboxes = _ from h.housed d.node]
    exact hactor
  refine (h.setSystem d.node ?_).record fun location hlocation _ => ?_
  · cases d.type with
    | call => exact (h.housed d.node).step (a := .dispatchCall _ _) rfl
    | cast => exact (h.housed d.node).step (a := .dispatchCast _ _) rfl
  · have hnode : d.node = location.nodeId := hhere.symm.trans (nodeId_eq hlocation)
    rw [if_pos hmailbox, Option.some.injEq, Prod.mk.injEq, Prod.ext_iff, hmade]

/-- A message that came by RPC: its node is that of the location. -/
theorem deliverRemote (h : Sound c) (d : Dispatch N V) : Sound (c.deliverRemote d) := by
  unfold Routing.deliverRemote
  split_ifs with hhas
  · obtain ⟨hmade, hactor⟩ := has_iff.1 hhas
    refine (h.setSystem d.nodeId ?_).record fun location hlocation _ => ?_
    · cases d.type with
      | call => exact (h.housed d.nodeId).step (a := .rpcCall _ _) rfl
      | cast => exact (h.housed d.nodeId).step (a := .rpcCast _ _) rfl
    · rw [Option.some.injEq, Prod.mk.injEq, Prod.ext_iff, hmade]
  · refine h.record fun location hlocation hlive =>
      ⟨by rintro ⟨⟩, fun hown => absurd ?_ hhas⟩
    rw [hlocation] at hlive
    rw [has_iff, nodeId_eq hlocation, hown]
    exact ⟨rfl, live_iff.1 hlive⟩

omit [LinearOrder N] in
/-- A reference without a name asks no registry. -/
theorem lookup_of_unnamed {n : N} {name : Option String} (hname : name.getD "" = "") :
    c.lookup n name = none := by
  cases name with
  | none => rfl
  | some name => exact if_pos hname

theorem dispatchCast (h : Sound c) (n : N) (actorId : ActorRef N) (message : V) :
    Sound (c.dispatchCast n actorId message) := by
  unfold Routing.dispatchCast
  dsimp only
  split_ifs with hfast hhas
  · refine h.deliverLocal ?_ hhas
    rw [Dispatch.nodeId, lookup_of_unnamed hfast.1]
    exact hfast.2
  · refine h.record fun location hlocation => ?_
    rw [lookup_of_unnamed hfast.1] at hlocation
    cases hlocation
  · exact ⟨h.housed, h.routed⟩

theorem step [ToString N] (h : Sound c) {a : RoutingAction N V} {c' : Routing N V}
    (hst : c.step a = some c') : Sound c' := by
  cases a with
  | system a =>
      obtain ⟨migrations, hmigrations, rfl⟩ := Option.map_eq_some_iff.1 hst
      exact ⟨h.housed.step hmigrations, h.routed⟩
  | dispatchCall n actorId message =>
      cases hst
      unfold Routing.dispatchCall
      split_ifs
      · exact h
      · exact ⟨h.housed, h.routed⟩
  | dispatchCast n actorId message =>
      cases hst
      exact h.dispatchCast n actorId message
  | resumes index =>
      obtain ⟨d, -, rfl⟩ := Option.map_eq_some_iff.1 hst
      have hrest : Sound { c with awaiting := c.awaiting.eraseIdx index } :=
        ⟨h.housed, h.routed⟩
      unfold Routing.resume
      split_ifs with hlocal
      · exact hrest.deliverLocal hlocal.1 hlocal.2
      · exact ⟨h.housed, h.routed⟩
  | arrives index =>
      obtain ⟨d, -, rfl⟩ := Option.map_eq_some_iff.1 hst
      have hrest : Sound { c with inFlight := c.inFlight.eraseIdx index } :=
        ⟨h.housed, h.routed⟩
      exact hrest.deliverRemote d
  | lost index =>
      obtain ⟨d, -, rfl⟩ := Option.map_eq_some_iff.1 hst
      exact ⟨h.housed, h.routed⟩

end Sound

variable [LinearOrder N]

/-- A message goes to the instance that the registry named at the dispatch, given that it is
live, just when the reference was made for that very instance. -/
theorem follows_registry_iff [ToString N] {migrations : Migrations N V}
    (hinit : ∀ n, (migrations.host n).system = .init) {actions : List (RoutingAction N V)}
    {c : Routing N V} (hrun : run Routing.step (.start migrations) actions = some c)
    {e : Delivery N V} (he : e ∈ c.deliveries) {location : ActorLocation N}
    (hlocation : e.dispatch.location = some location) (hlive : e.live) :
    e.reached = some (location.nodeId, location.actorId) ↔
      e.dispatch.actorId.id = (location.nodeId, location.actorId) := by
  have hsound : Sound c :=
    run_invariant' (fun _ _ _ h hst => h.step hst) (Sound.start hinit) hrun
  exact hsound.routed e he location hlocation hlive

def greeterMetadata : ActorMetadata Nat := ⟨"Greeter", some "greeter", []⟩

/-- Nodes that know the class of the actor. -/
def greeters : Migrations Nat Nat where
  host := fun n => .new n {"Greeter"}
  sessions := []
  actor := id

/-- A named actor crashes in its first cast, and is restarted. -/
def restarted : List (RoutingAction Nat Nat) :=
  [.system (.host 0 (.spawn 0 {} false greeterMetadata)), .system (.register 0 "greeter" 0 100),
    .system (.host 0 (.node (.dispatchCast 0 1))), .system (.host 0 (.node (.tick 0))),
    .system (.host 0 (.node (.handlerThrows 9))), .system (.unregister 0 "greeter"),
    .system (.host 0 (.node .crashHandled)), .system (.host 0 (.stop 0)),
    .system (.respawn 0 0 1 {} false greeterMetadata), .system (.register 0 "greeter" 1 200)]

def greeterRef (id : ActorId) : ActorRef Nat := ⟨0, (0, id), some "greeter"⟩

theorem follows_registry_iff_greeter :
    ∃ c e, run Routing.step (.start greeters)
        (restarted ++ [.dispatchCall 0 (greeterRef 1) 7, .resumes 0]) = some c ∧
      c.deliveries = [e] ∧ e.dispatch.location = some ⟨0, 1⟩ ∧ e.live ∧
      (e.reached = some (0, 1) ↔ e.dispatch.actorId.id = (0, 1)) := by
  have hrun : ∃ c e, run Routing.step (.start greeters)
      (restarted ++ [.dispatchCall 0 (greeterRef 1) 7, .resumes 0]) = some c ∧
      c.deliveries = [e] ∧ e.dispatch.location = some ⟨0, 1⟩ ∧ e.live :=
    ⟨_, _, rfl, rfl, rfl, rfl⟩
  obtain ⟨c, e, hrun, hdeliveries, hlocation, hlive⟩ := hrun
  have he : e ∈ c.deliveries := hdeliveries ▸ List.mem_singleton_self e
  exact ⟨c, e, hrun, hdeliveries, hlocation, hlive,
    follows_registry_iff (fun _ => rfl) hrun he hlocation hlive⟩

/-- A call through the reference to the first instance: the registry names the second one, which
is live, and the call reaches none. -/
theorem restarted_ref_stale :
    ∃ c e, run Routing.step (.start greeters)
        (restarted ++ [.dispatchCall 0 (greeterRef 0) 7, .resumes 0, .arrives 0]) = some c ∧
      c.deliveries = [e] ∧ e.dispatch.location = some ⟨0, 1⟩ ∧ e.live ∧ e.reached = none ∧
      (c.system 0).actors = {1} :=
  ⟨_, _, rfl, rfl, rfl, rfl, rfl, by decide⟩

end Libeam.Proofs.NamedRefs
