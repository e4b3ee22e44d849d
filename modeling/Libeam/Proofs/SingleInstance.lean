import Libeam.Proofs.Handover
import Libeam.Proofs.MigrationFailure
/-!
# At most one instance of an actor is live

Two instances of an actor may both take messages: the target keeps what it made
when its answer does not arrive, and nothing stops a second migration of an actor
that is being migrated.  Where neither happens, no two instances do.
-/

namespace Libeam.Proofs.SingleInstance

open Libeam.System Migration Mailbox Lib.Transition Census Custody Handover

variable {N V : Type}

/-- The instance is there and takes messages from its mailbox. -/
def Live (s : Migrations N V) (x : N × ActorId) : Prop :=
  Present s x ∧ x.2 ∈ (s.host x.1).system.mailboxes ∧ ¬ Paused s x

instance (s : Migrations N V) (x : N × ActorId) : Decidable (Live s x) :=
  inferInstanceAs (Decidable (x.2 ∈ (s.host x.1).system.actors ∧
    x.2 ∈ (s.host x.1).system.mailboxes ∧ x.2 ∉ (s.host x.1).system.pausedMailboxes))

structure Single (s : Migrations N V) : Prop where
  alone : ∀ x y, Live s x → Live s y → s.actor x = s.actor y → x = y
  /-- What was made for a migration that has failed is not left there. -/
  withdrawn : ∀ m ∈ s.sessions, stage m = .returned false →
    ∀ x, copy m = some x → ¬ Live s x

/-- Before anything happened. -/
structure Initial (s : Migrations N V) : Prop where
  system : ∀ n, (s.host n).system = .init
  sessions : s.sessions = []
  actor : ∀ x, s.actor x = x

/-- Nobody has the actor. -/
def Unowned (s : Migrations N V) (a : N × ActorId) : Prop :=
  (∀ x, Present s x → s.actor x ≠ a) ∧
    ∀ m ∈ s.sessions, Open m → s.actor (source m) ≠ a

/-- A migration works on the instance. -/
def Busy (s : Migrations N V) (x : N × ActorId) : Prop := Engaged s x ∨ InCare s x

variable [LinearOrder N]

/-- An actor is not migrated, resumed or restarted while a migration works on it,
nothing goes wrong on the target once it made its instance, and a call gives up
its execute request only when that was lost or refused. -/
def Undisturbed (s : Migrations N V) : MigrationsAction N V → Prop
  | .respawn n id _ _ _ _ => Unowned s (s.actor (n, id))
  | .host n (.node (.resumeMailbox id)) => ¬ Engaged s (n, id)
  | .migrate n actorName _ => ∀ location, (s.host n).registry.lookup actorName = some location →
      ¬ Busy s (n, location.actorId)
  | .call i (.executeFails _) => ∀ m, s.sessions[i]? = some m →
      m.mail.execute = none ∧ (standing m = .unasked ∨ standing m = .refused)
  | .handler _ (.initFails _) | .handler _ (.stateFails _) => False
  | .handler _ (.initDone _ publishError) | .handler _ (.stateSet _ publishError) =>
      publishError = none
  | _ => True

variable {s t : Migrations N V} {n : N}

/-! ## One step -/

theorem calmer_host {a : HostAction N V} {h : Host N V}
    (hspawn : ∀ id config initThrows metadata, a ≠ .spawn id config initThrows metadata)
    (hresume : ∀ id, a = .node (.resumeMailbox id) → ¬ Engaged s (n, id))
    (hst : (s.host n).step a = some h) : Calmer s (s.setHost n h) := by
  rcases HostSteps.system_step hst with ⟨b, hb, hstep⟩ | ⟨-, heq⟩
  · have heq := presence_step hstep
    cases b with
    | pauseMailbox id => exact calmer_of_pause heq
    | resumeMailbox id =>
        refine calmer_of_resume heq (hresume id ?_)
        cases a with
        | node b => exact congrArg HostAction.node (Option.some.inj hb)
        | _ => cases hb
    | remove id => exact calmer_of_drop heq
    | spawn config initThrows =>
        cases a with
        | node b =>
            cases hb
            cases hst
        | spawn id config initThrows metadata => exact absurd rfl (hspawn _ _ _ _)
        | _ => cases hb
    | _ => exact calmer_of_presence heq
  · exact calmer_of_presence (congrArg presence heq)

/-- What a spawn does to the node. -/
theorem spawn_host {id : ActorId} {config : MailboxConfig} {initThrows : Bool}
    {metadata : ActorMetadata V} {h : Host N V}
    (hst : (s.host n).step (.spawn id config initThrows metadata) = some h) :
    id = (s.host n).system.nextId ∧
      presence h.system = (presence (s.host n).system).add := by
  unfold Host.step at hst
  dsimp only at hst
  split_ifs at hst with hid
  cases hst
  exact ⟨hid, presence_spawn _ config initThrows⟩

/-- A new actor is nobody's yet. -/
theorem guarded_spawn (h : Guarded s) {id : ActorId} {config : MailboxConfig}
    {initThrows : Bool} {metadata : ActorMetadata V} {host : Host N V}
    (hst : (s.host n).step (.spawn id config initThrows metadata) = some host) :
    Guarded ((s.setHost n host).setActor (n, id) (n, id)) := by
  obtain ⟨rfl, heq⟩ := spawn_host hst
  refine h.install (installs_of_add heq rfl rfl (.inl rfl)) rfl ?_
  have hnew : ∀ x, Known s x → s.actor x ≠ (n, (s.host n).system.nextId) := by
    intro x hx heq
    have hknown := h.actor x hx
    rw [heq] at hknown
    exact Nat.lt_irrefl _ hknown
  rintro (x | j) hk
  · exact fun heq => hnew x (h.known x hk.1) (Option.some.inj heq)
  · obtain ⟨m, hj, -⟩ := hk
    rw [owner, hj, Option.map_some]
    exact fun heq =>
      hnew _ (h.sessions m (List.mem_of_getElem? hj)).known (Option.some.inj heq)

/-- A restarted actor is nobody's when no migration works on it. -/
theorem guarded_respawn (h : Guarded s) {id newId : ActorId} {config : MailboxConfig}
    {initThrows : Bool} {metadata : ActorMetadata V} {host : Host N V}
    (hid : id < (s.host n).system.nextId) (hunowned : Unowned s (s.actor (n, id)))
    (hst : (s.host n).step (.spawn newId config initThrows metadata) = some host) :
    Guarded ((s.setHost n host).setActor (n, newId) (s.actor (n, id))) := by
  obtain ⟨rfl, heq⟩ := spawn_host hst
  have hknown : Known s (s.actor (n, id)) := h.actor (n, id) hid
  refine h.install (installs_of_add heq rfl rfl (.inr hknown)) rfl ?_
  rintro (x | j) hk
  · exact fun heq => hunowned.1 x hk.1 (Option.some.inj heq)
  · obtain ⟨m, hj, howns⟩ := hk
    rw [owner, hj, Option.map_some]
    exact fun heq => hunowned.2 m (List.mem_of_getElem? hj) howns.1 (Option.some.inj heq)

theorem lookup_of_proceeds {h : Host N V} {actorName : String} {targetNodeId : N}
    {id : ActorId} {metadata : ActorMetadata V}
    (hcheck : h.checkMigrate actorName targetNodeId = .proceeds id metadata) :
    ∃ location, h.registry.lookup actorName = some location ∧ location.actorId = id := by
  unfold Host.checkMigrate at hcheck
  split_ifs at hcheck
  split at hcheck
  · cases hcheck
  next location hlookup =>
    split_ifs at hcheck
    split at hcheck
    · cases hcheck
    · cases hcheck
      exact ⟨location, hlookup, rfl⟩

theorem guarded_migrate [ToString N] (h : Guarded s) {actorName : String} {targetNodeId : N}
    (hfree : ∀ location, (s.host n).registry.lookup actorName = some location →
      ¬ Busy s (n, location.actorId))
    (hst : s.migrate n actorName targetNodeId = some t) : Guarded t := by
  unfold Migrations.migrate at hst
  split at hst
  next id metadata hcheck =>
    obtain ⟨src, hbegin, rfl⟩ := Option.map_eq_some_iff.1 hst
    obtain ⟨location, hlookup, rfl⟩ := lookup_of_proceeds hcheck
    have hbusy := hfree location hlookup
    have hmem : location.actorId ∈ (s.host n).system.actors :=
      MigrationFailure.mem_actors_of_proceeds hcheck
    have heq := presence_begin hbegin
    have hcalm : Calmer s (s.setHost n src.host) := calmer_of_pause heq
    rw [Presence.pause, if_pos (show _ ∈ (presence (s.host n).system).actors from hmem)] at heq
    have hactors : src.host.system.actors = (s.host n).system.actors :=
      congrArg Presence.actors heq
    have hpaused : src.host.system.pausedMailboxes =
        insert location.actorId (s.host n).system.pausedMailboxes :=
      congrArg Presence.pausedMailboxes heq
    have hpc : src.pc = .preparing := by
      obtain ⟨_, -, rfl⟩ := Option.map_eq_some_iff.1 hbegin
      rfl
    have hpresent : Present (s.setHost n src.host) (n, location.actorId) := by
      rw [Present, host_setHost, if_pos rfl, hactors]
      exact hmem
    refine (h.calmer hcalm).append ?_ ?_ ?_
    · intro success
      show stageAt src.pc ≠ _
      rw [hpc]
      rintro ⟨⟩
    · refine
        { known := (hcalm.known _).2 (h.known _ hmem)
          parked := fun _ _ => ?_
          consistent := ?_
          answered := fun _ h => by cases h
          made := fun _ => .inl rfl
          copy_known := fun _ h => by cases h
          copy_handler := fun _ h => by cases h
          copy_gone := fun _ h => by cases h }
      · show Paused (s.setHost n src.host) (n, location.actorId)
        rw [Paused, host_setHost, if_pos rfl, hpaused]
        exact Finset.mem_insert_self _ _
      · show ConsistentAt _ _ (stageAt src.pc)
        rw [hpc]
        exact ⟨rfl, rfl⟩
    · exact ⟨hpresent, fun hengaged => hbusy (.inl hengaged), fun hcare => hbusy (.inr hcare)⟩
  next =>
    cases hst
    exact h

/-- A call goes on by itself. -/
theorem guarded_call (h : Guarded s) {i : Nat} {m : Session N V} {a : SourceAction V}
    (hi : s.sessions[i]? = some m) (hown : Migrations.isOwn a = true)
    (ha : Undisturbed s (.call i a)) (hst : s.advance i m a = some t) : Guarded t := by
  refine guarded_advance h hi ?_ hst
  cases a with
  | executeFails error => exact ha m hi
  | node | prepareReply | executeReply => cases hown
  | _ => trivial

theorem system_handleMigratePrepare (h : Host N V) (request : MigratePrepareRequest N)
    (now : Nat) : (h.handleMigratePrepare request now).1.system = h.system := by
  unfold Host.handleMigratePrepare
  split_ifs
  · split <;> rfl
  · rfl

theorem guarded_step [ToString N] {a : MigrationsAction N V} (h : Guarded s)
    (ha : Undisturbed s a) (hst : s.step a = some t) : Guarded t := by
  cases a with
  | host n a =>
      obtain ⟨host, hhost, rfl⟩ := Option.map_eq_some_iff.1 hst
      cases a with
      | spawn id config initThrows metadata => exact guarded_spawn h hhost
      | node a =>
          refine h.calmer (calmer_host ?_ ?_ hhost)
          · exact fun _ _ _ _ => nofun
          · rintro id heq
            cases heq
            exact ha
      | stop | joinGroup | leaveGroup | reserveName | confirmReservation
      | releaseReservation | handleRegistryUpdate =>
          refine h.calmer (calmer_host ?_ ?_ hhost)
          · exact fun _ _ _ _ => nofun
          · exact fun _ => nofun
  | respawn n id newId config initThrows metadata =>
      dsimp only [Migrations.step] at hst
      split_ifs at hst with hid
      obtain ⟨host, hhost, rfl⟩ := Option.map_eq_some_iff.1 hst
      exact guarded_respawn h hid ha hhost
  | register | unregister =>
      cases hst
      exact h.calmer (calmer_of_presence rfl)
  | migrate n actorName targetNodeId => exact guarded_migrate h ha hst
  | call i a =>
      dsimp only [Migrations.step] at hst
      split_ifs at hst with hown
      obtain ⟨m, hi, hadvance⟩ := Option.bind_eq_some_iff.1 hst
      exact guarded_call h hi hown ha hadvance
  | handler i a =>
      have hsmooth : Smooth a := by
        cases a with
        | host => cases hst
        | initDone | stateSet | initFails | stateFails => exact ha
        | confirmSettles | released => trivial
      have hbind : (s.sessions[i]?.bind fun m => s.handle i m a) = some t := by
        cases a with
        | host => cases hst
        | _ => exact hst
      obtain ⟨m, hi, hhandle⟩ := Option.bind_eq_some_iff.1 hbind
      exact guarded_handle h hi hsmooth hhandle
  | prepareArrives i now =>
      obtain ⟨m, hi, hmap⟩ := Option.bind_eq_some_iff.1 hst
      obtain ⟨request, hrequest, rfl⟩ := Option.map_eq_some_iff.1 hmap
      have hcalm : Calmer s (s.setHost m.call.targetNodeId
          ((s.host m.call.targetNodeId).handleMigratePrepare request now).1) :=
        calmer_of_presence (congrArg presence (system_handleMigratePrepare _ request now))
      exact guarded_mail (h.calmer hcalm) hi id fun _ => id
  | preparedArrives i timedOut =>
      obtain ⟨m, hi, hmap⟩ := Option.bind_eq_some_iff.1 hst
      obtain ⟨response, hresponse, rfl⟩ := Option.map_eq_some_iff.1 hmap
      exact guarded_reply h hi (.prepareReply response timedOut) trivial rfl fun _ => id
  | executeArrives i constructorError =>
      obtain ⟨m, hi, hmap⟩ := Option.bind_eq_some_iff.1 hst
      obtain ⟨request, hrequest, rfl⟩ := Option.map_eq_some_iff.1 hmap
      exact guarded_execute h hi hrequest constructorError
  | executedArrives i =>
      obtain ⟨m, hi, hmap⟩ := Option.bind_eq_some_iff.1 hst
      obtain ⟨response, hresponse, rfl⟩ := Option.map_eq_some_iff.1 hmap
      have hanswered := (h.sessions m (List.mem_of_getElem? hi)).answered response hresponse
      exact guarded_reply h hi (.executeReply response) hanswered rfl fun _ => nofun
  | rollbackArrives i =>
      obtain ⟨m, hi, hmap⟩ := Option.bind_eq_some_iff.1 hst
      obtain ⟨reservationId, hrollback, rfl⟩ := Option.map_eq_some_iff.1 hmap
      have hcalm : Calmer s (s.setHost m.call.targetNodeId
          ((s.host m.call.targetNodeId).handleMigrateRollback reservationId)) :=
        calmer_of_presence rfl
      exact guarded_mail (h.calmer hcalm) hi id fun _ => id
  | rolledBackArrives i =>
      obtain ⟨m, hi, hmap⟩ := Option.bind_eq_some_iff.1 hst
      split_ifs at hmap
      cases hmap
      exact guarded_reply h hi .rollbackEnds trivial rfl fun _ => id
  | lost i kind =>
      obtain ⟨m, hi, rfl⟩ := Option.map_eq_some_iff.1 hst
      refine guarded_mail h hi ?_ ?_
      · intro hidle
        cases kind <;> first | rfl | exact hidle
      · intro response hresponse
        cases kind <;> first | exact hresponse | cases hresponse

/-! ## Runs -/

section
omit [LinearOrder N]

theorem guarded_initial (hinit : Initial s) : Guarded s where
  known x hx := by
    rw [Present, hinit.system] at hx
    exact absurd hx (Finset.notMem_empty _)
  actor x hx := by
    rw [hinit.actor]
    exact hx
  sessions := by
    rw [hinit.sessions]
    exact fun _ hm => absurd hm List.not_mem_nil
  apart i j m m' hi := by
    rw [hinit.sessions] at hi
    cases hi
  alone := by
    rintro (x | i) hk
    · have hpresent := hk.1
      rw [Present, hinit.system] at hpresent
      exact absurd hpresent (Finset.notMem_empty _)
    · obtain ⟨m, hi, -⟩ := hk
      rw [hinit.sessions] at hi
      cases hi

/-- A live instance stands for a token: its own, or the one of the session whose
handler has it in care. -/
theorem token_of_live (h : Guarded s) {x : N × ActorId} (hx : Live s x) :
    ∃ k, Holds s k ∧ owner s k = some (s.actor x) ∧
      (k = .free x ∨ ∃ i m, k = .session i ∧ s.sessions[i]? = some m ∧ copy m = some x) := by
  obtain ⟨hpresent, -, hrunning⟩ := hx
  have hengaged : ¬ Engaged s x := by
    rintro ⟨m, hm, hopen, rfl⟩
    exact hrunning ((h.sessions m hm).parked hopen hpresent)
  by_cases hcare : InCare s x
  · obtain ⟨m, hm, hworking, hcopy⟩ := hcare
    obtain ⟨i, hi⟩ := List.mem_iff_getElem?.1 hm
    have hsound := h.sessions m hm
    have hconsistent := hsound.consistent
    rw [Consistent, hworking] at hconsistent
    have hopen : Open m := open_of_stage hconsistent.waits.1 fun _ hend => by cases hend
    refine ⟨.session i, ⟨m, hi, hopen, by rw [hworking]; decide⟩, ?_, .inr ⟨i, m, rfl, hi, hcopy⟩⟩
    rw [owner, hi, Option.map_some, (hsound.copy_known x hcopy).2.1]
  · exact ⟨.free x, ⟨hpresent, hengaged, hcare⟩, rfl, .inl rfl⟩

theorem single_of_guarded (h : Guarded s) : Single s where
  alone x y hx hy heq := by
    obtain ⟨k, hk, howner, hkx⟩ := token_of_live h hx
    obtain ⟨k', hk', howner', hky⟩ := token_of_live h hy
    obtain rfl : k = k' := h.alone hk hk' (howner.trans ((congrArg some heq).trans howner'.symm))
    rcases hkx with rfl | ⟨i, m, rfl, hi, hcopy⟩
    · rcases hky with hky | ⟨j, m', hky, -⟩
      · exact Token.free.inj hky
      · cases hky
    · rcases hky with hky | ⟨j, m', hky, hj, hcopy'⟩
      · cases hky
      · cases hky
        obtain rfl := Option.some.inj (hi.symm.trans hj)
        exact Option.some.inj (hcopy.symm.trans hcopy')
  withdrawn m hm hstage x hx hlive := by
    have hsound := h.sessions m hm
    have hconsistent := hsound.consistent
    rw [Consistent, hstage] at hconsistent
    rcases hconsistent.2 with hunasked | hrefused
    · exact (hsound.copy_known x hx).2.2 hunasked
    · exact hsound.copy_gone x hx hrefused hlive.1

end

theorem single_instance [ToString N] {as : List (MigrationsAction N V)} (hinit : Initial s)
    (hundisturbed : Along Migrations.step Undisturbed s as) :
    Throughout Migrations.step Single s as := by
  have hguarded : Throughout Migrations.step Guarded s as :=
    throughout_of_invariant (fun _ _ _ h ha hst => guarded_step h ha hst)
      (guarded_initial hinit) hundisturbed
  exact hguarded.mono fun _ h => single_of_guarded h

/-- Two nodes that know the class of the actor. -/
def start : Migrations Nat Nat where
  host := fun n => .new n {"Counter"}
  sessions := []
  actor := id

theorem initial_start : Initial start := ⟨fun _ => rfl, rfl, fun _ => rfl⟩

def counterMetadata : ActorMetadata Nat := ⟨"Counter", some "counter", []⟩

/-- A named actor is spawned and a migration of it begins. -/
def beginning : List (MigrationsAction Nat Nat) :=
  [.host 0 (.spawn 0 {} false counterMetadata), .register 0 "counter" 0 100,
    .migrate 0 "counter" 1]

theorem single_instance_beginning : Throughout Migrations.step Single start beginning := by
  refine single_instance initial_start ⟨trivial, ?_⟩
  rintro _ ⟨⟩
  refine ⟨trivial, ?_⟩
  rintro _ ⟨⟩
  refine ⟨?_, fun _ _ => trivial⟩
  rintro location - (⟨m, hm, -⟩ | ⟨m, hm, -⟩)
  · cases hm
  · cases hm

/-- The answer to the execute request is lost, and the rollback only releases a
reservation. -/
def lostAnswer : List (MigrationsAction Nat Nat) :=
  beginning ++
    [.prepareArrives 0 200, .preparedArrives 0 false, .call 0 (.stateReady 7),
      .executeArrives 0 none, .handler 0 (.initDone 300 none),
      .handler 0 (.stateSet 310 none), .handler 0 .confirmSettles, .lost 0 .executed,
      .call 0 (.executeFails "timeout"), .rollbackArrives 0, .rolledBackArrives 0,
      .host 0 (.node (.dispatchCast 0 1)), .host 0 (.node (.tick 0)),
      .host 1 (.node (.dispatchCast 0 2)), .host 1 (.node (.tick 0))]

/-- The source has resumed while the target has the actor, and both handle
messages. -/
theorem lostAnswer_two_live :
    Initial start ∧ ∃ u, run Migrations.step start lostAnswer = some u ∧ ¬ Single u ∧
      (u.host 0).system.started.map (·.2.message) = [1] ∧
      (u.host 1).system.started.map (·.2.message) = [2] := by
  refine ⟨initial_start, _, rfl, fun h => ?_, rfl, rfl⟩
  have hsame : ((0, 0) : Nat × ActorId) = (1, 0) :=
    h.alone (0, 0) (1, 0) (by decide) (by decide) rfl
  cases hsame

end Libeam.Proofs.SingleInstance
