import Libeam.Migration.Target
import Libeam.Proofs.History
/-!
# What happens on a node, seen from its tables

Which instances a node holds, with their metadata and groups, changes through
the actions that name an instance only, and a reservation that is gone stays
gone.
-/

namespace Libeam.Proofs.HostSteps

open Libeam.System Registry Migration History

variable {N V : Type}

/-- The tables of instances. -/
structure Tables (V : Type) where
  actors : Finset ActorId
  mailboxes : Finset ActorId
  actorMetadata : ActorId → Option (ActorMetadata V)
  groups : Finset (String × ActorId)

def tables (h : Host N V) : Tables V :=
  ⟨h.system.actors, h.system.mailboxes, h.actorMetadata, h.groups⟩

/-- The instance whose entries the action makes or deletes. -/
def subject : HostAction N V → Option ActorId
  | .spawn id _ _ _ | .stop id | .joinGroup _ id | .leaveGroup _ id => some id
  | _ => none

namespace Tables

def add (T : Tables V) (id : ActorId) (metadata : ActorMetadata V) : Tables V :=
  { T with
    actors := insert id T.actors
    mailboxes := insert id T.mailboxes
    actorMetadata := Function.update T.actorMetadata id (some metadata) }

def drop (T : Tables V) (id : ActorId) : Tables V :=
  { actors := T.actors.erase id
    mailboxes := T.mailboxes.erase id
    actorMetadata := Function.update T.actorMetadata id none
    groups := leaveAll T.groups id }

def apply (T : Tables V) : HostAction N V → Tables V
  | .spawn id _ _ metadata => T.add id metadata
  | .stop id => T.drop id
  | .joinGroup group id => { T with groups := insert (group, id) T.groups }
  | .leaveGroup group id => { T with groups := T.groups.erase (group, id) }
  | _ => T

theorem apply_of_subject_none (T : Tables V) {a : HostAction N V} (ha : subject a = none) :
    T.apply a = T := by
  cases a <;> first | rfl | cases ha

/-- No table has an entry for the instance. -/
structure Lacks (T : Tables V) (id : ActorId) : Prop where
  actors : id ∉ T.actors
  mailboxes : id ∉ T.mailboxes
  actorMetadata : T.actorMetadata id = none
  groups : ∀ group, (group, id) ∉ T.groups

theorem drop_lacks (T : Tables V) (id : ActorId) : (T.drop id).Lacks id := by
  refine ⟨Finset.notMem_erase id _, Finset.notMem_erase id _, Function.update_self .., ?_⟩
  intro group hmem
  exact (Finset.mem_filter.1 hmem).2 rfl

theorem Lacks.drop_eq {T : Tables V} {id : ActorId} (h : T.Lacks id) : T.drop id = T := by
  have hgroups : leaveAll T.groups id = T.groups := by
    apply Finset.filter_true_of_mem
    rintro ⟨group, id'⟩ hmem rfl
    exact h.groups group hmem
  have hmetadata : Function.update T.actorMetadata id none = T.actorMetadata := by
    rw [← h.actorMetadata, Function.update_eq_self]
  rw [drop, Finset.erase_eq_of_notMem h.actors, Finset.erase_eq_of_notMem h.mailboxes,
    hmetadata, hgroups]

@[simp] theorem drop_drop (T : Tables V) (id : ActorId) : (T.drop id).drop id = T.drop id :=
  (T.drop_lacks id).drop_eq

theorem drop_add_self (T : Tables V) (id : ActorId) (metadata : ActorMetadata V) :
    (T.add id metadata).drop id = T.drop id := by
  simp only [drop, add, Function.update_idem, Finset.erase_insert_eq_erase]

theorem drop_comm (T : Tables V) (id id' : ActorId) :
    (T.drop id).drop id' = (T.drop id').drop id := by
  have hgroups : leaveAll (leaveAll T.groups id) id' = leaveAll (leaveAll T.groups id') id := by
    rw [leaveAll, leaveAll, leaveAll, leaveAll, Finset.filter_comm]
  have hmetadata : Function.update (Function.update T.actorMetadata id none) id' none =
      Function.update (Function.update T.actorMetadata id' none) id none := by
    by_cases hid : id = id'
    · rw [hid]
    · exact Function.update_comm hid _ _ _
  simp only [drop, hgroups, hmetadata, Finset.erase_right_comm]

/-- Actions on the instance itself leave no trace once it is dropped. -/
theorem drop_apply_self (T : Tables V) {id : ActorId} {a : HostAction N V}
    (ha : subject a = some id) : (T.apply a).drop id = T.drop id := by
  cases a with
  | spawn id' config initThrows metadata =>
      cases ha
      exact drop_add_self T id metadata
  | stop id' =>
      cases ha
      exact drop_drop T id
  | joinGroup group id' =>
      cases ha
      have hgroups : leaveAll (insert (group, id) T.groups) id = leaveAll T.groups id := by
        rw [leaveAll, Finset.filter_insert, if_neg (not_not.2 rfl), leaveAll]
      simp only [apply, drop, hgroups]
  | leaveGroup group id' =>
      cases ha
      have hgroups : leaveAll (T.groups.erase (group, id)) id = leaveAll T.groups id := by
        rw [leaveAll, Finset.filter_erase, leaveAll, Finset.erase_eq_of_notMem]
        simp
      simp only [apply, drop, hgroups]
  | _ => cases ha

/-- Actions on other instances do not see that it is dropped. -/
theorem drop_apply (T : Tables V) {id : ActorId} {a : HostAction N V}
    (ha : subject a ≠ some id) : (T.apply a).drop id = (T.drop id).apply a := by
  cases a with
  | spawn id' config initThrows metadata =>
      have hne : id' ≠ id := fun heq => ha (congrArg some heq)
      simp only [apply, drop, add, Finset.erase_insert_of_ne hne,
        Function.update_comm hne.symm]
  | stop id' => exact drop_comm T id' id
  | joinGroup group id' =>
      have hne : id' ≠ id := fun heq => ha (congrArg some heq)
      have hgroups : leaveAll (insert (group, id') T.groups) id =
          insert (group, id') (leaveAll T.groups id) := by
        rw [leaveAll, Finset.filter_insert, if_pos hne, leaveAll]
      simp only [apply, drop, hgroups]
  | leaveGroup group id' =>
      have hgroups : leaveAll (T.groups.erase (group, id')) id =
          (leaveAll T.groups id).erase (group, id') := by
        rw [leaveAll, Finset.filter_erase, leaveAll]
      simp only [apply, drop, hgroups]
  | _ => rfl

end Tables

/-! ## Reservations -/

/-- The reservation was made and is there no more. -/
def Spent (rs : Reservations N) (reservationId : ReservationId) : Prop :=
  reservationId < rs.nextId ∧ rs.find reservationId = none

theorem find_delete_of_none {rs : Reservations N} {id : ReservationId}
    (h : rs.find id = none) (id' : ReservationId) : (rs.delete id').find id = none := by
  unfold Reservations.find Reservations.delete at *
  rw [AList.lookup_eq_none] at *
  exact fun hmem => h (AList.mem_erase.1 hmem).2

theorem find_delete_self (rs : Reservations N) (id : ReservationId) :
    (rs.delete id).find id = none := AList.lookup_erase id rs.entries

theorem find_cleanupExpired {rs : Reservations N} {id : ReservationId}
    (h : rs.find id = none) (now : Nat) : (rs.cleanupExpired now).find id = none := by
  unfold Reservations.find Reservations.cleanupExpired at *
  rw [AList.lookup_eq_none] at *
  exact fun hmem => h ((List.Sublist.map _ List.filter_sublist).subset hmem)

theorem Spent.reserveName [DecidableEq N] {rs : Reservations N} {id : ReservationId}
    (hspent : Spent rs id)
    (existing : Option (ActorLocation N)) (name : String) (nodeId : N) (now ttlMs : Nat) :
    Spent (rs.reserveName existing name nodeId now ttlMs).1 id := by
  have hnone := find_cleanupExpired hspent.2 now
  unfold Reservations.reserveName
  dsimp only
  split_ifs
  · exact ⟨hspent.1, hnone⟩
  · exact ⟨hspent.1, hnone⟩
  · refine ⟨hspent.1.trans (Nat.lt_succ_self _), ?_⟩
    have hne : id ≠ (rs.cleanupExpired now).nextId := Nat.ne_of_lt hspent.1
    exact (AList.lookup_insert_ne hne).trans hnone

theorem nextId_reserveName [DecidableEq N] (rs : Reservations N)
    (existing : Option (ActorLocation N)) (name : String) (nodeId : N) (now ttlMs : Nat) :
    rs.nextId ≤ (rs.reserveName existing name nodeId now ttlMs).1.nextId := by
  unfold Reservations.reserveName
  dsimp only
  split_ifs
  · exact Nat.le_refl rs.nextId
  · exact Nat.le_refl rs.nextId
  · exact Nat.le_succ rs.nextId

theorem nextId_claim (rs : Reservations N) (id : ReservationId) (now : Nat) :
    (rs.claim id now).1.nextId = rs.nextId := by
  unfold Reservations.claim
  split
  · rfl
  · split_ifs <;> rfl

theorem Spent.claim {rs : Reservations N} {id : ReservationId} (hspent : Spent rs id)
    (id' : ReservationId) (now : Nat) : Spent (rs.claim id' now).1 id := by
  unfold Reservations.claim
  split
  · exact hspent
  · split_ifs
    · exact ⟨hspent.1, find_delete_of_none hspent.2 id'⟩
    · exact hspent

/-! ## One step -/

/-- What the action asks of the actor system. -/
def systemAction : HostAction N V → Option (Action V)
  | .node a => some a
  | .spawn _ config initThrows _ => some (.spawn config initThrows)
  | .stop id => some (.remove id)
  | _ => none

variable [LinearOrder N] {h h' : Host N V} {a : HostAction N V}

/-- The step of the actor system behind the step of the node. -/
theorem system_step (hst : h.step a = some h') :
    (∃ b, systemAction a = some b ∧ h.system.step b = some h'.system) ∨
      systemAction a = none ∧ h'.system = h.system := by
  cases a with
  | node b =>
      refine .inl ⟨b, rfl, ?_⟩
      unfold Host.step at hst
      dsimp only at hst
      split_ifs at hst
      obtain ⟨s, hs, rfl⟩ := Option.map_eq_some_iff.1 hst
      exact hs
  | spawn id config initThrows metadata =>
      refine .inl ⟨_, rfl, ?_⟩
      unfold Host.step at hst
      dsimp only at hst
      split_ifs at hst
      cases hst
      rfl
  | stop id =>
      cases hst
      exact .inl ⟨_, rfl, rfl⟩
  | joinGroup group id =>
      unfold Host.step at hst
      dsimp only at hst
      split_ifs at hst
      cases hst
      exact .inr ⟨rfl, rfl⟩
  | leaveGroup | reserveName | confirmReservation | releaseReservation
  | handleRegistryUpdate =>
      cases hst
      exact .inr ⟨rfl, rfl⟩

/-- The step on the tables. -/
theorem tables_step (hst : h.step a = some h') : tables h' = (tables h).apply a := by
  cases a with
  | node b =>
      unfold Host.step at hst
      dsimp only at hst
      split_ifs at hst with hchanges
      obtain ⟨s, hs, rfl⟩ := Option.map_eq_some_iff.1 hst
      have hsame : s.actors = h.system.actors ∧ s.mailboxes = h.system.mailboxes := by
        cases logged_step hs with
        | idle _ actors mailboxes => exact ⟨actors, mailboxes⟩
        | removed | spawned => exact absurd rfl hchanges
        | accepted _ _ _ _ _ actors mailboxes => exact ⟨actors, mailboxes⟩
      simp only [tables, Tables.apply, hsame]
  | spawn id config initThrows metadata =>
      unfold Host.step at hst
      dsimp only at hst
      split_ifs at hst with hid
      cases hst
      have hlog : log (h.system.spawn config initThrows) = log (h.system.install config) := by
        unfold Node.spawn
        split_ifs
        · rfl
        · exact log_scheduleProcessMailbox _ _
      have hactors : (h.system.spawn config initThrows).actors =
          insert h.system.nextId h.system.actors := congrArg Log.actors hlog
      have hmailboxes : (h.system.spawn config initThrows).mailboxes =
          insert h.system.nextId h.system.mailboxes := congrArg Log.mailboxes hlog
      simp only [tables, Tables.apply, Tables.add, hactors, hmailboxes, hid]
  | joinGroup group id =>
      unfold Host.step at hst
      dsimp only at hst
      split_ifs at hst
      cases hst
      rfl
  | stop | leaveGroup | reserveName | confirmReservation | releaseReservation
  | handleRegistryUpdate =>
      cases hst
      rfl

theorem nextId_confirmReservation (r : DistributedRegistry N) (id : ReservationId)
    (actorId : ActorId) (now : Nat) :
    (r.confirmReservation id actorId now).1.reservations.nextId = r.reservations.nextId := by
  have hclaim := nextId_claim r.reservations id now
  unfold DistributedRegistry.confirmReservation
  split
  next reservations heq =>
    rw [heq] at hclaim
    exact hclaim
  next reservations reservation heq =>
    rw [heq] at hclaim
    exact hclaim

theorem nextReservation_step (hst : h.step a = some h') :
    h.registry.reservations.nextId ≤ h'.registry.reservations.nextId := by
  cases a with
  | node b =>
      unfold Host.step at hst
      dsimp only at hst
      split_ifs at hst
      obtain ⟨s, -, rfl⟩ := Option.map_eq_some_iff.1 hst
      exact Nat.le_refl _
  | spawn | joinGroup =>
      unfold Host.step at hst
      dsimp only at hst
      split_ifs at hst
      cases hst
      exact Nat.le_refl _
  | reserveName name nodeId now =>
      cases hst
      exact nextId_reserveName _ _ name nodeId now _
  | confirmReservation id actorId now =>
      cases hst
      exact (nextId_confirmReservation h.registry id actorId now).ge
  | stop | leaveGroup | handleRegistryUpdate | releaseReservation =>
      cases hst
      exact Nat.le_refl _

theorem Spent.confirmReservation {r : DistributedRegistry N} {id : ReservationId}
    (hspent : Spent r.reservations id) (id' : ReservationId) (actorId : ActorId) (now : Nat) :
    Spent (r.confirmReservation id' actorId now).1.reservations id := by
  have hclaim := hspent.claim id' now
  unfold DistributedRegistry.confirmReservation
  split
  next reservations heq =>
    rw [heq] at hclaim
    exact hclaim
  next reservations reservation heq =>
    rw [heq] at hclaim
    exact ⟨hclaim.1, find_delete_of_none hclaim.2 id'⟩

theorem Spent.step {id : ReservationId} (hspent : Spent h.registry.reservations id)
    (hst : h.step a = some h') : Spent h'.registry.reservations id := by
  cases a with
  | node b =>
      unfold Host.step at hst
      dsimp only at hst
      split_ifs at hst
      obtain ⟨s, -, rfl⟩ := Option.map_eq_some_iff.1 hst
      exact hspent
  | spawn | joinGroup =>
      unfold Host.step at hst
      dsimp only at hst
      split_ifs at hst
      cases hst
      exact hspent
  | stop | leaveGroup | handleRegistryUpdate =>
      cases hst
      exact hspent
  | reserveName name nodeId now =>
      cases hst
      exact hspent.reserveName _ name nodeId now _
  | confirmReservation id' actorId now =>
      cases hst
      exact hspent.confirmReservation id' actorId now
  | releaseReservation id' =>
      cases hst
      exact ⟨hspent.1, find_delete_of_none hspent.2 id'⟩

end Libeam.Proofs.HostSteps
