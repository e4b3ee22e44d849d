import Libeam.Migration.Host
/-!
# When a target grants a migration

The prepare handler asks the registry to reserve the name for the target's own
id, and a name that the table gives to another node cannot be reserved.  So the
better the target's table is synchronised with the source, the less it grants.
-/

namespace Libeam.Proofs.MigratePrepare

open Libeam.System Registry Migration

variable {N V : Type} [LinearOrder N]

/-- The answer is `ready`, with a reservation that can be confirmed until it
expires. -/
def Grants (T : Host N V) (request : MigratePrepareRequest N) (now : Nat) : Prop :=
  (T.handleMigratePrepare request now).2.ready = true ∧
    ∃ reservationId,
      (T.handleMigratePrepare request now).2.reservationId = some reservationId ∧
      ∀ actorId later, later ≤ now + defaultReservationTtlMs →
        ((T.handleMigratePrepare request now).1.registry.confirmReservation
          reservationId actorId later).2.isSome

/-- The class is known and nobody else holds an unexpired reservation. -/
structure Unobstructed (T : Host N V) (request : MigratePrepareRequest N)
    (now : Nat) : Prop where
  class_mem : request.actorClassName ∈ T.actorClasses
  unreserved : ∀ e ∈ T.registry.reservations.entries.entries,
    e.2.name = request.actorName → e.2.expiresAt < now

/-- The target received the registration that the source owns. -/
structure Synchronised (T : Host N V) (request : MigratePrepareRequest N) : Prop where
  distinct : request.sourceNodeId ≠ T.id
  received : ∃ reg, T.registry.gossip.find request.actorName = some reg ∧
    reg.nodeId = request.sourceNodeId

theorem reserveName_none {rs : Reservations N} {location : ActorLocation N}
    {nodeId : N} (h : location.nodeId ≠ nodeId) (name : String) (now ttlMs : Nat) :
    (rs.reserveName (some location) name nodeId now ttlMs).2 = none := by
  simp [Reservations.reserveName, h]

/-- A free name is reserved under the next id. -/
theorem reserveName_some {rs : Reservations N} {existing : Option (ActorLocation N)}
    {name : String} {nodeId : N} {now : Nat}
    (hfree : ∀ location ∈ existing, location.nodeId = nodeId)
    (hunreserved : ∀ e ∈ rs.entries.entries, e.2.name = name → e.2.expiresAt < now)
    (ttlMs : Nat) :
    (rs.reserveName existing name nodeId now ttlMs).2 = some rs.nextId ∧
      (rs.reserveName existing name nodeId now ttlMs).1.find rs.nextId =
        some ⟨rs.nextId, name, nodeId, now + ttlMs⟩ := by
  have hany : ((rs.cleanupExpired now).entries.entries.any fun e =>
      e.2.name = name ∧ e.2.nodeId ≠ nodeId) = false := by
    rw [List.any_eq_false]
    intro e he hmatch
    obtain ⟨hmem, hlive⟩ := List.mem_filter.1 he
    have hname : e.2.name = name := by
      simp only [decide_eq_true_eq] at hmatch
      exact hmatch.1
    simp only [decide_eq_true_eq] at hlive
    exact hlive (hunreserved e hmem hname)
  have htaken : (existing.any fun location => location.nodeId ≠ nodeId) = false := by
    cases existing with
    | none => rfl
    | some location => simp [hfree location rfl]
  simp only [Reservations.reserveName, htaken, hany, Bool.false_eq_true, if_false]
  exact ⟨rfl, AList.lookup_insert _⟩

/-- An unexpired reservation is confirmed. -/
theorem confirm_isSome {r : DistributedRegistry N} {id : ReservationId}
    {reservation : NameReservation N} (h : r.reservations.find id = some reservation)
    {now : Nat} (hlive : now ≤ reservation.expiresAt) (actorId : ActorId) :
    (r.confirmReservation id actorId now).2.isSome := by
  have hclaim : r.reservations.claim id now = (r.reservations, some reservation) := by
    simp [Reservations.claim, h, Nat.not_lt.2 hlive]
  simp [DistributedRegistry.confirmReservation, hclaim]

/-- A target grants the migration exactly when its own table gives the name to
nobody else. -/
theorem grants_iff {T : Host N V} {request : MigratePrepareRequest N} {now : Nat}
    (h : Unobstructed T request now) :
    Grants T request now ↔
      ∀ reg, T.registry.gossip.find request.actorName = some reg → reg.nodeId = T.id := by
  have hclass : ¬ request.actorClassName ∉ T.actorClasses := not_not.2 h.class_mem
  constructor
  · rintro ⟨hready, -⟩ reg hreg
    by_contra hother
    have hlookup : T.registry.lookup request.actorName = some reg.location := by
      simp [DistributedRegistry.lookup, RegistrySync.lookup, hreg]
    have hnone : (T.registry.reserveName request.actorName T.id now).2 = none := by
      rw [DistributedRegistry.reserveName, hlookup]
      exact reserveName_none hother request.actorName now defaultReservationTtlMs
    rcases hreserve : T.registry.reserveName request.actorName T.id now with ⟨r, o⟩
    rw [hreserve] at hnone
    subst hnone
    simp [Host.handleMigratePrepare, h.class_mem, hreserve] at hready
  · intro hfree
    have hlocation : ∀ location ∈ T.registry.lookup request.actorName,
        location.nodeId = T.id := by
      intro location hmem
      obtain ⟨reg, hreg, rfl⟩ := Option.map_eq_some_iff.1 hmem
      exact hfree reg hreg
    obtain ⟨hid, hfind⟩ := reserveName_some hlocation h.unreserved
      defaultReservationTtlMs
    have hreserve : T.registry.reserveName request.actorName T.id now =
        ({ T.registry with reservations := (T.registry.reservations.reserveName
            (T.registry.lookup request.actorName) request.actorName T.id now
              defaultReservationTtlMs).1 },
          some T.registry.reservations.nextId) := by
      rw [DistributedRegistry.reserveName, hid]
    have hprepare : T.handleMigratePrepare request now =
        ({ T with registry := (T.registry.reserveName request.actorName T.id now).1 },
          { ready := true
            reservationId := some T.registry.reservations.nextId }) := by
      simp [Host.handleMigratePrepare, h.class_mem, hreserve]
    rw [Grants, hprepare]
    refine ⟨rfl, _, rfl, fun actorId later hlater => ?_⟩
    rw [hreserve]
    exact confirm_isSome hfind hlater actorId

/-- A target that has received the source's registration never grants. -/
theorem synchronised_never_grants {T : Host N V} {request : MigratePrepareRequest N}
    {now : Nat} (h : Unobstructed T request now) (hsync : Synchronised T request) :
    ¬ Grants T request now := by
  rw [grants_iff h]
  obtain ⟨reg, hreg, howner⟩ := hsync.received
  intro hfree
  exact hsync.distinct (howner ▸ hfree reg hreg)

/-- Node 1 after node 0 registered the name and node 1 received the update. -/
def synchronisedTarget : Host Nat Nat :=
  let update := ((RegistrySync.new 0).register "counter" 0 7 100).2
  let target : Host Nat Nat := .new 1 {"Counter"}
  { target with registry :=
      { target.registry with
        gossip := target.registry.gossip.handleRegistryUpdate update } }

theorem unobstructed_synchronisedTarget :
    Unobstructed synchronisedTarget ⟨"counter", "Counter", 0⟩ 200 :=
  ⟨by decide, by simp [synchronisedTarget, Host.new, DistributedRegistry.new,
    Reservations.empty]⟩

theorem received_synchronisedTarget :
    Synchronised synchronisedTarget ⟨"counter", "Counter", 0⟩ :=
  ⟨by decide, _, rfl, rfl⟩

theorem synchronised_never_grants_counter :
    ¬ Grants synchronisedTarget ⟨"counter", "Counter", 0⟩ 200 :=
  synchronised_never_grants unobstructed_synchronisedTarget received_synchronisedTarget

/-- The prepare of a synchronised cluster is refused. -/
theorem synchronised_prepare_refused :
    Unobstructed synchronisedTarget ⟨"counter", "Counter", 0⟩ 200 ∧
      Synchronised synchronisedTarget ⟨"counter", "Counter", 0⟩ ∧
      (synchronisedTarget.handleMigratePrepare ⟨"counter", "Counter", 0⟩ 200).2 =
        { ready := false
          error := some "Failed to reserve name: counter" } ∧
      ¬ Grants synchronisedTarget ⟨"counter", "Counter", 0⟩ 200 :=
  ⟨unobstructed_synchronisedTarget, received_synchronisedTarget, by decide,
    fun hgrants => absurd hgrants.1 (by decide)⟩

end Libeam.Proofs.MigratePrepare
