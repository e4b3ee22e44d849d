import Libeam.Registry.Cluster
/-!
# What every run of a cluster of registries keeps

No clock in circulation, in a table or in a publication, knows more about a node
than the node itself; instance ids are used once.
-/

namespace Libeam.Proofs.RegistryRun

open Libeam.System Registry Registry.Cluster Lib.Transition

variable {N : Type} [LinearOrder N]

/-- What a node does to its own copy, and what it publishes. -/
inductive Local (actorId : ActorId) (g : RegistrySync N) :
    RegistrySync N → List (RegistryUpdate N) → Prop where
  | idle : Local actorId g g []
  | registered (name : String) (nodeId : N) (now : Nat) :
      Local actorId g (g.register name nodeId actorId now).1
        [(g.register name nodeId actorId now).2]
  | unregistered (name : String) (existing : ActorRegistration N)
      (found : g.find name = some existing) :
      Local actorId g (g.unregister name).1
        [⟨.unregister, { existing with vectorClock := g.localClock.increment g.nodeId }⟩]

/-- One step of the cluster, as a change of the copies and the publications. -/
inductive Moves (c c' : Cluster N) : Prop where
  | act (n : N) (g : RegistrySync N) (us : List (RegistryUpdate N))
      (change : Local c.nextActorId (c.gossip n) g us)
      (gossip : ∀ m, c'.gossip m = if m = n then g else c.gossip m)
      (published : ∀ p, c'.published p = c.published p ++ if p = n then us else [])
      (delivered : c'.delivered = c.delivered)
      (nextActorId : c'.nextActorId = c.nextActorId + 1 ∨
        c'.nextActorId = c.nextActorId ∧ ∀ u ∈ us, u.type = .unregister)
  | deliver (r p : N) (u : RegistryUpdate N) (other : r ≠ p)
      (next : (c.published p)[c.delivered r p]? = some u)
      (gossip : ∀ m, c'.gossip m =
        if m = r then (c.gossip r).handleRegistryUpdate u else c.gossip m)
      (published : c'.published = c.published)
      (delivered : ∀ r' p', c'.delivered r' p' =
        c.delivered r' p' + if r' = r ∧ p' = p then 1 else 0)
      (nextActorId : c'.nextActorId = c.nextActorId)

theorem gossip_act (c : Cluster N) (n : N) (r : DistributedRegistry N)
    (us : List (RegistryUpdate N)) (m : N) :
    (c.act n r us).gossip m = if m = n then r.gossip else c.gossip m := by
  unfold gossip
  rw [act_node, Function.update_apply]
  split_ifs <;> rfl

theorem published_act (c : Cluster N) (n : N) (r : DistributedRegistry N)
    (us : List (RegistryUpdate N)) (p : N) :
    (c.act n r us).published p = c.published p ++ if p = n then us else [] := by
  rw [act_published, Function.update_apply]
  split_ifs with h
  · rw [h]
  · rw [List.append_nil]

theorem unregister_result (g : RegistrySync N) (name : String) :
    (g.unregister name).2.toList = [] ∧ (g.unregister name).1 = g ∨
      ∃ existing, g.find name = some existing ∧ (g.unregister name).2.toList =
        [⟨.unregister, { existing with
          vectorClock := g.localClock.increment g.nodeId }⟩] := by
  cases hfind : g.find name with
  | none => exact .inl (by simp [RegistrySync.unregister, hfind])
  | some existing => exact .inr ⟨existing, rfl, by simp [RegistrySync.unregister, hfind]⟩

theorem confirm_result (r : DistributedRegistry N) (id : ReservationId)
    (actorId : ActorId) (now : Nat) :
    (r.confirmReservation id actorId now).2.toList = [] ∧
        (r.confirmReservation id actorId now).1.gossip = r.gossip ∨
      ∃ reservation, r.reservations.find id = some reservation ∧
        (r.confirmReservation id actorId now).1.gossip =
          (r.gossip.register reservation.name reservation.nodeId actorId now).1 ∧
        (r.confirmReservation id actorId now).2.toList =
          [(r.gossip.register reservation.name reservation.nodeId actorId now).2] := by
  unfold DistributedRegistry.confirmReservation Reservations.claim
  cases hfind : r.reservations.find id with
  | none => exact .inl ⟨rfl, rfl⟩
  | some reservation =>
      by_cases hexpired : reservation.expiresAt < now
      · simp [hexpired]
      · simp [hexpired]

theorem gossip_confirmReservation (c : Cluster N) (n m : N) (id : ReservationId)
    (now : Nat) :
    (c.confirmReservation n id now).gossip m =
      if m = n then
        ((c.node n).confirmReservation id c.nextActorId now).1.gossip
      else c.gossip m :=
  gossip_act c n _ ((c.node n).confirmReservation id c.nextActorId now).2.toList m

theorem published_confirmReservation (c : Cluster N) (n p : N) (id : ReservationId)
    (now : Nat) :
    (c.confirmReservation n id now).published p = c.published p ++
      if p = n then
        ((c.node n).confirmReservation id c.nextActorId now).2.toList
      else [] :=
  published_act c n ((c.node n).confirmReservation id c.nextActorId now).1 _ p

theorem deliver_result {c c' : Cluster N} {r p : N} (h : c.deliver r p = some c') :
    ∃ u, r ≠ p ∧ (c.published p)[c.delivered r p]? = some u ∧
      (∀ m, c'.gossip m =
        if m = r then (c.gossip r).handleRegistryUpdate u else c.gossip m) ∧
      c'.published = c.published ∧
      (∀ r' p', c'.delivered r' p' =
        c.delivered r' p' + if r' = r ∧ p' = p then 1 else 0) ∧
      c'.nextActorId = c.nextActorId := by
  unfold Cluster.deliver at h
  split_ifs at h with hne
  split at h
  next => cases h
  next u hnext =>
    cases h
    refine ⟨u, hne, hnext, ?_, rfl, ?_, rfl⟩
    · intro m
      unfold gossip
      dsimp only
      rw [Function.update_apply]
      split_ifs <;> rfl
    · intro r' p'
      by_cases hr : r' = r
      · subst hr
        by_cases hp : p' = p
        · simp [hp]
        · simp [hp]
      · simp [hr]

theorem step_moves {c c' : Cluster N} {a : ClusterAction N}
    (hst : c.step a = some c') : Moves c c' := by
  cases a with
  | register n name now =>
      cases hst
      have hgossip := gossip_act c n { c.node n with
        gossip := ((c.gossip n).register name n c.nextActorId now).1 }
          [((c.gossip n).register name n c.nextActorId now).2]
      have hpublished := published_act c n { c.node n with
        gossip := ((c.gossip n).register name n c.nextActorId now).1 }
          [((c.gossip n).register name n c.nextActorId now).2]
      exact .act n _ _ (.registered name n now) hgossip hpublished rfl (.inl rfl)
  | unregister n name =>
      cases hst
      rcases unregister_result (c.gossip n) name with ⟨hus, hg⟩ | ⟨existing, hfind, hus⟩
      · refine .act n (c.gossip n) [] .idle ?_ ?_ rfl (.inr ⟨rfl, by simp⟩)
        · intro m
          rw [Cluster.unregister, gossip_act, hg]
        · intro p
          rw [Cluster.unregister, published_act, hus]
      · refine .act n _ _ (.unregistered name existing hfind) (gossip_act c n _ _) ?_
          rfl (.inr ⟨rfl, by simp⟩)
        intro p
        rw [Cluster.unregister, published_act, hus]
  | reserveName n name now =>
      cases hst
      exact .act n (c.gossip n) [] .idle (gossip_act c n _ _) (published_act c n _ _)
        rfl (.inr ⟨rfl, by simp⟩)
  | confirmReservation n reservationId now =>
      cases hst
      rcases confirm_result (c.node n) reservationId c.nextActorId now with
        ⟨hus, hg⟩ | ⟨reservation, -, hg, hus⟩
      · refine .act n (c.gossip n) [] .idle ?_ ?_ rfl (.inl rfl)
        · intro m
          rw [gossip_confirmReservation, hg]
          rfl
        · intro p
          rw [published_confirmReservation, hus]
      · refine .act n _ _ (.registered reservation.name reservation.nodeId now) ?_ ?_ rfl
          (.inl rfl)
        · intro m
          rw [gossip_confirmReservation, hg]
          rfl
        · intro p
          rw [published_confirmReservation, hus]
          rfl
  | releaseReservation n reservationId =>
      cases hst
      exact .act n (c.gossip n) [] .idle (gossip_act c n _ _) (published_act c n _ _)
        rfl (.inr ⟨rfl, by simp⟩)
  | deliver r p =>
      obtain ⟨u, hother, hnext, hgossip, hpublished, hdelivered, hid⟩ := deliver_result hst
      exact .deliver r p u hother hnext hgossip hpublished hdelivered hid

/-! ## Clocks -/

/-- A clock that knows no more about a node than the node itself. -/
def Bounded (c : Cluster N) (clock : VectorClock N) : Prop :=
  ∀ m, clock.get m ≤ (c.gossip m).localClock.get m

structure Ordered (c : Cluster N) : Prop where
  nodeId : ∀ n, (c.gossip n).nodeId = n
  clock : ∀ n, Bounded c (c.gossip n).localClock
  published : ∀ p, ∀ u ∈ c.published p, Bounded c u.registration.vectorClock
  entry : ∀ n name reg, (c.gossip n).find name = some reg →
    reg.name = name ∧ Bounded c reg.vectorClock ∧ reg.actorId < c.nextActorId
  fresh : ∀ p, ∀ u ∈ c.published p, u.registration.actorId < c.nextActorId
  delivered : ∀ r p, c.delivered r p ≤ (c.published p).length

theorem ordered_init : Ordered (init : Cluster N) where
  nodeId := fun _ => rfl
  clock := fun _ _ => Nat.le_refl 0
  published := fun _ u hu => by cases hu
  entry := fun _ _ _ h => by cases h
  fresh := fun _ u hu => by cases hu
  delivered := fun _ _ => Nat.le_refl 0

/-- What a local change does to the node's own clock. -/
theorem Local.clock {actorId : ActorId} {g g' : RegistrySync N}
    {us : List (RegistryUpdate N)} (h : Local actorId g g' us) :
    g'.nodeId = g.nodeId ∧
      (g'.localClock = g.localClock ∧ us = [] ∨
        g'.localClock = g.localClock.increment g.nodeId) ∧
      ∀ u ∈ us, u.registration.vectorClock = g'.localClock := by
  cases h with
  | idle => exact ⟨rfl, .inl ⟨rfl, rfl⟩, by simp⟩
  | registered name nodeId now => exact ⟨rfl, .inr rfl, by simp [RegistrySync.register]⟩
  | unregistered name existing hfind =>
      simp [RegistrySync.unregister, hfind]

theorem localClock_handleRegistryUpdate (g : RegistrySync N) (u : RegistryUpdate N) :
    (g.handleRegistryUpdate u).nodeId = g.nodeId ∧
      ((g.handleRegistryUpdate u).localClock = g.localClock ∨
        (g.handleRegistryUpdate u).localClock =
          g.localClock.merge u.registration.vectorClock) := by
  unfold RegistrySync.handleRegistryUpdate
  split
  · unfold RegistrySync.handleUnregister
    split
    · exact ⟨rfl, .inl rfl⟩
    · split_ifs
      · exact ⟨rfl, .inr rfl⟩
      · exact ⟨rfl, .inl rfl⟩
  · unfold RegistrySync.handleRegister
    split
    · exact ⟨rfl, .inr rfl⟩
    · split_ifs
      · exact ⟨rfl, .inr rfl⟩
      · exact ⟨rfl, .inl rfl⟩

/-- A node's clock never goes back. -/
theorem Moves.clock_mono {c c' : Cluster N} (h : Moves c c') (m : N) :
    (c.gossip m).localClock.get ≤ (c'.gossip m).localClock.get := by
  intro k
  rcases h with ⟨n, g, us, hlocal, hgossip, -, -, -⟩ | ⟨r, p, u, -, -, hgossip, -, -, -⟩
  · rw [hgossip]
    split_ifs with hm
    · subst hm
      rcases hlocal.clock.2.1 with ⟨hclock, -⟩ | hclock
      · rw [hclock]
      · rw [hclock]
        exact VectorClock.get_le_increment _ _ _
    · exact Nat.le_refl _
  · rw [hgossip]
    split_ifs with hm
    · subst hm
      rcases (localClock_handleRegistryUpdate (c.gossip m) u).2 with hclock | hclock
      · rw [hclock]
      · rw [hclock, VectorClock.get_merge]
        exact Nat.le_max_left _ _
    · exact Nat.le_refl _

theorem Bounded.moves {c c' : Cluster N} {clock : VectorClock N}
    (h : Bounded c clock) (hmoves : Moves c c') : Bounded c' clock :=
  fun m => (h m).trans (hmoves.clock_mono m m)

/-- Every entry after a local change was there before or has just been made. -/
theorem Local.entry {actorId : ActorId} {g g' : RegistrySync N}
    {us : List (RegistryUpdate N)} (h : Local actorId g g' us) {name : String}
    {reg : ActorRegistration N} (hfind : g'.find name = some reg) :
    g.find name = some reg ∨
      reg.name = name ∧ reg.actorId = actorId ∧ (⟨.register, reg⟩ : RegistryUpdate N) ∈ us := by
  cases h with
  | idle => exact .inl hfind
  | registered name' nodeId now =>
      rw [RegistrySync.find_register] at hfind
      split_ifs at hfind with heq
      · cases hfind
        exact .inr ⟨heq.symm, rfl, List.mem_singleton.2 rfl⟩
      · exact .inl hfind
  | unregistered name' existing hexisting =>
      rw [RegistrySync.find_unregister] at hfind
      split_ifs at hfind
      exact .inl hfind

theorem entry_handleRegistryUpdate {g : RegistrySync N} {u : RegistryUpdate N}
    {name : String} {reg : ActorRegistration N}
    (hfind : (g.handleRegistryUpdate u).find name = some reg) :
    g.find name = some reg ∨
      u.type = .register ∧ reg = u.registration ∧ reg.name = name := by
  by_cases hname : name = u.registration.name
  · subst hname
    unfold RegistrySync.handleRegistryUpdate at hfind
    split at hfind
    · rw [RegistrySync.find_handleUnregister] at hfind
      split at hfind
      next => cases hfind
      next existing hexisting =>
        split_ifs at hfind
        exact .inl (hexisting.trans hfind)
    next htype =>
      rw [RegistrySync.find_handleRegister] at hfind
      split at hfind
      next =>
        cases hfind
        exact .inr ⟨htype, rfl, rfl⟩
      next existing hexisting =>
        split_ifs at hfind
        · cases hfind
          exact .inr ⟨htype, rfl, rfl⟩
        · exact .inl (hexisting.trans hfind)
  · rw [RegistrySync.find_handleRegistryUpdate_of_ne g hname] at hfind
    exact .inl hfind

/-- The instance of a publication is new, or that of the entry it withdraws. -/
theorem Local.fresh {actorId : ActorId} {g g' : RegistrySync N}
    {us : List (RegistryUpdate N)} (h : Local actorId g g' us) {u : RegistryUpdate N}
    (hu : u ∈ us) :
    u.type = .register ∧ u.registration.actorId = actorId ∨
      ∃ name existing, g.find name = some existing ∧
        u.registration.actorId = existing.actorId := by
  cases h with
  | idle => cases hu
  | registered name nodeId now =>
      rw [List.mem_singleton.1 hu]
      exact .inl ⟨rfl, rfl⟩
  | unregistered name existing hfind =>
      rw [List.mem_singleton.1 hu]
      exact .inr ⟨name, existing, hfind, rfl⟩

theorem ordered_moves {c c' : Cluster N} (h : Ordered c) (hmoves : Moves c c') :
    Ordered c' := by
  have hold : ∀ {clock}, Bounded c clock → Bounded c' clock := fun hb => hb.moves hmoves
  rcases hmoves with ⟨n, g, us, hlocal, hgossip, hpublished, hdelivered, hid⟩ |
    ⟨r, p, u, hother, hnext, hgossip, hpublished, hdelivered, hid⟩
  · obtain ⟨hnodeId, hclock, hus⟩ := hlocal.clock
    have hle : c.nextActorId ≤ c'.nextActorId := by
      rcases hid with hid | ⟨hid, -⟩
      · exact hid ▸ Nat.le_succ _
      · exact hid.ge
    -- the node's new clock is bounded, hence so is what it publishes
    have hnew : Bounded c' g.localClock := by
      intro m
      rw [hgossip]
      split_ifs with hm
      · exact Nat.le_refl _
      · rcases hclock with ⟨heq, -⟩ | heq
        · rw [heq]
          exact h.clock n m
        · rw [heq, VectorClock.get_increment, h.nodeId, if_neg hm]
          exact h.clock n m
    refine ⟨fun m => ?_, fun m => ?_, fun q w hw => ?_, fun m name reg hfind => ?_,
      fun q w hw => ?_, fun r' q => ?_⟩
    · rw [hgossip]
      split_ifs with hm
      · rw [hnodeId, h.nodeId, hm]
      · exact h.nodeId m
    · rw [hgossip]
      split_ifs with hm
      · exact hnew
      · exact hold (h.clock m)
    · rw [hpublished, List.mem_append] at hw
      rcases hw with hw | hw
      · exact hold (h.published q w hw)
      · split_ifs at hw with hq
        · rw [hus w hw]
          exact hnew
        · cases hw
    · rw [hgossip] at hfind
      split_ifs at hfind with hm
      · rcases hlocal.entry hfind with hfind | ⟨hname, hactor, hmem⟩
        · obtain ⟨hname, hbounded, hlt⟩ := h.entry n name reg hfind
          exact ⟨hname, hold hbounded, hlt.trans_le hle⟩
        · refine ⟨hname, ?_, ?_⟩
          · have hreg := hus _ hmem
            rw [show reg.vectorClock = g.localClock from hreg]
            exact hnew
          · rcases hid with hid | ⟨-, hun⟩
            · rw [hid, hactor]
              exact Nat.lt_succ_self _
            · cases hun _ hmem
      · obtain ⟨hname, hbounded, hlt⟩ := h.entry m name reg hfind
        exact ⟨hname, hold hbounded, hlt.trans_le hle⟩
    · rw [hpublished, List.mem_append] at hw
      rcases hw with hw | hw
      · exact (h.fresh q w hw).trans_le hle
      · split_ifs at hw with hq
        · rcases hlocal.fresh hw with ⟨hreg, hactor⟩ | ⟨name, existing, hfind, hactor⟩
          · rcases hid with hid | ⟨-, hun⟩
            · rw [hid, hactor]
              exact Nat.lt_succ_self _
            · rw [hun w hw] at hreg
              cases hreg
          · rw [hactor]
            exact (h.entry n name existing hfind).2.2.trans_le hle
        · cases hw
    · rw [hdelivered, hpublished, List.length_append]
      exact (h.delivered r' q).trans (Nat.le_add_right _ _)
  · have hmem : u ∈ c.published p := List.mem_of_getElem? hnext
    refine ⟨fun m => ?_, fun m => ?_, fun q w hw => ?_, fun m name reg hfind => ?_,
      fun q w hw => ?_, fun r' q => ?_⟩
    · rw [hgossip]
      split_ifs with hm
      · rw [(localClock_handleRegistryUpdate _ u).1, h.nodeId, hm]
      · exact h.nodeId m
    · rw [hgossip]
      split_ifs with hm
      · rcases (localClock_handleRegistryUpdate (c.gossip r) u).2 with heq | heq
        · rw [heq]
          exact hold (h.clock r)
        · intro k
          rw [heq, VectorClock.get_merge]
          exact Nat.max_le.2 ⟨hold (h.clock r) k, hold (h.published p u hmem) k⟩
      · exact hold (h.clock m)
    · rw [hpublished] at hw
      exact hold (h.published q w hw)
    · rw [hgossip] at hfind
      split_ifs at hfind with hm
      · rcases entry_handleRegistryUpdate hfind with hfind | ⟨-, heq, hname⟩
        · obtain ⟨hname, hbounded, hlt⟩ := h.entry r name reg hfind
          exact ⟨hname, hold hbounded, hid ▸ hlt⟩
        · subst heq
          exact ⟨hname, hold (h.published p u hmem), hid ▸ h.fresh p u hmem⟩
      · obtain ⟨hname, hbounded, hlt⟩ := h.entry m name reg hfind
        exact ⟨hname, hold hbounded, hid ▸ hlt⟩
    · rw [hpublished] at hw
      exact hid ▸ h.fresh q w hw
    · rw [hdelivered, hpublished]
      split_ifs with hrp
      · obtain ⟨rfl, rfl⟩ := hrp
        exact (List.getElem?_eq_some_iff.1 hnext).1
      · exact h.delivered r' q

theorem ordered_run {c : Cluster N} {as : List (ClusterAction N)}
    (hrun : run Cluster.step init as = some c) : Ordered c :=
  run_invariant' (fun _ _ _ h hst => ordered_moves h (step_moves hst)) ordered_init hrun

end Libeam.Proofs.RegistryRun
