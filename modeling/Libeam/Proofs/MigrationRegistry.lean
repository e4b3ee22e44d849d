import Mathlib.Order.Fin.Basic
import Libeam.Proofs.RegistryRun
/-!
# What the registries say after a migration

A migration registers the name at the target `T` and then unregisters it at the
source `S`.  `S` counts the unregistration in its own clock, which nobody else
can have seen, so it is never older than the registration of `T`: when the copy
of `S` still has an entry, its unregistration removes the new registration
wherever it arrives.
-/

namespace Libeam.Proofs.MigrationRegistry

open Registry Registry.Cluster Lib.Transition RegistryRun

variable {N : Type} [LinearOrder N]

/-- The action is no operation on the name. -/
def OffName (name : String) (c : Cluster N) : ClusterAction N → Prop
  | .register _ name' _ | .unregister _ name' => name' ≠ name
  | .confirmReservation n id _ =>
      ∀ reservation, (c.node n).reservations.find id = some reservation →
        reservation.name ≠ name
  | _ => True

/-- From the registration at `T` on, the only operation on the name is the
unregistration by `S`. -/
def OnlyUnregisters (S : N) (name : String) (c : Cluster N) (a : ClusterAction N) : Prop :=
  a = .unregister S name ∨ OffName name c a

/-- Does the update take the place of the entry, or remove it? -/
def displaces (u : RegistryUpdate N) (existing : ActorRegistration N) : Bool :=
  match u.type with
  | .register => RegistrySync.replaces u.registration existing
  | .unregister => RegistrySync.removes u.registration existing

/-- The steps that leave `R`, update number `k` of `T`, its place: nobody
withdraws an entry for the name, `R` replaces what it meets, and nothing that
meets `R` displaces it. -/
def Prevails (T : N) (name : String) (k : Nat) (R : ActorRegistration N)
    (c : Cluster N) : ClusterAction N → Prop
  | .unregister n name' => name' = name → (c.gossip n).find name = none
  | .deliver r p =>
      (p = T → c.delivered r p = k → ∀ existing,
        (c.gossip r).find name = some existing →
          RegistrySync.replaces R existing = true) ∧
      ∀ u, (c.published p)[c.delivered r p]? = some u → u.registration.name = name →
        (c.gossip r).find name = some R → displaces u R = false
  | _ => True

/-- The node has processed the registration. -/
def Seen (T : N) (k : Nat) (c : Cluster N) (n : N) : Prop :=
  n = T ∨ k < c.delivered n T

structure Migrated (T : N) (name : String) (k : Nat) (R : ActorRegistration N)
    (c : Cluster N) : Prop where
  ordered : Ordered c
  name_eq : R.name = name
  published : (c.published T)[k]? = some ⟨.register, R⟩
  unique : ∀ p (i : Nat) u, (c.published p)[i]? = some u → u.type = .register →
    u.registration.name = name → u.registration.location = R.location → p = T ∧ i = k
  entry : ∀ n existing, (c.gossip n).find name = some existing →
    existing.location = R.location → existing = R ∧ Seen T k c n

/-- Everybody who has processed the registration holds it. -/
structure Holding (T : N) (name : String) (k : Nat) (R : ActorRegistration N)
    (c : Cluster N) : Prop extends Migrated T name k R c where
  holds : ∀ n, Seen T k c n → (c.gossip n).find name = some R

/-- Somebody who has processed the registration does not resolve the name to it. -/
def Lost (T : N) (name : String) (k : Nat) (R : ActorRegistration N)
    (c : Cluster N) : Prop :=
  ∃ n, Seen T k c n ∧ (c.gossip n).lookup name ≠ some R.location

/-- An unregistration that removes it is on its way from `S` to `T`. -/
def Doomed (S T : N) (name : String) (R : ActorRegistration N) (c : Cluster N) : Prop :=
  S ≠ T ∧ ∃ i u, (c.published S)[i]? = some u ∧ u.type = .unregister ∧
    u.registration.name = name ∧ RegistrySync.removes u.registration R = true ∧
      c.delivered T S ≤ i

/-! ## The steps -/

/-- A step that neither touches entries of the name nor publishes about it. -/
structure Apart (name : String) (c c' : Cluster N) : Prop where
  find : ∀ n, (c'.gossip n).find name = (c.gossip n).find name
  delivered : c'.delivered = c.delivered
  published : ∀ p, ∃ us, c'.published p = c.published p ++ us ∧
    ∀ u ∈ us, u.registration.name ≠ name

/-- What the admitted actions can do, as far as the name is concerned. -/
inductive Change (S : N) (name : String) (c c' : Cluster N) : ClusterAction N → Prop where
  | apart (a : ClusterAction N) (h : Apart name c c')
      (free : ∀ T k R, Prevails T name k R c a) : Change S name c c' a
  | withdraw (existing : ActorRegistration N)
      (found : (c.gossip S).find name = some existing)
      (find : ∀ n, (c'.gossip n).find name =
        if n = S then none else (c.gossip n).find name)
      (published : ∀ p, c'.published p = c.published p ++
        if p = S then
          [⟨.unregister, { existing with
            vectorClock := (c.gossip S).localClock.increment (c.gossip S).nodeId }⟩]
        else [])
      (delivered : c'.delivered = c.delivered) :
      Change S name c c' (.unregister S name)
  | deliver (r p : N) (u : RegistryUpdate N) (other : r ≠ p)
      (next : (c.published p)[c.delivered r p]? = some u)
      (find : ∀ n, (c'.gossip n).find name =
        if n = r then ((c.gossip r).handleRegistryUpdate u).find name
        else (c.gossip n).find name)
      (published : c'.published = c.published)
      (delivered : ∀ r' p', c'.delivered r' p' =
        c.delivered r' p' + if r' = r ∧ p' = p then 1 else 0) :
      Change S name c c' (.deliver r p)

theorem apart_of_act {name : String} (c : Cluster N) (n : N) (r : DistributedRegistry N)
    (us : List (RegistryUpdate N)) (hfind : r.gossip.find name = (c.gossip n).find name)
    (hus : ∀ u ∈ us, u.registration.name ≠ name) : Apart name c (c.act n r us) where
  find := by
    intro m
    rw [gossip_act]
    split_ifs with hm
    · rw [hfind, hm]
    · rfl
  delivered := rfl
  published := by
    intro p
    rw [published_act]
    refine ⟨_, rfl, ?_⟩
    split_ifs
    · exact hus
    · simp

omit [LinearOrder N] in
theorem Apart.useActorId {name : String} {c c' : Cluster N} (h : Apart name c c') :
    Apart name c c'.useActorId := ⟨h.find, h.delivered, h.published⟩

theorem apart_register {name name' : String} (c : Cluster N) (n : N) (now : Nat)
    (hne : name' ≠ name) : Apart name c (c.register n name' now) := by
  refine (apart_of_act c n _ _ ?_ ?_).useActorId
  · exact (RegistrySync.find_register (c.gossip n) name' name n c.nextActorId now).trans
      (if_neg hne.symm)
  · intro u hu
    rw [List.mem_singleton.1 hu]
    exact hne

theorem apart_unregister {name name' : String} {c : Cluster N} (hordered : Ordered c)
    (n : N) (hfree : name' = name → (c.gossip n).find name = none) :
    Apart name c (c.unregister n name') := by
  have hfind : ((c.gossip n).unregister name').1.find name = (c.gossip n).find name := by
    rw [RegistrySync.find_unregister]
    split_ifs with heq
    · exact (hfree heq.symm).symm
    · rfl
  refine apart_of_act c n _ _ hfind ?_
  intro u hu
  rcases unregister_result (c.gossip n) name' with ⟨hnil, -⟩ | ⟨existing, hexisting, heq⟩
  · rw [hnil] at hu
    cases hu
  · rw [heq] at hu
    rw [List.mem_singleton.1 hu]
    intro hname
    have hname' := (hordered.entry n name' existing hexisting).1.symm.trans hname
    rw [hname', hfree hname'] at hexisting
    cases hexisting

theorem apart_confirmReservation {name : String} (c : Cluster N) (n : N)
    (id : ReservationId) (now : Nat)
    (hoff : ∀ reservation, (c.node n).reservations.find id = some reservation →
      reservation.name ≠ name) : Apart name c (c.confirmReservation n id now) := by
  refine (apart_of_act c n _ _ ?_ ?_).useActorId
  · rcases confirm_result (c.node n) id c.nextActorId now with
      ⟨-, hg⟩ | ⟨reservation, hfind, hg, -⟩
    · rw [hg]
      rfl
    · rw [hg, RegistrySync.find_register, if_neg (hoff reservation hfind).symm]
      rfl
  · intro u hu
    rcases confirm_result (c.node n) id c.nextActorId now with
      ⟨hus, -⟩ | ⟨reservation, hfind, -, hus⟩
    · rw [hus] at hu
      cases hu
    · rw [hus] at hu
      rw [List.mem_singleton.1 hu]
      exact hoff reservation hfind

theorem step_change {S : N} {name : String} {c c' : Cluster N} {a : ClusterAction N}
    (hordered : Ordered c) (ha : OnlyUnregisters S name c a)
    (hst : c.step a = some c') : Change S name c c' a := by
  cases a with
  | register n name' now =>
      cases hst
      rcases ha with ha | ha
      · cases ha
      · exact .apart _ (apart_register c n now ha) fun _ _ _ => trivial
  | unregister n name' =>
      cases hst
      by_cases hfree : name' = name → (c.gossip n).find name = none
      · exact .apart _ (apart_unregister hordered n hfree) fun _ _ _ => hfree
      · obtain ⟨heq, hsome⟩ := Classical.not_imp.1 hfree
        rcases ha with ha | ha
        · cases ha
          obtain ⟨existing, hfind⟩ := Option.ne_none_iff_exists'.1 hsome
          refine .withdraw existing hfind ?_ ?_ rfl
          · intro m
            rw [Cluster.unregister, gossip_act]
            split_ifs
            · rw [RegistrySync.find_unregister, if_pos rfl]
            · rfl
          · intro p
            rw [Cluster.unregister, published_act]
            simp [RegistrySync.unregister, hfind]
        · exact absurd heq ha
  | reserveName n name' now =>
      cases hst
      exact .apart _ (apart_of_act c n _ _ rfl (by simp)) fun _ _ _ => trivial
  | confirmReservation n id now =>
      cases hst
      rcases ha with ha | ha
      · cases ha
      · exact .apart _ (apart_confirmReservation c n id now ha) fun _ _ _ => trivial
  | releaseReservation n id =>
      cases hst
      exact .apart _ (apart_of_act c n _ _ rfl (by simp)) fun _ _ _ => trivial
  | deliver r p =>
      obtain ⟨u, hother, hnext, hgossip, hpublished, hdelivered, -⟩ := deliver_result hst
      refine .deliver r p u hother hnext ?_ hpublished hdelivered
      intro n
      rw [hgossip]
      split_ifs <;> rfl

/-! ## The registration in circulation -/

section
variable {S T : N} {name : String} {k : Nat} {R : ActorRegistration N}
  {c c' : Cluster N} {a : ClusterAction N}

omit [LinearOrder N] in
theorem Seen.mono {n : N} (h : Seen T k c n)
    (hle : c.delivered n T ≤ c'.delivered n T) : Seen T k c' n :=
  h.imp id fun hlt => Nat.lt_of_lt_of_le hlt hle

theorem Change.delivered_le (h : Change S name c c' a) (n p : N) :
    c.delivered n p ≤ c'.delivered n p := by
  cases h with
  | apart _ h _ => rw [h.delivered]
  | withdraw existing found find published delivered => rw [delivered]
  | deliver r p u other next find published delivered =>
      rw [delivered]
      exact Nat.le_add_right _ _

/-- Nothing is published but what is in circulation, unregistrations of the name
and updates of other names. -/
theorem Change.published_append (h : Change S name c c' a) (p : N) :
    ∃ us, c'.published p = c.published p ++ us ∧
      ∀ u ∈ us, u.registration.name = name → u.type = .unregister := by
  cases h with
  | apart _ h _ =>
      obtain ⟨us, heq, hus⟩ := h.published p
      exact ⟨us, heq, fun u hu hname => absurd hname (hus u hu)⟩
  | withdraw existing found find published delivered =>
      refine ⟨_, published p, fun u hu _ => ?_⟩
      split_ifs at hu
      · rw [List.mem_singleton.1 hu]
      · cases hu
  | deliver r p' u other next find published delivered =>
      exact ⟨[], by rw [published, List.append_nil], by simp⟩

/-- What a node gets to hold under the name it held before or is delivered. -/
theorem Change.entry (h : Change S name c c' a) {n : N} {existing : ActorRegistration N}
    (hfind : (c'.gossip n).find name = some existing) :
    (c.gossip n).find name = some existing ∨
      ∃ p u, n ≠ p ∧ (c.published p)[c.delivered n p]? = some u ∧ u.type = .register ∧
        existing = u.registration ∧ existing.name = name ∧
        c'.delivered n p = c.delivered n p + 1 := by
  cases h with
  | apart _ h _ =>
      rw [h.find] at hfind
      exact .inl hfind
  | withdraw existing' found find published delivered =>
      rw [find] at hfind
      split_ifs at hfind
      exact .inl hfind
  | deliver r p u other next find published delivered =>
      rw [find] at hfind
      split_ifs at hfind with hn
      · subst hn
        rcases entry_handleRegistryUpdate hfind with hfind | ⟨htype, heq, hname⟩
        · exact .inl hfind
        · refine .inr ⟨p, u, other, next, htype, heq, hname, ?_⟩
          rw [delivered, if_pos ⟨rfl, rfl⟩]
      · exact .inl hfind

theorem Migrated.step (h : Migrated T name k R c) (hmoves : Moves c c')
    (hchange : Change S name c c' a) : Migrated T name k R c' where
  ordered := ordered_moves h.ordered hmoves
  name_eq := h.name_eq
  published := by
    obtain ⟨us, heq, -⟩ := hchange.published_append T
    rw [heq, List.getElem?_append_left (List.getElem?_eq_some_iff.1 h.published).1]
    exact h.published
  unique := by
    intro p i u hu htype hname hlocation
    obtain ⟨us, heq, hus⟩ := hchange.published_append p
    rw [heq, List.getElem?_append] at hu
    split_ifs at hu
    · exact h.unique p i u hu htype hname hlocation
    · rw [hus u (List.mem_of_getElem? hu) hname] at htype
      cases htype
  entry := by
    intro n existing hfind hlocation
    rcases hchange.entry hfind with hfind | ⟨p, u, -, hu, htype, heq, hname, hdelivered⟩
    · obtain ⟨heq, hseen⟩ := h.entry n existing hfind hlocation
      exact ⟨heq, hseen.mono (hchange.delivered_le n T)⟩
    · rw [heq] at hlocation hname
      obtain ⟨rfl, hk⟩ := h.unique p _ u hu htype hname hlocation
      rw [hk, h.published] at hu
      cases hu
      refine ⟨heq, .inr ?_⟩
      rw [hdelivered, hk]
      exact Nat.lt_succ_self k

/-- A node that has processed the registration and does not resolve the name to
it will not do so again. -/
theorem Lost.step (h : Lost T name k R c) (hmigrated : Migrated T name k R c)
    (hchange : Change S name c c' a) : Lost T name k R c' := by
  obtain ⟨n, hseen, hlookup⟩ := h
  refine ⟨n, hseen.mono (hchange.delivered_le n T), fun hlookup' => hlookup ?_⟩
  obtain ⟨existing, hfind, hlocation⟩ := Option.map_eq_some_iff.1 hlookup'
  rcases hchange.entry hfind with hfind | ⟨p, u, hn, hu, htype, heq, hname, -⟩
  · exact Option.map_eq_some_iff.2 ⟨existing, hfind, hlocation⟩
  · rw [heq] at hlocation hname
    obtain ⟨rfl, hk⟩ := hmigrated.unique p _ u hu htype hname hlocation
    rcases hseen with hseen | hseen
    · exact absurd hseen hn
    · exact absurd hk hseen.ne'

/-- Either the fatal unregistration is still on its way, or it has arrived. -/
theorem Doomed.step (h : Doomed S T name R c) (hmigrated : Migrated T name k R c)
    (hchange : Change S name c c' a) :
    Lost T name k R c' ∨ Doomed S T name R c' := by
  obtain ⟨hST, i, u, hu, htype, hname, hremoves, hle⟩ := h
  have hu' : (c'.published S)[i]? = some u := by
    obtain ⟨us, heq, -⟩ := hchange.published_append S
    rw [heq, List.getElem?_append_left (List.getElem?_eq_some_iff.1 hu).1]
    exact hu
  by_cases hle' : c'.delivered T S ≤ i
  · exact .inr ⟨hST, i, u, hu', htype, hname, hremoves, hle'⟩
  refine .inl ⟨T, .inl rfl, fun hlookup => ?_⟩
  obtain ⟨existing, hfind, hlocation⟩ := Option.map_eq_some_iff.1 hlookup
  cases hchange with
  | apart _ h _ =>
      rw [h.delivered] at hle'
      exact hle' hle
  | withdraw existing found find published delivered =>
      rw [delivered] at hle'
      exact hle' hle
  | deliver r p v other next find published delivered =>
      rw [delivered] at hle'
      split_ifs at hle' with hrp
      · obtain ⟨rfl, rfl⟩ := hrp
        have hi : c.delivered T S = i := by omega
        rw [hi, hu] at next
        cases next
        rw [find, if_pos rfl, ← hname, RegistrySync.handleRegistryUpdate] at hfind
        rw [htype] at hfind
        simp only [RegistrySync.find_handleUnregister] at hfind
        split at hfind
        next => cases hfind
        next entry hentry =>
          split_ifs at hfind with hremoved
          cases hfind
          rw [hname] at hentry
          obtain ⟨rfl, -⟩ := hmigrated.entry T existing hentry hlocation
          exact hremoved hremoves
      · exact hle' hle

/-! ## The guard decides -/

/-- What an update leaves of an entry for its name. -/
theorem find_handleRegistryUpdate {g : RegistrySync N} {u : RegistryUpdate N}
    {existing : ActorRegistration N} (hfind : g.find u.registration.name = some existing) :
    (g.handleRegistryUpdate u).find u.registration.name =
      if displaces u existing then
        match u.type with
        | .register => some u.registration
        | .unregister => none
      else some existing := by
  unfold displaces RegistrySync.handleRegistryUpdate
  cases u.type with
  | register => simp only [RegistrySync.find_handleRegister, hfind]
  | unregister => simp only [RegistrySync.find_handleUnregister, hfind]

theorem Holding.keep (h : Holding T name k R c) (hmoves : Moves c c')
    (hchange : Change S name c c' a) (hprevails : Prevails T name k R c a) :
    Holding T name k R c' where
  toMigrated := h.toMigrated.step hmoves hchange
  holds := by
    intro n hseen
    cases hchange with
    | apart _ hapart _ =>
        rw [hapart.find]
        refine h.holds n (hseen.imp id fun hlt => ?_)
        rwa [hapart.delivered] at hlt
    | withdraw existing found find published delivered =>
        rw [hprevails rfl] at found
        cases found
    | deliver r p u other next find published delivered =>
        obtain ⟨hreplaces, hstays⟩ := hprevails
        by_cases hseen' : Seen T k c n
        · -- the node holds the registration already
          have hfind := h.holds n hseen'
          rw [find]
          split_ifs with hn
          · subst hn
            by_cases hname : u.registration.name = name
            · have hsame := hstays u next hname hfind
              rw [← hname] at hfind ⊢
              rw [find_handleRegistryUpdate hfind, hsame]
              rfl
            · rw [RegistrySync.find_handleRegistryUpdate_of_ne _ (Ne.symm hname)]
              exact hfind
          · exact hfind
        · -- it is this step that brings the registration
          obtain ⟨hT, hlt⟩ := not_or.1 hseen'
          have hlt' := hseen.resolve_left hT
          rw [delivered] at hlt'
          split_ifs at hlt' with hnp
          · obtain ⟨rfl, rfl⟩ := hnp
            have hk : c.delivered n T = k := by omega
            have hu : u = ⟨.register, R⟩ := by
              rw [hk, h.published] at next
              exact (Option.some.inj next).symm
            rw [find, if_pos rfl, ← h.name_eq, hu]
            refine (RegistrySync.find_handleRegister (c.gossip n) R).trans ?_
            split
            · rfl
            next existing hexisting =>
              rw [h.name_eq] at hexisting
              exact if_pos (hreplaces rfl hk existing hexisting)
          · exact absurd hlt' hlt

/-- No clock in circulation has seen the next event of a node. -/
theorem removes_of_increment (R' : ActorRegistration N) (hordered : Ordered c)
    (hbounded : Bounded c R.vectorClock)
    (hclock : R'.vectorClock = (c.gossip S).localClock.increment (c.gossip S).nodeId) :
    RegistrySync.removes R' R = true := by
  have hne : R'.vectorClock.compare R.vectorClock ≠ .before := by
    rw [Ne, VectorClock.compare_eq_before]
    intro hlt
    have hle := hlt.le S
    rw [hclock, VectorClock.get_increment, hordered.nodeId, if_pos rfl] at hle
    exact absurd (hbounded S) (Nat.not_le.2 hle)
  unfold RegistrySync.removes
  split
  · rfl
  · rfl
  · contradiction

/-- The withdrawal of an entry by `S` is fatal to the registration. -/
theorem Holding.withdrawn (h : Holding T name k R c) {existing : ActorRegistration N}
    (hfound : (c.gossip S).find name = some existing)
    (hfind : ∀ n, (c'.gossip n).find name =
      if n = S then none else (c.gossip n).find name)
    (hpublished : ∀ p, c'.published p = c.published p ++
      if p = S then
        [⟨.unregister, { existing with
          vectorClock := (c.gossip S).localClock.increment (c.gossip S).nodeId }⟩]
      else [])
    (hdelivered : c'.delivered = c.delivered) :
    Lost T name k R c' ∨ Doomed S T name R c' := by
  by_cases hseen : Seen T k c S
  · refine .inl ⟨S, hseen.mono (by rw [hdelivered]), ?_⟩
    rw [RegistrySync.lookup, hfind, if_pos rfl]
    simp
  · have hR : Bounded c R.vectorClock :=
      h.ordered.published T _ (List.mem_of_getElem? h.published)
    have hlast : (c'.published S)[(c.published S).length]? =
        some ⟨.unregister, { existing with
          vectorClock := (c.gossip S).localClock.increment (c.gossip S).nodeId }⟩ := by
      rw [hpublished, if_pos rfl, List.getElem?_append_right (Nat.le_refl _), Nat.sub_self]
      rfl
    refine .inr ⟨fun hST => hseen (.inl hST), _, _, hlast, rfl,
      (h.ordered.entry S name existing hfound).1, ?_, ?_⟩
    · exact removes_of_increment _ h.ordered hR rfl
    · rw [hdelivered]
      exact h.ordered.delivered T S

/-- A delivery that the guard excludes leaves the receiver without the
registration. -/
theorem Holding.displaced (h : Holding T name k R c) {r p : N} {u : RegistryUpdate N}
    (hother : r ≠ p) (hnext : (c.published p)[c.delivered r p]? = some u)
    (hfind : (c'.gossip r).find name =
      ((c.gossip r).handleRegistryUpdate u).find name)
    (hdelivered : ∀ p', c'.delivered r p' = c.delivered r p' + if p' = p then 1 else 0)
    (hbroken : ¬ Prevails T name k R c (.deliver r p)) : Lost T name k R c' := by
  unfold Prevails at hbroken
  rcases not_and_or.1 hbroken with hbroken | hbroken
  · -- the registration arrives and does not replace what it meets
    simp only [not_forall, exists_prop] at hbroken
    obtain ⟨rfl, hk, existing, hexisting, hreplaces⟩ := hbroken
    have hu : u = ⟨.register, R⟩ := by
      rw [hk, h.published] at hnext
      exact (Option.some.inj hnext).symm
    have hseen : Seen p k c' r := by
      refine .inr ?_
      rw [hdelivered, if_pos rfl, hk]
      exact Nat.lt_succ_self k
    refine ⟨r, hseen, fun hlookup => ?_⟩
    have hfind' : (c'.gossip r).find name = some existing := by
      obtain rfl := h.name_eq
      subst hu
      exact hfind.trans ((find_handleRegistryUpdate hexisting).trans (if_neg hreplaces))
    rw [RegistrySync.lookup, hfind'] at hlookup
    obtain ⟨-, hseen'⟩ := h.entry r existing hexisting (Option.some.inj hlookup)
    rcases hseen' with hseen' | hseen'
    · exact hother hseen'
    · exact absurd hk hseen'.ne'
  · -- the update displaces the registration
    simp only [not_forall, exists_prop, Bool.not_eq_false] at hbroken
    obtain ⟨u', hnext', hname, hR, hdisplaces⟩ := hbroken
    obtain rfl : u = u' := Option.some.inj (hnext.symm.trans hnext')
    have hseen : Seen T k c r := (h.entry r R hR rfl).2
    refine ⟨r, hseen.mono (by rw [hdelivered]; exact Nat.le_add_right _ _), fun hlookup => ?_⟩
    rw [← hname] at hR
    rw [RegistrySync.lookup, hfind, ← hname, find_handleRegistryUpdate hR,
      if_pos hdisplaces] at hlookup
    cases htype : u.type with
    | unregister => simp [htype] at hlookup
    | register =>
        rw [htype] at hlookup
        obtain ⟨rfl, hk⟩ := h.unique p _ u hnext htype hname (Option.some.inj hlookup)
        rcases hseen with hseen | hseen
        · exact hother hseen
        · exact absurd hk hseen.ne'

theorem Holding.broken (h : Holding T name k R c) (hchange : Change S name c c' a)
    (hbroken : ¬ Prevails T name k R c a) :
    Lost T name k R c' ∨ Doomed S T name R c' := by
  cases hchange with
  | apart _ _ free => exact absurd (free T k R) hbroken
  | withdraw existing found find published delivered =>
      exact h.withdrawn found find published delivered
  | deliver r p u other next find published delivered =>
      refine .inl (h.displaced other next ?_ ?_ hbroken)
      · rw [find, if_pos rfl]
      · intro p'
        simp [delivered]

end

/-! ## Runs -/

/-- The registration that confirms the reservation of the name at `T`. -/
def confirmed (c : Cluster N) (T : N) (name : String) (now : Nat) : RegistryUpdate N :=
  ((c.gossip T).register name T c.nextActorId now).2

theorem holding_confirmReservation {c : Cluster N} (hordered : Ordered c) {T : N}
    {id : ReservationId} {reservation : NameReservation N} {now : Nat}
    (hfind : (c.node T).reservations.find id = some reservation)
    (hnode : reservation.nodeId = T) (hfresh : ¬ reservation.expiresAt < now) :
    Holding T reservation.name (c.published T).length
      (confirmed c T reservation.name now).registration
      (c.confirmReservation T id now) := by
  have hclaim : (c.node T).confirmReservation id c.nextActorId now =
      ({ c.node T with
          gossip := ((c.gossip T).register reservation.name T c.nextActorId now).1
          reservations := (c.node T).reservations.delete id },
        some (confirmed c T reservation.name now)) := by
    unfold DistributedRegistry.confirmReservation Reservations.claim
    simp only [hfind, if_neg hfresh, hnode]
    rfl
  have hgossip : ∀ n, ((c.confirmReservation T id now).gossip n).find reservation.name =
      if n = T then some (confirmed c T reservation.name now).registration
      else (c.gossip n).find reservation.name := by
    intro n
    rw [gossip_confirmReservation, hclaim]
    split_ifs
    · rw [RegistrySync.find_register, if_pos rfl]
      rfl
    · rfl
  have hpublished : ∀ p, (c.confirmReservation T id now).published p =
      c.published p ++ if p = T then [confirmed c T reservation.name now] else [] := by
    intro p
    rw [published_confirmReservation, hclaim]
    rfl
  refine { ordered := ?_, name_eq := rfl, published := ?_, unique := ?_, entry := ?_,
           holds := ?_ }
  · exact ordered_moves hordered
      (step_moves (a := .confirmReservation T id now) rfl)
  · rw [hpublished, if_pos rfl, List.getElem?_append_right (Nat.le_refl _), Nat.sub_self]
    rfl
  · intro p i u hu htype hname hlocation
    rw [hpublished, List.getElem?_append] at hu
    split_ifs at hu with hlt hp
    · -- an older publication is about an older instance
      have hold := hordered.fresh p u (List.mem_of_getElem? hu)
      exact absurd (congrArg ActorLocation.actorId hlocation) hold.ne
    · subst hp
      obtain ⟨hi, -⟩ := List.getElem?_eq_some_iff.1 hu
      rw [List.length_singleton] at hi
      exact ⟨rfl, by omega⟩
    · cases hu
  · intro n existing hexisting hlocation
    rw [hgossip] at hexisting
    split_ifs at hexisting with hn
    · exact ⟨(Option.some.inj hexisting).symm, .inl hn⟩
    · have hold := (hordered.entry n _ existing hexisting).2.2
      exact absurd (congrArg ActorLocation.actorId hlocation) hold.ne
  · intro n hseen
    rw [hgossip]
    refine if_pos (hseen.resolve_right ?_)
    exact Nat.not_lt.2 (hordered.delivered n T)

theorem migrated_run {S T : N} {name : String} {k : Nat} {R : ActorRegistration N}
    {c c' : Cluster N} {as : List (ClusterAction N)} (hc : Holding T name k R c)
    (honly : Along Cluster.step (OnlyUnregisters S name) c as)
    (hrun : run Cluster.step c as = some c') :
    Along Cluster.step (Prevails T name k R) c as ∧ Holding T name k R c' ∨
      ¬ Along Cluster.step (Prevails T name k R) c as ∧ Migrated T name k R c' ∧
        (Lost T name k R c' ∨ Doomed S T name R c') := by
  refine along_or_broken (I := Holding T name k R)
    (B := fun c => Migrated T name k R c ∧ (Lost T name k R c ∨ Doomed S T name R c))
    ?_ ?_ ?_ hc honly hrun
  · intro c a c' h ha hg hst
    exact h.keep (step_moves hst) (step_change h.ordered ha hst) hg
  · intro c a c' h ha hg hst
    have hchange := step_change h.ordered ha hst
    exact ⟨h.step (step_moves hst) hchange, h.broken hchange hg⟩
  · intro c a c' ⟨h, hbad⟩ ha hst
    have hchange := step_change h.ordered ha hst
    refine ⟨h.step (step_moves hst) hchange, ?_⟩
    rcases hbad with hlost | hdoomed
    · exact .inl (hlost.step h hchange)
    · exact hdoomed.step h hchange

/-- After a migration of the name from `S` to `T`, once every update has been
delivered, all nodes resolve the name to the new instance exactly when the
registration prevailed at each step. -/
theorem resolved_iff {S T : N} {c c' c₂ : Cluster N} {pre as : List (ClusterAction N)}
    {id : ReservationId} {reservation : NameReservation N} {now : Nat}
    (hpre : run Cluster.step init pre = some c)
    (hfind : (c.node T).reservations.find id = some reservation)
    (hnode : reservation.nodeId = T) (hfresh : ¬ reservation.expiresAt < now)
    (hconfirm : c.step (.confirmReservation T id now) = some c')
    (hrun : run Cluster.step c' as = some c₂)
    (honly : Along Cluster.step (OnlyUnregisters S reservation.name) c' as)
    (hdelivered : ∀ r p, r ≠ p → c₂.delivered r p = (c₂.published p).length) :
    (∀ n, (c₂.node n).lookup reservation.name = some ⟨T, c.nextActorId⟩) ↔
      Along Cluster.step (Prevails T reservation.name (c.published T).length
        (confirmed c T reservation.name now).registration) c' as := by
  cases hconfirm
  have hholding := holding_confirmReservation (ordered_run hpre) hfind hnode hfresh
  rcases migrated_run hholding honly hrun with ⟨halong, hgood⟩ | ⟨hbroken, hmigrated, hbad⟩
  · refine iff_of_true (fun n => ?_) halong
    have hseen : Seen T (c.published T).length c₂ n := by
      by_cases hn : n = T
      · exact .inl hn
      · refine .inr ?_
        rw [hdelivered n T hn]
        exact (List.getElem?_eq_some_iff.1 hgood.published).1
    exact congrArg (Option.map ActorRegistration.location) (hgood.holds n hseen)
  · refine iff_of_false (fun hall => ?_) hbroken
    rcases hbad with ⟨n, -, hlost⟩ | ⟨hST, i, u, hu, -, -, -, hle⟩
    · exact hlost (hall n)
    · -- the unregistration has been delivered
      rw [hdelivered T S hST.symm] at hle
      exact absurd (List.getElem?_eq_some_iff.1 hu).1 (Nat.not_lt.2 hle)

/-- Where node `0` has forgotten the name, its unregistration is no update. -/
theorem resolved_iff_forgotten :
    ∃ c c' c₂ : Cluster (Fin 2), run Cluster.step init [.reserveName 1 "counter" 20] = some c ∧
      c.step (.confirmReservation 1 0 30) = some c' ∧
      run Cluster.step c' [.unregister 0 "counter", .deliver 0 1] = some c₂ ∧
      ((∀ n, (c₂.node n).lookup "counter" = some ⟨1, c.nextActorId⟩) ↔
        Along Cluster.step (Prevails 1 "counter" (c.published 1).length
          (confirmed c 1 "counter" 30).registration) c'
            [.unregister 0 "counter", .deliver 0 1]) := by
  have hpre : run Cluster.step (init : Cluster (Fin 2)) [.reserveName 1 "counter" 20] =
      some (init.reserveName 1 "counter" 20) := rfl
  have hfind : ((init.reserveName (1 : Fin 2) "counter" 20).node 1).reservations.find 0 =
      some ⟨0, "counter", 1, 30020⟩ := rfl
  refine ⟨_, _, _, hpre, rfl, rfl, ?_⟩
  exact resolved_iff (S := 0) hpre hfind rfl (by decide) rfl rfl
    ⟨.inl rfl, fun _ _ => ⟨.inr trivial, fun _ _ => trivial⟩⟩ (by decide)

/-- The name registered at `0`, and reserved at `1` before that registration
gets there. -/
def prepareRun : List (ClusterAction (Fin 2)) :=
  [.register 0 "counter" 10, .reserveName 1 "counter" 20]

/-- Node `0` unregisters, and everything published is delivered. -/
def settleRun : List (ClusterAction (Fin 2)) :=
  [.unregister 0 "counter", .deliver 1 0, .deliver 1 0, .deliver 0 1]

/-- The source resolves the name to the target, which has lost it. -/
theorem settleRun_diverges :
    ∃ c c' c₂ : Cluster (Fin 2), run Cluster.step init prepareRun = some c ∧
      (c.node 1).reservations.find 0 = some ⟨0, "counter", 1, 30020⟩ ∧
      c.step (.confirmReservation 1 0 30) = some c' ∧
      Along Cluster.step (OnlyUnregisters 0 "counter") c' settleRun ∧
      run Cluster.step c' settleRun = some c₂ ∧
      (∀ r p, r ≠ p → c₂.delivered r p = (c₂.published p).length) ∧
      (c₂.node 0).lookup "counter" = some ⟨1, c.nextActorId⟩ ∧
      (c₂.node 1).lookup "counter" = none :=
  ⟨_, _, _, rfl, rfl, rfl,
    ⟨.inl rfl, fun _ _ => ⟨.inr trivial, fun _ _ => ⟨.inr trivial, fun _ _ =>
      ⟨.inr trivial, fun _ _ => trivial⟩⟩⟩⟩, rfl, by decide, by decide, by decide⟩

end Libeam.Proofs.MigrationRegistry
