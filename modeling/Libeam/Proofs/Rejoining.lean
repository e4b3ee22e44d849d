import Libeam.Proofs.Convergence
import Libeam.Proofs.Resurrection
/-!
# Names of a node that has restarted

A node that restarts under its old id has a clock that begins again, while its peers hold
registrations with the clock of its earlier life.  Whether they take a new registration
depends on how many updates the node published in either life, and on what it has heard
from others since.
-/

namespace Libeam.Proofs.Rejoining

open Libeam.System Registry Lib.Transition
open Convergence (replaces_iff replaces_asymm replaces_irrefl)
open Resurrection (source_act localClock_act)

variable {N : Type} [LinearOrder N] {old new : ActorRegistration N} {s t : SyncNode N}

/-- Of two registrations, each with a clock and a generation, is the second one later? -/
def Later (clock : VectorClock N) (generation : Nat) (clock' : VectorClock N)
    (generation' : Nat) : Prop :=
  clock.get < clock'.get ∨ ¬ clock'.get < clock.get ∧ generation < generation'

theorem get_increment_le {c d : VectorClock N} {q : N} :
    (c.increment q).get ≤ (d.increment q).get ↔ c.get ≤ d.get := by
  simp only [Pi.le_def, VectorClock.get_increment]
  refine forall_congr' fun n => ?_
  split_ifs with h
  · rw [h]
    exact Nat.add_le_add_iff_right
  · rfl

/-- Both clocks count the registration itself. -/
theorem later_increment {c d : VectorClock N} {q : N} {now now' : Nat} :
    Later (c.increment q) now (d.increment q) now' ↔ Later c now d now' := by
  simp only [Later, lt_iff_le_not_ge, get_increment_le]

theorem replaces_iff_later (hnode : new.nodeId = old.nodeId) :
    RegistrySync.replaces new old = true ↔
      Later old.vectorClock old.generation new.vectorClock new.generation := by
  rw [replaces_iff, VectorClock.compare_eq_after, hnode]
  unfold Later
  constructor
  · rintro (hafter | ⟨hconcurrent, hless | ⟨-, hnode⟩⟩)
    · exact .inl hafter
    · refine .inr ⟨fun hbefore => ?_, hless⟩
      rw [VectorClock.compare_eq_before.2 hbefore] at hconcurrent
      cases hconcurrent
    · exact absurd hnode (lt_irrefl _)
  · rintro (hafter | ⟨hnot, hless⟩)
    · exact .inl hafter
    · cases hcompare : new.vectorClock.compare old.vectorClock with
      | after => exact .inl (VectorClock.compare_eq_after.1 hcompare)
      | before => exact absurd (VectorClock.compare_eq_before.1 hcompare) hnot
      | concurrent => exact .inr ⟨rfl, .inl hless⟩

/-! ## A peer -/

/-- An action that changes nothing about the name but by registrations from these. -/
def Only (name : String) (regs : List (ActorRegistration N)) : SyncAction N → Prop
  | .register name' _ _ _ | .unregister name' => name' ≠ name
  | .handleRegistryUpdate update =>
      update.registration.name = name →
        update.type = .register ∧ update.registration ∈ regs
  | .handlePeerLeave _ | .disconnect => True

/-- The names of this node stay entered: it does not leave, and the peer is connected. -/
def Stays (nodeId : N) : SyncAction N → Prop
  | .handlePeerLeave leaving => leaving ≠ nodeId
  | .disconnect => False
  | _ => True

theorem only_act {name : String} {regs : List (ActorRegistration N)} {a : SyncAction N}
    (h : Only name regs a) (hentry : ∀ reg, s.sync.find name = some reg → reg ∈ regs) :
    ∀ reg, (s.act a).sync.find name = some reg → reg ∈ regs := by
  intro reg hfind
  cases source_act hfind with
  | held hfind => exact hentry reg hfind
  | registered nodeId actorId now hname hclock => exact absurd rfl h
  | arrived hname hwins => exact (h hname).2

theorem only_run {name : String} {regs : List (ActorRegistration N)} {as : List (SyncAction N)}
    (hrun : run SyncNode.step s as = some t) (honly : ∀ a ∈ as, Only name regs a)
    (hentry : ∀ reg, s.sync.find name = some reg → reg ∈ regs) :
    ∀ reg, t.sync.find name = some reg → reg ∈ regs := by
  refine run_invariant (G := fun _ a => Only name regs a)
    (I := fun s => ∀ reg, s.sync.find name = some reg → reg ∈ regs)
    (fun s a t hs ha hst => ?_) hentry (along_of_forall_mem honly s) hrun
  cases hst
  exact only_act ha hs

theorem find_handlePeerLeave_of_ne {r : RegistrySync N} {nodeId : N} {name : String}
    {reg : ActorRegistration N} (hfind : r.find name = some reg) (hne : nodeId ≠ reg.nodeId) :
    (r.handlePeerLeave nodeId).find name = some reg :=
  AList.mem_lookup_iff.2
    (List.mem_filter.2 ⟨AList.mem_lookup_iff.1 hfind, by simpa using hne.symm⟩)

variable {regs : List (ActorRegistration N)} {reg : ActorRegistration N} {a : SyncAction N}
  {as : List (SyncAction N)}

/-- An entry stays, or one of the registrations replaces it. -/
theorem moves_act (honly : Only reg.name regs a) (hstays : Stays reg.nodeId a)
    (hfind : s.sync.find reg.name = some reg) :
    ∃ reg', (s.act a).sync.find reg.name = some reg' ∧
      (reg' = reg ∨ reg' ∈ regs ∧ RegistrySync.replaces reg' reg = true) := by
  cases a with
  | register name nodeId actorId now =>
      refine ⟨reg, ?_, .inl rfl⟩
      refine (RegistrySync.find_register s.sync name reg.name nodeId actorId now).trans ?_
      rw [if_neg (Ne.symm honly), hfind]
  | unregister name =>
      refine ⟨reg, ?_, .inl rfl⟩
      refine (RegistrySync.find_unregister s.sync name reg.name).trans ?_
      rw [if_neg (Ne.symm honly), hfind]
  | handleRegistryUpdate u =>
      by_cases hname : u.registration.name = reg.name
      · obtain ⟨htype, hmem⟩ := honly hname
        obtain ⟨type, reg'⟩ := u
        cases htype
        dsimp only at hname hmem
        have hafter := RegistrySync.find_handleRegister s.sync reg'
        rw [hname, hfind] at hafter
        dsimp only at hafter
        by_cases hreplaces : RegistrySync.replaces reg' reg = true
        · rw [if_pos hreplaces] at hafter
          exact ⟨reg', hafter, .inr ⟨hmem, hreplaces⟩⟩
        · rw [if_neg hreplaces] at hafter
          exact ⟨reg, hafter, .inl rfl⟩
      · refine ⟨reg, ?_, .inl rfl⟩
        exact (RegistrySync.find_handleRegistryUpdate_of_ne s.sync (Ne.symm hname)).trans hfind
  | handlePeerLeave leaving => exact ⟨reg, find_handlePeerLeave_of_ne hfind hstays, .inl rfl⟩
  | disconnect => exact hstays.elim

/-- An entry that none of the registrations replaces stays. -/
theorem kept_run (hrun : run SyncNode.step s as = some t)
    (honly : ∀ a ∈ as, Only reg.name regs a ∧ Stays reg.nodeId a)
    (hbest : ∀ reg' ∈ regs, RegistrySync.replaces reg' reg = false)
    (hfind : s.sync.find reg.name = some reg) : t.sync.find reg.name = some reg := by
  refine run_invariant (G := fun _ a => Only reg.name regs a ∧ Stays reg.nodeId a)
    (I := fun s => s.sync.find reg.name = some reg)
    (fun s a t hs ha hst => ?_) hfind (along_of_forall_mem honly s) hrun
  cases hst
  obtain ⟨reg', hfind', rfl | ⟨hmem, hreplaces⟩⟩ := moves_act ha.1 ha.2 hs
  · exact hfind'
  · rw [hbest reg' hmem] at hreplaces
    cases hreplaces

/-- A name that is entered remains so, with one of the registrations. -/
theorem entered_run {name : String} {q : N} (hrun : run SyncNode.step s as = some t)
    (honly : ∀ a ∈ as, Only name regs a ∧ Stays q a)
    (hregs : ∀ reg ∈ regs, reg.name = name ∧ reg.nodeId = q)
    (hentry : ∃ reg ∈ regs, s.sync.find name = some reg) :
    ∃ reg ∈ regs, t.sync.find name = some reg := by
  refine run_invariant (G := fun _ a => Only name regs a ∧ Stays q a)
    (I := fun s => ∃ reg ∈ regs, s.sync.find name = some reg)
    (fun s a t hs ha hst => ?_) hentry (along_of_forall_mem honly s) hrun
  cases hst
  obtain ⟨reg, hmem, hfind⟩ := hs
  obtain ⟨rfl, rfl⟩ := hregs reg hmem
  obtain ⟨reg', hfind', rfl | ⟨hmem', -⟩⟩ := moves_act ha.1 ha.2 hfind
  · exact ⟨reg', hmem, hfind'⟩
  · exact ⟨reg', hmem', hfind'⟩

/-! ## Two registrations of a node -/

/-- The new registration arrives at a peer that holds nothing or the old one. -/
theorem ends_iff {peer peer' : SyncNode N} (hname : new.name = old.name)
    (hnode : new.nodeId = old.nodeId) (hactor : new.actorId ≠ old.actorId)
    (hentry : ∀ reg, peer.sync.find old.name = some reg → reg = old)
    (hafter : run SyncNode.step (peer.act (.handleRegistryUpdate ⟨.register, new⟩)) as =
      some peer')
    (honly : ∀ a ∈ as, Only old.name [old, new] a ∧ Stays old.nodeId a) :
    peer'.sync.find old.name = some new ↔
      RegistrySync.replaces new old = true ∨
        peer.sync.find old.name = none ∧
          (RegistrySync.replaces old new = true →
            .handleRegistryUpdate ⟨.register, old⟩ ∉ as) := by
  have harrives := RegistrySync.find_handleRegister peer.sync new
  rw [hname] at harrives
  have hfinal : ∀ {reg : ActorRegistration N} {s : SyncNode N} {as : List (SyncAction N)},
      reg.name = old.name → reg.nodeId = old.nodeId →
      (∀ a ∈ as, Only old.name [old, new] a ∧ Stays old.nodeId a) →
      RegistrySync.replaces old reg = false → RegistrySync.replaces new reg = false →
      run SyncNode.step s as = some peer' → s.sync.find old.name = some reg →
      peer'.sync.find old.name = some reg := by
    intro reg s as hreg hnode honly hold hnew hrun hfind
    rw [← hreg] at hfind honly ⊢
    rw [← hnode] at honly
    refine kept_run hrun honly (fun reg' hmem => ?_) hfind
    rcases List.mem_cons.1 hmem with rfl | hmem
    · exact hold
    · rw [List.mem_singleton.1 hmem]
      exact hnew
  have hother : ∀ {s : SyncNode N}, s.sync.find old.name = some old →
      s.sync.find old.name ≠ some new := by
    intro s hfind heq
    rw [hfind] at heq
    exact hactor (congrArg ActorRegistration.actorId (Option.some.inj heq)).symm
  by_cases hreplaces : RegistrySync.replaces new old = true
  · refine iff_of_true ?_ (.inl hreplaces)
    refine hfinal hname hnode honly (replaces_asymm hreplaces) (replaces_irrefl new) hafter ?_
    cases hfind : peer.sync.find old.name with
    | none =>
        rw [hfind] at harrives
        exact harrives
    | some existing =>
        obtain rfl := hentry existing hfind
        rw [hfind] at harrives
        exact harrives.trans (if_pos hreplaces)
  have hnot := Bool.eq_false_iff.2 hreplaces
  cases hfind : peer.sync.find old.name with
  | some existing =>
      obtain rfl := hentry existing hfind
      refine iff_of_false (hother ?_) (by simp [hnot])
      rw [hfind] at harrives
      exact hfinal rfl rfl honly (replaces_irrefl _) hnot hafter
        (harrives.trans (if_neg hreplaces))
  | none =>
      rw [hfind] at harrives
      by_cases hback : RegistrySync.replaces old new = true
      · by_cases hmem : .handleRegistryUpdate ⟨.register, old⟩ ∈ as
        · -- the old one comes again, and stays from then on
          refine iff_of_false (hother ?_) (by simp [hnot, hback, hmem])
          obtain ⟨before, rest, rfl⟩ := List.append_of_mem hmem
          rw [run_append, Option.bind_eq_some_iff] at hafter
          obtain ⟨u, hbefore, hrest⟩ := hafter
          obtain ⟨v, hst, hrest⟩ := run_cons_eq_some.1 hrest
          cases hst
          obtain ⟨reg, hreg, hheld⟩ := entered_run hbefore
            (fun a ha => honly a (by simp [ha]))
            (by simp [hname, hnode]) ⟨new, by simp, harrives⟩
          refine hfinal rfl rfl (fun a ha => honly a (by simp [ha])) (replaces_irrefl _) hnot
            hrest ?_
          have hreturns := RegistrySync.find_handleRegister u.sync old
          rw [hheld] at hreturns
          rcases List.mem_cons.1 hreg with rfl | hreg
          · exact hreturns.trans (ite_self _)
          · rw [List.mem_singleton.1 hreg] at hreturns
            exact hreturns.trans (if_pos hback)
        · refine iff_of_true ?_ (by simp [hmem])
          rw [← hname] at harrives honly ⊢
          rw [← hnode] at honly
          refine kept_run hafter (fun a ha => ⟨(?_ : Only new.name [new] a), (honly a ha).2⟩) ?_
            harrives
          · have hwithin := (honly a ha).1
            cases a with
            | handleRegistryUpdate u =>
                intro hu
                obtain ⟨htype, hin⟩ := hwithin hu
                refine ⟨htype, ?_⟩
                rcases List.mem_cons.1 hin with hold | hin
                · obtain ⟨type, reg⟩ := u
                  dsimp only at htype hold
                  rw [htype, hold] at ha
                  exact absurd ha hmem
                · exact hin
            | register | unregister => exact hwithin
            | handlePeerLeave _ => trivial
            | disconnect => trivial
          · intro reg' hreg'
            rw [List.mem_singleton.1 hreg']
            exact replaces_irrefl new
      · refine iff_of_true ?_ (by simp [hback])
        exact hfinal hname hnode honly (Bool.eq_false_iff.2 hback) (replaces_irrefl new) hafter
          harrives

/-! ## Two lives of a node -/

theorem nodeId_run {q : N} {life : List (SyncAction N)}
    (hrun : run SyncNode.step (.new q) life = some s) : s.sync.nodeId = q := by
  refine run_invariant' (I := fun s => s.sync.nodeId = q) (fun s a t hs hst => ?_) rfl hrun
  cases hst
  exact (localClock_act s a).1.trans hs

theorem fields_of_register {r : RegistrySync N} {name : String} {q : N} {actorId : ActorId}
    {now : Nat} {reg : ActorRegistration N}
    (h : (r.register name q actorId now).2 = ⟨.register, reg⟩) :
    reg.name = name ∧ reg.nodeId = q ∧ reg.actorId = actorId ∧ reg.generation = now ∧
      reg.vectorClock = r.localClock.increment r.nodeId := by
  cases h
  exact ⟨rfl, rfl, rfl, rfl, rfl⟩

/-- A node registers a name, and again in a later life.  A peer to which both registrations
come in this order ends with the new one just when the node knows more, or at least not
less, in its later life and its wall clock has gone on, or when the peer has dropped the
old one in between and does not get it back. -/
theorem recovers_iff {q p : N} {life life' : List (SyncAction N)} {name : String}
    {actorId actorId' : ActorId} {now now' : Nat} {before after : List (SyncAction N)}
    {peer peer' : SyncNode N}
    (hlife : run SyncNode.step (.new q) life = some s)
    (hold : (s.sync.register name q actorId now).2 = ⟨.register, old⟩)
    (hlife' : run SyncNode.step (.new q) life' = some t)
    (hnew : (t.sync.register name q actorId' now').2 = ⟨.register, new⟩)
    (hactor : actorId' ≠ actorId)
    (hbefore : run SyncNode.step (.new p) before = some peer)
    (honly : ∀ a ∈ before, Only name [old] a)
    (hafter : run SyncNode.step (peer.act (.handleRegistryUpdate ⟨.register, new⟩)) after =
      some peer')
    (honly' : ∀ a ∈ after, Only name [old, new] a ∧ Stays q a) :
    peer'.sync.find name = some new ↔
      Later s.sync.localClock now t.sync.localClock now' ∨
        peer.sync.find name = none ∧
          (Later t.sync.localClock now' s.sync.localClock now →
            .handleRegistryUpdate ⟨.register, old⟩ ∉ after) := by
  obtain ⟨rfl, hnode, hactorId, hnow, hclock⟩ := fields_of_register hold
  obtain ⟨hname, hnode', hactorId', hnow', hclock'⟩ := fields_of_register hnew
  have hsame : new.nodeId = old.nodeId := hnode'.trans hnode.symm
  have hentry := only_run hbefore honly nofun
  have hends := ends_iff hname hsame (by rwa [hactorId, hactorId'])
    (fun reg hreg => List.mem_singleton.1 (hentry reg hreg)) hafter (by rwa [hnode])
  rw [hends, replaces_iff_later hsame, replaces_iff_later hsame.symm, hclock, hclock', hnow,
    hnow', nodeId_run hlife, nodeId_run hlife', later_increment, later_increment]

section

/-- The node registers two names, restarts, and registers the second one again. -/
def earlier : SyncNode Nat := (SyncNode.new 0).act (.register "scanner" 0 6 10)

def forgotten : ActorRegistration Nat := (earlier.sync.register "printer" 0 7 20).2.registration

def again : ActorRegistration Nat :=
  ((SyncNode.new 0).sync.register "printer" 0 8 30).2.registration

/-- A peer to which both registrations have come in this order. -/
def asked : SyncNode Nat :=
  ((SyncNode.new 1).act (.handleRegistryUpdate ⟨.register, forgotten⟩)).act
    (.handleRegistryUpdate ⟨.register, again⟩)

/-- The new registration is taken for an old one, whatever the wall clocks say. -/
theorem again_ignored :
    run SyncNode.step (.new 0) [.register "scanner" 0 6 10] = some earlier ∧
      asked.sync.find "printer" = some forgotten ∧
      again.vectorClock.compare forgotten.vectorClock = .before ∧
      forgotten.generation < again.generation ∧ again.actorId ≠ forgotten.actorId :=
  ⟨rfl, rfl, by decide, by decide, by decide⟩

theorem recovers_iff_again :
    asked.sync.find "printer" = some again ↔
      Later earlier.sync.localClock 20 (SyncNode.new 0).sync.localClock 30 ∨
        ((SyncNode.new 1).act (.handleRegistryUpdate ⟨.register, forgotten⟩)).sync.find
            "printer" = none ∧
          (Later (SyncNode.new 0).sync.localClock 30 earlier.sync.localClock 20 →
            .handleRegistryUpdate ⟨.register, forgotten⟩ ∉ ([] : List (SyncAction Nat))) :=
  recovers_iff
    (show run SyncNode.step (.new 0) [.register "scanner" 0 6 10] = some earlier from rfl) rfl
    (show run SyncNode.step (.new 0) [] = some (SyncNode.new 0) from rfl) rfl (by decide)
    (show run SyncNode.step (.new 1) [.handleRegistryUpdate ⟨.register, forgotten⟩] = some _
      from rfl)
    (by simp [Only, forgotten]) (show run SyncNode.step asked [] = some asked from rfl) (by simp)

end

end Libeam.Proofs.Rejoining
