import Libeam.Proofs.ClockDiscipline
/-!
# Registrations after an unregistration

A node keeps no record of a name that it has removed.  A registration that is older than
the unregistration is recognised only by comparison with an entry, so that it comes back
when it arrives while there is no entry, or one over which it wins.  In all other ways a
name is safe: the clock of a registration that the node makes itself is never before that
of an unregistration.
-/

namespace Libeam.Proofs.Resurrection

open Libeam.System Registry Lib.Transition
open Registry.VectorClock (get_le_increment le_merge_left)
open RegistryRun (localClock_handleRegistryUpdate entry_handleRegistryUpdate)
open ClockDiscipline

variable {N : Type} [LinearOrder N] {s : SyncNode N} {a : SyncAction N} {b : Broadcast N} {n : N}

/-! ## What an action of one node can do -/

theorem localClock_act (s : SyncNode N) (a : SyncAction N) :
    (s.act a).sync.nodeId = s.sync.nodeId ∧
      ((s.act a).sync.localClock = s.sync.localClock ∨
        (s.act a).sync.localClock = s.sync.localClock.increment s.sync.nodeId ∨
        ∃ u, a = .handleRegistryUpdate u ∧
          (s.act a).sync.localClock = s.sync.localClock.merge u.registration.vectorClock) := by
  cases a with
  | register name nodeId actorId now => exact ⟨rfl, .inr (.inl rfl)⟩
  | unregister name =>
      unfold SyncNode.act RegistrySync.unregister
      dsimp only
      split
      · exact ⟨rfl, .inl rfl⟩
      · exact ⟨rfl, .inr (.inl rfl)⟩
  | handleRegistryUpdate u =>
      obtain ⟨hnode, heq | heq⟩ := localClock_handleRegistryUpdate s.sync u
      · exact ⟨hnode, .inl heq⟩
      · exact ⟨hnode, .inr (.inr ⟨u, rfl, heq⟩)⟩
  | handlePeerLeave | disconnect => exact ⟨rfl, .inl rfl⟩

theorem localClock_le_act (s : SyncNode N) (a : SyncAction N) :
    s.sync.localClock.get ≤ (s.act a).sync.localClock.get := by
  rcases (localClock_act s a).2 with heq | heq | ⟨u, -, heq⟩
  · rw [heq]
  · rw [heq]
    exact get_le_increment _ _
  · rw [heq]
    exact le_merge_left _ _

/-- The registration that an update brings would be entered. -/
def Wins (s : SyncNode N) (reg : ActorRegistration N) : Prop :=
  ∀ existing, s.sync.find reg.name = some existing → RegistrySync.replaces reg existing = true

/-- Where an entry comes from. -/
inductive Source (s : SyncNode N) (name : String) (reg : ActorRegistration N) :
    SyncAction N → Prop
  | held {a : SyncAction N} (hfind : s.sync.find name = some reg) : Source s name reg a
  | registered (nodeId : N) (actorId : ActorId) (now : Nat) (hname : reg.name = name)
      (hclock : reg.vectorClock = s.sync.localClock.increment s.sync.nodeId) :
      Source s name reg (.register name nodeId actorId now)
  | arrived (hname : reg.name = name) (hwins : Wins s reg) :
      Source s name reg (.handleRegistryUpdate ⟨.register, reg⟩)

theorem source_act {name : String} {reg : ActorRegistration N}
    (hfind : (s.act a).sync.find name = some reg) : Source s name reg a := by
  cases a with
  | register name' nodeId actorId now =>
      have hfind' := (RegistrySync.find_register s.sync name' name nodeId actorId now).symm.trans
        hfind
      split_ifs at hfind' with heq
      · cases hfind'
        subst heq
        exact .registered nodeId actorId now rfl rfl
      · exact .held hfind'
  | unregister name' =>
      have hfind' := (RegistrySync.find_unregister s.sync name' name).symm.trans hfind
      split_ifs at hfind'
      exact .held hfind'
  | handleRegistryUpdate u =>
      rcases entry_handleRegistryUpdate hfind with hold | ⟨htype, rfl, hname⟩
      · exact .held hold
      · obtain ⟨type, reg⟩ := u
        cases htype
        by_cases hwins : Wins s reg
        · exact .arrived hname hwins
        · unfold Wins at hwins
          push Not at hwins
          obtain ⟨existing, hexisting, hnot⟩ := hwins
          refine .held ?_
          have hstays := RegistrySync.find_handleRegister s.sync reg
          rw [hexisting] at hstays
          dsimp only at hstays hname hfind
          rw [if_neg hnot] at hstays
          rw [hname] at hexisting hstays
          exact (hexisting.trans hstays.symm).trans hfind
  | handlePeerLeave nodeId => exact .held (find_handlePeerLeave hfind).1
  | disconnect => cases hfind

/-- Entries stand under their own names. -/
def Keyed (s : SyncNode N) : Prop := ∀ name reg, s.sync.find name = some reg → reg.name = name

theorem Keyed.act (h : Keyed s) (a : SyncAction N) : Keyed (s.act a) := by
  intro name reg hfind
  cases source_act hfind with
  | held hfind => exact h name reg hfind
  | registered nodeId actorId now hname hclock => exact hname
  | arrived hname hwins => exact hname

/-- An unregistration that a node issues carries its new clock. -/
theorem mem_unregistered_act {reg : ActorRegistration N} (h : reg ∈ (s.act a).unregistered) :
    reg ∈ s.unregistered ∨
      (∃ name existing, a = .unregister name ∧ s.sync.find name = some existing ∧
        reg = { existing with vectorClock := (s.act a).sync.localClock }) ∨
      a = .handleRegistryUpdate ⟨.unregister, reg⟩ := by
  cases a with
  | unregister name =>
      unfold SyncNode.act RegistrySync.unregister at h ⊢
      dsimp only at h ⊢
      split at h
      next hnone => exact .inl (by simpa using h)
      next existing hfind =>
        rcases List.mem_append.1 h with h | h
        · exact .inl h
        · exact .inr (.inl ⟨name, existing, rfl, hfind, by simpa [hfind] using h⟩)
  | handleRegistryUpdate u =>
      obtain ⟨type, reg'⟩ := u
      cases type with
      | register => exact .inl (by simpa [SyncNode.act] using h)
      | unregister =>
          rcases List.mem_append.1 h with h | h
          · exact .inl h
          · rw [List.mem_singleton.1 h]
            exact .inr (.inr rfl)
  | register | handlePeerLeave | disconnect => exact .inl h

/-- What is fresh carries the new clock. -/
theorem fresh_act (s : SyncNode N) (a : SyncAction N) :
    ∃ us, (s.act a).fresh = s.fresh ++ us ∧
      ∀ u ∈ us, u.registration.vectorClock = (s.act a).sync.localClock := by
  cases a with
  | register name nodeId actorId now =>
      exact ⟨_, rfl, fun u hu => by rw [List.mem_singleton.1 hu]; rfl⟩
  | unregister name =>
      refine ⟨_, rfl, fun u hu => ?_⟩
      unfold SyncNode.act RegistrySync.unregister at *
      cases hfind : s.sync.find name with
      | none => simp [hfind] at hu
      | some existing =>
          simp only [hfind, Option.toList_some, List.mem_singleton] at hu ⊢
          rw [hu]
  | handleRegistryUpdate | handlePeerLeave | disconnect =>
      exact ⟨[], (List.append_nil _).symm, nofun⟩

/-! ## Names that have been unregistered -/

/-- No entry is older than an unregistration of its name that the node knows of. -/
def Buried (s : SyncNode N) : Prop :=
  ∀ removed ∈ s.unregistered, ∀ reg, s.sync.find removed.name = some reg →
    ¬ reg.vectorClock.get < removed.vectorClock.get

/-- A registration that would be entered is not older than an unregistration of its
name. -/
def Timely (s : SyncNode N) (update : RegistryUpdate N) : Prop :=
  update.type = .register → Wins s update.registration →
    ∀ removed ∈ s.unregistered, removed.name = update.registration.name →
      ¬ update.registration.vectorClock.get < removed.vectorClock.get

theorem buried_act (h : Buried s) (hkeyed : Keyed s)
    (hown : ∀ removed ∈ s.unregistered,
      removed.vectorClock.get s.sync.nodeId ≤ s.sync.localClock.get s.sync.nodeId)
    (htimely : ∀ u, a = .handleRegistryUpdate u → Timely s u) : Buried (s.act a) := by
  intro removed hremoved reg hfind
  rcases mem_unregistered_act hremoved with hold | ⟨name, existing, rfl, hexisting, rfl⟩ | rfl
  · cases source_act hfind with
    | held hfind => exact h removed hold reg hfind
    | registered nodeId actorId now hname hclock =>
        intro hlt
        have hle := hlt.le s.sync.nodeId
        rw [hclock, VectorClock.get_increment, if_pos rfl] at hle
        exact absurd (hle.trans (hown removed hold)) (Nat.not_succ_le_self _)
    | arrived hname hwins => exact htimely _ rfl rfl hwins removed hold hname.symm
  · -- the name that was unregistered is gone
    have hgone := RegistrySync.find_unregister s.sync name name
    rw [if_pos rfl] at hgone
    dsimp only at hfind
    rw [hkeyed name existing hexisting] at hfind
    exact absurd (hgone.symm.trans hfind) nofun
  · have hstays := RegistrySync.find_handleUnregister s.sync removed
    rw [show s.sync.handleUnregister removed = (s.act (.handleRegistryUpdate
      ⟨.unregister, removed⟩)).sync from rfl, hfind] at hstays
    split at hstays
    next => cases hstays
    next existing hexisting =>
      split_ifs at hstays with hremoves
      cases hstays
      unfold RegistrySync.removes at hremoves
      split at hremoves
      · simp at hremoves
      · simp at hremoves
      next hbefore => exact (VectorClock.compare_eq_before.1 hbefore).not_gt

/-! ## Clocks in the network -/

/-- No clock knows more about a node than the node itself. -/
def Bounded (b : Broadcast N) (clock : VectorClock N) : Prop :=
  ∀ m, clock.get m ≤ (b.node m).sync.localClock.get m

structure Ordered (b : Broadcast N) : Prop where
  nodeId : ∀ m, (b.node m).sync.nodeId = m
  keyed : ∀ m, Keyed (b.node m)
  clock : ∀ m, Bounded b (b.node m).sync.localClock
  held : ∀ m name reg, (b.node m).sync.find name = some reg → Bounded b reg.vectorClock
  unregistered : ∀ m, ∀ reg ∈ (b.node m).unregistered, Bounded b reg.vectorClock
  published : ∀ u ∈ b.published, Bounded b u.registration.vectorClock

theorem node_act (b : Broadcast N) (n m : N) (a : SyncAction N) :
    (b.act n a).node m = if m = n then (b.node n).act a else b.node m := by
  unfold Broadcast.act
  dsimp only
  rw [Function.update_apply]

theorem Bounded.act {clock : VectorClock N} (h : Bounded b clock) (n : N) (a : SyncAction N) :
    Bounded (b.act n a) clock := by
  intro m
  rw [node_act]
  split_ifs with hm
  · rw [hm]
    exact (h n).trans (localClock_le_act _ a n)
  · exact h m

theorem Ordered.act (h : Ordered b) {n : N} {a : SyncAction N}
    (harrived : ∀ u, a = .handleRegistryUpdate u → u ∈ b.published) : Ordered (b.act n a) := by
  obtain ⟨hnode, hclock⟩ := localClock_act (b.node n) a
  obtain ⟨us, hfresh, hus⟩ := fresh_act (b.node n) a
  have hnew : Bounded (b.act n a) ((b.node n).act a).sync.localClock := by
    intro m
    rw [node_act]
    split_ifs with hm
    · exact Nat.le_refl _
    · rcases hclock with heq | heq | ⟨u, rfl, heq⟩
      · rw [heq]
        exact h.clock n m
      · rw [heq, VectorClock.get_increment, h.nodeId, if_neg hm]
        exact h.clock n m
      · rw [heq, VectorClock.get_merge]
        exact Nat.max_le.2 ⟨h.clock n m, h.published u (harrived u rfl) m⟩
  refine ⟨fun m => ?_, fun m => ?_, fun m => ?_, fun m name reg hfind => ?_,
    fun m reg hreg => ?_, fun u hu => ?_⟩
  · rw [node_act]
    split_ifs with hm
    · rw [hnode, h.nodeId, hm]
    · exact h.nodeId m
  · rw [node_act]
    split_ifs
    · exact (h.keyed n).act a
    · exact h.keyed m
  · rw [node_act]
    split_ifs
    · exact hnew
    · exact (h.clock m).act n a
  · rw [node_act] at hfind
    split_ifs at hfind
    · cases source_act hfind with
      | held hfind => exact (h.held n name reg hfind).act n a
      | registered nodeId actorId now hname hticked =>
          rw [hticked]
          exact hnew
      | arrived hname hwins => exact (h.published _ (harrived _ rfl)).act n _
    · exact (h.held m name reg hfind).act n a
  · rw [node_act] at hreg
    split_ifs at hreg
    · rcases mem_unregistered_act hreg with hold | ⟨name, existing, -, -, rfl⟩ | rfl
      · exact (h.unregistered n reg hold).act n a
      · exact hnew
      · exact (h.published _ (harrived _ rfl)).act n _
    · exact (h.unregistered m reg hreg).act n a
  · have hpublished : (b.act n a).published = b.published ++ us := by
      unfold Broadcast.act
      dsimp only
      rw [hfresh, List.drop_left]
    rw [hpublished] at hu
    rcases List.mem_append.1 hu with hu | hu
    · exact (h.published u hu).act n a
    · rw [hus u hu]
      exact hnew

/-- A step is an action of one node, or publishes what the node holds. -/
inductive Steps (b : Broadcast N) : BroadcastAction N → Broadcast N → Prop
  | acts {n : N} {a : SyncAction N} {action : BroadcastAction N}
      (harrived : ∀ u, a = .handleRegistryUpdate u →
        ∃ index, action = .deliver n index ∧ b.published[index]? = some u)
      (hdeliver : ∀ n' index, action = .deliver n' index →
        n' = n ∧ ∃ u, b.published[index]? = some u ∧ a = .handleRegistryUpdate u) :
      Steps b action (b.act n a)
  | republishes (n : N) :
      Steps b (.republishAll n)
        { b with published := b.published ++ (b.node n).sync.republishAll }

theorem step_cases {action : BroadcastAction N} {b' : Broadcast N}
    (hst : b.step action = some b') : Steps b action b' := by
  cases action with
  | deliver n index =>
      obtain ⟨u, hu, rfl⟩ := Option.map_eq_some_iff.1 hst
      refine .acts (fun v hv => ?_) fun n' index' heq => ?_
      · cases hv
        exact ⟨index, rfl, hu⟩
      · cases heq
        exact ⟨rfl, u, hu, rfl⟩
  | republishAll n =>
      cases hst
      exact .republishes n
  | register | unregister | handlePeerLeave | disconnect => cases hst; exact .acts nofun nofun

theorem ordered_init : Ordered (Broadcast.init : Broadcast N) :=
  ⟨fun _ => rfl, fun _ => nofun, fun _ _ => Nat.le_refl 0, fun _ => nofun, fun _ => nofun, nofun⟩

theorem ordered_step {action : BroadcastAction N} {b' : Broadcast N} (h : Ordered b)
    (hst : b.step action = some b') : Ordered b' := by
  cases step_cases hst with
  | acts harrived hdeliver =>
      refine h.act fun u hu => ?_
      obtain ⟨index, -, hindex⟩ := harrived u hu
      exact List.mem_of_getElem? hindex
  | republishes n =>
      refine ⟨h.nodeId, h.keyed, h.clock, h.held, h.unregistered, fun u hu => ?_⟩
      rcases List.mem_append.1 hu with hu | hu
      · exact h.published u hu
      · obtain ⟨⟨name, reg⟩, hentry, rfl⟩ := List.mem_map.1 hu
        exact h.held n name reg (AList.mem_lookup_iff.2 hentry)

/-! ## Runs -/

/-- What arrives at the node is not an old registration that would be entered. -/
def Admits (n : N) (b : Broadcast N) (action : BroadcastAction N) : Prop :=
  ∀ index update, action = .deliver n index → b.published[index]? = some update →
    Timely (b.node n) update

/-- Throughout a run no entry of the node is older than an unregistration that the node
knows of, just when no such registration arrives at a time when it wins. -/
theorem no_resurrection_iff {as : List (BroadcastAction N)} {b : Broadcast N}
    (hrun : run Broadcast.step .init as = some b) (n : N) :
    Throughout Broadcast.step (fun b => Buried (b.node n)) .init as ↔
      Along Broadcast.step (Admits n) .init as := by
  refine throughout_iff_along (I := fun b => Ordered b ∧ Buried (b.node n))
    (A := fun _ _ => True) (fun b action b' h _ hadmits hst => ⟨ordered_step h.1 hst, ?_⟩)
    (fun b h => h.2) (fun b action b' h _ hnot hst hburied => hnot ?_)
    ⟨ordered_init, nofun⟩ (along_of_forall_mem (P := fun _ => True) (fun _ _ => trivial) _) hrun
  · cases step_cases hst with
    | @acts m a _ harrived hdeliver =>
        rw [node_act]
        split_ifs with hm
        · subst hm
          refine buried_act h.2 (h.1.keyed n) (fun removed hremoved => ?_) fun u hu => ?_
          · rw [h.1.nodeId]
            exact h.1.unregistered n removed hremoved n
          · obtain ⟨index, rfl, hindex⟩ := harrived u hu
            exact hadmits index u rfl hindex
        · exact h.2
    | republishes m => exact h.2
  · rintro index update rfl hindex htype hwins removed hremoved hname hlt
    have heq : b' = b.act n (.handleRegistryUpdate update) := by
      have hst' : (b.published[index]?).map _ = some b' := hst
      rw [hindex] at hst'
      exact (Option.some.inj hst').symm
    obtain ⟨type, reg⟩ := update
    cases htype
    have hentered : (b'.node n).sync.find reg.name = some reg := by
      rw [heq, node_act, if_pos rfl]
      have hfind := RegistrySync.find_handleRegister (b.node n).sync reg
      split at hfind
      · exact hfind
      next existing hexisting =>
        rw [if_pos (hwins existing hexisting)] at hfind
        exact hfind
    have hkept : removed ∈ (b'.node n).unregistered := by
      rw [heq, node_act, if_pos rfl]
      exact List.mem_append_left _ hremoved
    exact hburied removed hkept reg (hname ▸ hentered) hlt

section

/-- The name is registered and unregistered again at node 0.  Node 2 has heard of the
registration only, and publishes what it holds when node 1 joins. -/
def revived : List (BroadcastAction Nat) :=
  [.register 0 "printer" 0 7 10, .deliver 1 0, .deliver 2 0, .unregister 0 "printer",
    .deliver 1 1, .republishAll 2, .deliver 1 2]

def afterwards : Broadcast Nat := (run Broadcast.step .init revived).getD .init

def stale : ActorRegistration Nat := ((RegistrySync.new 0).register "printer" 0 7 10).2.registration

def withdrawn : ActorRegistration Nat :=
  { stale with vectorClock := stale.vectorClock.increment 0 }

/-- Node 1 has processed the unregistration and holds the registration again. -/
theorem revived_resurrects :
    run Broadcast.step .init revived = some afterwards ∧
      withdrawn ∈ (afterwards.node 1).unregistered ∧
      (afterwards.node 1).sync.find withdrawn.name = some stale ∧
      stale.vectorClock.compare withdrawn.vectorClock = .before ∧
      ¬ Buried (afterwards.node 1) := by
  have hremoved : withdrawn ∈ (afterwards.node 1).unregistered := List.mem_singleton.2 rfl
  have hfind : (afterwards.node 1).sync.find withdrawn.name = some stale := rfl
  have hbefore : stale.vectorClock.compare withdrawn.vectorClock = .before := by decide
  refine ⟨rfl, hremoved, hfind, hbefore, fun hburied => ?_⟩
  exact hburied withdrawn hremoved stale hfind (VectorClock.compare_eq_before.1 hbefore)

theorem no_resurrection_iff_revived :
    Throughout Broadcast.step (fun b => Buried (b.node 1)) .init revived ↔
      Along Broadcast.step (Admits 1) .init revived :=
  no_resurrection_iff (show run Broadcast.step .init revived = some afterwards from rfl) 1

end

end Libeam.Proofs.Resurrection
