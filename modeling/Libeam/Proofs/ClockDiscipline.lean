import Libeam.Registry.Broadcast
import Libeam.Proofs.RegistryRun
/-!
# The clock of a node and the clocks in its table

Whatever updates arrive, no registration is installed without its clock being merged,
so that the node's own clock is an upper bound of the table.  What the node publishes
next is therefore after all that it holds and all that it has published.
-/

namespace Libeam.Proofs.ClockDiscipline

open Registry Lib.Transition
open Registry.VectorClock (get_lt_increment le_merge_left le_merge_right)
open RegistryRun (localClock_handleRegistryUpdate)

variable {N : Type} [LinearOrder N]

/-! ## Tables -/

/-- The node's own clock is an upper bound of the clocks in the table. -/
def Dominates (r : RegistrySync N) : Prop :=
  ∀ name reg, r.find name = some reg → reg.vectorClock.get ≤ r.localClock.get

theorem find_handlePeerLeave {r : RegistrySync N} {nodeId : N} {name : String}
    {reg : ActorRegistration N} (hfind : (r.handlePeerLeave nodeId).find name = some reg) :
    r.find name = some reg ∧ reg.nodeId ≠ nodeId := by
  have hmem := List.mem_filter.1 (AList.mem_lookup_iff.1 hfind)
  exact ⟨AList.mem_lookup_iff.2 hmem.1, by simpa using hmem.2⟩

theorem dominates_install {r : RegistrySync N} (h : Dominates r) (reg : ActorRegistration N) :
    Dominates (r.install reg) := by
  intro name reg' hfind
  rw [RegistrySync.find_install] at hfind
  split_ifs at hfind
  · cases hfind
    exact le_merge_right _ _
  · exact (h name reg' hfind).trans (le_merge_left _ _)

theorem dominates_handleRegistryUpdate {r : RegistrySync N} (h : Dominates r)
    (u : RegistryUpdate N) : Dominates (r.handleRegistryUpdate u) := by
  unfold RegistrySync.handleRegistryUpdate
  split
  · unfold RegistrySync.handleUnregister
    split
    · exact h
    · split_ifs
      · intro name reg hfind
        have hold : r.find name = some reg := by
          by_cases hname : name = u.registration.name
          · subst hname
            exact absurd hfind (by simp [RegistrySync.find, AList.lookup_erase])
          · exact (AList.lookup_erase_ne hname).symm.trans hfind
        exact (h name reg hold).trans (le_merge_left _ _)
      · exact h
  · unfold RegistrySync.handleRegister
    split
    · exact dominates_install h _
    · split_ifs
      · exact dominates_install h _
      · exact h

/-! ## The steps of a node -/

/-- The table and the fresh updates of a node in step with its clock. -/
structure Disciplined (s : SyncNode N) : Prop where
  held : Dominates s.sync
  fresh : ∀ u ∈ s.fresh, u.registration.vectorClock.get ≤ s.sync.localClock.get
  chain : s.fresh.Pairwise fun u v =>
    v.registration.vectorClock.compare u.registration.vectorClock = .after

/-- A fresh update carries the clock that the node then has, one tick on. -/
theorem disciplined_tick {s : SyncNode N} (h : Disciplined s) {r : RegistrySync N}
    {u : RegistryUpdate N} (unregistered : List (ActorRegistration N))
    (hclock : r.localClock = s.sync.localClock.increment s.sync.nodeId)
    (hu : u.registration.vectorClock = r.localClock)
    (hfind : ∀ name reg, r.find name = some reg →
      s.sync.find name = some reg ∨ reg.vectorClock = r.localClock) :
    Disciplined ⟨r, s.fresh ++ [u], unregistered⟩ := by
  have hlt : s.sync.localClock.get < r.localClock.get := by
    rw [hclock]
    exact get_lt_increment _ _
  refine ⟨fun name reg hreg => ?_, fun v hv => ?_, ?_⟩
  · rcases hfind name reg hreg with hold | hnew
    · exact (h.held name reg hold).trans hlt.le
    · rw [hnew]
  · rcases List.mem_append.1 hv with hv | hv
    · exact (h.fresh v hv).trans hlt.le
    · rw [List.mem_singleton.1 hv, hu]
  · refine List.pairwise_append.2 ⟨h.chain, List.pairwise_singleton _ _, fun v hv w hw => ?_⟩
    rw [List.mem_singleton.1 hw, VectorClock.compare_eq_after, hu]
    exact (h.fresh v hv).trans_lt hlt

theorem disciplined_act {s : SyncNode N} (h : Disciplined s) (a : SyncAction N) :
    Disciplined (s.act a) := by
  cases a with
  | register name nodeId actorId now =>
      refine disciplined_tick h s.unregistered rfl rfl fun name' reg hfind => ?_
      rw [RegistrySync.find_register] at hfind
      split_ifs at hfind
      · cases hfind
        exact .inr rfl
      · exact .inl hfind
  | unregister name =>
      unfold SyncNode.act
      dsimp only
      cases hfind : s.sync.find name with
      | none =>
          have heq : s.sync.unregister name = (s.sync, none) := by
            unfold RegistrySync.unregister
            rw [hfind]
          rw [heq]
          exact ⟨h.held, by simpa using h.fresh, by simpa using h.chain⟩
      | some existing =>
          have hgone := RegistrySync.find_unregister s.sync name
          unfold RegistrySync.unregister at hgone ⊢
          rw [hfind] at hgone ⊢
          refine disciplined_tick h _ rfl rfl fun name' reg hreg => .inl ?_
          have hleft := (hgone name').symm.trans hreg
          split_ifs at hleft
          exact hleft
  | handleRegistryUpdate update =>
      have hle : s.sync.localClock.get ≤
          (s.sync.handleRegistryUpdate update).localClock.get := by
        rcases (localClock_handleRegistryUpdate s.sync update).2 with heq | heq
        · rw [heq]
        · rw [heq]
          exact le_merge_left _ _
      exact ⟨dominates_handleRegistryUpdate h.held update,
        fun u hu => (h.fresh u hu).trans hle, h.chain⟩
  | handlePeerLeave nodeId =>
      exact ⟨fun name reg hfind => h.held name reg (find_handlePeerLeave hfind).1, h.fresh,
        h.chain⟩
  | disconnect => exact ⟨fun _ _ hreg => (Option.some_ne_none _ hreg.symm).elim, h.fresh, h.chain⟩

theorem disciplined_run {n : N} {as : List (SyncAction N)} {s : SyncNode N}
    (hrun : run SyncNode.step (.new n) as = some s) : Disciplined s := by
  refine run_invariant' (fun s a t h hst => ?_) (⟨nofun, nofun, .nil⟩ : Disciplined (.new n)) hrun
  cases hst
  exact disciplined_act h a

/-- In every run the node's clock is an upper bound of its table, what is published next is
after what it replaces or removes, and after all that has been published before. -/
theorem clock_discipline {n : N} {as : List (SyncAction N)} {s : SyncNode N}
    (hrun : run SyncNode.step (.new n) as = some s) :
    (∀ name reg, s.sync.find name = some reg →
        reg.vectorClock.get ≤ s.sync.localClock.get) ∧
      (∀ name existing, s.sync.find name = some existing →
        (∀ nodeId actorId now,
          (s.sync.register name nodeId actorId now).2.registration.vectorClock.compare
            existing.vectorClock = .after) ∧
        ∃ update, (s.sync.unregister name).2 = some update ∧
          update.registration.vectorClock.compare existing.vectorClock = .after) ∧
      s.fresh.Pairwise fun u v =>
        v.registration.vectorClock.compare u.registration.vectorClock = .after := by
  have h := disciplined_run hrun
  refine ⟨h.held, fun name existing hfind => ?_, h.chain⟩
  have hafter : (s.sync.localClock.increment s.sync.nodeId).compare existing.vectorClock =
      .after := by
    rw [VectorClock.compare_eq_after]
    exact (h.held name existing hfind).trans_lt (get_lt_increment _ _)
  refine ⟨fun nodeId actorId now => hafter, ?_⟩
  unfold RegistrySync.unregister
  rw [hfind]
  exact ⟨_, rfl, hafter⟩

section

/-- A node learns of a name from another node, and takes the name over. -/
def takeover : List (SyncAction Nat) :=
  [.register "printer" 0 7 10,
    .handleRegistryUpdate ((RegistrySync.new 1).register "scanner" 1 8 20).2,
    .register "scanner" 0 9 5, .unregister "printer"]

def taken : SyncNode Nat := (run SyncNode.step (.new 0) takeover).getD (.new 0)

theorem clock_discipline_taken :
    (∀ name reg, taken.sync.find name = some reg →
        reg.vectorClock.get ≤ taken.sync.localClock.get) ∧
      (∀ name existing, taken.sync.find name = some existing →
        (∀ nodeId actorId now,
          (taken.sync.register name nodeId actorId now).2.registration.vectorClock.compare
            existing.vectorClock = .after) ∧
        ∃ update, (taken.sync.unregister name).2 = some update ∧
          update.registration.vectorClock.compare existing.vectorClock = .after) ∧
      taken.fresh.Pairwise fun u v =>
        v.registration.vectorClock.compare u.registration.vectorClock = .after :=
  clock_discipline (show run SyncNode.step (.new 0) takeover = some taken from rfl)

end

end Libeam.Proofs.ClockDiscipline
