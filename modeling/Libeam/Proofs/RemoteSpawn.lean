import Libeam.Supervision.Placement
/-!
# References to actors on other nodes

The node that handles a `spawn` message spawns afresh: it asks its own placement engine, and it
takes a new identifier.  So the identifier in the reference that was returned is never that of an
instance.
-/

namespace Libeam.Proofs.RemoteSpawn

open Lib.Transition Supervision
open Libeam.System (ActorId)

variable {N V : Type} [DecidableEq N]

/-- The reference names a live instance on its node, and the spawn led to none elsewhere. -/
structure Works (c : PlacingCluster N V) (ref : ActorRef N) : Prop where
  live : ∃ i ∈ (c.node ref.systemId).actors, i.self.id = ref.id ∧ i.self.name = ref.name
  only : ∀ p ∈ c.created, p.2.cause = some ref → p.1 = ref.systemId

/-- The identifier was handed out, but not in a reference that was returned. -/
def Unreferenced (c : PlacingCluster N V) (id : ActorId) : Prop :=
  id < c.nextId ∧ ∀ ref ∈ c.returned, id ≠ ref.id

/-- Identifiers of instances and of returned references are apart. -/
structure Apart (c : PlacingCluster N V) : Prop where
  returned : ∀ ref ∈ c.returned, ref.id < c.nextId
  constructing : ∀ n, ∀ i ∈ (c.node n).constructing, Unreferenced c i.self.id
  created : ∀ p ∈ c.created, Unreferenced c p.2.self.id
  actors : ∀ n, ∀ i ∈ (c.node n).actors, (n, i) ∈ c.created

namespace Apart

variable {c : PlacingCluster N V}

omit [DecidableEq N] in
theorem start (getMembers : N → List N) (getMembersByRole : N → Option (String → List N))
    (actorClasses : N → Finset String) :
    Apart (.start getMembers getMembersByRole actorClasses : PlacingCluster N V) := by
  constructor <;> simp [PlacingCluster.start]

/-- A node changes, but brings up no instance. -/
theorem setNode (h : Apart c) {n : N} {node : PlacingNode N V}
    (hconstructing : ∀ i ∈ node.constructing, i ∈ (c.node n).constructing)
    (hactors : ∀ i ∈ node.actors, i ∈ (c.node n).actors) : Apart (c.setNode n node) where
  returned := h.returned
  constructing := fun m i hi => by
    simp only [PlacingCluster.setNode, Function.update_apply] at hi
    split_ifs at hi with hm
    · exact h.constructing n i (hconstructing i hi)
    · exact h.constructing m i hi
  created := h.created
  actors := fun m i hi => by
    simp only [PlacingCluster.setNode, Function.update_apply] at hi
    split_ifs at hi with hm
    · exact hm ▸ h.actors n i (hactors i hi)
    · exact h.actors m i hi

omit [DecidableEq N] in
theorem unreferenced_succ {id : ActorId} (h : Unreferenced c id) :
    Unreferenced { c with nextId := c.nextId + 1 } id :=
  ⟨h.1.trans (Nat.lt_succ_self _), h.2⟩

omit [DecidableEq N] in
/-- An identifier is used up. -/
theorem next (h : Apart c) : Apart { c with nextId := c.nextId + 1 } where
  returned := fun ref href => (h.returned ref href).trans (Nat.lt_succ_self _)
  constructing := fun n i hi => unreferenced_succ (h.constructing n i hi)
  created := fun p hp => unreferenced_succ (h.created p hp)
  actors := h.actors

/-- An identifier that is new is in no returned reference. -/
theorem construct (h : Apart c) (n : N) (actorClassName : String)
    (options : PlacedSpawnOptions V) (cause : Option (ActorRef N)) :
    Apart (c.construct n actorClassName options cause) where
  returned := h.next.returned
  constructing := fun m i hi => by
    simp only [PlacingCluster.construct, PlacingCluster.setNode, Function.update_apply] at hi
    split_ifs at hi with hm
    · rcases List.mem_cons.1 hi with rfl | hi
      · exact ⟨Nat.lt_succ_self _, fun ref href => (h.returned ref href).ne'⟩
      · exact h.next.constructing n i hi
    · exact h.next.constructing m i hi
  created := h.next.created
  actors := fun m i hi => by
    simp only [PlacingCluster.construct, PlacingCluster.setNode, Function.update_apply] at hi
    split_ifs at hi with hm
    · exact hm ▸ h.actors n i hi
    · exact h.actors m i hi

/-- The three ways in which `spawn` ends: it throws, the constructor begins here, or the message
is sent. -/
theorem spawn_cases (c : PlacingCluster N V) (n : N) (actorClassName : String)
    (options : PlacedSpawnOptions V) (cause : Option (ActorRef N)) :
    c.spawn n actorClassName options cause = (c, none) ∨
      ∃ engine target, ((c.node n).placementEngine.selectNode options.strategy options.role =
          (engine, .ok target)) ∧
        let c' := c.setNode n { c.node n with placementEngine := engine }
        (target = n ∧ c.spawn n actorClassName options cause =
            (c'.construct n actorClassName options cause, some (c.newRef n options.name)) ∨
          target ≠ n ∧ c.spawn n actorClassName options cause =
            ({ c' with
                nextId := c.nextId + 1
                inFlight := c.inFlight ++ [⟨target, actorClassName, c.newRef target options.name,
                  options, cause.getD (c.newRef target options.name)⟩] },
              some (c.newRef target options.name))) := by
  unfold PlacingCluster.spawn
  dsimp only
  split_ifs with hclosing
  · exact .inl rfl
  · split
    next => exact .inl rfl
    next engine target hselect =>
      refine .inr ⟨engine, target, hselect, ?_⟩
      split_ifs with htarget
      · exact .inl ⟨htarget, by rw [htarget]; rfl⟩
      · exact .inr ⟨htarget, rfl⟩

theorem spawn (h : Apart c) (n : N) (actorClassName : String) (options : PlacedSpawnOptions V)
    (cause : Option (ActorRef N)) : Apart (c.spawn n actorClassName options cause).1 := by
  rcases spawn_cases c n actorClassName options cause with
    heq | ⟨engine, target, -, ⟨-, heq⟩ | ⟨-, heq⟩⟩ <;> rw [heq]
  · exact h
  · have hnode : Apart (c.setNode n { c.node n with placementEngine := engine }) :=
      h.setNode (fun _ hi => hi) fun _ hi => hi
    exact hnode.construct n actorClassName options cause
  · have hnode : Apart (c.setNode n { c.node n with placementEngine := engine }) :=
      h.setNode (fun _ hi => hi) fun _ hi => hi
    exact ⟨hnode.next.returned, hnode.next.constructing, hnode.next.created, hnode.next.actors⟩

/-- The reference to another node has an identifier that no instance has. -/
theorem spawn_returns (h : Apart c) (n : N) (actorClassName : String)
    (options : PlacedSpawnOptions V) (cause : Option (ActorRef N)) {ref : ActorRef N}
    (href : (c.spawn n actorClassName options cause).2 = some ref) (hremote : ref.systemId ≠ n) :
    let c' := (c.spawn n actorClassName options cause).1
    ref.id < c'.nextId ∧ (∀ m, ∀ i ∈ (c'.node m).constructing, i.self.id ≠ ref.id) ∧
      ∀ p ∈ c'.created, p.2.self.id ≠ ref.id := by
  rcases spawn_cases c n actorClassName options cause with
    heq | ⟨engine, target, -, ⟨-, heq⟩ | ⟨-, heq⟩⟩ <;> rw [heq] at href ⊢
  · cases href
  · cases href
    exact absurd rfl hremote
  · cases href
    have hnode : Apart (c.setNode n { c.node n with placementEngine := engine }) :=
      h.setNode (fun _ hi => hi) fun _ hi => hi
    exact ⟨Nat.lt_succ_self _, fun m i hi => (hnode.constructing m i hi).1.ne,
      fun p hp => (h.created p hp).1.ne⟩

omit [DecidableEq N] in
/-- A reference is returned whose identifier no instance has. -/
theorem returning (h : Apart c) {ref : ActorRef N} (hnext : ref.id < c.nextId)
    (hconstructing : ∀ n, ∀ i ∈ (c.node n).constructing, i.self.id ≠ ref.id)
    (hcreated : ∀ p ∈ c.created, p.2.self.id ≠ ref.id) :
    Apart { c with returned := c.returned ++ [ref] } where
  returned := List.forall_mem_append.2 ⟨h.returned, List.forall_mem_singleton.2 hnext⟩
  constructing := fun n i hi => ⟨(h.constructing n i hi).1, List.forall_mem_append.2
    ⟨(h.constructing n i hi).2, List.forall_mem_singleton.2 (hconstructing n i hi)⟩⟩
  created := fun p hp => ⟨(h.created p hp).1, List.forall_mem_append.2
    ⟨(h.created p hp).2, List.forall_mem_singleton.2 (hcreated p hp)⟩⟩
  actors := h.actors

/-- The innermost constructor returns, and its instance enters the table. -/
theorem constructed (h : Apart c) {n : N} {i : Instance N V} {constructing : List (Instance N V)}
    (hstack : (c.node n).constructing = i :: constructing) :
    Apart { c.setNode n { c.node n with
        constructing := constructing
        actors := (c.node n).actors ++ [i] } with
      created := c.created ++ [(n, i)] } where
  returned := h.returned
  constructing := fun m i' hi => by
    simp only [PlacingCluster.setNode, Function.update_apply] at hi
    split_ifs at hi with hm
    · exact h.constructing n i' (hstack ▸ List.mem_cons_of_mem i hi)
    · exact h.constructing m i' hi
  created := List.forall_mem_append.2 ⟨h.created,
    List.forall_mem_singleton.2 (h.constructing n i (hstack ▸ List.mem_cons_self))⟩
  actors := fun m i' hi => by
    simp only [PlacingCluster.setNode, Function.update_apply] at hi
    split_ifs at hi with hm
    · subst hm
      rcases List.mem_append.1 hi with hi | hi
      · exact List.mem_append_left _ (h.actors m i' hi)
      · exact List.mem_append_right _ (List.mem_singleton.1 hi ▸ List.mem_singleton_self _)
    · exact List.mem_append_left _ (h.actors m i' hi)

theorem step (h : Apart c) {a : PlacingAction N V} {c' : PlacingCluster N V}
    (hst : c.step a = some c') : Apart c' := by
  cases a with
  | spawn n actorClassName options =>
      have hspawned := h.spawn n actorClassName options none
      have hreturns := @spawn_returns N V _ c h n actorClassName options none
      simp only [PlacingCluster.step, Option.some.injEq] at hst
      subst hst
      generalize c.spawn n actorClassName options none = r at hspawned hreturns ⊢
      obtain ⟨c', actorRef⟩ := r
      dsimp only at hspawned hreturns ⊢
      generalize hfilter : Option.filter _ actorRef = remote
      rcases remote with _ | ref
      · simpa using hspawned
      · obtain ⟨hsome, hremote⟩ := Option.filter_eq_some_iff.1 hfilter
        obtain ⟨hnext, hconstructing, hcreated⟩ := hreturns hsome (of_decide_eq_true hremote)
        exact hspawned.returning hnext hconstructing hcreated
  | constructed n =>
      simp only [PlacingCluster.step] at hst
      split at hst
      next => cases hst
      next i constructing hstack =>
        cases hst
        exact h.constructed hstack
  | constructorThrows n =>
      simp only [PlacingCluster.step] at hst
      split at hst
      next => cases hst
      next i constructing hstack =>
        cases hst
        refine h.setNode (fun i' hi => ?_) fun _ hi => hi
        rw [hstack]
        exact List.mem_cons_of_mem i hi
  | deliver index =>
      simp only [PlacingCluster.step] at hst
      split at hst
      next => cases hst
      next message _ =>
        split_ifs at hst
        cases hst
        have hrest : Apart { c with inFlight := c.inFlight.eraseIdx index } :=
          ⟨h.returned, h.constructing, h.created, h.actors⟩
        unfold PlacingCluster.handleSpawn
        split_ifs
        · exact hrest.spawn _ _ _ _
        · exact hrest
  | lose index =>
      simp only [PlacingCluster.step] at hst
      split at hst
      next => cases hst
      next =>
        cases hst
        exact ⟨h.returned, h.constructing, h.created, h.actors⟩
  | begin n actorClassName options => cases hst; exact h.construct n actorClassName options none
  | stop n id =>
      cases hst
      exact h.setNode (fun _ hi => hi) fun _ hi => List.mem_of_mem_filter hi
  | membership | registerActorClass | closing =>
      cases hst
      exact h.setNode (fun _ hi => hi) fun _ hi => hi

/-- In every state of a run the identifiers are apart. -/
theorem of_run {getMembers : N → List N} {getMembersByRole : N → Option (String → List N)}
    {actorClasses : N → Finset String} {actions : List (PlacingAction N V)}
    (hrun : run PlacingCluster.step (.start getMembers getMembersByRole actorClasses) actions =
      some c) : Apart c :=
  run_invariant' (fun _ _ _ hinv hst => hinv.step hst) (start _ _ _) hrun

end Apart

variable {getMembers : N → List N} {getMembersByRole : N → Option (String → List N)}
  {actorClasses : N → Finset String} {actions : List (PlacingAction N V)} {c : PlacingCluster N V}

/-- The reference that `spawn` returns for another node never works: whatever happens to its
message, no instance on any node has its identifier. -/
theorem remote_reference_dead
    (hrun : run PlacingCluster.step (.start getMembers getMembersByRole actorClasses) actions =
      some c) {ref : ActorRef N} (href : ref ∈ c.returned) :
    ¬ Works c ref ∧ ∀ p ∈ c.created, p.2.self.id ≠ ref.id := by
  have hapart := Apart.of_run hrun
  have hcreated : ∀ p ∈ c.created, p.2.self.id ≠ ref.id := fun p hp =>
    (hapart.created p hp).2 ref href
  refine ⟨fun hworks => ?_, hcreated⟩
  obtain ⟨i, hi, hid, -⟩ := hworks.live
  exact hcreated _ (hapart.actors _ i hi) hid

/-- Three nodes, whose clusters list the members in different orders. -/
def threeNodes : PlacingCluster (Fin 3) Unit :=
  .start (fun n => if n = 0 then [1, 2, 0] else [2, 0, 1]) (fun _ => none) fun _ => {"Worker"}

/-- Node 0 spawns a worker, which its engine places on node 1, and whose engine sends it on. -/
def sentOn : List (PlacingAction (Fin 3) Unit) :=
  [.spawn 0 "Worker" { strategy := .roundRobin }, .deliver 0, .deliver 0, .constructed 2]

theorem remote_reference_dead_sentOn : ∃ c ref, run PlacingCluster.step threeNodes sentOn = some c ∧
    ref ∈ c.returned ∧ ¬ Works c ref ∧ ∀ p ∈ c.created, p.2.self.id ≠ ref.id := by
  have hrun : ∃ c, run PlacingCluster.step threeNodes sentOn = some c ∧
      c.returned = [⟨1, 0, none, 0⟩] := ⟨_, rfl, rfl⟩
  obtain ⟨c, hrun, hreturned⟩ := hrun
  have href : (⟨1, 0, none, 0⟩ : ActorRef (Fin 3)) ∈ c.returned := by rw [hreturned]; decide
  exact ⟨c, _, hrun, href, remote_reference_dead hrun href⟩

/-- The class is registered on node 1, the message was handled, and yet the instance is on
node 2, and under another identifier. -/
theorem remote_spawn_sent_on : ∃ c ref i, run PlacingCluster.step threeNodes sentOn = some c ∧
    c.returned = [ref] ∧ ref.systemId = 1 ∧ "Worker" ∈ (c.node 1).actorClasses ∧
    c.inFlight = [] ∧ (c.node 1).actors = [] ∧ c.created = [(2, i)] ∧ i.cause = some ref ∧
    i.self.id ≠ ref.id ∧ ¬ Works c ref := by
  have hrun : ∃ c i, run PlacingCluster.step threeNodes sentOn = some c ∧
      c.returned = [⟨1, 0, none, 0⟩] ∧ "Worker" ∈ (c.node 1).actorClasses ∧ c.inFlight = [] ∧
      (c.node 1).actors = [] ∧ c.created = [(2, i)] ∧ i.cause = some ⟨1, 0, none, 0⟩ ∧
      i.self.id ≠ 0 := by
    refine ⟨_, _, rfl, rfl, ?_, rfl, rfl, rfl, rfl, ?_⟩ <;> decide
  obtain ⟨c, i, hrun, hreturned, hclass, hflight, hactors, hcreated, hcause, hid⟩ := hrun
  refine ⟨c, _, i, hrun, hreturned, rfl, hclass, hflight, hactors, hcreated, hcause, hid, ?_⟩
  intro hworks
  obtain ⟨j, hj, -⟩ := hworks.live
  rw [hactors] at hj
  cases hj

end Libeam.Proofs.RemoteSpawn
