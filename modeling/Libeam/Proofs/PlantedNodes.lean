import Libeam.Proofs.Planting
import Libeam.Proofs.PlacedStarts
/-!
# A node between two operations

Whatever has been spawned, stopped, restarted and crashed before, the lists of a live
actor are in order: what stands on its list and runs here is there, a child is younger
than its parent, and the watchers of what is there have not been told anything.  An actor
whose parent is gone may be left over, and so may a reference to a child that is gone.
-/

namespace Libeam.Proofs.PlantedNodes

open Libeam.System (ActorId)
open Supervision TreeTables TreeSteps ChildLists Places PlacedStarts Planting
open RestartFrames (actors_replaceRemoteChild)
open StopCascade (detached_replaceRemoteChild)

variable {N V : Type}

/-! ## The tables -/

/-- What the lists of a parent are good for when nothing is in progress. -/
structure Tidy (t : Tables N V) : Prop where
  /-- What stands on the list of a live actor and runs here is there. -/
  ordered : ∀ q ∈ t.actors, ∀ c ∈ (t.context q).childOrder, c.systemId = t.id → c.id ∈ t.actors
  older : ∀ q c, OnLists t q c → q < c.id
  kept : ∀ x ∈ t.actors, x ∉ t.detached
  left : ∀ x ∈ t.detached, x < t.nextId
  /-- An entry is that of a child of its parent. -/
  entered : ∀ q c, OnLists t q c → ∀ e ∈ t.remoteChildren, e.childRef.id = c.id →
    e.parentRef.id = q

structure Rooted (t : Tables N V) : Prop extends Tidy t where
  sound : Sound t

theorem rooted_init (id : N) : Rooted (Tables.init id : Tables N V) where
  sound := sound_init id
  ordered := fun _ hq => absurd hq (Finset.notMem_empty _)
  older := fun _ _ hc => hc.elim (absurd · List.not_mem_nil) (absurd · List.not_mem_nil)
  kept := fun _ hx => absurd hx (Finset.notMem_empty _)
  left := fun _ hx => absurd hx (Finset.notMem_empty _)
  entered := fun _ _ _ _ he => absurd he List.not_mem_nil

section
variable {t : Tables N V}

/-! ### New actors -/

namespace Tidy

theorem register (h : Tidy t) (m : ActorMetadata N V) (first : Option ActorId) :
    Tidy (t.register m first) where
  ordered := fun q hq c hc hhere => by
    obtain ⟨hne, -⟩ := onLists_register (.inr hc)
    rw [show (t.register m first).context q = t.context q from Function.update_of_ne hne _ _] at hc
    exact Finset.mem_insert_of_mem
      (h.ordered q ((Finset.mem_insert.1 hq).resolve_left hne) c hc hhere)
  older := fun q c hc => h.older q c (onLists_register hc).2
  kept := fun x hx hin => by
    rcases Finset.mem_insert.1 hx with rfl | hx
    · exact absurd (h.left _ hin) (Nat.lt_irrefl _)
    · exact h.kept x hx hin
  left := fun x hx => Nat.lt_succ_of_lt (h.left x hx)
  entered := fun q c hc => h.entered q c (onLists_register hc).2

/-- The object of a new child joins the lists of an older actor. -/
theorem listChild (h : Tidy t) {q : ActorId} {c : ActorRef N} (hq : q < c.id)
    (hhere : c.systemId = t.id → c.id ∈ t.actors)
    (hentry : ∀ e ∈ t.remoteChildren, e.childRef.id = c.id → e.parentRef.id = q) :
    Tidy (t.listChild q c) where
  ordered := fun q' hq' d hd hhere' => by
    by_cases heq : q' = q
    · subst heq
      simp only [Tables.listChild, Function.update_self, List.mem_append,
        List.mem_singleton] at hd
      rcases hd with hd | rfl
      · exact h.ordered q' hq' d hd hhere'
      · exact hhere hhere'
    · simp only [Tables.listChild, Function.update_of_ne heq] at hd
      exact h.ordered q' hq' d hd hhere'
  older := fun q' d hd => by
    rcases onLists_listChild hd with hd | ⟨rfl, rfl⟩
    · exact h.older q' d hd
    · exact hq
  kept := h.kept
  left := h.left
  entered := fun q' d hd => by
    rcases onLists_listChild hd with hd | ⟨rfl, rfl⟩
    · exact h.entered q' d hd
    · exact hentry

/-- References leave the lists, and entries are dropped. -/
theorem shrink (h : Tidy t) {t' : Tables N V} (hid : t'.id = t.id)
    (hactors : t'.actors = t.actors) (hdetached : t'.detached = t.detached)
    (hnextId : t'.nextId = t.nextId)
    (hlists : ∀ q, (t'.context q).children.Sublist (t.context q).children ∧
      (t'.context q).childOrder.Sublist (t.context q).childOrder)
    (hentries : t'.remoteChildren.Sublist t.remoteChildren) : Tidy t' := by
  have hold : ∀ q c, OnLists t' q c → OnLists t q c := fun q c hc =>
    hc.imp (fun hc => (hlists q).1.subset hc) fun hc => (hlists q).2.subset hc
  refine ⟨fun q hq c hc hhere => ?_, fun q c hc => h.older q c (hold q c hc), ?_, ?_,
    fun q c hc e he => h.entered q c (hold q c hc) e (hentries.subset he)⟩
  · rw [hactors] at hq ⊢
    exact h.ordered q hq c ((hlists q).2.subset hc) (hid ▸ hhere)
  · rw [hactors, hdetached]
    exact h.kept
  · rw [hdetached, hnextId]
    exact h.left

end Tidy

namespace Rooted

/-- A reference on a list that runs here is the actor's own. -/
theorem own (h : Rooted t) {q : ActorId} {c : ActorRef N} (hc : OnLists t q c)
    (hhere : c.systemId = t.id) (hlive : c.id ∈ t.actors) :
    c = t.self c.id ∧ ∃ p, t.parentOf c.id = some p ∧ p.id = q := by
  obtain ⟨hself, m, p, hm, hp, hid⟩ := (hc.childRef h.sound).here hhere
  exact ⟨hself, p, (h.sound.parentOf_of_live hlive hm).trans hp, hid⟩

/-- A child of a live actor is on both of its lists. -/
theorem listed (h : Rooted t) {x : ActorId} {p : ActorRef N} (hp : t.parentOf x = some p) :
    t.self x ∈ (t.context p.id).children ∧ t.self x ∈ (t.context p.id).childOrder := by
  obtain ⟨hx, m, hm, hparent⟩ := h.sound.live_of_parentOf hp
  exact h.sound.listed x hx (h.kept x hx) m p hm hparent

theorem spawn (h : Rooted t) (actorClass : String) (options : SpawnOptions V)
    {first : Option ActorId} (hfirst : Inherits t first ⟨actorClass, options, none⟩) :
    Rooted (t.spawn actorClass options first) :=
  ⟨h.toTidy.register _ _, sound_spawn h.sound hfirst⟩

theorem spawnChild (h : Rooted t) {p : ActorRef N} {actorClass : String}
    {options : SpawnOptions V} {first : Option ActorId}
    (hfirst : Inherits t first ⟨actorClass, options, some p⟩) :
    Rooted (t.spawnChild p actorClass options first) := by
  refine ⟨?_, sound_spawnChild h.sound hfirst⟩
  unfold Tables.spawnChild
  split_ifs with hp
  · exact (h.toTidy.register _ _).listChild (h.sound.lt_of_live hp)
      (fun _ => Finset.mem_insert_self _ _)
      fun e he heq => absurd heq (Nat.ne_of_lt (h.sound.entries e he).lt)
  · exact h.toTidy

/-- The next id is for a child on another node, which gets an entry. -/
theorem tracked (h : Rooted t) {e : RemoteChildEntry N V}
    {rs : List (RemoteChildEntry N V)} (hid : e.childRef.id = t.nextId)
    (hrs : rs.Sublist t.remoteChildren) :
    Tidy { t with nextId := t.nextId + 1, remoteChildren := rs ++ [e] } where
  ordered := h.ordered
  older := h.older
  kept := h.kept
  left := fun x hx => Nat.lt_succ_of_lt (h.left x hx)
  entered := fun q c hc e' he' heq => by
    rcases List.mem_append.1 he' with he' | he'
    · exact h.entered q c hc e' (hrs.subset he') heq
    · have hlt := (OnLists.childRef h.sound hc).lt
      rw [List.mem_singleton.1 he', hid] at heq
      exact absurd heq.symm (Nat.ne_of_lt hlt)

theorem addRemoteChild (h : Rooted t) {p : ActorRef N} {actorClass : String} {node : N}
    {options : SpawnOptions V} (hp : p.id ∈ t.actors) (hnode : node ≠ t.id) :
    Rooted (t.addRemoteChild p actorClass node options) := by
  have hlt := h.sound.lt_of_live hp
  refine ⟨?_, sound_addRemoteChild h.sound hlt hnode⟩
  refine (h.tracked (e := ⟨⟨node, t.nextId, options.name, 0⟩, node, p, actorClass, options⟩)
    rfl (.refl _)).listChild hlt (fun hhere => absurd hhere hnode) fun e he heq => ?_
  rcases List.mem_append.1 he with he | he
  · exact absurd heq (Nat.ne_of_lt (h.sound.entries e he).lt)
  · rw [List.mem_singleton.1 he]

/-! ### Children on other nodes -/

theorem forgetRemote (h : Rooted t) (x : ActorId) : Rooted (t.forgetRemote x) :=
  ⟨h.toTidy.shrink rfl rfl rfl rfl (fun _ => ⟨.refl _, .refl _⟩) List.filter_sublist,
    sound_forgetRemote h.sound x⟩

variable [DecidableEq N]

theorem context_unlistChild (t : Tables N V) (p : ActorId) (c : ActorRef N) (q : ActorId) :
    ((t.unlistChild p c).context q).children.Sublist (t.context q).children ∧
      ((t.unlistChild p c).context q).childOrder.Sublist (t.context q).childOrder := by
  by_cases hq : q = p
  · subst hq
    simp only [Tables.unlistChild, Function.update_self]
    exact ⟨List.erase_sublist, List.eraseP_sublist⟩
  · simp only [Tables.unlistChild, Function.update_of_ne hq]
    exact ⟨.refl _, .refl _⟩

theorem dropRemoteChild (h : Rooted t) {e : RemoteChildEntry N V} (he : KnownEntry t e)
    (p : ActorRef N) : Rooted (t.dropRemoteChild e.childRef p) := by
  refine ⟨?_, sound_dropRemoteChild h.sound he p⟩
  have hforget := (h.forgetRemote e.childRef.id).toTidy
  unfold Tables.dropRemoteChild
  split_ifs
  · exact hforget.shrink rfl rfl rfl rfl (context_unlistChild _ _ _) (.refl _)
  · exact hforget

theorem removeRemoteChild (h : Rooted t) (x : ActorId) (p : ActorRef N) :
    Rooted (t.removeRemoteChild x p) := by
  unfold Tables.removeRemoteChild
  split
  · exact h
  · next e he => exact h.dropRemoteChild (h.sound.entries e (mem_of_getRemoteChild he).1) p

theorem replaceRemoteChild (h : Rooted t) {e : RemoteChildEntry N V} (he : KnownEntry t e) :
    Rooted (t.replaceRemoteChild e) := by
  refine ⟨?_, sound_replaceRemoteChild h.sound he⟩
  have hforget : (t.forgetRemote e.childRef.id).remoteChildren.Sublist t.remoteChildren :=
    List.filter_sublist
  have htracked := h.tracked (e := { e with
    childRef := ⟨e.childNodeId, t.nextId, e.options.name, 0⟩ }) rfl hforget
  have hnew : ∀ q c, OnLists (t.replaceRemoteChild e) q c → OnLists t q c ∨
      q = e.parentRef.id ∧ c = ⟨e.childNodeId, t.nextId, e.options.name, 0⟩ :=
    fun q c hc => (onLists_replaceRemoteChild h.sound hc).imp_left And.left
  refine ⟨fun q hq c hc hhere => ?_, fun q c hc => ?_, ?_, ?_, fun q c hc e' he' heq => ?_⟩
  · rw [actors_replaceRemoteChild] at hq ⊢
    rw [(extends_replaceRemoteChild t e).id] at hhere
    unfold Tables.replaceRemoteChild at hc
    dsimp only at hc
    split_ifs at hc
    · dsimp only at hc
      by_cases heq : q = e.parentRef.id
      · subst heq
        rw [Function.update_self, (replaceInOrder_perm _ _ _).mem_iff, List.mem_append,
          List.mem_singleton] at hc
        rcases hc with hc | rfl
        · exact h.ordered _ hq c (List.mem_of_mem_eraseP hc) hhere
        · exact absurd hhere he.elsewhere
      · rw [Function.update_of_ne heq] at hc
        exact h.ordered q hq c hc hhere
    · exact h.ordered q hq c hc hhere
  · rcases hnew q c hc with hold | ⟨rfl, rfl⟩
    · exact h.older q c hold
    · exact he.parent_lt
  · rw [actors_replaceRemoteChild, detached_replaceRemoteChild]
    exact h.kept
  · rw [detached_replaceRemoteChild, nextId_replaceRemoteChild]
    exact htracked.left
  · rw [remoteChildren_replaceRemoteChild] at he'
    rcases hnew q c hc with hold | ⟨rfl, rfl⟩
    · exact htracked.entered q c hold e' he' heq
    · rcases List.mem_append.1 he' with he' | he'
      · have hlt := (h.sound.entries e' (List.mem_of_mem_filter he')).lt
        exact absurd heq (Nat.ne_of_lt hlt)
      · rw [List.mem_singleton.1 he']

/-! ### Actors leave -/

theorem context_detach_sublist (t : Tables N V) (r : ActorRef N) (q : ActorId) :
    ((t.detach r).context q).children.Sublist (t.context q).children ∧
      ((t.detach r).context q).childOrder.Sublist (t.context q).childOrder := by
  unfold Tables.detach
  dsimp only
  split
  · exact ⟨.refl _, .refl _⟩
  · split_ifs
    · exact context_unlistChild _ _ _ q
    · exact ⟨.refl _, .refl _⟩

/-- A live parent has no reference on its list to a child that has left it. -/
theorem ne_of_mem_order_detach (h : Rooted t) {r : ActorRef N} {q : ActorId}
    (hq : q ∈ t.actors) {c : ActorRef N} (hc : c ∈ ((t.detach r).context q).childOrder)
    (hhere : c.systemId = t.id) : c.id ≠ r.id := by
  have hold : c ∈ (t.context q).childOrder := (context_detach_sublist t r q).2.subset hc
  intro heq
  obtain ⟨-, p, hp, rfl⟩ := h.own (.inr hold) hhere (h.ordered q hq c hold hhere)
  unfold Tables.detach at hc
  rw [heq] at hp
  simp only [hp, if_pos hq, Tables.unlistChild, Function.update_self] at hc
  rw [eraseP_eq_filter (h.sound.contexts p.id).order_nodup] at hc
  simp [heq] at hc

theorem leave (h : Rooted t) {r : ActorRef N} (hr : r.id < t.nextId) :
    Rooted ((t.detach r).remove r.id) := by
  refine ⟨⟨fun q hq c hc hhere => ?_, fun q c hc => ?_, fun x hx hin => ?_, fun x hx => ?_,
    fun q c hc e he => ?_⟩, sound_remove (sound_detach h.sound r) r.id⟩
  · change q ∈ (t.detach r).actors.erase r.id at hq
    change c.id ∈ (t.detach r).actors.erase r.id
    rw [detach_actors] at hq ⊢
    have hq := Finset.mem_of_mem_erase hq
    have hhere : c.systemId = t.id := hhere.trans (extends_detach t r).id
    exact Finset.mem_erase.2 ⟨h.ne_of_mem_order_detach hq hc hhere,
      h.ordered q hq c ((context_detach_sublist t r q).2.subset hc) hhere⟩
  · exact h.older q c (onLists_detach h.sound hc).1
  · change x ∈ (t.detach r).actors.erase r.id at hx
    change x ∈ (t.detach r).detached at hin
    rw [detach_actors] at hx
    rw [detach_detached] at hin
    obtain ⟨hne, hx⟩ := Finset.mem_erase.1 hx
    exact h.kept x hx ((Finset.mem_insert.1 hin).resolve_left hne)
  · change x ∈ (t.detach r).detached at hx
    rw [detach_detached] at hx
    refine Nat.lt_of_lt_of_le ?_ (extends_detach t r).nextId
    rcases Finset.mem_insert.1 hx with rfl | hx
    · exact hr
    · exact h.left x hx
  · change e ∈ (t.detach r).remoteChildren at he
    rw [detach_remoteChildren] at he
    exact h.entered q c (onLists_detach h.sound hc).1 e he

end Rooted

end

/-! ## Nodes -/

/-- A node with nothing in progress; what is said of the watchers of some actors does not
count. -/
structure Planted (X : ActorId → Prop) (s : Nodes N V) : Prop where
  rooted : Rooted s.toTables
  elsewhere : ∀ node x, (s.hosted node x).isSome → x < s.nextId ∧ x ∉ s.actors
  told_lt : ∀ r ∈ s.notified, r.1 < s.nextId
  untold : ∀ x ∈ s.actors, ¬ X x → ∀ r ∈ s.notified, r.1 ≠ x

/-- A node that has been changed, with nothing in progress. -/
structure Grows (X : ActorId → Prop) (s s' : Nodes N V) : Prop where
  planted : Planted X s'
  tables : Extends s.toTables s'.toTables

theorem planted_init (X : ActorId → Prop) (id : N)
    (childSupervision : ActorId → ChildSupervisionOptions) :
    Planted X (Nodes.init id childSupervision : Nodes N V) where
  rooted := rooted_init id
  elsewhere := fun _ _ h => nomatch h
  told_lt := fun _ h => absurd h List.not_mem_nil
  untold := fun _ h => absurd h (Finset.notMem_empty _)

namespace Grows

variable {X : ActorId → Prop} {s s' t : Nodes N V}

theorem refl (h : Planted X s) : Grows X s s := ⟨h, .refl _⟩

theorem trans (h : Grows X s t) (k : Grows X t s') : Grows X s s' :=
  ⟨k.planted, h.tables.trans k.tables⟩

theorem foldl {β : Type*} {f : Nodes N V → β → Nodes N V} {bs : List β} (h : Planted X s)
    (hf : ∀ t, Grows X s t → ∀ b ∈ bs, Grows X t (f t b)) : Grows X s (bs.foldl f s) := by
  induction bs generalizing s with
  | nil => exact .refl h
  | cons b bs ih =>
      have hb := hf s (.refl h) b List.mem_cons_self
      exact hb.trans (ih hb.planted fun t ht c hc =>
        hf t (hb.trans ht) c (List.mem_cons_of_mem _ hc))

end Grows

section
variable {X : ActorId → Prop} {s : Nodes N V}

namespace Planted

/-- New actors are here or on another node, and nobody has been told of them. -/
theorem grows (h : Planted X s) {s' : Nodes N V} (hrooted : Rooted s'.toTables)
    (hext : Extends s.toTables s'.toTables)
    (helse : ∀ node x, (s'.hosted node x).isSome → (s.hosted node x).isSome ∨
      x < s'.nextId ∧ x ∉ s'.actors)
    (htold : ∀ r ∈ s'.notified, r ∈ s.notified ∨ r.1 < s'.nextId ∧ (r.1 ∈ s'.actors → X r.1)) :
    Grows X s s' where
  planted :=
    { rooted := hrooted
      elsewhere := fun node x hx => by
        rcases helse node x hx with hold | hnew
        · obtain ⟨hlt, hgone⟩ := h.elsewhere node x hold
          exact ⟨Nat.lt_of_lt_of_le hlt hext.nextId,
            fun hlive => hgone (hext.actors x hlive hlt)⟩
        · exact hnew
      told_lt := fun r hr => (htold r hr).elim
        (fun hold => Nat.lt_of_lt_of_le (h.told_lt r hold) hext.nextId) And.left
      untold := fun x hx hnot r hr heq => by
        rcases htold r hr with hold | ⟨-, hexempt⟩
        · have hlt := h.told_lt r hold
          rw [heq] at hlt
          exact h.untold x (hext.actors x hx hlt) hnot r hold heq
        · rw [heq] at hexempt
          exact hnot (hexempt hx) }
  tables := hext

theorem spawn (h : Planted X s) {actorClass : String} {options : SpawnOptions V}
    {replaces : Option ActorId}
    (hfirst : Inherits s.toTables (replaces.map s.lineage) ⟨actorClass, options, none⟩) :
    Grows X s (s.spawn actorClass options replaces) :=
  h.grows (h.rooted.spawn actorClass options hfirst) (extends_register _ _ _)
    (fun _ _ => .inl) fun _ => .inl

theorem spawnChild (h : Planted X s) {p : ActorRef N} {actorClass : String}
    {options : SpawnOptions V} {replaces : Option ActorId}
    (hfirst : Inherits s.toTables (replaces.map s.lineage) ⟨actorClass, options, some p⟩) :
    Grows X s (s.spawnChild p actorClass options replaces) := by
  unfold Nodes.spawnChild
  split_ifs
  · exact h.grows (h.rooted.spawnChild hfirst) (extends_spawnChild _ _ _ _ _)
      (fun _ _ => .inl) fun _ => .inl
  · exact .refl h

variable [DecidableEq N]

theorem stopSingle (h : Planted X s) (r : ActorRef N) : Grows X s (s.stopSingle r) := by
  unfold Nodes.stopSingle
  split_ifs with hr
  · exact h.grows (h.rooted.leave (h.rooted.sound.lt_of_live hr)) (extends_left_removed _ r)
      (fun _ _ => .inl) fun _ => .inl
  · exact .refl h

theorem restart (h : Planted X s) (r : ActorRef N) : Grows X s (s.restart r) := by
  have hstop := h.stopSingle r
  unfold Nodes.restart
  split
  · exact .refl h
  · next actorClass options p hm =>
      have hspawned := (h.rooted.sound.live_of_metadata hm).2
      have hkept : (s.stopSingle r).spawned r.id = some ⟨actorClass, options, some p⟩ :=
        (hstop.tables.spawned r.id (h.rooted.sound.spawned_lt _ _ hspawned)).trans hspawned
      exact hstop.trans (hstop.planted.spawnChild (inherits_respawn hkept rfl))
  · next actorClass options hm =>
      have hspawned := (h.rooted.sound.live_of_metadata hm).2
      have hkept : (s.stopSingle r).spawned r.id = some ⟨actorClass, options, none⟩ :=
        (hstop.tables.spawned r.id (h.rooted.sound.spawned_lt _ _ hspawned)).trans hspawned
      exact hstop.trans (hstop.planted.spawn (inherits_respawn hkept rfl))

/-! ### Stops -/

theorem terminate (h : Planted X s) {r : ActorRef N} (hr : r.id < s.nextId) :
    Grows X s (s.terminate r) := by
  rw [terminate_eq]
  refine h.grows (h.rooted.leave hr) (extends_left_removed _ r) (fun _ _ => .inl) fun q hq => ?_
  refine (mem_notified hq).imp_right fun heq => ⟨?_, fun hlive => ?_⟩
  · rw [heq]
    exact Nat.lt_of_lt_of_le hr (extends_left_removed _ r).nextId
  · rw [heq] at hlive
    exact absurd hlive (Finset.notMem_erase _ _)

theorem stopHosted (h : Planted X s) (node : N) (x : ActorId) :
    Grows X s (s.stopHosted node x) := by
  unfold Nodes.stopHosted
  split_ifs with hx
  · obtain ⟨hlt, hgone⟩ := h.elsewhere node x hx
    have hnotified := fun r (hr : r ∈ (s.notifyWatchers x .normal).notified) => mem_notified hr
    rw [notifyWatchers_eq] at hnotified ⊢
    refine h.grows h.rooted (.refl _) (fun node' y hy => .inl ?_) fun r hr => ?_
    · by_cases hnode : node' = node
      · subst hnode
        by_cases hid : y = x
        · subst hid
          simp at hy
        · simpa [hid] using hy
      · simpa [hnode] using hy
    · refine (hnotified r hr).imp_right fun heq => ?_
      rw [heq]
      exact ⟨hlt, fun hlive => absurd hlive hgone⟩
  · exact .refl h

theorem forgetParent (h : Planted X s) (node : N) (x : ActorId) :
    Grows X s (s.forgetParent node x) :=
  h.grows h.rooted (.refl _) (fun _ _ => .inl) fun _ => .inl

theorem handleRemoteChildStop (h : Planted X s) (node : N) (x : ActorId) :
    Grows X s (s.handleRemoteChildStop node x) :=
  (h.forgetParent node x).trans ((h.forgetParent node x).planted.stopHosted node x)

theorem stopRemoteChild (h : Planted X s) (x : ActorId) : Grows X s (s.stopRemoteChild x) := by
  cases he : s.getRemoteChild x with
  | none =>
      unfold Nodes.stopRemoteChild
      rw [he]
      exact .refl h
  | some e =>
      have hstop := h.handleRemoteChildStop e.childNodeId x
      have htables := toTables_handleRemoteChildStop s e.childNodeId x
      have hentry := h.rooted.sound.entries e (mem_of_getRemoteChild he).1
      rw [stopRemoteChild_eq he]
      refine hstop.trans (hstop.planted.grows ?_ ?_ (fun _ _ => .inl) fun _ => .inl)
      · exact h.rooted.dropRemoteChild hentry e.parentRef
      · rw [htables]
        exact extends_dropRemoteChild _ _ _

theorem stopWithin (h : Planted X s) (generations : Nat) (r : ActorRef N) :
    Grows X s (Nodes.stopWithin generations s r) := by
  induction generations generalizing s r with
  | zero => exact .refl h
  | succ generations ih =>
      unfold Nodes.stopWithin
      split_ifs with hr
      · have hstopped : Grows X s ((s.context r.id).children.foldl (fun s c =>
            if c.systemId = s.id then Nodes.stopWithin generations s c
            else s.stopRemoteChild c.id) s) := by
          refine Grows.foldl h fun t ht c _ => ?_
          split_ifs
          · exact ih ht.planted c
          · exact ht.planted.stopRemoteChild c.id
        have hlt := Nat.lt_of_lt_of_le (h.rooted.sound.lt_of_live hr) hstopped.tables.nextId
        exact hstopped.trans (hstopped.planted.terminate hlt)
      · exact .refl h

theorem stop (h : Planted X s) (r : ActorRef N) : Grows X s (s.stop r) := h.stopWithin _ r

theorem stopChild (h : Planted X s) (c : ActorRef N) : Grows X s (s.stopChild c) := by
  unfold Nodes.stopChild
  split_ifs
  · exact h.stop c
  · exact h.stopRemoteChild c.id

/-! ### Starts on other nodes -/

theorem hosted_handleRemoteChildSpawn {node node' : N} {x y : ActorId} {actorClass : String}
    {options : SpawnOptions V}
    (h : ((s.handleRemoteChildSpawn node y actorClass options).hosted node' x).isSome) :
    (s.hosted node' x).isSome ∨ x = y := by
  unfold Nodes.handleRemoteChildSpawn at h
  by_cases hnode : node' = node
  · subst hnode
    by_cases hid : x = y
    · exact .inr hid
    · simp only [Function.update_self, Function.update_of_ne hid] at h
      exact .inl h
  · simp only [Function.update_of_ne hnode] at h
    exact .inl h

theorem spawnChildRemote (h : Planted X s) {p : ActorRef N} {actorClass : String} {node : N}
    {options : SpawnOptions V} {replaces : Option ActorId} (hnode : node ≠ s.id) :
    Grows X s (s.spawnChildRemote p actorClass node options replaces) := by
  unfold Nodes.spawnChildRemote
  split_ifs with hp
  · refine h.grows (h.rooted.addRemoteChild hp hnode) (extends_addRemoteChild _ _ _ _ _)
      (fun node' x hx => (hosted_handleRemoteChildSpawn hx).imp_right ?_) fun _ => .inl
    rintro rfl
    exact ⟨Nat.lt_succ_self _,
      fun hlive => absurd (h.rooted.sound.lt_of_live hlive) (Nat.lt_irrefl _)⟩
  · exact .refl h

theorem restartRemoteChild (h : Planted X s) {e : RemoteChildEntry N V}
    (he : KnownEntry s.toTables e) : Grows X s (s.restartRemoteChild e) := by
  cases hm : s.hosted e.childNodeId e.childRef.id with
  | none =>
      have heq : s.restartRemoteChild e =
          { s with toTables := s.toTables.forgetRemote e.childRef.id } := by
        unfold Nodes.restartRemoteChild Nodes.handleRemoteChildRestart
        simp [hm]
      rw [heq]
      exact h.grows (h.rooted.forgetRemote _) (extends_forgetRemote _ _)
        (fun _ _ => .inl) fun _ => .inl
  | some m =>
      have hstopped := h.stopHosted e.childNodeId e.childRef.id
      have hstop := hstopped.trans
        (hstopped.planted.forgetParent e.childNodeId e.childRef.id)
      have htables : ((s.stopHosted e.childNodeId e.childRef.id).forgetParent e.childNodeId
          e.childRef.id).toTables = s.toTables := by
        rw [stopHosted_eq]
        rfl
      have hext := extends_replaceRemoteChild s.toTables e
      rw [restartRemoteChild_eq hm]
      refine hstop.trans (hstop.planted.grows (h.rooted.replaceRemoteChild he) (htables ▸ hext)
        (fun node' x hx => (hosted_handleRemoteChildSpawn hx).imp_right ?_) fun _ => .inl)
      rintro rfl
      refine ⟨?_, fun hlive => ?_⟩
      · exact Nat.lt_of_lt_of_eq (Nat.lt_succ_self _) (nextId_replaceRemoteChild _ e).symm
      · rw [actors_replaceRemoteChild] at hlive
        exact absurd (h.rooted.sound.lt_of_live hlive) (Nat.lt_irrefl _)

/-! ### Strategies -/

theorem startPlanned (h : Planted X s) {parent : ActorRef N} {item : Planned N V}
    (hitem : SoundPlanned s.toTables parent.id item) :
    Grows X s (Nodes.startPlanned parent s item) := by
  cases item with
  | onNode x m =>
      obtain ⟨hm, r, hr, hid⟩ := hitem
      exact h.spawnChild (inherits_respawn hm (by simp [hr, hid]))
  | remote e => exact h.spawnChildRemote (KnownEntry.elsewhere hitem)

theorem restartGroup (h : Planted X s) {p : ActorId}
    {stopOne : Nodes N V → ActorRef N → Nodes N V}
    (hstop : ∀ t, Planted X t → ∀ c, Grows X t (stopOne t c)) {refs : List (ActorRef N)}
    {plan : List (Planned N V)}
    (hplan : ∀ item ∈ plan, SoundPlanned s.toTables (s.self p).id item) :
    Grows X s (s.restartGroup p stopOne refs plan) := by
  have hstopped : Grows X s (refs.reverse.foldl stopOne s) :=
    Grows.foldl h fun t ht c _ => hstop t ht.planted c
  exact hstopped.trans (Grows.foldl hstopped.planted fun t ht item hitem =>
    ht.planted.startPlanned ((hplan item hitem).extend h.rooted.sound
      (hstopped.trans ht).tables))

omit [DecidableEq N] in
/-- What is planned for children of a live actor. -/
theorem soundPlanned (h : Planted X s) {p : ActorId} (hp : p ∈ s.actors) {c : ActorRef N}
    (hc : c ∈ (s.context p).childOrder) {item : Planned N V}
    (hitem : (s.actorMetadata c.id).map (Planned.onNode c.id) = some item ∨
      (s.getRemoteChild c.id).map Planned.remote = some item) :
    SoundPlanned s.toTables (s.self p).id item := by
  have hsound := h.rooted.sound
  rcases hitem with hitem | hitem
  · obtain ⟨m, hm, rfl⟩ := Option.map_eq_some_iff.1 hitem
    have hspawned := (hsound.live_of_metadata hm).2
    obtain ⟨-, -, r, hr, hid⟩ := ((hsound.contexts p).order c hc).parent hspawned
    obtain ⟨mp, hmp⟩ := hsound.live_spawned p hp
    exact ⟨hspawned, r, hr, hid.trans (hsound.self p mp hmp).2.symm⟩
  · obtain ⟨e, he, rfl⟩ := Option.map_eq_some_iff.1 hitem
    exact hsound.entries e (mem_of_getRemoteChild he).1

theorem handleOneForAll (h : Planted X s) {p : ActorId} (hp : p ∈ s.actors) :
    Grows X s (s.handleOneForAll p) := by
  refine h.restartGroup (fun t ht c => ht.stop c) fun item hitem => ?_
  obtain ⟨c, hc, heq⟩ := List.mem_filterMap.1 hitem
  exact h.soundPlanned hp hc (.inl heq)

theorem handleRestForOne (h : Planted X s) {p : ActorId} (hp : p ∈ s.actors) (x : ActorId) :
    Grows X s (s.handleRestForOne p x) := by
  refine h.restartGroup (fun t ht c => ht.stop c) fun item hitem => ?_
  obtain ⟨c, hc, heq⟩ := List.mem_filterMap.1 hitem
  exact h.soundPlanned hp ((fromCrashed_sublist p x).subset hc) (.inl heq)

theorem handleRemoteOneForAll (h : Planted X s) {p : ActorId} (hp : p ∈ s.actors) :
    Grows X s (s.handleRemoteOneForAll p) := by
  refine h.restartGroup (fun t ht c => ht.stopChild c) fun item hitem => ?_
  rcases List.mem_append.1 hitem with hitem | hitem
  · obtain ⟨c, hc, heq⟩ := List.mem_filterMap.1 hitem
    exact h.soundPlanned hp (List.mem_of_mem_filter hc) (.inl heq)
  · obtain ⟨c, hc, heq⟩ := List.mem_filterMap.1 hitem
    exact h.soundPlanned hp (List.mem_of_mem_filter hc) (.inr heq)

theorem handleRemoteRestForOne (h : Planted X s) {p : ActorId} (hp : p ∈ s.actors)
    (x : ActorId) : Grows X s (s.handleRemoteRestForOne p x) := by
  refine h.restartGroup (fun t ht c => ht.stopChild c) fun item hitem => ?_
  obtain ⟨c, hc, heq⟩ := List.mem_filterMap.1 hitem
  refine h.soundPlanned hp ((fromCrashed_sublist p x).subset hc) ?_
  split_ifs at heq
  · exact .inl heq
  · exact .inr heq

/-! ### Crashes -/

omit [DecidableEq N] in
theorem canRestart (h : Planted X s) (key : String) (options : ChildSupervisionOptions)
    (now : Nat) : Grows X s (s.canRestart key options now).1 :=
  h.grows h.rooted (.refl _) (fun _ _ => .inl) fun _ => .inl

/-- The watchers of an actor are told that it is killed, and it is stopped. -/
theorem kill (h : Planted X s) {r : ActorRef N} (hr : r.id < s.nextId) :
    Grows X s ((s.notifyWatchers r.id .killed).stop r) := by
  have hnotified := fun q (hq : q ∈ (s.notifyWatchers r.id .killed).notified) => mem_notified hq
  have htold : Planted (fun x => X x ∨ x = r.id) (s.notifyWatchers r.id .killed) := by
    rw [notifyWatchers_eq] at hnotified ⊢
    exact ⟨h.rooted, h.elsewhere,
      fun q hq => (hnotified q hq).elim (h.told_lt q) fun heq => heq ▸ hr,
      fun x hx hnot q hq heq => (hnotified q hq).elim
        (fun hold => h.untold x hx (fun hX => hnot (.inl hX)) q hold heq)
        fun hid => hnot (.inr (heq.symm.trans hid))⟩
  have hgone : r.id ∉ ((s.notifyWatchers r.id .killed).stop r).actors := by
    unfold Nodes.stop Nodes.stopWithin
    split_ifs with hlive
    · exact Finset.notMem_erase _ _
    · exact hlive
  have hstop := htold.stop r
  have htables : (s.notifyWatchers r.id .killed).toTables = s.toTables := by rw [notifyWatchers_eq]
  refine ⟨⟨hstop.planted.rooted, hstop.planted.elsewhere, hstop.planted.told_lt,
    fun x hx hnot => hstop.planted.untold x hx ?_⟩, htables ▸ hstop.tables⟩
  rintro (hX | rfl)
  · exact hnot hX
  · exact hgone hx

variable (stringify : List V → String)

theorem handleChildCrash (h : Planted X s) (r : ActorRef N) (now : Nat) :
    Grows X s (s.handleChildCrash stringify r now) := by
  unfold Nodes.handleChildCrash
  split
  · next m actorClass options p hm =>
      dsimp only
      by_cases hp : p.id ∈ s.actors
      · rw [if_pos hp]
        have hcounted := h.canRestart (getRestartKey stringify r.id p.id (some options))
          (s.childSupervision p.id) now
        have hp' : p.id ∈ (s.canRestart (getRestartKey stringify r.id p.id (some options))
          (s.childSupervision p.id) now).1.actors := hp
        have hr := h.rooted.sound.lt_of_live (h.rooted.sound.live_of_metadata hm).1
        split_ifs
        · refine hcounted.trans ?_
          split
          · exact hcounted.planted.restart r
          · exact hcounted.planted.handleOneForAll hp'
          · exact hcounted.planted.handleRestForOne hp' r.id
        · exact hcounted.trans (hcounted.planted.kill hr)
      · rw [if_neg hp]
        exact .refl h
  · exact .refl h

theorem handleRemoteChildCrash (h : Planted X s) (x : ActorId) (now : Nat) :
    Grows X s (s.handleRemoteChildCrash stringify x now) := by
  unfold Nodes.handleRemoteChildCrash
  split
  · exact .refl h
  · next e he =>
      have hentry := h.rooted.sound.entries e (mem_of_getRemoteChild he).1
      dsimp only
      by_cases hp : e.parentRef.id ∈ s.actors
      · rw [if_pos hp]
        have hcounted := h.canRestart (getRestartKeyForRemote stringify e.childRef.id e.parentRef.id
          e.options) (s.childSupervision e.parentRef.id) now
        have hp' : e.parentRef.id ∈ (s.canRestart (getRestartKeyForRemote stringify e.childRef.id
          e.parentRef.id e.options) (s.childSupervision e.parentRef.id) now).1.actors := hp
        split_ifs
        · refine hcounted.trans ?_
          split
          · exact hcounted.planted.restartRemoteChild hentry
          · exact hcounted.planted.handleRemoteOneForAll hp'
          · exact hcounted.planted.handleRemoteRestForOne hp' e.childRef.id
        · exact hcounted.trans (hcounted.planted.grows
            (h.rooted.removeRemoteChild e.childRef.id e.parentRef)
            (extends_removeRemoteChild _ _ _) (fun _ _ => .inl) fun _ => .inl)
      · rw [if_neg hp]
        exact .refl h

theorem perform (h : Planted X s) (o : Nodes.Operation N V) :
    Grows X s (s.perform stringify o) := by
  cases o with
  | spawn actorClass options => exact h.spawn nofun
  | spawnChild p child =>
      dsimp only [Nodes.perform]
      split_ifs with hnode
      · exact h.spawnChild nofun
      · exact h.spawnChildRemote hnode
  | stop r => exact h.stop r
  | restart r => exact h.restart r
  | stopRemoteChild x => exact h.stopRemoteChild x
  | crash node x now =>
      dsimp only [Nodes.perform]
      unfold Nodes.crash
      split_ifs
      · exact h.handleChildCrash stringify (s.self x) now
      · exact .refl h
      · exact h.handleRemoteChildCrash stringify x now
      · exact .refl h

end Planted

end

/-- A node between any two operations. -/
theorem planted [DecidableEq N] (stringify : List V → String) (id : N)
    (childSupervision : ActorId → ChildSupervisionOptions) (os : List (Nodes.Operation N V)) :
    Planted (fun _ => False) (os.foldl (Nodes.perform stringify) (.init id childSupervision)) :=
  (Grows.foldl (planted_init _ id childSupervision) fun _ ht o _ =>
    ht.planted.perform stringify o).planted

end Libeam.Proofs.PlantedNodes
