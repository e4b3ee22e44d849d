import Libeam.Proofs.Places
/-!
# Where a start puts a child

A spawn gives the next id the place of a child, on this node or on another, and a
restart of a remote child takes the old id out of every table as well.
-/

namespace Libeam.Proofs.PlacedStarts

open Libeam.System (ActorId)
open Supervision Supervision.Nodes TreeTables Places
open RestartFrames (actors_replaceRemoteChild)
open ChildLists (remoteChildren_replaceRemoteChild)

variable {N V : Type} {s : Nodes N V} {p x : ActorId}

/-! ## Starts -/

section
variable {parentRef : ActorRef N} {actorClass : String} {options : SpawnOptions V}
  {replaces : Option ActorId}

theorem mem_replace {r : ActorId × ActorId} {rs : List (ActorId × ActorId)}
    (hrs : rs = (replaces.map fun id => (id, s.nextId)).toList) (hr : r ∈ rs) :
    replaces = some r.1 ∧ r.2 = s.nextId := by
  subst hrs
  rw [Option.mem_toList, Option.map_eq_some_iff] at hr
  obtain ⟨y, hy, rfl⟩ := hr
  exact ⟨hy, rfl⟩

theorem lists_spawnChild_of_ne (hp : p < s.nextId) (hx : x ≠ s.nextId) {m : ActorMetadata N V}
    {first : Option ActorId} {q : ActorId} {c : ActorRef N} (hc : c.id = s.nextId) :
    lists ((s.register m first).listChild q c) p x = lists s.toTables p x := by
  rw [lists_listChild_of_ne (hc ▸ hx)]
  exact lists_congr (context_register_of_lt hp) x

theorem place_spawnChild_of_ne (hp : p < s.nextId) (hx : x ≠ s.nextId) :
    place (s.spawnChild parentRef actorClass options replaces) p x = place s p x := by
  unfold Nodes.spawnChild Tables.spawnChild
  split_ifs
  · unfold place
    rw [lists_spawnChild_of_ne hp hx rfl]
    simp [Tables.listChild, Tables.register, hx]
  · rfl

/-- A new child on this node. -/
theorem place_spawnChild_new (hp : p < s.nextId) (hlive : p ∈ s.actors) (hid : parentRef.id = p)
    (h : place s p s.nextId = .gone) :
    place (s.spawnChild parentRef actorClass options replaces) p s.nextId =
      .here ⟨actorClass, options, some parentRef⟩ ⟨s.id, s.nextId, options.name, 0⟩ := by
  subst hid
  obtain ⟨-, -, hhosted, hparented, hold, hentries⟩ := Place.mk.inj h
  have hregistered : lists (s.register ⟨actorClass, options, some parentRef⟩
      (replaces.map s.lineage)) parentRef.id s.nextId = ([], 0) := by
    rw [lists_congr (context_register_of_lt hp)]
    exact hold
  unfold Nodes.spawnChild Tables.spawnChild
  rw [if_pos hlive, if_pos hlive]
  unfold place
  rw [lists_listChild_self hregistered]
  simp only [Tables.listChild, Tables.register, Function.update_self, hhosted, hparented]
  simp [Place.here, hentries]

theorem ne_nextId_of_new {n : ActorId} (h : x < n ∨ n + 1 ≤ x) : x ≠ n := by
  rintro rfl
  exact h.elim (Nat.lt_irrefl _) (Nat.not_succ_le_self _)

theorem spawnChild_eq (hlive : parentRef.id ∈ s.actors) :
    s.spawnChild parentRef actorClass options replaces = { s with
      toTables := (s.register ⟨actorClass, options, some parentRef⟩
        (replaces.map s.lineage)).listChild parentRef.id ⟨s.id, s.nextId, options.name, 0⟩
      replaced := s.replace replaces } := by
  unfold Nodes.spawnChild Tables.spawnChild
  rw [if_pos hlive, if_pos hlive]

theorem keeps_spawnChild (hp : p < s.nextId) (hid : parentRef.id = p) :
    Keeps p (replaces = some ·) s (s.spawnChild parentRef actorClass options replaces) := by
  have hplace : ∀ x, x ≠ s.nextId →
      place (s.spawnChild parentRef actorClass options replaces) p x = place s p x :=
    fun x hx => place_spawnChild_of_ne hp hx
  by_cases hlive : parentRef.id ∈ s.actors
  · rw [spawnChild_eq hlive] at hplace ⊢
    exact
      { tables := (extends_register _ _ _).trans (extends_listChild _ _ _)
        supervision := rfl
        supervisor := rfl
        granted := rfl
        place := fun x _ hx => hplace x (ne_nextId_of_new hx)
        leaf := by
          intro hleaf q hq
          simp only [Tables.listChild, Tables.register]
          rw [Function.update_of_ne (hid ▸ hq)]
          by_cases hnew : q = s.nextId
          · subst hnew
            rw [Function.update_self]
          · rw [Function.update_of_ne hnew]
            exact hleaf q hq
        notified := fun _ h => .inl h
        replaced := ⟨_, rfl, fun r hr =>
          have hnew := mem_replace rfl hr
          ⟨hnew.1, Nat.le_of_eq hnew.2.symm, Nat.lt_succ_of_le (Nat.le_of_eq hnew.2)⟩⟩ }
  · unfold Nodes.spawnChild
    rw [if_neg hlive]
    exact Keeps.refl s

/-! ### On another node -/

variable [DecidableEq N] {targetNodeId : N}

theorem spawnChildRemote_eq (hlive : parentRef.id ∈ s.actors) :
    s.spawnChildRemote parentRef actorClass targetNodeId options replaces =
      { s.handleRemoteChildSpawn targetNodeId s.nextId actorClass options with
        toTables := s.toTables.addRemoteChild parentRef actorClass targetNodeId options
        replaced := s.replace replaces } := by
  unfold Nodes.spawnChildRemote
  rw [if_pos hlive]

theorem place_spawnChildRemote_of_ne (hx : x ≠ s.nextId) :
    place (s.spawnChildRemote parentRef actorClass targetNodeId options replaces) p x =
      place s p x := by
  by_cases hlive : parentRef.id ∈ s.actors
  · rw [spawnChildRemote_eq hlive]
    have hlists : lists (s.addRemoteChild parentRef actorClass targetNodeId options) p x =
        lists s.toTables p x := lists_listChild_of_ne hx
    unfold place Nodes.handleRemoteChildSpawn
    rw [hlists]
    simp only [hosted_update_of_ne s.hosted _ hx, parents_insert_of_ne s.remoteParents hx]
    simp [Tables.addRemoteChild, Tables.listChild, List.filter_append, hx.symm]
  · unfold Nodes.spawnChildRemote
    rw [if_neg hlive]

/-- A new child on another node. -/
theorem place_spawnChildRemote_new (hlive : p ∈ s.actors) (hid : parentRef.id = p)
    (h : place s p s.nextId = .gone) :
    place (s.spawnChildRemote parentRef actorClass targetNodeId options replaces) p s.nextId =
      .away ⟨actorClass, options, none⟩
        ⟨⟨targetNodeId, s.nextId, options.name, 0⟩, targetNodeId, parentRef, actorClass,
          options⟩ := by
  subst hid
  obtain ⟨hgone, hmetadata, hhosted, hparented, hold, hentries⟩ := Place.mk.inj h
  have hlists : lists (s.addRemoteChild parentRef actorClass targetNodeId options)
      parentRef.id s.nextId =
        ([⟨targetNodeId, s.nextId, options.name, 0⟩],
          {⟨targetNodeId, s.nextId, options.name, 0⟩}) := lists_listChild_self hold
  have hparents : (fun n => n = targetNodeId ∨ s.nextId ∈ s.remoteParents n) =
      (· = targetNodeId) := by
    funext n
    simp only [congrFun hparented n, or_false]
  rw [spawnChildRemote_eq hlive]
  unfold place Nodes.handleRemoteChildSpawn
  rw [hlists]
  simp only [hosted_update_self, parents_insert_self, hhosted, hparents]
  simp only [Tables.addRemoteChild, Tables.listChild, List.filter_append, hgone, hmetadata,
    hentries]
  simp [Place.away]

theorem keeps_spawnChildRemote (hid : parentRef.id = p) :
    Keeps p (replaces = some ·) s
      (s.spawnChildRemote parentRef actorClass targetNodeId options replaces) := by
  have hplace : ∀ x, x ≠ s.nextId →
      place (s.spawnChildRemote parentRef actorClass targetNodeId options replaces) p x =
        place s p x :=
    fun x hx => place_spawnChildRemote_of_ne hx
  by_cases hlive : parentRef.id ∈ s.actors
  · rw [spawnChildRemote_eq hlive] at hplace ⊢
    exact
      { tables := extends_addRemoteChild _ _ _ _ _
        supervision := rfl
        supervisor := rfl
        granted := rfl
        place := fun x _ hx => hplace x (ne_nextId_of_new hx)
        leaf := by
          intro hleaf q hq
          simp only [Tables.addRemoteChild, Tables.listChild]
          rw [Function.update_of_ne (hid ▸ hq)]
          exact hleaf q hq
        notified := fun _ h => .inl h
        replaced := ⟨_, rfl, fun r hr =>
          have hnew := mem_replace rfl hr
          ⟨hnew.1, Nat.le_of_eq hnew.2.symm, Nat.lt_succ_of_le (Nat.le_of_eq hnew.2)⟩⟩ }
  · unfold Nodes.spawnChildRemote
    rw [if_neg hlive]
    exact Keeps.refl s

end

/-! ### Again on the same node -/

section
variable [DecidableEq N] {e : RemoteChildEntry N V} {m : ActorMetadata N V}

theorem hosted_of_place (h : place s p x = .away m e) : s.hosted e.childNodeId x = some m := by
  have hhosted := congrFun (congrArg Place.hosted h) e.childNodeId
  exact hhosted.trans (by simp [Place.away])

/-- What a restart writes. -/
theorem restartRemoteChild_eq (h : s.hosted e.childNodeId e.childRef.id = some m) :
    s.restartRemoteChild e =
      { ((s.stopHosted e.childNodeId e.childRef.id).forgetParent e.childNodeId
          e.childRef.id).handleRemoteChildSpawn e.childNodeId s.nextId m.actorClass m.options with
        toTables := s.replaceRemoteChild e
        replaced := s.replace (some e.childRef.id) } := by
  unfold Nodes.restartRemoteChild Nodes.handleRemoteChildRestart
  dsimp only
  rw [h]
  rfl

theorem metadata_replaceRemoteChild (t : Tables N V) (e : RemoteChildEntry N V) :
    (t.replaceRemoteChild e).actorMetadata = t.actorMetadata := by
  unfold Tables.replaceRemoteChild
  dsimp only
  split_ifs <;> rfl

theorem nextId_replaceRemoteChild (t : Tables N V) (e : RemoteChildEntry N V) :
    (t.replaceRemoteChild e).nextId = t.nextId + 1 := by
  unfold Tables.replaceRemoteChild
  dsimp only
  split_ifs <;> rfl

theorem place_restartRemoteChild_of_ne (hlive : p ∈ s.actors) (hid : e.parentRef.id = p)
    (h : place s p e.childRef.id = .away m e) (hx : x ≠ e.childRef.id) (hnew : x ≠ s.nextId) :
    place (s.restartRemoteChild e) p x = place s p x := by
  subst hid
  have hlists : lists (s.replaceRemoteChild e) e.parentRef.id x =
      lists s.toTables e.parentRef.id x := by
    rw [lists_replaceRemoteChild hlive, lists_listChild_of_ne hnew, lists_unlistChild_of_ne hx]
  have hentries : (s.replaceRemoteChild e).remoteChildren.filter (·.childRef.id = x) =
      s.remoteChildren.filter (·.childRef.id = x) := by
    rw [remoteChildren_replaceRemoteChild, List.filter_append, entries_forgetRemote_of_ne hx]
    simp [hnew.symm]
  rw [restartRemoteChild_eq (hosted_of_place h), stopHosted_eq]
  unfold place Nodes.forgetParent Nodes.handleRemoteChildSpawn
  rw [hlists, hentries]
  dsimp only
  rw [hosted_update_of_ne _ _ hnew, hosted_update_of_ne _ _ hx, parents_insert_of_ne _ hnew,
    parents_erase_of_ne _ hx, actors_replaceRemoteChild, metadata_replaceRemoteChild]

theorem place_restartRemoteChild_old (hlive : p ∈ s.actors) (hid : e.parentRef.id = p)
    (h : place s p e.childRef.id = .away m e) (hnew : e.childRef.id ≠ s.nextId) :
    place (s.restartRemoteChild e) p e.childRef.id = .gone := by
  subst hid
  obtain ⟨hgone, hmetadata, hhosted, hparented, hold, -⟩ := Place.mk.inj h
  have hlists : lists (s.replaceRemoteChild e) e.parentRef.id e.childRef.id = ([], 0) := by
    rw [lists_replaceRemoteChild hlive, lists_listChild_of_ne hnew]
    exact lists_unlistChild_self hold
  have hentries : (s.replaceRemoteChild e).remoteChildren.filter
      (·.childRef.id = e.childRef.id) = [] := by
    rw [remoteChildren_replaceRemoteChild, List.filter_append, entries_forgetRemote_self]
    simp [hnew.symm]
  have hparents : (fun n => n ≠ e.childNodeId ∧ e.childRef.id ∈ s.remoteParents n) =
      fun _ => False := by
    funext n
    simp only [congrFun hparented n]
    simp
  rw [restartRemoteChild_eq (hosted_of_place h), stopHosted_eq]
  unfold place Nodes.forgetParent Nodes.handleRemoteChildSpawn
  rw [hlists, hentries]
  dsimp only
  rw [hosted_update_of_ne _ _ hnew, hosted_update_self, parents_insert_of_ne _ hnew,
    parents_erase_self, actors_replaceRemoteChild, metadata_replaceRemoteChild, hhosted, hparents,
    Function.update_idem, Function.update_eq_self, hgone, hmetadata]
  rfl

theorem place_restartRemoteChild_new (hlive : p ∈ s.actors) (hid : e.parentRef.id = p)
    (h : place s p e.childRef.id = .away m e) (hold : e.childRef.id ≠ s.nextId)
    (hfresh : place s p s.nextId = .gone) :
    place (s.restartRemoteChild e) p s.nextId = .away ⟨m.actorClass, m.options, none⟩
      { e with childRef := ⟨e.childNodeId, s.nextId, e.options.name, 0⟩ } := by
  subst hid
  obtain ⟨hgone, hmetadata, hhosted, hparented, hnone, hentries⟩ := Place.mk.inj hfresh
  have hlists : lists (s.replaceRemoteChild e) e.parentRef.id s.nextId =
      ([⟨e.childNodeId, s.nextId, e.options.name, 0⟩],
        {⟨e.childNodeId, s.nextId, e.options.name, 0⟩}) := by
    have hunlisted : lists (s.unlistChild e.parentRef.id e.childRef) e.parentRef.id s.nextId =
        ([], 0) := (lists_unlistChild_of_ne hold.symm).trans hnone
    rw [lists_replaceRemoteChild hlive]
    exact lists_listChild_self hunlisted
  have hentries' : (s.replaceRemoteChild e).remoteChildren.filter (·.childRef.id = s.nextId) =
      [{ e with childRef := ⟨e.childNodeId, s.nextId, e.options.name, 0⟩ }] := by
    rw [remoteChildren_replaceRemoteChild, List.filter_append,
      entries_forgetRemote_of_ne hold.symm, hentries]
    simp
  have hparents : (fun n => n = e.childNodeId ∨ s.nextId ∈ Function.update s.remoteParents
      e.childNodeId ((s.remoteParents e.childNodeId).erase e.childRef.id) n) =
        (· = e.childNodeId) := by
    funext n
    have herase : (s.nextId ∈ Function.update s.remoteParents e.childNodeId
        ((s.remoteParents e.childNodeId).erase e.childRef.id) n) = (s.nextId ∈ s.remoteParents n) :=
      congrFun (parents_erase_of_ne s.remoteParents hold.symm) n
    simp only [herase, congrFun hparented n, or_false]
  rw [restartRemoteChild_eq (hosted_of_place h), stopHosted_eq]
  unfold place Nodes.forgetParent Nodes.handleRemoteChildSpawn
  rw [hlists, hentries']
  dsimp only
  rw [hosted_update_self, hosted_update_of_ne _ _ hold.symm, parents_insert_self, hparents,
    actors_replaceRemoteChild, metadata_replaceRemoteChild, hhosted, hgone, hmetadata]
  rfl

theorem keeps_restartRemoteChild (hlive : p ∈ s.actors) (hid : e.parentRef.id = p)
    (h : place s p e.childRef.id = .away m e) :
    Keeps p (· = e.childRef.id) s (s.restartRemoteChild e) := by
  have hplace := fun x (hx : x ≠ e.childRef.id) (hnew : x ≠ s.nextId) =>
    place_restartRemoteChild_of_ne hlive hid h hx hnew
  have hnext := nextId_replaceRemoteChild s.toTables e
  have hnotified := fun r (hr : r ∈ (s.stopHosted e.childNodeId e.childRef.id).notified) =>
    mem_notified_stopHosted hr
  rw [restartRemoteChild_eq (hosted_of_place h)] at hplace ⊢
  rw [stopHosted_eq] at hplace ⊢
  exact
    { tables := extends_replaceRemoteChild _ e
      supervision := rfl
      supervisor := rfl
      granted := rfl
      place := fun x hx hnew => hplace x hx (ne_nextId_of_new (hnext ▸ hnew))
      leaf := by
        intro hleaf q hq
        have hcontext : (s.replaceRemoteChild e).context q = s.context q := by
          unfold Tables.replaceRemoteChild
          dsimp only
          rw [if_pos (hid ▸ hlive)]
          exact Function.update_of_ne (hid ▸ hq) _ _
        exact hcontext.symm ▸ hleaf q hq
      notified := hnotified
      replaced := ⟨_, rfl, fun r hr => by
        obtain ⟨hold, hnew⟩ := mem_replace rfl hr
        refine ⟨(Option.some.inj hold).symm, Nat.le_of_eq hnew.symm, ?_⟩
        dsimp only
        rw [hnext]
        exact Nat.lt_succ_of_le (Nat.le_of_eq hnew)⟩ }

end

end Libeam.Proofs.PlacedStarts
