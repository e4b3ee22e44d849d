import Libeam.Proofs.GroupRestarts
/-!
# What the crash of one child comes to

A crash that is granted leaves the child with one new instance in the place of the old
one, whatever the strategy and wherever the child runs.  A crash that is refused ends a
child on the node of its parent, but a remote child is only forgotten: it runs on.
-/

namespace Libeam.Proofs.CrashSteps

open Libeam.System (ActorId)
open Supervision Supervision.Nodes TreeTables Places PlacedStarts GroupRestarts

variable {N V : Type} {s s' : Nodes N V} {p first k : ActorId}

/-! ## What is planned -/

theorem filter_planned {f : ActorRef N → Option (Planned N V)}
    (hf : ∀ d i, f d = some i → replaces i = d.id) (refs : List (ActorRef N)) :
    (refs.filterMap f).filter (replaces · = k) = (refs.filter (·.id = k)).filterMap f := by
  rw [List.filter_filterMap, List.filterMap_filter]
  refine List.filterMap_congr fun d _ => ?_
  cases hd : f d with
  | none => simp
  | some i =>
      rw [← hf d i hd]
      by_cases hk : replaces i = k
      · simp [Option.filter, hk]
      · simp [Option.filter, hk]

theorem ids_planned {f : ActorRef N → Option (Planned N V)}
    (hf : ∀ d i, f d = some i → replaces i = d.id) {refs : List (ActorRef N)} :
    ∀ i ∈ refs.filterMap f, ∃ d ∈ refs, d.id = replaces i := by
  intro i hi
  obtain ⟨d, hd, heq⟩ := List.mem_filterMap.1 hi
  exact ⟨d, hd, (hf d i heq).symm⟩

theorem replaces_onNode (t : Tables N V) (d : ActorRef N) (i : Planned N V)
    (h : (t.actorMetadata d.id).map (.onNode d.id) = some i) : replaces i = d.id := by
  obtain ⟨m, -, rfl⟩ := Option.map_eq_some_iff.1 h
  rfl

theorem replaces_remote (t : Tables N V) (d : ActorRef N) (i : Planned N V)
    (h : (t.getRemoteChild d.id).map .remote = some i) : replaces i = d.id := by
  obtain ⟨e, he, rfl⟩ := Option.map_eq_some_iff.1 h
  exact (mem_of_getRemoteChild he).2

section
variable [DecidableEq N] {t : Tables N V} {refs : List (ActorRef N)} {d : ActorRef N}
  {e : RemoteChildEntry N V}

theorem replaces_inOrder (t : Tables N V) (d : ActorRef N) (i : Planned N V)
    (h : (if d.systemId = t.id then (t.actorMetadata d.id).map (.onNode d.id)
      else (t.getRemoteChild d.id).map .remote) = some i) : replaces i = d.id := by
  split_ifs at h
  · exact replaces_onNode t d i h
  · exact replaces_remote t d i h

/-- A child on another node is planned as a remote child. -/
theorem filter_inOrder (hrefs : refs.filter (·.id = k) = [d]) (hd : d.id = k)
    (helse : d.systemId ≠ t.id) (he : t.getRemoteChild k = some e) :
    (t.plannedInOrder refs).filter (replaces · = k) = [.remote e] := by
  unfold Tables.plannedInOrder
  rw [filter_planned (replaces_inOrder t), hrefs]
  simp [helse, hd, he]

theorem filter_mixed (hrefs : refs.filter (·.id = k) = [d]) (hd : d.id = k)
    (helse : d.systemId ≠ t.id) (he : t.getRemoteChild k = some e) :
    (t.plannedOnNode (refs.filter fun ref => ref.systemId = t.id) ++
      t.plannedRemote (refs.filter fun ref => ref.systemId ≠ t.id)).filter (replaces · = k) =
        [.remote e] := by
  have hcomm : ∀ q : ActorRef N → Bool, (refs.filter q).filter (·.id = k) = [d].filter q := by
    intro q
    rw [← hrefs, List.filter_filter, List.filter_filter]
    exact List.filter_congr fun _ _ => Bool.and_comm _ _
  unfold Tables.plannedOnNode Tables.plannedRemote
  rw [List.filter_append, filter_planned (replaces_onNode t), filter_planned (replaces_remote t),
    hcomm, hcomm]
  simp [helse, hd, he]

theorem ids_mixed (t : Tables N V) (refs : List (ActorRef N)) :
    ∀ i ∈ t.plannedOnNode (refs.filter fun ref => ref.systemId = t.id) ++
      t.plannedRemote (refs.filter fun ref => ref.systemId ≠ t.id),
      ∃ d ∈ refs, d.id = replaces i := by
  intro i hi
  rcases List.mem_append.1 hi with hi | hi
  · obtain ⟨d, hd, heq⟩ := ids_planned (replaces_onNode t) i hi
    exact ⟨d, List.mem_of_mem_filter hd, heq⟩
  · obtain ⟨d, hd, heq⟩ := ids_planned (replaces_remote t) i hi
    exact ⟨d, List.mem_of_mem_filter hd, heq⟩

end

/-- From the crashed child on. -/
theorem filter_fromCrashed (t : Tables N V) :
    (t.fromCrashed p k).filter (·.id = k) = (t.context p).childOrder.filter (·.id = k) := by
  unfold Tables.fromCrashed
  induction (t.context p).childOrder with
  | nil => rfl
  | cons d refs ih =>
      by_cases hd : d.id = k
      · rw [List.dropWhile_cons_of_neg (by simp [hd])]
      · rw [List.dropWhile_cons_of_pos (by simp [hd]), ih, List.filter_cons_of_neg (by simp [hd])]

theorem mem_fromCrashed {t : Tables N V} {d : ActorRef N} (h : d ∈ t.fromCrashed p k) :
    d ∈ (t.context p).childOrder :=
  (List.dropWhile_sublist _).subset h

/-! ## The instances of a child -/

variable [DecidableEq N] {c : ChildSpec N V} {rest : List ActorId}

theorem replaced_stop {r : ActorRef N} (h : (s.context r.id).children = []) :
    (s.stop r).replaced = s.replaced := by
  rw [stop_eq h]
  split_ifs
  · rw [terminate_eq]
  · rfl

theorem replaced_stopChild {r : ActorRef N} (h : (s.context r.id).children = []) :
    (s.stopChild r).replaced = s.replaced := by
  unfold Nodes.stopChild Nodes.stopRemoteChild
  split_ifs
  · exact replaced_stop h
  · split
    · rfl
    · unfold Nodes.handleRemoteChildStop
      rw [stopHosted_eq]
      rfl

theorem keeps_stopChild {r : ActorRef N} (h : (s.context r.id).children = []) :
    Keeps p (· = r.id) s (s.stopChild r) := by
  unfold Nodes.stopChild
  split_ifs
  · exact keeps_stop h
  · exact keeps_stopRemoteChild r.id

/-- The child has an instance, which has its place. -/
structure Running (s : Nodes N V) (p : ActorId) (c : ChildSpec N V) (first k : ActorId)
    (rest : List ActorId) : Prop where
  household : Household s p
  child : Child s p first k rest
  placed : Placed s p c k

/-- The child has a new instance in the place of `k`. -/
def Renewed (s s' : Nodes N V) (p : ActorId) (c : ChildSpec N V) (first k : ActorId)
    (rest : List ActorId) : Prop :=
  ∃ k' X, Running s' p c first k' (k :: rest) ∧ Keeps p X s s'

/-- A stop, then a start in the place of the stopped instance. -/
theorem renewed_of_start (h : Running s p c first k rest) {t : Nodes N V}
    (hkeeps : Keeps p (· = k) s t) (hsame : t.replaced = s.replaced)
    (hgone : place t p k = .gone) {parentRef : ActorRef N} (hid : parentRef.id = p)
    {item : Planned N V} (hitem : PlanOf s c k item) (hik : replaces item = k) :
    Renewed s (startPlanned parentRef t item) p c first k rest := by
  have hp := h.child.ne k List.mem_cons_self
  have hk := h.child.lt k List.mem_cons_self
  have hrest : k ∉ rest := fun hin => h.placed.ne_gone (h.child.gone k hin)
  have hpast := h.child.past hkeeps hsame hrest hgone
  have hhouse : Household t p := h.household.keeps hkeeps hp.symm fun x hx => hx ▸ hk
  have hstart := keeps_startPlanned hhouse hid item
  have hhouse' := hhouse.keeps hstart (fun heq => hp (hik ▸ heq.symm)) fun x hx =>
    hx ▸ hik ▸ Nat.lt_of_lt_of_le hk hkeeps.tables.nextId
  exact ⟨t.nextId, (· = k), ⟨hhouse', child_of_start hhouse hpast hid hik,
    placed_startPlanned hhouse hid (hitem.congr hkeeps.tables.id)⟩, hkeeps.trans (hik ▸ hstart)⟩

/-! ## A child on the node of its parent -/

section
variable (hnode : c.node = s.id)
include hnode

theorem here_of_placed (h : Placed s p c k) : ∃ r parentRef : ActorRef N, s.self k = r ∧
    r.id = k ∧ parentRef.id = p ∧
      place s p k = .here ⟨c.actorClass, c.options, some parentRef⟩ r := by
  obtain ⟨parentRef, hid, hplaced⟩ := h
  rw [if_pos hnode] at hplaced
  exact ⟨s.self k, parentRef, rfl, hplaced.1, hid, hplaced.2⟩

theorem renewed_restart (h : Running s p c first k rest) :
    Renewed s (s.restart (s.self k)) p c first k rest := by
  obtain ⟨r, parentRef, hself, rfl, hid, hplace⟩ := here_of_placed hnode h.placed
  have hmetadata : s.actorMetadata r.id = some ⟨c.actorClass, c.options, some parentRef⟩ :=
    metadata_of_place hplace
  have hsame : (s.stopSingle r).replaced = s.replaced := by
    unfold Nodes.stopSingle
    split_ifs <;> rfl
  have hgone := place_stopSingle h.household.live rfl hid hplace
  have hitem : PlanOf s c r.id (.onNode r.id ⟨c.actorClass, c.options, some parentRef⟩) :=
    ⟨hnode, rfl, rfl, rfl⟩
  unfold Nodes.restart
  rw [hself, hmetadata]
  exact renewed_of_start h (keeps_stopSingle r) hsame hgone hid hitem rfl

theorem renewed_stops {refs : List (ActorRef N)} (h : Running s p c first k rest)
    (hrefs : refs.filter (·.id = k) = (s.context p).childOrder.filter (·.id = k))
    (hlisted : ∀ d ∈ refs, d ∈ (s.context p).childOrder) :
    Renewed s (s.restartGroup p stop refs (s.plannedOnNode refs)) p c first k rest := by
  obtain ⟨r, parentRef, hself, rfl, hid, hplace⟩ := here_of_placed hnode h.placed
  have hmetadata : s.actorMetadata r.id = some ⟨c.actorClass, c.options, some parentRef⟩ :=
    metadata_of_place hplace
  have hlists : lists s.toTables p r.id = ([r], {r}) := congrArg Place.lists hplace
  have horder : refs.filter (·.id = r.id) = [r] :=
    hrefs.trans (Multiset.coe_eq_singleton.1 (Prod.mk.inj hlists).2)
  have hplan : (s.plannedOnNode refs).filter (replaces · = r.id) =
      [.onNode r.id ⟨c.actorClass, c.options, some parentRef⟩] := by
    unfold Tables.plannedOnNode
    rw [filter_planned (replaces_onNode s.toTables), horder]
    simp [hmetadata]
  have hstop : ∀ t, t.id = s.id → Household t p → Placed t p c r.id →
      lists t.toTables p r.id = ([r], {r}) → place (t.stop r) p r.id = .gone := by
    intro t hid' ht hplaced hlists'
    obtain ⟨r', parentRef', -, -, hparent', hplace'⟩ :=
      here_of_placed (hnode.trans hid'.symm) hplaced
    have hlist : lists t.toTables p r.id = ([r'], {r'}) := congrArg Place.lists hplace'
    obtain rfl : r' = r := by
      have heq := hlist.symm.trans hlists'
      simpa using (Prod.mk.inj heq).1
    exact place_stop (ht.leaf r'.id (h.child.ne _ List.mem_cons_self)) ht.live rfl hparent' hplace'
  obtain ⟨k', hhouse, hchild, hplaced, hkeeps⟩ := restartGroup h.household h.child h.placed
    (fun t d ht hd => keeps_stop (ht.leaf d.id hd))
    (fun t d ht hd => replaced_stop (ht.leaf d.id hd))
    hlists hstop horder hlisted hplan ⟨hnode, rfl, rfl, rfl⟩
    (ids_planned (replaces_onNode s.toTables))
  exact ⟨k', _, ⟨hhouse, hchild, hplaced⟩, hkeeps⟩

end

/-! ## A child on another node -/

section
variable (hnode : c.node ≠ s.id)
include hnode

theorem away_of_placed (h : Placed s p c k) :
    ∃ e : RemoteChildEntry N V, e.childRef.id = k ∧ e.childRef.systemId = c.node ∧
      e.childNodeId = c.node ∧ e.parentRef.id = p ∧ e.actorClass = c.actorClass ∧
      e.options = c.options ∧ place s p k = .away ⟨c.actorClass, c.options, none⟩ e := by
  obtain ⟨parentRef, hid, hplaced⟩ := h
  rw [if_neg hnode] at hplaced
  exact ⟨_, rfl, rfl, rfl, hid, rfl, rfl, hplaced⟩

theorem renewed_restartRemoteChild (h : Running s p c first k rest) {e : RemoteChildEntry N V}
    (he : s.getRemoteChild k = some e) :
    Renewed s (s.restartRemoteChild e) p c first k rest := by
  obtain ⟨e', rfl, -, htarget, hid, hclass, hoptions, hplace⟩ := away_of_placed hnode h.placed
  obtain rfl : e' = e := by
    rw [getRemoteChild_of_place hplace rfl] at he
    exact Option.some.inj he
  have hlive := h.household.live
  have hp := h.child.ne _ List.mem_cons_self
  have hk := h.child.lt _ List.mem_cons_self
  have hfresh := h.household.fresh s.nextId (Nat.le_refl _)
  have hkeeps := keeps_restartRemoteChild hlive hid hplace
  have hreplaced : (s.restartRemoteChild e').replaced =
      s.replaced ++ [(e'.childRef.id, s.nextId)] := by
    rw [restartRemoteChild_eq (hosted_of_place hplace)]
    rfl
  have hnext : (s.restartRemoteChild e').nextId = s.nextId + 1 := by
    rw [restartRemoteChild_eq (hosted_of_place hplace)]
    exact nextId_replaceRemoteChild s.toTables e'
  have hgone : ∀ x ∈ e'.childRef.id :: rest, place (s.restartRemoteChild e') p x = .gone := by
    intro x hx
    rcases List.mem_cons.1 hx with rfl | hrest
    · exact place_restartRemoteChild_old hlive hid hplace (Nat.ne_of_lt hk)
    · have hne : x ≠ e'.childRef.id := fun heq =>
        h.placed.ne_gone (heq ▸ h.child.gone x hrest)
      rw [place_restartRemoteChild_of_ne hlive hid hplace hne (Nat.ne_of_lt (h.child.lt x hx))]
      exact h.child.gone x hrest
  have hchild := child_renewed h.household h.child.instances h.child.lt h.child.ne hkeeps
    hreplaced hnext hgone
  have hplaced : Placed (s.restartRemoteChild e') p c s.nextId := by
    refine ⟨e'.parentRef, hid, ?_⟩
    rw [if_neg (fun heq => hnode (heq.trans hkeeps.tables.id)),
      place_restartRemoteChild_new hlive hid hplace (Nat.ne_of_lt hk) hfresh, htarget, hclass,
      hoptions]
  exact ⟨s.nextId, _, ⟨h.household.keeps hkeeps hp.symm fun x hx => hx ▸ hk, hchild, hplaced⟩,
    hkeeps⟩

/-- A group that the remote child belongs to. -/
theorem renewed_stopChildren (h : Running s p c first k rest) {e : RemoteChildEntry N V}
    (he : s.getRemoteChild k = some e) {refs : List (ActorRef N)}
    (hrefs : refs.filter (·.id = k) = (s.context p).childOrder.filter (·.id = k))
    (hlisted : ∀ d ∈ refs, d ∈ (s.context p).childOrder) {plan : List (Planned N V)}
    (hplan : (∃ d, d.id = k ∧ d.systemId ≠ s.id ∧ refs.filter (·.id = k) = [d]) →
      plan.filter (replaces · = k) = [.remote e])
    (hids : ∀ i ∈ plan, ∃ d ∈ refs, d.id = replaces i) :
    Renewed s (s.restartGroup p stopChild refs plan) p c first k rest := by
  obtain ⟨e', rfl, hsystem, htarget, hid, hclass, hoptions, hplace⟩ :=
    away_of_placed hnode h.placed
  obtain rfl : e' = e := by
    rw [getRemoteChild_of_place hplace rfl] at he
    exact Option.some.inj he
  have hlists : lists s.toTables p e'.childRef.id = ([e'.childRef], {e'.childRef}) :=
    congrArg Place.lists hplace
  have horder : refs.filter (·.id = e'.childRef.id) = [e'.childRef] :=
    hrefs.trans (Multiset.coe_eq_singleton.1 (Prod.mk.inj hlists).2)
  have hstop : ∀ t, t.id = s.id → Household t p → Placed t p c e'.childRef.id →
      lists t.toTables p e'.childRef.id = ([e'.childRef], {e'.childRef}) →
      place (t.stopChild e'.childRef) p e'.childRef.id = .gone := by
    intro t hid' ht hplaced _
    obtain ⟨e, heq, hsystem', -, hparent, -, -, hplace'⟩ :=
      away_of_placed (fun heq => hnode (heq.trans hid')) hplaced
    unfold Nodes.stopChild
    rw [if_neg (fun heq => hnode (hsystem.symm.trans (heq.trans hid'))), ← heq]
    exact place_stopRemoteChild ht.live hparent (heq.symm ▸ hplace')
  obtain ⟨k', hhouse, hchild, hplaced, hkeeps⟩ := restartGroup h.household h.child h.placed
    (fun t d ht hd => keeps_stopChild (ht.leaf d.id hd))
    (fun t d ht hd => replaced_stopChild (ht.leaf d.id hd)) hlists hstop horder hlisted
    (hplan ⟨_, rfl, hsystem ▸ hnode, horder⟩) ⟨hnode, rfl, hclass, htarget, hoptions⟩ hids
  exact ⟨k', _, ⟨hhouse, hchild, hplaced⟩, hkeeps⟩

end

/-! ## Crashes -/

section
variable {stringify : List V → String} {now : Nat}

/-- The state of the parent's node once the crash has been put to `canRestart`. -/
def counted (stringify : List V → String) (s : Nodes N V) (p : ActorId) (c : ChildSpec N V)
    (k : ActorId) (now : Nat) : Nodes N V × Bool :=
  s.canRestart (getRestartKey stringify k p (some c.options)) (s.childSupervision p) now

theorem counted_running (stringify : List V → String) (now : Nat)
    (h : Running s p c first k rest) :
    Running (counted stringify s p c k now).1 p c first k rest :=
  ⟨⟨h.household.root, h.household.self, h.household.leaf, h.household.fresh,
      h.household.notified_lt⟩,
    ⟨h.child.instances, h.child.lt, h.child.ne, h.child.gone, h.child.untold⟩, h.placed⟩

/-- The crash reaches `handleChildCrash` on the node of the parent. -/
theorem crash_here (hnode : c.node = s.id) (h : Running s p c first k rest) :
    s.crash stringify c.node k now =
      let s' := (counted stringify s p c k now).1
      if (counted stringify s p c k now).2 then
        match (s.childSupervision p).strategy with
        | .oneForOne => s'.handleOneForOne (s.self k)
        | .oneForAll => s'.handleOneForAll p
        | .restForOne => s'.handleRestForOne p k
      else (s'.notifyWatchers k .killed).stop (s.self k) := by
  obtain ⟨r, parentRef, hself, rfl, rfl, hplace⟩ := here_of_placed hnode h.placed
  have hlive : r.id ∈ s.actors := live_of_place hplace trivial
  have hmetadata : s.actorMetadata r.id = some ⟨c.actorClass, c.options, some parentRef⟩ :=
    metadata_of_place hplace
  unfold Nodes.crash Nodes.handleChildCrash
  rw [if_pos hnode, if_pos hlive, hself, hmetadata]
  dsimp only
  rw [if_pos h.household.live]
  rfl

/-- The report reaches `handleRemoteChildCrash` on the node of the parent. -/
theorem crash_away (stringify : List V → String) (now : Nat) (hnode : c.node ≠ s.id)
    (h : Running s p c first k rest) :
    ∃ e, s.getRemoteChild k = some e ∧ e.parentRef.id = p ∧ s.crash stringify c.node k now =
      let s' := (counted stringify s p c k now).1
      if (counted stringify s p c k now).2 then
        match (s.childSupervision p).strategy with
        | .oneForOne => s'.handleRemoteOneForOne e
        | .oneForAll => s'.handleRemoteOneForAll p
        | .restForOne => s'.handleRemoteRestForOne p k
      else { s' with toTables := s.toTables.removeRemoteChild k e.parentRef } := by
  obtain ⟨e, rfl, -, htarget, rfl, -, hoptions, hplace⟩ := away_of_placed hnode h.placed
  have he : s.getRemoteChild e.childRef.id = some e := getRemoteChild_of_place hplace rfl
  have hhosted := hosted_of_place hplace
  have hparent : e.childRef.id ∈ s.remoteParents e.childNodeId := by
    have hparented := congrFun (congrArg Place.parented hplace) e.childNodeId
    exact hparented.mpr rfl
  refine ⟨e, he, rfl, ?_⟩
  unfold Nodes.crash Nodes.handleRemoteChildCrash
  rw [if_neg hnode, ← htarget, hhosted, if_pos ⟨rfl, hparent⟩, he]
  dsimp only
  rw [if_pos h.household.live, hoptions]
  rfl

/-- A crash that is granted renews the child. -/
theorem crash_granted (h : Running s p c first k rest)
    (hgranted : (counted stringify s p c k now).2 = true) :
    Renewed (counted stringify s p c k now).1 (s.crash stringify c.node k now) p c first k
      rest := by
  have hcounted := counted_running stringify now h
  have hid : (counted stringify s p c k now).1.id = s.id := rfl
  by_cases hnode : c.node = s.id
  · rw [crash_here hnode h]
    dsimp only
    rw [if_pos hgranted]
    rw [← hid] at hnode
    cases (s.childSupervision p).strategy with
    | oneForOne => exact renewed_restart hnode hcounted
    | oneForAll => exact renewed_stops hnode hcounted rfl fun _ hd => hd
    | restForOne =>
        exact renewed_stops hnode hcounted (filter_fromCrashed _) fun _ hd => mem_fromCrashed hd
  · obtain ⟨e, he, -, heq⟩ := crash_away stringify now hnode h
    rw [heq]
    dsimp only
    rw [if_pos hgranted]
    rw [← hid] at hnode
    cases (s.childSupervision p).strategy with
    | oneForOne => exact renewed_restartRemoteChild hnode hcounted he
    | oneForAll =>
        exact renewed_stopChildren hnode hcounted he rfl (fun _ hd => hd)
          (fun ⟨d, hd, helse, hrefs⟩ => filter_mixed hrefs hd helse he) (ids_mixed _ _)
    | restForOne =>
        exact renewed_stopChildren hnode hcounted he (filter_fromCrashed _)
          (fun _ hd => mem_fromCrashed hd)
          (fun ⟨d, hd, helse, hrefs⟩ => filter_inOrder hrefs hd helse he)
          (ids_planned (replaces_inOrder _))

end

/-! ## The end of a child -/

/-- No instance of the child is anywhere, and the watchers of the last have been told. -/
structure Ended (s : Nodes N V) (p : ActorId) (c : ChildSpec N V) (first k : ActorId)
    (rest : List ActorId) : Prop where
  past : Past s p first (k :: rest)
  here : c.node = s.id
  told : ∃ r ∈ s.notified, r.1 = k

/-- The last instance of the child runs on its node, but its parent has no record of it
and its watchers have not been told. -/
structure Abandoned (s : Nodes N V) (p : ActorId) (c : ChildSpec N V) (first k : ActorId)
    (rest : List ActorId) : Prop where
  child : Child s p first k rest
  elsewhere : c.node ≠ s.id
  placed : ∃ m, place s p k = .abandoned m c.node

variable {stringify : List V → String} {now : Nat}

theorem ended_of_refused (hnode : c.node = s.id) (h : Running s p c first k rest)
    (hrefused : (counted stringify s p c k now).2 = false) :
    Ended (s.crash stringify c.node k now) p c first k rest := by
  have hcounted := counted_running stringify now h
  have hnode' : c.node = (counted stringify s p c k now).1.id := hnode
  rw [crash_here hnode h]
  dsimp only
  rw [hrefused, if_neg Bool.false_ne_true]
  obtain ⟨r, parentRef, hself, rfl, hid, hplace⟩ := here_of_placed hnode' hcounted.placed
  have hself' : s.self r.id = r := hself
  rw [hself']
  generalize (counted stringify s p c r.id now).1 = t at hcounted hplace hnode'
  have hrest : r.id ∉ rest := fun hin =>
    hcounted.placed.ne_gone (hcounted.child.gone r.id hin)
  have htold := told_notifyWatchers (s := t) r.id .killed
  have hnotify := keeps_notifyWatchers (s := t) p r.id .killed
  have hsame : (t.notifyWatchers r.id .killed).replaced = t.replaced := by
    rw [notifyWatchers_eq]
  have hplace' : place (t.notifyWatchers r.id .killed) p r.id =
      .here ⟨c.actorClass, c.options, some parentRef⟩ r := by
    rw [notifyWatchers_eq]
    exact hplace
  have hhouse := hcounted.household.keeps hnotify
    (hcounted.child.ne r.id List.mem_cons_self).symm
    fun x hx => hx ▸ hcounted.child.lt r.id List.mem_cons_self
  generalize t.notifyWatchers r.id .killed = u at htold hnotify hsame hplace' hhouse ⊢
  have hleaf := hhouse.leaf r.id (hcounted.child.ne r.id List.mem_cons_self)
  have hkeeps := hnotify.trans (keeps_stop hleaf)
  refine ⟨hcounted.child.past hkeeps ((replaced_stop hleaf).trans hsame) hrest
    (place_stop hleaf hhouse.live rfl hid hplace'), hnode'.trans hkeeps.tables.id.symm, ?_⟩
  obtain ⟨q, hq, hid⟩ := htold
  refine ⟨q, ?_, hid⟩
  rw [stop_eq hleaf, if_pos (live_of_place hplace' trivial), terminate_eq]
  exact mem_notifyWatchers hq

theorem abandoned_of_refused (hnode : c.node ≠ s.id) (h : Running s p c first k rest)
    (hrefused : (counted stringify s p c k now).2 = false) :
    Abandoned (s.crash stringify c.node k now) p c first k rest := by
  have hcounted := counted_running stringify now h
  obtain ⟨e, he, hparent, heq⟩ := crash_away stringify now hnode h
  rw [heq]
  dsimp only
  rw [hrefused, if_neg Bool.false_ne_true]
  obtain ⟨e', rfl, -, htarget, -, -, -, hplace⟩ := away_of_placed hnode h.placed
  obtain rfl : e' = e := by
    rw [getRemoteChild_of_place hplace rfl] at he
    exact Option.some.inj he
  have hdrop : s.toTables.removeRemoteChild e'.childRef.id e'.parentRef =
      s.dropRemoteChild e'.childRef e'.parentRef := by
    unfold Tables.removeRemoteChild
    rw [he]
  have hkeeps : Keeps p (· = e'.childRef.id) (counted stringify s p c e'.childRef.id now).1
      { (counted stringify s p c e'.childRef.id now).1 with
        toTables := s.dropRemoteChild e'.childRef e'.parentRef } :=
    keeps_dropRemoteChild e'.childRef e'.parentRef
  rw [hdrop]
  have hlists : lists s.toTables p e'.childRef.id = ([e'.childRef], {e'.childRef}) :=
    congrArg Place.lists hplace
  have hplace' : place { (counted stringify s p c e'.childRef.id now).1 with
      toTables := s.dropRemoteChild e'.childRef e'.parentRef } p e'.childRef.id =
        { place s p e'.childRef.id with lists := ([], 0), entries := [] } :=
    place_dropRemoteChild h.household.live hparent hlists
  refine ⟨⟨h.child.instances, ?_, h.child.ne, ?_, h.child.untold⟩, ?_, ?_⟩
  · exact fun x hx => Nat.lt_of_lt_of_le (h.child.lt x hx) hkeeps.tables.nextId
  · intro x hx
    have hne : x ≠ e'.childRef.id := fun heq => h.placed.ne_gone (heq ▸ h.child.gone x hx)
    rw [hkeeps.place x hne (.inl (h.child.lt x (List.mem_cons_of_mem _ hx)))]
    exact h.child.gone x hx
  · exact fun heq => hnode (heq.trans hkeeps.tables.id)
  · refine ⟨⟨c.actorClass, c.options, none⟩, ?_⟩
    rw [hplace', hplace, ← htarget]
    rfl

/-! ### Later crashes -/

theorem crash_of_ended (h : Ended s p c first k rest) :
    s.crash stringify c.node k now = s := by
  have hlive : k ∉ s.actors := by
    have hfalse : (place s p k).live = False :=
      congrArg Place.live (h.past.gone k List.mem_cons_self)
    exact fun hin => hfalse ▸ hin
  unfold Nodes.crash
  rw [if_pos h.here, if_neg hlive]

/-- The parent's node knows of no such child. -/
theorem crash_of_abandoned (h : Abandoned s p c first k rest) :
    s.crash stringify c.node k now = s := by
  obtain ⟨m, hplace⟩ := h.placed
  have hnone : s.getRemoteChild k = none := getRemoteChild_of_entries hplace rfl
  unfold Nodes.crash Nodes.handleRemoteChildCrash
  rw [if_neg h.elsewhere, hnone]
  exact ite_self s

end Libeam.Proofs.CrashSteps
