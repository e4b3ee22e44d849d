import Libeam.Proofs.PlantedNodes
/-!
# A group of children is restarted

The stop of a child removes the actors of its tree and touches nothing outside of it but
the lists of its parent.  A strategy for several children stops one after the other, from
the youngest to the oldest, and the starts that follow put a new instance at the end of the
list for each of them, so that the classes and options on the list come out as they were.
-/

namespace Libeam.Proofs.GroupExact

open Libeam.System (ActorId)
open Monitoring (TerminationReason)
open Supervision Lib TreeTables TreeSteps ChildLists Places PlacedStarts Planting PlantedNodes
open RestartFrames (actors_dropRemoteChild)
open Forest (PostOrder Below exists_postOrder)

variable {N V : Type} [DecidableEq N]

/-! ## The children that a stop reaches -/

section
variable {t : Tables N V} {x y : ActorId}

/-- The actor that the reference is to runs here. -/
def runsHere (t : Tables N V) (c : ActorRef N) : Bool := c.systemId = t.id ∧ c.id ∈ t.actors

def offspring (t : Tables N V) (x : ActorId) : List ActorId :=
  ((t.context x).children.filter (runsHere t)).map (·.id)

theorem runsHere_iff {c : ActorRef N} : runsHere t c ↔ c.systemId = t.id ∧ c.id ∈ t.actors :=
  decide_eq_true_iff

/-- The set of an actor and the metadata of its children give the same tree. -/
theorem mem_offspring_iff (h : Rooted t) : y ∈ offspring t x ↔ Parent t x y := by
  constructor
  · intro hy
    obtain ⟨c, hc, rfl⟩ := List.mem_map.1 hy
    obtain ⟨hc, hhere⟩ := List.mem_filter.1 hc
    obtain ⟨hhere, hlive⟩ := runsHere_iff.1 hhere
    exact (h.own (.inl hc) hhere hlive).2
  · rintro ⟨p, hp, rfl⟩
    obtain ⟨hlive, m, hm, -⟩ := h.sound.live_of_parentOf hp
    obtain ⟨hhere, hid⟩ := h.sound.self y m hm
    exact List.mem_map.2 ⟨t.self y, List.mem_filter.2 ⟨(h.listed hp).1,
      runsHere_iff.2 ⟨hhere, hid.symm ▸ hlive⟩⟩, hid⟩

theorem below_eq_descends (h : Rooted t) : Below (offspring t) = Descends t := by
  unfold Below Descends
  congr
  funext x y
  exact propext (mem_offspring_iff h)

theorem offspring_unique (h : Rooted t) (x x' y : ActorId) (hy : y ∈ offspring t x)
    (hy' : y ∈ offspring t x') : x = x' := by
  obtain ⟨p, hp, rfl⟩ := (mem_offspring_iff h).1 hy
  obtain ⟨p', hp', rfl⟩ := (mem_offspring_iff h).1 hy'
  rw [hp] at hp'
  cases hp'
  rfl

theorem offspring_nodup (h : Rooted t) (x : ActorId) : (offspring t x).Nodup :=
  (h.sound.contexts x).children_nodup.sublist (List.filter_sublist.map _)

/-- Children are younger than their parents, and no actor is younger than the next one. -/
theorem offspring_rank (h : Rooted t) (x y : ActorId) (hy : y ∈ offspring t x) :
    t.nextId - y < t.nextId - x := by
  obtain ⟨c, hc, rfl⟩ := List.mem_map.1 hy
  have hc := List.mem_of_mem_filter hc
  have hlt := ((h.sound.contexts x).children c hc).lt
  have hless := h.older x c (.inl hc)
  exact Nat.sub_lt_sub_left (Nat.lt_trans hless hlt) hless

theorem descends_nextId (h : Rooted t) (hxy : Descends t x y) :
    t.nextId - y ≤ t.nextId - x := by
  rw [← below_eq_descends h] at hxy
  exact hxy.rank_le (offspring_rank h)

/-- A parent is not in the tree of its child. -/
theorem not_descends_parent (h : Rooted t) (hxy : Parent t x y) : ¬ Descends t y x := by
  intro hyx
  have hlt := offspring_rank h x y ((mem_offspring_iff h).2 hxy)
  exact absurd (descends_nextId h hyx) (Nat.not_le_of_lt hlt)

/-- The trees of the children of one actor are apart. -/
theorem eq_of_descends (h : Rooted t) {p : ActorId} (hx : Parent t p x) (hy : Parent t p y)
    (hxy : Descends t x y) : x = y := by
  rcases Relation.ReflTransGen.cases_tail hxy with heq | ⟨z, hxz, hzy⟩
  · exact heq.symm
  · have hz : z = p := offspring_unique h z p y ((mem_offspring_iff h).2 hzy)
      ((mem_offspring_iff h).2 hy)
    exact absurd (hz ▸ hxz) (not_descends_parent h hx)

end

/-! ## What has been done when some actors have been stopped -/

/-- The lists of an actor without the references to some actors of this node, and perhaps
without some to other nodes. -/
structure Thinned (id : N) (done : List ActorId) (ctx ctx' : ActorContext N) : Prop where
  children : ctx'.children.Sublist ctx.children
  order : ctx'.childOrder.Sublist ctx.childOrder
  childrenHere : ctx'.children.filter (·.systemId = id) =
    (ctx.children.filter (·.systemId = id)).filter (·.id ∉ done)
  orderHere : ctx'.childOrder.filter (·.systemId = id) =
    (ctx.childOrder.filter (·.systemId = id)).filter (·.id ∉ done)

namespace Thinned

variable {id : N} {done : List ActorId} {ctx ctx' : ActorContext N}

theorem refl (id : N) (ctx : ActorContext N) : Thinned id [] ctx ctx :=
  ⟨.refl _, .refl _, by simp, by simp⟩

theorem spared (h : Thinned id done ctx ctx') (x : ActorId) :
    Thinned id (done ++ [x]) ctx (spared [x] ctx') := by
  have hmore : ∀ {cs cs' : List (ActorRef N)}, cs'.filter (·.systemId = id) =
      (cs.filter (·.systemId = id)).filter (·.id ∉ done) →
      (cs'.filter (·.id ∉ [x])).filter (·.systemId = id) =
        (cs.filter (·.systemId = id)).filter (·.id ∉ done ++ [x]) := by
    intro cs cs' heq
    rw [List.filter_comm, heq, List.filter_filter]
    refine List.filter_congr fun c _ => ?_
    simp [Bool.and_comm]
  exact ⟨List.filter_sublist.trans h.children, List.filter_sublist.trans h.order,
    hmore h.childrenHere, hmore h.orderHere⟩

/-- A reference to another node leaves the lists. -/
theorem unlist (h : Thinned id done ctx ctx') {r : ActorRef N} (hr : r.systemId ≠ id)
    (horder : ∀ d ∈ ctx'.childOrder, d.systemId = id → d.id ≠ r.id) :
    Thinned id done ctx ⟨ctx'.children.erase r, ctx'.childOrder.eraseP fun d => d.id = r.id⟩ where
  children := List.erase_sublist.trans h.children
  order := List.eraseP_sublist.trans h.order
  childrenHere := by
    have hnot : r ∉ ctx'.children.filter (·.systemId = id) := by simp [hr]
    rw [← List.erase_filter, List.erase_of_not_mem hnot, h.childrenHere]
  orderHere := by
    have hdisjoint : ∀ d ∈ ctx'.childOrder, decide (d.id = r.id) = true →
        decide (d.systemId = id) = false := by
      intro d hd hid
      exact decide_eq_false fun hhere => horder d hd hhere (of_decide_eq_true hid)
    rw [filter_eraseP_of_disjoint hdisjoint, h.orderHere]

theorem filter_runsHere {t : Tables N V} (h : Thinned t.id done ctx ctx')
    (hnot : ∀ c ∈ ctx.children, runsHere t c → c.id ∉ done) :
    ctx'.children.filter (runsHere t) = ctx.children.filter (runsHere t) := by
  have hsplit : ∀ cs : List (ActorRef N), cs.filter (runsHere t) =
      (cs.filter (·.systemId = t.id)).filter (·.id ∈ t.actors) := by
    intro cs
    rw [List.filter_filter]
    exact List.filter_congr fun c _ => by simp [runsHere, Bool.and_comm]
  rw [hsplit, h.childrenHere, List.filter_filter, List.filter_filter]
  refine List.filter_congr fun c hc => ?_
  by_cases hhere : runsHere t c
  · obtain ⟨hid, hlive⟩ := runsHere_iff.1 hhere
    simp [hhere, hid, hlive, hnot c hc hhere]
  · have hnone : ¬ (c.systemId = t.id ∧ c.id ∈ t.actors) := fun hboth =>
      hhere (runsHere_iff.2 hboth)
    have hfalse : runsHere t c = false := Bool.eq_false_iff.2 hhere
    rw [hfalse]
    simp only [Bool.and_eq_false_iff, decide_eq_false_iff_not]
    tauto

end Thinned

/-! ## What the stop of a remote child writes -/

theorem context_dropRemoteChild (t : Tables N V) (c p : ActorRef N) (y : ActorId) :
    (t.dropRemoteChild c p).context y = t.context y ∨ (t.dropRemoteChild c p).context y =
      ⟨(t.context y).children.erase c, (t.context y).childOrder.eraseP fun d => d.id = c.id⟩ := by
  unfold Tables.dropRemoteChild
  split_ifs
  · by_cases hy : y = p.id
    · subst hy
      exact .inr (Function.update_self _ _ _)
    · exact .inl (Function.update_of_ne hy _ _)
  · exact .inl rfl

theorem replaced_handleRemoteChildStop (s : Nodes N V) (node : N) (x : ActorId) :
    (s.handleRemoteChildStop node x).replaced = s.replaced := by
  unfold Nodes.handleRemoteChildStop
  rw [stopHosted_eq]
  rfl

theorem notified_handleRemoteChildStop (s : Nodes N V) (node : N) (x : ActorId) :
    ∃ more, (s.handleRemoteChildStop node x).notified = s.notified ++ more ∧
      ∀ r ∈ more, r.1 = x := by
  unfold Nodes.handleRemoteChildStop Nodes.stopHosted Nodes.notifyWatchers
  split_ifs
  · exact ⟨[], (List.append_nil _).symm, nofun⟩
  · exact ⟨[(x, .normal)], rfl, fun r hr => by rw [List.mem_singleton.1 hr]⟩
  · exact ⟨[], (List.append_nil _).symm, nofun⟩

/-- Just these actors have been stopped; outside of `X` no lists have changed. -/
structure Cut (s : Nodes N V) (X : ActorId → Prop) (done : List ActorId) (t : Nodes N V) :
    Prop where
  id : t.id = s.id
  self : t.self = s.self
  nextId : t.nextId = s.nextId
  replaced : t.replaced = s.replaced
  entries : ∀ e ∈ t.remoteChildren, e ∈ s.remoteChildren
  actors : ∀ y, y ∈ t.actors ↔ y ∈ s.actors ∧ y ∉ done
  metadata : ∀ y, t.actorMetadata y = if y ∈ done then none else s.actorMetadata y
  lists : ∀ y ∉ done, Thinned s.id done (s.context y) (t.context y)
  outside : ∀ y, ¬ X y → t.context y = s.context y
  /-- The watchers of the actors have been told one after the other. -/
  told : ∃ told, t.notified = s.notified ++ told ∧
    told.filter (·.1 ∈ s.actors) = done.map (·, .normal)

section
variable {s t : Nodes N V} {X : ActorId → Prop} {done : List ActorId} {q : ActorId}
  {c : ActorRef N}

namespace Cut

theorem nil (s : Nodes N V) (X : ActorId → Prop) : Cut s X [] s :=
  ⟨rfl, rfl, rfl, rfl, fun _ h => h, by simp, by simp, fun y _ => .refl _ _, fun _ _ => rfl,
    [], by simp, rfl⟩

omit [DecidableEq N] in
/-- A reference on a list is on no other, not even under another object. -/
theorem eq_of_listed {tables : Tables N V} (h : Rooted tables) (hc : OnLists tables q c)
    (hlive : c.id ∈ tables.actors) {y : ActorId} {d : ActorRef N} (hd : OnLists tables y d)
    (hid : d.id = c.id) : y = q ∧ d = c := by
  obtain ⟨m, hm⟩ := h.sound.live_spawned _ hlive
  obtain ⟨-, hself, p, hp, hpid⟩ := (hc.childRef h.sound).parent hm
  obtain ⟨-, hself', p', hp', hpid'⟩ := (hd.childRef h.sound).parent (hid ▸ hm)
  rw [hp] at hp'
  cases hp'
  exact ⟨hpid'.symm.trans hpid, by rw [hself, hself', hid]⟩

/-- What has not been stopped has its parent. -/
theorem parentOf (hs : Rooted s.toTables) (h : Cut s X done t) (hc : OnLists s.toTables q c)
    (hhere : c.systemId = s.id) (hlive : c.id ∈ s.actors) (hnew : c.id ∉ done) :
    ∃ p, t.parentOf c.id = some p ∧ p.id = q := by
  obtain ⟨-, p, hp, hid⟩ := hs.own hc hhere hlive
  refine ⟨p, ?_, hid⟩
  rw [← hp, Tables.parentOf, Tables.parentOf, h.metadata, if_neg hnew]

/-- It leaves the lists of its parent, and is on no others. -/
theorem context_detach (hs : Rooted s.toTables) (h : Cut s X done t) (hq : q ∈ s.actors)
    (hc : OnLists s.toTables q c) (hhere : c.systemId = s.id) (hlive : c.id ∈ s.actors)
    (hnew : c.id ∉ done) {y : ActorId} (hy : y ∉ done) :
    (t.detach c).context y = spared [c.id] (t.context y) := by
  obtain ⟨p, hparent, rfl⟩ := h.parentOf hs hc hhere hlive hnew
  have hlists : ∀ d, OnLists t.toTables y d → OnLists s.toTables y d := fun d hd =>
    hd.imp (fun hd => (h.lists y hy).children.subset hd) fun hd => (h.lists y hy).order.subset hd
  unfold Tables.detach
  rw [hparent]
  dsimp only
  by_cases heq : y = p.id
  · subst heq
    have hthin := h.lists p.id hy
    have hsound := (hs.sound.contexts p.id).sublist hthin.children hthin.order
    rw [if_pos ((h.actors p.id).2 ⟨hq, hy⟩)]
    simp only [Tables.unlistChild, Function.update_self]
    exact unlisted_eq_spared hsound fun d hd hid =>
      (eq_of_listed hs hc hlive (hlists d (.inl hd)) hid).2
  · have hsame : spared [c.id] (t.context y) = t.context y := spared_eq_self fun d hd hid =>
      heq (eq_of_listed hs hc hlive (hlists d hd) (List.mem_singleton.1 hid)).1
    rw [hsame]
    split_ifs
    · exact Function.update_of_ne heq _ _
    · rfl

/-- The watchers of what has not been stopped are still to be told. -/
theorem notified_notifyWatchers (hs : Planted (fun _ => False) s) (h : Cut s X done t)
    (hlive : c.id ∈ s.actors) (hnew : c.id ∉ done) :
    (t.notifyWatchers c.id .normal).notified = t.notified ++ [(c.id, .normal)] := by
  obtain ⟨told, htold, hheard⟩ := h.told
  have huntold : ¬ t.notified.any (·.1 = c.id) := by
    intro hany
    obtain ⟨r, hr, heq⟩ := List.any_eq_true.1 hany
    have heq := of_decide_eq_true heq
    rw [htold] at hr
    rcases List.mem_append.1 hr with hr | hr
    · exact hs.untold c.id hlive not_false r hr heq
    · have hmem : r ∈ told.filter (·.1 ∈ s.actors) :=
        List.mem_filter.2 ⟨hr, decide_eq_true (heq ▸ hlive)⟩
      rw [hheard] at hmem
      obtain ⟨y, hy, rfl⟩ := List.mem_map.1 hmem
      exact hnew (heq ▸ hy)
  unfold Nodes.notifyWatchers
  rw [if_neg huntold]

/-- An actor is stopped after its children. -/
theorem terminate (hs : Planted (fun _ => False) s) (h : Cut s X done t) (hX : X q)
    (hq : q ∈ s.actors) (hc : OnLists s.toTables q c) (hhere : c.systemId = s.id)
    (hlive : c.id ∈ s.actors) (hnew : c.id ∉ done) :
    Cut s X (done ++ [c.id]) (t.terminate c) := by
  have hcontext := fun y => h.context_detach (y := y) hs.rooted hq hc hhere hlive hnew
  have hdetach := detach_eq t.toTables c
  obtain ⟨p, hparent, hpq⟩ := h.parentOf hs.rooted hc hhere hlive hnew
  obtain ⟨told, htold, hheard⟩ := h.told
  rw [terminate_eq, h.notified_notifyWatchers hs hlive hnew]
  refine ⟨?_, ?_, ?_, h.replaced, fun e he => ?_, fun y => ?_, fun y => ?_, fun y hy => ?_,
    fun y hy => ?_, told ++ [(c.id, .normal)], ?_, ?_⟩
  · rw [← h.id, hdetach]
    rfl
  · rw [← h.self, hdetach]
    rfl
  · rw [← h.nextId, hdetach]
    rfl
  · change e ∈ (t.detach c).remoteChildren at he
    rw [detach_remoteChildren] at he
    exact h.entries e he
  · change y ∈ (t.detach c).actors.erase c.id ↔ _
    rw [detach_actors, Finset.mem_erase, h.actors, List.mem_append, List.mem_singleton]
    tauto
  · change Function.update (t.detach c).actorMetadata c.id none y = _
    rw [metadata_detach]
    by_cases hy : y = c.id
    · simp [hy]
    · simp [hy, h.metadata y]
  · have hy' : y ∉ done := fun hmem => hy (List.mem_append_left _ hmem)
    change Thinned s.id _ _ ((t.detach c).context y)
    rw [hcontext y hy']
    exact (h.lists y hy').spared c.id
  · change (t.detach c).context y = _
    rw [← h.outside y hy]
    unfold Tables.detach
    rw [hparent]
    dsimp only
    split_ifs
    · refine Function.update_of_ne (fun heq => hy ?_) _ _
      rw [heq, hpq]
      exact hX
    · rfl
  · change t.notified ++ _ = _
    rw [htold, List.append_assoc]
  · rw [List.filter_append, hheard, List.map_append]
    simp [hlive]

/-- A child on another node is stopped, if there is an entry of it. -/
theorem stopRemoteChild (hs : Planted (fun _ => False) s) (h : Cut s X done t) (hX : X q)
    (hc : OnLists s.toTables q c) : Cut s X done (t.stopRemoteChild c.id) := by
  cases he : t.getRemoteChild c.id with
  | none =>
      unfold Nodes.stopRemoteChild
      rw [he]
      exact h
  | some e =>
      obtain ⟨he', hid⟩ := mem_of_getRemoteChild he
      have hentry := hs.rooted.sound.entries e (h.entries e he')
      have hparent : e.parentRef.id = q := hs.rooted.entered q c hc e (h.entries e he') hid
      have hgone : c.id ∉ s.actors := fun hlive =>
        hs.rooted.sound.ne_remote hlive hentry hid.symm
      have hdrop := extends_dropRemoteChild t.toTables e.childRef e.parentRef
      obtain ⟨told, htold, hheard⟩ := h.told
      obtain ⟨more, hmore, habout⟩ := notified_handleRemoteChildStop t e.childNodeId c.id
      rw [stopRemoteChild_eq he]
      refine ⟨hdrop.id.trans h.id, ?_, ?_, ?_, fun e'' he'' => ?_, fun y => ?_, fun y => ?_,
        fun y hy => ?_, fun y hy => ?_, told ++ more, ?_, ?_⟩
      · rw [← h.self]
        unfold Tables.dropRemoteChild
        dsimp only
        split_ifs <;> rfl
      · rw [← h.nextId]
        unfold Tables.dropRemoteChild
        dsimp only
        split_ifs <;> rfl
      · exact (replaced_handleRemoteChildStop t e.childNodeId c.id).trans h.replaced
      · change e'' ∈ (t.dropRemoteChild e.childRef e.parentRef).remoteChildren at he''
        rw [remoteChildren_dropRemoteChild] at he''
        exact h.entries e'' (List.mem_of_mem_filter he'')
      · change y ∈ (t.dropRemoteChild e.childRef e.parentRef).actors ↔ _
        rw [actors_dropRemoteChild]
        exact h.actors y
      · change (t.dropRemoteChild e.childRef e.parentRef).actorMetadata y = _
        rw [metadata_dropRemoteChild]
        exact h.metadata y
      · change Thinned s.id _ _ ((t.dropRemoteChild e.childRef e.parentRef).context y)
        rcases context_dropRemoteChild t.toTables e.childRef e.parentRef y with heq | heq
        · rw [heq]
          exact h.lists y hy
        · rw [heq]
          refine (h.lists y hy).unlist (hentry.node ▸ hentry.elsewhere) fun d hd hhere hid' => ?_
          have hd := (hs.rooted.sound.contexts y).order d ((h.lists y hy).order.subset hd)
          obtain ⟨-, m, -, hm, -⟩ := hd.here hhere
          rw [hid', hentry.spawned] at hm
          cases hm
      · change (t.dropRemoteChild e.childRef e.parentRef).context y = _
        rw [← h.outside y hy]
        unfold Tables.dropRemoteChild
        split_ifs
        · refine Function.update_of_ne (fun heq => hy ?_) _ _
          rw [heq, hparent]
          exact hX
        · rfl
      · change (t.handleRemoteChildStop e.childNodeId c.id).notified = _
        rw [hmore, htold, List.append_assoc]
      · have hnone : more.filter (·.1 ∈ s.actors) = [] :=
          List.filter_eq_nil_iff.2 fun r hr => by simpa [habout r hr] using hgone
        rw [List.filter_append, hheard, hnone, List.append_nil]

end Cut

/-! ## Trees are stopped -/

theorem stopWithin_of_gone (generations : Nat) (h : c.id ∉ t.actors) :
    Nodes.stopWithin generations t c = t := by
  cases generations with
  | zero => rfl
  | succ generations =>
      unfold Nodes.stopWithin
      rw [if_neg h]

/-- The stop of one of the children of `q`. -/
structure Stops (s : Nodes N V) (q : ActorId) (generations : Nat)
    (f : Nodes N V → ActorRef N → Nodes N V) (refs : List (ActorRef N)) : Prop where
  listed : ∀ c ∈ refs, OnLists s.toTables q c
  young : ∀ c ∈ refs, s.nextId - c.id < generations
  stop : ∀ t, t.id = s.id → t.nextId = s.nextId → ∀ c ∈ refs,
    f t c = if c.systemId = t.id then Nodes.stopWithin generations t c else t.stopRemoteChild c.id

variable {generations : Nat} {f : Nodes N V → ActorRef N → Nodes N V} {refs : List (ActorRef N)}

theorem Stops.sublist (h : Stops s q generations f refs) {refs' : List (ActorRef N)}
    (hsub : ∀ c ∈ refs', c ∈ refs) : Stops s q generations f refs' :=
  ⟨fun c hc => h.listed c (hsub c hc), fun c hc => h.young c (hsub c hc),
    fun t hid hnext c hc => h.stop t hid hnext c (hsub c hc)⟩

namespace Cut

/-- Children on other nodes and those that are gone are skipped. -/
theorem skip (hs : Planted (fun _ => False) s) (hX : X q) (hf : Stops s q generations f refs)
    (hnone : ∀ c ∈ refs, ¬ runsHere s.toTables c) (h : Cut s X done t) :
    Cut s X done (refs.foldl f t) := by
  induction refs generalizing t with
  | nil => exact h
  | cons c refs ih =>
      refine ih (hf.sublist fun d hd => List.mem_cons_of_mem c hd)
        (fun d hd => hnone d (List.mem_cons_of_mem c hd)) ?_
      rw [hf.stop t h.id h.nextId c List.mem_cons_self]
      split_ifs with hhere
      · have hgone : c.id ∉ t.actors := fun hlive =>
          hnone c List.mem_cons_self (runsHere_iff.2 ⟨hhere.trans h.id, ((h.actors _).1 hlive).1⟩)
        rwa [stopWithin_of_gone generations hgone]
      · exact h.stopRemoteChild hs hX (hf.listed c List.mem_cons_self)

/-- The trees of some children are stopped, one after the other. -/
theorem foldl (hs : Planted (fun _ => False) s) {xs order : List ActorId}
    (horder : PostOrder (offspring s.toTables) xs order) (hnodup : order.Nodup)
    (hin : ∀ x ∈ order, X x) (hX : X q) (hq : q ∈ s.actors) (hf : Stops s q generations f refs)
    (hxs : (refs.filter (runsHere s.toTables)).map (·.id) = xs) (hnew : ∀ x ∈ order, x ∉ done)
    (h : Cut s X done t) : Cut s X (done ++ order) (refs.foldl f t) := by
  induction horder generalizing t done q generations f refs with
  | nil =>
      rw [List.append_nil]
      refine h.skip hs hX hf fun c hc hhere => ?_
      rw [List.map_eq_nil_iff, List.filter_eq_nil_iff] at hxs
      exact hxs c hc hhere
  | @cons x xs below rest hbelow hrest ihbelow ihrest =>
      obtain ⟨c, cs, hsplit, rfl, rfl⟩ := List.map_eq_cons_iff.1 hxs
      obtain ⟨us, vs, rfl, hus, hhere, rfl⟩ := List.filter_eq_cons_iff.1 hsplit
      obtain ⟨hhere, hlive⟩ := runsHere_iff.1 hhere
      have hmem : c ∈ us ++ c :: vs := List.mem_append_right _ List.mem_cons_self
      have hlisted := hf.listed c hmem
      have hXc : X c.id := hin c.id (by simp)
      obtain ⟨hnodupbelow, hnoduprest, hapart⟩ := List.nodup_append.1 hnodup
      -- what comes before it does not run here
      have hbefore : Cut s X done (us.foldl f t) :=
        h.skip hs hX (hf.sublist fun d hd => List.mem_append_left _ hd) hus
      have hcnew : c.id ∉ done := hnew c.id (by simp)
      have hclive : c.id ∈ (us.foldl f t).actors := (hbefore.actors _).2 ⟨hlive, hcnew⟩
      have hyoung := hf.young c hmem
      obtain ⟨older, rfl⟩ := Nat.exists_eq_add_one_of_ne_zero
        (Nat.ne_of_gt (Nat.zero_lt_of_lt hyoung))
      have hchildren : Cut s X (done ++ below) (((us.foldl f t).context c.id).children.foldl
          (fun t d => if d.systemId = t.id then Nodes.stopWithin older t d
            else t.stopRemoteChild d.id) (us.foldl f t)) := by
        have hthin := hbefore.lists c.id hcnew
        refine ihbelow hnodupbelow (fun x hx => hin x (List.mem_append_left _ hx)) hXc hlive
          ⟨fun d hd => .inl (hthin.children.subset hd), fun d hd => ?_, fun _ _ _ _ _ => rfl⟩ ?_
          (fun x hx => hnew x (List.mem_append_left _ hx)) hbefore
        · have hd : OnLists s.toTables c.id d := .inl (hthin.children.subset hd)
          have hless := hs.rooted.older c.id d hd
          have hlt := (OnLists.childRef hs.rooted.sound hd).lt
          exact Nat.lt_of_lt_of_le (Nat.sub_lt_sub_left (Nat.lt_trans hless hlt) hless)
            (Nat.le_of_lt_succ hyoung)
        · rw [hthin.filter_runsHere fun d hd hhere => hnew d.id ?_, offspring]
          exact List.mem_append_left _ (hbelow.roots.subset
            (List.mem_map_of_mem (List.mem_filter.2 ⟨hd, hhere⟩)))
      -- it is stopped last
      have hself := hchildren.terminate hs hX hq hlisted hhere hlive fun hin =>
        (List.mem_append.1 hin).elim hcnew fun hin => hapart c.id hin c.id List.mem_cons_self rfl
      have hstopped : f (us.foldl f t) c = (((us.foldl f t).context c.id).children.foldl
          (fun t d => if d.systemId = t.id then Nodes.stopWithin older t d
            else t.stopRemoteChild d.id) (us.foldl f t)).terminate c := by
        rw [hf.stop _ hbefore.id hbefore.nextId c hmem, if_pos (hhere.trans hbefore.id.symm)]
        rw [Nodes.stopWithin, if_pos hclive]
      have hrest := ihrest hnoduprest.of_cons (fun x hx => hin x (by simp [hx])) hX hq
        (hf.sublist fun d hd => List.mem_append_right _ (List.mem_cons_of_mem c hd)) rfl
        (fun x hx hin => ?_) hself
      · rw [List.foldl_append, List.foldl_cons, hstopped]
        simpa using hrest
      · rcases List.mem_append.1 hin with hin | hin
        · rcases List.mem_append.1 hin with hin | hin
          · exact hnew x (by simp [hx]) hin
          · exact hapart x hin x (List.mem_cons_of_mem _ hx) rfl
        · rw [List.mem_singleton] at hin
          exact (List.nodup_cons.1 hnoduprest).1 (hin ▸ hx)

end Cut

end

/-! ## Children are started again -/

/-- Where the children are started again, from the first id on. -/
def refsFrom (id : N) (items : List (ActorRef N × ActorMetadata N V)) (first : ActorId) :
    List (ActorRef N) :=
  (items.zipIdx first).map fun i => ⟨id, i.2, i.1.2.options.name, 0⟩

/-- The children have been started one after the other, with the next ids. -/
structure Started (t : Nodes N V) (p : ActorRef N) (items : List (ActorRef N × ActorMetadata N V))
    (t' : Nodes N V) : Prop where
  id : t'.id = t.id
  notified : t'.notified = t.notified
  nextId : t'.nextId = t.nextId + items.length
  actors : ∀ y, y ∈ t'.actors ↔ y ∈ t.actors ∨ t.nextId ≤ y ∧ y < t.nextId + items.length
  self : ∀ y < t.nextId, t'.self y = t.self y
  metadata : ∀ y < t.nextId, t'.actorMetadata y = t.actorMetadata y
  outside : ∀ y < t.nextId, y ≠ p.id → t'.context y = t.context y
  context : t'.context p.id =
    ⟨(t.context p.id).children ++ refsFrom t.id items t.nextId,
      (t.context p.id).childOrder ++ refsFrom t.id items t.nextId⟩
  fresh : ∀ i ∈ items.zipIdx t.nextId,
    t'.self i.2 = ⟨t.id, i.2, i.1.2.options.name, 0⟩ ∧ t'.context i.2 = ⟨[], []⟩ ∧
      t'.actorMetadata i.2 = some ⟨i.1.2.actorClass, i.1.2.options, some p⟩
  replaced : t'.replaced = t.replaced ++ (items.zipIdx t.nextId).map fun i => (i.1.1.id, i.2)

namespace Started

variable {t t' t'' : Nodes N V} {p : ActorRef N}

section
omit [DecidableEq N]

theorem nil (t : Nodes N V) (p : ActorRef N) : Started t p [] t :=
  ⟨rfl, rfl, rfl, fun y => by simp, fun _ _ => rfl, fun _ _ => rfl, fun _ _ _ => rfl,
    by simp [refsFrom], nofun, by simp⟩

theorem single (hp : p.id ∈ t.actors) (hlt : p.id < t.nextId) (c : ActorRef N)
    (m : ActorMetadata N V) :
    Started t p [(c, m)] (t.spawnChild p m.actorClass m.options (some c.id)) := by
  rw [spawnChild_eq hp]
  refine ⟨rfl, rfl, rfl, fun y => ?_, fun y hy => Function.update_of_ne (Nat.ne_of_lt hy) _ _,
    fun y hy => Function.update_of_ne (Nat.ne_of_lt hy) _ _, fun y hy hne => ?_, ?_, ?_, rfl⟩
  · change y ∈ insert t.nextId t.actors ↔ _
    rw [Finset.mem_insert, List.length_singleton, or_comm]
    have hone : t.nextId ≤ y ∧ y < t.nextId + 1 ↔ y = t.nextId := by
      rw [Nat.lt_succ_iff, and_comm, ← Nat.le_antisymm_iff]
    rw [hone]
  · exact (Function.update_of_ne hne _ _).trans (Function.update_of_ne (Nat.ne_of_lt hy) _ _)
  · refine (Function.update_self _ _ _).trans ?_
    rw [context_register_of_lt hlt]
    rfl
  · rintro i hi
    rw [List.zipIdx_singleton, List.mem_singleton] at hi
    subst hi
    exact ⟨Function.update_self _ _ _, (Function.update_of_ne (Nat.ne_of_gt hlt) _ _).trans
      (Function.update_self _ _ _), Function.update_self _ _ _⟩

theorem append {items items' : List (ActorRef N × ActorMetadata N V)} (hlt : p.id < t.nextId)
    (h : Started t p items t') (k : Started t' p items' t'') :
    Started t p (items ++ items') t'' := by
  have hlt' : ∀ {y}, y < t.nextId → y < t'.nextId := fun hy =>
    Nat.lt_of_lt_of_le hy (h.nextId ▸ Nat.le_add_right _ _)
  have hrefs : refsFrom t.id (items ++ items') t.nextId =
      refsFrom t.id items t.nextId ++ refsFrom t'.id items' t'.nextId := by
    unfold refsFrom
    rw [List.zipIdx_append, List.map_append, h.id, h.nextId]
  refine ⟨k.id.trans h.id, k.notified.trans h.notified, ?_, fun y => ?_,
    fun y hy => (k.self y (hlt' hy)).trans (h.self y hy),
    fun y hy => (k.metadata y (hlt' hy)).trans (h.metadata y hy),
    fun y hy hne => (k.outside y (hlt' hy) hne).trans (h.outside y hy hne), ?_, fun i hi => ?_, ?_⟩
  · rw [k.nextId, h.nextId, List.length_append, Nat.add_assoc]
  · have hrange : ∀ n a b y : Nat, (n ≤ y ∧ y < n + a) ∨ (n + a ≤ y ∧ y < n + a + b) ↔
        n ≤ y ∧ y < n + (a + b) := by omega
    rw [k.actors, h.actors, h.nextId, List.length_append, or_assoc, hrange]
  · rw [k.context, h.context, hrefs, List.append_assoc, List.append_assoc]
  · rw [List.zipIdx_append] at hi
    rcases List.mem_append.1 hi with hi | hi
    · have hle := List.le_snd_of_mem_zipIdx hi
      have hbound : i.2 < t'.nextId := by
        rw [h.nextId]
        exact List.snd_lt_add_of_mem_zipIdx hi
      obtain ⟨hself, hcontext, hmetadata⟩ := h.fresh i hi
      exact ⟨(k.self _ hbound).trans hself, (k.outside _ hbound
        (Nat.ne_of_gt (Nat.lt_of_lt_of_le hlt hle))).trans hcontext,
        (k.metadata _ hbound).trans hmetadata⟩
    · rw [← h.nextId] at hi
      rw [← h.id]
      exact k.fresh i hi
  · rw [k.replaced, h.replaced, List.zipIdx_append, List.map_append, h.nextId, List.append_assoc]

end

theorem foldl (hp : p.id ∈ t.actors) (hlt : p.id < t.nextId)
    (items : List (ActorRef N × ActorMetadata N V)) :
    Started t p items
      ((items.map fun i => Planned.onNode i.1.id i.2).foldl (Nodes.startPlanned p) t) := by
  induction items generalizing t with
  | nil => exact .nil t p
  | cons i items ih =>
      have hfirst := single hp hlt i.1 i.2
      have hnext : p.id < (t.spawnChild p i.2.actorClass i.2.options (some i.1.id)).nextId := by
        rw [hfirst.nextId]
        exact Nat.lt_of_lt_of_le hlt (Nat.le_add_right _ _)
      exact hfirst.append hlt (ih ((hfirst.actors _).2 (.inl hp)) hnext)

end Started

/-! ## Some of the children of one parent -/

section
variable {s : Nodes N V} {p : ActorId} {before scope : List (ActorRef N)}

/-- Where each of the children is started from. -/
def startedFrom (s : Nodes N V) (c : ActorRef N) : Option (String × SpawnOptions V) :=
  (s.actorMetadata c.id).map fun m => (m.actorClass, m.options)

/-- A live parent whose children all run here, from one of them on. -/
structure Scope (s : Nodes N V) (p : ActorId) (before scope : List (ActorRef N)) : Prop where
  planted : Planted (fun _ => False) s
  live : p ∈ s.actors
  here : ∀ c ∈ (s.context p).childOrder, c.systemId = s.id
  split : (s.context p).childOrder = before ++ scope

namespace Scope

omit [DecidableEq N] in
theorem child (h : Scope s p before scope) {c : ActorRef N} (hc : c ∈ before ++ scope) :
    c.id ∈ s.actors ∧ Parent s.toTables p c.id := by
  rw [← h.split] at hc
  have hlive := h.planted.rooted.ordered p h.live c hc (h.here c hc)
  exact ⟨hlive, (h.planted.rooted.own (.inr hc) (h.here c hc) hlive).2⟩

omit [DecidableEq N] in
theorem nodup (h : Scope s p before scope) : ((before ++ scope).map (·.id)).Nodup :=
  h.split ▸ (h.planted.rooted.sound.contexts p).order_nodup

/-- The order in which the trees are stopped. -/
theorem order (h : Scope s p before scope) : ∃ order : List ActorId,
    PostOrder (offspring s.toTables) (scope.reverse.map (·.id)) order ∧ order.Nodup ∧
      ∀ y, y ∈ order ↔ ∃ c ∈ scope, Descends s.toTables c.id y := by
  have hrooted := h.planted.rooted
  obtain ⟨order, horder⟩ := exists_postOrder (fun x => s.nextId - x) (offspring_rank hrooted)
    (scope.reverse.map (·.id))
  have hchild : ∀ x ∈ scope.reverse.map (·.id), Parent s.toTables p x := by
    intro x hx
    obtain ⟨c, hc, rfl⟩ := List.mem_map.1 hx
    exact (h.child (List.mem_append_right _ (List.mem_reverse.1 hc))).2
  have hnodup : (scope.reverse.map (·.id)).Nodup := by
    rw [List.map_reverse, List.nodup_reverse]
    exact h.nodup.sublist ((List.sublist_append_right _ _).map _)
  refine ⟨order, horder, horder.nodup _ (offspring_rank hrooted) (offspring_unique hrooted)
    (offspring_nodup hrooted) hnodup fun x hx y hy hxy => ?_, fun y => ?_⟩
  · rw [below_eq_descends hrooted] at hxy
    exact eq_of_descends hrooted (hchild x hx) (hchild y hy) hxy
  · rw [horder.mem_iff, below_eq_descends hrooted]
    constructor
    · rintro ⟨x, hx, hxy⟩
      obtain ⟨c, hc, rfl⟩ := List.mem_map.1 hx
      exact ⟨c, List.mem_reverse.1 hc, hxy⟩
    · rintro ⟨c, hc, hxy⟩
      exact ⟨c.id, List.mem_map_of_mem (List.mem_reverse.2 hc), hxy⟩

/-- The parent and the children before are in none of the trees. -/
theorem not_descends (h : Scope s p before scope) :
    (¬ ∃ c ∈ scope, Descends s.toTables c.id p) ∧
      ∀ b ∈ before, ¬ ∃ c ∈ scope, Descends s.toTables c.id b.id := by
  have hrooted := h.planted.rooted
  refine ⟨?_, fun b hb => ?_⟩
  · rintro ⟨c, hc, hcp⟩
    exact not_descends_parent hrooted (h.child (List.mem_append_right _ hc)).2 hcp
  · rintro ⟨c, hc, hcb⟩
    have heq := eq_of_descends hrooted (h.child (List.mem_append_right _ hc)).2
      (h.child (List.mem_append_left _ hb)).2 hcb
    have hnodup := h.nodup
    rw [List.map_append, List.nodup_append] at hnodup
    exact hnodup.2.2 b.id (List.mem_map_of_mem hb) c.id (List.mem_map_of_mem hc) heq.symm

/-- Of the children of the parent just those in scope are stopped, the youngest first. -/
theorem order_filter (h : Scope s p before scope) {order : List ActorId}
    (horder : PostOrder (offspring s.toTables) (scope.reverse.map (·.id)) order)
    (hnodup : order.Nodup)
    (hmem : ∀ y, y ∈ order ↔ ∃ c ∈ scope, Descends s.toTables c.id y) :
    order.filter (· ∈ (before ++ scope).map (·.id)) = scope.reverse.map (·.id) := by
  have hkept : (scope.reverse.map (·.id)).filter (· ∈ (before ++ scope).map (·.id)) =
      scope.reverse.map (·.id) := by
    refine List.filter_eq_self.2 fun x hx => ?_
    obtain ⟨c, hc, rfl⟩ := List.mem_map.1 hx
    exact decide_eq_true (List.mem_map_of_mem
      (List.mem_append_right _ (List.mem_reverse.1 hc)))
  have hsub := horder.roots.filter (· ∈ (before ++ scope).map (·.id))
  rw [hkept] at hsub
  refine (hsub.eq_of_length_le ?_).symm
  refine (List.subperm_of_subset (hnodup.filter _) fun x hx => ?_).length_le
  obtain ⟨hx, hchild⟩ := List.mem_filter.1 hx
  obtain ⟨d, hd, rfl⟩ := List.mem_map.1 (of_decide_eq_true hchild)
  obtain ⟨c, hc, hcd⟩ := (hmem d.id).1 hx
  have heq := eq_of_descends h.planted.rooted (h.child (List.mem_append_right _ hc)).2
    (h.child hd).2 hcd
  rw [← heq]
  exact List.mem_map_of_mem (List.mem_reverse.2 hc)

/-- The stops of the children, the youngest first. -/
theorem cut (h : Scope s p before scope) {order : List ActorId}
    (horder : PostOrder (offspring s.toTables) (scope.reverse.map (·.id)) order)
    (hnodup : order.Nodup) :
    Cut s (fun y => y = p ∨ y ∈ order) order (scope.reverse.foldl Nodes.stop s) := by
  have hmem : ∀ c ∈ scope.reverse, c ∈ (s.context p).childOrder := fun c hc => by
    rw [h.split]
    exact List.mem_append_right _ (List.mem_reverse.1 hc)
  have hall : scope.reverse.filter (runsHere s.toTables) = scope.reverse :=
    List.filter_eq_self.2 fun c hc => runsHere_iff.2 ⟨h.here c (hmem c hc),
      (h.child (List.mem_append_right _ (List.mem_reverse.1 hc))).1⟩
  have hstops : Stops s p (s.nextId + 1) Nodes.stop scope.reverse := by
    refine ⟨fun c hc => .inr (hmem c hc), fun c _ => Nat.lt_succ_of_le (Nat.sub_le _ _),
      fun t hid hnext c hc => ?_⟩
    rw [if_pos ((h.here c (hmem c hc)).trans hid.symm), Nodes.stop, hnext]
  exact Cut.foldl h.planted horder hnodup (fun x hx => .inr hx) (.inl rfl) h.live hstops
    (by rw [hall]) (fun _ _ => List.not_mem_nil) (.nil s _)

omit [DecidableEq N] in
/-- What the plan has for each child. -/
theorem items (h : Scope s p before scope) : ∃ items : List (ActorRef N × ActorMetadata N V),
    items.map (·.1) = scope ∧ (∀ i ∈ items, s.actorMetadata i.1.id = some i.2) ∧
      s.plannedOnNode scope = items.map fun i => .onNode i.1.id i.2 := by
  have hlive : ∀ c ∈ scope, ∃ m, s.actorMetadata c.id = some m := by
    intro c hc
    obtain ⟨hlive, -⟩ := h.child (List.mem_append_right _ hc)
    rw [h.planted.rooted.sound.metadata_of_live hlive]
    exact h.planted.rooted.sound.live_spawned c.id hlive
  clear h
  induction scope with
  | nil => exact ⟨[], rfl, nofun, rfl⟩
  | cons c scope ih =>
      obtain ⟨m, hm⟩ := hlive c List.mem_cons_self
      obtain ⟨items, hrefs, hmetadata, hplan⟩ := ih fun d hd =>
        hlive d (List.mem_cons_of_mem c hd)
      refine ⟨(c, m) :: items, by rw [List.map_cons, hrefs], ?_, ?_⟩
      · intro i hi
        rcases List.mem_cons.1 hi with rfl | hi
        · exact hm
        · exact hmetadata i hi
      · unfold Tables.plannedOnNode at hplan ⊢
        rw [List.filterMap_cons, hm, List.map_cons, ← hplan]
        rfl

end Scope

/-- The actor is in the tree of one of the children. -/
def InTrees (s : Nodes N V) (scope : List (ActorRef N)) (y : ActorId) : Prop :=
  ∃ c ∈ scope, Descends s.toTables c.id y

/-- Just the children in scope have been stopped, the youngest first, and started again, the
oldest first; `zipIdx` pairs them with the ids of their new instances. -/
structure Restarted (s : Nodes N V) (p : ActorId) (before scope : List (ActorRef N))
    (s' : Nodes N V) : Prop where
  /-- The stops that the watchers of the children of the parent have been told of. -/
  stopped : ∃ told, s'.notified = s.notified ++ told ∧
    told.filter (·.1 ∈ (s.context p).childOrder.map (·.id)) =
      scope.reverse.map fun c => (c.id, .normal)
  gone : ∀ y ∈ s.actors, y ∈ s'.actors ↔ ¬ InTrees s scope y
  new : ∀ y ∉ s.actors, y ∈ s'.actors ↔ ∃ c, (c, y) ∈ scope.zipIdx s.nextId
  /-- All other actors are as they were, the parent but for its lists. -/
  untouched : ∀ y ∈ s.actors, ¬ InTrees s scope y → s'.self y = s.self y ∧
    s'.actorMetadata y = s.actorMetadata y ∧ (y ≠ p → s'.context y = s.context y) ∧
    ∀ r ∈ s'.notified, r.1 ≠ y
  /-- Each child has been started once, from its own class and options. -/
  replaced : s'.replaced = s.replaced ++ (scope.zipIdx s.nextId).map fun i => (i.1.id, i.2)
  started : ∀ i ∈ scope.zipIdx s.nextId, startedFrom s' (s'.self i.2) = startedFrom s i.1 ∧
    (s'.self i.2).id = i.2 ∧ s'.parentOf i.2 = some (s.self p) ∧ s'.context i.2 = ⟨[], []⟩
  childOrder : (s'.context p).childOrder =
    before ++ (scope.zipIdx s.nextId).map fun i => s'.self i.2
  sameClasses : (s'.context p).childOrder.map (startedFrom s') =
    (s.context p).childOrder.map (startedFrom s)

/-- Between the stops and the starts only the children before are on the list. -/
theorem Cut.childOrder {order : List ActorId} {t : Nodes N V} {X : ActorId → Prop}
    (h : Scope s p before scope) (hcut : Cut s X order t)
    (hmem : ∀ y, y ∈ order ↔ InTrees s scope y) : (t.context p).childOrder = before := by
  obtain ⟨hparent, hbefore⟩ := h.not_descends
  have hthin := hcut.lists p fun hp => hparent ((hmem p).1 hp)
  have hhere := h.here
  rw [h.split] at hhere
  have hall : ∀ {cs : List (ActorRef N)}, (∀ c ∈ cs, c ∈ before ++ scope) →
      cs.filter (·.systemId = s.id) = cs := fun hcs =>
    List.filter_eq_self.2 fun c hc => decide_eq_true (hhere c (hcs c hc))
  have hsub : ∀ c ∈ (t.context p).childOrder, c ∈ before ++ scope := fun c hc =>
    h.split ▸ hthin.order.subset hc
  have heq := hthin.orderHere
  rw [hall hsub, h.split, hall fun c hc => hc, List.filter_append] at heq
  have hstays : before.filter (·.id ∉ order) = before := List.filter_eq_self.2 fun c hc =>
    decide_eq_true fun hin => hbefore c hc ((hmem c.id).1 hin)
  have hgoes : scope.filter (·.id ∉ order) = [] := List.filter_eq_nil_iff.2 fun c hc => by
    simpa using (hmem c.id).2 ⟨c, hc, .refl⟩
  rw [heq, hstays, hgoes, List.append_nil]

/-- What the stops leave and what the starts add, put together. -/
theorem Scope.restarted (h : Scope s p before scope) {order : List ActorId} {t s' : Nodes N V}
    {items : List (ActorRef N × ActorMetadata N V)}
    (hcut : Cut s (fun y => y = p ∨ y ∈ order) order t) (hmem : ∀ y, y ∈ order ↔ InTrees s scope y)
    (hfilter : order.filter (· ∈ (before ++ scope).map (·.id)) = scope.reverse.map (·.id))
    (hrefs : items.map (·.1) = scope) (hmetadata : ∀ i ∈ items, s.actorMetadata i.1.id = some i.2)
    (hstarted : Started t (s.self p) items s') (hplanted : Planted (fun _ => False) s') :
    Restarted s p before scope s' := by
  have hsound := h.planted.rooted.sound
  obtain ⟨hparent, hbefore⟩ := h.not_descends
  have hself : (s.self p).id = p := by
    obtain ⟨m, hm⟩ := hsound.live_spawned p h.live
    exact (hsound.self p m hm).2
  have hlength : scope.length = items.length := by rw [← hrefs, List.length_map]
  have hzip : scope.zipIdx s.nextId = (items.zipIdx t.nextId).map fun i => (i.1.1, i.2) := by
    rw [hcut.nextId, ← hrefs, List.zipIdx_map]
    rfl
  have hlt : ∀ {y}, y ∈ s.actors → y < t.nextId := fun hy => by
    rw [hcut.nextId]
    exact hsound.lt_of_live hy
  have hstays : ∀ y ∈ s.actors, ¬ InTrees s scope y → s'.actorMetadata y = s.actorMetadata y := by
    intro y hy hnot
    rw [hstarted.metadata y (hlt hy), hcut.metadata, if_neg fun hin => hnot ((hmem y).1 hin)]
  have hgone : ∀ y ∈ s.actors, y ∈ s'.actors ↔ ¬ InTrees s scope y := by
    intro y hy
    rw [hstarted.actors, hcut.actors, hmem]
    have hold := hlt hy
    constructor
    · rintro (⟨-, hnot⟩ | ⟨hle, -⟩)
      · exact hnot
      · exact absurd hold (Nat.not_lt_of_le hle)
    · exact fun hnot => .inl ⟨hy, hnot⟩
  -- a new instance is started from the class and the options of the old one
  have hnew : ∀ i ∈ items.zipIdx t.nextId, startedFrom s' (s'.self i.2) = startedFrom s i.1.1 ∧
      (s'.self i.2).id = i.2 ∧ s'.parentOf i.2 = some (s.self p) ∧ s'.context i.2 = ⟨[], []⟩ := by
    intro i hi
    obtain ⟨href, hcontext, hm⟩ := hstarted.fresh i hi
    refine ⟨?_, by rw [href], ?_, hcontext⟩
    · have hold := hmetadata i.1 (List.fst_mem_of_mem_zipIdx hi)
      unfold startedFrom
      rw [href, hm, hold]
      rfl
    · unfold Tables.parentOf
      rw [hm]
      rfl
  have hchildOrder : (s'.context p).childOrder =
      before ++ (scope.zipIdx s.nextId).map fun i => s'.self i.2 := by
    have hcontext := hstarted.context
    rw [hself] at hcontext
    rw [hcontext, hcut.childOrder h hmem, hzip, List.map_map]
    refine congrArg _ (List.map_congr_left fun i hi => ?_)
    exact (hstarted.fresh i hi).1.symm
  refine ⟨?_, hgone, fun y hy => ?_, fun y hy hnot => ⟨?_, hstays y hy hnot, fun hne => ?_,
    hplanted.untold y ((hgone y hy).2 hnot) not_false⟩, ?_, fun i hi => ?_, hchildOrder, ?_⟩
  · obtain ⟨told, htold, hheard⟩ := hcut.told
    refine ⟨told, hstarted.notified.trans htold, ?_⟩
    have hchildren : told.filter (·.1 ∈ (before ++ scope).map (·.id)) =
        (told.filter (·.1 ∈ s.actors)).filter (·.1 ∈ (before ++ scope).map (·.id)) := by
      rw [List.filter_filter]
      refine List.filter_congr fun r _ => ?_
      by_cases hr : r.1 ∈ (before ++ scope).map (·.id)
      · obtain ⟨c, hc, hid⟩ := List.mem_map.1 hr
        have hlive : r.1 ∈ s.actors := hid ▸ (h.child hc).1
        simp [hlive]
      · rw [decide_eq_false hr, Bool.false_and]
    have hids : (order.map fun y => (y, TerminationReason.normal)).filter
        (·.1 ∈ (before ++ scope).map (·.id)) =
          (order.filter (· ∈ (before ++ scope).map (·.id))).map (·, .normal) := List.filter_map
    rw [h.split, hchildren, hheard, hids, hfilter, List.map_map]
    rfl
  · have hold : y ∉ t.actors := fun hlive => hy ((hcut.actors y).1 hlive).1
    have hexists : (∃ c, (c, y) ∈ scope.zipIdx s.nextId) ↔
        y ∈ (scope.zipIdx s.nextId).map Prod.snd := by
      rw [List.mem_map, Prod.exists]
      simp only [exists_eq_right]
    rw [hexists, List.zipIdx_map_snd, List.mem_range'_1, hstarted.actors, hcut.nextId, hlength]
    exact or_iff_right hold
  · rw [hstarted.self y (hlt hy), hcut.self]
  · rw [hstarted.outside y (hlt hy) (hself.symm ▸ hne)]
    exact hcut.outside y (not_or.2 ⟨hne, fun hin => hnot ((hmem y).1 hin)⟩)
  · rw [hstarted.replaced, hcut.replaced, hzip, List.map_map]
    rfl
  · rw [hzip] at hi
    obtain ⟨j, hj, rfl⟩ := List.mem_map.1 hi
    exact hnew j hj
  · rw [hchildOrder, h.split, List.map_append, List.map_append, List.map_map]
    refine congrArg₂ _ (List.map_congr_left fun c hc => ?_) ?_
    · unfold startedFrom
      rw [hstays c.id (h.child (List.mem_append_left _ hc)).1 (hbefore c hc)]
    · calc (scope.zipIdx s.nextId).map (startedFrom s' ∘ fun i => s'.self i.2)
          = (scope.zipIdx s.nextId).map (startedFrom s ∘ Prod.fst) := by
            refine List.map_congr_left fun i hi => ?_
            rw [hzip] at hi
            obtain ⟨j, hj, rfl⟩ := List.mem_map.1 hi
            exact (hnew j hj).1
        _ = scope.map (startedFrom s) := by rw [← List.map_map, List.zipIdx_map_fst]

theorem restartGroup_restarted (h : Scope s p before scope) :
    Restarted s p before scope (s.restartGroup p Nodes.stop scope (s.plannedOnNode scope)) := by
  have hsound := h.planted.rooted.sound
  obtain ⟨order, horder, hnodup, hmem⟩ := h.order
  obtain ⟨items, hrefs, hmetadata, hplan⟩ := h.items
  have hcut := h.cut horder hnodup
  have hself : (s.self p).id = p := by
    obtain ⟨m, hm⟩ := hsound.live_spawned p h.live
    exact (hsound.self p m hm).2
  have hplanted : Grows (fun _ => False) s
      (s.restartGroup p Nodes.stop scope (s.plannedOnNode scope)) :=
    h.planted.restartGroup (fun t ht c => ht.stop c) fun item hitem => by
      obtain ⟨c, hc, heq⟩ := List.mem_filterMap.1 hitem
      exact h.planted.soundPlanned h.live (h.split ▸ List.mem_append_right _ hc) (.inl heq)
  refine h.restarted hcut hmem (h.order_filter horder hnodup hmem) hrefs hmetadata ?_
    hplanted.planted
  unfold Nodes.restartGroup
  rw [hplan]
  refine Started.foldl ?_ ?_ items
  · rw [hself]
    exact (hcut.actors p).2 ⟨h.live, fun hp => h.not_descends.1 ((hmem p).1 hp)⟩
  · rw [hself, hcut.nextId]
    exact hsound.lt_of_live h.live

/-! ## The crash of a child -/

omit [DecidableEq N] in
/-- The crashed child among the children of its parent. -/
theorem exists_split (h : Rooted s.toTables) {x : ActorId} {parentRef : ActorRef N}
    (hparent : s.parentOf x = some parentRef) : ∃ before crashed after,
      (s.context parentRef.id).childOrder = before ++ crashed :: after ∧ crashed.id = x ∧
        s.fromCrashed parentRef.id x = crashed :: after := by
  obtain ⟨-, m, hm, -⟩ := h.sound.live_of_parentOf hparent
  have hid := (h.sound.self x m hm).2
  obtain ⟨before, after, hsplit⟩ := List.append_of_mem (h.listed hparent).2
  refine ⟨before, s.self x, after, hsplit, hid, ?_⟩
  have hnodup := (h.sound.contexts parentRef.id).order_nodup
  rw [hsplit, List.map_append, List.nodup_append] at hnodup
  have hbefore : ∀ c ∈ before, decide (c.id ≠ x) = true := fun c hc => decide_eq_true fun heq =>
    hnodup.2.2 c.id (List.mem_map_of_mem hc) x (by simp [hid]) heq
  unfold Tables.fromCrashed
  rw [hsplit, List.dropWhile_append_of_pos hbefore, List.dropWhile_cons_of_neg (by simp [hid])]

variable {stringify : List V → String}

theorem handleChildCrash_granted {childRef parentRef : ActorRef N} {actorClass : String}
    {options : SpawnOptions V} {now : Nat} {t : Nodes N V}
    (hmetadata : s.actorMetadata childRef.id = some ⟨actorClass, options, some parentRef⟩)
    (hparent : parentRef.id ∈ s.actors)
    (ht : s.canRestart (getRestartKey stringify childRef.id parentRef.id (some options))
      (s.childSupervision parentRef.id) now = (t, true)) :
    s.handleChildCrash stringify childRef now =
      match (s.childSupervision parentRef.id).strategy with
      | .oneForOne => t.handleOneForOne childRef
      | .oneForAll => t.handleOneForAll parentRef.id
      | .restForOne => t.handleRestForOne parentRef.id childRef.id := by
  unfold Nodes.handleChildCrash
  rw [hmetadata]
  dsimp only
  rw [if_pos hparent, ht]
  exact if_pos rfl

omit [DecidableEq N] in
/-- To count a restart changes nothing that a strategy looks at. -/
theorem Restarted.of_counted {key : String} {options : ChildSupervisionOptions} {now : Nat}
    {s' : Nodes N V} (h : Restarted (s.canRestart key options now).1 p before scope s') :
    Restarted s p before scope s' :=
  ⟨h.stopped, h.gone, h.new, h.untouched, h.replaced, h.started, h.childOrder, h.sameClasses⟩

/-- After any operations on the node, the crash of a child within its budget, with the
children of its parent all on the node, restarts all of them or those from the crashed one
on, and leaves everything else as it is. -/
theorem handleChildCrash_restarts (id : N)
    (childSupervision : ActorId → ChildSupervisionOptions) (os : List (Nodes.Operation N V))
    (hs : s = os.foldl (Nodes.perform stringify) (.init id childSupervision))
    (childRef parentRef : ActorRef N) (now : Nat) {actorClass : String} {options : SpawnOptions V}
    (hmetadata : s.actorMetadata childRef.id = some ⟨actorClass, options, some parentRef⟩)
    (hparent : parentRef.id ∈ s.actors)
    (hhere : ∀ c ∈ (s.context parentRef.id).childOrder, c.systemId = s.id)
    (hbudget : (s.canRestart (getRestartKey stringify childRef.id parentRef.id (some options))
      (s.childSupervision parentRef.id) now).2 = true) :
    ∃ before crashed after,
      (s.context parentRef.id).childOrder = before ++ crashed :: after ∧
      crashed.id = childRef.id ∧
      ((s.childSupervision parentRef.id).strategy = .oneForAll →
        Restarted s parentRef.id [] (before ++ crashed :: after)
          (s.handleChildCrash stringify childRef now)) ∧
      ((s.childSupervision parentRef.id).strategy = .restForOne →
        Restarted s parentRef.id before (crashed :: after)
          (s.handleChildCrash stringify childRef now)) := by
  have hplanted : Planted (fun _ => False) s := hs ▸ planted stringify id childSupervision os
  have hfound : s.parentOf childRef.id = some parentRef := by
    unfold Tables.parentOf
    rw [hmetadata]
    rfl
  obtain ⟨before, crashed, after, hsplit, hid, hfrom⟩ := exists_split hplanted.rooted hfound
  -- the restart has been counted, which changes none of the tables
  have hcounted := (hplanted.canRestart (getRestartKey stringify childRef.id parentRef.id
    (some options)) (s.childSupervision parentRef.id) now).planted
  have hhandled := handleChildCrash_granted hmetadata hparent (Prod.ext rfl hbudget)
  refine ⟨before, crashed, after, hsplit, hid, fun hstrategy => ?_, fun hstrategy => ?_⟩
  · have hscope : Scope (s.canRestart (getRestartKey stringify childRef.id parentRef.id
        (some options)) (s.childSupervision parentRef.id) now).1 parentRef.id []
        (before ++ crashed :: after) := ⟨hcounted, hparent, hhere, hsplit⟩
    have hrestarted := restartGroup_restarted hscope
    rw [← hsplit] at hrestarted
    rw [hhandled, hstrategy, ← hsplit]
    exact hrestarted.of_counted
  · have hscope : Scope (s.canRestart (getRestartKey stringify childRef.id parentRef.id
        (some options)) (s.childSupervision parentRef.id) now).1 parentRef.id before
        (crashed :: after) := ⟨hcounted, hparent, hhere, hsplit⟩
    have hrestarted := restartGroup_restarted hscope
    rw [← hfrom] at hrestarted
    rw [hhandled, hstrategy, ← hfrom]
    exact hrestarted.of_counted

end

/-- A parent with three children, the second of which has a child of its own. -/
def household (strategy : ChildSupervisionStrategy) : Nodes Nat Nat :=
  [.spawn "Parent" {}, .spawnChild ⟨0, 0, none, 0⟩ ⟨0, "A", {}⟩,
    .spawnChild ⟨0, 0, none, 0⟩ ⟨0, "B", { args := some [1] }⟩,
    .spawnChild ⟨0, 0, none, 0⟩ ⟨0, "C", {}⟩, .spawnChild ⟨0, 2, none, 0⟩ ⟨0, "D", {}⟩].foldl
    (Nodes.perform fun _ => "") (.init 0 fun _ => ⟨strategy, 1, 1000⟩)

theorem handleChildCrash_restarts_household :
    ∃ before crashed after,
      ((household .restForOne).context 0).childOrder = before ++ crashed :: after ∧
      crashed.id = 2 ∧
      (ChildSupervisionStrategy.restForOne = .oneForAll →
        Restarted (household .restForOne) 0 [] (before ++ crashed :: after)
          ((household .restForOne).handleChildCrash (fun _ => "") ⟨0, 2, none, 0⟩ 5)) ∧
      (ChildSupervisionStrategy.restForOne = .restForOne →
        Restarted (household .restForOne) 0 before (crashed :: after)
          ((household .restForOne).handleChildCrash (fun _ => "") ⟨0, 2, none, 0⟩ 5)) :=
  handleChildCrash_restarts 0 (fun _ => ⟨.restForOne, 1, 1000⟩) _ rfl ⟨0, 2, none, 0⟩
    ⟨0, 0, none, 0⟩ 5 rfl (by decide) (by decide) rfl

end Libeam.Proofs.GroupExact
