import Libeam.Proofs.Departures
/-!
# A tree of actors is stopped

The actors of a tree are removed one after another, each after its children and siblings
in the order in which they were started, as long as no callback throws.  With the first
one that throws the stop ends, and the actors that are still to be removed stay.
-/

namespace Libeam.Proofs.StoppedTrees

open Libeam.System (ActorId)
open Monitoring Supervision Lib LinkTables SystemSound StopRounds Partings Planting Settling
open Departures

variable {N V : Type} [DecidableEq N]

/-! ## What has been done when some actors have been removed -/

/-- The tables of parents and children without these actors. -/
structure Pruned (t : Tables N V) (done : List ActorId) (t' : Tables N V) : Prop where
  family : Family t'
  id : t'.id = t.id
  self : t'.self = t.self
  remoteChildren : t'.remoteChildren = t.remoteChildren
  actors : ∀ y, y ∈ t'.actors ↔ y ∈ t.actors ∧ y ∉ done
  actorMetadata : ∀ y, t'.actorMetadata y = if y ∈ done then none else t.actorMetadata y
  context : ∀ y, t'.context y = spared done (t.context y)

namespace Pruned

variable {t t' : Tables N V} {done : List ActorId} {c : ActorRef N}

omit [DecidableEq N] in
theorem nil (h : Family t) : Pruned t [] t :=
  ⟨h, rfl, rfl, rfl, by simp, by simp, by simp⟩

theorem snoc (h : Pruned t done t') (hc : c.id ∈ t'.actors) (hown : c = t'.self c.id)
    (hnone : (t'.context c.id).children = []) :
    Pruned t (done ++ [c.id]) ((t'.detach c).remove c.id) := by
  have hdetach := detach_eq t' c
  refine ⟨h.family.depart hc hown hnone, ?_, ?_, ?_, fun y => ?_, fun y => ?_, fun y => ?_⟩
  · rw [← h.id, hdetach]
    rfl
  · rw [← h.self, hdetach]
    rfl
  · rw [← h.remoteChildren, hdetach]
    rfl
  · change y ∈ (t'.detach c).actors.erase c.id ↔ _
    rw [TreeSteps.detach_actors, Finset.mem_erase, h.actors, List.mem_append, List.mem_singleton]
    tauto
  · change Function.update (t'.detach c).actorMetadata c.id none y = _
    rw [hdetach]
    by_cases hy : y = c.id
    · simp [hy]
    · simp [hy, h.actorMetadata y]
  · change (t'.detach c).context y = _
    rw [h.family.context_detach hc hown y, h.context, spared_spared]

end Pruned

/-- The tables of watches and links without these actors, whose watchers have been told. -/
structure Forgotten (s : ActorSystem N V) (done : List ActorId) (r : Relations N) : Prop where
  watches : ∀ w, (∀ y ∈ done, ¬ Regards s.toRelations y w) → SameWatch w s.toRelations r
  links : ∀ l, (∀ y ∈ done, ¬ s.Concerns y l) → SameLink l s.toRelations r
  unwatched : ∀ w e, r.watches w = some e ↔ s.watches w = some e ∧
    e.watchRef.watcherId ∉ done ∧ e.watchRef.watchedId ∉ done
  unlinked : ∀ l e, r.links l = some e ↔ s.links l = some e ∧ ∀ y ∈ done, ¬ Ends e.linkRef y
  trapExit : r.trapExit = s.trapExit
  watchRefs : r.watchRefs = s.watchRefs
  remoteRefs : r.remoteRefs = s.remoteRefs
  linkRefs : r.linkRefs = s.linkRefs
  localLinks : r.localLinks = s.localLinks
  informed : ∀ before y after, done = before ++ y :: after → ∀ w e, s.watches w = some e →
    e.watchRef.watchedId = y → e.watchRef.watcherId ≠ y → e.watchRef.watcherId ∈ s.actors →
    e.watchRef.watcherId ∉ before →
      .informed e.watchRef.watcherId (.down e.watchRef (s.self y) .normal) ∈ r.events

namespace Forgotten

variable {s : ActorSystem N V} {done : List ActorId} {r r' : Relations N} {c : ActorRef N}

omit [DecidableEq N] in
theorem nil (s : ActorSystem N V) : Forgotten s [] s.toRelations :=
  ⟨fun _ _ => .refl _, fun _ _ => .refl _, by simp, by simp, rfl, rfl, rfl, rfl, rfl,
    fun before y after hsplit => by simp at hsplit⟩

omit [DecidableEq N] in
theorem snoc (h : Forgotten s done r) (hown : c = s.self c.id) (hnew : c.id ∉ done)
    {actors : Finset ActorId} (hactors : ∀ y, y ∈ actors ↔ y ∈ s.actors ∧ y ∉ done)
    (hparted : Parted actors c .normal r r') : Forgotten s (done ++ [c.id]) r' where
  watches := fun w hw => by
    have hsame := h.watches w fun y hy => hw y (List.mem_append_left _ hy)
    refine hsame.trans (hparted.watches w fun hregards => hw c.id (by simp) ?_)
    obtain ⟨ref, href, hends⟩ := hregards
    exact ⟨ref, h.watchRefs ▸ href, h.remoteRefs ▸ hends⟩
  links := fun l hl => by
    have hsame := h.links l fun y hy => hl y (List.mem_append_left _ hy)
    refine hsame.trans (hparted.links l fun hconcerns => hl c.id (by simp) ?_)
    obtain ⟨ref, href, hends⟩ := hconcerns
    exact ⟨ref, h.linkRefs ▸ href, h.localLinks ▸ hends⟩
  unwatched := fun w e => by
    rw [hparted.unwatched, h.unwatched]
    simp only [List.mem_append, List.mem_singleton]
    tauto
  unlinked := fun l e => by
    rw [hparted.unlinked, h.unlinked, and_assoc]
    simp only [List.mem_append, List.mem_singleton, or_imp, forall_and, forall_eq]
  trapExit := hparted.trapExit.trans h.trapExit
  watchRefs := hparted.watchRefs.trans h.watchRefs
  remoteRefs := hparted.remoteRefs.trans h.remoteRefs
  linkRefs := hparted.linkRefs.trans h.linkRefs
  localLinks := hparted.localLinks.trans h.localLinks
  informed := fun before y after hsplit w e he hwatched hwatcher hlive hbefore => by
    rcases List.eq_nil_or_concat after with rfl | ⟨more, z, rfl⟩
    · -- the actor is the last one
      obtain ⟨rfl, hlast⟩ := List.append_inj' hsplit rfl
      cases hlast
      have htold := hparted.informed w e ((h.unwatched w e).2 ⟨he, hbefore, hwatched ▸ hnew⟩)
        hwatched hwatcher ((hactors _).2 ⟨hlive, hbefore⟩)
      rwa [← hown]
    · obtain ⟨said, heq⟩ := hparted.events
      rw [List.concat_eq_append, ← List.cons_append, ← List.append_assoc] at hsplit
      obtain ⟨hdone, -⟩ := List.append_inj' hsplit rfl
      rw [heq]
      exact List.mem_append_left _ (h.informed before y more hdone w e he hwatched hwatcher hlive
        hbefore)

end Forgotten

/-- Just these actors have been removed, in this order. -/
structure Stopped (s : ActorSystem N V) (done : List ActorId) (t : ActorSystem N V) : Prop where
  tables : Pruned s.toTables done t.toTables
  relations : Forgotten s done t.toRelations
  mailboxes : ∀ y, t.mailboxes y = if y ∈ done then none else s.mailboxes y
  terminated : t.terminated = s.terminated ++ done
  calls : t.calls = []

section
variable {callbacks : Callbacks N} {stringify : List V → String} {fails : ActorId → Bool}
  {s t : ActorSystem N V} {done : List ActorId} {c : ActorRef N} {r : Relations N}

namespace Stopped

omit [DecidableEq N] in
theorem nil (hfamily : Family s.toTables) (hidle : s.calls = []) : Stopped s [] s :=
  ⟨.nil hfamily, .nil s, by simp, by simp, hidle⟩

theorem snoc (h : Stopped s done t) (hc : c.id ∈ t.actors) (hown : c = s.self c.id)
    (hnone : (t.context c.id).children = [])
    (hparted : Parted t.actors c .normal t.toRelations r) :
    Stopped s (done ++ [c.id]) (departed t c r) where
  tables := h.tables.snoc hc (by rw [h.tables.self]; exact hown) hnone
  relations := h.relations.snoc hown ((h.tables.actors c.id).1 hc).2 h.tables.actors hparted
  mailboxes := fun y => by
    change Function.update t.mailboxes c.id none y = _
    by_cases hy : y = c.id
    · simp [hy]
    · simp [hy, h.mailboxes y]
  terminated := by
    change t.terminated ++ [c.id] = _
    rw [h.terminated, List.append_assoc]
  calls := h.calls

omit [DecidableEq N] in
/-- Whether anything throws depends on the actors that are still there. -/
theorem calm_iff (h : Stopped s done t) (hs : SoundSystem s) (hc : c.id ∉ done) :
    Calm callbacks fails t [] c ↔ Calm callbacks fails s done c := by
  have htraps : ∀ x, Traps t.actors t.toRelations x ↔
      Traps s.actors s.toRelations x ∧ x ∉ done := by
    intro x
    unfold Traps
    rw [h.tables.actors, h.relations.trapExit]
    tauto
  constructor
  · intro hcalm
    refine ⟨hcalm.terminates, fun w e he hwatched hwatcher hlive hgone => ?_,
      fun l e he hends htrap hgone => ?_⟩
    · exact hcalm.watchers w e ((h.relations.unwatched w e).2 ⟨he, hgone, hwatched ▸ hc⟩) hwatched
        hwatcher ((h.tables.actors _).2 ⟨hlive, hgone⟩) List.not_mem_nil
    · refine hcalm.partners l e ((h.relations.unlinked l e).2 ⟨he, fun y hy hends' => ?_⟩) hends
        ((htraps _).2 ⟨htrap, hgone⟩) List.not_mem_nil
      obtain ⟨-, -, h₁, h₂⟩ := hs.bonds.agree.links.entry l e he
      rcases otherEnd_ends h₁ h₂ hends with ⟨h₁, h₂⟩ | ⟨h₁, h₂⟩
      · rcases hends' with rfl | rfl
        · exact hc (h₁ ▸ hy)
        · exact hgone (h₂ ▸ hy)
      · rcases hends' with rfl | rfl
        · exact hgone (h₂ ▸ hy)
        · exact hc (h₁ ▸ hy)
  · intro hcalm
    refine ⟨hcalm.terminates, fun w e he hwatched hwatcher hlive _ => ?_,
      fun l e he hends htrap _ => ?_⟩
    · have hthere := (h.tables.actors _).1 hlive
      exact hcalm.watchers w e ((h.relations.unwatched w e).1 he).1 hwatched hwatcher hthere.1
        hthere.2
    · have hthere := (htraps _).1 htrap
      exact hcalm.partners l e ((h.relations.unlinked l e).1 he).1 hends hthere.1 hthere.2

end Stopped

/-! ## One tree after another -/

/-- Nothing throws when the actors are stopped in this order. -/
def Calms (callbacks : Callbacks N) (fails : ActorId → Bool) (s : ActorSystem N V) :
    List ActorId → List (ActorRef N) → Prop
  | _, [] => True
  | done, c :: cs => Calm callbacks fails s done c ∧
      Calms callbacks fails s (done ++ [c.id]) cs

omit [DecidableEq N] in
theorem calms_append (done : List ActorId) (cs cs' : List (ActorRef N)) :
    Calms callbacks fails s done (cs ++ cs') ↔
      Calms callbacks fails s done cs ∧
        Calms callbacks fails s (done ++ cs.map (·.id)) cs' := by
  induction cs generalizing done with
  | nil => simp [Calms]
  | cons c cs ih =>
      simp only [List.cons_append, Calms, ih, List.map_cons, List.append_assoc, List.nil_append,
        and_assoc]

/-- A reference to a live actor of this node, as its `spawn` returned it. -/
def Own (s : ActorSystem N V) (c : ActorRef N) : Prop :=
  c.id ∈ s.actors ∧ c = s.self c.id ∧ c.systemId = s.id

open Forest (PostOrder)

/-- The trees of the remaining children are stopped, each in its turn, or something throws. -/
theorem children_lead (hs : SoundSystem s)
    (hquiet : ∀ id message, callbacks.cancels id message = []) {cs order : List (ActorRef N)}
    (horder : PostOrder (kids s.toTables) cs order) {u : ActorSystem N V}
    {actorRef : ActorRef N} {task : Task N V} {outer : List (Task N V)}
    (hu : Stopped s done u) (hsound : SoundSystem (u.invoke (task :: outer)))
    (hown : ∀ c ∈ order, Own s c) (hnodup : (done ++ order.map (·.id)).Nodup)
    (hturn : Turn callbacks stringify fails u task (u.stopChildren callbacks actorRef cs)) :
    Inevitable (Settles callbacks stringify fails)
      (fun t =>
        (Calms callbacks fails s done order ∧ SoundSystem t ∧
          ∃ u' task', Stopped s (done ++ order.map (·.id)) u' ∧
            Turn callbacks stringify fails u' task' (u'.leave callbacks actorRef) ∧
            t = u'.invoke (task' :: outer)) ∨
        ¬ Calms callbacks fails s done order ∧ t.calls = [] ∧
          ∀ x ∈ s.actors, x ∉ done ++ order.map (·.id) → x ∈ t.actors)
      (u.invoke (task :: outer)) := by
  induction horder generalizing done u actorRef task outer with
  | nil => exact .now (.inl ⟨trivial, hsound, u, task, by simpa using hu, hturn, rfl⟩)
  | @cons c cs below rest hbelow hrest ihbelow ihrest =>
      obtain ⟨hclive, hcown, hchere⟩ : Own s c := hown c (by simp)
      have hids : done ++ (below ++ c :: rest).map (·.id) =
          (done ++ below.map (·.id) ++ [c.id]) ++ rest.map (·.id) := by simp
      have hcalms : Calms callbacks fails s done (below ++ c :: rest) ↔
          Calms callbacks fails s done below ∧
            Calm callbacks fails s (done ++ below.map (·.id)) c ∧
              Calms callbacks fails s (done ++ below.map (·.id) ++ [c.id]) rest :=
        calms_append done below (c :: rest)
      have hnodup' : (done ++ below.map (·.id) ++ [c.id]).Nodup :=
        (hids ▸ hnodup).sublist (List.sublist_append_left _ _)
      have hcnew : c.id ∉ done ++ below.map (·.id) := fun hmem =>
        (List.nodup_append.1 hnodup').2.2 _ hmem _ (List.mem_singleton.2 rfl) rfl
      have hkids : kids s.toTables c = (s.context c.id).children := if_pos hchere
      -- the children of the actor are still there when its turn comes
      have hchildren : (u.context c.id).children = kids s.toTables c := by
        rw [hu.tables.context, hkids]
        refine List.filter_eq_self.2 fun d hd => decide_eq_true fun hdone => ?_
        have hd' : d ∈ below := hbelow.roots.subset (hkids ▸ hd)
        exact (List.nodup_append.1 hnodup).2.2 _ hdone _
          (List.mem_map_of_mem (List.mem_append_left _ hd')) rfl
      have hulive : c.id ∈ u.actors :=
        (hu.tables.actors c.id).2 ⟨hclive, fun h => hcnew (List.mem_append_left _ h)⟩
      have hframe : u.stopChildren callbacks actorRef (c :: cs) =
          u.proceed [.tree (.stop c), .tree (.children actorRef cs)] := by
        unfold ActorSystem.stopChildren Tables.stopFrame
        dsimp only
        rw [if_pos (hchere.trans hu.tables.id.symm)]
      have hstop : Turn callbacks stringify fails u (.tree (.stop c))
          (u.stopChildren callbacks c (kids s.toTables c)) :=
        ⟨rfl, fun _ => (if_pos hulive).trans (by rw [hchildren])⟩
      refine goes_sound hu.calls hsound hturn (by rw [hframe]; rfl) ?_
      rw [hframe]
      intro hsound
      refine (ihbelow hu hsound (fun d hd => hown d (by simp [hd]))
        (hnodup'.sublist (List.sublist_append_left _ _)) hstop).bind ?_
      rintro t (⟨hcalm, hsound', u', task', hu', hturn', rfl⟩ | ⟨hthrows, hidle, hleft⟩)
      · have hlive' : c.id ∈ u'.actors := (hu'.tables.actors c.id).2 ⟨hclive, hcnew⟩
        have hnone : (u'.context c.id).children = [] := by
          rw [hu'.tables.context]
          refine List.filter_eq_nil_iff.2 fun d hd => ?_
          have hd' : d ∈ below := hbelow.roots.subset (hkids ▸ hd)
          simpa using fun _ => ⟨d, hd', rfl⟩
        refine (departure_lead hquiet hu'.calls hsound' hlive' hturn').bind ?_
        rintro t (⟨hcalm', hsound'', r, hparted, rfl⟩ | ⟨hthrows, hidle, hleft⟩)
        · have hdone := hu'.snoc hlive' hcown hnone hparted
          have hchild : Turn callbacks stringify fails (departed u' c r)
              (.tree (.children actorRef cs))
              ((departed u' c r).stopChildren callbacks actorRef cs) := ⟨rfl, fun _ => rfl⟩
          refine (ihrest hdone hsound'' (fun d hd => hown d (by simp [hd])) (hids ▸ hnodup)
            hchild).mono ?_
          rw [hids, hcalms, ← hu'.calm_iff hs hcnew]
          rintro t (⟨hcalms', hrest⟩ | ⟨hthrows, hrest⟩)
          · exact .inl ⟨⟨hcalm, hcalm', hcalms'⟩, hrest⟩
          · exact .inr ⟨fun h => hthrows h.2.2, hrest⟩
        · refine .now (.inr ⟨fun h => ?_, hidle, fun x hx hnot => ?_⟩)
          · exact hthrows ((hu'.calm_iff hs hcnew).2 (hcalms.1 h).2.1)
          · rw [hleft, hu'.tables.actors]
            rw [hids, List.append_assoc] at hnot
            exact ⟨hx, fun hmem => hnot (List.mem_append_left _ hmem)⟩
      · refine .now (.inr ⟨fun h => hthrows (hcalms.1 h).1, hidle, fun x hx hnot => ?_⟩)
        rw [hids, List.append_assoc] at hnot
        exact hleft x hx fun hmem => hnot (List.mem_append_left _ hmem)

omit [DecidableEq N] in
theorem invoke_nil (s : ActorSystem N V) : s.invoke [] = s := by
  unfold ActorSystem.invoke
  rw [if_pos rfl]

/-- All children of live actors are on this node. -/
def Local (t : Tables N V) : Prop :=
  ∀ x ∈ t.actors, ∀ c ∈ (t.context x).children, c.systemId = t.id

omit [DecidableEq N] in
theorem own_self (hfamily : Family s.toTables) {x : ActorId} (hx : x ∈ s.actors) :
    Own s (s.self x) ∧ (s.self x).id = x := by
  obtain ⟨m, hm⟩ := hfamily.sound.live_spawned x hx
  obtain ⟨hhere, hid⟩ := hfamily.sound.self x m hm
  exact ⟨⟨hid.symm ▸ hx, by rw [hid], hhere⟩, hid⟩

omit [DecidableEq N] in
theorem own_listed (hfamily : Family s.toTables) (hlocal : Local s.toTables)
    (hc : Listed s.toTables c) : Own s c := by
  obtain ⟨x, hx, hmem⟩ := hc
  have hhere := hlocal x hx c hmem
  obtain ⟨hlive, hself⟩ := hfamily.child_here hx hmem hhere
  exact ⟨hlive, hself, hhere⟩

/-- All actors of a tree are removed, or something throws and the root stays. -/
theorem stop_lead (hs : SoundSystem s)
    (hquiet : ∀ id message, callbacks.cancels id message = []) (hfamily : Family s.toTables)
    (hlocal : Local s.toTables) (hidle : s.calls = []) {x : ActorId} (hx : x ∈ s.actors)
    {below : List (ActorRef N)}
    (horder : PostOrder (kids s.toTables) (s.context x).children below) :
    Inevitable (Settles callbacks stringify fails)
      (fun t =>
        (Calms callbacks fails s [] (below ++ [s.self x]) ∧
          Stopped s ((below ++ [s.self x]).map (·.id)) t) ∨
        ¬ Calms callbacks fails s [] (below ++ [s.self x]) ∧ t.calls = [] ∧ x ∈ t.actors)
      (s.invoke [.tree (.stop (s.self x))]) := by
  obtain ⟨⟨-, hself, hhere⟩, hid⟩ := own_self hfamily hx
  have hcalms : Calms callbacks fails s [] (below ++ [s.self x]) ↔
      Calms callbacks fails s [] below ∧
        Calm callbacks fails s (below.map (·.id)) (s.self x) := by
    rw [calms_append]
    simp [Calms]
  obtain ⟨hnodup, hxnew⟩ := hfamily.order_nodup hx horder (fun _ hc => hc)
    (hfamily.sound.contexts x).children_nodup
  have hlisted := hfamily.order_listed horder fun c hc => ⟨x, hx, hc⟩
  have hstop : Turn callbacks stringify fails s (.tree (.stop (s.self x)))
      (s.stopChildren callbacks (s.self x) (s.context x).children) :=
    ⟨rfl, fun _ => (if_pos (hid.symm ▸ hx)).trans (by rw [hid])⟩
  have hsound : SoundSystem (s.invoke [.tree (.stop (s.self x))]) :=
    hs.invokeOne ⟨rfl, nofun⟩
  refine (children_lead hs hquiet horder (.nil hfamily hidle) hsound
    (fun c hc => own_listed hfamily hlocal (hlisted c hc)) hnodup hstop).bind ?_
  rw [List.nil_append]
  rintro t (⟨hcalm, hsound', u, task, hu, hturn, rfl⟩ | ⟨hthrows, hdone, hleft⟩)
  · have hlive : (s.self x).id ∈ u.actors := (hu.tables.actors _).2 (by rw [hid]; exact ⟨hx, hxnew⟩)
    have hnone : (u.context (s.self x).id).children = [] := by
      rw [hid, hu.tables.context]
      refine List.filter_eq_nil_iff.2 fun d hd => ?_
      simpa using ⟨d, horder.roots.subset hd, rfl⟩
    have hiff : Calm callbacks fails u [] (s.self x) ↔
        Calm callbacks fails s (below.map (·.id)) (s.self x) :=
      hu.calm_iff hs (by rw [hid]; exact hxnew)
    refine (departure_lead hquiet hu.calls hsound' hlive hturn).mono ?_
    rw [hcalms, ← hiff]
    rintro t (⟨hcalm', -, r, hparted, rfl⟩ | ⟨hthrows, hdone, hactors⟩)
    · refine .inl ⟨⟨hcalm, hcalm'⟩, ?_⟩
      rw [invoke_nil, List.map_append]
      exact hu.snoc hlive hself hnone hparted
    · refine .inr ⟨fun h => hthrows h.2, hdone, ?_⟩
      rw [hactors, ← hid]
      exact hlive
  · exact .now (.inr ⟨fun h => hthrows (hcalms.1 h).1, hdone, hleft x hx hxnew⟩)

end

end Libeam.Proofs.StoppedTrees
