import Libeam.Proofs.StoppedTrees
/-!
# A stop removes a whole tree and nothing else

On a node whose actors have been started by `spawn` and `spawnChild`, and stopped by
complete stops, the stop of an actor comes to an end when no callback throws, and has then
removed the actor with all its descendants, in an order that suits the tree.
-/

namespace Libeam.Proofs.SubtreeStops

open Libeam.System (ActorId Supervisor)
open Monitoring Supervision Lib TreeTables SystemSteps SystemSound Partings ChildLists Planting
open Settling Departures StoppedTrees
open LinkPropagation (Quiet)

variable {N V : Type} [DecidableEq N] {callbacks : Callbacks N} {stringify : List V → String}
  {s t : ActorSystem N V} {x : ActorId}

/-! ## Trees that have grown -/

/-- Actors are started, and they go about their work. -/
def Plants : SystemAction N V → Prop
  | .spawn _ _ => True
  | .acceptChild _ _ => True
  | .spawnChild _ _ _ => True
  | .mailbox _ _ => True
  | .setTrapExit _ _ => True
  | .watch _ _ => True
  | .unwatch _ => True
  | .link _ _ => True
  | .unlink _ => True
  | _ => False

/-- The states of a node on which only this happens, and complete stops. -/
inductive Grown (callbacks : Callbacks N) (stringify : List V → String) :
    ActorSystem N V → Prop
  | init (id : N) (childSupervision : ActorId → ChildSupervisionOptions)
      (supervisor : Supervisor) :
      Grown callbacks stringify (.init id childSupervision supervisor)
  | plants {s t : ActorSystem N V} {a : SystemAction N V} (h : Grown callbacks stringify s)
      (ha : Plants a) (hstep : s.step callbacks stringify a = some t) :
      Grown callbacks stringify t
  | stopped {s t : ActorSystem N V} {x : ActorId} {fails : ActorId → Bool}
      (h : Grown callbacks stringify s) (hx : x ∈ s.actors)
      (hstop : Relation.ReflTransGen (Settles callbacks stringify fails)
        (s.invoke [.tree (.stop (s.self x))]) t)
      (hidle : t.calls = []) (hgone : x ∉ t.actors) : Grown callbacks stringify t

/-- What holds of such states. -/
structure Planted (s : ActorSystem N V) : Prop where
  family : Family s.toTables
  sound : SoundSystem s
  idle : s.calls = []
  here : Local s.toTables
  ordered : ∀ x, (s.context x).childOrder = (s.context x).children
  opened : s.closed = false

/-- Only the tables of parents and children matter, apart from the calls. -/
theorem plants_tables {a : SystemAction N V} (ha : Plants a)
    (hstep : s.step callbacks stringify a = some t) :
    (t.calls = s.calls ∧ t.closed = s.closed) ∧ (t.toTables = s.toTables ∨
      (∃ actorClass options, t.toTables = s.toTables.spawn actorClass options none) ∨
        ∃ p actorClass options, t.toTables = s.toTables.spawnChild p actorClass options none) := by
  have hadopt : ∀ tables : Tables N V,
      ((s.adopt tables).calls = s.calls ∧ (s.adopt tables).closed = s.closed) ∧
        (s.adopt tables).toTables = tables := by
    intro tables
    unfold ActorSystem.adopt
    split_ifs <;> exact ⟨⟨rfl, rfl⟩, rfl⟩
  cases a with
  | spawn actorClass options =>
      dsimp only [ActorSystem.step] at hstep
      split_ifs at hstep
      · cases hstep
        exact ⟨⟨rfl, rfl⟩, .inl rfl⟩
      · cases hstep
        exact ⟨(hadopt _).1, .inr (.inl ⟨_, _, (hadopt _).2⟩)⟩
  | acceptChild actorClass options =>
      cases hstep
      exact ⟨(hadopt _).1, .inr (.inl ⟨_, _, (hadopt _).2⟩)⟩
  | spawnChild p actorClass options =>
      dsimp only [ActorSystem.step] at hstep
      split_ifs at hstep
      · cases hstep
        exact ⟨⟨rfl, rfl⟩, .inl rfl⟩
      · cases hstep
        exact ⟨(hadopt _).1, .inr (.inr ⟨_, _, _, (hadopt _).2⟩)⟩
  | mailbox | watch =>
      dsimp only [ActorSystem.step] at hstep
      split_ifs at hstep
      cases hstep
      exact ⟨⟨rfl, rfl⟩, .inl rfl⟩
  | unlink linkRefId =>
      obtain ⟨linkRef, -, rfl⟩ := Option.map_eq_some_iff.1 hstep
      exact ⟨⟨rfl, rfl⟩, .inl rfl⟩
  | setTrapExit | unwatch | link =>
      cases hstep
      exact ⟨⟨rfl, rfl⟩, .inl rfl⟩
  | _ => exact ha.elim

namespace Planted

omit [DecidableEq N] in
theorem init (id : N) (childSupervision : ActorId → ChildSupervisionOptions)
    (supervisor : Supervisor) :
    Planted (ActorSystem.init id childSupervision supervisor : ActorSystem N V) :=
  ⟨family_init id, .init id childSupervision supervisor, rfl,
    fun _ hx => absurd hx (Finset.notMem_empty _), fun _ => rfl, rfl⟩

omit [DecidableEq N] in
/-- A new actor has no children. -/
theorem register (h : Planted s) (m : ActorMetadata N V) :
    Local (s.toTables.register m none) ∧
      ∀ x, ((s.toTables.register m none).context x).childOrder =
        ((s.toTables.register m none).context x).children := by
  have hcontext : ∀ x, (s.toTables.register m none).context x =
      if x = s.nextId then ⟨[], []⟩ else s.context x := by
    intro x
    split_ifs with hx
    · subst hx
      exact Function.update_self _ _ _
    · exact Function.update_of_ne hx _ _
  refine ⟨fun x hx c hc => ?_, fun x => ?_⟩
  · rw [hcontext] at hc
    split_ifs at hc with hnew
    · exact absurd hc List.not_mem_nil
    · exact h.here x ((Finset.mem_insert.1 hx).resolve_left hnew) c hc
  · rw [hcontext]
    split_ifs
    · rfl
    · exact h.ordered x

theorem plants (h : Planted s) {a : SystemAction N V} (ha : Plants a)
    (hstep : s.step callbacks stringify a = some t) : Planted t := by
  obtain ⟨⟨hcalls, hclosed⟩, htables⟩ := plants_tables ha hstep
  have hidle := hcalls.trans h.idle
  have hopened := hclosed.trans h.opened
  have hsound := h.sound.step hstep
  have hinherits : ∀ m, Inherits s.toTables none m := fun _ _ hfirst => nomatch hfirst
  rcases htables with heq | ⟨actorClass, options, heq⟩ | ⟨p, actorClass, options, heq⟩
  · refine ⟨heq ▸ h.family, hsound, hidle, heq ▸ h.here, fun x => ?_, hopened⟩
    rw [heq]
    exact h.ordered x
  · obtain ⟨hhere, hordered⟩ := h.register ⟨actorClass, options, none⟩
    refine ⟨heq ▸ h.family.spawn actorClass options (hinherits _), hsound, hidle, heq ▸ hhere,
      fun x => ?_, hopened⟩
    rw [heq]
    exact hordered x
  · obtain ⟨hhere, hordered⟩ := h.register ⟨actorClass, options, some p⟩
    have hfamily : Family (s.toTables.spawnChild p actorClass options none) :=
      h.family.spawnChild (hinherits _)
    by_cases hp : p.id ∈ s.actors
    · have hcontext := Family.context_spawnChild hp (h.family.lt hp) actorClass options none
      refine ⟨heq ▸ hfamily, hsound, hidle, fun x hx c hc => ?_, fun x => ?_, hopened⟩
      · rw [heq] at hx hc ⊢
        have hactors : (s.toTables.spawnChild p actorClass options none).actors =
            insert s.nextId s.actors := by
          unfold Tables.spawnChild
          rw [if_pos hp]
          rfl
        have hid : (s.toTables.spawnChild p actorClass options none).id = s.id := by
          unfold Tables.spawnChild
          rw [if_pos hp]
          rfl
        rw [hactors] at hx
        rw [hcontext] at hc
        rw [hid]
        split_ifs at hc with hxp
        · rcases List.mem_append.1 hc with hc | hc
          · exact h.here x (hxp ▸ hp) c hc
          · rw [List.mem_singleton.1 hc]
        · exact hhere x hx c hc
      · rw [heq, hcontext]
        split_ifs
        · rw [h.ordered x]
        · exact hordered x
    · rw [show s.toTables.spawnChild p actorClass options none = s.toTables from if_neg hp] at heq
      refine ⟨heq ▸ h.family, hsound, hidle, heq ▸ h.here, fun x => ?_, hopened⟩
      rw [heq]
      exact h.ordered x

omit [DecidableEq N] in
/-- A complete stop leaves trees behind. -/
theorem stopped (h : Planted s) {done : List ActorId} (hstopped : Stopped s done t)
    (hsound : SoundSystem t) (hclosed : t.closed = s.closed) : Planted t where
  family := hstopped.tables.family
  sound := hsound
  idle := hstopped.calls
  here := fun y hy c hc => by
    rw [hstopped.tables.context] at hc
    rw [hstopped.tables.id]
    exact h.here y ((hstopped.tables.actors y).1 hy).1 c (List.mem_of_mem_filter hc)
  ordered := fun y => by
    rw [hstopped.tables.context]
    unfold spared
    rw [h.ordered y]
  opened := hclosed.trans h.opened

end Planted

theorem closed_settles {fails : ActorId → Bool} (hst : Settles callbacks stringify fails s t) :
    t.closed = s.closed := by
  have hcarry : ∀ (index : Nat) (outer : List (Task N V)) (p : Progress N V),
      (ActorSystem.carryOn index outer p).closed = p.system.closed := fun _ _ _ => rfl
  obtain ⟨index, task, outer, -, hgoes⟩ := hst
  split_ifs at hgoes
  · obtain ⟨_, _, p, -, hdrops, rfl⟩ := rejects_cases hgoes
    rw [hcarry]
    cases hdrops <;> rfl
  · obtain ⟨now, hgoes⟩ := hgoes
    obtain ⟨_, _, p, -, hdoes, rfl⟩ := resumes_cases hgoes
    rw [hcarry]
    exact (fixed_does hdoes).2

theorem Grown.planted (hquiet : ∀ id message, callbacks.cancels id message = [])
    (h : Grown callbacks stringify s) : Planted s := by
  induction h with
  | init id childSupervision supervisor => exact .init id childSupervision supervisor
  | plants _ ha hstep ih => exact ih.plants ha hstep
  | @stopped s t x fails _ hx hstop hidle hgone ih =>
      obtain ⟨below, horder⟩ := ih.family.order_exists (s.context x).children
      have hrun : SoundSystem t ∧ t.closed = s.closed := by
        have hfirst : SoundSystem (s.invoke [.tree (.stop (s.self x))]) :=
          ih.sound.invokeOne ⟨rfl, nofun⟩
        clear hidle hgone
        induction hstop with
        | refl => exact ⟨hfirst, rfl⟩
        | tail _ hgoes ih =>
            exact ⟨settles_sound ih.1 hgoes, (closed_settles hgoes).trans ih.2⟩
      have hlead : Inevitable (Settles callbacks stringify fails) _ _ :=
        stop_lead ih.sound hquiet ih.family ih.here ih.idle hx horder
      have hend := hlead.reached hstop (fun u => not_settles hidle) fun u v hu =>
        not_settles (hu.elim (fun hu => hu.2.calls) fun hu => hu.2.1)
      rcases hend with ⟨-, hstopped⟩ | ⟨-, -, hleft⟩
      · exact ih.stopped hstopped hrun.1 hrun.2
      · exact absurd hleft hgone

/-! ## What a stop removes -/

/-- The actors of the tree below an actor, as `terminate()` is called on them. -/
structure Tree (s : ActorSystem N V) (x : ActorId) (order : List ActorId) : Prop where
  mem : ∀ y, y ∈ order ↔ Descends s.toTables x y
  nodup : order.Nodup
  parents : ∀ before y after, order = before ++ y :: after →
    ∀ z, Parent s.toTables y z → z ∈ before
  /-- Children come in the order in which they were started. -/
  siblings : ∀ before y after, order = before ++ y :: after →
    ((s.context y).childOrder.map (·.id)).Sublist before

structure Removed (s : ActorSystem N V) (x : ActorId) (t : ActorSystem N V) : Prop where
  calls : t.calls = []
  terminated : ∃ order, Tree s x order ∧ t.terminated = s.terminated ++ order
  actors : ∀ y, y ∈ t.actors ↔ y ∈ s.actors ∧ ¬ Descends s.toTables x y
  gone : ∀ y, Descends s.toTables x y → t.mailboxes y = none ∧ t.actorMetadata y = none
  kept : ∀ y, ¬ Descends s.toTables x y →
    t.mailboxes y = s.mailboxes y ∧ t.actorMetadata y = s.actorMetadata y ∧
      t.self y = s.self y ∧ t.trapExit y = s.trapExit y
  parent : ∀ y, Parent s.toTables y x → t.context y = spared [x] (s.context y)
  others : ∀ y, ¬ Descends s.toTables x y → ¬ Parent s.toTables y x → t.context y = s.context y
  watches : ∀ w, (∀ y, Descends s.toTables x y → ¬ Regards s.toRelations y w) →
    SameWatch w s.toRelations t.toRelations
  links : ∀ l, (∀ y, Descends s.toTables x y → ¬ s.Concerns y l) →
    SameLink l s.toRelations t.toRelations

open Forest (PostOrder)

/-- The order in which a tree is stopped. -/
theorem Planted.tree (h : Planted s) (hx : x ∈ s.actors) {below : List (ActorRef N)}
    (horder : PostOrder (kids s.toTables) (s.context x).children below) :
    Tree s x ((below ++ [s.self x]).map (·.id)) := by
  have hid : (s.self x).id = x := (own_self h.family hx).2
  have hlisted : ∀ c ∈ below, Listed s.toTables c :=
    h.family.order_listed horder fun c hc => ⟨x, hx, hc⟩
  have hmem : ∀ y, y ∈ (below ++ [s.self x]).map (·.id) ↔ Descends s.toTables x y := by
    intro y
    have hiff := h.family.mem_order_iff (r := s.self x) (hid.symm ▸ hx)
      (by rw [hid]; exact horder) y
    rw [hid] at hiff
    rw [← hiff]
    refine (and_iff_left_of_imp fun hy => ?_).symm
    obtain ⟨c, hc, rfl⟩ := List.mem_map.1 hy
    rcases List.mem_append.1 hc with hc | hc
    · exact (own_listed h.family h.here (hlisted c hc)).1
    · rw [List.mem_singleton.1 hc, hid]
      exact hx
  have hids : PostOrder (childIds s.toTables) [x] ((below ++ [s.self x]).map (·.id)) := by
    have hbelow := h.family.order_ids horder fun c hc => ⟨x, hx, hc⟩
    rw [List.map_append, List.map_singleton, hid]
    refine .cons ?_ .nil
    rwa [childIds, if_pos hx]
  obtain ⟨hnodup, hnew⟩ := h.family.order_nodup hx horder (fun _ hc => hc)
    (h.family.sound.contexts x).children_nodup
  refine ⟨hmem, ?_, fun before y after hsplit z hz => ?_, fun before y after hsplit => ?_⟩
  · rw [List.map_append, List.map_singleton, hid, List.nodup_append]
    refine ⟨hnodup, List.nodup_singleton _, fun y hy z hz heq => ?_⟩
    exact hnew (List.mem_singleton.1 hz ▸ heq ▸ hy)
  · obtain ⟨p, hp, -⟩ := id hz
    have hlive := (h.family.sound.live_of_parentOf hp).1
    exact (hids.children_before hsplit).subset ((h.family.mem_childIds_iff hlive).2 hz)
  · have hy : y ∈ s.actors :=
      live_of_descends h.family ((hmem y).1 (hsplit ▸ by simp)) hx
    rw [h.ordered y]
    have hchildren := hids.children_before hsplit
    rwa [childIds, if_pos hy] at hchildren

omit [DecidableEq N] in
/-- The parent of the root is outside the tree. -/
theorem Planted.not_descends (h : Planted s) (hx : x ∈ s.actors) {y : ActorId}
    (hy : Parent s.toTables y x) : ¬ Descends s.toTables x y := by
  intro hdescends
  have hlive := live_of_descends h.family hdescends hx
  have hle := ((below_iff h.family hlive).2 hdescends).rank_le h.family.rank_childIds
  have hlt := h.family.rank_childIds y x ((h.family.mem_childIds_iff hx).2 hy)
  exact absurd hlt (Nat.not_lt.2 hle)

omit [DecidableEq N] in
/-- Only the parent of the root has a list with an actor of the tree. -/
theorem Planted.spared_tree (h : Planted s) (hx : x ∈ s.actors) {order : List ActorId}
    (htree : Tree s x order) {y : ActorId} (hy : ¬ Descends s.toTables x y) :
    spared order (s.context y) = spared [x] (s.context y) := by
  have hsame : ∀ c, OnLists s.toTables y c → (c.id ∈ order ↔ c.id ∈ [x]) := by
    intro c hc
    rw [List.mem_singleton]
    constructor
    · intro hmem
      have hdescends := (htree.mem c.id).1 hmem
      have hlive := live_of_descends h.family hdescends hx
      obtain ⟨-, p, hp, hid⟩ := h.family.listed_parent hc hlive
      rcases Relation.ReflTransGen.cases_tail hdescends with heq | ⟨z, hz, p', hp', hid'⟩
      · exact heq
      · rw [hp] at hp'
        cases hp'
        exact absurd (hid'.symm.trans hid ▸ hz) hy
    · rintro heq
      exact (htree.mem c.id).2 (heq ▸ .refl)
  unfold spared
  congr 1
  · exact List.filter_congr fun c hc => by simp only [hsame c (.inl hc)]
  · exact List.filter_congr fun c hc => by simp only [hsame c (.inr hc)]

/-- A stop comes to an end, and has then removed just the actor and its descendants. -/
theorem stop_removes_subtree (hquiet : Quiet callbacks) (h : Grown callbacks stringify s)
    (hx : x ∈ s.actors) :
    ∃ s', s.step callbacks stringify (.stop (s.self x)) = some s' ∧
      Inevitable (Settles callbacks stringify fun _ => false) (Removed s x) s' := by
  have hplanted := h.planted hquiet.cancels
  obtain ⟨below, horder⟩ := hplanted.family.order_exists (s.context x).children
  have htree := hplanted.tree hx horder
  have hlt : (s.self x).id < s.nextId := by
    rw [(own_self hplanted.family hx).2]
    exact hplanted.family.lt hx
  have hcalms : ∀ (cs : List (ActorRef N)) (done : List ActorId),
      Calms callbacks (fun _ => false) s done cs := by
    intro cs
    induction cs with
    | nil => exact fun _ => trivial
    | cons c cs ih =>
        exact fun done => ⟨⟨rfl, fun _ _ _ _ _ _ _ => hquiet.throws _ _,
          fun _ _ _ _ _ _ => hquiet.throws _ _⟩, ih _⟩
  refine ⟨_, if_pos hlt, (stop_lead hplanted.sound hquiet.cancels hplanted.family hplanted.here
    hplanted.idle hx horder).mono ?_⟩
  rintro t (⟨-, hstopped⟩ | ⟨hthrows, -⟩)
  · generalize (below ++ [s.self x]).map (·.id) = order at htree hstopped
    have hkept : ∀ y, ¬ Descends s.toTables x y → y ∉ order := fun y hy hmem =>
      hy ((htree.mem y).1 hmem)
    exact
      { calls := hstopped.calls
        terminated := ⟨order, htree, hstopped.terminated⟩
        actors := fun y => by rw [hstopped.tables.actors, htree.mem]
        gone := fun y hy => by
          rw [hstopped.mailboxes, hstopped.tables.actorMetadata, if_pos ((htree.mem y).2 hy)]
          exact ⟨rfl, if_pos ((htree.mem y).2 hy)⟩
        kept := fun y hy => by
          rw [hstopped.mailboxes, hstopped.tables.actorMetadata, hstopped.tables.self,
            hstopped.relations.trapExit, if_neg (hkept y hy)]
          exact ⟨rfl, if_neg (hkept y hy), rfl, rfl⟩
        parent := fun y hy => by
          rw [hstopped.tables.context]
          exact hplanted.spared_tree hx htree (hplanted.not_descends hx hy)
        others := fun y hy hnot => by
          rw [hstopped.tables.context, hplanted.spared_tree hx htree hy]
          refine spared_eq_self fun c hc hmem => hnot ?_
          have hroot : c.id = x := List.mem_singleton.1 hmem
          obtain ⟨-, p, hp, hid⟩ := hplanted.family.listed_parent hc (hroot ▸ hx)
          exact ⟨p, hroot ▸ hp, hid⟩
        watches := fun w hw => hstopped.relations.watches w fun y hy => hw y ((htree.mem y).1 hy)
        links := fun l hl => hstopped.relations.links l fun y hy => hl y ((htree.mem y).1 hy) }
  · exact absurd (hcalms _ _) hthrows

/-- An actor, its child and the child of that. -/
theorem stop_removes_subtree_grandchild :
    ∃ s : ActorSystem Nat Nat, ∃ s',
      s.step ⟨fun _ _ => [], fun _ _ => false⟩ (fun _ : List Nat => "") (.stop (s.self 0)) =
          some s' ∧
        Inevitable (Settles ⟨fun _ _ => [], fun _ _ => false⟩ (fun _ : List Nat => "")
          fun _ => false) (Removed s 0) s' := by
  have hinit : Grown ⟨fun _ _ => [], fun _ _ => false⟩ (fun _ : List Nat => "")
      (.init 0 (fun _ => ⟨.oneForOne, 3, 1000⟩) (.new .Stop 3 1000) : ActorSystem Nat Nat) :=
    .init 0 _ _
  have hroot := hinit.plants (a := .spawn "Parent" {}) trivial rfl
  have hchild := hroot.plants (a := .spawnChild ⟨0, 0, none, 0⟩ "Child" {}) trivial rfl
  have hgrown := hchild.plants (a := .spawnChild ⟨0, 1, none, 0⟩ "Child" {}) trivial rfl
  exact ⟨_, stop_removes_subtree ⟨fun _ _ => rfl, fun _ _ => rfl⟩ hgrown (by decide)⟩

end Libeam.Proofs.SubtreeStops
