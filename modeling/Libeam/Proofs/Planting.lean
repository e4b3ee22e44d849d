import Libeam.Lib.Forest
import Libeam.Proofs.ChildLists
import Libeam.Proofs.SystemSound
/-!
# Trees of actors

A node on which actors have only been spawned has its actors in trees: the parent of a
live actor is live, both lists of a parent have its children and nothing else, and a
child is younger than its parent.  A stop that has run to its end keeps this.
-/

namespace Libeam.Proofs.Planting

open Libeam.System (ActorId)
open Supervision Lib TreeTables TreeSteps ChildLists

variable {N V : Type}

/-- The live actors and their children are trees. -/
structure Family (t : Tables N V) : Prop where
  sound : Sound t
  here : ListedHere t
  elsewhere : ListedElsewhere t
  parents : ∀ x ∈ t.actors, ∀ p, t.parentOf x = some p → p.id ∈ t.actors
  kept : ∀ x ∈ t.actors, x ∉ t.detached
  left : ∀ x ∈ t.detached, x < t.nextId
  older : ∀ x, ∀ c ∈ (t.context x).children, x < c.id
  /-- The children of an actor in the order in which they were started. -/
  started : ∀ x, ((t.context x).children.map (·.id)).Pairwise (· < ·)

/-- The ids of the children. -/
def childIds (t : Tables N V) (x : ActorId) : List ActorId :=
  if x ∈ t.actors then (t.context x).children.map (·.id) else []

/-- The metadata of the second actor has the first as its parent. -/
def Parent (t : Tables N V) (x y : ActorId) : Prop :=
  ∃ p, t.parentOf y = some p ∧ p.id = x

/-- The second actor is the first or comes after it in the tree. -/
def Descends (t : Tables N V) : ActorId → ActorId → Prop :=
  Relation.ReflTransGen (Parent t)

/-- The lists without the references to some actors. -/
def spared (ids : List ActorId) (ctx : ActorContext N) : ActorContext N :=
  ⟨ctx.children.filter fun c => c.id ∉ ids, ctx.childOrder.filter fun c => c.id ∉ ids⟩

@[simp] theorem spared_nil (ctx : ActorContext N) : spared [] ctx = ctx := by
  simp [spared]

theorem spared_spared (ids ids' : List ActorId) (ctx : ActorContext N) :
    spared ids' (spared ids ctx) = spared (ids ++ ids') ctx := by
  simp only [spared, List.filter_filter, List.mem_append, not_or, ActorContext.mk.injEq]
  constructor
  · exact List.filter_congr fun c _ => by simp [Bool.and_comm]
  · exact List.filter_congr fun c _ => by simp [Bool.and_comm]

section
variable {t : Tables N V}

/-! ## Children -/

namespace Family

theorem lt (h : Family t) {x : ActorId} (hx : x ∈ t.actors) : x < t.nextId := h.sound.lt_of_live hx

/-- A child on this node is live, and the reference is its own. -/
theorem child_here (h : Family t) {x : ActorId} (hx : x ∈ t.actors) {c : ActorRef N}
    (hc : c ∈ (t.context x).children) (hhere : c.systemId = t.id) :
    c.id ∈ t.actors ∧ c = t.self c.id :=
  ⟨(h.here x hx c (.inl hc) hhere).1, ((h.sound.contexts x).children c hc).here hhere |>.1⟩

/-- A child on another node has an entry. -/
theorem child_elsewhere (h : Family t) {x : ActorId} (hx : x ∈ t.actors) {c : ActorRef N}
    (hc : c ∈ (t.context x).children) (helse : c.systemId ≠ t.id) :
    c.id ∉ t.actors ∧ ∃ e, t.getRemoteChild c.id = some e ∧ e ∈ t.remoteChildren ∧
      e.childRef = c ∧ e.parentRef.id = x := by
  obtain ⟨e, he, rfl, hparent⟩ := h.elsewhere x hx c (.inl hc) helse
  have hknown := h.sound.entries e he
  refine ⟨fun hlive => h.sound.ne_remote hlive hknown rfl, e, ?_, he, rfl, hparent⟩
  cases hfound : t.getRemoteChild e.childRef.id with
  | none =>
      have hnone := List.find?_eq_none.1 hfound e he
      simp at hnone
  | some e' =>
      obtain ⟨he', hid⟩ := mem_of_getRemoteChild hfound
      rw [hknown.unique e' he' hid]

/-- The children of an actor are those that have it as their parent. -/
theorem mem_childIds_iff (h : Family t) {x y : ActorId} (hy : y ∈ t.actors) :
    y ∈ childIds t x ↔ Parent t x y := by
  unfold childIds Parent
  obtain ⟨m, hm⟩ := h.sound.live_spawned y hy
  constructor
  · intro hmem
    split_ifs at hmem with hx
    · obtain ⟨c, hc, rfl⟩ := List.mem_map.1 hmem
      obtain ⟨-, -, p, hp, hid⟩ := ((h.sound.contexts x).children c hc).parent hm
      exact ⟨p, (h.sound.parentOf_of_live hy hm).trans hp, hid⟩
    · cases hmem
  · rintro ⟨p, hp, rfl⟩
    rw [if_pos (h.parents y hy p hp)]
    have hparent : m.parent = some p := (h.sound.parentOf_of_live hy hm).symm.trans hp
    exact List.mem_map.2 ⟨_, (h.sound.listed y hy (h.kept y hy) m p hm hparent).1,
      (h.sound.self y m hm).2⟩

theorem lt_of_mem_childIds (h : Family t) {x y : ActorId} (hy : y ∈ childIds t x) :
    x < y ∧ y < t.nextId := by
  unfold childIds at hy
  split_ifs at hy
  · obtain ⟨c, hc, rfl⟩ := List.mem_map.1 hy
    exact ⟨h.older x c hc, ((h.sound.contexts x).children c hc).lt⟩
  · cases hy

/-- A child has one parent. -/
theorem unique_parent (h : Family t) {x x' y : ActorId} (hy : y ∈ childIds t x)
    (hy' : y ∈ childIds t x') : x = x' := by
  unfold childIds at hy hy'
  split_ifs at hy hy' with hx hx'
  · obtain ⟨c, hc, rfl⟩ := List.mem_map.1 hy
    obtain ⟨c', hc', hid⟩ := List.mem_map.1 hy'
    have href := (h.sound.contexts x).children c hc
    have href' := (h.sound.contexts x').children c' hc'
    cases hm : t.spawned c.id with
    | some m =>
        obtain ⟨-, -, p, hp, hpid⟩ := href.parent hm
        obtain ⟨-, -, p', hp', hpid'⟩ := href'.parent (hid ▸ hm)
        rw [hp] at hp'
        cases hp'
        exact hpid.symm.trans hpid'
    | none =>
        have helse : ∀ d : ActorRef N, ∀ z, ChildRef t z d → d.id = c.id → d.systemId ≠ t.id := by
          rintro d z hd hid hhere
          obtain ⟨-, m, _, hm', -⟩ := hd.here hhere
          rw [hid, hm] at hm'
          cases hm'
        obtain ⟨-, e, -, he, rfl, hp⟩ := h.child_elsewhere hx hc (helse c x href rfl)
        obtain ⟨-, e', -, he', rfl, hp'⟩ := h.child_elsewhere hx' hc' (helse c' x' href' hid)
        have heq := (h.sound.entries e he).unique e' he' hid
        exact hp.symm.trans (heq ▸ hp')
  all_goals first | cases hy | cases hy'

theorem nodup_childIds (h : Family t) (x : ActorId) : (childIds t x).Nodup := by
  unfold childIds
  split_ifs
  · exact (h.sound.contexts x).children_nodup
  · exact List.nodup_nil

end Family

theorem live_of_descends (h : Family t) {x y : ActorId} (hy : Descends t x y)
    (hx : x ∈ t.actors) : y ∈ t.actors := by
  cases hy with
  | refl => exact hx
  | tail _ hlast =>
      obtain ⟨p, hp, -⟩ := hlast
      exact (h.sound.live_of_parentOf hp).1

/-- The lists and the metadata give the same trees. -/
theorem below_iff (h : Family t) {x y : ActorId} (hy : y ∈ t.actors) :
    Forest.Below (childIds t) x y ↔ Descends t x y := by
  constructor
  · intro hbelow
    induction hbelow with
    | refl => exact .refl
    | @tail d y _ hlast ih =>
        have hd : d ∈ t.actors := by
          unfold childIds at hlast
          split_ifs at hlast with hd
          · exact hd
          · cases hlast
        exact .tail (ih hd) ((h.mem_childIds_iff hy).1 hlast)
  · intro hdescends
    clear hy
    induction hdescends with
    | refl => exact .refl
    | tail _ hlast ih =>
        obtain ⟨p, hp, hid⟩ := hlast
        exact .tail ih ((h.mem_childIds_iff (h.sound.live_of_parentOf hp).1).2 ⟨p, hp, hid⟩)

end

/-! ## The order in which a tree is stopped -/

section
variable [DecidableEq N] {t : Tables N V}

/-- What is stopped before an actor; what is below children on other nodes is not known. -/
def kids (t : Tables N V) (c : ActorRef N) : List (ActorRef N) :=
  if c.systemId = t.id then (t.context c.id).children else []

/-- The reference is in the set of a live actor. -/
def Listed (t : Tables N V) (c : ActorRef N) : Prop :=
  ∃ x ∈ t.actors, c ∈ (t.context x).children

open Forest (PostOrder Below exists_postOrder)

namespace Family

omit [DecidableEq N] in
theorem listed_here (h : Family t) {c : ActorRef N} (hc : Listed t c)
    (hhere : c.systemId = t.id) : c.id ∈ t.actors ∧ c = t.self c.id := by
  obtain ⟨x, hx, hc⟩ := hc
  exact h.child_here hx hc hhere

omit [DecidableEq N] in
theorem listed_elsewhere (h : Family t) {c : ActorRef N} (hc : Listed t c)
    (helse : c.systemId ≠ t.id) : c.id ∉ t.actors := by
  obtain ⟨x, hx, hc⟩ := hc
  exact (h.child_elsewhere hx hc helse).1

theorem childIds_listed (h : Family t) {c : ActorRef N} (hc : Listed t c) :
    childIds t c.id = (kids t c).map (·.id) := by
  unfold childIds kids
  by_cases hhere : c.systemId = t.id
  · rw [if_pos (h.listed_here hc hhere).1, if_pos hhere]
  · rw [if_neg (h.listed_elsewhere hc hhere), if_neg hhere, List.map_nil]

theorem order_exists (h : Family t) (cs : List (ActorRef N)) :
    ∃ order, PostOrder (kids t) cs order := by
  refine exists_postOrder (fun c => t.nextId - c.id) (fun a b hb => ?_) cs
  unfold kids at hb
  split_ifs at hb
  · have hlt := ((h.sound.contexts a.id).children b hb).lt
    have hless := h.older a.id b hb
    exact Nat.sub_lt_sub_left (Nat.lt_trans hless hlt) hless
  · cases hb

theorem order_listed (h : Family t) {cs order : List (ActorRef N)}
    (horder : PostOrder (kids t) cs order) (hcs : ∀ c ∈ cs, Listed t c) :
    ∀ c ∈ order, Listed t c := by
  induction horder with
  | nil => exact fun _ hc => absurd hc List.not_mem_nil
  | @cons c cs below rest _ _ ihbelow ihrest =>
      intro d hd
      rcases List.mem_append.1 hd with hd | hd
      · refine ihbelow (fun e he => ?_) d hd
        unfold kids at he
        split_ifs at he with hhere
        · exact ⟨c.id, (h.listed_here (hcs c (by simp)) hhere).1, he⟩
        · cases he
      · rcases List.mem_cons.1 hd with rfl | hd
        · exact hcs d (by simp)
        · exact ihrest (fun e he => hcs e (by simp [he])) d hd

theorem order_ids (h : Family t) {cs order : List (ActorRef N)}
    (horder : PostOrder (kids t) cs order) (hcs : ∀ c ∈ cs, Listed t c) :
    PostOrder (childIds t) (cs.map (·.id)) (order.map (·.id)) :=
  horder.map fun c hc => h.childIds_listed (h.order_listed horder hcs c hc)

omit [DecidableEq N] in
theorem rank_childIds (h : Family t) (x y : ActorId) (hy : y ∈ childIds t x) :
    t.nextId - y < t.nextId - x := by
  obtain ⟨hless, hlt⟩ := h.lt_of_mem_childIds hy
  exact Nat.sub_lt_sub_left (Nat.lt_trans hless hlt) hless

/-- The trees of children of one actor have no actor twice, and not that actor. -/
theorem order_nodup (h : Family t) {x : ActorId} (hx : x ∈ t.actors)
    {cs order : List (ActorRef N)} (horder : PostOrder (kids t) cs order)
    (hcs : ∀ c ∈ cs, c ∈ (t.context x).children) (hnodup : (cs.map (·.id)).Nodup) :
    (order.map (·.id)).Nodup ∧ x ∉ order.map (·.id) := by
  have hids := h.order_ids horder fun c hc => ⟨x, hx, hcs c hc⟩
  have hchild : ∀ y ∈ cs.map (·.id), y ∈ childIds t x := by
    intro y hy
    obtain ⟨c, hc, rfl⟩ := List.mem_map.1 hy
    rw [childIds, if_pos hx]
    exact List.mem_map.2 ⟨c, hcs c hc, rfl⟩
  have hnot : ∀ y ∈ cs.map (·.id), ¬ Below (childIds t) y x := by
    intro y hy hbelow
    have hle := hbelow.rank_le h.rank_childIds
    have hlt := h.rank_childIds x y (hchild y hy)
    exact absurd hlt (Nat.not_lt.2 hle)
  constructor
  · refine hids.nodup _ h.rank_childIds (fun _ _ _ => h.unique_parent) h.nodup_childIds hnodup
      fun y hy z hz hbelow => ?_
    rcases Relation.ReflTransGen.cases_tail hbelow with heq | ⟨d, hyd, hdz⟩
    · exact heq.symm
    · exact absurd (h.unique_parent hdz (hchild z hz) ▸ hyd) (hnot y hy)
  · rw [hids.mem_iff]
    rintro ⟨y, hy, hbelow⟩
    exact hnot y hy hbelow

/-- The actors of a tree are those that descend from its root. -/
theorem mem_order_iff (h : Family t) {r : ActorRef N} (hr : r.id ∈ t.actors)
    {below : List (ActorRef N)} (horder : PostOrder (kids t) (t.context r.id).children below)
    (y : ActorId) :
    y ∈ (below ++ [r]).map (·.id) ∧ y ∈ t.actors ↔ Descends t r.id y := by
  have hids := h.order_ids horder fun c hc => ⟨r.id, hr, hc⟩
  have hchildren : (t.context r.id).children.map (·.id) = childIds t r.id := (if_pos hr).symm
  rw [List.map_append, List.map_singleton, List.mem_append, List.mem_singleton, hids.mem_iff,
    hchildren]
  constructor
  · rintro ⟨⟨c, hc, hbelow⟩ | rfl, hy⟩
    · exact (below_iff h hy).1 (.head hc hbelow)
    · exact .refl
  · intro hdescends
    have hy := live_of_descends h hdescends hr
    refine ⟨?_, hy⟩
    rcases Relation.ReflTransGen.cases_head ((below_iff h hy).2 hdescends) with
      rfl | ⟨c, hc, hbelow⟩
    · exact .inr rfl
    · exact .inl ⟨c, hc, hbelow⟩

end Family

end

/-! ## Trees grow -/

section
variable {t : Tables N V}

theorem family_init (id : N) : Family (Tables.init id : Tables N V) where
  sound := sound_init id
  here := fun _ hq => absurd hq (Finset.notMem_empty _)
  elsewhere := fun _ hq => absurd hq (Finset.notMem_empty _)
  parents := fun _ hx => absurd hx (Finset.notMem_empty _)
  kept := fun _ hx => absurd hx (Finset.notMem_empty _)
  left := fun _ hx => absurd hx (Finset.notMem_empty _)
  older := fun _ _ hc => absurd hc List.not_mem_nil
  started := fun _ => .nil

namespace Family

/-- The new child of a list is younger than the others. -/
theorem pairwise_append (h : Family t) (x : ActorId) {c : ActorRef N} (hc : c.id = t.nextId) :
    (((t.context x).children ++ [c]).map (·.id)).Pairwise (· < ·) := by
  rw [List.map_append, List.pairwise_append]
  refine ⟨h.started x, List.pairwise_singleton _ _, fun y hy z hz => ?_⟩
  obtain ⟨d, hd, rfl⟩ := List.mem_map.1 hy
  rw [List.map_singleton, List.mem_singleton] at hz
  rw [hz, hc]
  exact ((h.sound.contexts x).children d hd).lt

theorem parentOf_register (h : Family t) {m : ActorMetadata N V} (first : Option ActorId)
    (hm : ∀ p, m.parent = some p → p.id ∈ t.actors) :
    ∀ x ∈ (t.register m first).actors, ∀ p, (t.register m first).parentOf x = some p →
      p.id ∈ (t.register m first).actors := by
  intro x hx p hp
  by_cases hnew : x = t.nextId
  · unfold Tables.parentOf at hp
    rw [hnew, show (t.register m first).actorMetadata t.nextId = some m from
      Function.update_self _ _ _] at hp
    exact Finset.mem_insert_of_mem (hm p hp)
  · unfold Tables.parentOf at hp
    rw [show (t.register m first).actorMetadata x = t.actorMetadata x from
      Function.update_of_ne hnew _ _] at hp
    exact Finset.mem_insert_of_mem
      (h.parents x ((Finset.mem_insert.1 hx).resolve_left hnew) p hp)

theorem kept_register (h : Family t) (m : ActorMetadata N V) (first : Option ActorId) :
    ∀ x ∈ (t.register m first).actors, x ∉ (t.register m first).detached := by
  intro x hx hin
  rcases Finset.mem_insert.1 hx with rfl | hx
  · exact absurd (h.left _ hin) (Nat.lt_irrefl _)
  · exact h.kept x hx hin

theorem left_register (h : Family t) (m : ActorMetadata N V) (first : Option ActorId) :
    ∀ x ∈ (t.register m first).detached, x < (t.register m first).nextId :=
  fun x hx => Nat.lt_succ_of_lt (h.left x hx)

theorem children_register (m : ActorMetadata N V) (first : Option ActorId) (x : ActorId) :
    ((t.register m first).context x).children =
      if x = t.nextId then [] else (t.context x).children := by
  split_ifs with hx
  · rw [hx, show (t.register m first).context t.nextId = ⟨[], []⟩ from
      Function.update_self _ _ _]
  · rw [show (t.register m first).context x = t.context x from Function.update_of_ne hx _ _]

theorem older_register (h : Family t) (m : ActorMetadata N V) (first : Option ActorId)
    (x : ActorId) : ∀ c ∈ ((t.register m first).context x).children, x < c.id := by
  rw [children_register]
  split_ifs
  · exact fun c hc => absurd hc List.not_mem_nil
  · exact h.older x

theorem started_register (h : Family t) (m : ActorMetadata N V) (first : Option ActorId)
    (x : ActorId) : (((t.register m first).context x).children.map (·.id)).Pairwise (· < ·) := by
  rw [children_register]
  split_ifs
  · exact .nil
  · exact h.started x

theorem spawn (h : Family t) (actorClass : String) (options : SpawnOptions V)
    {first : Option ActorId} (hfirst : Inherits t first ⟨actorClass, options, none⟩) :
    Family (t.spawn actorClass options first) where
  sound := sound_spawn h.sound hfirst
  here := listedHere_register h.here
  elsewhere := listedElsewhere_register h.elsewhere
  parents := h.parentOf_register _ nofun
  kept := h.kept_register _ _
  left := h.left_register _ _
  older := h.older_register _ _
  started := h.started_register _ _

theorem context_spawnChild {p : ActorRef N} (hp : p.id ∈ t.actors) (hlt : p.id < t.nextId)
    (actorClass : String) (options : SpawnOptions V) (first : Option ActorId) (x : ActorId) :
    (t.spawnChild p actorClass options first).context x =
      if x = p.id then ⟨(t.context x).children ++ [⟨t.id, t.nextId, options.name, 0⟩],
        (t.context x).childOrder ++ [⟨t.id, t.nextId, options.name, 0⟩]⟩
      else (t.register ⟨actorClass, options, some p⟩ first).context x := by
  unfold Tables.spawnChild
  rw [if_pos hp]
  by_cases hx : x = p.id
  · subst hx
    simp only [Tables.listChild, Function.update_self, if_true, context_register_of_lt hlt]
  · simp only [Tables.listChild, Function.update_of_ne hx, if_neg hx]

theorem spawnChild (h : Family t) {p : ActorRef N} {actorClass : String}
    {options : SpawnOptions V} {first : Option ActorId}
    (hfirst : Inherits t first ⟨actorClass, options, some p⟩) :
    Family (t.spawnChild p actorClass options first) := by
  by_cases hp : p.id ∈ t.actors
  · have hlt := h.lt hp
    have heq : t.spawnChild p actorClass options first =
        (t.register ⟨actorClass, options, some p⟩ first).listChild p.id
          ⟨t.id, t.nextId, options.name, 0⟩ := if_pos hp
    have hcontext := context_spawnChild hp hlt actorClass options first
    have hparents := h.parentOf_register (m := ⟨actorClass, options, some p⟩) first
      fun q hq => by
        cases hq
        exact hp
    refine ⟨sound_spawnChild h.sound hfirst, listedHere_spawnChild h.here h.left,
      listedElsewhere_spawnChild h.elsewhere, ?_, ?_, ?_, fun x c hc => ?_, fun x => ?_⟩
    · rw [heq]
      exact hparents
    · rw [heq]
      exact h.kept_register ⟨actorClass, options, some p⟩ first
    · rw [heq]
      exact h.left_register ⟨actorClass, options, some p⟩ first
    · rw [hcontext] at hc
      split_ifs at hc with hx
      · rcases List.mem_append.1 hc with hc | hc
        · exact h.older x c hc
        · rw [List.mem_singleton.1 hc, hx]
          exact hlt
      · exact h.older_register _ _ x c hc
    · rw [hcontext]
      split_ifs
      · exact h.pairwise_append x rfl
      · exact h.started_register _ _ x
  · rw [show t.spawnChild p actorClass options first = t from if_neg hp]
    exact h

end Family

end

/-! ## An actor without children leaves -/

section
variable [DecidableEq N] {t : Tables N V}

/-- To leave the lists of a parent changes nothing but lists. -/
theorem detach_eq (t : Tables N V) (r : ActorRef N) :
    t.detach r = { t with
      detached := insert r.id t.detached
      context := (t.detach r).context } := by
  unfold Tables.detach
  dsimp only
  split
  · rfl
  · split_ifs <;> rfl

omit [DecidableEq N] in
/-- Of references with different ids `splice` takes off all that have the id. -/
theorem eraseP_eq_filter {cs : List (ActorRef N)} (hnodup : (cs.map (·.id)).Nodup) {x : ActorId} :
    cs.eraseP (fun d => d.id = x) = cs.filter fun d => d.id ∉ [x] := by
  induction cs with
  | nil => rfl
  | cons d cs ih =>
      rw [List.map_cons, List.nodup_cons] at hnodup
      by_cases hd : d.id = x
      · have hrest : ∀ e ∈ cs, e.id ≠ x := fun e he heq =>
          hnodup.1 (hd ▸ heq ▸ List.mem_map_of_mem he)
        rw [List.eraseP_cons_of_pos (by simpa using hd), List.filter_cons_of_neg (by simp [hd]),
          List.filter_eq_self.2 fun e he => by simpa using hrest e he]
      · rw [List.eraseP_cons_of_neg (by simpa using hd), List.filter_cons_of_pos (by simp [hd]),
          ih hnodup.2]

/-- `delete` and `splice` both take off what has the id. -/
theorem unlisted_eq_spared {p : ActorId} {ctx : ActorContext N} (hctx : SoundContext t p ctx)
    {c : ActorRef N} (hown : ∀ d ∈ ctx.children, d.id = c.id → d = c) :
    (⟨ctx.children.erase c, ctx.childOrder.eraseP fun d => d.id = c.id⟩ : ActorContext N) =
      spared [c.id] ctx := by
  have herase : ctx.children.erase c = ctx.children.filter fun d => d.id ∉ [c.id] := by
    rw [(List.Nodup.of_map _ hctx.children_nodup).erase_eq_filter]
    refine List.filter_congr fun d hd => ?_
    by_cases heq : d = c
    · simp [heq]
    · have hid : d.id ≠ c.id := fun hid => heq (hown d hd hid)
      simp [heq, hid]
  rw [herase, eraseP_eq_filter hctx.order_nodup]
  rfl

omit [DecidableEq N] in
/-- Lists without any of the actors stay as they are. -/
theorem spared_eq_self {x : ActorId} {ids : List ActorId}
    (h : ∀ c, OnLists t x c → c.id ∉ ids) : spared ids (t.context x) = t.context x := by
  have hchildren := List.filter_eq_self (p := fun c : ActorRef N => decide (c.id ∉ ids)).2
    fun c hc => decide_eq_true (h c (.inl hc))
  have horder := List.filter_eq_self (p := fun c : ActorRef N => decide (c.id ∉ ids)).2
    fun c hc => decide_eq_true (h c (.inr hc))
  rw [spared, hchildren, horder]

namespace Family

omit [DecidableEq N] in
/-- A live actor is on the lists of its parent only, through its own reference. -/
theorem listed_parent (h : Family t) {x : ActorId} {c : ActorRef N} (hc : OnLists t x c)
    (hlive : c.id ∈ t.actors) :
    c = t.self c.id ∧ ∃ p, t.parentOf c.id = some p ∧ p.id = x := by
  obtain ⟨m, hm⟩ := h.sound.live_spawned _ hlive
  obtain ⟨-, hself, p, hp, hid⟩ := (hc.childRef h.sound).parent hm
  exact ⟨hself, p, (h.sound.parentOf_of_live hlive hm).trans hp, hid⟩

/-- An actor leaves the lists of its parent, and is on no others. -/
theorem context_detach (h : Family t) {r : ActorRef N} (hr : r.id ∈ t.actors)
    (hown : r = t.self r.id) (x : ActorId) :
    (t.detach r).context x = spared [r.id] (t.context x) := by
  have habsent : (∀ p, t.parentOf r.id = some p → p.id ≠ x) →
      spared [r.id] (t.context x) = t.context x := by
    intro hnot
    refine spared_eq_self fun c hc hmem => ?_
    rw [List.mem_singleton] at hmem
    obtain ⟨-, p, hp, hid⟩ := h.listed_parent hc (hmem ▸ hr)
    exact hnot p (hmem ▸ hp) hid
  unfold Tables.detach
  cases hparent : t.parentOf r.id with
  | none => exact (habsent fun p hp => nomatch hparent.symm.trans hp).symm
  | some p =>
      dsimp only
      rw [if_pos (h.parents _ hr p hparent)]
      by_cases hx : x = p.id
      · subst hx
        simp only [Tables.unlistChild, Function.update_self]
        refine unlisted_eq_spared (h.sound.contexts p.id) fun d hd hid => ?_
        rw [hown, ← hid]
        exact (h.listed_parent (.inl hd) (hid ▸ hr)).1
      · simp only [Tables.unlistChild, Function.update_of_ne hx]
        refine (habsent fun p' hp' heq => ?_).symm
        rw [hparent] at hp'
        cases hp'
        exact hx heq.symm

omit [DecidableEq N] in
/-- What is left of lists is in the same order, and no older. -/
theorem of_spared {t' : Tables N V} (h : Family t) (hsound : Sound t') (hhere : ListedHere t')
    (helse : ListedElsewhere t')
    (hparents : ∀ x ∈ t'.actors, ∀ p, t'.parentOf x = some p → p.id ∈ t'.actors)
    (hkept : ∀ x ∈ t'.actors, x ∉ t'.detached) (hleft : ∀ x ∈ t'.detached, x < t'.nextId)
    (hlists : ∀ x, (t'.context x).children.Sublist (t.context x).children) : Family t' :=
  ⟨hsound, hhere, helse, hparents, hkept, hleft,
    fun x c hc => h.older x c ((hlists x).subset hc),
    fun x => (h.started x).sublist ((hlists x).map _)⟩

theorem children_detach (r : ActorRef N) (x : ActorId) :
    ((t.detach r).context x).children.Sublist (t.context x).children := by
  unfold Tables.detach
  dsimp only
  split
  · exact .refl _
  next p _ =>
    split_ifs
    · by_cases hx : x = p.id
      · subst hx
        simp only [Tables.unlistChild, Function.update_self]
        exact List.erase_sublist
      · simp only [Tables.unlistChild, Function.update_of_ne hx]
        exact .refl _
    · exact .refl _

/-- An actor that has no children any more is gone. -/
theorem depart (h : Family t) {r : ActorRef N} (hr : r.id ∈ t.actors) (hown : r = t.self r.id)
    (hnone : (t.context r.id).children = []) : Family ((t.detach r).remove r.id) := by
  have hhere := listedHere_detach h.sound h.here fun _ _ _ => hown
  have hdetached : (t.detach r).detached = insert r.id t.detached := detach_detached t r
  refine h.of_spared (sound_remove (sound_detach h.sound r) r.id)
    (listedHere_remove hhere fun q hq c hc hc' heq => ?_)
    (listedElsewhere_remove (listedElsewhere_detach h.sound h.elsewhere r) r.id) ?_ ?_ ?_
    (children_detach r)
  · refine (hhere q hq c hc hc').2 ?_
    rw [hdetached, heq]
    exact Finset.mem_insert_self _ _
  · intro x hx p hp
    obtain ⟨hne, hx⟩ := Finset.mem_erase.1 hx
    rw [detach_actors] at hx
    have hold : t.parentOf x = some p := by
      rw [detach_eq] at hp
      unfold Tables.parentOf Tables.remove at hp
      dsimp only at hp
      rwa [Function.update_of_ne hne] at hp
    refine Finset.mem_erase.2 ⟨fun heq => ?_, by rw [detach_actors]; exact h.parents x hx p hold⟩
    obtain ⟨m, hm⟩ := h.sound.live_spawned x hx
    have hparent : m.parent = some p := (h.sound.parentOf_of_live hx hm).symm.trans hold
    have hlisted := (h.sound.listed x hx (h.kept x hx) m p hm hparent).1
    rw [heq, hnone] at hlisted
    exact absurd hlisted List.not_mem_nil
  · intro x hx hin
    obtain ⟨hne, hx⟩ := Finset.mem_erase.1 hx
    rw [detach_actors] at hx
    change x ∈ (t.detach r).detached at hin
    rw [hdetached] at hin
    exact h.kept x hx ((Finset.mem_insert.1 hin).resolve_left hne)
  · intro x hx
    change x ∈ (t.detach r).detached at hx
    rw [hdetached] at hx
    refine Nat.lt_of_lt_of_le ?_ (extends_detach t r).nextId
    rcases Finset.mem_insert.1 hx with rfl | hx
    · exact h.lt hr
    · exact h.left x hx

end Family

end

end Libeam.Proofs.Planting
