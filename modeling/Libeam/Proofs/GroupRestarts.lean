import Libeam.Proofs.PlacedStarts
/-!
# A child among its siblings

A strategy stops children and starts them again.  Whatever it does to the siblings of a
child leaves the place of the child as it is, and a group that the child belongs to
leaves the old instance nowhere and a new one where the old one was.
-/

namespace Libeam.Proofs.GroupRestarts

open Libeam.System (ActorId)
open Supervision Supervision.Nodes Places PlacedStarts

variable {N V : Type} {s s' : Nodes N V} {p : ActorId}

/-! ## A parent and its children -/

/-- `p` is there and nobody's child, its children have none, and ids to come are in no
table. -/
structure Household (s : Nodes N V) (p : ActorId) : Prop where
  root : ∃ m, place s p p = .root m
  self : (s.self p).id = p
  leaf : ∀ q ≠ p, (s.context q).children = []
  fresh : ∀ x, s.nextId ≤ x → place s p x = .gone
  notified_lt : ∀ r ∈ s.notified, r.1 < s.nextId

namespace Household

theorem live (h : Household s p) : p ∈ s.actors := by
  obtain ⟨m, hm⟩ := h.root
  exact live_of_place hm trivial

theorem lt (h : Household s p) : p < s.nextId := by
  by_contra hge
  have hgone := h.fresh p (Nat.not_lt.1 hge)
  have hfalse : (place s p p).live = False := congrArg Place.live hgone
  exact hfalse ▸ h.live

theorem lt_of_place (h : Household s p) {x : ActorId} (hx : place s p x ≠ .gone) :
    x < s.nextId := by
  by_contra hge
  exact hx (h.fresh x (Nat.not_lt.1 hge))

theorem keeps {X : ActorId → Prop} (h : Household s p) (k : Keeps p X s s') (hp : ¬ X p)
    (hX : ∀ x, X x → x < s.nextId) : Household s' p where
  root := by
    rw [k.place p hp (.inl h.lt)]
    exact h.root
  self := by
    rw [k.tables.self p h.lt]
    exact h.self
  leaf := k.leaf h.leaf
  fresh := by
    intro x hx
    have hle := Nat.le_trans k.tables.nextId hx
    rw [k.place x (fun hin => Nat.not_lt.2 hle (hX x hin)) (.inr hx)]
    exact h.fresh x hle
  notified_lt := by
    intro r hr
    refine Nat.lt_of_lt_of_le ?_ k.tables.nextId
    exact (k.notified r hr).elim (h.notified_lt r) (hX r.1)

/-- What is on the list of the parent has a place as a child. -/
theorem ne_of_mem_childOrder (h : Household s p) {c : ActorRef N}
    (hc : c ∈ (s.context p).childOrder) :
    c.id ≠ p ∧ c.id < s.nextId ∧ place s p c.id ≠ .gone := by
  have hlists : (place s p c.id).lists.2 ≠ 0 := by
    intro hzero
    have hmem : c ∈ (s.context p).childOrder.filter (·.id = c.id) :=
      List.mem_filter.2 ⟨hc, by simp⟩
    rw [(Multiset.coe_eq_zero _).1 hzero] at hmem
    exact nomatch hmem
  have hgone : place s p c.id ≠ .gone := fun heq => hlists (heq ▸ rfl)
  refine ⟨fun heq => ?_, h.lt_of_place hgone, hgone⟩
  obtain ⟨m, hm⟩ := h.root
  rw [heq, hm] at hlists
  exact hlists rfl

end Household

/-! ## One operation after the other -/

section
variable {β : Type} {f : Nodes N V → β → Nodes N V} {key : β → ActorId}

theorem keeps_foldl (hf : ∀ s b, Household s p → key b ≠ p → Keeps p (· = key b) s (f s b))
    (bs : List β) (s : Nodes N V) (h : Household s p)
    (hbs : ∀ b ∈ bs, key b ≠ p ∧ key b < s.nextId) :
    Keeps p (fun x => ∃ b ∈ bs, key b = x) s (bs.foldl f s) := by
  induction bs generalizing s with
  | nil => exact Keeps.refl s
  | cons b bs ih =>
      obtain ⟨hne, hlt⟩ := hbs b List.mem_cons_self
      have hone := hf s b h hne
      have hnext := h.keeps hone (fun heq => hne heq.symm) fun x hx => hx ▸ hlt
      have hrest := ih (f s b) hnext fun c hc =>
        ⟨(hbs c (List.mem_cons_of_mem _ hc)).1,
          Nat.lt_of_lt_of_le (hbs c (List.mem_cons_of_mem _ hc)).2 hone.tables.nextId⟩
      exact (hone.mono fun x hx => ⟨b, List.mem_cons_self, hx.symm⟩).trans
        (hrest.mono fun x ⟨c, hc, hx⟩ => ⟨c, List.mem_cons_of_mem _ hc, hx⟩)

theorem Household.foldl (hf : ∀ s b, Household s p → key b ≠ p → Keeps p (· = key b) s (f s b))
    {bs : List β} (h : Household s p) (hbs : ∀ b ∈ bs, key b ≠ p ∧ key b < s.nextId) :
    Household (bs.foldl f s) p :=
  h.keeps (keeps_foldl hf bs s h hbs) (fun ⟨b, hb, heq⟩ => (hbs b hb).1 heq)
    fun _ ⟨b, hb, heq⟩ => heq ▸ (hbs b hb).2

/-- A list with one element for `k` around that element. -/
theorem split_of_filter {b : β} {k : ActorId} {bs : List β}
    (h : bs.filter (key · = k) = [b]) :
    ∃ before after, bs = before ++ b :: after ∧ key b = k ∧ (∀ d ∈ before, key d ≠ k) ∧
      ∀ d ∈ after, key d ≠ k := by
  obtain ⟨before, after, rfl, hbefore, hb, hafter⟩ := List.filter_eq_cons_iff.1 h
  refine ⟨before, after, rfl, of_decide_eq_true hb,
    fun d hd heq => hbefore d hd (decide_eq_true heq), fun d hd heq => ?_⟩
  exact List.filter_eq_nil_iff.1 hafter d hd (decide_eq_true heq)

theorem apart_cons {k : ActorId} {rest : List ActorId} {bs : List β}
    (hk : ∀ d ∈ bs, key d ≠ k) (hrest : ∀ d ∈ bs, key d ∉ rest) :
    ∀ x ∈ k :: rest, ¬ ∃ d ∈ bs, key d = x := by
  rintro x hx ⟨d, hd, rfl⟩
  rcases List.mem_cons.1 hx with hx | hx
  · exact hk d hd hx
  · exact hrest d hd hx

end

/-! ## One child -/

/-- The latest instance of the child is `k`; the earlier ones, `rest`, are in no table. -/
structure Child (s : Nodes N V) (p first k : ActorId) (rest : List ActorId) : Prop where
  instances : s.instances first = k :: rest
  lt : ∀ x ∈ k :: rest, x < s.nextId
  ne : ∀ x ∈ k :: rest, x ≠ p
  gone : ∀ x ∈ rest, place s p x = .gone
  untold : ∀ r ∈ s.notified, r.1 ≠ k

/-- All instances that the child has had are in no table. -/
structure Past (s : Nodes N V) (p first : ActorId) (ids : List ActorId) : Prop where
  instances : s.instances first = ids
  lt : ∀ x ∈ ids, x < s.nextId
  ne : ∀ x ∈ ids, x ≠ p
  gone : ∀ x ∈ ids, place s p x = .gone

/-- What takes the place of none of its instances is no instance of a child. -/
theorem instances_append {first : ActorId} {ids : List ActorId} {rs : List (ActorId × ActorId)}
    (hs : s.instances first = ids) (heq : s'.replaced = s.replaced ++ rs)
    (hrs : ∀ r ∈ rs, r.1 ∉ ids) : s'.instances first = ids := by
  have hfold : rs.foldl (fun ids r => if r.1 ∈ ids then r.2 :: ids else ids) ids = ids := by
    clear heq
    induction rs with
    | nil => rfl
    | cons r rs ih =>
        rw [List.foldl_cons, if_neg (hrs r List.mem_cons_self)]
        exact ih fun q hq => hrs q (List.mem_cons_of_mem r hq)
  unfold Nodes.instances at hs ⊢
  rw [heq, List.foldl_append, hs, hfold]

theorem instances_replaced {first x y : ActorId} {ids : List ActorId}
    (hs : s.instances first = ids) (heq : s'.replaced = s.replaced ++ [(x, y)])
    (hx : x ∈ ids) : s'.instances first = y :: ids := by
  unfold Nodes.instances at hs ⊢
  rw [heq, List.foldl_append, hs, List.foldl_cons, if_pos hx]
  rfl

theorem Child.keeps {X : ActorId → Prop} {first k : ActorId} {rest : List ActorId}
    (h : Child s p first k rest) (hkeeps : Keeps p X s s') (hX : ∀ x ∈ k :: rest, ¬ X x) :
    Child s' p first k rest where
  instances := by
    obtain ⟨rs, heq, hrs⟩ := hkeeps.replaced
    exact instances_append h.instances heq fun r hr hin => hX r.1 hin (hrs r hr).1
  lt := fun x hx => Nat.lt_of_lt_of_le (h.lt x hx) hkeeps.tables.nextId
  ne := h.ne
  gone := by
    intro x hx
    have hmem := List.mem_cons_of_mem k hx
    rw [hkeeps.place x (hX x hmem) (.inl (h.lt x hmem))]
    exact h.gone x hx
  untold := by
    intro r hr heq
    rcases hkeeps.notified r hr with hr | hr
    · exact h.untold r hr heq
    · exact hX k List.mem_cons_self (heq ▸ hr)

theorem Past.keeps {X : ActorId → Prop} {first : ActorId} {ids : List ActorId}
    (h : Past s p first ids) (hkeeps : Keeps p X s s') (hX : ∀ x ∈ ids, ¬ X x) :
    Past s' p first ids where
  instances := by
    obtain ⟨rs, heq, hrs⟩ := hkeeps.replaced
    exact instances_append h.instances heq fun r hr hin => hX r.1 hin (hrs r hr).1
  lt := fun x hx => Nat.lt_of_lt_of_le (h.lt x hx) hkeeps.tables.nextId
  ne := h.ne
  gone := by
    intro x hx
    rw [hkeeps.place x (hX x hx) (.inl (h.lt x hx))]
    exact h.gone x hx

/-- The latest instance of a child is stopped. -/
theorem Child.past {first k : ActorId} {rest : List ActorId} (h : Child s p first k rest)
    (hkeeps : Keeps p (· = k) s s') (hsame : s'.replaced = s.replaced) (hk : k ∉ rest)
    (hgone : place s' p k = .gone) : Past s' p first (k :: rest) where
  instances :=
    instances_append h.instances (hsame.trans (List.append_nil _).symm) fun _ hr => nomatch hr
  lt := fun x hx => Nat.lt_of_lt_of_le (h.lt x hx) hkeeps.tables.nextId
  ne := h.ne
  gone := by
    intro x hx
    rcases List.mem_cons.1 hx with rfl | hrest
    · exact hgone
    · rw [hkeeps.place x (fun heq => hk (heq ▸ hrest)) (.inl (h.lt x hx))]
      exact h.gone x hrest

/-- The next id takes the place of the last instance of a child. -/
theorem child_renewed {first k : ActorId} {rest : List ActorId} (h : Household s p)
    (hinstances : s.instances first = k :: rest) (hlt : ∀ x ∈ k :: rest, x < s.nextId)
    (hne : ∀ x ∈ k :: rest, x ≠ p) (hkeeps : Keeps p (· = k) s s')
    (hreplaced : s'.replaced = s.replaced ++ [(k, s.nextId)]) (hnext : s'.nextId = s.nextId + 1)
    (hgone : ∀ x ∈ k :: rest, place s' p x = .gone) :
    Child s' p first s.nextId (k :: rest) := by
  constructor
  · exact instances_replaced hinstances hreplaced List.mem_cons_self
  · intro x hx
    rw [hnext]
    rcases List.mem_cons.1 hx with rfl | hx
    · exact Nat.lt_succ_self _
    · exact Nat.lt_succ_of_lt (hlt x hx)
  · intro x hx
    rcases List.mem_cons.1 hx with rfl | hx
    · exact Nat.ne_of_gt h.lt
    · exact hne x hx
  · exact hgone
  · intro r hr
    refine Nat.ne_of_lt ?_
    rcases hkeeps.notified r hr with hr | hr
    · exact h.notified_lt r hr
    · exact hr ▸ hlt k List.mem_cons_self

/-! ## The place of a child -/

/-- The way a strategy starts the child again. -/
def PlanOf (s : Nodes N V) (c : ChildSpec N V) (k : ActorId) : Planned N V → Prop
  | .onNode id metadata => c.node = s.id ∧ id = k ∧ metadata.actorClass = c.actorClass ∧
      metadata.options = c.options
  | .remote e => c.node ≠ s.id ∧ e.childRef.id = k ∧ e.actorClass = c.actorClass ∧
      e.childNodeId = c.node ∧ e.options = c.options

theorem PlanOf.congr {c : ChildSpec N V} {k : ActorId} {item : Planned N V}
    (h : PlanOf s c k item) (hid : s'.id = s.id) : PlanOf s' c k item := by
  cases item with
  | onNode id metadata => exact ⟨h.1.trans hid.symm, h.2⟩
  | remote e => exact ⟨fun heq => h.1 (heq.trans hid), h.2⟩

section
variable [DecidableEq N]

/-- The child has its place, as an instance of what it is started from. -/
def Placed (s : Nodes N V) (p : ActorId) (c : ChildSpec N V) (k : ActorId) : Prop :=
  ∃ parentRef : ActorRef N, parentRef.id = p ∧
    if c.node = s.id then
      (s.self k).id = k ∧
        place s p k = .here ⟨c.actorClass, c.options, some parentRef⟩ (s.self k)
    else
      place s p k = .away ⟨c.actorClass, c.options, none⟩
        ⟨⟨c.node, k, c.options.name, 0⟩, c.node, parentRef, c.actorClass, c.options⟩

variable {c : ChildSpec N V} {k : ActorId}

theorem Placed.keeps {X : ActorId → Prop} (h : Placed s p c k) (hkeeps : Keeps p X s s')
    (hX : ¬ X k) (hk : k < s.nextId) : Placed s' p c k := by
  obtain ⟨parentRef, hid, hplaced⟩ := h
  refine ⟨parentRef, hid, ?_⟩
  rw [hkeeps.tables.id, hkeeps.tables.self k hk, hkeeps.place k hX (.inl hk)]
  exact hplaced

/-- The id that a planned start replaces. -/
def replaces : Planned N V → ActorId
  | .onNode id _ => id
  | .remote e => e.childRef.id

theorem keeps_startPlanned {parent : ActorRef N} (h : Household s p) (hid : parent.id = p)
    (item : Planned N V) : Keeps p (· = replaces item) s (startPlanned parent s item) := by
  cases item with
  | onNode id metadata =>
      exact (keeps_spawnChild h.lt hid).mono fun x hx => (Option.some.inj hx).symm
  | remote e => exact (keeps_spawnChildRemote hid).mono fun x hx => (Option.some.inj hx).symm

theorem place_startPlanned_of_ne (hp : p < s.nextId) (parent : ActorRef N) (item : Planned N V)
    {x : ActorId} (hx : x ≠ s.nextId) :
    place (startPlanned parent s item) p x = place s p x := by
  cases item with
  | onNode id metadata => exact place_spawnChild_of_ne hp hx
  | remote e => exact place_spawnChildRemote_of_ne hx

/-- A spawn gives the next id the place of the child. -/
theorem placed_spawnChild {parentRef : ActorRef N} {old : Option ActorId} (h : Household s p)
    (hid : parentRef.id = p) (hnode : c.node = s.id) :
    Placed (s.spawnChild parentRef c.actorClass c.options old) p c s.nextId := by
  subst hid
  have hplace : place (s.spawnChild parentRef c.actorClass c.options old) parentRef.id s.nextId =
      _ := place_spawnChild_new h.lt h.live rfl (h.fresh s.nextId (Nat.le_refl _))
  have hself : (s.spawnChild parentRef c.actorClass c.options old).self s.nextId =
      ⟨s.id, s.nextId, c.options.name, 0⟩ := by
    rw [spawnChild_eq h.live]
    exact Function.update_self _ _ _
  have hkeeps : Keeps _ _ s (s.spawnChild parentRef c.actorClass c.options old) :=
    keeps_spawnChild h.lt rfl
  refine ⟨parentRef, rfl, ?_⟩
  rw [if_pos (hnode.trans hkeeps.tables.id.symm), hself, hplace]
  exact ⟨rfl, rfl⟩

theorem placed_spawnChildRemote {parentRef : ActorRef N} {old : Option ActorId}
    (h : Household s p) (hid : parentRef.id = p) (hnode : c.node ≠ s.id) :
    Placed (s.spawnChildRemote parentRef c.actorClass c.node c.options old) p c s.nextId := by
  have hplace : place (s.spawnChildRemote parentRef c.actorClass c.node c.options old) p s.nextId =
      _ := place_spawnChildRemote_new h.live hid (h.fresh s.nextId (Nat.le_refl _))
  have hkeeps : Keeps p _ s (s.spawnChildRemote parentRef c.actorClass c.node c.options old) :=
    keeps_spawnChildRemote hid
  refine ⟨parentRef, hid, ?_⟩
  rw [if_neg (fun heq => hnode (heq.trans hkeeps.tables.id)), hplace]

/-- A planned start does so too. -/
theorem placed_startPlanned {parent : ActorRef N} (h : Household s p) (hid : parent.id = p)
    {item : Planned N V} (hitem : PlanOf s c k item) :
    Placed (startPlanned parent s item) p c s.nextId := by
  cases item with
  | onNode id metadata =>
      obtain ⟨hnode, -, hclass, hoptions⟩ := hitem
      dsimp only [startPlanned]
      rw [hclass, hoptions]
      exact placed_spawnChild h hid hnode
  | remote e =>
      obtain ⟨hnode, -, hclass, htarget, hoptions⟩ := hitem
      dsimp only [startPlanned]
      rw [hclass, htarget, hoptions]
      exact placed_spawnChildRemote h hid hnode

theorem replaced_startPlanned {parent : ActorRef N} (hlive : parent.id ∈ s.actors)
    (item : Planned N V) :
    (startPlanned parent s item).replaced = s.replaced ++ [(replaces item, s.nextId)] ∧
      (startPlanned parent s item).nextId = s.nextId + 1 := by
  cases item with
  | onNode id metadata =>
      dsimp only [startPlanned]
      rw [spawnChild_eq hlive]
      exact ⟨rfl, rfl⟩
  | remote e =>
      dsimp only [startPlanned]
      rw [spawnChildRemote_eq hlive]
      exact ⟨rfl, rfl⟩

theorem Placed.ne_gone (h : Placed s p c k) : place s p k ≠ .gone := by
  obtain ⟨parentRef, -, hplaced⟩ := h
  intro hgone
  split_ifs at hplaced
  · have hlive : (Place.gone : Place N V).live := by
      rw [← hgone, hplaced.2]
      trivial
    exact hlive
  · have hentries := congrArg Place.entries (hgone.symm.trans hplaced)
    exact nomatch hentries

/-! ## A group -/

/-- A list of stops that the child is on leaves no instance of it. -/
theorem past_of_stops {first : ActorId} {rest : List ActorId} (h : Household s p)
    (hc : Child s p first k rest) (hplaced : Placed s p c k)
    {stopOne : Nodes N V → ActorRef N → Nodes N V}
    (hkeeps : ∀ t r, Household t p → r.id ≠ p → Keeps p (· = r.id) t (stopOne t r))
    (hsame : ∀ t r, Household t p → r.id ≠ p → (stopOne t r).replaced = t.replaced)
    {r : ActorRef N} (hr : lists s.toTables p k = ([r], {r}))
    (hstop : ∀ t, t.id = s.id → Household t p → Placed t p c k →
      lists t.toTables p k = ([r], {r}) → place (stopOne t r) p k = .gone)
    {refs : List (ActorRef N)} (hrefs : refs.filter (·.id = k) = [r])
    (hothers : ∀ d ∈ refs, d.id ≠ p ∧ d.id < s.nextId ∧ d.id ∉ rest) :
    Past (refs.foldl stopOne s) p first (k :: rest) := by
  obtain ⟨before, after, rfl, hid, hbefore, hafter⟩ := split_of_filter hrefs
  have hin : ∀ d ∈ before, d ∈ before ++ r :: after := fun d hd => List.mem_append_left _ hd
  have hin' : ∀ d ∈ after, d ∈ before ++ r :: after := fun d hd =>
    List.mem_append_right _ (List.mem_cons_of_mem r hd)
  have hrest : k ∉ rest := fun hk => hplaced.ne_gone (hc.gone k hk)
  have hp := hc.ne k List.mem_cons_self
  have hk := hc.lt k List.mem_cons_self
  have hbefore_ok : ∀ d ∈ before, d.id ≠ p ∧ d.id < s.nextId := fun d hd =>
    ⟨(hothers d (hin d hd)).1, (hothers d (hin d hd)).2.1⟩
  have hapart := apart_cons hbefore fun d hd => (hothers d (hin d hd)).2.2
  have hfirst := keeps_foldl hkeeps before s h hbefore_ok
  have hhouse := h.foldl hkeeps hbefore_ok
  rw [List.foldl_append, List.foldl_cons]
  generalize before.foldl stopOne s = t at hfirst hhouse ⊢
  have hchild := hc.keeps hfirst hapart
  have hlists : lists t.toTables p k = ([r], {r}) := by
    have hplace := hfirst.place k (hapart k List.mem_cons_self) (.inl hk)
    exact (congrArg Place.lists hplace).trans hr
  have hgone := hstop t hfirst.tables.id hhouse
    (hplaced.keeps hfirst (hapart k List.mem_cons_self) hk) hlists
  have hkeep := hkeeps t r hhouse (hid ▸ hp)
  have hpast : Past (stopOne t r) p first (k :: rest) :=
    hchild.past (hid ▸ hkeep) (hsame t r hhouse (hid ▸ hp)) hrest hgone
  have hhouse' := hhouse.keeps hkeep (fun heq => hp (hid ▸ heq.symm)) fun x hx =>
    hx ▸ hid ▸ hchild.lt k List.mem_cons_self
  refine hpast.keeps (keeps_foldl hkeeps after _ hhouse' fun d hd => ?_)
    (apart_cons hafter fun d hd => (hothers d (hin' d hd)).2.2)
  exact ⟨(hothers d (hin' d hd)).1, Nat.lt_of_lt_of_le (hothers d (hin' d hd)).2.1
    (Nat.le_trans hfirst.tables.nextId hkeep.tables.nextId)⟩

/-- A start in the place of the last instance of a child is its next instance. -/
theorem child_of_start {first : ActorId} {rest : List ActorId} (h : Household s p)
    (hpast : Past s p first (k :: rest)) {parent : ActorRef N} (hid : parent.id = p)
    {item : Planned N V} (hitem : replaces item = k) :
    Child (startPlanned parent s item) p first s.nextId (k :: rest) := by
  obtain ⟨hreplaced, hnext⟩ := replaced_startPlanned (hid ▸ h.live) item
  have hkeeps := keeps_startPlanned h hid item
  rw [hitem] at hreplaced hkeeps
  refine child_renewed h hpast.instances hpast.lt hpast.ne hkeeps hreplaced hnext fun x hx => ?_
  rw [place_startPlanned_of_ne h.lt parent item (Nat.ne_of_lt (hpast.lt x hx))]
  exact hpast.gone x hx

/-- A list of starts that the child is on leaves it with one new instance. -/
theorem child_of_starts {first : ActorId} {rest : List ActorId} (h : Household s p)
    (hpast : Past s p first (k :: rest)) {parent : ActorRef N} (hid : parent.id = p)
    {plan : List (Planned N V)} {item : Planned N V}
    (hplan : plan.filter (replaces · = k) = [item]) (hitem : PlanOf s c k item)
    (hothers : ∀ i ∈ plan, replaces i ≠ p ∧ replaces i < s.nextId ∧ replaces i ∉ rest) :
    ∃ k', Child (plan.foldl (startPlanned parent) s) p first k' (k :: rest) ∧
      Placed (plan.foldl (startPlanned parent) s) p c k' := by
  have hkeeps : ∀ (t : Nodes N V) (i : Planned N V), Household t p → replaces i ≠ p →
      Keeps p (· = replaces i) t (startPlanned parent t i) :=
    fun t i ht _ => keeps_startPlanned ht hid i
  obtain ⟨before, after, rfl, hik, hbefore, hafter⟩ := split_of_filter hplan
  have hin : ∀ i ∈ before, i ∈ before ++ item :: after := fun i hi => List.mem_append_left _ hi
  have hin' : ∀ i ∈ after, i ∈ before ++ item :: after := fun i hi =>
    List.mem_append_right _ (List.mem_cons_of_mem item hi)
  have hp := hpast.ne k List.mem_cons_self
  have hbefore_ok : ∀ i ∈ before, replaces i ≠ p ∧ replaces i < s.nextId := fun i hi =>
    ⟨(hothers i (hin i hi)).1, (hothers i (hin i hi)).2.1⟩
  have hfirst := keeps_foldl hkeeps before s h hbefore_ok
  have hhouse := h.foldl hkeeps hbefore_ok
  rw [List.foldl_append, List.foldl_cons]
  generalize before.foldl (startPlanned parent) s = t at hfirst hhouse ⊢
  have hpast' := hpast.keeps hfirst (apart_cons hbefore fun i hi => (hothers i (hin i hi)).2.2)
  have hchild := child_of_start hhouse hpast' hid hik
  have hplaced : Placed (startPlanned parent t item) p c t.nextId :=
    placed_startPlanned hhouse hid (hitem.congr hfirst.tables.id)
  have hkeep := hkeeps t item hhouse (hik ▸ hp)
  have hhouse' := hhouse.keeps hkeep (fun heq => hp (hik ▸ heq.symm)) fun x hx =>
    hx ▸ hik ▸ hpast'.lt k List.mem_cons_self
  have hafter_lt : ∀ i ∈ after, replaces i < t.nextId := fun i hi =>
    Nat.lt_of_lt_of_le (hothers i (hin' i hi)).2.1 hfirst.tables.nextId
  have hlast := keeps_foldl hkeeps after _ hhouse' fun i hi =>
    ⟨(hothers i (hin' i hi)).1, Nat.lt_of_lt_of_le (hafter_lt i hi) hkeep.tables.nextId⟩
  have hapart : ∀ x ∈ t.nextId :: k :: rest, ¬ ∃ i ∈ after, replaces i = x :=
    apart_cons (fun i hi => Nat.ne_of_lt (hafter_lt i hi)) fun i hi hin =>
      (List.mem_cons.1 hin).elim (hafter i hi) (hothers i (hin' i hi)).2.2
  exact ⟨t.nextId, hchild.keeps hlast hapart, hplaced.keeps hlast
    (hapart _ List.mem_cons_self) (hchild.lt _ List.mem_cons_self)⟩

/-- A strategy that starts the child again leaves it with one new instance. -/
theorem restartGroup {first : ActorId} {rest : List ActorId} (h : Household s p)
    (hc : Child s p first k rest) (hplaced : Placed s p c k)
    {stopOne : Nodes N V → ActorRef N → Nodes N V}
    (hkeeps : ∀ t r, Household t p → r.id ≠ p → Keeps p (· = r.id) t (stopOne t r))
    (hsame : ∀ t r, Household t p → r.id ≠ p → (stopOne t r).replaced = t.replaced)
    {r : ActorRef N} (hr : lists s.toTables p k = ([r], {r}))
    (hstop : ∀ t, t.id = s.id → Household t p → Placed t p c k →
      lists t.toTables p k = ([r], {r}) → place (stopOne t r) p k = .gone)
    {refs : List (ActorRef N)} (hrefs : refs.filter (·.id = k) = [r])
    (hlisted : ∀ d ∈ refs, d ∈ (s.context p).childOrder)
    {plan : List (Planned N V)} {item : Planned N V}
    (hplan : plan.filter (replaces · = k) = [item]) (hitem : PlanOf s c k item)
    (hids : ∀ i ∈ plan, ∃ d ∈ refs, d.id = replaces i) :
    ∃ k', Household (s.restartGroup p stopOne refs plan) p ∧
      Child (s.restartGroup p stopOne refs plan) p first k' (k :: rest) ∧
      Placed (s.restartGroup p stopOne refs plan) p c k' ∧
      Keeps p (fun x => ∃ d ∈ refs, d.id = x) s (s.restartGroup p stopOne refs plan) := by
  have hothers : ∀ d ∈ refs, d.id ≠ p ∧ d.id < s.nextId ∧ d.id ∉ rest := by
    intro d hd
    obtain ⟨hne, hlt, hplace⟩ := h.ne_of_mem_childOrder (hlisted d hd)
    exact ⟨hne, hlt, fun hrest => hplace (hc.gone d.id hrest)⟩
  have hrev : refs.reverse.filter (·.id = k) = [r] := by
    rw [List.filter_reverse, hrefs]
    rfl
  have hothers' : ∀ d ∈ refs.reverse, d.id ≠ p ∧ d.id < s.nextId ∧ d.id ∉ rest := fun d hd =>
    hothers d (List.mem_reverse.1 hd)
  have hstops := keeps_foldl hkeeps refs.reverse s h fun d hd =>
    ⟨(hothers' d hd).1, (hothers' d hd).2.1⟩
  have hhouse : Household (refs.reverse.foldl stopOne s) p :=
    h.foldl hkeeps fun d hd => ⟨(hothers' d hd).1, (hothers' d hd).2.1⟩
  have hpast := past_of_stops h hc hplaced hkeeps hsame hr hstop hrev hothers'
  unfold Nodes.restartGroup
  generalize refs.reverse.foldl stopOne s = t at hstops hhouse hpast ⊢
  have hplanned : ∀ i ∈ plan, replaces i ≠ p ∧ replaces i < t.nextId ∧ replaces i ∉ rest := by
    intro i hi
    obtain ⟨d, hd, heq⟩ := hids i hi
    obtain ⟨hne, hlt, hrest⟩ := hothers d hd
    rw [← heq]
    exact ⟨hne, Nat.lt_of_lt_of_le hlt hstops.tables.nextId, hrest⟩
  have hstart : ∀ (u : Nodes N V) (i : Planned N V), Household u p → replaces i ≠ p →
      Keeps p (· = replaces i) u (startPlanned (s.self p) u i) :=
    fun u i hu _ => keeps_startPlanned hu h.self i
  have hbounds : ∀ i ∈ plan, replaces i ≠ p ∧ replaces i < t.nextId := fun i hi =>
    ⟨(hplanned i hi).1, (hplanned i hi).2.1⟩
  obtain ⟨k', hchild, hplaced'⟩ := child_of_starts hhouse hpast h.self hplan
    (hitem.congr hstops.tables.id) hplanned
  refine ⟨k', hhouse.foldl hstart hbounds, hchild, hplaced', ?_⟩
  have hstarts := keeps_foldl hstart plan t hhouse hbounds
  refine (hstops.mono fun x hx => ?_).trans (hstarts.mono fun x hx => ?_)
  · obtain ⟨d, hd, rfl⟩ := hx
    exact ⟨d, List.mem_reverse.1 hd, rfl⟩
  · obtain ⟨i, hi, rfl⟩ := hx
    exact hids i hi

end

end Libeam.Proofs.GroupRestarts
