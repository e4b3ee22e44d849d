import Mathlib.Data.List.MinMax
import Libeam.Proofs.GossipSteps
/-!
# Which lists of peer states may arrive in any order

For a peer that is known the greatest news wins, in whatever order it comes.  A peer that
is not known is not entered when it is leaving, and then nothing is remembered of it: older
states that come after are taken for new ones.
-/

namespace Libeam.Proofs.GossipOrder

open Gossip GossipSteps

variable {N : Type} [DecidableEq N] {p : GossipProtocol N} {es es' : List (PeerState N)}

/-- What is known of a peer: its news, and its status. -/
abbrev View : Type := (Nat ×ₗ Nat) × Option PeerStatus

def viewOf (e : PeerState N) : View := (e.news, e.status)

def view (p : GossipProtocol N) (x : N) : Option View := (p.find x).map viewOf

/-- Messages arrive one after the other, each at some time. -/
def receive (p : GossipProtocol N) (arrivals : List (GossipMessage N × Nat)) : GossipProtocol N :=
  arrivals.foldl (fun p arrival => p.handleGossipMessage arrival.1 arrival.2) p

/-- One status for each generation and heartbeat of a peer. -/
def Honest (es : List (PeerState N)) : Prop :=
  ∀ e ∈ es, ∀ e' ∈ es, e.id = e'.id → e.news = e'.news → e.status = e'.status

/-- All ways to cut permutations of the list into messages lead to the same. -/
def Insensitive (p : GossipProtocol N) (es : List (PeerState N)) : Prop :=
  ∀ arrivals arrivals' : List (GossipMessage N × Nat),
    (∀ arrival ∈ arrivals, Accepted arrival.1) →
    (∀ arrival ∈ arrivals', Accepted arrival.1) →
    (arrivals.flatMap (·.1.peers)).Perm es → (arrivals'.flatMap (·.1.peers)).Perm es →
    ∀ x, view (receive p arrivals) x = view (receive p arrivals') x

/-! ## One peer at a time -/

/-- What is known after another state has come. -/
def taken (known : Option View) (e : PeerState N) : Option View :=
  match known with
  | none => if e.status = some .leaving then none else some (viewOf e)
  | some v => if v.1 < e.news then some (viewOf e) else some v

theorem view_mergePeer (now : Nat) (p : GossipProtocol N) (e : PeerState N) (x : N) :
    view (p.mergePeer now e) x = if e.id = x then taken (view p x) e else view p x := by
  unfold view
  rw [find_mergePeer]
  by_cases hx : e.id = x
  · rw [if_pos hx.symm, if_pos hx, hx]
    unfold merged taken
    cases p.find x with
    | none =>
        dsimp only [Option.map_none]
        split_ifs <;> rfl
    | some known =>
        change _ = if known.news < e.news then some (viewOf e) else some (viewOf known)
        dsimp only
        split_ifs <;> rfl
  · rw [if_neg (Ne.symm hx), if_neg hx]

/-- The states of one peer. -/
def about (x : N) (es : List (PeerState N)) : List (PeerState N) := es.filter (·.id = x)

theorem mem_about {x : N} {e : PeerState N} : e ∈ about x es ↔ e ∈ es ∧ e.id = x := by
  simp [about]

theorem view_foldl_mergePeer (now : Nat) (x : N) (p : GossipProtocol N) :
    view (es.foldl (GossipProtocol.mergePeer now) p) x = (about x es).foldl taken (view p x) := by
  induction es generalizing p with
  | nil => rfl
  | cons e es ih =>
      rw [List.foldl_cons, ih, view_mergePeer]
      unfold about
      rw [List.filter_cons]
      by_cases hx : e.id = x
      · simp [hx]
      · simp [hx]

theorem view_receive {arrivals : List (GossipMessage N × Nat)}
    (haccepted : ∀ arrival ∈ arrivals, Accepted arrival.1) (p : GossipProtocol N) (x : N) :
    view (receive p arrivals) x =
      (about x (arrivals.flatMap (·.1.peers))).foldl taken (view p x) := by
  induction arrivals generalizing p with
  | nil => rfl
  | cons arrival arrivals ih =>
      have hhandled := handleGossipMessage_of_accepted (haccepted arrival (by simp)) p arrival.2
      calc view (receive p (arrival :: arrivals)) x
          = view (receive (p.handleGossipMessage arrival.1 arrival.2) arrivals) x := rfl
        _ = (about x (arrivals.flatMap (·.1.peers))).foldl taken
              ((about x arrival.1.peers).foldl taken (view p x)) := by
            rw [ih (fun a ha => haccepted a (by simp [ha])), hhandled, view_foldl_mergePeer]
        _ = _ := by
            rw [List.flatMap_cons]
            unfold about
            rw [List.filter_append, List.foldl_append]

/-! ## A peer that is known -/

/-- What was known, or the greatest that has come. -/
def Greatest (v : View) (es : List (PeerState N)) (v' : View) : Prop :=
  v' = v ∧ (∀ e ∈ es, e.news ≤ v.1) ∨
    ∃ e ∈ es, v' = viewOf e ∧ v.1 < e.news ∧ ∀ e' ∈ es, e'.news ≤ e.news

omit [DecidableEq N] in
theorem foldl_taken_some (es : List (PeerState N)) (v : View) :
    ∃ v', es.foldl taken (some v) = some v' ∧ Greatest v es v' := by
  induction es generalizing v with
  | nil => exact ⟨v, rfl, .inl ⟨rfl, nofun⟩⟩
  | cons e es ih =>
      by_cases hless : v.1 < e.news
      · obtain ⟨v', heq, hgreatest⟩ := ih (viewOf e)
        refine ⟨v', ?_, .inr ?_⟩
        · rw [List.foldl_cons, show taken (some v) e = some (viewOf e) from if_pos hless, heq]
        · rcases hgreatest with ⟨rfl, hall⟩ | ⟨m, hm, rfl, hlt, hall⟩
          · exact ⟨e, by simp, rfl, hless, by simpa [viewOf] using hall⟩
          · refine ⟨m, by simp [hm], rfl, hless.trans hlt, ?_⟩
            simpa using ⟨hlt.le, hall⟩
      · obtain ⟨v', heq, hgreatest⟩ := ih v
        refine ⟨v', ?_, ?_⟩
        · rw [List.foldl_cons, show taken (some v) e = some v from if_neg hless, heq]
        · have hle := not_lt.1 hless
          rcases hgreatest with ⟨rfl, hall⟩ | ⟨m, hm, rfl, hlt, hall⟩
          · exact .inl ⟨rfl, by simpa using ⟨hle, hall⟩⟩
          · refine .inr ⟨m, by simp [hm], rfl, hlt, ?_⟩
            simpa using ⟨hle.trans hlt.le, hall⟩

omit [DecidableEq N] in
theorem Greatest.unique {v v₁ v₂ : View} (h₁ : Greatest v es v₁) (h₂ : Greatest v es' v₂)
    (hmem : ∀ e, e ∈ es ↔ e ∈ es')
    (honest : ∀ e ∈ es, ∀ e' ∈ es, e.news = e'.news → e.status = e'.status) : v₁ = v₂ := by
  rcases h₁ with ⟨rfl, hall₁⟩ | ⟨m₁, hm₁, rfl, hlt₁, hall₁⟩ <;>
    rcases h₂ with ⟨rfl, hall₂⟩ | ⟨m₂, hm₂, rfl, hlt₂, hall₂⟩
  · rfl
  · exact absurd (hall₁ m₂ ((hmem m₂).2 hm₂)) hlt₂.not_ge
  · exact absurd (hall₂ m₁ ((hmem m₁).1 hm₁)) hlt₁.not_ge
  · have hnews := le_antisymm (hall₂ m₁ ((hmem m₁).1 hm₁)) (hall₁ m₂ ((hmem m₂).2 hm₂))
    exact Prod.ext hnews (honest m₁ hm₁ m₂ ((hmem m₂).2 hm₂) hnews)

/-! ## A peer that is not known -/

section
omit [DecidableEq N]

/-- As long as it is leaving it stays unknown. -/
theorem foldl_taken_leaving (h : ∀ e ∈ es, e.status = some .leaving) :
    es.foldl taken none = none := by
  induction es with
  | nil => rfl
  | cons e es ih =>
      rw [List.foldl_cons, show taken none e = none from if_pos (h e (by simp))]
      exact ih fun e' he' => h e' (by simp [he'])

/-- What is known is one of the states that have come. -/
theorem foldl_taken_mem {v : View} (h : es.foldl taken none = some v) : ∃ e ∈ es, v = viewOf e := by
  induction es with
  | nil => cases h
  | cons e es ih =>
      rw [List.foldl_cons] at h
      by_cases hleaving : e.status = some .leaving
      · rw [show taken none e = none from if_pos hleaving] at h
        obtain ⟨e', he', hv⟩ := ih h
        exact ⟨e', by simp [he'], hv⟩
      · rw [show taken none e = some (viewOf e) from if_neg hleaving] at h
        obtain ⟨v', heq, hgreatest⟩ := foldl_taken_some es (viewOf e)
        rw [heq] at h
        cases h
        rcases hgreatest with ⟨rfl, -⟩ | ⟨m, hm, rfl, -⟩
        · exact ⟨e, by simp, rfl⟩
        · exact ⟨m, by simp [hm], rfl⟩

/-- The greatest state is known in the end if it is not that of a leaving peer. -/
theorem foldl_taken_greatest {m : PeerState N} (hm : m ∈ es) (hstays : m.status ≠ some .leaving)
    (hall : ∀ e ∈ es, e.news ≤ m.news)
    (honest : ∀ e ∈ es, e.news = m.news → e.status = m.status) :
    es.foldl taken none = some (viewOf m) := by
  obtain ⟨before, rest, rfl⟩ := List.append_of_mem hm
  rw [List.foldl_append, List.foldl_cons]
  have harrives : taken (before.foldl taken none) m = some (viewOf m) := by
    cases hbefore : before.foldl taken none with
    | none => exact if_neg hstays
    | some v =>
        obtain ⟨e, he, rfl⟩ := foldl_taken_mem hbefore
        have hmem : e ∈ before ++ m :: rest := by simp [he]
        unfold taken
        dsimp only
        split_ifs with hless
        · rfl
        · have hnews := le_antisymm (hall e hmem) (not_lt.1 hless)
          exact congrArg some (Prod.ext hnews (honest e hmem hnews))
  obtain ⟨v, heq, hgreatest⟩ := foldl_taken_some rest (viewOf m)
  rw [harrives, heq]
  rcases hgreatest with ⟨rfl, -⟩ | ⟨e, he, -, hlt, -⟩
  · rfl
  · exact absurd (hall e (by simp [he])) hlt.not_ge

end

/-! ## All peers -/

/-- The states of each peer that is not known are all of a leaving peer, or the greatest of
them is not. -/
def Settled (p : GossipProtocol N) (es : List (PeerState N)) : Prop :=
  ∀ x, p.find x = none →
    (∀ e ∈ es, e.id = x → e.status = some .leaving) ∨
      ∃ m ∈ es, m.id = x ∧ m.status ≠ some .leaving ∧ ∀ e ∈ es, e.id = x → e.news ≤ m.news

/-- Two lists in which the same states are about a peer lead to the same. -/
theorem same_of_settled (hsettled : Settled p es) (honest : Honest es) {x : N}
    {xs ys : List (PeerState N)} (hxs : ∀ e, e ∈ xs ↔ e ∈ about x es)
    (hys : ∀ e, e ∈ ys ↔ e ∈ about x es) :
    xs.foldl taken (view p x) = ys.foldl taken (view p x) := by
  cases hfind : p.find x with
  | some known =>
      have hview : view p x = some (viewOf known) := by rw [view, hfind, Option.map_some]
      obtain ⟨v, hv, hgreatest⟩ := foldl_taken_some xs (viewOf known)
      obtain ⟨v', hv', hgreatest'⟩ := foldl_taken_some ys (viewOf known)
      rw [hview, hv, hv']
      refine congrArg some (hgreatest.unique hgreatest' (fun e => (hxs e).trans (hys e).symm) ?_)
      intro e he e' he'
      obtain ⟨hmem, hid⟩ := mem_about.1 ((hxs e).1 he)
      obtain ⟨hmem', hid'⟩ := mem_about.1 ((hxs e').1 he')
      exact honest e hmem e' hmem' (hid.trans hid'.symm)
  | none =>
      have hview : view p x = none := by rw [view, hfind, Option.map_none]
      rw [hview]
      rcases hsettled x hfind with hleaving | ⟨m, hm, hid, hstays, hall⟩
      · have hnone : ∀ zs : List (PeerState N), (∀ e, e ∈ zs ↔ e ∈ about x es) →
            zs.foldl taken none = none := fun zs hzs => foldl_taken_leaving fun e he =>
          have hmem := mem_about.1 ((hzs e).1 he)
          hleaving e hmem.1 hmem.2
        rw [hnone xs hxs, hnone ys hys]
      · have hend : ∀ zs : List (PeerState N), (∀ e, e ∈ zs ↔ e ∈ about x es) →
            zs.foldl taken none = some (viewOf m) := fun zs hzs =>
          foldl_taken_greatest ((hzs m).2 (mem_about.2 ⟨hm, hid⟩)) hstays
            (fun e he => have hmem := mem_about.1 ((hzs e).1 he)
              hall e hmem.1 hmem.2)
            fun e he => have hmem := mem_about.1 ((hzs e).1 he)
              honest e hmem.1 m hm (hmem.2.trans hid.symm)
        rw [hend xs hxs, hend ys hys]

/-- One message with all the states. -/
def inOne (x : N) (es : List (PeerState N)) : List (GossipMessage N × Nat) :=
  [(⟨none, x, es⟩, 0)]

/-- When a peer that is not known is leaving in the end, and was not before, then it makes
a difference whether it is known before its last state comes. -/
theorem settled_of_insensitive (honest : Honest es) (h : Insensitive p es) : Settled p es := by
  intro x hfind
  have hview : view p x = none := by rw [view, hfind, Option.map_none]
  by_contra hnot
  push Not at hnot
  obtain ⟨⟨a, ha, hax, hstays⟩, hbest⟩ := hnot
  cases hmax : (about x es).argmax PeerState.news with
  | none =>
      rw [List.argmax_eq_none] at hmax
      exact List.not_mem_nil (hmax ▸ mem_about.2 ⟨ha, hax⟩)
  | some m =>
      obtain ⟨hm, hmx⟩ := mem_about.1 (List.argmax_mem hmax)
      have hall : ∀ e ∈ es, e.id = x → e.news ≤ m.news := fun e he hx =>
        List.le_of_mem_argmax (mem_about.2 ⟨he, hx⟩) hmax
      have hleaving : m.status = some .leaving := by
        by_contra hm'
        obtain ⟨e, he, hx, hlt⟩ := hbest m hm hmx hm'
        exact hlt.not_ge (hall e he hx)
      -- all the last states of the peer come first, or a comes before them
      have hlast : ∀ e, e.id = x ∧ e.news = m.news → e ∈ es → e.status = some .leaving :=
        fun e hlast he => (honest e he m hm (hlast.1.trans hmx.symm) hlast.2).trans hleaving
      have haccepted : ∀ zs : List (PeerState N), ∀ arrival ∈ inOne x zs,
          Accepted arrival.1 := by
        intro zs arrival harrival
        rw [List.mem_singleton.1 harrival]
        exact .inl rfl
      have hpeers : ∀ zs : List (PeerState N), (inOne x zs).flatMap (·.1.peers) = zs := by
        simp [inOne]
      let first := es.filter fun e => e.id = x ∧ e.news = m.news
      let rest := es.filter fun e => !decide (e.id = x ∧ e.news = m.news)
      have hsame := h (inOne x (a :: es.erase a)) (inOne x (first ++ rest)) (haccepted _)
        (haccepted _) (by rw [hpeers]; exact (List.perm_cons_erase ha).symm)
        (by rw [hpeers]; exact List.filter_append_perm _ _) x
      rw [view_receive (haccepted _), view_receive (haccepted _), hpeers, hpeers, hview]
        at hsame
      have hfirst : (about x first).foldl taken none = none := by
        refine foldl_taken_leaving fun e he => ?_
        have hmem := List.mem_filter.1 (mem_about.1 he).1
        exact hlast e (by simpa using hmem.2) hmem.1
      have hsplit : about x (first ++ rest) = about x first ++ about x rest :=
        List.filter_append _ _
      have hcons : about x (a :: es.erase a) = a :: about x (es.erase a) := by
        simp [about, hax]
      rw [hsplit, List.foldl_append, hfirst, hcons, List.foldl_cons,
        show taken none a = some (viewOf a) from if_neg hstays] at hsame
      obtain ⟨v, hv, hgreatest⟩ := foldl_taken_some (about x (es.erase a)) (viewOf a)
      rw [hv] at hsame
      obtain ⟨e, he, rfl⟩ := foldl_taken_mem hsame.symm
      obtain ⟨hrest, hex⟩ := mem_about.1 he
      have hne : e.news ≠ m.news := by
        have hmem := (List.mem_filter.1 hrest).2
        simpa [hex] using hmem
      have hmore : m.news ≤ e.news := by
        have hma : m ≠ a := fun heq => hstays (heq ▸ hleaving)
        have hmem : m ∈ about x (es.erase a) :=
          mem_about.2 ⟨(List.mem_erase_of_ne hma).2 hm, hmx⟩
        rcases hgreatest with ⟨heq, hle⟩ | ⟨m', hm', heq, hlt, hle⟩
        · calc m.news ≤ a.news := hle m hmem
            _ = e.news := (congrArg Prod.fst heq).symm
        · calc m.news ≤ m'.news := hle m hmem
            _ = e.news := (congrArg Prod.fst heq).symm
      exact hne (le_antisymm (hall e (List.mem_filter.1 hrest).1 hex) hmore)

/-- Peer states may come in any order and in any messages just when, for each peer that is
not known, they are all of a leaving peer or the greatest of them is not. -/
theorem insensitive_iff (honest : Honest es) : Insensitive p es ↔ Settled p es := by
  refine ⟨settled_of_insensitive honest, fun hsettled => ?_⟩
  intro arrivals arrivals' haccepted haccepted' hperm hperm' x
  rw [view_receive haccepted, view_receive haccepted']
  refine same_of_settled hsettled honest (fun e => ?_) fun e => ?_
  · rw [mem_about, mem_about, hperm.mem_iff]
  · rw [mem_about, mem_about, hperm'.mem_iff]

section

/-- A peer as it was, and as it left. -/
def before : PeerState Nat := ⟨1, "tcp://b", 4, 10, "b:6000", 0, some .alive⟩

def departed : PeerState Nat := { before with heartbeat := 5, status := some .leaving }

def listener : GossipProtocol Nat := .new 0 "tcp://a" "a:6000" ⟨1000, 3, []⟩ 9

/-- When the peer is first heard of as it leaves, its earlier state makes it a member. -/
theorem departed_returns :
    Honest [before, departed] ∧ ¬ Insensitive listener [before, departed] ∧
      view (receive listener (inOne 0 [before, departed])) 1 = some (viewOf departed) ∧
      view (receive listener (inOne 0 [departed, before])) 1 = some (viewOf before) := by
  have hleft : view (receive listener (inOne 0 [before, departed])) 1 = some (viewOf departed) :=
    rfl
  have hright : view (receive listener (inOne 0 [departed, before])) 1 = some (viewOf before) :=
    rfl
  refine ⟨by unfold Honest; decide, fun h => ?_, hleft, hright⟩
  have haccepted : ∀ es : List (PeerState Nat), ∀ arrival ∈ inOne 0 es,
      Accepted arrival.1 := by
    intro es arrival harrival
    rw [List.mem_singleton.1 harrival]
    exact .inl rfl
  have hsame := h (inOne 0 [before, departed]) (inOne 0 [departed, before]) (haccepted _)
    (haccepted _) (by decide) (by decide) 1
  rw [hleft, hright] at hsame
  exact absurd hsame (by decide)

theorem insensitive_iff_departed :
    Insensitive listener [before, departed] ↔ Settled listener [before, departed] :=
  insensitive_iff (by unfold Honest; decide)

end

end Libeam.Proofs.GossipOrder
