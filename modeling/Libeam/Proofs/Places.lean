import Mathlib.Data.Multiset.Filter
import Libeam.Supervision.Restarts
import Libeam.Proofs.ChildLists
/-!
# What the tables record of one id

The place of an id is all that the tables of the parent's node and of the other nodes
record of it.  An operation on one child changes the place of that child only, and a
spawn that of the next id only.
-/

namespace Libeam.Proofs.Places

open Libeam.System (ActorId)
open Supervision Supervision.Nodes TreeTables
open RestartFrames (actors_dropRemoteChild)
open ChildLists (remoteChildren_dropRemoteChild)

variable {N V : Type}

/-! ## The lists of a parent -/

section
variable {α : Type*} {p q : α → Bool}

theorem filter_eraseP_of_disjoint {l : List α} (h : ∀ a ∈ l, p a → q a = false) :
    (l.eraseP p).filter q = l.filter q := by
  induction l with
  | nil => rfl
  | cons a l ih =>
      by_cases ha : p a
      · rw [List.eraseP_cons_of_pos ha, List.filter_cons_of_neg (by simp [h a (by simp) ha])]
      · rw [List.eraseP_cons_of_neg ha, List.filter_cons, List.filter_cons,
          ih fun b hb => h b (List.mem_cons_of_mem a hb)]

theorem filter_eraseP_self (l : List α) : (l.eraseP p).filter p = (l.filter p).tail := by
  induction l with
  | nil => rfl
  | cons a l ih =>
      by_cases ha : p a
      · rw [List.eraseP_cons_of_pos ha, List.filter_cons_of_pos ha, List.tail_cons]
      · rw [List.eraseP_cons_of_neg ha, List.filter_cons_of_neg ha, List.filter_cons_of_neg ha, ih]

end

/-- The references with an id in the set and on the list of `p`; the positions on the
list do not count. -/
def lists (t : Tables N V) (p x : ActorId) : List (ActorRef N) × Multiset (ActorRef N) :=
  ((t.context p).children.filter (·.id = x),
    ((t.context p).childOrder.filter (·.id = x) : List (ActorRef N)))

section
variable {t : Tables N V} {p q x : ActorId} {c : ActorRef N}

theorem lists_congr {t' : Tables N V} (h : t'.context p = t.context p) (x : ActorId) :
    lists t' p x = lists t p x := by
  unfold lists
  rw [h]

theorem lists_listChild_of_ne (hx : x ≠ c.id) : lists (t.listChild q c) p x = lists t p x := by
  by_cases hp : p = q
  · subst hp
    simp [lists, Tables.listChild, List.filter_append, hx.symm]
  · exact lists_congr (Function.update_of_ne hp _ _) x

theorem lists_listChild_self (h : lists t p c.id = ([], 0)) :
    lists (t.listChild p c) p c.id = ([c], {c}) := by
  obtain ⟨hchildren, horder⟩ := Prod.mk.inj h
  simp only [lists, Tables.listChild, Function.update_self, List.filter_append, hchildren,
    (Multiset.coe_eq_zero _).1 horder]
  simp

variable [DecidableEq N]

theorem lists_unlistChild_of_ne (hx : x ≠ c.id) :
    lists (t.unlistChild q c) p x = lists t p x := by
  by_cases hp : p = q
  · subst hp
    have hne : ∀ d : ActorRef N, decide (d.id = c.id) = true → decide (d.id = x) = false := by
      intro d hd
      simpa [of_decide_eq_true hd] using hx.symm
    have hnot : c ∉ (t.context p).children.filter (·.id = x) := by
      simp [hx.symm]
    simp only [lists, Tables.unlistChild, Function.update_self]
    rw [← List.erase_filter, List.erase_of_not_mem hnot,
      filter_eraseP_of_disjoint fun d _ => hne d]
  · exact lists_congr (Function.update_of_ne hp _ _) x

theorem lists_unlistChild_self (h : lists t p c.id = ([c], {c})) :
    lists (t.unlistChild p c) p c.id = ([], 0) := by
  obtain ⟨hchildren, horder⟩ := Prod.mk.inj h
  simp only [lists, Tables.unlistChild, Function.update_self]
  rw [← List.erase_filter, hchildren, filter_eraseP_self, Multiset.coe_eq_singleton.1 horder]
  simp

theorem lists_detach_of_ne (hx : x ≠ c.id) : lists (t.detach c) p x = lists t p x := by
  unfold Tables.detach
  dsimp only
  split
  · rfl
  · split_ifs
    · exact lists_unlistChild_of_ne hx
    · rfl

theorem lists_detach_self {r : ActorRef N} (hparent : t.parentOf c.id = some r)
    (hr : r.id ∈ t.actors) (h : lists t r.id c.id = ([c], {c})) :
    lists (t.detach c) r.id c.id = ([], 0) := by
  unfold Tables.detach
  rw [hparent]
  dsimp only
  rw [if_pos hr]
  exact lists_unlistChild_self h

/-- In the lists the new child takes the place of the old one. -/
theorem lists_replaceRemoteChild {e : RemoteChildEntry N V} (hp : e.parentRef.id ∈ t.actors)
    (x : ActorId) :
    lists (t.replaceRemoteChild e) e.parentRef.id x =
      lists ((t.unlistChild e.parentRef.id e.childRef).listChild e.parentRef.id
        ⟨e.childNodeId, t.nextId, e.options.name, 0⟩) e.parentRef.id x := by
  unfold Tables.replaceRemoteChild
  dsimp only
  rw [if_pos hp]
  simp only [lists, Tables.unlistChild, Tables.listChild, Function.update_self]
  exact Prod.ext rfl (Multiset.coe_eq_coe.2 ((replaceInOrder_perm _ _ _).filter _))

end

/-! ## Entries -/

section
variable {t : Tables N V} {x : ActorId}

theorem entries_forgetRemote_self (t : Tables N V) (x : ActorId) :
    (t.forgetRemote x).remoteChildren.filter (·.childRef.id = x) = [] := by
  simp [Tables.forgetRemote, List.filter_filter]

theorem entries_forgetRemote_of_ne {y : ActorId} (hx : x ≠ y) :
    (t.forgetRemote y).remoteChildren.filter (·.childRef.id = x) =
      t.remoteChildren.filter (·.childRef.id = x) := by
  unfold Tables.forgetRemote
  rw [List.filter_filter]
  refine List.filter_congr fun e _ => ?_
  by_cases he : e.childRef.id = x
  · simp [he, hx]
  · simp [he]

theorem getRemoteChild_eq (t : Tables N V) (x : ActorId) :
    t.getRemoteChild x = (t.remoteChildren.filter (·.childRef.id = x)).head? :=
  List.head?_filter.symm

end

/-! ## Places -/

@[ext] structure Place (N V : Type) where
  live : Prop
  metadata : Option (ActorMetadata N V)
  hosted : N → Option (ActorMetadata N V)
  parented : N → Prop
  lists : List (ActorRef N) × Multiset (ActorRef N)
  entries : List (RemoteChildEntry N V)

/-- The place of `x`, among the children of `p`. -/
def place (s : Nodes N V) (p x : ActorId) : Place N V where
  live := x ∈ s.actors
  metadata := s.actorMetadata x
  hosted node := s.hosted node x
  parented node := x ∈ s.remoteParents node
  lists := lists s.toTables p x
  entries := s.remoteChildren.filter (·.childRef.id = x)

namespace Place

def gone : Place N V := ⟨False, none, fun _ => none, fun _ => False, ([], 0), []⟩

/-- A parent, which is nobody's child. -/
def root (m : ActorMetadata N V) : Place N V :=
  ⟨True, some m, fun _ => none, fun _ => False, ([], 0), []⟩

/-- A child on the node of its parent. -/
def here (m : ActorMetadata N V) (r : ActorRef N) : Place N V :=
  ⟨True, some m, fun _ => none, fun _ => False, ([r], {r}), []⟩

variable [DecidableEq N]

/-- A child on another node. -/
def away (m : ActorMetadata N V) (e : RemoteChildEntry N V) : Place N V :=
  ⟨False, none, Function.update (fun _ => none) e.childNodeId (some m), (· = e.childNodeId),
    ([e.childRef], {e.childRef}), [e]⟩

/-- A child on another node that its parent has forgotten. -/
def abandoned (m : ActorMetadata N V) (node : N) : Place N V :=
  ⟨False, none, Function.update (fun _ => none) node (some m), (· = node), ([], 0), []⟩

end Place

section
variable {s : Nodes N V} {p x : ActorId} {l : Place N V}

theorem live_of_place (h : place s p x = l) (hlive : l.live) : x ∈ s.actors := by
  subst h
  exact hlive

theorem metadata_of_place (h : place s p x = l) : s.actorMetadata x = l.metadata :=
  congrArg Place.metadata h

/-- A remote child has one entry, through which it is found. -/
theorem getRemoteChild_of_place {e : RemoteChildEntry N V} (h : place s p x = l)
    (hentries : l.entries = [e]) : s.getRemoteChild x = some e := by
  have hfilter : s.remoteChildren.filter (·.childRef.id = x) = [e] := by
    subst h
    exact hentries
  rw [getRemoteChild_eq, hfilter]
  rfl

theorem getRemoteChild_of_entries (h : place s p x = l) (hentries : l.entries = []) :
    s.getRemoteChild x = none := by
  have hfilter : s.remoteChildren.filter (·.childRef.id = x) = [] := by
    subst h
    exact hentries
  rw [getRemoteChild_eq, hfilter]
  rfl

end

/-! ## What an operation leaves as it is -/

/-- The supervision of the node, and the places of the ids that exist and are not among
`X`, or are still to come. -/
structure Keeps (p : ActorId) (X : ActorId → Prop) (s s' : Nodes N V) : Prop where
  tables : Extends s.toTables s'.toTables
  supervision : s'.childSupervision = s.childSupervision
  supervisor : s'.childSupervisor = s.childSupervisor
  granted : s'.granted = s.granted
  place : ∀ x, ¬ X x → x < s.nextId ∨ s'.nextId ≤ x → place s' p x = place s p x
  leaf : (∀ q ≠ p, (s.context q).children = []) → ∀ q ≠ p, (s'.context q).children = []
  notified : ∀ r ∈ s'.notified, r ∈ s.notified ∨ X r.1
  replaced : ∃ rs, s'.replaced = s.replaced ++ rs ∧
    ∀ r ∈ rs, X r.1 ∧ s.nextId ≤ r.2 ∧ r.2 < s'.nextId

namespace Keeps

variable {p : ActorId} {X Y : ActorId → Prop} {s t u : Nodes N V}

theorem refl (s : Nodes N V) : Keeps p X s s :=
  ⟨Extends.refl _, rfl, rfl, rfl, fun _ _ _ => rfl, fun h => h, fun _ h => .inl h,
    [], (List.append_nil _).symm, fun _ h => nomatch h⟩

theorem mono (h : Keeps p X s t) (hXY : ∀ x, X x → Y x) : Keeps p Y s t where
  tables := h.tables
  supervision := h.supervision
  supervisor := h.supervisor
  granted := h.granted
  place := fun x hx => h.place x fun hin => hx (hXY x hin)
  leaf := h.leaf
  notified := fun r hr => (h.notified r hr).imp_right (hXY r.1)
  replaced := by
    obtain ⟨rs, heq, hrs⟩ := h.replaced
    exact ⟨rs, heq, fun r hr => ⟨hXY _ (hrs r hr).1, (hrs r hr).2⟩⟩

theorem trans (h : Keeps p X s t) (k : Keeps p X t u) : Keeps p X s u where
  tables := h.tables.trans k.tables
  supervision := k.supervision.trans h.supervision
  supervisor := k.supervisor.trans h.supervisor
  granted := k.granted.trans h.granted
  place := by
    intro x hx hlt
    have hst := h.tables.nextId
    have htu := k.tables.nextId
    rw [k.place x hx (hlt.imp_left fun hlt => Nat.lt_of_lt_of_le hlt hst),
      h.place x hx (hlt.imp_right fun hle => Nat.le_trans htu hle)]
  leaf := fun hleaf => k.leaf (h.leaf hleaf)
  notified := fun r hr => (k.notified r hr).elim (h.notified r) .inr
  replaced := by
    obtain ⟨rs, heq, hrs⟩ := h.replaced
    obtain ⟨rs', heq', hrs'⟩ := k.replaced
    refine ⟨rs ++ rs', by rw [heq', heq, List.append_assoc], fun r hr => ?_⟩
    rcases List.mem_append.1 hr with hr | hr
    · exact ⟨(hrs r hr).1, (hrs r hr).2.1, Nat.lt_of_lt_of_le (hrs r hr).2.2 k.tables.nextId⟩
    · exact ⟨(hrs' r hr).1, Nat.le_trans h.tables.nextId (hrs' r hr).2.1, (hrs' r hr).2.2⟩

end Keeps

/-! ## Stops -/

section
variable {s : Nodes N V}

theorem notifyWatchers_eq (x : ActorId) (reason : Libeam.Monitoring.TerminationReason) :
    s.notifyWatchers x reason =
      { s with notified := (s.notifyWatchers x reason).notified } := by
  unfold Nodes.notifyWatchers
  split_ifs <;> rfl

theorem mem_notified {x : ActorId} {reason : Libeam.Monitoring.TerminationReason}
    {r : ActorId × Libeam.Monitoring.TerminationReason}
    (h : r ∈ (s.notifyWatchers x reason).notified) : r ∈ s.notified ∨ r.1 = x := by
  unfold Nodes.notifyWatchers at h
  split_ifs at h
  · exact .inl h
  · exact (List.mem_append.1 h).imp_right fun hr => by rw [List.mem_singleton.1 hr]

theorem told_notifyWatchers (x : ActorId) (reason : Libeam.Monitoring.TerminationReason) :
    ∃ r ∈ (s.notifyWatchers x reason).notified, r.1 = x := by
  unfold Nodes.notifyWatchers
  split_ifs with htold
  · simpa using htold
  · exact ⟨(x, reason), List.mem_append_right _ List.mem_cons_self, rfl⟩

theorem mem_notifyWatchers {r : ActorId × Libeam.Monitoring.TerminationReason} {x : ActorId}
    {reason : Libeam.Monitoring.TerminationReason} (h : r ∈ s.notified) :
    r ∈ (s.notifyWatchers x reason).notified := by
  unfold Nodes.notifyWatchers
  split_ifs
  · exact h
  · exact List.mem_append_left _ h

theorem keeps_notifyWatchers (p x : ActorId) (reason : Libeam.Monitoring.TerminationReason) :
    Keeps p (· = x) s (s.notifyWatchers x reason) := by
  have hnotified : ∀ r ∈ (s.notifyWatchers x reason).notified, r ∈ s.notified ∨ r.1 = x :=
    fun r hr => mem_notified hr
  rw [notifyWatchers_eq] at hnotified ⊢
  exact { Keeps.refl s with notified := hnotified }

variable [DecidableEq N] {p : ActorId} {r : ActorRef N}

theorem metadata_detach (t : Tables N V) (r : ActorRef N) :
    (t.detach r).actorMetadata = t.actorMetadata := by
  unfold Tables.detach
  dsimp only
  split
  · rfl
  · split_ifs <;> rfl

theorem context_detach_of_empty (t : Tables N V) (r : ActorRef N)
    (h : ∀ q ≠ p, (t.context q).children = []) :
    ∀ q ≠ p, ((t.detach r).context q).children = [] := by
  intro q hq
  unfold Tables.detach
  dsimp only
  split
  · exact h q hq
  · next p' _ =>
      split_ifs
      · by_cases hq' : q = p'.id
        · subst hq'
          simp [Tables.unlistChild, h _ hq]
        · simp only [Tables.unlistChild, Function.update_of_ne hq']
          exact h q hq
      · exact h q hq

theorem extends_left_removed (t : Tables N V) (r : ActorRef N) :
    Extends t ((t.detach r).remove r.id) :=
  (extends_detach t r).trans (extends_remove _ _)

/-- An actor leaves the tables of its node, and its watchers may have been told. -/
theorem keeps_leave {told : List (ActorId × Libeam.Monitoring.TerminationReason)}
    (htold : ∀ q ∈ told, q ∈ s.notified ∨ q.1 = r.id) :
    Keeps p (· = r.id) s
      { s with toTables := (s.detach r).remove r.id, notified := told } where
  tables := extends_left_removed _ r
  supervision := rfl
  supervisor := rfl
  granted := rfl
  place := by
    intro x hx _
    have hlists : lists ((s.detach r).remove r.id) p x = lists s.toTables p x :=
      lists_detach_of_ne hx
    unfold place
    rw [hlists]
    simp [Tables.remove, hx, metadata_detach]
  leaf := context_detach_of_empty _ r
  notified := htold
  replaced := ⟨[], (List.append_nil _).symm, fun _ h => nomatch h⟩

theorem place_leave {told : List (ActorId × Libeam.Monitoring.TerminationReason)}
    (hp : p ∈ s.actors) {m : ActorMetadata N V} {parentRef : ActorRef N}
    (hparent : m.parent = some parentRef) (hid : parentRef.id = p)
    (hplace : place s p r.id = .here m r) :
    place { s with toTables := (s.detach r).remove r.id, notified := told } p r.id =
      .gone := by
  subst hid
  obtain ⟨-, hmetadata, hhost, hparented, hold, hentries⟩ := Place.mk.inj hplace
  have hlists : lists ((s.detach r).remove r.id) parentRef.id r.id = ([], 0) := by
    refine lists_detach_self ?_ hp hold
    rw [Tables.parentOf, hmetadata]
    exact hparent
  unfold place
  rw [hlists, hhost, hparented]
  simpa [Tables.remove, Place.gone] using hentries

theorem terminate_eq (r : ActorRef N) :
    s.terminate r = { s with
      toTables := (s.detach r).remove r.id
      notified := (s.notifyWatchers r.id .normal).notified } := by
  unfold Nodes.terminate
  rw [notifyWatchers_eq]

theorem keeps_terminate (r : ActorRef N) : Keeps p (· = r.id) s (s.terminate r) := by
  rw [terminate_eq]
  exact keeps_leave fun q hq => mem_notified hq

theorem keeps_stopSingle (r : ActorRef N) : Keeps p (· = r.id) s (s.stopSingle r) := by
  unfold Nodes.stopSingle
  split_ifs
  · exact keeps_leave fun q hq => .inl hq
  · exact Keeps.refl s

/-- The stop of an actor without children. -/
theorem stop_eq (h : (s.context r.id).children = []) :
    s.stop r = if r.id ∈ s.actors then s.terminate r else s := by
  unfold Nodes.stop Nodes.stopWithin
  rw [h]
  rfl

theorem keeps_stop (h : (s.context r.id).children = []) : Keeps p (· = r.id) s (s.stop r) := by
  rw [stop_eq h]
  split_ifs
  · exact keeps_terminate r
  · exact Keeps.refl s

/-- A child on this node that is stopped is gone. -/
theorem place_stop (h : (s.context r.id).children = []) (hp : p ∈ s.actors)
    {m : ActorMetadata N V} {parentRef : ActorRef N} (hparent : m.parent = some parentRef)
    (hid : parentRef.id = p) (hplace : place s p r.id = .here m r) :
    place (s.stop r) p r.id = .gone := by
  have hlive := live_of_place hplace trivial
  rw [stop_eq h, if_pos hlive, terminate_eq]
  exact place_leave hp hparent hid hplace

theorem place_stopSingle (hp : p ∈ s.actors) {m : ActorMetadata N V} {parentRef : ActorRef N}
    (hparent : m.parent = some parentRef) (hid : parentRef.id = p)
    (hplace : place s p r.id = .here m r) : place (s.stopSingle r) p r.id = .gone := by
  have hlive := live_of_place hplace trivial
  unfold Nodes.stopSingle
  rw [if_pos hlive]
  exact place_leave hp hparent hid hplace

end

/-! ## The nodes of remote children -/

section
variable [DecidableEq N] {node : N} {x y : ActorId}

theorem hosted_update_of_ne {M : Type} (f : N → ActorId → Option M) (v : Option M)
    (hx : x ≠ y) :
    (fun n => Function.update f node (Function.update (f node) y v) n x) = fun n => f n x := by
  funext n
  by_cases hn : n = node
  · subst hn
    rw [Function.update_self, Function.update_of_ne hx]
  · rw [Function.update_of_ne hn]

theorem hosted_update_self {M : Type} (f : N → ActorId → Option M) (v : Option M) :
    (fun n => Function.update f node (Function.update (f node) y v) n y) =
      Function.update (fun n => f n y) node v := by
  funext n
  by_cases hn : n = node
  · subst hn
    rw [Function.update_self, Function.update_self, Function.update_self]
  · rw [Function.update_of_ne hn, Function.update_of_ne hn]

theorem parents_erase_of_ne (f : N → Finset ActorId) (hx : x ≠ y) :
    (fun n => x ∈ Function.update f node ((f node).erase y) n) = fun n => x ∈ f n := by
  funext n
  by_cases hn : n = node
  · subst hn
    simp [hx]
  · rw [Function.update_of_ne hn]

theorem parents_erase_self (f : N → Finset ActorId) :
    (fun n => y ∈ Function.update f node ((f node).erase y) n) =
      fun n => n ≠ node ∧ y ∈ f n := by
  funext n
  by_cases hn : n = node
  · subst hn
    simp
  · simp [hn]

theorem parents_insert_of_ne (f : N → Finset ActorId) (hx : x ≠ y) :
    (fun n => x ∈ Function.update f node (insert y (f node)) n) = fun n => x ∈ f n := by
  funext n
  by_cases hn : n = node
  · subst hn
    simp [hx]
  · rw [Function.update_of_ne hn]

theorem parents_insert_self (f : N → Finset ActorId) :
    (fun n => y ∈ Function.update f node (insert y (f node)) n) =
      fun n => n = node ∨ y ∈ f n := by
  funext n
  by_cases hn : n = node
  · subst hn
    simp
  · simp [hn]

variable {s : Nodes N V}

theorem hosted_stopHosted (s : Nodes N V) (node : N) (x : ActorId) :
    (s.stopHosted node x).hosted =
      Function.update s.hosted node (Function.update (s.hosted node) x none) := by
  unfold Nodes.stopHosted
  split_ifs with h
  · rfl
  · rw [← Option.not_isSome_iff_eq_none.1 h, Function.update_eq_self, Function.update_eq_self]

theorem mem_notified_stopHosted {r : ActorId × Libeam.Monitoring.TerminationReason}
    (h : r ∈ (s.stopHosted node x).notified) : r ∈ s.notified ∨ r.1 = x := by
  unfold Nodes.stopHosted at h
  split_ifs at h
  · exact mem_notified h
  · exact .inl h

/-- What a stop on another node writes. -/
theorem stopHosted_eq (s : Nodes N V) (node : N) (x : ActorId) :
    s.stopHosted node x = { s with
      hosted := Function.update s.hosted node (Function.update (s.hosted node) x none)
      notified := (s.stopHosted node x).notified } := by
  rw [← hosted_stopHosted]
  unfold Nodes.stopHosted
  split_ifs
  · rw [notifyWatchers_eq]
  · rfl

variable {p : ActorId}

theorem lists_dropRemoteChild_of_ne {t : Tables N V} {c r : ActorRef N} (hx : x ≠ c.id) :
    lists (t.dropRemoteChild c r) p x = lists t p x := by
  unfold Tables.dropRemoteChild
  split_ifs
  · exact lists_unlistChild_of_ne hx
  · rfl

theorem metadata_dropRemoteChild (t : Tables N V) (c r : ActorRef N) :
    (t.dropRemoteChild c r).actorMetadata = t.actorMetadata := by
  unfold Tables.dropRemoteChild
  split_ifs <;> rfl

theorem context_dropRemoteChild_of_empty (t : Tables N V) (c r : ActorRef N)
    (h : ∀ q ≠ p, (t.context q).children = []) :
    ∀ q ≠ p, ((t.dropRemoteChild c r).context q).children = [] := by
  intro q hq
  unfold Tables.dropRemoteChild
  split_ifs
  · by_cases hq' : q = r.id
    · subst hq'
      simp [Tables.unlistChild, Tables.forgetRemote, h _ hq]
    · simp only [Tables.unlistChild, Function.update_of_ne hq']
      exact h q hq
  · exact h q hq

/-- The parent forgets a remote child. -/
theorem keeps_dropRemoteChild (c r : ActorRef N) :
    Keeps p (· = c.id) s { s with toTables := s.dropRemoteChild c r } where
  tables := extends_dropRemoteChild _ c r
  supervision := rfl
  supervisor := rfl
  granted := rfl
  place := by
    intro x hx _
    have hlists : lists (s.dropRemoteChild c r) p x = lists s.toTables p x :=
      lists_dropRemoteChild_of_ne hx
    have hentries : (s.dropRemoteChild c r).remoteChildren.filter (·.childRef.id = x) =
        s.remoteChildren.filter (·.childRef.id = x) := by
      rw [remoteChildren_dropRemoteChild]
      exact entries_forgetRemote_of_ne hx
    unfold place
    rw [hlists, hentries]
    simp [actors_dropRemoteChild, metadata_dropRemoteChild]
  leaf := context_dropRemoteChild_of_empty _ c r
  notified := fun _ h => .inl h
  replaced := ⟨[], (List.append_nil _).symm, fun _ h => nomatch h⟩

/-- What its own node records of a forgotten child stays. -/
theorem place_dropRemoteChild {e : RemoteChildEntry N V} (hp : p ∈ s.actors)
    (hid : e.parentRef.id = p)
    (h : lists s.toTables p e.childRef.id = ([e.childRef], {e.childRef})) :
    place { s with toTables := s.dropRemoteChild e.childRef e.parentRef } p e.childRef.id =
      { place s p e.childRef.id with lists := ([], 0), entries := [] } := by
  subst hid
  have hlists : lists (s.dropRemoteChild e.childRef e.parentRef) e.parentRef.id e.childRef.id =
      ([], 0) := by
    unfold Tables.dropRemoteChild
    rw [if_pos hp]
    exact lists_unlistChild_self h
  have hentries : (s.dropRemoteChild e.childRef e.parentRef).remoteChildren.filter
      (·.childRef.id = e.childRef.id) = [] := by
    rw [remoteChildren_dropRemoteChild]
    exact entries_forgetRemote_self _ _
  unfold place
  rw [hlists, hentries, actors_dropRemoteChild, metadata_dropRemoteChild]

/-! ## The stop of a remote child -/

/-- The request, then the clean-up. -/
theorem stopRemoteChild_eq {e : RemoteChildEntry N V} (h : s.getRemoteChild x = some e) :
    s.stopRemoteChild x =
      { s.handleRemoteChildStop e.childNodeId x with
        toTables := s.dropRemoteChild e.childRef e.parentRef } := by
  unfold Nodes.stopRemoteChild
  rw [h]

theorem keeps_handleRemoteChildStop (node : N) (y : ActorId) :
    Keeps p (· = y) s (s.handleRemoteChildStop node y) := by
  have hnotified := fun r (hr : r ∈ (s.handleRemoteChildStop node y).notified) =>
    mem_notified_stopHosted hr
  unfold Nodes.handleRemoteChildStop at hnotified ⊢
  rw [stopHosted_eq] at hnotified ⊢
  exact
    { Keeps.refl (X := (· = y)) s with
      place := by
        intro x hx _
        unfold place Nodes.forgetParent
        simp only [hosted_update_of_ne s.hosted _ hx, parents_erase_of_ne s.remoteParents hx]
      notified := hnotified }

theorem toTables_handleRemoteChildStop (s : Nodes N V) (node : N) (y : ActorId) :
    (s.handleRemoteChildStop node y).toTables = s.toTables := by
  unfold Nodes.handleRemoteChildStop
  rw [stopHosted_eq]
  rfl

theorem keeps_stopRemoteChild (y : ActorId) : Keeps p (· = y) s (s.stopRemoteChild y) := by
  cases he : s.getRemoteChild y with
  | none =>
      unfold Nodes.stopRemoteChild
      rw [he]
      exact Keeps.refl s
  | some e =>
      obtain ⟨-, rfl⟩ := mem_of_getRemoteChild he
      have hstop := keeps_handleRemoteChildStop (p := p) (s := s) e.childNodeId e.childRef.id
      have hdrop := keeps_dropRemoteChild (p := p)
        (s := s.handleRemoteChildStop e.childNodeId e.childRef.id) e.childRef e.parentRef
      rw [toTables_handleRemoteChildStop] at hdrop
      rw [stopRemoteChild_eq he]
      exact hstop.trans hdrop

theorem place_handleRemoteChildStop {e : RemoteChildEntry N V} {m : ActorMetadata N V}
    (h : place s p x = .away m e) :
    place (s.handleRemoteChildStop e.childNodeId x) p x =
      { Place.gone with lists := ([e.childRef], {e.childRef}), entries := [e] } := by
  obtain ⟨hlive, hmetadata, hhosted, hparented, hlists, hentries⟩ := Place.mk.inj h
  have hparents : (fun n => n ≠ e.childNodeId ∧ x ∈ s.remoteParents n) = fun _ => False := by
    funext n
    have hn := congrFun hparented n
    simp only [hn]
    simp
  unfold Nodes.handleRemoteChildStop
  rw [stopHosted_eq]
  unfold place Nodes.forgetParent
  simp only [hosted_update_self, parents_erase_self, hlive, hmetadata, hhosted, hlists, hentries,
    hparents]
  rw [Function.update_idem, Function.update_eq_self]
  rfl

theorem place_stopRemoteChild {e : RemoteChildEntry N V} {m : ActorMetadata N V}
    (hp : p ∈ s.actors) (hid : e.parentRef.id = p) (h : place s p e.childRef.id = .away m e) :
    place (s.stopRemoteChild e.childRef.id) p e.childRef.id = .gone := by
  have htables := toTables_handleRemoteChildStop s e.childNodeId e.childRef.id
  have hstopped := place_handleRemoteChildStop h
  have hdropped := place_dropRemoteChild
    (s := s.handleRemoteChildStop e.childNodeId e.childRef.id) (htables ▸ hp) hid
    (congrArg Place.lists hstopped)
  rw [hstopped, htables] at hdropped
  rw [stopRemoteChild_eq (getRemoteChild_of_place h rfl)]
  exact hdropped

end

end Libeam.Proofs.Places
