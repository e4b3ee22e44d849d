import Libeam.Supervision.Supervise
/-!
# What the operations do to the tables

`Extends` is what every operation keeps: the history of the instances that exist,
and that nothing which is gone comes back.  `Sound` is what the tables satisfy in
every run: a reference on a list belongs to a child of that parent, every child
that no stop has taken off is on both lists, and an id stands for one entry.
-/

namespace Libeam.Proofs.TreeTables

open Libeam.System (ActorId)
open Supervision

variable {N V : Type}

/-! ## Extension -/

structure Extends (t t' : Tables N V) : Prop where
  id : t'.id = t.id
  nextId : t.nextId ≤ t'.nextId
  spawned : ∀ x < t.nextId, t'.spawned x = t.spawned x
  self : ∀ x < t.nextId, t'.self x = t.self x
  lineage : ∀ x < t.nextId, t'.lineage x = t.lineage x
  detached : ∀ x ∈ t.detached, x ∈ t'.detached
  actors : ∀ x ∈ t'.actors, x < t.nextId → x ∈ t.actors
  entries : ∀ e ∈ t'.remoteChildren, e.childRef.id < t.nextId → e ∈ t.remoteChildren

namespace Extends

theorem refl (t : Tables N V) : Extends t t :=
  ⟨rfl, Nat.le_refl _, fun _ _ => rfl, fun _ _ => rfl, fun _ _ => rfl, fun _ h => h,
    fun _ h _ => h, fun _ h _ => h⟩

theorem trans {t u w : Tables N V} (h : Extends t u) (k : Extends u w) : Extends t w where
  id := k.id.trans h.id
  nextId := Nat.le_trans h.nextId k.nextId
  spawned := fun x hx => (k.spawned x (Nat.lt_of_lt_of_le hx h.nextId)).trans (h.spawned x hx)
  self := fun x hx => (k.self x (Nat.lt_of_lt_of_le hx h.nextId)).trans (h.self x hx)
  lineage := fun x hx => (k.lineage x (Nat.lt_of_lt_of_le hx h.nextId)).trans (h.lineage x hx)
  detached := fun x hx => k.detached x (h.detached x hx)
  actors := fun x hx hlt => h.actors x (k.actors x hx (Nat.lt_of_lt_of_le hlt h.nextId)) hlt
  entries := fun e he hlt => h.entries e (k.entries e he (Nat.lt_of_lt_of_le hlt h.nextId)) hlt

end Extends

section
variable (t : Tables N V)

theorem extends_remove (x : ActorId) : Extends t (t.remove x) :=
  { Extends.refl t with actors := fun _ h _ => Finset.mem_of_mem_erase h }

theorem extends_forgetRemote (x : ActorId) : Extends t (t.forgetRemote x) :=
  { Extends.refl t with entries := fun _ h _ => List.mem_of_mem_filter h }

theorem extends_listChild (p : ActorId) (c : ActorRef N) : Extends t (t.listChild p c) :=
  { Extends.refl t with }

theorem extends_addRemoteChild (p : ActorRef N) (actorClass : String) (node : N)
    (options : SpawnOptions V) : Extends t (t.addRemoteChild p actorClass node options) :=
  { Extends.refl t with
    nextId := Nat.le_succ _
    entries := by
      intro e he hlt
      rcases List.mem_append.1 he with he | he
      · exact he
      · rw [List.mem_singleton.1 he] at hlt
        exact absurd hlt (Nat.lt_irrefl _) }

theorem extends_register (m : ActorMetadata N V) (first : Option ActorId) :
    Extends t (t.register m first) where
  id := rfl
  nextId := Nat.le_succ _
  spawned := fun _ hx => Function.update_of_ne (Nat.ne_of_lt hx) _ _
  self := fun _ hx => Function.update_of_ne (Nat.ne_of_lt hx) _ _
  lineage := fun _ hx => Function.update_of_ne (Nat.ne_of_lt hx) _ _
  detached := fun _ h => h
  actors := fun _ hx hlt => (Finset.mem_insert.1 hx).resolve_left (Nat.ne_of_lt hlt)
  entries := fun _ h _ => h

theorem extends_spawnChild (p : ActorRef N) (actorClass : String) (options : SpawnOptions V)
    (first : Option ActorId) : Extends t (t.spawnChild p actorClass options first) := by
  unfold Tables.spawnChild
  split_ifs
  · exact (extends_register t _ _).trans (extends_listChild _ _ _)
  · exact Extends.refl t

theorem extends_startAgain (response : Response) (x : ActorId) (m : ActorMetadata N V) :
    Extends t (t.startAgain response x m) := by
  unfold Tables.startAgain
  split_ifs
  · split
    · exact extends_register t _ _
    · exact extends_spawnChild t _ _ _ _
  · exact Extends.refl t

theorem extends_startPlanned (response : Response) (p : ActorRef N) (remote : Bool)
    (plan : List (Planned N V)) : Extends t (t.startPlanned response p remote plan).1 := by
  unfold Tables.startPlanned
  split
  · exact Extends.refl t
  · split_ifs
    · exact extends_spawnChild t _ _ _ _
    · exact Extends.refl t
  · split_ifs <;> exact Extends.refl t

theorem extends_left (x : ActorId) : Extends t { t with detached := insert x t.detached } :=
  { Extends.refl t with detached := fun _ h => Finset.mem_insert_of_mem h }

variable [DecidableEq N]

theorem extends_unlistChild (p : ActorId) (c : ActorRef N) : Extends t (t.unlistChild p c) :=
  { Extends.refl t with }

theorem extends_detach (r : ActorRef N) : Extends t (t.detach r) := by
  unfold Tables.detach
  dsimp only
  split
  · exact extends_left t _
  · split_ifs
    · exact (extends_left t _).trans (extends_unlistChild _ _ _)
    · exact extends_left t _

theorem extends_replaceRemoteChild (e : RemoteChildEntry N V) :
    Extends t (t.replaceRemoteChild e) := by
  have htracked : ∀ e' ∈ (t.forgetRemote e.childRef.id).remoteChildren ++
      [{ e with childRef := ⟨e.childNodeId, t.nextId, e.options.name, 0⟩ }],
      e'.childRef.id < t.nextId → e' ∈ t.remoteChildren := by
    intro e' he' hlt
    rcases List.mem_append.1 he' with he' | he'
    · exact List.mem_of_mem_filter he'
    · rw [List.mem_singleton.1 he'] at hlt
      exact absurd hlt (Nat.lt_irrefl _)
  unfold Tables.replaceRemoteChild
  dsimp only
  split_ifs
  · exact { Extends.refl t with nextId := Nat.le_succ _, entries := htracked }
  · exact { Extends.refl t with nextId := Nat.le_succ _, entries := htracked }

theorem extends_dropRemoteChild (c p : ActorRef N) : Extends t (t.dropRemoteChild c p) := by
  unfold Tables.dropRemoteChild
  split_ifs
  · exact (extends_forgetRemote t _).trans (extends_unlistChild _ _ _)
  · exact extends_forgetRemote t _

theorem extends_removeRemoteChild (x : ActorId) (p : ActorRef N) :
    Extends t (t.removeRemoteChild x p) := by
  unfold Tables.removeRemoteChild
  split
  · exact Extends.refl t
  · exact extends_dropRemoteChild t _ _

theorem extends_leave (r : ActorRef N) : Extends t (t.leave r).1 := extends_detach t r

theorem extends_stopChildren (r : ActorRef N) (rest : List (ActorRef N)) :
    Extends t (t.stopChildren r rest).1 := by
  cases rest with
  | nil => exact extends_leave t r
  | cons => exact Extends.refl t

theorem extends_resumeFrame (response : Response) (f : Frame N V) :
    Extends t (t.resumeFrame response f).1 := by
  cases f with
  | stop r =>
      dsimp only [Tables.resumeFrame]
      split_ifs
      · exact extends_stopChildren t _ _
      · exact Extends.refl t
  | children r rest => exact extends_stopChildren t _ _
  | stopSingle r =>
      dsimp only [Tables.resumeFrame]
      split_ifs
      · exact extends_leave t _
      · exact Extends.refl t
  | unregistering r => exact Extends.refl t
  | terminating r => exact extends_remove t _
  | respawn x m => exact extends_startAgain t _ _ _
  | strategy p stops remote plan =>
      cases stops with
      | nil => exact extends_startPlanned t _ _ _ _
      | cons => exact Extends.refl t
  | stopRemoteChild x =>
      dsimp only [Tables.resumeFrame]
      split <;> exact Extends.refl t
  | stopRequest e =>
      dsimp only [Tables.resumeFrame]
      split
      · exact extends_forgetRemote t _
      · exact extends_dropRemoteChild t _ _
  | restartRequest e =>
      dsimp only [Tables.resumeFrame]
      split
      · exact extends_replaceRemoteChild t _
      · exact extends_forgetRemote t _
  | spawnRequest p actorClass node options =>
      dsimp only [Tables.resumeFrame]
      split
      · exact extends_addRemoteChild t _ _ _ _
      · exact Extends.refl t
  | migrating x =>
      dsimp only [Tables.resumeFrame]
      split
      · exact extends_remove t _
      · exact Extends.refl t

end

/-! ## References and entries -/

/-- A reference that may stand on the lists of the parent `p`. -/
structure ChildRef (t : Tables N V) (p : ActorId) (c : ActorRef N) : Prop where
  lt : c.id < t.nextId
  here : c.systemId = t.id → c = t.self c.id ∧
    ∃ m r, t.spawned c.id = some m ∧ m.parent = some r ∧ r.id = p
  elsewhere : c.systemId ≠ t.id → t.spawned c.id = none

theorem ChildRef.extend {t t' : Tables N V} (h : Extends t t') {p : ActorId} {c : ActorRef N}
    (hc : ChildRef t p c) : ChildRef t' p c where
  lt := Nat.lt_of_lt_of_le hc.lt h.nextId
  here := by
    rw [h.id, h.self _ hc.lt, h.spawned _ hc.lt]
    exact hc.here
  elsewhere := by
    rw [h.id, h.spawned _ hc.lt]
    exact hc.elsewhere

/-- A reference to an instance of this node names a child of that parent. -/
theorem ChildRef.parent {t : Tables N V} {p : ActorId} {c : ActorRef N} (hc : ChildRef t p c)
    {m : ActorMetadata N V} (hm : t.spawned c.id = some m) :
    c.systemId = t.id ∧ c = t.self c.id ∧ ∃ r, m.parent = some r ∧ r.id = p := by
  by_cases hhere : c.systemId = t.id
  · obtain ⟨hself, m', r, hm', hr, hid⟩ := hc.here hhere
    rw [hm] at hm'
    cases hm'
    exact ⟨hhere, hself, r, hr, hid⟩
  · rw [hc.elsewhere hhere] at hm
    cases hm

/-- An entry of `remoteChildren`, now or at some time before. -/
structure KnownEntry (t : Tables N V) (e : RemoteChildEntry N V) : Prop where
  lt : e.childRef.id < t.nextId
  parent_lt : e.parentRef.id < t.nextId
  node : e.childRef.systemId = e.childNodeId
  elsewhere : e.childNodeId ≠ t.id
  spawned : t.spawned e.childRef.id = none
  unique : ∀ e' ∈ t.remoteChildren, e'.childRef.id = e.childRef.id → e' = e

theorem KnownEntry.extend {t t' : Tables N V} (h : Extends t t') {e : RemoteChildEntry N V}
    (he : KnownEntry t e) : KnownEntry t' e where
  lt := Nat.lt_of_lt_of_le he.lt h.nextId
  parent_lt := Nat.lt_of_lt_of_le he.parent_lt h.nextId
  node := he.node
  elsewhere := h.id ▸ he.elsewhere
  spawned := (h.spawned _ he.lt).trans he.spawned
  unique := fun e' he' heq => he.unique e' (h.entries e' he' (heq ▸ he.lt)) heq

structure SoundContext (t : Tables N V) (p : ActorId) (ctx : ActorContext N) : Prop where
  children : ∀ c ∈ ctx.children, ChildRef t p c
  order : ∀ c ∈ ctx.childOrder, ChildRef t p c
  children_nodup : (ctx.children.map (·.id)).Nodup
  order_nodup : (ctx.childOrder.map (·.id)).Nodup

namespace SoundContext

variable {t t' : Tables N V} {p : ActorId} {ctx : ActorContext N}

theorem empty (t : Tables N V) (p : ActorId) : SoundContext t p ⟨[], []⟩ :=
  ⟨fun _ h => (List.not_mem_nil h).elim, fun _ h => (List.not_mem_nil h).elim,
    List.nodup_nil, List.nodup_nil⟩

theorem extend (h : Extends t t') (hctx : SoundContext t p ctx) : SoundContext t' p ctx :=
  ⟨fun c hc => (hctx.children c hc).extend h, fun c hc => (hctx.order c hc).extend h,
    hctx.children_nodup, hctx.order_nodup⟩

/-- Children may leave the set and the list. -/
theorem sublist (hctx : SoundContext t p ctx) {ctx' : ActorContext N}
    (hchildren : ctx'.children.Sublist ctx.children)
    (horder : ctx'.childOrder.Sublist ctx.childOrder) : SoundContext t p ctx' :=
  ⟨fun c hc => hctx.children c (hchildren.subset hc), fun c hc => hctx.order c (horder.subset hc),
    hctx.children_nodup.sublist (hchildren.map _), hctx.order_nodup.sublist (horder.map _)⟩

theorem nodup_append_new {cs : List (ActorRef N)} (hlt : ∀ c ∈ cs, c.id < t.nextId)
    (hnodup : (cs.map (·.id)).Nodup) {c : ActorRef N} (hc : c.id = t.nextId) :
    ((cs ++ [c]).map (·.id)).Nodup := by
  rw [List.map_append]
  refine hnodup.append (List.nodup_singleton _) ?_
  intro x hx hx'
  obtain ⟨d, hd, rfl⟩ := List.mem_map.1 hx
  rw [List.map_singleton, List.mem_singleton, hc] at hx'
  exact absurd hx' (Nat.ne_of_lt (hlt d hd))

/-- A new child joins both. -/
theorem append (h : Extends t t') (hctx : SoundContext t p ctx) {c : ActorRef N}
    (hc : ChildRef t' p c) (hnew : c.id = t.nextId) :
    SoundContext t' p ⟨ctx.children ++ [c], ctx.childOrder ++ [c]⟩ where
  children := by
    intro d hd
    rcases List.mem_append.1 hd with hd | hd
    · exact (hctx.children d hd).extend h
    · rw [List.mem_singleton.1 hd]
      exact hc
  order := by
    intro d hd
    rcases List.mem_append.1 hd with hd | hd
    · exact (hctx.order d hd).extend h
    · rw [List.mem_singleton.1 hd]
      exact hc
  children_nodup := nodup_append_new (fun d hd => (hctx.children d hd).lt) hctx.children_nodup hnew
  order_nodup := nodup_append_new (fun d hd => (hctx.order d hd).lt) hctx.order_nodup hnew

/-- The order of the list does not matter. -/
theorem perm (hctx : SoundContext t p ctx) {order : List (ActorRef N)}
    (h : order.Perm ctx.childOrder) : SoundContext t p ⟨ctx.children, order⟩ :=
  ⟨hctx.children, fun c hc => hctx.order c (h.subset hc), hctx.children_nodup,
    ((h.map _).nodup_iff).2 hctx.order_nodup⟩

end SoundContext

/-- `splice` in and out leaves the same references as removing and appending. -/
theorem replaceInOrder_perm (order : List (ActorRef N)) (old : ActorId) (c : ActorRef N) :
    (Tables.replaceInOrder order old c).Perm (order.eraseP (fun r => r.id = old) ++ [c]) := by
  unfold Tables.replaceInOrder
  rw [List.eraseP_eq_eraseIdx]
  cases hi : order.findIdx? (fun r => decide (r.id = old)) with
  | none => exact List.Perm.refl _
  | some i =>
      have hlt : i < order.length := List.findIdx?_eq_some_iff_findIdx_eq.1 hi |>.1
      have hle : i ≤ (order.eraseIdx i).length := by
        rw [List.length_eraseIdx_of_lt hlt]
        omega
      exact (List.perm_insertIdx c _ hle).trans (List.perm_append_singleton c _).symm

/-! ## Sound tables -/

/-- What the tables satisfy in every run. -/
structure Sound (t : Tables N V) : Prop where
  metadata : ∀ x, t.actorMetadata x = if x ∈ t.actors then t.spawned x else none
  live_spawned : ∀ x ∈ t.actors, ∃ m, t.spawned x = some m
  spawned_lt : ∀ x m, t.spawned x = some m → x < t.nextId
  parent_lt : ∀ x m r, t.spawned x = some m → m.parent = some r → r.id < t.nextId
  self : ∀ x m, t.spawned x = some m → (t.self x).systemId = t.id ∧ (t.self x).id = x
  lineage_lt : ∀ x < t.nextId, t.lineage x < t.nextId
  lineage_unspawned : ∀ x, t.spawned x = none → t.lineage x = x
  inherits : ∀ x m, t.spawned x = some m → ∃ m', t.spawned (t.lineage x) = some m' ∧
    m'.options = m.options ∧ m'.parent.map (·.id) = m.parent.map (·.id)
  contexts : ∀ p, SoundContext t p (t.context p)
  entries : ∀ e ∈ t.remoteChildren, KnownEntry t e
  /-- A child that no stop has taken off is on both lists of its parent. -/
  listed : ∀ x ∈ t.actors, x ∉ t.detached → ∀ m r, t.spawned x = some m → m.parent = some r →
    t.self x ∈ (t.context r.id).children ∧ t.self x ∈ (t.context r.id).childOrder
  /-- A child on another node is on both lists of its parent while that is there. -/
  tracked : ∀ e ∈ t.remoteChildren, e.parentRef.id ∈ t.actors →
    e.childRef ∈ (t.context e.parentRef.id).children ∧
      e.childRef ∈ (t.context e.parentRef.id).childOrder

namespace Sound

variable {t : Tables N V}

theorem lt_of_live (h : Sound t) {x : ActorId} (hx : x ∈ t.actors) : x < t.nextId := by
  obtain ⟨m, hm⟩ := h.live_spawned x hx
  exact h.spawned_lt x m hm

theorem metadata_of_live (h : Sound t) {x : ActorId} (hx : x ∈ t.actors) :
    t.actorMetadata x = t.spawned x := by
  rw [h.metadata, if_pos hx]

theorem live_of_metadata (h : Sound t) {x : ActorId} {m : ActorMetadata N V}
    (hm : t.actorMetadata x = some m) : x ∈ t.actors ∧ t.spawned x = some m := by
  rw [h.metadata] at hm
  split_ifs at hm with hx
  exact ⟨hx, hm⟩

theorem live_of_parentOf (h : Sound t) {x : ActorId} {r : ActorRef N}
    (hr : t.parentOf x = some r) :
    x ∈ t.actors ∧ ∃ m, t.spawned x = some m ∧ m.parent = some r := by
  obtain ⟨m, hm, hparent⟩ := Option.bind_eq_some_iff.1 hr
  obtain ⟨hx, hspawned⟩ := h.live_of_metadata hm
  exact ⟨hx, m, hspawned, hparent⟩

theorem parentOf_of_live (h : Sound t) {x : ActorId} (hx : x ∈ t.actors) {m : ActorMetadata N V}
    (hm : t.spawned x = some m) : t.parentOf x = m.parent := by
  unfold Tables.parentOf
  rw [h.metadata_of_live hx, hm]
  rfl

theorem unspawned (h : Sound t) : t.spawned t.nextId = none := by
  cases hm : t.spawned t.nextId with
  | none => rfl
  | some m => exact absurd (h.spawned_lt _ _ hm) (Nat.lt_irrefl _)

theorem ne_remote (h : Sound t) {x : ActorId} (hx : x ∈ t.actors) {e : RemoteChildEntry N V}
    (he : KnownEntry t e) : x ≠ e.childRef.id := by
  rintro rfl
  obtain ⟨m, hm⟩ := h.live_spawned _ hx
  rw [he.spawned] at hm
  cases hm

end Sound

theorem sound_init (id : N) : Sound (Tables.init id : Tables N V) where
  metadata := fun _ => rfl
  live_spawned := fun _ h => (Finset.notMem_empty _ h).elim
  spawned_lt := fun _ _ h => nomatch h
  parent_lt := fun _ _ _ h => nomatch h
  self := fun _ _ h => nomatch h
  lineage_lt := fun _ h => h
  lineage_unspawned := fun _ _ => rfl
  inherits := fun _ _ h => nomatch h
  contexts := fun p => SoundContext.empty _ p
  entries := fun _ h => (List.not_mem_nil h).elim
  listed := fun _ h => (Finset.notMem_empty _ h).elim
  tracked := fun _ h => (List.not_mem_nil h).elim

/-! ## New actors -/

/-- A new instance continues a lineage with the same options and the same parent, or
starts one. -/
def Inherits (t : Tables N V) (first : Option ActorId) (m : ActorMetadata N V) : Prop :=
  ∀ σ, first = some σ → ∃ x m', σ = t.lineage x ∧ t.spawned x = some m' ∧
    m'.options = m.options ∧ m'.parent.map (·.id) = m.parent.map (·.id)

section
variable {t : Tables N V}

@[simp] theorem spawned_register (m : ActorMetadata N V) (first : Option ActorId) :
    (t.register m first).spawned t.nextId = some m := Function.update_self _ _ _

@[simp] theorem self_register (m : ActorMetadata N V) (first : Option ActorId) :
    (t.register m first).self t.nextId = ⟨t.id, t.nextId, m.options.name, 0⟩ :=
  Function.update_self _ _ _

/-- The tables with a new instance, whatever lists it is put on. -/
theorem sound_born (h : Sound t) {m : ActorMetadata N V} {first : Option ActorId}
    (hfirst : Inherits t first m) {ctx : ActorId → ActorContext N}
    (hctx : ∀ p, SoundContext (t.register m first) p (ctx p))
    (hkeep : ∀ p < t.nextId, (∀ c ∈ (t.context p).children, c ∈ (ctx p).children) ∧
      ∀ c ∈ (t.context p).childOrder, c ∈ (ctx p).childOrder)
    (hparent : ∀ r, m.parent = some r → r.id < t.nextId)
    (hlisted : ∀ r, m.parent = some r →
      (t.register m first).self t.nextId ∈ (ctx r.id).children ∧
      (t.register m first).self t.nextId ∈ (ctx r.id).childOrder) :
    Sound { t.register m first with context := ctx } := by
  have hext : Extends t { t.register m first with context := ctx } :=
    { extends_register t m first with }
  have hne : ∀ {x}, x ∈ t.actors → x ≠ t.nextId := fun hx => Nat.ne_of_lt (h.lt_of_live hx)
  have hold : ∀ {x}, x ≠ t.nextId →
      Function.update t.spawned t.nextId (some m) x = t.spawned x :=
    fun hx => Function.update_of_ne hx _ _
  constructor
  · intro x
    by_cases hx : x = t.nextId
    · subst hx
      simp [Tables.register]
    · have hmem : x ∈ insert t.nextId t.actors ↔ x ∈ t.actors := by simp [hx]
      simp only [Tables.register, Function.update_of_ne hx, hmem]
      exact h.metadata x
  · intro x hx
    rcases Finset.mem_insert.1 hx with rfl | hx
    · exact ⟨m, spawned_register m first⟩
    · obtain ⟨m', hm'⟩ := h.live_spawned x hx
      exact ⟨m', (hold (hne hx)).trans hm'⟩
  · intro x m' hm'
    by_cases hx : x = t.nextId
    · subst hx
      exact Nat.lt_succ_self _
    · exact Nat.lt_succ_of_lt (h.spawned_lt x m' ((hold hx).symm.trans hm'))
  · intro x m' r hm' hr
    by_cases hx : x = t.nextId
    · subst hx
      rw [show m' = m from Option.some.inj (hm'.symm.trans (spawned_register m first))] at hr
      exact Nat.lt_succ_of_lt (hparent r hr)
    · exact Nat.lt_succ_of_lt (h.parent_lt x m' r ((hold hx).symm.trans hm') hr)
  · intro x m' hm'
    by_cases hx : x = t.nextId
    · subst hx
      simp [Tables.register]
    · simp only [Tables.register, Function.update_of_ne hx]
      exact h.self x m' ((hold hx).symm.trans hm')
  · intro x hx
    by_cases hx' : x = t.nextId
    · subst hx'
      simp only [Tables.register, Function.update_self]
      cases first with
      | none => exact Nat.lt_succ_self _
      | some σ =>
          obtain ⟨y, m', rfl, hy, -⟩ := hfirst σ rfl
          exact Nat.lt_succ_of_lt (h.lineage_lt y (h.spawned_lt y m' hy))
    · simp only [Tables.register, Function.update_of_ne hx']
      have hlt : x < t.nextId := Nat.lt_of_le_of_ne (Nat.le_of_lt_succ hx) hx'
      exact Nat.lt_succ_of_lt (h.lineage_lt x hlt)
  · intro x hx
    by_cases hx' : x = t.nextId
    · subst hx'
      exact absurd ((spawned_register m first).symm.trans hx) (Option.some_ne_none m)
    · simp only [Tables.register, Function.update_of_ne hx']
      exact h.lineage_unspawned x ((hold hx').symm.trans hx)
  · intro x m' hm'
    by_cases hx : x = t.nextId
    · subst hx
      rw [show m' = m from Option.some.inj (hm'.symm.trans (spawned_register m first))]
      simp only [Tables.register, Function.update_self]
      cases first with
      | none => exact ⟨m, Function.update_self _ _ _, rfl, rfl⟩
      | some σ =>
          obtain ⟨y, my, rfl, hy, hoptions, hsame⟩ := hfirst σ rfl
          obtain ⟨m₀, hm₀, hoptions₀, hsame₀⟩ := h.inherits y my hy
          have hlt := h.spawned_lt _ _ hm₀
          exact ⟨m₀, (hold (Nat.ne_of_lt hlt)).trans hm₀, hoptions₀.trans hoptions,
            hsame₀.trans hsame⟩
    · have hm := (hold hx).symm.trans hm'
      obtain ⟨m₀, hm₀, hrest⟩ := h.inherits x m' hm
      have hlt := h.spawned_lt _ _ hm₀
      simp only [Tables.register, Function.update_of_ne hx]
      exact ⟨m₀, (hold (Nat.ne_of_lt hlt)).trans hm₀, hrest⟩
  · exact fun p => (hctx p).extend { Extends.refl (t.register m first) with }
  · exact fun e he => (h.entries e he).extend hext
  · intro x hx hdetached m' r hm' hr
    by_cases hx' : x = t.nextId
    · subst hx'
      rw [show m' = m from Option.some.inj (hm'.symm.trans (spawned_register m first))] at hr
      exact hlisted r hr
    · have hlive := (Finset.mem_insert.1 hx).resolve_left hx'
      have hm := (hold hx').symm.trans hm'
      have hboth := h.listed x hlive hdetached m' r hm hr
      have hlt := h.parent_lt x m' r hm hr
      have hself : (t.register m first).self x = t.self x := Function.update_of_ne hx' _ _
      dsimp only
      rw [hself]
      exact ⟨(hkeep r.id hlt).1 _ hboth.1, (hkeep r.id hlt).2 _ hboth.2⟩
  · intro e he hpresent
    have hlt := (h.entries e he).parent_lt
    have hlive := (Finset.mem_insert.1 hpresent).resolve_left (Nat.ne_of_lt hlt)
    have hboth := h.tracked e he hlive
    exact ⟨(hkeep _ hlt).1 _ hboth.1, (hkeep _ hlt).2 _ hboth.2⟩

theorem context_register {m : ActorMetadata N V} {first : Option ActorId} (h : Sound t)
    (p : ActorId) : SoundContext (t.register m first) p ((t.register m first).context p) := by
  by_cases hp : p = t.nextId
  · subst hp
    simp only [Tables.register, Function.update_self]
    exact SoundContext.empty _ _
  · simp only [Tables.register, Function.update_of_ne hp]
    exact (h.contexts p).extend (extends_register t m first)

theorem context_register_of_lt {m : ActorMetadata N V} {first : Option ActorId} {p : ActorId}
    (hp : p < t.nextId) : (t.register m first).context p = t.context p :=
  Function.update_of_ne (Nat.ne_of_lt hp) _ _

theorem sound_spawn (h : Sound t) {actorClass : String} {options : SpawnOptions V}
    {first : Option ActorId} (hfirst : Inherits t first ⟨actorClass, options, none⟩) :
    Sound (t.spawn actorClass options first) :=
  sound_born h hfirst (context_register h)
    (fun p hp => by
      rw [Function.update_of_ne (Nat.ne_of_lt hp)]
      exact ⟨fun _ hc => hc, fun _ hc => hc⟩)
    (fun r hr => nomatch hr) (fun r hr => nomatch hr)

theorem sound_spawnChild (h : Sound t) {p : ActorRef N} {actorClass : String}
    {options : SpawnOptions V} {first : Option ActorId}
    (hfirst : Inherits t first ⟨actorClass, options, some p⟩) :
    Sound (t.spawnChild p actorClass options first) := by
  unfold Tables.spawnChild
  split_ifs with hp
  · have hlt := h.lt_of_live hp
    have hnew : ChildRef (t.register ⟨actorClass, options, some p⟩ first) p.id
        ⟨t.id, t.nextId, options.name, 0⟩ :=
      { lt := Nat.lt_succ_self _
        here := fun _ => ⟨(self_register (t := t) ⟨actorClass, options, some p⟩ first).symm, _, p,
          spawned_register _ _, rfl, rfl⟩
        elsewhere := fun hne => absurd rfl hne }
    refine sound_born h hfirst (fun q => ?_) (fun q hq => ?_) (fun r hr => ?_) (fun r hr => ?_)
    · by_cases hq : q = p.id
      · subst hq
        rw [Function.update_self, context_register_of_lt hlt]
        exact (h.contexts p.id).append (extends_register t _ _) hnew rfl
      · rw [Function.update_of_ne hq]
        exact context_register h q
    · by_cases hq' : q = p.id
      · subst hq'
        rw [Function.update_self, context_register_of_lt hlt]
        exact ⟨fun _ hc => List.mem_append_left _ hc, fun _ hc => List.mem_append_left _ hc⟩
      · rw [Function.update_of_ne hq', context_register_of_lt hq]
        exact ⟨fun _ hc => hc, fun _ hc => hc⟩
    · cases hr
      exact hlt
    · cases hr
      rw [Function.update_self, self_register]
      exact ⟨List.mem_append_right _ List.mem_cons_self, List.mem_append_right _ List.mem_cons_self⟩
  · exact h

/-! ## Leaving and removal -/

theorem sound_remove (h : Sound t) (x : ActorId) : Sound (t.remove x) where
  metadata := by
    intro y
    by_cases hy : y = x
    · subst hy
      simp [Tables.remove]
    · have hmem : y ∈ t.actors.erase x ↔ y ∈ t.actors := by simp [hy]
      simp only [Tables.remove, Function.update_of_ne hy, hmem]
      exact h.metadata y
  live_spawned := fun y hy => h.live_spawned y (Finset.mem_of_mem_erase hy)
  spawned_lt := h.spawned_lt
  parent_lt := h.parent_lt
  self := h.self
  lineage_lt := h.lineage_lt
  lineage_unspawned := h.lineage_unspawned
  inherits := h.inherits
  contexts := fun p => (h.contexts p).extend (extends_remove t x)
  entries := fun e he => (h.entries e he).extend (extends_remove t x)
  listed := fun y hy => h.listed y (Finset.mem_of_mem_erase hy)
  tracked := fun e he hp => h.tracked e he (Finset.mem_of_mem_erase hp)

theorem sound_forgetRemote (h : Sound t) (x : ActorId) : Sound (t.forgetRemote x) :=
  { h with
    contexts := fun p => (h.contexts p).extend (extends_forgetRemote t x)
    entries := fun e he => (h.entries e (List.mem_of_mem_filter he)).extend
      (extends_forgetRemote t x)
    tracked := fun e he => h.tracked e (List.mem_of_mem_filter he) }

theorem ne_of_mem_forgetRemote {x : ActorId} {e : RemoteChildEntry N V}
    (he : e ∈ (t.forgetRemote x).remoteChildren) : e.childRef.id ≠ x := by
  have hne := (List.mem_filter.1 he).2
  simpa using hne

theorem mem_of_getRemoteChild {x : ActorId} {e : RemoteChildEntry N V}
    (h : t.getRemoteChild x = some e) : e ∈ t.remoteChildren ∧ e.childRef.id = x := by
  refine ⟨List.mem_of_find?_eq_some h, ?_⟩
  have hid := List.find?_some h
  simpa using hid

/-- A new entry, with the next id, on whatever lists. -/
theorem sound_tracked (h : Sound t) {e : RemoteChildEntry N V} {rs : List (RemoteChildEntry N V)}
    {ctx : ActorId → ActorContext N} (hid : e.childRef.id = t.nextId)
    (hparent : e.parentRef.id < t.nextId) (hnode : e.childRef.systemId = e.childNodeId)
    (helse : e.childNodeId ≠ t.id) (hrs : ∀ e' ∈ rs, e' ∈ t.remoteChildren)
    (hctx : ∀ p, SoundContext { t with nextId := t.nextId + 1 } p (ctx p))
    (hlisted : ∀ p (c : ActorRef N), t.spawned c.id ≠ none →
      c ∈ (t.context p).children ∧ c ∈ (t.context p).childOrder →
      c ∈ (ctx p).children ∧ c ∈ (ctx p).childOrder)
    (htracked : ∀ e' ∈ rs ++ [e], e'.parentRef.id ∈ t.actors →
      e'.childRef ∈ (ctx e'.parentRef.id).children ∧
        e'.childRef ∈ (ctx e'.parentRef.id).childOrder) :
    Sound { t with nextId := t.nextId + 1, remoteChildren := rs ++ [e], context := ctx } := by
  have hext : Extends t
      { t with nextId := t.nextId + 1, remoteChildren := rs ++ [e], context := ctx } :=
    { Extends.refl t with
      nextId := Nat.le_succ _
      entries := by
        intro e' he' hlt
        rcases List.mem_append.1 he' with he' | he'
        · exact hrs e' he'
        · rw [List.mem_singleton.1 he', hid] at hlt
          exact absurd hlt (Nat.lt_irrefl _) }
  exact { h with
    spawned_lt := fun x m hm => Nat.lt_succ_of_lt (h.spawned_lt x m hm)
    parent_lt := fun x m r hm hr => Nat.lt_succ_of_lt (h.parent_lt x m r hm hr)
    lineage_lt := by
      intro x hx
      rcases Nat.lt_succ_iff_lt_or_eq.1 hx with hx | rfl
      · exact Nat.lt_succ_of_lt (h.lineage_lt x hx)
      · rw [h.lineage_unspawned _ h.unspawned]
        exact Nat.lt_succ_self _
    contexts := fun p => ⟨fun c hc => ⟨((hctx p).children c hc).lt, ((hctx p).children c hc).here,
        ((hctx p).children c hc).elsewhere⟩,
      fun c hc => ⟨((hctx p).order c hc).lt, ((hctx p).order c hc).here,
        ((hctx p).order c hc).elsewhere⟩,
      (hctx p).children_nodup, (hctx p).order_nodup⟩
    entries := by
      intro e' he'
      rcases List.mem_append.1 he' with he' | he'
      · exact (h.entries e' (hrs e' he')).extend hext
      · rw [List.mem_singleton.1 he']
        exact
          { lt := hid ▸ Nat.lt_succ_self _
            parent_lt := Nat.lt_succ_of_lt hparent
            node := hnode
            elsewhere := helse
            spawned := hid ▸ h.unspawned
            unique := by
              intro d hd heq
              rcases List.mem_append.1 hd with hd | hd
              · have hlt := (h.entries d (hrs d hd)).lt
                rw [heq, hid] at hlt
                exact absurd hlt (Nat.lt_irrefl _)
              · exact List.mem_singleton.1 hd }
    listed := by
      intro x hx hdetached m r hm hr
      refine hlisted r.id (t.self x) ?_ (h.listed x hx hdetached m r hm hr)
      rw [(h.self x m hm).2, hm]
      exact Option.some_ne_none m
    tracked := htracked }

theorem sound_addRemoteChild (h : Sound t) {p : ActorRef N} {actorClass : String} {node : N}
    {options : SpawnOptions V} (hp : p.id < t.nextId) (hnode : node ≠ t.id) :
    Sound (t.addRemoteChild p actorClass node options) := by
  have hext : Extends t { t with nextId := t.nextId + 1 } :=
    { Extends.refl t with nextId := Nat.le_succ _ }
  have hnew : ChildRef { t with nextId := t.nextId + 1 } p.id
      ⟨node, t.nextId, options.name, 0⟩ :=
    { lt := Nat.lt_succ_self _
      here := fun hhere => absurd hhere hnode
      elsewhere := fun _ => h.unspawned }
  refine sound_tracked h rfl hp rfl hnode (fun _ he => he) (fun q => ?_) (fun q c _ hc => ?_)
    fun e he hpresent => ?_
  · by_cases hq : q = p.id
    · subst hq
      rw [Function.update_self]
      exact (h.contexts p.id).append hext hnew rfl
    · rw [Function.update_of_ne hq]
      exact (h.contexts q).extend hext
  · by_cases hq : q = p.id
    · subst hq
      rw [Function.update_self]
      exact ⟨List.mem_append_left _ hc.1, List.mem_append_left _ hc.2⟩
    · rw [Function.update_of_ne hq]
      exact hc
  · rcases List.mem_append.1 he with he | he
    · have hboth := h.tracked e he hpresent
      by_cases hq : e.parentRef.id = p.id
      · rw [hq, Function.update_self]
        rw [hq] at hboth
        exact ⟨List.mem_append_left _ hboth.1, List.mem_append_left _ hboth.2⟩
      · rw [Function.update_of_ne hq]
        exact hboth
    · rw [List.mem_singleton.1 he, Function.update_self]
      exact ⟨List.mem_append_right _ List.mem_cons_self, List.mem_append_right _ List.mem_cons_self⟩

variable [DecidableEq N]

theorem SoundContext.unlist {p : ActorId} {ctx : ActorContext N} (h : SoundContext t p ctx)
    (c : ActorRef N) :
    SoundContext t p ⟨ctx.children.erase c, ctx.childOrder.eraseP fun r => r.id = c.id⟩ :=
  h.sublist List.erase_sublist List.eraseP_sublist

theorem contexts_unlistChild (h : ∀ p, SoundContext t p (t.context p)) (q : ActorId)
    (c : ActorRef N) (p : ActorId) :
    SoundContext (t.unlistChild q c) p ((t.unlistChild q c).context p) := by
  have hext := extends_unlistChild t q c
  by_cases hp : p = q
  · subst hp
    simp only [Tables.unlistChild, Function.update_self]
    exact ((h p).unlist c).extend hext
  · simp only [Tables.unlistChild, Function.update_of_ne hp]
    exact (h p).extend hext

/-- A reference with another id stays on both lists. -/
theorem mem_unlistChild {q p : ActorId} {c d : ActorRef N} (hne : d.id ≠ c.id)
    (h : d ∈ (t.context p).children ∧ d ∈ (t.context p).childOrder) :
    d ∈ ((t.unlistChild q c).context p).children ∧
      d ∈ ((t.unlistChild q c).context p).childOrder := by
  by_cases hp : p = q
  · subst hp
    simp only [Tables.unlistChild, Function.update_self]
    exact ⟨(List.mem_erase_of_ne fun heq => hne (congrArg ActorRef.id heq)).2 h.1,
      (List.mem_eraseP_of_neg (by simpa using hne)).2 h.2⟩
  · simp only [Tables.unlistChild, Function.update_of_ne hp]
    exact h

/-- Taking references with the id `x` off the lists, when no child on them needs it. -/
theorem sound_unlistChild (h : Sound t) {q : ActorId} {c : ActorRef N}
    (hhere : ∀ x ∈ t.actors, x ∉ t.detached → x ≠ c.id)
    (hremote : ∀ e ∈ t.remoteChildren, e.childRef.id ≠ c.id) : Sound (t.unlistChild q c) :=
  { h with
    contexts := contexts_unlistChild h.contexts q c
    entries := fun e he => (h.entries e he).extend (extends_unlistChild t q c)
    listed := by
      intro x hx hdetached m r hm hr
      refine mem_unlistChild ?_ (h.listed x hx hdetached m r hm hr)
      exact fun heq => hhere x hx hdetached ((h.self x m hm).2.symm.trans heq)
    tracked := fun e he hp => mem_unlistChild (hremote e he) (h.tracked e he hp) }

theorem sound_detach (h : Sound t) (r : ActorRef N) : Sound (t.detach r) := by
  have hleft : Sound { t with detached := insert r.id t.detached } :=
    { h with
      contexts := fun p => (h.contexts p).extend (extends_left t r.id)
      entries := fun e he => (h.entries e he).extend (extends_left t r.id)
      listed := fun x hx hdetached =>
        h.listed x hx fun hin => hdetached (Finset.mem_insert_of_mem hin) }
  unfold Tables.detach
  dsimp only
  split
  · exact hleft
  · next p hparent =>
      split_ifs
      · refine sound_unlistChild hleft (fun x _ hdetached => ?_) fun e he => ?_
        · rintro rfl
          exact hdetached (Finset.mem_insert_self _ _)
        · exact (h.ne_remote (h.live_of_parentOf hparent).1 (h.entries e he)).symm
      · exact hleft

/-! ## Children on other nodes -/

theorem sound_dropRemoteChild (h : Sound t) {e : RemoteChildEntry N V} (he : KnownEntry t e)
    (p : ActorRef N) : Sound (t.dropRemoteChild e.childRef p) := by
  unfold Tables.dropRemoteChild
  split_ifs
  · refine sound_unlistChild (sound_forgetRemote h _) (fun x hx _ => ?_) fun e' he' => ?_
    · exact h.ne_remote hx he
    · exact ne_of_mem_forgetRemote he'
  · exact sound_forgetRemote h _

theorem sound_removeRemoteChild (h : Sound t) (x : ActorId) (p : ActorRef N) :
    Sound (t.removeRemoteChild x p) := by
  unfold Tables.removeRemoteChild
  split
  · exact h
  · next e he => exact sound_dropRemoteChild h (h.entries e (mem_of_getRemoteChild he).1) p

/-- In the lists of its parent the new child takes the place of the old one. -/
theorem mem_replaced {ctx : ActorContext N} {old new d : ActorRef N} (hne : d.id ≠ old.id)
    (hd : d ∈ ctx.children ∧ d ∈ ctx.childOrder) :
    d ∈ ctx.children.erase old ++ [new] ∧ d ∈ Tables.replaceInOrder ctx.childOrder old.id new :=
  ⟨List.mem_append_left _ ((List.mem_erase_of_ne fun heq => hne (congrArg ActorRef.id heq)).2 hd.1),
    (replaceInOrder_perm _ _ _).mem_iff.2 (List.mem_append_left _
      ((List.mem_eraseP_of_neg (by simpa using hne)).2 hd.2))⟩

theorem new_mem_replaced (ctx : ActorContext N) (old new : ActorRef N) :
    new ∈ ctx.children.erase old ++ [new] ∧
      new ∈ Tables.replaceInOrder ctx.childOrder old.id new :=
  ⟨List.mem_append_right _ List.mem_cons_self,
    (replaceInOrder_perm _ _ _).mem_iff.2 (List.mem_append_right _ List.mem_cons_self)⟩

theorem sound_replaceRemoteChild (h : Sound t) {e : RemoteChildEntry N V} (he : KnownEntry t e) :
    Sound (t.replaceRemoteChild e) := by
  have hext : Extends t { t with nextId := t.nextId + 1 } :=
    { Extends.refl t with nextId := Nat.le_succ _ }
  have hnew : ChildRef { t with nextId := t.nextId + 1 } e.parentRef.id
      ⟨e.childNodeId, t.nextId, e.options.name, 0⟩ :=
    { lt := Nat.lt_succ_self _
      here := fun hhere => absurd hhere he.elsewhere
      elsewhere := fun _ => h.unspawned }
  have hspawned_ne : ∀ c : ActorRef N, t.spawned c.id ≠ none → c.id ≠ e.childRef.id :=
    fun c hc heq => hc (heq ▸ he.spawned)
  unfold Tables.replaceRemoteChild
  dsimp only
  split_ifs with hpresent
  · refine sound_tracked h rfl he.parent_lt rfl he.elsewhere
      (fun _ he' => List.mem_of_mem_filter he') (fun q => ?_) (fun q c hc hboth => ?_)
      fun e' he' hlive => ?_
    · by_cases hq : q = e.parentRef.id
      · subst hq
        rw [Function.update_self]
        have happended := ((h.contexts e.parentRef.id).unlist e.childRef).append hext hnew rfl
        exact happended.perm (replaceInOrder_perm _ _ _)
      · rw [Function.update_of_ne hq]
        exact (h.contexts q).extend hext
    · by_cases hq : q = e.parentRef.id
      · subst hq
        rw [Function.update_self]
        exact mem_replaced (hspawned_ne c hc) hboth
      · rw [Function.update_of_ne hq]
        exact hboth
    · rcases List.mem_append.1 he' with he' | he'
      · have hboth := h.tracked e' (List.mem_of_mem_filter he') hlive
        by_cases hq : e'.parentRef.id = e.parentRef.id
        · rw [hq, Function.update_self]
          rw [hq] at hboth
          exact mem_replaced (ne_of_mem_forgetRemote he') hboth
        · rw [Function.update_of_ne hq]
          exact hboth
      · rw [List.mem_singleton.1 he', Function.update_self]
        exact new_mem_replaced _ _ _
  · refine sound_tracked h rfl he.parent_lt rfl he.elsewhere
      (fun _ he' => List.mem_of_mem_filter he') (fun q => (h.contexts q).extend hext)
      (fun q c _ hboth => hboth) fun e' he' hlive => ?_
    rcases List.mem_append.1 he' with he' | he'
    · exact h.tracked e' (List.mem_of_mem_filter he') hlive
    · rw [List.mem_singleton.1 he'] at hlive
      exact absurd hlive hpresent

end

end Libeam.Proofs.TreeTables
