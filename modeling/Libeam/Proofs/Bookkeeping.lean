import Libeam.Proofs.ChildLists
/-!
# The records of children agree

The set `context.children`, the list `context.childOrder` and the children that are live
are three records.  When no call is in progress they name the same children of every
live parent, as long as children leave the lists through their own reference and no
failure drops a child half way.
-/

namespace Libeam.Proofs.Bookkeeping

open Libeam.System (ActorId Supervisor)
open Supervision Lib.Transition TreeTables TreeSteps StopCascade ChildLists

variable {N V : Type}

/-- A child of `q`: an instance of this node, or one of another node that has an entry. -/
def LiveChild (t : Tables N V) (q x : ActorId) : Prop :=
  (x ∈ t.actors ∧ ∃ p, t.parentOf x = some p ∧ p.id = q) ∨
    ∃ e ∈ t.remoteChildren, e.childRef.id = x ∧ e.parentRef.id = q

/-- With no call in progress, the set and the list of every live parent name its live
children, and the list names none twice. -/
def Bookkept (t : Tree N V) : Prop :=
  t.calls = [] → ∀ q ∈ t.actors,
    (∀ x, x ∈ (t.context q).children.map (·.id) ↔ LiveChild t.toTables q x) ∧
    (∀ x, x ∈ (t.context q).childOrder.map (·.id) ↔ LiveChild t.toTables q x) ∧
    ((t.context q).childOrder.map (·.id)).Nodup

/-- The steps that may change the children of a live parent without going wrong. -/
structure BookGuard (t : Tree N V) (a : TreeAction N V) : Prop
    extends OwnGuard t a, EntryGuard t a where
  /-- No stop is rejected after it has taken the actor off the lists of a live parent. -/
  reject : ∀ index f outer x p, a = .rejects index → t.calls[index]? = some (f :: outer) →
    leaves f = some x → t.parentOf x = some p → p.id ∉ t.actors

/-- The parent of the actor is there. -/
def HasParent (t : Tables N V) (x : ActorId) : Prop :=
  ∃ m p, t.spawned x = some m ∧ m.parent = some p ∧ p.id ∈ t.actors

/-! ## Runs -/

section
variable [DecidableEq N]

/-- What holds in a run while its steps meet the guard. -/
structure BookRun (t : Tree N V) : Prop where
  sound : SoundTree t
  here : ListedHere t.toTables
  elsewhere : ListedElsewhere t.toTables
  leaving : Leaving HasParent t

theorem bookRun_keep {stringify : List V → String} {t : Tree N V} (h : BookRun t)
    {a : TreeAction N V} (hguard : BookGuard t a) {t' : Tree N V}
    (hstep : t.step stringify a = some t') : BookRun t' := by
  have hsteps := step_cases hstep
  have hext := steps_extends hsteps
  refine ⟨soundTree_step h.sound hstep,
    listedHere_steps h.sound h.here h.leaving.detached_lt hguard.toOwnGuard hsteps,
    listedElsewhere_steps h.sound h.elsewhere hguard.toEntryGuard hsteps,
    leaving_steps h.sound h.leaving hsteps ?_ ?_⟩
  · rintro x hlt ⟨m, p, hm, hp, hlive⟩
    have hm' := (hext.spawned x hlt).symm.trans hm
    exact ⟨m, p, hm', hp, hext.actors _ hlive (h.sound.tables.parent_lt x m p hm' hp)⟩
  · rintro index f outer x rfl hcall hleaves hlive ⟨m, p, hm, hp, hparent⟩
    exact hguard.reject index f outer x p rfl hcall hleaves
      ((h.sound.tables.parentOf_of_live hlive hm).trans hp) hparent

section
omit [DecidableEq N]

/-- A reference on the lists of a live parent names a live child of it. -/
theorem liveChild_of_onLists {t : Tables N V} (hsound : Sound t) (hhere : ListedHere t)
    (helse : ListedElsewhere t) {q : ActorId} (hq : q ∈ t.actors) {c : ActorRef N}
    (hc : OnLists t q c) : LiveChild t q c.id := by
  by_cases hnode : c.systemId = t.id
  · obtain ⟨hlive, -⟩ := hhere q hq c hc hnode
    obtain ⟨-, m, p, hm, hp, hid⟩ := (hc.childRef hsound).here hnode
    exact .inl ⟨hlive, p, (hsound.parentOf_of_live hlive hm).trans hp, hid⟩
  · obtain ⟨e, he, rfl, hid⟩ := helse q hq c hc hnode
    exact .inr ⟨e, he, rfl, hid⟩

/-- With no stop in progress, a live child of a live parent is in the set and on the
list. -/
theorem listed_of_liveChild {t : Tree N V} (hsound : SoundTree t) (hleaving : Leaving HasParent t)
    (hcalls : t.calls = []) {q : ActorId} (hq : q ∈ t.actors) {x : ActorId}
    (hx : LiveChild t.toTables q x) :
    x ∈ (t.context q).children.map (·.id) ∧ x ∈ (t.context q).childOrder.map (·.id) := by
  rcases hx with ⟨hlive, p, hp, rfl⟩ | ⟨e, he, rfl, rfl⟩
  · obtain ⟨-, m, hm, hparent⟩ := hsound.tables.live_of_parentOf hp
    have hlisted : x ∉ t.detached := by
      intro hdetached
      obtain ⟨f, outer, hin, -⟩ := hleaving.leaving x hlive hdetached ⟨m, p, hm, hparent, hq⟩
      rw [hcalls] at hin
      exact List.not_mem_nil hin
    have hself := (hsound.tables.self x m hm).2
    obtain ⟨hchildren, horder⟩ := hsound.tables.listed x hlive hlisted m p hm hparent
    exact ⟨List.mem_map.2 ⟨_, hchildren, hself⟩, List.mem_map.2 ⟨_, horder, hself⟩⟩
  · obtain ⟨hchildren, horder⟩ := hsound.tables.tracked e he hq
    exact ⟨List.mem_map.2 ⟨_, hchildren, rfl⟩, List.mem_map.2 ⟨_, horder, rfl⟩⟩

theorem bookkept_of_run {t : Tree N V} (h : BookRun t) : Bookkept t := by
  intro hcalls q hq
  have hlive : ∀ c, OnLists t.toTables q c → LiveChild t.toTables q c.id :=
    fun c hc => liveChild_of_onLists h.sound.tables h.here h.elsewhere hq hc
  have hlisted : ∀ x, LiveChild t.toTables q x → x ∈ (t.context q).children.map (·.id) ∧
      x ∈ (t.context q).childOrder.map (·.id) :=
    fun x hx => listed_of_liveChild h.sound h.leaving hcalls hq hx
  refine ⟨fun x => ⟨fun hx => ?_, fun hx => (hlisted x hx).1⟩,
    fun x => ⟨fun hx => ?_, fun hx => (hlisted x hx).2⟩, (h.sound.tables.contexts q).order_nodup⟩
  · obtain ⟨c, hc, rfl⟩ := List.mem_map.1 hx
    exact hlive c (.inl hc)
  · obtain ⟨c, hc, rfl⟩ := List.mem_map.1 hx
    exact hlive c (.inr hc)

end

/-- In a run whose steps meet the guard the records agree whenever no call is in
progress. -/
theorem records_agree (stringify : List V → String) (id : N)
    (childSupervision : ActorId → ChildSupervisionOptions) (supervisor : Supervisor)
    {as : List (TreeAction N V)}
    (hguard : Along (Tree.step stringify) BookGuard (Tree.init id childSupervision supervisor) as) :
    Throughout (Tree.step stringify) Bookkept (Tree.init id childSupervision supervisor) as := by
  have hinit : BookRun (Tree.init id childSupervision supervisor : Tree N V) :=
    { sound := soundTree_init _ _ _
      here := fun q hq => (Finset.notMem_empty q hq).elim
      elsewhere := fun q hq => (Finset.notMem_empty q hq).elim
      leaving := ⟨fun _ _ hcall => (List.not_mem_nil hcall).elim,
        fun x hx => (Finset.notMem_empty x hx).elim,
        fun x hx => (Finset.notMem_empty x hx).elim⟩ }
  have hrun : Throughout (Tree.step stringify) BookRun
      (Tree.init id childSupervision supervisor) as :=
    throughout_of_invariant (fun _ _ _ h hguard hstep => bookRun_keep h hguard hstep) hinit hguard
  exact hrun.mono fun _ h => bookkept_of_run h

end

/-! ## A stop through another reference -/

def family : Tree Unit Nat :=
  .init () (fun _ => ⟨.oneForOne, 1, 1000⟩) (.new .Restart 1 1000)

def parentRef : ActorRef Unit := ⟨(), 0, none, 0⟩

def childRef : ActorRef Unit := ⟨(), 1, none, 0⟩

/-- Another object for actor 1. -/
def copiedRef : ActorRef Unit := ⟨(), 1, none, 1⟩

def spawnsChild : List (TreeAction Unit Nat) :=
  [.spawn "Parent" {}, .spawnChild parentRef "Worker" {}]

/-- The child is stopped, and the stop runs to its end. -/
def stopsThrough (ref : ActorRef Unit) : List (TreeAction Unit Nat) :=
  [.stop ref, .resumes 0 .success, .resumes 0 .success]

/-- The object that was made with the child stays in the set, and the list is empty. -/
theorem stops_through_copy :
    ∃ u, run (Tree.step fun args => toString args) family
        (spawnsChild ++ stopsThrough copiedRef) = some u ∧
      u.calls = [] ∧ 0 ∈ u.actors ∧ 1 ∉ u.actors ∧ (u.context 0).children = [childRef] ∧
      (u.context 0).childOrder = [] :=
  ⟨_, rfl, rfl, by decide, by decide, by decide, by decide⟩

/-- Any action but the removal of an entry may begin when no call is in progress. -/
theorem guard_of_idle {t : Tree N V} (h : t.calls = []) {a : TreeAction N V}
    (hremove : ∀ x p, a ≠ .removeRemoteChild x p) : BookGuard t a where
  own := by
    intro index response f outer r p _ hcall
    rw [h] at hcall
    cases hcall
  migrate := by
    intro index q outer p _ hcall
    rw [h] at hcall
    cases hcall
  failed := by
    intro index response f outer e _ hcall
    rw [h] at hcall
    cases hcall
  removed := fun x p _ ha => absurd ha (hremove x p)
  reject := by
    intro index f outer x p _ hcall
    rw [h] at hcall
    cases hcall

/-- A stop without children goes on when it uses the reference of the actor itself. -/
theorem guard_of_stop {t : Tree N V} {r : ActorRef N} (h : t.calls = [[.stop r]])
    (hself : r = t.self r.id) : BookGuard t (.resumes 0 .success) where
  own := by
    rintro index response f outer r' p ⟨⟩ hcall hr -
    rw [h] at hcall
    cases hcall
    unfold unlists at hr
    dsimp only at hr
    split_ifs at hr
    cases hr
    exact fun _ => hself
  migrate := by
    rintro index q outer p ⟨⟩ hcall
    rw [h] at hcall
    cases hcall
  failed := by
    rintro index response f outer e ⟨⟩ hcall hf
    rw [h] at hcall
    cases hcall
    cases hf
  removed := fun x p _ ha => nomatch ha
  reject := fun index f outer x p ha => nomatch ha

theorem records_agree_stop :
    Throughout (Tree.step fun args => toString args) Bookkept family
      (spawnsChild ++ [.stop childRef, .resumes 0 .success]) := by
  refine records_agree (fun args => toString args) () _ _
    ⟨guard_of_idle rfl (fun _ _ ha => nomatch ha), fun t ht => ?_⟩
  cases ht
  refine ⟨guard_of_idle rfl (fun _ _ ha => nomatch ha), fun t ht => ?_⟩
  cases ht
  refine ⟨guard_of_idle rfl (fun _ _ ha => nomatch ha), fun t ht => ?_⟩
  cases ht
  refine ⟨guard_of_stop rfl rfl, fun t ht => ?_⟩
  cases ht
  trivial

end Libeam.Proofs.Bookkeeping
