import Libeam.Proofs.RestartFrames
import Libeam.Proofs.RestartBudget
/-!
# Slots of children

All instances that replace one child make up its lineage.  Nothing in the source
records that a restart is under way, so a second crash of the same instance begins a
second restart.  While no restart of a lineage is begun that is under way already, a
lineage never has two instances and no instance is replaced twice.
-/

namespace Libeam.Proofs.ChildSlots

open Libeam.System (ActorId Supervisor)
open Supervision Lib.Transition TreeTables TreeSteps RestartFrames
open RestartBudget (granted_iff_remaining)

variable {N V : Type}

/-! ## Replacements -/

/-- A tree with a record of the children that have been replaced. -/
structure Slots (N V : Type) where
  tree : Tree N V
  replaced : List ActorId

/-- The child that a step replaces. -/
def replacedBy (t : Tree N V) : TreeAction N V → Option ActorId
  | .resumes index response =>
      match t.calls[index]? with
      | some (f :: _) => startsAgain t.toTables response f
      | _ => none
  | _ => none

def Slots.step [DecidableEq N] (stringify : List V → String) (s : Slots N V)
    (a : TreeAction N V) : Option (Slots N V) :=
  (s.tree.step stringify a).map fun t => ⟨t, (replacedBy s.tree a).toList ++ s.replaced⟩

/-- No instance has been replaced twice, and no lineage has two live instances. -/
structure OnePerSlot (s : Slots N V) : Prop where
  replaced : s.replaced.Nodup
  live : ∀ x ∈ s.tree.actors, ∀ y ∈ s.tree.actors, IsChild s.tree.toTables x →
    s.tree.lineage x = s.tree.lineage y → x = y

/-- The children that the strategy of `p` restarts after a crash of `x`. -/
def restartedWith (t : Tree N V) (x p : ActorId) : List ActorId :=
  match (t.childSupervision p).strategy with
  | .oneForOne => [x]
  | .oneForAll => (t.context p).childOrder.map (·.id)
  | .restForOne => (t.fromCrashed p x).map (·.id)

section
variable (stringify : List V → String)

/-- The children whose restart an action begins: those that the strategy restarts, if
the budget of the crashed child is not used up. -/
def begins (t : Tree N V) : TreeAction N V → List ActorId
  | .restart r => [r.id]
  | .crash r now =>
      match t.actorMetadata r.id with
      | some ⟨_, options, some p⟩ =>
          if 0 < t.childSupervisor.remaining (getRestartKey stringify r.id p.id (some options))
              (t.childSupervision p.id) now then restartedWith t r.id p.id else []
      | _ => []
  | .remoteCrash x now =>
      match t.getRemoteChild x with
      | some e =>
          if 0 < t.childSupervisor.remaining
              (getRestartKeyForRemote stringify x e.parentRef.id e.options)
              (t.childSupervision e.parentRef.id) now then restartedWith t x e.parentRef.id else []
      | none => []
  | _ => []

/-- The restart of no lineage is begun while one is under way. -/
def SlotGuard (s : Slots N V) (a : TreeAction N V) : Prop :=
  ∀ x ∈ begins stringify s.tree a, ∀ y ∈ restarting s.tree.calls,
    s.tree.lineage x ≠ s.tree.lineage y

end

/-! ## What a crash begins to restart -/

section
variable {t : Tree N V}

/-- The tree goes on with the same calls, or begins a call that starts only `ids`
again. -/
def Plans (t u : Tree N V) (ids : List ActorId) : Prop :=
  u.calls = t.calls ∨
    ∃ frames, u.calls = t.calls ++ [frames] ∧ ∀ x ∈ frames.flatMap starting, x ∈ ids

theorem plans_restart (r : ActorRef N) : Plans t (t.restart r) [r.id] := by
  unfold Tree.restart
  split
  · exact .inl rfl
  · refine .inr ⟨_, rfl, fun x hx => ?_⟩
    change x ∈ (if _ then [r.id] else []) ++ [] at hx
    split_ifs at hx
    · exact hx
    · exact (List.not_mem_nil hx).elim

theorem plans_strategy {p : ActorRef N} {stops refs : List (ActorRef N)} {remote : Bool}
    {plan : List (Planned N V)} (h : (plannedIds plan).Sublist (refs.map (·.id))) :
    Plans t (t.invoke [.strategy p stops remote plan]) (refs.map (·.id)) := by
  refine .inr ⟨_, rfl, fun x hx => h.subset ?_⟩
  change x ∈ plannedIds plan ++ [] at hx
  rwa [List.append_nil] at hx

theorem plans_stop (r : ActorRef N) (ids : List ActorId) : Plans t (t.kill r) ids :=
  .inr ⟨_, rfl, fun _ hx => (List.not_mem_nil hx).elim⟩

theorem plans_applyStrategy (r : ActorRef N) (p : ActorId) :
    Plans t (t.applyStrategy r p) (restartedWith t r.id p) := by
  unfold Tree.applyStrategy restartedWith
  cases (t.childSupervision p).strategy with
  | oneForOne => exact plans_restart r
  | oneForAll => exact plans_strategy (plannedIds_onNode _)
  | restForOne =>
      dsimp only
      cases t.fromCrashed p r.id with
      | nil => exact .inl rfl
      | cons c cs => exact plans_strategy (plannedIds_onNode _)

theorem plans_applyRemoteStrategy [DecidableEq N] (e : RemoteChildEntry N V) :
    Plans t (t.applyRemoteStrategy e) (restartedWith t e.childRef.id e.parentRef.id) := by
  unfold Tree.applyRemoteStrategy restartedWith
  dsimp only
  cases (t.childSupervision e.parentRef.id).strategy with
  | oneForOne => exact .inr ⟨_, rfl, fun _ hx => (List.not_mem_nil hx).elim⟩
  | oneForAll =>
      refine plans_strategy ?_
      rw [plannedIds, List.filterMap_append]
      change (plannedIds _ ++ plannedIds _).Sublist _
      rw [plannedIds_remote, List.append_nil]
      exact (plannedIds_onNode _).trans (List.filter_sublist.map _)
  | restForOne =>
      cases t.fromCrashed e.parentRef.id e.childRef.id with
      | nil => exact .inl rfl
      | cons c cs => exact plans_strategy (plannedIds_inOrder _)

theorem plans_nothing {ids : List ActorId} (r : ActorRef N)
    (h : ∀ m, t.actorMetadata r.id = some m → m.parent = none) : Plans t (t.restart r) ids := by
  unfold Tree.restart
  split
  · exact .inl rfl
  · next m hm =>
      refine .inr ⟨_, rfl, fun x hx => ?_⟩
      change x ∈ (if m.parent.isSome then [r.id] else []) ++ [] at hx
      rw [h m hm] at hx
      exact (List.not_mem_nil hx).elim

theorem plans_handleRootCrash {ids : List ActorId} (r : ActorRef N) (now : Nat)
    (h : ∀ m, t.actorMetadata r.id = some m → m.parent = none) :
    Plans t (t.handleRootCrash r now) ids := by
  unfold Tree.handleRootCrash
  dsimp only
  cases (t.supervisor.handleCrash r.id now).2 with
  | Restart => exact plans_nothing (t := { t with supervisor := _, rootCrashes := _ }) r h
  | Stop =>
      by_cases hfull : t.supervisor.maxRestarts ≤ (rootRecord t.supervisor r.id now).count
      · rw [if_pos hfull]
        exact plans_stop (t := { t with supervisor := _, rootCrashes := _ }) r ids
      · rw [if_neg hfull]
        exact .inr ⟨_, rfl, fun _ hx => (List.not_mem_nil hx).elim⟩

variable {stringify : List V → String}

theorem plans_handleChildCrash (r : ActorRef N) (m : ActorMetadata N V) (p : ActorRef N)
    (now : Nat) :
    Plans t (t.handleChildCrash stringify r m p now)
      (if 0 < t.childSupervisor.remaining (getRestartKey stringify r.id p.id (some m.options))
          (t.childSupervision p.id) now then restartedWith t r.id p.id else []) := by
  unfold Tree.handleChildCrash
  dsimp only
  rw [granted_iff_remaining]
  by_cases hp : p.id ∈ t.actors
  · rw [if_pos hp]
    by_cases hgranted : 0 < t.childSupervisor.remaining
        (getRestartKey stringify r.id p.id (some m.options)) (t.childSupervision p.id) now
    · rw [decide_eq_true hgranted, if_pos rfl, if_pos hgranted]
      exact plans_applyStrategy (t := { t with childSupervisor := _, childCrashes := _ }) r p.id
    · rw [decide_eq_false hgranted, if_neg Bool.false_ne_true]
      exact plans_stop (t := { t with childSupervisor := _, childCrashes := _ }) r _
  · rw [if_neg hp]
    exact .inl rfl

variable [DecidableEq N]

/-- The call of a crash starts no children again but those that the crash begins to. -/
theorem plans_crash {r : ActorRef N} {now : Nat} {t' : Tree N V}
    (h : t.step stringify (.crash r now) = some t') :
    Plans t t' (begins stringify t (.crash r now)) := by
  dsimp only [Tree.step] at h
  split_ifs at h
  cases h
  unfold Tree.handleCrash begins
  rcases hm : t.actorMetadata r.id with - | ⟨actorClass, options, - | p⟩
  · dsimp only
    split_ifs
    · exact .inl rfl
    · refine plans_handleRootCrash r now fun m hm' => ?_
      rw [hm] at hm'
      cases hm'
  · dsimp only
    split_ifs
    · exact .inl rfl
    · refine plans_handleRootCrash r now fun m hm' => ?_
      rw [hm] at hm'
      cases hm'
      rfl
  · dsimp only
    rw [hm]
    exact plans_handleChildCrash r ⟨actorClass, options, some p⟩ p now

theorem plans_remoteCrash {x : ActorId} {now : Nat} :
    Plans t (t.handleRemoteChildCrash stringify x now)
      (begins stringify t (.remoteCrash x now)) := by
  unfold Tree.handleRemoteChildCrash begins
  dsimp only
  cases he : t.getRemoteChild x with
  | none => exact .inl rfl
  | some e =>
      obtain ⟨-, rfl⟩ := mem_of_getRemoteChild he
      dsimp only
      rw [granted_iff_remaining]
      by_cases hp : e.parentRef.id ∈ t.actors
      · rw [if_pos hp]
        by_cases hgranted : 0 < t.childSupervisor.remaining
            (getRestartKeyForRemote stringify e.childRef.id e.parentRef.id e.options)
            (t.childSupervision e.parentRef.id) now
        · rw [decide_eq_true hgranted, if_pos rfl, if_pos hgranted]
          exact plans_applyRemoteStrategy
            (t := { t with childSupervisor := _, childCrashes := _ }) e
        · rw [decide_eq_false hgranted, if_neg Bool.false_ne_true]
          exact .inl rfl
      · rw [if_neg hp]
        exact .inl rfl

end

/-! ## The invariant -/

section
variable {t : Tables N V}

theorem mem_plannedIds {plan : List (Planned N V)} {x : ActorId} (h : x ∈ plannedIds plan) :
    ∃ m, .onNode x m ∈ plan := by
  obtain ⟨b, hb, hx⟩ := List.mem_filterMap.1 h
  cases b with
  | onNode y m =>
      cases hx
      exact ⟨m, hb⟩
  | remote e => cases hx

theorem child_of_starting {f : Frame N V} (h : SoundFrame t f) {x : ActorId}
    (hx : x ∈ starting f) : IsChild t x := by
  cases f with
  | respawn y m =>
      dsimp only [starting] at hx
      split_ifs at hx with hparent
      · obtain ⟨p, hp⟩ := Option.isSome_iff_exists.1 hparent
        rw [List.mem_singleton.1 hx]
        exact ⟨m, p, h, hp⟩
      · exact (List.not_mem_nil hx).elim
  | strategy p stops remote plan =>
      obtain ⟨m, hm⟩ := mem_plannedIds hx
      obtain ⟨hspawned, q, hq, -⟩ := h.2.2 _ hm
      exact ⟨m, q, hspawned, hq⟩
  | stop | children | stopSingle | unregistering | terminating | stopRemoteChild | stopRequest
  | restartRequest | spawnRequest | migrating => exact (List.not_mem_nil hx).elim

theorem child_of_restarting {s : Tree N V} (h : SoundTree s) {x : ActorId}
    (hx : x ∈ restarting s.calls) : IsChild s.toTables x := by
  obtain ⟨call, hcall, hx⟩ := List.mem_flatMap.1 hx
  obtain ⟨f, hf, hx⟩ := List.mem_flatMap.1 hx
  exact child_of_starting (h.frames call hcall f hf) hx

end

/-- Restarts under way are of different lineages, stop the instance that is there before
they start the next one, and each instance is replaced once. -/
structure SlotRun (s : Slots N V) : Prop where
  sound : SoundTree s.tree
  slots : OnePerSlot s
  apart : ((restarting s.tree.calls).map s.tree.lineage).Nodup
  covered : ∀ call ∈ s.tree.calls, Covers s.tree.toTables [] call
  gone : ∀ x ∈ s.replaced, x ∉ s.tree.actors ∧ x ∉ restarting s.tree.calls ∧ x < s.tree.nextId

section
variable {s : Slots N V} {t' : Tree N V} {replaced : Option ActorId}

/-- Instances of a lineage that is still to be started again are no new ones. -/
theorem same_of_born (hsound : Sound s.tree.toTables) (hext : Extends s.tree.toTables t'.toTables)
    (hborn : Born s.tree.toTables t'.toTables replaced) {ids : List ActorId}
    (hchild : ∀ x ∈ ids, IsChild s.tree.toTables x)
    (hother : ∀ x₀, replaced = some x₀ → ∀ x ∈ ids, s.tree.lineage x ≠ s.tree.lineage x₀) :
    ∀ x ∈ ids, ∀ y ∈ t'.actors, t'.lineage y = t'.lineage x →
      y ∈ s.tree.actors ∧ s.tree.lineage y = s.tree.lineage x := by
  intro x hx y hy heq
  rw [hext.lineage x ((hchild x hx).lt hsound)] at heq
  by_cases hold : y ∈ s.tree.actors
  · rw [hext.lineage y (hsound.lt_of_live hold)] at heq
    exact ⟨hold, heq⟩
  · obtain ⟨-, hlineage⟩ := hborn y hy hold
    cases replaced with
    | none => exact absurd heq (hlineage x (hchild x hx))
    | some x₀ =>
        have hsame : t'.lineage y = s.tree.lineage x₀ := hlineage
        rw [hsame] at heq
        exact absurd heq.symm (hother x₀ rfl x hx)

/-- A new instance does not join a lineage that has a live one. -/
theorem live_of_born (h : SlotRun s) (hsound : Sound t'.toTables)
    (hext : Extends s.tree.toTables t'.toTables)
    (hborn : Born s.tree.toTables t'.toTables replaced)
    (hfree : ∀ x₀, replaced = some x₀ →
      ∀ y ∈ s.tree.actors, s.tree.lineage y ≠ s.tree.lineage x₀) :
    ∀ x ∈ t'.actors, ∀ y ∈ t'.actors, IsChild t'.toTables x →
      t'.lineage x = t'.lineage y → x = y := by
  have htables := h.sound.tables
  have hchild : ∀ x ∈ s.tree.actors, IsChild t'.toTables x → IsChild s.tree.toTables x := by
    rintro x hx ⟨m, p, hm, hp⟩
    exact ⟨m, p, (hext.spawned x (htables.lt_of_live hx)).symm.trans hm, hp⟩
  have hnew : ∀ x ∈ t'.actors, x ∉ s.tree.actors → ∀ y ∈ s.tree.actors, IsChild t'.toTables y →
      t'.lineage x ≠ t'.lineage y := by
    intro x hx hxnew y hy hy' heq
    rw [hext.lineage y (htables.lt_of_live hy)] at heq
    obtain ⟨-, hlineage⟩ := hborn x hx hxnew
    cases replaced with
    | none => exact hlineage y (hchild y hy hy') heq
    | some x₀ =>
        have hsame : t'.lineage x = s.tree.lineage x₀ := hlineage
        exact hfree x₀ rfl y hy (heq.symm.trans hsame)
  intro x hx y hy hxchild heq
  have hychild := hxchild.lineage hsound heq
  by_cases hxold : x ∈ s.tree.actors
  · by_cases hyold : y ∈ s.tree.actors
    · rw [hext.lineage x (htables.lt_of_live hxold), hext.lineage y (htables.lt_of_live hyold)]
        at heq
      exact h.slots.live x hxold y hyold (hchild x hxold hxchild) heq
    · exact absurd heq.symm (hnew y hy hyold x hxold hxchild)
  · by_cases hyold : y ∈ s.tree.actors
    · exact absurd heq (hnew x hx hxold y hyold hychild)
    · rw [(hborn x hx hxold).1, (hborn y hy hyold).1]

/-- A step that begins no restart keeps the invariant. -/
theorem slotRun_of_born (h : SlotRun s) (hsound : SoundTree t')
    (hext : Extends s.tree.toTables t'.toTables)
    (hborn : Born s.tree.toTables t'.toTables replaced)
    (hsub : (restarting t'.calls).Sublist (restarting s.tree.calls))
    (hreplaced : ∀ x₀, replaced = some x₀ → x₀ ∈ restarting s.tree.calls ∧
      (∀ y ∈ s.tree.actors, s.tree.lineage y ≠ s.tree.lineage x₀) ∧
      ∀ x ∈ restarting t'.calls, s.tree.lineage x ≠ s.tree.lineage x₀)
    (hcovered : (∀ x ∈ restarting t'.calls, ∀ y ∈ t'.actors, t'.lineage y = t'.lineage x →
        y ∈ s.tree.actors ∧ s.tree.lineage y = s.tree.lineage x) →
      ∀ call ∈ t'.calls, Covers t'.toTables [] call) :
    SlotRun ⟨t', replaced.toList ++ s.replaced⟩ := by
  have htables := h.sound.tables
  have hchild : ∀ x ∈ restarting t'.calls, IsChild s.tree.toTables x := fun x hx =>
    child_of_restarting h.sound (hsub.subset hx)
  have hgone : ∀ x < s.tree.nextId, x ∉ s.tree.actors → x ∉ t'.actors :=
    fun x hlt hx hx' => hx (hext.actors x hx' hlt)
  have hfree := fun x₀ hx₀ => (hreplaced x₀ hx₀).2.1
  refine ⟨hsound, ⟨?_, live_of_born h hsound.tables hext hborn hfree⟩, ?_,
    hcovered (same_of_born htables hext hborn hchild fun x₀ hx₀ => (hreplaced x₀ hx₀).2.2), ?_⟩
  · cases replaced with
    | none => exact h.slots.replaced
    | some x₀ =>
        have hnot : x₀ ∉ s.replaced := fun hin => (h.gone x₀ hin).2.1 (hreplaced x₀ rfl).1
        change (x₀ :: s.replaced).Nodup
        exact List.nodup_cons.2 ⟨hnot, h.slots.replaced⟩
  · have hlineage : (restarting t'.calls).map t'.lineage =
        (restarting t'.calls).map s.tree.lineage :=
      List.map_congr_left fun x hx => hext.lineage x ((hchild x hx).lt htables)
    change ((restarting t'.calls).map t'.lineage).Nodup
    rw [hlineage]
    exact h.apart.sublist (hsub.map _)
  · intro x hx
    rcases List.mem_append.1 hx with hx | hx
    · obtain ⟨hin, hfree, hrest⟩ := hreplaced x (Option.mem_toList.1 hx)
      have hlt := (child_of_restarting h.sound hin).lt htables
      exact ⟨hgone x hlt fun hlive => hfree x hlive rfl, fun hagain => hrest x hagain rfl,
        Nat.lt_of_lt_of_le hlt hext.nextId⟩
    · obtain ⟨hdead, hnot, hlt⟩ := h.gone x hx
      exact ⟨hgone x hlt hdead, fun hin => hnot (hsub.subset hin),
        Nat.lt_of_lt_of_le hlt hext.nextId⟩

variable [DecidableEq N] {stringify : List V → String}

/-- The innermost function of a call goes on. -/
theorem slotRun_resumes (h : SlotRun s) {index : Nat} {response : Response}
    (hstep : s.tree.step stringify (.resumes index response) = some t') :
    SlotRun ⟨t', (replacedBy s.tree (.resumes index response)).toList ++ s.replaced⟩ := by
  have hsound := soundTree_step h.sound hstep
  have hext := steps_extends (step_cases hstep)
  dsimp only [Tree.step, Tree.resumes] at hstep
  split at hstep
  · next f outer hcall =>
      cases hstep
      have hmem := List.mem_of_getElem? hcall
      have hf := h.sound.frames _ hmem f List.mem_cons_self
      have hborn := born_resumeFrame h.sound.tables response hf
      have hcovers := h.covered _ hmem
      have hreplacedBy : replacedBy s.tree (.resumes index response) =
          startsAgain s.tree.toTables response f := by
        unfold replacedBy
        dsimp only
        rw [hcall]
      obtain ⟨before, after, hbefore, hafter⟩ :=
        flatMap_setCalls (fun call => call.flatMap (starting (N := N) (V := V))) rfl hcall
      rw [List.flatMap_cons] at hbefore
      have hnow : restarting ({ s.tree with
          toTables := (s.tree.toTables.resumeFrame response f).1 }.setCall index
          ((s.tree.toTables.resumeFrame response f).2 ++ outer)).calls =
          before ++ (((s.tree.toTables.resumeFrame response f).2.flatMap starting ++
            outer.flatMap starting) ++ after) := by
        rw [← List.flatMap_append]
        exact hafter _
      have hstarting := starting_resumeFrame (t := s.tree.toTables) response f
      have hapart := h.apart
      rw [hreplacedBy]
      refine slotRun_of_born h hsound hext hborn ?_ (fun x₀ hx₀ => ?_) fun hsame call hin => ?_
      · rw [hnow]
        change List.Sublist _ (s.tree.calls.flatMap _)
        rw [hbefore]
        have hkept := (List.sublist_append_right _ _).trans hstarting
        exact (List.Sublist.refl _).append ((hkept.append (List.Sublist.refl _)).append
          (List.Sublist.refl _))
      · rw [hx₀] at hstarting
        have hx₀f : x₀ ∈ starting f := hstarting.subset List.mem_cons_self
        refine ⟨List.mem_flatMap.2 ⟨_, hmem, List.mem_flatMap.2 ⟨f, List.mem_cons_self, hx₀f⟩⟩,
          fun y hy heq => ?_, fun x hx heq => ?_⟩
        · rcases hcovers.1 x₀ hx₀f y hy heq with hnone | hstop
          · exact List.not_mem_nil hnone
          · rw [stopsFirst_of_startsAgain hx₀] at hstop
            exact List.not_mem_nil hstop
        · have hsub : (before ++ ((x₀ :: (s.tree.toTables.resumeFrame response f).2.flatMap
              starting ++ outer.flatMap starting) ++ after)).Sublist (restarting s.tree.calls) := by
            change List.Sublist _ (s.tree.calls.flatMap _)
            rw [hbefore]
            exact (List.Sublist.refl _).append ((hstarting.append (List.Sublist.refl _)).append
              (List.Sublist.refl _))
          have hnodup := hapart.sublist (hsub.map _)
          rw [List.map_append, List.cons_append, List.cons_append, List.map_cons,
            List.nodup_middle, List.nodup_cons, ← List.map_append, ← hnow] at hnodup
          exact hnodup.1 (heq ▸ List.mem_map_of_mem hx)
      · have hcall' : ∀ x ∈ call.flatMap starting, x ∈ restarting ({ s.tree with
            toTables := (s.tree.toTables.resumeFrame response f).1 }.setCall index
            ((s.tree.toTables.resumeFrame response f).2 ++ outer)).calls :=
          fun x hx => List.mem_flatMap.2 ⟨call, hin, hx⟩
        rcases mem_setCalls hin with hold | rfl
        · exact (h.covered call hold).mono (fun x hx => hsame x (hcall' x hx)) fun _ hy _ => hy
        · rw [List.flatMap_append] at hcall'
          refine Covers.append.2 ⟨covers_resumeFrame hf ?_ ?_ fun x hx =>
            hsame x (hcall' x (List.mem_append_left _ hx)), hcovers.2.mono (fun x hx =>
            hsame x (hcall' x (List.mem_append_right _ hx))) fun y hy hlive => ?_⟩
          · exact fun x hx y hy heq => (hcovers.1 x hx y hy heq).resolve_left List.not_mem_nil
          · intro y hy
            obtain ⟨m, hm⟩ := h.sound.tables.live_spawned y hy
            rw [hm]
            exact Option.some_ne_none m
          · exact stopping_resumeFrame response (Option.mem_toList.1 hy) hlive
  · cases hstep

omit [DecidableEq N] in
/-- A call that begins starts again only children that are there, each once, and stops
them first. -/
theorem starting_invokes (h : SlotRun s) {a : TreeAction N V} {frames : List (Frame N V)}
    (hinvokes : Invokes s.tree.toTables a frames) :
    (∀ x ∈ frames.flatMap starting, x ∈ s.tree.actors ∧ IsChild s.tree.toTables x) ∧
      (frames.flatMap starting).Nodup ∧ Covers s.tree.toTables [] frames := by
  have htables := h.sound.tables
  have hnothing : frames.flatMap starting = [] →
      (∀ x ∈ frames.flatMap starting, x ∈ s.tree.actors ∧ IsChild s.tree.toTables x) ∧
        (frames.flatMap starting).Nodup ∧ Covers s.tree.toTables [] frames := by
    intro hnone
    have hempty : ∀ x ∈ frames.flatMap starting, False := fun x hx =>
      List.not_mem_nil (hnone ▸ hx)
    exact ⟨fun x hx => (hempty x hx).elim, hnone ▸ List.nodup_nil,
      covers_of_unmatched fun x hx => (hempty x hx).elim⟩
  have hframes := soundFrame_invokes htables hinvokes
  have hchild : ∀ x ∈ frames.flatMap starting, IsChild s.tree.toTables x := by
    intro x hx
    obtain ⟨f, hf, hx⟩ := List.mem_flatMap.1 hx
    exact child_of_starting (hframes f hf) hx
  cases hinvokes with
  | stop | stopRemote | restartRemote | spawnRemote | migrate => exact hnothing rfl
  | @restart _ r m ha hm =>
      have hlive := (htables.live_of_metadata hm).1
      have hids : ([.stopSingle r, .respawn r.id m] : List (Frame N V)).flatMap starting =
          if m.parent.isSome then [r.id] else [] := by
        simp [starting]
      have hself : ∀ x ∈ ([.stopSingle r, .respawn r.id m] : List (Frame N V)).flatMap starting,
          x = r.id := by
        intro x hx
        rw [hids] at hx
        split_ifs at hx
        · exact List.mem_singleton.1 hx
        · exact (List.not_mem_nil hx).elim
      refine ⟨fun x hx => ⟨hself x hx ▸ hlive, hchild x hx⟩, ?_,
        fun x hx => (List.not_mem_nil hx).elim, fun x hx y hy heq => .inl ?_, trivial⟩
      · rw [hids]
        split_ifs
        · exact List.nodup_singleton _
        · exact List.nodup_nil
      · have hin : x ∈ ([.stopSingle r, .respawn r.id m] : List (Frame N V)).flatMap starting :=
          List.mem_flatMap.2 ⟨_, List.mem_cons_of_mem _ List.mem_cons_self, hx⟩
        have hx' := hself x hin
        subst hx'
        rw [← h.slots.live _ hlive y hy (hchild _ hin) heq.symm]
        exact List.mem_singleton_self _
  | @strategy _ p remote refs plan ha hp hrefs hids hplan =>
      have hflat : ([.strategy (s.tree.self p) refs.reverse remote plan] :
          List (Frame N V)).flatMap starting = plannedIds plan := List.append_nil _
      rw [hflat] at hchild ⊢
      have hlive : ∀ x ∈ plannedIds plan, x ∈ s.tree.actors := by
        intro x hx
        obtain ⟨m, hm⟩ := mem_plannedIds hx
        exact (htables.live_of_metadata (hplan _ hm)).1
      refine ⟨fun x hx => ⟨hlive x hx, hchild x hx⟩, ?_, fun x hx y hy heq => .inr ?_, trivial⟩
      · exact ((htables.contexts p).order_nodup.sublist (hrefs.map _)).sublist hids
      · rw [← h.slots.live x (hlive x hx) y hy (hchild x hx) heq.symm]
        change x ∈ refs.reverse.map (·.id)
        rw [List.map_reverse]
        exact List.mem_reverse.2 (hids.subset hx)

/-- The call of an action starts no children again but those that the action begins
to. -/
theorem plans_invokes {a : TreeAction N V} (hstep : s.tree.step stringify a = some t')
    {frames : List (Frame N V)}
    (hinvokes : Invokes s.tree.toTables a frames) (hcalls : t'.calls = s.tree.calls ++ [frames]) :
    ∀ x ∈ frames.flatMap starting, x ∈ begins stringify s.tree a := by
  have hplans : ∀ {ids}, Plans s.tree t' ids → ∀ x ∈ frames.flatMap starting, x ∈ ids := by
    rintro ids (hsame | ⟨frames', hcalls', hids⟩)
    · rw [hcalls] at hsame
      exact absurd hsame (by simp)
    · rw [hcalls, List.append_cancel_left_eq] at hcalls'
      cases hcalls'
      exact hids
  cases hinvokes with
  | stop | stopRemote | restartRemote | spawnRemote => exact fun x hx => (List.not_mem_nil hx).elim
  | migrate hx hchildren => exact fun x hx => (List.not_mem_nil hx).elim
  | restart ha hm =>
      rcases ha with rfl | ⟨now, rfl⟩
      · cases hstep
        exact hplans (plans_restart _)
      · exact hplans (plans_crash hstep)
  | strategy ha hp hrefs hids hplan =>
      rcases ha with ⟨r, now, rfl⟩ | ⟨x, now, rfl⟩
      · exact hplans (plans_crash hstep)
      · cases hstep
        exact hplans plans_remoteCrash

/-- Restarts that are begun join those under way. -/
theorem slotRun_invoked (h : SlotRun s) {a : TreeAction N V} (hguard : SlotGuard stringify s a)
    (hstep : s.tree.step stringify a = some t') {frames : List (Frame N V)}
    (hinvokes : Invokes s.tree.toTables a frames) (htables : t'.toTables = s.tree.toTables)
    (hcalls : t'.calls = s.tree.calls ++ [frames]) : SlotRun ⟨t', s.replaced⟩ := by
  obtain ⟨hnew, hnodup, hcovers⟩ := starting_invokes h hinvokes
  have hplanned := plans_invokes hstep hinvokes hcalls
  have hrestarting : restarting t'.calls =
      restarting s.tree.calls ++ frames.flatMap starting := by
    rw [hcalls]
    unfold restarting
    rw [List.flatMap_append, List.flatMap_singleton]
  refine ⟨soundTree_step h.sound hstep, ⟨h.slots.replaced, ?_⟩, ?_, ?_, ?_⟩
  · rw [htables]
    exact h.slots.live
  · rw [hrestarting, htables, List.map_append]
    refine List.Nodup.append h.apart (hnodup.map_on fun x hx y hy heq => ?_) ?_
    · exact h.slots.live x (hnew x hx).1 y (hnew y hy).1 (hnew x hx).2 heq
    · intro σ hσ hσ'
      obtain ⟨y, hy, rfl⟩ := List.mem_map.1 hσ
      obtain ⟨x, hx, heq⟩ := List.mem_map.1 hσ'
      exact hguard x (hplanned x hx) y hy heq
  · intro call hin
    rw [htables]
    rw [hcalls] at hin
    rcases List.mem_append.1 hin with hin | hin
    · exact h.covered call hin
    · rw [List.mem_singleton.1 hin]
      exact hcovers
  · intro x hx
    obtain ⟨hdead, hnot, hlt⟩ := h.gone x hx
    rw [htables, hrestarting]
    refine ⟨hdead, fun hin => ?_, hlt⟩
    rcases List.mem_append.1 hin with hin | hin
    · exact hnot hin
    · exact hdead (hnew x hin).1

theorem slotRun_keep (h : SlotRun s) {a : TreeAction N V} (hguard : SlotGuard stringify s a)
    {s' : Slots N V} (hmove : s.step stringify a = some s') : SlotRun s' := by
  obtain ⟨t', hstep, rfl⟩ := Option.map_eq_some_iff.1 hmove
  by_cases hresumes : ∃ index response, a = .resumes index response
  · obtain ⟨index, response, rfl⟩ := hresumes
    exact slotRun_resumes h hstep
  · have hnone : replacedBy s.tree a = none := by
      unfold replacedBy
      split
      · exact absurd ⟨_, _, rfl⟩ hresumes
      · rfl
    have hcases := step_cases hstep
    have hext := steps_extends hcases
    have hsound := soundTree_step h.sound hstep
    rw [hnone]
    have hkeep : ∀ {calls}, (∀ call ∈ calls, call ∈ s.tree.calls) → t'.calls = calls →
        (∀ x ∈ restarting t'.calls, ∀ y ∈ t'.actors, t'.lineage y = t'.lineage x →
          y ∈ s.tree.actors ∧ s.tree.lineage y = s.tree.lineage x) →
        ∀ call ∈ t'.calls, Covers t'.toTables [] call := by
      rintro calls hcalls rfl hsame call hin
      exact (h.covered call (hcalls call hin)).mono
        (fun x hx => hsame x (List.mem_flatMap.2 ⟨call, hin, hx⟩)) fun _ hy _ => hy
    have hcalm : Born s.tree.toTables t'.toTables none → t'.calls = s.tree.calls →
        SlotRun ⟨t', s.replaced⟩ := fun hborn hcalls =>
      slotRun_of_born h hsound hext hborn (hcalls ▸ List.Sublist.refl _)
        (fun _ hx => nomatch hx) (hkeep (fun _ hin => hin) hcalls)
    generalize htables : t'.toTables = tables at hcases
    generalize hcalls : t'.calls = calls at hcases
    cases hcases with
    | idle => exact hcalm (htables ▸ fun _ hy hnew => absurd hy hnew) hcalls
    | spawned ha =>
        exact hcalm (htables ▸ born_register _ fun x hx =>
          nextId_ne_lineage h.sound.tables hx) hcalls
    | childSpawned =>
        exact hcalm (htables ▸ born_spawnChild fun _ x hx =>
          nextId_ne_lineage h.sound.tables hx) hcalls
    | invoked hinvokes => exact slotRun_invoked h hguard hstep hinvokes htables hcalls
    | @removedRemote _ x p ha =>
        exact hcalm (htables ▸ born_same (fun y hy =>
          actors_removeRemoteChild x p ▸ hy) none) hcalls
    | resumed hcall => exact absurd ⟨_, _, rfl⟩ hresumes
    | @rejected index f outer r hcall hf =>
        refine slotRun_of_born h hsound hext (htables ▸ fun _ hy hnew => absurd hy hnew) ?_
          (fun _ hx => nomatch hx) (hkeep (fun _ hin => List.mem_of_mem_eraseIdx hin) hcalls)
        obtain ⟨before, after, hbefore, hafter⟩ :=
          flatMap_setCalls (fun call => call.flatMap (starting (N := N) (V := V))) rfl hcall
        rw [hcalls]
        change ((setCalls s.tree.calls index []).flatMap _).Sublist (s.tree.calls.flatMap _)
        rw [hafter, hbefore]
        exact (List.Sublist.refl _).append (List.sublist_append_right _ _)

/-- In a run that begins no restart of a lineage while one is under way, every instance
is replaced at most once and no lineage of children has two live instances. -/
theorem one_per_slot (stringify : List V → String) (id : N)
    (childSupervision : ActorId → ChildSupervisionOptions) (supervisor : Supervisor)
    {as : List (TreeAction N V)}
    (hguard : Along (Slots.step stringify) (SlotGuard stringify)
      ⟨Tree.init id childSupervision supervisor, []⟩ as) :
    Throughout (Slots.step stringify) OnePerSlot
      ⟨Tree.init id childSupervision supervisor, []⟩ as := by
  have hinit : SlotRun (⟨Tree.init id childSupervision supervisor, []⟩ : Slots N V) :=
    { sound := soundTree_init _ _ _
      slots := ⟨List.nodup_nil, fun x hx => (Finset.notMem_empty x hx).elim⟩
      apart := List.nodup_nil
      covered := fun _ hcall => (List.not_mem_nil hcall).elim
      gone := fun _ hx => (List.not_mem_nil hx).elim }
  have hrun : Throughout (Slots.step stringify) SlotRun
      ⟨Tree.init id childSupervision supervisor, []⟩ as :=
    throughout_of_invariant (fun _ _ _ h hguard hstep => slotRun_keep h hguard hstep) hinit hguard
  exact hrun.mono fun _ h => h.slots

end

/-! ## Two crashes of one instance -/

/-- Two restarts in 1000 ms for the children of every actor. -/
def twoRestarts : Slots Unit Nat :=
  ⟨.init () (fun _ => ⟨.oneForOne, 2, 1000⟩) (.new .Restart 2 1000), []⟩

def refOf (id : ActorId) : ActorRef Unit := ⟨(), id, none, 0⟩

/-- The child 1 of actor 0 crashes, and once more before it has been stopped. -/
def crashesTwice : List (TreeAction Unit Nat) :=
  [.spawn "Parent" {}, .spawnChild (refOf 0) "Worker" {}, .crash (refOf 1) 0, .crash (refOf 1) 1,
    .resumes 0 .success, .resumes 0 .success, .resumes 0 .success,
    .resumes 0 .success, .resumes 0 .success]

/-- Both crashes replace it. -/
theorem replaced_twice :
    ∃ u, run (Slots.step fun args => toString args) twoRestarts crashesTwice = some u ∧
      u.replaced = [1, 1] ∧ 2 ∈ u.tree.actors ∧ 3 ∈ u.tree.actors ∧
      u.tree.lineage 2 = u.tree.lineage 3 :=
  ⟨_, rfl, rfl, by decide, by decide, rfl⟩

theorem one_per_slot_restart :
    Throughout (Slots.step fun args => toString args) OnePerSlot twoRestarts
      [.spawn "Parent" {}, .spawnChild (refOf 0) "Worker" {}, .crash (refOf 1) 0,
        .resumes 0 .success, .resumes 0 .success, .resumes 0 .success] := by
  refine one_per_slot (fun args => toString args) () _ _ ?_
  refine ⟨fun _ hx => (List.not_mem_nil hx).elim, fun t ht => ?_⟩
  cases ht
  refine ⟨fun _ hx => (List.not_mem_nil hx).elim, fun t ht => ?_⟩
  cases ht
  refine ⟨fun _ _ _ hy => (List.not_mem_nil hy).elim, fun t ht => ?_⟩
  refine along_of_forall_mem (P := fun a => ∃ i r, a = .resumes i r) ?_ t |>.mono ?_
  · simp
  · rintro s a ⟨i, r, rfl⟩ x hx
    exact (List.not_mem_nil hx).elim

end Libeam.Proofs.ChildSlots
