import Libeam.Proofs.ChildLimits
import Libeam.Proofs.CrashSteps
/-!
# The restart limit of a remote child

A child of a parent, placed on the node of the parent or on another, crashes at given
times.  While its crashes stay within the limit the two runs decide and leave the child
alike.  After the crash that exceeds the limit a local child has ended; a remote child
has only been forgotten by its parent and runs on, without its watchers being told.
-/

namespace Libeam.Proofs.RemoteLimits

open Libeam.System (ActorId)
open Supervision Supervision.Nodes Lib Places PlacedStarts GroupRestarts CrashSteps
open ChildLimits (Unkeyed canRestart_decision getRestartKey_keyed)
open RestartBudget (keyed_inj toString_injective window canRestart_granted canRestart_window)

variable {N V : Type}

/-! ## Keys and counters -/

section
variable {stringify : List V → String}

theorem childKey_unkeyed {options : SpawnOptions V} (h : Unkeyed options) (x : ActorId) :
    childKey stringify x (some options) = "\"" ++ toString x ++ "\"" := by
  obtain ⟨hname, hargs⟩ := h
  rcases options with ⟨name, args⟩
  cases hargs
  cases name with
  | none => rfl
  | some name =>
      rw [hname name rfl]
      rfl

/-- Without a name and without arguments the key tells the instances apart. -/
theorem getRestartKey_unkeyed {options : SpawnOptions V} (h : Unkeyed options) {x y p : ActorId}
    (heq : getRestartKey stringify x p (some options) =
      getRestartKey stringify y p (some options)) : x = y := by
  have hkeys := (keyed_inj heq).2
  rw [childKey_unkeyed h, childKey_unkeyed h] at hkeys
  have hlists := congrArg String.toList hkeys
  simp only [String.toList_append, List.append_cancel_left_eq, List.append_cancel_right_eq]
    at hlists
  exact toString_injective (String.toList_injective hlists)

end

/-- Under a key without a record a crash is granted unless no restart is allowed. -/
theorem canRestart_free {v : ChildSupervisor} {key : String} (h : v.restartCounts key = none)
    (limits : ChildSupervisionOptions) (now : Nat) :
    (v.canRestart key limits now).2 = decide (0 < limits.maxRestarts) := by
  have hcount : (v.record key limits.periodMs now).count = 0 := by
    unfold ChildSupervisor.record
    rw [h]
    dsimp only [Option.getD_none]
    split_ifs <;> rfl
  rw [canRestart_decision, hcount]

theorem canRestart_other {v : ChildSupervisor} {key other : String} (hne : other ≠ key)
    (limits : ChildSupervisionOptions) (now : Nat) :
    (v.canRestart key limits now).1.restartCounts other = v.restartCounts other := by
  unfold ChildSupervisor.canRestart
  dsimp only
  split_ifs <;> exact Function.update_of_ne hne _ _

/-! ## Ids on the lists -/

section
variable {s : Nodes N V} {p first k : ActorId} {rest : List ActorId}

theorem current_eq (h : s.instances first = k :: rest) : s.current first = k := by
  unfold Nodes.current
  rw [h]
  rfl

theorem notMem_childIds {x : ActorId} (h : (place s p x).lists = ([], 0))
    (hentries : (place s p x).entries = []) : x ∉ s.childIds p := by
  obtain ⟨hchildren, horder⟩ := Prod.mk.inj h
  have horder' := (Multiset.coe_eq_zero _).1 horder
  intro hin
  unfold Nodes.childIds at hin
  rcases List.mem_append.1 hin with hin | hin
  · rcases List.mem_append.1 hin with hin | hin
    · obtain ⟨d, hd, rfl⟩ := List.mem_map.1 hin
      exact List.filter_eq_nil_iff.1 hchildren d hd (by simp)
    · obtain ⟨d, hd, rfl⟩ := List.mem_map.1 hin
      exact List.filter_eq_nil_iff.1 horder' d hd (by simp)
  · obtain ⟨e, he, rfl⟩ := List.mem_map.1 hin
    exact List.filter_eq_nil_iff.1 hentries e he (by simp)

theorem mem_childIds {x : ActorId} {r : ActorRef N} (h : (place s p x).lists = ([r], {r})) :
    x ∈ s.childIds p := by
  have hchildren : (s.context p).children.filter (·.id = x) = [r] := (Prod.mk.inj h).1
  have hmem : r ∈ (s.context p).children.filter (·.id = x) := hchildren ▸ List.mem_cons_self
  obtain ⟨hr, hid⟩ := List.mem_filter.1 hmem
  have hin : x ∈ (s.context p).children.map (·.id) :=
    List.mem_map.2 ⟨r, hr, of_decide_eq_true hid⟩
  exact List.mem_append_left _ (List.mem_append_left _ hin)

end

/-! ## The two runs -/

/-- One counter grants a restart for each crash. -/
def GrantsAll (limits : ChildSupervisionOptions) (w : Option Window.Counter)
    (times : List Nat) : Prop :=
  ∀ d ∈ Window.decisions limits.maxRestarts limits.periodMs w times, d.granted = true

/-- The crashes stay within the limit.  Without a name and without arguments each
instance has a counter of its own. -/
def Within (options : SpawnOptions V) (limits : ChildSupervisionOptions) (times : List Nat) :
    Prop :=
  (Unkeyed options → times = [] ∨ 0 < limits.maxRestarts) ∧
    (¬ Unkeyed options → GrantsAll limits none times)

/-- The child on another node is restarted as the local one, and has ended when a crash
was refused. -/
def ObeysLimit (away here : Outcome) : Prop :=
  away = here ∧
    (false ∈ away.granted → away.live = false ∧ away.notified = true ∧ away.tracked = false)

/-! ## The start -/

theorem place_alone (nodeId : N) (actorClass : String) (options : SpawnOptions V)
    (limits : ChildSupervisionOptions) (x : ActorId) :
    place (alone nodeId actorClass options limits) 0 x =
      if x = 0 then .root ⟨actorClass, options, none⟩ else .gone := by
  unfold place lists alone Tables.spawn Tables.register Tables.init
  split_ifs with hx
  · subst hx
    simp [Place.root]
  · simp [Place.gone, hx]

theorem household_alone (nodeId : N) (actorClass : String) (options : SpawnOptions V)
    (limits : ChildSupervisionOptions) :
    Household (alone nodeId actorClass options limits) 0 where
  root := ⟨_, (place_alone nodeId actorClass options limits 0).trans (if_pos rfl)⟩
  self := rfl
  leaf := by
    intro q hq
    have hcontext : (alone nodeId actorClass options limits).context q = ⟨[], []⟩ :=
      Function.update_of_ne hq _ _
    rw [hcontext]
  fresh := by
    intro x hx
    exact (place_alone nodeId actorClass options limits x).trans (if_neg (Nat.ne_of_gt hx))
  notified_lt := fun _ h => nomatch h

variable [DecidableEq N]

section
variable {s : Nodes N V} {p : ActorId} {c : ChildSpec N V}

theorem keeps_startChild (h : Household s p) (c : ChildSpec N V) :
    Keeps p (fun _ => False) s (startChild p s c) := by
  unfold Nodes.startChild
  split_ifs
  · exact (keeps_spawnChild h.lt h.self).mono fun _ hx => nomatch hx
  · exact (keeps_spawnChildRemote h.self).mono fun _ hx => nomatch hx

theorem replaced_startChild (h : Household s p) (c : ChildSpec N V) :
    (startChild p s c).replaced = s.replaced ∧ (startChild p s c).nextId = s.nextId + 1 := by
  have hlive : (s.self p).id ∈ s.actors := h.self.symm ▸ h.live
  unfold Nodes.startChild
  split_ifs
  · rw [spawnChild_eq hlive]
    exact ⟨List.append_nil _, rfl⟩
  · rw [spawnChildRemote_eq hlive]
    exact ⟨List.append_nil _, rfl⟩

theorem Household.startChild (h : Household s p) (c : ChildSpec N V) :
    Household (startChild p s c) p :=
  h.keeps (keeps_startChild h c) id fun _ hx => hx.elim

theorem placed_startChild (h : Household s p) (c : ChildSpec N V) :
    Placed (Nodes.startChild p s c) p c s.nextId := by
  unfold Nodes.startChild
  split_ifs with hnode
  · exact placed_spawnChild h h.self hnode
  · exact placed_spawnChildRemote h h.self hnode

/-- The children are started one after the other. -/
theorem foldl_startChild (cs : List (ChildSpec N V)) (h : Household s p) :
    Household (cs.foldl (Nodes.startChild p) s) p ∧
      Keeps p (fun _ => False) s (cs.foldl (Nodes.startChild p) s) ∧
      (cs.foldl (Nodes.startChild p) s).replaced = s.replaced ∧
      (cs.foldl (Nodes.startChild p) s).nextId = s.nextId + cs.length := by
  induction cs generalizing s with
  | nil => exact ⟨h, Keeps.refl s, rfl, rfl⟩
  | cons c cs ih =>
      obtain ⟨hreplaced, hnext⟩ := replaced_startChild h c
      obtain ⟨hhouse, hkeeps, hsame, hlength⟩ := ih (Household.startChild h c)
      refine ⟨hhouse, (keeps_startChild h c).trans hkeeps, hsame.trans hreplaced, ?_⟩
      rw [List.foldl_cons, hlength, hnext, List.length_cons, Nat.add_assoc, Nat.add_comm 1]

end

/-- Before any crash the child runs, whatever its siblings. -/
theorem running_family (f : Setting N V) (node : N) :
    Running (family f node) 0 ⟨node, f.actorClass, f.options⟩ (f.older.length + 1)
        (f.older.length + 1) [] ∧
      Keeps 0 (fun _ => False) (alone f.nodeId f.parentClass f.parentOptions f.supervision)
        (family f node) := by
  have halone := household_alone f.nodeId f.parentClass f.parentOptions f.supervision
  unfold family
  rw [List.foldl_append, List.foldl_cons]
  obtain ⟨hhouse, hkeeps, hsame, hnext⟩ := foldl_startChild f.older halone
  generalize f.older.foldl (startChild 0)
    (alone f.nodeId f.parentClass f.parentOptions f.supervision) = s at hhouse hkeeps hsame hnext ⊢
  have hnew : s.nextId = f.older.length + 1 := hnext.trans (Nat.add_comm _ _)
  have hlast := keeps_startChild hhouse ⟨node, f.actorClass, f.options⟩
  have hplaced := placed_startChild hhouse ⟨node, f.actorClass, f.options⟩
  have hsame' := (replaced_startChild hhouse ⟨node, f.actorClass, f.options⟩).1
  have hlt := (replaced_startChild hhouse ⟨node, f.actorClass, f.options⟩).2
  have hhouse' := Household.startChild hhouse ⟨node, f.actorClass, f.options⟩
  rw [hnew] at hplaced hlt
  generalize Nodes.startChild 0 s ⟨node, f.actorClass, f.options⟩ = t
    at hlast hplaced hsame' hlt hhouse' ⊢
  obtain ⟨hend, hkeeps', hsame'', -⟩ := foldl_startChild f.younger hhouse'
  have hk : f.older.length + 1 < t.nextId := hlt ▸ Nat.lt_succ_self _
  have hall := (hkeeps.trans hlast).trans hkeeps'
  refine ⟨⟨hend, ?_, hplaced.keeps hkeeps' id hk⟩, hall⟩
  constructor
  · unfold Nodes.instances
    rw [hsame'', hsame', hsame]
    rfl
  · intro x hx
    rw [List.mem_singleton.1 hx]
    exact Nat.lt_of_lt_of_le hk hkeeps'.tables.nextId
  · intro x hx
    rw [List.mem_singleton.1 hx]
    exact Nat.succ_ne_zero _
  · exact fun x hx => nomatch hx
  · intro r hr
    rcases hall.notified r hr with hr | hr
    · exact nomatch hr
    · exact hr.elim

/-! ## Runs -/

section
variable {s : Nodes N V} {p first k : ActorId} {c : ChildSpec N V} {rest : List ActorId}
  {stringify : List V → String}

/-- `canRestart` grants every crash of the run. -/
def AllGranted (stringify : List V → String) (p : ActorId) (c : ChildSpec N V)
    (first : ActorId) : Nodes N V → List Nat → Prop
  | _, [] => True
  | s, now :: times =>
      (counted stringify s p c (s.current first) now).2 = true ∧
        AllGranted stringify p c first (s.crash stringify c.node (s.current first) now) times

theorem granted_crash (h : Running s p c first k rest) {now : Nat}
    (hgranted : (counted stringify s p c k now).2 = true) :
    ∃ k', Running (s.crash stringify c.node k now) p c first k' (k :: rest) ∧
      (s.crash stringify c.node k now).id = s.id ∧
      (s.crash stringify c.node k now).childSupervision = s.childSupervision ∧
      (s.crash stringify c.node k now).childSupervisor =
        (s.childSupervisor.canRestart (getRestartKey stringify k p (some c.options))
          (s.childSupervision p) now).1 ∧
      (s.crash stringify c.node k now).granted = s.granted ++ [true] := by
  obtain ⟨k', X, hrunning, hkeeps⟩ := crash_granted h hgranted
  refine ⟨k', hrunning, hkeeps.tables.id, hkeeps.supervision, hkeeps.supervisor, ?_⟩
  rw [hkeeps.granted, ← hgranted]
  rfl

/-- As long as every crash is granted the child is there. -/
theorem running_crashes (times : List Nat) (h : Running s p c first k rest)
    (hall : AllGranted stringify p c first s times) :
    ∃ k' rest', Running (s.crashes stringify c.node first times) p c first k' rest' ∧
      (s.crashes stringify c.node first times).id = s.id ∧
      (s.crashes stringify c.node first times).granted =
        s.granted ++ List.replicate times.length true := by
  induction times generalizing s k rest with
  | nil => exact ⟨k, rest, h, rfl, (List.append_nil _).symm⟩
  | cons now times ih =>
      obtain ⟨hone, hrest⟩ := hall
      rw [current_eq h.child.instances] at hone hrest
      obtain ⟨k', hrunning, hid, -, -, hgranted⟩ := granted_crash h hone
      obtain ⟨k'', rest', hend, hid', hgranted'⟩ := ih hrunning hrest
      unfold Nodes.crashes at hend hid' hgranted' ⊢
      rw [List.foldl_cons, current_eq h.child.instances]
      refine ⟨k'', rest', hend, hid'.trans hid, ?_⟩
      rw [hgranted', hgranted, List.append_assoc]
      rfl

/-- Nothing more happens to a child that has ended or has been forgotten. -/
theorem crashes_of_fixed (hcurrent : s.current first = k)
    (h : ∀ now, s.crash stringify c.node k now = s) (times : List Nat) :
    s.crashes stringify c.node first times = s := by
  unfold Nodes.crashes
  induction times with
  | nil => rfl
  | cons now times ih =>
      rw [List.foldl_cons, hcurrent, h]
      exact ih

/-- A run with a crash that is refused, up to the end of the child. -/
theorem refused_crashes (times : List Nat) (h : Running s p c first k rest)
    (hall : ¬ AllGranted stringify p c first s times) :
    ∃ k' rest', if c.node = s.id then
        Ended (s.crashes stringify c.node first times) p c first k' rest'
      else Abandoned (s.crashes stringify c.node first times) p c first k' rest' := by
  induction times generalizing s k rest with
  | nil => exact absurd trivial hall
  | cons now times ih =>
      have hcurrent := current_eq h.child.instances
      by_cases hone : (counted stringify s p c k now).2 = true
      · obtain ⟨k', hrunning, hid, -⟩ := granted_crash h hone
        have hrest : ¬ AllGranted stringify p c first (s.crash stringify c.node k now) times :=
          fun hrest => hall ⟨hcurrent ▸ hone, hcurrent ▸ hrest⟩
        obtain ⟨k'', rest', hend⟩ := ih hrunning hrest
        rw [hid] at hend
        unfold Nodes.crashes at hend ⊢
        rw [List.foldl_cons, hcurrent]
        exact ⟨k'', rest', hend⟩
      · rw [Bool.not_eq_true] at hone
        have hsplit : s.crashes stringify c.node first (now :: times) =
            (s.crash stringify c.node k now).crashes stringify c.node first times := by
          unfold Nodes.crashes
          rw [List.foldl_cons, hcurrent]
        rw [hsplit]
        refine ⟨k, rest, ?_⟩
        split_ifs with hnode
        · have hend := ended_of_refused hnode h hone
          rw [crashes_of_fixed (current_eq hend.past.instances) fun _ => crash_of_ended hend]
          exact hend
        · have hend := abandoned_of_refused hnode h hone
          rw [crashes_of_fixed (current_eq hend.child.instances) fun _ => crash_of_abandoned hend]
          exact hend

/-! ## Outcomes -/

theorem runsOn_of_gone {x : ActorId} (node : N) (h : place s p x = .gone) :
    s.runsOn node x = false := by
  have hlive : (x ∈ s.actors) = False := congrArg Place.live h
  have hhosted := congrFun (congrArg Place.hosted h) node
  have hnone : s.hosted node x = none := hhosted
  unfold Nodes.runsOn
  split_ifs
  · simp [hlive]
  · rw [hnone]
    rfl

/-- Earlier instances do not count. -/
theorem outcome_eq (node : N) (hinstances : s.instances first = k :: rest)
    (hgone : ∀ x ∈ rest, place s p x = .gone) :
    s.outcome p node first =
      ⟨s.granted, s.runsOn node k, s.notified.any (·.1 = k), (s.childIds p).contains k⟩ := by
  have hlive : rest.any (s.runsOn node) = false :=
    List.any_eq_false.2 fun x hx => by simp [runsOn_of_gone node (hgone x hx)]
  have htracked : rest.any ((s.childIds p).contains ·) = false := by
    refine List.any_eq_false.2 fun x hx => ?_
    have hnot := notMem_childIds (congrArg Place.lists (hgone x hx))
      (congrArg Place.entries (hgone x hx))
    simpa using hnot
  unfold Nodes.outcome
  rw [current_eq hinstances, hinstances, List.any_cons, List.any_cons, hlive, htracked,
    Bool.or_false, Bool.or_false]

theorem outcome_of_running (h : Running s p c first k rest) :
    s.outcome p c.node first = ⟨s.granted, true, false, true⟩ := by
  have hruns : s.runsOn c.node k = true := by
    unfold Nodes.runsOn
    split_ifs with hnode
    · obtain ⟨r, parentRef, -, rfl, -, hplace⟩ := here_of_placed hnode h.placed
      exact decide_eq_true (live_of_place hplace trivial)
    · obtain ⟨e, rfl, -, htarget, -, -, -, hplace⟩ := away_of_placed hnode h.placed
      rw [← htarget, hosted_of_place hplace]
      rfl
  have huntold : s.notified.any (·.1 = k) = false :=
    List.any_eq_false.2 fun r hr => by simpa using h.child.untold r hr
  have htracked : k ∈ s.childIds p := by
    by_cases hnode : c.node = s.id
    · obtain ⟨r, parentRef, -, rfl, -, hplace⟩ := here_of_placed hnode h.placed
      exact mem_childIds (congrArg Place.lists hplace)
    · obtain ⟨e, rfl, -, -, -, -, -, hplace⟩ := away_of_placed hnode h.placed
      exact mem_childIds (congrArg Place.lists hplace)
  rw [outcome_eq c.node h.child.instances h.child.gone, hruns, huntold,
    List.contains_iff_mem.2 htracked]

theorem outcome_of_ended (h : Ended s p c first k rest) :
    s.outcome p c.node first = ⟨s.granted, false, true, false⟩ := by
  have hgone := h.past.gone k List.mem_cons_self
  have htold : s.notified.any (·.1 = k) = true := by
    obtain ⟨r, hr, hid⟩ := h.told
    exact List.any_eq_true.2 ⟨r, hr, decide_eq_true hid⟩
  have htracked : k ∉ s.childIds p :=
    notMem_childIds (congrArg Place.lists hgone) (congrArg Place.entries hgone)
  rw [outcome_eq c.node h.past.instances fun x hx => h.past.gone x (List.mem_cons_of_mem k hx),
    runsOn_of_gone c.node hgone, htold]
  simpa using htracked

theorem outcome_of_abandoned (h : Abandoned s p c first k rest) :
    s.outcome p c.node first = ⟨s.granted, true, false, false⟩ := by
  obtain ⟨m, hplace⟩ := h.placed
  have hruns : s.runsOn c.node k = true := by
    have hhosted := congrFun (congrArg Place.hosted hplace) c.node
    have hsome : s.hosted c.node k = some m := hhosted.trans (by simp [Place.abandoned])
    unfold Nodes.runsOn
    rw [if_neg h.elsewhere, hsome]
    rfl
  have huntold : s.notified.any (·.1 = k) = false :=
    List.any_eq_false.2 fun r hr => by simpa using h.child.untold r hr
  have htracked : k ∉ s.childIds p :=
    notMem_childIds (congrArg Place.lists hplace) (congrArg Place.entries hplace)
  rw [outcome_eq c.node h.child.instances h.child.gone, hruns, huntold]
  simpa using htracked

end

/-! ## The limit -/

section
variable {s : Nodes N V} {p first k : ActorId} {c : ChildSpec N V} {rest : List ActorId}
  {stringify : List V → String}

theorem allGranted_keyed (hkeyed : ¬ Unkeyed c.options) (times : List Nat)
    (h : Running s p c first k rest) :
    AllGranted stringify p c first s times ↔
      GrantsAll (s.childSupervision p)
        (window s.childSupervisor (getRestartKey stringify 0 p (some c.options))) times := by
  induction times generalizing s k rest with
  | nil => exact iff_of_true trivial fun _ hd => nomatch hd
  | cons now times ih =>
      have hkey : getRestartKey stringify k p _ = getRestartKey stringify 0 p _ :=
        getRestartKey_keyed hkeyed k 0 p
      have hcounted : (counted stringify s p c k now).2 =
          Window.granted (s.childSupervision p).maxRestarts (s.childSupervision p).periodMs
            (window s.childSupervisor (getRestartKey stringify 0 p (some c.options))) now := by
        rw [← hkey]
        exact canRestart_granted _ _ _ _
      unfold AllGranted GrantsAll Window.decisions
      rw [current_eq h.child.instances, hcounted, List.forall_mem_cons]
      refine and_congr_right fun hgranted => ?_
      obtain ⟨k', hrunning, -, hsupervision, hsupervisor, -⟩ :=
        granted_crash h (hcounted.trans hgranted)
      rw [ih hrunning, hsupervision, hsupervisor, hkey, canRestart_window]
      rfl

theorem allGranted_unkeyed (hunkeyed : Unkeyed c.options) (times : List Nat)
    (h : Running s p c first k rest)
    (hfree : ∀ x, x ∉ rest →
      s.childSupervisor.restartCounts (getRestartKey stringify x p (some c.options)) = none) :
    AllGranted stringify p c first s times ↔
      times = [] ∨ 0 < (s.childSupervision p).maxRestarts := by
  induction times generalizing s k rest with
  | nil => exact ⟨fun _ => .inl rfl, fun _ => trivial⟩
  | cons now times ih =>
      have hrest : k ∉ rest := fun hin => h.placed.ne_gone (h.child.gone k hin)
      have hcounted : (counted stringify s p c k now).2 =
          decide (0 < (s.childSupervision p).maxRestarts) :=
        canRestart_free (hfree k hrest) _ _
      unfold AllGranted
      rw [current_eq h.child.instances, hcounted, decide_eq_true_iff]
      constructor
      · exact fun hall => .inr hall.1
      · intro hpositive
        have hpositive := hpositive.resolve_left (List.cons_ne_nil _ _)
        obtain ⟨k', hrunning, -, hsupervision, hsupervisor, -⟩ :=
          granted_crash h (hcounted.trans (decide_eq_true hpositive))
        refine ⟨hpositive, (ih hrunning fun x hx => ?_).2 (.inr (hsupervision ▸ hpositive))⟩
        have hne : x ≠ k := fun heq => hx (heq ▸ List.mem_cons_self)
        have hkey : getRestartKey stringify x p (some c.options) ≠
            getRestartKey stringify k p (some c.options) :=
          fun heq => hne (getRestartKey_unkeyed hunkeyed heq)
        rw [hsupervisor, canRestart_other hkey]
        exact hfree x fun hin => hx (List.mem_cons_of_mem k hin)

end

section
variable (stringify : List V → String) (f : Setting N V) (times : List Nat) (node : N)

theorem allGranted_iff :
    AllGranted stringify 0 ⟨node, f.actorClass, f.options⟩ (f.older.length + 1) (family f node)
        times ↔ Within f.options f.supervision times := by
  obtain ⟨hrunning, hkeeps⟩ := running_family f node
  unfold Within
  by_cases hunkeyed : Unkeyed f.options
  · rw [allGranted_unkeyed hunkeyed times hrunning fun x _ => by rw [hkeeps.supervisor]; rfl,
      hkeeps.supervision]
    simp only [hunkeyed, forall_const, not_true_eq_false, false_implies, and_true]
    rfl
  · rw [allGranted_keyed hunkeyed times hrunning, hkeeps.supervision, hkeeps.supervisor]
    simp only [hunkeyed, not_false_eq_true, false_implies, true_and, forall_const]
    rfl

/-- Within the limit the child is there, wherever it was placed. -/
theorem runOn_of_within (h : Within f.options f.supervision times) :
    runOn stringify f times node = ⟨List.replicate times.length true, true, false, true⟩ := by
  obtain ⟨hrunning, hkeeps⟩ := running_family f node
  obtain ⟨k', rest', hend, -, hgranted⟩ := running_crashes times hrunning
    ((allGranted_iff stringify f times node).2 h)
  rw [hkeeps.granted] at hgranted
  have houtcome := outcome_of_running hend
  rw [hgranted] at houtcome
  exact houtcome

/-- Beyond the limit only a child on the node of its parent has ended. -/
theorem runOn_of_beyond (h : ¬ Within f.options f.supervision times) :
    ∃ granted, runOn stringify f times node =
      if node = f.nodeId then ⟨granted, false, true, false⟩
      else ⟨granted, true, false, false⟩ := by
  obtain ⟨hrunning, hkeeps⟩ := running_family f node
  obtain ⟨k', rest', hend⟩ := refused_crashes times hrunning fun hall =>
    h ((allGranted_iff stringify f times node).1 hall)
  rw [hkeeps.tables.id] at hend
  have hid : (alone f.nodeId f.parentClass f.parentOptions f.supervision).id = f.nodeId := rfl
  rw [hid] at hend
  split_ifs at hend ⊢
  · exact ⟨_, outcome_of_ended hend⟩
  · exact ⟨_, outcome_of_abandoned hend⟩

end

/-- A child on another node obeys the limit of a local one exactly when its crashes stay
within it. -/
theorem obeysLimit_iff (stringify : List V → String) (f : Setting N V) (times : List Nat)
    {node : N} (hnode : node ≠ f.nodeId) :
    ObeysLimit (runOn stringify f times node) (runOn stringify f times f.nodeId) ↔
      Within f.options f.supervision times := by
  constructor
  · intro hobeys
    by_contra hbeyond
    obtain ⟨granted, haway⟩ := runOn_of_beyond stringify f times node hbeyond
    obtain ⟨granted', hhere⟩ := runOn_of_beyond stringify f times f.nodeId hbeyond
    rw [if_neg hnode] at haway
    rw [if_pos rfl] at hhere
    have hlive := congrArg Outcome.live hobeys.1
    rw [haway, hhere] at hlive
    exact Bool.noConfusion hlive
  · intro hwithin
    unfold ObeysLimit
    rw [runOn_of_within stringify f times node hwithin,
      runOn_of_within stringify f times f.nodeId hwithin]
    refine ⟨rfl, fun hfalse => ?_⟩
    exact absurd (List.eq_of_mem_replicate hfalse) Bool.false_ne_true

/-- A named child on node 1 with an older and a younger sibling crashes twice. -/
theorem obeysLimit_iff_named :
    (1 : Nat) ≠ 0 ∧
      (ObeysLimit
          (runOn (fun _ : List Nat => "") ⟨0, "Parent", {}, ⟨.restForOne, 2, 1000⟩,
            [⟨0, "A", {}⟩], [⟨1, "B", {}⟩], "Worker", { name := some "w" }⟩ [5, 10] 1)
          (runOn (fun _ : List Nat => "") ⟨0, "Parent", {}, ⟨.restForOne, 2, 1000⟩,
            [⟨0, "A", {}⟩], [⟨1, "B", {}⟩], "Worker", { name := some "w" }⟩ [5, 10] 0) ↔
        Within ({ name := some "w" } : SpawnOptions Nat) ⟨.restForOne, 2, 1000⟩
          [5, 10]) :=
  ⟨by decide, obeysLimit_iff _ ⟨0, "Parent", {}, ⟨.restForOne, 2, 1000⟩, [⟨0, "A", {}⟩],
    [⟨1, "B", {}⟩], "Worker", { name := some "w" }⟩ _ (by decide)⟩

/-- One restart is allowed and the child crashes twice: the local child has ended, while
the remote one runs on. -/
theorem remote_child_runs_on :
    ∃ f : Setting Nat Nat,
      runOn (fun _ => "") f [5, 10] 0 = ⟨[true, false], false, true, false⟩ ∧
      runOn (fun _ => "") f [5, 10] 1 = ⟨[true, false], true, false, false⟩ ∧
      ¬ ObeysLimit (runOn (fun _ => "") f [5, 10] 1) (runOn (fun _ => "") f [5, 10] 0) := by
  refine ⟨⟨0, "Parent", {}, ⟨.oneForOne, 1, 1000⟩, [], [], "Worker", { name := some "w" }⟩, ?_⟩
  have hhere : runOn (fun _ : List Nat => "") ⟨0, "Parent", {}, ⟨.oneForOne, 1, 1000⟩, [], [],
      "Worker", { name := some "w" }⟩ [5, 10] 0 = ⟨[true, false], false, true, false⟩ := by decide
  have haway : runOn (fun _ : List Nat => "") ⟨0, "Parent", {}, ⟨.oneForOne, 1, 1000⟩, [], [],
      "Worker", { name := some "w" }⟩ [5, 10] 1 = ⟨[true, false], true, false, false⟩ := by decide
  refine ⟨hhere, haway, fun hobeys => ?_⟩
  have hlive := congrArg Outcome.live hobeys.1
  rw [hhere, haway] at hlive
  exact Bool.noConfusion hlive

end Libeam.Proofs.RemoteLimits
