import Mathlib.Data.String.Basic
import Libeam.Supervision.ChildSupervisor
import Libeam.Lib.Window
/-!
# Restart budgets of children

A key of the table `restartCounts` belongs to one window counter, which every
child with that key uses up.  So a budget is that of one child exactly when no
sibling has the same key, and the counter bounds the restarts of a named child
in one window, not in every interval as long as a window.
-/

namespace Libeam.Proofs.RestartBudget

open Libeam.System (ActorId RestartRecord)
open Supervision Lib

/-! ## Keys -/

section
variable {V : Type} {stringify : List V → String}

theorem toList_toString (n : Nat) : (toString n).toList = Nat.toDigits 10 n := Nat.toList_repr

theorem toString_injective {m n : Nat} (h : toString m = toString n) : m = n := by
  have hdigits : Nat.toDigits 10 m = Nat.toDigits 10 n := by
    rw [← toList_toString, ← toList_toString, h]
  rw [← Nat.ofDigitChars_ten_toDigits (n := m), hdigits, Nat.ofDigitChars_ten_toDigits]

theorem colon_notMem_toString (n : Nat) : ':' ∉ (toString n).toList := by
  intro h
  rw [toList_toString] at h
  exact absurd (Nat.isDigit_of_mem_toDigits (by decide) (by decide) h) (by decide)

theorem append_cons_inj {α : Type*} {a : α} {x y s r : List α} (hx : a ∉ x) (hy : a ∉ y)
    (h : x ++ a :: s = y ++ a :: r) : x = y ∧ s = r := by
  induction x generalizing y with
  | nil =>
      cases y with
      | nil => exact ⟨rfl, (List.cons.inj h).2⟩
      | cons b y => exact absurd ((List.cons.inj h).1 ▸ List.mem_cons_self) hy
  | cons b x ih =>
      cases y with
      | nil => exact absurd ((List.cons.inj h).1 ▸ List.mem_cons_self) hx
      | cons c y =>
          obtain ⟨rfl, htail⟩ := List.cons.inj h
          obtain ⟨rfl, hrest⟩ := ih (fun ha => hx (List.mem_cons_of_mem _ ha))
            (fun ha => hy (List.mem_cons_of_mem _ ha)) htail
          exact ⟨rfl, hrest⟩

/-- The parent's id can be read back from a key. -/
theorem keyed_inj {p q : ActorId} {s r : String}
    (h : toString p ++ ":" ++ s = toString q ++ ":" ++ r) : p = q ∧ s = r := by
  have hlists : (toString p).toList ++ ':' :: s.toList =
      (toString q).toList ++ ':' :: r.toList := by
    have h' := congrArg String.toList h
    simpa [String.toList_append, List.append_assoc] using h'
  obtain ⟨hp, hs⟩ := append_cons_inj (colon_notMem_toString p) (colon_notMem_toString q) hlists
  exact ⟨toString_injective (String.toList_injective hp), String.toList_injective hs⟩

theorem childKey_named {options : SpawnOptions V} {name : String}
    (hname : options.name = some name) (hne : name ≠ "") (id : ActorId) :
    childKey stringify id (some options) = name := by
  simp [childKey, hname, hne]

variable {C : Type} {ch : Children C V}

/-- Local and remote children have keys of one form. -/
theorem restartKey_eq (id : ActorId) :
    ch.restartKey stringify id = toString (ch.parent (ch.owner id)) ++ ":" ++
      childKey stringify id (some (ch.options (ch.owner id))) := by
  unfold Children.restartKey
  dsimp only
  split_ifs <;> rfl

theorem parent_of_restartKey {a b : ActorId}
    (h : ch.restartKey stringify a = ch.restartKey stringify b) :
    ch.parent (ch.owner a) = ch.parent (ch.owner b) := by
  rw [restartKey_eq, restartKey_eq] at h
  exact (keyed_inj h).1

theorem restartKey_of_childKey {a b : ActorId}
    (hparent : ch.parent (ch.owner a) = ch.parent (ch.owner b))
    (h : childKey stringify a (some (ch.options (ch.owner a))) =
      childKey stringify b (some (ch.options (ch.owner b)))) :
    ch.restartKey stringify a = ch.restartKey stringify b := by
  rw [restartKey_eq, restartKey_eq, hparent, h]

end

/-! ## The counter behind a key -/

def windowOf (record : RestartRecord) : Window.Counter := ⟨record.count, record.timestamp⟩

def window (v : ChildSupervisor) (k : String) : Option Window.Counter :=
  (v.restartCounts k).map windowOf

section
variable (v : ChildSupervisor) (k : String) (o : ChildSupervisionOptions) (now : Nat)

theorem record_eq (periodMs : Nat) :
    windowOf (v.record k periodMs now) = Window.current periodMs (window v k) now := by
  unfold ChildSupervisor.record window
  cases v.restartCounts k with
  | none =>
      dsimp only [Option.getD_none, Option.map_none, Window.current]
      split_ifs <;> rfl
  | some record =>
      dsimp only [Option.getD_some, Option.map_some, Window.current, windowOf]
      split_ifs <;> rfl

theorem resets_eq (periodMs : Nat) :
    v.resets k periodMs now = Window.expired periodMs (window v k) now := by
  unfold ChildSupervisor.resets window Window.expired
  cases v.restartCounts k <;> rfl

theorem record_count (periodMs : Nat) :
    (v.record k periodMs now).count = (Window.current periodMs (window v k) now).count := by
  rw [← record_eq]
  rfl

theorem canRestart_granted :
    (v.canRestart k o now).2 = Window.granted o.maxRestarts o.periodMs (window v k) now := by
  unfold ChildSupervisor.canRestart Window.granted
  rw [← record_count]
  dsimp only
  split_ifs with h
  · exact (decide_eq_false (Nat.not_lt.2 h)).symm
  · exact (decide_eq_true (Nat.not_le.1 h)).symm

theorem canRestart_window :
    window (v.canRestart k o now).1 k =
      Window.request o.maxRestarts o.periodMs (window v k) now := by
  unfold ChildSupervisor.canRestart Window.request
  rw [← record_eq]
  dsimp only [windowOf]
  split_ifs with h h' h'
  · omega
  · unfold window
    simp only [Function.update_self, Option.map_map]
    rfl
  · unfold window
    simp only [Function.update_self, Option.map_some]
    rfl
  · omega

theorem canRestart_of_ne {k' : String} (h : k' ≠ k) :
    (v.canRestart k o now).1.restartCounts k' = v.restartCounts k' := by
  unfold ChildSupervisor.canRestart
  dsimp only
  split_ifs <;> exact Function.update_of_ne h _ _

/-- A restart is granted as long as the budget is not used up. -/
theorem granted_iff_remaining :
    (v.canRestart k o now).2 = decide (0 < v.remaining k o now) := by
  rw [canRestart_granted]
  unfold Window.granted ChildSupervisor.remaining
  rw [record_count, decide_eq_decide]
  omega

end

/-- What `canRestart` does with a key depends on the record of that key only. -/
theorem canRestart_congr {v v' : ChildSupervisor} {k : String}
    (h : v.restartCounts k = v'.restartCounts k) (o : ChildSupervisionOptions) (now : Nat) :
    (v.canRestart k o now).1.restartCounts k = (v'.canRestart k o now).1.restartCounts k := by
  unfold ChildSupervisor.canRestart ChildSupervisor.record
  rw [h]
  dsimp only
  split_ifs <;> simp only [Function.update_self]

theorem remaining_congr {v v' : ChildSupervisor} {k : String}
    (h : v.restartCounts k = v'.restartCounts k) (o : ChildSupervisionOptions) (now : Nat) :
    v.remaining k o now = v'.remaining k o now := by
  unfold ChildSupervisor.remaining ChildSupervisor.record
  rw [h]

/-! ## Runs of crashes -/

section
variable {C V : Type} {ch : Children C V} {stringify : List V → String}

theorem handleCrashes_cons (v : ChildSupervisor) (c : Crash) (cs : List Crash) :
    (ch.handleCrashes stringify v (c :: cs)).1 = (ch.handleCrashes stringify
      (v.canRestart (ch.restartKey stringify c.childId) (ch.limits c.childId) c.now).1 cs).1 :=
  rfl

/-- The record of a key follows the crashes with that key. -/
theorem decided_by_key (ch : Children C V) (stringify : List V → String) {k : String}
    {o : ChildSupervisionOptions} {cs : List Crash}
    (ho : ∀ id, ch.restartKey stringify id = k → ch.limits id = o) (v : ChildSupervisor) :
    (((ch.handleCrashes stringify v cs).2.filter (·.restartKey = k)).map fun d =>
        (⟨d.crash.now, d.reset, d.granted⟩ : Window.Decision)) =
      Window.decisions o.maxRestarts o.periodMs (window v k)
        ((cs.filter fun c => ch.restartKey stringify c.childId = k).map (·.now)) := by
  induction cs generalizing v with
  | nil => rfl
  | cons c cs ih =>
      unfold Children.handleCrashes
      dsimp only
      by_cases hk : ch.restartKey stringify c.childId = k
      · rw [List.filter_cons_of_pos (by simpa using hk),
          List.filter_cons_of_pos (by simpa using hk),
          List.map_cons, List.map_cons, Window.decisions, ho _ hk, hk, ih, resets_eq,
          canRestart_granted, canRestart_window]
      · have hsame : window (v.canRestart (ch.restartKey stringify c.childId) (ch.limits c.childId)
            c.now).1 k = window v k := by
          unfold window
          rw [canRestart_of_ne _ _ _ _ (Ne.symm hk)]
        rw [List.filter_cons_of_neg (by simpa using hk),
          List.filter_cons_of_neg (by simpa using hk),
          ih, hsame]

/-- The state after a run of crashes. -/
def after (ch : Children C V) (stringify : List V → String) (cs : List Crash) :
    ChildSupervisor :=
  (ch.handleCrashes stringify .new cs).1

/-- Whatever other children do, the restarts that the supervisor would still grant
to an instance of `B`, and whether it would grant one, depend on the crashes of `B`
only. -/
def Independent [DecidableEq C] (ch : Children C V) (stringify : List V → String) (B : C) :
    Prop :=
  ∀ (cs : List Crash) (b : ActorId) (now : Nat), ch.owner b = B →
    let key := ch.restartKey stringify b
    let all := after ch stringify cs
    let own := after ch stringify (cs.filter fun c => ch.owner c.childId = B)
    all.remaining key (ch.limits b) now = own.remaining key (ch.limits b) now ∧
      (all.canRestart key (ch.limits b) now).2 = (own.canRestart key (ch.limits b) now).2

/-- Crashes of children with other keys leave the records of `B` alone. -/
theorem records_of_own [DecidableEq C] {B : C}
    (hkeys : ∀ a b, ch.owner a ≠ B → ch.owner b = B →
      ch.restartKey stringify a ≠ ch.restartKey stringify b)
    (v v' : ChildSupervisor) (cs : List Crash)
    (h : ∀ b, ch.owner b = B →
      v.restartCounts (ch.restartKey stringify b) = v'.restartCounts (ch.restartKey stringify b))
    {b : ActorId} (hb : ch.owner b = B) :
    (ch.handleCrashes stringify v cs).1.restartCounts (ch.restartKey stringify b) =
      (ch.handleCrashes stringify v' (cs.filter fun c => ch.owner c.childId = B)).1.restartCounts
        (ch.restartKey stringify b) := by
  induction cs generalizing v v' with
  | nil => exact h b hb
  | cons c cs ih =>
      by_cases hc : ch.owner c.childId = B
      · rw [List.filter_cons_of_pos (by simpa using hc), handleCrashes_cons, handleCrashes_cons]
        refine ih _ _ fun b' hb' => ?_
        by_cases hkey : ch.restartKey stringify b' = ch.restartKey stringify c.childId
        · rw [hkey]
          exact canRestart_congr (h _ hc) _ _
        · rw [canRestart_of_ne _ _ _ _ hkey, canRestart_of_ne _ _ _ _ hkey]
          exact h b' hb'
      · rw [List.filter_cons_of_neg (by simpa using hc), handleCrashes_cons]
        refine ih _ _ fun b' hb' => ?_
        rw [canRestart_of_ne _ _ _ _ (hkeys _ _ hc hb').symm]
        exact h b' hb'

/-- At the time a record was made, a crash takes one restart off the budget. -/
theorem canRestart_remaining (v : ChildSupervisor) (k : String) (o : ChildSupervisionOptions)
    {now : Nat} (h : ∀ record ∈ v.restartCounts k, record.timestamp = now) :
    (v.canRestart k o now).1.remaining k o now = v.remaining k o now - 1 ∧
      ∀ record ∈ (v.canRestart k o now).1.restartCounts k, record.timestamp = now := by
  have hrecord : v.record k o.periodMs now = (v.restartCounts k).getD ⟨0, now⟩ ∧
      ((v.restartCounts k).getD ⟨0, now⟩).timestamp = now := by
    unfold ChildSupervisor.record
    cases hr : v.restartCounts k with
    | none => simp
    | some record => simp [h record hr]
  unfold ChildSupervisor.canRestart
  rw [hrecord.1]
  dsimp only
  split_ifs with hfull
  · constructor
    · unfold ChildSupervisor.remaining ChildSupervisor.record
      cases hr : v.restartCounts k with
      | none | some => simp_all
    · intro record hr
      simp only [Function.update_self, Option.mem_def, Option.map_eq_some_iff] at hr
      obtain ⟨_, _, rfl⟩ := hr
      exact hrecord.2
  · constructor
    · unfold ChildSupervisor.remaining
      rw [hrecord.1]
      simp only [ChildSupervisor.record, Function.update_self, Option.getD_some, hrecord.2,
        Nat.sub_self, Nat.not_lt_zero, if_false]
      omega
    · intro record hr
      simp only [Function.update_self, Option.mem_def, Option.some.injEq] at hr
      subst hr
      exact hrecord.2

theorem remaining_after_replicate (ch : Children C V) (stringify : List V → String) (a : ActorId)
    (n : Nat) (v : ChildSupervisor)
    (h : ∀ record ∈ v.restartCounts (ch.restartKey stringify a), record.timestamp = 0) :
    (ch.handleCrashes stringify v (List.replicate n ⟨a, 0⟩)).1.remaining
        (ch.restartKey stringify a) (ch.limits a) 0 =
      v.remaining (ch.restartKey stringify a) (ch.limits a) 0 - n := by
  induction n generalizing v with
  | zero => rfl
  | succ n ih =>
      obtain ⟨hless, htime⟩ := canRestart_remaining v (ch.restartKey stringify a) (ch.limits a) h
      rw [List.replicate_succ, handleCrashes_cons, ih _ htime, hless]
      omega

@[simp] theorem remaining_new (k : String) (o : ChildSupervisionOptions) (now : Nat) :
    ChildSupervisor.new.remaining k o now = o.maxRestarts := by
  simp [ChildSupervisor.remaining, ChildSupervisor.record, ChildSupervisor.new]

/-- A sibling with the same key can use up the whole budget. -/
theorem not_independent_of_shared [DecidableEq C] {B : C} {a b : ActorId}
    (ha : ch.owner a ≠ B) (hb : ch.owner b = B)
    (hparent : ch.parent (ch.owner a) = ch.parent B)
    (hkey : ch.restartKey stringify a = ch.restartKey stringify b)
    (hmax : (ch.supervision (ch.parent B)).maxRestarts ≠ 0) :
    ¬ Independent ch stringify B := by
  intro hind
  have hlimits : ch.limits a = ch.limits b := by
    unfold Children.limits
    rw [hparent, hb]
  have hboth := (hind (List.replicate (ch.limits b).maxRestarts ⟨a, 0⟩) b 0 hb).1
  have hown : (List.replicate (ch.limits b).maxRestarts (⟨a, 0⟩ : Crash)).filter
      (fun c => ch.owner c.childId = B) = [] := by
    rw [List.filter_eq_nil_iff]
    intro c hc
    rw [List.eq_of_mem_replicate hc]
    simpa using ha
  have hused := remaining_after_replicate ch stringify a
    (ch.limits b).maxRestarts .new (fun record hr => by cases hr)
  rw [remaining_new, hlimits, hkey, Nat.sub_self] at hused
  rw [hown] at hboth
  have hfresh : (after ch stringify []).remaining (ch.restartKey stringify b) (ch.limits b) 0 =
      (ch.limits b).maxRestarts := remaining_new _ _ _
  rw [hfresh] at hboth
  have hzero : (ch.limits b).maxRestarts = 0 := hboth.symm.trans hused
  unfold Children.limits at hzero
  rw [hb] at hzero
  exact hmax hzero

theorem independent_of_keys [DecidableEq C] {B : C}
    (hkeys : ∀ a b, ch.owner a ≠ B → ch.owner b = B →
      ch.restartKey stringify a ≠ ch.restartKey stringify b) : Independent ch stringify B := by
  intro cs b now hb
  have hsame := records_of_own hkeys .new .new cs (fun _ _ => rfl) hb
  have hremaining := remaining_congr (v := after ch stringify cs) hsame (ch.limits b) now
  dsimp only
  rw [granted_iff_remaining, granted_iff_remaining, hremaining]
  exact ⟨rfl, rfl⟩

theorem independent_of_no_budget [DecidableEq C] {B : C}
    (hmax : (ch.supervision (ch.parent B)).maxRestarts = 0) : Independent ch stringify B := by
  intro cs b now hb
  have hlimits : (ch.limits b).maxRestarts = 0 := by
    unfold Children.limits
    rw [hb]
    exact hmax
  have hnone : ∀ v : ChildSupervisor,
      v.remaining (ch.restartKey stringify b) (ch.limits b) now = 0 := by
    intro v
    unfold ChildSupervisor.remaining
    rw [hlimits, Nat.zero_sub]
  dsimp only
  rw [granted_iff_remaining, granted_iff_remaining, hnone, hnone]
  exact ⟨rfl, rfl⟩

/-- The budget of a child is its own if and only if there is none, or no sibling is
identified by the same string: its name, or else its arguments, or else its quoted
id. -/
theorem independent_iff [DecidableEq C] (ch : Children C V) (stringify : List V → String) (B : C) :
    Independent ch stringify B ↔
      (ch.supervision (ch.parent B)).maxRestarts = 0 ∨
      ∀ a b, ch.owner a ≠ B → ch.parent (ch.owner a) = ch.parent B → ch.owner b = B →
        childKey stringify a (some (ch.options (ch.owner a))) ≠
          childKey stringify b (some (ch.options B)) := by
  constructor
  · intro hind
    by_contra hneither
    obtain ⟨hmax, hshared⟩ := not_or.1 hneither
    push Not at hshared
    obtain ⟨a, b, ha, hparent, hb, hkey⟩ := hshared
    subst hb
    exact not_independent_of_shared ha rfl hparent (restartKey_of_childKey hparent hkey) hmax hind
  · rintro (hmax | hkeys)
    · exact independent_of_no_budget hmax
    · refine independent_of_keys fun a b ha hb hkey => ?_
      subst hb
      have hparent := parent_of_restartKey hkey
      rw [restartKey_eq, restartKey_eq, hparent] at hkey
      exact hkeys a b ha hparent rfl (keyed_inj hkey).2

end

/-! ## Two siblings with the same arguments -/

/-- Instances 1 and 2 of one parent, both without a name and with argument `7`. -/
def siblings : Children ActorId Nat where
  owner := fun id => id
  parent := fun _ => 0
  options := fun _ => { args := some [7] }
  remote := fun _ => false
  supervision := fun _ => ⟨.oneForOne, 1, 5000⟩

theorem siblings_share : ¬ Independent siblings (fun args => toString args) 2 :=
  not_independent_of_shared (a := 1) (b := 2) (by decide) rfl rfl rfl (by decide)

/-! ## Restarts in an interval -/

section
variable {C V : Type} {ch : Children C V} {stringify : List V → String}

/-- When the restarts of `child` were granted. -/
def grantTimes [DecidableEq C] (ch : Children C V) (child : C) (log : List Decided) : List Nat :=
  (log.filter fun d => ch.owner d.crash.childId = child ∧ d.granted).map (·.crash.now)

theorem decided_restartKey {v : ChildSupervisor} {cs : List Crash} {d : Decided}
    (h : d ∈ (ch.handleCrashes stringify v cs).2) :
    d.restartKey = ch.restartKey stringify d.crash.childId := by
  induction cs generalizing v with
  | nil => cases h
  | cons c cs ih =>
      rcases List.mem_cons.1 h with rfl | h
      · rfl
      · exact ih h

theorem restartKey_named {name : String} {child : C} (hname : (ch.options child).name = some name)
    (hne : name ≠ "") {id : ActorId} (hid : ch.owner id = child) :
    ch.restartKey stringify id = toString (ch.parent child) ++ ":" ++ name := by
  rw [restartKey_eq, hid, childKey_named hname hne]

theorem limits_of_restartKey {p : ActorId} {part : String} {id : ActorId}
    (h : ch.restartKey stringify id = toString p ++ ":" ++ part) :
    ch.limits id = ch.supervision p := by
  rw [restartKey_eq] at h
  unfold Children.limits
  rw [(keyed_inj h).1]

/-- The crashes that fall to the record of a key, as requests to its counter. -/
theorem decided_by_record (ch : Children C V) (stringify : List V → String) (p : ActorId)
    (part : String) (cs : List Crash) :
    ∃ times, List.Sublist times (cs.map (·.now)) ∧
      (((ch.handleCrashes stringify .new cs).2.filter
          (·.restartKey = toString p ++ ":" ++ part)).map fun d =>
          (⟨d.crash.now, d.reset, d.granted⟩ : Window.Decision)) =
        Window.decisions (ch.supervision p).maxRestarts (ch.supervision p).periodMs none times :=
  ⟨_, List.Sublist.map _ List.filter_sublist,
    decided_by_key ch stringify (o := ch.supervision p)
      (fun _ => limits_of_restartKey) .new⟩

variable [DecidableEq C]

/-- A granted restart of a named child is one under the key made of its name. -/
theorem granted_under_key {name : String} {child : C}
    (hname : (ch.options child).name = some name) (hne : name ≠ "") {cs : List Crash} :
    ∀ d ∈ (ch.handleCrashes stringify .new cs).2,
      decide (ch.owner d.crash.childId = child ∧ d.granted) = true →
      (d.granted && decide (d.restartKey = toString (ch.parent child) ++ ":" ++ name)) = true := by
  intro d hd hchild
  obtain ⟨howner, hgranted⟩ := of_decide_eq_true hchild
  rw [hgranted, Bool.true_and, decide_eq_true_eq, decided_restartKey hd]
  exact restartKey_named hname hne howner

/-- The granted restarts of a named child are granted requests of its counter. -/
theorem grantTimes_sublist (stringify : List V → String) {name : String} {child : C}
    (hname : (ch.options child).name = some name) (hne : name ≠ "") (cs : List Crash) :
    ∃ times, List.Sublist times (cs.map (·.now)) ∧
      List.Sublist (grantTimes ch child (ch.handleCrashes stringify .new cs).2)
        (Window.grants (ch.supervision (ch.parent child)).maxRestarts
          (ch.supervision (ch.parent child)).periodMs none times) := by
  obtain ⟨times, htimes, hlog⟩ := decided_by_record ch stringify (ch.parent child) name cs
  refine ⟨times, htimes, ?_⟩
  unfold Window.grants grantTimes
  rw [← hlog, List.filter_map, List.map_map, List.filter_filter]
  refine List.Sublist.map _ ?_
  have hboth := List.filter_congr (l := (ch.handleCrashes stringify .new cs).2)
    (p := fun d => decide (ch.owner d.crash.childId = child ∧ d.granted))
    (q := fun d => decide (ch.owner d.crash.childId = child ∧ d.granted) &&
      (d.granted && decide (d.restartKey = toString (ch.parent child) ++ ":" ++ name)))
    (fun d hd => by
      by_cases hchild : decide (ch.owner d.crash.childId = child ∧ d.granted) = true
      · rw [granted_under_key hname hne d hd hchild, Bool.and_true]
      · rw [Bool.not_eq_true] at hchild
        rw [hchild, Bool.false_and])
  rw [hboth, ← List.filter_filter]
  exact List.filter_sublist

theorem inside_mono {period a : Nat} {xs ys : List Nat} (h : List.Sublist xs ys) :
    Window.inside period a xs ≤ Window.inside period a ys :=
  h.countP_le

/-- A named child is restarted at most `maxRestarts` times between two resets of its
record, and less than twice as often in any interval as long as the period. -/
theorem restarts_of_named (ch : Children C V) (stringify : List V → String) {name : String}
    {child : C}
    (hname : (ch.options child).name = some name) (hne : name ≠ "") {cs : List Crash}
    (hsorted : (cs.map (·.now)).Pairwise (· ≤ ·)) :
    (∀ before mid after, (ch.handleCrashes stringify .new cs).2 = before ++ (mid ++ after) →
      (∀ d ∈ mid, d.restartKey = toString (ch.parent child) ++ ":" ++ name → d.reset = false) →
      mid.countP (fun d => ch.owner d.crash.childId = child ∧ d.granted) ≤
        (ch.supervision (ch.parent child)).maxRestarts) ∧
    ∀ a, Window.inside (ch.supervision (ch.parent child)).periodMs a
        (grantTimes ch child (ch.handleCrashes stringify .new cs).2) ≤
      2 * (ch.supervision (ch.parent child)).maxRestarts - 1 := by
  constructor
  · intro before mid after hlog hsteady
    obtain ⟨times, -, hdecisions⟩ := decided_by_record ch stringify (ch.parent child) name cs
    have hmem : ∀ d ∈ mid, d ∈ (ch.handleCrashes stringify .new cs).2 := by
      intro d hd
      rw [hlog]
      exact List.mem_append_right _ (List.mem_append_left _ hd)
    rw [hlog, List.filter_append, List.filter_append, List.map_append, List.map_append]
      at hdecisions
    have hbound := Window.granted_between_resets (Nat.zero_le _) hdecisions.symm (by
      intro d hd
      obtain ⟨e, he, rfl⟩ := List.mem_map.1 hd
      obtain ⟨hmid, hkey⟩ := List.mem_filter.1 he
      exact hsteady e hmid (of_decide_eq_true hkey))
    rw [List.countP_map, List.countP_filter] at hbound
    refine Nat.le_trans (List.countP_mono_left fun d hd hchild => ?_) hbound
    exact granted_under_key hname hne d (hmem d hd) hchild
  · intro a
    obtain ⟨times, htimes, hgrants⟩ := grantTimes_sublist stringify hname hne cs
    have hopened : Window.Opened (ch.supervision (ch.parent child)).maxRestarts none :=
      fun _ h => by cases h
    exact Nat.le_trans (inside_mono hgrants)
      (Window.inside_grants_le hopened (hsorted.sublist htimes) a)

end

/-! ## Two windows in one interval -/

/-- One child, with name `worker` and two restarts in 100 ms. -/
def worker : Children Unit Nat where
  owner := fun _ => ()
  parent := fun _ => 0
  options := fun _ => { name := some "worker" }
  remote := fun _ => false
  supervision := fun _ => ⟨.oneForOne, 2, 100⟩

def burst : List Crash := [⟨1, 0⟩, ⟨2, 100⟩, ⟨3, 101⟩, ⟨4, 102⟩]

theorem burst_decided :
    (grantTimes worker () (worker.handleCrashes (fun args => toString args) .new burst).2) =
      [0, 100, 101, 102] := by
  have hkey : ∀ id, worker.restartKey (fun args => toString args) id =
      toString 0 ++ ":" ++ "worker" := fun id =>
    (restartKey_named rfl (by decide) (rfl : worker.owner id = ()) :)
  simp only [burst, Children.handleCrashes, hkey]
  generalize toString 0 ++ ":" ++ "worker" = key
  simp [grantTimes, worker, Children.limits, ChildSupervisor.canRestart, ChildSupervisor.record,
    ChildSupervisor.new]

/-- Three restarts between 100 and 200, where two are allowed in 100 ms. -/
theorem burst_exceeds :
    (burst.map (·.now)).Pairwise (· ≤ ·) ∧
    (worker.supervision 0).maxRestarts < Window.inside (worker.supervision 0).periodMs 100
      (grantTimes worker () (worker.handleCrashes (fun args => toString args) .new burst).2) := by
  rw [burst_decided]
  decide

theorem restarts_of_named_burst :
    Window.inside (worker.supervision 0).periodMs 100
        (grantTimes worker () (worker.handleCrashes (fun args => toString args) .new burst).2) ≤
      2 * (worker.supervision 0).maxRestarts - 1 :=
  (restarts_of_named worker (fun args => toString args) rfl (by decide) (by decide)).2 100

end Libeam.Proofs.RestartBudget
