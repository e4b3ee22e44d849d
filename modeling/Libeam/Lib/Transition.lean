import Mathlib.Data.List.Basic
import Mathlib.Order.Basic
/-!
# Runs of a partial step function

A system is given by `step : σ → α → Option σ`, where `α` names the actions and
`none` means that the action is not enabled.  A run is a list of actions.  The
rules below turn facts about one step into facts about every state of a run.
Nothing here mentions a particular program.
-/

namespace Libeam.Lib.Transition

variable {σ α : Type*} (step : σ → α → Option σ)

/-- The state a list of actions leads to, when every action is enabled. -/
def run : σ → List α → Option σ
  | s, [] => some s
  | s, a :: as => (step s a).bind fun t => run t as

/-- Every step of the run satisfies `G`, a predicate on the state before the
step and the action taken. -/
def Along (G : σ → α → Prop) : σ → List α → Prop
  | _, [] => True
  | s, a :: as => G s a ∧ ∀ t, step s a = some t → Along G t as

/-- Every state of the run satisfies `Q`, the first and the last included. -/
def Throughout (Q : σ → Prop) : σ → List α → Prop
  | s, [] => Q s
  | s, a :: as => Q s ∧ ∀ t, step s a = some t → Throughout Q t as

variable {step}

@[simp] theorem run_nil (s : σ) : run step s [] = some s := rfl

theorem run_cons_eq_some {s u : σ} {a : α} {as : List α} :
    run step s (a :: as) = some u ↔
      ∃ t, step s a = some t ∧ run step t as = some u := by
  simp [run, Option.bind_eq_some_iff]

theorem run_append (s : σ) (as bs : List α) :
    run step s (as ++ bs) = (run step s as).bind fun t => run step t bs := by
  induction as generalizing s with
  | nil => rfl
  | cons a as ih =>
      simp only [List.cons_append, run, Option.bind_assoc]
      congr
      funext t
      exact ih t

theorem Along.mono {G H : σ → α → Prop} (hGH : ∀ s a, G s a → H s a)
    {s : σ} {as : List α} (h : Along step G s as) : Along step H s as := by
  induction as generalizing s with
  | nil => trivial
  | cons a as ih =>
      exact ⟨hGH s a h.1, fun t ht => ih (h.2 t ht)⟩

theorem Along.and {G H : σ → α → Prop} {s : σ} {as : List α} (hG : Along step G s as)
    (hH : Along step H s as) : Along step (fun s a => G s a ∧ H s a) s as := by
  induction as generalizing s with
  | nil => trivial
  | cons a as ih =>
      exact ⟨⟨hG.1, hH.1⟩, fun t ht => ih (hG.2 t ht) (hH.2 t ht)⟩

theorem Along.append {G : σ → α → Prop} {s u : σ} {as bs : List α}
    (has : Along step G s as) (hrun : run step s as = some u)
    (hbs : Along step G u bs) : Along step G s (as ++ bs) := by
  induction as generalizing s with
  | nil =>
      cases hrun
      exact hbs
  | cons a as ih =>
      obtain ⟨t, hst, htu⟩ := run_cons_eq_some.1 hrun
      refine ⟨has.1, fun t' ht' => ?_⟩
      obtain rfl := Option.some.inj (hst.symm.trans ht')
      exact ih (has.2 t hst) htu

/-- A condition on the actions alone holds along every run of such actions. -/
theorem along_of_forall_mem {P : α → Prop} {as : List α} (h : ∀ a ∈ as, P a)
    (s : σ) : Along step (fun _ a => P a) s as := by
  induction as generalizing s with
  | nil => trivial
  | cons a as ih =>
      exact ⟨h a (by simp), fun t _ => ih (fun b hb => h b (by simp [hb])) t⟩

/-- The invariant rule: what every admitted step preserves, every admitted run
preserves. -/
theorem run_invariant {I : σ → Prop} {G : σ → α → Prop}
    (hstep : ∀ s a t, I s → G s a → step s a = some t → I t)
    {s u : σ} {as : List α} (hs : I s) (hG : Along step G s as)
    (hrun : run step s as = some u) : I u := by
  induction as generalizing s with
  | nil =>
      cases hrun
      exact hs
  | cons a as ih =>
      obtain ⟨t, hst, htu⟩ := run_cons_eq_some.1 hrun
      exact ih (hstep s a t hs hG.1 hst) (hG.2 t hst) htu

/-- The invariant rule for runs without a side condition. -/
theorem run_invariant' {I : σ → Prop}
    (hstep : ∀ s a t, I s → step s a = some t → I t)
    {s u : σ} {as : List α} (hs : I s) (hrun : run step s as = some u) :
    I u :=
  run_invariant (G := fun _ _ => True) (fun s a t hi _ => hstep s a t hi) hs
    (along_of_forall_mem (P := fun _ => True) (fun _ _ => trivial) s) hrun

theorem Throughout.mono {P Q : σ → Prop} (hPQ : ∀ s, P s → Q s) {s : σ}
    {as : List α} (h : Throughout step P s as) : Throughout step Q s as := by
  induction as generalizing s with
  | nil => exact hPQ s h
  | cons a as ih => exact ⟨hPQ s h.1, fun t ht => ih (h.2 t ht)⟩

theorem throughout_of_invariant {I : σ → Prop} {G : σ → α → Prop}
    (hstep : ∀ s a t, I s → G s a → step s a = some t → I t)
    {s : σ} {as : List α} (hs : I s) (hG : Along step G s as) :
    Throughout step I s as := by
  induction as generalizing s with
  | nil => exact hs
  | cons a as ih =>
      exact ⟨hs, fun t ht => ih (hstep s a t hs hG.1 ht) (hG.2 t ht)⟩

/-- What an invariant says about the next admitted step holds of every step. -/
theorem along_of_invariant {I : σ → Prop} {G H : σ → α → Prop}
    (hstep : ∀ s a t, I s → G s a → step s a = some t → I t)
    (hH : ∀ s a, I s → G s a → H s a) {s : σ} {as : List α} (hs : I s)
    (hG : Along step G s as) : Along step H s as := by
  induction as generalizing s with
  | nil => trivial
  | cons a as ih =>
      exact ⟨hH s a hs hG.1, fun t ht => ih (hstep s a t hs hG.1 ht) (hG.2 t ht)⟩

theorem Throughout.head {Q : σ → Prop} {s : σ} {as : List α}
    (h : Throughout step Q s as) : Q s := by
  cases as with
  | nil => exact h
  | cons a as => exact h.1

/-- When a guard is exactly what keeps a property, a run keeps the property
throughout if and only if each of its steps meets the guard: `I` survives the
guarded steps and gives `Q`, and an unguarded step from `I` loses `Q`. -/
theorem throughout_iff_along {I Q : σ → Prop} {A G : σ → α → Prop}
    (hkeep : ∀ s a t, I s → A s a → G s a → step s a = some t → I t)
    (hQ : ∀ s, I s → Q s)
    (hbreak : ∀ s a t, I s → A s a → ¬ G s a → step s a = some t → ¬ Q t)
    {s u : σ} {as : List α} (hs : I s) (hA : Along step A s as)
    (hrun : run step s as = some u) :
    Throughout step Q s as ↔ Along step G s as := by
  constructor
  · intro h
    induction as generalizing s with
    | nil => trivial
    | cons a as ih =>
        obtain ⟨t, hst, htu⟩ := run_cons_eq_some.1 hrun
        have hG : G s a := by
          by_contra hn
          exact hbreak s a t hs hA.1 hn hst (h.2 t hst).head
        refine ⟨hG, fun t' ht' => ?_⟩
        obtain rfl : t = t' := Option.some.inj (hst.symm.trans ht')
        exact ih (hkeep s a t hs hA.1 hG hst) (hA.2 t hst) htu (h.2 t hst)
  · intro h
    clear hrun
    induction as generalizing s with
    | nil => exact hQ s hs
    | cons a as ih =>
        exact ⟨hQ s hs, fun t ht =>
          ih (hkeep s a t hs hA.1 h.1 ht) (hA.2 t ht) (h.2 t ht)⟩

/-- When breaking the guard leads to states that no later step repairs, a run
ends well if it kept the guard and badly if it did not. -/
theorem along_or_broken {I B : σ → Prop} {A G : σ → α → Prop}
    (hkeep : ∀ s a t, I s → A s a → G s a → step s a = some t → I t)
    (hbreak : ∀ s a t, I s → A s a → ¬ G s a → step s a = some t → B t)
    (hstay : ∀ s a t, B s → A s a → step s a = some t → B t)
    {s u : σ} {as : List α} (hs : I s) (hA : Along step A s as)
    (hrun : run step s as = some u) :
    Along step G s as ∧ I u ∨ ¬ Along step G s as ∧ B u := by
  induction as generalizing s with
  | nil =>
      cases hrun
      exact .inl ⟨trivial, hs⟩
  | cons a as ih =>
      obtain ⟨t, hst, htu⟩ := run_cons_eq_some.1 hrun
      have honly : ∀ t', step s a = some t' → t' = t := fun t' ht' =>
        Option.some.inj (ht'.symm.trans hst)
      by_cases hG : G s a
      · rcases ih (hkeep s a t hs hA.1 hG hst) (hA.2 t hst) htu with
          ⟨halong, hgood⟩ | ⟨hbroken, hbad⟩
        · exact .inl ⟨⟨hG, fun t' ht' => honly t' ht' ▸ halong⟩, hgood⟩
        · exact .inr ⟨fun halong => hbroken (halong.2 t hst), hbad⟩
      · refine .inr ⟨fun halong => hG halong.1, ?_⟩
        exact run_invariant (fun s a t hb ha hst => hstay s a t hb ha hst)
          (hbreak s a t hs hA.1 hG hst) (hA.2 t hst) htu

end Libeam.Lib.Transition

/-! ## Sequential objects

An object is given by `apply`: what an operation answers in a state, and the state it leaves.  A
concurrent implementation is compared with the operations applied one after another.
-/

namespace Libeam.Lib.Sequential

variable {σ ω ρ : Type*} (apply : σ → ω → ρ × σ)

/-- The state after the operations, applied one after another. -/
def final (s : σ) (ops : List ω) : σ := ops.foldl (fun s op => (apply s op).2) s

/-- What the operations answer, in order. -/
def replies : σ → List ω → List ρ
  | _, [] => []
  | s, op :: ops => (apply s op).1 :: replies (apply s op).2 ops

variable {apply}

theorem final_snoc (s : σ) (ops : List ω) (op : ω) :
    final apply s (ops ++ [op]) = (apply (final apply s ops) op).2 := by
  rw [final, List.foldl_append]
  rfl

theorem replies_append (s : σ) (ops ops' : List ω) :
    replies apply s (ops ++ ops') =
      replies apply s ops ++ replies apply (final apply s ops) ops' := by
  induction ops generalizing s with
  | nil => rfl
  | cons op ops ih => exact congrArg ((apply s op).1 :: ·) (ih (apply s op).2)

theorem replies_snoc (s : σ) (ops : List ω) (op : ω) :
    replies apply s (ops ++ [op]) =
      replies apply s ops ++ [(apply (final apply s ops) op).1] :=
  replies_append s ops [op]

end Libeam.Lib.Sequential
