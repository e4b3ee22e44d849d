import Mathlib.Logic.Relation
import Mathlib.Order.WellFounded
/-!
# What every run of a transition relation comes to

A state is bound to reach a property when every run from it does, whichever way it
goes: no run goes on for ever or gets stuck before.  The rules below compose such
facts and obtain them from an invariant and a rank.  Nothing here mentions a
particular program.
-/

namespace Libeam.Lib

variable {σ : Type*}

/-- Every run from the state reaches a state with the property. -/
inductive Inevitable (R : σ → σ → Prop) (P : σ → Prop) : σ → Prop
  | now {s : σ} (h : P s) : Inevitable R P s
  | later {s : σ} (hgoes : ∃ t, R s t) (h : ∀ t, R s t → Inevitable R P t) : Inevitable R P s

namespace Inevitable

variable {R : σ → σ → Prop} {P Q : σ → Prop} {s : σ}

/-- What follows from the property follows in the end. -/
theorem bind (h : Inevitable R P s) (hnext : ∀ t, P t → Inevitable R Q t) :
    Inevitable R Q s := by
  induction h with
  | now h => exact hnext _ h
  | later hgoes _ ih => exact .later hgoes ih

theorem mono (h : Inevitable R P s) (hPQ : ∀ t, P t → Q t) : Inevitable R Q s :=
  h.bind fun t ht => .now (hPQ t ht)

/-- A state with one successor. -/
theorem step {t : σ} (hgoes : R s t) (honly : ∀ u, R s u → u = t) (h : Inevitable R P t) :
    Inevitable R P s :=
  .later ⟨t, hgoes⟩ fun u hu => honly u hu ▸ h

/-- An invariant and a rank that every step lowers, until no step is left. -/
theorem of_rank {ρ : Type*} {I : σ → Prop} (rank : σ → ρ) {lt : ρ → ρ → Prop}
    (hlt : WellFounded lt) (hstep : ∀ s t, I s → R s t → I t ∧ lt (rank t) (rank s))
    (hgoes : ∀ s, I s → P s ∨ ∃ t, R s t) (hs : I s) : Inevitable R (fun t => I t ∧ P t) s := by
  induction hr : rank s using hlt.induction generalizing s with
  | _ r ih =>
      subst hr
      rcases hgoes s hs with hdone | hgoes
      · exact .now ⟨hs, hdone⟩
      · refine .later hgoes fun t ht => ?_
        obtain ⟨hit, hless⟩ := hstep s t hs ht
        exact ih _ hless hit rfl

/-- Where the runs end, both properties hold. -/
theorem meet (h : Inevitable R P s) (h' : Inevitable R Q s) (hP : ∀ s t, P s → ¬ R s t)
    (hQ : ∀ s t, Q s → ¬ R s t) : ∃ t, P t ∧ Q t := by
  induction h with
  | @now s hs =>
      cases h' with
      | now hs' => exact ⟨s, hs, hs'⟩
      | later hgoes _ => exact absurd hgoes.choose_spec (hP _ _ hs)
  | @later s hgoes _ ih =>
      obtain ⟨t, ht⟩ := hgoes
      cases h' with
      | now hs' => exact absurd ht (hQ _ _ hs')
      | later _ hnext => exact ih t ht (hnext t ht)

/-- Every run that has come to an end has reached a property that ends runs. -/
theorem reached {t : σ} (h : Inevitable R P s) (hrun : Relation.ReflTransGen R s t)
    (hends : ∀ u, ¬ R t u) (hP : ∀ s t, P s → ¬ R s t) : P t := by
  induction h with
  | now hs =>
      rcases Relation.ReflTransGen.cases_head hrun with rfl | ⟨u, hu, -⟩
      · exact hs
      · exact absurd hu (hP _ _ hs)
  | later hgoes _ ih =>
      rcases Relation.ReflTransGen.cases_head hrun with rfl | ⟨u, hu, hrun⟩
      · exact absurd hgoes.choose_spec (hends _)
      · exact ih u hu hrun

end Inevitable

end Libeam.Lib
