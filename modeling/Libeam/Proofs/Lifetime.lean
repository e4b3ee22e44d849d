import Libeam.Proofs.HandlerStarts
import Libeam.System.Lifecycle
/-!
# When a dead instance handles messages

An instance is dead once a cast handler of it has thrown or its `terminate()`
has been invoked.  It stays in the tables until the awaits of its stop are
over; only then nothing can start a handler of it.
-/

namespace Libeam.Proofs.Lifetime

open Libeam.System Lib.Transition Proofs.Frame HandlerStarts

variable {V : Type}

/-- No handler of an instance started after its death. -/
def QuietAfterDeath (l : Lifecycle V) : Prop :=
  ∀ d ∈ l.deaths, ∀ p ∈ l.node.started.drop d.2, p.1 ≠ d.1

/-- Deaths are recorded at a length that the history of starts has reached. -/
def Recorded (l : Lifecycle V) : Prop := ∀ d ∈ l.deaths, d.2 ≤ l.node.started.length

/-! ## Steps that start nothing -/

/-- The step starts no handler; deaths are recorded at this moment. -/
structure Still (l l' : Lifecycle V) : Prop where
  started : l'.node.started = l.node.started
  deaths : ∀ d ∈ l'.deaths, d ∈ l.deaths ∨ d.2 = l.node.started.length

namespace Still

variable {l l' l'' : Lifecycle V}

theorem refl (l : Lifecycle V) : Still l l := ⟨rfl, fun _ => .inl⟩

theorem trans (h : Still l l') (h' : Still l' l'') : Still l l'' where
  started := h'.started.trans h.started
  deaths := by
    intro d hd
    rcases h'.deaths d hd with hd | hd
    · exact h.deaths d hd
    · exact .inr (hd.trans (congrArg List.length h.started))

theorem recordDeath (h : Still l l') (id : ActorId) : Still l (l'.recordDeath id) := by
  refine h.trans ⟨rfl, fun d hd => ?_⟩
  rcases List.mem_append.1 hd with hd | hd
  · exact .inl hd
  · rw [List.mem_singleton.1 hd]
    exact .inr rfl

theorem recorded (h : Still l l') (hl : Recorded l) : Recorded l' := by
  intro d hd
  rw [h.started]
  rcases h.deaths d hd with hd | hd
  · exact hl d hd
  · exact hd.le

theorem quiet (h : Still l l') (hl : QuietAfterDeath l) : QuietAfterDeath l' := by
  intro d hd p hp
  rw [h.started] at hp
  rcases h.deaths d hd with hd | hd
  · exact hl d hd p hp
  · rw [hd, List.drop_length] at hp
    cases hp

end Still

end Libeam.Proofs.Lifetime
