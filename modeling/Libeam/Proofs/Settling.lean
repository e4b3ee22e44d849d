import Libeam.Lib.Inevitable
import Libeam.Proofs.SystemSteps
/-!
# Calls that go on until none is left

Nothing begins any more, and the calls in progress go on in any order.  What the
registry and other nodes answer is a success, and so is a constructor; the
`terminate()` of some actors may fail.
-/

namespace Libeam.Proofs.Settling

open Libeam.System (ActorId)
open Monitoring Supervision Lib SystemSteps

variable {N V : Type} {callbacks : Callbacks N} {stringify : List V → String}
  {fails : ActorId → Bool} {s t : ActorSystem N V}

/-- `terminate()` of an actor has been called, and it fails. -/
def failing (fails : ActorId → Bool) : Task N V → Bool
  | .tree (.terminating actorRef) => fails actorRef.id
  | _ => false

/-- What takes the place of a call whose first task has gone on. -/
def following (outer : List (Task N V)) (p : Progress N V) : List (List (Task N V)) :=
  (if p.threw ∨ p.tasks ++ outer = [] then [] else [p.tasks ++ outer]) ++ p.calls

/-- The other calls stay, and those that take the place of one of them are added. -/
theorem calls_carryOn {index : Nat} {task : Task N V} {outer : List (Task N V)}
    {p : Progress N V} (h : s.calls[index]? = some (task :: outer))
    (hcalls : p.system.calls = s.calls) :
    ∃ others, s.calls.Perm ((task :: outer) :: others) ∧
      (ActorSystem.carryOn index outer p).calls.Perm (following outer p ++ others) := by
  refine ⟨s.calls.eraseIdx index, perm_eraseIdx h, ?_⟩
  unfold ActorSystem.carryOn following
  rw [hcalls]
  cases hthrew : p.threw with
  | true => simp only [if_true, true_or, List.nil_append]; exact List.perm_append_comm
  | false =>
      rw [if_neg nofun]
      by_cases hrest : p.tasks ++ outer = []
      · simp only [hrest, if_true, or_true, List.nil_append]
        exact List.perm_append_comm
      · simp only [hrest, or_self, if_false, reduceCtorEq, List.append_assoc]
        exact ((perm_set h _).append_right _).trans (.cons _ List.perm_append_comm)

variable [DecidableEq N]

/-- One of the calls goes on. -/
def Settles (callbacks : Callbacks N) (stringify : List V → String) (fails : ActorId → Bool)
    (s t : ActorSystem N V) : Prop :=
  ∃ index task outer, s.calls[index]? = some (task :: outer) ∧
    if failing fails task then s.rejects index = some t
    else ∃ now, s.resumes callbacks stringify index .success now = some t

/-- When no call is left, nothing goes on. -/
theorem not_settles (hidle : s.calls = []) : ¬ Settles callbacks stringify fails s t := by
  rintro ⟨index, task, outer, hcall, -⟩
  simp [hidle] at hcall

theorem settles_resumes {index : Nat} {task : Task N V} {outer : List (Task N V)}
    (hcall : s.calls[index]? = some (task :: outer)) (hfails : failing fails task = false)
    (now : Nat) :
    Settles callbacks stringify fails s (ActorSystem.carryOn index outer
      (s.resumeTask callbacks stringify .success now task)) := by
  refine ⟨index, task, outer, hcall, ?_⟩
  rw [if_neg (by simp [hfails])]
  refine ⟨now, ?_⟩
  unfold ActorSystem.resumes
  rw [hcall]

/-! ## One call -/

/-- The progress of a task in a state with other calls. -/
def withCalls (calls : List (List (Task N V))) (p : Progress N V) : Progress N V :=
  { p with system := { p.system with calls := calls } }

/-- What a task does depends on no call. -/
theorem resumeTask_withCalls (s : ActorSystem N V) (calls : List (List (Task N V)))
    (response : Response) (now : Nat) (task : Task N V) :
    { s with calls := calls }.resumeTask callbacks stringify response now task =
      withCalls calls (s.resumeTask callbacks stringify response now task) := by
  have hannounce : ∀ (s : ActorSystem N V) (r : ActorRef N) (reason : TerminationReason)
      (next : Task N V), { s with calls := calls }.announce callbacks r reason next =
        withCalls calls (s.announce callbacks r reason next) := by
    intro s r reason next
    unfold ActorSystem.announce
    dsimp only
    split_ifs <;> rfl
  have hchildren : ∀ (r : ActorRef N) (rest : List (ActorRef N)),
      { s with calls := calls }.stopChildren callbacks r rest =
        withCalls calls (s.stopChildren callbacks r rest) := by
    intro r rest
    cases rest with
    | nil => exact hannounce { s with
        toTables := s.toTables.detach r
        toRelations := s.toRelations.unwatchAll s.actors r.id } r .normal (.finish r)
    | cons c rest => rfl
  have hframe : ∀ f : Frame N V, { s with calls := calls }.resumeFrame response f =
      withCalls calls (s.resumeFrame response f) := by
    intro f
    unfold ActorSystem.resumeFrame ActorSystem.adopt
    dsimp only
    split_ifs <;> rfl
  cases task with
  | tree f =>
      cases f with
      | stop r =>
          dsimp only [ActorSystem.resumeTask]
          split_ifs
          · exact hchildren r _
          · rfl
      | children r rest => exact hchildren r rest
      | stopSingle r =>
          dsimp only [ActorSystem.resumeTask]
          split_ifs <;> rfl
      | unregistering r => rfl
      | terminating r => rfl
      | respawn x m =>
          dsimp only [ActorSystem.resumeTask]
          split
          next h =>
            rw [if_pos (show s.closed = true from h)]
            rfl
          next h =>
            rw [if_neg (show ¬ s.closed = true from h)]
            exact hframe _
      | strategy p stops remote plan =>
          cases stops with
          | nil =>
              dsimp only [ActorSystem.resumeTask]
              split
              next h =>
                rw [if_pos (show s.closed = true from h)]
                rfl
              next h =>
                rw [if_neg (show ¬ s.closed = true from h)]
                exact hframe _
          | cons c stops => exact hframe _
      | _ => exact hframe _
  | crash r error =>
      have hcounted : ∀ (supervisor) (childSupervisor) (reason : TerminationReason)
          (next : Task N V),
          { s with
            supervisor := supervisor, childSupervisor := childSupervisor,
            calls := calls }.announce callbacks r reason next =
          withCalls calls ({ s with
            supervisor := supervisor, childSupervisor := childSupervisor }.announce callbacks r
              reason next) := fun supervisor childSupervisor =>
        hannounce { s with supervisor := supervisor, childSupervisor := childSupervisor } r
      have hroot : { s with calls := calls }.handleRootCrash callbacks r error now =
          withCalls calls (s.handleRootCrash callbacks r error now) := by
        dsimp only [ActorSystem.handleRootCrash]
        split_ifs
        · exact hcounted _ _ .killed _
        · split
          · rfl
          · exact hcounted _ _ (.error error) _
      have hchild : ∀ (metadata : ActorMetadata N V) (parentRef : ActorRef N),
          { s with calls := calls }.handleChildCrash callbacks stringify r metadata parentRef
            now = withCalls calls
              (s.handleChildCrash callbacks stringify r metadata parentRef now) := by
        intro metadata parentRef
        dsimp only [ActorSystem.handleChildCrash]
        split_ifs
        · rfl
        · exact hcounted _ _ .killed _
        · rfl
      dsimp only [ActorSystem.resumeTask, ActorSystem.handleCrash]
      rw [hroot]
      generalize s.actorMetadata r.id = found
      rcases found with _ | ⟨actorClass, options, _ | parentRef⟩
      · dsimp only
        split_ifs <;> rfl
      · dsimp only
        split_ifs <;> rfl
      · exact hchild _ parentRef
  | linked r reason rest =>
      cases rest with
      | nil => rfl
      | cons l rest =>
          dsimp only [ActorSystem.resumeTask, ActorSystem.tellNext]
          split_ifs <;> rfl
  | stopFor | closeAll | closeUnregistering | closeTerminating => rfl
  | finish r =>
      dsimp only [ActorSystem.resumeTask, ActorSystem.finish]
      split_ifs <;> rfl
  | migrate id move =>
      dsimp only [ActorSystem.resumeTask, ActorSystem.migrated]
      split_ifs <;> rfl

/-- The only call goes on. -/
theorem settles_invoke (hidle : s.calls = []) {task : Task N V} {outer : List (Task N V)} :
    Settles callbacks stringify fails (s.invoke (task :: outer)) t ↔
      if failing fails task then (s.invoke (task :: outer)).rejects 0 = some t
      else ∃ now, t = ActorSystem.carryOn 0 outer
        (withCalls [task :: outer] (s.resumeTask callbacks stringify .success now task)) := by
  have hcalls : (s.invoke (task :: outer)).calls = [task :: outer] := by
    simp [ActorSystem.invoke, hidle]
  have hstate : s.invoke (task :: outer) = { s with calls := [task :: outer] } := by
    simp [ActorSystem.invoke, hidle]
  have hresumes : ∀ now, (s.invoke (task :: outer)).resumes callbacks stringify 0 .success now =
      some (ActorSystem.carryOn 0 outer
        (withCalls [task :: outer] (s.resumeTask callbacks stringify .success now task))) := by
    intro now
    unfold ActorSystem.resumes
    rw [hcalls, hstate, ← resumeTask_withCalls]
    rfl
  constructor
  · rintro ⟨index, task', outer', hcall, hgoes⟩
    rw [hcalls] at hcall
    cases index with
    | zero =>
        cases hcall
        split_ifs at hgoes ⊢ with hfails
        · exact hgoes
        · obtain ⟨now, hgoes⟩ := hgoes
          exact ⟨now, Option.some.inj (hgoes.symm.trans (hresumes now))⟩
    | succ index => cases hcall
  · intro hgoes
    refine ⟨0, task, outer, by rw [hcalls]; rfl, ?_⟩
    split_ifs at hgoes ⊢ with hfails
    · exact hgoes
    · obtain ⟨now, rfl⟩ := hgoes
      exact ⟨now, hresumes now⟩

/-- The task goes on in this way, at whatever time it does. -/
def Turn (callbacks : Callbacks N) (stringify : List V → String) (fails : ActorId → Bool)
    (s : ActorSystem N V) (task : Task N V) (p : Progress N V) : Prop :=
  failing fails task = false ∧
    ∀ now, s.resumeTask callbacks stringify .success now task = p

theorem Turn.calls {task : Task N V} {p : Progress N V}
    (h : Turn callbacks stringify fails s task p) : p.system.calls = s.calls := by
  have hdoes : Does callbacks s .success task
      (s.resumeTask callbacks stringify .success 0 task) := resumeTask_cases s .success 0 task
  rw [h.2] at hdoes
  exact calls_does hdoes

/-- The only call goes on in one way, when it begins no other. -/
theorem Turn.settles_iff (hidle : s.calls = []) {task : Task N V} {outer : List (Task N V)}
    {p : Progress N V} (h : Turn callbacks stringify fails s task p) (hcalls : p.calls = []) :
    Settles callbacks stringify fails (s.invoke (task :: outer)) t ↔
      t = p.system.invoke (if p.threw then [] else p.tasks ++ outer) := by
  have hnext : ActorSystem.carryOn 0 outer (withCalls [task :: outer] p) =
      p.system.invoke (if p.threw then [] else p.tasks ++ outer) := by
    unfold ActorSystem.carryOn withCalls ActorSystem.invoke
    dsimp only
    rw [hcalls, h.calls.trans hidle]
    generalize (if p.threw then [] else p.tasks ++ outer) = rest
    by_cases hrest : rest = []
    · simp [hrest]
    · simp [hrest]
  rw [settles_invoke hidle, if_neg (by simp [h.1])]
  constructor
  · rintro ⟨now, rfl⟩
    rw [h.2, hnext]
  · rintro rfl
    exact ⟨0, by rw [h.2, hnext]⟩

theorem goes {P : ActorSystem N V → Prop} (hidle : s.calls = []) {task : Task N V}
    {outer : List (Task N V)} {p : Progress N V}
    (hturn : Turn callbacks stringify fails s task p) (hcalls : p.calls = [])
    (h : Inevitable (Settles callbacks stringify fails) P
      (p.system.invoke (if p.threw then [] else p.tasks ++ outer))) :
    Inevitable (Settles callbacks stringify fails) P (s.invoke (task :: outer)) :=
  .step ((hturn.settles_iff hidle hcalls).2 rfl) (fun _ => (hturn.settles_iff hidle hcalls).1) h

/-- With `terminate()` of an actor all functions that await it fail. -/
theorem fails_goes {P : ActorSystem N V → Prop} (hidle : s.calls = []) {task : Task N V}
    {outer : List (Task N V)} (hfails : failing fails task = true)
    (h : Inevitable (Settles callbacks stringify fails) P s) :
    Inevitable (Settles callbacks stringify fails) P (s.invoke (task :: outer)) := by
  have hrejects : (s.invoke (task :: outer)).rejects 0 = some s := by
    unfold failing at hfails
    split at hfails
    next r =>
      have hcall : (s.invoke (.tree (.terminating r) :: outer)).calls[0]? =
          some (.tree (.terminating r) :: outer) := by simp [ActorSystem.invoke, hidle]
      unfold ActorSystem.rejects
      rw [hcall]
      have hsame : { s with calls := [] } = s := by rw [← hidle]
      simpa [ActorSystem.carryOn, ActorSystem.throws, ActorSystem.invoke, hidle] using hsame
    · cases hfails
  refine .step (t := s) ?_ (fun u hu => ?_) h
  · rw [settles_invoke hidle, if_pos hfails]
    exact hrejects
  · rw [settles_invoke hidle, if_pos hfails, hrejects] at hu
    exact (Option.some.inj hu).symm

end Libeam.Proofs.Settling
