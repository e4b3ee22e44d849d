import Libeam.Proofs.SystemSteps
/-!
# How often `terminate()` is called

`stop`, `stopSingle` and `shutdown` look an instance up once, when they begin, and
take it out of the table after its `terminate()`.  Each removal calls `terminate()`
at most once; an instance that is found a second time is terminated a second time.
-/

namespace Libeam.Proofs.TerminateOnce

open Libeam.System (ActorId Supervisor)
open Monitoring Supervision Lib.Transition SystemSteps

variable {N V : Type}

/-! ## Removals -/

/-- The task is removing the instance and has not called its `terminate()`. -/
def pending (id : ActorId) (task : Task N V) : Bool :=
  removing task = some id ∧ awaiting task = none

/-- How often `terminate()` has been called, with the calls that are to come. -/
def terminations (s : ActorSystem N V) (id : ActorId) : Nat :=
  s.terminated.count id + s.calls.flatten.countP (pending id)

/-- The instances that a task finds in the table, to remove them. -/
def found (s : ActorSystem N V) : Task N V → Finset ActorId
  | .tree (.stop r) | .tree (.stopSingle r) => s.actors.filter (· = r.id)
  | .closeAll => s.actors
  | _ => ∅

/-- The instances that a step begins to remove. -/
def begins (s : ActorSystem N V) : SystemAction N V → Finset ActorId
  | .resumes index _ _ =>
      match s.calls[index]? with
      | some (task :: _) => found s task
      | _ => ∅
  | _ => ∅

/-- A removal of the instance is in progress, or has called `terminate()` before. -/
def Begun (s : ActorSystem N V) (id : ActorId) : Prop :=
  id ∈ s.terminated ∨ ∃ task ∈ s.calls.flatten, removing task = some id

instance (s : ActorSystem N V) (id : ActorId) : Decidable (Begun s id) :=
  inferInstanceAs (Decidable (_ ∨ _))

/-- No removal begins when one of the same instance has begun. -/
def Alone (s : ActorSystem N V) (a : SystemAction N V) : Prop :=
  ∀ id ∈ begins s a, ¬ Begun s id

instance (s : ActorSystem N V) (a : SystemAction N V) : Decidable (Alone s a) :=
  inferInstanceAs (Decidable (∀ id ∈ begins s a, ¬ Begun s id))

theorem begins_resumes {s : ActorSystem N V} {index : Nat} {task : Task N V}
    {outer : List (Task N V)} (hcall : s.calls[index]? = some (task :: outer))
    (response : Response) (now : Nat) :
    begins s (.resumes index response now) = found s task := by
  simp only [begins, hcall]

theorem terminations_of_not_begun {s : ActorSystem N V} {id : ActorId} (h : ¬ Begun s id) :
    terminations s id = 0 := by
  obtain ⟨hterminated, htasks⟩ := not_or.1 h
  have hpending : s.calls.flatten.countP (pending id) = 0 :=
    List.countP_eq_zero.2 fun task htask hp =>
      htasks ⟨task, htask, (of_decide_eq_true hp).1⟩
  unfold terminations
  rw [List.count_eq_zero_of_not_mem hterminated, hpending]

theorem countP_idle {tasks : List (Task N V)} (h : ∀ task ∈ tasks, removing task = none)
    (id : ActorId) : tasks.countP (pending id) = 0 :=
  List.countP_eq_zero.2 fun task htask hp => by
    have hremoving := (of_decide_eq_true hp).1
    rw [h task htask] at hremoving
    cases hremoving

theorem countP_next {next : Task N V} {x : ActorId} (hnext : removing next = some x)
    (id : ActorId) : [next].countP (pending id) ≤ if x = id then 1 else 0 := by
  split_ifs with hx
  · exact List.countP_le_length
  · have hp : pending id next = false := by
      unfold pending
      rw [hnext]
      simp [hx]
    simp [hp]

/-! ## What a task adds -/

/-- The calls of `terminate()` once a task has led to this. -/
def weight (p : Progress N V) (id : ActorId) : Nat :=
  p.system.terminated.count id +
    (p.tasks.countP (pending id) + p.calls.flatten.countP (pending id))

/-- Every actor is terminated at once or once its name is unregistered. -/
theorem count_closeAll (named : ActorId → Bool) (ids : List ActorId) (id : ActorId) :
    (ids.filter fun x => !named x).count id +
      (ids.map fun x => if named x then [(.closeUnregistering x : Task N V)]
        else [.closeTerminating x]).flatten.countP (pending id) = ids.count id := by
  induction ids with
  | nil => rfl
  | cons x ids ih =>
      rw [List.map_cons, List.flatten_cons, List.countP_append, List.count_cons]
      cases hx : named x with
      | true =>
          have hone : [(.closeUnregistering x : Task N V)].countP (pending id) =
              if x == id then 1 else 0 := by
            simp [pending, removing, awaiting]
          rw [if_pos rfl, hone, List.filter_cons_of_neg (by simp [hx])]
          omega
      | false =>
          have hzero : [(.closeTerminating x : Task N V)].countP (pending id) = 0 := by
            simp [pending, awaiting]
          rw [if_neg Bool.false_ne_true, hzero, List.filter_cons_of_pos (by simp [hx]),
            List.count_cons]
          omega

section
variable [DecidableEq N] {callbacks : Callbacks N} {stringify : List V → String}
  {s s' : ActorSystem N V} {id : ActorId}

section
omit [DecidableEq N]

omit [DecidableEq N] in
/-- A task that has nothing to do with a removal. -/
theorem weight_idle {p : Progress N V} (hterminated : p.system.terminated = s.terminated)
    (htasks : ∀ task ∈ p.tasks, removing task = none)
    (hcalls : ∀ call ∈ p.calls, ∀ task ∈ call, removing task = none) (id : ActorId) :
    weight p id = s.terminated.count id := by
  have hflat : ∀ task ∈ p.calls.flatten, removing task = none := fun task htask => by
    obtain ⟨call, hcall, htask⟩ := List.mem_flatten.1 htask
    exact hcalls call hcall task htask
  unfold weight
  rw [hterminated, countP_idle htasks, countP_idle hflat]
  rfl

/-- A task that continues the removal of an instance or finds it. -/
theorem charged {task : Task N V} {x : ActorId} (htask : x ∈ found s task ∨ pending x task = true)
    {p : Progress N V} (hp : weight p id ≤ s.terminated.count id + if x = id then 1 else 0) :
    weight p id ≤ s.terminated.count id + [task].countP (pending id) ∨
      id ∈ found s task ∧ weight p id ≤ s.terminated.count id + 1 := by
  by_cases hx : x = id
  · subst hx
    rw [if_pos rfl] at hp
    rcases htask with hfound | hpending
    · exact .inr ⟨hfound, hp⟩
    · left
      rwa [List.countP_cons_of_pos hpending]
  · rw [if_neg hx] at hp
    exact .inl (hp.trans (Nat.le_add_right _ _))

theorem weight_announce (s : ActorSystem N V) (r : ActorRef N) (reason : TerminationReason)
    (next : Task N V) (id : ActorId) :
    weight (s.announce callbacks r reason next) id ≤
      s.terminated.count id + [next].countP (pending id) := by
  unfold ActorSystem.announce
  dsimp only
  split_ifs
  · exact Nat.add_le_add_left (Nat.zero_le _) _
  · show s.terminated.count id + ([_, next].countP (pending id) + 0) ≤ _
    rw [List.countP_cons_of_neg (by exact Bool.false_ne_true)]
    exact le_rfl

theorem weight_terminate (s : ActorSystem N V) (r : ActorRef N) (id : ActorId) :
    weight (s.terminate r) id = s.terminated.count id + if r.id = id then 1 else 0 := by
  have hawaits : [(.tree (.terminating r) : Task N V)].countP (pending id) = 0 := by
    simp [pending, awaiting]
  show (s.terminated ++ [r.id]).count id + ([_].countP (pending id) + 0) = _
  rw [hawaits, List.count_append]
  simp [List.count_singleton]

theorem weight_closeTerminate (s : ActorSystem N V) (x id : ActorId) :
    weight (s.closeTerminate x) id = s.terminated.count id + if x = id then 1 else 0 := by
  have hawaits : [(.closeTerminating x : Task N V)].countP (pending id) = 0 := by
    simp [pending, awaiting]
  show (s.terminated ++ [x]).count id + ([_].countP (pending id) + 0) = _
  rw [hawaits, List.count_append]
  simp [List.count_singleton]

theorem weight_closeAll (s : ActorSystem N V) (id : ActorId) :
    weight s.closeAll id = s.terminated.count id + (s.actors.sort (· ≤ ·)).count id := by
  show (s.terminated ++ _).count id + (0 + _) = _
  rw [List.count_append, Nat.zero_add, Nat.add_assoc]
  exact congrArg (s.terminated.count id + ·) (count_closeAll _ _ id)

end

/-- A task calls `terminate()` for the removal that it is part of, or begins one. -/
theorem weight_does {response : Response} {task : Task N V} {p : Progress N V}
    (h : Does callbacks s response task p) (id : ActorId) :
    weight p id ≤ s.terminated.count id + [task].countP (pending id) ∨
      id ∈ found s task ∧ weight p id ≤ s.terminated.count id + 1 := by
  have hidle : ∀ {p : Progress N V}, p.system.terminated = s.terminated →
      (∀ task ∈ p.tasks, removing task = none) →
      (∀ call ∈ p.calls, ∀ task ∈ call, removing task = none) →
      weight p id ≤ s.terminated.count id + [task].countP (pending id) := by
    intro p hterminated htasks hcalls
    rw [weight_idle hterminated htasks hcalls]
    exact Nat.le_add_right _ _
  have hnil : ∀ task ∈ ([] : List (Task N V)), removing task = none :=
    fun _ h => absurd h List.not_mem_nil
  have hnone : ∀ call ∈ ([] : List (List (Task N V))), ∀ task ∈ call, removing task = none :=
    fun _ h => absurd h List.not_mem_nil
  have hone : ∀ {task : Task N V}, removing task = none → ∀ task' ∈ [task], removing task' = none :=
    fun htask _ h => List.mem_singleton.1 h ▸ htask
  have hremoval : ∀ {r : ActorRef N} {rest : List (ActorRef N)},
      task = .tree (.stop r) ∧ r.id ∈ s.actors ∨ task = .tree (.children r rest) →
      r.id ∈ found s task ∨ pending r.id task = true := by
    intro r rest htask
    rcases htask with ⟨rfl, hr⟩ | rfl
    · exact .inl (Finset.mem_filter.2 ⟨hr, rfl⟩)
    · exact .inr (by simp [pending, removing, awaiting])
  cases h with
  | ends | removes => exact .inl (hidle rfl hnil hnone)
  | @descends _ r c rest htask =>
      refine charged (hremoval htask) ?_
      show s.terminated.count id +
        ([.tree (s.toTables.stopFrame c), .tree (.children r rest)].countP (pending id) + 0) ≤ _
      have hfirst := countP_idle (hone (fresh_stopFrame s.toTables c).1) id
      have hnext : [(.tree (.children r rest) : Task N V)].countP (pending id) ≤
          if r.id = id then 1 else 0 := countP_next rfl id
      rw [List.countP_cons] at hfirst ⊢
      simp only [List.countP_nil] at hfirst hnext
      omega
  | @leaves _ r htask =>
      refine charged (hremoval htask) ((weight_announce _ r _ _ id).trans ?_)
      exact Nat.add_le_add_left (countP_next rfl id) _
  | @leavesSingle r hr =>
      have hfound : r.id ∈ found s (.tree (.stopSingle r)) := Finset.mem_filter.2 ⟨hr, rfl⟩
      refine charged (.inl hfound) ?_
      exact Nat.add_le_add_left (countP_next rfl id) _
  | @unregisters r =>
      refine charged (x := r.id) (.inr (by simp [pending, removing, awaiting])) ?_
      exact Nat.add_le_add_left (countP_next rfl id) _
  | @terminates _ r htask =>
      refine charged (x := r.id) (.inr ?_) (weight_terminate s r id).le
      rcases htask with rfl | rfl <;> simp [pending, removing, awaiting]
  | frame hf =>
      refine .inl (hidle ?_
        (fun task htask => (fresh_resumeFrame s response hf task htask).1) hnone)
      unfold ActorSystem.resumeFrame ActorSystem.adopt
      dsimp only
      split_ifs <;> rfl
  | @crashed r _ _ hcrash =>
      cases hcrash with
      | announced supervisor childSupervisor reason exhausted =>
          refine .inl ((weight_announce _ r _ _ id).trans ?_)
          exact Nat.add_le_add_left (Nat.zero_le _) _
      | started _ _ htasks => exact .inl (hidle rfl (fun task htask => (htasks task htask).1) hnone)
  | told =>
      refine .inl ?_
      unfold ActorSystem.tellNext
      dsimp only
      split_ifs
      · exact hidle rfl hnil hnone
      · refine hidle rfl (hone rfl) fun call hcall task htask => ?_
        obtain ⟨crash, -, rfl⟩ := List.mem_map.1 hcall
        exact hone rfl task htask
  | stopsFor _ => exact .inl (hidle rfl (hone rfl) hnone)
  | migrated =>
      refine .inl ?_
      unfold ActorSystem.migrated
      dsimp only
      split_ifs <;> exact hidle rfl hnil hnone
  | closesAll =>
      rw [weight_closeAll]
      by_cases hid : id ∈ s.actors
      · refine .inr ⟨hid, ?_⟩
        exact Nat.add_le_add_left (List.nodup_iff_count_le_one.1 (Finset.sort_nodup ..) id) _
      · refine .inl (Nat.add_le_add_left ?_ _)
        rw [List.count_eq_zero_of_not_mem (by simpa using hid)]
        exact Nat.zero_le _
  | @closes x =>
      refine .inl ?_
      rw [weight_closeTerminate]
      refine Nat.add_le_add_left ?_ _
      simp [pending, removing, awaiting]

omit [DecidableEq N] in
theorem weight_drops {task : Task N V} {p : Progress N V} (h : Drops s task p) (id : ActorId) :
    weight p id ≤ s.terminated.count id + [task].countP (pending id) := by
  cases h with
  | @closes x =>
      rw [weight_closeTerminate]
      refine Nat.add_le_add_left ?_ _
      simp [pending, removing, awaiting]
  | _ => exact Nat.add_le_add_left (Nat.zero_le _) _

/-! ## Steps and runs -/

omit [DecidableEq N] in
theorem terminations_carryOn {index : Nat} {task : Task N V} {outer : List (Task N V)}
    {p : Progress N V} (hcall : s.calls[index]? = some (task :: outer))
    (hcalls : p.system.calls = s.calls) (id : ActorId) :
    terminations (ActorSystem.carryOn index outer p) id + [task].countP (pending id) ≤
      weight p id + s.calls.flatten.countP (pending id) := by
  obtain ⟨others, hbefore, hafter⟩ := tasks_carryOn hcall hcalls
  have hterminated : (ActorSystem.carryOn index outer p).terminated = p.system.terminated := rfl
  have hhead : (task :: outer).countP (pending id) =
      [task].countP (pending id) + outer.countP (pending id) := by
    rw [← List.countP_append, List.singleton_append]
  have hrest : (if p.threw then [] else p.tasks ++ outer).countP (pending id) ≤
      p.tasks.countP (pending id) + outer.countP (pending id) := by
    split_ifs
    · exact Nat.zero_le _
    · exact List.countP_append.le
  unfold terminations weight
  rw [hterminated, hbefore.countP_eq, hafter.countP_eq]
  simp only [List.countP_append]
  omega

theorem terminations_step (h : ∀ id, terminations s id ≤ 1) {a : SystemAction N V}
    (halone : Alone s a) (hst : s.step callbacks stringify a = some s') (id : ActorId) :
    terminations s' id ≤ 1 := by
  have hid := h id
  cases step_cases hst with
  | opens hopens =>
      obtain ⟨new, hcalls, hnew⟩ := hopens.calls
      have hidle : new.flatten.countP (pending id) = 0 := countP_idle (fun task htask => by
        obtain ⟨call, hcall, htask⟩ := List.mem_flatten.1 htask
        exact (hnew call hcall task htask).1) id
      unfold terminations at hid ⊢
      rw [hcalls, hopens.terminated, List.flatten_append, List.countP_append, hidle]
      exact hid
  | resumed hcall hdoes =>
      have hgoes := terminations_carryOn hcall (calls_does hdoes) id
      rcases weight_does hdoes id with hw | ⟨hfound, hw⟩
      · unfold terminations at hid
        omega
      · have hzero := terminations_of_not_begun
          (halone id (begins_resumes hcall .. ▸ hfound))
        unfold terminations at hzero
        omega
  | rejected hcall hdrops =>
      have hcalls := calls_drops hdrops
      have hgoes := terminations_carryOn hcall hcalls id
      have hw := weight_drops hdrops id
      unfold terminations at hid
      omega

/-- When no removal of an instance begins after another one has begun, `terminate()` is
called at most once. -/
theorem terminate_once {node : N} {childSupervision : ActorId → ChildSupervisionOptions}
    {supervisor : Supervisor} {as : List (SystemAction N V)}
    (halone : Along (ActorSystem.step callbacks stringify) Alone
      (.init node childSupervision supervisor) as)
    (hrun : run (ActorSystem.step callbacks stringify)
      (.init node childSupervision supervisor) as = some s) (id : ActorId) :
    s.terminated.count id ≤ 1 := by
  have hinit : ∀ id, terminations
      (.init node childSupervision supervisor : ActorSystem N V) id ≤ 1 := fun _ => Nat.zero_le _
  have hs := run_invariant (I := fun s => ∀ id, terminations s id ≤ 1)
    (fun _ _ _ h ha hst => terminations_step h ha hst) hinit halone hrun
  exact (Nat.le_add_right _ _).trans (hs id)

end

/-! ## Two stops of one actor -/

section

def silent : Callbacks Nat := ⟨fun _ _ => [], fun _ _ => false⟩

/-- A node that restarts nothing. -/
def node : ActorSystem Nat Nat :=
  .init 0 (fun _ => ⟨.oneForOne, 3, 1000⟩) (.new .Stop 3 1000)

def worker : ActorRef Nat := ⟨0, 0, none, 0⟩

/-- An actor is stopped, and is stopped again once it is gone. -/
def stoppedAgain : List (SystemAction Nat Nat) :=
  [.spawn "Worker" {}, .stop worker, .resumes 0 .success 0, .resumes 0 .success 0,
    .resumes 0 .success 0, .resumes 0 .success 0, .stop worker, .resumes 0 .success 0]

/-- An actor is stopped while its `terminate()` is awaited. -/
def stoppedTwice : List (SystemAction Nat Nat) :=
  [.spawn "Worker" {}, .stop worker, .resumes 0 .success 0, .resumes 0 .success 0,
    .resumes 0 .success 0, .stop worker, .resumes 1 .success 0, .resumes 1 .success 0,
    .resumes 1 .success 0]

theorem alone_stoppedAgain :
    Along (ActorSystem.step silent fun _ => "") Alone node stoppedAgain := by
  refine ⟨by decide, ?_⟩
  rintro _ ⟨⟩
  refine ⟨by decide, ?_⟩
  rintro _ ⟨⟩
  refine ⟨by decide, ?_⟩
  rintro _ ⟨⟩
  refine ⟨by decide, ?_⟩
  rintro _ ⟨⟩
  refine ⟨by decide, ?_⟩
  rintro _ ⟨⟩
  refine ⟨by decide, ?_⟩
  rintro _ ⟨⟩
  refine ⟨by decide, ?_⟩
  rintro _ ⟨⟩
  exact ⟨by decide, fun _ _ => trivial⟩

theorem terminate_once_stoppedAgain :
    ∃ s, run (ActorSystem.step silent fun _ => "") node stoppedAgain = some s ∧
      s.terminated.count 0 ≤ 1 := by
  obtain ⟨s, hrun⟩ : ∃ s, run (ActorSystem.step silent fun _ => "") node stoppedAgain = some s :=
    ⟨_, rfl⟩
  exact ⟨s, hrun, terminate_once alone_stoppedAgain hrun 0⟩

theorem terminated_twice :
    ∃ s, run (ActorSystem.step silent fun _ => "") node stoppedTwice = some s ∧
      s.terminated.count 0 = 2 := ⟨_, rfl, rfl⟩

end

end Libeam.Proofs.TerminateOnce
