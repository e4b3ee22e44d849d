import Libeam.Proofs.ExecuteSteps
/-!
# What a failed `migrate:execute` leaves behind

The handler has two ways to answer that it failed: the exit for a reservation
that was not confirmed deletes the new instance, the `catch` block releases the
reservation and leaves the instance in the tables.
-/

namespace Libeam.Proofs.ExecuteFailure

open Libeam.System Registry Migration Lib.Transition Proofs.Frame HandlerStarts History HostSteps
open ExecuteSteps

variable {N V : Type}

/-! ## A target left as it was -/

/-- The tables as the rest of the node has made them during the actions: what
concerns the instance of the request is left out. -/
def others (own : Option ActorId) : Tables V → List (TargetAction N V) → Tables V
  | T, [] => T
  | T, .host a :: as => others own (if subject a = own then T else T.apply a) as
  | T, _ :: as => others own T as

/-- A handler of the new instance was invoked with a pending message. -/
def Handled (t : Target N V) : Prop :=
  ∃ msg ∈ t.injected, (t.instanceId, msg) ∈ t.host.system.started.drop t.injectedAt

/-- The instance that the handler installs, if it gets that far. -/
def installed (h : Host N V) (request : MigrateExecuteRequest N V)
    (constructorError : Option String) : Option ActorId :=
  if request.actorClassName ∈ h.actorClasses ∧ constructorError = none then
    some h.system.nextId
  else none

/-- Nothing of the request is left. -/
structure Clean (h : Host N V) (own : Option ActorId) (as : List (TargetAction N V))
    (u : Target N V) : Prop where
  tables : tables u.host = others own (tables h) as
  reservation : u.host.registry.reservations.find u.request.reservationId = none
  unhandled : ¬ Handled u

theorem others_cons_of_local (own : Option ActorId) (T : Tables V) {a : TargetAction N V}
    (as : List (TargetAction N V)) (ha : ∀ b, a ≠ .host b) :
    others own T (a :: as) = others own T as := by
  cases a with
  | host b => exact absurd rfl (ha b)
  | _ => rfl

theorem tables_inject (t : Target N V) : tables t.inject.host = tables t.host := by
  unfold Target.inject Node.injectMessages Target.setSystem
  dsimp only
  split_ifs
  · unfold Node.scheduleProcessMailbox
    split_ifs <;> rfl
  · rfl

theorem started_inject (t : Target N V) :
    t.inject.host.system.started = t.host.system.started := by
  unfold Target.inject Node.injectMessages Target.setSystem
  dsimp only
  split_ifs
  · unfold Node.scheduleProcessMailbox
    split_ifs <;> rfl
  · rfl

theorem nextId_inject (t : Target N V) :
    t.inject.host.system.nextId = t.host.system.nextId := by
  unfold Target.inject Node.injectMessages Target.setSystem
  dsimp only
  split_ifs
  · unfold Node.scheduleProcessMailbox
    split_ifs <;> rfl
  · rfl

theorem handled_append {t u : Target N V} (hid : u.instanceId = t.instanceId)
    (hinjected : u.injected = t.injected) (hat : u.injectedAt = t.injectedAt)
    (hrecorded : t.injectedAt ≤ t.host.system.started.length)
    {new : List (ActorId × StashedMessage V)}
    (hstarted : u.host.system.started = t.host.system.started ++ new) :
    Handled u ↔ Handled t ∨ ∃ msg ∈ t.injected, (t.instanceId, msg) ∈ new := by
  unfold Handled
  rw [hid, hinjected, hat, hstarted, List.drop_append_of_le_length hrecorded]
  simp only [List.mem_append, and_or_left, exists_or]

/-- The messages have only just been injected. -/
theorem not_handled_inject (t : Target N V) : ¬ Handled t.inject := by
  rintro ⟨msg, -, hmem⟩
  rw [started_inject] at hmem
  have hnil : t.host.system.started.drop t.inject.injectedAt = [] := List.drop_length
  rw [hnil] at hmem
  cases hmem

variable [LinearOrder N]

/-- The steps that the clean-up covers: user code does not fail, the registry
refuses the reservation, and no pending message is taken before that. -/
def Covered (t : Target N V) : TargetAction N V → Prop
  | .host (.node a) => ∀ msg ∈ t.injected, ¬ StartsHandler t.host.system t.instanceId msg a
  | .initDone now _ => t.host.migratable t.instanceId = true ∨ claimed t now = none
  | .stateSet now _ => claimed t now = none
  | .initFails _ => False
  | .stateFails _ => False
  | _ => True

/-- When a failed request leaves nothing behind. -/
def Meets (h : Host N V) (request : MigrateExecuteRequest N V)
    (constructorError : Option String) (as : List (TargetAction N V)) : Prop :=
  request.actorClassName ∉ h.actorClasses ∧
      h.registry.reservations.find request.reservationId = none ∨
    request.actorClassName ∈ h.actorClasses ∧ constructorError ≠ none ∨
    request.actorClassName ∈ h.actorClasses ∧ constructorError = none ∧
      Along Target.step Covered (.start h request constructorError) as

/-- No step is taken after the answer. -/
def Unanswered (t : Target N V) (_ : TargetAction N V) : Prop :=
  ∀ response, t.pc ≠ .answered response

/-- Nobody stops the new instance. -/
def Unstopped (t : Target N V) (a : TargetAction N V) : Prop :=
  a ≠ .host (.stop t.instanceId)

/-! ## The tables of the rest of the node -/

theorem tables_confirm (t : Target N V) (now : Nat) (publishError : Option String) :
    tables (t.confirm now publishError).host = tables t.host := by
  unfold Target.confirm
  dsimp only
  split <;> rfl

/-- The handler itself touches the tables of its own instance only. -/
theorem drop_step {t u : Target N V} {a : TargetAction N V} (hst : t.step a = some u)
    (as : List (TargetAction N V)) :
    others (some t.instanceId) ((tables t.host).drop t.instanceId) (a :: as) =
      others (some t.instanceId) ((tables u.host).drop t.instanceId) as := by
  cases target_steps hst with
  | host b h step eq =>
      subst eq
      rw [tables_step step, others]
      split_ifs with hsubject
      · rw [Tables.drop_apply_self _ hsubject]
      · rw [Tables.drop_apply _ hsubject]
  | sets _ _ _ _ eq | initFails _ _ eq | stateFails _ _ eq | rejected _ _ eq
  | released _ _ eq =>
      subst eq
      rfl
  | skipsState now publishError _ _ eq | stateSet now publishError _ eq =>
      rw [others_cons_of_local _ _ _ (by simp), eq, tables_confirm, tables_inject]
  | confirmed _ eq =>
      subst eq
      rw [others_cons_of_local _ _ _ (by simp)]
      congr 2
      simp only [Target.answer, Target.setSystem, Node.scheduleProcessMailbox]
      split_ifs <;> rfl
  | refused _ eq =>
      subst eq
      rw [others_cons_of_local _ _ _ (by simp)]
      exact congrArg (others _ · as) (Tables.drop_drop _ _).symm

theorem drop_run {t u : Target N V} {as : List (TargetAction N V)}
    (hrun : run Target.step t as = some u) :
    u.instanceId = t.instanceId ∧
      (tables u.host).drop t.instanceId =
        others (some t.instanceId) ((tables t.host).drop t.instanceId) as := by
  induction as generalizing t with
  | nil =>
      cases hrun
      exact ⟨rfl, rfl⟩
  | cons a as ih =>
      obtain ⟨v, hst, hrest⟩ := run_cons_eq_some.1 hrun
      have hid := instanceId_step hst
      obtain ⟨hid', htables⟩ := ih hrest
      rw [hid] at htables hid'
      exact ⟨hid', htables.trans (drop_step hst as).symm⟩

/-! ## Pending messages that are handled -/

/-- What a step of the node starts. -/
theorem started_host {h h' : Host N V} {a : HostAction N V} (hst : h.step a = some h') :
    ∃ new, h'.system.started = h.system.started ++ new ∧ ∀ id msg, (id, msg) ∈ new ↔
      ∃ b, a = .node b ∧ StartsHandler h.system id msg b := by
  rcases system_step hst with ⟨b, hb, hstep⟩ | ⟨hnone, hsame⟩
  · rcases starts_step hstep with ⟨id, msg, hstarts, hstarted⟩ | ⟨hnone, hstarted⟩
    · cases a with
      | node c =>
          cases hb
          refine ⟨_, hstarted, fun id' msg' => ?_⟩
          simp only [List.mem_singleton, Prod.mk.injEq, HostAction.node.injEq,
            exists_eq_left']
          constructor
          · rintro ⟨rfl, rfl⟩
            exact hstarts
          · exact fun hstarts' => starts_unique hstarts' hstarts
      | spawn | stop =>
          cases hb
          exact hstarts.elim
      | _ => cases hb
    · refine ⟨[], by rw [hstarted, List.append_nil], fun id msg => ⟨fun hmem => ?_, ?_⟩⟩
      · cases hmem
      · rintro ⟨c, rfl, hstarts⟩
        cases hb
        exact (hnone id msg hstarts).elim
  · refine ⟨[], by rw [hsame, List.append_nil], fun id msg => ⟨fun hmem => ?_, ?_⟩⟩
    · cases hmem
    · rintro ⟨b, rfl, -⟩
      cases hnone

/-! ## The invariant of the runs that clean up -/

/-- The counters that a run keeps in order. -/
structure Counted (t : Target N V) : Prop where
  made : t.request.reservationId < t.host.registry.reservations.nextId
  created : t.instanceId < t.host.system.nextId
  recorded : t.injectedAt ≤ t.host.system.started.length

/-- How far a run can get whose steps are all covered. -/
def OnCourse (t : Target N V) : ExecutePc → Prop
  | .initializing | .settingState => t.injected = []
  | .confirming (.ok false) =>
      t.host.registry.reservations.find t.request.reservationId = none
  | .answered _ =>
      t.host.registry.reservations.find t.request.reservationId = none ∧
        (tables t.host).Lacks t.instanceId
  | _ => False

structure Going (t : Target N V) : Prop where
  counted : Counted t
  course : OnCourse t t.pc
  unhandled : ¬ Handled t

/-- Something of the request will be left. -/
structure Broken (t : Target N V) : Prop where
  counted : Counted t
  late : t.pc ≠ .initializing ∧ t.pc ≠ .settingState
  left : Handled t ∨ t.pc ≠ .confirming (.ok false) ∧ t.instanceId ∈ t.host.system.actors

theorem nextId_host {h h' : Host N V} {a : HostAction N V} (hst : h.step a = some h') :
    h.system.nextId ≤ h'.system.nextId := by
  rcases system_step hst with ⟨b, -, hstep⟩ | ⟨-, hsame⟩
  · exact (logged_step hstep).nextId_le
  · rw [hsame]

theorem Counted.host {t : Target N V} (hcounted : Counted t) {a : HostAction N V}
    {h : Host N V} (hst : t.host.step a = some h) : Counted { t with host := h } := by
  obtain ⟨new, hstarted, -⟩ := started_host hst
  refine ⟨hcounted.made.trans_le (nextReservation_step hst),
    hcounted.created.trans_le (nextId_host hst), hcounted.recorded.trans ?_⟩
  rw [hstarted, List.length_append]
  exact Nat.le_add_right _ _

section
omit [LinearOrder N]

theorem Counted.inject {t : Target N V} (hcounted : Counted t) : Counted t.inject := by
  refine ⟨hcounted.made, ?_, ?_⟩
  · rw [nextId_inject]
    exact hcounted.created
  · rw [started_inject]
    exact Nat.le_refl _

theorem Counted.confirms {t u : Target N V} (hcounted : Counted t)
    {registry : DistributedRegistry N} {outcome : Except String Bool}
    (hconfirms : Confirms t u registry outcome) : Counted u := by
  obtain ⟨rfl, hnextId⟩ := hconfirms
  exact ⟨hcounted.made.trans_eq hnextId.symm, hcounted.created, hcounted.recorded⟩

theorem Counted.scheduleProcessMailbox {t : Target N V} (hcounted : Counted t)
    (id : ActorId) : Counted (t.setSystem (t.host.system.scheduleProcessMailbox id)) := by
  refine ⟨hcounted.made, hcounted.created.trans_eq ?_, hcounted.recorded.trans_eq ?_⟩
  · simp only [Target.setSystem, Node.scheduleProcessMailbox]
    split_ifs <;> rfl
  · simp only [Target.setSystem, Node.scheduleProcessMailbox]
    split_ifs <;> rfl

end

/-! ## Covered steps -/

/-- The messages that were pending before a confirmation are not taken yet. -/
theorem going_confirm {t : Target N V} (hcounted : Counted t) {now : Nat}
    (hclaimed : claimed t now = none) (publishError : Option String) :
    Going (t.inject.confirm now publishError) := by
  obtain ⟨registry, outcome, hconfirms, hrefused, -⟩ := confirms t.inject now publishError
  obtain ⟨rfl, hfind⟩ := hrefused hclaimed
  refine ⟨hcounted.inject.confirms hconfirms, ?_, ?_⟩
  · rw [hconfirms.eq]
    exact hfind
  · rw [hconfirms.eq]
    exact not_handled_inject t

theorem onCourse_host {t : Target N V} (hcounted : Counted t) {a : HostAction N V}
    {h : Host N V} (hst : t.host.step a = some h) {pc : ExecutePc}
    (hunanswered : ∀ response, pc ≠ .answered response) (hcourse : OnCourse t pc) :
    OnCourse { t with host := h } pc := by
  cases pc with
  | initializing | settingState => exact hcourse
  | confirming outcome =>
      match outcome with
      | .ok false => exact (Spent.step ⟨hcounted.made, hcourse⟩ hst).2
      | .ok true => exact hcourse.elim
      | .error error => exact hcourse.elim
  | releasing error => exact hcourse.elim
  | answered response => exact absurd rfl (hunanswered response)

theorem going_step {t u : Target N V} {a : TargetAction N V} (hgoing : Going t)
    (hunanswered : Unanswered t a) (hcovered : Covered t a) (hst : t.step a = some u) :
    Going u := by
  obtain ⟨hcounted, hcourse, hunhandled⟩ := hgoing
  cases target_steps hst with
  | host b h step eq =>
      subst eq
      refine ⟨hcounted.host step, ?_, ?_⟩
      · exact onCourse_host hcounted step hunanswered hcourse
      · obtain ⟨new, hstarted, hnew⟩ := started_host step
        rw [handled_append (t := t) (u := { t with host := h }) rfl rfl rfl
          hcounted.recorded hstarted]
        rintro (hhandled | ⟨msg, hmem, hstart⟩)
        · exact hunhandled hhandled
        · obtain ⟨c, rfl, hstarts⟩ := (hnew _ _).1 hstart
          exact hcovered msg hmem hstarts
  | sets now publishError pc migratable eq =>
      subst eq
      rw [pc] at hcourse
      exact ⟨⟨hcounted.made, hcounted.created, hcounted.recorded⟩, hcourse, hunhandled⟩
  | skipsState now publishError pc migratable eq =>
      subst eq
      refine going_confirm hcounted (hcovered.resolve_left ?_) publishError
      rw [migratable]
      exact Bool.false_ne_true
  | stateSet now publishError pc eq =>
      subst eq
      exact going_confirm hcounted hcovered publishError
  | initFails | stateFails => exact hcovered.elim
  | confirmed pc | rejected _ pc | released _ pc =>
      rw [pc] at hcourse
      exact hcourse.elim
  | refused pc eq =>
      subst eq
      rw [pc] at hcourse
      exact ⟨⟨hcounted.made, hcounted.created, hcounted.recorded⟩,
        ⟨hcourse, Tables.drop_lacks (tables t.host) t.instanceId⟩, hunhandled⟩

/-! ## Steps that are not covered -/

/-- Until the answer the instance is in the tables. -/
def Present (t : Target N V) : Prop :=
  (∀ response, t.pc ≠ .answered response) → t.instanceId ∈ t.host.system.actors

theorem actors_host {t : Target N V} {a : HostAction N V} {h : Host N V}
    (hst : t.host.step a = some h) (hunstopped : a ≠ .stop t.instanceId)
    (hmem : t.instanceId ∈ t.host.system.actors) : t.instanceId ∈ h.system.actors := by
  have htables : h.system.actors = ((tables t.host).apply a).actors :=
    congrArg Tables.actors (tables_step hst)
  rw [htables]
  cases a with
  | spawn id config initThrows metadata => exact Finset.mem_insert_of_mem hmem
  | stop id =>
      refine Finset.mem_erase.2 ⟨fun heq => hunstopped ?_, hmem⟩
      rw [heq]
  | _ => exact hmem

theorem Present.step {t u : Target N V} {a : TargetAction N V} (hpresent : Present t)
    (hunanswered : Unanswered t a) (hunstopped : Unstopped t a) (hst : t.step a = some u) :
    Present u := by
  have hmem := hpresent hunanswered
  have hkeeps : ∀ {T : Tables V}, tables t.host = T → t.instanceId ∈ T.actors :=
    fun htables => htables ▸ hmem
  intro hopen
  rw [instanceId_step hst]
  cases target_steps hst with
  | host b h step eq =>
      subst eq
      exact actors_host step (fun heq => hunstopped (congrArg _ heq)) hmem
  | skipsState now publishError _ _ eq | stateSet now publishError _ eq =>
      subst eq
      exact hkeeps ((tables_confirm t.inject now publishError).trans (tables_inject t)).symm
  | sets _ _ _ _ eq | initFails _ _ eq | stateFails _ _ eq | rejected _ _ eq =>
      subst eq
      exact hmem
  | confirmed _ eq | refused _ eq | released _ _ eq =>
      subst eq
      exact absurd rfl (hopen _)

theorem Broken.step {t u : Target N V} {a : TargetAction N V} (hbroken : Broken t)
    (hunstopped : Unstopped t a) (hst : t.step a = some u) : Broken u := by
  obtain ⟨hcounted, hlate, hleft⟩ := hbroken
  cases target_steps hst with
  | host b h step eq =>
      subst eq
      refine ⟨hcounted.host step, hlate, ?_⟩
      rcases hleft with hhandled | ⟨hpc, hmem⟩
      · obtain ⟨new, hstarted, -⟩ := started_host step
        exact .inl ((handled_append (t := t) (u := { t with host := h }) rfl rfl rfl
          hcounted.recorded hstarted).2 (.inl hhandled))
      · exact .inr ⟨hpc, actors_host (t := t) step (fun heq => hunstopped (congrArg _ heq)) hmem⟩
  | sets _ _ pc | skipsState _ _ pc | initFails _ pc => exact absurd pc hlate.1
  | stateSet _ _ pc | stateFails _ pc => exact absurd pc hlate.2
  | confirmed pc eq =>
      subst eq
      have hscheduled := hcounted.scheduleProcessMailbox t.instanceId
      refine ⟨⟨hscheduled.made, hscheduled.created, hscheduled.recorded⟩,
        by simp [Target.answer], ?_⟩
      have hpassive := (Passive.refl t.host.system).scheduleProcessMailbox t.instanceId
      have hactors : (t.host.system.scheduleProcessMailbox t.instanceId).actors =
          t.host.system.actors := congrArg Log.actors (log_scheduleProcessMailbox _ _)
      refine hleft.imp (fun hhandled => ?_) fun h => ⟨by simp [Target.answer], ?_⟩
      · unfold Handled at hhandled ⊢
        exact hpassive.started.symm ▸ hhandled
      · exact hactors.symm ▸ h.2
  | refused pc eq =>
      subst eq
      refine ⟨⟨hcounted.made, hcounted.created, hcounted.recorded⟩,
        by simp [Target.answer], ?_⟩
      exact .inl (hleft.resolve_right fun h => h.1 pc)
  | rejected error pc eq =>
      subst eq
      refine ⟨⟨hcounted.made, hcounted.created, hcounted.recorded⟩, by simp [Target.fail], ?_⟩
      exact hleft.imp id fun h => ⟨by simp [Target.fail], h.2⟩
  | released error pc eq =>
      subst eq
      refine ⟨⟨hcounted.made, hcounted.created, hcounted.recorded⟩,
        by simp [Target.answer], ?_⟩
      exact hleft.imp id fun h => ⟨by simp [Target.answer], h.2⟩

/-- A step from the good course that the clean-up does not cover. -/
theorem breaks_step {t u : Target N V} {a : TargetAction N V} (hgoing : Going t)
    (hpresent : Present t) (hunanswered : Unanswered t a) (hunstopped : Unstopped t a)
    (huncovered : ¬ Covered t a) (hst : t.step a = some u) : Broken u := by
  have hmem := hpresent hunanswered
  obtain ⟨hcounted, hcourse, hunhandled⟩ := hgoing
  have hconfirm : ∀ {now} (publishError), claimed t now ≠ none →
      Broken (t.inject.confirm now publishError) := by
    intro now publishError hclaimed
    obtain ⟨registry, outcome, hconfirms, -, hgranted⟩ := confirms t.inject now publishError
    have houtcome := hgranted hclaimed
    refine ⟨hcounted.inject.confirms hconfirms, ?_, .inr ⟨?_, ?_⟩⟩
    · simp [hconfirms.eq]
    · simpa [hconfirms.eq] using houtcome
    · have hactors : t.inject.host.system.actors = t.host.system.actors :=
        congrArg Tables.actors (tables_inject t)
      rw [hconfirms.eq]
      exact hactors.symm ▸ hmem
  cases target_steps hst with
  | host b h step eq =>
      cases b with
      | node c =>
          subst eq
          simp only [Covered, not_forall, not_not] at huncovered
          obtain ⟨msg, hinjected, hstarts⟩ := huncovered
          obtain ⟨new, hstarted, hnew⟩ := started_host step
          have hhandled : Handled { t with host := h } :=
            (handled_append (t := t) (u := { t with host := h }) rfl rfl rfl
              hcounted.recorded hstarted).2 (.inr ⟨msg, hinjected, (hnew _ _).2 ⟨c, rfl, hstarts⟩⟩)
          have hnil : t.pc = .initializing ∨ t.pc = .settingState → t.injected = [] := by
            rintro (hpc | hpc) <;> exact (congrArg (OnCourse t) hpc).mp hcourse
          refine ⟨hcounted.host step, not_or.1 fun hearly => ?_, .inl hhandled⟩
          rw [hnil hearly] at hinjected
          cases hinjected
      | _ => exact absurd trivial huncovered
  | sets now publishError pc migratable eq => exact absurd (.inl migratable) huncovered
  | skipsState now publishError pc migratable eq =>
      subst eq
      exact hconfirm publishError fun hnone => huncovered (.inr hnone)
  | stateSet now publishError pc eq =>
      subst eq
      exact hconfirm publishError huncovered
  | initFails error pc eq | stateFails error pc eq =>
      subst eq
      exact ⟨⟨hcounted.made, hcounted.created, hcounted.recorded⟩, by simp [Target.fail],
        .inr ⟨by simp [Target.fail], hmem⟩⟩
  | confirmed | refused | rejected | released => exact absurd trivial huncovered

/-! ## Whole runs -/

/-- The request names a reservation that was once made here, and the next id is
not in use. -/
structure Receives (h : Host N V) (request : MigrateExecuteRequest N V) : Prop where
  unused : (tables h).Lacks h.system.nextId
  made : request.reservationId < h.registry.reservations.nextId

section
variable {h : Host N V} {request : MigrateExecuteRequest N V} {u : Target N V}
  {as : List (TargetAction N V)}

/-- The class is missing: the handler answers at once. -/
theorem clean_missing (hclass : request.actorClassName ∉ h.actorClasses)
    {constructorError : Option String}
    (hopen : Along Target.step Unanswered (.start h request constructorError) as)
    (hrun : run Target.step (.start h request constructorError) as = some u) :
    Clean h none as u ↔ h.registry.reservations.find request.reservationId = none := by
  unfold Target.start at hopen hrun
  rw [if_pos hclass] at hopen hrun
  cases as with
  | nil =>
      cases hrun
      refine ⟨Clean.reservation, fun hfind => ⟨rfl, hfind, ?_⟩⟩
      rintro ⟨msg, hmem, -⟩
      cases hmem
  | cons a as => exact absurd rfl (hopen.1 _)

/-- In the `catch` block, or past it, without an instance. -/
structure Failing (t : Target N V) : Prop where
  pc : (∃ error, t.pc = .releasing error) ∨ ∃ response, t.pc = .answered response
  injected : t.injected = []
  spent : Spent t.host.registry.reservations t.request.reservationId

theorem failing_step {t : Target N V} {a : TargetAction N V} (hfailing : Failing t)
    (hst : t.step a = some u) (as : List (TargetAction N V)) :
    Failing u ∧ others none (tables t.host) (a :: as) = others none (tables u.host) as := by
  obtain ⟨hpc, hinjected, hspent⟩ := hfailing
  have hpast : ∀ {pc : ExecutePc}, t.pc = pc → (∀ error, pc ≠ .releasing error) →
      (∀ response, pc ≠ .answered response) → False := by
    rintro pc rfl hreleasing hanswered
    rcases hpc with ⟨error, hpc⟩ | ⟨response, hpc⟩
    · exact hreleasing error hpc
    · exact hanswered response hpc
  cases target_steps hst with
  | host b h step eq =>
      subst eq
      refine ⟨⟨hpc, hinjected, hspent.step step⟩, ?_⟩
      rw [others, tables_step step]
      split_ifs with hsubject
      · rw [Tables.apply_of_subject_none _ hsubject]
      · rfl
  | released error pc eq =>
      subst eq
      exact ⟨⟨.inr ⟨_, rfl⟩, hinjected, hspent⟩, rfl⟩
  | sets _ _ pc | skipsState _ _ pc | stateSet _ _ pc | initFails _ pc | stateFails _ pc
  | confirmed pc | refused pc | rejected _ pc => exact (hpast pc (by simp) (by simp)).elim

theorem failing_run {t : Target N V} (hfailing : Failing t)
    (hrun : run Target.step t as = some u) :
    Failing u ∧ tables u.host = others none (tables t.host) as := by
  induction as generalizing t with
  | nil =>
      cases hrun
      exact ⟨hfailing, rfl⟩
  | cons a as ih =>
      obtain ⟨v, hst, hrest⟩ := run_cons_eq_some.1 hrun
      obtain ⟨hv, htables⟩ := failing_step hfailing hst as
      obtain ⟨hu, htables'⟩ := ih hv hrest
      exact ⟨hu, htables'.trans htables.symm⟩

/-- The constructor throws: only the reservation has to go. -/
theorem clean_throws (hreceives : Receives h request)
    (hclass : request.actorClassName ∈ h.actorClasses) {error : String}
    (hrun : run Target.step (.start h request (some error)) as = some u) :
    Clean h none as u := by
  unfold Target.start at hrun
  rw [if_neg (not_not.2 hclass)] at hrun
  dsimp only at hrun
  have hfailing : Failing (Target.fail
      { host := h, request := request, instanceId := h.system.nextId, pc := .initializing,
        injected := [], injectedAt := 0 } error) :=
    ⟨.inl ⟨error, rfl⟩, rfl, hreceives.made, find_delete_self _ _⟩
  obtain ⟨⟨-, hinjected, hspent⟩, htables⟩ := failing_run hfailing hrun
  refine ⟨htables, hspent.2, ?_⟩
  rintro ⟨msg, hmem, -⟩
  rw [hinjected] at hmem
  cases hmem

omit [LinearOrder N] in
/-- The new instance is in the tables and `init` has been invoked. -/
theorem going_start (hreceives : Receives h request)
    (hclass : request.actorClassName ∈ h.actorClasses) :
    Going (.start h request none) ∧ Present (.start h request none) ∧
      (Target.start h request none).instanceId = h.system.nextId ∧
      (tables (Target.start h request none).host).drop h.system.nextId = tables h := by
  unfold Target.start
  rw [if_neg (not_not.2 hclass)]
  refine ⟨⟨⟨hreceives.made, Nat.lt_succ_self _, Nat.zero_le _⟩, rfl, ?_⟩, fun _ => ?_, rfl, ?_⟩
  · rintro ⟨msg, hmem, -⟩
    cases hmem
  · exact Finset.mem_insert_self _ _
  · exact (Tables.drop_add_self (tables h) _ _).trans hreceives.unused.drop_eq

theorem clean_of_covered (hreceives : Receives h request)
    (hclass : request.actorClassName ∈ h.actorClasses)
    (hrun : run Target.step (.start h request none) as = some u)
    (hopen : Along Target.step Unanswered (.start h request none) as)
    {response : MigrateExecuteResponse} (hanswered : u.pc = .answered response)
    (hcovered : Along Target.step Covered (.start h request none) as) :
    Clean h (some h.system.nextId) as u := by
  obtain ⟨hgoing, -, hid, htables⟩ := going_start hreceives hclass
  obtain ⟨-, hcourse, hunhandled⟩ :=
    run_invariant (fun _ _ _ h hG hst => going_step h hG.1 hG.2 hst) hgoing
      (hopen.and hcovered) hrun
  obtain ⟨hid', hdrop⟩ := drop_run hrun
  rw [hanswered] at hcourse
  rw [hid, htables] at hdrop
  refine ⟨?_, hcourse.1, hunhandled⟩
  rw [← hdrop, ← hid, ← hid', hcourse.2.drop_eq]

theorem covered_of_clean (hreceives : Receives h request)
    (hclass : request.actorClassName ∈ h.actorClasses)
    (hrun : run Target.step (.start h request none) as = some u)
    (hopen : Along Target.step Unanswered (.start h request none) as)
    (hunstopped : ∀ a ∈ as, a ≠ .host (.stop h.system.nextId))
    (hclean : Clean h (some h.system.nextId) as u) :
    Along Target.step Covered (.start h request none) as := by
  obtain ⟨hgoing, hpresent, hid, htables⟩ := going_start hreceives hclass
  have hguard := hopen.and (along_of_forall_mem hunstopped (Target.start h request none))
  obtain ⟨hcovered, -⟩ | ⟨-, hbroken, -⟩ :=
    along_or_broken (G := Covered)
      (I := fun t => (Going t ∧ Present t) ∧ t.instanceId = h.system.nextId)
      (B := fun t => Broken t ∧ t.instanceId = h.system.nextId)
      (fun t a v ht ha hcovered hst =>
        ⟨⟨going_step ht.1.1 ha.1 hcovered hst,
          ht.1.2.step ha.1 (by rw [Unstopped, ht.2]; exact ha.2) hst⟩,
          (instanceId_step hst).trans ht.2⟩)
      (fun t a v ht ha huncovered hst =>
        ⟨breaks_step ht.1.1 ht.1.2 ha.1 (by rw [Unstopped, ht.2]; exact ha.2) huncovered hst,
          (instanceId_step hst).trans ht.2⟩)
      (fun t a v ht ha hst =>
        ⟨ht.1.step (by rw [Unstopped, ht.2]; exact ha.2) hst,
          (instanceId_step hst).trans ht.2⟩)
      ⟨⟨hgoing, hpresent⟩, hid⟩ hguard hrun
  · exact hcovered
  · obtain ⟨hid', hdrop⟩ := drop_run hrun
    rw [hid, htables] at hdrop
    rcases hbroken.left with hhandled | ⟨-, hmem⟩
    · exact absurd hhandled hclean.unhandled
    · have heq : tables u.host = (tables u.host).drop h.system.nextId :=
        hclean.tables.trans hdrop.symm
      have hgone := (Tables.drop_lacks (tables u.host) h.system.nextId).actors
      rw [← heq, ← hid, ← hid'] at hgone
      exact absurd hmem hgone

/-- A failed `migrate:execute` leaves the target as it was when the class is
missing and there is no reservation, when the constructor throws, and when user
code goes through and the registry refuses the reservation before a pending
message is taken; otherwise it does not, unless the instance is stopped by
somebody else. -/
theorem failed_execute_clean_iff {constructorError : Option String}
    {response : MigrateExecuteResponse} (hreceives : Receives h request)
    (hrun : run Target.step (.start h request constructorError) as = some u)
    (hopen : Along Target.step Unanswered (.start h request constructorError) as)
    (hanswered : u.pc = .answered response) :
    (Meets h request constructorError as →
      Clean h (installed h request constructorError) as u) ∧
    ((∀ a ∈ as, a ≠ .host (.stop h.system.nextId)) →
      Clean h (installed h request constructorError) as u →
        Meets h request constructorError as) := by
  unfold installed Meets
  by_cases hclass : request.actorClassName ∈ h.actorClasses
  · cases constructorError with
    | none =>
        rw [if_pos ⟨hclass, rfl⟩]
        constructor
        · rintro (⟨hmissing, -⟩ | ⟨-, hthrows⟩ | ⟨-, -, hcovered⟩)
          · exact absurd hclass hmissing
          · exact absurd rfl hthrows
          · exact clean_of_covered hreceives hclass hrun hopen hanswered hcovered
        · intro hunstopped hclean
          exact .inr (.inr ⟨hclass, rfl,
            covered_of_clean hreceives hclass hrun hopen hunstopped hclean⟩)
    | some error =>
        rw [if_neg (by simp)]
        exact ⟨fun _ => clean_throws hreceives hclass hrun,
          fun _ _ => .inr (.inl ⟨hclass, by simp⟩)⟩
  · rw [if_neg (fun h => hclass h.1)]
    have hiff := clean_missing hclass hopen hrun
    constructor
    · rintro (⟨-, hfind⟩ | ⟨hclass', -⟩ | ⟨hclass', -⟩)
      · exact hiff.2 hfind
      · exact absurd hclass' hclass
      · exact absurd hclass' hclass
    · exact fun _ hclean => .inl ⟨hclass, hiff.1 hclean⟩

end

/-- A node with a reservation for the actor it is to receive. -/
def reservedHost : Host Nat Nat :=
  let target : Host Nat Nat := .new 1 {"Counter"}
  { target with registry := (target.registry.reserveName "counter" 1 20).1 }

def counterRequest : MigrateExecuteRequest Nat Nat :=
  { reservationId := 0, actorName := "counter", actorClassName := "Counter",
    sourceNodeId := 0, state := 7, initArgs := [], pendingMessages := [⟨.cast, 3⟩] }

theorem receives_reservedHost : Receives reservedHost counterRequest where
  unused := ⟨by decide, by decide, rfl, fun _ hmem => absurd hmem (Finset.notMem_empty _)⟩
  made := by decide

/-- When `init` fails, the new instance stays in the tables. -/
theorem failed_init_leaves_instance :
    ∃ u, run Target.step (.start reservedHost counterRequest none)
        [.initFails "boom", .released] = some u ∧
      u.pc = .answered { success := false, error := some "boom" } ∧
      ¬ Clean reservedHost (installed reservedHost counterRequest none)
        [.initFails "boom", .released] u := by
  refine ⟨_, rfl, rfl, fun hclean => ?_⟩
  have hactors := congrArg Tables.actors hclean.tables
  exact absurd hactors (by decide)

/-- The reservation is released before it is confirmed. -/
theorem failed_execute_clean_released :
    ∃ u, run Target.step (.start reservedHost counterRequest none)
        [.host (.releaseReservation 0), .initDone 30 none, .stateSet 40 none,
          .confirmSettles] = some u ∧
      Clean reservedHost (installed reservedHost counterRequest none)
        [.host (.releaseReservation 0), .initDone 30 none, .stateSet 40 none,
          .confirmSettles] u := by
  refine ⟨_, rfl, ?_⟩
  have hopen : Along Target.step Unanswered (.start reservedHost counterRequest none)
      [.host (.releaseReservation 0), .initDone 30 none, .stateSet 40 none,
        .confirmSettles] := by
    refine ⟨fun _ => nofun, ?_⟩
    rintro _ ⟨⟩
    refine ⟨fun _ => nofun, ?_⟩
    rintro _ ⟨⟩
    refine ⟨fun _ => nofun, ?_⟩
    rintro _ ⟨⟩
    exact ⟨fun _ => nofun, fun _ _ => trivial⟩
  refine (failed_execute_clean_iff receives_reservedHost rfl hopen rfl).1
    (.inr (.inr ⟨by decide, rfl, trivial, ?_⟩))
  rintro _ ⟨⟩
  refine ⟨.inl rfl, ?_⟩
  rintro _ ⟨⟩
  refine ⟨rfl, ?_⟩
  rintro _ ⟨⟩
  exact ⟨trivial, fun _ _ => trivial⟩

end Libeam.Proofs.ExecuteFailure
