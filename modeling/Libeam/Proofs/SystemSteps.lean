import Libeam.Monitoring.ActorSystem
import Libeam.Proofs.RestartFrames
/-!
# What a step of the actor system can do

Resuming a call replaces its first task and may begin other calls; all other calls
stay as they are.  A crash is counted, and then the actor is announced and stopped
or something is started again.
-/

namespace Libeam.Proofs.SystemSteps

open Libeam.System (ActorId)
open Monitoring Supervision
open TreeSteps (Resumes resumeFrame_cases)

variable {N V : Type}

/-! ## Calls -/

theorem perm_eraseIdx {α : Type} {xs : List α} {i : Nat} {x : α} (h : xs[i]? = some x) :
    xs.Perm (x :: xs.eraseIdx i) := by
  induction xs generalizing i with
  | nil => cases h
  | cons y ys ih =>
      cases i with
      | zero =>
          cases h
          exact .refl _
      | succ i => exact ((ih h).cons y).trans (.swap ..)

theorem perm_set {α : Type} {xs : List α} {i : Nat} {x : α} (h : xs[i]? = some x) (y : α) :
    (xs.set i y).Perm (y :: xs.eraseIdx i) := by
  induction xs generalizing i with
  | nil => cases h
  | cons z zs ih =>
      cases i with
      | zero => exact .refl _
      | succ i => exact ((ih h).cons z).trans (.swap ..)

/-- The tasks of all calls, before and after a call goes on. -/
theorem tasks_carryOn {s : ActorSystem N V} {index : Nat} {task : Task N V}
    {outer : List (Task N V)} {p : Progress N V} (h : s.calls[index]? = some (task :: outer))
    (hcalls : p.system.calls = s.calls) :
    ∃ others : List (Task N V), s.calls.flatten.Perm (task :: outer ++ others) ∧
      (ActorSystem.carryOn index outer p).calls.flatten.Perm
        ((if p.threw then [] else p.tasks ++ outer) ++ others ++ p.calls.flatten) := by
  refine ⟨(s.calls.eraseIdx index).flatten, (perm_eraseIdx h).flatten, ?_⟩
  unfold ActorSystem.carryOn
  rw [hcalls, List.flatten_append]
  refine List.Perm.append_right _ ?_
  split_ifs with hthrew hrest hrest
  · exact .refl _
  · exact absurd rfl hrest
  · rw [hrest]
    exact .refl _
  · exact (perm_set h _).flatten

theorem mem_carryOn {s : ActorSystem N V} {index : Nat} {outer : List (Task N V)}
    {p : Progress N V} (hcalls : p.system.calls = s.calls) {call : List (Task N V)}
    (hcall : call ∈ (ActorSystem.carryOn index outer p).calls) :
    p.threw = false ∧ call = p.tasks ++ outer ∨ call ∈ s.calls ∨ call ∈ p.calls := by
  unfold ActorSystem.carryOn at hcall
  rw [hcalls] at hcall
  rcases List.mem_append.1 hcall with hold | hnew
  · split_ifs at hold with hthrew hrest hrest
    · exact .inr (.inl (List.mem_of_mem_eraseIdx hold))
    · exact absurd rfl hrest
    · exact .inr (.inl (List.mem_of_mem_eraseIdx hold))
    · rcases List.mem_or_eq_of_mem_set hold with hold | heq
      · exact .inr (.inl hold)
      · exact .inl ⟨by simpa using hthrew, heq⟩
  · exact .inr (.inr hnew)

/-- The state but for the calls. -/
theorem carryOn_eq (index : Nat) (outer : List (Task N V)) (p : Progress N V) :
    ActorSystem.carryOn index outer p =
      { p.system with calls := (ActorSystem.carryOn index outer p).calls } := rfl

/-! ## Tables of parents and children -/

/-- At most one instance is new, and it has the next id. -/
structure Renews (t t' : Tables N V) : Prop where
  id : t'.id = t.id
  nextId : t.nextId ≤ t'.nextId
  actors : ∀ x ∈ t'.actors, x ∈ t.actors ∨ x = t.nextId ∧ t.nextId < t'.nextId
  detached : t.detached ⊆ t'.detached

theorem Renews.refl (t : Tables N V) : Renews t t :=
  ⟨rfl, le_rfl, fun _ hx => .inl hx, Finset.Subset.refl _⟩

theorem Renews.of_actors {t t' : Tables N V} (hid : t'.id = t.id)
    (hnext : t.nextId ≤ t'.nextId) (hactors : t'.actors = t.actors)
    (hdetached : t.detached ⊆ t'.detached) : Renews t t' :=
  ⟨hid, hnext, fun _ hx => .inl (hactors ▸ hx), hdetached⟩

theorem renews_register (t : Tables N V) (metadata : ActorMetadata N V)
    (first : Option ActorId) : Renews t (t.register metadata first) := by
  refine ⟨rfl, Nat.le_succ _, fun x hx => ?_, Finset.Subset.refl _⟩
  rcases Finset.mem_insert.1 hx with rfl | hx
  · exact .inr ⟨rfl, Nat.lt_succ_self _⟩
  · exact .inl hx

theorem renews_spawnChild (t : Tables N V) (parentRef : ActorRef N) (actorClass : String)
    (options : SpawnOptions V) (first : Option ActorId) :
    Renews t (t.spawnChild parentRef actorClass options first) := by
  unfold Tables.spawnChild
  split_ifs
  · have hrenews := renews_register t ⟨actorClass, options, some parentRef⟩ first
    exact ⟨hrenews.id, hrenews.nextId, hrenews.actors, hrenews.detached⟩
  · exact .refl t

variable [DecidableEq N]

theorem renews_detach (t : Tables N V) (actorRef : ActorRef N) :
    Renews t (t.detach actorRef) := by
  unfold Tables.detach
  dsimp only
  split
  · exact .of_actors rfl le_rfl rfl (Finset.subset_insert _ _)
  · split_ifs <;> exact .of_actors rfl le_rfl rfl (Finset.subset_insert _ _)

theorem renews_dropRemoteChild (t : Tables N V) (childRef parentRef : ActorRef N) :
    Renews t (t.dropRemoteChild childRef parentRef) := by
  unfold Tables.dropRemoteChild
  split_ifs <;> exact .of_actors rfl le_rfl rfl (Finset.Subset.refl _)

theorem renews_removeRemoteChild (t : Tables N V) (childInstanceId : ActorId)
    (parentRef : ActorRef N) : Renews t (t.removeRemoteChild childInstanceId parentRef) := by
  unfold Tables.removeRemoteChild
  split
  · exact .refl t
  · exact renews_dropRemoteChild t _ _

theorem renews_resumes {t tables : Tables N V} {response : Response} {f : Frame N V}
    {frames : List (Frame N V)} (h : Resumes t response f tables frames) : Renews t tables := by
  cases h with
  | leaves _ => exact renews_detach t _
  | removed _ =>
      exact ⟨rfl, le_rfl, fun x hx => .inl (Finset.mem_of_mem_erase hx), Finset.Subset.refl _⟩
  | spawned _ _ => exact renews_register t _ _
  | childSpawned _ _ _ => exact renews_spawnChild t _ _ _ _
  | dropped _ => exact renews_dropRemoteChild t _ _
  | replaced _ =>
      unfold Tables.replaceRemoteChild
      dsimp only
      split_ifs <;> exact .of_actors rfl (Nat.le_succ _) rfl (Finset.Subset.refl _)
  | added _ => exact .of_actors rfl (Nat.le_succ _) rfl (Finset.Subset.refl _)
  | ends | descends | unregistered | stops | requests | requestsStop => exact .refl t
  | forgot _ => exact .of_actors rfl le_rfl rfl (Finset.Subset.refl _)

/-! ## Tasks -/

/-- The instance that a task is removing, once it was found to be there. -/
def removing : Task N V → Option ActorId
  | .tree (.children r _) | .tree (.unregistering r) | .tree (.terminating r) => some r.id
  | .tree (.migrating id) => some id
  | .finish r => some r.id
  | .closeUnregistering id | .closeTerminating id => some id
  | _ => none

/-- The instance whose `terminate()` has been called and is awaited. -/
def awaiting : Task N V → Option ActorId
  | .tree (.terminating r) => some r.id
  | .closeTerminating id => some id
  | _ => none

/-- Nothing has been done for the task. -/
def Fresh (task : Task N V) : Prop :=
  removing task = none ∧ ∀ r reason rest, task ≠ .linked r reason rest

theorem fresh_stopFrame (t : Tables N V) (c : ActorRef N) :
    Fresh (.tree (t.stopFrame c) : Task N V) := by
  unfold Tables.stopFrame
  split_ifs <;> exact ⟨rfl, nofun⟩

omit [DecidableEq N] in
theorem fresh_restart (s : ActorSystem N V) (r : ActorRef N) :
    ∀ task ∈ s.restart r, Fresh task := by
  unfold ActorSystem.restart
  split
  · exact fun _ h => absurd h List.not_mem_nil
  · intro task htask
    rcases List.mem_cons.1 htask with rfl | htask
    · exact ⟨rfl, nofun⟩
    · rw [List.mem_singleton.1 htask]
      exact ⟨rfl, nofun⟩

omit [DecidableEq N] in
theorem fresh_strategyFor (s : ActorSystem N V) (c : ActorRef N) (p : ActorId) :
    ∀ task ∈ s.strategyFor c p, Fresh task := by
  unfold ActorSystem.strategyFor
  split
  · exact fresh_restart s c
  · intro task htask
    rw [List.mem_singleton.1 htask]
    exact ⟨rfl, nofun⟩
  · split
    · exact fun _ h => absurd h List.not_mem_nil
    · intro task htask
      rw [List.mem_singleton.1 htask]
      exact ⟨rfl, nofun⟩

theorem fresh_strategyForRemote (s : ActorSystem N V) (e : RemoteChildEntry N V) :
    ∀ task ∈ s.strategyForRemote e, Fresh task := by
  unfold ActorSystem.strategyForRemote
  dsimp only
  split
  · intro task htask
    rw [List.mem_singleton.1 htask]
    exact ⟨rfl, nofun⟩
  · intro task htask
    rw [List.mem_singleton.1 htask]
    exact ⟨rfl, nofun⟩
  · split
    · exact fun _ h => absurd h List.not_mem_nil
    · intro task htask
      rw [List.mem_singleton.1 htask]
      exact ⟨rfl, nofun⟩

/-- The frames that only concern parents and children. -/
def outside : Frame N V → Bool
  | .stop _ | .children _ _ | .stopSingle _ | .unregistering _ | .terminating _ => false
  | _ => true

/-! ## Resuming a task -/

section
variable {callbacks : Callbacks N} {stringify : List V → String}

/-- What becomes of a crash, once it has been counted. -/
inductive Crashes (callbacks : Callbacks N) (s : ActorSystem N V) (r : ActorRef N) :
    Progress N V → Prop
  | announced (supervisor childSupervisor) (reason : TerminationReason) (exhausted : Bool) :
      Crashes callbacks s r
        ({ s with supervisor := supervisor, childSupervisor := childSupervisor }.announce
          callbacks r reason (.stopFor r exhausted))
  | started (supervisor childSupervisor) {tasks} (htasks : ∀ task ∈ tasks, Fresh task) :
      Crashes callbacks s r
        ({ s with supervisor := supervisor, childSupervisor := childSupervisor }.proceed tasks)

omit [DecidableEq N] in
theorem crashes_handleCrash (s : ActorSystem N V) (r : ActorRef N) (error : String)
    (now : Nat) : Crashes callbacks s r (s.handleCrash callbacks stringify r error now) := by
  have hnone : Crashes callbacks s r (s.proceed []) :=
    .started s.supervisor s.childSupervisor fun _ h => absurd h List.not_mem_nil
  unfold ActorSystem.handleCrash
  split
  · unfold ActorSystem.handleChildCrash
    dsimp only
    split_ifs
    · exact .started s.supervisor _ (fresh_strategyFor s _ _)
    · exact .announced s.supervisor _ _ _
    · exact hnone
  · split_ifs
    · exact hnone
    · unfold ActorSystem.handleRootCrash
      dsimp only
      split_ifs
      · exact .announced _ s.childSupervisor _ _
      · split
        · exact .started _ s.childSupervisor (fresh_restart s r)
        · exact .announced _ s.childSupervisor _ _

/-- What resuming a task leads to. -/
inductive Does (callbacks : Callbacks N) (s : ActorSystem N V) (response : Response) :
    Task N V → Progress N V → Prop
  | ends {task} : Does callbacks s response task (s.proceed [])
  | descends {task r c rest}
      (htask : task = .tree (.stop r) ∧ r.id ∈ s.actors ∨
        task = .tree (.children r (c :: rest))) :
      Does callbacks s response task
        (s.proceed [.tree (s.toTables.stopFrame c), .tree (.children r rest)])
  | leaves {task r}
      (htask : task = .tree (.stop r) ∧ r.id ∈ s.actors ∨ task = .tree (.children r [])) :
      Does callbacks s response task (s.leave callbacks r)
  | leavesSingle {r} (hr : r.id ∈ s.actors) :
      Does callbacks s response (.tree (.stopSingle r)) (s.leaveSingle r)
  | unregisters {r} :
      Does callbacks s response (.finish r) (s.proceed [.tree (.unregistering r)])
  | terminates {task r} (htask : task = .finish r ∨ task = .tree (.unregistering r)) :
      Does callbacks s response task (s.terminate r)
  | removes {task id}
      (htask : (∃ r, task = .tree (.terminating r) ∧ r.id = id) ∨ task = .closeTerminating id) :
      Does callbacks s response task ((s.remove id).proceed [])
  | frame {f} (hf : outside f = true) :
      Does callbacks s response (.tree f) (s.resumeFrame response f)
  | crashed {r error p} (hp : Crashes callbacks s r p) :
      Does callbacks s response (.crash r error) p
  | told {r reason l rest} :
      Does callbacks s response (.linked r reason (l :: rest))
        (s.tellNext callbacks r reason (l :: rest))
  | stopsFor {r exhausted} (supervisor) :
      Does callbacks s response (.stopFor r exhausted)
        ({ s with supervisor := supervisor }.proceed [.tree (.stop r)])
  | migrated {id move} : Does callbacks s response (.migrate id move) (s.migrated callbacks id move)
  | closesAll : Does callbacks s response .closeAll s.closeAll
  | closes {id} : Does callbacks s response (.closeUnregistering id) (s.closeTerminate id)

theorem does_stopChildren {s : ActorSystem N V} {response : Response} {task : Task N V}
    {r : ActorRef N} {rest : List (ActorRef N)}
    (htask : task = .tree (.stop r) ∧ r.id ∈ s.actors ∨ task = .tree (.children r rest)) :
    Does callbacks s response task (s.stopChildren callbacks r rest) := by
  cases rest with
  | nil => exact .leaves htask
  | cons c rest => exact .descends htask

/-- Resuming a task is one of the cases. -/
theorem resumeTask_cases (s : ActorSystem N V) (response : Response) (now : Nat)
    (task : Task N V) :
    Does callbacks s response task (s.resumeTask callbacks stringify response now task) := by
  cases task with
  | tree f =>
      cases f with
      | stop r =>
          dsimp only [ActorSystem.resumeTask]
          split_ifs with hr
          · exact does_stopChildren (.inl ⟨rfl, hr⟩)
          · exact .ends
      | children r rest => exact does_stopChildren (.inr rfl)
      | stopSingle r =>
          dsimp only [ActorSystem.resumeTask]
          split_ifs with hr
          · exact .leavesSingle hr
          · exact .ends
      | unregistering r => exact .terminates (.inr rfl)
      | terminating r => exact .removes (.inl ⟨r, rfl, rfl⟩)
      | respawn x m =>
          dsimp only [ActorSystem.resumeTask]
          split_ifs
          · exact .ends
          · exact .frame rfl
      | strategy p stops remote plan =>
          cases stops with
          | nil =>
              dsimp only [ActorSystem.resumeTask]
              split_ifs
              · exact .ends
              · exact .frame rfl
          | cons c stops => exact .frame rfl
      | stopRemoteChild | stopRequest | restartRequest | spawnRequest | migrating =>
          exact .frame rfl
  | crash r error => exact .crashed (crashes_handleCrash s r error now)
  | linked r reason rest =>
      cases rest with
      | nil => exact .ends
      | cons l rest => exact .told
  | stopFor r exhausted => exact .stopsFor _
  | finish r =>
      dsimp only [ActorSystem.resumeTask, ActorSystem.finish]
      split_ifs
      · exact .unregisters
      · exact .terminates (.inl rfl)
  | migrate id move =>
      dsimp only [ActorSystem.resumeTask]
      split_ifs
      · exact .migrated
      · exact .ends
  | closeAll => exact .closesAll
  | closeUnregistering id => exact .closes
  | closeTerminating id => exact .removes (.inr rfl)

omit [DecidableEq N] in
/-- The tables of a round of notifications. -/
theorem toTables_announce (s : ActorSystem N V) (r : ActorRef N) (reason : TerminationReason)
    (next : Task N V) :
    (s.announce callbacks r reason next).system.toTables = s.toTables := by
  unfold ActorSystem.announce
  dsimp only
  split_ifs <;> rfl

/-- A task changes no call but its own, and closes nothing. -/
theorem fixed_does {s : ActorSystem N V} {response : Response} {task : Task N V}
    {p : Progress N V} (h : Does callbacks s response task p) :
    p.system.calls = s.calls ∧ p.system.closed = s.closed := by
  have hannounce : ∀ (s' : ActorSystem N V) (r : ActorRef N) (reason : TerminationReason)
      (next : Task N V), (s'.announce callbacks r reason next).system.calls = s'.calls ∧
        (s'.announce callbacks r reason next).system.closed = s'.closed := by
    intro s' r reason next
    unfold ActorSystem.announce
    dsimp only
    split_ifs <;> exact ⟨rfl, rfl⟩
  cases h with
  | leaves _ => exact hannounce _ _ _ _
  | crashed hcrash =>
      cases hcrash with
      | announced _ _ _ _ => exact hannounce _ _ _ _
      | started _ _ _ => exact ⟨rfl, rfl⟩
  | frame _ =>
      unfold ActorSystem.resumeFrame ActorSystem.adopt
      dsimp only
      split_ifs <;> exact ⟨rfl, rfl⟩
  | told =>
      unfold ActorSystem.tellNext
      dsimp only
      split_ifs <;> exact ⟨rfl, rfl⟩
  | migrated =>
      unfold ActorSystem.migrated
      dsimp only
      split_ifs <;> exact ⟨rfl, rfl⟩
  | ends | descends | leavesSingle | unregisters | terminates | removes | stopsFor | closesAll
  | closes => exact ⟨rfl, rfl⟩

theorem calls_does {s : ActorSystem N V} {response : Response} {task : Task N V}
    {p : Progress N V} (h : Does callbacks s response task p) : p.system.calls = s.calls :=
  (fixed_does h).1

/-- A frame that only concerns parents and children leads to others, for which nothing
has been done. -/
theorem fresh_resumeFrame (s : ActorSystem N V) (response : Response) {f : Frame N V}
    (hf : outside f = true) : ∀ task ∈ (s.resumeFrame response f).tasks, Fresh task := by
  intro task htask
  obtain ⟨g, hg, rfl⟩ := List.mem_map.1 htask
  have hresumes := resumeFrame_cases s.toTables response f
  generalize s.toTables.resumeFrame response f = result at hg hresumes
  rcases result with ⟨tables, frames⟩
  cases hresumes with
  | descends hfrom => rcases hfrom with ⟨rfl, -⟩ | rfl <;> cases hf
  | leaves hfrom => rcases hfrom with ⟨rfl, -⟩ | rfl | ⟨rfl, -⟩ <;> cases hf
  | unregistered => cases hf
  | childSpawned _ _ hfrom =>
      rcases hfrom with ⟨-, -, rfl⟩ | ⟨_, _, -, rfl⟩
      · cases hg
      · rw [List.mem_singleton.1 hg]
        exact ⟨rfl, nofun⟩
  | stops hgo =>
      rcases List.mem_cons.1 hg with rfl | hg
      · rcases hgo with rfl | rfl
        · exact ⟨rfl, nofun⟩
        · exact fresh_stopFrame _ _
      · rw [List.mem_singleton.1 hg]
        exact ⟨rfl, nofun⟩
  | requests _ =>
      rcases List.mem_cons.1 hg with rfl | hg
      · exact ⟨rfl, nofun⟩
      · rw [List.mem_singleton.1 hg]
        exact ⟨rfl, nofun⟩
  | requestsStop _ =>
      rw [List.mem_singleton.1 hg]
      exact ⟨rfl, nofun⟩
  | _ => cases hg

/-! ## Steps -/

/-- New calls begin, and none goes on; no instance leaves the tables. -/
structure Opens (s s' : ActorSystem N V) : Prop where
  calls : ∃ new, s'.calls = s.calls ++ new ∧ ∀ call ∈ new, ∀ task ∈ call, Fresh task
  terminated : s'.terminated = s.terminated
  unannounced : s'.unannounced = s.unannounced
  renews : Renews s.toTables s'.toTables
  actors : s.actors ⊆ s'.actors

namespace Opens

variable {s s' : ActorSystem N V}

section
omit [DecidableEq N]

theorem of_eq (hcalls : s'.calls = s.calls) (hterminated : s'.terminated = s.terminated)
    (hunannounced : s'.unannounced = s.unannounced) (htables : s'.toTables = s.toTables) :
    Opens s s' :=
  ⟨⟨[], by rw [hcalls, List.append_nil], fun _ h => absurd h List.not_mem_nil⟩, hterminated,
    hunannounced, htables ▸ .refl _, by rw [htables]⟩

theorem of_adopt {tables : Tables N V} (hrenews : Renews s.toTables tables)
    (hactors : s.actors ⊆ tables.actors) : Opens s (s.adopt tables) := by
  have hnil : ∀ call ∈ ([] : List (List (Task N V))), ∀ task ∈ call, Fresh task :=
    fun _ h => absurd h List.not_mem_nil
  unfold ActorSystem.adopt
  split_ifs
  · exact ⟨⟨[], (List.append_nil _).symm, hnil⟩, rfl, rfl, hrenews, hactors⟩
  · exact ⟨⟨[], (List.append_nil _).symm, hnil⟩, rfl, rfl, hrenews, hactors⟩

/-- A call begins. -/
theorem invoke (h : Opens s s') {tasks : List (Task N V)} (htasks : ∀ task ∈ tasks, Fresh task) :
    Opens s (s'.invoke tasks) := by
  obtain ⟨new, hcalls, hnew⟩ := h.calls
  refine ⟨?_, h.terminated, h.unannounced, h.renews, h.actors⟩
  unfold ActorSystem.invoke
  by_cases hnil : tasks = []
  · exact ⟨new, by simp [hnil, hcalls], hnew⟩
  · refine ⟨new ++ [tasks], by simp [hnil, hcalls], fun call hcall => ?_⟩
    rcases List.mem_append.1 hcall with hcall | hcall
    · exact hnew call hcall
    · rw [List.mem_singleton.1 hcall]
      exact htasks

theorem invokeOne (h : Opens s s') {task : Task N V} (htask : Fresh task) :
    Opens s (s'.invoke [task]) :=
  h.invoke fun _ hmem => List.mem_singleton.1 hmem ▸ htask

end

end Opens

/-- What becomes of a task when what it awaits is rejected. -/
inductive Drops (s : ActorSystem N V) : Task N V → Progress N V → Prop
  | unregistering {r} : Drops s (.tree (.unregistering r)) s.throws
  | terminating {r} : Drops s (.tree (.terminating r)) s.throws
  | linked {r reason rest} : Drops s (.linked r reason rest) s.throws
  | closes {id} : Drops s (.closeUnregistering id) (s.closeTerminate id)
  | removes {id} : Drops s (.closeTerminating id) ((s.remove id).proceed [])

omit [DecidableEq N] in
theorem calls_drops {s : ActorSystem N V} {task : Task N V} {p : Progress N V}
    (h : Drops s task p) : p.system.calls = s.calls := by
  cases h <;> rfl

/-- What a step leads to. -/
inductive Steps (callbacks : Callbacks N) (s : ActorSystem N V) :
    SystemAction N V → ActorSystem N V → Prop
  | opens {a s'} (h : Opens s s') : Steps callbacks s a s'
  | resumed {index response now task outer p} (hcall : s.calls[index]? = some (task :: outer))
      (hdoes : Does callbacks s response task p) :
      Steps callbacks s (.resumes index response now) (ActorSystem.carryOn index outer p)
  | rejected {index task outer p} (hcall : s.calls[index]? = some (task :: outer))
      (hdrops : Drops s task p) :
      Steps callbacks s (.rejects index) (ActorSystem.carryOn index outer p)

theorem resumes_cases {s s' : ActorSystem N V} {index : Nat} {response : Response} {now : Nat}
    (hst : s.resumes callbacks stringify index response now = some s') :
    ∃ task outer p, s.calls[index]? = some (task :: outer) ∧ Does callbacks s response task p ∧
      s' = ActorSystem.carryOn index outer p := by
  unfold ActorSystem.resumes at hst
  split at hst
  next task outer hcall =>
    cases hst
    exact ⟨task, outer, _, hcall, resumeTask_cases s response now task, rfl⟩
  next => cases hst

omit [DecidableEq N] in
theorem rejects_cases {s s' : ActorSystem N V} {index : Nat} (hst : s.rejects index = some s') :
    ∃ task outer p, s.calls[index]? = some (task :: outer) ∧ Drops s task p ∧
      s' = ActorSystem.carryOn index outer p := by
  unfold ActorSystem.rejects at hst
  split at hst
  next hcall => cases hst; exact ⟨_, _, _, hcall, .unregistering, rfl⟩
  next hcall => cases hst; exact ⟨_, _, _, hcall, .terminating, rfl⟩
  next hcall => cases hst; exact ⟨_, _, _, hcall, .linked, rfl⟩
  next hcall => cases hst; exact ⟨_, _, _, hcall, .closes, rfl⟩
  next hcall => cases hst; exact ⟨_, _, _, hcall, .removes, rfl⟩
  next => cases hst

theorem opens_handleRemoteChildCrash (s : ActorSystem N V) (x : ActorId) (now : Nat) :
    Opens s (s.handleRemoteChildCrash stringify x now) := by
  unfold ActorSystem.handleRemoteChildCrash
  split
  · exact .of_eq rfl rfl rfl rfl
  · have hcounted : ∀ childSupervisor, Opens s { s with childSupervisor := childSupervisor } :=
      fun _ => .of_eq rfl rfl rfl rfl
    dsimp only
    split_ifs
    · exact (hcounted _).invoke (fresh_strategyForRemote s _)
    · exact ⟨⟨[], (List.append_nil _).symm, fun _ h => absurd h List.not_mem_nil⟩, rfl, rfl,
        renews_removeRemoteChild s.toTables _ _,
        (RestartFrames.actors_removeRemoteChild (t := s.toTables) _ _).ge⟩
    · exact .of_eq rfl rfl rfl rfl

omit [DecidableEq N] in
theorem opens_sendExit (s : ActorSystem N V) (senderRef targetRef : ActorRef N)
    (reason : String) : Opens s (s.sendExit callbacks senderRef targetRef reason) := by
  have hs : Opens s s := .of_eq rfl rfl rfl rfl
  unfold ActorSystem.sendExit
  split_ifs
  · exact .of_eq rfl rfl rfl rfl
  · exact hs.invokeOne ⟨rfl, nofun⟩
  · exact .of_eq rfl rfl rfl rfl
  · exact hs.invokeOne ⟨rfl, nofun⟩

/-- A step is one of the cases. -/
theorem step_cases {s s' : ActorSystem N V} {a : SystemAction N V}
    (hst : s.step callbacks stringify a = some s') : Steps callbacks s a s' := by
  have hs : Opens s s := .of_eq rfl rfl rfl rfl
  have hsame : ∀ {a : SystemAction N V} {s' : ActorSystem N V}, s'.calls = s.calls →
      s'.terminated = s.terminated → s'.unannounced = s.unannounced →
      s'.toTables = s.toTables → Steps callbacks s a s' :=
    fun hcalls hterminated hunannounced htables =>
      .opens (.of_eq hcalls hterminated hunannounced htables)
  cases a with
  | spawn actorClass options =>
      simp only [ActorSystem.step] at hst
      split_ifs at hst <;> cases hst
      · exact hsame rfl rfl rfl rfl
      · exact .opens (.of_adopt (renews_register s.toTables _ none) (Finset.subset_insert _ _))
  | acceptChild actorClass options =>
      cases hst
      have hopens := Opens.of_adopt
        (renews_register s.toTables ⟨actorClass, options, none⟩ none) (Finset.subset_insert _ _)
      exact .opens ⟨hopens.calls, hopens.terminated, hopens.unannounced, hopens.renews,
        hopens.actors⟩
  | spawnChild p actorClass options =>
      simp only [ActorSystem.step] at hst
      split_ifs at hst <;> cases hst
      · exact hsame rfl rfl rfl rfl
      · refine .opens (.of_adopt (renews_spawnChild s.toTables _ _ _ none) ?_)
        unfold Tables.spawnChild
        split_ifs
        · exact Finset.subset_insert _ _
        · exact Finset.Subset.refl _
  | spawnChildRemote p actorClass node options =>
      simp only [ActorSystem.step] at hst
      split_ifs at hst <;> cases hst
      · exact hsame rfl rfl rfl rfl
      · exact .opens (hs.invokeOne ⟨rfl, nofun⟩)
  | mailbox | watch =>
      simp only [ActorSystem.step] at hst
      split_ifs at hst
      cases hst
      exact hsame rfl rfl rfl rfl
  | unlink l =>
      obtain ⟨ref, -, rfl⟩ := Option.map_eq_some_iff.1 hst
      exact hsame rfl rfl rfl rfl
  | stop | crash | migrate =>
      simp only [ActorSystem.step] at hst
      split_ifs at hst
      cases hst
      exact .opens (hs.invokeOne ⟨rfl, nofun⟩)
  | childStop r =>
      simp only [ActorSystem.step] at hst
      split_ifs at hst
      cases hst
      have hleft : Opens s { s with remoteParents := s.remoteParents.erase r.id } :=
        .of_eq rfl rfl rfl rfl
      exact .opens (hleft.invokeOne ⟨rfl, nofun⟩)
  | restart r =>
      simp only [ActorSystem.step] at hst
      split_ifs at hst
      cases hst
      exact .opens (hs.invoke (fresh_restart s r))
  | stopRemoteChild x =>
      cases hst
      exact .opens (hs.invokeOne ⟨rfl, nofun⟩)
  | restartRemoteChild x =>
      obtain ⟨e, -, rfl⟩ := Option.map_eq_some_iff.1 hst
      exact .opens (hs.invokeOne ⟨rfl, nofun⟩)
  | remoteCrash x now =>
      cases hst
      exact .opens (opens_handleRemoteChildCrash s x now)
  | sendExit senderRef targetRef reason =>
      cases hst
      exact .opens (opens_sendExit s senderRef targetRef reason)
  | shutdown =>
      simp only [ActorSystem.step] at hst
      split_ifs at hst <;> cases hst
      · exact hsame rfl rfl rfl rfl
      · have hbegun : Opens s { s with isShuttingDown := true } := .of_eq rfl rfl rfl rfl
        exact .opens (hbegun.invokeOne ⟨rfl, nofun⟩)
  | linkExit l id reason =>
      cases hst
      refine .opens ⟨⟨_, rfl, fun call hcall task htask => ?_⟩, rfl, rfl, .refl _,
        Finset.Subset.refl _⟩
      obtain ⟨crash, -, rfl⟩ := List.mem_map.1 hcall
      rw [List.mem_singleton.1 htask]
      exact ⟨rfl, nofun⟩
  | resumes index response now =>
      obtain ⟨task, outer, p, hcall, hdoes, rfl⟩ := resumes_cases hst
      exact .resumed hcall hdoes
  | rejects index =>
      obtain ⟨task, outer, p, hcall, hdrops, rfl⟩ := rejects_cases hst
      exact .rejected hcall hdrops
  | removeRemoteChild x p =>
      cases hst
      exact .opens ⟨⟨[], (List.append_nil _).symm, fun _ h => absurd h List.not_mem_nil⟩, rfl, rfl,
        renews_removeRemoteChild s.toTables x p,
        (RestartFrames.actors_removeRemoteChild (t := s.toTables) x p).ge⟩
  | _ =>
      cases hst
      exact hsame rfl rfl rfl rfl

/-! ## What every step keeps -/

theorem renews_does {s : ActorSystem N V} {response : Response} {task : Task N V}
    {p : Progress N V} (h : Does callbacks s response task p) :
    Renews s.toTables p.system.toTables := by
  have herase : ∀ (s : ActorSystem N V) (id : ActorId),
      Renews s.toTables (s.remove id).toTables := fun _ _ =>
    ⟨rfl, le_rfl, fun _ hx => .inl (Finset.mem_of_mem_erase hx), Finset.Subset.refl _⟩
  cases h with
  | leaves _ =>
      unfold ActorSystem.leave
      rw [toTables_announce]
      exact renews_detach s.toTables _
  | leavesSingle _ => exact renews_detach s.toTables _
  | removes _ => exact herase s _
  | @frame f _ =>
      have hrenews := renews_resumes (resumeFrame_cases s.toTables response f)
      unfold ActorSystem.resumeFrame ActorSystem.adopt
      dsimp only
      split_ifs <;> exact hrenews
  | crashed hcrash =>
      cases hcrash with
      | announced _ _ _ _ =>
          rw [toTables_announce]
          exact .refl _
      | started _ _ _ => exact .refl _
  | told =>
      unfold ActorSystem.tellNext
      dsimp only
      split_ifs <;> exact .refl _
  | migrated =>
      unfold ActorSystem.migrated
      dsimp only
      split_ifs
      · exact .refl _
      · exact .refl _
      · exact herase { s with toRelations := _ } _
  | _ => exact .refl _

theorem renews_step {s s' : ActorSystem N V} {a : SystemAction N V}
    (hst : s.step callbacks stringify a = some s') : Renews s.toTables s'.toTables := by
  cases step_cases hst with
  | opens hopens => exact hopens.renews
  | resumed _ hdoes => exact renews_does hdoes
  | rejected _ hdrops =>
      cases hdrops with
      | removes =>
          exact ⟨rfl, le_rfl, fun _ hx => .inl (Finset.mem_of_mem_erase hx),
            Finset.Subset.refl _⟩
      | _ => exact .refl _

omit [DecidableEq N] in
theorem unannounced_announce (s : ActorSystem N V) (r : ActorRef N) (reason : TerminationReason)
    (next : Task N V) :
    (s.announce callbacks r reason next).system.unannounced = s.unannounced := by
  unfold ActorSystem.announce
  dsimp only
  split_ifs <;> rfl

theorem unannounced_does {s : ActorSystem N V} {response : Response} {task : Task N V}
    {p : Progress N V} (h : Does callbacks s response task p) :
    s.unannounced ⊆ p.system.unannounced := by
  cases h with
  | leaves _ =>
      unfold ActorSystem.leave
      rw [unannounced_announce]
  | leavesSingle _ => exact Finset.subset_insert _ _
  | frame _ =>
      unfold ActorSystem.resumeFrame ActorSystem.adopt
      dsimp only
      split_ifs <;> exact Finset.Subset.refl _
  | crashed hcrash =>
      cases hcrash with
      | announced _ _ _ _ => rw [unannounced_announce]
      | started _ _ _ => exact Finset.Subset.refl _
  | told =>
      unfold ActorSystem.tellNext
      dsimp only
      split_ifs <;> exact Finset.Subset.refl _
  | migrated =>
      unfold ActorSystem.migrated
      dsimp only
      split_ifs <;> exact Finset.Subset.refl _
  | closesAll => exact Finset.subset_union_left
  | _ => exact Finset.Subset.refl _

theorem unannounced_step {s s' : ActorSystem N V} {a : SystemAction N V}
    (hst : s.step callbacks stringify a = some s') : s.unannounced ⊆ s'.unannounced := by
  cases step_cases hst with
  | opens hopens => exact hopens.unannounced.ge
  | resumed _ hdoes => exact unannounced_does hdoes
  | rejected _ hdrops => cases hdrops <;> exact Finset.Subset.refl _

end

end Libeam.Proofs.SystemSteps
