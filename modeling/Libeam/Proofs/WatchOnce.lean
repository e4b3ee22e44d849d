import Libeam.Proofs.WatchDelivery
import Libeam.Proofs.SystemSound
/-!
# Watchers are told once

A watch is made while the watched actor is there and nobody has begun to terminate
it.  As long as the watch has its entry, no removal of the actor is past its
notifications, but for restarts and shutdown, which tell no watcher.  So when the
actor is gone, the entry is gone, and the watcher has been told.
-/

namespace Libeam.Proofs.WatchOnce

open Libeam.System (ActorId Supervisor)
open Monitoring Supervision Lib.Transition WatchTables SystemSteps SystemSound WatchDelivery

variable {N V : Type} {callbacks : Callbacks N} {stringify : List V → String}

/-- The instance that a task is removing, past the notifications. -/
def leaving : Task N V → Option ActorId
  | .tree (.children _ _) => none
  | task => removing task

theorem leaving_fresh {task : Task N V} (h : Fresh task) : leaving task = none := by
  unfold leaving
  split
  · rfl
  · exact h.1

/-- The actor is off the lists of its parent, and its own watches are cancelled. -/
def left [DecidableEq N] (s : ActorSystem N V) (r : ActorRef N) : ActorSystem N V :=
  { s with
    toTables := s.toTables.detach r
    toRelations := s.toRelations.unwatchAll s.actors r.id }

theorem left_actors [DecidableEq N] (s : ActorSystem N V) (r : ActorRef N) :
    (left s r).actors = s.actors := TreeSteps.detach_actors s.toTables r

theorem mem_detached_detach [DecidableEq N] (t : Tables N V) (r : ActorRef N) :
    r.id ∈ (t.detach r).detached := by
  unfold Tables.detach
  dsimp only
  split
  · exact Finset.mem_insert_self _ _
  · split_ifs <;> exact Finset.mem_insert_self _ _

variable [DecidableEq N] {s s' : ActorSystem N V} {ref : WatchRef} {excused : Prop}

/-! ## What a task does with a watch -/

omit [DecidableEq N] in
theorem handles_announce (s : ActorSystem N V) (h : Here callbacks s.actors ref s.toRelations)
    (hgone : ref.watcherId ∉ s.actors → excused) (r : ActorRef N) (reason : TerminationReason)
    (next : Task N V) :
    Handles excused ref.id s.toRelations
      (s.announce callbacks r reason next).system.toRelations := by
  have hround := handles_notifyWatchers hgone h r reason
  unfold ActorSystem.announce
  dsimp only
  split_ifs <;> exact hround

omit [DecidableEq N] in
/-- After the notifications, a watch of the actor has no entry. -/
theorem announce_done (s : ActorSystem N V) (h : Here callbacks s.actors ref s.toRelations)
    {r : ActorRef N} {reason : TerminationReason} {next : Task N V}
    (hwatched : ref.watchedId = r.id)
    (hthrew : (s.announce callbacks r reason next).threw = false) :
    (s.announce callbacks r reason next).system.watches ref.id = none := by
  unfold ActorSystem.announce at hthrew ⊢
  dsimp only at hthrew ⊢
  split_ifs at hthrew ⊢ with hround
  · cases hthrew
  · have hexcused : ref.watcherId ∉ s.actors → True := fun _ => trivial
    exact notifyWatchers_done hexcused h hwatched (by simpa using hround)

/-- The own watches of an actor that leaves are cancelled. -/
theorem handles_unwatchOwn (h : Here callbacks s.actors ref s.toRelations) (r : ActorRef N) :
    Handles (ref.watcherId ∉ s.actors ∨ ref.watcherId ∈ (s.toTables.detach r).detached) ref.id
      s.toRelations (s.toRelations.unwatchAll s.actors r.id) :=
  handles_unwatchAll h fun hself => .inr (hself ▸ mem_detached_detach s.toTables r)

theorem here_left (h : Here callbacks s.actors ref s.toRelations) (r : ActorRef N) :
    Here callbacks (left s r).actors ref (left s r).toRelations := by
  rw [left_actors]
  exact h.prunes (prunes_unwatchAll h.agree r.id)

omit [DecidableEq N] in
theorem handles_adopt (w : RefId) (tables : Tables N V) :
    Handles excused w s.toRelations (s.adopt tables).toRelations := by
  unfold ActorSystem.adopt
  split_ifs
  · exact .of_same rfl rfl (List.Subset.refl _) (.of_eq le_rfl rfl rfl)
  · exact .refl _

omit [DecidableEq N] in
theorem handles_migrated (hs : SoundSystem s) (h : Here callbacks s.actors ref s.toRelations)
    (hgone : ref.watcherId ∉ s.actors → excused) (id : ActorId) (move : Move N) :
    Handles excused ref.id s.toRelations
      (s.migrated callbacks id move).system.toRelations := by
  have hwatchers := handles_notifyWatchersOfMigration hgone h id move
  have hp : Prunes s.actors s.toRelations
      (s.toRelations.notifyWatchersOfMigration s.actors callbacks id move).1 :=
    prunes_notifyWatchersOfMigration h.agree id move
  have hlinked : Handles excused ref.id _
      (((s.toRelations.notifyWatchersOfMigration s.actors callbacks id
        move).1).notifyLinkedActorsOfMigration s.actors callbacks id move).1 :=
    handles_notifyLinkedActorsOfMigration (h.prunes hp) (hs.bonds.agree.prunes hp).agree id move
  unfold ActorSystem.migrated
  dsimp only
  split_ifs
  · exact hwatchers
  · exact hwatchers.trans hlinked
  · exact hwatchers.trans hlinked

theorem handles_does {response : Response} {task : Task N V} {p : Progress N V}
    (hs : SoundSystem s) (h : Here callbacks s.actors ref s.toRelations)
    (hdoes : Does callbacks s response task p) :
    Handles (ref.watcherId ∉ s.actors ∨ ref.watcherId ∈ p.system.detached) ref.id
      s.toRelations p.system.toRelations := by
  cases hdoes with
  | @leaves _ r _ =>
      have hgone : ref.watcherId ∉ (left s r).actors →
          ref.watcherId ∉ s.actors ∨ ref.watcherId ∈ (s.toTables.detach r).detached :=
        fun hgone => .inl (left_actors s r ▸ hgone)
      have hround := handles_announce (left s r) (here_left h r) hgone r .normal (.finish r)
      have htables : ((left s r).announce callbacks r .normal (.finish r)).system.toTables =
          s.toTables.detach r := toTables_announce _ r .normal (.finish r)
      show Handles (_ ∨ ref.watcherId ∈
        ((left s r).announce callbacks r .normal (.finish r)).system.detached) _ _ _
      rw [htables]
      exact (handles_unwatchOwn h r).trans hround
  | @leavesSingle r _ =>
      exact (handles_unwatchOwn h r).trans (.linksOnly (.unlinkAll _ r.id))
  | frame _ => exact handles_adopt _ _
  | @crashed r _ _ hcrash =>
      cases hcrash with
      | announced supervisor childSupervisor reason exhausted =>
          have hgone : ref.watcherId ∉ s.actors → ref.watcherId ∉ s.actors := fun hgone => hgone
          have hround := handles_announce
            { s with supervisor := supervisor, childSupervisor := childSupervisor } h hgone r reason
            (.stopFor r exhausted)
          exact hround.mono .inl
      | started _ _ _ => exact .refl _
  | @told r reason l _ =>
      have htold : Handles (ref.watcherId ∉ s.actors ∨ ref.watcherId ∈ s.detached) ref.id
          s.toRelations (s.toRelations.tellLinked s.actors callbacks r reason l).relations :=
        handles_tellLinked h r reason l
      unfold ActorSystem.tellNext
      dsimp only
      split_ifs <;> exact htold
  | @migrated id move =>
      have hgone : ref.watcherId ∉ s.actors → ref.watcherId ∉ s.actors := fun hgone => hgone
      exact (handles_migrated hs h hgone id move).mono .inl
  | _ => exact .refl _

theorem handles_handleRemoteChildCrash (w : RefId) (x : ActorId) (now : Nat) :
    Handles excused w s.toRelations
      (s.handleRemoteChildCrash stringify x now).toRelations := by
  unfold ActorSystem.handleRemoteChildCrash
  split
  · exact .refl _
  · dsimp only
    split_ifs <;> exact .refl _

omit [DecidableEq N] in
theorem handles_sendExit (h : Here callbacks s.actors ref s.toRelations)
    (senderRef targetRef : ActorRef N)
    (reason : String) :
    Handles excused ref.id s.toRelations
      (s.sendExit callbacks senderRef targetRef reason).toRelations := by
  unfold ActorSystem.sendExit
  split_ifs
  · exact .refl _
  · exact .refl _
  · exact handles_inform h _ nofun
  · exact .refl _

/-- What a step does with a watch that is not made by it. -/
theorem handles_step (hs : SoundSystem s) (h : Here callbacks s.actors ref s.toRelations)
    (hother : ref.id < s.nextRef ∨ s'.nextRef ≤ ref.id) {a : SystemAction N V}
    (hst : s.step callbacks stringify a = some s') :
    Handles (ref.watcherId ∉ s.actors ∨ ref.watcherId ∈ s'.detached) ref.id s.toRelations
      s'.toRelations := by
  cases a with
  | spawn | spawnChild =>
      simp only [ActorSystem.step] at hst
      split_ifs at hst <;> cases hst
      · exact .refl _
      · exact handles_adopt _ _
  | spawnChildRemote | mailbox | stop | childStop | restart | crash | migrate | shutdown =>
      simp only [ActorSystem.step] at hst
      split_ifs at hst <;> cases hst <;> exact .refl _
  | acceptChild actorClass options => cases hst; exact handles_adopt _ _
  | setTrapExit id trap =>
      cases hst
      exact .of_same rfl rfl (List.Subset.refl _) (.of_eq le_rfl rfl rfl)
  | watch watcherRef watchedRef =>
      simp only [ActorSystem.step] at hst
      split_ifs at hst
      cases hst
      have hlt : s.nextRef <
          (s.toRelations.watch s.actors callbacks s.id watcherRef watchedRef).1.nextRef :=
        lt_nextRef_watch h.agree s.id watcherRef watchedRef
      refine handles_watch h s.id watcherRef watchedRef (hother.elim Nat.ne_of_lt fun hle => ?_)
      exact Nat.ne_of_gt (hlt.trans_le hle)
  | unwatch w => cases hst; exact handles_cancel h w
  | link actor1Ref actor2Ref => cases hst; exact .linksOnly (.link _ _ _ _)
  | unlink l =>
      obtain ⟨linkRef, -, rfl⟩ := Option.map_eq_some_iff.1 hst
      exact .linksOnly (.unlink _ _)
  | restartRemoteChild x =>
      obtain ⟨e, -, rfl⟩ := Option.map_eq_some_iff.1 hst
      exact .refl _
  | remoteCrash x now => cases hst; exact handles_handleRemoteChildCrash _ x now
  | sendExit senderRef targetRef reason => cases hst; exact handles_sendExit h _ _ _
  | watchDown w id reason => cases hst; exact handles_handleRemoteDown h w id reason
  | watchMoved w move => cases hst; exact handles_handleRemoteWatcherMoved h w move
  | failWatches node => cases hst; exact handles_handleNodeFailureForWatches h node
  | linkExit l id reason => cases hst; exact handles_handleRemoteLinkExit h l id reason
  | linkMoved l move => cases hst; exact handles_handleRemoteLinkMoved h l move
  | resumes index response now =>
      obtain ⟨task, outer, p, -, hdoes, rfl⟩ := resumes_cases hst
      exact handles_does hs h hdoes
  | rejects index =>
      obtain ⟨task, outer, p, -, hdrops, rfl⟩ := rejects_cases hst
      cases hdrops <;> exact .refl _
  | _ =>
      cases hst
      exact .refl _

/-! ## Removals that are past their notifications -/

/-- While the watch has its entry, the actor is there, and no removal of it that tells
watchers is past its notifications. -/
def Awaits (ref : WatchRef) (s : ActorSystem N V) : Prop :=
  s.watches ref.id ≠ none → ref.watchedId ∉ s.unannounced →
    ref.watchedId ∈ s.actors ∧ ∀ task ∈ s.calls.flatten, leaving task ≠ some ref.watchedId

/-- The instance is still there, and nothing that a task leads to is past the
notifications of its removal. -/
structure Awaited (id : ActorId) (p : Progress N V) : Prop where
  actors : id ∈ p.system.actors
  tasks : p.threw = false → ∀ task ∈ p.tasks, leaving task ≠ some id
  calls : ∀ call ∈ p.calls, ∀ task ∈ call, leaving task ≠ some id

section
variable {id : ActorId}

section
omit [DecidableEq N]

theorem ne_of_fresh {tasks : List (Task N V)} (htasks : ∀ task ∈ tasks, Fresh task) :
    ∀ task ∈ tasks, leaving task ≠ some id := by
  intro task htask hleaving
  rw [leaving_fresh (htasks task htask)] at hleaving
  cases hleaving

theorem awaited_tasks {p : Progress N V} (hactors : id ∈ p.system.actors)
    (htasks : ∀ task ∈ p.tasks, leaving task ≠ some id) (hcalls : p.calls = []) :
    Awaited id p :=
  ⟨hactors, fun _ => htasks, fun _ hcall => absurd (hcalls ▸ hcall) List.not_mem_nil⟩

theorem awaited_one {p : Progress N V} (hactors : id ∈ p.system.actors) (task : Task N V)
    (htasks : p.tasks = [task]) (hne : leaving task ≠ some id) (hcalls : p.calls = []) :
    Awaited id p := by
  refine awaited_tasks hactors (fun task' htask' => ?_) hcalls
  rw [htasks] at htask'
  rw [List.mem_singleton.1 htask']
  exact hne

end

theorem actors_resumeFrame {t : Tables N V} {response : Response} {f : Frame N V}
    (hid : id ∈ t.actors) (houtside : outside f = true)
    (hne : leaving (.tree f : Task N V) ≠ some id) :
    id ∈ (t.resumeFrame response f).1.actors := by
  have hresumes := TreeSteps.resumeFrame_cases t response f
  generalize t.resumeFrame response f = result at hresumes ⊢
  rcases result with ⟨tables, frames⟩
  dsimp only at hresumes ⊢
  cases hresumes with
  | leaves _ =>
      rw [TreeSteps.detach_actors]
      exact hid
  | removed hf =>
      rcases hf with ⟨r, rfl, -⟩ | ⟨rfl, -⟩
      · cases houtside
      · exact Finset.mem_erase.2 ⟨fun heq => hne (congrArg some heq.symm), hid⟩
  | spawned _ _ => exact Finset.mem_insert_of_mem hid
  | childSpawned hp _ _ =>
      unfold Tables.spawnChild
      rw [if_pos hp]
      exact Finset.mem_insert_of_mem hid
  | dropped _ =>
      unfold Tables.dropRemoteChild
      split_ifs <;> exact hid
  | replaced _ =>
      unfold Tables.replaceRemoteChild
      dsimp only
      split_ifs <;> exact hid
  | _ => exact hid

end

theorem awaited_frame {response : Response} {f : Frame N V} (houtside : outside f = true)
    {id : ActorId} (hid : id ∈ s.actors) (hne : leaving (.tree f : Task N V) ≠ some id) :
    Awaited id (s.resumeFrame response f) := by
  refine awaited_tasks ?_ (ne_of_fresh (fresh_resumeFrame s response houtside)) rfl
  have hactors : id ∈ (s.toTables.resumeFrame response f).1.actors :=
    actors_resumeFrame hid houtside hne
  unfold ActorSystem.resumeFrame ActorSystem.adopt
  dsimp only
  split_ifs <;> exact hactors

omit [DecidableEq N] in
theorem awaited_announce (s : ActorSystem N V) (h : Here callbacks s.actors ref s.toRelations)
    (hid : ref.watchedId ∈ s.actors) {r : ActorRef N} {reason : TerminationReason}
    {next : Task N V} (hnext : leaving next = some ref.watchedId → ref.watchedId = r.id)
    (hthere : (s.announce callbacks r reason next).system.watches ref.id ≠ none) :
    Awaited ref.watchedId (s.announce callbacks r reason next) := by
  refine ⟨?_, fun hthrew task htask hleaving => ?_, fun call hcall => ?_⟩
  · rw [toTables_announce]
    exact hid
  · have hkept : task = next := by
      unfold ActorSystem.announce at hthrew htask
      dsimp only at hthrew htask
      split_ifs at hthrew htask
      · cases hthrew
      · rcases List.mem_cons.1 htask with rfl | htask
        · cases hleaving
        · exact List.mem_singleton.1 htask
    subst hkept
    exact hthere (announce_done s h (hnext hleaving) hthrew)
  · unfold ActorSystem.announce at hcall
    dsimp only at hcall
    split_ifs at hcall <;> cases hcall

omit [DecidableEq N] in
theorem awaited_migrated (hs : SoundSystem s) (h : Here callbacks s.actors ref s.toRelations)
    (hid : ref.watchedId ∈ s.actors) {id : ActorId} {move : Move N}
    (hthere : (s.migrated callbacks id move).system.watches ref.id ≠ none) :
    Awaited ref.watchedId (s.migrated callbacks id move) := by
  have hp : Prunes s.actors s.toRelations
      (s.toRelations.notifyWatchersOfMigration s.actors callbacks id move).1 :=
    prunes_notifyWatchersOfMigration h.agree id move
  have hlinked : Handles True ref.id _
      (((s.toRelations.notifyWatchersOfMigration s.actors callbacks id
        move).1).notifyLinkedActorsOfMigration s.actors callbacks id move).1 :=
    handles_notifyLinkedActorsOfMigration (h.prunes hp) (hs.bonds.agree.prunes hp).agree id move
  have hnil : ∀ task ∈ ([] : List (Task N V)), leaving task ≠ some ref.watchedId :=
    fun _ htask => absurd htask List.not_mem_nil
  unfold ActorSystem.migrated at hthere ⊢
  dsimp only at hthere ⊢
  split_ifs at hthere ⊢ with hwatchers
  · exact awaited_tasks hid hnil rfl
  · exact awaited_tasks hid hnil rfl
  · refine awaited_tasks (Finset.mem_erase.2 ⟨?_, hid⟩) hnil rfl
    rintro rfl
    have hexcused : ref.watcherId ∉ s.actors → True := fun _ => trivial
    have hnone := notifyWatchersOfMigration_done hexcused h (by simpa using hwatchers)
    exact hthere (hlinked.gone hnone).1

theorem awaited_does {response : Response} {task : Task N V} {p : Progress N V}
    (hs : SoundSystem s) (h : Here callbacks s.actors ref s.toRelations)
    (hid : ref.watchedId ∈ s.actors)
    (htask : leaving task ≠ some ref.watchedId) (hdoes : Does callbacks s response task p)
    (hthere : p.system.watches ref.id ≠ none)
    (hannounced : ref.watchedId ∉ p.system.unannounced) : Awaited ref.watchedId p := by
  have hnil : ∀ task ∈ ([] : List (Task N V)), leaving task ≠ some ref.watchedId :=
    fun _ htask => absurd htask List.not_mem_nil
  cases hdoes with
  | ends => exact awaited_tasks hid hnil rfl
  | @descends _ r c rest _ =>
      refine awaited_tasks hid (fun task' htask' => ?_) rfl
      rcases List.mem_cons.1 htask' with rfl | htask'
      · rw [leaving_fresh (fresh_stopFrame s.toTables c)]
        exact nofun
      · rw [List.mem_singleton.1 htask']
        exact nofun
  | @leaves _ r _ =>
      exact awaited_announce (left s r) (here_left h r) (left_actors s r ▸ hid)
        (fun hnext => (Option.some.inj hnext).symm) hthere
  | @leavesSingle r _ =>
      refine awaited_one ?_ (.finish r) rfl (fun heq => hannounced ?_) rfl
      · show ref.watchedId ∈ (s.toTables.detach r).actors
        rw [TreeSteps.detach_actors]
        exact hid
      · rw [← Option.some.inj heq]
        exact Finset.mem_insert_self _ _
  | unregisters | closes => exact awaited_one hid _ rfl htask rfl
  | @terminates _ r hfrom =>
      refine awaited_one hid (.tree (.terminating r)) rfl ?_ rfl
      rcases hfrom with rfl | rfl <;> exact htask
  | @removes _ id hfrom =>
      refine awaited_tasks (Finset.mem_erase.2 ⟨?_, hid⟩) hnil rfl
      rintro rfl
      rcases hfrom with ⟨r, rfl, hr⟩ | rfl
      · exact htask (congrArg some hr)
      · exact htask rfl
  | frame hf => exact awaited_frame hf hid htask
  | @crashed r _ _ hcrash =>
      cases hcrash with
      | announced supervisor childSupervisor reason exhausted =>
          exact awaited_announce
            { s with supervisor := supervisor, childSupervisor := childSupervisor } h hid nofun
            hthere
      | started _ _ htasks => exact awaited_tasks hid (ne_of_fresh htasks) rfl
  | @told r reason l rest =>
      unfold ActorSystem.tellNext
      dsimp only
      split_ifs
      · exact awaited_tasks hid hnil rfl
      · refine ⟨hid, fun _ task' htask' => ?_, fun call hcall task' htask' => ?_⟩
        · rw [List.mem_singleton.1 htask']
          exact nofun
        · obtain ⟨crash, -, rfl⟩ := List.mem_map.1 hcall
          rw [List.mem_singleton.1 htask']
          exact nofun
  | @stopsFor r _ _ => exact awaited_one hid (.tree (.stop r)) rfl nofun rfl
  | migrated => exact awaited_migrated hs h hid hthere
  | closesAll => exact absurd (Finset.mem_union_right _ hid) hannounced

omit [DecidableEq N] in
theorem awaited_drops {task : Task N V} {p : Progress N V} {id : ActorId} (hid : id ∈ s.actors)
    (htask : leaving task ≠ some id) (hdrops : Drops s task p) : Awaited id p := by
  have hnil : ∀ task ∈ ([] : List (Task N V)), leaving task ≠ some id :=
    fun _ htask => absurd htask List.not_mem_nil
  cases hdrops with
  | closes => exact awaited_one hid _ rfl htask rfl
  | removes =>
      refine awaited_tasks (Finset.mem_erase.2 ⟨?_, hid⟩) hnil rfl
      rintro rfl
      exact htask rfl
  | _ => exact awaited_tasks hid hnil rfl

omit [DecidableEq N] in
theorem leaving_carryOn {index : Nat} {task : Task N V} {outer : List (Task N V)}
    {p : Progress N V} {id : ActorId} (hcall : s.calls[index]? = some (task :: outer))
    (hcalls : p.system.calls = s.calls) (htasks : ∀ task ∈ s.calls.flatten, leaving task ≠ some id)
    (hp : Awaited id p) :
    ∀ task ∈ (ActorSystem.carryOn index outer p).calls.flatten, leaving task ≠ some id := by
  intro task' htask'
  obtain ⟨call, hmem, htask'⟩ := List.mem_flatten.1 htask'
  have hold : ∀ call ∈ s.calls, ∀ task ∈ call, leaving task ≠ some id := fun call hc task ht =>
    htasks task (List.mem_flatten.2 ⟨call, hc, ht⟩)
  rcases mem_carryOn hcalls hmem with ⟨hthrew, rfl⟩ | hmem | hmem
  · rcases List.mem_append.1 htask' with hnew | houter
    · exact hp.tasks hthrew task' hnew
    · exact hold _ (List.mem_of_getElem? hcall) task' (List.mem_cons_of_mem _ houter)
  · exact hold call hmem task' htask'
  · exact hp.calls call hmem task' htask'

theorem awaits_step (hs : SoundSystem s) (h : Here callbacks s.actors ref s.toRelations)
    (haw : Awaits ref s) {a : SystemAction N V} (hst : s.step callbacks stringify a = some s')
    (hhandles : Handles excused ref.id s.toRelations s'.toRelations) : Awaits ref s' := by
  intro hthere hannounced
  have hthere₀ : s.watches ref.id ≠ none := fun hnone => hthere (hhandles.gone hnone).1
  have hannounced₀ := fun hmem => hannounced (unannounced_step hst hmem)
  obtain ⟨hid, htasks⟩ := haw hthere₀ hannounced₀
  cases step_cases hst with
  | opens hopens =>
      refine ⟨hopens.actors hid, fun task htask hleaving => ?_⟩
      obtain ⟨new, hcalls, hnew⟩ := hopens.calls
      rw [hcalls, List.flatten_append] at htask
      rcases List.mem_append.1 htask with hold | hfresh
      · exact htasks task hold hleaving
      · obtain ⟨call, hcall, htask⟩ := List.mem_flatten.1 hfresh
        rw [leaving_fresh (hnew call hcall task htask)] at hleaving
        cases hleaving
  | @resumed _ _ _ task _ _ hcall hdoes =>
      have htask : leaving task ≠ some ref.watchedId :=
        htasks task (List.mem_flatten.2 ⟨_, List.mem_of_getElem? hcall, List.mem_cons_self⟩)
      have hp := awaited_does hs h hid htask hdoes hthere hannounced
      exact ⟨hp.actors, leaving_carryOn hcall (calls_does hdoes) htasks hp⟩
  | @rejected _ task _ _ hcall hdrops =>
      have htask : leaving task ≠ some ref.watchedId :=
        htasks task (List.mem_flatten.2 ⟨_, List.mem_of_getElem? hcall, List.mem_cons_self⟩)
      have hp := awaited_drops hid htask hdrops
      exact ⟨hp.actors, leaving_carryOn hcall (calls_drops hdrops) htasks hp⟩

/-! ## Runs -/

/-- The watcher is gone, or its own removal has begun. -/
def Excused (ref : WatchRef) (s : ActorSystem N V) : Prop :=
  ref.watcherId ∉ s.actors ∨ ref.watcherId ∈ s.detached

/-- What holds of a watch from some state on. -/
structure Follows (ref : WatchRef) (s₁ s : ActorSystem N V) : Prop where
  sound : SoundSystem s
  old : ref.watcherId < s.nextId
  handles : Handles (Excused ref s) ref.id s₁.toRelations s.toRelations
  awaits : Awaits ref s

omit [DecidableEq N] in
/-- The reference of a watch that is known to have been made. -/
theorem Follows.here {s₁ : ActorSystem N V} (h : Follows ref s₁ s) (hlt : ref.id < s₁.nextRef)
    (h₁ : Here callbacks s₁.actors ref s₁.toRelations) :
    Here callbacks s.actors ref s.toRelations where
  agree := h.sound.bonds.agree.watches
  made := by
    rw [h.handles.recalls.watchRefs hlt]
    exact h₁.made
  here := by
    rw [h.handles.recalls.remoteRefs hlt]
    exact h₁.here
  quiet := by
    rw [h.handles.recalls.watchRefs hlt]
    exact h₁.quiet

theorem Follows.step {s₁ : ActorSystem N V} (h : Follows ref s₁ s) (hlt : ref.id < s₁.nextRef)
    (h₁ : Here callbacks s₁.actors ref s₁.toRelations) {a : SystemAction N V}
    (hst : s.step callbacks stringify a = some s') : Follows ref s₁ s' := by
  have hhere := h.here hlt h₁
  have hrenews := renews_step hst
  have hgone : ref.watcherId ∉ s.actors → ref.watcherId ∉ s'.actors := fun hgone hmem => by
    rcases hrenews.actors _ hmem with hold | ⟨hnew, -⟩
    · exact hgone hold
    · exact Nat.ne_of_lt h.old hnew
  have hone := handles_step h.sound hhere (.inl (hlt.trans_le h.handles.recalls.nextRef)) hst
  have hexcused : Excused ref s → Excused ref s' :=
    Or.imp hgone fun hdetached => hrenews.detached hdetached
  exact ⟨h.sound.step hst, h.old.trans_le hrenews.nextId,
    (h.handles.mono hexcused).trans (hone.mono (Or.imp_left hgone)),
    awaits_step h.sound hhere h.awaits hst hone⟩

omit [DecidableEq N] in
theorem here_unmade (hs : SoundSystem s) {w : RefId} (hle : s.nextRef ≤ w) :
    Here callbacks s.actors ⟨w, 0, 0⟩ s.toRelations := by
  have hw := hs.bonds.agree.watches
  have hnone : s.watchRefs w = none := by
    by_contra hsome
    obtain ⟨ref, href⟩ := Option.ne_none_iff_exists'.1 hsome
    exact absurd (hw.made w ref href).2 (Nat.not_lt.2 hle)
  refine ⟨hw, fun ref' href' => ?_, fun hmem => ?_, fun hmade => absurd hnone hmade⟩
  · rw [hnone] at href'
    cases href'
  · exact absurd (hw.madeRemote w hmem) (Nat.not_lt.2 hle)

/-- Nothing is delivered for a watch before it is made. -/
theorem unheard {node : N} {childSupervision : ActorId → ChildSupervisionOptions}
    {supervisor : Supervisor} {as : List (SystemAction N V)}
    (hrun : run (ActorSystem.step callbacks stringify) (.init node childSupervision supervisor) as =
      some s) : ∀ w, s.nextRef ≤ w → deliveries s.toRelations w = 0 := by
  refine (run_invariant' (I := fun s : ActorSystem N V =>
    SoundSystem s ∧ ∀ w, s.nextRef ≤ w → deliveries s.toRelations w = 0) ?_
    ⟨.init node childSupervision supervisor, fun _ _ => rfl⟩ hrun).2
  rintro s a s' ⟨hs, hnone⟩ hst
  have hsame : ∀ w, s.nextRef ≤ w → s'.nextRef ≤ w →
      s.nextRef ≤ s'.nextRef ∧ deliveries s'.toRelations w = deliveries s.toRelations w := by
    intro w hle hle'
    have hone := handles_step hs (here_unmade hs hle) (.inr hle') hst
    refine ⟨hone.recalls.nextRef, (hone.gone ?_).2⟩
    by_contra hsome
    obtain ⟨e, he⟩ := Option.ne_none_iff_exists'.1 hsome
    exact absurd (hs.bonds.agree.watches.lt_of_watches he) (Nat.not_lt.2 hle)
  have hgrows := (hsame _ (Nat.le_max_left _ _) (Nat.le_max_right s.nextRef s'.nextRef)).1
  refine ⟨hs.step hst, fun w hw => ?_⟩
  rw [(hsame w (hgrows.trans hw) hw).2]
  exact hnone w (hgrows.trans hw)

/-- The step that makes the watch. -/
theorem follows_watch (hs : SoundSystem s) {watcherRef watchedRef : ActorRef N}
    (hnode : watchedRef.systemId = s.id) (hthere : watchedRef.id ∈ s.actors)
    (htimely : ∀ task ∈ s.calls.flatten, leaving task ≠ some watchedRef.id)
    (hst : s.step callbacks stringify (.watch watcherRef watchedRef) = some s') :
    s'.toRelations = s.toRelations.establishWatch s.actors watcherRef watchedRef ∧
      Follows (newWatchRef s.toRelations watcherRef watchedRef) s' s' := by
  have hs' := hs.step hst
  simp only [ActorSystem.step] at hst
  split_ifs at hst with hlt
  cases hst
  have hwatch : (s.toRelations.watch s.actors callbacks s.id watcherRef watchedRef).1 =
      s.toRelations.establishWatch s.actors watcherRef watchedRef := by
    unfold Relations.watch Relations.watchLocal
    rw [if_neg (fun h => h hnode)]
    dsimp only
    rw [if_pos hthere]
  exact ⟨hwatch, hs', hlt.1, .refl _, fun _ _ => ⟨hthere, htimely⟩⟩

omit [DecidableEq N] in
/-- A watch without an entry is in no index. -/
theorem not_indexed (hs : SoundSystem s) (h : Here callbacks s.actors ref s.toRelations)
    (hnone : s.watches ref.id = none) :
    (∀ a, ref.id ∉ s.watchedBy.get a) ∧
      ∀ a ∈ s.actors, ∀ ref' ∈ s.contextWatches a, ref'.id ≠ ref.id := by
  have hw : WatchesAgree s.actors s.toRelations := hs.bonds.agree.watches
  refine ⟨fun a hmem => ?_, fun a ha ref' href' hid => ?_⟩
  · obtain ⟨e, he, -⟩ := (hw.index ref.id a).1 hmem
    rw [hnone] at he
    cases he
  · rcases ((hw.context a ha ref').1 href').1 with ⟨e, he, -⟩ | ⟨e, he, rfl⟩
    · rw [hid, hnone] at he
      cases he
    · exact h.here (hid ▸ (hw.remote e he).2.2)

/-- When an actor is gone, and neither a restart nor shutdown has removed it, those who
watched it in time have been told once, if they were there and had not cancelled, and
the watch is in no table. -/
theorem told_once {node : N} {childSupervision : ActorId → ChildSupervisionOptions}
    {supervisor : Supervisor} {before after later : List (SystemAction N V)}
    {s₀ s s' : ActorSystem N V} {watcherRef watchedRef : ActorRef N}
    (hbefore : run (ActorSystem.step callbacks stringify)
      (.init node childSupervision supervisor) before = some s₀)
    (hnode : watchedRef.systemId = s₀.id) (hthere : watchedRef.id ∈ s₀.actors)
    (htimely : ∀ task ∈ s₀.calls.flatten, leaving task ≠ some watchedRef.id)
    (hquiet : ∀ message : InfoMessage N, message.watch = some s₀.nextRef →
      callbacks.throws watcherRef.id message = false)
    (hafter : run (ActorSystem.step callbacks stringify) s₀
      (.watch watcherRef watchedRef :: after) = some s)
    (hgone : watchedRef.id ∉ s.actors) (hannounced : watchedRef.id ∉ s.unannounced)
    (hlater : run (ActorSystem.step callbacks stringify) s later = some s') :
    (watcherRef.id ∈ s.actors → watcherRef.id ∉ s.detached → s₀.nextRef ∉ s.cancelled →
        deliveries s'.toRelations s₀.nextRef = 1) ∧
      s'.watches s₀.nextRef = none ∧ (∀ a, s₀.nextRef ∉ s'.watchedBy.get a) ∧
      ∀ a ∈ s'.actors, ∀ ref ∈ s'.contextWatches a, ref.id ≠ s₀.nextRef := by
  have hs₀ := SoundSystem.run hbefore
  obtain ⟨s₁, hst, hrun⟩ := run_cons_eq_some.1 hafter
  obtain ⟨hmade, hfollows⟩ := follows_watch hs₀ hnode hthere htimely hst
  -- the state right after the watch has been made
  let ref := newWatchRef s₀.toRelations watcherRef watchedRef
  obtain ⟨t₁, -, -, t₄, t₅, t₆, t₇⟩ :=
    establishWatch_tables s₀.actors s₀.toRelations watcherRef watchedRef
  rw [← hmade] at t₁ t₄ t₅ t₆ t₇
  have hentry : s₁.watches ref.id = some ⟨ref, watcherRef, watchedRef⟩ := by
    rw [t₁]
    exact Function.update_self ..
  have hzero : deliveries s₁.toRelations ref.id = 0 :=
    (deliveries_of_events t₇ _).trans (unheard hbefore _ le_rfl)
  have hlt : ref.id < s₁.nextRef := t₆ ▸ Nat.lt_succ_self _
  have h₁ : Here callbacks s₁.actors ref s₁.toRelations := by
    refine ⟨hfollows.sound.bonds.agree.watches, fun ref' href' => ?_, fun hmem => ?_,
      fun _ => hquiet⟩
    · rw [t₄, show ref.id = s₀.nextRef from rfl, Function.update_self] at href'
      exact (Option.some.inj href').symm
    · rw [t₅] at hmem
      exact lt_irrefl _ (hs₀.bonds.agree.watches.madeRemote _ hmem)
  -- the state in which the watched actor is gone
  have hs : Follows ref s₁ s := run_invariant' (fun _ _ _ h hst => h.step hlt h₁ hst) hfollows hrun
  have hnone : s.watches ref.id = none := by
    by_contra hpresent
    exact hgone (hs.awaits hpresent hannounced).1
  have htold : watcherRef.id ∈ s.actors → watcherRef.id ∉ s.detached →
      s₀.nextRef ∉ s.cancelled → deliveries s.toRelations ref.id = 1 := by
    intro hwatcher hstays hkept
    rcases hs.handles.there _ hentry with ⟨hpresent, -⟩ | ⟨-, hd | ⟨-, hcancelled | hexcused⟩⟩
    · rw [hnone] at hpresent
      cases hpresent
    · rw [hd, hzero]
    · exact absurd hcancelled hkept
    · exact absurd hexcused (not_or.2 ⟨not_not.2 hwatcher, hstays⟩)
  -- any later state
  have hlt' : ref.id < s.nextRef := hlt.trans_le hs.handles.recalls.nextRef
  have h₂ := hs.here hlt h₁
  have hs' : Follows ref s s' := run_invariant' (fun _ _ _ h hst => h.step hlt' h₂ hst)
    ⟨hs.sound, hs.old, .refl _, hs.awaits⟩ hlater
  obtain ⟨hnone', hsame⟩ := hs'.handles.gone hnone
  have hout := not_indexed hs'.sound (hs'.here hlt' h₂) hnone'
  exact ⟨fun hwatcher hstays hkept => hsame.trans (htold hwatcher hstays hkept), hnone', hout.1,
    hout.2⟩

section

def silent : Callbacks Nat := ⟨fun _ _ => [], fun _ _ => false⟩

/-- A node that restarts actors that crash. -/
def node : ActorSystem Nat Nat :=
  .init 0 (fun _ => ⟨.oneForOne, 3, 1000⟩) (.new .Restart 3 1000)

def watched : ActorRef Nat := ⟨0, 0, none, 0⟩

def watcher : ActorRef Nat := ⟨0, 1, none, 0⟩

/-- The watched actor is stopped. -/
def stopped : List (SystemAction Nat Nat) :=
  [.stop watched, .resumes 0 .success 0, .resumes 0 .success 0, .resumes 0 .success 0,
    .resumes 0 .success 0]

/-- Both actors have been spawned. -/
def ready : ActorSystem Nat Nat :=
  (run (ActorSystem.step silent fun _ => "") node
    [.spawn "Worker" {}, .spawn "Boss" {}]).getD node

def done : ActorSystem Nat Nat :=
  (run (ActorSystem.step silent fun _ => "") ready (.watch watcher watched :: stopped)).getD node

theorem told_once_stopped :
    deliveries done.toRelations 0 = 1 ∧ done.watches 0 = none := by
  have hbefore : run (ActorSystem.step silent fun _ => "") node
      [.spawn "Worker" {}, .spawn "Boss" {}] = some ready := rfl
  have hafter : run (ActorSystem.step silent fun _ => "") ready
      (.watch watcher watched :: stopped) = some done := rfl
  have htold := told_once hbefore rfl (by decide) (by decide) (fun _ _ => rfl) hafter (by decide)
    (by decide) (run_nil done)
  exact ⟨htold.1 (by decide) (by decide) (by decide), htold.2.1⟩

/-- The watched actor crashes and is started again. -/
def restarted : List (SystemAction Nat Nat) :=
  [.spawn "Worker" {}, .spawn "Boss" {}, .watch watcher watched, .crash watched "failed",
    .resumes 0 .success 0, .resumes 0 .success 0, .resumes 0 .success 0, .resumes 0 .success 0,
    .resumes 0 .success 0]

theorem restarted_untold :
    ∃ s, run (ActorSystem.step silent fun _ => "") node restarted = some s ∧
      watched.id ∉ s.actors ∧ watcher.id ∈ s.actors ∧ s.cancelled = [] ∧
      deliveries s.toRelations 0 = 0 ∧ (s.watches 0).isSome := by
  refine ⟨_, rfl, ?_⟩
  decide

end

end Libeam.Proofs.WatchOnce
