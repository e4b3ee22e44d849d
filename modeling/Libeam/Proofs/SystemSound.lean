import Libeam.Proofs.SystemSteps
import Libeam.Proofs.BondsAgree
/-!
# The tables of watches and links in every state of a node

Stops, restarts, crashes, migrations and shutdown use the tables through the
operations that keep them in agreement.  A loop over the links of an actor goes
over links that concern it.
-/

namespace Libeam.Proofs.SystemSound

open Libeam.System (ActorId Supervisor)
open Supervision Monitoring Lib.Transition WatchTables LinkTables BondsAgree SystemSteps
open TreeSteps (resumeFrame_cases)

variable {N V : Type} {callbacks : Callbacks N} {stringify : List V → String}

/-! ## Links that concern an actor -/

/-- The links that have been made are still known. -/
structure LinksGrow (r r' : Relations N) : Prop where
  linkRefs : ∀ l ref, r.linkRefs l = some ref → r'.linkRefs l = some ref
  localLinks : ∀ l ∈ r.localLinks, l ∈ r'.localLinks

namespace LinksGrow

variable {r r' r'' : Relations N}

theorem refl (r : Relations N) : LinksGrow r r := ⟨fun _ _ h => h, fun _ h => h⟩

theorem trans (h : LinksGrow r r') (h' : LinksGrow r' r'') : LinksGrow r r'' :=
  ⟨fun l ref hl => h'.linkRefs l ref (h.linkRefs l ref hl),
    fun l hl => h'.localLinks l (h.localLinks l hl)⟩

theorem of_eq (hrefs : r'.linkRefs = r.linkRefs) (hlocal : r'.localLinks = r.localLinks) :
    LinksGrow r r' :=
  ⟨fun _ _ h => hrefs ▸ h, fun _ h => hlocal ▸ h⟩

theorem concerns (h : LinksGrow r r') {a : ActorId} {l : RefId} (hl : r.Concerns a l) :
    r'.Concerns a l := by
  obtain ⟨ref, href, hends⟩ := hl
  exact ⟨ref, h.linkRefs l ref href, hends.imp_right (And.imp_left (h.localLinks l))⟩

end LinksGrow

theorem LinksGrow.of_keeps {actors : Finset ActorId} {r r' : Relations N}
    (h : Keeps actors r r') : LinksGrow r r' := .of_eq h.linkRefs h.localLinks

/-- A loop over links goes over links that concern the actor. -/
def SoundTask (r : Relations N) : Task N V → Prop
  | .linked actorRef _ rest => ∀ l ∈ rest, r.Concerns actorRef.id l
  | _ => True

theorem SoundTask.mono {r r' : Relations N} (h : LinksGrow r r') {task : Task N V}
    (ht : SoundTask r task) : SoundTask r' task := by
  cases task with
  | linked _ _ rest => exact fun l hl => h.concerns (ht l hl)
  | _ => trivial

theorem soundTask_fresh {r : Relations N} {task : Task N V} (h : Fresh task) :
    SoundTask r task := by
  cases task with
  | linked a reason rest => exact absurd rfl (h.2 a reason rest)
  | _ => trivial

structure SoundSystem (s : ActorSystem N V) : Prop where
  bonds : Sound s.bonds
  tasks : ∀ call ∈ s.calls, ∀ task ∈ call, SoundTask s.toRelations task

/-! ## Tables of parents and children -/

theorem sound_mono {b : Bonds N} (h : Sound b) {actors : Finset ActorId}
    (hsub : actors ⊆ b.actors) {nextId : ActorId} (hle : b.nextId ≤ nextId) :
    Sound { b with actors := actors, nextId := nextId } where
  agree := ⟨h.agree.watches.mono hsub, h.agree.links.mono hsub⟩
  actors := fun a ha => (h.actors a (hsub ha)).trans_le hle
  watcher := fun w ref href => (h.watcher w ref href).trans_le hle
  linked := fun l ref href => ⟨(h.linked l ref href).1.trans_le hle,
    fun hl => ((h.linked l ref href).2 hl).trans_le hle⟩
  settled := h.settled

/-- The state with other relations. -/
theorem sound_keeps {s : ActorSystem N V} (h : Sound s.bonds) {r : Relations N}
    (hk : Keeps s.actors s.toRelations r) :
    Sound { s with toRelations := r }.bonds ∧ LinksGrow s.toRelations r :=
  ⟨h.keeps hk, .of_keeps hk⟩

variable [DecidableEq N]

omit [DecidableEq N] in
theorem sound_adopt {s : ActorSystem N V} (h : Sound s.bonds) {tables : Tables N V}
    (ht : Renews s.toTables tables) :
    Sound (s.adopt tables).bonds ∧ LinksGrow s.toRelations (s.adopt tables).toRelations := by
  unfold ActorSystem.adopt
  split_ifs with hnew
  · obtain hold | hlt := ht.actors _ hnew
    · exact absurd (h.actors _ hold) (lt_irrefl _)
    · have hsub : tables.actors ⊆ insert s.nextId s.actors := fun x hx =>
        (ht.actors x hx).elim Finset.mem_insert_of_mem fun hx => hx.1 ▸ Finset.mem_insert_self ..
      have hs := sound_mono h.spawn hsub hlt.2
      refine ⟨?_, .of_eq rfl rfl⟩
      unfold ActorSystem.bonds
      rw [ht.id]
      exact hs
  · have hsub : tables.actors ⊆ s.actors := fun x hx =>
      (ht.actors x hx).resolve_right fun hx' => hnew (hx'.1 ▸ hx)
    refine ⟨?_, .refl _⟩
    unfold ActorSystem.bonds
    rw [ht.id]
    exact sound_mono h hsub ht.nextId

omit [DecidableEq N] in
theorem sound_remove {s : ActorSystem N V} (h : Sound s.bonds) (id : ActorId) :
    Sound (s.remove id).bonds := h.remove id

/-- The actor leaves the lists of its parent. -/
theorem sound_detach {s : ActorSystem N V} (actorRef : ActorRef N) {r : Relations N}
    (h : Sound { s with toRelations := r }.bonds) :
    Sound { s with toTables := s.toTables.detach actorRef, toRelations := r }.bonds := by
  have hrenews := renews_detach s.toTables actorRef
  have hsub : (s.toTables.detach actorRef).actors ⊆ s.actors := by
    rw [TreeSteps.detach_actors]
  unfold ActorSystem.bonds
  rw [hrenews.id]
  exact sound_mono h hsub hrenews.nextId

/-! ## Tasks -/

/-- What a task leads to keeps the tables in agreement. -/
structure Good (s : ActorSystem N V) (p : Progress N V) : Prop where
  bonds : Sound p.system.bonds
  grows : LinksGrow s.toRelations p.system.toRelations
  tasks : ∀ task ∈ p.tasks, SoundTask p.system.toRelations task
  calls : ∀ call ∈ p.calls, ∀ task ∈ call, SoundTask p.system.toRelations task

section
variable {s : ActorSystem N V}

section
omit [DecidableEq N]

theorem good_proceed {s' : ActorSystem N V} (h : Sound s'.bonds)
    (hgrows : LinksGrow s.toRelations s'.toRelations) {tasks : List (Task N V)}
    (htasks : ∀ task ∈ tasks, SoundTask s'.toRelations task) : Good s (s'.proceed tasks) :=
  ⟨h, hgrows, htasks, fun _ hcall => absurd hcall List.not_mem_nil⟩

/-- A task that leaves watches, links and actors alone. -/
theorem good_same (h : Sound s.bonds) {p : Progress N V} (hbonds : p.system.bonds = s.bonds)
    (htasks : ∀ task ∈ p.tasks, ∀ r : Relations N, SoundTask r task) (hcalls : p.calls = []) :
    Good s p where
  bonds := hbonds ▸ h
  grows := by
    rw [show p.system.toRelations = s.toRelations from congrArg Bonds.toRelations hbonds]
    exact .refl _
  tasks := fun task htask => htasks task htask _
  calls := fun call hcall => absurd (hcalls ▸ hcall) List.not_mem_nil

theorem good_throws {s' : ActorSystem N V} (h : Sound s'.bonds)
    (hgrows : LinksGrow s.toRelations s'.toRelations) : Good s s'.throws :=
  ⟨h, hgrows, fun _ htask => absurd htask List.not_mem_nil,
    fun _ hcall => absurd hcall List.not_mem_nil⟩

theorem good_announce {s' : ActorSystem N V} (h : Sound s'.bonds)
    (hgrows : LinksGrow s.toRelations s'.toRelations) (r : ActorRef N)
    (reason : TerminationReason) {next : Task N V}
    (hnext : ∀ r : Relations N, SoundTask r next) :
    Good s (s'.announce callbacks r reason next) := by
  have hp : Prunes s'.actors s'.toRelations
      (s'.toRelations.notifyWatchers s'.actors callbacks r reason).1 :=
    prunes_notifyWatchers h.agree.watches r reason
  have hk := h.agree.prunes hp
  obtain ⟨hs, hg⟩ := sound_keeps h hk
  unfold ActorSystem.announce
  dsimp only
  split_ifs
  · exact good_throws hs (hgrows.trans hg)
  · refine good_proceed hs (hgrows.trans hg) fun task htask => ?_
    rcases List.mem_cons.1 htask with rfl | htask
    · exact fun l hl => hs.agree.concerns hl
    · rw [List.mem_singleton.1 htask]
      exact hnext _

end

theorem good_leave (h : Sound s.bonds) (r : ActorRef N) : Good s (s.leave callbacks r) := by
  obtain ⟨hs, hg⟩ := sound_keeps h
    (h.agree.prunes (prunes_unwatchAll h.agree.watches r.id))
  exact good_announce (sound_detach r hs) hg r .normal fun _ => trivial

theorem good_leaveSingle (h : Sound s.bonds) (r : ActorRef N) : Good s (s.leaveSingle r) := by
  have hunwatch := h.agree.prunes (prunes_unwatchAll h.agree.watches r.id)
  obtain ⟨hs, hg⟩ := sound_keeps h (hunwatch.trans (hunwatch.agree.unlinkAll r.id))
  have hs' := sound_detach r hs
  refine ⟨hs', hg, fun task htask => ?_, fun _ hcall => absurd hcall List.not_mem_nil⟩
  rw [List.mem_singleton.1 htask]
  trivial

section
omit [DecidableEq N]

theorem good_tellNext (h : Sound s.bonds) {r : ActorRef N} (reason : TerminationReason)
    {rest : List RefId} (hrest : ∀ l ∈ rest, s.Concerns r.id l) :
    Good s (s.tellNext callbacks r reason rest) := by
  cases rest with
  | nil => exact good_proceed h (.refl _) fun _ htask => absurd htask List.not_mem_nil
  | cons l rest =>
      have hk : Keeps s.actors s.toRelations
          (s.toRelations.tellLinked s.actors callbacks r reason l).relations :=
        h.agree.tellLinked r reason (hrest l (by simp))
      obtain ⟨hs, hg⟩ := sound_keeps h hk
      unfold ActorSystem.tellNext
      dsimp only
      split_ifs
      · exact good_throws hs hg
      · refine ⟨hs, hg, fun task htask => ?_, fun call hcall task htask => ?_⟩
        · rw [List.mem_singleton.1 htask]
          exact fun l' hl' => hg.concerns (hrest l' (by simp [hl']))
        · obtain ⟨crash, -, rfl⟩ := List.mem_map.1 hcall
          rw [List.mem_singleton.1 htask]
          trivial

theorem good_migrated (h : Sound s.bonds) (id : ActorId) (move : Move N) :
    Good s (s.migrated callbacks id move) := by
  have hp : Prunes s.actors s.toRelations
      (s.toRelations.notifyWatchersOfMigration s.actors callbacks id move).1 :=
    prunes_notifyWatchersOfMigration h.agree.watches id move
  have hwatchers := h.agree.prunes hp
  have hlinked : Keeps s.actors _ (((s.toRelations.notifyWatchersOfMigration s.actors callbacks id
      move).1).notifyLinkedActorsOfMigration s.actors callbacks id move).1 :=
    hwatchers.agree.notifyLinkedActorsOfMigration id move
  obtain ⟨hs₁, hg₁⟩ := sound_keeps h hwatchers
  obtain ⟨hs₂, hg₂⟩ := sound_keeps h (hwatchers.trans hlinked)
  unfold ActorSystem.migrated
  dsimp only
  split_ifs
  · exact good_throws hs₁ hg₁
  · exact good_throws hs₂ hg₂
  · exact good_proceed (sound_remove hs₂ id) hg₂ fun _ htask => absurd htask List.not_mem_nil

theorem good_closeAll (h : Sound s.bonds) : Good s s.closeAll := by
  refine ⟨h, .refl _, fun _ htask => absurd htask List.not_mem_nil, fun call hcall task htask => ?_⟩
  obtain ⟨id, -, rfl⟩ := List.mem_map.1 hcall
  split_ifs at htask
  · rw [List.mem_singleton.1 htask]
    trivial
  · rw [List.mem_singleton.1 htask]
    trivial

theorem good_crashes (h : Sound s.bonds) {r : ActorRef N} {p : Progress N V}
    (hp : Crashes callbacks s r p) : Good s p := by
  cases hp with
  | announced supervisor childSupervisor reason exhausted =>
      have hs : Sound { s with
        supervisor := supervisor, childSupervisor := childSupervisor }.bonds := h
      have hgrows : LinksGrow s.toRelations { s with
        supervisor := supervisor, childSupervisor := childSupervisor }.toRelations := .refl _
      exact good_announce hs hgrows r reason fun _ => trivial
  | started supervisor childSupervisor htasks =>
      exact good_same h rfl (fun task htask _ => soundTask_fresh (htasks task htask)) rfl

end

theorem good_does (h : Sound s.bonds) {response : Response} {task : Task N V}
    (htask : SoundTask s.toRelations task) {p : Progress N V}
    (hp : Does callbacks s response task p) : Good s p := by
  have hone : ∀ next : Task N V, (∀ r : Relations N, SoundTask r next) →
      ∀ task ∈ [next], ∀ r : Relations N, SoundTask r task := fun next hnext task hmem =>
    List.mem_singleton.1 hmem ▸ hnext
  cases hp with
  | ends => exact good_same h rfl (fun _ hmem => absurd hmem List.not_mem_nil) rfl
  | @descends _ r c rest _ =>
      refine good_same h rfl (fun task hmem => ?_) rfl
      rcases List.mem_cons.1 hmem with rfl | hmem
      · exact fun _ => soundTask_fresh (fresh_stopFrame _ _)
      · exact hone (.tree (.children r rest)) (fun _ => trivial) task hmem
  | leaves _ => exact good_leave h _
  | leavesSingle _ => exact good_leaveSingle h _
  | @unregisters r =>
      exact good_same h rfl (hone (.tree (.unregistering r)) fun _ => trivial) rfl
  | @terminates _ r _ =>
      exact good_same h rfl (hone (.tree (.terminating r)) fun _ => trivial) rfl
  | @removes _ id _ =>
      have hs := sound_remove h id
      have hgrows : LinksGrow s.toRelations (s.remove id).toRelations := .refl _
      exact good_proceed hs hgrows fun _ hmem => absurd hmem List.not_mem_nil
  | @frame f _ =>
      obtain ⟨hs, hg⟩ := sound_adopt h
        (renews_resumes (resumeFrame_cases s.toTables response f))
      refine good_proceed hs hg fun task hmem => ?_
      obtain ⟨frame, -, rfl⟩ := List.mem_map.1 hmem
      trivial
  | crashed hcrash => exact good_crashes h hcrash
  | told => exact good_tellNext h _ htask
  | @stopsFor r _ supervisor =>
      exact good_same h rfl (hone (.tree (.stop r)) fun _ => trivial) rfl
  | migrated => exact good_migrated h _ _
  | closesAll => exact good_closeAll h
  | @closes id => exact good_same h rfl (hone (.closeTerminating id) fun _ => trivial) rfl

end

/-! ## Steps -/

namespace SoundSystem

variable {s s' : ActorSystem N V}

section
omit [DecidableEq N]

/-- The calls stay as they are, or new ones begin. -/
theorem of_op (h : SoundSystem s) (hs : Sound s'.bonds)
    (hgrows : LinksGrow s.toRelations s'.toRelations)
    (hcalls : ∀ call ∈ s'.calls, call ∈ s.calls ∨ ∀ task ∈ call, Fresh task) :
    SoundSystem s' where
  bonds := hs
  tasks := by
    intro call hcall task htask
    rcases hcalls call hcall with hold | hnew
    · exact (h.tasks call hold task htask).mono hgrows
    · exact soundTask_fresh (hnew task htask)

/-- The relations change, and nothing else. -/
theorem keeps (h : SoundSystem s) {r : Relations N} (hk : Keeps s.actors s.toRelations r) :
    SoundSystem { s with toRelations := r } :=
  h.of_op (sound_keeps h.bonds hk).1 (.of_keeps hk) fun _ hcall => .inl hcall

theorem prunes (h : SoundSystem s) {r : Relations N} (hp : Prunes s.actors s.toRelations r) :
    SoundSystem { s with toRelations := r } := h.keeps (h.bonds.agree.prunes hp)

/-- Instances come and go, and nothing else happens. -/
theorem adopt (h : SoundSystem s) {tables : Tables N V} (ht : Renews s.toTables tables) :
    SoundSystem (s.adopt tables) := by
  obtain ⟨hs, hg⟩ := sound_adopt h.bonds ht
  refine h.of_op hs hg fun call hcall => .inl ?_
  unfold ActorSystem.adopt at hcall
  split_ifs at hcall <;> exact hcall

theorem invoke (h : SoundSystem s) {tasks : List (Task N V)} (htasks : ∀ task ∈ tasks, Fresh task) :
    SoundSystem (s.invoke tasks) := by
  refine h.of_op h.bonds (.refl _) fun call hcall => ?_
  unfold ActorSystem.invoke at hcall
  dsimp only at hcall
  split_ifs at hcall
  · exact .inl hcall
  · refine (List.mem_append.1 hcall).imp_right fun hnew => ?_
    rw [List.mem_singleton.1 hnew]
    exact htasks

theorem invokeOne (h : SoundSystem s) {task : Task N V} (htask : Fresh task) :
    SoundSystem (s.invoke [task]) :=
  h.invoke fun _ hmem => List.mem_singleton.1 hmem ▸ htask

theorem carryOn (h : SoundSystem s) {index : Nat} {task : Task N V} {outer : List (Task N V)}
    (hcall : s.calls[index]? = some (task :: outer)) {p : Progress N V} (hp : Good s p)
    (hcalls : p.system.calls = s.calls) : SoundSystem (ActorSystem.carryOn index outer p) := by
  refine ⟨hp.bonds, fun call hmem task' htask' => ?_⟩
  have hold : ∀ c ∈ s.calls, ∀ t ∈ c, SoundTask p.system.toRelations t := fun c hc t ht =>
    (h.tasks c hc t ht).mono hp.grows
  rcases mem_carryOn hcalls hmem with ⟨-, rfl⟩ | hmem | hmem
  · rcases List.mem_append.1 htask' with hnew | houter
    · exact hp.tasks task' hnew
    · exact hold _ (List.mem_of_getElem? hcall) task' (List.mem_cons_of_mem _ houter)
  · exact hold call hmem task' htask'
  · exact hp.calls call hmem task' htask'

/-- An exit is passed on, or the linked actor crashes. -/
theorem told (h : SoundSystem s) {told : Relations.Told N}
    (hk : Keeps s.actors s.toRelations told.relations) :
    SoundSystem { s with
      toRelations := told.relations
      calls := s.calls ++ told.crash.toList.map fun crash => [.crash crash.1 crash.2] } := by
  refine h.of_op (sound_keeps h.bonds hk).1 (.of_keeps hk) fun call hcall => ?_
  refine (List.mem_append.1 hcall).imp_right fun hnew => ?_
  obtain ⟨crash, -, rfl⟩ := List.mem_map.1 hnew
  intro task htask
  rw [List.mem_singleton.1 htask]
  exact ⟨rfl, nofun⟩

end

theorem resumes (h : SoundSystem s) {index : Nat} {response : Response} {now : Nat}
    (hst : s.resumes callbacks stringify index response now = some s') : SoundSystem s' := by
  unfold ActorSystem.resumes at hst
  split at hst
  next task outer hcall =>
    cases hst
    have hdoes : Does callbacks s response task
        (s.resumeTask callbacks stringify response now task) :=
      resumeTask_cases s response now task
    have htask := h.tasks _ (List.mem_of_getElem? hcall) task (by simp)
    exact h.carryOn hcall (good_does h.bonds htask hdoes) (calls_does hdoes)
  next => cases hst

omit [DecidableEq N] in
theorem rejects (h : SoundSystem s) {index : Nat} (hst : s.rejects index = some s') :
    SoundSystem s' := by
  have hthrows : Good s s.throws := good_throws h.bonds (.refl _)
  unfold ActorSystem.rejects at hst
  split at hst
  next hcall => cases hst; exact h.carryOn hcall hthrows rfl
  next hcall => cases hst; exact h.carryOn hcall hthrows rfl
  next hcall => cases hst; exact h.carryOn hcall hthrows rfl
  next id outer hcall =>
    cases hst
    refine h.carryOn hcall (good_same h.bonds rfl (fun task htask r => ?_) rfl) rfl
    rw [List.mem_singleton.1 htask]
    trivial
  next id outer hcall =>
    cases hst
    have hs := sound_remove h.bonds id
    have hgrows : LinksGrow s.toRelations (s.remove id).toRelations := .refl _
    exact h.carryOn hcall
      (good_proceed hs hgrows fun _ hmem => absurd hmem List.not_mem_nil) rfl
  next => cases hst

theorem link (h : SoundSystem s) (actor1Ref actor2Ref : ActorRef N) :
    SoundSystem { s with
      toRelations := s.toRelations.link s.actors s.id actor1Ref actor2Ref } := by
  refine h.of_op (h.bonds.link actor1Ref actor2Ref) ?_ fun _ hcall => .inl hcall
  have hold : ∀ (new : LinkRef) l ref, s.linkRefs l = some ref →
      Function.update s.linkRefs s.nextRef (some new) l = some ref := fun new l ref hl =>
    (Function.update_of_ne (Nat.ne_of_lt (h.bonds.agree.links.made l ref hl).2) ..).trans hl
  dsimp only [Relations.link]
  split_ifs
  · exact ⟨hold _, fun _ hl => hl⟩
  · exact ⟨hold _, fun _ hl => List.mem_append_left _ hl⟩
  · exact .refl _
  · exact .refl _

theorem watch (h : SoundSystem s) {watcherRef : ActorRef N} (hlt : watcherRef.id < s.nextId)
    (watchedRef : ActorRef N) :
    SoundSystem { s with
      toRelations :=
        (s.toRelations.watch s.actors callbacks s.id watcherRef watchedRef).1 } := by
  refine h.of_op (h.bonds.watch hlt watchedRef) ?_ fun _ hcall => .inl hcall
  dsimp only [Relations.watch]
  split_ifs
  · exact .of_eq (setupRemoteWatch_kept _ _ _).linkRefs (setupRemoteWatch_kept _ _ _).localLinks
  · have hkept : LinksKept s.toRelations
        (s.toRelations.establishWatch s.actors watcherRef watchedRef) :=
      establishWatch_kept s.toRelations watcherRef watchedRef
    have hgrows := LinksGrow.of_eq hkept.linkRefs hkept.localLinks
    dsimp only [Relations.watchLocal]
    split_ifs
    · exact hgrows
    · have hp : Prunes s.actors (s.toRelations.establishWatch s.actors watcherRef watchedRef)
          ((s.toRelations.establishWatch s.actors watcherRef watchedRef).sendDownMessage s.actors
            callbacks ⟨s.nextRef, watcherRef.id, watchedRef.id⟩ watchedRef .normal).1 :=
        prunes_sendDownMessage
          (agree_establishWatch h.bonds.agree.watches watcherRef watchedRef) _ _ _
      exact hgrows.trans (.of_eq hp.links.linkRefs hp.links.localLinks)

theorem handleRemoteChildCrash (h : SoundSystem s) (childInstanceId : ActorId) (now : Nat) :
    SoundSystem (s.handleRemoteChildCrash stringify childInstanceId now) := by
  unfold ActorSystem.handleRemoteChildCrash
  split
  · exact h
  next e _ =>
    have hcounted : ∀ childSupervisor,
        SoundSystem { s with childSupervisor := childSupervisor } := fun _ =>
      h.of_op h.bonds (.refl _) fun _ hcall => .inl hcall
    dsimp only
    split_ifs
    · exact (hcounted _).invoke (fresh_strategyForRemote s e)
    · have hrenews := renews_removeRemoteChild s.toTables childInstanceId e.parentRef
      have hactors := RestartFrames.actors_removeRemoteChild (t := s.toTables) childInstanceId
        e.parentRef
      refine h.of_op ?_ (.refl _) fun _ hcall => .inl hcall
      unfold ActorSystem.bonds
      rw [hrenews.id]
      exact sound_mono h.bonds hactors.subset hrenews.nextId
    · exact h

omit [DecidableEq N] in
theorem sendExit (h : SoundSystem s) (senderRef targetRef : ActorRef N) (reason : String) :
    SoundSystem (s.sendExit callbacks senderRef targetRef reason) := by
  unfold ActorSystem.sendExit
  split_ifs
  · exact h
  · exact h.invokeOne ⟨rfl, nofun⟩
  · exact h.prunes (prunes_inform h.bonds.agree.watches _ _)
  · exact h.invokeOne ⟨rfl, nofun⟩

theorem step (h : SoundSystem s) {a : SystemAction N V}
    (hst : s.step callbacks stringify a = some s') : SoundSystem s' := by
  have hwatches := h.bonds.agree.watches
  cases a with
  | spawn actorClass options =>
      simp only [ActorSystem.step] at hst
      split_ifs at hst
      · cases hst; exact h
      · cases hst
        exact h.adopt (renews_register s.toTables _ none)
  | acceptChild actorClass options =>
      cases hst
      have hs := h.adopt (renews_register s.toTables ⟨actorClass, options, none⟩ none)
      exact hs.of_op hs.bonds (.refl _) fun _ hcall => .inl hcall
  | spawnChild p actorClass options =>
      simp only [ActorSystem.step] at hst
      split_ifs at hst
      · cases hst; exact h
      · cases hst
        exact h.adopt (renews_spawnChild s.toTables _ _ _ none)
  | spawnChildRemote p actorClass node options =>
      simp only [ActorSystem.step] at hst
      split_ifs at hst
      · cases hst; exact h
      · cases hst; exact h.invokeOne ⟨rfl, by rintro _ _ _ ⟨⟩⟩
  | mailbox id mailbox =>
      simp only [ActorSystem.step] at hst
      split_ifs at hst
      cases hst
      exact h.of_op h.bonds (.refl _) fun _ hcall => .inl hcall
  | setTrapExit id trap =>
      cases hst
      refine h.of_op ?_ (.of_eq rfl rfl) fun _ hcall => .inl hcall
      have hstep : s.bonds.step callbacks (.setTrapExit id trap) = some
          { s.bonds with trapExit := Function.update s.trapExit id trap } := rfl
      exact h.bonds.step hstep
  | watch watcherRef watchedRef =>
      simp only [ActorSystem.step] at hst
      split_ifs at hst with hlt
      cases hst
      exact h.watch hlt.1 watchedRef
  | unwatch w => cases hst; exact h.prunes (prunes_cancel hwatches w)
  | link actor1Ref actor2Ref => cases hst; exact h.link actor1Ref actor2Ref
  | unlink l =>
      obtain ⟨ref, href, rfl⟩ := Option.map_eq_some_iff.1 hst
      refine h.keeps (h.bonds.agree.unlink ?_)
      rw [(h.bonds.agree.links.made l ref href).1]
      exact href
  | stop | crash | migrate =>
      simp only [ActorSystem.step] at hst
      split_ifs at hst
      cases hst
      exact h.invokeOne ⟨rfl, by rintro _ _ _ ⟨⟩⟩
  | childStop r =>
      simp only [ActorSystem.step] at hst
      split_ifs at hst
      cases hst
      have hs : SoundSystem { s with remoteParents := s.remoteParents.erase r.id } :=
        h.of_op h.bonds (.refl _) fun _ hcall => .inl hcall
      exact hs.invokeOne ⟨rfl, by rintro _ _ _ ⟨⟩⟩
  | restart r =>
      simp only [ActorSystem.step] at hst
      split_ifs at hst
      cases hst
      exact h.invoke (fresh_restart s r)
  | stopRemoteChild x => cases hst; exact h.invokeOne ⟨rfl, by rintro _ _ _ ⟨⟩⟩
  | restartRemoteChild x =>
      obtain ⟨e, -, rfl⟩ := Option.map_eq_some_iff.1 hst
      exact h.invokeOne ⟨rfl, by rintro _ _ _ ⟨⟩⟩
  | removeRemoteChild x p =>
      cases hst
      have hrenews := renews_removeRemoteChild s.toTables x p
      have hactors := RestartFrames.actors_removeRemoteChild (t := s.toTables) x p
      refine h.of_op ?_ (.refl _) fun _ hcall => .inl hcall
      unfold ActorSystem.bonds
      rw [hrenews.id]
      exact sound_mono h.bonds hactors.subset hrenews.nextId
  | remoteCrash x now => cases hst; exact h.handleRemoteChildCrash x now
  | sendExit senderRef targetRef reason =>
      cases hst
      exact h.sendExit senderRef targetRef reason
  | drain =>
      cases hst
      exact h.of_op h.bonds (.refl _) fun _ hcall => .inl hcall
  | shutdown =>
      simp only [ActorSystem.step] at hst
      split_ifs at hst
      · cases hst; exact h
      · cases hst
        have hs : SoundSystem { s with isShuttingDown := true } :=
          h.of_op h.bonds (.refl _) fun _ hcall => .inl hcall
        exact hs.invokeOne ⟨rfl, by rintro _ _ _ ⟨⟩⟩
  | watchDown w id reason =>
      cases hst
      exact h.prunes (prunes_handleRemoteDown hwatches w id reason)
  | watchMoved w move => cases hst; exact h.prunes (prunes_handleRemoteWatcherMoved hwatches w move)
  | failWatches node =>
      cases hst
      exact h.prunes (prunes_handleNodeFailureForWatches hwatches node)
  | linkExit l id reason =>
      cases hst
      exact h.told (h.bonds.agree.handleRemoteLinkExit l id reason)
  | linkMoved l move =>
      cases hst
      exact h.keeps (h.bonds.agree.handleRemoteLinkMoved l move)
  | resumes index response now => exact h.resumes hst
  | rejects index => exact h.rejects hst

omit [DecidableEq N] in
theorem init (id : N) (childSupervision : ActorId → ChildSupervisionOptions)
    (supervisor : Supervisor) :
    SoundSystem (ActorSystem.init id childSupervision supervisor : ActorSystem N V) :=
  ⟨Sound.init id, fun _ hcall => absurd hcall List.not_mem_nil⟩

theorem run {id : N} {childSupervision : ActorId → ChildSupervisionOptions}
    {supervisor : Supervisor} {as : List (SystemAction N V)}
    (hrun : run (ActorSystem.step callbacks stringify) (.init id childSupervision supervisor) as =
      some s) : SoundSystem s :=
  run_invariant' (fun _ _ _ h hst => h.step hst) (init id childSupervision supervisor) hrun

end SoundSystem

/-! ## The indexes agree -/

/-- The indexes of watches and of links agree with the tables of the entries. -/
structure Indexed (s : ActorSystem N V) : Prop where
  watched : ∀ w a, w ∈ s.watchedBy.get a ↔
    ∃ e, s.watches w = some e ∧ e.watchRef.id = w ∧ e.watchRef.watchedId = a
  watching : ∀ a ∈ s.actors, ∀ w, (∃ ref ∈ s.contextWatches a, ref.id = w) ↔
    (∃ e, s.watches w = some e ∧ e.watchRef.watcherId = a) ∨
      ∃ e ∈ s.remoteWatches, e.watchRef.id = w ∧ e.watchRef.watcherId = a
  /-- Every entry is one of a local link. -/
  entered : ∀ l e, s.links l = some e → l ∈ s.localLinks ∧ s.linkRefs l = some e.linkRef
  linked : ∀ l ∈ s.localLinks, ∀ ref, s.linkRefs l = some ref → ∀ a, Ends ref a →
    ((s.links l).isSome ↔ l ∈ s.linkedWith.get a)
  linking : ∀ l ∈ s.localLinks, ∀ ref, s.linkRefs l = some ref → ∀ a ∈ s.actors, Ends ref a →
    ((s.links l).isSome ↔ ∃ ref' ∈ s.contextLinks a, ref'.id = l)
  watchedTidy : s.watchedBy.Tidy
  linkedTidy : s.linkedWith.Tidy

omit [DecidableEq N] in
/-- A local link is entered, with its reference, or is in no index. -/
theorem isSome_links {s : ActorSystem N V} (h : LinksAgree s.actors s.toRelations) {l : RefId}
    {ref : LinkRef} (href : s.linkRefs l = some ref) :
    (s.links l).isSome ↔ Linked s.toRelations ref := by
  have hid := (h.made l ref href).1
  unfold Linked
  rw [hid]
  constructor
  · intro hsome
    obtain ⟨e, he⟩ := Option.isSome_iff_exists.1 hsome
    have hmade := (h.entry l e he).1
    rw [href, Option.some.injEq] at hmade
    exact ⟨e, he, hmade.symm⟩
  · rintro ⟨e, he, -⟩
    exact Option.isSome_iff_exists.2 ⟨e, he⟩

omit [DecidableEq N] in
theorem SoundSystem.indexed {s : ActorSystem N V} (h : SoundSystem s) : Indexed s := by
  have hw : WatchesAgree s.actors s.toRelations := h.bonds.agree.watches
  have hl : LinksAgree s.actors s.toRelations := h.bonds.agree.links
  refine ⟨fun w a => ?_, fun a ha w => ?_, fun l e he => ?_, fun l hlocal ref href a hends => ?_,
    fun l hlocal ref href a ha hends => ?_, hw.tidy, hl.tidy⟩
  · rw [hw.index]
    exact exists_congr fun e => and_congr_right fun he => by
      rw [and_iff_right (hw.id_of_watches he)]
  · constructor
    · rintro ⟨ref, href, rfl⟩
      obtain ⟨hheld, hwatcher⟩ := (hw.context a ha ref).1 href
      rcases hheld with ⟨e, he, rfl⟩ | ⟨e, he, rfl⟩
      · exact .inl ⟨e, he, hwatcher⟩
      · exact .inr ⟨e, he, rfl, hwatcher⟩
    · rintro (⟨e, he, hwatcher⟩ | ⟨e, he, rfl, hwatcher⟩)
      · have hid := hw.id_of_watches he
        exact ⟨e.watchRef, (hw.context a ha _).2 ⟨.inl ⟨e, hid ▸ he, rfl⟩, hwatcher⟩, hid⟩
      · exact ⟨e.watchRef, (hw.context a ha _).2 ⟨.inr ⟨e, he, rfl⟩, hwatcher⟩, rfl⟩
  · exact ⟨(hl.entry l e he).2.1, (hl.entry l e he).1⟩
  · rw [isSome_links hl href, hl.index]
    have hid := (hl.made l ref href).1
    constructor
    · rintro ⟨e, he, rfl⟩
      exact .inl ⟨e, hid ▸ he, hends⟩
    · rintro (⟨e, he, -⟩ | ⟨e, he, rfl, -⟩)
      · exact (isSome_links hl href).1 (Option.isSome_iff_exists.2 ⟨e, he⟩)
      · exact absurd hlocal (hl.remote e he).2.1
  · rw [isSome_links hl href]
    have hid := (hl.made l ref href).1
    constructor
    · intro hentry
      exact ⟨ref, (hl.context a ha ref (hid.symm ▸ hlocal)).2 ⟨hentry, hends⟩, hid⟩
    · rintro ⟨ref', href', rfl⟩
      have hmade := hl.contextMade a ref' href'
      rw [href, Option.some.injEq] at hmade
      rw [hmade]
      exact ((hl.context a ha ref' hlocal).1 href').1

/-- The indexes of watches and links agree in every state that a node reaches. -/
theorem indexes_agree {id : N} {childSupervision : ActorId → ChildSupervisionOptions}
    {supervisor : Supervisor} {as : List (SystemAction N V)} {s : ActorSystem N V}
    (hrun : run (ActorSystem.step callbacks stringify) (.init id childSupervision supervisor) as =
      some s) : Indexed s := (SoundSystem.run hrun).indexed

/-- An actor links to itself and watches itself, and crashes. -/
def selfBound : List (SystemAction Nat Nat) :=
  [.spawn "Worker" {}, .link ⟨0, 0, none, 0⟩ ⟨0, 0, none, 0⟩,
    .watch ⟨0, 0, none, 0⟩ ⟨0, 0, none, 0⟩, .crash ⟨0, 0, none, 0⟩ "failed",
    .resumes 0 .success 0]

theorem indexes_agree_selfBound :
    ∃ s, run (ActorSystem.step ⟨fun _ _ => [], fun _ _ => false⟩ (fun _ : List Nat => ""))
        (.init 0 (fun _ => ⟨.oneForOne, 3, 1000⟩) (.new .Stop 3 1000)) selfBound = some s ∧
      Indexed s := by
  obtain ⟨s, hrun⟩ : ∃ s,
      run (ActorSystem.step ⟨fun _ _ => [], fun _ _ => false⟩ (fun _ : List Nat => ""))
        (.init 0 (fun _ => ⟨.oneForOne, 3, 1000⟩) (.new .Stop 3 1000)) selfBound = some s :=
    ⟨_, rfl⟩
  exact ⟨s, hrun, indexes_agree hrun⟩

end Libeam.Proofs.SystemSound
