import Libeam.Proofs.StopCascade
/-!
# No orphans

A live child that no stop has taken off the lists has its parent there.  `stop` sees to
that by taking the children along; a restart, the clean-up of a migration and a child
spawned while its parent is closing do not.  While none of these meets a child, and no
stop of a child is rejected half way, nobody is orphaned once all stops and restarts
have ended.
-/

namespace Libeam.Proofs.Orphans

open Libeam.System (ActorId Supervisor)
open Supervision Lib.Transition TreeSteps RestartFrames StopCascade

variable {N V : Type}

/-! ## Children on this node -/

/-- A live child of `q` that no stop has taken off its lists. -/
def HasChild (t : Tables N V) (q x : ActorId) : Prop :=
  x ∈ t.actors ∧ x ∉ t.detached ∧ ∃ m p, t.spawned x = some m ∧ m.parent = some p ∧ p.id = q

/-- The parent under which a suspended function spawns a child. -/
def adoptsUnder (t : Tables N V) (response : Response) : Frame N V → Option ActorId
  | .respawn _ m => m.parent.bind fun p =>
      if response = .success ∧ p.id ∈ t.actors then some p.id else none
  | .strategy p [] _ (.onNode _ _ :: _) =>
      if p.id ∈ t.actors ∧ response = .success then some p.id else none
  | _ => none

/-- The parent under which a step spawns a child. -/
def adopts (t : Tree N V) : TreeAction N V → Option ActorId
  | .spawnChild p _ _ => if p.id ∈ t.actors then some p.id else none
  | .resumes index response =>
      match t.calls[index]? with
      | some (f :: _) => adoptsUnder t.toTables response f
      | _ => none
  | _ => none

/-- Is the function part of a stop or a restart? -/
def stopsOrRestarts : Frame N V → Bool
  | .stop _ | .children _ _ | .stopSingle _ | .unregistering _ | .terminating _ => true
  | .respawn _ _ | .strategy _ _ _ _ => true
  | _ => false

/-- No stop or restart is in progress. -/
def Quiet (t : Tree N V) : Prop := ∀ call ∈ t.calls, ∀ f ∈ call, stopsOrRestarts f = false

/-- At quiescence every live actor with a parent on this node has that parent live and
is listed exactly once among its children. -/
def NoOrphans (t : Tree N V) : Prop :=
  Quiet t → ∀ x ∈ t.actors, ∀ p, t.parentOf x = some p → p.id ∈ t.actors ∧
    ((t.context p.id).children.map (·.id)).count x = 1 ∧
    ((t.context p.id).childOrder.map (·.id)).count x = 1

/-- No child is spawned under an actor whose stop has looked up its children; no actor
with a child is stopped by a restart or cleaned up by a migration; no stop of a child is
rejected after it has taken the child off the lists. -/
structure OrphanGuard (t : Tree N V) (a : TreeAction N V) : Prop where
  adopts : ∀ q, adopts t a = some q → ¬ Closing t.calls q
  restart : ∀ index response r outer, a = .resumes index response →
    t.calls[index]? = some (.stopSingle r :: outer) → r.id ∈ t.actors →
    ∀ x, ¬ HasChild t.toTables r.id x
  migrate : ∀ index q outer, a = .resumes index .success →
    t.calls[index]? = some (.migrating q :: outer) → ∀ x, ¬ HasChild t.toTables q x
  reject : ∀ index f outer x, a = .rejects index → t.calls[index]? = some (f :: outer) →
    leaves f = some x → t.parentOf x = none

/-! ## Steps -/

section
variable {t : Tables N V}

theorem hasChild_register {m : ActorMetadata N V} {first : Option ActorId}
    {q x : ActorId} (h : HasChild (t.register m first) q x) :
    HasChild t q x ∨ ∃ p, m.parent = some p ∧ p.id = q := by
  obtain ⟨hlive, hdetached, mx, p, hmx, hp, hq⟩ := h
  by_cases hnew : x = t.nextId
  · subst hnew
    rw [show (t.register m first).spawned t.nextId = some m from Function.update_self _ _ _] at hmx
    cases hmx
    exact .inr ⟨p, hp, hq⟩
  · rw [show (t.register m first).spawned x = t.spawned x from Function.update_of_ne hnew _ _]
      at hmx
    exact .inl ⟨(Finset.mem_insert.1 hlive).resolve_left hnew, hdetached, mx, p, hmx, hp, hq⟩

theorem hasChild_spawnChild {p : ActorRef N} {actorClass : String} {options : SpawnOptions V}
    {first : Option ActorId} {q x : ActorId}
    (h : HasChild (t.spawnChild p actorClass options first) q x) :
    HasChild t q x ∨ p.id ∈ t.actors ∧ p.id = q := by
  unfold Tables.spawnChild at h
  split_ifs at h with hp
  · have h' : HasChild (t.register ⟨actorClass, options, some p⟩ first) q x := h
    rcases hasChild_register h' with hold | ⟨r, hr, hq⟩
    · exact .inl hold
    · cases hr
      exact .inr ⟨hp, hq⟩
  · exact .inl h

/-- Tables in which nobody is new and nobody has come back to the lists. -/
theorem HasChild.of_same {t' : Tables N V} {q x : ActorId} (h : HasChild t' q x)
    (hactors : ∀ y ∈ t'.actors, y ∈ t.actors) (hdetached : ∀ y ∈ t.detached, y ∈ t'.detached)
    (hspawned : t'.spawned = t.spawned) : HasChild t q x := by
  obtain ⟨hlive, hnot, m, p, hm, hp, hq⟩ := h
  exact ⟨hactors x hlive, fun hin => hnot (hdetached x hin), m, p, hspawned ▸ hm, hp, hq⟩

variable [DecidableEq N]

theorem spawned_dropRemoteChild (c p : ActorRef N) :
    (t.dropRemoteChild c p).spawned = t.spawned := by
  unfold Tables.dropRemoteChild
  split_ifs <;> rfl

theorem spawned_replaceRemoteChild (e : RemoteChildEntry N V) :
    (t.replaceRemoteChild e).spawned = t.spawned := by
  unfold Tables.replaceRemoteChild
  dsimp only
  split_ifs <;> rfl

/-- A child that is new is one that the function spawns. -/
theorem hasChild_resumes {response : Response} {f : Frame N V} {tables : Tables N V}
    {frames : List (Frame N V)} (hresumes : Resumes t response f tables frames)
    {q x : ActorId} (h : HasChild tables q x) :
    HasChild t q x ∨ adoptsUnder t response f = some q := by
  cases hresumes with
  | ends | descends | unregistered | stops | requests | requestsStop => exact .inl h
  | @leaves _ r hf =>
      refine .inl (h.of_same (fun y hy => detach_actors t r ▸ hy) (fun y hy => ?_)
        (detach_spawned t r))
      rw [detach_detached]
      exact Finset.mem_insert_of_mem hy
  | removed hf =>
      exact .inl (h.of_same (fun y hy => Finset.mem_of_mem_erase hy) (fun _ hy => hy) rfl)
  | spawned hsuccess hm =>
      rcases hasChild_register h with hold | ⟨p, hp, -⟩
      · exact .inl hold
      · cases hp
  | @childSpawned _ y m _ p hp hsuccess hf =>
      rcases hasChild_spawnChild h with hold | ⟨-, rfl⟩
      · exact .inl hold
      · refine .inr ?_
        rcases hf with ⟨rfl, hparent, -⟩ | ⟨remote, plan, rfl, -⟩
        · dsimp only [adoptsUnder]
          rw [hparent, Option.bind_some, if_pos ⟨hsuccess, hp⟩]
        · exact if_pos ⟨hp, hsuccess⟩
  | forgot | added => exact .inl (h.of_same (fun _ hy => hy) (fun _ hy => hy) rfl)
  | @dropped e hresponse =>
      exact .inl (h.of_same (fun y hy => actors_dropRemoteChild e.childRef e.parentRef ▸ hy)
        (fun y hy => (detached_dropRemoteChild e.childRef e.parentRef).symm ▸ hy)
        (spawned_dropRemoteChild _ _))
  | @replaced e hsuccess =>
      exact .inl (h.of_same (fun y hy => actors_replaceRemoteChild e ▸ hy)
        (fun y hy => (detached_replaceRemoteChild e).symm ▸ hy) (spawned_replaceRemoteChild e))

/-- A stop that goes on has the same duty as before, until the actor is gone. -/
theorem duty_resumes {response : Response} {f : Frame N V} {tables : Tables N V}
    {frames : List (Frame N V)} (hresumes : Resumes t response f tables frames) {x : ActorId}
    (hx : stopping f = some x) (hlive : x ∈ tables.actors) :
    lastDuty stopping none frames = some x := by
  cases hresumes with
  | ends hf =>
      cases f with
      | stop | stopSingle =>
          cases hx
          exact absurd hlive hf
      | children | unregistering | terminating => exact hf.elim
      | _ => cases hx
  | descends hf =>
      rcases hf with ⟨rfl, -, -⟩ | rfl
      · exact hx
      · exact hx
  | @leaves _ r hf =>
      have hr : x = r.id := by
        rcases hf with ⟨rfl, -, -⟩ | rfl | ⟨rfl, -⟩ <;> exact (Option.some.inj hx).symm
      unfold Tables.leave
      dsimp only
      rw [hr]
      split_ifs <;> rfl
  | unregistered => exact hx
  | removed hf =>
      rcases hf with ⟨r, rfl, rfl⟩ | ⟨rfl, -⟩
      · cases hx
        exact absurd rfl (Finset.ne_of_mem_erase hlive)
      · cases hx
  | spawned | stops | requests | requestsStop | dropped | replaced | added => cases hx
  | childSpawned hp hsuccess hf =>
      rcases hf with ⟨rfl, -, -⟩ | ⟨remote, plan, rfl, -⟩ <;> cases hx
  | forgot hf => rcases hf with ⟨rfl, -⟩ | ⟨rfl, -⟩ <;> cases hx

end

section
variable [DecidableEq N] {t : Tree N V}

theorem hasChild_steps {a : TreeAction N V} {tables : Tables N V}
    {calls : List (List (Frame N V))} (hsteps : Steps t a tables calls) {q x : ActorId}
    (h : HasChild tables q x) : HasChild t.toTables q x ∨ adopts t a = some q := by
  cases hsteps with
  | idle | invoked | rejected => exact .inl h
  | spawned ha =>
      rcases hasChild_register h with hold | ⟨p, hp, -⟩
      · exact .inl hold
      · cases hp
  | childSpawned =>
      rcases hasChild_spawnChild h with hold | ⟨hp, rfl⟩
      · exact .inl hold
      · exact .inr (if_pos hp)
  | @removedRemote _ y p ha =>
      refine .inl (h.of_same (fun z hz => actors_removeRemoteChild y p ▸ hz)
        (fun z hz => (detached_removeRemoteChild y p).symm ▸ hz) ?_)
      unfold Tables.removeRemoteChild
      split
      · rfl
      · exact spawned_dropRemoteChild _ _
  | @resumed index response f outer hcall =>
      refine (hasChild_resumes (resumeFrame_cases _ _ _) h).imp_right fun hadopts => ?_
      unfold adopts
      dsimp only
      rw [hcall]
      exact hadopts

omit [DecidableEq N] in
theorem adopts_live {a : TreeAction N V} {q : ActorId} (h : adopts t a = some q) :
    q ∈ t.actors := by
  have hunder : ∀ response f, adoptsUnder t.toTables response f = some q → q ∈ t.actors := by
    intro response f hf
    unfold adoptsUnder at hf
    split at hf
    · obtain ⟨p, -, hp⟩ := Option.bind_eq_some_iff.1 hf
      split_ifs at hp with hboth
      cases hp
      exact hboth.2
    · split_ifs at hf with hboth
      cases hf
      exact hboth.1
    · cases hf
  unfold adopts at h
  split at h
  · split_ifs at h with hp
    cases h
    exact hp
  · split at h
    · exact hunder _ _ h
    · cases h
  · cases h

/-- The children of this node are stopped as `stop` wants it. -/
theorem pays_hasChild (h : SoundTree t) {a : TreeAction N V} (hguard : OrphanGuard t a)
    {tables : Tables N V} {calls : List (List (Frame N V))} (hsteps : Steps t a tables calls) :
    Pays stopping HasChild t a tables where
  grow := fun q hclosing x hx =>
    (hasChild_steps hsteps hx).resolve_right fun hadopts => hguard.adopts q hadopts hclosing
  listed := by
    rintro q - x ⟨hlive, hdetached, m, p, hm, hp, rfl⟩
    exact List.mem_map.2 ⟨t.self x, (h.tables.listed x hlive hdetached m p hm hp).1,
      (h.tables.self x m hm).2⟩
  stop := by
    rintro q c hc ⟨-, -, m, p, hm, -, -⟩
    unfold Tables.stopFrame
    rw [if_pos (hc.parent hm).1]
    rfl
  single := hguard.restart
  shrink := by
    rintro index response f outer rfl hcall hstopping q x hx
    refine (hasChild_steps hsteps hx).resolve_right fun hadopts => ?_
    unfold Orphans.adopts at hadopts
    dsimp only at hadopts
    rw [hcall] at hadopts
    dsimp only at hadopts
    cases f <;> first | cases hadopts | cases hstopping
  paid := by
    rintro index response f outer rfl hcall rfl q x hduty ⟨hlive, -⟩
    exact duty_resumes (resumeFrame_cases _ _ _) hduty hlive

/-! ## Runs -/

/-- What holds in a run while its steps meet the guard. -/
structure OrphanRun (t : Tree N V) : Prop where
  sound : SoundTree t
  cascade : ∀ call ∈ t.calls, Cascade stopping (HasChild t.toTables) none call
  rooted : ∀ q x, HasChild t.toTables q x → q ∈ t.actors
  leaving : Leaving (fun u x => IsChild u x) t

theorem orphanRun_keep {stringify : List V → String} (h : OrphanRun t) {a : TreeAction N V}
    (hguard : OrphanGuard t a) {t' : Tree N V} (hstep : t.step stringify a = some t') :
    OrphanRun t' := by
  have hsteps := step_cases hstep
  have hext := steps_extends hsteps
  refine ⟨soundTree_step h.sound hstep,
    cascade_steps h.sound hsteps (pays_hasChild h.sound hguard hsteps) h.cascade,
    fun q x hx => ?_, leaving_steps h.sound h.leaving hsteps ?_ ?_⟩
  · rcases hasChild_steps hsteps hx with hold | hadopts
    · -- the parent was there, and is not removed while it has a child
      have hlive := h.rooted q x hold
      by_contra hgone
      obtain ⟨index, response, f, outer, rfl, hcall, ⟨r, rfl, rfl⟩ | ⟨rfl, rfl⟩⟩ :=
        removed_steps hsteps hlive hgone
      · exact (h.cascade _ (List.mem_of_getElem? hcall)).1 x hold
      · exact hguard.migrate index q outer rfl hcall x hold
    · have hlive := adopts_live hadopts
      by_contra hgone
      obtain ⟨index, response, f, outer, rfl, hcall, hf⟩ := removed_steps hsteps hlive hgone
      unfold adopts at hadopts
      dsimp only at hadopts
      rw [hcall] at hadopts
      rcases hf with ⟨r, rfl, -⟩ | ⟨rfl, -⟩ <;> cases hadopts
  · rintro x hlt ⟨m, p, hm, hp⟩
    exact ⟨m, p, (hext.spawned x hlt).symm.trans hm, hp⟩
  · rintro index f outer x rfl hcall hleaves hlive ⟨m, p, hm, hp⟩
    have hnone := hguard.reject index f outer x rfl hcall hleaves
    rw [h.sound.tables.parentOf_of_live hlive hm, hp] at hnone
    cases hnone

omit [DecidableEq N] in
theorem noOrphans_of_run (h : OrphanRun t) : NoOrphans t := by
  intro hquiet x hlive p hp
  obtain ⟨-, m, hm, hparent⟩ := h.sound.tables.live_of_parentOf hp
  have hlisted : x ∉ t.detached := by
    intro hdetached
    obtain ⟨f, outer, hin, hf⟩ := h.leaving.leaving x hlive hdetached ⟨m, p, hm, hparent⟩
    have hbusy := hquiet _ hin f List.mem_cons_self
    cases f with
    | unregistering r => cases hbusy
    | terminating r => cases hbusy
    | _ => cases hf
  have hself := (h.sound.tables.self x m hm).2
  have hcontext := h.sound.tables.contexts p.id
  obtain ⟨hchildren, horder⟩ := h.sound.tables.listed x hlive hlisted m p hm hparent
  refine ⟨h.rooted p.id x ⟨hlive, hlisted, m, p, hm, hparent, rfl⟩, ?_, ?_⟩
  · exact List.count_eq_one_of_mem hcontext.children_nodup (List.mem_map.2 ⟨_, hchildren, hself⟩)
  · exact List.count_eq_one_of_mem hcontext.order_nodup (List.mem_map.2 ⟨_, horder, hself⟩)

/-- In a run whose steps meet the guard nobody is orphaned at quiescence. -/
theorem no_orphans (stringify : List V → String) (id : N)
    (childSupervision : ActorId → ChildSupervisionOptions) (supervisor : Supervisor)
    {as : List (TreeAction N V)}
    (hguard : Along (Tree.step stringify) OrphanGuard (Tree.init id childSupervision supervisor)
      as) :
    Throughout (Tree.step stringify) NoOrphans (Tree.init id childSupervision supervisor) as := by
  have hinit : OrphanRun (Tree.init id childSupervision supervisor : Tree N V) :=
    { sound := soundTree_init _ _ _
      cascade := fun _ hcall => (List.not_mem_nil hcall).elim
      rooted := fun _ x hx => (Finset.notMem_empty x hx.1).elim
      leaving := ⟨fun _ _ hcall => (List.not_mem_nil hcall).elim,
        fun x hx => (Finset.notMem_empty x hx).elim,
        fun x hx => (Finset.notMem_empty x hx).elim⟩ }
  have hrun : Throughout (Tree.step stringify) OrphanRun
      (Tree.init id childSupervision supervisor) as :=
    throughout_of_invariant (fun _ _ _ h hguard hstep => orphanRun_keep h hguard hstep) hinit hguard
  exact hrun.mono fun _ h => noOrphans_of_run h

end

/-- Any action may begin when no call is in progress. -/
theorem guard_of_idle {t : Tree N V} (h : t.calls = []) (a : TreeAction N V) :
    OrphanGuard t a where
  adopts := by
    rintro q - ⟨call, hcall, -⟩
    rw [h] at hcall
    exact List.not_mem_nil hcall
  restart := by
    intro index response r outer _ hcall
    rw [h] at hcall
    cases hcall
  migrate := by
    intro index q outer _ hcall
    rw [h] at hcall
    cases hcall
  reject := by
    intro index f outer x _ hcall
    rw [h] at hcall
    cases hcall

/-! ## The restart of a parent -/

/-- Root actors are restarted once in 1000 ms. -/
def oneRestart : Tree Unit Nat :=
  .init () (fun _ => ⟨.oneForOne, 1, 1000⟩) (.new .Restart 1 1000)

def refOf (id : ActorId) : ActorRef Unit := ⟨(), id, none, 0⟩

/-- Actor 0 crashes while it has the child 1, and is restarted. -/
def parentCrashes : List (TreeAction Unit Nat) :=
  [.spawn "Parent" {}, .spawnChild (refOf 0) "Worker" {}, .crash (refOf 0) 0,
    .resumes 0 .success, .resumes 0 .success, .resumes 0 .success]

/-- The restart has ended, and the child names a parent that is gone. -/
theorem parentCrashes_orphans :
    ∃ u, run (Tree.step fun args => toString args) oneRestart parentCrashes = some u ∧
      u.calls = [] ∧ 1 ∈ u.actors ∧ u.parentOf 1 = some (refOf 0) ∧ 0 ∉ u.actors :=
  ⟨_, rfl, rfl, by decide, rfl, by decide⟩

theorem no_orphans_stop :
    Throughout (Tree.step fun args => toString args) NoOrphans oneRestart
      [.spawn "Parent" {}, .spawnChild (refOf 0) "Worker" {}, .stop (refOf 0)] := by
  refine no_orphans (fun args => toString args) () _ _ ⟨guard_of_idle rfl _, fun t ht => ?_⟩
  cases ht
  refine ⟨guard_of_idle rfl _, fun t ht => ?_⟩
  cases ht
  exact ⟨guard_of_idle rfl _, fun _ _ => trivial⟩

end Libeam.Proofs.Orphans
