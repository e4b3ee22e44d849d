import Libeam.Proofs.ChildLists
/-!
# Children on other nodes

`remoteChildren` has an entry for every child on another node.  The entries of a live
parent are the references to other nodes in its set and on its list, and no entry names
a parent that is gone, in every state of a run in which requests for children of a live
parent succeed and no parent is closing when a child is added.
-/

namespace Libeam.Proofs.RemoteChildren

open Libeam.System (ActorId Supervisor)
open Supervision Lib.Transition TreeTables TreeSteps StopCascade ChildLists

variable {N V : Type}

/-- The references to other nodes in the set and on the list of a live parent are those
of its entries, and no entry names a parent that is gone. -/
def EntriesAgree (t : Tree N V) : Prop :=
  (∀ q ∈ t.actors, ∀ c,
    (c ∈ (t.context q).children ∧ c.systemId ≠ t.id ↔
      ∃ e ∈ t.remoteChildren, e.childRef = c ∧ e.parentRef.id = q) ∧
    (c ∈ (t.context q).childOrder ∧ c.systemId ≠ t.id ↔
      ∃ e ∈ t.remoteChildren, e.childRef = c ∧ e.parentRef.id = q)) ∧
  ∀ e ∈ t.remoteChildren, e.parentRef.id ∈ t.actors

/-- `q` has an entry for the child `x`. -/
def HasEntry (t : Tables N V) (q x : ActorId) : Prop :=
  ∃ e ∈ t.remoteChildren, e.parentRef.id = q ∧ e.childRef.id = x

/-- The remote child whose stop a function brings about. -/
def remoteDuty : Frame N V → Option ActorId
  | .stopRemoteChild x => some x
  | .stopRequest e => some e.childRef.id
  | _ => none

/-- The parent for which a response to a suspended function adds an entry. -/
def tracksUnder (response : Response) : Frame N V → Option ActorId
  | .spawnRequest p _ _ _ => if response = .success then some p.id else none
  | .restartRequest e => if response = .success then some e.parentRef.id else none
  | _ => none

def tracks (t : Tree N V) : TreeAction N V → Option ActorId
  | .resumes index response =>
      match t.calls[index]? with
      | some (f :: _) => tracksUnder response f
      | _ => none
  | _ => none

/-- An entry is added only for a parent that is there and not closing; no actor with an
entry is stopped by a restart or cleaned up by a migration. -/
structure RemoteGuard (t : Tree N V) (a : TreeAction N V) : Prop extends EntryGuard t a where
  tracks : ∀ q, tracks t a = some q → q ∈ t.actors ∧ ¬ Closing t.calls q
  restart : ∀ index response r outer, a = .resumes index response →
    t.calls[index]? = some (.stopSingle r :: outer) → r.id ∈ t.actors →
    ∀ x, ¬ HasEntry t.toTables r.id x
  migrate : ∀ index q outer, a = .resumes index .success →
    t.calls[index]? = some (.migrating q :: outer) → ∀ x, ¬ HasEntry t.toTables q x

/-! ## Entries -/

section
variable {t : Tables N V}

theorem HasEntry.of_subset {t' : Tables N V} {q x : ActorId} (h : HasEntry t' q x)
    (hentries : ∀ e ∈ t'.remoteChildren, e ∈ t.remoteChildren) : HasEntry t q x := by
  obtain ⟨e, he, hboth⟩ := h
  exact ⟨e, hentries e he, hboth⟩

theorem remoteChildren_spawnChild (p : ActorRef N) (actorClass : String)
    (options : SpawnOptions V) (first : Option ActorId) :
    (t.spawnChild p actorClass options first).remoteChildren = t.remoteChildren := by
  unfold Tables.spawnChild
  split_ifs <;> rfl

variable [DecidableEq N]

/-- An entry that is new is one that a response adds. -/
theorem hasEntry_resumes {response : Response} {f : Frame N V} {tables : Tables N V}
    {frames : List (Frame N V)} (hresumes : Resumes t response f tables frames)
    {q x : ActorId} (h : HasEntry tables q x) :
    HasEntry t q x ∨ tracksUnder response f = some q := by
  cases hresumes with
  | ends | descends | unregistered | removed | spawned | stops | requests | requestsStop =>
      exact .inl h
  | @leaves _ r hf => exact .inl (h.of_subset fun e he => detach_remoteChildren t r ▸ he)
  | childSpawned hp hsuccess hf =>
      exact .inl (h.of_subset fun e he => remoteChildren_spawnChild _ _ _ _ ▸ he)
  | forgot hf => exact .inl (h.of_subset fun e he => List.mem_of_mem_filter he)
  | @dropped e hresponse =>
      refine .inl (h.of_subset fun e' he' => ?_)
      rw [remoteChildren_dropRemoteChild] at he'
      exact List.mem_of_mem_filter he'
  | @replaced e hsuccess =>
      obtain ⟨e', he', rfl, rfl⟩ := h
      rw [remoteChildren_replaceRemoteChild] at he'
      rcases List.mem_append.1 he' with he' | he'
      · exact .inl ⟨e', List.mem_of_mem_filter he', rfl, rfl⟩
      · rw [List.mem_singleton.1 he']
        exact .inr (if_pos hsuccess)
  | @added p actorClass node options hsuccess =>
      obtain ⟨e', he', rfl, rfl⟩ := h
      rcases List.mem_append.1 he' with he' | he'
      · exact .inl ⟨e', he', rfl, rfl⟩
      · rw [List.mem_singleton.1 he']
        exact .inr (if_pos hsuccess)

/-- A stop of a remote child goes on until its entry is gone. -/
theorem remoteDuty_resumes {response : Response} {f : Frame N V} {tables : Tables N V}
    {frames : List (Frame N V)} (hresumes : Resumes t response f tables frames) {q x : ActorId}
    (hx : remoteDuty f = some x) (howed : HasEntry tables q x) :
    lastDuty remoteDuty none frames = some x := by
  have hforgot : ∀ e : RemoteChildEntry N V, e.childRef.id = x →
      ¬ HasEntry (t.forgetRemote e.childRef.id) q x := by
    rintro e rfl ⟨e', he', -, hid⟩
    exact ne_of_mem_forgetRemote he' hid
  cases hresumes with
  | @ends f hf =>
      cases f with
      | stopRemoteChild y =>
          cases hx
          obtain ⟨e, he, -, hid⟩ := howed
          have hnone : t.remoteChildren.find? (fun e => e.childRef.id = x) = none := hf
          exact absurd hid (by simpa using List.find?_eq_none.1 hnone e he)
      | stopRequest e => exact hf.elim
      | _ => cases hx
  | descends hf => rcases hf with ⟨rfl, -, -⟩ | rfl <;> cases hx
  | leaves hf => rcases hf with ⟨rfl, -, -⟩ | rfl | ⟨rfl, -⟩ <;> cases hx
  | unregistered | spawned | stops | requests | replaced | added => cases hx
  | removed hf => rcases hf with ⟨r, rfl, -⟩ | ⟨rfl, -⟩ <;> cases hx
  | childSpawned hp hsuccess hf =>
      rcases hf with ⟨rfl, -, -⟩ | ⟨remote, plan, rfl, -⟩ <;> cases hx
  | @requestsStop y e he =>
      cases hx
      exact congrArg some (mem_of_getRemoteChild he).2
  | @forgot _ e hf =>
      rcases hf with ⟨rfl, -⟩ | ⟨rfl, -⟩
      · exact absurd howed (hforgot e (Option.some.inj hx))
      · cases hx
  | @dropped e hresponse =>
      refine absurd (howed.of_subset fun e' he' => ?_) (hforgot e (Option.some.inj hx))
      rwa [remoteChildren_dropRemoteChild] at he'

end

/-! ## Steps -/

section
variable [DecidableEq N] {t : Tree N V}

theorem hasEntry_steps {a : TreeAction N V} {tables : Tables N V}
    {calls : List (List (Frame N V))} (hsteps : Steps t a tables calls) {q x : ActorId}
    (h : HasEntry tables q x) : HasEntry t.toTables q x ∨ tracks t a = some q := by
  cases hsteps with
  | idle | spawned | invoked | rejected => exact .inl h
  | childSpawned =>
      exact .inl (h.of_subset fun e he => remoteChildren_spawnChild _ _ _ _ ▸ he)
  | @removedRemote _ y p ha =>
      refine .inl (h.of_subset fun e he => ?_)
      unfold Tables.removeRemoteChild at he
      split at he
      · exact he
      · rw [remoteChildren_dropRemoteChild] at he
        exact List.mem_of_mem_filter he
  | @resumed index response f outer hcall =>
      refine (hasEntry_resumes (resumeFrame_cases _ _ _) h).imp_right fun htracks => ?_
      unfold tracks
      dsimp only
      rw [hcall]
      exact htracks

/-- The children of other nodes are stopped as `stop` wants it. -/
theorem pays_hasEntry (h : SoundTree t) {a : TreeAction N V} (hguard : RemoteGuard t a)
    {tables : Tables N V} {calls : List (List (Frame N V))} (hsteps : Steps t a tables calls) :
    Pays remoteDuty HasEntry t a tables where
  grow := fun q hclosing x hx =>
    (hasEntry_steps hsteps hx).resolve_right fun htracks => (hguard.tracks q htracks).2 hclosing
  listed := by
    rintro q hq x ⟨e, he, rfl, rfl⟩
    exact List.mem_map_of_mem (h.tables.tracked e he hq).1
  stop := by
    rintro q c hc ⟨e, he, -, hid⟩
    have hnode : c.systemId ≠ t.id := by
      intro hhere
      obtain ⟨-, m, p, hm, -⟩ := hc.here hhere
      rw [← hid, (h.tables.entries e he).spawned] at hm
      cases hm
    unfold Tables.stopFrame
    rw [if_neg hnode]
    rfl
  single := hguard.restart
  shrink := by
    rintro index response f outer rfl hcall hstopping q x hx
    refine (hasEntry_steps hsteps hx).resolve_right fun htracks => ?_
    unfold RemoteChildren.tracks at htracks
    dsimp only at htracks
    rw [hcall] at htracks
    cases f with
    | spawnRequest | restartRequest => cases hstopping
    | _ => cases htracks
  paid := by
    rintro index response f outer rfl hcall rfl q x hduty howed
    exact remoteDuty_resumes (resumeFrame_cases _ _ _) hduty howed

/-! ## Runs -/

/-- What holds in a run while its steps meet the guard. -/
structure RemoteRun (t : Tree N V) : Prop where
  sound : SoundTree t
  elsewhere : ListedElsewhere t.toTables
  cascade : ∀ call ∈ t.calls, Cascade remoteDuty (HasEntry t.toTables) none call
  rooted : ∀ q x, HasEntry t.toTables q x → q ∈ t.actors

theorem remoteRun_keep {stringify : List V → String} (h : RemoteRun t) {a : TreeAction N V}
    (hguard : RemoteGuard t a) {t' : Tree N V} (hstep : t.step stringify a = some t') :
    RemoteRun t' := by
  have hsteps := step_cases hstep
  refine ⟨soundTree_step h.sound hstep,
    listedElsewhere_steps h.sound h.elsewhere hguard.toEntryGuard hsteps,
    cascade_steps h.sound hsteps (pays_hasEntry h.sound hguard hsteps) h.cascade,
    fun q x hx => ?_⟩
  have hlive : q ∈ t.actors := by
    rcases hasEntry_steps hsteps hx with hold | htracks
    · exact h.rooted q x hold
    · exact (hguard.tracks q htracks).1
  by_contra hgone
  obtain ⟨index, response, f, outer, rfl, hcall, hf⟩ := removed_steps hsteps hlive hgone
  -- a parent is not removed by the step that adds an entry
  have hold : HasEntry t.toTables q x := by
    refine (hasEntry_steps hsteps hx).resolve_right fun htracks => ?_
    unfold tracks at htracks
    dsimp only at htracks
    rw [hcall] at htracks
    rcases hf with ⟨r, rfl, -⟩ | ⟨rfl, -⟩ <;> cases htracks
  rcases hf with ⟨r, rfl, rfl⟩ | ⟨rfl, rfl⟩
  · exact (h.cascade _ (List.mem_of_getElem? hcall)).1 x hold
  · exact hguard.migrate index q outer rfl hcall x hold

omit [DecidableEq N] in
theorem entriesAgree_of_run (h : RemoteRun t) : EntriesAgree t := by
  refine ⟨fun q hq c => ?_, fun e he => h.rooted _ _ ⟨e, he, rfl, rfl⟩⟩
  have hentry : (c ∈ (t.context q).children ∨ c ∈ (t.context q).childOrder) → c.systemId ≠ t.id →
      ∃ e ∈ t.remoteChildren, e.childRef = c ∧ e.parentRef.id = q :=
    fun hc helse => h.elsewhere q hq c hc helse
  have hlisted : (∃ e ∈ t.remoteChildren, e.childRef = c ∧ e.parentRef.id = q) →
      (c ∈ (t.context q).children ∧ c ∈ (t.context q).childOrder) ∧ c.systemId ≠ t.id := by
    rintro ⟨e, he, rfl, rfl⟩
    have hknown := h.sound.tables.entries e he
    exact ⟨h.sound.tables.tracked e he hq, hknown.node ▸ hknown.elsewhere⟩
  exact ⟨⟨fun hc => hentry (.inl hc.1) hc.2, fun he => ⟨(hlisted he).1.1, (hlisted he).2⟩⟩,
    ⟨fun hc => hentry (.inr hc.1) hc.2, fun he => ⟨(hlisted he).1.2, (hlisted he).2⟩⟩⟩

end

/-- In a run whose steps meet the guard the entries agree with the lists of the parents. -/
theorem entries_agree [DecidableEq N] (stringify : List V → String) (id : N)
    (childSupervision : ActorId → ChildSupervisionOptions) (supervisor : Supervisor)
    {as : List (TreeAction N V)}
    (hguard : Along (Tree.step stringify) RemoteGuard
      (Tree.init id childSupervision supervisor) as) :
    Throughout (Tree.step stringify) EntriesAgree (Tree.init id childSupervision supervisor)
      as := by
  have hinit : RemoteRun (Tree.init id childSupervision supervisor : Tree N V) :=
    { sound := soundTree_init _ _ _
      elsewhere := fun q hq => (Finset.notMem_empty q hq).elim
      cascade := fun _ hcall => (List.not_mem_nil hcall).elim
      rooted := fun q x hx => by
        obtain ⟨e, he, -⟩ := hx
        exact (List.not_mem_nil he).elim }
  have hrun : Throughout (Tree.step stringify) RemoteRun
      (Tree.init id childSupervision supervisor) as :=
    throughout_of_invariant (fun _ _ _ h hguard hstep => remoteRun_keep h hguard hstep) hinit
      hguard
  exact hrun.mono fun _ h => entriesAgree_of_run h

/-! ## A restart that fails -/

def node : Tree Nat Nat :=
  .init 0 (fun _ => ⟨.oneForOne, 1, 1000⟩) (.new .Restart 1 1000)

def parentRef : ActorRef Nat := ⟨0, 0, none, 0⟩

/-- Actor 0 gets the child 1 on node 1. -/
def spawnsRemote : List (TreeAction Nat Nat) :=
  [.spawn "Parent" {}, .spawnChildRemote parentRef "Worker" 1 {}, .resumes 0 .success]

/-- The other node answers that it cannot restart the child. -/
def restartFails : List (TreeAction Nat Nat) :=
  [.restartRemoteChild 1, .resumes 0 .failure]

/-- The entry is gone, and the reference still stands in the set and on the list. -/
theorem restart_fails_keeps_ref :
    ∃ u, run (Tree.step fun args => toString args) node (spawnsRemote ++ restartFails) = some u ∧
      u.calls = [] ∧ 0 ∈ u.actors ∧ u.remoteChildren = [] ∧
      (u.context 0).children = [⟨1, 1, none, 0⟩] ∧ (u.context 0).childOrder = [⟨1, 1, none, 0⟩] :=
  ⟨_, rfl, rfl, by decide, rfl, by decide, by decide⟩

/-- Any action but the removal of an entry may begin when no call is in progress. -/
theorem guard_of_idle {t : Tree N V} (h : t.calls = []) {a : TreeAction N V}
    (hremove : ∀ x p, a ≠ .removeRemoteChild x p) : RemoteGuard t a where
  failed := by
    intro index response f outer e _ hcall
    rw [h] at hcall
    cases hcall
  removed := fun x p _ ha => absurd ha (hremove x p)
  tracks := by
    intro q hq
    unfold RemoteChildren.tracks at hq
    split at hq
    · rw [h] at hq
      cases hq
    · cases hq
  restart := by
    intro index response r outer _ hcall
    rw [h] at hcall
    cases hcall
  migrate := by
    intro index q outer _ hcall
    rw [h] at hcall
    cases hcall

/-- A child is added for a live parent while nothing else is in progress. -/
theorem guard_of_spawnRequest {t : Tree N V} {p : ActorRef N} {actorClass : String} {target : N}
    {options : SpawnOptions V} (h : t.calls = [[.spawnRequest p actorClass target options]])
    (hp : p.id ∈ t.actors) : RemoteGuard t (.resumes 0 .success) where
  failed := by
    rintro index response f outer e ⟨⟩ hcall hf
    rw [h] at hcall
    cases hcall
    cases hf
  removed := fun x p _ ha => nomatch ha
  tracks := by
    intro q hq
    unfold RemoteChildren.tracks at hq
    rw [h] at hq
    cases hq
    refine ⟨hp, ?_⟩
    rintro ⟨call, hcall, f, hf, hcloses⟩
    rw [h, List.mem_singleton] at hcall
    rw [hcall, List.mem_singleton] at hf
    rw [hf] at hcloses
    cases hcloses
  restart := by
    rintro index response r outer ⟨⟩ hcall
    rw [h] at hcall
    cases hcall
  migrate := by
    rintro index q outer ⟨⟩ hcall
    rw [h] at hcall
    cases hcall

theorem entries_agree_spawn :
    Throughout (Tree.step fun args => toString args) EntriesAgree node spawnsRemote := by
  refine entries_agree (fun args => toString args) 0 _ _
    ⟨guard_of_idle rfl (fun _ _ ha => nomatch ha), fun t ht => ?_⟩
  cases ht
  refine ⟨guard_of_idle rfl (fun _ _ ha => nomatch ha), fun t ht => ?_⟩
  cases ht
  refine ⟨guard_of_spawnRequest rfl (by decide), fun t ht => ?_⟩
  cases ht
  trivial

end Libeam.Proofs.RemoteChildren
