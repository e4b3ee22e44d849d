import Libeam.GenStage.ConsumerSupervisor
import Libeam.Proofs.ChildCapacity
import Libeam.Proofs.StopCascade
/-!
# Children that nobody has begun to stop

A child of `p` is in service until a stop takes it off the lists of `p`, or a supervisor calls
`stop` for it.  While no restart of a child of `p` is begun, and none migrates, a child ceases to
be in service exactly when its watchers are notified.
-/

namespace Libeam.Proofs.LiveWorkers

open Libeam.System (ActorId)
open Supervision GenStage TreeTables TreeSteps RestartFrames ChildSlots ChildCapacity
open CrashLog (logs logs_restart logs_applyStrategy logs_applyRemoteStrategy logs_of_not_crash)
open StopCascade (removed_steps detached_spawnChild detached_dropRemoteChild
  detached_replaceRemoteChild detached_removeRemoteChild)

variable {N V : Type}

/-- The children of `p` that are in service. -/
def inService (t : Tree N V) (p : ActorId) : Finset ActorId :=
  (childrenOf t.toTables p).filter fun x => x ∉ t.detached ∧ x ∉ t.stopRequests

theorem mem_inService {t : Tree N V} {p x : ActorId} : x ∈ inService t p ↔
    x ∈ childrenOf t.toTables p ∧ x ∉ t.detached ∧ x ∉ t.stopRequests := Finset.mem_filter

/-- The function neither restarts a child of `p` nor has one migrate. -/
def Spares (t : Tables N V) (p : ActorId) : Frame N V → Prop
  | .stopSingle r => r.id ∉ childrenOf t p
  | .migrating x => x ∉ childrenOf t p
  | .respawn _ m => m.parent.map (·.id) ≠ some p
  | .strategy q _ _ _ => q.id ≠ p
  | _ => True

/-- What holds of a parent that restarts its children one for one. -/
structure Regular (t : Tree N V) (p : ActorId) : Prop where
  orderly : Orderly t p
  detached_lt : ∀ x ∈ t.detached, x < t.nextId
  stopRequests_lt : ∀ x ∈ t.stopRequests, x < t.nextId

/-- No restart of a child of `p` is under way, and no migration of one. -/
def Spared (t : Tree N V) (p : ActorId) : Prop :=
  ∀ call ∈ t.calls, ∀ f ∈ call, Spares t.toTables p f

/-! ## Who leaves -/

section
variable {t t' : Tables N V} {p x : ActorId}

theorem childrenOf_of_lt (h : Sound t) (h' : Sound t') (hext : Extends t t')
    (hlt : x < t.nextId) (hx : x ∈ childrenOf t' p) : x ∈ childrenOf t p := by
  obtain ⟨hlive, m, r, hm, hr, hp⟩ := (mem_childrenOf h').1 hx
  exact (mem_childrenOf h).2
    ⟨hext.actors x hlive hlt, m, r, (hext.spawned x hlt).symm.trans hm, hr, hp⟩

theorem childrenOf_of_live (h : Sound t) (h' : Sound t') (hext : Extends t t')
    (hlive : x ∈ t'.actors) (hx : x ∈ childrenOf t p) : x ∈ childrenOf t' p := by
  obtain ⟨hold, m, r, hm, hr, hp⟩ := (mem_childrenOf h).1 hx
  exact (mem_childrenOf h').2
    ⟨hlive, m, r, (hext.spawned x (h.lt_of_live hold)).trans hm, hr, hp⟩

theorem Spares.extend (hsound : Sound t) (h' : Sound t') (hext : Extends t t') {f : Frame N V}
    (hf : SoundFrame t f) (h : Spares t p f) : Spares t' p f := by
  cases f with
  | stopSingle | migrating => exact fun hx => h (childrenOf_of_lt hsound h' hext hf hx)
  | respawn | strategy => exact h
  | _ => trivial

variable [DecidableEq N]

/-- The actor that leaves, and no other, comes off the lists. -/
theorem detached_resumeFrame (response : Response) (f : Frame N V) :
    (t.resumeFrame response f).1.detached =
      (departing t f).elim t.detached fun x => insert x t.detached := by
  have hleave : ∀ r : ActorRef N, (t.leave r).1.detached = insert r.id t.detached :=
    fun r => detach_detached t r
  cases f with
  | stop r =>
      dsimp only [Tables.resumeFrame, departing]
      by_cases hr : r.id ∈ t.actors
      · rw [if_pos hr]
        cases hchildren : (t.context r.id).children with
        | nil =>
            rw [if_pos ⟨hr, rfl⟩]
            exact hleave r
        | cons c rest =>
            rw [if_neg fun h => nomatch h.2]
            rfl
      · rw [if_neg hr, if_neg fun h => hr h.1]
        rfl
  | children r rest =>
      cases rest with
      | nil => exact hleave r
      | cons c rest => rfl
  | stopSingle r =>
      dsimp only [Tables.resumeFrame, departing]
      split_ifs
      · exact hleave r
      · rfl
  | unregistering r => rfl
  | terminating r => rfl
  | respawn x m =>
      dsimp only [Tables.resumeFrame, Tables.startAgain, departing]
      split_ifs
      · split
        · rfl
        · exact detached_spawnChild _ _ _ _
      · rfl
  | strategy q stops remote plan =>
      cases stops with
      | cons c stops => rfl
      | nil =>
          dsimp only [Tables.resumeFrame, Tables.startPlanned, departing]
          split
          · rfl
          · split_ifs
            · exact detached_spawnChild _ _ _ _
            · rfl
          · split_ifs <;> rfl
  | stopRemoteChild | spawnRequest | migrating =>
      dsimp only [Tables.resumeFrame, departing]
      split <;> rfl
  | stopRequest e =>
      dsimp only [Tables.resumeFrame, departing]
      split
      · rfl
      · exact detached_dropRemoteChild _ _
  | restartRequest e =>
      dsimp only [Tables.resumeFrame, departing]
      split
      · exact detached_replaceRemoteChild e
      · rfl

/-- What takes the place of a function spares the children of `p`, if the function did. -/
theorem spares_resumes {response : Response} {f : Frame N V} {frames : List (Frame N V)}
    (hresumes : Resumes t response f t' frames) (hf : Spares t p f) :
    ∀ g ∈ frames, Spares t' p g := by
  cases hresumes with
  | ends | removed | spawned | forgot | dropped | replaced | added =>
      exact fun _ hg => (List.not_mem_nil hg).elim
  | descends =>
      unfold Tables.stopFrame
      split_ifs <;> simp [Spares]
  | leaves =>
      unfold Tables.leave
      dsimp only
      split_ifs <;> simp [Spares]
  | unregistered | requestsStop => simp [Spares]
  | childSpawned hp hsuccess hcases =>
      rcases hcases with ⟨rfl, -, rfl⟩ | ⟨remote, plan, rfl, rfl⟩
      · exact fun _ hg => (List.not_mem_nil hg).elim
      · exact fun g hg => List.mem_singleton.1 hg ▸ hf
  | @stops q c stops remote plan g hg =>
      have hstop : g = .stop c ∨ g = .stopRemoteChild c.id := by
        rcases hg with rfl | rfl
        · exact .inl rfl
        · unfold Tables.stopFrame
          split_ifs
          · exact .inl rfl
          · exact .inr rfl
      intro g' hg'
      rcases List.mem_cons.1 hg' with rfl | hg'
      · rcases hstop with rfl | rfl <;> trivial
      · exact List.mem_singleton.1 hg' ▸ hf
  | requests hp =>
      intro g hg
      rcases List.mem_cons.1 hg with rfl | hg
      · trivial
      · exact List.mem_singleton.1 hg ▸ hf

end

/-! ## What a crash asks to stop -/

section
variable {t : Tree N V} [DecidableEq N] {stringify : List V → String}

section
omit [DecidableEq N]

theorem stopRequests_of_logs {s u : Tree N V} (h : logs u = logs s) :
    u.stopRequests = s.stopRequests := by
  simp only [logs, Prod.mk.injEq] at h
  exact h.2.2.2.2.2.2

theorem stopRequests_restart (r : ActorRef N) : (t.restart r).stopRequests = t.stopRequests :=
  stopRequests_of_logs (logs_restart r)

theorem stopRequests_applyStrategy (r : ActorRef N) (p : ActorId) :
    (t.applyStrategy r p).stopRequests = t.stopRequests :=
  stopRequests_of_logs (logs_applyStrategy r p)

end

theorem stopRequests_applyRemoteStrategy (e : RemoteChildEntry N V) :
    (t.applyRemoteStrategy e).stopRequests = t.stopRequests :=
  stopRequests_of_logs (logs_applyRemoteStrategy e)

omit [DecidableEq N] in
theorem stopRequests_handleRootCrash (r : ActorRef N) (now : Nat) :
    (t.handleRootCrash r now).stopRequests = t.stopRequests ∨
      (t.handleRootCrash r now).stopRequests = r.id :: t.stopRequests := by
  unfold Tree.handleRootCrash
  dsimp only
  split
  · exact .inl (stopRequests_restart r)
  · by_cases hfull : t.supervisor.maxRestarts ≤ (rootRecord t.supervisor r.id now).count
    · rw [if_pos hfull]
      exact .inr rfl
    · rw [if_neg hfull]
      exact .inr rfl

omit [DecidableEq N] in
theorem stopRequests_handleCrash (r : ActorRef N) (now : Nat) :
    (t.handleCrash stringify r now).stopRequests = t.stopRequests ∨
      (t.handleCrash stringify r now).stopRequests = r.id :: t.stopRequests := by
  unfold Tree.handleCrash
  split
  · unfold Tree.handleChildCrash
    split_ifs
    · dsimp only
      split_ifs
      · exact .inl (stopRequests_applyStrategy _ _)
      · exact .inr rfl
    · exact .inl rfl
  · split_ifs
    · exact .inl rfl
    · exact stopRequests_handleRootCrash r now

theorem stopRequests_handleRemoteChildCrash (x : ActorId) (now : Nat) :
    (t.handleRemoteChildCrash stringify x now).stopRequests = t.stopRequests := by
  unfold Tree.handleRemoteChildCrash
  split
  · rfl
  · dsimp only
    split_ifs
    · exact stopRequests_applyRemoteStrategy _
    · rfl
    · rfl

/-- A stop is requested for the actor whose watchers a crash notifies. -/
theorem stopRequests_step {a : TreeAction N V} {t' : Tree N V}
    (hstep : t.step stringify a = some t') :
    t'.stopRequests = t.stopRequests ∧ (∀ r now, a = .crash r now →
        notified stringify t a = none) ∨
      ∃ r now, a = .crash r now ∧ r.id < t.nextId ∧ notified stringify t a = some r.id ∧
        t'.stopRequests = r.id :: t.stopRequests := by
  by_cases hcrash : ∃ r now, a = .crash r now
  · obtain ⟨r, now, rfl⟩ := hcrash
    dsimp only [Tree.step] at hstep
    split_ifs at hstep with hlt
    cases hstep
    have hstops : (t.handleCrash stringify r now).stopRequests = _ ∨ _ :=
      stopRequests_handleCrash r now
    rcases hstops with hsame | hmore
    · exact .inl ⟨hsame, fun _ _ heq => if_pos (by cases heq; exact hsame)⟩
    · refine .inr ⟨r, now, rfl, hlt, if_neg ?_, hmore⟩
      rw [hmore]
      exact List.cons_ne_self _ _
  · refine .inl ⟨?_, fun r now heq => absurd ⟨r, now, heq⟩ hcrash⟩
    by_cases hremote : ∃ x now, a = .remoteCrash x now
    · obtain ⟨x, now, rfl⟩ := hremote
      cases hstep
      exact stopRequests_handleRemoteChildCrash x now
    · refine stopRequests_of_logs (logs_of_not_crash hstep ?_ ?_)
      · exact fun r now heq => hcrash ⟨r, now, heq⟩
      · exact fun x now heq => hremote ⟨x, now, heq⟩

end

/-! ## What a step does to the children in service -/

section
variable {t t' : Tree N V} {p x : ActorId} [DecidableEq N] {stringify : List V → String}
  {a : TreeAction N V}

omit [DecidableEq N] in
theorem resumedFrame_eq_some {f : Frame N V} (h : resumedFrame t a = some f) :
    ∃ index response outer, a = .resumes index response ∧ t.calls[index]? = some (f :: outer) := by
  cases a with
  | resumes index response =>
      obtain ⟨call, hcall, hhead⟩ := Option.bind_eq_some_iff.1 h
      obtain ⟨outer, rfl⟩ := List.head?_eq_some_iff.1 hhead
      exact ⟨index, response, outer, rfl, hcall⟩
  | _ => cases h

/-- The actor that a step has leave, and no other, comes off the lists. -/
theorem detached_step (hstep : t.step stringify a = some t') :
    t'.detached = ((resumedFrame t a).bind (departing t.toTables)).elim t.detached
      fun x => insert x t.detached := by
  by_cases hresumes : ∃ index response, a = .resumes index response
  · obtain ⟨index, response, rfl⟩ := hresumes
    dsimp only [Tree.step, Tree.resumes] at hstep
    split at hstep
    · next f outer hcall =>
        cases hstep
        have hframe : resumedFrame t (.resumes index response) = some f := by
          rw [resumedFrame, hcall]
          rfl
        rw [hframe]
        exact detached_resumeFrame response f
    · cases hstep
  · have hnone : resumedFrame t a = none := by
      cases a with
      | resumes index response => exact absurd ⟨index, response, rfl⟩ hresumes
      | _ => rfl
    rw [hnone]
    change t'.detached = t.detached
    have hcases := step_cases hstep
    generalize t'.toTables = tables at hcases
    generalize t'.calls = calls at hcases
    cases hcases with
    | idle | spawned | invoked | rejected => rfl
    | childSpawned => exact detached_spawnChild _ _ _ _
    | removedRemote => exact detached_removeRemoteChild _ _
    | resumed => exact absurd ⟨_, _, rfl⟩ hresumes

omit [DecidableEq N] in
theorem departing_of_announced {t : Tables N V} {f : Frame N V} (h : announced t f = some x) :
    departing t f = some x := by
  cases f with
  | stopSingle r => cases h
  | _ => exact h

omit [DecidableEq N] in
theorem departing_lt {t : Tables N V} {f : Frame N V} (hf : SoundFrame t f)
    (h : departing t f = some x) : x < t.nextId := by
  cases f with
  | stop | stopSingle =>
      dsimp only [departing] at h
      split_ifs at h
      cases h
      exact hf
  | children r rest =>
      cases rest with
      | nil =>
          cases h
          exact hf.1
      | cons c rest => cases h
  | _ => cases h

theorem notified_of_resumed {f : Frame N V} (h : resumedFrame t a = some f) :
    notified stringify t a = announced t.toTables f := by
  obtain ⟨index, response, outer, rfl, -⟩ := resumedFrame_eq_some h
  change (resumedFrame t _).bind (announced t.toTables) = _
  rw [h]
  rfl

/-- An actor whose watchers are notified comes off the lists, or is to be stopped. -/
theorem out_of_notified (hstep : t.step stringify a = some t')
    (h : notified stringify t a = some x) : x ∈ t'.detached ∨ x ∈ t'.stopRequests := by
  rcases stopRequests_step hstep with ⟨-, hnone⟩ | ⟨r, now, -, -, hr, hmore⟩
  · have hframe : (resumedFrame t a).bind (announced t.toTables) = some x := by
      cases a with
      | crash r now =>
          rw [hnone r now rfl] at h
          cases h
      | _ => exact h
    obtain ⟨f, hf, hx⟩ := Option.bind_eq_some_iff.1 hframe
    left
    rw [detached_step hstep, hf]
    change x ∈ (departing t.toTables f).elim t.detached fun y => insert y t.detached
    rw [departing_of_announced hx]
    exact Finset.mem_insert_self _ _
  · obtain rfl := Option.some.inj (hr.symm.trans h)
    exact .inr (hmore ▸ List.mem_cons_self)

/-- A step brings no child of `p` into the tables but by spawning one, or by a restart. -/
theorem childrenOf_step (h : Regular t p) (hspared : Spared t p)
    (hstep : t.step stringify a = some t')
    (hspawn : ∀ q actorClass options, a = .spawnChild q actorClass options → q.id ≠ p) :
    childrenOf t'.toTables p ⊆ childrenOf t.toTables p := by
  have hsound := h.orderly.sound
  have hcases := step_cases hstep
  have hsound' := (soundTree_step hsound hstep).tables
  generalize t'.toTables = tables at hcases hsound' ⊢
  generalize t'.calls = calls at hcases
  cases hcases with
  | idle | invoked | rejected => exact Finset.Subset.refl _
  | spawned => exact childrenOf_spawn hsound.tables hsound'
  | @childSpawned q actorClass options =>
      exact childrenOf_spawnChild_of_ne hsound.tables (hspawn q actorClass options rfl) hsound'
  | @removedRemote _ y q =>
      exact childrenOf_shrink hsound.tables hsound' (extends_removeRemoteChild _ _ _)
        (actors_removeRemoteChild y q).subset
  | @resumed index response f outer hin =>
      have hcall := List.mem_of_getElem? hin
      rcases childrenOf_resumes hsound.tables hsound' (extends_resumeFrame _ response f)
        (resumeFrame_cases _ response f) (h.orderly.calm _ hcall f List.mem_cons_self) with
        hsub | ⟨y, hy, -⟩
      · exact hsub
      · obtain ⟨m, q, rfl, hq, hp⟩ := replaces_eq_some hy
        refine absurd ?_ (hspared _ hcall _ List.mem_cons_self)
        rw [hq, Option.map_some, hp]

/-- A child in service ceases to be when its watchers are notified, and not before. -/
theorem mem_inService_step (h : Regular t p) (hspared : Spared t p)
    (hstep : t.step stringify a = some t')
    (hspawn : ∀ q actorClass options, a = .spawnChild q actorClass options → q.id ≠ p) :
    x ∈ inService t' p ↔ x ∈ inService t p ∧ notified stringify t a ≠ some x := by
  have hsound := h.orderly.sound
  have hcases := step_cases hstep
  have hext := steps_extends hcases
  have hsound' := (soundTree_step hsound hstep).tables
  rw [mem_inService, mem_inService]
  constructor
  · rintro ⟨hchild, hdetached, hstops⟩
    refine ⟨⟨childrenOf_step h hspared hstep hspawn hchild, ?_, ?_⟩, fun hx => ?_⟩
    · exact fun hx => hdetached (hext.detached x hx)
    · intro hx
      rcases stopRequests_step hstep with ⟨hsame, -⟩ | ⟨r, now, -, -, -, hmore⟩
      · exact hstops (hsame ▸ hx)
      · exact hstops (hmore ▸ List.mem_cons_of_mem _ hx)
    · exact (out_of_notified hstep hx).elim hdetached hstops
  · rintro ⟨⟨hchild, hdetached, hstops⟩, hnotified⟩
    have hlive : x ∈ t'.actors := by
      by_contra hgone
      obtain ⟨index, response, f, outer, -, hin, hf⟩ :=
        removed_steps hcases ((mem_childrenOf hsound.tables).1 hchild).1 hgone
      have hcall := List.mem_of_getElem? hin
      rcases hf with ⟨r, rfl, rfl⟩ | ⟨rfl, -⟩
      · exact hdetached (hsound.frames _ hcall _ List.mem_cons_self).2
      · exact hspared _ hcall _ List.mem_cons_self hchild
    refine ⟨childrenOf_of_live hsound.tables hsound' hext hlive hchild, fun hx => ?_, fun hx => ?_⟩
    · rw [detached_step hstep] at hx
      cases hleaves : (resumedFrame t a).bind (departing t.toTables) with
      | none =>
          rw [hleaves] at hx
          exact hdetached hx
      | some y =>
          rw [hleaves] at hx
          obtain rfl := (Finset.mem_insert.1 hx).resolve_right hdetached
          obtain ⟨f, hf, hdeparts⟩ := Option.bind_eq_some_iff.1 hleaves
          obtain ⟨index, response, outer, -, hin⟩ := resumedFrame_eq_some hf
          rw [notified_of_resumed hf] at hnotified
          cases f with
          | stopSingle r =>
              dsimp only [departing] at hdeparts
              split_ifs at hdeparts
              cases hdeparts
              exact hspared _ (List.mem_of_getElem? hin) _ List.mem_cons_self hchild
          | _ => exact hnotified hdeparts
    · rcases stopRequests_step hstep with ⟨hsame, -⟩ | ⟨r, now, -, -, hr, hmore⟩
      · exact hstops (hsame ▸ hx)
      · rw [hmore] at hx
        obtain rfl := (List.mem_cons.1 hx).resolve_right hstops
        exact hnotified hr

theorem detached_lt_step (hsound : SoundTree t) (h : ∀ x ∈ t.detached, x < t.nextId)
    (hstep : t.step stringify a = some t') : ∀ x ∈ t'.detached, x < t'.nextId := by
  intro x hx
  refine Nat.lt_of_lt_of_le ?_ (steps_extends (step_cases hstep)).nextId
  rw [detached_step hstep] at hx
  cases hleaves : (resumedFrame t a).bind (departing t.toTables) with
  | none =>
      rw [hleaves] at hx
      exact h x hx
  | some y =>
      rw [hleaves] at hx
      rcases Finset.mem_insert.1 hx with rfl | hx
      · obtain ⟨f, hf, hdeparts⟩ := Option.bind_eq_some_iff.1 hleaves
        obtain ⟨index, response, outer, -, hin⟩ := resumedFrame_eq_some hf
        exact departing_lt (hsound.frames _ (List.mem_of_getElem? hin) f List.mem_cons_self)
          hdeparts
      · exact h x hx

theorem stopRequests_lt_step (h : ∀ x ∈ t.stopRequests, x < t.nextId)
    (hstep : t.step stringify a = some t') : ∀ x ∈ t'.stopRequests, x < t'.nextId := by
  intro x hx
  refine Nat.lt_of_lt_of_le ?_ (steps_extends (step_cases hstep)).nextId
  rcases stopRequests_step hstep with ⟨hsame, -⟩ | ⟨r, now, -, hlt, -, hmore⟩
  · exact h x (hsame ▸ hx)
  · rw [hmore] at hx
    rcases List.mem_cons.1 hx with rfl | hx
    · exact hlt
    · exact h x hx

theorem Regular.step (h : Regular t p) (hstep : t.step stringify a = some t') : Regular t' p :=
  ⟨h.orderly.step hstep, detached_lt_step h.orderly.sound h.detached_lt hstep,
    stopRequests_lt_step h.stopRequests_lt hstep⟩

/-- A call that begins spares the children of `p`, if it begins no restart of one. -/
theorem spares_invokes (h : Regular t p) (hstep : t.step stringify a = some t')
    {frames : List (Frame N V)} (hinvokes : Invokes t.toTables a frames)
    (hcalls : t'.calls = t.calls ++ [frames])
    (hquiet : ∀ x ∈ begins stringify t a, x ∉ childrenOf t.toTables p)
    (hmigrate : ∀ x, a = .migrate x → x ∉ childrenOf t.toTables p) :
    ∀ f ∈ frames, Spares t.toTables p f := by
  have hsound := h.orderly.sound.tables
  have hplanned := plans_invokes (s := ⟨t, []⟩) hstep hinvokes hcalls
  have hnotFor := notFor_invokes hsound h.orderly.oneForOne hstep hinvokes hcalls
  cases hinvokes with
  | stop | stopRemote | restartRemote | spawnRemote => simp [Spares]
  | @restart _ r m ha hm =>
      obtain ⟨hlive, hspawned⟩ := hsound.live_of_metadata hm
      have hother : m.parent.map (·.id) ≠ some p := by
        intro hparent
        obtain ⟨q, hq, hp⟩ := Option.map_eq_some_iff.1 hparent
        refine hquiet r.id (hplanned r.id ?_)
          ((mem_childrenOf hsound).2 ⟨hlive, m, q, hspawned, hq, hp⟩)
        refine List.mem_flatMap.2 ⟨_, List.mem_cons_of_mem _ List.mem_cons_self, ?_⟩
        rw [starting, hq]
        exact List.mem_singleton_self _
      have hnot : r.id ∉ childrenOf t.toTables p := by
        intro hx
        obtain ⟨-, m', q, hm', hq, hp⟩ := (mem_childrenOf hsound).1 hx
        obtain rfl := Option.some.inj (hspawned.symm.trans hm')
        exact hother (by rw [hq, Option.map_some, hp])
      intro f hf
      rcases List.mem_cons.1 hf with rfl | hf
      · exact hnot
      · exact List.mem_singleton.1 hf ▸ hother
  | strategy =>
      intro f hf
      obtain rfl := List.mem_singleton.1 hf
      exact hnotFor _ hf
  | migrate hx hchildren =>
      intro f hf
      exact List.mem_singleton.1 hf ▸ hmigrate _ rfl

theorem Spared.step (hspared : Spared t p) (h : Regular t p)
    (hstep : t.step stringify a = some t')
    (hquiet : ∀ x ∈ begins stringify t a, x ∉ childrenOf t.toTables p)
    (hmigrate : ∀ x, a = .migrate x → x ∉ childrenOf t.toTables p) : Spared t' p := by
  have hsound := h.orderly.sound
  have hcases := step_cases hstep
  have hext := steps_extends hcases
  have hsound' := (soundTree_step hsound hstep).tables
  have hkeep : ∀ call ∈ t.calls, ∀ f ∈ call, Spares t'.toTables p f := fun call hcall f hf =>
    (hspared call hcall f hf).extend hsound.tables hsound' hext (hsound.frames call hcall f hf)
  intro call hcall
  generalize htables : t'.toTables = tables at hcases hsound' hkeep ⊢
  generalize hcalls : t'.calls = calls at hcases hcall
  cases hcases with
  | idle | spawned | childSpawned | removedRemote => exact hkeep call hcall
  | invoked hinvokes =>
      rcases List.mem_append.1 hcall with hcall | hcall
      · exact hkeep call hcall
      · rw [List.mem_singleton.1 hcall]
        exact spares_invokes h hstep hinvokes hcalls hquiet hmigrate
  | @resumed index response f outer hin =>
      have hold := hkeep _ (List.mem_of_getElem? hin)
      rcases mem_setCalls hcall with hcall | rfl
      · exact hkeep call hcall
      · refine List.forall_mem_append.2 ⟨?_, fun g hg => hold g (List.mem_cons_of_mem f hg)⟩
        exact spares_resumes (resumeFrame_cases t.toTables response f)
          (hspared _ (List.mem_of_getElem? hin) f List.mem_cons_self)
  | rejected => exact hkeep call (List.mem_of_mem_eraseIdx hcall)

/-- A new child of `p` is in service. -/
theorem inService_spawnChild (h : Regular t p) {q : ActorRef N} (hq : q.id = p)
    (hlive : p ∈ t.actors) {actorClass : String} {options : SpawnOptions V}
    (hstep : t.step stringify (.spawnChild q actorClass options) = some t') :
    inService t' p = insert t.nextId (inService t p) := by
  have hsound := h.orderly.sound
  have hext := steps_extends (step_cases hstep)
  have hsound' := (soundTree_step hsound hstep).tables
  cases hstep
  have hnew : t.nextId ∈ childrenOf (t.toTables.spawnChild q actorClass options none) p := by
    rw [mem_childrenOf hsound']
    unfold Tables.spawnChild
    rw [if_pos (hq ▸ hlive)]
    exact ⟨Finset.mem_insert_self _ _, _, q, Function.update_self _ _ _, rfl, hq⟩
  have hdetached : (t.toTables.spawnChild q actorClass options none).detached = t.detached :=
    detached_spawnChild _ _ _ _
  ext x
  rw [Finset.mem_insert, mem_inService, mem_inService]
  constructor
  · rintro ⟨hchild, hdetached', hstops⟩
    refine (Finset.mem_insert.1 (childrenOf_spawnChild hsound.tables hsound' hchild)).imp_right
      fun hold => ⟨hold, hdetached ▸ hdetached', hstops⟩
  · rintro (rfl | ⟨hchild, hdetached', hstops⟩)
    · refine ⟨hnew, fun hx => ?_, fun hx => ?_⟩
      · exact absurd (h.detached_lt _ (hdetached ▸ hx)) (Nat.lt_irrefl _)
      · exact absurd (h.stopRequests_lt _ hx) (Nat.lt_irrefl _)
    · refine ⟨childrenOf_of_live hsound.tables hsound' hext ?_ hchild, hdetached ▸ hdetached',
        hstops⟩
      have hold := ((mem_childrenOf hsound.tables).1 hchild).1
      change x ∈ (t.toTables.spawnChild q actorClass options none).actors
      unfold Tables.spawnChild
      rw [if_pos (hq ▸ hlive)]
      exact Finset.mem_insert_of_mem hold

end

end Libeam.Proofs.LiveWorkers
