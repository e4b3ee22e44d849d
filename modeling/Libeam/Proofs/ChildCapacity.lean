import Libeam.Lib.Slots
import Libeam.Supervision.DynamicSupervisor
import Libeam.Proofs.ChildLimits
import Libeam.Proofs.ChildSlots
/-!
# The limit of a dynamic supervisor

A stop takes a child off `context.children` before `terminate()` is awaited, and the restart that
awaits it will start the child again.  So the set may be smaller than what there is, and than what
there will be.  The limit holds as long as a child is started only when a slot is free, counting
the children in the table and those that a restart will start again.
-/

namespace Libeam.Proofs.ChildCapacity

open Libeam.System (ActorId Supervisor)
open Supervision Lib.Transition Lib.Slots TreeTables TreeSteps RestartFrames ChildSlots

variable {N V : Type}

/-! ## Children, and children to come -/

/-- The children of `p` in the actors table. -/
def childrenOf (t : Tables N V) (p : ActorId) : Finset ActorId :=
  t.actors.filter fun x => (t.parentOf x).map (·.id) = some p

/-- The child of `p` that a suspended function will start again. -/
def replaces (p : ActorId) : Frame N V → Option ActorId
  | .respawn x m => if m.parent.map (·.id) = some p then some x else none
  | _ => none

/-- The children of `p` that restarts under way will start again. -/
def owedTo (calls : List (List (Frame N V))) (p : ActorId) : List ActorId :=
  calls.flatMap fun call => call.filterMap (replaces p)

section
variable {t t' : Tables N V} {p x : ActorId}

theorem mem_childrenOf (h : Sound t) : x ∈ childrenOf t p ↔
    x ∈ t.actors ∧ ∃ m r, t.spawned x = some m ∧ m.parent = some r ∧ r.id = p := by
  rw [childrenOf, Finset.mem_filter]
  refine and_congr_right fun hx => ?_
  obtain ⟨m, hm⟩ := h.live_spawned x hx
  rw [h.parentOf_of_live hx hm, Option.map_eq_some_iff]
  constructor
  · rintro ⟨r, hr, hp⟩
    exact ⟨m, r, hm, hr, hp⟩
  · rintro ⟨m', r, hm', hr, hp⟩
    obtain rfl := Option.some.inj (hm.symm.trans hm')
    exact ⟨r, hr, hp⟩

/-- An instance that has not been spawned has no children. -/
theorem childrenOf_nextId (h : Sound t) : childrenOf t t.nextId = ∅ := by
  refine Finset.eq_empty_of_forall_notMem fun x hx => ?_
  obtain ⟨-, m, r, hm, hr, hp⟩ := (mem_childrenOf h).1 hx
  exact absurd (h.parent_lt x m r hm hr) (hp ▸ Nat.lt_irrefl _)

/-- Only a new instance can be a new child. -/
theorem childrenOf_subset (h : Sound t) (h' : Sound t') (hext : Extends t t')
    (hnew : t.nextId ∈ childrenOf t' p → False)
    (hborn : ∀ y ∈ t'.actors, y ∉ t.actors → y = t.nextId) :
    childrenOf t' p ⊆ childrenOf t p := by
  intro y hy
  obtain ⟨hlive, m, r, hm, hr, hp⟩ := (mem_childrenOf h').1 hy
  by_cases hold : y ∈ t.actors
  · exact (mem_childrenOf h).2
      ⟨hold, m, r, (hext.spawned y (h.lt_of_live hold)).symm.trans hm, hr, hp⟩
  · obtain rfl := hborn y hlive hold
    exact (hnew hy).elim

theorem childrenOf_subset_insert (h : Sound t) (h' : Sound t') (hext : Extends t t')
    (hborn : ∀ y ∈ t'.actors, y ∉ t.actors → y = t.nextId) :
    childrenOf t' p ⊆ insert t.nextId (childrenOf t p) := by
  intro y hy
  obtain ⟨hlive, m, r, hm, hr, hp⟩ := (mem_childrenOf h').1 hy
  by_cases hold : y ∈ t.actors
  · exact Finset.mem_insert_of_mem ((mem_childrenOf h).2
      ⟨hold, m, r, (hext.spawned y (h.lt_of_live hold)).symm.trans hm, hr, hp⟩)
  · exact Finset.mem_insert.2 (.inl (hborn y hlive hold))

theorem childrenOf_shrink (h : Sound t) (h' : Sound t') (hext : Extends t t')
    (hactors : t'.actors ⊆ t.actors) : childrenOf t' p ⊆ childrenOf t p :=
  childrenOf_subset h h' hext
    (fun hy => absurd (h.lt_of_live (hactors ((mem_childrenOf h').1 hy).1)) (Nat.lt_irrefl _))
    fun _ hy hnew => absurd (hactors hy) hnew

theorem childrenOf_spawn (h : Sound t) {actorClass : String} {options : SpawnOptions V}
    {first : Option ActorId} (h' : Sound (t.spawn actorClass options first)) :
    childrenOf (t.spawn actorClass options first) p ⊆ childrenOf t p := by
  refine childrenOf_subset h h' (extends_register _ _ _) (fun hnew => ?_) fun y hy hold =>
    (Finset.mem_insert.1 hy).resolve_right hold
  obtain ⟨-, m, r, hm, hr, -⟩ := (mem_childrenOf h').1 hnew
  have hspawned : (t.spawn actorClass options first).spawned t.nextId =
      some ⟨actorClass, options, none⟩ := Function.update_self _ _ _
  obtain rfl := Option.some.inj (hspawned.symm.trans hm)
  cases hr

theorem actors_spawnChild {q : ActorRef N} {actorClass : String} {options : SpawnOptions V}
    {first : Option ActorId} : ∀ y ∈ (t.spawnChild q actorClass options first).actors,
      y ∉ t.actors → y = t.nextId := by
  intro y hy hold
  unfold Tables.spawnChild at hy
  split_ifs at hy
  · exact (Finset.mem_insert.1 hy).resolve_right hold
  · exact absurd hy hold

theorem childrenOf_spawnChild (h : Sound t) {q : ActorRef N} {actorClass : String}
    {options : SpawnOptions V} {first : Option ActorId}
    (h' : Sound (t.spawnChild q actorClass options first)) :
    childrenOf (t.spawnChild q actorClass options first) p ⊆ insert t.nextId (childrenOf t p) :=
  childrenOf_subset_insert h h' (extends_spawnChild _ _ _ _ _) actors_spawnChild

/-- The child of another parent. -/
theorem childrenOf_spawnChild_of_ne (h : Sound t) {q : ActorRef N} (hq : q.id ≠ p)
    {actorClass : String} {options : SpawnOptions V} {first : Option ActorId}
    (h' : Sound (t.spawnChild q actorClass options first)) :
    childrenOf (t.spawnChild q actorClass options first) p ⊆ childrenOf t p := by
  by_cases hlive : q.id ∈ t.actors
  · refine childrenOf_subset h h' (extends_spawnChild _ _ _ _ _) (fun hnew => ?_)
      actors_spawnChild
    obtain ⟨-, m, r, hm, hr, hp⟩ := (mem_childrenOf h').1 hnew
    have hspawned : (t.spawnChild q actorClass options first).spawned t.nextId =
        some ⟨actorClass, options, some q⟩ := by
      unfold Tables.spawnChild
      rw [if_pos hlive]
      exact Function.update_self _ _ _
    obtain rfl := Option.some.inj (hspawned.symm.trans hm)
    cases hr
    exact hq hp
  · have hsame : t.spawnChild q actorClass options first = t := if_neg hlive
    rw [hsame]

/-- The function does not start children of `p` again for a strategy of `p`. -/
def NotFor (p : ActorId) : Frame N V → Prop
  | .strategy q _ _ _ => q.id ≠ p
  | _ => True

variable [DecidableEq N]

/-- A resumed function brings a child of `p` only as the end of a restart. -/
theorem childrenOf_resumes (h : Sound t) (h' : Sound t') (hext : Extends t t')
    {response : Response} {f : Frame N V} {frames : List (Frame N V)}
    (hresumes : Resumes t response f t' frames) (hf : NotFor p f) :
    childrenOf t' p ⊆ childrenOf t p ∨
      ∃ x, replaces p f = some x ∧ childrenOf t' p ⊆ insert t.nextId (childrenOf t p) := by
  cases hresumes with
  | ends | descends | unregistered | stops | requests | requestsStop =>
      exact .inl (Finset.Subset.refl _)
  | leaves => exact .inl (childrenOf_shrink h h' hext (detach_actors t _).subset)
  | removed => exact .inl (childrenOf_shrink h h' hext (Finset.erase_subset _ _))
  | spawned hsuccess hm => exact .inl (childrenOf_spawn h h')
  | @childSpawned f x m frames q hp hsuccess hcases =>
      by_cases hq : q.id = p
      · rcases hcases with ⟨rfl, hparent, -⟩ | ⟨remote, plan, rfl, -⟩
        · refine .inr ⟨x, ?_, childrenOf_spawnChild h h'⟩
          rw [replaces, hparent, Option.map_some, hq, if_pos rfl]
        · exact absurd hq hf
      · exact .inl (childrenOf_spawnChild_of_ne h hq h')
  | forgot | added => exact .inl (childrenOf_shrink h h' hext (Finset.Subset.refl _))
  | dropped =>
      exact .inl (childrenOf_shrink h h' hext (actors_dropRemoteChild _ _).subset)
  | replaced =>
      exact .inl (childrenOf_shrink h h' hext (actors_replaceRemoteChild _).subset)

/-- What takes its place restarts nothing, and starts nothing again for `p`. -/
theorem frames_resumes {response : Response} {f : Frame N V} {frames : List (Frame N V)}
    (hresumes : Resumes t response f t' frames) :
    (∀ x m, .respawn x m ∉ frames) ∧ (NotFor p f → ∀ g ∈ frames, NotFor p g) := by
  cases hresumes with
  | ends | removed | spawned | forgot | dropped | replaced | added =>
      exact ⟨fun _ _ => List.not_mem_nil, fun _ _ hg => (List.not_mem_nil hg).elim⟩
  | @descends f r c rest hf =>
      unfold Tables.stopFrame
      split_ifs <;> simp [NotFor]
  | @leaves f r hf =>
      unfold Tables.leave
      dsimp only
      split_ifs <;> simp [NotFor]
  | unregistered | requestsStop => simp [NotFor]
  | @childSpawned f x m frames q hp hsuccess hcases =>
      rcases hcases with ⟨rfl, -, rfl⟩ | ⟨remote, plan, rfl, rfl⟩ <;> simp [NotFor]
  | @stops q c stops remote plan g hg =>
      have hstop : g = .stop c ∨ g = .stopRemoteChild c.id := by
        rcases hg with rfl | rfl
        · exact .inl rfl
        · unfold Tables.stopFrame
          split_ifs
          · exact .inl rfl
          · exact .inr rfl
      rcases hstop with rfl | rfl <;> simp [NotFor]
  | requests => simp [NotFor]

omit [DecidableEq N] in
theorem filterMap_replaces {frames : List (Frame N V)} (h : ∀ x m, .respawn x m ∉ frames) :
    frames.filterMap (replaces p) = [] := by
  rw [List.filterMap_eq_nil_iff]
  intro f hf
  cases f with
  | respawn x m => exact absurd hf (h x m)
  | _ => rfl

end

/-! ## The calls of restarts -/

/-- Nothing but the stop of the instance. -/
def StopsOnly (x : ActorId) (f : Frame N V) : Prop :=
  ∃ r, r.id = x ∧ (f = .stopSingle r ∨ f = .unregistering r ∨ f = .terminating r)

/-- A restart has stopped its instance, or is about to. -/
def Tidy (t : Tables N V) (call : List (Frame N V)) : Prop :=
  ∀ x m, .respawn x m ∈ call → call = [.respawn x m] ∧ x ∉ t.actors ∨
    ∃ f, StopsOnly x f ∧ call = [f, .respawn x m]

section
variable {t t' : Tables N V} {call : List (Frame N V)}

theorem Tidy.mono (h : Tidy t call) (hsound : Sound t) (hframes : ∀ f ∈ call, SoundFrame t f)
    (hext : Extends t t') : Tidy t' call := by
  intro x m hmem
  refine (h x m hmem).imp_left fun ⟨hcall, hgone⟩ => ⟨hcall, fun hlive => hgone ?_⟩
  exact hext.actors x hlive (hsound.spawned_lt x m (hframes _ hmem))

theorem tidy_of_none (h : ∀ x m, .respawn x m ∉ call) : Tidy t call :=
  fun x m hmem => absurd hmem (h x m)

variable [DecidableEq N]

/-- The stop of a restart goes on until the instance is gone. -/
theorem tidy_stops {x : ActorId} {f : Frame N V} (hf : StopsOnly x f) (response : Response) :
    (t.resumeFrame response f).2 = [] ∧ x ∉ (t.resumeFrame response f).1.actors ∨
      ∃ g, StopsOnly x g ∧ (t.resumeFrame response f).2 = [g] := by
  obtain ⟨r, rfl, rfl | rfl | rfl⟩ := hf
  · dsimp only [Tables.resumeFrame]
    split_ifs with hlive
    · refine .inr ⟨_, ⟨r, rfl, ?_⟩, rfl⟩
      split_ifs
      · exact .inr (.inl rfl)
      · exact .inr (.inr rfl)
    · exact .inl ⟨rfl, hlive⟩
  · exact .inr ⟨_, ⟨r, rfl, .inr (.inr rfl)⟩, rfl⟩
  · exact .inl ⟨rfl, Finset.notMem_erase _ _⟩

theorem tidy_resumeFrame {f : Frame N V} {outer : List (Frame N V)} (h : Tidy t (f :: outer))
    (response : Response) :
    Tidy (t.resumeFrame response f).1 ((t.resumeFrame response f).2 ++ outer) := by
  intro x m hmem
  have houter : .respawn x m ∈ outer := (List.mem_append.1 hmem).resolve_left
    ((frames_resumes (p := x) (resumeFrame_cases t response f)).1 x m)
  rcases h x m (List.mem_cons_of_mem f houter) with ⟨hcall, -⟩ | ⟨g, hg, hcall⟩
  · cases hcall
    exact (List.not_mem_nil houter).elim
  · cases hcall
    rcases tidy_stops hg response with ⟨hframes, hgone⟩ | ⟨g', hg', hframes⟩
    · exact .inl ⟨by rw [hframes, List.nil_append], hgone⟩
    · exact .inr ⟨g', hg', by rw [hframes, List.singleton_append]⟩

end

/-! ## Strategies for several children -/

/-- The tree goes on with the same calls, or begins one that is no strategy of `p`. -/
def Calm (p : ActorId) (t u : Tree N V) : Prop :=
  u.calls = t.calls ∨ ∃ frames, u.calls = t.calls ++ [frames] ∧ ∀ f ∈ frames, NotFor p f

section
variable {t : Tree N V} {p q : ActorId}

theorem calm_invoke {frames : List (Frame N V)} (h : ∀ f ∈ frames, NotFor p f) :
    Calm p t (t.invoke frames) :=
  .inr ⟨frames, rfl, h⟩

theorem calm_restart (r : ActorRef N) : Calm p t (t.restart r) := by
  unfold Tree.restart
  split
  · exact .inl rfl
  · exact calm_invoke (by simp [NotFor])

theorem calm_stop (r : ActorRef N) : Calm p t (t.invoke [.stop r]) :=
  calm_invoke (by simp [NotFor])

theorem calm_strategy {stops : List (ActorRef N)} {remote : Bool} {plan : List (Planned N V)}
    (h : (t.self q).id ≠ p) : Calm p t (t.invoke [.strategy (t.self q) stops remote plan]) :=
  calm_invoke fun _ hf => List.mem_singleton.1 hf ▸ h

/-- A strategy for several children is that of another parent. -/
theorem self_ne (hsound : Sound t.toTables) (hp : (t.childSupervision p).strategy = .oneForOne)
    (hq : q ∈ t.actors) (hstrategy : (t.childSupervision q).strategy ≠ .oneForOne) :
    (t.self q).id ≠ p := by
  obtain ⟨m, hm⟩ := hsound.live_spawned q hq
  rw [(hsound.self q m hm).2]
  rintro rfl
  exact hstrategy hp

theorem calm_applyStrategy (hsound : Sound t.toTables)
    (hp : (t.childSupervision p).strategy = .oneForOne) (hq : q ∈ t.actors) (r : ActorRef N) :
    Calm p t (t.applyStrategy r q) := by
  have hself := self_ne hsound hp hq
  unfold Tree.applyStrategy
  cases hstrategy : (t.childSupervision q).strategy with
  | oneForOne => exact calm_restart r
  | oneForAll => exact calm_strategy (hself (by rw [hstrategy]; exact nofun))
  | restForOne =>
      dsimp only
      cases t.fromCrashed q r.id with
      | nil => exact .inl rfl
      | cons c cs => exact calm_strategy (hself (by rw [hstrategy]; exact nofun))

theorem calm_handleRootCrash (r : ActorRef N) (now : Nat) :
    Calm p t (t.handleRootCrash r now) := by
  unfold Tree.handleRootCrash
  dsimp only
  cases (t.supervisor.handleCrash r.id now).2 with
  | Restart => exact calm_restart (t := { t with supervisor := _, rootCrashes := _ }) r
  | Stop =>
      by_cases hfull : t.supervisor.maxRestarts ≤ (rootRecord t.supervisor r.id now).count
      · rw [if_pos hfull]
        exact calm_stop r
      · rw [if_neg hfull]
        exact calm_stop r

variable [DecidableEq N] {stringify : List V → String}

theorem calm_applyRemoteStrategy (hsound : Sound t.toTables)
    (hp : (t.childSupervision p).strategy = .oneForOne) {e : RemoteChildEntry N V}
    (he : e.parentRef.id ∈ t.actors) : Calm p t (t.applyRemoteStrategy e) := by
  have hself := self_ne hsound hp he
  unfold Tree.applyRemoteStrategy
  dsimp only
  cases hstrategy : (t.childSupervision e.parentRef.id).strategy with
  | oneForOne => exact calm_invoke (by simp [NotFor])
  | oneForAll => exact calm_strategy (hself (by rw [hstrategy]; exact nofun))
  | restForOne =>
      cases t.fromCrashed e.parentRef.id e.childRef.id with
      | nil => exact .inl rfl
      | cons c cs => exact calm_strategy (hself (by rw [hstrategy]; exact nofun))

theorem calm_crash (hsound : Sound t.toTables)
    (hp : (t.childSupervision p).strategy = .oneForOne) {r : ActorRef N} {now : Nat}
    {t' : Tree N V} (hstep : t.step stringify (.crash r now) = some t') : Calm p t t' := by
  dsimp only [Tree.step] at hstep
  split_ifs at hstep
  cases hstep
  unfold Tree.handleCrash
  split
  · next q hm =>
      unfold Tree.handleChildCrash
      split_ifs with hq
      · dsimp only
        split_ifs
        · refine calm_applyStrategy (t := { t with childSupervisor := _, childCrashes := _ })
            ?_ ?_ ?_ r
          exacts [hsound, hp, hq]
        · exact calm_stop r
      · exact .inl rfl
  · split_ifs
    · exact .inl rfl
    · exact calm_handleRootCrash r now

theorem calm_remoteCrash (hsound : Sound t.toTables)
    (hp : (t.childSupervision p).strategy = .oneForOne) (x : ActorId) (now : Nat) :
    Calm p t (t.handleRemoteChildCrash stringify x now) := by
  unfold Tree.handleRemoteChildCrash
  split
  · exact .inl rfl
  · next e he =>
      dsimp only
      split_ifs with hlive hgranted
      · refine calm_applyRemoteStrategy
          (t := { t with childSupervisor := _, childCrashes := _ }) ?_ ?_ ?_
        exacts [hsound, hp, hlive]
      · exact .inl rfl
      · exact .inl rfl

/-- A call that begins is no strategy of a parent that restarts one for one. -/
theorem notFor_invokes (hsound : Sound t.toTables)
    (hp : (t.childSupervision p).strategy = .oneForOne) {a : TreeAction N V} {t' : Tree N V}
    (hstep : t.step stringify a = some t') {frames : List (Frame N V)}
    (hinvokes : Invokes t.toTables a frames) (hcalls : t'.calls = t.calls ++ [frames]) :
    ∀ f ∈ frames, NotFor p f := by
  have hcalm : Calm p t t' → ∀ f ∈ frames, NotFor p f := by
    rintro (hsame | ⟨frames', hcalls', hframes⟩)
    · rw [hcalls] at hsame
      exact absurd hsame (by simp)
    · rw [hcalls, List.append_cancel_left_eq] at hcalls'
      cases hcalls'
      exact hframes
  cases hinvokes with
  | stop | restart | stopRemote | restartRemote | spawnRemote | migrate => simp [NotFor]
  | strategy ha hq hrefs hids hplan =>
      rcases ha with ⟨r, now, rfl⟩ | ⟨x, now, rfl⟩
      · exact hcalm (calm_crash hsound hp hstep)
      · cases hstep
        exact hcalm (calm_remoteCrash hsound hp x now)

end

/-! ## What a step does to the slots -/

/-- The slots of `p` that are taken. -/
def slots (t : Tables N V) (calls : List (List (Frame N V))) (p : ActorId) : Nat :=
  taken (childrenOf t p) (owedTo calls p)

/-- What holds of `p` in every state. -/
structure Orderly (t : Tree N V) (p : ActorId) : Prop where
  sound : SoundTree t
  oneForOne : (t.childSupervision p).strategy = .oneForOne
  calm : ∀ call ∈ t.calls, ∀ f ∈ call, NotFor p f
  tidy : ∀ call ∈ t.calls, Tidy t.toTables call

section
variable {t t' : Tree N V} {p : ActorId} [DecidableEq N] {stringify : List V → String}

omit [DecidableEq N] in
theorem tidy_invokes {a : TreeAction N V} {frames : List (Frame N V)}
    (hinvokes : Invokes t.toTables a frames) : Tidy t.toTables frames := by
  cases hinvokes with
  | @restart _ r m ha hm =>
      intro x m' hmem
      have heq : (.respawn x m' : Frame N V) = .respawn r.id m := by simpa using hmem
      cases heq
      exact .inr ⟨_, ⟨r, rfl, .inl rfl⟩, rfl⟩
  | stop | strategy | stopRemote | restartRemote | spawnRemote | migrate =>
      exact tidy_of_none (by simp)

theorem tidy_step (h : SoundTree t) (htidy : ∀ call ∈ t.calls, Tidy t.toTables call)
    {a : TreeAction N V} (hstep : t.step stringify a = some t') :
    ∀ call ∈ t'.calls, Tidy t'.toTables call := by
  have hcases := step_cases hstep
  have hkeep : ∀ call ∈ t.calls, Tidy t'.toTables call := fun call hcall =>
    (htidy call hcall).mono h.tables (h.frames call hcall) (steps_extends hcases)
  intro call hcall
  generalize htables : t'.toTables = tables at hcases hkeep ⊢
  generalize t'.calls = calls at hcases hcall
  cases hcases with
  | idle | spawned | childSpawned | removedRemote => exact hkeep call hcall
  | invoked hinvokes =>
      rcases List.mem_append.1 hcall with hcall | hcall
      · exact htidy call hcall
      · rw [List.mem_singleton.1 hcall]
        exact tidy_invokes hinvokes
  | resumed hin =>
      rcases mem_setCalls hcall with hcall | rfl
      · exact hkeep call hcall
      · exact tidy_resumeFrame (htidy _ (List.mem_of_getElem? hin)) _
  | rejected => exact hkeep call (List.mem_of_mem_eraseIdx hcall)

theorem childSupervision_step (h : SoundTree t) {a : TreeAction N V}
    (hstep : t.step stringify a = some t') : t'.childSupervision = t.childSupervision := by
  rcases ChildLimits.childCrashes_step h hstep with
    ⟨r, now, m, q, -, -, -, -, hcounts⟩ | ⟨-, ⟨hsame, -⟩ | ⟨x, q, part, now, -, -, hcounts⟩⟩
  · exact hcounts.childSupervision
  · exact hsame
  · exact hcounts.childSupervision

theorem Orderly.step (h : Orderly t p) {a : TreeAction N V}
    (hstep : t.step stringify a = some t') : Orderly t' p where
  sound := soundTree_step h.sound hstep
  oneForOne := by
    rw [childSupervision_step h.sound hstep]
    exact h.oneForOne
  tidy := tidy_step h.sound h.tidy hstep
  calm := by
    have hcases := step_cases hstep
    intro call hcall
    generalize t'.toTables = tables at hcases
    generalize hcalls : t'.calls = calls at hcases hcall
    cases hcases with
    | idle | spawned | childSpawned | removedRemote => exact h.calm call hcall
    | invoked hinvokes =>
        rcases List.mem_append.1 hcall with hcall | hcall
        · exact h.calm call hcall
        · rw [List.mem_singleton.1 hcall]
          exact notFor_invokes h.sound.tables h.oneForOne hstep hinvokes hcalls
    | @resumed index response f outer hin =>
        rcases mem_setCalls hcall with hcall | rfl
        · exact h.calm call hcall
        · have hold := h.calm _ (List.mem_of_getElem? hin)
          refine List.forall_mem_append.2 ⟨?_, fun g hg => hold g (List.mem_cons_of_mem f hg)⟩
          exact (frames_resumes (resumeFrame_cases t.toTables response f)).2
            (hold f List.mem_cons_self)
    | rejected => exact h.calm call (List.mem_of_mem_eraseIdx hcall)

section
omit [DecidableEq N]

/-- A parent that restarts its children one for one has just been spawned. -/
theorem Orderly.spawn (hsound : SoundTree t) (htidy : ∀ call ∈ t.calls, Tidy t.toTables call)
    {actorClass : String} {options : ChildSupervisionOptions}
    (honeForOne : options.strategy = .oneForOne) :
    Orderly { t with
      toTables := t.toTables.spawn actorClass {} none
      childSupervision := Function.update t.childSupervision t.nextId options } t.nextId := by
  have htables : Sound (t.toTables.spawn actorClass {} none) :=
    sound_spawn hsound.tables fun _ hσ => nomatch hσ
  have hext : Extends t.toTables (t.toTables.spawn actorClass {} none) := extends_register _ _ _
  refine ⟨⟨htables, fun call hcall f hf => ?_⟩, ?_, fun call hcall f hf => ?_, ?_⟩
  · exact (hsound.frames call hcall f hf).extend hsound.tables hext
  · change (Function.update t.childSupervision t.nextId options t.nextId).strategy = _
    rw [Function.update_self, honeForOne]
  · cases f with
    | strategy q stops remote plan => exact (hsound.frames call hcall _ hf).1.ne
    | _ => trivial
  · exact fun call hcall => (htidy call hcall).mono hsound.tables (hsound.frames call hcall) hext

theorem replaces_eq_some {f : Frame N V} {x : ActorId} (h : replaces p f = some x) :
    ∃ m q, f = .respawn x m ∧ m.parent = some q ∧ q.id = p := by
  cases f with
  | respawn y m =>
      dsimp only [replaces] at h
      split_ifs at h with hparent
      cases h
      obtain ⟨q, hq, hp⟩ := Option.map_eq_some_iff.1 hparent
      exact ⟨m, q, rfl, hq, hp⟩
  | _ => cases h

/-- A restart that is about to start the child again has stopped the old instance. -/
theorem gone_of_replaces (h : Orderly t p) {f : Frame N V} {outer : List (Frame N V)}
    (hcall : f :: outer ∈ t.calls) {x : ActorId} (hx : replaces p f = some x) :
    x ∉ t.actors := by
  obtain ⟨m, q, rfl, -, -⟩ := replaces_eq_some hx
  rcases h.tidy _ hcall x m List.mem_cons_self with ⟨-, hgone⟩ | ⟨g, ⟨r, -, hg⟩, heq⟩
  · exact hgone
  · cases heq
    rcases hg with hg | hg | hg <;> cases hg

end

/-- A call that goes on takes no more slots. -/
theorem slots_resumed (h : Orderly t p) {index : Nat} {response : Response} {f : Frame N V}
    {outer : List (Frame N V)} (hin : t.calls[index]? = some (f :: outer)) :
    slots (t.toTables.resumeFrame response f).1
        (setCalls t.calls index ((t.toTables.resumeFrame response f).2 ++ outer)) p ≤
      slots t.toTables t.calls p := by
  have hcall := List.mem_of_getElem? hin
  have hresumes := resumeFrame_cases t.toTables response f
  have hframe := h.sound.frames _ hcall f List.mem_cons_self
  have hsound := (sound_resumeFrame h.sound.tables response hframe).1
  have hchildren := childrenOf_resumes h.sound.tables hsound (extends_resumeFrame _ response f)
    hresumes (h.calm _ hcall f List.mem_cons_self)
  have hnone : (t.toTables.resumeFrame response f).2.filterMap (replaces p) = [] :=
    filterMap_replaces (frames_resumes (p := p) hresumes).1
  obtain ⟨before, after, hbefore, hafter⟩ :=
    flatMap_setCalls (fun call => call.filterMap (replaces p)) rfl hin
  have hnow : owedTo (setCalls t.calls index ((t.toTables.resumeFrame response f).2 ++ outer)) p =
      before ++ (outer.filterMap (replaces p) ++ after) := by
    rw [owedTo, hafter, List.filterMap_append, hnone, List.nil_append]
  have hthen : owedTo t.calls p = before ++ ((f :: outer).filterMap (replaces p) ++ after) :=
    hbefore
  rw [slots, slots, hnow, hthen]
  rcases hchildren with hsub | ⟨x, hx, hsub⟩
  · have hrest : (outer.filterMap (replaces p)).Sublist ((f :: outer).filterMap (replaces p)) :=
      (List.sublist_cons_self f outer).filterMap _
    exact taken_anti hsub ((List.Sublist.refl _).append (hrest.append (List.Sublist.refl _)))
  · have hgone : x ∉ childrenOf t.toTables p := fun hx' =>
      gone_of_replaces h hcall hx ((mem_childrenOf h.sound.tables).1 hx').1
    calc taken _ (before ++ (outer.filterMap (replaces p) ++ after))
        ≤ taken _ (x :: (before ++ (outer.filterMap (replaces p) ++ after))) :=
          taken_replace_le hsub hgone
      _ = taken _ (before ++ ((f :: outer).filterMap (replaces p) ++ after)) := by
          rw [List.filterMap_cons_some hx, List.cons_append]
          exact taken_perm List.perm_middle.symm

/-- The child of a restart that begins is one of `begins`. -/
theorem slots_invoked (h : Orderly t p) {a : TreeAction N V}
    (hstep : t.step stringify a = some t') {frames : List (Frame N V)}
    (hinvokes : Invokes t.toTables a frames) (hcalls : t'.calls = t.calls ++ [frames]) :
    slots t.toTables (t.calls ++ [frames]) p ≤ slots t.toTables t.calls p ∨
      (∃ x ∈ begins stringify t a, x ∈ owedTo t.calls p) ∧
        slots t.toTables (t.calls ++ [frames]) p ≤ slots t.toTables t.calls p + 1 := by
  have howed : owedTo (t.calls ++ [frames]) p =
      owedTo t.calls p ++ frames.filterMap (replaces p) := by
    rw [owedTo, List.flatMap_append, List.flatMap_singleton]
    rfl
  have hplanned := plans_invokes (s := ⟨t, []⟩) hstep hinvokes hcalls
  rw [slots, slots, howed]
  have hnothing : frames.filterMap (replaces p) = [] →
      taken (childrenOf t.toTables p) (owedTo t.calls p ++ frames.filterMap (replaces p)) ≤
        taken (childrenOf t.toTables p) (owedTo t.calls p) := by
    intro hnone
    rw [hnone, List.append_nil]
  cases hinvokes with
  | stop | strategy | stopRemote | restartRemote | spawnRemote | migrate =>
      exact .inl (hnothing rfl)
  | @restart _ r m ha hm =>
      by_cases hparent : m.parent.map (·.id) = some p
      · obtain ⟨q, hq, hp⟩ := Option.map_eq_some_iff.1 hparent
        obtain ⟨hlive, hspawned⟩ := h.sound.tables.live_of_metadata hm
        have hchild : r.id ∈ childrenOf t.toTables p :=
          (mem_childrenOf h.sound.tables).2 ⟨hlive, m, q, hspawned, hq, hp⟩
        have hreplaces : replaces p (.respawn r.id m) = some r.id := if_pos hparent
        have hone : ([.stopSingle r, .respawn r.id m] : List (Frame N V)).filterMap (replaces p) =
            [r.id] := by
          rw [List.filterMap_cons_none rfl, List.filterMap_cons_some hreplaces, List.filterMap_nil]
        have hstarting : starting (.respawn r.id m) = [r.id] := by
          rw [starting, hq]
          rfl
        have hperm : (owedTo t.calls p ++ [r.id]).Perm (r.id :: owedTo t.calls p) :=
          List.perm_append_singleton _ _
        rw [hone, taken_perm hperm]
        by_cases hagain : r.id ∈ owedTo t.calls p
        · refine .inr ⟨⟨r.id, hplanned r.id ?_, hagain⟩, taken_owe_le _ _ _⟩
          refine List.mem_flatMap.2 ⟨_, List.mem_cons_of_mem _ List.mem_cons_self, ?_⟩
          rw [hstarting]
          exact List.mem_singleton_self _
        · exact .inl (taken_owe hchild hagain).le
      · have hreplaces : replaces p (.respawn r.id m) = none := if_neg hparent
        refine .inl (hnothing ?_)
        rw [List.filterMap_cons_none rfl, List.filterMap_cons_none hreplaces, List.filterMap_nil]

/-- A step takes one more slot only when it spawns a child, or begins a second restart of one. -/
theorem slots_step (h : Orderly t p) {a : TreeAction N V}
    (hstep : t.step stringify a = some t') :
    slots t'.toTables t'.calls p ≤ slots t.toTables t.calls p ∨
      ((∃ q actorClass options, a = .spawnChild q actorClass options ∧ q.id = p) ∨
          ∃ x ∈ begins stringify t a, x ∈ owedTo t.calls p) ∧
        slots t'.toTables t'.calls p ≤ slots t.toTables t.calls p + 1 := by
  have hcases := step_cases hstep
  have hsound := (soundTree_step h.sound hstep).tables
  generalize t'.toTables = tables at hcases hsound ⊢
  generalize hcalls : t'.calls = calls at hcases ⊢
  cases hcases with
  | idle => exact .inl (Nat.le_refl _)
  | spawned ha =>
      exact .inl (taken_anti (childrenOf_spawn h.sound.tables hsound) (List.Sublist.refl _))
  | @childSpawned q actorClass options =>
      by_cases hq : q.id = p
      · exact .inr ⟨.inl ⟨q, actorClass, options, rfl, hq⟩,
          taken_insert_le (childrenOf_spawnChild h.sound.tables hsound)⟩
      · exact .inl (taken_anti (childrenOf_spawnChild_of_ne h.sound.tables hq hsound)
          (List.Sublist.refl _))
  | invoked hinvokes =>
      exact (slots_invoked h hstep hinvokes hcalls).imp_right fun ⟨hagain, hle⟩ =>
        ⟨.inr hagain, hle⟩
  | @removedRemote _ x q ha =>
      refine .inl (taken_anti ?_ (List.Sublist.refl _))
      exact childrenOf_shrink h.sound.tables hsound (extends_removeRemoteChild _ _ _)
        (actors_removeRemoteChild x q).subset
  | resumed hin => exact .inl (slots_resumed h hin)
  | @rejected index f outer r hin hf =>
      obtain ⟨before, after, hbefore, hafter⟩ :=
        flatMap_setCalls (fun call => call.filterMap (replaces p)) rfl hin
      refine .inl (taken_anti (Finset.Subset.refl _) ?_)
      change ((setCalls t.calls index []).flatMap _).Sublist (t.calls.flatMap _)
      rw [hafter, hbefore]
      exact (List.Sublist.refl _).append (List.sublist_append_right _ _)

end

/-! ## Runs of a dynamic supervisor -/

def liveChildren (s : DynamicSupervisor N V) : Finset ActorId :=
  childrenOf s.tree.toTables s.self.id

/-- At most `maxChildren` children are in the actors table. -/
def Limited (s : DynamicSupervisor N V) : Prop :=
  ∀ m, s.options.maxChildren = some m → (liveChildren s).card ≤ m

/-- A slot is free, counting the children in the table and those that restarts owe. -/
def HasRoom (s : DynamicSupervisor N V) : Prop :=
  ∀ m, s.options.maxChildren = some m → slots s.tree.toTables s.tree.calls s.self.id < m

/-- A child is started, or restarted while a restart of it is under way, only where there is
room. -/
def Admits (stringify : List V → String) (s : DynamicSupervisor N V) :
    DynamicSupervisorAction N V → Prop
  | .startChild _ _ => s.isFull = false → s.self.id ∈ s.tree.actors → HasRoom s
  | .terminateChild _ => True
  | .tree a => ∀ x ∈ begins stringify s.tree a, x ∈ owedTo s.tree.calls s.self.id → HasRoom s

structure Held (s : DynamicSupervisor N V) : Prop where
  orderly : Orderly s.tree s.self.id
  within : ∀ m, s.options.maxChildren = some m → slots s.tree.toTables s.tree.calls s.self.id ≤ m

namespace Held

variable {s s' : DynamicSupervisor N V}

theorem limited (h : Held s) : Limited s :=
  fun m hm => (card_le_taken _ _).trans (h.within m hm)

variable [DecidableEq N] {stringify : List V → String}

/-- An action that spawns no child and begins no second restart, unless there is room. -/
theorem stepTree (h : Held s) {a : TreeAction N V} (hst : s.stepTree stringify a = some s')
    (hspawn : (∃ q actorClass options, a = .spawnChild q actorClass options ∧ q.id = s.self.id) →
      s.self.id ∈ s.tree.actors → HasRoom s)
    (hagain : ∀ x ∈ begins stringify s.tree a, x ∈ owedTo s.tree.calls s.self.id → HasRoom s) :
    Held s' := by
  obtain ⟨tree, htree, rfl⟩ := Option.map_eq_some_iff.1 hst
  refine ⟨h.orderly.step htree, fun m hm => ?_⟩
  have hlimit := h.within m hm
  rcases slots_step h.orderly htree with hle | ⟨hcause, hle⟩
  · exact hle.trans hlimit
  · by_cases hlive : s.self.id ∈ s.tree.actors ∨ ∃ x ∈ begins stringify s.tree a,
        x ∈ owedTo s.tree.calls s.self.id
    · have hroom : HasRoom s := by
        rcases hcause with hcause | ⟨x, hx, hx'⟩
        · rcases hlive with hlive | ⟨x, hx, hx'⟩
          · exact hspawn hcause hlive
          · exact hagain x hx hx'
        · exact hagain x hx hx'
      exact hle.trans (hroom m hm)
    · obtain ⟨hdead, hnone⟩ := not_or.1 hlive
      rcases hcause with ⟨q, actorClass, options, rfl, hq⟩ | hcause
      · -- a parent that is gone has no more children
        have hsame : tree = { s.tree with toTables := s.tree.toTables } := by
          have hspawn : s.tree.toTables.spawnChild q actorClass options none = s.tree.toTables :=
            if_neg (hq ▸ hdead)
          exact (Option.some.inj htree).symm.trans (by rw [hspawn])
        rw [hsame]
        exact hlimit
      · exact absurd hcause hnone

theorem step (h : Held s) {a : DynamicSupervisorAction N V} (ha : Admits stringify s a)
    (hst : s.step stringify a = some s') : Held s' := by
  cases a with
  | startChild actorClass options =>
      dsimp only [DynamicSupervisor.step, DynamicSupervisor.handleStartChild] at hst
      split_ifs at hst with hfull
      · cases hst
        exact h
      · refine h.stepTree hst (fun _ hlive => ha (Bool.eq_false_iff.2 hfull) hlive) ?_
        exact fun x hx => (List.not_mem_nil hx).elim
  | terminateChild ref =>
      dsimp only [DynamicSupervisor.step, DynamicSupervisor.handleTerminateChild] at hst
      split at hst
      · cases hst
        exact h
      · refine h.stepTree hst ?_ fun x hx => (List.not_mem_nil hx).elim
        rintro ⟨q, actorClass, options, heq, -⟩
        cases heq
  | tree a =>
      dsimp only [DynamicSupervisor.step] at hst
      split_ifs at hst with hspawns
      refine h.stepTree hst ?_ ha
      rintro ⟨q, actorClass, options, rfl, hq⟩
      exact absurd (decide_eq_true hq) hspawns

omit [DecidableEq N] in
/-- The supervisor has just been spawned. -/
theorem start {t : Tree N V} (hsound : SoundTree t)
    (htidy : ∀ call ∈ t.calls, Tidy t.toTables call) (options : DynamicSupervisorOptions) :
    Held (.start t options) := by
  have howed : owedTo t.calls t.nextId = [] := by
    refine List.flatMap_eq_nil_iff.2 fun call hcall => List.filterMap_eq_nil_iff.2 fun f hf => ?_
    by_contra hsome
    obtain ⟨x, hx⟩ := Option.ne_none_iff_exists'.1 hsome
    obtain ⟨m, r, rfl, hr, hp⟩ := replaces_eq_some hx
    have hspawned : t.spawned x = some m := hsound.frames call hcall _ hf
    exact absurd (hsound.tables.parent_lt x m r hspawned hr) (hp ▸ Nat.lt_irrefl _)
  have horderly : Orderly (DynamicSupervisor.start t options).tree t.nextId :=
    Orderly.spawn hsound htidy rfl
  refine ⟨horderly, fun m hm => ?_⟩
  have hnone : slots (t.toTables.spawn "DynamicSupervisorActor" {} none) t.calls t.nextId ≤
      slots t.toTables t.calls t.nextId :=
    taken_anti (childrenOf_spawn hsound.tables horderly.sound.tables) (List.Sublist.refl _)
  refine hnone.trans ?_
  rw [slots, childrenOf_nextId hsound.tables, howed]
  exact Nat.zero_le m

end Held

/-- While a child is started only where a slot is free, and none is restarted twice at a time
without one, there are never more children in the actors table than the limit allows. -/
theorem limited_throughout [DecidableEq N] (stringify : List V → String) {id : N}
    {childSupervision : ActorId → ChildSupervisionOptions} {supervisor : Supervisor}
    {before : List (TreeAction N V)} {t : Tree N V}
    (hrun : run (Tree.step stringify) (.init id childSupervision supervisor) before = some t)
    (options : DynamicSupervisorOptions) {actions : List (DynamicSupervisorAction N V)}
    (hadmits : Along (DynamicSupervisor.step stringify) (Admits stringify) (.start t options)
      actions) :
    Throughout (DynamicSupervisor.step stringify) Limited (.start t options) actions := by
  have htree : SoundTree t ∧ ∀ call ∈ t.calls, Tidy t.toTables call :=
    run_invariant' (I := fun t => SoundTree t ∧ ∀ call ∈ t.calls, Tidy t.toTables call)
      (fun _ _ _ h hst => ⟨soundTree_step h.1 hst, tidy_step h.1 h.2 hst⟩)
      ⟨soundTree_init _ _ _, fun _ hcall => (List.not_mem_nil hcall).elim⟩ hrun
  have hheld : Throughout (DynamicSupervisor.step stringify) Held (.start t options) actions :=
    throughout_of_invariant (fun _ _ _ h ha hst => h.step ha hst)
      (Held.start htree.1 htree.2 options) hadmits
  exact hheld.mono fun _ h => h.limited

/-! ## A child that is started during a restart -/

def emptyNode : Tree Unit Nat := .init () (fun _ => ⟨.oneForOne, 3, 5000⟩) (.new .Restart 3 5000)

/-- A supervisor of at most one child. -/
def onlyOne : DynamicSupervisor Unit Nat := .start emptyNode { maxChildren := some 1 }

def workerRef (id : ActorId) : ActorRef Unit := ⟨(), id, none, 0⟩

/-- The child crashes, and its restart awaits its `terminate()`. -/
def crashed : List (DynamicSupervisorAction Unit Nat) :=
  [.startChild "Worker" {}, .tree (.crash (workerRef 1) 0), .tree (.resumes 0 .success)]

def restarted : List (DynamicSupervisorAction Unit Nat) :=
  [.tree (.resumes 0 .success), .tree (.resumes 0 .success)]

theorem limited_throughout_restart :
    Throughout (DynamicSupervisor.step fun args => toString args) Limited onlyOne
      (crashed ++ restarted) := by
  have hbefore : run (Tree.step fun args => toString args) emptyNode [] = some emptyNode := rfl
  refine limited_throughout (fun args => toString args) hbefore _ ?_
  refine ⟨fun _ _ m hm => ?_, ?_⟩
  · cases hm
    decide
  rintro _ ⟨⟩
  refine ⟨fun x _ hx => (List.not_mem_nil hx).elim, ?_⟩
  rintro _ ⟨⟩
  refine along_of_forall_mem (P := fun a => ∃ i r, a = .tree (.resumes i r)) ?_ _ |>.mono ?_
  · simp [restarted]
  · rintro s a ⟨i, r, rfl⟩ x hx
    exact (List.not_mem_nil hx).elim

/-- The set is empty during the restart, so a second child is started.  Both are in the table then,
and two are when the restart is over. -/
theorem started_during_restart :
    ∃ s s', run (DynamicSupervisor.step fun args => toString args) onlyOne
        (crashed ++ [.startChild "Worker" {}]) = some s ∧ ¬ Limited s ∧
      run (DynamicSupervisor.step fun args => toString args) s restarted = some s' ∧
      s'.tree.calls = [] ∧ liveChildren s' = {2, 3} ∧ ¬ Limited s' := by
  refine ⟨_, _, rfl, fun h => ?_, rfl, rfl, by decide, fun h => ?_⟩
  · exact absurd (h 1 rfl) (by decide)
  · exact absurd (h 1 rfl) (by decide)

end Libeam.Proofs.ChildCapacity
