import Libeam.Proofs.TreeTables
/-!
# What a step of the tree does

`Steps t a tables calls` lists what an action can do to the tables and the calls in
progress, with everything that is checked on the way; invariants are proved from
these cases.  `SoundFrame` is what the locals of a suspended function satisfy.
-/

namespace Libeam.Proofs.TreeSteps

open Libeam.System (ActorId Supervisor)
open Supervision TreeTables

variable {N V : Type}

/-! ## Suspended functions -/

def SoundPlanned (t : Tables N V) (p : ActorId) : Planned N V → Prop
  | .onNode x m => t.spawned x = some m ∧ ∃ r, m.parent = some r ∧ r.id = p
  | .remote e => KnownEntry t e

def SoundFrame (t : Tables N V) : Frame N V → Prop
  | .stop r => r.id < t.nextId
  | .children r rest => r.id < t.nextId ∧ ∀ c ∈ rest, ChildRef t r.id c
  | .stopSingle r => r.id < t.nextId
  | .unregistering r => r.id < t.nextId ∧ r.id ∈ t.detached
  | .terminating r => r.id < t.nextId ∧ r.id ∈ t.detached
  | .respawn x m => t.spawned x = some m
  | .strategy p stops _ plan => p.id < t.nextId ∧ (∀ c ∈ stops, ChildRef t p.id c) ∧
      ∀ a ∈ plan, SoundPlanned t p.id a
  | .stopRemoteChild _ => True
  | .stopRequest e => KnownEntry t e
  | .restartRequest e => KnownEntry t e
  | .spawnRequest p _ node _ => p.id < t.nextId ∧ node ≠ t.id
  | .migrating x => x < t.nextId

section
variable {t t' : Tables N V}

theorem SoundPlanned.extend (hsound : Sound t) (h : Extends t t') {p : ActorId}
    {a : Planned N V} (ha : SoundPlanned t p a) : SoundPlanned t' p a := by
  cases a with
  | onNode x m => exact ⟨(h.spawned x (hsound.spawned_lt x m ha.1)).trans ha.1, ha.2⟩
  | remote e => exact KnownEntry.extend h ha

theorem SoundFrame.extend (hsound : Sound t) (h : Extends t t') {f : Frame N V}
    (hf : SoundFrame t f) : SoundFrame t' f := by
  have hlt : ∀ {x}, x < t.nextId → x < t'.nextId := fun hx => Nat.lt_of_lt_of_le hx h.nextId
  cases f with
  | stop | stopSingle | migrating => exact hlt hf
  | children r rest => exact ⟨hlt hf.1, fun c hc => (hf.2 c hc).extend h⟩
  | unregistering | terminating => exact ⟨hlt hf.1, h.detached _ hf.2⟩
  | respawn x m => exact (h.spawned x (hsound.spawned_lt x m hf)).trans hf
  | strategy p stops remote plan =>
      exact ⟨hlt hf.1, fun c hc => (hf.2.1 c hc).extend h,
        fun a ha => (hf.2.2 a ha).extend hsound h⟩
  | stopRemoteChild x => trivial
  | stopRequest | restartRequest => exact KnownEntry.extend h hf
  | spawnRequest p actorClass node options => exact ⟨hlt hf.1, h.id ▸ hf.2⟩

theorem inherits_respawn {x : ActorId} {m : ActorMetadata N V} (hm : t.spawned x = some m)
    {parent : Option (ActorRef N)} (hparent : m.parent.map (·.id) = parent.map (·.id)) :
    Inherits t (some (t.lineage x)) ⟨m.actorClass, m.options, parent⟩ := by
  rintro σ ⟨⟩
  exact ⟨x, m, rfl, hm, rfl, hparent⟩

theorem sound_startAgain (h : Sound t) (response : Response) {x : ActorId}
    {m : ActorMetadata N V} (hm : t.spawned x = some m) :
    Sound (t.startAgain response x m) := by
  unfold Tables.startAgain
  split_ifs
  · split
    · next hparent => exact sound_spawn h (inherits_respawn hm (by rw [hparent]))
    · next p hparent => exact sound_spawnChild h (inherits_respawn hm (by rw [hparent]))
  · exact h

theorem sound_startPlanned (h : Sound t) (response : Response) {p : ActorRef N}
    (hp : p.id < t.nextId) (remote : Bool) {plan : List (Planned N V)}
    (hplan : ∀ a ∈ plan, SoundPlanned t p.id a) :
    Sound (t.startPlanned response p remote plan).1 ∧
      ∀ g ∈ (t.startPlanned response p remote plan).2,
        SoundFrame (t.startPlanned response p remote plan).1 g := by
  cases plan with
  | nil => exact ⟨h, fun g hg => (List.not_mem_nil hg).elim⟩
  | cons a plan =>
      have hrest : ∀ b ∈ plan, SoundPlanned t p.id b :=
        fun b hb => hplan b (List.mem_cons_of_mem _ hb)
      cases a with
      | onNode x m =>
          obtain ⟨hm, r, hr, hrp⟩ := hplan _ List.mem_cons_self
          dsimp only [Tables.startPlanned]
          split_ifs
          · have hext := extends_spawnChild t p m.actorClass m.options (some (t.lineage x))
            refine ⟨sound_spawnChild h (inherits_respawn hm ?_), fun g hg => ?_⟩
            · rw [hr]
              exact congrArg some hrp
            · rw [List.mem_singleton.1 hg]
              exact ⟨Nat.lt_of_lt_of_le hp hext.nextId, fun c hc => (List.not_mem_nil hc).elim,
                fun b hb => (hrest b hb).extend h hext⟩
          · exact ⟨h, fun g hg => (List.not_mem_nil hg).elim⟩
      | remote e =>
          have he : KnownEntry t e := hplan _ List.mem_cons_self
          dsimp only [Tables.startPlanned]
          split_ifs
          · refine ⟨h, fun g hg => ?_⟩
            rcases List.mem_cons.1 hg with rfl | hg
            · exact ⟨hp, he.elsewhere⟩
            · rw [List.mem_singleton.1 hg]
              exact ⟨hp, fun c hc => (List.not_mem_nil hc).elim, hrest⟩
          · exact ⟨h, fun g hg => (List.not_mem_nil hg).elim⟩

end

/-! ## Plans -/

/-- The instances of this node that a plan starts again. -/
def plannedIds (plan : List (Planned N V)) : List ActorId :=
  plan.filterMap fun a => match a with
    | .onNode x _ => some x
    | .remote _ => none

section
variable {t : Tables N V}

theorem plannedIds_onNode (refs : List (ActorRef N)) :
    (plannedIds (t.plannedOnNode refs)).Sublist (refs.map (·.id)) := by
  induction refs with
  | nil => exact List.Sublist.refl _
  | cons c refs ih =>
      unfold Tables.plannedOnNode plannedIds at *
      rw [List.map_cons, List.filterMap_cons]
      cases t.actorMetadata c.id with
      | none => exact ih.cons _
      | some m => exact ih.cons_cons _

theorem plannedIds_remote (refs : List (ActorRef N)) :
    plannedIds (t.plannedRemote refs) = [] := by
  induction refs with
  | nil => rfl
  | cons c refs ih =>
      unfold Tables.plannedRemote plannedIds at *
      rw [List.filterMap_cons]
      cases t.getRemoteChild c.id with
      | none => exact ih
      | some e => exact ih

theorem planned_onNode {refs : List (ActorRef N)} :
    ∀ b ∈ t.plannedOnNode refs, match b with
      | .onNode x m => t.actorMetadata x = some m
      | .remote e => e ∈ t.remoteChildren := by
  intro b hb
  obtain ⟨c, -, hc⟩ := List.mem_filterMap.1 hb
  obtain ⟨m, hm, rfl⟩ := Option.map_eq_some_iff.1 hc
  exact hm

theorem planned_remote {refs : List (ActorRef N)} :
    ∀ b ∈ t.plannedRemote refs, match b with
      | .onNode x m => t.actorMetadata x = some m
      | .remote e => e ∈ t.remoteChildren := by
  intro b hb
  obtain ⟨c, -, hc⟩ := List.mem_filterMap.1 hb
  obtain ⟨e, he, rfl⟩ := Option.map_eq_some_iff.1 hc
  exact (mem_of_getRemoteChild he).1

theorem fromCrashed_sublist (p x : ActorId) :
    (t.fromCrashed p x).Sublist (t.context p).childOrder := List.dropWhile_sublist _

end

/-! ## What leaving changes -/

variable [DecidableEq N]

section
variable (t : Tables N V) (r : ActorRef N)

@[simp] theorem detach_detached : (t.detach r).detached = insert r.id t.detached := by
  unfold Tables.detach
  dsimp only
  split
  · rfl
  · split_ifs <;> rfl

@[simp] theorem detach_actors : (t.detach r).actors = t.actors := by
  unfold Tables.detach
  dsimp only
  split
  · rfl
  · split_ifs <;> rfl

@[simp] theorem detach_spawned : (t.detach r).spawned = t.spawned := by
  unfold Tables.detach
  dsimp only
  split
  · rfl
  · split_ifs <;> rfl

@[simp] theorem detach_remoteChildren : (t.detach r).remoteChildren = t.remoteChildren := by
  unfold Tables.detach
  dsimp only
  split
  · rfl
  · split_ifs <;> rfl

end

section
variable {t : Tables N V}

theorem soundFrame_leave {r : ActorRef N} (hr : r.id < t.nextId) :
    ∀ g ∈ (t.leave r).2, SoundFrame (t.leave r).1 g := by
  intro g hg
  have hboth : r.id < (t.detach r).nextId ∧ r.id ∈ (t.detach r).detached :=
    ⟨Nat.lt_of_lt_of_le hr (extends_detach t r).nextId, by simp⟩
  rw [List.mem_singleton.1 hg]
  split_ifs
  · exact hboth
  · exact hboth

theorem soundFrame_stopFrame {c : ActorRef N} (hc : c.id < t.nextId) :
    SoundFrame t (t.stopFrame c) := by
  unfold Tables.stopFrame
  split_ifs
  · exact hc
  · trivial

theorem soundFrame_stopChildren {r : ActorRef N} (hr : r.id < t.nextId)
    {rest : List (ActorRef N)} (hrest : ∀ c ∈ rest, ChildRef t r.id c) :
    ∀ g ∈ (t.stopChildren r rest).2, SoundFrame (t.stopChildren r rest).1 g := by
  cases rest with
  | nil => exact soundFrame_leave hr
  | cons c rest =>
      intro g hg
      rcases List.mem_cons.1 hg with rfl | hg
      · exact soundFrame_stopFrame (hrest c List.mem_cons_self).lt
      · rw [List.mem_singleton.1 hg]
        exact ⟨hr, fun d hd => hrest d (List.mem_cons_of_mem _ hd)⟩

theorem sound_stopChildren (h : Sound t) (r : ActorRef N) (rest : List (ActorRef N)) :
    Sound (t.stopChildren r rest).1 := by
  cases rest with
  | nil => exact sound_detach h r
  | cons c rest => exact h

/-- Resuming a function keeps the tables sound, and the functions it leaves behind. -/
theorem sound_resumeFrame (h : Sound t) (response : Response) {f : Frame N V}
    (hf : SoundFrame t f) :
    Sound (t.resumeFrame response f).1 ∧
      ∀ g ∈ (t.resumeFrame response f).2, SoundFrame (t.resumeFrame response f).1 g := by
  have hnone : ∀ {u : Tables N V}, ∀ g ∈ ([] : List (Frame N V)), SoundFrame u g :=
    fun g hg => (List.not_mem_nil hg).elim
  cases f with
  | stop r =>
      dsimp only [Tables.resumeFrame]
      split_ifs
      · exact ⟨sound_stopChildren h _ _,
          soundFrame_stopChildren hf (h.contexts r.id).children⟩
      · exact ⟨h, hnone⟩
  | children r rest => exact ⟨sound_stopChildren h _ _, soundFrame_stopChildren hf.1 hf.2⟩
  | stopSingle r =>
      dsimp only [Tables.resumeFrame]
      split_ifs
      · exact ⟨sound_detach h r, soundFrame_leave hf⟩
      · exact ⟨h, hnone⟩
  | unregistering r =>
      refine ⟨h, fun g hg => ?_⟩
      rw [List.mem_singleton.1 hg]
      exact hf
  | terminating r => exact ⟨sound_remove h _, hnone⟩
  | respawn x m => exact ⟨sound_startAgain h response hf, hnone⟩
  | strategy p stops remote plan =>
      cases stops with
      | nil => exact sound_startPlanned h response hf.1 remote hf.2.2
      | cons c stops =>
          have hc := hf.2.1 c List.mem_cons_self
          refine ⟨h, fun g hg => ?_⟩
          rcases List.mem_cons.1 hg with rfl | hg
          · split_ifs
            · exact soundFrame_stopFrame hc.lt
            · exact hc.lt
          · rw [List.mem_singleton.1 hg]
            exact ⟨hf.1, fun d hd => hf.2.1 d (List.mem_cons_of_mem _ hd), hf.2.2⟩
  | stopRemoteChild x =>
      dsimp only [Tables.resumeFrame]
      split
      · exact ⟨h, hnone⟩
      · next e he =>
          refine ⟨h, fun g hg => ?_⟩
          rw [List.mem_singleton.1 hg]
          exact h.entries e (mem_of_getRemoteChild he).1
  | stopRequest e =>
      dsimp only [Tables.resumeFrame]
      split
      · exact ⟨sound_forgetRemote h _, hnone⟩
      · exact ⟨sound_dropRemoteChild h hf _, hnone⟩
  | restartRequest e =>
      dsimp only [Tables.resumeFrame]
      split
      · exact ⟨sound_replaceRemoteChild h hf, hnone⟩
      · exact ⟨sound_forgetRemote h _, hnone⟩
  | spawnRequest p actorClass node options =>
      dsimp only [Tables.resumeFrame]
      split
      · exact ⟨sound_addRemoteChild h hf.1 hf.2, hnone⟩
      · exact ⟨h, hnone⟩
  | migrating x =>
      dsimp only [Tables.resumeFrame]
      split
      · exact ⟨sound_remove h _, hnone⟩
      · exact ⟨h, hnone⟩

end

/-! ## The cases of a resumption -/

/-- Nothing is left to do for the function. -/
def Idle (t : Tables N V) (response : Response) : Frame N V → Prop
  | .stop r | .stopSingle r => r.id ∉ t.actors
  | .respawn _ m => response = .success → ∃ p, m.parent = some p ∧ p.id ∉ t.actors
  | .strategy p stops _ plan => stops = [] ∧ (plan = [] ∨ p.id ∉ t.actors ∨ response ≠ .success)
  | .stopRemoteChild x => t.getRemoteChild x = none
  | .spawnRequest .. | .migrating _ => response ≠ .success
  | _ => False

/-- What resuming a function does to the tables, and the functions that take its
place. -/
inductive Resumes (t : Tables N V) (response : Response) :
    Frame N V → Tables N V → List (Frame N V) → Prop
  | ends {f} (hf : Idle t response f) : Resumes t response f t []
  | descends {f r c rest} (hf : f = .stop r ∧ r.id ∈ t.actors ∧
        (t.context r.id).children = c :: rest ∨ f = .children r (c :: rest)) :
      Resumes t response f t [t.stopFrame c, .children r rest]
  | leaves {f} {r : ActorRef N} (hf : f = .stop r ∧ r.id ∈ t.actors ∧
        (t.context r.id).children = [] ∨ f = .children r [] ∨
        f = .stopSingle r ∧ r.id ∈ t.actors) :
      Resumes t response f (t.detach r) (t.leave r).2
  | unregistered {r} : Resumes t response (.unregistering r) t [.terminating r]
  | removed {f x} (hf : (∃ r, f = .terminating r ∧ r.id = x) ∨
        f = .migrating x ∧ response = .success) : Resumes t response f (t.remove x) []
  | spawned {x m} (hsuccess : response = .success) (hm : m.parent = none) :
      Resumes t response (.respawn x m)
        (t.spawn m.actorClass m.options (some (t.lineage x))) []
  | childSpawned {f x m frames} {p : ActorRef N} (hp : p.id ∈ t.actors)
      (hsuccess : response = .success)
      (hf : f = .respawn x m ∧ m.parent = some p ∧ frames = [] ∨ ∃ remote plan,
        f = .strategy p [] remote (.onNode x m :: plan) ∧ frames = [.strategy p [] remote plan]) :
      Resumes t response f (t.spawnChild p m.actorClass m.options (some (t.lineage x))) frames
  | stops {p c stops remote plan} {g : Frame N V} (hg : g = .stop c ∨ g = t.stopFrame c) :
      Resumes t response (.strategy p (c :: stops) remote plan) t
        [g, .strategy p stops remote plan]
  | requests {p remote plan} {e : RemoteChildEntry N V} (hp : p.id ∈ t.actors) :
      Resumes t response (.strategy p [] remote (.remote e :: plan)) t
        [.spawnRequest p e.actorClass e.childNodeId e.options, .strategy p [] remote plan]
  | requestsStop {x e} (he : t.getRemoteChild x = some e) :
      Resumes t response (.stopRemoteChild x) t [.stopRequest e]
  | forgot {f e} (hf : f = .stopRequest e ∧ response = .error ∨
        f = .restartRequest e ∧ response ≠ .success) :
      Resumes t response f (t.forgetRemote e.childRef.id) []
  | dropped {e} (hresponse : response ≠ .error) :
      Resumes t response (.stopRequest e) (t.dropRemoteChild e.childRef e.parentRef) []
  | replaced {e} (hsuccess : response = .success) :
      Resumes t response (.restartRequest e) (t.replaceRemoteChild e) []
  | added {p actorClass node options} (hsuccess : response = .success) :
      Resumes t response (.spawnRequest p actorClass node options)
        (t.addRemoteChild p actorClass node options) []

theorem resumes_stopChildren {t : Tables N V} {response : Response} {f : Frame N V}
    {r : ActorRef N} {rest : List (ActorRef N)}
    (hf : f = .stop r ∧ r.id ∈ t.actors ∧ (t.context r.id).children = rest ∨
      f = .children r rest) :
    Resumes t response f (t.stopChildren r rest).1 (t.stopChildren r rest).2 := by
  cases rest with
  | nil => exact .leaves (hf.imp_right .inl)
  | cons c rest => exact .descends hf

theorem resumes_startAgain {t : Tables N V} {response : Response} {x : ActorId}
    {m : ActorMetadata N V} :
    Resumes t response (.respawn x m) (t.startAgain response x m) [] := by
  unfold Tables.startAgain
  split_ifs with hsuccess
  · split
    · next hm => exact .spawned hsuccess hm
    · next p hm =>
        by_cases hp : p.id ∈ t.actors
        · exact .childSpawned hp hsuccess (.inl ⟨rfl, hm, rfl⟩)
        · unfold Tables.spawnChild
          rw [if_neg hp]
          exact .ends fun _ => ⟨p, hm, hp⟩
  · exact .ends fun h => absurd h hsuccess

theorem resumes_startPlanned {t : Tables N V} {response : Response} {p : ActorRef N}
    {remote : Bool} {plan : List (Planned N V)} :
    Resumes t response (.strategy p [] remote plan) (t.startPlanned response p remote plan).1
      (t.startPlanned response p remote plan).2 := by
  unfold Tables.startPlanned
  split
  · exact .ends ⟨rfl, .inl rfl⟩
  · split_ifs with hboth
    · exact .childSpawned hboth.1 hboth.2 (.inr ⟨remote, _, rfl, rfl⟩)
    · refine .ends ⟨rfl, .inr ?_⟩
      by_contra hneither
      obtain ⟨hp, hsuccess⟩ := not_or.1 hneither
      exact hboth ⟨not_not.1 hp, not_not.1 hsuccess⟩
  · split_ifs with hp
    · exact .requests hp
    · exact .ends ⟨rfl, .inr (.inl hp)⟩

/-- Resuming a function is one of the cases. -/
theorem resumeFrame_cases (t : Tables N V) (response : Response) (f : Frame N V) :
    Resumes t response f (t.resumeFrame response f).1 (t.resumeFrame response f).2 := by
  cases f with
  | stop r =>
      dsimp only [Tables.resumeFrame]
      split_ifs with hr
      · exact resumes_stopChildren (.inl ⟨rfl, hr, rfl⟩)
      · exact .ends hr
  | children r rest => exact resumes_stopChildren (.inr rfl)
  | stopSingle r =>
      dsimp only [Tables.resumeFrame]
      split_ifs with hr
      · exact .leaves (.inr (.inr ⟨rfl, hr⟩))
      · exact .ends hr
  | unregistering r => exact .unregistered
  | terminating r => exact .removed (.inl ⟨r, rfl, rfl⟩)
  | respawn x m => exact resumes_startAgain
  | strategy p stops remote plan =>
      cases stops with
      | nil => exact resumes_startPlanned
      | cons c stops =>
          refine .stops ?_
          split_ifs
          · exact .inr rfl
          · exact .inl rfl
  | stopRemoteChild x =>
      dsimp only [Tables.resumeFrame]
      split
      · next he => exact .ends he
      · next e he => exact .requestsStop he
  | stopRequest e =>
      dsimp only [Tables.resumeFrame]
      split
      · exact .forgot (.inl ⟨rfl, rfl⟩)
      · next hresponse => exact .dropped hresponse
  | restartRequest e =>
      dsimp only [Tables.resumeFrame]
      split
      · exact .replaced rfl
      · next hresponse => exact .forgot (.inr ⟨rfl, hresponse⟩)
  | spawnRequest p actorClass node options =>
      dsimp only [Tables.resumeFrame]
      split
      · exact .added rfl
      · next hresponse => exact .ends hresponse
  | migrating x =>
      dsimp only [Tables.resumeFrame]
      split
      · exact .removed (.inr ⟨rfl, rfl⟩)
      · next hresponse => exact .ends hresponse

/-! ## The cases of a step -/

/-- The call that an action begins. -/
inductive Invokes (t : Tables N V) : TreeAction N V → List (Frame N V) → Prop
  | stop {a} {r : ActorRef N} (ha : a = .stop r ∨ a = .childStop r ∨ ∃ now, a = .crash r now)
      (hlt : r.id < t.nextId) : Invokes t a [.stop r]
  | restart {a} {r : ActorRef N} {m} (ha : a = .restart r ∨ ∃ now, a = .crash r now)
      (hm : t.actorMetadata r.id = some m) : Invokes t a [.stopSingle r, .respawn r.id m]
  | strategy {a p remote} {refs : List (ActorRef N)} {plan : List (Planned N V)}
      (ha : (∃ r now, a = .crash r now) ∨ ∃ x now, a = .remoteCrash x now)
      (hp : p ∈ t.actors) (hrefs : refs.Sublist (t.context p).childOrder)
      (hids : (plannedIds plan).Sublist (refs.map (·.id)))
      (hplan : ∀ b ∈ plan, match b with
        | .onNode x m => t.actorMetadata x = some m
        | .remote e => e ∈ t.remoteChildren) :
      Invokes t a [.strategy (t.self p) refs.reverse remote plan]
  | stopRemote {x} : Invokes t (.stopRemoteChild x) [.stopRemoteChild x]
  | restartRemote {a} {e : RemoteChildEntry N V} (ha : a = .restartRemoteChild e.childRef.id ∨
      ∃ now, a = .remoteCrash e.childRef.id now) (he : e ∈ t.remoteChildren) :
      Invokes t a [.restartRequest e]
  | spawnRemote {p : ActorRef N} {actorClass node options} (hnode : node ≠ t.id)
      (hp : p.id ∈ t.actors) :
      Invokes t (.spawnChildRemote p actorClass node options)
        [.spawnRequest p actorClass node options]
  | migrate {x} (hx : x ∈ t.actors) (hchildren : (t.context x).children = []) :
      Invokes t (.migrate x) [.migrating x]

/-- Put frames in the place of a call. -/
def setCalls (calls : List (List (Frame N V))) (index : Nat) (frames : List (Frame N V)) :
    List (List (Frame N V)) :=
  if frames = [] then calls.eraseIdx index else calls.set index frames

/-- What an action does to the tables and to the calls in progress. -/
inductive Steps (t : Tree N V) :
    TreeAction N V → Tables N V → List (List (Frame N V)) → Prop
  | idle {a} : Steps t a t.toTables t.calls
  | spawned {a actorClass options}
      (ha : a = .spawn actorClass options ∨ a = .acceptChild actorClass options) :
      Steps t a (t.toTables.spawn actorClass options none) t.calls
  | childSpawned {p actorClass options} : Steps t (.spawnChild p actorClass options)
      (t.toTables.spawnChild p actorClass options none) t.calls
  | invoked {a frames} (h : Invokes t.toTables a frames) :
      Steps t a t.toTables (t.calls ++ [frames])
  | removedRemote {a x p} (ha : a = .removeRemoteChild x p ∨
      ∃ now e, a = .remoteCrash x now ∧ t.getRemoteChild x = some e ∧ p = e.parentRef) :
      Steps t a (t.toTables.removeRemoteChild x p) t.calls
  | resumed {index response f outer} (hcall : t.calls[index]? = some (f :: outer)) :
      Steps t (.resumes index response) (t.toTables.resumeFrame response f).1
        (setCalls t.calls index ((t.toTables.resumeFrame response f).2 ++ outer))
  | rejected {index f outer r} (hcall : t.calls[index]? = some (f :: outer))
      (hf : f = .unregistering r ∨ f = .terminating r) :
      Steps t (.rejects index) t.toTables (t.calls.eraseIdx index)

section
variable {t : Tables N V}

theorem plannedIds_inOrder (refs : List (ActorRef N)) :
    (plannedIds (t.plannedInOrder refs)).Sublist (refs.map (·.id)) := by
  induction refs with
  | nil => exact List.Sublist.refl _
  | cons c refs ih =>
      unfold Tables.plannedInOrder plannedIds at *
      rw [List.map_cons, List.filterMap_cons]
      split_ifs
      · cases t.actorMetadata c.id with
        | none => exact ih.cons _
        | some m => exact ih.cons_cons _
      · cases t.getRemoteChild c.id with
        | none | some => exact ih.cons _

theorem planned_inOrder {refs : List (ActorRef N)} :
    ∀ b ∈ t.plannedInOrder refs, match b with
      | .onNode x m => t.actorMetadata x = some m
      | .remote e => e ∈ t.remoteChildren := by
  intro b hb
  obtain ⟨c, -, hc⟩ := List.mem_filterMap.1 hb
  split_ifs at hc
  · obtain ⟨m, hm, rfl⟩ := Option.map_eq_some_iff.1 hc
    exact hm
  · obtain ⟨e, he, rfl⟩ := Option.map_eq_some_iff.1 hc
    exact (mem_of_getRemoteChild he).1

end

/-! ## Crashes -/

section
variable {t : Tree N V}

/-- An action that leaves the tables alone, and begins at most one call. -/
def Begins (t : Tree N V) (a : TreeAction N V) (u : Tree N V) : Prop :=
  u.toTables = t.toTables ∧ (u.calls = t.calls ∨
    ∃ frames, Invokes t.toTables a frames ∧ u.calls = t.calls ++ [frames])

theorem Begins.steps {a : TreeAction N V} {u : Tree N V} (h : Begins t a u) :
    Steps t a u.toTables u.calls := by
  obtain ⟨htables, hcalls | ⟨frames, hframes, hcalls⟩⟩ := h
  · rw [htables, hcalls]
    exact .idle
  · rw [htables, hcalls]
    exact .invoked hframes

section
omit [DecidableEq N]

theorem begins_restart {a : TreeAction N V} {r : ActorRef N}
    (ha : a = .restart r ∨ ∃ now, a = .crash r now) : Begins t a (t.restart r) := by
  unfold Tree.restart
  split
  · exact ⟨rfl, .inl rfl⟩
  · next m hm => exact ⟨rfl, .inr ⟨_, .restart ha hm, rfl⟩⟩

theorem begins_kill {r : ActorRef N} {now : Nat} (hlt : r.id < t.nextId) :
    Begins t (.crash r now) (t.kill r) :=
  ⟨rfl, .inr ⟨_, .stop (.inr (.inr ⟨now, rfl⟩)) hlt, rfl⟩⟩

theorem begins_applyStrategy {r : ActorRef N} {now : Nat} {p : ActorId} (hp : p ∈ t.actors) :
    Begins t (.crash r now) (t.applyStrategy r p) := by
  have hcrash : (∃ r' now', TreeAction.crash r now = (.crash r' now' : TreeAction N V)) ∨
      ∃ x now', TreeAction.crash r now = (.remoteCrash x now' : TreeAction N V) :=
    .inl ⟨r, now, rfl⟩
  unfold Tree.applyStrategy
  split
  · exact begins_restart (.inr ⟨now, rfl⟩)
  · exact ⟨rfl, .inr ⟨_, .strategy hcrash hp (List.Sublist.refl _) (plannedIds_onNode _)
      planned_onNode, rfl⟩⟩
  · split
    · exact ⟨rfl, .inl rfl⟩
    · exact ⟨rfl, .inr ⟨_, .strategy hcrash hp (fromCrashed_sublist _ _) (plannedIds_onNode _)
        planned_onNode, rfl⟩⟩

end

theorem begins_applyRemoteStrategy {e : RemoteChildEntry N V} {now : Nat}
    (he : e ∈ t.remoteChildren) (hp : e.parentRef.id ∈ t.actors) :
    Begins t (.remoteCrash e.childRef.id now) (t.applyRemoteStrategy e) := by
  have hcrash : (∃ r' now', TreeAction.remoteCrash e.childRef.id now =
        (.crash r' now' : TreeAction N V)) ∨
      ∃ x now', TreeAction.remoteCrash e.childRef.id now =
        (.remoteCrash x now' : TreeAction N V) := .inr ⟨_, now, rfl⟩
  unfold Tree.applyRemoteStrategy
  dsimp only
  split
  · exact ⟨rfl, .inr ⟨_, .restartRemote (.inr ⟨now, rfl⟩) he, rfl⟩⟩
  · refine ⟨rfl, .inr ⟨_, .strategy hcrash hp (List.Sublist.refl _) ?_ ?_, rfl⟩⟩
    · rw [plannedIds, List.filterMap_append]
      change (plannedIds _ ++ plannedIds _).Sublist _
      rw [plannedIds_remote, List.append_nil]
      exact (plannedIds_onNode _).trans (List.filter_sublist.map _)
    · intro b hb
      rcases List.mem_append.1 hb with hb | hb
      · exact planned_onNode b hb
      · exact planned_remote b hb
  · split
    · exact ⟨rfl, .inl rfl⟩
    · exact ⟨rfl, .inr ⟨_, .strategy hcrash hp (fromCrashed_sublist _ _) (plannedIds_inOrder _)
        planned_inOrder, rfl⟩⟩

omit [DecidableEq N] in
theorem begins_handleRootCrash {r : ActorRef N} {now : Nat} (hlt : r.id < t.nextId) :
    Begins t (.crash r now) (t.handleRootCrash r now) := by
  unfold Tree.handleRootCrash
  dsimp only
  split
  · exact begins_restart (t := { t with supervisor := _, rootCrashes := _ }) (.inr ⟨now, rfl⟩)
  · by_cases hfull : t.supervisor.maxRestarts ≤ (rootRecord t.supervisor r.id now).count
    · rw [if_pos hfull]
      exact begins_kill (t := { t with supervisor := _, rootCrashes := _ }) hlt
    · rw [if_neg hfull]
      exact ⟨rfl, .inr ⟨_, .stop (.inr (.inr ⟨now, rfl⟩)) hlt, rfl⟩⟩

variable {stringify : List V → String}

omit [DecidableEq N] in
theorem begins_handleChildCrash {r : ActorRef N} {m : ActorMetadata N V} {p : ActorRef N}
    {now : Nat} (hlt : r.id < t.nextId) :
    Begins t (.crash r now) (t.handleChildCrash stringify r m p now) := by
  unfold Tree.handleChildCrash
  split_ifs with hp
  · dsimp only
    split_ifs
    · exact begins_applyStrategy (t := { t with childSupervisor := _, childCrashes := _ }) hp
    · exact begins_kill (t := { t with childSupervisor := _, childCrashes := _ }) hlt
  · exact ⟨rfl, .inl rfl⟩

omit [DecidableEq N] in
theorem begins_handleCrash {r : ActorRef N} {now : Nat} (hlt : r.id < t.nextId) :
    Begins t (.crash r now) (t.handleCrash stringify r now) := by
  unfold Tree.handleCrash
  split
  · exact begins_handleChildCrash hlt
  · split_ifs
    · exact ⟨rfl, .inl rfl⟩
    · exact begins_handleRootCrash hlt

theorem steps_handleRemoteChildCrash {x : ActorId} {now : Nat} :
    Steps t (.remoteCrash x now) (t.handleRemoteChildCrash stringify x now).toTables
      (t.handleRemoteChildCrash stringify x now).calls := by
  unfold Tree.handleRemoteChildCrash
  split
  · exact .idle
  · next e he =>
      obtain ⟨hmem, rfl⟩ := mem_of_getRemoteChild he
      dsimp only
      split_ifs with hp hgranted
      · refine Begins.steps (t := t) ?_
        exact begins_applyRemoteStrategy
          (t := { t with childSupervisor := _, childCrashes := _ }) hmem hp
      · exact .removedRemote (.inr ⟨now, e, rfl, he, rfl⟩)
      · exact .idle

/-- Every step is one of the cases. -/
theorem step_cases {a : TreeAction N V} {t' : Tree N V} (h : t.step stringify a = some t') :
    Steps t a t'.toTables t'.calls := by
  cases a with
  | spawn actorClass options =>
      cases h
      exact .spawned (.inl rfl)
  | acceptChild actorClass options =>
      cases h
      exact .spawned (.inr rfl)
  | spawnChild p actorClass options =>
      cases h
      exact .childSpawned
  | spawnChildRemote p actorClass node options =>
      dsimp only [Tree.step] at h
      split_ifs at h with hnode hp
      · cases h
        exact .invoked (.spawnRemote hnode hp)
      · cases h
        exact .idle
  | stop r =>
      dsimp only [Tree.step] at h
      split_ifs at h with hlt
      cases h
      exact .invoked (.stop (.inl rfl) hlt)
  | childStop r =>
      dsimp only [Tree.step] at h
      split_ifs at h with hlt
      cases h
      exact .invoked (.stop (.inr (.inl rfl)) hlt)
  | restart r =>
      cases h
      exact (begins_restart (.inl rfl)).steps
  | stopRemoteChild x =>
      cases h
      exact .invoked .stopRemote
  | restartRemoteChild x =>
      obtain ⟨e, he, rfl⟩ := Option.map_eq_some_iff.1 h
      obtain ⟨hmem, rfl⟩ := mem_of_getRemoteChild he
      exact .invoked (.restartRemote (.inl rfl) hmem)
  | removeRemoteChild x p =>
      cases h
      exact .removedRemote (.inl rfl)
  | crash r now =>
      dsimp only [Tree.step] at h
      split_ifs at h with hlt
      cases h
      exact (begins_handleCrash hlt).steps
  | remoteCrash x now =>
      cases h
      exact steps_handleRemoteChildCrash
  | migrate x =>
      dsimp only [Tree.step] at h
      split_ifs at h with hx
      cases h
      exact .invoked (.migrate hx.1 hx.2)
  | resumes index response =>
      dsimp only [Tree.step, Tree.resumes] at h
      split at h
      · next f outer hcall =>
          cases h
          exact .resumed hcall
      · cases h
  | rejects index =>
      dsimp only [Tree.step, Tree.rejects] at h
      split at h
      · next r outer hcall =>
          cases h
          exact .rejected hcall (.inl rfl)
      · next r outer hcall =>
          cases h
          exact .rejected hcall (.inr rfl)
      · cases h

/-! ## Sound runs -/

/-- Sound tables, and sound functions in every call. -/
structure SoundTree (t : Tree N V) : Prop where
  tables : Sound t.toTables
  frames : ∀ call ∈ t.calls, ∀ f ∈ call, SoundFrame t.toTables f

omit [DecidableEq N] in
theorem mem_setCalls {calls : List (List (Frame N V))} {index : Nat}
    {frames call : List (Frame N V)}
    (h : call ∈ setCalls calls index frames) : call ∈ calls ∨ call = frames := by
  unfold setCalls at h
  split_ifs at h
  · exact .inl (List.mem_of_mem_eraseIdx h)
  · exact List.mem_or_eq_of_mem_set h

omit [DecidableEq N] in
theorem soundFrame_invokes (h : Sound t.toTables) {a : TreeAction N V} {frames : List (Frame N V)}
    (hinvokes : Invokes t.toTables a frames) : ∀ f ∈ frames, SoundFrame t.toTables f := by
  intro f hf
  cases hinvokes with
  | stop ha hlt =>
      rw [List.mem_singleton.1 hf]
      exact hlt
  | restart ha hm =>
      obtain ⟨hx, hspawned⟩ := h.live_of_metadata hm
      rcases List.mem_cons.1 hf with rfl | hf
      · exact h.lt_of_live hx
      · rw [List.mem_singleton.1 hf]
        exact hspawned
  | @strategy _ p remote refs plan ha hp hrefs hids hplan =>
      obtain ⟨m, hm⟩ := h.live_spawned p hp
      have hself := (h.self p m hm).2
      have hchild : ∀ c ∈ refs, ChildRef t.toTables (t.self p).id c := by
        intro c hc
        rw [hself]
        exact (h.contexts p).order c (hrefs.subset hc)
      rw [List.mem_singleton.1 hf]
      refine ⟨?_, fun c hc => hchild c (List.mem_reverse.1 hc), fun b hb => ?_⟩
      · rw [hself]
        exact h.lt_of_live hp
      · cases b with
        | onNode x mx =>
            obtain ⟨-, hspawned⟩ := h.live_of_metadata (hplan _ hb)
            have hmem : x ∈ plannedIds plan := List.mem_filterMap.2 ⟨_, hb, rfl⟩
            obtain ⟨c, hc, rfl⟩ := List.mem_map.1 (hids.subset hmem)
            exact ⟨hspawned, ((hchild c hc).parent hspawned).2.2⟩
        | remote e => exact h.entries e (hplan _ hb)
  | stopRemote =>
      rw [List.mem_singleton.1 hf]
      trivial
  | restartRemote ha he =>
      rw [List.mem_singleton.1 hf]
      exact h.entries _ he
  | spawnRemote hnode hp =>
      rw [List.mem_singleton.1 hf]
      exact ⟨h.lt_of_live hp, hnode⟩
  | migrate hx hchildren =>
      rw [List.mem_singleton.1 hf]
      exact h.lt_of_live hx

theorem steps_extends {a : TreeAction N V} {tables : Tables N V} {calls}
    (hsteps : Steps t a tables calls) : Extends t.toTables tables := by
  cases hsteps with
  | idle | invoked | rejected => exact Extends.refl _
  | spawned ha => exact extends_register _ _ _
  | childSpawned => exact extends_spawnChild _ _ _ _ _
  | removedRemote ha => exact extends_removeRemoteChild _ _ _
  | resumed hcall => exact extends_resumeFrame _ _ _

theorem sound_steps (h : SoundTree t) {a : TreeAction N V} {tables : Tables N V}
    {calls : List (List (Frame N V))} (hsteps : Steps t a tables calls) :
    Sound tables ∧ ∀ call ∈ calls, ∀ f ∈ call, SoundFrame tables f := by
  have hext := steps_extends hsteps
  have hkeep : ∀ call ∈ t.calls, ∀ f ∈ call, SoundFrame tables f :=
    fun call hcall f hf => (h.frames call hcall f hf).extend h.tables hext
  cases hsteps with
  | idle => exact ⟨h.tables, h.frames⟩
  | spawned ha => exact ⟨sound_spawn h.tables (fun _ hσ => nomatch hσ), hkeep⟩
  | childSpawned => exact ⟨sound_spawnChild h.tables (fun _ hσ => nomatch hσ), hkeep⟩
  | invoked hinvokes =>
      refine ⟨h.tables, fun call hcall => ?_⟩
      rcases List.mem_append.1 hcall with hcall | hcall
      · exact h.frames call hcall
      · rw [List.mem_singleton.1 hcall]
        exact soundFrame_invokes h.tables hinvokes
  | removedRemote ha => exact ⟨sound_removeRemoteChild h.tables _ _, hkeep⟩
  | @resumed index response f outer hcall =>
      have hmem := List.mem_of_getElem? hcall
      obtain ⟨hsound, hnew⟩ := sound_resumeFrame h.tables response
        (h.frames _ hmem f List.mem_cons_self)
      refine ⟨hsound, fun call hin => ?_⟩
      rcases mem_setCalls hin with hin | rfl
      · exact hkeep call hin
      · intro g hg
        rcases List.mem_append.1 hg with hg | hg
        · exact hnew g hg
        · exact hkeep _ hmem g (List.mem_cons_of_mem _ hg)
  | rejected hcall hf =>
      exact ⟨h.tables, fun call hin => h.frames call (List.mem_of_mem_eraseIdx hin)⟩

theorem soundTree_step (h : SoundTree t) {a : TreeAction N V} {t' : Tree N V}
    (hstep : t.step stringify a = some t') : SoundTree t' := by
  obtain ⟨htables, hframes⟩ := sound_steps h (step_cases hstep)
  exact ⟨htables, hframes⟩

omit [DecidableEq N] in
theorem soundTree_init (id : N) (childSupervision : ActorId → ChildSupervisionOptions)
    (supervisor : Supervisor) : SoundTree (Tree.init id childSupervision supervisor : Tree N V) :=
  ⟨sound_init id, fun _ h => (List.not_mem_nil h).elim⟩

end

end Libeam.Proofs.TreeSteps
