import Libeam.Proofs.LinkStages
/-!
# Links fire

When an actor has crashed, its live partners have been told, each once for each link, as
long as no restart removes a crashed actor that is linked to a live one, a group restart
stops none whose live partners do not trap exits, and nobody links to an actor that is
about to end.
-/

namespace Libeam.Proofs.LinkFiring

open Libeam.System (ActorId Supervisor SupervisionStrategy)
open Monitoring Supervision Lib.Transition LinkTables BondsAgree SystemSteps SystemSound StopRounds
open ExitMessages LinkSteps LinkStages
open LinkPropagation (Joins)
open WatchOnce (leaving)

variable {N V : Type} {callbacks : Callbacks N} {stringify : List V → String}
  {h h' : LinkedSystem N V} {l : RefId} {ref : LinkRef} {x y : ActorId}

/-! ## Linked actors are told -/

section
variable {r : ActorRef N} {reason : TerminationReason} {rest : List RefId} {e : LinkEntry N}

theorem ends_of_concerns (hs : SoundSystem h.toActorSystem) (he : h.links l = some e)
    (hconcerns : h.Concerns x l) : Ends e.linkRef x := by
  obtain ⟨ref, href, hends⟩ := hconcerns
  have hmade := (hs.bonds.agree.links.entry l e he).1
  have heq : ref = e.linkRef := Option.some.inj (href.symm.trans hmade)
  exact heq ▸ hends.imp_right And.right

theorem joins_otherEnd (hs : SoundSystem h.toActorSystem) (he : h.links l = some e)
    (hends : Ends e.linkRef x) : Joins e.linkRef x (Relations.otherEnd e x).id := by
  obtain ⟨-, -, h₁, h₂⟩ := hs.bonds.agree.links.entry l e he
  exact otherEnd_ends h₁ h₂ hends

/-- The state in which the next of the linked actors has been told. -/
def toldNext (callbacks : Callbacks N) (h : LinkedSystem N V) (r : ActorRef N)
    (reason : TerminationReason) (l : RefId) (rest : List RefId) (next : ActorSystem N V) :
    LinkedSystem N V :=
  h.record (h.tellNext callbacks r reason (l :: rest)) next (.linked r reason (l :: rest))

theorem tellNext_relations (s : ActorSystem N V) :
    (s.tellNext callbacks r reason (l :: rest)).system.toRelations =
      (s.toRelations.tellLinked s.actors callbacks r reason l).relations := by
  unfold ActorSystem.tellNext
  dsimp only
  split_ifs <;> rfl

theorem toldNext_crashes (next : ActorSystem N V)
    (hthrew : (h.toRelations.tellLinked h.actors callbacks r reason l).threw = true →
      (h.toRelations.tellLinked h.actors callbacks r reason l).crash = none) :
    (toldNext callbacks h r reason l rest next).crashes = h.crashes ++
      ((h.toRelations.tellLinked h.actors callbacks r reason l).crash.map fun crash =>
        (l, crash.1.id)).toList := by
  unfold toldNext LinkedSystem.record ActorSystem.tellNext
  dsimp only
  split_ifs with hround
  · rw [hthrew hround]
    rfl
  · cases (h.toRelations.tellLinked h.actors callbacks r reason l).crash <;> rfl

/-- The actor at the other end is sent an exit message, or crashes. -/
def Heeds (h : LinkedSystem N V) (reason : TerminationReason) (other : ActorId) : Prop :=
  other ∈ h.actors ∧ (h.trapExit other = true ∨ reason.abnormal = true)

instance (h : LinkedSystem N V) (reason : TerminationReason) (other : ActorId) :
    Decidable (Heeds h reason other) := inferInstanceAs (Decidable (_ ∧ _))

variable {next : ActorSystem N V}
  (hnext : next.toRelations = (h.tellNext callbacks r reason (l :: rest)).system.toRelations)
include hnext

theorem exits_toldNext (v : RefId) : exitsFor v (toldNext callbacks h r reason l rest next).events =
    exitsFor v (h.toRelations.tellLinked h.actors callbacks r reason l).relations.events := by
  change exitsFor v next.events = _
  rw [hnext, tellNext_relations]

/-- What has been told because of one link is not changed by another. -/
theorem told_toldNext_ne (hs : SoundSystem h.toActorSystem) (he : h.links l = some e) {v : RefId}
    (hv : v ≠ l) : told (toldNext callbacks h r reason l rest next) v = told h v := by
  have hid : e.linkRef.id ≠ v := hs.bonds.agree.links.id_of_links he ▸ hv.symm
  obtain ⟨hexits, -, hthrew⟩ := told_tellLinked h.actors callbacks v h.toRelations he r reason
  unfold told
  rw [exits_toldNext hnext, hexits, if_neg fun hboth => hid hboth.1, List.append_nil,
    toldNext_crashes next hthrew, List.filterMap_append]
  cases (h.toRelations.tellLinked h.actors callbacks r reason l).crash with
  | none => simp
  | some crash => simp [hv.symm]

theorem told_toldNext (ha : Attends h) (he : h.links l = some e) :
    told (toldNext callbacks h r reason l rest next) l =
      if Heeds h reason (Relations.otherEnd e r.id).id then [(Relations.otherEnd e r.id).id]
      else [] := by
  have hid := ha.sound.bonds.agree.links.id_of_links he
  have hnone : told h l = [] := ha.untold l (.inl (he ▸ nofun))
  obtain ⟨hexits, hcrash, hthrew⟩ := told_tellLinked h.actors callbacks l h.toRelations he r reason
  rw [trapExit_unlink] at hexits hcrash
  generalize (Relations.otherEnd e r.id).id = other at hexits hcrash ⊢
  have htold : told (toldNext callbacks h r reason l rest next) l =
      (if other ∈ h.actors ∧ h.trapExit other = true then [other] else []) ++
        ((h.toRelations.tellLinked h.actors callbacks r reason l).crash.map
          fun crash => crash.1.id).toList := by
    unfold told at hnone ⊢
    obtain ⟨hnone₁, hnone₂⟩ := List.append_eq_nil_iff.1 hnone
    rw [exits_toldNext hnext, hexits, toldNext_crashes next hthrew, List.filterMap_append, hnone₁,
      hnone₂]
    cases (h.toRelations.tellLinked h.actors callbacks r reason l).crash <;> simp [hid]
  rw [htold, hcrash]
  unfold Heeds
  by_cases hthere : other ∈ h.actors
  · by_cases htrap : h.trapExit other = true <;> by_cases hab : reason.abnormal = true <;>
      simp [hthere, htrap, hab]
  · simp [hthere]

theorem links_toldNext (hs : SoundSystem h.toActorSystem) (he : h.links l = some e) (v : RefId) :
    next.links v = if v = l then none else h.links v := by
  have hagree : Agree h.actors h.toRelations := hs.bonds.agree
  have hid := hagree.links.id_of_links he
  have hmade : h.linkRefs e.linkRef.id = some e.linkRef := by
    rw [hid]
    exact (hagree.links.entry l e he).1
  have hcut := cuts_unlink hagree.links hmade
  have hlinks : next.links = (h.toRelations.tellLinked h.actors callbacks r reason
      l).relations.links := by
    rw [show next.links = next.toRelations.links from rfl, hnext, tellNext_relations]
  have htold : (h.toRelations.tellLinked h.actors callbacks r reason l).relations.links =
      (h.toRelations.unlink h.actors e.linkRef).links := by
    unfold Relations.tellLinked
    rw [he]
    exact (exitLinked_kept callbacks (hagree.watches.of_kept hcut.kept hcut.nextRef.ge) _ _ _ _
      _).1.links
  rw [hlinks, htold, hcut.links, hid]

/-- The link is cut, and the other actor has been told if it must be. -/
theorem wanes_toldNext (ha : Attends h) (hrenews : Renews h.toTables next.toTables)
    (hconcerns : h.Concerns r.id l) (htelling : Telling h r.id (l :: rest))
    (hguard : h.ended r.id = some true → ∀ e y, h.links l = some e → Joins e.linkRef r.id y →
      Live h y → reason.abnormal = true ∨ h.trapExit y = true) :
    Wanes h (toldNext callbacks h r reason l rest next) := by
  have hs := ha.sound
  have hr : Records h (toldNext callbacks h r reason l rest next) := records_record _ _ _ _
  have hk : Keeps h.actors h.toRelations next.toRelations := by
    rw [hnext, tellNext_relations]
    exact hs.bonds.agree.tellLinked r reason hconcerns
  have hlive := live_of_renews hr hrenews
  cases he : h.links l with
  | none =>
      obtain ⟨-, hlinks, hevents, -, hcrash⟩ := tellLinked_gone h.actors callbacks 0 r reason he
      have hsame : next.links = h.links := by
        rw [show next.links = next.toRelations.links from rfl, hnext, tellNext_relations, hlinks]
      have hsilent : ∀ v, told (toldNext callbacks h r reason l rest next) v = told h v := by
        intro v
        unfold told
        rw [exits_toldNext hnext, hevents, toldNext_crashes next fun _ => hcrash, hcrash]
        simp
      refine ⟨hr.ended, hlive, hr.removed, hk.linkRefs, hk.localLinks, hk.nextRef.ge,
        fun v e hv => hsame ▸ hv, fun v _ _ => hsilent v, fun v e hv hnone => ?_⟩
      exact absurd (hv.symm.trans ((congrFun hsame v).symm.trans hnone)) nofun
  | some e =>
      have hlinks := links_toldNext hnext hs he
      refine ⟨hr.ended, hlive, hr.removed, hk.linkRefs, hk.localLinks, hk.nextRef.ge,
        fun v e' hv => ?_, fun v _ hv => ?_, fun v e' hv hnone => ?_⟩
      · change next.links v = some e' at hv
        rw [hlinks] at hv
        split_ifs at hv
        exact hv
      · refine told_toldNext_ne hnext hs he ?_
        rintro rfl
        rcases hv with hnone | hsome
        · exact absurd (he.symm.trans hnone) nofun
        · exact hsome ((hlinks v).trans (if_pos rfl))
      · have heq : v = l := by
          by_contra hne
          exact absurd (hv.symm.trans (((hlinks v).trans (if_neg hne)).symm.trans hnone)) nofun
        subst heq
        obtain rfl : e = e' := Option.some.inj (he.symm.trans hv)
        have hends := ends_of_concerns hs he hconcerns
        have hother := joins_otherEnd hs he hends
        rw [told_toldNext hnext ha he]
        refine ⟨by split_ifs <;> simp, .inr ⟨r.id, hends, ?_, fun hcrashed y hjoins hy => ?_⟩⟩
        · exact htelling.1
        · obtain rfl := Joins.right_unique hother hjoins
          have hy₀ := hlive _ (Wanes.lt_of_joins hs he hjoins) hy
          rw [told_toldNext hnext ha he, if_pos]
          exact ⟨hy₀.1, (hguard hcrashed e _ he hjoins hy₀).symm⟩

end

/-! ## The progress of a call -/

section
variable {response : Response} {task : Task N V} {outer : List (Task N V)} {p : Progress N V}

/-- What becomes of a call, of the calls that it begins, and of the actors that it removes. -/
structure Proceeds (h h' : LinkedSystem N V) (outer : List (Task N V)) (p : Progress N V) :
    Prop where
  tasks : p.threw = false → Staged h' (p.tasks ++ outer)
  calls : ∀ call ∈ p.calls, Staged h' call
  left : ∀ x ∈ h.actors, x ∉ p.system.actors → h'.ended x = some true → Alone h' x

theorem left_same (hactors : p.system.actors = h.actors) :
    ∀ x ∈ h.actors, x ∉ p.system.actors → h'.ended x = some true → Alone h' x :=
  fun _ hx hgone => absurd (hactors ▸ hx) hgone

theorem calls_nil (hcalls : p.calls = []) : ∀ call ∈ p.calls, Staged h' call :=
  fun _ hcall => absurd (hcalls ▸ hcall) List.not_mem_nil

theorem proceeds_plain (houter : ∀ task ∈ outer, Plain task)
    (htasks : ∀ task ∈ p.tasks, Plain task) (hcalls : p.calls = [])
    (hactors : p.system.actors = h.actors) : Proceeds h h' outer p where
  tasks := fun _ => .plain fun task htask => (List.mem_append.1 htask).elim (htasks task)
    (houter task)
  calls := calls_nil hcalls
  left := left_same hactors

/-- The removal of an actor goes on. -/
theorem proceeds_bare (houter : ∀ task ∈ outer, Plain task) (task : Task N V)
    (htask : leaving task = some x) (hbare : Bare h' x) (htasks : p.tasks = [task])
    (hcalls : p.calls = []) (hactors : p.system.actors = h.actors) : Proceeds h h' outer p where
  tasks := fun _ => by
    rw [htasks]
    exact .leaving htask hbare houter
  calls := calls_nil hcalls
  left := left_same hactors

/-- The actor is removed, when nobody is left to tell. -/
theorem proceeds_removed (houter : ∀ task ∈ outer, Plain task) (htasks : p.tasks = [])
    (hcalls : p.calls = [])
    (hleft : ∀ x ∈ h.actors, x ∉ p.system.actors → h'.ended x = some true → Alone h' x) :
    Proceeds h h' outer p where
  tasks := fun _ => by
    rw [htasks]
    exact .plain houter
  calls := calls_nil hcalls
  left := hleft

theorem announce_tasks (callbacks : Callbacks N) (s : ActorSystem N V) (r : ActorRef N)
    (reason : TerminationReason) (t : Task N V) :
    let p := s.announce callbacks r reason t
    (p.threw = false → p.tasks = [.linked r reason (p.system.linkedWith.get r.id), t]) ∧
      p.calls = [] ∧ p.system.actors = s.actors := by
  unfold ActorSystem.announce
  dsimp only
  split_ifs
  · exact ⟨nofun, rfl, rfl⟩
  · exact ⟨fun _ => rfl, rfl, rfl⟩

/-- All links of the actor are still to be told. -/
theorem telling_indexed (hs : SoundSystem h.toActorSystem) (hended : h.ended x ≠ none) :
    Telling h x (h.linkedWith.get x) :=
  ⟨hended, fun _ l e _ he hjoins _ =>
    (hs.bonds.agree.links.index l x).2 (.inl ⟨e, he, (Joins.ends hjoins).1⟩)⟩

theorem ended_leaves {next : ActorSystem N V} {r r' : ActorRef N} {reason : TerminationReason}
    {rest : List RefId} {tasks : List (Task N V)}
    (htask : task = .tree (.stop r) ∧ r.id ∈ h.actors ∨ task = .tree (.children r []))
    (htasks : p.tasks = .linked r' reason rest :: tasks) :
    (h.record p next task).ended r.id ≠ none := by
  rcases htask with ⟨rfl, -⟩ | rfl
  · unfold LinkedSystem.record
    rw [htasks]
    exact ended_ends_ne h r.id false
  · unfold LinkedSystem.record
    rw [htasks]
    exact ended_ends_ne h r.id false

theorem ended_crash {next : ActorSystem N V} {r : ActorRef N} {error : String}
    (htasks : p.tasks ≠ []) : (h.record p next (.crash r error)).ended r.id ≠ none := by
  have hrecord : h.record p next (.crash r error) =
      { h.ends r.id (decide (r.id ∈ h.actors)) with toActorSystem := next } := if_pos htasks
  rw [hrecord]
  exact ended_ends_ne h r.id _

variable [DecidableEq N]

omit [DecidableEq N] in
theorem left_migrated {id : ActorId} {move : Move N} (hs : SoundSystem h.toActorSystem)
    (x : ActorId) (hx : x ∈ h.actors) (hgone : x ∉ (h.migrated callbacks id move).system.actors) :
    ∀ l e, (h.migrated callbacks id move).system.links l = some e → ¬ Ends e.linkRef x := by
  have hid : x = id := by
    by_contra hne
    refine hgone ?_
    unfold ActorSystem.migrated
    dsimp only
    split_ifs
    · exact hx
    · exact hx
    · exact Finset.mem_erase.2 ⟨hne, hx⟩
  subst hid
  exact migrated_free hs.bonds.agree hx hgone

theorem actors_frame {f : Frame N V} (houtside : outside f = true) (hx : x ∈ h.actors)
    (hgone : x ∉ (h.resumeFrame response f).system.actors) :
    leaving (.tree f : Task N V) = some x := by
  by_contra hne
  refine hgone ?_
  have hactors : x ∈ (h.toTables.resumeFrame response f).1.actors :=
    WatchOnce.actors_resumeFrame hx houtside hne
  unfold ActorSystem.resumeFrame ActorSystem.adopt
  dsimp only
  split_ifs <;> exact hactors

/-- What becomes of a call when its first task is not in the round of linked actors. -/
theorem proceeds_does (ha : Attends h) (hstaged : Staged h (task :: outer))
    (hother : ∀ r reason rest, task ≠ .linked r reason rest)
    (hdoes : Does callbacks h.toActorSystem response task p) {next : ActorSystem N V}
    (hs' : SoundSystem next) (hnext : next.toRelations = p.system.toRelations)
    (w : Wanes h (h.record p next task))
    (hguard : ∀ r, task = .tree (.stopSingle r) → r.id ∈ h.actors → h.ended r.id = some true →
      Alone h r.id) :
    Proceeds h (h.record p next task) outer p := by
  have hs := ha.sound
  have houter := hstaged.outer_plain hother
  have hnil : ∀ task ∈ ([] : List (Task N V)), Plain task := fun _ h => absurd h List.not_mem_nil
  have hsystem := record_system h p next task
  have hs'' : SoundSystem (h.record p next task).toActorSystem := by
    rw [hsystem]
    exact hs'
  have hlinked : (h.record p next task).linkedWith = p.system.linkedWith :=
    (congrArg (fun s : ActorSystem N V => s.linkedWith) hsystem).trans
      (congrArg Relations.linkedWith hnext)
  cases hdoes with
  | ends => exact proceeds_plain houter hnil rfl rfl
  | @descends _ r c rest _ =>
      refine proceeds_plain houter (fun task' htask' => ?_) rfl rfl
      rcases List.mem_cons.1 htask' with rfl | htask'
      · exact plain_fresh (fresh_stopFrame _ _)
      · rw [List.mem_singleton.1 htask']
        exact ⟨rfl, nofun⟩
  | @leaves _ r htask =>
      obtain ⟨htasks, hcalls, hactors⟩ := announce_tasks callbacks { h.toActorSystem with
        toTables := h.toTables.detach r
        toRelations := h.toRelations.unwatchAll h.actors r.id } r .normal (.finish r)
      refine ⟨fun hthrew => ?_, calls_nil hcalls, left_same (hactors.trans ?_)⟩
      · have htelling := telling_indexed hs'' (ended_leaves htask (htasks hthrew))
        rw [hlinked] at htelling
        rw [show (h.leave callbacks r).tasks = _ from htasks hthrew]
        change Staged _ (.linked r .normal _ :: ([.finish r] ++ outer))
        exact .telling htelling (.inr rfl) houter
      · exact TreeSteps.detach_actors h.toTables r
  | @leavesSingle r hr =>
      have hrecord : h.record (h.leaveSingle r) next (.tree (.stopSingle r)) =
          { h.ends r.id false with toActorSystem := next } := if_pos hr
      refine proceeds_bare houter (.finish r) rfl ⟨?_, fun hcrashed => ?_⟩ rfl rfl
        (TreeSteps.detach_actors h.toTables r)
      · rw [hrecord]
        exact ended_ends_ne h r.id false
      · refine w.alone hs (hguard r rfl hr ?_)
        rw [hrecord] at hcrashed
        exact crashed_ends hcrashed
  | @unregisters r =>
      exact proceeds_bare houter (.tree (.unregistering r)) rfl
        (w.bare hs (hstaged.bare rfl)) rfl rfl rfl
  | @terminates _ r htask =>
      have hbare : Bare h r.id := by
        rcases htask with rfl | rfl
        · exact hstaged.bare rfl
        · exact hstaged.bare rfl
      exact proceeds_bare houter (.tree (.terminating r)) rfl (w.bare hs hbare) rfl rfl rfl
  | @removes _ id htask =>
      have hbare : Bare h id := by
        rcases htask with ⟨r, rfl, rfl⟩ | rfl
        · exact hstaged.bare rfl
        · exact hstaged.bare rfl
      refine proceeds_removed houter rfl rfl fun x hx hgone => ?_
      have hid : x = id := by
        by_contra hne
        exact hgone (Finset.mem_erase.2 ⟨hne, hx⟩)
      rw [hid]
      exact (w.bare hs hbare).2
  | @frame f hf =>
      refine ⟨fun _ => .plain fun task' htask' => ?_, calls_nil rfl, fun x hx hgone => ?_⟩
      · rcases List.mem_append.1 htask' with hnew | hold
        · exact plain_fresh (fresh_resumeFrame h.toActorSystem response hf task' hnew)
        · exact houter task' hold
      · exact (w.bare hs (hstaged.bare (actors_frame hf hx hgone))).2
  | @crashed r error _ hcrash =>
      cases hcrash with
      | announced supervisor childSupervisor reason exhausted =>
          obtain ⟨htasks, hcalls, hactors⟩ := announce_tasks callbacks
            { h.toActorSystem with supervisor := supervisor, childSupervisor := childSupervisor } r
            reason (.stopFor r exhausted)
          refine ⟨fun hthrew => ?_, calls_nil hcalls, left_same hactors⟩
          have htelling := telling_indexed hs''
            (ended_crash (htasks hthrew ▸ List.cons_ne_nil _ _))
          rw [hlinked] at htelling
          rw [htasks hthrew]
          change Staged _ (.linked r reason _ :: ([] ++ .stopFor r exhausted :: outer))
          refine .telling htelling (.inl rfl) fun task' htask' => ?_
          rcases List.mem_cons.1 htask' with rfl | htask'
          · exact ⟨rfl, nofun⟩
          · exact houter task' htask'
      | started _ _ htasks =>
          exact proceeds_plain houter (fun task' htask' => plain_fresh (htasks task' htask')) rfl
            rfl
  | told => exact absurd rfl (hother _ _ _)
  | @stopsFor r _ _ =>
      refine proceeds_plain houter (fun task' htask' => ?_) rfl rfl
      rw [List.mem_singleton.1 htask']
      exact ⟨rfl, nofun⟩
  | @migrated id move =>
      have hlinks : (h.record (h.migrated callbacks id move) next (.migrate id move)).links =
          (h.migrated callbacks id move).system.links := congrArg Relations.links hnext
      have hmigrated : (h.migrated callbacks id move).tasks = [] ∧
          (h.migrated callbacks id move).calls = [] := by
        unfold ActorSystem.migrated
        dsimp only
        split_ifs <;> exact ⟨rfl, rfl⟩
      refine proceeds_removed houter hmigrated.1 hmigrated.2 fun x hx hgone _ => ?_
      intro l e y he hjoins _
      rw [hlinks] at he
      exact left_migrated hs x hx hgone l e he (Joins.ends hjoins).1
  | closesAll =>
      have hended : ∀ x ∈ h.actors, (h.record h.closeAll next .closeAll).ended x ≠ none := by
        intro x hx
        change (h.ended x).or (if x ∈ h.actors then some false else none) ≠ none
        rw [if_pos hx]
        cases h.ended x <;> exact nofun
      have hbare : ∀ x ∈ h.actors, Bare (h.record h.closeAll next .closeAll) x := by
        refine fun x hx => ⟨hended x hx, fun _ l e y he hjoins hlive => ?_⟩
        have hlive₀ := w.live y (Wanes.lt_of_joins hs (w.links l e he) hjoins) hlive
        exact hended y hlive₀.1 hlive.2
      refine ⟨fun _ => .plain houter, fun call hcall => ?_, left_same rfl⟩
      obtain ⟨id, hid, rfl⟩ := List.mem_map.1 hcall
      have hid' := hbare id ((Finset.mem_sort _).1 hid)
      split_ifs
      · exact .leaving rfl hid' hnil
      · exact .leaving rfl hid' hnil
  | @closes id =>
      exact proceeds_bare houter (.closeTerminating id) rfl
        (w.bare hs (hstaged.bare rfl)) rfl rfl rfl

/-! ## The round of linked actors -/

section
omit [DecidableEq N]

theorem plain_crashes (crash : Option (ActorRef N × String)) :
    ∀ call ∈ crash.toList.map fun crash => [(.crash crash.1 crash.2 : Task N V)],
      Staged h' call := by
  intro call hcall
  obtain ⟨crash, -, rfl⟩ := List.mem_map.1 hcall
  refine .plain fun task htask => ?_
  rw [List.mem_singleton.1 htask]
  exact ⟨rfl, nofun⟩

/-- All linked actors have been told. -/
theorem proceeds_done {r : ActorRef N} {reason : TerminationReason}
    (hs : SoundSystem h.toActorSystem) (hstaged : Staged h (.linked r reason [] :: outer))
    (w : Wanes h h') :
    Proceeds h h' outer (h.toActorSystem.proceed []) := by
  obtain ⟨htelling, next, outer', rfl, hnext, houter⟩ := hstaged.linked
  refine ⟨fun _ => ?_, calls_nil rfl, left_same rfl⟩
  rcases hnext with rfl | rfl
  · exact .plain houter
  · change Staged h' (.finish r :: outer')
    refine .leaving rfl (w.bare hs ⟨htelling.1, ?_⟩) houter
    exact fun hcrashed l e y he hjoins hlive =>
      absurd (htelling.2 hcrashed l e y he hjoins hlive) List.not_mem_nil

theorem tellNext_threw {s : ActorSystem N V} {r : ActorRef N} {reason : TerminationReason}
    {rest : List RefId} (hthrew : (s.tellNext callbacks r reason (l :: rest)).threw = false) :
    (s.tellNext callbacks r reason (l :: rest)).tasks = [.linked r reason rest] := by
  unfold ActorSystem.tellNext at hthrew ⊢
  dsimp only at hthrew ⊢
  split_ifs at hthrew ⊢
  · cases hthrew
  · rfl

theorem proceeds_told {r : ActorRef N} {reason : TerminationReason} {rest : List RefId}
    (hs : SoundSystem h.toActorSystem)
    (hstaged : Staged h (.linked r reason (l :: rest) :: outer)) {next : ActorSystem N V}
    (hnext : next.toRelations = (h.tellNext callbacks r reason (l :: rest)).system.toRelations)
    (w : Wanes h (toldNext callbacks h r reason l rest next)) :
    Proceeds h (toldNext callbacks h r reason l rest next) outer
      (h.tellNext callbacks r reason (l :: rest)) := by
  obtain ⟨htelling, tasks, outer', rfl, htasks, houter⟩ := hstaged.linked
  have hcut : next.links l = none := by
    cases he : h.links l with
    | some e => exact (links_toldNext hnext hs he l).trans (if_pos rfl)
    | none =>
        by_contra hsome
        obtain ⟨e, hsome⟩ := Option.ne_none_iff_exists'.1 hsome
        exact absurd (he.symm.trans (w.links l e hsome)) nofun
  refine ⟨fun hthrew => ?_, fun call hcall => ?_, ?_⟩
  · rw [tellNext_threw hthrew]
    change Staged _ (.linked r reason rest :: (tasks ++ outer'))
    have hrest : Telling (toldNext callbacks h r reason l rest next) r.id (l :: rest) :=
      w.telling hs htelling
    refine .telling ⟨hrest.1, fun hcrashed v e y he hjoins hlive => ?_⟩ htasks houter
    refine (List.mem_cons.1 (hrest.2 hcrashed v e y he hjoins hlive)).resolve_left ?_
    rintro rfl
    exact absurd (he.symm.trans hcut) nofun
  · unfold ActorSystem.tellNext at hcall
    dsimp only at hcall
    split_ifs at hcall
    · exact absurd hcall List.not_mem_nil
    · exact plain_crashes _ call hcall
  · refine left_same ?_
    unfold ActorSystem.tellNext
    dsimp only
    split_ifs <;> rfl

end

/-! ## A call goes on -/

omit [DecidableEq N] in
theorem attends_carryOn (ha : Attends h) {index : Nat} (hcalls : p.system.calls = h.calls)
    (hsystem : h'.toActorSystem = ActorSystem.carryOn index outer p)
    (hs' : SoundSystem (ActorSystem.carryOn index outer p)) (hr : Records h h') (w : Wanes h h')
    (hp : Proceeds h h' outer p) : Attends h' := by
  refine ha.wanes w (hsystem ▸ hs') (fun call hmem => ?_) (fun x hx hgone => ?_) hr.crashed
  · rw [hsystem] at hmem
    rcases mem_carryOn hcalls hmem with ⟨hthrew, rfl⟩ | hold | hnew
    · exact hp.tasks hthrew
    · exact w.staged ha.sound (ha.calls call hold)
    · exact hp.calls call hnew
  · rw [hsystem] at hgone
    exact hp.left x hx hgone

end

/-! ## Steps -/

variable [DecidableEq N]

/-- No actor that has crashed is restarted on its own while it is linked to a live one, or
stopped together with others while a live partner would ignore that. -/
def HeededCall (h : LinkedSystem N V) : List (Task N V) → Prop
  | .tree (.stopSingle r) :: _ => r.id ∈ h.actors → h.ended r.id = some true → Alone h r.id
  | .linked r reason (l :: _) :: _ =>
      h.ended r.id = some true → ∀ e y, h.links l = some e → Joins e.linkRef r.id y →
        Live h y → reason.abnormal = true ∨ h.trapExit y = true
  | _ => True

/-- The call that goes on is like this, and no link is made between an actor that is ending
because of its crash and a live one. -/
def Heeded (h : LinkedSystem N V) : SystemAction N V → Prop
  | .resumes index _ _ => ∀ call, h.calls[index]? = some call → HeededCall h call
  | .link actor1Ref actor2Ref =>
      (Live h actor2Ref.id → h.ended actor1Ref.id ≠ some true) ∧
        (Live h actor1Ref.id → h.ended actor2Ref.id ≠ some true)
  | _ => True

theorem grows_link (ha : Attends h) {actor1Ref actor2Ref : ActorRef N}
    (hguard : Heeded h (.link actor1Ref actor2Ref)) :
    Grows h { h with
      toRelations := h.toRelations.link h.actors h.id actor1Ref actor2Ref } := by
  have hnone : h.links h.nextRef = none := by
    by_contra hsome
    obtain ⟨e, he⟩ := Option.ne_none_iff_exists'.1 hsome
    exact absurd (ha.sound.bonds.agree.links.lt_of_links he) (lt_irrefl _)
  have hsame : Grows h h := ⟨rfl, rfl, rfl, rfl, rfl, rfl, le_rfl, fun _ _ => rfl,
    fun _ _ => rfl, fun _ hl => .inl hl, fun e he => absurd (hnone.symm.trans he) nofun⟩
  unfold Relations.link
  split_ifs
  · refine ⟨rfl, rfl, rfl, rfl, rfl, rfl, Nat.le_succ _, fun _ _ => rfl, fun l hl => ?_,
      fun _ hl => .inl hl, fun e he => absurd (hnone.symm.trans he) nofun⟩
    exact Function.update_of_ne hl ..
  · refine ⟨rfl, rfl, rfl, rfl, rfl, rfl, Nat.le_succ _, fun l hl => ?_, fun l hl => ?_,
      fun l hl => ?_, fun e he x y hjoins hlive => ?_⟩
    · exact Function.update_of_ne hl ..
    · exact Function.update_of_ne hl ..
    · refine (List.mem_append.1 hl).imp_right fun hnew => ?_
      obtain rfl := List.mem_singleton.1 hnew
      refine ⟨rfl, ?_⟩
      change Function.update h.links h.nextRef _ h.nextRef ≠ none
      rw [Function.update_self]
      exact nofun
    · change Function.update h.links h.nextRef _ h.nextRef = some e at he
      rw [Function.update_self, Option.some.injEq] at he
      subst he
      rcases hjoins with ⟨rfl, rfl⟩ | ⟨rfl, rfl⟩
      · exact hguard.1 hlive
      · exact hguard.2 hlive
  · exact hsame
  · exact hsame

section
variable {index : Nat} {response : Response} {task : Task N V} {outer : List (Task N V)}
  {p : Progress N V} {next : ActorSystem N V}

omit [DecidableEq N] in
/-- The links that a restart or a migration cuts need not be told. -/
theorem due_goes (hs : SoundSystem h.toActorSystem)
    (hlive : ∀ y < h.nextId, Live (h.record p next task) y → Live h y)
    (hguard : ∀ r, task = .tree (.stopSingle r) → r.id ∈ h.actors → h.ended r.id = some true →
      Alone h r.id) {e : LinkEntry N} (hgoes : Goes h.toActorSystem task l)
    (he : h.links l = some e) (hnone : next.links l = none) :
    Due (h.record p next task) l e.linkRef := by
  unfold Goes at hgoes
  split at hgoes
  next r =>
    obtain ⟨hr, e', he', hends⟩ := hgoes
    obtain rfl : e = e' := Option.some.inj (he.symm.trans he')
    have hrecord : h.record p next (.tree (.stopSingle r)) =
        { h.ends r.id false with toActorSystem := next } := if_pos hr
    refine .inr ⟨r.id, hends, ?_, fun hcrashed y hjoins hy => ?_⟩
    · rw [hrecord]
      exact ended_ends_ne h r.id false
    · rw [hrecord] at hcrashed
      have halone := hguard r rfl hr (crashed_ends hcrashed)
      exact absurd (hlive y (Wanes.lt_of_joins hs he hjoins) hy) (halone l e y he hjoins)
  next id move =>
    refine .inl (List.mem_append_right _ (List.mem_filter.2 ⟨hgoes, ?_⟩))
    rw [hnone]
    rfl
  next => exact hgoes.elim

theorem wanes_does (ha : Attends h) (hdoes : Does callbacks h.toActorSystem response task p)
    (hother : ∀ r reason rest, task ≠ .linked r reason rest)
    (hguard : ∀ r, task = .tree (.stopSingle r) → r.id ∈ h.actors → h.ended r.id = some true →
      Alone h r.id) :
    Wanes h (h.record p (ActorSystem.carryOn index outer p) task) := by
  have hsystem := record_system h p (ActorSystem.carryOn index outer p) task
  have hr := records_record h p (ActorSystem.carryOn index outer p) task
  have hrenews : Renews h.toTables
      (h.record p (ActorSystem.carryOn index outer p) task).toTables := by
    rw [hsystem]
    exact renews_does hdoes
  have hsheds : Sheds (Goes h.toActorSystem task) h.toRelations
      (h.record p (ActorSystem.carryOn index outer p) task).toRelations := by
    rw [hsystem]
    exact sheds_does ha.sound hdoes hother
  refine wanes_of_sheds ha hr hrenews (record_crashes h p _ hother) hsheds
    fun l e hgoes he hnone => ?_
  rw [hsystem] at hnone
  exact due_goes ha.sound (live_of_renews hr hrenews) hguard hgoes he hnone

/-- A call goes on, and something may be recorded. -/
theorem attends_resumed (ha : Attends h) {now : Nat}
    (hguard : Heeded h (.resumes index response now))
    (hst : h.toActorSystem.resumes callbacks stringify index response now = some next)
    (hcall : h.calls[index]? = some (task :: outer)) :
    Attends (h.record (h.toActorSystem.resumeTask callbacks stringify response now task) next
      task) := by
  have hs' : SoundSystem next := ha.sound.resumes hst
  have hdoes : Does callbacks h.toActorSystem response task
      (h.toActorSystem.resumeTask callbacks stringify response now task) :=
    resumeTask_cases h.toActorSystem response now task
  have hstaged := ha.calls _ (List.mem_of_getElem? hcall)
  have htask := ha.sound.tasks _ (List.mem_of_getElem? hcall) task List.mem_cons_self
  unfold ActorSystem.resumes at hst
  rw [hcall] at hst
  cases hst
  have hheeded : HeededCall h (task :: outer) := hguard _ hcall
  by_cases hlinked : ∃ r reason rest, task = .linked r reason rest
  · obtain ⟨r, reason, rest, rfl⟩ := hlinked
    cases rest with
    | nil =>
        have hrenews : Renews h.toTables h.toTables := .refl _
        have hsheds : Sheds (fun _ => False) h.toRelations h.toRelations := .refl _
        have w : Wanes h (h.record (h.toActorSystem.proceed [])
            (ActorSystem.carryOn index outer (h.toActorSystem.proceed [])) (.linked r reason [])) :=
          wanes_of_sheds ha (records_record _ _ _ _) hrenews rfl hsheds fun _ _ hgoes =>
            hgoes.elim
        exact attends_carryOn ha rfl rfl hs' (records_record _ _ _ _) w
          (proceeds_done ha.sound hstaged w)
    | cons l rest =>
        have htelling := hstaged.linked.1
        have w : Wanes h (toldNext callbacks h r reason l rest
            (ActorSystem.carryOn index outer (h.tellNext callbacks r reason (l :: rest)))) :=
          wanes_toldNext rfl ha (renews_does hdoes) (htask l List.mem_cons_self) htelling hheeded
        exact attends_carryOn ha (calls_does hdoes) rfl hs' (records_record _ _ _ _) w
          (proceeds_told ha.sound hstaged rfl w)
  · have hother : ∀ r reason rest, task ≠ .linked r reason rest := fun r reason rest heq =>
      hlinked ⟨r, reason, rest, heq⟩
    have hsingle : ∀ r, task = .tree (.stopSingle r) → r.id ∈ h.actors →
        h.ended r.id = some true → Alone h r.id := by
      rintro r rfl
      exact hheeded
    have w : Wanes h (h.record _ (ActorSystem.carryOn index outer _) task) :=
      wanes_does ha hdoes hother hsingle
    exact attends_carryOn ha (calls_does hdoes) (record_system _ _ _ _) hs'
      (records_record _ _ _ _) w (proceeds_does ha hstaged hother hdoes hs' rfl w hsingle)

omit [DecidableEq N] in
/-- What a call awaits is rejected. -/
theorem attends_rejected (ha : Attends h)
    (hst : h.toActorSystem.rejects index = some next) :
    Attends { h with toActorSystem := next } := by
  have hs' : SoundSystem next := ha.sound.rejects hst
  obtain ⟨task, outer, p, hcall, hdrops, rfl⟩ := rejects_cases hst
  have hstaged := ha.calls _ (List.mem_of_getElem? hcall)
  have hr : Records h { h with toActorSystem := ActorSystem.carryOn index outer p } :=
    .of_eq rfl rfl
  have hrenews : Renews h.toTables (ActorSystem.carryOn index outer p).toTables := by
    cases hdrops with
    | removes =>
        exact ⟨rfl, le_rfl, fun x hx => .inl (Finset.mem_of_mem_erase hx), Finset.Subset.refl _⟩
    | _ => exact .refl _
  have hsheds : Sheds (fun _ => False) h.toRelations
      (ActorSystem.carryOn index outer p).toRelations := by
    cases hdrops <;> exact .refl _
  have w : Wanes h { h with toActorSystem := ActorSystem.carryOn index outer p } :=
    wanes_of_sheds ha hr hrenews rfl hsheds fun _ _ hgoes => hgoes.elim
  refine attends_carryOn ha (calls_drops hdrops) rfl hs' hr w ?_
  cases hdrops with
  | @closes id =>
      exact proceeds_bare (hstaged.outer_plain nofun) (.closeTerminating id) rfl
        (w.bare ha.sound (hstaged.bare rfl)) rfl rfl rfl
  | @removes id =>
      have hbare : Bare h id := hstaged.bare rfl
      refine proceeds_removed (hstaged.outer_plain nofun) rfl rfl fun x hx hgone => ?_
      have hid : x = id := by
        by_contra hne
        exact hgone (Finset.mem_erase.2 ⟨hne, hx⟩)
      rw [hid]
      exact (w.bare ha.sound hbare).2
  | unregistering | terminating | linked => exact ⟨nofun, calls_nil rfl, left_same rfl⟩

omit [DecidableEq N] in
/-- What is neither the progress of a call nor `link`. -/
theorem attends_opens (ha : Attends h) {a : SystemAction N V} (hopens : Opens h.toActorSystem next)
    (hs' : SoundSystem next) (hsystem : h'.toActorSystem = next) (hr : Records h h')
    (hcrashes : h'.crashes = h.crashes)
    (hsheds : Sheds (fun l => a = .unlink l) h.toRelations next.toRelations)
    (hremoved : ∀ l, a = .unlink l → l ∈ h'.removed) : Attends h' := by
  subst hsystem
  have w : Wanes h h' := wanes_of_sheds ha hr hopens.renews hcrashes hsheds
    fun l _ hgoes _ _ => .inl (hremoved l hgoes)
  refine ha.wanes w hs' (fun call hcall => ?_) (fun x hx hgone => absurd (hopens.actors hx) hgone)
    hr.crashed
  obtain ⟨new, hcalls, hnew⟩ := hopens.calls
  rw [hcalls] at hcall
  rcases List.mem_append.1 hcall with hold | hcall
  · exact w.staged ha.sound (ha.calls call hold)
  · exact .plain fun task htask => plain_fresh (hnew call hcall task htask)

end

theorem attends_step (ha : Attends h) {a : SystemAction N V} (hguard : Heeded h a)
    (hst : h.step callbacks stringify a = some h') : Attends h' := by
  obtain ⟨next, hnext, rfl⟩ := Option.map_eq_some_iff.1 hst
  have hs' := ha.sound.step hnext
  cases a with
  | resumes index response now =>
      change h.toActorSystem.resumes callbacks stringify index response now = some next at hnext
      dsimp only
      obtain ⟨task, outer, -, hcall, -, -⟩ := resumes_cases hnext
      rw [hcall]
      exact attends_resumed ha hguard hnext hcall
  | rejects index => exact attends_rejected ha hnext
  | link actor1Ref actor2Ref =>
      cases hnext
      exact ha.grows (grows_link ha hguard) hs'
  | unlink l =>
      have hsheds := sheds_step ha.sound hnext nofun nofun nofun
      have hr : Records h { h with toActorSystem := next, removed := h.removed ++ [l] } :=
        ⟨fun _ _ hx => hx, fun _ _ hx => hx, fun _ hl => List.mem_append_left _ hl⟩
      cases step_cases hnext with
      | opens hopens =>
          refine attends_opens ha hopens hs' rfl hr rfl hsheds ?_
          rintro v ⟨⟩
          exact List.mem_append_right _ List.mem_cons_self
  | _ =>
      have hsheds := sheds_step ha.sound hnext nofun nofun nofun
      cases step_cases hnext with
      | opens hopens => exact attends_opens ha hopens hs' rfl (.of_eq rfl rfl) rfl hsheds nofun

omit [DecidableEq N] in
theorem attends_init (id : N) (childSupervision : ActorId → ChildSupervisionOptions)
    (supervisor : Supervisor) :
    Attends (LinkedSystem.init id childSupervision supervisor : LinkedSystem N V) where
  sound := .init id childSupervision supervisor
  calls := fun _ hcall => absurd hcall List.not_mem_nil
  gone := fun _ _ hcrashed => absurd hcrashed nofun
  untold := fun _ _ => rfl
  once := fun _ hl => absurd hl List.not_mem_nil
  due := fun _ _ _ hl => absurd hl List.not_mem_nil

/-! ## What has been told stays so -/

/-- The link is cut, and these have been told. -/
structure Told (l : RefId) (ids : List ActorId) (h : LinkedSystem N V) : Prop where
  sound : SoundSystem h.toActorSystem
  isLocal : l ∈ h.localLinks
  links : h.links l = none
  told : told h l = ids

omit [DecidableEq N] in
theorem Told.sheds {ids : List ActorId} (t : Told l ids h) (hs' : SoundSystem h'.toActorSystem)
    (hcrashes : h'.crashes = h.crashes) {goes : RefId → Prop}
    (hsheds : Sheds goes h.toRelations h'.toRelations) : Told l ids h' where
  sound := hs'
  isLocal := hsheds.localLinks ▸ t.isLocal
  links := by
    rcases hsheds.links l with heq | ⟨hnone, -⟩
    · exact heq.trans t.links
    · exact hnone
  told := by
    have hexits : exitsFor l h'.events = exitsFor l h.events :=
      hsheds.silent l (remote_ne t.sound (.inl t.isLocal))
    have htold := t.told
    unfold LinkStages.told at htold ⊢
    rw [hexits, hcrashes]
    exact htold

omit [DecidableEq N] in
theorem Told.linked {ids : List ActorId} (t : Told l ids h) {next : ActorSystem N V}
    (hs' : SoundSystem next) {r : ActorRef N} {reason : TerminationReason} {v : RefId}
    {rest : List RefId} (hconcerns : h.Concerns r.id v)
    (hnext : next.toRelations = (h.tellNext callbacks r reason (v :: rest)).system.toRelations) :
    Told l ids (toldNext callbacks h r reason v rest next) := by
  have hk : Keeps h.actors h.toRelations next.toRelations := by
    rw [hnext, tellNext_relations]
    exact t.sound.bonds.agree.tellLinked r reason hconcerns
  have hlocal : l ∈ next.localLinks := hk.localLinks ▸ t.isLocal
  cases he : h.links v with
  | none =>
      obtain ⟨-, hlinks, hevents, -, hcrash⟩ := tellLinked_gone h.actors callbacks 0 r reason he
      refine ⟨hs', hlocal, ?_, Eq.trans ?_ t.told⟩
      · change next.toRelations.links l = none
        rw [hnext, tellNext_relations, hlinks]
        exact t.links
      · unfold LinkStages.told
        rw [exits_toldNext hnext, hevents, toldNext_crashes next fun _ => hcrash, hcrash]
        simp
  | some e =>
      have hne : l ≠ v := by
        rintro rfl
        exact absurd (he.symm.trans t.links) nofun
      refine ⟨hs', hlocal, ?_, (told_toldNext_ne hnext t.sound he hne).trans t.told⟩
      exact (links_toldNext hnext t.sound he l).trans ((if_neg hne).trans t.links)

theorem Told.resumed {ids : List ActorId} (t : Told l ids h) {index : Nat} {response : Response}
    {now : Nat} {task : Task N V} {outer : List (Task N V)} {next : ActorSystem N V}
    (hst : h.toActorSystem.resumes callbacks stringify index response now = some next)
    (hcall : h.calls[index]? = some (task :: outer)) :
    Told l ids (h.record (h.toActorSystem.resumeTask callbacks stringify response now task) next
      task) := by
  have hs' : SoundSystem next := t.sound.resumes hst
  have hdoes : Does callbacks h.toActorSystem response task
      (h.toActorSystem.resumeTask callbacks stringify response now task) :=
    resumeTask_cases h.toActorSystem response now task
  have htask := t.sound.tasks _ (List.mem_of_getElem? hcall) task List.mem_cons_self
  unfold ActorSystem.resumes at hst
  rw [hcall] at hst
  cases hst
  by_cases hlinked : ∃ r reason rest, task = .linked r reason rest
  · obtain ⟨r, reason, rest, rfl⟩ := hlinked
    cases rest with
    | nil =>
        have hsheds : Sheds (fun _ => False) h.toRelations h.toRelations := .refl _
        exact t.sheds hs' rfl hsheds
    | cons v rest => exact t.linked hs' (htask v List.mem_cons_self) rfl
  · have hother : ∀ r reason rest, task ≠ .linked r reason rest := fun r reason rest heq =>
      hlinked ⟨r, reason, rest, heq⟩
    have hsheds := sheds_does t.sound hdoes hother
    generalize h.toActorSystem.resumeTask callbacks stringify response now task = p at hs' hsheds ⊢
    have hsystem := record_system h p (ActorSystem.carryOn index outer p) task
    have hsheds' : Sheds (Goes h.toActorSystem task) h.toRelations
        (h.record p (ActorSystem.carryOn index outer p) task).toRelations := by
      rw [hsystem]
      exact hsheds
    refine t.sheds ?_ (record_crashes h p _ hother) hsheds'
    rw [hsystem]
    exact hs'

omit [DecidableEq N] in
/-- `link` changes nothing about other links. -/
theorem link_ne [DecidableEq N] (actors : Finset ActorId) (r : Relations N) (nodeId : N)
    (actor1Ref actor2Ref : ActorRef N) (hne : l ≠ r.nextRef) :
    (r.link actors nodeId actor1Ref actor2Ref).links l = r.links l ∧
      (l ∈ r.localLinks → l ∈ (r.link actors nodeId actor1Ref actor2Ref).localLinks) ∧
      (r.link actors nodeId actor1Ref actor2Ref).events = r.events := by
  unfold Relations.link
  split_ifs
  · exact ⟨rfl, fun hl => hl, rfl⟩
  · exact ⟨Function.update_of_ne hne .., fun hl => List.mem_append_left _ hl, rfl⟩
  · exact ⟨rfl, fun hl => hl, rfl⟩
  · exact ⟨rfl, fun hl => hl, rfl⟩

theorem Told.step {ids : List ActorId} (t : Told l ids h) {a : SystemAction N V}
    (hst : h.step callbacks stringify a = some h') : Told l ids h' := by
  obtain ⟨next, hnext, rfl⟩ := Option.map_eq_some_iff.1 hst
  have hs' := t.sound.step hnext
  cases a with
  | resumes index response now =>
      change h.toActorSystem.resumes callbacks stringify index response now = some next at hnext
      dsimp only
      obtain ⟨task, outer, -, hcall, -, -⟩ := resumes_cases hnext
      rw [hcall]
      exact t.resumed hnext hcall
  | rejects index =>
      obtain ⟨task, outer, p, -, hdrops, rfl⟩ := rejects_cases hnext
      have hsheds : Sheds (fun _ => False) h.toRelations
          (ActorSystem.carryOn index outer p).toRelations := by
        cases hdrops <;> exact .refl _
      exact t.sheds hs' rfl hsheds
  | link actor1Ref actor2Ref =>
      cases hnext
      have hlt := t.sound.bonds.agree.links.madeLocal l t.isLocal
      obtain ⟨hlinks, hlocal, hevents⟩ := link_ne h.actors h.toRelations h.id actor1Ref actor2Ref
        (Nat.ne_of_lt hlt)
      refine ⟨hs', hlocal t.isLocal, hlinks.trans t.links, Eq.trans ?_ t.told⟩
      exact congrArg (exitsFor l · ++ _) hevents
  | _ =>
      have hsheds := sheds_step t.sound hnext nofun nofun nofun
      exact t.sheds hs' rfl hsheds

/-! ## Runs -/

/-- Nobody is told twice because of a link.  When an actor has crashed, and is gone or its
link has been cut, but not on purpose, the actor at the other end, if it is live, has been
told, and that is all that is ever told because of the link. -/
def Fires (callbacks : Callbacks N) (stringify : List V → String) (h : LinkedSystem N V) : Prop :=
  ∀ l ref, h.linkRefs l = some ref → l ∈ h.localLinks →
    (told h l).length ≤ 1 ∧
      ∀ x y, Joins ref x y → h.ended x = some true → h.links l = none ∨ x ∉ h.actors →
        l ∉ h.removed → Live h y → ∀ later h',
          run (LinkedSystem.step callbacks stringify) h later = some h' → told h' l = [y]

theorem fires_of_attends (ha : Attends h) : Fires callbacks stringify h := by
  intro l ref hmade hlocal
  refine ⟨ha.once l hlocal, fun x y hjoins hcrashed hout hkept hlive later h' hlater => ?_⟩
  have hnone : h.links l = none := by
    rcases hout with hnone | hgone
    · exact hnone
    · by_contra hsome
      obtain ⟨e, he⟩ := Option.ne_none_iff_exists'.1 hsome
      have hentry := (ha.sound.bonds.agree.links.entry l e he).1
      have heq : ref = e.linkRef := Option.some.inj (hmade.symm.trans hentry)
      exact ha.gone x hgone hcrashed l e y he (heq ▸ hjoins) hlive
  have htold : told h l = [y] := by
    rcases ha.due l ref hmade hlocal hnone with hremoved | ⟨z, hends, hended, htold⟩
    · exact absurd hremoved hkept
    · -- of the two actors the live one has not begun to end
      have hz : z = x := (Joins.eq_of_ends hjoins hends).resolve_right fun heq =>
        hended (heq ▸ hlive.2)
      subst hz
      exact htold hcrashed y hjoins hlive
  have ht : Told l [y] h := ⟨ha.sound, hlocal, hnone, htold⟩
  exact (run_invariant' (fun _ _ _ t hst => Told.step t hst) ht hlater).told

/-- In a run whose steps meet the guard the links of actors that crash fire once. -/
theorem links_fire {id : N} {childSupervision : ActorId → ChildSupervisionOptions}
    {supervisor : Supervisor} {as : List (SystemAction N V)}
    (hrun : run (LinkedSystem.step callbacks stringify) (.init id childSupervision supervisor) as =
      some h)
    (hheeded : Along (LinkedSystem.step callbacks stringify) Heeded
      (.init id childSupervision supervisor) as) : Fires callbacks stringify h := by
  have ha : Attends h := run_invariant (fun _ _ _ ha hguard hst => attends_step ha hguard hst)
    (attends_init id childSupervision supervisor) hheeded hrun
  exact fires_of_attends ha

section

def silent : Callbacks Nat := ⟨fun _ _ => [], fun _ _ => false⟩

def worker (id : ActorId) : ActorRef Nat := ⟨0, id, none, 0⟩

/-- A node with one strategy for actors without a parent, and one for children. -/
def node (strategy : SupervisionStrategy) (children : ChildSupervisionStrategy) :
    LinkedSystem Nat Nat :=
  .init 0 (fun _ => ⟨children, 3, 1000⟩) (.new strategy 3 1000)

def goesOn (steps : Nat) : List (SystemAction Nat Nat) :=
  List.replicate steps (.resumes 0 .success 0)

/-- One of two linked actors crashes, and its supervisor stops it: the other crashes. -/
def announced : List (SystemAction Nat Nat) :=
  [.spawn "Worker" {}, .spawn "Worker" {}, .link (worker 0) (worker 1),
    .crash (worker 0) "failed", .resumes 0 .success 0, .resumes 0 .success 0]

/-- The crash has been passed on. -/
def passed : LinkedSystem Nat Nat :=
  (run (LinkedSystem.step silent fun _ => "") (node .Stop .oneForOne) announced).getD
    (node .Stop .oneForOne)

theorem links_fire_announced :
    ∃ h', run (LinkedSystem.step silent fun _ => "") passed (goesOn 13) = some h' ∧
      h'.actors = ∅ ∧ told h' 0 = [1] := by
  have hrun : run (LinkedSystem.step silent fun _ => "") (node .Stop .oneForOne) announced =
      some passed := rfl
  have hheeded : Along (LinkedSystem.step silent fun _ => "") Heeded (node .Stop .oneForOne)
      announced := by
    refine ⟨trivial, fun t ht => ?_⟩; cases ht
    refine ⟨trivial, fun t ht => ?_⟩; cases ht
    refine ⟨⟨fun _ => nofun, fun _ => nofun⟩, fun t ht => ?_⟩; cases ht
    refine ⟨trivial, fun t ht => ?_⟩; cases ht
    refine ⟨fun call hcall => ?_, fun t ht => ?_⟩
    · cases hcall
      trivial
    cases ht
    refine ⟨fun call hcall => ?_, fun t ht => ?_⟩
    · cases hcall
      exact fun _ _ _ _ _ _ => .inl rfl
    trivial
  have hfires := links_fire hrun hheeded
  refine ⟨_, rfl, rfl, ?_⟩
  exact (hfires 0 ⟨0, 0, 1⟩ rfl (by decide)).2 0 1 (.inl ⟨rfl, rfl⟩) rfl (.inl rfl) (by decide)
    ⟨by decide, rfl⟩ (goesOn 13) _ rfl

/-- One of two linked actors crashes and is restarted. -/
def restarting : List (SystemAction Nat Nat) :=
  [.spawn "Worker" {}, .spawn "Worker" {}, .link (worker 0) (worker 1),
    .crash (worker 0) "failed"] ++ goesOn 5

/-- A child that is linked to an actor outside crashes, and all children are restarted. -/
def regrouping : List (SystemAction Nat Nat) :=
  [.spawn "Boss" {}, .spawnChild (worker 0) "Worker" {}, .spawn "Worker" {},
    .link (worker 1) (worker 2), .crash (worker 1) "failed"] ++ goesOn 9

/-- The linked actor is not told, neither when the other is restarted on its own nor when it
is restarted with its siblings. -/
theorem restarts_silent :
    (∃ h, run (LinkedSystem.step silent fun _ => "") (node .Restart .oneForOne) restarting =
        some h ∧ h.calls = [] ∧ h.actors = {1, 2} ∧ ¬ Fires silent (fun _ => "") h) ∧
      ∃ h, run (LinkedSystem.step silent fun _ => "") (node .Restart .oneForAll) regrouping =
        some h ∧ h.calls = [] ∧ h.actors = {0, 2, 3} ∧ ¬ Fires silent (fun _ => "") h := by
  refine ⟨⟨_, rfl, rfl, by decide, fun hfires => ?_⟩, _, rfl, rfl, by decide, fun hfires => ?_⟩
  · have htold := (hfires 0 ⟨0, 0, 1⟩ rfl (by decide)).2 0 1 (.inl ⟨rfl, rfl⟩) rfl (.inl rfl)
      (by decide) ⟨by decide, rfl⟩ [] _ rfl
    exact absurd htold (by decide)
  · have htold := (hfires 0 ⟨0, 1, 2⟩ rfl (by decide)).2 1 2 (.inl ⟨rfl, rfl⟩) rfl (.inl rfl)
      (by decide) ⟨by decide, rfl⟩ [] _ rfl
    exact absurd htold (by decide)

end

end Libeam.Proofs.LinkFiring
