import Libeam.Proofs.SubtreeStops
/-!
# When a stop and a restart are completed

An exception of a callback ends a stop: the actor whose stop it is and those above it stay
in the tables.  A stop is completed just when no callback throws that is called on its way,
and a restart just when `terminate()` does not.
-/

namespace Libeam.Proofs.StopCompletes

open Libeam.System (ActorId)
open Monitoring Supervision Lib Lib.Transition Planting SystemSteps SystemSound Settling Departures
open StoppedTrees SubtreeStops

variable {N V : Type} [DecidableEq N] {callbacks : Callbacks N} {stringify : List V → String}
  {fails : ActorId → Bool} {s t : ActorSystem N V} {x : ActorId}

open Forest (PostOrder)

/-! ## Stops -/

/-- The actors of the tree are gone, and their watchers that were there have been told. -/
structure Completed (s : ActorSystem N V) (x : ActorId) (t : ActorSystem N V) : Prop where
  calls : t.calls = []
  gone : ∀ y, Descends s.toTables x y →
    y ∉ t.actors ∧ t.mailboxes y = none ∧ t.actorMetadata y = none
  informed : ∃ order, Tree s x order ∧ ∀ before y after, order = before ++ y :: after →
    ∀ w e, s.watches w = some e → e.watchRef.watchedId = y → e.watchRef.watcherId ≠ y →
      e.watchRef.watcherId ∈ s.actors → e.watchRef.watcherId ∉ before →
        .informed e.watchRef.watcherId (.down e.watchRef (s.self y) .normal) ∈ t.events

/-- The root of a tree stays when something throws. -/
theorem completes_iff (hquiet : ∀ id message, callbacks.cancels id message = [])
    (hplanted : Planted s) (hx : x ∈ s.actors) {below : List (ActorRef N)}
    (horder : PostOrder (kids s.toTables) (s.context x).children below) :
    Inevitable (Settles callbacks stringify fails) (Completed s x)
        (s.invoke [.tree (.stop (s.self x))]) ↔
      Calms callbacks fails s [] (below ++ [s.self x]) := by
  have htree := hplanted.tree hx horder
  have hlead : Inevitable (Settles callbacks stringify fails) _ _ :=
    stop_lead hplanted.sound hquiet hplanted.family hplanted.here hplanted.idle hx horder
  constructor
  · intro hcompletes
    by_contra hthrows
    obtain ⟨t, hend, hcompleted⟩ := hlead.meet hcompletes
      (fun u v hu => not_settles (hu.elim (fun hu => hu.2.calls) fun hu => hu.2.1))
      fun u v hu => not_settles hu.calls
    rcases hend with ⟨hcalms, -⟩ | ⟨-, -, hleft⟩
    · exact hthrows hcalms
    · exact (hcompleted.gone x .refl).1 hleft
  · intro hcalms
    refine hlead.mono ?_
    rintro t (⟨-, hstopped⟩ | ⟨hthrows, -⟩)
    · generalize (below ++ [s.self x]).map (·.id) = order at htree hstopped
      refine ⟨hstopped.calls, fun y hy => ?_, order, htree, hstopped.relations.informed⟩
      have hmem := (htree.mem y).2 hy
      rw [hstopped.tables.actors, hstopped.mailboxes, hstopped.tables.actorMetadata, if_pos hmem]
      exact ⟨fun hlive => hlive.2 hmem, rfl, if_pos hmem⟩
    · exact absurd hcalms hthrows

/-! ## Restarts -/

/-- The instance is gone, and another one has taken its place. -/
structure Replaced (s : ActorSystem N V) (x : ActorId) (t : ActorSystem N V) : Prop where
  calls : t.calls = []
  gone : x ∉ t.actors ∧ t.mailboxes x = none ∧ t.actorMetadata x = none
  replacement : s.nextId ∈ t.actors ∧ t.actorMetadata s.nextId = s.actorMetadata x

omit [DecidableEq N] in
omit [DecidableEq N] in
/-- The new instance has the metadata of the old one. -/
theorem startAgain_replaces {t' : Tables N V} {m : ActorMetadata N V}
    (hparent : ∀ p, m.parent = some p → p.id ∈ t'.actors) (y : ActorId) :
    (t'.startAgain .success x m).actors = insert t'.nextId t'.actors ∧
      (t'.startAgain .success x m).actorMetadata y =
        if y = t'.nextId then some m else t'.actorMetadata y := by
  unfold Tables.startAgain
  rw [if_pos rfl]
  obtain ⟨actorClass, options, parent⟩ := m
  cases parent with
  | none =>
      refine ⟨rfl, ?_⟩
      exact Function.update_apply _ _ _ _
  | some p =>
      dsimp only
      unfold Tables.spawnChild
      rw [if_pos (hparent p rfl)]
      refine ⟨rfl, ?_⟩
      exact Function.update_apply _ _ _ _

/-- The instance is gone, and `restart` starts the new one. -/
theorem respawns (hplanted : Planted s) (hx : x ∈ s.actors) {m : ActorMetadata N V}
    (hm : s.actorMetadata x = some m) :
    Inevitable (Settles callbacks stringify fails) (Replaced s x)
      (({ (s.leaveSingle (s.self x)).system with
        terminated := s.terminated ++ [x] }.remove x).invoke [.tree (.respawn x m)]) := by
  have hdetach := detach_eq s.toTables (s.self x)
  have hactors : ((s.toTables.detach (s.self x)).remove x).actors = s.actors.erase x := by
    rw [hdetach]
    rfl
  have hnext : ((s.toTables.detach (s.self x)).remove x).nextId = s.nextId := by
    rw [hdetach]
    rfl
  have hmetadata : ((s.toTables.detach (s.self x)).remove x).actorMetadata x = none :=
    Function.update_self _ _ _
  have hlt := hplanted.family.lt hx
  have hparent : ∀ p, m.parent = some p →
      p.id ∈ ((s.toTables.detach (s.self x)).remove x).actors := by
    intro p hp
    have hparentOf : s.toTables.parentOf x = some p := by
      unfold Tables.parentOf
      rw [hm]
      exact hp
    have hless := (hplanted.family.lt_of_mem_childIds
      ((hplanted.family.mem_childIds_iff hx).2 ⟨p, hparentOf, rfl⟩)).1
    rw [hactors]
    exact Finset.mem_erase.2 ⟨Nat.ne_of_lt hless, hplanted.family.parents x hx p hparentOf⟩
  have hagain := startAgain_replaces (x := x) hparent
  generalize hu : ({ (s.leaveSingle (s.self x)).system with
    terminated := s.terminated ++ [x] }.remove x : ActorSystem N V) = u
  have htables : u.toTables = (s.toTables.detach (s.self x)).remove x := hu ▸ rfl
  have hidle : u.calls = [] := hu ▸ hplanted.idle
  have hclosed : u.closed = false := hu ▸ hplanted.opened
  have hmailboxes : u.mailboxes x = none := hu ▸ Function.update_self _ _ _
  rw [← htables] at hactors hnext hmetadata hagain
  have hturn : Turn callbacks stringify fails u (.tree (.respawn x m))
      ((u.adopt (u.toTables.startAgain .success x m)).proceed []) :=
    ⟨rfl, fun _ => if_neg (by rw [hclosed]; exact nofun)⟩
  refine goes hidle hturn rfl (.now ?_)
  change Replaced s x ((u.adopt (u.toTables.startAgain .success x m)).invoke [])
  rw [invoke_nil]
  have hnew : u.nextId ∈ (u.toTables.startAgain .success x m).actors := by
    rw [(hagain x).1]
    exact Finset.mem_insert_self _ _
  have hne : x ≠ u.nextId := by
    rw [hnext]
    exact Nat.ne_of_lt hlt
  unfold ActorSystem.adopt
  rw [if_pos hnew]
  refine ⟨hidle, ⟨?_, ?_, ?_⟩, ?_, ?_⟩
  · change x ∉ (u.toTables.startAgain .success x m).actors
    rw [(hagain x).1, hactors]
    simp [hne]
  · exact (Function.update_of_ne hne _ _).trans hmailboxes
  · exact (hagain x).2.trans ((if_neg hne).trans hmetadata)
  · exact hnext ▸ hnew
  · exact ((hagain s.nextId).2.trans (if_pos hnext.symm)).trans hm.symm

/-- The new instance is there when `terminate()` of the old one does not throw. -/
theorem replaces_iff (hplanted : Planted s) (hx : x ∈ s.actors) :
    Inevitable (Settles callbacks stringify fails) (Replaced s x)
        (s.invoke (s.restart (s.self x))) ↔ fails x = false := by
  have hfamily := hplanted.family
  obtain ⟨⟨-, -, -⟩, hid⟩ := own_self hfamily hx
  obtain ⟨m, hm⟩ := hfamily.sound.live_spawned x hx
  have hmetadata : s.actorMetadata x = some m :=
    (hfamily.sound.metadata x).trans ((if_pos hx).trans hm)
  have hrestart : s.restart (s.self x) =
      [.tree (.stopSingle (s.self x)), .tree (.respawn x m)] := by
    unfold ActorSystem.restart
    rw [hid, hmetadata]
  have hlt := hfamily.lt hx
  have hturn : Turn callbacks stringify fails s (.tree (.stopSingle (s.self x)))
      (s.leaveSingle (s.self x)) := ⟨rfl, fun _ => if_pos (hid.symm ▸ hx)⟩
  have hsound : SoundSystem (s.invoke (s.restart (s.self x))) :=
    hplanted.sound.invoke (fresh_restart s (s.self x))
  have hlead : Inevitable (Settles callbacks stringify fails)
      (fun t => (fails x = false ∧ Replaced s x t) ∨
        fails x = true ∧ t.calls = [] ∧ x ∈ t.actors)
      (s.invoke (s.restart (s.self x))) := by
    rw [hrestart] at hsound ⊢
    refine goes_sound hplanted.idle hsound hturn rfl fun hsound => ?_
    refine (terminating_lead (s := (s.leaveSingle (s.self x)).system) hplanted.idle hsound).bind ?_
    rw [hid]
    rintro t (⟨hterminates, -, rfl⟩ | ⟨hfails, hdone, hactors⟩)
    · refine .mono ?_ fun t ht => .inl ⟨hterminates, ht⟩
      exact respawns hplanted hx hmetadata
    · refine .now (.inr ⟨hfails, hdone, ?_⟩)
      rw [hactors]
      exact (TreeSteps.detach_actors s.toTables (s.self x)).symm ▸ hx
  constructor
  · intro hreplaces
    obtain ⟨t, hend, hreplaced⟩ := hlead.meet hreplaces
      (fun u v hu => not_settles (hu.elim (fun hu => hu.2.calls) fun hu => hu.2.1))
      fun u v hu => not_settles hu.calls
    rcases hend with ⟨hterminates, -⟩ | ⟨-, -, hleft⟩
    · exact hterminates
    · exact absurd hleft hreplaced.gone.1
  · intro hterminates
    refine hlead.mono ?_
    rintro t (⟨-, hreplaced⟩ | ⟨hfails, -⟩)
    · exact hreplaced
    · exact absurd (hterminates.symm.trans hfails) nofun

/-! ## Both -/

/-- A stop is completed just when nothing throws that is called on its way, and a restart
just when `terminate()` does not. -/
theorem stops_complete (hquiet : ∀ id message, callbacks.cancels id message = [])
    (h : Grown callbacks stringify s) (hx : x ∈ s.actors) :
    ∃ below s' s'', PostOrder (kids s.toTables) (s.context x).children below ∧
      s.step callbacks stringify (.stop (s.self x)) = some s' ∧
      s.step callbacks stringify (.restart (s.self x)) = some s'' ∧
      (Inevitable (Settles callbacks stringify fails) (Completed s x) s' ↔
        Calms callbacks fails s [] (below ++ [s.self x])) ∧
      (Inevitable (Settles callbacks stringify fails) (Replaced s x) s'' ↔
        fails x = false) := by
  have hplanted := h.planted hquiet
  obtain ⟨below, horder⟩ := hplanted.family.order_exists (s.context x).children
  have hlt : (s.self x).id < s.nextId := by
    rw [(own_self hplanted.family hx).2]
    exact hplanted.family.lt hx
  exact ⟨below, _, _, horder, if_pos hlt, if_pos hlt, completes_iff hquiet hplanted hx horder,
    replaces_iff hplanted hx⟩

/-- Callbacks that do nothing. -/
def silent : Callbacks Nat := ⟨fun _ _ => [], fun _ _ => false⟩

/-- An actor and its child. -/
def parentAndChild : List (SystemAction Nat Nat) :=
  [.spawn "Parent" {}, .spawnChild ⟨0, 0, none, 0⟩ "Child" {}]

theorem grown_parentAndChild :
    ∃ s, run (ActorSystem.step silent fun _ : List Nat => "")
        (.init 0 (fun _ => ⟨.oneForOne, 3, 1000⟩) (.new .Stop 3 1000)) parentAndChild = some s ∧
      Grown silent (fun _ : List Nat => "") s ∧ 0 ∈ s.actors ∧
        (s.context 0).children = [⟨0, 1, none, 0⟩] ∧ kids s.toTables ⟨0, 1, none, 0⟩ = [] ∧
          s.calls = [] := by
  have hinit : Grown silent (fun _ : List Nat => "")
      (.init 0 (fun _ => ⟨.oneForOne, 3, 1000⟩) (.new .Stop 3 1000) : ActorSystem Nat Nat) :=
    .init 0 _ _
  have hroot := hinit.plants (a := .spawn "Parent" {}) trivial rfl
  have hgrown := hroot.plants (a := .spawnChild ⟨0, 0, none, 0⟩ "Child" {}) trivial rfl
  exact ⟨_, rfl, hgrown, by decide, rfl, rfl, rfl⟩

theorem stops_complete_child :
    ∃ s below s' s'', PostOrder (kids s.toTables) (s.context 0).children below ∧
      s.step silent (fun _ : List Nat => "") (.stop (s.self 0)) = some s' ∧
      s.step silent (fun _ : List Nat => "") (.restart (s.self 0)) = some s'' ∧
      (Inevitable (Settles silent (fun _ : List Nat => "") (· == 1)) (Completed s 0) s' ↔
        Calms silent (· == 1) s [] (below ++ [s.self 0])) ∧
      (Inevitable (Settles silent (fun _ : List Nat => "") (· == 1)) (Replaced s 0) s'' ↔
        (0 == 1) = false) := by
  obtain ⟨s, -, hgrown, hx, -⟩ := grown_parentAndChild
  exact ⟨s, stops_complete (fun _ _ => rfl) hgrown hx⟩

/-- The child's `terminate()` throws, and both the child and its parent stay. -/
theorem child_throws :
    ∃ s s', run (ActorSystem.step silent fun _ : List Nat => "")
        (.init 0 (fun _ => ⟨.oneForOne, 3, 1000⟩) (.new .Stop 3 1000)) parentAndChild = some s ∧
      s.step silent (fun _ : List Nat => "") (.stop (s.self 0)) = some s' ∧
      ¬ Inevitable (Settles silent (fun _ : List Nat => "") (· == 1)) (Completed s 0) s' := by
  obtain ⟨s, hrun, hgrown, hx, hchildren, hkids, -⟩ := grown_parentAndChild
  have hplanted := hgrown.planted fun _ _ => rfl
  have horder : PostOrder (kids s.toTables) (s.context 0).children [⟨0, 1, none, 0⟩] := by
    have hnone : PostOrder (kids s.toTables) (kids s.toTables ⟨0, 1, none, 0⟩) [] := by
      rw [hkids]
      exact .nil
    rw [hchildren]
    exact .cons hnone .nil
  have hlt : (s.self 0).id < s.nextId := by
    rw [(own_self hplanted.family hx).2]
    exact hplanted.family.lt hx
  refine ⟨s, _, hrun, if_pos hlt, fun hcompletes => ?_⟩
  have hcalms := (completes_iff (fun _ _ => rfl) hplanted hx horder).1 hcompletes
  exact absurd hcalms.1.terminates (by decide)

end Libeam.Proofs.StopCompletes
