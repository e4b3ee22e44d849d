import Libeam.Proofs.LinkPropagation
import Libeam.Proofs.Partings
import Libeam.Proofs.Planting
/-!
# An actor without children is stopped

From the moment when `stop` has no child left to wait for, the actor leaves the lists of
its parent, its watchers and the actors linked to it are told, its `terminate()` is called
and it is removed.  Any of those calls may throw; then the actor stays in the tables.
-/

namespace Libeam.Proofs.Departures

open Libeam.System (ActorId)
open Monitoring Supervision Lib WatchTables LinkTables SystemSound StopRounds Partings Settling

variable {N V : Type} [DecidableEq N] {callbacks : Callbacks N} {stringify : List V → String}
  {fails : ActorId → Bool} {s t : ActorSystem N V} {c : ActorRef N} {task : Task N V}
  {outer : List (Task N V)}

/-! ## The tables agree at every step -/

theorem settles_sound (h : SoundSystem s) (hst : Settles callbacks stringify fails s t) :
    SoundSystem t := by
  obtain ⟨index, task, outer, -, hgoes⟩ := hst
  split_ifs at hgoes
  · exact h.rejects hgoes
  · obtain ⟨now, hgoes⟩ := hgoes
    exact h.resumes hgoes

theorem goes_sound {P : ActorSystem N V → Prop} (hidle : s.calls = [])
    (hs : SoundSystem (s.invoke (task :: outer))) {p : Progress N V}
    (hturn : Turn callbacks stringify fails s task p) (hcalls : p.calls = [])
    (h : SoundSystem (p.system.invoke (if p.threw then [] else p.tasks ++ outer)) →
      Inevitable (Settles callbacks stringify fails) P
        (p.system.invoke (if p.threw then [] else p.tasks ++ outer))) :
    Inevitable (Settles callbacks stringify fails) P (s.invoke (task :: outer)) :=
  goes hidle hturn hcalls
    (h (settles_sound hs ((hturn.settles_iff hidle hcalls).2 rfl)))

omit [DecidableEq N] in
theorem sound_of_invoke (hidle : s.calls = []) {tasks : List (Task N V)}
    (h : SoundSystem (s.invoke tasks)) : SoundSystem s :=
  ⟨h.bonds, fun _ hcall => absurd (hidle ▸ hcall) List.not_mem_nil⟩

omit [DecidableEq N] in
theorem soundTask_of_invoke (hidle : s.calls = []) (h : SoundSystem (s.invoke (task :: outer))) :
    SoundTask s.toRelations task :=
  h.tasks (task :: outer) (by simp [ActorSystem.invoke, hidle]) task (by simp)

/-! ## The linked actors -/

/-- All linked actors are told, or one of them throws. -/
theorem links_lead (hquiet : ∀ id message, callbacks.cancels id message = [])
    (hidle : s.calls = []) {rest : List RefId}
    (hs : SoundSystem (s.invoke (.linked c .normal rest :: outer))) :
    Inevitable (Settles callbacks stringify fails)
      (fun t =>
        ((∀ l ∈ rest, ¬ Jolts s.actors callbacks s.toRelations c .normal l) ∧ SoundSystem t ∧
          ∃ r', LinksCut rest s.toRelations r' ∧ t = { s with toRelations := r' }.invoke outer) ∨
        (∃ l ∈ rest, Jolts s.actors callbacks s.toRelations c .normal l) ∧ t.calls = [] ∧
          t.actors = s.actors)
      (s.invoke (.linked c .normal rest :: outer)) := by
  induction rest generalizing s with
  | nil =>
      have hturn : Turn callbacks stringify fails s (.linked c .normal []) (s.proceed []) :=
        ⟨rfl, fun _ => rfl⟩
      refine goes_sound hidle hs hturn rfl fun hs' => .now (.inl ⟨nofun, hs', s.toRelations, ?_⟩)
      exact ⟨.nil _, rfl⟩
  | cons l rest ih =>
      have hturn : Turn callbacks stringify fails s (.linked c .normal (l :: rest))
          (s.tellNext callbacks c .normal (l :: rest)) := ⟨rfl, fun _ => rfl⟩
      have hagree : BondsAgree.Agree s.actors s.toRelations :=
        (sound_of_invoke hidle hs).bonds.agree
      obtain ⟨hcut, hthrew, hcrash⟩ := linksCut_tellLinked hquiet hagree c .normal
        (soundTask_of_invoke hidle hs l (by simp))
      have htold : s.tellNext callbacks c .normal (l :: rest) =
          if (s.toRelations.tellLinked s.actors callbacks c .normal l).threw then
            { s with
              toRelations := (s.toRelations.tellLinked s.actors callbacks c .normal
                l).relations }.throws
          else
            { s with
              toRelations := (s.toRelations.tellLinked s.actors callbacks c .normal
                l).relations }.proceed [.linked c .normal rest] := by
        unfold ActorSystem.tellNext ActorSystem.proceed
        dsimp only
        rw [hcrash rfl]
        rfl
      generalize (s.toRelations.tellLinked s.actors callbacks c .normal l).relations = r
        at hcut htold
      have hcalls : (s.tellNext callbacks c .normal (l :: rest)).calls = [] := by
        rw [htold]
        split_ifs <;> rfl
      refine goes_sound hidle hs hturn hcalls ?_
      by_cases hjolts : (s.toRelations.tellLinked s.actors callbacks c .normal l).threw = true
      · rw [htold, if_pos hjolts]
        intro _
        exact .now (.inr ⟨⟨l, by simp, hthrew.1 hjolts⟩, hidle, rfl⟩)
      · rw [htold, if_neg hjolts]
        intro hs'
        have hcalm : ¬ Jolts s.actors callbacks s.toRelations c .normal l := fun h =>
          hjolts (hthrew.2 h)
        -- the other links are as they were before
        have hothers : ∀ m ∈ rest, Jolts s.actors callbacks r c .normal m ↔
            Jolts s.actors callbacks s.toRelations c .normal m := by
          intro m _
          unfold Jolts Traps
          by_cases hm : m = l
          · refine iff_of_false ?_ (hm ▸ hcalm)
            rintro ⟨e, he, -⟩
            exact absurd (he.symm.trans (hcut.cut m (List.mem_singleton.2 hm))) nofun
          · rw [(hcut.same m fun h => hm (List.mem_singleton.1 h)).links, hcut.trapExit]
        refine (ih (s := { s with toRelations := r }) hidle hs').mono ?_
        rintro t (⟨hrest, hsound, r', hcut', rfl⟩ | ⟨⟨m, hm, hjolts'⟩, hdone, hactors⟩)
        · refine .inl ⟨fun m hm => ?_, hsound, r', hcut.cons hcut', rfl⟩
          rcases List.mem_cons.1 hm with rfl | hm
          · exact hcalm
          · exact fun h => hrest m hm ((hothers m hm).2 h)
        · exact .inr ⟨⟨m, by simp [hm], (hothers m hm).1 hjolts'⟩, hdone, hactors⟩

/-! ## One actor -/

/-- Nothing throws when the actor is stopped after some others. -/
structure Calm (callbacks : Callbacks N) (fails : ActorId → Bool) (s : ActorSystem N V)
    (gone : List ActorId) (c : ActorRef N) : Prop where
  terminates : fails c.id = false
  watchers : ∀ w e, s.watches w = some e → e.watchRef.watchedId = c.id →
    e.watchRef.watcherId ≠ c.id → e.watchRef.watcherId ∈ s.actors →
    e.watchRef.watcherId ∉ gone →
      callbacks.throws e.watchRef.watcherId (.down e.watchRef c .normal) = false
  partners : ∀ l e, s.links l = some e → Ends e.linkRef c.id →
    Traps s.actors s.toRelations (Relations.otherEnd e c.id).id →
    (Relations.otherEnd e c.id).id ∉ gone →
      callbacks.throws (Relations.otherEnd e c.id).id (.exit (some e.linkRef) c .normal) = false

/-- The state after an actor has been removed at the end of `stop`. -/
def departed (s : ActorSystem N V) (c : ActorRef N) (r : Relations N) : ActorSystem N V :=
  { s with
    toTables := (s.toTables.detach c).remove c.id
    toRelations := r
    mailboxes := Function.update s.mailboxes c.id none
    terminated := s.terminated ++ [c.id] }

/-- `terminate()` is called, and the actor is removed if it does not throw. -/
theorem terminating_lead (hidle : s.calls = [])
    (hs : SoundSystem (s.invoke (.finish c :: outer))) :
    Inevitable (Settles callbacks stringify fails)
      (fun t =>
        (fails c.id = false ∧ SoundSystem t ∧
          t = ({ s with terminated := s.terminated ++ [c.id] }.remove c.id).invoke outer) ∨
        fails c.id = true ∧ t.calls = [] ∧ t.actors = s.actors)
      (s.invoke (.finish c :: outer)) := by
  have hterminated : SoundSystem ({ s with
        terminated := s.terminated ++ [c.id] }.invoke (.tree (.terminating c) :: outer)) →
      Inevitable (Settles callbacks stringify fails)
        (fun t =>
          (fails c.id = false ∧ SoundSystem t ∧
            t = ({ s with terminated := s.terminated ++ [c.id] }.remove c.id).invoke outer) ∨
          fails c.id = true ∧ t.calls = [] ∧ t.actors = s.actors)
        ({ s with terminated := s.terminated ++ [c.id] }.invoke
          (.tree (.terminating c) :: outer)) := by
    intro hs'
    cases hfails : fails c.id with
    | true =>
        have hfailing : failing fails (.tree (.terminating c) : Task N V) = true := hfails
        refine fails_goes (s := { s with terminated := s.terminated ++ [c.id] }) hidle hfailing
          (.now ?_)
        exact .inr ⟨rfl, hidle, rfl⟩
    | false =>
        have hturn : Turn callbacks stringify fails { s with
            terminated := s.terminated ++ [c.id] } (.tree (.terminating c))
            (({ s with terminated := s.terminated ++ [c.id] }.remove c.id).proceed []) :=
          ⟨hfails, fun _ => rfl⟩
        exact goes_sound hidle hs' hturn rfl fun hsound => .now (.inl ⟨rfl, hsound, rfl⟩)
  have hturn : Turn callbacks stringify fails s (.finish c) (s.finish c) := ⟨rfl, fun _ => rfl⟩
  by_cases hname : c.name.any (· ≠ "") = true
  · have hfinish : s.finish c = s.proceed [.tree (.unregistering c)] := if_pos hname
    refine goes_sound hidle hs hturn (by rw [hfinish]; rfl) ?_
    rw [hfinish]
    intro hs'
    have hturn' : Turn callbacks stringify fails s (.tree (.unregistering c)) (s.terminate c) :=
      ⟨rfl, fun _ => rfl⟩
    exact goes_sound hidle hs' hturn' rfl hterminated
  · have hfinish : s.finish c = s.terminate c := if_neg hname
    refine goes_sound hidle hs hturn (by rw [hfinish]; rfl) ?_
    rw [hfinish]
    exact hterminated

/-- The watchers are told before the links, and one of them may throw. -/
theorem leave_cases (hquiet : ∀ id message, callbacks.cancels id message = [])
    (hs : SoundSystem s) (hc : c.id ∈ s.actors) :
    ∃ told threw,
      s.leave callbacks c =
        (if threw = true then
          { s with toTables := s.toTables.detach c, toRelations := told }.throws
        else
          { s with toTables := s.toTables.detach c, toRelations := told }.proceed
            [.linked c .normal (told.linkedWith.get c.id), .finish c]) ∧
      LinksKept s.toRelations told ∧
      (threw = true ↔ ∃ w e, s.watches w = some e ∧ e.watchRef.watchedId = c.id ∧
        e.watchRef.watcherId ≠ c.id ∧ e.watchRef.watcherId ∈ s.actors ∧
          callbacks.throws e.watchRef.watcherId (.down e.watchRef c .normal) = true) ∧
      (threw = false → ∀ r, LinksCut (told.linkedWith.get c.id) told r →
        Parted s.actors c .normal s.toRelations r) := by
  have hagree : BondsAgree.Agree s.actors s.toRelations := hs.bonds.agree
  have hp := prunes_unwatchAll hagree.watches c.id
  have hp' : Prunes s.actors (s.toRelations.unwatchAll s.actors c.id)
      ((s.toRelations.unwatchAll s.actors c.id).notifyWatchers s.actors callbacks c .normal).1 :=
    prunes_notifyWatchers hp.agree c .normal
  refine ⟨_, _, ?_, hp.links.trans hp'.links, ?_, fun hdone r hcut =>
    parted_leave hquiet hagree hc hdone rfl hcut⟩
  · unfold ActorSystem.leave ActorSystem.announce
    dsimp only
    rw [TreeSteps.detach_actors]
  · rw [notifyWatchers_threw hquiet hp.agree c .normal]
    constructor
    · rintro ⟨w, e, he, hwatched, hlive, hthrows⟩
      obtain ⟨he, hwatcher⟩ := (watches_unwatchAll hagree.watches hc).1 he
      exact ⟨w, e, he, hwatched, hwatcher, hlive, hthrows⟩
    · rintro ⟨w, e, he, hwatched, hwatcher, hlive, hthrows⟩
      exact ⟨w, e, (watches_unwatchAll hagree.watches hc).2 ⟨he, hwatcher⟩, hwatched, hlive,
        hthrows⟩

/-- When no child is left, the actor is removed just when nothing throws. -/
theorem departure_lead (hquiet : ∀ id message, callbacks.cancels id message = [])
    (hidle : s.calls = []) (hs : SoundSystem (s.invoke (task :: outer))) (hc : c.id ∈ s.actors)
    (hturn : Turn callbacks stringify fails s task (s.leave callbacks c)) :
    Inevitable (Settles callbacks stringify fails)
      (fun t =>
        (Calm callbacks fails s [] c ∧ SoundSystem t ∧
          ∃ r, Parted s.actors c .normal s.toRelations r ∧ t = (departed s c r).invoke outer) ∨
        ¬ Calm callbacks fails s [] c ∧ t.calls = [] ∧ t.actors = s.actors)
      (s.invoke (task :: outer)) := by
  have hagree : BondsAgree.Agree s.actors s.toRelations := (sound_of_invoke hidle hs).bonds.agree
  have hactors : (s.toTables.detach c).actors = s.actors := TreeSteps.detach_actors s.toTables c
  obtain ⟨told, threw, hleave, hkept, hthrew, hparted⟩ :=
    leave_cases hquiet (sound_of_invoke hidle hs) hc
  have hcalls : (s.leave callbacks c).calls = [] := by
    rw [hleave]
    split_ifs <;> rfl
  refine goes_sound hidle hs hturn hcalls ?_
  rw [hleave]
  cases threw with
  | true =>
      intro _
      refine .now (.inr ⟨fun hcalm => ?_, hidle, hactors⟩)
      obtain ⟨w, e, he, hwatched, hwatcher, hlive, hthrows⟩ := hthrew.1 rfl
      exact absurd ((hcalm.watchers w e he hwatched hwatcher hlive List.not_mem_nil).symm.trans
        hthrows) nofun
  | false =>
      intro hs'
      refine (links_lead (s := { s with toTables := s.toTables.detach c, toRelations := told })
        hquiet hidle hs').bind ?_
      have hjolts : ∀ l, Jolts (s.toTables.detach c).actors callbacks told c .normal l ↔
          Jolts s.actors callbacks s.toRelations c .normal l := by
        intro l
        unfold Jolts Traps
        rw [hactors, hkept.links, hkept.trapExit]
      rintro t (⟨hrest, hsound, r, hcut, rfl⟩ | ⟨⟨l, hl, hl'⟩, hdone, hsame⟩)
      · refine (terminating_lead (s := { s with toTables := s.toTables.detach c, toRelations := r })
          hidle hsound).mono ?_
        rintro t (⟨hterminates, hsound', rfl⟩ | ⟨hfails, hdone, hsame⟩)
        · refine .inl ⟨⟨hterminates, fun w e he hwatched hwatcher hlive _ => ?_,
            fun l e he hends htraps _ => ?_⟩, hsound', r, hparted rfl r hcut, rfl⟩
          · by_contra hthrows
            exact absurd (hthrew.2 ⟨w, e, he, hwatched, hwatcher, hlive, by simpa using hthrows⟩)
              nofun
          · by_contra hthrows
            refine hrest l ?_ ((hjolts l).2 ⟨e, he, htraps, by simpa using hthrows⟩)
            rw [hkept.linkedWith]
            exact (hagree.links.index l c.id).2 (.inl ⟨e, he, hends⟩)
        · refine .inr ⟨fun hcalm => ?_, hdone, hsame.trans hactors⟩
          exact absurd (hcalm.terminates.symm.trans hfails) nofun
      · refine .now (.inr ⟨fun hcalm => ?_, hdone, hsame.trans hactors⟩)
        obtain ⟨e, he, htraps, hthrows⟩ := (hjolts l).1 hl'
        have hends : Ends e.linkRef c.id := by
          rw [hkept.linkedWith] at hl
          rcases (hagree.links.index l c.id).1 hl with ⟨e', he', hends⟩ | ⟨e', he', rfl, -⟩
          · exact Option.some.inj (he'.symm.trans he) ▸ hends
          · exact absurd (he.symm.trans (hagree.links.links_remote he')) nofun
        exact absurd ((hcalm.partners l e he hends htraps List.not_mem_nil).symm.trans hthrows)
          nofun

end Libeam.Proofs.Departures
