import Libeam.Monitoring.LinkedSystem
import Libeam.Proofs.LinkSteps
import Libeam.Proofs.LinkPropagation
import Libeam.Proofs.WatchOnce
/-!
# Links of actors that end

A link that has left the table was removed on purpose, or one of its actors has begun
to end.  If that actor has crashed and the other one is live, the other has been told.
The calls in progress say who is still to be told; as long as no step cuts a link
without telling a live actor that must be told, all this stays so.
-/

namespace Libeam.Proofs.LinkStages

open Libeam.System (ActorId)
open Monitoring Supervision LinkTables SystemSteps SystemSound ExitMessages LinkSteps
open LinkPropagation (Joins)
open WatchOnce (leaving leaving_fresh)

variable {N V : Type}
  {h h' : LinkedSystem N V} {l : RefId} {ref : LinkRef} {x y : ActorId}

/-- Who has been sent an exit message because of the link, or has crashed because of it. -/
def told (h : LinkedSystem N V) (l : RefId) : List ActorId :=
  exitsFor l h.events ++ h.crashes.filterMap fun crash =>
    if crash.1 = l then some crash.2 else none

/-- The actor is there and has not begun to end. -/
def Live (h : LinkedSystem N V) (y : ActorId) : Prop := y ∈ h.actors ∧ h.ended y = none

/-- The actor is linked to no live one. -/
def Alone (h : LinkedSystem N V) (x : ActorId) : Prop :=
  ∀ l e y, h.links l = some e → Joins e.linkRef x y → ¬ Live h y

/-- Why a link has gone: on purpose, or an actor of it has begun to end, and if that one has
crashed, the other, as long as it is live, has been told. -/
def Due (h : LinkedSystem N V) (l : RefId) (ref : LinkRef) : Prop :=
  l ∈ h.removed ∨ ∃ x, Ends ref x ∧ h.ended x ≠ none ∧
    (h.ended x = some true → ∀ y, Joins ref x y → Live h y → told h l = [y])

/-! ## The stages of a removal -/

/-- The actor has begun to end, and if it has crashed, nobody is left to tell. -/
def Bare (h : LinkedSystem N V) (x : ActorId) : Prop :=
  h.ended x ≠ none ∧ (h.ended x = some true → Alone h x)

/-- The links of the actor that have still to be told are among these. -/
def Telling (h : LinkedSystem N V) (x : ActorId) (rest : List RefId) : Prop :=
  h.ended x ≠ none ∧
    (h.ended x = some true → ∀ l e y, h.links l = some e → Joins e.linkRef x y → Live h y →
      l ∈ rest)

/-- The task is before the notifications of a removal, or has nothing to do with one. -/
def Plain (task : Task N V) : Prop :=
  leaving task = none ∧ ∀ r reason rest, task ≠ .linked r reason rest

/-- How far a call has come. -/
inductive Staged (h : LinkedSystem N V) : List (Task N V) → Prop
  | plain {tasks : List (Task N V)} (hplain : ∀ task ∈ tasks, Plain task) : Staged h tasks
  | telling {r : ActorRef N} {reason : TerminationReason} {rest : List RefId}
      {next outer : List (Task N V)} (htelling : Telling h r.id rest)
      (hnext : next = [] ∨ next = [.finish r]) (houter : ∀ task ∈ outer, Plain task) :
      Staged h (.linked r reason rest :: (next ++ outer))
  | leaving {task : Task N V} {x : ActorId} {outer : List (Task N V)}
      (htask : leaving task = some x) (hbare : Bare h x) (houter : ∀ task ∈ outer, Plain task) :
      Staged h (task :: outer)

theorem plain_fresh {task : Task N V} (hfresh : Fresh task) : Plain task :=
  ⟨leaving_fresh hfresh, hfresh.2⟩

namespace Staged

variable {task : Task N V} {outer : List (Task N V)}

theorem outer_plain (hstaged : Staged h (task :: outer))
    (hother : ∀ r reason rest, task ≠ .linked r reason rest) : ∀ task ∈ outer, Plain task := by
  cases hstaged with
  | plain hplain => exact fun task' htask' => hplain task' (List.mem_cons_of_mem _ htask')
  | telling _ _ _ => exact absurd rfl (hother _ _ _)
  | leaving _ _ houter => exact houter

theorem bare (hstaged : Staged h (task :: outer)) (htask : WatchOnce.leaving task = some x) :
    Bare h x := by
  cases hstaged with
  | plain hplain =>
      rw [(hplain task List.mem_cons_self).1] at htask
      cases htask
  | telling _ _ _ => cases htask
  | leaving hleaving hbare _ => exact Option.some.inj (hleaving.symm.trans htask) ▸ hbare

theorem linked {r : ActorRef N} {reason : TerminationReason} {rest : List RefId}
    (hstaged : Staged h (.linked r reason rest :: outer)) :
    Telling h r.id rest ∧ ∃ next outer', outer = next ++ outer' ∧
      (next = [] ∨ next = [.finish r]) ∧ ∀ task ∈ outer', Plain task := by
  cases hstaged with
  | plain hplain => exact absurd rfl ((hplain _ List.mem_cons_self).2 _ _ _)
  | telling htelling hnext houter => exact ⟨htelling, _, _, rfl, hnext, houter⟩
  | leaving hleaving _ _ => cases hleaving

end Staged

/-! ## The invariant -/

structure Attends (h : LinkedSystem N V) : Prop where
  sound : SoundSystem h.toActorSystem
  calls : ∀ call ∈ h.calls, Staged h call
  /-- Nobody is left who waits for the end of an actor that has crashed and is gone. -/
  gone : ∀ x, x ∉ h.actors → h.ended x = some true → Alone h x
  untold : ∀ l, h.links l ≠ none ∨ h.nextRef ≤ l → told h l = []
  once : ∀ l ∈ h.localLinks, (told h l).length ≤ 1
  due : ∀ l ref, h.linkRefs l = some ref → l ∈ h.localLinks → h.links l = none → Due h l ref

/-- Nothing is linked anew, no actor comes back to life, and a link that goes has been told
if it had to be. -/
structure Wanes (h h' : LinkedSystem N V) : Prop where
  ended : ∀ x b, h.ended x = some b → h'.ended x = some b
  live : ∀ y < h.nextId, Live h' y → Live h y
  removed : ∀ l ∈ h.removed, l ∈ h'.removed
  linkRefs : h'.linkRefs = h.linkRefs
  localLinks : h'.localLinks = h.localLinks
  nextRef : h.nextRef ≤ h'.nextRef
  links : ∀ l e, h'.links l = some e → h.links l = some e
  silent : ∀ l, l ∈ h.localLinks ∨ h.nextRef ≤ l → h.links l = none ∨ h'.links l ≠ none →
    told h' l = told h l
  cut : ∀ l e, h.links l = some e → h'.links l = none →
    (told h' l).length ≤ 1 ∧ Due h' l e.linkRef

theorem Joins.right_unique {z : ActorId} (hy : Joins ref x y) (hz : Joins ref x z) : y = z := by
  rcases hy with ⟨hx, hy⟩ | ⟨hx, hy⟩ <;> rcases hz with ⟨hx', hz⟩ | ⟨hx', hz⟩
  · exact hy.symm.trans hz
  · rw [← hy, hx', ← hx, hz]
  · rw [← hy, hx', ← hx, hz]
  · exact hy.symm.trans hz

namespace Wanes

/-- The ends of a link have been spawned. -/
theorem lt_of_joins (hs : SoundSystem h.toActorSystem) {e : LinkEntry N}
    (he : h.links l = some e) (hjoins : Joins e.linkRef x y) : y < h.nextId := by
  obtain ⟨hmade, hlocal, -⟩ := hs.bonds.agree.links.entry l e he
  obtain ⟨hlt₁, hlt₂⟩ := hs.bonds.linked l e.linkRef hmade
  rcases hjoins with ⟨-, rfl⟩ | ⟨-, rfl⟩
  · exact hlt₂ hlocal
  · exact hlt₁

theorem crashed (w : Wanes h h') (hended : h.ended x ≠ none) (hcrashed : h'.ended x = some true) :
    h.ended x = some true := by
  obtain ⟨b, hb⟩ := Option.ne_none_iff_exists'.1 hended
  rw [w.ended x b hb] at hcrashed
  rw [hb, hcrashed]

theorem ended_ne (w : Wanes h h') (hended : h.ended x ≠ none) : h'.ended x ≠ none := by
  obtain ⟨b, hb⟩ := Option.ne_none_iff_exists'.1 hended
  rw [w.ended x b hb]
  exact nofun

theorem alone (w : Wanes h h') (hs : SoundSystem h.toActorSystem) (halone : Alone h x) :
    Alone h' x := by
  intro l e y he hjoins hlive
  have he₀ := w.links l e he
  exact halone l e y he₀ hjoins (w.live y (lt_of_joins hs he₀ hjoins) hlive)

theorem bare (w : Wanes h h') (hs : SoundSystem h.toActorSystem) (hbare : Bare h x) :
    Bare h' x :=
  ⟨w.ended_ne hbare.1, fun hcrashed => w.alone hs (hbare.2 (w.crashed hbare.1 hcrashed))⟩

theorem telling (w : Wanes h h') (hs : SoundSystem h.toActorSystem) {rest : List RefId}
    (htelling : Telling h x rest) : Telling h' x rest := by
  refine ⟨w.ended_ne htelling.1, fun hcrashed l e y he hjoins hlive => ?_⟩
  have he₀ := w.links l e he
  exact htelling.2 (w.crashed htelling.1 hcrashed) l e y he₀ hjoins
    (w.live y (lt_of_joins hs he₀ hjoins) hlive)

theorem staged (w : Wanes h h') (hs : SoundSystem h.toActorSystem) {call : List (Task N V)}
    (hstaged : Staged h call) : Staged h' call := by
  cases hstaged with
  | plain hplain => exact .plain hplain
  | telling htelling hnext houter => exact .telling (w.telling hs htelling) hnext houter
  | leaving htask hbare houter => exact .leaving htask (w.bare hs hbare) houter

theorem due (w : Wanes h h') (hs : SoundSystem h.toActorSystem) (hmade : h.linkRefs l = some ref)
    (hlocal : l ∈ h.localLinks) (hnone : h.links l = none) (hdue : Due h l ref) :
    Due h' l ref := by
  refine hdue.imp (w.removed l) ?_
  rintro ⟨x, hends, hended, htold⟩
  refine ⟨x, hends, w.ended_ne hended, fun hcrashed y hjoins hlive => ?_⟩
  obtain ⟨hlt₁, hlt₂⟩ := hs.bonds.linked l ref hmade
  have hlt : y < h.nextId := by
    rcases hjoins with ⟨-, rfl⟩ | ⟨-, rfl⟩
    · exact hlt₂ hlocal
    · exact hlt₁
  rw [w.silent l (.inl hlocal) (.inl hnone)]
  exact htold (w.crashed hended hcrashed) y hjoins (w.live y hlt hlive)

end Wanes

/-- What a step that makes no link keeps. -/
theorem Attends.wanes (ha : Attends h) (w : Wanes h h') (hs' : SoundSystem h'.toActorSystem)
    (hcalls : ∀ call ∈ h'.calls, Staged h' call)
    (hleft : ∀ x ∈ h.actors, x ∉ h'.actors → h'.ended x = some true → Alone h' x)
    (hcrashed : ∀ x, x ∉ h.actors → h'.ended x = some true → h.ended x = some true) :
    Attends h' where
  sound := hs'
  calls := hcalls
  gone := fun x hx hended => by
    by_cases hmem : x ∈ h.actors
    · exact hleft x hmem hx hended
    · exact w.alone ha.sound (ha.gone x hmem (hcrashed x hmem hended))
  untold := fun l hl => by
    have hlinks := ha.sound.bonds.agree.links
    rcases hl with hsome | hle
    · obtain ⟨e, he⟩ := Option.ne_none_iff_exists'.1 hsome
      have he₀ := w.links l e he
      rw [w.silent l (.inl (hlinks.entry l e he₀).2.1) (.inr hsome)]
      exact ha.untold l (.inl (he₀ ▸ nofun))
    · have hle₀ := w.nextRef.trans hle
      have hnone : h.links l = none := by
        by_contra hsome
        obtain ⟨e, he⟩ := Option.ne_none_iff_exists'.1 hsome
        exact absurd (hlinks.lt_of_links he) (Nat.not_lt.2 hle₀)
      rw [w.silent l (.inr hle₀) (.inl hnone)]
      exact ha.untold l (.inr hle₀)
  once := fun l hl => by
    rw [w.localLinks] at hl
    cases he : h.links l with
    | none => exact w.silent l (.inl hl) (.inl he) ▸ ha.once l hl
    | some e =>
        by_cases hsome : h'.links l = none
        · exact (w.cut l e he hsome).1
        · exact w.silent l (.inl hl) (.inr hsome) ▸ ha.once l hl
  due := fun l ref hmade hl hnone => by
    rw [w.localLinks] at hl
    rw [w.linkRefs] at hmade
    cases he : h.links l with
    | none => exact w.due ha.sound hmade hl he (ha.due l ref hmade hl he)
    | some e =>
        have hentry := (ha.sound.bonds.agree.links.entry l e he).1
        have heq : ref = e.linkRef := Option.some.inj (hmade.symm.trans hentry)
        exact heq ▸ (w.cut l e he hnone).2

/-! ## What is recorded -/

/-- Whoever has begun to end keeps the reason, and a crash that is new is one of an actor
that is there. -/
structure Records (h h' : LinkedSystem N V) : Prop where
  ended : ∀ x b, h.ended x = some b → h'.ended x = some b
  crashed : ∀ x, x ∉ h.actors → h'.ended x = some true → h.ended x = some true
  removed : ∀ l ∈ h.removed, l ∈ h'.removed

theorem Records.of_eq (hended : h'.ended = h.ended) (hremoved : h'.removed = h.removed) :
    Records h h' :=
  ⟨fun _ _ hx => hended ▸ hx, fun _ _ hx => hended ▸ hx, fun _ hl => hremoved ▸ hl⟩

theorem ended_ends (h : LinkedSystem N V) (id : ActorId) (crashed : Bool) (x : ActorId) :
    (h.ends id crashed).ended x = if x = id then (h.ended id).or (some crashed) else h.ended x :=
  Function.update_apply ..

theorem ended_ends_ne (h : LinkedSystem N V) (id : ActorId) (crashed : Bool) :
    (h.ends id crashed).ended id ≠ none := by
  rw [ended_ends, if_pos rfl]
  cases h.ended id <;> exact nofun

/-- Who is stopped has crashed before. -/
theorem crashed_ends {id : ActorId} (hcrashed : (h.ends id false).ended id = some true) :
    h.ended id = some true := by
  rw [ended_ends, if_pos rfl] at hcrashed
  cases hb : h.ended id with
  | some b => rwa [hb] at hcrashed
  | none =>
      rw [hb] at hcrashed
      cases hcrashed

/-- What crashes when it begins to end is there. -/
theorem records_ends {id : ActorId} {crashed : Bool} (hthere : crashed = true → id ∈ h.actors)
    (hended : h'.ended = (h.ends id crashed).ended) (hremoved : h'.removed = h.removed) :
    Records h h' where
  ended := fun x b hx => by
    rw [hended, ended_ends]
    split_ifs with hid
    · rw [← hid, hx]
      rfl
    · exact hx
  crashed := fun x hgone hx => by
    rw [hended, ended_ends] at hx
    split_ifs at hx with hid
    · subst hid
      cases hb : h.ended x with
      | some b => rwa [hb] at hx
      | none =>
          rw [hb] at hx
          exact absurd (hthere (Option.some.inj hx)) hgone
    · exact hx
  removed := fun _ hl => hremoved ▸ hl

theorem records_stops {id : ActorId} (hended : h'.ended = (h.ends id false).ended)
    (hremoved : h'.removed = h.removed) : Records h h' := by
  have hthere : false = true → id ∈ h.actors := nofun
  exact records_ends hthere hended hremoved

section
variable {p : Progress N V} {next : ActorSystem N V} {task : Task N V}

theorem record_system (h : LinkedSystem N V) (p : Progress N V) (next : ActorSystem N V)
    (task : Task N V) : (h.record p next task).toActorSystem = next := by
  unfold LinkedSystem.record
  split <;> first | rfl | (split_ifs <;> rfl) | (split <;> rfl)

theorem records_record (h : LinkedSystem N V) (p : Progress N V) (next : ActorSystem N V)
    (task : Task N V) : Records h (h.record p next task) := by
  unfold LinkedSystem.record
  split
  · split_ifs
    · exact records_ends of_decide_eq_true rfl rfl
    · exact .of_eq rfl rfl
  · split
    · exact records_stops rfl rfl
    · exact .of_eq rfl rfl
  · split
    · exact records_stops rfl rfl
    · exact .of_eq rfl rfl
  · split_ifs
    · exact records_stops rfl rfl
    · exact .of_eq rfl rfl
  · refine ⟨fun x b hx => ?_, fun x hgone hx => ?_, fun _ hl => hl⟩
    · dsimp only
      rw [hx]
      rfl
    · dsimp only at hx
      rwa [if_neg hgone, Option.or_none] at hx
  · exact .of_eq rfl rfl
  · exact ⟨fun _ _ hx => hx, fun _ _ hx => hx, fun _ hl => List.mem_append_left _ hl⟩
  · exact .of_eq rfl rfl

theorem record_crashes (h : LinkedSystem N V) (p : Progress N V) (next : ActorSystem N V)
    (hother : ∀ r reason rest, task ≠ .linked r reason rest) :
    (h.record p next task).crashes = h.crashes := by
  unfold LinkedSystem.record
  split
  · split_ifs <;> rfl
  · split <;> rfl
  · split <;> rfl
  · split_ifs <;> rfl
  · rfl
  · exact absurd rfl (hother _ _ _)
  · rfl
  · rfl

end

/-! ## Steps that tell no linked actor -/

theorem remote_ne (hs : SoundSystem h.toActorSystem) (hl : l ∈ h.localLinks ∨ h.nextRef ≤ l) :
    ∀ e ∈ h.remoteLinks, e.linkRef.id ≠ l := by
  have hlinks := hs.bonds.agree.links
  rintro e he rfl
  rcases hl with hlocal | hle
  · exact (hlinks.remote e he).2.1 hlocal
  · exact absurd (hlinks.lt_of_remote he) (Nat.not_lt.2 hle)

theorem live_of_renews (hr : Records h h') (hrenews : Renews h.toTables h'.toTables) :
    ∀ y < h.nextId, Live h' y → Live h y := by
  rintro y hlt ⟨hmem, hnone⟩
  refine ⟨?_, ?_⟩
  · rcases hrenews.actors y hmem with hold | ⟨rfl, -⟩
    · exact hold
    · exact absurd hlt (lt_irrefl _)
  · by_contra hsome
    obtain ⟨b, hb⟩ := Option.ne_none_iff_exists'.1 hsome
    rw [hr.ended y b hb] at hnone
    cases hnone

theorem wanes_of_sheds (ha : Attends h) (hr : Records h h')
    (hrenews : Renews h.toTables h'.toTables) (hcrashes : h'.crashes = h.crashes)
    {goes : RefId → Prop} (hsheds : Sheds goes h.toRelations h'.toRelations)
    (hgoes : ∀ l e, goes l → h.links l = some e → h'.links l = none → Due h' l e.linkRef) :
    Wanes h h' := by
  have hsilent : ∀ l, l ∈ h.localLinks ∨ h.nextRef ≤ l → told h' l = told h l := by
    intro l hl
    have hexits : exitsFor l h'.events = exitsFor l h.events :=
      hsheds.silent l (remote_ne ha.sound hl)
    unfold told
    rw [hexits, hcrashes]
  refine ⟨hr.ended, live_of_renews hr hrenews, hr.removed, hsheds.linkRefs, hsheds.localLinks,
    hsheds.nextRef, fun l e he => ?_, fun l hl _ => hsilent l hl, fun l e he hnone => ?_⟩
  · exact (hsheds.there (he ▸ nofun)).symm.trans he
  · have hlocal := (ha.sound.bonds.agree.links.entry l e he).2.1
    rw [hsilent l (.inl hlocal)]
    refine ⟨ha.once l hlocal, ?_⟩
    rcases hsheds.links l with heq | ⟨-, hl⟩
    · exact absurd (he.symm.trans (heq.symm.trans hnone)) nofun
    · exact hgoes l e hl he hnone

/-! ## Links that are made -/

/-- A link that is new does not join an actor that is ending because of its crash to one
that is live. -/
structure Grows (h h' : LinkedSystem N V) : Prop where
  actors : h'.actors = h.actors
  calls : h'.calls = h.calls
  ended : h'.ended = h.ended
  events : h'.events = h.events
  crashes : h'.crashes = h.crashes
  removed : h'.removed = h.removed
  nextRef : h.nextRef ≤ h'.nextRef
  links : ∀ l, l ≠ h.nextRef → h'.links l = h.links l
  linkRefs : ∀ l, l ≠ h.nextRef → h'.linkRefs l = h.linkRefs l
  localLinks : ∀ l ∈ h'.localLinks, l ∈ h.localLinks ∨ l = h.nextRef ∧ h'.links l ≠ none
  new : ∀ e, h'.links h.nextRef = some e → ∀ x y, Joins e.linkRef x y → Live h y →
    h.ended x ≠ some true

namespace Grows

theorem live (g : Grows h h') (hlive : Live h' y) : Live h y :=
  ⟨g.actors ▸ hlive.1, g.ended ▸ hlive.2⟩

theorem told_eq (g : Grows h h') (l : RefId) : told h' l = told h l := by
  unfold told
  rw [g.events, g.crashes]

/-- A link of an actor that has crashed to a live one is not new. -/
theorem old (g : Grows h h') {e : LinkEntry N} (he : h'.links l = some e)
    (hjoins : Joins e.linkRef x y) (hlive : Live h' y) (hcrashed : h'.ended x = some true) :
    h.links l = some e := by
  by_cases hl : l = h.nextRef
  · subst hl
    rw [g.ended] at hcrashed
    exact absurd hcrashed (g.new e he x y hjoins (g.live hlive))
  · exact (g.links l hl).symm.trans he

theorem alone (g : Grows h h') (hcrashed : h'.ended x = some true) (halone : Alone h x) :
    Alone h' x := fun l e y he hjoins hlive =>
  halone l e y (g.old he hjoins hlive hcrashed) hjoins (g.live hlive)

theorem bare (g : Grows h h') (hbare : Bare h x) : Bare h' x :=
  ⟨g.ended ▸ hbare.1, fun hcrashed => g.alone hcrashed (hbare.2 (g.ended ▸ hcrashed))⟩

theorem telling (g : Grows h h') {rest : List RefId} (htelling : Telling h x rest) :
    Telling h' x rest :=
  ⟨g.ended ▸ htelling.1, fun hcrashed l e y he hjoins hlive =>
    htelling.2 (g.ended ▸ hcrashed) l e y (g.old he hjoins hlive hcrashed) hjoins (g.live hlive)⟩

theorem staged (g : Grows h h') {call : List (Task N V)} (hstaged : Staged h call) :
    Staged h' call := by
  cases hstaged with
  | plain hplain => exact .plain hplain
  | telling htelling hnext houter => exact .telling (g.telling htelling) hnext houter
  | leaving htask hbare houter => exact .leaving htask (g.bare hbare) houter

end Grows

theorem Attends.grows (ha : Attends h) (g : Grows h h') (hs' : SoundSystem h'.toActorSystem) :
    Attends h' where
  sound := hs'
  calls := fun call hcall => g.staged (ha.calls call (g.calls ▸ hcall))
  gone := fun x hx hcrashed => by
    rw [g.actors] at hx
    exact g.alone hcrashed (ha.gone x hx (g.ended ▸ hcrashed))
  untold := fun l hl => by
    rw [g.told_eq]
    by_cases hnew : l = h.nextRef
    · exact ha.untold l (.inr hnew.ge)
    · exact ha.untold l (hl.imp (fun hsome => g.links l hnew ▸ hsome) g.nextRef.trans)
  once := fun l hl => by
    rw [g.told_eq]
    rcases g.localLinks l hl with hold | ⟨hnew, -⟩
    · exact ha.once l hold
    · rw [ha.untold l (.inr hnew.ge)]
      exact Nat.zero_le 1
  due := fun l ref hmade hl hnone => by
    rcases g.localLinks l hl with hold | ⟨-, hsome⟩
    · have hne : l ≠ h.nextRef := Nat.ne_of_lt (ha.sound.bonds.agree.links.madeLocal l hold)
      rw [g.linkRefs l hne] at hmade
      rw [g.links l hne] at hnone
      refine (ha.due l ref hmade hold hnone).imp (fun hl => g.removed ▸ hl) ?_
      rintro ⟨x, hends, hended, htold⟩
      refine ⟨x, hends, g.ended ▸ hended, fun hcrashed y hjoins hlive => ?_⟩
      rw [g.told_eq]
      exact htold (g.ended ▸ hcrashed) y hjoins (g.live hlive)
    · exact absurd hnone hsome

end Libeam.Proofs.LinkStages
