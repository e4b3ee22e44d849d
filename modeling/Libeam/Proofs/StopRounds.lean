import Libeam.Proofs.RemoteWatch
/-!
# The rounds of notifications when an actor is stopped

The watches of the actor are cancelled, its watchers are told, and then the actors
at the other ends of its links.  Nothing is cancelled by a callback here, but one may
throw, which ends the round.  Only watches and links of the actor itself are touched.
-/

namespace Libeam.Proofs.StopRounds

open Libeam.System (ActorId)
open Supervision (ActorRef)
open Monitoring Lib WatchTables LinkTables BondsAgree
open RemoteWatch (inform_eq)

variable {N : Type} {actors : Finset ActorId} {callbacks : Callbacks N} {r r' r'' : Relations N}
  {y : ActorId}

/-! ## Exit messages -/

/-- Who has got an exit message, and for which link. -/
def exits (events : List (Event N)) : List (ActorId × Option LinkRef) :=
  events.filterMap fun
    | .informed id (.exit linkRef _ _) => some (id, linkRef)
    | _ => none

@[simp] theorem exits_append (events events' : List (Event N)) :
    exits (events ++ events') = exits events ++ exits events' := List.filterMap_append

/-! ## Rounds over watches -/

/-- Only watches that the actor takes part in are struck, and no exit is delivered. -/
structure WatchRound (y : ActorId) (r r' : Relations N) : Prop where
  kept : LinksKept r r'
  watches : ∀ w e, r'.watches w = some e → r.watches w = some e
  others : ∀ w e, r.watches w = some e → e.watchRef.watcherId ≠ y → e.watchRef.watchedId ≠ y →
    r'.watches w = some e
  events : ∃ said, r'.events = r.events ++ said ∧ exits said = []

namespace WatchRound

theorem refl (r : Relations N) : WatchRound y r r :=
  ⟨.refl r, fun _ _ h => h, fun _ _ h _ _ => h, [], (List.append_nil _).symm, rfl⟩

theorem trans (h : WatchRound y r r') (h' : WatchRound y r' r'') : WatchRound y r r'' where
  kept := h.kept.trans h'.kept
  watches := fun w e he => h.watches w e (h'.watches w e he)
  others := fun w e he hwatcher hwatched =>
    h'.others w e (h.others w e he hwatcher hwatched) hwatcher hwatched
  events := by
    obtain ⟨said, heq, hnone⟩ := h.events
    obtain ⟨said', heq', hnone'⟩ := h'.events
    exact ⟨said ++ said', by rw [heq', heq, List.append_assoc], by simp [hnone, hnone']⟩

/-- A message other than an exit message is recorded. -/
theorem informed (r : Relations N) (id : ActorId) {message : InfoMessage N}
    (hmessage : ∀ linkRef actorRef reason, message ≠ .exit linkRef actorRef reason) :
    WatchRound y r { r with events := r.events ++ [.informed id message] } := by
  refine ⟨⟨rfl, rfl, rfl, rfl, rfl, rfl, rfl⟩, fun _ _ h => h, fun _ _ h _ _ => h, _, rfl, ?_⟩
  cases message with
  | down _ _ _ => rfl
  | exit linkRef actorRef reason => exact absurd rfl (hmessage linkRef actorRef reason)
  | moved _ _ _ _ _ _ => rfl

theorem unwatch (h : WatchesAgree actors r) {ref : WatchRef}
    (hmade : r.watchRefs ref.id = some ref) (hown : ref.watcherId = y ∨ ref.watchedId = y) :
    WatchRound y r (r.unwatch actors ref) := by
  have hs := strikes_unwatch h hmade
  refine ⟨unwatch_kept r ref, fun w e he => ?_, fun w e he hwatcher hwatched => ?_,
    _, events_unwatch actors r ref, rfl⟩
  · rw [hs.watches] at he
    split_ifs at he
    exact he
  · rw [hs.watches, if_neg]
    · exact he
    · rintro rfl
      have heq := (h.entry _ e he).1
      rw [hmade, Option.some.injEq] at heq
      rw [← heq] at hwatcher hwatched
      exact hown.elim hwatcher hwatched

end WatchRound

theorem round_unwatchAll (h : WatchesAgree actors r) (y : ActorId) :
    WatchRound y r (r.unwatchAll actors y) := by
  have hrefs : ∀ ref ∈ r.contextWatches y,
      r.watchRefs ref.id = some ref ∧ ref.watcherId = y := fun ref href =>
    ⟨h.contextMade y ref href, h.contextOwn y ref href⟩
  unfold Relations.unwatchAll
  generalize r.contextWatches y = refs at hrefs
  induction refs generalizing r with
  | nil => exact .refl r
  | cons ref refs ih =>
      obtain ⟨hmade, hown⟩ := hrefs ref (by simp)
      have hp := prunes_unwatch h hmade
      refine (WatchRound.unwatch h hmade (.inl hown)).trans (ih hp.agree fun ref' href' => ?_)
      rw [hp.watchRefs]
      exact hrefs ref' (by simp [href'])

/-- No watch whose watcher is the actor is left. -/
theorem watcher_unwatchAll (h : WatchesAgree actors r) (hy : y ∈ actors) {w : RefId}
    {e : WatchEntry N} (he : (r.unwatchAll actors y).watches w = some e) :
    e.watchRef.watcherId ≠ y := by
  have hold := (round_unwatchAll h y).watches w e he
  have hid := h.id_of_watches hold
  rintro hown
  have hmem : e.watchRef ∈ r.contextWatches y :=
    (h.context y hy e.watchRef).2 ⟨.inl ⟨e, by rw [hid]; exact hold, rfl⟩, hown⟩
  have hgone : ∀ (refs : List WatchRef) (r : Relations N), WatchesAgree actors r →
      (∀ ref ∈ refs, r.watchRefs ref.id = some ref) →
      ∀ ref ∈ refs, (refs.foldl (fun r ref => r.unwatch actors ref) r).watches ref.id = none := by
    intro refs
    induction refs with
    | nil => exact fun _ _ _ _ hmem => absurd hmem List.not_mem_nil
    | cons ref refs ih =>
        intro r h hmade ref' href'
        have hp := prunes_unwatch h (hmade ref (by simp))
        have hmade' : ∀ ref' ∈ refs, (r.unwatch actors ref).watchRefs ref'.id = some ref' :=
          fun ref' href' => hp.watchRefs ▸ hmade ref' (by simp [href'])
        rcases List.mem_cons.1 href' with rfl | href'
        · have habsent := (strikes_unwatch h (hmade ref' (by simp))).absent_self
          exact ((prunes_unwatches hp.agree hmade').absent _ habsent).1
        · exact ih _ hp.agree hmade' ref' href'
  have hnone := hgone _ r h (h.contextMade y) e.watchRef hmem
  rw [hid] at hnone
  exact absurd (hnone.symm.trans he) nofun

/-! ## Watchers are told -/

/-- The watcher of an entry is there and throws when it is told. -/
def Startles (actors : Finset ActorId) (callbacks : Callbacks N) (r : Relations N)
    (actorRef : ActorRef N) (reason : TerminationReason) (w : RefId) : Prop :=
  ∃ e, r.watches w = some e ∧ e.watchRef.watcherId ∈ actors ∧
    callbacks.throws e.watchRef.watcherId (.down e.watchRef actorRef reason) = true

theorem tellWatcher_threw (actorRef : ActorRef N) (reason : TerminationReason) (w : RefId) :
    (r.tellWatcher actors callbacks actorRef reason w).2 = true ↔
      Startles actors callbacks r actorRef reason w := by
  unfold Relations.tellWatcher Startles Relations.sendDownMessage Relations.inform
  cases hw : r.watches w with
  | none => simp
  | some e =>
      dsimp only
      by_cases hwatcher : e.watchRef.watcherId ∈ actors
      · simp only [if_pos hwatcher]
        split_ifs with hthrows <;> simp [hwatcher, hthrows]
      · simp [hwatcher]

section
variable (hquiet : ∀ id message, callbacks.cancels id message = [])
include hquiet

/-- What telling the watcher of one entry does. -/
theorem round_tellWatcher (h : WatchesAgree actors r) (actorRef : ActorRef N)
    (reason : TerminationReason) {w : RefId}
    (hown : ∀ e, r.watches w = some e → e.watchRef.watchedId = y) :
    WatchRound y r (r.tellWatcher actors callbacks actorRef reason w).1 := by
  unfold Relations.tellWatcher
  split
  · exact .refl r
  next e he =>
    have hsend : WatchRound y r
        (r.sendDownMessage actors callbacks e.watchRef actorRef reason).1 := by
      unfold Relations.sendDownMessage
      split_ifs
      · rw [inform_eq hquiet]
        exact .informed r _ nofun
      · exact .refl r
    have hp : Prunes actors r (r.sendDownMessage actors callbacks e.watchRef actorRef reason).1 :=
      prunes_sendDownMessage h _ _ _
    have hmade : r.watchRefs e.watchRef.id = some e.watchRef := by
      rw [h.id_of_watches he]
      exact (h.entry w e he).1
    dsimp only
    split_ifs
    · exact hsend
    · refine hsend.trans (.unwatch hp.agree ?_ (.inr (hown e he)))
      rw [hp.watchRefs]
      exact hmade

/-- Telling the watcher of an entry without an exception strikes it and no other. -/
theorem watches_tellWatcher (h : WatchesAgree actors r) (actorRef : ActorRef N)
    (reason : TerminationReason) {w : RefId}
    (hdone : (r.tellWatcher actors callbacks actorRef reason w).2 = false) (v : RefId) :
    (r.tellWatcher actors callbacks actorRef reason w).1.watches v =
      if v = w then none else r.watches v := by
  unfold Relations.tellWatcher at hdone ⊢
  split at hdone
  next hnone =>
    split_ifs with hv
    · rw [hv, hnone]
    · rfl
  next e he =>
    have hp : Prunes actors r (r.sendDownMessage actors callbacks e.watchRef actorRef reason).1 :=
      prunes_sendDownMessage h _ _ _
    have hsame : (r.sendDownMessage actors callbacks e.watchRef actorRef reason).1.watches =
        r.watches := by
      unfold Relations.sendDownMessage
      split_ifs
      · rw [inform_eq hquiet]
      · rfl
    have hid := h.id_of_watches he
    have hmade : r.watchRefs e.watchRef.id = some e.watchRef := by
      rw [hid]
      exact (h.entry w e he).1
    dsimp only at hdone ⊢
    split_ifs at hdone with hthrew
    · exact absurd (hthrew.symm.trans hdone) nofun
    · rw [if_neg hthrew, (strikes_unwatch hp.agree (hp.watchRefs ▸ hmade)).watches, hsame, hid]

theorem round_notifyWatchers (h : WatchesAgree actors r) (actorRef : ActorRef N)
    (reason : TerminationReason) :
    WatchRound actorRef.id r (r.notifyWatchers actors callbacks actorRef reason).1 := by
  have hround : WatchesAgree actors (r.notifyWatchers actors callbacks actorRef reason).1 ∧
      WatchRound actorRef.id r (r.notifyWatchers actors callbacks actorRef reason).1 := by
    refine Loop.forEach_invariant
      (I := fun s => WatchesAgree actors s ∧ WatchRound actorRef.id r s) (fun s w hw hs => ?_)
      ⟨h, .refl r⟩
    obtain ⟨e, he, hwatched⟩ := (h.index w actorRef.id).1 hw
    have hown : ∀ e', s.watches w = some e' → e'.watchRef.watchedId = actorRef.id := by
      intro e' he'
      have hsame := (hs.2.watches w e' he').symm.trans he
      rw [Option.some.inj hsame]
      exact hwatched
    exact ⟨(prunes_tellWatcher hs.1 actorRef reason w).agree,
      hs.2.trans (round_tellWatcher hquiet hs.1 actorRef reason hown)⟩
  exact hround.2

/-- The round ends with an exception just when one of the watchers throws. -/
theorem forEach_threw (h : WatchesAgree actors r) (actorRef : ActorRef N)
    (reason : TerminationReason) (ws : List RefId) :
    (Loop.forEach (Relations.tellWatcher actors callbacks actorRef reason) r ws).2 = true ↔
      ∃ w ∈ ws, Startles actors callbacks r actorRef reason w := by
  induction ws generalizing r with
  | nil => simp
  | cons w ws ih =>
      rw [Loop.forEach_cons]
      have hthrew : (r.tellWatcher actors callbacks actorRef reason w).2 = true ↔
          Startles actors callbacks r actorRef reason w := tellWatcher_threw actorRef reason w
      split_ifs with hw
      · exact iff_of_true hw ⟨w, by simp, hthrew.1 hw⟩
      · have hwatches := watches_tellWatcher hquiet h actorRef reason (w := w) (by simpa using hw)
        rw [ih (prunes_tellWatcher h actorRef reason w).agree]
        constructor
        · rintro ⟨v, hv, e, he, hthrows⟩
          rw [hwatches] at he
          split_ifs at he
          exact ⟨v, by simp [hv], e, he, hthrows⟩
        · rintro ⟨v, hv, hstartles⟩
          have hne : v ≠ w := fun heq => hw (hthrew.2 (heq ▸ hstartles))
          obtain ⟨e, he, hthrows⟩ := hstartles
          exact ⟨v, (List.mem_cons.1 hv).resolve_left hne, e, by rw [hwatches, if_neg hne, he],
            hthrows⟩

theorem notifyWatchers_threw (h : WatchesAgree actors r) (actorRef : ActorRef N)
    (reason : TerminationReason) :
    (r.notifyWatchers actors callbacks actorRef reason).2 = true ↔
      ∃ w e, r.watches w = some e ∧ e.watchRef.watchedId = actorRef.id ∧
        e.watchRef.watcherId ∈ actors ∧
        callbacks.throws e.watchRef.watcherId (.down e.watchRef actorRef reason) = true := by
  refine (forEach_threw hquiet h actorRef reason _).trans ?_
  constructor
  · rintro ⟨w, hw, e, he, hlive, hthrows⟩
    obtain ⟨e', he', hwatched⟩ := (h.index w actorRef.id).1 hw
    have hsame := Option.some.inj (he.symm.trans he')
    exact ⟨w, e, he, hsame ▸ hwatched, hlive, hthrows⟩
  · rintro ⟨w, e, he, hwatched, hlive, hthrows⟩
    exact ⟨w, (h.index w actorRef.id).2 ⟨e, he, hwatched⟩, e, he, hlive, hthrows⟩

/-- The watcher of every entry that a round without an exception goes through is told. -/
theorem forEach_informed (h : WatchesAgree actors r) (actorRef : ActorRef N)
    (reason : TerminationReason) {ws : List RefId}
    (hown : ∀ w ∈ ws, ∀ e, r.watches w = some e → e.watchRef.watchedId = actorRef.id)
    (hdone : (Loop.forEach (Relations.tellWatcher actors callbacks actorRef reason) r ws).2 = false)
    {w : RefId} (hw : w ∈ ws) {e : WatchEntry N} (he : r.watches w = some e)
    (hlive : e.watchRef.watcherId ∈ actors) :
    .informed e.watchRef.watcherId (.down e.watchRef actorRef reason) ∈
      (Loop.forEach (Relations.tellWatcher actors callbacks actorRef reason) r ws).1.events := by
  induction ws generalizing r with
  | nil => exact absurd hw List.not_mem_nil
  | cons v ws ih =>
      rw [Loop.forEach_cons] at hdone ⊢
      split_ifs at hdone ⊢ with hv
      · exact absurd (hv.symm.trans hdone) nofun
      · have hwatches := watches_tellWatcher hquiet h actorRef reason (w := v) (by simpa using hv)
        have hagree : WatchesAgree actors (r.tellWatcher actors callbacks actorRef reason v).1 :=
          (prunes_tellWatcher h actorRef reason v).agree
        have hrest : ∀ u ∈ ws, ∀ e,
            (r.tellWatcher actors callbacks actorRef reason v).1.watches u = some e →
              e.watchRef.watchedId = actorRef.id := by
          intro u hu e he
          rw [hwatches] at he
          split_ifs at he
          exact hown u (by simp [hu]) e he
        by_cases hwv : w = v
        · subst hwv
          -- the message has been recorded, and the later rounds only record more
          have htold : Event.informed e.watchRef.watcherId (.down e.watchRef actorRef reason) ∈
              (r.tellWatcher actors callbacks actorRef reason w).1.events := by
            unfold Relations.tellWatcher Relations.sendDownMessage
            rw [he]
            simp only [if_pos hlive]
            split_ifs
            · rw [inform_eq hquiet]
              exact List.mem_append_right _ (List.mem_singleton.2 rfl)
            · rw [events_unwatch, inform_eq hquiet]
              simp
          have hmore : ∀ (us : List RefId) (r : Relations N) (event : Event N),
              WatchesAgree actors r →
              (∀ u ∈ us, ∀ e, r.watches u = some e → e.watchRef.watchedId = actorRef.id) →
              event ∈ r.events →
              event ∈ (Loop.forEach (Relations.tellWatcher actors callbacks actorRef reason) r
                us).1.events := by
            intro us r event hr hus hevent
            refine (Loop.forEach_invariant (I := fun s =>
              (WatchesAgree actors s ∧ WatchRound actorRef.id r s) ∧ event ∈ s.events)
              (fun s u hu hs => ?_) ⟨⟨hr, .refl r⟩, hevent⟩).2
            have hround : WatchRound actorRef.id s
                (s.tellWatcher actors callbacks actorRef reason u).1 :=
              round_tellWatcher hquiet hs.1.1 actorRef reason fun e' he' =>
                hus u hu e' (hs.1.2.watches u e' he')
            obtain ⟨said, hsaid, -⟩ := hround.events
            exact ⟨⟨(prunes_tellWatcher hs.1.1 actorRef reason u).agree, hs.1.2.trans hround⟩,
              hsaid ▸ List.mem_append_left _ hs.2⟩
          exact hmore ws _ _ hagree hrest htold
        · exact ih hagree hrest hdone ((List.mem_cons.1 hw).resolve_left hwv)
            (by rw [hwatches, if_neg hwv, he])

/-- When nobody throws, every watcher that is there is told. -/
theorem notifyWatchers_informed (h : WatchesAgree actors r) (actorRef : ActorRef N)
    (reason : TerminationReason)
    (hdone : (r.notifyWatchers actors callbacks actorRef reason).2 = false) {w : RefId}
    {e : WatchEntry N} (he : r.watches w = some e) (hwatched : e.watchRef.watchedId = actorRef.id)
    (hlive : e.watchRef.watcherId ∈ actors) :
    .informed e.watchRef.watcherId (.down e.watchRef actorRef reason) ∈
      (r.notifyWatchers actors callbacks actorRef reason).1.events := by
  refine forEach_informed hquiet h actorRef reason (fun v hv e' he' => ?_) hdone
    ((h.index w actorRef.id).2 ⟨e, he, hwatched⟩) he hlive
  obtain ⟨e'', he'', hown⟩ := (h.index v actorRef.id).1 hv
  rw [Option.some.inj (he'.symm.trans he'')]
  exact hown

end

/-! ## Linked actors are told -/

/-- Other links are as before, and at most exit messages have been delivered. -/
structure LinkRound (y : ActorId) (r r' : Relations N) : Prop where
  kept : WatchesKept r r'
  trapExit : r'.trapExit = r.trapExit
  links : ∀ l e, r'.links l = some e → r.links l = some e
  others : ∀ l e, r.links l = some e → ¬ Ends e.linkRef y → r'.links l = some e
  events : ∃ said, r'.events = r.events ++ said

namespace LinkRound

theorem refl (r : Relations N) : LinkRound y r r :=
  ⟨.refl r, rfl, fun _ _ h => h, fun _ _ h _ => h, [], (List.append_nil _).symm⟩

end LinkRound

theorem trapExit_dropLink (r : Relations N) (id : ActorId) (l : RefId) :
    (r.dropLink actors id l).trapExit = r.trapExit := (dropLink_tables actors r id l).2.2.2.2.2.2.1

theorem trapExit_unlink (r : Relations N) (ref : LinkRef) :
    (r.unlink actors ref).trapExit = r.trapExit := by
  unfold Relations.unlink
  split
  · exact trapExit_dropLink _ _ _
  · unfold Relations.unlinkLocal
    split
    · rfl
    · exact (trapExit_dropLink _ _ _).trans (trapExit_dropLink _ _ _)

/-- The actor at the other end is there and gets an exit message. -/
def Traps (actors : Finset ActorId) (r : Relations N) (id : ActorId) : Prop :=
  id ∈ actors ∧ r.trapExit id = true

instance (r : Relations N) (id : ActorId) : Decidable (Traps actors r id) :=
  inferInstanceAs (Decidable (_ ∧ _))

/-- What becomes of a link that is cut when an actor is announced; the other is at its
other end. -/
structure CutsLink (actors : Finset ActorId) (callbacks : Callbacks N)
    (actorRef other : ActorRef N) (reason : TerminationReason) (ref : LinkRef)
    (r : Relations N) (told : Relations.Told N) : Prop where
  kept : WatchesKept r told.relations
  trapExit : told.relations.trapExit = r.trapExit
  links : ∀ v, told.relations.links v = if v = ref.id then none else r.links v
  events : told.relations.events = r.events ++
    if Traps actors r other.id then [.informed other.id (.exit (some ref) actorRef reason)] else []
  threw : told.threw = true ↔ Traps actors r other.id ∧
    callbacks.throws other.id (.exit (some ref) actorRef reason) = true
  crash : ∃ error, told.crash =
    if other.id ∈ actors ∧ r.trapExit other.id = false ∧ reason.abnormal = true then
      some (other, error)
    else none

/-- The end of a link that is not the actor, or the actor itself. -/
theorem otherEnd_ends {e : LinkEntry N} (h₁ : e.actor1Ref.id = e.linkRef.actor1Id)
    (h₂ : e.actor2Ref.id = e.linkRef.actor2Id) (hends : Ends e.linkRef y) :
    e.linkRef.actor1Id = y ∧ e.linkRef.actor2Id = (Relations.otherEnd e y).id ∨
      e.linkRef.actor2Id = y ∧ e.linkRef.actor1Id = (Relations.otherEnd e y).id := by
  unfold Relations.otherEnd
  split_ifs with hy
  · exact .inl ⟨h₁.symm.trans hy, h₂.symm⟩
  · refine .inr ⟨hends.resolve_left fun h => hy (h₁.trans h), h₁.symm⟩

section
variable (hquiet : ∀ id message, callbacks.cancels id message = [])
include hquiet

theorem cutsLink_tellLinked (h : Agree actors r) (actorRef : ActorRef N)
    (reason : TerminationReason) {l : RefId} {e : LinkEntry N} (he : r.links l = some e) :
    CutsLink actors callbacks actorRef (Relations.otherEnd e actorRef.id) reason e.linkRef r
      (r.tellLinked actors callbacks actorRef reason l) := by
  have hid := h.links.id_of_links he
  have hmade : r.linkRefs e.linkRef.id = some e.linkRef := by
    rw [hid]
    exact (h.links.entry l e he).1
  have hc := cuts_unlink h.links hmade
  have htrap : (r.unlink actors e.linkRef).trapExit = r.trapExit := trapExit_unlink r e.linkRef
  unfold Relations.tellLinked
  rw [he]
  dsimp only
  unfold Relations.exitLinked
  generalize Relations.otherEnd e actorRef.id = other
  rw [htrap]
  by_cases hlive : other.id ∈ actors
  · rw [if_pos hlive]
    cases ht : r.trapExit other.id with
    | true =>
        have htraps : Traps actors r other.id := ⟨hlive, ht⟩
        rw [if_pos rfl]
        dsimp only
        rw [inform_eq hquiet]
        refine ⟨hc.kept.trans ⟨rfl, rfl, rfl, rfl, rfl, rfl⟩, htrap, hc.links, ?_, ?_, "", ?_⟩
        · rw [if_pos htraps]
          exact congrArg (· ++ [_]) hc.events
        · exact (and_iff_right htraps).symm
        · simp [ht]
    | false =>
        have htraps : ¬ Traps actors r other.id := fun hboth =>
          absurd (ht.symm.trans hboth.2) nofun
        rw [if_neg nofun]
        refine ⟨hc.kept, htrap, hc.links, ?_, by simp [htraps],
          "Linked actor " ++ toString actorRef.id ++ " terminated: " ++ reason.type, ?_⟩
        · rw [if_neg htraps, List.append_nil]
          exact hc.events
        · simp [hlive, ht]
  · have htraps : ¬ Traps actors r other.id := fun hboth => hlive hboth.1
    rw [if_neg hlive]
    refine ⟨hc.kept, htrap, hc.links, ?_, by simp [htraps], "", by simp [hlive]⟩
    rw [if_neg htraps, List.append_nil]
    exact hc.events

end

/-- A link that is gone, or goes to another node. -/
theorem tellLinked_gone (actors : Finset ActorId) (callbacks : Callbacks N) (y : ActorId)
    (actorRef : ActorRef N) (reason : TerminationReason) {l : RefId}
    (hnone : r.links l = none) :
    LinkRound y r (r.tellLinked actors callbacks actorRef reason l).relations ∧
      (r.tellLinked actors callbacks actorRef reason l).relations.links = r.links ∧
      (r.tellLinked actors callbacks actorRef reason l).relations.events = r.events ∧
      (r.tellLinked actors callbacks actorRef reason l).threw = false ∧
      (r.tellLinked actors callbacks actorRef reason l).crash = none := by
  unfold Relations.tellLinked
  rw [hnone]
  dsimp only
  split
  · refine ⟨⟨⟨rfl, rfl, rfl, rfl, rfl, rfl⟩, rfl, fun _ _ h => h, fun _ _ h _ => h, [], ?_⟩,
      rfl, rfl, rfl, rfl⟩
    exact (List.append_nil _).symm
  · exact ⟨.refl r, rfl, rfl, rfl, rfl⟩

end Libeam.Proofs.StopRounds
