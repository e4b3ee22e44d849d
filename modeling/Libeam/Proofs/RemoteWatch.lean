import Libeam.Proofs.BondsAgree
/-!
# Remote watches are reported once

A remote watch can be reported by a notification of a death, by one of a
migration, by the answer to the request that set it up, and by a failure of its
node, in any order and any number of times.  Whoever comes first takes the entry
out of `remoteWatches`, and only then is the watcher told.  This is for callbacks
that do not enter the system again.
-/

namespace Libeam.Proofs.RemoteWatch

open Libeam.System (ActorId)
open Supervision (ActorRef)
open Monitoring Lib Lib.Transition WatchTables LinkTables BondsAgree

variable {N : Type} {actors : Finset ActorId} {callbacks : Callbacks N} {r r' : Relations N}

/-- The DOWN or MOVED message of a watch is delivered. -/
def Delivers (w : RefId) : Event N → Prop
  | .informed _ message => message.watch = some w
  | .unwatched _ => False

instance (w : RefId) (event : Event N) : Decidable (Delivers w event) :=
  match event with
  | .informed _ message => inferInstanceAs (Decidable (message.watch = some w))
  | .unwatched _ => inferInstanceAs (Decidable False)

/-- The watch that an event is about. -/
def subject : Event N → Option RefId
  | .informed _ message => message.watch
  | .unwatched w => some w

/-- After a cancelled watch nothing of it is delivered. -/
def SilentAfter (w : RefId) (events : List (Event N)) : Prop :=
  ∀ before after, events = before ++ .unwatched w :: after → ∀ event ∈ after, ¬ Delivers w event

/-- What is said of one remote watch. -/
structure ToldOnce (r : Relations N) (w : RefId) : Prop where
  once : (r.events.filter fun event => Delivers w event).length ≤ 1
  silent : SilentAfter w r.events
  /-- After the delivery neither the table nor the context of the watcher has it. -/
  table : ∀ event ∈ r.events, Delivers w event → ∀ e ∈ r.remoteWatches, e.watchRef.id ≠ w
  context : ∀ event ∈ r.events, Delivers w event → ∀ ref, r.watchRefs w = some ref →
    ref ∉ r.contextWatches ref.watcherId

/-- The invariant: nothing has been said about a watch whose entry is there. -/
structure Told (r : Relations N) : Prop where
  known : ∀ event ∈ r.events, ∀ w, subject event = some w → w < r.nextRef
  pending : ∀ e ∈ r.remoteWatches, ∀ event ∈ r.events, subject event ≠ some e.watchRef.id
  once : ∀ w ∈ r.remoteRefs, (r.events.filter fun event => Delivers w event).length ≤ 1
  silent : ∀ w ∈ r.remoteRefs, SilentAfter w r.events
  context : ∀ w ∈ r.remoteRefs, ∀ event ∈ r.events, Delivers w event → ∀ ref,
    r.watchRefs w = some ref → ref ∉ r.contextWatches ref.watcherId

theorem Delivers.subject {w : RefId} {event : Event N} (h : Delivers w event) :
    subject event = some w := by
  cases event with
  | informed _ message => exact h
  | unwatched _ => exact h.elim

theorem silentAfter_append {w : RefId} {events : List (Event N)} (h : SilentAfter w events)
    {event : Event N} (hevent : Delivers w event → Event.unwatched w ∉ events) :
    SilentAfter w (events ++ [event]) := by
  intro before after heq event' hmem
  rcases List.eq_nil_or_concat after with rfl | ⟨after', last, rfl⟩
  · cases hmem
  · have hsplit : events ++ [event] = (before ++ .unwatched w :: after') ++ [last] := by
      simpa using heq
    obtain ⟨hevents, hlast⟩ := List.append_inj' hsplit rfl
    cases hlast
    rcases List.mem_append.1 (by simpa using hmem : event' ∈ after' ++ [event]) with hold | hnew
    · exact h before after' hevents event' hold
    · rw [List.mem_singleton.1 hnew]
      exact fun hdelivers => hevent hdelivers (by rw [hevents]; simp)

namespace Told

/-- Nothing is said, and entries may go. -/
theorem mono (h : Told r) (hevents : r'.events = r.events) (hnext : r.nextRef ≤ r'.nextRef)
    (hremote : ∀ e ∈ r'.remoteWatches, e ∈ r.remoteWatches)
    (hrefs : r'.remoteRefs = r.remoteRefs) (hmade : r'.watchRefs = r.watchRefs)
    (hcontext : ∀ a, ∀ ref ∈ r'.contextWatches a, ref ∈ r.contextWatches a) : Told r' where
  known := by
    rw [hevents]
    exact fun event hevent w hw => (h.known event hevent w hw).trans_le hnext
  pending := by
    rw [hevents]
    exact fun e he => h.pending e (hremote e he)
  once := by rw [hevents, hrefs]; exact h.once
  silent := by rw [hevents, hrefs]; exact h.silent
  context := by
    rw [hevents, hrefs, hmade]
    exact fun w hw event hevent hd ref href hmem =>
      h.context w hw event hevent hd ref href (hcontext _ ref hmem)

/-- An event that delivers nothing about a remote watch, and whose subject has no
entry, is recorded. -/
theorem record (h : Told r) {event : Event N}
    (hknown : ∀ w, subject event = some w → w < r.nextRef)
    (hpending : ∀ e ∈ r.remoteWatches, subject event ≠ some e.watchRef.id)
    (hdelivers : ∀ w ∈ r.remoteRefs, ¬ Delivers w event) :
    Told { r with events := r.events ++ [event] } where
  known := by
    intro event' hevent' w hw
    rcases List.mem_append.1 hevent' with hold | hnew
    · exact h.known event' hold w hw
    · rw [List.mem_singleton.1 hnew] at hw
      exact hknown w hw
  pending := by
    intro e he event' hevent'
    rcases List.mem_append.1 hevent' with hold | hnew
    · exact h.pending e he event' hold
    · rw [List.mem_singleton.1 hnew]
      exact hpending e he
  once := by
    intro w hw
    change ((r.events ++ [event]).filter _).length ≤ 1
    rw [List.filter_append, List.filter_cons_of_neg (by simpa using hdelivers w hw),
      List.filter_nil, List.append_nil]
    exact h.once w hw
  silent := fun w hw =>
    silentAfter_append (h.silent w hw) fun hd => absurd hd (hdelivers w hw)
  context := by
    intro w hw event' hevent' hd
    rcases List.mem_append.1 hevent' with hold | hnew
    · exact h.context w hw event' hold hd
    · rw [List.mem_singleton.1 hnew] at hd
      exact absurd hd (hdelivers w hw)

/-- The one delivery of a remote watch, whose entry has just been taken. -/
theorem deliver (h : Told r) {event : Event N} {w : RefId} (hlt : w < r.nextRef)
    (hevent : Delivers w event) (hnew : ∀ event' ∈ r.events, subject event' ≠ some w)
    (htable : ∀ e ∈ r.remoteWatches, e.watchRef.id ≠ w)
    (hcontext : ∀ ref, r.watchRefs w = some ref → ref ∉ r.contextWatches ref.watcherId) :
    Told { r with events := r.events ++ [event] } := by
  have hother : ∀ v, Delivers v event → v = w := fun v hv =>
    Option.some.inj (hv.subject.symm.trans hevent.subject)
  have hnone : ∀ event' ∈ r.events, ¬ Delivers w event' := fun event' hmem hd =>
    hnew event' hmem hd.subject
  refine ⟨fun event' hevent' v hv => ?_, fun e he event' hevent' => ?_, fun v hv => ?_,
    fun v hv => ?_, fun v hv event' hevent' hd => ?_⟩
  · rcases List.mem_append.1 hevent' with hold | hlast
    · exact h.known event' hold v hv
    · rw [List.mem_singleton.1 hlast, hevent.subject, Option.some.injEq] at hv
      exact hv ▸ hlt
  · rcases List.mem_append.1 hevent' with hold | hlast
    · exact h.pending e he event' hold
    · rw [List.mem_singleton.1 hlast, hevent.subject]
      exact fun heq => htable e he (Option.some.inj heq).symm
  · change ((r.events ++ [event]).filter _).length ≤ 1
    rw [List.filter_append, List.length_append]
    by_cases hvw : v = w
    · subst hvw
      rw [List.filter_eq_nil_iff.2 fun event' hmem => by simpa using hnone event' hmem]
      simpa using List.length_filter_le (fun event => decide (Delivers v event)) [event]
    · rw [List.filter_cons_of_neg (by simpa using fun hd => hvw (hother v hd))]
      exact h.once v hv
  · refine silentAfter_append (h.silent v hv) fun hd hmem => ?_
    obtain rfl := hother v hd
    exact hnew _ hmem rfl
  · rcases List.mem_append.1 hevent' with hold | hlast
    · exact h.context v hv event' hold hd
    · rw [List.mem_singleton.1 hlast] at hd
      obtain rfl := hother v hd
      exact hcontext

/-- The invariant says of each remote watch what is claimed of it. -/
theorem toldOnce (h : Told r) {w : RefId} (hw : w ∈ r.remoteRefs) : ToldOnce r w where
  once := h.once w hw
  silent := h.silent w hw
  table := fun event hevent hd e he hid =>
    h.pending e he event hevent (hid ▸ hd.subject)
  context := h.context w hw

end Told

/-! ## The operations -/

theorem withEvents_eq {events : List (Event N)} (h : r.events = events) :
    { r with events := events } = r := by
  subst h
  rfl

theorem Told.unwatch (h : Told r) (hr : WatchesAgree actors r) {ref : WatchRef}
    (hmade : r.watchRefs ref.id = some ref) : Told (r.unwatch actors ref) := by
  have hs := strikes_unwatch hr hmade
  have hbase : Told { r.unwatch actors ref with events := r.events } :=
    h.mono rfl hs.nextRef.ge (fun e he => List.mem_of_mem_filter (hs.remoteWatches ▸ he))
      hs.remoteRefs hs.watchRefs hs.contextSub
  rw [← withEvents_eq (events_unwatch actors r ref)]
  refine hbase.record (fun w hw => ?_) (fun e he => ?_) fun _ _ hd => hd
  · cases hw
    exact (hr.made _ _ hmade).2.trans_le hs.nextRef.ge
  · change e ∈ (r.unwatch actors ref).remoteWatches at he
    rw [hs.remoteWatches] at he
    exact fun heq => (of_decide_eq_true (List.mem_filter.1 he).2) (Option.some.inj heq).symm

theorem Told.cancel (h : Told r) (hr : WatchesAgree actors r) (w : RefId) :
    Told (r.cancel actors w) := by
  unfold Relations.cancel
  split
  · exact h
  next ref href =>
    have hnoted : Told { r with cancelled := r.cancelled ++ [w] } :=
      h.mono rfl le_rfl (fun _ he => he) rfl rfl fun _ _ href => href
    refine hnoted.unwatch (Prunes.noted hr _).agree ?_
    change r.watchRefs ref.id = some ref
    rw [(hr.made w ref href).1]
    exact href

theorem Told.unwatchAll (h : Told r) (hr : WatchesAgree actors r) (id : ActorId) :
    Told (r.unwatchAll actors id) := by
  have hmade := hr.contextMade id
  unfold Relations.unwatchAll
  generalize r.contextWatches id = refs at hmade
  induction refs generalizing r with
  | nil => exact h
  | cons ref refs ih =>
      have hp := prunes_unwatch hr (hmade ref (by simp))
      refine ih (h.unwatch hr (hmade ref (by simp))) hp.agree fun ref' href' => ?_
      rw [hp.watchRefs]
      exact hmade ref' (by simp [href'])

section
variable (hquiet : ∀ id message, callbacks.cancels id message = [])
include hquiet

/-- A callback that cancels nothing is an event. -/
theorem inform_eq (r : Relations N) (id : ActorId) (message : InfoMessage N) :
    (r.inform actors callbacks id message).1 =
      { r with events := r.events ++ [.informed id message] } := by
  unfold Relations.inform
  rw [hquiet]
  rfl

theorem Told.informOther (h : Told r) (id : ActorId) {message : InfoMessage N}
    (hnone : message.watch = none) : Told (r.inform actors callbacks id message).1 := by
  rw [inform_eq hquiet]
  have hsubject : ∀ w, subject (Event.informed id message) ≠ some w := fun w hw => by
    rw [show subject (Event.informed id message) = none from hnone] at hw
    cases hw
  exact h.record (fun w hw => absurd hw (hsubject w)) (fun _ _ => hsubject _)
    fun w _ hd => hsubject w hd.subject

/-- A message about a local watch. -/
theorem Told.informLocal (h : Told r) (hr : WatchesAgree actors r) {w : RefId}
    {e : WatchEntry N} (he : r.watches w = some e) (id : ActorId) {message : InfoMessage N}
    (hmessage : message.watch = some w) : Told (r.inform actors callbacks id message).1 := by
  rw [inform_eq hquiet]
  have hsubject : subject (Event.informed id message) = some w := hmessage
  have hlocal := (hr.entry w e he).2.2
  refine h.record (fun v hv => ?_) (fun e' he' heq => ?_) fun v hv hd => ?_
  · rw [hsubject, Option.some.injEq] at hv
    exact hv ▸ hr.lt_of_watches he
  · rw [hsubject, Option.some.injEq] at heq
    exact hlocal (heq ▸ (hr.remote e' he').2.2)
  · have hvw := hd.subject
    rw [hsubject, Option.some.injEq] at hvw
    exact hlocal (hvw ▸ hv)

theorem Told.sendDownMessage (h : Told r) (hr : WatchesAgree actors r) {w : RefId}
    {e : WatchEntry N} (he : r.watches w = some e) (watchedRef : ActorRef N)
    (reason : TerminationReason) :
    Told (r.sendDownMessage actors callbacks e.watchRef watchedRef reason).1 := by
  unfold Relations.sendDownMessage
  split_ifs
  · exact h.informLocal hquiet hr he _ (congrArg some (hr.id_of_watches he))
  · exact h

theorem Told.sendMovedMessageToWatcher (h : Told r) (hr : WatchesAgree actors r) {w : RefId}
    {e : WatchEntry N} (he : r.watches w = some e) (move : Move N) :
    Told (r.sendMovedMessageToWatcher actors callbacks e.watchRef move).1 := by
  unfold Relations.sendMovedMessageToWatcher
  split_ifs
  · exact h.informLocal hquiet hr he _ (congrArg some (hr.id_of_watches he))
  · exact h

omit hquiet in
/-- A watcher has been told of its entry, which is then struck. -/
theorem Told.tell (hr : WatchesAgree actors r) {w : RefId} {e : WatchEntry N}
    (he : r.watches w = some e) {told : Relations N × Bool} (htold : Told told.1)
    (hp : Prunes actors r told.1) :
    Told (if told.2 then told else (told.1.unwatch actors e.watchRef, false)).1 := by
  split_ifs
  · exact htold
  · refine htold.unwatch hp.agree ?_
    rw [hp.watchRefs, hr.id_of_watches he]
    exact (hr.entry w e he).1

omit hquiet in
/-- What each round of a loop over local watches keeps. -/
theorem told_forEach {body : Relations N → RefId → Relations N × Bool} (h : Told r)
    (hr : WatchesAgree actors r)
    (hbody : ∀ s w, WatchesAgree actors s → Told s →
      Prunes actors s (body s w).1 ∧ Told (body s w).1) (ws : List RefId) :
    Told (Loop.forEach body r ws).1 :=
  (Loop.forEach_invariant (I := fun s => WatchesAgree actors s ∧ Told s)
    (fun s w _ hs => ⟨(hbody s w hs.1 hs.2).1.agree, (hbody s w hs.1 hs.2).2⟩) ⟨hr, h⟩).2

theorem Told.notifyWatchers (h : Told r) (hr : WatchesAgree actors r) (actorRef : ActorRef N)
    (reason : TerminationReason) :
    Told (r.notifyWatchers actors callbacks actorRef reason).1 := by
  refine told_forEach h hr (fun s w hs ht => ⟨prunes_tellWatcher hs actorRef reason w, ?_⟩) _
  unfold Relations.tellWatcher
  split
  · exact ht
  next e he =>
    exact Told.tell hs he (ht.sendDownMessage hquiet hs he _ _)
      (prunes_sendDownMessage hs _ _ _)

theorem Told.notifyWatchersOfMigration (h : Told r) (hr : WatchesAgree actors r)
    (actorId : ActorId) (move : Move N) :
    Told (r.notifyWatchersOfMigration actors callbacks actorId move).1 := by
  refine told_forEach h hr
    (fun s w hs ht => ⟨prunes_tellWatcherOfMigration hs move w, ?_⟩) _
  unfold Relations.tellWatcherOfMigration
  split
  · exact ht
  next e he =>
    exact Told.tell hs he (ht.sendMovedMessageToWatcher hquiet hs he _)
      (prunes_sendMovedMessageToWatcher hs _ _)

/-- The entry is taken, and its watcher is told. -/
theorem Told.endRemoteWatch (h : Told r) (hr : WatchesAgree actors r)
    {e : RemoteWatchEntry N} (he : e ∈ r.remoteWatches) {message : InfoMessage N}
    (hmessage : message.watch = some e.watchRef.id) :
    Told (r.endRemoteWatch actors callbacks e message).1 := by
  obtain ⟨hmade, hwatcher, -⟩ := hr.remote e he
  have hs := strikes_remote hr (hr.remote e he)
  unfold Relations.endRemoteWatch
  dsimp only
  split_ifs with hactor
  · rw [inform_eq hquiet]
    have hevents := (dropWatch_tables actors { r with
      remoteWatches := r.remoteWatches.filter fun e' => e'.watchRef.id ≠ e.watchRef.id }
      e.watcherRef.id e.watchRef.id).2.2.2.2.2.2
    refine Told.deliver (w := e.watchRef.id) (h.mono hevents hs.nextRef.ge
      (fun e' he' => List.mem_of_mem_filter (hs.remoteWatches ▸ he')) hs.remoteRefs
      hs.watchRefs hs.contextSub) ?_ hmessage ?_ ?_ ?_
    · exact (hr.lt_of_remote he).trans_le hs.nextRef.ge
    · rw [hevents]
      exact h.pending e he
    · intro e' he'
      rw [hs.remoteWatches] at he'
      exact of_decide_eq_true (List.mem_filter.1 he').2
    · intro ref href hmem
      rw [hs.watchRefs, hmade, Option.some.injEq] at href
      subst href
      exact ((hs.context _ (hwatcher ▸ hactor) _).1 hmem).2 rfl
  · exact h.mono rfl le_rfl (fun e' he' => List.mem_of_mem_filter he') rfl rfl
      fun _ _ href => href

theorem Told.handleRemoteDown (h : Told r) (hr : WatchesAgree actors r) (w : RefId)
    (watchedActorId : ActorId) (reason : TerminationReason) :
    Told (r.handleRemoteDown actors callbacks w watchedActorId reason).1 := by
  unfold Relations.handleRemoteDown
  split
  · exact h
  next e he => exact h.endRemoteWatch hquiet hr (getRemoteWatch_some he).1 rfl

theorem Told.handleRemoteWatcherMoved (h : Told r) (hr : WatchesAgree actors r) (w : RefId)
    (move : Move N) :
    Told (r.handleRemoteWatcherMoved actors callbacks w move).1 := by
  unfold Relations.handleRemoteWatcherMoved
  split
  · exact h
  next e he => exact h.endRemoteWatch hquiet hr (getRemoteWatch_some he).1 rfl

/-- The entries collected for a failed node are all still there when their turn comes. -/
theorem Told.handleNodeFailureForWatches [DecidableEq N] (h : Told r)
    (hr : WatchesAgree actors r) (deadNodeId : N) :
    Told (r.handleNodeFailureForWatches actors callbacks deadNodeId).1 := by
  refine Loop.forEach_rule
    (I := fun s rest => WatchesAgree actors s ∧ Told s ∧ (∀ e ∈ rest, e ∈ s.remoteWatches) ∧
      (rest.map fun e => e.watchRef.id).Nodup)
    (fun s hs => hs.2.1) ?_ ?_ ⟨hr, h, fun e he => List.mem_of_mem_filter he, ?_⟩
  · rintro s e rest ⟨hs, ht, hmem, hnodup⟩ -
    have he := hmem e (by simp)
    have hends := strikes_remote hs (hs.remote e he)
    have hp : Prunes actors s (s.endRemoteWatch actors callbacks e
        (Relations.nodeFailureDown e)).1 := prunes_endRemoteWatch hs (hs.remote e he) _
    refine ⟨hp.agree, ht.endRemoteWatch hquiet hs he rfl, fun e' he' => ?_, ?_⟩
    · have hne : e'.watchRef.id ≠ e.watchRef.id := fun heq => by
        rw [List.map_cons, List.nodup_cons] at hnodup
        exact hnodup.1 (heq ▸ List.mem_map_of_mem (f := fun e => e.watchRef.id) he')
      have hold := hmem e' (by simp [he'])
      unfold Relations.endRemoteWatch
      dsimp only
      split_ifs
      · rw [inform_eq hquiet]
        change e' ∈ (Relations.dropWatch _ _ _ _).remoteWatches
        rw [hends.remoteWatches]
        exact List.mem_filter.2 ⟨hold, by simpa using hne⟩
      · exact List.mem_filter.2 ⟨hold, by simpa using hne⟩
    · rw [List.map_cons, List.nodup_cons] at hnodup
      exact hnodup.2
  · rintro s e rest ⟨hs, ht, hmem, -⟩ -
    exact ht.endRemoteWatch hquiet hs (hmem e (by simp)) rfl
  · exact hr.unique.sublist (List.filter_sublist.map _)

theorem Told.exitLinked (h : Told r) (ref : LinkRef) (targetRef exitedRef : ActorRef N)
    (reason : TerminationReason) (message : String) :
    Told (r.exitLinked actors callbacks ref targetRef exitedRef reason message).relations := by
  unfold Relations.exitLinked
  split_ifs
  · exact h.informOther hquiet _ rfl
  · exact h
  · exact h
  · exact h

omit hquiet in
theorem Told.linksOnly (h : Told r) (hlinks : LinksOnly r r') : Told r' :=
  h.mono hlinks.events hlinks.nextRef (fun _ he => hlinks.kept.remoteWatches ▸ he)
    hlinks.kept.remoteRefs hlinks.kept.watchRefs
    fun _ _ href => hlinks.kept.contextWatches ▸ href

theorem Told.tellLinked (h : Told r) (actorRef : ActorRef N) (reason : TerminationReason)
    (l : RefId) : Told (r.tellLinked actors callbacks actorRef reason l).relations := by
  unfold Relations.tellLinked
  split
  · exact (h.linksOnly (.unlink r _)).exitLinked hquiet _ _ _ _ _
  · split
    · exact h.linksOnly (.forgetRemoteLink r _ _)
    · exact h

theorem Told.tellLinkedOfMigration (h : Told r) (actorId : ActorId) (move : Move N)
    (l : RefId) : Told (r.tellLinkedOfMigration actors callbacks actorId move l).1 := by
  unfold Relations.tellLinkedOfMigration
  split
  next e he =>
    dsimp only
    have htold : Told (if (Relations.otherEnd e actorId).id ∈ actors then
        r.inform actors callbacks (Relations.otherEnd e actorId).id
          (.moved none (some e.linkRef) move.actorRef move.oldNodeId move.newNodeId
            move.newActorId)
        else (r, false)).1 := by
      split_ifs
      · exact h.informOther hquiet _ rfl
      · exact h
    split_ifs at htold ⊢
    · exact htold
    · exact htold.linksOnly (.unlink _ _)
    · exact htold
    · exact h.linksOnly (.unlink _ _)
  · split
    · exact h.linksOnly (.forgetRemoteLink r _ _)
    · exact h

theorem Told.handleRemoteLinkExit (h : Told r) (l : RefId) (exitedActorId : ActorId)
    (reason : TerminationReason) :
    Told (r.handleRemoteLinkExit actors callbacks l exitedActorId reason).relations := by
  unfold Relations.handleRemoteLinkExit
  split
  · exact h
  · exact (h.linksOnly ((LinksOnly.forgetRemoteLink r _ _).trans
      (.dropLink _ _ _))).exitLinked hquiet _ _ _ _ _

theorem Told.handleRemoteLinkMoved (h : Told r) (l : RefId) (move : Move N) :
    Told (r.handleRemoteLinkMoved actors callbacks l move).1 := by
  unfold Relations.handleRemoteLinkMoved
  split
  · exact h
  next e _ =>
    have hforget := h.linksOnly (LinksOnly.forgetRemoteLink r l e.localActorRef.id)
    dsimp only
    split_ifs
    · exact (hforget.linksOnly (.dropLink _ _ _)).informOther hquiet _ rfl
    · exact hforget

end

/-! ## Runs -/

/-- A delivered watch does not come back into the context of its watcher. -/
theorem context_grows (h : Told r) (hr : WatchesAgree actors r) {new : WatchRef}
    (hid : new.id = r.nextRef)
    (hmade : r'.watchRefs = Function.update r.watchRefs r.nextRef (some new))
    (hcontext : ∀ a, ∀ ref ∈ r'.contextWatches a, ref ∈ r.contextWatches a ∨ ref = new)
    {w : RefId} (hw : w ∈ r.remoteRefs) {event : Event N} (hevent : event ∈ r.events)
    (hd : Delivers w event) (ref : WatchRef) (href : r'.watchRefs w = some ref) :
    ref ∉ r'.contextWatches ref.watcherId := by
  have hne : w ≠ r.nextRef := Nat.ne_of_lt (hr.madeRemote w hw)
  rw [hmade, Function.update_of_ne hne] at href
  intro hmem
  rcases hcontext _ ref hmem with hold | rfl
  · exact h.context w hw event hevent hd ref href hold
  · exact hne ((hr.made w ref href).1.symm.trans hid)

theorem Told.establishWatch (h : Told r) (hr : WatchesAgree actors r)
    (watcherRef watchedRef : ActorRef N) :
    Told (r.establishWatch actors watcherRef watchedRef) := by
  obtain ⟨-, -, t₃, t₄, t₅, t₆, t₇⟩ := establishWatch_tables actors r watcherRef watchedRef
  refine ⟨?_, by rw [t₃, t₇]; exact h.pending, by rw [t₅, t₇]; exact h.once,
    by rw [t₅, t₇]; exact h.silent, ?_⟩
  · rw [t₆, t₇]
    exact fun event hevent w hw => (h.known event hevent w hw).trans (Nat.lt_succ_self _)
  · rw [t₅, t₇]
    intro w hw event hevent hd
    exact context_grows h hr (by rfl) t₄ (fun _ _ href => of_mem_establishWatch href) hw hevent
      hd

theorem Told.setupRemoteWatch (h : Told r) (hr : WatchesAgree actors r)
    (watcherRef watchedRef : ActorRef N) :
    Told (r.setupRemoteWatch actors watcherRef watchedRef) := by
  obtain ⟨-, -, t₃, t₄, t₅, t₆, t₇⟩ := setupRemoteWatch_tables actors r watcherRef watchedRef
  -- nothing has been said about a reference that did not exist
  have hnew : ∀ event ∈ r.events, subject event ≠ some r.nextRef := fun event hevent hw =>
    lt_irrefl _ (h.known event hevent _ hw)
  refine ⟨fun event hevent w hw => ?_, fun e he event hevent => ?_, fun w hw => ?_,
    fun w hw => ?_, fun w hw event hevent hd => ?_⟩
  · rw [t₇] at hevent
    rw [t₆]
    exact (h.known event hevent w hw).trans (Nat.lt_succ_self _)
  · rw [t₇] at hevent
    rw [t₃] at he
    rcases List.mem_append.1 he with hold | hlast
    · exact h.pending e hold event hevent
    · rw [List.mem_singleton.1 hlast]
      exact hnew event hevent
  · rw [t₅] at hw
    rw [t₇]
    rcases List.mem_append.1 hw with hold | hlast
    · exact h.once w hold
    · rw [List.mem_singleton.1 hlast, List.filter_eq_nil_iff.2]
      · exact Nat.zero_le _
      · exact fun event hevent => by simpa using fun hd => hnew event hevent (Delivers.subject hd)
  · rw [t₅] at hw
    rw [t₇]
    rcases List.mem_append.1 hw with hold | hlast
    · exact h.silent w hold
    · rw [List.mem_singleton.1 hlast]
      intro before after heq event hafter hd
      exact hnew event (by rw [heq]; simp [hafter]) hd.subject
  · rw [t₇] at hevent
    rw [t₅] at hw
    refine context_grows h hr (by rfl) t₄ (fun _ _ href => of_mem_setupRemoteWatch href) ?_
      hevent hd
    refine (List.mem_append.1 hw).resolve_right fun hlast => ?_
    exact hnew event hevent (List.mem_singleton.1 hlast ▸ hd.subject)

theorem Told.newContext (h : Told r) (id : ActorId) : Told (r.newContext id) := by
  refine h.mono rfl le_rfl (fun _ he => he) rfl rfl fun a ref href => ?_
  change ref ∈ Function.update r.contextWatches id [] a at href
  by_cases ha : a = id
  · subst ha
    rw [Function.update_self] at href
    cases href
  · rwa [Function.update_of_ne ha] at href

section
variable [DecidableEq N] {b b' : Bonds N}
  (hquiet : ∀ id message, callbacks.cancels id message = [])
include hquiet

theorem told_step (hs : Sound b) (h : Told b.toRelations) {a : BondsAction N}
    (hst : b.step callbacks a = some b') : Told b'.toRelations := by
  have hr := hs.agree.watches
  cases a with
  | spawn => cases hst; exact h.newContext _
  | remove id => cases hst; exact h
  | setTrapExit id trap =>
      cases hst
      exact h.linksOnly ⟨⟨rfl, rfl, rfl, rfl, rfl, rfl⟩, rfl, le_rfl, rfl⟩
  | watch watcherRef watchedRef =>
      simp only [Bonds.step] at hst
      split_ifs at hst
      cases hst
      dsimp only [Relations.watch]
      split_ifs
      · exact h.setupRemoteWatch hr _ _
      · have hestablished := h.establishWatch hr watcherRef watchedRef
        dsimp only [Relations.watchLocal]
        split_ifs
        · exact hestablished
        · refine hestablished.sendDownMessage hquiet (agree_establishWatch hr _ _)
            (w := b.nextRef) (e := ⟨newWatchRef b.toRelations watcherRef watchedRef, watcherRef,
              watchedRef⟩) ?_ _ _
          rw [(establishWatch_tables _ _ _ _).1]
          exact Function.update_self ..
  | unwatch w => cases hst; exact h.cancel hr w
  | unwatchAll id => cases hst; exact h.unwatchAll hr id
  | notifyWatchers actorRef reason => cases hst; exact h.notifyWatchers hquiet hr actorRef reason
  | notifyWatchersOfMigration id move =>
      cases hst
      exact h.notifyWatchersOfMigration hquiet hr id move
  | watchDown w id reason => cases hst; exact h.handleRemoteDown hquiet hr w id reason
  | watchMoved w move => cases hst; exact h.handleRemoteWatcherMoved hquiet hr w move
  | failWatches deadNodeId =>
      cases hst
      exact h.handleNodeFailureForWatches hquiet hr deadNodeId
  | link actor1Ref actor2Ref => cases hst; exact h.linksOnly (.link _ _ _ _)
  | unlink l =>
      simp only [Bonds.step] at hst
      split at hst
      · cases hst
      · cases hst
        exact h.linksOnly (.unlink _ _)
  | unlinkAll id => cases hst; exact h.linksOnly (.unlinkAll _ _)
  | tellLinked actorRef reason l =>
      simp only [Bonds.step] at hst
      split_ifs at hst
      cases hst
      exact h.tellLinked hquiet actorRef reason l
  | notifyLinkedActorsOfMigration id move =>
      cases hst
      exact Loop.forEach_invariant (fun s l _ hs => hs.tellLinkedOfMigration hquiet id move l) h
  | linkExit l id reason => cases hst; exact h.handleRemoteLinkExit hquiet l id reason
  | linkMoved l move => cases hst; exact h.handleRemoteLinkMoved hquiet l move

/-- A remote watch is reported at most once, and not after `unwatch`; once it has
been reported, neither `remoteWatches` nor the context of the watcher has it. -/
theorem remoteWatch_once {id : N} {as : List (BondsAction N)}
    (hrun : run (Bonds.step callbacks) (.init id) as = some b) {w : RefId}
    (hw : w ∈ b.remoteRefs) : ToldOnce b.toRelations w := by
  have hinit : Told (Bonds.init id).toRelations := by
    refine ⟨fun _ he => ?_, fun _ he => ?_, fun _ hw => ?_, fun _ hw => ?_, fun _ hw => ?_⟩
    · cases he
    · cases he
    · cases hw
    · cases hw
    · cases hw
  have hinv := run_invariant' (I := fun b => Sound b ∧ Told b.toRelations)
    (fun b a b' h hst => ⟨h.1.step hst, told_step hquiet h.1 h.2 hst⟩) ⟨.init id, hinit⟩ hrun
  exact hinv.2.toldOnce hw

end

/-- Callbacks that do nothing. -/
def silent : Callbacks Nat := ⟨fun _ _ => [], fun _ _ => false⟩

/-- The node of the watched actor fails and a late notification arrives; before
that, the watch of a second actor is cancelled. -/
def reportedTwice : List (BondsAction Nat) :=
  [.spawn, .watch ⟨0, 0, none, 0⟩ ⟨1, 7, none, 0⟩, .watch ⟨0, 0, none, 0⟩ ⟨1, 8, none, 0⟩,
    .unwatch 1, .failWatches 1, .watchDown 0 7 .normal, .watchDown 1 8 .normal, .failWatches 1]

theorem reportedTwice_once : ∃ b, run (Bonds.step silent) (.init 0) reportedTwice = some b ∧
    b.remoteRefs = [0, 1] ∧ ToldOnce b.toRelations 0 ∧ ToldOnce b.toRelations 1 := by
  obtain ⟨b, hrun⟩ : ∃ b, run (Bonds.step silent) (.init 0) reportedTwice = some b := ⟨_, rfl⟩
  have hrefs : b.remoteRefs = [0, 1] := by
    cases hrun
    rfl
  have honce : ∀ w ∈ b.remoteRefs, ToldOnce b.toRelations w := fun w hw =>
    remoteWatch_once (fun _ _ => rfl) hrun hw
  rw [hrefs] at honce
  exact ⟨b, hrun, hrefs, honce 0 (by decide), honce 1 (by decide)⟩

end Libeam.Proofs.RemoteWatch
