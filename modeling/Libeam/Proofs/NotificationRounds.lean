import Libeam.Proofs.RemoteWatch
/-!
# Watches that are cancelled during a round

A callback may cancel other watches while a round of notifications goes on.  The
rounds over local watches look each entry up before its watcher is told, so that a
cancelled watch stays silent.  The round after the failure of a node goes over
entries that it has collected, and tells the watcher of a cancelled one all the same.
-/

namespace Libeam.Proofs.NotificationRounds

open Libeam.System (ActorId)
open Supervision (ActorRef)
open Monitoring Lib Lib.Transition WatchTables BondsAgree RemoteWatch

variable {N : Type} {actors : Finset ActorId} {callbacks : Callbacks N} {r r' r'' : Relations N}

/-- After what is past, nothing is delivered for a watch that has been cancelled. -/
def OnTime : List (Event N) → List (Event N) → Prop
  | _, [] => True
  | past, event :: said =>
      (∀ w, Delivers w event → .unwatched w ∉ past) ∧ OnTime (past ++ [event]) said

/-- The history goes on, on time. -/
def Timely (r r' : Relations N) : Prop :=
  ∃ said, r'.events = r.events ++ said ∧ OnTime r.events said

theorem onTime_append (past said said' : List (Event N)) :
    OnTime past (said ++ said') ↔ OnTime past said ∧ OnTime (past ++ said) said' := by
  induction said generalizing past with
  | nil => simp [OnTime]
  | cons event said ih =>
      rw [List.cons_append, OnTime, OnTime, ih, and_assoc, List.append_assoc,
        List.singleton_append]

/-- Events that deliver nothing. -/
theorem onTime_of_silent {said : List (Event N)}
    (hsilent : ∀ event ∈ said, ∀ w, ¬ Delivers w event) (past : List (Event N)) :
    OnTime past said := by
  induction said generalizing past with
  | nil => exact trivial
  | cons event said ih =>
      refine ⟨fun w hd => absurd hd (hsilent event (by simp) w), ih (fun event' hmem => ?_) _⟩
      exact hsilent event' (by simp [hmem])

theorem OnTime.not_cancelled {past said : List (Event N)} (h : OnTime past said)
    {event : Event N} (hmem : event ∈ said) {w : RefId} (hd : Delivers w event) :
    Event.unwatched w ∉ past := by
  induction said generalizing past with
  | nil => cases hmem
  | cons event' said ih =>
      rcases List.mem_cons.1 hmem with rfl | hmem
      · exact h.1 w hd
      · exact fun hpast => ih h.2 hmem (List.mem_append_left _ hpast)

theorem Timely.refl (r : Relations N) : Timely r r := ⟨[], by simp, trivial⟩

theorem Timely.trans (h : Timely r r') (h' : Timely r' r'') : Timely r r'' := by
  obtain ⟨said, heq, htime⟩ := h
  obtain ⟨said', heq', htime'⟩ := h'
  refine ⟨said ++ said', by rw [heq', heq, List.append_assoc], ?_⟩
  rw [heq] at htime'
  exact (onTime_append _ _ _).2 ⟨htime, htime'⟩

/-! ## What callbacks add to the history -/

/-- The watches among these that `unwatch` is called for. -/
def cancelled (r : Relations N) (ws : List RefId) : List (Event N) :=
  (ws.filter fun w => (r.watchRefs w).isSome).map .unwatched

theorem mem_cancelled {ws : List RefId} {w : RefId} :
    Event.unwatched w ∈ cancelled r ws ↔ w ∈ ws ∧ (r.watchRefs w).isSome := by
  unfold cancelled
  simp

theorem cancelled_silent {ws : List RefId} : ∀ event ∈ cancelled r ws, ∀ w, ¬ Delivers w event := by
  intro event hmem w hd
  obtain ⟨v, -, rfl⟩ := List.mem_map.1 hmem
  exact hd

theorem events_cancels (h : WatchesAgree actors r) (ws : List RefId) :
    (ws.foldl (fun r w => r.cancel actors w) r).events = r.events ++ cancelled r ws := by
  induction ws generalizing r with
  | nil => simp [cancelled]
  | cons w ws ih =>
      have hp := prunes_cancel h w
      have hsame : ∀ vs, cancelled (r.cancel actors w) vs = cancelled r vs := fun vs => by
        unfold cancelled
        rw [hp.watchRefs]
      rw [List.foldl_cons, ih hp.agree, hsame]
      cases hw : r.watchRefs w with
      | none => simp [Relations.cancel, hw, cancelled]
      | some ref =>
          have hid := (h.made w ref hw).1
          simp [Relations.cancel, hw, cancelled, events_unwatch, hid]

theorem events_inform (h : WatchesAgree actors r) (id : ActorId) (message : InfoMessage N) :
    (r.inform actors callbacks id message).1.events =
      r.events ++ .informed id message :: cancelled r (callbacks.cancels id message) := by
  have hp := Prunes.informed h id message
  refine (events_cancels hp.agree _).trans ?_
  rw [List.append_assoc, List.singleton_append]
  rfl

/-- A watcher is told of a watch that has not been cancelled. -/
theorem timely_inform (h : WatchesAgree actors r) (id : ActorId) {message : InfoMessage N}
    (hlive : ∀ w, message.watch = some w → .unwatched w ∉ r.events) :
    Timely r (r.inform actors callbacks id message).1 :=
  ⟨_, events_inform h id message, hlive, onTime_of_silent cancelled_silent _⟩

theorem timely_unwatch (r : Relations N) (ref : WatchRef) : Timely r (r.unwatch actors ref) :=
  ⟨_, events_unwatch actors r ref, fun _ hd => hd.elim, trivial⟩

/-! ## Rounds over local watches -/

/-- A watch that has been cancelled has no entry. -/
def Settled (r : Relations N) : Prop := ∀ w, Event.unwatched w ∈ r.events → Absent r w

theorem Settled.prunes (h : Settled r) (hp : Prunes actors r r') : Settled r' := by
  intro w hw
  rcases hp.unwatched w hw with hold | hnew
  · exact hp.absent w (h w hold)
  · exact hnew.2

theorem Settled.of_watches (h : Settled r) {w : RefId} {e : WatchEntry N}
    (he : r.watches w = some e) : Event.unwatched w ∉ r.events := by
  intro hw
  rw [(h w hw).1] at he
  cases he

/-- The watcher of an entry has been told, and the watch is cancelled. -/
theorem timely_tell {told : Relations N × Bool} (htold : Timely r told.1) (ref : WatchRef) :
    Timely r (if told.2 then told else (told.1.unwatch actors ref, false)).1 := by
  split_ifs
  · exact htold
  · exact htold.trans (timely_unwatch _ _)

theorem timely_tellWatcher (h : WatchesAgree actors r) (hs : Settled r) (actorRef : ActorRef N)
    (reason : TerminationReason) (w : RefId) :
    Timely r (r.tellWatcher actors callbacks actorRef reason w).1 := by
  unfold Relations.tellWatcher
  split
  · exact .refl r
  next e he =>
    refine timely_tell ?_ _
    unfold Relations.sendDownMessage
    split_ifs
    · refine timely_inform h _ fun v hv => ?_
      obtain rfl := Option.some.inj hv
      rw [h.id_of_watches he]
      exact hs.of_watches he
    · exact .refl r

theorem timely_tellWatcherOfMigration (h : WatchesAgree actors r) (hs : Settled r)
    (move : Move N) (w : RefId) :
    Timely r (r.tellWatcherOfMigration actors callbacks move w).1 := by
  unfold Relations.tellWatcherOfMigration
  split
  · exact .refl r
  next e he =>
    refine timely_tell ?_ _
    unfold Relations.sendMovedMessageToWatcher
    split_ifs
    · refine timely_inform h _ fun v hv => ?_
      obtain rfl := Option.some.inj hv
      rw [h.id_of_watches he]
      exact hs.of_watches he
    · exact .refl r

/-- A loop over watches is on time when every round of it is. -/
theorem timely_forEach {body : Relations N → RefId → Relations N × Bool}
    (h : WatchesAgree actors r) (hs : Settled r)
    (hbody : ∀ s w, WatchesAgree actors s → Settled s →
      Prunes actors s (body s w).1 ∧ Timely s (body s w).1) (ws : List RefId) :
    Timely r (Loop.forEach body r ws).1 :=
  (Loop.forEach_invariant (I := fun s => (WatchesAgree actors s ∧ Settled s) ∧ Timely r s)
    (fun s w _ hi =>
      have hround := hbody s w hi.1.1 hi.1.2
      ⟨⟨hround.1.agree, hi.1.2.prunes hround.1⟩, hi.2.trans hround.2⟩)
    ⟨⟨h, hs⟩, .refl r⟩).2

theorem timely_notifyWatchers (h : WatchesAgree actors r) (hs : Settled r)
    (actorRef : ActorRef N) (reason : TerminationReason) :
    Timely r (r.notifyWatchers actors callbacks actorRef reason).1 :=
  timely_forEach h hs (fun _ w hr hs =>
    ⟨prunes_tellWatcher hr actorRef reason w, timely_tellWatcher hr hs actorRef reason w⟩) _

theorem timely_notifyWatchersOfMigration (h : WatchesAgree actors r) (hs : Settled r)
    (actorId : ActorId) (move : Move N) :
    Timely r (r.notifyWatchersOfMigration actors callbacks actorId move).1 :=
  timely_forEach h hs (fun _ w hr hs =>
    ⟨prunes_tellWatcherOfMigration hr move w, timely_tellWatcherOfMigration hr hs move w⟩) _

/-! ## The round after the failure of a node -/

/-- The entries whose watchers are told, in a round that the first exception ends. -/
def reached (actors : Finset ActorId) (callbacks : Callbacks N) :
    List (RemoteWatchEntry N) → List (RemoteWatchEntry N)
  | [] => []
  | e :: es =>
      if e.watcherRef.id ∈ actors then
        if callbacks.throws e.watcherRef.id (Relations.nodeFailureDown e) then [e]
        else e :: reached actors callbacks es
      else reached actors callbacks es

/-- What telling the watcher of an entry adds to the history. -/
def notice (callbacks : Callbacks N) (r : Relations N) (e : RemoteWatchEntry N) :
    List (Event N) :=
  .informed e.watcherRef.id (Relations.nodeFailureDown e) ::
    cancelled r (callbacks.cancels e.watcherRef.id (Relations.nodeFailureDown e))

/-- The callback of an earlier entry does not cancel the watch of a later one. -/
def Apart (callbacks : Callbacks N) (e e' : RemoteWatchEntry N) : Prop :=
  e'.watchRef.id ∉ callbacks.cancels e.watcherRef.id (Relations.nodeFailureDown e)

instance (callbacks : Callbacks N) : DecidableRel (Apart callbacks) := fun _ _ =>
  inferInstanceAs (Decidable (¬ _))

theorem reached_sublist (actors : Finset ActorId) (callbacks : Callbacks N)
    (es : List (RemoteWatchEntry N)) : (reached actors callbacks es).Sublist es := by
  induction es with
  | nil => exact .slnil
  | cons e es ih =>
      unfold reached
      split_ifs
      · exact (List.nil_sublist es).cons_cons e
      · exact ih.cons_cons e
      · exact ih.cons e

theorem endRemoteWatch_told (callbacks : Callbacks N) (h : WatchesAgree actors r)
    {e : RemoteWatchEntry N}
    (he : Genuine r e) (hwatcher : e.watcherRef.id ∈ actors) :
    (r.endRemoteWatch actors callbacks e (Relations.nodeFailureDown e)).1.events =
        r.events ++ notice callbacks r e ∧
      (r.endRemoteWatch actors callbacks e (Relations.nodeFailureDown e)).2 =
        callbacks.throws e.watcherRef.id (Relations.nodeFailureDown e) := by
  have hstruck := strikes_remote h he
  unfold Relations.endRemoteWatch
  dsimp only
  rw [if_pos hwatcher]
  refine ⟨?_, rfl⟩
  rw [events_inform (h.strikes hstruck), (dropWatch_tables _ _ _ _).2.2.2.2.2.2]
  unfold notice cancelled
  rw [hstruck.watchRefs]

theorem endRemoteWatch_gone {e : RemoteWatchEntry N} (hwatcher : e.watcherRef.id ∉ actors)
    {message : InfoMessage N} :
    r.endRemoteWatch actors callbacks e message =
      ({ r with remoteWatches := r.remoteWatches.filter fun e' =>
        e'.watchRef.id ≠ e.watchRef.id }, false) := by
  unfold Relations.endRemoteWatch
  exact if_neg hwatcher

/-- The history of the round, by its entries. -/
theorem events_round (callbacks : Callbacks N) (h : WatchesAgree actors r)
    {es : List (RemoteWatchEntry N)}
    (hes : ∀ e ∈ es, Genuine r e) :
    (Loop.forEach (fun r e => r.endRemoteWatch actors callbacks e
      (Relations.nodeFailureDown e)) r es).1.events =
      r.events ++ (reached actors callbacks es).flatMap (notice callbacks r) := by
  induction es generalizing r with
  | nil => simp [reached]
  | cons e es ih =>
      have hp : Prunes actors r (r.endRemoteWatch actors callbacks e
        (Relations.nodeFailureDown e)).1 := prunes_endRemoteWatch h (hes e (by simp)) _
      have hrest := ih hp.agree fun e' he' => hp.genuine (hes e' (by simp [he']))
      have hsame : notice callbacks (r.endRemoteWatch actors callbacks e
          (Relations.nodeFailureDown e)).1 = notice callbacks r := by
        funext e'
        unfold notice cancelled
        rw [hp.watchRefs]
      rw [hsame] at hrest
      rw [Loop.forEach_cons, reached]
      by_cases hwatcher : e.watcherRef.id ∈ actors
      · obtain ⟨hevents, hthrows⟩ := endRemoteWatch_told callbacks h (hes e (by simp))
          hwatcher
        rw [hthrows, if_pos hwatcher]
        split_ifs
        · rw [hevents]
          simp
        · rw [hrest, hevents]
          simp
      · have hskip : (r.endRemoteWatch actors callbacks e (Relations.nodeFailureDown e)).2 =
            false := by rw [endRemoteWatch_gone hwatcher]
        rw [hskip, if_neg hwatcher, if_neg (by simp), hrest, endRemoteWatch_gone hwatcher]

theorem onTime_notice (callbacks : Callbacks N) (r : Relations N) {past : List (Event N)}
    {e : RemoteWatchEntry N} (hpast : Event.unwatched e.watchRef.id ∉ past) :
    OnTime past (notice callbacks r e) := by
  refine ⟨fun w hd => ?_, onTime_of_silent cancelled_silent _⟩
  obtain rfl := Option.some.inj hd
  exact hpast

/-- The round is on time just when its callbacks cancel no later entry of it. -/
theorem onTime_notices (past : List (Event N)) {es : List (RemoteWatchEntry N)}
    (hmade : ∀ e ∈ es, (r.watchRefs e.watchRef.id).isSome)
    (hpast : ∀ e ∈ es, Event.unwatched e.watchRef.id ∉ past) :
    OnTime past (es.flatMap (notice callbacks r)) ↔ es.Pairwise (Apart callbacks) := by
  induction es generalizing past with
  | nil => exact iff_of_true trivial .nil
  | cons e es ih =>
      have hfirst := onTime_notice callbacks r (hpast e (by simp))
      have hapart : ∀ e' ∈ es, Event.unwatched e'.watchRef.id ∉ past ++ notice callbacks r e ↔
          Apart callbacks e e' := fun e' he' => by
        rw [List.mem_append, not_or, and_iff_right (hpast e' (by simp [he']))]
        unfold notice Apart
        rw [List.mem_cons, mem_cancelled, and_iff_left (hmade e' (by simp [he']))]
        simp
      have hrest := ih (past ++ notice callbacks r e) fun e' he' => hmade e' (by simp [he'])
      rw [List.flatMap_cons, onTime_append, and_iff_right hfirst, List.pairwise_cons]
      constructor
      · intro htime
        have hlater : ∀ e' ∈ es, Event.unwatched e'.watchRef.id ∉ past ++ notice callbacks r e :=
          fun e' he' => htime.not_cancelled
            (List.mem_flatMap.2 ⟨e', he', List.mem_cons_self ..⟩) rfl
        exact ⟨fun e' he' => (hapart e' he').1 (hlater e' he'), (hrest hlater).1 htime⟩
      · rintro ⟨hfirst, hlater⟩
        exact (hrest fun e' he' => (hapart e' he').2 (hfirst e' he')).2 hlater

theorem timely_handleNodeFailureForWatches [DecidableEq N] (h : WatchesAgree actors r)
    (hs : Settled r) (deadNodeId : N) :
    Timely r (r.handleNodeFailureForWatches actors callbacks deadNodeId).1 ↔
      (reached actors callbacks
        (r.remoteWatches.filter fun e => e.watchedNodeId = deadNodeId)).Pairwise
        (Apart callbacks) := by
  have hes : ∀ e ∈ r.remoteWatches.filter (fun e => decide (e.watchedNodeId = deadNodeId)),
      Genuine r e := fun e he => h.remote e (List.mem_of_mem_filter he)
  have hevents := events_round callbacks h hes
  have htold : ∀ e ∈ reached actors callbacks
      (r.remoteWatches.filter fun e => decide (e.watchedNodeId = deadNodeId)),
      e ∈ r.remoteWatches := fun e he =>
    List.mem_of_mem_filter ((reached_sublist actors callbacks _).subset he)
  rw [← onTime_notices (r := r) r.events
    (fun e he => by rw [(h.remote e (htold e he)).1]; rfl)
    fun e he hw => (hs _ hw).2 e (htold e he) rfl]
  constructor
  · rintro ⟨said, heq, htime⟩
    rwa [List.append_cancel_left (heq.symm.trans hevents)] at htime
  · exact fun htime => ⟨_, hevents, htime⟩

/-! ## Rounds in runs -/

section
variable [DecidableEq N] {id : N} {as : List (BondsAction N)} {b : Bonds N}
  {earlier : Callbacks N}

/-- After `unwatch` has returned, no round over local watches delivers anything for the
watch, and the round after a failure of a node does not either, just when no callback
of it cancels a watch whose turn is yet to come. -/
theorem rounds_timely (hrun : run (Bonds.step earlier) (.init id) as = some b) :
    (∀ actorRef reason,
      Timely b.toRelations
        (b.toRelations.notifyWatchers b.actors callbacks actorRef reason).1) ∧
    (∀ actorId move,
      Timely b.toRelations
        (b.toRelations.notifyWatchersOfMigration b.actors callbacks actorId move).1) ∧
    ∀ deadNodeId,
      Timely b.toRelations
          (b.toRelations.handleNodeFailureForWatches b.actors callbacks deadNodeId).1 ↔
        (reached b.actors callbacks
          (b.remoteWatches.filter fun e => e.watchedNodeId = deadNodeId)).Pairwise
          (Apart callbacks) := by
  have hsound := Sound.run hrun
  have hs : Settled b.toRelations := fun w hw => (hsound.settled w hw).2
  refine ⟨fun actorRef reason => ?_, fun actorId move => ?_, fun deadNodeId => ?_⟩
  · exact timely_notifyWatchers hsound.agree.watches hs actorRef reason
  · exact timely_notifyWatchersOfMigration hsound.agree.watches hs actorId move
  · exact timely_handleNodeFailureForWatches hsound.agree.watches hs deadNodeId

end

/-- The watcher of the first watch cancels the second. -/
def cancelsSecond : Callbacks Nat :=
  ⟨fun _ message => if message.watch = some 0 then [1] else [], fun _ _ => false⟩

/-- An actor watches two actors of one node. -/
def twoWatches : List (BondsAction Nat) :=
  [.spawn, .watch ⟨0, 0, none, 0⟩ ⟨1, 7, none, 0⟩, .watch ⟨0, 0, none, 0⟩ ⟨1, 8, none, 0⟩]

theorem rounds_timely_twoWatches :
    ∃ b, run (Bonds.step silent) (.init 0) twoWatches = some b ∧
      Timely b.toRelations
        (b.toRelations.handleNodeFailureForWatches b.actors silent 1).1 := by
  obtain ⟨b, hrun⟩ : ∃ b, run (Bonds.step silent) (.init 0) twoWatches = some b := ⟨_, rfl⟩
  refine ⟨b, hrun, ((rounds_timely hrun).2.2 1).2 ?_⟩
  cases hrun
  decide

/-- When the node fails, the second watch is reported after it has been cancelled. -/
theorem cancelled_reported :
    ∃ b, run (Bonds.step silent) (.init 0) twoWatches = some b ∧
      ¬ Timely b.toRelations
        (b.toRelations.handleNodeFailureForWatches b.actors cancelsSecond 1).1 := by
  refine ⟨_, rfl, ?_⟩
  rintro ⟨said, heq, htime⟩
  have hsaid : said = _ := List.append_cancel_left heq.symm
  rw [hsaid] at htime
  exact htime.2.2.1 1 rfl (by decide)

end Libeam.Proofs.NotificationRounds
