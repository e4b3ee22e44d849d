import Libeam.Proofs.RemoteWatch
/-!
# What becomes of a local watch

Every operation leaves a local watch alone or takes its entry away.  The rounds of
notifications take the entry away after the watcher has been told, once; otherwise
someone has cancelled the watch, or its watcher is gone.
-/

namespace Libeam.Proofs.WatchDelivery

open Libeam.System (ActorId)
open Supervision (ActorRef)
open Monitoring Lib WatchTables LinkTables BondsAgree RemoteWatch

variable {N : Type} {actors : Finset ActorId} {callbacks : Callbacks N} {r r' r'' : Relations N}
  {excused : Prop} {w : RefId} {ref : WatchRef}

/-! ## Deliveries -/

/-- How often the DOWN or MOVED message of a watch has been delivered. -/
def deliveries (r : Relations N) (w : RefId) : Nat := r.events.countP fun event => Delivers w event

theorem deliveries_record (r : Relations N) (event : Event N) (w : RefId) :
    deliveries { r with events := r.events ++ [event] } w =
      deliveries r w + if Delivers w event then 1 else 0 := by
  unfold deliveries
  rw [List.countP_append, List.countP_cons, List.countP_nil, Nat.zero_add]
  simp

theorem deliveries_of_events (h : r'.events = r.events) (w : RefId) :
    deliveries r' w = deliveries r w := by
  unfold deliveries
  rw [h]

theorem deliveries_unwatch (r : Relations N) (ref' : WatchRef) (w : RefId) :
    deliveries (r.unwatch actors ref') w = deliveries r w := by
  unfold deliveries
  rw [events_unwatch, List.countP_append]
  rfl

theorem cancelled_unwatch (r : Relations N) (ref' : WatchRef) :
    (r.unwatch actors ref').cancelled = r.cancelled := by
  unfold Relations.unwatch Relations.unwatchRemote Relations.unwatchLocal Relations.dropWatch
  dsimp only
  split
  · split_ifs <;> rfl
  · split
    · rfl
    · split_ifs <;> rfl

/-! ## One watch -/

/-- The reference of a watch of an actor on this node, also before it is made.  The
watcher takes its messages without an exception. -/
structure Here (callbacks : Callbacks N) (actors : Finset ActorId) (ref : WatchRef)
    (r : Relations N) : Prop where
  agree : WatchesAgree actors r
  made : ∀ ref', r.watchRefs ref.id = some ref' → ref' = ref
  here : ref.id ∉ r.remoteRefs
  quiet : r.watchRefs ref.id ≠ none → ∀ message : InfoMessage N,
    message.watch = some ref.id → callbacks.throws ref.watcherId message = false

namespace Here

theorem prunes (h : Here callbacks actors ref r) (hp : Prunes actors r r') :
    Here callbacks actors ref r' :=
  ⟨hp.agree, hp.watchRefs ▸ h.made, hp.remoteRefs ▸ h.here, hp.watchRefs ▸ h.quiet⟩

theorem eq_of_id (h : Here callbacks actors ref r) {ref' : WatchRef}
    (hmade : r.watchRefs ref'.id = some ref') (hid : ref'.id = ref.id) : ref' = ref :=
  h.made ref' (hid ▸ hmade)

theorem eq_of_watches (h : Here callbacks actors ref r) {e : WatchEntry N}
    (he : r.watches ref.id = some e) : e.watchRef = ref :=
  h.made e.watchRef (h.agree.entry ref.id e he).1

end Here

/-- What `watch` has recorded of the watch stays. -/
structure Recalls (w : RefId) (r r' : Relations N) : Prop where
  nextRef : r.nextRef ≤ r'.nextRef
  watchRefs : w < r.nextRef → r'.watchRefs w = r.watchRefs w
  remoteRefs : w < r.nextRef → (w ∈ r'.remoteRefs ↔ w ∈ r.remoteRefs)

namespace Recalls

theorem of_eq (hnext : r.nextRef ≤ r'.nextRef) (hrefs : r'.watchRefs = r.watchRefs)
    (hremote : r'.remoteRefs = r.remoteRefs) : Recalls w r r' :=
  ⟨hnext, fun _ => congrFun hrefs w, fun _ => by rw [hremote]⟩

theorem refl (r : Relations N) : Recalls w r r := of_eq le_rfl rfl rfl

theorem of_prunes (h : Prunes actors r r') : Recalls w r r' :=
  of_eq h.nextRef.ge h.watchRefs h.remoteRefs

theorem trans (h : Recalls w r r') (h' : Recalls w r' r'') : Recalls w r r'' where
  nextRef := h.nextRef.trans h'.nextRef
  watchRefs := fun hlt =>
    (h'.watchRefs (hlt.trans_le h.nextRef)).trans (h.watchRefs hlt)
  remoteRefs := fun hlt =>
    (h'.remoteRefs (hlt.trans_le h.nextRef)).trans (h.remoteRefs hlt)

end Recalls

/-- An operation leaves the watch alone, or takes its entry away. -/
structure Handles (excused : Prop) (w : RefId) (r r' : Relations N) : Prop where
  gone : r.watches w = none → r'.watches w = none ∧ deliveries r' w = deliveries r w
  there : ∀ e, r.watches w = some e →
    r'.watches w = some e ∧ deliveries r' w = deliveries r w ∨
      r'.watches w = none ∧ (deliveries r' w = deliveries r w + 1 ∨
        deliveries r' w = deliveries r w ∧ (w ∈ r'.cancelled ∨ excused))
  cancelled : r.cancelled ⊆ r'.cancelled
  recalls : Recalls w r r'

namespace Handles

theorem of_same (hwatches : r'.watches w = r.watches w)
    (hdeliveries : deliveries r' w = deliveries r w) (hcancelled : r.cancelled ⊆ r'.cancelled)
    (hrecalls : Recalls w r r') : Handles excused w r r' :=
  ⟨fun hnone => ⟨hwatches.trans hnone, hdeliveries⟩,
    fun _ he => .inl ⟨hwatches.trans he, hdeliveries⟩, hcancelled, hrecalls⟩

theorem refl (r : Relations N) : Handles excused w r r :=
  of_same rfl rfl (List.Subset.refl _) (.refl r)

theorem trans (h : Handles excused w r r') (h' : Handles excused w r' r'') :
    Handles excused w r r'' where
  gone := fun hnone => by
    obtain ⟨hnone', hd⟩ := h.gone hnone
    obtain ⟨hnone'', hd'⟩ := h'.gone hnone'
    exact ⟨hnone'', hd'.trans hd⟩
  there := fun e he => by
    rcases h.there e he with ⟨he', hd⟩ | ⟨hnone', hd⟩
    · rw [← hd]
      exact h'.there e he'
    · obtain ⟨hnone'', hd'⟩ := h'.gone hnone'
      rw [hd']
      exact .inr ⟨hnone'', hd.imp_right
        (And.imp_right (Or.imp_left fun hw => h'.cancelled hw))⟩
  cancelled := fun _ hw => h'.cancelled (h.cancelled hw)
  recalls := h.recalls.trans h'.recalls

theorem mono {excused' : Prop} (h : Handles excused w r r') (hexcused : excused → excused') :
    Handles excused' w r r' :=
  ⟨h.gone, fun e he => (h.there e he).imp_right
    (And.imp_right (Or.imp_right (And.imp_right (Or.imp_right hexcused)))), h.cancelled,
    h.recalls⟩

theorem linksOnly (h : LinksOnly r r') : Handles excused w r r' :=
  of_same (by rw [h.kept.watches]) (deliveries_of_events h.events w)
    (by rw [h.cancelled]; exact List.Subset.refl _)
    (.of_eq h.nextRef h.kept.watchRefs h.kept.remoteRefs)

end Handles

/-! ## Cancelling watches -/

/-- The watch itself is cancelled only by a caller, or when that is excused. -/
theorem handles_unwatch (h : Here callbacks actors ref r) {ref' : WatchRef}
    (hmade : r.watchRefs ref'.id = some ref')
    (hself : ref' = ref → ref.id ∈ r.cancelled ∨ excused) :
    Handles excused ref.id r (r.unwatch actors ref') := by
  have hs := strikes_unwatch h.agree hmade
  have hrecalls : Recalls ref.id r (r.unwatch actors ref') :=
    .of_prunes (prunes_unwatch h.agree hmade)
  have hd : deliveries (r.unwatch actors ref') ref.id = deliveries r ref.id :=
    deliveries_unwatch r ref' ref.id
  have hc : (r.unwatch actors ref').cancelled = r.cancelled := cancelled_unwatch r ref'
  by_cases hid : ref'.id = ref.id
  · have heq := h.eq_of_id hmade hid
    subst heq
    have hnone : (r.unwatch actors ref').watches ref'.id = none := hs.absent_self.1
    refine ⟨fun _ => ⟨hnone, hd⟩, fun _ _ => .inr ⟨hnone, .inr ⟨hd, ?_⟩⟩,
      hc ▸ List.Subset.refl _, hrecalls⟩
    rw [hc]
    exact hself rfl
  · refine .of_same ?_ hd (hc ▸ List.Subset.refl _) hrecalls
    rw [hs.watches, if_neg (Ne.symm hid)]

theorem handles_cancel (h : Here callbacks actors ref r) (v : RefId) :
    Handles excused ref.id r (r.cancel actors v) := by
  unfold Relations.cancel
  split
  · exact .refl r
  next ref' href' =>
    have hnoted : Handles excused ref.id r { r with cancelled := r.cancelled ++ [v] } :=
      .of_same rfl rfl (List.subset_append_left _ _) (.of_eq le_rfl rfl rfl)
    have hhere := h.prunes (Prunes.noted h.agree (r.cancelled ++ [v]))
    have hid := (h.agree.made v ref' href').1
    refine hnoted.trans (handles_unwatch hhere ?_ ?_)
    · change r.watchRefs ref'.id = some ref'
      rw [hid]
      exact href'
    · rintro rfl
      rw [hid]
      exact .inl (List.mem_append_right _ (List.mem_singleton.2 rfl))

theorem handles_cancels (h : Here callbacks actors ref r) (vs : List RefId) :
    Handles excused ref.id r (vs.foldl (fun r v => r.cancel actors v) r) := by
  induction vs generalizing r with
  | nil => exact .refl r
  | cons v vs ih =>
      exact (handles_cancel h v).trans (ih (h.prunes (prunes_cancel h.agree v)))

theorem deliveries_cancels (vs : List RefId) (r : Relations N) (w : RefId) :
    deliveries (vs.foldl (fun r v => r.cancel actors v) r) w = deliveries r w := by
  induction vs generalizing r with
  | nil => rfl
  | cons v vs ih =>
      rw [List.foldl_cons, ih]
      unfold Relations.cancel
      split
      · rfl
      · exact deliveries_unwatch _ _ _

theorem cancelled_cancels (vs : List RefId) (r : Relations N) :
    r.cancelled ⊆ (vs.foldl (fun r v => r.cancel actors v) r).cancelled := by
  induction vs generalizing r with
  | nil => exact List.Subset.refl _
  | cons v vs ih =>
      refine List.Subset.trans ?_ (ih (r.cancel actors v))
      unfold Relations.cancel
      split
      · exact List.Subset.refl _
      · rw [cancelled_unwatch]
        exact List.subset_append_left _ _

/-- `stop` cancels the watches of an actor for it. -/
theorem handles_unwatchAll (h : Here callbacks actors ref r) {id : ActorId}
    (hself : ref.watcherId = id → excused) :
    Handles excused ref.id r (r.unwatchAll actors id) := by
  have hrefs : ∀ ref' ∈ r.contextWatches id,
      r.watchRefs ref'.id = some ref' ∧ ref'.watcherId = id := fun ref' href' =>
    ⟨h.agree.contextMade id ref' href', h.agree.contextOwn id ref' href'⟩
  unfold Relations.unwatchAll
  generalize r.contextWatches id = refs at hrefs
  induction refs generalizing r with
  | nil => exact .refl r
  | cons ref' refs ih =>
      obtain ⟨hmade, hown⟩ := hrefs ref' (by simp)
      have hp := prunes_unwatch h.agree hmade
      have hfirst : Handles excused ref.id r (r.unwatch actors ref') :=
        handles_unwatch h hmade fun heq => .inr (hself (heq ▸ hown))
      refine hfirst.trans (ih (h.prunes hp) fun ref'' href'' => ?_)
      rw [hp.watchRefs]
      exact hrefs ref'' (by simp [href''])

/-! ## Telling watchers -/

/-- A message about something else. -/
theorem handles_inform (h : Here callbacks actors ref r) (id : ActorId) {message : InfoMessage N}
    (hother : message.watch ≠ some ref.id) :
    Handles excused ref.id r (r.inform actors callbacks id message).1 := by
  have htold : Handles excused ref.id r
      { r with events := r.events ++ [.informed id message] } := by
    refine .of_same rfl ?_ (List.Subset.refl _) (.of_eq le_rfl rfl rfl)
    rw [deliveries_record, if_neg (show ¬ Delivers ref.id (.informed id message) from hother)]
    rfl
  exact htold.trans (handles_cancels (h.prunes (Prunes.informed h.agree id message)) _)

section
variable (hgone : ref.watcherId ∉ actors → excused)
include hgone

/-- The watcher of an entry is told, and the entry is struck. -/
theorem handles_tell (h : Here callbacks actors ref r) {v : RefId} {e : WatchEntry N}
    (he : r.watches v = some e) {message : InfoMessage N}
    (hmessage : message.watch = some e.watchRef.id) {told : Relations N × Bool}
    (htold : told = if e.watchRef.watcherId ∈ actors then
      r.inform actors callbacks e.watchRef.watcherId message else (r, false)) :
    Handles excused ref.id r
      (if told.2 then told else (told.1.unwatch actors e.watchRef, false)).1 := by
  have hid := h.agree.id_of_watches he
  have hmade : r.watchRefs e.watchRef.id = some e.watchRef := by
    rw [hid]
    exact (h.agree.entry v e he).1
  by_cases hv : e.watchRef = ref
  · subst hv
    rw [← hid] at he
    split_ifs at htold with hwatcher
    · have hthrows : told.2 = false := by
        rw [htold]
        exact h.quiet (by rw [hmade]; exact nofun) message hmessage
      have hp : Prunes actors r told.1 := htold ▸ prunes_inform h.agree _ _
      have hcancelled : r.cancelled ⊆ told.1.cancelled := by
        rw [htold]
        exact cancelled_cancels (callbacks.cancels e.watchRef.watcherId message)
          { r with events := r.events ++ [.informed e.watchRef.watcherId message] }
      have hd : deliveries told.1 e.watchRef.id = deliveries r e.watchRef.id + 1 := by
        rw [htold]
        refine (deliveries_cancels _ _ _).trans ?_
        rw [deliveries_record, if_pos (show Delivers e.watchRef.id (.informed _ message) from
          hmessage)]
      have hstruck := (strikes_unwatch hp.agree (hp.watchRefs ▸ hmade)).absent_self.1
      rw [if_neg (by simp [hthrows])]
      refine ⟨fun hnone => ?_, fun _ _ => .inr ⟨hstruck, .inl ?_⟩, ?_,
        .of_prunes (hp.trans (prunes_unwatch hp.agree (hp.watchRefs ▸ hmade)))⟩
      · rw [he] at hnone
        cases hnone
      · exact (deliveries_unwatch _ _ _).trans hd
      · rw [cancelled_unwatch]
        exact hcancelled
    · subst htold
      exact handles_unwatch h hmade fun _ => .inr (hgone hwatcher)
  · have hne : e.watchRef.id ≠ ref.id := fun heq => hv (h.eq_of_id hmade heq)
    have hother : Handles excused ref.id r told.1 ∧ Prunes actors r told.1 := by
      rw [htold]
      split_ifs
      · refine ⟨handles_inform h _ ?_, prunes_inform h.agree _ _⟩
        rw [hmessage]
        exact fun heq => hne (Option.some.inj heq)
      · exact ⟨.refl r, .refl h.agree⟩
    split_ifs
    · exact hother.1
    · refine hother.1.trans (handles_unwatch (h.prunes hother.2) ?_ fun heq => absurd heq hv)
      rw [hother.2.watchRefs]
      exact hmade

theorem handles_tellWatcher (h : Here callbacks actors ref r) (actorRef : ActorRef N)
    (reason : TerminationReason) (v : RefId) :
    Handles excused ref.id r (r.tellWatcher actors callbacks actorRef reason v).1 := by
  unfold Relations.tellWatcher
  split
  · exact .refl r
  next e he => exact handles_tell hgone h he rfl rfl

theorem handles_tellWatcherOfMigration (h : Here callbacks actors ref r) (move : Move N)
    (v : RefId) :
    Handles excused ref.id r (r.tellWatcherOfMigration actors callbacks move v).1 := by
  unfold Relations.tellWatcherOfMigration
  split
  · exact .refl r
  next e he => exact handles_tell hgone h he rfl rfl

end

/-- A round over local watches. -/
theorem handles_forEach {body : Relations N → RefId → Relations N × Bool}
    (hbody : ∀ s v, Here callbacks actors ref s →
      Prunes actors s (body s v).1 ∧ Handles excused ref.id s (body s v).1)
    (h : Here callbacks actors ref r) (ws : List RefId) :
    Handles excused ref.id r (Loop.forEach body r ws).1 :=
  (Loop.forEach_invariant (I := fun s => Here callbacks actors ref s ∧ Handles excused ref.id r s)
    (fun s v _ hs => ⟨hs.1.prunes (hbody s v hs.1).1, hs.2.trans (hbody s v hs.1).2⟩)
    ⟨h, .refl r⟩).2

/-- A round over local watches that ends without an exception. -/
theorem forEach_done {body : Relations N → RefId → Relations N × Bool}
    (hbody : ∀ s v, Here callbacks actors ref s →
      Prunes actors s (body s v).1 ∧ Handles excused ref.id s (body s v).1)
    (hreach : ∀ s, Here callbacks actors ref s → (body s ref.id).2 = false →
      (body s ref.id).1.watches ref.id = none)
    (h : Here callbacks actors ref r)
    (hdone : (Loop.forEach body r (r.watchedBy.get ref.watchedId)).2 = false) :
    (Loop.forEach body r (r.watchedBy.get ref.watchedId)).1.watches ref.id = none := by
  cases he : r.watches ref.id with
  | none => exact ((handles_forEach hbody h _).gone he).1
  | some e =>
      have hmem : ref.id ∈ r.watchedBy.get ref.watchedId :=
        (h.agree.index ref.id ref.watchedId).2 ⟨e, he, by rw [h.eq_of_watches he]⟩
      refine Loop.forEach_all (I := Here callbacks actors ref)
        (P := fun v s => v = ref.id → s.watches ref.id = none)
        (fun s v hs => hs.prunes (hbody s v hs).1) (fun s v hs hround hv => ?_)
        (fun s v v' hs hv' hid => ((hbody s v hs).2.gone (hv' hid)).1) h hdone ref.id hmem rfl
      subst hv
      exact hreach s hs hround
/-- A watcher has been told of the watch, or it had no entry. -/
theorem watches_told {told : Relations N × Bool} (h : Here callbacks actors ref r)
    {e : WatchEntry N}
    (he : r.watches ref.id = some e) (hp : Prunes actors r told.1)
    (hround : (if told.2 then told else (told.1.unwatch actors e.watchRef, false)).2 = false) :
    (if told.2 then told else (told.1.unwatch actors e.watchRef, false)).1.watches ref.id =
      none := by
  split_ifs at hround ⊢ with hthrew
  · rw [hthrew] at hround
    cases hround
  · have heq := h.eq_of_watches he
    have hmade := (h.agree.entry ref.id e he).1
    rw [heq] at hmade ⊢
    exact (strikes_unwatch hp.agree (hp.watchRefs ▸ hmade)).absent_self.1

section
variable (hgone : ref.watcherId ∉ actors → excused)
include hgone

theorem handles_notifyWatchers (h : Here callbacks actors ref r) (actorRef : ActorRef N)
    (reason : TerminationReason) :
    Handles excused ref.id r (r.notifyWatchers actors callbacks actorRef reason).1 :=
  handles_forEach (fun _ v hs => ⟨prunes_tellWatcher hs.agree actorRef reason v,
    handles_tellWatcher hgone hs actorRef reason v⟩) h _

theorem handles_notifyWatchersOfMigration (h : Here callbacks actors ref r) (actorId : ActorId)
    (move : Move N) :
    Handles excused ref.id r (r.notifyWatchersOfMigration actors callbacks actorId move).1 :=
  handles_forEach (fun _ v hs => ⟨prunes_tellWatcherOfMigration hs.agree move v,
    handles_tellWatcherOfMigration hgone hs move v⟩) h _

/-- Every watch of the actor has been dealt with. -/
theorem notifyWatchers_done (h : Here callbacks actors ref r) {actorRef : ActorRef N}
    (hwatched : ref.watchedId = actorRef.id) {reason : TerminationReason}
    (hdone : (r.notifyWatchers actors callbacks actorRef reason).2 = false) :
    (r.notifyWatchers actors callbacks actorRef reason).1.watches ref.id = none := by
  unfold Relations.notifyWatchers at hdone ⊢
  rw [← hwatched] at hdone ⊢
  refine forEach_done (fun s v hs =>
    ⟨prunes_tellWatcher hs.agree actorRef reason v,
      handles_tellWatcher hgone hs actorRef reason v⟩) (fun s hs hround => ?_) h hdone
  unfold Relations.tellWatcher at hround ⊢
  split at hround
  next hnone => exact hnone
  next e he =>
    exact watches_told hs he (prunes_sendDownMessage hs.agree _ _ _) hround

theorem notifyWatchersOfMigration_done (h : Here callbacks actors ref r) {move : Move N}
    (hdone : (r.notifyWatchersOfMigration actors callbacks ref.watchedId move).2 = false) :
    (r.notifyWatchersOfMigration actors callbacks ref.watchedId move).1.watches ref.id =
      none := by
  refine forEach_done (fun s v hs =>
    ⟨prunes_tellWatcherOfMigration hs.agree move v,
      handles_tellWatcherOfMigration hgone hs move v⟩) (fun s hs hround => ?_) h hdone
  unfold Relations.tellWatcherOfMigration at hround ⊢
  split at hround
  next hnone => exact hnone
  next e he =>
    exact watches_told hs he (prunes_sendMovedMessageToWatcher hs.agree _ _) hround

end

/-! ## Watches of actors on other nodes, and links -/

theorem handles_endRemoteWatch (h : Here callbacks actors ref r) {e : RemoteWatchEntry N}
    (he : Genuine r e) {message : InfoMessage N} (hmessage : message.watch = some e.watchRef.id) :
    Handles excused ref.id r (r.endRemoteWatch actors callbacks e message).1 := by
  have hne : e.watchRef.id ≠ ref.id := fun heq => h.here (heq ▸ he.2.2)
  have hother : message.watch ≠ some ref.id := by
    rw [hmessage]
    exact fun heq => hne (Option.some.inj heq)
  have hs := strikes_remote h.agree he
  have hcancelled : ∀ (r : Relations N) (id : ActorId) (w : RefId),
      (r.dropWatch actors id w).cancelled = r.cancelled := fun r id w => by
    unfold Relations.dropWatch
    split_ifs <;> rfl
  have hdrop : Handles excused ref.id r ({ r with
      remoteWatches := r.remoteWatches.filter fun e' => e'.watchRef.id ≠ e.watchRef.id }.dropWatch
      actors e.watcherRef.id e.watchRef.id) := by
    refine .of_same ?_ (deliveries_of_events ?_ _) ?_
      (.of_eq hs.nextRef.ge hs.watchRefs hs.remoteRefs)
    · rw [hs.watches, if_neg (Ne.symm hne)]
    · rw [(dropWatch_tables _ _ _ _).2.2.2.2.2.2]
    · rw [hcancelled]
      exact List.Subset.refl _
  unfold Relations.endRemoteWatch
  dsimp only
  split_ifs
  · refine hdrop.trans (handles_inform ⟨h.agree.strikes hs, ?_, ?_, ?_⟩ _ hother)
    · rw [hs.watchRefs]
      exact h.made
    · rw [hs.remoteRefs]
      exact h.here
    · rw [hs.watchRefs]
      exact h.quiet
  · exact .of_same rfl rfl (List.Subset.refl _) (.of_eq le_rfl rfl rfl)

theorem handles_handleRemoteDown (h : Here callbacks actors ref r) (v : RefId)
    (watchedActorId : ActorId)
    (reason : TerminationReason) :
    Handles excused ref.id r
      (r.handleRemoteDown actors callbacks v watchedActorId reason).1 := by
  unfold Relations.handleRemoteDown
  split
  · exact .refl r
  next e he =>
    exact handles_endRemoteWatch h (h.agree.remote e (getRemoteWatch_some he).1) rfl

theorem handles_handleRemoteWatcherMoved (h : Here callbacks actors ref r) (v : RefId)
    (move : Move N) :
    Handles excused ref.id r (r.handleRemoteWatcherMoved actors callbacks v move).1 := by
  unfold Relations.handleRemoteWatcherMoved
  split
  · exact .refl r
  next e he =>
    exact handles_endRemoteWatch h (h.agree.remote e (getRemoteWatch_some he).1) rfl

theorem handles_handleNodeFailureForWatches [DecidableEq N] (h : Here callbacks actors ref r)
    (deadNodeId : N) :
    Handles excused ref.id r (r.handleNodeFailureForWatches actors callbacks deadNodeId).1 := by
  refine (Loop.forEach_invariant (I := fun s =>
    Prunes actors r s ∧ Handles excused ref.id r s) (fun s e he hs => ?_)
    ⟨.refl h.agree, .refl r⟩).2
  have hgenuine := hs.1.genuine (h.agree.remote e (List.mem_of_mem_filter he))
  exact ⟨hs.1.trans (prunes_endRemoteWatch hs.1.agree hgenuine _),
    hs.2.trans (handles_endRemoteWatch (h.prunes hs.1) hgenuine rfl)⟩

theorem handles_exitLinked (h : Here callbacks actors ref r) (linkRef : LinkRef)
    (targetRef exitedRef : ActorRef N) (reason : TerminationReason) (message : String) :
    Handles excused ref.id r
      (r.exitLinked actors callbacks linkRef targetRef exitedRef reason message).relations := by
  unfold Relations.exitLinked
  split_ifs
  · exact handles_inform h _ nofun
  · exact .refl r
  · exact .refl r
  · exact .refl r

theorem Here.linksOnly (h : Here callbacks actors ref r) (hlinks : LinksOnly r r') :
    Here callbacks actors ref r' :=
  ⟨h.agree.of_kept hlinks.kept hlinks.nextRef, hlinks.kept.watchRefs ▸ h.made,
    hlinks.kept.remoteRefs ▸ h.here, hlinks.kept.watchRefs ▸ h.quiet⟩

theorem handles_tellLinked (h : Here callbacks actors ref r) (actorRef : ActorRef N)
    (reason : TerminationReason) (l : RefId) :
    Handles excused ref.id r
      (r.tellLinked actors callbacks actorRef reason l).relations := by
  unfold Relations.tellLinked
  split
  next e he =>
    have hlinks : LinksOnly r (r.unlink actors e.linkRef) := .unlink r e.linkRef
    exact (Handles.linksOnly hlinks).trans (handles_exitLinked (h.linksOnly hlinks) _ _ _ _ _)
  next =>
    split
    · exact .linksOnly (.forgetRemoteLink r _ _)
    · exact .refl r

theorem handles_tellLinkedOfMigration (h : Here callbacks actors ref r) (actorId : ActorId)
    (move : Move N) (l : RefId) :
    Handles excused ref.id r (r.tellLinkedOfMigration actors callbacks actorId move l).1 := by
  unfold Relations.tellLinkedOfMigration
  split
  next e he =>
    have htold : Handles excused ref.id r (if (Relations.otherEnd e actorId).id ∈ actors then
        r.inform actors callbacks (Relations.otherEnd e actorId).id
          (.moved none (some e.linkRef) move.actorRef move.oldNodeId move.newNodeId
            move.newActorId)
        else (r, false)).1 := by
      split_ifs
      · exact handles_inform h _ nofun
      · exact .refl r
    dsimp only
    split_ifs at htold ⊢
    · exact htold
    · exact htold.trans (.linksOnly (.unlink _ _))
    · exact htold
    · exact .linksOnly (.unlink _ _)
  next =>
    split
    · exact .linksOnly (.forgetRemoteLink r _ _)
    · exact .refl r

theorem handles_notifyLinkedActorsOfMigration (h : Here callbacks actors ref r)
    (hl : Agree actors r)
    (actorId : ActorId) (move : Move N) :
    Handles excused ref.id r
      (r.notifyLinkedActorsOfMigration actors callbacks actorId move).1 := by
  refine (Loop.forEach_invariant (I := fun s =>
    Keeps actors r s ∧ Handles excused ref.id r s) (fun s l hmem hs => ?_)
    ⟨.refl hl, .refl r⟩).2
  have hconcerns : s.Concerns actorId l := by
    obtain ⟨linkRef, hmade, hends⟩ := hl.concerns hmem
    exact ⟨linkRef, hs.1.linkRefs ▸ hmade, hs.1.localLinks ▸ hends⟩
  have hhere : Here callbacks actors ref s :=
    ⟨hs.1.agree.watches, hs.1.watchRefs ▸ h.made, hs.1.remoteRefs ▸ h.here,
      hs.1.watchRefs ▸ h.quiet⟩
  exact ⟨hs.1.trans (hs.1.agree.tellLinkedOfMigration actorId move hconcerns),
    hs.2.trans (handles_tellLinkedOfMigration hhere actorId move l)⟩

theorem handles_handleRemoteLinkExit (h : Here callbacks actors ref r) (l : RefId)
    (exitedActorId : ActorId) (reason : TerminationReason) :
    Handles excused ref.id r
      (r.handleRemoteLinkExit actors callbacks l exitedActorId reason).relations := by
  unfold Relations.handleRemoteLinkExit
  split
  · exact .refl r
  next e _ =>
    have hlinks : LinksOnly r ((r.forgetRemoteLink l e.localActorRef.id).dropLink actors
        e.localActorRef.id l) := (LinksOnly.forgetRemoteLink r l _).trans (.dropLink _ _ _)
    exact (Handles.linksOnly hlinks).trans (handles_exitLinked (h.linksOnly hlinks) _ _ _ _ _)

theorem handles_handleRemoteLinkMoved (h : Here callbacks actors ref r) (l : RefId)
    (move : Move N) :
    Handles excused ref.id r (r.handleRemoteLinkMoved actors callbacks l move).1 := by
  unfold Relations.handleRemoteLinkMoved
  split
  · exact .refl r
  next e _ =>
    have hforget := LinksOnly.forgetRemoteLink r l e.localActorRef.id
    have hlinks : LinksOnly r ((r.forgetRemoteLink l e.localActorRef.id).dropLink actors
        e.localActorRef.id l) := hforget.trans (.dropLink _ _ _)
    dsimp only
    split_ifs
    · exact (Handles.linksOnly hlinks).trans (handles_inform (h.linksOnly hlinks) _ nofun)
    · exact .linksOnly hforget

/-! ## New watches -/

theorem handles_establishWatch (watcherRef watchedRef : ActorRef N) (hne : w ≠ r.nextRef) :
    Handles excused w r (r.establishWatch actors watcherRef watchedRef) := by
  obtain ⟨t₁, -, -, t₄, t₅, t₆, t₇⟩ := establishWatch_tables actors r watcherRef watchedRef
  refine .of_same ?_ (deliveries_of_events t₇ _) ?_
    ⟨t₆ ▸ Nat.le_succ _, fun _ => by rw [t₄, Function.update_of_ne hne], fun _ => by rw [t₅]⟩
  · rw [t₁, Function.update_of_ne hne]
  · unfold Relations.establishWatch Relations.putWatch
    dsimp only
    split_ifs <;> exact List.Subset.refl _

theorem handles_setupRemoteWatch (watcherRef watchedRef : ActorRef N) (hne : w ≠ r.nextRef) :
    Handles excused w r (r.setupRemoteWatch actors watcherRef watchedRef) := by
  obtain ⟨t₁, -, -, t₄, t₅, t₆, t₇⟩ := setupRemoteWatch_tables actors r watcherRef watchedRef
  refine .of_same (by rw [t₁]) (deliveries_of_events t₇ _) ?_ ⟨t₆ ▸ Nat.le_succ _,
    fun _ => by rw [t₄, Function.update_of_ne hne], fun _ => by simp [t₅, hne]⟩
  unfold Relations.setupRemoteWatch Relations.putWatch
  dsimp only
  split_ifs <;> exact List.Subset.refl _

theorem lt_nextRef_watch [DecidableEq N] (h : WatchesAgree actors r) (nodeId : N)
    (watcherRef watchedRef : ActorRef N) :
    r.nextRef < (r.watch actors callbacks nodeId watcherRef watchedRef).1.nextRef := by
  unfold Relations.watch
  split_ifs
  · rw [(setupRemoteWatch_tables _ _ _ _).2.2.2.2.2.1]
    exact Nat.lt_succ_self _
  · have hnew : (r.establishWatch actors watcherRef watchedRef).nextRef = r.nextRef + 1 :=
      (establishWatch_tables actors r watcherRef watchedRef).2.2.2.2.2.1
    unfold Relations.watchLocal
    dsimp only
    split_ifs
    · exact hnew ▸ Nat.lt_succ_self _
    · rw [(prunes_sendDownMessage (agree_establishWatch h watcherRef watchedRef) _ _ _).nextRef,
        hnew]
      exact Nat.lt_succ_self _

/-- Another watch is made. -/
theorem handles_watch [DecidableEq N] (h : Here callbacks actors ref r) (nodeId : N)
    (watcherRef watchedRef : ActorRef N) (hne : ref.id ≠ r.nextRef) :
    Handles excused ref.id r
      (r.watch actors callbacks nodeId watcherRef watchedRef).1 := by
  unfold Relations.watch
  split_ifs
  · exact handles_setupRemoteWatch watcherRef watchedRef hne
  · have hnew : Handles excused ref.id r (r.establishWatch actors watcherRef watchedRef) :=
      handles_establishWatch watcherRef watchedRef hne
    obtain ⟨-, -, -, t₄, t₅, -, -⟩ := establishWatch_tables actors r watcherRef watchedRef
    have hhere : Here callbacks actors ref (r.establishWatch actors watcherRef watchedRef) :=
      ⟨agree_establishWatch h.agree watcherRef watchedRef,
        by rw [t₄, Function.update_of_ne hne]; exact h.made, by rw [t₅]; exact h.here,
        by rw [t₄, Function.update_of_ne hne]; exact h.quiet⟩
    unfold Relations.watchLocal Relations.sendDownMessage
    dsimp only
    split_ifs
    · exact hnew
    · exact hnew.trans (handles_inform hhere _ fun heq => hne (Option.some.inj heq).symm)
    · exact hnew

end Libeam.Proofs.WatchDelivery
