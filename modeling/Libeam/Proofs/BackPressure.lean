import Libeam.Proofs.Retention
/-!
# Back-pressure of a ProducerConsumer

A `ProducerConsumer` asks upstream for more as soon as it has received events, whether
or not it could pass them on.  What it retains is bounded by what it asks for only as
long as the demand downstream takes what arrives.
-/

namespace Libeam.Proofs.BackPressure

open Lib GenStage OutletMoves
open DemandDispatch (splits_dispatch)
open PartitionDispatch Retention
open Supervision (ActorRef)

variable {E E' S : Type}

/-- The events of the first batch. -/
def front : List (Dispatched E) → List E
  | [] => []
  | b :: _ => b.events

/-- The events that an act dispatches; those that are broadcast count once. -/
def once : Kind → Act E → List E
  | .broadcast, .sent batches => front batches
  | _, .sent batches => eventsOf batches
  | _, _ => []

def dispatched (k : Kind) (t : Trace E) : List E := t.flatMap (once k)

/-- The sum of `maxDemand` over the upstream subscriptions. -/
def upstreamMax (c : ProducerConsumerStage E E' S) : Int :=
  (c.upstreamSubs.map fun sub => (sub.maxDemand : Int)).sum

/-- Every event that was made of one received is dispatched or retained, and no more are
retained than may be asked for. -/
def KeepsPressure (r : Recorded (ProducerConsumerStage E E' S) E) : Prop :=
  r.trace.returned.Perm
    (dispatched (kind r.stage.dispatcher) r.trace ++ retained r.stage.toOutlet) ∧
  ((retained r.stage.toOutlet).length : Int) ≤ upstreamMax r.stage

/-- The callback makes one event of each. -/
def OneToOne (callbacks : ProducerConsumerCallbacks E E' S) : Prop :=
  ∀ events source state, (callbacks.handleEvents events source state).1.length = events.length

/-- Deliveries are within the demand asked, the buffer has space for what all upstream
subscriptions may ask, and these stay. -/
def Admissible (r : Recorded (ProducerConsumerStage E E' S) E) :
    ProducerConsumerMessage E' → Prop
  | .events tag _ events => ∃ sub, r.stage.upstreamSubs.get tag = some sub ∧
      (events.length : Int) ≤ sub.pendingDemand
  | .subscribeToProducer tag _ options => r.stage.upstreamSubs.has tag = false ∧
      upstreamMax r.stage + options.max ≤ r.stage.bufferSize
  | .cancel tag _ => r.stage.dispatcher.has tag = true ∨ r.stage.upstreamSubs.has tag = false
  | .cancelUpstream _ _ => False
  | _ => True

/-- How many events a dispatcher can send at once when it is given `events`. -/
def canSend (d : Dispatcher E) (events : List E) : Nat :=
  match d with
  | .demand d => min d.totalDemand.toNat events.length
  | .broadcast b => min events.length b.waiting.toNat
  | .partition q => ((List.range q.partitionCount).map fun p =>
      min (q.demandOf p).toNat
        ((q.partitionBuffers p).length + (share q.hash p events).length)).sum

/-- The events that a dispatcher does not discard. -/
def taken (d : Dispatcher E) (events : List E) : List E :=
  match d with
  | .partition q => hashed q.hash events
  | _ => events

/-- What a delivery adds to what is retained, less what can be sent at once, is within the
demand upstream; and the hash function discards no event that is dispatched. -/
def Absorbed (r : Recorded (ProducerConsumerStage E E' S) E) :
    ProducerConsumerMessage E' → Prop
  | .events tag producerRef events =>
      ((retained r.stage.toOutlet).length + events.length : Int) ≤ upstreamMax r.stage +
        canSend r.stage.dispatcher
          (r.stage.callbacks.handleEvents events ⟨tag, producerRef⟩ r.stage.userState).1 ∧
      (r.stage.dispatcher.hasSubscribers = true → taken r.stage.dispatcher
        (r.stage.callbacks.handleEvents events ⟨tag, producerRef⟩ r.stage.userState).1 =
        (r.stage.callbacks.handleEvents events ⟨tag, producerRef⟩ r.stage.userState).1)
  | .ask _ demand => 0 < demand → taken r.stage.dispatcher r.stage.buffer = r.stage.buffer
  | _ => True

/-! ## One dispatch -/

/-- The batch of a partition and the rest of its line. -/
theorem bucket_perm (q : PartitionDispatcher E) (events : List E) (p : Nat) :
    (bucket q events p ++ ((lane q p).pass (share q.hash p events)).serve.waiting).Perm
      (q.partitionBuffers p ++ share q.hash p events) := by
  rw [bucket, List.append_assoc, Lane.served_append_serve]
  change (List.take _ _ ++ (q.partitionBuffers p ++ List.drop _ _)).Perm _
  refine (List.perm_append_comm_assoc _ _ _).trans ?_
  rw [List.take_append_drop]

theorem dispatched_partition {q q' : PartitionDispatcher E} {events : List E}
    {result : DispatchResult E} (h : q.dispatch events = .ok (q', result)) :
    eventsOf result.dispatched = (List.range q.partitionCount).flatMap (bucket q events) := by
  obtain ⟨hsame, -, -, -, hsent⟩ := dispatch_eq_ok h
  rw [hsent, eventsOf_batches fun p hp => isSome_of_bucket hsame hp, hsame.count]

/-- A dispatch sends as many events as it can. -/
theorem length_once {d d' : Dispatcher E} {events : List E} {result : DispatchResult E}
    (hsane : Sane d) (h : d.dispatch events = .ok (d', result)) :
    (once (kind d) (.sent result.dispatched)).length = canSend d events := by
  cases d with
  | demand d =>
      cases h
      obtain ⟨hsent, -, -⟩ := DemandDispatch.dispatch_eq hsane events []
      change (eventsOf (d.dispatch events).2.dispatched).length = _
      rw [hsent, List.length_take, min_eq_left (Lane.covers_le _ _)]
      rfl
  | broadcast b =>
      cases h
      obtain ⟨-, -, hsent⟩ := BroadcastDispatch.dispatch_eq hsane events
      change (front (b.dispatch events).2.dispatched).length =
        BroadcastDispatch.sendable b events
      rcases hsent with ⟨hnil, hzero⟩ | hsent
      · rw [hnil, hzero]
        rfl
      · rw [hsent]
        cases hentries : b.subscribers.entries with
        | nil =>
            rw [BroadcastDispatch.sendable_of_zero
              (BroadcastDispatch.Sound.waiting_empty hsane hentries)]
            rfl
        | cons e entries =>
            change (events.take (BroadcastDispatch.sendable b events)).length = _
            rw [List.length_take]
            exact min_eq_left (min_le_left _ _)
  | partition q =>
      obtain ⟨q', rfl, hdispatch⟩ := dispatch_partition_eq_ok h
      change (eventsOf result.dispatched).length = _
      rw [dispatched_partition hdispatch, List.length_flatMap]
      simp only [bucket_length]
      rfl

/-- A dispatch loses nothing but what the hash function discards. -/
theorem once_perm {d d' : Dispatcher E} {events : List E} {result : DispatchResult E}
    (hsane : Sane d) (h : d.dispatch events = .ok (d', result)) :
    (once (kind d) (.sent result.dispatched) ++ (result.remaining ++ inside d')).Perm
      (taken d events ++ inside d) := by
  cases d with
  | demand d =>
      cases h
      have hevents := (splits_dispatch d events).events_eq
      change (eventsOf (d.dispatch events).2.dispatched ++
        ((d.dispatch events).2.remaining ++ [])).Perm (events ++ [])
      dsimp only at hevents
      rw [List.append_nil, List.append_nil, hevents]
  | broadcast b =>
      cases h
      obtain ⟨-, hremaining, hsent⟩ := BroadcastDispatch.dispatch_eq hsane events
      change (front (b.dispatch events).2.dispatched ++
        ((b.dispatch events).2.remaining ++ [])).Perm (events ++ [])
      rw [List.append_nil, List.append_nil, hremaining]
      rcases hsent with ⟨hnil, hzero⟩ | hsent
      · rw [hnil, hzero]
        exact .refl _
      · rw [hsent]
        cases hentries : b.subscribers.entries with
        | nil =>
            rw [BroadcastDispatch.sendable_of_zero
              (BroadcastDispatch.Sound.waiting_empty hsane hentries)]
            exact .refl _
        | cons e entries =>
            change (events.take (BroadcastDispatch.sendable b events) ++ _).Perm events
            rw [List.take_append_drop]
  | partition q =>
      obtain ⟨q', rfl, hdispatch⟩ := dispatch_partition_eq_ok h
      obtain ⟨hsame, hvalid, hnil, hlanes, -⟩ := dispatch_eq_ok hdispatch
      change (eventsOf result.dispatched ++ (result.remaining ++
        (List.range q'.partitionCount).flatMap q'.partitionBuffers)).Perm
          (hashed q.hash events ++ (List.range q.partitionCount).flatMap q.partitionBuffers)
      rw [dispatched_partition hdispatch, hnil, List.nil_append, hsame.count]
      have hlines : ((List.range q.partitionCount).flatMap fun p =>
          bucket q events p ++ q'.partitionBuffers p).Perm
          ((List.range q.partitionCount).flatMap fun p =>
            q.partitionBuffers p ++ share q.hash p events) := by
        refine List.Perm.flatMap_left _ fun p hp => ?_
        have hwaiting := congrArg Lane.waiting (hlanes p (List.mem_range.1 hp))
        change q'.partitionBuffers p = _ at hwaiting
        rw [hwaiting]
        exact bucket_perm q events p
      refine (List.flatMap_append_perm _ _ _).trans (hlines.trans ?_)
      refine (List.flatMap_append_perm _ _ _).symm.trans ?_
      exact (List.Perm.append_left _ (flatMap_share_perm hvalid)).trans List.perm_append_comm

/-! ## One emission -/

theorem kept_perm (o : Outlet E) (events : List E) :
    (kept o events ++ lost o events).Perm (o.buffer ++ events) := by
  unfold kept lost
  cases o.bufferKeep with
  | last =>
      refine List.perm_append_comm.trans ?_
      dsimp only
      rw [List.take_append_drop]
  | first =>
      dsimp only
      rw [List.append_assoc, List.take_append_drop]

theorem keptRest_perm (o : Outlet E) (rest : List E) :
    (keptRest o rest ++ lostRest o rest).Perm (o.buffer ++ rest) := by
  unfold keptRest lostRest
  split_ifs with hnil
  · rw [hnil]
  · exact kept_perm o rest

/-- Events are lost only from a full buffer. -/
theorem length_keptRest_of_lost {o : Outlet E} {rest : List E}
    (hbuffer : o.buffer.length ≤ o.bufferSize) (hlost : lostRest o rest ≠ []) :
    (keptRest o rest).length = o.bufferSize := by
  have htotal := length_keptRest_add_lostRest o rest
  have hpos := List.length_pos_iff.2 hlost
  have hnil : rest ≠ [] := by
    rintro rfl
    exact hlost (if_pos rfl)
  rw [keptRest, if_neg hnil] at htotal ⊢
  rw [length_kept hbuffer] at htotal ⊢
  omega

theorem dispatched_append (k : Kind) (t u : Trace E) :
    dispatched k (t ++ u) = dispatched k t ++ dispatched k u := List.flatMap_append

theorem dispatched_dropActs (k : Kind) (events : List E) :
    dispatched k (dropActs events) = [] := by
  unfold dropActs
  split_ifs
  · rfl
  · cases k <;> rfl

theorem dispatched_sent (k : Kind) (batches : List (Dispatched E)) :
    dispatched k [.sent batches] = once k (.sent batches) := List.append_nil _

/-- A dispatcher that does not take fewer events takes them all. -/
theorem taken_of_length {d : Dispatcher E} {events : List E}
    (h : events.length ≤ (taken d events).length) : taken d events = events := by
  cases d with
  | demand d => rfl
  | broadcast b => rfl
  | partition q =>
      refine List.filter_eq_self.2 (List.length_filter_eq_length_iff.1 ?_)
      exact le_antisymm (List.length_filter_le _ _) h

/-- What the stage takes of the events it emits. -/
def absorbed (o : Outlet E) (events : List E) : List E :=
  if o.dispatcher.hasSubscribers then taken o.dispatcher events else events

/-- Without subscribers nothing can be sent. -/
theorem canSend_of_empty {d : Dispatcher E} (hsane : Sane d) (hhas : d.hasSubscribers = false)
    (events : List E) : canSend d events = 0 := by
  cases d with
  | demand d =>
      have hnone : d.subscribers.entries = [] := DemandDispatch.hasSubscribers_eq_false.1 hhas
      have hzero : d.totalDemand ≤ 0 := DemandDispatch.totalDemand_nonpos fun e he =>
        absurd (hnone ▸ he) List.not_mem_nil
      change min d.totalDemand.toNat events.length = 0
      omega
  | broadcast b =>
      exact BroadcastDispatch.sendable_of_zero (BroadcastDispatch.Sound.waiting_empty hsane
        (BroadcastDispatch.hasSubscribers_eq_false.1 hhas)) events
  | partition q =>
      refine List.sum_eq_zero fun n hn => ?_
      obtain ⟨p, -, rfl⟩ := List.mem_map.1 hn
      have hnone := demandOf_nonpos hsane hhas p
      omega

/-- What an emission sends, retains and loses is what it takes and what was there. -/
theorem emit_perm {o o' : Outlet E} {events : List E} {acts : Trace E} (hkept : Kept o)
    (hemit : Emits o events acts o') (hne : events ≠ []) :
    acts.returned = [] ∧ ∃ gone : List E,
      (dispatched (kind o.dispatcher) acts ++ (retained o' ++ gone)).Perm
        (absorbed o events ++ retained o) ∧
      (gone ≠ [] → o.bufferSize ≤ (retained o').length) ∧
      (dispatched (kind o.dispatcher) acts).length = canSend o.dispatcher events := by
  classical
  obtain ⟨d', batches, rest, sents, hpasses, rfl, rfl⟩ := emits_passes hemit
  have hreturned : Trace.returned (sents ++ dropActs (lostRest o rest)) = [] := by
    rw [Trace.returned_append, hpasses.returned, returned_dropActs, List.append_nil]
  have hfull : lostRest o rest ≠ [] →
      o.bufferSize ≤ (keptRest o rest ++ inside d').length := fun hlost => by
    have hlength := length_keptRest_of_lost hkept.buffer_le hlost
    rw [List.length_append]
    omega
  have hbuffer := keptRest_perm o rest
  refine ⟨hreturned, lostRest o rest, ?_, hfull, ?_⟩
  · rw [dispatched_append, dispatched_dropActs, List.append_nil]
    rw [List.perm_iff_count] at hbuffer ⊢
    intro a
    have hcount := hbuffer a
    unfold retained absorbed
    cases hpasses with
    | none => exact absurd rfl hne
    | buffer _ hhas =>
        rw [hhas, if_neg Bool.false_ne_true]
        simp only [List.count_append, dispatched, List.flatMap_nil, List.count_nil] at hcount ⊢
        omega
    | @dispatch _ _ result _ hhas hdispatch =>
        have hone := List.perm_iff_count.1 (once_perm hkept.sane hdispatch) a
        rw [hhas, if_pos rfl, dispatched_sent]
        simp only [List.count_append] at hcount hone ⊢
        omega
  · rw [dispatched_append, dispatched_dropActs, List.append_nil]
    cases hpasses with
    | none => exact absurd rfl hne
    | buffer _ hhas => exact (canSend_of_empty hkept.sane hhas events).symm
    | dispatch _ _ hdispatch =>
        rw [dispatched_sent]
        exact length_once hkept.sane hdispatch

/-! ## One message -/

/-- The books of a stage that keeps to its bounds. -/
structure Pressed (c : ProducerConsumerStage E E' S) (t : Trace E) : Prop where
  kept : Kept c.toOutlet
  max_le : upstreamMax c ≤ c.bufferSize
  keeps : KeepsPressure ⟨c, t⟩

variable {c c' : ProducerConsumerStage E E' S} {t acts : Trace E}

/-- A message that moves no event. -/
theorem KeepsPressure.still (h : KeepsPressure ⟨c, t⟩) (hreturned : acts.returned = [])
    (hsent : ∀ k, dispatched k acts = []) (hkind : kind c'.dispatcher = kind c.dispatcher)
    (hretained : retained c'.toOutlet = retained c.toOutlet)
    (hmax : upstreamMax c ≤ upstreamMax c') :
    KeepsPressure ⟨c', t ++ acts⟩ := by
  obtain ⟨hperm, hle⟩ := h
  refine ⟨?_, ?_⟩
  · dsimp only at hperm ⊢
    rw [Trace.returned_append, hreturned, List.append_nil, dispatched_append, hsent,
      List.append_nil, hkind, hretained]
    exact hperm
  · dsimp only at hle ⊢
    rw [hretained]
    exact hle.trans hmax

theorem upstreamMax_modify {tag : Tag} {f : ConsumerSub → ConsumerSub}
    (h : ∀ sub, c.upstreamSubs.get tag = some sub → (f sub).maxDemand = sub.maxDemand) :
    (((c.upstreamSubs.modify tag f).map fun sub => (sub.maxDemand : Int)).sum : Int) =
      upstreamMax c := by
  rw [OrderedMap.map_modify_of fun sub hsub => by rw [h sub hsub]]
  rfl

theorem upstreamMax_reask (c : ProducerConsumerStage E E' S) (tag : Tag) (sub : ConsumerSub) :
    upstreamMax (c.reaskUpstream tag sub).1 = upstreamMax c := by
  unfold ProducerConsumerStage.reaskUpstream
  split_ifs
  · exact upstreamMax_modify fun _ _ => rfl
  · rfl

theorem still_reask (c : ProducerConsumerStage E E' S) (tag : Tag) (sub : ConsumerSub) :
    (c.reaskUpstream tag sub).2.returned = [] ∧
      ∀ k, dispatched k (c.reaskUpstream tag sub).2 = [] := by
  unfold ProducerConsumerStage.reaskUpstream
  split_ifs
  · exact ⟨rfl, fun k => by cases k <;> rfl⟩
  · exact ⟨rfl, fun _ => rfl⟩

/-- A delivery keeps the bounds exactly when it is absorbed. -/
theorem pressed_events {tag : Tag} {producerRef : ActorRef String} {events : List E'}
    (honeToOne : OneToOne c.callbacks) (h : Pressed c t)
    (hadmissible : Admissible ⟨c, t⟩ (.events tag producerRef events))
    (hreceive : c.handleUpstreamEvents tag producerRef events = .ok (c', acts)) :
    upstreamMax c' = upstreamMax c ∧
      (KeepsPressure ⟨c', t ++ acts⟩ ↔ Absorbed ⟨c, t⟩ (.events tag producerRef events)) := by
  classical
  obtain ⟨sub, hsub, -⟩ := hadmissible
  obtain ⟨hnone, -⟩ | ⟨sub', o, emitted, asks, hsub', hemits, hreask, rfl⟩ :=
    handleUpstreamEvents_eq_ok hreceive
  · exact nomatch hnone.symm.trans hsub
  · obtain ⟨hperm, hle⟩ := h.keeps
    dsimp only at hperm hle
    have hlength := honeToOne events ⟨tag, producerRef⟩ c.userState
    revert hemits hlength
    generalize hout : (c.callbacks.handleEvents events ⟨tag, producerRef⟩ c.userState).1 = outs
    intro hemits hlength
    have hstill := still_reask { c with
      toOutlet := o
      upstreamSubs := c.upstreamSubs.modify tag fun _ => sub'.take events.length
      userState := (c.callbacks.handleEvents events ⟨tag, producerRef⟩ c.userState).2 } tag
        (sub'.take events.length)
    have houtlet : c'.toOutlet = o := (congrArg (fun done => done.1.toOutlet) hreask).trans
      (reaskUpstream_outlet _ tag _)
    have hmax : upstreamMax c' = upstreamMax c := by
      refine (congrArg (fun done => upstreamMax done.1) hreask).trans ?_
      refine (upstreamMax_reask _ tag _).trans (upstreamMax_modify fun sub hsub => ?_)
      rw [hsub'] at hsub
      cases hsub
      rfl
    rw [← hreask] at hstill
    have hkind : kind c'.dispatcher = kind c.dispatcher := by
      rw [houtlet]
      exact kind_move (.emit hemits)
    refine ⟨hmax, ?_⟩
    have hacts : Trace.returned (.received tag events.length :: .returned outs ::
        (emitted ++ asks)) = outs ++ Trace.returned emitted := by
      change outs ++ Trace.returned (emitted ++ asks) = _
      rw [Trace.returned_append, hstill.1, List.append_nil]
    have hsent : ∀ k, dispatched k (.received tag events.length :: .returned outs ::
        (emitted ++ asks)) = dispatched k emitted := fun k => by
      have hhead : dispatched k [(.received tag events.length : Act E), .returned outs] = [] := by
        cases k <;> rfl
      have hasks : dispatched k asks = [] := hstill.2 k
      refine (dispatched_append k [.received tag events.length, .returned outs]
        (emitted ++ asks)).trans ?_
      rw [hhead, List.nil_append, dispatched_append, hasks, List.append_nil]
    unfold KeepsPressure Absorbed
    dsimp only
    rw [Trace.returned_append, hacts, dispatched_append, hsent, hkind, houtlet, hmax, hout]
    by_cases hnil : outs = []
    · -- nothing is emitted
      obtain ⟨-, rfl, rfl⟩ | ⟨hne, -⟩ := hemits
      · subst hnil
        rw [List.length_nil] at hlength
        have hreturned : Trace.returned ([] : Trace E) = [] := rfl
        have hdispatched : dispatched (kind c.dispatcher) ([] : Trace E) = [] := rfl
        rw [hreturned, hdispatched, List.append_nil, List.append_nil, List.append_nil]
        refine ⟨fun _ => ⟨by omega, fun _ => ?_⟩, fun _ => ⟨hperm, hle⟩⟩
        unfold taken
        split
        · rfl
        · rfl
      · exact absurd hnil hne
    · obtain ⟨hreturned, gone, hemitted, hfull, hcount⟩ := emit_perm h.kept hemits hnil
      have hmaxle := h.max_le
      rw [hreturned, List.append_nil]
      have htotal := hemitted.length_eq
      have hbefore := hperm.length_eq
      simp only [List.length_append] at htotal hbefore
      constructor
      · rintro ⟨hperm', hle'⟩
        have hafter := hperm'.length_eq
        simp only [List.length_append] at hafter
        refine ⟨by omega, fun hhas => ?_⟩
        -- a discarded event would be missing
        have habsorbed : absorbed c.toOutlet outs = taken c.dispatcher outs := if_pos hhas
        rw [habsorbed] at htotal
        exact taken_of_length (by omega)
      · rintro ⟨hroom, htaken⟩
        have habsorbed : absorbed c.toOutlet outs = outs := by
          unfold absorbed
          split_ifs with hhas
          · exact htaken hhas
          · rfl
        rw [habsorbed] at htotal hemitted
        have hgone : gone = [] := by
          by_contra hne
          have hpos := List.length_pos_iff.2 hne
          have hsize := hfull hne
          omega
        rw [hgone, List.append_nil] at hemitted
        rw [hgone, List.length_nil] at htotal
        refine ⟨?_, by omega⟩
        rw [List.perm_iff_count] at hperm hemitted ⊢
        intro a
        have hone := hperm a
        have htwo := hemitted a
        simp only [List.count_append] at hone htwo ⊢
        omega

theorem taken_nil (d : Dispatcher E) : taken d [] = [] := by
  cases d <;> rfl

theorem taken_ask (d : Dispatcher E) (tag : Tag) (demand : Int) (events : List E) :
    taken (d.ask tag demand).1 events = taken d events := by
  cases d with
  | demand d => rfl
  | broadcast b => rfl
  | partition q =>
      change hashed (q.ask tag demand).1.hash events = hashed q.hash events
      rw [(samePlaces_ask q tag demand).hash]

/-- An ask keeps the bounds exactly when the hash function discards no buffered event. -/
theorem pressed_ask {tag : Tag} {demand : Int} (h : Pressed c t)
    (hask : c.handleDownstreamAsk tag demand = .ok (c', acts)) :
    upstreamMax c' = upstreamMax c ∧
      (KeepsPressure ⟨c', t ++ acts⟩ ↔
        Absorbed ⟨c, t⟩ (.ask tag demand : ProducerConsumerMessage E')) := by
  classical
  have hstill : ∀ k, dispatched k [(.asked tag demand : Act E)] = [] := fun k => by
    cases k <;> rfl
  obtain ⟨hnone, rfl, rfl⟩ | ⟨-, hnil, rfl, rfl⟩ | ⟨hpos, -, o, drained, hdrain, rfl, rfl⟩ :=
    handleDownstreamAsk_eq_ok hask
  · exact ⟨rfl, fun _ hpos => absurd hpos (not_lt.2 hnone),
      fun _ => h.keeps.still rfl hstill rfl rfl le_rfl⟩
  · refine ⟨rfl, fun _ _ => ?_, fun _ => h.keeps.still rfl hstill (kind_ask _ tag demand) ?_ le_rfl⟩
    · dsimp only
      rw [hnil, taken_nil]
    · exact congrArg (c.buffer ++ ·) (inside_ask c.dispatcher tag demand)
  · refine ⟨rfl, ?_⟩
    obtain ⟨d', result, hdispatch, rfl, rfl⟩ := drain_eq_ok hdrain
    obtain ⟨hperm, hle⟩ := h.keeps
    have hone := once_perm (sane_ask h.kept.sane tag hpos.le) hdispatch
    change (once (kind (c.dispatcher.ask tag demand).1) (.sent result.dispatched) ++
      (result.remaining ++ inside d')).Perm (taken (c.dispatcher.ask tag demand).1 c.buffer ++
        inside (c.dispatcher.ask tag demand).1) at hone
    rw [kind_ask, taken_ask, inside_ask] at hone
    have hkind : kind d' = kind c.dispatcher :=
      (kind_dispatch hdispatch).trans (kind_ask c.dispatcher tag demand)
    have hasked : dispatched (kind c.dispatcher) (.asked tag demand :: [.sent result.dispatched]) =
        once (kind c.dispatcher) (.sent result.dispatched) :=
      (dispatched_append _ [.asked tag demand] _).trans (by
        rw [hstill, List.nil_append, dispatched_sent])
    have htaken : (taken c.dispatcher c.buffer).length ≤ c.buffer.length := by
      unfold taken
      split
      · exact List.length_filter_le _ _
      · exact le_rfl
    have hreturned : Trace.returned (t ++ (.asked tag demand :: [.sent result.dispatched])) =
        t.returned := by
      rw [Trace.returned_append]
      exact List.append_nil _
    unfold KeepsPressure Absorbed
    dsimp only at hperm hle ⊢
    rw [hreturned, dispatched_append, hkind, hasked]
    unfold retained at hperm hle ⊢
    dsimp only
    have htotal := hone.length_eq
    have hbefore := hperm.length_eq
    simp only [List.length_append] at htotal hbefore hle
    constructor
    · rintro ⟨hperm', -⟩ -
      have hafter := hperm'.length_eq
      simp only [List.length_append] at hafter
      exact taken_of_length (by omega)
    · intro habsorbed
      rw [habsorbed hpos] at hone
      refine ⟨?_, ?_⟩
      · rw [List.perm_iff_count] at hperm hone ⊢
        intro a
        have hcount := hperm a
        have hcount' := hone a
        simp only [List.count_append] at hcount hcount' ⊢
        omega
      · rw [List.length_append]
        change _ ≤ upstreamMax c
        omega

/-- What a message does to the callbacks and to the size of the buffer: nothing. -/
theorem callbacks_receive {m : ProducerConsumerMessage E'} (h : c.receive m = .ok (c', acts)) :
    c'.callbacks = c.callbacks := by
  cases m with
  | subscribe | subscribeToProducer | cancelUpstream =>
      cases h
      rfl
  | deferredAsk tag =>
      have hsame : (c.deferredAsk tag).1.callbacks = c.callbacks := by
        unfold ProducerConsumerStage.deferredAsk
        split <;> rfl
      rwa [Except.ok.inj h] at hsame
  | events tag producerRef events =>
      obtain ⟨-, rfl, -⟩ | ⟨sub, o, emitted, asks, -, -, hreask, -⟩ :=
        handleUpstreamEvents_eq_ok h
      · rfl
      · refine (congrArg (fun done => done.1.callbacks) hreask).trans ?_
        unfold ProducerConsumerStage.reaskUpstream
        split <;> rfl
  | ask tag demand =>
      obtain ⟨-, rfl, -⟩ | ⟨-, -, rfl, -⟩ | ⟨-, -, o, drained, -, rfl, -⟩ :=
        handleDownstreamAsk_eq_ok h
      · rfl
      · rfl
      · rfl
  | cancel tag reason =>
      have hsame : (c.handleCancel tag).1.callbacks = c.callbacks := by
        obtain ⟨-, heq⟩ | ⟨-, heq⟩ := handleCancel_cases c tag
        · rw [heq]
        · rw [heq]
      rwa [Except.ok.inj h] at hsame

theorem upstreamMax_nonneg (c : ProducerConsumerStage E E' S) : 0 ≤ upstreamMax c := by
  refine OrderedMap.sum_nonneg fun v hv => ?_
  obtain ⟨e, he, rfl⟩ := List.mem_map.1 hv
  obtain ⟨e', -, rfl⟩ := List.mem_map.1 he
  exact Int.natCast_nonneg _

/-- An admissible message keeps the bounds exactly when it is absorbed. -/
theorem pressed_receive {m : ProducerConsumerMessage E'} (honeToOne : OneToOne c.callbacks)
    (h : Pressed c t) (hadmissible : Admissible ⟨c, t⟩ m)
    (hreceive : c.receive m = .ok (c', acts)) :
    upstreamMax c' ≤ c.bufferSize ∧
      (KeepsPressure ⟨c', t ++ acts⟩ ↔ Absorbed ⟨c, t⟩ m) := by
  cases m with
  | subscribe tag consumerRef maxDemand minDemand partition =>
      have hsubscribed : KeepsPressure ⟨{ c with toOutlet :=
            (c.toOutlet.subscribe tag consumerRef maxDemand minDemand partition).1 },
          t ++ (c.toOutlet.subscribe tag consumerRef maxDemand minDemand partition).2⟩ := by
        obtain ⟨error, heq⟩ | ⟨d', hsubscribe, heq⟩ :=
          subscribe_cases c.toOutlet tag consumerRef maxDemand minDemand partition
        · rw [heq]
          exact h.keeps.still rfl (fun k => by cases k <;> rfl) rfl rfl le_rfl
        · rw [heq]
          refine h.keeps.still rfl (fun k => by cases k <;> rfl) (kind_subscribe hsubscribe) ?_
            le_rfl
          exact congrArg (c.buffer ++ ·) (inside_subscribe hsubscribe)
      cases hreceive
      exact ⟨h.max_le, fun _ => trivial, fun _ => hsubscribed⟩
  | deferredAsk tag =>
      have hdeferred : upstreamMax (c.deferredAsk tag).1 = upstreamMax c ∧
          KeepsPressure ⟨(c.deferredAsk tag).1, t ++ (c.deferredAsk tag).2⟩ := by
        unfold ProducerConsumerStage.deferredAsk
        split
        · refine ⟨rfl, ?_⟩
          rw [List.append_nil]
          exact h.keeps
        · have hmax : ∀ sub : ConsumerSub, upstreamMax (c.askUpstream tag sub sub.maxDemand).1 =
              upstreamMax c := fun sub => upstreamMax_modify fun _ _ => rfl
          exact ⟨hmax _, h.keeps.still rfl (fun k => by cases k <;> rfl) rfl rfl (hmax _).ge⟩
      rw [Except.ok.inj hreceive] at hdeferred
      exact ⟨hdeferred.1.trans_le h.max_le, fun _ => trivial, fun _ => hdeferred.2⟩
  | events tag producerRef events =>
      obtain ⟨hmax, hiff⟩ := pressed_events honeToOne h hadmissible hreceive
      exact ⟨hmax.trans_le h.max_le, hiff⟩
  | ask tag demand =>
      obtain ⟨hmax, hiff⟩ := pressed_ask h hreceive
      exact ⟨hmax.trans_le h.max_le, hiff⟩
  | cancel tag reason =>
      have hcancelled : upstreamMax (c.handleCancel tag).1 = upstreamMax c ∧
          KeepsPressure ⟨(c.handleCancel tag).1, t ++ (c.handleCancel tag).2⟩ := by
        obtain ⟨-, heq⟩ | ⟨hnone, heq⟩ := handleCancel_cases c tag
        · rw [heq]
          refine ⟨rfl, h.keeps.still rfl (fun k => by cases k <;> rfl) (kind_cancel _ tag) ?_
            le_rfl⟩
          exact congrArg (c.buffer ++ ·) (inside_cancel c.dispatcher tag)
        · -- a tag of no subscription
          have hupstream : c.upstreamSubs.has tag = false := by
            rcases hadmissible with hhas | hupstream
            · exact nomatch hnone.symm.trans hhas
            · exact hupstream
          have hkeys : tag ∉ c.upstreamSubs.keys := fun hmem => by
            rw [OrderedMap.has_iff.2 hmem] at hupstream
            exact nomatch hupstream
          rw [heq, OrderedMap.delete_of_not_mem hkeys, List.append_nil]
          exact ⟨rfl, h.keeps⟩
      rw [Except.ok.inj hreceive] at hcancelled
      exact ⟨hcancelled.1.trans_le h.max_le, fun _ => trivial, fun _ => hcancelled.2⟩
  | subscribeToProducer tag producerRef options =>
      cases hreceive
      obtain ⟨hnew, hroom⟩ := hadmissible
      have hnone : c.upstreamSubs.get tag = none := by
        simpa [OrderedMap.has] using hnew
      have hmax : upstreamMax ({ c with
          upstreamSubs := c.upstreamSubs.set tag (options.sub producerRef) } :
            ProducerConsumerStage E E' S) = upstreamMax c + options.max := by
        unfold upstreamMax
        rw [OrderedMap.map_set, OrderedMap.sum_set, OrderedMap.get_map, hnone]
        exact congrArg (· + _) (sub_zero _)
      refine ⟨hmax.trans_le hroom, fun _ => trivial, fun _ => ?_⟩
      exact h.keeps.still rfl (fun _ => rfl) rfl rfl (by rw [hmax]; omega)
  | cancelUpstream tag reason => exact hadmissible.elim

/-! ## Every run -/

theorem pressed_init (callbacks : ProducerConsumerCallbacks E E' S) (options : ProducerOptions E) :
    Pressed (ProducerConsumerStage.init callbacks options) [] := by
  have hempty := retained_init options
  refine ⟨kept_init options, Int.natCast_nonneg _, ?_, ?_⟩
  · change List.Perm [] (dispatched _ [] ++ retained (Outlet.init options))
    rw [hempty]
    exact .refl _
  · change ((retained (Outlet.init options)).length : Int) ≤ _
    rw [hempty]
    exact upstreamMax_nonneg _

/-- A `ProducerConsumer` that makes one event of each keeps all of them, and no more than
its upstream subscriptions may ask for, throughout a run if and only if every step of the
run is absorbed. -/
theorem keeps_pressure_iff {callbacks : ProducerConsumerCallbacks E E' S}
    {options : ProducerOptions E} {ms : List (ProducerConsumerMessage E')}
    {r : Recorded (ProducerConsumerStage E E' S) E} (honeToOne : OneToOne callbacks)
    (hrun : Transition.run ProducerConsumerStage.step
      (ProducerConsumerStage.start callbacks options) ms = some r)
    (hadmissible : Transition.Along ProducerConsumerStage.step Admissible
      (ProducerConsumerStage.start callbacks options) ms) :
    Transition.Throughout ProducerConsumerStage.step KeepsPressure
        (ProducerConsumerStage.start callbacks options) ms ↔
      Transition.Along ProducerConsumerStage.step Absorbed
        (ProducerConsumerStage.start callbacks options) ms := by
  refine Transition.throughout_iff_along
    (I := fun r => OneToOne r.stage.callbacks ∧ Pressed r.stage r.trace) ?_ (fun _ h => h.2.keeps)
    ?_ ⟨honeToOne, pressed_init callbacks options⟩ hadmissible hrun
  · rintro ⟨c, t⟩ m ⟨c', t'⟩ ⟨honeToOne, hpressed⟩ hadmissible habsorbed hstep
    obtain ⟨acts, hreceive, rfl⟩ := step_eq_some hstep
    have hmoves := producerConsumer_moves hreceive
    obtain ⟨hmax, hiff⟩ := pressed_receive honeToOne hpressed hadmissible hreceive
    refine ⟨?_, hpressed.kept.moves hmoves, ?_, hiff.2 habsorbed⟩
    · rw [callbacks_receive hreceive]
      exact honeToOne
    · rw [bufferSize_moves hpressed.kept hmoves]
      exact hmax
  · rintro ⟨c, t⟩ m ⟨c', t'⟩ ⟨honeToOne, hpressed⟩ hadmissible hfull hstep hkeeps
    obtain ⟨acts, hreceive, rfl⟩ := step_eq_some hstep
    exact hfull ((pressed_receive honeToOne hpressed hadmissible hreceive).2.1 hkeeps)

/-- Two events, of which downstream takes the first one. -/
theorem keeps_pressure_two :
    ∃ r, Transition.run ProducerConsumerStage.step
        (ProducerConsumerStage.start
          (⟨(), fun events _ _ => (events, ())⟩ : ProducerConsumerCallbacks Int Int Unit)
          { bufferSize := some 1 })
        [.subscribe "a" ⟨"n", 1, none, 0⟩ 5 2 none, .ask "a" 1,
          .subscribeToProducer "u" ⟨"n", 2, none, 0⟩ { maxDemand := some 1 }, .deferredAsk "u",
          .events "u" ⟨"n", 2, none, 0⟩ [6], .events "u" ⟨"n", 2, none, 0⟩ [7]] = some r ∧
      dispatched (kind r.stage.dispatcher) r.trace = [6] ∧ retained r.stage.toOutlet = [7] ∧
      Transition.Throughout ProducerConsumerStage.step KeepsPressure
        (ProducerConsumerStage.start
          (⟨(), fun events _ _ => (events, ())⟩ : ProducerConsumerCallbacks Int Int Unit)
          { bufferSize := some 1 })
        [.subscribe "a" ⟨"n", 1, none, 0⟩ 5 2 none, .ask "a" 1,
          .subscribeToProducer "u" ⟨"n", 2, none, 0⟩ { maxDemand := some 1 }, .deferredAsk "u",
          .events "u" ⟨"n", 2, none, 0⟩ [6], .events "u" ⟨"n", 2, none, 0⟩ [7]] := by
  have hrun : ∃ r, Transition.run ProducerConsumerStage.step
      (ProducerConsumerStage.start
        (⟨(), fun events _ _ => (events, ())⟩ : ProducerConsumerCallbacks Int Int Unit)
        { bufferSize := some 1 })
      [.subscribe "a" ⟨"n", 1, none, 0⟩ 5 2 none, .ask "a" 1,
        .subscribeToProducer "u" ⟨"n", 2, none, 0⟩ { maxDemand := some 1 }, .deferredAsk "u",
        .events "u" ⟨"n", 2, none, 0⟩ [6], .events "u" ⟨"n", 2, none, 0⟩ [7]] = some r ∧
      dispatched (kind r.stage.dispatcher) r.trace = [6] ∧ retained r.stage.toOutlet = [7] :=
    ⟨_, rfl, rfl, rfl⟩
  obtain ⟨r, hr, hsent, hretained⟩ := hrun
  refine ⟨r, hr, hsent, hretained, (keeps_pressure_iff (fun _ _ _ => rfl) hr ?_).2 ?_⟩
  · refine ⟨trivial, fun r₁ h₁ => ?_⟩
    cases h₁
    refine ⟨trivial, fun r₂ h₂ => ?_⟩
    cases h₂
    refine ⟨⟨rfl, by decide⟩, fun r₃ h₃ => ?_⟩
    cases h₃
    refine ⟨trivial, fun r₄ h₄ => ?_⟩
    cases h₄
    refine ⟨⟨_, rfl, by decide⟩, fun r₅ h₅ => ?_⟩
    cases h₅
    exact ⟨⟨_, rfl, by decide⟩, fun _ _ => trivial⟩
  · refine ⟨trivial, fun r₁ h₁ => ?_⟩
    cases h₁
    refine ⟨fun _ => rfl, fun r₂ h₂ => ?_⟩
    cases h₂
    refine ⟨trivial, fun r₃ h₃ => ?_⟩
    cases h₃
    refine ⟨trivial, fun r₄ h₄ => ?_⟩
    cases h₄
    refine ⟨⟨by decide, fun _ => rfl⟩, fun r₅ h₅ => ?_⟩
    cases h₅
    exact ⟨⟨by decide, fun _ => rfl⟩, fun _ _ => trivial⟩

/-- Nobody is there to take the first event, and yet another one is asked for. -/
theorem dropped_within_demand :
    ∃ r, Transition.run ProducerConsumerStage.step
        (ProducerConsumerStage.start
          (⟨(), fun events _ _ => (events, ())⟩ : ProducerConsumerCallbacks Int Int Unit)
          { bufferSize := some 1 })
        [.subscribeToProducer "u" ⟨"n", 2, none, 0⟩ { maxDemand := some 1 }, .deferredAsk "u",
          .events "u" ⟨"n", 2, none, 0⟩ [6], .events "u" ⟨"n", 2, none, 0⟩ [7]] = some r ∧
      Transition.Along ProducerConsumerStage.step Admissible
        (ProducerConsumerStage.start
          (⟨(), fun events _ _ => (events, ())⟩ : ProducerConsumerCallbacks Int Int Unit)
          { bufferSize := some 1 })
        [.subscribeToProducer "u" ⟨"n", 2, none, 0⟩ { maxDemand := some 1 }, .deferredAsk "u",
          .events "u" ⟨"n", 2, none, 0⟩ [6], .events "u" ⟨"n", 2, none, 0⟩ [7]] ∧
      r.trace.returned = [6, 7] ∧ r.trace.dropped = [6] ∧ ¬ KeepsPressure r := by
  refine ⟨_, rfl, ⟨⟨rfl, by decide⟩, fun r₁ h₁ => ?_⟩, rfl, rfl, fun h => ?_⟩
  · cases h₁
    refine ⟨trivial, fun r₂ h₂ => ?_⟩
    cases h₂
    refine ⟨⟨_, rfl, by decide⟩, fun r₃ h₃ => ?_⟩
    cases h₃
    exact ⟨⟨_, rfl, by decide⟩, fun _ _ => trivial⟩
  · exact absurd h.1.length_eq (by decide)

end Libeam.Proofs.BackPressure
