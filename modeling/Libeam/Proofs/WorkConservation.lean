import Libeam.Proofs.Retention
/-!
# Work conservation

A stage that has handled an ask should retain no event that a subscriber could still be
sent.  A `Producer` drains its dispatcher on every ask; a `ProducerConsumer` does so only
when its own buffer is not empty, and forgets what the partitions keep.
-/

namespace Libeam.Proofs.WorkConservation

open Lib GenStage OutletMoves
open DemandDispatch (Serves splits_dispatch)
open BroadcastDispatch (dispatch_settles)
open PartitionDispatch Retention

variable {E E' S : Type}

/-- No retained event could be sent to a subscriber that has demand for it. -/
def Conserved (o : Outlet E) : Prop :=
  match o.dispatcher with
  | .demand d => o.buffer = [] ∨ ∀ e ∈ d.subscribers.entries, e.2.demand ≤ 0
  | .broadcast b => o.buffer = [] ∨ b.subscribers.entries = [] ∨ b.waiting ≤ 0
  | .partition q => ∀ p < q.partitionCount,
      (q.partitionBuffers p = [] ∧ share q.hash p o.buffer = []) ∨ q.demandOf p ≤ 0

/-- Once the ask is credited no partition has both events in its own buffer and demand. -/
def PartitionsIdle (o : Outlet E) (tag : Tag) (demand : Int) : Prop :=
  ∀ q, o.dispatcher = .partition q → ∀ p < q.partitionCount,
    q.partitionBuffers p = [] ∨ (q.ask tag demand).1.demandOf p ≤ 0

/-- The events that some batches bring to a subscription. -/
def eventsTo (tag : Tag) (batches : List (Dispatched E)) : List E :=
  eventsOf (batches.filter fun b => b.tag = tag)

/-- What a stage does before it asks the user for new events: whatever it sends then, it
had retained. -/
def beforeDemand (acts : Trace E) : Trace E :=
  acts.takeWhile fun act => match act with
    | .handleDemand _ => false
    | _ => true

/-! ## Draining and emitting conserve -/

/-- Nobody gets demand by being served. -/
theorem Serves.nonpos {m m' : OrderedMap Tag ProducerSub} {batches : List (Dispatched E)}
    (h : Serves m batches m') (hnone : ∀ e ∈ m.entries, e.2.demand ≤ 0) :
    ∀ e ∈ m'.entries, e.2.demand ≤ 0 := by
  intro e he
  have hget := h.get_eq e.1
  rw [OrderedMap.get_eq_some.2 he, eq_comm, Option.map_eq_some_iff] at hget
  obtain ⟨sub, hsub, heq⟩ := hget
  have hbefore := hnone _ (OrderedMap.get_eq_some.1 hsub)
  have hcount := countFor_nonneg e.1 batches
  rw [← heq]
  simp only [ProducerSub.grant]
  dsimp only at hbefore
  omega

theorem conserved_drain {o o' : Outlet E} {acts : Trace E} (hsane : Sane o.dispatcher)
    (hdrain : o.drain = .ok (o', acts)) : Conserved o' := by
  obtain ⟨d', result, hdispatch, rfl, -⟩ := drain_eq_ok hdrain
  unfold Conserved
  cases hd : o.dispatcher with
  | demand d =>
      rw [hd] at hdispatch
      cases hdispatch
      exact (splits_dispatch d o.buffer).used
  | broadcast b =>
      rw [hd] at hdispatch hsane
      cases hdispatch
      exact (dispatch_settles hsane o.buffer).imp_right fun hzero => .inr hzero.le
  | partition q =>
      rw [hd] at hdispatch
      obtain ⟨q', rfl, hdispatch'⟩ := dispatch_partition_eq_ok hdispatch
      obtain ⟨hsame, -, hnil, hlanes, -⟩ := dispatch_eq_ok hdispatch'
      intro p hp
      have hsettled := Lane.settled_serve ((lane q p).pass (share q.hash p o.buffer))
      rw [← hlanes p (hp.trans_eq hsame.count)] at hsettled
      refine hsettled.imp_left fun hempty => ⟨hempty, ?_⟩
      change share q'.hash p result.remaining = []
      rw [hnil]
      rfl

/-- Without subscribers there is nobody to send anything to. -/
theorem conserved_of_empty {o : Outlet E} (hsane : Sane o.dispatcher)
    (hhas : o.dispatcher.hasSubscribers = false) : Conserved o := by
  unfold Conserved
  cases hd : o.dispatcher with
  | demand d =>
      rw [hd] at hhas
      have hnone : d.subscribers.entries = [] := DemandDispatch.hasSubscribers_eq_false.1 hhas
      exact .inr fun e he => absurd (hnone ▸ he) List.not_mem_nil
  | broadcast b =>
      rw [hd] at hhas
      exact .inr (.inl (BroadcastDispatch.hasSubscribers_eq_false.1 hhas))
  | partition q =>
      rw [hd] at hhas hsane
      exact fun p _ => .inr (demandOf_nonpos hsane hhas p)

/-- The dispatcher takes new events past the buffer. -/
theorem conserved_dispatch {o : Outlet E} {events : List E} {d' : Dispatcher E}
    {result : DispatchResult E} (hsane : Sane o.dispatcher) (h : Conserved o)
    (hdispatch : o.dispatcher.dispatch events = .ok (d', result)) :
    Conserved { o with dispatcher := d', buffer := keptRest o result.remaining } := by
  unfold Conserved at h ⊢
  cases hd : o.dispatcher with
  | demand d =>
      rw [hd] at hdispatch h
      cases hdispatch
      have hsplits := splits_dispatch d events
      rcases h with hnil | hnone
      · rcases hsplits.used with hrest | hused
        · refine .inl ?_
          dsimp only at hrest ⊢
          rw [keptRest, if_pos hrest]
          exact hnil
        · exact .inr hused
      · exact .inr (Serves.nonpos hsplits.serves hnone)
  | broadcast b =>
      rw [hd] at hdispatch h hsane
      cases hdispatch
      obtain ⟨hb, -, -⟩ := BroadcastDispatch.dispatch_eq hsane events
      rcases h with hnil | hnone | hzero
      · rcases dispatch_settles hsane events with hrest | hused
        · refine .inl ?_
          dsimp only at hrest ⊢
          rw [keptRest, if_pos hrest]
          exact hnil
        · exact .inr (.inr hused.le)
      · refine .inr (.inl ?_)
        rw [hb]
        exact hnone
      · refine .inr (.inr ?_)
        rw [hb]
        have hcast := Int.natCast_nonneg (BroadcastDispatch.sendable b events)
        dsimp only
        omega
  | partition q =>
      rw [hd] at hdispatch h
      obtain ⟨q', rfl, hdispatch'⟩ := dispatch_partition_eq_ok hdispatch
      obtain ⟨hsame, -, hnil, hlanes, -⟩ := dispatch_eq_ok hdispatch'
      intro p hp
      have hp' : p < q.partitionCount := hp.trans_eq hsame.count
      have hlane := hlanes p hp'
      dsimp only at hnil ⊢
      rw [keptRest, if_pos hnil, hsame.hash]
      rcases h p hp' with ⟨-, hshare⟩ | hnone
      · have hsettled := Lane.settled_serve ((lane q p).pass (share q.hash p events))
        rw [← hlane] at hsettled
        exact hsettled.imp_left fun hempty => ⟨hempty, hshare⟩
      · refine .inr ?_
        have hcredit := Lane.credit_serve_pass (lane q p) (share q.hash p events)
        rw [← hlane] at hcredit
        change q'.demandOf p = q.demandOf p - _ at hcredit
        omega

theorem conserved_emit {o o' : Outlet E} {events : List E} {acts : Trace E}
    (hsane : Sane o.dispatcher) (h : Conserved o) (hemit : Emits o events acts o') :
    Conserved o' := by
  obtain ⟨d', batches, rest, sents, hpasses, rfl, -⟩ := emits_passes hemit
  cases hpasses with
  | none =>
      unfold keptRest
      rw [if_pos rfl]
      exact h
  | buffer _ hhas => exact conserved_of_empty hsane hhas
  | dispatch _ _ hdispatch => exact conserved_dispatch hsane h hdispatch

/-! ## One ask -/

theorem conserved_handleAsk {p p' : ProducerStage E S} {acts : Trace E} {tag : Tag}
    {demand : Int} (hkept : Kept p.toOutlet) (h : p.handleAsk tag demand = .ok (p', acts)) :
    Conserved p'.toOutlet ↔ 0 < demand ∨ Conserved p.toOutlet := by
  obtain ⟨hnone, hp, -⟩ | ⟨hpos, o, drained, rest, hdrain, hforward, -⟩ := handleAsk_eq_ok h
  · rw [hp]
    exact ⟨.inr, fun hor => hor.resolve_left (not_lt.2 hnone)⟩
  · refine ⟨fun _ => .inl hpos, fun _ => ?_⟩
    have hasked : Sane (p.toOutlet.ask tag demand).1.dispatcher :=
      sane_ask hkept.sane tag hpos.le
    have hconserved := conserved_drain hasked hdrain
    obtain ⟨-, rfl, -⟩ | ⟨-, -, rfl, -⟩ | ⟨-, -, hevents⟩ := forwardDemand_eq_ok hforward
    · exact hconserved
    · exact hconserved
    · obtain ⟨o', emitted, hemits, rfl, -⟩ := demandEvents_eq_ok hevents
      obtain ⟨d', result, hdispatch, rfl, -⟩ := drain_eq_ok hdrain
      exact conserved_emit (sane_dispatch hasked hdispatch) hconserved hemits

/-- With an empty buffer only a partition can hold events back. -/
theorem conserved_ask_iff {o : Outlet E} (hnil : o.buffer = []) (tag : Tag) (demand : Int) :
    Conserved (o.ask tag demand).1 ↔ PartitionsIdle o tag demand := by
  unfold Conserved PartitionsIdle Outlet.ask
  cases hd : o.dispatcher with
  | demand | broadcast => exact ⟨fun _ q hq => (nomatch hq), fun _ => .inl hnil⟩
  | partition q =>
      have hsame := samePlaces_ask q tag demand
      have hbuffers := buffers_ask q tag demand
      constructor
      · intro h q₁ hq₁ p hp
        cases hq₁
        have hone := h p (hp.trans_eq hsame.count.symm)
        exact hone.imp_left fun hboth => hbuffers ▸ hboth.1
      · intro h p hp
        refine (h q rfl p (hp.trans_eq hsame.count)).imp_left fun hempty => ⟨?_, ?_⟩
        · exact hbuffers ▸ hempty
        · change share _ p o.buffer = []
          rw [hnil]
          rfl

theorem conserved_handleDownstreamAsk {p p' : ProducerConsumerStage E E' S} {acts : Trace E}
    {tag : Tag} {demand : Int} (hkept : Kept p.toOutlet)
    (h : p.handleDownstreamAsk tag demand = .ok (p', acts)) :
    Conserved p'.toOutlet ↔
      if 0 < demand then p.buffer ≠ [] ∨ PartitionsIdle p.toOutlet tag demand
      else Conserved p.toOutlet := by
  obtain ⟨hnone, hp, -⟩ | ⟨hpos, hnil, rfl, -⟩ | ⟨hpos, hne, o, drained, hdrain, rfl, -⟩ :=
    handleDownstreamAsk_eq_ok h
  · rw [if_neg (not_lt.2 hnone), hp]
  · rw [if_pos hpos]
    refine (conserved_ask_iff hnil tag demand).trans ⟨.inr, fun hor => hor.resolve_left ?_⟩
    exact fun hne => hne hnil
  · rw [if_pos hpos]
    exact ⟨fun _ => .inl hne, fun _ => conserved_drain (sane_ask hkept.sane tag hpos.le) hdrain⟩

/-! ## The same ask to both stages -/

theorem eventsTo_eq_nil {batches : List (Dispatched E)} :
    (∀ tag, eventsTo tag batches = []) ↔ eventsOf batches = [] := by
  unfold eventsTo eventsOf
  simp only [List.flatMap_eq_nil_iff, List.mem_filter, decide_eq_true_eq]
  exact ⟨fun h b hb => h b.tag b ⟨hb, rfl⟩, fun h tag b hb => h b hb.1⟩

/-- Whether a drain of an empty buffer sends anything. -/
theorem eventsOf_drain_eq_nil {o o' : Outlet E} {acts : Trace E} {tag : Tag} {demand : Int}
    (hsane : Sane (o.ask tag demand).1.dispatcher) (hnil : o.buffer = [])
    (hdrain : (o.ask tag demand).1.drain = .ok (o', acts)) :
    eventsOf acts.batches = [] ↔ PartitionsIdle o tag demand := by
  obtain ⟨d', result, hdispatch, rfl, rfl⟩ := drain_eq_ok hdrain
  have hbatches : Trace.batches [Act.sent result.dispatched] = result.dispatched :=
    List.append_nil _
  rw [hbatches]
  change (o.dispatcher.ask tag demand).1.dispatch o.buffer = .ok (d', result) at hdispatch
  change Sane (o.dispatcher.ask tag demand).1 at hsane
  rw [hnil] at hdispatch
  unfold PartitionsIdle
  cases hd : o.dispatcher with
  | demand d =>
      rw [hd] at hdispatch
      cases hdispatch
      have hevents := (splits_dispatch (d.ask tag demand).1 ([] : List E)).events_eq
      exact ⟨fun _ q hq => (nomatch hq), fun _ => (List.append_eq_nil_iff.1 hevents).1⟩
  | broadcast b =>
      rw [hd] at hdispatch hsane
      cases hdispatch
      refine ⟨fun _ q hq => (nomatch hq), fun _ => ?_⟩
      obtain ⟨-, -, hsent⟩ := BroadcastDispatch.dispatch_eq hsane ([] : List E)
      rcases hsent with ⟨hnone, -⟩ | hsent
      · rw [hnone]
        rfl
      · rw [hsent, eventsOf, List.flatMap_eq_nil_iff]
        intro batch hbatch
        obtain ⟨entry, -, rfl⟩ := List.mem_map.1 hbatch
        exact List.take_nil
  | partition q =>
      rw [hd] at hdispatch
      change (Dispatcher.partition (q.ask tag demand).1).dispatch [] = .ok (d', result) at hdispatch
      obtain ⟨q', rfl, hdispatch'⟩ := dispatch_partition_eq_ok hdispatch
      have hsame := samePlaces_ask q tag demand
      obtain ⟨hsame', -, -, -, hsent⟩ := dispatch_eq_ok hdispatch'
      rw [hsent, eventsOf_batches fun p hp => isSome_of_bucket hsame' hp,
        List.flatMap_eq_nil_iff, hsame'.count, hsame.count]
      have hbuffers := buffers_ask q tag demand
      have hbucket : ∀ p, bucket (q.ask tag demand).1 [] p = [] ↔
          q.partitionBuffers p = [] ∨ (q.ask tag demand).1.demandOf p ≤ 0 := by
        intro p
        have hserved : bucket (q.ask tag demand).1 [] p =
            (lane (q.ask tag demand).1 p).served := by
          simp [bucket, share]
        rw [hserved, ← hbuffers]
        exact Lane.served_eq_nil
      constructor
      · intro h q₁ hq₁ p hp
        cases hq₁
        exact (hbucket p).1 (h p (List.mem_range.2 hp))
      · intro h p hp
        exact (hbucket p).2 (h q rfl p (List.mem_range.1 hp))

theorem same_retained {p p' : ProducerStage E S} {c c' : ProducerConsumerStage E E' S}
    {acts acts' : Trace E} {tag : Tag} {demand : Int} (hsane : Sane p.dispatcher)
    (hsame : p.toOutlet = c.toOutlet) (h : p.handleAsk tag demand = .ok (p', acts))
    (h' : c.handleDownstreamAsk tag demand = .ok (c', acts')) :
    (∀ tag', eventsTo tag' (beforeDemand acts).batches = eventsTo tag' acts'.batches) ↔
      (0 < demand → p.buffer ≠ [] ∨ PartitionsIdle p.toOutlet tag demand) := by
  obtain ⟨hnone, -, rfl⟩ | ⟨hpos, o, drained, rest, hdrain, hforward, rfl⟩ := handleAsk_eq_ok h
  · obtain ⟨-, -, rfl⟩ | ⟨hpos, -⟩ | ⟨hpos, -⟩ := handleDownstreamAsk_eq_ok h'
    · exact ⟨fun _ hpos => absurd hpos (not_lt.2 hnone), fun _ _ => rfl⟩
    · exact absurd hpos (not_lt.2 hnone)
    · exact absurd hpos (not_lt.2 hnone)
  · -- what comes before the user is asked is the drain
    have hbefore : (beforeDemand (.asked tag demand :: (drained ++ rest))).batches =
        drained.batches := by
      obtain ⟨d', result, -, -, rfl⟩ := drain_eq_ok hdrain
      obtain ⟨-, -, rfl⟩ | ⟨-, -, -, rfl⟩ | ⟨-, -, hevents⟩ := forwardDemand_eq_ok hforward
      · rfl
      · rfl
      · obtain ⟨o', emitted, -, -, rfl⟩ := demandEvents_eq_ok hevents
        rfl
    rw [hbefore]
    obtain ⟨hnone, -⟩ | ⟨-, hnil, -, rfl⟩ | ⟨-, hne, o', drained', hdrain', -, rfl⟩ :=
      handleDownstreamAsk_eq_ok h'
    · exact absurd hpos (not_lt.2 hnone)
    · rw [← hsame] at hnil
      have hidle := eventsOf_drain_eq_nil (sane_ask hsane tag hpos.le) hnil hdrain
      refine (eventsTo_eq_nil.trans hidle).trans ⟨fun hidle _ => .inr hidle, fun hor => ?_⟩
      exact (hor hpos).resolve_left fun hne => hne hnil
    · rw [← hsame] at hne hdrain'
      rw [hdrain] at hdrain'
      cases hdrain'
      exact ⟨fun _ _ => .inl hne, fun _ _ => rfl⟩

/-- When a `Producer` has handled an ask for demand it retains nothing that it could send;
a `ProducerConsumer` does so if its buffer was not empty or no partition is left with both
events and demand; an ask for nothing changes nothing.  On the same condition both send
the same retained events. -/
theorem work_conserved_iff :
    (∀ (callbacks : ProducerCallbacks E S) (options : ProducerOptions E)
      (mode : Option DemandMode) (ms : List ProducerMessage)
      (r r' : Recorded (ProducerStage E S) E) (tag : Tag) (demand : Int),
      Transition.run ProducerStage.step (ProducerStage.start callbacks options mode) ms = some r →
      ProducerStage.step r (.ask tag demand) = some r' →
      (Conserved r'.stage.toOutlet ↔ 0 < demand ∨ Conserved r.stage.toOutlet)) ∧
    (∀ (callbacks : ProducerConsumerCallbacks E E' S) (options : ProducerOptions E)
      (ms : List (ProducerConsumerMessage E'))
      (r r' : Recorded (ProducerConsumerStage E E' S) E) (tag : Tag) (demand : Int),
      Transition.run ProducerConsumerStage.step (ProducerConsumerStage.start callbacks options)
        ms = some r →
      ProducerConsumerStage.step r (.ask tag demand) = some r' →
      (Conserved r'.stage.toOutlet ↔
        if 0 < demand then r.stage.buffer ≠ [] ∨ PartitionsIdle r.stage.toOutlet tag demand
        else Conserved r.stage.toOutlet)) ∧
    ∀ (callbacks : ProducerCallbacks E S) (options : ProducerOptions E)
      (mode : Option DemandMode) (ms : List ProducerMessage)
      (r : Recorded (ProducerStage E S) E) (p' : ProducerStage E S)
      (c c' : ProducerConsumerStage E E' S) (tag : Tag) (demand : Int) (acts acts' : Trace E),
      Transition.run ProducerStage.step (ProducerStage.start callbacks options mode) ms = some r →
      r.stage.toOutlet = c.toOutlet →
      r.stage.receive (.ask tag demand) = .ok (p', acts) →
      c.receive (.ask tag demand) = .ok (c', acts') →
      ((∀ tag', eventsTo tag' (beforeDemand acts).batches = eventsTo tag' acts'.batches) ↔
        (0 < demand → r.stage.buffer ≠ [] ∨ PartitionsIdle r.stage.toOutlet tag demand)) := by
  refine ⟨?_, ?_, ?_⟩
  · intro callbacks options mode ms r r' tag demand hrun hstep
    obtain ⟨acts, hreceive, -⟩ := step_eq_some hstep
    exact conserved_handleAsk ((kept_init options).moves (producer_run_moves hrun)) hreceive
  · intro callbacks options ms r r' tag demand hrun hstep
    obtain ⟨acts, hreceive, -⟩ := step_eq_some hstep
    exact conserved_handleDownstreamAsk
      ((kept_init options).moves (producerConsumer_run_moves hrun)) hreceive
  · intro callbacks options mode ms r p' c c' tag demand acts acts' hrun hsame hreceive hreceive'
    exact same_retained ((kept_init options).moves (producer_run_moves hrun)).sane hsame hreceive
      hreceive'

/-- A ProducerConsumer that receives an event before anybody asks, and a producer in the
same place. -/
theorem work_conserved_buffered :
    ∃ (r r' : Recorded (ProducerStage Int Unit) Int)
      (c c' : Recorded (ProducerConsumerStage Int Int Unit) Int)
      (p' : ProducerStage Int Unit) (d d' : ProducerConsumerStage Int Int Unit)
      (acts acts' : Trace Int),
      Transition.run ProducerStage.step
        (ProducerStage.start ⟨(), fun _ _ => ([6, 7], ())⟩ {} none)
        [.subscribe "a" ⟨"n", 1, none, 0⟩ 5 2 none] = some r ∧
      ProducerStage.step r (.ask "a" 1) = some r' ∧
      (Conserved r'.stage.toOutlet ↔ 0 < (1 : Int) ∨ Conserved r.stage.toOutlet) ∧
      Transition.run ProducerConsumerStage.step
        (ProducerConsumerStage.start ⟨(), fun events _ _ => (events, ())⟩ {})
        [.subscribeToProducer "u" ⟨"n", 2, none, 0⟩ {}, .events "u" ⟨"n", 2, none, 0⟩ [6],
          .subscribe "a" ⟨"n", 1, none, 0⟩ 5 2 none] = some c ∧
      ProducerConsumerStage.step c (.ask "a" 1) = some c' ∧
      (Conserved c'.stage.toOutlet ↔
        if 0 < (1 : Int) then c.stage.buffer ≠ [] ∨ PartitionsIdle c.stage.toOutlet "a" 1
        else Conserved c.stage.toOutlet) ∧
      r.stage.receive (.ask "a" 1) = .ok (p', acts) ∧ d.receive (.ask "a" 1) = .ok (d', acts') ∧
      ((∀ tag', eventsTo tag' (beforeDemand acts).batches = eventsTo tag' acts'.batches) ↔
        (0 < (1 : Int) → r.stage.buffer ≠ [] ∨ PartitionsIdle r.stage.toOutlet "a" 1)) := by
  have hrun : ∃ r r' p' acts d d' acts', Transition.run ProducerStage.step
      (ProducerStage.start (⟨(), fun _ _ => ([6, 7], ())⟩ : ProducerCallbacks Int Unit) {} none)
      [.subscribe "a" ⟨"n", 1, none, 0⟩ 5 2 none] = some r ∧
      ProducerStage.step r (.ask "a" 1) = some r' ∧
      r.stage.receive (.ask "a" 1) = .ok (p', acts) ∧
      r.stage.toOutlet = ProducerConsumerStage.toOutlet d ∧
      (d : ProducerConsumerStage Int Int Unit).receive (.ask "a" 1) = .ok (d', acts') :=
    ⟨_, _, _, _, ⟨_, ⟨(), fun events _ _ => (events, ())⟩, (), .empty⟩, _, _, rfl, rfl, rfl, rfl,
      rfl⟩
  have hrun' : ∃ c c', Transition.run ProducerConsumerStage.step
      (ProducerConsumerStage.start
        (⟨(), fun events _ _ => (events, ())⟩ : ProducerConsumerCallbacks Int Int Unit) {})
      [.subscribeToProducer "u" ⟨"n", 2, none, 0⟩ {}, .events "u" ⟨"n", 2, none, 0⟩ [6],
        .subscribe "a" ⟨"n", 1, none, 0⟩ 5 2 none] = some c ∧
      ProducerConsumerStage.step c (.ask "a" 1) = some c' := ⟨_, _, rfl, rfl⟩
  obtain ⟨r, r', p', acts, d, d', acts', hr, hr', hacts, hsame, hacts'⟩ := hrun
  obtain ⟨c, c', hc, hc'⟩ := hrun'
  obtain ⟨hproducer, hproducerConsumer, hboth⟩ := @work_conserved_iff Int Int Unit
  exact ⟨r, r', c, c', p', d, d', acts, acts', hr, hr', hproducer _ _ _ _ _ _ _ _ hr hr', hc, hc',
    hproducerConsumer _ _ _ _ _ _ _ hc hc', hacts, hacts',
    hboth _ _ _ _ _ _ _ _ _ _ _ _ hr hsame hacts hacts'⟩

/-- Two events that wait in a partition buffer when their subscriber asks: a
ProducerConsumer keeps them, a Producer would send them. -/
theorem kept_from_asker :
    ∃ (r r' : Recorded (ProducerConsumerStage Int Int Unit) Int)
      (p p' : ProducerStage Int Unit) (acts : Trace Int),
      Transition.run ProducerConsumerStage.step
        (ProducerConsumerStage.start ⟨(), fun events _ _ => (events, ())⟩
          { dispatcher := some (.partition 1 fun _ => some 0) })
        [.subscribe "a" ⟨"n", 1, none, 0⟩ 5 2 (some (.number 0)),
          .subscribeToProducer "u" ⟨"n", 2, none, 0⟩ {},
          .events "u" ⟨"n", 2, none, 0⟩ [6, 7]] = some r ∧
      ProducerConsumerStage.step r (.ask "a" 2) = some r' ∧ ¬ Conserved r'.stage.toOutlet ∧
      p.toOutlet = r.stage.toOutlet ∧ p.receive (.ask "a" 2) = .ok (p', acts) ∧
      eventsTo "a" (beforeDemand acts).batches = [6, 7] ∧
      r'.trace.batches = r.trace.batches := by
  refine ⟨_, _, ⟨_, ⟨(), fun _ _ => ([], ())⟩, (), .forward, 0⟩, _, _, rfl, rfl, fun h => ?_, rfl,
    rfl, rfl, rfl⟩
  rcases h 0 (by decide) with ⟨hempty, -⟩ | hnone
  · exact absurd hempty (by decide)
  · exact absurd hnone (by decide)

end Libeam.Proofs.WorkConservation
