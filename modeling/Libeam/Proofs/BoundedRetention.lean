import Libeam.Proofs.Retention
/-!
# The bound on what a stage retains

`bufferSize` bounds the buffer of a stage.  Behind a partition dispatcher events are
kept in the partition buffers as well, and the bound holds exactly as long as every
emission finds room for what the demand at hand does not take.
-/

namespace Libeam.Proofs.BoundedRetention

open Lib GenStage OutletMoves PartitionDispatch Retention
open Supervision (ActorRef)

variable {E E' S : Type}

/-- What the user returns to a producer finds room.  The buffer is drained before the
user is asked, so that its events count with those returned. -/
def ProducerFits (r : Recorded (ProducerStage E S) E) : ProducerMessage → Prop
  | .ask tag demand => ∀ q, r.stage.dispatcher = .partition q → 0 < demand →
      0 < (q.ask tag demand).2 → r.stage.demandMode = .forward →
      load (q.ask tag demand).1 (r.stage.buffer ++
        (r.stage.callbacks.handleDemand (q.ask tag demand).2 r.stage.userState).1) ≤
      r.stage.bufferSize
  | .setDemandMode => 0 < r.stage.accumulatedDemand →
      Room r.stage.toOutlet
        (r.stage.callbacks.handleDemand r.stage.accumulatedDemand r.stage.userState).1
  | _ => True

/-- What the user makes of a delivery finds room. -/
def ProducerConsumerFits (r : Recorded (ProducerConsumerStage E E' S) E) :
    ProducerConsumerMessage E' → Prop
  | .events tag producerRef events => r.stage.upstreamSubs.has tag = true →
      Room r.stage.toOutlet
        (r.stage.callbacks.handleEvents events ⟨tag, producerRef⟩ r.stage.userState).1
  | _ => True

/-! ## What is kept without an emission -/

theorem bounded_of_le {o o' : Outlet E} (h : Bounded o) (hsize : o'.bufferSize = o.bufferSize)
    (hle : (retained o').length ≤ (retained o).length) : Bounded o' := by
  unfold Bounded at h ⊢
  omega

theorem bounded_subscribe {o : Outlet E} (h : Bounded o) (tag : Tag)
    (consumerRef : ActorRef String) (maxDemand : Nat) (minDemand : Int)
    (partition : Option PartitionOption) :
    Bounded (o.subscribe tag consumerRef maxDemand minDemand partition).1 := by
  obtain ⟨error, heq⟩ | ⟨d', hsubscribe, heq⟩ :=
    subscribe_cases o tag consumerRef maxDemand minDemand partition
  · rw [heq]
    exact h
  · rw [heq]
    refine bounded_of_le h rfl ?_
    rw [retained, inside_subscribe hsubscribe]
    exact le_rfl

theorem bounded_cancel {o : Outlet E} (h : Bounded o) (tag : Tag) :
    Bounded (o.cancel tag).1 := by
  refine bounded_of_le h rfl ?_
  rw [Outlet.cancel, retained, inside_cancel]
  exact le_rfl

theorem bounded_ask {o : Outlet E} (h : Bounded o) (tag : Tag) (demand : Int) :
    Bounded (o.ask tag demand).1 := by
  refine bounded_of_le h rfl ?_
  rw [Outlet.ask, retained, inside_ask]
  exact le_rfl

/-- Crediting an ask and draining the buffer. -/
theorem drain_ask {o o' : Outlet E} {acts : Trace E} {q : PartitionDispatcher E} {tag : Tag}
    {demand : Int} (hq : o.dispatcher = .partition q)
    (hdrain : (o.ask tag demand).1.drain = .ok (o', acts)) :
    ∃ q' result, (q.ask tag demand).1.dispatch o.buffer = .ok (q', result) ∧
      o' = { o with dispatcher := .partition q', buffer := [] } ∧
      (retained o').length = load (q.ask tag demand).1 o.buffer ∧
      load (q.ask tag demand).1 o.buffer ≤ (retained o).length := by
  rw [Outlet.ask, hq] at hdrain
  obtain ⟨q', result, hdispatch, rfl, -⟩ := drain_partition rfl hdrain
  refine ⟨q', result, hdispatch, rfl, length_inside_dispatch hdispatch, ?_⟩
  have hle := load_le (dispatch_eq_ok hdispatch).2.1
  have hinside := inside_ask o.dispatcher tag demand
  rw [hq] at hinside
  change inside (.partition (q.ask tag demand).1) = _ at hinside
  rw [hinside, ← hq] at hle
  rw [length_retained]
  exact hle

/-! ## One message -/

theorem bounded_handleAsk {p p' : ProducerStage E S} {t acts : Trace E} {tag : Tag}
    {demand : Int} (hkept : Kept p.toOutlet) (hbounded : Bounded p.toOutlet)
    (h : p.handleAsk tag demand = .ok (p', acts)) :
    Bounded p'.toOutlet ↔ ProducerFits ⟨p, t⟩ (.ask tag demand) := by
  by_cases hpartition : ∃ q, p.dispatcher = .partition q
  · obtain ⟨q, hq⟩ := hpartition
    have hfits : ProducerFits ⟨p, t⟩ (.ask tag demand) ↔ (0 < demand → 0 < (q.ask tag demand).2 →
        p.demandMode = .forward → load (q.ask tag demand).1 (p.buffer ++
          (p.callbacks.handleDemand (q.ask tag demand).2 p.userState).1) ≤ p.bufferSize) := by
      refine ⟨fun hf => hf q hq, fun hf q₁ hq₁ => ?_⟩
      obtain rfl : q = q₁ := Dispatcher.partition.inj (hq.symm.trans hq₁)
      exact hf
    rw [hfits]
    obtain ⟨hnone, hp, -⟩ | ⟨hpos, o, drained, rest, hdrain, hforward, -⟩ := handleAsk_eq_ok h
    · rw [hp]
      exact ⟨fun _ hpos => absurd hpos (not_lt.2 hnone), fun _ => hbounded⟩
    · obtain ⟨q', result, hdispatch, rfl, hlength, hle⟩ := drain_ask hq hdrain
      have hwants : (p.toOutlet.ask tag demand).2 = (q.ask tag demand).2 := by
        rw [Outlet.ask, hq]
        rfl
      rw [hwants] at hforward
      have hdrained : Bounded { p.toOutlet with dispatcher := .partition q', buffer := [] } :=
        bounded_of_le hbounded rfl (hlength.trans_le hle)
      obtain ⟨hno, rfl, -⟩ | ⟨hyes, hmode, rfl, -⟩ | ⟨hyes, hmode, hevents⟩ :=
        forwardDemand_eq_ok hforward
      · exact ⟨fun _ _ hpos => absurd hpos (not_lt.2 hno), fun _ => hdrained⟩
      · refine ⟨fun _ _ _ hforward => ?_, fun _ => hdrained⟩
        exact nomatch hmode.symm.trans hforward
      · obtain ⟨o', emitted, hemits, rfl, -⟩ := demandEvents_eq_ok hevents
        have hhas : q'.hasSubscribers = true :=
          hasSubscribers_of_ask hyes (dispatch_eq_ok hdispatch).1 (placed_dispatch hdispatch
            ((samePlaces_ask q tag demand).placed (hkept.placed hq)))
        have hroom := bounded_emit (Nat.zero_le _) hdrained hemits
        rw [hroom]
        have hone : Room { p.toOutlet with dispatcher := .partition q', buffer := [] }
            (p.callbacks.handleDemand (q.ask tag demand).2 p.userState).1 ↔
              load (q.ask tag demand).1 (p.buffer ++
                (p.callbacks.handleDemand (q.ask tag demand).2 p.userState).1) ≤ p.bufferSize := by
          rw [← load_dispatch hdispatch]
          constructor
          · intro hroom
            have hle := hroom q' rfl
            rwa [if_pos hhas, List.length_nil, Nat.zero_add] at hle
          · intro hle q₁ hq₁
            cases hq₁
            rwa [if_pos hhas, List.length_nil, Nat.zero_add]
        exact hone.trans ⟨fun hle _ _ _ => hle, fun hle => hle hpos hyes hmode⟩
  · have hnone : ∀ q, p.dispatcher ≠ .partition q := fun q hq => hpartition ⟨q, hq⟩
    exact ⟨fun _ q hq => absurd hq (hnone q),
      fun _ => bounded_moves hkept hnone (producer_moves (m := .ask tag demand) h)⟩

theorem bounded_producer {p p' : ProducerStage E S} {t acts : Trace E} {m : ProducerMessage}
    (hkept : Kept p.toOutlet) (hbounded : Bounded p.toOutlet)
    (h : p.receive m = .ok (p', acts)) :
    Bounded p'.toOutlet ↔ ProducerFits ⟨p, t⟩ m := by
  cases m with
  | subscribe tag consumerRef maxDemand minDemand partition =>
      have hsubscribed := bounded_subscribe hbounded tag consumerRef maxDemand minDemand partition
      cases h
      exact ⟨fun _ => trivial, fun _ => hsubscribed⟩
  | ask tag demand => exact bounded_handleAsk hkept hbounded h
  | cancel tag reason =>
      have hcancelled := bounded_cancel hbounded tag
      cases h
      exact ⟨fun _ => trivial, fun _ => hcancelled⟩
  | setDemandMode =>
      obtain ⟨hnone, rfl, -⟩ | ⟨hpos, hevents⟩ := switchDemandMode_eq_ok h
      · exact ⟨fun _ hpos => absurd hpos (not_lt.2 hnone), fun _ => hbounded⟩
      · obtain ⟨o, emitted, hemits, rfl, -⟩ := demandEvents_eq_ok hevents
        have hroom := bounded_emit hkept.buffer_le hbounded hemits
        exact hroom.trans ⟨fun hfits _ => hfits, fun hfits => hfits hpos⟩

theorem bounded_producerConsumer {p p' : ProducerConsumerStage E E' S} {t acts : Trace E}
    {m : ProducerConsumerMessage E'} (hkept : Kept p.toOutlet) (hbounded : Bounded p.toOutlet)
    (h : p.receive m = .ok (p', acts)) :
    Bounded p'.toOutlet ↔ ProducerConsumerFits ⟨p, t⟩ m := by
  cases m with
  | subscribe tag consumerRef maxDemand minDemand partition =>
      have hsubscribed := bounded_subscribe hbounded tag consumerRef maxDemand minDemand partition
      cases h
      exact ⟨fun _ => trivial, fun _ => hsubscribed⟩
  | deferredAsk tag =>
      have houtlet := deferredAsk_outlet p tag
      rw [Except.ok.inj h] at houtlet
      change p'.toOutlet = p.toOutlet at houtlet
      rw [houtlet]
      exact ⟨fun _ => trivial, fun _ => hbounded⟩
  | events tag producerRef events =>
      obtain ⟨hnone, rfl, -⟩ | ⟨sub, o, emitted, asks, hsub, hemits, hreask, -⟩ :=
        handleUpstreamEvents_eq_ok h
      · refine ⟨fun _ hhas => ?_, fun _ => hbounded⟩
        rw [OrderedMap.has, hnone] at hhas
        exact absurd hhas Bool.false_ne_true
      · have hroom := bounded_emit hkept.buffer_le hbounded hemits
        have hhas : p.upstreamSubs.has tag = true := by
          rw [OrderedMap.has, hsub]
          rfl
        have houtlet : p'.toOutlet = o := (congrArg (fun done => done.1.toOutlet) hreask).trans
          (reaskUpstream_outlet _ tag _)
        rw [houtlet]
        exact hroom.trans ⟨fun hfits _ => hfits, fun hfits => hfits hhas⟩
  | ask tag demand =>
      have hbounded' : Bounded p'.toOutlet := by
        obtain ⟨-, rfl, -⟩ | ⟨-, -, rfl, -⟩ | ⟨-, -, o, drained, hdrain, rfl, -⟩ :=
          handleDownstreamAsk_eq_ok h
        · exact hbounded
        · exact bounded_ask hbounded tag demand
        · by_cases hpartition : ∃ q, p.dispatcher = .partition q
          · obtain ⟨q, hq⟩ := hpartition
            obtain ⟨q', result, -, rfl, hlength, hle⟩ := drain_ask hq hdrain
            exact bounded_of_le hbounded rfl (hlength.trans_le hle)
          · exact bounded_moves hkept (fun q hq => hpartition ⟨q, hq⟩)
              (producerConsumer_moves (m := .ask tag demand) h)
      exact ⟨fun _ => trivial, fun _ => hbounded'⟩
  | cancel tag reason =>
      have hcancelled : Bounded (p.handleCancel tag).1.toOutlet := by
        obtain ⟨-, heq⟩ | ⟨-, heq⟩ := handleCancel_cases p tag
        · rw [heq]
          exact bounded_cancel hbounded tag
        · rw [heq]
          exact hbounded
      rw [Except.ok.inj h] at hcancelled
      exact ⟨fun _ => trivial, fun _ => hcancelled⟩
  | subscribeToProducer | cancelUpstream =>
      cases h
      exact ⟨fun _ => trivial, fun _ => hbounded⟩

/-! ## Every run -/

theorem bounded_init (options : ProducerOptions E) : Bounded (Outlet.init options) := by
  rw [Bounded, retained_init]
  exact Nat.zero_le _

/-- After every step a stage retains no more than `bufferSize` events, all buffers
counted, if and only if every emission behind a partition dispatcher finds room. -/
theorem bounded_retention_iff :
    (∀ (callbacks : ProducerCallbacks E S) (options : ProducerOptions E)
      (mode : Option DemandMode) (ms : List ProducerMessage) (r : Recorded (ProducerStage E S) E),
      Transition.run ProducerStage.step (ProducerStage.start callbacks options mode) ms = some r →
      (Transition.Throughout ProducerStage.step (fun r => Bounded r.stage.toOutlet)
          (ProducerStage.start callbacks options mode) ms ↔
        Transition.Along ProducerStage.step ProducerFits
          (ProducerStage.start callbacks options mode) ms)) ∧
    ∀ (callbacks : ProducerConsumerCallbacks E E' S) (options : ProducerOptions E)
      (ms : List (ProducerConsumerMessage E')) (r : Recorded (ProducerConsumerStage E E' S) E),
      Transition.run ProducerConsumerStage.step (ProducerConsumerStage.start callbacks options)
        ms = some r →
      (Transition.Throughout ProducerConsumerStage.step (fun r => Bounded r.stage.toOutlet)
          (ProducerConsumerStage.start callbacks options) ms ↔
        Transition.Along ProducerConsumerStage.step ProducerConsumerFits
          (ProducerConsumerStage.start callbacks options) ms) := by
  constructor
  · intro callbacks options mode ms r hrun
    refine Transition.throughout_iff_along
      (I := fun r => Kept r.stage.toOutlet ∧ Bounded r.stage.toOutlet) (A := fun _ _ => True)
      ?_ (fun _ h => h.2) ?_ ⟨kept_init options, bounded_init options⟩
      (Transition.along_of_forall_mem (P := fun _ => True) (fun _ _ => trivial) _) hrun
    · rintro r m r' ⟨hkept, hbounded⟩ - hfits hstep
      obtain ⟨acts, hreceive, -⟩ := step_eq_some hstep
      exact ⟨hkept.moves (producer_moves hreceive),
        (bounded_producer hkept hbounded hreceive).2 hfits⟩
    · rintro r m r' ⟨hkept, hbounded⟩ - hfull hstep hbounded'
      obtain ⟨acts, hreceive, -⟩ := step_eq_some hstep
      exact hfull ((bounded_producer hkept hbounded hreceive).1 hbounded')
  · intro callbacks options ms r hrun
    refine Transition.throughout_iff_along
      (I := fun r => Kept r.stage.toOutlet ∧ Bounded r.stage.toOutlet) (A := fun _ _ => True)
      ?_ (fun _ h => h.2) ?_ ⟨kept_init options, bounded_init options⟩
      (Transition.along_of_forall_mem (P := fun _ => True) (fun _ _ => trivial) _) hrun
    · rintro r m r' ⟨hkept, hbounded⟩ - hfits hstep
      obtain ⟨acts, hreceive, -⟩ := step_eq_some hstep
      exact ⟨hkept.moves (producerConsumer_moves hreceive),
        (bounded_producerConsumer hkept hbounded hreceive).2 hfits⟩
    · rintro r m r' ⟨hkept, hbounded⟩ - hfull hstep hbounded'
      obtain ⟨acts, hreceive, -⟩ := step_eq_some hstep
      exact hfull ((bounded_producerConsumer hkept hbounded hreceive).1 hbounded')

/-- A producer whose partitions keep one event, and a ProducerConsumer that keeps two. -/
theorem bounded_retention_two :
    ∃ (r : Recorded (ProducerStage Int Unit) Int)
      (r' : Recorded (ProducerConsumerStage Int Int Unit) Int),
      Transition.run ProducerStage.step
        (ProducerStage.start ⟨(), fun _ _ => ([6, 7], ())⟩
          { bufferSize := some 1, dispatcher := some (.partition 2 fun n => some (n % 2)) } none)
        [.subscribe "a" ⟨"n", 1, none, 0⟩ 5 2 (some (.number 0)), .ask "a" 1] = some r ∧
      (retained r.stage.toOutlet).length = 1 ∧
      Transition.Throughout ProducerStage.step (fun r => Bounded r.stage.toOutlet)
        (ProducerStage.start ⟨(), fun _ _ => ([6, 7], ())⟩
          { bufferSize := some 1, dispatcher := some (.partition 2 fun n => some (n % 2)) } none)
        [.subscribe "a" ⟨"n", 1, none, 0⟩ 5 2 (some (.number 0)), .ask "a" 1] ∧
      Transition.run ProducerConsumerStage.step
        (ProducerConsumerStage.start ⟨(), fun events _ _ => (events, ())⟩
          { bufferSize := some 2, dispatcher := some (.partition 2 fun n => some (n % 2)) })
        [.subscribeToProducer "u" ⟨"n", 2, none, 0⟩ {}, .events "u" ⟨"n", 2, none, 0⟩ [6, 7]] =
        some r' ∧
      (retained r'.stage.toOutlet).length = 2 ∧
      Transition.Throughout ProducerConsumerStage.step (fun r => Bounded r.stage.toOutlet)
        (ProducerConsumerStage.start ⟨(), fun events _ _ => (events, ())⟩
          { bufferSize := some 2, dispatcher := some (.partition 2 fun n => some (n % 2)) })
        [.subscribeToProducer "u" ⟨"n", 2, none, 0⟩ {}, .events "u" ⟨"n", 2, none, 0⟩ [6, 7]] := by
  have hrun : ∃ r, Transition.run ProducerStage.step
      (ProducerStage.start ⟨(), fun _ _ => ([6, 7], ())⟩
        { bufferSize := some 1, dispatcher := some (.partition 2 fun n => some (n % 2)) } none)
      [.subscribe "a" ⟨"n", 1, none, 0⟩ 5 2 (some (.number 0)), .ask "a" 1] = some r ∧
      (retained r.stage.toOutlet).length = 1 := ⟨_, rfl, rfl⟩
  have hrun' : ∃ r, Transition.run ProducerConsumerStage.step
      (ProducerConsumerStage.start ⟨(), fun events _ _ => (events, ())⟩
        { bufferSize := some 2, dispatcher := some (.partition 2 fun n => some (n % 2)) })
      [.subscribeToProducer "u" ⟨"n", 2, none, 0⟩ {}, .events "u" ⟨"n", 2, none, 0⟩ [6, 7]] =
      some r ∧ (retained r.stage.toOutlet).length = 2 := ⟨_, rfl, rfl⟩
  obtain ⟨r, hr, hlength⟩ := hrun
  obtain ⟨r', hr', hlength'⟩ := hrun'
  obtain ⟨hproducer, hproducerConsumer⟩ := @bounded_retention_iff Int Int Unit
  refine ⟨r, r', hr, hlength, (hproducer _ _ _ _ _ hr).2 ⟨trivial, fun r₁ h₁ => ?_⟩, hr', hlength',
    (hproducerConsumer _ _ _ _ hr').2 ⟨trivial, fun r₁ h₁ => ?_⟩⟩
  · cases h₁
    refine ⟨fun q hq _ _ _ => ?_, fun _ _ => trivial⟩
    cases hq
    decide
  · cases h₁
    refine ⟨fun _ q hq => ?_, fun _ _ => trivial⟩
    cases hq
    decide

/-- Three events of a partition that nobody is subscribed to, with a bound of one. -/
theorem unbounded_partition :
    ∃ r, Transition.run ProducerStage.step
        (ProducerStage.start ⟨(), fun _ _ => ([1, 3, 5], ())⟩
          { bufferSize := some 1, dispatcher := some (.partition 2 fun n => some (n % 2)) } none)
        [.subscribe "a" ⟨"n", 1, none, 0⟩ 5 2 (some (.number 0)), .ask "a" 1] = some r ∧
      retained r.stage.toOutlet = [1, 3, 5] ∧ ¬ Bounded r.stage.toOutlet :=
  ⟨_, rfl, rfl, by decide⟩

end Libeam.Proofs.BoundedRetention
