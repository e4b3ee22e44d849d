import Libeam.Proofs.OwedDemand
/-!
# The order of events behind a partition dispatcher

The events of a partition wait in its own buffer and, behind them, in the buffer of the
stage.  A dispatch lets the events it is given pass by the partition's own buffer, so
that the order rests on who is given to the dispatcher, and when.
-/

namespace Libeam.Proofs.PartitionOrder

open Lib GenStage OutletMoves
open OwedDemand (NewTags)
open PartitionDispatch Retention
open Supervision (ActorRef)

variable {E E' S : Type}

/-- The partitions that the current subscriptions are for. -/
abbrev Seats := OrderedMap Tag Nat

def seat (seats : Seats) : Act E → Seats
  | .subscribed tag partition =>
      match partition.bind PartitionOption.index with
      | some p => seats.set tag p.toNat
      | none => seats
  | .cancelled tag => seats.delete tag
  | _ => seats

/-- The events that an act sends to the subscriber of a partition. -/
def sendsFor (p : Nat) (seats : Seats) : Act E → List E
  | .sent batches => eventsOf (batches.filter fun b => seats.get b.tag = some p)
  | _ => []

def sentFrom (p : Nat) : Seats → Trace E → List E
  | _, [] => []
  | seats, act :: t => sendsFor p seats act ++ sentFrom p (seat seats act) t

/-- The events sent to the successive subscribers of a partition, in order. -/
def sentFor (p : Nat) (t : Trace E) : List E := sentFrom p .empty t

def seats (t : Trace E) : Seats := t.foldl seat .empty

/-- What was sent for a partition and what is retained for it are its events in the order
of their emission. -/
def InOrder (o : Outlet E) (t : Trace E) : Prop :=
  ∀ q, o.dispatcher = .partition q → ∀ p < q.partitionCount,
    sentFor p t ++ (q.partitionBuffers p ++ share q.hash p o.buffer) =
      share q.hash p t.returned

/-! ## What a trace sends -/

theorem sentFrom_append (p : Nat) (s : Seats) (t u : Trace E) :
    sentFrom p s (t ++ u) = sentFrom p s t ++ sentFrom p (t.foldl seat s) u := by
  induction t generalizing s with
  | nil => rfl
  | cons act t ih =>
      rw [List.cons_append, sentFrom, sentFrom, ih, List.append_assoc]
      rfl

theorem sentFor_append (p : Nat) (t u : Trace E) :
    sentFor p (t ++ u) = sentFor p t ++ sentFrom p (seats t) u := sentFrom_append p .empty t u

theorem seats_append (t u : Trace E) : seats (t ++ u) = u.foldl seat (seats t) :=
  List.foldl_append

/-- Acts that neither seat nor send. -/
structure Still (acts : Trace E) : Prop where
  seat_eq : ∀ s, acts.foldl seat s = s
  sent_eq : ∀ p s, sentFrom p s acts = []

theorem still_nil : Still ([] : Trace E) := ⟨fun _ => rfl, fun _ _ => rfl⟩

theorem Still.cons {act : Act E} {acts : Trace E} (h : Still acts)
    (hseat : ∀ s, seat s act = s) (hsends : ∀ p s, sendsFor p s act = []) :
    Still (act :: acts) := by
  refine ⟨fun s => ?_, fun p s => ?_⟩
  · rw [List.foldl_cons, hseat, h.seat_eq]
  · rw [sentFrom, hsends, hseat, h.sent_eq]
    rfl

theorem still_dropActs (events : List E) : Still (dropActs events) := by
  unfold dropActs
  split_ifs
  · exact still_nil
  · exact still_nil.cons (fun _ => rfl) fun _ _ => rfl

theorem still_silent {act : Act E} (h : Silent act) : Still [act] := by
  cases act with
  | handleDemand | received | askedProducer => exact still_nil.cons (fun _ => rfl) fun _ _ => rfl
  | _ => exact h.elim

/-! ## The invariant -/

/-- Every subscriber has the seat of its partition, and the order is kept as long as the
buffer has dropped nothing. -/
structure Lined (o : Outlet E) (t : Trace E) (q : PartitionDispatcher E) : Prop where
  dispatcher_eq : o.dispatcher = .partition q
  placed : Placed q
  seated : Seated q
  seats_eq : seats t = q.tagToPartition
  order : t.dropped = [] → ∀ p < q.partitionCount,
    sentFor p t ++ (q.partitionBuffers p ++ share q.hash p o.buffer) =
      share q.hash p t.returned

theorem Lined.inOrder {o : Outlet E} {t : Trace E} {q : PartitionDispatcher E}
    (h : Lined o t q) (hdropped : t.dropped = []) : InOrder o t := by
  intro q₁ hq₁
  obtain rfl : q = q₁ := Dispatcher.partition.inj (h.dispatcher_eq.symm.trans hq₁)
  exact h.order hdropped

variable {o o' : Outlet E} {t acts : Trace E} {q q' : PartitionDispatcher E}

/-- Nothing is sent and nothing emitted. -/
theorem Lined.still (h : Lined o t q) (hstill : Still acts) (hquiet : Quiet acts) :
    Lined o (t ++ acts) q := by
  refine ⟨h.dispatcher_eq, h.placed, h.seated, ?_, fun hdropped p hp => ?_⟩
  · rw [seats_append, hstill.seat_eq, h.seats_eq]
  · rw [hquiet.dropped] at hdropped
    rw [sentFor_append, hstill.sent_eq, List.append_nil, hquiet.returned]
    exact h.order hdropped p hp

theorem Lined.subscribe {tag : Tag} {sub : ProducerSub} {partition : Option PartitionOption}
    (h : Lined o t q) (hnew : q.has tag = false)
    (hsubscribe : q.subscribe tag sub partition = .ok q') :
    Lined { o with dispatcher := .partition q' } (t ++ [.subscribed tag partition]) q' := by
  have hplaced := placed_subscribe hsubscribe h.placed
  have hseated := seated_subscribe hsubscribe hnew h.seated
  obtain ⟨option, p, rfl, hindex, hlt, hfree, rfl⟩ := subscribe_eq_ok hsubscribe
  have hquiet : Quiet [(Act.subscribed tag (some option) : Act E)] := ⟨rfl, rfl, rfl⟩
  refine ⟨rfl, hplaced, hseated, ?_, fun hdropped p' hp' => ?_⟩
  · rw [seats_append, h.seats_eq]
    change seat q.tagToPartition (.subscribed tag (some option) : Act E) = _
    simp only [seat, Option.bind_some, hindex, Int.toNat_natCast]
  · rw [hquiet.dropped] at hdropped
    rw [sentFor_append, hquiet.returned]
    exact (congrArg (· ++ _) (List.append_nil _)).trans (h.order hdropped p' hp')

theorem Lined.cancel (h : Lined o t q) (tag : Tag) :
    Lined { o with dispatcher := .partition (q.cancel tag) } (t ++ [.cancelled tag])
      (q.cancel tag) := by
  have hquiet : Quiet [(Act.cancelled tag : Act E)] := ⟨rfl, rfl, rfl⟩
  obtain ⟨hhash, hbuffers, hcount⟩ := kept_cancel q tag
  have hsent : ∀ p, sentFor p (t ++ [.cancelled tag]) = sentFor p t := fun p => by
    rw [sentFor_append]
    exact List.append_nil _
  refine ⟨rfl, placed_cancel h.placed tag, seated_cancel h.seated tag, ?_,
    fun hdropped p hp => ?_⟩
  · rw [seats_append, h.seats_eq, seats_cancel]
    rfl
  · rw [hquiet.dropped] at hdropped
    rw [hsent, hquiet.returned, hhash, hbuffers]
    exact h.order hdropped p (hp.trans_eq hcount)

theorem Lined.ask (h : Lined o t q) (tag : Tag) (demand : Int) :
    Lined { o with dispatcher := .partition (q.ask tag demand).1 } (t ++ [.asked tag demand])
      (q.ask tag demand).1 := by
  have hsame := samePlaces_ask q tag demand
  have hstill : Still [(Act.asked tag demand : Act E)] :=
    still_nil.cons (fun _ => rfl) fun _ _ => rfl
  have hasked := h.still hstill ⟨rfl, rfl, rfl⟩
  refine ⟨rfl, hsame.placed h.placed, hsame.seated h.seated, ?_,
    fun hdropped p hp => ?_⟩
  · rw [hsame.seats]
    exact hasked.seats_eq
  · rw [hsame.hash, buffers_ask]
    exact hasked.order hdropped p (hp.trans_eq hsame.count)

/-! ## Dispatching -/

/-- The batch of a partition and what is left in its line are what was there, with the new
events behind it, when none of them passes others. -/
theorem bucket_append {events : List E} {result : DispatchResult E}
    (hdispatch : q.dispatch events = .ok (q', result)) {p : Nat} (hp : p < q.partitionCount)
    (hpass : share q.hash p events = [] ∨ (lane q p).Settled) :
    bucket q events p ++ q'.partitionBuffers p =
      q.partitionBuffers p ++ share q.hash p events := by
  obtain ⟨-, -, -, hlanes, -⟩ := dispatch_eq_ok hdispatch
  have hwaiting := congrArg Lane.waiting (hlanes p hp)
  change q'.partitionBuffers p = _ at hwaiting
  rw [hwaiting, bucket, List.append_assoc, Lane.served_append_serve]
  exact Lane.passed_append_pass_of hpass

theorem sendsFor_dispatch {events : List E} {result : DispatchResult E} (hseated : Seated q)
    (hdispatch : q.dispatch events = .ok (q', result)) {p : Nat} (hp : p < q.partitionCount) :
    sendsFor p q.tagToPartition (.sent result.dispatched) = bucket q events p := by
  obtain ⟨hsame, -, -, -, hsent⟩ := dispatch_eq_ok hdispatch
  rw [sendsFor, hsent, ← hsame.seats]
  exact eventsOf_seat (hsame.seated hseated) (fun p hp => isSome_of_bucket hsame hp)
    (hp.trans_eq hsame.count.symm)

/-- The buffer is drained into lines that nothing passes. -/
theorem Lined.drain (h : Lined o t q)
    (hpass : ∀ p < q.partitionCount, share q.hash p o.buffer = [] ∨ (lane q p).Settled)
    (hdrain : o.drain = .ok (o', acts)) :
    ∃ q' result, q.dispatch o.buffer = .ok (q', result) ∧
      o' = { o with dispatcher := .partition q', buffer := [] } ∧ Lined o' (t ++ acts) q' := by
  obtain ⟨q', result, hdispatch, rfl, rfl⟩ := drain_partition h.dispatcher_eq hdrain
  obtain ⟨hsame, -⟩ := dispatch_eq_ok hdispatch
  refine ⟨q', result, hdispatch, rfl, rfl, hsame.placed h.placed, hsame.seated h.seated, ?_,
    fun hdropped p hp => ?_⟩
  · rw [seats_append, h.seats_eq, hsame.seats]
    rfl
  · have hdropped' := (Trace.dropped_append_nil hdropped).1
    rw [hsame.count] at hp
    have hreturned : Trace.returned (t ++ [.sent result.dispatched]) = t.returned := by
      rw [Trace.returned_append]
      exact List.append_nil _
    have hsent : sentFor p (t ++ [.sent result.dispatched]) =
        sentFor p t ++ bucket q o.buffer p := by
      rw [sentFor_append, h.seats_eq, sentFrom, sendsFor_dispatch h.seated hdispatch hp, sentFrom,
        List.append_nil]
    rw [hsent, hreturned, hsame.hash, List.append_assoc, ← List.append_assoc (bucket _ _ _),
      bucket_append hdispatch hp (hpass p hp), ← h.order hdropped' p hp]
    simp [share]

/-- Emitted events do not overtake what is retained. -/
theorem Lined.emit {events : List E} (h : Lined o t q)
    (hpass : q.hasSubscribers = true → ∀ p < q.partitionCount, share q.hash p events = [] ∨
      (share q.hash p o.buffer = [] ∧ (lane q p).Settled))
    (hemit : Emits o events acts o') :
    ∃ q', Lined o' (t ++ .returned events :: acts) q' ∧
      (o'.buffer = o.buffer ∧ (∃ result, q.dispatch events = .ok (q', result)) ∨
        q.hasSubscribers = false ∧ q' = q ∨ events = [] ∧ q' = q ∧ o' = o) := by
  obtain ⟨d', batches, rest, sents, hpasses, rfl, rfl⟩ := emits_passes hemit
  have hdrops : Trace.dropped (t ++ .returned events :: (sents ++ dropActs (lostRest o rest))) =
      [] → t.dropped = [] ∧ lostRest o rest = [] := fun hdropped => by
    have hboth := Trace.dropped_append_nil hdropped
    rwa [hpasses.dropped_acts] at hboth
  have hreturned :
      Trace.returned (t ++ .returned events :: (sents ++ dropActs (lostRest o rest))) =
        t.returned ++ events := by
    rw [Trace.returned_append, hpasses.returned_acts]
  have hdrop := still_dropActs (lostRest o rest)
  cases hpasses with
  | none =>
      have hstill : Still (.returned [] :: ([] ++ dropActs (lostRest o ([] : List E)))) :=
        hdrop.cons (fun _ => rfl) fun _ _ => rfl
      have hbuffer : keptRest o ([] : List E) = o.buffer := if_pos rfl
      refine ⟨q, ⟨h.dispatcher_eq, h.placed, h.seated, ?_, fun hdropped p hp => ?_⟩,
        .inr (.inr ⟨rfl, rfl, ?_⟩)⟩
      · rw [seats_append, hstill.seat_eq, h.seats_eq]
      · rw [sentFor_append, hstill.sent_eq, List.append_nil, hreturned, List.append_nil, hbuffer]
        exact h.order (hdrops hdropped).1 p hp
      · rw [hbuffer]
  | buffer hne hhas =>
      have hstill : Still (.returned events :: ([] ++ dropActs (lostRest o events))) :=
        hdrop.cons (fun _ => rfl) fun _ _ => rfl
      rw [h.dispatcher_eq] at hhas
      refine ⟨q, ⟨h.dispatcher_eq, h.placed, h.seated, ?_, fun hdropped p hp => ?_⟩,
        .inr (.inl ⟨hhas, rfl⟩)⟩
      · rw [seats_append, hstill.seat_eq, h.seats_eq]
      · obtain ⟨hdropped', hlost⟩ := hdrops hdropped
        rw [sentFor_append, hstill.sent_eq, List.append_nil, hreturned,
          keptRest_of_lostRest_nil hlost, share_append, share_append, ← List.append_assoc,
          ← List.append_assoc, List.append_assoc (sentFor p t), h.order hdropped' p hp]
  | @dispatch _ _ result hne hhas hdispatch =>
      rw [h.dispatcher_eq] at hhas hdispatch
      obtain ⟨q', rfl, hdispatch'⟩ := dispatch_partition_eq_ok hdispatch
      obtain ⟨hsame, -, hnil, -⟩ := dispatch_eq_ok hdispatch'
      dsimp only at hnil hdrops hreturned hdrop ⊢
      have hbuffer : keptRest o result.remaining = o.buffer := if_pos hnil
      refine ⟨q', ⟨rfl, hsame.placed h.placed, hsame.seated h.seated, ?_, fun hdropped p hp => ?_⟩,
        .inl ⟨hbuffer, result, hdispatch'⟩⟩
      · rw [seats_append, h.seats_eq, hsame.seats]
        exact hdrop.seat_eq _
      · obtain ⟨hdropped', -⟩ := hdrops hdropped
        rw [hsame.count] at hp
        have hsent : sentFor p (t ++ .returned events :: ([.sent result.dispatched] ++
            dropActs (lostRest o result.remaining))) = sentFor p t ++ bucket q events p := by
          rw [sentFor_append, h.seats_eq, List.singleton_append, sentFrom, sentFrom,
            hdrop.sent_eq, List.append_nil]
          exact congrArg (sentFor p t ++ ·) (sendsFor_dispatch h.seated hdispatch' hp)
        have horder := h.order hdropped' p hp
        rw [hsent, hreturned, hbuffer, hsame.hash, share_append]
        rcases hpass hhas p hp with hnone | ⟨hnone, hsettled⟩
        · have hbucket := bucket_append hdispatch' hp (.inl hnone)
          rw [hnone, List.append_nil] at hbucket
          rw [hnone, List.append_nil, ← horder, List.append_assoc,
            ← List.append_assoc (bucket _ _ _), hbucket]
        · have hbucket := bucket_append hdispatch' hp (.inr hsettled)
          rw [hnone, List.append_nil] at horder
          rw [hnone, List.append_nil, List.append_assoc, hbucket, ← List.append_assoc, horder]

/-! ## The ProducerConsumer -/

/-- A subscription has a tag of its own. -/
def NewTag (o : Outlet E) (tag : Tag) : Prop := o.dispatcher.has tag = false

/-- No event of a partition is given to the dispatcher past others of the partition: not
from the buffer, if its own buffer holds some that it may now send, and not from a
delivery, if some wait in either buffer. -/
def NoOvertaking (r : Recorded (ProducerConsumerStage E E' S) E) :
    ProducerConsumerMessage E' → Prop
  | .subscribe tag _ _ _ _ => NewTag r.stage.toOutlet tag
  | .ask tag demand => ∀ q, r.stage.dispatcher = .partition q → 0 < demand →
      ∀ p < q.partitionCount, share q.hash p r.stage.buffer = [] ∨
        q.partitionBuffers p = [] ∨ (q.ask tag demand).1.demandOf p ≤ 0
  | .events tag producerRef events => ∀ q, r.stage.dispatcher = .partition q →
      r.stage.upstreamSubs.has tag = true → q.hasSubscribers = true →
      ∀ p < q.partitionCount,
        share q.hash p
          (r.stage.callbacks.handleEvents events ⟨tag, producerRef⟩ r.stage.userState).1 = [] ∨
        share q.hash p r.stage.buffer = [] ∧
          (q.partitionBuffers p = [] ∨ q.demandOf p ≤ 0)
  | _ => True

theorem Lined.outletSubscribe (h : Lined o t q) {tag : Tag} (hnew : NewTag o tag)
    (consumerRef : ActorRef String) (maxDemand : Nat) (minDemand : Int)
    (partition : Option PartitionOption) :
    (∃ error, o.subscribe tag consumerRef maxDemand minDemand partition =
        (o, [.rejected tag error]) ∧ Lined o (t ++ [.rejected tag error]) q) ∨
    ∃ q', q.subscribe tag ⟨consumerRef, 0, maxDemand, minDemand⟩ partition = .ok q' ∧
      o.subscribe tag consumerRef maxDemand minDemand partition =
        ({ o with dispatcher := .partition q' }, [.subscribed tag partition]) ∧
      Lined { o with dispatcher := .partition q' } (t ++ [.subscribed tag partition]) q' := by
  obtain ⟨error, heq⟩ | ⟨d', hsubscribe, heq⟩ :=
    subscribe_cases o tag consumerRef maxDemand minDemand partition
  · have hstill : Still [(Act.rejected tag error : Act E)] :=
      still_nil.cons (fun _ => rfl) fun _ _ => rfl
    exact .inl ⟨error, heq, h.still hstill ⟨rfl, rfl, rfl⟩⟩
  · rw [h.dispatcher_eq] at hsubscribe
    obtain ⟨q', hq', rfl⟩ := map_eq_ok hsubscribe
    rw [NewTag, h.dispatcher_eq] at hnew
    exact .inr ⟨q', hq', heq, h.subscribe hnew hq'⟩

theorem outlet_cancel (hq : o.dispatcher = .partition q) (tag : Tag) :
    o.cancel tag =
      ({ o with dispatcher := .partition (q.cancel tag) }, [.cancelled tag]) := by
  rw [Outlet.cancel, hq]
  rfl

theorem outlet_ask (hq : o.dispatcher = .partition q) (tag : Tag) (demand : Int) :
    o.ask tag demand =
      ({ o with dispatcher := .partition (q.ask tag demand).1 }, (q.ask tag demand).2) := by
  rw [Outlet.ask, hq]
  rfl

theorem Lined.idle (h : Lined o t q) (tag : Tag) (demand : Int) :
    Lined o (t ++ [.asked tag demand]) q :=
  h.still (still_nil.cons (fun _ => rfl) fun _ _ => rfl) ⟨rfl, rfl, rfl⟩

theorem Lined.silent (h : Lined o t q) {act : Act E} (hact : Silent act) :
    Lined o (t ++ [act]) q :=
  h.still (still_silent hact) (quiet_silent hact)

theorem Lined.handleUpstreamEvents {c c' : ProducerConsumerStage E E' S} {tag : Tag}
    {producerRef : ActorRef String} {events : List E'} (h : Lined c.toOutlet t q)
    (hpass : NoOvertaking ⟨c, t⟩ (.events tag producerRef events))
    (hreceive : c.handleUpstreamEvents tag producerRef events = .ok (c', acts)) :
    ∃ q', Lined c'.toOutlet (t ++ acts) q' := by
  obtain ⟨-, rfl, rfl⟩ | ⟨sub, o, emitted, asks, hsub, hemits, hreask, rfl⟩ :=
    handleUpstreamEvents_eq_ok hreceive
  · rw [List.append_nil]
    exact ⟨q, h⟩
  · have hhas : c.upstreamSubs.has tag = true := by
      rw [OrderedMap.has, hsub]
      rfl
    have hreceived : Lined c.toOutlet (t ++ [.received tag events.length]) q := h.silent trivial
    obtain ⟨q', hemitted, -⟩ := hreceived.emit (hpass q h.dispatcher_eq hhas) hemits
    have hsplit : t ++ .received tag events.length :: .returned
        (c.callbacks.handleEvents events ⟨tag, producerRef⟩ c.userState).1 :: (emitted ++ asks) =
        t ++ [.received tag events.length] ++
          .returned (c.callbacks.handleEvents events ⟨tag, producerRef⟩ c.userState).1 :: emitted ++
          asks := by simp
    rw [hsplit]
    unfold ProducerConsumerStage.reaskUpstream at hreask
    split at hreask
    · cases hreask
      exact ⟨q', hemitted.silent trivial⟩
    · cases hreask
      rw [List.append_nil]
      exact ⟨q', hemitted⟩

theorem Lined.producerConsumer {c c' : ProducerConsumerStage E E' S}
    {m : ProducerConsumerMessage E'} (h : Lined c.toOutlet t q) (hpass : NoOvertaking ⟨c, t⟩ m)
    (hreceive : c.receive m = .ok (c', acts)) : ∃ q', Lined c'.toOutlet (t ++ acts) q' := by
  cases m with
  | subscribe tag consumerRef maxDemand minDemand partition =>
      have hlined : ∃ q', Lined
          (c.toOutlet.subscribe tag consumerRef maxDemand minDemand partition).1
          (t ++ (c.toOutlet.subscribe tag consumerRef maxDemand minDemand partition).2) q' := by
        obtain ⟨error, heq, hlined⟩ | ⟨q', -, heq, hlined⟩ :=
          h.outletSubscribe hpass consumerRef maxDemand minDemand partition
        · rw [heq]
          exact ⟨q, hlined⟩
        · rw [heq]
          exact ⟨q', hlined⟩
      cases hreceive
      exact hlined
  | deferredAsk tag =>
      have hlined : ∃ q', Lined (c.deferredAsk tag).1.toOutlet (t ++ (c.deferredAsk tag).2) q' := by
        unfold ProducerConsumerStage.deferredAsk
        split
        · rw [List.append_nil]
          exact ⟨q, h⟩
        · exact ⟨q, h.silent trivial⟩
      rwa [Except.ok.inj hreceive] at hlined
  | events tag producerRef events => exact h.handleUpstreamEvents hpass hreceive
  | ask tag demand =>
      obtain ⟨-, rfl, rfl⟩ | ⟨-, -, rfl, rfl⟩ | ⟨hpos, -, o, drained, hdrain, rfl, rfl⟩ :=
        handleDownstreamAsk_eq_ok hreceive
      · exact ⟨q, h.idle tag demand⟩
      · rw [outlet_ask h.dispatcher_eq]
        exact ⟨_, h.ask tag demand⟩
      · have hasked := h.ask tag demand
        rw [outlet_ask h.dispatcher_eq] at hdrain
        have hsame := samePlaces_ask q tag demand
        have hclear : ∀ p < (q.ask tag demand).1.partitionCount,
            share (q.ask tag demand).1.hash p c.buffer = [] ∨
              (lane (q.ask tag demand).1 p).Settled := fun p hp => by
          rw [hsame.hash]
          refine (hpass q h.dispatcher_eq hpos p (hp.trans_eq hsame.count)).imp_right
            fun hsettled => ?_
          rw [← buffers_ask q tag demand] at hsettled
          exact hsettled
        obtain ⟨q', result, -, -, hlined⟩ := hasked.drain hclear hdrain
        rw [List.append_assoc] at hlined
        exact ⟨q', hlined⟩
  | cancel tag reason =>
      have hlined : ∃ q',
          Lined (c.handleCancel tag).1.toOutlet (t ++ (c.handleCancel tag).2) q' := by
        obtain ⟨-, heq⟩ | ⟨-, heq⟩ := handleCancel_cases c tag
        · rw [heq, outlet_cancel h.dispatcher_eq]
          exact ⟨_, h.cancel tag⟩
        · rw [heq, List.append_nil]
          exact ⟨q, h⟩
      rwa [Except.ok.inj hreceive] at hlined
  | subscribeToProducer | cancelUpstream =>
      cases hreceive
      rw [List.append_nil]
      exact ⟨q, h⟩

/-! ## The Producer -/

/-- Nothing that a partition holds could be sent, and events wait in one kind of buffer
only. -/
structure Ready (o : Outlet E) (q : PartitionDispatcher E) : Prop where
  settled : ∀ p < q.partitionCount, (lane q p).Settled
  single : o.buffer = [] ∨ ∀ p < q.partitionCount, q.partitionBuffers p = []

/-- No event has been emitted yet, or what the dispatcher wants is passed on at once. -/
def Prompt (p : ProducerStage E S) (q : PartitionDispatcher E) : Prop :=
  p.demandMode = .forward ∧ p.accumulatedDemand = 0 ∨
    p.demandMode = .accumulate ∧ 0 ≤ p.accumulatedDemand ∧ p.buffer = [] ∧
      ∀ i < q.partitionCount, q.partitionBuffers i = []

theorem Ready.subscribe {tag : Tag} {sub : ProducerSub} {partition : Option PartitionOption}
    (h : Ready o q) (hsub : sub.demand = 0)
    (hsubscribe : q.subscribe tag sub partition = .ok q') :
    Ready { o with dispatcher := .partition q' } q' ∧ q'.partitionBuffers = q.partitionBuffers ∧
      q'.partitionCount = q.partitionCount := by
  obtain ⟨option, p, -, -, -, -, rfl⟩ := subscribe_eq_ok hsubscribe
  refine ⟨⟨fun p' hp' => ?_, h.single⟩, rfl, rfl⟩
  by_cases hp : p' = p
  · refine .inr ?_
    simp [lane, PartitionDispatcher.demandOf, hp, hsub]
  · refine (h.settled p' hp').imp_right fun hnone => ?_
    have hdemand : PartitionDispatcher.demandOf { q with
        partitions := Function.update q.partitions p (some (tag, sub))
        tagToPartition := q.tagToPartition.set tag p } p' = q.demandOf p' := by
      simp [PartitionDispatcher.demandOf, hp]
    exact hdemand.trans_le hnone

theorem Ready.cancel (h : Ready o q) (tag : Tag) :
    Ready { o with dispatcher := .partition (q.cancel tag) } (q.cancel tag) ∧
      (q.cancel tag).partitionBuffers = q.partitionBuffers ∧
      (q.cancel tag).partitionCount = q.partitionCount := by
  unfold PartitionDispatcher.cancel
  cases q.tagToPartition.get tag with
  | none => exact ⟨⟨h.settled, h.single⟩, rfl, rfl⟩
  | some p =>
      refine ⟨⟨fun p' hp' => ?_, h.single⟩, rfl, rfl⟩
      by_cases hp : p' = p
      · refine .inr ?_
        simp [lane, PartitionDispatcher.demandOf, hp]
      · refine (h.settled p' hp').imp_right fun hnone => ?_
        have hdemand : PartitionDispatcher.demandOf { q with
            partitions := Function.update q.partitions p none
            tagToPartition := q.tagToPartition.delete tag } p' = q.demandOf p' := by
          simp [PartitionDispatcher.demandOf, hp]
        exact hdemand.trans_le hnone

theorem settled_dispatch {events : List E} {result : DispatchResult E}
    (hdispatch : q.dispatch events = .ok (q', result)) :
    ∀ p < q'.partitionCount, (lane q' p).Settled := by
  obtain ⟨hsame, -, -, hlanes, -⟩ := dispatch_eq_ok hdispatch
  intro p hp
  rw [hlanes p (hp.trans_eq hsame.count)]
  exact Lane.settled_serve _

/-- A dispatch of nothing does not fill buffers. -/
theorem buffers_dispatch_nil {result : DispatchResult E}
    (hdispatch : q.dispatch [] = .ok (q', result)) {p : Nat} (hp : p < q.partitionCount)
    (hnil : q.partitionBuffers p = []) : q'.partitionBuffers p = [] := by
  have hbucket := bucket_append hdispatch hp (.inl rfl)
  rw [hnil] at hbucket
  exact (List.append_eq_nil_iff.1 hbucket).2

/-- Crediting an ask and draining the buffer. -/
theorem Lined.askDrain (h : Lined o t q) (hready : Ready o q) {tag : Tag} {demand : Int}
    (hdrain : (o.ask tag demand).1.drain = .ok (o', acts)) :
    ∃ q' result, (q.ask tag demand).1.dispatch o.buffer = .ok (q', result) ∧
      o' = { o with dispatcher := .partition q', buffer := [] } ∧
      Lined o' (t ++ .asked tag demand :: acts) q' ∧ Ready o' q' := by
  have hasked := h.ask tag demand
  have hsame := samePlaces_ask q tag demand
  rw [outlet_ask h.dispatcher_eq] at hdrain
  have hclear : ∀ p < (q.ask tag demand).1.partitionCount,
      share (q.ask tag demand).1.hash p o.buffer = [] ∨
        (lane (q.ask tag demand).1 p).Settled := fun p hp => by
    rcases hready.single with hnil | hempty
    · rw [hnil]
      exact .inl rfl
    · refine .inr (.inl ?_)
      change (q.ask tag demand).1.partitionBuffers p = []
      rw [buffers_ask]
      exact hempty p (hp.trans_eq hsame.count)
  obtain ⟨q', result, hdispatch, rfl, hlined⟩ := hasked.drain hclear hdrain
  rw [List.append_assoc] at hlined
  exact ⟨q', result, hdispatch, rfl, hlined, settled_dispatch hdispatch, .inl rfl⟩

/-- The user is asked while the buffer is empty. -/
theorem Lined.demandEvents {p p' : ProducerStage E S} {demand : Int} (h : Lined p.toOutlet t q)
    (hready : Ready p.toOutlet q) (hnil : p.buffer = [])
    (hhas : q.hasSubscribers = true ∨ ∀ i < q.partitionCount, q.partitionBuffers i = [])
    (hevents : p.demandEvents demand = .ok (p', acts)) :
    p'.demandMode = p.demandMode ∧ p'.accumulatedDemand = p.accumulatedDemand ∧
      ∃ q', Lined p'.toOutlet (t ++ acts) q' ∧ Ready p'.toOutlet q' := by
  obtain ⟨o, emitted, hemits, rfl, rfl⟩ := demandEvents_eq_ok hevents
  have hcalled : Lined p.toOutlet (t ++ [.handleDemand demand]) q := h.silent trivial
  obtain ⟨q', hemitted, hcases⟩ := hcalled.emit (fun _ i hi => .inr ⟨by
    rw [hnil]
    rfl, hready.settled i hi⟩) hemits
  rw [List.append_assoc] at hemitted
  refine ⟨rfl, rfl, q', hemitted, ?_⟩
  obtain ⟨hbuffer, result, hdispatch⟩ | ⟨hnone, rfl⟩ | ⟨-, rfl, rfl⟩ := hcases
  · exact ⟨settled_dispatch hdispatch, .inl (hbuffer.trans hnil)⟩
  · refine ⟨hready.settled, .inr (hhas.resolve_left fun hsome => ?_)⟩
    exact absurd (hnone.symm.trans hsome) Bool.false_ne_true
  · exact hready

theorem Lined.handleAsk {p p' : ProducerStage E S} {tag : Tag} {demand : Int}
    (h : Lined p.toOutlet t q) (hready : Ready p.toOutlet q) (hprompt : Prompt p q)
    (hreceive : p.handleAsk tag demand = .ok (p', acts)) :
    ∃ q', Lined p'.toOutlet (t ++ acts) q' ∧ Ready p'.toOutlet q' ∧ Prompt p' q' := by
  obtain ⟨-, hp, rfl⟩ | ⟨hpos, o, drained, rest, hdrain, hforward, rfl⟩ := handleAsk_eq_ok hreceive
  · rw [hp]
    exact ⟨q, h.idle tag demand, hready, hprompt⟩
  · obtain ⟨q', result, hdispatch, rfl, hlined, hready'⟩ := h.askDrain hready hdrain
    have hsame := samePlaces_ask q tag demand
    have hcount : q'.partitionCount = q.partitionCount :=
      (dispatch_eq_ok hdispatch).1.count.trans hsame.count
    have hprompt' : Prompt { p with dispatcher := .partition q', buffer := [] } q' := by
      refine hprompt.imp_right fun ⟨hmode, hnonneg, hnil, hempty⟩ =>
        ⟨hmode, hnonneg, rfl, fun i hi => ?_⟩
      rw [hnil] at hdispatch
      refine buffers_dispatch_nil hdispatch (hi.trans_eq (hcount.trans hsame.count.symm)) ?_
      rw [buffers_ask]
      exact hempty i (hi.trans_eq hcount)
    rw [outlet_ask h.dispatcher_eq] at hforward
    have hsplit : t ++ .asked tag demand :: (drained ++ rest) =
        t ++ .asked tag demand :: drained ++ rest := by simp
    rw [hsplit]
    obtain ⟨-, rfl, rfl⟩ | ⟨hyes, hmode, rfl, rfl⟩ | ⟨hyes, hmode, hevents⟩ :=
      forwardDemand_eq_ok hforward
    · rw [List.append_nil]
      exact ⟨q', hlined, hready', hprompt'⟩
    · rw [List.append_nil]
      refine ⟨q', hlined, hready', ?_⟩
      rcases hprompt' with ⟨hforward, -⟩ | ⟨-, hnonneg, hnil, hempty⟩
      · exact nomatch hmode.symm.trans hforward
      · refine .inr ⟨hmode, ?_, hnil, hempty⟩
        dsimp only at hnonneg ⊢
        omega
    · -- whoever asked is subscribed, so that nothing goes to the buffer
      have hhas : q'.hasSubscribers = true :=
        hasSubscribers_of_ask hyes (dispatch_eq_ok hdispatch).1 hlined.placed
      obtain ⟨hmode', haccumulated', q'', hlined'', hready''⟩ :=
        Lined.demandEvents hlined hready' rfl (.inl hhas) hevents
      refine ⟨q'', hlined'', hready'', .inl ⟨hmode'.trans hmode, haccumulated'.trans ?_⟩⟩
      rcases hprompt' with ⟨-, hzero⟩ | ⟨haccumulate, -⟩
      · exact hzero
      · exact nomatch haccumulate.symm.trans hmode

theorem Lined.producer {p p' : ProducerStage E S} {m : ProducerMessage}
    (h : Lined p.toOutlet t q) (hready : Ready p.toOutlet q) (hprompt : Prompt p q)
    (hnew : NewTags ⟨p, t⟩ m) (hreceive : p.receive m = .ok (p', acts)) :
    ∃ q', Lined p'.toOutlet (t ++ acts) q' ∧ Ready p'.toOutlet q' ∧ Prompt p' q' := by
  cases m with
  | subscribe tag consumerRef maxDemand minDemand partition =>
      have hlined : ∃ q', Lined (p.handleSubscribe tag consumerRef maxDemand minDemand
            partition).1.toOutlet
          (t ++ (p.handleSubscribe tag consumerRef maxDemand minDemand partition).2) q' ∧
          Ready (p.handleSubscribe tag consumerRef maxDemand minDemand partition).1.toOutlet q' ∧
          Prompt (p.handleSubscribe tag consumerRef maxDemand minDemand partition).1 q' := by
        unfold ProducerStage.handleSubscribe
        obtain ⟨error, heq, hlined⟩ | ⟨q', hsubscribe, heq, hlined⟩ :=
          h.outletSubscribe hnew consumerRef maxDemand minDemand partition
        · rw [heq]
          exact ⟨q, hlined, hready, hprompt⟩
        · rw [heq]
          obtain ⟨hready', hbuffers, hcount⟩ := hready.subscribe rfl hsubscribe
          refine ⟨q', hlined, hready', hprompt.imp_right fun ⟨hmode, hnonneg, hnil, hempty⟩ =>
            ⟨hmode, hnonneg, hnil, ?_⟩⟩
          rw [hbuffers, hcount]
          exact hempty
      rwa [Except.ok.inj hreceive] at hlined
  | ask tag demand => exact Lined.handleAsk h hready hprompt hreceive
  | cancel tag reason =>
      have hlined : ∃ q', Lined (p.handleCancel tag).1.toOutlet
          (t ++ (p.handleCancel tag).2) q' ∧
          Ready (p.handleCancel tag).1.toOutlet q' ∧ Prompt (p.handleCancel tag).1 q' := by
        unfold ProducerStage.handleCancel
        rw [outlet_cancel h.dispatcher_eq]
        obtain ⟨hready', hbuffers, hcount⟩ := hready.cancel tag
        refine ⟨_, h.cancel tag, hready', hprompt.imp_right fun ⟨hmode, hnonneg, hnil, hempty⟩ =>
          ⟨hmode, hnonneg, hnil, ?_⟩⟩
        rw [hbuffers, hcount]
        exact hempty
      rwa [Except.ok.inj hreceive] at hlined
  | setDemandMode =>
      obtain ⟨hnone, rfl, rfl⟩ | ⟨hpos, hevents⟩ := switchDemandMode_eq_ok hreceive
      · rw [List.append_nil]
        refine ⟨q, h, hready, .inl ⟨rfl, ?_⟩⟩
        rcases hprompt with ⟨-, hzero⟩ | ⟨-, hnonneg, -, -⟩
        · exact hzero
        · exact le_antisymm hnone hnonneg
      · rcases hprompt with ⟨-, hzero⟩ | ⟨-, -, hnil, hempty⟩
        · rw [hzero] at hpos
          exact absurd hpos (lt_irrefl 0)
        · let switched : ProducerStage E S :=
            { p with demandMode := .forward, accumulatedDemand := 0 }
          have hlined : Lined switched.toOutlet t q := h
          obtain ⟨hmode', haccumulated', q', hlined', hready'⟩ :=
            Lined.demandEvents hlined hready hnil (.inr hempty) hevents
          exact ⟨q', hlined', hready', .inl ⟨hmode', haccumulated'⟩⟩

/-! ## Every run -/

theorem lined_init {options : ProducerOptions E} {n : Nat} {hash : E → Option Int}
    (hpartition : createDispatcher options.dispatcher = .partition (.new n hash)) :
    Lined (Outlet.init options) [] (.new n hash) ∧ Ready (Outlet.init options) (.new n hash) :=
  ⟨⟨hpartition, fun _ hp => absurd hp Bool.false_ne_true, fun _ _ hentry => (nomatch hentry), rfl,
    fun _ _ _ => rfl⟩, ⟨fun _ _ => .inl rfl, .inl rfl⟩⟩

/-- As long as the buffer drops nothing, the events sent for a partition and those retained
for it are its events in the order of their emission: in every run of a `Producer`, and in
every run of a `ProducerConsumer` in which none is given to the dispatcher past others. -/
theorem partition_order :
    (∀ (callbacks : ProducerCallbacks E S) (options : ProducerOptions E)
      (mode : Option DemandMode) (n : Nat) (hash : E → Option Int) (ms : List ProducerMessage)
      (r : Recorded (ProducerStage E S) E),
      createDispatcher options.dispatcher = .partition (.new n hash) →
      Transition.run ProducerStage.step (ProducerStage.start callbacks options mode) ms = some r →
      Transition.Along ProducerStage.step NewTags (ProducerStage.start callbacks options mode) ms →
      r.trace.dropped = [] → InOrder r.stage.toOutlet r.trace) ∧
    ∀ (callbacks : ProducerConsumerCallbacks E E' S) (options : ProducerOptions E)
      (n : Nat) (hash : E → Option Int) (ms : List (ProducerConsumerMessage E'))
      (r : Recorded (ProducerConsumerStage E E' S) E),
      createDispatcher options.dispatcher = .partition (.new n hash) →
      Transition.run ProducerConsumerStage.step (ProducerConsumerStage.start callbacks options)
        ms = some r →
      Transition.Along ProducerConsumerStage.step NoOvertaking
        (ProducerConsumerStage.start callbacks options) ms →
      r.trace.dropped = [] → InOrder r.stage.toOutlet r.trace := by
  constructor
  · intro callbacks options mode n hash ms r hpartition hrun hnew hdropped
    obtain ⟨hlined, hready⟩ := lined_init hpartition
    have hprompt : Prompt (ProducerStage.init callbacks options mode)
        (PartitionDispatcher.new n hash) := by
      cases hmode : mode.getD .forward with
      | forward => exact .inl ⟨hmode, rfl⟩
      | accumulate => exact .inr ⟨hmode, le_rfl, rfl, fun _ _ => rfl⟩
    have hreached := Transition.run_invariant
      (I := fun r : Recorded (ProducerStage E S) E => ∃ q, Lined r.stage.toOutlet r.trace q ∧
        Ready r.stage.toOutlet q ∧ Prompt r.stage q) (G := NewTags)
      (fun r m r' ⟨q, hlined, hready, hprompt⟩ hnew hstep => by
        obtain ⟨acts, hreceive, htrace⟩ := step_eq_some hstep
        rw [htrace]
        exact hlined.producer hready hprompt hnew hreceive)
      ⟨_, hlined, hready, hprompt⟩ hnew hrun
    obtain ⟨q, hq, -⟩ := hreached
    exact hq.inOrder hdropped
  · intro callbacks options n hash ms r hpartition hrun hpass hdropped
    have hreached := Transition.run_invariant
      (I := fun r : Recorded (ProducerConsumerStage E E' S) E =>
        ∃ q, Lined r.stage.toOutlet r.trace q) (G := NoOvertaking)
      (fun r m r' ⟨q, hlined⟩ hpass hstep => by
        obtain ⟨acts, hreceive, htrace⟩ := step_eq_some hstep
        rw [htrace]
        exact hlined.producerConsumer hpass hreceive)
      ⟨_, (lined_init hpartition).1⟩ hpass hrun
    obtain ⟨q, hq⟩ := hreached
    exact hq.inOrder hdropped

/-- A partition whose subscriber leaves with events on the way, and whose next subscriber is
sent the rest of them. -/
theorem partition_order_two :
    ∃ (r : Recorded (ProducerStage Int Unit) Int)
      (c : Recorded (ProducerConsumerStage Int Int Unit) Int),
      Transition.run ProducerStage.step
        (ProducerStage.start ⟨(), fun _ _ => ([4, 6, 8], ())⟩
          { dispatcher := some (.partition 2 fun n => some (n % 2)) } none)
        [.subscribe "a" ⟨"n", 1, none, 0⟩ 5 2 (some (.number 0)), .ask "a" 1, .cancel "a" "cancel",
          .subscribe "b" ⟨"n", 2, none, 0⟩ 5 2 (some (.number 0)), .ask "b" 1] = some r ∧
      sentFor 0 r.trace = [4, 6] ∧ InOrder r.stage.toOutlet r.trace ∧
      Transition.run ProducerConsumerStage.step
        (ProducerConsumerStage.start ⟨(), fun events _ _ => (events, ())⟩
          { dispatcher := some (.partition 1 fun _ => some 0) })
        [.subscribeToProducer "u" ⟨"n", 3, none, 0⟩ {}, .events "u" ⟨"n", 3, none, 0⟩ [6, 7],
          .subscribe "a" ⟨"n", 1, none, 0⟩ 5 2 (some (.number 0)), .ask "a" 1] = some c ∧
      sentFor 0 c.trace = [6] ∧ InOrder c.stage.toOutlet c.trace := by
  have hrun : ∃ r, Transition.run ProducerStage.step
      (ProducerStage.start (⟨(), fun _ _ => ([4, 6, 8], ())⟩ : ProducerCallbacks Int Unit)
        { dispatcher := some (.partition 2 fun n => some (n % 2)) } none)
      [.subscribe "a" ⟨"n", 1, none, 0⟩ 5 2 (some (.number 0)), .ask "a" 1, .cancel "a" "cancel",
        .subscribe "b" ⟨"n", 2, none, 0⟩ 5 2 (some (.number 0)), .ask "b" 1] = some r ∧
      sentFor 0 r.trace = [4, 6] ∧ r.trace.dropped = [] := ⟨_, rfl, rfl, rfl⟩
  have hrun' : ∃ c, Transition.run ProducerConsumerStage.step
      (ProducerConsumerStage.start
        (⟨(), fun events _ _ => (events, ())⟩ : ProducerConsumerCallbacks Int Int Unit)
        { dispatcher := some (.partition 1 fun _ => some 0) })
      [.subscribeToProducer "u" ⟨"n", 3, none, 0⟩ {}, .events "u" ⟨"n", 3, none, 0⟩ [6, 7],
        .subscribe "a" ⟨"n", 1, none, 0⟩ 5 2 (some (.number 0)), .ask "a" 1] = some c ∧
      sentFor 0 c.trace = [6] ∧ c.trace.dropped = [] := ⟨_, rfl, rfl, rfl⟩
  obtain ⟨r, hr, hsent, hdropped⟩ := hrun
  obtain ⟨c, hc, hsent', hdropped'⟩ := hrun'
  obtain ⟨hproducer, hproducerConsumer⟩ := @partition_order Int Int Unit
  refine ⟨r, c, hr, hsent, hproducer _ _ _ _ _ _ _ rfl hr ⟨rfl, fun r₁ h₁ => ?_⟩ hdropped, hc,
    hsent', hproducerConsumer _ _ _ _ _ _ rfl hc ⟨trivial, fun c₁ h₁ => ?_⟩ hdropped'⟩
  · cases h₁
    refine ⟨trivial, fun r₂ h₂ => ?_⟩
    cases h₂
    refine ⟨trivial, fun r₃ h₃ => ?_⟩
    cases h₃
    refine ⟨rfl, fun r₄ h₄ => ?_⟩
    cases h₄
    exact ⟨trivial, fun _ _ => trivial⟩
  · cases h₁
    refine ⟨fun q hq _ hhas => ?_, fun c₂ h₂ => ?_⟩
    · cases hq
      exact absurd hhas (by decide)
    · cases h₂
      refine ⟨rfl, fun c₃ h₃ => ?_⟩
      cases h₃
      refine ⟨fun q hq _ p hp => ?_, fun _ _ => trivial⟩
      cases hq
      exact .inr (.inl rfl)

/-- The first event waits in the partition's buffer while its subscriber asks, and the
second one is sent before it. -/
theorem overtaken_in_partition :
    ∃ r, Transition.run ProducerConsumerStage.step
        (ProducerConsumerStage.start
          (⟨(), fun events _ _ => (events, ())⟩ : ProducerConsumerCallbacks Int Int Unit)
          { dispatcher := some (.partition 1 fun _ => some 0) })
        [.subscribe "a" ⟨"n", 1, none, 0⟩ 5 2 (some (.number 0)),
          .subscribeToProducer "u" ⟨"n", 2, none, 0⟩ {}, .events "u" ⟨"n", 2, none, 0⟩ [6],
          .ask "a" 1, .events "u" ⟨"n", 2, none, 0⟩ [7]] = some r ∧
      r.trace.returned = [6, 7] ∧ r.trace.dropped = [] ∧ sentFor 0 r.trace = [7] ∧
      ¬ InOrder r.stage.toOutlet r.trace := by
  refine ⟨_, rfl, rfl, rfl, rfl, fun h => ?_⟩
  exact absurd (h _ rfl 0 (by decide)) (by decide)

end Libeam.Proofs.PartitionOrder
