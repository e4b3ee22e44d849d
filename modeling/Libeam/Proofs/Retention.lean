import Libeam.Proofs.DemandDispatch
import Libeam.Proofs.BroadcastDispatch
import Libeam.Proofs.PartitionDispatch
import Libeam.Proofs.OutletMoves
/-!
# How much a producing stage retains

A stage keeps events in its buffer, which has a bound, and in the partition buffers of
its dispatcher, which have none.  Only an emission adds to what it keeps.
-/

namespace Libeam.Proofs.Retention

open Lib GenStage OutletMoves PartitionDispatch

variable {E : Type}

inductive Kind where
  | demand
  | broadcast
  | partition
  deriving DecidableEq

def kind : Dispatcher E → Kind
  | .demand _ => .demand
  | .broadcast _ => .broadcast
  | .partition _ => .partition

/-- The events inside a dispatcher. -/
def inside : Dispatcher E → List E
  | .partition q => (List.range q.partitionCount).flatMap q.partitionBuffers
  | _ => []

/-- All events that a stage keeps. -/
def retained (o : Outlet E) : List E := o.buffer ++ inside o.dispatcher

def Bounded (o : Outlet E) : Prop := (retained o).length ≤ o.bufferSize

instance (o : Outlet E) : Decidable (Bounded o) :=
  inferInstanceAs (Decidable ((retained o).length ≤ o.bufferSize))

/-- How many events the partitions keep of what they have and of `events`, given their
demand. -/
def load (q : PartitionDispatcher E) (events : List E) : Nat :=
  ((List.range q.partitionCount).map fun p =>
    (q.partitionBuffers p).length + (share q.hash p events).length - (q.demandOf p).toNat).sum

/-- There is space for all of the events that are emitted. -/
def Room (o : Outlet E) (events : List E) : Prop :=
  ∀ q, o.dispatcher = .partition q →
    (if q.hasSubscribers then o.buffer.length + load q events
      else min o.bufferSize (o.buffer.length + events.length) + (inside o.dispatcher).length) ≤
    o.bufferSize

/-! ## The partitions -/

theorem length_inside (q : PartitionDispatcher E) :
    (inside (.partition q)).length =
      ((List.range q.partitionCount).map fun p => (q.partitionBuffers p).length).sum :=
  List.length_flatMap

/-- What is inside after a dispatch. -/
theorem length_inside_dispatch {q q' : PartitionDispatcher E} {events : List E}
    {result : DispatchResult E} (h : q.dispatch events = .ok (q', result)) :
    (inside (.partition q')).length = load q events := by
  obtain ⟨hsame, -, -, hlanes, -⟩ := dispatch_eq_ok h
  rw [length_inside, hsame.count, load]
  congr 1
  refine List.map_congr_left fun p hp => ?_
  have hlane := hlanes p (List.mem_range.1 hp)
  have hlength := Lane.length_serve_pass (lane q p) (share q.hash p events)
  rw [← hlane] at hlength
  exact hlength

/-- Dispatching twice keeps as much as dispatching both at once. -/
theorem load_dispatch {q q' : PartitionDispatcher E} {events : List E}
    {result : DispatchResult E} (h : q.dispatch events = .ok (q', result)) (others : List E) :
    load q' others = load q (events ++ others) := by
  obtain ⟨hsame, -, -, hlanes, -⟩ := dispatch_eq_ok h
  unfold load
  rw [hsame.count]
  congr 1
  refine List.map_congr_left fun p hp => ?_
  have hlane := hlanes p (List.mem_range.1 hp)
  have hlength := Lane.length_serve_pass (lane q p) (share q.hash p events)
  have hwaiting : (q'.partitionBuffers p).length =
      (q.partitionBuffers p).length + (share q.hash p events).length -
        (q.demandOf p).toNat := by
    rw [← hlane] at hlength
    exact hlength
  have hcredit := Lane.credit_serve_pass (lane q p) (share q.hash p events)
  rw [← hlane] at hcredit
  change q'.demandOf p = q.demandOf p - (min (q.demandOf p).toNat
    ((q.partitionBuffers p).length + (share q.hash p events).length) : Nat) at hcredit
  have hshare : share q'.hash p others = share q.hash p others := by rw [hsame.hash]
  have happend : (share q.hash p (events ++ others)).length =
      (share q.hash p events).length + (share q.hash p others).length := by
    rw [share, List.filter_append, List.length_append]
    rfl
  rw [hwaiting, hcredit, hshare, happend]
  omega

theorem sum_share_le {hash : E → Option Int} {events : List E} {n : Nat}
    (hvalid : ∀ event ∈ events, ∀ p, hash event = some p → 0 ≤ p ∧ p < n) :
    ((List.range n).map fun p => (share hash p events).length).sum ≤ events.length := by
  rw [← List.length_flatMap, (flatMap_share_perm hvalid).length_eq]
  exact List.length_filter_le _ _

/-- A dispatch does not add to what there is. -/
theorem load_le {q : PartitionDispatcher E} {events : List E}
    (hvalid : ∀ event ∈ events, Valid q event) :
    load q events ≤ events.length + (inside (.partition q)).length := by
  have hshare := sum_share_le hvalid
  have hsum : load q events ≤ ((List.range q.partitionCount).map fun p =>
      (q.partitionBuffers p).length + (share q.hash p events).length).sum :=
    List.sum_le_sum fun p _ => Nat.sub_le _ _
  rw [List.sum_map_add] at hsum
  rw [length_inside]
  omega

/-! ## The buffer -/

theorem length_remaining_le {d d' : Dispatcher E} {events : List E} {result : DispatchResult E}
    (h : d.dispatch events = .ok (d', result)) : result.remaining.length ≤ events.length := by
  cases d with
  | demand d =>
      cases h
      have hlength := congrArg List.length (DemandDispatch.splits_dispatch d events).events_eq
      rw [List.length_append] at hlength
      dsimp only at hlength
      omega
  | broadcast b =>
      cases h
      unfold BroadcastDispatcher.dispatch
      split_ifs
      · exact le_rfl
      · rw [List.length_drop]
        exact Nat.sub_le _ _
  | partition q =>
      obtain ⟨q', rfl, hdispatch⟩ := dispatch_partition_eq_ok h
      obtain ⟨-, -, hnil, -⟩ := dispatch_eq_ok hdispatch
      rw [hnil]
      exact Nat.zero_le _

/-- The bound on the buffer survives everything that a stage does. -/
theorem buffer_le_move {o o' : Outlet E} {acts : Trace E} (hmove : Move o acts o')
    (h : o.buffer.length ≤ o.bufferSize) :
    o'.buffer.length ≤ o'.bufferSize ∧ o'.bufferSize = o.bufferSize := by
  cases hmove with
  | subscribe tag consumerRef maxDemand minDemand partition =>
      unfold Outlet.subscribe
      split
      · exact ⟨h, rfl⟩
      · exact ⟨h, rfl⟩
  | cancel | idle | askOnly | silent => exact ⟨h, rfl⟩
  | ask tag hpos hdrain =>
      obtain ⟨d', result, hdispatch, rfl, rfl⟩ := drain_eq_ok hdrain
      exact ⟨(length_remaining_le hdispatch).trans h, rfl⟩
  | emit hemit =>
      obtain ⟨d', batches, rest, sents, hpasses, rfl, rfl⟩ := emits_passes hemit
      exact ⟨length_keptRest_le h rest, rfl⟩

theorem length_kept {o : Outlet E} (h : o.buffer.length ≤ o.bufferSize) (events : List E) :
    (kept o events).length = min o.bufferSize (o.buffer.length + events.length) := by
  unfold kept
  cases o.bufferKeep with
  | last =>
      simp only [List.length_drop, List.length_append]
      omega
  | first =>
      simp only [List.length_append, List.length_take]
      omega

/-! ## What each message adds -/

theorem length_retained (o : Outlet E) :
    (retained o).length = o.buffer.length + (inside o.dispatcher).length :=
  List.length_append

/-- Without partitions the bound on the buffer is all there is. -/
theorem bounded_of_not_partition {o : Outlet E} (h : o.buffer.length ≤ o.bufferSize)
    (hkind : kind o.dispatcher ≠ .partition) : Bounded o := by
  unfold Bounded
  rw [length_retained]
  cases hd : o.dispatcher with
  | demand d => exact h
  | broadcast b => exact h
  | partition q =>
      rw [hd] at hkind
      exact absurd rfl hkind

theorem kind_ne_partition {d : Dispatcher E} (h : ∀ q, d ≠ .partition q) :
    kind d ≠ .partition := by
  cases d with
  | demand | broadcast => exact Kind.noConfusion
  | partition q => exact absurd rfl (h q)

theorem kind_subscribe {d d' : Dispatcher E} {tag : Tag} {sub : ProducerSub}
    {partition : Option PartitionOption} (h : d.subscribe tag sub partition = .ok d') :
    kind d' = kind d := by
  cases d with
  | demand | broadcast =>
      cases h
      rfl
  | partition q =>
      obtain ⟨q', -, rfl⟩ := map_eq_ok h
      rfl

theorem kind_cancel (d : Dispatcher E) (tag : Tag) : kind (d.cancel tag) = kind d := by
  cases d <;> rfl

theorem kind_ask (d : Dispatcher E) (tag : Tag) (demand : Int) :
    kind (d.ask tag demand).1 = kind d := by
  cases d <;> rfl

theorem kind_dispatch {d d' : Dispatcher E} {events : List E} {result : DispatchResult E}
    (h : d.dispatch events = .ok (d', result)) : kind d' = kind d := by
  cases d with
  | demand | broadcast =>
      cases h
      rfl
  | partition q =>
      obtain ⟨q', rfl, -⟩ := dispatch_partition_eq_ok h
      rfl

/-- A stage does not get another kind of dispatcher. -/
theorem kind_move {o o' : Outlet E} {acts : Trace E} (hmove : Move o acts o') :
    kind o'.dispatcher = kind o.dispatcher := by
  cases hmove with
  | subscribe tag consumerRef maxDemand minDemand partition =>
      obtain ⟨error, heq⟩ | ⟨d', hsubscribe, heq⟩ :=
        subscribe_cases o tag consumerRef maxDemand minDemand partition
      · rw [heq]
      · rw [heq]
        exact kind_subscribe hsubscribe
  | cancel tag => exact kind_cancel _ tag
  | idle tag _ => rfl
  | ask tag hpos hdrain =>
      obtain ⟨d', result, hdispatch, rfl, -⟩ := drain_eq_ok hdrain
      exact (kind_dispatch hdispatch).trans (kind_ask _ tag _)
  | askOnly tag _ _ => exact kind_ask _ tag _
  | emit hemit =>
      obtain ⟨d', batches, rest, sents, hpasses, rfl, -⟩ := emits_passes hemit
      cases hpasses with
      | none => rfl
      | buffer _ _ => rfl
      | dispatch _ _ hdispatch => exact kind_dispatch hdispatch
  | silent _ => rfl

theorem length_retained_emit {o o' : Outlet E} {events : List E} {acts : Trace E}
    {q : PartitionDispatcher E} (hq : o.dispatcher = .partition q)
    (hbuffer : o.buffer.length ≤ o.bufferSize) (hne : events ≠ [])
    (hemit : Emits o events acts o') :
    (∃ q', o'.dispatcher = .partition q') ∧
    (retained o').length =
      if q.hasSubscribers then o.buffer.length + load q events
      else min o.bufferSize (o.buffer.length + events.length) +
        (inside o.dispatcher).length := by
  obtain ⟨d', batches, rest, sents, hpasses, rfl, rfl⟩ := emits_passes hemit
  rw [length_retained]
  cases hpasses with
  | none => exact absurd rfl hne
  | buffer _ hhas =>
      rw [hq] at hhas
      change q.hasSubscribers = false at hhas
      rw [hhas, if_neg Bool.false_ne_true, keptRest, if_neg hne, length_kept hbuffer]
      exact ⟨⟨q, hq⟩, rfl⟩
  | @dispatch _ _ result _ hhas hdispatch =>
      rw [hq] at hhas hdispatch
      change q.hasSubscribers = true at hhas
      obtain ⟨q', rfl, hdispatch'⟩ := dispatch_partition_eq_ok hdispatch
      obtain ⟨-, -, hnil, -⟩ := dispatch_eq_ok hdispatch'
      dsimp only at hnil ⊢
      rw [hhas, if_pos rfl, keptRest, if_pos hnil, length_inside_dispatch hdispatch']
      exact ⟨⟨q', rfl⟩, rfl⟩

/-- An emission keeps to the bound exactly when there is room. -/
theorem bounded_emit {o o' : Outlet E} {events : List E} {acts : Trace E}
    (hbuffer : o.buffer.length ≤ o.bufferSize) (hbounded : Bounded o)
    (hemit : Emits o events acts o') : Bounded o' ↔ Room o events := by
  by_cases hpartition : ∃ q, o.dispatcher = .partition q
  · obtain ⟨q, hq⟩ := hpartition
    have hsize : o'.bufferSize = o.bufferSize := (buffer_le_move (.emit hemit) hbuffer).2
    have hroom : Room o events ↔ (if q.hasSubscribers then o.buffer.length + load q events
        else min o.bufferSize (o.buffer.length + events.length) +
          (inside o.dispatcher).length) ≤ o.bufferSize := by
      refine ⟨fun h => h q hq, fun h q' hq' => ?_⟩
      rw [hq] at hq'
      cases hq'
      exact h
    by_cases hnil : events = []
    · -- nothing is emitted
      obtain ⟨-, -, rfl⟩ | ⟨hne, -⟩ := hemit
      · refine ⟨fun _ => ?_, fun _ => hbounded⟩
        have hload : load q [] ≤ _ := load_le nofun
        rw [Bounded, length_retained, hq] at hbounded
        rw [List.length_nil] at hload
        rw [hroom, hnil, hq, List.length_nil]
        split_ifs
        · omega
        · omega
      · exact absurd hnil hne
    · rw [hroom, Bounded, hsize, (length_retained_emit hq hbuffer hnil hemit).2]
  · have hmoved := buffer_le_move (.emit hemit) hbuffer
    refine ⟨fun _ q hq => absurd ⟨q, hq⟩ hpartition, fun _ => bounded_of_not_partition hmoved.1 ?_⟩
    rw [kind_move (.emit hemit)]
    exact kind_ne_partition fun q hq => hpartition ⟨q, hq⟩

/-! ## What comes and goes takes no event along -/

theorem inside_subscribe {d d' : Dispatcher E} {tag : Tag} {sub : ProducerSub}
    {partition : Option PartitionOption} (h : d.subscribe tag sub partition = .ok d') :
    inside d' = inside d := by
  cases d with
  | demand | broadcast =>
      cases h
      rfl
  | partition q =>
      obtain ⟨q', hsubscribe, rfl⟩ := map_eq_ok h
      obtain ⟨option, p, -, -, -, -, rfl⟩ := subscribe_eq_ok hsubscribe
      rfl

theorem inside_cancel (d : Dispatcher E) (tag : Tag) : inside (d.cancel tag) = inside d := by
  cases d with
  | demand d => rfl
  | broadcast b => rfl
  | partition q =>
      obtain ⟨-, hbuffers, hcount⟩ := kept_cancel q tag
      change (List.range (q.cancel tag).partitionCount).flatMap _ = _
      rw [hbuffers, hcount]
      rfl

theorem inside_ask (d : Dispatcher E) (tag : Tag) (demand : Int) :
    inside (d.ask tag demand).1 = inside d := by
  cases d with
  | demand d => rfl
  | broadcast b => rfl
  | partition q =>
      dsimp only [Dispatcher.ask]
      obtain ⟨heq, -⟩ | ⟨p, -, -, heq⟩ := ask_cases q tag demand
      · rw [heq]
      · rw [heq]
        rfl

/-! ## Behind a partition dispatcher -/

theorem drain_partition {o o' : Outlet E} {acts : Trace E} {q : PartitionDispatcher E}
    (hq : o.dispatcher = .partition q) (hdrain : o.drain = .ok (o', acts)) :
    ∃ q' result, q.dispatch o.buffer = .ok (q', result) ∧
      o' = { o with dispatcher := .partition q', buffer := [] } ∧
      acts = [.sent result.dispatched] := by
  obtain ⟨d', result, hdispatch, rfl, rfl⟩ := drain_eq_ok hdrain
  rw [hq] at hdispatch
  obtain ⟨q', rfl, hdispatch'⟩ := dispatch_partition_eq_ok hdispatch
  obtain ⟨-, -, hnil, -⟩ := dispatch_eq_ok hdispatch'
  exact ⟨q', result, hdispatch', by rw [hnil], rfl⟩

theorem placed_dispatch {q q' : PartitionDispatcher E} {events : List E}
    {result : DispatchResult E} (h : q.dispatch events = .ok (q', result))
    (hplaced : Placed q) : Placed q' :=
  (dispatch_eq_ok h).1.placed hplaced

/-! ## What every run keeps to -/

/-- Demand that is not negative, books in order, subscribers in places that there are. -/
def Sane : Dispatcher E → Prop
  | .demand d => DemandDispatch.Nonneg (DemandDispatch.demands d.subscribers)
  | .broadcast b => BroadcastDispatch.Sound b
  | .partition q => Placed q

theorem sane_subscribe {d d' : Dispatcher E} {tag : Tag} {sub : ProducerSub}
    {partition : Option PartitionOption} (h : Sane d) (hsub : sub.demand = 0)
    (hsubscribe : d.subscribe tag sub partition = .ok d') : Sane d' := by
  cases d with
  | demand d =>
      cases hsubscribe
      exact DemandDispatch.nonneg_subscribe h tag hsub
  | broadcast b =>
      cases hsubscribe
      exact (BroadcastDispatch.Sound.subscribe h tag hsub).1
  | partition q =>
      obtain ⟨q', hq, rfl⟩ := map_eq_ok hsubscribe
      exact placed_subscribe hq h

theorem sane_cancel {d : Dispatcher E} (h : Sane d) (tag : Tag) : Sane (d.cancel tag) := by
  cases d with
  | demand d => exact DemandDispatch.nonneg_cancel h tag
  | broadcast b => exact (BroadcastDispatch.Sound.cancel h tag).1
  | partition q => exact placed_cancel h tag

theorem sane_ask {d : Dispatcher E} (h : Sane d) (tag : Tag) {demand : Int} (hpos : 0 ≤ demand) :
    Sane (d.ask tag demand).1 := by
  cases d with
  | demand d => exact DemandDispatch.nonneg_ask h tag hpos
  | broadcast b => exact (BroadcastDispatch.Sound.ask h tag hpos).1
  | partition q => exact (samePlaces_ask q tag demand).placed h

theorem sane_dispatch {d d' : Dispatcher E} {events : List E} {result : DispatchResult E}
    (h : Sane d) (hdispatch : d.dispatch events = .ok (d', result)) : Sane d' := by
  cases d with
  | demand d =>
      cases hdispatch
      exact DemandDispatch.nonneg_dispatch h events
  | broadcast b =>
      cases hdispatch
      exact (BroadcastDispatch.Sound.dispatch h events).1
  | partition q =>
      obtain ⟨q', rfl, hq⟩ := dispatch_partition_eq_ok hdispatch
      exact placed_dispatch hq h

structure Kept (o : Outlet E) : Prop where
  buffer_le : o.buffer.length ≤ o.bufferSize
  sane : Sane o.dispatcher

theorem Kept.placed {o : Outlet E} (h : Kept o) {q : PartitionDispatcher E}
    (hq : o.dispatcher = .partition q) : Placed q := by
  have hsane := h.sane
  rwa [hq] at hsane

theorem Kept.move {o o' : Outlet E} {acts : Trace E} (h : Kept o) (hmove : Move o acts o') :
    Kept o' := by
  refine ⟨(buffer_le_move hmove h.buffer_le).1, ?_⟩
  cases hmove with
  | subscribe tag consumerRef maxDemand minDemand partition =>
      obtain ⟨error, heq⟩ | ⟨d', hsubscribe, heq⟩ :=
        subscribe_cases o tag consumerRef maxDemand minDemand partition
      · rw [heq]
        exact h.sane
      · rw [heq]
        exact sane_subscribe h.sane rfl hsubscribe
  | cancel tag => exact sane_cancel h.sane tag
  | idle tag _ => exact h.sane
  | ask tag hpos hdrain =>
      obtain ⟨d', result, hdispatch, rfl, -⟩ := drain_eq_ok hdrain
      exact sane_dispatch (sane_ask h.sane tag hpos.le) hdispatch
  | askOnly tag hpos _ => exact sane_ask h.sane tag hpos.le
  | emit hemit =>
      obtain ⟨d', batches, rest, sents, hpasses, rfl, -⟩ := emits_passes hemit
      cases hpasses with
      | none | buffer => exact h.sane
      | dispatch _ _ hdispatch => exact sane_dispatch h.sane hdispatch
  | silent _ => exact h.sane

theorem Kept.moves {o o' : Outlet E} {acts : Trace E} (h : Kept o) (hmoves : Moves o acts o') :
    Kept o' :=
  Moves.invariant (I := fun o (_ : Trace E) => Kept o) (t := [])
    (fun _ _ _ _ hkept hmove => hkept.move hmove) hmoves h

theorem bufferSize_moves {o o' : Outlet E} {acts : Trace E} (h : Kept o)
    (hmoves : Moves o acts o') : o'.bufferSize = o.bufferSize :=
  (Moves.invariant (I := fun o' (_ : Trace E) => Kept o' ∧ o'.bufferSize = o.bufferSize) (t := [])
    (fun _ _ _ _ ⟨hkept, hsize⟩ hmove =>
      ⟨hkept.move hmove, (buffer_le_move hmove hkept.buffer_le).2.trans hsize⟩) hmoves ⟨h, rfl⟩).2

theorem kept_init (options : ProducerOptions E) : Kept (Outlet.init options) :=
  ⟨Nat.zero_le _, createDispatcher_cases nofun BroadcastDispatch.sound_new
    (fun _ _ _ hp => absurd hp Bool.false_ne_true) options.dispatcher⟩

theorem inside_create (config : Option (DispatcherConfig E)) :
    inside (createDispatcher config) = [] :=
  createDispatcher_cases (P := fun d => inside d = []) rfl rfl
    (fun _ _ => List.flatMap_eq_nil_iff.2 fun _ _ => rfl) config

theorem retained_init (options : ProducerOptions E) : retained (Outlet.init options) = [] :=
  inside_create options.dispatcher

theorem kind_moves {o o' : Outlet E} {acts : Trace E} (hmoves : Moves o acts o') :
    kind o'.dispatcher = kind o.dispatcher :=
  Moves.invariant (I := fun o' (_ : Trace E) => kind o'.dispatcher = kind o.dispatcher) (t := [])
    (fun _ _ _ _ h hmove => (kind_move hmove).trans h) hmoves rfl

/-- Behind another dispatcher there is only the buffer to bound. -/
theorem bounded_moves {o o' : Outlet E} {acts : Trace E} (h : Kept o)
    (hnone : ∀ q, o.dispatcher ≠ .partition q) (hmoves : Moves o acts o') : Bounded o' := by
  refine bounded_of_not_partition (h.moves hmoves).buffer_le ?_
  rw [kind_moves hmoves]
  exact kind_ne_partition hnone

end Libeam.Proofs.Retention
