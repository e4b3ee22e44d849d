import Libeam.GenStage.Ledger
import Libeam.GenStage.Producer
import Libeam.GenStage.ProducerConsumer
/-!
# What a producing stage does with its outlet

Whatever message a `Producer` or a `ProducerConsumer` handles, its dispatcher and its
buffer change in a few ways only.  What holds of an outlet and its trace at the start
and survives each of them holds in every run of both stages.
-/

namespace Libeam.Proofs.OutletMoves

open Lib GenStage
open Supervision (ActorRef)

theorem map_eq_ok {ε α β : Type} {f : α → β} {x : Except ε α} {b : β}
    (h : x.map f = .ok b) : ∃ a, x = .ok a ∧ f a = b := by
  cases x with
  | error e => exact nomatch h
  | ok a => exact ⟨a, rfl, Except.ok.inj h⟩

theorem dispatch_partition_eq_ok {E : Type} {q : PartitionDispatcher E} {events : List E}
    {d' : Dispatcher E} {result : DispatchResult E}
    (h : (Dispatcher.partition q).dispatch events = .ok (d', result)) :
    ∃ q', d' = .partition q' ∧ q.dispatch events = .ok (q', result) := by
  obtain ⟨⟨q', result'⟩, hdispatch, heq⟩ := map_eq_ok h
  cases heq
  exact ⟨q', rfl, hdispatch⟩

theorem bind_eq_ok {ε α β : Type} {f : α → Except ε β} {x : Except ε α} {b : β}
    (h : x.bind f = .ok b) : ∃ a, x = .ok a ∧ f a = .ok b := by
  cases x with
  | error e => exact nomatch h
  | ok a => exact ⟨a, rfl, h⟩

theorem step_eq_some {σ E μ : Type} {receive : σ → μ → Except String (σ × List (Act E))}
    {r r' : Recorded σ E} {m : μ} (h : r.step receive m = some r') :
    ∃ acts, receive r.stage m = .ok (r'.stage, acts) ∧ r'.trace = r.trace ++ acts := by
  unfold Recorded.step at h
  cases hreceive : receive r.stage m with
  | error e =>
      rw [hreceive] at h
      exact nomatch h
  | ok done =>
      rw [hreceive] at h
      cases h
      exact ⟨done.2, rfl, rfl⟩

variable {E E' S : Type}

/-- The events a callback returned are dispatched or buffered, unless there are none. -/
def Emits (o : Outlet E) (events : List E) (acts : Trace E) (o' : Outlet E) : Prop :=
  events = [] ∧ acts = [] ∧ o' = o ∨
    events ≠ [] ∧ o.dispatchOrBuffer events = .ok (o', acts)

/-- Acts that say nothing about the outlet. -/
def Silent : Act E → Prop
  | .handleDemand _ => True
  | .received _ _ => True
  | .askedProducer _ _ _ => True
  | _ => False

/-- One thing that a stage does with its outlet. -/
inductive Move : Outlet E → Trace E → Outlet E → Prop
  | subscribe (o : Outlet E) (tag consumerRef maxDemand minDemand partition) :
      Move o (o.subscribe tag consumerRef maxDemand minDemand partition).2
        (o.subscribe tag consumerRef maxDemand minDemand partition).1
  | cancel (o : Outlet E) (tag : Tag) : Move o (o.cancel tag).2 (o.cancel tag).1
  /-- An ask for nothing is ignored. -/
  | idle (o : Outlet E) (tag : Tag) {demand : Int} (h : demand ≤ 0) :
      Move o [.asked tag demand] o
  | ask {o o' : Outlet E} {acts} (tag : Tag) {demand : Int} (h : 0 < demand)
      (hdrain : (o.ask tag demand).1.drain = .ok (o', acts)) :
      Move o (.asked tag demand :: acts) o'
  /-- A `ProducerConsumer` does not drain when its buffer is empty. -/
  | askOnly {o : Outlet E} (tag : Tag) {demand : Int} (h : 0 < demand) (hnil : o.buffer = []) :
      Move o [.asked tag demand] (o.ask tag demand).1
  | emit {o o' : Outlet E} {acts} {events : List E} (h : Emits o events acts o') :
      Move o (.returned events :: acts) o'
  | silent (o : Outlet E) {act : Act E} (h : Silent act) : Move o [act] o

inductive Moves : Outlet E → Trace E → Outlet E → Prop
  | nil (o) : Moves o [] o
  | cons {o o' o'' acts acts'} : Move o acts o' → Moves o' acts' o'' → Moves o (acts ++ acts') o''

theorem Move.moves {o o' : Outlet E} {acts : Trace E} (h : Move o acts o') :
    Moves o acts o' := by
  have hmoves := Moves.cons h (.nil o')
  rwa [List.append_nil] at hmoves

theorem Moves.append {o o' o'' : Outlet E} {acts acts' : Trace E} (h : Moves o acts o')
    (h' : Moves o' acts' o'') : Moves o (acts ++ acts') o'' := by
  induction h with
  | nil => exact h'
  | cons hmove _ ih =>
      rw [List.append_assoc]
      exact .cons hmove (ih h')

/-- The rule for outlets: what every move preserves, all moves preserve. -/
theorem Moves.invariant {I : Outlet E → Trace E → Prop}
    (hmove : ∀ o t acts o', I o t → Move o acts o' → I o' (t ++ acts))
    {o o' : Outlet E} {t acts : Trace E} (h : Moves o acts o') (hI : I o t) :
    I o' (t ++ acts) := by
  induction h generalizing t with
  | nil =>
      rw [List.append_nil]
      exact hI
  | cons hfirst _ ih =>
      rw [← List.append_assoc]
      exact ih (hmove _ _ _ _ hI hfirst)

/-- A dispatcher takes a subscription, or it throws and nothing changes. -/
theorem subscribe_cases (o : Outlet E) (tag : Tag) (consumerRef : ActorRef String)
    (maxDemand : Nat) (minDemand : Int) (partition : Option PartitionOption) :
    (∃ error, o.subscribe tag consumerRef maxDemand minDemand partition =
      (o, [.rejected tag error])) ∨
    ∃ d', o.dispatcher.subscribe tag ⟨consumerRef, 0, maxDemand, minDemand⟩ partition = .ok d' ∧
      o.subscribe tag consumerRef maxDemand minDemand partition =
        ({ o with dispatcher := d' }, [.subscribed tag partition]) := by
  unfold Outlet.subscribe
  cases o.dispatcher.subscribe tag ⟨consumerRef, 0, maxDemand, minDemand⟩ partition with
  | error error => exact .inl ⟨error, rfl⟩
  | ok d' => exact .inr ⟨d', rfl, rfl⟩

/-! ## The buffer -/

/-- What the buffer holds after `addToBuffer`. -/
def kept (o : Outlet E) (events : List E) : List E :=
  match o.bufferKeep with
  | .last => (o.buffer ++ events).drop ((o.buffer ++ events).length - o.bufferSize)
  | .first => o.buffer ++ events.take (o.bufferSize - o.buffer.length)

/-- The events that it had no space for. -/
def lost (o : Outlet E) (events : List E) : List E :=
  match o.bufferKeep with
  | .last => (o.buffer ++ events).take ((o.buffer ++ events).length - o.bufferSize)
  | .first => events.drop (o.bufferSize - o.buffer.length)

theorem addToBuffer_eq (o : Outlet E) (events : List E) :
    o.addToBuffer events = ({ o with buffer := kept o events },
      if lost o events = [] then [] else [.dropped (lost o events)]) := by
  unfold Outlet.addToBuffer kept lost
  cases o.bufferKeep with
  | last =>
      dsimp only
      by_cases hover : (o.buffer ++ events).length > o.bufferSize
      · rw [if_pos hover, if_neg]
        intro hnil
        have hlength := congrArg List.length hnil
        rw [List.length_take, List.length_nil] at hlength
        omega
      · have hzero : (o.buffer ++ events).length - o.bufferSize = 0 := by omega
        rw [if_neg hover, hzero, List.take_zero, if_pos rfl, List.drop_zero]
  | first =>
      dsimp only
      by_cases hover : events.length > o.bufferSize - o.buffer.length
      · rw [if_pos hover, if_neg]
        intro hnil
        have hlength := congrArg List.length hnil
        rw [List.length_drop, List.length_nil] at hlength
        omega
      · rw [if_neg hover, if_pos (List.drop_eq_nil_of_le (by omega))]

theorem kept_of_lost_nil {o : Outlet E} {events : List E} (h : lost o events = []) :
    kept o events = o.buffer ++ events := by
  unfold kept
  unfold lost at h
  cases hkeep : o.bufferKeep with
  | last =>
      rw [hkeep] at h
      dsimp only at h ⊢
      conv_rhs => rw [← List.take_append_drop _ (o.buffer ++ events), h, List.nil_append]
  | first =>
      rw [hkeep] at h
      dsimp only at h ⊢
      rw [List.take_of_length_le (List.drop_eq_nil_iff.1 h)]

theorem length_kept_add_lost (o : Outlet E) (events : List E) :
    (kept o events).length + (lost o events).length = o.buffer.length + events.length := by
  unfold kept lost
  cases o.bufferKeep with
  | last =>
      simp only [List.length_drop, List.length_take, List.length_append]
      omega
  | first =>
      simp only [List.length_append, List.length_take, List.length_drop]
      omega

/-- The bound on the buffer. -/
theorem length_kept_le {o : Outlet E} (h : o.buffer.length ≤ o.bufferSize) (events : List E) :
    (kept o events).length ≤ o.bufferSize := by
  unfold kept
  cases o.bufferKeep with
  | last =>
      simp only [List.length_drop, List.length_append]
      omega
  | first =>
      simp only [List.length_append, List.length_take]
      omega

/-! ## Draining and emitting -/

/-- The buffer behind what a dispatch has left over. -/
def keptRest (o : Outlet E) (rest : List E) : List E :=
  if rest = [] then o.buffer else kept o rest

def lostRest (o : Outlet E) (rest : List E) : List E :=
  if rest = [] then [] else lost o rest

/-- What a buffer records that has dropped events. -/
def dropActs (events : List E) : Trace E := if events = [] then [] else [.dropped events]

theorem dropped_dropActs (events : List E) : Trace.dropped (dropActs events) = events := by
  unfold dropActs
  split_ifs with hnil
  · exact hnil.symm
  · exact List.append_nil _

theorem keptRest_of_lostRest_nil {o : Outlet E} {rest : List E} (h : lostRest o rest = []) :
    keptRest o rest = o.buffer ++ rest := by
  unfold keptRest
  unfold lostRest at h
  split_ifs at h ⊢ with hnil
  · rw [hnil, List.append_nil]
  · exact kept_of_lost_nil h

theorem length_keptRest_add_lostRest (o : Outlet E) (rest : List E) :
    (keptRest o rest).length + (lostRest o rest).length = o.buffer.length + rest.length := by
  unfold keptRest lostRest
  split_ifs with hnil
  · rw [hnil]
  · exact length_kept_add_lost o rest

theorem length_keptRest_le {o : Outlet E} (h : o.buffer.length ≤ o.bufferSize) (rest : List E) :
    (keptRest o rest).length ≤ o.bufferSize := by
  unfold keptRest
  split_ifs
  · exact h
  · exact length_kept_le h rest

/-- How events get past the buffer: the dispatcher they leave, the batches sent and the
rest that has to be buffered. -/
inductive Passes (o : Outlet E) :
    List E → Dispatcher E → List (Dispatched E) → List E → Trace E → Prop
  | none : Passes o [] o.dispatcher [] [] []
  | buffer {events : List E} (hne : events ≠ []) (hhas : o.dispatcher.hasSubscribers = false) :
      Passes o events o.dispatcher [] events []
  | dispatch {events : List E} {d' result} (hne : events ≠ [])
      (hhas : o.dispatcher.hasSubscribers = true)
      (hdispatch : o.dispatcher.dispatch events = .ok (d', result)) :
      Passes o events d' result.dispatched result.remaining [.sent result.dispatched]

theorem emits_passes {o o' : Outlet E} {events : List E} {acts : Trace E}
    (h : Emits o events acts o') :
    ∃ d' batches rest sents, Passes o events d' batches rest sents ∧
      o' = { o with dispatcher := d', buffer := keptRest o rest } ∧
      acts = sents ++ dropActs (lostRest o rest) := by
  obtain ⟨rfl, rfl, rfl⟩ | ⟨hne, h⟩ := h
  · exact ⟨_, _, _, _, .none, rfl, rfl⟩
  · unfold Outlet.dispatchOrBuffer at h
    cases hhas : o.dispatcher.hasSubscribers with
    | false =>
        rw [hhas, if_pos (by rfl), addToBuffer_eq] at h
        cases h
        refine ⟨_, _, _, _, .buffer hne hhas, ?_, ?_⟩
        · simp only [keptRest, if_neg hne]
        · simp only [lostRest, if_neg hne, List.nil_append]
          rfl
    | true =>
        rw [hhas, if_neg (by exact Bool.false_ne_true)] at h
        obtain ⟨⟨d', result⟩, hdispatch, heq⟩ := map_eq_ok h
        refine ⟨_, _, _, _, .dispatch hne hhas hdispatch, ?_⟩
        by_cases hnil : result.remaining = []
        · simp only [hnil, List.length_nil, gt_iff_lt, lt_irrefl, if_false] at heq
          cases heq
          simp only [keptRest, lostRest, if_pos hnil]
          exact ⟨trivial, rfl⟩
        · simp only [gt_iff_lt, List.length_pos_iff.2 hnil, if_true, addToBuffer_eq] at heq
          cases heq
          simp only [keptRest, lostRest, if_neg hnil]
          exact ⟨rfl, rfl⟩

theorem drain_eq_ok {o o' : Outlet E} {acts : Trace E} (h : o.drain = .ok (o', acts)) :
    ∃ d' result, o.dispatcher.dispatch o.buffer = .ok (d', result) ∧
      o' = { o with dispatcher := d', buffer := result.remaining } ∧
      acts = [.sent result.dispatched] := by
  obtain ⟨⟨d', result⟩, hdispatch, heq⟩ := map_eq_ok h
  cases heq
  exact ⟨d', result, hdispatch, rfl, rfl⟩

/-- Acts that send batches and ask for nothing. -/
structure Sends (batches : List (Dispatched E)) (acts : Trace E) : Prop where
  batches_eq : acts.batches = batches
  askedBy_eq : ∀ tag, acts.askedBy tag = 0
  ledger_eq : ∀ l : Ledger, acts.foldl Ledger.record l = l.charge batches

/-- Acts that send, return and drop nothing. -/
structure Quiet (acts : Trace E) : Prop where
  batches_eq : acts.batches = []
  returned_eq : acts.returned = []
  dropped_eq : acts.dropped = []

theorem Quiet.sent {acts : Trace E} (h : Quiet acts) (t : Trace E) :
    Trace.sent (t ++ acts) = t.sent := by
  rw [Trace.sent, Trace.batches_append, h.batches_eq, List.append_nil, Trace.sent]

theorem Quiet.sentTo {acts : Trace E} (h : Quiet acts) (t : Trace E) (tag : Tag) :
    Trace.sentTo tag (t ++ acts) = t.sentTo tag := by
  rw [Trace.sentTo, Trace.batches_append, h.batches_eq, List.append_nil, Trace.sentTo]

theorem Quiet.returned {acts : Trace E} (h : Quiet acts) (t : Trace E) :
    Trace.returned (t ++ acts) = t.returned := by
  rw [Trace.returned_append, h.returned_eq, List.append_nil]

theorem Quiet.dropped {acts : Trace E} (h : Quiet acts) (t : Trace E) :
    Trace.dropped (t ++ acts) = t.dropped := by
  rw [Trace.dropped_append, h.dropped_eq, List.append_nil]

theorem quiet_silent {act : Act E} (h : Silent act) : Quiet [act] := by
  cases act with
  | handleDemand | received | askedProducer => exact ⟨rfl, rfl, rfl⟩
  | _ => exact h.elim

theorem sends_dropActs (events : List E) : Sends [] (dropActs events) := by
  unfold dropActs
  split_ifs
  · exact ⟨rfl, fun _ => rfl, fun _ => rfl⟩
  · exact ⟨rfl, fun _ => rfl, fun _ => rfl⟩

theorem returned_dropActs (events : List E) : Trace.returned (dropActs events) = [] := by
  unfold dropActs
  split_ifs <;> rfl

theorem sends_sent (batches : List (Dispatched E)) : Sends batches [.sent batches] :=
  ⟨List.append_nil _, fun _ => rfl, fun _ => rfl⟩

theorem Sends.append_dropActs {batches : List (Dispatched E)} {acts : Trace E}
    (h : Sends batches acts) (events : List E) : Sends batches (acts ++ dropActs events) := by
  have hdrop := sends_dropActs events
  refine ⟨?_, fun tag => ?_, fun l => ?_⟩
  · rw [Trace.batches_append, h.batches_eq, hdrop.batches_eq, List.append_nil]
  · rw [Trace.askedBy_append, h.askedBy_eq, hdrop.askedBy_eq, add_zero]
  · rw [List.foldl_append, hdrop.ledger_eq, h.ledger_eq]
    rfl

theorem Sends.cons_returned {batches : List (Dispatched E)} {acts : Trace E}
    (h : Sends batches acts) (events : List E) : Sends batches (.returned events :: acts) :=
  ⟨h.batches_eq, fun tag => (zero_add _).trans (h.askedBy_eq tag), h.ledger_eq⟩

theorem Passes.sends {o : Outlet E} {events rest : List E} {d' : Dispatcher E} {batches}
    {sents : Trace E} (h : Passes o events d' batches rest sents) : Sends batches sents := by
  cases h with
  | none | buffer => exact ⟨rfl, fun _ => rfl, fun _ => rfl⟩
  | dispatch => exact sends_sent _

theorem Passes.dropped {o : Outlet E} {events rest : List E} {d' : Dispatcher E} {batches}
    {sents : Trace E} (h : Passes o events d' batches rest sents) : sents.dropped = [] := by
  cases h <;> rfl

theorem Passes.returned {o : Outlet E} {events rest : List E} {d' : Dispatcher E} {batches}
    {sents : Trace E} (h : Passes o events d' batches rest sents) : sents.returned = [] := by
  cases h <;> rfl

/-- The acts of an emission drop what the buffer had no space for, and no more. -/
theorem Passes.dropped_acts {o : Outlet E} {events rest : List E} {d' : Dispatcher E} {batches}
    {sents : Trace E} (h : Passes o events d' batches rest sents) :
    Trace.dropped (.returned events :: (sents ++ dropActs (lostRest o rest))) =
      lostRest o rest := by
  change Trace.dropped (sents ++ dropActs (lostRest o rest)) = lostRest o rest
  rw [Trace.dropped_append, h.dropped, dropped_dropActs, List.nil_append]

theorem Passes.returned_acts {o : Outlet E} {events rest : List E} {d' : Dispatcher E} {batches}
    {sents : Trace E} (h : Passes o events d' batches rest sents) :
    Trace.returned (.returned events :: (sents ++ dropActs (lostRest o rest))) = events := by
  change events ++ Trace.returned (sents ++ dropActs (lostRest o rest)) = events
  rw [Trace.returned_append, h.returned, returned_dropActs, List.append_nil, List.append_nil]

/-! ## The Producer -/

theorem demandEvents_eq_ok {p p' : ProducerStage E S} {demand : Int} {acts : Trace E}
    (h : p.demandEvents demand = .ok (p', acts)) :
    ∃ o emitted, Emits p.toOutlet (p.callbacks.handleDemand demand p.userState).1 emitted o ∧
      p' = { p with
        toOutlet := o, userState := (p.callbacks.handleDemand demand p.userState).2 } ∧
      acts = .handleDemand demand ::
        .returned (p.callbacks.handleDemand demand p.userState).1 :: emitted := by
  unfold ProducerStage.demandEvents at h
  dsimp only at h
  by_cases hnil : (p.callbacks.handleDemand demand p.userState).1 = []
  · rw [if_neg (by simp [hnil])] at h
    cases h
    exact ⟨p.toOutlet, [], .inl ⟨hnil, rfl, rfl⟩, rfl, by rw [hnil]⟩
  · rw [if_pos (List.length_pos_iff.2 hnil)] at h
    obtain ⟨⟨q, emitted⟩, hdispatch, heq⟩ := map_eq_ok h
    obtain ⟨⟨o, acts'⟩, houtlet, hq⟩ := map_eq_ok hdispatch
    cases hq
    cases heq
    exact ⟨o, emitted, .inr ⟨hnil, houtlet⟩, rfl, rfl⟩

theorem forwardDemand_eq_ok {p p' : ProducerStage E S} {demand : Int} {acts : Trace E}
    (h : p.forwardDemand demand = .ok (p', acts)) :
    demand ≤ 0 ∧ p' = p ∧ acts = [] ∨
    0 < demand ∧ p.demandMode = .accumulate ∧
      p' = { p with accumulatedDemand := p.accumulatedDemand + demand } ∧ acts = [] ∨
    0 < demand ∧ p.demandMode = .forward ∧ p.demandEvents demand = .ok (p', acts) := by
  unfold ProducerStage.forwardDemand at h
  by_cases hpos : demand > 0
  · rw [if_pos hpos] at h
    by_cases hmode : p.demandMode = .accumulate
    · rw [if_pos hmode] at h
      cases h
      exact .inr (.inl ⟨hpos, hmode, rfl, rfl⟩)
    · rw [if_neg hmode] at h
      refine .inr (.inr ⟨hpos, ?_, h⟩)
      cases hforward : p.demandMode with
      | accumulate => exact absurd hforward hmode
      | forward => rfl
  · rw [if_neg hpos] at h
    cases h
    exact .inl ⟨not_lt.1 hpos, rfl, rfl⟩

theorem handleAsk_eq_ok {p p' : ProducerStage E S} {tag : Tag} {demand : Int} {acts : Trace E}
    (h : p.handleAsk tag demand = .ok (p', acts)) :
    demand ≤ 0 ∧ p' = p ∧ acts = [.asked tag demand] ∨
    0 < demand ∧ ∃ o drained rest, (p.toOutlet.ask tag demand).1.drain = .ok (o, drained) ∧
      ({ p with toOutlet := o }).forwardDemand (p.toOutlet.ask tag demand).2 = .ok (p', rest) ∧
      acts = .asked tag demand :: (drained ++ rest) := by
  unfold ProducerStage.handleAsk at h
  by_cases hnone : demand ≤ 0
  · rw [if_pos hnone] at h
    cases h
    exact .inl ⟨hnone, rfl, rfl⟩
  · rw [if_neg hnone] at h
    obtain ⟨⟨o, drained⟩, hdrain, hrest⟩ := bind_eq_ok h
    obtain ⟨⟨q, rest⟩, hforward, heq⟩ := map_eq_ok hrest
    cases heq
    exact .inr ⟨not_le.1 hnone, o, drained, rest, hdrain, hforward, rfl⟩

theorem switchDemandMode_eq_ok {p p' : ProducerStage E S} {acts : Trace E}
    (h : p.switchDemandMode = .ok (p', acts)) :
    p.accumulatedDemand ≤ 0 ∧ p' = { p with demandMode := .forward } ∧ acts = [] ∨
    0 < p.accumulatedDemand ∧
      ({ p with demandMode := .forward, accumulatedDemand := 0 }).demandEvents
        p.accumulatedDemand = .ok (p', acts) := by
  unfold ProducerStage.switchDemandMode at h
  dsimp only at h
  by_cases hpos : p.accumulatedDemand > 0
  · rw [if_pos hpos] at h
    exact .inr ⟨hpos, h⟩
  · rw [if_neg hpos] at h
    cases h
    exact .inl ⟨not_lt.1 hpos, rfl, rfl⟩

theorem demandEvents_moves {p p' : ProducerStage E S} {demand : Int} {acts : Trace E}
    (h : p.demandEvents demand = .ok (p', acts)) : Moves p.toOutlet acts p'.toOutlet := by
  obtain ⟨o, emitted, hemits, rfl, rfl⟩ := demandEvents_eq_ok h
  exact .cons (.silent _ (show Silent (.handleDemand demand) from trivial)) (Move.emit hemits).moves

theorem forwardDemand_moves {p p' : ProducerStage E S} {demand : Int} {acts : Trace E}
    (h : p.forwardDemand demand = .ok (p', acts)) : Moves p.toOutlet acts p'.toOutlet := by
  obtain ⟨-, rfl, rfl⟩ | ⟨-, -, rfl, rfl⟩ | ⟨-, -, hevents⟩ := forwardDemand_eq_ok h
  · exact .nil _
  · exact .nil _
  · exact demandEvents_moves hevents

theorem producer_moves {p p' : ProducerStage E S} {m : ProducerMessage} {acts : Trace E}
    (h : p.receive m = .ok (p', acts)) : Moves p.toOutlet acts p'.toOutlet := by
  cases m with
  | subscribe tag consumerRef maxDemand minDemand partition =>
      cases h
      exact (Move.subscribe p.toOutlet tag consumerRef maxDemand minDemand partition).moves
  | ask tag demand =>
      obtain ⟨hnone, rfl, rfl⟩ | ⟨hpos, o, drained, rest, hdrain, hforward, rfl⟩ :=
        handleAsk_eq_ok h
      · exact (Move.idle _ tag hnone).moves
      · exact .cons (.ask tag hpos hdrain) (forwardDemand_moves hforward)
  | cancel tag reason =>
      cases h
      exact (Move.cancel p.toOutlet tag).moves
  | setDemandMode =>
      obtain ⟨-, rfl, rfl⟩ | ⟨-, hevents⟩ := switchDemandMode_eq_ok h
      · exact .nil _
      · have hmoves := demandEvents_moves hevents
        exact hmoves

theorem producer_run_moves {callbacks : ProducerCallbacks E S} {options : ProducerOptions E}
    {mode : Option DemandMode} {ms : List ProducerMessage} {r : Recorded (ProducerStage E S) E}
    (h : Transition.run ProducerStage.step (ProducerStage.start callbacks options mode) ms =
      some r) :
    Moves (Outlet.init options) r.trace r.stage.toOutlet := by
  refine Transition.run_invariant'
    (I := fun r : Recorded (ProducerStage E S) E =>
      Moves (Outlet.init options) r.trace r.stage.toOutlet) ?_ (.nil _) h
  intro r m r' hr hstep
  obtain ⟨acts, hreceive, htrace⟩ := step_eq_some hstep
  rw [htrace]
  exact hr.append (producer_moves hreceive)

/-! ## The ProducerConsumer -/

theorem handleUpstreamEvents_eq_ok {p p' : ProducerConsumerStage E E' S} {tag : Tag}
    {producerRef : ActorRef String} {events : List E'} {acts : Trace E}
    (h : p.handleUpstreamEvents tag producerRef events = .ok (p', acts)) :
    p.upstreamSubs.get tag = none ∧ p' = p ∧ acts = [] ∨
    ∃ sub o emitted asks,
      p.upstreamSubs.get tag = some sub ∧
      Emits p.toOutlet (p.callbacks.handleEvents events ⟨tag, producerRef⟩ p.userState).1
        emitted o ∧
      (p', asks) = ({ p with
        toOutlet := o
        upstreamSubs := p.upstreamSubs.modify tag fun _ => sub.take events.length
        userState := (p.callbacks.handleEvents events ⟨tag, producerRef⟩ p.userState).2 }
          ).reaskUpstream tag (sub.take events.length) ∧
      acts = .received tag events.length ::
        .returned (p.callbacks.handleEvents events ⟨tag, producerRef⟩ p.userState).1 ::
          (emitted ++ asks) := by
  unfold ProducerConsumerStage.handleUpstreamEvents at h
  cases hsub : p.upstreamSubs.get tag with
  | none =>
      rw [hsub] at h
      cases h
      exact .inl ⟨rfl, rfl, rfl⟩
  | some sub =>
      rw [hsub] at h
      refine .inr ?_
      dsimp only at h
      obtain ⟨⟨q, emitted⟩, hdispatch, heq⟩ := map_eq_ok h
      cases heq
      by_cases hnil : (p.callbacks.handleEvents events ⟨tag, producerRef⟩ p.userState).1 = []
      · rw [if_neg (by simp [hnil])] at hdispatch
        cases hdispatch
        exact ⟨sub, p.toOutlet, [], _, rfl, .inl ⟨hnil, rfl, rfl⟩, rfl, rfl⟩
      · rw [if_pos (List.length_pos_iff.2 hnil)] at hdispatch
        obtain ⟨⟨o, acts'⟩, houtlet, hq⟩ := map_eq_ok hdispatch
        cases hq
        exact ⟨sub, o, emitted, _, rfl, .inr ⟨hnil, houtlet⟩, rfl, rfl⟩

theorem handleDownstreamAsk_eq_ok {p p' : ProducerConsumerStage E E' S} {tag : Tag}
    {demand : Int} {acts : Trace E} (h : p.handleDownstreamAsk tag demand = .ok (p', acts)) :
    demand ≤ 0 ∧ p' = p ∧ acts = [.asked tag demand] ∨
    0 < demand ∧ p.buffer = [] ∧ p' = { p with toOutlet := (p.toOutlet.ask tag demand).1 } ∧
      acts = [.asked tag demand] ∨
    0 < demand ∧ p.buffer ≠ [] ∧ ∃ o drained,
      (p.toOutlet.ask tag demand).1.drain = .ok (o, drained) ∧
      p' = { p with toOutlet := o } ∧ acts = .asked tag demand :: drained := by
  unfold ProducerConsumerStage.handleDownstreamAsk at h
  by_cases hnone : demand ≤ 0
  · rw [if_pos hnone] at h
    cases h
    exact .inl ⟨hnone, rfl, rfl⟩
  · rw [if_neg hnone] at h
    dsimp only at h
    change (if p.buffer.length > 0 then _ else _) = _ at h
    by_cases hnil : p.buffer = []
    · rw [if_neg (by simp [hnil])] at h
      cases h
      exact .inr (.inl ⟨not_le.1 hnone, hnil, rfl, rfl⟩)
    · rw [if_pos (List.length_pos_iff.2 hnil)] at h
      obtain ⟨⟨o, drained⟩, hdrain, heq⟩ := map_eq_ok h
      cases heq
      exact .inr (.inr ⟨not_le.1 hnone, hnil, o, drained, hdrain, rfl, rfl⟩)

theorem askUpstream_moves (p : ProducerConsumerStage E E' S) (tag : Tag) (sub : ConsumerSub)
    (demand : Int) :
    Moves p.toOutlet (p.askUpstream tag sub demand).2 (p.askUpstream tag sub demand).1.toOutlet :=
  (Move.silent p.toOutlet
    (show Silent (.askedProducer sub.producerRef tag demand) from trivial)).moves

theorem reaskUpstream_outlet (p : ProducerConsumerStage E E' S) (tag : Tag) (sub : ConsumerSub) :
    (p.reaskUpstream tag sub).1.toOutlet = p.toOutlet := by
  unfold ProducerConsumerStage.reaskUpstream
  split <;> rfl

theorem deferredAsk_outlet (p : ProducerConsumerStage E E' S) (tag : Tag) :
    (p.deferredAsk tag).1.toOutlet = p.toOutlet := by
  unfold ProducerConsumerStage.deferredAsk
  split <;> rfl

theorem handleCancel_cases (p : ProducerConsumerStage E E' S) (tag : Tag) :
    p.dispatcher.has tag = true ∧
      p.handleCancel tag = ({ p with toOutlet := (p.toOutlet.cancel tag).1 },
        (p.toOutlet.cancel tag).2) ∨
    p.dispatcher.has tag = false ∧
      p.handleCancel tag = ({ p with upstreamSubs := p.upstreamSubs.delete tag }, []) := by
  unfold ProducerConsumerStage.handleCancel
  cases p.dispatcher.has tag with
  | true => exact .inl ⟨rfl, rfl⟩
  | false => exact .inr ⟨rfl, rfl⟩

theorem reaskUpstream_moves (p : ProducerConsumerStage E E' S) (tag : Tag) (sub : ConsumerSub) :
    Moves p.toOutlet (p.reaskUpstream tag sub).2 (p.reaskUpstream tag sub).1.toOutlet := by
  unfold ProducerConsumerStage.reaskUpstream
  split
  · exact askUpstream_moves p tag sub _
  · exact .nil _

theorem handleUpstreamEvents_moves {p p' : ProducerConsumerStage E E' S} {tag : Tag}
    {producerRef : ActorRef String} {events : List E'} {acts : Trace E}
    (h : p.handleUpstreamEvents tag producerRef events = .ok (p', acts)) :
    Moves p.toOutlet acts p'.toOutlet := by
  obtain ⟨-, rfl, rfl⟩ | ⟨sub, o, emitted, asks, -, hemits, hreask, rfl⟩ :=
    handleUpstreamEvents_eq_ok h
  · exact .nil _
  · have hasks := reaskUpstream_moves ({ p with
      toOutlet := o
      upstreamSubs := p.upstreamSubs.modify tag fun _ => sub.take events.length
      userState := (p.callbacks.handleEvents events ⟨tag, producerRef⟩ p.userState).2 }) tag
        (sub.take events.length)
    rw [← hreask] at hasks
    exact .cons (.silent _ (show Silent (.received tag events.length) from trivial))
      (.cons (.emit hemits) hasks)

theorem producerConsumer_moves {p p' : ProducerConsumerStage E E' S}
    {m : ProducerConsumerMessage E'} {acts : Trace E} (h : p.receive m = .ok (p', acts)) :
    Moves p.toOutlet acts p'.toOutlet := by
  cases m with
  | subscribe tag consumerRef maxDemand minDemand partition =>
      cases h
      exact (Move.subscribe p.toOutlet tag consumerRef maxDemand minDemand partition).moves
  | deferredAsk tag =>
      have hmoves : Moves p.toOutlet (p.deferredAsk tag).2 (p.deferredAsk tag).1.toOutlet := by
        unfold ProducerConsumerStage.deferredAsk
        split
        · exact .nil _
        · exact askUpstream_moves p tag _ _
      rwa [Except.ok.inj h] at hmoves
  | events tag producerRef events => exact handleUpstreamEvents_moves h
  | ask tag demand =>
      obtain ⟨hnone, rfl, rfl⟩ | ⟨hpos, hnil, rfl, rfl⟩ |
        ⟨hpos, hnil, o, drained, hdrain, rfl, rfl⟩ := handleDownstreamAsk_eq_ok h
      · exact (Move.idle _ tag hnone).moves
      · exact (Move.askOnly tag hpos hnil).moves
      · exact (Move.ask tag hpos hdrain).moves
  | cancel tag reason =>
      have hmoves : Moves p.toOutlet (p.handleCancel tag).2 (p.handleCancel tag).1.toOutlet := by
        obtain ⟨-, heq⟩ | ⟨-, heq⟩ := handleCancel_cases p tag
        · rw [heq]
          exact (Move.cancel p.toOutlet tag).moves
        · rw [heq]
          exact .nil _
      rwa [Except.ok.inj h] at hmoves
  | subscribeToProducer | cancelUpstream =>
      cases h
      exact .nil _

theorem producerConsumer_run_moves {callbacks : ProducerConsumerCallbacks E E' S}
    {options : ProducerOptions E} {ms : List (ProducerConsumerMessage E')}
    {r : Recorded (ProducerConsumerStage E E' S) E}
    (h : Transition.run ProducerConsumerStage.step
      (ProducerConsumerStage.start callbacks options) ms = some r) :
    Moves (Outlet.init options) r.trace r.stage.toOutlet := by
  refine Transition.run_invariant'
    (I := fun r : Recorded (ProducerConsumerStage E E' S) E =>
      Moves (Outlet.init options) r.trace r.stage.toOutlet) ?_ (.nil _) h
  intro r m r' hr hstep
  obtain ⟨acts, hreceive, htrace⟩ := step_eq_some hstep
  rw [htrace]
  exact hr.append (producerConsumer_moves hreceive)

end Libeam.Proofs.OutletMoves
