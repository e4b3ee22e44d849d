import Libeam.Proofs.BroadcastDispatch
import Libeam.Proofs.OutletMoves
/-!
# Demand behind the broadcast dispatcher

The demand that all subscribers have in common is to be passed on to the user as soon
as it arises.  An ask does so, a cancel does not: the subscriber that leaves may be the
one that the others were waiting for, and what `syncDemands` returns is then lost.
-/

namespace Libeam.Proofs.BroadcastFlow

open Lib GenStage OutletMoves BroadcastDispatch

variable {E S : Type}

/-- What an act adds to the demand that the user was passed and has not met.  A dispatch
sends the same batch to every subscriber. -/
def ahead : Act E → Int
  | .handleDemand demand => demand
  | .sent (b :: _) => -b.events.length
  | _ => 0

/-- The current subscribers and the demand passed to `handleDemand`, less the events
dispatched since, counted from the last time that nobody was subscribed. -/
structure Flow where
  ledger : Ledger
  passed : Int

def Flow.record (f : Flow) (act : Act E) : Flow where
  ledger := f.ledger.record act
  passed := if OrderedMap.keys (f.ledger.record act) = [] then 0 else f.passed + ahead act

def flow (t : Trace E) : Flow := t.foldl Flow.record ⟨.empty, 0⟩

/-- The demand that all current subscribers have in common and that is not served. -/
def common (l : Ledger) : Option Int := l.owed.values.min?

/-- Demand in common is passed on or served, and events do not wait for demand that
waits for events. -/
def NeverStalls (r : Recorded (ProducerStage E S) E) : Prop :=
  ∀ b, r.stage.dispatcher = .broadcast b → b.hasSubscribers = true →
    (∀ demand, common r.trace.ledger = some demand → demand ≤ (flow r.trace).passed) ∧
    b.waiting ≤ (flow r.trace).passed ∧
    (r.stage.buffer = [] ∨ b.waiting = 0)

/-- A cancel that leaves subscribers leaves one without demand beyond `waiting`, or the
demand they have in common is requested already and no events are there for it. -/
def Harmless (r : Recorded (ProducerStage E S) E) : ProducerMessage → Prop
  | .cancel tag _ => ∀ b, r.stage.dispatcher = .broadcast b →
      ∀ least, ((b.subscribers.delete tag).values.map (·.demand)).min? = some least →
        0 < least → b.waiting + least ≤ b.requested ∧ r.stage.buffer = []
  | _ => True

/-! ## The flow of a trace -/

theorem flow_append (t : Trace E) (act : Act E) : flow (t ++ [act]) = (flow t).record act :=
  List.foldl_append

theorem flow_ledger (t : Trace E) : (flow t).ledger = t.ledger := by
  induction t using List.reverseRecOn with
  | nil => rfl
  | append_singleton t act ih =>
      rw [flow_append, Trace.ledger_append, ← ih]
      rfl

theorem passed_append (t : Trace E) (act : Act E) :
    (flow (t ++ [act])).passed =
      if OrderedMap.keys (Trace.ledger (t ++ [act])) = [] then 0
      else (flow t).passed + ahead act := by
  rw [flow_append, Trace.ledger_append, ← flow_ledger]
  rfl

theorem passed_of_empty {t : Trace E} (h : OrderedMap.keys t.ledger = []) :
    (flow t).passed = 0 := by
  induction t using List.reverseRecOn with
  | nil => rfl
  | append_singleton t act => rw [passed_append, if_pos h]

/-- An act that leaves the subscribers in place. -/
theorem passed_append_of_keys {t : Trace E} {act : Act E}
    (h : OrderedMap.keys (Trace.ledger (t ++ [act])) = OrderedMap.keys t.ledger)
    (hempty : OrderedMap.keys t.ledger = [] → ahead act = 0) :
    (flow (t ++ [act])).passed = (flow t).passed + ahead act := by
  rw [passed_append, h]
  by_cases hkeys : OrderedMap.keys t.ledger = []
  · rw [if_pos hkeys, passed_of_empty hkeys, hempty hkeys]
    rfl
  · rw [if_neg hkeys]

/-! ## The invariant -/

/-- The books of a stage with a broadcast dispatcher; `due` is the demand that is
requested and about to be passed on. -/
structure Flowing (o : Outlet E) (t : Trace E) (due : Int) (b : BroadcastDispatcher) : Prop where
  dispatcher_eq : o.dispatcher = .broadcast b
  sound : Sound b
  synced : Synced b
  ledger : levels b = t.ledger.owed
  requested : b.requested = (flow t).passed + due

/-- The buffer waits for demand. -/
def Settled (o : Outlet E) (b : BroadcastDispatcher) : Prop := o.buffer = [] ∨ b.waiting = 0

theorem keys_levels (b : BroadcastDispatcher) : (levels b).keys = b.subscribers.keys :=
  OrderedMap.keys_map _ _

theorem keys_owed (l : Ledger) : l.owed.keys = OrderedMap.keys l := OrderedMap.keys_map _ _

variable {o o' : Outlet E} {t acts : Trace E} {due : Int} {b b' : BroadcastDispatcher}

theorem Flowing.keys (h : Flowing o t due b) :
    OrderedMap.keys t.ledger = b.subscribers.keys := by
  rw [← keys_owed, ← h.ledger, keys_levels]

/-- The demand in common is `waiting`. -/
theorem Flowing.common_eq (h : Flowing o t due b) {demand : Int}
    (hcommon : common t.ledger = some demand) : demand = b.waiting := by
  rw [common, ← h.ledger, List.min?_eq_some_iff] at hcommon
  obtain ⟨hmem, hleast⟩ := hcommon
  simp only [levels, OrderedMap.values, OrderedMap.map, List.map_map, List.mem_map,
    Function.comp_def, forall_exists_index, and_imp, forall_apply_eq_imp_iff₂] at hmem hleast
  obtain ⟨e, he, rfl⟩ := hmem
  obtain ⟨e₀, he₀, hzero⟩ := h.synced (List.ne_nil_of_mem he)
  have hle := hleast e₀ he₀
  have hpos := h.sound.nonneg e he
  omega

theorem Flowing.neverStalls {p : ProducerStage E S} (h : Flowing p.toOutlet t 0 b)
    (hsettled : Settled p.toOutlet b) : NeverStalls ⟨p, t⟩ := by
  intro b₁ hb₁ _
  obtain rfl : b = b₁ := Dispatcher.broadcast.inj (h.dispatcher_eq.symm.trans hb₁)
  have hwaiting := h.sound.waiting_le
  rw [h.requested, add_zero] at hwaiting
  exact ⟨fun demand hcommon => (h.common_eq hcommon).trans_le hwaiting, hwaiting, hsettled⟩

/-- An act by which no subscriber comes or goes and none is owed more or less. -/
theorem Flowing.silent (h : Flowing o t due b) {act : Act E}
    (hact : t.ledger.record act = t.ledger) (hempty : t.ledger.keys = [] → ahead act = 0) :
    Flowing o (t ++ [act]) (due - ahead act) b := by
  have hledger : Trace.ledger (t ++ [act]) = t.ledger := by
    rw [Trace.ledger_append]
    exact hact
  refine ⟨h.dispatcher_eq, h.sound, h.synced, ?_, ?_⟩
  · rw [hledger, h.ledger]
  · rw [passed_append_of_keys (by rw [hledger]) hempty, h.requested]
    ring

/-! ## What a message does -/

theorem Flowing.subscribe (h : Flowing o t 0 b) (tag : Tag) (sub : ProducerSub)
    (hsub : sub.demand = 0) (partition : Option PartitionOption) :
    Flowing { o with dispatcher := .broadcast (b.subscribe tag sub) }
      (t ++ [.subscribed tag partition]) 0 (b.subscribe tag sub) := by
  have hledger : Trace.ledger (t ++ [Act.subscribed tag partition]) =
      OrderedMap.set t.ledger tag ⟨0, 0⟩ := Trace.ledger_append _ _
  have hmem : tag ∈ OrderedMap.keys (OrderedMap.set t.ledger tag ⟨0, 0⟩) :=
    OrderedMap.mem_keys_set.2 (.inr rfl)
  obtain ⟨hsound, hsynced⟩ := h.sound.subscribe tag hsub
  refine ⟨rfl, hsound, hsynced, ?_, ?_⟩
  · rw [levels_subscribe h.sound tag hsub, h.ledger, hledger]
    exact (OrderedMap.map_set Account.owed t.ledger tag ⟨0, 0⟩).symm
  · have hzero : ahead (.subscribed tag partition : Act E) = 0 := rfl
    rw [passed_append, hledger, if_neg (List.ne_nil_of_mem hmem), hzero, add_zero]
    exact h.requested

/-- Whom a cancel leaves. -/
def left (b : BroadcastDispatcher) (tag : Tag) : BroadcastDispatcher :=
  { b with subscribers := b.subscribers.delete tag }

/-- A cancel leaves nobody, or `syncDemands` finds no demand in common, or it finds some
and drops what it returns. -/
theorem cancel_cases (b : BroadcastDispatcher) (tag : Tag) :
    (left b tag).subscribers.entries = [] ∧
      b.cancel tag = ⟨(left b tag).subscribers, 0, 0⟩ ∨
    (left b tag).subscribers.entries ≠ [] ∧ b.cancel tag = (left b tag).syncDemands.1 := by
  unfold BroadcastDispatcher.cancel
  by_cases hnone : (left b tag).subscribers.size = 0
  · exact .inl ⟨List.length_eq_zero_iff.1 hnone, if_pos hnone⟩
  · exact .inr ⟨fun hnil => hnone (List.length_eq_zero_iff.2 hnil), if_neg hnone⟩

theorem least_eq_some {m : OrderedMap Tag ProducerSub} {least : Int} :
    (m.values.map (·.demand)).min? = some least ↔
      (∃ e ∈ m.entries, e.2.demand = least) ∧ ∀ e ∈ m.entries, least ≤ e.2.demand := by
  rw [List.min?_eq_some_iff]
  simp only [OrderedMap.values, List.map_map, List.mem_map, Function.comp_def,
    forall_exists_index, and_imp, forall_apply_eq_imp_iff₂]

theorem ledger_cancel (h : Flowing o t 0 b) (tag : Tag) :
    OrderedMap.keys (Trace.ledger (t ++ [.cancelled tag])) =
      (left b tag).subscribers.keys := by
  rw [Trace.ledger_append, ← keys_levels, left, levels_delete, h.ledger, ← keys_owed]
  exact congrArg OrderedMap.keys (OrderedMap.map_delete Account.owed t.ledger tag)

/-- A harmless cancel. -/
theorem Flowing.cancel (h : Flowing o t 0 b) (tag : Tag)
    (hharmless : ∀ least, (((left b tag).subscribers).values.map (·.demand)).min? = some least →
      0 < least → b.waiting + least ≤ b.requested) :
    Flowing { o with dispatcher := .broadcast (b.cancel tag) } (t ++ [.cancelled tag]) 0
      (b.cancel tag) := by
  obtain ⟨hsound, hsynced⟩ := h.sound.cancel tag
  have hkeys := ledger_cancel h tag
  have hzero : ahead (.cancelled tag : Act E) = 0 := rfl
  refine ⟨rfl, hsound, hsynced, ?_, ?_⟩
  · rw [levels_cancel, h.ledger, Trace.ledger_append]
    exact (OrderedMap.map_delete Account.owed t.ledger tag).symm
  · rw [passed_append, hkeys, hzero, add_zero, add_zero]
    obtain ⟨hnil, heq⟩ | ⟨hne, heq⟩ := cancel_cases b tag
    · rw [heq, if_pos (OrderedMap.keys_eq_nil.2 hnil)]
    · rw [heq, if_neg fun hnil => hne (OrderedMap.keys_eq_nil.1 hnil)]
      have hrequested := h.requested
      obtain ⟨-, hsync⟩ | ⟨least, hpos, hsome, hall, hsync⟩ := syncDemands_cases (left b tag)
      · rw [hsync]
        exact hrequested.trans (add_zero _)
      · -- the request is 0
        have hle := hharmless least (least_eq_some.2 ⟨hsome, hall⟩) hpos
        rw [hsync]
        change b.requested + max 0 (b.waiting + least - b.requested) = _
        omega

/-- A cancel that is not harmless. -/
theorem stalls_of_cancel {p : ProducerStage E S} (h : Flowing p.toOutlet t 0 b) {tag : Tag}
    {reason : String} (hharmful : ¬ Harmless ⟨p, t⟩ (.cancel tag reason)) :
    ¬ NeverStalls ⟨(p.handleCancel tag).1, t ++ (p.handleCancel tag).2⟩ := by
  intro hnever
  refine hharmful fun b₁ hb₁ least hleast hpos => ?_
  obtain rfl : b = b₁ := Dispatcher.broadcast.inj (h.dispatcher_eq.symm.trans hb₁)
  change ((left b tag).subscribers.values.map (·.demand)).min? = some least at hleast
  obtain ⟨⟨e, he, heleast⟩, hall⟩ := least_eq_some.1 hleast
  have hne : (left b tag).subscribers.entries ≠ [] := List.ne_nil_of_mem he
  have hcancel : b.cancel tag = ⟨(left b tag).subscribers.map (·.grant (-least)),
      b.waiting + least, b.requested + max 0 (b.waiting + least - b.requested)⟩ := by
    obtain ⟨hnil, -⟩ | ⟨-, heq⟩ := cancel_cases b tag
    · exact absurd hnil hne
    · obtain ⟨hnone, -⟩ | ⟨least', -, hsome', hall', hsync⟩ := syncDemands_cases (left b tag)
      · obtain ⟨e', he', hle⟩ := hnone.resolve_left hne
        have := hall e' he'
        omega
      · obtain rfl : least' = least := Option.some.inj
          ((least_eq_some.2 ⟨hsome', hall'⟩).symm.trans hleast)
        rw [heq, hsync]
        rfl
  have hstage : (p.handleCancel tag).1.dispatcher = .broadcast (b.cancel tag) := by
    change p.dispatcher.cancel tag = _
    rw [h.dispatcher_eq]
    rfl
  have hsubscribers : (b.cancel tag).hasSubscribers = true := by
    rw [hcancel]
    simpa [BroadcastDispatcher.hasSubscribers, OrderedMap.size, OrderedMap.map, List.length_pos_iff]
      using hne
  obtain ⟨-, hle, hbuffer⟩ := hnever _ hstage hsubscribers
  have hpassed : (flow (t ++ [.cancelled tag])).passed = b.requested := by
    rw [passed_append, ledger_cancel h tag, if_neg fun hnil => hne (OrderedMap.keys_eq_nil.1 hnil),
      h.requested]
    rfl
  have hwaiting := h.sound.waiting_nonneg
  rw [hcancel] at hle hbuffer
  change b.waiting + least ≤ (flow (t ++ [.cancelled tag])).passed at hle
  rw [hpassed] at hle
  refine ⟨hle, hbuffer.resolve_right fun hzero => ?_⟩
  change b.waiting + least = 0 at hzero
  omega

theorem requested_syncDemands (b : BroadcastDispatcher) :
    b.syncDemands.1.requested = b.requested + b.syncDemands.2 := by
  obtain ⟨-, heq⟩ | ⟨least, -, -, -, heq⟩ := syncDemands_cases b
  · rw [heq, add_zero]
  · rw [heq]

theorem Flowing.ask (h : Flowing o t 0 b) (tag : Tag) {demand : Int} (hpos : 0 < demand) :
    Flowing { o with dispatcher := .broadcast (b.ask tag demand).1 } (t ++ [.asked tag demand])
      (b.ask tag demand).2 (b.ask tag demand).1 := by
  obtain ⟨hsound, hsynced⟩ := h.sound.ask tag hpos.le
  have hledger : Trace.ledger (t ++ [Act.asked tag demand]) =
      OrderedMap.modify t.ledger tag (·.ask (max 0 demand)) := Trace.ledger_append _ _
  have hzero : ahead (.asked tag demand : Act E) = 0 := rfl
  refine ⟨rfl, hsound, hsynced h.synced, ?_, ?_⟩
  · have hask := Ledger.owed_ask t.ledger tag demand
    rw [levels_ask, h.ledger, hledger, max_eq_right hpos.le, hask]
  · rw [passed_append_of_keys (by rw [hledger, OrderedMap.keys_modify]) fun _ => hzero, hzero,
      add_zero]
    have hrequested := h.requested
    rw [add_zero] at hrequested
    rw [← hrequested]
    unfold BroadcastDispatcher.ask
    split_ifs
    · exact requested_syncDemands _
    · exact (add_zero _).symm

/-- A dispatch meets demand that was passed on. -/
theorem Flowing.dispatch (h : Flowing o t due b) (events buffer : List E) :
    Flowing { o with dispatcher := .broadcast (b.dispatch events).1, buffer := buffer }
      (t ++ [.sent (b.dispatch events).2.dispatched]) due (b.dispatch events).1 := by
  obtain ⟨hsound, hsynced⟩ := h.sound.dispatch events
  obtain ⟨hb, -, hsent⟩ := dispatch_eq h.sound events
  have hledger : Trace.ledger (t ++ [Act.sent (b.dispatch events).2.dispatched]) =
      t.ledger.charge (b.dispatch events).2.dispatched := Trace.ledger_append _ _
  have howed := levels_dispatch h.sound events
  rw [h.ledger, ← Ledger.owed_charge, ← hledger] at howed
  -- whoever is subscribed stays so
  have hkeys : OrderedMap.keys (Trace.ledger (t ++ [Act.sent (b.dispatch events).2.dispatched])) =
      OrderedMap.keys t.ledger := by
    rw [← keys_owed, ← howed, keys_levels, h.keys, hb]
  have hahead : ahead (.sent (b.dispatch events).2.dispatched : Act E) = -sendable b events := by
    have hlength : (events.take (sendable b events)).length = sendable b events := by
      rw [List.length_take]
      exact min_eq_left (min_le_left _ _)
    rcases hsent with ⟨hnil, hzero⟩ | hsent
    · rw [hnil, hzero]
      rfl
    · rw [hsent]
      cases hentries : b.subscribers.entries with
      | nil =>
          rw [sendable_of_zero (h.sound.waiting_empty hentries)]
          rfl
      | cons e entries =>
          change -((events.take (sendable b events)).length : Int) = _
          rw [hlength]
  refine ⟨rfl, hsound, hsynced h.synced, howed, ?_⟩
  rw [passed_append_of_keys hkeys fun hnone => ?_, hahead, hb]
  · change b.requested - _ = _
    rw [h.requested]
    ring
  · have hwaiting := h.sound.waiting_empty (OrderedMap.keys_eq_nil.1 (h.keys.symm.trans hnone))
    rw [hahead, sendable_of_zero hwaiting]
    rfl

theorem Flowing.drain (h : Flowing o t due b) (hdrain : o.drain = .ok (o', acts)) :
    ∃ b', Flowing o' (t ++ acts) due b' ∧ Settled o' b' ∧ b'.subscribers = b.subscribers := by
  obtain ⟨d', result, hdispatch, rfl, rfl⟩ := drain_eq_ok hdrain
  rw [h.dispatcher_eq] at hdispatch
  cases hdispatch
  obtain ⟨hb, -, -⟩ := dispatch_eq h.sound o.buffer
  exact ⟨_, h.dispatch o.buffer _, dispatch_settles h.sound o.buffer, by rw [hb]⟩

theorem Flowing.rebuffer (h : Flowing o t due b) (buffer : List E) :
    Flowing { o with buffer := buffer } t due b :=
  ⟨h.dispatcher_eq, h.sound, h.synced, h.ledger, h.requested⟩

theorem Flowing.dropActs (h : Flowing o t due b) (events : List E) :
    Flowing o (t ++ dropActs events) due b := by
  unfold OutletMoves.dropActs
  split_ifs
  · rwa [List.append_nil]
  · have hsilent : Flowing o (t ++ [.dropped events]) (due - 0) b := h.silent rfl fun _ => rfl
    rwa [sub_zero] at hsilent

/-- Emitted events do not end up in a buffer while demand waits. -/
theorem Flowing.emit {events : List E} (h : Flowing o t due b) (hsettled : Settled o b)
    (hemit : Emits o events acts o') :
    ∃ b', Flowing o' (t ++ .returned events :: acts) due b' ∧ Settled o' b' := by
  obtain ⟨d', batches, rest, sents, hpasses, rfl, rfl⟩ := emits_passes hemit
  have hreturned : Flowing o (t ++ [.returned events]) due b := by
    have hsilent : Flowing o (t ++ [.returned events]) (due - 0) b := h.silent rfl fun _ => rfl
    rwa [sub_zero] at hsilent
  have hsplit : t ++ .returned events :: (sents ++ OutletMoves.dropActs (lostRest o rest)) =
      (t ++ [.returned events] ++ sents) ++ OutletMoves.dropActs (lostRest o rest) := by simp
  rw [hsplit]
  cases hpasses with
  | none =>
      rw [List.append_nil]
      refine ⟨b, (hreturned.rebuffer _).dropActs _, ?_⟩
      unfold Settled
      rw [keptRest, if_pos rfl]
      exact hsettled
  | buffer hne hhas =>
      rw [List.append_nil]
      refine ⟨b, (hreturned.rebuffer _).dropActs _, .inr ?_⟩
      rw [h.dispatcher_eq] at hhas
      exact h.sound.waiting_empty (hasSubscribers_eq_false.1 hhas)
  | @dispatch _ _ result hne hhas hdispatch =>
      rw [h.dispatcher_eq] at hdispatch
      cases hdispatch
      refine ⟨_, (hreturned.dispatch events _).dropActs _, ?_⟩
      unfold Settled
      rcases hsettled with hnil | hzero
      · rcases dispatch_settles h.sound events with hrest | hwaiting
        · rw [keptRest, if_pos hrest]
          exact .inl hnil
        · exact .inr hwaiting
      · obtain ⟨hb, -, -⟩ := dispatch_eq h.sound events
        refine .inr ?_
        rw [hb, sendable_of_zero hzero]
        exact (sub_zero _).trans hzero

theorem settled_cancel (hsettled : Settled o b) {tag : Tag}
    (hharmless : ∀ least, (((left b tag).subscribers).values.map (·.demand)).min? = some least →
      0 < least → o.buffer = []) :
    Settled { o with dispatcher := .broadcast (b.cancel tag) } (b.cancel tag) := by
  obtain ⟨-, heq⟩ | ⟨-, heq⟩ := cancel_cases b tag
  · exact .inr (by rw [heq])
  · obtain ⟨-, hsync⟩ | ⟨least, hpos, hsome, hall, -⟩ := syncDemands_cases (left b tag)
    · rw [heq, hsync]
      exact hsettled
    · exact .inl (hharmless least (least_eq_some.2 ⟨hsome, hall⟩) hpos)

/-- What an ask wants of the producer; nothing when nobody is subscribed. -/
theorem ask_wants (b : BroadcastDispatcher) (tag : Tag) (demand : Int) :
    0 ≤ (b.ask tag demand).2 ∧
      ((b.ask tag demand).1.subscribers.keys = [] → (b.ask tag demand).2 = 0) := by
  unfold BroadcastDispatcher.ask
  split_ifs with hhas
  · obtain ⟨-, heq⟩ | ⟨least, -, ⟨e, he, -⟩, -, heq⟩ := syncDemands_cases
      { b with subscribers := b.subscribers.modify tag (·.grant demand) }
    · rw [heq]
      exact ⟨le_rfl, fun _ => rfl⟩
    · rw [heq]
      refine ⟨le_max_left _ _, fun hnil => ?_⟩
      rw [OrderedMap.keys_map, OrderedMap.keys_eq_nil] at hnil
      rw [hnil] at he
      exact absurd he List.not_mem_nil
  · exact ⟨le_rfl, fun _ => rfl⟩

/-! ## Every run -/

/-- A producer that passes demand on at once and whose books are in order. -/
structure Running (r : Recorded (ProducerStage E S) E) (b : BroadcastDispatcher) : Prop where
  mode : r.stage.demandMode = .forward
  accumulated : r.stage.accumulatedDemand = 0
  flowing : Flowing r.stage.toOutlet r.trace 0 b
  settled : Settled r.stage.toOutlet b

variable {p p' : ProducerStage E S}

/-- The demand that is due is passed on. -/
theorem Flowing.demandEvents {demand : Int} (h : Flowing p.toOutlet t demand b)
    (hsettled : Settled p.toOutlet b) (hempty : t.ledger.keys = [] → demand = 0)
    (hevents : p.demandEvents demand = .ok (p', acts)) :
    p'.demandMode = p.demandMode ∧ p'.accumulatedDemand = p.accumulatedDemand ∧
      ∃ b', Flowing p'.toOutlet (t ++ acts) 0 b' ∧ Settled p'.toOutlet b' := by
  obtain ⟨o, emitted, hemits, rfl, rfl⟩ := demandEvents_eq_ok hevents
  have hpassed : Flowing p.toOutlet (t ++ [.handleDemand demand]) (demand - demand) b :=
    h.silent rfl hempty
  rw [sub_self] at hpassed
  have hemitted := hpassed.emit hsettled hemits
  rw [List.append_assoc] at hemitted
  exact ⟨rfl, rfl, hemitted⟩

theorem Running.ask {tag : Tag} {demand : Int} (h : Running ⟨p, t⟩ b)
    (hask : p.handleAsk tag demand = .ok (p', acts)) :
    ∃ b', Running ⟨p', t ++ acts⟩ b' := by
  have hflowing := h.flowing
  have hmode := h.mode
  have haccumulated := h.accumulated
  dsimp only at hflowing hmode haccumulated
  obtain ⟨hnone, rfl, rfl⟩ | ⟨hpos, o, drained, rest, hdrain, hforward, rfl⟩ :=
    handleAsk_eq_ok hask
  · have hledger : t.ledger.record (.asked tag demand : Act E) = t.ledger := by
      change OrderedMap.modify t.ledger tag (·.ask (max 0 demand)) = t.ledger
      rw [max_eq_left hnone]
      exact OrderedMap.modify_eq_self fun a => by simp [Account.ask]
    have hsilent : Flowing p'.toOutlet (t ++ [.asked tag demand]) (0 - 0) b :=
      hflowing.silent hledger fun _ => rfl
    exact ⟨b, hmode, haccumulated, hsilent, h.settled⟩
  · have hasked := hflowing.ask tag hpos
    obtain ⟨hwants, hnobody⟩ := ask_wants b tag demand
    rw [Outlet.ask, hflowing.dispatcher_eq] at hdrain hforward
    obtain ⟨b', hdrained, hsettled, hsubscribers⟩ := hasked.drain hdrain
    rw [List.append_assoc] at hdrained
    change (ProducerStage.forwardDemand { p with toOutlet := o } (b.ask tag demand).2) = _
      at hforward
    obtain ⟨hle, rfl, rfl⟩ | ⟨-, haccumulate, -⟩ | ⟨-, -, hevents⟩ := forwardDemand_eq_ok hforward
    · rw [List.append_nil]
      rw [le_antisymm hle hwants] at hdrained
      exact ⟨b', hmode, haccumulated, hdrained, hsettled⟩
    · cases hmode.symm.trans haccumulate
    · obtain ⟨hmode', haccumulated', b'', hflowing', hsettled'⟩ :=
        Flowing.demandEvents hdrained hsettled
          (fun hnone => hnobody (by rw [← hsubscribers, ← hdrained.keys, hnone])) hevents
      rw [List.append_assoc] at hflowing'
      exact ⟨b'', hmode'.trans hmode, haccumulated'.trans haccumulated, hflowing', hsettled'⟩

theorem Running.receive {m : ProducerMessage} (h : Running ⟨p, t⟩ b)
    (hm : Harmless ⟨p, t⟩ m) (hreceive : p.receive m = .ok (p', acts)) :
    ∃ b', Running ⟨p', t ++ acts⟩ b' := by
  have hflowing := h.flowing
  have hmode := h.mode
  have haccumulated := h.accumulated
  dsimp only at hflowing hmode haccumulated
  cases m with
  | subscribe tag consumerRef maxDemand minDemand partition =>
      have hsubscribe : p.receive (.subscribe tag consumerRef maxDemand minDemand partition) =
          .ok ({ p with dispatcher := .broadcast (b.subscribe tag
            ⟨consumerRef, 0, maxDemand, minDemand⟩) }, [.subscribed tag partition]) := by
        change Except.ok (p.handleSubscribe tag consumerRef maxDemand minDemand partition) = _
        rw [ProducerStage.handleSubscribe, Outlet.subscribe, hflowing.dispatcher_eq]
        rfl
      rw [hsubscribe] at hreceive
      cases hreceive
      exact ⟨_, hmode, haccumulated, hflowing.subscribe tag _ rfl partition, .inr rfl⟩
  | ask tag demand => exact h.ask hreceive
  | cancel tag reason =>
      cases hreceive
      have hharmless := hm b hflowing.dispatcher_eq
      have hcancelled := hflowing.cancel tag fun least hleast hpos =>
        (hharmless least hleast hpos).1
      have hsettled := settled_cancel h.settled fun least hleast hpos =>
        (hharmless least hleast hpos).2
      have hout : p.toOutlet.cancel tag =
          ({ p.toOutlet with dispatcher := .broadcast (b.cancel tag) }, [.cancelled tag]) := by
        rw [Outlet.cancel, hflowing.dispatcher_eq]
        rfl
      change ∃ b', Running ⟨{ p with toOutlet := (p.toOutlet.cancel tag).1 },
        t ++ (p.toOutlet.cancel tag).2⟩ b'
      rw [hout]
      exact ⟨_, hmode, haccumulated, hcancelled, hsettled⟩
  | setDemandMode =>
      obtain ⟨-, rfl, rfl⟩ | ⟨hpos, -⟩ := switchDemandMode_eq_ok hreceive
      · rw [List.append_nil]
        exact ⟨b, rfl, haccumulated, hflowing, h.settled⟩
      · exact absurd hpos (haccumulated.symm ▸ lt_irrefl 0)

theorem running_start {callbacks : ProducerCallbacks E S} {options : ProducerOptions E}
    {mode : Option DemandMode} (hbroadcast : createDispatcher options.dispatcher = .broadcast .new)
    (hmode : mode.getD .forward = .forward) :
    Running (ProducerStage.start callbacks options mode) .new :=
  ⟨hmode, rfl, ⟨hbroadcast, sound_new, fun hne => absurd rfl hne, rfl, rfl⟩, .inl rfl⟩

/-- In a run in forward mode demand in common is passed on or served and does not wait
beside events, after every step, if and only if every cancel is harmless. -/
theorem never_stalls_iff {callbacks : ProducerCallbacks E S} {options : ProducerOptions E}
    {mode : Option DemandMode} {ms : List ProducerMessage} {r : Recorded (ProducerStage E S) E}
    (hbroadcast : createDispatcher options.dispatcher = .broadcast .new)
    (hmode : mode.getD .forward = .forward)
    (hrun : Transition.run ProducerStage.step (ProducerStage.start callbacks options mode) ms =
      some r) :
    Transition.Throughout ProducerStage.step NeverStalls
        (ProducerStage.start callbacks options mode) ms ↔
      Transition.Along ProducerStage.step Harmless (ProducerStage.start callbacks options mode)
        ms := by
  refine Transition.throughout_iff_along (I := fun r => ∃ b, Running r b) (A := fun _ _ => True)
    ?_ ?_ ?_ ⟨_, running_start hbroadcast hmode⟩
    (Transition.along_of_forall_mem (P := fun _ => True) (fun _ _ => trivial) _) hrun
  · rintro r m r' ⟨b, hb⟩ - hm hstep
    obtain ⟨acts, hreceive, htrace⟩ := step_eq_some hstep
    obtain ⟨b', hb'⟩ := hb.receive hm hreceive
    rw [← htrace] at hb'
    exact ⟨b', hb'⟩
  · rintro r ⟨b, hb⟩
    exact hb.flowing.neverStalls hb.settled
  · rintro r m r' ⟨b, hb⟩ - hm hstep
    obtain ⟨acts, hreceive, htrace⟩ := step_eq_some hstep
    cases m with
    | cancel tag reason =>
        have hstalls := stalls_of_cancel hb.flowing hm
        have heq : r.stage.handleCancel tag = (r'.stage, acts) := Except.ok.inj hreceive
        rwa [heq, ← htrace] at hstalls
    | _ => exact absurd trivial hm

/-- The subscriber that leaves had asked for less than the one that stays, and no less was
requested. -/
theorem never_stalls_two :
    ∃ r, Transition.run ProducerStage.step
        (ProducerStage.start ⟨0, fun n s => ((List.range n.toNat).map (· + s), s + n.toNat)⟩
          { dispatcher := some .broadcast } none)
        [.subscribe "a" ⟨"n", 1, none, 0⟩ 5 2 none, .subscribe "b" ⟨"n", 2, none, 0⟩ 5 2 none,
          .ask "a" 3, .ask "b" 3, .cancel "b" "cancel"] = some r ∧
      Transition.Throughout ProducerStage.step NeverStalls
        (ProducerStage.start ⟨0, fun n s => ((List.range n.toNat).map (· + s), s + n.toNat)⟩
          { dispatcher := some .broadcast } none)
        [.subscribe "a" ⟨"n", 1, none, 0⟩ 5 2 none, .subscribe "b" ⟨"n", 2, none, 0⟩ 5 2 none,
          .ask "a" 3, .ask "b" 3, .cancel "b" "cancel"] := by
  have hrun : ∃ r, Transition.run ProducerStage.step
        (ProducerStage.start ⟨0, fun n s => ((List.range n.toNat).map (· + s), s + n.toNat)⟩
          { dispatcher := some .broadcast } none)
        [.subscribe "a" ⟨"n", 1, none, 0⟩ 5 2 none, .subscribe "b" ⟨"n", 2, none, 0⟩ 5 2 none,
          .ask "a" 3, .ask "b" 3, .cancel "b" "cancel"] = some r := ⟨_, rfl⟩
  obtain ⟨r, hr⟩ := hrun
  refine ⟨r, hr, (never_stalls_iff rfl rfl hr).2 ⟨trivial, fun r₁ h₁ => ?_⟩⟩
  cases h₁
  refine ⟨trivial, fun r₂ h₂ => ?_⟩
  cases h₂
  refine ⟨trivial, fun r₃ h₃ => ?_⟩
  cases h₃
  refine ⟨trivial, fun r₄ h₄ => ?_⟩
  cases h₄
  refine ⟨fun b hb least hleast hpos => ?_, fun _ _ => trivial⟩
  cases hb
  cases hleast
  exact absurd hpos (by decide)

/-- The subscriber that leaves was the one that the other waited for. -/
theorem stalls_after_cancel :
    ∃ r, Transition.run ProducerStage.step
        (ProducerStage.start ⟨0, fun n s => ((List.range n.toNat).map (· + s), s + n.toNat)⟩
          { dispatcher := some .broadcast } none)
        [.subscribe "a" ⟨"n", 1, none, 0⟩ 5 2 none, .subscribe "b" ⟨"n", 2, none, 0⟩ 5 2 none,
          .ask "a" 5, .cancel "b" "cancel"] = some r ∧
      common r.trace.ledger = some 5 ∧ (flow r.trace).passed = 0 ∧ ¬ NeverStalls r := by
  refine ⟨_, rfl, rfl, rfl, fun h => ?_⟩
  obtain ⟨hcommon, -⟩ := h _ rfl rfl
  exact absurd (hcommon 5 rfl) (by decide)

end Libeam.Proofs.BroadcastFlow
