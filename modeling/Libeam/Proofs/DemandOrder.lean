import Libeam.Proofs.DemandDispatch
import Libeam.Proofs.OutletMoves
/-!
# The order of events behind a demand dispatcher

The buffer of a stage with the demand dispatcher and the total demand of its
subscribers make up one line, which is settled after everything the stage does.  New
events are dispatched past the buffer, but from a settled line they cannot overtake.
-/

namespace Libeam.Proofs.DemandOrder

open Lib GenStage OutletMoves DemandDispatch

variable {E S : Type}

/-- The buffer and the demand for it. -/
def lane (o : Outlet E) (d : DemandDispatcher) : Lane E := ⟨o.buffer, d.totalDemand⟩

/-- The recorded demand of a subscription, 0 when there is none. -/
def demandOf (d : DemandDispatcher) (tag : Tag) : Int :=
  ((demands d.subscribers).get tag).getD 0

theorem totalDemand_of_empty {d : DemandDispatcher} (h : d.hasSubscribers = false) :
    d.totalDemand = 0 := by
  have hsize := hasSubscribers_eq_false.1 h
  simp [DemandDispatcher.totalDemand, OrderedMap.sum, OrderedMap.values, OrderedMap.map, hsize]

/-- Draining serves the line. -/
theorem served_by_drain {o : Outlet E} {d : DemandDispatcher} {d' : Dispatcher E}
    {result : DispatchResult E} (hd : o.dispatcher = .demand d)
    (hnonneg : Nonneg (demands d.subscribers))
    (h : o.dispatcher.dispatch o.buffer = .ok (d', result)) :
    ∃ e, d' = .demand e ∧ Serves d.subscribers result.dispatched e.subscribers ∧
      eventsOf result.dispatched = (lane o d).served ∧
      result.remaining = (lane o d).serve.waiting ∧
      e.totalDemand = (lane o d).serve.credit := by
  rw [hd] at h
  cases h
  obtain ⟨hsent, hremaining, htotal⟩ := dispatch_eq hnonneg o.buffer o.buffer
  exact ⟨_, rfl, (splits_dispatch d o.buffer).serves, hsent, hremaining, htotal⟩

/-- Emitted events pass by the line, or wait behind it. -/
theorem passed_by_emit {o : Outlet E} {d : DemandDispatcher} {d' : Dispatcher E}
    {events rest : List E} {batches : List (Dispatched E)} {sents : Trace E}
    (hd : o.dispatcher = .demand d) (hnonneg : Nonneg (demands d.subscribers))
    (h : Passes o events d' batches rest sents) :
    ∃ e, d' = .demand e ∧ Serves d.subscribers batches e.subscribers ∧
      eventsOf batches = (lane o d).passed events ∧
      o.buffer ++ rest = ((lane o d).pass events).waiting ∧
      e.totalDemand = ((lane o d).pass events).credit := by
  cases h with
  | none => exact ⟨d, hd, .nil _, by simp [eventsOf, Lane.passed], by simp [Lane.pass, lane],
      by simp [Lane.pass, Lane.covers, lane]⟩
  | buffer hne hhas =>
      -- without subscribers the line has no credit
      rw [hd] at hhas
      have hzero : (lane o d).credit = 0 := totalDemand_of_empty hhas
      have hcovers : (lane o d).covers events.length = 0 :=
        Lane.covers_of_nonpos hzero.le events.length
      refine ⟨d, hd, .nil _, ?_, ?_, ?_⟩
      · rw [Lane.passed, hcovers]
        rfl
      · rw [Lane.pass, hcovers]
        rfl
      · rw [Lane.pass, hcovers]
        simp [lane]
  | @dispatch _ _ result hne hhas hdispatch =>
      rw [hd] at hdispatch
      cases hdispatch
      obtain ⟨hsent, hremaining, htotal⟩ := dispatch_eq hnonneg events o.buffer
      refine ⟨_, rfl, (splits_dispatch d events).serves, hsent, ?_, htotal⟩
      rw [hremaining]
      rfl

/-! ## The invariant -/

/-- The books of the dispatcher, with the line settled or not. -/
structure Booked (o : Outlet E) (t : Trace E) (d : DemandDispatcher) : Prop where
  dispatcher_eq : o.dispatcher = .demand d
  nonneg : Nonneg (demands d.subscribers)
  ledger : demands d.subscribers = t.ledger.owed
  /-- What was sent and what may still be sent was asked for. -/
  within : ∀ tag, t.sentTo tag + demandOf d tag ≤ t.askedBy tag
  order : t.dropped = [] → t.sent ++ o.buffer = t.returned

structure Orderly (o : Outlet E) (t : Trace E) (d : DemandDispatcher) : Prop
    extends Booked o t d where
  settled : (lane o d).Settled

/-- An outlet with less demand in the same line is as settled. -/
theorem settled_of_le {o : Outlet E} {d d' : DemandDispatcher} (h : (lane o d).Settled)
    (hle : d'.totalDemand ≤ d.totalDemand) : (lane o d').Settled :=
  h.imp_right hle.trans

theorem demandOf_eq_zero {d : DemandDispatcher} {tag : Tag}
    (h : d.subscribers.get tag = none) : demandOf d tag = 0 := by
  rw [demandOf, demands, OrderedMap.get_map, h]
  rfl

theorem countFor_add_demandOf {d e : DemandDispatcher} {batches : List (Dispatched E)}
    (h : Serves d.subscribers batches e.subscribers) (tag : Tag) :
    countFor tag batches + demandOf e tag = demandOf d tag := by
  cases hget : d.subscribers.get tag with
  | none =>
      rw [demandOf_eq_zero hget, h.countFor_of_not_mem hget, demandOf_eq_zero]
      · rfl
      · rw [h.get_eq tag, hget]
        rfl
  | some sub =>
      have hget' := h.get_eq tag
      rw [hget] at hget'
      rw [demandOf, demandOf, get_demands hget, get_demands hget']
      simp only [ProducerSub.grant, Option.getD_some]
      ring

theorem demandOf_nonneg {d : DemandDispatcher} (h : Nonneg (demands d.subscribers)) (tag : Tag) :
    0 ≤ demandOf d tag := by
  rw [demandOf]
  cases hv : (demands d.subscribers).get tag with
  | none => exact le_rfl
  | some v => exact nonneg_iff.1 h tag v hv

/-! ## What every move preserves -/

variable {o o' : Outlet E} {t acts : Trace E} {d d' : DemandDispatcher}

/-- The dispatcher changes without a dispatch. -/
theorem Booked.quiet (h : Booked o t d) (hquiet : Quiet acts)
    (hnonneg : Nonneg (demands d'.subscribers))
    (hledger : demands d'.subscribers = (acts.foldl Ledger.record t.ledger).owed)
    (hwithin : ∀ tag, demandOf d' tag ≤ demandOf d tag + acts.askedBy tag) :
    Booked { o with dispatcher := .demand d' } (t ++ acts) d' := by
  refine ⟨rfl, hnonneg, ?_, fun tag => ?_, ?_⟩
  · rw [Trace.ledger_append]
    exact hledger
  · have hbefore := h.within tag
    have hafter := hwithin tag
    rw [hquiet.sentTo, Trace.askedBy_append]
    omega
  · rw [hquiet.dropped, hquiet.sent, hquiet.returned]
    exact h.order

/-- The subscribers are served. -/
theorem Booked.serves {batches : List (Dispatched E)} {buffer : List E} (h : Booked o t d)
    (hserves : Serves d.subscribers batches d'.subscribers)
    (hsends : ∀ tag, acts.askedBy tag = 0) (hbatches : acts.batches = batches)
    (hledger : ∀ l : Ledger, acts.foldl Ledger.record l = l.charge batches)
    (horder : Trace.dropped (t ++ acts) = [] →
      t.sent ++ eventsOf batches ++ buffer = t.returned ++ acts.returned) :
    Booked { o with dispatcher := .demand d', buffer := buffer } (t ++ acts) d' := by
  refine ⟨rfl, hserves.nonneg h.nonneg, ?_, fun tag => ?_, fun hdrop => ?_⟩
  · rw [Trace.ledger_append, hledger, Ledger.owed_charge, ← h.ledger]
    exact hserves.demands_eq
  · have hbefore := h.within tag
    have hpaid := countFor_add_demandOf hserves tag
    have hsent : acts.sentTo tag = countFor tag batches := congrArg (countFor tag) hbatches
    rw [Trace.sentTo_append, Trace.askedBy_append, hsends, hsent]
    omega
  · have hsent : acts.sent = eventsOf batches := congrArg eventsOf hbatches
    rw [Trace.sent_append, Trace.returned_append, ← horder hdrop, hsent]

theorem Orderly.subscribe (h : Orderly o t d) (tag : Tag) (sub : ProducerSub)
    (hsub : sub.demand = 0) (partition : Option PartitionOption) :
    Orderly { o with dispatcher := .demand (d.subscribe tag sub) }
      (t ++ [.subscribed tag partition]) (d.subscribe tag sub) := by
  have hdemands : demands (d.subscribe tag sub).subscribers =
      (demands d.subscribers).set tag 0 := by
    rw [← hsub]
    exact OrderedMap.map_set _ d.subscribers tag sub
  have hget : ∀ tag', ((demands d.subscribers).set tag 0).get tag' =
      if tag' = tag then some 0 else (demands d.subscribers).get tag' :=
    fun tag' => OrderedMap.get_set _ tag tag' 0
  refine ⟨h.toBooked.quiet ⟨rfl, rfl, rfl⟩ (nonneg_subscribe h.nonneg tag hsub) ?_
    fun tag' => ?_, settled_of_le h.settled ?_⟩
  · rw [hdemands, h.ledger]
    exact (OrderedMap.map_set Account.owed t.ledger tag ⟨0, 0⟩).symm
  · have hpos := demandOf_nonneg h.nonneg tag'
    change demandOf (d.subscribe tag sub) tag' ≤ demandOf d tag' + 0
    rw [add_zero, demandOf, hdemands, hget]
    split_ifs
    · exact hpos
    · exact le_rfl
  · have hpos := demandOf_nonneg h.nonneg tag
    rw [totalDemand_eq, hdemands, OrderedMap.sum_set, ← totalDemand_eq]
    rw [demandOf] at hpos
    omega

theorem Orderly.cancel (h : Orderly o t d) (tag : Tag) :
    Orderly { o with dispatcher := .demand (d.cancel tag) } (t ++ [.cancelled tag])
      (d.cancel tag) := by
  have hdemands : demands (d.cancel tag).subscribers = (demands d.subscribers).delete tag :=
    OrderedMap.map_delete _ d.subscribers tag
  have hget : ∀ tag', ((demands d.subscribers).delete tag).get tag' =
      if tag' = tag then none else (demands d.subscribers).get tag' :=
    fun tag' => OrderedMap.get_delete _ tag tag'
  refine ⟨h.toBooked.quiet ⟨rfl, rfl, rfl⟩ (nonneg_cancel h.nonneg tag) ?_ fun tag' => ?_,
    settled_of_le h.settled ?_⟩
  · rw [hdemands, h.ledger]
    exact (OrderedMap.map_delete Account.owed t.ledger tag).symm
  · have hpos := demandOf_nonneg h.nonneg tag'
    change demandOf (d.cancel tag) tag' ≤ demandOf d tag' + 0
    rw [add_zero, demandOf, hdemands, hget]
    split_ifs
    · exact hpos
    · exact le_rfl
  · have hpos := demandOf_nonneg h.nonneg tag
    rw [totalDemand_eq, hdemands, OrderedMap.sum_delete, ← totalDemand_eq]
    rw [demandOf] at hpos
    omega

theorem Booked.ask (h : Booked o t d) (tag : Tag) {demand : Int} (hpos : 0 ≤ demand) :
    Booked { o with dispatcher := .demand (d.ask tag demand).1 } (t ++ [.asked tag demand])
      (d.ask tag demand).1 := by
  have hdemands : demands (d.ask tag demand).1.subscribers =
      (demands d.subscribers).modify tag (· + demand) := demands_grant d.subscribers tag demand
  refine h.quiet ⟨rfl, rfl, rfl⟩ (nonneg_ask h.nonneg tag hpos) ?_ fun tag' => ?_
  · rw [hdemands, h.ledger]
    have hask := Ledger.owed_ask t.ledger tag (max 0 demand)
    rw [max_eq_right hpos] at hask
    change _ = Ledger.owed (OrderedMap.modify t.ledger tag (·.ask (max 0 demand)))
    rw [max_eq_right hpos, hask]
  · have hasks : Trace.askedBy tag' [(Act.asked tag demand : Act E)] =
        if tag = tag' then demand else 0 := by
      simp [Trace.askedBy, Act.asks, max_eq_right hpos]
    rw [hasks, demandOf, hdemands, OrderedMap.get_modify, demandOf]
    by_cases htag : tag' = tag
    · rw [if_pos htag, if_pos htag.symm]
      cases (demands d.subscribers).get tag' with
      | none => simpa using hpos
      | some v => exact le_rfl
    · rw [if_neg htag, if_neg (Ne.symm htag), add_zero]

theorem Booked.drain (h : Booked o t d) (hdrain : o.drain = .ok (o', acts)) :
    ∃ e, Orderly o' (t ++ acts) e := by
  obtain ⟨d', result, hdispatch, rfl, rfl⟩ := drain_eq_ok hdrain
  obtain ⟨e, rfl, hserves, hserved, hremaining, htotal⟩ :=
    served_by_drain h.dispatcher_eq h.nonneg hdispatch
  have hsends := sends_sent result.dispatched
  refine ⟨e, h.serves hserves hsends.askedBy_eq hsends.batches_eq hsends.ledger_eq
    fun hdrop => ?_, ?_⟩
  · have hsplit : eventsOf result.dispatched ++ result.remaining = o.buffer := by
      rw [hserved, hremaining]
      exact Lane.served_append_serve _
    have hreturned : Trace.returned [Act.sent result.dispatched] = [] := rfl
    rw [hreturned, List.append_nil, List.append_assoc, hsplit]
    exact h.order (Trace.dropped_append_nil hdrop).1
  · have hlane : lane { o with dispatcher := .demand e, buffer := result.remaining } e =
        (lane o d).serve := by
      rw [lane, htotal, hremaining]
    rw [hlane]
    exact Lane.settled_serve _

theorem Orderly.emit {events : List E} (h : Orderly o t d) (hemit : Emits o events acts o') :
    ∃ e, Orderly o' (t ++ .returned events :: acts) e := by
  obtain ⟨d', batches, rest, sents, hpasses, rfl, rfl⟩ := emits_passes hemit
  obtain ⟨e, rfl, hserves, hpassed, hwaiting, htotal⟩ :=
    passed_by_emit h.dispatcher_eq h.nonneg hpasses
  have hsends := (hpasses.sends.append_dropActs (lostRest o rest)).cons_returned events
  refine ⟨e, h.toBooked.serves hserves hsends.askedBy_eq hsends.batches_eq hsends.ledger_eq
    fun hdrop => ?_, ?_⟩
  · -- what the buffer keeps is all that could not pass
    have hdrops := Trace.dropped_append_nil hdrop
    rw [hpasses.dropped_acts] at hdrops
    rw [keptRest_of_lostRest_nil hdrops.2, hwaiting, hpassed, hpasses.returned_acts,
      List.append_assoc,
      Lane.passed_append_pass h.settled, ← List.append_assoc]
    exact congrArg (· ++ events) (h.order hdrops.1)
  · have hpass : ((lane o d).pass events).Settled := Lane.settled_pass h.settled events
    rcases hpass with hnil | hcredit
    · rw [← hwaiting, List.append_eq_nil_iff] at hnil
      refine .inl ?_
      change keptRest o rest = []
      rw [keptRest, if_pos hnil.2]
      exact hnil.1
    · exact .inr (htotal.trans_le hcredit)

theorem Orderly.move (h : Orderly o t d) (hmove : Move o acts o') :
    ∃ e, Orderly o' (t ++ acts) e := by
  cases hmove with
  | subscribe tag consumerRef maxDemand minDemand partition =>
      unfold Outlet.subscribe
      rw [h.dispatcher_eq]
      exact ⟨_, h.subscribe tag _ rfl partition⟩
  | cancel tag =>
      unfold Outlet.cancel
      rw [h.dispatcher_eq]
      exact ⟨_, h.cancel tag⟩
  | @idle tag demand hnone =>
      have hbooks : Booked { o with dispatcher := .demand d } (t ++ [.asked tag demand]) d :=
        h.toBooked.quiet ⟨rfl, rfl, rfl⟩ h.nonneg ?_ fun tag' => ?_
      · rw [← h.dispatcher_eq] at hbooks
        exact ⟨d, hbooks, h.settled⟩
      · change _ = Ledger.owed (OrderedMap.modify t.ledger tag (·.ask (max 0 demand)))
        rw [max_eq_left hnone, OrderedMap.modify_eq_self fun a => by simp [Account.ask], h.ledger]
      · simp [Trace.askedBy, Act.asks, max_eq_left hnone]
  | @ask _ drained tag demand hpos hdrain =>
      have hasked := h.toBooked.ask tag hpos.le
      unfold Outlet.ask at hdrain
      rw [h.dispatcher_eq] at hdrain
      obtain ⟨e, he⟩ := hasked.drain hdrain
      rw [List.append_assoc] at he
      exact ⟨e, he⟩
  | @askOnly tag demand hpos hnil =>
      have hasked := h.toBooked.ask tag hpos.le
      unfold Outlet.ask
      rw [h.dispatcher_eq]
      exact ⟨_, hasked, .inl hnil⟩
  | emit hemit => exact h.emit hemit
  | @silent act hsilent =>
      have hquiet := quiet_silent hsilent
      have hbooks : Booked { o with dispatcher := .demand d } (t ++ [act]) d :=
        h.toBooked.quiet hquiet h.nonneg ?_ fun tag' => ?_
      · rw [← h.dispatcher_eq] at hbooks
        exact ⟨d, hbooks, h.settled⟩
      · rw [h.ledger]
        cases act <;> first | rfl | exact hsilent.elim
      · have hzero : Trace.askedBy tag' [act] = 0 := by
          cases act <;> first | rfl | exact hsilent.elim
        rw [hzero, add_zero]

theorem Orderly.moves {o₀ : Outlet E} (h : ∃ d, Orderly o₀ [] d) (hmoves : Moves o₀ t o) :
    ∃ d, Orderly o t d :=
  Moves.invariant (I := fun o t => ∃ d, Orderly o t d)
    (fun _ _ _ _ ⟨_, hd⟩ hmove => hd.move hmove) hmoves h

theorem orderly_init {options : ProducerOptions E}
    (h : createDispatcher options.dispatcher = .demand .new) :
    Orderly (Outlet.init options) [] .new :=
  ⟨⟨h, nofun, rfl, fun _ => le_rfl, fun _ => rfl⟩, .inl rfl⟩

/-- While events wait, nobody is owed any. -/
theorem Orderly.owed_eq_zero (h : Orderly o t d) (hne : o.buffer ≠ []) {tag : Tag}
    {account : Account} (hget : t.ledger.get tag = some account) : account.owed = 0 := by
  have hcredit : d.totalDemand ≤ 0 := h.settled.resolve_left hne
  have howed : (demands d.subscribers).get tag = some account.owed := by
    rw [h.ledger, Ledger.owed, OrderedMap.get_map, hget]
    rfl
  have hle := OrderedMap.le_sum h.nonneg howed
  have hpos := nonneg_iff.1 h.nonneg tag _ howed
  rw [← totalDemand_eq] at hle
  omega

/-- Batches sent, in the order of sending, and the buffer behind them are the events that
`handleDemand` returned, as long as the buffer has not dropped any; nobody is sent more
than it asked for; and while events wait nobody is owed any. -/
theorem producer_order {callbacks : ProducerCallbacks E S} {options : ProducerOptions E}
    {mode : Option DemandMode} {ms : List ProducerMessage} {r : Recorded (ProducerStage E S) E}
    (hdemand : createDispatcher options.dispatcher = .demand .new)
    (hrun : Transition.run ProducerStage.step (ProducerStage.start callbacks options mode) ms =
      some r) :
    (r.trace.dropped = [] → r.trace.sent ++ r.stage.buffer = r.trace.returned) ∧
    (∀ tag, r.trace.sentTo tag ≤ r.trace.askedBy tag) ∧
    (r.stage.buffer ≠ [] →
      ∀ tag account, r.trace.ledger.get tag = some account → account.owed = 0) := by
  obtain ⟨d, hd⟩ := Orderly.moves ⟨_, orderly_init hdemand⟩ (producer_run_moves hrun)
  refine ⟨hd.order, fun tag => ?_, fun hne tag account hget => hd.owed_eq_zero hne hget⟩
  have hwithin := hd.within tag
  have hpos := demandOf_nonneg hd.nonneg tag
  omega

/-- Two subscribers, and a callback that returns one event too many. -/
theorem producer_order_two :
    ∃ r, Transition.run ProducerStage.step
        (ProducerStage.start
          ⟨0, fun n s => ((List.range (n.toNat + 1)).map (· + s), s + n.toNat + 1)⟩ {} none)
        [.subscribe "a" ⟨"n", 1, none, 0⟩ 2 1 none, .subscribe "b" ⟨"n", 2, none, 0⟩ 3 1 none,
          .ask "a" 2, .cancel "a" "cancel", .ask "b" 2] = some r ∧
      r.trace.sent ++ r.stage.buffer = [0, 1, 2, 3, 4, 5] ∧
      (r.trace.dropped = [] → r.trace.sent ++ r.stage.buffer = r.trace.returned) ∧
      (∀ tag, r.trace.sentTo tag ≤ r.trace.askedBy tag) ∧
      (r.stage.buffer ≠ [] →
        ∀ tag account, r.trace.ledger.get tag = some account → account.owed = 0) := by
  have hrun : ∃ r, Transition.run ProducerStage.step
        (ProducerStage.start
          ⟨0, fun n s => ((List.range (n.toNat + 1)).map (· + s), s + n.toNat + 1)⟩ {} none)
        [.subscribe "a" ⟨"n", 1, none, 0⟩ 2 1 none, .subscribe "b" ⟨"n", 2, none, 0⟩ 3 1 none,
          .ask "a" 2, .cancel "a" "cancel", .ask "b" 2] = some r ∧
      r.trace.sent ++ r.stage.buffer = [0, 1, 2, 3, 4, 5] := ⟨_, rfl, rfl⟩
  obtain ⟨r, hr, hsent⟩ := hrun
  exact ⟨r, hr, hsent, producer_order rfl hr⟩

end Libeam.Proofs.DemandOrder
