import Mathlib.Order.Bounds.Basic
import Libeam.Proofs.OverAsking
import Libeam.Proofs.OwedDemand
/-!
# The demand that a producer accumulates

Until a producer is switched to forward mode it adds up what its dispatcher wants of it.
The partition dispatcher wants what a consumer asks, the broadcast dispatcher what all
consumers have in common, the demand dispatcher all that is recorded at that time.
-/

namespace Libeam.Proofs.AccumulatedDemand

open Lib GenStage OutletMoves
open BroadcastDispatch (Sound Synced levels syncDemands_cases)
open PartitionDispatch (ask_cases)
open Retention
open OverAsking (NoCalls noCalls_emits)
open OwedDemand
open Supervision (ActorRef)

variable {E S : Type}

/-- The demands that `handleDemand` was called with. -/
def calls (t : Trace E) : List Int :=
  t.filterMap fun
    | .handleDemand demand => some demand
    | _ => none

/-- The sum of what the current subscribers have asked. -/
def askedOf (l : Ledger) : Int := (OrderedMap.map Account.asked l).sum

/-- The demand that all of them have asked. -/
def shared (l : Ledger) : Int := ((OrderedMap.map Account.asked l).values.min?).getD 0

/-- The demands that all current subscribers had asked at one time or another. -/
def Reached (t : Trace E) : Set Int :=
  {demand | ∃ before : Trace E, before <+: t ∧ demand = shared before.ledger}

/-- What the user is to be asked for, by the kind of dispatcher. -/
def Due (k : Kind) (t : Trace E) (demand : Int) : Prop :=
  match k with
  | .demand => askedOf t.ledger ≤ demand ∧ (0 < demand ↔ 0 < askedOf t.ledger)
  | .broadcast => IsGreatest (Reached t) demand
  | .partition => demand = askedOf t.ledger

/-- The messages before the switch. -/
def Early : ProducerMessage → Prop
  | .subscribe _ _ _ _ _ => True
  | .ask _ _ => True
  | _ => False

/-! ## What was asked -/

theorem reached_append (t : Trace E) (act : Act E) :
    Reached (t ++ [act]) = insert (shared (Trace.ledger (t ++ [act]))) (Reached t) := by
  ext demand
  constructor
  · rintro ⟨before, hbefore, rfl⟩
    rcases List.prefix_concat_iff.1 hbefore with rfl | hbefore
    · exact .inl rfl
    · exact .inr ⟨before, hbefore, rfl⟩
  · rintro (rfl | ⟨before, hbefore, rfl⟩)
    · exact ⟨_, List.prefix_rfl, rfl⟩
    · exact ⟨before, hbefore.trans (List.prefix_append _ _), rfl⟩

theorem isGreatest_append {t : Trace E} {demand : Int} (h : IsGreatest (Reached t) demand)
    (act : Act E) :
    IsGreatest (Reached (t ++ [act])) (max (shared (Trace.ledger (t ++ [act]))) demand) := by
  rw [reached_append]
  exact h.insert _

theorem isGreatest_still {t : Trace E} {act : Act E} {demand : Int}
    (h : IsGreatest (Reached t) demand) (hact : t.ledger.record act = t.ledger) :
    IsGreatest (Reached (t ++ [act])) demand := by
  have hgreatest := isGreatest_append h act
  have hledger : Trace.ledger (t ++ [act]) = t.ledger := by
    rw [Trace.ledger_append]
    exact hact
  rwa [hledger, max_eq_right (h.2 ⟨t, List.prefix_rfl, rfl⟩)] at hgreatest

/-- Nothing was sent, so that all that was asked is owed. -/
def Unsent (l : Ledger) : Prop := OrderedMap.map Account.asked l = l.owed

theorem Unsent.set {l : Ledger} (h : Unsent l) (tag : Tag) :
    Unsent (OrderedMap.set l tag ⟨0, 0⟩) := by
  unfold Unsent Ledger.owed at h ⊢
  rw [OrderedMap.map_set, OrderedMap.map_set, h]
  rfl

theorem Unsent.ask {l : Ledger} (h : Unsent l) (tag : Tag) (demand : Int) :
    Unsent (OrderedMap.modify l tag (·.ask demand)) := by
  unfold Unsent at h ⊢
  rw [Ledger.owed_ask, ← h]
  exact OrderedMap.map_modify l tag fun _ => rfl

variable {o : Outlet E} {t : Trace E} {d : Dispatcher E}

theorem askedOf_eq (howing : Owing o t) (hunsent : Unsent t.ledger) :
    askedOf t.ledger = (owes o.dispatcher).sum := by
  rw [askedOf, hunsent, howing.ledger]

theorem sum_modify_owes (d : Dispatcher E) (tag : Tag) (demand : Int) :
    ((owes d).modify tag (· + demand)).sum =
      (owes d).sum + if d.has tag then demand else 0 := by
  rw [← has_owes, OrderedMap.has]
  cases hget : (owes d).get tag with
  | none =>
      rw [OrderedMap.modify_of_not_mem (OrderedMap.get_eq_none.1 hget)]
      exact (add_zero _).symm
  | some v =>
      rw [OrderedMap.sum_modify hget, Option.isSome_some, if_pos rfl]
      ring

/-- What an ask adds. -/
theorem askedOf_ask (howing : Owing o t) (hunsent : Unsent t.ledger) (tag : Tag) {demand : Int}
    (hpos : 0 < demand) :
    Unsent (Trace.ledger (t ++ [.asked tag demand])) ∧
      askedOf (Trace.ledger (t ++ [.asked tag demand])) =
        (owes (o.ask tag demand).1.dispatcher).sum ∧
      askedOf (Trace.ledger (t ++ [.asked tag demand])) =
        askedOf t.ledger + if o.dispatcher.has tag then demand else 0 := by
  have hunsent' : Unsent (Trace.ledger (t ++ [.asked tag demand])) := by
    rw [Trace.ledger_append]
    exact hunsent.ask tag _
  have hasked := askedOf_eq (howing.ask tag hpos.le) hunsent'
  refine ⟨hunsent', hasked, ?_⟩
  rw [hasked, askedOf_eq howing hunsent, ← sum_modify_owes]
  exact congrArg OrderedMap.sum (owes_ask howing.tidy tag hpos.le).2

/-! ## What is in common -/

/-- The demand that all subscribers of a broadcast dispatcher have asked is `waiting`. -/
theorem shared_eq {b : BroadcastDispatcher} (hd : o.dispatcher = .broadcast b)
    (howing : Owing o t) (hunsent : Unsent t.ledger) (hsynced : Synced b) :
    shared t.ledger = b.waiting := by
  have hsound := howing.tidy.sane
  have hledger := howing.ledger
  rw [hd] at hsound hledger
  rw [shared, hunsent, ← hledger]
  change ((levels b).values.min?).getD 0 = b.waiting
  by_cases hnil : b.subscribers.entries = []
  · have hvalues : (levels b).values = [] := by
      simp [levels, OrderedMap.values, OrderedMap.map, hnil]
    rw [hvalues, Sound.waiting_empty hsound hnil]
    rfl
  · obtain ⟨e, he, hzero⟩ := hsynced hnil
    have hmin : (levels b).values.min? = some b.waiting := by
      rw [List.min?_eq_some_iff]
      simp only [levels, OrderedMap.values, OrderedMap.map, List.map_map, List.mem_map,
        Function.comp_def, forall_exists_index, and_imp, forall_apply_eq_imp_iff₂]
      refine ⟨⟨e, he, by rw [hzero, zero_add]⟩, fun e' he' => ?_⟩
      have hnonneg := Sound.nonneg hsound e' he'
      omega
    rw [hmin]
    rfl

/-- What an ask makes of `requested`, and what it returns. -/
theorem requested_ask {b : BroadcastDispatcher} (h : Sound b) (tag : Tag) (demand : Int) :
    (b.ask tag demand).1.requested = max (b.ask tag demand).1.waiting b.requested ∧
      (b.ask tag demand).1.requested = b.requested + max 0 (b.ask tag demand).2 := by
  have hle := h.waiting_le
  unfold BroadcastDispatcher.ask
  split_ifs with hhas
  · obtain ⟨-, heq⟩ | ⟨least, -, -, -, heq⟩ := syncDemands_cases
      { b with subscribers := b.subscribers.modify tag (·.grant demand) }
    · rw [heq]
      dsimp only
      omega
    · rw [heq]
      dsimp only
      omega
  · dsimp only
    omega

/-! ## The invariant -/

/-- The demand accumulated is what is due, and the broadcast dispatcher has it written
down. -/
def Tally (d : Dispatcher E) (t : Trace E) (accumulated : Int) : Prop :=
  Due (kind d) t accumulated ∧ ∀ b, d = .broadcast b → Synced b ∧ accumulated = b.requested

theorem Tally.still {act : Act E} {accumulated : Int} (h : Tally d t accumulated)
    (hact : t.ledger.record act = t.ledger) : Tally d (t ++ [act]) accumulated := by
  have hledger : Trace.ledger (t ++ [act]) = t.ledger := by
    rw [Trace.ledger_append]
    exact hact
  refine ⟨?_, h.2⟩
  have hdue := h.1
  unfold Due at hdue ⊢
  rw [hledger]
  revert hdue
  cases kind d with
  | demand => exact id
  | broadcast => exact fun hdue => isGreatest_still hdue hact
  | partition => exact id

theorem tally_subscribe {d' : Dispatcher E} {tag : Tag} {sub : ProducerSub}
    {partition : Option PartitionOption} {accumulated : Int} (howing : Owing o t)
    (hunsent : Unsent t.ledger) (hnew : o.dispatcher.has tag = false) (hsub : sub.demand = 0)
    (hsubscribe : o.dispatcher.subscribe tag sub partition = .ok d')
    (howing' : Owing { o with dispatcher := d' } (t ++ [.subscribed tag partition]))
    (h : Tally o.dispatcher t accumulated) :
    Tally d' (t ++ [.subscribed tag partition]) accumulated := by
  have hunsent' : Unsent (Trace.ledger (t ++ [Act.subscribed tag partition])) := by
    rw [Trace.ledger_append]
    exact hunsent.set tag
  -- a new subscriber has asked nothing
  have hasked : askedOf (Trace.ledger (t ++ [Act.subscribed tag partition])) =
      askedOf t.ledger := by
    have hnone : (owes o.dispatcher).get tag = none := by
      have hhas := has_owes o.dispatcher tag
      rw [hnew, OrderedMap.has] at hhas
      simpa using hhas
    have hsum := congrArg OrderedMap.sum (owes_subscribe howing.tidy hnew hsub hsubscribe).2
    rw [OrderedMap.sum_set, hnone, Option.getD_none] at hsum
    rw [askedOf_eq howing' hunsent', askedOf_eq howing hunsent]
    dsimp only
    omega
  have hkind := kind_subscribe hsubscribe
  obtain ⟨hdue, hbroadcast⟩ := h
  cases hd : o.dispatcher with
  | broadcast b =>
      rw [hd] at hsubscribe hdue
      cases hsubscribe
      obtain ⟨-, hrequested⟩ := hbroadcast b hd
      have hsound := howing.tidy.sane
      rw [hd] at hsound
      have hsynced := (Sound.subscribe hsound tag hsub).2
      have hwaiting := hsound.waiting_nonneg.trans hsound.waiting_le
      have hgreatest := isGreatest_append hdue (.subscribed tag partition)
      rw [shared_eq rfl howing' hunsent' hsynced] at hgreatest
      change IsGreatest _ (max 0 accumulated) at hgreatest
      rw [max_eq_right (hrequested ▸ hwaiting)] at hgreatest
      refine ⟨hgreatest, ?_⟩
      rintro b₁ ⟨⟩
      exact ⟨hsynced, hrequested⟩
  | demand d₀ =>
      rw [hd] at hsubscribe hdue
      cases hsubscribe
      refine ⟨?_, by rintro b ⟨⟩⟩
      change askedOf _ ≤ accumulated ∧ (0 < accumulated ↔ 0 < askedOf _)
      rw [hasked]
      exact hdue
  | partition q =>
      rw [hd] at hsubscribe hdue
      obtain ⟨q', -, rfl⟩ := map_eq_ok hsubscribe
      refine ⟨?_, by rintro b ⟨⟩⟩
      change accumulated = askedOf _
      rw [hasked]
      exact hdue

theorem tally_ask {tag : Tag} {demand accumulated : Int} (howing : Owing o t)
    (hunsent : Unsent t.ledger) (hpos : 0 < demand) (h : Tally o.dispatcher t accumulated) :
    Tally (o.ask tag demand).1.dispatcher (t ++ [.asked tag demand])
      (accumulated + max 0 (o.ask tag demand).2) := by
  obtain ⟨hunsent', hsum, hadded⟩ := askedOf_ask howing hunsent tag hpos
  have howing' := howing.ask tag hpos.le
  obtain ⟨hdue, hbroadcast⟩ := h
  have hsane := howing.tidy.sane
  unfold Outlet.ask at hsum howing' ⊢
  dsimp only at hsum howing' ⊢
  cases hd : o.dispatcher with
  | broadcast b =>
      rw [hd] at hdue hsane howing'
      obtain ⟨hsynced, hrequested⟩ := hbroadcast b hd
      obtain ⟨hmax, hreturned⟩ := requested_ask hsane tag demand
      have hsynced' := (Sound.ask hsane tag hpos.le).2 hsynced
      have hgreatest := isGreatest_append hdue (.asked tag demand)
      rw [shared_eq rfl howing' hunsent' hsynced', hrequested, ← hmax, hreturned] at hgreatest
      rw [hrequested]
      refine ⟨hgreatest, ?_⟩
      rintro b₁ ⟨⟩
      exact ⟨hsynced', hreturned.symm⟩
  | demand d₀ =>
      rw [hd] at hdue hsum hadded
      have hreturned : ((Dispatcher.demand d₀ : Dispatcher E).ask tag demand).2 =
          askedOf (Trace.ledger (t ++ [.asked tag demand])) := hsum.symm
      refine ⟨?_, nofun⟩
      change askedOf _ ≤ _ ∧ (0 < _ ↔ 0 < askedOf _)
      rw [hreturned]
      obtain ⟨hle, hiff⟩ := hdue
      have hmore : askedOf t.ledger ≤ askedOf (Trace.ledger (t ++ [.asked tag demand])) := by
        rw [hadded]
        split_ifs
        · omega
        · omega
      have hnonneg : 0 ≤ askedOf t.ledger := by
        rw [askedOf_eq howing hunsent, hd]
        rw [hd] at hsane
        exact OrderedMap.sum_nonneg hsane
      omega
  | partition q =>
      rw [hd] at hdue hadded
      refine ⟨?_, nofun⟩
      change _ = askedOf _
      rw [hadded]
      have hdue' : accumulated = askedOf t.ledger := hdue
      rw [hdue']
      congr 1
      change max 0 (q.ask tag demand).2 = if q.has tag then demand else 0
      have hholding := howing.tidy.holding q hd
      unfold PartitionDispatcher.has OrderedMap.has
      obtain ⟨heq, hnone⟩ | ⟨p, hseat, -, heq⟩ := ask_cases q tag demand
      · have hseat : q.tagToPartition.get tag = none := by
          cases hseat : q.tagToPartition.get tag with
          | none => rfl
          | some p =>
              obtain ⟨sub, hsub⟩ := hholding tag p hseat
              exact nomatch (hnone p hseat).symm.trans hsub
        rw [heq, hseat]
        rfl
      · rw [heq, hseat]
        exact max_eq_right hpos.le

/-! ## Dispatching nothing -/

theorem foldl_drainBuffer_nil {q : PartitionDispatcher E} {n : Nat}
    (h : ∀ p < n, q.partitionBuffers p = []) (buckets : Nat → List E) :
    (List.range n).foldl PartitionDispatcher.drainBuffer (q, buckets) = (q, buckets) := by
  induction n with
  | zero => rfl
  | succ n ih =>
      rw [List.range_succ, List.foldl_append, ih fun p hp => h p (Nat.lt_succ_of_lt hp)]
      refine if_pos (.inl ?_)
      rw [h n (Nat.lt_succ_self n), List.length_nil]

/-- A dispatch of nothing changes nothing, and sends empty batches at most. -/
theorem dispatch_nil (h : inside d = []) :
    ∃ batches, d.dispatch [] = .ok (d, ⟨batches, []⟩) ∧ ∀ b ∈ batches, b.events = [] := by
  have hnil : ∀ b ∈ ([] : List (Dispatched E)), b.events = [] := nofun
  cases d with
  | demand d =>
      change ∃ batches, Except.ok (Dispatcher.demand (d.dispatch []).1, (d.dispatch []).2) = _ ∧ _
      unfold DemandDispatcher.dispatch
      split
      · rename_i tag sub _
        split_ifs
        · have hsame : d.subscribers.modify tag (·.grant 0) = d.subscribers :=
            OrderedMap.modify_eq_self fun sub => by simp [ProducerSub.grant]
          refine ⟨[⟨sub.consumerRef, tag, []⟩], ?_, fun b hb => ?_⟩
          · simp [hsame]
          · rw [List.mem_singleton.1 hb]
        · exact ⟨[], rfl, hnil⟩
      · exact ⟨[], rfl, hnil⟩
  | broadcast b =>
      change ∃ batches,
        Except.ok (Dispatcher.broadcast (b.dispatch []).1, (b.dispatch []).2) = _ ∧ _
      unfold BroadcastDispatcher.dispatch
      split_ifs
      · exact ⟨[], rfl, hnil⟩
      · refine ⟨b.subscribers.entries.map fun entry => ⟨entry.2.consumerRef, entry.1, []⟩, by simp,
          fun b' hb' => ?_⟩
        obtain ⟨e, -, rfl⟩ := List.mem_map.1 hb'
        rfl
  | partition q =>
      have hempty : ∀ p < q.partitionCount, q.partitionBuffers p = [] := fun p hp =>
        List.flatMap_eq_nil_iff.1 h p (List.mem_range.2 hp)
      have hbatches : q.batches (fun _ => []) = [] := by
        simp [PartitionDispatcher.batches]
      have hdispatch : q.dispatch [] = .ok (q, ⟨[], []⟩) := by
        change Except.ok (((List.range q.partitionCount).foldl PartitionDispatcher.drainBuffer
          (q, fun _ => [])).1, DispatchResult.mk (PartitionDispatcher.batches _ _) []) = _
        rw [foldl_drainBuffer_nil hempty]
        dsimp only
        rw [hbatches]
      refine ⟨[], ?_, hnil⟩
      simp only [Dispatcher.dispatch, hdispatch]
      rfl

theorem charge_empty {batches : List (Dispatched E)} (h : ∀ b ∈ batches, b.events = [])
    (l : Ledger) : l.charge batches = l := by
  induction batches generalizing l with
  | nil => rfl
  | cons b batches ih =>
      have hsend : OrderedMap.modify l b.tag (·.send b.events.length) = l := by
        rw [h b List.mem_cons_self]
        exact OrderedMap.modify_eq_self fun a => by simp [Account.send]
      unfold Ledger.charge at ih ⊢
      rw [List.foldl_cons, hsend]
      exact ih (fun b' hb' => h b' (List.mem_cons_of_mem _ hb')) l

/-! ## Before the switch -/

/-- A producer that has only taken note of subscriptions and asks. -/
structure Accruing (k : Kind) (r : Recorded (ProducerStage E S) E) : Prop where
  mode : r.stage.demandMode = .accumulate
  buffer_eq : r.stage.buffer = []
  inside_eq : inside r.stage.dispatcher = []
  kind_eq : kind r.stage.dispatcher = k
  owing : Owing r.stage.toOutlet r.trace
  unsent : Unsent r.trace.ledger
  quiet : calls r.trace = []
  tally : Tally r.stage.dispatcher r.trace r.stage.accumulatedDemand

variable {k : Kind} {p p' : ProducerStage E S} {acts : Trace E}

theorem calls_append (t u : Trace E) : calls (t ++ u) = calls t ++ calls u :=
  List.filterMap_append

theorem calls_of_noCalls {t : Trace E} (h : NoCalls t) : calls t = [] := by
  refine List.filterMap_eq_nil_iff.2 fun act hact => ?_
  cases act with
  | handleDemand demand => exact absurd hact (h demand)
  | _ => rfl

theorem Accruing.subscribe {tag : Tag} (h : Accruing k ⟨p, t⟩)
    (hnew : p.dispatcher.has tag = false) (consumerRef : ActorRef String) (maxDemand : Nat)
    (minDemand : Int) (partition : Option PartitionOption) :
    Accruing k ⟨(p.handleSubscribe tag consumerRef maxDemand minDemand partition).1,
      t ++ (p.handleSubscribe tag consumerRef maxDemand minDemand partition).2⟩ := by
  have howing := h.owing.subscribe hnew consumerRef maxDemand minDemand partition
  have hquiet := h.quiet
  unfold ProducerStage.handleSubscribe
  obtain ⟨error, heq⟩ | ⟨d', hsubscribe, heq⟩ :=
    subscribe_cases p.toOutlet tag consumerRef maxDemand minDemand partition
  · rw [heq] at howing ⊢
    refine ⟨h.mode, h.buffer_eq, h.inside_eq, h.kind_eq, howing, ?_, ?_, h.tally.still rfl⟩
    · have hledger : Trace.ledger (t ++ [Act.rejected tag error]) = t.ledger :=
        Trace.ledger_append _ _
      dsimp only
      rw [hledger]
      exact h.unsent
    · dsimp only at hquiet ⊢
      rw [calls_append, hquiet]
      rfl
  · rw [heq] at howing ⊢
    refine ⟨h.mode, h.buffer_eq, (inside_subscribe hsubscribe).trans h.inside_eq,
      (kind_subscribe hsubscribe).trans h.kind_eq, howing, ?_, ?_,
      tally_subscribe h.owing h.unsent hnew rfl hsubscribe howing h.tally⟩
    · have hledger : Trace.ledger (t ++ [Act.subscribed tag partition]) =
          OrderedMap.set t.ledger tag ⟨0, 0⟩ := Trace.ledger_append _ _
      dsimp only
      rw [hledger]
      exact h.unsent.set tag
    · dsimp only at hquiet ⊢
      rw [calls_append, hquiet]
      rfl

theorem Accruing.ask {tag : Tag} {demand : Int} (h : Accruing k ⟨p, t⟩)
    (hask : p.handleAsk tag demand = .ok (p', acts)) : Accruing k ⟨p', t ++ acts⟩ := by
  have hquiet := h.quiet
  obtain ⟨hnone, rfl, rfl⟩ | ⟨hpos, o, drained, rest, hdrain, hforward, rfl⟩ := handleAsk_eq_ok hask
  · have hstill := still_asked (E := E) tag hnone
    have hledger : Trace.ledger (t ++ [(Act.asked tag demand : Act E)]) = t.ledger :=
      (Trace.ledger_append _ _).trans (hstill _)
    refine ⟨h.mode, h.buffer_eq, h.inside_eq, h.kind_eq, h.owing.still hstill, ?_, ?_,
      h.tally.still (hstill _)⟩
    · dsimp only
      rw [hledger]
      exact h.unsent
    · dsimp only at hquiet ⊢
      rw [calls_append, hquiet]
      rfl
  · -- nothing is there to be drained
    obtain ⟨hunsent, -, -⟩ := askedOf_ask h.owing h.unsent tag hpos
    have hinside : inside (p.toOutlet.ask tag demand).1.dispatcher = [] :=
      (inside_ask p.dispatcher tag demand).trans h.inside_eq
    obtain ⟨d', result, hdispatch, rfl, rfl⟩ := drain_eq_ok hdrain
    have hbuffer : (p.toOutlet.ask tag demand).1.buffer = [] := h.buffer_eq
    rw [hbuffer] at hdispatch
    obtain ⟨batches, hnil, hempty⟩ := dispatch_nil hinside
    rw [hnil] at hdispatch
    cases hdispatch
    have hcharge := charge_empty hempty
    have hledger : Trace.ledger (t ++ [.asked tag demand] ++ [.sent batches]) =
        Trace.ledger (t ++ [(.asked tag demand : Act E)]) :=
      (Trace.ledger_append _ _).trans (hcharge _)
    have howing : Owing (p.toOutlet.ask tag demand).1
        (t ++ [.asked tag demand] ++ [.sent batches]) :=
      (h.owing.ask tag hpos.le).still hcharge
    have htally : Tally (p.toOutlet.ask tag demand).1.dispatcher
        (t ++ [.asked tag demand] ++ [.sent batches])
        (p.accumulatedDemand + max 0 (p.toOutlet.ask tag demand).2) :=
      (tally_ask h.owing h.unsent hpos h.tally).still (hcharge _)
    have hcalls : calls (t ++ [.asked tag demand] ++ [.sent batches]) = [] := by
      dsimp only at hquiet
      rw [calls_append, calls_append, hquiet]
      rfl
    have hsplit : t ++ .asked tag demand :: ([.sent batches] ++ rest) =
        t ++ [.asked tag demand] ++ [.sent batches] ++ rest := by simp
    rw [← hledger] at hunsent
    rw [hsplit]
    obtain ⟨hnone, rfl, rfl⟩ | ⟨hyes, -, rfl, rfl⟩ | ⟨-, hmode, -⟩ := forwardDemand_eq_ok hforward
    · rw [max_eq_left hnone, add_zero] at htally
      rw [List.append_nil]
      exact ⟨h.mode, rfl, hinside, (kind_ask _ tag demand).trans h.kind_eq,
        ⟨howing.tidy, howing.ledger⟩, hunsent, hcalls, htally⟩
    · rw [max_eq_right hyes.le] at htally
      rw [List.append_nil]
      exact ⟨h.mode, rfl, hinside, (kind_ask _ tag demand).trans h.kind_eq,
        ⟨howing.tidy, howing.ledger⟩, hunsent, hcalls, htally⟩
    · exact nomatch hmode.symm.trans h.mode

theorem Accruing.receive {m : ProducerMessage} (h : Accruing k ⟨p, t⟩) (hearly : Early m)
    (hnew : NewTags ⟨p, t⟩ m) (hreceive : p.receive m = .ok (p', acts)) :
    Accruing k ⟨p', t ++ acts⟩ := by
  cases m with
  | subscribe tag consumerRef maxDemand minDemand partition =>
      have hsubscribed := h.subscribe hnew consumerRef maxDemand minDemand partition
      rwa [Except.ok.inj hreceive] at hsubscribed
  | ask tag demand => exact h.ask hreceive
  | cancel tag reason => exact hearly.elim
  | setDemandMode => exact hearly.elim

theorem accruing_start (callbacks : ProducerCallbacks E S) (options : ProducerOptions E) :
    Accruing (kind (createDispatcher options.dispatcher))
      (ProducerStage.start callbacks options (some .accumulate)) := by
  have hreached : IsGreatest (Reached ([] : Trace E)) 0 := by
    refine ⟨⟨[], List.prefix_rfl, rfl⟩, ?_⟩
    rintro demand ⟨before, hbefore, rfl⟩
    rw [List.prefix_nil.1 hbefore]
    exact le_rfl
  have htally : Tally (createDispatcher options.dispatcher) [] 0 := by
    refine createDispatcher_cases (P := fun d => Tally d [] 0) ⟨⟨le_rfl, Iff.rfl⟩, nofun⟩
      ⟨hreached, ?_⟩ (fun _ _ => ⟨rfl, nofun⟩) options.dispatcher
    rintro b ⟨⟩
    exact ⟨fun hne => absurd rfl hne, rfl⟩
  exact ⟨rfl, rfl, inside_create options.dispatcher, rfl, owing_init options, rfl, rfl, htally⟩

/-! ## The switch -/

/-- A producer that is switched to forward mode calls `handleDemand` once, if any demand is
due, and not before; and what every subscriber has asked and not been sent is recorded. -/
theorem accumulated_demand {callbacks : ProducerCallbacks E S} {options : ProducerOptions E}
    {ms : List ProducerMessage} {r r' : Recorded (ProducerStage E S) E}
    (hearly : ∀ m ∈ ms, Early m)
    (hnew : Transition.Along ProducerStage.step NewTags
      (ProducerStage.start callbacks options (some .accumulate)) ms)
    (hrun : Transition.run ProducerStage.step
      (ProducerStage.start callbacks options (some .accumulate)) ms = some r)
    (hswitch : ProducerStage.step r .setDemandMode = some r') :
    calls r.trace = [] ∧
    (∃ demand, Due (kind (createDispatcher options.dispatcher)) r.trace demand ∧
      calls r'.trace = if 0 < demand then [demand] else []) ∧
    owes r'.stage.dispatcher = r'.trace.ledger.owed := by
  have hreached : Accruing (kind (createDispatcher options.dispatcher)) r := by
    refine Transition.run_invariant (fun r m r' h hguard hstep => ?_)
      (accruing_start callbacks options)
      ((Transition.along_of_forall_mem hearly _).and hnew) hrun
    obtain ⟨acts, hreceive, htrace⟩ := step_eq_some hstep
    have hreceived := h.receive hguard.1 hguard.2 hreceive
    rwa [← htrace] at hreceived
  obtain ⟨acts, hreceive, htrace⟩ := step_eq_some hswitch
  refine ⟨hreached.quiet, ⟨_, hreached.kind_eq ▸ hreached.tally.1, ?_⟩, ?_⟩
  · rw [htrace, calls_append, hreached.quiet, List.nil_append]
    obtain ⟨hnone, -, rfl⟩ | ⟨hpos, hevents⟩ := switchDemandMode_eq_ok hreceive
    · rw [if_neg (not_lt.2 hnone)]
      rfl
    · obtain ⟨o, emitted, hemits, -, rfl⟩ := demandEvents_eq_ok hevents
      rw [if_pos hpos]
      exact congrArg (r.stage.accumulatedDemand :: ·) (calls_of_noCalls (noCalls_emits hemits))
  · rw [htrace]
    exact (hreached.owing.producer (m := .setDemandMode) trivial hreceive).ledger

/-- Two consumers that ask three and five events of a producer, which has two. -/
theorem accumulated_demand_two :
    ∃ r r', Transition.run ProducerStage.step
        (ProducerStage.start (⟨(), fun _ _ => ([6, 7], ())⟩ : ProducerCallbacks Int Unit)
          { dispatcher := some .broadcast } (some .accumulate))
        [.subscribe "a" ⟨"n", 1, none, 0⟩ 5 2 none, .subscribe "b" ⟨"n", 2, none, 0⟩ 5 2 none,
          .ask "a" 3, .ask "b" 5] = some r ∧
      ProducerStage.step r .setDemandMode = some r' ∧
      calls r'.trace = [3] ∧ (owes r'.stage.dispatcher).entries = [("a", 1), ("b", 3)] ∧
      calls r.trace = [] ∧
      (∃ demand, Due .broadcast r.trace demand ∧
        calls r'.trace = if 0 < demand then [demand] else []) ∧
      owes r'.stage.dispatcher = r'.trace.ledger.owed := by
  have hrun : ∃ r r', Transition.run ProducerStage.step
      (ProducerStage.start (⟨(), fun _ _ => ([6, 7], ())⟩ : ProducerCallbacks Int Unit)
        { dispatcher := some .broadcast } (some .accumulate))
      [.subscribe "a" ⟨"n", 1, none, 0⟩ 5 2 none, .subscribe "b" ⟨"n", 2, none, 0⟩ 5 2 none,
        .ask "a" 3, .ask "b" 5] = some r ∧
      ProducerStage.step r .setDemandMode = some r' ∧
      calls r'.trace = [3] ∧ (owes r'.stage.dispatcher).entries = [("a", 1), ("b", 3)] :=
    ⟨_, _, rfl, rfl, rfl, rfl⟩
  obtain ⟨r, r', hr, hr', hcalls, howes⟩ := hrun
  refine ⟨r, r', hr, hr', hcalls, howes,
    @accumulated_demand Int Unit _ { dispatcher := some .broadcast } _ r r' ?_ ?_ hr hr'⟩
  · simp [Early]
  · refine ⟨rfl, fun r₁ h₁ => ?_⟩
    cases h₁
    refine ⟨rfl, fun r₂ h₂ => ?_⟩
    cases h₂
    exact ⟨trivial, fun _ _ => ⟨trivial, fun _ _ => trivial⟩⟩

/-- Two consumers of a broadcast ask ten events each, and the user is asked for ten. -/
theorem accumulated_in_common :
    ∃ r r', Transition.run ProducerStage.step
        (ProducerStage.start (⟨(), fun _ _ => ([], ())⟩ : ProducerCallbacks Int Unit)
          { dispatcher := some .broadcast } (some .accumulate))
        [.subscribe "a" ⟨"n", 1, none, 0⟩ 10 5 none, .subscribe "b" ⟨"n", 2, none, 0⟩ 10 5 none,
          .ask "a" 10, .ask "b" 10] = some r ∧
      ProducerStage.step r .setDemandMode = some r' ∧
      askedOf r.trace.ledger = 20 ∧ r.trace.sent = [] ∧
      calls r'.trace = [10] ∧ calls r'.trace ≠ [askedOf r.trace.ledger] :=
  ⟨_, _, rfl, rfl, rfl, rfl, rfl, by decide⟩

end Libeam.Proofs.AccumulatedDemand
