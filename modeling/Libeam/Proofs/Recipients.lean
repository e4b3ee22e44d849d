import Libeam.Proofs.OwedDemand
/-!
# To whom a dispatcher sends

A batch goes to a subscriber with recorded demand, and to the reference that the
subscriber came with.  What an ask or the switch of the demand mode does to the books of
a producer follows from the acts it records.
-/

namespace Libeam.Proofs.Recipients

open Lib GenStage OutletMoves
open DemandDispatch (Nonneg nonneg_iff nonneg_modify splits_dispatch get_demands)
open BroadcastDispatch (levels Sound syncDemands_cases)
open PartitionDispatch OwedDemand
open Supervision (ActorRef)

variable {E S : Type}

/-- The reference that a subscriber came with. -/
def refs (d : Dispatcher E) (tag : Tag) : Option (ActorRef String) :=
  match d with
  | .demand d => (d.subscribers.get tag).map (·.consumerRef)
  | .broadcast b => (b.subscribers.get tag).map (·.consumerRef)
  | .partition q => (q.tagToPartition.get tag).bind fun p =>
      (q.partitions p).map (·.2.consumerRef)

/-- The recorded demand of a subscriber, 0 when there is none. -/
def owedOf (d : Dispatcher E) (tag : Tag) : Int := ((owes d).get tag).getD 0

variable {d d' : Dispatcher E}

theorem refs_isSome (h : Tidy d) (tag : Tag) : (refs d tag).isSome = d.has tag := by
  cases d with
  | demand | broadcast => exact Option.isSome_map
  | partition q =>
      change ((q.tagToPartition.get tag).bind fun p =>
        (q.partitions p).map (·.2.consumerRef)).isSome = (q.tagToPartition.get tag).isSome
      cases hseat : q.tagToPartition.get tag with
      | none => rfl
      | some p =>
          obtain ⟨sub, hsub⟩ := h.holding q rfl tag p hseat
          rw [Option.bind_some, hsub]
          rfl

theorem owedOf_eq_zero {tag : Tag} (h : d.has tag = false) : owedOf d tag = 0 := by
  rw [← has_owes, OrderedMap.has, Option.isSome_eq_false_iff, Option.isNone_iff_eq_none] at h
  rw [owedOf, h]
  rfl

theorem owedOf_nonneg (h : Nonneg (owes d)) (tag : Tag) : 0 ≤ owedOf d tag := by
  rw [owedOf]
  cases hv : (owes d).get tag with
  | none => exact le_rfl
  | some v => exact nonneg_iff.1 h tag v hv

/-! ## Subscribing -/

theorem refs_subscribe {tag : Tag} {sub : ProducerSub} {partition : Option PartitionOption}
    (htidy : Tidy d) (h : d.subscribe tag sub partition = .ok d') :
    refs d' = Function.update (refs d) tag (some sub.consumerRef) := by
  have hset : ∀ m : OrderedMap Tag ProducerSub, (fun tag' =>
      ((m.set tag sub).get tag').map (·.consumerRef)) = Function.update
        (fun tag' => (m.get tag').map (·.consumerRef)) tag (some sub.consumerRef) := fun m => by
    funext tag'
    rw [OrderedMap.get_set]
    by_cases htag : tag' = tag
    · rw [if_pos htag, htag, Function.update_self]
      rfl
    · rw [if_neg htag, Function.update_of_ne htag]
  cases d with
  | demand d =>
      cases h
      exact hset d.subscribers
  | broadcast b =>
      cases h
      refine (hset _).trans ?_
      split_ifs
      · congr 1
        funext tag'
        rw [OrderedMap.get_map, Option.map_map]
        rfl
      · rfl
  | partition q =>
      obtain ⟨q', hsubscribe, rfl⟩ := map_eq_ok h
      obtain ⟨option, p, -, -, -, hfree, rfl⟩ := subscribe_eq_ok hsubscribe
      funext tag'
      unfold refs
      dsimp only
      rw [OrderedMap.get_set]
      by_cases htag : tag' = tag
      · rw [if_pos htag, htag, Function.update_self, Option.bind_some, Function.update_self]
        rfl
      · rw [if_neg htag, Function.update_of_ne htag]
        cases hseat : q.tagToPartition.get tag' with
        | none => rfl
        | some p' =>
            -- the place was free
            have hp : p' ≠ p := by
              rintro rfl
              obtain ⟨sub', hsub'⟩ := htidy.holding q rfl tag' p' hseat
              cases hfree.symm.trans hsub'
            rw [Option.bind_some, Option.bind_some, Function.update_of_ne hp]

/-! ## Asking -/

theorem refs_modify (m : OrderedMap Tag ProducerSub) (tag tag' : Tag) (demand : Int) :
    ((m.modify tag (·.grant demand)).get tag').map (·.consumerRef) =
      (m.get tag').map (·.consumerRef) := by
  rw [OrderedMap.get_modify]
  split_ifs with htag
  · rw [htag, Option.map_map]
    rfl
  · rfl

theorem refs_samePlaces {q q' : PartitionDispatcher E} (h : SamePlaces q q') :
    refs (.partition q') = refs (.partition q) := by
  funext tag
  unfold refs
  dsimp only
  rw [h.seats]
  congr 1
  funext p
  have hholder := congrArg (Option.map Prod.snd) (h.holder p)
  rwa [Option.map_map, Option.map_map] at hholder

theorem refs_ask (d : Dispatcher E) (tag : Tag) (demand : Int) :
    refs (d.ask tag demand).1 = refs d := by
  cases d with
  | demand d =>
      funext tag'
      exact refs_modify d.subscribers tag tag' demand
  | broadcast b =>
      funext tag'
      change (((b.ask tag demand).1.subscribers).get tag').map (·.consumerRef) = _
      unfold BroadcastDispatcher.ask
      split_ifs
      · have hmodify := refs_modify b.subscribers tag tag' demand
        obtain ⟨-, heq⟩ | ⟨least, -, -, -, heq⟩ := syncDemands_cases
          { b with subscribers := b.subscribers.modify tag (·.grant demand) }
        · rw [heq]
          exact hmodify
        · rw [heq]
          dsimp only
          rw [OrderedMap.get_map, Option.map_map]
          exact hmodify
      · rfl
  | partition q => exact refs_samePlaces (samePlaces_ask q tag demand)

theorem nonneg_owes_ask (htidy : Tidy d) (h : Nonneg (owes d)) (tag : Tag) {demand : Int}
    (hpos : 0 ≤ demand) : Nonneg (owes (d.ask tag demand).1) := by
  rw [(owes_ask htidy tag hpos).2]
  exact nonneg_modify h fun v _ hv => by omega

/-! ## Dispatching -/

theorem refs_dispatch {events : List E} {result : DispatchResult E}
    (h : d.dispatch events = .ok (d', result)) : refs d' = refs d := by
  cases d with
  | demand d =>
      cases h
      funext tag
      change ((d.dispatch events).1.subscribers.get tag).map (·.consumerRef) = _
      rw [(splits_dispatch d events).serves.get_eq, Option.map_map]
      rfl
  | broadcast b =>
      cases h
      funext tag
      change ((b.dispatch events).1.subscribers.get tag).map (·.consumerRef) = _
      unfold BroadcastDispatcher.dispatch
      split_ifs <;> rfl
  | partition q =>
      obtain ⟨q', rfl, hdispatch⟩ := dispatch_partition_eq_ok h
      exact refs_samePlaces (dispatch_eq_ok hdispatch).1

theorem nonneg_owes_dispatch {events : List E} {result : DispatchResult E} (htidy : Tidy d)
    (hnonneg : Nonneg (owes d)) (h : d.dispatch events = .ok (d', result)) :
    Nonneg (owes d') := by
  have hsane := (owes_dispatch htidy h).1.sane
  cases d with
  | demand d =>
      cases h
      exact hsane
  | broadcast b =>
      cases h
      intro v hv
      obtain ⟨e, he, rfl⟩ := List.mem_map.1 hv
      obtain ⟨e', he', rfl⟩ := List.mem_map.1 he
      have hdemand := Sound.nonneg hsane e' he'
      have hwaiting := Sound.waiting_nonneg hsane
      dsimp only at hdemand hwaiting ⊢
      omega
  | partition q =>
      obtain ⟨q', rfl, hdispatch⟩ := dispatch_partition_eq_ok h
      obtain ⟨hsame, -⟩ := dispatch_eq_ok hdispatch
      rw [nonneg_iff] at hnonneg ⊢
      intro tag v hv
      change (q'.tagToPartition.map q'.demandOf).get tag = some v at hv
      rw [OrderedMap.get_map, hsame.seats, Option.map_eq_some_iff] at hv
      obtain ⟨p, hseat, rfl⟩ := hv
      obtain ⟨sub, hsub⟩ := htidy.holding q rfl tag p hseat
      have hp : p < q.partitionCount := htidy.sane p (by rw [hsub]; rfl)
      have hold := hnonneg tag (q.demandOf p) (by
        change (q.tagToPartition.map q.demandOf).get tag = _
        rw [OrderedMap.get_map, hseat]
        rfl)
      rw [demandOf_dispatch hdispatch hp, bucket_length]
      omega

/-- Every batch goes to a subscriber with demand. -/
theorem batch_mem {events : List E} {result : DispatchResult E} (htidy : Tidy d)
    (h : d.dispatch events = .ok (d', result)) {b : Dispatched E} (hb : b ∈ result.dispatched) :
    refs d b.tag = some b.consumerRef ∧ 0 < owedOf d b.tag := by
  cases d with
  | demand d =>
      cases h
      obtain ⟨sub, hsub, href, hpos⟩ := (splits_dispatch d events).serves.mem hb
      refine ⟨?_, ?_⟩
      · change (d.subscribers.get b.tag).map _ = _
        rw [hsub, ← href]
        rfl
      · change 0 < ((DemandDispatch.demands d.subscribers).get b.tag).getD 0
        rw [get_demands hsub]
        exact hpos
  | broadcast b₀ =>
      cases h
      change b ∈ (b₀.dispatch events).2.dispatched at hb
      unfold BroadcastDispatcher.dispatch at hb
      split_ifs at hb with hidle
      · exact nomatch hb
      · obtain ⟨⟨tag, sub⟩, hentry, rfl⟩ := List.mem_map.1 hb
        have hsub := OrderedMap.get_eq_some.2 hentry
        have hwaiting := Sound.waiting_nonneg htidy.sane
        have hdemand := Sound.nonneg htidy.sane _ hentry
        have hne : b₀.waiting ≠ 0 := fun hzero => hidle (.inl hzero)
        refine ⟨?_, ?_⟩
        · change (b₀.subscribers.get tag).map _ = _
          rw [hsub]
          rfl
        · change 0 < ((levels b₀).get tag).getD 0
          rw [levels, OrderedMap.get_map, hsub]
          dsimp only [Option.map_some, Option.getD_some] at hdemand ⊢
          omega
  | partition q =>
      obtain ⟨q', rfl, hdispatch⟩ := dispatch_partition_eq_ok h
      obtain ⟨hsame, -, -, -, hsent⟩ := dispatch_eq_ok hdispatch
      rw [hsent, PartitionDispatcher.batches, List.mem_filterMap] at hb
      obtain ⟨p, -, hp⟩ := hb
      split_ifs at hp with hnil
      rw [Option.map_eq_some_iff] at hp
      obtain ⟨entry, hentry, rfl⟩ := hp
      have hdemand : 0 < q.demandOf p := not_le.1 fun hle => by
        rw [bucket_of_nonpos hle, List.length_nil] at hnil
        exact hnil rfl
      have hholder := hsame.holder p
      rw [hentry, Option.map_some, eq_comm, Option.map_eq_some_iff] at hholder
      obtain ⟨entry₀, hentry₀, heq⟩ := hholder
      obtain ⟨htag, href⟩ := Prod.mk.inj heq
      have hseat := htidy.seated q rfl p entry₀ hentry₀
      rw [htag] at hseat
      refine ⟨?_, ?_⟩
      · change (q.tagToPartition.get entry.1).bind _ = _
        rw [hseat, Option.bind_some, hentry₀]
        exact congrArg some href
      · change 0 < ((q.tagToPartition.map q.demandOf).get entry.1).getD 0
        rw [OrderedMap.get_map, hseat]
        exact hdemand

/-! ## What the acts of a producer do to its books -/

theorem get_chargeOwed (m : OrderedMap Tag Int) (batches : List (Dispatched E)) (tag : Tag) :
    (Ledger.chargeOwed m batches).get tag = (m.get tag).map (· - countFor tag batches) := by
  induction batches generalizing m with
  | nil =>
      change m.get tag = (m.get tag).map fun v => v - 0
      simp
  | cons b batches ih =>
      refine (ih _).trans ?_
      rw [OrderedMap.get_modify]
      by_cases htag : tag = b.tag
      · rw [if_pos htag, htag, Option.map_map]
        congr 1
        funext v
        simp only [Function.comp_apply, countFor, List.map_cons, List.sum_cons, if_true]
        ring
      · rw [if_neg htag]
        simp [countFor, Ne.symm htag]

theorem countFor_eq_zero {tag : Tag} {batches : List (Dispatched E)}
    (h : ∀ b ∈ batches, b.tag ≠ tag) : countFor tag batches = 0 := by
  refine List.sum_eq_zero fun v hv => ?_
  obtain ⟨b, hb, rfl⟩ := List.mem_map.1 hv
  exact if_neg (h b hb)

theorem askedBy_nonneg (tag : Tag) (t : Trace E) : 0 ≤ t.askedBy tag := by
  refine List.sum_nonneg fun v hv => ?_
  obtain ⟨act, -, rfl⟩ := List.mem_map.1 hv
  unfold Act.asks
  split
  · split_ifs
    · exact le_max_left _ _
    · exact le_rfl
  · exact le_rfl

/-- The books after some acts other than a subscription or its end: every subscriber is
owed what it was, with what it asked and without what it was sent; and it was sent nothing
unless it was owed something. -/
structure Settles (d : Dispatcher E) (acts : Trace E) (d' : Dispatcher E) : Prop where
  tidy : Tidy d'
  nonneg : Nonneg (owes d')
  refs_eq : refs d' = refs d
  owed_eq : ∀ tag, owedOf d' tag =
    owedOf d tag + (if d.has tag then acts.askedBy tag else 0) - acts.sentTo tag
  sent : ∀ b ∈ acts.batches,
    refs d b.tag = some b.consumerRef ∧ 0 < owedOf d b.tag + acts.askedBy b.tag

theorem Settles.has_eq {acts : Trace E} (h : Settles d acts d') (htidy : Tidy d) (tag : Tag) :
    d'.has tag = d.has tag := by
  rw [← refs_isSome h.tidy, h.refs_eq, refs_isSome htidy]

/-- Acts that neither ask nor send. -/
theorem settles_still {acts : Trace E} (htidy : Tidy d) (hnonneg : Nonneg (owes d))
    (hasked : ∀ tag, acts.askedBy tag = 0) (hbatches : acts.batches = []) :
    Settles d acts d := by
  refine ⟨htidy, hnonneg, rfl, fun tag => ?_, fun b hb => ?_⟩
  · rw [hasked, ite_self, Trace.sentTo, hbatches]
    exact (add_sub_cancel_right _ 0).symm
  · rw [hbatches] at hb
    cases hb

theorem Settles.trans {d'' : Dispatcher E} {acts acts' : Trace E} (htidy : Tidy d)
    (h : Settles d acts d') (h' : Settles d' acts' d'') : Settles d (acts ++ acts') d'' := by
  have hasked : ∀ tag, acts'.askedBy tag + acts.askedBy tag = Trace.askedBy tag (acts ++ acts') :=
    fun tag => (add_comm _ _).trans (Trace.askedBy_append tag acts acts').symm
  refine ⟨h'.tidy, h'.nonneg, h'.refs_eq.trans h.refs_eq, fun tag => ?_, fun b hb => ?_⟩
  · rw [h'.owed_eq, h.owed_eq, h.has_eq htidy, ← hasked, Trace.sentTo_append]
    split_ifs
    · omega
    · omega
  · have hnonneg := askedBy_nonneg b.tag acts'
    rw [← hasked]
    rw [Trace.batches_append] at hb
    rcases List.mem_append.1 hb with hb | hb
    · obtain ⟨href, hpos⟩ := h.sent b hb
      exact ⟨href, by omega⟩
    · obtain ⟨href, hpos⟩ := h'.sent b hb
      rw [h.refs_eq] at href
      have hhas : d.has b.tag = true := by
        rw [← refs_isSome htidy, href]
        rfl
      have hsent : 0 ≤ acts.sentTo b.tag := countFor_nonneg b.tag _
      rw [h.owed_eq, if_pos hhas] at hpos
      exact ⟨href, by omega⟩

theorem settles_idle {tag : Tag} {demand : Int} (htidy : Tidy d) (hnonneg : Nonneg (owes d))
    (hnone : demand ≤ 0) : Settles d [.asked tag demand] d := by
  refine settles_still htidy hnonneg (fun tag' => ?_) rfl
  simp [Trace.askedBy, Act.asks, max_eq_left hnone]

theorem settles_ask {demand : Int} (htidy : Tidy d) (hnonneg : Nonneg (owes d)) (tag : Tag)
    (hpos : 0 ≤ demand) : Settles d [.asked tag demand] (d.ask tag demand).1 := by
  obtain ⟨htidy', howes⟩ := owes_ask htidy tag hpos
  refine ⟨htidy', nonneg_owes_ask htidy hnonneg tag hpos, refs_ask d tag demand, fun tag' => ?_,
    nofun⟩
  have hasked : Trace.askedBy tag' [(Act.asked tag demand : Act E)] =
      if tag = tag' then demand else 0 := by
    simp [Trace.askedBy, Act.asks, max_eq_right hpos]
  have hsent : Trace.sentTo tag' [(Act.asked tag demand : Act E)] = 0 := rfl
  rw [owedOf, howes, OrderedMap.get_modify, hasked, hsent, ← has_owes, OrderedMap.has, owedOf,
    sub_zero]
  by_cases htag : tag' = tag
  · subst htag
    rw [if_pos rfl, if_pos rfl]
    cases (owes d).get tag' with
    | none => rfl
    | some v => rfl
  · rw [if_neg htag, if_neg (Ne.symm htag), ite_self, add_zero]

theorem settles_dispatch {events : List E} {result : DispatchResult E} (htidy : Tidy d)
    (hnonneg : Nonneg (owes d)) (h : d.dispatch events = .ok (d', result)) :
    Settles d [.sent result.dispatched] d' := by
  obtain ⟨htidy', howes⟩ := owes_dispatch htidy h
  have hbatches : Trace.batches [Act.sent result.dispatched] = result.dispatched :=
    List.append_nil _
  have hasked : ∀ tag, Trace.askedBy tag [Act.sent result.dispatched] = 0 := fun _ => rfl
  refine ⟨htidy', nonneg_owes_dispatch htidy hnonneg h, refs_dispatch h, fun tag => ?_,
    fun b hb => ?_⟩
  · rw [hasked, ite_self, add_zero, Trace.sentTo, hbatches, owedOf, howes, get_chargeOwed, owedOf]
    cases hget : (owes d).get tag with
    | some v => rfl
    | none =>
        -- nothing goes to somebody unknown
        have hzero : countFor tag result.dispatched = 0 := countFor_eq_zero fun b hb => by
          rintro rfl
          have hpos := (batch_mem htidy h hb).2
          rw [owedOf, hget] at hpos
          exact absurd hpos (lt_irrefl 0)
        rw [hzero]
        rfl
  · rw [hbatches] at hb
    obtain ⟨href, hpos⟩ := batch_mem htidy h hb
    rw [hasked, add_zero]
    exact ⟨href, hpos⟩

theorem settles_dropActs (htidy : Tidy d) (hnonneg : Nonneg (owes d)) (events : List E) :
    Settles d (dropActs events) d := by
  have hdrops := sends_dropActs events
  exact settles_still htidy hnonneg hdrops.askedBy_eq hdrops.batches_eq

theorem settles_emit {o o' : Outlet E} {events : List E} {acts : Trace E}
    (htidy : Tidy o.dispatcher) (hnonneg : Nonneg (owes o.dispatcher))
    (h : Emits o events acts o') :
    Settles o.dispatcher (.returned events :: acts) o'.dispatcher := by
  obtain ⟨d', batches, rest, sents, hpasses, rfl, rfl⟩ := emits_passes h
  have hreturned : Settles o.dispatcher [.returned events] o.dispatcher :=
    settles_still htidy hnonneg (fun _ => rfl) rfl
  refine hreturned.trans htidy ?_
  cases hpasses with
  | none | buffer => exact settles_dropActs htidy hnonneg _
  | dispatch _ _ hdispatch =>
      have hsettles := settles_dispatch htidy hnonneg hdispatch
      exact hsettles.trans htidy (settles_dropActs hsettles.tidy hsettles.nonneg _)

/-! ## The messages of a producer -/

variable {p p' : ProducerStage E S} {acts : Trace E}

theorem settles_demandEvents {demand : Int} (htidy : Tidy p.dispatcher)
    (hnonneg : Nonneg (owes p.dispatcher)) (h : p.demandEvents demand = .ok (p', acts)) :
    Settles p.dispatcher acts p'.dispatcher ∧ ∀ tag, acts.askedBy tag = 0 := by
  obtain ⟨o, emitted, hemits, rfl, rfl⟩ := demandEvents_eq_ok h
  have hcalled : Settles p.dispatcher [.handleDemand demand] p.dispatcher :=
    settles_still htidy hnonneg (fun _ => rfl) rfl
  refine ⟨hcalled.trans htidy (settles_emit htidy hnonneg hemits), fun tag => ?_⟩
  obtain ⟨d', batches, rest, sents, hpasses, -, rfl⟩ := emits_passes hemits
  exact ((zero_add _).trans (zero_add _)).trans
    ((hpasses.sends.append_dropActs _).askedBy_eq tag)

theorem settles_setDemandMode (htidy : Tidy p.dispatcher) (hnonneg : Nonneg (owes p.dispatcher))
    (h : p.receive .setDemandMode = .ok (p', acts)) :
    Settles p.dispatcher acts p'.dispatcher ∧ ∀ tag, acts.askedBy tag = 0 := by
  obtain ⟨-, rfl, rfl⟩ | ⟨-, hevents⟩ := switchDemandMode_eq_ok h
  · exact ⟨settles_still htidy hnonneg (fun _ => rfl) rfl, fun _ => rfl⟩
  · let switched : ProducerStage E S := { p with demandMode := .forward, accumulatedDemand := 0 }
    have hswitched := settles_demandEvents (p := switched) htidy hnonneg hevents
    exact hswitched

theorem settles_handleAsk {tag : Tag} {demand : Int} (htidy : Tidy p.dispatcher)
    (hnonneg : Nonneg (owes p.dispatcher)) (h : p.receive (.ask tag demand) = .ok (p', acts)) :
    Settles p.dispatcher acts p'.dispatcher ∧
      ∀ tag', acts.askedBy tag' = if tag = tag' then max 0 demand else 0 := by
  have hasked : ∀ tag', Trace.askedBy tag' [(Act.asked tag demand : Act E)] =
      if tag = tag' then max 0 demand else 0 := fun tag' => add_zero _
  obtain ⟨hnone, rfl, rfl⟩ | ⟨hpos, o, drained, rest, hdrain, hforward, rfl⟩ := handleAsk_eq_ok h
  · exact ⟨settles_idle htidy hnonneg hnone, hasked⟩
  · have hask := settles_ask htidy hnonneg tag hpos.le
    obtain ⟨d', result, hdispatch, rfl, rfl⟩ := drain_eq_ok hdrain
    have hdrained := settles_dispatch hask.tidy hask.nonneg hdispatch
    have hboth := hask.trans htidy hdrained
    have hrest : Settles d' rest p'.dispatcher ∧ ∀ tag, rest.askedBy tag = 0 := by
      obtain ⟨-, rfl, rfl⟩ | ⟨-, -, rfl, rfl⟩ | ⟨-, -, hevents⟩ := forwardDemand_eq_ok hforward
      · exact ⟨settles_still hboth.tidy hboth.nonneg (fun _ => rfl) rfl, fun _ => rfl⟩
      · exact ⟨settles_still hboth.tidy hboth.nonneg (fun _ => rfl) rfl, fun _ => rfl⟩
      · exact settles_demandEvents hboth.tidy hboth.nonneg hevents
    have hsplit : (.asked tag demand :: ([.sent result.dispatched] ++ rest) : Trace E) =
        [.asked tag demand] ++ [.sent result.dispatched] ++ rest := by simp
    refine ⟨?_, fun tag' => ?_⟩
    · rw [hsplit]
      exact hboth.trans htidy hrest.1
    · have hsent : Trace.askedBy tag' [Act.sent result.dispatched] = 0 := rfl
      rw [hsplit, Trace.askedBy_append, Trace.askedBy_append, hrest.2, hsent, hasked, add_zero,
        add_zero]

/-- A subscription is answered with an empty account, or refused without a trace. -/
theorem subscribe_receive {tag : Tag} {consumerRef : ActorRef String} {maxDemand : Nat}
    {minDemand : Int} {partition : Option PartitionOption} (htidy : Tidy p.dispatcher)
    (hnonneg : Nonneg (owes p.dispatcher)) (hnew : p.dispatcher.has tag = false)
    (h : p.receive (.subscribe tag consumerRef maxDemand minDemand partition) = .ok (p', acts)) :
    p' = p ∧ (∃ error, acts = [.rejected tag error]) ∨
    acts = [.subscribed tag partition] ∧ Tidy p'.dispatcher ∧ Nonneg (owes p'.dispatcher) ∧
      refs p'.dispatcher = Function.update (refs p.dispatcher) tag (some consumerRef) ∧
      ∀ tag', owedOf p'.dispatcher tag' = owedOf p.dispatcher tag' := by
  have hreceive := Except.ok.inj h
  unfold ProducerStage.handleSubscribe at hreceive
  obtain ⟨error, heq⟩ | ⟨d', hsubscribe, heq⟩ :=
    subscribe_cases p.toOutlet tag consumerRef maxDemand minDemand partition
  · rw [heq] at hreceive
    cases hreceive
    exact .inl ⟨rfl, error, rfl⟩
  · rw [heq] at hreceive
    cases hreceive
    obtain ⟨htidy', howes⟩ := owes_subscribe htidy hnew rfl hsubscribe
    refine .inr ⟨rfl, htidy', ?_, refs_subscribe htidy hsubscribe, fun tag' => ?_⟩
    · dsimp only
      rw [howes, nonneg_iff]
      intro tag' v hv
      rw [OrderedMap.get_set] at hv
      split_ifs at hv
      · cases hv
        exact le_rfl
      · exact nonneg_iff.1 hnonneg tag' v hv
    · dsimp only
      rw [owedOf, howes, OrderedMap.get_set]
      split_ifs with htag
      · rw [htag, owedOf_eq_zero hnew]
        rfl
      · rfl

end Libeam.Proofs.Recipients
