import Libeam.Proofs.Retention
/-!
# What a dispatcher owes

A dispatcher has recorded, for each of its subscribers, the demand that it has asked and
not been sent: as the demand of the subscriber, of which the broadcast dispatcher has
moved a part to `waiting`.
-/

namespace Libeam.Proofs.OwedDemand

open Lib GenStage OutletMoves
open DemandDispatch (demands demands_grant splits_dispatch)
open BroadcastDispatch (levels)
open PartitionDispatch Retention
open Supervision (ActorRef)

variable {E S : Type}

/-- The recorded demand of every subscriber. -/
def owes : Dispatcher E → OrderedMap Tag Int
  | .demand d => demands d.subscribers
  | .broadcast b => levels b
  | .partition q => q.tagToPartition.map q.demandOf

/-- Whoever has the seat of a partition holds it. -/
def Holding (q : PartitionDispatcher E) : Prop :=
  ∀ tag p, q.tagToPartition.get tag = some p → ∃ sub, q.partitions p = some (tag, sub)

/-- The subscribers of a partition dispatcher and its seats are the same. -/
structure Tidy (d : Dispatcher E) : Prop where
  sane : Sane d
  seated : ∀ q, d = .partition q → Seated q
  holding : ∀ q, d = .partition q → Holding q

theorem tidy_demand {d : DemandDispatcher} (h : Sane (.demand d : Dispatcher E)) :
    Tidy (.demand d : Dispatcher E) :=
  ⟨h, nofun, nofun⟩

theorem tidy_broadcast {b : BroadcastDispatcher} (h : Sane (.broadcast b : Dispatcher E)) :
    Tidy (.broadcast b : Dispatcher E) :=
  ⟨h, nofun, nofun⟩

theorem tidy_partition {q : PartitionDispatcher E} (hplaced : Placed q) (hseated : Seated q)
    (hholding : Holding q) : Tidy (.partition q) := by
  refine ⟨hplaced, ?_, ?_⟩
  · rintro q₁ ⟨⟩
    exact hseated
  · rintro q₁ ⟨⟩
    exact hholding

theorem tidy_create (config : Option (DispatcherConfig E)) : Tidy (createDispatcher config) :=
  createDispatcher_cases (tidy_demand nofun) (tidy_broadcast BroadcastDispatch.sound_new)
    (fun _ _ => tidy_partition (fun _ hp => absurd hp Bool.false_ne_true) nofun nofun) config

theorem owes_create (config : Option (DispatcherConfig E)) :
    owes (createDispatcher config) = .empty :=
  createDispatcher_cases (P := fun d => owes d = .empty) rfl rfl (fun _ _ => rfl) config

/-! ## The seats of a partition dispatcher -/

/-- Nobody else sits in the place of a subscriber. -/
theorem tag_eq_of_seat {q : PartitionDispatcher E} (h : Holding q) {tag tag' : Tag} {p : Nat}
    (htag : q.tagToPartition.get tag = some p) (htag' : q.tagToPartition.get tag' = some p) :
    tag = tag' := by
  obtain ⟨sub, hsub⟩ := h tag p htag
  obtain ⟨sub', hsub'⟩ := h tag' p htag'
  have heq := hsub.symm.trans hsub'
  cases heq
  rfl

theorem SamePlaces.holding {q q' : PartitionDispatcher E} (h : SamePlaces q q')
    (hholding : Holding q) : Holding q' := by
  intro tag p hseat
  rw [h.seats] at hseat
  obtain ⟨sub, hsub⟩ := hholding tag p hseat
  have hholder := h.holder p
  rw [hsub, Option.map_some, Option.map_eq_some_iff] at hholder
  obtain ⟨entry, hentry, heq⟩ := hholder
  have htag : entry.1 = tag := (Prod.mk.inj heq).1
  exact ⟨entry.2, by rw [hentry, ← htag]⟩

theorem tidy_samePlaces {q q' : PartitionDispatcher E} (h : SamePlaces q q')
    (htidy : Tidy (.partition q)) : Tidy (.partition q') :=
  tidy_partition (h.placed htidy.sane) (h.seated (htidy.seated q rfl))
    (SamePlaces.holding h (htidy.holding q rfl))

theorem partition_subscribe {q q' : PartitionDispatcher E} {tag : Tag} {sub : ProducerSub}
    {partition : Option PartitionOption} (htidy : Tidy (.partition q)) (hnew : q.has tag = false)
    (hsub : sub.demand = 0) (h : q.subscribe tag sub partition = .ok q') :
    Tidy (.partition q') ∧ owes (.partition q') = (owes (.partition q)).set tag 0 := by
  have hholding := htidy.holding q rfl
  have hplaced := placed_subscribe h htidy.sane
  have hseated := seated_subscribe h hnew (htidy.seated q rfl)
  obtain ⟨option, p, -, -, -, hfree, rfl⟩ := subscribe_eq_ok h
  -- nobody had this seat
  have hother : ∀ tag' p', q.tagToPartition.get tag' = some p' → p' ≠ p := by
    rintro tag' p' hseat rfl
    obtain ⟨sub', hsub'⟩ := hholding tag' p' hseat
    exact nomatch hfree.symm.trans hsub'
  refine ⟨tidy_partition hplaced hseated fun tag' p' hseat => ?_, ?_⟩
  · dsimp only at hseat ⊢
    rw [OrderedMap.get_set] at hseat
    by_cases htag : tag' = tag
    · rw [if_pos htag, Option.some.injEq] at hseat
      subst hseat
      rw [Function.update_self, htag]
      exact ⟨sub, rfl⟩
    · rw [if_neg htag] at hseat
      rw [Function.update_of_ne (hother tag' p' hseat)]
      exact hholding tag' p' hseat
  · change (q.tagToPartition.set tag p).map _ = _
    rw [OrderedMap.map_set]
    have hdemand : ∀ p', PartitionDispatcher.demandOf { q with
        partitions := Function.update q.partitions p (some (tag, sub))
        tagToPartition := q.tagToPartition.set tag p } p' =
          if p' = p then 0 else q.demandOf p' := fun p' => by
      unfold PartitionDispatcher.demandOf
      by_cases hp : p' = p
      · rw [if_pos hp, hp]
        dsimp only
        rw [Function.update_self]
        exact hsub
      · rw [if_neg hp]
        dsimp only
        rw [Function.update_of_ne hp]
    rw [hdemand, if_pos rfl]
    refine congrArg (OrderedMap.set · tag 0) (OrderedMap.map_congr fun tag' p' hseat => ?_)
    rw [hdemand, if_neg (hother tag' p' hseat)]

theorem partition_cancel {q : PartitionDispatcher E} (htidy : Tidy (.partition q)) (tag : Tag) :
    Tidy (.partition (q.cancel tag)) ∧
      owes (.partition (q.cancel tag)) = (owes (.partition q)).delete tag := by
  have hholding := htidy.holding q rfl
  have hplaced := placed_cancel htidy.sane tag
  have hseated := seated_cancel (htidy.seated q rfl) tag
  unfold PartitionDispatcher.cancel at hplaced hseated ⊢
  cases hseat : q.tagToPartition.get tag with
  | none =>
      refine ⟨htidy, ?_⟩
      change q.tagToPartition.map q.demandOf = (q.tagToPartition.map q.demandOf).delete tag
      rw [← OrderedMap.map_delete,
        OrderedMap.delete_of_not_mem (OrderedMap.get_eq_none.1 hseat)]
  | some p =>
      rw [hseat] at hplaced hseated
      have hother : ∀ tag' p', tag' ≠ tag → q.tagToPartition.get tag' = some p' → p' ≠ p := by
        rintro tag' p' htag hseat' rfl
        exact htag (tag_eq_of_seat hholding hseat' hseat)
      have hleft : ∀ tag' p', (q.tagToPartition.delete tag).get tag' = some p' →
          tag' ≠ tag ∧ q.tagToPartition.get tag' = some p' := fun tag' p' hseat' => by
        rw [OrderedMap.get_delete] at hseat'
        split_ifs at hseat' with htag
        exact ⟨htag, hseat'⟩
      refine ⟨tidy_partition hplaced hseated fun tag' p' hseat' => ?_, ?_⟩
      · obtain ⟨htag, hseat₀⟩ := hleft tag' p' hseat'
        dsimp only
        rw [Function.update_of_ne (hother tag' p' htag hseat₀)]
        exact hholding tag' p' hseat₀
      · change (q.tagToPartition.delete tag).map _ = (q.tagToPartition.map q.demandOf).delete tag
        rw [← OrderedMap.map_delete]
        refine OrderedMap.map_congr fun tag' p' hseat' => ?_
        obtain ⟨htag, hseat₀⟩ := hleft tag' p' hseat'
        unfold PartitionDispatcher.demandOf
        dsimp only
        rw [Function.update_of_ne (hother tag' p' htag hseat₀)]

theorem partition_ask {q : PartitionDispatcher E} (htidy : Tidy (.partition q)) (tag : Tag)
    (demand : Int) :
    owes (.partition (q.ask tag demand).1) = (owes (.partition q)).modify tag (· + demand) := by
  have hholding := htidy.holding q rfl
  change (q.ask tag demand).1.tagToPartition.map _ = (q.tagToPartition.map q.demandOf).modify tag _
  rw [(samePlaces_ask q tag demand).seats]
  refine OrderedMap.map_eq_modify fun tag' p' hseat' => ?_
  obtain ⟨heq, hnone⟩ | ⟨p, hseat, hsome, heq⟩ := ask_cases q tag demand
  · rw [heq]
    have htag : tag' ≠ tag := by
      rintro rfl
      obtain ⟨sub, hsub⟩ := hholding tag' p' hseat'
      exact nomatch (hnone p' hseat').symm.trans hsub
    rw [if_neg htag]
  · rw [heq, demandOf_grant]
    by_cases htag : tag' = tag
    · subst htag
      have hp : p' = p := Option.some.inj (hseat'.symm.trans hseat)
      rw [if_pos ⟨hp, hsome⟩, if_pos rfl]
    · have hp : p' ≠ p := by
        rintro rfl
        exact htag (tag_eq_of_seat hholding hseat' hseat)
      rw [if_neg fun hboth => hp hboth.1, if_neg htag]

/-- The batches of the first partitions are taken off the demands of these. -/
theorem chargeOwed_batches {q : PartitionDispatcher E} {f : Nat → List E} (hseated : Seated q)
    (hholding : Holding q) (hheld : ∀ p, f p ≠ [] → (q.partitions p).isSome) (g : Nat → Int)
    (n : Nat) :
    Ledger.chargeOwed (q.tagToPartition.map g) ((List.range n).filterMap fun p =>
      if (f p).length = 0 then none
      else (q.partitions p).map fun entry =>
        (⟨entry.2.consumerRef, entry.1, f p⟩ : Dispatched E)) =
      q.tagToPartition.map fun p => if p < n then g p - (f p).length else g p := by
  induction n with
  | zero => rfl
  | succ n ih =>
      unfold Ledger.chargeOwed at ih ⊢
      rw [List.range_succ, List.filterMap_append, List.foldl_append, ih]
      by_cases hnil : f n = []
      · -- no batch for the last one
        simp only [List.filterMap_cons, List.filterMap_nil, hnil, List.length_nil, if_true,
          List.foldl_nil]
        refine OrderedMap.map_congr fun tag p _ => ?_
        by_cases hp : p = n
        · subst hp
          simp [hnil]
        · have hlt : p < n + 1 ↔ p < n := by omega
          simp only [hlt]
      · obtain ⟨entry, hentry⟩ := Option.isSome_iff_exists.1 (hheld n hnil)
        have hlength : (f n).length ≠ 0 := fun hzero => hnil (List.eq_nil_of_length_eq_zero hzero)
        simp only [List.filterMap_cons, List.filterMap_nil, if_neg hlength, hentry,
          Option.map_some, List.foldl_cons, List.foldl_nil]
        refine (OrderedMap.map_eq_modify fun tag p hseat => ?_).symm
        by_cases hp : p = n
        · subst hp
          have htag : tag = entry.1 := tag_eq_of_seat hholding hseat (hseated p entry hentry)
          rw [if_pos htag, if_pos (Nat.lt_succ_self p), if_neg (lt_irrefl p)]
        · have htag : tag ≠ entry.1 := by
            rintro rfl
            exact hp (Option.some.inj (hseat.symm.trans (hseated n entry hentry)))
          have hlt : p < n + 1 ↔ p < n := by omega
          rw [if_neg htag]
          simp only [hlt]

theorem partition_dispatch {q q' : PartitionDispatcher E} {events : List E}
    {result : DispatchResult E} (htidy : Tidy (.partition q))
    (h : q.dispatch events = .ok (q', result)) :
    Tidy (.partition q') ∧
      owes (.partition q') = Ledger.chargeOwed (owes (.partition q)) result.dispatched := by
  obtain ⟨hsame, -, -, -, hsent⟩ := dispatch_eq_ok h
  have htidy' := tidy_samePlaces hsame htidy
  refine ⟨htidy', ?_⟩
  change q'.tagToPartition.map q'.demandOf = Ledger.chargeOwed (q.tagToPartition.map q.demandOf) _
  rw [hsent, ← hsame.seats]
  refine Eq.trans ?_ (chargeOwed_batches (htidy'.seated q' rfl) (htidy'.holding q' rfl)
    (fun p hp => isSome_of_bucket hsame hp) q.demandOf q'.partitionCount).symm
  refine OrderedMap.map_congr fun tag p hseat => ?_
  obtain ⟨sub, hsub⟩ := htidy'.holding q' rfl tag p hseat
  have hp : p < q'.partitionCount := htidy'.sane p (by rw [hsub]; rfl)
  rw [if_pos hp]
  exact demandOf_dispatch h (hp.trans_eq hsame.count)

/-! ## Every dispatcher -/

theorem has_owes (d : Dispatcher E) (tag : Tag) : (owes d).has tag = d.has tag := by
  have hmap : ∀ {ν : Type} (m : OrderedMap Tag ν) (f : ν → Int), (m.map f).has tag = m.has tag :=
    fun m f => by rw [OrderedMap.has, OrderedMap.get_map, Option.isSome_map, OrderedMap.has]
  cases d with
  | demand d => exact hmap d.subscribers _
  | broadcast b => exact hmap b.subscribers _
  | partition q => exact hmap q.tagToPartition _

variable {d d' : Dispatcher E}

theorem owes_subscribe {tag : Tag} {sub : ProducerSub} {partition : Option PartitionOption}
    (htidy : Tidy d) (hnew : d.has tag = false) (hsub : sub.demand = 0)
    (h : d.subscribe tag sub partition = .ok d') :
    Tidy d' ∧ owes d' = (owes d).set tag 0 := by
  have hsane := sane_subscribe htidy.sane hsub h
  cases d with
  | demand d =>
      cases h
      have hdemands := OrderedMap.map_set (·.demand) d.subscribers tag sub
      rw [hsub] at hdemands
      exact ⟨tidy_demand hsane, hdemands⟩
  | broadcast b =>
      cases h
      exact ⟨tidy_broadcast hsane, BroadcastDispatch.levels_subscribe htidy.sane tag hsub⟩
  | partition q =>
      obtain ⟨q', hsubscribe, rfl⟩ := map_eq_ok h
      exact partition_subscribe htidy hnew hsub hsubscribe

theorem owes_cancel (htidy : Tidy d) (tag : Tag) :
    Tidy (d.cancel tag) ∧ owes (d.cancel tag) = (owes d).delete tag := by
  have hsane := sane_cancel htidy.sane tag
  cases d with
  | demand d => exact ⟨tidy_demand hsane, OrderedMap.map_delete _ d.subscribers tag⟩
  | broadcast b => exact ⟨tidy_broadcast hsane, BroadcastDispatch.levels_cancel b tag⟩
  | partition q => exact partition_cancel htidy tag

theorem owes_ask (htidy : Tidy d) (tag : Tag) {demand : Int} (hpos : 0 ≤ demand) :
    Tidy (d.ask tag demand).1 ∧
      owes (d.ask tag demand).1 = (owes d).modify tag (· + demand) := by
  have hsane := sane_ask htidy.sane tag hpos
  cases d with
  | demand d => exact ⟨tidy_demand hsane, demands_grant d.subscribers tag demand⟩
  | broadcast b => exact ⟨tidy_broadcast hsane, BroadcastDispatch.levels_ask b tag demand⟩
  | partition q =>
      exact ⟨tidy_samePlaces (samePlaces_ask q tag demand) htidy, partition_ask htidy tag demand⟩

theorem owes_dispatch {events : List E} {result : DispatchResult E} (htidy : Tidy d)
    (h : d.dispatch events = .ok (d', result)) :
    Tidy d' ∧ owes d' = Ledger.chargeOwed (owes d) result.dispatched := by
  have hsane := sane_dispatch htidy.sane h
  cases d with
  | demand d =>
      cases h
      exact ⟨tidy_demand hsane, (splits_dispatch d events).serves.demands_eq⟩
  | broadcast b =>
      cases h
      exact ⟨tidy_broadcast hsane, BroadcastDispatch.levels_dispatch htidy.sane events⟩
  | partition q =>
      obtain ⟨q', rfl, hdispatch⟩ := dispatch_partition_eq_ok h
      exact partition_dispatch htidy hdispatch

/-! ## Every outlet -/

/-- The dispatcher has recorded what the trace tells. -/
structure Owing (o : Outlet E) (t : Trace E) : Prop where
  tidy : Tidy o.dispatcher
  ledger : owes o.dispatcher = t.ledger.owed

variable {o o' : Outlet E} {t acts : Trace E}

theorem owing_init (options : ProducerOptions E) : Owing (Outlet.init options) [] :=
  ⟨tidy_create options.dispatcher, owes_create options.dispatcher⟩

/-- Acts that are not in the ledger. -/
theorem Owing.still (h : Owing o t) (hstill : ∀ l : Ledger, acts.foldl Ledger.record l = l) :
    Owing o (t ++ acts) := by
  refine ⟨h.tidy, ?_⟩
  rw [Trace.ledger_append, hstill, h.ledger]

theorem still_asked (tag : Tag) {demand : Int} (h : demand ≤ 0) (l : Ledger) :
    [(Act.asked tag demand : Act E)].foldl Ledger.record l = l := by
  change OrderedMap.modify l tag (·.ask (max 0 demand)) = l
  rw [max_eq_left h]
  exact OrderedMap.modify_eq_self fun a => by simp [Account.ask]

theorem still_dropActs (events : List E) (l : Ledger) :
    (dropActs events).foldl Ledger.record l = l := by
  unfold dropActs
  split_ifs <;> rfl

theorem Owing.subscribe {tag : Tag} (h : Owing o t) (hnew : o.dispatcher.has tag = false)
    (consumerRef : ActorRef String) (maxDemand : Nat) (minDemand : Int)
    (partition : Option PartitionOption) :
    Owing (o.subscribe tag consumerRef maxDemand minDemand partition).1
      (t ++ (o.subscribe tag consumerRef maxDemand minDemand partition).2) := by
  obtain ⟨error, heq⟩ | ⟨d', hsubscribe, heq⟩ :=
    subscribe_cases o tag consumerRef maxDemand minDemand partition
  · rw [heq]
    exact h.still fun _ => rfl
  · rw [heq]
    obtain ⟨htidy, howes⟩ := owes_subscribe h.tidy hnew rfl hsubscribe
    refine ⟨htidy, ?_⟩
    rw [Trace.ledger_append, howes, h.ledger]
    exact (OrderedMap.map_set Account.owed t.ledger tag ⟨0, 0⟩).symm

theorem Owing.cancel (h : Owing o t) (tag : Tag) :
    Owing (o.cancel tag).1 (t ++ (o.cancel tag).2) := by
  obtain ⟨htidy, howes⟩ := owes_cancel h.tidy tag
  refine ⟨htidy, howes.trans ?_⟩
  rw [Trace.ledger_append, h.ledger]
  exact (OrderedMap.map_delete Account.owed t.ledger tag).symm

theorem Owing.ask (h : Owing o t) (tag : Tag) {demand : Int} (hpos : 0 ≤ demand) :
    Owing (o.ask tag demand).1 (t ++ [.asked tag demand]) := by
  obtain ⟨htidy, howes⟩ := owes_ask h.tidy tag hpos
  refine ⟨htidy, howes.trans ?_⟩
  have hask := Ledger.owed_ask t.ledger tag demand
  rw [Trace.ledger_append, h.ledger]
  change _ = Ledger.owed (OrderedMap.modify t.ledger tag (·.ask (max 0 demand)))
  rw [max_eq_right hpos, hask]

theorem Owing.dispatch {events : List E} {d' : Dispatcher E} {result : DispatchResult E}
    (h : Owing o t) (hdispatch : o.dispatcher.dispatch events = .ok (d', result))
    (hacts : ∀ l : Ledger, acts.foldl Ledger.record l = l.charge result.dispatched)
    (hd : o'.dispatcher = d') : Owing o' (t ++ acts) := by
  obtain ⟨htidy, howes⟩ := owes_dispatch h.tidy hdispatch
  subst hd
  refine ⟨htidy, howes.trans ?_⟩
  rw [Trace.ledger_append, hacts, Ledger.owed_charge, h.ledger]

theorem Owing.drain (h : Owing o t) (hdrain : o.drain = .ok (o', acts)) :
    Owing o' (t ++ acts) := by
  obtain ⟨d', result, hdispatch, rfl, rfl⟩ := drain_eq_ok hdrain
  exact h.dispatch hdispatch (fun _ => rfl) rfl

theorem Owing.emit {events : List E} (h : Owing o t) (hemit : Emits o events acts o') :
    Owing o' (t ++ .returned events :: acts) := by
  obtain ⟨d', batches, rest, sents, hpasses, rfl, rfl⟩ := emits_passes hemit
  have hdrops := still_dropActs (lostRest o rest)
  cases hpasses with
  | none =>
      have hstill : Owing o (t ++ .returned [] :: ([] ++ dropActs (lostRest o []))) :=
        h.still hdrops
      exact ⟨hstill.tidy, hstill.ledger⟩
  | buffer _ _ =>
      have hstill : Owing o (t ++ .returned events :: ([] ++ dropActs (lostRest o events))) :=
        h.still hdrops
      exact ⟨hstill.tidy, hstill.ledger⟩
  | dispatch _ _ hdispatch =>
      refine h.dispatch hdispatch (fun l => ?_) rfl
      exact hdrops _

/-! ## Every run of a producer -/

/-- A new subscription has a tag of its own. -/
def NewTags (r : Recorded (ProducerStage E S) E) : ProducerMessage → Prop
  | .subscribe tag _ _ _ _ => r.stage.dispatcher.has tag = false
  | _ => True

theorem Owing.demandEvents {p p' : ProducerStage E S} {demand : Int}
    (h : Owing p.toOutlet t) (hevents : p.demandEvents demand = .ok (p', acts)) :
    Owing p'.toOutlet (t ++ acts) := by
  obtain ⟨o, emitted, hemits, rfl, rfl⟩ := demandEvents_eq_ok hevents
  have hemitted := h.emit hemits
  refine ⟨hemitted.tidy, hemitted.ledger.trans ?_⟩
  rw [Trace.ledger_append, Trace.ledger_append]
  rfl

theorem Owing.producer {p p' : ProducerStage E S} {m : ProducerMessage}
    (h : Owing p.toOutlet t) (hnew : NewTags ⟨p, t⟩ m) (hreceive : p.receive m = .ok (p', acts)) :
    Owing p'.toOutlet (t ++ acts) := by
  cases m with
  | subscribe tag consumerRef maxDemand minDemand partition =>
      have howing := h.subscribe hnew consumerRef maxDemand minDemand partition
      cases hreceive
      exact howing
  | ask tag demand =>
      obtain ⟨hnone, rfl, rfl⟩ | ⟨hpos, o, drained, rest, hdrain, hforward, rfl⟩ :=
        handleAsk_eq_ok hreceive
      · exact h.still (still_asked tag hnone)
      · have howing := (h.ask tag hpos.le).drain hdrain
        have hsplit : t ++ .asked tag demand :: (drained ++ rest) =
            t ++ [.asked tag demand] ++ drained ++ rest := by simp
        rw [hsplit]
        obtain ⟨-, rfl, rfl⟩ | ⟨-, -, rfl, rfl⟩ | ⟨-, -, hevents⟩ := forwardDemand_eq_ok hforward
        · exact howing.still fun _ => rfl
        · exact howing.still fun _ => rfl
        · exact Owing.demandEvents howing hevents
  | cancel tag reason =>
      have howing := h.cancel tag
      cases hreceive
      exact howing
  | setDemandMode =>
      obtain ⟨-, rfl, rfl⟩ | ⟨-, hevents⟩ := switchDemandMode_eq_ok hreceive
      · exact h.still fun _ => rfl
      · let switched : ProducerStage E S :=
          { p with demandMode := .forward, accumulatedDemand := 0 }
        have hswitched : Owing switched.toOutlet t := h
        exact Owing.demandEvents hswitched hevents

end Libeam.Proofs.OwedDemand
