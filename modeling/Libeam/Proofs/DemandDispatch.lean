import Libeam.Lib.Lane
import Libeam.GenStage.Ledger
/-!
# What the demand dispatcher sends

A dispatch sends batches one after the other, each to a subscriber whose demand
covers it, and ends when the events or the demand are used up.  Seen from outside it
is the front of the events that the total demand covers.
-/

namespace Libeam.Proofs.DemandDispatch

open Lib GenStage

variable {E : Type}

/-- The batches are sent one after the other, each to a subscriber with demand and within
the demand it meets. -/
inductive Serves : OrderedMap Tag ProducerSub → List (Dispatched E) →
    OrderedMap Tag ProducerSub → Prop
  | nil (m) : Serves m [] m
  | cons {m m'} {tag : Tag} {sub : ProducerSub} {events : List E} {batches} :
      m.get tag = some sub → 0 < sub.demand → (events.length : Int) ≤ sub.demand →
      Serves (m.modify tag (·.grant (-events.length))) batches m' →
      Serves m (⟨sub.consumerRef, tag, events⟩ :: batches) m'

/-- The recorded demand of every subscriber. -/
def demands (m : OrderedMap Tag ProducerSub) : OrderedMap Tag Int := m.map (·.demand)

def Nonneg (m : OrderedMap Tag Int) : Prop := ∀ v ∈ m.values, 0 ≤ v

theorem nonneg_iff {m : OrderedMap Tag Int} :
    Nonneg m ↔ ∀ tag v, m.get tag = some v → 0 ≤ v := by
  unfold Nonneg
  simp only [OrderedMap.get_eq_some, OrderedMap.values, List.mem_map, Prod.exists,
    exists_eq_right]
  exact ⟨fun h tag v hv => h v ⟨tag, hv⟩, fun h v hv => hv.elim fun tag hv => h tag v hv⟩

theorem demands_grant (m : OrderedMap Tag ProducerSub) (tag : Tag) (demand : Int) :
    demands (m.modify tag (·.grant demand)) = (demands m).modify tag (· + demand) :=
  OrderedMap.map_modify m tag fun _ => rfl

theorem get_demands {m : OrderedMap Tag ProducerSub} {tag : Tag} {sub : ProducerSub}
    (h : m.get tag = some sub) : (demands m).get tag = some sub.demand := by
  rw [demands, OrderedMap.get_map, h]
  rfl

theorem nonneg_modify {m : OrderedMap Tag Int} (h : Nonneg m) {tag : Tag} {f : Int → Int}
    (hf : ∀ v, m.get tag = some v → 0 ≤ v → 0 ≤ f v) : Nonneg (m.modify tag f) := by
  rw [nonneg_iff] at h ⊢
  intro tag' v hv
  rw [OrderedMap.get_modify] at hv
  by_cases htag : tag' = tag
  · subst htag
    rw [if_pos rfl, Option.map_eq_some_iff] at hv
    obtain ⟨w, hw, rfl⟩ := hv
    exact hf w hw (h tag' w hw)
  · rw [if_neg htag] at hv
    exact h tag' v hv

theorem nonneg_subscribe {d : DemandDispatcher} (h : Nonneg (demands d.subscribers)) (tag : Tag)
    {sub : ProducerSub} (hsub : sub.demand = 0) :
    Nonneg (demands (d.subscribe tag sub).subscribers) := by
  have hdemands : demands (d.subscribe tag sub).subscribers =
      (demands d.subscribers).set tag sub.demand := OrderedMap.map_set _ d.subscribers tag sub
  rw [hdemands, nonneg_iff]
  intro tag' v hv
  rw [OrderedMap.get_set] at hv
  split_ifs at hv
  · cases hv
    exact hsub.ge
  · exact nonneg_iff.1 h tag' v hv

theorem nonneg_cancel {d : DemandDispatcher} (h : Nonneg (demands d.subscribers)) (tag : Tag) :
    Nonneg (demands (d.cancel tag).subscribers) := by
  have hdemands : demands (d.cancel tag).subscribers = (demands d.subscribers).delete tag :=
    OrderedMap.map_delete _ d.subscribers tag
  rw [hdemands, nonneg_iff]
  intro tag' v hv
  rw [OrderedMap.get_delete] at hv
  split_ifs at hv
  exact nonneg_iff.1 h tag' v hv

theorem nonneg_ask {d : DemandDispatcher} (h : Nonneg (demands d.subscribers)) (tag : Tag)
    {demand : Int} (hpos : 0 ≤ demand) : Nonneg (demands (d.ask tag demand).1.subscribers) := by
  have hdemands : demands (d.ask tag demand).1.subscribers =
      (demands d.subscribers).modify tag (· + demand) := demands_grant d.subscribers tag demand
  rw [hdemands]
  exact nonneg_modify h fun v _ hv => by omega

/-! ## What serving does to the demands -/

theorem Serves.demands_eq {m m' : OrderedMap Tag ProducerSub} {batches : List (Dispatched E)}
    (h : Serves m batches m') : demands m' = Ledger.chargeOwed (demands m) batches := by
  induction h with
  | nil => rfl
  | @cons m m' tag sub events batches hget hpos hcovers _ ih =>
      rw [ih, demands_grant]
      rfl

theorem Serves.nonneg {m m' : OrderedMap Tag ProducerSub} {batches : List (Dispatched E)}
    (h : Serves m batches m') (hm : Nonneg (demands m)) : Nonneg (demands m') := by
  induction h with
  | nil => exact hm
  | @cons m m' tag sub events batches hget hpos hcovers _ ih =>
      refine ih ?_
      rw [demands_grant]
      refine nonneg_modify hm fun v hv _ => ?_
      rw [get_demands hget, Option.some.injEq] at hv
      omega

theorem Serves.sum_eq {m m' : OrderedMap Tag ProducerSub} {batches : List (Dispatched E)}
    (h : Serves m batches m') :
    (demands m').sum = (demands m).sum - (eventsOf batches).length := by
  induction h with
  | nil => simp [eventsOf]
  | @cons m m' tag sub events batches hget hpos hcovers _ ih =>
      rw [ih, demands_grant, OrderedMap.sum_modify (get_demands hget)]
      simp only [eventsOf, List.flatMap_cons, List.length_append]
      push_cast
      ring

/-- Every subscriber pays for what it is sent. -/
theorem Serves.get_eq {m m' : OrderedMap Tag ProducerSub} {batches : List (Dispatched E)}
    (h : Serves m batches m') (tag : Tag) :
    m'.get tag = (m.get tag).map (·.grant (-countFor tag batches)) := by
  induction h with
  | nil m =>
      cases m.get tag <;> simp [countFor, ProducerSub.grant]
  | @cons m m' tag' sub events batches hget hpos hcovers _ ih =>
      rw [ih, OrderedMap.get_modify]
      by_cases htag : tag = tag'
      · subst htag
        rw [if_pos rfl, hget]
        simp only [countFor, List.map_cons, List.sum_cons, Option.map_some, ProducerSub.grant,
          if_true]
        congr 2
        ring
      · rw [if_neg htag]
        simp [countFor, Ne.symm htag]

/-- Every batch goes to the reference of its subscriber, who has demand. -/
theorem Serves.mem {m m' : OrderedMap Tag ProducerSub} {batches : List (Dispatched E)}
    (h : Serves m batches m') {b : Dispatched E} (hb : b ∈ batches) :
    ∃ sub, m.get b.tag = some sub ∧ sub.consumerRef = b.consumerRef ∧ 0 < sub.demand := by
  induction h with
  | nil => exact nomatch hb
  | @cons m m' tag sub events batches hget hpos hcovers _ ih =>
      rcases List.mem_cons.1 hb with rfl | hin
      · exact ⟨sub, hget, rfl, hpos⟩
      · obtain ⟨sub', hsub', href, hpos'⟩ := ih hin
        rw [OrderedMap.get_modify] at hsub'
        split_ifs at hsub' with htag
        · -- it had more demand before
          rw [Option.map_eq_some_iff] at hsub'
          obtain ⟨sub'', hsub'', rfl⟩ := hsub'
          simp only [ProducerSub.grant] at hpos'
          exact ⟨sub'', hsub'', href, by omega⟩
        · exact ⟨sub', hsub', href, hpos'⟩

theorem Serves.countFor_of_not_mem {m m' : OrderedMap Tag ProducerSub}
    {batches : List (Dispatched E)} (h : Serves m batches m') {tag : Tag}
    (hnone : m.get tag = none) : countFor tag batches = 0 := by
  induction h with
  | nil => rfl
  | @cons m m' tag' sub events batches hget hpos hcovers _ ih =>
      have htag : tag' ≠ tag := by
        rintro rfl
        rw [hget] at hnone
        exact nomatch hnone
      have hrest := ih (by rw [OrderedMap.get_modify, if_neg (Ne.symm htag), hnone])
      simpa [countFor, htag] using hrest

/-! ## The scan for the highest demand -/

theorem best_append_singleton (entries : List (Tag × ProducerSub)) (entry : Tag × ProducerSub) :
    DemandDispatcher.best (entries ++ [entry]) =
      if entry.2.demand > DemandDispatcher.bestDemand (DemandDispatcher.best entries) then
        some entry
      else DemandDispatcher.best entries := by
  rw [DemandDispatcher.best, List.foldl_append]
  rfl

/-- The scan finds the first of the subscribers with the highest demand, and nobody when
nobody has demand. -/
theorem best_spec (entries : List (Tag × ProducerSub)) :
    (DemandDispatcher.best entries = none ∧ ∀ e ∈ entries, e.2.demand ≤ 0) ∨
    ∃ older e younger, DemandDispatcher.best entries = some e ∧
      entries = older ++ e :: younger ∧ 0 < e.2.demand ∧
      (∀ e' ∈ older, e'.2.demand < e.2.demand) ∧ ∀ e' ∈ younger, e'.2.demand ≤ e.2.demand := by
  induction entries using List.reverseRecOn with
  | nil => exact .inl ⟨rfl, nofun⟩
  | append_singleton entries entry ih =>
      rw [best_append_singleton]
      rcases ih with ⟨hbest, hnone⟩ | ⟨older, e, younger, hbest, hsplit, hpos, holder, hyounger⟩
      · rw [hbest]
        by_cases hbetter : entry.2.demand > DemandDispatcher.bestDemand none
        · rw [if_pos hbetter]
          exact .inr ⟨entries, entry, [], rfl, rfl, hbetter,
            fun e' he' => (hnone e' he').trans_lt hbetter, nofun⟩
        · rw [if_neg hbetter]
          refine .inl ⟨rfl, fun e' he' => ?_⟩
          rcases List.mem_append.1 he' with he' | he'
          · exact hnone e' he'
          · rw [List.mem_singleton.1 he']
            exact not_lt.1 hbetter
      · rw [hbest]
        by_cases hbetter : entry.2.demand > DemandDispatcher.bestDemand (some e)
        · rw [if_pos hbetter]
          have hmax : ∀ e' ∈ entries, e'.2.demand ≤ e.2.demand := by
            intro e' he'
            rw [hsplit, List.mem_append, List.mem_cons] at he'
            rcases he' with he' | rfl | he'
            · exact (holder e' he').le
            · exact le_rfl
            · exact hyounger e' he'
          exact .inr ⟨entries, entry, [], rfl, rfl, hpos.trans hbetter,
            fun e' he' => (hmax e' he').trans_lt hbetter, nofun⟩
        · rw [if_neg hbetter]
          refine .inr ⟨older, e, younger ++ [entry], rfl, ?_, hpos, holder, fun e' he' => ?_⟩
          · rw [hsplit, List.append_assoc, List.cons_append]
          · rcases List.mem_append.1 he' with he' | he'
            · exact hyounger e' he'
            · rw [List.mem_singleton.1 he']
              exact not_lt.1 hbetter

theorem best_split {entries : List (Tag × ProducerSub)} {e : Tag × ProducerSub}
    (h : DemandDispatcher.best entries = some e) :
    ∃ older younger, entries = older ++ e :: younger ∧ 0 < e.2.demand ∧
      (∀ e' ∈ older, e'.2.demand < e.2.demand) ∧ ∀ e' ∈ younger, e'.2.demand ≤ e.2.demand := by
  rcases best_spec entries with ⟨hbest, -⟩ | ⟨older, e', younger, hbest, hspec⟩
  · exact nomatch hbest.symm.trans h
  · obtain rfl := Option.some.inj (hbest.symm.trans h)
    exact ⟨older, younger, hspec⟩

theorem best_some {entries : List (Tag × ProducerSub)} {e : Tag × ProducerSub}
    (h : DemandDispatcher.best entries = some e) : e ∈ entries ∧ 0 < e.2.demand := by
  obtain ⟨older, younger, hsplit, hpos, -⟩ := best_split h
  exact ⟨hsplit ▸ List.mem_append_right older List.mem_cons_self, hpos⟩

theorem best_none {entries : List (Tag × ProducerSub)}
    (h : DemandDispatcher.best entries = none) : ∀ e ∈ entries, e.2.demand ≤ 0 := by
  rcases best_spec entries with ⟨-, hnone⟩ | ⟨older, e, younger, hbest, -⟩
  · exact hnone
  · exact nomatch hbest.symm.trans h

/-! ## One dispatch -/

/-- What a dispatch of `events` does: the batches and the rest are the events, and a
rest is left only when no subscriber has demand. -/
structure Splits (m : OrderedMap Tag ProducerSub) (events : List E)
    (result : OrderedMap Tag ProducerSub × DispatchResult E) : Prop where
  serves : Serves m result.2.dispatched result.1
  events_eq : eventsOf result.2.dispatched ++ result.2.remaining = events
  used : result.2.remaining = [] ∨ ∀ e ∈ result.1.entries, e.2.demand ≤ 0

theorem splits_dispatchLoop (fuel : Nat) (m : OrderedMap Tag ProducerSub) (events : List E)
    (hfuel : events.length ≤ fuel) :
    Splits m events (DemandDispatcher.dispatchLoop fuel m events) := by
  induction fuel generalizing m events with
  | zero =>
      obtain rfl : events = [] := List.eq_nil_of_length_eq_zero (by omega)
      exact ⟨.nil m, rfl, .inl rfl⟩
  | succ fuel ih =>
      unfold DemandDispatcher.dispatchLoop
      by_cases hnil : events.length = 0
      · rw [if_pos hnil]
        obtain rfl : events = [] := List.eq_nil_of_length_eq_zero hnil
        exact ⟨.nil m, rfl, .inl rfl⟩
      · rw [if_neg hnil]
        cases hbest : DemandDispatcher.best m.entries with
        | none => exact ⟨.nil m, rfl, .inr (best_none hbest)⟩
        | some e =>
            obtain ⟨tag, sub⟩ := e
            obtain ⟨hmem, hpos⟩ := best_some hbest
            dsimp only at hpos ⊢
            -- a turn takes at least one event, so the fuel lasts
            have hrest := ih (m.modify tag (·.grant (-(min sub.demand.toNat events.length : Nat))))
              (events.drop (min sub.demand.toNat events.length))
              (by rw [List.length_drop]; omega)
            have hlength : (events.take (min sub.demand.toNat events.length)).length =
                min sub.demand.toNat events.length := by
              rw [List.length_take]
              omega
            refine ⟨.cons (OrderedMap.get_eq_some.2 hmem) hpos ?_ ?_, ?_, hrest.used⟩
            · rw [hlength]
              omega
            · rw [hlength]
              exact hrest.serves
            · have hevents := hrest.events_eq
              unfold eventsOf at hevents ⊢
              rw [List.flatMap_cons, List.append_assoc, hevents, List.take_append_drop]

theorem splits_dispatch (d : DemandDispatcher) (events : List E) :
    Splits d.subscribers events ((d.dispatch events).1.subscribers, (d.dispatch events).2) := by
  unfold DemandDispatcher.dispatch
  split
  next tag sub hentries =>
    -- the single subscriber
    have hget : d.subscribers.get tag = some sub :=
      OrderedMap.get_eq_some.2 (hentries ▸ List.mem_singleton.2 rfl)
    by_cases hpos : sub.demand > 0
    · rw [if_pos hpos]
      have hlength : (events.take (min sub.demand.toNat events.length)).length =
          min sub.demand.toNat events.length := by
        rw [List.length_take]
        omega
      refine ⟨.cons hget hpos ?_ ?_, ?_, ?_⟩
      · rw [hlength]
        omega
      · rw [hlength]
        exact .nil _
      · simp [eventsOf]
      · by_cases hlong : sub.demand.toNat ≤ events.length
        · refine .inr fun e he => ?_
          simp only [OrderedMap.modify, hentries, List.map_cons, List.map_nil, if_true,
            List.mem_singleton] at he
          subst he
          simp only [ProducerSub.grant, min_eq_left hlong]
          omega
        · refine .inl ?_
          simp only [min_eq_right (not_le.1 hlong).le, List.drop_length]
    · rw [if_neg hpos]
      refine ⟨.nil _, rfl, .inr fun e he => ?_⟩
      rw [hentries, List.mem_singleton] at he
      subst he
      exact not_lt.1 hpos
  · exact splits_dispatchLoop events.length d.subscribers events le_rfl

/-! ## The line it serves -/

theorem totalDemand_eq (d : DemandDispatcher) :
    d.totalDemand = (demands d.subscribers).sum := rfl

theorem totalDemand_nonneg {d : DemandDispatcher} (h : Nonneg (demands d.subscribers)) :
    0 ≤ d.totalDemand := OrderedMap.sum_nonneg h

theorem hasSubscribers_eq_false {d : DemandDispatcher} :
    d.hasSubscribers = false ↔ d.subscribers.entries = [] := by
  simp [DemandDispatcher.hasSubscribers, OrderedMap.size]

theorem totalDemand_nonpos {d : DemandDispatcher}
    (h : ∀ e ∈ d.subscribers.entries, e.2.demand ≤ 0) : d.totalDemand ≤ 0 := by
  refine OrderedMap.sum_nonpos fun v hv => ?_
  simp only [OrderedMap.values, OrderedMap.map, List.map_map, List.mem_map,
    Function.comp_def] at hv
  obtain ⟨e, he, rfl⟩ := hv
  exact h e he

theorem nonneg_dispatch {d : DemandDispatcher} (h : Nonneg (demands d.subscribers))
    (events : List E) : Nonneg (demands (d.dispatch events).1.subscribers) :=
  (splits_dispatch d events).serves.nonneg h

/-- A dispatch sends the front of the events that the total demand covers. -/
theorem dispatch_eq {d : DemandDispatcher} (h : Nonneg (demands d.subscribers))
    (events buffer : List E) :
    let n := Lane.covers ⟨buffer, d.totalDemand⟩ events.length
    eventsOf (d.dispatch events).2.dispatched = events.take n ∧
    (d.dispatch events).2.remaining = events.drop n ∧
    (d.dispatch events).1.totalDemand = d.totalDemand - n := by
  have hsplits := splits_dispatch d events
  have hserves := hsplits.serves
  have hevents := hsplits.events_eq
  have hsum := hserves.sum_eq
  have hnonneg := totalDemand_nonneg (nonneg_dispatch h events)
  dsimp only at hevents hsum
  rw [← totalDemand_eq, ← totalDemand_eq] at hsum
  have hlength := congrArg List.length hevents
  rw [List.length_append] at hlength
  have hn : Lane.covers ⟨buffer, d.totalDemand⟩ events.length =
      (eventsOf (d.dispatch events).2.dispatched).length := by
    unfold Lane.covers
    dsimp only
    rcases hsplits.used with hnil | hused
    · dsimp only at hnil
      rw [hnil, List.length_nil] at hlength
      omega
    · have hzero : (d.dispatch events).1.totalDemand ≤ 0 := totalDemand_nonpos hused
      omega
  dsimp only
  rw [hn]
  have htake : (eventsOf (d.dispatch events).2.dispatched ++ (d.dispatch events).2.remaining).take
      (eventsOf (d.dispatch events).2.dispatched).length =
        eventsOf (d.dispatch events).2.dispatched := List.take_left
  have hdrop : (eventsOf (d.dispatch events).2.dispatched ++ (d.dispatch events).2.remaining).drop
      (eventsOf (d.dispatch events).2.dispatched).length =
        (d.dispatch events).2.remaining := List.drop_left
  rw [hevents] at htake hdrop
  exact ⟨htake.symm, hdrop.symm, hsum⟩

end Libeam.Proofs.DemandDispatch
