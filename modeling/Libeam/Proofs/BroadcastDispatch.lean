import Libeam.GenStage.Ledger
/-!
# The books of the broadcast dispatcher

What a subscriber is owed is its recorded demand and `waiting` on top of it.  Joining,
leaving and asking shift demand between the two, and a dispatch takes the same from
every subscriber.
-/

namespace Libeam.Proofs.BroadcastDispatch

open Lib GenStage

variable {E : Type}

/-- What every subscriber may still be sent. -/
def levels (b : BroadcastDispatcher) : OrderedMap Tag Int :=
  b.subscribers.map fun sub => sub.demand + b.waiting

/-- Some subscriber has no demand beyond `waiting`. -/
def Synced (b : BroadcastDispatcher) : Prop :=
  b.subscribers.entries ≠ [] → ∃ e ∈ b.subscribers.entries, e.2.demand = 0

structure Sound (b : BroadcastDispatcher) : Prop where
  nonneg : ∀ e ∈ b.subscribers.entries, 0 ≤ e.2.demand
  waiting_nonneg : 0 ≤ b.waiting
  waiting_le : b.waiting ≤ b.requested
  waiting_empty : b.subscribers.entries = [] → b.waiting = 0

theorem sound_new : Sound .new := ⟨nofun, le_rfl, le_rfl, fun _ => rfl⟩

theorem hasSubscribers_eq_false {b : BroadcastDispatcher} :
    b.hasSubscribers = false ↔ b.subscribers.entries = [] := by
  simp [BroadcastDispatcher.hasSubscribers, OrderedMap.size]

theorem size_eq_zero {b : BroadcastDispatcher} :
    b.subscribers.size = 0 ↔ b.subscribers.entries = [] := List.length_eq_zero_iff

/-! ## subscribe -/

theorem levels_subscribe {b : BroadcastDispatcher} (h : Sound b) (tag : Tag)
    {sub : ProducerSub} (hsub : sub.demand = 0) :
    levels (b.subscribe tag sub) = (levels b).set tag 0 := by
  have hgiven : (if b.waiting > 0 then b.subscribers.map (·.grant b.waiting)
      else b.subscribers).map (·.demand) = levels b := by
    split_ifs with hpos
    · exact OrderedMap.map_map _ _ _
    · have hzero : b.waiting = 0 := by
        have := h.waiting_nonneg
        omega
      simp [levels, hzero]
  have hlevels : levels (b.subscribe tag sub) =
      ((if b.waiting > 0 then b.subscribers.map (·.grant b.waiting)
        else b.subscribers).set tag sub).map (·.demand) := by
    simp [levels, BroadcastDispatcher.subscribe]
  rw [hlevels, OrderedMap.map_set, hgiven, hsub]

theorem Sound.subscribe {b : BroadcastDispatcher} (h : Sound b) (tag : Tag)
    {sub : ProducerSub} (hsub : sub.demand = 0) :
    Sound (b.subscribe tag sub) ∧ Synced (b.subscribe tag sub) := by
  have hmem := OrderedMap.mem_set_self (if b.waiting > 0 then b.subscribers.map (·.grant b.waiting)
    else b.subscribers) tag sub
  refine ⟨⟨fun e he => ?_, le_rfl, h.waiting_nonneg.trans h.waiting_le, fun hnil => ?_⟩,
    fun _ => ⟨_, hmem, hsub⟩⟩
  · rcases OrderedMap.mem_set he with rfl | hin
    · exact hsub.ge
    · split_ifs at hin with hpos
      · obtain ⟨e', he', rfl⟩ := List.mem_map.1 hin
        have := h.nonneg e' he'
        simp only [ProducerSub.grant]
        omega
      · exact h.nonneg e hin
  · exact absurd hmem (by
      change (b.subscribe tag sub).subscribers.entries = [] at hnil
      simp only [BroadcastDispatcher.subscribe] at hnil
      rw [hnil]
      exact List.not_mem_nil)

/-! ## syncDemands -/

/-- What `syncDemands` does: nothing, or it moves the least demand to `waiting`. -/
theorem syncDemands_cases (b : BroadcastDispatcher) :
    (b.subscribers.entries = [] ∨ ∃ e ∈ b.subscribers.entries, e.2.demand ≤ 0) ∧
      b.syncDemands = (b, 0) ∨
    ∃ least, 0 < least ∧ (∃ e ∈ b.subscribers.entries, e.2.demand = least) ∧
      (∀ e ∈ b.subscribers.entries, least ≤ e.2.demand) ∧
      b.syncDemands = (⟨b.subscribers.map (·.grant (-least)), b.waiting + least,
        b.requested + max 0 (b.waiting + least - b.requested)⟩,
        max 0 (b.waiting + least - b.requested)) := by
  unfold BroadcastDispatcher.syncDemands
  cases hmin : (b.subscribers.values.map (·.demand)).min? with
  | none =>
      rw [List.min?_eq_none_iff] at hmin
      simp only [OrderedMap.values, List.map_eq_nil_iff] at hmin
      exact .inl ⟨.inl hmin, rfl⟩
  | some least =>
      rw [List.min?_eq_some_iff] at hmin
      simp only [OrderedMap.values, List.map_map, List.mem_map, Function.comp_def,
        forall_exists_index, and_imp, forall_apply_eq_imp_iff₂] at hmin
      obtain ⟨⟨e, he, hleast⟩, hall⟩ := hmin
      dsimp only
      by_cases hnone : least ≤ 0
      · rw [if_pos hnone]
        exact .inl ⟨.inr ⟨e, he, hleast.trans_le hnone⟩, rfl⟩
      · rw [if_neg hnone]
        exact .inr ⟨least, not_le.1 hnone, ⟨e, he, hleast⟩, hall, rfl⟩

theorem levels_syncDemands (b : BroadcastDispatcher) : levels b.syncDemands.1 = levels b := by
  obtain ⟨-, heq⟩ | ⟨least, -, -, -, heq⟩ := syncDemands_cases b
  · rw [heq]
  · rw [heq]
    have hmap := OrderedMap.map_map (fun sub : ProducerSub => sub.grant (-least))
      (fun sub => sub.demand + (b.waiting + least)) b.subscribers
    refine hmap.trans ?_
    unfold levels
    congr 1
    funext sub
    simp only [ProducerSub.grant]
    ring

theorem Sound.syncDemands {b : BroadcastDispatcher} (h : Sound b) :
    Sound b.syncDemands.1 ∧ Synced b.syncDemands.1 := by
  obtain ⟨hsome, heq⟩ | ⟨least, hpos, ⟨e, he, hleast⟩, hall, heq⟩ := syncDemands_cases b
  · rw [heq]
    refine ⟨h, fun hne => ?_⟩
    obtain ⟨e, he, hnone⟩ := hsome.resolve_left hne
    exact ⟨e, he, le_antisymm hnone (h.nonneg e he)⟩
  · rw [heq]
    have hwaiting := h.waiting_nonneg
    refine ⟨⟨fun e he => ?_, ?_, ?_, fun hnil => ?_⟩, fun _ => ⟨_, List.mem_map.2 ⟨e, he, rfl⟩, ?_⟩⟩
    · obtain ⟨e', he', rfl⟩ := List.mem_map.1 he
      have := hall e' he'
      simp only [ProducerSub.grant]
      omega
    · dsimp only
      omega
    · dsimp only
      omega
    · rw [OrderedMap.map, List.map_eq_nil_iff] at hnil
      rw [hnil] at he
      exact absurd he List.not_mem_nil
    · simp only [ProducerSub.grant]
      omega

/-! ## cancel and ask -/

theorem levels_delete (b : BroadcastDispatcher) (tag : Tag) :
    levels { b with subscribers := b.subscribers.delete tag } = (levels b).delete tag :=
  OrderedMap.map_delete _ b.subscribers tag

theorem levels_cancel (b : BroadcastDispatcher) (tag : Tag) :
    levels (b.cancel tag) = (levels b).delete tag := by
  unfold BroadcastDispatcher.cancel
  dsimp only
  split_ifs with hnone
  · rw [← levels_delete]
    have hnil : (b.subscribers.delete tag).entries = [] := List.length_eq_zero_iff.1 hnone
    ext1
    simp [levels, OrderedMap.map, hnil]
  · rw [levels_syncDemands, levels_delete]

theorem Sound.cancel {b : BroadcastDispatcher} (h : Sound b) (tag : Tag) :
    Sound (b.cancel tag) ∧ Synced (b.cancel tag) := by
  unfold BroadcastDispatcher.cancel
  dsimp only
  split_ifs with hnone
  · have hnil : (b.subscribers.delete tag).entries = [] := List.length_eq_zero_iff.1 hnone
    refine ⟨⟨fun e he => ?_, le_rfl, le_rfl, fun _ => rfl⟩, fun hne => absurd hnil hne⟩
    dsimp only at he
    rw [hnil] at he
    exact absurd he List.not_mem_nil
  · exact Sound.syncDemands ⟨fun e he => h.nonneg e (List.mem_filter.1 he).1, h.waiting_nonneg,
      h.waiting_le, fun hnil => absurd (List.length_eq_zero_iff.2 hnil) hnone⟩

theorem levels_ask (b : BroadcastDispatcher) (tag : Tag) (demand : Int) :
    levels (b.ask tag demand).1 = (levels b).modify tag (· + demand) := by
  unfold BroadcastDispatcher.ask
  split_ifs with hhas
  · rw [levels_syncDemands]
    have hmap : (b.subscribers.modify tag (·.grant demand)).map
        (fun sub => sub.demand + b.waiting) =
        (b.subscribers.map fun sub => sub.demand + b.waiting).modify tag (· + demand) :=
      OrderedMap.map_modify b.subscribers tag fun sub => by
        simp only [ProducerSub.grant]
        ring
    exact hmap
  · refine (OrderedMap.modify_of_not_mem ?_ _).symm
    rw [levels, OrderedMap.keys_map]
    exact fun hmem => hhas (OrderedMap.has_iff.2 hmem)

theorem Sound.ask {b : BroadcastDispatcher} (h : Sound b) (tag : Tag) {demand : Int}
    (hpos : 0 ≤ demand) :
    Sound (b.ask tag demand).1 ∧ (Synced b → Synced (b.ask tag demand).1) := by
  unfold BroadcastDispatcher.ask
  split_ifs with hhas
  · have hsync : Sound ({ b with subscribers := b.subscribers.modify tag (·.grant demand) }) := by
      refine ⟨fun e he => ?_, h.waiting_nonneg, h.waiting_le, fun hnil => h.waiting_empty ?_⟩
      · obtain ⟨e', he', rfl⟩ := List.mem_map.1 he
        have := h.nonneg e' he'
        dsimp only
        split_ifs
        · simp only [ProducerSub.grant]
          omega
        · exact this
      · exact List.map_eq_nil_iff.1 hnil
    exact ⟨hsync.syncDemands.1, fun _ => hsync.syncDemands.2⟩
  · exact ⟨h, fun hsynced => hsynced⟩

/-! ## dispatch -/

/-- How many of the events a dispatch sends. -/
def sendable (b : BroadcastDispatcher) (events : List E) : Nat :=
  min events.length b.waiting.toNat

/-- A dispatch sends the front of the events that `waiting` covers, to everybody. -/
theorem dispatch_eq {b : BroadcastDispatcher} (h : Sound b) (events : List E) :
    (b.dispatch events).1 = { b with
      waiting := b.waiting - sendable b events, requested := b.requested - sendable b events } ∧
    (b.dispatch events).2.remaining = events.drop (sendable b events) ∧
    ((b.dispatch events).2.dispatched = [] ∧ sendable b events = 0 ∨
      (b.dispatch events).2.dispatched = b.subscribers.entries.map fun entry =>
        ⟨entry.2.consumerRef, entry.1, events.take (sendable b events)⟩) := by
  unfold BroadcastDispatcher.dispatch
  split_ifs with hnone
  · have hzero : sendable b events = 0 := by
      have hwaiting : b.waiting = 0 := hnone.elim (fun h => h) fun hsize =>
        h.waiting_empty (size_eq_zero.1 hsize)
      simp [sendable, hwaiting]
    simp [hzero]
  · exact ⟨rfl, rfl, .inr rfl⟩

theorem sendable_of_zero {b : BroadcastDispatcher} (h : b.waiting = 0) (events : List E) :
    sendable b events = 0 := by
  rw [sendable, h, Int.toNat_zero, Nat.min_zero]

/-- After a dispatch nothing is left over, or nobody waits. -/
theorem dispatch_settles {b : BroadcastDispatcher} (h : Sound b) (events : List E) :
    (b.dispatch events).2.remaining = [] ∨ (b.dispatch events).1.waiting = 0 := by
  obtain ⟨hb, hremaining, -⟩ := dispatch_eq h events
  have hwaiting := h.waiting_nonneg
  by_cases hlong : events.length ≤ b.waiting.toNat
  · refine .inl ?_
    rw [hremaining, sendable, min_eq_left hlong, List.drop_length]
  · refine .inr ?_
    rw [hb]
    change b.waiting - (sendable b events : Int) = 0
    rw [sendable, min_eq_right (not_le.1 hlong).le]
    omega

theorem levels_dispatch {b : BroadcastDispatcher} (h : Sound b) (events : List E) :
    levels (b.dispatch events).1 =
      Ledger.chargeOwed (levels b) (b.dispatch events).2.dispatched := by
  obtain ⟨hb, -, hsent⟩ := dispatch_eq h events
  have hlength : (events.take (sendable b events)).length = sendable b events := by
    rw [List.length_take]
    exact min_eq_left (min_le_left _ _)
  have hlevels : levels (b.dispatch events).1 =
      (levels b).map (· - (sendable b events : Int)) := by
    rw [hb]
    refine Eq.trans ?_ (OrderedMap.map_map _ _ _).symm
    unfold levels
    congr 1
    funext sub
    ring
  rw [hlevels]
  rcases hsent with ⟨hnil, hzero⟩ | hsent
  · rw [hnil, hzero]
    simp only [Nat.cast_zero, sub_zero]
    exact OrderedMap.map_id' _
  · -- every subscriber is charged once
    rw [hsent, ← OrderedMap.foldl_modify]
    have hkeys : (levels b).keys = b.subscribers.entries.map Prod.fst :=
      OrderedMap.keys_map _ b.subscribers
    rw [hkeys, Ledger.chargeOwed, List.foldl_map, List.foldl_map]
    simp only [hlength]

theorem Sound.dispatch {b : BroadcastDispatcher} (h : Sound b) (events : List E) :
    Sound (b.dispatch events).1 ∧ (Synced b → Synced (b.dispatch events).1) := by
  obtain ⟨hb, -, -⟩ := dispatch_eq h events
  have hle : (sendable b events : Int) ≤ b.waiting := by
    have := h.waiting_nonneg
    unfold sendable
    omega
  have hwaiting := h.waiting_le
  rw [hb]
  refine ⟨⟨h.nonneg, ?_, ?_, fun hnil => ?_⟩, fun hsynced => hsynced⟩
  · dsimp only
    omega
  · dsimp only
    omega
  · have hzero := h.waiting_empty hnil
    have := h.waiting_nonneg
    dsimp only
    omega

end Libeam.Proofs.BroadcastDispatch
