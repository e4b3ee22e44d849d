import Libeam.Proofs.BroadcastDispatch
/-!
# The ledger of the broadcast dispatcher

Over any sequence of calls, what a subscriber has asked is what it was sent, its
recorded demand and `waiting`; and whoever is subscribed together is sent the same.
-/

namespace Libeam.Proofs.BroadcastLedger

open Lib GenStage BroadcastDispatch
open Supervision (ActorRef)

variable {E : Type}

/-- The calls that a stage makes of its dispatcher. -/
inductive Call (E : Type) where
  | subscribe (tag : Tag) (consumerRef : ActorRef String) (maxDemand : Nat) (minDemand : Int)
  | cancel (tag : Tag)
  | ask (tag : Tag) (demand : Int)
  | dispatch (events : List E)

/-- A stage does not pass on an ask without demand. -/
def call (r : Recorded BroadcastDispatcher E) : Call E → Option (Recorded BroadcastDispatcher E)
  | .subscribe tag consumerRef maxDemand minDemand =>
      some ⟨r.stage.subscribe tag ⟨consumerRef, 0, maxDemand, minDemand⟩,
        r.trace ++ [.subscribed tag none]⟩
  | .cancel tag => some ⟨r.stage.cancel tag, r.trace ++ [.cancelled tag]⟩
  | .ask tag demand =>
      if 0 < demand then some ⟨(r.stage.ask tag demand).1, r.trace ++ [.asked tag demand]⟩
      else none
  | .dispatch events =>
      some ⟨(r.stage.dispatch events).1, r.trace ++ [.sent (r.stage.dispatch events).2.dispatched]⟩

/-- The batches sent to a subscription, in order. -/
def batchesTo (tag : Tag) (t : Trace E) : List (List E) :=
  (t.batches.filter fun b => b.tag = tag).map (·.events)

/-- The subscription neither starts nor ends. -/
def Steady (tag : Tag) (t : Trace E) : Prop :=
  ∀ act ∈ t, act ≠ .cancelled tag ∧ ∀ partition, act ≠ .subscribed tag partition

/-- Over any stretch during which two are subscribed they are sent the same batches. -/
def Alike (t : Trace E) : Prop :=
  ∀ u v : Trace E, t = u ++ v → ∀ a ∈ u.ledger.keys, ∀ b ∈ u.ledger.keys,
    Steady a v → Steady b v → batchesTo a v = batchesTo b v

/-! ## Subscribed together -/

theorem batchesTo_append (tag : Tag) (t u : Trace E) :
    batchesTo tag (t ++ u) = batchesTo tag t ++ batchesTo tag u := by
  simp [batchesTo]

theorem keys_charge (l : Ledger) (batches : List (Dispatched E)) :
    (l.charge batches).keys = OrderedMap.keys l := by
  induction batches generalizing l with
  | nil => rfl
  | cons b batches ih => exact (ih _).trans (OrderedMap.keys_modify _ _ _)

theorem mem_keys_record {l : Ledger} {tag : Tag} {act : Act E} (h : tag ∈ OrderedMap.keys l)
    (hact : act ≠ .cancelled tag) : tag ∈ OrderedMap.keys (l.record act) := by
  cases act with
  | subscribed tag' partition => exact OrderedMap.mem_keys_set.2 (.inl h)
  | cancelled tag' =>
      refine OrderedMap.mem_keys_delete.2 ⟨h, ?_⟩
      rintro rfl
      exact hact rfl
  | asked tag' demand => exact (OrderedMap.keys_modify l tag' _).symm ▸ h
  | sent batches => exact (keys_charge l batches).symm ▸ h
  | _ => exact h

theorem mem_keys_steady {l : Ledger} {tag : Tag} {v : Trace E} (h : tag ∈ OrderedMap.keys l)
    (hv : Steady tag v) : tag ∈ OrderedMap.keys (v.foldl Ledger.record l) := by
  induction v generalizing l with
  | nil => exact h
  | cons act v ih =>
      exact ih (mem_keys_record h (hv act (by simp)).1) fun a ha => hv a (by simp [ha])

theorem alike_append {t : Trace E} {act : Act E} (h : Alike t)
    (hact : ∀ a ∈ t.ledger.keys, ∀ b ∈ t.ledger.keys, batchesTo a [act] = batchesTo b [act]) :
    Alike (t ++ [act]) := by
  intro u v huv a ha b hb hav hbv
  rcases List.eq_nil_or_concat v with rfl | ⟨v', act', rfl⟩
  · rfl
  · rw [List.concat_eq_append, ← List.append_assoc] at huv
    obtain ⟨rfl, hsame⟩ := List.append_inj' huv rfl
    cases hsame
    rw [List.concat_eq_append] at hav hbv ⊢
    have hav' : Steady a v' := fun x hx => hav x (by simp [hx])
    have hbv' : Steady b v' := fun x hx => hbv x (by simp [hx])
    rw [batchesTo_append, batchesTo_append, h u v' rfl a ha b hb hav' hbv']
    congr 1
    refine hact a ?_ b ?_
    · rw [Trace.ledger_append]
      exact mem_keys_steady ha hav'
    · rw [Trace.ledger_append]
      exact mem_keys_steady hb hbv'

/-- A dispatch sends one batch to every subscriber. -/
theorem batchesTo_dispatch {b : BroadcastDispatcher} (h : Sound b) (events : List E) {tag : Tag}
    (htag : tag ∈ b.subscribers.keys) :
    batchesTo tag [.sent (b.dispatch events).2.dispatched] =
      if (b.dispatch events).2.dispatched = [] then []
      else [events.take (sendable b events)] := by
  obtain ⟨-, -, hsent⟩ := dispatch_eq h events
  obtain ⟨sub, hsub⟩ := OrderedMap.mem_keys.1 htag
  rcases hsent with ⟨hnil, -⟩ | hsent
  · rw [hnil]
    rfl
  · have hne : b.subscribers.entries ≠ [] := List.ne_nil_of_mem hsub
    have hkey := OrderedMap.filter_key (OrderedMap.get_eq_some.2 hsub)
    rw [hsent, if_neg (by simpa using hne)]
    simp only [batchesTo, Trace.batches, Act.batches, List.flatMap_cons, List.flatMap_nil,
      List.append_nil, List.filter_map, Function.comp_def, hkey]
    rfl

/-! ## The ledger -/

structure Kept (r : Recorded BroadcastDispatcher E) : Prop where
  sound : Sound r.stage
  ledger : levels r.stage = r.trace.ledger.owed
  alike : Alike r.trace

theorem keys_eq {r : Recorded BroadcastDispatcher E}
    (h : levels r.stage = r.trace.ledger.owed) :
    r.stage.subscribers.keys = OrderedMap.keys r.trace.ledger := by
  have hkeys := congrArg OrderedMap.keys h
  rwa [levels, OrderedMap.keys_map, Ledger.owed, OrderedMap.keys_map] at hkeys

theorem kept_call {r r' : Recorded BroadcastDispatcher E} {c : Call E} (h : Kept r)
    (hcall : call r c = some r') : Kept r' := by
  cases c with
  | subscribe tag consumerRef maxDemand minDemand =>
      cases hcall
      refine ⟨(h.sound.subscribe tag rfl).1, ?_, alike_append h.alike fun _ _ _ _ => rfl⟩
      rw [levels_subscribe h.sound tag rfl, h.ledger, Trace.ledger_append]
      exact (OrderedMap.map_set Account.owed r.trace.ledger tag ⟨0, 0⟩).symm
  | cancel tag =>
      cases hcall
      refine ⟨(h.sound.cancel tag).1, ?_, alike_append h.alike fun _ _ _ _ => rfl⟩
      rw [levels_cancel, h.ledger, Trace.ledger_append]
      exact (OrderedMap.map_delete Account.owed r.trace.ledger tag).symm
  | ask tag demand =>
      dsimp only [call] at hcall
      by_cases hpos : 0 < demand
      · rw [if_pos hpos] at hcall
        cases hcall
        refine ⟨(h.sound.ask tag hpos.le).1, ?_, alike_append h.alike fun _ _ _ _ => rfl⟩
        have hask := Ledger.owed_ask r.trace.ledger tag demand
        rw [levels_ask, h.ledger, Trace.ledger_append]
        change _ = Ledger.owed (OrderedMap.modify r.trace.ledger tag (·.ask (max 0 demand)))
        rw [max_eq_right hpos.le, hask]
      · rw [if_neg hpos] at hcall
        exact nomatch hcall
  | dispatch events =>
      cases hcall
      refine ⟨(h.sound.dispatch events).1, ?_, alike_append h.alike fun a ha b hb => ?_⟩
      · rw [levels_dispatch h.sound, h.ledger, Trace.ledger_append, ← Ledger.owed_charge]
        rfl
      · have hkeys := keys_eq h.ledger
        rw [batchesTo_dispatch h.sound events (hkeys ▸ ha),
          batchesTo_dispatch h.sound events (hkeys ▸ hb)]

/-- What a current subscriber has asked is what it was sent, its recorded demand and
`waiting`; `waiting` lies between 0 and `requested`; and subscribers are sent the same
batches while they are subscribed. -/
theorem broadcast_ledger {calls : List (Call E)} {r : Recorded BroadcastDispatcher E}
    (hrun : Transition.run call ⟨.new, []⟩ calls = some r) :
    (∀ tag sub, r.stage.subscribers.get tag = some sub → ∃ account,
      r.trace.ledger.get tag = some account ∧
      account.asked = account.sent + sub.demand + r.stage.waiting ∧
      0 ≤ sub.demand ∧ account.sent ≤ account.asked) ∧
    (r.stage.hasSubscribers = true →
      0 ≤ r.stage.waiting ∧ r.stage.waiting ≤ r.stage.requested) ∧
    Alike r.trace := by
  have hstart : Kept (⟨.new, []⟩ : Recorded BroadcastDispatcher E) :=
    ⟨sound_new, rfl, fun u v huv => by
      obtain ⟨rfl, rfl⟩ := List.append_eq_nil_iff.1 huv.symm
      exact fun _ _ _ _ _ _ => rfl⟩
  have hkept := Transition.run_invariant' (fun _ _ _ h hcall => kept_call h hcall) hstart hrun
  refine ⟨fun tag sub hsub => ?_, fun _ => ⟨hkept.sound.waiting_nonneg, hkept.sound.waiting_le⟩,
    hkept.alike⟩
  have hlevel : (levels r.stage).get tag = some (sub.demand + r.stage.waiting) := by
    rw [levels, OrderedMap.get_map, hsub]
    rfl
  rw [hkept.ledger, Ledger.owed, OrderedMap.get_map, Option.map_eq_some_iff] at hlevel
  obtain ⟨account, haccount, howed⟩ := hlevel
  have hnonneg := hkept.sound.nonneg _ (OrderedMap.get_eq_some.1 hsub)
  have hwaiting := hkept.sound.waiting_nonneg
  dsimp only at hnonneg
  unfold Account.owed at howed
  exact ⟨account, haccount, by omega, hnonneg, by omega⟩

/-- Three subscribers, of which one joins late and one leaves. -/
theorem broadcast_ledger_three :
    ∃ r, Transition.run call (⟨.new, []⟩ : Recorded BroadcastDispatcher Nat)
        [.subscribe "a" ⟨"n", 1, none, 0⟩ 5 2, .subscribe "b" ⟨"n", 2, none, 0⟩ 3 1, .ask "a" 5,
          .ask "b" 3, .dispatch [10, 11], .subscribe "c" ⟨"n", 3, none, 0⟩ 4 2, .ask "c" 4,
          .cancel "b", .dispatch [12, 13, 14]] = some r ∧
      batchesTo "a" r.trace = [[10, 11], [12, 13, 14]] ∧
      (∀ tag sub, r.stage.subscribers.get tag = some sub → ∃ account,
        r.trace.ledger.get tag = some account ∧
        account.asked = account.sent + sub.demand + r.stage.waiting ∧
        0 ≤ sub.demand ∧ account.sent ≤ account.asked) ∧
      (r.stage.hasSubscribers = true →
        0 ≤ r.stage.waiting ∧ r.stage.waiting ≤ r.stage.requested) ∧
      Alike r.trace := by
  have hrun : ∃ r, Transition.run call (⟨.new, []⟩ : Recorded BroadcastDispatcher Nat)
        [.subscribe "a" ⟨"n", 1, none, 0⟩ 5 2, .subscribe "b" ⟨"n", 2, none, 0⟩ 3 1, .ask "a" 5,
          .ask "b" 3, .dispatch [10, 11], .subscribe "c" ⟨"n", 3, none, 0⟩ 4 2, .ask "c" 4,
          .cancel "b", .dispatch [12, 13, 14]] = some r ∧
      batchesTo "a" r.trace = [[10, 11], [12, 13, 14]] := ⟨_, rfl, by decide⟩
  obtain ⟨r, hr, hbatches⟩ := hrun
  exact ⟨r, hr, hbatches, broadcast_ledger hr⟩

end Libeam.Proofs.BroadcastLedger
