import Libeam.Proofs.LiveWorkers
/-!
# The accounts of a consumer supervisor

A restart replaces a worker without a word to its watchers: the entry of the old instance stays,
and the new one has none and is not watched.  As long as no restart of a worker is begun, no batch
is larger than the demand, and what the `init` of a worker does agrees with what its `spawnChild`
returns, the live workers are the entries, and no capacity is lost.
-/

namespace Libeam.Proofs.WorkerAccounts

open Lib Lib.Transition
open Libeam.System (ActorId Supervisor)
open Supervision GenStage TreeSteps
open ChildSlots (begins)
open ChildCapacity LiveWorkers

variable {V : Type}

/-! ## Entries and batches -/

/-- The workers with an entry for a subscription. -/
def entriesFor (m : OrderedMap ActorId (ActiveWorker V)) (tag : Tag) : Finset ActorId :=
  m.keys.toFinset.filter fun x => (m.get x).map (·.subscriptionTag) = some tag

/-- The events of a batch for which there is no entry yet. -/
def load (b : WorkerBatch V) : Nat := b.events.length + b.spawning.toList.length

def loadFor (batches : List (WorkerBatch V)) (tag : Tag) : Nat :=
  (batches.map fun b => if b.tag = tag then load b else 0).sum

/-- The workers whose `spawnChild` has not returned. -/
def spawningIds (batches : List (WorkerBatch V)) : List ActorId :=
  batches.filterMap fun b => b.spawning.map fun worker => worker.ref.id

section
variable {m : OrderedMap ActorId (ActiveWorker V)} {tag : Tag} {x : ActorId} {w : ActiveWorker V}

theorem mem_entriesFor :
    x ∈ entriesFor m tag ↔ ∃ w, m.get x = some w ∧ w.subscriptionTag = tag := by
  rw [entriesFor, Finset.mem_filter, List.mem_toFinset, Option.map_eq_some_iff]
  refine and_iff_right_of_imp ?_
  rintro ⟨w, hw, -⟩
  exact OrderedMap.mem_keys.2 ⟨w, OrderedMap.get_eq_some.1 hw⟩

theorem entriesFor_delete : entriesFor (m.delete x) tag = (entriesFor m tag).erase x := by
  ext y
  rw [Finset.mem_erase, mem_entriesFor, mem_entriesFor]
  by_cases hy : y = x
  · simp [OrderedMap.get_delete, hy]
  · simp [OrderedMap.get_delete, hy]

theorem card_entriesFor_delete (h : m.get x = some w) :
    (entriesFor m tag).card =
      (entriesFor (m.delete x) tag).card + if tag = w.subscriptionTag then 1 else 0 := by
  rw [entriesFor_delete]
  split_ifs with htag
  · exact (Finset.card_erase_add_one (mem_entriesFor.2 ⟨w, h, htag.symm⟩)).symm
  · have hnot : x ∉ entriesFor m tag := by
      intro hx
      obtain ⟨w', hw', hsame⟩ := mem_entriesFor.1 hx
      obtain rfl := Option.some.inj (h.symm.trans hw')
      exact htag hsame.symm
    rw [Finset.erase_eq_of_notMem hnot, Nat.add_zero]

theorem card_entriesFor_set (h : x ∉ m.keys) :
    (entriesFor (m.set x w) tag).card =
      (entriesFor m tag).card + if tag = w.subscriptionTag then 1 else 0 := by
  have hnone : m.get x = none := OrderedMap.get_eq_none.2 h
  have hdelete : entriesFor ((m.set x w).delete x) tag = entriesFor m tag := by
    ext y
    rw [mem_entriesFor, mem_entriesFor, OrderedMap.get_delete, OrderedMap.get_set]
    by_cases hy : y = x
    · simp [hy, hnone]
    · simp [hy]
  rw [card_entriesFor_delete (m := m.set x w) (w := w) (x := x)
    (by rw [OrderedMap.get_set, if_pos rfl]), hdelete]

theorem loadFor_cons (b : WorkerBatch V) (batches : List (WorkerBatch V)) :
    loadFor (b :: batches) tag =
      (if b.tag = tag then load b else 0) + loadFor batches tag := List.sum_cons

end

/-! ## The property -/

/-- The supervisor is in the tables, and no stop has taken it off the lists of its parent. -/
def InUse (s : ConsumerSupervisor V) : Prop :=
  s.self.id ∈ s.tree.actors ∧ s.self.id ∉ s.tree.detached

instance (s : ConsumerSupervisor V) : Decidable (InUse s) :=
  inferInstanceAs (Decidable (s.self.id ∈ s.tree.actors ∧ s.self.id ∉ s.tree.detached))

def liveWorkers (s : ConsumerSupervisor V) : Finset ActorId := inService s.tree s.self.id

/-- The live workers for the events of a subscription, whether spawned for one or in the place of
a worker that was. -/
def workersOf (s : ConsumerSupervisor V) (tag : Tag) : Finset ActorId :=
  (liveWorkers s).filter fun x => s.startedFor (s.tree.lineage x) = some tag

/-- No restart of a worker is in progress, and no call of `handleEvents`. -/
def AtRest (s : ConsumerSupervisor V) : Prop :=
  owedTo s.tree.calls s.self.id = [] ∧ s.batches = []

/-- The live workers of each subscription that has asked its initial demand are its entries, and
with the released and the pending demand they make up its maximum. -/
def Accounted (s : ConsumerSupervisor V) : Prop :=
  InUse s → AtRest s → ∀ tag sub, s.subscriptions.get tag = some sub → tag ∉ s.unasked →
    workersOf s tag = entriesFor s.activeWorkers tag ∧
      ((workersOf s tag).card + s.released tag + sub.pendingDemand : Int) = sub.maxDemand

/-- While the supervisor is in use, no restart of a worker is begun, no batch is larger than the
pending demand, and a worker is there after its `init` has run exactly if that has not thrown. -/
def Admits (stringify : List V → String) (s : ConsumerSupervisor V)
    (a : ConsumerSupervisorAction V) : Prop :=
  InUse s → match a with
    | .events tag events => ∀ sub, s.subscriptions.get tag = some sub →
        (events.length : Int) ≤ sub.pendingDemand
    | .initReturns => ∀ w ∈ s.batches.head?.bind WorkerBatch.spawning, w.ref.id ∈ liveWorkers s
    | .initThrows => ∀ w ∈ s.batches.head?.bind WorkerBatch.spawning, w.ref.id ∉ liveWorkers s
    | .tree a => ∀ x ∈ begins stringify s.tree a, x ∉ childrenOf s.tree.toTables s.self.id
    | _ => True

/-! ## The invariant -/

/-- The workers with an entry are live and watched, and all others that are live are being
spawned. -/
structure Tracked (s : ConsumerSupervisor V) : Prop where
  kept : ∀ x ∈ s.activeWorkers.keys, x ∈ liveWorkers s ∧ x ∈ s.watched
  tracked : ∀ x ∈ liveWorkers s, x ∈ s.activeWorkers.keys ∨ x ∈ spawningIds s.batches
  apart : (spawningIds s.batches).Nodup
  waiting : ∀ x ∈ spawningIds s.batches, x ∉ s.activeWorkers.keys ∧ x < s.tree.nextId

/-- What there is for a tag came with a subscription. -/
structure Filed (s : ConsumerSupervisor V) : Prop where
  entries : ∀ x w, s.activeWorkers.get x = some w →
    s.startedFor (s.tree.lineage x) = some w.subscriptionTag ∧ w.subscriptionTag ∈ s.tags
  batches : ∀ b ∈ s.batches, b.tag ∈ s.tags ∧ ∀ w, b.spawning = some w →
    w.subscriptionTag = b.tag ∧ s.startedFor (s.tree.lineage w.ref.id) = some b.tag
  subscriptions : ∀ tag ∈ s.subscriptions.keys, tag ∈ s.tags
  unasked : s.unasked ⊆ s.tags

/-- The entries, the events still without one, and the released and the pending demand of a
subscription make up its maximum, but for what is missing. -/
def Balanced (s : ConsumerSupervisor V) (missing : Tag → Nat) : Prop :=
  ∀ tag sub, s.subscriptions.get tag = some sub →
    (((entriesFor s.activeWorkers tag).card + loadFor s.batches tag + s.released tag +
        missing tag : Nat) : Int) + sub.pendingDemand =
      if tag ∈ s.unasked then 0 else (sub.maxDemand : Int)

/-- One is missing for the tag. -/
def oneFor (tag : Tag) : Tag → Nat := fun tag' => if tag' = tag then 1 else 0

structure Books (s : ConsumerSupervisor V) : Prop where
  spared : Spared s.tree s.self.id
  tracked : Tracked s
  filed : Filed s
  balanced : Balanced s fun _ => 0

structure Kept (s : ConsumerSupervisor V) : Prop where
  regular : Regular s.tree s.self.id
  born : s.self.id < s.tree.nextId
  books : InUse s → Books s

theorem Books.accounted {s : ConsumerSupervisor V} (h : Books s) (hrest : s.batches = [])
    {tag : Tag} {sub : ConsumerSub} (hsub : s.subscriptions.get tag = some sub)
    (hasked : tag ∉ s.unasked) :
    workersOf s tag = entriesFor s.activeWorkers tag ∧
      ((workersOf s tag).card + s.released tag + sub.pendingDemand : Int) = sub.maxDemand := by
  have hsame : workersOf s tag = entriesFor s.activeWorkers tag := by
    ext x
    rw [workersOf, Finset.mem_filter, mem_entriesFor]
    constructor
    · rintro ⟨hlive, htag⟩
      have hkey : x ∈ s.activeWorkers.keys := by
        refine (h.tracked.tracked x hlive).resolve_right fun hx => ?_
        rw [hrest] at hx
        exact List.not_mem_nil hx
      obtain ⟨w, hw⟩ := OrderedMap.mem_keys.1 hkey
      have hget := OrderedMap.get_eq_some.2 hw
      exact ⟨w, hget, Option.some.inj ((h.filed.entries x w hget).1.symm.trans htag)⟩
    · rintro ⟨w, hw, rfl⟩
      exact ⟨(h.tracked.kept x (OrderedMap.mem_keys.2 ⟨w, OrderedMap.get_eq_some.1 hw⟩)).1,
        (h.filed.entries x w hw).1⟩
  refine ⟨hsame, ?_⟩
  have hbalance := h.balanced tag sub hsub
  rw [if_neg hasked, hrest, ← hsame] at hbalance
  rw [← hbalance]
  simp [loadFor]

theorem Kept.accounted {s : ConsumerSupervisor V} (h : Kept s) : Accounted s :=
  fun huse hrest _ _ hsub hasked => (h.books huse).accounted hrest.2 hsub hasked

/-! ## Demand -/

section
variable {s : ConsumerSupervisor V} {tag : Tag} {missing : Tag → Nat}

theorem released_set (s : ConsumerSupervisor V) (tag tag' : Tag) (n : Nat) :
    ConsumerSupervisor.released { s with releasedDemand := s.releasedDemand.set tag n } tag' =
      if tag' = tag then n else s.released tag' := by
  unfold ConsumerSupervisor.released
  dsimp only
  rw [OrderedMap.get_set]
  split_ifs <;> rfl

/-- What is missing is released. -/
theorem Balanced.release (h : Balanced s (oneFor tag)) : Balanced (s.release tag) fun _ => 0 := by
  intro tag' sub hsub
  have hbalance := h tag' sub hsub
  have hreleased : (s.release tag).released tag' =
      if tag' = tag then s.released tag + 1 else s.released tag' :=
    released_set s tag tag' _
  rw [oneFor] at hbalance
  change (((entriesFor s.activeWorkers tag').card + loadFor s.batches tag' +
    (s.release tag).released tag' + 0 : Nat) : Int) + sub.pendingDemand =
      if tag' ∈ s.unasked then 0 else (sub.maxDemand : Int)
  rw [hreleased, ← hbalance]
  by_cases htag : tag' = tag
  · subst htag
    rw [if_pos rfl, if_pos rfl]
    omega
  · rw [if_neg htag, if_neg htag]

/-- What is released is asked for. -/
theorem Balanced.maybeAskForMore (h : Balanced s missing) (sub : ConsumerSub) :
    Balanced (s.maybeAskForMore tag sub) missing := by
  unfold ConsumerSupervisor.maybeAskForMore
  split_ifs
  · intro tag' sub' hsub'
    have hget : (s.subscriptions.modify tag (·.ask (s.released tag))).get tag' = some sub' := hsub'
    have hreleased := released_set s tag tag' 0
    change (((entriesFor s.activeWorkers tag').card + loadFor s.batches tag' +
      ConsumerSupervisor.released { s with releasedDemand := s.releasedDemand.set tag 0 } tag' +
        missing tag' : Nat) : Int) + sub'.pendingDemand =
        if tag' ∈ s.unasked then 0 else (sub'.maxDemand : Int)
    rw [hreleased]
    rw [OrderedMap.get_modify] at hget
    split_ifs at hget with htag
    · obtain ⟨sub, hsub, rfl⟩ := Option.map_eq_some_iff.1 hget
      have hbalance := h tag' sub hsub
      subst htag
      rw [if_pos rfl]
      change _ + (sub.pendingDemand + (s.released tag' : Int)) =
        if tag' ∈ s.unasked then 0 else (sub.maxDemand : Int)
      rw [← hbalance]
      omega
    · rw [if_neg htag]
      exact h tag' sub' hget
  · exact h

/-- The tree, the workers and the batches are what `Tracked` is about. -/
theorem Tracked.maybeAskForMore (h : Tracked s) (tag : Tag) (sub : ConsumerSub) :
    Tracked (s.maybeAskForMore tag sub) := by
  unfold ConsumerSupervisor.maybeAskForMore
  split_ifs
  · exact ⟨h.kept, h.tracked, h.apart, h.waiting⟩
  · exact h

theorem Filed.maybeAskForMore (h : Filed s) (tag : Tag) (sub : ConsumerSub) :
    Filed (s.maybeAskForMore tag sub) := by
  unfold ConsumerSupervisor.maybeAskForMore
  split_ifs
  · refine ⟨h.entries, h.batches, fun tag' htag' => h.subscriptions tag' ?_, h.unasked⟩
    exact OrderedMap.keys_modify s.subscriptions tag (·.ask (s.released tag)) ▸ htag'
  · exact h

theorem tree_maybeAskForMore (sub : ConsumerSub) :
    (s.maybeAskForMore tag sub).tree = s.tree ∧ (s.maybeAskForMore tag sub).self = s.self := by
  unfold ConsumerSupervisor.maybeAskForMore
  split_ifs <;> exact ⟨rfl, rfl⟩

theorem Books.maybeAskForMore (h : Books s) (tag : Tag) (sub : ConsumerSub) :
    Books (s.maybeAskForMore tag sub) where
  spared := by
    have hsame : (s.maybeAskForMore tag sub).tree = s.tree ∧ _ := tree_maybeAskForMore sub
    obtain ⟨htree, hself⟩ := hsame
    rw [htree, hself]
    exact h.spared
  tracked := h.tracked.maybeAskForMore tag sub
  filed := h.filed.maybeAskForMore tag sub
  balanced := h.balanced.maybeAskForMore sub

end

/-! ## Subscriptions -/

section
variable {s s' : ConsumerSupervisor V} {tag : Tag}

theorem Filed.empty (h : Filed s) (hnew : tag ∉ s.tags) :
    entriesFor s.activeWorkers tag = ∅ ∧ loadFor s.batches tag = 0 := by
  constructor
  · refine Finset.eq_empty_of_forall_notMem fun x hx => ?_
    obtain ⟨w, hw, rfl⟩ := mem_entriesFor.1 hx
    exact hnew (h.entries x w hw).2
  · refine List.sum_eq_zero fun n hn => ?_
    obtain ⟨b, hb, rfl⟩ := List.mem_map.1 hn
    refine if_neg ?_
    rintro rfl
    exact hnew (h.batches b hb).1

theorem Books.subscribe (h : Books s) {producerRef : ActorRef String}
    {options : SubscriptionOptions} (hst : s.subscribe tag producerRef options = some s') :
    Books s' := by
  unfold ConsumerSupervisor.subscribe at hst
  split_ifs at hst with hnew
  cases hst
  have hmem : ∀ {tag'}, tag' ∈ s.tags → tag' ∈ insert tag s.tags := Finset.mem_insert_of_mem
  refine ⟨h.spared, ⟨h.tracked.kept, h.tracked.tracked, h.tracked.apart, h.tracked.waiting⟩,
    ⟨?_, ?_, ?_, ?_⟩, ?_⟩
  · exact fun x w hw => ⟨(h.filed.entries x w hw).1, hmem (h.filed.entries x w hw).2⟩
  · exact fun b hb => ⟨hmem (h.filed.batches b hb).1, (h.filed.batches b hb).2⟩
  · intro tag' htag'
    rcases OrderedMap.mem_keys_set.1 htag' with hold | rfl
    · exact hmem (h.filed.subscriptions tag' hold)
    · exact Finset.mem_insert_self _ _
  · exact Finset.insert_subset_insert tag h.filed.unasked
  · intro tag' sub hsub
    have hget : (s.subscriptions.set tag (options.sub producerRef)).get tag' = some sub := hsub
    have hreleased := released_set s tag tag' 0
    change (((entriesFor s.activeWorkers tag').card + loadFor s.batches tag' +
      ConsumerSupervisor.released { s with releasedDemand := s.releasedDemand.set tag 0 } tag' +
        0 : Nat) : Int) + sub.pendingDemand =
        if tag' ∈ insert tag s.unasked then 0 else (sub.maxDemand : Int)
    rw [hreleased]
    rw [OrderedMap.get_set] at hget
    by_cases htag : tag' = tag
    · subst htag
      rw [if_pos rfl] at hget
      cases hget
      obtain ⟨hentries, hload⟩ := h.filed.empty hnew
      rw [if_pos rfl, if_pos (Finset.mem_insert_self _ _), hentries, hload]
      rfl
    · rw [if_neg htag] at hget
      have hunasked : tag' ∈ insert tag s.unasked ↔ tag' ∈ s.unasked :=
        ⟨fun hin => (Finset.mem_insert.1 hin).resolve_left htag, Finset.mem_insert_of_mem⟩
      rw [if_neg htag]
      rw [if_congr hunasked rfl rfl]
      exact h.balanced tag' sub hget

theorem Books.deferredAsk (h : Books s) (hst : s.deferredAsk tag = some s') : Books s' := by
  unfold ConsumerSupervisor.deferredAsk at hst
  split_ifs at hst with hunasked
  dsimp only at hst
  have hother : ∀ {tag'}, tag' ≠ tag → (tag' ∈ s.unasked.erase tag ↔ tag' ∈ s.unasked) :=
    fun hne => ⟨Finset.mem_of_mem_erase, fun hin => Finset.mem_erase.2 ⟨hne, hin⟩⟩
  have hsubset : s.unasked.erase tag ⊆ s.tags :=
    (Finset.erase_subset _ _).trans h.filed.unasked
  have htracked := h.tracked
  split at hst
  · next hnone =>
      cases hst
      refine ⟨h.spared, ⟨htracked.kept, htracked.tracked, htracked.apart, htracked.waiting⟩,
        ⟨h.filed.entries, h.filed.batches, h.filed.subscriptions, hsubset⟩, ?_⟩
      intro tag' sub hsub
      have hne : tag' ≠ tag := by
        rintro rfl
        exact absurd (hsub.symm.trans hnone) (Option.some_ne_none _)
      change _ = if tag' ∈ s.unasked.erase tag then 0 else (sub.maxDemand : Int)
      rw [if_congr (hother hne) rfl rfl]
      exact h.balanced tag' sub hsub
  · next sub hsub =>
      cases hst
      refine ⟨h.spared, ⟨htracked.kept, htracked.tracked, htracked.apart, htracked.waiting⟩,
        ⟨h.filed.entries, h.filed.batches, fun tag' htag' => h.filed.subscriptions tag' ?_,
          hsubset⟩, ?_⟩
      · exact OrderedMap.keys_modify s.subscriptions tag (·.ask sub.maxDemand) ▸ htag'
      · intro tag' sub' hsub'
        have hget : (s.subscriptions.modify tag (·.ask sub.maxDemand)).get tag' = some sub' := hsub'
        rw [OrderedMap.get_modify_of hsub] at hget
        split_ifs at hget with htag
        · subst htag
          cases hget
          have hbalance := h.balanced tag' sub hsub
          rw [if_pos hunasked] at hbalance
          change _ + (sub.pendingDemand + (sub.maxDemand : Int)) =
            if tag' ∈ s.unasked.erase tag' then 0 else (sub.maxDemand : Int)
          rw [if_neg (Finset.notMem_erase _ _), ← Int.add_assoc]
          exact (congrArg (· + (sub.maxDemand : Int)) hbalance).trans (Int.zero_add _)
        · change _ = if tag' ∈ s.unasked.erase tag then 0 else (sub'.maxDemand : Int)
          rw [if_congr (hother htag) rfl rfl]
          exact h.balanced tag' sub' hget

/-- A subscription that is gone is nobody's. -/
theorem Books.cancel (h : Books s) {subscriptions : OrderedMap Tag ConsumerSub}
    {releasedDemand : OrderedMap Tag Nat} {sent : List ConsumerCast}
    (hgone : ∀ tag sub, subscriptions.get tag = some sub → s.subscriptions.get tag = some sub ∧
      releasedDemand.get tag = s.releasedDemand.get tag) :
    Books { s with
      subscriptions := subscriptions
      releasedDemand := releasedDemand
      sent := sent } := by
  have htracked := h.tracked
  refine ⟨h.spared, ⟨htracked.kept, htracked.tracked, htracked.apart, htracked.waiting⟩,
    ⟨h.filed.entries, h.filed.batches, fun tag htag => ?_, h.filed.unasked⟩, fun tag sub hsub => ?_⟩
  · obtain ⟨sub, hsub⟩ := OrderedMap.mem_keys.1 htag
    refine h.filed.subscriptions tag (OrderedMap.mem_keys.2 ⟨sub, ?_⟩)
    exact OrderedMap.get_eq_some.1 (hgone tag sub (OrderedMap.get_eq_some.2 hsub)).1
  · obtain ⟨hold, hreleased⟩ := hgone tag sub hsub
    have hbalance := h.balanced tag sub hold
    unfold ConsumerSupervisor.released at hbalance ⊢
    dsimp only at hbalance ⊢
    rw [hreleased]
    exact hbalance

theorem Books.delete (h : Books s) (tag : Tag) (sent : List ConsumerCast) :
    Books { s with
      subscriptions := s.subscriptions.delete tag
      releasedDemand := s.releasedDemand.delete tag
      sent := sent } := by
  refine h.cancel fun tag' sub hsub => ?_
  rw [OrderedMap.get_delete] at hsub ⊢
  split_ifs at hsub with htag
  exact ⟨hsub, if_neg htag⟩

theorem Books.cancelSubscription (h : Books s) (tag : Tag) (reason : String) :
    Books (s.cancelSubscription tag reason) := by
  unfold ConsumerSupervisor.cancelSubscription
  split
  · exact h
  · exact h.delete tag _

theorem Books.cancelAll (h : Books s) (reason : String) : Books (s.cancelAll reason) :=
  h.cancel fun _ _ hsub => nomatch hsub

end

/-! ## Events -/

section
variable {s s' : ConsumerSupervisor V} {tag : Tag} {events : List V} {b : WorkerBatch V}
  {outer : List (WorkerBatch V)}

theorem spawningIds_cons (b : WorkerBatch V) (batches : List (WorkerBatch V)) :
    spawningIds (b :: batches) =
      (b.spawning.map fun worker => worker.ref.id).toList ++ spawningIds batches := by
  obtain ⟨tag, sub, events, spawning⟩ := b
  cases spawning <;> rfl

theorem Books.handleEvents (h : Books s) (hfits : ∀ sub, s.subscriptions.get tag = some sub →
    (events.length : Int) ≤ sub.pendingDemand) : Books (s.handleEvents tag events) := by
  unfold ConsumerSupervisor.handleEvents
  split
  · exact h
  · next sub hsub =>
      have htracked := h.tracked
      refine ⟨h.spared, ⟨htracked.kept, htracked.tracked, htracked.apart, htracked.waiting⟩,
        ⟨h.filed.entries, fun b hb => ?_, fun tag' htag' => h.filed.subscriptions tag' ?_,
          h.filed.unasked⟩, ?_⟩
      · rcases List.mem_cons.1 hb with rfl | hb
        · refine ⟨h.filed.subscriptions tag ?_, nofun⟩
          exact OrderedMap.mem_keys.2 ⟨sub, OrderedMap.get_eq_some.1 hsub⟩
        · exact h.filed.batches b hb
      · exact OrderedMap.keys_modify s.subscriptions tag (fun _ => sub.take events.length) ▸ htag'
      · intro tag' sub' hsub'
        have hget : (s.subscriptions.modify tag fun _ => sub.take events.length).get tag' =
          some sub' := hsub'
        change (((entriesFor s.activeWorkers tag').card +
          loadFor (⟨tag, sub.take events.length, events, none⟩ :: s.batches) tag' +
            s.released tag' + 0 : Nat) : Int) + sub'.pendingDemand =
            if tag' ∈ s.unasked then 0 else (sub'.maxDemand : Int)
        rw [loadFor_cons]
        rw [OrderedMap.get_modify_of hsub] at hget
        split_ifs at hget with htag
        · subst htag
          cases hget
          have hbalance := h.balanced tag' sub hsub
          have hfit := hfits sub hsub
          dsimp only at hbalance
          change _ + max 0 (sub.pendingDemand - (events.length : Int)) =
            if tag' ∈ s.unasked then 0 else (sub.maxDemand : Int)
          rw [← hbalance, if_pos rfl, max_eq_right (by omega)]
          change (((entriesFor s.activeWorkers tag').card +
            ((events.length + 0) + loadFor s.batches tag') + s.released tag' + 0 : Nat) : Int) +
              (sub.pendingDemand - (events.length : Int)) = _
          omega
        · rw [if_neg fun heq => htag heq.symm, Nat.zero_add]
          exact h.balanced tag' sub' hget

/-- The next event of a batch comes to nothing, and its worker, if there was one, is not there. -/
theorem Books.fails (h : Books s) (hbatches : s.batches = b :: outer)
    (hload : load b = events.length + 1)
    (hnot : ∀ w, b.spawning = some w → w.ref.id ∉ liveWorkers s) :
    Books { s.release b.tag with batches := ⟨b.tag, b.sub, events, none⟩ :: outer } := by
  have hids : spawningIds s.batches =
      (b.spawning.map fun worker => worker.ref.id).toList ++ spawningIds outer := by
    rw [hbatches, spawningIds_cons]
  have hsub : (spawningIds outer).Sublist (spawningIds s.batches) := by
    rw [hids]
    exact List.sublist_append_right _ _
  have htracked := h.tracked
  refine ⟨h.spared, ⟨htracked.kept, fun x hx => ?_, htracked.apart.sublist hsub,
    fun x hx => htracked.waiting x (hsub.subset hx)⟩,
    ⟨h.filed.entries, fun b' hb' => ?_, h.filed.subscriptions, h.filed.unasked⟩, ?_⟩
  · refine (htracked.tracked x hx).imp_right fun hin => ?_
    rw [hids] at hin
    refine (List.mem_append.1 hin).resolve_left fun hspawning => ?_
    obtain ⟨w, hw, rfl⟩ := Option.map_eq_some_iff.1 (Option.mem_toList.1 hspawning)
    exact hnot w hw hx
  · have hold := h.filed.batches
    rw [hbatches] at hold
    rcases List.mem_cons.1 hb' with rfl | hb'
    · exact ⟨(hold b List.mem_cons_self).1, nofun⟩
    · exact hold b' (List.mem_cons_of_mem b hb')
  · have hmissing : Balanced { s with batches := ⟨b.tag, b.sub, events, none⟩ :: outer }
        (oneFor b.tag) := by
      intro tag' sub' hsub'
      have hbalance := h.balanced tag' sub' hsub'
      rw [hbatches, loadFor_cons, hload] at hbalance
      dsimp only at hbalance
      change (((entriesFor s.activeWorkers tag').card +
        loadFor (⟨b.tag, b.sub, events, none⟩ :: outer) tag' + s.released tag' +
          oneFor b.tag tag' : Nat) : Int) + sub'.pendingDemand = _
      rw [loadFor_cons, oneFor]
      by_cases htag : b.tag = tag'
      · rw [if_pos htag] at hbalance
        rw [← hbalance, if_pos htag, if_pos htag.symm]
        change (((entriesFor s.activeWorkers tag').card +
          ((events.length + 0) + loadFor outer tag') + s.released tag' + 1 : Nat) : Int) +
            sub'.pendingDemand = _
        omega
      · rw [if_neg htag] at hbalance
        rw [← hbalance, if_neg htag, if_neg fun heq => htag heq.symm]
    exact hmissing.release

theorem Books.initThrows (h : Books s) (hst : s.initThrows = some s')
    (hnot : ∀ w ∈ s.batches.head?.bind WorkerBatch.spawning, w.ref.id ∉ liveWorkers s) :
    Books s' := by
  unfold ConsumerSupervisor.initThrows at hst
  split at hst
  · next tag sub events worker outer hbatches =>
      cases hst
      refine h.fails hbatches rfl fun w hw => hnot w ?_
      rw [hbatches]
      exact hw
  · cases hst

theorem Books.batchEnds (h : Books s) (hst : s.batchEnds = some s') : Books s' := by
  unfold ConsumerSupervisor.batchEnds at hst
  split at hst
  · next tag sub outer hbatches =>
      cases hst
      have hids : spawningIds s.batches = spawningIds outer := by
        rw [hbatches]
        rfl
      have htracked := h.tracked
      have hbatched : ∀ b ∈ outer, b ∈ s.batches := fun b hb =>
        hbatches ▸ List.mem_cons_of_mem _ hb
      have hbooks : Books { s with batches := outer } := by
        refine ⟨h.spared, ⟨htracked.kept, hids ▸ htracked.tracked, hids ▸ htracked.apart,
          hids ▸ htracked.waiting⟩, ⟨h.filed.entries, fun b hb => h.filed.batches b (hbatched b hb),
            h.filed.subscriptions, h.filed.unasked⟩, fun tag' sub' hsub' => ?_⟩
        have hload : loadFor s.batches tag' = loadFor outer tag' := by
          rw [hbatches, loadFor_cons]
          split_ifs <;> exact Nat.zero_add _
        have hbalance := h.balanced tag' sub' hsub'
        rw [hload] at hbalance
        exact hbalance
      exact hbooks.maybeAskForMore tag sub
  · cases hst

/-- The worker is there, so it gets its entry. -/
theorem Books.initReturns (h : Books s) (hst : s.initReturns = some s')
    (hlive : ∀ w ∈ s.batches.head?.bind WorkerBatch.spawning, w.ref.id ∈ liveWorkers s) :
    Books s' := by
  unfold ConsumerSupervisor.initReturns at hst
  split at hst
  · next tag sub events worker outer hbatches =>
      cases hst
      have hthere : worker.ref.id ∈ liveWorkers s := hlive worker (by rw [hbatches]; rfl)
      have hids : spawningIds s.batches = worker.ref.id :: spawningIds outer := by
        rw [hbatches]
        rfl
      have htracked := h.tracked
      have hapart := htracked.apart
      rw [hids] at hapart
      obtain ⟨hfresh, hnodup⟩ := List.nodup_cons.1 hapart
      have hnew : worker.ref.id ∉ s.activeWorkers.keys :=
        (htracked.waiting _ (hids ▸ List.mem_cons_self)).1
      obtain ⟨hknown, hspawning⟩ := h.filed.batches _ (hbatches ▸ List.mem_cons_self)
      obtain ⟨htag, hstarted⟩ := hspawning worker rfl
      refine ⟨h.spared, ⟨fun x hx => ?_, fun x hx => ?_, hnodup, fun x hx => ?_⟩,
        ⟨fun x w hw => ?_, fun b hb => ?_, h.filed.subscriptions, h.filed.unasked⟩, ?_⟩
      · rcases OrderedMap.mem_keys_set.1 hx with hx | rfl
        · exact ⟨(htracked.kept x hx).1, Finset.mem_insert_of_mem (htracked.kept x hx).2⟩
        · exact ⟨hthere, Finset.mem_insert_self _ _⟩
      · rcases htracked.tracked x hx with hx | hx
        · exact .inl (OrderedMap.mem_keys_set.2 (.inl hx))
        · rw [hids] at hx
          exact (List.mem_cons.1 hx).imp_left fun heq => OrderedMap.mem_keys_set.2 (.inr heq)
      · obtain ⟨hnot, hlt⟩ := htracked.waiting x (hids ▸ List.mem_cons_of_mem _ hx)
        refine ⟨fun hin => (OrderedMap.mem_keys_set.1 hin).elim hnot ?_, hlt⟩
        rintro rfl
        exact hfresh hx
      · have hget : (s.activeWorkers.set worker.ref.id worker).get x = some w := hw
        rw [OrderedMap.get_set] at hget
        split_ifs at hget with hx
        · cases hget
          rw [hx, htag]
          exact ⟨hstarted, hknown⟩
        · exact h.filed.entries x w hget
      · have hold := h.filed.batches
        rw [hbatches] at hold
        rcases List.mem_cons.1 hb with rfl | hb
        · exact ⟨hknown, fun _ hw => by cases hw⟩
        · exact hold b (List.mem_cons_of_mem _ hb)
      · intro tag' sub' hsub'
        have hbalance := h.balanced tag' sub' hsub'
        rw [hbatches, loadFor_cons] at hbalance
        dsimp only at hbalance
        change (((entriesFor (s.activeWorkers.set worker.ref.id worker) tag').card +
          loadFor (⟨tag, sub, events, none⟩ :: outer) tag' + s.released tag' + 0 : Nat) : Int) +
            sub'.pendingDemand = _
        rw [card_entriesFor_set hnew, loadFor_cons, htag]
        by_cases heq : tag = tag'
        · rw [if_pos heq] at hbalance
          rw [← hbalance, if_pos heq.symm, if_pos heq]
          change (((entriesFor s.activeWorkers tag').card + 1 +
            ((events.length + 0) + loadFor outer tag') + s.released tag' + 0 : Nat) : Int) +
              sub'.pendingDemand = (((entriesFor s.activeWorkers tag').card +
                ((events.length + 1) + loadFor outer tag') + s.released tag' + 0 : Nat) : Int) +
                  sub'.pendingDemand
          omega
        · rw [if_neg heq] at hbalance
          rw [← hbalance, if_neg fun hsame => heq hsame.symm, if_neg heq]
          rfl
  · cases hst

end

/-! ## Workers -/

section
variable {s s' : ConsumerSupervisor V} {x : ActorId} {tree : Tree String V}
  {watched : Finset ActorId} {workers : OrderedMap ActorId (ActiveWorker V)}

theorem mem_spawningIds {batches : List (WorkerBatch V)} {b : WorkerBatch V} {w : ActiveWorker V}
    (hb : b ∈ batches) (hw : b.spawning = some w) : w.ref.id ∈ spawningIds batches :=
  List.mem_filterMap.2 ⟨b, hb, by rw [hw]; rfl⟩

theorem Tracked.lt (h : Tracked s) (hregular : Regular s.tree s.self.id)
    (hx : x ∈ s.activeWorkers.keys ∨ x ∈ spawningIds s.batches) : x < s.tree.nextId := by
  rcases hx with hx | hx
  · have hchild := (mem_inService.1 (h.kept x hx).1).1
    have hsound := hregular.orderly.sound.tables
    exact hsound.lt_of_live ((mem_childrenOf hsound).1 hchild).1
  · exact (h.waiting x hx).2

/-- The node has made a step, and the entry of the worker that went out of service, if one did,
is gone. -/
theorem Tracked.adopt (h : Tracked s) {out : Option ActorId}
    (hlive : ∀ y, y ∈ inService tree s.self.id ↔ y ∈ liveWorkers s ∧ out ≠ some y)
    (hnext : s.tree.nextId ≤ tree.nextId)
    (hkeys : ∀ y, y ∈ workers.keys ↔ y ∈ s.activeWorkers.keys ∧ out ≠ some y)
    (hwatched : ∀ y ∈ s.watched, out ≠ some y → y ∈ watched) :
    Tracked { s with
      tree := tree
      watched := watched
      activeWorkers := workers } where
  kept := by
    intro y hy
    obtain ⟨hold, hne⟩ := (hkeys y).1 hy
    obtain ⟨hthere, hwatch⟩ := h.kept y hold
    exact ⟨(hlive y).2 ⟨hthere, hne⟩, hwatched y hwatch hne⟩
  tracked := by
    intro y hy
    obtain ⟨hthere, hne⟩ := (hlive y).1 hy
    exact (h.tracked y hthere).imp_left fun hold => (hkeys y).2 ⟨hold, hne⟩
  apart := h.apart
  waiting := by
    intro y hy
    obtain ⟨hnot, hlt⟩ := h.waiting y hy
    exact ⟨fun hin => hnot ((hkeys y).1 hin).1, Nat.lt_of_lt_of_le hlt hnext⟩

theorem Filed.adopt (h : Filed s)
    (hlineage : ∀ y, y ∈ s.activeWorkers.keys ∨ y ∈ spawningIds s.batches →
      tree.lineage y = s.tree.lineage y)
    (hsub : ∀ y w, workers.get y = some w → s.activeWorkers.get y = some w) :
    Filed { s with
      tree := tree
      watched := watched
      activeWorkers := workers } where
  entries := by
    intro y w hw
    have hold := hsub y w hw
    change s.startedFor (tree.lineage y) = some w.subscriptionTag ∧ _
    rw [hlineage y (.inl (OrderedMap.mem_keys.2 ⟨w, OrderedMap.get_eq_some.1 hold⟩))]
    exact h.entries y w hold
  batches := by
    intro b hb
    refine ⟨(h.batches b hb).1, fun w hw => ?_⟩
    change _ ∧ s.startedFor (tree.lineage w.ref.id) = some b.tag
    rw [hlineage _ (.inr (mem_spawningIds hb hw))]
    exact (h.batches b hb).2 w hw
  subscriptions := h.subscriptions
  unasked := h.unasked

/-- The watch of a worker is over, and its entry is gone. -/
def down (s : ConsumerSupervisor V) (x : ActorId) : ConsumerSupervisor V :=
  { s with
    watched := s.watched.erase x
    activeWorkers := s.activeWorkers.delete x }

theorem notify_of_none (hself : s.self.id ∈ s.tree.actors) (hx : s.activeWorkers.get x = none) :
    s.notify x = down s x := by
  have hdelete : s.activeWorkers.delete x = s.activeWorkers :=
    OrderedMap.delete_of_not_mem (OrderedMap.get_eq_none.1 hx)
  unfold ConsumerSupervisor.notify down
  rw [hdelete]
  split_ifs with hwatched
  · dsimp only
    rw [if_pos hself, ConsumerSupervisor.handleWorkerDown, hx]
  · rw [Finset.erase_eq_of_notMem hwatched]

theorem notify_of_some (hself : s.self.id ∈ s.tree.actors) {w : ActiveWorker V}
    (hx : s.activeWorkers.get x = some w) (hwatched : x ∈ s.watched) :
    s.notify x = match s.subscriptions.get w.subscriptionTag with
      | none => down s x
      | some sub =>
          ((down s x).release w.subscriptionTag).maybeAskForMore w.subscriptionTag sub := by
  unfold ConsumerSupervisor.notify
  rw [if_pos hwatched]
  dsimp only
  rw [if_pos hself, ConsumerSupervisor.handleWorkerDown, hx]
  rfl

/-- A worker that is down is missing until it is released. -/
theorem Balanced.down (h : Balanced s fun _ => 0) {w : ActiveWorker V}
    (hx : s.activeWorkers.get x = some w) : Balanced (down s x) (oneFor w.subscriptionTag) := by
  intro tag sub hsub
  have hbalance := h tag sub hsub
  rw [card_entriesFor_delete hx] at hbalance
  dsimp only at hbalance
  change (((entriesFor (s.activeWorkers.delete x) tag).card + loadFor s.batches tag +
    s.released tag + (if tag = w.subscriptionTag then 1 else 0) : Nat) : Int) +
      sub.pendingDemand = if tag ∈ s.unasked then 0 else (sub.maxDemand : Int)
  rw [← hbalance]
  omega

theorem Books.notify (hself : s.self.id ∈ s.tree.actors)
    (hwatched : x ∈ s.activeWorkers.keys → x ∈ s.watched) (hspared : Spared s.tree s.self.id)
    (htracked : Tracked (down s x)) (hfiled : Filed (down s x))
    (hbalanced : Balanced s fun _ => 0) : Books (s.notify x) := by
  cases hx : s.activeWorkers.get x with
  | none =>
      rw [notify_of_none hself hx]
      refine ⟨hspared, htracked, hfiled, ?_⟩
      have hdelete : s.activeWorkers.delete x = s.activeWorkers :=
        OrderedMap.delete_of_not_mem (OrderedMap.get_eq_none.1 hx)
      unfold down
      rw [hdelete]
      exact hbalanced
  | some w =>
      have hkey : x ∈ s.activeWorkers.keys :=
        OrderedMap.mem_keys.2 ⟨w, OrderedMap.get_eq_some.1 hx⟩
      have hmissing := hbalanced.down hx
      rw [notify_of_some hself hx (hwatched hkey)]
      split
      · next hnone =>
          refine ⟨hspared, htracked, hfiled, fun tag sub hsub => ?_⟩
          have hne : tag ≠ w.subscriptionTag := by
            rintro rfl
            exact absurd (hsub.symm.trans hnone) nofun
          have hbalance := hmissing tag sub hsub
          rw [oneFor, if_neg hne] at hbalance
          exact hbalance
      · next sub hsub =>
          have hbooks : Books ((down s x).release w.subscriptionTag) :=
            ⟨hspared, ⟨htracked.kept, htracked.tracked, htracked.apart, htracked.waiting⟩,
              ⟨hfiled.entries, hfiled.batches, hfiled.subscriptions, hfiled.unasked⟩,
              hmissing.release⟩
          exact hbooks.maybeAskForMore w.subscriptionTag sub

end

/-! ## Runs -/

namespace Kept

section
variable {s s' : ConsumerSupervisor V} {tree : Tree String V} {stringify : List V → String}
  {a : TreeAction String V}

/-- A supervisor that is in use has been all the time. -/
theorem inUse_of_step (h : Kept s) (hstep : s.tree.step stringify a = some tree)
    (huse : s.self.id ∈ tree.actors ∧ s.self.id ∉ tree.detached) : InUse s := by
  have hext := steps_extends (step_cases hstep)
  exact ⟨hext.actors _ huse.1 h.born, fun hdetached => huse.2 (hext.detached _ hdetached)⟩

theorem not_reached (hreaches : s.reaches a = false) :
    (∀ q actorClass options, a = .spawnChild q actorClass options → q.id ≠ s.self.id) ∧
      ∀ x, a = .migrate x → x ∉ childrenOf s.tree.toTables s.self.id := by
  constructor
  · rintro q actorClass options rfl
    exact of_decide_eq_false hreaches
  · rintro x rfl hx
    obtain ⟨q, hq, hself⟩ := Option.map_eq_some_iff.1 (Finset.mem_filter.1 hx).2
    unfold ConsumerSupervisor.reaches at hreaches
    dsimp only at hreaches
    rw [hq] at hreaches
    exact of_decide_eq_false hreaches hself

theorem not_leaving (hstep : s.tree.step stringify a = some tree)
    (huse : s.self.id ∉ tree.detached) :
    (resumedFrame s.tree a).bind (departing s.tree.toTables) ≠ some s.self.id := by
  intro hleaves
  rw [detached_step hstep, hleaves] at huse
  exact huse (Finset.mem_insert_self _ _)

theorem tree_handleWorkerDown (s : ConsumerSupervisor V) (x : ActorId) :
    (s.handleWorkerDown x).tree = s.tree ∧ (s.handleWorkerDown x).self = s.self := by
  unfold ConsumerSupervisor.handleWorkerDown
  split
  · exact ⟨rfl, rfl⟩
  · dsimp only
    split
    · exact ⟨rfl, rfl⟩
    · exact tree_maybeAskForMore _

theorem tree_notify (s : ConsumerSupervisor V) (x : ActorId) :
    (s.notify x).tree = s.tree ∧ (s.notify x).self = s.self := by
  unfold ConsumerSupervisor.notify
  dsimp only
  split_ifs
  · exact tree_handleWorkerDown _ x
  · exact ⟨rfl, rfl⟩
  · exact ⟨rfl, rfl⟩

/-- The accounts of a supervisor that stays in use agree with the node after its step. -/
theorem books_stepTree (h : Kept s) (hbooks : Books s)
    (hstep : s.tree.step stringify a = some tree) (hlive : s.self.id ∈ tree.actors)
    (hreaches : s.reaches a = false)
    (hquiet : ∀ x ∈ begins stringify s.tree a, x ∉ childrenOf s.tree.toTables s.self.id) :
    Books (match notified stringify s.tree a with
      | none => { s with tree := tree }
      | some x => ConsumerSupervisor.notify { s with tree := tree } x) := by
  have hext := steps_extends (step_cases hstep)
  have htracked := hbooks.tracked
  obtain ⟨hspawn, hmigrate⟩ := not_reached hreaches
  have hspared := hbooks.spared.step h.regular hstep hquiet hmigrate
  have hservice : ∀ y, y ∈ inService tree s.self.id ↔
      y ∈ liveWorkers s ∧ notified stringify s.tree a ≠ some y :=
    fun y => mem_inService_step h.regular hbooks.spared hstep hspawn
  have hlineage : ∀ y, y ∈ s.activeWorkers.keys ∨ y ∈ spawningIds s.batches →
      tree.lineage y = s.tree.lineage y :=
    fun y hy => hext.lineage y (htracked.lt h.regular hy)
  cases hout : notified stringify s.tree a with
  | none =>
      rw [hout] at hservice
      refine ⟨hspared, ?_, ?_, hbooks.balanced⟩
      · exact htracked.adopt hservice hext.nextId (fun y => by simp) fun y hy _ => hy
      · exact hbooks.filed.adopt hlineage fun _ _ hw => hw
  | some x =>
      rw [hout] at hservice
      refine Books.notify (s := { s with tree := tree }) hlive (fun hx => (htracked.kept x hx).2)
        hspared ?_ ?_ hbooks.balanced
      · refine htracked.adopt hservice hext.nextId (fun y => ?_) fun y hy hne => ?_
        · rw [OrderedMap.mem_keys_delete, ne_eq, ne_eq, Option.some.injEq, eq_comm]
        · exact Finset.mem_erase.2 ⟨fun heq => hne (congrArg some heq.symm), hy⟩
      · refine hbooks.filed.adopt hlineage fun y w hw => ?_
        rw [OrderedMap.get_delete] at hw
        split_ifs at hw
        exact hw

/-- Something happens on the node. -/
theorem stepTree (h : Kept s) (hst : s.stepTree stringify a = some s')
    (hreaches : s.reaches a = false)
    (hquiet : InUse s → ∀ x ∈ begins stringify s.tree a, x ∉ childrenOf s.tree.toTables s.self.id) :
    Kept s' := by
  obtain ⟨tree, hstep, hs'⟩ := Option.map_eq_some_iff.1 hst
  have hext := steps_extends (step_cases hstep)
  have hsame : s'.tree = tree ∧ s'.self = s.self := by
    rw [← hs']
    dsimp only
    split
    · exact ⟨rfl, rfl⟩
    · exact tree_notify _ _
  obtain ⟨htree, hself⟩ := hsame
  refine ⟨?_, ?_, fun huse => ?_⟩
  · rw [htree, hself]
    exact h.regular.step hstep
  · rw [htree, hself]
    exact Nat.lt_of_lt_of_le h.born hext.nextId
  · rw [InUse, htree, hself] at huse
    have hinUse := h.inUse_of_step hstep huse
    have hbooks := h.books_stepTree (h.books hinUse) hstep huse.1 hreaches (hquiet hinUse)
    rw [← hs']
    dsimp only
    rw [if_neg (not_leaving hstep huse.2)]
    exact hbooks

/-- Only the accounts change. -/
theorem of_same (h : Kept s) (htree : s'.tree = s.tree) (hself : s'.self = s.self)
    (hbooks : InUse s → Books s') : Kept s' := by
  refine ⟨?_, ?_, fun huse => hbooks ?_⟩
  · rw [htree, hself]
    exact h.regular
  · rw [htree, hself]
    exact h.born
  · rwa [InUse, htree, hself] at huse

/-- A worker is spawned for the next event. -/
theorem books_spawns (h : Kept s) (hbooks : Books s) {tag : Tag} {sub : ConsumerSub} {event : V}
    {events : List V} {outer : List (WorkerBatch V)} {name : Option String}
    (hbatches : s.batches = ⟨tag, sub, event :: events, none⟩ :: outer)
    (hlive : s.self.id ∈ s.tree.actors) {actorClass : String} {options : SpawnOptions V}
    (hstep : s.tree.step stringify (.spawnChild s.self actorClass options) = some tree) :
    Books { s with
      tree := tree
      batches := ⟨tag, sub, events, some ⟨⟨s.tree.id, s.tree.nextId, name, 0⟩, event, tag⟩⟩ :: outer
      startedFor := Function.update s.startedFor s.tree.nextId (some tag) } := by
  have hext := steps_extends (step_cases hstep)
  have htracked := hbooks.tracked
  have hservice : inService tree s.self.id = insert s.tree.nextId (liveWorkers s) :=
    inService_spawnChild h.regular rfl hlive hstep
  have hspared := hbooks.spared.step h.regular hstep (fun x hx => (List.not_mem_nil hx).elim) nofun
  have hnext : tree.nextId = s.tree.nextId + 1 ∧ tree.lineage s.tree.nextId = s.tree.nextId := by
    cases hstep
    unfold Tables.spawnChild
    rw [if_pos hlive]
    exact ⟨rfl, Function.update_self _ _ _⟩
  have hids : spawningIds s.batches = spawningIds outer := by
    rw [hbatches]
    rfl
  have hfresh : s.tree.nextId ∉ spawningIds outer := fun hx =>
    absurd (htracked.waiting _ (hids ▸ hx)).2 (Nat.lt_irrefl _)
  have hstarted : ∀ y, y ∈ s.activeWorkers.keys ∨ y ∈ spawningIds s.batches →
      Function.update s.startedFor s.tree.nextId (some tag) (tree.lineage y) =
        s.startedFor (s.tree.lineage y) := by
    intro y hy
    have hlt := htracked.lt h.regular hy
    rw [hext.lineage y hlt, Function.update_of_ne]
    exact (h.regular.orderly.sound.tables.lineage_lt y hlt).ne
  have hknown : tag ∈ s.tags := (hbooks.filed.batches _ (hbatches ▸ List.mem_cons_self)).1
  refine ⟨hspared, ⟨fun y hy => ?_, fun y hy => ?_, ?_, fun y hy => ?_⟩,
    ⟨fun y w hw => ?_, fun b hb => ?_, hbooks.filed.subscriptions, hbooks.filed.unasked⟩, ?_⟩
  · obtain ⟨hthere, hwatch⟩ := htracked.kept y hy
    refine ⟨?_, hwatch⟩
    change y ∈ inService tree s.self.id
    rw [hservice]
    exact Finset.mem_insert_of_mem hthere
  · change y ∈ inService tree s.self.id at hy
    rw [hservice] at hy
    rcases Finset.mem_insert.1 hy with rfl | hy
    · exact .inr List.mem_cons_self
    · refine (htracked.tracked y hy).imp_right fun hin => ?_
      rw [hids] at hin
      exact List.mem_cons_of_mem _ hin
  · have hapart := htracked.apart
    rw [hids] at hapart
    exact List.nodup_cons.2 ⟨hfresh, hapart⟩
  · change _ ∧ y < tree.nextId
    rw [hnext.1]
    rcases List.mem_cons.1 hy with rfl | hy
    · refine ⟨fun hin => ?_, Nat.lt_succ_self _⟩
      exact absurd (htracked.lt h.regular (.inl hin)) (Nat.lt_irrefl _)
    · obtain ⟨hnot, hlt⟩ := htracked.waiting y (hids ▸ hy)
      exact ⟨hnot, Nat.lt_succ_of_lt hlt⟩
  · change Function.update s.startedFor s.tree.nextId (some tag) (tree.lineage y) = _ ∧ _
    rw [hstarted y (.inl (OrderedMap.mem_keys.2 ⟨w, OrderedMap.get_eq_some.1 hw⟩))]
    exact hbooks.filed.entries y w hw
  · rcases List.mem_cons.1 hb with rfl | hb
    · refine ⟨hknown, fun w hw => ?_⟩
      cases hw
      refine ⟨rfl, ?_⟩
      change Function.update s.startedFor s.tree.nextId (some tag)
        (tree.lineage s.tree.nextId) = some tag
      rw [hnext.2, Function.update_self]
    · have hold : b ∈ s.batches := hbatches ▸ List.mem_cons_of_mem _ hb
      refine ⟨(hbooks.filed.batches b hold).1, fun w hw => ?_⟩
      change _ ∧ Function.update s.startedFor s.tree.nextId (some tag)
        (tree.lineage w.ref.id) = some b.tag
      rw [hstarted _ (.inr (mem_spawningIds hold hw))]
      exact (hbooks.filed.batches b hold).2 w hw
  · intro tag' sub' hsub'
    have hbalance := hbooks.balanced tag' sub' hsub'
    rw [hbatches, loadFor_cons] at hbalance
    change (((entriesFor s.activeWorkers tag').card + loadFor (_ :: outer) tag' +
      s.released tag' + 0 : Nat) : Int) + sub'.pendingDemand = _
    rw [loadFor_cons]
    exact hbalance

theorem spawnWorker (h : Kept s) {throws : Bool} (hst : s.spawnWorker throws = some s') :
    Kept s' := by
  unfold ConsumerSupervisor.spawnWorker at hst
  split at hst
  · next tag sub event events outer hbatches =>
      dsimp only at hst
      split_ifs at hst with hspawns
      · have hstep : s.tree.step (fun _ => "") (.spawnChild s.self s.childSpec.actorClass
          (s.workerOptions event)) = some _ := rfl
        have hext := steps_extends (step_cases hstep)
        simp only [Option.some.injEq] at hst
        subst hst
        refine ⟨h.regular.step hstep, Nat.lt_of_lt_of_le h.born hext.nextId, fun huse => ?_⟩
        have hbooks := h.books (h.inUse_of_step hstep huse)
        exact h.books_spawns hbooks hbatches hspawns.1 hstep
      · simp only [Option.some.injEq] at hst
        subst hst
        refine h.of_same rfl rfl fun huse => ?_
        exact (h.books huse).fails hbatches rfl nofun
  · cases hst

theorem step (h : Kept s) {a : ConsumerSupervisorAction V} (ha : Admits stringify s a)
    (hst : s.step stringify a = some s') : Kept s' := by
  cases a with
  | subscribe tag producerRef options =>
      have hsame : s'.tree = s.tree ∧ s'.self = s.self := by
        dsimp only [ConsumerSupervisor.step, ConsumerSupervisor.subscribe] at hst
        split_ifs at hst
        cases hst
        exact ⟨rfl, rfl⟩
      exact h.of_same hsame.1 hsame.2 fun huse => (h.books huse).subscribe hst
  | deferredAsk tag =>
      have hsame : s'.tree = s.tree ∧ s'.self = s.self := by
        dsimp only [ConsumerSupervisor.step, ConsumerSupervisor.deferredAsk] at hst
        split_ifs at hst
        split at hst <;> cases hst <;> exact ⟨rfl, rfl⟩
      exact h.of_same hsame.1 hsame.2 fun huse => (h.books huse).deferredAsk hst
  | events tag events =>
      cases hst
      have hsame : (s.handleEvents tag events).tree = s.tree ∧
          (s.handleEvents tag events).self = s.self := by
        unfold ConsumerSupervisor.handleEvents
        split <;> exact ⟨rfl, rfl⟩
      exact h.of_same hsame.1 hsame.2 fun huse => (h.books huse).handleEvents (ha huse)
  | spawns | spawnThrows => exact h.spawnWorker hst
  | initReturns =>
      have hsame : s'.tree = s.tree ∧ s'.self = s.self := by
        dsimp only [ConsumerSupervisor.step, ConsumerSupervisor.initReturns] at hst
        split at hst
        · cases hst
          exact ⟨rfl, rfl⟩
        · cases hst
      exact h.of_same hsame.1 hsame.2 fun huse => (h.books huse).initReturns hst (ha huse)
  | initThrows =>
      have hsame : s'.tree = s.tree ∧ s'.self = s.self := by
        dsimp only [ConsumerSupervisor.step, ConsumerSupervisor.initThrows] at hst
        split at hst
        · cases hst
          exact ⟨rfl, rfl⟩
        · cases hst
      exact h.of_same hsame.1 hsame.2 fun huse => (h.books huse).initThrows hst (ha huse)
  | batchEnds =>
      have hsame : s'.tree = s.tree ∧ s'.self = s.self := by
        dsimp only [ConsumerSupervisor.step, ConsumerSupervisor.batchEnds] at hst
        split at hst
        · cases hst
          exact tree_maybeAskForMore _
        · cases hst
      exact h.of_same hsame.1 hsame.2 fun huse => (h.books huse).batchEnds hst
  | cancelFromProducer tag =>
      cases hst
      exact h.of_same rfl rfl fun huse => (h.books huse).delete tag s.sent
  | cancelSubscription tag reason =>
      cases hst
      have hsame : (s.cancelSubscription tag reason).tree = s.tree ∧
          (s.cancelSubscription tag reason).self = s.self := by
        unfold ConsumerSupervisor.cancelSubscription
        split <;> exact ⟨rfl, rfl⟩
      exact h.of_same hsame.1 hsame.2 fun huse => (h.books huse).cancelSubscription tag reason
  | cancelAll reason =>
      cases hst
      exact h.of_same rfl rfl fun huse => (h.books huse).cancelAll reason
  | tree a =>
      dsimp only [ConsumerSupervisor.step] at hst
      split_ifs at hst with hreaches
      exact h.stepTree hst (Bool.eq_false_iff.2 hreaches) ha

end

/-- The supervisor has just been spawned. -/
theorem start {t : Tree String V} (hsound : SoundTree t)
    (htidy : ∀ call ∈ t.calls, Tidy t.toTables call) (hdetached : ∀ x ∈ t.detached, x < t.nextId)
    (hstops : ∀ x ∈ t.stopRequests, x < t.nextId) (childSpec : ChildSpec V)
    (options : ConsumerSupervisorOptions) : Kept (.start t childSpec options) := by
  have horderly : Orderly (ConsumerSupervisor.start t childSpec options).tree t.nextId :=
    Orderly.spawn hsound htidy rfl
  have hlt : ∀ {x}, x < t.nextId → x < t.nextId + 1 := Nat.lt_succ_of_lt
  have hnone : ∀ x, x ∉ childrenOf (ConsumerSupervisor.start t childSpec options).tree.toTables
      t.nextId := by
    intro x hx
    have hold := childrenOf_spawn hsound.tables horderly.sound.tables hx
    rw [childrenOf_nextId hsound.tables] at hold
    exact Finset.notMem_empty x hold
  refine ⟨⟨horderly, fun x hx => hlt (hdetached x hx), fun x hx => hlt (hstops x hx)⟩,
    Nat.lt_succ_self _, fun _ => ⟨fun call hcall f hf => ?_, ?_, ?_, nofun⟩⟩
  · cases f with
    | stopSingle r => exact hnone r.id
    | migrating x => exact hnone x
    | respawn x m =>
        intro hparent
        obtain ⟨q, hq, hp⟩ := Option.map_eq_some_iff.1 hparent
        have hspawned : t.spawned x = some m := hsound.frames call hcall _ hf
        exact absurd hp (hsound.tables.parent_lt x m q hspawned hq).ne
    | strategy q stops remote plan => exact horderly.calm call hcall _ hf
    | _ => trivial
  · exact ⟨nofun, fun x hx => absurd (mem_inService.1 hx).1 (hnone x), List.nodup_nil, nofun⟩
  · exact ⟨nofun, nofun, nofun, Finset.Subset.refl _⟩

end Kept

/-- As long as no restart of a worker is begun, no batch is larger than the demand and the `init`
of every worker agrees with its `spawnChild`, the accounts of a consumer supervisor are right
whenever it is at rest. -/
theorem accounted_throughout (stringify : List V → String) {id : String}
    {childSupervision : ActorId → ChildSupervisionOptions} {supervisor : Supervisor}
    {before : List (TreeAction String V)} {t : Tree String V}
    (hrun : run (Tree.step stringify) (.init id childSupervision supervisor) before = some t)
    (childSpec : ChildSpec V) (options : ConsumerSupervisorOptions)
    {actions : List (ConsumerSupervisorAction V)}
    (hadmits : Along (ConsumerSupervisor.step stringify) (Admits stringify)
      (.start t childSpec options) actions) :
    Throughout (ConsumerSupervisor.step stringify) Accounted (.start t childSpec options)
      actions := by
  have htree : SoundTree t ∧ (∀ call ∈ t.calls, Tidy t.toTables call) ∧
      (∀ x ∈ t.detached, x < t.nextId) ∧ ∀ x ∈ t.stopRequests, x < t.nextId :=
    run_invariant' (I := fun t => SoundTree t ∧ (∀ call ∈ t.calls, Tidy t.toTables call) ∧
        (∀ x ∈ t.detached, x < t.nextId) ∧ ∀ x ∈ t.stopRequests, x < t.nextId)
      (fun _ _ _ h hst => ⟨soundTree_step h.1 hst, tidy_step h.1 h.2.1 hst,
        detached_lt_step h.1 h.2.2.1 hst, stopRequests_lt_step h.2.2.2 hst⟩)
      ⟨soundTree_init _ _ _, fun _ hcall => (List.not_mem_nil hcall).elim, nofun, nofun⟩ hrun
  obtain ⟨hsound, htidy, hdetached, hstops⟩ := htree
  have hkept : Throughout (ConsumerSupervisor.step stringify) Kept (.start t childSpec options)
      actions :=
    throughout_of_invariant (fun _ _ _ h ha hst => h.step ha hst)
      (Kept.start hsound htidy hdetached hstops childSpec options) hadmits
  exact hkept.mono fun _ h => h.accounted

/-! ## A worker that crashes -/

def emptyNode : Tree String Nat :=
  .init "node-1" (fun _ => ⟨.oneForOne, 3, 5000⟩) (.new .Restart 3 5000)

def producerRef : ActorRef String := ⟨"node-2", 0, none, 0⟩

def workerRef (id : ActorId) : ActorRef String := ⟨"node-1", id, none, 0⟩

/-- A worker has been spawned for the only event that the subscription may have at a time. -/
def working : List (ConsumerSupervisorAction Nat) :=
  [.subscribe "sub-1" producerRef { maxDemand := some 1, minDemand := some 1 },
    .deferredAsk "sub-1", .events "sub-1" [7], .spawns, .initReturns, .batchEnds]

/-- It crashes, and its supervisor goes on to the end of what it does about that. -/
def crashed : List (ConsumerSupervisorAction Nat) :=
  [.tree (.crash (workerRef 1) 0), .tree (.resumes 0 .success), .tree (.resumes 0 .success)]

theorem accounted_throughout_killed :
    Throughout (ConsumerSupervisor.step fun args => toString args) Accounted
      (.start emptyNode ⟨"Worker", none, {}⟩ { maxRestarts := 0 }) (working ++ crashed) := by
  have hbefore : run (Tree.step fun args => toString args) emptyNode [] = some emptyNode := rfl
  refine accounted_throughout (fun args => toString args) hbefore _ _ ?_
  refine ⟨fun _ => trivial, ?_⟩
  rintro _ ⟨⟩
  refine ⟨fun _ => trivial, ?_⟩
  rintro _ ⟨⟩
  refine ⟨fun _ => ?_, ?_⟩
  · rintro _ ⟨⟩
    decide
  rintro _ ⟨⟩
  refine ⟨fun _ => trivial, ?_⟩
  rintro _ ⟨⟩
  refine ⟨fun _ => ?_, ?_⟩
  · rintro _ ⟨⟩
    decide
  rintro _ ⟨⟩
  refine ⟨fun _ => trivial, ?_⟩
  rintro _ ⟨⟩
  refine ⟨fun _ => ?_, ?_⟩
  · change ∀ x ∈ [], _
    exact nofun
  rintro _ ⟨⟩
  refine ⟨fun _ => nofun, ?_⟩
  rintro _ ⟨⟩
  refine ⟨fun _ => nofun, ?_⟩
  rintro _ ⟨⟩
  trivial

/-- The restart leaves an entry without a worker and a worker without an entry.  When that worker
completes, its capacity is lost, and with it the subscription. -/
theorem restarted_worker_lost :
    ∃ s s', run (ConsumerSupervisor.step fun args => toString args)
        (.start emptyNode ⟨"Worker", none, {}⟩ {})
        (working ++ crashed ++ [.tree (.resumes 0 .success)]) = some s ∧
      workersOf s "sub-1" = {2} ∧ entriesFor s.activeWorkers "sub-1" = {1} ∧ ¬ Accounted s ∧
      run (ConsumerSupervisor.step fun args => toString args) s
        [.tree (.stop (workerRef 2)), .tree (.resumes 0 .success), .tree (.resumes 0 .success)] =
          some s' ∧
      workersOf s' "sub-1" = ∅ ∧ entriesFor s'.activeWorkers "sub-1" = {1} ∧
      s'.released "sub-1" = 0 ∧
      (s'.subscriptions.get "sub-1").map (·.pendingDemand) = some 0 ∧ ¬ Accounted s' := by
  refine ⟨_, _, rfl, by decide, by decide, fun h => ?_, rfl, by decide, by decide, by decide,
    by decide, fun h => ?_⟩
  · exact absurd (h (by decide) ⟨rfl, rfl⟩ "sub-1" _ rfl (by decide)).1 (by decide)
  · exact absurd (h (by decide) ⟨rfl, rfl⟩ "sub-1" _ rfl (by decide)).1 (by decide)

end Libeam.Proofs.WorkerAccounts
