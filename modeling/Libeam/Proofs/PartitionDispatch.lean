import Libeam.Lib.Lane
import Libeam.GenStage.Ledger
/-!
# What the partition dispatcher sends

Each partition is a line of its own: its buffer, with the demand of its subscriber as
the credit.  A dispatch lets the new events of a partition pass by its line and serves
the line afterwards.
-/

namespace Libeam.Proofs.PartitionDispatch

open Lib GenStage

variable {E : Type}

/-- The line of a partition. -/
def lane (q : PartitionDispatcher E) (p : Nat) : Lane E := ⟨q.partitionBuffers p, q.demandOf p⟩

/-- The events that hash to a partition. -/
def share (hash : E → Option Int) (p : Nat) (events : List E) : List E :=
  events.filter fun event => hash event = some (p : Int)

theorem share_append (hash : E → Option Int) (p : Nat) (xs ys : List E) :
    share hash p (xs ++ ys) = share hash p xs ++ share hash p ys := List.filter_append xs ys

/-- What a dispatch leaves alone. -/
structure SamePlaces (q q' : PartitionDispatcher E) : Prop where
  count : q'.partitionCount = q.partitionCount
  hash : q'.hash = q.hash
  seats : q'.tagToPartition = q.tagToPartition
  holder : ∀ p, (q'.partitions p).map (fun entry => (entry.1, entry.2.consumerRef)) =
    (q.partitions p).map fun entry => (entry.1, entry.2.consumerRef)

theorem SamePlaces.refl (q : PartitionDispatcher E) : SamePlaces q q :=
  ⟨rfl, rfl, rfl, fun _ => rfl⟩

theorem SamePlaces.trans {q q' q'' : PartitionDispatcher E} (h : SamePlaces q q')
    (h' : SamePlaces q' q'') : SamePlaces q q'' :=
  ⟨h'.count.trans h.count, h'.hash.trans h.hash, h'.seats.trans h.seats,
    fun p => (h'.holder p).trans (h.holder p)⟩

theorem SamePlaces.isSome {q q' : PartitionDispatcher E} (h : SamePlaces q q') (p : Nat) :
    (q'.partitions p).isSome = (q.partitions p).isSome := by
  have hholder := congrArg Option.isSome (h.holder p)
  rwa [Option.isSome_map, Option.isSome_map] at hholder

theorem samePlaces_grant (q : PartitionDispatcher E) (p : Nat) (demand : Int) :
    SamePlaces q (q.grant p demand) := by
  refine ⟨rfl, rfl, rfl, fun p' => ?_⟩
  by_cases hp : p' = p
  · subst hp
    simp only [PartitionDispatcher.grant, Function.update_self, Option.map_map]
    rfl
  · simp only [PartitionDispatcher.grant, Function.update_of_ne hp]

theorem samePlaces_keep (q : PartitionDispatcher E) (p : Nat) (events : List E) :
    SamePlaces q (q.keep p events) :=
  ⟨rfl, rfl, rfl, fun _ => rfl⟩

/-! ## Lines after a change -/

theorem demandOf_grant (q : PartitionDispatcher E) (p p' : Nat) (demand : Int) :
    (q.grant p demand).demandOf p' =
      if p' = p ∧ (q.partitions p).isSome then q.demandOf p' + demand else q.demandOf p' := by
  by_cases hp : p' = p
  · subst hp
    cases hentry : q.partitions p' with
    | none => simp [PartitionDispatcher.grant, PartitionDispatcher.demandOf, hentry]
    | some entry =>
        simp [PartitionDispatcher.grant, PartitionDispatcher.demandOf, hentry, ProducerSub.grant]
  · simp [PartitionDispatcher.grant, PartitionDispatcher.demandOf, hp]

/-- Only somebody who is subscribed has demand. -/
theorem isSome_of_demandOf {q : PartitionDispatcher E} {p : Nat} (h : 0 < q.demandOf p) :
    (q.partitions p).isSome := by
  cases hentry : q.partitions p with
  | none =>
      rw [PartitionDispatcher.demandOf, hentry] at h
      exact absurd h (lt_irrefl 0)
  | some entry => rfl

theorem lane_grant {q : PartitionDispatcher E} {p : Nat} (h : 0 < q.demandOf p) (demand : Int)
    (p' : Nat) :
    lane (q.grant p demand) p' =
      if p' = p then ⟨q.partitionBuffers p', q.demandOf p' + demand⟩ else lane q p' := by
  have hsome := isSome_of_demandOf h
  unfold lane
  rw [demandOf_grant]
  by_cases hp : p' = p
  · rw [if_pos ⟨hp, hsome⟩, if_pos hp]
    rfl
  · rw [if_neg fun hboth => hp hboth.1, if_neg hp]
    rfl

theorem lane_keep (q : PartitionDispatcher E) (p p' : Nat) (events : List E) :
    lane (q.keep p events) p' = if p' = p then ⟨events, q.demandOf p'⟩ else lane q p' := by
  unfold lane
  by_cases hp : p' = p
  · subst hp
    rw [if_pos rfl]
    simp only [PartitionDispatcher.keep, Function.update_self]
    rfl
  · rw [if_neg hp]
    simp only [PartitionDispatcher.keep, Function.update_of_ne hp]
    rfl

/-! ## The loop over the events -/

/-- The hash function gives a partition, or discards the event. -/
def Valid (q : PartitionDispatcher E) (event : E) : Prop :=
  ∀ p, q.hash event = some p → 0 ≤ p ∧ p < q.partitionCount

theorem route_eq_ok {q q' : PartitionDispatcher E} {buckets buckets' : Nat → List E} {event : E}
    (h : PartitionDispatcher.route (q, buckets) event = .ok (q', buckets')) :
    SamePlaces q q' ∧ Valid q event ∧ ∀ p,
      lane q' p = (lane q p).pass (share q.hash p [event]) ∧
      buckets' p = buckets p ++ (lane q p).passed (share q.hash p [event]) := by
  unfold PartitionDispatcher.route at h
  dsimp only at h
  cases hhash : q.hash event with
  | none =>
      rw [hhash] at h
      cases h
      have hvalid : Valid q event := fun p hp => by
        rw [hhash] at hp
        exact nomatch hp
      refine ⟨.refl q, hvalid, fun p => ?_⟩
      simp [share, hhash]
  | some k =>
      rw [hhash] at h
      dsimp only at h
      by_cases hbad : k < 0 ∨ k ≥ q.partitionCount
      · rw [if_pos hbad] at h
        exact nomatch h
      · rw [if_neg hbad] at h
        have hvalid : Valid q event := fun p hp => by
          rw [hhash] at hp
          cases hp
          omega
        have hk : ((k.toNat : Nat) : Int) = k := by omega
        have hshare : ∀ p : Nat, share q.hash p [event] = if p = k.toNat then [event] else [] := by
          intro p
          unfold share
          by_cases hp : p = k.toNat
          · rw [if_pos hp, List.filter_cons_of_pos (by simp [hhash, hp, hk])]
            rfl
          · rw [if_neg hp, List.filter_cons_of_neg (by
              simp only [hhash, decide_eq_true_eq, Option.some.injEq]
              omega)]
            rfl
        by_cases hwaits : q.demandOf k.toNat ≤ 0
        · -- the event waits at the end of its line
          rw [if_pos hwaits] at h
          cases h
          refine ⟨samePlaces_keep _ _ _, hvalid, fun p => ?_⟩
          rw [lane_keep, hshare]
          by_cases hp : p = k.toNat
          · subst hp
            rw [if_pos rfl, if_pos rfl]
            have hcovers : (lane q k.toNat).covers 1 = 0 := Lane.covers_of_nonpos hwaits 1
            simp only [Lane.pass, Lane.passed, List.length_singleton, hcovers]
            simp [lane]
          · rw [if_neg hp, if_neg hp]
            simp
        · -- the event passes by
          rw [if_neg hwaits] at h
          cases h
          refine ⟨samePlaces_grant _ _ _, hvalid, fun p => ?_⟩
          rw [lane_grant (not_le.1 hwaits), hshare]
          by_cases hp : p = k.toNat
          · subst hp
            rw [if_pos rfl, if_pos rfl, Function.update_self]
            have hcovers : (lane q k.toNat).covers 1 = 1 := by
              unfold Lane.covers lane
              dsimp only
              omega
            simp only [Lane.pass, Lane.passed, List.length_singleton, hcovers]
            simp [lane, sub_eq_add_neg]
          · rw [if_neg hp, if_neg hp, Function.update_of_ne hp]
            simp

theorem share_cons (hash : E → Option Int) (p : Nat) (event : E) (events : List E) :
    share hash p (event :: events) = share hash p [event] ++ share hash p events :=
  List.filter_append [event] events

theorem foldlM_route_eq_ok {q q' : PartitionDispatcher E} {buckets buckets' : Nat → List E}
    {events : List E}
    (h : events.foldlM PartitionDispatcher.route (q, buckets) = .ok (q', buckets')) :
    SamePlaces q q' ∧ (∀ event ∈ events, Valid q event) ∧ ∀ p,
      lane q' p = (lane q p).pass (share q.hash p events) ∧
      buckets' p = buckets p ++ (lane q p).passed (share q.hash p events) := by
  induction events generalizing q buckets with
  | nil =>
      cases h
      exact ⟨.refl _, nofun, fun p => by simp [share]⟩
  | cons event events ih =>
      rw [List.foldlM_cons] at h
      cases hroute : PartitionDispatcher.route (q, buckets) event with
      | error e =>
          rw [hroute] at h
          exact nomatch h
      | ok routed =>
          rw [hroute] at h
          obtain ⟨q₁, buckets₁⟩ := routed
          obtain ⟨hsame, hvalid, hone⟩ := route_eq_ok hroute
          obtain ⟨hsame', hvalid', hrest⟩ := ih h
          refine ⟨hsame.trans hsame', ?_, fun p => ?_⟩
          · intro event' hevent'
            rcases List.mem_cons.1 hevent' with rfl | hin
            · exact hvalid
            · have hvalid₁ := hvalid' event' hin
              unfold Valid at hvalid₁
              rwa [hsame.hash, hsame.count] at hvalid₁
          · obtain ⟨hlane, hbucket⟩ := hone p
            obtain ⟨hlane', hbucket'⟩ := hrest p
            rw [hsame.hash, hlane] at hlane' hbucket'
            rw [share_cons, Lane.pass_append_right, Lane.passed_append_right, hlane', hbucket',
              hbucket, List.append_assoc]
            exact ⟨rfl, rfl⟩

/-! ## The loop over the partition buffers -/

theorem drainBuffer_eq (q : PartitionDispatcher E) (buckets : Nat → List E) (p : Nat) :
    SamePlaces q (PartitionDispatcher.drainBuffer (q, buckets) p).1 ∧ ∀ p',
      lane (PartitionDispatcher.drainBuffer (q, buckets) p).1 p' =
        (if p' = p then (lane q p').serve else lane q p') ∧
      (PartitionDispatcher.drainBuffer (q, buckets) p).2 p' =
        (if p' = p then buckets p' ++ (lane q p').served else buckets p') := by
  unfold PartitionDispatcher.drainBuffer
  dsimp only
  by_cases hidle : (q.partitionBuffers p).length = 0 ∨ q.demandOf p ≤ 0
  · rw [if_pos hidle]
    refine ⟨.refl q, fun p' => ?_⟩
    by_cases hp : p' = p
    · subst hp
      have hsettled : (lane q p').Settled := hidle.imp_left List.eq_nil_of_length_eq_zero
      rw [if_pos rfl, if_pos rfl, Lane.serve_of_settled hsettled, Lane.served_of_settled hsettled,
        List.append_nil]
      exact ⟨rfl, rfl⟩
    · rw [if_neg hp, if_neg hp]
      exact ⟨rfl, rfl⟩
  · rw [if_neg hidle]
    refine ⟨(samePlaces_keep _ _ _).trans (samePlaces_grant _ _ _), fun p' => ?_⟩
    have hdemand : 0 < q.demandOf p := not_le.1 fun hle => hidle (.inr hle)
    have hkept : 0 < (q.keep p ((q.partitionBuffers p).drop
        (min (q.demandOf p).toNat (q.partitionBuffers p).length))).demandOf p := hdemand
    rw [lane_grant hkept, lane_keep]
    by_cases hp : p' = p
    · subst hp
      rw [if_pos rfl, if_pos rfl, if_pos rfl]
      dsimp only
      rw [Function.update_self]
      refine ⟨?_, rfl⟩
      simp only [PartitionDispatcher.keep, Function.update_self]
      rfl
    · rw [if_neg hp, if_neg hp, if_neg hp, if_neg hp]
      dsimp only
      rw [Function.update_of_ne hp]
      exact ⟨rfl, rfl⟩

theorem foldl_drainBuffer_eq (q : PartitionDispatcher E) (buckets : Nat → List E) (n : Nat) :
    let drained := (List.range n).foldl PartitionDispatcher.drainBuffer (q, buckets)
    SamePlaces q drained.1 ∧ ∀ p,
      lane drained.1 p = (if p < n then (lane q p).serve else lane q p) ∧
      drained.2 p = (if p < n then buckets p ++ (lane q p).served else buckets p) := by
  induction n with
  | zero => exact ⟨.refl q, fun p => by simp⟩
  | succ n ih =>
      dsimp only at ih ⊢
      rw [List.range_succ, List.foldl_append, List.foldl_cons, List.foldl_nil]
      obtain ⟨hsame, hlanes⟩ := ih
      obtain ⟨hsame', hlast⟩ := drainBuffer_eq
        ((List.range n).foldl PartitionDispatcher.drainBuffer (q, buckets)).1
        ((List.range n).foldl PartitionDispatcher.drainBuffer (q, buckets)).2 n
      refine ⟨hsame.trans hsame', fun p => ?_⟩
      obtain ⟨hlane, hbucket⟩ := hlanes p
      obtain ⟨hlane', hbucket'⟩ := hlast p
      rw [hlane', hbucket', hlane, hbucket]
      by_cases hp : p = n
      · subst hp
        simp
      · have hlt : p < n + 1 ↔ p < n := by omega
        simp only [if_neg hp, hlt, and_self]

/-! ## One dispatch -/

/-- The batch of a partition. -/
def bucket (q : PartitionDispatcher E) (events : List E) (p : Nat) : List E :=
  (lane q p).passed (share q.hash p events) ++ ((lane q p).pass (share q.hash p events)).served

theorem batches_congr {q : PartitionDispatcher E} {f g : Nat → List E}
    (h : ∀ p < q.partitionCount, f p = g p) : q.batches f = q.batches g :=
  List.filterMap_congr fun p hp => by
    rw [h p (List.mem_range.1 hp)]

theorem dispatch_eq_ok {q q' : PartitionDispatcher E} {events : List E}
    {result : DispatchResult E} (h : q.dispatch events = .ok (q', result)) :
    SamePlaces q q' ∧ (∀ event ∈ events, Valid q event) ∧ result.remaining = [] ∧
    (∀ p < q.partitionCount, lane q' p = ((lane q p).pass (share q.hash p events)).serve) ∧
    result.dispatched = q'.batches (bucket q events) := by
  unfold PartitionDispatcher.dispatch at h
  cases hroute : events.foldlM PartitionDispatcher.route (q, fun _ => []) with
  | error e =>
      rw [hroute] at h
      exact nomatch h
  | ok routed =>
      obtain ⟨q₁, buckets₁⟩ := routed
      rw [hroute] at h
      cases h
      obtain ⟨hsame, hvalid, hpass⟩ := foldlM_route_eq_ok hroute
      obtain ⟨hsame', hserve⟩ := foldl_drainBuffer_eq q₁ buckets₁ q.partitionCount
      refine ⟨hsame.trans hsame', hvalid, rfl, fun p hp => ?_, batches_congr fun p hp => ?_⟩
      · rw [(hserve p).1, if_pos hp, (hpass p).1]
      · rw [hsame'.count, hsame.count] at hp
        rw [(hserve p).2, if_pos hp, (hpass p).1, (hpass p).2]
        rfl

theorem bucket_length (q : PartitionDispatcher E) (events : List E) (p : Nat) :
    (bucket q events p).length = min (q.demandOf p).toNat
      ((q.partitionBuffers p).length + (share q.hash p events).length) := by
  have hcredit := Lane.credit_serve_pass (lane q p) (share q.hash p events)
  change ((lane q p).passed _ ++ ((lane q p).pass _).served).length = _
  rw [List.length_append, Lane.length_passed, Lane.length_served]
  change (q.demandOf p - ((lane q p).covers (share q.hash p events).length : Int)) -
    (((lane q p).pass (share q.hash p events)).covers
      ((lane q p).pass (share q.hash p events)).waiting.length : Int) =
    q.demandOf p - (min (q.demandOf p).toNat
      ((q.partitionBuffers p).length + (share q.hash p events).length) : Nat) at hcredit
  omega

/-- A subscriber pays for its batch. -/
theorem demandOf_dispatch {q q' : PartitionDispatcher E} {events : List E}
    {result : DispatchResult E} (h : q.dispatch events = .ok (q', result)) {p : Nat}
    (hp : p < q.partitionCount) :
    q'.demandOf p = q.demandOf p - (bucket q events p).length := by
  obtain ⟨-, -, -, hlanes, -⟩ := dispatch_eq_ok h
  have hcredit := Lane.credit_serve_pass (lane q p) (share q.hash p events)
  rw [← hlanes p hp] at hcredit
  rw [bucket_length]
  exact hcredit

theorem bucket_of_nonpos {q : PartitionDispatcher E} {p : Nat} (h : q.demandOf p ≤ 0)
    (events : List E) : bucket q events p = [] := by
  have hcovers : ∀ n, (lane q p).covers n = 0 := Lane.covers_of_nonpos h
  have hpassed : (lane q p).passed (share q.hash p events) = [] := by
    rw [Lane.passed, hcovers, List.take_zero]
  have hserved : ((lane q p).pass (share q.hash p events)).served = [] := by
    refine Lane.served_of_settled (.inr ?_)
    rw [Lane.pass, hcovers]
    exact (sub_zero _).trans_le h
  rw [bucket, hpassed, hserved, List.append_nil]

/-- A batch that is not empty has somebody to go to. -/
theorem isSome_of_bucket {q q' : PartitionDispatcher E} (hsame : SamePlaces q q')
    {events : List E} {p : Nat} (h : bucket q events p ≠ []) : (q'.partitions p).isSome := by
  have hdemand : 0 < q.demandOf p := not_le.1 fun hle => h (bucket_of_nonpos hle events)
  rw [hsame.isSome]
  exact isSome_of_demandOf hdemand

/-- The events of the batches, partition after partition. -/
theorem eventsOf_batches {q : PartitionDispatcher E} {f : Nat → List E}
    (hheld : ∀ p, f p ≠ [] → (q.partitions p).isSome) :
    eventsOf (q.batches f) = (List.range q.partitionCount).flatMap f := by
  unfold PartitionDispatcher.batches
  induction q.partitionCount with
  | zero => rfl
  | succ n ih =>
      rw [List.range_succ, List.filterMap_append, List.flatMap_append, ← ih]
      unfold eventsOf
      rw [List.flatMap_append]
      congr 1
      by_cases hnil : f n = []
      · simp [hnil]
      · obtain ⟨entry, hentry⟩ := Option.isSome_iff_exists.1 (hheld n hnil)
        simp [hnil, hentry]

/-- Whoever holds a partition has its seat. -/
def Seated (q : PartitionDispatcher E) : Prop :=
  ∀ p entry, q.partitions p = some entry → q.tagToPartition.get entry.1 = some p

/-- What is sent to whoever has the seat of a partition is the batch of that partition. -/
theorem eventsOf_seat {q : PartitionDispatcher E} {f : Nat → List E} (hseated : Seated q)
    (hheld : ∀ p, f p ≠ [] → (q.partitions p).isSome) {p : Nat} (hp : p < q.partitionCount) :
    eventsOf ((q.batches f).filter fun b => q.tagToPartition.get b.tag = some p) = f p := by
  have hall : ∀ n, eventsOf (((List.range n).filterMap fun p =>
      if (f p).length = 0 then none
      else (q.partitions p).map fun entry =>
        (⟨entry.2.consumerRef, entry.1, f p⟩ : Dispatched E)).filter
          fun b => q.tagToPartition.get b.tag = some p) = if p < n then f p else [] := by
    intro n
    induction n with
    | zero => rfl
    | succ n ih =>
        unfold eventsOf at ih ⊢
        rw [List.range_succ, List.filterMap_append, List.filter_append, List.flatMap_append, ih]
        by_cases hnil : f n = []
        · by_cases hpn : p = n
          · subst hpn
            simp [hnil]
          · have hlt : p < n + 1 ↔ p < n := by omega
            simp [hnil, hlt]
        · obtain ⟨entry, hentry⟩ := Option.isSome_iff_exists.1 (hheld n hnil)
          have hseat := hseated n entry hentry
          by_cases hpn : p = n
          · subst hpn
            simp [hnil, hentry, hseat]
          · have hlt : p < n + 1 ↔ p < n := by omega
            simp [hnil, hentry, hseat, hlt, Ne.symm hpn]
  exact (hall q.partitionCount).trans (if_pos hp)

/-! ## All shares -/

/-- The events that the hash function does not discard. -/
def hashed (hash : E → Option Int) (events : List E) : List E :=
  events.filter fun event => (hash event).isSome

theorem flatMap_share_singleton {hash : E → Option Int} {event : E} {n : Nat}
    (hvalid : ∀ p, hash event = some p → 0 ≤ p ∧ p < n) :
    (List.range n).flatMap (fun p => share hash p [event]) = hashed hash [event] := by
  cases hhash : hash event with
  | none => simp [share, hashed, hhash]
  | some k =>
      obtain ⟨hpos, hlt⟩ := hvalid k hhash
      have hgo : ∀ m, (List.range m).flatMap (fun p => share hash p [event]) =
          if k < (m : Int) then [event] else [] := by
        intro m
        induction m with
        | zero =>
            rw [if_neg (by omega)]
            rfl
        | succ m ih =>
            rw [List.range_succ, List.flatMap_append, ih, List.flatMap_singleton]
            by_cases hk : k = m
            · simp [share, hhash, hk]
            · have hsucc : k < ((m + 1 : Nat) : Int) ↔ k < (m : Int) := by omega
              rw [share, List.filter_cons_of_neg (by simp [hhash, hk]), List.filter_nil,
                List.append_nil]
              simp only [hsucc]
      rw [hgo, if_pos hlt, hashed, List.filter_cons_of_pos (by simp [hhash]), List.filter_nil]

/-- The shares together are the events that are not discarded. -/
theorem flatMap_share_perm {hash : E → Option Int} {events : List E} {n : Nat}
    (hvalid : ∀ event ∈ events, ∀ p, hash event = some p → 0 ≤ p ∧ p < n) :
    ((List.range n).flatMap fun p => share hash p events).Perm (hashed hash events) := by
  induction events with
  | nil => simp [share, hashed]
  | cons event events ih =>
      have hrest := ih fun event' hin => hvalid event' (List.mem_cons_of_mem _ hin)
      have hone := flatMap_share_singleton (hvalid event List.mem_cons_self)
      have hsplit : hashed hash (event :: events) = hashed hash [event] ++ hashed hash events :=
        List.filter_append [event] events
      simp only [share_cons hash _ event events]
      rw [hsplit, ← hone]
      exact (List.flatMap_append_perm _ _ _).symm.trans (hrest.append_left _)

/-! ## Who is subscribed -/

theorem subscribe_eq_ok {q q' : PartitionDispatcher E} {tag : Tag} {sub : ProducerSub}
    {partition : Option PartitionOption} (h : q.subscribe tag sub partition = .ok q') :
    ∃ option p, partition = some option ∧ option.index = some ((p : Nat) : Int) ∧
      p < q.partitionCount ∧ q.partitions p = none ∧
      q' = { q with
        partitions := Function.update q.partitions p (some (tag, sub))
        tagToPartition := q.tagToPartition.set tag p } := by
  unfold PartitionDispatcher.subscribe at h
  cases partition with
  | none => exact nomatch h
  | some option =>
      dsimp only at h
      cases hindex : option.index with
      | none =>
          rw [hindex] at h
          exact nomatch h
      | some k =>
          rw [hindex] at h
          dsimp only at h
          by_cases hbad : k < 0 ∨ k ≥ q.partitionCount
          · rw [if_pos hbad] at h
            exact nomatch h
          · rw [if_neg hbad] at h
            cases hplace : q.partitions k.toNat with
            | some existing =>
                rw [hplace] at h
                exact nomatch h
            | none =>
                rw [hplace] at h
                have hk : ((k.toNat : Nat) : Int) = k := by omega
                exact ⟨option, k.toNat, rfl, by rw [hk]; exact hindex, by omega, hplace,
                  (Except.ok.inj h).symm⟩

theorem ask_cases (q : PartitionDispatcher E) (tag : Tag) (demand : Int) :
    q.ask tag demand = (q, 0) ∧
      (∀ p, q.tagToPartition.get tag = some p → q.partitions p = none) ∨
    ∃ p, q.tagToPartition.get tag = some p ∧ (q.partitions p).isSome ∧
      q.ask tag demand = (q.grant p demand, demand) := by
  unfold PartitionDispatcher.ask
  cases hseat : q.tagToPartition.get tag with
  | none => exact .inl ⟨rfl, nofun⟩
  | some p =>
      dsimp only
      cases hentry : q.partitions p with
      | none =>
          refine .inl ⟨rfl, fun p' hp' => ?_⟩
          cases hp'
          exact hentry
      | some entry => exact .inr ⟨p, rfl, Option.isSome_iff_exists.2 ⟨entry, hentry⟩, rfl⟩

/-- Nobody is subscribed to what is no partition. -/
def Placed (q : PartitionDispatcher E) : Prop :=
  ∀ p, (q.partitions p).isSome → p < q.partitionCount

theorem hasSubscribers_iff {q : PartitionDispatcher E} (h : Placed q) :
    q.hasSubscribers = true ↔ ∃ p, (q.partitions p).isSome := by
  unfold PartitionDispatcher.hasSubscribers
  rw [List.any_eq_true]
  constructor
  · rintro ⟨p, -, hp⟩
    exact ⟨p, hp⟩
  · rintro ⟨p, hp⟩
    exact ⟨p, List.mem_range.2 (h p hp), hp⟩

theorem demandOf_nonpos {q : PartitionDispatcher E} (h : Placed q)
    (hhas : q.hasSubscribers = false) (p : Nat) : q.demandOf p ≤ 0 :=
  not_lt.1 fun hpos => by
    have hsome := (hasSubscribers_iff h).2 ⟨p, isSome_of_demandOf hpos⟩
    exact absurd (hhas.symm.trans hsome) Bool.false_ne_true

theorem SamePlaces.placed {q q' : PartitionDispatcher E} (h : SamePlaces q q')
    (hplaced : Placed q) : Placed q' := by
  intro p hp
  rw [h.isSome] at hp
  exact (hplaced p hp).trans_eq h.count.symm

/-- Whoever asked is subscribed. -/
theorem hasSubscribers_of_ask {q q' : PartitionDispatcher E} {tag : Tag} {demand : Int}
    (hwants : 0 < (q.ask tag demand).2) (hsame : SamePlaces (q.ask tag demand).1 q')
    (hplaced : Placed q') : q'.hasSubscribers = true := by
  obtain ⟨heq, -⟩ | ⟨p, -, hsome, heq⟩ := ask_cases q tag demand
  · rw [heq] at hwants
    exact absurd hwants (lt_irrefl 0)
  · refine (hasSubscribers_iff hplaced).2 ⟨p, ?_⟩
    rw [heq] at hsame
    rwa [hsame.isSome, (samePlaces_grant q p demand).isSome]

theorem SamePlaces.seated {q q' : PartitionDispatcher E} (h : SamePlaces q q')
    (hseated : Seated q) : Seated q' := by
  intro p entry hentry
  have hholder := h.holder p
  rw [hentry, Option.map_some, eq_comm, Option.map_eq_some_iff] at hholder
  obtain ⟨entry₀, hentry₀, heq⟩ := hholder
  rw [h.seats, ← (Prod.mk.inj heq).1]
  exact hseated p entry₀ hentry₀

theorem samePlaces_ask (q : PartitionDispatcher E) (tag : Tag) (demand : Int) :
    SamePlaces q (q.ask tag demand).1 := by
  obtain ⟨heq, -⟩ | ⟨p, -, -, heq⟩ := ask_cases q tag demand
  · rw [heq]
    exact .refl q
  · rw [heq]
    exact samePlaces_grant q p demand

theorem buffers_ask (q : PartitionDispatcher E) (tag : Tag) (demand : Int) :
    (q.ask tag demand).1.partitionBuffers = q.partitionBuffers := by
  obtain ⟨heq, -⟩ | ⟨p, -, -, heq⟩ := ask_cases q tag demand
  · rw [heq]
  · rw [heq]
    rfl

/-- A cancel takes a seat and its demand, and no event. -/
theorem kept_cancel (q : PartitionDispatcher E) (tag : Tag) :
    (q.cancel tag).hash = q.hash ∧ (q.cancel tag).partitionBuffers = q.partitionBuffers ∧
      (q.cancel tag).partitionCount = q.partitionCount := by
  unfold PartitionDispatcher.cancel
  cases q.tagToPartition.get tag with
  | none | some => exact ⟨rfl, rfl, rfl⟩

theorem seats_cancel (q : PartitionDispatcher E) (tag : Tag) :
    (q.cancel tag).tagToPartition = q.tagToPartition.delete tag := by
  unfold PartitionDispatcher.cancel
  cases hseat : q.tagToPartition.get tag with
  | none => exact (OrderedMap.delete_of_not_mem (OrderedMap.get_eq_none.1 hseat)).symm
  | some p => rfl

theorem placed_subscribe {q q' : PartitionDispatcher E} {tag : Tag} {sub : ProducerSub}
    {partition : Option PartitionOption} (h : q.subscribe tag sub partition = .ok q')
    (hplaced : Placed q) : Placed q' := by
  obtain ⟨option, p, -, -, hlt, -, rfl⟩ := subscribe_eq_ok h
  intro p' hp'
  by_cases hp : p' = p
  · exact hp ▸ hlt
  · dsimp only at hp'
    rw [Function.update_of_ne hp] at hp'
    exact hplaced p' hp'

theorem placed_cancel {q : PartitionDispatcher E} (hplaced : Placed q) (tag : Tag) :
    Placed (q.cancel tag) := by
  unfold PartitionDispatcher.cancel
  cases q.tagToPartition.get tag with
  | none => exact hplaced
  | some p =>
      intro p' hp'
      by_cases hp : p' = p
      · subst hp
        dsimp only at hp'
        rw [Function.update_self] at hp'
        exact absurd hp' Bool.false_ne_true
      · dsimp only at hp'
        rw [Function.update_of_ne hp] at hp'
        exact hplaced p' hp'

theorem seated_subscribe {q q' : PartitionDispatcher E} {tag : Tag} {sub : ProducerSub}
    {partition : Option PartitionOption} (h : q.subscribe tag sub partition = .ok q')
    (hnew : q.has tag = false) (hseated : Seated q) : Seated q' := by
  obtain ⟨option, p, -, -, -, -, rfl⟩ := subscribe_eq_ok h
  have hnone : q.tagToPartition.get tag = none := by
    simpa [PartitionDispatcher.has, OrderedMap.has] using hnew
  intro p' entry hentry
  dsimp only at hentry ⊢
  rw [OrderedMap.get_set]
  by_cases hp : p' = p
  · subst hp
    rw [Function.update_self, Option.some.injEq] at hentry
    subst hentry
    exact if_pos rfl
  · rw [Function.update_of_ne hp] at hentry
    have hseat := hseated p' entry hentry
    have hne : entry.1 ≠ tag := by
      rintro rfl
      cases hnone.symm.trans hseat
    rw [if_neg hne]
    exact hseat

theorem seated_cancel {q : PartitionDispatcher E} (hseated : Seated q) (tag : Tag) :
    Seated (q.cancel tag) := by
  unfold PartitionDispatcher.cancel
  cases hseat : q.tagToPartition.get tag with
  | none => exact hseated
  | some place =>
      intro p entry hentry
      dsimp only at hentry ⊢
      by_cases hp : p = place
      · rw [hp, Function.update_self] at hentry
        exact nomatch hentry
      · rw [Function.update_of_ne hp] at hentry
        have hheld := hseated p entry hentry
        have hne : entry.1 ≠ tag := by
          intro htag
          rw [htag, hseat] at hheld
          exact hp (Option.some.inj hheld).symm
        rw [OrderedMap.get_delete, if_neg hne]
        exact hheld

end Libeam.Proofs.PartitionDispatch
