import Libeam.GenStage.Partitioning
import Libeam.Proofs.PartitionDispatch
import Mathlib.Algebra.Order.Ring.Rat
import Mathlib.Data.Nat.Cast.Order.Ring
import Mathlib.Data.Rat.Lemmas
/-!
# Which events have a partition by default

A text always has one.  A number has one when it is whole and its remainder is not negative;
any other number makes the dispatch throw, with the events before it taken already.
-/

namespace Libeam.Proofs.DefaultPartitions

open Lib GenStage PartitionDispatch

variable {E : Type}

/-! ## Remainders -/

/-- What the default hash function reads. -/
def value : Shape → Primitive
  | .plain v => v
  | .keyed key => key

/-- A number that is whole, and not negative unless it is a multiple of `n`. -/
def Whole (n : Nat) : Primitive → Prop
  | .number (.finite x) => x.den = 1 ∧ (0 ≤ x.num ∨ (n : Int) ∣ x.num)
  | .number _ => False
  | _ => True

theorem rem_whole {n : Nat} (hn : 0 < n) {x : ℚ} (hden : x.den = 1) :
    (Number.finite x).rem n = .finite ((x.num.tmod n : Int) : ℚ) := by
  rw [Number.rem, if_neg (by omega), hden]
  simp

/-- The remainder is an index for whole numbers with a remainder that is not negative. -/
theorem rem_index_iff {n : Nat} (hn : 0 < n) (x : Number) :
    (∃ p < n, x.rem n = .finite (p : ℚ)) ↔ Whole n (.number x) := by
  cases x with
  | nan | infinite => exact iff_of_false (fun ⟨_, _, h⟩ => nomatch h) id
  | finite x =>
      have hpos : (0 : Int) < n := Int.natCast_pos.2 hn
      constructor
      · rintro ⟨p, -, hrem⟩
        rw [Number.rem, if_neg (by omega), Number.finite.injEq,
          div_eq_iff (Nat.cast_ne_zero.2 x.den_ne_zero)] at hrem
        have htmod : x.num.tmod (n * x.den) = p * x.den := by exact_mod_cast hrem
        -- the denominator divides the numerator
        have hdvd : (x.den : Int) ∣ x.num := by
          have hsplit := Int.tmod_add_mul_tdiv x.num (n * x.den)
          rw [htmod] at hsplit
          rw [← hsplit]
          exact Int.dvd_add (Int.dvd_mul_left _ _)
            (Int.dvd_trans (Int.dvd_mul_left _ _) (Int.dvd_mul_right _ _))
        have hden : x.den = 1 := x.reduced.symm.eq_one_of_dvd (Int.natCast_dvd.1 hdvd)
        refine ⟨hden, ?_⟩
        rw [hden, Nat.cast_one, mul_one, mul_one] at htmod
        by_contra hneither
        push Not at hneither
        have hsign := Int.sign_tmod x.num n
        rw [if_neg hneither.2, Int.sign_eq_neg_one_of_neg hneither.1, htmod] at hsign
        exact absurd (Int.sign_nonneg_iff.2 (Int.natCast_nonneg p)) (by omega)
      · rintro ⟨hden, hcase⟩
        rw [rem_whole hn hden]
        rcases hcase with hnonneg | hdvd
        · have hmod : x.num.tmod n = x.num % n := Int.tmod_eq_emod_of_nonneg hnonneg
          have hlt := Int.emod_lt_of_pos x.num hpos
          have hle := Int.emod_nonneg x.num (by omega : (n : Int) ≠ 0)
          obtain ⟨p, hp⟩ := Int.eq_ofNat_of_zero_le hle
          exact ⟨p, by omega, by rw [hmod, hp, Int.cast_natCast]⟩
        · exact ⟨0, hn, by rw [Int.tmod_eq_zero_of_dvd hdvd, Int.cast_zero, Nat.cast_zero]⟩

theorem defaultHash_index_iff {n : Nat} (hn : 0 < n) (event : Shape) :
    (∃ p < n, defaultHash n event = .finite (p : ℚ)) ↔ Whole n (value event) := by
  have htext : ∀ k : Nat, ∃ p < n, (Number.finite k).rem n = .finite (p : ℚ) := fun k =>
    (rem_index_iff hn _).2 ⟨Rat.den_natCast k, .inl (by rw [Rat.num_natCast]; omega)⟩
  rcases event with (x | s | _) | (x | s | _)
  · exact rem_index_iff hn x
  · exact iff_of_true (htext _) trivial
  · exact iff_of_true ⟨0, hn, rfl⟩ trivial
  · exact rem_index_iff hn x
  · exact iff_of_true (htext _) trivial
  · exact iff_of_true ⟨0, hn, rfl⟩ trivial

/-! ## The dispatcher with whole numbers -/

/-- The dispatcher whose hash function gives the index that a number is. -/
def reindex (hash : E → Option Number) (q : PartitionDispatcher E) : PartitionDispatcher E :=
  { q with hash := fun event => ((hash event).bind Number.index).map Int.ofNat }

/-- The hash function gives a partition, or discards the event. -/
def Indexed (hash : E → Option Number) (n : Nat) (event : E) : Prop :=
  ∀ x, hash event = some x → ∃ p < n, x = .finite (p : ℚ)

theorem index_natCast (p : Nat) : (Number.finite (p : ℚ)).index = some p := by
  rw [Number.index, Rat.den_natCast, Rat.num_natCast, if_pos ⟨rfl, Int.natCast_nonneg p⟩,
    Int.toNat_natCast]

theorem eq_of_index {x : Number} {p : Nat} (h : x.index = some p) : x = .finite (p : ℚ) := by
  cases x with
  | nan | infinite => exact nomatch h
  | finite x =>
      rw [Number.index, Option.ite_none_right_eq_some] at h
      obtain ⟨⟨hden, hnum⟩, hp⟩ := h
      rw [← Option.some.inj hp, ← Int.cast_natCast, Int.toNat_of_nonneg hnum]
      exact congrArg Number.finite (Rat.den_eq_one_iff x |>.1 hden).symm

section

variable {hash : E → Option Number} {q q' : PartitionDispatcher E}
  {buckets buckets' : Nat → List E} {event : E}

/-- A number that gets by the check is an index of the arrays. -/
theorem lt_of_not_atLeast {p n : Nat} (h : (Number.finite (p : ℚ)).atLeast n = false) : p < n := by
  have hle : ¬(n : ℚ) ≤ p := of_decide_eq_false h
  exact_mod_cast not_le.1 hle

theorem isNegative_natCast (p : Nat) : (Number.finite (p : ℚ)).isNegative = false :=
  decide_eq_false (not_lt.2 (Nat.cast_nonneg p))

theorem atLeast_natCast {p n : Nat} (h : p < n) : (Number.finite (p : ℚ)).atLeast n = false :=
  decide_eq_false (not_le.2 (Nat.cast_lt.2 h))

theorem routeBy_eq_ok
    (h : PartitionDispatcher.routeBy hash (q, buckets) event = .ok (q', buckets')) :
    Indexed hash q.partitionCount event ∧
      PartitionDispatcher.route (reindex hash q, buckets) event =
        .ok (reindex hash q', buckets') := by
  unfold PartitionDispatcher.routeBy at h
  dsimp only at h
  unfold PartitionDispatcher.route
  dsimp only
  cases hhash : hash event with
  | none =>
      have hindex : (reindex hash q).hash event = none := by
        show ((hash event).bind Number.index).map Int.ofNat = none
        rw [hhash]
        rfl
      rw [hhash] at h
      cases h
      exact ⟨fun x hx => (nomatch hhash.symm.trans hx), by rw [hindex]⟩
  | some x =>
      rw [hhash] at h
      dsimp only at h
      split at h
      case isTrue => exact nomatch h
      case isFalse hin =>
        obtain ⟨-, hbelow⟩ := not_or.1 hin
        cases hp : x.index with
        | none =>
            rw [hp] at h
            exact nomatch h
        | some p =>
            obtain rfl := eq_of_index hp
            have hlt := lt_of_not_atLeast (Bool.eq_false_iff.2 hbelow)
            have hindex : (reindex hash q).hash event = some (p : Int) := by
              show ((hash event).bind Number.index).map Int.ofNat = some (p : Int)
              rw [hhash, Option.bind_some, index_natCast]
              rfl
            have hvalid : ¬((p : Int) < 0 ∨ (p : Int) ≥ (reindex hash q).partitionCount) := by
              have hcount : (reindex hash q).partitionCount = q.partitionCount := rfl
              omega
            have hdemand : (reindex hash q).demandOf p = q.demandOf p := rfl
            refine ⟨fun x hx => ?_, ?_⟩
            · obtain rfl := Option.some.inj (hhash.symm.trans hx)
              exact ⟨p, hlt, rfl⟩
            · rw [hp] at h
              rw [hindex]
              dsimp only at h ⊢
              rw [if_neg hvalid, Int.toNat_natCast, hdemand]
              split_ifs at h ⊢
              · cases h
                rfl
              · cases h
                rfl

theorem routeBy_of_indexed (buckets : Nat → List E)
    (h : Indexed hash q.partitionCount event) :
    ∃ routed, PartitionDispatcher.routeBy hash (q, buckets) event = .ok routed := by
  unfold PartitionDispatcher.routeBy
  dsimp only
  cases hhash : hash event with
  | none => exact ⟨_, rfl⟩
  | some x =>
      obtain ⟨p, hp, rfl⟩ := h x hhash
      simp only [isNegative_natCast, atLeast_natCast hp, index_natCast, Bool.false_eq_true,
        or_false, if_false]
      split_ifs
      · exact ⟨_, rfl⟩
      · exact ⟨_, rfl⟩

end

section

variable {hash : E → Option Number} {q q' : PartitionDispatcher E}
  {buckets buckets' : Nat → List E} {events : List E}

theorem foldlM_routeBy_eq_ok
    (h : events.foldlM (PartitionDispatcher.routeBy hash) (q, buckets) = .ok (q', buckets')) :
    (∀ event ∈ events, Indexed hash q.partitionCount event) ∧
      events.foldlM PartitionDispatcher.route (reindex hash q, buckets) =
        .ok (reindex hash q', buckets') := by
  induction events generalizing q buckets with
  | nil =>
      cases h
      exact ⟨nofun, rfl⟩
  | cons event events ih =>
      rw [List.foldlM_cons] at h ⊢
      cases hroute : PartitionDispatcher.routeBy hash (q, buckets) event with
      | error e =>
          rw [hroute] at h
          exact nomatch h
      | ok routed =>
          obtain ⟨q₁, buckets₁⟩ := routed
          rw [hroute] at h
          obtain ⟨hindexed, hone⟩ := routeBy_eq_ok hroute
          obtain ⟨hrest, hall⟩ := ih h
          have hcount : q₁.partitionCount = q.partitionCount := (route_eq_ok hone).1.count
          rw [hcount] at hrest
          refine ⟨fun event' hevent' => ?_, by rw [hone]; exact hall⟩
          rcases List.mem_cons.1 hevent' with rfl | hin
          · exact hindexed
          · exact hrest event' hin

theorem foldlM_routeBy_of_indexed (buckets : Nat → List E)
    (h : ∀ event ∈ events, Indexed hash q.partitionCount event) :
    ∃ routed, events.foldlM (PartitionDispatcher.routeBy hash) (q, buckets) = .ok routed := by
  induction events generalizing q buckets with
  | nil => exact ⟨_, rfl⟩
  | cons event events ih =>
      obtain ⟨⟨q₁, buckets₁⟩, hroute⟩ :=
        routeBy_of_indexed buckets (h event List.mem_cons_self)
      have hcount : q₁.partitionCount = q.partitionCount :=
        (route_eq_ok (routeBy_eq_ok hroute).2).1.count
      obtain ⟨routed, hrest⟩ := ih (q := q₁) buckets₁ fun event' hin => by
        rw [hcount]
        exact h event' (List.mem_cons_of_mem _ hin)
      exact ⟨routed, by rw [List.foldlM_cons, hroute]; exact hrest⟩

theorem drainBuffer_reindex (p : Nat) :
    PartitionDispatcher.drainBuffer (reindex hash q, buckets) p =
      (reindex hash (PartitionDispatcher.drainBuffer (q, buckets) p).1,
        (PartitionDispatcher.drainBuffer (q, buckets) p).2) := by
  unfold PartitionDispatcher.drainBuffer
  dsimp only
  have hbuffer : (reindex hash q).partitionBuffers p = q.partitionBuffers p := rfl
  have hdemand : (reindex hash q).demandOf p = q.demandOf p := rfl
  rw [hbuffer, hdemand]
  split_ifs
  · rfl
  · rfl

theorem foldl_drainBuffer_reindex (hash : E → Option Number) (q : PartitionDispatcher E)
    (buckets : Nat → List E) (ps : List Nat) :
    ps.foldl PartitionDispatcher.drainBuffer (reindex hash q, buckets) =
      (reindex hash (ps.foldl PartitionDispatcher.drainBuffer (q, buckets)).1,
        (ps.foldl PartitionDispatcher.drainBuffer (q, buckets)).2) := by
  induction ps generalizing q buckets with
  | nil => rfl
  | cons p ps ih =>
      rw [List.foldl_cons, List.foldl_cons, drainBuffer_reindex]
      exact ih _ _

theorem dispatchBy_eq_ok {result : DispatchResult E}
    (h : PartitionDispatcher.dispatchBy hash q events = .ok (q', result)) :
    (∀ event ∈ events, Indexed hash q.partitionCount event) ∧
      (reindex hash q).dispatch events = .ok (reindex hash q', result) := by
  unfold PartitionDispatcher.dispatchBy at h
  unfold PartitionDispatcher.dispatch
  cases hroute : events.foldlM (PartitionDispatcher.routeBy hash) (q, fun _ => []) with
  | error e =>
      rw [hroute] at h
      exact nomatch h
  | ok routed =>
      obtain ⟨q₁, buckets₁⟩ := routed
      rw [hroute] at h
      cases h
      obtain ⟨hindexed, hall⟩ := foldlM_routeBy_eq_ok hroute
      refine ⟨hindexed, ?_⟩
      have hdrained := foldl_drainBuffer_reindex hash q₁ buckets₁ (List.range q.partitionCount)
      rw [hall]
      show Except.ok (_, DispatchResult.mk (PartitionDispatcher.batches _ _) []) = _
      rw [show (reindex hash q).partitionCount = q.partitionCount by rfl, hdrained]
      rfl

theorem dispatchBy_of_indexed (h : ∀ event ∈ events, Indexed hash q.partitionCount event) :
    ∃ q' result, PartitionDispatcher.dispatchBy hash q events = .ok (q', result) := by
  obtain ⟨routed, hroute⟩ := foldlM_routeBy_of_indexed (fun _ => []) h
  exact ⟨_, _, congrArg (Except.map _) hroute⟩

end

/-! ## Nothing is lost -/

/-- What the dispatcher holds back. -/
def buffered (q : PartitionDispatcher E) : List E :=
  (List.range q.partitionCount).flatMap q.partitionBuffers

/-- An event that is not discarded is sent or held back, as are those held back before. -/
theorem dispatch_perm {q q' : PartitionDispatcher E} {events : List E} {result : DispatchResult E}
    (h : q.dispatch events = .ok (q', result)) :
    (eventsOf result.dispatched ++ result.remaining ++ buffered q').Perm
      (buffered q ++ hashed q.hash events) := by
  obtain ⟨hsame, hvalid, hremaining, hlanes, hdispatched⟩ := dispatch_eq_ok h
  have hsent : eventsOf result.dispatched =
      (List.range q.partitionCount).flatMap (bucket q events) := by
    rw [hdispatched, eventsOf_batches fun p => isSome_of_bucket hsame, hsame.count]
  have hkept : buffered q' = (List.range q.partitionCount).flatMap fun p =>
      ((lane q p).pass (share q.hash p events)).serve.waiting := by
    rw [buffered, hsame.count]
    refine List.flatMap_congr fun p hp => ?_
    rw [← hlanes p (List.mem_range.1 hp)]
    rfl
  have hlane : ∀ p, (bucket q events p ++
      ((lane q p).pass (share q.hash p events)).serve.waiting).Perm
        (q.partitionBuffers p ++ share q.hash p events) := by
    intro p
    rw [bucket, List.append_assoc, Lane.served_append_serve]
    exact Lane.passed_append_pass_perm _ _
  rw [hsent, hremaining, List.append_nil, hkept]
  refine (List.flatMap_append_perm _ _ _).trans ?_
  refine (List.Perm.flatMap_left _ fun p _ => hlane p).trans ?_
  refine (List.flatMap_append_perm _ _ _).symm.trans ?_
  exact (flatMap_share_perm hvalid).append_left _

/-! ## The default hash function -/

/-- The dispatch does not throw, and every event is sent or held back. -/
def TakesAll (hash : E → Option Number) (q : PartitionDispatcher E) (events : List E) : Prop :=
  ∃ q' result, PartitionDispatcher.dispatchBy hash q events = .ok (q', result) ∧
    (eventsOf result.dispatched ++ result.remaining ++ buffered q').Perm (buffered q ++ events)

theorem takesAll_iff {hash : E → Number} {q : PartitionDispatcher E} {events : List E} :
    TakesAll (fun event => some (hash event)) q events ↔
      ∀ event ∈ events, Indexed (fun event => some (hash event)) q.partitionCount event := by
  constructor
  · rintro ⟨q', result, hdispatch, -⟩
    exact (dispatchBy_eq_ok hdispatch).1
  · intro hindexed
    obtain ⟨q', result, hdispatch⟩ := dispatchBy_of_indexed hindexed
    refine ⟨q', result, hdispatch, ?_⟩
    have hperm := dispatch_perm (dispatchBy_eq_ok hdispatch).2
    have hall : hashed (reindex (fun event => some (hash event)) q).hash events = events := by
      refine List.filter_eq_self.2 fun event hevent => ?_
      obtain ⟨p, -, hp⟩ := hindexed event hevent _ rfl
      show (((some (hash event)).bind Number.index).map Int.ofNat).isSome
      rw [Option.bind_some, hp, index_natCast]
      rfl
    rwa [hall] at hperm

/-- The default hash function gives an index for the events whose number is whole, and a dispatch
takes all events when it gives an index for each of them. -/
theorem default_partitions_iff {n : Nat} (hn : 0 < n) (shape : E → Shape) :
    (∀ event, (∃ p < n, defaultHash n (shape event) = .finite (p : ℚ)) ↔
      Whole n (value (shape event))) ∧
    ∀ (q : PartitionDispatcher E) (events : List E), q.partitionCount = n →
      (TakesAll (fun event => some (defaultHash n (shape event))) q events ↔
        ∀ event ∈ events, Whole n (value (shape event))) := by
  refine ⟨fun event => defaultHash_index_iff hn (shape event), fun q events hcount => ?_⟩
  rw [takesAll_iff, hcount]
  refine forall₂_congr fun event _ => ?_
  rw [← defaultHash_index_iff hn]
  exact ⟨fun h => h _ rfl, fun h x hx => Option.some.inj hx ▸ h⟩

theorem default_partitions_four :
    (∀ event, (∃ p : Nat, p < 4 ∧ defaultHash 4 (id event) = .finite (p : ℚ)) ↔
      Whole 4 (value (id event))) ∧
    ∀ (q : PartitionDispatcher Shape) (events : List Shape), q.partitionCount = 4 →
      (TakesAll (fun event => some (defaultHash 4 (id event))) q events ↔
        ∀ event ∈ events, Whole 4 (value (id event))) :=
  default_partitions_iff (by decide) id

/-- With four partitions, the event -1 is assigned to the partition -1 and refused. -/
theorem negative_event_throws :
    (¬∃ p : Nat, p < 4 ∧ defaultHash 4 (.plain (.number (.finite (-1)))) = .finite (p : ℚ)) ∧
      PartitionDispatcher.dispatchBy (fun event => some (defaultHash 4 event))
          (.new 4 fun _ => none) [.plain (.number (.finite (-1)))] =
        .error (.invalidPartition (.finite (-1)) 3) := by
  have hhash : defaultHash 4 (.plain (.number (.finite (-1)))) = .finite (-1) := by decide +kernel
  have hroute : PartitionDispatcher.routeBy (fun event => some (defaultHash 4 event))
      (.new 4 fun _ => none, fun _ => []) (.plain (.number (.finite (-1)))) =
        .error (.invalidPartition (.finite (-1)) 3) := by
    unfold PartitionDispatcher.routeBy
    dsimp only
    rw [hhash]
    rfl
  refine ⟨?_, ?_⟩
  · rintro ⟨p, -, hp⟩
    rw [hhash, Number.finite.injEq] at hp
    have hnonneg : (0 : ℚ) ≤ p := Nat.cast_nonneg p
    rw [← hp] at hnonneg
    exact absurd hnonneg (by decide +kernel)
  · rw [PartitionDispatcher.dispatchBy, List.foldlM_cons, hroute]
    rfl

end Libeam.Proofs.DefaultPartitions
