import Libeam.Lib.Flight
import Libeam.GenStage.Pipeline
import Libeam.Proofs.Recipients
/-!
# The demand between a producer and its consumers

What a consumer counts as pending is either on its way to the producer, or recorded there,
or on its way back as events.  So no delivery is larger than what is pending, and a
consumer does not have to round its count up to 0.
-/

namespace Libeam.Proofs.CreditConservation

open Lib Lib.Flight GenStage
open DemandDispatch (Nonneg)
open OwedDemand Recipients
open Supervision (ActorRef)

variable {E S C : Type}

/-! ## Terms -/

/-- The subscription of a consumer under a tag. -/
def held (p : Pipeline E S C) (consumerRef : ActorRef String) (tag : Tag) : Option ConsumerSub :=
  (p.consumers consumerRef).bind fun c => c.subscriptions.get tag

/-- The demand that a packet asks for a subscription. -/
def asking (tag : Tag) : Packet E → Int
  | .ask tag' demand => if tag' = tag then demand else 0
  | _ => 0

/-- The events that a packet brings to a subscription. -/
def carrying (tag : Tag) : Packet E → Int
  | .events _ tag' events => if tag' = tag then events.length else 0
  | _ => 0

/-- Every subscription has as much demand pending as is asked for in flight, recorded by
the dispatcher and answered in flight, and never more than its maximum; and no delivery
makes its count negative. -/
structure Conserved (p : Pipeline E S C) : Prop where
  balance : ∀ consumerRef tag sub, held p consumerRef tag = some sub →
    sub.pendingDemand = total (asking tag) p.flight + owedOf p.producer.dispatcher tag +
      total (carrying tag) p.flight
  bounded : ∀ consumerRef tag sub, held p consumerRef tag = some sub →
    sub.pendingDemand ≤ sub.maxDemand
  unclamped : ∀ consumerRef tag events sub, .events consumerRef tag events ∈ p.flight →
    held p consumerRef tag = some sub →
    sub.take events.length = { sub with pendingDemand := sub.pendingDemand - events.length }

/-- A new subscription has a tag of its own, and none ends. -/
def Undisturbed (p : Pipeline E S C) : PipelineAction → Prop
  | .subscribe _ tag _ => ∀ consumerRef, held p consumerRef tag = none
  | .cancelSubscription _ _ _ => False
  | _ => True

/-! ## The invariant -/

/-- The subscriptions of all consumers. -/
abbrev Holders := ActorRef String → Tag → Option ConsumerSub

/-- A subscription that has yet to ask for the first time. -/
def starting (tag : Tag) : Packet E → Int
  | .subscribe _ tag' _ _ _ => if tag' = tag then 1 else 0
  | .subscribed _ tag' => if tag' = tag then 1 else 0
  | .deferredAsk _ tag' => if tag' = tag then 1 else 0
  | _ => 0

/-- A packet is for somebody who has the subscription; and the producer knows of the
subscription from its reply on. -/
def Addressed (d : Dispatcher E) (h : Holders) (flight : List (Packet E)) : Packet E → Prop
  | .subscribe consumerRef tag _ _ _ => (h consumerRef tag).isSome ∧ d.has tag = false
  | .subscribed consumerRef tag => (h consumerRef tag).isSome ∧ d.has tag = true
  | .deferredAsk consumerRef tag => (h consumerRef tag).isSome ∧ d.has tag = true
  | .ask tag demand => 0 ≤ demand ∧ ∃ consumerRef, (h consumerRef tag).isSome
  | .events consumerRef tag _ =>
      (h consumerRef tag).isSome ∧ d.has tag = true ∧ total (starting tag) flight = 0
  | .cancel _ _ => False
  | .setDemandMode => True

structure Balanced (d : Dispatcher E) (flight : List (Packet E)) (tag : Tag)
    (sub : ConsumerSub) : Prop where
  pending : sub.pendingDemand =
    total (asking tag) flight + owedOf d tag + total (carrying tag) flight
  le_max : sub.pendingDemand ≤ sub.maxDemand
  starting_le : total (starting tag) flight ≤ 1
  /-- Nothing is pending before the initial ask. -/
  idle : 0 < total (starting tag) flight → sub.pendingDemand = 0
  known : sub.pendingDemand ≠ 0 → d.has tag = true

structure Sound (d : Dispatcher E) (h : Holders) (flight : List (Packet E)) : Prop where
  tidy : Tidy d
  nonneg : Nonneg (owes d)
  refs : ∀ tag consumerRef, refs d tag = some consumerRef → (h consumerRef tag).isSome
  single : ∀ tag consumerRef consumerRef', (h consumerRef tag).isSome →
    (h consumerRef' tag).isSome → consumerRef = consumerRef'
  addressed : ∀ packet ∈ flight, Addressed d h flight packet
  balanced : ∀ consumerRef tag sub, h consumerRef tag = some sub → Balanced d flight tag sub

variable {d d' : Dispatcher E} {h : Holders} {flight rest : List (Packet E)} {packet : Packet E}

theorem carrying_nonneg (tag : Tag) (packet : Packet E) : 0 ≤ carrying tag packet := by
  unfold carrying
  split
  · split_ifs
    · exact Int.natCast_nonneg _
    · exact le_rfl
  · exact le_rfl

theorem starting_nonneg (tag : Tag) (packet : Packet E) : 0 ≤ starting tag packet := by
  unfold starting
  split <;> first | exact le_rfl | (split_ifs <;> decide)

theorem Sound.asking_nonneg (hs : Sound d h flight) (tag : Tag) :
    ∀ packet ∈ flight, 0 ≤ asking tag packet := by
  intro packet hpacket
  have haddressed := hs.addressed packet hpacket
  cases packet with
  | ask tag' demand =>
      change 0 ≤ if tag' = tag then demand else 0
      split_ifs
      · exact haddressed.1
      · exact le_rfl
  | _ => exact le_rfl

/-- What is in flight and recorded is not negative. -/
theorem Sound.parts_nonneg (hs : Sound d h flight) (tag : Tag) :
    0 ≤ total (asking tag) flight ∧ 0 ≤ owedOf d tag ∧ 0 ≤ total (carrying tag) flight :=
  ⟨total_nonneg (hs.asking_nonneg tag), owedOf_nonneg hs.nonneg tag,
    total_nonneg fun packet _ => carrying_nonneg tag packet⟩

theorem Sound.perm {flight' : List (Packet E)} (hs : Sound d h flight)
    (hperm : flight.Perm flight') : Sound d h flight' := by
  have hstarting : ∀ tag, total (starting tag) flight' = total (starting tag) flight :=
    fun _ => (total_perm hperm).symm
  refine ⟨hs.tidy, hs.nonneg, hs.refs, hs.single, fun packet hpacket => ?_,
    fun consumerRef tag sub hsub => ?_⟩
  · have haddressed := hs.addressed packet (hperm.mem_iff.2 hpacket)
    cases packet with
    | events consumerRef tag events =>
        exact ⟨haddressed.1, haddressed.2.1, (hstarting tag).trans haddressed.2.2⟩
    | _ => exact haddressed
  · obtain ⟨hpending, hmax, hle, hidle, hknown⟩ := hs.balanced consumerRef tag sub hsub
    rw [total_perm hperm, total_perm hperm] at hpending
    rw [← hstarting] at hle hidle
    exact ⟨hpending, hmax, hle, hidle, hknown⟩

/-- An addressed packet is so in any flight without other subscriptions on their way. -/
theorem Addressed.of_starting {flight' : List (Packet E)} (hd : ∀ tag, d'.has tag = d.has tag)
    (hstarting : ∀ tag, total (starting tag) flight = 0 → total (starting tag) flight' = 0)
    (haddressed : Addressed d h flight packet) : Addressed d' h flight' packet := by
  cases packet with
  | subscribe consumerRef tag maxDemand minDemand partition =>
      exact ⟨haddressed.1, (hd tag).trans haddressed.2⟩
  | subscribed consumerRef tag => exact ⟨haddressed.1, (hd tag).trans haddressed.2⟩
  | deferredAsk consumerRef tag => exact ⟨haddressed.1, (hd tag).trans haddressed.2⟩
  | ask | cancel => exact haddressed
  | events consumerRef tag events =>
      exact ⟨haddressed.1, (hd tag).trans haddressed.2.1, hstarting tag haddressed.2.2⟩
  | setDemandMode => trivial

/-! ## The producer handles a message -/

theorem total_casts (w : Packet E → Int) (acts : Trace E) :
    total w (Pipeline.casts acts) =
      (acts.batches.map fun b => w (.events b.consumerRef b.tag b.events)).sum := by
  rw [total, Pipeline.casts, List.map_map]
  rfl

theorem carrying_casts (tag : Tag) (acts : Trace E) :
    total (carrying tag) (Pipeline.casts acts) = acts.sentTo tag :=
  total_casts (carrying tag) acts

theorem total_casts_eq_zero {w : Packet E → Int}
    (hw : ∀ consumerRef tag events, w (.events consumerRef tag events) = 0) (acts : Trace E) :
    total w (Pipeline.casts acts) = 0 := by
  rw [total_casts]
  refine List.sum_eq_zero fun v hv => ?_
  obtain ⟨b, -, rfl⟩ := List.mem_map.1 hv
  exact hw _ _ _

/-- What a packet asks for goes to the books, and what is sent goes from them. -/
theorem Sound.settle {acts : Trace E} (hs : Sound d h (packet :: rest))
    (hsettles : Settles d acts d') (hasked : ∀ tag, acts.askedBy tag = asking tag packet)
    (hcarrying : ∀ tag, carrying tag packet = 0) (hstarting : ∀ tag, starting tag packet = 0) :
    Sound d' h (rest ++ Pipeline.casts acts) := by
  have hhas := hsettles.has_eq hs.tidy
  have hstarts : ∀ tag, total (starting tag) (rest ++ Pipeline.casts acts) =
      total (starting tag) (packet :: rest) := fun tag => by
    rw [total_append, total_casts_eq_zero (fun _ _ _ => rfl), total_cons, hstarting]
    ring
  refine ⟨hsettles.tidy, hsettles.nonneg, fun tag consumerRef href => ?_, hs.single,
    fun packet' hpacket => ?_, fun consumerRef tag sub hsub => ?_⟩
  · rw [hsettles.refs_eq] at href
    exact hs.refs tag consumerRef href
  · rcases List.mem_append.1 hpacket with hin | hin
    · exact Addressed.of_starting hhas (fun tag hzero => (hstarts tag).trans hzero)
        (hs.addressed packet' (List.mem_cons_of_mem _ hin))
    · -- whoever is sent events has asked for some
      obtain ⟨b, hb, rfl⟩ := List.mem_map.1 hin
      obtain ⟨href, hpos⟩ := hsettles.sent b hb
      have hsome := hs.refs b.tag b.consumerRef href
      obtain ⟨sub, hsub⟩ := Option.isSome_iff_exists.1 hsome
      obtain ⟨hpending, -, -, hidle, hknown⟩ := hs.balanced b.consumerRef b.tag sub hsub
      obtain ⟨hasks, howed, hcarries⟩ := hs.parts_nonneg b.tag
      have hrest : 0 ≤ total (asking b.tag) rest := total_nonneg fun packet' hin =>
        hs.asking_nonneg b.tag packet' (List.mem_cons_of_mem _ hin)
      have hnone : 0 ≤ total (starting b.tag) (packet :: rest) :=
        total_nonneg fun packet' _ => starting_nonneg b.tag packet'
      rw [hasked] at hpos
      rw [total_cons] at hpending
      have hne : sub.pendingDemand ≠ 0 := by omega
      refine ⟨hsome, (hhas b.tag).trans (hknown hne), (hstarts b.tag).trans ?_⟩
      by_contra hsome
      exact hne (hidle (by omega))
  · obtain ⟨hpending, hmax, hle, hidle, hknown⟩ := hs.balanced consumerRef tag sub hsub
    obtain ⟨hasks, howed, hcarries⟩ := hs.parts_nonneg tag
    have hrest : 0 ≤ total (asking tag) rest := total_nonneg fun packet' hin =>
      hs.asking_nonneg tag packet' (List.mem_cons_of_mem _ hin)
    have hone := hs.asking_nonneg tag packet List.mem_cons_self
    have hcredit : (if d.has tag then acts.askedBy tag else 0) = asking tag packet := by
      rw [hasked]
      split_ifs with hhas
      · rfl
      · have hzero : sub.pendingDemand = 0 := by
          by_contra hne
          exact hhas (hknown hne)
        rw [total_cons] at hpending
        omega
    refine ⟨?_, hmax, (hstarts tag).trans_le hle, fun hpos => hidle ((hstarts tag) ▸ hpos),
      fun hne => (hhas tag).trans (hknown hne)⟩
    have howed' := hsettles.owed_eq tag
    rw [hcredit] at howed'
    rw [total_append, total_append, total_casts_eq_zero (fun _ _ _ => rfl), carrying_casts, howed',
      hpending, total_cons, total_cons, hcarrying]
    ring

/-! ## The consumers -/

/-- A subscription is made, or changes. -/
def put (h : Holders) (consumerRef : ActorRef String) (tag : Tag) (sub : ConsumerSub) : Holders :=
  fun consumerRef' tag' =>
    if consumerRef' = consumerRef ∧ tag' = tag then some sub else h consumerRef' tag'

variable {consumerRef : ActorRef String} {tag : Tag} {sub sub' : ConsumerSub}

theorem isSome_put {consumerRef' : ActorRef String} {tag' : Tag}
    (hsome : (h consumerRef' tag').isSome) :
    (put h consumerRef tag sub consumerRef' tag').isSome := by
  unfold put
  split_ifs
  · rfl
  · exact hsome

theorem put_self (h : Holders) (consumerRef : ActorRef String) (tag : Tag) (sub : ConsumerSub) :
    put h consumerRef tag sub consumerRef tag = some sub :=
  if_pos ⟨rfl, rfl⟩

theorem Addressed.put (haddressed : Addressed d h flight packet) :
    Addressed d (put h consumerRef tag sub) flight packet := by
  cases packet with
  | subscribe | subscribed | deferredAsk | events => exact haddressed.imp_left isSome_put
  | ask _ _ =>
      exact haddressed.imp_right fun ⟨consumerRef', hsome⟩ => ⟨consumerRef', isSome_put hsome⟩
  | cancel _ _ => exact haddressed
  | setDemandMode => trivial

/-- Whoever has a subscription after a change is the one it was changed for, or had
another one. -/
theorem Sound.put_cases (hs : Sound d h flight) (hsub : h consumerRef tag = some sub)
    {consumerRef' : ActorRef String} {tag' : Tag} {other : ConsumerSub}
    (hother : put h consumerRef tag sub' consumerRef' tag' = some other) :
    consumerRef' = consumerRef ∧ tag' = tag ∧ other = sub' ∨
      tag' ≠ tag ∧ h consumerRef' tag' = some other := by
  unfold put at hother
  split_ifs at hother with hsame
  · exact .inl ⟨hsame.1, hsame.2, (Option.some.inj hother).symm⟩
  · refine .inr ⟨?_, hother⟩
    rintro rfl
    have heq := hs.single tag' consumerRef' consumerRef (by rw [hother]; rfl) (by rw [hsub]; rfl)
    exact hsame ⟨heq, rfl⟩

theorem Sound.isSome_of_put (hsub : h consumerRef tag = some sub) {consumerRef' : ActorRef String}
    {tag' : Tag} (hsome : (put h consumerRef tag sub' consumerRef' tag').isSome) :
    (h consumerRef' tag').isSome := by
  unfold put at hsome
  split_ifs at hsome with hsame
  · rw [hsame.1, hsame.2, hsub]
    rfl
  · exact hsome

/-- A packet is lost that neither asks nor carries. -/
theorem Sound.drop (hs : Sound d h (packet :: rest)) (hasking : ∀ tag, asking tag packet = 0)
    (hcarrying : ∀ tag, carrying tag packet = 0) : Sound d h rest := by
  have hle : ∀ tag, total (starting tag) rest ≤ total (starting tag) (packet :: rest) :=
    fun tag => by
      rw [total_cons]
      exact le_add_of_nonneg_left (starting_nonneg tag packet)
  have hnonneg : ∀ tag, 0 ≤ total (starting tag) rest := fun tag =>
    total_nonneg fun packet' _ => starting_nonneg tag packet'
  refine ⟨hs.tidy, hs.nonneg, hs.refs, hs.single, fun packet' hpacket => ?_,
    fun consumerRef tag sub hsub => ?_⟩
  · exact Addressed.of_starting (fun _ => rfl)
      (fun tag hzero => le_antisymm ((hle tag).trans_eq hzero) (hnonneg tag))
      (hs.addressed packet' (List.mem_cons_of_mem _ hpacket))
  · obtain ⟨hpending, hmax, hone, hidle, hknown⟩ := hs.balanced consumerRef tag sub hsub
    rw [total_cons, total_cons, hasking, hcarrying, zero_add, zero_add] at hpending
    exact ⟨hpending, hmax, (hle tag).trans hone, fun hpos => hidle (hpos.trans_le (hle tag)),
      hknown⟩

/-- Packets are sent in the place of others with which they agree in all that counts. -/
theorem Sound.exchange (old : List (Packet E)) {new : List (Packet E)}
    (hs : Sound d h (old ++ rest))
    (hasking : ∀ tag, total (asking tag) new = total (asking tag) old)
    (hcarrying : ∀ tag, total (carrying tag) new = total (carrying tag) old)
    (hstarting : ∀ tag, total (starting tag) new = total (starting tag) old)
    (haddressed : ∀ packet ∈ new, Addressed d h (rest ++ new) packet) :
    Sound d h (rest ++ new) := by
  have hstarts : ∀ tag, total (starting tag) (rest ++ new) = total (starting tag) (old ++ rest) :=
    fun tag => by
      rw [total_append, total_append, hstarting, add_comm]
  refine ⟨hs.tidy, hs.nonneg, hs.refs, hs.single, fun packet hpacket => ?_,
    fun consumerRef tag sub hsub => ?_⟩
  · rcases List.mem_append.1 hpacket with hin | hin
    · exact Addressed.of_starting (fun _ => rfl) (fun tag hzero => (hstarts tag).trans hzero)
        (hs.addressed packet (List.mem_append_right _ hin))
    · exact haddressed packet hin
  · obtain ⟨hpending, hmax, hle, hidle, hknown⟩ := hs.balanced consumerRef tag sub hsub
    refine ⟨?_, hmax, (hstarts tag).trans_le hle, fun hpos => hidle (hstarts tag ▸ hpos), hknown⟩
    rw [hpending, total_append, total_append, total_append, total_append, hasking, hcarrying]
    ring

/-- A consumer takes note of a subscription and calls the producer. -/
theorem Sound.subscribe {maxDemand : Nat} {minDemand : Int} {partition : Option PartitionOption}
    (hs : Sound d h flight) (hnew : ∀ consumerRef, h consumerRef tag = none)
    (hzero : sub.pendingDemand = 0) :
    Sound d (put h consumerRef tag sub)
      (flight ++ [.subscribe consumerRef tag maxDemand minDemand partition]) := by
  have hknown : ∀ consumerRef', ¬(h consumerRef' tag).isSome := fun consumerRef' hsome => by
    rw [hnew] at hsome
    exact Bool.false_ne_true hsome
  have hhas : d.has tag = false := by
    cases hhas : d.has tag with
    | false => rfl
    | true =>
        rw [← refs_isSome hs.tidy] at hhas
        obtain ⟨consumerRef', href⟩ := Option.isSome_iff_exists.1 hhas
        exact absurd (hs.refs tag consumerRef' href) (hknown consumerRef')
  -- nothing in flight is for the new tag
  have hflight : ∀ packet ∈ flight,
      asking tag packet = 0 ∧ carrying tag packet = 0 ∧ starting tag packet = 0 := by
    intro packet hpacket
    have haddressed := hs.addressed packet hpacket
    have hne : ∀ consumerRef' tag', (h consumerRef' tag').isSome → tag' ≠ tag := by
      rintro consumerRef' tag' hsome rfl
      exact hknown consumerRef' hsome
    cases packet with
    | subscribe | subscribed | deferredAsk => exact ⟨rfl, rfl, if_neg (hne _ _ haddressed.1)⟩
    | ask tag' demand =>
        obtain ⟨-, consumerRef', hsome⟩ := haddressed
        exact ⟨if_neg (hne _ _ hsome), rfl, rfl⟩
    | events _ tag' events => exact ⟨rfl, if_neg (hne _ _ haddressed.1), rfl⟩
    | cancel _ _ => exact haddressed.elim
    | setDemandMode => exact ⟨rfl, rfl, rfl⟩
  have hstarts : ∀ tag', total (starting tag') (flight ++ [.subscribe consumerRef tag maxDemand
      minDemand partition]) = total (starting tag') flight + if tag = tag' then 1 else 0 :=
    fun tag' => by
      rw [total_append, total_cons, total_nil, add_zero]
      rfl
  have hother : ∀ consumerRef' tag' other,
      put h consumerRef tag sub consumerRef' tag' = some other →
      consumerRef' = consumerRef ∧ tag' = tag ∧ other = sub ∨
        tag' ≠ tag ∧ h consumerRef' tag' = some other := by
    intro consumerRef' tag' other hput
    unfold put at hput
    split_ifs at hput with hsame
    · exact .inl ⟨hsame.1, hsame.2, (Option.some.inj hput).symm⟩
    · refine .inr ⟨?_, hput⟩
      rintro rfl
      exact nomatch (hnew consumerRef').symm.trans hput
  refine ⟨hs.tidy, hs.nonneg, fun tag' consumerRef' href => isSome_put (hs.refs tag' _ href),
    fun tag' consumerRef₁ consumerRef₂ hsome₁ hsome₂ => ?_, fun packet hpacket => ?_,
    fun consumerRef' tag' other hput => ?_⟩
  · obtain ⟨sub₁, hsub₁⟩ := Option.isSome_iff_exists.1 hsome₁
    obtain ⟨sub₂, hsub₂⟩ := Option.isSome_iff_exists.1 hsome₂
    rcases hother _ _ _ hsub₁ with ⟨rfl, rfl, -⟩ | ⟨hne₁, hheld₁⟩
    · rcases hother _ _ _ hsub₂ with ⟨rfl, -, -⟩ | ⟨hne₂, -⟩
      · rfl
      · exact absurd rfl hne₂
    · rcases hother _ _ _ hsub₂ with ⟨-, rfl, -⟩ | ⟨-, hheld₂⟩
      · exact absurd rfl hne₁
      · exact hs.single tag' _ _ (by rw [hheld₁]; rfl) (by rw [hheld₂]; rfl)
  · rcases List.mem_append.1 hpacket with hin | hin
    · have haddressed := hs.addressed packet hin
      cases packet with
      | events consumerRef' tag' events =>
          have hne : tag ≠ tag' := by
            rintro rfl
            exact hknown consumerRef' haddressed.1
          refine ⟨isSome_put haddressed.1, haddressed.2.1, ?_⟩
          rw [hstarts, if_neg hne, add_zero]
          exact haddressed.2.2
      | _ => exact Addressed.put haddressed
    · rw [List.mem_singleton.1 hin]
      exact ⟨by rw [put_self]; rfl, hhas⟩
  · have hasks : total (asking tag') (flight ++ [.subscribe consumerRef tag maxDemand minDemand
        partition]) = total (asking tag') flight := by
      rw [total_append, total_cons, total_nil]
      exact add_zero _
    have hcarries : total (carrying tag') (flight ++ [.subscribe consumerRef tag maxDemand minDemand
        partition]) = total (carrying tag') flight := by
      rw [total_append, total_cons, total_nil]
      exact add_zero _
    rcases hother _ _ _ hput with ⟨rfl, rfl, rfl⟩ | ⟨hne, hheld⟩
    · have hnone : total (starting tag') flight = 0 := total_eq_zero fun packet hin =>
        (hflight packet hin).2.2
      refine ⟨?_, ?_, ?_, fun _ => hzero, fun hne => absurd hzero hne⟩
      · rw [hasks, hcarries, hzero, owedOf_eq_zero hhas,
          total_eq_zero fun packet hin => (hflight packet hin).1,
          total_eq_zero fun packet hin => (hflight packet hin).2.1]
        rfl
      · rw [hzero]
        exact Int.natCast_nonneg _
      · rw [hstarts, hnone, if_pos rfl]
        exact le_rfl
    · obtain ⟨hpending, hmax, hle, hidle, hknown'⟩ := hs.balanced consumerRef' tag' other hheld
      have hstarts' := hstarts tag'
      rw [if_neg (Ne.symm hne), add_zero] at hstarts'
      exact ⟨by rw [hasks, hcarries, hpending], hmax, hstarts'.trans_le hle,
        fun hpos => hidle (hstarts' ▸ hpos), hknown'⟩

/-- The producer accepts a subscription and replies. -/
theorem Sound.accept {maxDemand : Nat} {minDemand : Int} {partition : Option PartitionOption}
    (hs : Sound d h (.subscribe consumerRef tag maxDemand minDemand partition :: rest))
    (htidy : Tidy d') (hnonneg : Nonneg (owes d'))
    (hrefs : Recipients.refs d' = Function.update (Recipients.refs d) tag (some consumerRef))
    (howed : ∀ tag', owedOf d' tag' = owedOf d tag') :
    Sound d' h (rest ++ [.subscribed consumerRef tag]) := by
  obtain ⟨hsome, -⟩ := hs.addressed _ List.mem_cons_self
  have hhas : d'.has tag = true := by
    rw [← refs_isSome htidy, hrefs, Function.update_self]
    rfl
  have hother : ∀ tag', tag' ≠ tag → d'.has tag' = d.has tag' := fun tag' hne => by
    rw [← refs_isSome htidy, hrefs, Function.update_of_ne hne, refs_isSome hs.tidy]
  have hmore : ∀ tag', d.has tag' = true → d'.has tag' = true := fun tag' hd => by
    by_cases htag : tag' = tag
    · rw [htag, hhas]
    · rw [hother tag' htag, hd]
  have hstarts : ∀ tag', total (starting tag') (rest ++ [.subscribed consumerRef tag]) =
      total (starting tag') (.subscribe consumerRef tag maxDemand minDemand partition :: rest) :=
    fun tag' => by
      rw [total_append, total_cons, total_cons, total_nil, add_zero, add_comm]
      rfl
  -- no other packet is on its way to the initial ask of this subscription
  have honly : ∀ packet ∈ rest, starting tag packet = 0 := by
    obtain ⟨sub, hsub⟩ := Option.isSome_iff_exists.1 hsome
    have hle := (hs.balanced consumerRef tag sub hsub).starting_le
    have hone : starting tag (.subscribe consumerRef tag maxDemand minDemand partition : Packet E) =
        1 := if_pos rfl
    rw [total_cons, hone] at hle
    intro packet hpacket
    have hin := le_total (fun packet' _ => starting_nonneg tag packet') hpacket
    have hnone := starting_nonneg tag packet
    omega
  refine ⟨htidy, hnonneg, fun tag' consumerRef' href => ?_, hs.single, fun packet hpacket => ?_,
    fun consumerRef' tag' sub hsub => ?_⟩
  · rw [hrefs] at href
    by_cases htag : tag' = tag
    · rw [htag, Function.update_self, Option.some.injEq] at href
      rw [htag, ← href]
      exact hsome
    · rw [Function.update_of_ne htag] at href
      exact hs.refs tag' consumerRef' href
  · rcases List.mem_append.1 hpacket with hin | hin
    · have haddressed := hs.addressed packet (List.mem_cons_of_mem _ hin)
      cases packet with
      | subscribe consumerRef' tag' maxDemand' minDemand' partition' =>
          have htag : tag' ≠ tag := fun htag => by
            have hzero := honly _ hin
            rw [starting, if_pos htag] at hzero
            exact one_ne_zero hzero
          exact ⟨haddressed.1, (hother tag' htag).trans haddressed.2⟩
      | subscribed consumerRef' tag' => exact ⟨haddressed.1, hmore tag' haddressed.2⟩
      | deferredAsk consumerRef' tag' => exact ⟨haddressed.1, hmore tag' haddressed.2⟩
      | ask | cancel => exact haddressed
      | events consumerRef' tag' events =>
          exact ⟨haddressed.1, hmore tag' haddressed.2.1, (hstarts tag').trans haddressed.2.2⟩
      | setDemandMode => trivial
    · rw [List.mem_singleton.1 hin]
      exact ⟨hsome, hhas⟩
  · obtain ⟨hpending, hmax, hle, hidle, hknown⟩ := hs.balanced consumerRef' tag' sub hsub
    refine ⟨?_, hmax, (hstarts tag').trans_le hle, fun hpos => hidle (hstarts tag' ▸ hpos),
      fun hne => hmore tag' (hknown hne)⟩
    rw [hpending, howed, total_append, total_append]
    simp [asking, carrying]

/-- A consumer takes what is delivered. -/
theorem Sound.take {events : List E} (hs : Sound d h (.events consumerRef tag events :: rest))
    (hsub : h consumerRef tag = some sub) :
    sub.take events.length = { sub with pendingDemand := sub.pendingDemand - events.length } ∧
      Sound d (put h consumerRef tag (sub.take events.length)) rest := by
  obtain ⟨hpending, hmax, hle, hidle, hknown⟩ := hs.balanced consumerRef tag sub hsub
  obtain ⟨hasks, howed, hcarries⟩ := hs.parts_nonneg tag
  obtain ⟨-, hhas, hnone⟩ := hs.addressed _ List.mem_cons_self
  have hcount : carrying tag (.events consumerRef tag events) = events.length := if_pos rfl
  have hrest : 0 ≤ total (carrying tag) rest :=
    total_nonneg fun packet _ => carrying_nonneg tag packet
  have hasksRest : ∀ tag', total (asking tag') (.events consumerRef tag events :: rest) =
      total (asking tag') rest := fun tag' => (total_cons _ _ _).trans (zero_add _)
  have hstarts : ∀ tag', total (starting tag') (.events consumerRef tag events :: rest) =
      total (starting tag') rest := fun tag' => (total_cons _ _ _).trans (zero_add _)
  rw [hasksRest] at hpending hasks
  rw [total_cons, hcount] at hpending
  -- the count does not become negative
  have htake : sub.take events.length =
      { sub with pendingDemand := sub.pendingDemand - events.length } := by
    rw [ConsumerSub.take, max_eq_right (by omega)]
  refine ⟨htake, hs.tidy, hs.nonneg, fun tag' consumerRef' href => isSome_put (hs.refs tag' _ href),
    fun tag' consumerRef₁ consumerRef₂ hsome₁ hsome₂ => hs.single tag' _ _
      (Sound.isSome_of_put hsub hsome₁) (Sound.isSome_of_put hsub hsome₂),
    fun packet hpacket => ?_, fun consumerRef' tag' other hput => ?_⟩
  · exact Addressed.put (Addressed.of_starting (fun _ => rfl)
      (fun tag' hzero => (hstarts tag').symm.trans hzero)
      (hs.addressed packet (List.mem_cons_of_mem _ hpacket)))
  · rcases hs.put_cases hsub hput with ⟨rfl, rfl, rfl⟩ | ⟨hne, hheld⟩
    · rw [htake]
      refine ⟨?_, ?_, (hstarts tag').symm.trans_le hle, fun hpos => ?_, fun _ => hhas⟩
      · dsimp only
        omega
      · dsimp only
        omega
      · rw [← hstarts, hnone] at hpos
        exact absurd hpos (lt_irrefl 0)
    · obtain ⟨hpending', hmax', hle', hidle', hknown'⟩ := hs.balanced consumerRef' tag' other hheld
      have hcarry : carrying tag' (.events consumerRef tag events) = 0 := if_neg (Ne.symm hne)
      rw [hasksRest, total_cons, hcarry, zero_add] at hpending'
      rw [hstarts] at hle' hidle'
      exact ⟨hpending', hmax', hle', hidle', hknown'⟩

/-- A consumer asks for more. -/
theorem Sound.ask {demand : Int} (hs : Sound d h flight) (hsub : h consumerRef tag = some sub)
    (hhas : d.has tag = true) (hnone : total (starting tag) flight = 0) (hpos : 0 ≤ demand)
    (hroom : sub.pendingDemand + demand ≤ sub.maxDemand) :
    Sound d (put h consumerRef tag (sub.ask demand)) (flight ++ [.ask tag demand]) := by
  have hstarts : ∀ tag', total (starting tag') (flight ++ [.ask tag demand]) =
      total (starting tag') flight := fun tag' => by
    rw [total_append, total_cons, total_nil]
    exact add_zero _
  have hcarries : ∀ tag', total (carrying tag') (flight ++ [.ask tag demand]) =
      total (carrying tag') flight := fun tag' => by
    rw [total_append, total_cons, total_nil]
    exact add_zero _
  have hasks : ∀ tag', total (asking tag') (flight ++ [.ask tag demand]) =
      total (asking tag') flight + if tag = tag' then demand else 0 := fun tag' => by
    rw [total_append, total_cons, total_nil, add_zero]
    rfl
  refine ⟨hs.tidy, hs.nonneg, fun tag' consumerRef' href => isSome_put (hs.refs tag' _ href),
    fun tag' consumerRef₁ consumerRef₂ hsome₁ hsome₂ => hs.single tag' _ _
      (Sound.isSome_of_put hsub hsome₁) (Sound.isSome_of_put hsub hsome₂),
    fun packet hpacket => ?_, fun consumerRef' tag' other hput => ?_⟩
  · rcases List.mem_append.1 hpacket with hin | hin
    · exact Addressed.put (Addressed.of_starting (fun _ => rfl)
        (fun tag' hzero => (hstarts tag').trans hzero) (hs.addressed packet hin))
    · rw [List.mem_singleton.1 hin]
      exact ⟨hpos, consumerRef, by rw [put_self]; rfl⟩
  · rcases hs.put_cases hsub hput with ⟨rfl, rfl, rfl⟩ | ⟨hne, hheld⟩
    · obtain ⟨hpending, -⟩ := hs.balanced consumerRef' tag' sub hsub
      refine ⟨?_, hroom, ?_, fun hstart => ?_, fun _ => hhas⟩
      · rw [hasks, hcarries, if_pos rfl]
        dsimp only [ConsumerSub.ask]
        omega
      · rw [hstarts, hnone]
        exact zero_le_one
      · rw [hstarts, hnone] at hstart
        exact absurd hstart (lt_irrefl 0)
    · obtain ⟨hpending, hmax, hle, hidle, hknown⟩ := hs.balanced consumerRef' tag' other hheld
      refine ⟨?_, hmax, (hstarts tag').trans_le hle, fun hstart => hidle (hstarts tag' ▸ hstart),
        hknown⟩
      rw [hasks, hcarries, if_neg (Ne.symm hne), add_zero, hpending]

theorem put_put (h : Holders) (consumerRef : ActorRef String) (tag : Tag)
    (sub sub' : ConsumerSub) :
    put (put h consumerRef tag sub) consumerRef tag sub' = put h consumerRef tag sub' := by
  funext consumerRef' tag'
  unfold put
  split_ifs <;> rfl

/-! ## One step -/

variable {p p' : Pipeline E S C} {c c' : ConsumerStage E C}

theorem held_send (p : Pipeline E S C) (packets : List (Packet E)) :
    held (p.send packets) = held p := rfl

theorem held_setConsumer (p : Pipeline E S C) (consumerRef consumerRef' : ActorRef String)
    (c : ConsumerStage E C) (tag : Tag) :
    held (p.setConsumer consumerRef c) consumerRef' tag =
      if consumerRef' = consumerRef then c.subscriptions.get tag else held p consumerRef' tag := by
  unfold held Pipeline.setConsumer
  dsimp only
  by_cases href : consumerRef' = consumerRef
  · rw [href, Function.update_self, if_pos rfl]
    rfl
  · rw [Function.update_of_ne href, if_neg href]

/-- One subscription of a consumer changes. -/
theorem held_eq_put (hc : p.consumers consumerRef = some c)
    (hsubs : ∀ tag', c'.subscriptions.get tag' =
      if tag' = tag then some sub else c.subscriptions.get tag') :
    held (p.setConsumer consumerRef c') = put (held p) consumerRef tag sub := by
  funext consumerRef' tag'
  rw [held_setConsumer, hsubs, put]
  by_cases href : consumerRef' = consumerRef
  · rw [if_pos href, held, href, hc, Option.bind_some]
    by_cases htag : tag' = tag
    · rw [if_pos htag, if_pos ⟨rfl, htag⟩]
    · rw [if_neg htag, if_neg fun hboth => htag hboth.2]
  · rw [if_neg href, if_neg fun hboth => href hboth.1]

theorem produce_eq_some {m : ProducerMessage} {acts : Trace E}
    (h : p.produce m = some (p', acts)) :
    ∃ stage, p.producer.receive m = .ok (stage, acts) ∧
      p' = Pipeline.send { p with producer := stage } (Pipeline.casts acts) := by
  unfold Pipeline.produce at h
  cases hreceive : p.producer.receive m with
  | error e =>
      rw [hreceive] at h
      exact nomatch h
  | ok done =>
      rw [hreceive] at h
      cases h
      exact ⟨done.1, rfl, rfl⟩

theorem map_fst_eq_some {α β : Type} {x : Option (α × β)} {a : α}
    (h : x.map Prod.fst = some a) : ∃ b, x = some (a, b) := by
  obtain ⟨⟨a', b⟩, hx, rfl⟩ := Option.map_eq_some_iff.1 h
  exact ⟨b, hx⟩

/-- The producer handles an ask. -/
theorem sound_produce_ask {tag : Tag} {demand : Int}
    (hs : Sound p.producer.dispatcher (held p) (.ask tag demand :: p.flight))
    (h : (p.produce (.ask tag demand)).map Prod.fst = some p') :
    Sound p'.producer.dispatcher (held p') p'.flight := by
  obtain ⟨acts, hproduce⟩ := map_fst_eq_some h
  obtain ⟨stage, hreceive, rfl⟩ := produce_eq_some hproduce
  obtain ⟨hsettles, hasked⟩ := settles_handleAsk hs.tidy hs.nonneg hreceive
  obtain ⟨hpos, -⟩ := hs.addressed _ List.mem_cons_self
  refine hs.settle hsettles (fun tag' => ?_) (fun _ => rfl) (fun _ => rfl)
  rw [hasked, max_eq_right hpos]
  rfl

/-- A consumer's ask is handled at once, or it is sent. -/
theorem sound_ask {message : AskProducer} {sync : Bool}
    (hs : Sound p.producer.dispatcher (held p) (p.flight ++ [.ask message.tag message.demand]))
    (h : p.ask c (some message) sync = some p') :
    Sound p'.producer.dispatcher (held p') p'.flight := by
  unfold Pipeline.ask at h
  dsimp only at h
  split_ifs at h with hsync
  · exact sound_produce_ask (hs.perm (List.perm_append_singleton _ _)) h
  · cases h
    exact hs

theorem sound_deferredAsk {sync : Bool}
    (hs : Sound p.producer.dispatcher (held p) (.deferredAsk consumerRef tag :: p.flight))
    (h : p.handle sync (.deferredAsk consumerRef tag) = some p') :
    Sound p'.producer.dispatcher (held p') p'.flight := by
  obtain ⟨hsome, hhas⟩ := hs.addressed _ List.mem_cons_self
  obtain ⟨sub, hsub⟩ := Option.isSome_iff_exists.1 hsome
  obtain ⟨c, hc, hget⟩ := Option.bind_eq_some_iff.1 hsub
  obtain ⟨-, -, hle, hidle, -⟩ := hs.balanced consumerRef tag sub hsub
  have hone : starting tag (.deferredAsk consumerRef tag : Packet E) = 1 := if_pos rfl
  have hrest : 0 ≤ total (starting tag) p.flight :=
    total_nonneg fun packet _ => starting_nonneg tag packet
  rw [total_cons, hone] at hle hidle
  have hzero := hidle (by omega)
  have hsubs : ∀ tag', (c.subscriptions.modify tag (·.ask sub.maxDemand)).get tag' =
      if tag' = tag then some (sub.ask sub.maxDemand) else c.subscriptions.get tag' :=
    OrderedMap.get_modify_of hget _
  have hdropped : Sound p.producer.dispatcher (held p) p.flight :=
    hs.drop (fun _ => rfl) fun _ => rfl
  have hasked := hdropped.ask hsub hhas (by omega) (Int.natCast_nonneg sub.maxDemand)
    (by rw [hzero, zero_add])
  simp only [Pipeline.handle, hc, ConsumerStage.deferredAsk, hget,
    ConsumerStage.askProducer] at h
  refine sound_ask ?_ h
  rw [held_eq_put hc hsubs]
  exact hasked

theorem sound_events {events : List E} {sync : Bool}
    (hs : Sound p.producer.dispatcher (held p) (.events consumerRef tag events :: p.flight))
    (h : p.handle sync (.events consumerRef tag events) = some p') :
    Sound p'.producer.dispatcher (held p') p'.flight := by
  obtain ⟨hsome, hhas, hnone⟩ := hs.addressed _ List.mem_cons_self
  obtain ⟨sub, hsub⟩ := Option.isSome_iff_exists.1 hsome
  obtain ⟨c, hc, hget⟩ := Option.bind_eq_some_iff.1 hsub
  have hstarting : total (starting tag) p.flight = 0 := by
    rw [total_cons] at hnone
    exact (zero_add _).symm.trans hnone
  obtain ⟨-, htaken⟩ := hs.take hsub
  have htake : ∀ tag', (c.subscriptions.modify tag fun _ => sub.take events.length).get tag' =
      if tag' = tag then some (sub.take events.length) else c.subscriptions.get tag' :=
    OrderedMap.get_modify_of hget _
  have hput := put_self (held p) consumerRef tag (sub.take events.length)
  have hmax := (htaken.balanced consumerRef tag _ hput).le_max
  simp only [Pipeline.handle, hc, ConsumerStage.handleEvents, hget] at h
  split_ifs at h with hlow
  · -- the demand has dropped so far that more is asked
    have hsubs : ∀ tag', ((c.subscriptions.modify tag fun _ => sub.take events.length).modify tag
        (·.ask ((sub.take events.length).maxDemand - (sub.take events.length).pendingDemand))).get
          tag' = if tag' = tag then some ((sub.take events.length).ask
            ((sub.take events.length).maxDemand - (sub.take events.length).pendingDemand))
          else c.subscriptions.get tag' := fun tag' => by
      rw [OrderedMap.get_modify_of ((htake tag).trans (if_pos rfl)), htake]
      split_ifs <;> rfl
    have hasked := htaken.ask hput hhas hstarting (sub_nonneg.2 hmax) (by omega)
    refine sound_ask ?_ h
    rw [held_eq_put hc hsubs, ← put_put (held p) consumerRef tag (sub.take events.length)]
    exact hasked
  · cases h
    rw [held_eq_put hc htake]
    exact htaken

theorem sound_subscribe {maxDemand : Nat} {minDemand : Int} {partition : Option PartitionOption}
    {sync : Bool}
    (hs : Sound p.producer.dispatcher (held p)
      (.subscribe consumerRef tag maxDemand minDemand partition :: p.flight))
    (h : p.handle sync (.subscribe consumerRef tag maxDemand minDemand partition) = some p') :
    Sound p'.producer.dispatcher (held p') p'.flight := by
  have hmapped : (p.produce (.subscribe tag consumerRef maxDemand minDemand partition)).map
      (fun done => done.1.send (Pipeline.replies consumerRef done.2)) = some p' := h
  obtain ⟨⟨p₁, acts⟩, hproduce, rfl⟩ := Option.map_eq_some_iff.1 hmapped
  obtain ⟨stage, hreceive, rfl⟩ := produce_eq_some hproduce
  obtain ⟨-, hnew⟩ := hs.addressed _ List.mem_cons_self
  obtain ⟨rfl, error, rfl⟩ | ⟨rfl, htidy, hnonneg, hrefs, howed⟩ :=
    subscribe_receive hs.tidy hs.nonneg hnew hreceive
  · have hrefused := hs.drop (fun _ => rfl) fun _ => rfl
    change Sound _ _ ((p.flight ++ []) ++ [])
    rw [List.append_nil, List.append_nil]
    exact hrefused
  · have haccepted := hs.accept htidy hnonneg hrefs howed
    change Sound _ _ ((p.flight ++ []) ++ [.subscribed consumerRef tag])
    rw [List.append_nil]
    exact haccepted

/-- What is delivered keeps the books. -/
theorem sound_handle {sync : Bool}
    (hs : Sound p.producer.dispatcher (held p) (packet :: p.flight))
    (h : p.handle sync packet = some p') :
    Sound p'.producer.dispatcher (held p') p'.flight := by
  cases packet with
  | subscribe consumerRef tag maxDemand minDemand partition => exact sound_subscribe hs h
  | subscribed consumerRef tag =>
      cases h
      have haddressed := hs.addressed _ List.mem_cons_self
      refine Sound.exchange [.subscribed consumerRef tag] hs (fun _ => rfl) (fun _ => rfl)
        (fun _ => rfl) fun packet hpacket => ?_
      rw [List.mem_singleton.1 hpacket]
      exact haddressed
  | deferredAsk consumerRef tag => exact sound_deferredAsk hs h
  | ask tag demand => exact sound_produce_ask hs h
  | events consumerRef tag events => exact sound_events hs h
  | cancel tag reason => exact (hs.addressed _ List.mem_cons_self).elim
  | setDemandMode =>
      obtain ⟨acts, hproduce⟩ := map_fst_eq_some h
      obtain ⟨stage, hreceive, rfl⟩ := produce_eq_some hproduce
      obtain ⟨hsettles, hasked⟩ := settles_setDemandMode hs.tidy hs.nonneg hreceive
      exact hs.settle hsettles hasked (fun _ => rfl) fun _ => rfl

theorem sound_step {action : PipelineAction}
    (hs : Sound p.producer.dispatcher (held p) p.flight) (hundisturbed : Undisturbed p action)
    (h : p.step action = some p') : Sound p'.producer.dispatcher (held p') p'.flight := by
  cases action with
  | subscribe consumerRef tag options =>
      unfold Pipeline.step at h
      cases hc : p.consumers consumerRef with
      | none =>
          simp only [hc] at h
          exact nomatch h
      | some c =>
          simp only [hc] at h
          cases h
          have hsubs : ∀ tag', (c.subscriptions.set tag (options.sub p.producerRef)).get tag' =
              if tag' = tag then some (options.sub p.producerRef) else c.subscriptions.get tag' :=
            fun tag' => OrderedMap.get_set _ _ _ _
          have hheld : held (p.setConsumer consumerRef
              (c.subscribeToProducer tag p.producerRef options)) =
              put (held p) consumerRef tag (options.sub p.producerRef) :=
            held_eq_put hc hsubs
          have hsubscribed : Sound p.producer.dispatcher
              (put (held p) consumerRef tag (options.sub p.producerRef))
              (p.flight ++
                [.subscribe consumerRef tag options.max options.min options.partition]) :=
            hs.subscribe hundisturbed rfl
          rw [← hheld] at hsubscribed
          exact hsubscribed
  | cancelSubscription consumerRef tag reason => exact hundisturbed.elim
  | demand =>
      cases h
      refine Sound.exchange [] hs (fun _ => rfl) (fun _ => rfl) (fun _ => rfl)
        fun packet hpacket => ?_
      rw [List.mem_singleton.1 hpacket]
      trivial
  | deliver index sync =>
      unfold Pipeline.step at h
      cases hpacket : p.flight[index]? with
      | none =>
          simp only [hpacket] at h
          exact nomatch h
      | some packet =>
          simp only [hpacket] at h
          have hperm := hs.perm (perm_eraseIdx hpacket).symm
          exact sound_handle (p := { p with flight := p.flight.eraseIdx index }) hperm h

/-! ## Every run -/

theorem sound_start (producerRef : ActorRef String) (callbacks : ProducerCallbacks E S)
    (options : ProducerOptions E) (mode : Option DemandMode)
    (consumers : ActorRef String → Option (ConsumerCallbacks E C)) :
    Sound (createDispatcher options.dispatcher)
      (held (Pipeline.start producerRef callbacks options mode consumers)) [] := by
  have hnone : ∀ consumerRef tag,
      held (Pipeline.start producerRef callbacks options mode consumers) consumerRef tag =
        none := by
    intro consumerRef tag
    unfold held Pipeline.start
    dsimp only
    cases consumers consumerRef with
    | none => rfl
    | some c => rfl
  have htidy := tidy_create options.dispatcher
  have howes := owes_create options.dispatcher
  refine ⟨htidy, ?_, fun tag consumerRef href => ?_, fun tag consumerRef _ hsome => ?_, nofun,
    fun consumerRef tag sub hsub => ?_⟩
  · rw [howes]
    exact nofun
  · have hhas : (createDispatcher options.dispatcher).has tag = true := by
      rw [← refs_isSome htidy, href]
      rfl
    rw [← has_owes, howes] at hhas
    exact nomatch hhas
  · rw [hnone] at hsome
    exact nomatch hsome
  · exact nomatch (hnone consumerRef tag).symm.trans hsub

theorem Sound.conserved (hs : Sound p.producer.dispatcher (held p) p.flight) : Conserved p := by
  refine ⟨fun consumerRef tag sub hsub => (hs.balanced consumerRef tag sub hsub).pending,
    fun consumerRef tag sub hsub => (hs.balanced consumerRef tag sub hsub).le_max,
    fun consumerRef tag events sub hpacket hsub => ?_⟩
  obtain ⟨i, hi⟩ := List.mem_iff_getElem?.1 hpacket
  exact ((hs.perm (perm_eraseIdx hi).symm).take hsub).1

/-- Whatever the stages do and in whatever order messages are handled, what a subscription
has pending is in asks on their way, recorded by the dispatcher and in events on their
way. -/
theorem credit_conserved {producerRef : ActorRef String} {callbacks : ProducerCallbacks E S}
    {options : ProducerOptions E} {mode : Option DemandMode}
    {consumers : ActorRef String → Option (ConsumerCallbacks E C)}
    {actions : List PipelineAction} {p : Pipeline E S C}
    (hrun : Transition.run Pipeline.step
      (Pipeline.start producerRef callbacks options mode consumers) actions = some p)
    (hundisturbed : Transition.Along Pipeline.step Undisturbed
      (Pipeline.start producerRef callbacks options mode consumers) actions) :
    Conserved p := by
  have hsound := Transition.run_invariant
    (I := fun p : Pipeline E S C => Sound p.producer.dispatcher (held p) p.flight)
    (fun _ _ _ hs hundisturbed hstep => sound_step hs hundisturbed hstep)
    (sound_start producerRef callbacks options mode consumers) hundisturbed hrun
  exact hsound.conserved

/-- Two consumers, of which one has taken its events and asks again by message, while the
other is about to subscribe. -/
theorem credit_conserved_two :
    ∃ p : Pipeline Int Unit Unit, Transition.run Pipeline.step
        (Pipeline.start ⟨"n", 3, none, 0⟩ ⟨(), fun _ _ => ([6, 7, 8], ())⟩ {} none
          fun _ => some ⟨(), fun _ _ s => s⟩)
        [.subscribe ⟨"n", 1, none, 0⟩ "t" { maxDemand := some 2 },
          .subscribe ⟨"n", 2, none, 0⟩ "u" { maxDemand := some 2 }, .deliver 0 false,
          .deliver 1 false, .deliver 1 true, .deliver 1 false, .deliver 1 false] = some p ∧
      p.flight = [.subscribe ⟨"n", 2, none, 0⟩ "u" 2 1 none, .ask "t" 2] ∧
      (held p ⟨"n", 1, none, 0⟩ "t").map (·.pendingDemand) = some 2 ∧ Conserved p := by
  have hrun : ∃ p : Pipeline Int Unit Unit, Transition.run Pipeline.step
      (Pipeline.start ⟨"n", 3, none, 0⟩ ⟨(), fun _ _ => ([6, 7, 8], ())⟩ {} none
        fun _ => some ⟨(), fun _ _ s => s⟩)
      [.subscribe ⟨"n", 1, none, 0⟩ "t" { maxDemand := some 2 },
        .subscribe ⟨"n", 2, none, 0⟩ "u" { maxDemand := some 2 }, .deliver 0 false,
        .deliver 1 false, .deliver 1 true, .deliver 1 false, .deliver 1 false] = some p ∧
      p.flight = [.subscribe ⟨"n", 2, none, 0⟩ "u" 2 1 none, .ask "t" 2] ∧
      (held p ⟨"n", 1, none, 0⟩ "t").map (·.pendingDemand) = some 2 := ⟨_, rfl, rfl, rfl⟩
  obtain ⟨p, hp, hflight, hpending⟩ := hrun
  refine ⟨p, hp, hflight, hpending, credit_conserved hp ⟨fun _ => rfl, fun p₁ h₁ => ?_⟩⟩
  cases h₁
  refine ⟨fun consumerRef => ?_, fun _ _ => ⟨trivial, fun _ _ => ⟨trivial, fun _ _ => ⟨trivial,
    fun _ _ => ⟨trivial, fun _ _ => ⟨trivial, fun _ _ => trivial⟩⟩⟩⟩⟩⟩
  rw [held_send, held_setConsumer]
  split_ifs <;> rfl

end Libeam.Proofs.CreditConservation
