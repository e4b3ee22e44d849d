import Libeam.Proofs.DemandOrder
/-!
# How much a producer asks of its user

Behind the demand dispatcher every ask that leaves demand calls `handleDemand` with
the total demand as it was before the buffer was drained.  The call asks for too much
exactly when the drain has just served some of it.
-/

namespace Libeam.Proofs.OverAsking

open Lib GenStage OutletMoves DemandDispatch DemandOrder

variable {E S : Type}

/-- Every call of `handleDemand` asks for no more than what the current subscribers
have asked and not been sent at that moment. -/
def NeverOverasked (t : Trace E) : Prop :=
  ∀ (before : Trace E) (n : Int) (after : Trace E),
    t = before ++ .handleDemand n :: after → n ≤ before.outstanding

/-- An ask of a subscriber finds no events in the buffer. -/
def Fresh (r : Recorded (ProducerStage E S) E) : ProducerMessage → Prop
  | .ask tag demand => demand ≤ 0 ∨ r.stage.dispatcher.has tag = false ∨ r.stage.buffer = []
  | _ => True

/-- Acts without a call of `handleDemand`. -/
def NoCalls (acts : Trace E) : Prop := ∀ n, .handleDemand n ∉ acts

theorem neverOverasked_nil : NeverOverasked ([] : Trace E) := by
  intro before n after h
  exact absurd h.symm (by simp)

theorem neverOverasked_append {t acts : Trace E} (hcalls : NoCalls acts) :
    NeverOverasked (t ++ acts) ↔ NeverOverasked t := by
  constructor
  · intro h before n after ht
    exact h before n (after ++ acts) (by rw [ht, List.append_assoc, List.cons_append])
  · intro h before n after hsplit
    rcases List.append_eq_append_iff.1 hsplit with ⟨rest, -, hacts⟩ | ⟨rest, ht, hacts⟩
    · exact absurd (by rw [hacts]; simp) (hcalls n)
    · cases rest with
      | nil =>
          rw [List.nil_append] at hacts
          exact absurd (by rw [← hacts]; simp) (hcalls n)
      | cons act rest =>
          obtain ⟨rfl, -⟩ := List.cons.inj hacts
          exact h before n rest ht

theorem neverOverasked_call {t acts : Trace E} {n : Int} (hcalls : NoCalls acts) :
    NeverOverasked (t ++ .handleDemand n :: acts) ↔
      NeverOverasked t ∧ n ≤ t.outstanding := by
  constructor
  · intro h
    refine ⟨fun before m after ht => ?_, h t n acts rfl⟩
    exact h before m (after ++ .handleDemand n :: acts)
      (by rw [ht, List.append_assoc, List.cons_append])
  · rintro ⟨h, hn⟩ before m after hsplit
    rcases List.append_eq_append_iff.1 hsplit with ⟨rest, hbefore, hacts⟩ | ⟨rest, ht, hacts⟩
    · cases rest with
      | nil =>
          obtain ⟨hact, -⟩ := List.cons.inj hacts
          cases hact
          rw [hbefore, List.append_nil]
          exact hn
      | cons act rest =>
          obtain ⟨-, htail⟩ := List.cons.inj hacts
          exact absurd (by rw [htail]; simp) (hcalls m)
    · cases rest with
      | nil =>
          obtain ⟨hact, -⟩ := List.cons.inj hacts
          cases hact
          rw [List.append_nil] at ht
          rw [← ht]
          exact hn
      | cons act rest =>
          obtain ⟨rfl, -⟩ := List.cons.inj hacts
          exact h before m rest ht

theorem noCalls_dropActs (events : List E) : NoCalls (dropActs events) := by
  unfold dropActs NoCalls
  split_ifs <;> simp

theorem noCalls_emits {o o' : Outlet E} {events : List E} {acts : Trace E}
    (h : Emits o events acts o') : NoCalls (.returned events :: acts) := by
  obtain ⟨d', batches, rest, sents, hpasses, -, rfl⟩ := emits_passes h
  have hdrops := noCalls_dropActs (lostRest o rest)
  intro n hmem
  rcases List.mem_cons.1 hmem with hact | hmem
  · exact nomatch hact
  · rcases List.mem_append.1 hmem with hsents | hin
    · cases hpasses <;> simp at hsents
    · exact hdrops n hin

/-! ## One message -/

/-- A producer in forward mode. -/
structure Forward (p : ProducerStage E S) : Prop where
  mode : p.demandMode = .forward
  accumulated : p.accumulatedDemand = 0

/-- What is not served is what the dispatcher has recorded. -/
theorem outstanding_eq {o : Outlet E} {t : Trace E} {d : DemandDispatcher}
    (h : Booked o t d) : t.outstanding = d.totalDemand := by
  rw [Trace.outstanding, ← h.ledger]
  rfl

theorem totalDemand_ask {d : DemandDispatcher} {tag : Tag} {demand : Int} :
    (d.ask tag demand).1.totalDemand =
      d.totalDemand + if d.subscribers.has tag then demand else 0 := by
  have hdemands : demands (d.ask tag demand).1.subscribers =
      (demands d.subscribers).modify tag (· + demand) := demands_grant d.subscribers tag demand
  rw [totalDemand_eq, hdemands, totalDemand_eq]
  cases hget : d.subscribers.get tag with
  | none =>
      have hhas : d.subscribers.has tag = false := by rw [OrderedMap.has, hget]; rfl
      rw [OrderedMap.modify_of_not_mem, if_neg (by rw [hhas]; exact Bool.false_ne_true), add_zero]
      rw [← OrderedMap.get_eq_none, demands, OrderedMap.get_map, hget]
      rfl
  | some sub =>
      have hhas : d.subscribers.has tag = true := by rw [OrderedMap.has, hget]; rfl
      rw [OrderedMap.sum_modify (get_demands hget), if_pos hhas]
      ring

theorem orderly_receive {p p' : ProducerStage E S} {t acts : Trace E} {m : ProducerMessage}
    (h : ∃ d, Orderly p.toOutlet t d) (hreceive : p.receive m = .ok (p', acts)) :
    ∃ d, Orderly p'.toOutlet (t ++ acts) d :=
  Moves.invariant (I := fun o t => ∃ d, Orderly o t d)
    (fun _ _ _ _ ⟨_, hd⟩ hmove => hd.move hmove) (producer_moves hreceive) h

theorem demandEvents_forward {p p' : ProducerStage E S} {demand : Int} {acts : Trace E}
    (h : p.demandEvents demand = .ok (p', acts)) :
    (Forward p → Forward p') ∧ ∃ rest, NoCalls rest ∧ acts = .handleDemand demand :: rest := by
  obtain ⟨o, emitted, hemits, rfl, rfl⟩ := demandEvents_eq_ok h
  exact ⟨fun hforward => ⟨hforward.mode, hforward.accumulated⟩, _, noCalls_emits hemits, rfl⟩

/-- An ask that calls `handleDemand` does so with the total demand before the drain. -/
theorem ask_overasks {p p' : ProducerStage E S} {t acts : Trace E} {d : DemandDispatcher}
    {tag : Tag} {demand : Int} (hd : Orderly p.toOutlet t d) (hforward : Forward p)
    (h : p.handleAsk tag demand = .ok (p', acts)) :
    Forward p' ∧ (NeverOverasked (t ++ acts) ↔ NeverOverasked t ∧
      (demand ≤ 0 ∨ p.dispatcher.has tag = false ∨ p.buffer = [])) := by
  obtain ⟨hnone, rfl, rfl⟩ | ⟨hpos, o, drained, rest, hdrain, hrest, rfl⟩ := handleAsk_eq_ok h
  · refine ⟨hforward, ?_⟩
    rw [neverOverasked_append (by simp [NoCalls])]
    exact ⟨fun hnever => ⟨hnever, .inl hnone⟩, fun hnever => hnever.1⟩
  · have hasked := hd.toBooked.ask tag hpos.le
    have htotal : (d.ask tag demand).1.totalDemand = _ := totalDemand_ask
    have hzero := totalDemand_nonneg hd.nonneg
    have hsettled : p.buffer ≠ [] → d.totalDemand ≤ 0 := hd.settled.resolve_left
    have hhas : p.dispatcher.has tag = d.subscribers.has tag := by rw [hd.dispatcher_eq]; rfl
    rw [Outlet.ask, hd.dispatcher_eq] at hdrain hrest
    obtain ⟨d', result, hdispatch, rfl, rfl⟩ := drain_eq_ok hdrain
    obtain ⟨e, rfl, -, -, -, hleft⟩ := served_by_drain rfl hasked.nonneg hdispatch
    obtain ⟨e', he'⟩ := hasked.drain hdrain
    have heq : e' = e := by
      have hdisp := he'.dispatcher_eq
      cases hdisp
      rfl
    subst heq
    -- the demand that is left when the user is asked
    have hout : Trace.outstanding (t ++ ([.asked tag demand] ++ [.sent result.dispatched])) =
        (d.ask tag demand).1.totalDemand -
          (min (d.ask tag demand).1.totalDemand.toNat p.buffer.length : Nat) := by
      rw [← List.append_assoc]
      exact (outstanding_eq he'.toBooked).trans hleft
    rw [hhas]
    obtain ⟨hle, rfl, rfl⟩ | ⟨-, hmode, -⟩ | ⟨hcall, -, hevents⟩ := forwardDemand_eq_ok hrest
    · -- no demand at all, so the asker is no subscriber
      refine ⟨⟨hforward.mode, hforward.accumulated⟩, ?_⟩
      rw [neverOverasked_append (by simp [NoCalls])]
      refine ⟨fun hnever => ⟨hnever, .inr (.inl ?_)⟩, fun hnever => hnever.1⟩
      change (d.ask tag demand).1.totalDemand ≤ 0 at hle
      cases hsub : d.subscribers.has tag with
      | false => rfl
      | true =>
          rw [hsub, if_pos rfl] at htotal
          omega
    · rw [hforward.mode] at hmode
      exact nomatch hmode
    · obtain ⟨hkeep, rest, hcalls, rfl⟩ := demandEvents_forward hevents
      refine ⟨hkeep ⟨hforward.mode, hforward.accumulated⟩, ?_⟩
      change 0 < (d.ask tag demand).1.totalDemand at hcall
      have hsplit : t ++ .asked tag demand ::
          ([.sent result.dispatched] ++ .handleDemand (d.ask tag demand).1.totalDemand :: rest) =
          (t ++ ([.asked tag demand] ++ [.sent result.dispatched])) ++
            .handleDemand (d.ask tag demand).1.totalDemand :: rest := by simp
      change NeverOverasked (t ++ .asked tag demand ::
        ([.sent result.dispatched] ++ .handleDemand (d.ask tag demand).1.totalDemand :: rest)) ↔ _
      rw [hsplit, neverOverasked_call hcalls, neverOverasked_append (by simp [NoCalls]), hout]
      refine and_congr_right fun _ => ?_
      by_cases hnil : p.buffer = []
      · rw [hnil]
        simp
      · have hlength := List.length_pos_iff.2 hnil
        have hzero' := hsettled hnil
        cases hsub : d.subscribers.has tag with
        | false =>
            rw [hsub] at htotal
            simp only [Bool.false_eq_true, if_false] at htotal
            omega
        | true =>
            simp only [hnil, Bool.true_eq_false, or_false]
            omega

/-- One message keeps the law exactly when it is no ask that finds events waiting. -/
theorem receive_overasks {p p' : ProducerStage E S} {t acts : Trace E} {d : DemandDispatcher}
    {m : ProducerMessage} (hd : Orderly p.toOutlet t d) (hforward : Forward p)
    (h : p.receive m = .ok (p', acts)) :
    Forward p' ∧ (NeverOverasked (t ++ acts) ↔ NeverOverasked t ∧ Fresh ⟨p, t⟩ m) := by
  have hquiet : ∀ {acts : Trace E}, NoCalls acts →
      (NeverOverasked (t ++ acts) ↔ NeverOverasked t ∧ True) := fun hcalls => by
    rw [neverOverasked_append hcalls, and_true]
  cases m with
  | subscribe tag consumerRef maxDemand minDemand partition =>
      cases h
      refine ⟨⟨hforward.mode, hforward.accumulated⟩, hquiet ?_⟩
      change NoCalls (p.toOutlet.subscribe tag consumerRef maxDemand minDemand partition).2
      unfold Outlet.subscribe
      split <;> simp [NoCalls]
  | ask tag demand => exact ask_overasks hd hforward h
  | cancel tag reason =>
      cases h
      exact ⟨⟨hforward.mode, hforward.accumulated⟩, hquiet (by simp [NoCalls])⟩
  | setDemandMode =>
      obtain ⟨-, rfl, rfl⟩ | ⟨hpos, -⟩ := switchDemandMode_eq_ok h
      · exact ⟨⟨rfl, hforward.accumulated⟩, hquiet (by simp [NoCalls])⟩
      · rw [hforward.accumulated] at hpos
        exact absurd hpos (lt_irrefl 0)

/-- `handleDemand` is never asked for more than the demand outstanding if and only if
every ask of a subscriber finds the buffer empty. -/
theorem never_overasked_iff {callbacks : ProducerCallbacks E S} {options : ProducerOptions E}
    {mode : Option DemandMode} {ms : List ProducerMessage} {r : Recorded (ProducerStage E S) E}
    (hdemand : createDispatcher options.dispatcher = .demand .new)
    (hmode : mode.getD .forward = .forward)
    (hrun : Transition.run ProducerStage.step (ProducerStage.start callbacks options mode) ms =
      some r) :
    NeverOverasked r.trace ↔
      Transition.Along ProducerStage.step Fresh (ProducerStage.start callbacks options mode)
        ms := by
  -- what holds of every state, whether the law is kept or not
  let Sound (r : Recorded (ProducerStage E S) E) : Prop :=
    (∃ d, Orderly r.stage.toOutlet r.trace d) ∧ Forward r.stage
  have hstep : ∀ r m r', Sound r → ProducerStage.step r m = some r' →
      Sound r' ∧ (NeverOverasked r'.trace ↔ NeverOverasked r.trace ∧ Fresh r m) := by
    rintro r m r' ⟨⟨d, hd⟩, hforward⟩ hstep
    obtain ⟨acts, hreceive, htrace⟩ := step_eq_some hstep
    obtain ⟨hforward', hiff⟩ := receive_overasks hd hforward hreceive
    rw [htrace]
    exact ⟨⟨htrace ▸ orderly_receive ⟨d, hd⟩ hreceive, hforward'⟩, hiff⟩
  have hstart : Sound (ProducerStage.start callbacks options mode) :=
    ⟨⟨_, orderly_init hdemand⟩, hmode, rfl⟩
  have hrule := Transition.along_or_broken
    (I := fun r => Sound r ∧ NeverOverasked r.trace)
    (B := fun r => Sound r ∧ ¬ NeverOverasked r.trace) (A := fun _ _ => True) (G := Fresh)
    (fun r m r' hr _ hfresh h => by
      obtain ⟨hsound, hiff⟩ := hstep r m r' hr.1 h
      exact ⟨hsound, hiff.2 ⟨hr.2, hfresh⟩⟩)
    (fun r m r' hr _ hstale h => by
      obtain ⟨hsound, hiff⟩ := hstep r m r' hr.1 h
      exact ⟨hsound, fun hnever => hstale (hiff.1 hnever).2⟩)
    (fun r m r' hr _ h => by
      obtain ⟨hsound, hiff⟩ := hstep r m r' hr.1 h
      exact ⟨hsound, fun hnever => hr.2 (hiff.1 hnever).1⟩)
    ⟨hstart, neverOverasked_nil⟩
    (Transition.along_of_forall_mem (P := fun _ => True) (fun _ _ => trivial) _) hrun
  rcases hrule with ⟨halong, hgood⟩ | ⟨hbroken, hbad⟩
  · exact ⟨fun _ => halong, fun _ => hgood.2⟩
  · exact ⟨fun hnever => absurd hnever hbad.2, fun halong => absurd halong hbroken⟩

/-- A user that returns as many events as it is asked for. -/
theorem never_overasked_exact :
    ∃ r, Transition.run ProducerStage.step
        (ProducerStage.start ⟨0, fun n s => ((List.range n.toNat).map (· + s), s + n.toNat)⟩ {}
          none)
        [.subscribe "a" ⟨"n", 1, none, 0⟩ 2 1 none, .ask "a" 2, .ask "a" 1] = some r ∧
      NeverOverasked r.trace := by
  have hrun : ∃ r, Transition.run ProducerStage.step
        (ProducerStage.start ⟨0, fun n s => ((List.range n.toNat).map (· + s), s + n.toNat)⟩ {}
          none)
        [.subscribe "a" ⟨"n", 1, none, 0⟩ 2 1 none, .ask "a" 2, .ask "a" 1] = some r := ⟨_, rfl⟩
  obtain ⟨r, hr⟩ := hrun
  refine ⟨r, hr, (never_overasked_iff rfl rfl hr).2 ⟨trivial, fun r₁ h₁ => ?_⟩⟩
  cases h₁
  refine ⟨.inr (.inr rfl), fun r₂ h₂ => ?_⟩
  cases h₂
  exact ⟨.inr (.inr rfl), fun _ _ => trivial⟩

/-- A user that returns two events too many: the second ask is served from the buffer, and
the user is asked for one more all the same. -/
theorem overasked_after_extra :
    ∃ r, Transition.run ProducerStage.step
        (ProducerStage.start
          ⟨0, fun n s => ((List.range (n.toNat + 2)).map (· + s), s + n.toNat + 2)⟩ {} none)
        [.subscribe "a" ⟨"n", 1, none, 0⟩ 1 0 none, .ask "a" 1, .ask "a" 1] = some r ∧
      ¬ NeverOverasked r.trace := by
  refine ⟨_, rfl, fun h => ?_⟩
  have hle := h [.subscribed "a" none, .asked "a" 1, .sent [⟨⟨"n", 1, none, 0⟩, "a", []⟩],
    .handleDemand 1, .returned [0, 1, 2], .sent [⟨⟨"n", 1, none, 0⟩, "a", [0]⟩], .asked "a" 1,
    .sent [⟨⟨"n", 1, none, 0⟩, "a", [1]⟩]] 1 [.returned [3, 4, 5], .sent []] rfl
  exact absurd hle (by decide)

end Libeam.Proofs.OverAsking
