import Libeam.Proofs.DemandDispatch
/-!
# The demand dispatcher is exact and greedy

Every batch goes to the first of the subscribers with the highest demand that is left
then, and a dispatch goes on until the events or the demand are used up.  The path for
a single subscriber does what the loop would do, but for an empty list of events: it
sends an empty batch.
-/

namespace Libeam.Proofs.GreedyDispatch

open Lib GenStage DemandDispatch

variable {E : Type}

/-- The demand that a subscriber has left when some batches have been sent. -/
def left (sent : List (Dispatched E)) (entry : Tag × ProducerSub) : Int :=
  entry.2.demand - countFor entry.1 sent

/-- After the batches `sent`, the batch goes to the first of the subscribers with the
highest demand left. -/
def Chosen (entries : List (Tag × ProducerSub)) (sent : List (Dispatched E))
    (b : Dispatched E) : Prop :=
  ∃ older entry younger, entries = older ++ entry :: younger ∧
    b.tag = entry.1 ∧ b.consumerRef = entry.2.consumerRef ∧
    (∀ e ∈ older, left sent e < left sent entry) ∧ ∀ e ∈ younger, left sent e ≤ left sent entry

/-- The loop, whatever the number of subscribers. -/
def dispatchAnyway (d : DemandDispatcher) (events : List E) :
    DemandDispatcher × DispatchResult E :=
  let served := DemandDispatcher.dispatchLoop events.length d.subscribers events
  (⟨served.1⟩, served.2)

/-- What is said of a dispatch of `events`. -/
structure ExactGreedy (d : DemandDispatcher) (events : List E) : Prop where
  /-- More turns of the loop change nothing. -/
  terminates : ∀ fuel, events.length ≤ fuel →
    DemandDispatcher.dispatchLoop fuel d.subscribers events =
      DemandDispatcher.dispatchLoop events.length d.subscribers events
  events_eq : eventsOf (d.dispatch events).2.dispatched ++ (d.dispatch events).2.remaining = events
  pays : (d.dispatch events).1.subscribers.entries = d.subscribers.entries.map fun e =>
    (e.1, e.2.grant (-countFor e.1 (d.dispatch events).2.dispatched))
  nonneg : ∀ e ∈ (d.dispatch events).1.subscribers.entries, 0 ≤ e.2.demand
  nonempty : events ≠ [] → ∀ b ∈ (d.dispatch events).2.dispatched, b.events ≠ []
  greedy : ∀ sent b later, (d.dispatch events).2.dispatched = sent ++ b :: later →
    Chosen d.subscribers.entries sent b
  used : (d.dispatch events).2.remaining = [] ∨
    ∀ e ∈ (d.dispatch events).1.subscribers.entries, e.2.demand = 0
  fastPath : d.dispatch events = dispatchAnyway d events

/-! ## The subscribers along the batches -/

theorem entries_grant (m : OrderedMap Tag ProducerSub) (tag : Tag) (demand : Int) :
    (m.modify tag (·.grant demand)).entries = m.entries.map fun e =>
      (e.1, if e.1 = tag then e.2.grant demand else e.2) := rfl

theorem left_cons (b : Dispatched E) (sent : List (Dispatched E)) (entry : Tag × ProducerSub) :
    left (b :: sent) entry = left sent
      (entry.1, if entry.1 = b.tag then entry.2.grant (-b.events.length) else entry.2) := by
  unfold left countFor
  rw [List.map_cons, List.sum_cons]
  by_cases htag : entry.1 = b.tag
  · rw [if_pos htag.symm, if_pos htag]
    dsimp only [ProducerSub.grant]
    omega
  · rw [if_neg (Ne.symm htag), if_neg htag, Int.zero_add]

theorem left_nil (entry : Tag × ProducerSub) :
    left ([] : List (Dispatched E)) entry = entry.2.demand := Int.sub_zero _

theorem nonneg_entries_iff {m : OrderedMap Tag ProducerSub} :
    Nonneg (demands m) ↔ ∀ e ∈ m.entries, 0 ≤ e.2.demand := by
  unfold Nonneg demands OrderedMap.values OrderedMap.map
  rw [List.map_map, List.forall_mem_map]
  rfl

/-- Every entry pays for what is sent to it. -/
theorem entries_of_serves {m m' : OrderedMap Tag ProducerSub} {batches : List (Dispatched E)}
    (h : Serves m batches m') :
    m'.entries = m.entries.map fun e => (e.1, e.2.grant (-countFor e.1 batches)) := by
  induction h with
  | nil m =>
      have hsame : ∀ e : Tag × ProducerSub,
          (e.1, e.2.grant (-countFor e.1 ([] : List (Dispatched E)))) = e := by
        intro e
        simp [countFor, ProducerSub.grant]
      simp only [hsame, List.map_id']
  | @cons m m' tag sub events batches hget hpos hcovers _ ih =>
      rw [ih, entries_grant, List.map_map]
      refine List.map_congr_left fun e _ => ?_
      dsimp only [Function.comp_apply]
      by_cases htag : e.1 = tag
      · rw [if_pos htag]
        simp only [countFor, List.map_cons, List.sum_cons, if_pos htag.symm, ProducerSub.grant,
          neg_add]
        rw [Int.add_assoc]
      · rw [if_neg htag]
        simp [countFor, Ne.symm htag]

/-- A choice among subscribers one of whom has paid for a batch. -/
theorem Chosen.later {m : OrderedMap Tag ProducerSub} {b c : Dispatched E}
    {sent : List (Dispatched E)}
    (h : Chosen (m.modify b.tag (·.grant (-b.events.length))).entries sent c) :
    Chosen m.entries (b :: sent) c := by
  obtain ⟨older', entry', younger', hentries, htag, href, holder, hyounger⟩ := h
  rw [entries_grant] at hentries
  obtain ⟨older, rest, hsplit, rfl, hrest⟩ := List.map_eq_append_iff.1 hentries
  obtain ⟨entry, younger, rfl, rfl, rfl⟩ := List.map_eq_cons_iff.1 hrest
  refine ⟨older, entry, younger, hsplit, htag, ?_, fun e he => ?_, fun e he => ?_⟩
  · rw [href]
    dsimp only
    split_ifs <;> rfl
  · rw [left_cons, left_cons]
    exact holder _ (List.mem_map_of_mem he)
  · rw [left_cons, left_cons]
    exact hyounger _ (List.mem_map_of_mem he)

theorem chosen_first {m : OrderedMap Tag ProducerSub} {tag : Tag} {sub : ProducerSub}
    (h : DemandDispatcher.best m.entries = some (tag, sub)) (events : List E) :
    Chosen m.entries [] (⟨sub.consumerRef, tag, events⟩ : Dispatched E) := by
  obtain ⟨older, younger, hsplit, -, holder, hyounger⟩ := best_split h
  refine ⟨older, (tag, sub), younger, hsplit, rfl, rfl, fun e he => ?_, fun e he => ?_⟩
  · rw [left_nil, left_nil]
    exact holder e he
  · rw [left_nil, left_nil]
    exact hyounger e he

/-! ## The loop -/

theorem dispatchLoop_nil (fuel : Nat) (m : OrderedMap Tag ProducerSub) :
    DemandDispatcher.dispatchLoop fuel m ([] : List E) = (m, ⟨[], []⟩) := by
  cases fuel <;> rfl

theorem dispatchLoop_of_none {m : OrderedMap Tag ProducerSub}
    (h : DemandDispatcher.best m.entries = none) (fuel : Nat) (events : List E) :
    DemandDispatcher.dispatchLoop fuel m events = (m, ⟨[], events⟩) := by
  cases fuel with
  | zero => rfl
  | succ fuel =>
      cases events with
      | nil => rfl
      | cons event events =>
          unfold DemandDispatcher.dispatchLoop
          rw [if_neg (by simp), h]

/-- One turn. -/
theorem dispatchLoop_of_some {m : OrderedMap Tag ProducerSub} {tag : Tag} {sub : ProducerSub}
    (h : DemandDispatcher.best m.entries = some (tag, sub)) (fuel : Nat) {events : List E}
    (hne : events ≠ []) {count : Nat} (hcount : count = min sub.demand.toNat events.length) :
    DemandDispatcher.dispatchLoop (fuel + 1) m events =
      let rest := DemandDispatcher.dispatchLoop fuel (m.modify tag (·.grant (-count)))
        (events.drop count)
      (rest.1, ⟨⟨sub.consumerRef, tag, events.take count⟩ :: rest.2.dispatched,
        rest.2.remaining⟩) := by
  have hlength : events.length ≠ 0 := fun hzero => hne (List.eq_nil_of_length_eq_zero hzero)
  subst hcount
  rw [DemandDispatcher.dispatchLoop, if_neg hlength, h]

/-- A turn sends at least one event. -/
theorem count_pos {m : OrderedMap Tag ProducerSub} {tag : Tag} {sub : ProducerSub}
    (h : DemandDispatcher.best m.entries = some (tag, sub)) {events : List E} (hne : events ≠ []) :
    0 < min sub.demand.toNat events.length := by
  have hpos : 0 < sub.demand := (best_some h).2
  have hlength := List.length_pos_of_ne_nil hne
  omega

theorem dispatchLoop_fuel {m : OrderedMap Tag ProducerSub} {events : List E} {fuel fuel' : Nat}
    (hfuel : events.length ≤ fuel) (hfuel' : events.length ≤ fuel') :
    DemandDispatcher.dispatchLoop fuel m events = DemandDispatcher.dispatchLoop fuel' m events := by
  induction fuel generalizing fuel' m events with
  | zero =>
      obtain rfl := List.eq_nil_of_length_eq_zero (Nat.le_zero.1 hfuel)
      rw [dispatchLoop_nil, dispatchLoop_nil]
  | succ fuel ih =>
      by_cases hne : events = []
      · rw [hne, dispatchLoop_nil, dispatchLoop_nil]
      · cases hbest : DemandDispatcher.best m.entries with
        | none => rw [dispatchLoop_of_none hbest, dispatchLoop_of_none hbest]
        | some entry =>
            obtain ⟨tag, sub⟩ := entry
            have hcount := count_pos hbest hne
            have hlength := List.length_pos_of_ne_nil hne
            cases fuel' with
            | zero => omega
            | succ fuel' =>
                rw [dispatchLoop_of_some hbest fuel hne rfl,
                  dispatchLoop_of_some hbest fuel' hne rfl,
                  @ih _ _ fuel' (by rw [List.length_drop]; omega)
                    (by rw [List.length_drop]; omega)]

/-- What every batch of the loop is. -/
structure Sends (m : OrderedMap Tag ProducerSub) (batches : List (Dispatched E)) : Prop where
  nonempty : ∀ b ∈ batches, b.events ≠ []
  greedy : ∀ sent b later, batches = sent ++ b :: later → Chosen m.entries sent b

theorem sends_nil (m : OrderedMap Tag ProducerSub) : Sends m ([] : List (Dispatched E)) where
  nonempty := nofun
  greedy sent b later h := by simp at h

theorem Sends.cons {m : OrderedMap Tag ProducerSub} {b : Dispatched E}
    {batches : List (Dispatched E)} (hne : b.events ≠ []) (hfirst : Chosen m.entries [] b)
    (h : Sends (m.modify b.tag (·.grant (-b.events.length))) batches) :
    Sends m (b :: batches) where
  nonempty c hc := by
    rcases List.mem_cons.1 hc with rfl | hc
    · exact hne
    · exact h.nonempty c hc
  greedy sent c later hsplit := by
    cases sent with
    | nil =>
        obtain ⟨rfl, -⟩ := List.cons.inj hsplit
        exact hfirst
    | cons b' sent =>
        obtain ⟨rfl, hrest⟩ := List.cons.inj hsplit
        exact (h.greedy sent c later hrest).later

theorem sends_dispatchLoop (fuel : Nat) (m : OrderedMap Tag ProducerSub) (events : List E) :
    Sends m (DemandDispatcher.dispatchLoop fuel m events).2.dispatched := by
  induction fuel generalizing m events with
  | zero => exact sends_nil m
  | succ fuel ih =>
      by_cases hne : events = []
      · rw [hne, dispatchLoop_nil]
        exact sends_nil m
      · cases hbest : DemandDispatcher.best m.entries with
        | none =>
            rw [dispatchLoop_of_none hbest]
            exact sends_nil m
        | some entry =>
            obtain ⟨tag, sub⟩ := entry
            have hcount := count_pos hbest hne
            obtain ⟨count, heq⟩ : ∃ count, count = min sub.demand.toNat events.length := ⟨_, rfl⟩
            rw [← heq] at hcount
            have hlength : (events.take count).length = count := by
              rw [List.length_take]
              omega
            rw [dispatchLoop_of_some hbest fuel hne heq]
            refine Sends.cons ?_ (chosen_first hbest _) ?_
            · exact List.ne_nil_of_length_pos (hlength.symm ▸ hcount)
            · dsimp only
              rw [hlength]
              exact ih _ _

/-! ## One subscriber -/

theorem best_singleton (entry : Tag × ProducerSub) : DemandDispatcher.best [entry] =
    if 0 < entry.2.demand then some entry else none := rfl

/-- The fast path takes the one turn that the loop would take. -/
theorem dispatch_eq_dispatchAnyway {d : DemandDispatcher} {events : List E}
    (h : ¬ (events = [] ∧ ∃ entry, d.subscribers.entries = [entry] ∧ 0 < entry.2.demand)) :
    d.dispatch events = dispatchAnyway d events := by
  unfold DemandDispatcher.dispatch dispatchAnyway
  split
  next tag sub hentries =>
    have hbest : DemandDispatcher.best d.subscribers.entries =
        if 0 < sub.demand then some (tag, sub) else none := by
      rw [hentries, best_singleton]
    by_cases hpos : sub.demand > 0
    · rw [if_pos hpos] at hbest ⊢
      have hne : events ≠ [] := fun hnil => h ⟨hnil, (tag, sub), hentries, hpos⟩
      obtain ⟨n, hn⟩ := Nat.exists_eq_succ_of_ne_zero
        (Nat.ne_of_gt (List.length_pos_of_ne_nil hne))
      obtain ⟨count, heq⟩ : ∃ count, count = min sub.demand.toNat events.length := ⟨_, rfl⟩
      have hturn := dispatchLoop_of_some hbest n hne heq
      -- afterwards the events or the demand are used up
      have hrest : DemandDispatcher.dispatchLoop n
          (d.subscribers.modify tag (·.grant (-count))) (events.drop count) =
            (d.subscribers.modify tag (·.grant (-count)), ⟨[], events.drop count⟩) := by
        by_cases hlong : events.length ≤ sub.demand.toNat
        · have hall : events.drop count = [] := List.drop_eq_nil_of_le (by omega)
          rw [hall, dispatchLoop_nil]
        · refine dispatchLoop_of_none ?_ n _
          rw [entries_grant, hentries, List.map_cons, List.map_nil, best_singleton]
          refine if_neg ?_
          rw [if_pos rfl]
          dsimp only [ProducerSub.grant]
          omega
      rw [hrest] at hturn
      rw [hn, Nat.succ_eq_add_one, hturn]
      simp only [heq, hn, Nat.succ_eq_add_one]
    · rw [if_neg hpos] at hbest ⊢
      rw [dispatchLoop_of_none hbest]
  · rfl

theorem sends_dispatch {d : DemandDispatcher} {events : List E}
    (h : ¬ (events = [] ∧ ∃ entry, d.subscribers.entries = [entry] ∧ 0 < entry.2.demand)) :
    Sends d.subscribers (d.dispatch events).2.dispatched := by
  rw [dispatch_eq_dispatchAnyway h]
  exact sends_dispatchLoop events.length d.subscribers events

/-- An empty list of events makes the fast path send an empty batch. -/
theorem dispatch_nil_singleton {d : DemandDispatcher} {entry : Tag × ProducerSub}
    (hentries : d.subscribers.entries = [entry]) (hpos : 0 < entry.2.demand) :
    (d.dispatch ([] : List E)).2.dispatched = [⟨entry.2.consumerRef, entry.1, []⟩] := by
  obtain ⟨tag, sub⟩ := entry
  unfold DemandDispatcher.dispatch
  rw [hentries]
  dsimp only at hpos ⊢
  rw [if_pos hpos, List.take_nil]

/-! ## Exact and greedy -/

/-- With no negative demand a dispatch is exact and greedy, unless it is of no events
to a single subscriber with demand. -/
theorem exactGreedy_iff {d : DemandDispatcher}
    (hnonneg : ∀ e ∈ d.subscribers.entries, 0 ≤ e.2.demand) (events : List E) :
    ExactGreedy d events ↔
      ¬ (events = [] ∧ ∃ entry, d.subscribers.entries = [entry] ∧ 0 < entry.2.demand) := by
  constructor
  · rintro h ⟨rfl, entry, hentries, hpos⟩
    have hfast := congrArg
      (fun r : DemandDispatcher × DispatchResult E => r.2.dispatched) h.fastPath
    rw [dispatch_nil_singleton hentries hpos] at hfast
    exact List.cons_ne_nil _ _ hfast
  · intro h
    have hsplits := splits_dispatch d events
    have hsends := sends_dispatch h
    have hnonneg' := nonneg_entries_iff.1 (nonneg_dispatch (nonneg_entries_iff.2 hnonneg) events)
    exact
      { terminates := fun fuel hfuel => dispatchLoop_fuel hfuel le_rfl
        events_eq := hsplits.events_eq
        pays := entries_of_serves hsplits.serves
        nonneg := hnonneg'
        nonempty := fun _ => hsends.nonempty
        greedy := hsends.greedy
        used := hsplits.used.imp_right fun hused e he => le_antisymm (hused e he) (hnonneg' e he)
        fastPath := dispatch_eq_dispatchAnyway h }

/-- Two subscribers with the same demand and one with less. -/
def threeSubscribers : DemandDispatcher :=
  ((DemandDispatcher.new.subscribe "a" ⟨⟨"n", 1, none, 0⟩, 1, 10, 5⟩).subscribe "b"
    ⟨⟨"n", 2, none, 0⟩, 2, 10, 5⟩).subscribe "c" ⟨⟨"n", 3, none, 0⟩, 2, 10, 5⟩

theorem exactGreedy_three : ExactGreedy threeSubscribers [10, 11, 12, 13, 14, 15] :=
  (exactGreedy_iff (by decide) _).2 fun h => List.cons_ne_nil _ _ h.1

/-- A consumer that has asked for five events is sent an empty batch when there are none. -/
theorem empty_batch_sent : ¬ ExactGreedy
    (DemandDispatcher.new.subscribe "a" ⟨⟨"n", 1, none, 0⟩, 5, 10, 5⟩) ([] : List Nat) := by
  intro h
  have hfast := congrArg
    (fun r : DemandDispatcher × DispatchResult Nat => r.2.dispatched.length) h.fastPath
  exact absurd hfast (by decide)

end Libeam.Proofs.GreedyDispatch
