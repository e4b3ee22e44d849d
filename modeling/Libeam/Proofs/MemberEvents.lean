import Mathlib.Data.List.Chain
import Libeam.Proofs.GossipSteps
/-!
# Membership events and the table

Whoever follows the events of joining and leaving has the members that the table has, as
long as every change between leaving and not leaving is told.  It is when a peer leaves in
the generation that is known.  A new generation is only an update, whatever its status,
and a leaving peer that is silent for long is said to leave once more.
-/

namespace Libeam.Proofs.MemberEvents

open Gossip Lib.Transition GossipSteps

variable {N : Type} [DecidableEq N] {p q : GossipProtocol N} {now : Nat} {x : N}
  {e known : PeerState N}

/-- Does the event say that the peer has joined, or left? -/
def change (x : N) : GossipEvent N → Option Bool
  | .member_join e => if e.id = x then some true else none
  | .member_leave e => if e.id = x then some false else none
  | .member_update _ | .removed _ => none

def changes (x : N) (log : List (GossipEvent N)) : List Bool := log.filterMap (change x)

/-- The other peers of the table that are not leaving. -/
def Member (p : GossipProtocol N) (x : N) : Prop :=
  x ≠ p.self.id ∧ ∃ e, p.find x = some e ∧ e.status ≠ some .leaving

/-- Joins and leaves alternate, joins first, and those who joined last are the members. -/
structure InStep (p : GossipProtocol N) : Prop where
  alternate : ∀ x, (false :: changes x p.log).IsChain (· ≠ ·)
  members : ∀ x, (changes x p.log).getLast? = some true ↔ Member p x

/-- The peer leaves in the generation that is known. -/
def Leaves (known e : PeerState N) : Prop :=
  known.generation = e.generation ∧ known.status ≠ some .leaving ∧ e.status = some .leaving

/-- What is new in the entry is told: no news of the node itself is that it leaves, and a
peer goes from one status to the other only by leaving. -/
def Told (p : GossipProtocol N) (e : PeerState N) : Prop :=
  ∀ known, p.find e.id = some known → known.news < e.news →
    if e.id = p.self.id then ¬ Leaves known e
    else (known.status = some .leaving ↔ e.status = some .leaving) ∨ Leaves known e

/-- No entry of a message changes what is not told, and no leaving peer is removed. -/
def Tells (p : GossipProtocol N) : GossipInput N → Prop
  | .handleGossipMessage message now =>
      Accepted message → Along (mergeStep now) Told p message.peers
  | .failureDetectionLoop now =>
      ∀ x e, p.find x = some e → p.failed now ⟨x, e⟩ = true → e.status ≠ some .leaving
  | .gossipLoop _ | .leave _ => True

/-! ## Appending to the events -/

theorem changes_append (x : N) (log events : List (GossipEvent N)) :
    changes x (log ++ events) = changes x log ++ changes x events :=
  List.filterMap_append

/-- An event goes on alternating when it says the opposite of the last one. -/
theorem alternate_concat {l : List Bool} {b : Bool} (h : (false :: l).IsChain (· ≠ ·))
    (hb : l.getLast? = some true ↔ b = false) : (false :: (l ++ [b])).IsChain (· ≠ ·) := by
  rw [← List.cons_append]
  refine List.isChain_append.2 ⟨h, List.isChain_singleton b, fun a ha b' hb' => ?_⟩
  cases hb'
  rw [List.getLast?_cons] at ha
  cases ha
  cases hlast : l.getLast? with
  | none =>
      rw [hlast] at hb
      cases b with
      | false => exact absurd (hb.2 rfl) nofun
      | true => exact Bool.false_ne_true
  | some last =>
      rw [hlast] at hb
      cases b <;> cases last <;> simp_all

theorem getLast?_changes_concat (x : N) (log : List (GossipEvent N)) {events : List (GossipEvent N)}
    {b : Bool} (h : changes x events = [b]) :
    (changes x (log ++ events)).getLast? = some b := by
  rw [changes_append, h]
  exact List.getLast?_concat

/-- What has been appended about each peer fits how the table has changed. -/
theorem InStep.append (h : InStep p) {events : List (GossipEvent N)}
    (hlog : q.log = p.log ++ events)
    (hchanges : ∀ x, changes x events = [] ∧ (Member q x ↔ Member p x) ∨
      changes x events = [true] ∧ Member q x ∧ ¬ Member p x ∨
      changes x events = [false] ∧ ¬ Member q x ∧ Member p x) : InStep q := by
  refine ⟨fun x => ?_, fun x => ?_⟩
  · rw [hlog, changes_append]
    rcases hchanges x with ⟨hevents, -⟩ | ⟨hevents, -, hnot⟩ | ⟨hevents, -, hmember⟩
    · rw [hevents, List.append_nil]
      exact h.alternate x
    · rw [hevents]
      exact alternate_concat (h.alternate x) (by simp [h.members x, hnot])
    · rw [hevents]
      exact alternate_concat (h.alternate x) (by simp [h.members x, hmember])
  · rw [hlog]
    rcases hchanges x with ⟨hevents, hsame⟩ | ⟨hevents, hmember, -⟩ | ⟨hevents, hnot, -⟩
    · rw [changes_append, hevents, List.append_nil, h.members x, hsame]
    · rw [getLast?_changes_concat x p.log hevents]
      exact iff_of_true rfl hmember
    · rw [getLast?_changes_concat x p.log hevents]
      exact iff_of_false (by simp) hnot

/-! ## One entry -/

/-- Entries stand under their own ids, and the node has one. -/
structure Keyed (p : GossipProtocol N) : Prop where
  id : ∀ x e, p.find x = some e → e.id = x
  own : ∃ e, p.find p.self.id = some e

theorem Keyed.mergePeer (h : Keyed p) (now : Nat) (e : PeerState N) :
    Keyed (p.mergePeer now e) := by
  refine ⟨fun x e' he' => ?_, ?_⟩
  · rw [find_mergePeer] at he'
    split_ifs at he' with hx
    · rcases merged_eq_some he' with ⟨rfl, -⟩ | hknown
      · exact hx.symm
      · exact hx ▸ h.id e.id e' hknown
    · exact h.id x e' he'
  · obtain ⟨own, hown⟩ := h.own
    rw [(sameSelf_mergePeer now p e).self, find_mergePeer]
    split_ifs with hx
    · rw [← hx, hown]
      obtain ⟨e', he', -⟩ := merged_some now own e
      exact ⟨e', he'⟩
    · exact ⟨own, hown⟩

theorem member_mergePeer_of_ne (now : Nat) (hx : x ≠ e.id) :
    Member (p.mergePeer now e) x ↔ Member p x := by
  unfold Member
  rw [(sameSelf_mergePeer now p e).self, find_mergePeer, if_neg hx]

theorem changes_of_ne {events : List (GossipEvent N)}
    (h : ∀ event ∈ events, change x event = none) :
    changes x events = [] :=
  List.filterMap_eq_nil_iff.2 h

/-- All that is announced is about the peer of the entry. -/
theorem changes_announced_of_ne (known : Option (PeerState N)) (hx : x ≠ e.id) :
    changes x (announced known e) = [] := by
  refine changes_of_ne fun event hevent => ?_
  unfold announced at hevent
  split at hevent
  · split_ifs at hevent
    · cases hevent
    · rw [List.mem_singleton.1 hevent]
      exact if_neg (Ne.symm hx)
  · split_ifs at hevent
    · rw [List.mem_singleton.1 hevent]
      exact if_neg (Ne.symm hx)
    · rw [List.mem_singleton.1 hevent]
      rfl
    · cases hevent

/-- An entry whose change is told keeps the events in step with the table. -/
theorem InStep.mergePeer (h : InStep p) (hkeyed : Keyed p) (htold : Told p e) :
    InStep (p.mergePeer now e) := by
  refine h.append (log_mergePeer now p e) fun x => ?_
  by_cases hx : x = e.id
  swap
  · exact .inl ⟨changes_announced_of_ne _ hx, member_mergePeer_of_ne now hx⟩
  subst hx
  have hfind := find_mergePeer now p e e.id
  rw [if_pos rfl] at hfind
  unfold Member
  rw [(sameSelf_mergePeer now p e).self, hfind]
  cases hknown : p.find e.id with
  | none =>
      have hother : e.id ≠ p.self.id := by
        intro heq
        obtain ⟨own, hown⟩ := hkeyed.own
        rw [← heq, hknown] at hown
        cases hown
      unfold merged announced
      dsimp only
      split_ifs with hleaving
      · exact .inl ⟨rfl, by simp⟩
      · refine .inr (.inl ⟨by simp [changes, change], ⟨hother, _, rfl, hleaving⟩, by simp⟩)
  | some known =>
      by_cases hnews : known.news < e.news
      swap
      · rw [show announced (some known) e = [] from if_neg hnews,
          show merged now (some known) e = some known from if_neg hnews]
        exact .inl ⟨rfl, Iff.rfl⟩
      have hcase := htold known hknown hnews
      rw [show merged now (some known) e = some { e with lastUpdated := now } from if_pos hnews]
      by_cases hleaves : Leaves known e
      · rw [show announced (some known) e = [.member_leave e] from
          (if_pos hnews).trans (if_pos hleaves)]
        split_ifs at hcase with hself
        · exact absurd hleaves hcase
        · refine .inr (.inr ⟨by simp [changes, change], ?_, hself, known, rfl, hleaves.2.1⟩)
          rintro ⟨-, e', he', hstays⟩
          cases he'
          exact hstays hleaves.2.2
      · rw [show announced (some known) e = [.member_update e] from
          (if_pos hnews).trans (if_neg hleaves)]
        refine .inl ⟨rfl, ?_⟩
        by_cases hself : e.id = p.self.id
        · simp [hself]
        · rw [if_neg hself] at hcase
          have hsame := hcase.resolve_right hleaves
          simp [hself, hsame]

/-! ## Failure detection -/

theorem changes_removal (x : N) (e : PeerState N) :
    changes x [.removed e, .member_leave e] = if e.id = x then [false] else [] := by
  unfold changes
  split_ifs with hx
  · simp [List.filterMap_cons, change, hx]
  · simp [List.filterMap_cons, change, hx]

/-- The removed peers are told once each. -/
theorem changes_removed (x : N) {entries : List (Σ _ : N, PeerState N)}
    (hnodup : entries.NodupKeys) (hkeyed : ∀ entry ∈ entries, entry.2.id = entry.1) :
    changes x (entries.flatMap fun entry => [.removed entry.2, .member_leave entry.2]) =
      if x ∈ entries.keys then [false] else [] := by
  induction entries with
  | nil => rfl
  | cons entry entries ih =>
      obtain ⟨hnotin, hrest⟩ := List.nodupKeys_cons.1 hnodup
      have hid := hkeyed entry (by simp)
      rw [List.flatMap_cons, changes_append, changes_removal, hid,
        ih hrest fun other ho => hkeyed other (by simp [ho])]
      by_cases hx : x = entry.1
      · subst hx
        rw [if_pos rfl, if_neg hnotin, if_pos (by simp), List.append_nil]
      · have hmem : x ∈ (entry :: entries).keys ↔ x ∈ entries.keys := by simp [hx]
        rw [if_neg (Ne.symm hx), List.nil_append]
        simp only [hmem]

theorem InStep.failureDetectionLoop (h : InStep p) (hkeyed : Keyed p)
    (hstays : ∀ x e, p.find x = some e → p.failed now ⟨x, e⟩ = true → e.status ≠ some .leaving) :
    InStep (p.failureDetectionLoop now) := by
  have hmem : ∀ entry ∈ p.peers.entries, p.find entry.1 = some entry.2 := fun entry hentry =>
    AList.mem_lookup_iff.2 hentry
  have hchanges := fun x => changes_removed x
    (p.peers.nodupKeys.sublist (List.filter_sublist (p := p.failed now)))
    fun entry hentry => hkeyed.id _ _ (hmem entry (List.mem_filter.1 hentry).1)
  have hfails : ∀ x, x ∈ (p.peers.entries.filter (p.failed now)).keys ↔
      ∃ e, p.find x = some e ∧ p.failed now ⟨x, e⟩ = true := by
    intro x
    unfold List.keys
    rw [List.mem_map]
    constructor
    · rintro ⟨entry, hentry, rfl⟩
      obtain ⟨hentry, hfailed⟩ := List.mem_filter.1 hentry
      exact ⟨entry.2, hmem entry hentry, hfailed⟩
    · rintro ⟨e, hfind, hfailed⟩
      exact ⟨⟨x, e⟩, List.mem_filter.2 ⟨AList.mem_lookup_iff.1 hfind, hfailed⟩, rfl⟩
  refine h.append rfl fun x => ?_
  rw [hchanges x]
  have hmember : Member (p.failureDetectionLoop now) x ↔
      x ≠ p.self.id ∧ ∃ e, (p.find x).filter (fun e => ¬ p.failed now ⟨x, e⟩) = some e ∧
        e.status ≠ some .leaving := by
    rw [← find_failureDetectionLoop]
    rfl
  rw [hmember]
  split_ifs with hin
  · obtain ⟨e, hfind, hfailed⟩ := (hfails x).1 hin
    have hother : x ≠ p.self.id := by
      have hboth := hfailed
      unfold GossipProtocol.failed at hboth
      exact (of_decide_eq_true hboth).1
    refine .inr (.inr ⟨rfl, ?_, hother, e, hfind, hstays x e hfind hfailed⟩)
    rintro ⟨-, e', hfilter, -⟩
    rw [hfind, Option.filter_eq_some_iff] at hfilter
    cases hfilter.1
    exact absurd hfailed (by simpa using hfilter.2)
  · refine .inl ⟨rfl, and_congr_right fun _ => exists_congr fun e => and_congr_left fun _ => ?_⟩
    rw [Option.filter_eq_some_iff]
    refine ⟨fun hboth => hboth.1, fun hfind => ⟨hfind, ?_⟩⟩
    have hnot : ¬ p.failed now ⟨x, e⟩ = true := fun hfailed =>
      hin ((hfails x).2 ⟨e, hfind, hfailed⟩)
    simpa using hnot

/-! ## Runs -/

/-- The node changes its own entry only, and says nothing. -/
theorem InStep.refresh (h : InStep p) (hid : q.self.id = p.self.id) (hlog : q.log = p.log)
    (hfind : ∀ x, q.find x = if x = p.self.id then some q.self else p.find x) : InStep q := by
  refine h.append (hlog.trans (List.append_nil _).symm) fun x => .inl ⟨rfl, ?_⟩
  unfold Member
  rw [hid, hfind]
  refine and_congr_right fun hx => ?_
  rw [if_neg hx]

theorem Keyed.refresh (h : Keyed p) (hid : q.self.id = p.self.id)
    (hfind : ∀ x, q.find x = if x = p.self.id then some q.self else p.find x) : Keyed q := by
  refine ⟨fun x e he => ?_, q.self, by rw [hfind, if_pos hid]⟩
  rw [hfind] at he
  split_ifs at he with hx
  · cases he
    exact hid.trans hx.symm
  · exact h.id x e he

theorem leave_of_leaving (h : p.isLeaving = true) (now : Nat) : p.leave now = p := if_pos h

theorem self_leave (now : Nat) : (p.leave now).self.id = p.self.id ∧ (p.leave now).log = p.log := by
  unfold GossipProtocol.leave
  split_ifs <;> exact ⟨rfl, rfl⟩

theorem Keyed.act (h : Keyed p) (input : GossipInput N) : Keyed (p.act input) := by
  cases input with
  | handleGossipMessage message now =>
      exact handleGossipMessage_invariant (fun q e _ hq => hq.mergePeer now e) h
  | failureDetectionLoop now =>
      obtain ⟨own, hown⟩ := h.own
      refine ⟨fun x e he => ?_, own, ?_⟩
      · have hfind := (find_failureDetectionLoop p now x).symm.trans he
        rw [Option.filter_eq_some_iff] at hfind
        exact h.id x e hfind.1
      · refine (find_failureDetectionLoop p now p.self.id).trans ?_
        rw [Option.filter_eq_some_iff]
        exact ⟨hown, by simp [GossipProtocol.failed]⟩
  | gossipLoop now => exact h.refresh rfl fun x => find_beat p now x
  | leave now =>
      cases hstays : p.isLeaving with
      | true =>
          change Keyed (p.leave now)
          rw [leave_of_leaving hstays]
          exact h
      | false => exact h.refresh (self_leave now).1 fun x => find_leave hstays now x

theorem InStep.act (h : InStep p) (hkeyed : Keyed p) {input : GossipInput N}
    (htells : Tells p input) : InStep (p.act input) := by
  cases input with
  | handleGossipMessage message now =>
      by_cases haccepted : Accepted message
      · unfold GossipProtocol.act
        dsimp only
        rw [handleGossipMessage_of_accepted haccepted]
        exact (run_invariant (I := fun p => InStep p ∧ Keyed p) (G := Told)
          (fun q e r hq htold hst => by
            cases hst
            exact ⟨hq.1.mergePeer hq.2 htold, hq.2.mergePeer now e⟩)
          ⟨h, hkeyed⟩ (htells haccepted) (run_mergeStep now p message.peers)).1
      · unfold GossipProtocol.act
        dsimp only
        rw [handleGossipMessage_of_not_accepted haccepted]
        exact h
  | failureDetectionLoop now => exact h.failureDetectionLoop hkeyed htells
  | gossipLoop now => exact h.refresh rfl rfl fun x => find_beat p now x
  | leave now =>
      cases hstays : p.isLeaving with
      | true =>
          change InStep (p.leave now)
          rw [leave_of_leaving hstays]
          exact h
      | false =>
          exact h.refresh (self_leave now).1 (self_leave now).2 fun x => find_leave hstays now x

section

variable (n : N) (rpcAddress gossipAddress : String) (options : GossipOptions)

theorem keyed_new : Keyed (.new n rpcAddress gossipAddress options now) := by
  refine ⟨fun x e he => ?_, _, by rw [find_new]; exact if_pos rfl⟩
  rw [find_new] at he
  split_ifs at he with hx
  cases he
  exact hx.symm

theorem inStep_new : InStep (.new n rpcAddress gossipAddress options now) := by
  refine ⟨fun x => List.isChain_singleton false, fun x => iff_of_false nofun ?_⟩
  rintro ⟨hother, e, he, -⟩
  rw [find_new] at he
  split_ifs at he with hx
  exact hother hx

/-- In every run of a node in which all such changes are told, the events are in step with
the table after each input. -/
theorem events_in_step {inputs : List (GossipInput N)}
    (htells : Along GossipProtocol.step Tells (.new n rpcAddress gossipAddress options now)
      inputs) :
    Throughout GossipProtocol.step InStep (.new n rpcAddress gossipAddress options now) inputs :=
  (throughout_of_invariant (I := fun p => InStep p ∧ Keyed p)
    (fun p input q hp htells hst => by
      cases hst
      exact ⟨hp.1.act hp.2 htells, hp.2.act input⟩)
    ⟨inStep_new n rpcAddress gossipAddress options, keyed_new n rpcAddress gossipAddress options⟩
    htells).mono fun _ hp => hp.1

end

section

def joining : PeerState Nat := ⟨1, "tcp://b", 4, 10, "b:6000", 0, some .alive⟩

/-- The peer joins, leaves, and is removed when its time is over. -/
def visit : List (GossipInput Nat) :=
  [.handleGossipMessage ⟨some 1, 1, [joining]⟩ 20,
    .handleGossipMessage ⟨some 1, 1, [{ joining with heartbeat := 5, status := some .leaving }]⟩ 30,
    .failureDetectionLoop 2000]

def host : GossipProtocol Nat := .new 0 "tcp://a" "a:6000" ⟨1000, 3, []⟩ 9

def visited : GossipProtocol Nat := (run GossipProtocol.step host visit).getD host

/-- It is said to leave twice. -/
theorem visit_leaves_twice :
    run GossipProtocol.step host visit = some visited ∧
      changes 1 visited.log = [true, false, false] ∧ ¬ InStep visited := by
  have hchanges : changes 1 visited.log = [true, false, false] := by decide
  refine ⟨rfl, hchanges, fun h => ?_⟩
  have halternate := h.alternate 1
  rw [hchanges] at halternate
  exact absurd halternate (by decide)

theorem events_in_step_visit :
    Throughout GossipProtocol.step InStep host (visit.take 2) := by
  refine events_in_step 0 "tcp://a" "a:6000" ⟨1000, 3, []⟩ ⟨fun _ => ⟨?_, fun _ _ => trivial⟩, ?_⟩
  · rintro known ⟨⟩
  · rintro p ⟨⟩
    refine ⟨fun _ => ⟨?_, fun _ _ => trivial⟩, fun _ _ => trivial⟩
    rintro known ⟨⟩ -
    exact .inr ⟨rfl, by decide, rfl⟩

end

end Libeam.Proofs.MemberEvents
