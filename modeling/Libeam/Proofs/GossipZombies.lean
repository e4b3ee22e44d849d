import Libeam.Proofs.GossipSteps
/-!
# Peers that have been removed

Failure detection forgets a peer completely.  Others may still hold it and send what they
hold: to this node that is a new peer.  A removed peer comes back with old news just when
such an entry arrives while it is unknown.
-/

namespace Libeam.Proofs.GossipZombies

open Gossip Lib.Transition GossipSteps

variable {N : Type} [DecidableEq N] {p : GossipProtocol N} {now : Nat} {e : PeerState N}

/-- After its removal a peer joins with news only. -/
def NoZombies (log : List (GossipEvent N)) : Prop :=
  log.Pairwise fun earlier later => ∀ r e, earlier = .removed r → later = .member_join e →
    e.id = r.id → r.news < e.news

/-- The entry of a peer that is not known and not leaving is news against all entries of it
that have been removed. -/
def Newer (p : GossipProtocol N) (e : PeerState N) : Prop :=
  p.find e.id = none → e.status ≠ some .leaving →
    ∀ r, .removed r ∈ p.log → e.id = r.id → r.news < e.news

/-- No entry of a message is old news of a removed peer when its turn comes. -/
def Admits (p : GossipProtocol N) : GossipInput N → Prop
  | .handleGossipMessage message now =>
      Accepted message → Along (mergeStep now) Newer p message.peers
  | .failureDetectionLoop _ | .gossipLoop _ | .leave _ => True

/-! ## One entry -/

section
omit [DecidableEq N]

theorem noZombies_append {log events : List (GossipEvent N)} (h : NoZombies log)
    (hevents : ∀ e, .member_join e ∉ events) : NoZombies (log ++ events) := by
  refine List.pairwise_append.2 ⟨h, ?_, ?_⟩
  · refine List.pairwise_of_forall_mem_list fun a _ b hb r e _ heq _ => ?_
    exact absurd (heq ▸ hb) (hevents e)
  · intro a _ b hb r e _ heq _
    exact absurd (heq ▸ hb) (hevents e)

theorem NoZombies.of_append {log events : List (GossipEvent N)} (h : NoZombies (log ++ events)) :
    NoZombies log :=
  (List.pairwise_append.1 h).1

/-- An entry that comes in is a member that joins, or there is no join. -/
theorem announced_cases (known : Option (PeerState N)) (e : PeerState N) :
    known = none ∧ e.status ≠ some .leaving ∧ announced known e = [.member_join e] ∨
      ¬ (known = none ∧ e.status ≠ some .leaving) ∧
        ∀ e', .member_join e' ∉ announced known e := by
  cases known with
  | none =>
      by_cases hleaving : e.status = some .leaving
      · exact .inr ⟨by simp [hleaving], by simp [announced, hleaving]⟩
      · exact .inl ⟨rfl, hleaving, if_neg hleaving⟩
  | some known =>
      refine .inr ⟨nofun, fun e' hmem => ?_⟩
      unfold announced at hmem
      dsimp only at hmem
      split_ifs at hmem <;> simp at hmem

end

theorem noZombies_mergePeer (h : NoZombies p.log) (hnewer : Newer p e) :
    NoZombies (p.mergePeer now e).log := by
  rw [log_mergePeer]
  rcases announced_cases (p.find e.id) e with ⟨hnone, hstays, heq⟩ | ⟨-, hnone⟩
  · rw [heq]
    refine List.pairwise_append.2 ⟨h, List.pairwise_singleton _ _, ?_⟩
    rintro a ha b hb r e' rfl rfl hid
    cases List.mem_singleton.1 hb
    exact hnewer hnone hstays r ha hid
  · exact noZombies_append h hnone

theorem zombies_mergePeer (hnot : ¬ Newer p e) : ¬ NoZombies (p.mergePeer now e).log := by
  intro h
  rw [log_mergePeer] at h
  refine hnot fun hnone hstays r hr hid => ?_
  rcases announced_cases (p.find e.id) e with ⟨-, -, heq⟩ | ⟨hknown, -⟩
  · rw [heq] at h
    exact (List.pairwise_append.1 h).2.2 _ hr _ (List.mem_singleton.2 rfl) r e rfl rfl hid
  · exact absurd ⟨hnone, hstays⟩ hknown

/-- The entries of a message, one after the other. -/
theorem noZombies_foldl (h : NoZombies p.log) (es : List (PeerState N)) :
    NoZombies (es.foldl (GossipProtocol.mergePeer now) p).log ↔
      Along (mergeStep now) Newer p es := by
  have hends := along_or_broken (I := fun p => NoZombies p.log) (B := fun p => ¬ NoZombies p.log)
    (A := fun _ _ => True) (G := Newer)
    (fun p e q hp _ hnewer hst => by cases hst; exact noZombies_mergePeer hp hnewer)
    (fun p e q _ _ hnot hst => by cases hst; exact zombies_mergePeer hnot)
    (fun p e q hp _ hst => by
      cases hst
      rw [log_mergePeer]
      exact fun h => hp h.of_append)
    h (along_of_forall_mem (P := fun _ => True) (fun _ _ => trivial) p)
    (run_mergeStep now p es)
  rcases hends with ⟨halong, hgood⟩ | ⟨hnot, hbad⟩
  · exact iff_of_true hgood halong
  · exact iff_of_false hbad hnot

/-! ## Runs -/

theorem noZombies_act (h : NoZombies p.log) (input : GossipInput N) :
    NoZombies (p.act input).log ↔ Admits p input := by
  cases input with
  | handleGossipMessage message now =>
      by_cases haccepted : Accepted message
      · unfold GossipProtocol.act
        dsimp only
        rw [handleGossipMessage_of_accepted haccepted, noZombies_foldl h]
        exact ⟨fun halong _ => halong, fun halong => halong haccepted⟩
      · unfold GossipProtocol.act
        dsimp only
        rw [handleGossipMessage_of_not_accepted haccepted]
        exact iff_of_true h fun hread => absurd hread haccepted
  | failureDetectionLoop now =>
      refine iff_of_true (noZombies_append h fun e hmem => ?_) trivial
      obtain ⟨entry, -, hmem⟩ := List.mem_flatMap.1 hmem
      simp at hmem
  | gossipLoop now => exact iff_of_true h trivial
  | leave now =>
      have hlog : (p.leave now).log = p.log := by
        unfold GossipProtocol.leave
        split_ifs <;> rfl
      exact iff_of_true (show NoZombies (p.leave now).log from hlog ▸ h) trivial

/-- In a run from any state in which this is so, no removed peer ever joins with old news
just when no such entry is read while the peer is unknown. -/
theorem no_zombies_iff {inputs : List (GossipInput N)} {q : GossipProtocol N}
    (hstart : NoZombies p.log) (hrun : run GossipProtocol.step p inputs = some q) :
    Throughout GossipProtocol.step (fun p => NoZombies p.log) p inputs ↔
      Along GossipProtocol.step Admits p inputs :=
  throughout_iff_along (I := fun p => NoZombies p.log)
    (fun p input q hp _ hadmits hst => by cases hst; exact (noZombies_act hp input).2 hadmits)
    (fun p hp => hp)
    (fun p input q hp _ hnot hst hq => by cases hst; exact hnot ((noZombies_act hp input).1 hq))
    hstart (along_of_forall_mem (P := fun _ => True) (fun _ _ => trivial) p) hrun

section

def listener : GossipProtocol Nat := .new 0 "tcp://a" "a:6000" ⟨1000, 3, []⟩ 9

def crashed : PeerState Nat := ⟨1, "tcp://b", 4, 10, "b:6000", 0, some .alive⟩

/-- The peer is heard of, is silent for too long, and is heard of from somebody who has not
removed it yet. -/
def repeated : List (GossipInput Nat) :=
  [.handleGossipMessage ⟨some 1, 1, [crashed]⟩ 20, .failureDetectionLoop 2000,
    .handleGossipMessage ⟨some 1, 2, [crashed]⟩ 2010]

def rejoined : GossipProtocol Nat := (run GossipProtocol.step listener repeated).getD listener

theorem crashed_rejoins :
    run GossipProtocol.step listener repeated = some rejoined ∧ ¬ NoZombies rejoined.log := by
  refine ⟨rfl, fun h => ?_⟩
  have hlog : rejoined.log = [.member_join crashed, .removed { crashed with lastUpdated := 20 },
      .member_leave { crashed with lastUpdated := 20 }, .member_join crashed] := rfl
  rw [hlog] at h
  have hlater := (List.pairwise_cons.1 (List.pairwise_cons.1 h).2).1
  exact lt_irrefl _ (hlater (.member_join crashed) (by simp) { crashed with lastUpdated := 20 }
    crashed rfl rfl rfl)

theorem no_zombies_iff_repeated :
    Throughout GossipProtocol.step (fun p => NoZombies p.log) listener repeated ↔
      Along GossipProtocol.step Admits listener repeated :=
  no_zombies_iff List.Pairwise.nil
    (show run GossipProtocol.step listener repeated = some rejoined from rfl)

end

end Libeam.Proofs.GossipZombies
