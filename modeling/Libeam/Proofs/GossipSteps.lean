import Libeam.Gossip.Cluster
/-!
# What the operations of the gossip protocol do to the table and to the log

Everything that a received entry does is decided by the entry that is known under its id:
it is taken when it brings news, and a new one only if it is not leaving.
-/

namespace Libeam.Proofs.GossipSteps

open Gossip Lib.Transition

variable {N : Type} [DecidableEq N] {p : GossipProtocol N} {now : Nat} {x : N}
  {e known : PeerState N}

omit [DecidableEq N] in
theorem news_lt_iff : known.news < e.news ↔
    known.generation < e.generation ∨
      known.generation = e.generation ∧ known.heartbeat < e.heartbeat :=
  Prod.Lex.toLex_lt_toLex

theorem find_set (p : GossipProtocol N) (id x : N) (peer : PeerState N) :
    (p.set id peer).find x = if x = id then some peer else p.find x := by
  unfold GossipProtocol.set GossipProtocol.find
  split_ifs with h
  · rw [h]
    exact AList.lookup_insert _
  · exact AList.lookup_insert_ne h

theorem mem_getAllKnownPeers :
    e ∈ p.getAllKnownPeers ↔ ∃ x, p.find x = some e := by
  unfold GossipProtocol.getAllKnownPeers GossipProtocol.find
  simp only [List.mem_map, Sigma.exists, exists_eq_right, ← Option.mem_def,
    AList.mem_lookup_iff]

/-! ## One received entry -/

/-- The entry after another one for the same id has been received. -/
def merged (now : Nat) (known : Option (PeerState N)) (e : PeerState N) : Option (PeerState N) :=
  match known with
  | none => if e.status = some .leaving then none else some { e with lastUpdated := now }
  | some known =>
      if known.news < e.news then some { e with lastUpdated := now } else some known

omit [DecidableEq N] in
theorem merged_eq_some {known : Option (PeerState N)} {e e' : PeerState N}
    (h : merged now known e = some e') :
    e' = { e with lastUpdated := now } ∧ (∀ k, known = some k → k.news < e.news) ∨
      known = some e' := by
  unfold merged at h
  split at h
  · split_ifs at h
    cases h
    exact .inl ⟨rfl, nofun⟩
  next k =>
    split_ifs at h with hnews
    · cases h
      refine .inl ⟨rfl, fun k' hk' => ?_⟩
      cases hk'
      exact hnews
    · exact .inr h

omit [DecidableEq N] in
/-- What is known is not lost, and not replaced by what is older. -/
theorem merged_some (now : Nat) (known e : PeerState N) :
    ∃ e', merged now (some known) e = some e' ∧ known.news ≤ e'.news := by
  unfold merged
  dsimp only
  split_ifs with h
  · exact ⟨_, rfl, h.le⟩
  · exact ⟨known, rfl, le_refl _⟩

/-- What is emitted for it. -/
def announced (known : Option (PeerState N)) (e : PeerState N) : List (GossipEvent N) :=
  match known with
  | none => if e.status = some .leaving then [] else [.member_join e]
  | some known =>
      if known.news < e.news then
        if known.generation = e.generation ∧ known.status ≠ some .leaving ∧
            e.status = some .leaving then [.member_leave e]
        else [.member_update e]
      else []

/-- What does not change when a message is received, and when peers fail. -/
structure SameSelf (p q : GossipProtocol N) : Prop where
  self : q.self = p.self
  options : q.options = p.options
  isLeaving : q.isLeaving = p.isLeaving
  running : q.running = p.running

omit [DecidableEq N] in
theorem SameSelf.refl (p : GossipProtocol N) : SameSelf p p := ⟨rfl, rfl, rfl, rfl⟩

omit [DecidableEq N] in
theorem SameSelf.trans {p q r : GossipProtocol N} (h : SameSelf p q) (h' : SameSelf q r) :
    SameSelf p r :=
  ⟨h'.self.trans h.self, h'.options.trans h.options, h'.isLeaving.trans h.isLeaving,
    h'.running.trans h.running⟩

theorem mergePeer_eq (now : Nat) (p : GossipProtocol N) (e : PeerState N) :
    (∀ x, (p.mergePeer now e).find x =
        if x = e.id then merged now (p.find e.id) e else p.find x) ∧
      (p.mergePeer now e).log = p.log ++ announced (p.find e.id) e ∧
      SameSelf p (p.mergePeer now e) := by
  have hstays : ∀ known, p.find e.id = some known → ∀ x,
      p.find x = if x = e.id then some known else p.find x := by
    intro known hfind x
    split_ifs with h
    · rw [h, hfind]
    · rfl
  unfold GossipProtocol.mergePeer merged announced
  cases hknown : p.find e.id with
  | none =>
    dsimp only
    split_ifs with hleaving
    · refine ⟨fun x => ?_, (List.append_nil _).symm, .refl p⟩
      split_ifs with h
      · rw [h, hknown]
      · rfl
    · exact ⟨fun x => find_set .., rfl, ⟨rfl, rfl, rfl, rfl⟩⟩
  | some known =>
    dsimp only
    by_cases hgeneration : known.generation < e.generation
    · have hnews : known.news < e.news := news_lt_iff.2 (.inl hgeneration)
      simp only [if_pos hgeneration, if_pos hnews]
      rw [if_neg fun h => hgeneration.ne h.1]
      exact ⟨fun x => find_set .., rfl, ⟨rfl, rfl, rfl, rfl⟩⟩
    · by_cases hsame : e.generation = known.generation ∧ known.heartbeat < e.heartbeat
      · have hnews : known.news < e.news := news_lt_iff.2 (.inr ⟨hsame.1.symm, hsame.2⟩)
        simp only [if_neg hgeneration, if_pos hsame.1, if_pos hsame.2, if_pos hnews]
        by_cases hleaves : known.status ≠ some .leaving ∧ e.status = some .leaving
        · rw [if_pos hleaves, if_pos ⟨hsame.1.symm, hleaves⟩]
          exact ⟨fun x => find_set .., rfl, ⟨rfl, rfl, rfl, rfl⟩⟩
        · rw [if_neg hleaves, if_neg fun h => hleaves h.2]
          exact ⟨fun x => find_set .., rfl, ⟨rfl, rfl, rfl, rfl⟩⟩
      · have hnews : ¬ known.news < e.news := by
          rw [news_lt_iff]
          rintro (h | ⟨h, hless⟩)
          · exact hgeneration h
          · exact hsame ⟨h.symm, hless⟩
        simp only [if_neg hgeneration, if_neg hnews, ← ite_and, if_neg hsame]
        exact ⟨hstays known hknown, (List.append_nil _).symm, .refl p⟩

theorem find_mergePeer (now : Nat) (p : GossipProtocol N) (e : PeerState N) (x : N) :
    (p.mergePeer now e).find x =
      if x = e.id then merged now (p.find e.id) e else p.find x :=
  (mergePeer_eq now p e).1 x

theorem log_mergePeer (now : Nat) (p : GossipProtocol N) (e : PeerState N) :
    (p.mergePeer now e).log = p.log ++ announced (p.find e.id) e :=
  (mergePeer_eq now p e).2.1

theorem sameSelf_mergePeer (now : Nat) (p : GossipProtocol N) (e : PeerState N) :
    SameSelf p (p.mergePeer now e) :=
  (mergePeer_eq now p e).2.2

/-! ## Messages -/

/-- The entries of a message are so many steps. -/
def mergeStep (now : Nat) (p : GossipProtocol N) (e : PeerState N) : Option (GossipProtocol N) :=
  some (p.mergePeer now e)

theorem run_mergeStep (now : Nat) (p : GossipProtocol N) (es : List (PeerState N)) :
    run (mergeStep now) p es = some (es.foldl (GossipProtocol.mergePeer now) p) := by
  induction es generalizing p with
  | nil => rfl
  | cons e es ih => exact ih _

/-- Is the message read? -/
def Accepted (message : GossipMessage N) : Prop :=
  message.version = none ∨ message.version = some GOSSIP_PROTOCOL_VERSION

theorem handleGossipMessage_of_accepted {message : GossipMessage N} (h : Accepted message)
    (p : GossipProtocol N) (now : Nat) :
    p.handleGossipMessage message now = message.peers.foldl (GossipProtocol.mergePeer now) p :=
  if_neg fun hother => h.elim hother.1 hother.2

theorem handleGossipMessage_of_not_accepted {message : GossipMessage N} (h : ¬ Accepted message)
    (p : GossipProtocol N) (now : Nat) : p.handleGossipMessage message now = p :=
  if_pos (not_or.1 h)

/-- What each entry keeps, a message keeps. -/
theorem handleGossipMessage_invariant {I : GossipProtocol N → Prop} {message : GossipMessage N}
    (hstep : ∀ q, ∀ e ∈ message.peers, I q → I (q.mergePeer now e)) (hp : I p) :
    I (p.handleGossipMessage message now) := by
  unfold GossipProtocol.handleGossipMessage
  split_ifs
  · exact hp
  · exact List.foldlRecOn message.peers _ hp fun q hq e he => hstep q e he hq

theorem sameSelf_handleGossipMessage (p : GossipProtocol N) (message : GossipMessage N)
    (now : Nat) : SameSelf p (p.handleGossipMessage message now) :=
  handleGossipMessage_invariant (fun q e _ hq => hq.trans (sameSelf_mergePeer now q e))
    (.refl p)

/-! ## Failure detection, and what a node does to its own entry -/

theorem find_failureDetectionLoop (p : GossipProtocol N) (now : Nat) (x : N) :
    (p.failureDetectionLoop now).find x =
      (p.find x).filter fun e => ¬ p.failed now ⟨x, e⟩ := by
  ext e
  rw [Option.filter_eq_some_iff]
  exact AList.mem_lookup_iff.trans
    (List.mem_filter.trans (and_congr AList.mem_lookup_iff.symm Iff.rfl))

theorem find_new (n x : N) (rpcAddress gossipAddress : String) (options : GossipOptions)
    (now : Nat) :
    (GossipProtocol.new n rpcAddress gossipAddress options now).find x =
      if x = n then some (GossipProtocol.new n rpcAddress gossipAddress options now).self
      else none := by
  unfold GossipProtocol.find GossipProtocol.new AList.lookup AList.singleton
  dsimp only
  split_ifs with h
  · rw [h]
    exact List.dlookup_cons_eq _ _ _
  · rw [List.dlookup_cons_ne _ _ h, List.dlookup_nil]

theorem find_beat (p : GossipProtocol N) (now : Nat) (x : N) :
    (p.beat now).find x = if x = p.self.id then some (p.beat now).self else p.find x :=
  find_set _ _ _ _

theorem news_beat (p : GossipProtocol N) (now : Nat) : p.self.news < (p.beat now).self.news :=
  news_lt_iff.2 (.inr ⟨rfl, Nat.lt_succ_self _⟩)

theorem find_leave (hstays : p.isLeaving = false) (now : Nat) (x : N) :
    (p.leave now).find x = if x = p.self.id then some (p.leave now).self else p.find x := by
  unfold GossipProtocol.leave
  simp only [hstays, Bool.false_eq_true, if_false]
  exact find_set _ _ _ _

theorem news_leave (hstays : p.isLeaving = false) (now : Nat) :
    p.self.news < (p.leave now).self.news := by
  unfold GossipProtocol.leave
  simp only [hstays, Bool.false_eq_true, if_false]
  exact news_lt_iff.2 (.inr ⟨rfl, Nat.lt_succ_self _⟩)

end Libeam.Proofs.GossipSteps
