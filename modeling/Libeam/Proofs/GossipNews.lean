import Libeam.Proofs.GossipSteps
/-!
# Entries come from the nodes they are about

Only the node itself makes news of itself, and each piece of news comes with one status.
What others hold or send of it is therefore a copy of something that it once was, and when
such a copy comes back to the node it is never news.
-/

namespace Libeam.Proofs.GossipNews

open Gossip Lib.Transition GossipSteps

variable {N : Type} [DecidableEq N] {c c' : GossipCluster N} {n : N} {p : GossipProtocol N}
  {e : PeerState N} {outgoing : List (GossipMessage N × String)}

/-- The entry is not ahead of its node, and the node had this status with this news. -/
structure Genuine (c : GossipCluster N) (e : PeerState N) : Prop where
  behind : ∃ p, c.node e.id = some p ∧ e.news ≤ p.self.news
  been : ∃ q ∈ c.been e.id, q.news = e.news ∧ q.status = e.status

structure Truthful (c : GossipCluster N) : Prop where
  id : ∀ n p, c.node n = some p → p.self.id = n
  behind : ∀ n, ∀ q ∈ c.been n, ∃ p, c.node n = some p ∧ q.news ≤ p.self.news
  once : ∀ n, ∀ q ∈ c.been n, ∀ q' ∈ c.been n, q.news = q'.news → q.status = q'.status
  current : ∀ n p, c.node n = some p → p.self ∈ c.been n
  tables : ∀ n p, c.node n = some p → ∀ x e, p.find x = some e → e.id = x ∧ Genuine c e
  messages : ∀ sent ∈ c.sent, ∀ e ∈ sent.1.peers, Genuine c e
  own : ∀ n p, c.node n = some p → p.running → p.find n = some p.self

/-- What a node may become, and send. -/
structure Acts (c : GossipCluster N) (n : N) (p : GossipProtocol N)
    (outgoing : List (GossipMessage N × String)) : Prop where
  id : p.self.id = n
  ahead : ∀ q ∈ c.been n,
    q.news ≤ p.self.news ∧ (q.news = p.self.news → q.status = p.self.status)
  entries : ∀ x e, p.find x = some e → x = n ∧ e = p.self ∨ e.id = x ∧ Genuine c e
  outgoing : ∀ sent ∈ outgoing, sent.1.peers = p.getAllKnownPeers
  own : p.running → p.find n = some p.self
  later : ∀ old, c.node n = some old → ∀ x e e',
    old.find x = some e → p.find x = some e' → e.news ≤ e'.news

/-! ## One step -/

theorem node_put (c : GossipCluster N) (n m : N) (p : GossipProtocol N)
    (outgoing : List (GossipMessage N × String)) :
    (c.put n p outgoing).node m = if m = n then some p else c.node m :=
  Function.update_apply _ _ _ _

theorem been_put (c : GossipCluster N) (n m : N) (p : GossipProtocol N)
    (outgoing : List (GossipMessage N × String)) :
    (c.put n p outgoing).been m = if m = n then c.been n ++ [p.self] else c.been m :=
  Function.update_apply _ _ _ _

theorem Genuine.put (h : Genuine c e) (hacts : Acts c n p outgoing) :
    Genuine (c.put n p outgoing) e := by
  obtain ⟨q, hq, hnews, hstatus⟩ := h.been
  by_cases hn : e.id = n
  · rw [hn] at hq
    refine ⟨⟨p, by rw [node_put, if_pos hn], ?_⟩, q, ?_, hnews, hstatus⟩
    · exact hnews ▸ (hacts.ahead q hq).1
    · rw [been_put, if_pos hn]
      exact List.mem_append_left _ hq
  · refine ⟨?_, q, ?_, hnews, hstatus⟩
    · rw [node_put, if_neg hn]
      exact h.behind
    · rw [been_put, if_neg hn]
      exact hq

theorem genuine_self (hid : p.self.id = n) : Genuine (c.put n p outgoing) p.self := by
  refine ⟨⟨p, by rw [node_put, if_pos hid], le_refl _⟩, p.self, ?_, rfl, rfl⟩
  rw [been_put, if_pos hid]
  exact List.mem_append_right _ (List.mem_singleton.2 rfl)

theorem Truthful.put (h : Truthful c) (hacts : Acts c n p outgoing) :
    Truthful (c.put n p outgoing) := by
  have hentries : ∀ x e, p.find x = some e → e.id = x ∧ Genuine (c.put n p outgoing) e := by
    intro x e hfind
    rcases hacts.entries x e hfind with ⟨rfl, rfl⟩ | ⟨hid, hgenuine⟩
    · exact ⟨hacts.id, genuine_self hacts.id⟩
    · exact ⟨hid, hgenuine.put hacts⟩
  constructor
  case id =>
    intro m q hq
    rw [node_put] at hq
    split_ifs at hq with hm
    · cases hq
      exact hacts.id.trans hm.symm
    · exact h.id m q hq
  case behind =>
    intro m q hq
    rw [been_put] at hq
    rw [node_put]
    split_ifs at hq ⊢ with hm
    · refine ⟨p, rfl, ?_⟩
      rcases List.mem_append.1 hq with hq | hq
      · exact (hacts.ahead q hq).1
      · rw [List.mem_singleton.1 hq]
    · exact h.behind m q hq
  case once =>
    intro m q hq q' hq' hnews
    rw [been_put] at hq hq'
    split_ifs at hq hq' with hm
    · rcases List.mem_append.1 hq with hq | hq <;> rcases List.mem_append.1 hq' with hq' | hq'
      · exact h.once n q hq q' hq' hnews
      · rw [List.mem_singleton.1 hq'] at hnews ⊢
        exact (hacts.ahead q hq).2 hnews
      · rw [List.mem_singleton.1 hq] at hnews ⊢
        exact ((hacts.ahead q' hq').2 hnews.symm).symm
      · rw [List.mem_singleton.1 hq, List.mem_singleton.1 hq']
    · exact h.once m q hq q' hq' hnews
  case current =>
    intro m q hq
    rw [node_put] at hq
    rw [been_put]
    split_ifs at hq ⊢ with hm
    · cases hq
      exact List.mem_append_right _ (List.mem_singleton.2 rfl)
    · exact h.current m q hq
  case tables =>
    intro m q hq x e hfind
    rw [node_put] at hq
    split_ifs at hq with hm
    · cases hq
      exact hentries x e hfind
    · obtain ⟨hid, hgenuine⟩ := h.tables m q hq x e hfind
      exact ⟨hid, hgenuine.put hacts⟩
  case messages =>
    intro sent hsent e he
    rcases List.mem_append.1 hsent with hsent | hsent
    · exact (h.messages sent hsent e he).put hacts
    · rw [hacts.outgoing sent hsent] at he
      obtain ⟨x, hfind⟩ := mem_getAllKnownPeers.1 he
      exact (hentries x e hfind).2
  case own =>
    intro m q hq hrunning
    rw [node_put] at hq
    split_ifs at hq with hm
    · cases hq
      exact hm ▸ hacts.own hrunning
    · exact h.own m q hq hrunning

section

variable {old : GossipProtocol N} (h : Truthful c) (hold : c.node n = some old)
include h hold

theorem behind_old {q : PeerState N} (hq : q ∈ c.been n) : q.news ≤ old.self.news := by
  obtain ⟨p, hp, hle⟩ := h.behind n q hq
  rw [hold] at hp
  cases hp
  exact hle

/-- A node that stays what it is. -/
theorem ahead_of_same (hself : p.self = old.self) : ∀ q ∈ c.been n,
    q.news ≤ p.self.news ∧ (q.news = p.self.news → q.status = p.self.status) := by
  intro q hq
  rw [hself]
  exact ⟨behind_old h hold hq, h.once n q hq old.self (h.current n old hold)⟩

/-- A node that has news of itself. -/
theorem ahead_of_lt (hself : old.self.news < p.self.news) : ∀ q ∈ c.been n,
    q.news ≤ p.self.news ∧ (q.news = p.self.news → q.status = p.self.status) := by
  intro q hq
  have hlt := (behind_old h hold hq).trans_lt hself
  exact ⟨hlt.le, fun heq => absurd heq hlt.ne⟩

theorem entry_le {x : N} (hfind : old.find x = some e) (hx : x = n) :
    e.news ≤ old.self.news := by
  obtain ⟨hid, hgenuine⟩ := h.tables n old hold x e hfind
  obtain ⟨p, hp, hle⟩ := hgenuine.behind
  rw [hid, hx, hold] at hp
  cases hp
  exact hle

/-- The node brings its own entry up to date. -/
theorem acts_refresh (hid : p.self.id = old.self.id) (hnews : old.self.news < p.self.news)
    (hfind : ∀ x, p.find x = if x = old.self.id then some p.self else old.find x)
    (hout : ∀ sent ∈ outgoing, sent.1.peers = p.getAllKnownPeers) : Acts c n p outgoing := by
  have hn := h.id n old hold
  refine ⟨hid.trans hn, ahead_of_lt h hold hnews, fun x e he => ?_, hout, fun _ => ?_, ?_⟩
  · rw [hfind, hn] at he
    split_ifs at he with hx
    · cases he
      exact .inl ⟨hx, rfl⟩
    · exact .inr (h.tables n old hold x e he)
  · rw [hfind, hn, if_pos rfl]
  · intro old' hold' x e e' he he'
    rw [hold] at hold'
    cases hold'
    rw [hfind, hn] at he'
    split_ifs at he' with hx
    · cases he'
      exact (entry_le h hold he hx).trans hnews.le
    · rw [he] at he'
      cases he'
      exact le_refl _

/-- The node drops entries other than its own, or nothing. -/
theorem acts_keep (hself : p.self = old.self) (hrunning : p.running → old.running)
    (hfind : ∀ x e, p.find x = some e → old.find x = some e)
    (hown : p.running → old.find n = some old.self → p.find n = some old.self)
    (hout : ∀ sent ∈ outgoing, sent.1.peers = p.getAllKnownPeers) : Acts c n p outgoing := by
  refine ⟨hself ▸ h.id n old hold, ahead_of_same h hold hself, fun x e he => ?_, hout,
    fun hopen => ?_, ?_⟩
  · exact .inr (h.tables n old hold x e (hfind x e he))
  · rw [hself]
    exact hown hopen (h.own n old hold (hrunning hopen))
  · intro old' hold' x e e' he he'
    rw [hold] at hold'
    cases hold'
    rw [hfind x e' he'] at he
    cases he
    exact le_refl _

/-- Entries that are genuine come in. -/
theorem handled {message : GossipMessage N} (now : Nat)
    (hgenuine : ∀ e ∈ message.peers, Genuine c e) (hopen : old.running) :
    (∀ x e, (old.handleGossipMessage message now).find x = some e → e.id = x ∧ Genuine c e) ∧
      (old.handleGossipMessage message now).find n = some old.self ∧
      ∀ x e, old.find x = some e →
        ∃ e', (old.handleGossipMessage message now).find x = some e' ∧ e.news ≤ e'.news := by
  have hself := h.own n old hold hopen
  refine handleGossipMessage_invariant (I := fun q =>
    (∀ x e, q.find x = some e → e.id = x ∧ Genuine c e) ∧ q.find n = some old.self ∧
      ∀ x e, old.find x = some e → ∃ e', q.find x = some e' ∧ e.news ≤ e'.news)
    (fun q incoming hmem hq => ?_) ⟨h.tables n old hold, hself, fun x e he => ⟨e, he, le_refl _⟩⟩
  obtain ⟨hentries, hown, hkept⟩ := hq
  have hincoming := hgenuine incoming hmem
  refine ⟨fun x e he => ?_, ?_, fun x e he => ?_⟩
  · rw [find_mergePeer] at he
    split_ifs at he with hx
    · rcases merged_eq_some he with ⟨rfl, -⟩ | hknown
      · exact ⟨hx.symm, hincoming.behind, hincoming.been⟩
      · exact hx ▸ hentries incoming.id e hknown
    · exact hentries x e he
  · -- the node itself is not behind what is said of it
    rw [find_mergePeer]
    split_ifs with hn
    · obtain ⟨p, hp, hle⟩ := hincoming.behind
      rw [← hn, hold] at hp
      cases hp
      rw [← hn, hown]
      exact if_neg hle.not_gt
    · exact hown
  · obtain ⟨e', he', hle⟩ := hkept x e he
    rw [find_mergePeer]
    split_ifs with hx
    · obtain ⟨e'', he'', hle'⟩ := merged_some now e' incoming
      rw [← hx, he']
      exact ⟨e'', he'', hle.trans hle'⟩
    · exact ⟨e', he', hle⟩

end

/-- A node that has not been started before, or is started again. -/
theorem acts_new {config : GossipConfig} {now : Nat} (h : Truthful c)
    (hnow : ∀ p ∈ c.node n, p.self.generation < now) :
    Acts c n (.new n config.rpcAddress config.gossipAddress config.options now) [] := by
  have hlt : ∀ old, c.node n = some old → old.self.news <
      (GossipProtocol.new n config.rpcAddress config.gossipAddress config.options
        now).self.news := fun old hold => news_lt_iff.2 (.inl (hnow old hold))
  have hfind : ∀ x e, (GossipProtocol.new n config.rpcAddress config.gossipAddress config.options
      now).find x = some e → x = n ∧ e = (GossipProtocol.new n config.rpcAddress
        config.gossipAddress config.options now).self := by
    intro x e he
    rw [find_new] at he
    split_ifs at he with hx
    exact ⟨hx, (Option.some.inj he).symm⟩
  refine ⟨rfl, fun q hq => ?_, fun x e he => .inl (hfind x e he), nofun, fun _ => ?_, ?_⟩
  · obtain ⟨old, hold, hle⟩ := h.behind n q hq
    have hlt := hle.trans_lt (hlt old hold)
    exact ⟨hlt.le, fun heq => absurd heq hlt.ne⟩
  · rw [find_new, if_pos rfl]
  · intro old hold x e e' he he'
    obtain ⟨rfl, rfl⟩ := hfind x e' he'
    exact (entry_le h hold he rfl).trans (hlt old hold).le

/-- What a step can do. -/
theorem step_acts {a : GossipAction N} (h : Truthful c)
    (hst : GossipCluster.step c a = some c') :
    c' = c ∨ ∃ n p outgoing, c' = c.put n p outgoing ∧ Acts c n p outgoing := by
  have hopen : ∀ {n : N} {act : GossipProtocol N → GossipCluster N}, c.whenRunning n act = some c' →
      ∃ old, c.node n = some old ∧ old.running ∧ act old = c' := by
    intro n act hact
    obtain ⟨old, hold, hact⟩ := Option.bind_eq_some_iff.1 hact
    split_ifs at hact with hrunning
    exact ⟨old, hold, hrunning, Option.some.inj hact⟩
  have hmessage : ∀ {p : GossipProtocol N} {addresses : List String},
      ∀ sent ∈ addresses.map fun address => (p.message, address),
        sent.1.peers = p.getAllKnownPeers := by
    intro p addresses sent hsent
    obtain ⟨address, -, rfl⟩ := List.mem_map.1 hsent
    rfl
  have hbroadcast : ∀ {p : GossipProtocol N}, ∀ sent ∈ p.broadcastToAllPeers,
      sent.1.peers = p.getAllKnownPeers := by
    intro p sent hsent
    obtain ⟨peer, -, rfl⟩ := List.mem_map.1 hsent
    rfl
  cases a with
  | start n config now =>
      unfold GossipCluster.step at hst
      dsimp only at hst
      split_ifs at hst with hnow
      cases hst
      exact .inr ⟨n, _, [], rfl, acts_new h hnow⟩
  | gossipLoop n now shuffledPeers randomSeedGossipAddress =>
      obtain ⟨old, hold, hrunning, rfl⟩ := hopen hst
      exact .inr ⟨n, _, _, rfl, acts_refresh h hold rfl (news_beat old now)
        (fun x => find_beat old now x) hmessage⟩
  | failureDetectionLoop n now =>
      obtain ⟨old, hold, hrunning, rfl⟩ := hopen hst
      refine .inr ⟨n, _, _, rfl, acts_keep h hold rfl id (fun x e he => ?_) (fun _ hown => ?_)
        nofun⟩
      · rw [find_failureDetectionLoop, Option.filter_eq_some_iff] at he
        exact he.1
      · rw [find_failureDetectionLoop, Option.filter_eq_some_iff]
        exact ⟨hown, by simp [GossipProtocol.failed, h.id n old hold]⟩
  | deliver n index now =>
      obtain ⟨sent, hsent, hst⟩ := Option.bind_eq_some_iff.1 hst
      obtain ⟨old, hold, hrunning, rfl⟩ := hopen hst
      have hsame := sameSelf_handleGossipMessage old sent.1 now
      obtain ⟨hentries, hown, hkept⟩ := handled h hold now
        (h.messages sent (List.mem_of_getElem? hsent)) hrunning
      refine .inr ⟨n, _, _, rfl, hsame.self ▸ h.id n old hold, ahead_of_same h hold hsame.self,
        fun x e he => .inr (hentries x e he), nofun, fun _ => hsame.self ▸ hown, ?_⟩
      intro old' hold' x e e' he he'
      rw [hold] at hold'
      cases hold'
      obtain ⟨e'', he'', hle⟩ := hkept x e he
      rw [he'] at he''
      cases he''
      exact hle
  | leave n now =>
      obtain ⟨old, hold, hst⟩ := Option.map_eq_some_iff.1 hst
      split_ifs at hst with hleaving
      · exact .inl hst.symm
      · have hstays : old.isLeaving = false := by simpa using hleaving
        refine .inr ⟨n, _, _, hst.symm, acts_refresh h hold ?_ (news_leave hstays now)
          (fun x => find_leave hstays now x) hbroadcast⟩
        unfold GossipProtocol.leave
        simp [hstays, GossipProtocol.set]
  | broadcastToAllPeers n =>
      obtain ⟨old, hold, hrunning, hst⟩ := hopen hst
      split_ifs at hst
      · exact .inr ⟨n, _, _, hst.symm, acts_keep h hold rfl id (fun x e he => he)
          (fun _ hown => hown) hbroadcast⟩
      · exact .inl hst.symm
  | stop n =>
      obtain ⟨old, hold, rfl⟩ := Option.map_eq_some_iff.1 hst
      exact .inr ⟨n, _, _, rfl, acts_keep h hold rfl nofun nofun nofun nofun⟩

theorem Truthful.step {a : GossipAction N} (h : Truthful c)
    (hst : GossipCluster.step c a = some c') : Truthful c' := by
  rcases step_acts h hst with rfl | ⟨n, p, outgoing, rfl, hacts⟩
  · exact h
  · exact h.put hacts

theorem truthful_init : Truthful (GossipCluster.init : GossipCluster N) where
  id := nofun
  behind := nofun
  once := nofun
  current := nofun
  tables := nofun
  messages := nofun
  own := nofun

theorem truthful_run {as : List (GossipAction N)} (h : Truthful c)
    (hrun : run GossipCluster.step c as = some c') : Truthful c' :=
  run_invariant' (fun _ _ _ h hst => h.step hst) h hrun

/-! ## What a node holds of another one -/

def entry (c : GossipCluster N) (n x : N) : Option (PeerState N) := (c.node n).bind (·.find x)

theorem entry_put (c : GossipCluster N) (n m x : N) (p : GossipProtocol N)
    (outgoing : List (GossipMessage N × String)) :
    entry (c.put n p outgoing) m x = if m = n then p.find x else entry c m x := by
  unfold entry
  rw [node_put]
  split_ifs <;> rfl

theorem entry_step {a : GossipAction N} (h : Truthful c) (hst : GossipCluster.step c a = some c')
    {n x : N} {e e' : PeerState N} (he : entry c n x = some e) (he' : entry c' n x = some e') :
    e.news ≤ e'.news := by
  rcases step_acts h hst with rfl | ⟨m, p, outgoing, rfl, hacts⟩
  · rw [he] at he'
    cases he'
    exact le_refl _
  · rw [entry_put] at he'
    split_ifs at he' with hm
    · obtain ⟨old, hold, hfind⟩ := Option.bind_eq_some_iff.1 he
      exact hacts.later old (hm ▸ hold) x e e' hfind he'
    · rw [he] at he'
      cases he'
      exact le_refl _

/-- As long as an entry stays, it only gets news. -/
theorem entry_run {as : List (GossipAction N)} {n x : N} {e e' : PeerState N} (h : Truthful c)
    (hrun : run GossipCluster.step c as = some c') (he : entry c n x = some e)
    (hstays : Throughout GossipCluster.step (fun c => (entry c n x).isSome) c as)
    (he' : entry c' n x = some e') : e.news ≤ e'.news := by
  induction as generalizing c e with
  | nil =>
      cases hrun
      rw [he] at he'
      cases he'
      exact le_refl _
  | cons a as ih =>
      obtain ⟨d, hst, hrun⟩ := run_cons_eq_some.1 hrun
      have hrest := hstays.2 d hst
      obtain ⟨f, hf⟩ := Option.isSome_iff_exists.1 hrest.head
      calc e.news ≤ f.news := entry_step h hst he hf
        _ ≤ e'.news := ih (h.step hst) hrun hf hrest

/-- What others say of a node does not change what it holds of itself. -/
theorem entry_deliver {m : N} {index now : Nat} (h : Truthful c)
    (hst : GossipCluster.step c (.deliver m index now) = some c') (n : N) :
    entry c' n n = entry c n n := by
  obtain ⟨sent, hsent, hst⟩ := Option.bind_eq_some_iff.1 hst
  obtain ⟨old, hold, hst⟩ := Option.bind_eq_some_iff.1 hst
  split_ifs at hst with hrunning
  cases hst
  rw [entry_put]
  split_ifs with hn
  · subst hn
    have hown := (handled h hold now (h.messages sent (List.mem_of_getElem? hsent))
      hrunning).2.1
    calc (old.handleGossipMessage sent.1 now).find n = some old.self := hown
      _ = old.find n := (h.own n old hold hrunning).symm
      _ = entry c n n := by rw [entry, hold, Option.bind_some]
  · rfl

/-! ## Runs -/

/-- The entry is at most at what its node is now, and it has the status that the node had
at just that point. -/
def Was (c : GossipCluster N) (e : PeerState N) : Prop :=
  (∃ p, c.node e.id = some p ∧ e.news ≤ p.self.news) ∧
    (∃ q ∈ c.been e.id, q.news = e.news) ∧
    ∀ q ∈ c.been e.id, q.news = e.news → q.status = e.status

theorem Truthful.was (h : Truthful c) (he : Genuine c e) : Was c e := by
  obtain ⟨q, hq, hnews, hstatus⟩ := he.been
  refine ⟨he.behind, ⟨q, hq, hnews⟩, fun q' hq' hnews' => ?_⟩
  calc q'.status = q.status := h.once e.id q' hq' q hq (hnews'.trans hnews.symm)
    _ = e.status := hstatus

/-- In every run, all entries that are held or sent are what their nodes once were; entries
only get news while they stay; and a node holds itself as it is, whatever arrives. -/
theorem no_invented_news {as : List (GossipAction N)}
    (hrun : run GossipCluster.step .init as = some c) :
    (∀ n x e, entry c n x = some e → e.id = x ∧ Was c e) ∧
      (∀ sent ∈ c.sent, ∀ e ∈ sent.1.peers, Was c e) ∧
      (∀ bs d, run GossipCluster.step c bs = some d → ∀ n x e e', entry c n x = some e →
        Throughout GossipCluster.step (fun c => (entry c n x).isSome) c bs →
        entry d n x = some e' → e.news ≤ e'.news) ∧
      (∀ n p, c.node n = some p → p.running → entry c n n = some p.self) ∧
      ∀ m index now d, GossipCluster.step c (.deliver m index now) = some d →
        ∀ n, entry d n n = entry c n n := by
  have h := truthful_run truthful_init hrun
  refine ⟨fun n x e he => ?_, fun sent hsent e he => h.was (h.messages sent hsent e he),
    fun bs d hbs n x e e' he hstays he' => entry_run h hbs he hstays he',
    fun n p hp hrunning => ?_, fun m index now d hst n => entry_deliver h hst n⟩
  · obtain ⟨p, hp, hfind⟩ := Option.bind_eq_some_iff.1 he
    obtain ⟨hid, hgenuine⟩ := h.tables n p hp x e hfind
    exact ⟨hid, h.was hgenuine⟩
  · rw [entry, hp, Option.bind_some]
    exact h.own n p hp hrunning

section

def twoNodes : GossipConfig := ⟨"tcp://a", "a:6000", ⟨1000, 3, ["b:6000"]⟩⟩

/-- Node 1 hears of node 0, which leaves and is started again. -/
def restarted : List (GossipAction Nat) :=
  [.start 0 twoNodes 10, .start 1 twoNodes 11, .gossipLoop 0 20 [] "b:6000", .deliver 1 0 21,
    .leave 0 30, .stop 0, .start 0 twoNodes 40, .gossipLoop 0 50 [] "b:6000", .deliver 1 1 51,
    .deliver 1 0 52]

def afterRestart : GossipCluster Nat := (run GossipCluster.step .init restarted).getD .init

theorem no_invented_news_restarted :
    (∀ n x e, entry afterRestart n x = some e → e.id = x ∧ Was afterRestart e) ∧
      (∀ sent ∈ afterRestart.sent, ∀ e ∈ sent.1.peers, Was afterRestart e) ∧
      (∀ bs d, run GossipCluster.step afterRestart bs = some d → ∀ n x e e',
        entry afterRestart n x = some e →
        Throughout GossipCluster.step (fun c => (entry c n x).isSome) afterRestart bs →
        entry d n x = some e' → e.news ≤ e'.news) ∧
      (∀ n p, afterRestart.node n = some p → p.running → entry afterRestart n n = some p.self) ∧
      ∀ m index now d, GossipCluster.step afterRestart (.deliver m index now) = some d →
        ∀ n, entry d n n = entry afterRestart n n :=
  no_invented_news (show run GossipCluster.step .init restarted = some afterRestart from rfl)

end

end Libeam.Proofs.GossipNews
