import Libeam.Proofs.GossipZombies
import Libeam.Proofs.MemberEvents
import Libeam.Transport.Peers
/-!
# The peer table follows the members

When a member joins, the list with it alone throws everybody else out of the table and closes
the connections to them, before the full list brings them back.  When the last one leaves, the
empty list is not passed on.
-/

namespace Libeam.Proofs.PeerTable

open Gossip Transport Transport.Peers Lib.Transition GossipSteps MemberEvents

variable {N : Type} [DecidableEq N] {s : Peers N} {livePeers : List (PeerState N)}
  {peers : List (N × String)} {id : N} {address : String}

/-! ## Lists of peers -/

/-- The address of a peer in the list that `updatePeers` gets. -/
def entry (peers : List (N × String)) (id : N) : Option String :=
  (peers.find? fun peer => peer.1 = id).map Prod.snd

theorem entry_cons (peer : N × String) :
    entry (peer :: peers) id = if peer.1 = id then some peer.2 else entry peers id := by
  unfold entry
  rw [List.find?_cons]
  split_ifs with h <;> simp [h]

theorem entry_eq_none_iff : entry peers id = none ↔ id ∉ peers.map Prod.fst := by
  simp only [entry, Option.map_eq_none_iff, List.find?_eq_none, decide_eq_true_eq, List.mem_map,
    not_exists, not_and]

theorem entry_eq_some_iff (hnodup : (peers.map Prod.fst).Nodup) :
    entry peers id = some address ↔ (id, address) ∈ peers := by
  induction peers with
  | nil => simp [entry]
  | cons peer peers ih =>
      obtain ⟨hnot, hrest⟩ := List.nodup_cons.1 hnodup
      rw [entry_cons, List.mem_cons, ← ih hrest]
      split_ifs with h
      · have hnone : entry peers id = none := entry_eq_none_iff.2 (h ▸ hnot)
        rw [hnone, Option.some.injEq, ← h]
        constructor
        · intro heq
          exact Or.inl (Prod.ext rfl heq.symm)
        · rintro (heq | heq)
          · exact (congrArg Prod.snd heq).symm
          · cases heq
      · constructor
        · exact Or.inr
        · rintro (heq | heq)
          · exact absurd (congrArg Prod.fst heq).symm h
          · exact heq

theorem addressOf_eq_some_iff (hnodup : (livePeers.map PeerState.id).Nodup) :
    addressOf livePeers id = some address ↔
      ∃ peer ∈ livePeers, peer.id = id ∧ peer.address = address := by
  have heq : addressOf livePeers id =
      entry (livePeers.map fun peer => (peer.id, peer.address)) id := by
    unfold addressOf entry
    rw [List.find?_map, Option.map_map]
    rfl
  have hids : (livePeers.map fun peer => (peer.id, peer.address)).map Prod.fst =
      livePeers.map PeerState.id := by
    rw [List.map_map]
    rfl
  rw [heq, entry_eq_some_iff (hids ▸ hnodup), List.mem_map]
  simp only [Prod.mk.injEq]

theorem mem_peerList (hnodup : (livePeers.map PeerState.id).Nodup) :
    (id, address) ∈ s.peerList livePeers ↔
      id ≠ s.nodeId ∧ address ≠ "" ∧ addressOf livePeers id = some address := by
  rw [addressOf_eq_some_iff hnodup, peerList, List.mem_map]
  simp only [List.mem_filter, decide_eq_true_eq, Prod.mk.injEq]
  constructor
  · rintro ⟨peer, ⟨hin, hid, haddress⟩, rfl, rfl⟩
    exact ⟨hid, haddress, peer, hin, rfl, rfl⟩
  · rintro ⟨hid, haddress, peer, hin, rfl, rfl⟩
    exact ⟨peer, ⟨hin, hid, haddress⟩, rfl, rfl⟩

theorem nodup_peerList (hnodup : (livePeers.map PeerState.id).Nodup) :
    ((s.peerList livePeers).map Prod.fst).Nodup := by
  rw [peerList, List.map_map]
  exact hnodup.sublist (List.filter_sublist.map _)

theorem entry_peerList (hnodup : (livePeers.map PeerState.id).Nodup) :
    entry (s.peerList livePeers) id = some address ↔
      id ≠ s.nodeId ∧ address ≠ "" ∧ addressOf livePeers id = some address := by
  rw [entry_eq_some_iff (nodup_peerList hnodup), mem_peerList hnodup]

/-! ## `updatePeers` -/

theorem peerAddresses_addPeer (s : Peers N) (peer : N × String) (id : N) :
    (s.addPeer peer).peerAddresses id =
      (s.peerAddresses id).or
        (if peer.1 = id ∧ id ≠ s.nodeId then parseAddress peer.2 else none) := by
  unfold addPeer
  by_cases hid : peer.1 = id
  · subst hid
    cases hknown : s.peerAddresses peer.1 with
    | some known => simp [hknown]
    | none =>
        by_cases hself : peer.1 = s.nodeId
        · simp [hself]
          rw [← hself, hknown]
        · cases hparse : parseAddress peer.2 <;> simp [hself, hknown]
  · rw [if_neg (fun h => hid h.1 : ¬ (peer.1 = id ∧ id ≠ s.nodeId)), Option.or_none]
    split_ifs
    · split
      · exact Function.update_of_ne (Ne.symm hid) _ _
      · rfl
    · rfl

/-- What `addPeer` leaves alone. -/
theorem addPeer_frame (s : Peers N) (peer : N × String) :
    (s.addPeer peer).nodeId = s.nodeId ∧
      (s.addPeer peer).dealerConnections = s.dealerConnections := by
  unfold addPeer
  split_ifs
  · split <;> exact ⟨rfl, rfl⟩
  · exact ⟨rfl, rfl⟩

theorem foldl_addPeer_frame (peers : List (N × String)) (s : Peers N) :
    (peers.foldl addPeer s).nodeId = s.nodeId ∧
      (peers.foldl addPeer s).dealerConnections = s.dealerConnections := by
  induction peers generalizing s with
  | nil => exact ⟨rfl, rfl⟩
  | cons peer peers ih =>
      have hpeer := addPeer_frame s peer
      exact ⟨(ih _).1.trans hpeer.1, (ih _).2.trans hpeer.2⟩

theorem peerAddresses_foldl_addPeer (hnodup : (peers.map Prod.fst).Nodup) (s : Peers N) (id : N) :
    (peers.foldl addPeer s).peerAddresses id =
      (s.peerAddresses id).or
        (if id = s.nodeId then none else (entry peers id).bind parseAddress) := by
  induction peers generalizing s with
  | nil => simp [entry]
  | cons peer peers ih =>
      obtain ⟨hnot, hrest⟩ := List.nodup_cons.1 hnodup
      rw [List.foldl_cons, ih hrest, peerAddresses_addPeer, (addPeer_frame s peer).1, entry_cons,
        Option.or_assoc]
      congr 1
      by_cases hself : id = s.nodeId
      · simp [hself]
      · by_cases hid : peer.1 = id
        · have hnone : entry peers id = none := entry_eq_none_iff.2 (hid ▸ hnot)
          simp [hself, hid, hnone]
        · simp [hself, hid]

theorem nodeId_updatePeers (s : Peers N) (peers : List (N × String)) :
    (s.updatePeers peers).nodeId = s.nodeId :=
  (foldl_addPeer_frame peers _).1

/-- Who is in the list stays, or comes if the address can be parsed. -/
theorem peerAddresses_updatePeers (hnodup : (peers.map Prod.fst).Nodup) (s : Peers N) (id : N) :
    (s.updatePeers peers).peerAddresses id =
      (entry peers id).bind fun address =>
        (s.peerAddresses id).or (if id = s.nodeId then none else parseAddress address) := by
  rw [updatePeers, peerAddresses_foldl_addPeer hnodup]
  cases hentry : entry peers id with
  | none =>
      have hnot := entry_eq_none_iff.1 hentry
      simp only [dropPeers, if_neg hnot, Option.bind_none, Option.none_or]
      exact ite_self none
  | some address =>
      have hin : id ∈ peers.map Prod.fst := by
        by_contra hnot
        rw [entry_eq_none_iff.2 hnot] at hentry
        cases hentry
      simp only [dropPeers, if_pos hin, Option.bind_some]
      rfl

theorem dealerConnections_updatePeers (s : Peers N) (peers : List (N × String)) (id : N) :
    (s.updatePeers peers).dealerConnections id =
      if entry peers id = none ∧ s.peerAddresses id ≠ none then none
      else s.dealerConnections id := by
  rw [updatePeers, (foldl_addPeer_frame peers _).2]
  simp only [entry_eq_none_iff]
  rfl

/-! ## The table of a transport -/

/-- Addresses in the table were parsed, the node is not in it, and connections are to peers
in it. -/
structure Sane (s : Peers N) : Prop where
  parsed : ∀ id known, s.peerAddresses id = some known → parseAddress known.rpc ≠ none
  self : s.peerAddresses s.nodeId = none
  connected : ∀ id, s.peerAddresses id = none → s.dealerConnections id = none

theorem rpc_of_parseAddress {known : PeerAddresses} (h : parseAddress address = some known) :
    known.rpc = address := by
  obtain ⟨m, -, rfl⟩ := Option.map_eq_some_iff.1 h
  rfl

theorem Sane.updatePeers (h : Sane s) (hnodup : (peers.map Prod.fst).Nodup) :
    Sane (s.updatePeers peers) where
  parsed := by
    intro id known hknown
    rw [peerAddresses_updatePeers hnodup] at hknown
    obtain ⟨address, -, hor⟩ := Option.bind_eq_some_iff.1 hknown
    obtain hold | ⟨-, hnew⟩ := Option.or_eq_some_iff.1 hor
    · exact h.parsed id known hold
    · split_ifs at hnew
      rw [rpc_of_parseAddress hnew, hnew]
      exact Option.some_ne_none known
  self := by
    rw [nodeId_updatePeers, peerAddresses_updatePeers hnodup, h.self]
    cases entry peers s.nodeId <;> simp
  connected := by
    intro id hnone
    rw [dealerConnections_updatePeers]
    split_ifs with hdropped
    · rfl
    · refine h.connected id ?_
      rw [peerAddresses_updatePeers hnodup] at hnone
      by_contra hknown
      cases hentry : entry peers id with
      | none => exact hdropped ⟨hentry, hknown⟩
      | some address =>
          rw [hentry, Option.bind_some, Option.or_eq_none_iff] at hnone
          exact hknown hnone.1

theorem Sane.syncPeers (h : Sane s) (hnodup : (livePeers.map PeerState.id).Nodup) :
    Sane (s.syncPeers livePeers) := by
  unfold Peers.syncPeers
  split_ifs
  · exact h.updatePeers (nodup_peerList hnodup)
  · exact h

theorem nodeId_syncPeers (s : Peers N) (livePeers : List (PeerState N)) :
    (s.syncPeers livePeers).nodeId = s.nodeId := by
  unfold Peers.syncPeers
  split_ifs
  · exact nodeId_updatePeers s _
  · rfl

/-- A table that can settle on an address holds it afterwards. -/
theorem settles_iff (hid : id ≠ s.nodeId) :
    s.Settles id address ↔
      ((s.peerAddresses id).or (if id = s.nodeId then none else parseAddress address)).map
        PeerAddresses.rpc = some address := by
  unfold Settles
  rw [if_neg hid]
  split
  next known hknown =>
    rw [hknown, Option.some_or, Option.map_some, Option.some.injEq]
  next hnone =>
    rw [hnone, Option.none_or]
    cases hparse : parseAddress address with
    | none => simp
    | some known => simp [rpc_of_parseAddress hparse]

omit [DecidableEq N] in
theorem ne_empty_of_settles (h : Sane s) (hsettles : s.Settles id address) : address ≠ "" := by
  rintro rfl
  have hparse : parseAddress "" = none := rfl
  unfold Settles at hsettles
  split at hsettles
  next known hknown =>
    have hparsed := h.parsed id known hknown
    rw [hsettles] at hparsed
    exact hparsed hparse
  next => exact hsettles hparse

/-- Who is live, but not in the list, has no address; somebody in the list is live. -/
theorem peerList_ne_nil_iff (hnodup : (livePeers.map PeerState.id).Nodup) :
    s.peerList livePeers ≠ [] ↔
      ∃ id address, id ≠ s.nodeId ∧ address ≠ "" ∧ addressOf livePeers id = some address := by
  constructor
  · intro hne
    obtain ⟨⟨id, address⟩, hin⟩ := List.exists_mem_of_ne_nil _ hne
    exact ⟨id, address, (mem_peerList hnodup).1 hin⟩
  · rintro ⟨id, address, hin⟩
    exact List.ne_nil_of_mem ((mem_peerList hnodup).2 hin)

/-- The full list puts a live peer into the table if it can settle there. -/
theorem rpc_updatePeers_iff (h : Sane s) (hnodup : (livePeers.map PeerState.id).Nodup)
    (hid : id ≠ s.nodeId) :
    ((s.updatePeers (s.peerList livePeers)).peerAddresses id).map PeerAddresses.rpc =
        addressOf livePeers id ↔
      ∀ address, addressOf livePeers id = some address → s.Settles id address := by
  rw [peerAddresses_updatePeers (nodup_peerList hnodup)]
  cases hlive : addressOf livePeers id with
  | none =>
      have hentry : entry (s.peerList livePeers) id = none := by
        refine Option.eq_none_iff_forall_not_mem.2 fun address hin => ?_
        have hsome := ((entry_peerList hnodup).1 hin).2.2
        rw [hlive] at hsome
        cases hsome
      rw [hentry]
      exact iff_of_true rfl nofun
  | some address =>
      by_cases hempty : address = ""
      · have hentry : entry (s.peerList livePeers) id = none := by
          refine Option.eq_none_iff_forall_not_mem.2 fun address' hin => ?_
          obtain ⟨-, hne, hsome⟩ := (entry_peerList hnodup).1 hin
          rw [hlive] at hsome
          cases hsome
          exact hne hempty
        rw [hentry]
        refine iff_of_false nofun fun hsettles => ?_
        exact ne_empty_of_settles h (hsettles address rfl) hempty
      · rw [(entry_peerList hnodup).2 ⟨hid, hempty, hlive⟩, Option.bind_some, ← settles_iff hid]
        constructor
        · intro hsettles address' heq
          cases heq
          exact hsettles
        · exact fun hsettles => hsettles address rfl

/-- `syncPeers` makes the table that of the live peers just when it can. -/
theorem tracks_syncPeers_iff (h : Sane s) (hnodup : (livePeers.map PeerState.id).Nodup) :
    (s.syncPeers livePeers).Tracks livePeers ↔ s.Syncs livePeers := by
  by_cases hlist : s.peerList livePeers = []
  · -- nothing is passed on
    have hsame : s.syncPeers livePeers = s := if_neg (not_not.2 hlist)
    have hnobody (id : N) (address : String) (hid : id ≠ s.nodeId) (hne : address ≠ "") :
        addressOf livePeers id ≠ some address := fun hlive =>
      (peerList_ne_nil_iff hnodup).2 ⟨id, address, hid, hne, hlive⟩ hlist
    rw [hsame]
    constructor
    · intro htracks
      refine ⟨fun id address hid hlive => ?_, fun hnone id => ?_⟩
      · have hrpc := htracks id
        rw [if_neg hid, hlive] at hrpc
        obtain ⟨known, hknown, hrpc⟩ := Option.map_eq_some_iff.1 hrpc
        unfold Settles
        rw [hknown]
        exact hrpc
      · by_cases hid : id = s.nodeId
        · rw [hid, h.self]
        · have hrpc := htracks id
          rw [if_neg hid, hnone id hid] at hrpc
          exact Option.map_eq_none_iff.1 hrpc
    · rintro ⟨hsettles, hempty⟩ id
      have hnone (id : N) (hid : id ≠ s.nodeId) : addressOf livePeers id = none := by
        by_contra hlive
        obtain ⟨address, hlive⟩ := Option.ne_none_iff_exists'.1 hlive
        exact hnobody id address hid (ne_empty_of_settles h (hsettles id address hid hlive)) hlive
      rw [hempty hnone id, Option.map_none]
      split_ifs with hid
      · rfl
      · exact (hnone id hid).symm
  · have hupdate : s.syncPeers livePeers = s.updatePeers (s.peerList livePeers) := if_pos hlist
    obtain ⟨id₀, address₀, hid₀, -, hlive₀⟩ := (peerList_ne_nil_iff hnodup).1 hlist
    have hsane : Sane (s.updatePeers (s.peerList livePeers)) :=
      h.updatePeers (nodup_peerList hnodup)
    rw [hupdate]
    constructor
    · intro htracks
      refine ⟨fun id address hid => ?_, fun hnone => ?_⟩
      · have hrpc := htracks id
        rw [nodeId_updatePeers, if_neg hid] at hrpc
        exact (rpc_updatePeers_iff h hnodup hid).1 hrpc address
      · rw [hnone id₀ hid₀] at hlive₀
        cases hlive₀
    · intro hsyncs id
      rw [nodeId_updatePeers]
      split_ifs with hid
      · have hself := hsane.self
        rw [nodeId_updatePeers] at hself
        rw [hid, hself, Option.map_none]
      · exact (rpc_updatePeers_iff h hnodup hid).2 fun address => hsyncs.1 id address hid

/-- A table that can be brought up to date loses no live peer. -/
theorem dealerConnections_syncPeers (h : Sane s) (hnodup : (livePeers.map PeerState.id).Nodup)
    (hsyncs : s.Syncs livePeers) (hlive : addressOf livePeers id ≠ none) :
    (s.syncPeers livePeers).dealerConnections id = s.dealerConnections id := by
  unfold Peers.syncPeers
  split_ifs with hlist
  · rw [dealerConnections_updatePeers]
    refine if_neg fun hdropped => hdropped.2 ?_
    by_cases hid : id = s.nodeId
    · rw [hid, h.self]
    · obtain ⟨address, hlive⟩ := Option.ne_none_iff_exists'.1 hlive
      have hne := ne_empty_of_settles h (hsyncs.1 id address hid hlive)
      rw [(entry_peerList hnodup).2 ⟨hid, hne, hlive⟩] at hdropped
      cases hdropped.1
  · rfl

/-! ## A member joins -/

theorem entry_singleton (peer : N × String) (id : N) :
    entry [peer] id = if peer.1 = id then some peer.2 else none := entry_cons peer

section

variable {joined : N}

/-- The list with the new member alone, where its address is not empty. -/
theorem onMemberJoin_eq (hlive : addressOf livePeers joined = some address)
    (hne : address ≠ "") :
    s.onMemberJoin livePeers joined = s.updatePeers [(joined, address)] := by
  obtain ⟨peer, hfind, rfl⟩ := Option.map_eq_some_iff.1 hlive
  unfold onMemberJoin
  rw [hfind]
  exact if_pos hne

/-- Without an address of the new member, its listener does nothing. -/
theorem onMemberJoin_of_empty (hlive : ∀ address, addressOf livePeers joined = some address →
    address = "") : s.onMemberJoin livePeers joined = s := by
  unfold onMemberJoin
  split
  next peer hfind =>
    exact if_neg (not_not.2 (hlive peer.address (congrArg (Option.map PeerState.address) hfind)))
  next => rfl

/-- After the first list nobody but the new member is in the table. -/
theorem peerAddresses_joined (s : Peers N) (joined : N) (address : String) (id : N) :
    (s.updatePeers [(joined, address)]).peerAddresses id =
      if joined = id then
        (s.peerAddresses id).or (if id = s.nodeId then none else parseAddress address)
      else none := by
  have hnodup : ([(joined, address)].map Prod.fst).Nodup := List.nodup_singleton joined
  rw [peerAddresses_updatePeers hnodup, entry_singleton]
  split_ifs <;> rfl

theorem settles_joined (hjoined : joined ≠ s.nodeId) :
    (s.updatePeers [(joined, address)]).Settles joined address ↔ s.Settles joined address := by
  have hself : joined ≠ (s.updatePeers [(joined, address)]).nodeId := by
    rwa [nodeId_updatePeers]
  rw [settles_iff hself, settles_iff hjoined, peerAddresses_joined, nodeId_updatePeers,
    if_pos rfl, Option.or_assoc, Option.or_self]

theorem settles_other (hother : id ≠ joined) {other : String} :
    (s.updatePeers [(joined, address)]).Settles id other ↔ parseAddress other ≠ none := by
  unfold Settles
  rw [peerAddresses_joined, if_neg (Ne.symm hother)]

/-- After the first list, the full one can bring the table up to date. -/
theorem syncs_joined_iff (hjoined : joined ≠ s.nodeId)
    (hlive : addressOf livePeers joined = some address) :
    (s.updatePeers [(joined, address)]).Syncs livePeers ↔
      s.Settles joined address ∧ ∀ id, id ≠ s.nodeId → id ≠ joined →
        ∀ other, addressOf livePeers id = some other → parseAddress other ≠ none := by
  unfold Syncs
  rw [nodeId_updatePeers]
  constructor
  · rintro ⟨hsettles, -⟩
    refine ⟨(settles_joined hjoined).1 (hsettles joined address hjoined hlive), ?_⟩
    intro id hid hother other hlive'
    exact (settles_other hother).1 (hsettles id other hid hlive')
  · rintro ⟨hsettles, hparse⟩
    refine ⟨fun id other hid hlive' => ?_, fun hnone => ?_⟩
    · by_cases hother : id = joined
      · subst hother
        cases hlive.symm.trans hlive'
        exact (settles_joined hjoined).2 hsettles
      · exact (settles_other hother).2 (hparse id hid hother other hlive')
    · rw [hnone joined hjoined] at hlive
      cases hlive

/-- The first list closes every connection but that to the new member. -/
theorem dealerConnections_joined (h : Sane s) (hother : id ≠ joined) :
    (s.updatePeers [(joined, address)]).dealerConnections id = none := by
  rw [dealerConnections_updatePeers, entry_singleton, if_neg (Ne.symm hother)]
  split_ifs with hknown
  · rfl
  · refine h.connected id ?_
    by_contra hne
    exact hknown ⟨rfl, hne⟩

end

/-- The connections to other live peers stay open. -/
def Keeps (livePeers : List (PeerState N)) (id : N) (s t : Peers N) : Prop :=
  ∀ other, other ≠ id → addressOf livePeers other ≠ none →
    ∀ address, s.dealerConnections other = some address →
      t.dealerConnections other = some address

theorem tracks_keeps_sync_iff (h : Sane s) (hnodup : (livePeers.map PeerState.id).Nodup) :
    (s.syncPeers livePeers).Tracks livePeers ∧ Keeps livePeers id s (s.syncPeers livePeers) ↔
      s.Syncs livePeers := by
  rw [tracks_syncPeers_iff h hnodup]
  refine ⟨And.left, fun hsyncs => ⟨hsyncs, fun other _ hlive address hopen => ?_⟩⟩
  rw [dealerConnections_syncPeers h hnodup hsyncs hlive, hopen]

theorem ready_join_none {peer : PeerState N} (hlive : addressOf livePeers peer.id = none) :
    s.Ready livePeers (.member_join peer) ↔ s.Syncs livePeers := by
  unfold Peers.Ready
  dsimp only
  rw [hlive]

theorem ready_join_some {peer : PeerState N}
    (hlive : addressOf livePeers peer.id = some address) :
    s.Ready livePeers (.member_join peer) ↔
      s.Settles peer.id address ∧ ∀ id, id ≠ s.nodeId → id ≠ peer.id →
        ∀ other, addressOf livePeers id = some other →
          parseAddress other ≠ none ∧ s.dealerConnections id = none := by
  unfold Peers.Ready
  dsimp only
  rw [hlive]

theorem tracks_keeps_join_iff (h : Sane s) (hnodup : (livePeers.map PeerState.id).Nodup)
    {peer : PeerState N} (hself : peer.id ≠ s.nodeId) :
    ((s.onMemberJoin livePeers peer.id).syncPeers livePeers).Tracks livePeers ∧
        Keeps livePeers peer.id s
          ((s.onMemberJoin livePeers peer.id).syncPeers livePeers) ↔
      s.Ready livePeers (.member_join peer) := by
  cases hlive : addressOf livePeers peer.id with
  | none =>
      have hnone (address : String) (hsome : addressOf livePeers peer.id = some address) :
          address = "" := by
        rw [hlive] at hsome
        cases hsome
      rw [ready_join_none hlive, onMemberJoin_of_empty hnone]
      exact tracks_keeps_sync_iff h hnodup
  | some address =>
      rw [ready_join_some hlive]
      by_cases hempty : address = ""
      · have hnone (address' : String) (hsome : addressOf livePeers peer.id = some address') :
            address' = "" := by
          rw [hlive] at hsome
          cases hsome
          exact hempty
        rw [onMemberJoin_of_empty hnone, tracks_keeps_sync_iff h hnodup]
        refine iff_of_false (fun hsyncs => ?_) fun hready => ?_
        · exact ne_empty_of_settles h (hsyncs.1 _ address hself hlive) hempty
        · exact ne_empty_of_settles h hready.1 hempty
      · have hjoined : Sane (s.updatePeers [(peer.id, address)]) :=
          h.updatePeers (List.nodup_singleton _)
        rw [onMemberJoin_eq hlive hempty, tracks_syncPeers_iff hjoined hnodup]
        constructor
        · rintro ⟨hsyncs, hkeeps⟩
          obtain ⟨hsettles, hparse⟩ := (syncs_joined_iff hself hlive).1 hsyncs
          refine ⟨hsettles, fun id hid hother other hlive' =>
            ⟨hparse id hid hother other hlive', ?_⟩⟩
          by_contra hopen
          obtain ⟨address', hopen⟩ := Option.ne_none_iff_exists'.1 hopen
          have hlive'' : addressOf livePeers id ≠ none := by
            rw [hlive']
            exact Option.some_ne_none other
          have hkept := hkeeps id hother hlive'' address' hopen
          rw [dealerConnections_syncPeers hjoined hnodup hsyncs hlive'',
            dealerConnections_joined h hother] at hkept
          cases hkept
        · rintro ⟨hsettles, hothers⟩
          have hsyncs := (syncs_joined_iff hself hlive).2 ⟨hsettles,
            fun id hid hother other hlive' => (hothers id hid hother other hlive').1⟩
          refine ⟨hsyncs, fun id hother hlive' address' hopen => ?_⟩
          have hclosed : s.dealerConnections id = none := by
            by_cases hid : id = s.nodeId
            · exact h.connected id (hid ▸ h.self)
            · obtain ⟨other, hother'⟩ := Option.ne_none_iff_exists'.1 hlive'
              exact (hothers id hid hother other hother').2
          rw [hclosed] at hopen
          cases hopen

/-! ## Events of the gossip protocol -/

variable {p : GossipProtocol N} {now : Nat}

theorem find_failPeer (p : GossipProtocol N) (now : Nat) (id x : N) :
    (p.failPeer now id).find x =
      if x = id ∧ (p.find id).any (fun peer => p.failed now ⟨id, peer⟩) then none
      else p.find x := by
  unfold GossipProtocol.failPeer
  cases hfind : p.find id with
  | none => simp
  | some peer =>
      dsimp only
      rw [Option.any_some]
      by_cases hfailed : p.failed now ⟨id, peer⟩ = true
      · rw [if_pos hfailed]
        change (p.peers.erase id).lookup x = _
        by_cases hx : x = id
        · rw [if_pos ⟨hx, hfailed⟩, hx]
          exact AList.lookup_erase id p.peers
        · rw [if_neg fun h => hx h.1]
          exact AList.lookup_erase_ne hx
      · rw [if_neg hfailed, if_neg fun h => hfailed h.2]

theorem self_failPeer (p : GossipProtocol N) (now : Nat) (id : N) :
    (p.failPeer now id).self = p.self ∧ (p.failPeer now id).options = p.options := by
  unfold GossipProtocol.failPeer
  split
  · exact ⟨rfl, rfl⟩
  · split_ifs <;> exact ⟨rfl, rfl⟩

theorem keyed_failPeer (h : Keyed p) (now : Nat) (id : N) : Keyed (p.failPeer now id) := by
  refine ⟨fun x e he => ?_, ?_⟩
  · rw [find_failPeer] at he
    split_ifs at he
    exact h.id x e he
  · obtain ⟨own, hown⟩ := h.own
    rw [(self_failPeer p now id).1, find_failPeer]
    refine ⟨own, ?_⟩
    rw [if_neg, hown]
    -- the own entry does not fail
    rintro ⟨rfl, hfailed⟩
    rw [hown, Option.any_some] at hfailed
    simp [GossipProtocol.failed] at hfailed

theorem log_failPeer (p : GossipProtocol N) (now : Nat) (id : N) :
    (p.failPeer now id).log = p.log ∨
      ∃ peer, p.find id = some peer ∧
        (p.failPeer now id).log = p.log ++ [.removed peer, .member_leave peer] := by
  unfold GossipProtocol.failPeer
  split
  next => exact Or.inl rfl
  next peer hfind =>
    split_ifs
    · refine Or.inr ⟨peer, hfind, ?_⟩
      exact List.append_assoc p.log [_] [_]
    · exact Or.inl rfl

theorem nodup_getLivePeers (h : Keyed p) (now : Nat) :
    ((p.getLivePeers now).map PeerState.id).Nodup := by
  have hkeys : p.getAllKnownPeers.map PeerState.id = p.peers.keys := by
    unfold GossipProtocol.getAllKnownPeers
    rw [List.map_map, AList.keys, List.keys]
    refine List.map_congr_left fun entry hentry => ?_
    exact h.id entry.1 entry.2 (AList.mem_lookup_iff.2 hentry)
  have hnodup : (p.getAllKnownPeers.map PeerState.id).Nodup := hkeys ▸ p.peers.nodupKeys
  exact hnodup.sublist (List.filter_sublist.map PeerState.id)

theorem addressOf_getLivePeers (h : Keyed p) (now : Nat) (x : N) :
    addressOf (p.getLivePeers now) x =
      ((p.find x).filter (p.isLive now)).map PeerState.address := by
  ext address
  rw [addressOf_eq_some_iff (nodup_getLivePeers h now), Option.map_eq_some_iff]
  constructor
  · rintro ⟨peer, hin, rfl, rfl⟩
    obtain ⟨hknown, hlive⟩ := List.mem_filter.1 hin
    obtain ⟨y, hy⟩ := mem_getAllKnownPeers.1 hknown
    refine ⟨peer, ?_, rfl⟩
    rw [h.id y peer hy, hy]
    exact Option.filter_eq_some_iff.2 ⟨rfl, hlive⟩
  · rintro ⟨peer, hfilter, rfl⟩
    obtain ⟨hfind, hlive⟩ := Option.filter_eq_some_iff.1 hfilter
    exact ⟨peer, List.mem_filter.2 ⟨mem_getAllKnownPeers.2 ⟨x, hfind⟩, hlive⟩,
      h.id x peer hfind, rfl⟩

/-- Who is known as before is live as before. -/
theorem addressOf_congr {q : GossipProtocol N} (hp : Keyed p) (hq : Keyed q)
    (hself : q.self.id = p.self.id) (hoptions : q.options = p.options) {x : N}
    (hfind : q.find x = p.find x) :
    addressOf (q.getLivePeers now) x = addressOf (p.getLivePeers now) x := by
  have hlive : q.isLive now = p.isLive now := by
    funext peer
    unfold GossipProtocol.isLive
    rw [hself, hoptions]
  rw [addressOf_getLivePeers hq, addressOf_getLivePeers hp, hfind, hlive]

/-! ## Steps -/

variable {t t' : PeerTracking N}

/-- What a node keeps about its members and its peers. -/
structure Sound (t : PeerTracking N) : Prop where
  keyed : Keyed t.gossip
  sane : Sane t.transport
  self : t.transport.nodeId = t.gossip.self.id

/-- The events of one change, all about one member. -/
inductive Events (p : GossipProtocol N) (id : N) : List (GossipEvent N) → Prop where
  | none : Events p id []
  | updates (peer : PeerState N) : Events p id [.member_update peer]
  | joins (peer : PeerState N) (about : peer.id = id) (other : id ≠ p.self.id) :
      Events p id [.member_join peer]
  | leaves (peer : PeerState N) (about : peer.id = id) : Events p id [.member_leave peer]
  | fails (peer : PeerState N) (about : peer.id = id) :
      Events p id [.removed peer, .member_leave peer]

/-- What a change does to the protocol. -/
structure Changes (p q : GossipProtocol N) (id : N) (events : List (GossipEvent N)) : Prop where
  keyed : Keyed q
  self : q.self.id = p.self.id
  others : ∀ now x, x ≠ id →
    addressOf (q.getLivePeers now) x = addressOf (p.getLivePeers now) x
  log : q.log = p.log ++ events
  events : Events p id events

theorem changes_refresh {q : GossipProtocol N} (h : Keyed p) (hself : q.self.id = p.self.id)
    (hoptions : q.options = p.options) (hlog : q.log = p.log)
    (hfind : ∀ x, q.find x = if x = p.self.id then some q.self else p.find x) :
    Changes p q p.self.id [] where
  keyed := h.refresh hself hfind
  self := hself
  others _ x hx := addressOf_congr h (h.refresh hself hfind) hself hoptions
    ((hfind x).trans (if_neg hx))
  log := hlog.trans (List.append_nil _).symm
  events := .none

/-- Each change concerns one member, with at most one event about it. -/
theorem changes_change (h : Keyed p) (now : Nat) (a : GossipChange N) :
    ∃ id events, Changes p (PeerTracking.change p now a) id events := by
  cases a with
  | mergePeer e =>
      have hsame := sameSelf_mergePeer now p e
      refine ⟨e.id, announced (p.find e.id) e, h.mergePeer now e, congrArg PeerState.id hsame.self,
        fun now' x hx => ?_, log_mergePeer now p e, ?_⟩
      · exact addressOf_congr h (h.mergePeer now e) (congrArg PeerState.id hsame.self) hsame.options
          ((find_mergePeer now p e x).trans (if_neg hx))
      · unfold announced
        split
        next hnew =>
          split_ifs
          · exact .none
          · refine .joins e rfl fun hself => ?_
            obtain ⟨own, hown⟩ := h.own
            rw [← hself, hnew] at hown
            cases hown
        next =>
          split_ifs
          · exact .leaves e rfl
          · exact .updates e
          · exact .none
  | failPeer id =>
      have hkeyed := keyed_failPeer h now id
      obtain ⟨hself, hoptions⟩ := self_failPeer p now id
      have hothers (now' : Nat) (x : N) (hx : x ≠ id) :
          addressOf ((p.failPeer now id).getLivePeers now') x =
            addressOf (p.getLivePeers now') x :=
        addressOf_congr h hkeyed (congrArg PeerState.id hself) hoptions
          ((find_failPeer p now id x).trans (if_neg fun hfailed => hx hfailed.1))
      obtain hlog | ⟨peer, hfind, hlog⟩ := log_failPeer p now id
      · exact ⟨id, [], hkeyed, congrArg PeerState.id hself, hothers,
          hlog.trans (List.append_nil _).symm, .none⟩
      · exact ⟨id, _, hkeyed, congrArg PeerState.id hself, hothers, hlog,
          .fails peer (h.id id peer hfind)⟩
  | gossipLoop => exact ⟨_, _, changes_refresh h rfl rfl rfl fun x => find_beat p now x⟩
  | leave =>
      cases hstays : p.isLeaving with
      | true =>
          refine ⟨p.self.id, [], ?_⟩
          change Changes p (p.leave now) _ _
          rw [leave_of_leaving hstays]
          exact ⟨h, rfl, fun _ _ _ => rfl, (List.append_nil _).symm, .none⟩
      | false =>
          have hoptions : (p.leave now).options = p.options := by
            unfold GossipProtocol.leave
            split_ifs <;> rfl
          exact ⟨_, _, changes_refresh h (self_leave now).1 hoptions (self_leave now).2
            fun x => find_leave hstays now x⟩

theorem emitted_eq {q : GossipProtocol N} {id : N} {events : List (GossipEvent N)}
    (h : Changes t.gossip q id events) : t.emitted q = events := by
  rw [PeerTracking.emitted, h.log]
  exact List.drop_left

/-- At one event, the transport follows just when it is ready. -/
theorem followed_iff (h : Sound t) {q : GossipProtocol N} {id : N}
    {events : List (GossipEvent N)} (hchanges : Changes t.gossip q id events) (now : Nat) :
    (∀ event ∈ events, ∀ id', memberOf event = some id' →
        (t.advance q now).transport.Tracks (q.getLivePeers now) ∧
          ∀ other, other ≠ id' → addressOf (t.gossip.getLivePeers now) other ≠ none →
            addressOf (q.getLivePeers now) other ≠ none →
              ∀ address, t.transport.dealerConnections other = some address →
                (t.advance q now).transport.dealerConnections other = some address) ↔
      ∀ event ∈ events, t.transport.Ready (q.getLivePeers now) event := by
  have hnodup := nodup_getLivePeers hchanges.keyed now
  have htransport : (t.advance q now).transport =
      events.foldl (Peers.listen (q.getLivePeers now)) t.transport := by
    rw [PeerTracking.advance, emitted_eq hchanges]
  -- another peer was live before if it is now
  have hkeeps (s : Peers N) : (∀ other, other ≠ id →
      addressOf (t.gossip.getLivePeers now) other ≠ none →
        addressOf (q.getLivePeers now) other ≠ none →
          ∀ address, t.transport.dealerConnections other = some address →
            s.dealerConnections other = some address) ↔
      Keeps (q.getLivePeers now) id t.transport s := by
    refine forall_congr' fun other => forall_congr' fun hother => ?_
    rw [hchanges.others now other hother]
    exact ⟨fun hboth hlive => hboth hlive hlive, fun hone hlive _ => hone hlive⟩
  rw [htransport]
  cases hchanges.events with
  | none => simp
  | updates peer => simp [memberOf, Peers.Ready]
  | joins peer about other =>
      subst about
      simp only [List.mem_singleton, forall_eq, memberOf, Option.some.injEq, forall_eq',
        List.foldl_cons, List.foldl_nil, Peers.listen]
      rw [hkeeps]
      exact tracks_keeps_join_iff h.sane hnodup (h.self ▸ other)
  | leaves peer about =>
      subst about
      simp only [List.mem_singleton, forall_eq, memberOf, Option.some.injEq, forall_eq',
        List.foldl_cons, List.foldl_nil, Peers.listen]
      rw [hkeeps]
      exact tracks_keeps_sync_iff h.sane hnodup
  | fails peer about =>
      subst about
      simp only [List.mem_cons, List.not_mem_nil, or_false, forall_eq_or_imp, forall_eq, memberOf,
        Option.some.injEq, forall_eq', List.foldl_cons, List.foldl_nil, Peers.listen, reduceCtorEq,
        false_implies, implies_true, true_and, Peers.Ready]
      rw [hkeeps]
      exact tracks_keeps_sync_iff h.sane hnodup

theorem follows_iff (h : Sound t) (a : TrackingAction N) : t.Follows a ↔ t.Ready a := by
  cases a with
  | gossip a now =>
      obtain ⟨id, events, hchanges⟩ := changes_change h.keyed now a
      unfold PeerTracking.Follows PeerTracking.Ready
      dsimp only
      rw [emitted_eq hchanges]
      exact followed_iff h hchanges now
  | getOrCreateConnection id => exact Iff.rfl
  | rotateCurveKeys => exact Iff.rfl

/-- The listeners keep the table in shape. -/
theorem sane_listen (h : Sane s) (hnodup : (livePeers.map PeerState.id).Nodup)
    (event : GossipEvent N) :
    Sane (Peers.listen livePeers s event) ∧ (Peers.listen livePeers s event).nodeId = s.nodeId := by
  have hsync {s : Peers N} (h : Sane s) :
      Sane (s.syncPeers livePeers) ∧ (s.syncPeers livePeers).nodeId = s.nodeId :=
    ⟨h.syncPeers hnodup, nodeId_syncPeers s livePeers⟩
  cases event with
  | member_join peer =>
      have hjoin : Sane (s.onMemberJoin livePeers peer.id) ∧
          (s.onMemberJoin livePeers peer.id).nodeId = s.nodeId := by
        unfold onMemberJoin
        split
        · split_ifs
          · exact ⟨h.updatePeers (List.nodup_singleton _), nodeId_updatePeers s _⟩
          · exact ⟨h, rfl⟩
        · exact ⟨h, rfl⟩
      exact ⟨(hsync hjoin.1).1, (hsync hjoin.1).2.trans hjoin.2⟩
  | member_leave peer => exact hsync h
  | member_update peer | removed peer => exact ⟨h, rfl⟩

theorem sane_getOrCreateConnection (h : Sane s) (id : N) : Sane (s.getOrCreateConnection id) := by
  unfold getOrCreateConnection
  split
  next addresses _ hknown =>
    refine ⟨h.parsed, h.self, fun id' hnone => ?_⟩
    dsimp only
    rw [Function.update_apply]
    split_ifs with hid
    · rw [hid, hknown] at hnone
      cases hnone
    · exact h.connected id' hnone
  next => exact h

theorem nodeId_getOrCreateConnection (s : Peers N) (id : N) :
    (s.getOrCreateConnection id).nodeId = s.nodeId := by
  unfold getOrCreateConnection
  split <;> rfl

theorem Sound.step (h : Sound t) {a : TrackingAction N} (hst : t.step a = some t') :
    Sound t' := by
  cases a with
  | gossip a now =>
      cases hst
      obtain ⟨id, events, hchanges⟩ := changes_change h.keyed now a
      have hnodup := nodup_getLivePeers hchanges.keyed now
      have hlisten (events : List (GossipEvent N)) {s : Peers N} (hs : Sane s) :
          Sane (events.foldl (Peers.listen ((PeerTracking.change t.gossip now a).getLivePeers now))
            s) ∧
          (events.foldl (Peers.listen ((PeerTracking.change t.gossip now a).getLivePeers now))
            s).nodeId = s.nodeId := by
        induction events generalizing s with
        | nil => exact ⟨hs, rfl⟩
        | cons event events ih =>
            obtain ⟨hsane, hnode⟩ := sane_listen hs hnodup event
            exact ⟨(ih hsane).1, (ih hsane).2.trans hnode⟩
      obtain ⟨hsane, hnode⟩ := hlisten (t.emitted (PeerTracking.change t.gossip now a)) h.sane
      exact ⟨hchanges.keyed, hsane, hnode.trans (h.self.trans hchanges.self.symm)⟩
  | getOrCreateConnection id =>
      cases hst
      exact ⟨h.keyed, sane_getOrCreateConnection h.sane id,
        (nodeId_getOrCreateConnection t.transport id).trans h.self⟩
  | rotateCurveKeys =>
      cases hst
      exact ⟨h.keyed, ⟨h.sane.parsed, h.sane.self, fun _ _ => rfl⟩, h.self⟩

section

variable (nodeId : N) (rpcAddress gossipAddress : String) (options : GossipOptions)

theorem sound_start (now : Nat) :
    Sound (.start nodeId rpcAddress gossipAddress options now) where
  keyed := keyed_new nodeId rpcAddress gossipAddress options
  sane := ⟨nofun, rfl, fun _ _ => rfl⟩
  self := rfl

/-- Along a run, the table is that of the live peers after every event, and no event closes a
connection to a peer that it is not about, if and only if the transport is ready for every
event. -/
theorem follows_iff_ready (now : Nat) (actions : List (TrackingAction N)) :
    Along PeerTracking.step PeerTracking.Follows
        (.start nodeId rpcAddress gossipAddress options now) actions ↔
      Along PeerTracking.step PeerTracking.Ready
        (.start nodeId rpcAddress gossipAddress options now) actions := by
  have hstart := sound_start nodeId rpcAddress gossipAddress options now
  constructor
  · exact along_of_invariant (fun _ _ _ h _ hst => h.step hst)
      (fun _ a h => (follows_iff h a).1) hstart
  · exact along_of_invariant (fun _ _ _ h _ hst => h.step hst)
      (fun _ a h => (follows_iff h a).2) hstart

end

/-! ## Runs in which it does not follow -/

def alpha : PeerTracking Nat := .start 0 "tcp://a:4000" "a:6000" ⟨1000, 3, []⟩ 9

def beta : PeerState Nat := ⟨1, "tcp://b:4000", 4, 10, "b:6000", 0, some .alive⟩

def gamma : PeerState Nat := ⟨2, "tcp://c:4000", 4, 10, "c:6000", 0, some .alive⟩

/-- A second peer joins, and the connection to the first one is closed. -/
theorem join_closes_connection :
    ∃ t t', run PeerTracking.step alpha
        [.gossip (.mergePeer beta) 10, .getOrCreateConnection 1] = some t ∧
      t.transport.dealerConnections 1 = some "tcp://b:4000" ∧
      t.step (.gossip (.mergePeer gamma) 20) = some t' ∧
      addressOf (t.gossip.getLivePeers 20) 1 = some "tcp://b:4000" ∧
      addressOf (t'.gossip.getLivePeers 20) 1 = some "tcp://b:4000" ∧
      t'.transport.dealerConnections 1 = none ∧
      ¬ t.Follows (.gossip (.mergePeer gamma) 20) := by
  have hrun : ∃ t t', run PeerTracking.step alpha
        [.gossip (.mergePeer beta) 10, .getOrCreateConnection 1] = some t ∧
      t.transport.dealerConnections 1 = some "tcp://b:4000" ∧
      t.step (.gossip (.mergePeer gamma) 20) = some t' ∧
      addressOf (t.gossip.getLivePeers 20) 1 = some "tcp://b:4000" ∧
      addressOf (t'.gossip.getLivePeers 20) 1 = some "tcp://b:4000" ∧
      t'.transport.dealerConnections 1 = none ∧
      GossipEvent.member_join gamma ∈
        t.emitted (PeerTracking.change t.gossip 20 (.mergePeer gamma)) :=
    ⟨_, _, rfl, rfl, rfl, rfl, rfl, rfl, by decide⟩
  obtain ⟨t, t', hrun, hopen, hst, hbefore, hafter, hclosed, hevent⟩ := hrun
  refine ⟨t, t', hrun, hopen, hst, hbefore, hafter, hclosed, fun hfollows => ?_⟩
  cases hst
  have hkept := (hfollows _ hevent 2 rfl).2 1 (by decide) (by rw [hbefore]; exact nofun)
    (by rw [PeerTracking.advance] at hafter; rw [hafter]; exact nofun) _ hopen
  rw [hclosed] at hkept
  cases hkept

end Libeam.Proofs.PeerTable
