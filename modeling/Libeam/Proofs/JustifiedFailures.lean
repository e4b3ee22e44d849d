import Libeam.Monitoring.Heartbeat
/-!
# When a reported failure is justified

As long as each ping acts on the record that it was made for, the count of a tracked record is the
number of its pings missed in a row.
-/

namespace Libeam.Monitoring

open Lib

variable {N : Type} {log : List (HeartbeatEvent N)}

/-! ## The log -/

theorem missedSince_append_missed (record r : Nat) : missedSince record (log ++ [.missed r]) =
    if r = record then missedSince record log + 1 else missedSince record log := by
  rw [missedSince, List.foldl_append]
  rfl

theorem missedSince_append_pong (record r : Nat) : missedSince record (log ++ [.pong r]) =
    if r = record then 0 else missedSince record log := by
  rw [missedSince, List.foldl_append]
  rfl

theorem missedSince_append_entered (record r t : Nat) :
    missedSince record (log ++ [.entered r t]) = missedSince record log := by
  rw [missedSince, List.foldl_append]
  rfl

theorem missedSince_append_removed (record r t : Nat) :
    missedSince record (log ++ [.removed r t]) = missedSince record log := by
  rw [missedSince, List.foldl_append]
  rfl

theorem missedSince_append_node_failed (record : Nat) (node : N) (tracked : Option Nat) :
    missedSince record (log ++ [.node_failed node tracked]) = missedSince record log := by
  rw [missedSince, List.foldl_append]
  rfl

namespace HeartbeatManager

variable {m : HeartbeatManager N} {record : Nat} {state : PeerHeartbeatState N} {now : Nat}

theorem records_modifyRecord (m : HeartbeatManager N) (record r : Nat)
    (f : PeerHeartbeatState N → PeerHeartbeatState N) :
    (m.modifyRecord record f).records[r]? =
      if record = r then m.records[r]?.map f else m.records[r]? := by
  rw [modifyRecord, List.getElem?_modify]
  split
  · rfl
  · cases m.records[r]? <;> rfl

variable [DecidableEq N]

/-- The table of peers has records of theirs with the right counts, and everything so far is
justified. -/
structure Good (m : HeartbeatManager N) : Prop where
  counted : ∀ node record, m.peerStates.get node = some record →
    ∃ state, m.records[record]? = some state ∧ state.nodeId = node ∧
      state.missedCount = missedSince record m.log
  fresh : ∀ record, m.records.length ≤ record → missedSince record m.log = 0
  justified : Justified m

/-- A ping acts on the table of peers only when the record in it is its own. -/
def ActsOnOwn (m : HeartbeatManager N) : HeartbeatAction N → Prop
  | .timer timer => ∀ state, m.records[timer.2]? = some state → m.isRunning = true →
      state.isLeaving = false → state.pendingPing = true →
      m.config.maxMissedHeartbeats ≤ state.missedCount + 1 →
      m.peerStates.get state.nodeId = some timer.2
  | .reply record isPong _ => isPong = true → ∀ state, m.records[record]? = some state →
      m.peerStates.get state.nodeId = none ∨ m.peerStates.get state.nodeId = some record
  | _ => True

namespace Good

/-- Changing what is neither the peer nor the count of a record. -/
theorem modifyRecord (h : Good m) (record : Nat)
    {f : PeerHeartbeatState N → PeerHeartbeatState N} (hnode : ∀ s, (f s).nodeId = s.nodeId)
    (hcount : ∀ s, (f s).missedCount = s.missedCount) : Good (m.modifyRecord record f) where
  counted node r hr := by
    obtain ⟨state, hstate, hn, hc⟩ := h.counted node r hr
    rw [records_modifyRecord, hstate]
    split
    · exact ⟨f state, rfl, (hnode state).trans hn, (hcount state).trans hc⟩
    · exact ⟨state, rfl, hn, hc⟩
  fresh r hr := h.fresh r (by rwa [HeartbeatManager.modifyRecord, List.length_modify] at hr)
  justified := h.justified

theorem removePeer (h : Good m) (nodeId : N) : Good (m.removePeer nodeId) :=
  { h with
    counted := fun node r hr => by
      rw [HeartbeatManager.removePeer, OrderedMap.get_delete] at hr
      split at hr
      · cases hr
      · exact h.counted node r hr }

theorem addPeer (h : Good m) (nodeId : N) (now : Nat) : Good (m.addPeer nodeId now) := by
  rw [HeartbeatManager.addPeer]
  split
  · exact h
  · refine { h with counted := fun node r hr => ?_, fresh := fun r hr => h.fresh r ?_ }
    · change OrderedMap.get (m.peerStates.set nodeId m.records.length) node = some r at hr
      rw [OrderedMap.get_set] at hr
      split at hr
      · cases hr
        refine ⟨_, List.getElem?_concat_length, (‹node = nodeId› : node = nodeId).symm, ?_⟩
        exact (h.fresh m.records.length (Nat.le_refl _)).symm
      · obtain ⟨state, hstate, hn, hc⟩ := h.counted node r hr
        have hlt := (List.getElem?_eq_some_iff.1 hstate).1
        exact ⟨state, by rw [List.getElem?_append_left hlt, hstate], hn, hc⟩
    · rw [List.length_append] at hr
      omega

/-- Events that concern no count, each justified. -/
theorem logEvent {event : HeartbeatEvent N} (h : Good m)
    (hcount : ∀ r, missedSince r (m.log ++ [event]) = missedSince r m.log)
    (hevent : EventJustified m.config.maxMissedHeartbeats m.log event) :
    Good (m.logEvent event) where
  counted node r hr := by
    obtain ⟨state, hstate, hn, hc⟩ := h.counted node r hr
    exact ⟨state, hstate, hn, hc.trans (hcount r).symm⟩
  fresh r hr := (hcount r).trans (h.fresh r hr)
  justified := each_snoc_iff.2 ⟨h.justified, hevent⟩

/-- A ping of the record has been missed. -/
theorem missed (h : Good m) (hstate : m.records[record]? = some state) :
    Good ((m.modifyRecord record fun s => { s with missedCount := s.missedCount + 1 }).logEvent
      (.missed record)) where
  counted node r hr := by
    obtain ⟨s, hs, hn, hc⟩ := h.counted node r hr
    refine ⟨{ s with missedCount := if record = r then s.missedCount + 1 else s.missedCount },
      ?_, hn, ?_⟩
    · change ((m.modifyRecord record _).records)[r]? = _
      rw [records_modifyRecord, hs]
      split <;> rfl
    · change _ = missedSince r (m.log ++ [HeartbeatEvent.missed record])
      rw [missedSince_append_missed, hc]
  fresh r hr := by
    change missedSince r (m.log ++ [HeartbeatEvent.missed record]) = 0
    have hle : m.records.length ≤ r := by
      change (m.records.modify _ _).length ≤ r at hr
      rwa [List.length_modify] at hr
    have hlt := (List.getElem?_eq_some_iff.1 hstate).1
    rw [missedSince_append_missed, if_neg (by omega)]
    exact h.fresh r hle
  justified := each_snoc_iff.2 ⟨h.justified, trivial⟩

theorem sendPing (h : Good m) (record : Nat) : Good (m.sendPing record) :=
  { h.modifyRecord record (f := fun s => { s with pendingPing := true }) (fun _ => rfl)
      fun _ => rfl with }

/-- A failure of the tracked record, after enough misses. -/
theorem failPeer (h : Good m) {nodeId : N} (htracked : m.peerStates.get nodeId = some record)
    (hmissed : m.config.maxMissedHeartbeats ≤ missedSince record m.log) :
    Good (m.failPeer record nodeId) := by
  rw [HeartbeatManager.failPeer, htracked]
  refine ((h.removePeer nodeId).logEvent (fun r => missedSince_append_removed r record record)
    rfl).logEvent (fun r => missedSince_append_node_failed r nodeId _) ⟨record, rfl, ?_⟩
  change _ ≤ missedSince record (m.log ++ [HeartbeatEvent.removed record record])
  rwa [missedSince_append_removed]

/-- A ping that would fail its peer is one for the tracked record. -/
theorem pingPeer (h : Good m) (hown : ∀ state, m.records[record]? = some state →
    m.isRunning = true → state.isLeaving = false → state.pendingPing = true →
    m.config.maxMissedHeartbeats ≤ state.missedCount + 1 →
    m.peerStates.get state.nodeId = some record) : Good (m.pingPeer record) := by
  rw [HeartbeatManager.pingPeer]
  split
  · exact h
  · rename_i state hstate
    split_ifs with hidle hpending hmax
    · exact h
    · have htracked := hown state hstate (by simpa using fun hr => hidle (Or.inl hr))
        (by simpa using fun hl => hidle (Or.inr hl)) hpending hmax
      obtain ⟨s, hs, -, hcount⟩ := h.counted _ _ htracked
      cases hstate.symm.trans hs
      refine (h.missed hstate).failPeer htracked ?_
      change _ ≤ missedSince record (m.log ++ [HeartbeatEvent.missed record])
      rwa [missedSince_append_missed, if_pos rfl, ← hcount]
    · exact (h.missed hstate).sendPing record
    · exact h.sendPing record

theorem pong_untracked (h : Good m) (hnot : ∀ node, m.peerStates.get node ≠ some record) :
    Good (m.logEvent (.pong record)) where
  counted node r hr := by
    obtain ⟨state, hstate, hn, hc⟩ := h.counted node r hr
    refine ⟨state, hstate, hn, ?_⟩
    change _ = missedSince r (m.log ++ [HeartbeatEvent.pong record])
    rw [missedSince_append_pong, if_neg, hc]
    rintro rfl
    exact hnot node hr
  fresh r hr := by
    change missedSince r (m.log ++ [HeartbeatEvent.pong record]) = 0
    rw [missedSince_append_pong, h.fresh r hr, ite_self]
  justified := each_snoc_iff.2 ⟨h.justified, trivial⟩

theorem pong_tracked (h : Good m) (now : Nat) :
    Good (((m.logEvent (.pong record)).modifyRecord record fun s =>
      { s with pendingPing := false, missedCount := 0, lastPongTime := now }).logEvent
      (.entered record record)) := by
  have hpong : Good ((m.logEvent (.pong record)).modifyRecord record fun s =>
      { s with pendingPing := false, missedCount := 0, lastPongTime := now }) := by
    refine ⟨fun node r hr => ?_, fun r hr => ?_, each_snoc_iff.2 ⟨h.justified, trivial⟩⟩
    · obtain ⟨state, hstate, hn, hc⟩ := h.counted node r hr
      rw [records_modifyRecord]
      change ∃ s, (if record = r then (m.records[r]?).map _ else m.records[r]?) = some s ∧
        s.nodeId = node ∧ s.missedCount = missedSince r (m.log ++ [HeartbeatEvent.pong record])
      rw [hstate, missedSince_append_pong]
      split
      · exact ⟨_, rfl, hn, rfl⟩
      · exact ⟨state, rfl, hn, hc⟩
    · change missedSince r (m.log ++ [HeartbeatEvent.pong record]) = 0
      rw [missedSince_append_pong, h.fresh r, ite_self]
      rwa [HeartbeatManager.modifyRecord, List.length_modify] at hr
  exact hpong.logEvent (fun r => missedSince_append_entered r record record) rfl

/-- A pong is entered in the record it is for, or nowhere. -/
theorem handlePong (h : Good m) {isPong : Bool} (hown : isPong = true →
    ∀ state, m.records[record]? = some state →
      m.peerStates.get state.nodeId = none ∨ m.peerStates.get state.nodeId = some record)
    (now : Nat) : Good (m.handlePong record isPong now) := by
  rw [HeartbeatManager.handlePong]
  split
  · rename_i hpong
    have hnode {node : N} (hnode : m.peerStates.get node = some record) :
        ∃ state, m.records[record]? = some state ∧ state.nodeId = node := by
      obtain ⟨state, hstate, hn, -⟩ := h.counted node record hnode
      exact ⟨state, hstate, hn⟩
    dsimp only
    split
    · next hstate =>
        refine h.pong_untracked fun node htracked => ?_
        obtain ⟨state, hsome, -⟩ := hnode htracked
        cases hstate.symm.trans hsome
    · next state hstate =>
        split
        · next hnone =>
            refine h.pong_untracked fun node htracked => ?_
            obtain ⟨s, hsome, rfl⟩ := hnode htracked
            cases hstate.symm.trans hsome
            cases hnone.symm.trans htracked
        · next tracked htracked =>
            obtain hnone | hself := hown hpong state hstate
            · cases hnone.symm.trans htracked
            · cases hself.symm.trans htracked
              exact h.pong_tracked now
  · exact h

theorem peerStates_pingPeer (m : HeartbeatManager N) (record : Nat) :
    (m.pingPeer record).peerStates = m.peerStates ∨ ∃ state, m.records[record]? = some state ∧
      (m.pingPeer record).peerStates = m.peerStates.delete state.nodeId := by
  rw [HeartbeatManager.pingPeer]
  split
  · exact Or.inl rfl
  · rename_i state hstate
    split_ifs
    · exact Or.inl rfl
    · rw [HeartbeatManager.failPeer]
      split
      · exact Or.inl rfl
      · exact Or.inr ⟨state, hstate, rfl⟩
    · exact Or.inl rfl
    · exact Or.inl rfl

/-- Pinging one record leaves the others in the table. -/
theorem get_pingPeer (h : Good m) {node : N} {r : Nat} (hne : r ≠ record)
    (htracked : ∃ node, m.peerStates.get node = some record)
    (hget : m.peerStates.get node = some r) : (m.pingPeer record).peerStates.get node = some r := by
  rcases peerStates_pingPeer m record with hsame | ⟨state, hstate, hdelete⟩
  · rwa [hsame]
  · obtain ⟨own, hown⟩ := htracked
    obtain ⟨s, hs, rfl, -⟩ := h.counted own record hown
    cases hstate.symm.trans hs
    rw [hdelete, OrderedMap.get_delete, if_neg]
    · exact hget
    · rintro rfl
      exact hne (Option.some.inj (hget.symm.trans hown))

/-- A round pings the tracked records, each of which is still tracked when it is pinged. -/
theorem foldl_pingPeer {peers : List Nat} (h : Good m) (hnodup : peers.Nodup)
    (htracked : ∀ r ∈ peers, ∃ node, m.peerStates.get node = some r) :
    Good (peers.foldl HeartbeatManager.pingPeer m) := by
  induction peers generalizing m with
  | nil => exact h
  | cons r peers ih =>
      obtain ⟨hr, hpeers⟩ := List.nodup_cons.1 hnodup
      have hself := htracked r List.mem_cons_self
      refine ih (h.pingPeer fun state hstate _ _ _ _ => ?_) hpeers fun r' hr' => ?_
      · obtain ⟨node, hnode⟩ := hself
        obtain ⟨s, hs, rfl, -⟩ := h.counted node r hnode
        cases hstate.symm.trans hs
        exact hnode
      · obtain ⟨node, hnode⟩ := htracked r' (List.mem_cons_of_mem r hr')
        exact ⟨node, h.get_pingPeer (fun heq => hr (heq ▸ hr')) hself hnode⟩

/-- No record is tracked for two peers. -/
theorem nodup_values (h : Good m) : m.peerStates.values.Nodup := by
  refine List.Nodup.map_on ?_ (List.Nodup.of_map _ m.peerStates.nodup)
  rintro ⟨node, r⟩ he ⟨node', r'⟩ he' heq
  obtain rfl : r = r' := heq
  obtain ⟨s, hs, rfl, -⟩ := h.counted node r (OrderedMap.get_eq_some.2 he)
  obtain ⟨s', hs', rfl, -⟩ := h.counted node' r (OrderedMap.get_eq_some.2 he')
  cases hs.symm.trans hs'
  rfl

theorem heartbeatLoop (h : Good m) : Good m.heartbeatLoop := by
  rw [HeartbeatManager.heartbeatLoop]
  split
  · exact h
  · dsimp only
    split
    · exact { h with }
    · refine h.foldl_pingPeer (h.nodup_values.filter _) fun r hr => ?_
      obtain ⟨⟨node, _⟩, he, rfl⟩ := List.mem_map.1 (List.mem_filter.1 hr).1
      exact ⟨node, OrderedMap.get_eq_some.2 he⟩

theorem start (h : Good m) (livePeers : List N) (now : Nat) : Good (m.start livePeers now) := by
  rw [HeartbeatManager.start]
  split
  · exact h
  · refine heartbeatLoop ?_
    have hrunning : Good { m with isRunning := true } := { h with }
    revert hrunning
    generalize ({ m with isRunning := true } : HeartbeatManager N) = m'
    induction livePeers.filter fun id => id ≠ m.nodeId generalizing m' with
    | nil => exact id
    | cons id ids ih => exact fun h' => ih _ (h'.addPeer id now)

theorem stop (h : Good m) : Good m.stop := by
  rw [HeartbeatManager.stop]
  split
  · exact h
  · exact { h with counted := nofun }

theorem step {t : HeartbeatManager N} {a : HeartbeatAction N} (h : Good m) (hown : m.ActsOnOwn a)
    (hstep : m.step a = some t) : Good t := by
  cases a with
  | start livePeers now => cases hstep; exact h.start livePeers now
  | stop => cases hstep; exact h.stop
  | addPeer nodeId now => cases hstep; exact h.addPeer nodeId now
  | removePeer nodeId => cases hstep; exact h.removePeer nodeId
  | memberJoin nodeId now =>
      cases hstep
      rw [handleMemberJoin]
      split
      · exact h.addPeer nodeId now
      · exact h
  | memberLeave nodeId leaving =>
      cases hstep
      rw [handleMemberLeave]
      split
      · exact h
      · split
        · exact (h.modifyRecord _ (f := fun s => { s with isLeaving := true }) (fun _ => rfl)
            fun _ => rfl).removePeer nodeId
        · exact h.removePeer nodeId
  | round =>
      rw [HeartbeatManager.step] at hstep
      split at hstep <;> cases hstep
      exact h.heartbeatLoop
  | timer timer =>
      rw [HeartbeatManager.step] at hstep
      split at hstep <;> cases hstep
      exact pingPeer (m := { m with timers := m.timers.erase timer }) { h with } hown
  | roundEnd => cases hstep; exact { h with }
  | reply record isPong now =>
      rw [HeartbeatManager.step] at hstep
      split at hstep <;> cases hstep
      exact handlePong (m := { m with pings := m.pings.erase record }) { h with } hown now
  | failure record =>
      rw [HeartbeatManager.step] at hstep
      split at hstep <;> cases hstep
      exact { h with }

end Good

theorem not_justified_pingPeer (hstate : m.records[record]? = some state)
    (hrunning : m.isRunning = true) (hleaving : state.isLeaving = false)
    (hpending : state.pendingPing = true)
    (hmax : m.config.maxMissedHeartbeats ≤ state.missedCount + 1)
    (hother : m.peerStates.get state.nodeId ≠ some record) : ¬ Justified (m.pingPeer record) := by
  have hping : m.pingPeer record = ((m.modifyRecord record fun s =>
      { s with missedCount := s.missedCount + 1 }).logEvent (.missed record)).failPeer record
        state.nodeId := by
    rw [pingPeer, hstate]
    dsimp only
    rw [if_neg (by simp [hrunning, hleaving]), if_pos hpending, if_pos hmax]
  rw [hping, failPeer]
  intro h
  split at h
  · next htracked =>
      obtain ⟨r, hr, -⟩ := (each_snoc_iff.1 h).2
      cases htracked.symm.trans hr
  · next t htracked =>
      have heq : record = t := (each_snoc_iff.1 (each_snoc_iff.1 h).1).2
      exact hother (heq ▸ htracked)

theorem not_justified_handlePong (hstate : m.records[record]? = some state)
    (hnone : m.peerStates.get state.nodeId ≠ none)
    (hother : m.peerStates.get state.nodeId ≠ some record) (now : Nat) :
    ¬ Justified (m.handlePong record true now) := by
  obtain ⟨t, htracked⟩ := Option.ne_none_iff_exists'.1 hnone
  have hpong : m.handlePong record true now = (((m.logEvent (.pong record)).modifyRecord t fun s =>
      { s with pendingPing := false, missedCount := 0, lastPongTime := now }).logEvent
        (.entered record t)) := by
    rw [handlePong, if_pos rfl]
    dsimp only
    split
    · next hsome => cases hstate.symm.trans hsome
    · next s hsome =>
        cases hstate.symm.trans hsome
        split
        · next hnone => cases htracked.symm.trans hnone
        · next t hsome => cases htracked.symm.trans hsome; rfl
  rw [hpong]
  intro h
  have heq : record = t := (each_snoc_iff.1 h).2
  exact hother (heq ▸ htracked)

/-- A ping that acts on a record of another, or on none, leaves an event that is not justified. -/
theorem not_justified_of_step {t : HeartbeatManager N} {a : HeartbeatAction N}
    (hown : ¬ m.ActsOnOwn a) (hstep : m.step a = some t) : ¬ Justified t := by
  cases a with
  | timer timer =>
      rw [HeartbeatManager.step] at hstep
      split at hstep <;> cases hstep
      rw [ActsOnOwn] at hown
      push Not at hown
      obtain ⟨state, hstate, hrunning, hleaving, hpending, hmax, hother⟩ := hown
      exact not_justified_pingPeer (m := { m with timers := m.timers.erase timer }) hstate hrunning
        hleaving hpending hmax hother
  | reply record isPong now =>
      rw [HeartbeatManager.step] at hstep
      split at hstep <;> cases hstep
      rw [ActsOnOwn] at hown
      push Not at hown
      obtain ⟨rfl, state, hstate, hnone, hother⟩ := hown
      exact not_justified_handlePong (m := { m with pings := m.pings.erase record }) hstate hnone
        hother now
  | _ => exact absurd trivial hown

/-- A new manager reports justified failures only, with no ping acting on a record of another, in
exactly those runs in which every ping that would act finds its own record. -/
theorem justified_iff_actsOnOwn {nodeId : N} {config : HeartbeatConfig}
    {actions : List (HeartbeatAction N)} {m : HeartbeatManager N}
    (hrun : Transition.run HeartbeatManager.step (new nodeId config) actions = some m) :
    Transition.Throughout HeartbeatManager.step Justified (new nodeId config) actions ↔
      Transition.Along HeartbeatManager.step ActsOnOwn (new nodeId config) actions :=
  Transition.throughout_iff_along (I := Good) (A := fun _ _ => True)
    (fun _ _ _ hgood _ hown hstep => hgood.step hown hstep) (fun _ hgood => hgood.justified)
    (fun _ _ _ _ _ hown hstep => not_justified_of_step hown hstep)
    ⟨nofun, fun _ _ => rfl, each_nil⟩
    (Transition.along_of_forall_mem (P := fun _ => True) (fun _ _ => trivial) _) hrun

theorem justified_iff_actsOnOwn_single :
    ∃ m, Transition.run HeartbeatManager.step (new "n1" ⟨true, 2, true⟩)
        [.start ["n2"] 0, .round, .round] = some m ∧
      m.log = [.missed 0, .missed 0, .removed 0 0, .node_failed "n2" (some 0)] ∧
      Transition.Throughout HeartbeatManager.step Justified (new "n1" ⟨true, 2, true⟩)
        [.start ["n2"] 0, .round, .round] := by
  have hrun : ∃ m, Transition.run HeartbeatManager.step (new "n1" ⟨true, 2, true⟩)
      [.start ["n2"] 0, .round, .round] = some m ∧
      m.log = [.missed 0, .missed 0, .removed 0 0, .node_failed "n2" (some 0)] := ⟨_, rfl, rfl⟩
  obtain ⟨m, hm, hlog⟩ := hrun
  exact ⟨m, hm, hlog, (justified_iff_actsOnOwn hm).2
    ⟨trivial, fun _ _ => ⟨trivial, fun _ _ => ⟨trivial, fun _ _ => trivial⟩⟩⟩⟩

/-- A peer is removed and added again while a timer of its old record is set.  The ping of that
timer takes the new record out of the table, which has not missed any ping. -/
def rejoinedRun : List (HeartbeatAction String) :=
  [.start ["n2", "n3"] 0, .timer (0, 0), .timer (1, 1), .round, .timer (2, 0), .timer (3, 1),
    .round, .memberLeave "n2" false, .memberJoin "n2" 5, .timer (4, 0)]

theorem failed_rejoined :
    ∃ m, Transition.run HeartbeatManager.step (new "n1" ⟨true, 2, true⟩) rejoinedRun = some m ∧
      m.peerStates.get "n2" = none ∧ ¬ Justified m := by
  have hrun : ∃ m, Transition.run HeartbeatManager.step (new "n1" ⟨true, 2, true⟩) rejoinedRun =
      some m ∧ m.peerStates.get "n2" = none ∧ m.log =
        [.missed 0, .missed 1, .missed 0, .removed 0 2] ++ [.node_failed "n2" (some 2)] :=
    ⟨_, rfl, rfl, rfl⟩
  obtain ⟨m, hm, hnone, hlog⟩ := hrun
  refine ⟨m, hm, hnone, fun h => ?_⟩
  rw [Justified, hlog, each_snoc_iff] at h
  have heq : 0 = 2 := h.1 [.missed 0, .missed 1, .missed 0] (.removed 0 2) [] rfl
  exact nomatch heq

end HeartbeatManager

end Libeam.Monitoring
