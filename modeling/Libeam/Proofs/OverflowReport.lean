import Libeam.Proofs.MailboxRing
import Libeam.Proofs.MailboxSound
import Libeam.System.Overflow
/-!
# Overflow is reported

The mailbox refines a queue, so an enqueue appends, refuses or trades the oldest
message for the new one, and each case settles what it loses.  The exception is
a mailbox of size zero that evicts: it has nothing to evict, reports success and
keeps nothing.
-/

namespace Libeam.Proofs.OverflowReport

open Mailbox Libeam.System Libeam.System.Node Libeam.System.Traffic Lib.Transition
open Proofs.Frame (queue Queues dispatchCast_queues enqueueCall_queues)
open MailboxRing MailboxSound

variable {V : Type} {config : MailboxConfig} {t u : Traffic V}
  {waiting : List (StashedMessage V)}

/-! ## One enqueue -/

/-- What `enqueue` makes of a mailbox in which `waiting` wait: its result, the
messages that wait afterwards and the one that is lost. -/
inductive Outcome (mb : BoundedMailbox (StashedMessage V))
    (waiting : List (StashedMessage V)) (msg : StashedMessage V) :
    EnqueueResult (StashedMessage V) → List (StashedMessage V) →
      Option (StashedMessage V) → Prop
  | accepted (hroom : ∀ m, mb.maxSize = some m → waiting.length < m) :
      Outcome mb waiting msg .accepted (waiting ++ [msg]) none
  | evicted (oldest : StashedMessage V) (rest : List (StashedMessage V))
      (hwaiting : waiting = oldest :: rest) :
      Outcome mb waiting msg (.evicted (some oldest)) (rest ++ [msg]) (some oldest)
  | refused : Outcome mb waiting msg .refused waiting (some msg)
  | full : Outcome mb waiting msg .full waiting (some msg)

theorem enqueue_outcome {mb : BoundedMailbox (StashedMessage V)}
    (h : Aligned mb) (hev : Evictable mb) (hwaiting : mb.toArray = waiting.map some)
    (msg : StashedMessage V) :
    ∃ after lost, Outcome mb waiting msg (mb.enqueue msg).2 after lost ∧
      (mb.enqueue msg).1.toArray = after.map some ∧
      (mb.enqueue msg).1.droppedCount = mb.droppedCount + lost.toList.length := by
  obtain ⟨-, heq⟩ := h.enqueue hev msg
  have hqueue := congrArg Prod.fst heq
  have hresult := congrArg Prod.snd heq
  have hcontents : (mb.enqueue msg).1.toArray =
      ((queueOf mb).enqueue msg).1.contents := congrArg Queue.contents hqueue
  have hdropped : (mb.enqueue msg).1.droppedCount =
      ((queueOf mb).enqueue msg).1.droppedCount := congrArg Queue.droppedCount hqueue
  dsimp only at hresult
  have hlen : mb.size = waiting.length := by
    rw [← length_toArray, hwaiting, List.length_map]
  rw [hresult, hcontents, hdropped]
  unfold Queue.enqueue
  rw [isFull_queueOf]
  by_cases hfull : mb.isFull = false
  · rw [if_pos hfull]
    refine ⟨waiting ++ [msg], none, .accepted fun m hm => ?_, ?_, rfl⟩
    · simp only [BoundedMailbox.isFull, hm, decide_eq_false_iff_not] at hfull
      omega
    · change mb.toArray ++ [some msg] = _
      rw [hwaiting, List.map_append]
      rfl
  · rw [if_neg hfull]
    have hstrategy : (queueOf mb).overflowStrategy = mb.overflowStrategy := rfl
    cases hs : mb.overflowStrategy with
    | dropNewest =>
        simp only [hstrategy, hs]
        exact ⟨waiting, some msg, .refused, hwaiting, rfl⟩
    | error =>
        simp only [hstrategy, hs]
        exact ⟨waiting, some msg, .full, hwaiting, rfl⟩
    | dropOldest =>
        simp only [hstrategy, hs]
        cases hw : waiting with
        | nil =>
            -- a full mailbox without messages has size zero
            rw [hw, List.length_nil] at hlen
            have hmax : mb.maxSize = some 0 := by
              rw [Bool.not_eq_false, BoundedMailbox.isFull] at hfull
              cases hm : mb.maxSize with
              | none => simp [hm] at hfull
              | some m =>
                  simp only [hm, decide_eq_true_eq] at hfull
                  rw [show m = 0 by omega]
            exact absurd hs (hev hmax)
        | cons oldest rest =>
            have hhead : (queueOf mb).contents = some oldest :: rest.map some := by
              change mb.toArray = _
              rw [hwaiting, hw, List.map_cons]
            refine ⟨rest ++ [msg], some oldest, ?_, ?_, rfl⟩
            · rw [hhead]
              exact .evicted oldest rest rfl
            · rw [hhead, List.map_append]
              rfl

namespace Outcome

variable {mb : BoundedMailbox (StashedMessage V)} {msg : StashedMessage V}
  {r : EnqueueResult (StashedMessage V)} {after : List (StashedMessage V)}
  {lost : Option (StashedMessage V)}

/-- Nothing else is lost and nothing comes in but the message. -/
theorem perm (h : Outcome mb waiting msg r after lost) :
    (after ++ lost.toList).Perm (msg :: waiting) := by
  cases h with
  | accepted => simp
  | evicted oldest rest hwaiting =>
      subst hwaiting
      have hcomm := @List.perm_append_comm _ rest [msg, oldest]
      simpa using hcomm
  | refused | full => exact List.perm_append_comm

theorem length_le (h : Outcome mb waiting msg r after lost) {m : Nat}
    (hmax : mb.maxSize = some m) (hwaiting : waiting.length ≤ m) :
    after.length ≤ m := by
  cases h with
  | accepted hroom =>
      rw [List.length_append, List.length_singleton]
      exact hroom m hmax
  | evicted oldest rest heq =>
      rw [heq] at hwaiting
      simpa using hwaiting
  | refused => exact hwaiting
  | full => exact hwaiting

end Outcome

/-! ## One dispatch -/

/-- The settlements that go with an `enqueue` result. -/
def notices (awaited : Finset Nat) (msg : StashedMessage V) :
    EnqueueResult (StashedMessage V) → List (Nat × Settlement V)
  | .evicted (some oldest) =>
      if oldest.type = .call ∧ oldest.uid ∈ awaited then
        [(oldest.uid, .rejected .mailboxFull)]
      else []
  | .accepted | .evicted none => []
  | .refused | .full =>
      if msg.type = .call then [(msg.uid, .rejected .mailboxFull)] else []

/-- The slow path of either dispatch, seen in the tables it changes. -/
structure Sent (s t : Node V) (msg : StashedMessage V) : Prop where
  mailbox_eq : t.mailbox receiver = ((s.mailbox receiver).enqueue msg).1
  nextUid_eq : t.nextUid = s.nextUid + 1
  awaited_eq : t.awaited =
    if msg.type = .call then insert msg.uid s.awaited else s.awaited
  settled_eq : t.settled =
    s.settled ++ notices t.awaited msg ((s.mailbox receiver).enqueue msg).2
  actors_eq : t.actors = s.actors
  mailboxes_eq : t.mailboxes = s.mailboxes

theorem scheduleProcessMailbox_eq (s : Node V) (id : ActorId) :
    ∃ scheduled immediates, s.scheduleProcessMailbox id =
      { s with mailboxScheduled := scheduled, immediates := immediates } := by
  unfold Node.scheduleProcessMailbox
  split_ifs <;> exact ⟨_, _, rfl⟩

theorem Sent.scheduleProcessMailbox {s t : Node V} {msg : StashedMessage V}
    (h : Sent s t msg) : Sent s (t.scheduleProcessMailbox receiver) msg := by
  obtain ⟨scheduled, immediates, heq⟩ := scheduleProcessMailbox_eq t receiver
  rw [heq]
  exact ⟨h.mailbox_eq, h.nextUid_eq, h.awaited_eq, h.settled_eq, h.actors_eq,
    h.mailboxes_eq⟩

theorem sent_rejectEvicted {s t : Node V} {msg : StashedMessage V}
    {oldest : Option (StashedMessage V)}
    (hresult : ((s.mailbox receiver).enqueue msg).2 = .evicted oldest)
    (hmailbox : t.mailbox receiver = ((s.mailbox receiver).enqueue msg).1)
    (hnext : t.nextUid = s.nextUid + 1)
    (hawaited : t.awaited =
      if msg.type = .call then insert msg.uid s.awaited else s.awaited)
    (hsettled : t.settled = s.settled) (hactors : t.actors = s.actors)
    (hmailboxes : t.mailboxes = s.mailboxes) :
    Sent s ((t.rejectEvicted oldest).accept receiver msg) msg := by
  cases oldest with
  | none =>
      refine ⟨hmailbox, hnext, hawaited, ?_, hactors, hmailboxes⟩
      rw [hresult]
      exact hsettled.trans (List.append_nil _).symm
  | some oldest =>
      unfold Node.rejectEvicted
      dsimp only
      split_ifs with hcall
      · refine ⟨hmailbox, hnext, hawaited, ?_, hactors, hmailboxes⟩
        rw [hresult]
        change t.settled ++ [(oldest.uid, .rejected .mailboxFull)] =
          s.settled ++ if oldest.type = .call ∧ oldest.uid ∈ t.awaited then _ else _
        rw [if_pos hcall, hsettled]
      · refine ⟨hmailbox, hnext, hawaited, ?_, hactors, hmailboxes⟩
        rw [hresult]
        change t.settled =
          s.settled ++ if oldest.type = .call ∧ oldest.uid ∈ t.awaited then _ else _
        rw [if_neg hcall, hsettled, List.append_nil]

theorem sent_queues {s t : Node V} {msg : StashedMessage V} {awaited : Finset Nat}
    (h : Queues s (queue s receiver msg awaited) receiver msg t)
    (hlocal : receiver ∈ s.actors ∧ receiver ∈ s.mailboxes)
    (hawaited : awaited = if msg.type = .call then insert msg.uid s.awaited else s.awaited) :
    Sent s t msg := by
  have hmailbox := mailbox_setMailbox_self s receiver ((s.mailbox receiver).enqueue msg).1
  cases h with
  | unsent h => exact absurd hlocal h
  | accepted h =>
      apply Sent.scheduleProcessMailbox
      refine ⟨hmailbox, rfl, hawaited, ?_, rfl, rfl⟩
      rw [h]
      exact (List.append_nil _).symm
  | evicted h =>
      apply Sent.scheduleProcessMailbox
      exact sent_rejectEvicted h hmailbox rfl hawaited rfl rfl rfl
  | refused h hcast =>
      apply Sent.scheduleProcessMailbox
      refine ⟨hmailbox, rfl, hawaited, ?_, rfl, rfl⟩
      rw [h, notices, hcast]
      exact (List.append_nil _).symm
  | full h hcast =>
      refine ⟨hmailbox, rfl, hawaited, ?_, rfl, rfl⟩
      rw [h, notices, hcast]
      exact (List.append_nil _).symm
  | rejected h hcall =>
      refine ⟨hmailbox, rfl, hawaited, ?_, rfl, rfl⟩
      rcases h with h | h <;> rw [h, notices, if_pos hcall] <;> rfl

theorem sent_dispatchCast {s : Node V} (hactors : receiver ∈ s.actors)
    (hmailboxes : receiver ∈ s.mailboxes) (message : V) :
    Sent s (s.dispatchCast receiver message) ⟨s.nextUid, .cast, message⟩ :=
  sent_queues (dispatchCast_queues s receiver message) ⟨hactors, hmailboxes⟩ rfl

/-- The one notice that a lost message calls for. -/
def rejection (lost : Option (StashedMessage V)) : List (Nat × Settlement V) :=
  (lost.toList.filter (·.type = .call)).map fun m =>
    (m.uid, .rejected .mailboxFull)

theorem Outcome.notices_eq {mb : BoundedMailbox (StashedMessage V)}
    {msg : StashedMessage V} {r : EnqueueResult (StashedMessage V)}
    {after : List (StashedMessage V)} {lost : Option (StashedMessage V)}
    (h : Outcome mb waiting msg r after lost) {awaited : Finset Nat}
    (hawaited : ∀ m ∈ waiting, m.type = .call → m.uid ∈ awaited) :
    notices awaited msg r = rejection lost := by
  unfold notices rejection
  cases h with
  | accepted => rfl
  | evicted oldest rest heq =>
      by_cases hcall : oldest.type = .call
      · have hmem := hawaited oldest (by simp [heq]) hcall
        simp [hcall, hmem]
      · simp [hcall]
  | refused | full => by_cases hcall : msg.type = .call <;> simp [hcall]

/-! ## The invariant -/

/-- How often a message occurs among those waiting, taken or lost. -/
def copies (t : Traffic V) (waiting : List (StashedMessage V)) (uid : Nat) : Nat :=
  (waiting ++ t.taken ++ (t.refused ++ t.evicted)).countP (·.uid = uid)

/-- The accounts of a mailbox in which `waiting` wait. -/
structure Kept (config : MailboxConfig) (t : Traffic V)
    (waiting : List (StashedMessage V)) : Prop where
  actors_mem : receiver ∈ t.node.actors
  mailboxes_mem : receiver ∈ t.node.mailboxes
  aligned : Aligned t.mailbox
  maxSize_eq : t.mailbox.maxSize = config.maxSize
  strategy_eq : t.mailbox.overflowStrategy = config.overflowStrategy.getD .dropNewest
  toArray_eq : t.mailbox.toArray = waiting.map some
  awaited : ∀ msg ∈ waiting, msg.type = .call → msg.uid ∈ t.node.awaited
  /-- Every message is in one place. -/
  apart : ∀ uid, copies t waiting uid ≤ 1
  fresh : ∀ uid, t.node.nextUid ≤ uid →
    copies t waiting uid = 0 ∧ t.settlements uid = []
  unsettled : ∀ msg ∈ waiting, t.settlements msg.uid = []
  rejected_once : ∀ msg ∈ t.refused ++ t.evicted, msg.type = .call →
    t.settlements msg.uid = [.rejected .mailboxFull]
  enqueued_last : ∀ msg, t.enqueued = some msg → waiting.getLast? = some msg
  dropped_eq : t.mailbox.droppedCount = t.refused.length + t.evicted.length
  bounded : ∀ m, config.maxSize = some m → waiting.length ≤ m

theorem Kept.reported (h : Kept config t waiting) : Reported config t := by
  refine ⟨fun msg hmsg => ?_, h.dropped_eq, h.rejected_once, fun m hm => ?_⟩
  · rw [h.toArray_eq, List.getLast?_map, h.enqueued_last msg hmsg]
    rfl
  · have hlen := congrArg List.length h.toArray_eq
    rw [length_toArray, List.length_map] at hlen
    change t.mailbox.size ≤ m
    rw [hlen]
    exact h.bounded m hm

theorem one_le_countP {l : List (StashedMessage V)} {msg : StashedMessage V}
    (h : msg ∈ l) : 1 ≤ l.countP (·.uid = msg.uid) :=
  List.countP_pos_iff.2 ⟨msg, h, by simp⟩

/-- The account of an enqueue whose outcome is known. -/
theorem record_eq {mb : BoundedMailbox (StashedMessage V)} {msg : StashedMessage V}
    {after : List (StashedMessage V)} {lost : Option (StashedMessage V)}
    (h : Outcome mb waiting msg (t.mailbox.enqueue msg).2 after lost)
    (node : Node V) :
    (t.record msg node).node = node ∧ (t.record msg node).taken = t.taken ∧
      ((t.record msg node).refused ++ (t.record msg node).evicted).Perm
        (t.refused ++ t.evicted ++ lost.toList) ∧
      ∀ m, (t.record msg node).enqueued = some m → after.getLast? = some m := by
  unfold Traffic.record
  generalize (t.mailbox.enqueue msg).2 = r at h
  cases h with
  | accepted | evicted => exact ⟨rfl, rfl, by simp, by simp⟩
  | refused | full =>
      refine ⟨rfl, rfl, ?_, by simp⟩
      simp only [List.append_assoc]
      exact List.Perm.append_left _ List.perm_append_comm

/-- A message enters one place and no other message changes how often it
occurs. -/
theorem copies_eq {msg : StashedMessage V} {after : List (StashedMessage V)}
    {lost : Option (StashedMessage V)} (hafter : (after ++ lost.toList).Perm
      (msg :: waiting)) (htaken : u.taken = t.taken)
    (hlost : (u.refused ++ u.evicted).Perm (t.refused ++ t.evicted ++ lost.toList))
    (uid : Nat) :
    copies u after uid = copies t waiting uid + if msg.uid = uid then 1 else 0 := by
  have hcount := hafter.countP_eq (·.uid = uid)
  have hcount' := hlost.countP_eq (·.uid = uid)
  simp only [List.countP_append, List.countP_cons, decide_eq_true_eq] at hcount hcount'
  simp only [copies, List.countP_append, htaken] at hcount' ⊢
  omega

/-- The settlements of one message that the loss of another, or its own, makes. -/
theorem settlements_record {msg : StashedMessage V} {after : List (StashedMessage V)}
    {lost : Option (StashedMessage V)} {node : Node V}
    (hout : Outcome t.mailbox waiting msg (t.mailbox.enqueue msg).2 after lost)
    (hsent : Sent t.node node msg)
    (hawaited : ∀ m ∈ waiting, m.type = .call → m.uid ∈ node.awaited) (uid : Nat) :
    (t.record msg node).settlements uid = t.settlements uid ++
      ((rejection lost).filter fun p => p.1 = uid).map Prod.snd := by
  have hnode := (record_eq hout node).1
  unfold settlements
  rw [hnode, hsent.settled_eq]
  change (List.filter _ (t.node.settled ++ notices node.awaited msg
    (t.mailbox.enqueue msg).2)).map Prod.snd = _
  rw [hout.notices_eq hawaited, List.filter_append, List.map_append]

theorem rejection_of_ne {lost : Option (StashedMessage V)} {uid : Nat}
    (h : ∀ m ∈ lost, m.uid ≠ uid) :
    ((rejection lost).filter fun p => p.1 = uid).map Prod.snd = [] := by
  cases lost with
  | none => rfl
  | some m =>
      have hne := h m rfl
      by_cases hcall : m.type = .call <;> simp [rejection, hcall, hne]

/-- The message being sent, or one that waits, has no settlement yet, and no
number of it is still to be given. -/
theorem Kept.pending (h : Kept config t waiting) {msg m : StashedMessage V}
    (huid : msg.uid = t.node.nextUid) (hm : m = msg ∨ m ∈ waiting) :
    t.settlements m.uid = [] ∧ m.uid ≤ t.node.nextUid := by
  obtain rfl | hm := hm
  · exact ⟨(h.fresh m.uid (Nat.le_of_eq huid.symm)).2, Nat.le_of_eq huid⟩
  · refine ⟨h.unsettled m hm, ?_⟩
    by_contra hlt
    have hzero := (h.fresh m.uid (by omega)).1
    have hone := one_le_countP hm
    simp only [copies, List.countP_append] at hzero
    omega

/-- A dispatch that enqueues keeps the accounts. -/
theorem Kept.record (h : Kept config t waiting) (hev : Evictable t.mailbox)
    {msg : StashedMessage V} (huid : msg.uid = t.node.nextUid) {node : Node V}
    (hsent : Sent t.node node msg) :
    ∃ after, Kept config (t.record msg node) after := by
  obtain ⟨after, lost, hout, hafter, hdropped⟩ :=
    enqueue_outcome h.aligned hev h.toArray_eq msg
  obtain ⟨hnode, htaken, hperm, hlast⟩ := record_eq hout node
  obtain ⟨hmax, hstrategy⟩ := h.aligned.config_perform hev (.enqueue msg)
  have hcopies := copies_eq hout.perm htaken hperm
  have hmailbox : (t.record msg node).mailbox = (t.mailbox.enqueue msg).1 := by
    unfold Traffic.mailbox
    rw [hnode]
    exact hsent.mailbox_eq
  -- a message of the mailbox afterwards or a lost one waited before, or is new
  have hmem : ∀ m, m ∈ after ∨ m ∈ lost → m = msg ∨ m ∈ waiting := by
    intro m hm
    have := (hout.perm.mem_iff (a := m)).1 (by simpa using hm)
    simpa using this
  have hawaited : ∀ m, m = msg ∨ m ∈ waiting → m.type = .call →
      m.uid ∈ node.awaited := by
    rintro m (rfl | hm) hcall
    · rw [hsent.awaited_eq, if_pos hcall]
      exact Finset.mem_insert_self _ _
    · rw [hsent.awaited_eq]
      split_ifs
      · exact Finset.mem_insert_of_mem (h.awaited m hm hcall)
      · exact h.awaited m hm hcall
  have hsettled := settlements_record hout hsent fun m hm => hawaited m (Or.inr hm)
  have hapart : ∀ uid, copies (t.record msg node) after uid ≤ 1 := by
    intro uid
    rw [hcopies]
    split_ifs with hsame
    · rw [(h.fresh uid (by omega)).1]
    · exact h.apart uid
  have hother : ∀ m, m ∈ after ∨ m ∈ t.refused ++ t.evicted →
      (t.record msg node).settlements m.uid = t.settlements m.uid := by
    intro m hm
    rw [hsettled, rejection_of_ne, List.append_nil]
    intro x hx heq
    have hcount := hapart m.uid
    have hlost := hperm.countP_eq (·.uid = m.uid)
    have hone := one_le_countP (Option.mem_toList.2 hx)
    simp only [copies, List.countP_append] at hcount hlost
    rw [heq] at hone
    obtain hm | hm := hm
    · have := one_le_countP hm
      omega
    · have := one_le_countP hm
      rw [List.countP_append] at this
      omega
  refine ⟨after, ?_⟩
  refine
    { actors_mem := by rw [hnode, hsent.actors_eq]; exact h.actors_mem
      mailboxes_mem := by rw [hnode, hsent.mailboxes_eq]; exact h.mailboxes_mem
      aligned := by rw [hmailbox]; exact (h.aligned.perform hev (.enqueue msg)).1
      maxSize_eq := by rw [hmailbox]; exact hmax.trans h.maxSize_eq
      strategy_eq := by rw [hmailbox]; exact hstrategy.trans h.strategy_eq
      toArray_eq := by rw [hmailbox]; exact hafter
      awaited := fun m hm hcall => by
        rw [hnode]
        exact hawaited m (hmem m (Or.inl hm)) hcall
      apart := hapart
      fresh := fun uid hle => ?_
      unsettled := fun m hm => ?_
      rejected_once := fun m hm hcall => ?_
      enqueued_last := hlast
      dropped_eq := ?_
      bounded := fun m hm => hout.length_le (h.maxSize_eq.trans hm) (h.bounded m hm) }
  · rw [hnode, hsent.nextUid_eq] at hle
    obtain ⟨hzero, hnone⟩ := h.fresh uid (by omega)
    rw [hcopies, hsettled, hzero, hnone, if_neg (by omega), rejection_of_ne]
    · exact ⟨rfl, rfl⟩
    · intro x hx
      have := (h.pending huid (hmem x (Or.inr hx))).2
      omega
  · rw [hother m (Or.inl hm)]
    exact (h.pending huid (hmem m (Or.inl hm))).1
  · have hm' := (hperm.mem_iff (a := m)).1 hm
    rw [List.mem_append, Option.mem_toList] at hm'
    obtain hold | hnew := hm'
    · rw [hother m (Or.inr hold)]
      exact h.rejected_once m hold hcall
    · rw [hsettled, (h.pending huid (hmem m (Or.inr hnew))).1, Option.mem_def.1 hnew]
      simp [rejection, hcall]
  · have hlen := hperm.length_eq
    simp only [List.length_append] at hlen
    rw [hmailbox, hdropped, h.dropped_eq]
    omega

/-! ## The other steps -/

/-- Steps that leave the mailbox and the settlements alone; the fast path hands
one new message to the handler. -/
theorem Kept.handed (h : Kept config t waiting) (fresh : Option (StashedMessage V))
    (hfresh : ∀ m ∈ fresh, m.uid = t.node.nextUid)
    (hactors : u.node.actors = t.node.actors)
    (hmailboxes : u.node.mailboxes = t.node.mailboxes)
    (hmailbox : u.mailbox = t.mailbox) (hawaited : u.node.awaited = t.node.awaited)
    (hsettled : u.node.settled = t.node.settled)
    (hnext : u.node.nextUid = t.node.nextUid + fresh.toList.length)
    (htaken : u.taken = t.taken ++ fresh.toList) (hrefused : u.refused = t.refused)
    (hevicted : u.evicted = t.evicted) (henqueued : u.enqueued = none) :
    Kept config u waiting := by
  have hsettlements : ∀ uid, u.settlements uid = t.settlements uid := by
    intro uid
    unfold settlements
    rw [hsettled]
  have hcopies : ∀ uid, copies u waiting uid =
      copies t waiting uid + fresh.toList.countP (·.uid = uid) := by
    intro uid
    simp only [copies, List.countP_append, htaken, hrefused, hevicted]
    omega
  have hcount : ∀ uid, uid ≠ t.node.nextUid →
      fresh.toList.countP (·.uid = uid) = 0 := by
    intro uid hne
    rw [List.countP_eq_zero]
    intro m hm
    have := hfresh m (Option.mem_toList.1 hm)
    simp only [decide_eq_true_eq]
    omega
  refine
    { actors_mem := by rw [hactors]; exact h.actors_mem
      mailboxes_mem := by rw [hmailboxes]; exact h.mailboxes_mem
      aligned := by rw [hmailbox]; exact h.aligned
      maxSize_eq := by rw [hmailbox]; exact h.maxSize_eq
      strategy_eq := by rw [hmailbox]; exact h.strategy_eq
      toArray_eq := by rw [hmailbox]; exact h.toArray_eq
      awaited := by rw [hawaited]; exact h.awaited
      apart := fun uid => ?_
      fresh := fun uid hle => ?_
      unsettled := fun m hm => (hsettlements m.uid).trans (h.unsettled m hm)
      rejected_once := fun m hm hcall => ?_
      enqueued_last := by simp [henqueued]
      dropped_eq := by rw [hmailbox, hrefused, hevicted]; exact h.dropped_eq
      bounded := h.bounded }
  · rw [hcopies]
    by_cases hsame : uid = t.node.nextUid
    · have hle : fresh.toList.countP (·.uid = uid) ≤ fresh.toList.length :=
        List.countP_le_length
      have hone : fresh.toList.length ≤ 1 := Option.length_toList_le
      rw [(h.fresh uid (Nat.le_of_eq hsame.symm)).1]
      omega
    · rw [hcount uid hsame]
      exact h.apart uid
  · rw [hcopies, hsettlements]
    cases fresh with
    | none => exact h.fresh uid (by simpa [hnext] using hle)
    | some m =>
        rw [hnext] at hle
        change t.node.nextUid + 1 ≤ uid at hle
        obtain ⟨hzero, hnone⟩ := h.fresh uid (by omega)
        rw [hzero, hcount uid (by omega)]
        exact ⟨rfl, hnone⟩
  · rw [hrefused, hevicted] at hm
    rw [hsettlements]
    exact h.rejected_once m hm hcall

theorem Kept.dequeue (h : Kept config t waiting) (hev : Evictable t.mailbox) :
    Kept config { t with
      node := t.node.setMailbox receiver t.mailbox.dequeue.1
      taken := t.taken ++ t.mailbox.dequeue.2.toList
      enqueued := none } waiting.tail := by
  obtain ⟨haligned, hread, hmsg⟩ := h.aligned.dequeue
  obtain ⟨hmax, hstrategy⟩ := h.aligned.config_perform hev .dequeue
  have hdropped := congrArg Queue.droppedCount
    (congrArg Prod.fst (h.aligned.perform hev .dequeue).2)
  change t.mailbox.dequeue.1.droppedCount = t.mailbox.droppedCount at hdropped
  have hmailbox : (t.node.setMailbox receiver t.mailbox.dequeue.1).mailbox receiver =
      t.mailbox.dequeue.1 := mailbox_setMailbox_self _ _ _
  rw [h.toArray_eq] at hread hmsg
  have htaken : t.mailbox.dequeue.2 = waiting.head? := by
    rw [hmsg]
    cases waiting <;> rfl
  have hcopies : ∀ uid, (waiting.tail ++ (t.taken ++ waiting.head?.toList) ++
      (t.refused ++ t.evicted)).countP (·.uid = uid) = copies t waiting uid := by
    intro uid
    simp only [copies, List.countP_append]
    cases waiting with
    | nil => simp
    | cons m rest =>
        simp only [List.tail_cons, List.head?_cons, Option.toList_some,
          List.countP_cons, List.countP_nil]
        omega
  rw [htaken]
  refine
    { actors_mem := h.actors_mem
      mailboxes_mem := h.mailboxes_mem
      aligned := by rw [Traffic.mailbox, hmailbox]; exact haligned
      maxSize_eq := by rw [Traffic.mailbox, hmailbox]; exact hmax.trans h.maxSize_eq
      strategy_eq := by
        rw [Traffic.mailbox, hmailbox]
        exact hstrategy.trans h.strategy_eq
      toArray_eq := by rw [Traffic.mailbox, hmailbox, hread, List.map_tail]
      awaited := fun m hm => h.awaited m (List.mem_of_mem_tail hm)
      apart := fun uid => (hcopies uid).trans_le (h.apart uid)
      fresh := fun uid hle =>
        ⟨(hcopies uid).trans (h.fresh uid hle).1, (h.fresh uid hle).2⟩
      unsettled := fun m hm => h.unsettled m (List.mem_of_mem_tail hm)
      rejected_once := h.rejected_once
      enqueued_last := by simp
      dropped_eq := by rw [Traffic.mailbox, hmailbox, hdropped]; exact h.dropped_eq
      bounded := fun m hm => ?_ }
  have hlen := h.bounded m hm
  rw [List.length_tail]
  omega

/-- A handler settles only what was handed to it. -/
theorem Kept.answer (h : Kept config t waiting) {msg : StashedMessage V}
    (hmsg : msg ∈ t.taken) (r : Settlement V) :
    Kept config { t with node := t.node.settle msg.uid r, enqueued := none }
      waiting := by
  have hne : ∀ m, m ∈ waiting ∨ m ∈ t.refused ++ t.evicted → msg.uid ≠ m.uid := by
    intro m hm heq
    have hcount := h.apart m.uid
    have hone := one_le_countP hmsg
    rw [heq] at hone
    simp only [copies, List.countP_append] at hcount
    obtain hm | hm := hm
    · have := one_le_countP hm
      omega
    · have := one_le_countP hm
      rw [List.countP_append] at this
      omega
  have hother : ∀ uid, msg.uid ≠ uid →
      ({ t with node := t.node.settle msg.uid r, enqueued := none } :
        Traffic V).settlements uid = t.settlements uid := by
    intro uid hne
    simp [settlements, hne]
  refine
    { actors_mem := h.actors_mem
      mailboxes_mem := h.mailboxes_mem
      aligned := h.aligned
      maxSize_eq := h.maxSize_eq
      strategy_eq := h.strategy_eq
      toArray_eq := h.toArray_eq
      awaited := h.awaited
      apart := h.apart
      fresh := fun uid hle => ⟨(h.fresh uid hle).1, ?_⟩
      unsettled := fun m hm => (hother m.uid (hne m (Or.inl hm))).trans
        (h.unsettled m hm)
      rejected_once := fun m hm hcall => (hother m.uid (hne m (Or.inr hm))).trans
        (h.rejected_once m hm hcall)
      enqueued_last := by simp
      dropped_eq := h.dropped_eq
      bounded := h.bounded }
  have hlt : msg.uid ≠ uid := by
    rintro rfl
    have hzero := (h.fresh msg.uid hle).1
    have hone := one_le_countP hmsg
    simp only [copies, List.countP_append] at hzero
    omega
  rw [hother uid hlt]
  exact (h.fresh uid hle).2

theorem kept_start (config : MailboxConfig) : Kept config (start config : Traffic V) [] := by
  have hmailbox : (start config : Traffic V).mailbox = BoundedMailbox.new config := by
    simp [start, Traffic.mailbox, Node.spawn, Node.mailbox, receiver, Node.init,
      scheduleProcessMailbox, install]
  obtain ⟨scheduled, immediates, heq⟩ :=
    scheduleProcessMailbox_eq ((Node.init : Node V).install config) 0
  have hnode : (start config : Traffic V).node =
      { (Node.init : Node V).install config with
        mailboxScheduled := scheduled, immediates := immediates } := heq
  refine
    { actors_mem := by rw [hnode]; simp [Node.init, install, receiver]
      mailboxes_mem := by rw [hnode]; simp [Node.init, install, receiver]
      aligned := by rw [hmailbox]; exact (wrapped_new config).aligned
      maxSize_eq := by rw [hmailbox]; rfl
      strategy_eq := by rw [hmailbox]; rfl
      toArray_eq := by rw [hmailbox]; rfl
      awaited := by simp
      apart := fun uid => Nat.zero_le 1
      fresh := fun uid _ => ⟨rfl, ?_⟩
      unsettled := by simp
      rejected_once := fun m hm => absurd hm List.not_mem_nil
      enqueued_last := fun m hm => absurd hm (Option.some_ne_none m).symm
      dropped_eq := by rw [hmailbox]; rfl
      bounded := fun m _ => Nat.zero_le m }
  unfold settlements
  rw [hnode]
  rfl

/-- The configurations under which a full mailbox has a message to evict. -/
def Evicts (config : MailboxConfig) : Prop :=
  ¬ (config.maxSize = some 0 ∧ config.overflowStrategy = some .dropOldest)

theorem Kept.evictable (h : Kept config t waiting) (hev : Evicts config) :
    Evictable t.mailbox := by
  intro hmax hold
  rw [h.maxSize_eq] at hmax
  rw [h.strategy_eq] at hold
  cases hs : config.overflowStrategy with
  | none => simp [hs] at hold
  | some strategy =>
      simp only [hs, Option.getD_some] at hold
      exact hev ⟨hmax, by rw [hs, hold]⟩

/-- Every step keeps the accounts. -/
theorem Kept.step (h : Kept config t waiting) (hev : Evicts config)
    {a : TrafficAction V} (hst : t.step a = some u) : ∃ after, Kept config u after := by
  cases a with
  | dispatchCast message =>
      simp only [Traffic.step, Option.some.injEq] at hst
      subst hst
      exact h.record (h.evictable hev) rfl
        (sent_dispatchCast h.actors_mem h.mailboxes_mem message)
  | dispatchCall message =>
      simp only [Traffic.step, Option.some.injEq] at hst
      subst hst
      unfold Traffic.dispatchCall
      by_cases hidle : receiver ∉ t.node.processingActors ∧
          receiver ∉ t.node.pausedMailboxes ∧ t.mailbox.length = 0
      · have hnode : t.node.dispatchCall receiver message =
            ({ t.node with nextUid := t.node.nextUid + 1 }.accept receiver
              ⟨t.node.nextUid, .call, message⟩).syncLocalCall receiver
                ⟨t.node.nextUid, .call, message⟩ := by
          unfold Node.dispatchCall
          rw [if_pos ⟨h.actors_mem, h.mailboxes_mem⟩]
          exact if_pos hidle
        rw [if_pos hidle, hnode]
        refine ⟨waiting, h.handed (some ⟨t.node.nextUid, .call, message⟩) ?_
          rfl rfl ?_ rfl rfl rfl rfl rfl rfl rfl⟩
        · rintro m ⟨⟩
          rfl
        · exact mailbox_setCurrentMessage _ _ _ _
      · have hnode : t.node.dispatchCall receiver message =
            t.node.enqueueCall receiver message := by
          unfold Node.dispatchCall
          rw [if_pos ⟨h.actors_mem, h.mailboxes_mem⟩]
          exact if_neg hidle
        rw [if_neg hidle, hnode]
        exact h.record (h.evictable hev) rfl
          (sent_queues (enqueueCall_queues t.node receiver message)
            ⟨h.actors_mem, h.mailboxes_mem⟩ rfl)
  | dequeue =>
      simp only [Traffic.step, Option.some.injEq] at hst
      subst hst
      exact ⟨_, h.dequeue (h.evictable hev)⟩
  | answer index r =>
      simp only [Traffic.step, Option.map_eq_some_iff] at hst
      obtain ⟨msg, hmsg, rfl⟩ := hst
      exact ⟨waiting, h.answer (List.mem_of_getElem? hmsg) r⟩
  | processing running =>
      simp only [Traffic.step, Option.some.injEq] at hst
      subst hst
      exact ⟨waiting, h.handed none (by simp) rfl rfl rfl rfl rfl rfl
        (List.append_nil _).symm rfl rfl rfl⟩
  | pauseMailbox =>
      simp only [Traffic.step, Option.some.injEq] at hst
      subst hst
      unfold Node.pauseMailbox
      rw [if_pos h.actors_mem]
      exact ⟨waiting, h.handed none (by simp) rfl rfl rfl rfl rfl rfl
        (List.append_nil _).symm rfl rfl rfl⟩
  | resumeMailbox =>
      simp only [Traffic.step, Option.some.injEq] at hst
      subst hst
      unfold Node.resumeMailbox
      rw [if_pos h.actors_mem]
      split_ifs
      · obtain ⟨scheduled, immediates, heq⟩ := scheduleProcessMailbox_eq
          { t.node with pausedMailboxes := t.node.pausedMailboxes.erase receiver }
          receiver
        rw [heq]
        exact ⟨waiting, h.handed none (by simp) rfl rfl rfl rfl rfl rfl
          (List.append_nil _).symm rfl rfl rfl⟩
      · exact ⟨waiting, h.handed none (by simp) rfl rfl rfl rfl rfl rfl
          (List.append_nil _).symm rfl rfl rfl⟩

/-- A mailbox of size zero that evicts answers `true` and keeps nothing. -/
theorem not_reported_of_evicting_nothing [Inhabited V] (hmax : config.maxSize = some 0)
    (hold : config.overflowStrategy = some .dropOldest) :
    ¬ Reported config ((start config : Traffic V).dispatchCast default) := by
  have hstart := kept_start (V := V) config
  have hsent := sent_dispatchCast hstart.actors_mem hstart.mailboxes_mem default
  obtain ⟨oldest, hresult⟩ : ∃ oldest, ((start config : Traffic V).mailbox.enqueue
      ⟨(start config : Traffic V).node.nextUid, .cast, default⟩).2 =
        .evicted oldest := by
    unfold BoundedMailbox.enqueue
    rw [if_neg (by simp [BoundedMailbox.isFull, hstart.maxSize_eq, hmax])]
    simp only [hstart.strategy_eq, hold, Option.getD_some]
    exact ⟨_, rfl⟩
  intro h
  have hlast := h.enqueued_last _ (by
    unfold Traffic.dispatchCast Traffic.record
    rw [hresult])
  have hempty : ((start config : Traffic V).dispatchCast default).mailbox.toArray =
      [] := by
    apply toArray_of_empty
    have hsize := h.bounded 0 hmax
    exact Nat.le_zero.1 hsize
  rw [hempty] at hlast
  simp at hlast

/-- Overflow is reported in every state of every run if and only if the mailbox
is not one of size zero that evicts its oldest message. -/
theorem reported_iff [Inhabited V] (config : MailboxConfig) :
    (∀ actions : List (TrafficAction V),
      Throughout Traffic.step (Reported config) (start config) actions) ↔
      ¬ (config.maxSize = some 0 ∧ config.overflowStrategy = some .dropOldest) := by
  constructor
  · rintro h ⟨hmax, hold⟩
    obtain ⟨-, hnext⟩ := h [.dispatchCast default]
    exact not_reported_of_evicting_nothing hmax hold (hnext _ rfl)
  · intro hev actions
    have hrun : Throughout Traffic.step (fun t => ∃ waiting, Kept config t waiting)
        (start config) actions := by
      apply throughout_of_invariant (G := fun _ _ => True)
      · rintro s a s' ⟨waiting, hkept⟩ - hst
        exact hkept.step hev hst
      · exact ⟨[], kept_start config⟩
      · exact along_of_forall_mem (P := fun _ => True) (fun _ _ => trivial) _
    refine hrun.mono fun s hs => ?_
    obtain ⟨waiting, hkept⟩ := hs
    exact hkept.reported

/-- The actor is busy when a call arrives at its mailbox of size zero: `enqueue`
returns `true`, the mailbox stays empty and the call is left to its time-out. -/
theorem call_lost_in_empty_mailbox :
    ∃ t : Traffic Nat,
      run Traffic.step (start ⟨some 0, some .dropOldest⟩)
        [.processing true, .dispatchCall 7] = some t ∧
      t.enqueued = some ⟨0, .call, 7⟩ ∧ t.mailbox.toArray = [] ∧
      t.settlements 0 = [] ∧ ¬ Reported ⟨some 0, some .dropOldest⟩ t := by
  have hrun : ∃ t : Traffic Nat,
      run Traffic.step (start ⟨some 0, some .dropOldest⟩)
        [.processing true, .dispatchCall 7] = some t ∧
      t.enqueued = some ⟨0, .call, 7⟩ ∧ t.mailbox.toArray = [] ∧
      t.settlements 0 = [] := ⟨_, rfl, rfl, rfl, rfl⟩
  obtain ⟨t, hrun, henqueued, hempty, hsettled⟩ := hrun
  refine ⟨t, hrun, henqueued, hempty, hsettled, fun h => ?_⟩
  have hlast := h.enqueued_last _ henqueued
  rw [hempty] at hlast
  simp at hlast

end Libeam.Proofs.OverflowReport
