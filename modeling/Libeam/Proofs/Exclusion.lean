import Mathlib.Data.List.Nodup
import Libeam.Proofs.MailboxSound
/-!
# At most one open handler per instance

`processingActors` is meant to be a lock: the fast path of `dispatchCall` tests
it and every runner sets it.  `processMailbox` itself never tests it.  So an
instance runs two handlers at once exactly when a tick that was queued earlier
fires while a handler of the instance is awaiting and its mailbox is not empty.
-/

namespace Libeam.Proofs.Exclusion

open Lib.Transition Libeam.System Libeam.System.Node Proofs.Frame MailboxSound

variable {V : Type}

/-- The handlers of the instance that have started and not finished. -/
def openHandlers (s : Node V) (id : ActorId) : List (Runner V) :=
  s.runners.filter fun r => r.id = id ∧ r.isHandling

def MutualExclusion (s : Node V) : Prop := ∀ id, (openHandlers s id).length ≤ 1

/-- The actions of local message passing; the remote entry points and
`_syncLocalCast` call handlers directly. -/
def LocalAction : Action V → Prop
  | .rpcCall _ _ | .rpcCast _ _ | .syncLocalCast _ _ => False
  | a => InjectsMessages a

/-- The tick does not find a busy instance with something to take. -/
def TickFindsIdle (s : Node V) : Action V → Prop
  | .tick id => ¬ (id ∈ s.processingActors ∧ id ∈ s.actors ∧ id ∈ s.mailboxes ∧
      id ∉ s.pausedMailboxes ∧ 0 < (s.mailbox id).length)
  | _ => True

/-! ## Locks and runners -/

/-- Each lock belongs to exactly one runner, and each runner holds its lock. -/
structure Balanced (locks : Finset ActorId) (rs : List (Runner V)) : Prop where
  nodup : (rs.map Runner.id).Nodup
  mem_iff : ∀ id, id ∈ rs.map Runner.id ↔ id ∈ locks

theorem Balanced.acquire {locks : Finset ActorId} {rs : List (Runner V)}
    {r : Runner V} (h : Balanced locks rs) (hr : r.id ∉ locks) :
    Balanced (insert r.id locks) (r :: rs) := by
  constructor
  · rw [List.map_cons, List.nodup_cons, h.mem_iff]
    exact ⟨hr, h.nodup⟩
  · intro id
    rw [List.map_cons, List.mem_cons, h.mem_iff, Finset.mem_insert]

theorem Balanced.release {locks : Finset ActorId} {rs : List (Runner V)}
    {r : Runner V} (h : Balanced locks (r :: rs)) :
    Balanced (locks.erase r.id) rs := by
  obtain ⟨hr, hnodup⟩ := List.nodup_cons.1 h.nodup
  refine ⟨hnodup, fun id => ?_⟩
  have hmem := h.mem_iff id
  rw [List.map_cons, List.mem_cons] at hmem
  rw [Finset.mem_erase, ← hmem]
  constructor
  · intro hid
    exact ⟨fun heq => hr (heq ▸ hid), .inr hid⟩
  · rintro ⟨hne, heq | hid⟩
    · exact absurd heq hne
    · exact hid

theorem Balanced.perm {locks : Finset ActorId} {rs rs' : List (Runner V)}
    (h : Balanced locks rs) (hperm : List.Perm rs (rs')) : Balanced locks rs' := by
  have hids := hperm.map Runner.id
  exact ⟨hids.nodup_iff.1 h.nodup, fun id => by rw [← hids.mem_iff, h.mem_iff]⟩

/-- A runner of a batch or of a synchronous call; only a batch ends in
`handleCrash`. -/
def Locking (r : Runner V) : Prop :=
  (∃ n, r.task = .processMailbox n) ∨
    (∃ prev, r.task = .syncLocalCall prev) ∧ r.isHandling

/-- What holds while no runner was let in beside another; `locks` is the part of
`processingActors` whose runners are not in transit. -/
structure Exclusive (locks : Finset ActorId) (s : Node V) : Prop where
  sound : Sound s
  balanced : Balanced locks s.runners
  locking : ∀ r ∈ s.runners, Locking r
  suspended : ∀ r ∈ s.suspended, r.isHandling

theorem exclusive_init : Exclusive ∅ (init : Node V) where
  sound := sound_init
  balanced := ⟨List.nodup_nil, fun _ => by simp [runners, init]⟩
  locking := by simp [runners, init]
  suspended := by simp [init]

theorem Exclusive.mutualExclusion {locks : Finset ActorId} {s : Node V}
    (h : Exclusive locks s) : MutualExclusion s := by
  intro id
  calc (openHandlers s id).length
      ≤ (s.runners.filter fun r => r.id = id).length := by
        unfold openHandlers
        apply List.Sublist.length_le
        apply List.monotone_filter_right
        intro r hr
        simp only [decide_eq_true_eq] at hr ⊢
        exact hr.1
    _ = (s.runners.map Runner.id).count id := by
        rw [List.count_eq_countP, List.countP_map, List.countP_eq_length_filter]
        rfl
    _ ≤ 1 := List.nodup_iff_count_le_one.1 h.balanced.nodup id

/-- A step that leaves the runners alone. -/
theorem Exclusive.of_runners {locks : Finset ActorId} {s t : Node V}
    (h : Exclusive locks s) (hsound : Sound t) (hstack : t.stack = s.stack)
    (hsuspended : t.suspended = s.suspended) : Exclusive locks t := by
  have hrunners : t.runners = s.runners := by
    rw [runners, runners, hstack, hsuspended]
  exact ⟨hsound, hrunners ▸ h.balanced, hrunners ▸ h.locking,
    hsuspended ▸ h.suspended⟩

/-- A runner enters the stack with a lock nobody held. -/
theorem Exclusive.enter {locks : Finset ActorId} {s t : Node V} {r : Runner V}
    (h : Exclusive locks s) (hr : r.id ∉ locks) (hlocking : Locking r)
    (hsound : Sound t) (hstack : t.stack = r :: s.stack)
    (hsuspended : t.suspended = s.suspended) :
    Exclusive (insert r.id locks) t := by
  have hrunners : t.runners = r :: s.runners := by
    rw [runners, runners, hstack, hsuspended, List.cons_append]
  refine ⟨hsound, hrunners ▸ h.balanced.acquire hr, ?_, hsuspended ▸ h.suspended⟩
  rw [hrunners, List.forall_mem_cons]
  exact ⟨hlocking, h.locking⟩

/-- The innermost runner leaves the stack; its lock is in transit. -/
theorem Exclusive.leave {locks : Finset ActorId} {s : Node V} {r : Runner V}
    {rest : List (Runner V)} (h : Exclusive locks s) (hstack : s.stack = r :: rest) :
    r.id ∈ locks ∧ Locking r ∧
      Exclusive (locks.erase r.id) { s with stack := rest } := by
  have hrunners : s.runners = r :: (rest ++ s.suspended) := by
    rw [runners, hstack, List.cons_append]
  have hbalanced := h.balanced
  have hlocking := h.locking
  rw [hrunners] at hbalanced hlocking
  rw [List.forall_mem_cons] at hlocking
  refine ⟨(hbalanced.mem_iff r.id).1 (by simp), hlocking.1, h.sound,
    hbalanced.release, hlocking.2, h.suspended⟩

/-! ## The runners -/

theorem Exclusive.processEnd {s : Node V} {id : ActorId}
    (h : Exclusive (s.processingActors.erase id) s) :
    Exclusive (s.processEnd id).processingActors (s.processEnd id) := by
  have hsound := h.sound.processEnd id
  unfold Node.processEnd at hsound ⊢
  dsimp only at hsound ⊢
  split_ifs at hsound ⊢ <;> exact h.of_runners hsound rfl rfl

theorem Exclusive.processLoop {s : Node V} {id : ActorId}
    (h : Exclusive (s.processingActors.erase id) s) (hid : id ∈ s.processingActors)
    (processed : Nat) :
    Exclusive (s.processLoop id processed).processingActors
      (s.processLoop id processed) := by
  have hsound := h.sound.processLoop id processed
  unfold Node.processLoop at hsound ⊢
  split_ifs at hsound ⊢ with hloop
  · obtain ⟨msg, q, -, hmsg, -⟩ := h.sound.dequeue hloop.2.1
    simp only [hmsg] at hsound ⊢
    have henter := h.enter (r := ⟨id, .processMailbox processed, .handling msg⟩)
      (Finset.notMem_erase id _) (.inl ⟨processed, rfl⟩) hsound rfl rfl
    rw [Finset.insert_erase hid] at henter
    exact henter
  · exact h.processEnd

theorem Exclusive.processMailbox {s : Node V} {id : ActorId}
    (h : Exclusive s.processingActors s) (hidle : TickFindsIdle s (.tick id)) :
    Exclusive (s.processMailbox id).processingActors (s.processMailbox id) := by
  unfold Node.processMailbox
  split_ifs with habsent hempty
  · exact h.of_runners h.sound rfl rfl
  · exact h.of_runners h.sound rfl rfl
  · simp only [not_or, not_not] at habsent
    have hid : id ∉ s.processingActors := by
      intro hid
      exact hidle ⟨hid, habsent.2.1, habsent.1, habsent.2.2, by omega⟩
    apply Exclusive.processLoop
    · change Exclusive ((insert id s.processingActors).erase id) _
      rw [Finset.erase_insert hid]
      exact h.of_runners h.sound rfl rfl
    · exact Finset.mem_insert_self _ _

theorem Exclusive.syncLocalCall {s : Node V} {id : ActorId}
    (h : Exclusive s.processingActors s) (hid : id ∉ s.processingActors)
    (msg : StashedMessage V) :
    Exclusive (s.syncLocalCall id msg).processingActors (s.syncLocalCall id msg) :=
  h.enter (r := ⟨id, .syncLocalCall (s.object id).currentMessage, .handling msg⟩)
    hid (.inr ⟨⟨_, rfl⟩, rfl⟩)
    (h.sound.of_mailbox_eq fun _ => mailbox_setCurrentMessage _ _ _ _) rfl rfl

theorem Exclusive.syncLocalCallFinally {s : Node V} {id : ActorId}
    (h : Exclusive (s.processingActors.erase id) s)
    (prevMessage : Option (StashedMessage V)) :
    Exclusive (s.syncLocalCallFinally id prevMessage).processingActors
      (s.syncLocalCallFinally id prevMessage) := by
  have hsound := h.sound.syncLocalCallFinally id prevMessage
  unfold Node.syncLocalCallFinally at hsound ⊢
  dsimp only at hsound ⊢
  split_ifs at hsound ⊢ <;> exact h.of_runners hsound rfl rfl

theorem Exclusive.afterReturn {s : Node V} {id : ActorId} {task : System.Task V}
    {msg : StashedMessage V} (h : Exclusive (s.processingActors.erase id) s)
    (hid : id ∈ s.processingActors) (htask : Locking ⟨id, task, .handling msg⟩)
    (value : V) :
    Exclusive (s.afterReturn id msg value task).processingActors
      (s.afterReturn id msg value task) := by
  rcases htask with ⟨n, rfl⟩ | ⟨⟨prev, rfl⟩, -⟩
  · unfold Node.afterReturn
    dsimp only
    apply Exclusive.processLoop
    · split_ifs <;> exact h.of_runners
        (h.sound.of_mailbox_eq fun _ => mailbox_setCurrentMessage _ _ _ _) rfl rfl
    · split_ifs <;> exact hid
  · apply Exclusive.syncLocalCallFinally
    split_ifs <;> exact h.of_runners h.sound rfl rfl

theorem Exclusive.afterThrow {s : Node V} {id : ActorId} {task : System.Task V}
    {msg : StashedMessage V} (h : Exclusive (s.processingActors.erase id) s)
    (hid : id ∈ s.processingActors) (htask : Locking ⟨id, task, .handling msg⟩)
    (error : V) :
    Exclusive (s.afterThrow id msg error task).processingActors
      (s.afterThrow id msg error task) := by
  rcases htask with ⟨n, rfl⟩ | ⟨⟨prev, rfl⟩, -⟩
  · have hclear : Sound (s.setCurrentMessage id none) :=
      h.sound.of_mailbox_eq fun _ => mailbox_setCurrentMessage _ _ _ _
    unfold Node.afterThrow
    dsimp only
    split_ifs
    · apply Exclusive.processLoop
      · exact h.of_runners hclear rfl rfl
      · exact hid
    · apply Exclusive.processLoop
      · exact h.of_runners hclear rfl rfl
      · exact hid
    · have henter := h.enter (r := ⟨id, .processMailbox n, .crashing⟩)
        (t := s.push ⟨id, .processMailbox n, .crashing⟩)
        (Finset.notMem_erase id _) (.inl ⟨n, rfl⟩) h.sound rfl rfl
      rw [Finset.insert_erase hid] at henter
      exact henter
  · apply Exclusive.syncLocalCallFinally
    exact h.of_runners h.sound rfl rfl

/-! ## Steps and runs -/

/-- While every tick finds its actor idle, locks and runners stay balanced. -/
theorem exclusive_step {s t : Node V} {a : Action V}
    (h : Exclusive s.processingActors s) (ha : LocalAction a)
    (hidle : TickFindsIdle s a) (hst : s.step a = some t) :
    Exclusive t.processingActors t := by
  have hsound : Sound t := by
    apply sound_step h.sound _ hst
    cases a <;> simp_all [LocalAction, InjectsMessages]
  by_cases hpassive : IsPassive a
  · have hp := passive_step hpassive hst
    rw [hp.processingActors]
    exact h.of_runners hsound hp.stack hp.suspended
  cases a with
  | spawn config initThrows =>
      cases hst
      unfold Node.spawn at hsound ⊢
      split_ifs at hsound ⊢
      · exact h.of_runners hsound rfl rfl
      · have hp := (Passive.refl (s.install config)).scheduleProcessMailbox s.nextId
        rw [hp.processingActors]
        exact h.of_runners hsound hp.stack hp.suspended
  | remove id => cases hst; exact h.of_runners hsound rfl rfl
  | dispatchCall id message =>
      cases hst
      unfold Node.dispatchCall at hsound ⊢
      split_ifs at hsound ⊢ with hlocal hfast
      · apply Exclusive.syncLocalCall
        · exact h.of_runners h.sound rfl rfl
        · exact hfast.1
      · have hp := passive_enqueueCall s id message
        rw [hp.processingActors]
        exact h.of_runners hsound hp.stack hp.suspended
      · exact h
  | tick id =>
      obtain ⟨-, -, rfl⟩ := tick_some hst
      apply Exclusive.processMailbox
      · exact h.of_runners h.sound rfl rfl
      · exact hidle
  | handlerAwaits =>
      obtain ⟨id, task, msg, rest, hstack, hcase⟩ := handlerAwaits_some hst
      obtain ⟨hid, hlocking, -⟩ := h.leave hstack
      rcases hcase with ⟨prev, rfl, -⟩ | ⟨-, rfl⟩
      · simp [Locking] at hlocking
      · have hperm := runners_perm_suspend hstack
        refine ⟨hsound, h.balanced.perm hperm, fun r hr => ?_, ?_⟩
        · exact h.locking r (hperm.mem_iff.2 hr)
        · change ∀ r ∈ s.suspended ++ [_], r.isHandling
          rw [List.forall_mem_append, List.forall_mem_singleton]
          exact ⟨h.suspended, rfl⟩
  | handlerResumes index =>
      obtain ⟨r, hstack, hr, rfl⟩ := handlerResumes_some hst
      have hperm := runners_perm_resume hstack hr
      refine ⟨hsound, h.balanced.perm hperm, fun r' hr' => ?_, fun r' hr' => ?_⟩
      · exact h.locking r' (hperm.mem_iff.2 hr')
      · exact h.suspended r' (List.mem_of_mem_eraseIdx hr')
  | handlerReturns value =>
      obtain ⟨id, task, msg, rest, hstack, rfl⟩ := handlerReturns_some hst
      obtain ⟨hid, hlocking, hleft⟩ := h.leave hstack
      apply Exclusive.afterReturn
      · exact hleft
      · exact hid
      · exact hlocking
  | handlerThrows error =>
      obtain ⟨id, task, msg, rest, hstack, rfl⟩ := handlerThrows_some hst
      obtain ⟨hid, hlocking, hleft⟩ := h.leave hstack
      apply Exclusive.afterThrow
      · exact hleft
      · exact hid
      · exact hlocking
  | crashHandled =>
      obtain ⟨id, task, rest, hstack, hcase⟩ := crashHandled_some hst
      obtain ⟨-, hlocking, hleft⟩ := h.leave hstack
      rcases hcase with ⟨n, rfl, rfl⟩ | ⟨prev, rfl, -⟩ | ⟨hne, -⟩
      · apply Exclusive.processEnd
        exact hleft.of_runners
          (h.sound.of_mailbox_eq fun _ => mailbox_setCurrentMessage _ _ _ _) rfl rfl
      · simp [Locking] at hlocking
      · rcases hlocking with ⟨n, hn⟩ | ⟨-, hcrash⟩
        · exact absurd hn (hne n)
        · cases hcrash
  | rpcCall id message | rpcCast id message | syncLocalCast id message => cases ha
  | dispatchCast | stash | unstash | unstashAll | clearStash | pauseMailbox
  | resumeMailbox | injectMessages => exact absurd trivial hpassive

theorem length_openHandlers_processMailbox {s : Node V} {id : ActorId}
    (hsound : Sound s) (hactor : id ∈ s.actors) (hmailbox : id ∈ s.mailboxes)
    (hpaused : id ∉ s.pausedMailboxes) (hpos : 0 < (s.mailbox id).length) :
    (openHandlers (s.processMailbox id) id).length =
      (openHandlers s id).length + 1 := by
  obtain ⟨msg, q, -, hmsg, -⟩ := hsound.dequeue hpos
  rw [processMailbox_start hactor hmailbox hpaused hpos hmsg]
  simp [openHandlers, runners, Runner.isHandling]

/-- A tick that finds its actor busy opens a second handler. -/
theorem not_mutualExclusion_of_busy {s t : Node V} {a : Action V}
    (h : Exclusive s.processingActors s) (hbusy : ¬ TickFindsIdle s a)
    (hst : s.step a = some t) : ¬ MutualExclusion t := by
  cases a with
  | tick id =>
      simp only [TickFindsIdle, not_not] at hbusy
      obtain ⟨hid, hactor, hmailbox, hpaused, hpos⟩ := hbusy
      obtain ⟨hstack, -, rfl⟩ := tick_some hst
      -- the runner that holds the lock is suspended, for the stack is empty
      obtain ⟨r, hr, hrid⟩ := List.mem_map.1 ((h.balanced.mem_iff id).2 hid)
      have hr' : r ∈ s.suspended := by simpa [runners, hstack] using hr
      have hopen : r ∈ openHandlers s id := by
        simp [openHandlers, hr, hrid, h.suspended r hr']
      have hlen := List.length_pos_of_mem hopen
      intro hexcl
      have hle := hexcl id
      have hsucc := length_openHandlers_processMailbox
        (s := { s with immediates := s.immediates.erase id })
        h.sound hactor hmailbox hpaused hpos
      rw [hsucc] at hle
      change (openHandlers s id).length + 1 ≤ 1 at hle
      omega
  | _ => simp [TickFindsIdle] at hbusy

/-- A run of local message passing keeps mutual exclusion if and only if no
tick of the run finds its actor busy. -/
theorem mutualExclusion_iff {s : Node V} {as : List (Action V)}
    (hlocal : ∀ a ∈ as, LocalAction a) (hrun : run Node.step init as = some s) :
    Throughout Node.step MutualExclusion init as ↔
      Along Node.step TickFindsIdle init as :=
  throughout_iff_along (I := fun s => Exclusive s.processingActors s)
    (fun _ _ _ hs ha hidle hst => exclusive_step hs ha hidle hst)
    (fun _ hs => hs.mutualExclusion)
    (fun _ _ _ hs _ hbusy hst => not_mutualExclusion_of_busy hs hbusy hst)
    exclusive_init (along_of_forall_mem hlocal init) hrun

/-- `spawn` queued a tick; a call takes the fast path and awaits, a cast is
queued, and the tick starts it. -/
def overlappingRun : List (Action Nat) :=
  [.spawn {} false, .dispatchCall 0 1, .handlerAwaits, .dispatchCast 0 2, .tick 0]

theorem overlappingRun_violates :
    (∀ a ∈ overlappingRun, LocalAction a) ∧
      ∃ s, run Node.step init overlappingRun = some s ∧ ¬ MutualExclusion s := by
  have hopen : (run Node.step init overlappingRun).map
      (fun s => (openHandlers s 0).length) = some 2 := by decide
  obtain ⟨s, hs, hlen⟩ := Option.map_eq_some_iff.1 hopen
  refine ⟨by simp [overlappingRun, LocalAction, InjectsMessages], s, hs, ?_⟩
  intro hexcl
  have hle := hexcl 0
  omega

/-- Without the pending tick the same messages are handled one at a time. -/
theorem mutualExclusion_iff_tick_first :
    Throughout Node.step MutualExclusion (init : Node Nat)
      [.spawn {} false, .tick 0, .dispatchCall 0 1, .handlerAwaits,
        .dispatchCast 0 2] := by
  have hlocal : ∀ a ∈ ([.spawn {} false, .tick 0, .dispatchCall 0 1, .handlerAwaits,
      .dispatchCast 0 2] : List (Action Nat)), LocalAction a := by
    simp [LocalAction, InjectsMessages]
  refine (mutualExclusion_iff hlocal rfl).2 ⟨trivial, ?_⟩
  rintro t ht
  cases ht
  refine ⟨fun hbusy => absurd hbusy.1 (by decide), ?_⟩
  rintro t ht
  exact ⟨trivial, fun _ _ => ⟨trivial, fun _ _ => ⟨trivial, fun _ _ => trivial⟩⟩⟩

end Libeam.Proofs.Exclusion
