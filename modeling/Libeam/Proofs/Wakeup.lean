import Libeam.Proofs.MailboxSound
/-!
# No lost wakeup

An actor with messages to take is woken by a token: a `processMailbox` tick that
is queued, or a runner that looks at the mailbox again when it ends.  Overlapping
runners share the flag in `mailboxScheduled`, so the invariant is about tokens:
the flag promises one, and so does a mailbox that is not empty.  While a runner
is between two of its steps its actor is `owed` a token.
-/

namespace Libeam.Proofs.Wakeup

open Mailbox Lib.Transition Libeam.System Libeam.System.Node Proofs.Frame MailboxSound

variable {V : Type}

/-- A batch of `processMailbox` or a `_syncLocalCall`. -/
def Drains (r : Runner V) : Prop :=
  (∃ n, r.task = .processMailbox n) ∨ ∃ prev, r.task = .syncLocalCall prev

def TickPending (s : Node V) (id : ActorId) : Prop := id ∈ s.immediates

def RunnerActive (s : Node V) (id : ActorId) : Prop :=
  ∃ r ∈ s.runners, r.id = id ∧ Drains r

def Token (s : Node V) (id : ActorId) : Prop := TickPending s id ∨ RunnerActive s id

/-- The actor has something to take and may take it. -/
def Waiting (s : Node V) (id : ActorId) : Prop :=
  id ∈ s.actors ∧ 0 < (s.mailbox id).length ∧ id ∉ s.pausedMailboxes

structure Wakeful (owed : Finset ActorId) (s : Node V) : Prop where
  tables : s.actors = s.mailboxes
  /-- A synchronous call never ends in `handleCrash`. -/
  calls : ∀ r ∈ s.runners, ∀ prev, r.task = .syncLocalCall prev → r.isHandling
  waiting : ∀ id ∉ owed, Waiting s id → Token s id
  scheduled : ∀ id ∉ owed, id ∈ s.mailboxScheduled → Token s id

theorem wakeful_init : Wakeful ∅ (init : Node V) where
  tables := rfl
  calls := by simp [runners, init]
  waiting := by simp [Waiting, init]
  scheduled := by simp [init]

/-- The flags, tables and runners that tokens depend on. -/
structure Schedule (V : Type) where
  actors : Finset ActorId
  mailboxes : Finset ActorId
  pausedMailboxes : Finset ActorId
  mailboxScheduled : Finset ActorId
  immediates : List ActorId
  stack : List (Runner V)
  suspended : List (Runner V)

def schedule (s : Node V) : Schedule V :=
  ⟨s.actors, s.mailboxes, s.pausedMailboxes, s.mailboxScheduled, s.immediates,
    s.stack, s.suspended⟩

def Quiet (s t : Node V) : Prop := schedule t = schedule s

section

variable {s t : Node V}

theorem Quiet.actors (h : Quiet s t) : t.actors = s.actors :=
  congrArg Schedule.actors h

theorem Quiet.mailboxes (h : Quiet s t) : t.mailboxes = s.mailboxes :=
  congrArg Schedule.mailboxes h

theorem Quiet.pausedMailboxes (h : Quiet s t) :
    t.pausedMailboxes = s.pausedMailboxes :=
  congrArg Schedule.pausedMailboxes h

theorem Quiet.mailboxScheduled (h : Quiet s t) :
    t.mailboxScheduled = s.mailboxScheduled :=
  congrArg Schedule.mailboxScheduled h

theorem Quiet.immediates (h : Quiet s t) : t.immediates = s.immediates :=
  congrArg Schedule.immediates h

theorem Quiet.stack (h : Quiet s t) : t.stack = s.stack := congrArg Schedule.stack h

theorem Quiet.suspended (h : Quiet s t) : t.suspended = s.suspended :=
  congrArg Schedule.suspended h

end

theorem Quiet.runners {s t : Node V} (h : Quiet s t) : t.runners = s.runners := by
  rw [Node.runners, Node.runners, h.stack, h.suspended]

theorem Quiet.token_iff {s t : Node V} (h : Quiet s t) (id : ActorId) :
    Token t id ↔ Token s id := by
  rw [Token, Token, TickPending, TickPending, RunnerActive, RunnerActive,
    h.immediates, h.runners]

theorem Quiet.refl (s : Node V) : Quiet s s := rfl

theorem Quiet.trans {s t u : Node V} (hst : Quiet s t) (htu : Quiet t u) :
    Quiet s u := Eq.trans htu hst

theorem Quiet.accept {s t : Node V} (h : Quiet s t) (id : ActorId)
    (msg : StashedMessage V) : Quiet s (t.accept id msg) :=
  h.trans rfl

theorem Quiet.rejectEvicted {s t : Node V} (h : Quiet s t)
    (oldest : Option (StashedMessage V)) : Quiet s (t.rejectEvicted oldest) := by
  apply h.trans
  unfold Node.rejectEvicted
  split
  · split_ifs
    · exact rfl
    · exact .refl t
  · exact .refl t

theorem quiet_clearStash (s : Node V) (id : ActorId) : Quiet s (s.clearStash id) := by
  obtain ⟨more, heq⟩ := clearStash_eq s id
  rw [heq]
  exact rfl

theorem Wakeful.mono {owed owed' : Finset ActorId} {s : Node V} (h : Wakeful owed s)
    (hsub : owed ⊆ owed') : Wakeful owed' s where
  tables := h.tables
  calls := h.calls
  waiting := fun id hid => h.waiting id fun hmem => hid (hsub hmem)
  scheduled := fun id hid => h.scheduled id fun hmem => hid (hsub hmem)

/-- Changing a mailbox from empty to not empty owes its actor a token. -/
theorem Wakeful.of_quiet {owed : Finset ActorId} {s t : Node V} (h : Wakeful owed s)
    (hq : Quiet s t)
    (hlen : ∀ id ∉ owed, 0 < (t.mailbox id).length → 0 < (s.mailbox id).length) :
    Wakeful owed t where
  tables := by rw [hq.actors, hq.mailboxes, h.tables]
  calls := by
    rw [hq.runners]
    exact h.calls
  waiting := by
    intro id hid ⟨hactor, hpos, hpaused⟩
    rw [hq.token_iff]
    rw [hq.actors] at hactor
    rw [hq.pausedMailboxes] at hpaused
    exact h.waiting id hid ⟨hactor, hlen id hid hpos, hpaused⟩
  scheduled := by
    intro id hid hsched
    rw [hq.token_iff]
    rw [hq.mailboxScheduled] at hsched
    exact h.scheduled id hid hsched

/-- A step for another actor takes no token away from this one and gives it no
new claim to one. -/
structure Unaffected (s t : Node V) (id : ActorId) : Prop where
  waiting : Waiting t id → Waiting s id
  scheduled : id ∈ t.mailboxScheduled → id ∈ s.mailboxScheduled
  token : Token s id → Token t id

theorem Unaffected.refl (s : Node V) (id : ActorId) : Unaffected s s id :=
  ⟨fun hw => hw, fun hs => hs, fun ht => ht⟩

theorem Wakeful.discharge {s t : Node V} {id : ActorId} (h : Wakeful {id} s)
    (htables : t.actors = t.mailboxes)
    (hcalls : ∀ r ∈ t.runners, ∀ prev, r.task = .syncLocalCall prev → r.isHandling)
    (hothers : ∀ id' ≠ id, Unaffected s t id')
    (hself : Waiting t id ∨ id ∈ t.mailboxScheduled → Token t id) : Wakeful ∅ t := by
  refine ⟨htables, hcalls, fun id' _ hw => ?_, fun id' _ hs => ?_⟩
  · by_cases heq : id' = id
    · exact heq ▸ hself (.inl (heq ▸ hw))
    · have hother := hothers id' heq
      exact hother.token (h.waiting id' (by simpa using heq) (hother.waiting hw))
  · by_cases heq : id' = id
    · exact heq ▸ hself (.inr (heq ▸ hs))
    · have hother := hothers id' heq
      exact hother.token (h.scheduled id' (by simpa using heq) (hother.scheduled hs))

/-- A queued tick is a token, and only for its own actor. -/
theorem token_append_tick {s t : Node V} {id : ActorId}
    (himm : t.immediates = s.immediates ++ [id]) (hrunners : t.runners = s.runners) :
    Token t id ∧ ∀ id', Token s id' → Token t id' := by
  refine ⟨.inl ?_, fun id' htoken => ?_⟩
  · rw [TickPending, himm]
    simp
  · rcases htoken with htick | hrunner
    · left
      rw [TickPending, himm]
      exact List.mem_append_left _ htick
    · right
      rw [RunnerActive, hrunners]
      exact hrunner

/-! ## Scheduling -/

/-- `scheduleProcessMailbox` pays the debt, unless the flag was set in vain. -/
theorem Wakeful.scheduleProcessMailbox {s : Node V} {id : ActorId}
    (h : Wakeful {id} s) (hsched : id ∈ s.mailboxScheduled → Token s id) :
    Wakeful ∅ (s.scheduleProcessMailbox id) := by
  unfold Node.scheduleProcessMailbox
  split_ifs with hmem hpaused hactor
  · exact h.discharge h.tables h.calls (fun id' _ => .refl s id')
      fun _ => hsched hmem
  · refine h.discharge h.tables h.calls (fun id' _ => .refl s id') ?_
    rintro (hw | hs)
    · exact absurd hpaused hw.2.2
    · exact absurd hs hmem
  · obtain ⟨hself, hmono⟩ := token_append_tick (s := s)
      (t := { s with
        mailboxScheduled := insert id s.mailboxScheduled
        immediates := s.immediates ++ [id] }) rfl rfl
    refine h.discharge h.tables h.calls (fun id' hne => ⟨?_, ?_, hmono id'⟩)
      fun _ => hself
    · exact fun hw => hw
    · intro hs
      exact (Finset.mem_insert.1 hs).resolve_left hne
  · refine h.discharge h.tables h.calls (fun id' _ => .refl s id') ?_
    rintro (hw | hs)
    · exact absurd hw.1 hactor
    · exact absurd hs hmem

/-! ## Runners -/

theorem token_of_stack {s t : Node V} {r : Runner V} (himm : t.immediates = s.immediates)
    (hstack : t.stack = r :: s.stack) (hsuspended : t.suspended = s.suspended) :
    (Drains r → Token t r.id) ∧ ∀ id, Token s id → Token t id := by
  have hrunners : t.runners = r :: s.runners := by
    rw [runners, runners, hstack, hsuspended, List.cons_append]
  refine ⟨fun hdrains => .inr ⟨r, by simp [hrunners], rfl, hdrains⟩, fun id => ?_⟩
  rintro (htick | ⟨r', hr', hid⟩)
  · left
    rw [TickPending, himm]
    exact htick
  · right
    exact ⟨r', by simp [hrunners, hr'], hid⟩

/-- A draining runner that enters is itself the token of its actor. -/
theorem Wakeful.enter {s t : Node V} {r : Runner V} (h : Wakeful {r.id} s)
    (hdrains : Drains r)
    (hcall : ∀ prev, r.task = .syncLocalCall prev → r.isHandling)
    (hactors : t.actors = s.actors) (hmailboxes : t.mailboxes = s.mailboxes)
    (hpaused : t.pausedMailboxes = s.pausedMailboxes)
    (himm : t.immediates = s.immediates)
    (hstack : t.stack = r :: s.stack) (hsuspended : t.suspended = s.suspended)
    (hothers : ∀ id ≠ r.id, t.mailbox id = s.mailbox id ∧
      (id ∈ t.mailboxScheduled → id ∈ s.mailboxScheduled)) : Wakeful ∅ t := by
  obtain ⟨hself, hmono⟩ := token_of_stack himm hstack hsuspended
  have hrunners : t.runners = r :: s.runners := by
    rw [runners, runners, hstack, hsuspended, List.cons_append]
  refine h.discharge ?_ ?_ (fun id hne => ⟨?_, (hothers id hne).2, hmono id⟩)
    fun _ => hself hdrains
  · rw [hactors, hmailboxes, h.tables]
  · rw [hrunners, List.forall_mem_cons]
    exact ⟨hcall, h.calls⟩
  · rintro ⟨hactor, hpos, hnot⟩
    rw [hactors] at hactor
    rw [hpaused] at hnot
    rw [(hothers id hne).1] at hpos
    exact ⟨hactor, hpos, hnot⟩

/-- The innermost runner leaves; its actor is owed a token. -/
theorem Wakeful.leave {s : Node V} {r : Runner V} {rest : List (Runner V)}
    (h : Wakeful ∅ s) (hstack : s.stack = r :: rest) :
    Wakeful {r.id} { s with stack := rest } := by
  have hrunners : s.runners = r :: (rest ++ s.suspended) := by
    rw [runners, hstack, List.cons_append]
  have hcalls := h.calls
  rw [hrunners, List.forall_mem_cons] at hcalls
  have htoken : ∀ id, id ≠ r.id → Token s id →
      Token { s with stack := rest } id := by
    rintro id hne (htick | ⟨r', hr', hid, hdrains⟩)
    · exact .inl htick
    · rw [hrunners, List.mem_cons] at hr'
      rcases hr' with rfl | hr'
      · exact absurd hid.symm hne
      · exact .inr ⟨r', hr', hid, hdrains⟩
  refine ⟨h.tables, hcalls.2, fun id hid hw => ?_, fun id hid hs => ?_⟩
  · exact htoken id (by simpa using hid) (h.waiting id (by simp) hw)
  · exact htoken id (by simpa using hid) (h.scheduled id (by simp) hs)

/-- A runner that does not drain leaves no debt. -/
theorem Wakeful.leave_quietly {s : Node V} {r : Runner V} {rest : List (Runner V)}
    (h : Wakeful ∅ s) (hstack : s.stack = r :: rest) (hdrains : ¬ Drains r) :
    Wakeful ∅ { s with stack := rest } := by
  have hrunners : s.runners = r :: (rest ++ s.suspended) := by
    rw [runners, hstack, List.cons_append]
  have hcalls := h.calls
  rw [hrunners, List.forall_mem_cons] at hcalls
  have htoken : ∀ id, Token s id → Token { s with stack := rest } id := by
    rintro id (htick | ⟨r', hr', hid, hdrains'⟩)
    · exact .inl htick
    · rw [hrunners, List.mem_cons] at hr'
      rcases hr' with rfl | hr'
      · exact absurd hdrains' hdrains
      · exact .inr ⟨r', hr', hid, hdrains'⟩
  exact ⟨h.tables, hcalls.2, fun id hid hw => htoken id (h.waiting id hid hw),
    fun id hid hs => htoken id (h.scheduled id hid hs)⟩

/-- Runners that are not batches may enter, and runners may change places. -/
theorem Wakeful.of_runners {s t : Node V} (h : Wakeful ∅ s)
    (hsub : ∀ r ∈ s.runners, r ∈ t.runners)
    (hcalls : ∀ r ∈ t.runners, ∀ prev, r.task = .syncLocalCall prev → r.isHandling)
    (hactors : t.actors = s.actors) (hmailboxes : t.mailboxes = s.mailboxes)
    (hpaused : t.pausedMailboxes = s.pausedMailboxes)
    (hsched : t.mailboxScheduled = s.mailboxScheduled)
    (himm : t.immediates = s.immediates)
    (hmailbox : ∀ id, t.mailbox id = s.mailbox id) : Wakeful ∅ t := by
  have htoken : ∀ id, Token s id → Token t id := by
    rintro id (htick | ⟨r, hr, hid⟩)
    · left
      rw [TickPending, himm]
      exact htick
    · exact .inr ⟨r, hsub r hr, hid⟩
  refine ⟨by rw [hactors, hmailboxes, h.tables], hcalls, fun id hid hw => ?_,
    fun id hid hs => ?_⟩
  · rw [Waiting, hactors, hpaused, hmailbox] at hw
    exact htoken id (h.waiting id hid hw)
  · rw [hsched] at hs
    exact htoken id (h.scheduled id hid hs)

theorem Wakeful.push {s t : Node V} {r : Runner V} (h : Wakeful ∅ s)
    (hcall : ∀ prev, r.task ≠ .syncLocalCall prev)
    (hq : Quiet (s.push r) t) (hmailbox : ∀ id, t.mailbox id = s.mailbox id) :
    Wakeful ∅ t := by
  have hrunners : t.runners = r :: s.runners := by rw [hq.runners]; rfl
  apply h.of_runners _ _ hq.actors hq.mailboxes hq.pausedMailboxes
    hq.mailboxScheduled hq.immediates hmailbox
  · intro r' hr'
    rw [hrunners]
    exact List.mem_cons_of_mem r hr'
  · rw [hrunners, List.forall_mem_cons]
    exact ⟨fun prev hp => absurd hp (hcall prev), h.calls⟩

/-! ## The ends of the runners -/

theorem Wakeful.processEnd {s : Node V} {id : ActorId} (h : Wakeful {id} s) :
    Wakeful ∅ (s.processEnd id) := by
  unfold Node.processEnd
  dsimp only
  split_ifs with hmore
  · obtain ⟨hself, hmono⟩ := token_append_tick (s := s) (t := { s with
        processingActors := s.processingActors.erase id
        immediates := s.immediates ++ [id] }) rfl rfl
    exact h.discharge h.tables h.calls
      (fun id' _ => ⟨fun hw => hw, fun hs => hs, hmono id'⟩) fun _ => hself
  · refine h.discharge h.tables h.calls
      (fun id' _ => ⟨fun hw => hw, fun hs => Finset.mem_of_mem_erase hs,
        fun ht => ht⟩) ?_
    rintro (⟨hactor, hpos, hnot⟩ | hs)
    · have hmailbox : id ∈ s.mailboxes := h.tables ▸ hactor
      exact absurd ⟨hactor, hmailbox, hnot, hpos⟩ hmore
    · exact absurd hs (Finset.notMem_erase _ _)

theorem Wakeful.syncLocalCallFinally {s : Node V} {id : ActorId}
    (h : Wakeful {id} s) (prevMessage : Option (StashedMessage V)) :
    Wakeful ∅ (s.syncLocalCallFinally id prevMessage) := by
  have hset : Wakeful {id} (s.setCurrentMessage id prevMessage) :=
    h.of_quiet rfl fun id' _ hpos => by
      rwa [mailbox_setCurrentMessage] at hpos
  unfold Node.syncLocalCallFinally
  dsimp only
  generalize s.setCurrentMessage id prevMessage = s' at hset
  split_ifs with hmore
  · obtain ⟨hself, hmono⟩ := token_append_tick (s := s') (t := { s' with
        processingActors := s'.processingActors.erase id
        immediates := s'.immediates ++ [id] }) rfl rfl
    exact hset.discharge hset.tables hset.calls
      (fun id' _ => ⟨fun hw => hw, fun hs => hs, hmono id'⟩) fun _ => hself
  · refine hset.discharge hset.tables hset.calls
      (fun id' _ => ⟨fun hw => hw, fun hs => Finset.mem_of_mem_erase hs,
        fun ht => ht⟩) ?_
    rintro (⟨hactor, hpos, hnot⟩ | hs)
    · exact absurd ⟨hpos, hactor, hnot⟩ hmore
    · exact absurd hs (Finset.notMem_erase _ _)

theorem Wakeful.processLoop {s : Node V} {id : ActorId} (h : Wakeful {id} s)
    (processed : Nat) : Wakeful ∅ (s.processLoop id processed) := by
  unfold Node.processLoop
  split_ifs with hloop
  · have hmailbox : ∀ id' ≠ id, ∀ msg, ((s.setMailbox id
        (s.mailbox id).dequeue.1).setCurrentMessage id msg).mailbox id' =
          s.mailbox id' := by
      intro id' hne msg
      rw [mailbox_setCurrentMessage, mailbox_setMailbox, if_neg hne]
    dsimp only
    split
    · exact h.enter (r := ⟨id, .processMailbox processed, .handling _⟩)
        (.inl ⟨processed, rfl⟩) (fun _ hcall => by cases hcall) rfl rfl rfl rfl rfl rfl
        fun id' hne => ⟨hmailbox id' hne _, fun hs => hs⟩
    · exact h.enter (r := ⟨id, .processMailbox processed, .crashing⟩)
        (.inl ⟨processed, rfl⟩) (fun _ hcall => by cases hcall) rfl rfl rfl rfl rfl rfl
        fun id' hne => ⟨hmailbox id' hne _, fun hs => hs⟩
  · exact h.processEnd

/-- A tick that finds nothing to take drops the flag. -/
theorem Wakeful.drop_flag {s : Node V} {id : ActorId} (h : Wakeful {id} s)
    (hidle : ¬ Waiting s id) :
    Wakeful ∅ { s with mailboxScheduled := s.mailboxScheduled.erase id } := by
  refine h.discharge h.tables h.calls
    (fun id' _ => ⟨fun hw => hw, fun hs => Finset.mem_of_mem_erase hs, fun ht => ht⟩) ?_
  rintro (hw | hs)
  · exact absurd hw hidle
  · exact absurd hs (Finset.notMem_erase _ _)

theorem Wakeful.processMailbox {s : Node V} {id : ActorId} (h : Wakeful {id} s) :
    Wakeful ∅ (s.processMailbox id) := by
  unfold Node.processMailbox
  split_ifs with habsent hempty
  · apply h.drop_flag
    rintro ⟨hactor, -, hnot⟩
    have hmailbox : id ∈ s.mailboxes := h.tables ▸ hactor
    simp [hactor, hmailbox, hnot] at habsent
  · apply h.drop_flag
    rintro ⟨-, hpos, -⟩
    omega
  · apply Wakeful.processLoop
    exact h.of_quiet rfl fun _ _ hpos => hpos

/-! ## Steps and runs -/

/-- Changing one mailbox and scheduling its actor leaves no debt. -/
theorem Wakeful.queue {s t : Node V} {id : ActorId} (h : Wakeful ∅ s) (hq : Quiet s t)
    (hmailbox : ∀ id' ≠ id, t.mailbox id' = s.mailbox id') :
    Wakeful ∅ (t.scheduleProcessMailbox id) := by
  apply Wakeful.scheduleProcessMailbox
  · apply (h.mono (Finset.empty_subset {id})).of_quiet hq
    intro id' hid hpos
    rwa [hmailbox id' (by simpa using hid)] at hpos
  · intro hs
    rw [hq.token_iff]
    rw [hq.mailboxScheduled] at hs
    exact h.scheduled id (by simp) hs

/-- `s` after `msg` was handed to `enqueue` of the mailbox of `id`. -/
structure Enqueued (s t : Node V) (id : ActorId) (msg : StashedMessage V) : Prop where
  quiet : Quiet s t
  object : t.object = (s.setMailbox id ((s.mailbox id).enqueue msg).1).object

theorem Enqueued.mailbox_of_ne {s t : Node V} {id id' : ActorId}
    {msg : StashedMessage V} (h : Enqueued s t id msg) (hne : id' ≠ id) :
    t.mailbox id' = s.mailbox id' := by
  rw [mailbox, h.object, ← mailbox, mailbox_setMailbox, if_neg hne]

/-- An accepted message is announced. -/
theorem Wakeful.accepted {s t : Node V} {id : ActorId} {msg : StashedMessage V}
    (h : Wakeful ∅ s) (he : Enqueued s t id msg) :
    Wakeful ∅ ((t.accept id msg).scheduleProcessMailbox id) :=
  h.queue (he.quiet.accept id msg) fun _ hne => he.mailbox_of_ne hne

theorem Wakeful.evicted {s t : Node V} {id : ActorId} {msg : StashedMessage V}
    (h : Wakeful ∅ s) (he : Enqueued s t id msg)
    (oldest : Option (StashedMessage V)) :
    Wakeful ∅ (((t.rejectEvicted oldest).accept id msg).scheduleProcessMailbox id) := by
  apply h.queue ((he.quiet.rejectEvicted oldest).accept id msg)
  intro id' hne
  rw [← he.mailbox_of_ne hne]
  exact mailbox_rejectEvicted t oldest id'

/-- A refused message leaves its actor as it was. -/
theorem Wakeful.refused {s t : Node V} {id : ActorId} {msg : StashedMessage V}
    (h : Wakeful ∅ s) (he : Enqueued s t id msg)
    (hres : ((s.mailbox id).enqueue msg).2 = .refused ∨
      ((s.mailbox id).enqueue msg).2 = .full) : Wakeful ∅ t := by
  apply h.of_quiet he.quiet
  intro id' _ hpos
  by_cases hid : id' = id
  · rw [hid, mailbox, he.object, ← mailbox, mailbox_setMailbox_self,
      MailboxQueue.length_enqueue_of_refused hres] at hpos
    rwa [hid]
  · rwa [he.mailbox_of_ne hid] at hpos

theorem Wakeful.queues {s t : Node V} (h : Wakeful ∅ s) {id : ActorId} {msg : StashedMessage V}
    {awaited : Finset Nat} (hqueues : Queues s (Frame.queue s id msg awaited) id msg t) :
    Wakeful ∅ t := by
  have he : Enqueued s (Frame.queue s id msg awaited) id msg := ⟨rfl, rfl⟩
  cases hqueues with
  | unsent => exact h
  | accepted => exact h.accepted he
  | evicted => exact h.evicted he _
  | refused => exact h.queue he.quiet fun _ hne => he.mailbox_of_ne hne
  | full hfull => exact h.refused he (.inr hfull)
  | rejected hlost => exact (h.refused he hlost).of_quiet rfl fun _ _ hpos => hpos

/-- The fast path: the runner of the call is the token. -/
theorem Wakeful.syncLocalCall {s : Node V} (h : Wakeful ∅ s) (id : ActorId)
    (msg : StashedMessage V) : Wakeful ∅ (s.syncLocalCall id msg) := by
  have hid : Wakeful {id} s := h.mono (Finset.empty_subset _)
  have hothers : ∀ id' ≠ id, (s.syncLocalCall id msg).mailbox id' = s.mailbox id' ∧
      (id' ∈ (s.syncLocalCall id msg).mailboxScheduled → id' ∈ s.mailboxScheduled) := by
    intro id' hne
    refine ⟨mailbox_setCurrentMessage _ _ _ _, fun hs => ?_⟩
    exact (Finset.mem_insert.1 hs).resolve_left hne
  exact hid.enter (r := ⟨id, .syncLocalCall (s.object id).currentMessage,
    .handling msg⟩) (.inr ⟨_, rfl⟩) (fun _ _ => rfl) rfl rfl rfl rfl rfl rfl hothers

theorem Wakeful.dispatchCall {s : Node V} (h : Wakeful ∅ s) (id : ActorId)
    (message : V) : Wakeful ∅ (s.dispatchCall id message) := by
  unfold Node.dispatchCall
  split_ifs
  · apply Wakeful.syncLocalCall
    exact h.of_quiet rfl fun _ _ hpos => hpos
  · exact h.queues (enqueueCall_queues s id message)
  · exact h

theorem Wakeful.setMailbox_schedule {s : Node V} (h : Wakeful ∅ s) (id : ActorId)
    (mb : BoundedMailbox (StashedMessage V)) :
    Wakeful ∅ ((s.setMailbox id mb).scheduleProcessMailbox id) :=
  h.queue rfl fun id' hne => by
    rw [mailbox_setMailbox, if_neg hne]

theorem Wakeful.systemUnstashAll {s : Node V} (h : Wakeful ∅ s) (id : ActorId)
    (messages : List (StashedMessage V)) :
    Wakeful ∅ (s.systemUnstashAll id messages) := by
  unfold Node.systemUnstashAll
  split_ifs
  · exact h.setMailbox_schedule id _
  · exact h

theorem Wakeful.setStash {s : Node V} (h : Wakeful ∅ s) (id : ActorId)
    (stash : List (StashedMessage V)) : Wakeful ∅ (s.setStash id stash) :=
  h.of_quiet rfl fun _ _ hpos => by
    rwa [mailbox_setStash] at hpos

theorem Wakeful.setCurrentMessage {owed : Finset ActorId} {s : Node V}
    (h : Wakeful owed s) (id : ActorId) (msg : Option (StashedMessage V)) :
    Wakeful owed (s.setCurrentMessage id msg) :=
  h.of_quiet rfl fun _ _ hpos => by
    rwa [mailbox_setCurrentMessage] at hpos

theorem Wakeful.install {s : Node V} (h : Wakeful ∅ s) (config : MailboxConfig) :
    Wakeful {s.nextId} (s.install config) := by
  refine ⟨?_, h.calls, fun id hid hw => ?_, fun id _ hs => h.scheduled id (by simp) hs⟩
  · rw [install_actors, install_mailboxes, h.tables]
  · have hne : id ≠ s.nextId := by simpa using hid
    obtain ⟨hactor, hpos, hnot⟩ := hw
    rw [install_actors, Finset.mem_insert] at hactor
    rw [mailbox, install_object, Function.update_of_ne hne] at hpos
    exact h.waiting id (by simp) ⟨hactor.resolve_left hne, hpos, hnot⟩

/-- The new mailbox is empty, so its instance waits for nothing. -/
theorem Wakeful.spawn {s : Node V} (h : Wakeful ∅ s) (config : MailboxConfig)
    (initThrows : Bool) : Wakeful ∅ (s.spawn config initThrows) := by
  have hinstall := h.install config
  have hsched : s.nextId ∈ (s.install config).mailboxScheduled →
      Token (s.install config) s.nextId := fun hs => h.scheduled s.nextId (by simp) hs
  unfold Node.spawn
  split_ifs
  · apply hinstall.discharge hinstall.tables hinstall.calls fun id' _ => .refl _ id'
    rintro (⟨-, hpos, -⟩ | hs)
    · rw [mailbox, install_object, Function.update_self] at hpos
      exact absurd hpos (Nat.lt_irrefl 0)
    · exact hsched hs
  · exact hinstall.scheduleProcessMailbox hsched

theorem Wakeful.remove {s : Node V} (h : Wakeful ∅ s) (id : ActorId) :
    Wakeful ∅ (s.remove id) := by
  refine ⟨by rw [remove_actors, remove_mailboxes, h.tables], h.calls,
    fun id' hid hw => ?_, fun id' hid hs => ?_⟩
  · exact h.waiting id' hid ⟨Finset.mem_of_mem_erase hw.1, hw.2⟩
  · exact h.scheduled id' hid (Finset.mem_of_mem_erase hs)

theorem Wakeful.afterReturn {s : Node V} {id : ActorId} {task : System.Task V}
    {msg : StashedMessage V} (h : Wakeful {id} s) (htask : Drains ⟨id, task, .handling msg⟩)
    (value : V) : Wakeful ∅ (s.afterReturn id msg value task) := by
  have hsettled : ∀ t : Node V, Quiet s t → t.object = s.object → Wakeful {id} t := by
    intro t hq hobject
    apply h.of_quiet hq
    intro id' _ hpos
    rwa [mailbox, hobject] at hpos
  rcases htask with ⟨n, rfl⟩ | ⟨prev, rfl⟩
  · unfold Node.afterReturn
    apply Wakeful.processLoop
    apply Wakeful.setCurrentMessage
    split_ifs
    · exact hsettled _ rfl rfl
    · exact h
  · unfold Node.afterReturn
    apply Wakeful.syncLocalCallFinally
    split_ifs <;> exact hsettled _ rfl rfl

theorem Wakeful.afterThrow {s : Node V} {id : ActorId} {task : System.Task V}
    {msg : StashedMessage V} (h : Wakeful {id} s) (htask : Drains ⟨id, task, .handling msg⟩)
    (error : V) : Wakeful ∅ (s.afterThrow id msg error task) := by
  have hsettled : ∀ r, Wakeful {id} (s.settle msg.uid r) := fun r =>
    h.of_quiet rfl fun _ _ hpos => hpos
  rcases htask with ⟨n, rfl⟩ | ⟨prev, rfl⟩
  · unfold Node.afterThrow
    split_ifs
    · exact (h.setCurrentMessage id none).processLoop _
    · exact ((hsettled _).setCurrentMessage id none).processLoop _
    · exact h.enter (r := ⟨id, .processMailbox n, .crashing⟩) (.inl ⟨n, rfl⟩)
        (fun _ hcall => by cases hcall) rfl rfl rfl rfl rfl rfl
        fun id' _ => ⟨rfl, fun hs => hs⟩
  · exact (hsettled _).syncLocalCallFinally prev

/-- Tasks other than batches and synchronous calls end without the mailbox. -/
theorem Wakeful.afterReturn_quiet {s : Node V} {id : ActorId} {task : System.Task V}
    {msg : StashedMessage V} (h : Wakeful ∅ s)
    (htask : ¬ Drains ⟨id, task, .handling msg⟩) (value : V) :
    Wakeful ∅ (s.afterReturn id msg value task) := by
  cases task with
  | processMailbox n => exact absurd (.inl ⟨n, rfl⟩) htask
  | syncLocalCall prev => exact absurd (.inr ⟨prev, rfl⟩) htask
  | syncLocalCast prev =>
      exact (h.setCurrentMessage id prev).of_quiet rfl
        fun _ _ hpos => hpos
  | abandoned | rpcCall | rpcCast => exact h

theorem Wakeful.afterThrow_quiet {s : Node V} {id : ActorId} {task : System.Task V}
    {msg : StashedMessage V} (h : Wakeful ∅ s)
    (htask : ¬ Drains ⟨id, task, .handling msg⟩) (error : V) :
    Wakeful ∅ (s.afterThrow id msg error task) := by
  have hcrash : ∀ task, (∀ prev, task ≠ .syncLocalCall prev) →
      Wakeful ∅ (s.push ⟨id, task, .crashing⟩) := fun task hne =>
    h.push hne
      rfl fun _ => rfl
  cases task with
  | processMailbox n => exact absurd (.inl ⟨n, rfl⟩) htask
  | syncLocalCall prev => exact absurd (.inr ⟨prev, rfl⟩) htask
  | syncLocalCast | rpcCast => exact hcrash _ (by simp)
  | abandoned | rpcCall => exact h

theorem wakeful_step {s t : Node V} {a : Action V} (h : Wakeful ∅ s)
    (hst : s.step a = some t) : Wakeful ∅ t := by
  cases a with
  | spawn config initThrows => cases hst; exact h.spawn config initThrows
  | remove id => cases hst; exact h.remove id
  | dispatchCast id message => cases hst; exact h.queues (dispatchCast_queues s id message)
  | dispatchCall id message => cases hst; exact h.dispatchCall id message
  | rpcCall id message =>
      cases hst
      unfold handleRpcCall
      split_ifs
      · exact h.push (fun _ => by simp)
          rfl fun _ => rfl
      · exact h
  | rpcCast id message =>
      cases hst
      unfold handleRpcCast
      split_ifs
      · exact h.push (fun _ => by simp)
          rfl fun _ => rfl
      · exact h
  | syncLocalCast id message =>
      cases hst
      unfold Node.syncLocalCast
      split_ifs
      · exact h
      · exact h.push (fun _ => by simp)
          rfl fun _ => mailbox_setCurrentMessage _ _ _ _
  | tick id =>
      obtain ⟨-, -, rfl⟩ := tick_some hst
      apply Wakeful.processMailbox
      have htoken : ∀ id' ≠ id, Token s id' →
          Token { s with immediates := s.immediates.erase id } id' := by
        rintro id' hne (htick | hrunner)
        · exact .inl ((List.mem_erase_of_ne hne).2 htick)
        · exact .inr hrunner
      refine ⟨h.tables, h.calls, fun id' hid hw => ?_, fun id' hid hs => ?_⟩
      · exact htoken id' (by simpa using hid) (h.waiting id' (by simp) hw)
      · exact htoken id' (by simpa using hid) (h.scheduled id' (by simp) hs)
  | handlerAwaits =>
      obtain ⟨id, task, msg, rest, hstack, ⟨prev, rfl, rfl⟩ | ⟨-, rfl⟩⟩ :=
        handlerAwaits_some hst
      · -- the promise stays behind; nothing that drains comes or goes
        have hleft := h.leave_quietly hstack (by simp [Drains])
        refine hleft.of_runners (fun r hr => ?_) (fun r hr => ?_) rfl rfl rfl rfl rfl
          fun _ => mailbox_setCurrentMessage _ _ _ _
        · rw [runners, List.mem_append] at hr ⊢
          exact hr.imp_right (List.mem_append_left _)
        · have hmem : r ∈ rest ++ (s.suspended ++ [⟨id, .abandoned, .handling msg⟩]) := hr
          rw [← List.append_assoc, List.mem_append, List.mem_singleton] at hmem
          rcases hmem with hmem | rfl
          · exact hleft.calls r hmem
          · exact fun _ _ => rfl
      · have hperm := runners_perm_suspend hstack
        exact h.of_runners (fun r => hperm.mem_iff.1)
          (fun r hr => h.calls r (hperm.mem_iff.2 hr)) rfl rfl rfl rfl rfl fun _ => rfl
  | handlerResumes index =>
      obtain ⟨r, hstack, hr, rfl⟩ := handlerResumes_some hst
      have hperm := runners_perm_resume hstack hr
      exact h.of_runners (fun r => hperm.mem_iff.1)
        (fun r hr => h.calls r (hperm.mem_iff.2 hr)) rfl rfl rfl rfl rfl fun _ => rfl
  | handlerReturns value =>
      obtain ⟨id, task, msg, rest, hstack, rfl⟩ := handlerReturns_some hst
      by_cases hdrains : Drains (⟨id, task, .handling msg⟩ : Runner V)
      · exact (h.leave hstack).afterReturn hdrains value
      · exact (h.leave_quietly hstack hdrains).afterReturn_quiet hdrains value
  | handlerThrows error =>
      obtain ⟨id, task, msg, rest, hstack, rfl⟩ := handlerThrows_some hst
      by_cases hdrains : Drains (⟨id, task, .handling msg⟩ : Runner V)
      · exact (h.leave hstack).afterThrow hdrains error
      · exact (h.leave_quietly hstack hdrains).afterThrow_quiet hdrains error
  | crashHandled =>
      obtain ⟨id, task, rest, hstack, hcase⟩ := crashHandled_some hst
      rcases hcase with ⟨n, rfl, rfl⟩ | ⟨prev, rfl, rfl⟩ | ⟨hne, rfl⟩
      · exact ((h.leave hstack).setCurrentMessage id none).processEnd
      · have hleft := h.leave_quietly hstack (by simp [Drains])
        exact (hleft.setCurrentMessage id prev).of_quiet
          rfl fun _ _ hpos => hpos
      · apply h.leave_quietly hstack
        rintro (⟨n, hn⟩ | ⟨prev, hprev⟩)
        · exact hne n hn
        · have hhandling := h.calls _ (by simp [runners, hstack]) prev hprev
          cases hhandling
  | stash id =>
      cases hst
      unfold Node.stash
      split
      · exact h.setStash id _
      · exact h
  | unstash id =>
      cases hst
      unfold Node.unstash
      split
      · exact h
      · exact (h.setStash id _).systemUnstashAll id _
  | unstashAll id =>
      cases hst
      unfold Node.unstashAll
      split_ifs
      · exact (h.systemUnstashAll id _).setStash id _
      · exact h
  | clearStash id =>
      cases hst
      exact h.of_quiet (quiet_clearStash s id) fun id' _ hpos => by
        rwa [mailbox_clearStash] at hpos
  | pauseMailbox id =>
      cases hst
      unfold Node.pauseMailbox
      split_ifs
      · refine ⟨h.tables, h.calls, fun id' hid hw => ?_, h.scheduled⟩
        obtain ⟨hactor, hpos, hnot⟩ := hw
        exact h.waiting id' hid
          ⟨hactor, hpos, fun hmem => hnot (Finset.mem_insert_of_mem hmem)⟩
      · exact h
  | resumeMailbox id =>
      cases hst
      unfold Node.resumeMailbox
      split_ifs
      · apply Wakeful.scheduleProcessMailbox
        · refine ⟨h.tables, h.calls, fun id' hid hw => ?_,
            fun id' _ hs => h.scheduled id' (by simp) hs⟩
          obtain ⟨hactor, hpos, hnot⟩ := hw
          refine h.waiting id' (by simp) ⟨hactor, hpos, fun hmem => hnot ?_⟩
          exact Finset.mem_erase.2 ⟨by simpa using hid, hmem⟩
        · exact fun hs => h.scheduled id (by simp) hs
      · exact h
      · exact h
  | injectMessages id messages =>
      cases hst
      unfold Node.injectMessages
      split_ifs
      · exact h.setMailbox_schedule id _
      · exact h

/-- In every reachable state, an actor that may take a message from its mailbox
has a token, and the scheduling flag is never set in vain. -/
theorem no_lost_wakeup {s : Node V} {as : List (Action V)}
    (hrun : run Node.step init as = some s) (id : ActorId) :
    (id ∈ s.actors → 0 < (s.mailbox id).length → id ∉ s.pausedMailboxes →
      TickPending s id ∨ RunnerActive s id) ∧
    (id ∈ s.mailboxScheduled → TickPending s id ∨ RunnerActive s id) := by
  have h := run_invariant' (I := Wakeful ∅)
    (fun _ _ _ hs hst => wakeful_step hs hst) wakeful_init hrun
  exact ⟨fun hactor hpos hnot => h.waiting id (by simp) ⟨hactor, hpos, hnot⟩,
    h.scheduled id (by simp)⟩

def resumedRun : List (Action Nat) :=
  [.spawn {} false, .tick 0, .pauseMailbox 0, .dispatchCast 0 1, .resumeMailbox 0]

/-- A message sent while the actor is paused is announced when it resumes. -/
theorem no_lost_wakeup_resumed :
    ∃ s, run Node.step init resumedRun = some s ∧ 0 < (s.mailbox 0).length ∧
      (TickPending s 0 ∨ RunnerActive s 0) := by
  refine ⟨_, rfl, by decide, ?_⟩
  have hwake := (no_lost_wakeup (show run Node.step init resumedRun = some _ from rfl) 0).1
  exact hwake (by decide) (by decide) (by decide)

end Libeam.Proofs.Wakeup
