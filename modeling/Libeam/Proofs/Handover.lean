import Libeam.Proofs.Custody
import Libeam.Proofs.ExecuteSteps
/-!
# An actor changes hands

The steps of a call of `migrate` and of the handler of its request, and what
they do to the tokens.
-/

namespace Libeam.Proofs.Handover

open Libeam.System Registry Migration Census Custody

variable {N V : Type} [LinearOrder N]

/-! ## The nodes -/

variable {s t : Migrations N V}

theorem host_setHost (s : Migrations N V) (n n' : N) (h : Host N V) :
    (s.setHost n h).host n' = if n' = n then h else s.host n' :=
  Function.update_apply ..

theorem calmer_setHost {n : N} {h : Host N V}
    (hactors : h.system.actors ⊆ (s.host n).system.actors)
    (hnextId : h.system.nextId = (s.host n).system.nextId)
    (hpaused : ∀ id, Engaged s (n, id) → id ∈ h.system.actors →
      id ∈ (s.host n).system.pausedMailboxes → id ∈ h.system.pausedMailboxes) :
    Calmer s (s.setHost n h) where
  sessions := rfl
  actor := rfl
  present := by
    rintro ⟨n', id⟩ hid
    rw [Present, host_setHost] at hid
    dsimp only at hid
    split_ifs at hid with hn
    · exact hn ▸ hactors hid
    · exact hid
  known := by
    rintro ⟨n', id⟩
    rw [Known, Known, host_setHost]
    dsimp only
    split_ifs with hn
    · rw [hn, hnextId]
    · rfl
  paused := by
    rintro ⟨n', id⟩ hengaged hid hpausedId
    rw [Present, host_setHost] at hid
    rw [Paused, host_setHost]
    dsimp only at hid ⊢
    split_ifs at hid ⊢ with hn
    · subst hn
      exact hpaused id hengaged hid hpausedId
    · exact hpausedId

/-- The nodes stay as they are as far as their instances go. -/
theorem calmer_of_presence {n : N} {h : Host N V}
    (heq : presence h.system = presence (s.host n).system) : Calmer s (s.setHost n h) := by
  have hactors : h.system.actors = (s.host n).system.actors := congrArg Presence.actors heq
  have hpaused : h.system.pausedMailboxes = (s.host n).system.pausedMailboxes :=
    congrArg Presence.pausedMailboxes heq
  exact calmer_setHost hactors.subset (congrArg Presence.nextId heq)
    fun id _ _ hid => hpaused ▸ hid

theorem calmer_of_pause {n : N} {h : Host N V} {id : ActorId}
    (heq : presence h.system = (presence (s.host n).system).pause id) :
    Calmer s (s.setHost n h) := by
  rw [Presence.pause] at heq
  split_ifs at heq
  · have hactors : h.system.actors = (s.host n).system.actors := congrArg Presence.actors heq
    have hpaused : h.system.pausedMailboxes =
        insert id (s.host n).system.pausedMailboxes := congrArg Presence.pausedMailboxes heq
    exact calmer_setHost hactors.subset (congrArg Presence.nextId heq)
      fun id' _ _ hid => hpaused ▸ Finset.mem_insert_of_mem hid
  · exact calmer_of_presence heq

/-- Resuming is harmless when no call works on the instance. -/
theorem calmer_of_resume {n : N} {h : Host N V} {id : ActorId}
    (heq : presence h.system = (presence (s.host n).system).resume id)
    (hfree : ¬ Engaged s (n, id)) : Calmer s (s.setHost n h) := by
  rw [Presence.resume] at heq
  split_ifs at heq
  · have hactors : h.system.actors = (s.host n).system.actors := congrArg Presence.actors heq
    have hpaused : h.system.pausedMailboxes =
        (s.host n).system.pausedMailboxes.erase id := congrArg Presence.pausedMailboxes heq
    refine calmer_setHost hactors.subset (congrArg Presence.nextId heq) ?_
    intro id' hengaged _ hid
    have hne : id' ≠ id := fun heq => hfree (heq ▸ hengaged)
    exact hpaused ▸ Finset.mem_erase_of_ne_of_mem hne hid
  · exact calmer_of_presence heq

theorem calmer_of_drop {n : N} {h : Host N V} {id : ActorId}
    (heq : presence h.system = (presence (s.host n).system).drop id) :
    Calmer s (s.setHost n h) := by
  have hactors : h.system.actors = (s.host n).system.actors.erase id :=
    congrArg Presence.actors heq
  have hpaused : h.system.pausedMailboxes = (s.host n).system.pausedMailboxes :=
    congrArg Presence.pausedMailboxes heq
  exact calmer_setHost (hactors ▸ Finset.erase_subset id _) (congrArg Presence.nextId heq)
    fun id' _ _ hid => hpaused ▸ hid

/-! ## A call goes on -/

section

variable {i : Nat} {m : Session N V}

/-- The session whose call has come to the given place. -/
def goto (m : Session N V) (pc : MigratePc N V) : Session N V :=
  { m with
    call := { m.call with pc := pc }
    mail := m.mail.requests m.call.pc pc }

section
omit [LinearOrder N]

theorem executed_requests (mail : Mail N V) (before after : MigratePc N V) :
    (mail.requests before after).executed = mail.executed := by
  unfold Mail.requests
  split <;> rfl

/-- A call that returns without success still has the actor. -/
theorem goes_goto {pc : MigratePc N V} (hopen : Open m)
    (hgives : ¬ Open (goto m pc) → Present s (source m) → standing m ≠ .granted) :
    Goes s m (goto m pc) where
  source_eq := rfl
  copy_eq _ := rfl
  opened _ := hopen
  owns howns := ⟨hopen, howns.2⟩
  once _ _ := rfl
  freed := by
    rintro x hpresent (⟨-, hclosed, rfl⟩ | ⟨hworking, hdone, -⟩)
    · exact ⟨⟨hopen, hgives hclosed hpresent⟩, fun howns => hclosed howns.1⟩
    · exact absurd hworking hdone

theorem sound_goto {pc : MigratePc N V} (h : Sound s m) (hopen : Open m)
    (hconsistent : Consistent (goto m pc)) : Sound s (goto m pc) where
  known := h.known
  parked _ := h.parked hopen
  consistent := hconsistent
  answered response hresponse :=
    h.answered response ((executed_requests m.mail m.call.pc pc).symm.trans hresponse)
  made := h.made
  copy_known := h.copy_known
  copy_handler := h.copy_handler
  copy_gone := h.copy_gone

theorem guarded_goto {pc : MigratePc N V} (h : Guarded s) (hi : s.sessions[i]? = some m)
    (hopen : Open m) (hconsistent : Consistent (goto m pc))
    (hgives : ¬ Open (goto m pc) → Present s (source m) → standing m ≠ .granted) :
    Guarded (s.setSession i (goto m pc)) :=
  h.setSession hi (goes_goto hopen hgives)
    (sound_goto (h.sessions m (List.mem_of_getElem? hi)) hopen hconsistent)

/-- Only a call that comes to wait for it has sent the execute request. -/
theorem consistent_goto {pc : MigratePc N V} (hne : stageAt pc ≠ .executing)
    (hc : ConsistentAt (m.mail.execute = none) (standing m) (stageAt pc)) :
    Consistent (goto m pc) := by
  have hexecute : (goto m pc).mail.execute = m.mail.execute := by
    unfold goto Mail.requests
    dsimp only
    split
    · exact absurd rfl hne
    · rfl
    · rfl
    · rfl
  rw [Consistent, hexecute]
  exact hc

end

/-- What a call is told is right, and it gives up only what it may. -/
def Allowed (m : Session N V) : SourceAction V → Prop
  | .node _ => False
  | .executeFails _ => m.mail.execute = none ∧ (standing m = .unasked ∨ standing m = .refused)
  | .executeReply response => ∃ t, m.handler = some t ∧ t.pc = .answered response
  | _ => True

omit [LinearOrder N] in
theorem stageAt_drainLoop (src : Source N V) (reservationId : ReservationId)
    (timedOut : Bool) : stageAt (src.drainLoop reservationId timedOut).pc = .asking := by
  unfold Source.drainLoop
  split_ifs <;> rfl

omit [LinearOrder N] in
theorem stageAt_drainMailbox (src : Source N V) (reservationId : ReservationId)
    (timedOut : Bool) : stageAt (src.drainMailbox reservationId timedOut).pc = .asking := by
  unfold Source.drainMailbox
  split_ifs
  · rfl
  · exact stageAt_drainLoop _ reservationId timedOut

/-- A call that gives up resumes its instance after it has let go of it. -/
theorem guarded_resume (h : Guarded s) (hi : s.sessions[i]? = some m) (hopen : Open m)
    (hidle : m.mail.execute = none) (hstanding : standing m = .unasked ∨ standing m = .refused)
    (error : String) {host : Host N V}
    (heq : presence host.system =
      (presence (s.host m.call.node).system).resume m.call.id) :
    Guarded ((s.setHost m.call.node host).setSession i
      (goto m (.returned { success := false, error := some error }))) := by
  have hgranted : standing m ≠ .granted := by
    rcases hstanding with heq | heq <;> rw [heq] <;> decide
  have hgone : Guarded (s.setSession i
      (goto m (.returned { success := false, error := some error }))) :=
    guarded_goto h hi hopen (consistent_goto nofun ⟨hidle, hstanding⟩) fun _ _ => hgranted
  refine hgone.calmer (calmer_of_resume heq ?_)
  rintro ⟨m', hm', hopen', hsource⟩
  obtain ⟨j, hj⟩ := List.mem_iff_getElem?.1 hm'
  rw [getElem?_setSession hi] at hj
  split_ifs at hj with hij
  · cases hj
    exact hopen' false rfl
  · exact hij (h.apart i j m m' hi hj hopen hopen' hsource.symm)

omit [LinearOrder N] in
theorem open_of_stage {st : Stage} (hstage : stage m = st)
    (hst : ∀ success, st ≠ .returned success) : Open m := fun success heq =>
  hst success (hstage.symm.trans heq)

omit [LinearOrder N] in
/-- What an open call knows at its stage. -/
theorem at_stage {st : Stage} (hstage : stage m = st)
    (hst : ∀ success, st ≠ .returned success) (h : Consistent m) :
    Open m ∧ ConsistentAt (m.mail.execute = none) (standing m) st := by
  rw [Consistent, hstage] at h
  exact ⟨open_of_stage hstage hst, h⟩

/-- The call goes on with its instance paused. -/
theorem guarded_wait (h : Guarded s) (hi : s.sessions[i]? = some m) (hopen : Open m)
    {pc : MigratePc N V} {host : Host N V} (hcalm : Calmer s (s.setHost m.call.node host))
    (hpc : ∀ success, stageAt pc ≠ .returned success) (hconsistent : Consistent (goto m pc)) :
    Guarded ((s.setHost m.call.node host).setSession i (goto m pc)) :=
  guarded_goto (h.calmer hcalm) hi hopen hconsistent fun hclosed => absurd hpc hclosed

/-- A call that succeeded removes the instance it gave away. -/
theorem guarded_finish (h : Guarded s) (hi : s.sessions[i]? = some m) (hopen : Open m)
    (hconsistent : ConsistentAt (m.mail.execute = none) (standing m) .unregistering)
    (newActorId : Option ActorId) :
    Guarded ((s.setHost m.call.node
        ((m.call.source (s.host m.call.node)).finish newActorId).host).setSession i
      (goto m ((m.call.source (s.host m.call.node)).finish newActorId).pc)) := by
  have hcalm : Calmer s (s.setHost m.call.node
      ((m.call.source (s.host m.call.node)).finish newActorId).host) := by
    refine calmer_setHost (Finset.erase_subset _ _) rfl fun id _ hid hpaused => ?_
    exact Finset.mem_erase_of_ne_of_mem (Finset.ne_of_mem_erase hid) hpaused
  refine guarded_goto (h.calmer hcalm) hi hopen (consistent_goto nofun hconsistent) ?_
  intro _ hpresent
  rw [Present, host_setHost, if_pos (show (source m).1 = m.call.node from rfl)] at hpresent
  exact absurd rfl (Finset.ne_of_mem_erase hpresent)

theorem guarded_advance (h : Guarded s) (hi : s.sessions[i]? = some m)
    {a : SourceAction V} (ha : Allowed m a) (hst : s.advance i m a = some t) : Guarded t := by
  have hconsistent := (h.sessions m (List.mem_of_getElem? hi)).consistent
  have hsame : Calmer s (s.setHost m.call.node (s.host m.call.node)) :=
    calmer_of_presence rfl
  obtain ⟨src, hsrc, rfl⟩ := Option.map_eq_some_iff.1 hst
  unfold Source.step at hsrc
  split at hsrc
  next => cases hsrc
  next b hrunning => exact ha.elim
  next response timedOut hpc =>
    obtain ⟨hopen, hconsistent⟩ :=
      at_stage (show stage m = .asking from congrArg stageAt hpc) nofun hconsistent
    split_ifs at hsrc
    · obtain ⟨reservationId, -, rfl⟩ := Option.map_eq_some_iff.1 hsrc
      have hasking := stageAt_drainMailbox (m.call.source (s.host m.call.node))
        reservationId timedOut
      have hcalm : Calmer s (s.setHost m.call.node
          ((m.call.source (s.host m.call.node)).drainMailbox reservationId timedOut).host) := by
        rcases presence_drainMailbox (m.call.source (s.host m.call.node)) reservationId
          timedOut with heq | heq
        · exact calmer_of_presence heq
        · exact calmer_of_pause heq
      refine guarded_wait h hi hopen hcalm ?_ ?_
      · rw [hasking]
        exact nofun
      · exact consistent_goto (by rw [hasking]; exact nofun) (by rw [hasking]; exact hconsistent)
    · cases hsrc
      exact guarded_resume h hi hopen hconsistent.1 (.inl hconsistent.2) _
        (presence_resumeMailbox _ _)
  next error hpc =>
    obtain ⟨hopen, hconsistent⟩ :=
      at_stage (show stage m = .asking from congrArg stageAt hpc) nofun hconsistent
    cases hsrc
    exact guarded_resume h hi hopen hconsistent.1 (.inl hconsistent.2) _
      (presence_resumeMailbox _ _)
  next reservationId timedOut hpc =>
    obtain ⟨hopen, hconsistent⟩ :=
      at_stage (show stage m = .asking from congrArg stageAt hpc) nofun hconsistent
    cases hsrc
    have hasking := stageAt_drainLoop (m.call.source (s.host m.call.node)) reservationId
      timedOut
    refine guarded_wait h hi hopen (calmer_of_presence (presence_drainLoop _ _ _)) ?_ ?_
    · rw [hasking]
      exact nofun
    · exact consistent_goto (by rw [hasking]; exact nofun) (by rw [hasking]; exact hconsistent)
  next reservationId pendingMessages state hpc =>
    obtain ⟨hopen, hconsistent⟩ :=
      at_stage (show stage m = .asking from congrArg stageAt hpc) nofun hconsistent
    cases hsrc
    unfold Source.execute
    split
    · exact guarded_wait h hi hopen hsame nofun
        (consistent_goto nofun ⟨hconsistent.1, .inl hconsistent.2⟩)
    · exact guarded_wait h hi hopen hsame nofun (.inl hconsistent.2)
  next reservationId pendingMessages error hpc =>
    obtain ⟨hopen, hconsistent⟩ :=
      at_stage (show stage m = .asking from congrArg stageAt hpc) nofun hconsistent
    cases hsrc
    exact guarded_wait h hi hopen hsame nofun
      (consistent_goto nofun ⟨hconsistent.1, .inl hconsistent.2⟩)
  next pendingMessages request error hpc =>
    obtain ⟨hopen, -⟩ :=
      at_stage (show stage m = .executing from congrArg stageAt hpc) nofun hconsistent
    cases hsrc
    exact guarded_wait h hi hopen hsame nofun (consistent_goto nofun ha)
  next pendingMessages request response hpc =>
    obtain ⟨hopen, hconsistent⟩ :=
      at_stage (show stage m = .executing from congrArg stageAt hpc) nofun hconsistent
    obtain ⟨handler, hhandler, hanswered⟩ := ha
    have hstanding : standing m = if response.success then .granted else .refused := by
      rw [standing, hhandler, Option.elim_some, hanswered]
      rfl
    have hidle : m.mail.execute = none := by
      rcases hconsistent with hunasked | ⟨hidle, -⟩
      · rw [hunasked] at hstanding
        split_ifs at hstanding
      · exact hidle
    split_ifs at hsrc with hsuccess
    · rw [if_pos hsuccess] at hstanding
      cases hsrc
      refine guarded_wait h hi hopen (calmer_of_presence rfl) nofun ?_
      exact consistent_goto nofun ⟨hidle, hstanding⟩
    · rw [if_neg hsuccess] at hstanding
      cases hsrc
      exact guarded_resume h hi hopen hidle (.inr hstanding) _ (presence_restore _ _ _)
  next pendingMessages error hpc =>
    obtain ⟨hopen, hconsistent⟩ :=
      at_stage (show stage m = .rollingBack from congrArg stageAt hpc) nofun hconsistent
    cases hsrc
    exact guarded_resume h hi hopen hconsistent.1 hconsistent.2 _ (presence_restore _ _ _)
  next newActorId hpc =>
    obtain ⟨hopen, hconsistent⟩ :=
      at_stage (show stage m = .unregistering from congrArg stageAt hpc) nofun hconsistent
    cases hsrc
    exact guarded_finish h hi hopen hconsistent newActorId
  next => cases hsrc

/-! ## A handler goes on -/

/-- The session whose handler has come to the given place. -/
def handled (m : Session N V) (handler : Handler N V) : Session N V :=
  { m with handler := some handler, mail := m.mail.answers handler.pc }

section
omit [LinearOrder N]

theorem execute_answers (mail : Mail N V) (pc : ExecutePc) :
    (mail.answers pc).execute = mail.execute := by
  unfold Mail.answers
  split <;> rfl

theorem executed_answers {mail : Mail N V} {pc : ExecutePc} {response : MigrateExecuteResponse}
    (h : (mail.answers pc).executed = some response) :
    pc = .answered response ∨ mail.executed = some response := by
  unfold Mail.answers at h
  split at h
  · exact .inl (congrArg ExecutePc.answered (Option.some.inj h))
  · exact .inr h

theorem standing_handled (m : Session N V) (handler : Handler N V) :
    standing (handled m handler) = standingAt handler.pc := rfl

/-- Nothing is said about a handler that is not done. -/
theorem not_answered (h : Sound s m) {handler : Handler N V} (hhandler : m.handler = some handler)
    (hpc : ∀ response, handler.pc ≠ .answered response) : m.mail.executed = none := by
  by_contra hne
  obtain ⟨response, hresponse⟩ := Option.ne_none_iff_exists'.1 hne
  obtain ⟨t, ht, hanswered⟩ := h.answered response hresponse
  exact hpc response (Option.some.inj (hhandler.symm.trans ht) ▸ hanswered)

end

/-- How the handler of a session may go on. -/
structure Handles (s : Migrations N V) (m : Session N V) (old new : Handler N V) :
    Prop where
  handler_eq : m.handler = some old
  instanceId_eq : new.instanceId = old.instanceId
  unanswered : ∀ response, old.pc ≠ .answered response
  /-- A decision, once made, stands. -/
  decided : standingAt old.pc = .working ∨ standingAt new.pc = standingAt old.pc
  not_failed : standingAt new.pc ≠ .failed
  asked : standingAt new.pc ≠ .unasked
  gone : standingAt new.pc = .refused → ∀ x, copy m = some x → ¬ Present s x

variable {old new : Handler N V}

section
omit [LinearOrder N]

theorem Handles.standing_eq (hh : Handles s m old new) : standing m = standingAt old.pc := by
  rw [standing, hh.handler_eq, Option.elim_some]

theorem Handles.goes (hh : Handles s m old new) (h : Sound s m) :
    Goes s m (handled m new) where
  source_eq := rfl
  copy_eq _ := rfl
  opened := id
  owns howns := by
    refine ⟨howns.1, ?_⟩
    rw [hh.standing_eq]
    rcases hh.decided with hworking | hsame
    · rw [hworking]
      decide
    · exact hsame ▸ howns.2
  once hopen hclosed := absurd hopen hclosed
  freed := by
    rintro x hpresent (⟨hopen, hclosed, -⟩ | ⟨hworking, hdone, hcopy⟩)
    · exact absurd hopen hclosed
    · have hconsistent := h.consistent
      rw [Consistent, hworking] at hconsistent
      refine ⟨⟨open_of_stage hconsistent.waits.1 nofun, by rw [hworking]; decide⟩, ?_⟩
      intro howns
      -- the only decision that leaves the copy there grants the request
      have hgranted : standingAt new.pc = .granted := by
        have hnot := hh.gone
        have hfailed := hh.not_failed
        have hasked := hh.asked
        rw [standing_handled] at hdone
        cases hnew : standingAt new.pc with
        | granted => rfl
        | refused => exact absurd hpresent (hnot hnew x hcopy)
        | working => exact absurd hnew hdone
        | failed => exact absurd hnew hfailed
        | unasked => exact absurd hnew hasked
      exact howns.2 hgranted

theorem Handles.sound (hh : Handles s m old new) (h : Sound s m) : Sound s (handled m new) where
  known := h.known
  parked := h.parked
  consistent := by
    have hconsistent := h.consistent
    rw [Consistent, hh.standing_eq] at hconsistent
    rw [Consistent, standing_handled, show (handled m new).mail.execute = m.mail.execute from
      execute_answers m.mail new.pc]
    rcases hh.decided with hworking | hsame
    · rw [hworking] at hconsistent
      exact hconsistent.decides hh.not_failed
    · rw [hsame]
      exact hconsistent
  answered response hresponse := by
    rcases executed_answers hresponse with hpc | hold
    · exact ⟨new, rfl, hpc⟩
    · rw [not_answered h hh.handler_eq hh.unanswered] at hold
      cases hold
  made hcopy := by
    have hmade := h.made hcopy
    rw [hh.standing_eq] at hmade
    rw [standing_handled]
    rcases hh.decided with hworking | hsame
    · rw [hworking] at hmade
      rcases hmade with heq | heq <;> cases heq
    · exact hsame ▸ hmade
  copy_known x hx := by
    obtain ⟨hknown, hactor, -⟩ := h.copy_known x hx
    exact ⟨hknown, hactor, hh.asked⟩
  copy_handler id hid := by
    obtain ⟨t, ht, hinstance⟩ := h.copy_handler id hid
    obtain rfl := Option.some.inj (hh.handler_eq.symm.trans ht)
    exact ⟨new, rfl, hh.instanceId_eq.trans hinstance⟩
  copy_gone x hx hrefused := hh.gone hrefused x hx

theorem guarded_handled (h : Guarded s) (hi : s.sessions[i]? = some m)
    (hh : Handles s m old new) : Guarded (s.setSession i (handled m new)) :=
  have hsound := h.sessions m (List.mem_of_getElem? hi)
  h.setSession hi (hh.goes hsound) (hh.sound hsound)

end

/-- Nothing goes wrong once the instance is there. -/
def Smooth : TargetAction N V → Prop
  | .host _ | .initFails _ | .stateFails _ => False
  | .initDone _ publishError | .stateSet _ publishError => publishError = none
  | _ => True

theorem pc_confirm (t : Target N V) (now : Nat) :
    ∃ confirmed, (t.confirm now none).pc = .confirming (.ok confirmed) :=
  ⟨_, rfl⟩

/-- The handler injects the messages and asks for the name. -/
theorem guarded_confirm (h : Guarded s) (hi : s.sessions[i]? = some m)
    (hhandler : m.handler = some old) (hworking : standingAt old.pc = .working)
    (hunanswered : ∀ response, old.pc ≠ .answered response) (now : Nat) :
    Guarded ((s.setHost m.call.targetNodeId
        ((old.target (s.host m.call.targetNodeId)).inject.confirm now none).host).setSession i
      (handled m ((old.target (s.host m.call.targetNodeId)).inject.confirm now none).handler)) := by
  obtain ⟨confirmed, hpc⟩ := pc_confirm (old.target (s.host m.call.targetNodeId)).inject now
  have hcalm : Calmer s (s.setHost m.call.targetNodeId
      ((old.target (s.host m.call.targetNodeId)).inject.confirm now none).host) := by
    apply calmer_of_presence
    rw [system_confirm, presence_inject]
    rfl
  have hnew : standingAt ((old.target (s.host m.call.targetNodeId)).inject.confirm now
      none).handler.pc = if confirmed then .granted else .working := by
    rw [show ((old.target (s.host m.call.targetNodeId)).inject.confirm now none).handler.pc =
      .confirming (.ok confirmed) from hpc]
    cases confirmed <;> rfl
  apply guarded_handled (h.calmer hcalm) hi
  refine ⟨hhandler, ?_, hunanswered, .inl hworking, ?_, ?_, ?_⟩
  · exact ExecuteSteps.instanceId_confirm _ now none
  · rw [hnew]
    split_ifs <;> decide
  · rw [hnew]
    split_ifs <;> decide
  · intro hrefused
    rw [hnew] at hrefused
    split_ifs at hrefused

/-- A step of the handler that changes the instances of its node as `host` does. -/
theorem guarded_moves (h : Guarded s) (hi : s.sessions[i]? = some m)
    (hhandler : m.handler = some old) {host : Host N V}
    (hcalm : Calmer s (s.setHost m.call.targetNodeId host)) (pc : ExecutePc)
    (hunanswered : ∀ response, old.pc ≠ .answered response)
    (hdecided : standingAt old.pc = .working ∨ standingAt pc = standingAt old.pc)
    (hpc : standingAt pc ≠ .failed ∧ standingAt pc ≠ .unasked)
    (hgone : standingAt pc = .refused → ∀ x, copy m = some x →
      ¬ Present (s.setHost m.call.targetNodeId host) x) :
    Guarded ((s.setHost m.call.targetNodeId host).setSession i
      (handled m { old with pc := pc })) :=
  guarded_handled (h.calmer hcalm) hi
    ⟨hhandler, rfl, hunanswered, hdecided, hpc.1, hpc.2, hgone⟩

theorem guarded_handle (h : Guarded s) (hi : s.sessions[i]? = some m)
    {a : TargetAction N V} (ha : Smooth a) (hst : s.handle i m a = some t) : Guarded t := by
  have hsound := h.sessions m (List.mem_of_getElem? hi)
  have hsame : Calmer s (s.setHost m.call.targetNodeId (s.host m.call.targetNodeId)) :=
    calmer_of_presence rfl
  obtain ⟨old, hold, hmap⟩ := Option.bind_eq_some_iff.1 hst
  obtain ⟨u, hu, rfl⟩ := Option.map_eq_some_iff.1 hmap
  have hstanding : standing m = standingAt old.pc := by
    rw [standing, hold, Option.elim_some]
  cases ExecuteSteps.target_steps hu with
  | host | initFails | stateFails => exact ha.elim
  | sets now publishError pc _ eq =>
      subst eq
      have hpc : old.pc = .initializing := pc
      refine guarded_moves h hi hold hsame .settingState ?_ (.inl (congrArg standingAt hpc))
        ⟨nofun, nofun⟩ nofun
      rw [hpc]
      exact nofun
  | skipsState now publishError pc _ eq =>
      cases ha
      subst eq
      have hpc : old.pc = .initializing := pc
      refine guarded_confirm h hi hold (congrArg standingAt hpc) ?_ now
      rw [hpc]
      exact nofun
  | stateSet now publishError pc eq =>
      cases ha
      subst eq
      have hpc : old.pc = .settingState := pc
      refine guarded_confirm h hi hold (congrArg standingAt hpc) ?_ now
      rw [hpc]
      exact nofun
  | confirmed pc eq =>
      subst eq
      have hpc : old.pc = .confirming (.ok true) := pc
      have hcalm : Calmer s (s.setHost m.call.targetNodeId
          (((old.target (s.host m.call.targetNodeId)).setSystem
            ((s.host m.call.targetNodeId).system.scheduleProcessMailbox
              old.instanceId)).host)) :=
        calmer_of_presence (presence_scheduleProcessMailbox _ old.instanceId)
      refine guarded_moves h hi hold hcalm (.answered { success := true, newActorId := some _ })
        ?_ (.inr (congrArg standingAt hpc).symm) ⟨nofun, nofun⟩ nofun
      rw [hpc]
      exact nofun
  | refused pc eq =>
      subst eq
      have hpc : old.pc = .confirming (.ok false) := pc
      have hcalm : Calmer s (s.setHost m.call.targetNodeId
          ((s.host m.call.targetNodeId).remove old.instanceId)) := calmer_of_drop rfl
      refine guarded_moves h hi hold hcalm (.answered { success := false, error := some _ })
        ?_ (.inl (congrArg standingAt hpc)) ⟨nofun, nofun⟩ ?_
      · rw [hpc]
        exact nofun
      · intro _ x hx hpresent
        obtain ⟨id, hid, rfl⟩ := Option.map_eq_some_iff.1 hx
        obtain ⟨handler, hhandler, rfl⟩ := hsound.copy_handler id hid
        obtain rfl := Option.some.inj (hold.symm.trans hhandler)
        rw [Present, host_setHost, if_pos rfl] at hpresent
        exact absurd rfl (Finset.ne_of_mem_erase hpresent)
  | rejected error pc eq =>
      have hconsistent := hsound.consistent
      rw [Consistent, hstanding, show old.pc = .confirming (.error error) from pc]
        at hconsistent
      exact absurd hconsistent ConsistentAt.not_failed
  | released error pc eq =>
      subst eq
      have hpc : old.pc = .releasing error := pc
      have hstands : standingAt old.pc = .refused := congrArg standingAt hpc
      refine guarded_moves h hi hold hsame (.answered { success := false, error := some _ })
        ?_ (.inr hstands.symm) ⟨nofun, nofun⟩ ?_
      · rw [hpc]
        exact nofun
      · intro _ x hx hpresent
        exact hsound.copy_gone x hx (hstanding.trans hstands) (hsame.present x hpresent)

/-! ## The request to execute -/

omit [LinearOrder N] in
theorem handler_of_unasked (hstanding : standing m = .unasked) : m.handler = none := by
  by_contra hne
  obtain ⟨handler, hhandler⟩ := Option.ne_none_iff_exists'.1 hne
  rw [standing, hhandler, Option.elim_some] at hstanding
  unfold standingAt at hstanding
  split at hstanding <;> first | cases hstanding | split_ifs at hstanding

omit [LinearOrder N] in
/-- While its request is in flight, a session has no handler and no copy. -/
theorem asks (h : Sound s m) {request : MigrateExecuteRequest N V}
    (hrequest : m.mail.execute = some request) :
    stage m = .executing ∧ standing m = .unasked ∧ m.mail.executed = none ∧ copy m = none := by
  obtain ⟨hstage, hunasked⟩ := h.consistent.asks (by rw [hrequest]; exact nofun)
  refine ⟨hstage, hunasked, ?_, ?_⟩
  · by_contra hne
    obtain ⟨response, hresponse⟩ := Option.ne_none_iff_exists'.1 hne
    obtain ⟨t, ht, -⟩ := h.answered response hresponse
    rw [handler_of_unasked hunasked] at ht
    cases ht
  · by_contra hne
    obtain ⟨x, hx⟩ := Option.ne_none_iff_exists'.1 hne
    exact (h.copy_known x hx).2.2 hunasked

/-- The session whose request has arrived. -/
def received (m : Session N V) (handler : Handler N V) (created : Option ActorId) :
    Session N V :=
  { m with
    handler := some handler
    mail := { m.mail with execute := none }.answers handler.pc
    created := created }

section
omit [LinearOrder N]

theorem consistent_received (hstage : stage m = .executing) {handler : Handler N V}
    (hpc : standingAt handler.pc ≠ .failed) (created : Option ActorId) :
    Consistent (received m handler created) := by
  rw [Consistent, show stage (received m handler created) = .executing from hstage]
  exact .inr ⟨execute_answers _ handler.pc, hpc⟩

theorem answered_received (hexecuted : m.mail.executed = none) (handler : Handler N V)
    (created : Option ActorId) {response : MigrateExecuteResponse}
    (hresponse : (received m handler created).mail.executed = some response) :
    ∃ t, (received m handler created).handler = some t ∧ t.pc = .answered response := by
  rcases executed_answers hresponse with hpc | hold
  · exact ⟨handler, rfl, hpc⟩
  · exact absurd (hexecuted.symm.trans hold) nofun

/-- A request that makes no instance. -/
theorem guarded_refuse (h : Guarded s) (hi : s.sessions[i]? = some m)
    {request : MigrateExecuteRequest N V} (hrequest : m.mail.execute = some request)
    (handler : Handler N V) (hrefused : standingAt handler.pc = .refused) :
    Guarded (s.setSession i (received m handler m.created)) := by
  have hsound := h.sessions m (List.mem_of_getElem? hi)
  obtain ⟨hstage, hunasked, hexecuted, hcopy⟩ := asks hsound hrequest
  have hnew : standing (received m handler m.created) = .refused := hrefused
  refine h.setSession hi
    { source_eq := rfl
      copy_eq := fun _ => rfl
      opened := id
      owns := fun howns => ⟨howns.1, by rw [hunasked]; decide⟩
      once := fun hopen hclosed => absurd hopen hclosed
      freed := ?_ }
    { known := hsound.known
      parked := hsound.parked
      consistent := consistent_received hstage (by rw [hrefused]; decide) m.created
      answered := fun response => answered_received hexecuted handler m.created
      made := fun _ => .inr hnew
      copy_known := fun x hx => absurd (hcopy.symm.trans hx) nofun
      copy_handler := fun id hid =>
        absurd hcopy (by rw [copy, show m.created = some id from hid]; exact nofun)
      copy_gone := fun x hx => absurd (hcopy.symm.trans hx) nofun }
  rintro x - (⟨hopen, hclosed, -⟩ | ⟨hworking, -, -⟩)
  · exact absurd hopen hclosed
  · rw [hunasked] at hworking
    cases hworking

end

/-- A node gets a new instance. -/
theorem installs_of_add {n : N} {h : Host N V} {a : N × ActorId}
    (heq : presence h.system = (presence (s.host n).system).add)
    (hhost : t.host = (s.setHost n h).host)
    (hactor : t.actor = Function.update s.actor (n, (s.host n).system.nextId) a)
    (ha : a = (n, (s.host n).system.nextId) ∨ Known s a) :
    Installs s t (n, (s.host n).system.nextId) a := by
  have hactors : h.system.actors =
      insert (s.host n).system.nextId (s.host n).system.actors := congrArg Presence.actors heq
  have hpaused : h.system.pausedMailboxes = (s.host n).system.pausedMailboxes :=
    congrArg Presence.pausedMailboxes heq
  have hnextId : h.system.nextId = (s.host n).system.nextId + 1 :=
    congrArg Presence.nextId heq
  have hknown : ∀ y, Known t y ↔ y = (n, (s.host n).system.nextId) ∨ Known s y := by
    rintro ⟨n', id⟩
    rw [Known, Known, hhost, host_setHost, Prod.mk.injEq]
    dsimp only
    split_ifs with hn
    · subst hn
      rw [hnextId]
      constructor
      · intro hlt
        rcases Nat.lt_succ_iff_lt_or_eq.1 hlt with hlt | heq
        · exact .inr hlt
        · exact .inl ⟨rfl, heq⟩
      · rintro (⟨-, rfl⟩ | hlt)
        · exact Nat.lt_succ_self _
        · exact hlt.trans (Nat.lt_succ_self _)
    · simp [hn]
  refine ⟨Nat.lt_irrefl _, ?_, ?_, ?_, hknown, ?_, ?_⟩
  · rw [hactor, Function.update_self]
  · intro y hy
    rw [hactor, Function.update_of_ne hy]
  · rintro ⟨n', id⟩
    rw [Present, Present, hhost, host_setHost, Prod.mk.injEq]
    dsimp only
    split_ifs with hn
    · subst hn
      rw [hactors, Finset.mem_insert]
      simp
    · simp [hn]
  · rintro ⟨n', id⟩ hid
    rw [Paused, hhost, host_setHost]
    dsimp only
    split_ifs with hn
    · subst hn
      rw [hpaused]
      exact hid
    · exact hid
  · exact (hknown a).2 ha

omit [LinearOrder N] in
/-- The request is refused at once, or the instance is made. -/
theorem start_cases (h : Host N V) (request : MigrateExecuteRequest N V)
    (constructorError : Option String) :
    (standingAt (Target.start h request constructorError).pc = .refused ∧
        presence (Target.start h request constructorError).host.system =
          presence h.system) ∨
      (Target.start h request constructorError).pc = .initializing ∧
        (Target.start h request constructorError).instanceId = h.system.nextId ∧
        presence (Target.start h request constructorError).host.system =
          (presence h.system).add := by
  unfold Target.start
  dsimp only
  split_ifs
  · cases constructorError with
    | some error => exact .inl ⟨rfl, rfl⟩
    | none => exact .inr ⟨rfl, rfl, rfl⟩
  · exact .inl ⟨rfl, rfl⟩

/-- The instance is made, and is the copy of the session from now on. -/
theorem guarded_made (h : Guarded s) (hi : s.sessions[i]? = some m)
    {request : MigrateExecuteRequest N V} (hrequest : m.mail.execute = some request)
    {host : Host N V} (handler : Handler N V) (hpc : handler.pc = .initializing)
    (hid : handler.instanceId = (s.host m.call.targetNodeId).system.nextId)
    (heq : presence host.system =
      (presence (s.host m.call.targetNodeId).system).add) :
    Guarded (((s.setHost m.call.targetNodeId host).setSession i
        (received m handler (some handler.instanceId))).setActor
      (m.call.targetNodeId, handler.instanceId) (s.actor (source m))) := by
  have hsound := h.sessions m (List.mem_of_getElem? hi)
  obtain ⟨hstage, hunasked, hexecuted, -⟩ := asks hsound hrequest
  set t := ((s.setHost m.call.targetNodeId host).setSession i
    (received m handler (some handler.instanceId))).setActor
      (m.call.targetNodeId, handler.instanceId) (s.actor (source m)) with ht
  have hworking : standing (received m handler (some handler.instanceId)) = .working := by
    show standingAt handler.pc = .working
    rw [hpc]
    rfl
  have hinstalls : Installs s t (m.call.targetNodeId, handler.instanceId)
      (s.actor (source m)) := by
    rw [hid]
    refine installs_of_add heq rfl ?_ (.inr (h.actor _ hsound.known))
    rw [ht, hid]
    rfl
  have hcopies : Copies s t i m (received m handler (some handler.instanceId))
      (m.call.targetNodeId, handler.instanceId) :=
    ⟨hinstalls, hi, rfl, rfl, rfl, hunasked, hworking, rfl⟩
  have hold := hsound.install hinstalls
  refine h.copies hcopies
    { known := hold.known
      parked := hold.parked
      consistent := consistent_received hstage (by rw [hpc]; exact nofun) _
      answered := fun response => answered_received hexecuted handler _
      made := nofun
      copy_known := ?_
      copy_handler := ?_
      copy_gone := ?_ }
  · rintro x hx
    obtain rfl := Option.some.inj hx
    refine ⟨(hinstalls.known _).2 (.inl rfl), ?_, by rw [hworking]; decide⟩
    exact hinstalls.actor_new.trans (hinstalls.actor_of_known hsound.known).symm
  · rintro id' hid'
    exact ⟨handler, rfl, Option.some.inj hid'⟩
  · intro x _ hrefused
    rw [hworking] at hrefused
    cases hrefused

theorem guarded_execute (h : Guarded s) (hi : s.sessions[i]? = some m)
    {request : MigrateExecuteRequest N V} (hrequest : m.mail.execute = some request)
    (constructorError : Option String) : Guarded (s.execute i m request constructorError) := by
  unfold Migrations.execute
  dsimp only
  rcases start_cases (s.host m.call.targetNodeId) request constructorError with
    ⟨hrefused, heq⟩ | ⟨hpc, hid, heq⟩
  · rw [if_neg (by rintro hpc; rw [hpc] at hrefused; cases hrefused)]
    exact guarded_refuse (h.calmer (calmer_of_presence heq)) hi hrequest
      (Target.start (s.host m.call.targetNodeId) request constructorError).handler hrefused
  · rw [if_pos hpc]
    exact guarded_made h hi hrequest
      (Target.start (s.host m.call.targetNodeId) request constructorError).handler hpc hid heq

/-! ## Messages -/

omit [LinearOrder N] in
/-- A message of a session is sent, lost or delivered. -/
theorem guarded_mail (h : Guarded s) (hi : s.sessions[i]? = some m) {mail : Mail N V}
    (hexecute : m.mail.execute = none → mail.execute = none)
    (hexecuted : ∀ response, mail.executed = some response →
      m.mail.executed = some response) :
    Guarded (s.setSession i { m with mail := mail }) := by
  have hsound := h.sessions m (List.mem_of_getElem? hi)
  refine h.setSession hi
    { source_eq := rfl
      copy_eq := fun _ => rfl
      opened := id
      owns := id
      once := fun hopen hclosed => absurd hopen hclosed
      freed := ?_ }
    { hsound with
      consistent := hsound.consistent.mono hexecute
      answered := fun response hresponse =>
        hsound.answered response (hexecuted response hresponse) }
  rintro x - (⟨hopen, hclosed, -⟩ | ⟨hworking, hdone, -⟩)
  · exact absurd hopen hclosed
  · exact absurd hworking hdone

theorem advance_setSession (a : SourceAction V) :
    (s.setSession i m).advance i m a = s.advance i m a := by
  unfold Migrations.advance Migrations.setSession Migrations.setHost
  simp only [List.set_set]

/-- A reply arrives, whether it is awaited or not. -/
theorem guarded_reply (h : Guarded s) (hi : s.sessions[i]? = some m) (a : SourceAction V)
    (ha : Allowed m a) {mail : Mail N V} (hmail : mail.execute = m.mail.execute)
    (hexecuted : ∀ response, mail.executed = some response →
      m.mail.executed = some response) :
    Guarded (s.reply i { m with mail := mail } a) := by
  have hcleared := guarded_mail h hi (fun hidle => hmail.trans hidle) hexecuted
  have hi' : (s.setSession i { m with mail := mail }).sessions[i]? =
      some { m with mail := mail } := by
    rw [getElem?_setSession hi, if_pos rfl]
  have ha' : Allowed { m with mail := mail } a := by
    cases a with
    | executeFails error => exact ⟨hmail.trans ha.1, ha.2⟩
    | _ => exact ha
  unfold Migrations.reply
  cases hst : s.advance i { m with mail := mail } a with
  | none => exact hcleared
  | some t => exact guarded_advance hcleared hi' ha' ((advance_setSession a).trans hst)

end

end Libeam.Proofs.Handover
