import Libeam.Proofs.Delivery
import Libeam.Proofs.MailboxRing
import Mathlib.Data.List.Palindrome
/-!
# Taking messages out of the stash one by one

Every call of `unstash` puts the oldest stashed message in front of the mailbox, and so in front
of what the call before it has put there.  Calls that follow each other turn the order around.
-/

namespace Libeam.Proofs.UnstashOrder

open Lib.Transition Mailbox Libeam.System Libeam.System.Node Delivery MailboxRing MailboxSound

variable {V : Type}

/-- `n` calls of `unstash` in one handler. -/
def unstashTimes (n : Nat) (s : Node V) (id : ActorId) : Node V := (fun s => s.unstash id)^[n] s

/-- The messages come out as they went in, and all of them as with `unstashAll`. -/
structure InOrder (s : Node V) (id : ActorId) (n : Nat) : Prop where
  front : ((unstashTimes n s id).mailbox id).toArray =
    ((s.object id).stash.take n).map some ++ (s.mailbox id).toArray
  all : n = (s.object id).stash.length →
    ((unstashTimes n s id).mailbox id).toArray = ((s.unstashAll id).mailbox id).toArray

theorem toArray_unshift {mb : BoundedMailbox (StashedMessage V)} (h : Aligned mb)
    (msgs : List (Option (StashedMessage V))) : (mb.unshift msgs).toArray = msgs ++ mb.toArray :=
  congrArg Queue.contents (h.unshift msgs).2

section

variable {s : Node V} {id : ActorId}

theorem mailboxes_systemUnstashAll (s : Node V) (id : ActorId)
    (messages : List (StashedMessage V)) :
    (s.systemUnstashAll id messages).mailboxes = s.mailboxes := by
  unfold systemUnstashAll scheduleProcessMailbox
  split_ifs <;> rfl

theorem stash_systemUnstashAll (s : Node V) (id : ActorId) (messages : List (StashedMessage V)) :
    ((s.systemUnstashAll id messages).object id).stash = (s.object id).stash := by
  unfold systemUnstashAll scheduleProcessMailbox
  split_ifs <;> first | rfl | exact stash_setMailbox s id id _

theorem mailbox_systemUnstashAll (hmailbox : id ∈ s.mailboxes) {messages : List (StashedMessage V)}
    (hmessages : messages ≠ []) :
    (s.systemUnstashAll id messages).mailbox id = (s.mailbox id).unshift (messages.map some) := by
  rw [systemUnstashAll, if_pos ⟨hmailbox, hmessages⟩, mailbox_scheduleProcessMailbox,
    mailbox_setMailbox_self]

theorem unstash_of_cons {msg : StashedMessage V} {rest : List (StashedMessage V)}
    (hmailbox : id ∈ s.mailboxes) (h : (s.object id).stash = msg :: rest) :
    id ∈ (s.unstash id).mailboxes ∧ ((s.unstash id).object id).stash = rest ∧
      (s.unstash id).mailbox id = (s.mailbox id).unshift [some msg] := by
  have hunstash : s.unstash id = (s.setStash id rest).systemUnstashAll id [msg] := by
    rw [unstash, h]
  have hmailbox' : id ∈ (s.setStash id rest).mailboxes := hmailbox
  rw [hunstash]
  refine ⟨?_, ?_, ?_⟩
  · rwa [mailboxes_systemUnstashAll]
  · rw [stash_systemUnstashAll, setStash_object, Function.update_self]
  · rw [mailbox_systemUnstashAll hmailbox' (List.cons_ne_nil msg []), mailbox_setStash]
    rfl

/-- The messages that came out last stand in front. -/
theorem toArray_unstashTimes (n : Nat) (hmailbox : id ∈ s.mailboxes) (h : Aligned (s.mailbox id)) :
    ((unstashTimes n s id).mailbox id).toArray =
      ((s.object id).stash.take n).reverse.map some ++ (s.mailbox id).toArray := by
  induction n generalizing s with
  | zero => rfl
  | succ n ih =>
      rw [unstashTimes, Function.iterate_succ_apply]
      cases hstash : (s.object id).stash with
      | nil =>
          rw [show s.unstash id = s by rw [unstash, hstash], ← unstashTimes, ih hmailbox h, hstash,
            List.take_nil, List.take_nil]
      | cons msg rest =>
          obtain ⟨hmailbox', hrest, hunshift⟩ := unstash_of_cons hmailbox hstash
          have haligned : Aligned ((s.unstash id).mailbox id) := hunshift ▸ (h.unshift _).1
          rw [← unstashTimes, ih hmailbox' haligned, hrest, hunshift, toArray_unshift h,
            List.take_succ_cons, List.reverse_cons, List.map_append, List.append_assoc]
          rfl

theorem toArray_unstashAll (hmailbox : id ∈ s.mailboxes) (h : Aligned (s.mailbox id)) :
    ((s.unstashAll id).mailbox id).toArray =
      (s.object id).stash.map some ++ (s.mailbox id).toArray := by
  rw [unstashAll]
  split_ifs with hstash
  · rw [mailbox_setStash, mailbox_systemUnstashAll hmailbox hstash, toArray_unshift h]
  · rw [not_not.1 hstash]
    rfl

/-- Messages that are all different do not read the same from behind, unless there is but one. -/
theorem palindrome_iff_of_nodup {l : List (StashedMessage V)} (h : l.Nodup) :
    l.Palindrome ↔ l.length ≤ 1 := by
  constructor
  · intro hpal
    cases hpal with
    | nil => exact Nat.zero_le 1
    | singleton x => exact Nat.le_refl 1
    | cons_concat x hmid =>
        exact absurd (List.mem_append_right _ (List.mem_singleton_self x)) (List.nodup_cons.1 h).1
  · intro hlength
    match l, hlength with
    | [], _ => exact .nil
    | [x], _ => exact .singleton x

/-- Calls of `unstash` in a row keep the order when the messages read the same from behind. -/
theorem unstash_inOrder_iff (n : Nat) (hmailbox : id ∈ s.mailboxes) (h : Aligned (s.mailbox id)) :
    (InOrder s id n ↔ ((s.object id).stash.take n).Palindrome) ∧
      ((s.object id).stash.Nodup → (InOrder s id n ↔ n ≤ 1 ∨ (s.object id).stash.length ≤ 1)) := by
  have htimes := toArray_unstashTimes n hmailbox h
  have hiff : InOrder s id n ↔ ((s.object id).stash.take n).Palindrome := by
    rw [List.Palindrome.iff_reverse_eq]
    constructor
    · intro hin
      have heq := hin.front
      rw [htimes] at heq
      exact List.map_injective_iff.2 (Option.some_injective _) (List.append_cancel_right heq)
    · intro hrev
      refine ⟨by rw [htimes, hrev], fun hn => ?_⟩
      rw [htimes, hrev, toArray_unstashAll hmailbox h, hn, List.take_length]
  refine ⟨hiff, fun hnodup => ?_⟩
  rw [hiff, palindrome_iff_of_nodup (hnodup.sublist (List.take_sublist n _)), List.length_take]
  omega

end

/-- Two messages have been stashed, and the handler of a third one runs. -/
def deferring : List (Action Nat) :=
  [.spawn {} false, .dispatchCast 0 1, .dispatchCast 0 2, .dispatchCast 0 3, .tick 0, .stash 0,
    .handlerReturns 0, .stash 0, .handlerReturns 0]

def deferred : Node Nat := (run Node.step init deferring).getD init

theorem aligned_deferred : Aligned (deferred.mailbox 0) :=
  ⟨by decide, by decide, fun _ => by decide⟩

theorem inOrder_deferred :
    (InOrder deferred 0 2 ↔ ((deferred.object 0).stash.take 2).Palindrome) ∧
      ((deferred.object 0).stash.Nodup →
        (InOrder deferred 0 2 ↔ 2 ≤ 1 ∨ (deferred.object 0).stash.length ≤ 1)) :=
  unstash_inOrder_iff 2 (by decide) aligned_deferred

/-- The first of two messages that are taken out in a row is behind the second one. -/
theorem second_unstashed_first :
    run Node.step init deferring = some deferred ∧ 0 ∈ deferred.mailboxes ∧
      Aligned (deferred.mailbox 0) ∧ ¬ InOrder deferred 0 2 := by
  refine ⟨rfl, by decide, aligned_deferred, fun h => ?_⟩
  exact absurd (congrArg (List.map (Option.map StashedMessage.message)) h.front) (by decide)

end Libeam.Proofs.UnstashOrder
