import Libeam.Proofs.MailboxQueue
import Libeam.Proofs.MailboxRing
/-!
# Bulk replacement

`replaceWith` sets the tail to the number of messages without wrapping it.  As
long as a cell stays free the tail is the next free slot and the mailbox goes on
as a queue of exactly these messages.  When the messages fill the buffer the
tail stands one past its end, and a message that arrives after all of them were
taken is written there, out of the reach of the head.
-/

namespace Libeam.Proofs.BulkLoad

open Lib Mailbox MailboxQueue MailboxRing

variable {α : Type} {mb : BoundedMailbox α} {q : Queue α}

/-! ## Sequences of operations -/

/-- The mailbox answers every sequence of operations as the queue does. -/
def Agree (mb : BoundedMailbox α) (q : Queue α) : Prop :=
  ∀ ops, mb.replies ops = q.replies ops

theorem Agree.reply (h : Agree mb q) (op : MailboxOp α) :
    (mb.perform op).2 = (q.perform op).2 :=
  (List.cons.inj (h [op])).1

theorem Agree.perform (h : Agree mb q) (op : MailboxOp α) :
    Agree (mb.perform op).1 (q.perform op).1 :=
  fun ops => (List.cons.inj (h (op :: ops))).2

theorem agree_of_aligned (h : Aligned mb) (hev : Evictable mb) :
    Agree mb (queueOf mb) := by
  intro ops
  induction ops generalizing mb with
  | nil => rfl
  | cons op ops ih =>
      obtain ⟨haligned, heq⟩ := h.perform hev op
      have hrest := ih haligned (h.evictable_perform hev op)
      have hqueue : queueOf (mb.perform op).1 = ((queueOf mb).perform op).1 :=
        congrArg Prod.fst heq
      rw [hqueue] at hrest
      exact congrArg₂ List.cons (congrArg Prod.snd heq) hrest

/-! ## The state after the load -/

/-- The number of cells kept or allocated, whatever `nextPow2` returns. -/
def cells (mb : BoundedMailbox α) (n : Nat) : Nat :=
  max mb.buf.length (max 16 (BoundedMailbox.nextPow2 n)).toNat

theorem sixteen_le_cells (mb : BoundedMailbox α) (n : Nat) : 16 ≤ cells mb n := by
  unfold cells
  omega

theorem buf_replaceWith (mb : BoundedMailbox α) (msgs : List (Option α)) :
    (mb.replaceWith msgs).buf =
      msgs ++ List.replicate (cells mb msgs.length - msgs.length) none := by
  have hload : ∀ n, BoundedMailbox.load (List.replicate n none) 0 msgs =
      msgs ++ List.replicate (n - msgs.length) none := by
    intro n
    simpa using load_append [] (List.replicate n none) msgs
  simp only [BoundedMailbox.replaceWith, cells]
  split_ifs with hsmall
  · rw [hload, max_eq_right (Nat.le_of_lt hsmall)]
  · rw [hload, max_eq_left (Nat.le_of_not_lt hsmall)]

/-- The queue a bulk load is meant to leave. -/
def loaded (mb : BoundedMailbox α) (msgs : List (Option α)) : Queue α where
  maxSize := mb.maxSize
  overflowStrategy := mb.overflowStrategy
  contents := msgs
  droppedCount := mb.droppedCount

theorem queueOf_replaceWith (mb : BoundedMailbox α) (msgs : List (Option α)) :
    queueOf (mb.replaceWith msgs) = loaded mb msgs := by
  have hread : (mb.replaceWith msgs).toArray = msgs := by
    rw [toArray_eq, buf_replaceWith]
    exact Ring.read_prefix msgs _
  exact congrArg (Queue.mk _ _ · _) hread

theorem aligned_replaceWith {msgs : List (Option α)}
    (hroom : mb.maxSize ≠ some 0 → msgs.length < cells mb msgs.length) :
    Aligned (mb.replaceWith msgs) := by
  have hcells := sixteen_le_cells mb msgs.length
  have hlen : (mb.replaceWith msgs).buf.length =
      msgs.length + (cells mb msgs.length - msgs.length) := by
    rw [buf_replaceWith, List.length_append, List.length_replicate]
  constructor
  · rw [hlen]
    change 0 < _
    omega
  · rw [hlen]
    change msgs.length ≤ _
    omega
  · intro hmax
    rw [hlen]
    change msgs.length = (0 + msgs.length) % _
    rw [Nat.zero_add, Nat.mod_eq_of_lt]
    have := hroom hmax
    omega

/-! ## A full load -/

/-- `j` messages of a load that filled all `n` cells have been taken. -/
structure Taken (mb : BoundedMailbox α) (n j : Nat) : Prop where
  length_buf : mb.buf.length = n
  head_eq : mb.head = j % n
  tail_eq : mb.tail = n
  size_eq : mb.size = n - j
  released : 0 < j → mb.buf[0]?.join = none

theorem Taken.dequeue {n j : Nat} (h : Taken mb n j) (hj : j < n) :
    Taken mb.dequeue.1 n (j + 1) := by
  have hsize := h.size_eq
  have hhead : mb.head = j := by rw [h.head_eq, Nat.mod_eq_of_lt hj]
  have hlt : mb.head < mb.buf.length := by rw [hhead, h.length_buf]; exact hj
  have hlen := Ring.length_writeAt_of_lt hlt (none : Option α)
  unfold BoundedMailbox.dequeue
  rw [if_neg (by omega)]
  refine ⟨hlen.trans h.length_buf, ?_, h.tail_eq, ?_, fun _ => ?_⟩
  · change (mb.head + 1) % (Ring.writeAt mb.buf mb.head none).length = (j + 1) % n
    rw [hlen, h.length_buf, hhead]
  · change mb.size - 1 = n - (j + 1)
    omega
  · change (Ring.writeAt mb.buf mb.head none)[0]?.join = none
    rw [Ring.writeAt_of_lt hlt, hhead]
    cases j with
    | zero => simp [h.length_buf, hj]
    | succ j =>
        rw [List.getElem?_set_ne (by omega)]
        exact h.released (by omega)

/-- The message that arrives after a full load was taken is hidden. -/
theorem Taken.enqueue_hidden {n : Nat} (h : Taken mb n n) (hn : 0 < n)
    (hmax : mb.maxSize ≠ some 0) (msg : α) :
    (mb.enqueue msg).1.dequeue.2 = none := by
  have hsize : mb.size = 0 := by rw [h.size_eq, Nat.sub_self]
  have hhead : mb.head = 0 := by rw [h.head_eq, Nat.mod_self]
  have hfull : mb.isFull = false := by
    unfold BoundedMailbox.isFull
    cases hm : mb.maxSize with
    | none => rfl
    | some m =>
        have : m ≠ 0 := by
          rintro rfl
          exact hmax hm
        simp only [hsize, decide_eq_false_iff_not]
        omega
  have hgrow : ¬ mb.size = mb.buf.length := by rw [hsize, h.length_buf]; omega
  have henqueue : (mb.enqueue msg).1 =
      { mb.writeTail msg with size := mb.size + 1 } := by
    unfold BoundedMailbox.enqueue
    rw [if_pos hfull]
    simp only [hgrow, if_false]
    rfl
  have hbuf : (mb.enqueue msg).1.buf = mb.buf ++ [some msg] := by
    rw [henqueue]
    change Ring.writeAt mb.buf mb.tail (some msg) = _
    rw [h.tail_eq, ← h.length_buf, Ring.writeAt_length]
  have hhead' : (mb.enqueue msg).1.head = 0 := by
    rw [henqueue]
    exact hhead
  have hsize' : (mb.enqueue msg).1.size ≠ 0 := by
    rw [henqueue]
    exact Nat.succ_ne_zero _
  unfold BoundedMailbox.dequeue
  rw [if_neg hsize', hhead', hbuf]
  change (mb.buf ++ [some msg])[0]?.join = none
  rw [List.getElem?_append_left (by rw [h.length_buf]; exact hn)]
  exact h.released hn

/-- Taking all messages of a full load leads a mailbox and a queue that still
answer alike to the state in which the next message is hidden. -/
theorem taken_of_agree {n : Nat} (hagree : Agree mb q) (h : Taken mb n 0)
    (hmax : q.maxSize = mb.maxSize) (hlen : q.contents.length = n) (j : Nat)
    (hj : j ≤ n) :
    ∃ (mb' : BoundedMailbox α) (q' : Queue α), Agree mb' q' ∧ Taken mb' n j ∧
      mb'.maxSize = mb.maxSize ∧ q'.maxSize = mb.maxSize ∧
      q'.contents.length = n - j := by
  induction j with
  | zero => exact ⟨mb, q, hagree, h, rfl, hmax, hlen⟩
  | succ j ih =>
      obtain ⟨mb', q', hagree', htaken, hmb, hq, hlen'⟩ := ih (by omega)
      refine ⟨mb'.dequeue.1, (q'.perform .dequeue).1, hagree'.perform .dequeue,
        htaken.dequeue (by omega), ?_, ?_, ?_⟩
      · rw [maxSize_dequeue, hmb]
      · rw [maxSize_perform, hq]
      · change q'.contents.tail.length = n - (j + 1)
        rw [List.length_tail, hlen']
        omega

/-- A load that leaves no cell free hides a later message, unless every later
message is refused. -/
theorem lt_cells_of_agree [Inhabited α] {msgs : List (Option α)}
    (h : Agree (mb.replaceWith msgs) (loaded mb msgs)) (hmax : mb.maxSize ≠ some 0) :
    msgs.length < cells mb msgs.length := by
  by_contra hfull
  have hcells := sixteen_le_cells mb msgs.length
  have hbuf := buf_replaceWith mb msgs
  have hzero : cells mb msgs.length - msgs.length = 0 := by omega
  rw [hzero, List.replicate_zero, List.append_nil] at hbuf
  have htaken : Taken (mb.replaceWith msgs) msgs.length 0 :=
    ⟨congrArg List.length hbuf, (Nat.zero_mod _).symm, rfl, rfl,
      fun h0 => absurd h0 (Nat.lt_irrefl 0)⟩
  obtain ⟨mb', q', hagree, hlast, hmb, hq, hlen⟩ :=
    taken_of_agree h htaken rfl rfl msgs.length (Nat.le_refl _)
  rw [Nat.sub_self] at hlen
  have hnil : q'.contents = [] := List.eq_nil_of_length_eq_zero hlen
  have hroom : q'.isFull = false := by
    unfold Queue.isFull
    rw [hq, hnil]
    cases hm : (mb.replaceWith msgs).maxSize with
    | none => rfl
    | some m =>
        have hm0 : m ≠ 0 := by
          rintro rfl
          exact hmax hm
        simp only [List.length_nil, decide_eq_false_iff_not]
        omega
  -- the queue hands the new message out, the mailbox does not
  have hreply := (hagree.perform (.enqueue default)).reply .dequeue
  have hqueue : ((q'.perform (.enqueue default)).1.perform .dequeue).2 =
      .message (some default) := by
    simp only [Queue.perform, Queue.enqueue, hroom, if_true, hnil, List.nil_append,
      List.head?_cons, Option.join_some]
  have hmailbox : ((mb'.perform (.enqueue default)).1.perform .dequeue).2 =
      .message none :=
    congrArg MailboxReply.message
      (hlast.enqueue_hidden (by omega) (by rw [hmb]; exact hmax) default)
  rw [hqueue, hmailbox] at hreply
  simp at hreply

/-- A mailbox of size zero that evicts loses the next message. -/
theorem evictable_of_agree [Inhabited α] (h : Agree mb q)
    (hqueue : q = queueOf mb) : Evictable mb := by
  subst hqueue
  intro h0 hold
  have hafter := (h.perform .drain).perform (.enqueue default)
  have hreply := hafter.reply .toArray
  have hfull : (mb.clear).isFull = true := by
    simp [BoundedMailbox.isFull, BoundedMailbox.clear, h0]
  have hmailbox : (((mb.perform .drain).1.perform (.enqueue default)).1.perform
      .toArray).2 = .messages ([] : List (Option α)) := by
    change MailboxReply.messages ((mb.clear.enqueue default).1.toArray) = _
    rw [toArray_of_empty]
    unfold BoundedMailbox.enqueue
    rw [hfull, if_neg (by simp)]
    simp only [show mb.clear.overflowStrategy = .dropOldest from hold]
    rfl
  have hq : ((((queueOf mb).perform .drain).1.perform (.enqueue default)).1.perform
      .toArray).2 = .messages [some (default : α)] := by
    simp [Queue.perform, Queue.enqueue, Queue.isFull, queueOf, h0, hold]
  rw [hmailbox, hq] at hreply
  simp at hreply

/-! ## The exact condition -/

/-- After a bulk replacement the mailbox answers every further sequence of
operations as a queue of exactly these messages if and only if the load leaves a
cell free; a mailbox of size zero has to refuse its messages instead. -/
theorem replaceWith_behaves_iff [Inhabited α] (mb : BoundedMailbox α)
    (msgs : List (Option α)) :
    (∀ ops, (mb.replaceWith msgs).replies ops = (loaded mb msgs).replies ops) ↔
      if mb.maxSize = some 0 then mb.overflowStrategy ≠ .dropOldest
      else msgs.length <
        max mb.buf.length (max 16 (BoundedMailbox.nextPow2 msgs.length)).toNat := by
  constructor
  · intro h
    split_ifs with hmax
    · have hagree : Agree (mb.replaceWith msgs) (loaded mb msgs) := h
      have hev : Evictable (mb.replaceWith msgs) :=
        evictable_of_agree hagree (queueOf_replaceWith mb msgs).symm
      exact hev hmax
    · exact lt_cells_of_agree h hmax
  · intro h
    have haligned : Aligned (mb.replaceWith msgs) := by
      apply aligned_replaceWith
      intro hmax
      rw [if_neg hmax] at h
      exact h
    have hev : Evictable (mb.replaceWith msgs) := by
      intro hmax
      change mb.maxSize = some 0 at hmax
      rw [if_pos hmax] at h
      exact h
    have hagree := agree_of_aligned haligned hev
    rw [queueOf_replaceWith] at hagree
    exact hagree

/-- A fresh mailbox loaded with 16 messages hands out `undefined` for the
message that arrives after they were taken. -/
theorem full_load_hides_message :
    (((BoundedMailbox.new {} : BoundedMailbox Nat).replaceWith
        (List.replicate 16 (some 7))).replies
      (List.replicate 16 .dequeue ++ [.enqueue 8, .dequeue])).getLast? =
        some (.message none) ∧
      ((loaded (BoundedMailbox.new {} : BoundedMailbox Nat)
        (List.replicate 16 (some 7))).replies
      (List.replicate 16 .dequeue ++ [.enqueue 8, .dequeue])).getLast? =
        some (.message (some 8)) := by
  decide +kernel

end Libeam.Proofs.BulkLoad
