import Libeam.Mailbox.Queue
/-!
# The mailbox ring refines the queue

`Wrapped` is the representation invariant: the head is an index of the buffer,
the elements fit and the tail is the next free slot.  Every operation keeps it
and does to the cells read from the head what the queue does to its contents.

A mailbox of size zero that refuses every message never reads its tail, so the
lemmas ask for the tail only where it is used (`Aligned`).
-/

namespace Libeam.Proofs.MailboxRing

open Lib Mailbox

variable {α : Type} {mb : BoundedMailbox α}

structure Wrapped (mb : BoundedMailbox α) : Prop where
  head_lt : mb.head < mb.buf.length
  fits : mb.size ≤ mb.buf.length
  tail_eq : mb.tail = (mb.head + mb.size) % mb.buf.length

structure Aligned (mb : BoundedMailbox α) : Prop where
  head_lt : mb.head < mb.buf.length
  fits : mb.size ≤ mb.buf.length
  tail_eq : mb.maxSize ≠ some 0 → mb.tail = (mb.head + mb.size) % mb.buf.length

/-- A mailbox of size zero that makes room by evicting has nothing to evict. -/
def Evictable (mb : BoundedMailbox α) : Prop :=
  mb.maxSize = some 0 → mb.overflowStrategy ≠ .dropOldest

theorem Wrapped.aligned (h : Wrapped mb) : Aligned mb :=
  ⟨h.head_lt, h.fits, fun _ => h.tail_eq⟩

theorem Aligned.wrapped (h : Aligned mb) (hmax : mb.maxSize ≠ some 0) :
    Wrapped mb :=
  ⟨h.head_lt, h.fits, h.tail_eq hmax⟩

theorem wrapped_new (config : MailboxConfig) :
    Wrapped (BoundedMailbox.new config : BoundedMailbox α) := by
  constructor <;> simp [BoundedMailbox.new]

theorem toArray_eq (mb : BoundedMailbox α) :
    mb.toArray = Ring.read mb.buf mb.head mb.size := rfl

@[simp] theorem length_toArray (mb : BoundedMailbox α) :
    mb.toArray.length = mb.size := by
  rw [toArray_eq, Ring.length_read]

theorem isFull_queueOf (mb : BoundedMailbox α) :
    (queueOf mb).isFull = mb.isFull := by
  unfold Queue.isFull BoundedMailbox.isFull
  cases hmax : mb.maxSize with
  | none | some => simp [queueOf, hmax]

/-! ## Growing -/

theorem length_buf_grow (hfits : mb.size ≤ mb.buf.length) :
    mb.grow.buf.length = mb.buf.length * 2 := by
  simp only [BoundedMailbox.grow, List.length_append, length_toArray,
    List.length_replicate]
  omega

theorem toArray_grow (mb : BoundedMailbox α) : mb.grow.toArray = mb.toArray := by
  have hread := Ring.read_prefix mb.toArray
    (List.replicate (mb.buf.length * 2 - mb.size) none)
  rw [length_toArray] at hread
  exact hread

theorem queueOf_grow (mb : BoundedMailbox α) : queueOf mb.grow = queueOf mb := by
  unfold queueOf
  rw [toArray_grow]
  rfl

theorem Aligned.grow_wrapped (h : Aligned mb) : Wrapped mb.grow := by
  have hhead := h.head_lt
  have hfits := h.fits
  have hlen := length_buf_grow hfits
  constructor
  · rw [hlen]
    change 0 < mb.buf.length * 2
    omega
  · rw [hlen]
    change mb.size ≤ mb.buf.length * 2
    omega
  · rw [hlen]
    change mb.size = (0 + mb.size) % (mb.buf.length * 2)
    rw [Nat.zero_add, Nat.mod_eq_of_lt (by omega)]

/-- The growing loop keeps the queue and ends with enough room. -/
theorem Aligned.ensureRoom (h : Aligned mb) (needed fuel : Nat)
    (hfuel : mb.size + needed ≤ mb.buf.length + fuel) :
    Aligned (mb.ensureRoom needed fuel) ∧
      queueOf (mb.ensureRoom needed fuel) = queueOf mb ∧
      (mb.ensureRoom needed fuel).size = mb.size ∧
      mb.size + needed ≤ (mb.ensureRoom needed fuel).buf.length := by
  induction fuel generalizing mb with
  | zero => exact ⟨h, rfl, rfl, hfuel⟩
  | succ fuel ih =>
      unfold BoundedMailbox.ensureRoom
      split_ifs with hsmall
      · have hlen := length_buf_grow h.fits
        have hhead := h.head_lt
        have hsize : mb.grow.size = mb.size := rfl
        have hgrown := ih h.grow_wrapped.aligned (by rw [hlen, hsize]; omega)
        rw [queueOf_grow, hsize] at hgrown
        exact hgrown
      · exact ⟨h, rfl, rfl, by omega⟩

/-! ## Writing at the tail and clearing the head -/

theorem Wrapped.writeTail (h : Wrapped mb) (hroom : mb.size < mb.buf.length)
    (msg : α) : Wrapped { mb.writeTail msg with size := mb.size + 1 } := by
  have htail : mb.tail < mb.buf.length := by
    rw [h.tail_eq]
    exact Nat.mod_lt _ (by omega)
  have hlen := Ring.length_writeAt_of_lt htail (some msg)
  constructor
  · change mb.head < (Ring.writeAt mb.buf mb.tail (some msg)).length
    rw [hlen]
    exact h.head_lt
  · change mb.size + 1 ≤ (Ring.writeAt mb.buf mb.tail (some msg)).length
    rw [hlen]
    exact hroom
  · change (mb.tail + 1) % (Ring.writeAt mb.buf mb.tail (some msg)).length =
      (mb.head + (mb.size + 1)) % (Ring.writeAt mb.buf mb.tail (some msg)).length
    rw [hlen, h.tail_eq, Nat.mod_add_mod, Nat.add_assoc]

theorem Wrapped.toArray_writeTail (h : Wrapped mb)
    (hroom : mb.size < mb.buf.length) (msg : α) :
    ({ mb.writeTail msg with size := mb.size + 1 } : BoundedMailbox α).toArray =
      mb.toArray ++ [some msg] := by
  have hpush := Ring.read_push h.head_lt hroom (some msg)
  rw [← h.tail_eq] at hpush
  exact hpush

/-- The head cell is released, as `dequeue` and the eviction do. -/
def dropHead (mb : BoundedMailbox α) : BoundedMailbox α :=
  { mb with
    buf := Ring.writeAt mb.buf mb.head none
    head := (mb.head + 1) % (Ring.writeAt mb.buf mb.head none).length
    size := mb.size - 1 }

theorem length_buf_dropHead (hhead : mb.head < mb.buf.length) :
    (dropHead mb).buf.length = mb.buf.length :=
  Ring.length_writeAt_of_lt hhead none

theorem Aligned.dropHead (h : Aligned mb) (hpos : 0 < mb.size) :
    Aligned (dropHead mb) := by
  have hhead := h.head_lt
  have hfits := h.fits
  have hlen := length_buf_dropHead hhead
  constructor
  · change (mb.head + 1) % (MailboxRing.dropHead mb).buf.length < _
    rw [hlen]
    exact Nat.mod_lt _ (by omega)
  · rw [hlen]
    change mb.size - 1 ≤ mb.buf.length
    omega
  · intro hmax
    change mb.tail = ((mb.head + 1) % (MailboxRing.dropHead mb).buf.length +
      (mb.size - 1)) % (MailboxRing.dropHead mb).buf.length
    rw [hlen, Ring.wrap_succ, h.tail_eq hmax, Nat.sub_add_cancel hpos]

theorem toArray_dropHead (hhead : mb.head < mb.buf.length)
    (hfits : mb.size ≤ mb.buf.length) (hpos : 0 < mb.size) :
    (dropHead mb).toArray = mb.toArray.tail := by
  have hpop := Ring.read_pop (n := mb.size - 1) hhead (by omega) none
  rw [Nat.sub_add_cancel hpos, ← Ring.length_writeAt_of_lt hhead none] at hpop
  exact hpop

/-- The first element is the cell at the head. -/
theorem head?_toArray (hhead : mb.head < mb.buf.length) (hpos : 0 < mb.size) :
    mb.toArray.head?.join = (mb.buf[mb.head]?).join := by
  have hread := Ring.read_cons hhead (mb.size - 1)
  rw [Nat.sub_add_cancel hpos] at hread
  rw [toArray_eq, hread]
  rfl

theorem toArray_of_empty (h : mb.size = 0) : mb.toArray = [] := by
  rw [toArray_eq, h, Ring.read_zero]

/-! ## One operation -/

/-- A mailbox that is not full takes the message at its end. -/
theorem Aligned.enqueue_accepted (h : Aligned mb) (hfull : mb.isFull = false)
    (msg : α) :
    Aligned (mb.enqueue msg).1 ∧
      (queueOf (mb.enqueue msg).1, (mb.enqueue msg).2) =
        (queueOf mb).enqueue msg := by
  have hmax : mb.maxSize ≠ some 0 := by
    intro h0
    simp [BoundedMailbox.isFull, h0] at hfull
  unfold BoundedMailbox.enqueue Queue.enqueue
  rw [isFull_queueOf, if_pos hfull, if_pos hfull]
  by_cases hgrow : mb.size = mb.buf.length
  · have hlen := length_buf_grow h.fits
    have hhead := h.head_lt
    have hroom : mb.grow.size < mb.grow.buf.length := by
      rw [hlen]
      change mb.size < _
      omega
    simp only [hgrow, if_true]
    refine ⟨(h.grow_wrapped.writeTail hroom msg).aligned, ?_⟩
    have hread := h.grow_wrapped.toArray_writeTail hroom msg
    rw [toArray_grow] at hread
    exact congrArg (fun cells => (Queue.mk mb.maxSize mb.overflowStrategy cells
      mb.droppedCount, EnqueueResult.accepted)) hread
  · have hfits := h.fits
    have hroom : mb.size < mb.buf.length := by omega
    simp only [hgrow, if_false]
    refine ⟨((h.wrapped hmax).writeTail hroom msg).aligned, ?_⟩
    exact congrArg (fun cells => (Queue.mk mb.maxSize mb.overflowStrategy cells
      mb.droppedCount, EnqueueResult.accepted))
      ((h.wrapped hmax).toArray_writeTail hroom msg)

/-- Evicting the head of a mailbox that is not empty and writing at the tail. -/
theorem Wrapped.evict (h : Wrapped mb) (hpos : 0 < mb.size) (msg : α) :
    Wrapped { (dropHead mb).writeTail msg with size := mb.size } ∧
      ({ (dropHead mb).writeTail msg with size := mb.size } :
        BoundedMailbox α).toArray = mb.toArray.tail ++ [some msg] := by
  have hfits := h.fits
  have hdrop : Wrapped (dropHead mb) := by
    have haligned := h.aligned.dropHead hpos
    refine ⟨haligned.head_lt, haligned.fits, ?_⟩
    change mb.tail = ((mb.head + 1) % (dropHead mb).buf.length + (mb.size - 1)) %
      (dropHead mb).buf.length
    rw [length_buf_dropHead h.head_lt, Ring.wrap_succ, h.tail_eq,
      Nat.sub_add_cancel hpos]
  have hsize : (dropHead mb).size + 1 = mb.size := Nat.sub_add_cancel hpos
  have hroom : (dropHead mb).size < (dropHead mb).buf.length := by
    rw [length_buf_dropHead h.head_lt]
    omega
  have hwrite := hdrop.writeTail hroom msg
  have hread := hdrop.toArray_writeTail hroom msg
  rw [hsize] at hwrite hread
  rw [toArray_dropHead h.head_lt hfits hpos] at hread
  exact ⟨hwrite, hread⟩

theorem Aligned.enqueue (h : Aligned mb) (hev : Evictable mb) (msg : α) :
    Aligned (mb.enqueue msg).1 ∧
      (queueOf (mb.enqueue msg).1, (mb.enqueue msg).2) =
        (queueOf mb).enqueue msg := by
  by_cases hfull : mb.isFull = false
  · exact h.enqueue_accepted hfull msg
  · unfold BoundedMailbox.enqueue Queue.enqueue
    rw [isFull_queueOf, if_neg hfull, if_neg hfull]
    have hstrategy : (queueOf mb).overflowStrategy = mb.overflowStrategy := rfl
    cases hs : mb.overflowStrategy with
    | dropNewest | error =>
        simp only [hs, hstrategy]
        exact ⟨⟨h.head_lt, h.fits, h.tail_eq⟩, rfl⟩
    | dropOldest =>
        have hmax : mb.maxSize ≠ some 0 := fun h0 => hev h0 hs
        have hpos : 0 < mb.size := by
          rw [Bool.not_eq_false, BoundedMailbox.isFull] at hfull
          cases hm : mb.maxSize with
          | none => simp [hm] at hfull
          | some m =>
              simp only [hm, decide_eq_true_eq] at hfull
              have hm0 : m ≠ 0 := by
                rintro rfl
                exact hmax hm
              omega
        simp only [hs, hstrategy]
        obtain ⟨hwrap, hread⟩ := (h.wrapped hmax).evict hpos msg
        refine ⟨⟨hwrap.head_lt, hwrap.fits, fun _ => hwrap.tail_eq⟩, ?_⟩
        have hhead : (queueOf mb).contents.head?.join = (mb.buf[mb.head]?).join :=
          head?_toArray h.head_lt hpos
        rw [hhead]
        exact congrArg (fun cells => (Queue.mk mb.maxSize .dropOldest cells
          (mb.droppedCount + 1), EnqueueResult.evicted (mb.buf[mb.head]?).join))
          hread

theorem Aligned.dequeue (h : Aligned mb) :
    Aligned mb.dequeue.1 ∧ mb.dequeue.1.toArray = mb.toArray.tail ∧
      mb.dequeue.2 = mb.toArray.head?.join := by
  unfold BoundedMailbox.dequeue
  by_cases hsize : mb.size = 0
  · rw [if_pos hsize, toArray_of_empty hsize]
    exact ⟨h, rfl, rfl⟩
  · have hpos : 0 < mb.size := Nat.pos_of_ne_zero hsize
    rw [if_neg hsize]
    exact ⟨h.dropHead hpos, toArray_dropHead h.head_lt h.fits hpos,
      (head?_toArray h.head_lt hpos).symm⟩

theorem Aligned.pushFront (h : Aligned mb) (hroom : mb.size < mb.buf.length)
    (msg : Option α) :
    Aligned (mb.pushFront msg) ∧
      (mb.pushFront msg).buf.length = mb.buf.length ∧
      (mb.pushFront msg).toArray = msg :: mb.toArray := by
  have hw : (mb.head + mb.buf.length - 1) % mb.buf.length < mb.buf.length :=
    Nat.mod_lt _ (by omega)
  have hlen : (mb.pushFront msg).buf.length = mb.buf.length :=
    Ring.length_writeAt_of_lt hw msg
  refine ⟨⟨?_, ?_, ?_⟩, hlen, Ring.read_unshift h.head_lt hroom msg⟩
  · rw [hlen]
    exact hw
  · rw [hlen]
    exact hroom
  · intro hmax
    rw [hlen]
    change mb.tail = ((mb.head + mb.buf.length - 1) % mb.buf.length +
      (mb.size + 1)) % mb.buf.length
    rw [Ring.wrap_pred h.head_lt, h.tail_eq hmax]

theorem Aligned.foldr_pushFront (h : Aligned mb) (msgs : List (Option α))
    (hroom : mb.size + msgs.length ≤ mb.buf.length) :
    Aligned (msgs.foldr BoundedMailbox.pushFront mb) ∧
      (msgs.foldr BoundedMailbox.pushFront mb).buf.length = mb.buf.length ∧
      queueOf (msgs.foldr BoundedMailbox.pushFront mb) =
        { queueOf mb with contents := msgs ++ (queueOf mb).contents } := by
  induction msgs with
  | nil => exact ⟨h, rfl, rfl⟩
  | cons msg msgs ih =>
      rw [List.length_cons] at hroom
      obtain ⟨hrest, hlen, hqueue⟩ := ih (by omega)
      have hread : (msgs.foldr BoundedMailbox.pushFront mb).toArray =
          msgs ++ mb.toArray := congrArg Queue.contents hqueue
      have hsize := congrArg List.length hread
      rw [length_toArray, List.length_append, length_toArray] at hsize
      obtain ⟨hpush, hlen', hread'⟩ := hrest.pushFront (by omega) msg
      refine ⟨hpush, hlen'.trans hlen, ?_⟩
      rw [hread] at hread'
      have hkeep : queueOf (List.foldr BoundedMailbox.pushFront mb (msg :: msgs)) =
          { queueOf (msgs.foldr BoundedMailbox.pushFront mb) with
            contents := (List.foldr BoundedMailbox.pushFront mb
              (msg :: msgs)).toArray } := rfl
      rw [hkeep, hqueue]
      exact congrArg (Queue.mk _ _ · _) hread'

theorem Aligned.unshift (h : Aligned mb) (msgs : List (Option α)) :
    Aligned (mb.unshift msgs) ∧ queueOf (mb.unshift msgs) =
      { queueOf mb with contents := msgs ++ (queueOf mb).contents } := by
  have hhead := h.head_lt
  obtain ⟨hbig, hqueue, hsize, hroom⟩ :=
    h.ensureRoom msgs.length (mb.size + msgs.length) (by omega)
  obtain ⟨hdone, -, hread⟩ := hbig.foldr_pushFront msgs (by rwa [hsize])
  rw [hqueue] at hread
  exact ⟨hdone, hread⟩

theorem Aligned.clear (h : Aligned mb) : Wrapped mb.clear := by
  have hhead := h.head_lt
  constructor
  · simp only [BoundedMailbox.clear, List.length_replicate]
    omega
  · exact Nat.zero_le _
  · simp [BoundedMailbox.clear]

/-! ## Iterating -/

/-- The iterator hands out the element at its index, whatever was done to the
mailbox since its last step. -/
theorem next_eq (mb : BoundedMailbox α) (idx : Nat) :
    mb.next idx = mb.toArray[idx]?.map fun msg => (msg, idx + 1) := by
  unfold BoundedMailbox.next
  split_ifs with hidx
  · rw [toArray_eq, Ring.getElem?_read _ _ hidx]
    rfl
  · rw [List.getElem?_eq_none (by rw [length_toArray]; omega)]
    rfl

theorem iterate_eq (mb : BoundedMailbox α) (fuel idx : Nat)
    (hfuel : mb.size < fuel + idx) : mb.iterate fuel idx = mb.toArray.drop idx := by
  induction fuel generalizing idx with
  | zero =>
      rw [List.drop_eq_nil_of_le (by rw [length_toArray]; omega)]
      rfl
  | succ fuel ih =>
      unfold BoundedMailbox.iterate
      rw [next_eq]
      by_cases hidx : idx < mb.toArray.length
      · rw [List.getElem?_eq_getElem hidx, List.drop_eq_getElem_cons hidx]
        exact congrArg _ (ih (idx + 1) (by omega))
      · rw [List.getElem?_eq_none (by omega), List.drop_eq_nil_of_le (by omega)]
        rfl

/-! ## The refinement -/

/-- One operation, for any bound and strategy but the one that evicts from an
empty mailbox. -/
theorem Aligned.perform (h : Aligned mb) (hev : Evictable mb) (op : MailboxOp α) :
    Aligned (mb.perform op).1 ∧
      (queueOf (mb.perform op).1, (mb.perform op).2) = (queueOf mb).perform op := by
  cases op with
  | enqueue msg =>
      obtain ⟨haligned, heq⟩ := h.enqueue hev msg
      refine ⟨haligned, ?_⟩
      change (queueOf (mb.enqueue msg).1, MailboxReply.enqueued (mb.enqueue msg).2) =
        (((queueOf mb).enqueue msg).1, .enqueued ((queueOf mb).enqueue msg).2)
      rw [← heq]
  | dequeue =>
      obtain ⟨haligned, hread, hmsg⟩ := h.dequeue
      refine ⟨haligned, ?_⟩
      have hconfig : queueOf mb.dequeue.1 =
          { queueOf mb with contents := mb.dequeue.1.toArray } := by
        unfold BoundedMailbox.dequeue
        split_ifs <;> rfl
      exact Prod.ext (hconfig.trans (congrArg (Queue.mk _ _ · _) hread))
        (congrArg MailboxReply.message hmsg)
  | unshift msgs =>
      obtain ⟨haligned, hqueue⟩ := h.unshift msgs
      exact ⟨haligned, Prod.ext hqueue rfl⟩
  | clear | drain => exact ⟨h.clear.aligned, rfl⟩
  | toArray => exact ⟨h, rfl⟩
  | next idx =>
      refine ⟨h, ?_⟩
      exact congrArg (fun item => (queueOf mb, MailboxReply.item item))
        (next_eq mb idx)
  | iterate =>
      refine ⟨h, ?_⟩
      exact congrArg (fun msgs => (queueOf mb, MailboxReply.messages msgs))
        (iterate_eq mb (mb.size + 1) 0 (by omega))

@[simp] theorem maxSize_perform (q : Queue α) (op : MailboxOp α) :
    (q.perform op).1.maxSize = q.maxSize := by
  cases op with
  | enqueue msg =>
      change (q.enqueue msg).1.maxSize = q.maxSize
      unfold Queue.enqueue
      split_ifs
      · rfl
      · cases hs : q.overflowStrategy <;> simp
  | _ => rfl

@[simp] theorem overflowStrategy_perform (q : Queue α) (op : MailboxOp α) :
    (q.perform op).1.overflowStrategy = q.overflowStrategy := by
  cases op with
  | enqueue msg =>
      change (q.enqueue msg).1.overflowStrategy = q.overflowStrategy
      unfold Queue.enqueue
      split_ifs
      · rfl
      · cases hs : q.overflowStrategy <;> simp
  | _ => rfl

/-- The configuration outlives every operation. -/
theorem Aligned.config_perform (h : Aligned mb) (hev : Evictable mb)
    (op : MailboxOp α) :
    (mb.perform op).1.maxSize = mb.maxSize ∧
      (mb.perform op).1.overflowStrategy = mb.overflowStrategy := by
  have hqueue := congrArg Prod.fst (h.perform hev op).2
  constructor
  · exact (congrArg Queue.maxSize hqueue).trans (maxSize_perform (queueOf mb) op)
  · exact (congrArg Queue.overflowStrategy hqueue).trans
      (overflowStrategy_perform (queueOf mb) op)

theorem Aligned.evictable_perform (h : Aligned mb) (hev : Evictable mb)
    (op : MailboxOp α) : Evictable (mb.perform op).1 := by
  obtain ⟨hmax, hstrategy⟩ := h.config_perform hev op
  unfold Evictable
  rw [hmax, hstrategy]
  exact hev

/-- Every operation, and the growth the operations trigger, keeps the ring
invariant and acts on the elements read from the head as on a queue. -/
theorem ring_refines_queue (h : Wrapped mb) (hmax : mb.maxSize ≠ some 0) :
    (∀ op, Wrapped (mb.perform op).1 ∧
      (queueOf (mb.perform op).1, (mb.perform op).2) = (queueOf mb).perform op) ∧
    (Wrapped mb.grow ∧ queueOf mb.grow = queueOf mb) ∧
    (∀ needed, let roomy := mb.ensureRoom needed (mb.size + needed)
      Wrapped roomy ∧ queueOf roomy = queueOf mb ∧
        mb.size + needed ≤ roomy.buf.length) ∧
    ∀ config, Wrapped (BoundedMailbox.new config : BoundedMailbox α) := by
  have hhead := h.head_lt
  refine ⟨fun op => ?_, ⟨h.aligned.grow_wrapped, queueOf_grow mb⟩, fun needed => ?_,
    wrapped_new⟩
  · have hev : Evictable mb := fun h0 => absurd h0 hmax
    obtain ⟨haligned, heq⟩ := h.aligned.perform hev op
    refine ⟨haligned.wrapped ?_, heq⟩
    rwa [(h.aligned.config_perform hev op).1]
  · obtain ⟨haligned, hqueue, -, hroom⟩ :=
      h.aligned.ensureRoom needed (mb.size + needed) (by omega)
    have hkeep := congrArg Queue.maxSize hqueue
    change (mb.ensureRoom needed (mb.size + needed)).maxSize = mb.maxSize at hkeep
    exact ⟨haligned.wrapped (by rwa [hkeep]), hqueue, hroom⟩

/-- A full ring of 16 cells whose head stands at the last cell, doubled by an
enqueue. -/
theorem ring_refines_queue_wrapped :
    ∃ mb : BoundedMailbox Nat, mb.head = 15 ∧ mb.size = 16 ∧ mb.buf.length = 16 ∧
      (queueOf (mb.perform (.enqueue 9)).1, (mb.perform (.enqueue 9)).2) =
        (queueOf mb).perform (.enqueue 9) := by
  let mb : BoundedMailbox Nat :=
    { maxSize := none, overflowStrategy := .dropNewest
      buf := List.replicate 16 (some 7), head := 15, tail := 15, size := 16
      droppedCount := 0 }
  have h : Wrapped mb := ⟨by decide, by decide, by decide⟩
  exact ⟨mb, rfl, rfl, rfl, ((ring_refines_queue h (by decide)).1 _).2⟩

/-- With a head past the end of the buffer the loops that read wrap the index,
while `dequeue` reads past the end. -/
theorem head_past_end_hides_first :
    ∃ mb : BoundedMailbox Nat, 1 ≤ mb.buf.length ∧ mb.size ≤ mb.buf.length ∧
      mb.tail = (mb.head + mb.size) % mb.buf.length ∧ mb.maxSize = none ∧
      mb.toArray = [some 7] ∧ (mb.perform .dequeue).2 = .message none ∧
      ((queueOf mb).perform .dequeue).2 = .message (some 7) :=
  ⟨{ maxSize := none, overflowStrategy := .dropNewest
     buf := some 7 :: List.replicate 15 none, head := 16, tail := 1, size := 1
     droppedCount := 0 }, by decide, by decide, by decide, rfl, by decide,
    by decide, by decide⟩

end Libeam.Proofs.MailboxRing
