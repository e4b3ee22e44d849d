import Libeam.Mailbox
/-!
# The mailbox is a queue

`Shows mb q` says that a reader of `mb` sees the queue `q`; `Holds mb q` adds
that the tail index is the next free slot.  A bulk load of exactly as many
messages as there are cells leaves the tail one past the end, so `replaceWith`
only reaches `Shows`; every operation but `dequeue` goes on from there.
-/

namespace Libeam.Proofs.MailboxQueue

open Lib Mailbox

variable {α : Type}

structure Shows (mb : BoundedMailbox α) (q : List α) : Prop where
  reads : Ring.Reads mb.buf mb.head q
  size_eq : mb.size = q.length
  tail_ok : q.length < mb.buf.length →
    mb.tail = (mb.head + mb.size) % mb.buf.length

/-- The refinement of `BoundedMailbox` to a queue. -/
structure Holds (mb : BoundedMailbox α) (q : List α) : Prop where
  reads : Ring.Reads mb.buf mb.head q
  size_eq : mb.size = q.length
  tail_eq : mb.tail = (mb.head + mb.size) % mb.buf.length

theorem Holds.shows {mb : BoundedMailbox α} {q : List α} (h : Holds mb q) :
    Shows mb q :=
  ⟨h.reads, h.size_eq, fun _ => h.tail_eq⟩

theorem Shows.holds {mb : BoundedMailbox α} {q : List α} (h : Shows mb q)
    (hroom : q.length < mb.buf.length) : Holds mb q :=
  ⟨h.reads, h.size_eq, h.tail_ok hroom⟩

theorem Shows.toArray {mb : BoundedMailbox α} {q : List α} (h : Shows mb q) :
    mb.toArray = q.map some := by
  rw [BoundedMailbox.toArray, h.size_eq]
  exact h.reads.read_eq

theorem holds_new (config : MailboxConfig) :
    Holds (BoundedMailbox.new config : BoundedMailbox α) [] := by
  refine ⟨?_, rfl, rfl⟩
  apply Ring.Reads.nil
  simp [BoundedMailbox.new]

/-! ## Growing -/

theorem Shows.length_buf_grow {mb : BoundedMailbox α} {q : List α}
    (h : Shows mb q) : mb.grow.buf.length = mb.buf.length * 2 := by
  have hfits := h.reads.fits
  simp only [BoundedMailbox.grow, h.toArray, List.length_append, List.length_map,
    List.length_replicate, h.size_eq]
  omega

theorem Shows.grow {mb : BoundedMailbox α} {q : List α} (h : Shows mb q) :
    Holds mb.grow q := by
  have hpos := h.reads.length_pos
  have hfits := h.reads.fits
  have hlen := h.length_buf_grow
  refine ⟨?_, h.size_eq, ?_⟩
  · have hbuf : mb.grow.buf =
        q.map some ++ List.replicate (mb.buf.length * 2 - mb.size) none := by
      rw [← h.toArray]
      rfl
    have hread : Ring.Reads mb.grow.buf 0 q := by
      rw [hbuf]
      apply Ring.Reads.of_prefix
      rw [← hbuf, hlen]
      omega
    exact hread
  · rw [hlen]
    change mb.size = (0 + mb.size) % (mb.buf.length * 2)
    rw [Nat.zero_add, Nat.mod_eq_of_lt]
    rw [h.size_eq]
    omega

/-! ## Enqueue and dequeue -/

theorem Holds.writeTail {mb : BoundedMailbox α} {q : List α} (h : Holds mb q)
    (hroom : q.length < mb.buf.length) (msg : α) :
    Holds { mb.writeTail msg with size := mb.size + 1 } (q ++ [msg]) := by
  have htail : mb.tail < mb.buf.length := by
    rw [h.tail_eq]
    exact Nat.mod_lt _ h.reads.length_pos
  have hlen := Ring.length_writeAt_of_lt htail (some msg)
  refine ⟨?_, ?_, ?_⟩
  · have hpush := h.reads.push hroom msg
    rw [← h.size_eq, ← h.tail_eq] at hpush
    exact hpush
  · simp [h.size_eq]
  · change (mb.tail + 1) % (Ring.writeAt mb.buf mb.tail (some msg)).length =
      (mb.head + (mb.size + 1)) % (Ring.writeAt mb.buf mb.tail (some msg)).length
    rw [hlen, h.tail_eq, Nat.mod_add_mod, Nat.add_assoc]

/-- A mailbox that is not full takes the message at its end. -/
theorem Shows.enqueue {mb : BoundedMailbox α} {q : List α} (h : Shows mb q)
    (hfull : mb.isFull = false) (msg : α) :
    (mb.enqueue msg).2 = .accepted ∧ Holds (mb.enqueue msg).1 (q ++ [msg]) := by
  unfold BoundedMailbox.enqueue
  rw [if_pos hfull]
  refine ⟨rfl, ?_⟩
  by_cases hgrow : mb.size = mb.buf.length
  · have hlen := h.length_buf_grow
    have hpos := h.reads.length_pos
    have hsize := h.size_eq
    simp only [hgrow, if_true]
    exact h.grow.writeTail (by omega) msg
  · have hfits := h.reads.fits
    have hsize := h.size_eq
    have hroom : q.length < mb.buf.length := by omega
    simp only [hgrow, if_false]
    exact (h.holds hroom).writeTail hroom msg

/-- A refused message leaves the length as it was. -/
theorem length_enqueue_of_refused {mb : BoundedMailbox α} {msg : α}
    (h : (mb.enqueue msg).2 = .refused ∨ (mb.enqueue msg).2 = .full) :
    (mb.enqueue msg).1.length = mb.length := by
  unfold BoundedMailbox.enqueue at h ⊢
  by_cases hfull : mb.isFull = false
  · rw [if_pos hfull] at h
    simp at h
  · rw [if_neg hfull] at h ⊢
    cases hs : mb.overflowStrategy with
    | dropNewest | error => simp [BoundedMailbox.length]
    | dropOldest => simp [hs] at h

@[simp] theorem maxSize_enqueue (mb : BoundedMailbox α) (msg : α) :
    (mb.enqueue msg).1.maxSize = mb.maxSize := by
  unfold BoundedMailbox.enqueue
  by_cases hfull : mb.isFull = false
  · rw [if_pos hfull]
    dsimp only
    split_ifs <;> rfl
  · rw [if_neg hfull]
    cases hs : mb.overflowStrategy <;> simp [BoundedMailbox.writeTail]

@[simp] theorem maxSize_dequeue (mb : BoundedMailbox α) :
    mb.dequeue.1.maxSize = mb.maxSize := by
  unfold BoundedMailbox.dequeue
  split_ifs <;> rfl

theorem isFull_of_unbounded {mb : BoundedMailbox α} (h : mb.maxSize = none) :
    mb.isFull = false := by
  simp [BoundedMailbox.isFull, h]

theorem Holds.pop {mb : BoundedMailbox α} {msg : α} {q : List α}
    (h : Holds mb (msg :: q)) :
    Holds { mb with
      buf := Ring.writeAt mb.buf mb.head none
      head := (mb.head + 1) % (Ring.writeAt mb.buf mb.head none).length
      size := mb.size - 1 } q := by
  have hsize : mb.size = q.length + 1 := h.size_eq
  have hlen := Ring.length_writeAt_of_lt h.reads.head_lt (none : Option α)
  refine ⟨?_, ?_, ?_⟩
  · have hpop := h.reads.pop
    rw [← hlen] at hpop
    exact hpop
  · change mb.size - 1 = q.length
    omega
  · change mb.tail = ((mb.head + 1) % (Ring.writeAt mb.buf mb.head none).length +
      (mb.size - 1)) % (Ring.writeAt mb.buf mb.head none).length
    rw [hlen, Ring.wrap_succ, h.tail_eq]
    congr 2
    omega

theorem Holds.dequeue {mb : BoundedMailbox α} {msg : α} {q : List α}
    (h : Holds mb (msg :: q)) :
    mb.dequeue.2 = some msg ∧ Holds mb.dequeue.1 q := by
  have hsize : mb.size = q.length + 1 := h.size_eq
  have hhead := h.reads.cell 0 (by simp)
  rw [Nat.add_zero, Nat.mod_eq_of_lt h.reads.head_lt] at hhead
  unfold BoundedMailbox.dequeue
  rw [if_neg (by omega)]
  exact ⟨by simp [hhead], h.pop⟩

/-- Evicting the head of a full mailbox; one of capacity 0 stays empty. -/
theorem Holds.evict {mb : BoundedMailbox α} {q : List α} (h : Holds mb q)
    (msg : α) :
    ∃ q', Holds ({ mb with
      buf := Ring.writeAt mb.buf mb.head none
      head := (mb.head + 1) % (Ring.writeAt mb.buf mb.head none).length
      }.writeTail msg) q' := by
  have hlen := Ring.length_writeAt_of_lt h.reads.head_lt (none : Option α)
  cases q with
  | nil =>
      have hsize : mb.size = 0 := h.size_eq
      have htail : mb.tail = mb.head := by
        rw [h.tail_eq, hsize, Nat.add_zero, Nat.mod_eq_of_lt h.reads.head_lt]
      have hwrite : mb.tail < (Ring.writeAt mb.buf mb.head none).length := by
        rw [hlen, htail]
        exact h.reads.head_lt
      have hlen' := Ring.length_writeAt_of_lt hwrite (some msg)
      refine ⟨[], Ring.Reads.nil ?_, hsize, ?_⟩
      · change (mb.head + 1) % (Ring.writeAt mb.buf mb.head none).length <
          (Ring.writeAt (Ring.writeAt mb.buf mb.head none) mb.tail
            (some msg)).length
        rw [hlen', hlen]
        exact Nat.mod_lt _ h.reads.length_pos
      · change (mb.tail + 1) % (Ring.writeAt (Ring.writeAt mb.buf mb.head none)
          mb.tail (some msg)).length =
            ((mb.head + 1) % (Ring.writeAt mb.buf mb.head none).length + mb.size) %
              (Ring.writeAt (Ring.writeAt mb.buf mb.head none) mb.tail
                (some msg)).length
        rw [hlen', hlen, htail, hsize]
        simp only [Nat.add_zero, Nat.mod_mod]
  | cons m q =>
      have hsize : mb.size = q.length + 1 := h.size_eq
      have hfits := h.reads.fits
      rw [List.length_cons] at hfits
      refine ⟨q ++ [msg], ?_⟩
      have hroom : q.length < (Ring.writeAt mb.buf mb.head none).length := by omega
      have hwrite := h.pop.writeTail hroom msg
      have hback : mb.size - 1 + 1 = mb.size := by omega
      simp only [hback] at hwrite
      exact hwrite

/-- Whatever the bound and the overflow strategy, `enqueue` leaves a sound
mailbox. -/
theorem Holds.enqueue {mb : BoundedMailbox α} {q : List α} (h : Holds mb q)
    (msg : α) : ∃ q', Holds (mb.enqueue msg).1 q' := by
  by_cases hfull : mb.isFull = false
  · exact ⟨_, (h.shows.enqueue hfull msg).2⟩
  · have hdrop : Holds { mb with droppedCount := mb.droppedCount + 1 } q :=
      ⟨h.reads, h.size_eq, h.tail_eq⟩
    unfold BoundedMailbox.enqueue
    rw [if_neg hfull]
    cases hs : mb.overflowStrategy with
    | dropNewest | error => exact ⟨q, by simpa only [hs] using hdrop⟩
    | dropOldest =>
        obtain ⟨q', hq'⟩ := hdrop.evict msg
        exact ⟨q', by simpa only [hs] using hq'⟩

/-! ## Prepending -/

theorem Shows.pushFront {mb : BoundedMailbox α} {q : List α} (h : Shows mb q)
    (hroom : q.length < mb.buf.length) (msg : α) :
    Holds (mb.pushFront (some msg)) (msg :: q) := by
  have hhead : (mb.head + mb.buf.length - 1) % mb.buf.length < mb.buf.length :=
    Nat.mod_lt _ h.reads.length_pos
  have hlen := Ring.length_writeAt_of_lt hhead (some msg)
  refine ⟨h.reads.cons hroom msg, by simp [BoundedMailbox.pushFront, h.size_eq], ?_⟩
  change mb.tail = ((mb.head + mb.buf.length - 1) % mb.buf.length + (mb.size + 1)) %
    (Ring.writeAt mb.buf ((mb.head + mb.buf.length - 1) % mb.buf.length)
      (some msg)).length
  rw [hlen, Ring.wrap_pred h.reads.head_lt, h.tail_ok hroom]

theorem length_buf_pushFront {mb : BoundedMailbox α} (hpos : 0 < mb.buf.length)
    (msg : Option α) : (mb.pushFront msg).buf.length = mb.buf.length :=
  Ring.length_writeAt_of_lt (Nat.mod_lt _ hpos) msg

/-- The growing loop keeps the queue and ends with enough room. -/
theorem Shows.ensureRoom {mb : BoundedMailbox α} {q : List α} (h : Shows mb q)
    (needed fuel : Nat) (hfuel : q.length + needed ≤ mb.buf.length + fuel) :
    Shows (mb.ensureRoom needed fuel) q ∧
      q.length + needed ≤ (mb.ensureRoom needed fuel).buf.length := by
  induction fuel generalizing mb with
  | zero => exact ⟨h, hfuel⟩
  | succ fuel ih =>
      unfold BoundedMailbox.ensureRoom
      have hsize := h.size_eq
      split_ifs with hsmall
      · have hpos := h.reads.length_pos
        apply ih h.grow.shows
        rw [h.length_buf_grow]
        omega
      · exact ⟨h, by omega⟩

theorem Shows.foldr_pushFront {mb : BoundedMailbox α} {q : List α}
    (h : Shows mb q) (msgs : List α)
    (hroom : q.length + msgs.length ≤ mb.buf.length) :
    Shows ((msgs.map some).foldr BoundedMailbox.pushFront mb) (msgs ++ q) ∧
      ((msgs.map some).foldr BoundedMailbox.pushFront mb).buf.length =
        mb.buf.length := by
  induction msgs with
  | nil => exact ⟨h, rfl⟩
  | cons msg msgs ih =>
      rw [List.length_cons] at hroom
      obtain ⟨hshows, hlen⟩ := ih (by omega)
      have hlt : (msgs ++ q).length <
          ((msgs.map some).foldr BoundedMailbox.pushFront mb).buf.length := by
        rw [hlen, List.length_append]
        omega
      refine ⟨(hshows.pushFront hlt msg).shows, ?_⟩
      rw [List.map_cons, List.foldr_cons,
        length_buf_pushFront hshows.reads.length_pos, hlen]

theorem Shows.unshift_nil {mb : BoundedMailbox α} {q : List α} (h : Shows mb q) :
    mb.unshift [] = mb := by
  have hfits := h.reads.fits
  have hsize := h.size_eq
  cases hs : mb.size with
  | zero => simp [BoundedMailbox.unshift, BoundedMailbox.ensureRoom, hs]
  | succ n =>
      have hroom : ¬ mb.buf.length < n + 1 := by omega
      simp [BoundedMailbox.unshift, BoundedMailbox.ensureRoom, hs, hroom]

theorem Shows.unshift_cons {mb : BoundedMailbox α} {q : List α} (h : Shows mb q)
    (msg : α) (msgs : List α) :
    Holds (mb.unshift ((msg :: msgs).map some)) (msg :: msgs ++ q) := by
  have hsize := h.size_eq
  obtain ⟨hshows, hroom⟩ := h.ensureRoom (msg :: msgs).length
    (mb.size + (msg :: msgs).length) (by omega)
  rw [List.length_cons] at hroom
  obtain ⟨hrest, hlen⟩ := hshows.foldr_pushFront msgs (by simp; omega)
  unfold BoundedMailbox.unshift
  rw [List.length_map, List.map_cons, List.foldr_cons]
  apply hrest.pushFront
  simp only [List.length_cons] at hlen ⊢
  rw [hlen, List.length_append]
  omega

theorem Shows.unshift {mb : BoundedMailbox α} {q : List α} (h : Shows mb q)
    (msgs : List α) : Shows (mb.unshift (msgs.map some)) (msgs ++ q) := by
  cases msgs with
  | nil => simpa [h.unshift_nil] using h
  | cons msg msgs => exact (h.unshift_cons msg msgs).shows

/-- Prepending keeps a sound tail sound. -/
theorem Holds.unshift {mb : BoundedMailbox α} {q : List α} (h : Holds mb q)
    (msgs : List α) : Holds (mb.unshift (msgs.map some)) (msgs ++ q) := by
  cases msgs with
  | nil => simpa [h.shows.unshift_nil] using h
  | cons msg msgs => exact h.shows.unshift_cons msg msgs

@[simp] theorem maxSize_ensureRoom (mb : BoundedMailbox α) (needed fuel : Nat) :
    (mb.ensureRoom needed fuel).maxSize = mb.maxSize := by
  induction fuel generalizing mb with
  | zero => rfl
  | succ fuel ih =>
      unfold BoundedMailbox.ensureRoom
      split_ifs
      · exact ih mb.grow
      · rfl

@[simp] theorem maxSize_unshift (mb : BoundedMailbox α) (msgs : List (Option α)) :
    (mb.unshift msgs).maxSize = mb.maxSize := by
  have hpush : ∀ mb' : BoundedMailbox α,
      (msgs.foldr BoundedMailbox.pushFront mb').maxSize = mb'.maxSize := by
    intro mb'
    induction msgs with
    | nil => rfl
    | cons msg msgs ih => exact ih
  rw [BoundedMailbox.unshift, hpush, maxSize_ensureRoom]

/-! ## Emptying and bulk loading -/

theorem Shows.clear {mb : BoundedMailbox α} {q : List α} (h : Shows mb q) :
    Holds mb.clear [] := by
  refine ⟨Ring.Reads.nil ?_, rfl, ?_⟩
  · simpa [BoundedMailbox.clear] using h.reads.length_pos
  · simp [BoundedMailbox.clear]

theorem load_append (done rest msgs : List (Option α)) :
    BoundedMailbox.load (done ++ rest) done.length msgs =
      done ++ msgs ++ rest.drop msgs.length := by
  induction msgs generalizing done rest with
  | nil => simp [BoundedMailbox.load]
  | cons m msgs ih =>
      have hwrite : Ring.writeAt (done ++ rest) done.length m =
          (done ++ [m]) ++ rest.drop 1 := by
        cases rest with
        | nil => simp
        | cons r rest =>
            rw [Ring.writeAt_of_lt (by simp)]
            simp
      have hnext := ih (done ++ [m]) (rest.drop 1)
      rw [List.length_append, List.length_singleton] at hnext
      rw [BoundedMailbox.load, hwrite, hnext]
      simp [List.append_assoc]

theorem shows_replaceWith (mb : BoundedMailbox α) (msgs : List α) :
    Shows (mb.replaceWith (msgs.map some)) msgs := by
  have hload : ∀ n, BoundedMailbox.load (List.replicate n none) 0 (msgs.map some) =
      msgs.map some ++ (List.replicate n none).drop (msgs.map some).length := by
    intro n
    simpa using load_append [] (List.replicate n none) (msgs.map some)
  -- at least 16 cells are kept or allocated, whatever `nextPow2` returns
  have hbuf : ∃ n, 16 ≤ n ∧ (mb.replaceWith (msgs.map some)).buf =
      msgs.map some ++ (List.replicate n none).drop (msgs.map some).length := by
    simp only [BoundedMailbox.replaceWith]
    split_ifs with hsmall
    · exact ⟨_, by omega, hload _⟩
    · exact ⟨_, by omega, hload _⟩
  obtain ⟨n, hn, hbuf⟩ := hbuf
  have hlen : (mb.replaceWith (msgs.map some)).buf.length =
      msgs.length + (n - msgs.length) := by
    simp [hbuf]
  have hsize : (mb.replaceWith (msgs.map some)).size = msgs.length :=
    List.length_map _
  refine ⟨?_, hsize, ?_⟩
  · change Ring.Reads _ 0 msgs
    rw [hbuf]
    apply Ring.Reads.of_prefix
    rw [← hbuf, hlen]
    omega
  · intro hroom
    change (msgs.map some).length =
      (0 + (msgs.map some).length) % (mb.replaceWith (msgs.map some)).buf.length
    rw [List.length_map, Nat.zero_add, Nat.mod_eq_of_lt hroom]

end Libeam.Proofs.MailboxQueue
