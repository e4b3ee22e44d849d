import Libeam.Proofs.RpcTransparency
import Libeam.Transport.Pending
import Mathlib.Data.List.Nodup
/-!
# Requests settle once

Every path that takes a request out of the table settles it, but for a reply whose
error cannot be made a message.  A path that comes late finds the promise settled.
-/

namespace Libeam.Proofs.RequestSettlement

open Lib Lib.Transition Transport Transport.PendingTable

variable {F : Type} {s t : PendingTable F}

/-! ## Promises -/

theorem isSettled_iff {id : String} :
    s.isSettled id = true ↔ id ∈ s.settled.map Prod.fst := by
  simp only [isSettled, List.any_eq_true, decide_eq_true_eq, List.mem_map]

/-- A settlement adds its id, and an entry only for a promise that was open. -/
theorem mem_ids_settlePromise {id id' : String} {r : Settlement F} :
    id' ∈ (s.settlePromise id r).settled.map Prod.fst ↔
      id' ∈ s.settled.map Prod.fst ∨ id' = id := by
  unfold settlePromise
  split_ifs with h
  · constructor
    · exact Or.inl
    · rintro (h' | rfl)
      · exact h'
      · exact isSettled_iff.1 h
  · simp

theorem mem_settlePromise {id : String} {r : Settlement F} {e : String × Settlement F}
    (h : e ∈ (s.settlePromise id r).settled) : e ∈ s.settled ∨ e = (id, r) := by
  unfold settlePromise at h
  split_ifs at h
  · exact Or.inl h
  · obtain h | h := List.mem_append.1 h
    · exact Or.inl h
    · exact Or.inr (List.mem_singleton.1 h)

theorem nodup_settlePromise (h : (s.settled.map Prod.fst).Nodup) (id : String)
    (r : Settlement F) : ((s.settlePromise id r).settled.map Prod.fst).Nodup := by
  unfold settlePromise
  split_ifs with hs
  · exact h
  · rw [List.map_append]
    refine h.append (List.nodup_singleton id) ?_
    rw [List.disjoint_right]
    intro id' hid'
    rw [List.mem_singleton.1 hid', ← isSettled_iff]
    exact hs

/-- Settling leaves the tables alone. -/
theorem settlePromise_eq (s : PendingTable F) (id : String) (r : Settlement F) :
    ∃ settled, s.settlePromise id r = { s with settled := settled } := by
  unfold settlePromise
  split_ifs
  · exact ⟨s.settled, rfl⟩
  · exact ⟨_, rfl⟩

/-- What a path that settles several promises with an error makes of the record. -/
structure Rejects (s t : PendingTable F) (ids : List String) : Prop where
  mem_ids : ∀ id, id ∈ t.settled.map Prod.fst ↔
    id ∈ s.settled.map Prod.fst ∨ id ∈ ids
  nodup : (s.settled.map Prod.fst).Nodup → (t.settled.map Prod.fst).Nodup
  resolved : ∀ id payload, (id, Settlement.resolved payload) ∈ t.settled →
    (id, Settlement.resolved payload) ∈ s.settled
  received : t.received = s.received
  issued : t.issued = s.issued
  sending : t.sending = s.sending

theorem rejects_foldl (error : String) (ids : List String) (s : PendingTable F) :
    Rejects s (ids.foldl (fun s id => s.settlePromise id (.rejected error)) s) ids := by
  induction ids generalizing s with
  | nil => exact ⟨by simp, fun h => h, fun _ _ h => h, rfl, rfl, rfl⟩
  | cons id ids ih =>
      have hrest := ih (s.settlePromise id (.rejected error))
      obtain ⟨settled, heq⟩ := settlePromise_eq s id (.rejected error)
      refine ⟨fun id' => ?_, fun h => hrest.nodup (nodup_settlePromise h id _),
        fun id' payload h => ?_, ?_, ?_, ?_⟩
      · rw [List.foldl_cons, hrest.mem_ids, mem_ids_settlePromise, List.mem_cons, or_assoc]
      · obtain h | h := mem_settlePromise (hrest.resolved id' payload h)
        · exact h
        · cases h
      · rw [List.foldl_cons, hrest.received, heq]
      · rw [List.foldl_cons, hrest.issued, heq]
      · rw [List.foldl_cons, hrest.sending, heq]

/-! ## The invariant -/

variable [JsonNumber F]

/-- The promises are in order, and what is on its way belongs to a request. -/
structure Sound (s : PendingTable F) : Prop where
  order : InOrder s
  settled_issued : ∀ id ∈ s.settled.map Prod.fst, id ∈ s.issued
  timer_pending : ∀ timer ∈ s.timers, timer.correlationId ∈ s.pendingRequests
  sending_issued : ∀ e ∈ s.sending, e.1 ∈ s.issued

theorem Sound.pending_issued (h : Sound s) {id : String} (hid : id ∈ s.pendingRequests) :
    id ∈ s.issued :=
  ((h.order.pending_iff id).1 hid).1

theorem sound_init : Sound (init : PendingTable F) where
  order :=
    { once := List.nodup_nil
      own := fun _ _ h => absurd h List.not_mem_nil
      pending_iff := fun _ => ⟨fun h => absurd h List.not_mem_nil,
        fun h => absurd h.1 List.not_mem_nil⟩ }
  settled_issued _ h := absurd h List.not_mem_nil
  timer_pending _ h := absurd h List.not_mem_nil
  sending_issued _ h := absurd h List.not_mem_nil

/-- A send that ends leaves the table and the promises alone. -/
theorem Sound.take (h : Sound s) (e : String × String) :
    Sound { s with sending := s.sending.erase e } :=
  ⟨⟨h.order.once, h.order.own, h.order.pending_iff⟩, h.settled_issued, h.timer_pending,
    fun e' he => h.sending_issued e' (List.mem_of_mem_erase he)⟩

/-- Taking a request out of the table and settling it, whatever came before. -/
theorem Sound.finish (h : Sound s) {id : String} (hid : id ∈ s.issued) {r : Settlement F}
    (hown : ∀ payload, r = .resolved payload → ∃ text ∈ s.received,
      ∃ envelope : Json F, Json.parse text = some envelope ∧
        member "correlationId" envelope = some (.str id) ∧
        payload = member "payload" envelope) :
    Sound ((s.forget id).settlePromise id r) := by
  obtain ⟨settled, heq⟩ := settlePromise_eq (s.forget id) id r
  have hreceived : ((s.forget id).settlePromise id r).received = s.received := by
    rw [heq]
    rfl
  have hissued : ((s.forget id).settlePromise id r).issued = s.issued := by
    rw [heq]
    rfl
  have hpending : ((s.forget id).settlePromise id r).pendingRequests =
      s.pendingRequests.filter fun id' => id' ≠ id := by
    rw [heq]
    rfl
  have honce := nodup_settlePromise (s := s.forget id) h.order.once id r
  refine ⟨⟨honce, fun id' payload hin => ?_, fun id' => ?_⟩,
    fun id' hin => ?_, fun timer htimer => ?_, fun e he => ?_⟩
  · rw [hreceived]
    obtain hin | hin := mem_settlePromise hin
    · exact h.order.own id' payload hin
    · injection hin with h₁ h₂
      subst h₁
      exact hown payload h₂.symm
  · rw [hpending, hissued, mem_ids_settlePromise, List.mem_filter, h.order.pending_iff]
    change (id' ∈ s.issued ∧ id' ∉ s.settled.map Prod.fst) ∧ _ ↔
      id' ∈ s.issued ∧ ¬ (id' ∈ s.settled.map Prod.fst ∨ id' = id)
    simp only [decide_eq_true_eq, not_or, and_assoc, ne_eq]
  · rw [hissued]
    obtain hin | rfl := mem_ids_settlePromise.1 hin
    · exact h.settled_issued id' hin
    · exact hid
  · rw [hpending]
    have htimer : timer ∈ (s.forget id).timers := by
      rw [heq] at htimer
      exact htimer
    obtain ⟨hin, hne⟩ := List.mem_filter.1 htimer
    exact List.mem_filter.2 ⟨h.timer_pending timer hin, hne⟩
  · rw [hissued]
    rw [heq] at he
    exact h.sending_issued e he

/-- Rejecting everything empties the table. -/
theorem Sound.rejectAll (h : Sound s) (error : String) : Sound (s.rejectAll error) := by
  have hrejects := rejects_foldl error s.pendingRequests s
  refine ⟨⟨hrejects.nodup h.order.once, fun id payload hin => ?_, fun id => ?_⟩,
    fun id hin => ?_, fun timer htimer => ?_, fun e he => ?_⟩
  · obtain ⟨text, htext, hrest⟩ := h.order.own id payload (hrejects.resolved id payload hin)
    exact ⟨text, hrejects.received ▸ htext, hrest⟩
  · change id ∈ [] ↔ id ∈ (List.foldl _ s s.pendingRequests).issued ∧
      id ∉ (List.foldl _ s s.pendingRequests).settled.map Prod.fst
    rw [hrejects.issued, hrejects.mem_ids, h.order.pending_iff]
    simp only [List.not_mem_nil, false_iff]
    tauto
  · change id ∈ (List.foldl _ s s.pendingRequests).issued
    rw [hrejects.issued]
    obtain hin | hin := (hrejects.mem_ids id).1 hin
    · exact h.settled_issued id hin
    · exact h.pending_issued hin
  · obtain ⟨hin, hnot⟩ := List.mem_filter.1 htimer
    exact absurd (h.timer_pending timer hin) (by simpa using hnot)
  · change e.1 ∈ (List.foldl _ s s.pendingRequests).issued
    rw [hrejects.issued]
    have he : e ∈ (List.foldl (fun s id => s.settlePromise id (.rejected error)) s
      s.pendingRequests).sending := he
    rw [hrejects.sending] at he
    exact h.sending_issued e he

variable [Zero F] [DecidableEq F]

/-- A reply that is read as a value or an error, or one that is not for a pending
request. -/
theorem Sound.response (h : Sound s) {text : List Char} (hconv : s.Convertible (.response text)) :
    Sound (s.response text) := by
  have hrecord : Sound { s with received := s.received ++ [text] } := by
    refine ⟨⟨h.order.once, fun id payload hin => ?_, h.order.pending_iff⟩, h.settled_issued,
      h.timer_pending, h.sending_issued⟩
    obtain ⟨text', htext, hrest⟩ := h.order.own id payload hin
    exact ⟨text', List.mem_append_left _ htext, hrest⟩
  unfold PendingTable.response
  dsimp only
  split
  next => exact hrecord
  next id settlement hread =>
    split_ifs with hpending
    · cases settlement with
      | none => exact absurd hpending (hconv id hread)
      | some r =>
          refine hrecord.finish (h.pending_issued hpending) fun payload hr => ?_
          subst hr
          -- a resolved promise has the payload of the envelope
          unfold handleDealerResponse at hread
          split at hread
          next => cases hread
          next envelope hparse =>
            split at hread
            next id' hid =>
              injection hread with hread
              injection hread with h₁ h₂
              subst h₁
              refine ⟨text, List.mem_append_right _ (List.mem_singleton_self text), envelope,
                hparse, hid, ?_⟩
              unfold settle at h₂
              split at h₂
              next =>
                split_ifs at h₂
                · obtain ⟨message, -, hm⟩ := Option.map_eq_some_iff.1 h₂
                  cases hm
                · injection h₂ with h₂
                  injection h₂ with h₂
                  exact h₂.symm
              next =>
                injection h₂ with h₂
                injection h₂ with h₂
                exact h₂.symm
            next => cases hread
    · exact hrecord

theorem Sound.step (h : Sound s) {a : PendingAction} (hconv : s.Convertible a)
    (hst : s.step a = some t) : Sound t := by
  cases a with
  | request id nodeId timeoutMs =>
      simp only [PendingTable.step] at hst
      split_ifs at hst with hnew
      obtain rfl := Option.some.inj hst
      have hopen : id ∉ s.settled.map Prod.fst := fun hin => hnew (h.settled_issued id hin)
      refine ⟨⟨h.order.once, h.order.own, fun id' => ?_⟩, fun id' hin => ?_,
        fun timer htimer => ?_, fun e he => ?_⟩
      · dsimp only
        rw [List.mem_append, List.mem_append, List.mem_singleton, h.order.pending_iff]
        constructor
        · rintro (⟨hin, hset⟩ | rfl)
          · exact ⟨Or.inl hin, hset⟩
          · exact ⟨Or.inr rfl, hopen⟩
        · rintro ⟨hin | rfl, hset⟩
          · exact Or.inl ⟨hin, hset⟩
          · exact Or.inr rfl
      · exact List.mem_append_left _ (h.settled_issued id' hin)
      · obtain hin | hin := List.mem_append.1 htimer
        · exact List.mem_append_left _ (h.timer_pending timer hin)
        · rw [List.mem_singleton.1 hin]
          exact List.mem_append_right _ (List.mem_singleton_self id)
      · obtain hin | hin := List.mem_append.1 he
        · exact List.mem_append_left _ (h.sending_issued e hin)
        · rw [List.mem_singleton.1 hin]
          exact List.mem_append_right _ (List.mem_singleton_self id)
  | response text =>
      obtain rfl := Option.some.inj hst
      exact h.response hconv
  | timeout timer =>
      simp only [PendingTable.step] at hst
      split_ifs at hst with hin
      obtain rfl := Option.some.inj hst
      exact h.finish (h.pending_issued (h.timer_pending timer hin)) fun _ hr => by cases hr
  | sent id nodeId =>
      simp only [PendingTable.step] at hst
      split_ifs at hst with hin
      obtain rfl := Option.some.inj hst
      exact h.take (id, nodeId)
  | sendFails id nodeId =>
      simp only [PendingTable.step] at hst
      split_ifs at hst with hin
      obtain rfl := Option.some.inj hst
      exact (h.take (id, nodeId)).finish (h.sending_issued _ hin) fun _ hr => by cases hr
  | rotateCurveKeys | disconnect =>
      obtain rfl := Option.some.inj hst
      exact h.rejectAll _

/-- An error that cannot be made a message: the entry is deleted and nothing settled. -/
theorem response_of_unconvertible {text : List Char} {id : String}
    (hread : handleDealerResponse (F := F) text = some (id, none))
    (hpending : id ∈ s.pendingRequests) :
    s.response text = ({ s with received := s.received ++ [text] } : PendingTable F).forget id := by
  unfold PendingTable.response
  dsimp only
  rw [hread]
  exact if_pos hpending

/-- A reply whose error cannot be made a message takes its request out of the table
and settles nothing. -/
theorem Sound.not_inOrder (h : Sound s) {a : PendingAction} (hconv : ¬ s.Convertible a)
    (hst : s.step a = some t) : ¬ InOrder t := by
  cases a with
  | response text =>
      obtain rfl := Option.some.inj hst
      simp only [Convertible, not_forall, not_not] at hconv
      obtain ⟨id, hread, hpending⟩ := hconv
      obtain ⟨hissued, hopen⟩ := (h.order.pending_iff id).1 hpending
      have heq := response_of_unconvertible hread hpending
      intro horder
      have hin : id ∈ (s.response text).pendingRequests := by
        rw [horder.pending_iff, heq]
        exact ⟨hissued, hopen⟩
      rw [heq] at hin
      have hne := (List.mem_filter.1 hin).2
      simp at hne
  | _ => exact absurd trivial hconv

/-- In every state of a run each promise is settled at most once, it is resolved only
with the payload of a reply that carries its id, and the table holds exactly the
requests that are issued and not settled, if and only if every reply to a pending
request can be made a value or an error. -/
theorem inOrder_iff {actions : List PendingAction}
    (hrun : run PendingTable.step (init : PendingTable F) actions = some s) :
    Throughout PendingTable.step InOrder (init : PendingTable F) actions ↔
      Along PendingTable.step Convertible (init : PendingTable F) actions :=
  throughout_iff_along (I := Sound) (A := fun _ _ => True)
    (fun _ _ _ h _ hconv hst => h.step hconv hst) (fun _ h => h.order)
    (fun _ _ _ h _ hconv hst => h.not_inOrder hconv hst) sound_init
    (along_of_forall_mem (P := fun _ => True) (fun _ _ => trivial) _) hrun

/-- A reply that comes twice, with a rotation of the keys after it. -/
theorem inOrder_iff_twice :
    let reply := replyText (F := Int) "a" (.returned none)
    let actions := [.request "a" "n2" 5000, .response reply, .response reply, .rotateCurveKeys]
    ∃ s, run PendingTable.step (init : PendingTable Int) actions = some s ∧
      (Throughout PendingTable.step InOrder (init : PendingTable Int) actions ↔
        Along PendingTable.step Convertible (init : PendingTable Int) actions) := by
  intro reply actions
  have hrun : ∃ s, run PendingTable.step (init : PendingTable Int) actions = some s :=
    ⟨_, rfl⟩
  obtain ⟨s, hs⟩ := hrun
  exact ⟨s, hs, inOrder_iff hs⟩

/-- The error of a reply has a member `toString` of its own: the request is forgotten,
and its promise is never settled. -/
theorem toString_forgets_request :
    let error : Json Int := .obj [("error", .obj [("toString", .num 1)])]
    ∃ s, run PendingTable.step (init : PendingTable Int)
        [.request "a" "n2" 5000, .response (replyText "a" (.returned (some error)))] = some s ∧
      "a" ∈ s.issued ∧ "a" ∉ s.pendingRequests ∧ s.timers = [] ∧ s.settled = [] ∧
      ¬ InOrder s := by
  intro error
  have hread : handleDealerResponse (replyText "a" (.returned (some error))) =
      some ("a", (none : Option (Settlement Int))) := by
    rw [handleDealerResponse_replyText]
    simp [error, Handled.payload, Json.written, Json.writtenMembers, settle, member, truthy,
      toText]
  have hresponse : PendingTable.response
      (⟨["a"], [⟨"a", "n2", 5000⟩], [("a", "n2")], ["a"], [], []⟩ : PendingTable Int)
      (replyText "a" (.returned (some error))) =
        ⟨[], [], [("a", "n2")], ["a"], [replyText "a" (.returned (some error))], []⟩ := by
    rw [response_of_unconvertible hread List.mem_cons_self]
    simp [forget]
  have hrun : run PendingTable.step (init : PendingTable Int)
      [.request "a" "n2" 5000, .response (replyText "a" (.returned (some error)))] =
        some ⟨[], [], [("a", "n2")], ["a"], [replyText "a" (.returned (some error))], []⟩ := by
    rw [← hresponse]
    simp [run, step, init]
  refine ⟨_, hrun, by simp, by simp, rfl, rfl, fun h => ?_⟩
  have hin := (h.pending_iff "a").2 ⟨by simp, by simp⟩
  simp at hin

end Libeam.Proofs.RequestSettlement
