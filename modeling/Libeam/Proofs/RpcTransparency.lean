import Libeam.Transport.ZeroMQ
import Libeam.Lib.Flight
import Mathlib.Data.List.Nodup
/-!
# Replies over ZeroMQ

The value of a handler comes back unless it is an object with an `error` that counts as true, and
its exception unless its message is empty.
-/

namespace Libeam.Transport

open Lib

variable {F : Type} [JsonNumber F]

/-! ## Envelopes -/

/-- An envelope as it is read: the id, and the payload unless it is `undefined`. -/
def envelope (correlationId : String) (payload : Option (Json F)) : Json F :=
  .obj (("correlationId", .str correlationId) :: (payload.map fun v => ("payload", v)).toList)

/-- What travels as the payload of a reply. -/
def Handled.payload : Handled F → Option (Json F)
  | .returned value => value
  | .threw message => some (.obj [("error", .str message)])

theorem replyText_eq (correlationId : String) (result : Handled F) :
    replyText correlationId result = Json.stringify (envelope correlationId result.payload) := by
  cases result <;> rfl

theorem written_envelope (correlationId : String) (payload : Option (Json F)) :
    Json.written (envelope correlationId payload) =
      envelope correlationId (payload.map Json.written) := by
  cases payload <;> rw [envelope, envelope, Json.written] <;>
    simp [Json.writtenMembers, Json.written]

omit [JsonNumber F] in
theorem member_correlationId (correlationId : String) (payload : Option (Json F)) :
    member "correlationId" (envelope correlationId payload) = some (.str correlationId) := by
  cases payload <;> simp [envelope, member]

omit [JsonNumber F] in
theorem member_payload (correlationId : String) (payload : Option (Json F)) :
    member "payload" (envelope correlationId payload) = payload := by
  cases payload <;> simp [envelope, member]

/-- A request arrives with its id, and as it is written; one that is `undefined` is dropped. -/
theorem handleRouterMessage_requestText {correlationId : String} (hid : correlationId ≠ "")
    (message : Option (Json F)) : handleRouterMessage (requestText correlationId message) =
      message.map fun v => (correlationId, Json.written v) := by
  change handleRouterMessage (Json.stringify (envelope correlationId message)) = _
  rw [handleRouterMessage, Json.parse_stringify, written_envelope]
  dsimp only
  rw [member_correlationId, member_payload]
  cases message with
  | none => rfl
  | some v => exact if_pos hid

variable [Zero F] [DecidableEq F]

/-- A reply arrives with the id of its request. -/
theorem handleDealerResponse_replyText (correlationId : String) (result : Handled F) :
    handleDealerResponse (replyText correlationId result) =
      some (correlationId, settle (result.payload.map Json.written)) := by
  rw [replyText_eq, handleDealerResponse, Json.parse_stringify, written_envelope]
  dsimp only
  rw [member_correlationId, member_payload]

/-! ## One reply -/

/-- A value that is not taken for an error, or an error that is not taken for a value. -/
def Faithful : Handled F → Prop
  | .returned value => ∀ error, value.bind (member "error") = some error → truthy error = false
  | .threw message => message ≠ ""

/-- A reply settles its request as the handler ended exactly when it is not mistaken. -/
theorem settle_eq_iff_faithful {result : Handled F}
    (hrep : result.payload.map Json.written = result.payload) :
    settle (result.payload.map Json.written) = some (InMemoryTransport.request result) ↔
      Faithful result := by
  rw [hrep]
  cases result with
  | returned value =>
      rw [Handled.payload, settle]
      split
      · rename_i error herror
        by_cases htruthy : truthy error = true
        · refine iff_of_false ?_ fun h => ?_
          · rw [if_pos htruthy, InMemoryTransport.request]
            cases toText error <;> rintro ⟨⟩
          · rw [h error herror] at htruthy
            cases htruthy
        · refine iff_of_true (if_neg htruthy) fun e he => ?_
          cases he.symm.trans herror
          exact Bool.not_eq_true _ ▸ htruthy
      · rename_i hnone
        refine iff_of_true rfl fun e he => ?_
        rw [hnone] at he
        cases he
  | threw message =>
      have herror : settle (Handled.threw (F := F) message).payload =
          if message ≠ "" then some (.rejected message)
          else some (.resolved (some (.obj [("error", .str message)]))) := by
        change (if truthy (Json.str (F := F) message) = true then _ else _) = _
        rw [truthy, toText, Option.map_some]
        by_cases hempty : message = "" <;> simp [hempty, Handled.payload]
      rw [herror]
      by_cases hempty : message = ""
      · exact iff_of_false (by rw [if_neg (not_not.2 hempty)]; rintro ⟨⟩) fun h => h hempty
      · exact iff_of_true (if_pos hempty) hempty

/-! ## Concurrent requests -/

namespace Requests

omit [Zero F] [DecidableEq F] in
theorem payload_of_representable {r : Requests F} {i : Nat} {result : Handled F}
    (h : r.Representable (.finish i result)) :
    result.payload.map Json.written = result.payload := by
  cases result with
  | returned value =>
      cases value with
      | none => rfl
      | some v => exact congrArg some h
  | threw message =>
      rw [Handled.payload, Option.map_some, Json.written]
      simp [Json.writtenMembers, Json.written]

variable {r t : Requests F}

omit [JsonNumber F] [Zero F] [DecidableEq F] in
theorem count_eraseIdx {α : Type} {l : List (String × α)} {i : Nat} {e : String × α}
    (h : l[i]? = some e) (id : String) : (l.map Prod.fst).count id =
      ((l.eraseIdx i).map Prod.fst).count id + if e.1 = id then 1 else 0 := by
  have hperm := ((Flight.perm_eraseIdx h).map Prod.fst).count_eq id
  rw [← hperm, List.map_cons, List.count_cons]
  simp only [beq_iff_eq]

omit [JsonNumber F] [Zero F] [DecidableEq F] in
theorem count_eraseIdx_le {α : Type} (l : List (String × α)) (i : Nat) (id : String) :
    ((l.eraseIdx i).map Prod.fst).count id ≤ (l.map Prod.fst).count id :=
  ((l.eraseIdx_sublist i).map Prod.fst).count_le id

/-- A request is in one place: on its way, with a handler, or answered; and what has settled a
request is the reply to it. -/
structure Sound (r : Requests F) : Prop where
  once : ∀ id, (r.requests.map Prod.fst).count id + (r.handling.map Prod.fst).count id +
    (r.handled.map Prod.fst).count id ≤ if id ∈ r.used then 1 else 0
  nonempty : ∀ e ∈ r.requests, e.1 ≠ ""
  replies : ∀ e ∈ r.replies, e ∈ r.handled
  representable : ∀ e ∈ r.handled, e.2.payload.map Json.written = e.2.payload
  settled : ∀ e ∈ r.settled, ∃ result, (e.1, result) ∈ r.handled ∧
    e.2 = settle (result.payload.map Json.written)

namespace Sound

theorem init : Sound (Requests.init : Requests F) :=
  ⟨fun _ => Nat.zero_le _, nofun, nofun, nofun, nofun⟩

theorem once_eraseIdx (h : Sound r) (i : Nat) (id : String) :
    ((r.requests.eraseIdx i).map Prod.fst).count id + (r.handling.map Prod.fst).count id +
      (r.handled.map Prod.fst).count id ≤ if id ∈ r.used then 1 else 0 := by
  have honce := h.once id
  have hle := count_eraseIdx_le r.requests i id
  omega

theorem step (h : Sound r) {a : RequestAction F} (hrep : r.Representable a)
    (hstep : r.step a = some t) : Sound t := by
  cases a with
  | request id message =>
      rw [Requests.step] at hstep
      split at hstep
      · exact nomatch hstep
      · rename_i hfresh
        cases hstep
        refine { h with once := fun id' => ?_, nonempty := fun e he => ?_ }
        · have honce := h.once id'
          simp only [List.map_append, List.map_singleton, List.count_append,
            List.count_singleton, List.mem_append, List.mem_singleton]
          by_cases hid : id = id'
          · subst hid
            rw [if_neg (fun hu => hfresh (Or.inl hu))] at honce
            simp only [beq_self_eq_true, if_true, or_true]
            omega
          · simp only [beq_iff_eq, hid, Ne.symm hid, if_false, or_false]
            omega
        · rcases List.mem_append.1 he with he | he
          · exact h.nonempty e he
          · rw [List.mem_singleton.1 he]
            exact fun hempty => hfresh (Or.inr hempty)
  | arrive i =>
      rw [Requests.step] at hstep
      split at hstep
      · exact nomatch hstep
      · rename_i id message hmem
        have hnonempty : ∀ e ∈ r.requests.eraseIdx i, e.1 ≠ "" :=
          fun e he => h.nonempty e (List.mem_of_mem_eraseIdx he)
        rw [handleRouterMessage_requestText (h.nonempty _ (List.mem_of_getElem? hmem))] at hstep
        cases message with
        | none =>
            cases hstep
            refine { h with once := fun id' => ?_, nonempty := hnonempty }
            exact h.once_eraseIdx i id'
        | some v =>
            cases hstep
            refine { h with once := fun id' => ?_, nonempty := hnonempty }
            have honce := h.once id'
            rw [count_eraseIdx hmem id'] at honce
            rw [List.map_append, List.count_append, List.map_singleton, List.count_singleton]
            simp only [beq_iff_eq] at honce ⊢
            omega
  | finish i result =>
      rw [Requests.step] at hstep
      split at hstep
      · exact nomatch hstep
      · rename_i id payload hmem
        cases hstep
        refine ⟨fun id' => ?_, h.nonempty, fun e he => ?_, fun e he => ?_, fun e he => ?_⟩
        · have honce := h.once id'
          rw [count_eraseIdx hmem id'] at honce
          rw [List.map_append, List.count_append, List.map_singleton, List.count_singleton]
          simp only [beq_iff_eq] at honce ⊢
          omega
        · exact (List.mem_append.1 he).elim
            (fun he => List.mem_append_left _ (h.replies e he)) (List.mem_append_right _)
        · rcases List.mem_append.1 he with he | he
          · exact h.representable e he
          · rw [List.mem_singleton.1 he]
            exact payload_of_representable hrep
        · obtain ⟨result', hresult', hsettled⟩ := h.settled e he
          exact ⟨result', List.mem_append_left _ hresult', hsettled⟩
  | deliver i =>
      rw [Requests.step] at hstep
      split at hstep
      · exact nomatch hstep
      · rename_i id result hmem
        rw [handleDealerResponse_replyText] at hstep
        have hreplies : ∀ e ∈ r.replies.eraseIdx i, e ∈ r.handled :=
          fun e he => h.replies e (List.mem_of_mem_eraseIdx he)
        dsimp only at hstep
        split at hstep <;> cases hstep
        · refine { h with replies := hreplies, settled := fun e he => ?_ }
          rcases List.mem_append.1 he with he | he
          · exact h.settled e he
          · rw [List.mem_singleton.1 he]
            exact ⟨result, h.replies _ (List.mem_of_getElem? hmem), rfl⟩
        · exact { h with replies := hreplies }
  | timeout id =>
      rw [Requests.step] at hstep
      split at hstep <;> cases hstep
      exact { h with }
  | loseRequest i =>
      cases hstep
      refine { h with
        once := fun id => ?_
        nonempty := fun e he => h.nonempty e (List.mem_of_mem_eraseIdx he) }
      exact h.once_eraseIdx i id
  | loseReply i =>
      cases hstep
      exact { h with replies := fun e he => h.replies e (List.mem_of_mem_eraseIdx he) }

/-- No request is answered twice. -/
theorem handled_unique (h : Sound r) {id : String} {result result' : Handled F}
    (hresult : (id, result) ∈ r.handled) (hresult' : (id, result') ∈ r.handled) :
    result' = result := by
  have hnodup : (r.handled.map Prod.fst).Nodup := List.nodup_iff_count_le_one.2 fun id => by
    have honce := h.once id
    split at honce <;> omega
  exact (Prod.mk.inj (List.inj_on_of_nodup_map hnodup hresult' hresult rfl)).2

end Sound

/-- Whatever the order of the replies, a request that its reply has reached is settled as the
handler ended, that is as by the transport in memory, exactly when the result is not an object
whose `error` counts as true, nor an exception with an empty message. -/
theorem settled_iff_faithful {actions : List (RequestAction F)}
    (hrep : Transition.Along Requests.step Representable Requests.init actions)
    (hrun : Transition.run Requests.step Requests.init actions = some r) :
    ∀ e ∈ r.settled, ∃ result, (e.1, result) ∈ r.handled ∧
      (∀ result', (e.1, result') ∈ r.handled → result' = result) ∧
      (e.2 = some (InMemoryTransport.request result) ↔ Faithful result) := by
  have hsound : Sound r := Transition.run_invariant
    (fun r a t hr ha hstep => hr.step ha hstep) Sound.init hrep hrun
  intro e he
  obtain ⟨result, hresult, hsettled⟩ := hsound.settled e he
  refine ⟨result, hresult, fun _ h => hsound.handled_unique hresult h, ?_⟩
  rw [hsettled]
  exact settle_eq_iff_faithful (hsound.representable _ hresult)

theorem written_int (x : Int) : Json.written (.num x) = .num x := by
  have hread : (JsonNumber.toText x).bind (JsonNumber.ofText (F := Int)) = some x :=
    JsonNumber.intOfText_intText x
  rw [Json.written, hread]
  rfl

/-- Two requests that are answered in the other order, one with a value and one with an error. -/
def crossedReplies : List (RequestAction Int) :=
  [.request "a" (some .null), .request "b" (some .null), .arrive 0, .arrive 0,
    .finish 1 (.returned (some (.num 5))), .finish 0 (.threw "no"), .deliver 0, .deliver 0]

theorem settled_iff_faithful_crossed :
    ∃ r, Transition.run Requests.step Requests.init crossedReplies = some r ∧
      r.settled.map Prod.fst = ["b", "a"] ∧
      ∀ e ∈ r.settled, ∃ result, (e.1, result) ∈ r.handled ∧
        (∀ result', (e.1, result') ∈ r.handled → result' = result) ∧
        (e.2 = some (InMemoryTransport.request result) ↔ Faithful result) := by
  have hrun : ∃ r, Transition.run Requests.step Requests.init crossedReplies = some r ∧
      r.settled.map Prod.fst = ["b", "a"] := by
    simp [crossedReplies, Transition.run, Requests.step, Requests.init,
      handleRouterMessage_requestText, handleDealerResponse_replyText]
  obtain ⟨r, hr, hsettled⟩ := hrun
  refine ⟨r, hr, hsettled, settled_iff_faithful ?_ hr⟩
  refine (Transition.along_of_forall_mem
    (P := fun a => ∀ r : Requests Int, r.Representable a) ?_ _).mono fun r a ha => ha r
  intro a ha r
  simp only [crossedReplies, List.mem_cons, List.not_mem_nil, or_false] at ha
  rcases ha with rfl | rfl | rfl | rfl | rfl | rfl | rfl | rfl <;>
    simp [Requests.Representable, written_int]

/-- A value with an `error` is taken for an exception. -/
theorem returned_error_rejected :
    ∃ r, Transition.run Requests.step Requests.init
        [.request "a" (some .null), .arrive 0,
          .finish 0 (.returned (some (.obj [("error", .str "no")]))), .deliver 0] = some r ∧
      r.handled = [("a", .returned (some (Json.obj (F := Int) [("error", .str "no")])))] ∧
      r.settled = [("a", some (.rejected "no"))] ∧
      Settlement.rejected "no" ≠ InMemoryTransport.request
        (.returned (some (Json.obj (F := Int) [("error", .str "no")]))) :=
  ⟨_, rfl, rfl, rfl, nofun⟩

end Requests

end Libeam.Transport
