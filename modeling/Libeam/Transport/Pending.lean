import Libeam.Transport.ZeroMQ
/-!
# Pending requests

The table `pendingRequests` of a ZeroMQ transport, the timers of its entries and the
sends in progress.  Five paths settle a request: its time-out, a failed send, a reply,
`rotateCurveKeys` and `disconnect`.  A promise keeps its first settlement; what is
invoked on it later has no effect.
-/

namespace Libeam.Transport

open Lib

/-- A `setTimeout` of `request` that is neither cleared nor fired. -/
structure RequestTimer where
  correlationId : String
  nodeId : String
  timeoutMs : Nat
  deriving DecidableEq, Repr

/-- The message of the `TimeoutError`. -/
def RequestTimer.error (timer : RequestTimer) : String :=
  "Operation timed out after " ++ toString timer.timeoutMs ++ "ms: request to " ++ timer.nodeId

structure PendingTable (F : Type) where
  /-- The keys of `pendingRequests`. -/
  pendingRequests : List String
  timers : List RequestTimer
  /-- Calls of `sendMessage` in progress: the id and the node. -/
  sending : List (String × String)
  /-- History: the requests whose promise was made. -/
  issued : List String
  /-- History: the texts that came in on the dealer sockets. -/
  received : List (List Char)
  /-- How each promise was settled. -/
  settled : List (String × Settlement F)

inductive PendingAction where
  | request (correlationId nodeId : String) (timeoutMs : Nat)
  /-- Any text comes in: a reply, a copy of one, a late one or none at all. -/
  | response (text : List Char)
  | timeout (timer : RequestTimer)
  | sent (correlationId nodeId : String)
  | sendFails (correlationId nodeId : String)
  | rotateCurveKeys
  | disconnect
  deriving DecidableEq, Repr

namespace PendingTable

variable {F : Type}

def init : PendingTable F := ⟨[], [], [], [], [], []⟩

def isSettled (s : PendingTable F) (correlationId : String) : Bool :=
  s.settled.any fun e => e.1 = correlationId

/-- `resolve` or `reject`; only the first call counts. -/
def settlePromise (s : PendingTable F) (correlationId : String) (r : Settlement F) :
    PendingTable F :=
  if s.isSettled correlationId then s
  else { s with settled := s.settled ++ [(correlationId, r)] }

/-- `clearTimeout` and `pendingRequests.delete`. -/
def forget (s : PendingTable F) (correlationId : String) : PendingTable F :=
  { s with
    timers := s.timers.filter fun timer => timer.correlationId ≠ correlationId
    pendingRequests := s.pendingRequests.filter fun id => id ≠ correlationId }

/-- Reject everything that is pending, as `rotateCurveKeys` and `disconnect` do. -/
def rejectAll (s : PendingTable F) (error : String) : PendingTable F :=
  { s.pendingRequests.foldl (fun s id => s.settlePromise id (.rejected error)) s with
    timers := s.timers.filter fun timer => timer.correlationId ∉ s.pendingRequests
    pendingRequests := [] }

variable [JsonNumber F] [Zero F] [DecidableEq F]

def response (s : PendingTable F) (text : List Char) : PendingTable F :=
  let s := { s with received := s.received ++ [text] }
  match handleDealerResponse (F := F) text with
  | none => s
  | some (correlationId, settlement) =>
      if correlationId ∈ s.pendingRequests then
        match settlement with
        | some r => (s.forget correlationId).settlePromise correlationId r
        -- the entry is deleted before `new Error(payload.error)` throws
        | none => s.forget correlationId
      else s

def step (s : PendingTable F) : PendingAction → Option (PendingTable F)
  | .request correlationId nodeId timeoutMs =>
      -- ids are fresh
      if correlationId ∈ s.issued then none
      else
        some { s with
          pendingRequests := s.pendingRequests ++ [correlationId]
          timers := s.timers ++ [⟨correlationId, nodeId, timeoutMs⟩]
          sending := s.sending ++ [(correlationId, nodeId)]
          issued := s.issued ++ [correlationId] }
  | .response text => some (s.response text)
  | .timeout timer =>
      if timer ∈ s.timers then
        some ((s.forget timer.correlationId).settlePromise timer.correlationId
          (.rejected timer.error))
      else none
  | .sent correlationId nodeId =>
      if (correlationId, nodeId) ∈ s.sending then
        some { s with sending := s.sending.erase (correlationId, nodeId) }
      else none
  | .sendFails correlationId nodeId =>
      if (correlationId, nodeId) ∈ s.sending then
        some (({ s with sending := s.sending.erase (correlationId, nodeId) }.forget
          correlationId).settlePromise correlationId
            (.rejected ("Failed to send message to " ++ nodeId)))
      else none
  | .rotateCurveKeys => some (s.rejectAll "Transport rotating keys")
  | .disconnect => some (s.rejectAll "Transport disconnected")

/-- A reply to a pending request can be made a value or an error. -/
def Convertible (s : PendingTable F) : PendingAction → Prop
  | .response text => ∀ correlationId,
      handleDealerResponse (F := F) text = some (correlationId, none) →
        correlationId ∉ s.pendingRequests
  | _ => True

/-- What the callers of `request` rely on. -/
structure InOrder (s : PendingTable F) : Prop where
  once : (s.settled.map Prod.fst).Nodup
  own : ∀ correlationId payload, (correlationId, .resolved payload) ∈ s.settled →
    ∃ text ∈ s.received, ∃ envelope : Json F, Json.parse text = some envelope ∧
      member "correlationId" envelope = some (.str correlationId) ∧
      payload = member "payload" envelope
  pending_iff : ∀ correlationId, correlationId ∈ s.pendingRequests ↔
    correlationId ∈ s.issued ∧ correlationId ∉ s.settled.map Prod.fst

end PendingTable

end Libeam.Transport
