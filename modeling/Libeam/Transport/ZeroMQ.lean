import Libeam.Lib.Json
import Libeam.Lib.Transition
/-!
# Requests over ZeroMQ

A request and its reply are JSON texts that carry a correlation id.  What a handler returned and
what it threw travel in the same member of the reply, and are told apart by its shape.  The
sockets deliver texts in any order, or lose them.
-/

namespace Libeam.Transport

open Lib

variable {F : Type}

/-- How a request handler ends; `none` stands for `undefined`. -/
inductive Handled (F : Type) where
  | returned (value : Option (Json F))
  | threw (message : String)

/-- How the promise of a request is settled. -/
inductive Settlement (F : Type) where
  | resolved (value : Option (Json F))
  | rejected (message : String)

/-- The promise of `InMemoryTransport.request` is that of the handler, when it ends in time. -/
def InMemoryTransport.request : Handled F → Settlement F
  | .returned value => .resolved value
  | .threw message => .rejected message

/-! ## Values -/

/-- `value.name`, for a value that was read from a text.  Of two members with one name the later
one counts. -/
def member (name : String) : Json F → Option (Json F)
  | .obj members => (members.reverse.find? fun m => m.1 = name).map Prod.snd
  | _ => none

def truthy [Zero F] [DecidableEq F] : Json F → Bool
  | .null => false
  | .bool b => b
  | .num x => x ≠ 0
  | .str s => s ≠ ""
  | .arr _ => true
  | .obj _ => true

section

variable [JsonNumber F]

mutual

/-- `String(value)`, which throws for an object whose own `toString` is no function. -/
def toText : Json F → Option String
  | .null => some "null"
  | .bool b => some (if b then "true" else "false")
  | .num x => some (String.ofList (Json.stringify (Json.num x)))
  | .str s => some s
  | .arr items => toTexts items
  | .obj members => if members.any fun m => m.1 = "toString" then none else some "[object Object]"

/-- The items of an array, joined by commas; `null` is left empty. -/
def toTexts : List (Json F) → Option String
  | [] => some ""
  | [v] => if v matches .null then some "" else toText v
  | v :: vs => (if v matches .null then some "" else toText v).bind fun text =>
      (toTexts vs).map fun texts => text ++ "," ++ texts

end

/-! ## Texts -/

/-- What `request` sends.  A message that is `undefined` is left out. -/
def requestText (correlationId : String) (message : Option (Json F)) : List Char :=
  Json.stringify (.obj (("correlationId", .str correlationId) ::
    (message.map fun v => ("payload", v)).toList))

/-- What `handleRouterMessage` sends back. -/
def replyText (correlationId : String) : Handled F → List Char
  | .returned reply =>
      Json.stringify (.obj (("correlationId", .str correlationId) ::
        (reply.map fun v => ("payload", v)).toList))
  | .threw message =>
      Json.stringify (F := F) (.obj [("correlationId", .str correlationId),
        ("payload", .obj [("error", .str message)])])

/-- The request that `handleRouterMessage` finds in a text: its id, and what it asks. -/
def handleRouterMessage (text : List Char) : Option (String × Json F) :=
  match Json.parse (F := F) text with
  | none => none
  | some data =>
      match member "correlationId" data, member "payload" data with
      | some (.str correlationId), some payload =>
          if correlationId ≠ "" then some (correlationId, payload) else none
      | _, _ => none

variable [Zero F] [DecidableEq F]

/-- A payload with an `error` that counts as true rejects the promise.  The promise is left as it
is when the error cannot be made a text. -/
def settle (payload : Option (Json F)) : Option (Settlement F) :=
  match payload.bind (member "error") with
  | some error =>
      if truthy error then (toText error).map .rejected else some (.resolved payload)
  | none => some (.resolved payload)

/-- The reply that `handleDealerResponse` finds in a text. -/
def handleDealerResponse (text : List Char) : Option (String × Option (Settlement F)) :=
  match Json.parse (F := F) text with
  | none => none
  | some envelope =>
      match member "correlationId" envelope with
      | some (.str correlationId) => some (correlationId, settle (member "payload" envelope))
      | _ => none

/-! ## Concurrent requests -/

/-- The requests of one transport, with the servers that they are sent to. -/
structure Requests (F : Type) where
  /-- The keys of `pendingRequests`. -/
  pendingRequests : List String
  /-- Requests on their way. -/
  requests : List (String × Option (Json F))
  /-- Requests that a handler is working on. -/
  handling : List (String × Json F)
  /-- Replies on their way. -/
  replies : List (String × Handled F)
  /-- History. -/
  used : List String
  handled : List (String × Handled F)
  settled : List (String × Option (Settlement F))

inductive RequestAction (F : Type) where
  | request (correlationId : String) (message : Option (Json F))
  | arrive (i : Nat)
  | finish (i : Nat) (result : Handled F)
  | deliver (i : Nat)
  | timeout (correlationId : String)
  | loseRequest (i : Nat)
  | loseReply (i : Nat)

namespace Requests

def init : Requests F := ⟨[], [], [], [], [], [], []⟩

def step (r : Requests F) : RequestAction F → Option (Requests F)
  | .request correlationId message =>
      -- ids are fresh
      if correlationId ∈ r.used ∨ correlationId = "" then none
      else
        some { r with
          pendingRequests := r.pendingRequests ++ [correlationId]
          requests := r.requests ++ [(correlationId, message)]
          used := r.used ++ [correlationId] }
  | .arrive i =>
      match r.requests[i]? with
      | none => none
      | some (correlationId, message) =>
          let r := { r with requests := r.requests.eraseIdx i }
          match handleRouterMessage (requestText correlationId message) with
          | none => some r
          | some (correlationId, payload) =>
              some { r with handling := r.handling ++ [(correlationId, payload)] }
  | .finish i result =>
      match r.handling[i]? with
      | none => none
      | some (correlationId, _) =>
          some { r with
            handling := r.handling.eraseIdx i
            replies := r.replies ++ [(correlationId, result)]
            handled := r.handled ++ [(correlationId, result)] }
  | .deliver i =>
      match r.replies[i]? with
      | none => none
      | some (correlationId, result) =>
          let r := { r with replies := r.replies.eraseIdx i }
          match handleDealerResponse (replyText correlationId result) with
          | none => some r
          | some (correlationId, settlement) =>
              if correlationId ∈ r.pendingRequests then
                some { r with
                  pendingRequests := r.pendingRequests.erase correlationId
                  settled := r.settled ++ [(correlationId, settlement)] }
              else some r
  | .timeout correlationId =>
      if correlationId ∈ r.pendingRequests then
        some { r with pendingRequests := r.pendingRequests.erase correlationId }
      else none
  | .loseRequest i => some { r with requests := r.requests.eraseIdx i }
  | .loseReply i => some { r with replies := r.replies.eraseIdx i }

/-- A value that is read back as it was written. -/
def Representable (_ : Requests F) : RequestAction F → Prop
  | .finish _ (.returned (some value)) => Json.written value = value
  | _ => True

end Requests

end

end Libeam.Transport
