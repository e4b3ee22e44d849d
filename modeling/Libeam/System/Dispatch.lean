import Libeam.System.State
/-!
# Dispatch and mailbox processing

The functions of `ActorSystem` that send messages to local actors and run their
mailboxes, each up to the point where it invokes user code or awaits.  The
registry lookup of a named dispatch has happened before these run.
-/

namespace Libeam.System.Node

open Mailbox

variable {V : Type}

def scheduleProcessMailbox (s : Node V) (id : ActorId) : Node V :=
  if id ∈ s.mailboxScheduled then s
  else if id ∈ s.pausedMailboxes then s
  else if id ∉ s.actors then s
  else
    { s with
      mailboxScheduled := insert id s.mailboxScheduled
      immediates := s.immediates ++ [id] }

/-! ## processMailbox -/

/-- `MAILBOX_BATCH_SIZE`. -/
def mailboxBatchSize : Nat := 64

/-- The code after the batch loop. -/
def processEnd (s : Node V) (id : ActorId) : Node V :=
  let s := { s with processingActors := s.processingActors.erase id }
  if id ∈ s.actors ∧ id ∈ s.mailboxes ∧ id ∉ s.pausedMailboxes ∧
      0 < (s.mailbox id).length then
    { s with immediates := s.immediates ++ [id] }
  else { s with mailboxScheduled := s.mailboxScheduled.erase id }

/-- The head of the batch loop: test the condition, take a message and invoke
its handler, or leave the loop. -/
def processLoop (s : Node V) (id : ActorId) (processed : Nat) : Node V :=
  if processed < mailboxBatchSize ∧ 0 < (s.mailbox id).length ∧ id ∈ s.actors ∧
      id ∉ s.pausedMailboxes then
    let msg := (s.mailbox id).dequeue.2
    let s := (s.setMailbox id (s.mailbox id).dequeue.1).setCurrentMessage id msg
    match msg with
    | some msg => s.startHandler id (.processMailbox processed) msg
    -- `stashedMessage.type` of an undefined message throws into the crash path
    | none => s.push ⟨id, .processMailbox processed, .crashing⟩
  else s.processEnd id

def processMailbox (s : Node V) (id : ActorId) : Node V :=
  if id ∉ s.mailboxes ∨ id ∉ s.actors ∨ id ∈ s.pausedMailboxes then
    { s with mailboxScheduled := s.mailboxScheduled.erase id }
  else if (s.mailbox id).length = 0 then
    { s with mailboxScheduled := s.mailboxScheduled.erase id }
  else
    { s with processingActors := insert id s.processingActors }.processLoop id 0

/-! ## Synchronous paths -/

/-- Entry of `_syncLocalCall`: lock both flags and invoke the handler. -/
def syncLocalCall (s : Node V) (id : ActorId) (msg : StashedMessage V) : Node V :=
  let prevMessage := (s.object id).currentMessage
  let s := s.setCurrentMessage id (some msg)
  let s := { s with
    processingActors := insert id s.processingActors
    mailboxScheduled := insert id s.mailboxScheduled }
  s.startHandler id (.syncLocalCall prevMessage) msg

/-- The `finally` block of `_syncLocalCall`. -/
def syncLocalCallFinally (s : Node V) (id : ActorId)
    (prevMessage : Option (StashedMessage V)) : Node V :=
  let s := s.setCurrentMessage id prevMessage
  let s := { s with processingActors := s.processingActors.erase id }
  if 0 < (s.mailbox id).length ∧ id ∈ s.actors ∧ id ∉ s.pausedMailboxes then
    { s with immediates := s.immediates ++ [id] }
  else { s with mailboxScheduled := s.mailboxScheduled.erase id }

def syncLocalCast (s : Node V) (id : ActorId) (message : V) : Node V :=
  if id ∉ s.actors ∨ id ∈ s.pausedMailboxes ∨ id ∈ s.processingActors then s
  else
    let prevMessage := (s.object id).currentMessage
    let msg : StashedMessage V := ⟨s.nextUid, .cast, message⟩
    let s := { s.setCurrentMessage id (some msg) with
      nextUid := s.nextUid + 1
      processingActors := insert id s.processingActors }
    s.startHandler id (.syncLocalCast prevMessage) msg

/-- The `finally` block of `_syncLocalCast`. -/
@[simps] def syncLocalCastFinally (s : Node V) (id : ActorId)
    (prevMessage : Option (StashedMessage V)) : Node V :=
  { s.setCurrentMessage id prevMessage with
    processingActors := s.processingActors.erase id }

/-! ## Sending -/

/-- A `drop-oldest` mailbox rejects the caller of the message it evicts. -/
def rejectEvicted (s : Node V) (oldest : Option (StashedMessage V)) : Node V :=
  match oldest with
  | some msg =>
      if msg.type = .call ∧ msg.uid ∈ s.awaited then
        s.settle msg.uid (.rejected .mailboxFull)
      else s
  | none => s

/-- The local branch of `dispatchCast` and `_dispatchCastAsync`. -/
def dispatchCast (s : Node V) (id : ActorId) (message : V) : Node V :=
  if id ∈ s.actors ∧ id ∈ s.mailboxes then
    let msg : StashedMessage V := ⟨s.nextUid, .cast, message⟩
    let r := (s.mailbox id).enqueue msg
    let s := { s.setMailbox id r.1 with nextUid := s.nextUid + 1 }
    match r.2 with
    | .accepted => (s.accept id msg).scheduleProcessMailbox id
    | .evicted oldest =>
        ((s.rejectEvicted oldest).accept id msg).scheduleProcessMailbox id
    | .refused => s.scheduleProcessMailbox id
    | .full => s
  else s

/-- The slow path of `dispatchCall`: queue the call with its callbacks. -/
def enqueueCall (s : Node V) (id : ActorId) (message : V) : Node V :=
  let msg : StashedMessage V := ⟨s.nextUid, .call, message⟩
  let r := (s.mailbox id).enqueue msg
  let s := { s.setMailbox id r.1 with
    nextUid := s.nextUid + 1
    awaited := insert s.nextUid s.awaited }
  match r.2 with
  | .accepted => (s.accept id msg).scheduleProcessMailbox id
  | .evicted oldest =>
      ((s.rejectEvicted oldest).accept id msg).scheduleProcessMailbox id
  | .refused => s.settle msg.uid (.rejected .mailboxFull)
  | .full => s.settle msg.uid (.rejected .mailboxFull)

/-- The local branch of `dispatchCall`: the fast path when the actor is idle,
else the mailbox. -/
def dispatchCall (s : Node V) (id : ActorId) (message : V) : Node V :=
  if id ∈ s.actors ∧ id ∈ s.mailboxes then
    if id ∉ s.processingActors ∧ id ∉ s.pausedMailboxes ∧
        (s.mailbox id).length = 0 then
      let msg : StashedMessage V := ⟨s.nextUid, .call, message⟩
      ({ s with nextUid := s.nextUid + 1 }.accept id msg).syncLocalCall id msg
    else s.enqueueCall id message
  else s

/-- The actor-call branch of `_handleRpcCall`, which invokes the handler at
once. -/
def handleRpcCall (s : Node V) (id : ActorId) (message : V) : Node V :=
  if id ∈ s.actors then
    { s with nextUid := s.nextUid + 1 }.startHandler id .rpcCall
      ⟨s.nextUid, .call, message⟩
  else s

/-- The cast branch of `_handleRpcCast`. -/
def handleRpcCast (s : Node V) (id : ActorId) (message : V) : Node V :=
  if id ∈ s.actors then
    { s with nextUid := s.nextUid + 1 }.startHandler id .rpcCast
      ⟨s.nextUid, .cast, message⟩
  else s

/-! ## Pausing, prepending, stashing -/

def pauseMailbox (s : Node V) (id : ActorId) : Node V :=
  if id ∈ s.actors then
    { s with pausedMailboxes := insert id s.pausedMailboxes }
  else s

def resumeMailbox (s : Node V) (id : ActorId) : Node V :=
  if id ∈ s.actors then
    if id ∈ s.pausedMailboxes then
      { s with pausedMailboxes := s.pausedMailboxes.erase id
        }.scheduleProcessMailbox id
    else s
  else s

def injectMessages (s : Node V) (id : ActorId)
    (messages : List (Option (StashedMessage V))) : Node V :=
  if id ∈ s.mailboxes then
    (s.setMailbox id ((s.mailbox id).unshift messages)).scheduleProcessMailbox id
  else s

/-- `ActorSystem.unstashAll`. -/
def systemUnstashAll (s : Node V) (id : ActorId)
    (messages : List (StashedMessage V)) : Node V :=
  if id ∈ s.mailboxes ∧ messages ≠ [] then
    (s.setMailbox id ((s.mailbox id).unshift (messages.map some))
      ).scheduleProcessMailbox id
  else s

/-- `Actor.stash`. -/
def stash (s : Node V) (id : ActorId) : Node V :=
  match (s.object id).currentMessage with
  | some msg => s.setStash id ((s.object id).stash ++ [msg])
  | none => s

/-- `Actor.unstashAll`. -/
def unstashAll (s : Node V) (id : ActorId) : Node V :=
  if (s.object id).stash ≠ [] then
    (s.systemUnstashAll id (s.object id).stash).setStash id []
  else s

/-- `Actor.unstash`. -/
def unstash (s : Node V) (id : ActorId) : Node V :=
  match (s.object id).stash with
  | [] => s
  | msg :: rest => (s.setStash id rest).systemUnstashAll id [msg]

/-- `Actor.clearStash`. -/
def clearStash (s : Node V) (id : ActorId) : Node V :=
  ((s.object id).stash.foldl (fun s msg =>
    if msg.type = .call ∧ msg.uid ∈ s.awaited then
      s.settle msg.uid (.rejected .discarded)
    else s) s).setStash id []

/-! ## Instances entering and leaving the tables -/

/-- The table entries of a new instance, as `spawn`, `spawnChild` and
`_handleMigrateExecute` make them. -/
@[simps] def install (s : Node V) (config : MailboxConfig) : Node V :=
  let id := s.nextId
  { s with
    object := Function.update s.object id ⟨BoundedMailbox.new config, [], none⟩
    nextId := id + 1
    actors := insert id s.actors
    mailboxes := insert id s.mailboxes }

/-- `spawn`; an `init` that throws synchronously leaves before the mailbox is
scheduled. -/
def spawn (s : Node V) (config : MailboxConfig) (initThrows : Bool) : Node V :=
  if initThrows then s.install config
  else (s.install config).scheduleProcessMailbox s.nextId

/-- The deletions at the end of `stop`, `stopSingle` and `shutdown`. -/
@[simps] def remove (s : Node V) (id : ActorId) : Node V :=
  { s with
    actors := s.actors.erase id
    mailboxes := s.mailboxes.erase id
    mailboxScheduled := s.mailboxScheduled.erase id }

end Libeam.System.Node
