import Libeam.Migration.Target
/-!
# The migrations of a cluster

`Migrations` is a set of nodes with every call of `migrate` that got past its
checks, its messages in flight and the handler of its execute request.  A
message arrives once, at any time after it was sent, or never; a request may be
given up by its caller before that.
-/

namespace Libeam.Migration

open Mailbox Libeam.System Registry

/-- The locals of a call of `migrate`. -/
structure Call (N V : Type) where
  node : N
  actorName : String
  targetNodeId : N
  id : ActorId
  metadata : ActorMetadata V
  pc : MigratePc N V

/-- The locals of `_handleMigrateExecute`. -/
structure Handler (N V : Type) where
  request : MigrateExecuteRequest N V
  instanceId : ActorId
  pc : ExecutePc
  injected : List (StashedMessage V)
  injectedAt : Nat

/-- What is in flight between a call and its target. -/
structure Mail (N V : Type) where
  prepare : Option (MigratePrepareRequest N) := none
  prepared : Option MigratePrepareResponse := none
  execute : Option (MigrateExecuteRequest N V) := none
  executed : Option MigrateExecuteResponse := none
  rollback : Option ReservationId := none
  rolledBack : Bool := false

inductive MailKind where
  | prepare
  | prepared
  | execute
  | executed
  | rollback
  | rolledBack
  deriving DecidableEq, Repr

structure Session (N V : Type) where
  call : Call N V
  mail : Mail N V
  handler : Option (Handler N V) := none
  /-- History: the instance made for the execute request. -/
  created : Option ActorId := none

structure Migrations (N V : Type) where
  host : N → Host N V
  sessions : List (Session N V)
  /-- History: the actor an instance belongs to, by the first instance of it. -/
  actor : N × ActorId → N × ActorId

inductive MigrationsAction (N V : Type) where
  /-- Anything else that happens on a node. -/
  | host (n : N) (a : HostAction N V)
  /-- The end of `restart`: the actor of the instance gets a new one. -/
  | respawn (n : N) (id newId : ActorId) (config : MailboxConfig) (initThrows : Bool)
      (metadata : ActorMetadata V)
  /-- What `spawn` and `stop` of a named instance ask of the registry. -/
  | register (n : N) (name : String) (id : ActorId) (now : Nat)
  | unregister (n : N) (name : String)
  | migrate (n : N) (actorName : String) (targetNodeId : N)
  /-- A call goes on without a message: it is done waiting for something on its
  own node, or a request of it failed or timed out. -/
  | call (i : Nat) (a : SourceAction V)
  | handler (i : Nat) (a : TargetAction N V)
  | prepareArrives (i : Nat) (now : Nat)
  | preparedArrives (i : Nat) (timedOut : Bool)
  | executeArrives (i : Nat) (constructorError : Option String)
  | executedArrives (i : Nat)
  | rollbackArrives (i : Nat)
  | rolledBackArrives (i : Nat)
  | lost (i : Nat) (kind : MailKind)

variable {N V : Type}

def Call.source (c : Call N V) (h : Host N V) : Source N V :=
  ⟨h, c.actorName, c.targetNodeId, c.id, c.metadata, c.pc⟩

def Handler.target (t : Handler N V) (h : Host N V) : Target N V :=
  ⟨h, t.request, t.instanceId, t.pc, t.injected, t.injectedAt⟩

def Target.handler (t : Target N V) : Handler N V :=
  ⟨t.request, t.instanceId, t.pc, t.injected, t.injectedAt⟩

namespace Mail

/-- The requests a call sends on its way from one `await` to the next. -/
def requests (mail : Mail N V) (before after : MigratePc N V) : Mail N V :=
  match before, after with
  | .gettingState _ _, .executing _ request => { mail with execute := some request }
  | .gettingState reservationId _, .rollingBack _ _ =>
      { mail with rollback := some reservationId }
  | .executing _ request, .rollingBack _ _ =>
      { mail with rollback := some request.reservationId }
  | _, _ => mail

/-- A handler that is done sends its answer. -/
def answers (mail : Mail N V) : ExecutePc → Mail N V
  | .answered response => { mail with executed := some response }
  | _ => mail

def lose (mail : Mail N V) : MailKind → Mail N V
  | .prepare => { mail with prepare := none }
  | .prepared => { mail with prepared := none }
  | .execute => { mail with execute := none }
  | .executed => { mail with executed := none }
  | .rollback => { mail with rollback := none }
  | .rolledBack => { mail with rolledBack := false }

end Mail

namespace Migrations

variable [LinearOrder N]

def setHost (s : Migrations N V) (n : N) (h : Host N V) : Migrations N V :=
  { s with host := Function.update s.host n h }

def setSession (s : Migrations N V) (i : Nat) (m : Session N V) : Migrations N V :=
  { s with sessions := s.sessions.set i m }

/-- A new instance and the actor it belongs to. -/
def setActor (s : Migrations N V) (x actor : N × ActorId) : Migrations N V :=
  { s with actor := Function.update s.actor x actor }

/-- Something else happens on a node.  An instance that is spawned is the first
one of its actor. -/
def stepHost (s : Migrations N V) (n : N) (a : HostAction N V) : Option (Migrations N V) :=
  ((s.host n).step a).map fun h =>
    match a with
    | .spawn id _ _ _ => (s.setHost n h).setActor (n, id) (n, id)
    | _ => s.setHost n h

/-- A call that fails its checks has no effect. -/
def migrate [ToString N] (s : Migrations N V) (n : N) (actorName : String)
    (targetNodeId : N) : Option (Migrations N V) :=
  match (s.host n).checkMigrate actorName targetNodeId with
  | .proceeds id metadata =>
      (Source.begin (s.host n) actorName targetNodeId id metadata).map fun src =>
        let request : MigratePrepareRequest N := ⟨actorName, metadata.actorClassName, n⟩
        let session : Session N V :=
          { call := ⟨n, actorName, targetNodeId, id, metadata, src.pc⟩
            mail := { prepare := some request } }
        { s.setHost n src.host with sessions := s.sessions ++ [session] }
  | _ => some s

/-- The call of the session goes on. -/
def advance (s : Migrations N V) (i : Nat) (m : Session N V) (a : SourceAction V) :
    Option (Migrations N V) :=
  ((m.call.source (s.host m.call.node)).step a).map fun src =>
    (s.setHost m.call.node src.host).setSession i
      { m with
        call := { m.call with pc := src.pc }
        mail := m.mail.requests m.call.pc src.pc }

/-- A reply that nobody waits for any more is dropped. -/
def reply (s : Migrations N V) (i : Nat) (m : Session N V) (a : SourceAction V) :
    Migrations N V :=
  (s.advance i m a).getD (s.setSession i m)

/-- The handler of the session goes on. -/
def handle (s : Migrations N V) (i : Nat) (m : Session N V) (a : TargetAction N V) :
    Option (Migrations N V) :=
  m.handler.bind fun t =>
    ((t.target (s.host m.call.targetNodeId)).step a).map fun t =>
      (s.setHost m.call.targetNodeId t.host).setSession i
        { m with handler := some t.handler, mail := m.mail.answers t.pc }

/-- `_handleMigrateExecute` is called. -/
def execute (s : Migrations N V) (i : Nat) (m : Session N V)
    (request : MigrateExecuteRequest N V) (constructorError : Option String) :
    Migrations N V :=
  let t := Target.start (s.host m.call.targetNodeId) request constructorError
  let s := s.setHost m.call.targetNodeId t.host
  let mail := { m.mail with execute := none }.answers t.pc
  if t.pc = .initializing then
    (s.setSession i
        { m with handler := some t.handler, mail := mail, created := some t.instanceId }
      ).setActor (m.call.targetNodeId, t.instanceId) (s.actor (m.call.node, m.call.id))
  else s.setSession i { m with handler := some t.handler, mail := mail }

/-- Does the action come from the call or the handler itself? -/
def isOwn : SourceAction V → Bool
  | .node _ | .prepareReply _ _ | .executeReply _ => false
  | _ => true

def step [ToString N] (s : Migrations N V) : MigrationsAction N V → Option (Migrations N V)
  | .host n a => s.stepHost n a
  | .respawn n id newId config initThrows metadata =>
      -- the reference is there from the creation of the instance on
      if id < (s.host n).system.nextId then
        ((s.host n).step (.spawn newId config initThrows metadata)).map fun h =>
          (s.setHost n h).setActor (n, newId) (s.actor (n, id))
      else none
  | .register n name id now =>
      let h := s.host n
      let gossip := (h.registry.gossip.register name n id now).1
      some (s.setHost n (h.setRegistry { h.registry with gossip := gossip }))
  | .unregister n name =>
      let h := s.host n
      let gossip := (h.registry.gossip.unregister name).1
      some (s.setHost n (h.setRegistry { h.registry with gossip := gossip }))
  | .migrate n actorName targetNodeId => s.migrate n actorName targetNodeId
  | .call i a =>
      if isOwn a then s.sessions[i]?.bind fun m => s.advance i m a else none
  | .handler i a =>
      match a with
      | .host _ => none
      | a => s.sessions[i]?.bind fun m => s.handle i m a
  | .prepareArrives i now =>
      s.sessions[i]?.bind fun m => m.mail.prepare.map fun request =>
        let result := (s.host m.call.targetNodeId).handleMigratePrepare request now
        (s.setHost m.call.targetNodeId result.1).setSession i
          { m with mail := { m.mail with prepare := none, prepared := some result.2 } }
  | .preparedArrives i timedOut =>
      s.sessions[i]?.bind fun m => m.mail.prepared.map fun response =>
        s.reply i { m with mail := { m.mail with prepared := none } }
          (.prepareReply response timedOut)
  | .executeArrives i constructorError =>
      s.sessions[i]?.bind fun m => m.mail.execute.map fun request =>
        s.execute i m request constructorError
  | .executedArrives i =>
      s.sessions[i]?.bind fun m => m.mail.executed.map fun response =>
        s.reply i { m with mail := { m.mail with executed := none } }
          (.executeReply response)
  | .rollbackArrives i =>
      s.sessions[i]?.bind fun m => m.mail.rollback.map fun reservationId =>
        (s.setHost m.call.targetNodeId
            ((s.host m.call.targetNodeId).handleMigrateRollback reservationId)).setSession i
          { m with mail := { m.mail with rollback := none, rolledBack := true } }
  | .rolledBackArrives i =>
      s.sessions[i]?.bind fun m =>
        if m.mail.rolledBack then
          some (s.reply i { m with mail := { m.mail with rolledBack := false } }
            .rollbackEnds)
        else none
  | .lost i kind =>
      s.sessions[i]?.map fun m => s.setSession i { m with mail := m.mail.lose kind }

end Migrations

end Libeam.Migration
