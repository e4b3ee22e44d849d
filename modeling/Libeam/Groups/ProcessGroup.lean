import Libeam.Lib.OrderedMap
import Libeam.Lib.Transition
import Libeam.System.State
/-!
# Process groups

`ProcessGroupManager` keeps the members of every group and publishes each change.
A node that receives an update about one of its own actors ignores it.  The
updates of one publisher reach a node in order and exactly once; the publisher
itself receives nothing, since an own update that is delivered at once changes
nothing.
-/

namespace Libeam.Groups

open Lib Libeam.System

structure GroupMember (N : Type) where
  nodeId : N
  actorId : ActorId
  name : Option String
  deriving DecidableEq, Repr

inductive GroupUpdateType where
  | join
  | leave
  deriving DecidableEq, Repr

structure ProcessGroupUpdate (N : Type) where
  type : GroupUpdateType
  group : String
  member : GroupMember N
  deriving DecidableEq, Repr

structure ProcessGroupManager (N : Type) where
  nodeId : N
  groups : OrderedMap String (OrderedMap ActorId (GroupMember N))

namespace ProcessGroupManager

variable {N : Type}

def new (nodeId : N) : ProcessGroupManager N := ⟨nodeId, .empty⟩

/-- `members.set` in the group, which is made when it is missing. -/
def put (pg : ProcessGroupManager N) (group : String) (member : GroupMember N) :
    ProcessGroupManager N :=
  { pg with
    groups := pg.groups.set group
      (((pg.groups.get group).getD .empty).set member.actorId member) }

/-- `members.delete` in the group, which is deleted when it becomes empty. -/
def remove (pg : ProcessGroupManager N) (group : String)
    (members : OrderedMap ActorId (GroupMember N)) (actorId : ActorId) :
    ProcessGroupManager N :=
  { pg with
    groups :=
      if (members.delete actorId).size = 0 then pg.groups.delete group
      else pg.groups.set group (members.delete actorId) }

def join (pg : ProcessGroupManager N) (group : String) (member : GroupMember N) :
    ProcessGroupManager N × ProcessGroupUpdate N :=
  (pg.put group member, ⟨.join, group, member⟩)

/-- The update is published only if the actor was a member. -/
def leave (pg : ProcessGroupManager N) (group : String) (actorId : ActorId) :
    ProcessGroupManager N × Option (ProcessGroupUpdate N) :=
  match pg.groups.get group with
  | none => (pg, none)
  | some members =>
      match members.get actorId with
      | none => (pg, none)
      | some member => (pg.remove group members actorId, some ⟨.leave, group, member⟩)

def getMembers (pg : ProcessGroupManager N) (group : String) : List (GroupMember N) :=
  match pg.groups.get group with
  | none => []
  | some members => members.values

def getGroups (pg : ProcessGroupManager N) : List String := pg.groups.keys

variable [DecidableEq N]

def handleUpdate (pg : ProcessGroupManager N) (update : ProcessGroupUpdate N) :
    ProcessGroupManager N :=
  if update.member.nodeId = pg.nodeId then pg
  else match update.type with
    | .join => pg.put update.group update.member
    | .leave =>
        match pg.groups.get update.group with
        | none => pg
        | some members => pg.remove update.group members update.member.actorId

/-- The members on the other node are removed, then the groups that have none left. -/
def handlePeerLeave (pg : ProcessGroupManager N) (nodeId : N) : ProcessGroupManager N :=
  { pg with
    groups := (pg.groups.map fun members => members.filter fun e => e.2.nodeId ≠ nodeId).filter
      fun e => e.2.size ≠ 0 }

/-- What is published when another node joins. -/
def handlePeerJoin (pg : ProcessGroupManager N) : List (ProcessGroupUpdate N) :=
  pg.groups.entries.flatMap fun e =>
    (e.2.values.filter fun member => member.nodeId = pg.nodeId).map fun member =>
      ⟨.join, e.1, member⟩

end ProcessGroupManager

/-! ## The cluster -/

/-- A call of `join` (with the member) or of `leave`. -/
structure GroupCall (N : Type) where
  node : N
  group : String
  actorId : ActorId
  joined : Option (GroupMember N)
  deriving DecidableEq, Repr

structure GroupCluster (N : Type) where
  node : N → ProcessGroupManager N
  /-- What each node has published, in order. -/
  published : N → List (ProcessGroupUpdate N)
  /-- How many updates of a publisher (the second) a node has received. -/
  received : N → N → Nat
  /-- History: the calls of `join` and `leave`, in order. -/
  calls : List (GroupCall N)

inductive GroupAction (N : Type) where
  | join (n : N) (group : String) (actorId : ActorId) (name : Option String)
  | leave (n : N) (group : String) (actorId : ActorId)
  | leaveAll (n : N) (actorId : ActorId)
  /-- The next update of `publisher` reaches `receiver`. -/
  | deliver (receiver publisher : N)
  deriving DecidableEq, Repr

namespace GroupCluster

variable {N : Type} [DecidableEq N]

def init : GroupCluster N where
  node := .new
  published := fun _ => []
  received := fun _ _ => 0
  calls := []

/-- The member is an actor of the node `nodeId`, which need not be `n`. -/
def join (s : GroupCluster N) (n : N) (group : String) (member : GroupMember N) :
    GroupCluster N :=
  let result := (s.node n).join group member
  { s with
    node := Function.update s.node n result.1
    published := Function.update s.published n (s.published n ++ [result.2])
    calls := s.calls ++ [⟨n, group, member.actorId, some member⟩] }

def leave (s : GroupCluster N) (n : N) (group : String) (actorId : ActorId) :
    GroupCluster N :=
  let result := (s.node n).leave group actorId
  { s with
    node := Function.update s.node n result.1
    published := Function.update s.published n (s.published n ++ result.2.toList)
    calls := s.calls ++ [⟨n, group, actorId, none⟩] }

/-- Leave every group of which the actor is a member. -/
def leaveAll (s : GroupCluster N) (n : N) (actorId : ActorId) : GroupCluster N :=
  let groups := (s.node n).groups.entries.filter fun e => e.2.has actorId
  groups.foldl (fun s e => s.leave n e.1 actorId) s

def deliver (s : GroupCluster N) (receiver publisher : N) : Option (GroupCluster N) :=
  if receiver = publisher then none
  else (s.published publisher)[s.received receiver publisher]?.map fun update =>
    { s with
      node := Function.update s.node receiver ((s.node receiver).handleUpdate update)
      received := Function.update s.received receiver
        (Function.update (s.received receiver) publisher
          (s.received receiver publisher + 1)) }

/-- One step; `home` is the node on which an actor was created. -/
def step (home : ActorId → N) (s : GroupCluster N) :
    GroupAction N → Option (GroupCluster N)
  | .join n group actorId name => some (s.join n group ⟨home actorId, actorId, name⟩)
  | .leave n group actorId => some (s.leave n group actorId)
  | .leaveAll n actorId => some (s.leaveAll n actorId)
  | .deliver receiver publisher => s.deliver receiver publisher

end GroupCluster

/-! ## Nodes that leave and join -/

inductive MembershipAction (N : Type) where
  | group (a : GroupAction N)
  /-- `n` is told that another node is gone. -/
  | peerLeave (n nodeId : N)
  /-- `n` is told that another node has joined. -/
  | peerJoin (n : N)
  deriving DecidableEq, Repr

def GroupCluster.membershipStep {N : Type} [DecidableEq N] (home : ActorId → N)
    (s : GroupCluster N) : MembershipAction N → Option (GroupCluster N)
  | .group a => s.step home a
  | .peerLeave n nodeId =>
      if n = nodeId then none
      else some { s with node := Function.update s.node n ((s.node n).handlePeerLeave nodeId) }
  | .peerJoin n =>
      some { s with
        published := Function.update s.published n (s.published n ++ (s.node n).handlePeerJoin) }

end Libeam.Groups
