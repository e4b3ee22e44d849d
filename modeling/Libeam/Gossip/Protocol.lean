import Mathlib.Data.List.AList
import Mathlib.Data.Prod.Lex
/-!
# The gossip protocol of one node

A node keeps a table of the peers it has heard of, with itself in it, and sends the whole
table to others.  An entry is replaced by one with a higher generation, or with the same
generation and a higher heartbeat; an entry that has not been updated for too long is
removed.  The events that this emits are kept in a log.  Roles and metadata travel along
without being read here, and are left out.
-/

namespace Libeam.Gossip

inductive PeerStatus where
  | alive
  | leaving
  | dead
  deriving DecidableEq, Repr

structure PeerState (N : Type) where
  id : N
  address : String
  heartbeat : Nat
  generation : Nat
  gossipAddress : String
  lastUpdated : Nat
  status : Option PeerStatus
  deriving DecidableEq, Repr

/-- Generation first, then heartbeat. -/
def PeerState.news {N : Type} (p : PeerState N) : Nat ×ₗ Nat := toLex (p.generation, p.heartbeat)

structure GossipMessage (N : Type) where
  version : Option Nat
  senderId : N
  peers : List (PeerState N)
  deriving DecidableEq, Repr

def GOSSIP_PROTOCOL_VERSION : Nat := 1

structure GossipOptions where
  failureTimeoutMs : Nat
  gossipFanout : Nat
  seedNodes : List String

inductive GossipEvent (N : Type) where
  | member_join (peer : PeerState N)
  | member_update (peer : PeerState N)
  | member_leave (peer : PeerState N)
  /-- History: `failureDetectionLoop` has removed the entry. -/
  | removed (peer : PeerState N)
  deriving DecidableEq, Repr

structure GossipProtocol (N : Type) where
  self : PeerState N
  peers : AList fun _ : N => PeerState N
  options : GossipOptions
  isLeaving : Bool
  /-- The socket is open and the timers are set. -/
  running : Bool
  log : List (GossipEvent N)

namespace GossipProtocol

variable {N : Type} [DecidableEq N]

/-- The constructor, and `start`. -/
def new (nodeId : N) (rpcAddress gossipAddress : String) (options : GossipOptions) (now : Nat) :
    GossipProtocol N :=
  let self : PeerState N :=
    { id := nodeId, address := rpcAddress, heartbeat := 0, generation := now,
      gossipAddress := gossipAddress, lastUpdated := now, status := some .alive }
  { self := self, peers := AList.singleton nodeId self, options := options, isLeaving := false,
    running := true, log := [] }

/-- `peers.get`. -/
def find (p : GossipProtocol N) (id : N) : Option (PeerState N) := p.peers.lookup id

/-- `peers.set`. -/
def set (p : GossipProtocol N) (id : N) (peer : PeerState N) : GossipProtocol N :=
  { p with peers := p.peers.insert id peer }

def emit (p : GossipProtocol N) (event : GossipEvent N) : GossipProtocol N :=
  { p with log := p.log ++ [event] }

def getAllKnownPeers (p : GossipProtocol N) : List (PeerState N) :=
  p.peers.entries.map Sigma.snd

/-! ## Receiving -/

/-- One entry of a message. -/
def mergePeer (now : Nat) (p : GossipProtocol N) (incomingPeer : PeerState N) :
    GossipProtocol N :=
  let updated := { incomingPeer with lastUpdated := now }
  match p.find incomingPeer.id with
  | none =>
      if incomingPeer.status = some .leaving then p
      else (p.set incomingPeer.id updated).emit (.member_join incomingPeer)
  | some localPeer =>
      if localPeer.generation < incomingPeer.generation then
        (p.set incomingPeer.id updated).emit (.member_update incomingPeer)
      else if incomingPeer.generation = localPeer.generation then
        if localPeer.heartbeat < incomingPeer.heartbeat then
          let wasAlive := localPeer.status ≠ some .leaving
          let isNowLeaving := incomingPeer.status = some .leaving
          if wasAlive ∧ isNowLeaving then
            (p.set incomingPeer.id updated).emit (.member_leave incomingPeer)
          else (p.set incomingPeer.id updated).emit (.member_update incomingPeer)
        else p
      else p

/-- A message without a version is accepted. -/
def handleGossipMessage (p : GossipProtocol N) (message : GossipMessage N) (now : Nat) :
    GossipProtocol N :=
  if message.version ≠ none ∧ message.version ≠ some GOSSIP_PROTOCOL_VERSION then p
  else message.peers.foldl (mergePeer now) p

/-! ## Failure detection -/

def failed (p : GossipProtocol N) (now : Nat) (entry : Σ _ : N, PeerState N) : Bool :=
  entry.1 ≠ p.self.id ∧ p.options.failureTimeoutMs < now - entry.2.lastUpdated

def failureDetectionLoop (p : GossipProtocol N) (now : Nat) : GossipProtocol N :=
  { p with
    peers := ⟨p.peers.entries.filter fun entry => ¬ p.failed now entry,
      p.peers.nodupKeys.sublist List.filter_sublist⟩
    log := p.log ++ (p.peers.entries.filter (p.failed now)).flatMap fun entry =>
      [.removed entry.2, .member_leave entry.2] }

/-! ## Sending -/

/-- The message with the whole table, sent to one address. -/
def message (p : GossipProtocol N) : GossipMessage N :=
  ⟨some GOSSIP_PROTOCOL_VERSION, p.self.id, p.getAllKnownPeers⟩

/-- `heartbeat++`, with the own entry brought up to date. -/
def beat (p : GossipProtocol N) (now : Nat) : GossipProtocol N :=
  let self := { p.self with heartbeat := p.self.heartbeat + 1, lastUpdated := now }
  { p with self := self }.set self.id self

def others (p : GossipProtocol N) : List (PeerState N) :=
  p.getAllKnownPeers.filter fun peer => peer.id ≠ p.self.id

/-- Whom `gossipLoop` sends to, with the peers in the order into which they have been
shuffled and the seed node that was drawn. -/
def peersToGossipTo (p : GossipProtocol N) (shuffledPeers : List (PeerState N))
    (randomSeedGossipAddress : String) : List String :=
  if p.others ≠ [] then
    (shuffledPeers.take p.options.gossipFanout).map PeerState.gossipAddress
  else if p.options.seedNodes ≠ [] then [randomSeedGossipAddress]
  else []

/-- The table goes to every other peer. -/
def broadcastToAllPeers (p : GossipProtocol N) : List (GossipMessage N × String) :=
  p.others.map fun peer => (p.message, peer.gossipAddress)

/-- `leave` up to its first broadcast. -/
def leave (p : GossipProtocol N) (now : Nat) : GossipProtocol N :=
  if p.isLeaving then p
  else
    let self :=
      { p.self with
        status := some .leaving, heartbeat := p.self.heartbeat + 1, lastUpdated := now }
    { p with isLeaving := true, self := self }.set self.id self

def stop (p : GossipProtocol N) : GossipProtocol N := { p with running := false, peers := ∅ }

end GossipProtocol

/-- What happens to one node while it runs. -/
inductive GossipInput (N : Type) where
  | handleGossipMessage (message : GossipMessage N) (now : Nat)
  | failureDetectionLoop (now : Nat)
  | gossipLoop (now : Nat)
  | leave (now : Nat)
  deriving DecidableEq, Repr

namespace GossipProtocol

variable {N : Type} [DecidableEq N]

def act (p : GossipProtocol N) : GossipInput N → GossipProtocol N
  | .handleGossipMessage message now => p.handleGossipMessage message now
  | .failureDetectionLoop now => p.failureDetectionLoop now
  | .gossipLoop now => p.beat now
  | .leave now => p.leave now

def step (p : GossipProtocol N) (input : GossipInput N) : Option (GossipProtocol N) :=
  some (p.act input)

end GossipProtocol

end Libeam.Gossip
