import Libeam.Gossip.Protocol
import Libeam.Lib.Transition
/-!
# A cluster behind an unreliable network

Messages that have been sent may arrive at any node at any time, any number of times and
in any order, or not at all.  A node may be started again at any time, also without having
been stopped before, with a new generation that is higher than all it had.
-/

namespace Libeam.Gossip

structure GossipConfig where
  rpcAddress : String
  gossipAddress : String
  options : GossipOptions

structure GossipCluster (N : Type) where
  /-- `none` before the first start. -/
  node : N → Option (GossipProtocol N)
  sent : List (GossipMessage N × String)
  /-- History: what each node has been. -/
  been : N → List (PeerState N)

inductive GossipAction (N : Type) where
  | start (n : N) (config : GossipConfig) (now : Nat)
  | gossipLoop (n : N) (now : Nat) (shuffledPeers : List (PeerState N))
      (randomSeedGossipAddress : String)
  | failureDetectionLoop (n : N) (now : Nat)
  /-- A message reaches a node. -/
  | deliver (n : N) (index : Nat) (now : Nat)
  | leave (n : N) (now : Nat)
  /-- A further round of telling that the node leaves. -/
  | broadcastToAllPeers (n : N)
  | stop (n : N)

namespace GossipCluster

variable {N : Type} [DecidableEq N]

def init : GossipCluster N := ⟨fun _ => none, [], fun _ => []⟩

/-- A node comes to be in this state and sends these messages. -/
def put (c : GossipCluster N) (n : N) (p : GossipProtocol N)
    (outgoing : List (GossipMessage N × String)) : GossipCluster N where
  node := Function.update c.node n (some p)
  sent := c.sent ++ outgoing
  been := Function.update c.been n (c.been n ++ [p.self])

/-- A node acts while its socket is open. -/
def whenRunning (c : GossipCluster N) (n : N)
    (act : GossipProtocol N → GossipCluster N) : Option (GossipCluster N) :=
  (c.node n).bind fun p => if p.running then some (act p) else none

/-- The messages of `gossipLoop` are those of `sendGossipMessage`, one for each address. -/
def step (c : GossipCluster N) : GossipAction N → Option (GossipCluster N)
  | .start n config now =>
      if ∀ p ∈ c.node n, p.self.generation < now then
        some (c.put n (.new n config.rpcAddress config.gossipAddress config.options now) [])
      else none
  | .gossipLoop n now shuffledPeers randomSeedGossipAddress =>
      c.whenRunning n fun p =>
        let beaten := p.beat now
        c.put n beaten
          ((beaten.peersToGossipTo shuffledPeers randomSeedGossipAddress).map fun address =>
            (beaten.message, address))
  | .failureDetectionLoop n now =>
      c.whenRunning n fun p => c.put n (p.failureDetectionLoop now) []
  | .deliver n index now =>
      (c.sent[index]?).bind fun sent =>
        c.whenRunning n fun p => c.put n (p.handleGossipMessage sent.1 now) []
  | .leave n now =>
      (c.node n).map fun p =>
        if p.isLeaving then c else c.put n (p.leave now) (p.leave now).broadcastToAllPeers
  | .broadcastToAllPeers n =>
      c.whenRunning n fun p =>
        if p.isLeaving then c.put n p p.broadcastToAllPeers else c
  | .stop n => (c.node n).map fun p => c.put n p.stop []

end GossipCluster

end Libeam.Gossip
