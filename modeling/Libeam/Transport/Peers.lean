import Libeam.Gossip.Protocol
import Libeam.Lib.Transition
/-!
# The peers of a ZeroMQ transport

`updatePeers` takes a list for the whole set of peers.  Two listeners call it when a member
joins, `createSystem`'s with that member alone and then `RegistrySync`'s with all of them, and
`RegistrySync`'s when a member leaves.  Entries of a gossip message are merged one by one, and
the listeners run at each event.
-/

namespace Libeam.Gossip.GossipProtocol

variable {N : Type} [DecidableEq N]

/-- Does `getLivePeers` return the entry? -/
def isLive (p : GossipProtocol N) (now : Nat) (peer : PeerState N) : Bool :=
  peer.id = p.self.id ∨
    peer.status ≠ some .leaving ∧ now < peer.lastUpdated + p.options.failureTimeoutMs

def getLivePeers (p : GossipProtocol N) (now : Nat) : List (PeerState N) :=
  p.getAllKnownPeers.filter (p.isLive now)

/-- One turn of the loop of `failureDetectionLoop`. -/
def failPeer (p : GossipProtocol N) (now : Nat) (id : N) : GossipProtocol N :=
  match p.find id with
  | none => p
  | some peer =>
      if p.failed now ⟨id, peer⟩ then
        ({ p with peers := p.peers.erase id }.emit (.removed peer)).emit (.member_leave peer)
      else p

end Libeam.Gossip.GossipProtocol

namespace Libeam.Transport

open Gossip

/-! ## Addresses -/

structure PeerAddresses where
  rpc : String
  pub : String
  deriving DecidableEq, Repr

/-- `([^:]+):(\d+)` -/
def matchHostPort (text : List Char) : Option (List Char × List Char) :=
  let host := text.takeWhile (· ≠ ':')
  match text.dropWhile (· ≠ ':') with
  | ':' :: rest =>
      let port := rest.takeWhile Char.isDigit
      if host = [] ∨ port = [] then none else some (host, port)
  | _ => none

/-- The first place where `tcp://([^:]+):(\d+)` matches. -/
def matchAddress : List Char → Option (List Char × List Char)
  | [] => none
  | c :: rest =>
      let here :=
        if ['t', 'c', 'p', ':', '/', '/'].isPrefixOf (c :: rest) then
          matchHostPort ((c :: rest).drop 6)
        else none
      here.orElse fun _ => matchAddress rest

/-- `parseInt(digits, 10)` -/
def parseInt (digits : List Char) : Nat :=
  digits.foldl (fun n c => 10 * n + (c.toNat - '0'.toNat)) 0

/-- The publisher's port follows that of the router. -/
def parseAddress (rpcAddress : String) : Option PeerAddresses :=
  (matchAddress rpcAddress.toList).map fun m =>
    { rpc := rpcAddress
      pub := "tcp://" ++ String.ofList m.1 ++ ":" ++ toString (parseInt m.2 + 1) }

/-! ## The tables -/

structure Peers (N : Type) where
  nodeId : N
  peerAddresses : N → Option PeerAddresses
  /-- The open dealer sockets, with the addresses that they are connected to. -/
  dealerConnections : N → Option String

namespace Peers

variable {N : Type} [DecidableEq N]

def new (nodeId : N) : Peers N := ⟨nodeId, fun _ => none, fun _ => none⟩

/-- The second loop of `updatePeers`: one entry. -/
def addPeer (s : Peers N) (peer : N × String) : Peers N :=
  if s.peerAddresses peer.1 = none ∧ peer.1 ≠ s.nodeId then
    match parseAddress peer.2 with
    | some addresses =>
        { s with peerAddresses := Function.update s.peerAddresses peer.1 (some addresses) }
    | none => s
  else s

/-- The first loop: whoever is in the table but not in the list. -/
def dropPeers (s : Peers N) (ids : List N) : Peers N :=
  { s with
    peerAddresses := fun id => if id ∈ ids then s.peerAddresses id else none
    dealerConnections := fun id =>
      if id ∉ ids ∧ s.peerAddresses id ≠ none then none else s.dealerConnections id }

def updatePeers (s : Peers N) (peers : List (N × String)) : Peers N :=
  peers.foldl addPeer (s.dropPeers (peers.map Prod.fst))

/-- `getOrCreateConnection`, which throws when there is no address. -/
def getOrCreateConnection (s : Peers N) (id : N) : Peers N :=
  match s.dealerConnections id, s.peerAddresses id with
  | none, some addresses =>
      { s with
        dealerConnections := Function.update s.dealerConnections id (some addresses.rpc) }
  | _, _ => s

/-- The part of `rotateCurveKeys` that closes the sockets. -/
def rotateCurveKeys (s : Peers N) : Peers N := { s with dealerConnections := fun _ => none }

/-! ## The listeners -/

/-- The listener of `createSystem`; `getPeerState` looks among the live peers. -/
def onMemberJoin (s : Peers N) (livePeers : List (PeerState N)) (peerId : N) : Peers N :=
  match livePeers.find? fun peer => peer.id = peerId with
  | some peer => if peer.address ≠ "" then s.updatePeers [(peerId, peer.address)] else s
  | none => s

/-- The list of `syncPeers`. -/
def peerList (s : Peers N) (livePeers : List (PeerState N)) : List (N × String) :=
  (livePeers.filter fun peer => peer.id ≠ s.nodeId ∧ peer.address ≠ "").map fun peer =>
    (peer.id, peer.address)

/-- `syncPeers`, which is the part of `handlePeerJoin` and of `handlePeerLeave` that concerns
the transport. -/
def syncPeers (s : Peers N) (livePeers : List (PeerState N)) : Peers N :=
  if s.peerList livePeers ≠ [] then s.updatePeers (s.peerList livePeers) else s

/-- The listeners of an event, in the order of their registration. -/
def listen (livePeers : List (PeerState N)) (s : Peers N) : GossipEvent N → Peers N
  | .member_join peer => (s.onMemberJoin livePeers peer.id).syncPeers livePeers
  | .member_leave _ => s.syncPeers livePeers
  | .member_update _ | .removed _ => s

end Peers

/-! ## A node -/

structure PeerTracking (N : Type) where
  gossip : GossipProtocol N
  transport : Peers N

/-- What changes the table of the gossip protocol, an entry at a time. -/
inductive GossipChange (N : Type) where
  /-- One entry of a message. -/
  | mergePeer (incomingPeer : PeerState N)
  | failPeer (id : N)
  | gossipLoop
  | leave
  deriving DecidableEq, Repr

inductive TrackingAction (N : Type) where
  | gossip (change : GossipChange N) (now : Nat)
  | getOrCreateConnection (id : N)
  | rotateCurveKeys
  deriving DecidableEq, Repr

/-- The member that an event of the cluster is about. -/
def memberOf {N : Type} : GossipEvent N → Option N
  | .member_join peer | .member_leave peer => some peer.id
  | .member_update _ | .removed _ => none

namespace PeerTracking

variable {N : Type} [DecidableEq N]

def start (nodeId : N) (rpcAddress gossipAddress : String) (options : GossipOptions)
    (now : Nat) : PeerTracking N :=
  ⟨.new nodeId rpcAddress gossipAddress options now, .new nodeId⟩

def change (p : GossipProtocol N) (now : Nat) : GossipChange N → GossipProtocol N
  | .mergePeer incomingPeer => p.mergePeer now incomingPeer
  | .failPeer id => p.failPeer now id
  | .gossipLoop => p.beat now
  | .leave => p.leave now

/-- The events that are emitted on the way to a state of the protocol. -/
def emitted (t : PeerTracking N) (gossip : GossipProtocol N) : List (GossipEvent N) :=
  gossip.log.drop t.gossip.log.length

/-- The protocol comes to be in this state, and the listeners run. -/
def advance (t : PeerTracking N) (gossip : GossipProtocol N) (now : Nat) : PeerTracking N :=
  ⟨gossip, (t.emitted gossip).foldl (Peers.listen (gossip.getLivePeers now)) t.transport⟩

def step (t : PeerTracking N) : TrackingAction N → Option (PeerTracking N)
  | .gossip a now => some (t.advance (change t.gossip now a) now)
  | .getOrCreateConnection id =>
      some { t with transport := t.transport.getOrCreateConnection id }
  | .rotateCurveKeys => some { t with transport := t.transport.rotateCurveKeys }

end PeerTracking

/-! ## Following the members -/

/-- The address that a live peer advertises. -/
def addressOf {N : Type} [DecidableEq N] (livePeers : List (PeerState N)) (id : N) :
    Option String :=
  (livePeers.find? fun peer => peer.id = id).map PeerState.address

namespace Peers

variable {N : Type} [DecidableEq N]

/-- The table holds the live peers other than the node, with their addresses. -/
def Tracks (s : Peers N) (livePeers : List (PeerState N)) : Prop :=
  ∀ id, (s.peerAddresses id).map PeerAddresses.rpc =
    if id = s.nodeId then none else addressOf livePeers id

/-- The peer is in the table under its address, or can be put there. -/
def Settles (s : Peers N) (id : N) (address : String) : Prop :=
  match s.peerAddresses id with
  | some known => known.rpc = address
  | none => parseAddress address ≠ none

/-- `syncPeers` can bring the table up to date: nobody in it has another address now, and
somebody is live unless the table is empty. -/
def Syncs (s : Peers N) (livePeers : List (PeerState N)) : Prop :=
  (∀ id address, id ≠ s.nodeId → addressOf livePeers id = some address → s.Settles id address) ∧
    ((∀ id, id ≠ s.nodeId → addressOf livePeers id = none) → ∀ id, s.peerAddresses id = none)

/-- A member that joins is not in the table under another address, the others have addresses
that can be parsed, and no connection to a live one is open. -/
def Ready (s : Peers N) (livePeers : List (PeerState N)) : GossipEvent N → Prop
  | .member_join peer =>
      match addressOf livePeers peer.id with
      | some address =>
          s.Settles peer.id address ∧ ∀ id, id ≠ s.nodeId → id ≠ peer.id →
            ∀ other, addressOf livePeers id = some other →
              parseAddress other ≠ none ∧ s.dealerConnections id = none
      | none => s.Syncs livePeers
  | .member_leave _ => s.Syncs livePeers
  | .member_update _ | .removed _ => True

end Peers

namespace PeerTracking

variable {N : Type} [DecidableEq N]

/-- After an event the table is that of the live peers, and the connections to the others
that were and are live are as they were. -/
def Follows (t : PeerTracking N) : TrackingAction N → Prop
  | .gossip a now =>
      let gossip := change t.gossip now a
      let t' := t.advance gossip now
      ∀ event ∈ t.emitted gossip, ∀ id, memberOf event = some id →
        t'.transport.Tracks (gossip.getLivePeers now) ∧
          ∀ other, other ≠ id → addressOf (t.gossip.getLivePeers now) other ≠ none →
            addressOf (gossip.getLivePeers now) other ≠ none →
              ∀ address, t.transport.dealerConnections other = some address →
                t'.transport.dealerConnections other = some address
  | .getOrCreateConnection _ | .rotateCurveKeys => True

def Ready (t : PeerTracking N) : TrackingAction N → Prop
  | .gossip a now =>
      let gossip := change t.gossip now a
      ∀ event ∈ t.emitted gossip, t.transport.Ready (gossip.getLivePeers now) event
  | .getOrCreateConnection _ | .rotateCurveKeys => True

end PeerTracking

end Libeam.Transport
