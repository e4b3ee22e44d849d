import Libeam.Lib.Log
import Libeam.Lib.OrderedMap
import Libeam.Lib.Transition
/-!
# Heartbeats

A manager pings the peers that it tracks and counts the pings that have not been answered by the
next one.  A tracking record is an object: timers and pings in flight keep the record they were
made for, while the table of peers may have another one, or none, when they end.  Here a record is
known by its place in the list of all that were ever made.  Intervals are left out, so that timers
fire and pings end in any order.
-/

namespace Libeam.Monitoring

open Lib

variable {N : Type}

structure PeerHeartbeatState (N : Type) where
  nodeId : N
  missedCount : Nat
  lastPongTime : Nat
  pendingPing : Bool
  isLeaving : Bool
  deriving DecidableEq, Repr

structure HeartbeatConfig where
  enabled : Bool
  maxMissedHeartbeats : Nat
  staggerPings : Bool

/-- What has happened to records, which are given by their places. -/
inductive HeartbeatEvent (N : Type) where
  /-- A ping for the record was due while the one before was pending. -/
  | missed (record : Nat)
  /-- A pong has answered a ping for the record. -/
  | pong (record : Nat)
  /-- A pong to a ping for the record has been entered in the tracked one. -/
  | entered (record tracked : Nat)
  /-- A failed ping for the record has taken the tracked one out of the table. -/
  | removed (record tracked : Nat)
  /-- `node_failed`, with the record that was tracked then. -/
  | node_failed (node : N) (tracked : Option Nat)
  deriving DecidableEq, Repr

structure HeartbeatManager (N : Type) where
  nodeId : N
  config : HeartbeatConfig
  records : List (PeerHeartbeatState N)
  peerStates : OrderedMap N Nat
  /-- Timers that have not fired, with their records. -/
  timers : List (Nat × Nat)
  staggerTimers : List Nat
  nextTimer : Nat
  /-- The records of the pings in flight. -/
  pings : List Nat
  isRunning : Bool
  log : List (HeartbeatEvent N)

namespace HeartbeatManager

variable [DecidableEq N]

def new (nodeId : N) (config : HeartbeatConfig) : HeartbeatManager N where
  nodeId := nodeId
  config := config
  records := []
  peerStates := .empty
  timers := []
  staggerTimers := []
  nextTimer := 0
  pings := []
  isRunning := false
  log := []

def modifyRecord (m : HeartbeatManager N) (record : Nat)
    (f : PeerHeartbeatState N → PeerHeartbeatState N) : HeartbeatManager N :=
  { m with records := m.records.modify record f }

def logEvent (m : HeartbeatManager N) (event : HeartbeatEvent N) : HeartbeatManager N :=
  { m with log := m.log ++ [event] }

def addPeer (m : HeartbeatManager N) (nodeId : N) (now : Nat) : HeartbeatManager N :=
  if m.peerStates.has nodeId then m
  else
    { m with
      records := m.records ++ [{ nodeId := nodeId, missedCount := 0, lastPongTime := now,
                                 pendingPing := false, isLeaving := false }]
      peerStates := m.peerStates.set nodeId m.records.length }

def removePeer (m : HeartbeatManager N) (nodeId : N) : HeartbeatManager N :=
  { m with peerStates := m.peerStates.delete nodeId }

def handleMemberJoin (m : HeartbeatManager N) (nodeId : N) (now : Nat) : HeartbeatManager N :=
  if nodeId ≠ m.nodeId then m.addPeer nodeId now else m

/-- `leaving` is the status with which the event says that the peer leaves of its own accord. -/
def handleMemberLeave (m : HeartbeatManager N) (nodeId : N) (leaving : Bool) :
    HeartbeatManager N :=
  match m.peerStates.get nodeId with
  | none => m
  | some tracked =>
      if leaving then
        (m.modifyRecord tracked fun state => { state with isLeaving := true }).removePeer nodeId
      else m.removePeer nodeId

/-! ## Pings -/

def sendPing (m : HeartbeatManager N) (record : Nat) : HeartbeatManager N :=
  { m.modifyRecord record fun state => { state with pendingPing := true } with
    pings := m.pings ++ [record] }

/-- The peer of the record has failed: whatever is tracked for it is removed. -/
def failPeer (m : HeartbeatManager N) (record : Nat) (nodeId : N) : HeartbeatManager N :=
  let tracked := m.peerStates.get nodeId
  let m := match tracked with
    | none => m
    | some t => (m.removePeer nodeId).logEvent (.removed record t)
  m.logEvent (.node_failed nodeId tracked)

/-- `pingPeer`, up to its `await`. -/
def pingPeer (m : HeartbeatManager N) (record : Nat) : HeartbeatManager N :=
  match m.records[record]? with
  | none => m
  | some state =>
      if ¬ m.isRunning ∨ state.isLeaving then m
      else if state.pendingPing then
        let missed := (m.modifyRecord record fun state =>
          { state with missedCount := state.missedCount + 1 }).logEvent (.missed record)
        if m.config.maxMissedHeartbeats ≤ state.missedCount + 1 then
          missed.failPeer record state.nodeId
        else missed.sendPing record
      else m.sendPing record

/-- `pingPeer`, after its `await`: a reply has arrived, which is a pong or something else. -/
def handlePong (m : HeartbeatManager N) (record : Nat) (isPong : Bool) (now : Nat) :
    HeartbeatManager N :=
  if isPong then
    let m := m.logEvent (.pong record)
    match m.records[record]? with
    | none => m
    | some state =>
        match m.peerStates.get state.nodeId with
        | none => m
        | some tracked =>
            (m.modifyRecord tracked fun currentState =>
              { currentState with
                pendingPing := false, missedCount := 0, lastPongTime := now }).logEvent
              (.entered record tracked)
  else m

def isLeavingAt (m : HeartbeatManager N) (record : Nat) : Bool :=
  (m.records[record]?.map PeerHeartbeatState.isLeaving).getD false

/-- The pings of a round are staggered when there are several peers. -/
def heartbeatLoop (m : HeartbeatManager N) : HeartbeatManager N :=
  if ¬ m.isRunning then m
  else
    let peers := m.peerStates.values.filter fun record => ¬ m.isLeavingAt record
    if m.config.staggerPings ∧ 1 < peers.length then
      { m with
        timers := m.timers ++ (peers.zipIdx m.nextTimer).map fun p => (p.2, p.1)
        staggerTimers := m.staggerTimers ++ (peers.zipIdx m.nextTimer).map Prod.snd
        nextTimer := m.nextTimer + peers.length }
    else peers.foldl pingPeer m

def start (m : HeartbeatManager N) (livePeers : List N) (now : Nat) : HeartbeatManager N :=
  if ¬ m.config.enabled ∨ m.isRunning then m
  else
    heartbeatLoop ((livePeers.filter fun id => id ≠ m.nodeId).foldl
      (fun m id => addPeer m id now) { m with isRunning := true })

def stop (m : HeartbeatManager N) : HeartbeatManager N :=
  if ¬ m.isRunning then m
  else
    { m with
      isRunning := false
      timers := m.timers.filter fun t => t.1 ∉ m.staggerTimers
      staggerTimers := []
      peerStates := .empty }

/-! ## Runs -/

inductive HeartbeatAction (N : Type) where
  | start (livePeers : List N) (now : Nat)
  | stop
  | addPeer (nodeId : N) (now : Nat)
  | removePeer (nodeId : N)
  | memberJoin (nodeId : N) (now : Nat)
  | memberLeave (nodeId : N) (leaving : Bool)
  | round
  /-- A stagger timer fires. -/
  | timer (timer : Nat × Nat)
  /-- The timers of a round are forgotten at its end. -/
  | roundEnd
  /-- A ping for the record is answered. -/
  | reply (record : Nat) (isPong : Bool) (now : Nat)
  /-- A ping for the record fails, or times out. -/
  | failure (record : Nat)
  deriving DecidableEq, Repr

def step (m : HeartbeatManager N) : HeartbeatAction N → Option (HeartbeatManager N)
  | .start livePeers now => some (m.start livePeers now)
  | .stop => some m.stop
  | .addPeer nodeId now => some (m.addPeer nodeId now)
  | .removePeer nodeId => some (m.removePeer nodeId)
  | .memberJoin nodeId now => some (m.handleMemberJoin nodeId now)
  | .memberLeave nodeId leaving => some (m.handleMemberLeave nodeId leaving)
  | .round => if m.isRunning then some m.heartbeatLoop else none
  | .timer timer =>
      if timer ∈ m.timers then some ({ m with timers := m.timers.erase timer }.pingPeer timer.2)
      else none
  | .roundEnd => some { m with staggerTimers := [] }
  | .reply record isPong now =>
      if record ∈ m.pings then
        some ({ m with pings := m.pings.erase record }.handlePong record isPong now)
      else none
  | .failure record =>
      if record ∈ m.pings then some { m with pings := m.pings.erase record } else none

end HeartbeatManager

/-- The pings for a record that have been missed since its last pong. -/
def missedSince (record : Nat) : List (HeartbeatEvent N) → Nat :=
  List.foldl (fun n event => match event with
    | .missed r => if r = record then n + 1 else n
    | .pong r => if r = record then 0 else n
    | _ => n) 0

/-- A failure is reported of a peer whose tracked record has missed enough pings in a row, and a
ping acts on no record but the one that it was made for. -/
def EventJustified (maxMissed : Nat) (log : List (HeartbeatEvent N)) : HeartbeatEvent N → Prop
  | .node_failed _ tracked => ∃ record, tracked = some record ∧ maxMissed ≤ missedSince record log
  | .entered record tracked => record = tracked
  | .removed record tracked => record = tracked
  | _ => True

def Justified (m : HeartbeatManager N) : Prop :=
  Each (EventJustified m.config.maxMissedHeartbeats) m.log

end Libeam.Monitoring
