import Libeam.Lib.OrderedMap
import Libeam.Lib.Transition
/-!
# The supervisor of the command line

`libeam start` runs every node of the configuration in a process of its own and tells it a port,
the configured one or the next automatic one.  The entry module of a node may create a
distributed system there, which takes the port and the two after it.
-/

namespace Libeam.Cli

open Lib

inductive PortOption where
  | auto
  | number (port : Nat)
  deriving DecidableEq, Repr

structure NodeDefinition where
  entry : String
  roles : Option (List String)
  count : Option Nat
  port : Option PortOption
  deriving DecidableEq, Repr

structure LibeamConfig where
  nodes : OrderedMap String NodeDefinition

/-- A process, with the port in its environment. -/
structure ManagedNode where
  definition : NodeDefinition
  port : Nat
  deriving DecidableEq, Repr

structure NodeSupervisor where
  config : LibeamConfig
  nodes : OrderedMap String ManagedNode
  nextAutoPort : Nat

/-- The port is assigned by the supervisor. -/
def NodeDefinition.isAuto (definition : NodeDefinition) : Bool :=
  definition.port = some .auto ∨ definition.port = none

namespace NodeSupervisor

def new (config : LibeamConfig) : NodeSupervisor := ⟨config, .empty, 6000⟩

/-- The port that a node with this definition is started on next. -/
def portFor (s : NodeSupervisor) (definition : NodeDefinition) : Nat :=
  match definition.port with
  | some (.number port) => port
  | _ => s.nextAutoPort

def startNode (s : NodeSupervisor) (name : String) (definition : NodeDefinition) :
    Except String NodeSupervisor :=
  if s.nodes.has name then .error s!"Node \"{name}\" is already running"
  else
    .ok { s with
      nodes := s.nodes.set name ⟨definition, s.portFor definition⟩
      nextAutoPort := if definition.isAuto then s.nextAutoPort + 1 else s.nextAutoPort }

/-- The process of the node has ended. -/
def exit (s : NodeSupervisor) (name : String) : NodeSupervisor :=
  { s with nodes := s.nodes.delete name }

/-- The names of the instances of a node. -/
def instances (name : String) (definition : NodeDefinition) : List (String × NodeDefinition) :=
  let count := definition.count.getD 1
  (List.range count).map fun i =>
    (if count > 1 then s!"{name}-{i + 1}" else name, definition)

/-- The nodes are started one after the other until one is refused. -/
def startNodes (s : NodeSupervisor) :
    List (String × NodeDefinition) → NodeSupervisor × Option String
  | [] => (s, none)
  | (name, definition) :: rest =>
      match s.startNode name definition with
      | .ok s => s.startNodes rest
      | .error e => (s, some e)

end NodeSupervisor

/-! ## Runs -/

inductive Action where
  | startNode (name : String) (definition : NodeDefinition)
  | exit (name : String)
  deriving DecidableEq, Repr

/-- A node that is refused changes nothing. -/
def NodeSupervisor.step (s : NodeSupervisor) : Action → Option NodeSupervisor
  | .startNode name definition =>
      match s.startNode name definition with
      | .ok t => some t
      | .error _ => some s
  | .exit name => some (s.exit name)

/-! ## Ports -/

/-- `config.port`, `config.port + 1` and `config.port + 2`; there is no system on port 0. -/
def triple (port : Nat) : List Nat := if port = 0 then [] else [port, port + 1, port + 2]

end Libeam.Cli
