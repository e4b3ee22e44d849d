import Libeam.System.Lifecycle
/-!
# Restart limits of supervised children

`ChildSupervisor` counts the restarts of the children of all parents in one
table.  Its keys are strings put together from the parent's id and from what is
taken to identify the child: its name, or else its spawn arguments, or else its
own id.  `stringify` stands for `JSON.stringify` on argument lists.
-/

namespace Libeam.Supervision

open Libeam.System (ActorId RestartRecord)

inductive ChildSupervisionStrategy where
  | oneForOne
  | oneForAll
  | restForOne
  deriving DecidableEq, Repr

structure ChildSupervisionOptions where
  strategy : ChildSupervisionStrategy
  maxRestarts : Nat
  periodMs : Nat
  deriving DecidableEq, Repr

/-- The spawn options that supervision reads. -/
structure SpawnOptions (V : Type) where
  name : Option String := none
  args : Option (List V) := none
  deriving DecidableEq, Repr

section
variable {V : Type} (stringify : List V → String)

/-- `name || JSON.stringify(args || childId)`: the empty name counts as none. -/
def childKey (childId : ActorId) (options : Option (SpawnOptions V)) : String :=
  match options.bind SpawnOptions.name with
  | some name => if name ≠ "" then name else byArgs
  | none => byArgs
where
  byArgs : String :=
    match options.bind SpawnOptions.args with
    | some args => stringify args
    | none => "\"" ++ toString childId ++ "\""

/-- The options are those of the child's metadata, when it has any. -/
def getRestartKey (childId parentId : ActorId) (options : Option (SpawnOptions V)) :
    String :=
  toString parentId ++ ":" ++ childKey stringify childId options

def getRestartKeyForRemote (childId parentId : ActorId) (options : SpawnOptions V) :
    String :=
  toString parentId ++ ":" ++ childKey stringify childId (some options)

end

structure ChildSupervisor where
  restartCounts : String → Option RestartRecord

namespace ChildSupervisor

def new : ChildSupervisor := ⟨fun _ => none⟩

/-- The record a crash finds, reset when its period has passed. -/
def record (v : ChildSupervisor) (restartKey : String) (periodMs now : Nat) :
    RestartRecord :=
  let record := (v.restartCounts restartKey).getD ⟨0, now⟩
  if periodMs < now - record.timestamp then ⟨0, now⟩ else record

/-- Does `canRestart` reset the record? -/
def resets (v : ChildSupervisor) (restartKey : String) (periodMs now : Nat) : Bool :=
  (v.restartCounts restartKey).any fun record => periodMs < now - record.timestamp

def canRestart (v : ChildSupervisor) (restartKey : String)
    (options : ChildSupervisionOptions) (now : Nat) : ChildSupervisor × Bool :=
  let record := v.record restartKey options.periodMs now
  if options.maxRestarts ≤ record.count then
    -- a record in the table is reset in place, a new one is dropped
    (⟨Function.update v.restartCounts restartKey
      ((v.restartCounts restartKey).map fun _ => record)⟩, false)
  else
    (⟨Function.update v.restartCounts restartKey
      (some { record with count := record.count + 1 })⟩, true)

/-- How many restarts `canRestart` would still grant at `now`. -/
def remaining (v : ChildSupervisor) (restartKey : String)
    (options : ChildSupervisionOptions) (now : Nat) : Nat :=
  options.maxRestarts - (v.record restartKey options.periodMs now).count

end ChildSupervisor

/-! ## Crashes one after the other -/

/-- The children of a node.  A child is a lineage: the instance that was spawned
and those that replaced it, all with the same parent and the same options. -/
structure Children (C V : Type) where
  owner : ActorId → C
  parent : C → ActorId
  options : C → SpawnOptions V
  /-- Spawned on another node. -/
  remote : C → Bool
  /-- What `childSupervision()` of a parent returns. -/
  supervision : ActorId → ChildSupervisionOptions

/-- A crash of an instance, with the time at which it is handled. -/
structure Crash where
  childId : ActorId
  now : Nat
  deriving DecidableEq, Repr

/-- What was decided about a crash. -/
structure Decided where
  crash : Crash
  restartKey : String
  reset : Bool
  granted : Bool
  deriving DecidableEq, Repr

namespace Children

variable {C V : Type} (ch : Children C V) (stringify : List V → String)

def restartKey (childId : ActorId) : String :=
  let child := ch.owner childId
  if ch.remote child then
    getRestartKeyForRemote stringify childId (ch.parent child) (ch.options child)
  else
    getRestartKey stringify childId (ch.parent child) (some (ch.options child))

/-- The supervision options under which the instance is restarted. -/
def limits (childId : ActorId) : ChildSupervisionOptions :=
  ch.supervision (ch.parent (ch.owner childId))

/-- The crashes are put to `canRestart` in turn. -/
def handleCrashes (v : ChildSupervisor) : List Crash → ChildSupervisor × List Decided
  | [] => (v, [])
  | c :: cs =>
      let key := ch.restartKey stringify c.childId
      let reset := v.resets key (ch.limits c.childId).periodMs c.now
      let (v, granted) := v.canRestart key (ch.limits c.childId) c.now
      let (v, rest) := handleCrashes v cs
      (v, ⟨c, key, reset, granted⟩ :: rest)

end Children

end Libeam.Supervision
