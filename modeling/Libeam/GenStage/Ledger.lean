import Libeam.GenStage.Outlet
/-!
# What a trace tells

The questions below are answered from the acts of a stage alone, without looking at
its state: which events its callback returned, which it sent and to whom, and what
every current subscriber is still owed.
-/

namespace Libeam.GenStage

open Lib

variable {E : Type}

def Act.returns : Act E → List E
  | .returned events => events
  | _ => []

def Act.batches : Act E → List (Dispatched E)
  | .sent dispatched => dispatched
  | _ => []

def Act.drops : Act E → List E
  | .dropped events => events
  | _ => []

/-- The demand that an ask of the subscription adds. -/
def Act.asks (tag : Tag) : Act E → Int
  | .asked tag' demand => if tag' = tag then max 0 demand else 0
  | _ => 0

/-- How many of the events in some batches go to the subscription. -/
def countFor (tag : Tag) (batches : List (Dispatched E)) : Int :=
  (batches.map fun b => if b.tag = tag then (b.events.length : Int) else 0).sum

theorem countFor_nonneg (tag : Tag) (batches : List (Dispatched E)) :
    0 ≤ countFor tag batches := by
  refine List.sum_nonneg fun n hn => ?_
  obtain ⟨b, -, rfl⟩ := List.mem_map.1 hn
  split_ifs
  · exact Int.natCast_nonneg _
  · exact le_rfl

/-- The events of some batches, one batch after the other. -/
def eventsOf (batches : List (Dispatched E)) : List E := batches.flatMap (·.events)

namespace Trace

/-- The events that the callback of the user returned. -/
def returned (t : Trace E) : List E := t.flatMap Act.returns

def batches (t : Trace E) : List (Dispatched E) := t.flatMap Act.batches

/-- The events sent, one batch after the other. -/
def sent (t : Trace E) : List E := eventsOf t.batches

def dropped (t : Trace E) : List E := t.flatMap Act.drops

def askedBy (tag : Tag) (t : Trace E) : Int := (t.map (Act.asks tag)).sum

def sentTo (tag : Tag) (t : Trace E) : Int := countFor tag t.batches

@[simp] theorem returned_append (t u : Trace E) : returned (t ++ u) = t.returned ++ u.returned :=
  List.flatMap_append

@[simp] theorem batches_append (t u : Trace E) : batches (t ++ u) = t.batches ++ u.batches :=
  List.flatMap_append

@[simp] theorem dropped_append (t u : Trace E) : dropped (t ++ u) = t.dropped ++ u.dropped :=
  List.flatMap_append

theorem dropped_append_nil {t u : Trace E} (h : dropped (t ++ u) = []) :
    t.dropped = [] ∧ u.dropped = [] := by
  rwa [dropped_append, List.append_eq_nil_iff] at h

@[simp] theorem sent_append (t u : Trace E) : sent (t ++ u) = t.sent ++ u.sent := by
  rw [sent, batches_append, eventsOf, List.flatMap_append]
  rfl

@[simp] theorem askedBy_append (tag : Tag) (t u : Trace E) :
    askedBy tag (t ++ u) = askedBy tag t + askedBy tag u := by
  rw [askedBy, List.map_append, List.sum_append]
  rfl

@[simp] theorem sentTo_append (tag : Tag) (t u : Trace E) :
    sentTo tag (t ++ u) = sentTo tag t + sentTo tag u := by
  rw [sentTo, batches_append, countFor, List.map_append, List.sum_append]
  rfl

end Trace

/-! ## The ledger of the current subscribers -/

structure Account where
  asked : Int
  sent : Int
  deriving DecidableEq, Repr

/-- What a subscriber has asked and not been sent. -/
def Account.owed (a : Account) : Int := a.asked - a.sent

def Account.ask (a : Account) (demand : Int) : Account := { a with asked := a.asked + demand }

def Account.send (a : Account) (count : Nat) : Account := { a with sent := a.sent + count }

/-- The accounts of the current subscribers, each opened with the subscription. -/
abbrev Ledger := OrderedMap Tag Account

namespace Ledger

def charge (l : Ledger) (batches : List (Dispatched E)) : Ledger :=
  batches.foldl (fun l b => l.modify b.tag (·.send b.events.length)) l

def record (l : Ledger) : Act E → Ledger
  | .subscribed tag _ => l.set tag ⟨0, 0⟩
  | .cancelled tag => l.delete tag
  | .asked tag demand => l.modify tag (·.ask (max 0 demand))
  | .sent batches => l.charge batches
  | _ => l

/-- What every current subscriber is owed. -/
def owed (l : Ledger) : OrderedMap Tag Int := l.map Account.owed

end Ledger

namespace Trace

def ledger (t : Trace E) : Ledger := t.foldl Ledger.record .empty

/-- The demand of all current subscribers that is not served. -/
def outstanding (t : Trace E) : Int := t.ledger.owed.sum

theorem ledger_append (t u : Trace E) : ledger (t ++ u) = u.foldl Ledger.record t.ledger :=
  List.foldl_append

end Trace

namespace Ledger

/-- A batch takes its length off what its subscriber is owed. -/
def chargeOwed (m : OrderedMap Tag Int) (batches : List (Dispatched E)) : OrderedMap Tag Int :=
  batches.foldl (fun m b => m.modify b.tag (· - b.events.length)) m

theorem owed_charge (l : Ledger) (batches : List (Dispatched E)) :
    (l.charge batches).owed = chargeOwed l.owed batches := by
  induction batches generalizing l with
  | nil => rfl
  | cons b batches ih =>
      have hsend : (OrderedMap.modify l b.tag (·.send b.events.length)).map Account.owed =
          (OrderedMap.map Account.owed l).modify b.tag (· - b.events.length) :=
        OrderedMap.map_modify l b.tag fun a => by
          simp only [Account.owed, Account.send]
          ring
      exact (ih _).trans (congrArg (chargeOwed · batches) hsend)

theorem owed_ask (l : Ledger) (tag : Tag) (demand : Int) :
    owed (OrderedMap.modify l tag (·.ask demand)) = l.owed.modify tag (· + demand) :=
  OrderedMap.map_modify l tag fun a => by
    simp only [Account.owed, Account.ask]
    ring

end Ledger

end Libeam.GenStage
