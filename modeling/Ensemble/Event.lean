import Ensemble.Text.Decimal

/-! # Watch events

The server tells a client that a node it watches was created, deleted, or had its data or its
children changed. The four kinds of event have the codes `1` to `4`. An event carries the kind
and the path of the node, if any, and shows as `NAME[code]`, followed by `@path` when there is
a path.
-/

namespace Ensemble

/-- What happened to a watched node. -/
inductive EventType where
  | nodeCreated
  | nodeDeleted
  | nodeDataChanged
  | nodeChildrenChanged
  deriving DecidableEq, Repr

namespace EventType

/-- The code of an event kind on the wire. -/
def value : EventType → Int32
  | .nodeCreated => 1
  | .nodeDeleted => 2
  | .nodeDataChanged => 3
  | .nodeChildrenChanged => 4

/-- The name of an event kind. -/
def name : EventType → String
  | .nodeCreated => "NODE_CREATED"
  | .nodeDeleted => "NODE_DELETED"
  | .nodeDataChanged => "NODE_DATA_CHANGED"
  | .nodeChildrenChanged => "NODE_CHILDREN_CHANGED"

/-- The event kind with a given code, if there is one. -/
def ofValue? (v : Int32) : Option EventType :=
  [EventType.nodeCreated, .nodeDeleted, .nodeDataChanged, .nodeChildrenChanged].find?
    (·.value == v)

end EventType

/-- An event delivered to watchers: what happened, and to which path. -/
structure WatchedEvent where
  type : EventType
  path : Option String
  deriving DecidableEq, Repr

/-- An event shown as `NAME[code]`, with `@path` after it when it has a path. -/
def WatchedEvent.display (e : WatchedEvent) : String :=
  e.type.name ++ "[" ++ Decimal.ofInt e.type.value.toInt ++ "]" ++
    match e.path with
    | some p => "@" ++ p
    | none => ""

end Ensemble
