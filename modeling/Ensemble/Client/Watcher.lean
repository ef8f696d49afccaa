import Ensemble.Envelope.Response

/-! # The watcher registry

A client leaves a watcher on a path to hear once about the next change there. There are three
kinds of watch: on a node's data, on its children, and on its existence (left when a node was
found missing). Each kind keeps at most one pending watcher per path.

Registering checks the path first. A free key takes the watcher (`registered`); the same watcher
on its own key changes nothing (`duplicate`); another watcher on a taken key is turned away and
the first one stays (`occupied`).

An event takes, from each kind it concerns, the watcher on the event's path, removing it, so a
watcher fires at most once. A creation or a data change concerns data and existence watches, a
deletion data and child watches, a change of children child watches; an event without a path
takes nothing. Watchers are named by an id; the same id is the same watcher.
-/

namespace Ensemble

/-- The kind of a watch. -/
inductive WatcherKind where
  | data
  | child
  | existence
  deriving DecidableEq, Repr

namespace WatcherKind

/-- The name of a kind. -/
def name : WatcherKind → String
  | .data => "data"
  | .child => "child"
  | .existence => "existence"

/-- The kinds an event concerns, in the order their watchers fire. -/
def notifiedBy : EventType → List WatcherKind
  | .nodeDataChanged | .nodeCreated => [.data, .existence]
  | .nodeChildrenChanged => [.child]
  | .nodeDeleted => [.data, .child]

end WatcherKind

/-- The outcome of a registration. -/
inductive Registration where
  | registered
  | duplicate
  | occupied
  deriving DecidableEq, Repr

/-- The name of an outcome. -/
def Registration.name : Registration → String
  | .registered => "Registered"
  | .duplicate => "Duplicate"
  | .occupied => "Occupied"

/-- The pending watchers of one kind: a path and the id of its watcher, at most one per path. -/
abbrev Slots := List (String × String)

/-- The pending watchers of every kind. -/
structure Registry where
  data : Slots := []
  child : Slots := []
  existence : Slots := []

namespace Registry

/-- The pending watchers of one kind. -/
def slots (r : Registry) : WatcherKind → Slots
  | .data => r.data
  | .child => r.child
  | .existence => r.existence

/-- The registry with the pending watchers of one kind replaced. -/
def withSlots (r : Registry) : WatcherKind → Slots → Registry
  | .data, s => { r with data := s }
  | .child, s => { r with child := s }
  | .existence, s => { r with existence := s }

/-- The watcher pending on a path for one kind, if any. -/
def pending? (r : Registry) (k : WatcherKind) (path : String) : Option String :=
  (r.slots k).lookup path

/-- Leaves watcher `w` on `path` for kind `k`, unless the path is invalid. -/
def register (r : Registry) (k : WatcherKind) (path w : String) :
    Except Error (Registration × Registry) := do
  Path.validate path
  match r.pending? k path with
  | some w' => pure (if w' = w then .duplicate else .occupied, r)
  | none => pure (.registered, r.withSlots k (r.slots k ++ [(path, w)]))

/-- Removes and returns the watchers an event concerns, in the order they fire. -/
def take (r : Registry) (e : WatchedEvent) : List String × Registry :=
  match e.path with
  | none => ([], r)
  | some p =>
    (WatcherKind.notifiedBy e.type).foldl (fun (taken, r) k =>
      match r.pending? k p with
      | some w => (taken ++ [w], r.withSlots k ((r.slots k).filter (·.1 ≠ p)))
      | none => (taken, r)) ([], r)

/-- The watchers an event fires, each with the event: the taken watchers in order. -/
def dispatch (r : Registry) (e : WatchedEvent) : List (String × WatchedEvent) × Registry :=
  let (taken, r) := r.take e
  (taken.map (·, e), r)

/-- Reads the event of a `WatcherEvent` record, then dispatches it. -/
def dispatchRecord (r : Registry) (rec : Record) :
    Except Error (List (String × WatchedEvent) × Registry) := do
  let e ← WatchedEvent.ofRecord rec
  pure (r.dispatch e)

/-- The paths with a pending watcher of one kind, in increasing order. -/
def paths (r : Registry) (k : WatcherKind) : List String :=
  ((r.slots k).map (·.1)).mergeSort (fun a b => decide (a ≤ b))

/-- Whether no watcher is pending. -/
def isEmpty (r : Registry) : Bool :=
  r.data.isEmpty && r.child.isEmpty && r.existence.isEmpty

/-- The registry as a structural dump shows it: the pending paths of each kind. -/
def debug (r : Registry) : String :=
  let list (k : WatcherKind) := "[" ++ ", ".intercalate ((r.paths k).map Escaped.string) ++ "]"
  "WatcherManager \x7b data: " ++ list .data ++ ", child: " ++ list .child ++ ", existence: " ++
    list .existence ++ " \x7d"

end Registry

end Ensemble
