/-! # Creation modes

A node is created persistent or ephemeral (removed when its session ends), and either with the
given name or with a sequence number appended to it. The four combinations have the codes
`0` to `3`.
-/

namespace Ensemble

/-- How a node is created. -/
inductive CreateMode where
  | persistent
  | ephemeral
  | persistentSequential
  | ephemeralSequential
  deriving DecidableEq, Repr

namespace CreateMode

/-- The code of a mode on the wire. -/
def value : CreateMode → Int32
  | .persistent => 0
  | .ephemeral => 1
  | .persistentSequential => 2
  | .ephemeralSequential => 3

/-- The name of a mode. -/
def name : CreateMode → String
  | .persistent => "Persistent"
  | .ephemeral => "Ephemeral"
  | .persistentSequential => "PersistentSequential"
  | .ephemeralSequential => "EphemeralSequential"

/-- The mode with a given code, if there is one. -/
def ofValue? (v : Int32) : Option CreateMode :=
  [CreateMode.persistent, .ephemeral, .persistentSequential, .ephemeralSequential].find?
    (·.value == v)

/-- Whether the node goes away with its session. -/
def isEphemeral : CreateMode → Bool
  | .ephemeral | .ephemeralSequential => true
  | _ => false

/-- Whether a sequence number is appended to the name. -/
def isSequential : CreateMode → Bool
  | .persistentSequential | .ephemeralSequential => true
  | _ => false

end CreateMode

end Ensemble
