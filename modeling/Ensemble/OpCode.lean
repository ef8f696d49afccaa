/-! # Operation codes

Every request names its operation by a signed 32-bit code in its header, and a transaction names
the operation of each of its parts the same way. The code `-1` marks an error part of a
transaction reply. `OpCode.ofValue?` reads a code and knows exactly the twenty codes of the
table; `OpCode.name` is the operation's name as messages show it.
-/

namespace Ensemble

/-- An operation of the protocol. -/
inductive OpCode where
  | notification
  | create
  | delete
  | exists
  | getData
  | setData
  | getAcl
  | setAcl
  | getChildren
  | sync
  | ping
  | getChildren2
  | check
  | multi
  | auth
  | setWatches
  | sasl
  | createSession
  | closeSession
  | error
  deriving DecidableEq, Repr

namespace OpCode

/-- The code of an operation on the wire. -/
def value : OpCode → Int32
  | .notification => 0
  | .create => 1
  | .delete => 2
  | .exists => 3
  | .getData => 4
  | .setData => 5
  | .getAcl => 6
  | .setAcl => 7
  | .getChildren => 8
  | .sync => 9
  | .ping => 11
  | .getChildren2 => 12
  | .check => 13
  | .multi => 14
  | .auth => 100
  | .setWatches => 101
  | .sasl => 102
  | .createSession => -10
  | .closeSession => -11
  | .error => -1

/-- The name of an operation as messages show it. -/
def name : OpCode → String
  | .notification => "Notification"
  | .create => "Create"
  | .delete => "Delete"
  | .exists => "Exists"
  | .getData => "GetData"
  | .setData => "SetData"
  | .getAcl => "GetAcl"
  | .setAcl => "SetAcl"
  | .getChildren => "GetChildren"
  | .sync => "Sync"
  | .ping => "Ping"
  | .getChildren2 => "GetChildren2"
  | .check => "Check"
  | .multi => "Multi"
  | .auth => "Auth"
  | .setWatches => "SetWatches"
  | .sasl => "Sasl"
  | .createSession => "CreateSession"
  | .closeSession => "CloseSession"
  | .error => "Error"

/-- Every operation, in the order of the table. -/
def all : List OpCode :=
  [.notification, .create, .delete, .exists, .getData, .setData, .getAcl, .setAcl, .getChildren,
    .sync, .ping, .getChildren2, .check, .multi, .auth, .setWatches, .sasl, .createSession,
    .closeSession, .error]

/-- The operation with a given code, if there is one. -/
def ofValue? (v : Int32) : Option OpCode :=
  all.find? (·.value == v)

end OpCode

end Ensemble
