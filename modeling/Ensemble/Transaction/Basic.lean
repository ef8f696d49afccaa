import Ensemble.OpCode
import Ensemble.Exception
import Ensemble.Node.Stat
import Ensemble.Node.Acl
import Ensemble.Node.CreateMode

/-! # Transactions

A transaction is a list of operations that the server applies all together or not at all:
creating a node, deleting one, setting a node's data, and checking a node's version. For each
operation the reply holds a result: the created path, a deletion, the new metadata, a passed
check, or the code that made the transaction fail.

`firstFailure` is the first failure code that is not `OK`: a transaction failed exactly when
there is one.
-/

namespace Ensemble

/-- An operation of a transaction. -/
inductive Op where
  | create (path : String) (data : Option (List UInt8)) (acls : List Acl) (mode : CreateMode)
  | delete (path : String) (version : Int32)
  | setData (path : String) (data : Option (List UInt8)) (version : Int32)
  | check (path : String) (version : Int32)
  deriving DecidableEq

namespace Op

/-- The operation code of an operation. -/
def opCode : Op → OpCode
  | .create .. => .create
  | .delete .. => .delete
  | .setData .. => .setData
  | .check .. => .check

/-- The path an operation concerns. -/
def path : Op → String
  | .create p .. | .delete p .. | .setData p .. | .check p .. => p

end Op

/-- The result of one operation of a transaction. -/
inductive OpResult where
  | created (path : String)
  | deleted
  | dataSet (stat : Stat)
  | checked
  | failed (code : ExceptionCode)
  deriving DecidableEq, Repr

namespace OpResult

/-- The operation code under which a result travels; a failure travels as `error`. -/
def opCode : OpResult → OpCode
  | .created _ => .create
  | .deleted => .delete
  | .dataSet _ => .setData
  | .checked => .check
  | .failed _ => .error

/-- The failure code of a result, unless it is a success or an `OK` failure. -/
def failure? : OpResult → Option ExceptionCode
  | .failed c => if c = .ok then none else some c
  | _ => none

end OpResult

/-- The first failure code of a list of results that is not `OK`. -/
def firstFailure (results : List OpResult) : Option ExceptionCode :=
  results.findSome? OpResult.failure?

end Ensemble
