import Ensemble.Text.Decimal

/-! # Server exceptions

A reply header carries a result code: `0` for success, a negative code for the condition that
stopped the operation. `ExceptionCode.ofValue?` knows exactly the twenty codes of the table.
An exception pairs a code with the path it concerns, if any, and shows as `NAME[code]`,
followed by `@path` when there is a path (an empty path leaves a bare `@`).
-/

namespace Ensemble

/-- A result code of the server. -/
inductive ExceptionCode where
  | ok
  | systemError
  | runtimeInconsistency
  | dataInconsistency
  | connectionLoss
  | marshallingError
  | unimplemented
  | operationTimeout
  | badArguments
  | apiError
  | noNode
  | noAuth
  | badVersion
  | noChildrenForEphemerals
  | nodeExists
  | notEmpty
  | sessionExpired
  | invalidCallback
  | invalidAcl
  | authFailed
  deriving DecidableEq, Repr

namespace ExceptionCode

/-- The code on the wire. -/
def value : ExceptionCode → Int32
  | .ok => 0
  | .systemError => -1
  | .runtimeInconsistency => -2
  | .dataInconsistency => -3
  | .connectionLoss => -4
  | .marshallingError => -5
  | .unimplemented => -6
  | .operationTimeout => -7
  | .badArguments => -8
  | .apiError => -100
  | .noNode => -101
  | .noAuth => -102
  | .badVersion => -103
  | .noChildrenForEphemerals => -108
  | .nodeExists => -110
  | .notEmpty => -111
  | .sessionExpired => -112
  | .invalidCallback => -113
  | .invalidAcl => -114
  | .authFailed => -115

/-- The name of a code. -/
def name : ExceptionCode → String
  | .ok => "OK"
  | .systemError => "SYSTEM_ERROR"
  | .runtimeInconsistency => "RUNTIME_INCONSISTENCY"
  | .dataInconsistency => "DATA_INCONSISTENCY"
  | .connectionLoss => "CONNECTION_LOSS"
  | .marshallingError => "MARSHALLING_ERROR"
  | .unimplemented => "UNIMPLEMENTED"
  | .operationTimeout => "OPERATION_TIMEOUT"
  | .badArguments => "BAD_ARGUMENTS"
  | .apiError => "API_ERROR"
  | .noNode => "NO_NODE"
  | .noAuth => "NO_AUTH"
  | .badVersion => "BAD_VERSION"
  | .noChildrenForEphemerals => "NO_CHILDREN_FOR_EPHEMERALS"
  | .nodeExists => "NODE_EXISTS"
  | .notEmpty => "NOT_EMPTY"
  | .sessionExpired => "SESSION_EXPIRED"
  | .invalidCallback => "INVALID_CALLBACK"
  | .invalidAcl => "INVALID_ACL"
  | .authFailed => "AUTH_FAILED"

/-- Every code, in the order of the table. -/
def all : List ExceptionCode :=
  [.ok, .systemError, .runtimeInconsistency, .dataInconsistency, .connectionLoss,
    .marshallingError, .unimplemented, .operationTimeout, .badArguments, .apiError, .noNode,
    .noAuth, .badVersion, .noChildrenForEphemerals, .nodeExists, .notEmpty, .sessionExpired,
    .invalidCallback, .invalidAcl, .authFailed]

/-- The code with a given value, if there is one. -/
def ofValue? (v : Int32) : Option ExceptionCode :=
  all.find? (·.value == v)

/-- A code shown as `NAME[value]`. -/
def display (c : ExceptionCode) : String :=
  c.name ++ "[" ++ Decimal.ofInt c.value.toInt ++ "]"

end ExceptionCode

/-- A result code together with the path it concerns, if any. -/
structure Exception where
  code : ExceptionCode
  path : Option String := none
  deriving DecidableEq, Repr

/-- An exception shown as `Exception: NAME[value]`, with `@path` after it when it has a path. -/
def Exception.display (e : Exception) : String :=
  "Exception: " ++ e.code.display ++
    match e.path with
    | some p => "@" ++ p
    | none => ""

end Ensemble
