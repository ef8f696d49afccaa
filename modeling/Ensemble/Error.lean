import Ensemble.Record.Value
import Ensemble.Text.Utf8
import Ensemble.Path
import Ensemble.Transaction.Basic
import Ensemble.Event

/-! # Errors

Every operation of the library either succeeds or names the cause of its failure. Causes fall
into five kinds, each with its own message prefix:

- an argument the caller gave is not acceptable (`invalid argument: …`);
- the server answered with an exception code (`Exception: NAME[code]`, with `@path`);
- a transaction failed, with the first failure code and every result
  (`transaction failed: Exception: NAME[code]`);
- the other side broke the protocol (`protocol error: …`);
- bytes could not be read or written (`serialization error: …`).

`Error.message` writes the text of each cause in one place.
-/

namespace Ensemble

/-- Why an argument is not acceptable. -/
inductive ArgumentFault where
  | invalidPath (path : String) (fault : PathFault)
  | permission (perms : Int32)
  | emptyScheme
  | unknownCreateMode (mode : Int32)
  | emptyAcls
  | dataTooLarge (size : Nat)
  | fieldExpects (record field : String) (type : FieldType)
  | fieldNotOfKind (record field kind : String)
  | noSuchField (record field : String)

/-- Why the other side broke the protocol. -/
inductive ProtocolFault where
  | unknownOpCode (code : Int32)
  | unknownExceptionCode (code : Int32)
  | unknownEventType (code : Int32)
  | unknownSessionState (code : Int32)
  | unknownRecordClass (module name : String)
  | unexpectedOp (op : OpCode)
  | notificationXid (xid : Int32)
  | expectedRecord (got : String)
  | expectedTransaction (got : String)
  | negativeFrameLength (length : Int32)
  | frameTooLong (length max : Nat)
  | noScriptedReply
  | scripted

/-- Why bytes could not be read or written. -/
inductive WireFault where
  | shortInput (need left : Nat)
  | badLength (length : Int32)
  | badUtf8 (e : Utf8.Error)
  | noRoom (need left : Nat)
  | recordNoRoom
  | offsetOutOfRange (offset : Nat)
  | mismatch (value : Value) (type : FieldType)
  | notChildName (value : Value)
  | notAcl (value : Value)

/-- Why an operation failed. -/
inductive Error where
  | invalidArgument (fault : ArgumentFault)
  | exception (e : Exception)
  | transactionFailed (e : Exception) (results : List OpResult)
  | protocol (fault : ProtocolFault)
  | serialization (fault : WireFault)

/-- The message of an argument fault. -/
def ArgumentFault.message : ArgumentFault → String
  | .invalidPath p f => "invalid path " ++ Escaped.string p ++ ": " ++ f.reason
  | .permission n => "permission must be between 1 and 31, got " ++ Decimal.ofInt n.toInt
  | .emptyScheme => "scheme must be a non-empty string"
  | .unknownCreateMode n => "unknown create mode: " ++ Decimal.ofInt n.toInt
  | .emptyAcls => "acls must be a non-empty list"
  | .dataTooLarge n => "data must be equal or smaller than 1048576 bytes, got " ++ Decimal.ofNat n
  | .fieldExpects r f t => "field " ++ r ++ "." ++ f ++ " expects " ++ t.typeName
  | .fieldNotOfKind r f k => "field " ++ r ++ "." ++ f ++ " is not of type " ++ k
  | .noSuchField r f => "record " ++ r ++ " has no field named " ++ f

/-- The message of a protocol fault. -/
def ProtocolFault.message : ProtocolFault → String
  | .unknownOpCode n => "unknown op code: " ++ Decimal.ofInt n.toInt
  | .unknownExceptionCode n => "unknown exception code: " ++ Decimal.ofInt n.toInt
  | .unknownEventType n => "unknown event type: " ++ Decimal.ofInt n.toInt
  | .unknownSessionState n => "unknown session state: " ++ Decimal.ofInt n.toInt
  | .unknownRecordClass m n => "unknown record class: " ++ m ++ "." ++ n
  | .unexpectedOp op => "unexpected op " ++ op.name ++ " in transaction"
  | .notificationXid x => "expected notification xid -1, got " ++ Decimal.ofInt x.toInt
  | .expectedRecord got => "expected a record payload, got " ++ got
  | .expectedTransaction got => "expected a transaction payload, got " ++ got
  | .negativeFrameLength n => "negative frame length: " ++ Decimal.ofInt n.toInt
  | .frameTooLong n m => "frame length " ++ Decimal.ofNat n ++ " exceeds maximum " ++ Decimal.ofNat m
  | .noScriptedReply => "no scripted reply"
  | .scripted => "scripted"

/-- The message of a wire fault. -/
def WireFault.message : WireFault → String
  | .shortInput n r =>
    "insufficient data: need " ++ Decimal.ofNat n ++ " bytes, have " ++ Decimal.ofNat r
  | .badLength n => "invalid length prefix: " ++ Decimal.ofInt n.toInt
  | .badUtf8 e => "invalid UTF-8 string: " ++ e.message
  | .noRoom n r =>
    "buffer does not have enough space: need " ++ Decimal.ofNat n ++ " bytes, have " ++
      Decimal.ofNat r
  | .recordNoRoom => "buffer does not have enough space"
  | .offsetOutOfRange o => "offset: " ++ Decimal.ofNat o ++ " is out of buffer range"
  | .mismatch v t => "value " ++ v.debug ++ " does not match field type " ++ t.typeName
  | .notChildName v => "expected child name, got " ++ v.debug
  | .notAcl v => "expected data.ACL record, got " ++ v.debug

/-- The message of an error. -/
def Error.message : Error → String
  | .invalidArgument f => "invalid argument: " ++ f.message
  | .exception e => e.display
  | .transactionFailed e _ => "transaction failed: " ++ e.display
  | .protocol f => "protocol error: " ++ f.message
  | .serialization f => "serialization error: " ++ f.message

namespace Error

/-- The error for a code that the server sent: the exception for a known code, a protocol
error for an unknown one. -/
def ofCode (code : Int32) (path : Option String) : Error :=
  match ExceptionCode.ofValue? code with
  | some c => .exception ⟨c, path⟩
  | none => .protocol (.unknownExceptionCode code)

/-- The exception code an error carries, if it carries one. -/
def code? : Error → Option ExceptionCode
  | .exception e => some e.code
  | .transactionFailed e _ => some e.code
  | _ => none

/-- Whether an error reports a lost connection. -/
def isConnectionLoss : Error → Bool
  | .exception e => e.code == .connectionLoss
  | _ => false

end Error

/-- The exception code with a given value, or a protocol error. -/
def ExceptionCode.ofValue (v : Int32) : Except Error ExceptionCode :=
  match ExceptionCode.ofValue? v with
  | some c => .ok c
  | none => .error (.protocol (.unknownExceptionCode v))

/-- The operation with a given code, or a protocol error. -/
def OpCode.ofValue (v : Int32) : Except Error OpCode :=
  match OpCode.ofValue? v with
  | some op => .ok op
  | none => .error (.protocol (.unknownOpCode v))

/-- The creation mode with a given code, or an invalid argument. -/
def CreateMode.ofValue (v : Int32) : Except Error CreateMode :=
  match CreateMode.ofValue? v with
  | some m => .ok m
  | none => .error (.invalidArgument (.unknownCreateMode v))

/-- The event kind with a given code, or a protocol error. -/
def EventType.ofValue (v : Int32) : Except Error EventType :=
  match EventType.ofValue? v with
  | some t => .ok t
  | none => .error (.protocol (.unknownEventType v))

/-- The identity with a given scheme and id, or an invalid argument for an empty scheme. -/
def Id.new (scheme id : String) : Except Error Id :=
  match Id.new? scheme id with
  | some i => .ok i
  | none => .error (.invalidArgument .emptyScheme)

/-- The entry granting `perms` to `id`, or an invalid argument for permissions outside
`1 ..= 31`. -/
def Acl.new (perms : Int32) (id : Id) : Except Error Acl :=
  match Acl.new? perms id with
  | some a => .ok a
  | none => .error (.invalidArgument (.permission perms))

/-- The first rule of node paths that `p` breaks, as an invalid argument. -/
def Path.validate (p : String) : Except Error Unit :=
  match Path.check p with
  | .ok () => .ok ()
  | .error f => .error (.invalidArgument (.invalidPath p f))

end Ensemble
