import Ensemble.Record.Schema
import Ensemble.Wire.BigEndian
import Ensemble.Text.Escaped
import Ensemble.Text.Decimal

/-! # Field values

A field holds a value of one of seven kinds. An `int` is a signed 32-bit word; a `long` is an
opaque block of eight bytes, most significant first, that the wire copies as it is; a buffer,
a string and a vector may be absent, which is not the same as empty; a record value carries its
class, one value per field and the chroot under which its paths are written.

`FieldType.accepts` says which values a field of a type may store: the kinds must agree, an
absent vector fits every vector type, the items of a present vector must each fit the element
type, and a record must be of the field's class. `FieldType.default` is what a new record holds:
zero, eight zero bytes, absent, false, or a default record.

`Value.debug` is the text by which messages show a value, such as `Int(5)`,
`UString(Some("x"))` or `Record(Id { scheme: UString(None), id: UString(None) })`; a record's
text leaves out its chroot.
-/

namespace Ensemble

/-- A `long` value: eight bytes, most significant first. -/
structure Long where
  bytes : List UInt8
  length_bytes : bytes.length = 8

namespace Long

/-- Eight zero bytes. -/
def zero : Long := ⟨List.replicate 8 0, rfl⟩

/-- The eight bytes of `n % 2 ^ 64`. -/
def ofNat (n : Nat) : Long := ⟨BigEndian.digits 8 n, BigEndian.length_digits 8 n⟩

/-- The two's complement bytes of a signed 64-bit word. -/
def ofInt64 (x : Int64) : Long := ⟨BigEndian.ofInt64 x, BigEndian.length_ofInt64 x⟩

/-- The signed 64-bit word that the bytes stand for. -/
def toInt64 (l : Long) : Int64 := BigEndian.toInt64 l.bytes

/-- The unsigned number that the bytes stand for. -/
def toNat (l : Long) : Nat := BigEndian.value l.bytes

end Long

/-- The value of a record field. -/
inductive Value where
  | int (v : Int32)
  | long (v : Long)
  | buffer (bytes : Option (List UInt8))
  | ustring (text : Option String)
  | boolean (b : Bool)
  | vector (items : Option (List Value))
  | record (schema : Schema) (values : List Value) (chroot : Option String)

mutual

/-- The value a new record holds in a field of this type. -/
def FieldType.default : FieldType → Value
  | .int => .int 0
  | .long => .long Long.zero
  | .buffer => .buffer none
  | .ustring => .ustring none
  | .boolean => .boolean false
  | .vector _ => .vector none
  | .record s => .record s (Schema.defaults s) none

/-- The values a new record of this class holds, in field order. -/
def Schema.defaults : Schema → List Value
  | .mk _ _ fs => Field.defaults fs

/-- The default values of a list of fields. -/
def Field.defaults : List Field → List Value
  | [] => []
  | .mk _ t :: fs => t.default :: Field.defaults fs

end

mutual

/-- Whether a field of this type may store `v`. -/
def FieldType.accepts : FieldType → Value → Bool
  | .int, .int _ => true
  | .long, .long _ => true
  | .buffer, .buffer _ => true
  | .ustring, .ustring _ => true
  | .boolean, .boolean _ => true
  | .vector _, .vector none => true
  | .vector e, .vector (some items) => FieldType.acceptsAll e items
  | .record s, .record t _ _ => s.same t
  | _, _ => false

/-- Whether a field of this type may store each of `items`. -/
def FieldType.acceptsAll (e : FieldType) : List Value → Bool
  | [] => true
  | v :: vs => e.accepts v && FieldType.acceptsAll e vs

end

/-- Items separated by a comma and a space, between brackets. -/
def Value.bracketed (items : List String) : String :=
  "[" ++ ", ".intercalate items ++ "]"

mutual

/-- The text by which messages show a value. -/
def Value.debug : Value → String
  | .int v => "Int(" ++ Decimal.ofInt v.toInt ++ ")"
  | .long v => "Long(" ++ Value.bracketed (v.bytes.map fun b => Decimal.ofNat b.toNat) ++ ")"
  | .buffer none => "Buffer(None)"
  | .buffer (some bs) => "Buffer(Some(" ++ Escaped.bytes bs ++ "))"
  | .ustring none => "UString(None)"
  | .ustring (some s) => "UString(Some(" ++ Escaped.string s ++ "))"
  | .boolean b => "Boolean(" ++ (if b then "true" else "false") ++ ")"
  | .vector none => "Vector(None)"
  | .vector (some items) => "Vector(Some(" ++ Value.bracketed (Value.debugList items) ++ "))"
  | .record s vs _ => "Record(" ++ Value.debugRecord s.name (s.fields.map Field.name) vs ++ ")"

/-- The texts of a list of values. -/
def Value.debugList : List Value → List String
  | [] => []
  | v :: vs => v.debug :: Value.debugList vs

/-- A record as its class name followed by its fields between braces. -/
def Value.debugRecord (name : String) (names : List String) (vs : List Value) : String :=
  let parts := Value.debugFields names vs
  if parts.isEmpty then name else name ++ " \x7b " ++ ", ".intercalate parts ++ " \x7d"

/-- Each field as `name: value`. -/
def Value.debugFields : List String → List Value → List String
  | n :: ns, v :: vs => (n ++ ": " ++ v.debug) :: Value.debugFields ns vs
  | _, _ => []

end

end Ensemble
