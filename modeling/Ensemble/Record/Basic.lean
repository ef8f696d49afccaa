import Ensemble.Record.Codec

/-! # Records

A record is a value of a record class: one value per field, in field order, together with the
chroot under which the client sees the server's tree, if any.

`set` replaces a field's value when the field's type accepts it; the getters read a field of a
given kind. Both name the field, and fail when the class has no field of that name.

The chroot rewrites paths on the way out and back. Written, a string field named `path`, and
each string item of the watch lists, get the chroot in front (`outgoing`); the stored values
stay as they are. Read back, a `path` field equal to the chroot becomes `/`, one that starts with
the chroot loses it, and any other stays.

`serialize` writes a record into a buffer at an offset and `deserializeInto` reads one into the
record; both refuse an offset at or past the end of the buffer, and `serialize` refuses a record
that does not fit. Reading replaces the fields one by one, so a read that fails midway leaves the
record with the fields before the failure replaced; `deserialize` is what a successful read
gives.
-/

namespace Ensemble

/-- A value of a record class, with the chroot its paths are seen under. -/
structure Record where
  schema : Schema
  values : List Value
  chroot : Option String := none

/-- A path as the client sees it under a chroot: `/` for the chroot itself, the rest after the
chroot when the path starts with it, and the path unchanged otherwise. -/
def stripChroot (chroot path : String) : String :=
  if path = chroot then "/"
  else if chroot.toList.isPrefixOf path.toList then String.ofList (path.toList.drop chroot.length)
  else path

namespace Record

/-- A new record of a class: every field holds its type's default. -/
def new (s : Schema) : Record := ⟨s, s.defaults, none⟩

/-- The record with its chroot set; an empty chroot clears it. -/
def setChroot (r : Record) (c : Option String) : Record :=
  { r with chroot := c.filter (· ≠ "") }

/-- The error for a field that the record's class lacks. -/
def noSuchField (r : Record) (name : String) : Error :=
  .invalidArgument (.noSuchField r.schema.qualified name)

/-- The position of the named field. -/
def indexOf (r : Record) (name : String) : Except Error Nat :=
  match r.schema.index? name with
  | some i => .ok i
  | none => .error (r.noSuchField name)

/-- The value of the named field. -/
def get (r : Record) (name : String) : Except Error Value := do
  let i ← r.indexOf name
  match r.values[i]? with
  | some v => pure v
  | none => throw (r.noSuchField name)

/-- The record with the named field replaced by `v`, when the field's type accepts `v`. -/
def set (r : Record) (name : String) (v : Value) : Except Error Record := do
  let i ← r.indexOf name
  match r.schema.fields[i]? with
  | none => throw (r.noSuchField name)
  | some f =>
    if f.type.accepts v then pure { r with values := r.values.set i v }
    else throw (.invalidArgument (.fieldExpects r.schema.name name f.type))

/-- The error for a field of another kind than asked. -/
def wrongKind (r : Record) (name kind : String) : Error :=
  .invalidArgument (.fieldNotOfKind r.schema.name name kind)

/-- The named `int` field. -/
def getInt (r : Record) (name : String) : Except Error Int32 := do
  match ← r.get name with
  | .int x => pure x
  | _ => throw (r.wrongKind name "int")

/-- The named `long` field. -/
def getLong (r : Record) (name : String) : Except Error Long := do
  match ← r.get name with
  | .long x => pure x
  | _ => throw (r.wrongKind name "long")

/-- The named `long` field as a signed 64-bit word. -/
def getInt64 (r : Record) (name : String) : Except Error Int64 :=
  Long.toInt64 <$> r.getLong name

/-- The named `buffer` field. -/
def getBuffer (r : Record) (name : String) : Except Error (Option (List UInt8)) := do
  match ← r.get name with
  | .buffer b => pure b
  | _ => throw (r.wrongKind name "buffer")

/-- The named `ustring` field. -/
def getUString (r : Record) (name : String) : Except Error (Option String) := do
  match ← r.get name with
  | .ustring s => pure s
  | _ => throw (r.wrongKind name "ustring")

/-- The named `boolean` field. -/
def getBool (r : Record) (name : String) : Except Error Bool := do
  match ← r.get name with
  | .boolean b => pure b
  | _ => throw (r.wrongKind name "boolean")

/-- The named `vector` field. -/
def getVector (r : Record) (name : String) : Except Error (Option (List Value)) := do
  match ← r.get name with
  | .vector items => pure items
  | _ => throw (r.wrongKind name "vector")

/-- The named record field, with its chroot. -/
def getRecord (r : Record) (name : String) : Except Error Record := do
  match ← r.get name with
  | .record s vs c => pure ⟨s, vs, c⟩
  | _ => throw (r.wrongKind name "record")

/-- The record as a field value, with its chroot. -/
def toValue (r : Record) : Value := .record r.schema r.values r.chroot

/-- The values as they are written: rewritten under the chroot, if there is one. -/
def outgoing (r : Record) : List Value :=
  match r.chroot with
  | none => r.values
  | some c => (r.schema.fields.zip r.values).map fun (f, v) => outgoingValue c f.name v

/-- The number of bytes the record takes on the wire, with the chroot applied. -/
def byteLength (r : Record) : Except Error Nat :=
  FieldType.fieldsLength r.chroot r.schema.fields r.values

/-- Writes the record's fields, with the chroot applied. -/
def put (r : Record) : Writer Unit :=
  FieldType.putFields r.chroot r.schema.fields r.values

/-- The record with its `path` field seen from under its chroot. -/
def strip (r : Record) : Record :=
  match r.chroot, r.schema.index? pathField with
  | some c, some i =>
    match r.values[i]? with
    | some (.ustring (some p)) => { r with values := r.values.set i (.ustring (some (stripChroot c p))) }
    | _ => r
  | _, _ => r

/-- Reads the fields of the record's class into the record, in order, each read replacing the
value at its position: the record after the reads, and the input left or the error of the read
that failed. A failed read leaves the fields before it replaced and the others as they were. -/
def readFields (r : Record) (bs : List UInt8) : Record × Except Error (List UInt8) :=
  let after := FieldType.readInto r.schema.fields r.values bs
  ({ r with values := after.1 }, after.2)

/-- Reads the fields of the record's class into the record; the chroot is kept. The reader gives
no record when a read fails: the callers give the record up then. -/
def getFields (r : Record) : Reader Record := fun bs =>
  match r.readFields bs with
  | (r', .ok rest) => .ok (r', rest)
  | (_, .error e) => .error e

/-- Writes the record into `buf` at `offset`: the number of bytes written and the buffer after
the write. -/
def serialize (r : Record) (buf : List UInt8) (offset : Nat) : Except Error (Nat × List UInt8) :=
  if buf.length ≤ offset then .error (outOfRange offset)
  else do
    let size ← r.byteLength
    if buf.length < offset + size then throw (.serialization .recordNoRoom)
    let out ← Writer.run r.put size
    pure (out.length, splice buf offset out)

/-- Reads the record's fields from `buf` at `offset` into the record and strips the chroot from
its path: the number of bytes read, and the record after the call. An offset at or past the end
of the buffer leaves the record as it was; a read that fails midway leaves the fields before the
failure replaced, and nothing stripped. -/
def deserializeInto (r : Record) (buf : List UInt8) (offset : Nat) : Except Error Nat × Record :=
  if buf.length ≤ offset then (.error (outOfRange offset), r)
  else
    match r.readFields (buf.drop offset) with
    | (r', .ok rest) => (.ok ((buf.drop offset).length - rest.length), r'.strip)
    | (r', .error e) => (.error e, r')

/-- What a successful `deserializeInto` gives: the record read, its path stripped of the chroot,
and the number of bytes read. -/
def deserialize (r : Record) (buf : List UInt8) (offset : Nat) : Except Error (Record × Nat) :=
  match r.deserializeInto buf offset with
  | (.ok n, r') => .ok (r', n)
  | (.error e, _) => .error e

end Record

end Ensemble
