import Ensemble.Wire.Reader
import Ensemble.Wire.Writer

/-! # The field codec

A value is measured, written and read against a wire type. An `int` takes four bytes, a `long`
eight, a `boolean` one; a buffer or string its length prefix and its bytes; a vector its count
prefix and its items one after another, `-1` alone when absent; a record its fields in the
order of its class. A value whose kind does not match the type is refused by measuring and
writing (`value … does not match field type …`). Measuring and writing follow the class that a
record value carries, not the one that the type names.

A record's fields go out under its chroot, when it has one: a string field named `path`, and
each string item of the watch lists `dataWatches`, `existWatches` and `childWatches`, get the
chroot in front (`/` becomes the chroot itself). This holds for a record in a field as for any
other, under the nested record's own chroot; the values it stores stay as they are.

Reading follows the type alone: it reads a vector's count, then items until one fails, and
a record of the type's class field by field, without chroot.

`write` and `read` place the codec at an offset into a buffer. Both refuse an offset past the
end of the buffer; writing changes only the bytes it writes.
-/

namespace Ensemble

/-- The error for a value that does not match a wire type. -/
def mismatch (v : Value) (t : FieldType) : Error :=
  .serialization (.mismatch v t)

/-! ### The chroot on the way out -/

/-- The name of the field whose string is rewritten under a chroot. -/
def pathField : String := "path"

/-- The vector fields whose string items are rewritten under a chroot. -/
def watchFields : List String := ["dataWatches", "existWatches", "childWatches"]

/-- A path as the server sees it under a chroot: the chroot itself for `/`, otherwise the chroot
followed by the path. -/
def prependChroot (chroot path : String) : String :=
  if path = "/" then chroot else chroot ++ path

/-- An item of a watch list as it is written under the chroot `c`: a present string gets the
chroot in front. -/
def Record.watchItem (c : String) : Value → Value
  | .ustring (some p) => .ustring (some (prependChroot c p))
  | other => other

/-- A value as it is written under the chroot `c`, for the field called `name`. -/
def Record.outgoingValue (c : String) (name : String) : Value → Value
  | .ustring (some p) => if name = pathField then .ustring (some (prependChroot c p))
    else .ustring (some p)
  | .vector (some items) =>
    if name ∈ watchFields then .vector (some (items.map (Record.watchItem c)))
    else .vector (some items)
  | v => v

/-! ### Measuring -/

/-- The number of bytes a string takes as a value of type `t`. -/
def FieldType.stringLength (t : FieldType) (s : Option String) : Except Error Nat :=
  match t with
  | .ustring => .ok (4 + (s.map String.utf8ByteSize).getD 0)
  | _ => .error (mismatch (.ustring s) t)

mutual

/-- The number of bytes `v` takes as a value of type `t`. -/
def FieldType.byteLength (t : FieldType) : Value → Except Error Nat
  | .int x => match t with
    | .int => .ok 4
    | _ => .error (mismatch (.int x) t)
  | .long x => match t with
    | .long => .ok 8
    | _ => .error (mismatch (.long x) t)
  | .buffer b => match t with
    | .buffer => .ok (4 + (b.map List.length).getD 0)
    | _ => .error (mismatch (.buffer b) t)
  | .ustring s => t.stringLength s
  | .boolean b => match t with
    | .boolean => .ok 1
    | _ => .error (mismatch (.boolean b) t)
  | .vector none => match t with
    | .vector _ => .ok 4
    | _ => .error (mismatch (.vector none) t)
  | .vector (some items) => match t with
    | .vector e => (4 + ·) <$> FieldType.itemsLength e none items
    | _ => .error (mismatch (.vector (some items)) t)
  | .record s vs c => match t with
    | .record _ => FieldType.fieldsLength c s.fields vs
    | _ => .error (mismatch (.record s vs c) t)

/-- The number of bytes of the items of a vector of element type `e`; under `some c` they are
the items of a watch list under the chroot `c`, whose strings go out with the chroot in front. -/
def FieldType.itemsLength (e : FieldType) (c : Option String) : List Value → Except Error Nat
  | [] => .ok 0
  | v :: vs => do
    let n ← (match c, v with
      | some root, .ustring (some p) => e.stringLength (some (prependChroot root p))
      | _, v => e.byteLength v)
    let m ← FieldType.itemsLength e c vs
    pure (n + m)

/-- The number of bytes of a record's values under its chroot `c`, field by field, each as it
goes out (`Record.outgoingValue`). -/
def FieldType.fieldsLength (c : Option String) : List Field → List Value → Except Error Nat
  | f :: fs, v :: vs => do
    let n ← (match c, v with
      | some root, .ustring (some p) =>
        f.type.stringLength (some (if f.name = pathField then prependChroot root p else p))
      | some root, .vector (some items) => match f.type with
        | .vector e =>
          (4 + ·) <$> FieldType.itemsLength e (if f.name ∈ watchFields then some root else none)
            items
        | t => .error (mismatch (Record.outgoingValue root f.name (.vector (some items))) t)
      | _, v => f.type.byteLength v)
    let m ← FieldType.fieldsLength c fs vs
    pure (n + m)
  | _, _ => .ok 0

end

/-! ### Writing -/

/-- Writes a string as a value of type `t`. -/
def FieldType.putString (t : FieldType) (s : Option String) : Writer Unit :=
  match t with
  | .ustring => Writer.ustring s
  | _ => throw (mismatch (.ustring s) t)

mutual

/-- Writes `v` as a value of type `t`. -/
def FieldType.put (t : FieldType) : Value → Writer Unit
  | .int x => match t with
    | .int => Writer.int x
    | _ => throw (mismatch (.int x) t)
  | .long x => match t with
    | .long => Writer.long x
    | _ => throw (mismatch (.long x) t)
  | .buffer b => match t with
    | .buffer => Writer.buffer b
    | _ => throw (mismatch (.buffer b) t)
  | .ustring s => t.putString s
  | .boolean b => match t with
    | .boolean => Writer.bool b
    | _ => throw (mismatch (.boolean b) t)
  | .vector none => match t with
    | .vector _ => Writer.int (-1)
    | _ => throw (mismatch (.vector none) t)
  | .vector (some items) => match t with
    | .vector e => do
      Writer.int (Int32.ofNat items.length)
      FieldType.putItems e none items
    | _ => throw (mismatch (.vector (some items)) t)
  | .record s vs c => match t with
    | .record _ => FieldType.putFields c s.fields vs
    | _ => throw (mismatch (.record s vs c) t)

/-- Writes the items of a vector of element type `e`; under `some c` they are the items of a
watch list under the chroot `c`, whose strings go out with the chroot in front. -/
def FieldType.putItems (e : FieldType) (c : Option String) : List Value → Writer Unit
  | [] => pure ()
  | v :: vs => do
    (match c, v with
      | some root, .ustring (some p) => e.putString (some (prependChroot root p))
      | _, v => e.put v)
    FieldType.putItems e c vs

/-- Writes a record's values under its chroot `c`, field by field, each as it goes out
(`Record.outgoingValue`). -/
def FieldType.putFields (c : Option String) : List Field → List Value → Writer Unit
  | f :: fs, v :: vs => do
    (match c, v with
      | some root, .ustring (some p) =>
        f.type.putString (some (if f.name = pathField then prependChroot root p else p))
      | some root, .vector (some items) => match f.type with
        | .vector e => do
          Writer.int (Int32.ofNat items.length)
          FieldType.putItems e (if f.name ∈ watchFields then some root else none) items
        | t => throw (mismatch (Record.outgoingValue root f.name (.vector (some items))) t)
      | _, v => f.type.put v)
    FieldType.putFields c fs vs
  | _, _ => pure ()

end

/-! ### Reading -/

mutual

/-- Reads a value of type `t`. -/
def FieldType.get : FieldType → Reader Value
  | .int => .int <$> Reader.int
  | .long => .long <$> Reader.long
  | .buffer => .buffer <$> Reader.buffer
  | .ustring => .ustring <$> Reader.ustring
  | .boolean => .boolean <$> Reader.bool
  | .vector e => do
    match ← Reader.length with
    | none => pure (.vector none)
    | some n => (.vector ∘ some) <$> Reader.times (FieldType.get e) n
  | .record (.mk m n fs) => (fun vs => .record (.mk m n fs) vs none) <$> FieldType.getFields fs

/-- Reads the values of a record's fields, in order. -/
def FieldType.getFields : List Field → Reader (List Value)
  | [] => pure []
  | .mk _ t :: fs => do
    let v ← t.get
    let vs ← FieldType.getFields fs
    pure (v :: vs)

end

/-- Reads the values of a record's fields in order into `vs`, each read replacing the value at
its position: the values after the reads, and the input left or the error of the read that
failed. A failed read leaves the values before it replaced and the others as they were; reads
that all succeed leave exactly the values read, one per field. -/
def FieldType.readInto :
    List Field → List Value → List UInt8 → List Value × Except Error (List UInt8)
  | [], _, bs => ([], .ok bs)
  | .mk _ t :: fs, vs, bs =>
    match t.get bs with
    | .error e => (vs, .error e)
    | .ok (v, rest) =>
      let after := FieldType.readInto fs vs.tail rest
      (v :: after.1, after.2)

/-! ### At an offset into a buffer -/

/-- The error for an offset past the end of a buffer. -/
def outOfRange (offset : Nat) : Error :=
  .serialization (.offsetOutOfRange offset)

/-- The buffer `buf` with the bytes from `offset` on replaced by `bs`, as far as `bs` reaches. -/
def splice (buf : List UInt8) (offset : Nat) (bs : List UInt8) : List UInt8 :=
  buf.take offset ++ bs ++ buf.drop (offset + bs.length)

/-- Writes `v` as type `t` into `buf` at `offset`: the number of bytes written and the buffer
after the write. -/
def FieldType.write (t : FieldType) (v : Value) (buf : List UInt8) (offset : Nat) :
    Except Error (Nat × List UInt8) :=
  if buf.length < offset then .error (outOfRange offset)
  else do
    let out ← Writer.run (t.put v) (buf.length - offset)
    pure (out.length, splice buf offset out)

/-- Reads a value of type `t` from `buf` at `offset`, with the number of bytes read. -/
def FieldType.read (t : FieldType) (buf : List UInt8) (offset : Nat) :
    Except Error (Value × Nat) :=
  if buf.length < offset then .error (outOfRange offset)
  else Reader.runCounting t.get (buf.drop offset)

end Ensemble
