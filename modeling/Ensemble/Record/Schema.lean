/-! # Record schemas

A record class names its module and itself and lists its fields in wire order. A field's wire
type is a primitive (`int`, `long`, `buffer`, `ustring`, `boolean`), a vector of some wire type,
or a record class. Types and classes are defined together because a class is made of fields and
a field can hold a record of another class.

A type has a schema name: the primitives by their keyword, a vector as `vector<T>`, a record by
its qualified class name `module.Name`.
-/

namespace Ensemble

mutual

/-- The wire type of a record field. -/
inductive FieldType where
  | int
  | long
  | buffer
  | ustring
  | boolean
  | vector (element : FieldType)
  | record (schema : Schema)

/-- A record class: its module, its name, and its fields in wire order. -/
inductive Schema where
  | mk (module name : String) (fields : List Field)

/-- A field of a record class: its name and wire type. -/
inductive Field where
  | mk (name : String) (type : FieldType)

end

namespace Field

/-- The name of a field. -/
def name : Field → String
  | .mk n _ => n

/-- The wire type of a field. -/
def type : Field → FieldType
  | .mk _ t => t

end Field

namespace Schema

/-- The module a record class belongs to. -/
def module : Schema → String
  | .mk m _ _ => m

/-- The name of a record class. -/
def name : Schema → String
  | .mk _ n _ => n

/-- The fields of a record class, in wire order. -/
def fields : Schema → List Field
  | .mk _ _ fs => fs

/-- The qualified class name, `module.Name`. -/
def qualified (s : Schema) : String :=
  s.module ++ "." ++ s.name

/-- Two classes are the same class when module and name agree. -/
def same (s t : Schema) : Bool :=
  s.module == t.module && s.name == t.name

/-- The position of the field called `n`. -/
def index? (s : Schema) (n : String) : Option Nat :=
  s.fields.findIdx? (·.name == n)

end Schema

/-- The schema name of a wire type: `int`, `vector<ustring>`, `data.Stat`, ... -/
def FieldType.typeName : FieldType → String
  | .int => "int"
  | .long => "long"
  | .buffer => "buffer"
  | .ustring => "ustring"
  | .boolean => "boolean"
  | .vector e => "vector<" ++ e.typeName ++ ">"
  | .record s => s.qualified

end Ensemble
