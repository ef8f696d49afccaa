import Ensemble.Catalog

/-! # Node values as records

Identities, access control entries and node metadata travel as records of the classes
`data.Id`, `data.ACL` and `data.Stat`. Reading an identity back takes an absent scheme or id as
empty, and goes through `Id.new`, so an empty scheme is refused; an entry goes through
`Acl.new` after its identity, so of the two faults the scheme is reported. A list of entries
travels as a vector of `data.ACL` records; an absent vector is the empty list, and an item that
is not a record is refused. Metadata converts field for field, the ids and times through their
eight bytes.
-/

namespace Ensemble

namespace Id

/-- An identity as a `data.Id` record. -/
def toValue (i : Id) : Value :=
  .record Catalog.id [.ustring (some i.scheme), .ustring (some i.id)] none

/-- The identity of a record, through `Id.new`. -/
def ofRecord (r : Record) : Except Error Id := do
  let scheme ← r.getUString "scheme"
  let id ← r.getUString "id"
  Id.new (scheme.getD "") (id.getD "")

end Id

namespace Acl

/-- An entry as a `data.ACL` record. -/
def toValue (a : Acl) : Value :=
  .record Catalog.acl [.int a.perms, a.id.toValue] none

/-- The entry of a record: its permissions, its identity, then `Acl.new`. -/
def ofRecord (r : Record) : Except Error Acl := do
  let perms ← r.getInt "perms"
  let idRecord ← r.getRecord "id"
  let id ← Id.ofRecord idRecord
  Acl.new perms id

/-- A list of entries as a vector of records. -/
def toVector (acls : List Acl) : Value :=
  .vector (some (acls.map toValue))

/-- The entries of a vector of records; an absent vector holds none. -/
def ofVector (items : Option (List Value)) : Except Error (List Acl) :=
  (items.getD []).mapM fun
    | .record s vs c => ofRecord ⟨s, vs, c⟩
    | other => .error (.serialization (.notAcl other))

end Acl

namespace Stat

/-- Metadata as a `data.Stat` record. -/
def toValue (s : Stat) : Value :=
  .record Catalog.stat
    [.long (Long.ofInt64 s.czxid), .long (Long.ofInt64 s.mzxid), .long (Long.ofInt64 s.ctime),
      .long (Long.ofInt64 s.mtime), .int s.version, .int s.cversion, .int s.aversion,
      .long (Long.ofInt64 s.ephemeralOwner), .int s.dataLength, .int s.numChildren,
      .long (Long.ofInt64 s.pzxid)] none

/-- Metadata as a record of class `data.Stat`. -/
def toRecord (s : Stat) : Record :=
  ⟨Catalog.stat, match s.toValue with
    | .record _ vs _ => vs
    | _ => [], none⟩

/-- The metadata of a record, field by field. -/
def ofRecord (r : Record) : Except Error Stat := do
  let czxid ← r.getInt64 "czxid"
  let mzxid ← r.getInt64 "mzxid"
  let ctime ← r.getInt64 "ctime"
  let mtime ← r.getInt64 "mtime"
  let version ← r.getInt "version"
  let cversion ← r.getInt "cversion"
  let aversion ← r.getInt "aversion"
  let ephemeralOwner ← r.getInt64 "ephemeralOwner"
  let dataLength ← r.getInt "dataLength"
  let numChildren ← r.getInt "numChildren"
  let pzxid ← r.getInt64 "pzxid"
  pure ⟨czxid, mzxid, ctime, mtime, version, cversion, aversion, ephemeralOwner, dataLength,
    numChildren, pzxid⟩

end Stat

end Ensemble
