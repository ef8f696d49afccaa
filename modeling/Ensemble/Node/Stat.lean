/-! # Node metadata

A node's metadata: the transaction ids that created and last modified it and that last changed
its children, the creation and modification times in milliseconds, the versions of its data,
children and access list, the session that owns it if it is ephemeral, the length of its data
and its number of children. Ids, times and the owner are 64-bit words, the rest 32-bit words.
-/

namespace Ensemble

/-- A node's metadata. -/
structure Stat where
  czxid : Int64 := 0
  mzxid : Int64 := 0
  ctime : Int64 := 0
  mtime : Int64 := 0
  version : Int32 := 0
  cversion : Int32 := 0
  aversion : Int32 := 0
  ephemeralOwner : Int64 := 0
  dataLength : Int32 := 0
  numChildren : Int32 := 0
  pzxid : Int64 := 0
  deriving DecidableEq, Repr

end Ensemble
