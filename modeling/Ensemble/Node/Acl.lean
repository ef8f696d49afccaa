/-! # Access control lists

An identity is a scheme, such as `world`, `auth`, `digest` or `ip`, with an id within it; the
scheme is never empty. An access control entry grants an identity a set of permissions: the bits
read `1`, write `2`, create `4`, delete `8` and admin `16`, at least one of them. Both rules are
part of the types, so every entry in hand is valid.
-/

namespace Ensemble

/-- An identity: a non-empty scheme and an id within it. -/
structure Id where
  scheme : String
  id : String
  scheme_ne : scheme ≠ ""
  deriving DecidableEq

/-- An access control entry: a non-empty set of permissions granted to an identity. -/
structure Acl where
  perms : Int32
  id : Id
  perms_pos : 1 ≤ perms.toInt
  perms_le : perms.toInt ≤ 31
  deriving DecidableEq

namespace Id

/-- The identity with a given scheme and id, unless the scheme is empty. -/
def new? (scheme id : String) : Option Id :=
  if h : scheme = "" then none else some ⟨scheme, id, h⟩

/-- Everyone: `world:anyone`. -/
def anyone : Id := ⟨"world", "anyone", by decide⟩

/-- Whoever the session has authenticated as: `auth:`. -/
def authenticated : Id := ⟨"auth", "", by decide⟩

/-- An identity shown as `scheme:id`. -/
def display (i : Id) : String := i.scheme ++ ":" ++ i.id

end Id

namespace Acl

/-- Every permission: read, write, create, delete and admin. -/
def allPerms : Int32 := 31

/-- The entry granting `perms` to `id`, unless `perms` lies outside `1 ..= 31`. -/
def new? (perms : Int32) (id : Id) : Option Acl :=
  if h : 1 ≤ perms.toInt ∧ perms.toInt ≤ 31 then some ⟨perms, id, h.1, h.2⟩ else none

/-- Everyone may do everything. -/
def openUnsafe : List Acl := [⟨31, Id.anyone, by decide, by decide⟩]

/-- The creator may do everything. -/
def creatorAll : List Acl := [⟨31, Id.authenticated, by decide, by decide⟩]

/-- Everyone may read. -/
def readUnsafe : List Acl := [⟨1, Id.anyone, by decide, by decide⟩]

end Acl

end Ensemble
