import Ensemble.Proofs.RecordCodec
import Ensemble.Node.Records

/-! # Codes and node values read back

Every operation, creation mode and exception code is found again from its value on the wire
(`OpCode.ofValue_value`, `CreateMode.ofValue_value`, `ExceptionCode.ofValue_value`). Identities,
access control entries and metadata, written as records, are read back as they were:

* an identity, whose scheme is never empty, passes `Id.new` again (`Id.ofRecord_toValue`);
* an entry, whose permissions lie in `1 ..= 31`, passes `Acl.new` again
  (`Acl.ofRecord_toValue`), and a list of entries comes back in order
  (`Acl.ofVector_toVector`);
* metadata comes back field for field, the 64-bit fields through their eight bytes
  (`Stat.ofRecord_toRecord`).

Each of these values is admitted by its record class (`Acl.admits_toVector`,
`Stat.admits_toValue`), and none holds a record with a chroot (`Acl.plain_toVector`,
`Stat.plain_toValue`).
-/

namespace Ensemble

theorem OpCode.ofValue_value (op : OpCode) : OpCode.ofValue op.value = .ok op := by
  cases op <;> rfl

theorem CreateMode.ofValue_value (m : CreateMode) : CreateMode.ofValue m.value = .ok m := by
  cases m <;> rfl

theorem ExceptionCode.ofValue_value (c : ExceptionCode) :
    ExceptionCode.ofValue c.value = .ok c := by
  cases c <;> rfl

theorem Long.toInt64_ofInt64 (x : Int64) : (Long.ofInt64 x).toInt64 = x :=
  BigEndian.toInt64_ofInt64 x

/-! ### Access control entries -/

theorem Id.ofRecord_toValue (i : Id) :
    Id.ofRecord ⟨Catalog.id, [.ustring (some i.scheme), .ustring (some i.id)], none⟩
      = .ok i := by
  show Id.new i.scheme i.id = .ok i
  rw [Id.new, Id.new?, dif_neg i.scheme_ne]

theorem Acl.ofRecord_toValue (a : Acl) :
    Acl.ofRecord ⟨Catalog.acl, [.int a.perms, a.id.toValue], none⟩ = .ok a := by
  -- the permissions and the identity's record are read by position; only `Id.new` and
  -- `Acl.new` are left to check
  show (Id.ofRecord ⟨Catalog.id, [.ustring (some a.id.scheme), .ustring (some a.id.id)], none⟩
    >>= fun id => Acl.new a.perms id) = .ok a
  rw [Id.ofRecord_toValue]
  show Acl.new a.perms a.id = .ok a
  rw [Acl.new, Acl.new?, dif_pos ⟨a.perms_pos, a.perms_le⟩]

theorem Acl.ofVector_toVector (acls : List Acl) :
    Acl.ofVector (some (acls.map Acl.toValue)) = .ok acls := by
  induction acls with
  | nil => rfl
  | cons a acls ih =>
    simp only [Acl.ofVector, Option.getD_some, List.map_cons, List.mapM_cons] at ih ⊢
    rw [ih]
    show (Acl.ofRecord ⟨Catalog.acl, [.int a.perms, a.id.toValue], none⟩ >>= _) = _
    rw [Acl.ofRecord_toValue]
    rfl

theorem Acl.admits_toValue (a : Acl) : (FieldType.record Catalog.acl).Admits a.toValue :=
  ⟨rfl, trivial, ⟨rfl, trivial, trivial, trivial⟩, trivial⟩

theorem Acl.admits_toVector (acls : List Acl) : Catalog.aclVector.Admits (Acl.toVector acls) := by
  induction acls with
  | nil => trivial
  | cons a acls ih => exact ⟨a.admits_toValue, ih⟩

/-- An entry holds no record with a chroot. -/
theorem Acl.plain_toVector (acls : List Acl) : (Acl.toVector acls).Plain := by
  induction acls with
  | nil => trivial
  | cons a acls ih => exact ⟨⟨rfl, trivial, ⟨rfl, trivial, trivial, trivial⟩, trivial⟩, ih⟩

/-! ### Metadata -/

theorem Stat.admits_toValue (s : Stat) : (FieldType.record Catalog.stat).Admits s.toValue :=
  ⟨rfl, trivial, trivial, trivial, trivial, trivial, trivial, trivial, trivial, trivial, trivial,
    trivial, trivial⟩

/-- Metadata holds no record with a chroot, and no length prefix at all. -/
theorem Stat.plain_toValue (s : Stat) : s.toValue.Plain :=
  ⟨rfl, trivial, trivial, trivial, trivial, trivial, trivial, trivial, trivial, trivial, trivial,
    trivial, trivial⟩

theorem Stat.bounded_toValue (s : Stat) : s.toValue.Bounded :=
  ⟨trivial, trivial, trivial, trivial, trivial, trivial, trivial, trivial, trivial, trivial,
    trivial, trivial⟩

theorem Stat.ofRecord_toRecord (s : Stat) : Stat.ofRecord s.toRecord = .ok s := by
  -- every field is read by position, so what is left is each word through its bytes
  show Except.ok (Stat.mk _ _ _ _ _ _ _ _ _ _ _) = _
  simp only [Long.toInt64_ofInt64]

end Ensemble
