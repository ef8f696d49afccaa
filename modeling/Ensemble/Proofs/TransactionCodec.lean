import Ensemble.Proofs.NodeCodec
import Ensemble.Transaction.Codec

/-! # The transaction codec

A transaction request travels as a header and a request record per operation, then the
terminator. Reading stops at the terminator, in at most one round per byte.

Under a chroot an operation sends its path with the chroot in front (`sentPath`); the empty
chroot is none. `Op.mapPath` applies such a change to an operation's path and leaves the rest
alone.

* `readLoop_encode`: a loop that reads one item's records per round and stops at the terminator
  takes back every item written before the terminator; replies are read the same way;
* `Transaction.serialize_round_trip`: serializing a request succeeds exactly when the offset
  lies in the buffer and the bytes fit, and reading them back gives the operations with their
  paths as sent.

Reading back needs every length that the operations, as sent, carry on the wire to be below
`2 ^ 31`: a length prefix is a signed 32-bit word, and data of `2 ^ 31` bytes goes out with the
prefix `-2 ^ 31`, which reading refuses (`Transaction.deserialize_wrapped_data`).
-/

namespace Ensemble

/-- A path as an operation sends it under a chroot; the empty chroot is none. -/
def sentPath (c : Option String) (p : String) : String :=
  match c.filter (· ≠ "") with
  | some c => prependChroot c p
  | none => p

/-- The operation with its path changed by `f`. -/
def Op.mapPath (f : String → String) : Op → Op
  | .create p d acls m => .create (f p) d acls m
  | .delete p v => .delete (f p) v
  | .setData p d v => .setData (f p) d v
  | .check p v => .check (f p) v

/-! ### Headers -/

theorem multiHeader_encode (t : Int32) (d : Bool) (e : Int32) :
    (multiHeader t d e).encode
      = .ok (BigEndian.ofInt32 t ++ [if d then 1 else 0] ++ BigEndian.ofInt32 e) := rfl

theorem terminator_encode :
    terminator.encode = .ok (BigEndian.ofInt32 (-1) ++ [1] ++ BigEndian.ofInt32 (-1)) := rfl

theorem multiHeader_admitted (t : Int32) (d : Bool) (e : Int32) : (multiHeader t d e).Admitted :=
  ⟨trivial, trivial, trivial, trivial⟩

/-- The bytes of a header that does not close the list, followed by one record. -/
theorem encodeAll_header {t e : Int32} {body : List Record} {bs : List UInt8}
    (h : Record.encodeAll (multiHeader t false e :: body) = .ok bs) :
    ∃ b, Record.encodeAll body = .ok b ∧
      bs = BigEndian.ofInt32 t ++ [0] ++ BigEndian.ofInt32 e ++ b := by
  obtain ⟨bh, b, hbh, hb, rfl⟩ := Record.encodeAll_cons_ok h
  rw [multiHeader_encode, if_neg Bool.false_ne_true] at hbh
  cases hbh
  exact ⟨b, hb, rfl⟩

/-- The bytes of a header that does not close the list, followed by a single record. -/
theorem encodeAll_header_body {t e : Int32} {body : Record} {bs : List UInt8}
    (h : Record.encodeAll [multiHeader t false e, body] = .ok bs) :
    ∃ b, body.encode = .ok b ∧ bs = BigEndian.ofInt32 t ++ [0] ++ BigEndian.ofInt32 e ++ b := by
  obtain ⟨b, hb, rfl⟩ := encodeAll_header h
  exact ⟨b, Record.encodeAll_singleton_ok hb, rfl⟩

/-- A header takes nine bytes. -/
theorem length_header (t e : Int32) (b : List UInt8) :
    (BigEndian.ofInt32 t ++ [0] ++ BigEndian.ofInt32 e ++ b).length = b.length + 9 := by
  simp only [List.length_append, BigEndian.length_ofInt32, List.length_singleton]
  omega

/-- Records that start with a header take at least its nine bytes. -/
theorem length_pos_of_header {t e : Int32} {body : List Record} {bs : List UInt8}
    (h : Record.encodeAll (multiHeader t false e :: body) = .ok bs) : 0 < bs.length := by
  obtain ⟨b, _, rfl⟩ := encodeAll_header h
  rw [length_header]
  omega

theorem readHeader_bytes (t : Int32) (d : Bool) (e : Int32) (rest : List UInt8) :
    readHeader (BigEndian.ofInt32 t ++ [if d then 1 else 0] ++ BigEndian.ofInt32 e ++ rest) =
      if d then .ok (none, rest) else (fun op => (some op, rest)) <$> OpCode.ofValue t := by
  have hr := Record.getFields_encode (r := multiHeader t d e)
    (q := Record.new Catalog.multiHeader) rfl
    ⟨trivial, trivial, trivial, trivial⟩ ⟨trivial, trivial, trivial, trivial⟩
    (multiHeader_encode t d e) rest
  show ((Record.new Catalog.multiHeader).getFields >>= fun r => _) _ = _
  rw [Reader.bind_ok hr]
  cases d
  · show (some <$> (liftM (OpCode.ofValue t) : Reader OpCode)) rest = _
    cases OpCode.ofValue t <;> rfl
  · rfl

theorem readHeader_op (op : OpCode) (e : Int32) (rest : List UInt8) :
    readHeader (BigEndian.ofInt32 op.value ++ [0] ++ BigEndian.ofInt32 e ++ rest)
      = .ok (some op, rest) := by
  have h := readHeader_bytes op.value false e rest
  rw [OpCode.ofValue_value] at h
  exact h

theorem readHeader_done (t e : Int32) (rest : List UInt8) :
    readHeader (BigEndian.ofInt32 t ++ [1] ++ BigEndian.ofInt32 e ++ rest) = .ok (none, rest) :=
  readHeader_bytes t true e rest

/-! ### Reading until the terminator -/

/-- A loop that stops at the terminator and otherwise reads one item's records per round takes
back, from the front of any byte list, the items written before the terminator, given a round
per byte, when each item reads back (`B`, the lengths it carries fitting their prefixes). Each
item's records start with a header, so the rounds suffice. -/
theorem readLoop_encode {α β : Type} (recs : α → List Record) (g : α → β) (B : α → Prop)
    (loop : Nat → List β → Reader (List β))
    (hdone : ∀ fuel acc rest, loop (fuel + 1) acc
      (BigEndian.ofInt32 (-1) ++ [1] ++ BigEndian.ofInt32 (-1) ++ rest) = .ok (acc.reverse, rest))
    (hstep : ∀ a, B a → ∀ bs, Record.encodeAll (recs a) = .ok bs →
      ∀ fuel acc rest, loop (fuel + 1) acc (bs ++ rest) = loop fuel (g a :: acc) rest)
    (hne : ∀ a bs, Record.encodeAll (recs a) = .ok bs → 0 < bs.length) :
    ∀ (items : List α) (acc : List β) (fuel : Nat) {bs : List UInt8}, (∀ a ∈ items, B a) →
      Record.encodeAll (items.flatMap recs ++ [terminator]) = .ok bs →
      bs.length < fuel → ∀ rest,
        loop fuel acc (bs ++ rest) = .ok (acc.reverse ++ items.map g, rest)
  | [], acc, fuel, bs, _, h, hfuel, rest => by
    rw [List.flatMap_nil, List.nil_append] at h
    obtain ⟨b, e, hb, he, rfl⟩ := Record.encodeAll_cons_ok h
    rw [terminator_encode] at hb
    rw [Record.encodeAll_nil] at he
    cases hb
    cases he
    obtain ⟨fuel, rfl⟩ : ∃ f, fuel = f + 1 := ⟨fuel - 1, by omega⟩
    rw [List.append_nil, hdone, List.map_nil, List.append_nil]
  | a :: items, acc, fuel, bs, hB, h, hfuel, rest => by
    rw [List.flatMap_cons, List.append_assoc] at h
    obtain ⟨b, c, hb, hc, rfl⟩ := Record.encodeAll_append_ok h
    have hpos := hne a b hb
    obtain ⟨fuel, rfl⟩ : ∃ f, fuel = f + 1 := ⟨fuel - 1, by omega⟩
    rw [List.length_append] at hfuel
    rw [List.append_assoc, hstep a (hB a List.mem_cons_self) b hb,
      readLoop_encode recs g B loop hdone hstep hne items _ fuel
        (fun a ha => hB a (List.mem_cons_of_mem _ ha)) hc (by omega) rest]
    simp

/-! ### Operations -/

namespace Op

theorem schemaOf_opCode (op : Op) : Op.schemaOf op.opCode = .ok op.toRecord.schema := by
  cases op <;> rfl

/-- A set-data operation's record goes out as its path, its data and its version. -/
theorem encode_setData (p : String) (d : Option (List UInt8)) (v : Int32) :
    ((Op.setData p d v).toRecord.setChroot none).encode = .ok
      (Writer.bufferBytes ((some p).map Utf8.encode) ++
        (Writer.bufferBytes d ++ (BigEndian.ofInt32 v ++ []))) :=
  rfl

theorem ofRecord_toRecord (op : Op) : Op.ofRecord op.opCode op.toRecord = .ok op := by
  cases op with
  | create p d acls m =>
    -- path, data and flags are read by position; the entries and the mode are decoded
    show (Acl.ofVector (some (acls.map Acl.toValue)) >>= fun acls =>
      CreateMode.ofValue m.value >>= fun mode => pure (Op.create p d acls mode)) = _
    rw [Acl.ofVector_toVector, CreateMode.ofValue_value]
    rfl
  | delete p v => rfl
  | setData p d v => rfl
  | check p v => rfl

@[simp] theorem opCode_mapPath (f : String → String) (op : Op) :
    (op.mapPath f).opCode = op.opCode := by
  cases op <;> rfl

theorem admitted_toRecord (op : Op) : op.toRecord.Admitted := by
  cases op with
  | create p d acls m => exact ⟨trivial, trivial, Acl.admits_toVector acls, trivial, trivial⟩
  | delete p v => exact ⟨trivial, trivial, trivial⟩
  | setData p d v => exact ⟨trivial, trivial, trivial, trivial⟩
  | check p v => exact ⟨trivial, trivial, trivial⟩

theorem solid_toRecord (op : Op) : op.toRecord.schema.solid := by
  cases op <;> rfl

/-- Written under a chroot, an operation's record holds the values of the operation with its
path as sent. -/
theorem outgoing_setChroot (op : Op) (c : Option String) :
    (op.toRecord.setChroot c).outgoing = (op.mapPath (sentPath c)).toRecord.values := by
  unfold sentPath
  cases hc : c.filter (· ≠ "") with
  | none =>
    simp only [Record.setChroot, Record.outgoing, hc]
    cases op <;> rfl
  | some c' =>
    -- only the `path` field is rewritten: `acl` is not a watch list
    simp only [Record.setChroot, Record.outgoing, hc]
    cases op <;> simp [Op.mapPath, Op.toRecord, Record.outgoingValue, pathField, watchFields,
      Catalog.createRequest, Catalog.proto, Catalog.deleteRequest, Catalog.setDataRequest,
      Catalog.checkVersionRequest, Schema.fields, Field.name, Acl.toVector]

/-- An operation's record holds no record with a chroot. -/
theorem plain_toRecord (op : Op) : Value.AllPlain op.toRecord.values := by
  cases op with
  | create p d acls m => exact ⟨trivial, trivial, Acl.plain_toVector acls, trivial, trivial⟩
  | delete p v => exact ⟨trivial, trivial, trivial⟩
  | setData p d v => exact ⟨trivial, trivial, trivial, trivial⟩
  | check p v => exact ⟨trivial, trivial, trivial⟩

/-- Under a chroot, an operation's record carries on the wire the values of the operation with
its path as sent. -/
theorem sentValues_setChroot (op : Op) (c : Option String) :
    (op.toRecord.setChroot c).sentValues = (op.mapPath (sentPath c)).toRecord.values := by
  have ha : ((op.mapPath (sentPath c)).toRecord).Admitted := admitted_toRecord _
  rw [Record.sentValues_eq (r := op.toRecord.setChroot c) (admitted_toRecord op).length_eq,
    outgoing_setChroot,
    Value.map_sent_of_plain ha (plain_toRecord _)]

/-- Reading an operation's header and record gives the operation with its path as sent, when
every length it carries on the wire is below `2 ^ 31`. -/
theorem readOps_step (op : Op) (c : Option String)
    (hb : Value.AllBounded (op.mapPath (sentPath c)).toRecord.values) {bs : List UInt8}
    (h : (op.toRecord.setChroot c).encode = .ok bs)
    (fuel : Nat) (acc : List Op) (rest : List UInt8) :
    readOps (fuel + 1) acc
        (BigEndian.ofInt32 op.opCode.value ++ [0] ++ BigEndian.ofInt32 (-1) ++ (bs ++ rest))
      = readOps fuel (op.mapPath (sentPath c) :: acc) rest := by
  have ha : (op.toRecord.setChroot c).Admitted := op.admitted_toRecord
  have hrec := Record.getFields_encode (r := op.toRecord.setChroot c)
    (q := Record.new op.toRecord.schema) rfl ha
    (by rw [sentValues_setChroot]; exact hb) h rest
  have hread : { Record.new op.toRecord.schema with values := (op.toRecord.setChroot c).sentValues }
      = (op.mapPath (sentPath c)).toRecord := by
    rw [sentValues_setChroot]
    cases op <;> rfl
  rw [hread] at hrec
  show (readHeader >>= fun x => _) _ = _
  rw [Reader.bind_ok (readHeader_op op.opCode (-1) (bs ++ rest))]
  show ((liftM (Op.schemaOf op.opCode) : Reader Schema) >>= fun s => _) _ = _
  rw [schemaOf_opCode, Reader.bind_ok (Reader.lift_ok _ _), Reader.bind_ok hrec]
  show ((liftM (Op.ofRecord op.opCode _) : Reader Op) >>= fun o => _) _ = _
  rw [← opCode_mapPath (sentPath c), ofRecord_toRecord]
  rfl

/-- Reading stops at an operation whose record does not read, with the record's error. -/
theorem readOps_error (op : Op) {rest : List UInt8} {e : Error}
    (h : (Record.new op.toRecord.schema).getFields rest = .error e) (fuel : Nat) (acc : List Op) :
    readOps (fuel + 1) acc
        (BigEndian.ofInt32 op.opCode.value ++ [0] ++ BigEndian.ofInt32 (-1) ++ rest) = .error e := by
  show (readHeader >>= fun x => _) _ = _
  rw [Reader.bind_ok (readHeader_op op.opCode (-1) rest)]
  show ((liftM (Op.schemaOf op.opCode) : Reader Schema) >>= fun s => _) _ = _
  rw [schemaOf_opCode, Reader.bind_ok (Reader.lift_ok _ _), Reader.bind_error h]

end Op

/-- Reading operations takes back, from the front of any byte list, the operations of a
transaction, each with its path as sent, given a round per byte and every length below
`2 ^ 31`. -/
theorem readOps_encode (c : Option String) (ops acc : List Op) (fuel : Nat) {bs : List UInt8}
    (hb : ∀ op ∈ ops, Value.AllBounded (op.mapPath (sentPath c)).toRecord.values)
    (h : Record.encodeAll (⟨ops, c⟩ : Transaction).records = .ok bs)
    (hfuel : bs.length < fuel) (rest : List UInt8) :
    readOps fuel acc (bs ++ rest)
      = .ok (acc.reverse ++ ops.map (Op.mapPath (sentPath c)), rest) := by
  refine readLoop_encode _ _ _ readOps (fun fuel acc rest => ?_) (fun op hop bs h => ?_)
    (fun op bs h => ?_) ops acc fuel hb h hfuel rest
  · show (readHeader >>= fun x => _) _ = _
    rw [Reader.bind_ok (readHeader_done (-1) (-1) rest)]
    rfl
  · obtain ⟨b, hb, rfl⟩ := encodeAll_header_body h
    intro fuel acc rest
    rw [List.append_assoc, Op.readOps_step op c hop hb]
  · exact length_pos_of_header h

/-! ### Transaction requests -/

namespace Transaction

theorem admitted_records (t : Transaction) : ∀ r ∈ t.records, r.Admitted := by
  intro r hr
  simp only [records, List.mem_append, List.mem_flatMap, List.mem_cons,
    List.not_mem_nil, or_false] at hr
  rcases hr with ⟨op, _, rfl | rfl⟩ | rfl
  · exact multiHeader_admitted _ _ _
  · exact op.admitted_toRecord
  · exact multiHeader_admitted _ _ _

theorem byteLength_of_encode {t : Transaction} {bs : List UInt8}
    (h : Record.encodeAll t.records = .ok bs) : t.byteLength = .ok bs.length := by
  rw [byteLength, Record.foldlM_byteLength h, Nat.zero_add]

theorem run_put_of_encode {t : Transaction} {bs : List UInt8}
    (h : Record.encodeAll t.records = .ok bs) : Writer.run t.put bs.length = .ok bs := by
  have hy := Record.forM_put_yields t.records
  rw [h] at hy
  exact hy.run_ok (Nat.le_refl _)

/-- Serializing a transaction: out of range, no room, or its bytes written at the offset. -/
theorem serialize_of_encode {t : Transaction} {bs : List UInt8}
    (h : Record.encodeAll t.records = .ok bs) (buf : List UInt8) (off : Nat) :
    t.serialize buf off =
      if buf.length ≤ off then .error (outOfRange off)
      else if buf.length < off + bs.length then .error (.serialization .recordNoRoom)
      else .ok (bs.length, splice buf off bs) := by
  unfold serialize
  by_cases hoff : buf.length ≤ off
  · rw [if_pos hoff, if_pos hoff]
  · rw [if_neg hoff, if_neg hoff, byteLength_of_encode h]
    show (if buf.length < off + bs.length then _ else _) = _
    by_cases hroom : buf.length < off + bs.length
    · rw [if_pos hroom, if_pos hroom]
      rfl
    · rw [if_neg hroom, if_neg hroom, run_put_of_encode h]
      rfl

/-- Serializing a transaction succeeds exactly when the offset lies in the buffer and its bytes
fit after it. -/
theorem serialize_ok_iff {t : Transaction} {bs : List UInt8}
    (h : Record.encodeAll t.records = .ok bs) (buf : List UInt8) (off : Nat) :
    (∃ w, t.serialize buf off = .ok w) ↔ off < buf.length ∧ off + bs.length ≤ buf.length := by
  rw [serialize_of_encode h]
  constructor
  · rintro ⟨w, hw⟩
    have hoff : off < buf.length := by
      refine Nat.lt_of_not_le fun hle => ?_
      rw [if_pos hle] at hw
      cases hw
    refine ⟨hoff, Nat.le_of_not_lt fun hlt => ?_⟩
    rw [if_neg (by omega), if_pos hlt] at hw
    cases hw
  · rintro ⟨hoff, hroom⟩
    rw [if_neg (by omega), if_neg (by omega)]
    exact ⟨_, rfl⟩

/-- A transaction of fewer than `2 ^ 31` bytes carries every length below `2 ^ 31`: each
operation's record is written within them, and its class is solid. -/
theorem bounded_of_encode {t : Transaction} {bs : List UInt8}
    (h : Record.encodeAll t.records = .ok bs) (hlen : bs.length < Nat.pow 2 31) :
    ∀ op ∈ t.ops, Value.AllBounded (op.mapPath (sentPath t.chroot)).toRecord.values := by
  intro op hop
  have hmem : op.toRecord.setChroot t.chroot ∈ t.records := by
    simp only [records, List.mem_append, List.mem_flatMap, List.mem_cons, List.not_mem_nil,
      or_false]
    exact Or.inl ⟨op, hop, Or.inr rfl⟩
  obtain ⟨b, hb, hle⟩ := Record.encode_of_mem_encodeAll h hmem
  rw [← Op.sentValues_setChroot]
  exact Record.sent_bounded op.solid_toRecord op.admitted_toRecord hb (by omega)

theorem deserialize_of_drop {t : Transaction} {bs rest buf : List UInt8} {off : Nat}
    (hb : ∀ op ∈ t.ops, Value.AllBounded (op.mapPath (sentPath t.chroot)).toRecord.values)
    (h : Record.encodeAll t.records = .ok bs) (hdrop : buf.drop off = bs ++ rest) :
    deserialize buf off
      = .ok (⟨t.ops.map (Op.mapPath (sentPath t.chroot)), none⟩, bs.length) := by
  obtain ⟨ops, c⟩ := t
  have hread := readOps_encode c ops [] ((bs ++ rest).length + 1) hb h
    (by simp only [List.length_append]; omega) rest
  rw [deserialize, hdrop, Reader.runCounting_append hread]
  rfl

theorem deserialize_splice {t : Transaction} {bs : List UInt8}
    (hb : ∀ op ∈ t.ops, Value.AllBounded (op.mapPath (sentPath t.chroot)).toRecord.values)
    (h : Record.encodeAll t.records = .ok bs)
    {buf : List UInt8} {off : Nat} (hroom : off + bs.length ≤ buf.length) :
    deserialize (splice buf off bs) off
      = .ok (⟨t.ops.map (Op.mapPath (sentPath t.chroot)), none⟩, bs.length) :=
  deserialize_of_drop hb h (drop_splice (by omega))

/-- Reading a transaction fails where reading its first operation's record fails. -/
theorem deserialize_error {op : Op} {rest : List UInt8} {e : Error}
    (h : (Record.new op.toRecord.schema).getFields rest = .error e) :
    deserialize (BigEndian.ofInt32 op.opCode.value ++ [0] ++ BigEndian.ofInt32 (-1) ++ rest) 0
      = .error e := by
  rw [deserialize, List.drop_zero]
  unfold Reader.runCounting
  rw [op.readOps_error h]
  rfl

end Transaction

/-- **The transaction codec.** A transaction is written as a header and a record per operation,
the record under the transaction's chroot, then the terminator. Serializing succeeds exactly when
the offset lies inside the buffer and these bytes fit after it; it then writes them there and
returns their number, the transaction's length. Reading at that offset, when every length that
the operations as sent carry on the wire (each path under the chroot, data, entry count,
scheme and identity) is below `2 ^ 31`, gives back the operations in order with each path as
sent under the chroot and all else unchanged, and counts the same bytes. -/
theorem Transaction.serialize_round_trip (ops : List Op) (c : Option String) :
    ∃ bs : List UInt8,
      Record.encodeAll (ops.flatMap (fun op =>
          [multiHeader op.opCode.value false (-1), op.toRecord.setChroot c]) ++ [terminator])
        = .ok bs ∧
      (⟨ops, c⟩ : Transaction).byteLength = .ok bs.length ∧
      ∀ (buf : List UInt8) (off : Nat),
        ((∃ w, (⟨ops, c⟩ : Transaction).serialize buf off = .ok w) ↔
          off < buf.length ∧ off + bs.length ≤ buf.length) ∧
        (off < buf.length → off + bs.length ≤ buf.length →
          (⟨ops, c⟩ : Transaction).serialize buf off = .ok (bs.length, splice buf off bs) ∧
          ((∀ op ∈ ops, Value.AllBounded (op.mapPath (sentPath c)).toRecord.values) →
            Transaction.deserialize (splice buf off bs) off
              = .ok (⟨ops.map (Op.mapPath (sentPath c)), none⟩, bs.length))) := by
  obtain ⟨bs, h⟩ := Record.encodeAll_ok (Transaction.admitted_records ⟨ops, c⟩)
  refine ⟨bs, h, Transaction.byteLength_of_encode h, fun buf off =>
    ⟨Transaction.serialize_ok_iff h buf off, fun hoff hroom =>
      ⟨?_, fun hb => Transaction.deserialize_splice hb h hroom⟩⟩⟩
  rw [Transaction.serialize_of_encode h, if_neg (by omega), if_neg (by omega)]

/-- The transaction codec on a check under the chroot `/app`, in a buffer of forty bytes. -/
theorem Transaction.serialize_round_trip_check :
    ∃ bs : List UInt8, bs.length = 32 ∧
      (⟨[.check "/a" 3], some "/app"⟩ : Transaction).serialize (List.replicate 40 0) 2
        = .ok (32, splice (List.replicate 40 0) 2 bs) ∧
      Transaction.deserialize (splice (List.replicate 40 0) 2 bs) 2
        = .ok (⟨[.check "/app/a" 3], none⟩, 32) := by
  obtain ⟨bs, -, hlen, h⟩ := Transaction.serialize_round_trip [.check "/a" 3] (some "/app")
  have h32 : bs.length = 32 := by
    have hb : (⟨[.check "/a" 3], some "/app"⟩ : Transaction).byteLength = .ok 32 := rfl
    rw [hb] at hlen
    exact (Except.ok.inj hlen).symm
  obtain ⟨hser, hde⟩ := (h (List.replicate 40 0) 2).2 (by decide) (by rw [h32]; decide)
  refine ⟨bs, h32, h32 ▸ hser, ?_⟩
  -- the check goes out with the path `/app/a` and its version
  have hb : ∀ op ∈ [Op.check "/a" 3],
      Value.AllBounded (op.mapPath (sentPath (some "/app"))).toRecord.values := by
    intro op hop
    rw [List.mem_singleton.mp hop]
    exact ⟨show _ < _ by decide, trivial, trivial⟩
  rw [hde hb, h32]
  rfl

/-- Data of `2 ^ 31` bytes goes out with the length prefix `-2 ^ 31`, which reading refuses: a
transaction that sets such data is written, and its bytes do not read back. -/
theorem Transaction.deserialize_wrapped_data :
    ∃ bs : List UInt8,
      (⟨[.setData "/a" (some (List.replicate (Nat.pow 2 31) 0)) 0], none⟩ : Transaction).serialize
          bs 0 = .ok (bs.length, bs) ∧
      Transaction.deserialize bs 0 = .error (.serialization (.badLength (-2147483648))) := by
  let op : Op := .setData "/a" (some (List.replicate (Nat.pow 2 31) 0)) 0
  obtain ⟨bs, h⟩ := Record.encodeAll_ok (Transaction.admitted_records ⟨[op], none⟩)
  -- the bytes are the header, the operation's record and the terminator
  have h' : Record.encodeAll
      [multiHeader op.opCode.value false (-1), op.toRecord.setChroot none, terminator] = .ok bs := h
  obtain ⟨b, hb, hbs⟩ := encodeAll_header h'
  obtain ⟨b₁, b₂, h₁, -, rfl⟩ := Record.encodeAll_cons_ok hb
  rw [Op.encode_setData] at h₁
  cases h₁
  refine ⟨bs, ?_, ?_⟩
  · have hpos : 0 < bs.length := by rw [hbs, length_header]; omega
    rw [Transaction.serialize_of_encode h, if_neg (by omega), if_neg (by omega)]
    simp [splice]
  · -- the path reads back; the data's prefix is refused
    have hpath : FieldType.ustring.get (Writer.bufferBytes ((some "/a").map Utf8.encode) ++
        (Writer.bufferBytes (some (List.replicate (Nat.pow 2 31) 0)) ++ (BigEndian.ofInt32 0 ++ [])
          ++ b₂)) = .ok (.ustring (some "/a"), _) :=
      Reader.map_ok (Reader.ustring_bytes (by rintro t ⟨⟩; decide) _)
    have hdata := FieldType.get_buffer_wrapped
      (List.length_replicate (n := Nat.pow 2 31) (a := (0 : UInt8))) ((BigEndian.ofInt32 0 ++ []) ++ b₂)
    have hread : (Record.new op.toRecord.schema).getFields (Writer.bufferBytes ((some "/a").map
        Utf8.encode) ++ (Writer.bufferBytes (some (List.replicate (Nat.pow 2 31) 0)) ++
          (BigEndian.ofInt32 0 ++ [])) ++ b₂) = .error (.serialization (.badLength (-2147483648))) := by
      refine Record.getFields_error ?_
      rw [List.append_assoc, show (Record.new op.toRecord.schema).schema.fields =
        [.mk "path" .ustring, .mk "data" .buffer, .mk "version" .int] from rfl,
        FieldType.getFields_cons_ok hpath, Reader.bind_error (FieldType.getFields_cons_error ?_)]
      rw [List.append_assoc]
      exact hdata
    rw [hbs, Transaction.deserialize_error hread]

end Ensemble
