import Ensemble.Proofs.TransactionCodec
import Ensemble.Envelope.Request

/-! # Request frames

A request is framed as its length in four bytes, then its header (its `xid` and its operation's
code) and its body. The body fits the operation (`RequestPayload.Fits`): a record of the
operation's request class, a transaction for `multi`, or nothing. `RequestPayload.encode` is the
body's bytes, with the chroot the request hands it; `RequestPayload.sentUnder` is the body as it
is read back: each path as sent under the chroot and no chroot.

* `Request.toBytes_of_encode`: the frame is the length, the header and the body;
* `Request.decode_eq`: decoding reads the header, then the body that the operation calls for;
* `Request.frame_round_trip`: a request made under any chroot is framed as its measured length
  and its bytes, appended as they are, and read back with its `xid`, its operation and its body
  as sent.

The empty chroot and `/` are no chroot at all for a request, and its body never holds the empty
chroot (`filter_requestChroot`).
-/

namespace Ensemble

namespace RequestPayload

/-- A body fits an operation: for an operation with a request class other than `multi`, a
record of that class holding an admitted value per field; for `multi`, a transaction; for any
other operation, nothing. -/
def Fits (op : OpCode) : RequestPayload → Prop
  | .empty => op ≠ .multi ∧ Catalog.requestSchema? op = none
  | .record rec => op ≠ .multi ∧ Catalog.requestSchema? op = some rec.schema ∧ rec.Admitted
  | .transaction _ => op = .multi

/-- The bytes of a body on the wire. -/
def encode : RequestPayload → Except Error (List UInt8)
  | .empty => .ok []
  | .record rec => rec.encode
  | .transaction t => Record.encodeAll t.records

/-- A body as it is read back after being sent under the chroot `c`: a record with its values
as the wire carries them under `c`, a transaction with each path as sent, and no chroot. -/
def sentUnder (c : Option String) : RequestPayload → RequestPayload
  | .empty => .empty
  | .record rec => .record ⟨rec.schema, { rec with chroot := c }.sentValues, none⟩
  | .transaction t => .transaction ⟨t.ops.map (Op.mapPath (sentPath c)), none⟩

end RequestPayload

namespace Request

theorem header_encode (r : Request) :
    r.header.encode = .ok (BigEndian.ofInt32 r.xid ++ BigEndian.ofInt32 r.op.value) := rfl

/-- A request measures its eight header bytes and its body. -/
theorem byteLength_of_encode {r : Request} {pb : List UInt8} (h : r.payload.encode = .ok pb) :
    r.byteLength = .ok (BigEndian.ofInt32 r.xid ++ BigEndian.ofInt32 r.op.value ++ pb).length := by
  rw [List.length_append, List.length_append, BigEndian.length_ofInt32, BigEndian.length_ofInt32]
  obtain ⟨x, op, p, ch⟩ := r
  cases p with
  | empty =>
    cases h
    rfl
  | record rec =>
    have hl : rec.byteLength = .ok pb.length := by
      rw [Record.byteLength_eq, show rec.encode = .ok pb from h]
      rfl
    show (rec.byteLength >>= fun body => _) = _
    rw [hl]
    rfl
  | transaction t =>
    show (t.byteLength >>= fun body => _) = _
    rw [Transaction.byteLength_of_encode h]
    rfl

theorem putBody_yields (r : Request) :
    Writer.Yields r.putBody
      ((BigEndian.ofInt32 r.xid ++ BigEndian.ofInt32 r.op.value ++ ·) <$> r.payload.encode) := by
  obtain ⟨x, op, p, ch⟩ := r
  have hh := Record.put_yields ⟨Catalog.requestHeader, [.int x, .int op.value], none⟩
  cases p with
  | empty => exact Writer.Yields.bind hh Writer.yields_pure
  | record rec => exact Writer.Yields.bind hh rec.put_yields
  | transaction t => exact Writer.Yields.bind hh (Record.forM_put_yields t.records)

/-- The frame of a request: its length, its header and its body. -/
theorem toBytes_of_encode {r : Request} {pb : List UInt8} (h : r.payload.encode = .ok pb) :
    r.toBytes = .ok (BigEndian.digits 4
        (BigEndian.ofInt32 r.xid ++ BigEndian.ofInt32 r.op.value ++ pb).length ++
      (BigEndian.ofInt32 r.xid ++ BigEndian.ofInt32 r.op.value ++ pb)) := by
  have hy := Writer.Yields.bind
    (Writer.yields_int
      (Int32.ofNat (BigEndian.ofInt32 r.xid ++ BigEndian.ofInt32 r.op.value ++ pb).length))
    r.putBody_yields
  rw [h] at hy
  rw [toBytes, byteLength_of_encode h]
  show Writer.run _ (4 + _) = _
  rw [hy.run_ok (by simp only [List.length_append, BigEndian.length_ofInt32]; omega),
    BigEndian.ofInt32_ofNat]

theorem deserialize_header (x : Int32) (op : OpCode) (pb : List UInt8) :
    (Record.new Catalog.requestHeader).deserialize
        (BigEndian.ofInt32 x ++ BigEndian.ofInt32 op.value ++ pb) 0
      = .ok (⟨Catalog.requestHeader, [.int x, .int op.value], none⟩, 8) :=
  Record.deserialize_encode (r := ⟨Catalog.requestHeader, [.int x, .int op.value], none⟩)
    (q := Record.new Catalog.requestHeader) rfl
    ⟨trivial, trivial, trivial⟩ ⟨trivial, trivial, trivial⟩ rfl (by simp) rfl

/-- Decoding a frame reads the header, then the body that the operation calls for: a
transaction for `multi`, a record of its request class when it has one, and nothing
otherwise. -/
theorem decode_eq {x : Int32} {op : OpCode} {pb : List UInt8} {q : RequestPayload}
    (hmulti : op = .multi → ∃ t n, Transaction.deserialize
      (BigEndian.ofInt32 x ++ BigEndian.ofInt32 op.value ++ pb) 8 = .ok (t, n) ∧
        q = .transaction t)
    (hrec : op ≠ .multi → ∀ s, Catalog.requestSchema? op = some s → ∃ rec n,
      (Record.new s).deserialize (BigEndian.ofInt32 x ++ BigEndian.ofInt32 op.value ++ pb) 8
        = .ok (rec, n) ∧ q = .record rec)
    (hempty : op ≠ .multi → Catalog.requestSchema? op = none → q = .empty) :
    decode (BigEndian.ofInt32 x ++ BigEndian.ofInt32 op.value ++ pb)
      = .ok { xid := x, op := op, payload := q } := by
  -- the header's fields are read by position
  have hx : (⟨Catalog.requestHeader, [.int x, .int op.value], none⟩ : Record).getInt "xid"
      = .ok x := rfl
  have ht : (⟨Catalog.requestHeader, [.int x, .int op.value], none⟩ : Record).getInt "type"
      = .ok op.value := rfl
  rw [decode, deserialize_header]
  simp only [bind, Except.bind]
  rw [hx, ht]
  simp only
  rw [OpCode.ofValue_value]
  simp only
  split
  · obtain ⟨t, n, ht, rfl⟩ := hmulti rfl
    rw [ht]
    rfl
  · rename_i s hm hs
    obtain ⟨rec, n, hr, rfl⟩ := hrec hm s hs
    rw [hr]
    rfl
  · rename_i hm hs
    rw [hempty hm hs]
    rfl

/-- Decoding a frame fails where reading the record of the operation's request class fails. -/
theorem decode_record_error {x : Int32} {op : OpCode} {pb : List UInt8} {s : Schema} {e : Error}
    (hm : op ≠ .multi) (hs : Catalog.requestSchema? op = some s)
    (h : (Record.new s).deserialize (BigEndian.ofInt32 x ++ BigEndian.ofInt32 op.value ++ pb) 8
      = .error e) :
    decode (BigEndian.ofInt32 x ++ BigEndian.ofInt32 op.value ++ pb) = .error e := by
  have hx : (⟨Catalog.requestHeader, [.int x, .int op.value], none⟩ : Record).getInt "xid"
      = .ok x := rfl
  have ht : (⟨Catalog.requestHeader, [.int x, .int op.value], none⟩ : Record).getInt "type"
      = .ok op.value := rfl
  rw [decode, deserialize_header]
  simp only [bind, Except.bind]
  rw [hx, ht]
  simp only
  rw [OpCode.ofValue_value]
  simp only
  split
  · exact absurd rfl hm
  · rename_i s' _ hs'
    rw [hs] at hs'
    cases hs'
    rw [h]
  · rename_i _ hs'
    rw [hs] at hs'
    cases hs'

theorem encodeInto_of_encode {r : Request} {pb : List UInt8} (h : r.payload.encode = .ok pb)
    (dst : List UInt8) :
    r.encodeInto dst = .ok (dst ++ (BigEndian.digits 4
        (BigEndian.ofInt32 r.xid ++ BigEndian.ofInt32 r.op.value ++ pb).length ++
      (BigEndian.ofInt32 r.xid ++ BigEndian.ofInt32 r.op.value ++ pb))) := by
  rw [encodeInto, toBytes_of_encode h]
  rfl

end Request

/-- Past the eight bytes of the header, a frame holds the body. -/
theorem drop_header (x v : Int32) (pb : List UInt8) :
    (BigEndian.ofInt32 x ++ BigEndian.ofInt32 v ++ pb).drop 8 = pb ++ [] := by
  rw [List.append_nil]
  exact List.drop_left' (by simp)

theorem Catalog.requestSchema_solid {op : OpCode} {s : Schema}
    (h : Catalog.requestSchema? op = some s) : s.solid ∧ 0 < s.leastLength := by
  cases op <;> cases h <;> exact ⟨rfl, by decide⟩

/-- A record body of a request class, after the eight header bytes, is read back by a fresh
record of its class: the values as the wire carries them, and no chroot. -/
theorem Request.deserialize_recordBody (rec : Record) {op : OpCode}
    (hsch : Catalog.requestSchema? op = some rec.schema) (ha : rec.Admitted)
    (hb : Value.AllBounded rec.sentValues) {pb : List UInt8} (h : rec.encode = .ok pb)
    (x : Int32) :
    (Record.new rec.schema).deserialize (BigEndian.ofInt32 x ++ BigEndian.ofInt32 op.value ++ pb) 8
      = .ok (⟨rec.schema, rec.sentValues, none⟩, pb.length) := by
  -- a request class takes at least one byte, so the offset lies inside the frame
  have hne : 0 < pb.length :=
    Nat.lt_of_lt_of_le (Catalog.requestSchema_solid hsch).2 (Record.leastLength_le ha h)
  exact Record.deserialize_encode (q := Record.new rec.schema) rfl
    ha hb h hne (drop_header x op.value pb)

/-- The chroot a request applies leaves no empty chroot for its body to drop. -/
theorem filter_requestChroot (c : Option String) :
    (c.filter fun s => s ≠ "" && s ≠ "/").filter (· ≠ "")
      = c.filter fun s => s ≠ "" && s ≠ "/" := by
  cases c with
  | none => rfl
  | some s =>
    by_cases h₁ : s = ""
    · subst h₁
      rfl
    · by_cases h₂ : s = "/"
      · subst h₂
        rfl
      · simp [Option.filter, h₁, h₂]

namespace RequestPayload

/-- Every length a body carries on the wire is below `2 ^ 31`: those of a record's values, or of
each operation's values for a transaction. -/
def Bounded : RequestPayload → Prop
  | .empty => True
  | .record rec => Value.AllBounded rec.values
  | .transaction t => ∀ op ∈ t.ops, Value.AllBounded op.toRecord.values

/-- A body that fits its operation and takes fewer than `2 ^ 31` bytes under a request's chroot
carries every length below `2 ^ 31` as it is sent: its classes are solid. -/
theorem bounded_sentUnder {op : OpCode} {p : RequestPayload} (hp : p.Fits op) (x : Int32)
    (c : Option String) {pb : List UInt8}
    (hpb : (({ xid := x, op := op, payload := p } : Request).setChroot c).payload.encode = .ok pb)
    (hlen : pb.length < Nat.pow 2 31) : (p.sentUnder (c.filter fun s => s ≠ "" && s ≠ "/")).Bounded := by
  cases p with
  | empty => trivial
  | record rec =>
    have hb := Record.sent_bounded (r := rec.setChroot (c.filter fun s => s ≠ "" && s ≠ "/"))
      (Catalog.requestSchema_solid hp.2.1).1 hp.2.2 hpb hlen
    -- the body's own chroot is the request's, which is never empty
    rw [Record.setChroot, filter_requestChroot] at hb
    exact hb
  | transaction t =>
    show ∀ op ∈ t.ops.map _, _
    rw [List.forall_mem_map]
    exact Transaction.bounded_of_encode hpb hlen

end RequestPayload

/-- The bytes of a request whose body fits its operation are read back as the request with its
body as sent under its chroot, when every length the body carries as sent is below `2 ^ 31`. -/
theorem Request.decode_of_fits {op : OpCode} {p : RequestPayload} (hp : p.Fits op) (x : Int32)
    (c : Option String) {pb : List UInt8}
    (hpb : (({ xid := x, op := op, payload := p } : Request).setChroot c).payload.encode = .ok pb)
    (hb : (p.sentUnder (c.filter fun s => s ≠ "" && s ≠ "/")).Bounded) :
    Request.decode (BigEndian.ofInt32 x ++ BigEndian.ofInt32 op.value ++ pb) =
      .ok { xid := x, op := op, payload := p.sentUnder (c.filter fun s => s ≠ "" && s ≠ "/") } := by
  have hc := filter_requestChroot c
  refine Request.decode_eq ?_ ?_ ?_
  · -- `multi`: the body is the transaction, read with its paths as sent
    intro hm
    cases p with
    | transaction t =>
      have hsent : ∀ op ∈ t.ops.map (Op.mapPath (sentPath (c.filter fun s => s ≠ "" && s ≠ "/"))),
          Value.AllBounded op.toRecord.values := hb
      have hops := List.forall_mem_map.mp hsent
      exact ⟨_, _, Transaction.deserialize_of_drop (t := { t with chroot := _ }) hops hpb
        (drop_header x op.value pb), rfl⟩
    | empty => exact absurd hm hp.1
    | record rec => exact absurd hm hp.1
  · -- an operation with a request class: the body is a record of that class, whose own chroot
    -- is the request's, never empty
    intro hm s hs
    cases p with
    | record rec =>
      obtain ⟨-, hsch, ha⟩ := hp
      rw [hsch] at hs
      cases hs
      have hsent : (rec.setChroot (c.filter fun s => s ≠ "" && s ≠ "/")).sentValues
          = { rec with chroot := c.filter fun s => s ≠ "" && s ≠ "/" }.sentValues := by
        rw [Record.setChroot, hc]
      refine ⟨_, _, Request.deserialize_recordBody (rec.setChroot _) hsch ha
        (by rw [hsent]; exact hb) hpb x, ?_⟩
      show RequestPayload.record ⟨rec.schema, _, none⟩ = RequestPayload.record ⟨rec.schema, _, none⟩
      rw [hsent]
    | empty => cases hs.symm.trans hp.2
    | transaction t => exact absurd hp hm
  · -- an operation without a request class: no body
    intro hm hs
    cases p with
    | empty => rfl
    | record rec => cases hs.symm.trans hp.2.1
    | transaction t => exact absurd hp hm

/-- **Request frames.** Take a request with any `xid`, an operation and a body that fits it, and
set its chroot. Its header and its body have bytes; the request measures their number, frames
itself as that number in four bytes followed by them, and appends exactly that frame to any
destination. Read back without the length, for fewer than `2 ^ 31` bytes, it has the same
`xid` and operation, its body with every path as sent under the chroot (none for the empty
chroot and for `/`), and no chroot. -/
theorem Request.frame_round_trip (x : Int32) (op : OpCode) (p : RequestPayload)
    (c : Option String) (hp : p.Fits op) (r : Request)
    (hr : r = ({ xid := x, op := op, payload := p } : Request).setChroot c) :
    ∃ hb pb : List UInt8, r.header.encode = .ok hb ∧ r.payload.encode = .ok pb ∧
      r.byteLength = .ok (hb ++ pb).length ∧
      r.toBytes = .ok (BigEndian.digits 4 (hb ++ pb).length ++ (hb ++ pb)) ∧
      (∀ dst, r.encodeInto dst
        = .ok (dst ++ (BigEndian.digits 4 (hb ++ pb).length ++ (hb ++ pb)))) ∧
      ((hb ++ pb).length < Nat.pow 2 31 →
        Request.decode (hb ++ pb) = .ok
          { xid := x, op := op, payload := p.sentUnder (c.filter fun s => s ≠ "" && s ≠ "/") })
    := by
  subst hr
  obtain ⟨pb, hpb⟩ : ∃ pb,
      (({ xid := x, op := op, payload := p } : Request).setChroot c).payload.encode = .ok pb := by
    cases p with
    | empty => exact ⟨[], rfl⟩
    | record rec => exact Record.encode_ok hp.2.2
    | transaction t => exact Record.encodeAll_ok (Transaction.admitted_records _)
  refine ⟨BigEndian.ofInt32 x ++ BigEndian.ofInt32 op.value, pb, Request.header_encode _, hpb,
    Request.byteLength_of_encode hpb, Request.toBytes_of_encode hpb,
    Request.encodeInto_of_encode hpb, fun hlen => ?_⟩
  -- past the eight header bytes, the body's bytes bound every length it carries
  have hpb_lt : pb.length < Nat.pow 2 31 := by
    simp only [List.length_append, BigEndian.length_ofInt32] at hlen
    omega
  exact Request.decode_of_fits hp x c hpb (RequestPayload.bounded_sentUnder hp x c hpb hpb_lt)

/-- The request frame of a deletion under the chroot `/app`. -/
theorem Request.frame_round_trip_delete :
    ∃ hb pb : List UInt8, (hb ++ pb).length = 22 ∧
      (({ xid := 7, op := .delete,
            payload := .record ⟨Catalog.deleteRequest, [.ustring (some "/a"), .int 3], none⟩ } :
          Request).setChroot (some "/app")).toBytes
        = .ok (BigEndian.digits 4 22 ++ (hb ++ pb)) ∧
      Request.decode (hb ++ pb) = .ok
        { xid := 7, op := .delete,
          payload := .record ⟨Catalog.deleteRequest, [.ustring (some "/app/a"), .int 3], none⟩ }
    := by
  have hp : (RequestPayload.record
      ⟨Catalog.deleteRequest, [.ustring (some "/a"), .int 3], none⟩).Fits .delete :=
    ⟨by decide, rfl, trivial, trivial, trivial⟩
  obtain ⟨hb, pb, -, -, hlen, hbytes, -, hdecode⟩ :=
    Request.frame_round_trip 7 .delete _ (some "/app") hp _ rfl
  -- the request measures eight header bytes, ten for the path and four for the version
  have h22 : (hb ++ pb).length = 22 := Except.ok.inj (hlen.symm.trans rfl)
  refine ⟨hb, pb, h22, h22 ▸ hbytes, ?_⟩
  rw [hdecode (by rw [h22]; decide)]
  rfl

end Ensemble
