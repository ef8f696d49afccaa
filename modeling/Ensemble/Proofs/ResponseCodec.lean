import Ensemble.Proofs.ReplyCodec
import Ensemble.Envelope.Response

/-! # Replies read back

A reply travels as its header, sixteen bytes holding its `xid`, its `zxid` and its result code
(`Response.headerBytes`), followed by its body (`ResponsePayload.encode`): a record, the records
of a transaction's results, or nothing. Decoding reads the header, then the body that the
request's operation and the result code call for, under the request's chroot:

* `decode_multi_empty`, `decode_multi_results`: for a transaction, the results whenever bytes
  follow the header, whatever the result code;
* `decode_failed`: for another operation, nothing after a failure code, whatever follows;
* `decode_record`, `decode_bodiless`: after the code `0`, the record of the operation's reply
  class, or nothing for an operation without one;
* `decodeNotification_event`, `decodeNotification_xid`: a notification is read only under the
  `xid` `-1`;
* `Response.decode_toBytes`: a reply written with any header and a body that fits the request
  reads back with the same header and its body as the request's chroot shows it, when every
  length the body carries is below `2 ^ 31`; data of `2 ^ 31` bytes is written and then refused
  (`Response.decode_wrapped_data`).
-/

namespace Ensemble

/-- The bytes of a reply's body. -/
def ResponsePayload.encode : ResponsePayload → Except Error (List UInt8)
  | .empty => .ok []
  | .record rec => rec.encode
  | .transaction rs => Record.encodeAll (resultRecords rs)

/-- A record as a reply body shows it under a chroot: with the chroot, the empty one being none,
and its `path` field seen from under it. -/
def Record.under (c : Option String) (rec : Record) : Record :=
  { rec with chroot := c.filter (· ≠ "") }.strip

theorem Catalog.responseSchema_solid {op : OpCode} {s : Schema}
    (h : Catalog.responseSchema? op = some s) : s.solid ∧ 0 < s.leastLength := by
  cases op <;> cases h <;> exact ⟨rfl, by decide⟩

/-- Reading a transaction reply past a prefix is reading it from the start. -/
theorem deserializeResults_append (pre : List UInt8) {bs : List UInt8} (hne : 0 < bs.length)
    (c : Option String) :
    deserializeResults (pre ++ bs) pre.length c = deserializeResults bs 0 c := by
  unfold deserializeResults
  rw [if_neg (by rw [List.length_append]; omega), if_neg (by omega), List.drop_left,
    List.drop_zero]

namespace Response

/-- The sixteen bytes of a reply's header: its `xid`, its `zxid` and its result code. -/
def headerBytes (r : Response) : List UInt8 :=
  BigEndian.ofInt32 r.xid ++ r.zxid.bytes ++ BigEndian.ofInt32 r.err

theorem length_headerBytes (r : Response) : r.headerBytes.length = 16 := by
  simp [headerBytes, r.zxid.length_bytes]

theorem header_encode (r : Response) : r.header.encode = .ok r.headerBytes := rfl

/-! ### Writing a reply -/

/-- A reply whose body has bytes is its header's bytes followed by them. -/
theorem toBytes_of_encode {r : Response} {pb : List UInt8} (h : r.payload.encode = .ok pb) :
    r.toBytes = .ok (r.headerBytes ++ pb) := by
  obtain ⟨x, z, e, p⟩ := r
  have hh := Record.put_yields ⟨Catalog.replyHeader, [.int x, .long z, .int e], none⟩
  have hroom : (BigEndian.ofInt32 x ++ z.bytes ++ BigEndian.ofInt32 e ++ pb).length
      ≤ 16 + pb.length := by
    simp only [List.length_append, BigEndian.length_ofInt32, z.length_bytes]
    omega
  cases p with
  | empty =>
    cases h
    exact (hh.bind Writer.yields_pure).run_ok hroom
  | record rec =>
    have hl : rec.byteLength = .ok pb.length := by
      rw [Record.byteLength_eq, show rec.encode = .ok pb from h]
      rfl
    have hy := hh.bind rec.put_yields
    rw [show rec.encode = .ok pb from h] at hy
    show (rec.byteLength >>= fun body => _) = _
    rw [hl]
    exact hy.run_ok hroom
  | transaction rs =>
    have hy := hh.bind (Record.forM_put_yields (resultRecords rs))
    rw [show Record.encodeAll (resultRecords rs) = .ok pb from h] at hy
    show (resultsLength rs >>= fun body => _) = _
    rw [resultsLength_of_encode h]
    exact hy.run_ok hroom

/-- A reply carrying an admitted record is written as its header followed by the record. -/
theorem toBytes_of_record {r : Response} {rec : Record} (hp : r.payload = .record rec)
    (ha : rec.Admitted) : ∃ pb, rec.encode = .ok pb ∧ r.toBytes = .ok (r.headerBytes ++ pb) := by
  obtain ⟨pb, hpb⟩ := Record.encode_ok ha
  exact ⟨pb, hpb, toBytes_of_encode (by rw [hp]; exact hpb)⟩

/-- A reply is written only when its body has bytes, and then it starts with its header. -/
theorem toBytes_eq_ok {r : Response} {bs : List UInt8} (h : r.toBytes = .ok bs) :
    ∃ pb, r.payload.encode = .ok pb ∧ bs = r.headerBytes ++ pb := by
  cases hp : r.payload.encode with
  | ok pb =>
    rw [toBytes_of_encode hp] at h
    cases h
    exact ⟨pb, rfl, rfl⟩
  | error e =>
    -- only a record body can fail, and then its measuring fails before anything is written
    obtain ⟨x, z, err, p⟩ := r
    cases p with
    | empty => cases hp
    | record rec =>
      have hl : rec.byteLength = .error e := by
        rw [Record.byteLength_eq, show rec.encode = .error e from hp]
        rfl
      change (rec.byteLength >>= fun body => _) = _ at h
      rw [hl] at h
      cases h
    | transaction rs =>
      obtain ⟨pb, hpb⟩ := Record.encodeAll_ok (admitted_resultRecords rs)
      rw [show Record.encodeAll (resultRecords rs) = .error e from hp] at hpb
      cases hpb

/-! ### Reading a reply -/

theorem readHeader_headerBytes (r : Response) (rest : List UInt8) :
    readHeader (r.headerBytes ++ rest) = .ok (r.xid, r.zxid, r.err, 16) := by
  have h := Record.deserialize_encode (r := r.header) (q := Record.new Catalog.replyHeader)
    rfl ⟨trivial, trivial, trivial, trivial⟩
    ⟨trivial, trivial, trivial, trivial⟩ r.header_encode
    (by rw [length_headerBytes]; omega)
    (show (r.headerBytes ++ rest).drop 0 = r.headerBytes ++ rest from rfl)
  rw [length_headerBytes] at h
  rw [readHeader, h]
  rfl

/-- A transaction reply of a header alone has no body. -/
theorem decode_multi_empty {req : Request} (hop : req.op = .multi) (r : Response)
    (c : Option String) : decode req r.headerBytes c = .ok { r with payload := .empty } := by
  have h := readHeader_headerBytes r []
  rw [List.append_nil] at h
  unfold decode
  rw [h]
  simp only [bind, Except.bind]
  rw [hop, length_headerBytes]
  rfl

/-- A transaction reply with bytes after its header has the results read from them, whatever
its result code. -/
theorem decode_multi_results {req : Request} (hop : req.op = .multi) (r : Response)
    {rest : List UInt8} {c : Option String} {rs : List OpResult} {n : Nat}
    (h : deserializeResults (r.headerBytes ++ rest) 16 c = .ok (rs, n)) :
    decode req (r.headerBytes ++ rest) c = .ok { r with payload := .transaction rs } := by
  have hlt : 16 < (r.headerBytes ++ rest).length := by
    refine Nat.lt_of_not_le fun hle => ?_
    rw [deserializeResults, if_pos hle] at h
    cases h
  unfold decode
  rw [readHeader_headerBytes]
  simp only [bind, Except.bind]
  rw [hop, if_pos hlt, h]
  rfl

/-- Another operation's reply with a failure code has no body, whatever follows its header. -/
theorem decode_failed {req : Request} (hop : req.op ≠ .multi) {r : Response} (herr : r.err ≠ 0)
    (rest : List UInt8) (c : Option String) :
    decode req (r.headerBytes ++ rest) c = .ok { r with payload := .empty } := by
  unfold decode
  rw [readHeader_headerBytes]
  simp only [bind, Except.bind]
  split
  · rfl
  · contradiction

/-- An operation's reply with the code `0` has the record of the operation's reply class, read
under the chroot after the header. -/
theorem decode_record {req : Request} (hop : req.op ≠ .multi) {r : Response} (herr : r.err = 0)
    {s : Schema} (hs : Catalog.responseSchema? req.op = some s) {rest : List UInt8}
    {c : Option String} {q : Record} {n : Nat}
    (h : ((Record.new s).setChroot c).deserialize (r.headerBytes ++ rest) 16 = .ok (q, n)) :
    decode req (r.headerBytes ++ rest) c = .ok { r with payload := .record q } := by
  unfold decode
  rw [readHeader_headerBytes]
  simp only [bind, Except.bind]
  split
  · contradiction
  · rw [hs]
    dsimp only
    rw [h]
    rfl

/-- After the code `0`, a reply whose record does not read is refused with the record's error. -/
theorem decode_record_error {req : Request} (hop : req.op ≠ .multi) {r : Response}
    (herr : r.err = 0) {s : Schema} (hs : Catalog.responseSchema? req.op = some s)
    {rest : List UInt8} {c : Option String} {e : Error}
    (h : ((Record.new s).setChroot c).deserialize (r.headerBytes ++ rest) 16 = .error e) :
    decode req (r.headerBytes ++ rest) c = .error e := by
  unfold decode
  rw [readHeader_headerBytes]
  simp only [bind, Except.bind]
  split
  · contradiction
  · rw [hs]
    dsimp only
    rw [h]

/-- An operation without a reply class has a reply without body, whatever follows its header. -/
theorem decode_bodiless {req : Request} (hop : req.op ≠ .multi)
    (hs : Catalog.responseSchema? req.op = none) (r : Response) (rest : List UInt8)
    (c : Option String) : decode req (r.headerBytes ++ rest) c = .ok { r with payload := .empty } := by
  unfold decode
  rw [readHeader_headerBytes]
  simp only [bind, Except.bind]
  split
  · rfl
  · rw [hs]
    rfl

/-- A notification is read only under the `xid` `-1`. -/
theorem decodeNotification_xid {r : Response} (hx : r.xid ≠ -1) (rest : List UInt8)
    (c : Option String) :
    decodeNotification (r.headerBytes ++ rest) c = .error (.protocol (.notificationXid r.xid)) := by
  unfold decodeNotification
  rw [readHeader_headerBytes]
  simp only [bind, Except.bind]
  rw [if_pos hx]
  rfl

/-- Under the `xid` `-1`, a notification is the `WatcherEvent` read under the chroot after the
header. -/
theorem decodeNotification_event {r : Response} (hx : r.xid = -1) {rest : List UInt8}
    {c : Option String} {q : Record} {n : Nat}
    (h : ((Record.new Catalog.watcherEvent).setChroot c).deserialize (r.headerBytes ++ rest) 16
      = .ok (q, n)) :
    decodeNotification (r.headerBytes ++ rest) c = .ok { r with payload := .record q } := by
  unfold decodeNotification
  rw [readHeader_headerBytes]
  simp only [bind, Except.bind]
  rw [if_neg (fun hne => hne hx), h]
  rfl

/-- A record body of a class that takes a byte or more, written after a header, is read back by
a fresh record of its class under a chroot: the record as the wire carries it, as that chroot
shows it, when every length it carries is below `2 ^ 31`. -/
theorem deserialize_body {s : Schema} (hs : 0 < s.leastLength) (r : Response)
    {rec : Record} (hsch : rec.schema = s) (ha : rec.Admitted)
    (hb : Value.AllBounded rec.sentValues) {pb : List UInt8} (h : rec.encode = .ok pb)
    (c : Option String) :
    ((Record.new s).setChroot c).deserialize (r.headerBytes ++ pb) 16
      = .ok ({ rec with values := rec.sentValues }.under c, pb.length) := by
  subst hsch
  have hne : 0 < pb.length := Nat.lt_of_lt_of_le hs (Record.leastLength_le ha h)
  have hdrop : (r.headerBytes ++ pb).drop 16 = pb ++ [] := by
    rw [List.append_nil, ← r.length_headerBytes, List.drop_left]
  rw [Record.deserialize_encode (r := rec) (q := (Record.new rec.schema).setChroot c) rfl
    ha hb h hne hdrop]
  rfl

end Response

/-- **Replies read back.** Take the reply to a request, with any `xid`, `zxid` and result code.
For `multi`, a body of transaction results is written and read back with each created path as
the chroot shows it, and a reply without body reads back without body. For another operation,
after a failure code, or when the operation has no reply class, the reply reads back without
body whatever follows its header, and a reply is always written as its header followed by its
body. After the code `0`, a record of the operation's reply class is written and read back as
the wire carries it (the record itself when it holds no chroot), as the chroot shows it. A
notification, under the `xid` `-1`, reads back the same way as a `WatcherEvent`; under any other
`xid` it is refused. Each read keeps the `xid`, `zxid` and result code, when every length the
body carries is below `2 ^ 31`: each created path, or each length inside the record as sent. -/
theorem Response.decode_toBytes (req : Request) (r : Response) (c : Option String) :
    (req.op = .multi → ∀ rs, r.payload = .transaction rs → ∃ bs, r.toBytes = .ok bs ∧
      ((∀ p, OpResult.created p ∈ rs → p.utf8ByteSize < Nat.pow 2 31) → Response.decode req bs c
        = .ok { r with payload := .transaction (rs.map (OpResult.mapPath (strippedPath c))) })) ∧
    (req.op = .multi → r.payload = .empty →
      r.toBytes = .ok r.headerBytes ∧ Response.decode req r.headerBytes c = .ok r) ∧
    (req.op ≠ .multi → r.err ≠ 0 → ∀ rest,
      Response.decode req (r.headerBytes ++ rest) c = .ok { r with payload := .empty }) ∧
    (req.op ≠ .multi → r.err = 0 → ∀ s, Catalog.responseSchema? req.op = some s →
      ∀ rec, r.payload = .record rec → rec.schema = s → rec.Admitted →
        ∃ bs, r.toBytes = .ok bs ∧ (Value.AllBounded rec.sentValues →
          Response.decode req bs c
            = .ok { r with payload := .record ({ rec with values := rec.sentValues }.under c) })) ∧
    (req.op ≠ .multi → Catalog.responseSchema? req.op = none → ∀ rest,
      Response.decode req (r.headerBytes ++ rest) c = .ok { r with payload := .empty }) ∧
    (∀ bs, r.toBytes = .ok bs → ∃ rest, bs = r.headerBytes ++ rest) ∧
    (r.xid = -1 → ∀ ev, r.payload = .record ev → ev.schema = Catalog.watcherEvent →
      ev.Admitted → ∃ bs, r.toBytes = .ok bs ∧ (Value.AllBounded ev.sentValues →
        Response.decodeNotification bs c
          = .ok { r with payload := .record ({ ev with values := ev.sentValues }.under c) })) ∧
    (r.xid ≠ -1 → ∀ rest, Response.decodeNotification (r.headerBytes ++ rest) c
      = .error (.protocol (.notificationXid r.xid))) := by
  refine ⟨fun hop rs hp => ?_, fun hop hp => ?_, fun hop herr rest => Response.decode_failed hop herr rest c,
    fun hop herr s hs rec hp hsch ha => ?_, fun hop hs rest => Response.decode_bodiless hop hs r rest c,
    fun bs h => ?_, fun hx ev hp hsch ha => ?_, fun hx rest => Response.decodeNotification_xid hx rest c⟩
  · -- the results of a transaction
    obtain ⟨pb, hpb⟩ := Record.encodeAll_ok (admitted_resultRecords rs)
    have henc : r.payload.encode = .ok pb := by rw [hp]; exact hpb
    refine ⟨_, Response.toBytes_of_encode henc, fun hb => ?_⟩
    have hread := deserializeResults_encode hb hpb c
    rw [← deserializeResults_append r.headerBytes (length_pos_of_terminator hpb),
      Response.length_headerBytes] at hread
    exact Response.decode_multi_results hop r hread
  · -- a transaction reply without body
    have henc : r.payload.encode = .ok [] := by rw [hp]; rfl
    refine ⟨by rw [Response.toBytes_of_encode henc, List.append_nil], ?_⟩
    rw [Response.decode_multi_empty hop r c, ← hp]
  · -- a record of the reply class
    obtain ⟨pb, hpb, hbytes⟩ := Response.toBytes_of_record hp ha
    refine ⟨_, hbytes, fun hb => ?_⟩
    exact Response.decode_record hop herr hs (Response.deserialize_body
      (Catalog.responseSchema_solid hs).2 r hsch ha hb hpb c)
  · obtain ⟨pb, -, rfl⟩ := Response.toBytes_eq_ok h
    exact ⟨pb, rfl⟩
  · -- a notification
    obtain ⟨pb, hpb, hbytes⟩ := Response.toBytes_of_record hp ha
    refine ⟨_, hbytes, fun hb => ?_⟩
    exact Response.decodeNotification_event hx (Response.deserialize_body (by decide) r
      hsch ha hb hpb c)

/-- The notification of a data change on `/app/a`, read under the chroot `/app`. -/
theorem Response.decode_toBytes_notification :
    ∃ bs, (Response.reply (-1) (-1) .ok
        (.record (WatchedEvent.record 2 3 (some "/app/a")))).toBytes = .ok bs ∧
      Response.decodeNotification bs (some "/app") = .ok (Response.reply (-1) (-1) .ok
        (.record ⟨Catalog.watcherEvent, [.int 2, .int 3, .ustring (some "/a")], some "/app"⟩)) := by
  obtain ⟨bs, hbs, hread⟩ := (Response.decode_toBytes (Request.new .getData .empty)
    (Response.reply (-1) (-1) .ok (.record (WatchedEvent.record 2 3 (some "/app/a"))))
    (some "/app")).2.2.2.2.2.2.1 rfl _ rfl rfl ⟨trivial, trivial, trivial, trivial⟩
  refine ⟨bs, hbs, ?_⟩
  -- the one length the event carries is that of its path `/app/a`
  have hb : Value.AllBounded (WatchedEvent.record 2 3 (some "/app/a")).sentValues := by
    show Value.AllBounded [.int 2, .int 3, .ustring (some "/app/a")]
    exact ⟨trivial, trivial, show _ < _ by decide, trivial⟩
  rw [hread hb]
  rfl

/-- Data of `2 ^ 31` bytes goes out with the length prefix `-2 ^ 31`, which reading refuses: the
reply to a read of such data is written, and it does not read back. -/
theorem Response.decode_wrapped_data :
    ∃ bs, (Response.reply 0 0 .ok (.record ⟨Catalog.getDataResponse,
        [.buffer (some (List.replicate (Nat.pow 2 31) 0)), ({} : Stat).toValue], none⟩)).toBytes
          = .ok bs ∧
      Response.decode (Request.new .getData .empty) bs none
        = .error (.serialization (.badLength (-2147483648))) := by
  let d : List UInt8 := List.replicate (Nat.pow 2 31) 0
  let r := Response.reply 0 0 .ok (.record ⟨Catalog.getDataResponse,
    [.buffer (some d), ({} : Stat).toValue], none⟩)
  obtain ⟨pb, hpb, hbytes⟩ := Response.toBytes_of_record (r := r) rfl
    ⟨trivial, ({} : Stat).admits_toValue, trivial⟩
  refine ⟨_, hbytes, ?_⟩
  -- the body is the data's bytes, then the metadata's
  have hpb' : FieldType.encodeFields none [.mk "data" .buffer, .mk "stat" (.record Catalog.stat)]
      [.buffer (some d), ({} : Stat).toValue] = .ok pb := hpb
  rw [FieldType.encodeFields_none_cons] at hpb'
  obtain ⟨b, hb, hpb'⟩ := Except.bind_eq_ok.mp hpb'
  obtain ⟨b', -, hpb'⟩ := Except.bind_eq_ok.mp hpb'
  cases hb
  cases hpb'
  have hfields : ((Record.new Catalog.getDataResponse).setChroot none).schema.fields
      = [.mk "data" .buffer, .mk "stat" (.record Catalog.stat)] := rfl
  have hdrop : (r.headerBytes ++ (Writer.bufferBytes (some d) ++ b')).drop 16
      = Writer.bufferBytes (some d) ++ b' := by
    rw [← r.length_headerBytes, List.drop_left]
  refine Response.decode_record_error (by decide) rfl rfl (Record.deserialize_error ?_ ?_)
  · rw [List.length_append, r.length_headerBytes]
    simp only [List.length_append, Writer.bufferBytes, BigEndian.length_ofInt32]
    omega
  · rw [hdrop]
    refine Record.getFields_error ?_
    rw [hfields]
    exact FieldType.getFields_cons_error (FieldType.get_buffer_wrapped List.length_replicate b')

end Ensemble
