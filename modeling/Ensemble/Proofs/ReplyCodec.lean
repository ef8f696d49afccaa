import Ensemble.Proofs.TransactionCodec

/-! # The transaction reply codec

A reply to a transaction travels as a header and, for a creation, a new metadata or a failure,
a body record per result, then the terminator; deletions and passed checks travel as their
header alone. A body is read under the chroot of the request, so a created path comes back with
the chroot taken off (`strippedPath`); the empty chroot is none, and `OpResult.mapPath` applies
the change to a created path and leaves every other result alone.

* `OpResult.readResults_step`: one result read back, its header then its body;
* `deserializeResults_encode`: a whole reply read from the start of its bytes;
* `deserializeResults_putResults`: what the writer gives a reply, and that it reads back with
  its created paths stripped and each metadata and failure code unchanged, when every created
  path has fewer than `2 ^ 31` bytes; a path of `2 ^ 31` bytes is written and then refused
  (`deserializeResults_wrapped_path`).
-/

namespace Ensemble

/-- A created path as a reply gives it under a chroot; the empty chroot is none. -/
def strippedPath (c : Option String) (p : String) : String :=
  match c.filter (· ≠ "") with
  | some c => stripChroot c p
  | none => p

/-- The result with its created path changed by `f`. -/
def OpResult.mapPath (f : String → String) : OpResult → OpResult
  | .created p => .created (f p)
  | r => r

namespace OpResult

theorem admitted_body (r : OpResult) : ∀ b ∈ r.body?, b.Admitted := by
  intro b hb
  cases r with
  | created p => cases hb; exact ⟨trivial, trivial⟩
  | dataSet st => cases hb; exact ⟨st.admits_toValue, trivial⟩
  | failed code => cases hb; exact ⟨trivial, trivial⟩
  | deleted | checked => cases hb

theorem admitted_records (r : OpResult) : ∀ q ∈ r.records, q.Admitted := by
  intro q hq
  rcases List.mem_cons.mp hq with rfl | hq
  · exact multiHeader_admitted _ _ _
  · exact r.admitted_body q (Option.mem_toList.mp hq)

/-- A reply's body, written without chroot and holding none, is read under the chroot and has
its path stripped, when every length it carries is below `2 ^ 31`. -/
theorem readBody_encode (body : Record) (hch : body.chroot = none) (ha : body.Admitted)
    (hp : Value.AllPlain body.values) (hb : Value.AllBounded body.values) {bs : List UInt8}
    (h : body.encode = .ok bs) (c : Option String) (rest : List UInt8) :
    readBody body.schema c (bs ++ rest)
      = .ok ({ body with chroot := c.filter (· ≠ "") }.strip, rest) := by
  -- the body goes out with its own values
  have hsent := Record.sentValues_of_plain hch ha hp
  have hrec := Record.getFields_encode (r := body) (q := (Record.new body.schema).setChroot c)
    rfl ha (by rw [hsent]; exact hb) h rest
  rw [hsent] at hrec
  show (((Record.new body.schema).setChroot c).getFields >>= fun r => pure r.strip) _ = _
  rw [Reader.bind_ok hrec]
  rfl

/-- Reading a result's header and body gives the result with its created path stripped, when a
created path has fewer than `2 ^ 31` bytes. -/
theorem readResults_step (r : OpResult) (c : Option String)
    (hb : ∀ p, r = .created p → p.utf8ByteSize < Nat.pow 2 31) {bs : List UInt8}
    (h : Record.encodeAll r.records = .ok bs)
    (fuel : Nat) (acc : List OpResult) (rest : List UInt8) :
    readResults c (fuel + 1) acc (bs ++ rest)
      = readResults c fuel (r.mapPath (strippedPath c) :: acc) rest := by
  cases r <;> dsimp only [records, opCode, body?, Option.toList] at h
  case created p =>
    obtain ⟨b, hbs, rfl⟩ := encodeAll_header_body h
    have hbody := readBody_encode ⟨Catalog.createResponse, [.ustring (some p)], none⟩
      rfl ⟨trivial, trivial⟩ ⟨trivial, trivial⟩ ⟨hb p rfl, trivial⟩ hbs c rest
    -- only a created path is stripped: the reply's class has a `path` field
    have hpath : ({ (⟨Catalog.createResponse, [.ustring (some p)], none⟩ : Record) with
        chroot := c.filter (· ≠ "") }).strip.getUString "path"
          = .ok (some (strippedPath c p)) := by
      unfold strippedPath
      cases c.filter (· ≠ "") <;> rfl
    rw [List.append_assoc]
    show (readHeader >>= fun x => _) _ = _
    rw [Reader.bind_ok (readHeader_op .create 0 (b ++ rest))]
    dsimp only
    rw [Reader.bind_ok hbody, hpath]
    rfl
  case dataSet st =>
    obtain ⟨b, hbs, rfl⟩ := encodeAll_header_body h
    have hbody := readBody_encode ⟨Catalog.setDataResponse, [st.toValue], none⟩
      rfl ⟨st.admits_toValue, trivial⟩ ⟨st.plain_toValue, trivial⟩ ⟨st.bounded_toValue, trivial⟩
      hbs c rest
    have hstat : ({ (⟨Catalog.setDataResponse, [st.toValue], none⟩ : Record) with
        chroot := c.filter (· ≠ "") }).strip.getRecord "stat" = .ok st.toRecord := by
      cases c.filter (· ≠ "") <;> rfl
    rw [List.append_assoc]
    show (readHeader >>= fun x => _) _ = _
    rw [Reader.bind_ok (readHeader_op .setData 0 (b ++ rest))]
    dsimp only
    rw [Reader.bind_ok hbody, hstat, Reader.bind_ok (Reader.lift_ok _ _), Stat.ofRecord_toRecord]
    rfl
  case failed code =>
    obtain ⟨b, hbs, rfl⟩ := encodeAll_header_body h
    have hbody := readBody_encode ⟨Catalog.errorResponse, [.int code.value], none⟩
      rfl ⟨trivial, trivial⟩ ⟨trivial, trivial⟩ ⟨trivial, trivial⟩ hbs c rest
    have herr : ({ (⟨Catalog.errorResponse, [.int code.value], none⟩ : Record) with
        chroot := c.filter (· ≠ "") }).strip.getInt "err" = .ok code.value := by
      cases c.filter (· ≠ "") <;> rfl
    rw [List.append_assoc]
    show (readHeader >>= fun x => _) _ = _
    rw [Reader.bind_ok (readHeader_op .error code.value (b ++ rest))]
    dsimp only
    rw [Reader.bind_ok hbody, herr, Reader.bind_ok (Reader.lift_ok _ _),
      ExceptionCode.ofValue_value]
    rfl
  -- a deletion and a passed check travel as their header alone
  case deleted | checked =>
    obtain ⟨b, hbs, rfl⟩ := encodeAll_header h
    rw [Record.encodeAll_nil] at hbs
    cases hbs
    rw [List.append_nil]
    show (readHeader >>= fun x => _) _ = _
    rw [Reader.bind_ok (readHeader_op _ 0 rest)]
    rfl

end OpResult

/-- Reading stops at a creation whose body does not read, with the body's error. -/
theorem readResults_created_error {c : Option String} {rest : List UInt8} {e : Error}
    (h : readBody Catalog.createResponse c rest = .error e) (fuel : Nat) (acc : List OpResult) :
    readResults c (fuel + 1) acc
        (BigEndian.ofInt32 OpCode.create.value ++ [0] ++ BigEndian.ofInt32 0 ++ rest) = .error e := by
  show (readHeader >>= fun x => _) _ = _
  rw [Reader.bind_ok (readHeader_op .create 0 rest)]
  dsimp only
  rw [Reader.bind_error h]

/-- Reading a reply from the start of its bytes fails where reading its results fails. -/
theorem deserializeResults_error {c : Option String} {bs : List UInt8} {e : Error}
    (hpos : 0 < bs.length) (h : readResults c (bs.length + 1) [] bs = .error e) :
    deserializeResults bs 0 c = .error e := by
  rw [deserializeResults, if_neg (by omega), List.drop_zero]
  dsimp only
  unfold Reader.runCounting
  rw [h]

/-- Reading results takes back, from the front of any byte list, the results of a reply, each
with its created path stripped, given a round per byte and created paths of fewer than `2 ^ 31`
bytes. -/
theorem readResults_encode (c : Option String) (results acc : List OpResult) (fuel : Nat)
    (hb : ∀ p, OpResult.created p ∈ results → p.utf8ByteSize < Nat.pow 2 31)
    {bs : List UInt8} (h : Record.encodeAll (resultRecords results) = .ok bs)
    (hfuel : bs.length < fuel) (rest : List UInt8) :
    readResults c fuel acc (bs ++ rest)
      = .ok (acc.reverse ++ results.map (OpResult.mapPath (strippedPath c)), rest) := by
  refine readLoop_encode _ _ (fun r => ∀ p, r = .created p → p.utf8ByteSize < Nat.pow 2 31)
    (readResults c) (fun fuel acc rest => ?_)
    (fun r hr bs h => OpResult.readResults_step r c hr h) (fun r bs h => ?_)
    results acc fuel (fun r hr p hp => hb p (hp ▸ hr)) h hfuel rest
  · show (readHeader >>= fun x => _) _ = _
    rw [Reader.bind_ok (readHeader_done (-1) (-1) rest)]
    rfl
  · exact length_pos_of_header h

theorem admitted_resultRecords (results : List OpResult) :
    ∀ q ∈ resultRecords results, q.Admitted := by
  intro q hq
  simp only [resultRecords, List.mem_append, List.mem_flatMap, List.mem_cons,
    List.not_mem_nil, or_false] at hq
  rcases hq with ⟨r, _, hq⟩ | rfl
  · exact r.admitted_records q hq
  · exact multiHeader_admitted _ _ _

theorem resultsLength_of_encode {results : List OpResult} {bs : List UInt8}
    (h : Record.encodeAll (resultRecords results) = .ok bs) :
    resultsLength results = .ok bs.length := by
  rw [resultsLength, Record.foldlM_byteLength h, Nat.zero_add]

/-- Records closed by the terminator take at least its nine bytes. -/
theorem length_pos_of_terminator {rs : List Record} {bs : List UInt8}
    (h : Record.encodeAll (rs ++ [terminator]) = .ok bs) : 0 < bs.length := by
  obtain ⟨b, t, _, ht, rfl⟩ := Record.encodeAll_append_ok h
  have ht' := Record.encodeAll_singleton_ok ht
  rw [terminator_encode] at ht'
  cases ht'
  simp

/-- Reading a reply from the start of its own bytes gives its results, each created path
stripped, and counts all the bytes, when a created path has fewer than `2 ^ 31` bytes. -/
theorem deserializeResults_encode {results : List OpResult} {bs : List UInt8}
    (hb : ∀ p, OpResult.created p ∈ results → p.utf8ByteSize < Nat.pow 2 31)
    (h : Record.encodeAll (resultRecords results) = .ok bs) (c : Option String) :
    deserializeResults bs 0 c
      = .ok (results.map (OpResult.mapPath (strippedPath c)), bs.length) := by
  have hpos := length_pos_of_terminator h
  have hread := readResults_encode c results [] (bs.length + 1) hb h (Nat.lt_succ_self _) []
  have hcount := Reader.runCounting_append hread
  rw [List.append_nil] at hcount
  rw [deserializeResults, if_neg (by omega), List.drop_zero, hcount]
  rfl

/-- **The transaction reply codec.** A reply is written as a header and, for a creation, a new
metadata or a failure, a body record per result, then the terminator; its length is the number
of these bytes, and with that much room or more the writer gives exactly them. Read back from
offset `0` under a chroot, when every created path has fewer than `2 ^ 31` bytes (the one length
a reply carries), they give every result in order, a created path stripped of the chroot and
every metadata and failure code as it was, and all bytes are counted. -/
theorem deserializeResults_putResults (results : List OpResult) (c : Option String) :
    ∃ bs : List UInt8,
      Record.encodeAll (results.flatMap OpResult.records ++ [terminator]) = .ok bs ∧
      resultsLength results = .ok bs.length ∧
      (∀ room, bs.length ≤ room → Writer.run (putResults results) room = .ok bs) ∧
      ((∀ p, OpResult.created p ∈ results → p.utf8ByteSize < Nat.pow 2 31) →
        deserializeResults bs 0 c
          = .ok (results.map (OpResult.mapPath (strippedPath c)), bs.length)) := by
  obtain ⟨bs, h⟩ := Record.encodeAll_ok (admitted_resultRecords results)
  have hy := Record.forM_put_yields (resultRecords results)
  rw [h] at hy
  exact ⟨bs, h, resultsLength_of_encode h, fun room hroom => hy.run_ok hroom,
    fun hb => deserializeResults_encode hb h c⟩

/-- The reply codec on a creation and a failure under the chroot `/app`. -/
theorem deserializeResults_putResults_created :
    ∃ bs : List UInt8, bs.length = 41 ∧
      resultsLength [.created "/app/x", .failed .noNode] = .ok 41 ∧
      deserializeResults bs 0 (some "/app") = .ok ([.created "/x", .failed .noNode], 41) := by
  obtain ⟨bs, -, hlen, -, h⟩ :=
    deserializeResults_putResults [.created "/app/x", .failed .noNode] (some "/app")
  have h41 : bs.length = 41 := by
    have hb : resultsLength [.created "/app/x", .failed .noNode] = .ok 41 := rfl
    rw [hb] at hlen
    exact (Except.ok.inj hlen).symm
  refine ⟨bs, h41, h41 ▸ hlen, ?_⟩
  -- the one created path is `/app/x`
  have hb : ∀ p, OpResult.created p ∈ [OpResult.created "/app/x", .failed .noNode] →
      p.utf8ByteSize < Nat.pow 2 31 := by
    intro p hp
    simp only [List.mem_cons, OpResult.created.injEq, reduceCtorEq, List.not_mem_nil,
      or_false] at hp
    subst hp
    decide
  rw [h hb, h41]
  rfl

/-- A created path of `2 ^ 31` bytes goes out with the length prefix `-2 ^ 31`, which reading
refuses: a reply that creates such a path is written, and its bytes do not read back. -/
theorem deserializeResults_wrapped_path :
    ∃ bs : List UInt8,
      Writer.run (putResults [.created (String.ofList ('/' :: List.replicate (Nat.pow 2 31 - 1) 'a'))])
          bs.length = .ok bs ∧
      deserializeResults bs 0 none = .error (.serialization (.badLength (-2147483648))) := by
  let p := String.ofList ('/' :: List.replicate (Nat.pow 2 31 - 1) 'a')
  have hp : p.utf8ByteSize = Nat.pow 2 31 :=
    (Utf8.utf8ByteSize_slash_replicate (by decide) _).trans (Nat.sub_add_cancel (by decide))
  obtain ⟨bs, h⟩ := Record.encodeAll_ok (admitted_resultRecords [.created p])
  have hy := Record.forM_put_yields (resultRecords [.created p])
  rw [h] at hy
  refine ⟨bs, hy.run_ok (Nat.le_refl _), ?_⟩
  -- the bytes are the header, the body holding the path, and the terminator
  have h' : Record.encodeAll [multiHeader OpCode.create.value false 0,
      ⟨Catalog.createResponse, [.ustring (some p)], none⟩, terminator] = .ok bs := h
  obtain ⟨b, hb, hbs⟩ := encodeAll_header h'
  obtain ⟨b₁, b₂, h₁, -, rfl⟩ := Record.encodeAll_cons_ok hb
  have hbody : (⟨Catalog.createResponse, [.ustring (some p)], none⟩ : Record).encode
      = .ok (Writer.bufferBytes (some (Utf8.encode p)) ++ []) := rfl
  rw [hbody] at h₁
  cases h₁
  have hread : readBody Catalog.createResponse none
      ((Writer.bufferBytes (some (Utf8.encode p)) ++ []) ++ b₂)
        = .error (.serialization (.badLength (-2147483648))) := by
    rw [List.append_assoc]
    exact Reader.bind_error (Record.getFields_error
      (FieldType.getFields_cons_error (FieldType.get_ustring_wrapped hp _)))
  rw [hbs]
  exact deserializeResults_error (by rw [length_header]; omega) (readResults_created_error hread _ _)

end Ensemble
