import Ensemble.Proofs.Chroot
import Ensemble.Proofs.Reencoding
import Ensemble.Proofs.ResponseCodec

/-! # The chroot as an argument

Five entry points take a chroot: `Request.setChroot`, `Record.setChroot`, a transaction's
`chroot`, and the decoders `Response.decode`, `Response.decodeNotification` and
`deserializeResults`. They do not all read it the same way. A request drops the empty chroot
and `/`; records, transactions and decoders drop only the empty one, and take `/` as a chroot
like any other.

What a decoder does with a chroot is settled once and for all: it reads the same bytes as under
none, and only then puts the values under the chroot (`Response.under`, `OpResult.mapPath` with
`strippedPath`). A chroot is never consulted while bytes are read, so it cannot make a reply
fail or change how much of it is read:

* `Record.getUString_path_strip`: a record under a chroot shows its `path` stripped;
* `readResults_mapPath`, by induction on the rounds, and from it `deserializeResults_mapPath`,
  `Response.decode_under` and `Response.decodeNotification_under`;
* `Transaction.serialize_sentPath`: the writing side, a transaction under a chroot writes the
  bytes of its operations with their paths as sent.

Under the empty chroot these views are the identity, so every entry point agrees with none.
Under `/` they are not: a path other than the root is written with a second slash in front, and
read back without its leading slash.
-/

namespace Ensemble

/-! ### Reading under a chroot -/

theorem strippedPath_of_filter_none {c : Option String} (hc : c.filter (· ≠ "") = none)
    (p : String) : strippedPath c p = p := by
  rw [strippedPath, hc]

theorem strippedPath_of_filter_some {c : Option String} {c' : String}
    (hc : c.filter (· ≠ "") = some c') (p : String) : strippedPath c p = stripChroot c' p := by
  rw [strippedPath, hc]

/-- A chroot, never empty once filtered, is not a prefix of the empty string. -/
theorem strippedPath_empty (c : Option String) : strippedPath c "" = "" := by
  cases hc : c.filter (· ≠ "") with
  | none => exact strippedPath_of_filter_none hc ""
  | some c' =>
    have hne : c' ≠ "" := by
      rcases Option.filter_eq_some_iff.mp hc with ⟨-, h⟩
      simpa using h
    have hl : c'.toList ≠ [] := by simpa [String.toList_eq_nil_iff] using hne
    rw [strippedPath_of_filter_some hc, stripChroot, if_neg (Ne.symm hne), if_neg]
    cases h : c'.toList with
    | nil => exact absurd h hl
    | cons x xs => simp

/-- An absent path reads as the empty one, before or after stripping. -/
theorem getD_map_strippedPath (c : Option String) (l : Option String) :
    (l.map (strippedPath c)).getD "" = strippedPath c (l.getD "") := by
  cases l with
  | none => exact (strippedPath_empty c).symm
  | some p => rfl

/-- The body of a reply as it reads under a chroot, from the body read under none. -/
def ResponsePayload.under (c : Option String) : ResponsePayload → ResponsePayload
  | .empty => .empty
  | .record rec => .record (rec.under c)
  | .transaction rs => .transaction (rs.map (OpResult.mapPath (strippedPath c)))

/-- A reply as it reads under a chroot, from the reply read under none: the header as it is,
the body under the chroot. -/
def Response.under (c : Option String) (r : Response) : Response :=
  { r with payload := r.payload.under c }

namespace Reader

theorem lift_map {α β : Type} (f : α → β) (x : Except Error α) :
    (liftM (f <$> x) : Reader β) = f <$> (liftM x : Reader α) := by
  cases x <;> rfl

theorem runCounting_map {α β : Type} (f : α → β) (r : Reader α) (bs : List UInt8) :
    runCounting (f <$> r) bs = (fun p => (f p.1, p.2)) <$> runCounting r bs := by
  unfold runCounting
  cases h : r bs with
  | error e => rw [map_error h]; rfl
  | ok p => rw [map_ok h]; rfl

end Reader

namespace Record

theorem get_eq_of_getUString {r : Record} {n : String} {s : Option String}
    (h : r.getUString n = .ok s) : r.get n = .ok (.ustring s) := by
  unfold getUString at h
  cases hg : r.get n with
  | error e =>
    rw [hg] at h
    cases h
  | ok v =>
    rw [hg] at h
    cases v with
    | ustring s' =>
      cases h
      rfl
    | _ => cases h

theorem getElem?_of_get {r : Record} {n : String} {i : Nat} {v : Value}
    (hi : r.schema.index? n = some i) (h : r.get n = .ok v) : r.values[i]? = some v := by
  simp only [get, indexOf, hi, bind, Except.bind] at h
  cases hv : r.values[i]? with
  | none =>
    rw [hv] at h
    cases h
  | some w =>
    rw [hv] at h
    cases h
    rfl

theorem get_of_index_none {r : Record} {n : String} (hi : r.schema.index? n = none) :
    r.get n = .error (r.noSuchField n) := by
  simp only [get, indexOf, hi]
  rfl

/-- Under a chroot the `path` field reads stripped of it; an absent field, an absent path or a
value of another kind reads as before. -/
theorem getUString_path_strip (r : Record) (c : Option String) :
    (r.setChroot c).strip.getUString "path" =
      Option.map (strippedPath c) <$> r.getUString "path" := by
  -- a result that holds no present string is what any map of the string leaves
  have hkeep : ∀ {x : Except Error (Option String)}, (∀ p, x ≠ .ok (some p)) →
      Option.map (strippedPath c) <$> x = x := by
    intro x hx
    rcases x with e | _ | p
    · rfl
    · rfl
    · exact absurd rfl (hx p)
  cases hc : c.filter (· ≠ "") with
  | none =>
    have hid : strippedPath c = id := funext (strippedPath_of_filter_none hc)
    rw [hid, Option.map_id, id_map, strip_of_chroot_none hc]
    rfl
  | some c' =>
    have hpf : pathField = "path" := rfl
    unfold strip
    simp only [setChroot, hc]
    cases hi : r.schema.index? pathField with
    | none =>
      rw [hpf] at hi
      show r.getUString "path" = _
      refine (hkeep fun p h => ?_).symm
      have hg := get_eq_of_getUString h
      rw [get_of_index_none hi] at hg
      cases hg
    | some i =>
      rw [hpf] at hi
      dsimp only
      split
      · -- a present path is rewritten
        rename_i p hv
        have hlen : i < r.values.length := (List.getElem?_eq_some_iff.mp hv).1
        let q : Record := ⟨r.schema, r.values.set i (.ustring (some (stripChroot c' p))), some c'⟩
        have hq : q.get "path" = .ok (.ustring (some (stripChroot c' p))) :=
          get_of_index hi (List.getElem?_set_self hlen)
        rw [getUString_of_get hq, getUString_of_get (get_of_index hi hv)]
        exact congrArg (fun s => Except.ok (some s)) (strippedPath_of_filter_some hc p).symm
      · -- any other value is left as it is
        rename_i hv
        show r.getUString "path" = _
        refine (hkeep fun p h => ?_).symm
        exact hv p (getElem?_of_get hi (get_eq_of_getUString h))

theorem strip_of_index_none {r : Record} (hi : r.schema.index? pathField = none) : r.strip = r := by
  unfold strip
  split
  · rename_i h
    rw [hi] at h
    cases h
  · rfl

/-- A record of a class with no `path` field is stripped of nothing. -/
theorem strip_setChroot_of_index_none {s : Schema} (hi : s.index? pathField = none)
    (vs : List Value) (c : Option String) :
    ((⟨s, vs, none⟩ : Record).setChroot c).strip = (⟨s, vs, none⟩ : Record).setChroot c :=
  strip_of_index_none hi

/-- A fresh record reads the values of its class; its chroot only goes along. -/
theorem getFields_new (s : Schema) (c : Option String) :
    ((Record.new s).setChroot c).getFields =
      (fun vs => (⟨s, vs, none⟩ : Record).setChroot c) <$> FieldType.getFields s.fields := by
  rw [getFields_eq]
  rfl

theorem deserialize_setChroot (s : Schema) (c : Option String) (buf : List UInt8) (off : Nat) :
    ((Record.new s).setChroot c).deserialize buf off =
      (fun p => (p.1.under c, p.2)) <$> (Record.new s).deserialize buf off := by
  rw [deserialize_eq, deserialize_eq]
  split
  · rfl
  · rw [getFields_new s c, show Record.new s = (Record.new s).setChroot none from rfl,
      getFields_new s none, Reader.runCounting_map, Reader.runCounting_map, bind_map_left,
      bind_map_left, map_bind]
    rfl

end Record

theorem Catalog.setDataResponse_index_path : Catalog.setDataResponse.index? pathField = none := by
  decide

theorem Catalog.errorResponse_index_path : Catalog.errorResponse.index? pathField = none := by
  decide

theorem readBody_eq (s : Schema) (c : Option String) :
    readBody s c = (fun vs => ((⟨s, vs, none⟩ : Record).setChroot c).strip) <$>
      FieldType.getFields s.fields := by
  rw [readBody, Record.getFields_new, bind_map_left]
  rfl

theorem readBody_none (s : Schema) :
    readBody s none = (fun vs => (⟨s, vs, none⟩ : Record)) <$> FieldType.getFields s.fields :=
  readBody_eq s none

/-- Reading results under a chroot is reading them under none, then stripping each created
path. The induction is on the rounds; in a round only a creation's body has a path, and the
bodies of a new metadata and of a failure read as under none. -/
theorem readResults_mapPath (c : Option String) (fuel : Nat) (acc : List OpResult) :
    readResults c fuel (acc.map (OpResult.mapPath (strippedPath c))) =
      List.map (OpResult.mapPath (strippedPath c)) <$> readResults none fuel acc := by
  induction fuel generalizing acc with
  | zero => simp only [readResults, map_pure, List.map_reverse]
  | succ fuel ih =>
    simp only [readResults, map_bind]
    congr 1
    funext h
    rcases h with _ | op
    · simp only [map_pure, List.map_reverse]
    · cases op
      case create =>
        simp only []
        rw [readBody_eq Catalog.createResponse c, readBody_none, bind_map_left, bind_map_left,
          map_bind]
        congr 1
        funext vs
        rw [Record.getUString_path_strip, Reader.lift_map, bind_map_left, map_bind]
        congr 1
        funext l
        simp only [pure_bind, getD_map_strippedPath]
        exact ih (.created (l.getD "") :: acc)
      case delete => exact ih (.deleted :: acc)
      case check => exact ih (.checked :: acc)
      case setData =>
        simp only []
        rw [readBody_eq Catalog.setDataResponse c, readBody_none, bind_map_left, bind_map_left,
          map_bind]
        congr 1
        funext vs
        rw [Record.strip_setChroot_of_index_none Catalog.setDataResponse_index_path]
        simp only [map_bind, pure_bind]
        congr 1
        funext st
        congr 1
        funext d
        exact ih (.dataSet d :: acc)
      case error =>
        simp only []
        rw [readBody_eq Catalog.errorResponse c, readBody_none, bind_map_left, bind_map_left,
          map_bind]
        congr 1
        funext vs
        rw [Record.strip_setChroot_of_index_none Catalog.errorResponse_index_path]
        simp only [map_bind, pure_bind]
        congr 1
        funext x
        congr 1
        funext code
        exact ih (.failed code :: acc)
      -- every other code is refused, whatever the chroot
      all_goals rfl

theorem deserializeResults_mapPath (buf : List UInt8) (off : Nat) (c : Option String) :
    deserializeResults buf off c =
      (fun p => (p.1.map (OpResult.mapPath (strippedPath c)), p.2)) <$>
        deserializeResults buf off none := by
  unfold deserializeResults
  split
  · rfl
  · rw [← Reader.runCounting_map, ← readResults_mapPath]
    rfl

namespace Response

theorem decode_under (req : Request) (buf : List UInt8) (c : Option String) :
    decode req buf c = under c <$> decode req buf none := by
  unfold decode
  rw [map_bind]
  congr 1
  funext ⟨xid, zxid, err, offset⟩
  dsimp only
  split
  · -- a transaction reply reads its results under the chroot
    by_cases hoff : offset < buf.length
    · rw [if_pos hoff, if_pos hoff, deserializeResults_mapPath, bind_map_left]
      simp only [map_bind, pure_bind, map_pure]
      rfl
    · rw [if_neg hoff, if_neg hoff]
      rfl
  · -- any other reply reads its record under the chroot
    by_cases herr : err ≠ 0
    · rw [if_pos herr, if_pos herr]
      rfl
    · rw [if_neg herr, if_neg herr]
      split
      · rw [Record.deserialize_setChroot, bind_map_left]
        simp only [map_bind, pure_bind, map_pure]
        rfl
      · rfl

theorem decodeNotification_under (buf : List UInt8) (c : Option String) :
    decodeNotification buf c = under c <$> decodeNotification buf none := by
  unfold decodeNotification
  rw [map_bind]
  congr 1
  funext ⟨xid, zxid, err, offset⟩
  dsimp only
  by_cases hx : xid ≠ -1
  · rw [if_pos hx, if_pos hx]
    rfl
  · rw [if_neg hx, if_neg hx, Record.deserialize_setChroot, bind_map_left, map_bind]
    rfl

end Response

/-! ### Writing under a chroot -/

theorem Record.encodeAll_congr {rs qs : List Record} (h : rs.map encode = qs.map encode) :
    encodeAll rs = encodeAll qs := by
  induction rs generalizing qs with
  | nil =>
    cases qs with
    | nil => rfl
    | cons q qs => cases h
  | cons r rs ih =>
    cases qs with
    | nil => cases h
    | cons q qs =>
      obtain ⟨hrq, hrest⟩ := List.cons.inj h
      rw [encodeAll_cons, encodeAll_cons, hrq, ih hrest]

/-- An operation's record under a chroot has the bytes of the operation with its path as sent,
under none. -/
theorem Op.encode_setChroot (op : Op) (c : Option String) :
    (op.toRecord.setChroot c).encode =
      ((op.mapPath (sentPath c)).toRecord.setChroot none).encode := by
  have hs : (op.toRecord.setChroot c).schema =
      ((op.mapPath (sentPath c)).toRecord.setChroot none).schema := by
    cases op <;> rfl
  rw [Record.encode_eq_outgoing, Record.encode_eq_outgoing, hs, outgoing_setChroot]
  rfl

theorem Op.mapPath_id (op : Op) : op.mapPath (fun p => p) = op := by
  cases op <;> rfl

theorem Transaction.serialize_eq_of_encodeAll {t t' : Transaction}
    (h : Record.encodeAll t.records = Record.encodeAll t'.records) (buf : List UInt8) (off : Nat) :
    t.serialize buf off = t'.serialize buf off := by
  obtain ⟨bs, hbs⟩ := Record.encodeAll_ok (Transaction.admitted_records t)
  rw [serialize_of_encode hbs, serialize_of_encode (h ▸ hbs)]

/-- Serializing a transaction under a chroot writes the bytes of its operations with their paths
as sent, under no chroot. -/
theorem Transaction.serialize_sentPath (ops : List Op) (c : Option String) (buf : List UInt8)
    (off : Nat) :
    (⟨ops, c⟩ : Transaction).serialize buf off =
      (⟨ops.map (Op.mapPath (sentPath c)), none⟩ : Transaction).serialize buf off := by
  refine serialize_eq_of_encodeAll (Record.encodeAll_congr ?_) buf off
  simp only [records, List.map_append, List.map_flatMap, List.flatMap_map, List.map_cons,
    List.map_nil, Op.opCode_mapPath]
  congr 2
  funext op
  rw [Op.encode_setChroot]

/-! ### The empty chroot and the root -/

theorem Record.setChroot_empty (r : Record) : r.setChroot (some "") = r.setChroot none := rfl

theorem Request.setChroot_empty (r : Request) : r.setChroot (some "") = r.setChroot none := rfl

theorem Request.setChroot_root (r : Request) : r.setChroot (some "/") = r.setChroot none := rfl

theorem deserializeResults_empty_chroot (buf : List UInt8) (off : Nat) :
    deserializeResults buf off (some "") = deserializeResults buf off none := by
  have hid : (fun p : List OpResult × Nat =>
      (p.1.map (OpResult.mapPath (strippedPath (some ""))), p.2)) = id := by
    funext ⟨rs, n⟩
    have hr : OpResult.mapPath (strippedPath (some "")) = id := by
      funext r
      cases r <;> rfl
    rw [hr, List.map_id]
    rfl
  rw [deserializeResults_mapPath, hid, id_map]

theorem Response.decode_empty_chroot (req : Request) (buf : List UInt8) :
    decode req buf (some "") = decode req buf none := by
  simp only [decode, Record.setChroot_empty, deserializeResults_empty_chroot]

theorem Response.decodeNotification_empty_chroot (buf : List UInt8) :
    decodeNotification buf (some "") = decodeNotification buf none := by
  simp only [decodeNotification, Record.setChroot_empty]

theorem Transaction.serialize_empty_chroot (ops : List Op) (buf : List UInt8) (off : Nat) :
    (⟨ops, some ""⟩ : Transaction).serialize buf off =
      (⟨ops, none⟩ : Transaction).serialize buf off := by
  have hops : ∀ c : Option String, c.filter (· ≠ "") = none →
      ops.map (Op.mapPath (sentPath c)) = ops := by
    intro c hc
    have hs : sentPath c = fun p => p := by
      funext p
      rw [sentPath, hc]
    rw [hs, funext Op.mapPath_id, List.map_id']
  rw [serialize_sentPath, hops (some "") rfl, ← hops none rfl, ← serialize_sentPath]

/-- Under the root chroot, a path other than the root is written with a second slash in
front. -/
theorem sentPath_root {p : String} (hp : p ≠ "/") : sentPath (some "/") p = "/" ++ p := by
  show prependChroot "/" p = "/" ++ p
  rw [prependChroot, if_neg hp]

/-- Under the root chroot, a path that continues past its leading slash reads without it. -/
theorem strippedPath_root {t : String} (ht : t ≠ "") : strippedPath (some "/") ("/" ++ t) = t :=
  stripChroot_append "/" (by simpa [String.toList_eq_nil_iff] using ht)

/-- **The chroot as an argument.** A request takes the empty chroot and `/` as none. A record,
a transaction and each decoder take the empty chroot as none, and any other chroot, `/`
included, as a chroot. Under any chroot a record writes its values as the chroot rewrites them, a
transaction writes its operations with each path as sent under the chroot, and each decoder reads
what it reads under none and then puts what it read under the chroot, stripping it from every
path it returns. So under `/` each path other than `/` is written with a second slash in front,
`/a` reads as `a`, and `/` stays `/`. -/
theorem empty_and_root_chroots :
    (∀ r : Request, r.setChroot (some "") = r.setChroot none ∧
      r.setChroot (some "/") = r.setChroot none) ∧
    (∀ r : Record, r.setChroot (some "") = r.setChroot none) ∧
    (∀ ops buf off, (⟨ops, some ""⟩ : Transaction).serialize buf off =
      (⟨ops, none⟩ : Transaction).serialize buf off) ∧
    (∀ req buf, Response.decode req buf (some "") = Response.decode req buf none) ∧
    (∀ buf, Response.decodeNotification buf (some "") = Response.decodeNotification buf none) ∧
    (∀ buf off, deserializeResults buf off (some "") = deserializeResults buf off none) ∧
    (∀ (r : Record) (c : Option String), (r.setChroot c).encode =
      FieldType.encodeFields none r.schema.fields (r.setChroot c).outgoing) ∧
    (∀ c ops buf off, (⟨ops, c⟩ : Transaction).serialize buf off =
      (⟨ops.map (Op.mapPath (sentPath c)), none⟩ : Transaction).serialize buf off) ∧
    (∀ c req buf, Response.decode req buf c = Response.under c <$> Response.decode req buf none) ∧
    (∀ c buf, Response.decodeNotification buf c =
      Response.under c <$> Response.decodeNotification buf none) ∧
    (∀ c buf off, deserializeResults buf off c =
      (fun p => (p.1.map (OpResult.mapPath (strippedPath c)), p.2)) <$>
        deserializeResults buf off none) ∧
    (∀ p, p ≠ "/" → sentPath (some "/") p = "/" ++ p) ∧
    (∀ t, t ≠ "" → strippedPath (some "/") ("/" ++ t) = t) ∧
    sentPath (some "/") "/" = "/" ∧ strippedPath (some "/") "/" = "/" :=
  ⟨fun r => ⟨Request.setChroot_empty r, Request.setChroot_root r⟩,
    Record.setChroot_empty,
    Transaction.serialize_empty_chroot,
    Response.decode_empty_chroot,
    Response.decodeNotification_empty_chroot,
    deserializeResults_empty_chroot,
    fun r c => Record.encode_eq_outgoing (r.setChroot c),
    fun c ops => Transaction.serialize_sentPath ops c,
    fun c req buf => Response.decode_under req buf c,
    fun c buf => Response.decodeNotification_under buf c,
    fun c buf off => deserializeResults_mapPath buf off c,
    fun _ hp => sentPath_root hp,
    fun _ ht => strippedPath_root ht,
    rfl, rfl⟩

/-- A transaction reply that creates `/a`, read under the root chroot, gives the path `a`. -/
theorem created_path_under_root_chroot :
    deserializeResults [0, 0, 0, 1, 0, 0, 0, 0, 0, 0, 0, 0, 2, 0x2f, 0x61,
      0xff, 0xff, 0xff, 0xff, 1, 0xff, 0xff, 0xff, 0xff] 0 (some "/")
      = .ok ([.created "a"], 24) := by
  rfl

end Ensemble
