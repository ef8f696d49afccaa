import Ensemble.Proofs.FieldBounds
import Ensemble.Envelope.Response

/-! # Decoders stay inside their input

Every decoder reads from the front of its input and fails as soon as a read would need more
bytes than are left. `Reader.Takes k r` says that `r`, whenever it succeeds, leaves at least `k`
bytes fewer than it was given; it holds of each primitive for the bytes it reads, and it is
closed under `bind` and `map`, so that:

* `FieldType.get_takes`: reading a value of a type takes at least the least length of the type;
* `FieldType.read_within`, `Record.deserialize_within`: a value or a record read at an offset
  ends inside the buffer;
* `FieldType.get_long_prefix`: a length prefix, or a vector count of a type the protocol names,
  larger than the bytes left fails the read.

The two transaction decoders loop over rounds that each read a nine-byte header
(`HeaderRounds`). A round fails, stops at the terminator, or reads one item and goes on, and it
does so whatever fuel is left (`HeaderRounds.round`). Hence a loop over `n` bytes gives the same
for every fuel above `n / 9` (`HeaderRounds.fuel_stable`), and a successful loop took nine
bytes per item and nine for the terminator (`HeaderRounds.count`).

`decoders_stay_in_buffer` gathers these facts for every decoder of the protocol.
-/

namespace Ensemble

namespace Reader

/-- `r` takes at least `k` bytes: whenever it succeeds, it leaves at least `k` bytes fewer than
it was given. -/
def Takes {α : Type} (k : Nat) (r : Reader α) : Prop :=
  ∀ bs a rest, r bs = .ok (a, rest) → rest.length + k ≤ bs.length

section

variable {α β : Type}

theorem bind_eq_ok {x : Reader α} {f : α → Reader β} {bs rest : List UInt8} {b : β}
    (h : (x >>= f) bs = .ok (b, rest)) : ∃ a mid, x bs = .ok (a, mid) ∧ f a mid = .ok (b, rest) := by
  change (x bs >>= fun p => f p.1 p.2) = _ at h
  cases hx : x bs with
  | error e =>
    rw [hx] at h
    cases h
  | ok p =>
    rw [hx] at h
    exact ⟨p.1, p.2, rfl, h⟩

theorem map_eq_ok {x : Reader α} {f : α → β} {bs rest : List UInt8} {b : β}
    (h : (f <$> x) bs = .ok (b, rest)) : ∃ a, x bs = .ok (a, rest) ∧ f a = b := by
  change (x bs >>= fun p => pure (f p.1, p.2)) = _ at h
  cases hx : x bs with
  | error e =>
    rw [hx] at h
    cases h
  | ok p =>
    rw [hx] at h
    cases h
    exact ⟨p.1, rfl, rfl⟩

theorem runCounting_eq_ok {r : Reader α} {bs : List UInt8} {a : α} {n : Nat}
    (h : runCounting r bs = .ok (a, n)) : ∃ rest, r bs = .ok (a, rest) ∧ n = bs.length - rest.length := by
  unfold runCounting at h
  split at h
  · rename_i a' rest hr
    cases h
    exact ⟨rest, hr, rfl⟩
  · cases h

/-! ### Taking bytes -/

theorem Takes.mono {j k : Nat} {r : Reader α} (h : Takes k r) (hjk : j ≤ k) : Takes j r :=
  fun bs a rest hr => Nat.le_trans (Nat.add_le_add_left hjk _) (h bs a rest hr)

theorem takes_pure (a : α) : Takes 0 (pure a : Reader α) := by
  intro bs b rest h
  cases h
  exact Nat.le_refl _

theorem takes_throw (e : Error) (k : Nat) : Takes k (throw e : Reader α) := by
  intro bs a rest h
  cases h

/-- A step of plain `Except` inside a reader takes nothing. -/
theorem takes_lift (x : Except Error α) : Takes 0 (liftM x : Reader α) := by
  intro bs a rest h
  cases x with
  | error e => cases h
  | ok b =>
    cases h
    exact Nat.le_refl _

theorem Takes.bind {k m : Nat} {x : Reader α} {f : α → Reader β} (hx : Takes k x)
    (hf : ∀ a, Takes m (f a)) : Takes (k + m) (x >>= f) := by
  intro bs b rest h
  obtain ⟨a, mid, h₁, h₂⟩ := bind_eq_ok h
  have := hx bs a mid h₁
  have := hf a mid b rest h₂
  omega

theorem Takes.map {k : Nat} {x : Reader α} (hx : Takes k x) (f : α → β) : Takes k (f <$> x) := by
  intro bs b rest h
  obtain ⟨a, ha, -⟩ := map_eq_ok h
  exact hx bs a rest ha

/-- Counting what a reader took: at least what it takes, and no more than its input. -/
theorem Takes.runCounting {k : Nat} {r : Reader α} (hr : Takes k r) {bs : List UInt8} {a : α}
    {n : Nat} (h : Reader.runCounting r bs = .ok (a, n)) : k ≤ n ∧ n ≤ bs.length := by
  obtain ⟨rest, h₁, rfl⟩ := runCounting_eq_ok h
  have := hr bs a rest h₁
  omega

end

theorem takes_bytes (n : Nat) : Takes n (bytes n) := by
  intro bs a rest h
  unfold bytes at h
  dsimp only at h
  split at h
  · rename_i hlen
    cases h
    simp only [List.length_take, List.length_drop] at hlen ⊢
    omega
  · cases h

theorem takes_int : Takes 4 int :=
  (takes_bytes 4).bind fun _ => takes_pure _

theorem takes_long : Takes 8 long := by
  intro bs a rest h
  unfold long at h
  split at h
  · cases h
    simp
  · cases h

theorem takes_bool : Takes 1 bool :=
  (takes_bytes 1).bind fun _ => takes_pure _

theorem takes_length : Takes 4 length := by
  unfold length
  refine (takes_int.bind fun n => ?_).mono (Nat.le_add_right 4 0)
  split
  · exact takes_pure _
  · split
    · exact takes_throw _ _
    · exact takes_pure _

theorem takes_buffer : Takes 4 buffer := by
  unfold buffer
  refine (takes_length.bind fun n => ?_).mono (Nat.le_add_right 4 0)
  cases n with
  | none => exact takes_pure _
  | some n => exact ((takes_bytes n).map _).mono (Nat.zero_le _)

theorem takes_ustring : Takes 4 ustring := by
  unfold ustring
  refine (takes_buffer.bind fun b => ?_).mono (Nat.le_add_right 4 0)
  cases b with
  | none => exact takes_pure _
  | some bs =>
    dsimp only
    cases Utf8.decode bs with
    | ok s => exact takes_pure _
    | error e => exact takes_throw _ _

/-- Reading `n` values that take `k` bytes each takes `n * k` bytes. -/
theorem takes_times {α : Type} {k : Nat} {r : Reader α} (hr : Takes k r) (n : Nat) :
    Takes (n * k) (times r n) := by
  suffices ∀ n acc bs res rest, times.go r n acc bs = .ok (res, rest) →
      rest.length + n * k ≤ bs.length from fun bs a rest h => this n [] bs a rest h
  intro n
  induction n with
  | zero =>
    intro acc bs res rest h
    cases h
    simp
  | succ n ih =>
    intro acc bs res rest h
    unfold times.go at h
    split at h
    · rename_i a mid hrbs
      have h₁ := hr bs a mid hrbs
      have h₂ := ih _ _ _ _ h
      rw [Nat.succ_mul]
      omega
    · cases h

end Reader

open Reader

/-! ### Values and records -/

mutual

/-- Reading a value of a type takes at least the least length of the type. -/
theorem FieldType.get_takes : (t : FieldType) → Takes t.leastLength t.get
  | .int => takes_int.map _
  | .long => takes_long.map _
  | .buffer => takes_buffer.map _
  | .ustring => takes_ustring.map _
  | .boolean => takes_bool.map _
  | .vector e => by
    rw [FieldType.get]
    refine (takes_length.bind fun n => ?_).mono (Nat.le_add_right 4 0)
    cases n with
    | none => exact takes_pure _
    | some n =>
      exact ((takes_times ((FieldType.get_takes e).mono (Nat.zero_le _)) n).map _).mono
        (Nat.zero_le _)
  | .record (.mk _ _ fs) => (FieldType.getFields_takes fs).map _

/-- Reading a record's fields takes at least their least lengths. -/
theorem FieldType.getFields_takes :
    (fs : List Field) → Takes (Field.leastLengths fs) (FieldType.getFields fs)
  | [] => takes_pure _
  | .mk _ t :: fs =>
    (FieldType.get_takes t).bind fun _ => (FieldType.getFields_takes fs).bind fun _ => takes_pure _

end

/-- Reading into a record's values takes at least the least lengths of its fields, whenever it
succeeds. -/
theorem FieldType.readInto_takes :
    (fs : List Field) → (vs : List Value) → (bs rest : List UInt8) →
      (FieldType.readInto fs vs bs).2 = .ok rest → rest.length + Field.leastLengths fs ≤ bs.length
  | [], _, bs, rest, h => by
    cases h
    simp [Field.leastLengths]
  | .mk _ t :: fs, vs, bs, rest, h => by
    simp only [FieldType.readInto] at h
    split at h
    · cases h
    · rename_i v mid hv
      have h₁ := FieldType.get_takes t bs v mid hv
      have h₂ := FieldType.readInto_takes fs vs.tail mid rest h
      simp only [Field.leastLengths]
      omega

theorem Record.readFields_takes {r r' : Record} {bs rest : List UInt8}
    (h : r.readFields bs = (r', .ok rest)) : rest.length + r.schema.leastLength ≤ bs.length := by
  obtain ⟨⟨m, n, fs⟩, vs, c⟩ := r
  exact FieldType.readInto_takes fs vs bs rest (congrArg Prod.snd h)

theorem Record.getFields_takes (r : Record) : Takes r.schema.leastLength r.getFields := by
  intro bs q rest h
  unfold Record.getFields at h
  split at h
  · rename_i r' rest' hr
    cases h
    exact Record.readFields_takes hr
  · cases h

/-- A value read at an offset takes at least the least length of its type and ends inside the
buffer. -/
theorem FieldType.read_within {t : FieldType} {buf : List UInt8} {off : Nat} {v : Value} {n : Nat}
    (h : t.read buf off = .ok (v, n)) : t.leastLength ≤ n ∧ off + n ≤ buf.length := by
  unfold FieldType.read at h
  split at h
  · cases h
  · have hn := (FieldType.get_takes t).runCounting h
    rw [List.length_drop] at hn
    omega

/-- A record read at an offset takes at least the least length of its class and ends inside
the buffer. -/
theorem Record.deserialize_within {r q : Record} {buf : List UInt8} {off n : Nat}
    (h : r.deserialize buf off = .ok (q, n)) : r.schema.leastLength ≤ n ∧ off + n ≤ buf.length := by
  unfold Record.deserialize at h
  split at h
  · rename_i n' q' hd
    cases h
    unfold Record.deserializeInto at hd
    split at hd
    · cases hd
    · -- the reads succeeded: the count is what they took from the bytes past the offset
      split at hd
      · rename_i r' rest hr
        cases hd
        have hn := Record.readFields_takes hr
        rw [List.length_drop] at hn ⊢
        omega
      · cases hd
  · cases h

/-! ### Lengths beyond the bytes left -/

theorem Reader.bytes_short {n : Nat} {bs : List UInt8} (h : bs.length < n) :
    bytes n bs = .error (.serialization (.shortInput n bs.length)) := by
  unfold bytes
  dsimp only
  rw [if_neg (by simp; omega)]

theorem Reader.length_nonneg {x : Int32} (hx : 0 ≤ x.toInt) (rest : List UInt8) :
    length (BigEndian.ofInt32 x ++ rest) = .ok (some x.toInt.toNat, rest) := by
  have hne : x ≠ -1 := by
    intro h
    rw [h] at hx
    exact absurd hx (by decide)
  have hpos : ¬ x < 0 := by
    rw [Int32.lt_iff_toInt_lt]
    exact Int.not_lt.mpr hx
  rw [length, bind_ok (int_ofInt32 x rest)]
  simp only [hne, hpos, if_false]
  rfl

/-- A buffer whose length prefix is larger than the bytes after it is refused. -/
theorem Reader.buffer_short {x : Int32} (hx : 0 ≤ x.toInt) {rest : List UInt8}
    (hshort : rest.length < x.toInt) :
    buffer (BigEndian.ofInt32 x ++ rest)
      = .error (.serialization (.shortInput x.toInt.toNat rest.length)) := by
  have hb := bytes_short (show rest.length < x.toInt.toNat by omega)
  rw [buffer, bind_ok (length_nonneg hx rest)]
  exact map_error hb

/-- A wire type the protocol names: a primitive, a vector of a type it names, or a class of the
catalog. -/
inductive FieldType.Named : FieldType → Prop
  | int : FieldType.Named .int
  | long : FieldType.Named .long
  | buffer : FieldType.Named .buffer
  | ustring : FieldType.Named .ustring
  | boolean : FieldType.Named .boolean
  | vector {e : FieldType} : e.Named → FieldType.Named (.vector e)
  | record {s : Schema} : s ∈ Catalog.all → FieldType.Named (.record s)

theorem Catalog.leastLength_pos : ∀ s ∈ Catalog.all, 0 < s.leastLength := by
  decide

/-- Every value of a type the protocol names takes a byte or more. -/
theorem FieldType.Named.leastLength_pos {t : FieldType} : t.Named → 0 < t.leastLength
  | .int | .long | .buffer | .ustring | .boolean | .vector _ => Nat.succ_pos _
  | .record hs => Catalog.leastLength_pos _ hs

/-- A length prefix of a buffer or a string, or the count of a vector whose items take a byte
or more, larger than the bytes after it fails the read. -/
theorem FieldType.get_long_prefix {x : Int32} (hx : 0 ≤ x.toInt) {rest : List UInt8}
    (hshort : rest.length < x.toInt) :
    (∃ e, FieldType.buffer.get (BigEndian.ofInt32 x ++ rest) = .error e) ∧
      (∃ e, FieldType.ustring.get (BigEndian.ofInt32 x ++ rest) = .error e) ∧
      ∀ el : FieldType, 0 < el.leastLength →
        ∃ e, (FieldType.vector el).get (BigEndian.ofInt32 x ++ rest) = .error e := by
  have hb := Reader.buffer_short hx hshort
  refine ⟨⟨_, map_error hb⟩, ⟨_, map_error (bind_error hb)⟩, fun el hel => ?_⟩
  rw [FieldType.get, bind_ok (length_nonneg hx rest)]
  dsimp only
  -- `x` items of at least a byte each cannot come out of fewer bytes
  cases ht : times el.get x.toInt.toNat rest with
  | ok p =>
    have := takes_times (el.get_takes.mono hel) x.toInt.toNat rest p.1 p.2 ht
    omega
  | error e => exact ⟨e, map_error ht⟩

/-! ### Loops of header-led rounds -/

theorem readHeader_takes : Takes 9 readHeader :=
  (((Record.new Catalog.multiHeader).getFields_takes).bind fun r =>
    (takes_lift _).bind fun done => by
      split
      · exact takes_pure _
      · exact (takes_lift _).bind fun _ => (takes_lift _).map _).mono (by decide)

/-- A loop of rounds led by a header: without fuel it stops; otherwise it reads a header, stops
on the terminator, and on a header naming an operation reads that operation's item by `body`
and goes on. -/
def HeaderRounds {β : Type} (loop : Nat → List β → Reader (List β))
    (body : OpCode → Reader β) : Prop :=
  (∀ acc, loop 0 acc = pure acc.reverse) ∧
  ∀ fuel acc, loop (fuel + 1) acc = readHeader >>= fun h =>
    match h with
    | none => pure acc.reverse
    | some op => body op >>= fun b => loop fuel (b :: acc)

section

variable {β : Type} {loop : Nat → List β → Reader (List β)} {body : OpCode → Reader β}

/-- One round, with fuel left: it fails, stops after at least nine bytes, or reads an item in at
least nine bytes and goes on; which one, and how, does not depend on the fuel. -/
theorem HeaderRounds.round (hl : HeaderRounds loop body) (hb : ∀ op, Takes 0 (body op))
    (acc : List β) (bs : List UInt8) :
    (∃ e, ∀ fuel, loop (fuel + 1) acc bs = .error e) ∨
      (∃ rest, rest.length + 9 ≤ bs.length ∧
        ∀ fuel, loop (fuel + 1) acc bs = .ok (acc.reverse, rest)) ∨
      (∃ b rest, rest.length + 9 ≤ bs.length ∧
        ∀ fuel, loop (fuel + 1) acc bs = loop fuel (b :: acc) rest) := by
  cases hh : readHeader bs with
  | error e => exact .inl ⟨e, fun fuel => by rw [hl.2]; exact bind_error hh⟩
  | ok p =>
    obtain ⟨h, mid⟩ := p
    have h9 := readHeader_takes bs h mid hh
    cases h with
    | none => exact .inr (.inl ⟨mid, h9, fun fuel => by rw [hl.2, bind_ok hh]; rfl⟩)
    | some op =>
      cases hbody : body op mid with
      | error e =>
        exact .inl ⟨e, fun fuel => by rw [hl.2, bind_ok hh]; exact bind_error hbody⟩
      | ok q =>
        obtain ⟨b, rest⟩ := q
        have h0 := hb op mid b rest hbody
        exact .inr (.inr ⟨b, rest, by omega, fun fuel => by
          rw [hl.2, bind_ok hh]
          exact bind_ok hbody⟩)

/-- Past a round per nine bytes, one more round of fuel changes nothing. -/
theorem HeaderRounds.fuel_succ (hl : HeaderRounds loop body) (hb : ∀ op, Takes 0 (body op)) :
    ∀ fuel acc bs, bs.length / 9 < fuel → loop (fuel + 1) acc bs = loop fuel acc bs
  | 0, _, _, h => absurd h (Nat.not_lt_zero _)
  | fuel + 1, acc, bs, h => by
    rcases hl.round hb acc bs with ⟨e, he⟩ | ⟨rest, -, hr⟩ | ⟨b, rest, hlen, hr⟩
    · rw [he, he]
    · rw [hr, hr]
    · rw [hr, hr, HeaderRounds.fuel_succ hl hb fuel (b :: acc) rest (by omega)]

theorem HeaderRounds.fuel_add (hl : HeaderRounds loop body) (hb : ∀ op, Takes 0 (body op))
    {acc : List β} {bs : List UInt8} {fuel : Nat} (h : bs.length / 9 < fuel) :
    ∀ d, loop (fuel + d) acc bs = loop fuel acc bs
  | 0 => rfl
  | d + 1 => by rw [← Nat.add_assoc, hl.fuel_succ hb _ acc bs (by omega), hl.fuel_add hb h d]

/-- A loop over `n` bytes gives the same for every fuel above `n / 9`. -/
theorem HeaderRounds.fuel_stable (hl : HeaderRounds loop body) (hb : ∀ op, Takes 0 (body op))
    {acc : List β} {bs : List UInt8} {f₁ f₂ : Nat} (h₁ : bs.length / 9 < f₁)
    (h₂ : bs.length / 9 < f₂) : loop f₁ acc bs = loop f₂ acc bs := by
  rcases Nat.le_total f₁ f₂ with hle | hle
  · obtain ⟨d, rfl⟩ := Nat.exists_eq_add_of_le hle
    exact (hl.fuel_add hb h₁ d).symm
  · obtain ⟨d, rfl⟩ := Nat.exists_eq_add_of_le hle
    exact hl.fuel_add hb h₂ d

/-- A loop that succeeds with fuel above `n / 9` took nine bytes for each item it read and nine
for the terminator. -/
theorem HeaderRounds.count (hl : HeaderRounds loop body) (hb : ∀ op, Takes 0 (body op)) :
    ∀ fuel acc bs res rest, bs.length / 9 < fuel → loop fuel acc bs = .ok (res, rest) →
      rest.length + 9 * (res.length + 1) ≤ bs.length + 9 * acc.length
  | 0, _, _, _, _, h, _ => absurd h (Nat.not_lt_zero _)
  | fuel + 1, acc, bs, res, rest, hf, h => by
    rcases hl.round hb acc bs with ⟨e, he⟩ | ⟨rest', hlen, hr⟩ | ⟨b, rest', hlen, hr⟩
    · rw [he] at h
      cases h
    · rw [hr] at h
      cases h
      rw [List.length_reverse]
      omega
    · rw [hr] at h
      have := HeaderRounds.count hl hb fuel (b :: acc) rest' res rest (by omega) h
      rw [List.length_cons] at this
      omega

end

/-- The operation a transaction request holds after a header naming `op`. -/
def opBody (op : OpCode) : Reader Op := do
  let s ← Op.schemaOf op
  let r ← (Record.new s).getFields
  Op.ofRecord op r

theorem readOps_rounds : HeaderRounds readOps opBody := by
  refine ⟨fun _ => rfl, fun fuel acc => ?_⟩
  rw [readOps]
  congr 1
  funext h
  cases h with
  | none => rfl
  | some op => simp only [opBody, bind_assoc]

theorem takes_opBody (op : OpCode) : Takes 0 (opBody op) :=
  (takes_lift _).bind fun s => (((Record.new s).getFields_takes).mono (Nat.zero_le _)).bind fun _ =>
    takes_lift _

/-- The result a transaction reply holds after a header naming `op`, read under a chroot. -/
def resultBody (chroot : Option String) : OpCode → Reader OpResult
  | .create => do
    let r ← readBody Catalog.createResponse chroot
    pure (OpResult.created ((← r.getUString "path").getD ""))
  | .delete => pure OpResult.deleted
  | .setData => do
    let r ← readBody Catalog.setDataResponse chroot
    pure (OpResult.dataSet (← Stat.ofRecord (← r.getRecord "stat")))
  | .check => pure OpResult.checked
  | .error => do
    let r ← readBody Catalog.errorResponse chroot
    pure (OpResult.failed (← ExceptionCode.ofValue (← r.getInt "err")))
  | other => throw (.protocol (.unexpectedOp other))

theorem readResults_rounds (c : Option String) : HeaderRounds (readResults c) (resultBody c) := by
  refine ⟨fun _ => rfl, fun fuel acc => ?_⟩
  rw [readResults]
  congr 1
  funext h
  cases h with
  | none => rfl
  | some op => cases op <;> simp only [resultBody, bind_assoc, pure_bind]

theorem takes_readBody (s : Schema) (c : Option String) : Takes 0 (readBody s c) :=
  ((((Record.new s).setChroot c).getFields_takes).mono (Nat.zero_le _)).bind fun _ => takes_pure _

theorem takes_resultBody (c : Option String) (op : OpCode) : Takes 0 (resultBody c op) := by
  cases op
  case create =>
    exact (takes_readBody _ c).bind fun r => (takes_lift _).bind fun _ => takes_pure _
  case delete | check => exact takes_pure _
  case setData =>
    exact (takes_readBody _ c).bind fun r => (takes_lift _).bind fun _ =>
      (takes_lift _).bind fun _ => takes_pure _
  case error =>
    exact (takes_readBody _ c).bind fun r => (takes_lift _).bind fun _ =>
      (takes_lift _).bind fun _ => takes_pure _
  all_goals exact takes_throw _ _

/-! ### Every decoder -/

/-- A transaction request read at an offset ends inside the buffer, after nine bytes for each
operation and nine for the terminator. -/
theorem Transaction.deserialize_within {buf : List UInt8} {off : Nat} {t : Transaction} {n : Nat}
    (h : Transaction.deserialize buf off = .ok (t, n)) :
    off + n ≤ buf.length ∧ 9 * (t.ops.length + 1) ≤ n := by
  obtain ⟨⟨ops, n'⟩, hrun, hp⟩ := Except.map_eq_ok.mp h
  cases hp
  obtain ⟨rest, hops, rfl⟩ := runCounting_eq_ok hrun
  have hc := readOps_rounds.count takes_opBody _ [] _ ops rest (by omega) hops
  simp only [List.length_nil, Nat.mul_zero, Nat.add_zero, List.length_drop] at hc ⊢
  constructor <;> omega

/-- A transaction reply read at an offset ends inside the buffer, after nine bytes for each
result and nine for the terminator. -/
theorem deserializeResults_within {buf : List UInt8} {off : Nat} {c : Option String}
    {rs : List OpResult} {n : Nat} (h : deserializeResults buf off c = .ok (rs, n)) :
    off + n ≤ buf.length ∧ 9 * (rs.length + 1) ≤ n := by
  unfold deserializeResults at h
  split at h
  · cases h
  · obtain ⟨rest, hrs, rfl⟩ := runCounting_eq_ok h
    have hc := (readResults_rounds c).count (takes_resultBody c) _ [] _ rs rest (by omega) hrs
    simp only [List.length_nil, Nat.mul_zero, Nat.add_zero, List.length_drop] at hc ⊢
    constructor <;> omega

theorem Response.readHeader_within {buf : List UInt8} {x : Int32} {z : Long} {e : Int32}
    {off : Nat} (h : Response.readHeader buf = .ok (x, z, e, off)) : 16 ≤ off ∧ off ≤ buf.length := by
  obtain ⟨⟨hd, off'⟩, hdes, h⟩ := Except.bind_eq_ok.mp h
  have hw := Record.deserialize_within hdes
  obtain ⟨_, -, h⟩ := Except.bind_eq_ok.mp h
  obtain ⟨_, -, h⟩ := Except.bind_eq_ok.mp h
  obtain ⟨_, -, h⟩ := Except.bind_eq_ok.mp h
  cases h
  exact ⟨hw.1, by omega⟩

/-- **Decoders stay inside their input.** At any offset into any buffer, under any chroot: a
value of any type, a record of any class and the two transaction codecs, when they succeed,
end inside the buffer, and each transaction round took its nine-byte header; the two
transaction loops give the same for every fuel above a round per nine bytes; a reply or a
notification that decodes held its sixteen-byte header, and a request its eight-byte header.
Wherever a buffer, a string or a vector of a type the protocol names is read, a length or count
larger than the bytes left fails the read. -/
theorem decoders_stay_in_buffer (buf : List UInt8) (off : Nat) (c : Option String) :
    (∀ t v n, FieldType.read t buf off = .ok (v, n) → off + n ≤ buf.length) ∧
    (∀ (r q : Record) n, r.deserialize buf off = .ok (q, n) → off + n ≤ buf.length) ∧
    (∀ t n, Transaction.deserialize buf off = .ok (t, n) →
      off + n ≤ buf.length ∧ 9 * (t.ops.length + 1) ≤ n) ∧
    (∀ rs n, deserializeResults buf off c = .ok (rs, n) →
      off + n ≤ buf.length ∧ 9 * (rs.length + 1) ≤ n) ∧
    (∀ fuel, (buf.drop off).length / 9 < fuel →
      readOps fuel [] (buf.drop off) = readOps ((buf.drop off).length + 1) [] (buf.drop off)) ∧
    (∀ fuel, (buf.drop off).length / 9 < fuel → readResults c fuel [] (buf.drop off)
      = readResults c ((buf.drop off).length + 1) [] (buf.drop off)) ∧
    (∀ req r, Response.decode req buf c = .ok r → 16 ≤ buf.length) ∧
    (∀ r, Response.decodeNotification buf c = .ok r → 16 ≤ buf.length) ∧
    (∀ r, Request.decode buf = .ok r → 8 ≤ buf.length) ∧
    (∀ (x : Int32) (rest : List UInt8), 0 ≤ x.toInt → rest.length < x.toInt →
      (∃ e, FieldType.buffer.get (BigEndian.ofInt32 x ++ rest) = .error e) ∧
      (∃ e, FieldType.ustring.get (BigEndian.ofInt32 x ++ rest) = .error e) ∧
      ∀ el : FieldType, el.Named →
        ∃ e, (FieldType.vector el).get (BigEndian.ofInt32 x ++ rest) = .error e) := by
  refine ⟨fun t v n h => (FieldType.read_within h).2, fun r q n h => (Record.deserialize_within h).2,
    fun t n h => Transaction.deserialize_within h, fun rs n h => deserializeResults_within h,
    fun fuel hf => ?_, fun fuel hf => ?_, fun req r h => ?_, fun r h => ?_, fun r h => ?_,
    fun x rest hx hshort => ?_⟩
  · exact readOps_rounds.fuel_stable takes_opBody hf (by omega)
  · exact (readResults_rounds c).fuel_stable (takes_resultBody c) hf (by omega)
  · obtain ⟨⟨x, z, e, o⟩, hh, -⟩ := Except.bind_eq_ok.mp h
    have := Response.readHeader_within hh
    omega
  · obtain ⟨⟨x, z, e, o⟩, hh, -⟩ := Except.bind_eq_ok.mp h
    have := Response.readHeader_within hh
    omega
  · obtain ⟨⟨hd, o⟩, hdes, -⟩ := Except.bind_eq_ok.mp h
    have := Record.deserialize_within hdes
    have h8 : (Record.new Catalog.requestHeader).schema.leastLength = 8 := by decide
    omega
  · obtain ⟨hb, hs, hv⟩ := FieldType.get_long_prefix hx hshort
    exact ⟨hb, hs, fun el hel => hv el hel.leastLength_pos⟩

/-- A count of five integers with three bytes after it is refused. -/
theorem decoders_stay_in_buffer_vector_count :
    ∃ e, (FieldType.vector .int).get (BigEndian.ofInt32 5 ++ [0, 0, 1]) = .error e :=
  ((decoders_stay_in_buffer [] 0 none).2.2.2.2.2.2.2.2.2 5 [0, 0, 1] (by decide) (by decide)).2.2
    .int .int

end Ensemble
