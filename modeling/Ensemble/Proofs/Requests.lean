import Ensemble.Proofs.Retries
import Ensemble.Proofs.RequestCodec

/-! # The requests of the calls

Before a call sends anything it checks its arguments; what it then sends is one request
(`Client.Call.request`), under the configured chroot. This module says what such a request is
once the checks have passed, whatever the arguments:

* its body fits its operation: a record of the operation's request class, or a transaction for
  `multi` (`Call.fits_request`);
* every record of the body, each operation's record for a transaction, is `Record.Checked`: it
  names a path that passes the path check, holds at most `dataLimit` bytes of data, and carries
  a nonempty ACL list where it carries one (`Call.checked_request`);
* with the chroot of a configuration, which is none or a path other than the root
  (`ConfigSettings.chroot_of_build`), the request carries that chroot, its frame is read back as
  the request with its body as the server sees it, and every path the server sees is a checked
  path under the chroot (`Call.sound_request`).

A call whose checks fail fails with an invalid argument (`Call.validate_error`).

Reading a frame back needs every length the body carries on the wire to be below `2 ^ 31`, which
a path of unbounded length can pass (`Request.decode_of_fits`).
-/

namespace Ensemble

/-- What the client checks of a record before it sends it: the record names a path that passes
the path check, holds at most `dataLimit` bytes of data, and carries a nonempty ACL list where it
carries one. -/
structure Record.Checked (r : Record) : Prop where
  path : ∃ p, r.getUString pathField = .ok (some p) ∧ Path.validate p = .ok ()
  data : ∀ d, r.getBuffer "data" = .ok (some d) → d.length ≤ Client.dataLimit
  acls : ∀ items, r.getVector "acl" = .ok items → ∃ l, items = some l ∧ l ≠ []

/-- A record's fields are read from its values, which the chroot leaves alone. -/
theorem Record.Checked.setChroot {r : Record} (h : r.Checked) (c : Option String) :
    (r.setChroot c).Checked :=
  ⟨h.path, h.data, h.acls⟩

namespace RequestPayload

/-- The records a body carries: the record itself, or each operation's record for a
transaction. -/
def records : RequestPayload → List Record
  | .empty => []
  | .record rec => [rec]
  | .transaction t => t.ops.map Op.toRecord

/-- The paths a body names, one per record. -/
def paths (p : RequestPayload) : List String :=
  p.records.filterMap fun r =>
    match r.getUString pathField with
    | .ok (some s) => some s
    | _ => none

/-- The paths of checked records pass the path check. -/
theorem validate_of_mem_paths {p : RequestPayload} (h : ∀ r ∈ p.records, r.Checked) :
    ∀ s ∈ p.paths, Path.validate s = .ok () := by
  intro s hs
  obtain ⟨r, hr, hrs⟩ := List.mem_filterMap.mp hs
  obtain ⟨p', hp', hv⟩ := (h r hr).path
  rw [hp'] at hrs
  cases hrs
  exact hv

theorem paths_transaction (t : Transaction) :
    (RequestPayload.transaction t).paths = t.ops.map Op.path := by
  simp only [paths, records, List.filterMap_map]
  rw [← List.filterMap_eq_map]
  congr 1
  funext op
  have h : op.toRecord.getUString pathField = .ok (some op.path) := by cases op <;> rfl
  simp only [Function.comp_apply, h]

end RequestPayload

theorem Op.path_mapPath (f : String → String) (op : Op) : (op.mapPath f).path = f op.path := by
  cases op <;> rfl

namespace Request

/-- The chroot does not change the records of a body, only where they are sent. -/
theorem checked_setChroot {q : Request} (h : ∀ r ∈ q.payload.records, r.Checked)
    (c : Option String) : ∀ r ∈ (q.setChroot c).payload.records, r.Checked := by
  obtain ⟨x, op, p, ch⟩ := q
  cases p with
  | empty => exact h
  | record rec =>
    show ∀ r ∈ [rec.setChroot _], r.Checked
    simp only [List.mem_singleton, forall_eq]
    exact (h rec List.mem_cons_self).setChroot _
  | transaction t => exact h

theorem fits_setChroot {q : Request} (h : q.payload.Fits q.op) (c : Option String) :
    (q.setChroot c).payload.Fits (q.setChroot c).op := by
  obtain ⟨x, op, p, ch⟩ := q
  cases p with
  | empty => exact h
  | record rec => exact h
  | transaction t => exact h

/-- A body read back under a chroot does not depend on the chroot it was stored with. -/
theorem sentUnder_setChroot (q : Request) (c d : Option String) :
    (q.setChroot c).payload.sentUnder d = q.payload.sentUnder d := by
  obtain ⟨x, op, p, ch⟩ := q
  cases p <;> rfl

/-- A body that fits its operation has bytes under any chroot. -/
theorem encode_of_fits {op : OpCode} {p : RequestPayload} (hp : p.Fits op) (x : Int32)
    (c : Option String) :
    ∃ pb, (({ xid := x, op := op, payload := p } : Request).setChroot c).payload.encode = .ok pb := by
  cases p with
  | empty => exact ⟨[], rfl⟩
  | record rec => exact Record.encode_ok hp.2.2
  | transaction t => exact Record.encodeAll_ok (Transaction.admitted_records _)

/-- What the client promises of each request it hands to the session under the chroot `c`. -/
structure Sound (c : Option String) (q : Request) : Prop where
  /-- The body is a record of the operation's request class, or a transaction for `multi`. -/
  fits : q.payload.Fits q.op
  /-- Each record of the body names a checked path, holds at most `dataLimit` bytes of data,
  and carries a nonempty ACL list where it carries one. -/
  checked : ∀ r ∈ q.payload.records, r.Checked
  /-- The request carries the chroot. -/
  chroot : q.chroot = c
  /-- Its frame is read back as the request with its body as the server sees it, when every
  length that body carries is below `2 ^ 31`. -/
  frame : ∃ bytes, q.toBytes = .ok (BigEndian.digits 4 bytes.length ++ bytes) ∧
    ((q.payload.sentUnder c).Bounded →
      decode bytes = .ok { xid := q.xid, op := q.op, payload := q.payload.sentUnder c })
  /-- Every path the server sees is a checked path under the chroot. -/
  wire : ∀ w ∈ (q.payload.sentUnder c).paths, ∃ p, Path.validate p = .ok () ∧ w = sentPath c p

end Request

namespace Client

theorem checkData_ok {d : Option (List UInt8)} (h : checkData d = .ok ()) :
    ∀ x, d = some x → x.length ≤ dataLimit := by
  rintro x rfl
  simp only [checkData] at h
  split at h
  · cases h
  · omega

theorem checkAcls_ok {a : List Acl} (h : checkAcls a = .ok ()) : a ≠ [] := by
  rintro rfl
  cases h

end Client

theorem Op.checked_toRecord {op : Op} (h : op.validate = .ok ()) : op.toRecord.Checked := by
  cases op with
  | create p d a md =>
    obtain ⟨⟨⟩, hp, h⟩ := Except.bind_eq_ok.mp h
    obtain ⟨⟨⟩, hd, ha⟩ := Except.bind_eq_ok.mp h
    refine ⟨⟨p, rfl, hp⟩, fun x hx => Client.checkData_ok hd x (Except.ok.inj hx),
      fun items hi => ?_⟩
    cases hi
    exact ⟨_, rfl, by simpa using Client.checkAcls_ok ha⟩
  | delete p v => exact ⟨⟨p, rfl, h⟩, fun _ h => (nomatch h), fun _ h => (nomatch h)⟩
  | setData p d v =>
    obtain ⟨⟨⟩, hp, hd⟩ := Except.bind_eq_ok.mp h
    exact ⟨⟨p, rfl, hp⟩, fun x hx => Client.checkData_ok hd x (Except.ok.inj hx),
      fun _ h => (nomatch h)⟩
  | check p v => exact ⟨⟨p, rfl, h⟩, fun _ h => (nomatch h), fun _ h => (nomatch h)⟩

theorem List.forM_except_ok {α : Type} {f : α → Except Error Unit} :
    ∀ {l : List α}, l.forM f = .ok () → ∀ a ∈ l, f a = .ok ()
  | [], _ => fun _ h => nomatch h
  | a :: l, h => by
    obtain ⟨⟨⟩, ha, hl⟩ := Except.bind_eq_ok.mp h
    intro b hb
    rcases List.mem_cons.mp hb with rfl | hb
    · exact ha
    · exact List.forM_except_ok hl b hb

/-! ### The configured chroot -/

/-- A connect string's chroot is none or a path other than the root. -/
theorem ConnectString.chroot_of_parse {s : String} {cs : ConnectString}
    (h : ConnectString.parse s = .ok cs) :
    cs.chroot = none ∨ ∃ c, cs.chroot = some c ∧ Path.validate c = .ok () ∧ c ≠ "/" := by
  unfold ConnectString.parse at h
  simp only [bind, Except.bind] at h
  split at h
  · cases h
  · split at h
    · cases h
    · simp only [pure, Except.pure] at h
      -- what follows the servers: nothing or `/` is no chroot, anything else must be a path
      split at h
      · cases h
        exact .inl rfl
      · cases h
        exact .inl rfl
      · rename_i hnil hslash
        split at h
        · rename_i hv
          cases h
          refine .inr ⟨_, rfl, hv, fun hroot => hslash ?_⟩
          simpa using congrArg String.toList hroot
        · cases h

theorem ConfigSettings.chroot_of_build {s : ConfigSettings} {cfg : ClientConfig}
    (h : s.build = .ok cfg) :
    cfg.chroot = none ∨ ∃ c, cfg.chroot = some c ∧ Path.validate c = .ok () ∧ c ≠ "/" := by
  unfold ConfigSettings.build at h
  obtain ⟨cs, hcs, h⟩ := Except.bind_eq_ok.mp h
  simp only [bind, Except.bind] at h
  split at h
  · cases h
  · split at h
    · cases h
    · simp only [pure, Except.pure] at h
      cases h
      exact ConnectString.chroot_of_parse hcs

/-- A chroot that passes the path check is not empty. -/
theorem chroot_ne_empty {c : Option String}
    (hc : c = none ∨ ∃ s, c = some s ∧ Path.validate s = .ok () ∧ s ≠ "/") :
    ∀ s, c = some s → s ≠ "" := by
  rintro s rfl rfl
  rcases hc with h | ⟨s, hs, hv, -⟩
  · cases h
  · cases hs
    cases hv

/-- A chroot that is none or a path other than the root is kept as it is by a request. -/
theorem filter_chroot {c : Option String}
    (hc : c = none ∨ ∃ s, c = some s ∧ Path.validate s = .ok () ∧ s ≠ "/") :
    c.filter (fun s => s ≠ "" && s ≠ "/") = c := by
  have hne := chroot_ne_empty hc
  rcases hc with rfl | ⟨s, rfl, -, hroot⟩
  · rfl
  · simp [Option.filter, hne s rfl, hroot]

/-! ### Checks that fail with an invalid argument -/

/-- A check that fails only with an invalid argument. -/
def Client.Refuses (x : Except Error Unit) : Prop :=
  ∀ e, x = .error e → ∃ a, e = .invalidArgument a

theorem Client.Refuses.bind {x y : Except Error Unit} (hx : Client.Refuses x)
    (hy : Client.Refuses y) : Client.Refuses (x >>= fun _ => y) := by
  intro e h
  cases x with
  | error e' => exact hx e h
  | ok u => exact hy e h

theorem Client.refuses_path (p : String) : Client.Refuses (Path.validate p) := by
  intro e h
  unfold Path.validate at h
  split at h
  · cases h
  · exact ⟨_, (Except.error.inj h).symm⟩

theorem Client.refuses_checkData (d : Option (List UInt8)) : Client.Refuses (Client.checkData d) := by
  intro e h
  unfold Client.checkData at h
  split at h
  · split at h
    · exact ⟨_, (Except.error.inj h).symm⟩
    · cases h
  · cases h

theorem Client.refuses_checkAcls (a : List Acl) : Client.Refuses (Client.checkAcls a) := by
  intro e h
  unfold Client.checkAcls at h
  split at h
  · exact ⟨_, (Except.error.inj h).symm⟩
  · cases h

theorem Op.refuses_validate (op : Op) : Client.Refuses op.validate := by
  cases op with
  | create p d a md =>
    exact (Client.refuses_path p).bind ((Client.refuses_checkData d).bind (Client.refuses_checkAcls a))
  | setData p d v => exact (Client.refuses_path p).bind (Client.refuses_checkData d)
  | delete p v | check p v => exact Client.refuses_path p

namespace Client.Call

theorem fits_request (call : Call) : call.request.payload.Fits call.request.op := by
  cases call with
  | create p d a md => exact ⟨nofun, rfl, Op.admitted_toRecord _⟩
  | remove p v => exact ⟨nofun, rfl, Op.admitted_toRecord _⟩
  | setData p d v => exact ⟨nofun, rfl, Op.admitted_toRecord _⟩
  | getData p w => exact ⟨nofun, rfl, trivial, trivial, trivial⟩
  | setAcl p a v => exact ⟨nofun, rfl, trivial, Acl.admits_toVector a, trivial, trivial⟩
  | getAcl p => exact ⟨nofun, rfl, trivial, trivial⟩
  | «exists» p w => exact ⟨nofun, rfl, trivial, trivial, trivial⟩
  | getChildren p w => exact ⟨nofun, rfl, trivial, trivial, trivial⟩
  | sync p => exact ⟨nofun, rfl, trivial, trivial⟩
  | commit ops => rfl

theorem checked_request {call : Call} (hv : call.validate = .ok ()) :
    ∀ r ∈ call.request.payload.records, r.Checked := by
  cases call with
  | commit ops =>
    intro r hr
    obtain ⟨op, hop, rfl⟩ := List.mem_map.mp hr
    exact Op.checked_toRecord (List.forM_except_ok hv op hop)
  | create p d a md | remove p v | setData p d v =>
    -- the record of the operation of the same kind, with the same checks
    show ∀ r ∈ [_], Record.Checked r
    simp only [List.mem_singleton, forall_eq]
    exact Op.checked_toRecord hv
  | setAcl p a v =>
    obtain ⟨⟨⟩, hp, ha⟩ := Except.bind_eq_ok.mp hv
    show ∀ r ∈ [_], Record.Checked r
    simp only [List.mem_singleton, forall_eq]
    refine ⟨⟨p, rfl, hp⟩, fun _ h => (nomatch h), fun items hi => ?_⟩
    cases hi
    exact ⟨_, rfl, by simpa using Client.checkAcls_ok ha⟩
  | getData p w | getAcl p | «exists» p w | getChildren p w | sync p =>
    -- a path, and no data or ACL list
    show ∀ r ∈ [_], Record.Checked r
    simp only [List.mem_singleton, forall_eq]
    exact ⟨⟨p, rfl, hv⟩, fun _ h => (nomatch h), fun _ h => (nomatch h)⟩

theorem refuses_validate (call : Call) : Refuses call.validate := by
  cases call with
  | create p d a md => exact Op.refuses_validate (.create p d a md)
  | setData p d v => exact Op.refuses_validate (.setData p d v)
  | setAcl p a v => exact (refuses_path p).bind (refuses_checkAcls a)
  | commit ops =>
    -- the operations are checked in turn, and the first that fails stops the rest
    induction ops with
    | nil => nofun
    | cons op ops ih => exact (Op.refuses_validate op).bind ih
  | remove p _ | getData p _ | getAcl p | «exists» p _ | getChildren p _ | sync p =>
    exact refuses_path p

/-- A call that fails its checks fails with an invalid argument. -/
theorem validate_error {call : Call} {e : Error} (h : call.validate = .error e) :
    ∃ a, e = .invalidArgument a :=
  call.refuses_validate e h

/-- The paths the server sees of a call's request are the call's paths under the chroot. -/
theorem paths_sentUnder (call : Call) {c : Option String} (hc : ∀ s, c = some s → s ≠ "") :
    (call.request.payload.sentUnder c).paths = call.request.payload.paths.map (sentPath c) := by
  cases call with
  | commit ops =>
    simp only [request, Request.new, RequestPayload.sentUnder, RequestPayload.paths_transaction,
      List.map_map]
    congr 1
    funext op
    simp [Op.path_mapPath]
  | _ =>
    -- one record, whose path field is the only one the chroot changes
    cases c with
    | none => rfl
    | some c =>
      have hsent : sentPath (some c) = prependChroot c := by
        funext p
        simp [sentPath, Option.filter, hc c rfl]
      rw [hsent]
      rfl

/-- A call's request carries no chroot of its own. -/
theorem request_eq (call : Call) :
    call.request = ⟨call.request.xid, call.request.op, call.request.payload, none⟩ := by
  cases call <;> rfl

/-- **The request of a call whose checks pass**, under the chroot of a configuration: its body
fits its operation and its records are checked; it carries the chroot; its frame is read back
as the request with its body as the server sees it; and every path the server sees is a checked
path under the chroot. -/
theorem sound_request {call : Call} (hv : call.validate = .ok ()) {c : Option String}
    (hc : c = none ∨ ∃ s, c = some s ∧ Path.validate s = .ok () ∧ s ≠ "/") :
    (call.request.setChroot c).Sound c where
  fits := Request.fits_setChroot call.fits_request c
  checked := Request.checked_setChroot (call.checked_request hv) c
  chroot := filter_chroot hc
  frame := by
    obtain ⟨pb, hpb⟩ := Request.encode_of_fits call.fits_request call.request.xid c
    have hdecode := Request.decode_of_fits call.fits_request call.request.xid c hpb
    rw [filter_chroot hc] at hdecode
    rw [← call.request_eq] at hpb
    refine ⟨_, Request.toBytes_of_encode hpb, fun hb => ?_⟩
    rw [Request.sentUnder_setChroot] at hb ⊢
    exact hdecode hb
  wire := by
    intro w hw
    rw [Request.sentUnder_setChroot, paths_sentUnder call (chroot_ne_empty hc)] at hw
    obtain ⟨p, hp, rfl⟩ := List.mem_map.mp hw
    exact ⟨p, RequestPayload.validate_of_mem_paths (call.checked_request hv) p hp, rfl⟩

/-- A read of a path of `2 ^ 31` bytes goes out in a frame whose path prefix is `-2 ^ 31`, which
reading refuses. -/
theorem decode_getData_wrapped {p : String} (hp : p.utf8ByteSize = Nat.pow 2 31)
    (w : Option String) :
    ∃ bytes, ((Call.getData p w).request.setChroot none).toBytes
        = .ok (BigEndian.digits 4 bytes.length ++ bytes) ∧
      Request.decode bytes = .error (.serialization (.badLength (-2147483648))) := by
  have hpb : ((Call.getData p w).request.setChroot none).payload.encode = .ok
      (Writer.bufferBytes (some (Utf8.encode p)) ++ ([if w.isSome then 1 else 0] ++ [])) := rfl
  refine ⟨_, Request.toBytes_of_encode hpb, Request.decode_record_error (by intro h; cases h) rfl
    (Record.deserialize_error ?_ ?_)⟩
  · simp only [List.length_append, Writer.bufferBytes, BigEndian.length_ofInt32]
    omega
  · rw [drop_header, List.append_assoc]
    exact Record.getFields_error (FieldType.getFields_cons_error (FieldType.get_ustring_wrapped hp _))

end Client.Call

end Ensemble
