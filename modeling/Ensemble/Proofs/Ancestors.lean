import Ensemble.Proofs.Served
import Ensemble.Proofs.Chroot
import Ensemble.Client.Tree

/-! # Creating a path with its ancestors

A path other than the root is `pathOf ns` for its names `ns = [s₁, …, sₖ]`: `/s₁/…/sₖ`. Its
ancestors below the root and the path itself are the paths of the nonempty prefixes of `ns`.

* `names_pathOf`: the names of `pathOf ns` are `ns`, for names without a slash that are not
  empty, so `ancestry_pathOf` lists the prefixes `/s₁`, `/s₁/s₂`, …, `/s₁/…/sₖ`;
  `validate_pathOf_take`: each of them is a path when the whole is one.
* `CreatesInTurn`: how creating a list of nodes in turn goes against the answers of a session:
  each node's request is queued again while the answers report a lost connection; a node made or
  already there moves on to the next, and any other failure ends the run with that failure.
* `createEach_run`: the client creates a list of paths that way, from any state of a replayed
  session; `mkdirp_creates_ancestors`: `mkdirp` creates the prefixes of a path that way and
  returns the path, and for the root returns `/` without sending anything.
-/

namespace Ensemble

namespace Path

/-- What comes before a slash inside a tail is a tail. -/
theorem Tail.of_append_left {a b : List Char} (h : Tail (a ++ '/' :: b)) : Tail a := by
  have hnames : ∀ name ∈ a.splitOn '/', isBadName name = false := fun name hn =>
    h.names name (by rw [List.splitOn_append_cons_self]; exact List.mem_append_left _ hn)
  have hempty : isBadName [] = true := rfl
  have ha : a ≠ [] := by
    rintro rfl
    exact absurd (hnames [] (by simp)) (by rw [hempty]; decide)
  refine ⟨ha, fun hl => ?_, hnames, fun ch hc => h.chars ch (List.mem_append_left _ hc)⟩
  -- a slash at the end would leave an empty name after it
  obtain ⟨a', rfl⟩ := List.getLast?_eq_some_iff.mp hl
  have hlast : [] ∈ (a' ++ ['/']).splitOn '/' := by
    rw [List.splitOn_append_cons_self]
    simp
  exact absurd (hnames [] hlast) (by rw [hempty]; decide)

theorem validate_eq_ok_iff {p : String} : validate p = .ok () ↔ isValid p = true := by
  unfold validate isValid
  cases check p <;> simp

end Path

namespace Client

open Ensemble.Path

/-! ### The names of a path -/

theorem toList_pathOf (ns : List String) :
    (pathOf ns).toList = ns.flatMap fun n => '/' :: n.toList := by
  simp [pathOf, List.flatMap_map]

theorem pathOf_append (ns ms : List String) : pathOf (ns ++ ms) = pathOf ns ++ pathOf ms := by
  simp [pathOf]

/-- Names joined each after a slash, behind a piece without a slash, split back at the slashes
into the piece and the names. -/
theorem splitOn_slashes {pre : List Char} (hpre : '/' ∉ pre) {ns : List String}
    (hns : ∀ n ∈ ns, '/' ∉ n.toList) :
    (pre ++ ns.flatMap fun n => '/' :: n.toList).splitOn '/' = pre :: ns.map String.toList := by
  induction ns generalizing pre with
  | nil => simp [List.splitOn_eq_singleton hpre]
  | cons n ns ih =>
    have hn : '/' ∉ n.toList := hns n List.mem_cons_self
    rw [List.flatMap_cons, List.cons_append, List.splitOn_append_cons_self_of_not_mem hpre,
      ih hn fun m hm => hns m (List.mem_cons_of_mem _ hm)]
    rfl

theorem names_pathOf {ns : List String} (hns : ∀ n ∈ ns, '/' ∉ n.toList ∧ n ≠ "") :
    names (pathOf ns) = ns := by
  have hsplit := splitOn_slashes (List.not_mem_nil : '/' ∉ ([] : List Char)) fun n hn => (hns n hn).1
  rw [names, toList_pathOf, ← List.nil_append (List.flatMap _ ns), hsplit, List.drop_one,
    List.tail_cons, List.map_map]
  simp only [Function.comp_def, String.ofList_toList, List.map_id']
  exact List.filter_eq_self.mpr fun n hn => by simpa using (hns n hn).2

theorem names_root : names "/" = [] := by decide

theorem ancestry_pathOf {ns : List String} (hns : ∀ n ∈ ns, '/' ∉ n.toList ∧ n ≠ "") :
    ancestry (pathOf ns) = (List.range ns.length).map fun i => pathOf (ns.take (i + 1)) := by
  simp only [ancestry, names_pathOf hns]

theorem ancestry_root : ancestry "/" = [] := by
  simp only [ancestry, names_root, List.length_nil, List.range_zero, List.map_nil]

/-- Each nonempty prefix of the names of a path is a path. -/
theorem validate_pathOf_take {ns : List String} (hp : Path.validate (pathOf ns) = .ok ())
    {i : Nat} (hi : 0 < i) : Path.validate (pathOf (ns.take i)) = .ok () := by
  rcases Nat.lt_or_ge i ns.length with hlt | hge
  · -- the prefix is followed by a slash and the names after it
    have htake_ne : ns.take i ≠ [] := List.ne_nil_of_length_pos (by rw [List.length_take]; omega)
    have hdrop_ne : ns.drop i ≠ [] := List.ne_nil_of_length_pos (by rw [List.length_drop]; omega)
    obtain ⟨m, ms, hm⟩ := List.exists_cons_of_ne_nil htake_ne
    obtain ⟨d, ds, hd⟩ := List.exists_cons_of_ne_nil hdrop_ne
    have htake : (pathOf (ns.take i)).toList =
        '/' :: (m.toList ++ ms.flatMap fun n => '/' :: n.toList) := by
      rw [toList_pathOf, hm, List.flatMap_cons, List.cons_append]
    have hall : (pathOf ns).toList = '/' :: ((m.toList ++ ms.flatMap fun n => '/' :: n.toList) ++
        '/' :: (d.toList ++ ds.flatMap fun n => '/' :: n.toList)) := by
      rw [← List.take_append_drop i ns, pathOf_append, String.toList_append, htake,
        toList_pathOf (ns.drop i), hd, List.flatMap_cons, List.cons_append, List.cons_append]
    have hwhole := (isValid_slash hall (by simp)).mp (validate_eq_ok_iff.mp hp)
    exact validate_eq_ok_iff.mpr (isValid_of_tail htake hwhole.of_append_left)
  · rwa [List.take_of_length_le hge]

theorem checkData_of_le {data : Option (List UInt8)}
    (h : ∀ d, data = some d → d.length ≤ dataLimit) : checkData data = .ok () := by
  cases data with
  | none => rfl
  | some d =>
    have hd := h d rfl
    simp only [checkData]
    rw [if_neg (by omega)]

theorem checkAcls_of_ne_nil {acls : List Acl} (h : acls ≠ []) : checkAcls acls = .ok () := by
  simp [checkAcls, h]

/-! ### Creating nodes in turn -/

open Replay

/-- An outcome after which a call over several nodes goes on to the next: a success, or the
failure `code` (a node to create that exists already, a node to remove that is gone). -/
def OkOr (code : ExceptionCode) {α : Type} : Except Error α → Prop
  | .ok _ => True
  | .error e => e.code? = some code

theorem not_okOr {code : ExceptionCode} {α : Type} {r : Except Error α} (h : ¬ OkOr code r) :
    ∃ e, r = .error e ∧ e.code? ≠ some code := by
  cases r with
  | ok a => exact absurd trivial h
  | error e => exact ⟨e, rfl, h⟩

theorem okOr_map {code : ExceptionCode} {α β : Type} (f : α → β) (r : Except Error α) :
    OkOr code (f <$> r) ↔ OkOr code r := by
  cases r <;> exact Iff.rfl

theorem run_discard {σ α : Type} {x : ExceptT Error (StateM σ) α} {s t : σ} {r : Except Error α}
    (hx : x.run.run s = (r, t)) : (discard x).run.run s = ((fun _ => ()) <$> r, t) := by
  rw [discard_eq]
  cases r with
  | ok a =>
    rw [run_bind_ok hx]
    rfl
  | error e =>
    rw [run_bind_error hx]
    rfl

/-- A step that passes over the failure `code` goes on after a success or that failure. -/
theorem run_tolerant_ok {σ : Type} {code : ExceptionCode} {x : ExceptT Error (StateM σ) Unit}
    {s t : σ} {r : Except Error Unit} (hx : x.run.run s = (r, t)) (hr : OkOr code r) :
    (tryCatch x fun e => if e.code? = some code then pure () else throw e).run.run s =
      (.ok (), t) := by
  cases r with
  | ok u => exact run_tryCatch_ok hx
  | error e =>
    have he : e.code? = some code := hr
    rw [run_tryCatch_error hx, if_pos he]
    rfl

/-- A step that passes over the failure `code` stops at any other failure. -/
theorem run_tolerant_error {σ : Type} {code : ExceptionCode} {x : ExceptT Error (StateM σ) Unit}
    {s t : σ} {e : Error} (hx : x.run.run s = (.error e, t)) (he : e.code? ≠ some code) :
    (tryCatch x fun e => if e.code? = some code then pure () else throw e).run.run s =
      (.error e, t) := by
  rw [run_tryCatch_error hx, if_neg he]
  rfl

/-- How creating the nodes `qs` in turn goes against the answers `answers`, with the requests
`sent` queued and the outcome `res`. Each node's request is queued under the chroot until the
retries stop (`Retried`), and the node's outcome is what the create call answers to the last
answer: made or already there, the next node follows with the answers after it; any other
failure ends the run with that failure. -/
inductive CreatesInTurn (cfg : ClientConfig) (data : Option (List UInt8)) (acls : List Acl)
    (mode : CreateMode) :
    List String → (Nat → Except Error Response) → List Request → Except Error Unit → Prop where
  | done (answers : Nat → Except Error Response) :
      CreatesInTurn cfg data acls mode [] answers [] (.ok ())
  | next {q : String} {qs : List String} {answers : Nat → Except Error Response} {m : Nat}
      {sent : List Request} {res : Except Error Unit}
      (hm : Retried cfg.retry.retries (fun i => lostConnection (answers i)) m)
      (hgo : OkOr .nodeExists ((Call.create q data acls mode).answerTo cfg (answers m)))
      (hrest : CreatesInTurn cfg data acls mode qs (fun i => answers (m + 1 + i)) sent res) :
      CreatesInTurn cfg data acls mode (q :: qs) answers
        (List.replicate (m + 1) ((Call.create q data acls mode).request.setChroot cfg.chroot) ++
          sent) res
  | stop {q : String} {qs : List String} {answers : Nat → Except Error Response} {m : Nat}
      {e : Error} (hm : Retried cfg.retry.retries (fun i => lostConnection (answers i)) m)
      (he : (Call.create q data acls mode).answerTo cfg (answers m) = .error e)
      (hstop : e.code? ≠ some .nodeExists) :
      CreatesInTurn cfg data acls mode (q :: qs) answers
        (List.replicate (m + 1) ((Call.create q data acls mode).request.setChroot cfg.chroot))
        (.error e)

section Create

variable (cfg : ClientConfig) {data : Option (List UInt8)} {acls : List Acl} (mode : CreateMode)

/-- One create call whose checks pass, from any state of a replayed session. -/
theorem create_run_from {q : String} (hq : Path.validate q = .ok ())
    (hd : checkData data = .ok ()) (ha : checkAcls acls = .ok ()) (s : Replay) :
    ∃ m, Retried cfg.retry.retries (fun i => lostConnection (s.answers (s.sent.length + i))) m ∧
      ((client cfg).create q data acls mode).run.run s =
        ((Call.create q data acls mode).answerTo cfg (s.answers (s.sent.length + m)),
          { s with sent := (s.sent ++ List.replicate (m + 1)
            ((Call.create q data acls mode).request.setChroot cfg.chroot)) }) := by
  have hv : (Call.create q data acls mode).validate = .ok () := by
    show (do Path.validate q; checkData data; checkAcls acls : Except Error Unit) = .ok ()
    rw [hq, hd, ha]
    rfl
  exact Call.run_from hv cfg s

/-- `createEach` creates its nodes in turn, from any state of a replayed session. -/
theorem createEach_run (hd : checkData data = .ok ()) (ha : checkAcls acls = .ok ())
    (qs : List String) (hqs : ∀ q ∈ qs, Path.validate q = .ok ()) (s : Replay) :
    ∃ sent res, CreatesInTurn cfg data acls mode qs (fun i => s.answers (s.sent.length + i))
        sent res ∧
      ((client cfg).createEach data acls mode qs).run.run s = (res, { s with sent := s.sent ++ sent }) := by
  -- induction on the nodes, from the session as the call before left it
  induction qs generalizing s with
  | nil => exact ⟨[], .ok (), .done _, by simp only [List.append_nil]; rfl⟩
  | cons q qs ih =>
    obtain ⟨m, hm, hrun⟩ := create_run_from cfg mode (hqs q List.mem_cons_self) hd ha s
    let req := (Call.create q data acls mode).request.setChroot cfg.chroot
    let t : Replay := { s with sent := s.sent ++ List.replicate (m + 1) req }
    have hstep := run_discard hrun
    by_cases hc : OkOr .nodeExists ((Call.create q data acls mode).answerTo cfg
        (s.answers (s.sent.length + m)))
    · -- a node made or already there: the rest go on from the state the call left
      have hshift : (fun i => t.answers (t.sent.length + i)) =
          fun i => s.answers (s.sent.length + (m + 1 + i)) := by
        funext i
        simp only [t, List.length_append, List.length_replicate, Nat.add_assoc]
      obtain ⟨sent, res, hrel, hrest⟩ := ih (fun q' hq' => hqs q' (List.mem_cons_of_mem _ hq')) t
      rw [hshift] at hrel
      refine ⟨List.replicate (m + 1) req ++ sent, res, .next hm hc hrel, ?_⟩
      rw [createEach, run_bind_ok (run_tolerant_ok hstep ((okOr_map _ _).mpr hc)), hrest]
      simp only [t, List.append_assoc]
    · obtain ⟨e, ho, he⟩ := not_okOr hc
      refine ⟨List.replicate (m + 1) req, .error e, .stop hm ho he, ?_⟩
      rw [ho] at hstep
      rw [createEach]
      exact run_bind_error (run_tolerant_error hstep he)

end Create

section Mkdirp

variable (cfg : ClientConfig) {data : Option (List UInt8)} {acls : List Acl} (mode : CreateMode)

/-- Under checks that pass, `mkdirp` creates the ancestry of the path and then answers its last
entry, or `/` if it has none. -/
theorem mkdirp_run {p : String} (hp : Path.validate p = .ok ()) (hd : checkData data = .ok ())
    (ha : checkAcls acls = .ok ()) (s : Replay) :
    ((client cfg).mkdirp p data acls mode).run.run s =
      ((client cfg).createEach data acls mode (ancestry p) >>= fun _ =>
        pure ((ancestry p).getLast?.getD "/")).run.run s := by
  simp only [mkdirp, hp, hd, ha, lift_ok, pure_bind]

/-- The last prefix of the names of a path is the path. -/
theorem getLast?_prefixes {ns : List String} (hne : ns ≠ []) :
    ((List.range ns.length).map fun i => pathOf (ns.take (i + 1))).getLast? = some (pathOf ns) := by
  have hlen : ns.length ≠ 0 := by simpa using hne
  rw [List.getLast?_map, List.getLast?_range, if_neg hlen, Option.map_some,
    Nat.sub_add_cancel (Nat.pos_of_ne_zero hlen), List.take_length]

/-- `mkdirp` on a path `/s₁/…/sₖ` creates `/s₁`, `/s₁/s₂`, …, `/s₁/…/sₖ` in turn, against any
answers of the session, and answers the path if every one was made or already there, or else
the failure that stopped it; on the root it answers `/` and sends nothing. -/
theorem mkdirp_creates_ancestors (hdata : ∀ d, data = some d → d.length ≤ dataLimit)
    (hacls : acls ≠ []) (answers : Nat → Except Error Response) :
    ((client cfg).mkdirp "/" data acls mode).run.run { answers } = (.ok "/", { answers }) ∧
    ∀ ns : List String, (∀ n ∈ ns, '/' ∉ n.toList ∧ n ≠ "") →
      Path.validate (pathOf ns) = .ok () →
      ∃ sent res, CreatesInTurn cfg data acls mode
          ((List.range ns.length).map fun i => pathOf (ns.take (i + 1))) answers sent res ∧
        ((client cfg).mkdirp (pathOf ns) data acls mode).run.run { answers } =
          ((fun _ => pathOf ns) <$> res, { answers, sent }) := by
  have hd := checkData_of_le hdata
  have ha := checkAcls_of_ne_nil hacls
  constructor
  · -- the root has no names: nothing is created
    have hroot : Path.validate "/" = .ok () := validate_eq_ok_iff.mpr (by decide)
    rw [mkdirp_run cfg mode hroot hd ha, ancestry_root]
    rfl
  · intro ns hns hp
    have hne : ns ≠ [] := by
      rintro rfl
      exact absurd (validate_eq_ok_iff.mp hp) (by decide)
    have hqs : ∀ q ∈ (List.range ns.length).map fun i => pathOf (ns.take (i + 1)),
        Path.validate q = .ok () := by
      simp only [List.mem_map, List.mem_range]
      rintro q ⟨i, -, rfl⟩
      exact validate_pathOf_take hp (Nat.succ_pos i)
    obtain ⟨sent, res, hrel, hrun⟩ := createEach_run cfg mode hd ha _ hqs { answers }
    have hanswers : (fun i => ({ answers } : Replay).answers (([] : List Request).length + i)) =
        answers := by
      funext i
      simp
    rw [hanswers] at hrel
    refine ⟨sent, res, hrel, ?_⟩
    rw [mkdirp_run cfg mode hp hd ha, ancestry_pathOf hns, getLast?_prefixes hne]
    cases res with
    | ok u =>
      rw [run_bind_ok hrun]
      rfl
    | error e =>
      rw [run_bind_error hrun]
      rfl

theorem mkdirp_creates_ancestors_two_levels :
    (∀ d, (none : Option (List UInt8)) = some d → d.length ≤ dataLimit) ∧ Acl.openUnsafe ≠ [] ∧
      (∀ n ∈ ["a", "b"], '/' ∉ n.toList ∧ n ≠ "") ∧ Path.validate (pathOf ["a", "b"]) = .ok () ∧
      ∃ sent res, CreatesInTurn {} none Acl.openUnsafe .persistent
          ((List.range 2).map fun i => pathOf (["a", "b"].take (i + 1)))
          (fun _ => .error (.exception ⟨.nodeExists, none⟩)) sent res ∧
        (((client {}).mkdirp (pathOf ["a", "b"]) none Acl.openUnsafe .persistent).run.run
          { answers := fun _ => .error (.exception ⟨.nodeExists, none⟩) } =
          ((fun _ => pathOf ["a", "b"]) <$> res,
            { answers := fun _ => .error (.exception ⟨.nodeExists, none⟩), sent })) := by
  have hdata : ∀ d, (none : Option (List UInt8)) = some d → d.length ≤ dataLimit := by
    intro d hd
    cases hd
  have hacls : Acl.openUnsafe ≠ [] := by decide
  have hns : ∀ n ∈ ["a", "b"], '/' ∉ n.toList ∧ n ≠ "" := by decide
  have hp : Path.validate (pathOf ["a", "b"]) = .ok () := validate_eq_ok_iff.mpr (by decide)
  exact ⟨hdata, hacls, hns, hp, (mkdirp_creates_ancestors {} .persistent hdata hacls
    (fun _ => .error (.exception ⟨.nodeExists, none⟩))).2 ["a", "b"] hns hp⟩

end Mkdirp

end Client

end Ensemble
