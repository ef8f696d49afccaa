import Ensemble.Proofs.Subtree

/-! # Watchers left by reads

`getData`, `getChildren` and `exists?` take a watcher. Each sends one request whose `watch` field
says whether a watcher is given, and hands the watcher over only after the last reply, only when
that reply passed, and at the path the caller gave, not under the chroot. A reply passes when it
has no failure code, and for `exists?` also when it reports `NO_NODE`, where the watcher waits for
the node to appear. The kind is `data` for `getData`, `child` for `getChildren`, and for
`exists?` `data` when the node is there and `existence` when it is not.

* `ReadEnds`, `ExistsEnds`: how a read ends, by the outcome of its last attempt.
* `getData_watch`, `getChildren_watch`, `exists_watch`: each read ends so, from any state of a
  served session; `reads_register_after_reply` gathers them with the `watch` fields.
* The watcher is handed over before the body of the reply is read, so a reply that passed but
  whose body cannot be read is an error with the watcher left in place
  (`getChildren_unreadable_name_keeps_watcher`).
-/

namespace Ensemble

namespace Client

/-! ### What the last attempt makes of the reply -/

theorem executed_of_attempt_error {p : String} {o : Except Error Response} {e : Error}
    (h : attempt (some p) o = .error e) : Served.executed p o = .error e := by
  simp only [Served.executed, h]
  rfl

theorem executed_of_attempt_ok {p : String} {o : Except Error Response} {r : Response}
    (h : attempt (some p) o = .ok r) :
    Served.executed p o = if r.err = 0 then .ok r else .error (Error.ofCode r.err (some p)) := by
  by_cases h0 : r.err = 0
  · simp only [Served.executed, h, Response.check, h0, if_true, bind, Except.bind]
    rfl
  · simp only [Served.executed, h, Response.check, h0, if_false, bind, Except.bind]

theorem ofValue?_eq_some {v : Int32} {c : ExceptionCode} (h : ExceptionCode.ofValue? v = some c) :
    c.value = v := by
  have := List.find?_some h
  simpa using this

/-- A failure code reads as `NO_NODE` exactly when it is that code's value. -/
theorem ofCode_code?_eq_noNode_iff (v : Int32) (path : Option String) :
    (Error.ofCode v path).code? = some .noNode ↔ v = ExceptionCode.noNode.value := by
  constructor
  · intro h
    unfold Error.ofCode at h
    split at h
    · rename_i c hc
      cases h
      exact (ofValue?_eq_some hc).symm
    · cases h
  · rintro rfl
    rfl

/-! ### How a read ends -/

/-- How a read ends, from the outcome `o` of its last attempt and with `t` the session after its
requests: a lost connection or a request the session refused is the outcome as it is; a reply
with a failure code is that failure, about `path`; a reply without one hands over the watcher
`w`, if any, of kind `kind` at `path`, and then answers what `read` makes of the reply. -/
def ReadEnds {α : Type} (path : String) (w : Option String) (kind : WatcherKind)
    (read : Response → Except Error α) (o : Except Error Response) (t : Served)
    (run : Except Error α × Served) : Prop :=
  (∀ e, attempt (some path) o = .error e → run = (.error e, t)) ∧
  (∀ r, attempt (some path) o = .ok r → r.err = 0 → run = (read r, t.watch kind path w)) ∧
  (∀ r, attempt (some path) o = .ok r → r.err ≠ 0 →
    run = (.error (Error.ofCode r.err (some path)), t))

/-- How `exists?` ends, as `ReadEnds`, except that a reply with `NO_NODE` passes too: a reply
without failure hands over a watcher of kind `data` and answers the node's metadata, one with
`NO_NODE` a watcher of kind `existence` and answers that there is no node. -/
def ExistsEnds (path : String) (w : Option String) (o : Except Error Response) (t : Served)
    (run : Except Error (Option Stat) × Served) : Prop :=
  (∀ e, attempt (some path) o = .error e → run = (.error e, t)) ∧
  (∀ r, attempt (some path) o = .ok r → r.err = 0 →
    run = (some <$> statOf r, t.watch .data path w)) ∧
  (∀ r, attempt (some path) o = .ok r → r.err = ExceptionCode.noNode.value →
    run = (.ok none, t.watch .existence path w)) ∧
  (∀ r, attempt (some path) o = .ok r → r.err ≠ 0 → r.err ≠ ExceptionCode.noNode.value →
    run = (.error (Error.ofCode r.err (some path)), t))

/-- A call that executes its request and then reads the reply ends as `ReadEnds` says. -/
theorem readEnds_of_executed {α : Type} {path : String} {w : Option String} {kind : WatcherKind}
    {read : Response → Except Error α} {o : Except Error Response} {t : Served}
    {run : Except Error α × Served}
    (h : run = match Served.executed path o with
      | .error e => (.error e, t)
      | .ok r => (read r, t.watch kind path w)) :
    ReadEnds path w kind read o t run := by
  refine ⟨fun e ha => ?_, fun r ha h0 => ?_, fun r ha h0 => ?_⟩
  · rw [h, executed_of_attempt_error ha]
  · rw [h, executed_of_attempt_ok ha, if_pos h0]
  · rw [h, executed_of_attempt_ok ha, if_neg h0]

section Reads

variable (cfg : ClientConfig) {path : String} (w : Option String)
  (hp : Path.validate path = .ok ()) (s : Served)
include hp

theorem getData_watch :
    ∃ m, Retried cfg.retry.retries (fun i => lostConnection
        (s.answer ((Call.getData path w).request.setChroot cfg.chroot) i)) m ∧
      ReadEnds path w .data Served.dataReply
        (s.answer ((Call.getData path w).request.setChroot cfg.chroot) m)
        (s.queue (m + 1) ((Call.getData path w).request.setChroot cfg.chroot))
        (((Served.client cfg).getData path w).run.run s) := by
  obtain ⟨m, hm, hrun⟩ := Served.getData_run cfg path w hp s
  exact ⟨m, hm, readEnds_of_executed hrun⟩

theorem getChildren_watch :
    ∃ m, Retried cfg.retry.retries (fun i => lostConnection
        (s.answer ((Call.getChildren path w).request.setChroot cfg.chroot) i)) m ∧
      ReadEnds path w .child Served.childrenReply
        (s.answer ((Call.getChildren path w).request.setChroot cfg.chroot) m)
        (s.queue (m + 1) ((Call.getChildren path w).request.setChroot cfg.chroot))
        (((Served.client cfg).getChildren path w).run.run s) := by
  obtain ⟨m, hm, hrun⟩ := Served.getChildren_run cfg path w hp s
  exact ⟨m, hm, readEnds_of_executed hrun⟩

theorem exists_watch :
    ∃ m, Retried cfg.retry.retries (fun i => lostConnection
        (s.answer ((Call.exists path w).request.setChroot cfg.chroot) i)) m ∧
      ExistsEnds path w (s.answer ((Call.exists path w).request.setChroot cfg.chroot) m)
        (s.queue (m + 1) ((Call.exists path w).request.setChroot cfg.chroot))
        (((Served.client cfg).exists? path w).run.run s) := by
  obtain ⟨m, hm, hrun⟩ := Served.exists_run cfg path w hp s
  refine ⟨m, hm, fun e ha => ?_, fun r ha h0 => ?_, fun r ha hn => ?_, fun r ha h0 hn => ?_⟩
  · rw [hrun, ha]
  · -- no failure code: the node was found
    have hf : Served.found path r = .ok true := by simp [Served.found, Response.check, h0]
    rw [hrun, ha]
    simp only [hf, if_true]
  · -- `NO_NODE`: the node was not found, and the watcher waits for it
    have h0 : r.err ≠ 0 := by rw [hn]; decide
    have hf : Served.found path r = .ok false := by
      simp [Served.found, Response.check, h0, (ofCode_code?_eq_noNode_iff _ _).mpr hn]
    rw [hrun, ha]
    simp only [hf, Bool.false_eq_true, if_false]
  · have hf : Served.found path r = .error (Error.ofCode r.err (some path)) := by
      have hcode := mt (ofCode_code?_eq_noNode_iff r.err (some path)).mp hn
      simp [Served.found, Response.check, h0, hcode]
    rw [hrun, ha]
    simp only [hf]

/-- The three reads with a watcher, from any state of a served session: the request's `watch`
field is whether a watcher is given, and after the last attempt each read ends as `ReadEnds` or
`ExistsEnds` says: the watcher, at the caller's path and of the read's kind, is handed over once
after a reply that passed and never otherwise. -/
theorem reads_register_after_reply :
    (∀ call ∈ [Call.getData path w, Call.getChildren path w, Call.exists path w],
      ∃ rec, (call.request.setChroot cfg.chroot).payload = .record rec ∧
        rec.getBool "watch" = .ok w.isSome) ∧
    (∃ m, Retried cfg.retry.retries (fun i => lostConnection
        (s.answer ((Call.getData path w).request.setChroot cfg.chroot) i)) m ∧
      ReadEnds path w .data Served.dataReply
        (s.answer ((Call.getData path w).request.setChroot cfg.chroot) m)
        (s.queue (m + 1) ((Call.getData path w).request.setChroot cfg.chroot))
        (((Served.client cfg).getData path w).run.run s)) ∧
    (∃ m, Retried cfg.retry.retries (fun i => lostConnection
        (s.answer ((Call.getChildren path w).request.setChroot cfg.chroot) i)) m ∧
      ReadEnds path w .child Served.childrenReply
        (s.answer ((Call.getChildren path w).request.setChroot cfg.chroot) m)
        (s.queue (m + 1) ((Call.getChildren path w).request.setChroot cfg.chroot))
        (((Served.client cfg).getChildren path w).run.run s)) ∧
    (∃ m, Retried cfg.retry.retries (fun i => lostConnection
        (s.answer ((Call.exists path w).request.setChroot cfg.chroot) i)) m ∧
      ExistsEnds path w (s.answer ((Call.exists path w).request.setChroot cfg.chroot) m)
        (s.queue (m + 1) ((Call.exists path w).request.setChroot cfg.chroot))
        (((Served.client cfg).exists? path w).run.run s)) := by
  refine ⟨fun call hcall => ?_, getData_watch cfg w hp s, getChildren_watch cfg w hp s,
    exists_watch cfg w hp s⟩
  -- the chroot leaves the fields as they are
  simp only [List.mem_cons, List.not_mem_nil, or_false] at hcall
  rcases hcall with rfl | rfl | rfl <;> exact ⟨_, rfl, rfl⟩

end Reads

theorem reads_register_after_reply_root :
    Path.validate "/" = .ok () ∧
    (∀ call ∈ [Call.getData "/" (some "w"), Call.getChildren "/" (some "w"),
        Call.exists "/" (some "w")],
      ∃ rec, (call.request.setChroot ({} : ClientConfig).chroot).payload = .record rec ∧
        rec.getBool "watch" = .ok (some "w").isSome) ∧
    (∃ m, Retried ({} : ClientConfig).retry.retries (fun i => lostConnection
        ((treeSession rootAndChild).answer
          ((Call.getData "/" (some "w")).request.setChroot ({} : ClientConfig).chroot) i)) m ∧
      ReadEnds "/" (some "w") .data Served.dataReply
        ((treeSession rootAndChild).answer
          ((Call.getData "/" (some "w")).request.setChroot ({} : ClientConfig).chroot) m)
        ((treeSession rootAndChild).queue (m + 1)
          ((Call.getData "/" (some "w")).request.setChroot ({} : ClientConfig).chroot))
        (((Served.client {}).getData "/" (some "w")).run.run (treeSession rootAndChild))) ∧
    (∃ m, Retried ({} : ClientConfig).retry.retries (fun i => lostConnection
        ((treeSession rootAndChild).answer
          ((Call.getChildren "/" (some "w")).request.setChroot ({} : ClientConfig).chroot) i)) m ∧
      ReadEnds "/" (some "w") .child Served.childrenReply
        ((treeSession rootAndChild).answer
          ((Call.getChildren "/" (some "w")).request.setChroot ({} : ClientConfig).chroot) m)
        ((treeSession rootAndChild).queue (m + 1)
          ((Call.getChildren "/" (some "w")).request.setChroot ({} : ClientConfig).chroot))
        (((Served.client {}).getChildren "/" (some "w")).run.run (treeSession rootAndChild))) ∧
    (∃ m, Retried ({} : ClientConfig).retry.retries (fun i => lostConnection
        ((treeSession rootAndChild).answer
          ((Call.exists "/" (some "w")).request.setChroot ({} : ClientConfig).chroot) i)) m ∧
      ExistsEnds "/" (some "w")
        ((treeSession rootAndChild).answer
          ((Call.exists "/" (some "w")).request.setChroot ({} : ClientConfig).chroot) m)
        ((treeSession rootAndChild).queue (m + 1)
          ((Call.exists "/" (some "w")).request.setChroot ({} : ClientConfig).chroot))
        (((Served.client {}).exists? "/" (some "w")).run.run (treeSession rootAndChild))) := by
  have hp : Path.validate "/" = .ok () := Path.validate_eq_ok_iff.mpr (by decide)
  exact ⟨hp, reads_register_after_reply {} (some "w") hp _⟩

/-- The watcher is handed over before the body is read: a child list holding an absent name is
an error, with the watcher left in place. -/
theorem getChildren_unreadable_name_keeps_watcher :
    ∃ t, ((Served.client {}).getChildren "/a" (some "w1")).run.run
        { respond := fun _ _ => .ok ⟨0, Long.ofInt64 0, 0, .record ⟨Catalog.getChildren2Response,
          [.vector (some [.ustring none]), (Stat.toRecord {}).toValue], none⟩⟩ } =
      (.error (.serialization (.notChildName (.ustring none))), t) ∧
      Served.Event.watched .child "/a" "w1" ∈ t.log := by
  have hp : Path.validate "/a" = .ok () := Path.validate_eq_ok_iff.mpr (by decide)
  obtain ⟨m, hm, -, hpass, -⟩ := getChildren_watch {} (some "w1") hp
    { respond := fun _ _ => .ok ⟨0, Long.ofInt64 0, 0, .record ⟨Catalog.getChildren2Response,
      [.vector (some [.ustring none]), (Stat.toRecord {}).toValue], none⟩⟩ }
  -- the one reply passes, so there is one attempt, and the watcher goes in before the names
  obtain rfl : m = 0 := hm.eq_zero rfl
  exact ⟨_, hpass _ rfl rfl, by simp [Served.watch]⟩


end Client

end Ensemble
