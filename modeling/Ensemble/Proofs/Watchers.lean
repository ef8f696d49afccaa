import Ensemble.Client.Watcher
import Mathlib.Data.List.Nodup

/-! # Watchers fire once

A registry keeps, for each kind of watch and each path, at most one pending watcher. This module
follows a registry through any run of calls (registrations, takes and dispatches, in any order)
one key at a time; no property of the registry is assumed beyond what the calls build.

* `register_of_invalid`, `register_of_pending`, `register_of_free`: a registration checks the
  path, turns a watcher away from a taken key, and fills a free key;
* `take_eq`, `pending?_take`: an event hands back, kind by kind in the order it notifies them,
  the watcher pending on its path (`Registry.found`), and frees those keys;
* `pending?_run_of_pending`, `pending?_run_of_free`: along a run, a pending watcher stays until
  the first call that concerns its key, and a free key stays free until a registration on it;
* `run_dispatch_perm`: events dispatched together hand back the same watchers and leave the same
  registry in any order, because freeing keys commutes (`clear_comm`).

`watchers_fire_once` gathers these: a watcher that a registration stores is handed back by the
first later event that concerns its key and by no call before it, after which the key is free
until the next registration on it.
-/

namespace Ensemble

/-! ### Keys of one kind -/

namespace Slots

theorem lookup_filter_self (s : Slots) (p : String) : (s.filter (·.1 ≠ p)).lookup p = none := by
  induction s with
  | nil => rfl
  | cons a s ih =>
    obtain ⟨q, w⟩ := a
    by_cases h : q = p
    · rw [List.filter_cons_of_neg (by simp [h])]
      exact ih
    · rw [List.filter_cons_of_pos (by simp [h]), List.lookup_cons,
        show (p == q) = false from beq_false_of_ne (Ne.symm h)]
      exact ih

theorem lookup_filter_of_ne (s : Slots) {p q : String} (h : q ≠ p) :
    (s.filter (·.1 ≠ p)).lookup q = s.lookup q := by
  induction s with
  | nil => rfl
  | cons a s ih =>
    obtain ⟨x, w⟩ := a
    by_cases hx : x = p
    · subst hx
      rw [List.filter_cons_of_neg (by simp), ih, List.lookup_cons,
        show (q == x) = false from beq_false_of_ne h]
    · rw [List.filter_cons_of_pos (by simp [hx]), List.lookup_cons, List.lookup_cons, ih]

/-- Without an entry for `p`, removing the entries for `p` changes nothing. -/
theorem filter_of_lookup_none {s : Slots} {p : String} (h : s.lookup p = none) :
    s.filter (·.1 ≠ p) = s := by
  rw [List.filter_eq_self]
  intro a ha
  have hne := List.lookup_eq_none_iff.mp h a ha
  simp only [bne_iff_ne, ne_eq] at hne
  simpa using Ne.symm hne

theorem lookup_append_of_none {s : Slots} {p : String} (h : s.lookup p = none) (q w : String) :
    (s ++ [(p, w)]).lookup q = if q = p then some w else s.lookup q := by
  rw [List.lookup_append, List.lookup_cons]
  by_cases hq : q = p
  · subst hq
    simp [h]
  · simp only [beq_false_of_ne hq, if_neg hq, List.lookup_nil]
    cases s.lookup q <;> rfl

end Slots

namespace Registry

/-! ### Reading and replacing the slots of a kind -/

@[simp] theorem slots_withSlots (r : Registry) (k : WatcherKind) (s : Slots) :
    (r.withSlots k s).slots k = s := by
  cases k <;> rfl

@[simp] theorem slots_withSlots_of_ne (r : Registry) {k k' : WatcherKind} (h : k' ≠ k)
    (s : Slots) : (r.withSlots k s).slots k' = r.slots k' := by
  cases k <;> cases k' <;> simp_all [slots, withSlots]

/-- Two registries with the same slots of every kind are the same. -/
theorem ext_slots {r r' : Registry} (h : ∀ k, r.slots k = r'.slots k) : r = r' := by
  obtain ⟨d, c, x⟩ := r
  obtain ⟨d', c', x'⟩ := r'
  have hd := h .data
  have hc := h .child
  have hx := h .existence
  simp only [slots] at hd hc hx
  rw [hd, hc, hx]

theorem pending?_withSlots (r : Registry) (k : WatcherKind) (s : Slots) (k' : WatcherKind)
    (p : String) :
    (r.withSlots k s).pending? k' p = if k' = k then s.lookup p else r.pending? k' p := by
  by_cases hk : k' = k
  · subst hk
    simp [pending?]
  · simp [pending?, hk]

/-- The registry without the watcher of kind `k` on path `p`. -/
def clear (r : Registry) (k : WatcherKind) (p : String) : Registry :=
  r.withSlots k ((r.slots k).filter (·.1 ≠ p))

theorem pending?_clear (r : Registry) (k : WatcherKind) (p : String) (k' : WatcherKind)
    (p' : String) :
    (r.clear k p).pending? k' p' = if k' = k ∧ p' = p then none else r.pending? k' p' := by
  rw [clear, pending?_withSlots]
  by_cases hk : k' = k
  · subst hk
    by_cases hp : p' = p
    · subst hp
      rw [if_pos rfl, Slots.lookup_filter_self, if_pos ⟨rfl, rfl⟩]
    · rw [if_pos rfl, Slots.lookup_filter_of_ne _ hp, if_neg (fun h => hp h.2)]
      rfl
  · rw [if_neg hk, if_neg (fun h => hk h.1)]

theorem clear_of_pending?_none {r : Registry} {k : WatcherKind} {p : String}
    (h : r.pending? k p = none) : r.clear k p = r := by
  apply ext_slots
  intro k'
  by_cases hk : k' = k
  · subst hk
    rw [clear, slots_withSlots, Slots.filter_of_lookup_none h]
  · rw [clear, slots_withSlots_of_ne _ hk]

/-- Freeing two keys gives the same registry in either order. -/
theorem clear_comm (r : Registry) (k : WatcherKind) (p : String) (k' : WatcherKind)
    (p' : String) : (r.clear k p).clear k' p' = (r.clear k' p').clear k p := by
  apply ext_slots
  intro j
  by_cases hj : j = k <;> by_cases hj' : j = k'
  · -- the same kind twice: two filters of one list commute
    subst hj hj'
    simp only [clear, slots_withSlots]
    rw [List.filter_filter, List.filter_filter]
    congr 1
    funext x
    exact Bool.and_comm _ _
  · subst hj
    simp only [clear, slots_withSlots, slots_withSlots_of_ne _ hj']
  · subst hj'
    simp only [clear, slots_withSlots, slots_withSlots_of_ne _ hj]
  · simp only [clear, slots_withSlots_of_ne _ hj, slots_withSlots_of_ne _ hj']

/-! ### Registering -/

theorem validate_error {p : String} {e : Error} (h : Path.validate p = .error e) :
    ∃ f, e = .invalidArgument (.invalidPath p f) := by
  unfold Path.validate at h
  split at h
  · cases h
  · rename_i f _
    exact ⟨f, (Except.error.inj h).symm⟩

/-- A path that fails its check is refused with that check's error. -/
theorem register_of_invalid (r : Registry) (k : WatcherKind) {p : String} (w : String)
    {e : Error} (h : Path.validate p = .error e) : r.register k p w = .error e := by
  simp [register, h, bind, Except.bind]

/-- A taken key keeps its watcher: the same watcher is a duplicate, another is turned away. -/
theorem register_of_pending (r : Registry) {k : WatcherKind} {p w w' : String}
    (hv : Path.validate p = .ok ()) (h : r.pending? k p = some w') :
    r.register k p w = .ok (if w' = w then .duplicate else .occupied, r) := by
  simp [register, hv, h, bind, Except.bind, pure, Except.pure]

/-- A free key takes the watcher, and no other key changes. -/
theorem register_of_free (r : Registry) {k : WatcherKind} {p : String} (w : String)
    (hv : Path.validate p = .ok ()) (h : r.pending? k p = none) :
    r.register k p w = .ok (.registered, r.withSlots k (r.slots k ++ [(p, w)])) := by
  simp [register, hv, h, bind, Except.bind, pure, Except.pure]

theorem pending?_fill {r : Registry} {k : WatcherKind} {p : String} (h : r.pending? k p = none)
    (w : String) (k' : WatcherKind) (p' : String) :
    (r.withSlots k (r.slots k ++ [(p, w)])).pending? k' p'
      = if k' = k ∧ p' = p then some w else r.pending? k' p' := by
  rw [pending?_withSlots]
  by_cases hk : k' = k
  · subst hk
    rw [Slots.lookup_append_of_none h]
    by_cases hp : p' = p <;> simp [hp, pending?]
  · simp [hk]

/-! ### Taking -/

theorem notifiedBy_nodup (t : EventType) : (WatcherKind.notifiedBy t).Nodup := by
  cases t <;> decide

/-- The watchers an event finds: for each kind it notifies, in order, the watcher pending on its
path. An event without a path finds none. -/
def found (r : Registry) (e : WatchedEvent) : List String :=
  match e.path with
  | none => []
  | some p => (WatcherKind.notifiedBy e.type).filterMap (r.pending? · p)

/-- The rounds of `take` over distinct kinds: each hands back the watcher pending before the
first round, since freeing one kind leaves the others as they were. -/
theorem foldl_take (p : String) : ∀ (ks : List WatcherKind) (taken : List String)
    (r : Registry), ks.Nodup →
    ks.foldl (fun (acc : List String × Registry) k =>
      match acc.2.pending? k p with
      | some w => (acc.1 ++ [w], acc.2.withSlots k ((acc.2.slots k).filter (·.1 ≠ p)))
      | none => (acc.1, acc.2)) (taken, r)
      = (taken ++ ks.filterMap (r.pending? · p), ks.foldl (fun r k => r.clear k p) r)
  | [], taken, r, _ => by simp
  | k :: ks, taken, r, hks => by
    obtain ⟨hk, hks⟩ := List.nodup_cons.mp hks
    -- the other kinds read the same watchers after `k` is freed
    have hrest : ks.filterMap ((r.clear k p).pending? · p) = ks.filterMap (r.pending? · p) := by
      apply List.filterMap_congr
      intro k' hk'
      have hne : k' ≠ k := fun h => hk (h ▸ hk')
      simp [pending?_clear, hne]
    cases hw : r.pending? k p with
    | some w =>
      simp only [List.foldl_cons, hw]
      rw [show r.withSlots k ((r.slots k).filter (·.1 ≠ p)) = r.clear k p from rfl,
        foldl_take p ks _ _ hks, hrest]
      simp [hw]
    | none =>
      simp only [List.foldl_cons, hw]
      rw [foldl_take p ks _ _ hks, clear_of_pending?_none hw]
      simp [hw]

/-- An event with a path hands back what it finds and frees the keys it notifies there. -/
theorem take_eq (r : Registry) (e : WatchedEvent) {p : String} (hp : e.path = some p) :
    r.take e = (r.found e, (WatcherKind.notifiedBy e.type).foldl (fun r k => r.clear k p) r) := by
  unfold take found
  rw [hp]
  exact foldl_take p _ [] r (notifiedBy_nodup e.type)

theorem take_of_none (r : Registry) {e : WatchedEvent} (hp : e.path = none) : r.take e = ([], r) := by
  simp [take, hp]

theorem take_fst (r : Registry) (e : WatchedEvent) : (r.take e).1 = r.found e := by
  cases hp : e.path with
  | none => simp [take_of_none r hp, found, hp]
  | some p => rw [take_eq r e hp]

theorem pending?_foldl_clear (p : String) (k : WatcherKind) (p' : String) :
    ∀ (ks : List WatcherKind) (r : Registry),
      (ks.foldl (fun r k => r.clear k p) r).pending? k p'
        = if k ∈ ks ∧ p' = p then none else r.pending? k p'
  | [], r => by simp
  | j :: ks, r => by
    rw [List.foldl_cons, pending?_foldl_clear p k p' ks, pending?_clear]
    by_cases hj : k = j <;> by_cases hp : p' = p <;> simp [hj, hp]

end Registry

/-- An event concerns the key of a kind and a path when it is about that path and notifies that
kind. -/
def WatchedEvent.Concerns (e : WatchedEvent) (k : WatcherKind) (p : String) : Prop :=
  e.path = some p ∧ k ∈ WatcherKind.notifiedBy e.type

instance (e : WatchedEvent) (k : WatcherKind) (p : String) : Decidable (e.Concerns k p) :=
  inferInstanceAs (Decidable (_ ∧ _))

namespace Registry

/-- An event frees exactly the keys it concerns. -/
theorem pending?_take (r : Registry) (e : WatchedEvent) (k : WatcherKind) (p : String) :
    (r.take e).2.pending? k p = if e.Concerns k p then none else r.pending? k p := by
  cases hp : e.path with
  | none => simp [take_of_none r hp, WatchedEvent.Concerns, hp]
  | some q =>
    rw [take_eq r e hp, pending?_foldl_clear]
    by_cases hpq : p = q
    · subst hpq
      simp [WatchedEvent.Concerns, hp, and_comm]
    · have hne : some q ≠ some p := fun h => hpq (Option.some.inj h).symm
      simp [WatchedEvent.Concerns, hp, hpq, hne]

/-- The registry after taking an event: every key the event concerns is freed. -/
theorem take_snd (r : Registry) {e : WatchedEvent} {p : String} (hp : e.path = some p) :
    (r.take e).2 = (WatcherKind.notifiedBy e.type).foldl (fun r k => r.clear k p) r := by
  rw [take_eq r e hp]

/-! ### Runs of calls -/

/-- A call on a registry. -/
inductive Call where
  | register (k : WatcherKind) (path w : String)
  | take (e : WatchedEvent)
  | dispatch (e : WatchedEvent)
  | dispatchRecord (rec : Record)

namespace Call

/-- The event a call delivers: none for a registration or for a record that holds no event. -/
def event? : Call → Option WatchedEvent
  | .register .. => none
  | .take e | .dispatch e => some e
  | .dispatchRecord rec => (WatchedEvent.ofRecord rec).toOption

/-- The watchers a call hands back (taken or fired), and the registry after it. A call that
fails leaves the registry as it was. -/
def apply : Call → Registry → List String × Registry
  | .register k p w, r =>
    match r.register k p w with
    | .ok (_, r') => ([], r')
    | .error _ => ([], r)
  | .take e, r => r.take e
  | .dispatch e, r => ((r.dispatch e).1.map (·.1), (r.dispatch e).2)
  | .dispatchRecord rec, r =>
    match r.dispatchRecord rec with
    | .ok (fired, r') => (fired.map (·.1), r')
    | .error _ => ([], r)

/-- A call concerns a key when the event it delivers does. -/
def Concerns (c : Call) (k : WatcherKind) (p : String) : Prop :=
  ∃ e, c.event? = some e ∧ e.Concerns k p

theorem dispatch_eq_take (r : Registry) (e : WatchedEvent) :
    ((r.dispatch e).1.map (·.1), (r.dispatch e).2) = r.take e := by
  cases h : r.take e
  simp [Registry.dispatch, h, Function.comp_def]

/-- A call that delivers an event acts as taking that event. -/
theorem apply_of_event {c : Call} {e : WatchedEvent} (h : c.event? = some e) (r : Registry) :
    c.apply r = r.take e := by
  cases c with
  | register => cases h
  | take e' =>
    cases h
    rfl
  | dispatch e' =>
    cases h
    exact dispatch_eq_take r e
  | dispatchRecord rec =>
    simp only [event?] at h
    cases hr : WatchedEvent.ofRecord rec with
    | error => simp [hr, Except.toOption] at h
    | ok e' =>
      simp only [hr, Except.toOption, Option.some.injEq] at h
      subst h
      simp [apply, Registry.dispatchRecord, hr, bind, Except.bind, pure, Except.pure,
        dispatch_eq_take]

/-- A record that holds no event hands back nothing and changes nothing. -/
theorem apply_of_record_none {rec : Record} (h : (Call.dispatchRecord rec).event? = none)
    (r : Registry) : (Call.dispatchRecord rec).apply r = ([], r) := by
  simp only [event?] at h
  cases hr : WatchedEvent.ofRecord rec with
  | ok e => simp [hr, Except.toOption] at h
  | error err => simp [apply, Registry.dispatchRecord, hr, bind, Except.bind]

/-- What a call hands back: what its event finds, or nothing. -/
theorem apply_fst (c : Call) (r : Registry) :
    (c.apply r).1 = match c.event? with
      | some e => r.found e
      | none => [] := by
  cases he : c.event? with
  | some e => rw [apply_of_event he, take_fst]
  | none =>
    cases c with
    | register k p w =>
      simp only [apply]
      split <;> rfl
    | dispatchRecord rec => rw [apply_of_record_none he]
    | take => cases he
    | dispatch => cases he

end Call

/-- A run of calls from a registry: every watcher the calls hand back, in order, and the registry
after them. -/
def run (r : Registry) : List Call → List String × Registry
  | [] => ([], r)
  | c :: cs => ((c.apply r).1 ++ ((c.apply r).2.run cs).1, ((c.apply r).2.run cs).2)

@[simp] theorem run_nil (r : Registry) : r.run [] = ([], r) := rfl

theorem run_cons (r : Registry) (c : Call) (cs : List Call) :
    r.run (c :: cs) = ((c.apply r).1 ++ ((c.apply r).2.run cs).1, ((c.apply r).2.run cs).2) :=
  rfl

theorem run_append (r : Registry) (cs ds : List Call) :
    r.run (cs ++ ds) = ((r.run cs).1 ++ ((r.run cs).2.run ds).1, ((r.run cs).2.run ds).2) := by
  induction cs generalizing r with
  | nil => simp
  | cons c cs ih => simp [run_cons, ih]

/-! ### One key along a run -/

/-- A pending watcher stays through a call that does not concern its key: a registration on the
key finds it taken, and any other call leaves the key alone. -/
theorem pending?_apply_of_pending {r : Registry} {k : WatcherKind} {p w : String}
    (h : r.pending? k p = some w) {c : Call} (hc : ¬ c.Concerns k p) :
    (c.apply r).2.pending? k p = some w := by
  cases he : c.event? with
  | some e =>
    have hne : ¬ e.Concerns k p := fun hk => hc ⟨e, he, hk⟩
    rw [Call.apply_of_event he, pending?_take, if_neg hne, h]
  | none =>
    cases c with
    | register k' p' w' =>
      cases hv : Path.validate p' with
      | error err => simp [Call.apply, register_of_invalid r k' w' hv, h]
      | ok u =>
        cases hw : r.pending? k' p' with
        | some w'' => simp [Call.apply, register_of_pending r hv hw, h]
        | none =>
          simp only [Call.apply, register_of_free r w' hv hw, pending?_fill hw]
          -- the key filled is free, so it is another key than the pending one
          have hkey : ¬ (k = k' ∧ p = p') := by
            rintro ⟨rfl, rfl⟩
            rw [h] at hw
            cases hw
          simp [hkey, h]
    | dispatchRecord rec => rw [Call.apply_of_record_none he, h]
    | take => cases he
    | dispatch => cases he

/-- A free key stays free through any call other than a registration on it. -/
theorem pending?_apply_of_free {r : Registry} {k : WatcherKind} {p : String}
    (h : r.pending? k p = none) {c : Call} (hc : ∀ w, c ≠ .register k p w) :
    (c.apply r).2.pending? k p = none := by
  cases he : c.event? with
  | some e => rw [Call.apply_of_event he, pending?_take, h, ite_self]
  | none =>
    cases c with
    | register k' p' w' =>
      cases hv : Path.validate p' with
      | error err => simp [Call.apply, register_of_invalid r k' w' hv, h]
      | ok u =>
        cases hw : r.pending? k' p' with
        | some w'' => simp [Call.apply, register_of_pending r hv hw, h]
        | none =>
          simp only [Call.apply, register_of_free r w' hv hw, pending?_fill hw]
          have hkey : ¬ (k = k' ∧ p = p') := by
            rintro ⟨rfl, rfl⟩
            exact hc w' rfl
          simp [hkey, h]
    | dispatchRecord rec => rw [Call.apply_of_record_none he, h]
    | take => cases he
    | dispatch => cases he

/-- Along a run of calls none of which concerns its key, a pending watcher stays. -/
theorem pending?_run_of_pending {k : WatcherKind} {p w : String} :
    ∀ {r : Registry} (cs : List Call), r.pending? k p = some w → (∀ c ∈ cs, ¬ c.Concerns k p) →
      (r.run cs).2.pending? k p = some w
  | _, [], h, _ => h
  | _, c :: cs, h, hcs =>
    pending?_run_of_pending cs
      (pending?_apply_of_pending h (hcs c List.mem_cons_self))
      (fun c' hc' => hcs c' (List.mem_cons_of_mem c hc'))

/-- Along a run with no registration on it, a free key stays free. -/
theorem pending?_run_of_free {k : WatcherKind} {p : String} :
    ∀ {r : Registry} (cs : List Call), r.pending? k p = none →
      (∀ c ∈ cs, ∀ w, c ≠ .register k p w) → (r.run cs).2.pending? k p = none
  | _, [], h, _ => h
  | _, c :: cs, h, hcs =>
    pending?_run_of_free cs
      (pending?_apply_of_free h (hcs c List.mem_cons_self))
      (fun c' hc' => hcs c' (List.mem_cons_of_mem c hc'))

/-- A call that concerns a pending key hands back what its event finds, and frees the key. -/
theorem apply_of_concerns {r : Registry} {c : Call} {k : WatcherKind} {p : String}
    (hc : c.Concerns k p) :
    ∃ e, c.event? = some e ∧ e.path = some p ∧ k ∈ WatcherKind.notifiedBy e.type ∧
      (c.apply r).1 = (WatcherKind.notifiedBy e.type).filterMap (r.pending? · p) ∧
      (c.apply r).2.pending? k p = none := by
  obtain ⟨e, he, hp, hk⟩ := hc
  refine ⟨e, he, hp, hk, ?_, ?_⟩
  · rw [Call.apply_of_event he, take_fst, found, hp]
  · rw [Call.apply_of_event he, pending?_take, if_pos ⟨hp, hk⟩]

/-! ### A batch of events in any order -/

/-- Over two lists of distinct keys, what the first finds followed by what the second finds among
the keys the first left, is, up to order, what the second finds followed by the rest. -/
theorem filterMap_union_perm {α β : Type} [DecidableEq α] (f : α → Option β) {ks ks' : List α}
    (h : ks.Nodup) (h' : ks'.Nodup) :
    (ks.filterMap f ++ ks'.filterMap (fun k => if k ∈ ks then none else f k)).Perm
      (ks'.filterMap f ++ ks.filterMap (fun k => if k ∈ ks' then none else f k)) := by
  have rest : ∀ as bs : List α, bs.filterMap (fun k => if k ∈ as then none else f k)
      = (bs.filter (fun k => k ∉ as)).filterMap f := by
    intro as bs
    rw [List.filterMap_filter]
    apply List.filterMap_congr
    intro x _
    by_cases hx : x ∈ as <;> simp [hx]
  have nodup : ∀ as bs : List α, as.Nodup → bs.Nodup → (as ++ bs.filter (fun k => k ∉ as)).Nodup := by
    intro as bs has hbs
    refine List.nodup_append.mpr ⟨has, hbs.filter _, ?_⟩
    intro a ha b hb hab
    subst hab
    simp only [List.mem_filter, decide_eq_true_eq] at hb
    exact hb.2 ha
  rw [rest, rest, ← List.filterMap_append, ← List.filterMap_append]
  apply List.Perm.filterMap
  rw [List.perm_ext_iff_of_nodup (nodup ks ks' h h') (nodup ks' ks h' h)]
  intro a
  simp only [List.mem_append, List.mem_filter, decide_eq_true_eq]
  by_cases ha : a ∈ ks <;> by_cases ha' : a ∈ ks' <;> simp [ha, ha']

/-- What a second event finds after a first: the watchers pending before, except on the keys the
first event concerns. -/
theorem found_take (r : Registry) (e e' : WatchedEvent) {p : String} (hp : e'.path = some p) :
    (r.take e).2.found e'
      = (WatcherKind.notifiedBy e'.type).filterMap
          (fun k => if e.Concerns k p then none else r.pending? k p) := by
  unfold found
  rw [hp]
  apply List.filterMap_congr
  intro k _
  rw [pending?_take]

theorem foldl_clear_comm (p : String) (k' : WatcherKind) (p' : String) :
    ∀ (ks : List WatcherKind) (r : Registry),
      (ks.foldl (fun r k => r.clear k p) r).clear k' p'
        = ks.foldl (fun r k => r.clear k p) (r.clear k' p')
  | [], _ => rfl
  | k :: ks, r => by
    rw [List.foldl_cons, foldl_clear_comm p k' p' ks, List.foldl_cons, clear_comm]

theorem foldl_clear_foldl (p p' : String) (ks : List WatcherKind) :
    ∀ (ks' : List WatcherKind) (r : Registry),
      ks'.foldl (fun r k => r.clear k p') (ks.foldl (fun r k => r.clear k p) r)
        = ks.foldl (fun r k => r.clear k p) (ks'.foldl (fun r k => r.clear k p') r)
  | [], _ => rfl
  | k' :: ks', r => by
    rw [List.foldl_cons, foldl_clear_comm, foldl_clear_foldl p p' ks ks', List.foldl_cons]

/-- Two events taken in either order hand back the same watchers, up to order, and leave the
same registry. -/
theorem take_swap (r : Registry) (e e' : WatchedEvent) :
    ((r.take e).1 ++ ((r.take e).2.take e').1).Perm ((r.take e').1 ++ ((r.take e').2.take e).1) ∧
      ((r.take e).2.take e').2 = ((r.take e').2.take e).2 := by
  cases hp : e.path with
  | none =>
    rw [take_of_none r hp, take_of_none _ hp]
    exact ⟨by simp, rfl⟩
  | some p =>
    cases hp' : e'.path with
    | none =>
      rw [take_of_none r hp', take_of_none _ hp']
      exact ⟨by simp, rfl⟩
    | some p' =>
      refine ⟨?_, by rw [take_snd _ hp', take_snd _ hp, take_snd _ hp, take_snd _ hp',
        foldl_clear_foldl]⟩
      rw [take_fst, take_fst, take_fst, take_fst, found_take r e e' hp', found_take r e' e hp]
      unfold found
      rw [hp, hp']
      by_cases hpp : p = p'
      · -- one path: each event finds, besides its own keys, the other's keys it shares
        subst hpp
        have hc : ∀ (d : WatchedEvent), d.path = some p → ∀ k,
            d.Concerns k p ↔ k ∈ WatcherKind.notifiedBy d.type := by
          intro d hd k
          simp [WatchedEvent.Concerns, hd]
        simp only [hc e hp, hc e' hp']
        exact filterMap_union_perm _ (notifiedBy_nodup _) (notifiedBy_nodup _)
      · -- two paths: the events concern disjoint keys
        have hn : ∀ (d : WatchedEvent) (q q' : String), d.path = some q → q ≠ q' → ∀ k,
            ¬ d.Concerns k q' := by
          intro d q q' hd hq k hk
          exact hq (Option.some.inj (hd.symm.trans hk.1))
        simp only [hn e p p' hp hpp, hn e' p' p hp' (Ne.symm hpp), if_false]
        exact List.perm_append_comm

theorem apply_dispatch (r : Registry) (e : WatchedEvent) : (Call.dispatch e).apply r = r.take e :=
  Call.apply_of_event rfl r

/-- Events dispatched one after another, with no registration between them, fire the same
watchers up to order and leave the same registry whatever their order. -/
theorem run_dispatch_perm {es es' : List WatchedEvent} (h : es.Perm es') (r : Registry) :
    (r.run (es.map .dispatch)).1.Perm (r.run (es'.map .dispatch)).1 ∧
      (r.run (es.map .dispatch)).2 = (r.run (es'.map .dispatch)).2 := by
  induction h generalizing r with
  | nil => exact ⟨.refl _, rfl⟩
  | cons e _ ih =>
    obtain ⟨hout, hreg⟩ := ih (r.take e).2
    simp only [List.map_cons, run_cons, apply_dispatch]
    exact ⟨hout.append_left _, hreg⟩
  | swap e e' l =>
    -- the first two dispatches commute, and the rest starts from the same registry
    obtain ⟨hout, hreg⟩ := take_swap r e' e
    simp only [List.map_cons, run_cons, apply_dispatch]
    rw [hreg, ← List.append_assoc, ← List.append_assoc]
    exact ⟨hout.append_right _, rfl⟩
  | trans _ _ ih ih' => exact ⟨(ih r).1.trans (ih' r).1, (ih r).2.trans (ih' r).2⟩

/-! ### Whole runs -/

/-- **Watchers fire once.** A registration with a path that fails its check is refused with an
invalid-argument error and changes nothing; with a valid path it fills a free key
(`registered`), and leaves a taken key as it is (`duplicate` for the watcher pending there,
`occupied` for another). Every call hands back only what its event finds on the keys it
concerns. A registered watcher stays pending through every call that does not concern its key;
the first call that does hands it back, kind by kind with the others it finds, and frees the
key, which then stays free until the next registration on it. Events dispatched together fire
the same watchers and leave the same registry in any order. -/
theorem watchers_fire_once :
    (∀ (r : Registry) (k : WatcherKind) (p w : String) (e : Error),
      Path.validate p = .error e →
        r.register k p w = .error e ∧ (∃ f, e = .invalidArgument (.invalidPath p f)) ∧
          ((Call.register k p w).apply r).2 = r) ∧
    (∀ (r : Registry) (k : WatcherKind) (p w : String), Path.validate p = .ok () →
      (r.pending? k p = none → ∃ r', r.register k p w = .ok (.registered, r') ∧
        ∀ k' p', r'.pending? k' p' = if k' = k ∧ p' = p then some w else r.pending? k' p') ∧
      (r.pending? k p = some w → r.register k p w = .ok (.duplicate, r)) ∧
      (∀ w', r.pending? k p = some w' → w' ≠ w → r.register k p w = .ok (.occupied, r))) ∧
    (∀ (r : Registry) (c : Call), (c.apply r).1 = match c.event? with
      | some e => r.found e
      | none => []) ∧
    (∀ (r r' : Registry) (k : WatcherKind) (p w : String),
      r.register k p w = .ok (.registered, r') →
      (∀ cs : List Call, (∀ c ∈ cs, ¬ c.Concerns k p) → (r'.run cs).2.pending? k p = some w) ∧
      (∀ (cs : List Call) (c : Call), (∀ c' ∈ cs, ¬ c'.Concerns k p) → c.Concerns k p →
        ∃ e, c.event? = some e ∧ e.path = some p ∧ k ∈ WatcherKind.notifiedBy e.type ∧
          (r'.run cs).2.pending? k p = some w ∧
          (c.apply (r'.run cs).2).1
            = (WatcherKind.notifiedBy e.type).filterMap ((r'.run cs).2.pending? · p) ∧
          ∀ rest : List Call, (∀ c' ∈ rest, ∀ w', c' ≠ .register k p w') →
            ((c.apply (r'.run cs).2).2.run rest).2.pending? k p = none)) ∧
    (∀ (r : Registry) (es es' : List WatchedEvent), es.Perm es' →
      (r.run (es.map .dispatch)).1.Perm (r.run (es'.map .dispatch)).1 ∧
        (r.run (es.map .dispatch)).2 = (r.run (es'.map .dispatch)).2) := by
  refine ⟨?refused, ?checked, fun r c => Call.apply_fst c r, ?life,
    fun r _ _ h => run_dispatch_perm h r⟩
  case refused =>
    intro r k p w e h
    have hreg := register_of_invalid r k w h
    exact ⟨hreg, validate_error h, by simp [Call.apply, hreg]⟩
  case checked =>
    intro r k p w hv
    refine ⟨fun h => ⟨_, register_of_free r w hv h, pending?_fill h w⟩, fun h => ?_,
      fun w' h hne => ?_⟩
    · simpa using register_of_pending (w := w) r hv h
    · simpa [hne] using register_of_pending (w := w) r hv h
  case life =>
    intro r r' k p w hreg
    -- the registration found the key free, so the watcher is now pending there
    have hfill : r'.pending? k p = some w := by
      cases hv : Path.validate p with
      | error e => rw [register_of_invalid r k w hv] at hreg; cases hreg
      | ok u =>
        cases hw : r.pending? k p with
        | some w' =>
          rw [register_of_pending r hv hw] at hreg
          split at hreg <;> cases hreg
        | none =>
          rw [register_of_free r w hv hw] at hreg
          cases hreg
          simp [pending?_fill hw]
    refine ⟨fun cs hcs => pending?_run_of_pending cs hfill hcs, fun cs c hcs hc => ?_⟩
    obtain ⟨e, he, hp, hk, hout, hfree⟩ := apply_of_concerns (r := (r'.run cs).2) hc
    exact ⟨e, he, hp, hk, pending?_run_of_pending cs hfill hcs, hout,
      fun rest hrest => pending?_run_of_free rest hfree hrest⟩

/-- The same watcher registered twice on one key fires once, however often the event comes. -/
example : (({} : Registry).run [.register .data "/a" "w", .register .data "/a" "w",
    .dispatch ⟨.nodeDataChanged, some "/a"⟩, .dispatch ⟨.nodeDataChanged, some "/a"⟩]).1
      = ["w"] := by
  decide

end Registry

end Ensemble
