import Ensemble.Proofs.Ancestors

/-! # Listing and removing a subtree

A tree of nodes, as a server holds it, gives the names of each node's children in the order the
server lists them (`kids`). Its nodes below a list of nodes, level by level, are `level`; the
breadth-first listing of the subtree at `p` is `bfsOrder`: `p`, then each level below it in turn,
each level the children of the one above in order.

* `IsTree`: the children of a node are distinct names, each the name of a node;
  `mem_bfsOrder`, `nodup_bfsOrder`, `bfsOrder_deeper`: the listing holds every node of the
  subtree (`InSubtree`) once, and a node's descendants come after it.
* `ServesTree`: a session answers every listing of a node's children by the tree, and `NO_NODE`
  for a path with no node. `walk_run`: over such a session the client's walk lists the nodes
  below its queue level by level, one request a node.
* `RemovesInTurn`: how removing a list of nodes in turn goes, the failure `NO_NODE` passed over.
* `subtree_listing_and_removal`: over a session that serves a tree, `listSubTree` answers the
  breadth-first listing of a subtree, and `removeRecursive` removes its nodes in the reverse of
  that order, every node after its descendants; when the listing fails nothing is removed.
-/

namespace Ensemble

namespace Client

open Ensemble.Path

/-! ### The path of a child -/

/-- A name that a node may have: not empty, without a slash, and a path once put after `/`. -/
def IsName (n : String) : Prop :=
  n ≠ "" ∧ '/' ∉ n.toList ∧ Path.validate ("/" ++ n) = .ok ()

/-- A child's path is what comes before its last slash, nothing under the root, then a slash
and its name. -/
theorem toList_childPath (x n : String) :
    (childPath x n).toList = (if x = "/" then [] else x.toList) ++ '/' :: n.toList := by
  unfold childPath
  split <;> simp

theorem validate_childPath {x n : String} (hx : Path.validate x = .ok ()) (hn : IsName n) :
    Path.validate (childPath x n) = .ok () := by
  obtain ⟨hne, -, hv⟩ := hn
  by_cases hroot : x = "/"
  · rwa [childPath, if_pos hroot]
  · have hname : Tail n.toList :=
      (isValid_slash (by simp) (by simpa using hne)).mp (validate_eq_ok_iff.mp hv)
    obtain ⟨rest, hrest, ht⟩ := tail_of_isValid (validate_eq_ok_iff.mp hx) hroot
    have hchild : (childPath x n).toList = '/' :: (rest ++ '/' :: n.toList) := by
      rw [toList_childPath, if_neg hroot, hrest, List.cons_append]
    exact validate_eq_ok_iff.mpr (isValid_of_tail hchild (ht.append hname))

/-- The names of a path read off what comes before its last slash, as for a child's path. -/
theorem names_eq_of_parent (x : String) :
    names x = ((((if x = "/" then [] else x.toList).splitOn '/').drop 1).map String.ofList).filter
      (· ≠ "") := by
  by_cases hroot : x = "/"
  · rw [if_pos hroot, hroot, names_root]
    rfl
  · rw [if_neg hroot, names]

/-- A child's names are its parent's and its own. -/
theorem names_childPath (x : String) {n : String} (hne : n ≠ "") (hs : '/' ∉ n.toList) :
    names (childPath x n) = names x ++ [n] := by
  have hpieces : ((if x = "/" then [] else x.toList).splitOn '/').length ≥ 1 :=
    List.length_pos_iff.mpr (List.splitOn_ne_nil _ _)
  rw [names, toList_childPath, List.splitOn_append_cons_self, List.splitOn_eq_singleton hs,
    List.drop_append_of_le_length hpieces, List.map_append, List.filter_append, names_eq_of_parent]
  simp [String.ofList_toList, hne]

/-- Two children's paths are equal only for the same parent and the same name. -/
theorem childPath_inj {x y n n' : String} (hx : x ≠ "") (hy : y ≠ "") (hn : '/' ∉ n.toList)
    (hn' : '/' ∉ n'.toList) (h : childPath x n = childPath y n') : x = y ∧ n = n' := by
  have hlist := congrArg (fun s => s.toList.splitOn '/') h
  simp only [toList_childPath, List.splitOn_append_cons_self, List.splitOn_eq_singleton hn,
    List.splitOn_eq_singleton hn'] at hlist
  obtain ⟨hpre, hname⟩ := List.append_inj' hlist rfl
  have hparent := congrArg (['/'].intercalate ·) hpre
  simp only [List.intercalate_splitOn] at hparent
  refine ⟨?_, String.toList_inj.mp (List.singleton_inj.mp hname)⟩
  -- the root leaves nothing before the slash, any other parent its whole path
  by_cases hxr : x = "/" <;> by_cases hyr : y = "/"
  · rw [hxr, hyr]
  · rw [if_pos hxr, if_neg hyr] at hparent
    exact absurd (String.toList_eq_nil_iff.mp hparent.symm) hy
  · rw [if_neg hxr, if_pos hyr] at hparent
    exact absurd (String.toList_eq_nil_iff.mp hparent) hx
  · rw [if_neg hxr, if_neg hyr] at hparent
    exact String.toList_inj.mp hparent

theorem ne_empty_of_validate {x : String} (hx : Path.validate x = .ok ()) : x ≠ "" := by
  rintro rfl
  exact absurd (validate_eq_ok_iff.mp hx) (by decide)

/-! ### A tree, level by level -/

/-- A tree of nodes as a server holds it, read through `kids`: the children of every node are
distinct names, and each of them is a node. -/
structure IsTree (kids : String → Option (List String)) : Prop where
  names : ∀ x ns, kids x = some ns → ns.Nodup ∧ ∀ n ∈ ns, IsName n
  closed : ∀ x ns, kids x = some ns → ∀ n ∈ ns, kids (childPath x n) ≠ none

section Tree

variable (kids : String → Option (List String))

/-- The paths of a node's children, in the order the tree lists them. -/
def childPaths (x : String) : List String :=
  ((kids x).getD []).map (childPath x)

/-- The children of a list of nodes: those of the first, then those of the next, and so on. -/
def spread (Q : List String) : List String :=
  Q.flatMap (childPaths kids)

/-- The nodes `k` levels below a list of nodes. -/
def level (Q : List String) : Nat → List String
  | 0 => Q
  | k + 1 => spread kids (level Q k)

/-- The nodes of the `h` levels below a list of nodes, level by level. -/
def below (Q : List String) : Nat → List String
  | 0 => []
  | h + 1 => spread kids Q ++ below (spread kids Q) h

/-- The subtree at `p` in breadth-first order, down to `h` levels below `p`. -/
def bfsOrder (p : String) (h : Nat) : List String :=
  p :: below kids [p] h

/-- The nodes of the subtree at `p`: `p`, and each child of a node of it. -/
inductive InSubtree (p : String) : String → Prop
  | top : InSubtree p p
  | child {q : String} {ns : List String} {n : String} (hq : InSubtree p q)
      (hk : kids q = some ns) (hn : n ∈ ns) : InSubtree p (childPath q n)

variable {kids}

theorem spread_append (A B : List String) :
    spread kids (A ++ B) = spread kids A ++ spread kids B :=
  List.flatMap_append

theorem level_append (A B : List String) (k : Nat) :
    level kids (A ++ B) k = level kids A k ++ level kids B k := by
  induction k with
  | zero => rfl
  | succ k ih => rw [level, ih, spread_append]; rfl

theorem level_spread (Q : List String) (k : Nat) :
    level kids (spread kids Q) k = level kids Q (k + 1) := by
  induction k with
  | zero => rfl
  | succ k ih => rw [level, ih]; rfl

theorem level_eq_nil_of_le {Q : List String} {k j : Nat} (h : level kids Q k = []) (hkj : k ≤ j) :
    level kids Q j = [] := by
  induction j with
  | zero => rwa [Nat.le_zero.mp hkj] at h
  | succ j ih =>
    rcases Nat.lt_or_ge j k with hlt | hle
    · rwa [show k = j + 1 by omega] at h
    · rw [level, ih hle]
      rfl

theorem below_nil (h : Nat) : below kids [] h = [] := by
  induction h with
  | zero => rfl
  | succ h ih => exact ih

/-- Nodes at the head of a queue that have nothing `h + 1` levels below them: the nodes below
the queue are their children, then those below the rest of the queue followed by their
children. This is one round of a breadth-first walk. -/
theorem below_append {Y : List String} (Z : List String) {h : Nat}
    (hY : level kids Y (h + 1) = []) :
    below kids (Y ++ Z) h = spread kids Y ++ below kids (Z ++ spread kids Y) h := by
  induction h generalizing Y Z with
  | zero =>
    have hnil : spread kids Y = [] := hY
    rw [hnil]
    rfl
  | succ h ih =>
    have hY' : level kids (spread kids Y) (h + 1) = [] := by rw [level_spread]; exact hY
    simp only [below, spread_append, ih (spread kids Z) hY', List.append_assoc]

theorem mem_below {Q : List String} {h : Nat} {q : String} :
    q ∈ below kids Q h ↔ ∃ k < h, q ∈ level kids Q (k + 1) := by
  induction h generalizing Q with
  | zero => simp [below]
  | succ h ih =>
    rw [below, List.mem_append, ih]
    constructor
    · rintro (hq | ⟨k, hk, hq⟩)
      · exact ⟨0, by omega, hq⟩
      · exact ⟨k + 1, by omega, by rwa [level_spread] at hq⟩
    · rintro ⟨k, hk, hq⟩
      cases k with
      | zero => exact .inl hq
      | succ k => exact .inr ⟨k, by omega, by rwa [level_spread]⟩

theorem mem_childPaths {x q : String} :
    q ∈ childPaths kids x ↔ ∃ ns, kids x = some ns ∧ ∃ n ∈ ns, q = childPath x n := by
  unfold childPaths
  cases kids x with
  | none => simp
  | some ns => simp [eq_comm]

theorem inSubtree_of_mem_level {p q : String} {k : Nat} (hq : q ∈ level kids [p] k) :
    InSubtree kids p q := by
  induction k generalizing q with
  | zero =>
    obtain rfl := List.mem_singleton.mp hq
    exact .top
  | succ k ih =>
    obtain ⟨x, hx, hc⟩ := List.mem_flatMap.mp hq
    obtain ⟨ns, hk, n, hn, rfl⟩ := mem_childPaths.mp hc
    exact .child (ih hx) hk hn

theorem mem_level_of_inSubtree {p q : String} (h : InSubtree kids p q) :
    ∃ k, q ∈ level kids [p] k := by
  induction h with
  | top => exact ⟨0, List.mem_singleton_self _⟩
  | child _ hk hn ih =>
    obtain ⟨k, hq⟩ := ih
    exact ⟨k + 1, List.mem_flatMap.mpr ⟨_, hq, mem_childPaths.mpr ⟨_, hk, _, hn, rfl⟩⟩⟩

/-- The listing holds the nodes of the subtree and nothing else, once the levels below it run
out. -/
theorem mem_bfsOrder {p q : String} {h : Nat} (hfin : level kids [p] (h + 1) = []) :
    q ∈ bfsOrder kids p h ↔ InSubtree kids p q := by
  constructor
  · intro hq
    rcases List.mem_cons.mp hq with rfl | hq
    · exact .top
    · obtain ⟨k, -, hk⟩ := mem_below.mp hq
      exact inSubtree_of_mem_level hk
  · intro hs
    obtain ⟨k, hk⟩ := mem_level_of_inSubtree hs
    cases k with
    | zero =>
      obtain rfl := List.mem_singleton.mp hk
      exact List.mem_cons_self
    | succ k =>
      -- a level that holds a node lies above the first empty one
      have hkh : k < h := by
        by_contra hge
        rw [level_eq_nil_of_le hfin (by omega)] at hk
        exact List.not_mem_nil hk
      exact List.mem_cons_of_mem _ (mem_below.mpr ⟨k, hkh, hk⟩)

/-! ### Distinct nodes, deeper level by level -/

/-- A level of a tree at depth `d`: distinct nodes at paths with `d` names each. -/
structure AtDepth (kids : String → Option (List String)) (d : Nat) (Q : List String) : Prop where
  nodup : Q.Nodup
  valid : ∀ q ∈ Q, Path.validate q = .ok ()
  node : ∀ q ∈ Q, kids q ≠ none
  depth : ∀ q ∈ Q, (names q).length = d

/-- The distinct children of a node have distinct paths. -/
theorem nodup_childPaths (hT : IsTree kids) {x : String} (hx : Path.validate x = .ok ()) :
    (childPaths kids x).Nodup := by
  unfold childPaths
  cases hk : kids x with
  | none => exact List.nodup_nil
  | some ns =>
    obtain ⟨hnd, hnames⟩ := hT.names x ns hk
    have hxe := ne_empty_of_validate hx
    rw [Option.getD_some, List.Nodup, List.pairwise_map]
    exact hnd.imp_of_mem fun ha hb hab heq =>
      hab (childPath_inj hxe hxe (hnames _ ha).2.1 (hnames _ hb).2.1 heq).2

/-- The children of a level are a level one deeper. -/
theorem atDepth_spread (hT : IsTree kids) {d : Nat} {Q : List String} (hQ : AtDepth kids d Q) :
    AtDepth kids (d + 1) (spread kids Q) := by
  -- every child is a name of the tree under a node of the level
  have hmem : ∀ q ∈ spread kids Q, ∃ x ∈ Q, ∃ ns, kids x = some ns ∧ ∃ n ∈ ns,
      IsName n ∧ q = childPath x n := by
    intro q hq
    obtain ⟨x, hx, hc⟩ := List.mem_flatMap.mp hq
    obtain ⟨ns, hk, n, hn, rfl⟩ := mem_childPaths.mp hc
    exact ⟨x, hx, ns, hk, n, hn, (hT.names x ns hk).2 n hn, rfl⟩
  refine ⟨?_, ?_, ?_, ?_⟩
  · -- children of distinct parents differ, and so do the children of one parent
    unfold spread
    rw [List.Nodup, List.pairwise_flatMap]
    refine ⟨fun x hx => nodup_childPaths hT (hQ.valid x hx), ?_⟩
    refine hQ.nodup.imp_of_mem fun {a b} ha hb hab u hu v hv huv => hab ?_
    obtain ⟨ns, hk, n, hn, rfl⟩ := mem_childPaths.mp hu
    obtain ⟨ns', hk', n', hn', rfl⟩ := mem_childPaths.mp hv
    exact (childPath_inj (ne_empty_of_validate (hQ.valid a ha))
      (ne_empty_of_validate (hQ.valid b hb)) ((hT.names a ns hk).2 n hn).2.1
      ((hT.names b ns' hk').2 n' hn').2.1 huv).1
  · intro q hq
    obtain ⟨x, hx, -, -, n, -, hn, rfl⟩ := hmem q hq
    exact validate_childPath (hQ.valid x hx) hn
  · intro q hq
    obtain ⟨x, hx, ns, hk, n, hin, -, rfl⟩ := hmem q hq
    exact hT.closed x ns hk n hin
  · intro q hq
    obtain ⟨x, hx, -, -, n, -, ⟨hne, hs, -⟩, rfl⟩ := hmem q hq
    rw [names_childPath x hne hs, List.length_append, hQ.depth x hx, List.length_singleton]

/-- What lies below a level of depth `d`: nodes at valid paths, deeper than `d`. -/
theorem below_deeper (hT : IsTree kids) {d : Nat} {Q : List String} (hQ : AtDepth kids d Q)
    (h : Nat) : ∀ q ∈ below kids Q h,
      Path.validate q = .ok () ∧ kids q ≠ none ∧ d < (names q).length := by
  induction h generalizing d Q with
  | zero => intro q hq; cases hq
  | succ h ih =>
    have hS := atDepth_spread hT hQ
    intro q hq
    rcases List.mem_append.mp hq with hq | hq
    · exact ⟨hS.valid q hq, hS.node q hq, by rw [hS.depth q hq]; omega⟩
    · obtain ⟨hv, hn, hd⟩ := ih hS q hq
      exact ⟨hv, hn, by omega⟩

theorem nodup_below (hT : IsTree kids) {d : Nat} {Q : List String} (hQ : AtDepth kids d Q)
    (h : Nat) : (below kids Q h).Nodup := by
  induction h generalizing d Q with
  | zero => exact List.nodup_nil
  | succ h ih =>
    have hS := atDepth_spread hT hQ
    -- the levels below differ in depth from the next one
    refine List.nodup_append.mpr ⟨hS.nodup, ih hS, fun a ha b hb hab => ?_⟩
    have hdeep := (below_deeper hT hS h b hb).2.2
    rw [← hab, hS.depth a ha] at hdeep
    omega

/-- The listing below a level goes down level by level: depths never decrease along it. -/
theorem below_sorted (hT : IsTree kids) {d : Nat} {Q : List String} (hQ : AtDepth kids d Q)
    (h : Nat) : (below kids Q h).Pairwise fun a b => (names a).length ≤ (names b).length := by
  induction h generalizing d Q with
  | zero => exact List.Pairwise.nil
  | succ h ih =>
    have hS := atDepth_spread hT hQ
    refine List.pairwise_append.mpr ⟨?_, ih hS, fun a ha b hb => ?_⟩
    · exact List.pairwise_of_forall_mem_list fun a ha b hb =>
        Nat.le_of_eq ((hS.depth a ha).trans (hS.depth b hb).symm)
    · have hdeep := (below_deeper hT hS h b hb).2.2
      rw [hS.depth a ha]
      omega

/-- A node of a subtree is its top or lies deeper. -/
theorem InSubtree.eq_or_deeper (hT : IsTree kids) {p q : String} (h : InSubtree kids p q) :
    q = p ∨ (names p).length < (names q).length := by
  induction h with
  | top => exact .inl rfl
  | child _ hk hn ih =>
    obtain ⟨hne, hs, -⟩ := (hT.names _ _ hk).2 _ hn
    right
    rw [names_childPath _ hne hs, List.length_append, List.length_singleton]
    rcases ih with rfl | ih <;> omega

theorem atDepth_top {p : String} (hp : Path.validate p = .ok ()) (hnode : kids p ≠ none) :
    AtDepth kids (names p).length [p] :=
  ⟨by simp, by simpa using hp, by simpa using hnode, by simp⟩

section Listing

variable (hT : IsTree kids) {p : String} (hp : Path.validate p = .ok ()) (hnode : kids p ≠ none)
include hT hp hnode

/-- Every node of the listing is a node of the tree at a valid path. -/
theorem bfsOrder_nodes (h : Nat) :
    ∀ q ∈ bfsOrder kids p h, Path.validate q = .ok () ∧ kids q ≠ none := by
  intro q hq
  rcases List.mem_cons.mp hq with rfl | hq
  · exact ⟨hp, hnode⟩
  · obtain ⟨hv, hn, -⟩ := below_deeper hT (atDepth_top hp hnode) h q hq
    exact ⟨hv, hn⟩

theorem nodup_bfsOrder (h : Nat) : (bfsOrder kids p h).Nodup := by
  have htop := atDepth_top hp hnode
  refine List.nodup_cons.mpr ⟨fun hmem => ?_, nodup_below hT htop h⟩
  have := (below_deeper hT htop h p hmem).2.2
  omega

theorem bfsOrder_sorted (h : Nat) :
    (bfsOrder kids p h).Pairwise fun a b => (names a).length ≤ (names b).length := by
  have htop := atDepth_top hp hnode
  refine List.pairwise_cons.mpr ⟨fun b hb => ?_, below_sorted hT htop h⟩
  exact Nat.le_of_lt (below_deeper hT htop h b hb).2.2

end Listing

/-- In the reverse of a listing with distinct nodes whose depths never decrease, every node of
the subtree at a node comes no later than it. -/
theorem reverse_descendants_first (hT : IsTree kids) {L : List String} (hnd : L.Nodup)
    (hsort : L.Pairwise fun a b => (names a).length ≤ (names b).length) :
    ∀ i j (hi : i < L.reverse.length) (hj : j < L.reverse.length),
      InSubtree kids L.reverse[i] L.reverse[j] → j ≤ i := by
  intro i j hi hj hsub
  -- along the reverse, nodes are distinct and depths never increase
  have hrev : L.reverse.Pairwise fun a b => a ≠ b ∧ (names b).length ≤ (names a).length :=
    List.pairwise_reverse.mpr ((hnd.and hsort).imp fun h => ⟨Ne.symm h.1, h.2⟩)
  by_contra hlt
  obtain ⟨hne, hle⟩ := List.pairwise_iff_getElem.mp hrev i j hi hj (by omega)
  rcases hsub.eq_or_deeper hT with heq | hdeep
  · exact hne heq.symm
  · omega

end Tree

end Client

/-! ### Listing over a session that serves a tree -/

namespace Served

/-- The session after the requests `reqs` were queued, in order. -/
def queueAll (s : Served) (reqs : List Request) : Served :=
  { s with log := s.log ++ reqs.map .queued }

@[simp] theorem queueAll_nil (s : Served) : s.queueAll [] = s := by
  simp [queueAll]

theorem queue_one_queueAll (s : Served) (req : Request) (reqs : List Request) :
    (s.queue 1 req).queueAll reqs = s.queueAll (req :: reqs) := by
  simp [queue, queueAll]

end Served

theorem Retried.eq_zero {k m : Nat} {lost : Nat → Bool} (h : Retried k lost m)
    (h0 : lost 0 = false) : m = 0 := by
  obtain ⟨-, hlost, -⟩ := h
  by_contra hm
  have h0' := hlost 0 (Nat.pos_of_ne_zero hm)
  rw [h0] at h0'
  cases h0'

namespace Client

/-- A reply that reports neither a failure nor a lost connection is what `execute` answers. -/
theorem executed_of_err_zero (x : String) {r : Response} (h : r.err = 0) :
    Served.executed x (.ok r) = .ok r := by
  have hne : (0 : Int32) ≠ ExceptionCode.connectionLoss.value := by decide
  simp only [Served.executed, attempt, Response.check, h, hne, if_false, if_true, bind,
    Except.bind]
  rfl

/-- The answer the tree gives to a listing of a path's children: for a node, a reply without
failure whose child names are the node's children in order; for a path with no node, a reply
with the failure `NO_NODE`. -/
def ChildrenAnswer : Option (List String) → Except Error Response → Prop
  | some ns, o => ∃ r st, o = .ok r ∧ r.err = 0 ∧ Served.childrenReply r = .ok (ns, st)
  | none, o => ∃ r, o = .ok r ∧ r.err = ExceptionCode.noNode.value

/-- A session serves the tree `kids` to a client with configuration `cfg`: whatever was sent to
it before, it answers the client's listing of the children of a path by the tree. -/
def ServesTree (cfg : ClientConfig) (kids : String → Option (List String)) (s : Served) : Prop :=
  ∀ prev q, ChildrenAnswer (kids q)
    (s.respond prev ((Call.getChildren q none).request.setChroot cfg.chroot))

/-- The reply that the tree answers with to a listing of a path's children: the children with
empty metadata, or the failure `NO_NODE`. -/
def treeReply : Option (List String) → Except Error Response
  | some ns => .ok ⟨0, Long.ofInt64 0, 0, .record ⟨Catalog.getChildren2Response,
      [.vector (some (ns.map fun n => .ustring (some n))), (Stat.toRecord {}).toValue], none⟩⟩
  | none => .ok ⟨0, Long.ofInt64 0, ExceptionCode.noNode.value, .empty⟩

/-- The path that a request's record names in its first field, if it has one. -/
def firstPath (req : Request) : String :=
  match req.payload with
  | .record ⟨_, .ustring (some q) :: _, _⟩ => q
  | _ => ""

/-- A session that answers each request by the tree at the path the request names. -/
def treeSession (kids : String → Option (List String)) : Served where
  respond _ req := treeReply (kids (firstPath req))

theorem mapM_childName (ns : List String) :
    (ns.map fun n => Value.ustring (some n)).mapM childName = .ok ns := by
  induction ns with
  | nil => rfl
  | cons n ns ih =>
    simp only [List.map_cons, List.mapM_cons, ih]
    rfl

theorem childrenAnswer_treeReply (o : Option (List String)) : ChildrenAnswer o (treeReply o) := by
  cases o with
  | none => exact ⟨_, rfl, rfl⟩
  | some ns =>
    refine ⟨_, {}, rfl, rfl, ?_⟩
    -- the record and its metadata read back as written; the names are read one by one
    calc _ = (ns.map fun n => Value.ustring (some n)).mapM childName >>= fun children =>
          (Except.ok (children, {}) : Except Error (List String × Stat)) := rfl
      _ = .ok (ns, {}) := by rw [mapM_childName]; rfl

/-- Every tree is served by a session, under any chroot. -/
theorem treeSession_serves (cfg : ClientConfig) (kids : String → Option (List String)) :
    ServesTree cfg kids (treeSession kids) :=
  fun _ q => childrenAnswer_treeReply (kids q)

section Serve

variable {cfg : ClientConfig} {kids : String → Option (List String)}

theorem ServesTree.queueAll {s : Served} (hs : ServesTree cfg kids s) (reqs : List Request) :
    ServesTree cfg kids (s.queueAll reqs) :=
  hs

theorem ServesTree.queue {s : Served} (hs : ServesTree cfg kids s) (n : Nat) (req : Request) :
    ServesTree cfg kids (s.queue n req) :=
  hs

/-- Listing a node's children over a session that serves the tree: one request, and the
children in order. -/
theorem getChildren_of_node {s : Served} (hs : ServesTree cfg kids s) {x : String}
    {ns : List String} (hx : Path.validate x = .ok ()) (hk : kids x = some ns) :
    ∃ st, ((Served.client cfg).getChildren x none).run.run s =
      (.ok (ns, st), s.queue 1 ((Call.getChildren x none).request.setChroot cfg.chroot)) := by
  obtain ⟨m, hm, hrun⟩ := Served.getChildren_run cfg x none hx s
  have hans : ∀ i, ∃ r st, s.answer ((Call.getChildren x none).request.setChroot cfg.chroot) i =
      .ok r ∧ r.err = 0 ∧ Served.childrenReply r = .ok (ns, st) := by
    intro i
    have hi := hs (s.sent ++ List.replicate i
      ((Call.getChildren x none).request.setChroot cfg.chroot)) x
    rw [hk] at hi
    exact hi
  obtain ⟨r, st, ho, herr, hreply⟩ := hans 0
  -- a reply without failure is no lost connection, so there is one attempt
  have hne : (0 : Int32) ≠ ExceptionCode.connectionLoss.value := by decide
  obtain rfl : m = 0 := hm.eq_zero (by simp [ho, lostConnection, herr, hne])
  refine ⟨st, ?_⟩
  rw [hrun]
  simp only [ho, executed_of_err_zero x herr, hreply, Served.watch_none]

/-- Listing the children of a path with no node over a session that serves the tree: one
request, and the failure `NO_NODE` about the path. -/
theorem getChildren_of_absent {s : Served} (hs : ServesTree cfg kids s) {x : String}
    (hx : Path.validate x = .ok ()) (hk : kids x = none) :
    ((Served.client cfg).getChildren x none).run.run s =
      (.error (.exception ⟨.noNode, some x⟩),
        s.queue 1 ((Call.getChildren x none).request.setChroot cfg.chroot)) := by
  obtain ⟨m, hm, hrun⟩ := Served.getChildren_run cfg x none hx s
  have hi := hs s.sent x
  rw [hk] at hi
  obtain ⟨r, ho, herr⟩ := hi
  have ho' : s.answer ((Call.getChildren x none).request.setChroot cfg.chroot) 0 = .ok r := by
    simpa [Served.answer] using ho
  obtain rfl : m = 0 := hm.eq_zero (by simp [ho', lostConnection, herr]; decide)
  have hexec : Served.executed x (.ok r) = .error (.exception ⟨.noNode, some x⟩) := by
    have hloss : ExceptionCode.noNode.value ≠ ExceptionCode.connectionLoss.value := by decide
    have hzero : ExceptionCode.noNode.value ≠ 0 := by decide
    simp only [Served.executed, attempt, herr, hloss, if_false, Response.check, hzero, bind,
      Except.bind]
    rfl
  rw [hrun]
  simp only [ho', hexec]

/-- The walk over a session that serves the tree, from a queue whose nodes have nothing `h + 1`
levels below them, with fuel for every node it meets: it lists the nodes below the queue level
by level, and asks once for the children of each node of the queue and of that listing, in
order. -/
theorem walk_run {s : Served} (hs : ServesTree cfg kids s) {h : Nat} (fuel : Nat)
    (Q T : List String)
    (hnodes : ∀ q ∈ Q ++ below kids Q h, Path.validate q = .ok () ∧ kids q ≠ none)
    (hfin : level kids Q (h + 1) = []) (hfuel : Q.length + (below kids Q h).length ≤ fuel) :
    ((Served.client cfg).walk fuel Q T).run.run s =
      (.ok (T ++ below kids Q h), s.queueAll ((Q ++ below kids Q h).map fun q =>
        (Call.getChildren q none).request.setChroot cfg.chroot)) := by
  -- induction on the fuel, from any queue, listing so far and session
  induction fuel generalizing Q T s with
  | zero =>
    obtain rfl : Q = [] := List.eq_nil_of_length_eq_zero (by omega)
    rw [below_nil, List.append_nil, List.nil_append, List.map_nil, Served.queueAll_nil]
    rfl
  | succ fuel ih =>
    cases Q with
    | nil =>
      rw [below_nil, List.append_nil, List.nil_append, List.map_nil, Served.queueAll_nil]
      rfl
    | cons x Q =>
      obtain ⟨hx, hnode⟩ := hnodes x List.mem_cons_self
      obtain ⟨ns, hk⟩ := Option.ne_none_iff_exists'.mp hnode
      obtain ⟨st, hget⟩ := getChildren_of_node hs hx hk
      have hpaths : childPaths kids x = ns.map (childPath x) := by
        rw [childPaths, hk, Option.getD_some]
      -- the head of the queue has its children in the next round, and nothing deeper
      have hsplit : level kids ([x] ++ Q) (h + 1) = level kids [x] (h + 1) ++ level kids Q (h + 1) :=
        level_append [x] Q (h + 1)
      rw [List.singleton_append, hfin, eq_comm, List.append_eq_nil_iff] at hsplit
      have hbelow : below kids (x :: Q) h = childPaths kids x ++
          below kids (Q ++ childPaths kids x) h := by
        rw [← List.singleton_append, below_append Q hsplit.1, spread, List.flatMap_singleton]
      have hfin' : level kids (Q ++ childPaths kids x) (h + 1) = [] := by
        have hnext : level kids [x] (h + 2) = [] := level_eq_nil_of_le hsplit.1 (by omega)
        rw [level_append, hsplit.2, ← List.flatMap_singleton (childPaths kids) x, ← spread,
          level_spread, hnext]
        rfl
      have hnodes' : ∀ q ∈ (Q ++ childPaths kids x) ++ below kids (Q ++ childPaths kids x) h,
          Path.validate q = .ok () ∧ kids q ≠ none := by
        intro q hq
        apply hnodes q
        rw [hbelow]
        simp only [List.mem_append, List.mem_cons] at hq ⊢
        rcases hq with (hq | hq) | hq <;> simp [hq]
      have hfuel' : (Q ++ childPaths kids x).length +
          (below kids (Q ++ childPaths kids x) h).length ≤ fuel := by
        rw [hbelow] at hfuel
        simp only [List.length_cons, List.length_append] at hfuel ⊢
        omega
      rw [walk, run_bind_ok hget]
      dsimp only
      rw [← hpaths, ih (hs.queue 1 _) (Q ++ childPaths kids x) _ hnodes' hfin' hfuel',
        Served.queue_one_queueAll, hbelow]
      simp only [List.append_assoc, List.cons_append, List.map_cons, List.map_append]

/-- Listing the subtree of a node over a session that serves the tree, with fuel for all of
it: the breadth-first listing, one request a node in that order. -/
theorem listSubTree_run {s : Served} (hs : ServesTree cfg kids s) (hT : IsTree kids) {p : String}
    (hp : Path.validate p = .ok ()) (hnode : kids p ≠ none) {h : Nat}
    (hfin : level kids [p] (h + 1) = []) {fuel : Nat} (hfuel : (bfsOrder kids p h).length ≤ fuel) :
    ((Served.client cfg).listSubTree fuel p).run.run s =
      (.ok (bfsOrder kids p h), s.queueAll ((bfsOrder kids p h).map fun q =>
        (Call.getChildren q none).request.setChroot cfg.chroot)) := by
  unfold listSubTree
  rw [run_bind_ok (run_lift_ok hp s)]
  have hlen : [p].length + (below kids [p] h).length ≤ fuel := by
    simpa [bfsOrder, Nat.add_comm] using hfuel
  exact walk_run hs fuel [p] [p] (bfsOrder_nodes hT hp hnode h) hfin hlen

/-- Listing from a path with no node fails at once with `NO_NODE` about the path. -/
theorem listSubTree_of_absent {s : Served} (hs : ServesTree cfg kids s) {p : String}
    (hp : Path.validate p = .ok ()) (hk : kids p = none) {fuel : Nat} (hfuel : 0 < fuel) :
    ((Served.client cfg).listSubTree fuel p).run.run s =
      (.error (.exception ⟨.noNode, some p⟩),
        s.queue 1 ((Call.getChildren p none).request.setChroot cfg.chroot)) := by
  obtain ⟨fuel, rfl⟩ := Nat.exists_eq_add_of_lt hfuel
  unfold listSubTree
  rw [run_bind_ok (run_lift_ok hp s), Nat.zero_add, walk]
  exact run_bind_error (getChildren_of_absent hs hp hk)

end Serve

/-! ### Removing nodes in turn -/

/-- How removing the nodes `qs` in turn goes from the session `s` to `t` with the outcome `res`,
each with the version `version`. Each node's request is queued under the chroot until the
retries stop (`Retried`), and the node's outcome is what `execute` makes of the last answer:
removed or already gone, the next node follows; any other failure ends the run with it. -/
inductive RemovesInTurn (cfg : ClientConfig) (version : Int32) :
    List String → Served → Served → Except Error Unit → Prop where
  | done (s : Served) : RemovesInTurn cfg version [] s s (.ok ())
  | next {q : String} {qs : List String} {s t : Served} {m : Nat} {res : Except Error Unit}
      (hm : Retried cfg.retry.retries (fun i => lostConnection
        (s.answer ((Call.remove q version).request.setChroot cfg.chroot) i)) m)
      (hgo : OkOr .noNode (Served.executed q
        (s.answer ((Call.remove q version).request.setChroot cfg.chroot) m)))
      (hrest : RemovesInTurn cfg version qs
        (s.queue (m + 1) ((Call.remove q version).request.setChroot cfg.chroot)) t res) :
      RemovesInTurn cfg version (q :: qs) s t res
  | stop {q : String} {qs : List String} {s : Served} {m : Nat} {e : Error}
      (hm : Retried cfg.retry.retries (fun i => lostConnection
        (s.answer ((Call.remove q version).request.setChroot cfg.chroot) i)) m)
      (he : Served.executed q
        (s.answer ((Call.remove q version).request.setChroot cfg.chroot) m) = .error e)
      (hstop : e.code? ≠ some .noNode) :
      RemovesInTurn cfg version (q :: qs) s
        (s.queue (m + 1) ((Call.remove q version).request.setChroot cfg.chroot)) (.error e)

section Remove

variable (cfg : ClientConfig) (version : Int32)

/-- `removeEach` removes its nodes in turn, from any state of a served session. -/
theorem removeEach_run (qs : List String) (hqs : ∀ q ∈ qs, Path.validate q = .ok ())
    (s : Served) :
    ∃ t res, RemovesInTurn cfg version qs s t res ∧
      ((Served.client cfg).removeEach version qs).run.run s = (res, t) := by
  -- induction on the nodes, from the session as the call before left it
  induction qs generalizing s with
  | nil => exact ⟨s, .ok (), .done s, rfl⟩
  | cons q qs ih =>
    obtain ⟨m, hm, hrun⟩ := Served.remove_run cfg q version (hqs q List.mem_cons_self) s
    let t := s.queue (m + 1) ((Call.remove q version).request.setChroot cfg.chroot)
    by_cases hc : OkOr .noNode (Served.executed q
        (s.answer ((Call.remove q version).request.setChroot cfg.chroot) m))
    · -- a node removed or already gone: the rest go on from the state the call left
      obtain ⟨t', res, hrel, hrest⟩ := ih (fun q' hq' => hqs q' (List.mem_cons_of_mem _ hq')) t
      refine ⟨t', res, .next hm hc hrel, ?_⟩
      rw [removeEach, run_bind_ok (run_tolerant_ok hrun ((okOr_map _ _).mpr hc)), hrest]
    · obtain ⟨e, ho, he⟩ := not_okOr hc
      refine ⟨t, .error e, .stop hm ho he, ?_⟩
      rw [ho] at hrun
      rw [removeEach]
      exact run_bind_error (run_tolerant_error hrun he)

/-- Once its path passes, removing a subtree is listing it and then removing the listing in
reverse; a listing that fails is the outcome, and nothing is removed. -/
theorem removeRecursive_run (fuel : Nat) {p : String} (hp : Path.validate p = .ok ())
    (s : Served) :
    ((Served.client cfg).removeRecursive fuel p version).run.run s =
      ((Served.client cfg).listSubTree fuel p >>= fun tree =>
        (Served.client cfg).removeEach version tree.reverse).run.run s := by
  unfold removeRecursive
  rw [run_bind_ok (run_lift_ok hp s)]

end Remove

/-! ### The subtree calls over a session that serves a tree -/

/-- Over a session that serves a tree, for a path `p`. When `p` has no node, the listing and the
removal fail with `NO_NODE` about `p` after one request. When it is a node whose subtree ends `h`
levels down, with fuel for all of it, the listing is the breadth-first order, which holds each
node of the subtree once; in its reverse every node comes after the nodes of its own subtree;
and the removal lists the subtree, then removes its nodes in that reverse order. Whatever the
session, a listing that fails is the removal's outcome, with nothing removed. -/
theorem subtree_listing_and_removal (cfg : ClientConfig) {kids : String → Option (List String)}
    (hT : IsTree kids) {s : Served} (hs : ServesTree cfg kids s) {p : String}
    (hp : Path.validate p = .ok ()) (version : Int32) :
    (kids p = none → ∀ fuel, 0 < fuel →
      ((Served.client cfg).listSubTree fuel p).run.run s =
        (.error (.exception ⟨.noNode, some p⟩),
          s.queue 1 ((Call.getChildren p none).request.setChroot cfg.chroot)) ∧
      ((Served.client cfg).removeRecursive fuel p version).run.run s =
        (.error (.exception ⟨.noNode, some p⟩),
          s.queue 1 ((Call.getChildren p none).request.setChroot cfg.chroot))) ∧
    (kids p ≠ none → ∀ h, level kids [p] (h + 1) = [] → ∀ fuel,
      (bfsOrder kids p h).length ≤ fuel →
      (∀ q, q ∈ bfsOrder kids p h ↔ InSubtree kids p q) ∧ (bfsOrder kids p h).Nodup ∧
      (∀ i j (hi : i < (bfsOrder kids p h).reverse.length)
        (hj : j < (bfsOrder kids p h).reverse.length),
        InSubtree kids (bfsOrder kids p h).reverse[i] (bfsOrder kids p h).reverse[j] → j ≤ i) ∧
      ((Served.client cfg).listSubTree fuel p).run.run s =
        (.ok (bfsOrder kids p h), s.queueAll ((bfsOrder kids p h).map fun q =>
          (Call.getChildren q none).request.setChroot cfg.chroot)) ∧
      ∃ t res, RemovesInTurn cfg version (bfsOrder kids p h).reverse
          (s.queueAll ((bfsOrder kids p h).map fun q =>
            (Call.getChildren q none).request.setChroot cfg.chroot)) t res ∧
        ((Served.client cfg).removeRecursive fuel p version).run.run s = (res, t)) ∧
    (∀ fuel (s' : Served) e t, ((Served.client cfg).listSubTree fuel p).run.run s' = (.error e, t) →
      ((Served.client cfg).removeRecursive fuel p version).run.run s' = (.error e, t)) := by
  refine ⟨fun hk fuel hfuel => ?_, fun hnode h hfin fuel hfuel => ?_,
    fun fuel s' e t hl => ?_⟩
  · -- no node: the first listing fails, and the removal stops there
    have hl := listSubTree_of_absent hs hp hk hfuel
    exact ⟨hl, by rw [removeRecursive_run cfg version fuel hp, run_bind_error hl]⟩
  · have hl := listSubTree_run hs hT hp hnode hfin hfuel
    have hnd := nodup_bfsOrder hT hp hnode h
    obtain ⟨t, res, hrel, hrun⟩ := removeEach_run cfg version (bfsOrder kids p h).reverse
      (fun q hq => (bfsOrder_nodes hT hp hnode h q (List.mem_reverse.mp hq)).1) _
    refine ⟨fun q => mem_bfsOrder hfin, hnd,
      reverse_descendants_first hT hnd (bfsOrder_sorted hT hp hnode h), hl, t, res, hrel, ?_⟩
    rw [removeRecursive_run cfg version fuel hp, run_bind_ok hl, hrun]
  · rw [removeRecursive_run cfg version fuel hp, run_bind_error hl]

/-- The tree of the root with one child `a`, which has none. -/
def rootAndChild (q : String) : Option (List String) :=
  if q = "/" then some ["a"] else if q = "/a" then some [] else none

theorem subtree_listing_and_removal_root_and_child :
    IsTree rootAndChild ∧ ServesTree {} rootAndChild (treeSession rootAndChild) ∧
    Path.validate "/" = .ok () ∧
    (rootAndChild "/" = none → ∀ fuel, 0 < fuel →
      ((Served.client {}).listSubTree fuel "/").run.run (treeSession rootAndChild) =
        (.error (.exception ⟨.noNode, some "/"⟩), (treeSession rootAndChild).queue 1
          ((Call.getChildren "/" none).request.setChroot ({} : ClientConfig).chroot)) ∧
      ((Served.client {}).removeRecursive fuel "/" (-1)).run.run (treeSession rootAndChild) =
        (.error (.exception ⟨.noNode, some "/"⟩), (treeSession rootAndChild).queue 1
          ((Call.getChildren "/" none).request.setChroot ({} : ClientConfig).chroot))) ∧
    (rootAndChild "/" ≠ none → ∀ h, level rootAndChild ["/"] (h + 1) = [] → ∀ fuel,
      (bfsOrder rootAndChild "/" h).length ≤ fuel →
      (∀ q, q ∈ bfsOrder rootAndChild "/" h ↔ InSubtree rootAndChild "/" q) ∧
      (bfsOrder rootAndChild "/" h).Nodup ∧
      (∀ i j (hi : i < (bfsOrder rootAndChild "/" h).reverse.length)
        (hj : j < (bfsOrder rootAndChild "/" h).reverse.length),
        InSubtree rootAndChild (bfsOrder rootAndChild "/" h).reverse[i]
          (bfsOrder rootAndChild "/" h).reverse[j] → j ≤ i) ∧
      ((Served.client {}).listSubTree fuel "/").run.run (treeSession rootAndChild) =
        (.ok (bfsOrder rootAndChild "/" h), (treeSession rootAndChild).queueAll
          ((bfsOrder rootAndChild "/" h).map fun q =>
            (Call.getChildren q none).request.setChroot ({} : ClientConfig).chroot)) ∧
      ∃ t res, RemovesInTurn {} (-1) (bfsOrder rootAndChild "/" h).reverse
          ((treeSession rootAndChild).queueAll ((bfsOrder rootAndChild "/" h).map fun q =>
            (Call.getChildren q none).request.setChroot ({} : ClientConfig).chroot)) t res ∧
        ((Served.client {}).removeRecursive fuel "/" (-1)).run.run (treeSession rootAndChild) =
          (res, t)) ∧
    (∀ fuel (s' : Served) e t,
      ((Served.client {}).listSubTree fuel "/").run.run s' = (.error e, t) →
      ((Served.client {}).removeRecursive fuel "/" (-1)).run.run s' = (.error e, t)) := by
  have hname : IsName "a" := ⟨by decide, by decide, Path.validate_eq_ok_iff.mpr (by decide)⟩
  have hT : IsTree rootAndChild := by
    constructor
    · intro x ns hx
      unfold rootAndChild at hx
      split at hx
      · cases hx
        exact ⟨by decide, by simpa using hname⟩
      · split at hx
        · cases hx
          exact ⟨List.nodup_nil, by simp⟩
        · cases hx
    · intro x ns hx n hn
      unfold rootAndChild at hx
      split at hx
      · rename_i hroot
        cases hx
        obtain rfl := List.mem_singleton.mp hn
        rw [hroot]
        decide
      · split at hx
        · cases hx
          cases hn
        · cases hx
  have hs := treeSession_serves {} rootAndChild
  have hp : Path.validate "/" = .ok () := Path.validate_eq_ok_iff.mpr (by decide)
  exact ⟨hT, hs, hp, subtree_listing_and_removal {} hT hs hp (-1)⟩

end Client

end Ensemble
