import Ensemble.Client.Basic

/-! # Calls over a subtree

`listSubTree` lists a node and everything below it, breadth first, with siblings in the order
the server gives them. A child's path is its parent's path, `/` and its name, or `/` and its name
under the root. It asks for the children of one node at a time and visits at most `fuel` nodes,
so it ends even if the server keeps inventing children.

`removeRecursive` lists the subtree and removes its nodes deepest first, in the reverse of the
listing; a node that is already gone is no failure.

`mkdirp` creates every ancestor of a path and the path itself, top down; a node that already
exists is no failure. It returns the path, or `/` for the root.
-/

namespace Ensemble

namespace Client

variable {m : Type → Type} [Monad m]

/-- The path of a child of `parent`. -/
def childPath (parent name : String) : String :=
  if parent = "/" then "/" ++ name else parent ++ "/" ++ name

/-- Breadth-first listing from a queue of nodes still to visit; `tree` is the listing so far. -/
def walk (c : Client m) : (fuel : Nat) → (pending tree : List String) → ExceptT Error m (List String)
  | 0, _, tree => pure tree
  | _, [], tree => pure tree
  | fuel + 1, node :: rest, tree => do
    let (children, _) ← c.getChildren node none
    let paths := children.map (childPath node)
    walk c fuel (rest ++ paths) (tree ++ paths)

/-- A node and every node below it, breadth first, visiting at most `fuel` nodes. -/
def listSubTree (c : Client m) (fuel : Nat) (path : String) : ExceptT Error m (List String) := do
  lift (Path.validate path)
  c.walk fuel [path] [path]

/-- Removes nodes in order; a node that is already gone is passed over. -/
def removeEach (c : Client m) (version : Int32) : List String → ExceptT Error m Unit
  | [] => pure ()
  | node :: rest => do
    try c.remove node version
    catch e => if e.code? = some .noNode then pure () else throw e
    removeEach c version rest

/-- Removes a node and everything below it, deepest first; lists at most `fuel` nodes. -/
def removeRecursive (c : Client m) (fuel : Nat) (path : String) (version : Int32) :
    ExceptT Error m Unit := do
  lift (Path.validate path)
  let tree ← c.listSubTree fuel path
  c.removeEach version tree.reverse

/-- The node names of a path, top down: the pieces between its slashes after the first, the
empty ones left out. -/
def names (path : String) : List String :=
  (((path.toList.splitOn '/').drop 1).map String.ofList).filter (· ≠ "")

/-- The path of a list of node names, top down: `/` before each name. -/
def pathOf (names : List String) : String :=
  String.join (names.map ("/" ++ ·))

/-- The paths of a path's ancestors below the root and of the path itself, top down: one for
each nonempty prefix of its names. -/
def ancestry (path : String) : List String :=
  let ns := names path
  (List.range ns.length).map fun i => pathOf (ns.take (i + 1))

/-- Creates nodes in order; a node that already exists is passed over. -/
def createEach (c : Client m) (data : Option (List UInt8)) (acls : List Acl) (mode : CreateMode) :
    List String → ExceptT Error m Unit
  | [] => pure ()
  | node :: rest => do
    try discard <| c.create node data acls mode
    catch e => if e.code? = some .nodeExists then pure () else throw e
    createEach c data acls mode rest

/-- Creates a path and all its missing ancestors, each with the same data, ACLs and mode. -/
def mkdirp (c : Client m) (path : String) (data : Option (List UInt8)) (acls : List Acl)
    (mode : CreateMode) : ExceptT Error m String := do
  lift (Path.validate path)
  lift (checkData data)
  lift (checkAcls acls)
  let nodes := ancestry path
  c.createEach data acls mode nodes
  pure (nodes.getLast?.getD "/")

end Client

end Ensemble
