import Ensemble.Client.Basic

/-! # Committing a transaction

A transaction is a list of operations that the ensemble applies all together or not at all. Each
operation is checked as a single call of its kind would be (path, then data, then ACLs) when it is
added (`Op.append`), and the first that fails stops the transaction before anything is sent.

The operations travel as one request, under the configured chroot and with the retries of any
call. A reply whose body is not a list of results is first checked for a failure code; without
one it is refused as a reply of the wrong shape. A list of results in which some operation
failed is the error `transactionFailed`, with the first failure code and all the results;
otherwise the results are the answer.
-/

namespace Ensemble

/-- Checks an operation's arguments as the single call of its kind does. -/
def Op.validate : Op → Except Error Unit
  | .create path data acls _ => do
    Path.validate path
    Client.checkData data
    Client.checkAcls acls
  | .delete path _ => Path.validate path
  | .setData path data _ => do
    Path.validate path
    Client.checkData data
  | .check path _ => Path.validate path

/-- Adds an operation to the end of a transaction being built, after checking its arguments. -/
def Op.append (ops : List Op) (op : Op) : Except Error (List Op) := do
  op.validate
  pure (ops ++ [op])

namespace Client

variable {m : Type → Type} [Monad m]

/-- Applies operations together; the results come in the order of the operations. -/
def commit (c : Client m) (ops : List Op) : ExceptT Error m (List OpResult) := do
  ops.forM fun op => lift op.validate
  let r ← c.send (Request.new .multi (.transaction ⟨ops, none⟩)) none
  match r.payload with
  | .transaction _ => pure ()
  | _ => lift (r.check none)
  let results ← lift r.transaction
  match firstFailure results with
  | some code => throw (.transactionFailed ⟨code, none⟩ results)
  | none => pure results

end Client

end Ensemble
