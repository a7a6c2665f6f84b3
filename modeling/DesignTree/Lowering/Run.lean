import DesignTree.Diagnostics.Fault

/-! # Runs

A run counts the identifiers that it has issued and collects diagnostics. What an operation has
issued and recorded stays also when the operation ends in a fault.
-/

namespace DesignTree

/-- The state of a run. -/
structure Run where
  issued : Nat := 0
  diagnostics : Diagnostics := []

/-- An operation of a run, which may end in a fault. -/
abbrev InRun (α : Type) := ExceptT Fault (StateM Run) α

namespace InRun

/-- The result of an operation and the state after it. -/
def runFrom (run : Run) (action : InRun α) : Except Fault α × Run :=
  StateT.run (ExceptT.run action) run

/-- What identifiers of nodes start with. -/
def nodePrefix : Text := "node_"

/-- Issues the next identifier: a stem and the number of identifiers issued so far. -/
def nextId (stem : Text := nodePrefix) : InRun Text := do
  modify fun run => { run with issued := run.issued + 1 }
  return stem ++ (← get).issued.repr

/-- Records diagnostics. -/
def record (ds : Diagnostics) : InRun Unit :=
  modify fun run => { run with diagnostics := run.diagnostics ++ ds }

/-- A fault where there is one. -/
def lift : Except Fault α → InRun α
  | .ok a => pure a
  | .error fault => throw fault

end InRun

end DesignTree
