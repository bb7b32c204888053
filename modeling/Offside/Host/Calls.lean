import Offside.Host.Function
import Offside.Registry

/-!
# Calls of functions

What a page does besides writing text is to call functions by name.  Which call comes next depends
on the values that the calls before it gave, so the calls that a page can make form a tree.  The
tree is built without calling anything; the calls are made when it is run with the functions of a
registry (`HostCalls.run`), and the first that fails ends the run.
-/

namespace Offside

/-- What is computed by calling functions: a value, the text of an error, or a call with what is
computed from its value. -/
inductive HostCalls (α : Type) where
  | done (value : α)
  | fail (cause : Text)
  | call (function : Text) (arguments : Fields) (next : Json → HostCalls α)

/-- The function with the given name. -/
def Registry.answer {σ : Type} (functions : Registry (HostFunction σ)) (name : Text) :
    HostFunction σ := fun arguments =>
  match functions.get? name with
  | none => throw ("function not found: " ++ name)
  | some function => function arguments

namespace HostCalls

variable {α β σ : Type}

/-- Go on with the value of a computation. -/
def andThen : HostCalls α → (α → HostCalls β) → HostCalls β
  | done value, next => next value
  | fail cause, _ => .fail cause
  | call function arguments after, next =>
    .call function arguments fun value => (after value).andThen next

instance : Monad HostCalls where
  pure := done
  bind := andThen

/-- Make the calls, one after the other. -/
def run (functions : Registry (HostFunction σ)) : HostCalls α → HostAction σ α
  | done value => return value
  | fail cause => throw cause
  | call function arguments next => do
    let value ← functions.answer function arguments
    run functions (next value)

end HostCalls

end Offside
