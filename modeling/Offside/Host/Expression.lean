import Offside.Host.Calls
import Offside.Host.Value

/-!
# Expressions of a template

The expressions of the host language and their values.  A variable that is missing makes an
expression fail, except where only its truth is asked for: there it counts as false
(`Expression.holds`).
-/

namespace Offside

/-- An operation on numbers. -/
inductive ArithmeticOp where
  | plus
  | minus
  | times
  deriving Repr, DecidableEq

/-- A comparison of two values. -/
inductive Comparison where
  | equal
  | different
  | less
  | atMost
  | greater
  | atLeast
  deriving Repr, DecidableEq

/-- An expression. -/
inductive Expression where
  | literal (value : Json)
  | path (name : Text) (keys : List Text)
  | call (name : Text) (arguments : List (Text × Expression))
  | concat (parts : List Expression)
  | arithmetic (op : ArithmeticOp) (left right : Expression)
  | compare (op : Comparison) (left right : Expression)
  | both (left right : Expression)
  | either (left right : Expression)
  | negated (inner : Expression)

/-! ## Numbers -/

namespace JsonNumber

/-- Whether a number is whole and fits in 64 bits with a sign. -/
def isSigned : JsonNumber → Bool
  | whole value => -0x8000000000000000 ≤ value && value < 0x8000000000000000
  | fraction _ => false

/-- Whether a number is whole and fits in 64 bits without a sign. -/
def isUnsigned : JsonNumber → Bool
  | whole value => 0 ≤ value && value < Text.wordLimit
  | fraction _ => false

end JsonNumber

namespace ArithmeticOp

/-- The operation on whole numbers. -/
def onWhole : ArithmeticOp → Int → Int → Int
  | plus, a, b => a + b
  | minus, a, b => a - b
  | times, a, b => a * b

/-- The operation on doubles. -/
def onFloat : ArithmeticOp → Float → Float → Float
  | plus, a, b => a + b
  | minus, a, b => a - b
  | times, a, b => a * b

/-- The operation.  Whole numbers of one kind stay of that kind, and the result has to fit. -/
def apply (op : ArithmeticOp) (left right : JsonNumber) : Option JsonNumber :=
  match left, right with
  | .whole a, .whole b =>
    let result : JsonNumber := .whole (op.onWhole a b)
    if left.isSigned && right.isSigned then if result.isSigned then some result else none
    else if left.isUnsigned && right.isUnsigned then
      if result.isUnsigned then some result else none
    else some (.fraction (op.onFloat left.toFloat right.toFloat))
  | _, _ => some (.fraction (op.onFloat left.toFloat right.toFloat))

end ArithmeticOp

namespace Comparison

/-- The result of comparing two values; only numbers have an order. -/
def apply (op : Comparison) (left right : Json) : Option Bool :=
  let ordered (f : Float → Float → Bool) : Option Bool :=
    match left, right with
    | .number a, .number b => some (f a.toFloat b.toFloat)
    | _, _ => none
  let unlike : Bool :=
    match left, right with
    | .number _, .number _ => false
    | .number _, _ => true
    | _, .number _ => true
    | _, _ => false
  match op with
  | equal => some (left.equals right)
  | different => some (!unlike && !left.equals right)
  | less => ordered fun a b => a < b
  | atMost => ordered fun a b => a ≤ b
  | greater => ordered fun a b => b < a
  | atLeast => ordered fun a b => b ≤ a

end Comparison

/-! ## Values -/

/-- What an expression can refer to. -/
structure HostScope where
  /-- The names of the functions that there are. -/
  functions : List Text
  values : Fields

namespace HostScope

/-- The value that a path leads to. -/
def lookup? (scope : HostScope) (name : Text) (keys : List Text) : Option Json :=
  (Table.get? scope.values name).bind (Json.descend? keys)

/-- The scope with a further variable. -/
def assign (scope : HostScope) (name : Text) (value : Json) : HostScope :=
  { scope with values := Table.insert name value scope.values }

end HostScope

namespace Expression

/-- The truth of an expression, given the step that gives its value.  A missing variable is false,
and a function has to give a truth value. -/
def holds (scope : HostScope) (e : Expression) (value : HostCalls Json) :
    HostCalls Bool :=
  match e with
  | path name keys => return (scope.lookup? name keys).any Json.isTrue
  | call .. => do
    match ← value with
    | .bool result => return result
    | _ => .fail "the function gives no truth value"
  | _ => return (← value).isTrue

/-- The number that a value is. -/
def asNumber (value : Json) : HostCalls JsonNumber :=
  match value with
  | .number n => return n
  | _ => .fail "the value is not a number"

mutual

/-- The value of an expression. -/
def value (scope : HostScope) : Expression → HostCalls Json
  | literal value => return value
  | path name keys =>
    match scope.lookup? name keys with
    | some value => return value
    | none => .fail ("variable not found: " ++ Text.join "." (name :: keys))
  | call name arguments =>
    if scope.functions.contains name then do
      let arguments ← argumentValues scope arguments
      .call name (Table.ofList arguments) .done
    else .fail ("function not found: " ++ name)
  | concat parts => do
    let parts ← printedValues scope parts
    return .string (Text.concat parts)
  | arithmetic op left right => do
    let left ← asNumber (← value scope left)
    let right ← asNumber (← value scope right)
    match op.apply left right with
    | some result => return .number result
    | none => .fail "the result is out of bounds"
  | compare op left right => do
    let left ← value scope left
    let right ← value scope right
    match op.apply left right with
    | some result => return .bool result
    | none => .fail "the values have no order"
  | both left right => do
    if ← left.holds scope (value scope left) then
      return .bool (← right.holds scope (value scope right))
    else return .bool false
  | either left right => do
    if ← left.holds scope (value scope left) then return .bool true
    else return .bool (← right.holds scope (value scope right))
  | negated inner => do
    let result ← inner.holds scope (value scope inner)
    return .bool (!result)

/-- The values of arguments. -/
def argumentValues (scope : HostScope) :
    List (Text × Expression) → HostCalls (List (Text × Json))
  | [] => return []
  | (name, e) :: rest => do
    let here ← value scope e
    let rest ← argumentValues scope rest
    return (name, here) :: rest

/-- The printed values of expressions. -/
def printedValues (scope : HostScope) : List Expression → HostCalls (List Text)
  | [] => return []
  | e :: rest => do
    let here ← value scope e
    let rest ← printedValues scope rest
    return here.printed :: rest

end

/-- The truth of an expression. -/
def truth (scope : HostScope) (e : Expression) : HostCalls Bool :=
  e.holds scope (e.value scope)

end Expression

end Offside
