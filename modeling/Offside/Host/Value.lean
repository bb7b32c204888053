import Offside.Json.Basic

/-!
# Values in a template

How the host language looks at a value: whether it counts as true, how it is printed, and when two
values are the same.
-/

namespace Offside.Json

/-- Whether a value counts as true: not so null, zero, and what is empty. -/
def isTrue : Json → Bool
  | null => false
  | bool value => value
  | number value => !(value.toFloat == 0)
  | string value => !value.isEmpty
  | array items => !items.isEmpty
  | object fields => !fields.isEmpty

mutual

/-- How a value is printed. -/
def printed : Json → Text
  | null => []
  | bool value => if value then "true" else "false"
  | number value => value.text
  | string value => value
  | array items => "[" ++ printedItems items ++ "]"
  | object _ => "[object]"

/-- How the items of a list are printed. -/
def printedItems : List Json → Text
  | [] => []
  | [item] => item.printed
  | item :: rest => item.printed ++ ", " ++ printedItems rest

end

mutual

/-- Whether two values are the same. -/
def same : Json → Json → Bool
  | null, null => true
  | bool a, bool b => a == b
  | number (.whole a), number (.whole b) => a == b
  | number (.fraction a), number (.fraction b) => a == b
  | string a, string b => a == b
  | array as, array bs => sameItems as bs
  | object as, object bs => sameFields as bs
  | _, _ => false

/-- Whether two lists have the same items. -/
def sameItems : List Json → List Json → Bool
  | [], [] => true
  | a :: as, b :: bs => a.same b && sameItems as bs
  | _, _ => false

/-- Whether two objects have the same fields. -/
def sameFields : List (Text × Json) → List (Text × Json) → Bool
  | [], [] => true
  | (name, a) :: as, (other, b) :: bs => name == other && a.same b && sameFields as bs
  | _, _ => false

end

/-- Whether two values are equal in an expression.  Numbers are compared by size, and a number is
equal to nothing else. -/
def equals : Json → Json → Bool
  | number a, number b => a.toFloat == b.toFloat
  | a, b => a.same b

/-- The part of a value that a key names: a field of an object, or an item of a list. -/
def child? (key : Text) : Json → Option Json
  | object fields => Table.get? fields key
  | array items =>
    if key.isEmpty || !key.all Char.isDigit then none else items[Decimal.digitsValue key]?
  | _ => none

/-- The part of a value that a path of keys leads to. -/
def descend? : List Text → Json → Option Json
  | [], value => some value
  | key :: keys, value => (value.child? key).bind (descend? keys)

end Offside.Json
